import OsClientCerts.CertCleanup
import OsClientCerts.GuardedRuns

/-!
The send hook of a compose window: a send command is held back, the stale rows are
deleted, and the send follows. While the pass runs the hook lets every command through.
-/

namespace OsClientCerts.CertCleanup
open GuardedRuns

def sendCommandIds : List JsString :=
  [ofAscii "button-send", ofAscii "cmd_sendButton", ofAscii "cmd_sendNow",
    ofAscii "cmd_sendLater", ofAscii "menu-item-send-now"]

inductive DeliverMode where
  | now
  | later
  deriving DecidableEq

def commandIdToDeliverMode (id : JsString) : DeliverMode :=
  if id = ofAscii "cmd_sendLater" then .later else .now

/-- A call of `doCleanup` that has not settled, with the command that began it. -/
structure Pass where
  command : Nat
  msgType : DeliverMode

inductive Sender where
  /-- Thunderbird's own handler of the command. -/
  | ownHandler (id : JsString)
  | genericSendMessage (msgType : DeliverMode)
  deriving DecidableEq

/-- A started send: the command that led to it, and the commands whose passes ran or had
finished at that moment. -/
structure Send where
  command : Nat
  sender : Sender
  running : List Nat
  finished : List Nat
  deriving DecidableEq

def Send.Timely (send : Send) : Prop := send.running = [] ∧ send.finished ≠ []

structure ComposeWindow where
  certCleanupInterceptingSend : Bool
  commands : Nat
  passes : List Pass
  finished : List Nat
  sends : List Send

inductive WindowEvent where
  /-- A command event and the id of its target. -/
  | command (id : Option JsString)
  /-- The pass of a command settles; the window has a `GenericSendMessage` or not. -/
  | settled (command : Nat) (deleted : Except Unit (List DeletedRecord))
      (genericSendMessage : Bool)

namespace ComposeWindow

def hooked : ComposeWindow := ⟨false, 0, [], [], []⟩

def running (window : ComposeWindow) : List Nat := window.passes.map Pass.command

def startSend (window : ComposeWindow) (command : Nat) (sender : Sender) : ComposeWindow :=
  { window with sends := window.sends ++ [⟨command, sender, window.running, window.finished⟩] }

/-- The capturing listener, and whether it stops the event. -/
def hookSendButton (window : ComposeWindow) (id : Option JsString) : ComposeWindow × Bool :=
  if window.certCleanupInterceptingSend then (window, false)
  else match id with
    | none => (window, false)
    | some id =>
        if id ∈ sendCommandIds then
          ({ window with
              certCleanupInterceptingSend := true
              passes := window.passes ++ [⟨window.commands, commandIdToDeliverMode id⟩] }, true)
        else (window, false)

def command (window : ComposeWindow) (id : Option JsString) : ComposeWindow :=
  let (heard, stopped) := window.hookSendButton id
  let answered := match stopped, id with
    | false, some id =>
        if id ∈ sendCommandIds then heard.startSend window.commands (.ownHandler id) else heard
    | _, _ => heard
  { answered with commands := window.commands + 1 }

def proceed (window : ComposeWindow) (pass : Pass) (genericSendMessage : Bool) :
    ComposeWindow :=
  let cleared := { window with certCleanupInterceptingSend := false }
  if genericSendMessage then cleared.startSend pass.command (.genericSendMessage pass.msgType)
  else cleared

def settled (window : ComposeWindow) (command : Nat)
    (deleted : Except Unit (List DeletedRecord)) (genericSendMessage : Bool) : ComposeWindow :=
  match window.passes.find? fun pass => pass.command = command with
  | none => window
  | some pass =>
      let ended := { window with
        passes := window.passes.filter fun other => other.command ≠ command
        finished := window.finished ++ [command] }
      -- A failed pass is logged, and the send follows all the same.
      match deleted with
      | .ok _ | .error _ => ended.proceed pass genericSendMessage

def step : WindowEvent → ComposeWindow → ComposeWindow
  | .command id, window => window.command id
  | .settled command deleted genericSendMessage, window =>
      window.settled command deleted genericSendMessage

def afterRun (run : List WindowEvent) : ComposeWindow :=
  LocalAutomata.after step run hooked

/-- Every send started while no pass ran and after one had finished, and no command led to
two sends. -/
def CleanupPrecedes (window : ComposeWindow) : Prop :=
  (∀ send ∈ window.sends, send.Timely) ∧ (window.sends.map Send.command).Nodup

/-- No send command while a pass of the window runs. -/
def NoSendDuringPass : WindowEvent → ComposeWindow → Prop
  | .command (some id), window => id ∈ sendCommandIds → window.passes = []
  | _, _ => True

def begun (window : ComposeWindow) : List Nat :=
  window.running ++ window.sends.map Send.command

@[simp] theorem start_send_begun (window : ComposeWindow) (command : Nat) (sender : Sender) :
    (window.startSend command sender).begun = window.begun ++ [command] := by
  simp [begun, startSend, running]

structure Orderly (window : ComposeWindow) : Prop where
  flag : window.certCleanupInterceptingSend = !window.passes.isEmpty
  single : window.passes.length ≤ 1
  fresh : ∀ command ∈ window.begun, command < window.commands
  once : window.begun.Nodup

section
variable {window : ComposeWindow} {id : JsString}

theorem command_none : window.command none = { window with commands := window.commands + 1 } := by
  rcases window with ⟨_ | _, _, _, _, _⟩ <;> simp [command, hookSendButton]

theorem command_other (other : id ∉ sendCommandIds) :
    window.command (some id) = { window with commands := window.commands + 1 } := by
  rcases window with ⟨_ | _, _, _, _, _⟩ <;> simp [command, hookSendButton, other]

theorem command_held (flag : window.certCleanupInterceptingSend = false)
    (send : id ∈ sendCommandIds) :
    window.command (some id) = { window with
      certCleanupInterceptingSend := true
      passes := window.passes ++ [⟨window.commands, commandIdToDeliverMode id⟩]
      commands := window.commands + 1 } := by
  simp [command, hookSendButton, flag, send]

theorem command_through (flag : window.certCleanupInterceptingSend = true)
    (send : id ∈ sendCommandIds) :
    window.command (some id) = { window.startSend window.commands (.ownHandler id) with
      commands := window.commands + 1 } := by
  simp [command, hookSendButton, flag, send]

theorem Orderly.passes_cases (orderly : window.Orderly) :
    (window.passes = [] ∧ window.certCleanupInterceptingSend = false) ∨
      ∃ pass, window.passes = [pass] ∧ window.certCleanupInterceptingSend = true := by
  obtain ⟨flag, single, _, _⟩ := orderly
  match held : window.passes with
  | [] => exact Or.inl ⟨rfl, by simpa [held] using flag⟩
  | [pass] => exact Or.inr ⟨pass, rfl, by simpa [held] using flag⟩
  | _ :: _ :: _ => simp [held] at single

theorem settled_absent {command : Nat} {deleted : Except Unit (List DeletedRecord)}
    {genericSendMessage : Bool} (absent : ∀ pass ∈ window.passes, pass.command ≠ command) :
    window.settled command deleted genericSendMessage = window := by
  have none : window.passes.find? (fun pass => pass.command = command) = none := by
    simpa using absent
  simp [settled, none]

theorem settled_single {pass : Pass} {deleted : Except Unit (List DeletedRecord)}
    {genericSendMessage : Bool} (held : window.passes = [pass]) :
    window.settled pass.command deleted genericSendMessage =
      { window with passes := [], finished := window.finished ++ [pass.command] }.proceed pass
        genericSendMessage := by
  cases deleted <;> simp [settled, held]

theorem Orderly.proceed {pass : Pass} {genericSendMessage : Bool} (orderly : window.Orderly)
    (held : window.passes = [pass]) :
    ({ window with passes := [], finished := window.finished ++ [pass.command] }.proceed pass
      genericSendMessage).Orderly := by
  obtain ⟨_, _, fresh, once⟩ := orderly
  have split : window.begun = pass.command :: window.sends.map Send.command := by
    simp [begun, running, held]
  rw [split] at fresh once
  obtain ⟨new, distinct⟩ := List.nodup_cons.mp once
  cases genericSendMessage with
  | false =>
      exact ⟨rfl, Nat.zero_le _,
        fun command member => fresh command (List.mem_cons_of_mem _ member), distinct⟩
  | true =>
      have sent : begun (ComposeWindow.proceed
          { window with passes := [], finished := window.finished ++ [pass.command] } pass true) =
          window.sends.map Send.command ++ [pass.command] := by
        rw [ComposeWindow.proceed, if_pos rfl, start_send_begun]
        rfl
      refine ⟨rfl, Nat.zero_le _, ?_, ?_⟩
      · intro command member
        rw [sent] at member
        exact fresh command (List.perm_append_singleton _ _ |>.mem_iff.mp member)
      · rw [sent]
        exact (List.perm_append_singleton _ _).nodup_iff.mpr (List.nodup_cons.mpr ⟨new, distinct⟩)

theorem orderly_command (orderly : window.Orderly) (target : Option JsString) :
    (window.command target).Orderly := by
  have later : ∀ command ∈ window.begun, command < window.commands + 1 :=
    fun command member => Nat.lt_succ_of_lt (orderly.fresh command member)
  have unused : window.commands ∉ window.begun :=
    fun member => Nat.lt_irrefl _ (orderly.fresh _ member)
  match target with
  | none =>
      rw [command_none]
      exact ⟨orderly.flag, orderly.single, later, orderly.once⟩
  | some id =>
      by_cases send : id ∈ sendCommandIds
      · rcases orderly.passes_cases with ⟨idle, clear⟩ | ⟨pass, _, set⟩
        · rw [command_held clear send]
          have split : window.begun = window.sends.map Send.command := by
            simp [begun, running, idle]
          rw [split] at later unused
          refine ⟨by simp, by simp [idle], ?_, ?_⟩
          · simpa [begun, running, idle] using later
          · simpa [begun, running, idle] using ⟨by simpa using unused, split ▸ orderly.once⟩
        · rw [command_through set send]
          refine ⟨orderly.flag, orderly.single, ?_, ?_⟩
          · intro command member
            have member : command ∈ (window.startSend window.commands (.ownHandler id)).begun :=
              member
            rw [start_send_begun, List.mem_append, List.mem_singleton] at member
            rcases member with earlier | rfl
            · exact later command earlier
            · exact Nat.lt_succ_self _
          · have appended : (window.startSend window.commands (.ownHandler id)).begun.Nodup := by
              rw [start_send_begun]
              exact orderly.once.append (List.nodup_singleton _) (by simpa using unused)
            exact appended
      · rw [command_other send]
        exact ⟨orderly.flag, orderly.single, later, orderly.once⟩

theorem orderly_step (event : WindowEvent) (window : ComposeWindow) (orderly : window.Orderly) :
    (step event window).Orderly := by
  cases event with
  | command target => exact orderly_command orderly target
  | settled command deleted genericSendMessage =>
      by_cases absent : ∀ pass ∈ window.passes, pass.command ≠ command
      · simpa only [step, settled_absent absent] using orderly
      · rcases orderly.passes_cases with ⟨idle, _⟩ | ⟨pass, held, _⟩
        · simp [idle] at absent
        · obtain rfl : pass.command = command := by simpa [held] using absent
          rw [step, settled_single held]
          exact orderly.proceed held

theorem sends_of_step (event : WindowEvent) (window : ComposeWindow) (orderly : window.Orderly) :
    (step event window).sends = window.sends ∧ NoSendDuringPass event window ∨
      ∃ send, (step event window).sends = window.sends ++ [send] ∧
        (send.Timely ↔ NoSendDuringPass event window) := by
  -- A step starts a send that is out of time exactly when it does not meet the condition.
  cases event with
  | settled command deleted genericSendMessage =>
      by_cases absent : ∀ pass ∈ window.passes, pass.command ≠ command
      · exact Or.inl ⟨by rw [step, settled_absent absent], trivial⟩
      · rcases orderly.passes_cases with ⟨idle, _⟩ | ⟨pass, held, _⟩
        · simp [idle] at absent
        · obtain rfl : pass.command = command := by simpa [held] using absent
          rw [step, settled_single held]
          cases genericSendMessage with
          | false => exact Or.inl ⟨rfl, trivial⟩
          | true => exact Or.inr ⟨_, rfl, iff_of_true ⟨rfl, by simp⟩ trivial⟩
  | command target =>
      match target with
      | none => exact Or.inl ⟨by rw [step, command_none], trivial⟩
      | some id =>
          by_cases send : id ∈ sendCommandIds
          · rcases orderly.passes_cases with ⟨idle, clear⟩ | ⟨pass, held, set⟩
            · exact Or.inl ⟨by rw [step, command_held clear send], fun _ => idle⟩
            -- The flag is set: the hook steps aside and the message goes out at once.
            · refine Or.inr ⟨_, by rw [step, command_through set send]; rfl, iff_of_false ?_ ?_⟩
              · rintro ⟨alone, _⟩
                simp [running, held] at alone
              · intro meets
                simp [meets send] at held
          · exact Or.inl ⟨by rw [step, command_other send], fun member => absurd member send⟩

theorem untimely_step (event : WindowEvent) (window : ComposeWindow)
    (untimely : window.Orderly ∧ ∃ send ∈ window.sends, ¬send.Timely) :
    (step event window).Orderly ∧ ∃ send ∈ (step event window).sends, ¬send.Timely := by
  -- A send that is out of time stays started.
  obtain ⟨orderly, send, member, late⟩ := untimely
  refine ⟨orderly_step event window orderly, send, ?_, late⟩
  rcases sends_of_step event window orderly with ⟨same, _⟩ | ⟨_, grown, _⟩
  · exact same ▸ member
  · exact grown ▸ List.mem_append_left _ member

theorem hooked_orderly : hooked.Orderly :=
  ⟨rfl, Nat.zero_le _, fun _ member => absurd member List.not_mem_nil, List.nodup_nil⟩

/-- The cleanup precedes every send of a run exactly when no send command comes while a pass
of the window runs. -/
theorem cleanup_precedes_iff (run : List WindowEvent) :
    (afterRun run).CleanupPrecedes ↔ Meets step NoSendDuringPass run hooked := by
  constructor
  · intro precedes
    have breaks : ∀ (event : WindowEvent) (window : ComposeWindow), window.Orderly →
        ¬NoSendDuringPass event window →
          (step event window).Orderly ∧ ∃ send ∈ (step event window).sends, ¬send.Timely := by
      intro event window orderly bad
      refine ⟨orderly_step event window orderly, ?_⟩
      rcases sends_of_step event window orderly with ⟨_, meets⟩ | ⟨send, grown, timely_iff⟩
      · exact absurd meets bad
      · exact ⟨send, by simp [grown], fun timely => bad (timely_iff.mp timely)⟩
    refine meets_of_unbroken (fun event window orderly _ => orderly_step event window orderly)
      breaks untimely_step hooked_orderly ?_
    rintro ⟨_, send, member, late⟩
    exact late (precedes.1 send member)
  · intro meets
    have preserved : ∀ (event : WindowEvent) (window : ComposeWindow),
        (window.Orderly ∧ ∀ send ∈ window.sends, send.Timely) → NoSendDuringPass event window →
          (step event window).Orderly ∧ ∀ send ∈ (step event window).sends, send.Timely := by
      rintro event window ⟨orderly, timely⟩ allowed
      refine ⟨orderly_step event window orderly, ?_⟩
      rcases sends_of_step event window orderly with ⟨same, _⟩ | ⟨send, grown, timely_iff⟩
      · rwa [same]
      · intro other member
        rw [grown, List.mem_append, List.mem_singleton] at member
        rcases member with earlier | rfl
        · exact timely other earlier
        · exact timely_iff.mpr allowed
    have kept := meets_preserved preserved meets
      ⟨hooked_orderly, fun _ member => absurd member List.not_mem_nil⟩
    exact ⟨kept.2, (List.nodup_append.mp kept.1.once).2.1⟩

/-- A second click while the pass of the first still runs. -/
theorem second_click_sends_during_pass : ¬∀ run, (afterRun run).CleanupPrecedes := by
  intro claim
  let click : WindowEvent := .command (some (ofAscii "button-send"))
  have precedes := (claim [click, click]).1
  have through : ⟨1, .ownHandler (ofAscii "button-send"), [0], []⟩ ∈
      (afterRun [click, click]).sends := by decide
  exact absurd (precedes _ through).1 (by decide)

end

end ComposeWindow
end OsClientCerts.CertCleanup
