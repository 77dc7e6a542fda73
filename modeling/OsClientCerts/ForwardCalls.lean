import Mathlib.Data.List.Perm.Basic
import OsClientCerts.EncryptedForwards
import OsClientCerts.ForwardIntercept

/-!
The calls of `ComposeMessage` while it is wrapped. A Forward of one message waits for the
check of its text, and others go on meanwhile; in the end each call reaches Thunderbird's own
function once.
-/

namespace OsClientCerts.ForwardDecrypt
open GuardedRuns

/-- The arguments of a call; each message is given by its URI, if `uriOf` finds one. The
remaining arguments and `this` are passed on as they are. -/
structure ComposeArgs (Rest : Type) where
  type : Nat
  messageArray : Option (List (Option JsString))
  rest : Rest

/-- A call whose check has not been answered. -/
structure Delayed (Rest : Type) where
  number : Nat
  original : ComposeFn
  messageUri : Option JsString
  args : ComposeArgs Rest

structure Calls (Rest : Type) where
  enabled : Bool
  /-- The calls that were made, and those that came to the native function, by number. -/
  made : List (ComposeArgs Rest)
  delayed : List (Delayed Rest)
  delivered : List (Nat × ComposeArgs Rest)
  /-- The shared variables, with one readiness for each redirected call. -/
  lastForwardUri : Option JsString
  redirectPending : Bool
  redirected : List Nat

inductive ComposeEvent (Rest : Type) where
  | setEnabled (value : Bool)
  /-- The function of some window is called. -/
  | compose (composeMessage : ComposeFn) (args : ComposeArgs Rest)
  /-- A check ends, the mail client having answered so. -/
  | checked (place : Nat) (streamed : JsString → Bool × JsString)
      (getMimeTree : JsString → Except JsString (Option MimePart))
  | getAndClearRedirectPending

/-- Whether a wrapper delays the call, and for which message. -/
def ComposeArgs.single {Rest : Type} (args : ComposeArgs Rest) : Option (Option JsString) :=
  match args.messageArray with
  | some [messageUri] => if isForwardType args.type then some messageUri else none
  | _ => none

namespace Calls
variable {Rest : Type}

def fresh : Calls Rest := ⟨false, [], [], [], none, false, []⟩

def invoke (state : Calls Rest) (number : Nat) (args : ComposeArgs Rest) : ComposeFn → Calls Rest
  | .native => { state with delivered := state.delivered ++ [(number, args)] }
  | .wrapped _ original =>
      match if state.enabled then args.single else none with
      | some messageUri =>
          { state with delayed := state.delayed ++ [⟨number, original, messageUri, args⟩] }
      | none => invoke state number args original

def marked (state : Calls Rest) (call : Delayed Rest) : Calls Rest :=
  { state with
    lastForwardUri := call.messageUri
    redirectPending := true
    redirected := state.redirected ++ [call.number] }

def redirect (state : Calls Rest) (call : Delayed Rest) : Calls Rest :=
  (state.marked call).invoke call.number { call.args with type := ComposeType.replyToSender }
    call.original

def answer (state : Calls Rest) (place : Nat) (call : Delayed Rest) (shouldRedirect : Bool) :
    Calls Rest :=
  let taken := { state with delayed := state.delayed.eraseIdx place }
  if shouldRedirect then taken.redirect call
  else taken.invoke call.number call.args call.original

def step : ComposeEvent Rest → Calls Rest → Calls Rest
  | .setEnabled value, state => { state with enabled := value }
  | .compose composeMessage args, state =>
      { state with made := state.made ++ [args] }.invoke state.made.length args composeMessage
  | .checked place streamed getMimeTree, state =>
      match state.delayed[place]? with
      | some call => state.answer place call
          (isEmbeddedEncryptedSmime streamed getMimeTree call.messageUri)
      | none => state
  | .getAndClearRedirectPending, state => { state with redirectPending := false }

def afterRun (run : List (ComposeEvent Rest)) : Calls Rest := LocalAutomata.after step run fresh

variable {state : Calls Rest} {run : List (ComposeEvent Rest)}

theorem invoke_cases (state : Calls Rest) (number : Nat) (args : ComposeArgs Rest)
    (composeMessage : ComposeFn) :
    (∃ original messageUri, args.single = some messageUri ∧ state.enabled = true ∧
      original.wrappers < composeMessage.wrappers ∧
      state.invoke number args composeMessage =
        { state with delayed := state.delayed ++ [⟨number, original, messageUri, args⟩] }) ∨
    (state.invoke number args composeMessage =
        { state with delivered := state.delivered ++ [(number, args)] } ∧
      (composeMessage.wrappers = 0 ∨ state.enabled = false ∨ args.single = none)) := by
  induction composeMessage with
  | native => exact Or.inr ⟨rfl, Or.inl rfl⟩
  | wrapped serial original ih =>
      cases found : if state.enabled then args.single else none with
      | some messageUri =>
          left
          have on : state.enabled = true ∧ args.single = some messageUri := by
            cases enabled : state.enabled with
            | false => simp [enabled] at found
            | true => exact ⟨rfl, by simpa [enabled] using found⟩
          exact ⟨original, messageUri, on.2, on.1, Nat.lt_succ_self _, by simp [invoke, found]⟩
      | none =>
          have passed : state.invoke number args (.wrapped serial original) =
              state.invoke number args original := by simp [invoke, found]
          have off : state.enabled = false ∨ args.single = none := by
            cases enabled : state.enabled with
            | false => exact Or.inl rfl
            | true => exact Or.inr (by simpa [enabled] using found)
          rw [passed]
          rcases ih with ⟨inner, messageUri, single, on, fewer, same⟩ | ⟨same, -⟩
          · rcases off with disabled | absent
            · rw [on] at disabled
              cases disabled
            · rw [single] at absent
              cases absent
          · exact Or.inr ⟨same, Or.inr off⟩

/-- What a call comes to the native function with. -/
def Faithful (state : Calls Rest) (number : Nat) (args : ComposeArgs Rest) : Prop :=
  ∃ call, state.made[number]? = some call ∧
    (number ∉ state.redirected ∧ args = call ∨
      number ∈ state.redirected ∧ args = { call with type := ComposeType.replyToSender })

/-- The check that this call was delayed for has found its message encrypted. -/
def FoundEncrypted (run : List (ComposeEvent Rest)) (number : Nat)
    (messageUri : Option JsString) : Prop :=
  ∃ earlier place streamed getMimeTree later call,
    run = earlier ++ .checked place streamed getMimeTree :: later ∧
      (afterRun earlier).delayed[place]? = some call ∧ call.number = number ∧
      call.messageUri = messageUri ∧
      isEmbeddedEncryptedSmime streamed getMimeTree messageUri = true

/-- The call is a Forward of one message, and its own check found that message encrypted. -/
def Eligible (run : List (ComposeEvent Rest)) (state : Calls Rest) (number : Nat) : Prop :=
  ∃ call messageUri, state.made[number]? = some call ∧ call.single = some messageUri ∧
    FoundEncrypted run number messageUri

/-- Each call is delivered or delayed once, but for those that are being passed on. -/
structure CallsKept (run : List (ComposeEvent Rest)) (state : Calls Rest) (passing : List Nat) :
    Prop where
  once : (state.delivered.map Prod.fst ++ state.delayed.map Delayed.number ++ passing).Perm
    (List.range state.made.length)
  delivered : ∀ call ∈ state.delivered, state.Faithful call.1 call.2
  delayed : ∀ call ∈ state.delayed, state.made[call.number]? = some call.args ∧
    call.args.single = some call.messageUri ∧ call.number ∉ state.redirected
  redirected : ∀ number ∈ state.redirected, Eligible run state number
  distinct : state.redirected.Nodup
  noted : ∀ number, state.redirected.getLast? = some number → ∃ call,
    state.made[number]? = some call ∧ call.single = some state.lastForwardUri

theorem fresh_calls : CallsKept [] (fresh : Calls Rest) [] where
  once := .nil
  delivered _ member := by cases member
  delayed _ member := by cases member
  redirected _ member := by cases member
  distinct := .nil
  noted _ last := by cases last

section
variable {passing : List Nat} {number : Nat} {args : ComposeArgs Rest}

theorem Eligible.later {next : Calls Rest} {event : ComposeEvent Rest}
    (eligible : Eligible run state number)
    (same : ∀ (place : Nat) (call : ComposeArgs Rest), state.made[place]? = some call →
      next.made[place]? = some call) :
    Eligible (run ++ [event]) next number := by
  obtain ⟨call, messageUri, made, single, earlier, place, streamed, tree, later, checked, rfl,
    found⟩ := eligible
  exact ⟨call, messageUri, same number call made, single, earlier, place, streamed, tree,
    later ++ [event], checked, by simp, found⟩

theorem CallsKept.later (kept : CallsKept run state passing) (event : ComposeEvent Rest) :
    CallsKept (run ++ [event]) state passing :=
  { kept with
    redirected := fun number member =>
      Eligible.later (kept.redirected number member) fun _ _ held => held }

theorem Eligible.made (eligible : Eligible run state number) : number < state.made.length := by
  obtain ⟨call, -, made, -⟩ := eligible
  exact (List.getElem?_eq_some_iff.mp made).1

theorem CallsKept.made (kept : CallsKept run state []) (args : ComposeArgs Rest) :
    CallsKept run { state with made := state.made ++ [args] } [state.made.length] := by
  have same : ∀ (place : Nat) (call : ComposeArgs Rest), state.made[place]? = some call →
      (state.made ++ [args])[place]? = some call := by
    intro place call held
    rw [List.getElem?_append_left (List.getElem?_eq_some_iff.mp held).1, held]
  refine ⟨?_, ?_, ?_, ?_, kept.distinct, ?_⟩
  · have once := kept.once
    rw [List.append_nil] at once
    simp only [List.length_append, List.length_singleton, List.range_succ]
    exact once.append_right _
  · intro call member
    obtain ⟨made, held, which⟩ := kept.delivered call member
    exact ⟨made, same _ _ held, which⟩
  · intro call member
    obtain ⟨held, rest⟩ := kept.delayed call member
    exact ⟨same _ _ held, rest⟩
  · intro number member
    obtain ⟨call, messageUri, held, rest⟩ := kept.redirected number member
    exact ⟨call, messageUri, same _ _ held, rest⟩
  · intro number last
    obtain ⟨call, held, rest⟩ := kept.noted number last
    exact ⟨call, same _ _ held, rest⟩

theorem CallsKept.invoke (kept : CallsKept run state [number]) (faithful : state.Faithful number args)
    (plain : args.single ≠ none → state.made[number]? = some args ∧ number ∉ state.redirected)
    (composeMessage : ComposeFn) :
    CallsKept run (state.invoke number args composeMessage) [] := by
  rcases invoke_cases state number args composeMessage with
    ⟨original, messageUri, single, -, -, same⟩ | ⟨same, -⟩
  · rw [same]
    refine ⟨?_, kept.delivered, ?_, kept.redirected, kept.distinct, kept.noted⟩
    · have once := kept.once
      simpa using once
    · intro call member
      rcases List.mem_append.mp member with before | last
      · exact kept.delayed call before
      · obtain rfl := List.mem_singleton.mp last
        obtain ⟨held, absent⟩ := plain (by simp [single])
        exact ⟨held, single, absent⟩
  · rw [same]
    refine ⟨?_, ?_, kept.delayed, kept.redirected, kept.distinct, kept.noted⟩
    · have once := kept.once
      simp only [List.map_append, List.map_cons, List.map_nil, List.append_nil, List.append_assoc]
      rw [List.append_assoc] at once
      exact (List.perm_append_comm.append_left _).trans once
    · intro call member
      rcases List.mem_append.mp member with before | last
      · exact kept.delivered call before
      · obtain rfl := List.mem_singleton.mp last
        exact faithful

theorem CallsKept.taken (kept : CallsKept run state []) {place : Nat} {call : Delayed Rest}
    (found : state.delayed[place]? = some call) :
    CallsKept run { state with delayed := state.delayed.eraseIdx place } [call.number] := by
  refine ⟨?_, kept.delivered, ?_, kept.redirected, kept.distinct, kept.noted⟩
  · obtain ⟨inside, rfl⟩ := List.getElem?_eq_some_iff.mp found
    have once := kept.once
    have split := (List.getElem_cons_eraseIdx_perm inside).map Delayed.number
    rw [List.append_nil] at once
    rw [List.append_assoc]
    exact (((List.perm_append_comm.trans split).append_left _)).trans once
  · intro other member
    exact kept.delayed other (List.mem_of_mem_eraseIdx member)

theorem CallsKept.apart (kept : CallsKept run state [number]) :
    (∀ call ∈ state.delivered, call.1 ≠ number) ∧ ∀ call ∈ state.delayed, call.number ≠ number := by
  have nodup := kept.once.nodup_iff.mpr List.nodup_range
  have apart := (List.nodup_append.mp nodup).2.2
  constructor
  · intro call member same
    exact apart _ (List.mem_append_left _ (List.mem_map_of_mem member)) number
      (List.mem_singleton.mpr rfl) same
  · intro call member same
    exact apart _ (List.mem_append_right _ (List.mem_map_of_mem member)) number
      (List.mem_singleton.mpr rfl) same

theorem CallsKept.marked {call : Delayed Rest} (kept : CallsKept run state [call.number])
    (made : state.made[call.number]? = some call.args)
    (single : call.args.single = some call.messageUri) (absent : call.number ∉ state.redirected)
    (eligible : Eligible run state call.number) :
    CallsKept run (state.marked call) [call.number] := by
  have same : ∀ number, number ≠ call.number →
      (number ∈ state.redirected ++ [call.number] ↔ number ∈ state.redirected) := by
    intro number other
    simp [other]
  refine ⟨kept.once, ?_, ?_, ?_, ?_, ?_⟩
  · intro earlier member
    obtain ⟨before, held, which⟩ := kept.delivered earlier member
    refine ⟨before, held, ?_⟩
    simpa only [Calls.marked, same _ (kept.apart.1 earlier member)] using which
  · intro other member
    obtain ⟨held, single, absent⟩ := kept.delayed other member
    refine ⟨held, single, ?_⟩
    simpa only [Calls.marked, same _ (kept.apart.2 other member)] using absent
  · intro number member
    rcases List.mem_append.mp member with before | last
    · exact kept.redirected number before
    · obtain rfl := List.mem_singleton.mp last
      exact eligible
  · exact List.nodup_append.mpr ⟨kept.distinct, by simp, by
      intro number member other last
      obtain rfl := List.mem_singleton.mp last
      rintro rfl
      exact absent member⟩
  · intro number last
    simp only [Calls.marked, List.getLast?_concat, Option.some.injEq] at last
    subst last
    exact ⟨call.args, made, single⟩

end

theorem single_reply (args : ComposeArgs Rest) :
    ({ args with type := ComposeType.replyToSender } : ComposeArgs Rest).single = none := by
  -- A redirected call is not delayed again.
  unfold ComposeArgs.single
  split <;> rfl

theorem answer_kept (kept : CallsKept run (afterRun run) []) {place : Nat}
    {streamed : JsString → Bool × JsString}
    {getMimeTree : JsString → Except JsString (Option MimePart)} {call : Delayed Rest}
    (found : (afterRun run).delayed[place]? = some call) :
    CallsKept (run ++ [.checked place streamed getMimeTree])
      ((afterRun run).answer place call
        (isEmbeddedEncryptedSmime streamed getMimeTree call.messageUri)) [] := by
  obtain ⟨made, single, absent⟩ := kept.delayed call (List.mem_of_getElem? found)
  have taken := (kept.taken found).later (.checked place streamed getMimeTree)
  cases answered : isEmbeddedEncryptedSmime streamed getMimeTree call.messageUri with
  | false =>
      exact taken.invoke ⟨call.args, made, Or.inl ⟨absent, rfl⟩⟩ (fun _ => ⟨made, absent⟩) _
  | true =>
      have eligible : Eligible (run ++ [.checked place streamed getMimeTree])
          { afterRun run with delayed := (afterRun run).delayed.eraseIdx place } call.number :=
        ⟨call.args, call.messageUri, made, single, run, place, streamed, getMimeTree, [], call,
          rfl, found, rfl, rfl, answered⟩
      refine (taken.marked made single absent eligible).invoke ?_ ?_ _
      · exact ⟨call.args, made, Or.inr ⟨List.mem_append_right _ (by simp), rfl⟩⟩
      · intro delayed
        exact absurd (single_reply call.args) delayed

theorem step_kept (kept : CallsKept run (afterRun run) []) (event : ComposeEvent Rest) :
    CallsKept (run ++ [event]) (step event (afterRun run)) [] := by
  cases event with
  | setEnabled value =>
      exact { kept.later (.setEnabled value) with }
  | getAndClearRedirectPending =>
      exact { kept.later .getAndClearRedirectPending with }
  | compose composeMessage args =>
      have made : ((afterRun run).made ++ [args])[(afterRun run).made.length]? = some args := by
        simp
      have absent : (afterRun run).made.length ∉ (afterRun run).redirected := fun member =>
        absurd (Eligible.made (kept.redirected _ member)) (lt_irrefl _)
      exact ((kept.later (.compose composeMessage args)).made args).invoke
        ⟨args, made, Or.inl ⟨absent, rfl⟩⟩ (fun _ => ⟨made, absent⟩) composeMessage
  | checked place streamed getMimeTree =>
      cases found : (afterRun run).delayed[place]? with
      | none =>
          simp only [step, found]
          exact kept.later _
      | some call =>
          simp only [step, found]
          exact answer_kept kept found

theorem kept_after (run : List (ComposeEvent Rest)) : CallsKept run (afterRun run) [] := by
  induction run using List.reverseRec with
  | nil => exact fresh_calls
  | append_singleton earlier event ih =>
      rw [afterRun, LocalAutomata.after_concat]
      exact step_kept ih event

def Awaited : ComposeEvent Rest → Calls Rest → Prop
  | .checked place _ _, state => place < state.delayed.length
  | _, _ => False

/-- How many more checks there may be: each wrapper that a call has yet to pass may begin
another. -/
def remaining (state : Calls Rest) : Nat :=
  (state.delayed.map fun call => call.original.wrappers + 1).sum

theorem remaining_invoke (state : Calls Rest) (number : Nat) (args : ComposeArgs Rest)
    (composeMessage : ComposeFn) :
    (state.invoke number args composeMessage).remaining ≤
        state.remaining + composeMessage.wrappers ∧
      (state.invoke number args composeMessage).made = state.made := by
  rcases invoke_cases state number args composeMessage with
    ⟨original, messageUri, -, -, fewer, same⟩ | ⟨same, -⟩
  · rw [same]
    refine ⟨?_, rfl⟩
    simp only [remaining, List.map_append, List.map_cons, List.map_nil, List.sum_append,
      List.sum_cons, List.sum_nil]
    omega
  · rw [same]
    exact ⟨Nat.le_add_right _ _, rfl⟩

theorem remaining_answered {event : ComposeEvent Rest} (awaited : Awaited event state) :
    (step event state).remaining < state.remaining ∧ (step event state).made = state.made := by
  cases event with
  | setEnabled value => exact awaited.elim
  | compose composeMessage args => exact awaited.elim
  | getAndClearRedirectPending => exact awaited.elim
  | checked place streamed getMimeTree =>
      have inside : place < state.delayed.length := awaited
      have found := List.getElem?_eq_getElem inside
      have taken : ({ state with delayed := state.delayed.eraseIdx place } : Calls Rest).remaining +
          (state.delayed[place].original.wrappers + 1) = state.remaining := by
        have split := (List.getElem_cons_eraseIdx_perm inside).map
          fun call => call.original.wrappers + 1
        have total := split.sum_eq
        simp only [List.map_cons, List.sum_cons] at total
        simp only [remaining]
        omega
      simp only [step, found, answer]
      split
      · obtain ⟨fewer, made⟩ := remaining_invoke
          (({ state with delayed := state.delayed.eraseIdx place } : Calls Rest).marked
            state.delayed[place]) state.delayed[place].number
          { state.delayed[place].args with type := ComposeType.replyToSender }
          state.delayed[place].original
        have same : (({ state with delayed := state.delayed.eraseIdx place } : Calls Rest).marked
          state.delayed[place]).remaining =
          ({ state with delayed := state.delayed.eraseIdx place } : Calls Rest).remaining := rfl
        exact ⟨Nat.lt_of_le_of_lt fewer (by omega), made⟩
      · obtain ⟨fewer, made⟩ := remaining_invoke
          { state with delayed := state.delayed.eraseIdx place } state.delayed[place].number
          state.delayed[place].args state.delayed[place].original
        exact ⟨by omega, made⟩

theorem answers_bounded {answers : List (ComposeEvent Rest)}
    (meets : Meets step Awaited answers state) :
    answers.length ≤ state.remaining ∧
      (LocalAutomata.after step answers state).made = state.made := by
  induction answers generalizing state with
  | nil => exact ⟨Nat.zero_le _, rfl⟩
  | cons event rest ih =>
      obtain ⟨fewer, made⟩ := remaining_answered meets.1
      obtain ⟨bounded, same⟩ := ih meets.2
      exact ⟨Nat.succ_le_of_lt (Nat.lt_of_le_of_lt bounded fewer), same.trans made⟩

theorem none_delayed (settled : ∀ event, ¬Awaited event state) : state.delayed = [] := by
  cases held : state.delayed with
  | nil => rfl
  | cons call rest =>
      have awaited : Awaited (.checked 0 (fun _ => (false, [])) fun _ => .ok none) state := by
        simp [Awaited, held]
      exact absurd awaited (settled _)

theorem off_after (run : List (ComposeEvent Rest))
    (off : ∀ event ∈ run, event ≠ ComposeEvent.setEnabled true) :
    (afterRun run).enabled = false ∧ (afterRun run).delayed = [] ∧
      (afterRun run).delivered.map Prod.snd = (afterRun run).made := by
  induction run using List.reverseRec with
  | nil => exact ⟨rfl, rfl, rfl⟩
  | append_singleton earlier event ih =>
      obtain ⟨disabled, quiet, inOrder⟩ :=
        ih fun other member => off other (List.mem_append_left _ member)
      rw [afterRun, LocalAutomata.after_concat]
      rw [afterRun] at disabled quiet inOrder
      cases event with
      | setEnabled value =>
          cases value with
          | false => exact ⟨rfl, quiet, inOrder⟩
          | true => exact absurd rfl (off _ (by simp))
      | getAndClearRedirectPending => exact ⟨disabled, quiet, inOrder⟩
      | checked place streamed getMimeTree =>
          simp only [step, quiet, List.getElem?_nil]
          exact ⟨disabled, trivial, inOrder⟩
      | compose composeMessage args =>
          rcases invoke_cases
              { LocalAutomata.after step earlier fresh with
                made := (LocalAutomata.after step earlier fresh).made ++ [args] }
              (LocalAutomata.after step earlier fresh).made.length args composeMessage with
            ⟨_, _, _, on, _⟩ | ⟨same, -⟩
          · rw [disabled] at on
            cases on
          · rw [step, same]
            exact ⟨disabled, quiet, by simp [inOrder]⟩

/-- Each call is delivered or delayed once, and unchanged but for the type of those that
were redirected. Only a Forward of one message found encrypted is redirected, once, and the
message noted last is that of the last of them; without the redirection all go in their
order. However the checks are answered, the answers come to an end, and when none is
awaited every call has been delivered. -/
structure Settled (run : List (ComposeEvent Rest)) : Prop where
  once : ((afterRun run).delivered.map Prod.fst ++ (afterRun run).delayed.map Delayed.number).Perm
    (List.range (afterRun run).made.length)
  delivered : ∀ call ∈ (afterRun run).delivered, (afterRun run).Faithful call.1 call.2
  delayed : ∀ call ∈ (afterRun run).delayed, (afterRun run).made[call.number]? = some call.args ∧
    call.number ∉ (afterRun run).redirected
  redirected : ∀ number ∈ (afterRun run).redirected, Eligible run (afterRun run) number
  distinct : (afterRun run).redirected.Nodup
  noted : ∀ number, (afterRun run).redirected.getLast? = some number → ∃ call,
    (afterRun run).made[number]? = some call ∧ call.single = some (afterRun run).lastForwardUri
  off : (∀ event ∈ run, event ≠ ComposeEvent.setEnabled true) →
    (afterRun run).delivered.map Prod.snd = (afterRun run).made
  bounded : ∀ answers, Meets step Awaited answers (afterRun run) →
    answers.length ≤ (afterRun run).remaining
  arrived : ∀ answers, Meets step Awaited answers (afterRun run) →
    (∀ event, ¬Awaited event (afterRun (run ++ answers))) →
    ((afterRun (run ++ answers)).delivered.map Prod.fst).Perm
      (List.range (afterRun run).made.length)

end Calls
end OsClientCerts.ForwardDecrypt
