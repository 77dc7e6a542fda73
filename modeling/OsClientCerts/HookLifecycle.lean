import OsClientCerts.GuardedRuns

/-!
The hooks on compose windows, over reloads of the add-on that sets them. A window keeps its
flag and its hook when the script that set it goes, and a load listener that was added
before still hooks its window afterwards. Which windows that are still loading are among the
compose windows that `getEnumerator` lists depends on how much of them has been parsed, so it
is said by the event in which they are listed.
-/

namespace OsClientCerts.CertCleanup
open GuardedRuns

/-- A window of the host application; scripts of the add-on are told apart by their number. -/
structure HostWindow where
  isComposeWindow : Bool
  loaded : Bool
  certCleanupHooked : Bool
  /-- The scripts that called `hookSendButton` and `reinitCertVerifier` for it. -/
  hooks : List Nat
  /-- The scripts with a load listener on it. -/
  listeners : List Nat

structure Script where
  number : Nat
  initialized : Bool

structure Host where
  windows : List HostWindow
  scripts : Nat
  running : Option Script
  /-- The scripts that observe "domwindowopened". -/
  observers : List Nat
  /-- The scripts whose `onQuitApplication` blocks the shutdown. -/
  blockers : List Nat
  /-- The scripts that made the last pass, once the application quits. -/
  lastPasses : Option (List Nat)

inductive HostEvent where
  | windowOpened (isComposeWindow : Bool)
  | windowLoaded (index : Nat)
  /-- The add-on is started. -/
  | evaluated
  /-- The compose windows at these places are listed though they are still loading. -/
  | getAPI (parsed : List Nat)
  /-- `onShutdown` while the application runs on. -/
  | unloaded
  | quitApplication
  deriving DecidableEq

namespace HostWindow

def hookComposeWindow (script : Nat) (win : HostWindow) : HostWindow :=
  if win.certCleanupHooked then win
  else { win with certCleanupHooked := true, hooks := win.hooks ++ [script] }

def onLoad (win : HostWindow) (script : Nat) : HostWindow :=
  if win.isComposeWindow then win.hookComposeWindow script else win

def load (win : HostWindow) : HostWindow :=
  if win.loaded then win
  else win.listeners.foldl onLoad { win with loaded := true, listeners := [] }

/-- What the enumerator for "msgcompose" lists: windows are told by the type in their document,
which those that have loaded have. -/
def enumerated (parsed : List Nat) (index : Nat) (win : HostWindow) : Bool :=
  win.isComposeWindow && (win.loaded || parsed.contains index)

end HostWindow

namespace Host

def started : Host := ⟨[], 0, none, [], [], none⟩

def initializeScript (parsed : List Nat) (state : Host) : Host :=
  match state.running with
  | some ⟨number, false⟩ =>
      { state with
        running := some ⟨number, true⟩
        blockers := state.blockers ++ [number]
        observers := state.observers ++ [number]
        windows := state.windows.mapIdx fun index win =>
          if win.enumerated parsed index then win.hookComposeWindow number else win }
  | _ => state

def onShutdown (state : Host) : Host :=
  match state.running with
  | some script =>
      { state with
        running := none
        blockers := state.blockers.filter fun number => number ≠ script.number
        observers := state.observers.filter fun number => number ≠ script.number }
  | none => state

def step : HostEvent → Host → Host
  | .windowOpened isComposeWindow, state =>
      { state with
        windows := state.windows ++ [⟨isComposeWindow, false, false, [], state.observers⟩] }
  | .windowLoaded index, state =>
      { state with windows := state.windows.modify index HostWindow.load }
  | .evaluated, state =>
      match state.running with
      | none => { state with running := some ⟨state.scripts, false⟩, scripts := state.scripts + 1 }
      | some _ => state
  | .getAPI parsed, state => state.initializeScript parsed
  | .unloaded, state => state.onShutdown
  | .quitApplication, state =>
      { state with lastPasses := state.lastPasses.or (some state.blockers) }

def afterRun (run : List HostEvent) : Host := LocalAutomata.after step run started

def active (state : Host) : List Nat :=
  match state.running with
  | some ⟨number, true⟩ => [number]
  | _ => []

def AllHooked (state : Host) : Prop :=
  state.active ≠ [] → ∀ win ∈ state.windows, win.isComposeWindow = true → win.loaded = true →
    win.certCleanupHooked = true

/-- When a script is initialized, no compose window is loading that is not listed, has no hook
and is listened to by no script. -/
def NoneMissed (event : HostEvent) (state : Host) : Prop :=
  ∀ parsed, event = .getAPI parsed → state.running.map Script.initialized = some false →
    ∀ (index : Nat) (win : HostWindow), state.windows[index]? = some win →
      win.isComposeWindow = true → win.loaded = false → index ∉ parsed →
        win.listeners ≠ [] ∨ win.certCleanupHooked = true

def WindowKept (win : HostWindow) : Prop :=
  win.hooks.length = if win.certCleanupHooked then 1 else 0

structure HostKept (state : Host) : Prop where
  windows : ∀ win ∈ state.windows, WindowKept win
  observers : state.observers = state.active
  blockers : state.blockers = state.active

section
variable {state : Host} {win : HostWindow}

theorem hook_kept (kept : WindowKept win) (script : Nat) :
    WindowKept (win.hookComposeWindow script) := by
  unfold HostWindow.hookComposeWindow
  split
  · exact kept
  · rename_i free
    have none : win.hooks.length = 0 := by simpa [WindowKept, free] using kept
    simp [WindowKept, none]

@[simp] theorem hook_compose (win : HostWindow) (script : Nat) :
    (win.hookComposeWindow script).isComposeWindow = win.isComposeWindow := by
  unfold HostWindow.hookComposeWindow
  split <;> rfl

theorem hook_hooked (win : HostWindow) (script : Nat) :
    (win.hookComposeWindow script).certCleanupHooked = true := by
  unfold HostWindow.hookComposeWindow
  split
  · assumption
  · rfl

theorem hook_again (hooked : win.certCleanupHooked = true) (script : Nat) :
    win.hookComposeWindow script = win := if_pos hooked

theorem listeners_kept (scripts : List Nat) (kept : WindowKept win) :
    WindowKept (scripts.foldl HostWindow.onLoad win) := by
  induction scripts generalizing win with
  | nil => exact kept
  | cons script rest ih =>
      rw [List.foldl_cons]
      unfold HostWindow.onLoad
      split
      · exact ih (hook_kept kept script)
      · exact ih kept

theorem listeners_compose (scripts : List Nat) (win : HostWindow) :
    (scripts.foldl HostWindow.onLoad win).isComposeWindow = win.isComposeWindow := by
  induction scripts generalizing win with
  | nil => rfl
  | cons script rest ih =>
      rw [List.foldl_cons, ih]
      unfold HostWindow.onLoad
      split
      · exact hook_compose win script
      · rfl

theorem listeners_hooked (scripts : List Nat) (hooked : win.certCleanupHooked = true) :
    scripts.foldl HostWindow.onLoad win = win := by
  induction scripts with
  | nil => rfl
  | cons script rest ih =>
      rw [List.foldl_cons]
      have same : win.onLoad script = win := by
        unfold HostWindow.onLoad
        split
        · exact hook_again hooked script
        · rfl
      rw [same, ih]

theorem load_kept (kept : WindowKept win) : WindowKept win.load := by
  unfold HostWindow.load
  split
  · exact kept
  · exact listeners_kept win.listeners kept

theorem load_compose (win : HostWindow) : win.load.isComposeWindow = win.isComposeWindow := by
  unfold HostWindow.load
  split
  · rfl
  · exact listeners_compose _ _

theorem load_hooked (hooked : win.certCleanupHooked = true) :
    win.load.hooks = win.hooks ∧ win.load.certCleanupHooked = true := by
  unfold HostWindow.load
  split
  · exact ⟨rfl, hooked⟩
  · have settled : ({ win with loaded := true, listeners := [] } : HostWindow).certCleanupHooked =
        true := hooked
    rw [listeners_hooked win.listeners settled]
    exact ⟨rfl, hooked⟩

theorem load_hooks (compose : win.isComposeWindow = true) (heard : win.listeners ≠ [])
    (loading : win.loaded = false) : win.load.certCleanupHooked = true := by
  obtain ⟨script, rest, listeners⟩ := List.exists_cons_of_ne_nil heard
  unfold HostWindow.load
  rw [if_neg (by simp [loading]), listeners, List.foldl_cons, HostWindow.onLoad, if_pos compose]
  rw [listeners_hooked rest (hook_hooked _ script)]
  exact hook_hooked _ script

theorem load_unheard (unheard : win.listeners = []) (loading : win.loaded = false) :
    win.load = { win with loaded := true, listeners := [] } := by
  unfold HostWindow.load
  rw [if_neg (by simp [loading]), unheard]
  rfl

theorem started_kept : HostKept started := ⟨nofun, rfl, rfl⟩

theorem kept_step (event : HostEvent) (state : Host) (kept : HostKept state) :
    HostKept (step event state) := by
  cases event with
  | windowOpened isComposeWindow =>
      refine ⟨fun win member => ?_, kept.observers, kept.blockers⟩
      rcases List.mem_append.mp member with earlier | last
      · exact kept.windows win earlier
      · obtain rfl := List.mem_singleton.mp last
        exact rfl
  | windowLoaded index =>
      exact ⟨forall_mem_modify kept.windows fun win found =>
        load_kept (kept.windows win (List.mem_of_getElem? found)), kept.observers, kept.blockers⟩
  | evaluated =>
      cases running : state.running with
      | none =>
          have idle : state.active = [] := by simp [active, running]
          simp only [step, running]
          exact ⟨kept.windows, kept.observers.trans idle, kept.blockers.trans idle⟩
      | some script => simpa only [step, running] using kept
  | getAPI parsed =>
      change HostKept (state.initializeScript parsed)
      unfold initializeScript
      split
      · rename_i number running
        have idle : state.active = [] := by simp [active, running]
        refine ⟨fun win member => ?_, ?_, ?_⟩
        · obtain ⟨index, inside, rfl⟩ := List.mem_mapIdx.mp member
          have before := kept.windows state.windows[index] (List.getElem_mem inside)
          split
          · exact hook_kept before number
          · exact before
        · change state.observers ++ [number] = [number]
          rw [kept.observers, idle, List.nil_append]
        · change state.blockers ++ [number] = [number]
          rw [kept.blockers, idle, List.nil_append]
      · exact kept
  | unloaded =>
      change HostKept state.onShutdown
      unfold onShutdown
      split
      · rename_i script running
        have own : state.active.filter (fun number => number ≠ script.number) = [] := by
          obtain ⟨number, initialized⟩ := script
          cases initialized <;> simp [active, running]
        refine ⟨kept.windows, ?_, ?_⟩
        · change state.observers.filter _ = []
          rw [kept.observers, own]
        · change state.blockers.filter _ = []
          rw [kept.blockers, own]
      · exact kept
  | quitApplication => exact ⟨kept.windows, kept.observers, kept.blockers⟩

/-- Every compose window is hooked, or will be when it loads. -/
def Heard (state : Host) : Prop :=
  state.active ≠ [] → ∀ win ∈ state.windows, win.isComposeWindow = true →
    (win.loaded = true → win.certCleanupHooked = true) ∧
      (win.loaded = false → win.listeners ≠ [] ∨ win.certCleanupHooked = true)

theorem heard_load (heard : Heard state) (index : Nat) :
    Heard (step (.windowLoaded index) state) := by
  intro active
  refine forall_mem_modify (heard active) fun win found compose => ?_
  have member := List.mem_of_getElem? found
  rw [load_compose] at compose
  obtain ⟨hooked, listened⟩ := heard active win member compose
  cases loaded : win.loaded with
  | true =>
      have same : win.load = win := if_pos loaded
      rw [same]
      exact ⟨hooked, listened⟩
  | false =>
      have now : win.load.certCleanupHooked = true := by
        rcases listened loaded with heard | early
        · exact load_hooks compose heard loaded
        · exact (load_hooked early).2
      exact ⟨fun _ => now, fun _ => Or.inr now⟩

theorem heard_step (event : HostEvent) (state : Host) (kept : HostKept state ∧ Heard state)
    (none : NoneMissed event state) : HostKept (step event state) ∧ Heard (step event state) := by
  refine ⟨kept_step event state kept.1, ?_⟩
  obtain ⟨kept, heard⟩ := kept
  cases event with
  | windowOpened isComposeWindow =>
      intro active win member compose
      rcases List.mem_append.mp member with earlier | last
      · exact heard active win earlier compose
      · obtain rfl := List.mem_singleton.mp last
        exact ⟨nofun, fun _ => Or.inl (kept.observers ▸ active)⟩
  | windowLoaded index => exact heard_load heard index
  | evaluated =>
      cases running : state.running with
      | none =>
          intro active
          simp [step, running, Host.active] at active
      | some script => simpa only [step, running] using heard
  | getAPI parsed =>
      change Heard (state.initializeScript parsed)
      unfold initializeScript
      split
      · rename_i number running
        intro _ win member compose
        obtain ⟨index, inside, rfl⟩ := List.mem_mapIdx.mp member
        by_cases shown : state.windows[index].enumerated parsed index = true
        · rw [if_pos shown] at compose ⊢
          have hooked := hook_hooked state.windows[index] number
          exact ⟨fun _ => hooked, fun _ => Or.inr hooked⟩
        · rw [if_neg shown] at compose ⊢
          obtain ⟨loading, unlisted⟩ : state.windows[index].loaded = false ∧ index ∉ parsed := by
            simpa [HostWindow.enumerated, compose] using shown
          refine ⟨fun loaded => ?_, fun _ => none parsed rfl (by simp [running]) index _
            (List.getElem?_eq_getElem inside) compose loading unlisted⟩
          rw [loading] at loaded
          cases loaded
      · exact heard
  | unloaded =>
      intro active
      cases running : state.running with
      | none => simp [step, onShutdown, running, Host.active] at active
      | some script => simp [step, onShutdown, running, Host.active] at active
  | quitApplication => exact heard

/-- A compose window that was missed has no hook once it has loaded. -/
theorem missed_unhooked (event : HostEvent) (state : Host) (missed : ¬NoneMissed event state) :
    ∃ index : Nat, ¬AllHooked (step (.windowLoaded index) (step event state)) := by
  simp only [NoneMissed, not_forall, not_or, not_not] at missed
  obtain ⟨parsed, rfl, waiting, index, win, found, compose, loading, unlisted, unheard, free⟩ :=
    missed
  obtain ⟨⟨number, initialized⟩, running, rfl⟩ := Option.map_eq_some_iff.mp waiting
  refine ⟨index, fun all => ?_⟩
  have left : (step (.getAPI parsed) state).windows[index]? = some win := by
    simp [step, initializeScript, running, found, HostWindow.enumerated, loading, unlisted]
  have after : (step (.windowLoaded index) (step (.getAPI parsed) state)).windows[index]? =
      some { win with loaded := true, listeners := [] } := by
    change ((step (.getAPI parsed) state).windows.modify index HostWindow.load)[index]? = _
    simp [left, load_unheard unheard loading]
  have active : (step (.windowLoaded index) (step (.getAPI parsed) state)).active ≠ [] := by
    simp [step, initializeScript, running, Host.active]
  have hooked := all active _ (List.mem_of_getElem? after) compose rfl
  exact free hooked

def KeepsHooks (state next : Host) : Prop :=
  ∀ (index : Nat) (win : HostWindow), state.windows[index]? = some win →
    win.certCleanupHooked = true →
      ∃ same, next.windows[index]? = some same ∧ same.hooks = win.hooks ∧
        same.certCleanupHooked = true

theorem hooks_kept_step (event : HostEvent) (state : Host) :
    KeepsHooks state (step event state) := by
  intro index win found hooked
  cases event with
  | windowOpened isComposeWindow =>
      exact ⟨win, (List.getElem?_append_left (List.getElem?_eq_some_iff.mp found).1).trans found,
        rfl, hooked⟩
  | windowLoaded place =>
      change ∃ same, (state.windows.modify place HostWindow.load)[index]? = some same ∧ _
      by_cases here : place = index
      · subst here
        exact ⟨win.load, by simp [found], load_hooked hooked⟩
      · exact ⟨win, by simp [here, found], rfl, hooked⟩
  | evaluated =>
      refine ⟨win, ?_, rfl, hooked⟩
      cases running : state.running <;> simpa [step, running] using found
  | getAPI parsed =>
      refine ⟨win, ?_, rfl, hooked⟩
      change (state.initializeScript parsed).windows[index]? = some win
      unfold initializeScript
      split
      · simp [found, hook_again hooked]
      · exact found
  | unloaded =>
      refine ⟨win, ?_, rfl, hooked⟩
      cases running : state.running <;> simpa [step, onShutdown, running] using found
  | quitApplication => exact ⟨win, found, rfl, hooked⟩

theorem hooks_kept_run (run : List HostEvent) :
    KeepsHooks state (LocalAutomata.after step run state) := by
  induction run generalizing state with
  | nil => exact fun index win found hooked => ⟨win, found, rfl, hooked⟩
  | cons event rest ih =>
      intro index win found hooked
      obtain ⟨middle, held, hooks, still⟩ := hooks_kept_step event state index win found hooked
      obtain ⟨last, there, same, stays⟩ := ih index middle held still
      exact ⟨last, there, same.trans hooks, stays⟩

theorem passes_same (event : HostEvent) (state : Host) (other : event ≠ .quitApplication) :
    (step event state).lastPasses = state.lastPasses := by
  cases event with
  | windowOpened _ | windowLoaded _ => rfl
  | evaluated => cases running : state.running <;> simp [step, running]
  | getAPI parsed =>
      change (state.initializeScript parsed).lastPasses = _
      unfold initializeScript
      split <;> rfl
  | unloaded => cases running : state.running <;> simp [step, onShutdown, running]
  | quitApplication => exact absurd rfl other

theorem no_pass_before_quit (run : List HostEvent) (quiet : .quitApplication ∉ run) :
    (LocalAutomata.after step run state).lastPasses = state.lastPasses := by
  induction run generalizing state with
  | nil => rfl
  | cons event rest ih =>
      rw [LocalAutomata.after_cons, ih fun later => quiet (List.mem_cons_of_mem event later)]
      exact passes_same event state fun same => quiet (same ▸ List.mem_cons_self)

theorem passes_settled (event : HostEvent) (state : Host) {passes : List Nat}
    (made : state.lastPasses = some passes) : (step event state).lastPasses = some passes := by
  by_cases quit : event = .quitApplication
  · subst quit
    simp [step, made]
  · rw [passes_same event state quit, made]

end

/-- However often the add-on is reloaded: a compose window has one hook at most, with its one
rebuild of the verifier, and keeps it; what observes the windows and blocks the shutdown is
the running script, once it is initialized, and nothing else; the last pass is that of this
script. Every compose window that has loaded is hooked exactly if none was loading unheard,
unhooked and not yet listed when a script was initialized. -/
theorem hooks_follow_windows (run : List HostEvent) :
    (∀ win ∈ (afterRun run).windows, win.hooks.length = if win.certCleanupHooked then 1 else 0) ∧
    ((afterRun run).observers = (afterRun run).active ∧
      (afterRun run).blockers = (afterRun run).active) ∧
    (∀ earlier later, run = earlier ++ later → KeepsHooks (afterRun earlier) (afterRun run)) ∧
    (∀ earlier later, run = earlier ++ .quitApplication :: later → .quitApplication ∉ earlier →
      (afterRun run).lastPasses = some (afterRun earlier).active) ∧
    ((∀ earlier later (loads : List Nat), run = earlier ++ later →
        AllHooked (afterRun (earlier ++ loads.map .windowLoaded))) ↔
      Meets step NoneMissed run started) := by
  have reached : ∀ run, HostKept (afterRun run) := fun run =>
    always_preserved kept_step run started_kept
  refine ⟨(reached run).windows,
    ⟨(reached run).observers, (reached run).blockers⟩, ?_, ?_, ?_⟩
  · rintro earlier later rfl
    rw [afterRun, afterRun, LocalAutomata.after_append]
    exact hooks_kept_run later
  · rintro earlier later rfl quiet
    have none : (afterRun earlier).lastPasses = none := no_pass_before_quit earlier quiet
    have made : (step .quitApplication (afterRun earlier)).lastPasses =
        some (afterRun earlier).active := by
      simp [step, none, (reached earlier).blockers]
    rw [afterRun, LocalAutomata.after_append, LocalAutomata.after_cons]
    exact always_preserved (fun event state => passes_settled event state) later made
  · let safe : Host → Prop := fun state => ∀ loads : List Nat,
      AllHooked (LocalAutomata.after step (loads.map .windowLoaded) state)
    have inside : ∀ state, HostKept state ∧ Heard state → safe state := by
      intro state kept loads
      induction loads generalizing state with
      | nil => exact fun active win member compose => (kept.2 active win member compose).1
      | cons index rest ih => exact ih _ ⟨kept_step _ _ kept.1, heard_load kept.2 index⟩
    have outside : ∀ event state, HostKept state ∧ Heard state → ¬NoneMissed event state →
        ¬safe (step event state) := by
      intro event state kept missed all
      obtain ⟨index, unhooked⟩ := missed_unhooked event state missed
      exact unhooked (all [index])
    have begun : HostKept started ∧ Heard started := ⟨started_kept, fun active => absurd rfl active⟩
    rw [← always_iff_meets heard_step inside outside run begun]
    constructor
    · intro all earlier later split loads
      have after := all earlier later loads split
      rwa [afterRun, LocalAutomata.after_append] at after
    · intro all earlier later loads split
      rw [afterRun, LocalAutomata.after_append]
      exact all earlier later split loads

end Host
end OsClientCerts.CertCleanup
