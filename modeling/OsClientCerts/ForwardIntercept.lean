import OsClientCerts.GuardedRuns

/-!
The interception of the Forward command: the `ComposeMessage` of a main window is replaced
by a wrapper, from two places, and put back from two others.
-/

namespace OsClientCerts.ForwardDecrypt
open GuardedRuns

namespace ComposeType

def forwardAsAttachment : Nat := 3
def forwardInline : Nat := 4
def replyToSender : Nat := 6

end ComposeType

def isForwardType (type : Nat) : Bool :=
  type = ComposeType.forwardInline || type = ComposeType.forwardAsAttachment

/-- A call of `ComposeMessage`: its type, the length of its message array, and what the
check of its first message for an encrypted one finds. -/
structure ComposeCall where
  type : Nat
  messages : Option Nat
  shouldRedirect : Bool

/-- The value of a window's `ComposeMessage`; the wrappers of a window are told apart by
their number. -/
inductive ComposeFn where
  | native
  | wrapped (serial : Nat) (original : ComposeFn)
  deriving DecidableEq

namespace ComposeFn

def wrappers : ComposeFn → Nat
  | native => 0
  | wrapped _ original => original.wrappers + 1

/-- The type that Thunderbird's own function is called with in the end. -/
def call (enabled : Bool) : ComposeFn → ComposeCall → Nat
  | native, call => call.type
  | wrapped _ original, call =>
      if enabled && isForwardType call.type && call.messages = some 1 then
        if call.shouldRedirect then
          original.call enabled { call with type := ComposeType.replyToSender }
        else original.call enabled call
      else original.call enabled call

end ComposeFn

structure Patch where
  original : ComposeFn
  wrapped : ComposeFn

structure MailWindow where
  /-- Whether the enumeration of "mail:3pane" windows lists it. -/
  threePane : Bool
  /-- Whether its address is one of those that are patched on load. -/
  patchable : Bool
  closed : Bool
  loadListener : Bool
  composeMessage : Option ComposeFn
  patched : Option Patch
  patches : Nat

namespace MailWindow

def patchWindow (win : MailWindow) : MailWindow :=
  if win.closed then win
  else if win.patched.isSome then win
  else match win.composeMessage with
    | none => win
    | some original =>
        let wrapped := .wrapped win.patches original
        { win with
          composeMessage := some wrapped
          patched := some ⟨original, wrapped⟩
          patches := win.patches + 1 }

def unpatchWindow (win : MailWindow) : MailWindow :=
  match win.patched with
  | none => win
  | some state =>
      { win with
        composeMessage :=
          if win.composeMessage = some state.wrapped then some state.original
          else win.composeMessage
        patched := none }

def enumerated (win : MailWindow) : Bool := win.threePane && !win.closed

def opened (threePane patchable listening : Bool) : MailWindow :=
  ⟨threePane, patchable, false, listening, none, none, 0⟩

def scripted (win : MailWindow) : MailWindow :=
  if win.composeMessage.isNone then { win with composeMessage := some .native } else win

def loaded (win : MailWindow) : MailWindow :=
  let heard := { win with loadListener := false }
  if win.loadListener && win.patchable then heard.patchWindow else heard

/-- Whether the load of the window patches it, unless it is patched already. -/
def patchedOnLoad (win : MailWindow) : Bool :=
  win.loadListener && win.patchable && !win.closed && win.composeMessage.isSome

def close (win : MailWindow) (listening : Bool) : MailWindow :=
  { if listening then win.unpatchWindow else win with closed := true }

end MailWindow

structure Interception where
  enabled : Bool
  listening : Bool
  shutDown : Bool
  windows : List MailWindow

inductive WindowEvent where
  | setEnabled (value : Bool)
  | opened (threePane patchable : Bool)
  | scripted (index : Nat)
  | loaded (index : Nat)
  | closed (index : Nat)
  | shutdown

namespace Interception

def fresh : Interception := ⟨false, false, false, []⟩

def patchAllWindows (windows : List MailWindow) : List MailWindow :=
  windows.map fun win => if win.enumerated then win.patchWindow else win

def install (state : Interception) : Interception :=
  { state with listening := true, windows := patchAllWindows state.windows }

def uninstall (state : Interception) : Interception :=
  { state with
    listening := false
    windows := state.windows.map fun win => if win.enumerated then win.unpatchWindow else win }

def setEnabled (state : Interception) (value : Bool) : Interception :=
  if state.shutDown || value = state.enabled then state
  else { if value then state.install else state.uninstall with enabled := value }

def onShutdown (state : Interception) : Interception :=
  if state.shutDown then state else { state.uninstall with shutDown := true }

def step : WindowEvent → Interception → Interception
  | .setEnabled value, state => state.setEnabled value
  | .opened threePane patchable, state =>
      { state with
        windows := state.windows ++ [.opened threePane patchable state.listening] }
  | .scripted index, state =>
      { state with windows := state.windows.modify index MailWindow.scripted }
  | .loaded index, state =>
      { state with windows := state.windows.modify index MailWindow.loaded }
  | .closed index, state =>
      { state with windows := state.windows.modify index fun win => win.close state.listening }
  | .shutdown, state => state.onShutdown

def afterRun (run : List WindowEvent) : Interception := LocalAutomata.after step run fresh

/-- No window has two wrappers; and while nothing listens, none has one, and no call is
redirected. -/
def Undone (state : Interception) : Prop :=
  ∀ win ∈ state.windows, ∀ composeMessage, win.composeMessage = some composeMessage →
    composeMessage.wrappers ≤ 1 ∧
      (state.listening = false → composeMessage.wrappers = 0 ∧
        ∀ call, composeMessage.call state.enabled call = call.type)

/-- No window whose load listener is set loads after the end of the interception; and where
it ends, every patched window is one of those that are enumerated. -/
def Covered : WindowEvent → Interception → Prop
  | .loaded index, state => ∀ win, state.windows[index]? = some win →
      win.patchedOnLoad = true → state.listening = true
  | .setEnabled false, state | .shutdown, state => ∀ win ∈ state.windows,
      win.patched.isSome = true → win.threePane = true
  | _, _ => True

end Interception

namespace MailWindow

def Tidy (win : MailWindow) : Prop :=
  match win.patched with
  | none => win.composeMessage = none ∨ win.composeMessage = some .native
  | some state => state.original = .native ∧ win.composeMessage = some state.wrapped ∧
      ∃ serial, state.wrapped = .wrapped serial .native

variable {win : MailWindow}

theorem Tidy.wrappers (tidy : win.Tidy) {composeMessage : ComposeFn}
    (held : win.composeMessage = some composeMessage) : composeMessage.wrappers ≤ 1 := by
  unfold Tidy at tidy
  split at tidy
  · rcases tidy with absent | plain
    · simp [absent] at held
    · obtain rfl : ComposeFn.native = composeMessage := by simpa [plain] using held
      exact Nat.zero_le _
  · obtain ⟨_, wrapper, serial, same⟩ := tidy
    obtain rfl : ComposeFn.wrapped serial .native = composeMessage := by
      simpa [wrapper, same] using held
    exact Nat.le_refl _

theorem Tidy.native (tidy : win.Tidy) (unpatched : win.patched = none) {composeMessage : ComposeFn}
    (held : win.composeMessage = some composeMessage) : composeMessage = .native := by
  simp only [Tidy, unpatched, held, reduceCtorEq, false_or, Option.some.injEq] at tidy
  exact tidy

theorem tidy_opened (threePane patchable listening : Bool) :
    (opened threePane patchable listening).Tidy := Or.inl rfl

theorem patch_window_cases (win : MailWindow) :
    win.patchWindow = win ∧ (win.closed = true ∨ win.patched.isSome = true ∨
        win.composeMessage = none) ∨
      win.closed = false ∧ win.patched = none ∧ ∃ original, win.composeMessage = some original ∧
        win.patchWindow = { win with
          composeMessage := some (.wrapped win.patches original)
          patched := some ⟨original, .wrapped win.patches original⟩
          patches := win.patches + 1 } := by
  unfold patchWindow
  cases shut : win.closed
  · cases entry : win.patched with
    | some state => exact Or.inl ⟨by simp, by simp⟩
    | none =>
        cases held : win.composeMessage with
        | none => exact Or.inl ⟨by simp, by simp⟩
        | some original => exact Or.inr ⟨rfl, rfl, original, rfl, by simp⟩
  · exact Or.inl ⟨by simp, by simp⟩

theorem tidy_patch_window (tidy : win.Tidy) : win.patchWindow.Tidy := by
  rcases patch_window_cases win with ⟨same, _⟩ | ⟨_, unpatched, original, held, patched⟩
  · rwa [same]
  · rw [patched]
    exact ⟨tidy.native unpatched held, rfl, win.patches, by rw [tidy.native unpatched held]⟩

theorem tidy_unpatch_window (tidy : win.Tidy) : win.unpatchWindow.Tidy := by
  unfold unpatchWindow
  split
  · exact tidy
  · rename_i state entry
    simp only [Tidy, entry] at tidy
    obtain ⟨original, held, _⟩ := tidy
    exact Or.inr (by simp [held, original])

@[simp] theorem unpatch_window_patched (win : MailWindow) : win.unpatchWindow.patched = none := by
  unfold unpatchWindow
  split <;> simp_all

theorem tidy_scripted (tidy : win.Tidy) : win.scripted.Tidy := by
  unfold scripted
  split
  · rename_i absent
    have unpatched : win.patched = none := by
      unfold Tidy at tidy
      split at tidy
      · assumption
      · simp [tidy.2.1] at absent
    simp [Tidy, unpatched]
  · exact tidy

theorem scripted_patched (win : MailWindow) : win.scripted.patched = win.patched := by
  unfold scripted
  split <;> rfl

theorem tidy_loaded (tidy : win.Tidy) : win.loaded.Tidy := by
  unfold loaded
  split
  · have heard : MailWindow.Tidy { win with loadListener := false } := tidy
    exact tidy_patch_window heard
  · exact tidy

theorem tidy_close (tidy : win.Tidy) (listening : Bool) : (win.close listening).Tidy := by
  cases listening with
  | false => exact tidy
  | true => exact tidy_unpatch_window tidy

@[simp] theorem patch_window_closed (win : MailWindow) : win.patchWindow.closed = win.closed := by
  rcases patch_window_cases win with ⟨same, _⟩ | ⟨_, _, _, _, patched⟩
  · rw [same]
  · rw [patched]

theorem loaded_closed (win : MailWindow) : win.loaded.closed = win.closed := by
  unfold loaded
  split
  · exact patch_window_closed _
  · rfl

theorem scripted_closed (win : MailWindow) : win.scripted.closed = win.closed := by
  unfold scripted
  split <;> rfl

theorem loaded_cases (win : MailWindow) :
    (win.patchedOnLoad = true ∧ win.closed = false ∧ win.patched = none ∧
      ∃ serial original, win.loaded.composeMessage = some (.wrapped serial original)) ∨
    win.loaded.patched = win.patched ∧ (win.patched = none → win.patchedOnLoad = false) := by
  -- A window gets its wrapper on load, or its entry stays as it was.
  unfold loaded patchedOnLoad
  by_cases due : (win.loadListener && win.patchable) = true
  · simp only [due, if_true, Bool.true_and]
    rcases patch_window_cases { win with loadListener := false } with
      ⟨same, reason⟩ | ⟨shut, unpatched, original, held, patched⟩
    · refine Or.inr ⟨by rw [same], fun unpatched => ?_⟩
      rcases reason with shut | entry | absent
      · simp_all
      · simp_all
      · simp_all
    · refine Or.inl ⟨?_, shut, unpatched, win.patches, original, by rw [patched]⟩
      simp_all
  · exact Or.inr ⟨by simp [due], by simp [due]⟩

end MailWindow

namespace Interception

/-- The windows while the interception has been covered so far. -/
structure Kept (state : Interception) : Prop where
  tidy : ∀ win ∈ state.windows, win.Tidy
  off : state.listening = false → ∀ win ∈ state.windows, win.patched = none
  closed : ∀ win ∈ state.windows, win.closed = true → win.patched = none
  flag : state.shutDown = false → state.enabled = state.listening
  ended : state.shutDown = true → state.listening = false

theorem fresh_kept : fresh.Kept :=
  ⟨nofun, fun _ => nofun, nofun, fun _ => rfl, nofun⟩

variable {state : Interception}

theorem Kept.undone (kept : state.Kept) : state.Undone := by
  intro win member composeMessage held
  refine ⟨(kept.tidy win member).wrappers held, fun off => ?_⟩
  rw [(kept.tidy win member).native (kept.off off win member) held]
  exact ⟨rfl, fun _ => rfl⟩

theorem Kept.install (kept : state.Kept) (alive : state.shutDown = false) :
    { state.install with enabled := true }.Kept := by
  refine ⟨?_, nofun, ?_, fun _ => rfl, fun shut => absurd (alive.symm.trans shut) (by decide)⟩
  · intro win member
    obtain ⟨before, earlier, rfl⟩ := List.mem_map.mp member
    split
    · exact MailWindow.tidy_patch_window (kept.tidy before earlier)
    · exact kept.tidy before earlier
  · intro win member shut
    obtain ⟨before, earlier, rfl⟩ := List.mem_map.mp member
    by_cases listed : before.enumerated = true
    · have shut : before.closed = true := by simpa [listed] using shut
      simp [MailWindow.enumerated, shut] at listed
    · simp only [listed] at shut ⊢
      exact kept.closed before earlier shut

theorem uninstall_patched (kept : state.Kept)
    (covered : ∀ win ∈ state.windows, win.patched.isSome = true → win.threePane = true) :
    ∀ win ∈ state.uninstall.windows, win.patched = none := by
  intro win member
  obtain ⟨before, earlier, rfl⟩ := List.mem_map.mp member
  by_cases listed : before.enumerated = true
  · simp [listed]
  · simp only [listed]
    by_contra patched
    have patched : before.patched.isSome = true := Option.isSome_iff_ne_none.mpr patched
    have unclosed : before.closed = false := by
      by_contra shut
      have unpatched := kept.closed before earlier (by simpa using shut)
      simp [unpatched] at patched
    exact listed (by simp [MailWindow.enumerated, covered before earlier patched, unclosed])

theorem uninstall_tidy (kept : state.Kept) : ∀ win ∈ state.uninstall.windows, win.Tidy := by
  intro win member
  obtain ⟨before, earlier, rfl⟩ := List.mem_map.mp member
  split
  · exact MailWindow.tidy_unpatch_window (kept.tidy before earlier)
  · exact kept.tidy before earlier

theorem Kept.modify (kept : state.Kept) (index : Nat) (change : MailWindow → MailWindow)
    (tidy : ∀ win ∈ state.windows, (change win).Tidy)
    (off : state.listening = false → ∀ win, state.windows[index]? = some win →
      (change win).patched = none)
    (closed : ∀ win ∈ state.windows, (change win).closed = true → (change win).patched = none) :
    { state with windows := state.windows.modify index change }.Kept := by
  refine ⟨?_, fun unheard => ?_, ?_, kept.flag, kept.ended⟩
  · exact forall_mem_modify kept.tidy fun win found => tidy win (List.mem_of_getElem? found)
  · exact forall_mem_modify (kept.off unheard) (off unheard)
  · exact forall_mem_modify kept.closed fun win found => closed win (List.mem_of_getElem? found)

theorem Kept.loaded (kept : state.Kept) (index : Nat)
    (covered : Covered (.loaded index) state) : (step (.loaded index) state).Kept := by
  refine kept.modify index MailWindow.loaded
    (fun win member => MailWindow.tidy_loaded (kept.tidy win member)) ?_ ?_
  · intro unheard win found
    rcases win.loaded_cases with ⟨due, _⟩ | ⟨same, _⟩
    · exact absurd (unheard.symm.trans (covered win found due)) (by decide)
    · rw [same]
      exact kept.off unheard win (List.mem_of_getElem? found)
  · intro win member shut
    rw [MailWindow.loaded_closed] at shut
    rcases win.loaded_cases with ⟨_, unclosed, _⟩ | ⟨same, _⟩
    · exact absurd (unclosed.symm.trans shut) (by decide)
    · rw [same]
      exact kept.closed win member shut

theorem Kept.close (kept : state.Kept) (index : Nat) :
    (step (.closed index) state).Kept := by
  have unpatched : ∀ win ∈ state.windows, (win.close state.listening).patched = none := by
    intro win member
    cases heard : state.listening with
    | true => exact win.unpatch_window_patched
    | false => exact kept.off heard win member
  exact kept.modify index _ (fun win member => MailWindow.tidy_close (kept.tidy win member) _)
    (fun _ win found => unpatched win (List.mem_of_getElem? found))
    (fun win member _ => unpatched win member)

theorem Kept.scripted (kept : state.Kept) (index : Nat) :
    (step (.scripted index) state).Kept := by
  refine kept.modify index MailWindow.scripted
    (fun win member => MailWindow.tidy_scripted (kept.tidy win member)) ?_ ?_
  · intro unheard win found
    rw [MailWindow.scripted_patched]
    exact kept.off unheard win (List.mem_of_getElem? found)
  · intro win member shut
    rw [MailWindow.scripted_patched]
    rw [MailWindow.scripted_closed] at shut
    exact kept.closed win member shut

theorem Kept.opened (kept : state.Kept) (threePane patchable : Bool) :
    (step (.opened threePane patchable) state).Kept := by
  have added : ∀ {holds : MailWindow → Prop}, (∀ win ∈ state.windows, holds win) →
      holds (.opened threePane patchable state.listening) →
      ∀ win ∈ (step (.opened threePane patchable) state).windows, holds win := by
    intro holds all new win member
    rcases List.mem_append.mp member with earlier | last
    · exact all win earlier
    · exact List.mem_singleton.mp last ▸ new
  exact ⟨added kept.tidy (MailWindow.tidy_opened _ _ _),
    fun unheard => added (kept.off unheard) rfl, added kept.closed fun _ => rfl, kept.flag,
    kept.ended⟩

theorem Kept.setEnabled (kept : state.Kept) (value : Bool)
    (covered : Covered (.setEnabled value) state) : (state.setEnabled value).Kept := by
  unfold Interception.setEnabled
  by_cases same : (state.shutDown || value = state.enabled) = true
  · rwa [if_pos same]
  · rw [if_neg same]
    simp only [Bool.or_eq_true, decide_eq_true_eq, not_or, Bool.not_eq_true] at same
    cases value with
    | true => exact kept.install same.1
    | false =>
        have unpatched := uninstall_patched kept covered
        exact ⟨uninstall_tidy kept, fun _ => unpatched, fun win member _ => unpatched win member,
          fun _ => rfl, fun _ => rfl⟩

theorem Kept.shutdown (kept : state.Kept) (covered : Covered .shutdown state) :
    state.onShutdown.Kept := by
  unfold onShutdown
  split
  · exact kept
  · have unpatched := uninstall_patched kept covered
    exact ⟨uninstall_tidy kept, fun _ => unpatched, fun win member _ => unpatched win member,
      nofun, fun _ => rfl⟩

theorem kept_step (event : WindowEvent) (state : Interception) (kept : state.Kept)
    (covered : Covered event state) : (step event state).Kept := by
  cases event with
  | setEnabled value => exact kept.setEnabled value covered
  | opened threePane patchable => exact kept.opened threePane patchable
  | scripted index => exact kept.scripted index
  | loaded index => exact kept.loaded index covered
  | closed index => exact kept.close index
  | shutdown => exact kept.shutdown covered

theorem uninstall_leaves {win : MailWindow} {after : Interception} (tidy : win.Tidy)
    (member : win ∈ state.windows) (patched : win.patched.isSome = true)
    (unlisted : win.threePane = false) (windows : after.windows = state.uninstall.windows)
    (off : after.listening = false) : ¬after.Undone := by
  -- A patched window that is not enumerated keeps its wrapper.
  intro undone
  have stays : win ∈ after.windows := by
    rw [windows]
    exact List.mem_map.mpr ⟨win, member, by simp [MailWindow.enumerated, unlisted]⟩
  obtain ⟨entry, found⟩ := Option.isSome_iff_exists.mp patched
  simp only [MailWindow.Tidy, found] at tidy
  obtain ⟨_, held, serial, wrapper⟩ := tidy
  have none := ((undone win stays entry.wrapped held).2 off).1
  simp [wrapper, ComposeFn.wrappers] at none

theorem uncovered_step (event : WindowEvent) (state : Interception) (kept : state.Kept)
    (uncovered : ¬Covered event state) : ¬(step event state).Undone := by
  -- An enumeration that leaves a patched window out is one that really ends the interception.
  have effective : ∀ win ∈ state.windows, win.patched.isSome = true →
      state.listening = true ∧ state.shutDown = false ∧ state.enabled = true := by
    intro win member patched
    have heard : state.listening = true := by
      by_contra unheard
      simp [kept.off (by simpa using unheard) win member] at patched
    have alive : state.shutDown = false := by
      by_contra shut
      exact absurd (heard.symm.trans (kept.ended (by simpa using shut))) (by decide)
    exact ⟨heard, alive, (kept.flag alive).trans heard⟩
  cases event with
  | opened | scripted | closed => exact absurd trivial uncovered
  | loaded index =>
      simp only [Covered, not_forall, Bool.not_eq_true] at uncovered
      obtain ⟨win, found, due, unheard⟩ := uncovered
      have unpatched := kept.off unheard win (List.mem_of_getElem? found)
      rcases win.loaded_cases with ⟨_, _, _, serial, original, wrapper⟩ | ⟨_, spared⟩
      · intro undone
        have stays : win.loaded ∈ (step (.loaded index) state).windows :=
          List.mem_of_getElem? (i := index) (by simp [step, found])
        have none := ((undone win.loaded stays _ wrapper).2 unheard).1
        simp [ComposeFn.wrappers] at none
      · exact absurd (due.symm.trans (spared unpatched)) (by decide)
  | setEnabled value =>
      cases value with
      | true => exact absurd trivial uncovered
      | false =>
          simp only [Covered, not_forall, Bool.not_eq_true] at uncovered
          obtain ⟨win, member, patched, unlisted⟩ := uncovered
          obtain ⟨_, alive, enabled⟩ := effective win member patched
          exact uninstall_leaves (kept.tidy win member) member patched unlisted
            (by simp [step, setEnabled, alive, enabled])
            (by simp [step, setEnabled, alive, enabled, uninstall])
  | shutdown =>
      simp only [Covered, not_forall, Bool.not_eq_true] at uncovered
      obtain ⟨win, member, patched, unlisted⟩ := uncovered
      obtain ⟨_, alive, _⟩ := effective win member patched
      exact uninstall_leaves (kept.tidy win member) member patched unlisted
        (by simp [step, onShutdown, alive]) (by simp [step, onShutdown, alive, uninstall])

/-- The interception is undone all along a run exactly when every step of the run is
covered. -/
theorem interception_undone_iff (run : List WindowEvent) :
    (∀ earlier later, run = earlier ++ later → (afterRun earlier).Undone) ↔
      Meets step Covered run fresh := by
  exact always_iff_meets kept_step (fun _ kept => kept.undone) uncovered_step run fresh_kept

/-- A main window that is opened before the shutdown and loads after it. -/
theorem late_load_redirects : ¬∀ run, (afterRun run).Undone := by
  intro claim
  have undone := claim [.setEnabled true, .opened true true, .shutdown, .scripted 0, .loaded 0]
  have late : (⟨true, true, false, false, some (.wrapped 0 .native),
      some ⟨.native, .wrapped 0 .native⟩, 1⟩ : MailWindow) ∈ (afterRun [.setEnabled true,
        .opened true true, .shutdown, .scripted 0, .loaded 0]).windows := List.mem_singleton.mpr rfl
  have redirected := ((undone _ late _ rfl).2 rfl).2 ⟨ComposeType.forwardInline, some 1, true⟩
  exact absurd redirected (by decide)

end Interception
end OsClientCerts.ForwardDecrypt
