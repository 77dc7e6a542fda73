import OsClientCerts.RedirectedReplies

/-!
Whose files a redirected tab is given: the message and the readiness that were noted last
may be those of a later Forward by the time the background page asks for them.
-/

namespace OsClientCerts.ForwardDecrypt
open GuardedRuns CertCleanup

namespace ReplyTab

def ownUri (tab : ReplyTab) : Option MessageUri := tab.forward.map Forward.uri

def ownReady (tab : ReplyTab) : Option Nat := tab.forward.map Forward.ready

def source (tab : ReplyTab) : Option MessageUri :=
  match tab.stage with
  | .extracting source => some source
  | .attaching source _ => some source
  | _ => none

end ReplyTab

namespace Redirects

/-- Every file of a tab comes from the message of the Forward that opened it, and so do those
to come; the readiness a tab waits for is its own, taken by its own window if by any. -/
structure Provenance (extract : MessageUri → List Row) (state : Redirects) : Prop where
  attached : ∀ tab ∈ state.tabs, ∀ row ∈ tab.attached,
    ∃ uri, tab.ownUri = some uri ∧ row ∈ extract uri
  source : ∀ tab ∈ state.tabs, ∀ source, tab.source = some source → tab.ownUri = some source
  awaited : ∀ (index : Nat) (tab : ReplyTab) (number : Nat), state.tabs[index]? = some tab →
    tab.stage = .awaiting (some number) → tab.ownReady = some number ∧
      ∀ ready, state.readies[number]? = some ready → ∀ owner, ready.window = some owner →
        owner = index
  taken : ∀ (number : Nat) (ready : ComposeReady) (owner : Nat),
    state.readies[number]? = some ready → ready.window = some owner →
      ∃ tab, state.tabs[owner]? = some tab ∧ tab.ownReady = some number

/-- A window takes only the readiness of its own Forward; and a tab's own Forward is the one
noted last when the tab begins to wait and when it asks for its message. -/
def Unmixed : ReplyEvent → Redirects → Prop
  | .composeInit index _, state => ∀ (tab : ReplyTab) (number : Nat),
      state.tabs[index]? = some tab → tab.window = .opened (some number) →
        state.vacant number = true → tab.ownReady = some number
  | .waitReady index true, state => ∀ (tab : ReplyTab) (number : Nat),
      state.tabs[index]? = some tab → tab.stage = .preparing →
        state.redirectComposeReady = some number → tab.ownReady = some number
  | .readUri index, state => ∀ (tab : ReplyTab) (uri : MessageUri),
      state.tabs[index]? = some tab → tab.stage = .reading → state.lastForwardUri = some uri →
        tab.ownUri = some uri
  | _, _ => True

/-- What holds of the tab at a place. -/
structure TabKept (extract : MessageUri → List Row) (readies : List ComposeReady) (index : Nat)
    (tab : ReplyTab) : Prop where
  attached : ∀ row ∈ tab.attached, ∃ uri, tab.ownUri = some uri ∧ row ∈ extract uri
  source : ∀ source, tab.source = some source → tab.ownUri = some source
  rows : ∀ source rows, tab.stage = .attaching source rows → rows ⊆ extract source
  bounded : ∀ number, tab.ownReady = some number → number < readies.length
  awaited : ∀ number, tab.stage = .awaiting (some number) → tab.ownReady = some number ∧
    ∀ ready, readies[number]? = some ready → ∀ owner, ready.window = some owner → owner = index

structure Kept (extract : MessageUri → List Row) (state : Redirects) : Prop where
  tabs : ∀ (index : Nat) (tab : ReplyTab), state.tabs[index]? = some tab →
    TabKept extract state.readies index tab
  unique : ∀ (first second : Nat) (tab other : ReplyTab) (number : Nat),
    state.tabs[first]? = some tab → state.tabs[second]? = some other →
      tab.ownReady = some number → other.ownReady = some number → first = second
  taken : ∀ (number : Nat) (ready : ComposeReady) (owner : Nat),
    state.readies[number]? = some ready → ready.window = some owner →
      ∃ tab, state.tabs[owner]? = some tab ∧ tab.ownReady = some number

section
variable {extract : MessageUri → List Row} {state : Redirects} {index : Nat}
  {tab next : ReplyTab}

theorem fresh_kept : Kept extract fresh := by
  constructor
  · intro index tab found
    simp [fresh] at found
  · intro first second tab other number found
    simp [fresh] at found
  · intro number ready owner found
    simp [fresh] at found

theorem Kept.provenance (kept : Kept extract state) : Provenance extract state := by
  refine ⟨?_, ?_, fun index tab number found => (kept.tabs index tab found).awaited number,
    kept.taken⟩
  · intro tab member
    obtain ⟨index, found⟩ := List.mem_iff_getElem?.mp member
    exact (kept.tabs index tab found).attached
  · intro tab member
    obtain ⟨index, found⟩ := List.mem_iff_getElem?.mp member
    exact (kept.tabs index tab found).source

theorem get_set_tab (found : state.tabs[index]? = some tab) (place : Nat) :
    (state.setTab index next).tabs[place]? =
      if place = index then some next else state.tabs[place]? := by
  have inside : index < state.tabs.length := (List.getElem?_eq_some_iff.mp found).1
  by_cases same : place = index
  · subst same
    simp [setTab, inside]
  · simp [setTab, same, Ne.symm same]

theorem Kept.setTab (kept : Kept extract state) (found : state.tabs[index]? = some tab)
    (forward : next.forward = tab.forward) (changed : TabKept extract state.readies index next) :
    Kept extract (state.setTab index next) := by
  have own : next.ownReady = tab.ownReady := by simp [ReplyTab.ownReady, forward]
  -- The tab at a place has the Forward it had.
  have before : ∀ (place : Nat) (other : ReplyTab),
      (state.setTab index next).tabs[place]? = some other → ∃ old,
        state.tabs[place]? = some old ∧ other.ownReady = old.ownReady := by
    intro place other held
    rw [get_set_tab found] at held
    split at held
    · rename_i same
      obtain rfl := Option.some.inj held
      exact ⟨tab, same ▸ found, own⟩
    · exact ⟨other, held, rfl⟩
  refine ⟨?_, ?_, ?_⟩
  · intro place other held
    rw [get_set_tab found] at held
    split at held
    · rename_i same
      obtain rfl := Option.some.inj held
      exact same ▸ changed
    · exact kept.tabs place other held
  · intro first second one other number atFirst atSecond mine yours
    obtain ⟨old, held, same⟩ := before first one atFirst
    obtain ⟨another, holds, equal⟩ := before second other atSecond
    exact kept.unique first second old another number held holds (same ▸ mine) (equal ▸ yours)
  · intro number ready owner held took
    obtain ⟨old, holds, mine⟩ := kept.taken number ready owner held took
    rw [get_set_tab found]
    split
    · rename_i same
      subst same
      obtain rfl := Option.some.inj (holds.symm.trans found)
      exact ⟨next, rfl, own.trans mine⟩
    · exact ⟨old, holds, mine⟩

theorem TabKept.grown {readies larger : List ComposeReady}
    (kept : TabKept extract readies index tab) (longer : readies.length ≤ larger.length)
    (windows : ∀ (number owner : Nat) (ready : ComposeReady), larger[number]? = some ready →
      ready.window = some owner →
        ∃ before, readies[number]? = some before ∧ before.window = some owner) :
    TabKept extract larger index tab := by
  refine ⟨kept.attached, kept.source, kept.rows,
    fun number own => Nat.lt_of_lt_of_le (kept.bounded number own) longer, fun number waits => ?_⟩
  refine ⟨(kept.awaited number waits).1, fun ready held owner took => ?_⟩
  obtain ⟨before, earlier, same⟩ := windows number owner ready held took
  exact (kept.awaited number waits).2 before earlier owner same

@[simp] theorem resolve_window (ready : ComposeReady) (result : Readiness) :
    (ready.resolve result).window = ready.window := by
  unfold ComposeReady.resolve
  split <;> rfl

theorem resolve_windows (readies : List ComposeReady) (settling : Nat) (result : Readiness)
    (number owner : Nat) (ready : ComposeReady)
    (held : (readies.modify settling fun other => other.resolve result)[number]? = some ready)
    (took : ready.window = some owner) :
    ∃ before, readies[number]? = some before ∧ before.window = some owner := by
  rcases get_modify held with ⟨_, before, earlier, rfl⟩ | ⟨_, earlier⟩
  · exact ⟨before, earlier, by rwa [resolve_window] at took⟩
  · exact ⟨ready, earlier, took⟩

theorem Kept.resolve (kept : Kept extract state) (settling : Nat) (result : Readiness) :
    Kept extract (state.resolve settling result) := by
  have windows := resolve_windows state.readies settling result
  refine ⟨fun place other held => (kept.tabs place other held).grown (by simp [Redirects.resolve])
    windows, kept.unique, fun number ready owner held took => ?_⟩
  obtain ⟨before, earlier, same⟩ := windows number owner ready held took
  exact kept.taken number before owner earlier same

theorem Kept.opened (kept : Kept extract state) (added : List ComposeReady)
    (forward : Option Forward) (untaken : ∀ ready ∈ added, ready.window = none)
    (own : ∀ opening, forward = some opening → opening.ready = state.readies.length ∧ added ≠ [])
    (uri : Option MessageUri) (pending : Bool) (latest : Option Nat) :
    Kept extract ⟨uri, pending, latest, state.readies ++ added,
      state.tabs ++ [⟨forward, .unopened, false, .unprocessed, 0, []⟩]⟩ := by
  have windows : ∀ (number owner : Nat) (ready : ComposeReady),
      (state.readies ++ added)[number]? = some ready → ready.window = some owner →
        ∃ before, state.readies[number]? = some before ∧ before.window = some owner := by
    intro number owner ready held took
    rw [List.getElem?_append] at held
    split at held
    · exact ⟨ready, held, took⟩
    · simp [untaken ready (List.mem_of_getElem? held)] at took
  have fresh : ∀ number, (ReplyTab.ownReady ⟨forward, .unopened, false, .unprocessed, 0, []⟩) =
      some number → number = state.readies.length ∧ added ≠ [] := by
    intro number mine
    obtain ⟨opening, same, rfl⟩ := Option.map_eq_some_iff.mp mine
    exact own opening same
  refine ⟨?_, ?_, ?_⟩
  · intro index tab held
    rcases get_append_singleton held with earlier | ⟨_, rfl⟩
    · exact (kept.tabs index tab earlier).grown (by simp) windows
    · refine ⟨nofun, nofun, nofun, fun number mine => ?_, nofun⟩
      obtain ⟨rfl, some⟩ := fresh number mine
      simpa using List.length_pos_iff.mpr some
  · intro first second one other number atFirst atSecond mine yours
    rcases get_append_singleton atFirst with earlier | ⟨here, rfl⟩
    · have small := (kept.tabs first one earlier).bounded number mine
      rcases get_append_singleton atSecond with before | ⟨there, rfl⟩
      · exact kept.unique first second one other number earlier before mine yours
      · exact absurd small (Nat.not_lt_of_le (Nat.le_of_eq (fresh number yours).1.symm))
    · rcases get_append_singleton atSecond with before | ⟨there, rfl⟩
      · have small := (kept.tabs second other before).bounded number yours
        exact absurd small (Nat.not_lt_of_le (Nat.le_of_eq (fresh number mine).1.symm))
      · exact here.trans there.symm
  · intro number ready owner held took
    obtain ⟨before, earlier, same⟩ := windows number owner ready held took
    obtain ⟨tab, found, mine⟩ := kept.taken number before owner earlier same
    refine ⟨tab, ?_, mine⟩
    change (state.tabs ++ _)[owner]? = _
    rw [List.getElem?_append_left (List.getElem?_eq_some_iff.mp found).1]
    exact found

theorem TabKept.quiet {readies : List ComposeReady} (kept : TabKept extract readies index tab)
    {stage : Stage} (quiet : stage = .left ∨ stage = .preparing ∨ stage = .reading) (handed : Nat) :
    TabKept extract readies index { tab with stage := stage, handed := handed } := by
  refine ⟨kept.attached, ?_, ?_, kept.bounded, ?_⟩
  · rcases quiet with rfl | rfl | rfl <;> nofun
  · rcases quiet with rfl | rfl | rfl <;> nofun
  · rcases quiet with rfl | rfl | rfl <;> nofun

theorem Kept.quiet (kept : Kept extract state) (found : state.tabs[index]? = some tab)
    {stage : Stage} (quiet : stage = .left ∨ stage = .preparing ∨ stage = .reading) :
    Kept extract (state.setTab index { tab with stage := stage }) :=
  kept.setTab found rfl ((kept.tabs index tab found).quiet quiet tab.handed)

theorem Kept.window (kept : Kept extract state) (found : state.tabs[index]? = some tab)
    (window : ComposeWindow) : Kept extract (state.setTab index { tab with window := window }) := by
  have before := kept.tabs index tab found
  exact kept.setTab found rfl
    ⟨before.attached, before.source, before.rows, before.bounded, before.awaited⟩

theorem Kept.onOpenWindow (kept : Kept extract state) (found : state.tabs[index]? = some tab) :
    Kept extract (state.onOpenWindow index tab) := by
  unfold Redirects.onOpenWindow
  split
  · exact kept.window found _
  · exact kept

theorem Kept.take (kept : Kept extract state) (found : state.tabs[index]? = some tab)
    {number : Nat} (own : tab.ownReady = some number) :
    Kept extract { state with
      readies := state.readies.modify number fun other => { other with window := some index }
    } := by
  have windows : ∀ (place owner : Nat) (ready : ComposeReady),
      (state.readies.modify number fun other => { other with window := some index })[place]? =
        some ready → ready.window = some owner → place = number ∧ owner = index ∨
          state.readies[place]? = some ready := by
    intro place owner ready held took
    rcases get_modify held with ⟨same, before, _, rfl⟩ | ⟨_, earlier⟩
    · exact Or.inl ⟨same.symm, by simpa using took.symm⟩
    · exact Or.inr earlier
  refine ⟨fun place other held => ?_, kept.unique, fun place ready owner held took => ?_⟩
  · have before := kept.tabs place other held
    refine ⟨before.attached, before.source, before.rows, fun mine same => ?_, fun mine waits => ?_⟩
    · simpa using before.bounded mine same
    · refine ⟨(before.awaited mine waits).1, fun ready listed owner took => ?_⟩
      rcases windows mine owner ready listed took with ⟨rfl, rfl⟩ | earlier
      · exact kept.unique owner place tab other mine found held own (before.awaited mine waits).1
      · exact (before.awaited mine waits).2 ready earlier owner took
  · rcases windows place owner ready held took with ⟨rfl, rfl⟩ | earlier
    · exact ⟨tab, found, own⟩
    · exact kept.taken place ready owner earlier took

theorem Kept.composeWindowInit (kept : Kept extract state) (found : state.tabs[index]? = some tab)
    (gMsgCompose : Bool) (unmixed : Unmixed (.composeInit index gMsgCompose) state) :
    Kept extract (state.composeWindowInit index tab gMsgCompose) := by
  unfold Redirects.composeWindowInit
  split
  · exact kept.window found _
  · rename_i number captured
    split
    · rename_i vacant
      have taken := kept.take found (unmixed tab number found captured vacant)
      cases gMsgCompose with
      | true => exact taken.window found _
      | false => exact (taken.resolve number .closed).window found _
    · exact kept.window found _
  · exact kept

theorem Kept.notify (kept : Kept extract state) (result : Readiness) :
    Kept extract (state.notify tab result) := by
  unfold Redirects.notify
  split
  · exact kept.resolve _ result
  · exact kept

theorem Kept.process (kept : Kept extract state) (found : state.tabs[index]? = some tab) :
    Kept extract (state.processComposeTab index tab) := by
  unfold processComposeTab
  split
  · have cleared : Kept extract { state with redirectPending := false } :=
      ⟨kept.tabs, kept.unique, kept.taken⟩
    refine cleared.setTab found (by cases state.redirectPending <;> rfl) ?_
    cases state.redirectPending with
    | true => exact (kept.tabs index tab found).quiet (by simp) _
    | false => exact (kept.tabs index tab found).quiet (by simp) _
  · exact kept

theorem Kept.wait (kept : Kept extract state) (found : state.tabs[index]? = some tab)
    (details : Bool) (unmixed : Unmixed (.waitReady index details) state) :
    Kept extract (state.waitForRedirectedComposeReady index tab details) := by
  unfold waitForRedirectedComposeReady
  split
  · rename_i preparing
    cases details with
    | false => exact kept.quiet found (by simp)
    | true =>
        have before := kept.tabs index tab found
        refine kept.setTab found rfl ⟨before.attached, nofun, nofun, before.bounded, ?_⟩
        intro number waits
        have own := unmixed tab number found preparing (by simpa using waits)
        refine ⟨own, fun ready held owner took => ?_⟩
        obtain ⟨other, listed, same⟩ := kept.taken number ready owner held took
        exact kept.unique owner index other tab number listed found same own
  · exact kept

theorem Kept.afterReadiness (kept : Kept extract state) (found : state.tabs[index]? = some tab)
    (timeout : Bool) : Kept extract (state.afterReadiness index tab timeout) := by
  unfold Redirects.afterReadiness
  split
  · split
    · exact kept
    · split
      · exact kept.quiet found (by simp)
      · split
        · exact kept.quiet found (by simp)
        · exact kept.quiet found (by simp)
  · exact kept

theorem Kept.getLastForwardUri (kept : Kept extract state) (found : state.tabs[index]? = some tab)
    (unmixed : Unmixed (.readUri index) state) :
    Kept extract (state.getLastForwardUri index tab) := by
  unfold Redirects.getLastForwardUri
  split
  · rename_i reading
    split
    · exact kept.quiet found (by simp)
    · rename_i uri noted
      have before := kept.tabs index tab found
      refine kept.setTab found rfl ⟨before.attached, ?_, nofun, before.bounded, nofun⟩
      rintro source ⟨⟩
      exact unmixed tab uri found reading noted
  · exact kept

theorem Kept.afterExtraction (kept : Kept extract state) (found : state.tabs[index]? = some tab) :
    Kept extract (afterExtraction extract state index tab) := by
  unfold Redirects.afterExtraction
  split
  · rename_i source extracting
    split
    · exact kept.quiet found (by simp)
    · have before := kept.tabs index tab found
      refine kept.setTab found rfl ⟨before.attached, ?_, ?_, before.bounded, nofun⟩
      · rintro _ ⟨⟩
        exact before.source source (by simp [ReplyTab.source, extracting])
      · rintro _ _ ⟨⟩
        exact List.Subset.refl _
  · exact kept

theorem Kept.attach (kept : Kept extract state) (found : state.tabs[index]? = some tab)
    (adds : Nat) : Kept extract (state.attach index tab adds) := by
  unfold Redirects.attach
  split
  · exact kept.quiet found (by simp)
  · rename_i source row rest attaching
    have before := kept.tabs index tab found
    have own := before.source source (by simp [ReplyTab.source, attaching])
    have rows := before.rows source (row :: rest) attaching
    refine kept.setTab found rfl ⟨?_, ?_, ?_, before.bounded, nofun⟩
    · intro other member
      rcases List.mem_append.mp member with earlier | added
      · exact before.attached other earlier
      · have same : other = row := by
          split at added
          · cases added
          · exact List.eq_of_mem_replicate added
        exact ⟨source, own, same ▸ rows List.mem_cons_self⟩
    · rintro _ ⟨⟩
      exact own
    · rintro _ _ ⟨⟩
      exact List.Subset.trans (List.subset_cons_self row rest) rows
  · exact kept

theorem kept_on_tab (kept : Kept extract state) {action : ReplyTab → Redirects}
    (acted : ∀ tab, state.tabs[index]? = some tab → Kept extract (action tab)) :
    Kept extract (state.onTab index action) := by
  unfold onTab
  split
  · exact acted _ ‹_›
  · exact kept

theorem kept_step (event : ReplyEvent) (state : Redirects) (kept : Kept extract state)
    (unmixed : Unmixed event state) : Kept extract (step extract event state) := by
  cases event with
  | redirect uri => exact kept.opened [⟨none, none⟩] _ (by simp) (by simp) _ _ _
  | reply =>
      have opened := kept.opened [] none (by simp) (by simp) state.lastForwardUri
        state.redirectPending state.redirectComposeReady
      rw [List.append_nil] at opened
      exact opened
  | windowOpened index => exact kept_on_tab kept fun _ found => kept.onOpenWindow found
  | composeInit index gMsgCompose =>
      exact kept_on_tab kept fun _ found => kept.composeWindowInit found gMsgCompose unmixed
  | bodyReady index => exact kept_on_tab kept fun _ _ => kept.notify .ready
  | unload index => exact kept_on_tab kept fun _ _ => kept.notify .closed
  | removed index =>
      refine kept_on_tab kept fun tab found => ?_
      have before := kept.tabs index tab found
      exact kept.setTab found rfl
        ⟨before.attached, before.source, before.rows, before.bounded, before.awaited⟩
  | process index => exact kept_on_tab kept fun _ found => kept.process found
  | waitReady index details => exact kept_on_tab kept fun _ found => kept.wait found details unmixed
  | readiness index timeout =>
      exact kept_on_tab kept fun _ found => kept.afterReadiness found timeout
  | readUri index => exact kept_on_tab kept fun _ found => kept.getLastForwardUri found unmixed
  | extracted index => exact kept_on_tab kept fun _ found => kept.afterExtraction found
  | attach index adds => exact kept_on_tab kept fun _ found => kept.attach found adds

theorem window_takes (found : state.tabs[index]? = some tab) {number : Nat}
    (captured : tab.window = .opened (some number)) (vacant : state.vacant number = true)
    (gMsgCompose : Bool) :
    (state.composeWindowInit index tab gMsgCompose).tabs[index]? =
        some { tab with window := .initialised (some number) } ∧
      ∃ after : ComposeReady,
        (state.composeWindowInit index tab gMsgCompose).readies[number]? = some after ∧
          after.window = some index := by
  have inside : index < state.tabs.length := (List.getElem?_eq_some_iff.mp found).1
  obtain ⟨ready, held⟩ : ∃ ready, state.readies[number]? = some ready := by
    unfold Redirects.vacant at vacant
    split at vacant
    · exact ⟨_, ‹_›⟩
    · cases vacant
  cases gMsgCompose with
  | true =>
      simp [Redirects.composeWindowInit, captured, vacant, Redirects.setTab, held, inside]
  | false =>
      simp [Redirects.composeWindowInit, captured, vacant, Redirects.setTab, Redirects.resolve,
        held, inside]

/-- A step that is mixed up leaves a window with the readiness of another Forward, or a tab
with its readiness or its message. -/
theorem mixed_step (event : ReplyEvent) (state : Redirects) (mixed : ¬Unmixed event state) :
    ¬Provenance extract (step extract event state) := by
  intro provenance
  apply mixed
  cases event with
  | composeInit index gMsgCompose =>
      intro tab number found captured vacant
      have next : step extract (.composeInit index gMsgCompose) state =
          state.composeWindowInit index tab gMsgCompose := by simp [step, onTab, found]
      obtain ⟨tabs, after, held, took⟩ := window_takes found captured vacant gMsgCompose
      obtain ⟨other, listed, own⟩ := provenance.taken number after index (next ▸ held) took
      rw [next, tabs] at listed
      obtain rfl := Option.some.inj listed
      exact own
  | waitReady index details =>
      cases details with
      | false => trivial
      | true =>
          intro tab number found preparing noted
          have next : (step extract (.waitReady index true) state).tabs[index]? =
              some { tab with stage := .awaiting (some number) } := by
            simp [step, onTab, found, waitForRedirectedComposeReady, preparing, noted, get_set_tab]
          exact (provenance.awaited index _ number next rfl).1
  | readUri index =>
      intro tab uri found reading noted
      have next : (step extract (.readUri index) state).tabs[index]? =
          some { tab with stage := .extracting uri } := by
        simp [step, onTab, found, Redirects.getLastForwardUri, reading, noted, get_set_tab]
      exact provenance.source _ (List.mem_of_getElem? next) uri rfl
  | _ => trivial

end

/-- The provenance of the attachments holds all along a run exactly when no step of the run
mixes two Forwards up. -/
theorem provenance_iff (extract : MessageUri → List Row) (run : List ReplyEvent) :
    (∀ earlier later, run = earlier ++ later → Provenance extract (afterRun extract earlier)) ↔
      Meets (step extract) Unmixed run fresh := by
  exact always_iff_meets kept_step (fun _ kept => kept.provenance)
    (fun event state _ mixed => mixed_step event state mixed) run fresh_kept

/-- A second message is forwarded while the first tab waits for its window. -/
theorem second_forward_gives_its_files : ¬∀ (extract : MessageUri → List Row)
    (run : List ReplyEvent), ∀ tab ∈ (afterRun extract run).tabs, ∀ row ∈ tab.attached,
      ∃ uri, tab.ownUri = some uri ∧ row ∈ extract uri := by
  intro claim
  let extract : MessageUri → List Row := fun uri => [⟨some uri, none, []⟩]
  let run : List ReplyEvent := [.redirect (ofAscii "mailbox://message/42"), .process 0,
    .waitReady 0 true, .redirect (ofAscii "mailbox://message/43"), .readiness 0 true, .readUri 0,
    .extracted 0, .attach 0 1]
  have given : (⟨some ⟨ofAscii "mailbox://message/42", 0⟩, .unopened, false,
      .attaching (ofAscii "mailbox://message/43") [], 1,
      [⟨some (ofAscii "mailbox://message/43"), none, []⟩]⟩ : ReplyTab) ∈
        (afterRun extract run).tabs := List.mem_cons_self
  obtain ⟨uri, own, row⟩ := claim extract run _ given _ (List.mem_singleton.mpr rfl)
  obtain rfl := Option.some.inj own
  exact absurd row (by decide)

end Redirects
end OsClientCerts.ForwardDecrypt
