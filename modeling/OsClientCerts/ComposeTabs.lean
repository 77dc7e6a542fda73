import OsClientCerts.GuardedRuns

/-!
The background page claims compose tabs in sets of its own, which go with the page when it
is suspended, while the tabs stay. A page that starts scans the open tabs and claims those.
-/

namespace OsClientCerts.ForwardDecrypt
open GuardedRuns

/-- The awaits of `processComposeTab` on a forward, each followed by a check. -/
inductive Check where
  | details
  | smimeEncrypted
  | decryptable
  | rootType
  deriving DecidableEq

def Check.next : Check → Option Check
  | details => some smimeEncrypted
  | smimeEncrypted => some decryptable
  | decryptable => some rootType
  | rootType => none

/-- A call of `processComposeTab`: the await it is at, unless it has returned. -/
structure Task where
  tab : Nat
  check : Option Check

/-- How far the startup of a page has come: the tabs that its query found are still to be
processed, or all is done. -/
inductive Startup where
  | loading
  | found (tabs : List Nat)
  | done

structure Page where
  processedTabIds : List Nat
  closedTabIds : List Nat
  tasks : List Task
  startup : Startup

structure ComposeTab where
  opened : Bool
  /-- Calls of `rebuildForwardCompose` while the tab is open. -/
  rebuilds : Nat

structure Background where
  tabs : List ComposeTab
  page : Option Page

inductive TabEvent where
  | opened
  | closed (tab : Nat)
  /-- `tabs.onCreated` and `tabs.onRemoved` reach the page. -/
  | created (tab : Nat)
  | removed (tab : Nat)
  | suspend
  | restart
  /-- The query of the startup is answered. -/
  | queried
  | scanned
  /-- An await of a task is answered, and its check passes or not. -/
  | answered (task : Nat) (passes : Bool)

namespace Page

def fresh : Page := ⟨[], [], [], .loading⟩

def processComposeTab (page : Page) (tab : Nat) : Page :=
  if tab ∈ page.processedTabIds then page
  else { page with
    processedTabIds := tab :: page.processedTabIds
    tasks := page.tasks ++ [⟨tab, some .details⟩] }

def onRemoved (page : Page) (tab : Nat) : Page :=
  { page with
    processedTabIds := page.processedTabIds.filter fun other => other ≠ tab
    closedTabIds := tab :: page.closedTabIds }

def onCreated (page : Page) (tab : Nat) : Page :=
  let reopened := { page with closedTabIds := page.closedTabIds.filter fun other => other ≠ tab }
  reopened.processComposeTab tab

def scan (page : Page) : Page :=
  match page.startup with
  | .found tabs => { tabs.foldl processComposeTab page with startup := .done }
  | _ => page

def setTask (page : Page) (index : Nat) (task : Task) : Page :=
  { page with tasks := page.tasks.set index task }

end Page

namespace Background

def initial : Background := ⟨[], none⟩

def isOpen (state : Background) (tab : Nat) : Bool :=
  (state.tabs[tab]?).any ComposeTab.opened

def isClosed (state : Background) (tab : Nat) : Bool :=
  (state.tabs[tab]?).any fun other => !other.opened

def openTabs (state : Background) : List Nat :=
  (List.range state.tabs.length).filter state.isOpen

def rebuild (state : Background) (tab : Nat) : Background :=
  { state with tabs := state.tabs.modify tab fun other =>
      if other.opened then { other with rebuilds := other.rebuilds + 1 } else other }

def onPage (state : Background) (action : Page → Page) : Background :=
  { state with page := state.page.map action }

def answer (state : Background) (page : Page) (index : Nat) (passes : Bool) : Background :=
  match page.tasks[index]? with
  | some ⟨tab, some check⟩ =>
      let stops := !passes || (check = .details && tab ∈ page.closedTabIds)
      let next := if stops then none else check.next
      let moved := { state with page := some (page.setTask index ⟨tab, next⟩) }
      if !stops && check = .rootType then moved.rebuild tab else moved
  | _ => state

def step : TabEvent → Background → Background
  | .opened, state => { state with tabs := state.tabs ++ [⟨true, 0⟩] }
  | .closed tab, state =>
      { state with tabs := state.tabs.modify tab fun other => { other with opened := false } }
  | .created tab, state => state.onPage fun page => page.onCreated tab
  | .removed tab, state =>
      if state.isClosed tab then state.onPage fun page => page.onRemoved tab else state
  | .suspend, state => { state with page := none }
  | .restart, state =>
      match state.page with
      | none => { state with page := some .fresh }
      | some _ => state
  | .queried, state => state.onPage fun page =>
      match page.startup with
      | .loading => { page with startup := .found state.openTabs }
      | _ => page
  | .scanned, state => state.onPage Page.scan
  | .answered task passes, state =>
      match state.page with
      | some page => state.answer page task passes
      | none => state

def afterRun (run : List TabEvent) : Background := LocalAutomata.after step run initial

def RebuiltOnce (state : Background) : Prop := ∀ tab ∈ state.tabs, tab.rebuilds ≤ 1

def Rebuilt (state : Background) (index : Nat) : Prop :=
  ∃ tab, state.tabs[index]? = some tab ∧ tab.opened = true ∧ 0 < tab.rebuilds

def claimed : TabEvent → Page → List Nat
  | .created tab, _ => [tab]
  | .scanned, page => match page.startup with
      | .found tabs => tabs
      | _ => []
  | _, _ => []

def ClaimsUnbuilt (event : TabEvent) (state : Background) : Prop :=
  ∀ page, state.page = some page → ∀ tab ∈ claimed event page, tab ∉ page.processedTabIds →
    ¬Rebuilt state tab

structure PageKept (state : Background) (page : Page) : Prop where
  live : ∀ (index tab : Nat) (check : Check), page.tasks[index]? = some ⟨tab, some check⟩ →
    state.isClosed tab = false → tab ∈ page.processedTabIds ∧ ¬Rebuilt state tab
  once : ∀ (first second tab : Nat) (check other : Check),
    page.tasks[first]? = some ⟨tab, some check⟩ → page.tasks[second]? = some ⟨tab, some other⟩ →
      state.isClosed tab = false → first = second
  closed : ∀ tab ∈ page.closedTabIds, state.isClosed tab = true

structure Kept (state : Background) : Prop where
  once : state.RebuiltOnce
  page : ∀ page, state.page = some page → PageKept state page

section
variable {state : Background} {page : Page} {tab index : Nat}

theorem initial_kept : Kept initial := ⟨nofun, nofun⟩

theorem is_closed_iff : state.isClosed tab = true ↔
    ∃ found, state.tabs[tab]? = some found ∧ found.opened = false := by
  unfold isClosed
  cases state.tabs[tab]? <;> simp

theorem PageKept.tabs {next : Background} (kept : PageKept state page)
    (closed : ∀ tab, state.isClosed tab = true → next.isClosed tab = true)
    (rebuilt : ∀ tab, Rebuilt next tab → Rebuilt state tab) : PageKept next page := by
  have still : ∀ tab, next.isClosed tab = false → state.isClosed tab = false := by
    intro tab live
    by_contra shut
    rw [closed tab (by simpa using shut)] at live
    cases live
  refine ⟨fun index tab check held live => ?_, fun first second tab check other one two live =>
    kept.once first second tab check other one two (still tab live),
    fun tab member => closed tab (kept.closed tab member)⟩
  obtain ⟨listed, unbuilt⟩ := kept.live index tab check held (still tab live)
  exact ⟨listed, fun again => unbuilt (rebuilt tab again)⟩

theorem PageKept.process (kept : PageKept state page)
    (unbuilt : tab ∉ page.processedTabIds → ¬Rebuilt state tab) :
    PageKept state (page.processComposeTab tab) := by
  unfold Page.processComposeTab
  by_cases listed : tab ∈ page.processedTabIds
  · rwa [if_pos listed]
  · rw [if_neg listed]
    have place : ∀ (index other : Nat) (check : Check),
        (page.tasks ++ [(⟨tab, some .details⟩ : Task)])[index]? = some ⟨other, some check⟩ →
          page.tasks[index]? = some ⟨other, some check⟩ ∨
            index = page.tasks.length ∧ other = tab := by
      intro index other check held
      rcases get_append_singleton held with earlier | ⟨here, same⟩
      · exact Or.inl earlier
      · exact Or.inr ⟨here, (Task.mk.inj same).1⟩
    -- A task for the tab would have put it among the processed ones.
    have alone : ∀ (index : Nat) (check : Check), page.tasks[index]? = some ⟨tab, some check⟩ →
        state.isClosed tab = true := by
      intro index check held
      by_contra live
      exact listed (kept.live index tab check held (by simpa using live)).1
    refine ⟨?_, ?_, kept.closed⟩
    · intro index other check held live
      rcases place index other check held with earlier | ⟨_, rfl⟩
      · obtain ⟨member, fresh⟩ := kept.live index other check earlier live
        exact ⟨List.mem_cons_of_mem _ member, fresh⟩
      · exact ⟨List.mem_cons_self, unbuilt listed⟩
    · intro first second other check again one two live
      rcases place first other check one with earlier | ⟨here, rfl⟩
      · rcases place second other again two with before | ⟨_, rfl⟩
        · exact kept.once first second other check again earlier before live
        · exact absurd (live.symm.trans (alone first check earlier)) (by decide)
      · rcases place second other again two with before | ⟨there, _⟩
        · exact absurd (live.symm.trans (alone second again before)) (by decide)
        · exact here.trans there.symm

theorem process_processed (page : Page) (tab : Nat) :
    page.processedTabIds ⊆ (page.processComposeTab tab).processedTabIds := by
  unfold Page.processComposeTab
  split
  · exact List.Subset.refl _
  · exact List.subset_cons_self _ _

theorem PageKept.processAll (tabs : List Nat) (kept : PageKept state page)
    (unbuilt : ∀ tab ∈ tabs, tab ∉ page.processedTabIds → ¬Rebuilt state tab) :
    PageKept state (tabs.foldl Page.processComposeTab page) := by
  induction tabs generalizing page with
  | nil => exact kept
  | cons tab rest ih =>
      refine ih (kept.process (unbuilt tab List.mem_cons_self)) fun other member fresh => ?_
      exact unbuilt other (List.mem_cons_of_mem _ member) fun listed =>
        fresh (process_processed page tab listed)

theorem PageKept.onRemoved (kept : PageKept state page) (gone : state.isClosed tab = true) :
    PageKept state (page.onRemoved tab) := by
  refine ⟨fun index other check held live => ?_, kept.once, fun other member => ?_⟩
  · obtain ⟨listed, unbuilt⟩ := kept.live index other check held live
    refine ⟨List.mem_filter.mpr ⟨listed, ?_⟩, unbuilt⟩
    simp only [decide_eq_true_eq]
    rintro rfl
    exact absurd (live.symm.trans gone) (by decide)
  · rcases List.mem_cons.mp member with rfl | earlier
    · exact gone
    · exact kept.closed other earlier

theorem PageKept.onCreated (kept : PageKept state page)
    (unbuilt : tab ∉ page.processedTabIds → ¬Rebuilt state tab) :
    PageKept state (page.onCreated tab) := by
  have reopened : PageKept state
      { page with closedTabIds := page.closedTabIds.filter fun other => other ≠ tab } :=
    ⟨kept.live, kept.once, fun other member => kept.closed other (List.mem_filter.mp member).1⟩
  exact reopened.process unbuilt

theorem PageKept.setTask (kept : PageKept state page) {check : Check}
    (found : page.tasks[index]? = some ⟨tab, some check⟩) (next : Option Check) :
    PageKept state (page.setTask index ⟨tab, next⟩) := by
  -- A task that was at an await returns, or goes on to the next one.
  have before : ∀ (place other : Nat) (again : Check),
      (page.setTask index ⟨tab, next⟩).tasks[place]? = some ⟨other, some again⟩ →
        ∃ earlier, page.tasks[place]? = some ⟨other, some earlier⟩ := by
    intro place other again held
    rw [Page.setTask, List.getElem?_set] at held
    split at held
    · rename_i same
      subst same
      split at held
      · obtain ⟨rfl, _⟩ := Task.mk.inj (Option.some.inj held)
        exact ⟨check, found⟩
      · cases held
    · exact ⟨again, held⟩
  refine ⟨fun place other again held live => ?_, fun first second other one two atFirst atSecond
    live => ?_, kept.closed⟩
  · obtain ⟨earlier, held⟩ := before place other again held
    exact kept.live place other earlier held live
  · obtain ⟨earlier, atFirst⟩ := before first other one atFirst
    obtain ⟨again, atSecond⟩ := before second other two atSecond
    exact kept.once first second other earlier again atFirst atSecond live

theorem rebuild_closed (state : Background) (tab other : Nat) :
    (state.rebuild tab).isClosed other = state.isClosed other := by
  unfold isClosed rebuild
  rw [List.getElem?_modify]
  cases state.tabs[other]? with
  | none => rfl
  | some found =>
      simp only [Option.map_eq_map, Option.map_some, Option.any_some]
      split
      · split <;> rfl
      · rfl

theorem rebuild_other (state : Background) {other : Nat} (apart : other ≠ tab)
    (again : Rebuilt (state.rebuild tab) other) : Rebuilt state other := by
  obtain ⟨found, held, live, some⟩ := again
  rw [rebuild, List.getElem?_modify_ne _ _ (Ne.symm apart)] at held
  exact ⟨found, held, live, some⟩

theorem rebuild_once (state : Background) (once : state.RebuiltOnce) (unbuilt : ¬Rebuilt state tab) :
    (state.rebuild tab).RebuiltOnce := by
  refine forall_mem_modify once fun before earlier => ?_
  split
  · rename_i live
    have none : ¬0 < before.rebuilds := fun some => unbuilt ⟨before, earlier, live, some⟩
    simp only
    omega
  · exact once before (List.mem_of_getElem? earlier)

theorem Kept.rebuilt (kept : Kept state) (current : state.page = some page) {check : Check}
    (found : page.tasks[index]? = some ⟨tab, some check⟩) :
    Kept ({ state with page := some (page.setTask index ⟨tab, none⟩) }.rebuild tab) := by
  have held := kept.page page current
  constructor
  · by_cases live : state.isClosed tab = false
    · exact rebuild_once _ kept.once
        (held.live index tab check found live).2
    · refine rebuild_once _ kept.once ?_
      rintro ⟨other, listed, opened, _⟩
      apply live
      change (state.tabs[tab]?).any _ = false
      rw [listed]
      simp [opened]
  · intro next same
    obtain rfl := Option.some.inj same
    have moved := held.setTask found none
    refine ⟨fun place other again listed live => ?_, fun first second other one two atFirst
      atSecond live => ?_, fun other member => ?_⟩
    · rw [rebuild_closed] at live
      obtain ⟨processed, unbuilt⟩ := moved.live place other again listed live
      refine ⟨processed, fun built => ?_⟩
      by_cases apart : other = tab
      · subst apart
        rw [Page.setTask, List.getElem?_set] at listed
        split at listed
        · split at listed <;> cases listed
        · rename_i elsewhere
          exact elsewhere (held.once index place other check again found listed live)
      · exact unbuilt (rebuild_other _ apart built)
    · rw [rebuild_closed] at live
      exact moved.once first second other one two atFirst atSecond live
    · rw [rebuild_closed]
      exact moved.closed other member

theorem Kept.answer (kept : Kept state) (current : state.page = some page) (passes : Bool) :
    Kept (state.answer page index passes) := by
  unfold Background.answer
  split
  · rename_i tab check found
    have moved : ∀ next, Kept { state with page := some (page.setTask index ⟨tab, next⟩) } := by
      intro next
      refine ⟨kept.once, fun other same => ?_⟩
      obtain rfl := Option.some.inj same
      exact ((kept.page page current).setTask found next).tabs (fun _ shut => shut)
        fun _ built => built
    by_cases stops : (!passes || (check = .details && tab ∈ page.closedTabIds)) = true
    · simp only [stops, if_true, Bool.not_true, Bool.false_and, Bool.false_eq_true, if_false]
      exact moved none
    · simp only [stops, Bool.not_false, Bool.true_and]
      by_cases last : check = .rootType
      · subst last
        simpa [Check.next] using kept.rebuilt current found
      · simp only [last]
        exact moved check.next
  · exact kept

theorem Kept.onPage (kept : Kept state) {action : Page → Page}
    (acted : ∀ page, state.page = some page → PageKept state page → PageKept state (action page)) :
    Kept (state.onPage action) := by
  refine ⟨kept.once, fun next same => ?_⟩
  obtain ⟨page, current, rfl⟩ := Option.map_eq_some_iff.mp same
  exact (acted page current (kept.page page current)).tabs (fun _ shut => shut) fun _ built => built

theorem Kept.withTabs (kept : Kept state) {tabs : List ComposeTab}
    (once : ∀ tab ∈ tabs, tab.rebuilds ≤ 1)
    (closed : ∀ tab, state.isClosed tab = true → ({ state with tabs := tabs }).isClosed tab = true)
    (rebuilt : ∀ tab, Rebuilt { state with tabs := tabs } tab → Rebuilt state tab) :
    Kept { state with tabs := tabs } :=
  ⟨once, fun page current => (kept.page page current).tabs closed rebuilt⟩

theorem Kept.opened (kept : Kept state) :
    Kept { state with tabs := state.tabs ++ [⟨true, 0⟩] } := by
  refine kept.withTabs ?_ ?_ ?_
  · intro tab member
    rcases List.mem_append.mp member with earlier | last
    · exact kept.once tab earlier
    · exact List.mem_singleton.mp last ▸ Nat.zero_le _
  · intro tab shut
    obtain ⟨found, held, gone⟩ := is_closed_iff.mp shut
    refine is_closed_iff.mpr ⟨found, ?_, gone⟩
    change (state.tabs ++ _)[tab]? = _
    rw [List.getElem?_append_left (List.getElem?_eq_some_iff.mp held).1]
    exact held
  · rintro tab ⟨found, held, live, some⟩
    rcases get_append_singleton held with earlier | ⟨_, rfl⟩
    · exact ⟨found, earlier, live, some⟩
    · cases some

theorem Kept.closed (kept : Kept state) (tab : Nat) :
    Kept { state with
      tabs := state.tabs.modify tab fun other => { other with opened := false } } := by
  have place : ∀ (index : Nat) (after : ComposeTab),
      (state.tabs.modify tab fun other => { other with opened := false })[index]? = some after →
        ∃ before, state.tabs[index]? = some before ∧ after.rebuilds = before.rebuilds ∧
          (after.opened = true → before.opened = true) := by
    intro index after held
    rcases get_modify held with ⟨_, before, earlier, rfl⟩ | ⟨_, earlier⟩
    · exact ⟨before, earlier, rfl, nofun⟩
    · exact ⟨after, earlier, rfl, fun live => live⟩
  refine kept.withTabs ?_ ?_ ?_
  · intro after member
    obtain ⟨index, held⟩ := List.mem_iff_getElem?.mp member
    obtain ⟨before, earlier, same, _⟩ := place index after held
    exact same ▸ kept.once before (List.mem_of_getElem? earlier)
  · intro index shut
    obtain ⟨found, held, gone⟩ := is_closed_iff.mp shut
    refine is_closed_iff.mpr ?_
    by_cases here : tab = index
    · subst here
      exact ⟨{ found with opened := false }, by simp [held], rfl⟩
    · exact ⟨found, by simpa [here] using held, gone⟩
  · rintro index ⟨after, held, live, some⟩
    obtain ⟨before, earlier, same, opened⟩ := place index after held
    exact ⟨before, earlier, opened live, same ▸ some⟩

theorem kept_step (event : TabEvent) (state : Background) (kept : Kept state)
    (unbuilt : ClaimsUnbuilt event state) : Kept (step event state) := by
  cases event with
  | opened => exact kept.opened
  | closed tab => exact kept.closed tab
  | created tab =>
      exact kept.onPage fun page current held =>
        held.onCreated (unbuilt page current tab (List.mem_singleton.mpr rfl))
  | removed tab =>
      change Kept (if state.isClosed tab then state.onPage fun page => page.onRemoved tab
        else state)
      split
      · rename_i gone
        exact kept.onPage fun page _ held => held.onRemoved gone
      · exact kept
  | suspend => exact ⟨kept.once, nofun⟩
  | restart =>
      cases current : state.page with
      | some page => simpa only [step, current] using kept
      | none =>
          simp only [step, current]
          refine ⟨kept.once, fun page same => ?_⟩
          obtain rfl := Option.some.inj same
          exact ⟨fun index tab check held => by simp [Page.fresh] at held,
            fun first second tab check other held => by simp [Page.fresh] at held, nofun⟩
  | queried =>
      refine kept.onPage fun page _ held => ?_
      split
      · exact ⟨held.live, held.once, held.closed⟩
      · exact held
  | scanned =>
      refine kept.onPage fun page current held => ?_
      unfold Page.scan
      split
      · rename_i tabs found
        have all := held.processAll tabs fun tab member =>
          unbuilt page current tab (by simpa [claimed, found] using member)
        exact ⟨all.live, all.once, all.closed⟩
      · exact held
  | answered task passes =>
      cases current : state.page with
      | none => simpa only [step, current] using kept
      | some page => simpa only [step, current] using kept.answer current passes

@[simp] theorem process_closed (page : Page) (tab : Nat) :
    (page.processComposeTab tab).closedTabIds = page.closedTabIds := by
  unfold Page.processComposeTab
  split <;> rfl

theorem process_task (page : Page) (tab : Nat) {task : Task}
    (held : page.tasks[index]? = some task) :
    (page.processComposeTab tab).tasks[index]? = some task := by
  unfold Page.processComposeTab
  split
  · exact held
  · rw [List.getElem?_append_left (List.getElem?_eq_some_iff.mp held).1]
    exact held

theorem process_claims (page : Page) (fresh : tab ∉ page.processedTabIds) :
    (page.processComposeTab tab).tasks[page.tasks.length]? = some ⟨tab, some .details⟩ := by
  simp [Page.processComposeTab, fresh]

theorem process_all_closed (tabs : List Nat) (page : Page) :
    (tabs.foldl Page.processComposeTab page).closedTabIds = page.closedTabIds := by
  induction tabs generalizing page with
  | nil => rfl
  | cons tab rest ih => rw [List.foldl_cons, ih, process_closed]

theorem process_all_task (tabs : List Nat) {task : Task} (held : page.tasks[index]? = some task) :
    (tabs.foldl Page.processComposeTab page).tasks[index]? = some task := by
  induction tabs generalizing page with
  | nil => exact held
  | cons tab rest ih => exact ih (process_task page tab held)

theorem process_all_claims {tabs : List Nat} (member : tab ∈ tabs)
    (fresh : tab ∉ page.processedTabIds) :
    ∃ index : Nat,
      (tabs.foldl Page.processComposeTab page).tasks[index]? = some ⟨tab, some .details⟩ := by
  induction tabs generalizing page with
  | nil => cases member
  | cons first rest ih =>
      by_cases here : tab = first
      · subst here
        exact ⟨page.tasks.length, process_all_task rest (process_claims page fresh)⟩
      · have later : tab ∈ rest := (List.mem_cons.mp member).resolve_left here
        refine ih later fun listed => ?_
        unfold Page.processComposeTab at listed
        split at listed
        · exact fresh listed
        · exact fresh ((List.mem_cons.mp listed).resolve_left here)

theorem claimed_task {event : TabEvent} (current : state.page = some page)
    (kept : PageKept state page) (member : tab ∈ claimed event page)
    (fresh : tab ∉ page.processedTabIds) (live : state.isClosed tab = false) :
    (step event state).tabs = state.tabs ∧ ∃ next, (step event state).page = some next ∧
      tab ∉ next.closedTabIds ∧ ∃ index : Nat, next.tasks[index]? = some ⟨tab, some .details⟩ := by
  have unlisted : tab ∉ page.closedTabIds :=
    fun listed => absurd (live.symm.trans (kept.closed tab listed)) (by decide)
  cases event with
  | created other =>
      obtain rfl := List.mem_singleton.mp member
      refine ⟨rfl, page.onCreated tab, by simp [step, onPage, current], ?_, page.tasks.length,
        process_claims { page with closedTabIds := _ } fresh⟩
      simp [Page.onCreated]
  | scanned =>
      cases startup : page.startup with
      | found tabs =>
          simp only [claimed, startup] at member
          obtain ⟨index, held⟩ := process_all_claims member fresh
          refine ⟨rfl, page.scan, by simp [step, onPage, current], ?_, index, ?_⟩
          · simpa [Page.scan, startup, process_all_closed] using unlisted
          · simpa [Page.scan, startup] using held
      | loading | done => simp [claimed, startup] at member
  | _ => cases member

theorem answer_passes {check next : Check} (current : state.page = some page)
    (held : page.tasks[index]? = some ⟨tab, some check⟩) (live : tab ∉ page.closedTabIds)
    (follows : check.next = some next) :
    step (.answered index true) state =
      { state with page := some (page.setTask index ⟨tab, some next⟩) } := by
  have early : check ≠ .rootType := by
    rintro rfl
    cases follows
  simp [step, current, answer, held, live, follows, early]

theorem answer_rebuilds (current : state.page = some page)
    (held : page.tasks[index]? = some ⟨tab, some .rootType⟩) :
    (step (.answered index true) state).tabs = (state.rebuild tab).tabs := by
  simp [step, current, answer, held, rebuild]

def allPass (task : Nat) : List TabEvent := List.replicate 4 (.answered task true)

theorem all_pass_rebuilds (current : state.page = some page)
    (held : page.tasks[index]? = some ⟨tab, some .details⟩) (live : tab ∉ page.closedTabIds) :
    (LocalAutomata.after step (allPass index) state).tabs = (state.rebuild tab).tabs := by
  have inside : index < page.tasks.length := (List.getElem?_eq_some_iff.mp held).1
  have moved : ∀ next : Check, (page.setTask index ⟨tab, some next⟩).tasks[index]? =
      some ⟨tab, some next⟩ := by
    intro next
    simp [Page.setTask, inside]
  have again : ∀ first second : Check,
      (page.setTask index ⟨tab, some first⟩).setTask index ⟨tab, some second⟩ =
        page.setTask index ⟨tab, some second⟩ := by
    intro first second
    simp [Page.setTask]
  simp only [allPass, List.replicate, LocalAutomata.after_cons, LocalAutomata.after_nil]
  let reached : Check → Background := fun next =>
    { state with page := some (page.setTask index ⟨tab, some next⟩) }
  have second : step (.answered index true) (reached .smimeEncrypted) = reached .decryptable := by
    rw [answer_passes rfl (moved .smimeEncrypted) live rfl, again]
  have third : step (.answered index true) (reached .decryptable) = reached .rootType := by
    rw [answer_passes rfl (moved .decryptable) live rfl, again]
  rw [answer_passes current held live rfl]
  change (step _ (step _ (step _ (reached .smimeEncrypted)))).tabs = _
  rw [second, third, answer_rebuilds rfl (moved .rootType)]
  rfl

theorem rebuilt_twice (state : Background) (built : Rebuilt state tab) :
    ¬(state.rebuild tab).RebuiltOnce := by
  obtain ⟨found, held, live, some⟩ := built
  intro once
  have twice := once { found with rebuilds := found.rebuilds + 1 }
    (List.mem_of_getElem? (i := tab) (by simp [rebuild, held, live]))
  simp only at twice
  omega

/-- Once a page has claimed a tab that is rebuilt, its task may rebuild it again. -/
theorem claimed_again {event : TabEvent} (kept : Kept state) (bad : ¬ClaimsUnbuilt event state) :
    ∃ index, ¬(LocalAutomata.after step (allPass index) (step event state)).RebuiltOnce := by
  simp only [ClaimsUnbuilt, not_forall, not_not] at bad
  obtain ⟨page, current, tab, member, fresh, found, held, opened, some⟩ := bad
  have live : state.isClosed tab = false := by
    unfold isClosed
    simp [held, opened]
  obtain ⟨tabs, next, nextPage, unlisted, index, waits⟩ :=
    claimed_task current (kept.page page current) member fresh live
  refine ⟨index, fun once => ?_⟩
  unfold RebuiltOnce at once
  rw [all_pass_rebuilds nextPage waits unlisted] at once
  exact rebuilt_twice (step event state) ⟨found, tabs ▸ held, opened, some⟩ once

theorem answers_meet (answers : List TabEvent) (state : Background)
    (all : ∀ event ∈ answers, ∃ task passes, event = .answered task passes) :
    Meets step ClaimsUnbuilt answers state := by
  induction answers generalizing state with
  | nil => trivial
  | cons event rest ih =>
      refine ⟨?_, ih _ fun other member => all other (List.mem_cons_of_mem _ member)⟩
      obtain ⟨task, passes, rfl⟩ := all event List.mem_cons_self
      exact fun page _ tab member => absurd member List.not_mem_nil

end

/-- However the awaits of its tasks are answered, no tab is rebuilt twice all along a run
exactly when no page of the run claims an open tab that has been rebuilt. -/
theorem rebuilt_once_iff (run : List TabEvent) :
    (∀ earlier later answers, run = earlier ++ later →
      (∀ event ∈ answers, ∃ task passes, event = .answered task passes) →
        (afterRun (earlier ++ answers)).RebuiltOnce) ↔
      Meets step ClaimsUnbuilt run initial := by
  let safe : Background → Prop := fun state => ∀ answers : List TabEvent,
    (∀ event ∈ answers, ∃ task passes, event = .answered task passes) →
      (LocalAutomata.after step answers state).RebuiltOnce
  have inside : ∀ state, Kept state → safe state := fun state kept answers all =>
    (meets_preserved kept_step (answers_meet answers state all) kept).once
  have outside : ∀ event state, Kept state → ¬ClaimsUnbuilt event state →
      ¬safe (step event state) := by
    intro event state kept bad once
    obtain ⟨index, twice⟩ := claimed_again kept bad
    exact twice (once (allPass index) fun other member =>
      ⟨index, true, List.eq_of_mem_replicate member⟩)
  rw [← always_iff_meets kept_step inside outside run initial_kept]
  constructor
  · intro once earlier later split answers all
    rw [← LocalAutomata.after_append]
    exact once earlier later answers split all
  · intro always earlier later answers split all
    rw [afterRun, LocalAutomata.after_append]
    exact always earlier later split answers all

/-- The page is suspended after a tab has been rebuilt, and its successor scans the tabs. -/
theorem restarted_page_rebuilds_again : ¬∀ run, (afterRun run).RebuiltOnce := by
  intro claim
  have once := claim ([.restart, .queried, .scanned, .opened, .created 0] ++ allPass 0 ++
    [.suspend, .restart, .queried, .scanned] ++ allPass 0)
  have twice : (⟨true, 2⟩ : ComposeTab) ∈ (afterRun ([.restart, .queried, .scanned, .opened,
      .created 0] ++ allPass 0 ++ [.suspend, .restart, .queried, .scanned] ++ allPass 0)).tabs :=
    List.mem_singleton.mpr (by rfl)
  exact absurd (once _ twice) (by decide)

end Background
end OsClientCerts.ForwardDecrypt
