import OsClientCerts.ObjectScans
import OsClientCerts.Paging
import OsClientCerts.SequentialCalls
import OsClientCerts.WindowsBackend

/-!
Searches over a run. A search stores its results when it is started; from then on
only its own pages take from them, and they end with the search.
-/

namespace OsClientCerts
open LocalAutomata Paging Resumption

namespace Manager
variable {B : Backend}

def selected (manager : Manager B) (attrs : List (CkAttributeType × Bytes)) :
    List CkObjectHandle :=
  if attrs.any (fun attr => attr.1 ∉ B.supportedAttributes) then []
  else matchingHandles manager.objects attrs

theorem start_search_stores {manager : Manager B} {os : B.Os} {session : CkSessionHandle}
    {attrs : List (CkAttributeType × Bytes)}
    (started : (manager.startSearch os session attrs).1 = .ok ()) :
    (manager.startSearch os session attrs).2.searches[session]? =
      some ((manager.startSearch os session attrs).2.selected attrs) := by
  unfold startSearch at started ⊢
  by_cases busy : manager.searches.contains session = true
  · rw [if_pos busy] at started
    cases started
  · rw [if_neg busy]
    by_cases unsupported : attrs.any (fun attr => attr.1 ∉ B.supportedAttributes) = true
    · rw [if_pos unsupported, selected, if_pos unsupported]
      exact Std.TreeMap.getElem?_insert_self
    · rw [if_neg unsupported, selected, if_neg unsupported]
      dsimp only
      by_cases nothing : (matchingHandles manager.objects attrs).isEmpty = true
      · rw [if_pos nothing]
        exact Std.TreeMap.getElem?_insert_self
      · rw [if_neg nothing]
        exact Std.TreeMap.getElem?_insert_self

theorem mem_matching {objects : Std.TreeMap CkObjectHandle B.Object}
    {attrs : List (CkAttributeType × Bytes)} {handle : CkObjectHandle} :
    handle ∈ matchingHandles objects attrs ↔
      ∃ object, objects[handle]? = some object ∧ B.objectMatches object attrs = true := by
  simp only [matchingHandles, List.mem_map, List.mem_filter]
  constructor
  · rintro ⟨⟨_, object⟩, ⟨member, matching⟩, rfl⟩
    exact ⟨object, Std.TreeMap.mem_toList_iff_getElem?_eq_some.mp member, matching⟩
  · rintro ⟨object, found, matching⟩
    exact ⟨(handle, object), ⟨Std.TreeMap.mem_toList_iff_getElem?_eq_some.mpr found, matching⟩, rfl⟩

theorem matching_nodup (objects : Std.TreeMap CkObjectHandle B.Object)
    (attrs : List (CkAttributeType × Bytes)) : (matchingHandles objects attrs).Nodup := by
  have keys : (objects.toList.map Prod.fst).Nodup := by
    rw [Std.TreeMap.map_fst_toList_eq_keys]
    exact Std.TreeMap.nodup_keys
  exact keys.sublist (List.filter_sublist.map Prod.fst)

theorem selected_nodup (manager : Manager B) (attrs : List (CkAttributeType × Bytes)) :
    (manager.selected attrs).Nodup := by
  unfold selected
  split
  · exact List.nodup_nil
  · exact matching_nodup manager.objects attrs

theorem search_page {manager : Manager B} {session : CkSessionHandle}
    {found : List CkObjectHandle} (active : manager.searches[session]? = some found) {size : Nat}
    (some_ : size ≠ 0) : manager.search session size = (.ok (page size found),
      { manager with searches := manager.searches.insert session (rest size found) }) := by
  have split : (if size ≥ found.length then 0 else found.length - size) =
      found.length - size := by
    split <;> omega
  have within : ¬ (page size found).length > size := by
    rw [page_length]
    exact Nat.not_lt.mpr (Nat.min_le_left _ _)
  unfold search
  rw [if_neg some_, active]
  dsimp only
  rw [split]
  exact if_neg within

theorem search_refused {manager : Manager B} {session : CkSessionHandle} {size : Nat} :
    (manager.search session size).1 = .error () ↔
      size = 0 ∨ manager.searches[session]? = none := by
  by_cases zero : size = 0
  · simp [search, zero]
  · cases active : manager.searches[session]? with
    | none => simp [search, zero, active]
    | some found => simp [search_page active zero, zero]

theorem search_within {manager : Manager B} {session : CkSessionHandle} {size : Nat}
    {handles : List CkObjectHandle} (given : (manager.search session size).1 = .ok handles) :
    handles.length ≤ size := by
  by_cases zero : size = 0
  · simp [search, zero] at given
  · cases active : manager.searches[session]? with
    | none => simp [search, zero, active] at given
    | some found =>
        rw [search_page active zero] at given
        rw [← Except.ok.inj given, page_length]
        exact Nat.min_le_left _ _

def EndsSearch (session : CkSessionHandle) (served : ManagerStep B) (manager : Manager B) : Prop :=
  match served.2 with
  | .clearSearch there => there = session
  | .closeSession there => there = session ∧ session ∈ manager.sessions
  | .closeAllSessions => True
  | _ => False

def pageSize (session : CkSessionHandle) (served : ManagerStep B) : Option Nat :=
  match served.2 with
  | .search there size => if there = session ∧ size ≠ 0 then some size else none
  | _ => none

def searchCalls (session : CkSessionHandle) : List (ManagerStep B) → Manager B →
    List (Nat × Except Unit (List CkObjectHandle))
  | [], _ => []
  | served :: later, manager =>
      ((pageSize session served).toList.map fun size => (size, (manager.search session size).1)) ++
        searchCalls session later (step served manager)

theorem page_size_some {session : CkSessionHandle} {served : ManagerStep B} {size : Nat}
    (asks : pageSize session served = some size) : size ≠ 0 := by
  unfold pageSize at asks
  split at asks
  · split at asks
    case isTrue own =>
        rw [← Option.some.inj asks]
        exact own.2
    case isFalse => cases asks
  · cases asks

theorem start_search_elsewhere {manager : Manager B} (os : B.Os) {session there : CkSessionHandle}
    (attrs : List (CkAttributeType × Bytes)) (active : session ∈ manager.searches) :
    (manager.startSearch os there attrs).2.searches[session]? = manager.searches[session]? := by
  rcases start_search_cases manager os there attrs with
    ⟨_, refused⟩ | ⟨free, scanned, handles, origin, started⟩
  · rw [refused]
  · have other : there ≠ session := by
      rintro rfl
      rw [← Std.TreeMap.contains_iff_mem, free] at active
      cases active
    rw [started, Std.TreeMap.getElem?_insert, if_neg (by simpa using other),
      (scanned_same origin).searches]

theorem close_session_elsewhere {manager : Manager B} {session closing : CkSessionHandle}
    (goesOn : ¬(closing = session ∧ session ∈ manager.sessions)) :
    (manager.closeSession closing).2.searches[session]? = manager.searches[session]? := by
  unfold closeSession
  split
  case isTrue live =>
      have other : closing ≠ session := by
        rintro rfl
        exact goesOn ⟨rfl, live⟩
      rw [Std.TreeMap.getElem?_erase, if_neg (by simpa using other)]
  case isFalse => rfl

theorem search_takes {manager : Manager B} (os : B.Os) {session : CkSessionHandle}
    {found : List CkObjectHandle} (active : manager.searches[session]? = some found)
    (there : CkSessionHandle) (size : Nat) :
    (manager.search there size).2.searches[session]? =
      some (match pageSize session ((os, .search there size) : ManagerStep B) with
        | some size => rest size found
        | none => found) := by
  by_cases zero : size = 0
  · simpa [search, pageSize, zero] using active
  · by_cases own : there = session
    · subst own
      rw [search_page active zero, show pageSize there ((os, .search there size) : ManagerStep B) =
        some size from if_pos ⟨rfl, zero⟩]
      exact Std.TreeMap.getElem?_insert_self
    · rw [show pageSize session ((os, .search there size) : ManagerStep B) = none from
        if_neg fun both => own both.1]
      cases held : manager.searches[there]? with
      | none => simpa [search, zero, held] using active
      | some elsewhere =>
          rw [search_page held zero, Std.TreeMap.getElem?_insert, if_neg (by simpa using own)]
          exact active

/-- The step lemma: only its own pages take from a search that goes on. -/
theorem step_search {manager : Manager B} {session : CkSessionHandle} {served : ManagerStep B}
    {found : List CkObjectHandle} (active : manager.searches[session]? = some found)
    (goesOn : ¬ EndsSearch session served manager) :
    (step served manager).searches[session]? = some (match pageSize session served with
      | some size => rest size found
      | none => found) := by
  have member : session ∈ manager.searches :=
    Std.TreeMap.mem_iff_isSome_getElem?.mpr (by rw [active]; rfl)
  rcases served with ⟨os, arguments⟩
  cases made : arguments.operationCall with
  | some call =>
      have noPage : pageSize session (os, arguments) = none := by
        cases arguments <;> cases made <;> rfl
      rw [noPage, step, (dispatch_operation manager os made).2]
      rcases operate_frame manager call.kind call.session call.request with
        same | ⟨entries, changed, _⟩
      · rw [same]
        exact active
      · rw [changed, with_searches]
        exact active
  | none =>
      cases arguments <;> simp only [ManagerArguments.operationCall, reduceCtorEq] at made
      case openSession flags =>
        show (manager.openSession os flags).2.searches[session]? = some found
        rw [show (manager.openSession os flags).2.searches = manager.searches from
          (scan_same manager os 3000).searches]
        exact active
      case closeSession closing => exact (close_session_elsewhere goesOn).trans active
      case closeAllSessions => exact absurd trivial goesOn
      case startSearch there attrs => exact (start_search_elsewhere os attrs member).trans active
      case search there size => exact search_takes os active there size
      case clearSearch there =>
        have other : there ≠ session := fun same => goesOn same
        show (manager.searches.erase there)[session]? = some found
        rw [Std.TreeMap.getElem?_erase, if_neg (by simpa using other)]
        exact active
      case getAttributes | getSessionInfo | stop => exact active

def SearchGoesOn (session : CkSessionHandle) (later : List (ManagerStep B))
    (manager : Manager B) : Prop :=
  ∀ earlier served last, later = earlier ++ served :: last →
    ¬ EndsSearch session served (after step earlier manager)

theorem SearchGoesOn.tail {session : CkSessionHandle} {served : ManagerStep B}
    {last : List (ManagerStep B)} {manager : Manager B}
    (goesOn : SearchGoesOn session (served :: last) manager) :
    SearchGoesOn session last (step served manager) :=
  fun earlier next more split => goesOn (served :: earlier) next more (by rw [split]; rfl)

/-- The run lemma: the answers are the pages of what the search had found. -/
theorem run_pages {session : CkSessionHandle} (later : List (ManagerStep B))
    {manager : Manager B} {found : List CkObjectHandle}
    (active : manager.searches[session]? = some found)
    (goesOn : SearchGoesOn session later manager) :
    (searchCalls session later manager).map Prod.snd =
      (pages ((searchCalls session later manager).map Prod.fst) found).map .ok := by
  induction later generalizing manager found with
  | nil => rfl
  | cons served last ih =>
      have next := step_search active (goesOn [] served last rfl)
      have answers := ih next goesOn.tail
      cases asks : pageSize session served with
      | none =>
          rw [asks] at answers
          simpa [searchCalls, asks] using answers
      | some size =>
          rw [asks] at answers
          have given := congrArg Prod.fst (search_page active (page_size_some asks))
          simpa [searchCalls, asks, pages, given] using answers

theorem run_active {session : CkSessionHandle} (later : List (ManagerStep B))
    {manager : Manager B} (active : manager.searches.contains session = true)
    (goesOn : SearchGoesOn session later manager) :
    (after step later manager).searches.contains session = true := by
  induction later generalizing manager with
  | nil => exact active
  | cons served last ih =>
      rw [Std.TreeMap.contains_eq_isSome_getElem?] at active
      obtain ⟨found, held⟩ := Option.isSome_iff_exists.mp active
      have next : (step served manager).searches[session]? = _ :=
        step_search held (goesOn [] served last rfl)
      apply ih _ goesOn.tail
      rw [Std.TreeMap.contains_eq_isSome_getElem?, next]
      rfl

end Manager

theorem find_objects_never_fails {B : Backend} (os : Nat → B.Os) (memory : Memory)
    (manager : Manager B) (session : CkSessionHandle) (phObject : Addr) (max : CkUlong)
    (pulCount : Addr) : ((ExportedCall.cFindObjects session phObject max pulCount).alone os memory
      (some manager)).1.1 ≠ .deviceError := by
  -- C_FindObjects never finds itself with more handles than it asked for.
  have follows := alone_follows (.cFindObjects session phObject max pulCount) os memory
    (some manager)
  have linked := alone_linked (.cFindObjects session phObject max pulCount) os memory
    (some manager)
  generalize (ExportedCall.cFindObjects session phObject max pulCount).aloneEvents os memory
    (some manager) = events at follows linked
  generalize ((ExportedCall.cFindObjects session phObject max pulCount).alone os memory
    (some manager)) = ended at follows linked ⊢
  rcases ended with ⟨⟨rv, after⟩, left⟩
  simp only [ExportedCall.run, cFindObjects] at follows
  by_cases bad : phObject = null ∨ pulCount = null ∨ max = 0
  · rw [if_pos bad] at follows
    obtain ⟨_, same⟩ := (follows_ret _).mp follows
    cases same
    exact nofun
  · rw [if_neg bad, ffi_bind] at follows
    obtain ⟨now, state, tail, rfl, rest⟩ := follows_proxy follows
    have met : state = some manager := (linked_cons_cases linked).1
    rw [met, show (ManagerProxy.search session max).answer now (some manager) =
      some (manager.search session max).1 from rfl] at rest
    cases given : (manager.search session max).1 with
    | error err =>
        rw [given] at rest
        obtain ⟨_, same⟩ := (follows_ret _).mp rest
        cases same
        exact nofun
    | ok handles =>
        have within := Manager.search_within given
        rw [given] at rest
        simp only [Nat.not_lt.mpr within, ↓reduceIte, ffi_bind, write_cell_run,
          write_slice_run, ret_bind, ffi_pure] at rest
        obtain ⟨_, same⟩ := (follows_ret _).mp rest
        cases same
        exact nofun

/-- What a search promises while it goes on, from the state right after its start. -/
structure SearchPaging {B : Backend} (session : CkSessionHandle)
    (attrs : List (CkAttributeType × Bytes)) (begun : Manager B) (later : List (ManagerStep B)) :
    Prop where
  stored : begun.searches[session]? = some (begun.selected attrs)
  paged : ∃ results, (Manager.searchCalls session later begun).map Prod.snd = results.map .ok ∧
    Paged ((Manager.searchCalls session later begun).map Prod.fst) results (begun.selected attrs)
  secondStart : ∀ earlier last, later = earlier ++ last → ∀ os others,
    (after Manager.step earlier begun).startSearch os session others =
      (.error (), after Manager.step earlier begun)
  neverTooMany : ∀ earlier last, later = earlier ++ last → ∀ there size,
    ((after Manager.step earlier begun).search there size).1 = .error () →
      size = 0 ∨ (after Manager.step earlier begun).searches[there]? = none
  findObjects : ∀ earlier last, later = earlier ++ last →
    ∀ os memory there phObject max pulCount,
      ((ExportedCall.cFindObjects there phObject max pulCount).alone os memory
        (some (after Manager.step earlier begun))).1.1 ≠ .deviceError

/-- From any state in which a search is started, and for as long as it goes on: its pages are
the handles it found, in order, without repetition, and all of them once a page is short. -/
theorem search_paging {B : Backend} {manager : Manager B} {os : B.Os} {session : CkSessionHandle}
    {attrs : List (CkAttributeType × Bytes)}
    (started : (manager.startSearch os session attrs).1 = .ok ()) {later : List (ManagerStep B)}
    (goesOn : Manager.SearchGoesOn session later (manager.startSearch os session attrs).2) :
    SearchPaging session attrs (manager.startSearch os session attrs).2 later := by
  have stored := Manager.start_search_stores started
  have active : (manager.startSearch os session attrs).2.searches.contains session = true := by
    rw [Std.TreeMap.contains_eq_isSome_getElem?, stored]
    rfl
  refine ⟨stored, ?_, ?_, ?_, ?_⟩
  · exact ⟨_, Manager.run_pages later stored goesOn,
      pages_paged _ (Manager.selected_nodup _ attrs)⟩
  · intro earlier last split now others
    have busy := Manager.run_active earlier active fun first served more same =>
      goesOn first served (more ++ last) (by simp [split, same])
    exact if_pos busy
  · intro earlier last _ there size refused
    exact Manager.search_refused.mp refused
  · intro earlier last _ os memory there phObject max pulCount
    exact find_objects_never_fails os memory _ there phObject max pulCount

/-- Two certificates on two pages, with another search in between. -/
theorem two_certificates_paged :
    let certs : Windows.Cng := .holding 0 [.cert ⟨[], [1], [7], [], [], [], [], []⟩,
      .cert ⟨[], [1], [8], [], [], [], [], []⟩]
    SearchPaging (B := Windows.backend) 1 [(ckaToken, [1])]
      ((Manager.new certs).startSearch certs 1 [(ckaToken, [1])]).2
      [(certs, .search 1 1), (certs, .startSearch 2 []), (certs, .search 1 5)] := by
  intro certs
  apply search_paging
  · rfl
  · intro earlier served last split
    rcases earlier with _ | ⟨_, _ | ⟨_, _ | ⟨_, earlier⟩⟩⟩
    · cases split
      exact id
    · cases split
      exact id
    · cases split
      exact id
    · have lengths := congrArg List.length split
      simp at lengths

/-- Closing a session is not a search operation, and ends its search. -/
theorem closed_session_ends_search : ¬ ∀ (os now : Windows.Cng)
    (run later : List (ManagerStep Windows.backend)) (session : CkSessionHandle)
    (attrs : List (CkAttributeType × Bytes)),
    ((after Manager.step run (Manager.new os)).startSearch now session attrs).1 = .ok () →
    (∀ served ∈ later, served.2 ≠ .clearSearch session) →
    SearchPaging session attrs
      ((after Manager.step run (Manager.new os)).startSearch now session attrs).2 later := by
  intro always
  have paging := always (.holding 0 []) (.holding 0 []) [(.holding 0 [], .openSession 4)]
    [(.holding 0 [], .closeSession 1), (.holding 0 [], .search 1 1)] 1 [] rfl (by simp)
  obtain ⟨results, answered, _⟩ := paging.paged
  -- The one page asked for is refused.
  have refused : Except.error () ∈ results.map Except.ok := by
    rw [← answered]
    exact List.mem_singleton.mpr rfl
  obtain ⟨_, _, same⟩ := List.mem_map.mp refused
  cases same

end OsClientCerts
