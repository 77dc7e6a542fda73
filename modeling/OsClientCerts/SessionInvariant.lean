import OsClientCerts.OperationAutomata
import OsClientCerts.WindowsBackend

/-!
Operations and open sessions. Closing a session ends what is active on it, but no
start looks at the session it is given, so what is active stays on open sessions
exactly as long as the callers only start on them.
-/

namespace OsClientCerts
open LocalAutomata

namespace Manager
variable {B : Backend}

/-- Every session with a search or an operation is open. -/
structure OnOpenSessions (manager : Manager B) : Prop where
  searches : ∀ session, session ∈ manager.searches → session ∈ manager.sessions
  operations : ∀ kind session, session ∈ manager.operations kind → session ∈ manager.sessions

def NothingActive (manager : Manager B) (session : CkSessionHandle) : Prop :=
  session ∉ manager.searches ∧ ∀ kind, session ∉ manager.operations kind

theorem OnOpenSessions.mono {before after : Manager B} (contained : before.OnOpenSessions)
    (searches : ∀ session, session ∈ after.searches → session ∈ before.searches)
    (operations : ∀ kind session, session ∈ after.operations kind →
      session ∈ before.operations kind)
    (sessions : ∀ session, session ∈ before.sessions → session ∈ after.sessions) :
    after.OnOpenSessions where
  searches session active := sessions session (contained.searches session (searches session active))
  operations kind session active :=
    sessions session (contained.operations kind session (operations kind session active))

/-- A start that is going to be accepted names an open session, and the counter has
not come back to a session that is in use. -/
def StartsOnOpen (manager : Manager B) (arguments : ManagerArguments) : Prop :=
  match arguments with
  | .startSearch session _ => session ∈ manager.searches ∨ session ∈ manager.sessions
  | .openSession _ => manager.NothingActive manager.nextSession
  | arguments =>
      match arguments.operationCall with
      | some ⟨kind, session, .start handle _⟩ =>
          session ∈ manager.operations kind ∨ usable kind manager.objects[handle]? = none ∨
            session ∈ manager.sessions
      | _ => True

theorem starts_on_open_start {manager : Manager B} {arguments : ManagerArguments} {kind : Kind}
    {session : CkSessionHandle} {handle : CkObjectHandle} {params : kind.Params}
    (made : arguments.operationCall = some ⟨kind, session, .start handle params⟩) :
    manager.StartsOnOpen arguments ↔ session ∈ manager.operations kind ∨
      usable kind manager.objects[handle]? = none ∨ session ∈ manager.sessions := by
  cases arguments <;> cases made <;> rfl

theorem operate_members (manager : Manager B) (kind : Kind) (session : CkSessionHandle)
    (request : OperationRequest kind) {other : Kind} {there : CkSessionHandle}
    (member : there ∈ (manager.operate kind session request).2.operations other) :
    there ∈ manager.operations other ∨
      (there = session ∧ ∃ handle params, request = .start handle params ∧
        session ∉ manager.operations kind ∧ usable kind manager.objects[handle]? ≠ none) := by
  by_cases different : other = kind
  · subst other
    cases request with
    | start handle params =>
        simp only [operate, start] at member
        by_cases busy : (manager.operations kind).contains session = true
        · rw [if_pos busy] at member
          exact Or.inl member
        · rw [if_neg busy] at member
          cases found : usable kind manager.objects[handle]? with
          | none =>
              rw [found] at member
              exact Or.inl member
          | some object =>
              simp only [found, operations_with, Std.TreeMap.mem_insert,
                Std.LawfulEqCmp.compare_eq_iff_eq] at member
              rcases member with same | old
              · exact Or.inr ⟨same.symm, handle, params, rfl, by simpa using busy, by simp [found]⟩
              · exact Or.inl old
    | update data =>
        simp only [operate, update] at member
        split at member
        case h_1 operation held =>
          split at member
          · exact Or.inl member
          · simp only [operations_with, Std.TreeMap.mem_insert,
              Std.LawfulEqCmp.compare_eq_iff_eq] at member
            rcases member with same | old
            -- An update only replaces an entry that is there.
            · rw [← same]
              exact Or.inl (Std.TreeMap.mem_iff_isSome_getElem?.mpr (by simp [held]))
            · exact Or.inl old
        case h_2 => exact Or.inl member
    | getLength data | getFinalLength => exact Or.inl member
    | finishWith data | finish =>
        simp only [operate, finishWith, finish] at member
        split at member
        · simp only [operations_with, Std.TreeMap.mem_erase] at member
          exact Or.inl member.2
        · exact Or.inl member
  · have kept : (manager.operate kind session request).2.operations other =
        manager.operations other := by
      rcases operate_frame manager kind session request with same | ⟨entries, changed, _⟩
      · rw [same]
      · rw [changed, operations_with_other manager entries different]
    rw [kept] at member
    exact Or.inl member

theorem operate_sessions (manager : Manager B) (kind : Kind) (session : CkSessionHandle)
    (request : OperationRequest kind) :
    (manager.operate kind session request).2.sessions = manager.sessions ∧
      (manager.operate kind session request).2.searches = manager.searches := by
  rcases operate_frame manager kind session request with same | ⟨entries, changed, _⟩
  · rw [same]
    exact ⟨rfl, rfl⟩
  · rw [changed]
    exact ⟨with_sessions manager kind entries, with_searches manager kind entries⟩

theorem open_session_same (manager : Manager B) (os : B.Os) (flags : CkUlong) :
    (manager.openSession os flags).1 = .ok manager.nextSession ∧
      (manager.openSession os flags).2.searches = manager.searches ∧
      (∀ kind, (manager.openSession os flags).2.operations kind = manager.operations kind) ∧
      (manager.openSession os flags).2.sessions =
        manager.sessions.insert manager.nextSession flags := by
  have same := scan_same manager os 3000
  refine ⟨congrArg Except.ok same.nextSession, same.searches, ?_, ?_⟩
  · intro kind
    rw [← same.operations kind]
    cases kind <;> rfl
  · show ((manager.maybeFindNewObjects os 3000).sessions.insert
      (manager.maybeFindNewObjects os 3000).nextSession flags) = _
    rw [same.sessions, same.nextSession]

theorem close_session_contained {manager : Manager B} (session : CkSessionHandle)
    (contained : manager.OnOpenSessions) : (manager.closeSession session).2.OnOpenSessions := by
  by_cases live : manager.sessions.contains session = true
  · constructor
    · intro there member
      simp only [closeSession, live, ↓reduceIte, Std.TreeMap.mem_erase] at member ⊢
      exact ⟨member.1, contained.searches there member.2⟩
    · intro kind there member
      rw [close_session_open live, Std.TreeMap.mem_erase] at member
      simp only [closeSession, live, ↓reduceIte, Std.TreeMap.mem_erase]
      exact ⟨member.1, contained.operations kind there member.2⟩
  · rw [close_session_unknown (Bool.eq_false_iff.mpr live)]
    exact contained

theorem start_search_contained {manager : Manager B} (os : B.Os) (session : CkSessionHandle)
    (attrs : List (CkAttributeType × Bytes)) (contained : manager.OnOpenSessions)
    (onOpen : session ∈ manager.searches ∨ session ∈ manager.sessions) :
    (manager.startSearch os session attrs).2.OnOpenSessions := by
  rcases start_search_cases manager os session attrs with
    ⟨_, refused⟩ | ⟨free, scanned, handles, origin, started⟩
  · rw [refused]
    exact contained
  · have same := scanned_same origin
    have live : session ∈ manager.sessions := by
      rcases onOpen with busy | live
      · exact absurd busy (by simpa [← Std.TreeMap.contains_iff_mem] using free)
      · exact live
    rw [started]
    constructor
    · intro there member
      simp only [Std.TreeMap.mem_insert, Std.LawfulEqCmp.compare_eq_iff_eq] at member
      rw [same.sessions]
      rcases member with rfl | old
      · exact live
      · rw [same.searches] at old
        exact contained.searches there old
    · intro kind there member
      have old : there ∈ scanned.operations kind := by cases kind <;> exact member
      rw [same.operations] at old
      rw [same.sessions]
      exact contained.operations kind there old

theorem operation_contained {manager : Manager B} (call : OperationCall)
    (contained : manager.OnOpenSessions)
    (onOpen : ∀ handle params, call.request = .start handle params →
      call.session ∈ manager.operations call.kind ∨
        usable call.kind manager.objects[handle]? = none ∨ call.session ∈ manager.sessions) :
    (manager.operate call.kind call.session call.request).2.OnOpenSessions := by
  obtain ⟨sessions, searches⟩ := operate_sessions manager call.kind call.session call.request
  constructor
  · intro there member
    rw [sessions]
    rw [searches] at member
    exact contained.searches there member
  · intro other there member
    rw [sessions]
    rcases operate_members manager _ _ _ member with old | ⟨rfl, handle, params, asked, free, found⟩
    · exact contained.operations other there old
    · rcases onOpen handle params asked with busy | absent | live
      · exact absurd busy free
      · exact absurd absent found
      · exact live

theorem step_contained {manager : Manager B} (os : B.Os) (arguments : ManagerArguments)
    (contained : manager.OnOpenSessions) (onOpen : manager.StartsOnOpen arguments) :
    (manager.dispatch os arguments).2.OnOpenSessions := by
  -- The step lemma: a start on an open session leaves everything on open sessions.
  cases made : arguments.operationCall with
  | some call =>
      rw [(dispatch_operation manager os made).2]
      rcases call with ⟨kind, session, request⟩
      apply operation_contained _ contained
      intro handle (params : kind.Params) (asked : request = .start handle params)
      subst asked
      exact (starts_on_open_start made).mp onOpen
  | none =>
      cases arguments <;> simp only [ManagerArguments.operationCall, reduceCtorEq] at made
      case openSession flags =>
        obtain ⟨_, searches, operations, sessions⟩ := open_session_same manager os flags
        apply contained.mono
        · exact fun there active => searches ▸ active
        · exact fun kind there active => operations kind ▸ active
        · intro there live
          show there ∈ (manager.openSession os flags).2.sessions
          rw [sessions, Std.TreeMap.mem_insert]
          exact Or.inr live
      case closeSession session => exact close_session_contained session contained
      case closeAllSessions =>
        constructor
        · intro there member
          exact absurd member Std.TreeMap.not_mem_emptyc
        · intro kind there member
          have empty : there ∈ manager.closeAllSessions.2.operations kind := member
          rw [close_all_operations] at empty
          exact absurd empty Std.TreeMap.not_mem_emptyc
      case startSearch session attrs => exact start_search_contained os session attrs contained onOpen
      case search session maxObjects =>
        simp only [dispatch]
        rcases search_cases manager session maxObjects with same | ⟨active, remaining, changed⟩
        · rw [same]
          exact contained
        · rw [changed]
          apply contained.mono
          · intro there member
            simp only [Std.TreeMap.mem_insert, Std.LawfulEqCmp.compare_eq_iff_eq] at member
            rcases member with rfl | old
            · simpa using active
            · exact old
          · intro kind there member
            cases kind <;> exact member
          · exact fun there live => live
      case clearSearch session =>
        apply contained.mono
        · exact fun there member => Std.TreeMap.mem_of_mem_erase member
        · intro kind there member
          cases kind <;> exact member
        · exact fun there live => live
      case getAttributes | getSessionInfo | stop => exact contained

end Manager

/-- What closing a session is documented to do, over a whole run: operations only on
open sessions, new sessions start clean, and nothing outlives the last session. -/
structure SessionDiscipline {B : Backend} (first : Manager B) (run : List (ManagerStep B)) :
    Prop where
  contained : ∀ earlier later, run = earlier ++ later →
    (after Manager.step earlier first).OnOpenSessions
  openedClean : ∀ earlier os flags later session, run = earlier ++ (os, .openSession flags) :: later →
    ((after Manager.step earlier first).openSession os flags).1 = .ok session →
    ((after Manager.step earlier first).openSession os flags).2.NothingActive session
  nothingRetained : ∀ earlier later, run = earlier ++ later →
    (after Manager.step earlier first).sessions.isEmpty = true →
    ∀ session, (after Manager.step earlier first).NothingActive session

section Discipline
variable {B : Backend}

theorem new_contained (os : B.Os) : (Manager.new os : Manager B).OnOpenSessions := by
  have same : Manager.SameButRegistry {} (Manager.new os : Manager B) := Manager.new_same os
  constructor
  · intro session member
    rw [same.searches] at member
    exact absurd member Std.TreeMap.not_mem_emptyc
  · intro kind session member
    rw [same.operations] at member
    cases kind <;> exact absurd member Std.TreeMap.not_mem_emptyc

theorem nothing_active_congr {before after : Manager B} {session : CkSessionHandle}
    (searches : after.searches = before.searches)
    (operations : ∀ kind, after.operations kind = before.operations kind) :
    after.NothingActive session ↔ before.NothingActive session := by
  simp only [Manager.NothingActive, searches, operations]

/-- A start that is accepted leaves its session in the map, so that containment
afterwards tells that the session was open before. -/
theorem contained_after_start {manager : Manager B} (os : B.Os) {arguments : ManagerArguments}
    (contained : (manager.dispatch os arguments).2.OnOpenSessions)
    (clean : ∀ flags, arguments = .openSession flags →
      manager.NothingActive manager.nextSession) : manager.StartsOnOpen arguments := by
  cases made : arguments.operationCall with
  | some call =>
      rcases call with ⟨kind, session, request⟩
      cases request with
      | start handle params =>
          rw [Manager.starts_on_open_start made]
          by_cases busy : session ∈ manager.operations kind
          · exact Or.inl busy
          · cases found : usable kind manager.objects[handle]? with
            | none => exact Or.inr (Or.inl rfl)
            | some object =>
                have free : ¬ (manager.operations kind).contains session = true := by simpa using busy
                rw [(Manager.dispatch_operation manager os made).2] at contained
                -- The start is accepted, so afterwards the session holds an operation.
                have entered : session ∈
                    (manager.operate kind session (.start handle params)).2.operations kind := by
                  simp [Manager.operate, Manager.start, busy, found]
                have live := contained.operations kind session entered
                rw [(Manager.operate_sessions manager kind session _).1] at live
                exact Or.inr (Or.inr live)
      | _ => cases arguments <;> cases made <;> trivial
  | none =>
      cases arguments <;> simp only [ManagerArguments.operationCall, reduceCtorEq] at made
      case openSession flags => exact clean flags rfl
      case startSearch session attrs =>
        rcases Manager.start_search_cases manager os session attrs with
          ⟨busy, _⟩ | ⟨_, scanned, handles, origin, started⟩
        · exact Or.inl (by simpa using busy)
        · have same := (Manager.scanned_same origin).sessions
          simp only [Manager.dispatch, started] at contained
          have live : session ∈ scanned.sessions :=
            contained.searches session (by simp [Std.TreeMap.mem_insert])
          exact Or.inr (same ▸ live)
      all_goals trivial

/-- Over any run, closing sessions keeps its promises exactly if every start that is
accepted names an open session and the counter never meets a session in use. -/
theorem session_discipline_iff (os : B.Os) (run : List (ManagerStep B)) :
    SessionDiscipline (Manager.new os) run ↔
      ∀ earlier served later, run = earlier ++ served :: later →
        (after Manager.step earlier (Manager.new os)).StartsOnOpen served.2 := by
  constructor
  · rintro discipline earlier ⟨os', arguments⟩ later split
    have next := discipline.contained (earlier ++ [(os', arguments)]) later (by simp [split])
    rw [after_append] at next
    apply contained_after_start os' next
    rintro flags rfl
    obtain ⟨handed, searches, operations, _⟩ :=
      (after Manager.step earlier (Manager.new os)).open_session_same os' flags
    have clean := discipline.openedClean earlier os' flags later _ split handed
    exact (nothing_active_congr searches operations).mp clean
  · intro starts
    have contained := along_run (new_contained os)
      (fun earlier served later split held =>
        Manager.step_contained served.1 served.2 held (starts earlier served later split))
    refine ⟨contained, ?_, ?_⟩
    · intro earlier os' flags later session split handed
      obtain ⟨next, searches, operations, _⟩ :=
        (after Manager.step earlier (Manager.new os)).open_session_same os' flags
      rw [next] at handed
      cases handed
      rw [nothing_active_congr searches operations]
      exact starts earlier _ later split
    · intro earlier later split empty session
      have held := contained earlier later split
      refine ⟨fun member => ?_, fun kind member => ?_⟩
      · exact absurd (held.searches session member) (Std.TreeMap.not_mem_of_isEmpty empty)
      · exact absurd (held.operations kind session member) (Std.TreeMap.not_mem_of_isEmpty empty)

end Discipline

/-- A sign operation is started on a handle that no session has yet, and is given
data; the session opened next gets that handle and finds itself signing. -/
theorem unopened_session_is_poisoned :
    ¬ SessionDiscipline
      (Manager.new (Windows.Cng.steady [.forCert 7 [1] .rsa] (fun _ => 128) 0) :
        Manager Windows.backend)
      [(Windows.Cng.steady [] (fun _ => 128) 0, .startSign 1 1 none),
        (Windows.Cng.steady [] (fun _ => 128) 0, .signUpdate 1 [1, 2, 3]),
        (Windows.Cng.steady [] (fun _ => 128) 0, .openSession 4)] := by
  intro discipline
  have clean := discipline.openedClean
    [(Windows.Cng.steady [] (fun _ => 128) 0, .startSign 1 1 none),
      (Windows.Cng.steady [] (fun _ => 128) 0, .signUpdate 1 [1, 2, 3])] _ 4 [] 1 rfl rfl
  exact clean.2 .sign (by decide)

end OsClientCerts
