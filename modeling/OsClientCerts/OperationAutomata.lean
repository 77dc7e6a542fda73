import OsClientCerts.ObjectRegistry

/-!
Each session handle and kind of operation is an automaton of its own: idle, or
active with an object, parameters and a buffer. The manager, whatever else it is
asked to do in between, is the product of these automata.
-/

namespace OsClientCerts
open LocalAutomata

inductive OperationState (kind : Kind) where
  | idle
  | active (handle : CkObjectHandle) (params : kind.Params) (buffer : Bytes)

abbrev Registry (B : Backend) := CkObjectHandle → Option B.Object

namespace OperationState
variable {B : Backend} {kind : Kind}

def inputFor (registry : Registry B) (handle : CkObjectHandle) (params : kind.Params)
    (data : Bytes) : Except CryptoError (BackendInput B kind) :=
  match usable kind (registry handle) with
  | some object => .ok ⟨object, params, data⟩
  | none => .error .invalidKey

def answer (registry : Registry B) :
    OperationState kind → OperationRequest kind → Reply B kind × OperationState kind
  | .idle, .start handle params =>
      match usable kind (registry handle) with
      | some _ => (.ok .accepted, .active handle params [])
      | none => (.error .invalidKey, .idle)
  | .idle, _ => (.error .operationFailed, .idle)
  | .active handle params buffer, request =>
      match request with
      | .start .. => (.error .operationFailed, .active handle params buffer)
      | .getLength data =>
          ((inputFor registry handle params data).map .measures, .active handle params buffer)
      | .finishWith data => ((inputFor registry handle params data).map .performs, .idle)
      | .update data =>
          if buffer.length + data.length ≤ maxTotalOperationDataLen then
            (.ok .accepted, .active handle params (buffer ++ data))
          else (.error .dataTooLarge, .active handle params buffer)
      | .getFinalLength =>
          ((inputFor registry handle params buffer).map .measures, .active handle params buffer)
      | .finish => ((inputFor registry handle params buffer).map .performs, .idle)

end OperationState

inductive OperationInput (B : Backend) (kind : Kind) where
  | request (registry : Registry B) (request : OperationRequest kind)
  | closed

def OperationState.react {B : Backend} {kind : Kind} :
    OperationInput B kind → OperationState kind → Option (Reply B kind) × OperationState kind
  | .request registry request, state => (state.answer registry request).map some id
  | .closed, _ => (none, .idle)

def ManagerArguments.requestOf (kind : Kind) (session : CkSessionHandle)
    (arguments : ManagerArguments) : Option (OperationRequest kind) :=
  match arguments.operationCall with
  | some call =>
      if same : call.kind = kind ∧ call.session = session then some (same.1 ▸ call.request) else none
  | none => none

theorem request_of_some {kind : Kind} {session : CkSessionHandle} {arguments : ManagerArguments}
    {request : OperationRequest kind} :
    arguments.requestOf kind session = some request ↔
      arguments.operationCall = some ⟨kind, session, request⟩ := by
  unfold ManagerArguments.requestOf
  cases made : arguments.operationCall with
  | none => simp
  | some call =>
      rcases call with ⟨other, there, asked⟩
      by_cases same : other = kind ∧ there = session
      · obtain ⟨rfl, rfl⟩ := same
        simp
      · simp only [same, ↓reduceDIte, reduceCtorEq, Option.some.injEq, OperationCall.mk.injEq,
          false_iff]
        rintro ⟨sameKind, sameSession, _⟩
        exact same ⟨sameKind, sameSession⟩

namespace Manager
variable {B : Backend}

def registry (manager : Manager B) : Registry B := fun handle => manager.objects[handle]?

def operationState (manager : Manager B) (kind : Kind) (session : CkSessionHandle) :
    OperationState kind :=
  match (manager.operations kind)[session]? with
  | some ⟨handle, params, data⟩ => .active handle params data
  | none => .idle

theorem operation_state_idle {manager : Manager B} {kind : Kind} {session : CkSessionHandle} :
    manager.operationState kind session = .idle ↔ (manager.operations kind)[session]? = none := by
  unfold operationState
  split
  case h_1 held => simp [held]
  case h_2 absent => simp [absent]

theorem operation_state_active {manager : Manager B} {kind : Kind} {session : CkSessionHandle}
    {handle : CkObjectHandle} {params : kind.Params} {data : Bytes} :
    manager.operationState kind session = .active handle params data ↔
      (manager.operations kind)[session]? = some ⟨handle, params, data⟩ := by
  unfold operationState
  split
  case h_1 held => simp [held]
  case h_2 absent => simp [absent]

@[simp] theorem new_operation_idle (os : B.Os) (kind : Kind) (session : CkSessionHandle) :
    (Manager.new os : Manager B).operationState kind session = .idle := by
  rw [operation_state_idle, (Manager.new_same os).operations]
  cases kind <;> exact Std.TreeMap.getElem?_emptyc

theorem operation_state_congr {before after : Manager B} {kind : Kind} {session : CkSessionHandle}
    (same : (after.operations kind)[session]? = (before.operations kind)[session]?) :
    after.operationState kind session = before.operationState kind session := by
  unfold operationState
  rw [same]

theorem resolve_input (manager : Manager B) (kind : Kind) (operation : Operation kind)
    (data : Bytes) :
    manager.resolve kind operation data =
      OperationState.inputFor manager.registry operation.handle operation.params data := rfl

/-! One method at a time: the copy of each method for a kind is its automaton's
transition, and leaves every other automaton alone. -/

theorem operate_idle {manager : Manager B} {kind : Kind} {session : CkSessionHandle}
    (absent : (manager.operations kind)[session]? = none) (request : OperationRequest kind) :
    (manager.operate kind session request).1 =
        (OperationState.idle.answer manager.registry request).1 ∧
      (manager.operate kind session request).2.operationState kind session =
        (OperationState.idle.answer manager.registry request).2 := by
  have idle := operation_state_idle.mpr absent
  cases request with
  | start handle params =>
      have free : (manager.operations kind).contains session = false := by
        rw [Std.TreeMap.contains_eq_isSome_getElem?, absent, Option.isSome_none]
      cases found : usable kind manager.objects[handle]? with
      | none => simp [operate, start, free, found, OperationState.answer, registry, idle, Except.map]
      | some object =>
          refine ⟨by simp [operate, start, free, found, OperationState.answer, registry,
            Except.map], ?_⟩
          simp [operate, start, free, found, OperationState.answer, registry,
            operation_state_active]
  | _ =>
      simp [operate, getLength, finishWith, update, getFinalLength, finish, absent,
        OperationState.answer, idle, Except.map]

theorem operate_active {manager : Manager B} {kind : Kind} {session : CkSessionHandle}
    {handle : CkObjectHandle} {params : kind.Params} {buffer : Bytes}
    (held : (manager.operations kind)[session]? = some ⟨handle, params, buffer⟩)
    (request : OperationRequest kind) :
    (manager.operate kind session request).1 =
        ((OperationState.active handle params buffer).answer manager.registry request).1 ∧
      (manager.operate kind session request).2.operationState kind session =
        ((OperationState.active handle params buffer).answer manager.registry request).2 := by
  have active := operation_state_active.mpr held
  cases request with
  | start again fresh =>
      have busy : (manager.operations kind).contains session = true := by
        rw [Std.TreeMap.contains_eq_isSome_getElem?, held, Option.isSome_some]
      simp [operate, start, busy, OperationState.answer, active, Except.map]
  | update data =>
      by_cases fits : buffer.length + data.length ≤ maxTotalOperationDataLen
      · have within : ¬ buffer.length + data.length > maxTotalOperationDataLen := by omega
        refine ⟨by simp [operate, update, held, within, fits, OperationState.answer,
          Except.map], ?_⟩
        simp [operate, update, held, within, fits, OperationState.answer,
          operation_state_active]
      · have exceeds : buffer.length + data.length > maxTotalOperationDataLen := by omega
        simp [operate, update, held, exceeds, fits, OperationState.answer, active, Except.map]
  | getLength data | getFinalLength =>
      simp [operate, getLength, getFinalLength, held, resolve_input, OperationState.answer,
        active]
  | finishWith data | finish =>
      refine ⟨by simp [operate, finishWith, finish, held, resolve_input,
        OperationState.answer], ?_⟩
      simp [operate, finishWith, finish, held, OperationState.answer, operation_state_idle]

theorem operate_own (manager : Manager B) (kind : Kind) (session : CkSessionHandle)
    (request : OperationRequest kind) :
    (manager.operate kind session request).1 =
        ((manager.operationState kind session).answer manager.registry request).1 ∧
      (manager.operate kind session request).2.operationState kind session =
        ((manager.operationState kind session).answer manager.registry request).2 := by
  cases held : (manager.operations kind)[session]? with
  | none =>
      rw [operation_state_idle.mpr held]
      exact operate_idle held request
  | some operation =>
      rw [operation_state_active.mpr held]
      exact operate_active held request

/-- Beyond its own map entry, an operation request changes nothing. -/
theorem operate_frame (manager : Manager B) (kind : Kind) (session : CkSessionHandle)
    (request : OperationRequest kind) :
    (manager.operate kind session request).2 = manager ∨
      ∃ entries, (manager.operate kind session request).2 = manager.withOperations kind entries ∧
        ∀ other, other ≠ session → entries[other]? = (manager.operations kind)[other]? := by
  have inserted (operation : Operation kind) : ∀ other, other ≠ session →
      ((manager.operations kind).insert session operation)[other]? =
        (manager.operations kind)[other]? := by
    intro other different
    rw [Std.TreeMap.getElem?_insert]
    simp [Ne.symm different]
  have erased : ∀ other, other ≠ session →
      ((manager.operations kind).erase session)[other]? = (manager.operations kind)[other]? := by
    intro other different
    rw [Std.TreeMap.getElem?_erase]
    simp [Ne.symm different]
  cases request with
  | start handle params =>
      simp only [operate, start]
      split
      · exact Or.inl rfl
      · split
        · exact Or.inr ⟨_, rfl, inserted _⟩
        · exact Or.inl rfl
  | update data =>
      simp only [operate, update]
      split
      · split
        · exact Or.inl rfl
        · exact Or.inr ⟨_, rfl, inserted _⟩
      · exact Or.inl rfl
  | getLength data | getFinalLength => exact Or.inl rfl
  | finishWith data | finish =>
      simp only [operate, finishWith, finish]
      split
      · exact Or.inr ⟨_, rfl, erased⟩
      · exact Or.inl rfl

theorem operate_other (manager : Manager B) {kind other : Kind}
    {session there : CkSessionHandle} (different : ¬ (other = kind ∧ there = session))
    (request : OperationRequest other) :
    (manager.operate other there request).2.operationState kind session =
      manager.operationState kind session := by
  rcases operate_frame manager other there request with same | ⟨entries, changed, frame⟩
  · rw [same]
  · apply operation_state_congr
    rw [changed]
    by_cases sameKind : kind = other
    -- Another session of the same map, or another map.
    · subst other
      rw [operations_with]
      exact frame session fun sameSession => different ⟨rfl, sameSession.symm⟩
    · rw [operations_with_other manager entries sameKind]

theorem operate_registry_same (manager : Manager B) (kind : Kind) (session : CkSessionHandle)
    (request : OperationRequest kind) :
    (manager.operate kind session request).2.registry = manager.registry := by
  have same := (operate_registry manager kind session request).objects
  funext handle
  exact congrArg (·[handle]?) same

theorem dispatch_else (manager : Manager B) (os : B.Os) {arguments : ManagerArguments}
    (noCall : arguments.operationCall = none)
    (open_ : ∀ session, arguments ≠ .closeSession session)
    (openAll : arguments ≠ .closeAllSessions) (kind : Kind) :
    (manager.dispatch os arguments).2.operations kind = manager.operations kind := by
  -- Outside the operation requests, only a close reaches the operations.
  cases arguments <;> simp only [ManagerArguments.operationCall, reduceCtorEq] at noCall
  case openSession flags =>
    calc (manager.dispatch os (.openSession flags)).2.operations kind
        = (manager.maybeFindNewObjects os 3000).operations kind := by cases kind <;> rfl
      _ = manager.operations kind := (scan_same manager os 3000).operations kind
  case closeSession session => exact absurd rfl (open_ session)
  case closeAllSessions => exact absurd rfl openAll
  case startSearch session attrs =>
    rcases start_search_cases manager os session attrs with
      ⟨_, refused⟩ | ⟨_, scanned, handles, origin, started⟩
    · simp only [dispatch, refused]
    · have same : scanned.operations kind = manager.operations kind :=
        (scanned_same origin).operations kind
      simp only [dispatch, started]
      rw [← same]
      cases kind <;> rfl
  case search session maxObjects =>
    simp only [dispatch]
    rcases search_cases manager session maxObjects with same | ⟨_, remaining, changed⟩
    · rw [same]
    · rw [changed]
      cases kind <;> rfl
  case clearSearch session => cases kind <;> rfl
  case getAttributes | getSessionInfo | stop => rfl

theorem close_session_open {manager : Manager B} {session : CkSessionHandle}
    (live : manager.sessions.contains session = true) (kind : Kind) :
    (manager.closeSession session).2.operations kind =
      (manager.operations kind).erase session := by
  simp only [closeSession, live, ↓reduceIte]
  cases kind <;> rfl

theorem close_session_unknown {manager : Manager B} {session : CkSessionHandle}
    (unknown : manager.sessions.contains session = false) :
    (manager.closeSession session).2 = manager := by
  simp [closeSession, unknown]

theorem close_all_operations (manager : Manager B) (kind : Kind) :
    manager.closeAllSessions.2.operations kind = ∅ := by
  cases kind <;> rfl

end Manager

section Automata
variable {B : Backend} (kind : Kind) (session : CkSessionHandle)

/-- The inputs of one automaton: requests for its kind on its session, and the
closes that succeed for its session. -/
def operationInput (served : ManagerStep B) (manager : Manager B) :
    Option (OperationInput B kind) :=
  match served.2 with
  | .closeSession closing =>
      if closing = session ∧ manager.sessions.contains session then some .closed else none
  | .closeAllSessions => some .closed
  | arguments => (arguments.requestOf kind session).map (.request manager.registry)

def operationAutomaton :
    Component (Manager B) (ManagerStep B) (OperationState kind) (OperationInput B kind)
      (Reply B kind) where
  step := Manager.step
  view manager := manager.operationState kind session
  input := operationInput kind session
  output served manager := (served.2.requestOf kind session).map fun request =>
    (manager.operate kind session request).1
  react := OperationState.react

variable {kind session}

theorem operation_input_request {served : ManagerStep B} {request : OperationRequest kind}
    (asked : served.2.requestOf kind session = some request) (manager : Manager B) :
    operationInput kind session served manager = some (.request manager.registry request) := by
  rcases served with ⟨os, arguments⟩
  have made := request_of_some.mp asked
  cases arguments <;> simp_all [ManagerArguments.operationCall, operationInput]

theorem request_step {served : ManagerStep B} {request : OperationRequest kind}
    (asked : served.2.requestOf kind session = some request) (manager : Manager B) :
    manager.step served = (manager.operate kind session request).2 :=
  (Manager.dispatch_operation manager served.1 (request_of_some.mp asked)).2

theorem request_elsewhere {served : ManagerStep B} {call : OperationCall}
    (made : served.2.operationCall = some call)
    (quiet : served.2.requestOf kind session = none) (manager : Manager B) :
    operationInput kind session served manager = none ∧
      (manager.step served).operationState kind session =
        manager.operationState kind session := by
  rcases served with ⟨os, arguments⟩
  rcases call with ⟨other, there, request⟩
  have different : ¬ (other = kind ∧ there = session) := by
    rintro ⟨rfl, rfl⟩
    rw [request_of_some.mpr made] at quiet
    cases quiet
  constructor
  · cases arguments <;> simp_all [ManagerArguments.operationCall, operationInput]
  · rw [Manager.step, (Manager.dispatch_operation manager os made).2]
    exact Manager.operate_other manager different request

theorem close_session_step (os : B.Os) (closing : CkSessionHandle) (manager : Manager B) :
    (closing = session ∧ manager.sessions.contains session = true ∧
        (manager.step (os, .closeSession closing)).operationState kind session = .idle) ∨
      (¬ (closing = session ∧ manager.sessions.contains session = true) ∧
        (manager.step (os, .closeSession closing)).operationState kind session =
          manager.operationState kind session) := by
  by_cases live : manager.sessions.contains closing = true
  · have erased := Manager.close_session_open live kind
    by_cases same : closing = session
    · subst same
      refine Or.inl ⟨rfl, live, Manager.operation_state_idle.mpr ?_⟩
      rw [Manager.step, Manager.dispatch, erased]
      simp
    · refine Or.inr ⟨fun both => same both.1, Manager.operation_state_congr ?_⟩
      rw [Manager.step, Manager.dispatch, erased, Std.TreeMap.getElem?_erase]
      simp [same]
  · refine Or.inr ⟨?_, ?_⟩
    · rintro ⟨rfl, live'⟩
      exact live live'
    · rw [Manager.step, Manager.dispatch,
        Manager.close_session_unknown (Bool.eq_false_iff.mpr live)]

theorem quiet_step {served : ManagerStep B} (quiet : served.2.requestOf kind session = none)
    (manager : Manager B) :
    (operationInput kind session served manager = none ∧
      (manager.step served).operationState kind session =
        manager.operationState kind session) ∨
    (operationInput kind session served manager = some .closed ∧
      (manager.step served).operationState kind session = .idle) := by
  -- A step without a request of this automaton leaves it alone unless it closes it.
  cases made : served.2.operationCall with
  | some call => exact Or.inl (request_elsewhere made quiet manager)
  | none =>
      rcases served with ⟨os, arguments⟩
      by_cases closes : ∃ closing, arguments = .closeSession closing
      · obtain ⟨closing, rfl⟩ := closes
        rcases @close_session_step B kind session os closing manager with
          ⟨same, live, idle⟩ | ⟨other, kept⟩
        · exact Or.inr ⟨by simp [operationInput, same, live], idle⟩
        · exact Or.inl ⟨if_neg other, kept⟩
      · by_cases all : arguments = .closeAllSessions
        · subst all
          refine Or.inr ⟨rfl, Manager.operation_state_idle.mpr ?_⟩
          rw [Manager.step, Manager.dispatch, Manager.close_all_operations]
          exact Std.TreeMap.getElem?_emptyc
        -- Everything else leaves the maps of operations alone.
        · have frame := Manager.dispatch_else manager os made
            (fun closing same => closes ⟨closing, same⟩) all kind
          refine Or.inl ⟨?_, Manager.operation_state_congr (by rw [Manager.step, frame])⟩
          cases arguments <;> simp_all [operationInput]

theorem operation_automaton_simulates :
    (operationAutomaton kind session : Component (Manager B) _ _ _ _).Simulates := by
  intro served manager
  cases asked : served.2.requestOf kind session with
  | some request =>
      have own := manager.operate_own kind session request
      simp only [operationAutomaton, operation_input_request asked, asked, Option.map_some,
        OperationState.react]
      rw [request_step asked, own.1]
      exact ⟨own.2, rfl⟩
  | none =>
      simp only [operationAutomaton, asked, Option.map_none]
      rcases quiet_step asked manager with ⟨nothing, kept⟩ | ⟨closed, idle⟩
      · simp only [nothing]
        exact ⟨kept, trivial⟩
      · simp only [closed]
        exact ⟨idle, rfl⟩

variable (kind session) in
/-- What a step does to the buffer of an operation: opened by an accepted start,
appended to by an accepted update, ended by a finish or a close. -/
def operationEffect (served : ManagerStep B) (manager : Manager B) :
    Effect (CkObjectHandle × kind.Params) UInt8 :=
  match operationInput kind session served manager with
  | none => .keep
  | some .closed => .stop
  | some (.request _ request) =>
      match request, (manager.operate kind session request).1 with
      | .start handle params, .ok _ => .start (handle, params)
      | .update data, .ok _ => .append data
      | .finishWith _, _ | .finish, _ => .stop
      | _, _ => .keep

def OperationState.buffer : OperationState kind → Option ((CkObjectHandle × kind.Params) × Bytes)
  | .idle => none
  | .active handle params buffer => some ((handle, params), buffer)

theorem operation_effect_faithful (served : ManagerStep B) (manager : Manager B) :
    ((manager.step served).operationState kind session).buffer =
      (operationEffect kind session served manager).apply
        (manager.operationState kind session).buffer := by
  unfold operationEffect
  cases asked : served.2.requestOf kind session with
  | none =>
      rcases quiet_step asked manager with ⟨nothing, kept⟩ | ⟨closed, idle⟩
      · rw [nothing, kept]
        rfl
      · rw [closed, idle]
        rfl
  | some request =>
      obtain ⟨answered, moved⟩ := manager.operate_own kind session request
      rw [operation_input_request asked, request_step asked]
      dsimp only
      rw [answered, moved]
      cases manager.operationState kind session with
      | idle =>
          cases request with
          | start handle params =>
              simp only [OperationState.answer]
              cases usable kind (manager.registry handle) <;> rfl
          | _ => rfl
      | active handle params buffer =>
          cases request with
          | update data =>
              simp only [OperationState.answer]
              split <;> rfl
          | _ => rfl

variable (kind session) in
/-- The run is `earlier`, the start that opened the operation, and `later`, which
neither ends nor restarts it; the buffer holds what `later` appended. -/
structure OpenedIn (start : Manager B) (run earlier : List (ManagerStep B))
    (opening : ManagerStep B) (later : List (ManagerStep B))
    (handle : CkObjectHandle) (params : kind.Params) (buffer : Bytes) : Prop where
  split : run = earlier ++ opening :: later
  asked : opening.2.requestOf kind session = some (.start handle params)
  suitable : ∃ object,
    usable kind ((after Manager.step earlier start).registry handle) = some object
  going : Continues Manager.step (operationEffect kind session) later
    (Manager.step opening (after Manager.step earlier start))
  buffer : buffer = collected Manager.step (operationEffect kind session) later
    (Manager.step opening (after Manager.step earlier start))

theorem effect_start {served : ManagerStep B} {manager : Manager B} {handle : CkObjectHandle}
    {params : kind.Params}
    (started : operationEffect kind session served manager = .start (handle, params)) :
    served.2.requestOf kind session = some (.start handle params) ∧
      ∃ object, usable kind (manager.registry handle) = some object := by
  unfold operationEffect at started
  cases asked : served.2.requestOf kind session with
  | none =>
      rcases quiet_step asked manager with ⟨nothing, _⟩ | ⟨closed, _⟩
      · rw [nothing] at started
        cases started
      · rw [closed] at started
        cases started
  | some request =>
      rw [operation_input_request asked] at started
      cases request with
      | start given chosen =>
          dsimp only at started
          rw [(manager.operate_own kind session _).1] at started
          cases state : manager.operationState kind session with
          | active held kept buffer => simp [state, OperationState.answer] at started
          | idle =>
              cases found : usable kind (manager.registry given) with
              | none => simp [state, found, OperationState.answer] at started
              | some object =>
                  simp only [state, found, OperationState.answer, Effect.start.injEq,
                    Prod.mk.injEq] at started
                  obtain ⟨rfl, rfl⟩ := started
                  exact ⟨rfl, object, found⟩
      | update data =>
          dsimp only at started
          split at started <;> simp_all
      | _ => simp at started

theorem active_opened (os : B.Os) (run : List (ManagerStep B)) {handle : CkObjectHandle}
    {params : kind.Params} {buffer : Bytes}
    (active : (after Manager.step run (Manager.new os)).operationState kind session =
      .active handle params buffer) :
    ∃ earlier opening later,
      OpenedIn kind session (Manager.new os) run earlier opening later handle params buffer := by
  let buffered : Manager B → Option ((CkObjectHandle × kind.Params) × Bytes) := fun manager =>
    (manager.operationState kind session).buffer
  have closed : buffered (Manager.new os) = none := by
    simp only [buffered, Manager.new_operation_idle, OperationState.buffer]
  have open_ : buffered (after Manager.step run (Manager.new os)) =
      some ((handle, params), buffer) := by
    simp only [buffered, active, OperationState.buffer]
  obtain ⟨earlier, opening, later, split, started, going, held⟩ :=
    accumulated (fun served manager => operation_effect_faithful served manager) run _ closed open_
  obtain ⟨asked, suitable⟩ := effect_start started
  exact ⟨earlier, opening, later, split, asked, suitable, going, held⟩

variable (kind session) in
/-- What the automaton promises of the manager's methods, in the state a run has reached. -/
structure OperationLaws (first : Manager B) (run : List (ManagerStep B))
    (current : Manager B) : Prop where
  reply : ∀ (served : ManagerStep B) (request : OperationRequest kind),
    served.2.requestOf kind session = some request →
    (current.dispatch served.1 served.2).1.operationResult =
      some (Reply.result served.1 request (current.operate kind session request).1)
  start : ∀ handle params, (current.start kind session handle params).1 = .ok () ↔
    current.operationState kind session = .idle ∧
      ∃ object, usable kind (current.registry handle) = some object
  started : ∀ handle params, (current.start kind session handle params).1 = .ok () →
    (current.start kind session handle params).2.operationState kind session =
      .active handle params []
  update : ∀ data, (current.update kind session data).1 = .ok () ↔
    ∃ handle params buffer, current.operationState kind session = .active handle params buffer ∧
      buffer.length + data.length ≤ 65536
  updateRefused : ∀ data, (current.update kind session data).1 ≠ .ok () →
    (current.update kind session data).2 = current
  lengthQueries : ∀ data, (current.operate kind session (.getLength data)).2 = current ∧
    (current.operate kind session .getFinalLength).2 = current
  finish : ∀ handle params buffer,
    current.operationState kind session = .active handle params buffer →
    (current.finish kind session).1 =
        OperationState.inputFor current.registry handle params buffer ∧
      (current.finish kind session).2.operationState kind session = .idle
  opened : ∀ handle params buffer,
    current.operationState kind session = .active handle params buffer →
    ∃ earlier opening later,
      OpenedIn kind session first run earlier opening later handle params buffer
  sameObject : current.registered ≤ B.target.ulongModulus →
    ∀ handle params buffer earlier opening later,
    OpenedIn kind session first run earlier opening later handle params buffer →
    current.registry handle = (after Manager.step earlier first).registry handle
  closed : current.sessions.contains session = true →
    (current.closeSession session).2.operationState kind session = .idle
  allClosed : current.closeAllSessions.2.operationState kind session = .idle

theorem start_accepted {manager : Manager B} {handle : CkObjectHandle} {params : kind.Params} :
    (manager.start kind session handle params).1 = .ok () ↔
      manager.operationState kind session = .idle ∧
        ∃ object, usable kind (manager.registry handle) = some object := by
  have own : ((manager.start kind session handle params).1.map fun _ => Outcome.accepted) = _ :=
    (manager.operate_own kind session (.start handle params)).1
  constructor
  · intro accepted
    rw [accepted] at own
    cases state : manager.operationState kind session with
    | active held kept buffer => simp [state, OperationState.answer, Except.map] at own
    | idle =>
        cases found : usable kind (manager.registry handle) with
        | none => simp [state, found, OperationState.answer, Except.map] at own
        | some object => exact ⟨rfl, object, rfl⟩
  · rintro ⟨idle, object, found⟩
    have absent := Manager.operation_state_idle.mp idle
    have free : (manager.operations kind).contains session = false := by
      rw [Std.TreeMap.contains_eq_isSome_getElem?, absent, Option.isSome_none]
    have present : usable kind manager.objects[handle]? = some object := found
    simp [Manager.start, free, present]

theorem update_accepted {manager : Manager B} {data : Bytes} :
    (manager.update kind session data).1 = .ok () ↔
      ∃ handle params buffer, manager.operationState kind session = .active handle params buffer ∧
        buffer.length + data.length ≤ 65536 := by
  unfold Manager.update
  constructor
  · intro accepted
    cases held : (manager.operations kind)[session]? with
    | none => simp [held] at accepted
    | some operation =>
        rcases operation with ⟨handle, params, buffer⟩
        refine ⟨handle, params, buffer, Manager.operation_state_active.mpr held, ?_⟩
        by_cases fits : buffer.length + data.length ≤ 65536
        · exact fits
        · have exceeds : buffer.length + data.length > maxTotalOperationDataLen := by
            unfold maxTotalOperationDataLen
            omega
          simp [held, exceeds] at accepted
  · rintro ⟨handle, params, buffer, active, fits⟩
    have within : ¬ buffer.length + data.length > maxTotalOperationDataLen := by
      unfold maxTotalOperationDataLen
      omega
    simp [Manager.operation_state_active.mp active, within]

theorem update_refused {manager : Manager B} {data : Bytes}
    (refused : (manager.update kind session data).1 ≠ .ok ()) :
    (manager.update kind session data).2 = manager := by
  unfold Manager.update at refused ⊢
  split
  · split
    · rfl
    · simp_all
  · rfl

theorem operation_laws (os : B.Os) (run : List (ManagerStep B)) :
    OperationLaws kind session (Manager.new os) run
      (after Manager.step run (Manager.new os)) where
  reply served request asked :=
    (Manager.dispatch_operation _ served.1 (request_of_some.mp asked)).1
  start handle params := start_accepted
  started handle params accepted := by
    obtain ⟨idle, object, found⟩ := start_accepted.mp accepted
    have own := (Manager.operate_own (after Manager.step run (Manager.new os)) kind session
      (.start handle params)).2
    rw [idle] at own
    simp only [OperationState.answer, found] at own
    exact own
  update data := update_accepted
  updateRefused data refused := update_refused refused
  lengthQueries data := ⟨rfl, rfl⟩
  finish handle params buffer active := by
    have held := Manager.operation_state_active.mp active
    refine ⟨by simp [Manager.finish, held, Manager.resolve_input], ?_⟩
    rw [Manager.operation_state_idle]
    simp [Manager.finish, held]
  opened handle params buffer active := active_opened os run active
  sameObject few handle params buffer earlier opening later opened := by
    obtain ⟨object, suitable⟩ := opened.suitable
    cases found : (after Manager.step earlier (Manager.new os)).registry handle with
    | none =>
        rw [found] at suitable
        cases kind <;> cases suitable
    | some denoted =>
        -- The handle was given out before the start, and there were others for the rest.
        rw [opened.split] at few ⊢
        exact Manager.handle_kept os earlier (opening :: later) few found
  closed live := by
    rw [Manager.operation_state_idle, Manager.close_session_open live]
    simp
  allClosed := by
    rw [Manager.operation_state_idle, Manager.close_all_operations]
    exact Std.TreeMap.getElem?_emptyc

/-- Over any run the manager is, for each kind and session, that automaton alone:
its replies are a function of the inputs that reached it. -/
theorem manager_refines_operation_automata (os : B.Os) (run : List (ManagerStep B)) (kind : Kind)
    (session : CkSessionHandle) :
    let automaton : Component (Manager B) _ _ _ _ := operationAutomaton kind session
    let current := after Manager.step run (Manager.new os)
    automaton.reactions (automaton.inputs run (Manager.new os)) .idle =
        (automaton.outputs run (Manager.new os), current.operationState kind session) ∧
      OperationLaws kind session (Manager.new os) run current := by
  intro automaton current
  refine ⟨?_, operation_laws os run⟩
  have whole : automaton.reactions _ (automaton.view (Manager.new os)) = _ :=
    Component.run_reactions operation_automaton_simulates run (Manager.new os)
  rw [show automaton.view (Manager.new os) = .idle from
    Manager.new_operation_idle os kind session] at whole
  exact whole

end Automata
end OsClientCerts
