import OsClientCerts.SequentialCalls
import OsClientCerts.WindowsBackend

/-!
An operation run in parts, from one thread. Whatever length queries and failed
attempts stand between its parts, the backend is called once in the end, with what
a single-shot call on the whole data would have given it.
-/

namespace OsClientCerts
open Resumption
variable {B : Backend}

structure LoneCall (B : Backend) where
  call : ExportedCall
  memory : Memory
  os : Nat → B.Os

def LoneCall.outcome (lone : LoneCall B) (state : ModuleState B) : (CkRv × Caller) × ModuleState B :=
  lone.call.alone lone.os lone.memory state

def LoneCall.events (lone : LoneCall B) (state : ModuleState B) : List (ModuleEvent B) :=
  lone.call.aloneEvents lone.os lone.memory state

def sequence : List (LoneCall B) → ModuleState B → List (CkRv × Caller) × ModuleState B
  | [], state => ([], state)
  | lone :: rest, state =>
      let later := sequence rest (lone.outcome state).2
      ((lone.outcome state).1 :: later.1, later.2)

def sequenceEvents : List (LoneCall B) → ModuleState B → List (ModuleEvent B)
  | [], _ => []
  | lone :: rest, state => lone.events state ++ sequenceEvents rest (lone.outcome state).2

theorem sequence_append (first second : List (LoneCall B)) (state : ModuleState B) :
    sequence (first ++ second) state =
      ((sequence first state).1 ++ (sequence second (sequence first state).2).1,
        (sequence second (sequence first state).2).2) := by
  induction first generalizing state with
  | nil => rfl
  | cons lone rest ih => simp [sequence, ih]

theorem sequence_events_append (first second : List (LoneCall B)) (state : ModuleState B) :
    sequenceEvents (first ++ second) state =
      sequenceEvents first state ++ sequenceEvents second (sequence first state).2 := by
  induction first generalizing state with
  | nil => rfl
  | cons lone rest ih => simp [sequenceEvents, sequence, ih]

def Reply.performed {kind : Kind} : Reply B kind → Option (Σ kind, BackendInput B kind)
  | .ok (.performs input) => some ⟨kind, input⟩
  | _ => none

def performedInput (event : ModuleEvent B) : Option (Σ kind, BackendInput B kind) :=
  match event.request, event.before with
  | .manager arguments, some manager => arguments.operationCall.bind fun call =>
      Reply.performed (manager.operate call.kind call.session call.request).1
  | _, _ => none

def consumingCalls (events : List (ModuleEvent B)) : List (Σ kind, BackendInput B kind) :=
  events.filterMap performedInput

theorem consuming_calls_append (first second : List (ModuleEvent B)) :
    consumingCalls (first ++ second) = consumingCalls first ++ consumingCalls second :=
  List.filterMap_append

theorem performed_by_request {α : Type} {fn : ProxyFn CryptoError α} {kind : Kind}
    {session : CkSessionHandle} {request : OperationRequest kind}
    {carried : Except CryptoError α → OperationResult}
    (requests : fn.Requests kind session request carried) (os : B.Os) (manager : Manager B) :
    performedInput (fn.event os (some manager)) =
      Reply.performed (manager.operate kind session request).1 := by
  simp only [performedInput, ProxyFn.event, requests.call, Option.bind_some]

theorem accepted_performs_nothing {kind : Kind} (result : Except CryptoError Unit) :
    Reply.performed (result.map fun _ => .accepted : Reply B kind) = none := by
  cases result <;> rfl

theorem query_performs_nothing (kind : Kind) (session : CkSessionHandle) (given : Option Bytes)
    (os : B.Os) (manager : Manager B) :
    performedInput ((ManagerProxy.query kind session given).event os (some manager)) = none := by
  rw [performed_by_request (ManagerProxy.query_requests kind session given),
    Manager.operate_query]
  cases manager.inputFor kind session given <;> rfl

theorem start_performs_nothing (kind : Kind) (session : CkSessionHandle) (handle : CkObjectHandle)
    (params : kind.Params) (os : B.Os) (manager : Manager B) :
    performedInput ((ManagerProxy.start kind session handle params).event os (some manager)) =
      none := by
  rw [performed_by_request (ManagerProxy.start_requests kind session handle params)]
  exact accepted_performs_nothing _

theorem update_performs_nothing (kind : Kind) (session : CkSessionHandle) (data : Bytes)
    (os : B.Os) (manager : Manager B) :
    performedInput ((ManagerProxy.update kind session data).event os (some manager)) = none := by
  rw [performed_by_request (ManagerProxy.update_requests kind session data)]
  exact accepted_performs_nothing _

theorem consume_performs {kind : Kind} {session : CkSessionHandle} {given : Option Bytes}
    {manager : Manager B} {input : BackendInput B kind}
    (known : manager.inputFor kind session given = .ok input) (os : B.Os) :
    performedInput ((ManagerProxy.consume kind session given).event os (some manager)) =
      some ⟨kind, input⟩ := by
  rw [performed_by_request (ManagerProxy.consume_requests kind session given),
    Manager.operate_consume, known]
  rfl

theorem consumed_once (call : OutputCall) {memory : Memory} {manager : Manager B}
    {input : BackendInput B call.kind}
    (known : manager.inputFor call.kind call.session (call.given B.target memory) = .ok input)
    (first second : B.Os) :
    consumingCalls [call.queryEvent manager memory first, call.consumeEvent manager memory second] =
      [⟨call.kind, input⟩] := by
  -- A length query and the consuming step after it call the backend once.
  have quiet : performedInput (call.queryEvent manager memory first) = none :=
    query_performs_nothing ..
  have runs : performedInput (call.consumeEvent manager memory second) = some ⟨call.kind, input⟩ :=
    consume_performs known second
  simp [consumingCalls, quiet, runs]

/-- An operation on this object is active, with this much data; the registry is as it was. -/
structure Holding (registry : Registry B) (kind : Kind) (session : CkSessionHandle)
    (handle : CkObjectHandle) (params : kind.Params) (held : Bytes) (manager : Manager B) :
    Prop where
  active : manager.operationState kind session = .active handle params held
  registry : manager.registry = registry

section Progress
variable {registry : Registry B} {kind : Kind} {session : CkSessionHandle}
  {handle : CkObjectHandle} {params : kind.Params} {object : kind.Usable B} {held : Bytes}
  {manager : Manager B}

theorem start_holding (idle : manager.operationState kind session = .idle)
    (found : usable kind (manager.registry handle) = some object) :
    (manager.start kind session handle params).1 = .ok () ∧
      Holding manager.registry kind session handle params []
        (manager.start kind session handle params).2 := by
  have accepted : (manager.start kind session handle params).1 = .ok () :=
    start_accepted.mpr ⟨idle, object, found⟩
  refine ⟨accepted, ?_, manager.operate_registry_same kind session (.start handle params)⟩
  have own := (manager.operate_own kind session (.start handle params)).2
  rw [idle] at own
  simp only [OperationState.answer, found] at own
  exact own

theorem update_holding (holding : Holding registry kind session handle params held manager)
    {part : Bytes} (small : held.length + part.length ≤ 65536) :
    (manager.update kind session part).1 = .ok () ∧
      Holding registry kind session handle params (held ++ part)
        (manager.update kind session part).2 := by
  refine ⟨update_accepted.mpr ⟨handle, params, held, holding.active, small⟩, ?_, ?_⟩
  · have own := (manager.operate_own kind session (.update part)).2
    rw [holding.active] at own
    have fits : held.length + part.length ≤ maxTotalOperationDataLen := small
    simp only [OperationState.answer, fits, ↓reduceIte] at own
    exact own
  · rw [← holding.registry]
    exact manager.operate_registry_same kind session (.update part)

/-- What the backend is told, by the length query and the consuming step alike. -/
theorem input_holding (holding : Holding registry kind session handle params held manager)
    (found : usable kind (registry handle) = some object) (given : Option Bytes) :
    manager.inputFor kind session given = .ok ⟨object, params, given.getD held⟩ := by
  have entry := Manager.operation_state_active.mp holding.active
  rw [← holding.registry] at found
  have present : usable kind manager.objects[handle]? = some object := found
  cases given <;>
    simp [Manager.inputFor, Manager.getLength, Manager.getFinalLength, entry, Manager.resolve,
      present]

end Progress

section Scripts
variable (kind : Kind) (session : CkSessionHandle) (handle : CkObjectHandle)
  (params : kind.Params) (object : kind.Usable B)

def Starts (lone : LoneCall B) : Prop :=
  ∃ pMechanism read, lone.call.initCall = some ⟨kind, session, pMechanism, handle⟩ ∧
    pMechanism ≠ null ∧ kind.readParams B.target (lone.memory .mechanism pMechanism)
      (Caller.loaded ⟨lone.memory, []⟩ .mechanism pMechanism 1) = .ret (.ok params, read)

/-- What may stand between the start and the last call, on an operation that holds
`held`: parts, length queries, and attempts with less room than is announced. -/
inductive Between : Bytes → List (LoneCall B) → List Bytes → Prop where
  | nil (held : Bytes) : Between held [] []
  | part {held : Bytes} {calls : List (LoneCall B)} {parts : List Bytes} {lone : LoneCall B}
      {pPart : Addr} {len : CkUlong} {slot : Option Addr} :
      lone.call.updateCall = some ⟨kind, session, pPart, len, slot⟩ →
      (pPart = null → len = 0) → slot ≠ some null →
      Between (held ++ lone.memory.slice B.target .bytes pPart len) calls parts →
      Between held (lone :: calls) (lone.memory.slice B.target .bytes pPart len :: parts)
  | asked {held : Bytes} {calls : List (LoneCall B)} {parts : List Bytes} {lone : LoneCall B}
      {data : Option (Addr × CkUlong)} {output slot : Addr} {length : Nat} :
      lone.call.outputCall = some ⟨kind, session, data, output, slot⟩ →
      ¬ OutputCall.BadArguments ⟨kind, session, data, output, slot⟩ →
      B.measure (lone.os 0) kind ⟨object, params, (OutputCall.given
        ⟨kind, session, data, output, slot⟩ B.target lone.memory).getD held⟩ = .ok length →
      (output ≠ null → lone.memory .ulong slot < length) →
      Between held calls parts → Between held (lone :: calls) parts

/-- How these calls are answered: parts and length queries succeed, attempts are told
that the buffer is too small, and either way the announced length is stored. -/
inductive Answered : Bytes → List (LoneCall B) → List (CkRv × Caller) → Prop where
  | nil (held : Bytes) : Answered held [] []
  | part {held : Bytes} {calls : List (LoneCall B)} {results : List (CkRv × Caller)}
      {lone : LoneCall B} {pPart : Addr} {len : CkUlong} {slot : Option Addr} (after : Caller) :
      lone.call.updateCall = some ⟨kind, session, pPart, len, slot⟩ →
      Answered (held ++ lone.memory.slice B.target .bytes pPart len) calls results →
      Answered held (lone :: calls) ((.ok, after) :: results)
  | asked {held : Bytes} {calls : List (LoneCall B)} {results : List (CkRv × Caller)}
      {lone : LoneCall B} {data : Option (Addr × CkUlong)} {output slot : Addr} {after : Caller} :
      lone.call.outputCall = some ⟨kind, session, data, output, slot⟩ →
      B.measure (lone.os 0) kind ⟨object, params, (OutputCall.given
        ⟨kind, session, data, output, slot⟩ B.target lone.memory).getD held⟩ =
          .ok (after.memory .ulong slot) →
      Answered held calls results →
      Answered held (lone :: calls)
        ((if output = null then .ok else .bufferTooSmall, after) :: results)

structure HasRoom (lone : LoneCall B) (data : Bytes) (output slot : Addr) : Prop where
  buffer : output ≠ null
  counted : slot ≠ null
  room : ∃ length, B.measure (lone.os 0) kind ⟨object, params, data⟩ = .ok length ∧
    length ≤ lone.memory .ulong slot

/-- The last call passes on what the backend made of its data: an error, or the output,
copied and with its length stored. -/
def PassesOn (made : Except CryptoError Bytes) (output slot : Addr) (result : CkRv × Caller) :
    Prop :=
  match made with
  | .error err => result.1 = cryptoErrorToRv B.target err
  | .ok bytes => result.1 = .ok ∧ result.2.memory .ulong slot = bytes.length ∧
      result.2.memory.slice B.target .bytes output bytes.length = bytes

end Scripts

section Multipart
variable {registry : Registry B} {kind : Kind} {session : CkSessionHandle}
  {handle : CkObjectHandle} {params : kind.Params} {object : kind.Usable B}

theorem asked_alone {held : Bytes} {manager : Manager B} {lone : LoneCall B}
    {data : Option (Addr × CkUlong)} {output slot : Addr} {length : Nat}
    (holding : Holding registry kind session handle params held manager)
    (found : usable kind (registry handle) = some object)
    (outputs : lone.call.outputCall = some ⟨kind, session, data, output, slot⟩)
    (fine : ¬ OutputCall.BadArguments ⟨kind, session, data, output, slot⟩)
    (announced : B.measure (lone.os 0) kind ⟨object, params, (OutputCall.given
      ⟨kind, session, data, output, slot⟩ B.target lone.memory).getD held⟩ = .ok length)
    (noRoom : output ≠ null → lone.memory .ulong slot < length) :
    ∃ after : Caller, lone.outcome (some manager) =
        ((if output = null then .ok else .bufferTooSmall, after), some manager) ∧
      after.memory .ulong slot = length ∧ consumingCalls (lone.events (some manager)) = [] := by
  -- A length query or an attempt without room changes nothing and stores the length.
  obtain ⟨events, rv, after, left, recorded, ended, outcome⟩ :=
    output_alone outputs fine lone.os lone.memory manager
  have asked : manager.measured ⟨kind, session, data, output, slot⟩ lone.memory (lone.os 0) =
      .ok length := by
    rw [Manager.measured, input_holding holding found]
    exact announced
  have stored : B.target.asUlong length = length :=
    Target.as_ulong_of_lt (B.measure_fits _ _ _ _ announced)
  have quiet : performedInput (OutputCall.queryEvent manager ⟨kind, session, data, output, slot⟩
      lone.memory (lone.os 0)) = none := query_performs_nothing ..
  rw [LoneCall.outcome, LoneCall.events, ended, recorded]
  cases outcome with
  | queryFailed err refused => cases asked.symm.trans refused
  | measured other asked' nothing =>
      cases asked.symm.trans asked'
      refine ⟨_, by rw [if_pos nothing], ?_, by simp [consumingCalls, quiet]⟩
      simp [stored]
  | tooSmall other asked' present short =>
      cases asked.symm.trans asked'
      refine ⟨_, by rw [if_neg present], ?_, by simp [consumingCalls, quiet]⟩
      simp [stored]
  | failed other err asked' present room | delivered other bytes asked' present room =>
      -- The length announced is the one there was no room for.
      cases asked.symm.trans asked'
      exact absurd (noRoom present) (Nat.not_lt.mpr room)

theorem start_alone {manager : Manager B} {lone : LoneCall B}
    (idle : manager.operationState kind session = .idle)
    (found : usable kind (manager.registry handle) = some object)
    (starts : Starts kind session handle params lone) :
    ∃ after begun, lone.outcome (some manager) = ((.ok, after), some begun) ∧
      consumingCalls (lone.events (some manager)) = [] ∧
      Holding manager.registry kind session handle params [] begun := by
  obtain ⟨pMechanism, read, inits, present, reading⟩ := starts
  obtain ⟨accepted, holding⟩ : (manager.start kind session handle params).1 = .ok () ∧ _ :=
    start_holding idle found
  obtain ⟨ended, recorded⟩ := init_alone inits present lone.os manager reading
  refine ⟨read, _, ?_, ?_, holding⟩
  · rw [LoneCall.outcome, ended, accepted]
    rfl
  · rw [LoneCall.events, recorded]
    simp [consumingCalls, start_performs_nothing]

theorem part_alone {held : Bytes} {manager : Manager B} {lone : LoneCall B} {pPart : Addr}
    {len : CkUlong} {slot : Option Addr}
    (holding : Holding registry kind session handle params held manager)
    (updates : lone.call.updateCall = some ⟨kind, session, pPart, len, slot⟩)
    (noPart : pPart = null → len = 0) (noSlot : slot ≠ some null)
    (small : held.length + len ≤ 65536) :
    ∃ after grown, lone.outcome (some manager) = ((.ok, after), some grown) ∧
      consumingCalls (lone.events (some manager)) = [] ∧
      Holding registry kind session handle params
        (held ++ lone.memory.slice B.target .bytes pPart len) grown := by
  -- The limit on one part is the limit on all of them.
  have fine : ¬ UpdateCall.BadArguments ⟨kind, session, pPart, len, slot⟩ := by
    rintro (missing | large | ⟨nothing, some_⟩)
    · exact noSlot missing
    · have limit : @LT.lt Nat _ 65536 len := large
      omega
    · exact some_ (noPart nothing)
  obtain ⟨rv, left, recorded⟩ := update_alone updates fine lone.os lone.memory manager
  have length : (lone.memory.slice B.target .bytes pPart len).length = len :=
    Memory.slice_length _ _ _ _ _
  have room : held.length + (lone.memory.slice B.target .bytes pPart len).length ≤ 65536 := by
    rw [length]
    exact small
  obtain ⟨accepted, grown⟩ := update_holding holding room
  refine ⟨(lone.outcome (some manager)).1.2, _, ?_, ?_, grown⟩
  · refine Prod.ext (Prod.ext ?_ rfl) left
    exact rv.trans (by rw [UpdateCall.part, accepted]; rfl)
  · rw [LoneCall.events, recorded]
    simp [consumingCalls, update_performs_nothing]

/-- The run lemma: the parts accumulate, and nothing else happens to the operation. -/
theorem between_run {held : Bytes} {calls : List (LoneCall B)} {parts : List Bytes}
    (between : Between kind session params object held calls parts)
    (found : usable kind (registry handle) = some object)
    (small : held.length + parts.flatten.length ≤ 65536) {manager : Manager B}
    (holding : Holding registry kind session handle params held manager) :
    ∃ results left, sequence calls (some manager) = (results, some left) ∧
      Answered kind session params object held calls results ∧
      consumingCalls (sequenceEvents calls (some manager)) = [] ∧
      Holding registry kind session handle params (held ++ parts.flatten) left := by
  induction between generalizing manager with
  | nil held => exact ⟨[], manager, rfl, .nil held, rfl, by simpa using holding⟩
  | @part held calls parts lone pPart len slot updates noPart noSlot rest ih =>
      have length : (lone.memory.slice B.target .bytes pPart len).length = len :=
        Memory.slice_length _ _ _ _ _
      simp only [List.flatten_cons, List.length_append, length] at small
      obtain ⟨after, grown, ended, quiet, next⟩ :=
        part_alone holding updates noPart noSlot (by omega)
      obtain ⟨results, left, followed, answered, silent, last⟩ :=
        ih (by rw [List.length_append, length]; omega) next
      -- The part is behind what was held before, and so are the later ones.
      refine ⟨(.ok, after) :: results, left, ?_, .part after updates answered, ?_, ?_⟩
      · simp only [sequence, ended, followed]
      · rw [sequenceEvents, ended, consuming_calls_append, quiet, silent, List.append_nil]
      · rw [List.flatten_cons, ← List.append_assoc]
        exact last
  | asked outputs fine announced noRoom rest ih =>
      obtain ⟨after, ended, stored, quiet⟩ :=
        asked_alone holding found outputs fine announced noRoom
      obtain ⟨results, left, followed, answered, silent, last⟩ := ih small holding
      refine ⟨_ :: results, left, ?_, .asked outputs (by rw [stored]; exact announced) answered,
        ?_, last⟩
      · simp only [sequence, ended, followed]
      · rw [sequenceEvents, ended, consuming_calls_append, quiet, silent, List.append_nil]

theorem last_alone {held : Bytes} {manager : Manager B} {lone : LoneCall B}
    {data : Option (Addr × CkUlong)} {output slot : Addr} {whole : Bytes}
    (holding : Holding registry kind session handle params held manager)
    (found : usable kind (registry handle) = some object)
    (outputs : lone.call.outputCall = some ⟨kind, session, data, output, slot⟩)
    (fine : ¬ OutputCall.BadArguments ⟨kind, session, data, output, slot⟩)
    (covers : (OutputCall.given ⟨kind, session, data, output, slot⟩ B.target lone.memory).getD
      held = whole) (room : HasRoom kind params object lone whole output slot) :
    consumingCalls (lone.events (some manager)) = [⟨kind, ⟨object, params, whole⟩⟩] ∧
      PassesOn (B := B) (B.perform (lone.os 1) kind ⟨object, params, whole⟩) output slot
        (lone.outcome (some manager)).1 := by
  subst covers
  obtain ⟨length, announced, enough⟩ := room.room
  obtain ⟨events, rv, after, left, recorded, ended, outcome⟩ :=
    output_alone outputs fine lone.os lone.memory manager
  have known := input_holding holding found
    (OutputCall.given ⟨kind, session, data, output, slot⟩ B.target lone.memory)
  have asked : manager.measured ⟨kind, session, data, output, slot⟩ lone.memory (lone.os 0) =
      .ok length := by
    rw [Manager.measured, known]
    exact announced
  have made : manager.performed ⟨kind, session, data, output, slot⟩ lone.memory (lone.os 1) =
      B.perform (lone.os 1) kind ⟨object, params, (OutputCall.given
        ⟨kind, session, data, output, slot⟩ B.target lone.memory).getD held⟩ := by
    rw [Manager.performed, known]
    rfl
  have calls := consumed_once ⟨kind, session, data, output, slot⟩ known (lone.os 0) (lone.os 1)
  rw [LoneCall.outcome, LoneCall.events, ended, recorded]
  cases outcome with
  | queryFailed err refused => cases asked.symm.trans refused
  | measured other asked' nothing => exact absurd nothing room.buffer
  | tooSmall other asked' present short =>
      cases asked.symm.trans asked'
      exact absurd short (Nat.not_lt.mpr enough)
  | failed other err asked' present fits failed =>
      refine ⟨calls, ?_⟩
      rw [← made, failed]
      rfl
  | delivered other bytes asked' present fits performed =>
      refine ⟨calls, ?_⟩
      have stored : B.target.asUlong bytes.length = bytes.length := by
        rw [made] at performed
        exact Target.as_ulong_of_lt (B.perform_fits _ _ _ _ performed)
      rw [← made, performed]
      refine ⟨rfl, ?_, ?_⟩
      · simp [stored]
      · simp only [Caller.stored_memory, Caller.copied_memory]
        rw [Memory.slice_set_other _ _ _ _ _ _ (by decide)]
        exact Memory.slice_set_slice _ _ _ _

end Multipart

/-- An operation run in parts: a start on an idle session, anything that may stand in
between, and a final call with enough room. -/
structure MultipartRun (B : Backend) (kind : Kind) where
  manager : Manager B
  session : CkSessionHandle
  handle : CkObjectHandle
  params : kind.Params
  object : kind.Usable B
  start : LoneCall B
  calls : List (LoneCall B)
  parts : List Bytes
  final : LoneCall B
  output : Addr
  slot : Addr
  idle : manager.operationState kind session = .idle
  found : usable kind (manager.registry handle) = some object
  starts : Starts kind session handle params start
  between : Between kind session params object [] calls parts
  small : parts.flatten.length ≤ 65536
  finals : final.call.outputCall = some ⟨kind, session, none, output, slot⟩
  room : HasRoom kind params object final parts.flatten output slot

namespace MultipartRun
variable {kind : Kind} (multi : MultipartRun B kind)

def data : Bytes := multi.parts.flatten

def input : BackendInput B kind := ⟨multi.object, multi.params, multi.data⟩

def script : List (LoneCall B) := multi.start :: (multi.calls ++ [multi.final])

end MultipartRun

/-- The same operation started the same way, and finished by one call on all the data. -/
structure SingleShotRun {kind : Kind} (multi : MultipartRun B kind) where
  start : LoneCall B
  whole : LoneCall B
  pData : Addr
  len : CkUlong
  output : Addr
  slot : Addr
  starts : Starts kind multi.session multi.handle multi.params start
  wholes : whole.call.outputCall = some ⟨kind, multi.session, some (pData, len), output, slot⟩
  present : pData ≠ null
  same : whole.memory.slice B.target .bytes pData len = multi.data
  room : HasRoom kind multi.params multi.object whole multi.data output slot

theorem multipart_run {kind : Kind} (multi : MultipartRun B kind) :
    consumingCalls (sequenceEvents multi.script (some multi.manager)) = [⟨kind, multi.input⟩] ∧
      ∃ started results last,
        (sequence multi.script (some multi.manager)).1 = started :: (results ++ [last]) ∧
        started.1 = .ok ∧
        Answered kind multi.session multi.params multi.object [] multi.calls results ∧
        PassesOn (B := B) (B.perform (multi.final.os 1) kind multi.input) multi.output multi.slot
          last := by
  obtain ⟨read, begun, started, noCall, fresh⟩ := start_alone multi.idle multi.found multi.starts
  obtain ⟨results, left, followed, answered, silent, holding⟩ :=
    between_run multi.between multi.found (by simpa using multi.small) fresh
  have fine : ¬ OutputCall.BadArguments ⟨kind, multi.session, none, multi.output, multi.slot⟩ := by
    rintro (missing | ⟨_, _, noData, _⟩)
    · exact multi.room.counted missing
    · cases noData
  obtain ⟨called, passed⟩ := last_alone holding multi.found multi.finals fine rfl multi.room
  constructor
  · simp only [MultipartRun.script, sequenceEvents, sequence_events_append, started, followed,
      consuming_calls_append, List.append_nil]
    rw [noCall, silent, called]
    rfl
  · refine ⟨(.ok, read), results, (multi.final.outcome (some left)).1, ?_, rfl, answered, passed⟩
    simp only [MultipartRun.script, sequence, sequence_append, started, followed]

theorem single_shot_run {kind : Kind} {multi : MultipartRun B kind} (single : SingleShotRun multi) :
    consumingCalls (sequenceEvents [single.start, single.whole] (some multi.manager)) =
        [⟨kind, multi.input⟩] ∧
      ∃ started last,
        (sequence [single.start, single.whole] (some multi.manager)).1 = [started, last] ∧
        started.1 = .ok ∧
        PassesOn (B := B) (B.perform (single.whole.os 1) kind multi.input) single.output
          single.slot last := by
  obtain ⟨read, begun, started, noCall, fresh⟩ := start_alone multi.idle multi.found single.starts
  -- What fits the buffer of the operation fits one call.
  have length : single.len ≤ maxDataLen := by
    have total := multi.small
    have sizes := congrArg List.length single.same
    rw [Memory.slice_length] at sizes
    rw [sizes]
    exact total
  have fine : ¬ OutputCall.BadArguments
      ⟨kind, multi.session, some (single.pData, single.len), single.output, single.slot⟩ := by
    rintro (missing | ⟨_, _, given, nothing | large⟩)
    · exact single.room.counted missing
    · cases given
      exact single.present nothing
    · cases given
      exact absurd length (Nat.not_le.mpr large)
  obtain ⟨called, passed⟩ := last_alone fresh multi.found single.wholes fine single.same single.room
  constructor
  · simp only [sequenceEvents, started, consuming_calls_append, List.append_nil]
    rw [noCall, called]
    rfl
  · refine ⟨(.ok, read), (single.whole.outcome (some begun)).1, ?_, rfl, passed⟩
    simp only [sequence, started]

/-- Either way the backend is called once to run the operation, with the same input,
and what it makes of it is passed on. -/
theorem multipart_equals_single_shot {kind : Kind} (multi : MultipartRun B kind)
    (single : SingleShotRun multi) :
    (consumingCalls (sequenceEvents multi.script (some multi.manager)) = [⟨kind, multi.input⟩] ∧
        consumingCalls (sequenceEvents [single.start, single.whole] (some multi.manager)) =
          [⟨kind, multi.input⟩]) ∧
      (∃ started results last,
        (sequence multi.script (some multi.manager)).1 = started :: (results ++ [last]) ∧
        started.1 = .ok ∧
        Answered kind multi.session multi.params multi.object [] multi.calls results ∧
        PassesOn (B := B) (B.perform (multi.final.os 1) kind multi.input) multi.output multi.slot
          last) ∧
      ∃ started last,
        (sequence [single.start, single.whole] (some multi.manager)).1 = [started, last] ∧
        started.1 = .ok ∧
        PassesOn (B := B) (B.perform (single.whole.os 1) kind multi.input) single.output
          single.slot last := by
  obtain ⟨oneCall, inParts⟩ := multipart_run multi
  obtain ⟨sameCall, atOnce⟩ := single_shot_run single
  exact ⟨⟨oneCall, sameCall⟩, inParts, atOnce⟩

/-! A signature over three bytes in two parts, with a length query and a failed attempt
between them. Asked for the signature itself, CNG answers with the given status. -/
section Example
variable (status : UInt32)

def signsWith : Windows.Cng := .steady [.forCert 7 [1] .ec] (fun _ => 64) status

def signMemory : Memory :=
  ((Memory.blank.set .mechanism 32 ⟨ckmEcdsa, null, 0⟩).set .ulong 64 64).set .ulong 72 63

def signCall (call : ExportedCall) : LoneCall Windows.backend :=
  ⟨call, signMemory, fun _ => signsWith status⟩

theorem sign_final_fine {output slot : Addr} (counted : slot ≠ null) :
    ¬ OutputCall.BadArguments ⟨.sign, 1, none, output, slot⟩ := by
  rintro (missing | ⟨_, _, noData, _⟩)
  · exact counted missing
  · cases noData

def twoParts : MultipartRun Windows.backend .sign where
  manager := .new (signsWith status)
  session := 1
  handle := 1
  params := none
  object := .forCert 7 [1] .ec
  start := signCall status (.cSignInit 1 32 1)
  calls := [signCall status (.cSignUpdate 1 16 1), signCall status (.cSignFinal 1 null 64),
    signCall status (.cSignFinal 1 128 72), signCall status (.cSignUpdate 1 17 2)]
  parts := [signMemory.slice .windows .bytes 16 1, signMemory.slice .windows .bytes 17 2]
  final := signCall status (.cSignFinal 1 128 64)
  output := 128
  slot := 64
  idle := Manager.new_operation_idle _ _ _
  found := rfl
  starts := ⟨32, _, rfl, by decide, rfl⟩
  between := by
    have queried (output slot : Addr) : (ExportedCall.cSignFinal 1 output slot).outputCall =
      some ⟨.sign, 1, none, output, slot⟩ := rfl
    refine .part (rfl : (ExportedCall.cSignUpdate 1 16 1).updateCall =
      some ⟨.sign, 1, 16, 1, none⟩) (by decide) (by decide) ?_
    refine .asked (queried null 64) (sign_final_fine (by decide)) (rfl : _ = Except.ok 64)
      (fun present => absurd rfl present) ?_
    refine .asked (queried 128 72) (sign_final_fine (by decide)) (rfl : _ = Except.ok 64)
      (fun _ => Nat.lt_succ_self 63) ?_
    exact .part (rfl : (ExportedCall.cSignUpdate 1 17 2).updateCall =
      some ⟨.sign, 1, 17, 2, none⟩) (by decide) (by decide) (.nil _)
  small := by decide
  finals := rfl
  room := ⟨by decide, by decide, 64, rfl, Nat.le_refl 64⟩

def atOnce : SingleShotRun (twoParts status) where
  start := signCall status (.cSignInit 1 32 1)
  whole := signCall status (.cSign 1 16 3 128 64)
  pData := 16
  len := 3
  output := 128
  slot := 64
  starts := ⟨32, _, rfl, by decide, rfl⟩
  wholes := rfl
  present := by decide
  same := rfl
  room := ⟨by decide, by decide, 64, rfl, Nat.le_refl 64⟩

end Example

/-- The last call need not succeed: a backend can announce the length of a signature
and then fail to make it. -/
theorem final_call_may_fail :
    ¬ ∀ (kind : Kind) (multi : MultipartRun Windows.backend kind) (last : CkRv × Caller),
        (sequence multi.script (some multi.manager)).1.getLast? = some last → last.1 = .ok := by
  intro succeeds
  have failed : ((sequence (twoParts 0x80090003).script
      (some (twoParts 0x80090003).manager)).1.getLast?.all fun last =>
        decide (last.1 = .keyHandleInvalid)) = true := by decide +kernel
  cases ended : (sequence (twoParts 0x80090003).script
      (some (twoParts 0x80090003).manager)).1.getLast? with
  | none =>
      obtain ⟨_, started, results, last, returned, _⟩ := multipart_run (twoParts 0x80090003)
      simp [returned] at ended
  | some last =>
      rw [ended, Option.all_some, decide_eq_true_eq] at failed
      rw [succeeds .sign _ last ended] at failed
      cases failed

/-- With a backend that can, both ways end in the same call of it. -/
theorem two_parts_equal_at_once :
    consumingCalls (sequenceEvents (twoParts 0).script (some (twoParts 0).manager)) =
      consumingCalls (sequenceEvents [(atOnce 0).start, (atOnce 0).whole]
        (some (twoParts 0).manager)) := by
  obtain ⟨⟨inParts, whole⟩, _⟩ := multipart_equals_single_shot (twoParts 0) (atOnce 0)
  exact inParts.trans whole.symm

end OsClientCerts
