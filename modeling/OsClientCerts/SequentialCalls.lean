import OsClientCerts.InputFunctions
import OsClientCerts.OperationAutomata

/-!
Calls made by one thread with nothing in between. The stream says what the
operating system does at each use of the proxy slot.
-/

namespace OsClientCerts
open Resumption
variable {B : Backend}

/-- What a call made alone returns, and the module state it leaves. -/
def ExportedCall.alone (exported : ExportedCall) (os : Nat → B.Os) (memory : Memory)
    (state : ModuleState B) : (CkRv × Caller) × ModuleState B :=
  execute (moduleHandler B) (exported.run B.target ⟨memory, []⟩) os state

def ExportedCall.aloneEvents (exported : ExportedCall) (os : Nat → B.Os) (memory : Memory)
    (state : ModuleState B) : List (ModuleEvent B) :=
  executeEvents (moduleHandler B) (exported.run B.target ⟨memory, []⟩) os state

section Alone
variable (exported : ExportedCall) (os : Nat → B.Os) (memory : Memory) (state : ModuleState B)

theorem alone_follows : Follows (moduleHandler B) (exported.run B.target ⟨memory, []⟩)
    (exported.aloneEvents os memory state) (exported.alone os memory state).1 :=
  execute_follows _ _ os state

theorem alone_linked : Linked (moduleHandler B) state (exported.aloneEvents os memory state)
    (exported.alone os memory state).2 := execute_linked _ os state

theorem alone_oracles : (exported.aloneEvents os memory state).map Event.oracle =
    (List.range (exported.aloneEvents os memory state).length).map os := execute_oracles _ _ os state

end Alone

theorem linked_single {start left : ModuleState B} {event : ModuleEvent B}
    (linked : Linked (moduleHandler B) start [event] left) :
    event.before = start ∧ left = event.after (moduleHandler B) := by
  obtain ⟨met, rest⟩ := linked_cons_cases linked
  exact ⟨met, (linked_replays rest).symm⟩

theorem linked_pair {start left : ModuleState B} {first second : ModuleEvent B}
    (linked : Linked (moduleHandler B) start [first, second] left) :
    first.before = start ∧ second.before = first.after (moduleHandler B) ∧
      left = second.after (moduleHandler B) := by
  obtain ⟨met, rest⟩ := linked_cons_cases linked
  exact ⟨met, linked_single rest⟩

@[simp] theorem event_after {ε α : Type} [FromUnit ε] (fn : ProxyFn ε α) (os : B.Os)
    (state : ModuleState B) : (fn.event os state).after (moduleHandler B) = fn.left os state :=
  (Prod.mk.inj (handle_proxy fn os state)).2

@[simp] theorem event_before {ε α : Type} (fn : ProxyFn ε α) (os : B.Os)
    (state : ModuleState B) : (fn.event os state).before = state := rfl

theorem single_use {ε α : Type} [FromUnit ε] {fn : ProxyFn ε α} {os : Nat → B.Os} {now : B.Os}
    {state met left : ModuleState B} {events : List (ModuleEvent B)}
    (only : events = [fn.event now met]) (linked : Linked (moduleHandler B) state events left)
    (oracles : events.map Event.oracle = (List.range events.length).map os) :
    now = os 0 ∧ met = state ∧ left = fn.left (os 0) state := by
  -- A call that uses the slot once uses it in the state it was made in.
  subst only
  obtain ⟨same, leaves⟩ := linked_single linked
  have first : now = os 0 := (List.cons.inj oracles).1
  rw [event_before] at same
  rw [event_after, first, same] at leaves
  exact ⟨first, same, leaves⟩

namespace Manager

theorem ended_idle (manager : Manager B) (kind : Kind) (session : CkSessionHandle) :
    (manager.ended kind session).operationState kind session = .idle := by
  have own := (manager.operate_own kind session .finish).2
  cases held : manager.operationState kind session with
  | idle =>
      rw [held] at own
      exact own
  | active handle params buffer =>
      rw [held] at own
      exact own

end Manager

section Delivery
variable (manager : Manager B) (call : OutputCall) (memory : Memory) (os : B.Os)

def Manager.measured : Except CryptoError Nat :=
  manager.inputFor call.kind call.session (call.given B.target memory) >>= B.measure os call.kind

def Manager.performed : Except CryptoError Bytes :=
  manager.inputFor call.kind call.session (call.given B.target memory) >>= B.perform os call.kind

def OutputCall.queryEvent : ModuleEvent B :=
  (ManagerProxy.query call.kind call.session (call.given B.target memory)).event os (some manager)

def OutputCall.consumeEvent : ModuleEvent B :=
  (ManagerProxy.consume call.kind call.session (call.given B.target memory)).event os
    (some manager)

end Delivery

/-- The input of an operation is its own parameters and, unless data is passed
along, its own buffer. -/
theorem input_for_active {manager : Manager B} {kind : Kind} {session : CkSessionHandle}
    {given : Option Bytes} {input : BackendInput B kind}
    (known : manager.inputFor kind session given = .ok input) :
    ∃ handle buffer,
      manager.operationState kind session = .active handle input.params buffer ∧
        input.data = given.getD buffer := by
  have resolved {operation : Operation kind} {data : Bytes}
      (found : manager.resolve kind operation data = .ok input) :
      input.params = operation.params ∧ input.data = data := by
    unfold Manager.resolve at found
    split at found
    · cases found
      exact ⟨rfl, rfl⟩
    · cases found
  cases held : (manager.operations kind)[session]? with
  | none => cases given <;> simp [Manager.inputFor, Manager.getLength, Manager.getFinalLength, held]
      at known
  | some operation =>
      rcases operation with ⟨handle, params, buffer⟩
      refine ⟨handle, buffer, ?_⟩
      cases given with
      | none =>
          simp only [Manager.inputFor, Manager.getFinalLength, held] at known
          obtain ⟨rfl, same⟩ := resolved known
          exact ⟨Manager.operation_state_active.mpr held, same⟩
      | some data =>
          simp only [Manager.inputFor, Manager.getLength, held] at known
          obtain ⟨rfl, same⟩ := resolved known
          exact ⟨Manager.operation_state_active.mpr held, same⟩

theorem measured_ok {manager : Manager B} {call : OutputCall} {memory : Memory} {os : B.Os}
    {length : Nat} (asked : manager.measured call memory os = .ok length) :
    ∃ input, manager.inputFor call.kind call.session (call.given B.target memory) = .ok input ∧
      B.measure os call.kind input = .ok length ∧
      manager.operationState call.kind call.session ≠ .idle := by
  unfold Manager.measured at asked
  cases known : manager.inputFor call.kind call.session (call.given B.target memory) with
  | error err =>
      rw [known] at asked
      cases asked
  | ok input =>
      rw [known] at asked
      obtain ⟨handle, buffer, active, _⟩ := input_for_active known
      refine ⟨input, rfl, asked, ?_⟩
      rw [active]
      intro idle
      cases idle

/-- The ways in which a call with an output buffer can end when it is made alone. -/
inductive DeliveredAlone (call : OutputCall) (memory : Memory) (os : Nat → B.Os)
    (manager : Manager B) : List (ModuleEvent B) → CkRv → Caller → ModuleState B → Prop where
  | queryFailed (err : CryptoError) :
      manager.measured call memory (os 0) = .error err →
      DeliveredAlone call memory os manager [call.queryEvent manager memory (os 0)]
        (cryptoErrorToRv B.target err) (call.reading ⟨memory, []⟩) (some manager)
  | measured (length : Nat) :
      manager.measured call memory (os 0) = .ok length → call.output = null →
      DeliveredAlone call memory os manager [call.queryEvent manager memory (os 0)] .ok
        ((call.reading ⟨memory, []⟩).stored .ulong call.lengthSlot (B.target.asUlong length))
        (some manager)
  | tooSmall (length : Nat) :
      manager.measured call memory (os 0) = .ok length → call.output ≠ null →
      memory .ulong call.lengthSlot < length →
      DeliveredAlone call memory os manager [call.queryEvent manager memory (os 0)] .bufferTooSmall
        (((call.reading ⟨memory, []⟩).loaded .ulong call.lengthSlot 1).stored .ulong
          call.lengthSlot (B.target.asUlong length)) (some manager)
  | failed (length : Nat) (err : CryptoError) :
      manager.measured call memory (os 0) = .ok length → call.output ≠ null →
      length ≤ memory .ulong call.lengthSlot →
      manager.performed call memory (os 1) = .error err →
      DeliveredAlone call memory os manager
        [call.queryEvent manager memory (os 0), call.consumeEvent manager memory (os 1)]
        (cryptoErrorToRv B.target err)
        ((call.reading ⟨memory, []⟩).loaded .ulong call.lengthSlot 1)
        (some (manager.ended call.kind call.session))
  | delivered (length : Nat) (output : Bytes) :
      manager.measured call memory (os 0) = .ok length → call.output ≠ null →
      length ≤ memory .ulong call.lengthSlot →
      manager.performed call memory (os 1) = .ok output →
      DeliveredAlone call memory os manager
        [call.queryEvent manager memory (os 0), call.consumeEvent manager memory (os 1)] .ok
        ((((call.reading ⟨memory, []⟩).loaded .ulong call.lengthSlot 1).copied B.target .bytes
          call.output output).stored .ulong call.lengthSlot (B.target.asUlong output.length))
        (some (manager.ended call.kind call.session))

theorem query_then_consume {kind : Kind} {session : CkSessionHandle} {given : Option Bytes}
    {os : Nat → B.Os} {manager : Manager B} {events : List (ModuleEvent B)}
    {left : ModuleState B} {now later : B.Os} {state next : ModuleState B}
    (both : events = [(ManagerProxy.query kind session given).event now state,
      (ManagerProxy.consume kind session given).event later next])
    (linked : Linked (moduleHandler B) (some manager) events left)
    (oracles : events.map Event.oracle = (List.range events.length).map os) :
    now = os 0 ∧ later = os 1 ∧ state = some manager ∧ next = some manager ∧
      left = some (manager.ended kind session) := by
  -- The query leaves the manager as it is, so the consuming step meets it too.
  subst both
  obtain ⟨met, between, leaves⟩ := linked_pair linked
  rw [event_before] at met between
  subst met
  rw [event_after, (query_answer kind session given now manager).2] at between
  subst between
  rw [event_after, (consume_answer kind session given later manager).2] at leaves
  obtain ⟨first, rest⟩ := List.cons.inj oracles
  exact ⟨first, (List.cons.inj rest).1, rfl, rfl, leaves⟩

theorem delivered_alone {call : OutputCall} {memory : Memory} {after : Caller}
    {os : Nat → B.Os} {manager : Manager B} {events : List (ModuleEvent B)} {rv : CkRv}
    {left : ModuleState B}
    (delivered : Delivered
      (ManagerProxy.query call.kind call.session (call.given B.target memory))
      (ManagerProxy.consume call.kind call.session (call.given B.target memory)) call.output
      call.lengthSlot (call.reading ⟨memory, []⟩) events rv after)
    (linked : Linked (moduleHandler B) (some manager) events left)
    (oracles : events.map Event.oracle = (List.range events.length).map os) :
    DeliveredAlone call memory os manager events rv after left := by
  have query (now : B.Os) :=
    query_answer call.kind call.session (call.given B.target memory) now manager
  have consume (now : B.Os) :=
    consume_answer call.kind call.session (call.given B.target memory) now manager
  -- After one event the state is the first one still; after two the operation is over.
  have one {now : B.Os} {state : ModuleState B} (only : events =
      [(ManagerProxy.query call.kind call.session (call.given B.target memory)).event now state]) :
      now = os 0 ∧ state = some manager ∧ left = some manager := by
    obtain ⟨first, met, leaves⟩ := single_use only linked oracles
    exact ⟨first, met, leaves.trans (query _).2⟩
  have two {now later : B.Os} {state next : ModuleState B} (both : events =
      [(ManagerProxy.query call.kind call.session (call.given B.target memory)).event now state,
        (ManagerProxy.consume call.kind call.session (call.given B.target memory)).event later
          next]) := query_then_consume both linked oracles
  cases delivered with
  -- With a manager in the slot, both calls are answered.
  | unavailable now state absent =>
      obtain ⟨rfl, rfl, _⟩ := one rfl
      rw [(query _).1] at absent
      cases absent
  | queryFailed now state err answered =>
      obtain ⟨rfl, rfl, rfl⟩ := one rfl
      rw [(query _).1] at answered
      exact .queryFailed err (Option.some.inj answered)
  | measured now state length answered nothing =>
      obtain ⟨rfl, rfl, rfl⟩ := one rfl
      rw [(query _).1] at answered
      exact .measured length (Option.some.inj answered) nothing
  | tooSmall now state length answered present short =>
      obtain ⟨rfl, rfl, rfl⟩ := one rfl
      rw [(query _).1] at answered
      rw [OutputCall.reading_memory] at short
      exact .tooSmall length (Option.some.inj answered) present short
  | gone now later state next length answered present room absent =>
      obtain ⟨rfl, rfl, rfl, rfl, _⟩ := two rfl
      rw [(consume _).1] at absent
      cases absent
  | failed now later state next length err answered present room performed =>
      obtain ⟨rfl, rfl, rfl, rfl, rfl⟩ := two rfl
      rw [(query _).1] at answered
      rw [(consume _).1] at performed
      rw [OutputCall.reading_memory] at room
      exact .failed length err (Option.some.inj answered) present room
        (Option.some.inj performed)
  | delivered now later state next length output answered present room performed =>
      obtain ⟨rfl, rfl, rfl, rfl, rfl⟩ := two rfl
      rw [(query _).1] at answered
      rw [(consume _).1] at performed
      rw [OutputCall.reading_memory] at room
      exact .delivered length output (Option.some.inj answered) present room
        (Option.some.inj performed)

theorem output_alone {exported : ExportedCall} {call : OutputCall}
    (outputs : exported.outputCall = some call) (fine : ¬ call.BadArguments) (os : Nat → B.Os)
    (memory : Memory) (manager : Manager B) :
    ∃ events rv after left, exported.aloneEvents os memory (some manager) = events ∧
      exported.alone os memory (some manager) = ((rv, after), left) ∧
      DeliveredAlone call memory os manager events rv after left := by
  rcases output_cases outputs (alone_follows exported os memory (some manager)) with
    ⟨bad, _⟩ | ⟨_, delivered⟩
  · exact absurd bad fine
  · exact ⟨_, _, _, _, rfl, rfl, delivered_alone delivered (alone_linked ..) (alone_oracles ..)⟩

theorem output_refused_alone {exported : ExportedCall} {call : OutputCall}
    (outputs : exported.outputCall = some call) (bad : call.BadArguments) (os : Nat → B.Os)
    (memory : Memory) (state : ModuleState B) :
    exported.alone os memory state = ((.argumentsBad, ⟨memory, []⟩), state) := by
  rcases output_run B.target outputs ⟨memory, []⟩ with ⟨_, run⟩ | ⟨fine, _⟩
  · rw [ExportedCall.alone, run, execute_ret]
  · exact absurd bad fine

theorem output_unavailable_alone {exported : ExportedCall} {call : OutputCall}
    (outputs : exported.outputCall = some call) (os : Nat → B.Os) (memory : Memory) :
    (exported.alone os memory none).1.1 = .argumentsBad ∨
      (exported.alone os memory none).1.1 = .deviceError := by
  have linked := alone_linked exported os memory none
  rcases output_cases outputs (alone_follows exported os memory none) with
    ⟨_, _, refused, _⟩ | ⟨_, delivered⟩
  · exact Or.inl refused
  · right
    generalize exported.aloneEvents os memory none = events at *
    generalize (exported.alone os memory none).1.1 = rv at *
    generalize (exported.alone os memory none).1.2 = after at *
    -- The first event met the empty slot, so it was not answered.
    cases delivered with
    | unavailable | gone => rfl
    | queryFailed _ _ _ answered | measured _ _ _ answered | tooSmall _ _ _ answered
    | failed _ _ _ _ _ _ answered | delivered _ _ _ _ _ _ answered =>
        have met := (linked_cons_cases linked).1
        rw [event_before] at met
        rw [met] at answered
        cases answered

theorem init_alone {exported : ExportedCall} {call : InitCall}
    (inits : exported.initCall = some call) (present : call.pMechanism ≠ null) (os : Nat → B.Os)
    {memory : Memory} (manager : Manager B) {params : call.kind.Params} {read : Caller}
    (reading : call.kind.readParams B.target (memory .mechanism call.pMechanism)
      (Caller.loaded ⟨memory, []⟩ .mechanism call.pMechanism 1) = .ret (.ok params, read)) :
    exported.alone os memory (some manager) =
        ((doneRv B.target (some (manager.start call.kind call.session call.key params).1), read),
          some (manager.start call.kind call.session call.key params).2) ∧
      exported.aloneEvents os memory (some manager) = [(ManagerProxy.start call.kind call.session
        call.key params).event (os 0) (some manager)] := by
  have linked := alone_linked exported os memory (some manager)
  have oracles := alone_oracles exported os memory (some manager)
  rcases init_cases inits (alone_follows exported os memory (some manager)) with
    ⟨nothing, _⟩ | ⟨_, outcome, ⟨ended, _⟩, rest⟩
  · exact absurd nothing present
  · obtain ⟨same, after⟩ := Prod.mk.inj (Prog.ret.inj (reading.symm.trans ended))
    subst same
    rcases rest with ⟨refused, _⟩ | ⟨_, now, met, same, only, answered⟩
    · cases refused
    · cases same
      obtain ⟨rfl, rfl, leaves⟩ := single_use only linked oracles
      obtain ⟨replies, leads⟩ :=
        start_answer call.kind call.session (os 0) manager call.key params
      rw [replies] at answered
      rw [leads] at leaves
      exact ⟨Prod.ext (Prod.ext answered after.symm) leaves, only⟩

theorem init_refused_alone {exported : ExportedCall} {call : InitCall}
    (inits : exported.initCall = some call) (present : call.pMechanism ≠ null) (os : Nat → B.Os)
    {memory : Memory} (state : ModuleState B) {rv : CkRv} {read : Caller}
    (reading : call.kind.readParams B.target (memory .mechanism call.pMechanism)
      (Caller.loaded ⟨memory, []⟩ .mechanism call.pMechanism 1) = .ret (.error rv, read)) :
    exported.alone os memory state = ((rv, read), state) := by
  have linked := alone_linked exported os memory state
  rcases init_cases inits (alone_follows exported os memory state) with
    ⟨nothing, _⟩ | ⟨_, outcome, ⟨ended, _⟩, rest⟩
  · exact absurd nothing present
  · obtain ⟨same, after⟩ := Prod.mk.inj (Prog.ret.inj (reading.symm.trans ended))
    subst same
    rcases rest with ⟨refused, empty⟩ | ⟨_, _, _, accepted, _⟩
    · rw [empty] at linked
      exact Prod.ext (Prod.ext (Except.error.inj refused).symm after.symm)
        (linked_replays linked).symm
    · cases accepted

theorem update_alone {exported : ExportedCall} {call : UpdateCall}
    (updates : exported.updateCall = some call) (fine : ¬ call.BadArguments) (os : Nat → B.Os)
    (memory : Memory) (manager : Manager B) :
    (exported.alone os memory (some manager)).1.1 = doneRv B.target
        (some (manager.update call.kind call.session (call.part B.target memory)).1) ∧
      (exported.alone os memory (some manager)).2 =
        some (manager.update call.kind call.session (call.part B.target memory)).2 ∧
      exported.aloneEvents os memory (some manager) = [(ManagerProxy.update call.kind call.session
        (call.part B.target memory)).event (os 0) (some manager)] := by
  have linked := alone_linked exported os memory (some manager)
  have oracles := alone_oracles exported os memory (some manager)
  rcases update_cases updates (alone_follows exported os memory (some manager)) with
    ⟨bad, _⟩ | ⟨_, now, met, only, answered, _⟩
  · exact absurd bad fine
  · obtain ⟨rfl, rfl, leaves⟩ := single_use only linked oracles
    obtain ⟨replies, leads⟩ :=
      update_answer call.kind call.session (os 0) manager (call.part B.target memory)
    exact ⟨answered.trans (congrArg _ replies), leaves.trans leads, only⟩

end OsClientCerts
