import OsClientCerts.Ffi

/-!
The six functions with an output buffer, and what the manager is asked on their
behalf: first for the length of the output, then, if it fits, for the output.
-/

namespace OsClientCerts
open Resumption

abbrev ModuleEvent (B : Backend) := Event moduleSignature (ModuleState B) B.Os

def Kind.query (kind : Kind) : Option Bytes → OperationRequest kind
  | some data => .getLength data
  | none => .getFinalLength

def Kind.consume (kind : Kind) : Option Bytes → OperationRequest kind
  | some data => .finishWith data
  | none => .finish

namespace ManagerProxy

def query (kind : Kind) (session : CkSessionHandle) : Option Bytes → ProxyFn CryptoError Nat
  | some data => getLength kind session data
  | none => getFinalLength kind session

def consume (kind : Kind) (session : CkSessionHandle) : Option Bytes → ProxyFn CryptoError Bytes
  | some data => finishWith kind session data
  | none => finish kind session

theorem query_requests (kind : Kind) (session : CkSessionHandle) (given : Option Bytes) :
    (query kind session given).Requests kind session (kind.query given) .length := by
  cases given with
  | none => exact get_final_length_requests kind session
  | some data => exact get_length_requests kind session data

theorem consume_requests (kind : Kind) (session : CkSessionHandle) (given : Option Bytes) :
    (consume kind session given).Requests kind session (kind.consume given) .output := by
  cases given with
  | none => exact finish_requests kind session
  | some data => exact finish_with_requests kind session data

end ManagerProxy

namespace Manager
variable {B : Backend} (kind : Kind) (manager : Manager B) (session : CkSessionHandle)

def inputFor : Option Bytes → Except CryptoError (BackendInput B kind)
  | some data => manager.getLength kind session data
  | none => manager.getFinalLength kind session

def ended : Manager B := (manager.finish kind session).2

theorem operate_query (given : Option Bytes) :
    manager.operate kind session (kind.query given) =
      ((manager.inputFor kind session given).map .measures, manager) := by
  -- The length query and the consuming call look at the same operation in the same way.
  cases given <;> rfl

theorem operate_consume (given : Option Bytes) :
    manager.operate kind session (kind.consume given) =
      ((manager.inputFor kind session given).map .performs, manager.ended kind session) := by
  cases given with
  | none =>
      simp only [Kind.consume, operate, inputFor, ended, finish, getFinalLength]
      split <;> rfl
  | some data =>
      simp only [Kind.consume, operate, inputFor, ended, finish, finishWith, getLength]
      split <;> rfl

end Manager

section Answers
variable {B : Backend} {ε α : Type} [FromUnit ε]

def ProxyFn.answer (fn : ProxyFn ε α) (os : B.Os) (state : ModuleState B) : Option (Except ε α) :=
  state.map fun manager => fn.reply (manager.dispatch os fn.arguments).1

def ProxyFn.left (fn : ProxyFn ε α) (os : B.Os) (state : ModuleState B) : ModuleState B :=
  state.map fun manager => (manager.dispatch os fn.arguments).2

theorem handle_proxy (fn : ProxyFn ε α) (os : B.Os) (state : ModuleState B) :
    (((moduleHandler B os (.manager fn.arguments) state).1 : Option ManagerReturnValue).map
        fn.reply, (moduleHandler B os (.manager fn.arguments) state).2) =
      (fn.answer os state, fn.left os state) := by
  cases state <;> rfl

def ProxyFn.event (fn : ProxyFn ε α) (os : B.Os) (state : ModuleState B) : ModuleEvent B :=
  ⟨os, .manager fn.arguments, state⟩

theorem follows_proxy {β : Type} {fn : ProxyFn ε α} {caller : Caller}
    {next : Option (Except ε α) × Caller → Prog moduleSignature β}
    {events : List (ModuleEvent B)} {result : β}
    (follows : Follows (moduleHandler B) (fn.run caller >>= next) events result) :
    ∃ os state tail, events = fn.event os state :: tail ∧
      Follows (moduleHandler B) (next (fn.answer os state, caller)) tail result := by
  obtain ⟨os, state, tail, recorded, rest⟩ := follows_call _ follows
  refine ⟨os, state, tail, recorded, ?_⟩
  rw [← (Prod.mk.inj (handle_proxy fn os state)).1]
  exact rest

end Answers

theorem ProxyFn.Requests.answers {B : Backend} {α : Type} {fn : ProxyFn CryptoError α} {kind : Kind}
    {session : CkSessionHandle} {request : OperationRequest kind}
    {carried : Except CryptoError α → OperationResult}
    (requests : fn.Requests kind session request carried) (os : B.Os) (manager : Manager B) :
    carried (fn.reply (manager.dispatch os fn.arguments).1) =
        Reply.result os request (manager.operate kind session request).1 ∧
      (manager.dispatch os fn.arguments).2 = (manager.operate kind session request).2 := by
  obtain ⟨carries, moves⟩ := Manager.dispatch_operation manager os requests.call
  rw [requests.reply manager os] at carries
  exact ⟨Option.some.inj carries, moves⟩

section OperationAnswers
variable {B : Backend} (kind : Kind) (session : CkSessionHandle) (given : Option Bytes)
  (os : B.Os) (manager : Manager B)

theorem query_answer :
    (ManagerProxy.query kind session given).answer os (some manager) =
        some (manager.inputFor kind session given >>= B.measure os kind) ∧
      (ManagerProxy.query kind session given).left os (some manager) = some manager := by
  obtain ⟨carries, moves⟩ := (ManagerProxy.query_requests kind session given).answers os manager
  rw [Manager.operate_query] at carries moves
  refine ⟨congrArg some ?_, congrArg some moves⟩
  cases known : manager.inputFor kind session given with
  | error err =>
      rw [known] at carries
      cases given <;> exact OperationResult.length.inj carries
  | ok input =>
      rw [known] at carries
      cases given <;> exact OperationResult.length.inj carries

theorem consume_answer :
    (ManagerProxy.consume kind session given).answer os (some manager) =
        some (manager.inputFor kind session given >>= B.perform os kind) ∧
      (ManagerProxy.consume kind session given).left os (some manager) =
        some (manager.ended kind session) := by
  obtain ⟨carries, moves⟩ := (ManagerProxy.consume_requests kind session given).answers os manager
  rw [Manager.operate_consume] at carries moves
  refine ⟨congrArg some ?_, congrArg some moves⟩
  cases known : manager.inputFor kind session given with
  | error err =>
      rw [known] at carries
      cases given <;> exact OperationResult.output.inj carries
  | ok input =>
      rw [known] at carries
      cases given <;> exact OperationResult.output.inj carries

theorem start_answer (handle : CkObjectHandle) (params : kind.Params) :
    (ManagerProxy.start kind session handle params).answer os (some manager) =
        some (manager.start kind session handle params).1 ∧
      (ManagerProxy.start kind session handle params).left os (some manager) =
        some (manager.start kind session handle params).2 := by
  obtain ⟨carries, moves⟩ :=
    (ManagerProxy.start_requests kind session handle params).answers os manager
  rw [Manager.operate_result] at carries
  exact ⟨congrArg some (OperationResult.done.inj carries), congrArg some moves⟩

theorem update_answer (data : Bytes) :
    (ManagerProxy.update kind session data).answer os (some manager) =
        some (manager.update kind session data).1 ∧
      (ManagerProxy.update kind session data).left os (some manager) =
        some (manager.update kind session data).2 := by
  obtain ⟨carries, moves⟩ := (ManagerProxy.update_requests kind session data).answers os manager
  rw [Manager.operate_result] at carries
  exact ⟨congrArg some (OperationResult.done.inj carries), congrArg some moves⟩

end OperationAnswers

/-- The ways in which `deliverOutput` can end, with the events that led there. -/
inductive Delivered {B : Backend} (query : ProxyFn CryptoError Nat)
    (consume : ProxyFn CryptoError Bytes) (pOutput pulOutputLen : Addr) (caller : Caller) :
    List (ModuleEvent B) → CkRv → Caller → Prop where
  | unavailable (os : B.Os) (state : ModuleState B) :
      query.answer os state = none →
      Delivered query consume pOutput pulOutputLen caller [query.event os state]
        .deviceError caller
  | queryFailed (os : B.Os) (state : ModuleState B) (err : CryptoError) :
      query.answer os state = some (.error err) →
      Delivered query consume pOutput pulOutputLen caller [query.event os state]
        (cryptoErrorToRv B.target err) caller
  | measured (os : B.Os) (state : ModuleState B) (length : Nat) :
      query.answer os state = some (.ok length) → pOutput = null →
      Delivered query consume pOutput pulOutputLen caller [query.event os state]
        .ok (caller.stored .ulong pulOutputLen (B.target.asUlong length))
  | tooSmall (os : B.Os) (state : ModuleState B) (length : Nat) :
      query.answer os state = some (.ok length) → pOutput ≠ null →
      caller.memory .ulong pulOutputLen < length →
      Delivered query consume pOutput pulOutputLen caller [query.event os state]
        .bufferTooSmall ((caller.loaded .ulong pulOutputLen 1).stored .ulong pulOutputLen
          (B.target.asUlong length))
  | gone (os os' : B.Os) (state state' : ModuleState B) (length : Nat) :
      query.answer os state = some (.ok length) → pOutput ≠ null →
      length ≤ caller.memory .ulong pulOutputLen → consume.answer os' state' = none →
      Delivered query consume pOutput pulOutputLen caller
        [query.event os state, consume.event os' state'] .deviceError
        (caller.loaded .ulong pulOutputLen 1)
  | failed (os os' : B.Os) (state state' : ModuleState B) (length : Nat) (err : CryptoError) :
      query.answer os state = some (.ok length) → pOutput ≠ null →
      length ≤ caller.memory .ulong pulOutputLen →
      consume.answer os' state' = some (.error err) →
      Delivered query consume pOutput pulOutputLen caller
        [query.event os state, consume.event os' state'] (cryptoErrorToRv B.target err)
        (caller.loaded .ulong pulOutputLen 1)
  | delivered (os os' : B.Os) (state state' : ModuleState B) (length : Nat) (output : Bytes) :
      query.answer os state = some (.ok length) → pOutput ≠ null →
      length ≤ caller.memory .ulong pulOutputLen →
      consume.answer os' state' = some (.ok output) →
      Delivered query consume pOutput pulOutputLen caller
        [query.event os state, consume.event os' state'] .ok
        (((caller.loaded .ulong pulOutputLen 1).copied B.target .bytes pOutput output).stored
          .ulong pulOutputLen (B.target.asUlong output.length))

theorem deliver_output_cases {B : Backend} {query : ProxyFn CryptoError Nat}
    {consume : ProxyFn CryptoError Bytes} {pOutput pulOutputLen : Addr} {caller after : Caller}
    {events : List (ModuleEvent B)} {rv : CkRv}
    (follows : Follows (moduleHandler B)
      (deliverOutput B.target query consume pOutput pulOutputLen caller) events (rv, after)) :
    Delivered query consume pOutput pulOutputLen caller events rv after := by
  obtain ⟨os, state, tail, rfl, rest⟩ := follows_proxy follows
  cases answered : query.answer os state with
  | none =>
      rw [answered] at rest
      obtain ⟨rfl, same⟩ := (follows_ret _).mp rest
      cases same
      exact .unavailable os state answered
  | some measured =>
      rw [answered] at rest
      cases measured with
      | error err =>
          obtain ⟨rfl, same⟩ := (follows_ret _).mp rest
          cases same
          exact .queryFailed os state err answered
      | ok length =>
          by_cases nothing : pOutput = null
          · simp only [nothing, ↓reduceIte] at rest
            obtain ⟨rfl, same⟩ := (follows_ret _).mp rest
            cases same
            exact .measured os state length answered nothing
          · simp only [nothing, ↓reduceIte, ffi_bind, read_cell_run, ret_bind] at rest
            by_cases short : caller.memory .ulong pulOutputLen < length
            · rw [if_pos short] at rest
              obtain ⟨rfl, same⟩ := (follows_ret _).mp rest
              cases same
              exact .tooSmall os state length answered nothing short
            · rw [if_neg short] at rest
              have room : length ≤ caller.memory .ulong pulOutputLen := Nat.le_of_not_lt short
              -- The slot may hold anything by now, or nothing.
              obtain ⟨os', state', tail', rfl, last⟩ := follows_proxy rest
              cases performed : consume.answer os' state' with
              | none =>
                  rw [performed] at last
                  obtain ⟨rfl, same⟩ := (follows_ret _).mp last
                  cases same
                  exact .gone os os' state state' length answered nothing room performed
              | some result =>
                  rw [performed] at last
                  cases result with
                  | error err =>
                      obtain ⟨rfl, same⟩ := (follows_ret _).mp last
                      cases same
                      exact .failed os os' state state' length err answered nothing room performed
                  | ok output =>
                      obtain ⟨rfl, same⟩ := (follows_ret _).mp last
                      cases same
                      exact .delivered os os' state state' length output answered nothing room
                        performed

/-- A call with an output buffer; without data it is one of the `*Final` functions. -/
structure OutputCall where
  kind : Kind
  session : CkSessionHandle
  data : Option (Addr × CkUlong)
  output : Addr
  lengthSlot : Addr

def ExportedCall.outputCall : ExportedCall → Option OutputCall
  | .cSign session pData len pOut pulOut => some ⟨.sign, session, some (pData, len), pOut, pulOut⟩
  | .cSignFinal session pOut pulOut => some ⟨.sign, session, none, pOut, pulOut⟩
  | .cEncrypt session pData len pOut pulOut =>
      some ⟨.encrypt, session, some (pData, len), pOut, pulOut⟩
  | .cEncryptFinal session pOut pulOut => some ⟨.encrypt, session, none, pOut, pulOut⟩
  | .cDecrypt session pData len pOut pulOut =>
      some ⟨.decrypt, session, some (pData, len), pOut, pulOut⟩
  | .cDecryptFinal session pOut pulOut => some ⟨.decrypt, session, none, pOut, pulOut⟩
  | _ => none

namespace OutputCall

def BadArguments (call : OutputCall) : Prop :=
  call.lengthSlot = null ∨ ∃ pData len, call.data = some (pData, len) ∧
    (pData = null ∨ len > maxDataLen)

def given (call : OutputCall) (target : Target) (memory : Memory) : Option Bytes :=
  call.data.map fun (pData, len) => memory.slice target .bytes pData len

def reading (call : OutputCall) (caller : Caller) : Caller :=
  match call.data with
  | some (pData, len) => caller.loaded .bytes pData len
  | none => caller

@[simp] theorem reading_memory (call : OutputCall) (caller : Caller) :
    (call.reading caller).memory = caller.memory := by
  unfold reading
  split <;> rfl

end OutputCall

theorem reading_no_copy {call : OutputCall} {memory : Memory} {access : Access}
    (member : access ∈ (call.reading ⟨memory, []⟩).accesses) : access.write = false := by
  unfold OutputCall.reading at member
  split at member
  · simp only [Caller.loaded_accesses, List.nil_append, List.mem_singleton] at member
    rw [member]
  · cases member

theorem one_shot_run (target : Target) (query : Bytes → ProxyFn CryptoError Nat)
    (consume : Bytes → ProxyFn CryptoError Bytes) (pData : Addr) (len : CkUlong)
    (pOutput pulOutputLen : Addr) (caller : Caller) :
    ((pulOutputLen = null ∨ pData = null ∨ len > maxDataLen) ∧
        outputOneShot target query consume pData len pOutput pulOutputLen caller =
          .ret (.argumentsBad, caller)) ∨
      (¬ (pulOutputLen = null ∨ pData = null ∨ len > maxDataLen) ∧
        outputOneShot target query consume pData len pOutput pulOutputLen caller =
          deliverOutput target (query (caller.memory.slice target .bytes pData len))
            (consume (caller.memory.slice target .bytes pData len)) pOutput pulOutputLen
            (caller.loaded .bytes pData len)) := by
  unfold outputOneShot
  by_cases missing : pData = null ∨ pulOutputLen = null
  · refine Or.inl ⟨?_, by rw [if_pos missing]; rfl⟩
    rcases missing with noData | noSlot
    · exact Or.inr (Or.inl noData)
    · exact Or.inl noSlot
  · rw [if_neg missing]
    by_cases large : len > maxDataLen
    · exact Or.inl ⟨Or.inr (Or.inr large), by rw [if_pos large]; rfl⟩
    · refine Or.inr ⟨?_, by rw [if_neg large]; rfl⟩
      rintro (noSlot | noData | large')
      · exact missing (Or.inr noSlot)
      · exact missing (Or.inl noData)
      · exact large large'

theorem final_run (target : Target) (query : ProxyFn CryptoError Nat)
    (consume : ProxyFn CryptoError Bytes) (pOutput pulOutputLen : Addr) (caller : Caller) :
    (pulOutputLen = null ∧
        outputFinal target query consume pOutput pulOutputLen caller =
          .ret (.argumentsBad, caller)) ∨
      (pulOutputLen ≠ null ∧
        outputFinal target query consume pOutput pulOutputLen caller =
          deliverOutput target query consume pOutput pulOutputLen caller) := by
  unfold outputFinal
  by_cases missing : pulOutputLen = null
  · exact Or.inl ⟨missing, by rw [if_pos missing]; rfl⟩
  · exact Or.inr ⟨missing, by rw [if_neg missing]⟩

/-- What the six functions have in common: only the data and the requests differ. -/
def OutputCall.program (target : Target) (call : OutputCall) : Call CkRv :=
  match call.data with
  | some (pData, len) => outputOneShot target (ManagerProxy.getLength call.kind call.session)
      (ManagerProxy.finishWith call.kind call.session) pData len call.output call.lengthSlot
  | none => outputFinal target (ManagerProxy.getFinalLength call.kind call.session)
      (ManagerProxy.finish call.kind call.session) call.output call.lengthSlot

theorem output_program (target : Target) {exported : ExportedCall} {call : OutputCall}
    (outputs : exported.outputCall = some call) : exported.run target = call.program target := by
  cases exported <;> cases outputs <;> rfl

theorem output_run (target : Target) {exported : ExportedCall} {call : OutputCall}
    (outputs : exported.outputCall = some call) (caller : Caller) :
    (call.BadArguments ∧ exported.run target caller = .ret (.argumentsBad, caller)) ∨
      (¬ call.BadArguments ∧ exported.run target caller =
        deliverOutput target
          (ManagerProxy.query call.kind call.session (call.given target caller.memory))
          (ManagerProxy.consume call.kind call.session (call.given target caller.memory))
          call.output call.lengthSlot (call.reading caller)) := by
  rw [output_program target outputs]
  rcases call with ⟨kind, session, data, output, slot⟩
  cases data with
  | some data =>
      rcases data with ⟨pData, len⟩
      have bad : OutputCall.BadArguments ⟨kind, session, some (pData, len), output, slot⟩ ↔
          (slot = null ∨ pData = null ∨ len > maxDataLen) := by
        simp [OutputCall.BadArguments]
      rw [bad]
      exact one_shot_run target _ _ pData len output slot caller
  | none =>
      have bad : OutputCall.BadArguments ⟨kind, session, none, output, slot⟩ ↔ slot = null := by
        simp [OutputCall.BadArguments]
      rw [bad]
      exact final_run target _ _ output slot caller

/-- Whatever runs in between, one of the six functions ends in one of these ways. -/
theorem output_cases {B : Backend} {exported : ExportedCall} {call : OutputCall}
    (outputs : exported.outputCall = some call) {caller after : Caller}
    {events : List (ModuleEvent B)} {rv : CkRv}
    (follows : Follows (moduleHandler B) (exported.run B.target caller) events (rv, after)) :
    (call.BadArguments ∧ events = [] ∧ rv = .argumentsBad ∧ after = caller) ∨
      (¬ call.BadArguments ∧ Delivered
        (ManagerProxy.query call.kind call.session (call.given B.target caller.memory))
        (ManagerProxy.consume call.kind call.session (call.given B.target caller.memory))
        call.output call.lengthSlot (call.reading caller) events rv after) := by
  rcases output_run B.target outputs caller with ⟨bad, run⟩ | ⟨fine, run⟩
  · rw [run] at follows
    obtain ⟨rfl, same⟩ := (follows_ret _).mp follows
    cases same
    exact Or.inl ⟨bad, rfl, rfl, rfl⟩
  · rw [run] at follows
    exact Or.inr ⟨fine, deliver_output_cases follows⟩

end OsClientCerts
