import OsClientCerts.OutputFunctions

/-!
The functions that only give the manager something: the three that start an
operation, from a mechanism read and turned into the parameters of its kind, and
the three that add a part to its data.
-/

namespace OsClientCerts
open Resumption

structure InitCall where
  kind : Kind
  session : CkSessionHandle
  pMechanism : Addr
  key : CkObjectHandle

def ExportedCall.initCall : ExportedCall → Option InitCall
  | .cSignInit session pMechanism key => some ⟨.sign, session, pMechanism, key⟩
  | .cEncryptInit session pMechanism key => some ⟨.encrypt, session, pMechanism, key⟩
  | .cDecryptInit session pMechanism key => some ⟨.decrypt, session, pMechanism, key⟩
  | _ => none

def Kind.readParams (target : Target) : (kind : Kind) → CkMechanism → Call (Except CkRv kind.Params)
  | .sign => signParameters target
  | .decrypt => parseRsaCipherMechanism target
  | .encrypt => parseRsaCipherMechanism target

/-- All that happened in between is that some things were read, each of them `legit`. -/
structure Reads (legit : Access → Prop) (before after : Caller) : Prop where
  memory : after.memory = before.memory
  accesses : ∀ access ∈ after.accesses, access ∈ before.accesses ∨
    (access.write = false ∧ legit access)

theorem Reads.refl (legit : Access → Prop) (caller : Caller) : Reads legit caller caller :=
  ⟨rfl, fun _ member => Or.inl member⟩

theorem Reads.mono {strict loose : Access → Prop} (weaker : ∀ access, strict access → loose access)
    {before after : Caller} (reads : Reads strict before after) : Reads loose before after :=
  ⟨reads.memory, fun access member =>
    (reads.accesses access member).imp_right fun ⟨reading, legit⟩ => ⟨reading, weaker _ legit⟩⟩

theorem Reads.loaded {legit : Access → Prop} {before after : Caller}
    (reads : Reads legit before after) {region : Region} {addr : Addr} {count : Nat}
    (allowed : legit ⟨region, addr, count, false⟩) :
    Reads legit before (after.loaded region addr count) := by
  constructor
  · exact reads.memory
  · intro access member
    rcases List.mem_append.mp member with old | new
    · exact reads.accesses access old
    · rw [List.mem_singleton.mp new]
      exact Or.inr ⟨rfl, allowed⟩

theorem Reads.trans {legit : Access → Prop} {before middle after : Caller}
    (first : Reads legit before middle) (second : Reads legit middle after) :
    Reads legit before after := by
  constructor
  · exact second.memory.trans first.memory
  · intro access member
    rcases second.accesses access member with earlier | later
    · exact first.accesses access earlier
    · exact Or.inr later

def PssRead (target : Target) (mechanism : CkMechanism) (access : Access) : Prop :=
  mechanism.mechanism = ckmRsaPkcsPss ∧ mechanism.ulParameterLen = target.sizeOfPssParams ∧
    access = ⟨.pssParams, mechanism.pParameter, 1, false⟩

def OaepRead (target : Target) (mechanism : CkMechanism) (memory : Memory) (access : Access) :
    Prop :=
  mechanism.mechanism = ckmRsaPkcsOaep ∧ mechanism.ulParameterLen = target.sizeOfOaepParams ∧
    mechanism.pParameter ≠ null ∧
    (access = ⟨.oaepParams, mechanism.pParameter, 1, false⟩ ∨
      ((memory .oaepParams mechanism.pParameter).pSourceData ≠ null ∧
        access = ⟨.bytes, (memory .oaepParams mechanism.pParameter).pSourceData,
          (memory .oaepParams mechanism.pParameter).ulSourceDataLen, false⟩))

def Kind.ParamsRead (target : Target) (memory : Memory) (mechanism : CkMechanism) :
    Kind → Access → Prop
  | .sign => PssRead target mechanism
  | .decrypt => OaepRead target mechanism memory
  | .encrypt => OaepRead target mechanism memory

/-- A program that comes to an end by itself, having read only. -/
def ReadsTo {α : Type} (legit : Access → Prop) (program : Call α) (caller : Caller) (outcome : α)
    (after : Caller) : Prop := program caller = .ret (outcome, after) ∧ Reads legit caller after

def keptParams (mechanism : CkMechanism) (memory : Memory) : Option CkRsaPkcsPssParams :=
  if mechanism.mechanism = ckmRsaPkcsPss then some (memory .pssParams mechanism.pParameter)
  else none

/-- The parameter block of a PSS mechanism has the right size. -/
def WellSized (target : Target) (mechanism : CkMechanism) : Prop :=
  mechanism.mechanism = ckmRsaPkcsPss → mechanism.ulParameterLen = target.sizeOfPssParams

def readingParams (mechanism : CkMechanism) (caller : Caller) : Caller :=
  if mechanism.mechanism = ckmRsaPkcsPss then caller.loaded .pssParams mechanism.pParameter 1
  else caller

theorem sign_parameters_run (target : Target) (mechanism : CkMechanism) (caller : Caller) :
    (¬ WellSized target mechanism ∧
        signParameters target mechanism caller = .ret (.error .argumentsBad, caller)) ∨
      (WellSized target mechanism ∧ signParameters target mechanism caller =
        .ret (.ok (keptParams mechanism caller.memory), readingParams mechanism caller)) := by
  unfold signParameters keptParams WellSized readingParams
  by_cases pss : mechanism.mechanism = ckmRsaPkcsPss
  · rw [if_pos pss]
    by_cases other : mechanism.ulParameterLen ≠ target.sizeOfPssParams
    · rw [if_pos other]
      exact Or.inl ⟨fun sized => other (sized pss), rfl⟩
    · rw [if_neg other, if_pos pss, if_pos pss]
      exact Or.inr ⟨fun _ => not_not.mp other, rfl⟩
  · rw [if_neg pss, if_neg pss, if_neg pss]
    exact Or.inr ⟨fun same => absurd same pss, rfl⟩

theorem sign_parameters_read (target : Target) (mechanism : CkMechanism) (caller : Caller) :
    ∃ outcome after, ReadsTo (PssRead target mechanism) (signParameters target mechanism) caller
      outcome after := by
  rcases sign_parameters_run target mechanism caller with ⟨_, run⟩ | ⟨sized, run⟩
  · exact ⟨_, caller, run, .refl _ caller⟩
  · refine ⟨_, _, run, ?_⟩
    unfold readingParams
    by_cases pss : mechanism.mechanism = ckmRsaPkcsPss
    · rw [if_pos pss]
      exact (Reads.refl _ caller).loaded ⟨pss, sized pss, rfl⟩
    · rw [if_neg pss]
      exact .refl _ caller

theorem oaep_label_read {legit : Access → Prop} {target : Target} {params : CkRsaPkcsOaepParams}
    {caller : Caller} (allowed : params.pSourceData ≠ null →
      legit ⟨.bytes, params.pSourceData, params.ulSourceDataLen, false⟩) :
    ∃ label after, ReadsTo legit (readOaepLabel target params) caller label after := by
  unfold readOaepLabel
  by_cases empty : params.ulSourceDataLen = 0 ∨ params.pSourceData = null
  · rw [if_pos empty]
    exact ⟨[], caller, rfl, .refl _ caller⟩
  · rw [if_neg empty]
    have present : params.pSourceData ≠ null := fun nothing => empty (Or.inr nothing)
    exact ⟨_, _, rfl, (Reads.refl _ caller).loaded (allowed present)⟩

theorem parse_oaep_read {legit : Access → Prop} {target : Target} {params : CkRsaPkcsOaepParams}
    {caller : Caller} (allowed : params.pSourceData ≠ null →
      legit ⟨.bytes, params.pSourceData, params.ulSourceDataLen, false⟩) :
    ∃ outcome after, ReadsTo legit (parseOaepParams target params) caller outcome after := by
  unfold parseOaepParams
  cases expectedMgf params.hashAlg with
  | none =>
      dsimp only
      split_ifs <;> exact ⟨_, caller, rfl, .refl _ caller⟩
  | some expected =>
      dsimp only
      split_ifs
      case neg =>
        obtain ⟨label, after, ended, reads⟩ := @oaep_label_read legit target params caller allowed
        refine ⟨.ok (.oaep params.hashAlg label), after, ?_, reads⟩
        rw [ffi_bind, ended]
        rfl
      all_goals exact ⟨_, caller, rfl, .refl _ caller⟩

theorem parse_cipher_read (target : Target) (mechanism : CkMechanism) (caller : Caller) :
    ∃ outcome after, ReadsTo (OaepRead target mechanism caller.memory)
      (parseRsaCipherMechanism target mechanism) caller outcome after := by
  unfold parseRsaCipherMechanism
  by_cases pkcs1 : mechanism.mechanism = ckmRsaPkcs
  · rw [if_pos pkcs1]
    split_ifs <;> exact ⟨_, caller, rfl, .refl _ caller⟩
  · rw [if_neg pkcs1]
    by_cases other : mechanism.mechanism ≠ ckmRsaPkcsOaep
    · rw [if_pos other]
      exact ⟨_, caller, rfl, .refl _ caller⟩
    · rw [if_neg other]
      by_cases wrong : mechanism.ulParameterLen ≠ target.sizeOfOaepParams ∨
          mechanism.pParameter = null
      · rw [if_pos wrong]
        exact ⟨_, caller, rfl, .refl _ caller⟩
      · rw [if_neg wrong]
        obtain ⟨size, present⟩ := not_or.mp wrong
        have checked {access : Access} := fun kind =>
          (show OaepRead target mechanism caller.memory access from
            ⟨not_not.mp other, not_not.mp size, present, kind⟩)
        have block := (Reads.refl _ caller).loaded (checked (Or.inl rfl))
        obtain ⟨outcome, after, ended, reads⟩ := @parse_oaep_read _ target _
          (caller.loaded .oaepParams mechanism.pParameter 1)
          (fun label => checked (Or.inr ⟨label, rfl⟩))
        exact ⟨outcome, after, ended, block.trans reads⟩

theorem read_params_ends (target : Target) (kind : Kind) (mechanism : CkMechanism)
    (caller : Caller) : ∃ outcome after, ReadsTo (kind.ParamsRead target caller.memory mechanism)
      (kind.readParams target mechanism) caller outcome after := by
  cases kind with
  | sign => exact sign_parameters_read target mechanism caller
  | decrypt => exact parse_cipher_read target mechanism caller
  | encrypt => exact parse_cipher_read target mechanism caller

def doneRv (target : Target) : Option (Except CryptoError Unit) → CkRv
  | none => .deviceError
  | some (.error err) => cryptoErrorToRv target err
  | some (.ok ()) => .ok

theorem done_rv_ok {target : Target} {reply : Option (Except CryptoError Unit)} :
    doneRv target reply = .ok ↔ reply = some (.ok ()) := by
  constructor
  · intro succeeded
    match reply with
    | none => cases succeeded
    | some (.error err) => exact absurd succeeded (error_rv_not_ok target err).1
    | some (.ok ()) => rfl
  · rintro rfl
    rfl

theorem report_done_cases {B : Backend} {fn : ProxyFn CryptoError Unit} {onOk : Call Unit}
    {caller written after : Caller} (ends : onOk caller = .ret ((), written))
    {events : List (ModuleEvent B)} {rv : CkRv}
    (follows : Follows (moduleHandler B) (reportDone B.target fn onOk caller) events (rv, after)) :
    ∃ os state, events = [fn.event os state] ∧ rv = doneRv B.target (fn.answer os state) ∧
      after = if rv = .ok then written else caller := by
  obtain ⟨os, state, tail, rfl, rest⟩ := follows_proxy follows
  refine ⟨os, state, ?_⟩
  cases answered : fn.answer os state with
  | none =>
      rw [answered] at rest
      obtain ⟨rfl, same⟩ := (follows_ret _).mp rest
      cases same
      exact ⟨rfl, rfl, rfl⟩
  | some reply =>
      rw [answered] at rest
      cases reply with
      | error err =>
          obtain ⟨rfl, same⟩ := (follows_ret _).mp rest
          cases same
          exact ⟨rfl, rfl, (if_neg (error_rv_not_ok B.target err).1).symm⟩
      | ok done =>
          simp only [ffi_bind, ends, ret_bind, ffi_pure] at rest
          obtain ⟨rfl, same⟩ := (follows_ret _).mp rest
          cases same
          exact ⟨rfl, rfl, (if_pos rfl).symm⟩

/-- What the three have in common: they differ in how the parameters are read. -/
def InitCall.program (target : Target) (call : InitCall) : Call CkRv :=
  if call.pMechanism = null then pure .argumentsBad
  else do
    let mechanism ← readCell .mechanism call.pMechanism
    match ← call.kind.readParams target mechanism with
    | .error rv => pure rv
    | .ok params =>
        reportDone target (ManagerProxy.start call.kind call.session call.key params) (pure ())

theorem init_congr {α : Type} {pMechanism : Addr} {read : CkMechanism → Call (Except CkRv α)}
    {first second : Except CkRv α → Call CkRv} (same : ∀ outcome, first outcome = second outcome) :
    (if pMechanism = null then pure .argumentsBad
      else readCell .mechanism pMechanism >>= fun mechanism => read mechanism >>= first) =
      if pMechanism = null then pure .argumentsBad
      else readCell .mechanism pMechanism >>= fun mechanism => read mechanism >>= second := by
  -- The bodies differ only in how the outcome of reading is taken apart.
  rw [funext same]

theorem init_program (target : Target) {exported : ExportedCall} {call : InitCall}
    (inits : exported.initCall = some call) : exported.run target = call.program target := by
  cases exported with
  | cSignInit | cEncryptInit | cDecryptInit =>
      cases inits
      exact init_congr fun outcome => by cases outcome <;> rfl
  | _ => cases inits

/-- Whatever runs in between, a start ends in one of these ways. -/
theorem init_cases {B : Backend} {exported : ExportedCall} {call : InitCall}
    (inits : exported.initCall = some call) {caller after : Caller}
    {events : List (ModuleEvent B)} {rv : CkRv}
    (follows : Follows (moduleHandler B) (exported.run B.target caller) events (rv, after)) :
    (call.pMechanism = null ∧ events = [] ∧ rv = .argumentsBad ∧ after = caller) ∨
      (call.pMechanism ≠ null ∧ ∃ outcome,
        ReadsTo (call.kind.ParamsRead B.target caller.memory
            (caller.memory .mechanism call.pMechanism))
          (call.kind.readParams B.target (caller.memory .mechanism call.pMechanism))
          (caller.loaded .mechanism call.pMechanism 1) outcome after ∧
        ((outcome = .error rv ∧ events = []) ∨
          ∃ params os state, outcome = .ok params ∧
            events = [(ManagerProxy.start call.kind call.session call.key params).event os state] ∧
            rv = doneRv B.target
              ((ManagerProxy.start call.kind call.session call.key params).answer os state))) := by
  rw [init_program B.target inits, InitCall.program] at follows
  by_cases nothing : call.pMechanism = null
  · rw [if_pos nothing] at follows
    obtain ⟨rfl, same⟩ := (follows_ret _).mp follows
    cases same
    exact Or.inl ⟨nothing, rfl, rfl, rfl⟩
  · rw [if_neg nothing] at follows
    obtain ⟨outcome, read, ended, reads⟩ := read_params_ends B.target call.kind
      (caller.memory .mechanism call.pMechanism) (caller.loaded .mechanism call.pMechanism 1)
    simp only [ffi_bind, read_cell_run, ret_bind, ended] at follows
    refine Or.inr ⟨nothing, outcome, ?_⟩
    cases outcome with
    | error refusal =>
        obtain ⟨rfl, same⟩ := (follows_ret _).mp follows
        cases same
        exact ⟨⟨ended, reads⟩, Or.inl ⟨rfl, rfl⟩⟩
    | ok params =>
        obtain ⟨os, state, rfl, answered, left⟩ := report_done_cases rfl follows
        rw [ite_self] at left
        subst left
        exact ⟨⟨ended, reads⟩, Or.inr ⟨params, os, state, rfl, rfl, answered⟩⟩

/-- A part of the data; the cipher functions also have a slot for the length of an
output that never comes. -/
structure UpdateCall where
  kind : Kind
  session : CkSessionHandle
  pPart : Addr
  len : CkUlong
  lengthSlot : Option Addr

def ExportedCall.updateCall : ExportedCall → Option UpdateCall
  | .cSignUpdate session pPart len => some ⟨.sign, session, pPart, len, none⟩
  | .cEncryptUpdate session pPart len pulOut => some ⟨.encrypt, session, pPart, len, some pulOut⟩
  | .cDecryptUpdate session pPart len pulOut => some ⟨.decrypt, session, pPart, len, some pulOut⟩
  | _ => none

namespace UpdateCall

def BadArguments (call : UpdateCall) : Prop :=
  call.lengthSlot = some null ∨ call.len > maxDataLen ∨ (call.pPart = null ∧ call.len ≠ 0)

def part (call : UpdateCall) (target : Target) (memory : Memory) : Bytes :=
  memory.slice target .bytes call.pPart call.len

def reading (call : UpdateCall) (caller : Caller) : Caller :=
  if call.pPart = null then caller else caller.loaded .bytes call.pPart call.len

def written (call : UpdateCall) (caller : Caller) : Caller :=
  match call.lengthSlot with
  | none => caller
  | some slot => caller.stored .ulong slot 0

end UpdateCall

theorem input_slice_run (target : Target) (ptr : Addr) (len : CkUlong) (caller : Caller) :
    inputSlice target ptr len caller =
      if ptr = null ∧ len ≠ 0 then .ret (.error .argumentsBad, caller)
      else .ret (.ok (caller.memory.slice target .bytes ptr len),
        if ptr = null then caller else caller.loaded .bytes ptr len) := by
  unfold inputSlice
  by_cases missing : ptr = null
  · by_cases empty : len = 0
    · subst empty
      simp [missing, Memory.slice]
    · simp [missing, empty]
  · simp [missing]

def UpdateCall.noOutput (call : UpdateCall) : Call Unit :=
  match call.lengthSlot with
  | some slot => writeCell .ulong slot 0
  | none => pure ()

/-- What the three have in common: C_SignUpdate has no slot to look at. -/
def UpdateCall.program (target : Target) (call : UpdateCall) : Call CkRv :=
  if call.lengthSlot = some null then pure .argumentsBad
  else if call.len > maxDataLen then pure .argumentsBad
  else do
    match ← inputSlice target call.pPart call.len with
    | .error rv => pure rv
    | .ok part =>
        reportDone target (ManagerProxy.update call.kind call.session part) call.noOutput

theorem update_congr {target : Target} {ptr : Addr} {len : CkUlong}
    {first second : Except CkRv Bytes → Call CkRv}
    (same : ∀ outcome, first outcome = second outcome) :
    (if len > maxDataLen then pure .argumentsBad else inputSlice target ptr len >>= first) =
      if len > maxDataLen then pure .argumentsBad else inputSlice target ptr len >>= second := by
  rw [funext same]

theorem update_program (target : Target) {exported : ExportedCall} {call : UpdateCall}
    (updates : exported.updateCall = some call) : exported.run target = call.program target := by
  cases exported with
  | cSignUpdate session pPart len =>
      cases updates
      rw [UpdateCall.program, if_neg nofun]
      exact update_congr fun outcome => by cases outcome <;> rfl
  | cEncryptUpdate session pPart len pulOut | cDecryptUpdate session pPart len pulOut =>
      cases updates
      -- Only these two look at the slot for the length, and before anything else.
      by_cases noSlot : pulOut = null
      · rw [UpdateCall.program, if_pos (congrArg some noSlot)]
        exact if_pos noSlot
      · rw [UpdateCall.program, if_neg (fun same => noSlot (Option.some.inj same))]
        apply (if_neg noSlot).trans
        exact update_congr fun outcome => by cases outcome <;> rfl
  | _ => cases updates

theorem update_run (target : Target) {exported : ExportedCall} {call : UpdateCall}
    (updates : exported.updateCall = some call) (caller : Caller) :
    (call.BadArguments ∧ exported.run target caller = .ret (.argumentsBad, caller)) ∨
      (¬ call.BadArguments ∧ exported.run target caller = reportDone target
        (ManagerProxy.update call.kind call.session (call.part target caller.memory)) call.noOutput
        (call.reading caller)) := by
  rw [update_program target updates, UpdateCall.program]
  by_cases noSlot : call.lengthSlot = some null
  · exact Or.inl ⟨Or.inl noSlot, by rw [if_pos noSlot]; rfl⟩
  · rw [if_neg noSlot]
    by_cases large : call.len > maxDataLen
    · exact Or.inl ⟨Or.inr (Or.inl large), by rw [if_pos large]; rfl⟩
    · rw [if_neg large]
      simp only [ffi_bind, input_slice_run]
      by_cases missing : call.pPart = null ∧ call.len ≠ 0
      · exact Or.inl ⟨Or.inr (Or.inr missing), by rw [if_pos missing]; rfl⟩
      · rw [if_neg missing]
        exact Or.inr ⟨not_or.mpr ⟨noSlot, not_or.mpr ⟨large, missing⟩⟩, rfl⟩

theorem no_output_run (call : UpdateCall) (caller : Caller) :
    call.noOutput caller = .ret ((), call.written caller) := by
  unfold UpdateCall.noOutput UpdateCall.written
  cases call.lengthSlot <;> rfl

theorem update_cases {B : Backend} {exported : ExportedCall} {call : UpdateCall}
    (updates : exported.updateCall = some call) {caller after : Caller}
    {events : List (ModuleEvent B)} {rv : CkRv}
    (follows : Follows (moduleHandler B) (exported.run B.target caller) events (rv, after)) :
    (call.BadArguments ∧ events = [] ∧ rv = .argumentsBad ∧ after = caller) ∨
      (¬ call.BadArguments ∧ ∃ os state,
        let fn := ManagerProxy.update call.kind call.session (call.part B.target caller.memory)
        events = [fn.event os state] ∧ rv = doneRv B.target (fn.answer os state) ∧
          after = if rv = .ok then call.written (call.reading caller) else call.reading caller) := by
  rcases update_run B.target updates caller with ⟨bad, run⟩ | ⟨fine, run⟩
  · rw [run] at follows
    obtain ⟨rfl, same⟩ := (follows_ret _).mp follows
    cases same
    exact Or.inl ⟨bad, rfl, rfl, rfl⟩
  · rw [run] at follows
    exact Or.inr ⟨fine, report_done_cases (no_output_run call _) follows⟩

end OsClientCerts
