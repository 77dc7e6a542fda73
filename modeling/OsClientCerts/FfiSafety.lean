import OsClientCerts.CallerBuffers
import OsClientCerts.WindowsBackend

/-!
No exported function follows a null pointer, reads beyond what the caller declares
or acts on arguments that do not fit together, but for one parameter of C_SignInit.
-/

namespace OsClientCerts
open Resumption

theorem touches_after {legit : Access → Prop} {α : Type} {program rest : Call α}
    {before after : Caller} (reads : Reads legit before after) (run : program before = rest after)
    (goesOn : Touches legit rest after) : Touches legit program before := by
  rw [Touches, run]
  apply goesOn.mono
  intro ended later access member
  rcases later access member with earlier | allowed
  · exact (reads.accesses access earlier).imp_right And.right
  · exact Or.inr allowed

theorem deliver_output_touches {target : Target} {buffers : List Buffer}
    (query : ProxyFn CryptoError Nat) (consume : ProxyFn CryptoError Bytes) (pOutput : Addr)
    {pulOutputLen : Addr} (declared : Buffer.slot target pulOutputLen ∈ buffers)
    (present : pulOutputLen ≠ null) (caller : Caller) : Touches (Legit target buffers)
      (deliverOutput target query consume pOutput pulOutputLen) caller := by
  have tells (length : Nat) (rv : CkRv) (now : Caller) : Touches (Legit target buffers)
      (do writeCell .ulong pulOutputLen (target.asUlong length); pure rv : Call CkRv) now :=
    touches_bind (touches_write_cell (legit_write 1 present)) fun _ _ => touches_pure _
  apply touches_ask
  intro answer after
  match answer with
  | none => exact touches_pure _
  | some (.error err) => exact touches_pure _
  | some (.ok length) =>
      apply touches_ite (fun _ => tells length .ok after)
      intro output
      apply touches_bind (touches_read_cell (legit_slot declared present))
      intro capacity later
      apply touches_ite (fun _ => tells length .bufferTooSmall later)
      intro _
      apply touches_ask
      intro result last
      match result with
      | none => exact touches_pure _
      | some (.error err) => exact touches_pure _
      | some (.ok made) =>
          exact touches_bind (touches_write_slice (legit_write _ output)) fun _ done =>
            tells made.length .ok done

theorem output_reading {target : Target} {buffers : List Buffer} {call : OutputCall}
    (fine : ¬ call.BadArguments) (declared : ∀ buffer ∈ call.declared target, buffer ∈ buffers)
    (caller : Caller) : Reads (Legit target buffers) caller (call.reading caller) := by
  unfold OutputCall.reading
  unfold OutputCall.declared at declared
  cases given : call.data with
  | none => exact .refl _ caller
  | some data =>
      rcases data with ⟨pData, len⟩
      rw [given] at declared
      have present : pData ≠ null := fun nothing =>
        fine (Or.inr ⟨pData, len, given, Or.inl nothing⟩)
      exact (Reads.refl _ caller).loaded (legit_whole ⟨pData, len⟩ rfl
        (Nat.mul_one _).symm (declared _ (List.mem_cons_of_mem _ List.mem_cons_self)) present)

theorem output_touches {target : Target} {exported : ExportedCall} {call : OutputCall}
    (outputs : exported.outputCall = some call) (memory : Memory) :
    Touches (Legit target (exported.declared target memory)) (exported.run target)
      ⟨memory, []⟩ := by
  have declared (buffer : Buffer) (member : buffer ∈ call.declared target) :
      buffer ∈ exported.declared target memory := by
    apply List.mem_append_left
    apply List.mem_append_left
    apply List.mem_append_right
    rwa [outputs]
  rcases output_run target outputs ⟨memory, []⟩ with ⟨_, run⟩ | ⟨fine, run⟩
  · rw [Touches, run]
    exact fun access member => Or.inl member
  · have slot : call.lengthSlot ≠ null := fun nothing => fine (Or.inl nothing)
    exact touches_after (output_reading fine declared _) run
      (deliver_output_touches _ _ _ (declared _ List.mem_cons_self) slot _)

theorem report_done_touches {legit : Access → Prop} {target : Target}
    (fn : ProxyFn CryptoError Unit) {onOk : Call Unit}
    (ends : ∀ after, Touches legit onOk after) (caller : Caller) :
    Touches legit (reportDone target fn onOk) caller := by
  apply touches_ask
  intro answer after
  match answer with
  | none => exact touches_pure _
  | some (.error err) => exact touches_pure _
  | some (.ok ()) => exact touches_then_ok (ends after)

theorem no_output_touches {target : Target} {buffers : List Buffer} {call : UpdateCall}
    (fine : ¬ call.BadArguments) (caller : Caller) :
    Touches (Legit target buffers) call.noOutput caller := by
  unfold UpdateCall.noOutput
  cases slot : call.lengthSlot with
  | none => exact touches_pure _
  | some addr =>
      have present : addr ≠ null := fun nothing => fine (Or.inl (by rw [slot, nothing]))
      exact touches_write_cell (legit_write 1 present)

theorem update_reading {target : Target} {buffers : List Buffer} {call : UpdateCall}
    (declared : ∀ buffer ∈ call.declared, buffer ∈ buffers) (caller : Caller) :
    Reads (Legit target buffers) caller (call.reading caller) := by
  unfold UpdateCall.reading
  by_cases nothing : call.pPart = null
  · rw [if_pos nothing]
    exact .refl _ caller
  · rw [if_neg nothing]
    exact (Reads.refl _ caller).loaded (legit_whole ⟨call.pPart, call.len⟩ rfl
      (Nat.mul_one _).symm (declared _ List.mem_cons_self) nothing)

theorem update_touches {target : Target} {exported : ExportedCall} {call : UpdateCall}
    (updates : exported.updateCall = some call) (memory : Memory) :
    Touches (Legit target (exported.declared target memory)) (exported.run target)
      ⟨memory, []⟩ := by
  have declared (buffer : Buffer) (member : buffer ∈ call.declared) :
      buffer ∈ exported.declared target memory := by
    apply List.mem_append_left
    apply List.mem_append_right
    rwa [updates]
  rcases update_run target updates ⟨memory, []⟩ with ⟨_, run⟩ | ⟨fine, run⟩
  · rw [Touches, run]
    exact fun access member => Or.inl member
  · exact touches_after (update_reading declared _) run
      (report_done_touches _ (no_output_touches fine) _)

theorem parse_oaep_refuses {target : Target} {params : CkRsaPkcsOaepParams} (bad : params.BadLabel)
    (caller : Caller) : ∃ rv, (parseOaepParams target params : Call _) caller =
      .ret (.error rv, caller) ∧ rv ≠ .ok := by
  unfold parseOaepParams
  cases expectedMgf params.hashAlg with
  | none =>
      dsimp only
      split_ifs <;> exact ⟨_, rfl, by decide⟩
  | some expected =>
      dsimp only
      split_ifs with source mgf missing long
      case neg => exact absurd bad (not_or.mpr ⟨missing, long⟩)
      all_goals exact ⟨_, rfl, by decide⟩

theorem parse_cipher_refuses {target : Target} {mechanism : CkMechanism} {caller : Caller}
    (bad : mechanism.MissingParameter ∨ mechanism.BadCipherParameter target caller.memory) :
    ∃ rv after, (parseRsaCipherMechanism target mechanism : Call _) caller =
      .ret (.error rv, after) ∧ rv ≠ .ok := by
  unfold parseRsaCipherMechanism
  by_cases pkcs1 : mechanism.mechanism = ckmRsaPkcs
  · have params : mechanism.ulParameterLen ≠ 0 ∨ mechanism.pParameter ≠ null := by
      rcases bad with missing | ⟨_, given⟩ | ⟨oaep, _⟩
      · exact Or.inl missing.2
      · exact given
      · exact absurd (pkcs1.symm.trans oaep) (by decide)
    rw [if_pos pkcs1, if_pos params]
    exact ⟨_, _, rfl, by decide⟩
  · rw [if_neg pkcs1]
    by_cases other : mechanism.mechanism ≠ ckmRsaPkcsOaep
    · rw [if_pos other]
      exact ⟨_, _, rfl, by decide⟩
    · rw [if_neg other]
      by_cases wrong : mechanism.ulParameterLen ≠ target.sizeOfOaepParams ∨
          mechanism.pParameter = null
      · rw [if_pos wrong]
        exact ⟨_, _, rfl, by decide⟩
      · rw [if_neg wrong]
        have label : (caller.memory .oaepParams mechanism.pParameter).BadLabel := by
          rcases bad with missing | ⟨same, _⟩ | ⟨_, size | nothing | label⟩
          · exact absurd (Or.inr missing.1) wrong
          · exact absurd same pkcs1
          · exact absurd (Or.inl size) wrong
          · exact absurd (Or.inr nothing) wrong
          · exact label
        obtain ⟨rv, run, error⟩ := @parse_oaep_refuses target _ label
          (caller.loaded .oaepParams mechanism.pParameter 1)
        exact ⟨rv, _, run, error⟩

theorem cipher_params_refuse {kind : Kind} (cipher : kind ≠ .sign) {target : Target}
    {mechanism : CkMechanism} (caller : Caller) (bad : mechanism.MissingParameter ∨
      kind.BadParameter target caller.memory mechanism) :
    ∃ rv after, kind.readParams target mechanism caller = .ret (.error rv, after) ∧ rv ≠ .ok := by
  cases kind with
  | sign => exact absurd rfl cipher
  | decrypt => exact parse_cipher_refuses bad
  | encrypt => exact parse_cipher_refuses bad

/-- One execution of a call, along its own events, that follows no null pointer,
reads what is declared, and changes nothing if its arguments do not fit together. -/
structure ArgumentsChecked {B : Backend} (exported : ExportedCall) (memory : Memory)
    (events : List (ModuleEvent B)) (rv : CkRv) (after : Caller) : Prop where
  noNull : ∀ access ∈ after.accesses, access.addr ≠ null
  withinDeclared : ∀ access ∈ after.accesses, access.write = false →
    ∃ buffer ∈ exported.declared B.target memory, buffer.Covers B.target access
  refused : exported.Inconsistent B.target memory → rv ≠ .ok ∧ after.memory = memory ∧
    ∀ event ∈ events, event.after (moduleHandler B) = event.before

def Startable {B : Backend} (kind : Kind) (state : ModuleState B) (session : CkSessionHandle)
    (key : CkObjectHandle) : Prop :=
  ∃ manager, state = some manager ∧ manager.operationState kind session = .idle ∧
    ∃ object, usable kind (manager.registry key) = some object

/-- C_SignInit takes a parameter that is not there: that of PSS, or one of another
mechanism that is said to have some length, when nothing else speaks against the start. -/
def NullParameterTaken {B : Backend} (exported : ExportedCall) (memory : Memory)
    (events : List (ModuleEvent B)) : Prop :=
  ∃ session pMechanism key, exported = .cSignInit session pMechanism key ∧ pMechanism ≠ null ∧
    (memory .mechanism pMechanism).pParameter = null ∧
    (((memory .mechanism pMechanism).mechanism = ckmRsaPkcsPss ∧
        (memory .mechanism pMechanism).ulParameterLen = B.target.sizeOfPssParams) ∨
      ((memory .mechanism pMechanism).mechanism ≠ ckmRsaPkcsPss ∧
        (memory .mechanism pMechanism).ulParameterLen ≠ 0 ∧
        ∃ event ∈ events, Startable .sign event.before session key))

section Classes
variable {target : Target} {memory : Memory} {exported : ExportedCall}

theorem inconsistent_output {call : OutputCall} (outputs : exported.outputCall = some call)
    (bad : exported.Inconsistent target memory) : call.BadArguments := by
  rcases bad with plain | ⟨_, same, bad⟩ | ⟨_, same, _⟩ | ⟨_, same, _⟩
  · cases exported <;> cases outputs <;> cases plain
  · cases outputs.symm.trans same
    exact bad
  · cases exported <;> cases outputs <;> cases same
  · cases exported <;> cases outputs <;> cases same

theorem inconsistent_update {call : UpdateCall} (updates : exported.updateCall = some call)
    (bad : exported.Inconsistent target memory) : call.BadArguments := by
  rcases bad with plain | ⟨_, same, _⟩ | ⟨_, same, bad⟩ | ⟨_, same, _⟩
  · cases exported <;> cases updates <;> cases plain
  · cases exported <;> cases updates <;> cases same
  · cases updates.symm.trans same
    exact bad
  · cases exported <;> cases updates <;> cases same

theorem inconsistent_init {call : InitCall} (inits : exported.initCall = some call)
    (bad : exported.Inconsistent target memory) : call.BadArguments target memory := by
  rcases bad with plain | ⟨_, same, _⟩ | ⟨_, same, _⟩ | ⟨_, same, bad⟩
  · cases exported <;> cases inits <;> cases plain
  · cases exported <;> cases inits <;> cases same
  · cases exported <;> cases inits <;> cases same
  · cases inits.symm.trans same
    exact bad

end Classes

section Checked
variable {B : Backend} {exported : ExportedCall} {memory : Memory}
  {events : List (ModuleEvent B)} {rv : CkRv} {after : Caller}

theorem arguments_checked (legit : ∀ access ∈ after.accesses,
      Legit B.target (exported.declared B.target memory) access)
    (refused : exported.Inconsistent B.target memory → rv ≠ .ok ∧ after.memory = memory ∧
      ∀ event ∈ events, event.after (moduleHandler B) = event.before) :
    ArgumentsChecked exported memory events rv after where
  noNull access member := (legit access member).1
  withinDeclared access member := (legit access member).2
  refused := refused

theorem accesses_legit
    (touches : Touches (Legit B.target (exported.declared B.target memory))
      (exported.run B.target) ⟨memory, []⟩)
    (follows : Follows (moduleHandler B) (exported.run B.target ⟨memory, []⟩) events (rv, after)) :
    ∀ access ∈ after.accesses, Legit B.target (exported.declared B.target memory) access := by
  intro access member
  rcases follows_ensures _ touches follows access member with none | legit
  · cases none
  · exact legit

theorem checked_without_start (noInit : exported.initCall = none)
    (follows : Follows (moduleHandler B) (exported.run B.target ⟨memory, []⟩) events (rv, after)) :
    ArgumentsChecked exported memory events rv after := by
  cases outputs : exported.outputCall with
  | some call =>
      apply arguments_checked (accesses_legit (output_touches outputs memory) follows)
      intro inconsistent
      rcases output_cases outputs follows with ⟨_, rfl, rfl, rfl⟩ | ⟨fine, _⟩
      · exact ⟨by decide, rfl, by simp⟩
      · exact absurd (inconsistent_output outputs inconsistent) fine
  | none =>
      cases updates : exported.updateCall with
      | some call =>
          apply arguments_checked (accesses_legit (update_touches updates memory) follows)
          intro inconsistent
          rcases update_cases updates follows with ⟨_, rfl, rfl, rfl⟩ | ⟨fine, _⟩
          · exact ⟨by decide, rfl, by simp⟩
          · exact absurd (inconsistent_update updates inconsistent) fine
      | none =>
          refine arguments_checked (accesses_legit
            (plain_touches B.target memory outputs updates noInit) follows) ?_
          rintro (plain | ⟨_, same, _⟩ | ⟨_, same, _⟩ | ⟨_, same, _⟩)
          · obtain ⟨refusal, left, run, error, kept⟩ := plain_refuses plain
            rw [run] at follows
            obtain ⟨rfl, same⟩ := (follows_ret _).mp follows
            cases same
            exact ⟨error, kept, by simp⟩
          · cases outputs.symm.trans same
          · cases updates.symm.trans same
          · cases noInit.symm.trans same

theorem start_event {kind : Kind} {session : CkSessionHandle} {key : CkObjectHandle}
    (params : kind.Params) (os : B.Os) (state : ModuleState B) :
    let fn := ManagerProxy.start kind session key params
    (Startable kind state session key → doneRv B.target (fn.answer os state) = .ok) ∧
      (¬ Startable kind state session key →
        doneRv B.target (fn.answer os state) ≠ .ok ∧ fn.left os state = state) := by
  intro fn
  cases state with
  | none =>
      refine ⟨?_, fun _ => ⟨fun started => ?_, rfl⟩⟩
      · rintro ⟨manager, none, _⟩
        cases none
      · cases done_rv_ok.mp started
  | some manager =>
      obtain ⟨answers, leaves⟩ := start_answer kind session os manager key params
      have accepted : doneRv B.target (fn.answer os (some manager)) = .ok ↔
          (manager.start kind session key params).1 = .ok () := by
        rw [done_rv_ok, show fn.answer os (some manager) = _ from answers, Option.some.injEq]
      constructor
      · rintro ⟨_, ⟨⟩, startable⟩
        exact accepted.mpr (start_accepted.mpr startable)
      · intro refused
        have rejects : (manager.start kind session key params).1 ≠ .ok () := fun done =>
          refused ⟨manager, rfl, start_accepted.mp done⟩
        exact ⟨fun done => rejects (accepted.mp done),
          leaves.trans (congrArg some (Manager.start_unchanged rejects))⟩

theorem mechanism_legit {call : InitCall} (inits : exported.initCall = some call)
    (present : call.pMechanism ≠ null) :
    Reads (Legit B.target (exported.declared B.target memory)) ⟨memory, []⟩
      (Caller.loaded ⟨memory, []⟩ .mechanism call.pMechanism 1) := by
  refine (Reads.refl _ _).loaded (legit_whole
    ⟨call.pMechanism, B.target.sizeOfMechanism⟩ rfl (Nat.one_mul _).symm ?_ present)
  apply List.mem_append_right
  rw [inits]
  exact List.mem_cons_self

theorem legit_of_reads {legit : Access → Prop} {memory : Memory}
    (reads : Reads legit ⟨memory, []⟩ after) : ∀ access ∈ after.accesses, legit access := by
  intro access member
  rcases reads.accesses access member with none | ⟨_, allowed⟩
  · cases none
  · exact allowed

theorem oaep_legit {call : InitCall} (inits : exported.initCall = some call) {access : Access}
    (read : OaepRead B.target (memory .mechanism call.pMechanism) memory access) :
    Legit B.target (exported.declared B.target memory) access := by
  have declared {buffer : Buffer} (member : buffer ∈ call.declared B.target memory) :
      buffer ∈ exported.declared B.target memory := by
    apply List.mem_append_right
    rwa [inits]
  obtain ⟨oaep, size, present, rfl | ⟨there, rfl⟩⟩ := read
  · refine legit_whole ⟨_, (memory .mechanism call.pMechanism).ulParameterLen⟩ rfl ?_
      (declared (List.mem_cons_of_mem _ List.mem_cons_self)) present
    rw [size, Nat.one_mul]
  · refine legit_whole ⟨_, _⟩ rfl (Nat.mul_one _).symm
      (declared (List.mem_cons_of_mem _ (List.mem_cons_of_mem _ ?_))) there
    rw [CkMechanism.label, if_pos ⟨oaep, size, present⟩]
    exact List.mem_cons_self

/-- Encryption and decryption look at the parameter before they follow it. -/
theorem cipher_init_checked {call : InitCall} (inits : exported.initCall = some call)
    (cipher : call.kind ≠ .sign)
    (follows : Follows (moduleHandler B) (exported.run B.target ⟨memory, []⟩) events (rv, after)) :
    ArgumentsChecked exported memory events rv after := by
  rcases init_cases inits follows with
    ⟨_, rfl, rfl, rfl⟩ | ⟨present, outcome, ⟨ended, reads⟩, ends⟩
  · exact arguments_checked (by simp) fun _ => ⟨by decide, rfl, by simp⟩
  · have legit {access : Access} (read : call.kind.ParamsRead B.target memory
        (memory .mechanism call.pMechanism) access) :
        Legit B.target (exported.declared B.target memory) access := by
      cases kind : call.kind with
      | sign => exact absurd kind cipher
      | decrypt | encrypt =>
          rw [kind] at read
          exact oaep_legit inits read
    refine arguments_checked
      (legit_of_reads ((mechanism_legit inits present).trans (reads.mono fun _ => legit))) ?_
    intro inconsistent
    have bad := (inconsistent_init inits inconsistent).resolve_left present
    -- The parameter is refused before the manager is asked.
    obtain ⟨refusal, left, run, error⟩ := cipher_params_refuse cipher
      (Caller.loaded ⟨memory, []⟩ .mechanism call.pMechanism 1) bad
    cases run.symm.trans ended
    rcases ends with ⟨⟨⟩, rfl⟩ | ⟨_, _, _, ⟨⟩, _⟩
    exact ⟨error, reads.memory, by simp⟩

theorem sign_init_call (session : CkSessionHandle) (pMechanism : Addr) (key : CkObjectHandle) :
    (ExportedCall.cSignInit session pMechanism key).initCall =
      some ⟨.sign, session, pMechanism, key⟩ := rfl

section SignInit
variable {session : CkSessionHandle} {pMechanism : Addr} {key : CkObjectHandle}

theorem sign_init_cases (follows : Follows (moduleHandler B)
      ((ExportedCall.cSignInit session pMechanism key).run B.target ⟨memory, []⟩) events
      (rv, after)) :
    (pMechanism = null ∧ events = [] ∧ rv = .argumentsBad ∧ after = ⟨memory, []⟩) ∨
      (pMechanism ≠ null ∧ ¬ WellSized B.target (memory .mechanism pMechanism) ∧ events = [] ∧
        rv = .argumentsBad ∧ after = Caller.loaded ⟨memory, []⟩ .mechanism pMechanism 1) ∨
      (pMechanism ≠ null ∧ WellSized B.target (memory .mechanism pMechanism) ∧
        after = readingParams (memory .mechanism pMechanism)
          (Caller.loaded ⟨memory, []⟩ .mechanism pMechanism 1) ∧
        ∃ params os state,
          events = [(ManagerProxy.start .sign session key params).event os state] ∧
          rv = doneRv B.target ((ManagerProxy.start .sign session key params).answer os state)) := by
  rcases init_cases (sign_init_call session pMechanism key) follows with
    refused | ⟨present, outcome, ⟨ended, _⟩, ends⟩
  · exact Or.inl refused
  · right
    rcases sign_parameters_run B.target (memory .mechanism pMechanism)
      (Caller.loaded ⟨memory, []⟩ .mechanism pMechanism 1) with ⟨other, run⟩ | ⟨sized, run⟩
    · cases run.symm.trans ended
      -- A refused parameter block never reaches the manager.
      rcases ends with ⟨⟨⟩, rfl⟩ | ⟨_, _, _, ⟨⟩, _⟩
      exact Or.inl ⟨present, other, rfl, rfl, rfl⟩
    · cases run.symm.trans ended
      rcases ends with ⟨⟨⟩, _⟩ | ⟨_, os, state, _, used, answered⟩
      exact Or.inr ⟨present, sized, rfl, _, os, state, used, answered⟩

/-- With a parameter, or none that is followed, C_SignInit reads what it may. -/
theorem sign_reading_legit (present : pMechanism ≠ null)
    (sized : WellSized B.target (memory .mechanism pMechanism))
    (there : (memory .mechanism pMechanism).mechanism = ckmRsaPkcsPss →
      (memory .mechanism pMechanism).pParameter ≠ null) :
    ∀ access ∈ (readingParams (memory .mechanism pMechanism)
      (Caller.loaded ⟨memory, []⟩ .mechanism pMechanism 1)).accesses,
      Legit B.target ((ExportedCall.cSignInit session pMechanism key).declared B.target memory)
        access := by
  have first : Reads _ ⟨memory, []⟩ _ :=
    mechanism_legit (B := B) (sign_init_call session pMechanism key) present
  refine legit_of_reads (?_ : Reads _ ⟨memory, []⟩ _)
  unfold readingParams
  by_cases pss : (memory .mechanism pMechanism).mechanism = ckmRsaPkcsPss
  · rw [if_pos pss]
    refine first.loaded (legit_whole
      ⟨_, (memory .mechanism pMechanism).ulParameterLen⟩ rfl ?_ ?_ (there pss))
    · rw [sized pss, Nat.one_mul]
    · exact List.mem_append_right _ (List.mem_cons_of_mem _ List.mem_cons_self)
  · rw [if_neg pss]
    exact first

theorem null_parameter_unchecked (follows : Follows (moduleHandler B)
      ((ExportedCall.cSignInit session pMechanism key).run B.target ⟨memory, []⟩) events
      (rv, after))
    (taken : NullParameterTaken (.cSignInit session pMechanism key) memory events) :
    ¬ ArgumentsChecked (.cSignInit session pMechanism key) memory events rv after := by
  intro checked
  obtain ⟨_, _, _, ⟨⟩, present, nothing, pss | ⟨plain, claimed, event, member, startable⟩⟩ := taken
  · -- The block of PSS is read wherever it is said to be.
    rcases sign_init_cases follows with
      ⟨missing, _⟩ | ⟨_, other, _⟩ | ⟨_, _, rfl, _⟩
    · exact present missing
    · exact other fun _ => pss.2
    · refine checked.noNull ⟨.pssParams, _, 1, false⟩ ?_ nothing
      rw [readingParams, if_pos pss.1]
      exact List.mem_append_right _ List.mem_cons_self
  · rcases sign_init_cases follows with
      ⟨missing, _⟩ | ⟨_, other, _⟩ | ⟨_, _, _, params, os, state, rfl, rfl⟩
    · exact present missing
    · exact other fun same => absurd same plain
    -- Nothing is followed, but a start that should be refused is accepted.
    · have inconsistent : (ExportedCall.cSignInit session pMechanism key).Inconsistent B.target
          memory := Or.inr (Or.inr (Or.inr ⟨_, rfl, Or.inr (Or.inl ⟨nothing, claimed⟩)⟩))
      rw [List.mem_singleton.mp member] at startable
      exact (checked.refused inconsistent).1 ((start_event params os state).1 startable)

theorem sign_init_checked (follows : Follows (moduleHandler B)
      ((ExportedCall.cSignInit session pMechanism key).run B.target ⟨memory, []⟩) events
      (rv, after))
    (untaken : ¬ NullParameterTaken (.cSignInit session pMechanism key) memory events) :
    ArgumentsChecked (.cSignInit session pMechanism key) memory events rv after := by
  rcases sign_init_cases follows with
    ⟨_, rfl, rfl, rfl⟩ | ⟨present, _, rfl, rfl, rfl⟩ |
      ⟨present, sized, rfl, params, os, state, used, answered⟩
  · exact arguments_checked (by simp) fun _ => ⟨by decide, rfl, by simp⟩
  · refine arguments_checked (legit_of_reads (mechanism_legit
      (sign_init_call session pMechanism key) present)) fun _ => ⟨by decide, rfl, by simp⟩
  · refine arguments_checked (sign_reading_legit present sized fun pss nothing => ?_) ?_
    · exact untaken ⟨_, _, _, rfl, present, nothing, Or.inl ⟨pss, sized pss⟩⟩
    · intro inconsistent
      have bad := (inconsistent_init (sign_init_call session pMechanism key)
        inconsistent).resolve_left present
      obtain ⟨nothing, claimed⟩ := bad.resolve_right (not_not.mpr sized)
      -- Of the two ways to take a missing parameter, neither is open.
      have plain : (memory .mechanism pMechanism).mechanism ≠ ckmRsaPkcsPss := fun pss =>
        untaken ⟨_, _, _, rfl, present, nothing, Or.inl ⟨pss, sized pss⟩⟩
      have refused : ¬ Startable .sign state session key := fun startable =>
        untaken ⟨_, _, _, rfl, present, nothing, Or.inr ⟨plain, claimed, _,
          by rw [used]; exact List.mem_cons_self, startable⟩⟩
      obtain ⟨error, unchanged⟩ := (start_event params os state).2 refused
      refine ⟨by rw [answered]; exact error, ?_, ?_⟩
      · unfold readingParams
        rw [if_neg plain]
        rfl
      · rw [used]
        intro event member
        rw [List.mem_singleton.mp member, event_after, event_before]
        exact unchanged

end SignInit

/-- Every exported function checks its arguments, whatever they are and whatever runs
in between, but for the parameter of C_SignInit. -/
theorem arguments_checked_iff
    (follows : Follows (moduleHandler B) (exported.run B.target ⟨memory, []⟩) events (rv, after)) :
    ArgumentsChecked exported memory events rv after ↔
      ¬ NullParameterTaken exported memory events := by
  cases inits : exported.initCall with
  | none =>
      apply iff_of_true (checked_without_start inits follows)
      rintro ⟨_, _, _, rfl, _⟩
      cases inits
  | some call =>
      cases exported with
      | cSignInit session pMechanism key =>
          exact ⟨fun checked taken => null_parameter_unchecked follows taken checked,
            sign_init_checked follows⟩
      | cEncryptInit | cDecryptInit =>
          refine iff_of_true (cipher_init_checked inits ?_ follows) ?_
          · rw [← Option.some.inj inits]
            exact nofun
          · rintro ⟨_, _, _, ⟨⟩, _⟩
      | _ => cases inits

end Checked

def nullPssParams : Memory := Memory.blank.set .mechanism 8 ⟨ckmRsaPkcsPss, null, 12⟩

theorem null_pss_params_followed : ¬ ∀ (exported : ExportedCall) (memory : Memory)
    (os : Nat → Windows.Cng) (state : ModuleState Windows.backend),
    ArgumentsChecked exported memory (exported.aloneEvents os memory state)
      (exported.alone os memory state).1.1 (exported.alone os memory state).1.2 := by
  intro checked
  have call := checked (.cSignInit 1 8 2) nullPssParams (fun _ => .steady [] (fun _ => 64) 0)
    (some (Manager.new (.steady [] (fun _ => 64) 0)))
  have followed : (⟨.pssParams, null, 1, false⟩ : Access) ∈ ((ExportedCall.cSignInit 1 8 2).alone
      (fun _ => Windows.Cng.steady [] (fun _ => 64) 0) nullPssParams
      (some (Manager.new (.steady [] (fun _ => 64) 0)) : ModuleState Windows.backend)).1.2.accesses := by
    decide +kernel
  exact call.noNull _ followed rfl

def nullAttributeValue : Memory := Memory.blank.set .attribute 64 ⟨ckaId, null, 4⟩

theorem null_attribute_value_checked :
    let os : Nat → Windows.Cng := fun _ => .steady [] (fun _ => 64) 0
    let state : ModuleState Windows.backend := some (Manager.new (os 0))
    let search := ExportedCall.cFindObjectsInit 1 64 1
    search.Inconsistent .windows nullAttributeValue ∧
      ArgumentsChecked search nullAttributeValue (search.aloneEvents os nullAttributeValue state)
        (search.alone os nullAttributeValue state).1.1
        (search.alone os nullAttributeValue state).1.2 := by
  intro os state search
  refine ⟨Or.inl (Or.inr (Or.inr ⟨⟨ckaId, null, 4⟩, ?_, Or.inr ⟨rfl, by decide⟩⟩)), ?_⟩
  · exact List.mem_cons_self
  · apply (arguments_checked_iff (alone_follows search os nullAttributeValue state)).mpr
    rintro ⟨_, _, _, same, _⟩
    cases (show ExportedCall.cFindObjectsInit 1 64 1 = _ from same)

end OsClientCerts
