import OsClientCerts.SequentialCalls
import OsClientCerts.WindowsBackend

/-!
What a call that fails leaves behind. An error of the consuming step ends the
operation; an error of the length query before it does not, and a too small buffer
is only reported as it should be when it is the caller's own that is too small.
-/

namespace OsClientCerts
open Resumption

section Termination
variable {B : Backend}

/-- The next start of the kind on the session succeeds, with any mechanism that can
be read and any object that the kind can use. -/
def AcceptsStart (manager : Manager B) (kind : Kind) (session : CkSessionHandle) : Prop :=
  ∀ (exported : ExportedCall) (pMechanism : Addr) (key : CkObjectHandle) (os : Nat → B.Os)
    (memory : Memory) (params : kind.Params) (read : Caller) (object : kind.Usable B),
    exported.initCall = some ⟨kind, session, pMechanism, key⟩ → pMechanism ≠ null →
    kind.readParams B.target (memory .mechanism pMechanism)
      (Caller.loaded ⟨memory, []⟩ .mechanism pMechanism 1) = .ret (.ok params, read) →
    usable kind (manager.registry key) = some object →
    (exported.alone os memory (some manager)).1.1 = .ok

theorem idle_accepts_start {manager : Manager B} {kind : Kind} {session : CkSessionHandle}
    (idle : manager.operationState kind session = .idle) : AcceptsStart manager kind session := by
  intro exported pMechanism key os memory params read object inits present reading found
  have started : (manager.start kind session key params).1 = .ok () :=
    start_accepted.mpr ⟨idle, object, found⟩
  obtain ⟨alone, _⟩ := init_alone inits present os manager reading
  simp only [alone, started, doneRv]

/-- A call with an output buffer that fails with anything but a too small buffer has ended the
operation, unless it failed at its length query, which leaves the manager as it was. -/
theorem failed_call_ends_operation {exported : ExportedCall} {call : OutputCall}
    (outputs : exported.outputCall = some call) (fine : ¬ call.BadArguments)
    (present : call.output ≠ null) (os : Nat → B.Os) (memory : Memory) (manager : Manager B) :
    let ended := exported.alone os memory (some manager)
    ended.1.1 ≠ .ok → ended.1.1 ≠ .bufferTooSmall →
      (∃ err, manager.measured call memory (os 0) = .error err ∧
          ended.1.1 = cryptoErrorToRv B.target err ∧ ended.2 = some manager) ∨
        (∃ length left, manager.measured call memory (os 0) = .ok length ∧ ended.2 = some left ∧
          left.operationState call.kind call.session = .idle ∧
          AcceptsStart left call.kind call.session) := by
  obtain ⟨events, rv, after, left, _, ended, outcome⟩ :=
    output_alone outputs fine os memory manager
  rw [ended]
  intro _ failed roomy
  cases outcome with
  | queryFailed err asked => exact Or.inl ⟨err, asked, rfl, rfl⟩
  | measured length asked nothing => exact absurd nothing present
  | tooSmall length asked here short => exact absurd rfl roomy
  | failed length err asked here room performed =>
      have idle := manager.ended_idle call.kind call.session
      exact Or.inr ⟨length, _, asked, rfl, idle, idle_accepts_start idle⟩
  | delivered length output asked here room performed => exact absurd rfl failed

end Termination

/-!
Asked for the length of the plaintext, the first refuses the ciphertext already;
the second only refuses to decrypt it. -/
section Refusals

def refusesToMeasure : Windows.Cng :=
  { Windows.Cng.steady [.forCert 7 [1] .rsa] (fun _ => 64) 0 with
    ncryptDecrypt := fun _ _ _ _ => ⟨0x80090005, 0, []⟩ }

def refusesToDecrypt : Windows.Cng := .steady [.forCert 7 [1] .rsa] (fun _ => 64) 0x80090005

def deciphering (os : Windows.Cng) : Manager Windows.backend :=
  (((Manager.new os).openSession os 4).2.start .decrypt 1 1 .pkcs1v15).2

def roomAt64 : Memory := Memory.blank.set .ulong 64 64

def someDecrypt : OutputCall := ⟨.decrypt, 1, some (16, 1), 128, 64⟩

theorem some_decrypt_fine : ¬ someDecrypt.BadArguments := by
  simp [OutputCall.BadArguments, someDecrypt, null, maxDataLen]

/-- Not every failed call terminates its operation: a failed length query does not. -/
theorem failed_length_query_keeps_operation :
    ¬ ∀ (exported : ExportedCall) (call : OutputCall) (os : Nat → Windows.Cng) (memory : Memory)
        (manager : Manager Windows.backend) (handle : CkObjectHandle) (params : call.kind.Params)
        (buffer : Bytes),
        exported.outputCall = some call → ¬ call.BadArguments → call.output ≠ null →
        manager.sessions.contains call.session = true →
        manager.operationState call.kind call.session = .active handle params buffer →
        (exported.alone os memory (some manager)).1.1 ≠ .ok →
        (exported.alone os memory (some manager)).1.1 ≠ .bufferTooSmall →
        ∃ left, (exported.alone os memory (some manager)).2 = some left ∧
          left.operationState call.kind call.session = .idle := by
  intro terminates
  -- The operation is still there: its buffer, empty as it is, has not gone.
  have active : (deciphering refusesToMeasure).operationState .decrypt 1 =
      .active 1 .pkcs1v15 [] := rfl
  obtain ⟨left, leaves, idle⟩ := terminates (.cDecrypt 1 16 1 128 64) someDecrypt
    (fun _ => refusesToMeasure) roomAt64 (deciphering refusesToMeasure) 1 .pkcs1v15 [] rfl
    some_decrypt_fine (by decide) (by decide +kernel) active (by decide +kernel)
    (by decide +kernel)
  have still : ((ExportedCall.cDecrypt 1 16 1 128 64).alone (fun _ => refusesToMeasure) roomAt64
      (some (deciphering refusesToMeasure))).2.all fun left =>
        (left.operationState .decrypt 1).buffer.isSome := by decide +kernel
  rw [leaves, Option.all_some] at still
  change (left.operationState .decrypt 1) = .idle at idle
  rw [idle] at still
  cases still

theorem failed_decrypt_ends_operation :
    ∃ left, ((ExportedCall.cDecrypt 1 16 1 128 64).alone (fun _ => refusesToDecrypt) roomAt64
        (some (deciphering refusesToDecrypt))).2 = some left ∧
      left.operationState .decrypt 1 = .idle ∧ AcceptsStart left .decrypt 1 := by
  have rv : ((ExportedCall.cDecrypt 1 16 1 128 64).alone (fun _ => refusesToDecrypt) roomAt64
      (some (deciphering refusesToDecrypt))).1.1 = .encryptedDataInvalid := by decide +kernel
  have measured : (deciphering refusesToDecrypt).measured someDecrypt roomAt64 refusesToDecrypt =
      .ok 64 := by decide +kernel
  rcases @failed_call_ends_operation _ _ someDecrypt rfl some_decrypt_fine (by decide)
    (fun _ => refusesToDecrypt) roomAt64 (deciphering refusesToDecrypt) (by rw [rv]; decide)
    (by rw [rv]; decide) with ⟨err, refused, _⟩ | ⟨_, left, _, leaves, idle, accepts⟩
  · rw [measured] at refused
    cases refused
  · exact ⟨left, leaves, idle, accepts⟩

end Refusals

section TooSmall
variable {B : Backend}

/-- Where a function that can report a too small buffer puts the size it needs. -/
def ExportedCall.sizeSlot (exported : ExportedCall) : Option Addr :=
  match exported with
  | .cGetMechanismList _ _ pulCount => some pulCount
  | _ => exported.outputCall.map OutputCall.lengthSlot

def Manager.requiredSize (manager : Manager B) (call : OutputCall) (memory : Memory)
    (os : B.Os) : Option Nat :=
  match manager.measured call memory os with
  | .ok length => some length
  | .error (.bufferTooSmall needed) => some needed
  | .error _ => none

def ExportedCall.requiredSize (exported : ExportedCall) (os : Nat → B.Os) (memory : Memory)
    (state : ModuleState B) : Option Nat :=
  match exported.outputCall with
  | some call => state.bind fun manager => manager.requiredSize call memory (os 0)
  | none => some mechanisms.length

/-- The size is in the slot, nothing else was written, and every operation is as it was. -/
structure LeavesRetry (slot : Addr) (required : Option Nat) (after : Caller)
    (before left : ModuleState B) : Prop where
  sized : required = some (after.memory .ulong slot)
  unwritten : ∀ access ∈ after.accesses, access.write = true →
    access.region = .ulong ∧ access.addr = slot
  unchanged : ∀ manager, before = some manager → ∃ same, left = some same ∧
    ∀ kind session, same.operationState kind session = manager.operationState kind session

/-- What CKR_BUFFER_TOO_SMALL is taken to say. -/
def TooSmallMeans (exported : ExportedCall) (slot : Addr) (os : Nat → B.Os) (memory : Memory)
    (state : ModuleState B) : Prop :=
  (exported.alone os memory state).1.1 = .bufferTooSmall →
    LeavesRetry slot (exported.requiredSize os memory state) (exported.alone os memory state).1.2
      state (exported.alone os memory state).2

/-- The backend has no complaint of its own about the size, unless the slot happens
to hold the size it wants. -/
structure OnlyCallerShort (manager : Manager B) (call : OutputCall) (memory : Memory)
    (os : Nat → B.Os) : Prop where
  query : ∀ err, manager.measured call memory (os 0) = .error err →
    cryptoErrorToRv B.target err = .bufferTooSmall →
    err = .bufferTooSmall (memory .ulong call.lengthSlot)
  consume : ∀ length err, manager.measured call memory (os 0) = .ok length →
    call.output ≠ null → length ≤ memory .ulong call.lengthSlot →
    manager.performed call memory (os 1) = .error err →
    cryptoErrorToRv B.target err ≠ .bufferTooSmall

/-- The list of mechanisms is asked for where there is room for it, if it is asked for. -/
def RoomForMechanisms (slotID : CkUlong) (pMechanismList pulCount : Addr) (memory : Memory) :
    Prop :=
  slotID = slotId → pulCount ≠ null → pMechanismList ≠ null →
    mechanisms.length ≤ memory .ulong pulCount

def TooSmallFits (exported : ExportedCall) (os : Nat → B.Os) (memory : Memory)
    (state : ModuleState B) : Prop :=
  match exported with
  | .cGetMechanismList slotID pList pulCount => RoomForMechanisms slotID pList pulCount memory
  | _ => ∀ call manager, exported.outputCall = some call → ¬ call.BadArguments →
      state = some manager → OnlyCallerShort manager call memory os

/-- A count that is too small is reported, but not corrected. -/
theorem mechanism_list_cases (slotID : CkUlong) (pMechanismList pulCount : Addr)
    (os : Nat → B.Os) (memory : Memory) (state : ModuleState B) :
    let ended := (ExportedCall.cGetMechanismList slotID pMechanismList pulCount).alone os memory
      state
    (RoomForMechanisms slotID pMechanismList pulCount memory ∧ ended.1.1 ≠ .bufferTooSmall) ∨
      (¬ RoomForMechanisms slotID pMechanismList pulCount memory ∧
        ended.1.1 = .bufferTooSmall ∧ ended.1.2.memory .ulong pulCount < mechanisms.length) := by
  intro ended
  have run : ended = execute (moduleHandler B)
      (cGetMechanismList B.target slotID pMechanismList pulCount ⟨memory, []⟩) os state := rfl
  unfold cGetMechanismList at run
  by_cases bad : slotID ≠ slotId ∨ pulCount = null
  · rw [if_pos bad] at run
    rw [run]
    refine Or.inl ⟨fun sameSlot counted _ => ?_, by intro other; cases other⟩
    rcases bad with other | missing
    · exact absurd sameSlot other
    · exact absurd missing counted
  · obtain ⟨sameSlot, counted⟩ := not_or.mp bad
    rw [if_neg bad] at run
    by_cases listed : pMechanismList ≠ null
    · rw [if_pos listed, ffi_bind, read_cell_run, ret_bind] at run
      by_cases short : memory .ulong pulCount < mechanisms.length
      · rw [if_pos short] at run
        rw [run]
        refine Or.inr ⟨fun room => ?_, rfl, short⟩
        exact absurd short (Nat.not_lt.mpr (room (not_not.mp sameSlot) counted listed))
      · rw [if_neg short] at run
        rw [run]
        exact Or.inl ⟨fun _ _ _ => Nat.le_of_not_lt short, by intro other; cases other⟩
    · rw [if_neg listed] at run
      rw [run]
      exact Or.inl ⟨fun _ _ present => absurd present listed, by intro other; cases other⟩

theorem mechanism_list_too_small (slotID : CkUlong) (pMechanismList pulCount : Addr)
    (os : Nat → B.Os) (memory : Memory) (state : ModuleState B) :
    TooSmallMeans (.cGetMechanismList slotID pMechanismList pulCount) pulCount os memory state ↔
      RoomForMechanisms slotID pMechanismList pulCount memory := by
  rcases mechanism_list_cases slotID pMechanismList pulCount os memory state with
    ⟨room, other⟩ | ⟨noRoom, short, kept⟩
  · exact ⟨fun _ => room, fun _ reported => absurd reported other⟩
  · constructor
    · intro means
      have sized := (means short).sized
      have size : mechanisms.length = _ := Option.some.inj sized
      rw [← size] at kept
      exact absurd kept (Nat.lt_irrefl _)
    · exact fun room => absurd room noRoom

section Short
variable {manager : Manager B} {call : OutputCall} {memory : Memory} {os : Nat → B.Os}

theorem only_caller_short_error {err : CryptoError}
    (asked : manager.measured call memory (os 0) = .error err) :
    OnlyCallerShort manager call memory os ↔
      (cryptoErrorToRv B.target err = .bufferTooSmall →
        err = .bufferTooSmall (memory .ulong call.lengthSlot)) := by
  constructor
  · exact fun short => short.query err asked
  · intro named
    constructor
    · intro other asked' reported
      cases asked.symm.trans asked'
      exact named reported
    · intro length other asked'
      cases asked.symm.trans asked'

theorem only_caller_short_ok {length : Nat}
    (asked : manager.measured call memory (os 0) = .ok length) :
    OnlyCallerShort manager call memory os ↔
      (call.output ≠ null → length ≤ memory .ulong call.lengthSlot →
        ∀ err, manager.performed call memory (os 1) = .error err →
          cryptoErrorToRv B.target err ≠ .bufferTooSmall) := by
  constructor
  · exact fun short present room err => short.consume length err asked present room
  · intro uncomplaining
    constructor
    · intro err asked'
      cases asked.symm.trans asked'
    · intro other err asked' present room
      cases asked.symm.trans asked'
      exact uncomplaining present room err

end Short

theorem output_too_small {exported : ExportedCall} {call : OutputCall}
    (outputs : exported.outputCall = some call) (fine : ¬ call.BadArguments) (os : Nat → B.Os)
    (memory : Memory) (manager : Manager B) :
    TooSmallMeans exported call.lengthSlot os memory (some manager) ↔
      OnlyCallerShort manager call memory os := by
  obtain ⟨events, rv, after, left, _, ended, outcome⟩ :=
    output_alone outputs fine os memory manager
  have required : exported.requiredSize os memory (some manager) =
      manager.requiredSize call memory (os 0) := by
    cases exported <;> cases outputs <;> rfl
  unfold TooSmallMeans
  rw [ended, required]
  cases outcome with
  | queryFailed err asked =>
      rw [only_caller_short_error asked]
      constructor
      · intro means reported
        have sized := (means reported).sized
        simp only [Manager.requiredSize, asked, OutputCall.reading_memory] at sized
        -- Of the two errors that are reported so, only one says a size.
        rcases (error_rv_too_small B.target err).mp reported with ⟨needed, rfl⟩ | ⟨_, rfl⟩
        · exact congrArg _ (Option.some.inj sized)
        · cases sized
      · intro named reported
        have holds := named reported
        subst holds
        constructor
        · simp only [Manager.requiredSize, asked, OutputCall.reading_memory]
        · intro access member write
          rw [reading_no_copy member] at write
          cases write
        · exact fun other same => ⟨other, same, fun _ _ => rfl⟩
  | measured length asked nothing =>
      rw [only_caller_short_ok asked]
      constructor
      · exact fun _ present => absurd nothing present
      · intro _ reported
        cases reported
  | tooSmall length asked here short =>
      rw [only_caller_short_ok asked]
      obtain ⟨input, _, announced, _⟩ := measured_ok asked
      have stored : B.target.asUlong length = length :=
        Target.as_ulong_of_lt (B.measure_fits _ _ _ _ announced)
      constructor
      · exact fun _ _ room => absurd short (Nat.not_lt.mpr room)
      · intro _ _
        constructor
        · simp only [Manager.requiredSize, asked, Caller.stored_memory, Memory.set_same, stored]
        · intro access member write
          simp only [Caller.stored_accesses, Caller.loaded_accesses, List.mem_append,
            List.mem_singleton] at member
          rcases member with (old | rfl) | rfl
          · rw [reading_no_copy old] at write
            cases write
          · cases write
          · exact ⟨rfl, rfl⟩
        · exact fun other same => ⟨other, same, fun _ _ => rfl⟩
  | failed length err asked here room performed =>
      rw [only_caller_short_ok asked]
      obtain ⟨_, _, _, active⟩ := measured_ok asked
      constructor
      · intro means _ _ err' performed' reported
        cases performed.symm.trans performed'
        -- The operation is gone, so nothing is left to retry.
        obtain ⟨same, leaves, kept⟩ := (means reported).unchanged manager rfl
        have gone : manager.ended call.kind call.session = same := Option.some.inj leaves
        have idle := manager.ended_idle call.kind call.session
        rw [gone, kept] at idle
        exact active idle
      · exact fun short reported => absurd reported (short here room err performed)
  | delivered length output asked here room performed =>
      rw [only_caller_short_ok asked]
      constructor
      · intro _ _ _ err performed'
        cases performed.symm.trans performed'
      · intro _ reported
        cases reported

/-- The code means what it is taken to mean exactly where the caller's buffer is the
only one that is too small. -/
theorem too_small_means_iff {exported : ExportedCall} {slot : Addr}
    (reports : exported.sizeSlot = some slot) (os : Nat → B.Os) (memory : Memory)
    (state : ModuleState B) :
    TooSmallMeans exported slot os memory state ↔ TooSmallFits exported os memory state := by
  have output {call : OutputCall} (outputs : exported.outputCall = some call)
      (there : slot = call.lengthSlot) :
      TooSmallMeans exported slot os memory state ↔
        ∀ other manager, exported.outputCall = some other → ¬ other.BadArguments →
          state = some manager → OnlyCallerShort manager other memory os := by
    subst there
    by_cases bad : call.BadArguments
    · constructor
      · intro _ other manager same fine
        rw [outputs] at same
        cases same
        exact absurd bad fine
      · intro _ reported
        rw [output_refused_alone outputs bad] at reported
        cases reported
    · cases state with
      | none =>
          constructor
          · intro _ other manager _ _ absent
            cases absent
          · intro _ reported
            rcases output_unavailable_alone outputs os memory with refused | unavailable
            · rw [refused] at reported
              cases reported
            · rw [unavailable] at reported
              cases reported
      | some manager =>
          rw [output_too_small outputs bad]
          constructor
          · intro short other _ same _ present
            rw [outputs] at same
            cases same
            cases present
            exact short
          · exact fun short => short call manager outputs bad rfl
  cases exported with
  | cGetMechanismList slotID pList pulCount =>
      cases reports
      exact mechanism_list_too_small slotID pList _ os memory state
  | cSign | cSignFinal | cEncrypt | cEncryptFinal | cDecrypt | cDecryptFinal =>
      exact output rfl (Option.some.inj reports).symm
  | _ => cases reports

end TooSmall

def roomForThree : Memory := Memory.blank.set .ulong 64 3

/-- CNG announces a length and then finds its buffer too small for the plaintext. -/
def outgrowsItself : Windows.Cng := .steady [.forCert 7 [1] .rsa] (fun _ => 64) 0x80090028

/-- The code does not always mean that: not for a list of mechanisms with room for three,
and not for a decryption that outgrows the length announced for it. -/
theorem too_small_count_not_reported :
    (¬ ∀ (exported : ExportedCall) (slot : Addr) (os : Nat → Windows.Cng) (memory : Memory)
        (state : ModuleState Windows.backend), exported.sizeSlot = some slot →
        TooSmallMeans exported slot os memory state) ∧
      ¬ TooSmallMeans (.cDecrypt 1 16 1 128 64) 64 (fun _ => outgrowsItself) roomAt64
        (some (deciphering outgrowsItself)) := by
  constructor
  · intro means
    have fits := (mechanism_list_too_small 1 128 64 _ roomForThree _).mp
      (means (.cGetMechanismList 1 128 64) 64 (fun _ => outgrowsItself) roomForThree none rfl)
    exact absurd (fits rfl (by decide) (by decide)) (by decide)
  · intro means
    have reported : ((ExportedCall.cDecrypt 1 16 1 128 64).alone (fun _ => outgrowsItself) roomAt64
        (some (deciphering outgrowsItself))).1.1 = .bufferTooSmall := by decide +kernel
    obtain ⟨same, leaves, kept⟩ := (means reported).unchanged _ rfl
    have gone : ((ExportedCall.cDecrypt 1 16 1 128 64).alone (fun _ => outgrowsItself) roomAt64
        (some (deciphering outgrowsItself))).2.all fun left =>
          (left.operationState .decrypt 1).buffer.isNone := by decide +kernel
    rw [leaves, Option.all_some, kept] at gone
    cases gone

/-- Room for ten bytes is too small for a plaintext of 64, and means just that. -/
theorem short_buffer_leaves_retry :
    TooSmallMeans (.cDecrypt 1 16 1 128 64) 64 (fun _ => refusesToDecrypt)
      (Memory.blank.set .ulong 64 10) (some (deciphering refusesToDecrypt)) := by
  apply (too_small_means_iff rfl _ _ _).mpr
  rintro _ _ ⟨⟩ _ ⟨⟩
  have measured : (deciphering refusesToDecrypt).measured someDecrypt
      (Memory.blank.set .ulong 64 10) refusesToDecrypt = .ok 64 := by decide +kernel
  constructor
  · intro err asked
    cases measured.symm.trans asked
  · intro length err asked _ room
    cases measured.symm.trans asked
    exact absurd room (by decide)

end OsClientCerts
