import OsClientCerts.Multipart

/-!
Which padding a signature gets. Only the parameters of a mechanism reach the
manager, so the scheme is decided again, by the type of the key, when CNG is called.
-/

namespace OsClientCerts
open Resumption

namespace Windows

def SignParams.mechanism : SignParams → CkMechanismType
  | .ec => ckmEcdsa
  | .rsaPkcs1 _ => ckmRsaPkcs
  | .rsaPss _ => ckmRsaPkcsPss

theorem new_pss {params : CkRsaPkcsPssParams} {padding : SignParams} :
    SignParams.new .rsa (some params) = .ok padding ↔
      ∃ name, hashAlgorithmString params.hashAlg = .ok name ∧
        padding = .rsaPss ⟨name, params.sLen⟩ := by
  simp only [SignParams.new]
  cases named : hashAlgorithmString params.hashAlg with
  | error _ => simp
  | ok name => simp [eq_comm]

/-- The padding was chosen for this key and these parameters, and CNG made the
signature with it. -/
structure SignedWith (os : Cng) (input : BackendInput backend .sign) (signature : Bytes)
    (padding : SignParams) : Prop where
  chosen : SignParams.new input.object.keyTypeEnum input.params = .ok padding
  made : ∃ handle, keyHandleFromCert os input.object.cert = .ok handle ∧
    exactOutput (os.ncryptSignHash handle padding) input.data true = .ok signature

theorem signed_with_some {os : Cng} {input : BackendInput backend .sign} {signature : Bytes}
    (made : backend.perform os .sign input = .ok signature) :
    ∃ padding, SignedWith os input signature padding := by
  obtain ⟨handle, acquired, made⟩ := bind_ok made
  obtain ⟨padding, chosen, made⟩ := bind_ok made
  cases known : SignParams.new input.object.keyTypeEnum input.params with
  | error _ =>
      rw [known] at chosen
      cases chosen
  | ok same =>
      rw [known] at chosen
      cases chosen
      exact ⟨padding, known, handle, acquired, made⟩

def alwaysSigns : Cng := .steady [] (fun _ => 64) 0

theorem always_signs {input : BackendInput backend .sign} (empty : input.data = [])
    {padding : SignParams}
    (chosen : SignParams.new input.object.keyTypeEnum input.params = .ok padding) :
    backend.measure alwaysSigns .sign input = .ok 64 ∧
      ∃ signature, backend.perform alwaysSigns .sign input = .ok signature := by
  rcases input with ⟨key, params, data⟩
  subst empty
  have known : SignParams.new key.keyTypeEnum params = .ok padding := chosen
  constructor
  · show (key.signInternal alwaysSigns [] params false).map List.length = _
    simp only [Key.signInternal, known]
    rfl
  · refine ⟨List.replicate 64 0, ?_⟩
    show key.signInternal alwaysSigns [] params true = _
    simp only [Key.signInternal, known]
    rfl

end Windows

theorem successful_output {B : Backend} {registry : Registry B} {kind : Kind}
    {session : CkSessionHandle} {handle : CkObjectHandle} {params : kind.Params}
    {object : kind.Usable B} {held : Bytes} {manager : Manager B} {lone : LoneCall B}
    {data : Option (Addr × CkUlong)} {output slot : Addr}
    (holding : Holding registry kind session handle params held manager)
    (found : usable kind (registry handle) = some object)
    (outputs : lone.call.outputCall = some ⟨kind, session, data, output, slot⟩)
    (present : output ≠ null) (succeeded : (lone.outcome (some manager)).1.1 = .ok) :
    ∃ whole made, consumingCalls (lone.events (some manager)) = [⟨kind, ⟨object, params, whole⟩⟩] ∧
      B.perform (lone.os 1) kind ⟨object, params, whole⟩ = .ok made := by
  by_cases bad : OutputCall.BadArguments ⟨kind, session, data, output, slot⟩
  · rw [LoneCall.outcome, output_refused_alone outputs bad] at succeeded
    cases succeeded
  · obtain ⟨events, rv, after, left, recorded, ended, outcome⟩ :=
      output_alone outputs bad lone.os lone.memory manager
    rw [LoneCall.outcome, ended] at succeeded
    have known := input_holding holding found
      (OutputCall.given ⟨kind, session, data, output, slot⟩ B.target lone.memory)
    rw [LoneCall.events, recorded]
    cases outcome with
    | queryFailed err | failed _ err => exact absurd succeeded (error_rv_not_ok B.target err).1
    | measured _ _ nothing => exact absurd nothing present
    | tooSmall => cases succeeded
    | delivered length made asked here room performed =>
        refine ⟨_, made, consumed_once ⟨kind, session, data, output, slot⟩ known .., ?_⟩
        rw [Manager.performed, known] at performed
        exact performed

/-- `holds` of the padding of every signature that C_Sign or C_SignFinal makes later
with the operation a start left: however much data has been added to it, and as
long as its handle denotes the same key. -/
def LaterSignatures (left : ModuleState Windows.backend) (session : CkSessionHandle)
    (key : CkObjectHandle) (holds : Windows.SignParams → Prop) : Prop :=
  ∀ (begun later : Manager Windows.backend) (params : Option CkRsaPkcsPssParams) (buffer : Bytes)
    (signing : LoneCall Windows.backend) (data : Option (Addr × CkUlong)) (output slot : Addr),
    left = some begun → begun.operationState .sign session = .active key params [] →
    later.operationState .sign session = .active key params buffer →
    later.registry key = begun.registry key →
    signing.call.outputCall = some ⟨.sign, session, data, output, slot⟩ → output ≠ null →
    (signing.outcome (some later)).1.1 = .ok →
    ∃ input signature padding,
      consumingCalls (signing.events (some later)) = [⟨.sign, input⟩] ∧
      Windows.SignedWith (signing.os 1) input signature padding ∧ holds padding

theorem later_signatures_iff {registry : Registry Windows.backend} {session : CkSessionHandle}
    {handle : CkObjectHandle} {params : Option CkRsaPkcsPssParams} {key : Windows.Key}
    {begun : Manager Windows.backend}
    (holding : Holding registry .sign session handle params [] begun)
    (found : usable .sign (registry handle) = some key) {holds : Windows.SignParams → Prop} :
    LaterSignatures (some begun) session handle holds ↔
      ∀ padding, Windows.SignParams.new key.keyTypeEnum params = .ok padding → holds padding := by
  constructor
  · -- The operation can be finished at once, on a Windows where that succeeds.
    intro later padding chosen
    let signing : LoneCall Windows.backend :=
      ⟨.cSignFinal session 128 64, Memory.blank.set .ulong 64 64, fun _ => Windows.alwaysSigns⟩
    let input : BackendInput Windows.backend .sign := ⟨key, params, []⟩
    obtain ⟨announced, signature, made⟩ := @Windows.always_signs input rfl padding chosen
    have fine : ¬ OutputCall.BadArguments ⟨.sign, session, none, 128, 64⟩ := by
      rintro (missing | ⟨_, _, noData, _⟩)
      · cases missing
      · cases noData
    obtain ⟨called, passed⟩ :
        consumingCalls (signing.events (some begun)) = [⟨.sign, input⟩] ∧
          PassesOn (B := Windows.backend) (Windows.backend.perform Windows.alwaysSigns .sign input)
            128 64 (signing.outcome (some begun)).1 :=
      last_alone holding found rfl fine rfl ⟨by decide, by decide, 64, announced, Nat.le_refl 64⟩
    have succeeded : (signing.outcome (some begun)).1.1 = .ok := by
      rw [made] at passed
      exact passed.1
    obtain ⟨used, _, same, recorded, signed, holds⟩ := later begun begun params [] signing none 128
      64 rfl holding.active holding.active rfl rfl (by decide) succeeded
    rw [called] at recorded
    have inputs : input = used := by
      simpa using recorded
    subst inputs
    cases (show .ok padding = _ from chosen.symm).trans signed.chosen
    exact holds
  -- Whatever was added to the operation since, the key and the parameters are the same.
  · rintro every _ later kept buffer signing data output slot ⟨⟩ active continues same outputs present
      succeeded
    rw [holding.active] at active
    cases active
    have still : Holding later.registry .sign session handle params buffer later :=
      ⟨continues, rfl⟩
    have there : usable .sign (later.registry handle) = some key := by
      rw [same, holding.registry]
      exact found
    obtain ⟨whole, signature, called, made⟩ :=
      successful_output still there outputs present succeeded
    obtain ⟨padding, signed⟩ := Windows.signed_with_some made
    exact ⟨_, signature, padding, called, signed, every padding signed.chosen⟩

def requested (lone : LoneCall Windows.backend) (call : InitCall) : CkMechanism :=
  lone.memory .mechanism call.pMechanism

section SignInit
variable {lone : LoneCall Windows.backend} {session : CkSessionHandle} {pMechanism : Addr}
  {key : CkObjectHandle}

theorem sign_init_outcome (inits : lone.call.initCall = some ⟨.sign, session, pMechanism, key⟩)
    (present : pMechanism ≠ null) (manager : Manager Windows.backend) :
    (¬ WellSized .windows (lone.memory .mechanism pMechanism) ∧
        (lone.outcome (some manager)).1.1 = .argumentsBad ∧
        (lone.outcome (some manager)).2 = some manager) ∨
      (WellSized .windows (lone.memory .mechanism pMechanism) ∧
        (lone.outcome (some manager)).1.1 = doneRv .windows (some (manager.start .sign session key
          (keptParams (lone.memory .mechanism pMechanism) lone.memory)).1) ∧
        (lone.outcome (some manager)).2 = some (manager.start .sign session key
          (keptParams (lone.memory .mechanism pMechanism) lone.memory)).2) := by
  -- The mechanism itself is never looked at, so no signature is ever refused for it.
  rcases sign_parameters_run .windows (lone.memory .mechanism pMechanism)
    (Caller.loaded ⟨lone.memory, []⟩ .mechanism pMechanism 1) with ⟨other, run⟩ | ⟨sized, run⟩
  · refine Or.inl ⟨other, ?_⟩
    rw [LoneCall.outcome, init_refused_alone inits present lone.os (some manager) run]
    exact ⟨rfl, rfl⟩
  · have ended := (init_alone inits present lone.os manager run).1
    refine Or.inr ⟨sized, ?_, ?_⟩
    · rw [LoneCall.outcome, ended]
      rfl
    · rw [LoneCall.outcome, ended]
      rfl

theorem sign_init_never_invalid
    (inits : lone.call.initCall = some ⟨.sign, session, pMechanism, key⟩)
    (present : pMechanism ≠ null) (manager : Manager Windows.backend) :
    (lone.outcome (some manager)).1.1 ≠ .mechanismInvalid := by
  rcases sign_init_outcome inits present manager with ⟨_, refused, _⟩ | ⟨_, answered, _⟩
  · rw [refused]
    decide
  · rw [answered]
    cases (manager.start .sign session key
        (keptParams (lone.memory .mechanism pMechanism) lone.memory)).1 with
    | error err => exact (error_rv_not_ok .windows err).2
    | ok done => intro other; cases other

theorem sign_init_accepted (inits : lone.call.initCall = some ⟨.sign, session, pMechanism, key⟩)
    (present : pMechanism ≠ null) (manager : Manager Windows.backend) :
    (lone.outcome (some manager)).1.1 = .ok ↔
      WellSized .windows (lone.memory .mechanism pMechanism) ∧
        manager.operationState .sign session = .idle ∧
        ∃ object : Windows.Key, usable .sign (manager.registry key) = some object := by
  rcases sign_init_outcome inits present manager with ⟨other, refused, _⟩ | ⟨sized, answered, _⟩
  · constructor
    · intro succeeded
      rw [refused] at succeeded
      cases succeeded
    · exact fun accepted => absurd accepted.1 other
  · rw [answered, done_rv_ok, Option.some.injEq, start_accepted]
    exact ⟨fun accepted => ⟨sized, accepted⟩, fun accepted => accepted.2⟩

theorem sign_init_refused (inits : lone.call.initCall = some ⟨.sign, session, pMechanism, key⟩)
    (present : pMechanism ≠ null) {manager : Manager Windows.backend}
    (failed : (lone.outcome (some manager)).1.1 ≠ .ok) :
    (lone.outcome (some manager)).2 = some manager := by
  rcases sign_init_outcome inits present manager with ⟨_, _, same⟩ | ⟨_, answered, left⟩
  · exact same
  · rw [answered, ne_eq, done_rv_ok, Option.some.injEq] at failed
    rw [left, Manager.start_unchanged failed]

/-- What a successful start says about the signatures made with it. -/
theorem sign_init_later (inits : lone.call.initCall = some ⟨.sign, session, pMechanism, key⟩)
    (present : pMechanism ≠ null) {manager : Manager Windows.backend} {object : Windows.Key}
    (found : usable .sign (manager.registry key) = some object)
    (succeeded : (lone.outcome (some manager)).1.1 = .ok) {holds : Windows.SignParams → Prop} :
    LaterSignatures (lone.outcome (some manager)).2 session key holds ↔
      ∀ padding, Windows.SignParams.new object.keyTypeEnum
        (keptParams (lone.memory .mechanism pMechanism) lone.memory) = .ok padding →
        holds padding := by
  obtain ⟨sized, idle, _⟩ := (sign_init_accepted inits present manager).mp succeeded
  rcases sign_init_outcome inits present manager with ⟨other, _⟩ | ⟨_, _, left⟩
  · exact absurd sized other
  · rw [left]
    exact later_signatures_iff (start_holding idle found).2 found

end SignInit

def Kind.flag : Kind → CkUlong
  | .sign => ckfSign
  | .decrypt => ckfDecrypt
  | .encrypt => ckfEncrypt

/-- C_GetMechanismInfo reports the mechanism with the flag of the kind. -/
def Advertised (mechanism : CkMechanismType) (kind : Kind) : Prop :=
  ∀ (pInfo : Addr) (os : Nat → Windows.Cng) (memory : Memory)
    (state : ModuleState Windows.backend), pInfo ≠ null →
    let ended := (ExportedCall.cGetMechanismInfo slotId mechanism pInfo).alone os memory state
    ended.1.1 = .ok ∧ (ended.1.2.memory .mechanismInfo pInfo).flags &&& kind.flag = kind.flag

theorem mechanism_info_alone (mechanism : CkMechanismType) {pInfo : Addr} (present : pInfo ≠ null)
    (os : Nat → Windows.Cng) (memory : Memory) (state : ModuleState Windows.backend) :
    (ExportedCall.cGetMechanismInfo slotId mechanism pInfo).alone os memory state =
      match mechanismInfo mechanism with
      | some info => ((.ok, Caller.stored ⟨memory, []⟩ .mechanismInfo pInfo info), state)
      | none => ((.mechanismInvalid, ⟨memory, []⟩), state) := by
  have known : cGetMechanismInfo slotId mechanism pInfo ⟨memory, []⟩ = .ret
      (match mechanismInfo mechanism with
      | some info => (.ok, Caller.stored ⟨memory, []⟩ .mechanismInfo pInfo info)
      | none => (.mechanismInvalid, ⟨memory, []⟩)) := by
    unfold cGetMechanismInfo
    rw [if_neg (not_not.mpr rfl), if_neg present]
    cases mechanismInfo mechanism <;> rfl
  show execute _ (cGetMechanismInfo slotId mechanism pInfo ⟨memory, []⟩) os state = _
  rw [known]
  cases mechanismInfo mechanism <;> rfl

theorem advertised_iff {mechanism : CkMechanismType} {kind : Kind} :
    Advertised mechanism kind ↔
      ∃ info, mechanismInfo mechanism = some info ∧ info.flags &&& kind.flag = kind.flag := by
  constructor
  · intro advertised
    have reported := advertised 8 (fun _ => Windows.alwaysSigns) Memory.blank none (by decide)
    rw [mechanism_info_alone mechanism (by decide)] at reported
    cases known : mechanismInfo mechanism with
    | none =>
        rw [known] at reported
        cases reported.1
    | some info =>
        rw [known] at reported
        exact ⟨info, rfl, by simpa using reported.2⟩
  · rintro ⟨info, known, flagged⟩ pInfo os memory state present
    rw [mechanism_info_alone mechanism present, known]
    exact ⟨rfl, by simpa using flagged⟩

theorem advertised_sign {mechanism : CkMechanismType} : Advertised mechanism .sign ↔
    mechanism = ckmRsaPkcs ∨ mechanism = ckmRsaPkcsPss ∨ mechanism = ckmEcdsa := by
  rw [advertised_iff]
  unfold mechanismInfo
  split_ifs with pkcs1 pss oaep ecdsa
  · exact ⟨fun _ => Or.inl pkcs1, fun _ => ⟨_, rfl, by decide⟩⟩
  · exact ⟨fun _ => Or.inr (Or.inl pss), fun _ => ⟨_, rfl, by decide⟩⟩
  · constructor
    · rintro ⟨_, ⟨⟩, flagged⟩
      exact absurd flagged (by decide)
    · rintro (same | same | same)
      · exact absurd same pkcs1
      · exact absurd same pss
      · exact absurd (same.symm.trans oaep) (by decide)
  · exact ⟨fun _ => Or.inr (Or.inr ecdsa), fun _ => ⟨_, rfl, by decide⟩⟩
  · constructor
    · rintro ⟨_, absent, _⟩
      cases absent
    · rintro (same | same | same)
      · exact absurd same pkcs1
      · exact absurd same pss
      · exact absurd same ecdsa

theorem advertised_cipher {mechanism : CkMechanismType} {kind : Kind} (cipher : kind ≠ .sign) :
    Advertised mechanism kind ↔ mechanism = ckmRsaPkcs ∨ mechanism = ckmRsaPkcsOaep := by
  have flags (info : CkMechanismInfo) : info.flags &&& kind.flag = kind.flag ↔
      (kind = .decrypt ∧ info.flags &&& ckfDecrypt = ckfDecrypt) ∨
        (kind = .encrypt ∧ info.flags &&& ckfEncrypt = ckfEncrypt) := by
    cases kind with
    | sign => exact absurd rfl cipher
    | decrypt => simp [Kind.flag]
    | encrypt => simp [Kind.flag]
  have some_cipher : kind = .decrypt ∨ kind = .encrypt := by
    cases kind with
    | sign => exact absurd rfl cipher
    | decrypt => exact Or.inl rfl
    | encrypt => exact Or.inr rfl
  rw [advertised_iff]
  simp only [flags]
  unfold mechanismInfo
  split_ifs with pkcs1 pss oaep ecdsa
  · refine ⟨fun _ => Or.inl pkcs1, fun _ => ⟨_, rfl, ?_⟩⟩
    exact some_cipher.imp (fun same => ⟨same, by decide⟩) (fun same => ⟨same, by decide⟩)
  · constructor
    · rintro ⟨_, ⟨⟩, ⟨_, flagged⟩ | ⟨_, flagged⟩⟩ <;> exact absurd flagged (by decide)
    · rintro (same | same)
      · exact absurd same pkcs1
      · exact absurd (same.symm.trans pss) (by decide)
  · refine ⟨fun _ => Or.inr oaep, fun _ => ⟨_, rfl, ?_⟩⟩
    exact some_cipher.imp (fun same => ⟨same, by decide⟩) (fun same => ⟨same, by decide⟩)
  · constructor
    · rintro ⟨_, ⟨⟩, ⟨_, flagged⟩ | ⟨_, flagged⟩⟩ <;> exact absurd flagged (by decide)
    · rintro (same | same)
      · exact absurd same pkcs1
      · exact absurd same oaep
  · constructor
    · rintro ⟨_, absent, _⟩
      cases absent
    · rintro (same | same)
      · exact absurd same pkcs1
      · exact absurd same oaep

/-- The mechanism requested is offered, and is the one performed; any other is refused. -/
structure MechanismHonoured (lone : LoneCall Windows.backend) (call : InitCall)
    (manager : Manager Windows.backend) : Prop where
  accepted : (lone.outcome (some manager)).1.1 = .ok →
    Advertised (requested lone call).mechanism call.kind
  refused : ¬ Advertised (requested lone call).mechanism call.kind →
    (lone.outcome (some manager)).1.1 = .mechanismInvalid ∧
      (lone.outcome (some manager)).2 = some manager
  performed : call.kind = .sign → (lone.outcome (some manager)).1.1 = .ok →
    LaterSignatures (lone.outcome (some manager)).2 call.session call.key fun padding =>
      padding.mechanism = (requested lone call).mechanism

/-- The mechanism is one to sign with, and if nothing else stands against the start, it
is the one that the type of the key will be signed with. -/
def MechanismFits (lone : LoneCall Windows.backend) (call : InitCall)
    (manager : Manager Windows.backend) : Prop :=
  call.kind = .sign → Advertised (requested lone call).mechanism .sign ∧
    ∀ key : Windows.Key, WellSized .windows (requested lone call) →
      manager.operationState .sign call.session = .idle →
      usable .sign (manager.registry call.key) = some key →
      ((requested lone call).mechanism = ckmEcdsa ↔ key.keyTypeEnum = .ec)

theorem cipher_mechanism_refused (target : Target) {kind : Kind} (cipher : kind ≠ .sign)
    {mechanism : CkMechanism}
    (other : ¬ (mechanism.mechanism = ckmRsaPkcs ∨ mechanism.mechanism = ckmRsaPkcsOaep))
    (caller : Caller) :
    kind.readParams target mechanism caller = .ret (.error .mechanismInvalid, caller) := by
  obtain ⟨pkcs1, oaep⟩ := not_or.mp other
  have parsed : (parseRsaCipherMechanism target mechanism : Call _) caller =
      .ret (.error .mechanismInvalid, caller) := by
    unfold parseRsaCipherMechanism
    rw [if_neg pkcs1, if_pos oaep]
    rfl
  cases kind with
  | sign => exact absurd rfl cipher
  | decrypt => exact parsed
  | encrypt => exact parsed

theorem cipher_mechanism_honoured {lone : LoneCall Windows.backend} {call : InitCall}
    (inits : lone.call.initCall = some call) (present : call.pMechanism ≠ null)
    (cipher : call.kind ≠ .sign) (manager : Manager Windows.backend) :
    MechanismHonoured lone call manager := by
  have refused (absent : ¬ Advertised (requested lone call).mechanism call.kind) :
      (lone.outcome (some manager)).1.1 = .mechanismInvalid ∧
        (lone.outcome (some manager)).2 = some manager := by
    rw [advertised_cipher cipher] at absent
    have alone := init_refused_alone inits present lone.os (some manager)
      (cipher_mechanism_refused .windows cipher absent _)
    rw [LoneCall.outcome, alone]
    exact ⟨rfl, rfl⟩
  constructor
  · intro succeeded
    by_contra absent
    rw [(refused absent).1] at succeeded
    cases succeeded
  · exact refused
  · exact fun sign => absurd sign cipher

theorem padding_mechanism {keyType : Windows.KeyType} {mechanism : CkMechanism} {memory : Memory}
    (offered : mechanism.mechanism = ckmRsaPkcs ∨ mechanism.mechanism = ckmRsaPkcsPss ∨
      mechanism.mechanism = ckmEcdsa) :
    (∀ padding, Windows.SignParams.new keyType (keptParams mechanism memory) = .ok padding →
        padding.mechanism = mechanism.mechanism) ↔
      (mechanism.mechanism = ckmEcdsa ↔ keyType = .ec) := by
  cases keyType with
  | ec =>
      constructor
      · exact fun every => ⟨fun _ => rfl, fun _ => (every .ec rfl).symm⟩
      · rintro same padding ⟨⟩
        exact (same.mpr rfl).symm
  | rsa =>
      by_cases pss : mechanism.mechanism = ckmRsaPkcsPss
      · constructor
        · intro _
          rw [pss]
          decide
        · intro _ padding chosen
          rw [keptParams, if_pos pss, Windows.new_pss] at chosen
          obtain ⟨name, _, rfl⟩ := chosen
          exact pss.symm
      · -- Without parameters an RSA key signs as PKCS #1 says.
        have plain : keptParams mechanism memory = none := if_neg pss
        rw [plain]
        constructor
        · intro every
          have same := every _ rfl
          rw [← same]
          decide
        · rintro other padding ⟨⟩
          rcases offered with same | same | same
          · exact same.symm
          · exact absurd same pss
          · cases other.mp same

/-- Every start by a mechanism is honoured or refused, exactly if a signature asks for a
mechanism to sign with and, where nothing else stands against the start, for the one that the
type of its key is signed with. -/
theorem mechanism_honoured_iff {lone : LoneCall Windows.backend} {call : InitCall}
    (inits : lone.call.initCall = some call) (present : call.pMechanism ≠ null)
    (manager : Manager Windows.backend) :
    MechanismHonoured lone call manager ↔ MechanismFits lone call manager := by
  rcases call with ⟨kind, session, pMechanism, key⟩
  by_cases cipher : kind ≠ .sign
  · exact ⟨fun _ sign => absurd sign cipher,
      fun _ => cipher_mechanism_honoured inits present cipher manager⟩
  · obtain rfl := not_not.mp cipher
    constructor
    · intro honoured _
      have offered : Advertised (lone.memory .mechanism pMechanism).mechanism .sign := by
        by_contra absent
        exact sign_init_never_invalid inits present manager (honoured.refused absent).1
      refine ⟨offered, ?_⟩
      intro object sized idle found
      have succeeded := (sign_init_accepted inits present manager).mpr ⟨sized, idle, object, found⟩
      have later := honoured.performed rfl succeeded
      rw [sign_init_later inits present found succeeded] at later
      exact (padding_mechanism (advertised_sign.mp offered)).mp later
    · intro fits
      obtain ⟨offered, matching⟩ := fits rfl
      constructor
      · exact fun _ => offered
      · exact fun absent => absurd offered absent
      · intro _ succeeded
        obtain ⟨sized, idle, object, found⟩ :=
          (sign_init_accepted inits present manager).mp succeeded
        rw [sign_init_later inits present found succeeded]
        exact (padding_mechanism (advertised_sign.mp offered)).mpr
          (matching object sized idle found)

/-! A Windows with one RSA key, and starts of a signature with it. -/

def oneRsaKey : Windows.Cng := .steady [.forCert 7 [1] .rsa] (fun _ => 64) 0

def rsaStart (mechanism : CkMechanismType) (params : CkRsaPkcsPssParams) :
    LoneCall Windows.backend where
  call := .cSignInit 1 32 1
  memory := (Memory.blank.set .mechanism 32 ⟨mechanism, 48, 12⟩).set .pssParams 48 params
  os := fun _ => oneRsaKey

theorem only_key_found : usable .sign ((Manager.new oneRsaKey : Manager Windows.backend).registry 1) =
    some (.forCert 7 [1] .rsa) := rfl

/-- The mechanism requested need not be the one performed: one that hashes as well is accepted. -/
theorem unknown_mechanism_accepted :
    ¬ ∀ (lone : LoneCall Windows.backend) (call : InitCall) (manager : Manager Windows.backend),
        lone.call.initCall = some call → call.pMechanism ≠ null →
        MechanismHonoured lone call manager := by
  intro honoured
  have absent : ¬ Advertised 0x40 .sign := by
    rw [advertised_sign]
    decide
  exact absent ((honoured (rsaStart 0x40 ⟨0, 0, 0⟩) ⟨.sign, 1, 32, 1⟩ (.new oneRsaKey) rfl
    (by decide)).accepted (by decide +kernel))

theorem pkcs1_honoured :
    MechanismHonoured (rsaStart ckmRsaPkcs ⟨0, 0, 0⟩) ⟨.sign, 1, 32, 1⟩ (.new oneRsaKey) := by
  refine (mechanism_honoured_iff rfl (by decide) _).mpr fun _ => ⟨?_, ?_⟩
  · exact advertised_sign.mpr (Or.inl rfl)
  · intro key _ _ found
    cases found.symm.trans only_key_found
    decide

/-- CNG always uses MGF1 with the hash of the digest, and knows four hashes. -/
def Expressible (params : CkRsaPkcsPssParams) : Prop :=
  expectedMgf params.hashAlg = some params.mgf

instance (params : CkRsaPkcsPssParams) : Decidable (Expressible params) :=
  inferInstanceAs (Decidable (_ = _))

/-- The padding says the same hash, mask generation and salt length. -/
def Denotes (params : CkRsaPkcsPssParams) (padding : Windows.SignParams) : Prop :=
  Expressible params ∧ ∃ name, hashAlgorithmString params.hashAlg = .ok name ∧
    padding = .rsaPss ⟨name, params.sLen⟩

/-- PSS parameters are used as they were given, or the start is refused, as it is with those
of OAEP. -/
structure PssHonoured (lone : LoneCall Windows.backend) (session : CkSessionHandle)
    (key : CkObjectHandle) (params : CkRsaPkcsPssParams) (manager : Manager Windows.backend) :
    Prop where
  performed : (lone.outcome (some manager)).1.1 = .ok →
    LaterSignatures (lone.outcome (some manager)).2 session key (Denotes params)
  refused : ¬ Expressible params → (lone.outcome (some manager)).1.1 ≠ .ok ∧
    (lone.outcome (some manager)).2 = some manager

section Pss
variable {lone : LoneCall Windows.backend} {session : CkSessionHandle} {pMechanism : Addr}
  {key : CkObjectHandle} {params : CkRsaPkcsPssParams}

theorem kept_pss (pss : (lone.memory .mechanism pMechanism).mechanism = ckmRsaPkcsPss)
    (given : lone.memory .pssParams (lone.memory .mechanism pMechanism).pParameter = params) :
    keptParams (lone.memory .mechanism pMechanism) lone.memory = some params := by
  rw [keptParams, if_pos pss, given]

/-- PSS parameters are honoured or refused exactly if CNG can express them or something else
stands against the start: a parameter block of the wrong size, or a signature that is already
active. -/
theorem pss_honoured_iff (inits : lone.call.initCall = some ⟨.sign, session, pMechanism, key⟩)
    (present : pMechanism ≠ null)
    (pss : (lone.memory .mechanism pMechanism).mechanism = ckmRsaPkcsPss)
    (given : lone.memory .pssParams (lone.memory .mechanism pMechanism).pParameter = params)
    {manager : Manager Windows.backend} {object : Windows.Key}
    (found : usable .sign (manager.registry key) = some object)
    (rsa : object.keyTypeEnum = .rsa) :
    PssHonoured lone session key params manager ↔
      Expressible params ∨ ¬ WellSized .windows (lone.memory .mechanism pMechanism) ∨
        manager.operationState .sign session ≠ .idle := by
  have accepted := sign_init_accepted inits present manager
  constructor
  · intro honoured
    by_contra neither
    obtain ⟨other, free⟩ := not_or.mp neither
    obtain ⟨sized, idle⟩ := not_or.mp free
    exact (honoured.refused other).1
      (accepted.mpr ⟨not_not.mp sized, not_not.mp idle, object, found⟩)
  · intro condition
    have settled : (lone.outcome (some manager)).1.1 = .ok → Expressible params := by
      intro succeeded
      obtain ⟨sized, idle, _⟩ := accepted.mp succeeded
      exact condition.resolve_right (not_or.mpr ⟨not_not.mpr sized, not_not.mpr idle⟩)
    constructor
    · intro succeeded
      rw [sign_init_later inits present found succeeded, kept_pss pss given, rsa]
      exact fun padding chosen => ⟨settled succeeded, Windows.new_pss.mp chosen⟩
    · intro other
      have failed : (lone.outcome (some manager)).1.1 ≠ .ok := fun succeeded =>
        other (settled succeeded)
      exact ⟨failed, sign_init_refused inits present failed⟩

end Pss

/-- PSS parameters are not always honoured or refused: SHA-256 with the mask generation
of SHA-1 is neither. -/
theorem mask_generation_ignored :
    ¬ ∀ (lone : LoneCall Windows.backend) (session : CkSessionHandle) (pMechanism : Addr)
        (key : CkObjectHandle) (params : CkRsaPkcsPssParams) (manager : Manager Windows.backend)
        (object : Windows.Key),
        lone.call.initCall = some ⟨.sign, session, pMechanism, key⟩ → pMechanism ≠ null →
        (lone.memory .mechanism pMechanism).mechanism = ckmRsaPkcsPss →
        lone.memory .pssParams (lone.memory .mechanism pMechanism).pParameter = params →
        usable .sign (manager.registry key) = some object → object.keyTypeEnum = .rsa →
        PssHonoured lone session key params manager := by
  intro every
  let lone := rsaStart ckmRsaPkcsPss ⟨ckmSha256, ckgMgf1Sha1, 32⟩
  have honoured := every lone 1 32 1 ⟨ckmSha256, ckgMgf1Sha1, 32⟩ (.new oneRsaKey) _ rfl (by decide)
    rfl rfl only_key_found rfl
  have succeeded : (lone.outcome (some (.new oneRsaKey))).1.1 = .ok := by decide +kernel
  have denoted := (sign_init_later rfl (by decide) only_key_found succeeded).mp
    (honoured.performed succeeded) (.rsaPss ⟨sha256AlgorithmString, 32⟩) rfl
  exact absurd denoted.1 (by decide)

theorem sha256_pss_honoured :
    PssHonoured (rsaStart ckmRsaPkcsPss ⟨ckmSha256, ckgMgf1Sha256, 32⟩) 1 1
      ⟨ckmSha256, ckgMgf1Sha256, 32⟩ (.new oneRsaKey) := by
  have inits : (rsaStart ckmRsaPkcsPss ⟨ckmSha256, ckgMgf1Sha256, 32⟩).call.initCall =
      some ⟨.sign, 1, 32, 1⟩ := rfl
  exact (pss_honoured_iff inits (by decide) rfl rfl only_key_found rfl).mpr (Or.inl (by decide))

end OsClientCerts
