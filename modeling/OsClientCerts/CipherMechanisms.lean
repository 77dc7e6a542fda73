import OsClientCerts.AcceptedData

/-!
The mechanisms that C_EncryptInit and C_DecryptInit accept, and the padding that
CNG is given for each of them when the operation is used.
-/

namespace OsClientCerts
open Resumption LocalAutomata

inductive OaepHash where
  | sha1 | sha256 | sha384 | sha512
  deriving DecidableEq, Repr

namespace OaepHash

def mechanism : OaepHash → CkMechanismType
  | .sha1 => ckmSha1
  | .sha256 => ckmSha256
  | .sha384 => ckmSha384
  | .sha512 => ckmSha512

def mgf1 : OaepHash → CkUlong
  | .sha1 => ckgMgf1Sha1
  | .sha256 => ckgMgf1Sha256
  | .sha384 => ckgMgf1Sha384
  | .sha512 => ckgMgf1Sha512

def name : OaepHash → String
  | .sha1 => "SHA1"
  | .sha256 => "SHA256"
  | .sha384 => "SHA384"
  | .sha512 => "SHA512"

/-- The name as CNG reads it, in UTF-16 and with a NUL behind it. -/
def identifier (hash : OaepHash) : List UInt16 :=
  hash.name.toList.map (fun letter => letter.val.toUInt16) ++ [0]

theorem hash_algorithm_string (hash : OaepHash) :
    hashAlgorithmString hash.mechanism = .ok hash.identifier := by
  cases hash <;> decide

theorem expected_mgf_iff {hashAlg : CkMechanismType} {mgf : CkUlong} :
    expectedMgf hashAlg = some mgf ↔ ∃ hash : OaepHash, hashAlg = hash.mechanism ∧ mgf = hash.mgf1 := by
  constructor
  · intro known
    unfold expectedMgf at known
    split_ifs at known with sha1 sha256 sha384 sha512 <;> cases known
    · exact ⟨.sha1, sha1, rfl⟩
    · exact ⟨.sha256, sha256, rfl⟩
    · exact ⟨.sha384, sha384, rfl⟩
    · exact ⟨.sha512, sha512, rfl⟩
  · rintro ⟨hash, rfl, rfl⟩
    cases hash <;> rfl

end OaepHash

/-- OAEP parameters with a label given in place, as CNG can use them. -/
structure SoundOaep (params : CkRsaPkcsOaepParams) : Prop where
  source : params.source = ckzDataSpecified
  hash : ∃ hash : OaepHash, params.hashAlg = hash.mechanism ∧ params.mgf = hash.mgf1
  labelLength : params.ulSourceDataLen ≤ 8192
  label : params.pSourceData = null → params.ulSourceDataLen = 0

section
variable (target : Target) (memory : Memory) (mechanism : CkMechanism)

def CkMechanism.oaepParams : CkRsaPkcsOaepParams := memory .oaepParams mechanism.pParameter

def Acceptable : Prop :=
  (mechanism.mechanism = ckmRsaPkcs ∧ mechanism.ulParameterLen = 0 ∧ mechanism.pParameter = null) ∨
    (mechanism.mechanism = ckmRsaPkcsOaep ∧
      mechanism.ulParameterLen = target.sizeOfOaepParams ∧ mechanism.pParameter ≠ null ∧
      SoundOaep (mechanism.oaepParams memory))

def CkMechanism.labelBytes : Bytes :=
  memory.slice target .bytes (mechanism.oaepParams memory).pSourceData
    (mechanism.oaepParams memory).ulSourceDataLen

/-- The padding is that of the mechanism, with its hash and its label. -/
def PaddingOf : Windows.CipherPaddingInfo → Prop
  | .pkcs1v15 info => mechanism.mechanism = ckmRsaPkcs ∧ info.pszAlgId = none
  | .oaep info => mechanism.mechanism = ckmRsaPkcsOaep ∧
      (∃ hash : OaepHash, (mechanism.oaepParams memory).hashAlg = hash.mechanism ∧
        info.pszAlgId = hash.identifier) ∧
      info.label = mechanism.labelBytes target memory

end

section Parsing
variable {S : Signature} {target : Target} {caller : Caller}

theorem label_run (params : CkRsaPkcsOaepParams)
    (empty : params.pSourceData = null → params.ulSourceDataLen = 0) :
    (readOaepLabel target params : Ffi S Bytes) caller = .ret
      (caller.memory.slice target .bytes params.pSourceData params.ulSourceDataLen,
        if params.ulSourceDataLen = 0 then caller
        else caller.loaded .bytes params.pSourceData params.ulSourceDataLen) := by
  unfold readOaepLabel
  by_cases none : params.ulSourceDataLen = 0
  · rw [if_pos (Or.inl none), if_pos none, none]
    rfl
  · have present : ¬ (params.ulSourceDataLen = 0 ∨ params.pSourceData = null) :=
      not_or.mpr ⟨none, fun missing => none (empty missing)⟩
    rw [if_neg present, if_neg none]
    rfl

theorem parse_oaep_run (params : CkRsaPkcsOaepParams) :
    (¬ SoundOaep params ∧ ∃ rv,
        (parseOaepParams target params : Ffi S _) caller = .ret (.error rv, caller) ∧ rv ≠ .ok) ∨
      (SoundOaep params ∧ (parseOaepParams target params : Ffi S _) caller = .ret
        (.ok (.oaep params.hashAlg
          (caller.memory.slice target .bytes params.pSourceData params.ulSourceDataLen)),
        if params.ulSourceDataLen = 0 then caller
        else caller.loaded .bytes params.pSourceData params.ulSourceDataLen)) := by
  -- The checks on the parameter block come first, and nothing is read for a refusal.
  unfold parseOaepParams
  by_cases source : params.source ≠ ckzDataSpecified
  · rw [if_pos source]
    exact Or.inl ⟨fun sound => source sound.source, _, rfl, nofun⟩
  rw [if_neg source]
  cases known : expectedMgf params.hashAlg with
  | none =>
      refine Or.inl ⟨fun sound => ?_, _, rfl, nofun⟩
      have expected := OaepHash.expected_mgf_iff.mpr sound.hash
      rw [known] at expected
      cases expected
  | some expected =>
      dsimp only
      by_cases other : params.mgf ≠ expected
      · rw [if_pos other]
        refine Or.inl ⟨fun sound => other ?_, _, rfl, nofun⟩
        have same := OaepHash.expected_mgf_iff.mpr sound.hash
        rw [known] at same
        exact (Option.some.inj same).symm
      rw [if_neg other]
      by_cases missing : params.pSourceData = null ∧ params.ulSourceDataLen ≠ 0
      · rw [if_pos missing]
        exact Or.inl ⟨fun sound => missing.2 (sound.label missing.1), _, rfl, nofun⟩
      rw [if_neg missing]
      by_cases large : params.ulSourceDataLen > maxOaepLabelLen
      · rw [if_pos large]
        exact Or.inl ⟨fun sound => Nat.not_lt_of_le sound.labelLength large, _, rfl, nofun⟩
      rw [if_neg large]
      have empty : params.pSourceData = null → params.ulSourceDataLen = 0 := fun nowhere =>
        Classical.byContradiction fun some_label => missing ⟨nowhere, some_label⟩
      have hash := OaepHash.expected_mgf_iff.mp (not_not.mp other ▸ known)
      refine Or.inr ⟨⟨not_not.mp source, hash, Nat.le_of_not_lt large, empty⟩, ?_⟩
      rw [ffi_bind, label_run params empty]
      rfl

def CkMechanism.parsed (target : Target) (memory : Memory) (mechanism : CkMechanism) :
    RsaCipherMechanism :=
  if mechanism.mechanism = ckmRsaPkcs then .pkcs1v15
  else .oaep (mechanism.oaepParams memory).hashAlg (mechanism.labelBytes target memory)

/-- What is read for a mechanism: the parameter block of OAEP once its size is known to
be right, and then the label, if the parameters are sound and there is one. -/
def CkMechanism.reads (target : Target) (memory : Memory) (mechanism : CkMechanism)
    (made : List Access) : Prop :=
  made = [] ∨
    ∃ block label, made = block :: label ∧
      (mechanism.mechanism = ckmRsaPkcsOaep ∧
        mechanism.ulParameterLen = target.sizeOfOaepParams ∧ mechanism.pParameter ≠ null) ∧
      block = ⟨.oaepParams, mechanism.pParameter, 1, false⟩ ∧
      (label = [] ∨ SoundOaep (mechanism.oaepParams memory) ∧
        label = [⟨.bytes, (mechanism.oaepParams memory).pSourceData,
          (mechanism.oaepParams memory).ulSourceDataLen, false⟩])

theorem parse_cipher_run (target : Target) (mechanism : CkMechanism) (caller : Caller) :
    ∃ outcome made, (parseRsaCipherMechanism target mechanism : Ffi S _) caller =
        .ret (outcome, ⟨caller.memory, caller.accesses ++ made⟩) ∧
      mechanism.reads target caller.memory made ∧
      ((¬ Acceptable target caller.memory mechanism ∧ ∃ rv, outcome = .error rv ∧ rv ≠ .ok) ∨
        (Acceptable target caller.memory mechanism ∧
          outcome = .ok (mechanism.parsed target caller.memory))) := by
  have silent (value : Except CkRv RsaCipherMechanism) : (pure value : Ffi S _) caller =
      .ret (value, ⟨caller.memory, caller.accesses ++ []⟩) := by
    rw [List.append_nil]
    rfl
  unfold parseRsaCipherMechanism
  by_cases pkcs1 : mechanism.mechanism = ckmRsaPkcs
  · have noOaep : mechanism.mechanism ≠ ckmRsaPkcsOaep := by
      rw [pkcs1]
      decide
    rw [if_pos pkcs1]
    by_cases some_params : mechanism.ulParameterLen ≠ 0 ∨ mechanism.pParameter ≠ null
    · rw [if_pos some_params]
      refine ⟨_, [], silent _, Or.inl rfl, Or.inl ⟨?_, _, rfl, nofun⟩⟩
      rintro (⟨_, none, nowhere⟩ | ⟨oaep, _⟩)
      · exact some_params.elim (absurd none) (absurd nowhere)
      · exact noOaep oaep
    · rw [if_neg some_params]
      obtain ⟨none, nowhere⟩ := not_or.mp some_params
      refine ⟨_, [], silent _, Or.inl rfl,
        Or.inr ⟨Or.inl ⟨pkcs1, not_not.mp none, not_not.mp nowhere⟩, ?_⟩⟩
      rw [CkMechanism.parsed, if_pos pkcs1]
  rw [if_neg pkcs1]
  by_cases other : mechanism.mechanism ≠ ckmRsaPkcsOaep
  · rw [if_pos other]
    refine ⟨_, [], silent _, Or.inl rfl, Or.inl ⟨?_, _, rfl, nofun⟩⟩
    exact fun acceptable => acceptable.elim (fun plain => pkcs1 plain.1) fun oaep => other oaep.1
  rw [if_neg other]
  by_cases wrong : mechanism.ulParameterLen ≠ target.sizeOfOaepParams ∨ mechanism.pParameter = null
  · rw [if_pos wrong]
    refine ⟨_, [], silent _, Or.inl rfl, Or.inl ⟨?_, _, rfl, nofun⟩⟩
    rintro (⟨plain, _⟩ | ⟨_, size, present, _⟩)
    · exact pkcs1 plain
    · exact wrong.elim (absurd size) present
  rw [if_neg wrong]
  obtain ⟨size, present⟩ := not_or.mp wrong
  have checked := And.intro (not_not.mp other) (And.intro (not_not.mp size) present)
  rcases @parse_oaep_run S target (caller.loaded .oaepParams mechanism.pParameter 1)
    (mechanism.oaepParams caller.memory) with ⟨unsound, rv, run, failure⟩ | ⟨sound, run⟩
  · refine ⟨.error rv, [⟨.oaepParams, mechanism.pParameter, 1, false⟩], run,
      Or.inr ⟨_, [], rfl, checked, rfl, Or.inl rfl⟩, Or.inl ⟨?_, rv, rfl, failure⟩⟩
    exact fun acceptable => acceptable.elim (fun plain => pkcs1 plain.1) fun oaep =>
      unsound oaep.2.2.2
  · have accepted : Acceptable target caller.memory mechanism :=
      Or.inr ⟨checked.1, checked.2.1, checked.2.2, sound⟩
    have owned : mechanism.parsed target caller.memory =
        .oaep (mechanism.oaepParams caller.memory).hashAlg (mechanism.labelBytes target caller.memory) :=
      if_neg pkcs1
    by_cases empty : (mechanism.oaepParams caller.memory).ulSourceDataLen = 0
    · rw [if_pos empty] at run
      exact ⟨_, [⟨.oaepParams, mechanism.pParameter, 1, false⟩], run,
        Or.inr ⟨_, [], rfl, checked, rfl, Or.inl rfl⟩, Or.inr ⟨accepted, congrArg _ owned.symm⟩⟩
    · rw [if_neg empty] at run
      refine ⟨_, [⟨.oaepParams, mechanism.pParameter, 1, false⟩, _], ?_,
        Or.inr ⟨_, [_], rfl, checked, rfl, Or.inr ⟨sound, rfl⟩⟩,
        Or.inr ⟨accepted, congrArg _ owned.symm⟩⟩
      apply run.trans
      rw [Caller.loaded, Caller.loaded, List.append_assoc]
      rfl

end Parsing

namespace Windows

/-- With this mechanism CNG gets this padding, and only the key, its handle and CNG
itself can fail. -/
structure PaddedWith (mechanism : RsaCipherMechanism) (padding : CipherPaddingInfo) : Prop where
  chosen : CipherPaddingInfo.new mechanism = .ok padding
  decrypts : ∀ (os : Cng) (key : Key) (data : Bytes) (doDecrypt : Bool),
    key.decryptInternal os data doDecrypt mechanism =
      if key.keyTypeEnum ≠ .rsa then .error .invalidKey
      else do
        let handle ← keyHandleFromCert os key.cert
        truncatedOutput (os.ncryptDecrypt handle padding) data doDecrypt
  encrypts : ∀ (os : Cng) (cert : CertContext) (data : Bytes) (doEncrypt : Bool),
    encryptInternal os cert data doEncrypt mechanism = do
      let handle ← publicKeyFromCert os cert
      exactOutput (os.bcryptEncrypt handle padding) data doEncrypt

theorem padded_with {mechanism : RsaCipherMechanism} {padding : CipherPaddingInfo}
    (chosen : CipherPaddingInfo.new mechanism = .ok padding) : PaddedWith mechanism padding := by
  refine ⟨chosen, ?_, ?_⟩
  · intro os key data doDecrypt
    rw [Key.decryptInternal, chosen]
    rfl
  · intro os cert data doEncrypt
    rw [encryptInternal, chosen]
    rfl

end Windows

section Padding
variable {target : Target} {memory : Memory} {mechanism : CkMechanism}

theorem parsed_padded (acceptable : Acceptable target memory mechanism) :
    ∃ padding, Windows.PaddedWith (mechanism.parsed target memory) padding ∧
      PaddingOf target memory mechanism padding := by
  -- The two tables of hashes agree.
  rcases acceptable with ⟨pkcs1, _⟩ | ⟨oaep, _, _, sound⟩
  · refine ⟨.pkcs1v15 ⟨none⟩, Windows.padded_with ?_, pkcs1, rfl⟩
    rw [CkMechanism.parsed, if_pos pkcs1]
    rfl
  · obtain ⟨hash, named, _⟩ := sound.hash
    have pkcs1 : mechanism.mechanism ≠ ckmRsaPkcs := by
      rw [oaep]
      decide
    refine ⟨.oaep ⟨hash.identifier, mechanism.labelBytes target memory⟩, Windows.padded_with ?_, oaep,
      ⟨hash, named, rfl⟩, rfl⟩
    rw [CkMechanism.parsed, if_neg pkcs1, Windows.CipherPaddingInfo.new, named,
      OaepHash.hash_algorithm_string]

end Padding

def Parsed (target : Target) (params : RsaCipherMechanism) : Prop :=
  ∃ (memory : Memory) (mechanism : CkMechanism), Acceptable target memory mechanism ∧
    params = mechanism.parsed target memory

def Kind.FromMechanism (target : Target) : (kind : Kind) → kind.Params → Prop
  | .sign => fun _ => True
  | .decrypt => Parsed target
  | .encrypt => Parsed target

def StartsParsed (target : Target) (request : ModuleCall) : Prop :=
  ∀ arguments, request = .manager arguments → ∀ kind session handle params,
    arguments.operationCall = some ⟨kind, session, .start handle params⟩ →
    kind.FromMechanism target params

def AsksOnly {α : Type} (legal : ModuleCall → Prop) (program : Call α) : Prop :=
  ∀ caller, (program caller).Asks legal

section Asking
variable {α β : Type} {legal : ModuleCall → Prop}

theorem asks_only_bind {first : Call α} {next : α → Call β} (asks : AsksOnly legal first)
    (goesOn : ∀ value, AsksOnly legal (next value)) : AsksOnly legal (first >>= next) :=
  fun caller => asks_bind (asks caller) fun result => goesOn result.1 result.2

theorem asks_only_pure (value : α) : AsksOnly legal (pure value) := fun _ => trivial

theorem read_cell_asks (region : Region) (addr : Addr) :
    AsksOnly legal (readCell region addr) := fun _ => trivial

theorem read_slice_asks (target : Target) (region : Region) (addr : Addr) (count : Nat) :
    AsksOnly legal (readSlice target region addr count) := fun _ => trivial

theorem write_cell_asks (region : Region) (addr : Addr) (value : region.Value) :
    AsksOnly legal (writeCell region addr value) := fun _ => trivial

theorem asks_only_ite {condition : Prop} [Decidable condition] {first second : Call α}
    (yes : AsksOnly legal first) (no : AsksOnly legal second) :
    AsksOnly legal (if condition then first else second) := by
  split
  · exact yes
  · exact no

theorem proxy_asks {ε : Type} [FromUnit ε] {fn : ProxyFn ε α}
    (legalRequest : legal (.manager fn.arguments)) : AsksOnly legal fn.run :=
  fun _ => ⟨legalRequest, fun _ => trivial⟩

theorem reply_asks {ε : Type} [FromUnit ε] {fn : ProxyFn ε α} {next : Option (Except ε α) → Call β}
    (legalRequest : legal (.manager fn.arguments)) (absent : AsksOnly legal (next none))
    (failed : ∀ err, AsksOnly legal (next (some (.error err))))
    (done : ∀ value, AsksOnly legal (next (some (.ok value)))) :
    AsksOnly legal (fn.run >>= next) := by
  apply asks_only_bind (proxy_asks legalRequest)
  intro reply
  match reply with
  | none => exact absent
  | some (.error err) => exact failed err
  | some (.ok value) => exact done value

theorem report_done_asks {target : Target} {fn : ProxyFn CryptoError Unit} {onOk : Call Unit}
    (legalRequest : legal (.manager fn.arguments)) (ends : AsksOnly legal onOk) :
    AsksOnly legal (reportDone target fn onOk) := by
  exact reply_asks legalRequest (asks_only_pure _) (fun _ => asks_only_pure _) fun _ =>
    asks_only_bind ends fun _ => asks_only_pure _

theorem deliver_output_asks {target : Target} {query : ProxyFn CryptoError Nat}
    {consume : ProxyFn CryptoError Bytes} {pOutput pulOutputLen : Addr}
    (asked : legal (.manager query.arguments)) (consumed : legal (.manager consume.arguments)) :
    AsksOnly legal (deliverOutput target query consume pOutput pulOutputLen) := by
  refine reply_asks asked (asks_only_pure _) (fun _ => asks_only_pure _) fun length => ?_
  apply asks_only_ite
  · exact fun _ => trivial
  apply asks_only_bind (read_cell_asks .ulong pulOutputLen)
  intro capacity
  apply asks_only_ite
  · exact fun _ => trivial
  exact reply_asks consumed (asks_only_pure _) (fun _ => asks_only_pure _) fun _ _ => trivial

theorem output_asks {target : Target} {exported : ExportedCall} {call : OutputCall}
    (outputs : exported.outputCall = some call)
    (legalRequests : ∀ given, legal (.manager (ManagerProxy.query call.kind call.session
      given).arguments) ∧ legal (.manager (ManagerProxy.consume call.kind call.session
      given).arguments)) : AsksOnly legal (exported.run target) := by
  intro caller
  rcases output_run target outputs caller with ⟨_, run⟩ | ⟨_, run⟩
  · rw [run]
    trivial
  · rw [run]
    exact deliver_output_asks (legalRequests _).1 (legalRequests _).2 _

theorem update_asks {target : Target} {exported : ExportedCall} {call : UpdateCall}
    (updates : exported.updateCall = some call)
    (legalRequest : ∀ part, legal (.manager (ManagerProxy.update call.kind call.session
      part).arguments)) : AsksOnly legal (exported.run target) := by
  intro caller
  have ends : AsksOnly legal call.noOutput := by
    intro after
    rw [no_output_run]
    trivial
  rcases update_run target updates caller with ⟨_, run⟩ | ⟨_, run⟩
  · rw [run]
    trivial
  · rw [run]
    exact report_done_asks (legalRequest _) ends _

theorem init_asks {target : Target} {exported : ExportedCall} {call : InitCall}
    (inits : exported.initCall = some call)
    (legalRequest : ∀ (mechanism : CkMechanism) (caller after : Caller) params,
      call.kind.readParams target mechanism caller = .ret (.ok params, after) →
      legal (.manager (ManagerProxy.start call.kind call.session call.key params).arguments)) :
    AsksOnly legal (exported.run target) := by
  intro caller
  rw [init_program target inits, InitCall.program]
  by_cases nothing : call.pMechanism = null
  · rw [if_pos nothing]
    trivial
  · rw [if_neg nothing]
    obtain ⟨outcome, read, ended, _⟩ := read_params_ends target call.kind
      (caller.memory .mechanism call.pMechanism) (caller.loaded .mechanism call.pMechanism 1)
    simp only [ffi_bind, read_cell_run, ret_bind, ended]
    cases outcome with
    | error refusal => trivial
    | ok params => exact report_done_asks (legalRequest _ _ _ params ended) (asks_only_pure _) _

end Asking

section Starting
variable {target : Target}

theorem starts_nothing {arguments : ManagerArguments}
    (other : ∀ kind session handle params,
      arguments.operationCall ≠ some ⟨kind, session, .start handle params⟩) :
    StartsParsed target (.manager arguments) := by
  rintro _ ⟨⟩ kind session handle params started
  exact absurd started (other kind session handle params)

theorem no_operation_starts_nothing {arguments : ManagerArguments}
    (none : arguments.operationCall = none) : StartsParsed target (.manager arguments) := by
  apply starts_nothing
  intro kind session handle params started
  rw [none] at started
  cases started

theorem requests_start_nothing {α : Type} {fn : ProxyFn CryptoError α} {kind : Kind}
    {session : CkSessionHandle} {request : OperationRequest kind}
    {carried : Except CryptoError α → OperationResult}
    (requests : fn.Requests kind session request carried)
    (other : ∀ handle params, request ≠ .start handle params) :
    StartsParsed target (.manager fn.arguments) := by
  apply starts_nothing
  intro kind' session' handle params started
  rw [requests.call] at started
  cases started
  exact other handle params rfl

theorem read_params_parsed {kind : Kind} {mechanism : CkMechanism} {caller after : Caller}
    {params : kind.Params}
    (ended : kind.readParams target mechanism caller = .ret (.ok params, after)) :
    kind.FromMechanism target params := by
  have parsed {made : RsaCipherMechanism} (read : (parseRsaCipherMechanism target mechanism :
      Ffi moduleSignature _) caller = .ret (.ok made, after)) : Parsed target made := by
    obtain ⟨outcome, _, run, _, ⟨_, _, refused, _⟩ | ⟨acceptable, accepted⟩⟩ :=
      @parse_cipher_run moduleSignature target mechanism caller
    · rw [refused] at run
      cases run.symm.trans read
    · rw [accepted] at run
      cases run.symm.trans read
      exact ⟨_, _, acceptable, rfl⟩
  cases kind with
  | sign => trivial
  | decrypt | encrypt => exact parsed ended

theorem read_template_asks {legal : ModuleCall → Prop} (count : Nat) (addr : Addr) :
    AsksOnly legal (readTemplate target count addr) := by
  induction count generalizing addr with
  | zero => exact asks_only_pure _
  | succ count ih =>
      apply asks_only_bind (read_cell_asks .attribute addr)
      intro attr
      apply asks_only_ite (asks_only_pure _)
      have slice : AsksOnly legal (inputSlice target attr.pValue attr.ulValueLen) := by
        intro caller
        rw [input_slice_run]
        split <;> trivial
      apply asks_only_bind slice
      intro value
      cases value with
      | error rv => exact asks_only_pure _
      | ok bytes =>
          apply asks_only_bind (ih _)
          intro rest
          cases rest <;> exact asks_only_pure _

theorem store_attributes_asks {legal : ModuleCall → Prop} (addr : Addr)
    (template : List (CkAttribute × Option Bytes)) (rv : CkRv) :
    AsksOnly legal (storeAttributes target addr template rv) := by
  induction template generalizing addr rv with
  | nil => exact asks_only_pure _
  | cons entry rest ih =>
      rcases entry with ⟨attr, value⟩
      have one : AsksOnly legal (storeAttribute target addr attr value) := by
        intro caller
        unfold storeAttribute
        cases value with
        | none => trivial
        | some bytes =>
            dsimp only
            split_ifs <;> trivial
      exact asks_only_bind one fun _ => ih _ _

theorem exported_asks (target : Target) (exported : ExportedCall) :
    AsksOnly (StartsParsed target) (exported.run target) := by
  cases exported with
  | cSign | cSignFinal | cEncrypt | cEncryptFinal | cDecrypt | cDecryptFinal =>
      apply output_asks rfl
      intro given
      constructor
      · apply requests_start_nothing (ManagerProxy.query_requests _ _ given)
        cases given <;> exact nofun
      · apply requests_start_nothing (ManagerProxy.consume_requests _ _ given)
        cases given <;> exact nofun
  | cSignUpdate | cEncryptUpdate | cDecryptUpdate =>
      apply update_asks rfl
      intro part
      exact requests_start_nothing (ManagerProxy.update_requests _ _ part) nofun
  | cSignInit | cEncryptInit | cDecryptInit =>
      apply init_asks rfl
      rintro mechanism caller after params ended _ ⟨⟩ kind session handle chosen started
      rw [(ManagerProxy.start_requests _ _ _ _).call] at started
      cases started
      exact read_params_parsed ended
  | cInitialize | cFinalize => exact fun _ => ⟨nofun, fun _ => trivial⟩
  | cOpenSession | cGetSessionInfo =>
      apply asks_only_ite (asks_only_pure _)
      exact reply_asks (no_operation_starts_nothing rfl) (asks_only_pure _)
        (fun _ => asks_only_pure _) fun _ _ => trivial
  | cCloseSession | cFindObjectsFinal =>
      exact reply_asks (no_operation_starts_nothing rfl) (asks_only_pure _)
        (fun _ => asks_only_pure _) fun _ => asks_only_pure _
  | cCloseAllSessions slotID =>
      apply asks_only_ite (asks_only_pure _)
      exact reply_asks (no_operation_starts_nothing rfl) (asks_only_pure _)
        (fun _ => asks_only_pure _) fun _ => asks_only_pure _
  | cGetAttributeValue object pTemplate count =>
      apply asks_only_ite (asks_only_pure _)
      apply asks_only_ite (asks_only_pure _)
      apply asks_only_bind (read_slice_asks target .attribute pTemplate count)
      intro template
      refine reply_asks (no_operation_starts_nothing rfl) (asks_only_pure _)
        (fun _ => asks_only_pure _) fun values => ?_
      apply asks_only_ite (asks_only_pure _)
      apply asks_only_bind (read_slice_asks target .attribute pTemplate count)
      exact fun template => store_attributes_asks _ _ _
  | cFindObjectsInit session pTemplate count =>
      apply asks_only_ite (asks_only_pure _)
      apply asks_only_ite (asks_only_pure _)
      apply asks_only_bind (read_template_asks count pTemplate)
      intro attrs
      cases attrs with
      | error rv => exact asks_only_pure _
      | ok attrs =>
          exact reply_asks (no_operation_starts_nothing rfl) (asks_only_pure _)
            (fun _ => asks_only_pure _) fun _ => asks_only_pure _
  | cFindObjects session phObject most pulCount =>
      apply asks_only_ite (asks_only_pure _)
      exact reply_asks (no_operation_starts_nothing rfl) (asks_only_pure _)
        (fun _ => asks_only_pure _) fun _ => asks_only_ite (asks_only_pure _) fun _ => trivial
  | cGetMechanismInfo slotID type pInfo =>
      apply asks_only_ite (asks_only_pure _)
      apply asks_only_ite (asks_only_pure _)
      intro caller
      cases mechanismInfo type <;> trivial
  | cGetInfo | cGetFunctionList | cGetSlotInfo | cGetTokenInfo =>
      exact asks_only_ite (asks_only_pure _) fun _ => trivial
  | cLogout | notSupported => exact asks_only_pure _
  | cGetSlotList pSlotList pulCount =>
      apply asks_only_ite (asks_only_pure _)
      apply asks_only_bind (write_cell_asks .ulong pulCount 1)
      intro _
      refine asks_only_ite ?_ (asks_only_pure _)
      apply asks_only_bind (read_cell_asks .ulong pulCount)
      exact fun slotCount => asks_only_ite (asks_only_pure _) fun _ => trivial
  | cGetMechanismList slotID pList pulCount =>
      apply asks_only_ite (asks_only_pure _)
      refine asks_only_ite ?_ fun _ => trivial
      apply asks_only_bind (read_cell_asks .ulong pulCount)
      exact fun count => asks_only_ite (asks_only_pure _) fun _ => trivial

end Starting

/-- CNG gets the padding of this mechanism for these parameters. -/
def Kind.PaddedFor (target : Target) (memory : Memory) (mechanism : CkMechanism) :
    (kind : Kind) → kind.Params → Prop
  | .sign => fun _ => True
  | .decrypt => fun params => ∃ padding, Windows.PaddedWith params padding ∧
      PaddingOf target memory mechanism padding
  | .encrypt => fun params => ∃ padding, Windows.PaddedWith params padding ∧
      PaddingOf target memory mechanism padding

theorem parsed_padded_for {target : Target} {kind : Kind} (cipher : kind ≠ .sign)
    {params : kind.Params} (parsed : kind.FromMechanism target params) :
    ∃ memory mechanism, Acceptable target memory mechanism ∧
      kind.PaddedFor target memory mechanism params := by
  cases kind with
  | sign => exact absurd rfl cipher
  | decrypt | encrypt =>
      obtain ⟨memory, mechanism, acceptable, same⟩ := parsed
      exact ⟨memory, mechanism, acceptable, same ▸ parsed_padded acceptable⟩

section Runs
variable {B : Backend}

theorem started_padded {exported : ExportedCall} {call : InitCall}
    (inits : exported.initCall = some call) (cipher : call.kind ≠ .sign) {memory : Memory}
    {after : Caller} {events : List (ModuleEvent B)}
    (follows : Follows (moduleHandler B) (exported.run B.target ⟨memory, []⟩) events
      (.ok, after)) :
    Acceptable B.target memory (memory .mechanism call.pMechanism) ∧
      ∃ params os state,
        events = [(ManagerProxy.start call.kind call.session call.key params).event os state] ∧
        call.kind.PaddedFor B.target memory (memory .mechanism call.pMechanism) params := by
  have parsed {outcome : Except CkRv RsaCipherMechanism} {left : Caller}
      (read : (parseRsaCipherMechanism B.target (memory .mechanism call.pMechanism) : Call _)
        (Caller.loaded ⟨memory, []⟩ .mechanism call.pMechanism 1) = .ret (outcome, left)) :
      outcome ≠ .error .ok ∧ ∀ made, outcome = .ok made →
        Acceptable B.target memory (memory .mechanism call.pMechanism) ∧
          ∃ padding, Windows.PaddedWith made padding ∧
            PaddingOf B.target memory (memory .mechanism call.pMechanism) padding := by
    obtain ⟨_, _, run, _, ⟨_, rv, rfl, failure⟩ | ⟨acceptable, rfl⟩⟩ :=
      @parse_cipher_run moduleSignature B.target (memory .mechanism call.pMechanism)
        (Caller.loaded ⟨memory, []⟩ .mechanism call.pMechanism 1)
    · cases run.symm.trans read
      exact ⟨fun same => failure (Except.error.inj same), nofun⟩
    · cases run.symm.trans read
      exact ⟨nofun, fun _ same => Except.ok.inj same ▸ ⟨acceptable, parsed_padded acceptable⟩⟩
  rcases init_cases inits follows with
    ⟨_, _, refused, _⟩ | ⟨_, outcome, ⟨ended, _⟩, outcomes⟩
  · cases refused
  · rcases call with ⟨kind, session, pMechanism, key⟩
    cases kind with
    | sign => exact absurd rfl cipher
    | decrypt | encrypt =>
        rcases outcomes with ⟨refused, _⟩ | ⟨params, os, state, rfl, used, _⟩
        · exact absurd refused (parsed ended).1
        · obtain ⟨acceptable, padded⟩ := (parsed ended).2 params rfl
          exact ⟨acceptable, params, os, state, used, padded⟩

/-- Whatever the interleaving, an active operation was started with a parsed mechanism. -/
theorem active_parsed {ι : Type} [DecidableEq ι] {config : ModuleConfig B ι}
    (reached : Reachable (moduleHandler B) (Invocation.program B.target) (fun _ _ => True)
      (initial none) config) {manager : Manager B} (running : config.shared = some manager)
    {kind : Kind} {session : CkSessionHandle} {handle : CkObjectHandle} {params : kind.Params}
    {buffer : Bytes} (active : manager.operationState kind session = .active handle params buffer) :
    kind.FromMechanism B.target params := by
  have linked := reachable_linked reached
  have asked : Asked (StartsParsed B.target) config :=
    reachable_asked (fun invocation => exported_asks B.target invocation.call _) reached
  -- The buffer that is open now was opened by a start that is in the history.
  have open_ : moduleBuffer kind session config.shared = some ((handle, params), buffer) := by
    simp [running, moduleBuffer, active, OperationState.buffer]
  rw [← linked_replays linked] at open_
  obtain ⟨earlier, event, later, split, started, _⟩ :=
    accumulated module_effect_faithful config.history none rfl open_
  have legal := asked.history event (by simp [split])
  rcases event with ⟨os, request, before⟩
  cases request with
  | startProxy => cases started
  | stopProxy => cases started
  | manager arguments =>
      generalize LocalAutomata.after _ earlier none = current at started
      cases current with
      | none => cases started
      | some there =>
          exact legal arguments rfl kind session handle params
            (request_of_some.mp (effect_start started).1)

end Runs

/-- A cipher mechanism is accepted exactly if it can be used. Its label is read after all
checks, and in no run is there an operation that CNG is not given the padding for. -/
theorem cipher_mechanisms_exact :
    (∀ (target : Target) (mechanism : CkMechanism) (caller : Caller), ∃ outcome made,
      (parseRsaCipherMechanism target mechanism : Call _) caller =
        .ret (outcome, ⟨caller.memory, caller.accesses ++ made⟩) ∧
      ((∃ parsed, outcome = .ok parsed) ↔ Acceptable target caller.memory mechanism) ∧
      mechanism.reads target caller.memory made ∧
      ∀ parsed, outcome = .ok parsed → ∃ padding, Windows.PaddedWith parsed padding ∧
        PaddingOf target caller.memory mechanism padding) ∧
    (∀ (exported : ExportedCall) (call : InitCall), exported.initCall = some call →
      call.kind ≠ .sign → ∀ (memory : Memory) (events : List (ModuleEvent Windows.backend))
      (after : Caller), Follows (moduleHandler Windows.backend)
        (exported.run .windows ⟨memory, []⟩) events (.ok, after) →
      Acceptable .windows memory (memory .mechanism call.pMechanism) ∧
        ∃ params os state,
          events = [(ManagerProxy.start call.kind call.session call.key params).event os state] ∧
          call.kind.PaddedFor .windows memory (memory .mechanism call.pMechanism) params) ∧
    ∀ (ι : Type) [DecidableEq ι] (config : ModuleConfig Windows.backend ι),
      Reachable (moduleHandler Windows.backend) (Invocation.program .windows) (fun _ _ => True)
        (initial none) config →
      ∀ manager, config.shared = some manager → ∀ kind session handle params buffer,
        kind ≠ .sign → manager.operationState kind session = .active handle params buffer →
        ∃ memory mechanism, Acceptable .windows memory mechanism ∧
          kind.PaddedFor .windows memory mechanism params := by
  refine ⟨?_, ?_, ?_⟩
  · intro target mechanism caller
    obtain ⟨outcome, made, run, reads, ⟨other, rv, rfl, _⟩ | ⟨acceptable, rfl⟩⟩ :=
      @parse_cipher_run moduleSignature target mechanism caller
    · exact ⟨_, made, run, iff_of_false nofun other, reads, nofun⟩
    · refine ⟨_, made, run, iff_of_true ⟨_, rfl⟩ acceptable, reads, ?_⟩
      rintro parsed ⟨⟩
      exact parsed_padded acceptable
  · exact fun exported call inits cipher memory events after follows =>
      started_padded inits cipher follows
  · exact fun ι _ config reached manager running kind session handle params buffer cipher active =>
      parsed_padded_for cipher (active_parsed reached running active)

def labelledOaep : Memory :=
  (Memory.blank.set .mechanism 8 ⟨ckmRsaPkcsOaep, 32, 24⟩).set .oaepParams 32
    ⟨ckmSha256, ckgMgf1Sha256, ckzDataSpecified, 64, 2⟩

example : CkMechanism.parsed .windows labelledOaep ⟨ckmRsaPkcsOaep, 32, 24⟩ =
    .oaep ckmSha256 [0, 0] := by decide

end OsClientCerts
