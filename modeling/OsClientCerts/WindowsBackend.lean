import OsClientCerts.Backend
import OsClientCerts.Mechanism

/-!
The Windows backend. `Cng` is what Windows answers during one manager call; the
objects are the plain data that the certificate stores gave. Every length CNG
reports has 32 bits.
-/

namespace OsClientCerts.Windows

inductive KeyType where
  | ec
  | rsa
  deriving DecidableEq, Repr

/-- A `PCCERT_CONTEXT`, known only by its address. -/
abbrev CertContext := Nat
abbrev KeyHandle := Nat

structure Cert where
  classAttr : Bytes
  token : Bytes
  id : Bytes
  label : Bytes
  value : Bytes
  issuer : Bytes
  serialNumber : Bytes
  subject : Bytes
  deriving DecidableEq

structure Key where
  cert : CertContext
  classAttr : Bytes
  token : Bytes
  id : Bytes
  label : Bytes
  subject : Bytes
  issuer : Bytes
  serialNumber : Bytes
  privateFlag : Bytes
  keyType : Bytes
  modulus : Option Bytes
  ecParams : Option Bytes
  keyTypeEnum : KeyType
  signFlag : Bytes
  decryptFlag : Bytes
  sensitiveFlag : Bytes
  extractableFlag : Bytes
  alwaysAuthenticateFlag : Bytes
  localFlag : Bytes
  deriving DecidableEq

structure Trust where
  classAttr : Bytes
  token : Bytes
  issuer : Bytes
  serialNumber : Bytes
  serverAuth : Bytes
  clientAuth : Bytes
  codeSigning : Bytes
  emailProtection : Bytes
  stepUpApproved : Bytes
  sha1Hash : Bytes
  deriving DecidableEq

def Trust.id (trust : Trust) : Bytes := trust.issuer ++ trust.serialNumber

def storedBool : Bytes → Option Bool
  | [b] => some (b ≠ 0)
  | _ => none

/-- One byte, or the four bytes of a `CK_ULONG`. -/
def requestedBool : Bytes → Option Bool
  | [b] => some (b ≠ 0)
  | [a, b, c, d] => some (a ≠ 0 ∨ b ≠ 0 ∨ c ≠ 0 ∨ d ≠ 0)
  | _ => none

def boolAttrMatches (stored requested : Bytes) : Bool :=
  match storedBool stored, requestedBool requested with
  | some left, some right => left == right
  | _, _ => false

/-- The bare content of the serial number, or its DER encoding as an INTEGER. -/
def serialNumberMatches (stored requested : Bytes) : Bool :=
  if requested = stored then true
  else match requested with
    | tag :: length :: content =>
        decide (requested.length = stored.length + 2 ∧ tag = 0x02 ∧
          length.toNat = stored.length ∧ content = stored)
    | _ => false

def Cert.matchesOne (cert : Cert) (attr : CkAttributeType × Bytes) : Bool :=
  if attr.1 = ckaToken then boolAttrMatches cert.token attr.2
  else if attr.1 = ckaSerialNumber then serialNumberMatches cert.serialNumber attr.2
  else if attr.1 = ckaClass then attr.2 == cert.classAttr
  else if attr.1 = ckaLabel then attr.2 == cert.label
  else if attr.1 = ckaId then attr.2 == cert.id
  else if attr.1 = ckaValue then attr.2 == cert.value
  else if attr.1 = ckaIssuer then attr.2 == cert.issuer
  else if attr.1 = ckaSubject then attr.2 == cert.subject
  else false

def Cert.getAttribute (cert : Cert) (attrType : CkAttributeType) : Option Bytes :=
  if attrType = ckaClass then some cert.classAttr
  else if attrType = ckaToken then some cert.token
  else if attrType = ckaLabel then some cert.label
  else if attrType = ckaId then some cert.id
  else if attrType = ckaValue then some cert.value
  else if attrType = ckaIssuer then some cert.issuer
  else if attrType = ckaSerialNumber then some cert.serialNumber
  else if attrType = ckaSubject then some cert.subject
  else none

def Key.matchesOne (key : Key) (attr : CkAttributeType × Bytes) : Bool :=
  if attr.1 = ckaToken then boolAttrMatches key.token attr.2
  else if attr.1 = ckaPrivate then boolAttrMatches key.privateFlag attr.2
  else if attr.1 = ckaSign then boolAttrMatches key.signFlag attr.2
  else if attr.1 = ckaDecrypt then boolAttrMatches key.decryptFlag attr.2
  else if attr.1 = ckaSensitive then boolAttrMatches key.sensitiveFlag attr.2
  else if attr.1 = ckaExtractable then boolAttrMatches key.extractableFlag attr.2
  else if attr.1 = ckaAlwaysAuthenticate then boolAttrMatches key.alwaysAuthenticateFlag attr.2
  else if attr.1 = ckaLocal then boolAttrMatches key.localFlag attr.2
  else if attr.1 = ckaSerialNumber then serialNumberMatches key.serialNumber attr.2
  else if attr.1 = ckaClass then attr.2 == key.classAttr
  else if attr.1 = ckaLabel then attr.2 == key.label
  else if attr.1 = ckaSubject then attr.2 == key.subject
  else if attr.1 = ckaIssuer then attr.2 == key.issuer
  else if attr.1 = ckaId then attr.2 == key.id
  else if attr.1 = ckaKeyType then attr.2 == key.keyType
  else if attr.1 = ckaModulus then some attr.2 == key.modulus
  else if attr.1 = ckaEcParams then some attr.2 == key.ecParams
  else false

def Key.getAttribute (key : Key) (attrType : CkAttributeType) : Option Bytes :=
  if attrType = ckaClass then some key.classAttr
  else if attrType = ckaToken then some key.token
  else if attrType = ckaLabel then some key.label
  else if attrType = ckaSubject then some key.subject
  else if attrType = ckaIssuer then some key.issuer
  else if attrType = ckaSerialNumber then some key.serialNumber
  else if attrType = ckaId then some key.id
  else if attrType = ckaPrivate then some key.privateFlag
  else if attrType = ckaKeyType then some key.keyType
  else if attrType = ckaModulus then key.modulus
  else if attrType = ckaEcParams then key.ecParams
  else if attrType = ckaSign then some key.signFlag
  else if attrType = ckaDecrypt then some key.decryptFlag
  else if attrType = ckaSensitive then some key.sensitiveFlag
  else if attrType = ckaExtractable then some key.extractableFlag
  else if attrType = ckaAlwaysAuthenticate then some key.alwaysAuthenticateFlag
  else if attrType = ckaLocal then some key.localFlag
  else none

def Trust.matchesOne (trust : Trust) (attr : CkAttributeType × Bytes) : Bool :=
  if attr.1 = ckaToken then boolAttrMatches trust.token attr.2
  else if attr.1 = ckaSerialNumber then serialNumberMatches trust.serialNumber attr.2
  else if attr.1 = ckaClass then attr.2 == trust.classAttr
  else if attr.1 = ckaIssuer then attr.2 == trust.issuer
  else false

def Trust.getAttribute (trust : Trust) (attrType : CkAttributeType) : Option Bytes :=
  if attrType = ckaClass then some trust.classAttr
  else if attrType = ckaToken then some trust.token
  else if attrType = ckaIssuer then some trust.issuer
  else if attrType = ckaSerialNumber then some trust.serialNumber
  else if attrType = ckaNssTrustServerAuth then some trust.serverAuth
  else if attrType = ckaNssTrustClientAuth then some trust.clientAuth
  else if attrType = ckaNssTrustCodeSigning then some trust.codeSigning
  else if attrType = ckaNssTrustEmailProtection then some trust.emailProtection
  else if attrType = ckaNssTrustStepUpApproved then some trust.stepUpApproved
  else if attrType = ckaNssCertSha1Hash then some trust.sha1Hash
  else none

def objectMatches (object : Object Cert Key Trust) (attrs : List (CkAttributeType × Bytes)) :
    Bool :=
  match object with
  | .cert cert => attrs.all cert.matchesOne
  | .key key => attrs.all key.matchesOne
  | .trust trust => attrs.all trust.matchesOne

def getAttribute (object : Object Cert Key Trust) (attrType : CkAttributeType) : Option Bytes :=
  match object with
  | .cert cert => cert.getAttribute attrType
  | .key key => key.getAttribute attrType
  | .trust trust => trust.getAttribute attrType

def supportedAttributes : List CkAttributeType :=
  [ckaClass, ckaToken, ckaLabel, ckaId, ckaValue, ckaIssuer, ckaSerialNumber, ckaSubject,
    ckaPrivate, ckaKeyType, ckaModulus, ckaEcParams, ckaSign, ckaDecrypt, ckaSensitive,
    ckaExtractable, ckaAlwaysAuthenticate, ckaLocal]

structure BcryptPkcs1PaddingInfo where
  pszAlgId : Option (List UInt16)
  deriving DecidableEq, Repr

structure BcryptPssPaddingInfo where
  pszAlgId : List UInt16
  cbSalt : CkUlong
  deriving DecidableEq, Repr

structure BcryptOaepPaddingInfo where
  pszAlgId : List UInt16
  label : Bytes
  deriving DecidableEq, Repr

inductive SignParams where
  | ec
  | rsaPkcs1 (info : BcryptPkcs1PaddingInfo)
  | rsaPss (info : BcryptPssPaddingInfo)
  deriving DecidableEq, Repr

/-- The parameters alone decide between PKCS #1 and PSS; `mgf` is not looked at. -/
def SignParams.new (keyType : KeyType) (params : Option CkRsaPkcsPssParams) :
    Except Unit SignParams :=
  match keyType with
  | .ec => .ok .ec
  | .rsa =>
      match params with
      | none => .ok (.rsaPkcs1 ⟨none⟩)
      | some pssParams =>
          match hashAlgorithmString pssParams.hashAlg with
          | .ok algorithmString => .ok (.rsaPss ⟨algorithmString, pssParams.sLen⟩)
          | .error () => .error ()

inductive CipherPaddingInfo where
  | pkcs1v15 (info : BcryptPkcs1PaddingInfo)
  | oaep (info : BcryptOaepPaddingInfo)
  deriving DecidableEq, Repr

def CipherPaddingInfo.new : RsaCipherMechanism → Except Unit CipherPaddingInfo
  | .pkcs1v15 => .ok (.pkcs1v15 ⟨none⟩)
  | .oaep hashAlg label =>
      match hashAlgorithmString hashAlg with
      | .ok algorithmString => .ok (.oaep ⟨algorithmString, label⟩)
      | .error () => .error ()

structure AcquiredKey where
  acquired : Bool
  lastError : UInt32
  handle : KeyHandle
  keySpec : UInt32
  mustFree : Bool

def certNcryptKeySpec : UInt32 := 0xFFFFFFFF

/-- Status, reported length, and what was written to the buffer if there was one. -/
structure CngAnswer where
  status : UInt32
  length : UInt32
  output : Bytes

/-- A CNG operation is given its key, padding and data, and a buffer size unless
only the length is asked for. -/
structure Cng where
  now : Nat
  objects : List (Object Cert Key Trust)
  cryptAcquireCertificatePrivateKey : CertContext → AcquiredKey
  ncryptSignHash : KeyHandle → SignParams → Bytes → Option UInt32 → CngAnswer
  ncryptDecrypt : KeyHandle → CipherPaddingInfo → Bytes → Option UInt32 → CngAnswer
  certCreateCertificateContext : Bytes → Except UInt32 CertContext
  cryptImportPublicKeyInfo : CertContext → Except UInt32 KeyHandle
  bcryptEncrypt : KeyHandle → CipherPaddingInfo → Bytes → Option UInt32 → CngAnswer

def keyHandleFromCert (os : Cng) (cert : CertContext) : Except CryptoError KeyHandle :=
  let answer := os.cryptAcquireCertificatePrivateKey cert
  if !answer.acquired then .error (.windows answer.lastError.toNat)
  else if answer.keySpec ≠ certNcryptKeySpec then .error .operationFailed
  else if !answer.mustFree then .error .operationFailed
  else .ok answer.handle

def publicKeyFromCert (os : Cng) (cert : CertContext) : Except CryptoError KeyHandle :=
  (os.cryptImportPublicKeyInfo cert).mapError fun lastError => .windows lastError.toNat

def Cert.context (os : Cng) (cert : Cert) : Except CryptoError CertContext :=
  if cert.value.length < UInt32.size then
    (os.certCreateCertificateContext cert.value).mapError fun lastError =>
      .windows lastError.toNat
  else .error .operationFailed

def filled (size : UInt32) (output : Bytes) : Bytes :=
  (output ++ List.replicate size.toNat 0).take size.toNat

@[simp] theorem filled_length (size : UInt32) (output : Bytes) :
    (filled size output).length = size.toNat := by
  simp [filled]

/-- The first of the two CNG calls: it asks for the size of the output. -/
def askLength (operation : Bytes → Option UInt32 → CngAnswer) (data : Bytes) :
    Except CryptoError UInt32 :=
  if data.length < UInt32.size then
    let answer := operation data none
    if answer.status ≠ 0 then .error (.windows answer.status.toNat) else .ok answer.length
  else .error .operationFailed

def askOutput (operation : Bytes → Option UInt32 → CngAnswer) (data : Bytes) (size : UInt32) :
    Except CryptoError CngAnswer :=
  let answer := operation data (some size)
  if answer.status ≠ 0 then .error (.windows answer.status.toNat) else .ok answer

/-- A signature or ciphertext must have exactly the size that was announced. -/
def exactOutput (operation : Bytes → Option UInt32 → CngAnswer) (data : Bytes) (perform : Bool) :
    Except CryptoError Bytes := do
  let size ← askLength operation data
  if perform then
    let answer ← askOutput operation data size
    if answer.length ≠ size then .error .operationFailed else .ok (filled size answer.output)
  else .ok (List.replicate size.toNat 0)

/-- A plaintext may turn out shorter. -/
def truncatedOutput (operation : Bytes → Option UInt32 → CngAnswer) (data : Bytes)
    (perform : Bool) : Except CryptoError Bytes := do
  let size ← askLength operation data
  if perform then
    let answer ← askOutput operation data size
    .ok ((filled size answer.output).take answer.length.toNat)
  else .ok (List.replicate size.toNat 0)

def Key.signInternal (os : Cng) (key : Key) (data : Bytes) (params : Option CkRsaPkcsPssParams)
    (doSignature : Bool) : Except CryptoError Bytes := do
  let handle ← keyHandleFromCert os key.cert
  let signParams ← (SignParams.new key.keyTypeEnum params).mapError fun _ =>
    CryptoError.operationFailed
  exactOutput (os.ncryptSignHash handle signParams) data doSignature

def Key.getSignatureLength (os : Cng) (key : Key) (data : Bytes)
    (params : Option CkRsaPkcsPssParams) : Except CryptoError Nat :=
  (key.signInternal os data params false).map List.length

def Key.sign (os : Cng) (key : Key) (data : Bytes) (params : Option CkRsaPkcsPssParams) :
    Except CryptoError Bytes := key.signInternal os data params true

def Key.decryptInternal (os : Cng) (key : Key) (data : Bytes) (doDecrypt : Bool)
    (mechanism : RsaCipherMechanism) : Except CryptoError Bytes := do
  if key.keyTypeEnum ≠ .rsa then .error .invalidKey
  else
    let paddingInfo ← (CipherPaddingInfo.new mechanism).mapError fun _ => CryptoError.invalidKey
    let handle ← keyHandleFromCert os key.cert
    truncatedOutput (os.ncryptDecrypt handle paddingInfo) data doDecrypt

def Key.decryptLength (os : Cng) (key : Key) (data : Bytes) (mechanism : RsaCipherMechanism) :
    Except CryptoError Nat := (key.decryptInternal os data false mechanism).map List.length

def Key.decrypt (os : Cng) (key : Key) (data : Bytes) (mechanism : RsaCipherMechanism) :
    Except CryptoError Bytes := key.decryptInternal os data true mechanism

def encryptInternal (os : Cng) (cert : CertContext) (data : Bytes) (doEncrypt : Bool)
    (mechanism : RsaCipherMechanism) : Except CryptoError Bytes := do
  let handle ← publicKeyFromCert os cert
  let paddingInfo ← (CipherPaddingInfo.new mechanism).mapError fun _ => CryptoError.invalidKey
  exactOutput (os.bcryptEncrypt handle paddingInfo) data doEncrypt

def Cert.encryptLength (os : Cng) (cert : Cert) (data : Bytes) (mechanism : RsaCipherMechanism) :
    Except CryptoError Nat := do
  let context ← cert.context os
  (encryptInternal os context data false mechanism).map List.length

def Cert.encrypt (os : Cng) (cert : Cert) (data : Bytes) (mechanism : RsaCipherMechanism) :
    Except CryptoError Bytes := do
  let context ← cert.context os
  encryptInternal os context data true mechanism

def Key.encryptLength (os : Cng) (key : Key) (data : Bytes) (mechanism : RsaCipherMechanism) :
    Except CryptoError Nat := (encryptInternal os key.cert data false mechanism).map List.length

def Key.encrypt (os : Cng) (key : Key) (data : Bytes) (mechanism : RsaCipherMechanism) :
    Except CryptoError Bytes := encryptInternal os key.cert data true mechanism

theorem exact_output_length {operation : Bytes → Option UInt32 → CngAnswer} {data output : Bytes}
    {perform : Bool} (done : exactOutput operation data perform = .ok output) :
    ∃ size, askLength operation data = .ok size ∧ output.length = size.toNat := by
  obtain ⟨size, asked, rest⟩ := bind_ok done
  refine ⟨size, asked, ?_⟩
  cases perform with
  | false =>
      cases rest
      simp
  | true =>
      obtain ⟨answer, _, last⟩ := bind_ok rest
      split at last
      · cases last
      · cases last
        simp

theorem truncated_output_length {operation : Bytes → Option UInt32 → CngAnswer}
    {data output : Bytes} {perform : Bool}
    (done : truncatedOutput operation data perform = .ok output) :
    ∃ size, askLength operation data = .ok size ∧ output.length ≤ size.toNat := by
  obtain ⟨size, asked, rest⟩ := bind_ok done
  refine ⟨size, asked, ?_⟩
  cases perform with
  | false =>
      cases rest
      simp
  | true =>
      obtain ⟨answer, _, last⟩ := bind_ok rest
      cases last
      simp

theorem fits_of_size {output : Bytes} {size : UInt32} (bounded : output.length ≤ size.toNat) :
    output.length < Target.windows.ulongModulus :=
  Nat.lt_of_le_of_lt bounded size.toNat_lt

theorem length_fits_of_output {target : Target} {answer : Except CryptoError Bytes}
    (fits : OutputFits target answer) : LengthFits target (answer.map List.length) := by
  intro length known
  cases answer with
  | error err => cases known
  | ok output =>
      cases known
      exact fits output rfl

theorem sign_internal_fits (os : Cng) (key : Key) (data : Bytes)
    (params : Option CkRsaPkcsPssParams) (doSignature : Bool) :
    OutputFits .windows (key.signInternal os data params doSignature) := by
  intro output done
  obtain ⟨handle, _, done⟩ := bind_ok done
  obtain ⟨signParams, _, done⟩ := bind_ok done
  obtain ⟨size, _, exactly⟩ := exact_output_length done
  exact fits_of_size (Nat.le_of_eq exactly)

theorem decrypt_internal_fits (os : Cng) (key : Key) (data : Bytes) (doDecrypt : Bool)
    (mechanism : RsaCipherMechanism) :
    OutputFits .windows (key.decryptInternal os data doDecrypt mechanism) := by
  intro output done
  unfold Key.decryptInternal at done
  split at done
  · cases done
  · obtain ⟨paddingInfo, _, done⟩ := bind_ok done
    obtain ⟨handle, _, done⟩ := bind_ok done
    obtain ⟨size, _, bounded⟩ := truncated_output_length done
    exact fits_of_size bounded

theorem encrypt_internal_fits (os : Cng) (cert : CertContext) (data : Bytes) (doEncrypt : Bool)
    (mechanism : RsaCipherMechanism) :
    OutputFits .windows (encryptInternal os cert data doEncrypt mechanism) := by
  intro output done
  obtain ⟨handle, _, done⟩ := bind_ok done
  obtain ⟨paddingInfo, _, done⟩ := bind_ok done
  obtain ⟨size, _, exactly⟩ := exact_output_length done
  exact fits_of_size (Nat.le_of_eq exactly)

def backend : Backend where
  target := .windows
  Os := Cng
  Cert := Cert
  Key := Key
  Trust := Trust
  certId := Cert.id
  keyId := Key.id
  trustId := Trust.id
  supportedAttributes := supportedAttributes
  objectMatches := objectMatches
  getAttribute := getAttribute
  now := Cng.now
  listObjects := Cng.objects
  keyGetSignatureLength os key := key.getSignatureLength os
  keySign os key := key.sign os
  keyDecryptLength os key := key.decryptLength os
  keyDecrypt os key := key.decrypt os
  certEncryptLength os cert := cert.encryptLength os
  certEncrypt os cert := cert.encrypt os
  keyEncryptLength os key := key.encryptLength os
  keyEncrypt os key := key.encrypt os
  signatureLengthFits os key data params :=
    length_fits_of_output (sign_internal_fits os key data params false)
  signFits os key data params := sign_internal_fits os key data params true
  decryptLengthFits os key data mechanism :=
    length_fits_of_output (decrypt_internal_fits os key data false mechanism)
  decryptFits os key data mechanism := decrypt_internal_fits os key data true mechanism
  certEncryptLengthFits os cert data mechanism := by
    intro length known
    obtain ⟨context, _, known⟩ := bind_ok known
    exact length_fits_of_output (encrypt_internal_fits os context data false mechanism) _ known
  certEncryptFits os cert data mechanism := by
    intro output known
    obtain ⟨context, _, known⟩ := bind_ok known
    exact encrypt_internal_fits os context data true mechanism output known
  keyEncryptLengthFits os key data mechanism :=
    length_fits_of_output (encrypt_internal_fits os key.cert data false mechanism)
  keyEncryptFits os key data mechanism := encrypt_internal_fits os key.cert data true mechanism

/-! Within one state of Windows, the two CNG calls agree on the length. -/

theorem map_ok {α β ε : Type} {answer : Except ε α} {f : α → β} {value : β}
    (done : answer.map f = .ok value) : ∃ inner, answer = .ok inner ∧ f inner = value := by
  cases answer with
  | error err => cases done
  | ok inner => exact ⟨inner, rfl, Except.ok.inj done⟩

theorem both_ok {α β γ ε : Type} {first : Except ε α} {next : α → Except ε β}
    {other : α → Except ε γ} {one : β} {two : γ} (done : first >>= next = .ok one)
    (doneToo : first >>= other = .ok two) :
    ∃ middle, next middle = .ok one ∧ other middle = .ok two := by
  -- Both calls begin with the same step, so they go on from the same value.
  obtain ⟨middle, reached, goesOn⟩ := bind_ok done
  obtain ⟨again, reachedAgain, goesOnToo⟩ := bind_ok doneToo
  rw [reached] at reachedAgain
  cases reachedAgain
  exact ⟨middle, goesOn, goesOnToo⟩

theorem exact_output_agrees {operation : Bytes → Option UInt32 → CngAnswer}
    {data announced output : Bytes} (measured : exactOutput operation data false = .ok announced)
    (made : exactOutput operation data true = .ok output) : output.length = announced.length := by
  obtain ⟨size, asked, first⟩ := exact_output_length measured
  obtain ⟨again, askedAgain, second⟩ := exact_output_length made
  rw [asked] at askedAgain
  cases askedAgain
  rw [first, second]

theorem truncated_output_agrees {operation : Bytes → Option UInt32 → CngAnswer}
    {data announced output : Bytes}
    (measured : truncatedOutput operation data false = .ok announced)
    (made : truncatedOutput operation data true = .ok output) :
    output.length ≤ announced.length := by
  obtain ⟨size, asked, rest⟩ := bind_ok measured
  obtain ⟨again, askedAgain, shorter⟩ := truncated_output_length made
  rw [asked] at askedAgain
  cases askedAgain
  cases rest
  simpa using shorter

theorem sign_agrees {os : Cng} {key : Key} {data output : Bytes}
    {params : Option CkRsaPkcsPssParams} {length : Nat}
    (measured : key.getSignatureLength os data params = .ok length)
    (made : key.sign os data params = .ok output) : output.length ≤ length := by
  obtain ⟨announced, dummy, rfl⟩ := map_ok measured
  -- The key is acquired, and the padding chosen, before it matters which call this is.
  obtain ⟨handle, measured, made⟩ := both_ok dummy made
  obtain ⟨signParams, measured, made⟩ := both_ok measured made
  exact Nat.le_of_eq (exact_output_agrees measured made)

theorem decrypt_agrees {os : Cng} {key : Key} {data output : Bytes}
    {mechanism : RsaCipherMechanism} {length : Nat}
    (measured : key.decryptLength os data mechanism = .ok length)
    (made : key.decrypt os data mechanism = .ok output) : output.length ≤ length := by
  obtain ⟨announced, dummy, rfl⟩ := map_ok measured
  unfold Key.decrypt at made
  unfold Key.decryptInternal at dummy made
  by_cases other : key.keyTypeEnum ≠ .rsa
  · rw [if_pos other] at made
    cases made
  · rw [if_neg other] at dummy made
    obtain ⟨padding, measured, made⟩ := both_ok dummy made
    obtain ⟨handle, measured, made⟩ := both_ok measured made
    exact truncated_output_agrees measured made

theorem encrypt_agrees {os : Cng} {cert : CertContext} {data announced output : Bytes}
    {mechanism : RsaCipherMechanism}
    (measured : encryptInternal os cert data false mechanism = .ok announced)
    (made : encryptInternal os cert data true mechanism = .ok output) :
    output.length ≤ announced.length := by
  obtain ⟨handle, measured, made⟩ := both_ok measured made
  obtain ⟨padding, measured, made⟩ := both_ok measured made
  exact Nat.le_of_eq (exact_output_agrees measured made)

theorem cert_encrypt_agrees {os : Cng} {cert : Cert} {data output : Bytes}
    {mechanism : RsaCipherMechanism} {length : Nat}
    (measured : cert.encryptLength os data mechanism = .ok length)
    (made : cert.encrypt os data mechanism = .ok output) : output.length ≤ length := by
  obtain ⟨context, measured, made⟩ := both_ok measured made
  obtain ⟨announced, dummy, rfl⟩ := map_ok measured
  exact encrypt_agrees dummy made

def Key.forCert (cert : CertContext) (id : Bytes) (keyTypeEnum : KeyType) : Key where
  cert := cert
  classAttr := [3, 0, 0, 0]
  token := [1]
  id := id
  label := []
  subject := []
  issuer := []
  serialNumber := []
  privateFlag := [1]
  keyType := match keyTypeEnum with
    | .rsa => [0, 0, 0, 0]
    | .ec => [3, 0, 0, 0]
  modulus := none
  ecParams := none
  keyTypeEnum := keyTypeEnum
  signFlag := [1]
  decryptFlag := [1]
  sensitiveFlag := [1]
  extractableFlag := [0]
  alwaysAuthenticateFlag := [0]
  localFlag := [1]

/-- Every private key is available under the number of its certificate, and each
key has one output length. Asked for an output, CNG answers with the given status. -/
def Cng.steady (keys : List Key) (length : KeyHandle → UInt32) (status : UInt32) : Cng where
  now := 0
  objects := keys.map .key
  cryptAcquireCertificatePrivateKey cert := ⟨true, 0, cert, certNcryptKeySpec, true⟩
  ncryptSignHash handle _ _ buffer := ⟨if buffer.isSome then status else 0, length handle, []⟩
  ncryptDecrypt handle _ _ buffer := ⟨if buffer.isSome then status else 0, length handle, []⟩
  certCreateCertificateContext _ := .error 0
  cryptImportPublicKeyInfo cert := .ok cert
  bcryptEncrypt handle _ _ buffer := ⟨if buffer.isSome then status else 0, length handle, []⟩

def Cng.holding (now : Nat) (objects : List (Object Cert Key Trust)) : Cng :=
  { Cng.steady [] (fun _ => 64) 0 with now, objects }

end OsClientCerts.Windows
