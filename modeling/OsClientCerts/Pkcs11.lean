import Std.Data.TreeMap.Lemmas
import Mathlib.Data.Finset.Insert

/-!
The PKCS #11 vocabulary of the module: the constants it compares against, the
return codes it produces, and the parameter structures it reads. Numbers are
`CK_ULONG` values as naturals; only the handle counters wrap, and they say so.
Pointers are addresses, and address 0 is null.
-/

namespace OsClientCerts

abbrev Bytes := List UInt8
abbrev Addr := Nat
abbrev CkUlong := Nat
abbrev CkSessionHandle := Nat
abbrev CkObjectHandle := Nat
abbrev CkMechanismType := Nat
abbrev CkAttributeType := Nat

def null : Addr := 0

inductive CkRv where
  | ok | slotIdInvalid | functionFailed | argumentsBad | dataLenRange | deviceError
  | encryptedDataInvalid | functionNotSupported | keyHandleInvalid | mechanismInvalid
  | sessionHandleInvalid | bufferTooSmall | cryptokiNotInitialized
  | cryptokiAlreadyInitialized
  deriving DecidableEq, Repr

def ckmRsaPkcs : CkMechanismType := 0x1
def ckmRsaPkcsOaep : CkMechanismType := 0x9
def ckmRsaPkcsPss : CkMechanismType := 0xD
def ckmSha1 : CkMechanismType := 0x220
def ckmSha256 : CkMechanismType := 0x250
def ckmSha384 : CkMechanismType := 0x260
def ckmSha512 : CkMechanismType := 0x270
def ckmEcdsa : CkMechanismType := 0x1041

def ckgMgf1Sha1 : CkUlong := 1
def ckgMgf1Sha256 : CkUlong := 2
def ckgMgf1Sha384 : CkUlong := 3
def ckgMgf1Sha512 : CkUlong := 4

def ckzDataSpecified : CkUlong := 1

def ckfTokenPresent : CkUlong := 0x1
def ckfRwSession : CkUlong := 0x2
def ckfSerialSession : CkUlong := 0x4
def ckfEncrypt : CkUlong := 0x100
def ckfDecrypt : CkUlong := 0x200
def ckfSign : CkUlong := 0x800

def cksRoPublicSession : CkUlong := 0
def cksRwPublicSession : CkUlong := 2

def ckaClass : CkAttributeType := 0x0
def ckaToken : CkAttributeType := 0x1
def ckaPrivate : CkAttributeType := 0x2
def ckaLabel : CkAttributeType := 0x3
def ckaValue : CkAttributeType := 0x11
def ckaIssuer : CkAttributeType := 0x81
def ckaSerialNumber : CkAttributeType := 0x82
def ckaKeyType : CkAttributeType := 0x100
def ckaSubject : CkAttributeType := 0x101
def ckaId : CkAttributeType := 0x102
def ckaSensitive : CkAttributeType := 0x103
def ckaDecrypt : CkAttributeType := 0x105
def ckaSign : CkAttributeType := 0x108
def ckaModulus : CkAttributeType := 0x120
def ckaExtractable : CkAttributeType := 0x162
def ckaLocal : CkAttributeType := 0x163
def ckaEcParams : CkAttributeType := 0x180
def ckaAlwaysAuthenticate : CkAttributeType := 0x202

/-! Vendor numbers of NSS, as `util.rs` derives them. -/
def nssckVendorNss : CkUlong := 0x4E534350
def ckaNssTrustBase : CkAttributeType := (0x80000000 ||| nssckVendorNss) + 0x2000
def ckaNssTrustServerAuth : CkAttributeType := ckaNssTrustBase + 8
def ckaNssTrustClientAuth : CkAttributeType := ckaNssTrustBase + 9
def ckaNssTrustCodeSigning : CkAttributeType := ckaNssTrustBase + 10
def ckaNssTrustEmailProtection : CkAttributeType := ckaNssTrustBase + 11
def ckaNssTrustStepUpApproved : CkAttributeType := ckaNssTrustBase + 16
def ckaNssCertSha1Hash : CkAttributeType := ckaNssTrustBase + 100

structure CkMechanism where
  mechanism : CkMechanismType
  pParameter : Addr
  ulParameterLen : CkUlong
  deriving DecidableEq, Repr

structure CkAttribute where
  attrType : CkAttributeType
  pValue : Addr
  ulValueLen : CkUlong
  deriving DecidableEq, Repr

structure CkRsaPkcsPssParams where
  hashAlg : CkMechanismType
  mgf : CkUlong
  sLen : CkUlong
  deriving DecidableEq, Repr

structure CkRsaPkcsOaepParams where
  hashAlg : CkMechanismType
  mgf : CkUlong
  source : CkUlong
  pSourceData : Addr
  ulSourceDataLen : CkUlong
  deriving DecidableEq, Repr

structure CkVersion where
  major : Nat := 0
  minor : Nat := 0
  deriving DecidableEq, Repr

structure CkInfo where
  cryptokiVersion : CkVersion
  manufacturerID : String
  libraryDescription : String
  deriving DecidableEq, Repr

structure CkSlotInfo where
  slotDescription : String
  manufacturerID : String
  flags : CkUlong
  hardwareVersion : CkVersion
  firmwareVersion : CkVersion
  deriving DecidableEq, Repr

/-- The fields that are set; the rest keep the binding's defaults. -/
structure CkTokenInfo where
  label : String
  manufacturerID : String
  model : String
  serialNumber : String
  flags : CkUlong
  deriving DecidableEq, Repr

structure CkMechanismInfo where
  ulMinKeySize : CkUlong
  ulMaxKeySize : CkUlong
  flags : CkUlong
  deriving DecidableEq, Repr

structure CkSessionInfo where
  slotID : CkUlong
  state : CkUlong
  flags : CkUlong
  ulDeviceError : CkUlong
  deriving DecidableEq, Repr

inductive RsaCipherMechanism where
  | pkcs1v15
  | oaep (hashAlg : CkMechanismType) (label : Bytes)
  deriving DecidableEq, Repr

inductive CryptoError where
  | operationFailed
  | invalidKey
  | invalidData
  | dataTooLarge
  | bufferTooSmall (length : Nat)
  | windows (status : Nat)
  deriving DecidableEq, Repr

def maxTotalOperationDataLen : Nat := 64 * 1024
def maxTemplateCount : CkUlong := 128
def maxAttributeValueLen : CkUlong := 64 * 1024
def maxDataLen : CkUlong := 64 * 1024
def maxOaepLabelLen : CkUlong := 8 * 1024

/-- Which target the crate is compiled for. On Windows `CK_ULONG` has four bytes
and the CNG status values are told apart; both targets have 64-bit pointers. -/
inductive Target where
  | windows
  | unix
  deriving DecidableEq, Repr

def Target.ulongBytes : Target → Nat
  | .windows => 4
  | .unix => 8

def Target.ulongModulus : Target → Nat
  | .windows => UInt32.size
  | .unix => UInt64.size

def Target.sizeOfPssParams (target : Target) : Nat := 3 * target.ulongBytes

def Target.sizeOfOaepParams (target : Target) : Nat := 4 * target.ulongBytes + 8

def Target.sizeOfMechanism (target : Target) : Nat := 2 * target.ulongBytes + 8

def Target.sizeOfAttribute (target : Target) : Nat := 2 * target.ulongBytes + 8

def Target.asUlong (target : Target) (value : Nat) : CkUlong := value % target.ulongModulus

theorem Target.as_ulong_of_lt {target : Target} {value : Nat}
    (fits : value < target.ulongModulus) : target.asUlong value = value := Nat.mod_eq_of_lt fits

def nteBadKey : Nat := 0x80090003
def nteBadData : Nat := 0x80090005
def nteBadAlgid : Nat := 0x80090008
def nteBadFlags : Nat := 0x80090009
def nteBadKeyState : Nat := 0x8009000B
def nteNoKey : Nat := 0x8009000D
def ntePerm : Nat := 0x80090010
def nteBadKeyset : Nat := 0x80090016
def nteInvalidParameter : Nat := 0x80090027
def nteBufferTooSmall : Nat := 0x80090028
def nteNotSupported : Nat := 0x80090029

def windowsStatusToRv (status : Nat) : CkRv :=
  if status ∈ [nteNoKey, nteBadKey, nteBadKeyset, nteBadKeyState, ntePerm] then .keyHandleInvalid
  else if status = nteBadData then .encryptedDataInvalid
  else if status ∈ [nteInvalidParameter, nteBadFlags] then .argumentsBad
  else if status = nteBufferTooSmall then .bufferTooSmall
  else if status ∈ [nteBadAlgid, nteNotSupported] then .functionNotSupported
  else .deviceError

def cryptoErrorToRv (target : Target) : CryptoError → CkRv
  | .operationFailed => .functionFailed
  | .invalidKey => .keyHandleInvalid
  | .invalidData => .encryptedDataInvalid
  | .dataTooLarge => .dataLenRange
  | .bufferTooSmall _ => .bufferTooSmall
  | .windows status =>
      match target with
      | .windows => windowsStatusToRv status
      | .unix => .deviceError

theorem bind_ok {α β ε : Type} {first : Except ε α} {next : α → Except ε β} {value : β}
    (done : first >>= next = .ok value) :
    ∃ middle, first = .ok middle ∧ next middle = .ok value := by
  cases first with
  | error err => cases done
  | ok middle => exact ⟨middle, rfl, done⟩

/-- Every error is reported as an error, and never as a bad mechanism. -/
theorem error_rv_not_ok (target : Target) (err : CryptoError) :
    cryptoErrorToRv target err ≠ .ok ∧ cryptoErrorToRv target err ≠ .mechanismInvalid := by
  cases err with
  | windows status =>
      cases target with
      | windows =>
          simp only [cryptoErrorToRv, windowsStatusToRv]
          split_ifs <;> exact ⟨by simp, by simp⟩
      | unix => simp [cryptoErrorToRv]
  | _ => simp [cryptoErrorToRv]

/-- The two ways an error is reported as a too small buffer: only the first says
how much room is needed. -/
theorem error_rv_too_small (target : Target) (err : CryptoError) :
    cryptoErrorToRv target err = .bufferTooSmall ↔
      (∃ needed, err = .bufferTooSmall needed) ∨
        (target = .windows ∧ err = .windows nteBufferTooSmall) := by
  cases err with
  | windows status =>
      cases target with
      | windows =>
          by_cases same : status = nteBufferTooSmall
          · subst same
            simp [cryptoErrorToRv, windowsStatusToRv, nteBufferTooSmall, nteNoKey, nteBadKey,
              nteBadKeyset, nteBadKeyState, ntePerm, nteBadData, nteInvalidParameter, nteBadFlags]
          · simp only [cryptoErrorToRv, windowsStatusToRv]
            split_ifs <;> simp_all
      | unix => simp [cryptoErrorToRv]
  | bufferTooSmall needed => simp [cryptoErrorToRv]
  | _ => simp [cryptoErrorToRv]

end OsClientCerts
