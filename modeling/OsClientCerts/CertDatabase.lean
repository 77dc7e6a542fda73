import OsClientCerts.Pkcs11

/-!
The table `nssPublic` of NSS's `cert9.db`, as far as the cleanups query it. Columns
are named after attribute types in hexadecimal and have no declared type, so every
value keeps its own storage class.
-/

namespace OsClientCerts.CertDatabase

inductive SqlValue where
  | null
  | integer (value : Int)
  | text (bytes : Bytes)
  | blob (bytes : Bytes)
  deriving DecidableEq

namespace SqlValue

/-- Whether `=` is true of two values. It is not if one is NULL, nor across storage classes. -/
def equals : SqlValue → SqlValue → Bool
  | .integer left, .integer right => left == right
  | .text left, .text right => left == right
  | .blob left, .blob right => left == right
  | _, _ => false

def bytes : SqlValue → Bytes
  | .null => []
  | .integer value => (toString value).toUTF8.toList
  | .text bytes => bytes
  | .blob bytes => bytes

def hexDigit (digit : UInt8) : UInt8 := if digit < 10 then digit + 48 else digit + 55

/-- `hex(X)`, in capital letters; of NULL it is the empty string. -/
def hex (value : SqlValue) : SqlValue :=
  .text (value.bytes.flatMap fun byte => [hexDigit (byte / 16), hexDigit (byte % 16)])

/-- Only the ASCII letters have a case. -/
def lowerByte (byte : UInt8) : UInt8 := if 65 ≤ byte ∧ byte ≤ 90 then byte + 32 else byte

/-- `LOWER(X)`, a text also for a blob. -/
def lower : SqlValue → SqlValue
  | .null => .null
  | value => .text (value.bytes.map lowerByte)

@[simp] theorem equals_blob {value : SqlValue} {bytes : Bytes} :
    value.equals (.blob bytes) = true ↔ value = .blob bytes := by
  cases value <;> simp [equals]

end SqlValue

/-- One PKCS #11 object: `CKA_CLASS`, `CKA_VALUE`, `CKA_NSS_EMAIL` and the columns that no
query looks at. -/
structure NssRow where
  id : Int
  a0 : SqlValue
  a11 : SqlValue
  ace534352 : SqlValue
  others : List SqlValue
  deriving DecidableEq

def ckoCertificateBytes : Bytes := [0, 0, 0, 1]

/-- `a0 = :cls AND a11 = :der` -/
def isCopyOf (der : Bytes) (row : NssRow) : Bool :=
  row.a0.equals (.blob ckoCertificateBytes) && row.a11.equals (.blob der)

theorem is_copy_of_iff {der : Bytes} {row : NssRow} :
    isCopyOf der row = true ↔ row.a0 = .blob ckoCertificateBytes ∧ row.a11 = .blob der := by
  simp [isCopyOf]

end OsClientCerts.CertDatabase
