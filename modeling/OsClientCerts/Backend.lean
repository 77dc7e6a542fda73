import OsClientCerts.Pkcs11

/-!
What the manager knows of a platform backend. `Os` stands for everything the
operating system does during one manager call (the clock, the certificate
stores, the answers of the crypto service), so two calls may meet entirely
different behaviours; the objects themselves are plain data.
-/

namespace OsClientCerts

inductive Object (Cert Key Trust : Type) where
  | cert (cert : Cert)
  | key (key : Key)
  | trust (trust : Trust)
  deriving DecidableEq

/-- A length that a `CK_ULONG` of the target can hold. -/
def LengthFits (target : Target) (answer : Except CryptoError Nat) : Prop :=
  ∀ length, answer = .ok length → length < target.ulongModulus

def OutputFits (target : Target) (answer : Except CryptoError Bytes) : Prop :=
  ∀ output, answer = .ok output → output.length < target.ulongModulus

structure Backend where
  target : Target
  Os : Type
  Cert : Type
  Key : Type
  Trust : Type
  certId : Cert → Bytes
  keyId : Key → Bytes
  trustId : Trust → Bytes
  supportedAttributes : List CkAttributeType
  objectMatches : Object Cert Key Trust → List (CkAttributeType × Bytes) → Bool
  getAttribute : Object Cert Key Trust → CkAttributeType → Option Bytes
  /-- `Instant::now()`, in milliseconds. -/
  now : Os → Nat
  listObjects : Os → List (Object Cert Key Trust)
  keyGetSignatureLength : Os → Key → Bytes → Option CkRsaPkcsPssParams → Except CryptoError Nat
  keySign : Os → Key → Bytes → Option CkRsaPkcsPssParams → Except CryptoError Bytes
  keyDecryptLength : Os → Key → Bytes → RsaCipherMechanism → Except CryptoError Nat
  keyDecrypt : Os → Key → Bytes → RsaCipherMechanism → Except CryptoError Bytes
  certEncryptLength : Os → Cert → Bytes → RsaCipherMechanism → Except CryptoError Nat
  certEncrypt : Os → Cert → Bytes → RsaCipherMechanism → Except CryptoError Bytes
  keyEncryptLength : Os → Key → Bytes → RsaCipherMechanism → Except CryptoError Nat
  keyEncrypt : Os → Key → Bytes → RsaCipherMechanism → Except CryptoError Bytes
  -- CNG counts in 32 bits and no `Vec` is longer than a `usize`, so every length
  -- that reaches the caller survives the cast to `CK_ULONG`.
  signatureLengthFits : ∀ os key data params,
    LengthFits target (keyGetSignatureLength os key data params)
  signFits : ∀ os key data params, OutputFits target (keySign os key data params)
  decryptLengthFits : ∀ os key data mechanism,
    LengthFits target (keyDecryptLength os key data mechanism)
  decryptFits : ∀ os key data mechanism, OutputFits target (keyDecrypt os key data mechanism)
  certEncryptLengthFits : ∀ os cert data mechanism,
    LengthFits target (certEncryptLength os cert data mechanism)
  certEncryptFits : ∀ os cert data mechanism, OutputFits target (certEncrypt os cert data mechanism)
  keyEncryptLengthFits : ∀ os key data mechanism,
    LengthFits target (keyEncryptLength os key data mechanism)
  keyEncryptFits : ∀ os key data mechanism, OutputFits target (keyEncrypt os key data mechanism)

abbrev Backend.Object (B : Backend) : Type := OsClientCerts.Object B.Cert B.Key B.Trust

/-- The three kinds of operation. Their manager code differs only in the map it
uses, the parameters it keeps and the objects it accepts. -/
inductive Kind where
  | sign
  | decrypt
  | encrypt
  deriving DecidableEq, Repr

abbrev Kind.Params : Kind → Type
  | .sign => Option CkRsaPkcsPssParams
  | .decrypt => RsaCipherMechanism
  | .encrypt => RsaCipherMechanism

abbrev Kind.Usable (B : Backend) : Kind → Type
  | .sign => B.Key
  | .decrypt => B.Key
  | .encrypt => B.Cert ⊕ B.Key

/-- The `match self.objects.get(..)` of the manager, by kind. -/
def usable {B : Backend} : (kind : Kind) → Option B.Object → Option (kind.Usable B)
  | .sign, some (.key key) => some key
  | .decrypt, some (.key key) => some key
  | .encrypt, some (.cert cert) => some (.inl cert)
  | .encrypt, some (.key key) => some (.inr key)
  | _, _ => none

structure BackendInput (B : Backend) (kind : Kind) where
  object : kind.Usable B
  params : kind.Params
  data : Bytes

/-- `Key::get_signature_length`, `Key::decrypt_length`, `Cert::encrypt_length`, `Key::encrypt_length`. -/
def Backend.measure (B : Backend) (os : B.Os) :
    (kind : Kind) → BackendInput B kind → Except CryptoError Nat
  | .sign, ⟨key, params, data⟩ => B.keyGetSignatureLength os key data params
  | .decrypt, ⟨key, mechanism, data⟩ => B.keyDecryptLength os key data mechanism
  | .encrypt, ⟨.inl cert, mechanism, data⟩ => B.certEncryptLength os cert data mechanism
  | .encrypt, ⟨.inr key, mechanism, data⟩ => B.keyEncryptLength os key data mechanism

/-- `Key::sign`, `Key::decrypt`, `Cert::encrypt`, `Key::encrypt`: the consuming calls. -/
def Backend.perform (B : Backend) (os : B.Os) :
    (kind : Kind) → BackendInput B kind → Except CryptoError Bytes
  | .sign, ⟨key, params, data⟩ => B.keySign os key data params
  | .decrypt, ⟨key, mechanism, data⟩ => B.keyDecrypt os key data mechanism
  | .encrypt, ⟨.inl cert, mechanism, data⟩ => B.certEncrypt os cert data mechanism
  | .encrypt, ⟨.inr key, mechanism, data⟩ => B.keyEncrypt os key data mechanism

theorem Backend.measure_fits (B : Backend) (os : B.Os) (kind : Kind) (input : BackendInput B kind) :
    LengthFits B.target (B.measure os kind input) := by
  cases kind with
  | sign => exact B.signatureLengthFits os _ _ _
  | decrypt => exact B.decryptLengthFits os _ _ _
  | encrypt =>
      rcases input with ⟨cert | key, mechanism, data⟩
      · exact B.certEncryptLengthFits os cert data mechanism
      · exact B.keyEncryptLengthFits os key data mechanism

theorem Backend.perform_fits (B : Backend) (os : B.Os) (kind : Kind) (input : BackendInput B kind) :
    OutputFits B.target (B.perform os kind input) := by
  cases kind with
  | sign => exact B.signFits os _ _ _
  | decrypt => exact B.decryptFits os _ _ _
  | encrypt =>
      rcases input with ⟨cert | key, mechanism, data⟩
      · exact B.certEncryptFits os cert data mechanism
      · exact B.keyEncryptFits os key data mechanism

end OsClientCerts
