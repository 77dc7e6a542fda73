import OsClientCerts.ObjectScans
import OsClientCerts.OwnedResources
import OsClientCerts.WindowsStores

/-!
What the Windows backend holds of Windows: certificate contexts, key handles and
stores. Its functions are given once more, with a record of what they acquire, use
and release. The owners are the values that have a `Drop`.
-/

namespace OsClientCerts.Windows
open OwnedResources

abbrev StoreHandle := Nat

inductive Resource where
  | certificate (context : CertContext)
  | privateKey (handle : KeyHandle)
  | publicKey (handle : KeyHandle)
  | store (handle : StoreHandle)
  deriving DecidableEq

/-- A program of the backend that may fail with a `CryptoError`. -/
abbrev Calls (α : Type) := ExceptT CryptoError (Recorded Resource) α

/-- Windows says whether the handle is the caller's to free. -/
def acquiredFrom (os : Cng) (cert : CertContext) : List (Event Resource) :=
  let answer := os.cryptAcquireCertificatePrivateKey cert
  if answer.acquired ∧ answer.mustFree then [.acquire (.privateKey answer.handle)] else []

def acquirePrivateKey (os : Cng) (cert : CertContext) : Calls KeyHandle :=
  ExceptT.mk ⟨.use (.certificate cert) :: acquiredFrom os cert, keyHandleFromCert os cert⟩

/-- What `from_cert` neither returns nor frees. -/
def unreleased (os : Cng) (cert : CertContext) : Multiset Resource :=
  let answer := os.cryptAcquireCertificatePrivateKey cert
  if answer.acquired ∧ answer.mustFree ∧ answer.keySpec ≠ certNcryptKeySpec then
    {.privateKey answer.handle}
  else 0

def importPublicKey (os : Cng) (cert : CertContext) : Calls KeyHandle :=
  ExceptT.mk ⟨.use (.certificate cert) ::
    (publicKeyFromCert os cert).toOption.toList.map fun handle => .acquire (.publicKey handle),
    publicKeyFromCert os cert⟩

def Cert.createContext (os : Cng) (cert : Cert) : Calls CertContext :=
  ExceptT.mk ⟨(cert.context os).toOption.toList.map fun context => .acquire (.certificate context),
    cert.context os⟩

def askLengthOf (key : Resource) (operation : Bytes → Option UInt32 → CngAnswer) (data : Bytes) :
    Calls UInt32 :=
  if data.length < UInt32.size then calling key (askLength operation data)
  else ExceptT.mk (pure (.error .operationFailed))

def exactOutputOf (key : Resource) (operation : Bytes → Option UInt32 → CngAnswer) (data : Bytes)
    (perform : Bool) : Calls Bytes := do
  let size ← askLengthOf key operation data
  if perform then
    let answer ← calling key (askOutput operation data size)
    if answer.length ≠ size then throw .operationFailed else pure (filled size answer.output)
  else pure (List.replicate size.toNat 0)

def truncatedOutputOf (key : Resource) (operation : Bytes → Option UInt32 → CngAnswer)
    (data : Bytes) (perform : Bool) : Calls Bytes := do
  let size ← askLengthOf key operation data
  if perform then
    let answer ← calling key (askOutput operation data size)
    pure ((filled size answer.output).take answer.length.toNat)
  else pure (List.replicate size.toNat 0)

/-- A key handle is freed when the function that got it returns. -/
def withHandle (resource : Resource) (body : Calls Bytes) : Calls Bytes :=
  ExceptT.mk (owning resource body.run)

def locally {α : Type} (result : Except CryptoError α) : Calls α := ExceptT.mk (pure result)

def Key.signRecorded (os : Cng) (key : Key) (data : Bytes) (params : Option CkRsaPkcsPssParams)
    (doSignature : Bool) : Calls Bytes := do
  let handle ← acquirePrivateKey os key.cert
  withHandle (.privateKey handle) do
    let signParams ← locally
      ((SignParams.new key.keyTypeEnum params).mapError fun _ => CryptoError.operationFailed)
    exactOutputOf (.privateKey handle) (os.ncryptSignHash handle signParams) data doSignature

def Key.decryptRecorded (os : Cng) (key : Key) (data : Bytes) (doDecrypt : Bool)
    (mechanism : RsaCipherMechanism) : Calls Bytes := do
  if key.keyTypeEnum ≠ .rsa then throw .invalidKey
  else
    let paddingInfo ← locally
      ((CipherPaddingInfo.new mechanism).mapError fun _ => CryptoError.invalidKey)
    let handle ← acquirePrivateKey os key.cert
    withHandle (.privateKey handle)
      (truncatedOutputOf (.privateKey handle) (os.ncryptDecrypt handle paddingInfo) data doDecrypt)

def encryptRecorded (os : Cng) (cert : CertContext) (data : Bytes) (doEncrypt : Bool)
    (mechanism : RsaCipherMechanism) : Calls Bytes := do
  let handle ← importPublicKey os cert
  withHandle (.publicKey handle) do
    let paddingInfo ← locally
      ((CipherPaddingInfo.new mechanism).mapError fun _ => CryptoError.invalidKey)
    exactOutputOf (.publicKey handle) (os.bcryptEncrypt handle paddingInfo) data doEncrypt

def Cert.encryptRecorded (os : Cng) (cert : Cert) (data : Bytes) (doEncrypt : Bool)
    (mechanism : RsaCipherMechanism) : Calls Bytes := do
  let context ← cert.createContext os
  withHandle (.certificate context) (Windows.encryptRecorded os context data doEncrypt mechanism)

/-! The records belong to the functions of the backend. -/

theorem ask_length_result (key : Resource) (operation : Bytes → Option UInt32 → CngAnswer)
    (data : Bytes) :
    (askLengthOf key operation data).run.result = askLength operation data := by
  unfold askLengthOf askLength
  split <;> rfl

theorem exact_output_result (key : Resource) (operation : Bytes → Option UInt32 → CngAnswer)
    (data : Bytes) (perform : Bool) :
    (exactOutputOf key operation data perform).run.result =
      exactOutput operation data perform := by
  unfold exactOutputOf exactOutput
  rw [result_bind_except, ask_length_result]
  congr 1
  funext size
  cases perform with
  | false => rfl
  | true =>
      simp only [if_true, result_bind_except, result_calling]
      congr 1
      funext answer
      split <;> rfl

theorem truncated_output_result (key : Resource) (operation : Bytes → Option UInt32 → CngAnswer)
    (data : Bytes) (perform : Bool) :
    (truncatedOutputOf key operation data perform).run.result =
      truncatedOutput operation data perform := by
  unfold truncatedOutputOf truncatedOutput
  rw [result_bind_except, ask_length_result]
  congr 1
  funext size
  cases perform with
  | false => rfl
  | true => simp only [if_true, result_bind_except, result_calling]; rfl

theorem sign_result (os : Cng) (key : Key) (data : Bytes) (params : Option CkRsaPkcsPssParams)
    (doSignature : Bool) : (key.signRecorded os data params doSignature).run.result =
      key.signInternal os data params doSignature := by
  unfold Key.signRecorded Key.signInternal
  rw [result_bind_except]
  congr 1
  funext handle
  simp only [withHandle, ExceptT.run_mk, result_owning, result_bind_except, exact_output_result]
  rfl

theorem decrypt_result (os : Cng) (key : Key) (data : Bytes) (doDecrypt : Bool)
    (mechanism : RsaCipherMechanism) :
    (key.decryptRecorded os data doDecrypt mechanism).run.result =
      key.decryptInternal os data doDecrypt mechanism := by
  unfold Key.decryptRecorded Key.decryptInternal
  split
  · rfl
  · simp only [withHandle, ExceptT.run_mk, result_owning, result_bind_except,
      truncated_output_result]
    rfl

theorem encrypt_result (os : Cng) (cert : CertContext) (data : Bytes) (doEncrypt : Bool)
    (mechanism : RsaCipherMechanism) :
    (encryptRecorded os cert data doEncrypt mechanism).run.result =
      encryptInternal os cert data doEncrypt mechanism := by
  unfold encryptRecorded encryptInternal
  rw [result_bind_except]
  congr 1
  funext handle
  simp only [withHandle, ExceptT.run_mk, result_owning, result_bind_except, exact_output_result]
  rfl

theorem cert_encrypt_result (os : Cng) (cert : Cert) (data : Bytes) (doEncrypt : Bool)
    (mechanism : RsaCipherMechanism) :
    (cert.encryptRecorded os data doEncrypt mechanism).run.result =
      (do encryptInternal os (← cert.context os) data doEncrypt mechanism) := by
  unfold Cert.encryptRecorded
  rw [result_bind_except]
  simp only [withHandle, ExceptT.run_mk, result_owning, encrypt_result]
  rfl

section
variable {os : Cng} {cert : CertContext} {before : Multiset Resource} {key : Resource}
  {operation : Bytes → Option UInt32 → CngAnswer} {data : Bytes}

theorem locally_leaves {α : Type} (result : Except CryptoError α) :
    Leaves before (locally result).run fun _ => before := Leaves.pure rfl

theorem ask_length_leaves (live : key ∈ before) :
    Leaves before (askLengthOf key operation data).run fun _ => before := by
  unfold askLengthOf
  split
  · exact Leaves.calling live
  · exact Leaves.pure rfl

theorem exact_output_leaves (live : key ∈ before) (perform : Bool) :
    Leaves before (exactOutputOf key operation data perform).run fun _ => before := by
  refine (ask_length_leaves live).bind_except (fun _ _ => rfl) fun size _ => ?_
  cases perform with
  | false => exact Leaves.pure rfl
  | true =>
      refine (Leaves.calling live).bind_except (fun _ _ => rfl) fun answer _ => ?_
      split
      · exact Leaves.pure rfl
      · exact Leaves.pure rfl

theorem truncated_output_leaves (live : key ∈ before) (perform : Bool) :
    Leaves before (truncatedOutputOf key operation data perform).run fun _ => before := by
  refine (ask_length_leaves live).bind_except (fun _ _ => rfl) fun size _ => ?_
  cases perform with
  | false => exact Leaves.pure rfl
  | true =>
      exact (Leaves.calling live).bind_except (fun _ _ => rfl) fun answer _ => Leaves.pure rfl

theorem with_handle_leaves {body : Calls Bytes}
    (inner : Leaves (key ::ₘ before) body.run fun _ => key ::ₘ before) :
    Leaves (key ::ₘ before) (withHandle key body).run fun _ => before := inner.owning

theorem unreleased_of_acquired {handle : KeyHandle} (acquired : keyHandleFromCert os cert = .ok handle) :
    unreleased os cert = 0 ∧ (os.cryptAcquireCertificatePrivateKey cert).acquired = true ∧
      (os.cryptAcquireCertificatePrivateKey cert).mustFree = true ∧
      (os.cryptAcquireCertificatePrivateKey cert).handle = handle := by
  -- A handle that is refused is not returned, and a returned one is not lost.
  unfold keyHandleFromCert at acquired
  unfold unreleased
  dsimp only at acquired ⊢
  split at acquired
  · cases acquired
  split at acquired
  · cases acquired
  split at acquired
  · cases acquired
  cases acquired
  simp_all

theorem unreleased_of_refused {err : CryptoError} (refused : keyHandleFromCert os cert = .error err) :
    unreleased os cert = if (os.cryptAcquireCertificatePrivateKey cert).acquired ∧
      (os.cryptAcquireCertificatePrivateKey cert).mustFree then
        {.privateKey (os.cryptAcquireCertificatePrivateKey cert).handle} else 0 := by
  unfold keyHandleFromCert at refused
  unfold unreleased
  dsimp only at refused ⊢
  split at refused
  · simp_all
  split at refused
  · simp_all
  split at refused
  · simp_all
  cases refused

theorem acquire_private_key_leaves (live : .certificate cert ∈ before) :
    Leaves before (acquirePrivateKey os cert).run fun
      | .ok handle => .privateKey handle ::ₘ before
      | .error _ => before + unreleased os cert := by
  refine Disciplined.use_first live ?_
  change Disciplined before (acquiredFrom os cert) (match keyHandleFromCert os cert with
    | .ok handle => .privateKey handle ::ₘ before
    | .error _ => before + unreleased os cert)
  cases acquired : keyHandleFromCert os cert with
  | ok handle =>
      obtain ⟨-, given, own, same⟩ := unreleased_of_acquired acquired
      rw [acquiredFrom, if_pos ⟨given, own⟩, same]
      exact Disciplined.acquire _
  | error err =>
      dsimp only
      rw [acquiredFrom, unreleased_of_refused acquired]
      split
      · rw [Multiset.add_comm, Multiset.singleton_add]
        exact Disciplined.acquire _
      · rw [add_zero]
        exact Disciplined.nil

theorem import_public_key_leaves (live : .certificate cert ∈ before) :
    Leaves before (importPublicKey os cert).run fun
      | .ok handle => .publicKey handle ::ₘ before
      | .error _ => before := by
  refine Disciplined.use_first live ?_
  dsimp only [importPublicKey, ExceptT.run_mk]
  cases publicKeyFromCert os cert with
  | ok handle => exact Disciplined.acquire _
  | error err => exact Disciplined.nil

theorem create_context_leaves (object : Cert) :
    Leaves before (object.createContext os).run fun
      | .ok context => .certificate context ::ₘ before
      | .error _ => before := by
  change Disciplined before (List.map _ _) _
  dsimp only [Cert.createContext, ExceptT.run_mk]
  cases object.context os with
  | ok context => exact Disciplined.acquire _
  | error err => exact Disciplined.nil

theorem sign_leaves {key : Key} (live : .certificate key.cert ∈ before) (data : Bytes)
    (params : Option CkRsaPkcsPssParams) (doSignature : Bool) :
    Leaves before (key.signRecorded os data params doSignature).run
      fun _ => before + unreleased os key.cert := by
  refine (acquire_private_key_leaves live).bind_except (fun _ _ => rfl) fun handle acquired => ?_
  rw [(unreleased_of_acquired acquired).1, add_zero]
  refine with_handle_leaves ?_
  refine (locally_leaves _).bind_except (fun _ _ => rfl) fun signParams _ => ?_
  exact exact_output_leaves (Multiset.mem_cons_self _ _) doSignature

def asksForKey (key : Key) (mechanism : RsaCipherMechanism) : Bool :=
  key.keyTypeEnum = .rsa ∧ (CipherPaddingInfo.new mechanism).toOption.isSome

theorem decrypt_leaves {key : Key} (live : .certificate key.cert ∈ before) (data : Bytes)
    (doDecrypt : Bool) (mechanism : RsaCipherMechanism) :
    Leaves before (key.decryptRecorded os data doDecrypt mechanism).run fun _ =>
      before + if asksForKey key mechanism then unreleased os key.cert else 0 := by
  unfold Key.decryptRecorded
  split
  case isTrue notRsa =>
      refine Leaves.pure ?_
      simp [asksForKey, notRsa]
  case isFalse rsa =>
      have isRsa : key.keyTypeEnum = .rsa := Decidable.not_not.mp rsa
      refine (locally_leaves _).bind_except ?_ fun paddingInfo padded => ?_
      · intro err failed
        cases made : CipherPaddingInfo.new mechanism with
        | error _ => simp [asksForKey, made, Except.toOption]
        | ok paddingInfo =>
            rw [made] at failed
            cases failed
      · have asks : asksForKey key mechanism = true := by
          cases made : CipherPaddingInfo.new mechanism with
          | error _ =>
              rw [made] at padded
              cases padded
          | ok paddingInfo => simp [asksForKey, isRsa, made, Except.toOption]
        simp only [asks, if_true]
        refine (acquire_private_key_leaves live).bind_except (fun _ _ => rfl)
          fun handle acquired => ?_
        rw [(unreleased_of_acquired acquired).1, add_zero]
        exact with_handle_leaves (truncated_output_leaves (Multiset.mem_cons_self _ _) doDecrypt)

theorem encrypt_leaves (live : .certificate cert ∈ before) (data : Bytes) (doEncrypt : Bool)
    (mechanism : RsaCipherMechanism) :
    Leaves before (encryptRecorded os cert data doEncrypt mechanism).run fun _ => before := by
  refine (import_public_key_leaves live).bind_except (fun _ _ => rfl) fun handle _ => ?_
  refine with_handle_leaves ?_
  refine (locally_leaves _).bind_except (fun _ _ => rfl) fun paddingInfo _ => ?_
  exact exact_output_leaves (Multiset.mem_cons_self _ _) doEncrypt

theorem cert_encrypt_leaves (object : Cert) (data : Bytes) (doEncrypt : Bool)
    (mechanism : RsaCipherMechanism) :
    Leaves before (object.encryptRecorded os data doEncrypt mechanism).run fun _ => before := by
  -- The temporary context outlives the key that is made from it.
  refine (create_context_leaves object).bind_except (fun _ _ => rfl) fun context _ => ?_
  exact with_handle_leaves (encrypt_leaves (Multiset.mem_cons_self _ _) data doEncrypt mechanism)

end

def operationRecorded (os : Cng) :
    (kind : Kind) → BackendInput backend kind → Bool → Recorded Resource (Except CryptoError Bytes)
  | .sign, ⟨key, params, data⟩, performs => Key.signRecorded os key data params performs
  | .decrypt, ⟨key, mechanism, data⟩, performs => Key.decryptRecorded os key data performs mechanism
  | .encrypt, ⟨.inl cert, mechanism, data⟩, performs =>
      Cert.encryptRecorded os cert data performs mechanism
  | .encrypt, ⟨.inr key, mechanism, data⟩, performs =>
      encryptRecorded os (Key.cert key) data performs mechanism

def heldContext : {kind : Kind} → BackendInput backend kind → Multiset Resource
  | .sign, ⟨key, _, _⟩ => {.certificate (Key.cert key)}
  | .decrypt, ⟨key, _, _⟩ => {.certificate (Key.cert key)}
  | .encrypt, ⟨.inl _, _, _⟩ => 0
  | .encrypt, ⟨.inr key, _, _⟩ => {.certificate (Key.cert key)}

def leftByOperation (os : Cng) : {kind : Kind} → BackendInput backend kind → Multiset Resource
  | .sign, ⟨key, _, _⟩ => unreleased os (Key.cert key)
  | .decrypt, ⟨key, mechanism, _⟩ =>
      if asksForKey key mechanism then unreleased os (Key.cert key) else 0
  | .encrypt, _ => 0

theorem operation_performs (os : Cng) (kind : Kind) (input : BackendInput backend kind) :
    (operationRecorded os kind input true).result = backend.perform os kind input := by
  cases kind with
  | sign => exact sign_result os _ _ _ true
  | decrypt => exact decrypt_result os _ _ true _
  | encrypt =>
      rcases input with ⟨cert | key, mechanism, data⟩
      · exact cert_encrypt_result os cert data true mechanism
      · exact encrypt_result os _ _ true _

theorem operation_measures (os : Cng) (kind : Kind) (input : BackendInput backend kind) :
    (operationRecorded os kind input false).result.map List.length =
      backend.measure os kind input := by
  cases kind with
  | sign => exact congrArg (Except.map List.length) (sign_result os _ _ _ false)
  | decrypt => exact congrArg (Except.map List.length) (decrypt_result os _ _ false _)
  | encrypt =>
      rcases input with ⟨cert | key, mechanism, data⟩
      · refine (congrArg (Except.map List.length)
          (cert_encrypt_result os cert data false mechanism)).trans ?_
        change Except.map List.length (cert.context os >>= _) = cert.context os >>= _
        cases Cert.context os cert <;> rfl
      · exact congrArg (Except.map List.length) (encrypt_result os _ _ false _)

theorem operation_leaves {os : Cng} {kind : Kind} {input : BackendInput backend kind}
    {before : Multiset Resource} (held : heldContext input ≤ before) (performs : Bool) :
    Leaves before (operationRecorded os kind input performs) fun _ =>
      before + leftByOperation os input := by
  cases kind with
  | sign => exact sign_leaves (Multiset.singleton_le.mp held) _ _ performs
  | decrypt => exact decrypt_leaves (Multiset.singleton_le.mp held) _ performs _
  | encrypt =>
      rcases input with ⟨cert | key, mechanism, data⟩
      · rw [leftByOperation, add_zero]
        exact cert_encrypt_leaves cert data performs mechanism
      · rw [leftByOperation, add_zero]
        exact encrypt_leaves (Multiset.singleton_le.mp held) data performs mechanism

/-- An operation computes what the backend's does, frees every handle it gets, in whatever way
it ends, and keeps exactly the one that it is given to free and refuses for its type. -/
theorem operation_returns_handles {os : Cng} {kind : Kind} {input : BackendInput backend kind}
    {before : Multiset Resource} (held : heldContext input ≤ before) :
    (operationRecorded os kind input true).result = backend.perform os kind input ∧
      (operationRecorded os kind input false).result.map List.length =
        backend.measure os kind input ∧
      ∀ performs, Disciplined before (operationRecorded os kind input performs).events
        (before + leftByOperation os input) :=
  ⟨operation_performs os kind input, operation_measures os kind input, operation_leaves held⟩

def legacyKeys : Cng :=
  { Cng.steady [] (fun _ => 64) 0 with
    cryptAcquireCertificatePrivateKey := fun cert => ⟨true, 0, cert, 1, true⟩ }

theorem legacy_key_is_left :
    Disciplined {.certificate 7} (operationRecorded legacyKeys .sign
        ⟨.forCert 7 [1] .ec, none, [1, 2, 3]⟩ true).events
      ({.certificate 7} + {.privateKey 7}) :=
  (operation_returns_handles (le_refl _)).2.2 true

end OsClientCerts.Windows
