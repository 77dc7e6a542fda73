import OsClientCerts.CallerMemory
import OsClientCerts.ManagerProxy

/-!
The one piece of shared state, the proxy slot behind its mutex. Every use of the
slot is one atomic call; between two calls of one exported function any other
thread may have made its own.
-/

namespace OsClientCerts
open Resumption

inductive ModuleCall where
  | startProxy
  | stopProxy
  | manager (arguments : ManagerArguments)
  deriving DecidableEq

/-- No answer from the manager means that the slot was empty. -/
def moduleSignature : Signature where
  Call := ModuleCall
  Answer
    | .startProxy => CkRv
    | .stopProxy => CkRv
    | .manager _ => Option ManagerReturnValue

abbrev ModuleState (B : Backend) := Option (Manager B)

def moduleHandler (B : Backend) : Handler moduleSignature (ModuleState B) B.Os
  | os, .startProxy, state =>
      match state with
      | some manager => (.cryptokiAlreadyInitialized, some manager)
      | none => (.ok, some (Manager.new os))
  | os, .stopProxy, state =>
      -- The manager is taken out of the slot before it is stopped.
      match state with
      | some manager =>
          match (manager.dispatch os .stop).1 with
          | .stop (.ok ()) => (.ok, none)
          | _ => (.deviceError, none)
      | none => (.cryptokiNotInitialized, none)
  | os, .manager arguments, state =>
      match state with
      | some manager =>
          let (value, after) := manager.dispatch os arguments
          (some value, some after)
      | none => (none, none)

@[simp] theorem handle_manager {B : Backend} (os : B.Os) (arguments : ManagerArguments)
    (manager : Manager B) :
    moduleHandler B os (.manager arguments) (some manager) =
      (some (manager.dispatch os arguments).1, some (manager.dispatch os arguments).2) := rfl

@[simp] theorem handle_manager_absent {B : Backend} (os : B.Os) (arguments : ManagerArguments) :
    moduleHandler B os (.manager arguments) none = (none, none) := rfl

/-- `From<()>`, by which a reply of the wrong variant becomes an error. -/
class FromUnit (ε : Type) where
  fromUnit : ε

instance : FromUnit Unit := ⟨()⟩
instance : FromUnit CryptoError := ⟨.operationFailed⟩

/-- An instance of `manager_proxy_fn_impl!`: the request, and the one variant of
the reply it understands. -/
structure ProxyFn (ε α : Type) where
  arguments : ManagerArguments
  expected : ManagerReturnValue → Option (Except ε α)

section
variable {ε α : Type} [FromUnit ε]

def ProxyFn.reply (fn : ProxyFn ε α) (value : ManagerReturnValue) : Except ε α :=
  (fn.expected value).getD (.error FromUnit.fromUnit)

/-- What the caller gets: without a reply, `proxy_call` has failed. -/
def ProxyFn.returned (fn : ProxyFn ε α) : Option ManagerReturnValue → Except ε α
  | some value => fn.reply value
  | none => .error FromUnit.fromUnit

def ProxyFn.run (fn : ProxyFn ε α) : Ffi moduleSignature (Option (Except ε α)) := fun caller =>
  .call (.manager fn.arguments) fun (value : Option ManagerReturnValue) =>
    .ret (value.map fn.reply, caller)

@[simp] theorem proxy_fn_run (fn : ProxyFn ε α) (caller : Caller) :
    fn.run caller = .call (.manager fn.arguments) fun (value : Option ManagerReturnValue) =>
      .ret (value.map fn.reply, caller) := rfl

end

namespace ManagerProxy

def openSession (flags : CkUlong) : ProxyFn Unit CkSessionHandle :=
  ⟨.openSession flags, fun | .openSession result => some result | _ => none⟩
def getSessionInfo (session : CkSessionHandle) : ProxyFn Unit CkUlong :=
  ⟨.getSessionInfo session, fun | .getSessionInfo result => some result | _ => none⟩
def closeSession (session : CkSessionHandle) : ProxyFn Unit Unit :=
  ⟨.closeSession session, fun | .closeSession result => some result | _ => none⟩
def closeAllSessions : ProxyFn Unit Unit :=
  ⟨.closeAllSessions, fun | .closeAllSessions result => some result | _ => none⟩
def startSearch (session : CkSessionHandle) (attrs : List (CkAttributeType × Bytes)) :
    ProxyFn Unit Unit :=
  ⟨.startSearch session attrs, fun | .startSearch result => some result | _ => none⟩
def search (session : CkSessionHandle) (maxObjects : Nat) : ProxyFn Unit (List CkObjectHandle) :=
  ⟨.search session maxObjects, fun | .search result => some result | _ => none⟩
def clearSearch (session : CkSessionHandle) : ProxyFn Unit Unit :=
  ⟨.clearSearch session, fun | .clearSearch result => some result | _ => none⟩
def getAttributes (object : CkObjectHandle) (attrTypes : List CkAttributeType) :
    ProxyFn Unit (List (Option Bytes)) :=
  ⟨.getAttributes object attrTypes, fun | .getAttributes result => some result | _ => none⟩

def startSign (session : CkSessionHandle) (key : CkObjectHandle)
    (params : Option CkRsaPkcsPssParams) : ProxyFn CryptoError Unit :=
  ⟨.startSign session key params, fun | .startSign result => some result | _ => none⟩
def getSignatureLength (session : CkSessionHandle) (data : Bytes) : ProxyFn CryptoError Nat :=
  ⟨.getSignatureLength session data, fun | .getSignatureLength result => some result | _ => none⟩
def sign (session : CkSessionHandle) (data : Bytes) : ProxyFn CryptoError Bytes :=
  ⟨.sign session data, fun | .sign result => some result | _ => none⟩
def signUpdate (session : CkSessionHandle) (data : Bytes) : ProxyFn CryptoError Unit :=
  ⟨.signUpdate session data, fun | .signUpdate result => some result | _ => none⟩
def getFinalSignatureLength (session : CkSessionHandle) : ProxyFn CryptoError Nat :=
  ⟨.getFinalSignatureLength session,
    fun | .getFinalSignatureLength result => some result | _ => none⟩
def signFinal (session : CkSessionHandle) : ProxyFn CryptoError Bytes :=
  ⟨.signFinal session, fun | .signFinal result => some result | _ => none⟩

def startDecrypt (session : CkSessionHandle) (key : CkObjectHandle)
    (mechanism : RsaCipherMechanism) : ProxyFn CryptoError Unit :=
  ⟨.startDecrypt session key mechanism, fun | .startDecrypt result => some result | _ => none⟩
def getDecryptedLength (session : CkSessionHandle) (data : Bytes) : ProxyFn CryptoError Nat :=
  ⟨.getDecryptedLength session data, fun | .getDecryptedLength result => some result | _ => none⟩
def decrypt (session : CkSessionHandle) (data : Bytes) : ProxyFn CryptoError Bytes :=
  ⟨.decrypt session data, fun | .decrypt result => some result | _ => none⟩
def decryptUpdate (session : CkSessionHandle) (data : Bytes) : ProxyFn CryptoError Unit :=
  ⟨.decryptUpdate session data, fun | .decryptUpdate result => some result | _ => none⟩
def getFinalDecryptedLength (session : CkSessionHandle) : ProxyFn CryptoError Nat :=
  ⟨.getFinalDecryptedLength session,
    fun | .getFinalDecryptedLength result => some result | _ => none⟩
def decryptFinal (session : CkSessionHandle) : ProxyFn CryptoError Bytes :=
  ⟨.decryptFinal session, fun | .decryptFinal result => some result | _ => none⟩

def startEncrypt (session : CkSessionHandle) (key : CkObjectHandle)
    (mechanism : RsaCipherMechanism) : ProxyFn CryptoError Unit :=
  ⟨.startEncrypt session key mechanism, fun | .startEncrypt result => some result | _ => none⟩
def getEncryptedLength (session : CkSessionHandle) (data : Bytes) : ProxyFn CryptoError Nat :=
  ⟨.getEncryptedLength session data, fun | .getEncryptedLength result => some result | _ => none⟩
def encrypt (session : CkSessionHandle) (data : Bytes) : ProxyFn CryptoError Bytes :=
  ⟨.encrypt session data, fun | .encrypt result => some result | _ => none⟩
def encryptUpdate (session : CkSessionHandle) (data : Bytes) : ProxyFn CryptoError Unit :=
  ⟨.encryptUpdate session data, fun | .encryptUpdate result => some result | _ => none⟩
def getFinalEncryptedLength (session : CkSessionHandle) : ProxyFn CryptoError Nat :=
  ⟨.getFinalEncryptedLength session,
    fun | .getFinalEncryptedLength result => some result | _ => none⟩
def encryptFinal (session : CkSessionHandle) : ProxyFn CryptoError Bytes :=
  ⟨.encryptFinal session, fun | .encryptFinal result => some result | _ => none⟩

/-- The request of `stop`. What it does once it is answered is not part of the macro. -/
def stop : ProxyFn Unit Unit := ⟨.stop, fun | .stop result => some result | _ => none⟩

end ManagerProxy

structure ProxyFn.Requests {α : Type} (fn : ProxyFn CryptoError α) (kind : Kind)
    (session : CkSessionHandle) (request : OperationRequest kind)
    (carried : Except CryptoError α → OperationResult) : Prop where
  call : fn.arguments.operationCall = some ⟨kind, session, request⟩
  reply : ∀ {B : Backend} (manager : Manager B) (os : B.Os),
    (manager.dispatch os fn.arguments).1.operationResult =
      some (carried (fn.reply (manager.dispatch os fn.arguments).1))

namespace ManagerProxy

/-! The proxy functions of the operations, by kind. -/

def start : (kind : Kind) → CkSessionHandle → CkObjectHandle → kind.Params →
    ProxyFn CryptoError Unit
  | .sign => startSign
  | .decrypt => startDecrypt
  | .encrypt => startEncrypt

def getLength : Kind → CkSessionHandle → Bytes → ProxyFn CryptoError Nat
  | .sign => getSignatureLength
  | .decrypt => getDecryptedLength
  | .encrypt => getEncryptedLength

def finishWith : Kind → CkSessionHandle → Bytes → ProxyFn CryptoError Bytes
  | .sign => sign
  | .decrypt => decrypt
  | .encrypt => encrypt

def update : Kind → CkSessionHandle → Bytes → ProxyFn CryptoError Unit
  | .sign => signUpdate
  | .decrypt => decryptUpdate
  | .encrypt => encryptUpdate

def getFinalLength : Kind → CkSessionHandle → ProxyFn CryptoError Nat
  | .sign => getFinalSignatureLength
  | .decrypt => getFinalDecryptedLength
  | .encrypt => getFinalEncryptedLength

def finish : Kind → CkSessionHandle → ProxyFn CryptoError Bytes
  | .sign => signFinal
  | .decrypt => decryptFinal
  | .encrypt => encryptFinal

variable (kind : Kind) (session : CkSessionHandle) (data : Bytes)

theorem start_requests (handle : CkObjectHandle) (params : kind.Params) :
    (start kind session handle params).Requests kind session (.start handle params) .done := by
  cases kind <;> exact ⟨rfl, fun _ _ => rfl⟩

theorem get_length_requests :
    (getLength kind session data).Requests kind session (.getLength data) .length := by
  cases kind <;> exact ⟨rfl, fun _ _ => rfl⟩

theorem finish_with_requests :
    (finishWith kind session data).Requests kind session (.finishWith data) .output := by
  cases kind <;> exact ⟨rfl, fun _ _ => rfl⟩

theorem update_requests :
    (update kind session data).Requests kind session (.update data) .done := by
  cases kind <;> exact ⟨rfl, fun _ _ => rfl⟩

theorem get_final_length_requests :
    (getFinalLength kind session).Requests kind session .getFinalLength .length := by
  cases kind <;> exact ⟨rfl, fun _ _ => rfl⟩

theorem finish_requests :
    (finish kind session).Requests kind session .finish .output := by
  cases kind <;> exact ⟨rfl, fun _ _ => rfl⟩

end ManagerProxy
end OsClientCerts
