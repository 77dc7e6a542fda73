import OsClientCerts.Manager

/-!
The request protocol between `ManagerProxy` and the thread that owns the
manager: one variant for each method, and one reply variant for each request.
The operation requests are also seen by kind, which is how they are reasoned about.
-/

namespace OsClientCerts

inductive ManagerArguments where
  | openSession (flags : CkUlong)
  | closeSession (session : CkSessionHandle)
  | closeAllSessions
  | startSearch (session : CkSessionHandle) (attrs : List (CkAttributeType × Bytes))
  | search (session : CkSessionHandle) (maxObjects : Nat)
  | clearSearch (session : CkSessionHandle)
  | getAttributes (object : CkObjectHandle) (attrTypes : List CkAttributeType)
  | startSign (session : CkSessionHandle) (key : CkObjectHandle)
      (params : Option CkRsaPkcsPssParams)
  | getSignatureLength (session : CkSessionHandle) (data : Bytes)
  | sign (session : CkSessionHandle) (data : Bytes)
  | signUpdate (session : CkSessionHandle) (data : Bytes)
  | getFinalSignatureLength (session : CkSessionHandle)
  | signFinal (session : CkSessionHandle)
  | startDecrypt (session : CkSessionHandle) (key : CkObjectHandle)
      (mechanism : RsaCipherMechanism)
  | getDecryptedLength (session : CkSessionHandle) (data : Bytes)
  | decrypt (session : CkSessionHandle) (data : Bytes)
  | decryptUpdate (session : CkSessionHandle) (data : Bytes)
  | getFinalDecryptedLength (session : CkSessionHandle)
  | decryptFinal (session : CkSessionHandle)
  | startEncrypt (session : CkSessionHandle) (key : CkObjectHandle)
      (mechanism : RsaCipherMechanism)
  | getEncryptedLength (session : CkSessionHandle) (data : Bytes)
  | encrypt (session : CkSessionHandle) (data : Bytes)
  | encryptUpdate (session : CkSessionHandle) (data : Bytes)
  | getFinalEncryptedLength (session : CkSessionHandle)
  | encryptFinal (session : CkSessionHandle)
  | getSessionInfo (session : CkSessionHandle)
  | stop
  deriving DecidableEq

inductive ManagerReturnValue where
  | openSession (result : Except Unit CkSessionHandle)
  | getSessionInfo (result : Except Unit CkUlong)
  | closeSession (result : Except Unit Unit)
  | closeAllSessions (result : Except Unit Unit)
  | startSearch (result : Except Unit Unit)
  | search (result : Except Unit (List CkObjectHandle))
  | clearSearch (result : Except Unit Unit)
  | getAttributes (result : Except Unit (List (Option Bytes)))
  | startSign (result : Except CryptoError Unit)
  | getSignatureLength (result : Except CryptoError Nat)
  | sign (result : Except CryptoError Bytes)
  | signUpdate (result : Except CryptoError Unit)
  | getFinalSignatureLength (result : Except CryptoError Nat)
  | signFinal (result : Except CryptoError Bytes)
  | startDecrypt (result : Except CryptoError Unit)
  | getDecryptedLength (result : Except CryptoError Nat)
  | decrypt (result : Except CryptoError Bytes)
  | decryptUpdate (result : Except CryptoError Unit)
  | getFinalDecryptedLength (result : Except CryptoError Nat)
  | decryptFinal (result : Except CryptoError Bytes)
  | startEncrypt (result : Except CryptoError Unit)
  | getEncryptedLength (result : Except CryptoError Nat)
  | encrypt (result : Except CryptoError Bytes)
  | encryptUpdate (result : Except CryptoError Unit)
  | getFinalEncryptedLength (result : Except CryptoError Nat)
  | encryptFinal (result : Except CryptoError Bytes)
  | stop (result : Except Unit Unit)

namespace Manager
variable {B : Backend}

/-- The body of the manager thread's loop: the method, then the backend call it ends in. -/
def dispatch (manager : Manager B) (os : B.Os) :
    ManagerArguments → ManagerReturnValue × Manager B
  | .openSession flags =>
      let (result, after) := manager.openSession os flags
      (.openSession result, after)
  | .closeSession session =>
      let (result, after) := manager.closeSession session
      (.closeSession result, after)
  | .closeAllSessions =>
      let (result, after) := manager.closeAllSessions
      (.closeAllSessions result, after)
  | .startSearch session attrs =>
      let (result, after) := manager.startSearch os session attrs
      (.startSearch result, after)
  | .search session maxObjects =>
      let (result, after) := manager.search session maxObjects
      (.search result, after)
  | .clearSearch session =>
      let (result, after) := manager.clearSearch session
      (.clearSearch result, after)
  | .getAttributes object attrTypes =>
      (.getAttributes (manager.getAttributes object attrTypes), manager)
  | .startSign session key params =>
      let (result, after) := manager.startSign session key params
      (.startSign result, after)
  | .getSignatureLength session data =>
      (.getSignatureLength (manager.getSignatureLength session data >>= B.measure os .sign), manager)
  | .sign session data =>
      let (input, after) := manager.sign session data
      (.sign (input >>= B.perform os .sign), after)
  | .signUpdate session data =>
      let (result, after) := manager.signUpdate session data
      (.signUpdate result, after)
  | .getFinalSignatureLength session =>
      (.getFinalSignatureLength (manager.getFinalSignatureLength session >>= B.measure os .sign),
        manager)
  | .signFinal session =>
      let (input, after) := manager.signFinal session
      (.signFinal (input >>= B.perform os .sign), after)
  | .startDecrypt session key mechanism =>
      let (result, after) := manager.startDecrypt session key mechanism
      (.startDecrypt result, after)
  | .getDecryptedLength session data =>
      (.getDecryptedLength (manager.getDecryptedLength session data >>= B.measure os .decrypt),
        manager)
  | .decrypt session data =>
      let (input, after) := manager.decrypt session data
      (.decrypt (input >>= B.perform os .decrypt), after)
  | .decryptUpdate session data =>
      let (result, after) := manager.decryptUpdate session data
      (.decryptUpdate result, after)
  | .getFinalDecryptedLength session =>
      (.getFinalDecryptedLength
        (manager.getFinalDecryptedLength session >>= B.measure os .decrypt), manager)
  | .decryptFinal session =>
      let (input, after) := manager.decryptFinal session
      (.decryptFinal (input >>= B.perform os .decrypt), after)
  | .startEncrypt session key mechanism =>
      let (result, after) := manager.startEncrypt session key mechanism
      (.startEncrypt result, after)
  | .getEncryptedLength session data =>
      (.getEncryptedLength (manager.getEncryptedLength session data >>= B.measure os .encrypt),
        manager)
  | .encrypt session data =>
      let (input, after) := manager.encrypt session data
      (.encrypt (input >>= B.perform os .encrypt), after)
  | .encryptUpdate session data =>
      let (result, after) := manager.encryptUpdate session data
      (.encryptUpdate result, after)
  | .getFinalEncryptedLength session =>
      (.getFinalEncryptedLength
        (manager.getFinalEncryptedLength session >>= B.measure os .encrypt), manager)
  | .encryptFinal session =>
      let (input, after) := manager.encryptFinal session
      (.encryptFinal (input >>= B.perform os .encrypt), after)
  | .getSessionInfo session => (.getSessionInfo (manager.getSessionInfo session), manager)
  | .stop => (.stop (.ok ()), manager)

end Manager

inductive OperationRequest (kind : Kind) where
  | start (handle : CkObjectHandle) (params : kind.Params)
  | getLength (data : Bytes)
  | finishWith (data : Bytes)
  | update (data : Bytes)
  | getFinalLength
  | finish

/-- What a method answers before the backend is asked. -/
inductive Outcome (B : Backend) (kind : Kind) where
  | accepted
  | measures (input : BackendInput B kind)
  | performs (input : BackendInput B kind)

abbrev Reply (B : Backend) (kind : Kind) := Except CryptoError (Outcome B kind)

structure OperationCall where
  kind : Kind
  session : CkSessionHandle
  request : OperationRequest kind

def ManagerArguments.operationCall : ManagerArguments → Option OperationCall
  | .startSign session key params => some ⟨.sign, session, .start key params⟩
  | .getSignatureLength session data => some ⟨.sign, session, .getLength data⟩
  | .sign session data => some ⟨.sign, session, .finishWith data⟩
  | .signUpdate session data => some ⟨.sign, session, .update data⟩
  | .getFinalSignatureLength session => some ⟨.sign, session, .getFinalLength⟩
  | .signFinal session => some ⟨.sign, session, .finish⟩
  | .startDecrypt session key mechanism => some ⟨.decrypt, session, .start key mechanism⟩
  | .getDecryptedLength session data => some ⟨.decrypt, session, .getLength data⟩
  | .decrypt session data => some ⟨.decrypt, session, .finishWith data⟩
  | .decryptUpdate session data => some ⟨.decrypt, session, .update data⟩
  | .getFinalDecryptedLength session => some ⟨.decrypt, session, .getFinalLength⟩
  | .decryptFinal session => some ⟨.decrypt, session, .finish⟩
  | .startEncrypt session key mechanism => some ⟨.encrypt, session, .start key mechanism⟩
  | .getEncryptedLength session data => some ⟨.encrypt, session, .getLength data⟩
  | .encrypt session data => some ⟨.encrypt, session, .finishWith data⟩
  | .encryptUpdate session data => some ⟨.encrypt, session, .update data⟩
  | .getFinalEncryptedLength session => some ⟨.encrypt, session, .getFinalLength⟩
  | .encryptFinal session => some ⟨.encrypt, session, .finish⟩
  | _ => none

inductive OperationResult where
  | done (result : Except CryptoError Unit)
  | length (result : Except CryptoError Nat)
  | output (result : Except CryptoError Bytes)

def ManagerReturnValue.operationResult : ManagerReturnValue → Option OperationResult
  | .startSign result | .startDecrypt result | .startEncrypt result
  | .signUpdate result | .decryptUpdate result | .encryptUpdate result => some (.done result)
  | .getSignatureLength result | .getFinalSignatureLength result
  | .getDecryptedLength result | .getFinalDecryptedLength result
  | .getEncryptedLength result | .getFinalEncryptedLength result => some (.length result)
  | .sign result | .signFinal result | .decrypt result | .decryptFinal result
  | .encrypt result | .encryptFinal result => some (.output result)
  | _ => none

namespace Manager
variable {B : Backend}

def operate (kind : Kind) (manager : Manager B) (session : CkSessionHandle) :
    OperationRequest kind → Reply B kind × Manager B
  | .start handle params =>
      let (result, after) := start kind manager session handle params
      (result.map fun _ => .accepted, after)
  | .getLength data => ((getLength kind manager session data).map .measures, manager)
  | .finishWith data =>
      let (input, after) := finishWith kind manager session data
      (input.map .performs, after)
  | .update data =>
      let (result, after) := update kind manager session data
      (result.map fun _ => .accepted, after)
  | .getFinalLength => ((getFinalLength kind manager session).map .measures, manager)
  | .finish =>
      let (input, after) := finish kind manager session
      (input.map .performs, after)

end Manager

/-- The answer sent back for a reply: the backend fills in its part. -/
def Reply.result {B : Backend} {kind : Kind} (os : B.Os) (request : OperationRequest kind)
    (reply : Reply B kind) : OperationResult :=
  match request, reply with
  | .start .., .error err | .update _, .error err => .done (.error err)
  | .getLength _, .error err | .getFinalLength, .error err => .length (.error err)
  | .finishWith _, .error err | .finish, .error err => .output (.error err)
  | _, .ok .accepted => .done (.ok ())
  | _, .ok (.measures input) => .length (B.measure os kind input)
  | _, .ok (.performs input) => .output (B.perform os kind input)

namespace Manager
variable {B : Backend}

theorem operate_result (kind : Kind) (manager : Manager B) (os : B.Os)
    (session : CkSessionHandle) (request : OperationRequest kind) :
    Reply.result os request (manager.operate kind session request).1 =
      match request with
      | .start handle params => .done (manager.start kind session handle params).1
      | .getLength data => .length (manager.getLength kind session data >>= B.measure os kind)
      | .finishWith data => .output ((manager.finishWith kind session data).1 >>= B.perform os kind)
      | .update data => .done (manager.update kind session data).1
      | .getFinalLength => .length (manager.getFinalLength kind session >>= B.measure os kind)
      | .finish => .output ((manager.finish kind session).1 >>= B.perform os kind) := by
  cases request with
  | start handle params =>
      cases h : (start kind manager session handle params).1 <;> simp [operate, h] <;> rfl
  | getLength data =>
      cases h : getLength kind manager session data <;> simp [operate, h] <;> rfl
  | finishWith data =>
      cases h : (finishWith kind manager session data).1 <;> simp [operate, h] <;> rfl
  | update data =>
      cases h : (update kind manager session data).1 <;> simp [operate, h] <;> rfl
  | getFinalLength =>
      cases h : getFinalLength kind manager session <;> simp [operate, h] <;> rfl
  | finish =>
      cases h : (finish kind manager session).1 <;> simp [operate, h] <;> rfl

theorem dispatch_operation (manager : Manager B) (os : B.Os) {arguments : ManagerArguments}
    {call : OperationCall} (operation : arguments.operationCall = some call) :
    (manager.dispatch os arguments).1.operationResult =
      some (Reply.result os call.request (manager.operate call.kind call.session call.request).1) ∧
    (manager.dispatch os arguments).2 =
      (manager.operate call.kind call.session call.request).2 := by
  -- Every variant reaches the method of its own kind, and carries back its result.
  rw [operate_result]
  cases arguments <;> simp only [ManagerArguments.operationCall, Option.some.injEq, reduceCtorEq]
    at operation <;> subst operation <;> exact ⟨rfl, rfl⟩

end Manager
end OsClientCerts
