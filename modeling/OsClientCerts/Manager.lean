import OsClientCerts.Backend

/-!
The manager: sessions, searches, the three maps of active operations and the
object registry. A method that ends in a backend call returns that call's input
and leaves the answer to the caller, so what reaches the backend is visible.
-/

namespace OsClientCerts
open Std (TreeMap)

/-- An entry of one of the operation maps: object handle, parameters, buffered parts. -/
structure Operation (kind : Kind) where
  handle : CkObjectHandle
  params : kind.Params
  data : Bytes

structure Manager (B : Backend) where
  sessions : TreeMap CkSessionHandle CkUlong := ∅
  searches : TreeMap CkSessionHandle (List CkObjectHandle) := ∅
  signs : TreeMap CkSessionHandle (Operation .sign) := ∅
  decrypts : TreeMap CkSessionHandle (Operation .decrypt) := ∅
  encrypts : TreeMap CkSessionHandle (Operation .encrypt) := ∅
  objects : TreeMap CkObjectHandle B.Object := ∅
  certIds : Finset Bytes := ∅
  keyIds : Finset Bytes := ∅
  trustIds : Finset Bytes := ∅
  nextSession : CkSessionHandle := 1
  nextHandle : CkObjectHandle := 1
  lastScanTime : Option Nat := none

namespace Manager
variable {B : Backend}

def operations (manager : Manager B) : (kind : Kind) → TreeMap CkSessionHandle (Operation kind)
  | .sign => manager.signs
  | .decrypt => manager.decrypts
  | .encrypt => manager.encrypts

def withOperations (manager : Manager B) :
    (kind : Kind) → TreeMap CkSessionHandle (Operation kind) → Manager B
  | .sign, signs => { manager with signs }
  | .decrypt, decrypts => { manager with decrypts }
  | .encrypt, encrypts => { manager with encrypts }

@[simp] theorem operations_with (manager : Manager B) (kind : Kind)
    (entries : TreeMap CkSessionHandle (Operation kind)) :
    (manager.withOperations kind entries).operations kind = entries := by
  cases kind <;> rfl

@[simp] theorem operations_with_other (manager : Manager B) {kind other : Kind}
    (entries : TreeMap CkSessionHandle (Operation kind)) (different : other ≠ kind) :
    (manager.withOperations kind entries).operations other = manager.operations other := by
  cases kind <;> cases other <;> first | rfl | exact absurd rfl different

@[simp] theorem with_objects (manager : Manager B) (kind : Kind)
    (entries : TreeMap CkSessionHandle (Operation kind)) :
    (manager.withOperations kind entries).objects = manager.objects := by
  cases kind <;> rfl

@[simp] theorem with_sessions (manager : Manager B) (kind : Kind)
    (entries : TreeMap CkSessionHandle (Operation kind)) :
    (manager.withOperations kind entries).sessions = manager.sessions := by
  cases kind <;> rfl

@[simp] theorem with_searches (manager : Manager B) (kind : Kind)
    (entries : TreeMap CkSessionHandle (Operation kind)) :
    (manager.withOperations kind entries).searches = manager.searches := by
  cases kind <;> rfl

@[simp] theorem with_next_session (manager : Manager B) (kind : Kind)
    (entries : TreeMap CkSessionHandle (Operation kind)) :
    (manager.withOperations kind entries).nextSession = manager.nextSession := by
  cases kind <;> rfl

/-- `+= 1` on a `CK_ULONG`, which wraps in release builds. -/
def succUlong (target : Target) (value : CkUlong) : CkUlong := (value + 1) % target.ulongModulus

def getNextHandle (manager : Manager B) : CkObjectHandle × Manager B :=
  (manager.nextHandle,
    { manager with nextHandle := succUlong B.target manager.nextHandle })

def insertObject (manager : Manager B) (object : B.Object) : Manager B :=
  let (handle, manager) := manager.getNextHandle
  { manager with objects := manager.objects.insert handle object }

def registerObject (manager : Manager B) (object : B.Object) : Manager B :=
  match object with
  | .cert cert =>
      if B.certId cert ∈ manager.certIds then manager
      else insertObject { manager with certIds := insert (B.certId cert) manager.certIds } object
  | .key key =>
      if B.keyId key ∈ manager.keyIds then manager
      else insertObject { manager with keyIds := insert (B.keyId key) manager.keyIds } object
  | .trust trust =>
      if B.trustId trust ∈ manager.trustIds then manager
      else insertObject { manager with trustIds := insert (B.trustId trust) manager.trustIds } object

/-- `now.duration_since(last)` saturates at zero, as subtraction on naturals does. -/
def scanDue (manager : Manager B) (os : B.Os) (minInterval : Nat) : Bool :=
  match manager.lastScanTime with
  | some last => !decide (B.now os - last < minInterval)
  | none => true

def maybeFindNewObjects (manager : Manager B) (os : B.Os) (minInterval : Nat) : Manager B :=
  if manager.scanDue os minInterval then
    (B.listObjects os).foldl registerObject { manager with lastScanTime := some (B.now os) }
  else manager

structure SameButRegistry (before after : Manager B) : Prop where
  sessions : after.sessions = before.sessions
  searches : after.searches = before.searches
  operations : ∀ kind, after.operations kind = before.operations kind
  nextSession : after.nextSession = before.nextSession

theorem SameButRegistry.refl (manager : Manager B) : SameButRegistry manager manager :=
  ⟨rfl, rfl, fun _ => rfl, rfl⟩

theorem register_same (manager : Manager B) (object : B.Object) :
    SameButRegistry manager (manager.registerObject object) := by
  unfold registerObject
  cases object <;> dsimp only <;> split <;>
    exact ⟨rfl, rfl, fun kind => by cases kind <;> rfl, rfl⟩

theorem scan_same (manager : Manager B) (os : B.Os) (minInterval : Nat) :
    SameButRegistry manager (manager.maybeFindNewObjects os minInterval) := by
  have loop (objects : List B.Object) (current : Manager B)
      (same : SameButRegistry manager current) :
      SameButRegistry manager (objects.foldl registerObject current) := by
    induction objects generalizing current with
    | nil => exact same
    | cons object rest ih =>
        have turn := register_same current object
        exact ih _ ⟨turn.sessions.trans same.sessions, turn.searches.trans same.searches,
          fun kind => (turn.operations kind).trans (same.operations kind),
          turn.nextSession.trans same.nextSession⟩
  unfold maybeFindNewObjects
  split
  · exact loop _ _ ⟨rfl, rfl, fun kind => by cases kind <;> rfl, rfl⟩
  · exact SameButRegistry.refl manager

theorem scanned_same {manager scanned : Manager B} {os : B.Os} {minInterval : Nat}
    (origin : scanned = manager ∨ scanned = manager.maybeFindNewObjects os minInterval) :
    SameButRegistry manager scanned := by
  rcases origin with rfl | rfl
  · exact SameButRegistry.refl scanned
  · exact scan_same manager os minInterval

def new (os : B.Os) : Manager B := maybeFindNewObjects {} os 3000

theorem new_same (os : B.Os) : SameButRegistry {} (new os : Manager B) := scan_same {} os 3000

def openSession (manager : Manager B) (os : B.Os) (flags : CkUlong) :
    Except Unit CkSessionHandle × Manager B :=
  let manager := manager.maybeFindNewObjects os 3000
  let nextSession := manager.nextSession
  (.ok nextSession, { manager with
    nextSession := succUlong B.target manager.nextSession
    sessions := manager.sessions.insert nextSession flags })

def getSessionInfo (manager : Manager B) (session : CkSessionHandle) : Except Unit CkUlong :=
  match manager.sessions[session]? with
  | some flags => .ok flags
  | none => .error ()

def closeSession (manager : Manager B) (session : CkSessionHandle) :
    Except Unit Unit × Manager B :=
  if manager.sessions.contains session then
    (.ok (), { manager with
      sessions := manager.sessions.erase session
      searches := manager.searches.erase session
      signs := manager.signs.erase session
      decrypts := manager.decrypts.erase session
      encrypts := manager.encrypts.erase session })
  else (.error (), manager)

def closeAllSessions (manager : Manager B) : Except Unit Unit × Manager B :=
  (.ok (), { manager with
    sessions := ∅, searches := ∅, signs := ∅, decrypts := ∅, encrypts := ∅ })

def matchingHandles (objects : TreeMap CkObjectHandle B.Object)
    (attrs : List (CkAttributeType × Bytes)) : List CkObjectHandle :=
  (objects.toList.filter fun entry => B.objectMatches entry.2 attrs).map Prod.fst

def startSearch (manager : Manager B) (os : B.Os) (session : CkSessionHandle)
    (attrs : List (CkAttributeType × Bytes)) : Except Unit Unit × Manager B :=
  if manager.searches.contains session then (.error (), manager)
  else if attrs.any (fun attr => attr.1 ∉ B.supportedAttributes) then
    -- No object has such an attribute, so nothing is scanned for it.
    (.ok (), { manager with searches := manager.searches.insert session [] })
  else
    let handles := matchingHandles manager.objects attrs
    if handles.isEmpty then
      let manager := manager.maybeFindNewObjects os 250
      (.ok (), { manager with
        searches := manager.searches.insert session (matchingHandles manager.objects attrs) })
    else (.ok (), { manager with searches := manager.searches.insert session handles })

def search (manager : Manager B) (session : CkSessionHandle) (maxObjects : Nat) :
    Except Unit (List CkObjectHandle) × Manager B :=
  if maxObjects = 0 then (.error (), manager)
  else match manager.searches[session]? with
    | some found =>
        -- Results leave from the end of the list.
        let splitAt := if maxObjects ≥ found.length then 0 else found.length - maxObjects
        let toReturn := found.drop splitAt
        let after := { manager with
          searches := manager.searches.insert session (found.take splitAt) }
        if toReturn.length > maxObjects then (.error (), after) else (.ok toReturn, after)
    | none => (.error (), manager)

def clearSearch (manager : Manager B) (session : CkSessionHandle) : Except Unit Unit × Manager B :=
  (.ok (), { manager with searches := manager.searches.erase session })

theorem start_search_cases (manager : Manager B) (os : B.Os) (session : CkSessionHandle)
    (attrs : List (CkAttributeType × Bytes)) :
    (manager.searches.contains session = true ∧
        manager.startSearch os session attrs = (.error (), manager)) ∨
      (manager.searches.contains session = false ∧ ∃ scanned handles,
        (scanned = manager ∨ scanned = manager.maybeFindNewObjects os 250) ∧
        manager.startSearch os session attrs =
          (.ok (), { scanned with searches := scanned.searches.insert session handles })) := by
  unfold startSearch
  by_cases busy : manager.searches.contains session = true
  · exact Or.inl ⟨busy, by rw [if_pos busy]⟩
  · refine Or.inr ⟨Bool.eq_false_iff.mpr busy, ?_⟩
    rw [if_neg busy]
    split
    · exact ⟨manager, [], Or.inl rfl, rfl⟩
    · dsimp only
      split
      · exact ⟨_, _, Or.inr rfl, rfl⟩
      · exact ⟨manager, _, Or.inl rfl, rfl⟩

theorem search_cases (manager : Manager B) (session : CkSessionHandle) (maxObjects : Nat) :
    (manager.search session maxObjects).2 = manager ∨
      (manager.searches.contains session = true ∧ ∃ remaining,
        (manager.search session maxObjects).2 =
          { manager with searches := manager.searches.insert session remaining }) := by
  unfold search
  by_cases zero : maxObjects = 0
  · exact Or.inl (by rw [if_pos zero])
  · rw [if_neg zero]
    cases held : manager.searches[session]? with
    | none => exact Or.inl rfl
    | some found =>
        have active : manager.searches.contains session = true := by
          rw [TreeMap.contains_eq_isSome_getElem?, held, Option.isSome_some]
        refine Or.inr ⟨active, found.take (if maxObjects ≥ found.length then 0
          else found.length - maxObjects), ?_⟩
        dsimp only
        generalize (if maxObjects ≥ found.length then 0 else found.length - maxObjects) = splitAt
        split <;> rfl

def getAttributes (manager : Manager B) (objectHandle : CkObjectHandle)
    (attrTypes : List CkAttributeType) : Except Unit (List (Option Bytes)) :=
  match manager.objects[objectHandle]? with
  | some object => .ok (attrTypes.map (B.getAttribute object))
  | none => .error ()

def start (kind : Kind) (manager : Manager B) (session : CkSessionHandle)
    (handle : CkObjectHandle) (params : kind.Params) : Except CryptoError Unit × Manager B :=
  if (manager.operations kind).contains session then (.error .operationFailed, manager)
  else match usable kind manager.objects[handle]? with
    | some _ => (.ok (), manager.withOperations kind
        ((manager.operations kind).insert session ⟨handle, params, []⟩))
    | none => (.error .invalidKey, manager)

theorem start_unchanged {kind : Kind} {manager : Manager B} {session : CkSessionHandle}
    {handle : CkObjectHandle} {params : kind.Params}
    (refused : (manager.start kind session handle params).1 ≠ .ok ()) :
    (manager.start kind session handle params).2 = manager := by
  unfold start at refused ⊢
  by_cases busy : (manager.operations kind).contains session = true
  · rw [if_pos busy]
  · rw [if_neg busy] at refused ⊢
    cases found : usable kind manager.objects[handle]? with
    | none => rfl
    | some object =>
        rw [found] at refused
        exact absurd rfl refused

/-- The input an operation hands to the backend, once its object is looked up. -/
def resolve (kind : Kind) (manager : Manager B) (operation : Operation kind) (data : Bytes) :
    Except CryptoError (BackendInput B kind) :=
  match usable kind manager.objects[operation.handle]? with
  | some object => .ok ⟨object, operation.params, data⟩
  | none => .error .invalidKey

def getLength (kind : Kind) (manager : Manager B) (session : CkSessionHandle) (data : Bytes) :
    Except CryptoError (BackendInput B kind) :=
  match (manager.operations kind)[session]? with
  | some operation => manager.resolve kind operation data
  | none => .error .operationFailed

/-- The one-shot call. The buffered parts of the entry are not used. -/
def finishWith (kind : Kind) (manager : Manager B) (session : CkSessionHandle) (data : Bytes) :
    Except CryptoError (BackendInput B kind) × Manager B :=
  match (manager.operations kind)[session]? with
  | some operation => (manager.resolve kind operation data,
      manager.withOperations kind ((manager.operations kind).erase session))
  | none => (.error .operationFailed, manager)

def update (kind : Kind) (manager : Manager B) (session : CkSessionHandle) (data : Bytes) :
    Except CryptoError Unit × Manager B :=
  match (manager.operations kind)[session]? with
  | some operation =>
      if operation.data.length + data.length > maxTotalOperationDataLen then
        (.error .dataTooLarge, manager)
      else (.ok (), manager.withOperations kind
        ((manager.operations kind).insert session
          { operation with data := operation.data ++ data }))
  | none => (.error .operationFailed, manager)

def getFinalLength (kind : Kind) (manager : Manager B) (session : CkSessionHandle) :
    Except CryptoError (BackendInput B kind) :=
  match (manager.operations kind)[session]? with
  | some operation => manager.resolve kind operation operation.data
  | none => .error .operationFailed

def finish (kind : Kind) (manager : Manager B) (session : CkSessionHandle) :
    Except CryptoError (BackendInput B kind) × Manager B :=
  match (manager.operations kind)[session]? with
  | some operation => (manager.resolve kind operation operation.data,
      manager.withOperations kind ((manager.operations kind).erase session))
  | none => (.error .operationFailed, manager)

theorem finish_with_input (manager : Manager B) (kind : Kind) (session : CkSessionHandle)
    (data : Bytes) :
    (manager.finishWith kind session data).1 = manager.getLength kind session data := by
  unfold finishWith getLength
  cases (manager.operations kind)[session]? <;> rfl

theorem finish_input (manager : Manager B) (kind : Kind) (session : CkSessionHandle) :
    (manager.finish kind session).1 = manager.getFinalLength kind session := by
  unfold finish getFinalLength
  cases (manager.operations kind)[session]? <;> rfl

def startSign (manager : Manager B) (session : CkSessionHandle) (keyHandle : CkObjectHandle)
    (params : Option CkRsaPkcsPssParams) := start .sign manager session keyHandle params
def getSignatureLength (manager : Manager B) := getLength .sign manager
def sign (manager : Manager B) := finishWith .sign manager
def signUpdate (manager : Manager B) := update .sign manager
def getFinalSignatureLength (manager : Manager B) := getFinalLength .sign manager
def signFinal (manager : Manager B) := finish .sign manager

def startDecrypt (manager : Manager B) (session : CkSessionHandle) (keyHandle : CkObjectHandle)
    (mechanism : RsaCipherMechanism) := start .decrypt manager session keyHandle mechanism
def getDecryptedLength (manager : Manager B) := getLength .decrypt manager
def decrypt (manager : Manager B) := finishWith .decrypt manager
def decryptUpdate (manager : Manager B) := update .decrypt manager
def getFinalDecryptedLength (manager : Manager B) := getFinalLength .decrypt manager
def decryptFinal (manager : Manager B) := finish .decrypt manager

def startEncrypt (manager : Manager B) (session : CkSessionHandle) (keyHandle : CkObjectHandle)
    (mechanism : RsaCipherMechanism) := start .encrypt manager session keyHandle mechanism
def getEncryptedLength (manager : Manager B) := getLength .encrypt manager
def encrypt (manager : Manager B) := finishWith .encrypt manager
def encryptUpdate (manager : Manager B) := update .encrypt manager
def getFinalEncryptedLength (manager : Manager B) := getFinalLength .encrypt manager
def encryptFinal (manager : Manager B) := finish .encrypt manager

end Manager
end OsClientCerts
