import OsClientCerts.ModuleState
import OsClientCerts.ObjectRegistry
import OsClientCerts.RequestReply
import OsClientCerts.WindowsBackend

/-!
The manager behind its proxy: two channels, a thread that owns the manager, and
callers who hold the mutex for a whole `proxy_call`. What a proxy method returns
is what the manager's own method returns after all requests made before it.
-/

namespace OsClientCerts
open LocalAutomata RequestReply

/-- The thread of `ManagerProxy::new`, and the one method that waits for its end. -/
def managerServer (B : Backend) :
    Server B.Os ManagerArguments ManagerReturnValue (Manager B) where
  start := Manager.new
  handle os arguments manager := manager.dispatch os arguments
  last
    | .stop _ => true
    | _ => false
  joins
    | .stop, .stop (.ok ()) => true
    | _, _ => false
  joinsLast request reply joins := by
    split at joins
    · rfl
    · cases joins

abbrev ProxyConfig (B : Backend) (ι : Type) :=
  RequestReply.Config ι B.Os ManagerArguments ManagerReturnValue (Manager B)

abbrev ProxyAction (B : Backend) (ι : Type) := Action ι B.Os ManagerArguments

abbrev Method (B : Backend) (ε α : Type) := Manager B → B.Os → Except ε α × Manager B

inductive Corresponds (B : Backend) : {ε α : Type} → ProxyFn ε α → Method B ε α → Prop where
  | openSession (flags) :
      Corresponds B (ManagerProxy.openSession flags) fun manager os => manager.openSession os flags
  | getSessionInfo (session) :
      Corresponds B (ManagerProxy.getSessionInfo session) fun manager _ =>
        (manager.getSessionInfo session, manager)
  | closeSession (session) :
      Corresponds B (ManagerProxy.closeSession session) fun manager _ =>
        manager.closeSession session
  | closeAllSessions :
      Corresponds B ManagerProxy.closeAllSessions fun manager _ => manager.closeAllSessions
  | startSearch (session) (attrs) :
      Corresponds B (ManagerProxy.startSearch session attrs) fun manager os =>
        manager.startSearch os session attrs
  | search (session) (maxObjects) :
      Corresponds B (ManagerProxy.search session maxObjects) fun manager _ =>
        manager.search session maxObjects
  | clearSearch (session) :
      Corresponds B (ManagerProxy.clearSearch session) fun manager _ => manager.clearSearch session
  | getAttributes (object) (attrTypes) :
      Corresponds B (ManagerProxy.getAttributes object attrTypes) fun manager _ =>
        (manager.getAttributes object attrTypes, manager)
  | startSign (session) (key) (params) :
      Corresponds B (ManagerProxy.startSign session key params) fun manager _ =>
        manager.startSign session key params
  | getSignatureLength (session) (data) :
      Corresponds B (ManagerProxy.getSignatureLength session data) fun manager os =>
        (manager.getSignatureLength session data >>= B.measure os .sign, manager)
  | sign (session) (data) :
      Corresponds B (ManagerProxy.sign session data) fun manager os =>
        ((manager.sign session data).1 >>= B.perform os .sign, (manager.sign session data).2)
  | signUpdate (session) (data) :
      Corresponds B (ManagerProxy.signUpdate session data) fun manager _ =>
        manager.signUpdate session data
  | getFinalSignatureLength (session) :
      Corresponds B (ManagerProxy.getFinalSignatureLength session) fun manager os =>
        (manager.getFinalSignatureLength session >>= B.measure os .sign, manager)
  | signFinal (session) :
      Corresponds B (ManagerProxy.signFinal session) fun manager os =>
        ((manager.signFinal session).1 >>= B.perform os .sign, (manager.signFinal session).2)
  | startDecrypt (session) (key) (mechanism) :
      Corresponds B (ManagerProxy.startDecrypt session key mechanism) fun manager _ =>
        manager.startDecrypt session key mechanism
  | getDecryptedLength (session) (data) :
      Corresponds B (ManagerProxy.getDecryptedLength session data) fun manager os =>
        (manager.getDecryptedLength session data >>= B.measure os .decrypt, manager)
  | decrypt (session) (data) :
      Corresponds B (ManagerProxy.decrypt session data) fun manager os =>
        ((manager.decrypt session data).1 >>= B.perform os .decrypt,
          (manager.decrypt session data).2)
  | decryptUpdate (session) (data) :
      Corresponds B (ManagerProxy.decryptUpdate session data) fun manager _ =>
        manager.decryptUpdate session data
  | getFinalDecryptedLength (session) :
      Corresponds B (ManagerProxy.getFinalDecryptedLength session) fun manager os =>
        (manager.getFinalDecryptedLength session >>= B.measure os .decrypt, manager)
  | decryptFinal (session) :
      Corresponds B (ManagerProxy.decryptFinal session) fun manager os =>
        ((manager.decryptFinal session).1 >>= B.perform os .decrypt,
          (manager.decryptFinal session).2)
  | startEncrypt (session) (key) (mechanism) :
      Corresponds B (ManagerProxy.startEncrypt session key mechanism) fun manager _ =>
        manager.startEncrypt session key mechanism
  | getEncryptedLength (session) (data) :
      Corresponds B (ManagerProxy.getEncryptedLength session data) fun manager os =>
        (manager.getEncryptedLength session data >>= B.measure os .encrypt, manager)
  | encrypt (session) (data) :
      Corresponds B (ManagerProxy.encrypt session data) fun manager os =>
        ((manager.encrypt session data).1 >>= B.perform os .encrypt,
          (manager.encrypt session data).2)
  | encryptUpdate (session) (data) :
      Corresponds B (ManagerProxy.encryptUpdate session data) fun manager _ =>
        manager.encryptUpdate session data
  | getFinalEncryptedLength (session) :
      Corresponds B (ManagerProxy.getFinalEncryptedLength session) fun manager os =>
        (manager.getFinalEncryptedLength session >>= B.measure os .encrypt, manager)
  | encryptFinal (session) :
      Corresponds B (ManagerProxy.encryptFinal session) fun manager os =>
        ((manager.encryptFinal session).1 >>= B.perform os .encrypt,
          (manager.encryptFinal session).2)
  -- Stopping asks nothing of the manager; it is dropped with the thread.
  | stop : Corresponds B ManagerProxy.stop fun manager _ => (.ok (), manager)

section
variable {B : Backend} {ε α : Type} {fn : ProxyFn ε α} {method : Method B ε α}

/-- The thread runs the method the request was made for, on the arguments in their
places, and replies with the variant the proxy method expects. -/
theorem corresponds_dispatched (same : Corresponds B fn method) (manager : Manager B) (os : B.Os) :
    fn.expected (manager.dispatch os fn.arguments).1 = some (method manager os).1 ∧
      (manager.dispatch os fn.arguments).2 = (method manager os).2 := by
  cases same <;> exact ⟨rfl, rfl⟩

/-- No request is without its proxy method. -/
theorem every_request_corresponds (B : Backend) (arguments : ManagerArguments) :
    ∃ (ε α : Type) (_ : FromUnit ε) (fn : ProxyFn ε α) (method : Method B ε α),
      Corresponds B fn method ∧ fn.arguments = arguments := by
  cases arguments with
  | openSession flags => exact ⟨_, _, inferInstance, _, _, .openSession flags, rfl⟩
  | closeSession session => exact ⟨_, _, inferInstance, _, _, .closeSession session, rfl⟩
  | closeAllSessions => exact ⟨_, _, inferInstance, _, _, .closeAllSessions, rfl⟩
  | startSearch session attrs =>
      exact ⟨_, _, inferInstance, _, _, .startSearch session attrs, rfl⟩
  | search session maxObjects =>
      exact ⟨_, _, inferInstance, _, _, .search session maxObjects, rfl⟩
  | clearSearch session => exact ⟨_, _, inferInstance, _, _, .clearSearch session, rfl⟩
  | getAttributes object attrTypes =>
      exact ⟨_, _, inferInstance, _, _, .getAttributes object attrTypes, rfl⟩
  | startSign session key params =>
      exact ⟨_, _, inferInstance, _, _, .startSign session key params, rfl⟩
  | getSignatureLength session data =>
      exact ⟨_, _, inferInstance, _, _, .getSignatureLength session data, rfl⟩
  | sign session data => exact ⟨_, _, inferInstance, _, _, .sign session data, rfl⟩
  | signUpdate session data => exact ⟨_, _, inferInstance, _, _, .signUpdate session data, rfl⟩
  | getFinalSignatureLength session =>
      exact ⟨_, _, inferInstance, _, _, .getFinalSignatureLength session, rfl⟩
  | signFinal session => exact ⟨_, _, inferInstance, _, _, .signFinal session, rfl⟩
  | startDecrypt session key mechanism =>
      exact ⟨_, _, inferInstance, _, _, .startDecrypt session key mechanism, rfl⟩
  | getDecryptedLength session data =>
      exact ⟨_, _, inferInstance, _, _, .getDecryptedLength session data, rfl⟩
  | decrypt session data => exact ⟨_, _, inferInstance, _, _, .decrypt session data, rfl⟩
  | decryptUpdate session data =>
      exact ⟨_, _, inferInstance, _, _, .decryptUpdate session data, rfl⟩
  | getFinalDecryptedLength session =>
      exact ⟨_, _, inferInstance, _, _, .getFinalDecryptedLength session, rfl⟩
  | decryptFinal session => exact ⟨_, _, inferInstance, _, _, .decryptFinal session, rfl⟩
  | startEncrypt session key mechanism =>
      exact ⟨_, _, inferInstance, _, _, .startEncrypt session key mechanism, rfl⟩
  | getEncryptedLength session data =>
      exact ⟨_, _, inferInstance, _, _, .getEncryptedLength session data, rfl⟩
  | encrypt session data => exact ⟨_, _, inferInstance, _, _, .encrypt session data, rfl⟩
  | encryptUpdate session data =>
      exact ⟨_, _, inferInstance, _, _, .encryptUpdate session data, rfl⟩
  | getFinalEncryptedLength session =>
      exact ⟨_, _, inferInstance, _, _, .getFinalEncryptedLength session, rfl⟩
  | encryptFinal session => exact ⟨_, _, inferInstance, _, _, .encryptFinal session, rfl⟩
  | getSessionInfo session => exact ⟨_, _, inferInstance, _, _, .getSessionInfo session, rfl⟩
  | stop => exact ⟨_, _, inferInstance, _, _, .stop, rfl⟩

end

/-- The reply that the manager's own method would have given at this place of the lock
order: the state is what all earlier requests have left, and nothing else. -/
def ManagerAnswer {B : Backend} {ι : Type} (config : ProxyConfig B ι) (place : Nat)
    (request : ManagerArguments) (value : ManagerReturnValue) : Prop :=
  ∃ first os, config.first = some first ∧ config.handled[place]? = some (os, request) ∧
    (config.handled.take place).map Prod.snd = (config.log.take place).map Done.request ∧
    ∀ {ε α : Type} [FromUnit ε] (fn : ProxyFn ε α) (method : Method B ε α),
      Corresponds B fn method → fn.arguments = request →
      let result := (method (after Manager.step (config.handled.take place)
        (Manager.new first)) os).1
      fn.expected value = some result ∧ fn.returned (some value) = result

/-- What the callers of the proxy see, whatever the interleaving. A call that is answered has
the manager's answer, and a call is answered unless the thread has ended or the proxy has been
given up. Nothing is left in the channel for another caller. Who finds the lock free can call,
a call under way can always go on, and it has returned after eleven steps. -/
structure ProxyRefines {B : Backend} {ι : Type} (config : ProxyConfig B ι) : Prop where
  everyRequest : ∀ arguments : ManagerArguments,
    ∃ (ε α : Type) (_ : FromUnit ε) (fn : ProxyFn ε α) (method : Method B ε α),
      Corresponds B fn method ∧ fn.arguments = arguments
  answered : ∀ (place : Nat) (done : Done ι ManagerArguments ManagerReturnValue),
    config.log[place]? = some done → ∀ value, done.outcome = some value →
    ManagerAnswer config place done.request value
  nothingLeft : config.lock = none → config.replies = []
  ownReply : ∀ (caller : ι) (request : ManagerArguments),
    config.lock = some (caller, .awaiting request) → ∀ value ∈ config.replies,
    config.replies = [value] ∧ ManagerAnswer config config.log.length request value
  failed : ∀ done ∈ config.log, done.outcome = none →
    config.thread.Exited ∨ config.client = false
  begins : config.lock = none → ∀ (caller : ι) (request : ManagerArguments),
    ∃ next, step (managerServer B) config (.lock caller request) = some next
  proceeds : config.lock.isSome = true → ∀ os, CanProceed (managerServer B) os config
  returns : config.lock.isSome = true → ∀ (later : List (ProxyAction B ι)) (next : ProxyConfig B ι),
    play (managerServer B) later config = some next → 10 < later.length →
    config.log.length < next.log.length

section
variable {B : Backend} {ι : Type} {config : ProxyConfig B ι}

theorem manager_answer {place : Nat} {request : ManagerArguments} {value : ManagerReturnValue}
    {first os : B.Os}
    (answer : AnswerAt (managerServer B) config place request value first os) :
    ManagerAnswer config place request value := by
  refine ⟨first, os, answer.started, answer.handled, answer.earlier, ?_⟩
  intro ε α _ fn method same asked
  have made := answer.made
  subst asked
  have expected : fn.expected value = some (method (after Manager.step
      (config.handled.take place) (Manager.new first)) os).1 := by
    rw [made]
    exact (corresponds_dispatched same _ os).1
  exact ⟨expected, by rw [ProxyFn.returned, ProxyFn.reply, expected, Option.getD_some]⟩

end

end OsClientCerts
