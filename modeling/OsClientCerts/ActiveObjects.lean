import OsClientCerts.AttributeValues

/-!
Active operations and the objects they were started on. The object is looked up again at
every later call, so it has to stay where it was. It does until the handle counter comes
round to it, which takes one object more than there are handles.
-/

namespace OsClientCerts
open LocalAutomata

namespace Manager
variable {B : Backend}

structure OperationsUsable (manager : Manager B) : Prop where
  signs : ∀ (session : CkSessionHandle) (operation : Operation .sign),
    manager.signs[session]? = some operation →
      ∃ key, manager.objects[operation.handle]? = some (.key key)
  decrypts : ∀ (session : CkSessionHandle) (operation : Operation .decrypt),
    manager.decrypts[session]? = some operation →
      ∃ key, manager.objects[operation.handle]? = some (.key key)
  encrypts : ∀ (session : CkSessionHandle) (operation : Operation .encrypt),
    manager.encrypts[session]? = some operation →
      (∃ cert, manager.objects[operation.handle]? = some (.cert cert)) ∨
        ∃ key, manager.objects[operation.handle]? = some (.key key)

/-- No length query, one-shot call or final call fails for its object, so where the reply is
an invalid key the backend has said so. -/
structure InvalidKeyFromBackend (manager : Manager B) : Prop where
  getLength : ∀ kind session data, manager.getLength kind session data ≠ .error .invalidKey
  finishWith : ∀ kind session data,
    (manager.finishWith kind session data).1 ≠ .error .invalidKey
  getFinalLength : ∀ kind session, manager.getFinalLength kind session ≠ .error .invalidKey
  finish : ∀ kind session, (manager.finish kind session).1 ≠ .error .invalidKey
  measured : ∀ (os : B.Os) (arguments : ManagerArguments) (call : OperationCall),
    arguments.operationCall = some call →
    (manager.dispatch os arguments).1.operationResult = some (.length (.error .invalidKey)) →
      ∃ input, (manager.operate call.kind call.session call.request).1 = .ok (.measures input) ∧
        B.measure os call.kind input = .error .invalidKey
  performed : ∀ (os : B.Os) (arguments : ManagerArguments) (call : OperationCall),
    arguments.operationCall = some call →
    (manager.dispatch os arguments).1.operationResult = some (.output (.error .invalidKey)) →
      ∃ input, (manager.operate call.kind call.session call.request).1 = .ok (.performs input) ∧
        B.perform os call.kind input = .error .invalidKey

theorem usable_key {kind : Kind} (keyed : kind ≠ .encrypt) {given : Option B.Object} :
    (∃ object, usable kind given = some object) ↔ ∃ key, given = some (.key key) := by
  cases kind with
  | encrypt => exact absurd rfl keyed
  | sign | decrypt =>
      cases given with
      | none => simp [usable]
      | some object => cases object <;> simp [usable]

theorem usable_encrypt {given : Option B.Object} :
    (∃ object, usable .encrypt given = some object) ↔
      (∃ cert, given = some (.cert cert)) ∨ ∃ key, given = some (.key key) := by
  cases given with
  | none => simp [usable]
  | some object => cases object <;> simp [usable]

def Suitable (manager : Manager B) : Prop :=
  ∀ (kind : Kind) (session : CkSessionHandle) (operation : Operation kind),
    (manager.operations kind)[session]? = some operation →
      ∃ object, usable kind manager.objects[operation.handle]? = some object

theorem Suitable.operations_usable {manager : Manager B} (suitable : manager.Suitable) :
    manager.OperationsUsable where
  signs session operation active :=
    (usable_key (by decide)).mp (suitable .sign session operation active)
  decrypts session operation active :=
    (usable_key (by decide)).mp (suitable .decrypt session operation active)
  encrypts session operation active :=
    usable_encrypt.mp (suitable .encrypt session operation active)

theorem Suitable.resolves {manager : Manager B} (suitable : manager.Suitable) {kind : Kind}
    {session : CkSessionHandle} {operation : Operation kind}
    (active : (manager.operations kind)[session]? = some operation) (data : Bytes) :
    ∃ input, manager.resolve kind operation data = .ok input := by
  obtain ⟨object, found⟩ := suitable kind session operation active
  exact ⟨⟨object, operation.params, data⟩, by rw [resolve, found]⟩

theorem Suitable.get_length {manager : Manager B} (suitable : manager.Suitable) (kind : Kind)
    (session : CkSessionHandle) (data : Bytes) :
    manager.getLength kind session data ≠ .error .invalidKey := by
  unfold getLength
  cases held : (manager.operations kind)[session]? with
  | none => exact nofun
  | some operation =>
      obtain ⟨input, resolved⟩ := suitable.resolves held data
      dsimp only
      rw [resolved]
      exact nofun

theorem Suitable.get_final_length {manager : Manager B} (suitable : manager.Suitable)
    (kind : Kind) (session : CkSessionHandle) :
    manager.getFinalLength kind session ≠ .error .invalidKey := by
  unfold getFinalLength
  cases held : (manager.operations kind)[session]? with
  | none => exact nofun
  | some operation =>
      obtain ⟨input, resolved⟩ := suitable.resolves held operation.data
      dsimp only
      rw [resolved]
      exact nofun

theorem get_length_unusable {manager : Manager B} {kind : Kind} {session : CkSessionHandle}
    {operation : Operation kind} {data : Bytes}
    (active : (manager.operations kind)[session]? = some operation)
    (unusable : usable kind manager.objects[operation.handle]? = none) :
    manager.getLength kind session data = .error .invalidKey := by
  simp only [getLength, active, resolve, unusable]

theorem finish_unusable {manager : Manager B} {kind : Kind} {session : CkSessionHandle}
    {operation : Operation kind}
    (active : (manager.operations kind)[session]? = some operation)
    (unusable : usable kind manager.objects[operation.handle]? = none) :
    (manager.finish kind session).1 = .error .invalidKey := by
  simp only [finish, active, resolve, unusable]

theorem map_not_error {α β : Type} {made : α → β} {failure : CryptoError}
    {result : Except CryptoError α} (other : result ≠ .error failure) :
    result.map made ≠ .error failure := by
  cases result with
  | ok value => exact nofun
  | error reason =>
      intro same
      exact other (congrArg Except.error (Except.error.inj same))

/-- An error in a reply that has a length was the manager's own or the backend's. -/
theorem length_error {kind : Kind} {os : B.Os} {request : OperationRequest kind}
    {reply : Reply B kind} {failure : CryptoError}
    (failed : Reply.result os request reply = .length (.error failure)) :
    (∃ input, reply = .ok (.measures input) ∧ B.measure os kind input = .error failure) ∨
      (reply = .error failure ∧
        ((∃ data, request = .getLength data) ∨ request = .getFinalLength)) := by
  cases reply with
  | ok outcome =>
      cases outcome with
      | measures input =>
          have measured : B.measure os kind input = .error failure := by
            cases request <;> exact OperationResult.length.inj failed
          exact Or.inl ⟨input, rfl, measured⟩
      | accepted | performs input => cases request <;> cases failed
  | error reason =>
      cases request with
      | getLength data =>
          cases failed
          exact Or.inr ⟨rfl, Or.inl ⟨data, rfl⟩⟩
      | getFinalLength =>
          cases failed
          exact Or.inr ⟨rfl, Or.inr rfl⟩
      | _ => cases failed

theorem output_error {kind : Kind} {os : B.Os} {request : OperationRequest kind}
    {reply : Reply B kind} {failure : CryptoError}
    (failed : Reply.result os request reply = .output (.error failure)) :
    (∃ input, reply = .ok (.performs input) ∧ B.perform os kind input = .error failure) ∨
      (reply = .error failure ∧ ((∃ data, request = .finishWith data) ∨ request = .finish)) := by
  cases reply with
  | ok outcome =>
      cases outcome with
      | performs input =>
          have performed : B.perform os kind input = .error failure := by
            cases request <;> exact OperationResult.output.inj failed
          exact Or.inl ⟨input, rfl, performed⟩
      | accepted | measures input => cases request <;> cases failed
  | error reason =>
      cases request with
      | finishWith data =>
          cases failed
          exact Or.inr ⟨rfl, Or.inl ⟨data, rfl⟩⟩
      | finish =>
          cases failed
          exact Or.inr ⟨rfl, Or.inr rfl⟩
      | _ => cases failed

theorem Suitable.invalid_key {manager : Manager B} (suitable : manager.Suitable) :
    manager.InvalidKeyFromBackend where
  getLength := suitable.get_length
  finishWith kind session data := by
    rw [finish_with_input]
    exact suitable.get_length kind session data
  getFinalLength := suitable.get_final_length
  finish kind session := by
    rw [finish_input]
    exact suitable.get_final_length kind session
  measured os arguments call made failed := by
    rw [(dispatch_operation manager os made).1, Option.some.injEq] at failed
    rcases length_error failed with backend | ⟨own, ⟨data, asked⟩ | asked⟩
    · exact backend
    · rw [asked] at own
      exact absurd own (map_not_error (suitable.get_length _ _ data))
    · rw [asked] at own
      exact absurd own (map_not_error (suitable.get_final_length _ _))
  performed os arguments call made failed := by
    rw [(dispatch_operation manager os made).1, Option.some.injEq] at failed
    rcases output_error failed with backend | ⟨own, ⟨data, asked⟩ | asked⟩
    · exact backend
    · rw [asked] at own
      have looked := suitable.get_length call.kind call.session data
      rw [← finish_with_input] at looked
      exact absurd own (map_not_error looked)
    · rw [asked] at own
      have looked := suitable.get_final_length call.kind call.session
      rw [← finish_input] at looked
      exact absurd own (map_not_error looked)

theorem reached_suitable (os : B.Os) (run : List (ManagerStep B))
    (few : (after step run (new os : Manager B)).registered ≤ B.target.ulongModulus) :
    (after step run (new os : Manager B)).Suitable := by
  rintro kind session ⟨handle, params, buffer⟩ active
  obtain ⟨earlier, opening, later, opened⟩ :=
    active_opened os run (operation_state_active.mpr active)
  obtain ⟨object, suitable⟩ := opened.suitable
  cases held : (after step earlier (new os : Manager B)).objects[handle]? with
  | none =>
      have absent : usable kind (none : Option B.Object) = some object := by
        rw [← held]
        exact suitable
      cases kind <;> cases absent
  | some found =>
      have stays := opened.split ▸ few
      have kept := handle_kept os earlier (opening :: later) stays held
      refine ⟨object, ?_⟩
      rw [opened.split, kept, ← held]
      exact suitable

end Manager

/-- As long as there have been no more objects than handles, what an active operation refers
to is there and can be used, and an invalid key is the backend's finding. -/
theorem active_operations_usable {B : Backend} (os : B.Os) (run : List (ManagerStep B))
    (few : (after Manager.step run (Manager.new os : Manager B)).registered ≤
      B.target.ulongModulus) :
    (after Manager.step run (Manager.new os : Manager B)).OperationsUsable ∧
      (after Manager.step run (Manager.new os : Manager B)).InvalidKeyFromBackend := by
  have suitable := Manager.reached_suitable os run few
  exact ⟨suitable.operations_usable, suitable.invalid_key⟩

namespace Windows

def signing : Manager backend :=
  after Manager.step [((Cng.holding 0 [.key (.forCert 3 [7] .ec)] : backend.Os),
    .startSign 5 1 none)] (Manager.new (Cng.holding 0 [.key (.forCert 3 [7] .ec)]))

theorem signing_active : signing.signs[5]? = some ⟨1, none, []⟩ := by rfl

theorem signing_usable : signing.OperationsUsable ∧ signing.InvalidKeyFromBackend :=
  active_operations_usable (B := backend) (Cng.holding 0 [.key (.forCert 3 [7] .ec)])
    [((Cng.holding 0 [.key (.forCert 3 [7] .ec)] : backend.Os), .startSign 5 1 none)] (by decide)

/-- A scan that takes the counter once around leaves the signature with a certificate. -/
theorem crowd_replaces_key {number : Nat} (around : (2 + number) % UInt32.size = 1) :
    (Manager.step ((Cng.holding 5000 (crowd number) : backend.Os), .openSession 4)
        signing).objects[1]? = some (numberedCert number) ∧
      (Manager.step ((Cng.holding 5000 (crowd number) : backend.Os), .openSession 4)
        signing).signs[5]? = some ⟨1, none, []⟩ := by
  constructor
  · have unknown : ∀ place, List.replicate place 0 ∉
        ({ signing with lastScanTime := some 5000 } : Manager backend).certIds :=
      fun place => Finset.notMem_empty _
    have bounded : ({ signing with lastScanTime := some 5000 } :
        Manager backend).nextHandle < UInt32.size := by decide
    exact crowd_takes_handle bounded unknown around
  · have same := (Manager.scan_same signing (Cng.holding 5000 (crowd number)) 3000).operations
    have kept := same .sign
    change (Manager.maybeFindNewObjects signing _ 3000).signs = signing.signs at kept
    change (Manager.maybeFindNewObjects signing _ 3000).signs[5]? = _
    rw [kept]
    exact signing_active

theorem crowd_invalidates_key {number : Nat} (around : (2 + number) % UInt32.size = 1) :
    ¬(Manager.step ((Cng.holding 5000 (crowd number) : backend.Os), .openSession 4)
        signing).OperationsUsable ∧
      (Manager.step ((Cng.holding 5000 (crowd number) : backend.Os), .openSession 4)
        signing).getLength .sign 5 [] = .error .invalidKey := by
  obtain ⟨replaced, active⟩ := crowd_replaces_key around
  constructor
  · intro usable
    obtain ⟨key, found⟩ := usable.signs 5 ⟨1, none, []⟩ active
    rw [replaced] at found
    cases found
  · apply Manager.get_length_unusable active
    rw [replaced]
    rfl

theorem crowd_changes_object {number : Nat} (around : (2 + number) % UInt32.size = 1) :
    ∃ (run earlier : List (ManagerStep backend)) (opening : ManagerStep backend)
      (later : List (ManagerStep backend)) (key : Key),
      OpenedIn .sign 5 (Manager.new (Cng.holding 0 [.key (.forCert 3 [7] .ec)])) run earlier
        opening later 1 none [] ∧
      usable .sign ((after Manager.step earlier (Manager.new
        (Cng.holding 0 [.key (.forCert 3 [7] .ec)]) : Manager backend)).registry 1) = some key ∧
      ((after Manager.step run (Manager.new
        (Cng.holding 0 [.key (.forCert 3 [7] .ec)]) : Manager backend)).finish .sign 5).1 =
          .error .invalidKey := by
  obtain ⟨replaced, active⟩ := crowd_replaces_key around
  let run : List (ManagerStep backend) :=
    [(Cng.holding 0 [.key (.forCert 3 [7] .ec)], .startSign 5 1 none),
      (Cng.holding 5000 (crowd number), .openSession 4)]
  have going : (after Manager.step run (Manager.new
      (Cng.holding 0 [.key (.forCert 3 [7] .ec)]) : Manager backend)).operationState .sign 5 =
        .active 1 none [] :=
    Manager.operation_state_active.mpr active
  obtain ⟨earlier, opening, later, opened⟩ := active_opened _ run going
  obtain ⟨key, suitable⟩ := opened.suitable
  have unusable : usable .sign (Manager.step ((Cng.holding 5000 (crowd number) : backend.Os),
      .openSession 4) signing).objects[1]? = none := by
    rw [replaced]
    rfl
  exact ⟨run, earlier, opening, later, key, opened, suitable,
    @Manager.finish_unusable backend _ .sign 5 ⟨1, none, []⟩ active unusable⟩

end Windows

/-- One object more than there are handles is enough. -/
theorem reused_handle_invalidates_key :
    ¬(∀ (os : Windows.Cng) (run : List (ManagerStep Windows.backend)),
      (after Manager.step run (Manager.new os : Manager Windows.backend)).OperationsUsable) ∧
    ¬(∀ (os : Windows.Cng) (run : List (ManagerStep Windows.backend)),
      (after Manager.step run (Manager.new os : Manager Windows.backend)).InvalidKeyFromBackend) := by
  obtain ⟨unusable, invalid⟩ := @Windows.crowd_invalidates_key 4294967295 (by decide)
  have reached : ∃ (os : Windows.Cng) (run : List (ManagerStep Windows.backend)),
      after Manager.step run (Manager.new os : Manager Windows.backend) =
        Manager.step ((Windows.Cng.holding 5000 (Windows.crowd 4294967295) :
          Windows.backend.Os), .openSession 4) Windows.signing :=
    ⟨.holding 0 [.key (.forCert 3 [7] .ec)],
      [(Windows.Cng.holding 0 [.key (.forCert 3 [7] .ec)], .startSign 5 1 none),
        (Windows.Cng.holding 5000 (Windows.crowd 4294967295), .openSession 4)], rfl⟩
  obtain ⟨os, run, arrived⟩ := reached
  constructor
  · intro claim
    exact unusable (arrived ▸ claim os run)
  · intro claim
    exact (arrived ▸ claim os run).getLength .sign 5 [] invalid

/-- The final call of an operation is then not made with the object it was started on. -/
theorem reused_handle_changes_object :
    ¬∀ (os : Windows.Cng) (run earlier later : List (ManagerStep Windows.backend)) (kind : Kind)
      (session : CkSessionHandle) (opening : ManagerStep Windows.backend)
      (handle : CkObjectHandle) (params : kind.Params) (buffer : Bytes)
      (object : kind.Usable Windows.backend),
      OpenedIn kind session (Manager.new os : Manager Windows.backend) run earlier opening later
        handle params buffer →
      usable kind ((after Manager.step earlier
        (Manager.new os : Manager Windows.backend)).registry handle) = some object →
      ((after Manager.step run (Manager.new os : Manager Windows.backend)).finish kind
        session).1 = .ok ⟨object, params, buffer⟩ := by
  intro claim
  obtain ⟨run, earlier, opening, later, object, opened, suitable, refused⟩ :=
    @Windows.crowd_changes_object 4294967295 (by decide)
  have finished := claim _ run earlier later .sign 5 opening 1 none [] object opened suitable
  rw [refused] at finished
  cases finished

end OsClientCerts
