import OsClientCerts.WindowsHandles

/-!
What a scan of the Windows stores acquires and releases. The stores are closed when
`list_objects` returns; of the certificate contexts only those stay that the listed
keys have duplicated.
-/

namespace OsClientCerts.Windows
open OwnedResources BoundedWalk

structure Addresses where
  personal : StoreHandle
  system : SystemStore → StoreHandle
  collection : StoreHandle
  /-- The context made from the DER encoding of a leaf. -/
  leaf : Bytes → CertContext
  issuer : CertContext → CertContext
  existing : CertContext → CertContext

section
variable (os : Stores) (places : Addresses)

def existsRecorded (context : CertContext) (der : Bytes) : Recorded Resource Bool := do
  borrowing (.store (places.system .root))
  borrowing (.certificate context)
  if certExistsInRoot os der then
    acquiring (.certificate (places.existing context))
    releasing (.certificate (places.existing context))
    pure true
  else pure false

/-- The label is read of every issuer, the rest only when it is first come to. -/
def visitRecorded (state : ChainWalk) (context : CertContext) (der : Bytes) :
    Recorded Resource ChainWalk := do
  borrowing (.certificate context)
  if os.sha256 der ∈ state.processed then pure state
  else
    let inRoot ← existsRecorded os places context der
    if inRoot then borrowing (.certificate context)
    pure (visitIssuer os state der)

/-- The walk owns the context it is at; `current = issuer` drops the one before. -/
def walkRecorded : Nat → CertContext → Bytes → ChainWalk → Recorded Resource ChainWalk
  | 0, context, _, state => do
      releasing (.certificate context)
      pure state
  | depth + 1, context, der, state => do
      borrowing (.store places.collection)
      borrowing (.certificate context)
      match getIssuer os der with
      | none =>
          releasing (.certificate context)
          pure state
      | some issuerDer =>
          let issuer := places.issuer context
          acquiring (.certificate issuer)
          let visited ← visitRecorded os places state issuer issuerDer
          borrowing (.certificate issuer)
          releasing (.certificate context)
          if certIsSelfSigned os issuerDer then
            releasing (.certificate issuer)
            pure visited
          else walkRecorded depth issuer issuerDer visited

def leafRecorded (state : ChainWalk) (leafDer : Bytes) : Recorded Resource ChainWalk :=
  if os.certCreateCertificateContext leafDer then do
    let context := places.leaf leafDer
    acquiring (.certificate context)
    borrowing (.certificate context)
    walkRecorded os places maxChainDepth context leafDer state
  else pure state

def withSystemStore (which : SystemStore) (body : Recorded Resource (List WindowsObject)) :
    Recorded Resource (List WindowsObject) :=
  if os.opens which then do
    acquiring (.store (places.system which))
    owning (.store (places.system which)) body
  else pure []

def withCollection (body : Recorded Resource (List WindowsObject)) :
    Recorded Resource (List WindowsObject) :=
  if os.collectionOpens then do
    acquiring (.store places.collection)
    owning (.store places.collection) body
  else pure []

def addToCollection (which : SystemStore) : Recorded Resource Unit := do
  borrowing (.store places.collection)
  borrowing (.store (places.system which))

def listRootTrustRecorded (leafCertValues : List Bytes) : Recorded Resource (List WindowsObject) :=
  withSystemStore os places .my <| withSystemStore os places .ca <|
    withSystemStore os places .root <| withCollection os places do
      addToCollection places .my
      addToCollection places .ca
      addToCollection places .root
      let walked ← leafCertValues.foldlM (leafRecorded os places) ⟨∅, []⟩
      pure walked.newObjects

def keyRecorded (context : CertContext) (der : Bytes) : Recorded Resource (Except Unit Key) :=
  ⟨.use (.certificate context) ::
    (Key.new os context der).toOption.toList.map fun _ => .acquire (.certificate context),
    Key.new os context der⟩

/-- What `CertFindCertificateInStore` does with the context it is given. -/
def freePrevious : Option CertContext → Recorded Resource Unit
  | none => pure ()
  | some context => releasing (.certificate context)

def findRecorded : Option CertContext → List (CertContext × Bytes) →
    Recorded Resource (List WindowsObject)
  | previous, [] => do
      borrowing (.store places.personal)
      freePrevious previous
      pure []
  | previous, (context, der) :: rest => do
      borrowing (.store places.personal)
      freePrevious previous
      acquiring (.certificate context)
      borrowing (.certificate context)
      match Cert.new os der with
      | .error () => findRecorded (some context) rest
      | .ok cert =>
          match ← keyRecorded os context der with
          | .error () => findRecorded (some context) rest
          | .ok key =>
              let objects ← findRecorded (some context) rest
              pure (.cert cert :: .key key :: objects)

def listRecorded : Recorded Resource (List WindowsObject) :=
  match os.personal with
  | none => pure []
  | some found => do
      acquiring (.store places.personal)
      owning (.store places.personal) do
        let objects ← findRecorded os places none found
        let trusted ← listRootTrustRecorded os places (leafCertValues objects)
        pure (objects ++ trusted)

end

/-! The records belong to the functions of the scan. -/

section
variable {os : Stores} {places : Addresses}

theorem visit_result (state : ChainWalk) (context : CertContext) (der : Bytes) :
    (visitRecorded os places state context der).result = visitIssuer os state der := by
  unfold visitRecorded
  by_cases seen : os.sha256 der ∈ state.processed
  · simp [seen, visitIssuer]
  · simp only [result_bind, seen, if_false]
    split <;> rfl

theorem walk_result (depth : Nat) (context : CertContext) (der : Bytes) (state : ChainWalk) :
    (walkRecorded os places depth context der state).result = walkChain os depth der state := by
  induction depth generalizing context der state with
  | zero => rfl
  | succ depth ih =>
      unfold walkRecorded walkChain walkWith
      simp only [result_bind]
      cases getIssuer os der with
      | none => rfl
      | some issuerDer =>
          simp only [result_bind, visit_result]
          cases certIsSelfSigned os issuerDer with
          | true => rfl
          | false => exact ih _ _ _

theorem leaf_result (state : ChainWalk) (leafDer : Bytes) :
    (leafRecorded os places state leafDer).result =
      if os.certCreateCertificateContext leafDer then walkChain os maxChainDepth leafDer state
      else state := by
  unfold leafRecorded
  split
  · exact walk_result _ _ _ _
  · rfl

theorem root_trust_result (leafCertValues : List Bytes) :
    (listRootTrustRecorded os places leafCertValues).result =
      listRootTrustObjects os leafCertValues := by
  unfold listRootTrustRecorded listRootTrustObjects withSystemStore withCollection
  cases os.opens .my <;> cases os.opens .ca <;> cases os.opens .root <;> cases os.collectionOpens <;>
    simp [leaf_result]

theorem find_result (previous : Option CertContext) (found : List (CertContext × Bytes)) :
    (findRecorded os places previous found).result = personalObjects os found := by
  induction found generalizing previous with
  | nil => rfl
  | cons entry rest ih =>
      obtain ⟨context, der⟩ := entry
      unfold findRecorded
      simp only [result_bind, personalObjects, List.flatMap_cons]
      cases Cert.new os der with
      | error _ => exact ih _
      | ok cert =>
          simp only [result_bind, keyRecorded]
          cases Key.new os context der with
          | error _ => exact ih _
          | ok key => exact congrArg (_ :: _ :: ·) (ih _)

theorem list_result : (listRecorded os places).result = listObjects os := by
  unfold listRecorded listObjects
  cases os.personal with
  | none => rfl
  | some found => simp [find_result, root_trust_result]

end

section
variable {os : Stores} {places : Addresses} {before : Multiset Resource}

/-- The context a key has duplicated; nothing else of a listed object is Windows'. -/
def contextOf : WindowsObject → Multiset Resource
  | .cert _ => 0
  | .key key => {.certificate key.cert}
  | .trust _ => 0

def ownedBy (objects : List WindowsObject) : Multiset Resource := (objects.map contextOf).sum

@[simp] theorem owned_by_nil : ownedBy [] = 0 := rfl

@[simp] theorem owned_by_cons (object : WindowsObject) (rest : List WindowsObject) :
    ownedBy (object :: rest) = contextOf object + ownedBy rest := by
  simp [ownedBy]

@[simp] theorem owned_by_append (objects rest : List WindowsObject) :
    ownedBy (objects ++ rest) = ownedBy objects + ownedBy rest := by
  simp [ownedBy]

theorem owned_by_exposed (issuer : Bytes) : ownedBy (exposed os issuer) = 0 := by
  unfold exposed
  cases Cert.new os issuer <;> cases Trust.new os issuer <;>
    cases certExistsInRoot os issuer <;> cases ekuPermitsEmailProtection os issuer <;>
    simp [contextOf, Except.toOption]

theorem owned_by_walked (leafCertValues : List Bytes) :
    ownedBy (listRootTrustObjects os leafCertValues) = 0 := by
  have visit (state : ChainWalk) (issuer : Bytes) (none : ownedBy state.newObjects = 0) :
      ownedBy (visitIssuer os state issuer).newObjects = 0 := by
    unfold visitIssuer
    dsimp only
    split
    · exact none
    · rw [owned_by_append, none, owned_by_exposed, add_zero]
  have chain (depth : Nat) (start : Bytes) (state : ChainWalk) (none : ownedBy state.newObjects = 0) :
      ownedBy (walkChain os depth start state).newObjects = 0 := by
    rw [walkChain, walk_with_eq]
    exact List.foldlRecOn (motive := fun state => ownedBy state.newObjects = 0) _ _ none
      fun state none issuer _ => visit state issuer none
  unfold listRootTrustObjects
  iterate 4
    split
    · rfl
  refine List.foldlRecOn (motive := fun state : ChainWalk => ownedBy state.newObjects = 0) _ _ rfl
    fun state none leafDer _ => ?_
  split
  · exact chain _ _ _ none
  · exact none

theorem exists_leaves {context : CertContext} {der : Bytes}
    (root : .store (places.system .root) ∈ before) (live : .certificate context ∈ before) :
    Leaves before (existsRecorded os places context der) fun _ => before := by
  refine (Leaves.borrowing root).bind ((Leaves.borrowing live).bind ?_)
  split
  · exact Leaves.acquiring.bind (Leaves.releasing.bind (Leaves.pure rfl))
  · exact Leaves.pure rfl

theorem visit_leaves {state : ChainWalk} {context : CertContext} {der : Bytes}
    (root : .store (places.system .root) ∈ before) (live : .certificate context ∈ before) :
    Leaves before (visitRecorded os places state context der) fun _ => before := by
  refine (Leaves.borrowing live).bind ?_
  split
  · exact Leaves.pure rfl
  · refine (exists_leaves root live).bind ?_
    split
    · exact (Leaves.borrowing live).bind (Leaves.pure rfl)
    · exact Leaves.pure rfl

theorem walk_leaves (collection : .store places.collection ∈ before)
    (root : .store (places.system .root) ∈ before) (depth : Nat) (context : CertContext)
    (der : Bytes) (state : ChainWalk) :
    Leaves (.certificate context ::ₘ before) (walkRecorded os places depth context der state)
      fun _ => before := by
  induction depth generalizing context der state with
  | zero => exact Leaves.releasing.bind (Leaves.pure rfl)
  | succ depth ih =>
      unfold walkRecorded
      refine (Leaves.borrowing (Multiset.mem_cons_of_mem collection)).bind ?_
      refine (Leaves.borrowing (Multiset.mem_cons_self _ _)).bind ?_
      cases getIssuer os der with
      | none => exact Leaves.releasing.bind (Leaves.pure rfl)
      | some issuerDer =>
          refine Leaves.acquiring.bind ?_
          refine (visit_leaves (Multiset.mem_cons_of_mem (Multiset.mem_cons_of_mem root))
            (Multiset.mem_cons_self _ _)).bind ?_
          refine (Leaves.borrowing (Multiset.mem_cons_self _ _)).bind ?_
          -- The issuer is kept and the certificate it was found for is dropped.
          rw [Multiset.cons_swap]
          refine Leaves.releasing.bind ?_
          split
          · exact Leaves.releasing.bind (Leaves.pure rfl)
          · exact ih _ _ _

theorem leaf_leaves (collection : .store places.collection ∈ before)
    (root : .store (places.system .root) ∈ before) (state : ChainWalk) (leafDer : Bytes) :
    Leaves before (leafRecorded os places state leafDer) fun _ => before := by
  unfold leafRecorded
  split
  · refine Leaves.acquiring.bind ((Leaves.borrowing (Multiset.mem_cons_self _ _)).bind ?_)
    exact walk_leaves collection root _ _ _ _
  · exact Leaves.pure rfl

theorem with_system_store_leaves {which : SystemStore} {body : Recorded Resource (List WindowsObject)}
    (inner : Leaves (.store (places.system which) ::ₘ before) body
      fun _ => .store (places.system which) ::ₘ before) :
    Leaves before (withSystemStore os places which body) fun _ => before := by
  unfold withSystemStore
  split
  · exact Leaves.acquiring.bind inner.owning
  · exact Leaves.pure rfl

theorem with_collection_leaves {body : Recorded Resource (List WindowsObject)}
    (inner : Leaves (.store places.collection ::ₘ before) body
      fun _ => .store places.collection ::ₘ before) :
    Leaves before (withCollection os places body) fun _ => before := by
  unfold withCollection
  split
  · exact Leaves.acquiring.bind inner.owning
  · exact Leaves.pure rfl

theorem root_trust_leaves (leafCertValues : List Bytes) :
    Leaves before (listRootTrustRecorded os places leafCertValues) fun _ => before := by
  refine with_system_store_leaves (with_system_store_leaves (with_system_store_leaves
    (with_collection_leaves ?_)))
  have add (which : SystemStore) {live : Multiset Resource}
      (collection : .store places.collection ∈ live)
      (open_ : .store (places.system which) ∈ live) :
      Leaves live (addToCollection places which) fun _ => live := by
    unfold addToCollection
    exact (Leaves.borrowing collection).bind (Leaves.borrowing open_)
  refine (add .my (by simp) (by simp)).bind ?_
  refine (add .ca (by simp) (by simp)).bind ?_
  refine (add .root (by simp) (by simp)).bind ?_
  exact (Leaves.fold (fun state leafDer _ => leaf_leaves (by simp) (by simp) state leafDer) _).bind
    (Leaves.pure rfl)

def heldPrevious : Option CertContext → Multiset Resource
  | none => 0
  | some context => {.certificate context}

theorem key_context {context : CertContext} {der : Bytes} {key : Key}
    (made : Key.new os context der = .ok key) : key.cert = context := by
  obtain ⟨label, _, made⟩ := bind_ok made
  obtain ⟨⟨keyTypeEnum, keyTypeAttribute, modulus, ecParams⟩, _, made⟩ := bind_ok made
  obtain ⟨classAttr, _, made⟩ := bind_ok made
  obtain ⟨keyType, _, made⟩ := bind_ok made
  cases made
  rfl

theorem free_previous_leaves (previous : Option CertContext) :
    Leaves (heldPrevious previous + before) (freePrevious previous) fun _ => before := by
  cases previous with
  | none => exact Leaves.pure (zero_add before).symm
  | some context =>
      rw [heldPrevious, Multiset.singleton_add]
      exact Leaves.releasing

def duplicatedBy (context : CertContext) (before : Multiset Resource) :
    Except Unit Key → Multiset Resource
  | .ok _ => .certificate context ::ₘ before
  | .error () => before

theorem find_leaves (store : .store places.personal ∈ before) (previous : Option CertContext)
    (found : List (CertContext × Bytes)) :
    Leaves (heldPrevious previous + before) (findRecorded os places previous found)
      fun objects => before + ownedBy objects := by
  -- Every context that is found is freed by the search for the next; its duplicates stay.
  induction found generalizing previous before with
  | nil =>
      unfold findRecorded
      refine (Leaves.borrowing (Multiset.mem_add.mpr (Or.inr store))).bind ?_
      exact (free_previous_leaves _).bind (Leaves.pure (add_zero _))
  | cons entry rest ih =>
      obtain ⟨context, der⟩ := entry
      have onward {live : Multiset Resource} (store : .store places.personal ∈ live) :
          Leaves (.certificate context ::ₘ live) (findRecorded os places (some context) rest)
            fun objects => live + ownedBy objects := by
        have next := ih store (some context)
        rwa [heldPrevious, Multiset.singleton_add] at next
      unfold findRecorded
      refine (Leaves.borrowing (Multiset.mem_add.mpr (Or.inr store))).bind ?_
      refine (free_previous_leaves _).bind (Leaves.acquiring.bind ?_)
      refine (Leaves.borrowing (Multiset.mem_cons_self _ _)).bind ?_
      cases Cert.new os der with
      | error _ => exact onward store
      | ok cert =>
          dsimp only
          have duplicated : Leaves (.certificate context ::ₘ before)
              (keyRecorded os context der)
              (duplicatedBy context (.certificate context ::ₘ before)) := by
            refine Disciplined.use_first (Multiset.mem_cons_self _ _) ?_
            dsimp only [keyRecorded]
            cases Key.new os context der with
            | error _ => exact Disciplined.nil
            | ok key => exact Disciplined.acquire _
          refine duplicated.bind ?_
          dsimp only [keyRecorded]
          cases made : Key.new os context der with
          | error _ => exact onward store
          | ok key =>
              refine (onward (Multiset.mem_cons_of_mem store)).bind (Leaves.pure ?_)
              simp [contextOf, key_context made]

/-- A scan closes every store it opened, and of the contexts only those of the keys it lists
are still live. -/
theorem list_leaves : Leaves before (listRecorded os places)
    fun objects => before + ownedBy objects := by
  unfold listRecorded
  cases os.personal with
  | none => exact Leaves.pure (add_zero before)
  | some found =>
      refine Leaves.acquiring.bind (Leaves.owning ?_)
      have search : Leaves (heldPrevious none + .store places.personal ::ₘ before)
          (findRecorded os places none found)
          fun objects => .store places.personal ::ₘ before + ownedBy objects :=
        find_leaves (Multiset.mem_cons_self _ _) none found
      rw [heldPrevious, zero_add] at search
      refine search.bind ((root_trust_leaves _).bind (Leaves.pure ?_))
      simp [find_result, root_trust_result, owned_by_walked]

/-- A scan uses and releases only what is live, whatever Windows answers and wherever it breaks
off, and nothing is left of it but what its objects own. -/
theorem scan_returns_handles (os : Stores) (places : Addresses) (before : Multiset Resource) :
    (listRecorded os places).result = listObjects os ∧
      Disciplined before (listRecorded os places).events (before + ownedBy (listObjects os)) := by
  refine ⟨list_result, ?_⟩
  have result : (listRecorded os places).result = listObjects os := list_result
  rw [← result]
  exact list_leaves

end
end OsClientCerts.Windows
