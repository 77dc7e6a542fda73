import OsClientCerts.ObjectScans
import OsClientCerts.WindowsBackend

/-!
What the registry guarantees to those who keep handles, whatever the scans return:
each kind and id once, represented by what was seen first, under a handle that is
never given to anything else.
-/

namespace OsClientCerts
open LocalAutomata FirstSeen

/-- The invariant, after the given scans. -/
structure RegistryInvariant {B : Backend} (manager : Manager B) (scans : List B.Os) : Prop where
  unique : ∀ (handle other : CkObjectHandle) (object same : B.Object),
    manager.objects[handle]? = some object → manager.objects[other]? = some same →
    B.ident object = B.ident same → handle = other
  represented : ∀ os ∈ scans, ∀ object ∈ B.listObjects os,
    ∃ (handle : CkObjectHandle) (first : B.Object), manager.objects[handle]? = some first ∧
      B.ident first = B.ident object ∧
      (scans.flatMap B.listObjects).find? (fun other => B.ident other = B.ident object) = some first
  assigned : ∀ (handle : CkObjectHandle) (object : B.Object),
    manager.objects[handle]? = some object → handle ≠ 0 ∧ handle < manager.nextHandle
  ids : ∀ kind id, id ∈ manager.ids kind ↔
    ∃ (handle : CkObjectHandle) (object : B.Object),
      manager.objects[handle]? = some object ∧ B.ident object = (kind, id)
  paired : (∀ os ∈ scans, ∀ key, .key key ∈ B.listObjects os →
      ∃ cert, .cert cert ∈ B.listObjects os ∧ B.certId cert = B.keyId key) →
    ∀ (handle : CkObjectHandle) (key : B.Key), manager.objects[handle]? = some (.key key) →
      ∃ (other : CkObjectHandle) (cert : B.Cert),
        manager.objects[other]? = some (.cert cert) ∧ B.certId cert = B.keyId key

/-- The invariant in every state of a run, and what becomes of a handle in between. -/
structure RegistryLaws {B : Backend} (os : B.Os) (run : List (ManagerStep B)) : Prop where
  invariant : ∀ earlier later, run = earlier ++ later →
    RegistryInvariant (after Manager.step earlier (Manager.new os)) (Manager.allScans os earlier)
  kept : ∀ earlier middle later, run = earlier ++ middle ++ later →
    ∀ (handle : CkObjectHandle) (object : B.Object),
      (after Manager.step earlier (Manager.new os)).objects[handle]? = some object →
      (after Manager.step (earlier ++ middle) (Manager.new os)).objects[handle]? = some object
  fresh : ∀ earlier middle later, run = earlier ++ middle ++ later →
    ∀ (handle : CkObjectHandle) (object : B.Object),
      (after Manager.step earlier (Manager.new os)).objects[handle]? = none →
      (after Manager.step (earlier ++ middle) (Manager.new os)).objects[handle]? = some object →
      (after Manager.step earlier (Manager.new os)).nextHandle ≤ handle

namespace Manager
variable {B : Backend}

theorem Registers.unique {manager : Manager B} {seen : List B.Object}
    (registers : manager.Registers seen) {handle other : CkObjectHandle} {object same : B.Object}
    (found : manager.objects[handle]? = some object)
    (foundToo : manager.objects[other]? = some same)
    (ident : B.ident object = B.ident same) : handle = other := by
  obtain ⟨index, rfl, held⟩ := (registers.objects _ _).mp found
  obtain ⟨place, rfl, heldToo⟩ := (registers.objects _ _).mp foundToo
  have keys : ((firsts B.ident seen).map B.ident)[index]? =
      ((firsts B.ident seen).map B.ident)[place]? := by
    rw [List.getElem?_map, List.getElem?_map, held, heldToo, Option.map_some, Option.map_some,
      ident]
  have inside : index < ((firsts B.ident seen).map B.ident).length := by
    rw [List.length_map]
    exact (List.getElem?_eq_some_iff.mp held).1
  rw [(List.getElem?_inj inside (firsts_keys_nodup seen)).mp keys]

theorem Registers.holds {manager : Manager B} {seen : List B.Object}
    (registers : manager.Registers seen) {object : B.Object}
    (kept : object ∈ firsts B.ident seen) :
    ∃ handle : CkObjectHandle, manager.objects[handle]? = some object := by
  obtain ⟨index, held⟩ := List.mem_iff_getElem?.mp kept
  exact ⟨index + 1, (registers.objects _ _).mpr ⟨index, rfl, held⟩⟩

theorem Registers.origin {manager : Manager B} {seen : List B.Object}
    (registers : manager.Registers seen) {handle : CkObjectHandle} {object : B.Object}
    (found : manager.objects[handle]? = some object) : object ∈ firsts B.ident seen := by
  obtain ⟨index, _, held⟩ := (registers.objects _ _).mp found
  exact List.mem_of_getElem? held

theorem Registers.invariant {manager : Manager B} {scans : List B.Os}
    (registers : manager.Registers (scans.flatMap B.listObjects)) :
    RegistryInvariant manager scans where
  unique _ _ _ _ found foundToo ident := registers.unique found foundToo ident
  represented os member object listed := by
    obtain ⟨first, kept, ident, isFirst⟩ :=
      FirstSeen.represented B.ident (List.mem_flatMap.mpr ⟨os, member, listed⟩)
    obtain ⟨handle, found⟩ := registers.holds kept
    exact ⟨handle, first, found, ident, isFirst⟩
  assigned handle object found := by
    obtain ⟨index, rfl, held⟩ := (registers.objects _ _).mp found
    have inside := (List.getElem?_eq_some_iff.mp held).1
    rw [registers.next]
    exact ⟨Nat.succ_ne_zero index, Nat.succ_lt_succ inside⟩
  ids kind id := by
    rw [registers.ids, ← firsts_keys]
    constructor
    · intro known
      obtain ⟨object, kept, ident⟩ := List.mem_map.mp known
      obtain ⟨handle, found⟩ := registers.holds kept
      exact ⟨handle, object, found, ident⟩
    · rintro ⟨handle, object, found, ident⟩
      exact List.mem_map.mpr ⟨object, registers.origin found, ident⟩
  paired accompanied handle key found := by
    obtain ⟨os, member, listed⟩ :=
      List.mem_flatMap.mp (firsts_subset _ _ (registers.origin found))
    obtain ⟨cert, listedToo, sameId⟩ := accompanied os member key listed
    -- The certificate of that scan may be represented by an earlier one.
    obtain ⟨first, kept, ident, _⟩ :=
      FirstSeen.represented B.ident (List.mem_flatMap.mpr ⟨os, member, listedToo⟩)
    obtain ⟨other, foundToo⟩ := registers.holds kept
    cases first with
    | cert first =>
        have same : B.certId first = B.certId cert := (Prod.mk.inj ident).2
        exact ⟨other, first, foundToo, same.trans sameId⟩
    | key first => cases (Prod.mk.inj ident).1
    | trust first => cases (Prod.mk.inj ident).1

/-- As long as the handles have not run out, the registry keeps its laws, whatever
the scans return and whatever is requested in between. -/
theorem registry_laws (os : B.Os) (run : List (ManagerStep B))
    (unwrapped : (after step run (new os : Manager B)).Unwrapped) : RegistryLaws os run := by
  have below (earlier later : List (ManagerStep B)) (split : run = earlier ++ later) :
      (after step earlier (new os : Manager B)).Unwrapped := by
    rw [split, after_append] at unwrapped
    exact (run_grows later _).unwrapped unwrapped
  have registers (earlier later : List (ManagerStep B)) (split : run = earlier ++ later) :=
    reached_registers os earlier (below earlier later split)
  refine ⟨?_, ?_, ?_⟩
  · intro earlier later split
    exact (registers earlier later split).invariant
  · intro earlier middle later split handle object found
    exact handle_kept os earlier middle (below _ later split).few found
  · intro earlier middle later split handle object absent found
    have before := registers earlier (middle ++ later) (by rw [split, List.append_assoc])
    obtain ⟨index, rfl, held⟩ := ((registers _ later split).objects _ _).mp found
    rw [before.next]
    -- An index below the old length would have held an object already.
    apply Nat.succ_le_succ
    apply Nat.le_of_not_lt
    intro inside
    have already := (before.objects (index + 1) _).mpr
      ⟨index, rfl, List.getElem?_eq_getElem inside⟩
    rw [absent] at already
    cases already

end Manager

/-- A scan that returns a certificate twice, and a later one that returns it with its key. -/
theorem registry_laws_of_two_scans :
    let cert : Windows.Cert := ⟨[1, 0, 0, 0], [1], [7], [], [], [], [], []⟩
    RegistryLaws (B := Windows.backend) (.holding 0 [.cert cert, .cert cert])
      [(.holding 5000 [.cert cert, .key (.forCert 3 [7] .ec)], .openSession 4)] := by
  intro cert
  apply Manager.registry_laws
  unfold Manager.Unwrapped
  decide

end OsClientCerts
