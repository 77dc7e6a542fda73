import OsClientCerts.FirstSeen
import OsClientCerts.OperationAutomata

/-!
Scans and what they leave in the registry. The registry is the list of the objects
that were the first of their kind and id in some scan, in the order of the scans;
the handle of the n-th is n.
-/

namespace OsClientCerts
open LocalAutomata FirstSeen

inductive ObjectKind where
  | cert
  | key
  | trust
  deriving DecidableEq, Repr

def Backend.ident (B : Backend) : B.Object → ObjectKind × Bytes
  | .cert cert => (.cert, B.certId cert)
  | .key key => (.key, B.keyId key)
  | .trust trust => (.trust, B.trustId trust)

namespace Manager
variable {B : Backend}

def ids (manager : Manager B) : ObjectKind → Finset Bytes
  | .cert => manager.certIds
  | .key => manager.keyIds
  | .trust => manager.trustIds

def withId (manager : Manager B) (id : Bytes) : ObjectKind → Manager B
  | .cert => { manager with certIds := insert id manager.certIds }
  | .key => { manager with keyIds := insert id manager.keyIds }
  | .trust => { manager with trustIds := insert id manager.trustIds }

theorem register_by_ident (manager : Manager B) (object : B.Object) :
    manager.registerObject object =
      if (B.ident object).2 ∈ manager.ids (B.ident object).1 then manager
      else (manager.withId (B.ident object).2 (B.ident object).1).insertObject object := by
  -- The three arms of the registration loop differ only in the set they use.
  cases object <;> rfl

theorem ids_with_id (manager : Manager B) (id : Bytes) (kind other : ObjectKind) :
    (manager.withId id kind).ids other =
      if other = kind then insert id (manager.ids other) else manager.ids other := by
  cases kind <;> cases other <;> rfl

theorem registered_with_id {manager : Manager B} {id : Bytes} {kind : ObjectKind}
    (fresh : id ∉ manager.ids kind) :
    (manager.withId id kind).registered = manager.registered + 1 := by
  have grown : (insert id (manager.ids kind)).card = (manager.ids kind).card + 1 :=
    Finset.card_insert_of_notMem fresh
  cases kind <;> simp only [registered, withId, ids] at grown ⊢ <;> omega

section
variable (manager : Manager B) (id : Bytes) (kind : ObjectKind) (object : B.Object)

theorem inserted_objects : ((manager.withId id kind).insertObject object).objects =
    manager.objects.insert manager.nextHandle object := by
  cases kind <;> rfl

theorem inserted_next : ((manager.withId id kind).insertObject object).nextHandle =
    succUlong B.target manager.nextHandle := by
  cases kind <;> rfl

theorem inserted_ids (other : ObjectKind) : ((manager.withId id kind).insertObject object).ids
    other = (manager.withId id kind).ids other := by
  cases other <;> rfl

end

theorem register_unknown {manager : Manager B} {object : B.Object}
    (unknown : (B.ident object).2 ∉ manager.ids (B.ident object).1) :
    (manager.registerObject object).objects[manager.nextHandle]? = some object := by
  -- An object whose id is not known gets the next handle.
  rw [register_by_ident, if_neg unknown, inserted_objects, Std.TreeMap.getElem?_insert_self]

theorem register_ids (manager : Manager B) (object : B.Object) (kind : ObjectKind) (id : Bytes) :
    id ∈ (manager.registerObject object).ids kind ↔
      id ∈ manager.ids kind ∨ (kind, id) = B.ident object := by
  rw [register_by_ident, Prod.ext_iff]
  by_cases known : (B.ident object).2 ∈ manager.ids (B.ident object).1
  · rw [if_pos known]
    constructor
    · exact Or.inl
    · rintro (old | ⟨rfl, rfl⟩)
      · exact old
      · exact known
  · rw [if_neg known, inserted_ids, ids_with_id]
    by_cases same : kind = (B.ident object).1
    · simp [same, or_comm]
    · simp [same]

theorem register_all_ids (objects : List B.Object) (manager : Manager B) (kind : ObjectKind)
    (id : Bytes) : id ∈ (objects.foldl registerObject manager).ids kind ↔
      id ∈ manager.ids kind ∨ (kind, id) ∈ objects.map B.ident := by
  induction objects generalizing manager with
  | nil => simp
  | cons object rest ih =>
      rw [List.foldl_cons, ih, register_ids, List.map_cons, List.mem_cons, or_assoc]

theorem register_objects {manager : Manager B} {object held : B.Object} {handle : CkObjectHandle}
    (found : (manager.registerObject object).objects[handle]? = some held) :
    manager.objects[handle]? = some held ∨ held = object := by
  rw [register_by_ident] at found
  split at found
  · exact Or.inl found
  · rw [inserted_objects, Std.TreeMap.getElem?_insert] at found
    split at found
    · exact Or.inr (Option.some.inj found).symm
    · exact Or.inl found

theorem register_all_objects {objects : List B.Object} {held : B.Object}
    {handle : CkObjectHandle} (manager : Manager B)
    (found : (objects.foldl registerObject manager).objects[handle]? = some held) :
    manager.objects[handle]? = some held ∨ held ∈ objects := by
  induction objects generalizing manager with
  | nil => exact Or.inl found
  | cons object rest ih =>
      rcases ih (manager.registerObject object) found with old | new
      · rcases register_objects old with older | rfl
        · exact Or.inl older
        · exact Or.inr List.mem_cons_self
      · exact Or.inr (List.mem_cons_of_mem object new)

theorem register_time (manager : Manager B) (object : B.Object) :
    (manager.registerObject object).lastScanTime = manager.lastScanTime := by
  rw [register_by_ident]
  split
  · rfl
  · cases (B.ident object).1 <;> rfl

theorem register_all_time (objects : List B.Object) (manager : Manager B) :
    (objects.foldl registerObject manager).lastScanTime = manager.lastScanTime := by
  induction objects generalizing manager with
  | nil => rfl
  | cons object rest ih => rw [List.foldl_cons, ih, register_time]

def scanned (manager : Manager B) (os : B.Os) : Manager B :=
  (B.listObjects os).foldl registerObject { manager with lastScanTime := some (B.now os) }

theorem find_new_objects (manager : Manager B) (os : B.Os) (minInterval : Nat) :
    manager.maybeFindNewObjects os minInterval =
      if manager.scanDue os minInterval then manager.scanned os else manager := rfl

def scanBy (served : ManagerStep B) (manager : Manager B) : Option B.Os :=
  match served.2 with
  | .openSession _ => if manager.scanDue served.1 3000 then some served.1 else none
  | .startSearch session attrs =>
      if manager.searches.contains session then none
      else if attrs.any (fun attr => attr.1 ∉ B.supportedAttributes) then none
      else if (matchingHandles manager.objects attrs).isEmpty then
        if manager.scanDue served.1 250 then some served.1 else none
      else none
  | _ => none

def scans : List (ManagerStep B) → Manager B → List B.Os
  | [], _ => []
  | served :: rest, manager => (scanBy served manager).toList ++ scans rest (step served manager)

theorem scans_append (earlier later : List (ManagerStep B)) (manager : Manager B) :
    scans (earlier ++ later) manager =
      scans earlier manager ++ scans later (after step earlier manager) := by
  induction earlier generalizing manager with
  | nil => rfl
  | cons served rest ih => simp [scans, ih]

structure SameObjects (before after : Manager B) : Prop where
  objects : after.objects = before.objects
  nextHandle : after.nextHandle = before.nextHandle
  certIds : after.certIds = before.certIds
  keyIds : after.keyIds = before.keyIds
  trustIds : after.trustIds = before.trustIds

structure SameScans (before after : Manager B) : Prop extends SameObjects before after where
  lastScanTime : after.lastScanTime = before.lastScanTime

theorem SameScans.elsewhere {manager : Manager B}
    {sessions : Std.TreeMap CkSessionHandle CkUlong}
    {searches : Std.TreeMap CkSessionHandle (List CkObjectHandle)}
    {signs : Std.TreeMap CkSessionHandle (Operation .sign)}
    {decrypts : Std.TreeMap CkSessionHandle (Operation .decrypt)}
    {encrypts : Std.TreeMap CkSessionHandle (Operation .encrypt)} {nextSession : CkSessionHandle} :
    SameScans manager { manager with
      sessions, searches, signs, decrypts, encrypts, nextSession } where
  objects := rfl
  nextHandle := rfl
  certIds := rfl
  keyIds := rfl
  trustIds := rfl
  lastScanTime := rfl

theorem SameObjects.ids {before after : Manager B} (same : SameObjects before after)
    (kind : ObjectKind) : after.ids kind = before.ids kind := by
  cases kind with
  | cert => exact same.certIds
  | key => exact same.keyIds
  | trust => exact same.trustIds

theorem SameObjects.registered {before after : Manager B} (same : SameObjects before after) :
    after.registered = before.registered := by
  simp only [Manager.registered, same.certIds, same.keyIds, same.trustIds]

theorem SameObjects.with_id {before after : Manager B} (same : SameObjects before after)
    (id : Bytes) (kind : ObjectKind) :
    SameObjects (before.withId id kind) (after.withId id kind) := by
  obtain ⟨objects, nextHandle, certIds, keyIds, trustIds⟩ := same
  cases kind with
  | cert => exact ⟨objects, nextHandle, congrArg (insert id) certIds, keyIds, trustIds⟩
  | key => exact ⟨objects, nextHandle, certIds, congrArg (insert id) keyIds, trustIds⟩
  | trust => exact ⟨objects, nextHandle, certIds, keyIds, congrArg (insert id) trustIds⟩

theorem SameObjects.insert_object {before after : Manager B} (same : SameObjects before after)
    (object : B.Object) :
    SameObjects (before.insertObject object) (after.insertObject object) where
  objects := by
    change after.objects.insert after.nextHandle object = _
    rw [same.objects, same.nextHandle]
    rfl
  nextHandle := congrArg (succUlong B.target) same.nextHandle
  certIds := same.certIds
  keyIds := same.keyIds
  trustIds := same.trustIds

theorem SameObjects.register {before after : Manager B} (same : SameObjects before after)
    (object : B.Object) :
    SameObjects (before.registerObject object) (after.registerObject object) := by
  rw [register_by_ident, register_by_ident, same.ids]
  split
  · exact same
  · exact (same.with_id _ _).insert_object object

theorem SameObjects.register_all {before after : Manager B} (same : SameObjects before after)
    (objects : List B.Object) :
    SameObjects (objects.foldl registerObject before) (objects.foldl registerObject after) := by
  induction objects generalizing before after with
  | nil => exact same
  | cons object rest ih => exact ih (same.register object)

theorem SameObjects.trans {first second third : Manager B} (early : SameObjects first second)
    (late : SameObjects second third) : SameObjects first third where
  objects := late.objects.trans early.objects
  nextHandle := late.nextHandle.trans early.nextHandle
  certIds := late.certIds.trans early.certIds
  keyIds := late.keyIds.trans early.keyIds
  trustIds := late.trustIds.trans early.trustIds

theorem operate_same_scans (manager : Manager B) (kind : Kind) (session : CkSessionHandle)
    (request : OperationRequest kind) :
    SameScans manager (manager.operate kind session request).2 := by
  rcases operate_frame manager kind session request with same | ⟨entries, changed, _⟩
  · rw [same]
    exact SameScans.elsewhere
  · rw [changed]
    cases kind <;> exact SameScans.elsewhere

theorem start_search_scans (manager : Manager B) (os : B.Os) (session : CkSessionHandle)
    (attrs : List (CkAttributeType × Bytes)) :
    SameScans (match scanBy (os, .startSearch session attrs) manager with
      | some os => manager.scanned os
      | none => manager) (manager.startSearch os session attrs).2 := by
  unfold scanBy startSearch
  dsimp only
  by_cases busy : manager.searches.contains session = true
  · rw [if_pos busy, if_pos busy]
    exact SameScans.elsewhere
  · rw [if_neg busy, if_neg busy]
    by_cases unsupported : attrs.any (fun attr => attr.1 ∉ B.supportedAttributes) = true
    · rw [if_pos unsupported, if_pos unsupported]
      exact SameScans.elsewhere
    · rw [if_neg unsupported, if_neg unsupported]
      by_cases nothing : (matchingHandles manager.objects attrs).isEmpty = true
      · rw [if_pos nothing, if_pos nothing, find_new_objects]
        by_cases due : manager.scanDue os 250 = true
        · rw [if_pos due, if_pos due]
          exact SameScans.elsewhere
        · rw [if_neg due, if_neg due]
          exact SameScans.elsewhere
      · rw [if_neg nothing, if_neg nothing]
        exact SameScans.elsewhere

/-- The registry changes by scans only, and exactly where `scanBy` says. -/
theorem step_scans (served : ManagerStep B) (manager : Manager B) :
    SameScans (match scanBy served manager with
      | some os => manager.scanned os
      | none => manager) (step served manager) := by
  rcases served with ⟨os, arguments⟩
  cases made : arguments.operationCall with
  | some call =>
      have quiet : scanBy (os, arguments) manager = none := by
        cases arguments <;> cases made <;> rfl
      rw [quiet, step, (dispatch_operation manager os made).2]
      exact operate_same_scans manager call.kind call.session call.request
  | none =>
      cases arguments <;> simp only [ManagerArguments.operationCall, reduceCtorEq] at made
      case openSession flags =>
        simp only [scanBy, step, dispatch, openSession, find_new_objects]
        by_cases due : manager.scanDue os 3000 = true
        · rw [if_pos due, if_pos due]
          exact SameScans.elsewhere
        · rw [if_neg due, if_neg due]
          exact SameScans.elsewhere
      case startSearch session attrs => exact start_search_scans manager os session attrs
      case closeSession session =>
        show SameScans manager (manager.closeSession session).2
        unfold closeSession
        split <;> exact SameScans.elsewhere
      case search session maxObjects =>
        simp only [step, dispatch]
        rcases search_cases manager session maxObjects with same | ⟨_, remaining, changed⟩
        · rw [same]
          exact SameScans.elsewhere
        · rw [changed]
          exact SameScans.elsewhere
      case closeAllSessions | clearSearch | getAttributes | getSessionInfo | stop =>
        exact SameScans.elsewhere

def allScans (os : B.Os) (run : List (ManagerStep B)) : List B.Os := os :: scans run (new os)

def turns (os : B.Os) (run : List (ManagerStep B)) : List B.Object :=
  (allScans os run).flatMap B.listObjects

def registryOf (turns : List B.Object) : Manager B := turns.foldl registerObject {}

theorem registry_of_append (earlier later : List B.Object) :
    registryOf (earlier ++ later) = later.foldl registerObject (registryOf earlier) :=
  List.foldl_append

theorem registry_of_concat (turns : List B.Object) (object : B.Object) :
    registryOf (turns ++ [object]) = (registryOf turns).registerObject object :=
  registry_of_append turns [object]

theorem registry_scanned {manager : Manager B} {turns : List B.Object}
    (same : SameObjects (registryOf turns) manager) (os : B.Os) :
    SameObjects (registryOf (turns ++ B.listObjects os)) (manager.scanned os) := by
  have noted : SameObjects manager { manager with lastScanTime := some (B.now os) } :=
    ⟨rfl, rfl, rfl, rfl, rfl⟩
  rw [registry_of_append]
  exact (same.trans noted).register_all _

theorem step_registry {manager : Manager B} {turns : List B.Object} (served : ManagerStep B)
    (same : SameObjects (registryOf turns) manager) :
    SameObjects (registryOf (turns ++ (scanBy served manager).toList.flatMap B.listObjects))
      (step served manager) := by
  have scans := (step_scans served manager).toSameObjects
  cases reached : scanBy served manager with
  | none =>
      rw [reached] at scans
      simpa using same.trans scans
  | some os =>
      rw [reached] at scans
      simpa using (registry_scanned same os).trans scans

theorem run_registry (run : List (ManagerStep B)) {manager : Manager B} {turns : List B.Object}
    (same : SameObjects (registryOf turns) manager) :
    SameObjects (registryOf (turns ++ (scans run manager).flatMap B.listObjects))
      (after step run manager) := by
  induction run generalizing manager turns with
  | nil => simpa [scans] using same
  | cons served rest ih => simpa [scans] using ih (step_registry served same)

theorem reached_registry (os : B.Os) (run : List (ManagerStep B)) :
    SameObjects (registryOf (turns os run)) (after step run (new os)) := by
  -- The registry that is reached is the one that the turns make, whatever was requested.
  have empty : SameObjects (registryOf []) ({} : Manager B) := SameScans.elsewhere.toSameObjects
  have first : SameObjects (registryOf (B.listObjects os)) (new os) := registry_scanned empty os
  exact run_registry run first

theorem reached_ids (os : B.Os) (run : List (ManagerStep B)) (kind : ObjectKind) (id : Bytes) :
    id ∈ (after step run (new os : Manager B)).ids kind ↔
      (kind, id) ∈ ((allScans os run).flatMap B.listObjects).map B.ident := by
  -- The ids are those of all the objects that scans have returned, even if handles ran out.
  rw [(reached_registry os run).ids, registryOf, register_all_ids, turns]
  cases kind <;> simp [ids]

theorem reached_listed (os : B.Os) (run : List (ManagerStep B)) {handle : CkObjectHandle}
    {object : B.Object}
    (found : (after step run (new os : Manager B)).objects[handle]? = some object) :
    ∃ scan ∈ allScans os run, object ∈ B.listObjects scan := by
  rw [(reached_registry os run).objects] at found
  rcases register_all_objects {} found with old | listed
  · simp at old
  · exact List.mem_flatMap.mp listed

/-- The registry is what it should be, once the objects `seen` have been returned by scans. -/
structure Registers (manager : Manager B) (seen : List B.Object) : Prop where
  objects : ∀ handle object, manager.objects[handle]? = some object ↔
    ∃ index, handle = index + 1 ∧ (firsts B.ident seen)[index]? = some object
  next : manager.nextHandle = (firsts B.ident seen).length + 1
  ids : ∀ kind id, id ∈ manager.ids kind ↔ (kind, id) ∈ seen.map B.ident
  registered : manager.registered = (firsts B.ident seen).length

theorem Registers.congr {before after : Manager B} {seen : List B.Object}
    (registers : before.Registers seen) (same : SameObjects before after) :
    after.Registers seen where
  objects := by rw [same.objects]; exact registers.objects
  next := same.nextHandle.trans registers.next
  ids kind := by rw [same.ids kind]; exact registers.ids kind
  registered := same.registered.trans registers.registered

theorem append_singleton_get {α : Type} {kept : List α} {new : α} {index : Nat}
    (other : index ≠ kept.length) : (kept ++ [new])[index]? = kept[index]? := by
  rcases Nat.lt_or_gt_of_ne other with below | above
  · exact List.getElem?_append_left below
  · rw [List.getElem?_eq_none (Nat.le_of_lt above), List.getElem?_eq_none]
    rw [List.length_append, List.length_singleton]
    exact above

theorem registered_sets {manager : Manager B} {seen : List B.Object} (object : B.Object)
    (registers : manager.Registers seen) (kind : ObjectKind) (id : Bytes) :
    id ∈ (manager.registerObject object).ids kind ↔
      (kind, id) ∈ (seen ++ [object]).map B.ident := by
  rw [register_ids, registers.ids, List.map_append, List.mem_append, List.map_singleton,
    List.mem_singleton]

theorem entry_added {manager : Manager B} {seen : List B.Object} {object : B.Object}
    (registers : manager.Registers seen) (handle : CkObjectHandle) (held : B.Object) :
    (manager.objects.insert manager.nextHandle object)[handle]? = some held ↔
      ∃ index, handle = index + 1 ∧
        (firsts B.ident seen ++ [object])[index]? = some held := by
  rw [Std.TreeMap.getElem?_insert]
  by_cases newest : manager.nextHandle = handle
  · rw [← newest, registers.next]
    simp
  · rw [if_neg (by simpa using newest), registers.objects]
    rw [registers.next] at newest
    -- Below the newest one nothing has moved, and above it there is nothing.
    apply exists_congr
    intro index
    apply and_congr_right
    rintro rfl
    have other : index ≠ (firsts B.ident seen).length := fun same => newest (by rw [same])
    rw [append_singleton_get other]

theorem register_keeps {manager : Manager B} {seen : List B.Object} (object : B.Object)
    (registers : manager.Registers seen) (unwrapped : (manager.registerObject object).Unwrapped) :
    (manager.registerObject object).Registers (seen ++ [object]) := by
  have sets := registered_sets object registers
  rw [register_by_ident] at unwrapped sets ⊢
  by_cases known : (B.ident object).2 ∈ manager.ids (B.ident object).1
  · rw [if_pos known] at sets ⊢
    have seenBefore : B.ident object ∈ seen.map B.ident := (registers.ids _ _).mp known
    have same : firsts B.ident (seen ++ [object]) = firsts B.ident seen := by
      rw [firsts_concat, note_known ((firsts_keys seen _).mpr seenBefore)]
    refine ⟨?_, ?_, sets, ?_⟩
    · rw [same]
      exact registers.objects
    · rw [same]
      exact registers.next
    · rw [same]
      exact registers.registered
  · rw [if_neg known] at unwrapped sets ⊢
    have unseen : B.ident object ∉ (firsts B.ident seen).map B.ident := by
      rw [firsts_keys, ← registers.ids]
      exact known
    have grown : firsts B.ident (seen ++ [object]) = firsts B.ident seen ++ [object] := by
      rw [firsts_concat, note_fresh unseen]
    have counted : ((manager.withId (B.ident object).2 (B.ident object).1).insertObject
        object).registered = manager.registered + 1 := registered_with_id known
    refine ⟨?_, ?_, sets, ?_⟩
    · rw [inserted_objects, grown]
      exact entry_added registers
    · -- The counter does not wrap, since the objects are fewer than it can count.
      have below := registers.registered
      unfold Unwrapped at unwrapped
      rw [inserted_next, succUlong, registers.next, grown, List.length_append,
        List.length_singleton, Nat.mod_eq_of_lt (by omega)]
    · rw [counted, registers.registered, grown, List.length_append, List.length_singleton]

/-- Each turn keeps the registry what it should be, as long as the handles last. -/
theorem turns_keep {turns : List B.Object} (unwrapped : (registryOf turns : Manager B).Unwrapped) :
    (registryOf turns : Manager B).Registers turns := by
  induction turns using List.reverseRecOn with
  | nil =>
      refine ⟨by simp [registryOf], rfl, ?_, rfl⟩
      intro kind id
      cases kind <;> simp [registryOf, ids]
  | append_singleton turns object ih =>
      rw [registry_of_concat] at unwrapped ⊢
      exact register_keeps object (ih ((register_grows _ object).unwrapped unwrapped)) unwrapped

theorem reached_registers (os : B.Os) (run : List (ManagerStep B))
    (unwrapped : (after step run (new os : Manager B)).Unwrapped) :
    (after step run (new os : Manager B)).Registers
      ((allScans os run).flatMap B.listObjects) := by
  have same := reached_registry os run
  have below : (registryOf (turns os run) : Manager B).Unwrapped := by
    unfold Unwrapped at unwrapped ⊢
    rwa [← same.registered]
  exact (turns_keep below).congr same

theorem run_scan_time (run : List (ManagerStep B)) {manager : Manager B} {earlier : List B.Os}
    (noted : ∃ last ∈ earlier, manager.lastScanTime = some (B.now last)) :
    ∃ last ∈ earlier ++ scans run manager,
      (after step run manager).lastScanTime = some (B.now last) := by
  induction run generalizing manager earlier with
  | nil => simpa [scans] using noted
  | cons served rest ih =>
      rw [scans, ← List.append_assoc]
      apply ih
      rw [(step_scans served manager).lastScanTime]
      cases scanBy served manager with
      | none => simpa using noted
      | some os => exact ⟨os, by simp, register_all_time _ _⟩

theorem reached_scan_time (os : B.Os) (run : List (ManagerStep B)) :
    ∃ last ∈ allScans os run,
      (after step run (new os : Manager B)).lastScanTime = some (B.now last) := by
  have first : ∃ last ∈ [os], (new os : Manager B).lastScanTime = some (B.now last) :=
    ⟨os, List.mem_singleton_self os, register_all_time _ _⟩
  exact run_scan_time run first

end Manager
end OsClientCerts
