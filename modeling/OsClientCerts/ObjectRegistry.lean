import Mathlib.Data.Finset.Card
import OsClientCerts.LocalAutomata
import OsClientCerts.ManagerProxy

/-!
The registry only grows. Handles are given out in order, and as long as there have been no
more objects than handles a handle keeps denoting the object it was given to.
-/

namespace OsClientCerts
open LocalAutomata

abbrev ManagerStep (B : Backend) := B.Os × ManagerArguments

namespace Manager
variable {B : Backend}

def registered (manager : Manager B) : Nat :=
  manager.certIds.card + manager.keyIds.card + manager.trustIds.card

/-- The counter is still below the largest `CK_ULONG`. -/
def Unwrapped (manager : Manager B) : Prop := manager.registered + 1 < B.target.ulongModulus

theorem Unwrapped.few {manager : Manager B} (unwrapped : manager.Unwrapped) :
    manager.registered ≤ B.target.ulongModulus := by
  unfold Unwrapped at unwrapped
  omega

/-- Each object registered so far has had the counter's next value as its handle. -/
structure HandedOut (manager : Manager B) : Prop where
  next : manager.nextHandle = (manager.registered + 1) % B.target.ulongModulus
  given : ∀ (handle : CkObjectHandle) (object : B.Object),
    manager.objects[handle]? = some object →
      ∃ index < manager.registered, handle = (index + 1) % B.target.ulongModulus

/-- Nothing is taken away while there are handles for all. -/
structure Grows (before after : Manager B) : Prop where
  registered : before.registered ≤ after.registered
  handedOut : before.HandedOut → after.HandedOut
  kept : before.HandedOut → after.registered ≤ B.target.ulongModulus →
    ∀ (handle : CkObjectHandle) (object : B.Object),
      before.objects[handle]? = some object → after.objects[handle]? = some object

theorem Grows.refl (manager : Manager B) : Grows manager manager :=
  ⟨Nat.le_refl _, id, fun _ _ _ _ found => found⟩

theorem Grows.unwrapped {before after : Manager B} (grows : Grows before after)
    (unwrapped : after.Unwrapped) : before.Unwrapped := by
  have more := grows.registered
  unfold Unwrapped at unwrapped ⊢
  omega

theorem Grows.trans {first second third : Manager B} (early : Grows first second)
    (late : Grows second third) : Grows first third where
  registered := Nat.le_trans early.registered late.registered
  handedOut handed := late.handedOut (early.handedOut handed)
  kept handed few handle object found :=
    late.kept (early.handedOut handed) few handle object
      (early.kept handed (Nat.le_trans late.registered few) handle object found)

theorem handle_distinct {modulus earlier later : Nat} (before : earlier < later)
    (few : later < modulus) : (earlier + 1) % modulus ≠ (later + 1) % modulus := by
  have first : (earlier + 1) % modulus = earlier + 1 := Nat.mod_eq_of_lt (by omega)
  rw [first]
  by_cases last : later + 1 = modulus
  · rw [last, Nat.mod_self]
    exact Nat.succ_ne_zero earlier
  · have second : (later + 1) % modulus = later + 1 := Nat.mod_eq_of_lt (by omega)
    omega

theorem insert_grows {before noted : Manager B} (object : B.Object)
    (objects : noted.objects = before.objects) (next : noted.nextHandle = before.nextHandle)
    (counted : noted.registered = before.registered + 1) :
    Grows before (noted.insertObject object) := by
  -- A new object gets the next handle, and the counter moves on.
  have total : (noted.insertObject object).registered = before.registered + 1 := counted
  have counter : (noted.insertObject object).nextHandle =
      succUlong B.target before.nextHandle := by rw [← next]; rfl
  have entries : (noted.insertObject object).objects =
      before.objects.insert before.nextHandle object := by
    rw [← objects, ← next]; rfl
  refine ⟨by omega, fun handed => ⟨?_, ?_⟩, ?_⟩
  · rw [counter, succUlong, handed.next, total, Nat.mod_add_mod]
  · intro handle found held
    rw [entries, Std.TreeMap.getElem?_insert] at held
    rw [total]
    split at held
    case isTrue same =>
        exact ⟨before.registered, Nat.lt_succ_self _,
          (Std.LawfulEqCmp.eq_of_compare same).symm.trans handed.next⟩
    case isFalse =>
        obtain ⟨index, below, given⟩ := handed.given handle found held
        exact ⟨index, Nat.lt_succ_of_lt below, given⟩
  · intro handed few handle found held
    obtain ⟨index, below, rfl⟩ := handed.given handle found held
    -- The new handle is none of those given out before.
    have different : before.nextHandle ≠ (index + 1) % B.target.ulongModulus := by
      rw [handed.next]
      exact (handle_distinct below (by omega)).symm
    rw [entries, Std.TreeMap.getElem?_insert]
    simp [different, held]

theorem register_grows (manager : Manager B) (object : B.Object) :
    Grows manager (manager.registerObject object) := by
  unfold registerObject
  cases object with
  | cert cert =>
      dsimp only
      split
      · exact Grows.refl manager
      · exact insert_grows _ rfl rfl (by simp [registered, *]; omega)
  | key key =>
      dsimp only
      split
      · exact Grows.refl manager
      · exact insert_grows _ rfl rfl (by simp [registered, *]; omega)
  | trust trust =>
      dsimp only
      split
      · exact Grows.refl manager
      · exact insert_grows _ rfl rfl (by simp [registered, *]; omega)

structure SameRegistry (before after : Manager B) : Prop where
  objects : after.objects = before.objects
  nextHandle : after.nextHandle = before.nextHandle
  registered : after.registered = before.registered

theorem SameRegistry.grows {before after : Manager B} (same : SameRegistry before after) :
    Grows before after where
  registered := Nat.le_of_eq same.registered.symm
  handedOut handed := ⟨by rw [same.nextHandle, same.registered, handed.next], by
    rw [same.objects, same.registered]; exact handed.given⟩
  kept _ _ handle object found := by rw [same.objects]; exact found

theorem Grows.elsewhere {manager : Manager B} {sessions : Std.TreeMap CkSessionHandle CkUlong}
    {searches : Std.TreeMap CkSessionHandle (List CkObjectHandle)}
    {signs : Std.TreeMap CkSessionHandle (Operation .sign)}
    {decrypts : Std.TreeMap CkSessionHandle (Operation .decrypt)}
    {encrypts : Std.TreeMap CkSessionHandle (Operation .encrypt)} {nextSession : CkSessionHandle}
    {lastScanTime : Option Nat} :
    Grows manager { manager with
      sessions, searches, signs, decrypts, encrypts, nextSession, lastScanTime } :=
  SameRegistry.grows ⟨rfl, rfl, rfl⟩

theorem register_all_grows (objects : List B.Object) (manager : Manager B) :
    Grows manager (objects.foldl registerObject manager) := by
  induction objects generalizing manager with
  | nil => exact Grows.refl manager
  | cons object rest ih => exact (register_grows manager object).trans (ih _)

theorem scan_grows (manager : Manager B) (os : B.Os) (minInterval : Nat) :
    Grows manager (manager.maybeFindNewObjects os minInterval) := by
  unfold maybeFindNewObjects
  split
  · exact Grows.elsewhere.trans (register_all_grows _ _)
  · exact Grows.refl manager

theorem with_operations_registry (manager : Manager B) (kind : Kind)
    (entries : Std.TreeMap CkSessionHandle (Operation kind)) :
    SameRegistry manager (manager.withOperations kind entries) := by
  cases kind <;> exact ⟨rfl, rfl, rfl⟩

theorem operate_registry (manager : Manager B) (kind : Kind) (session : CkSessionHandle)
    (request : OperationRequest kind) :
    SameRegistry manager (manager.operate kind session request).2 := by
  have unchanged : SameRegistry manager manager := ⟨rfl, rfl, rfl⟩
  cases request with
  | start handle params =>
      simp only [operate, start]
      split
      · exact unchanged
      · split
        · exact with_operations_registry manager kind _
        · exact unchanged
  | update data =>
      simp only [operate, update]
      split
      · split
        · exact unchanged
        · exact with_operations_registry manager kind _
      · exact unchanged
  | getLength data | getFinalLength => exact unchanged
  | finishWith data | finish =>
      simp only [operate, finishWith, finish]
      split
      · exact with_operations_registry manager kind _
      · exact unchanged

theorem start_search_grows (manager : Manager B) (os : B.Os) (session : CkSessionHandle)
    (attrs : List (CkAttributeType × Bytes)) :
    Grows manager (manager.startSearch os session attrs).2 := by
  rcases start_search_cases manager os session attrs with
    ⟨_, refused⟩ | ⟨_, scanned, handles, origin, started⟩
  · rw [refused]
    exact Grows.refl manager
  · have grown : Grows manager scanned := by
      rcases origin with same | same
      · rw [same]
        exact Grows.refl manager
      · rw [same]
        exact scan_grows manager os 250
    rw [started]
    exact grown.trans Grows.elsewhere

theorem dispatch_grows (manager : Manager B) (os : B.Os) (arguments : ManagerArguments) :
    Grows manager (manager.dispatch os arguments).2 := by
  cases made : arguments.operationCall with
  | some call =>
      rw [(dispatch_operation manager os made).2]
      exact (operate_registry manager call.kind call.session call.request).grows
  | none =>
      cases arguments <;> simp only [ManagerArguments.operationCall, reduceCtorEq] at made
      case openSession flags =>
        exact (scan_grows manager os 3000).trans Grows.elsewhere
      case closeSession session =>
        simp only [dispatch, closeSession]
        split
        · exact Grows.elsewhere
        · exact Grows.refl manager
      case closeAllSessions => exact Grows.elsewhere
      case startSearch session attrs => exact start_search_grows manager os session attrs
      case search session maxObjects =>
        simp only [dispatch]
        rcases search_cases manager session maxObjects with same | ⟨_, remaining, changed⟩
        · rw [same]
          exact Grows.refl manager
        · rw [changed]
          exact Grows.elsewhere
      case clearSearch session => exact Grows.elsewhere
      case getAttributes | getSessionInfo | stop => exact Grows.refl manager

theorem empty_handed_out : ({} : Manager B).HandedOut := by
  refine ⟨?_, fun handle object found => ?_⟩
  · cases B.target <;> rfl
  · simp at found

theorem new_handed_out (os : B.Os) : (new os : Manager B).HandedOut :=
  (scan_grows {} os 3000).handedOut empty_handed_out

def step (served : ManagerStep B) (manager : Manager B) : Manager B :=
  (manager.dispatch served.1 served.2).2

theorem run_grows (run : List (ManagerStep B)) (manager : Manager B) :
    Grows manager (after step run manager) := by
  induction run generalizing manager with
  | nil => exact Grows.refl manager
  | cons served rest ih => exact (dispatch_grows manager served.1 served.2).trans (ih _)

/-- What a handle denoted it denotes for as long as there are handles for all. -/
theorem handle_kept (os : B.Os) (earlier later : List (ManagerStep B))
    (few : (after step (earlier ++ later) (new os : Manager B)).registered ≤
      B.target.ulongModulus) {handle : CkObjectHandle} {object : B.Object}
    (found : (after step earlier (new os : Manager B)).objects[handle]? = some object) :
    (after step (earlier ++ later) (new os : Manager B)).objects[handle]? = some object := by
  rw [after_append] at few ⊢
  have handed := (run_grows earlier (new os : Manager B)).handedOut (new_handed_out os)
  exact (run_grows later _).kept handed few handle object found

end Manager
end OsClientCerts
