import Mathlib.Algebra.GroupWithZero.Nat
import Mathlib.Algebra.Order.BigOperators.Group.List
import Mathlib.Algebra.Order.Group.Nat
import OsClientCerts.GuardedRuns

/-!
One flag that stands for a set of items. An item that is announced sets the flag, and the
first visit of an item reads and clears it. The items whose visit finds the flag set are
the announced ones exactly when the flag never has to stand for two.
-/

namespace OsClientCerts.OneFlag
open GuardedRuns

structure Item where
  announced : Bool
  visited : Bool
  taken : Nat

structure State where
  flag : Bool
  items : List Item

inductive Event where
  | announce
  | plain
  | visit (index : Nat)

def Item.waits (item : Item) : Bool := item.announced && !item.visited

def Item.visit (item : Item) (flag : Bool) : Item :=
  { item with visited := true, taken := item.taken + flag.toNat }

def step : Event → State → State
  | .announce, state => ⟨true, state.items ++ [⟨true, false, 0⟩]⟩
  | .plain, state => ⟨state.flag, state.items ++ [⟨false, false, 0⟩]⟩
  | .visit index, state =>
      match state.items[index]? with
      | none => state
      | some item =>
          if item.visited then state
          else ⟨false, state.items.set index (item.visit state.flag)⟩

def empty : State := ⟨false, []⟩

/-- The flag was taken once by every announced item and by no other. -/
def Right (state : State) : Prop := ∀ item ∈ state.items, item.taken = item.announced.toNat

/-- No item is announced, and none that was not is visited, while an announced one waits. -/
def OneWaits : Event → State → Prop
  | .announce, state => ∀ other ∈ state.items, other.waits = false
  | .plain, _ => True
  | .visit index, state => ∀ item, state.items[index]? = some item → item.announced = false →
      item.visited = false → ∀ other ∈ state.items, other.waits = false

def taken (state : State) : Nat := (state.items.map Item.taken).sum

def announced (state : State) : Nat := (state.items.map fun item => item.announced.toNat).sum

theorem sum_set {α : Type} (weight : α → Nat) {items : List α} {index : Nat} {old : α}
    (found : items[index]? = some old) (new : α) :
    ((items.set index new).map weight).sum + weight old = (items.map weight).sum + weight new := by
  induction items generalizing index with
  | nil => simp at found
  | cons first rest ih =>
      cases index with
      | zero =>
          obtain rfl : first = old := by simpa using found
          simp only [List.set_cons_zero, List.map_cons, List.sum_cons]
          omega
      | succ index =>
          have next := ih (by simpa using found)
          simp only [List.set_cons_succ, List.map_cons, List.sum_cons]
          omega

section
variable {state : State} {index : Nat} {item : Item}

theorem step_visit (state : State) (found : state.items[index]? = some item)
    (fresh : item.visited = false) :
    step (.visit index) state = ⟨false, state.items.set index (item.visit state.flag)⟩ := by
  simp [step, found, fresh]

theorem visit_cases (state : State) (index : Nat) :
    step (.visit index) state = state ∨ ∃ item, state.items[index]? = some item ∧
      item.visited = false ∧
      step (.visit index) state = ⟨false, state.items.set index (item.visit state.flag)⟩ := by
  cases found : state.items[index]? with
  | none => exact Or.inl (by simp [step, found])
  | some item =>
      cases seen : item.visited with
      | true => exact Or.inl (by simp [step, found, seen])
      | false => exact Or.inr ⟨item, rfl, seen, step_visit state found seen⟩

theorem taken_set (found : state.items[index]? = some item) :
    taken ⟨false, state.items.set index (item.visit state.flag)⟩ =
      taken state + state.flag.toNat := by
  -- A visit moves the flag into its item.
  have moved := sum_set Item.taken found (item.visit state.flag)
  simp only [taken, Item.visit] at moved ⊢
  omega

theorem announced_set (found : state.items[index]? = some item) (flag : Bool) :
    announced ⟨flag, state.items.set index (item.visit state.flag)⟩ = announced state := by
  have kept := sum_set (fun other : Item => other.announced.toNat) found
    (item.visit state.flag)
  simp only [announced, Item.visit] at kept ⊢
  omega

@[simp] theorem taken_append (flag : Bool) (items : List Item) (item : Item) :
    taken ⟨flag, items ++ [item]⟩ = taken ⟨flag, items⟩ + item.taken := by
  simp [taken]

@[simp] theorem announced_append (flag : Bool) (items : List Item) (item : Item) :
    announced ⟨flag, items ++ [item]⟩ = announced ⟨flag, items⟩ + item.announced.toNat := by
  simp [announced]

end

structure Orderly (state : State) : Prop where
  visited : ∀ item ∈ state.items, item.visited = true → item.taken = item.announced.toNat
  unvisited : ∀ item ∈ state.items, item.visited = false → item.taken = 0
  balance : taken state + state.flag.toNat = announced state

def Lost (state : State) : Prop := taken state + state.flag.toNat < announced state

def Stolen (state : State) : Prop :=
  ∃ item ∈ state.items, item.announced = false ∧ 0 < item.taken

section
variable {state : State}

theorem empty_orderly : Orderly empty := ⟨nofun, nofun, rfl⟩

theorem Orderly.flag_iff (orderly : Orderly state) :
    state.flag = true ↔ ∃ item ∈ state.items, item.waits = true := by
  have bounded : ∀ item ∈ state.items, item.taken ≤ item.announced.toNat := by
    intro item member
    cases seen : item.visited with
    | true => exact Nat.le_of_eq (orderly.visited item member seen)
    | false => simp [orderly.unvisited item member seen]
  have balance := orderly.balance
  constructor
  · intro set
    by_contra none
    have same : taken state = announced state := by
      unfold taken announced
      congr 1
      refine List.map_congr_left fun item member => ?_
      cases seen : item.visited with
      | true => exact orderly.visited item member seen
      | false =>
          have plain : item.announced = false := by
            by_contra announced
            exact none ⟨item, member, by simp [Item.waits, seen, announced]⟩
          rw [orderly.unvisited item member seen, plain]
          rfl
    simp [set, same] at balance
  · rintro ⟨item, member, waits⟩
    by_contra clear
    simp only [Item.waits, Bool.and_eq_true, Bool.not_eq_true'] at waits
    have owed : item.taken < item.announced.toNat := by
      simp [orderly.unvisited item member waits.2, waits.1]
    have less : taken state < announced state :=
      List.sum_lt_sum _ _ bounded ⟨item, member, owed⟩
    simp only [Bool.not_eq_true] at clear
    simp only [clear, Bool.toNat_false] at balance
    omega

theorem Orderly.clear (orderly : Orderly state)
    (idle : ∀ item ∈ state.items, item.waits = false) : state.flag = false := by
  by_contra set
  obtain ⟨item, member, waits⟩ := orderly.flag_iff.mp (by simpa using set)
  simp [idle item member] at waits

theorem Orderly.append (orderly : Orderly state) (announced : Bool)
    (idle : announced = true → state.flag = false) :
    Orderly ⟨announced || state.flag, state.items ++ [⟨announced, false, 0⟩]⟩ := by
  have balance := orderly.balance
  refine ⟨?_, ?_, ?_⟩
  · intro item member seen
    rcases List.mem_append.mp member with earlier | last
    · exact orderly.visited item earlier seen
    · simp [List.mem_singleton.mp last] at seen
  · intro item member seen
    rcases List.mem_append.mp member with earlier | last
    · exact orderly.unvisited item earlier seen
    · rw [List.mem_singleton.mp last]
  · rw [taken_append, announced_append]
    cases announced with
    | false => simpa using balance
    | true =>
        simp only [idle rfl, Bool.toNat_false] at balance
        simpa [taken, OneFlag.announced] using balance

theorem orderly_step (event : Event) (state : State) (orderly : Orderly state)
    (one : OneWaits event state) : Orderly (step event state) := by
  cases event with
  | announce => exact orderly.append true fun _ => orderly.clear one
  | plain => exact orderly.append false nofun
  | visit index =>
      rcases visit_cases state index with same | ⟨item, found, fresh, visited⟩
      · rwa [same]
      · rw [visited]
        have member := List.mem_of_getElem? found
        have taken : (item.visit state.flag).taken = item.announced.toNat := by
          have flag : state.flag = item.announced := by
            cases marked : item.announced with
            | true => exact orderly.flag_iff.mpr ⟨item, member, by simp [Item.waits, marked, fresh]⟩
            | false => exact orderly.clear (one item found marked fresh)
          simp [Item.visit, orderly.unvisited item member fresh, flag]
        refine ⟨?_, ?_, ?_⟩
        · intro other listed seen
          rcases List.mem_or_eq_of_mem_set listed with earlier | rfl
          · exact orderly.visited other earlier seen
          · exact taken
        · intro other listed seen
          rcases List.mem_or_eq_of_mem_set listed with earlier | rfl
          · exact orderly.unvisited other earlier seen
          · simp [Item.visit] at seen
        · rw [taken_set found, announced_set found]
          simpa using orderly.balance

theorem lost_step (event : Event) (state : State) (lost : Lost state) :
    Lost (step event state) := by
  unfold Lost at lost ⊢
  cases event with
  | announce =>
      simp only [step, taken_append, announced_append]
      have flag : state.flag.toNat ≤ 1 := Bool.toNat_le _
      change taken state + 0 + 1 < announced state + 1
      omega
  | plain => simpa [step, taken, announced] using lost
  | visit index =>
      rcases visit_cases state index with same | ⟨item, found, _, visited⟩
      · rwa [same]
      · rw [visited, taken_set found, announced_set found]
        simpa using lost

theorem stolen_step (event : Event) (state : State) (stolen : Stolen state) :
    Stolen (step event state) := by
  obtain ⟨item, member, plain, took⟩ := stolen
  cases event with
  | announce => exact ⟨item, List.mem_append_left _ member, plain, took⟩
  | plain => exact ⟨item, List.mem_append_left _ member, plain, took⟩
  | visit index =>
      rcases visit_cases state index with same | ⟨other, found, _, visited⟩
      · rw [same]
        exact ⟨item, member, plain, took⟩
      · rw [visited]
        by_cases here : item = other
        · subst here
          exact ⟨item.visit state.flag, List.mem_set (List.getElem?_eq_some_iff.mp found).1 _,
            plain, Nat.lt_of_lt_of_le took (Nat.le_add_right _ _)⟩
        · refine ⟨item, ?_, plain, took⟩
          obtain ⟨place, held⟩ := List.mem_iff_getElem?.mp member
          have apart : index ≠ place := by
            rintro rfl
            exact here (Option.some.inj (held.symm.trans found))
          exact List.mem_of_getElem? (i := place) (by simpa [apart] using held)

theorem crowded_step (event : Event) (state : State) (orderly : Orderly state)
    (crowded : ¬OneWaits event state) : Lost (step event state) ∨ Stolen (step event state) := by
  -- The first step that makes the flag stand for two items loses it, or gives it away.
  have balance := orderly.balance
  cases event with
  | announce =>
      simp only [OneWaits, not_forall, Bool.not_eq_false] at crowded
      obtain ⟨other, member, waits⟩ := crowded
      have flag : state.flag = true := orderly.flag_iff.mpr ⟨other, member, waits⟩
      refine Or.inl ?_
      unfold Lost
      simp only [step, taken_append, announced_append]
      simp only [flag, Bool.toNat_true] at balance
      change taken state + 0 + 1 < announced state + 1
      omega
  | plain => exact absurd trivial crowded
  | visit index =>
      simp only [OneWaits, not_forall, Bool.not_eq_false] at crowded
      obtain ⟨item, found, plain, fresh, other, member, waits⟩ := crowded
      have flag : state.flag = true := orderly.flag_iff.mpr ⟨other, member, waits⟩
      refine Or.inr ⟨item.visit state.flag, ?_, plain, by simp [Item.visit, flag]⟩
      rw [step_visit state found fresh]
      exact List.mem_set (List.getElem?_eq_some_iff.mp found).1 _

theorem Lost.not_right (lost : Lost state) : ¬Right state := by
  intro right
  have same : taken state = announced state := congrArg List.sum (List.map_congr_left right)
  unfold Lost at lost
  omega

theorem Stolen.not_right (stolen : Stolen state) : ¬Right state := by
  obtain ⟨item, member, plain, took⟩ := stolen
  intro right
  have none := right item member
  simp only [plain, Bool.toNat_false] at none
  omega

theorem Orderly.right_iff (orderly : Orderly state) :
    Right state ↔ ∀ item ∈ state.items, item.waits = false := by
  constructor
  · intro right item member
    cases seen : item.visited with
    | true => simp [Item.waits, seen]
    | false =>
        have none := right item member
        rw [orderly.unvisited item member seen] at none
        cases marked : item.announced with
        | true => simp [marked] at none
        | false => simp [Item.waits, marked]
  · intro visited item member
    cases seen : item.visited with
    | true => exact orderly.visited item member seen
    | false =>
        have plain : item.announced = false := by
          simpa [Item.waits, seen] using visited item member
        simp [orderly.unvisited item member seen, plain]

end

/-- The flag was taken by the announced items alone exactly when all of them were visited
and it never had to stand for two. -/
theorem right_run_iff (run : List Event) : Right (LocalAutomata.after step run empty) ↔
    Meets step OneWaits run empty ∧
      ∀ item ∈ (LocalAutomata.after step run empty).items, item.waits = false := by
  constructor
  · intro right
    have stays : ∀ event state, Lost state ∨ Stolen state →
        Lost (step event state) ∨ Stolen (step event state) := by
      rintro event state (lost | stolen)
      · exact Or.inl (lost_step event state lost)
      · exact Or.inr (stolen_step event state stolen)
    have meets : Meets step OneWaits run empty := by
      refine meets_of_unbroken orderly_step crowded_step stays empty_orderly ?_
      rintro (lost | stolen)
      · exact lost.not_right right
      · exact stolen.not_right right
    exact ⟨meets, (meets_preserved orderly_step meets empty_orderly).right_iff.mp right⟩
  · rintro ⟨meets, visited⟩
    exact (meets_preserved orderly_step meets empty_orderly).right_iff.mpr visited

end OsClientCerts.OneFlag
