import Mathlib.Data.List.Perm.Basic

/-!
Pages taken one after the other from the end of a list, each of a size that is asked
for at that moment. Together they are the list again, and the first short page is
the last one that holds anything.
-/

namespace OsClientCerts.Paging
variable {α : Type}

def page (size : Nat) (left : List α) : List α := left.drop (left.length - size)

def rest (size : Nat) (left : List α) : List α := left.take (left.length - size)

def pages : List Nat → List α → List (List α)
  | [], _ => []
  | size :: sizes, left => page size left :: pages sizes (rest size left)

@[simp] theorem page_length (size : Nat) (left : List α) :
    (page size left).length = min size left.length := by
  rw [page, List.length_drop]
  omega

@[simp] theorem rest_length (size : Nat) (left : List α) :
    (rest size left).length = left.length - size := by
  rw [rest, List.length_take]
  omega

@[simp] theorem rest_page (size : Nat) (left : List α) : rest size left ++ page size left = left :=
  List.take_append_drop _ _

theorem page_perm (size : Nat) (left : List α) : (page size left ++ rest size left).Perm left := by
  have swapped : (page size left ++ rest size left).Perm (rest size left ++ page size left) :=
    List.perm_append_comm
  rwa [rest_page] at swapped

@[simp] theorem pages_length (sizes : List Nat) (left : List α) :
    (pages sizes left).length = sizes.length := by
  induction sizes generalizing left with
  | nil => rfl
  | cons size sizes ih => simp [pages, ih]

theorem pages_nil (sizes : List Nat) : ∀ result ∈ pages sizes ([] : List α), result = [] := by
  induction sizes with
  | nil => simp [pages]
  | cons size sizes ih =>
      intro result member
      rcases List.mem_cons.mp member with rfl | later
      · exact List.drop_nil
      · rw [rest, List.take_nil] at later
        exact ih result later

/-- What pages of these sizes should be, for the list they are taken from. -/
structure Paged (sizes : List Nat) (results : List (List α)) (found : List α) : Prop where
  answered : results.length = sizes.length
  exact : ∀ index size result, sizes[index]? = some size → results[index]? = some result →
    result.length = min size (found.length - (results.take index).flatten.length)
  distinct : results.flatten.Nodup
  complete : ∀ index size result, sizes[index]? = some size → results[index]? = some result →
    result.length < size → (results.take (index + 1)).flatten.Perm found ∧
      ∀ later other, index < later → results[later]? = some other → other = []

theorem pages_exact (sizes : List Nat) (found : List α) {index size : Nat} {result : List α}
    (asked : sizes[index]? = some size) (given : (pages sizes found)[index]? = some result) :
    result.length =
      min size (found.length - ((pages sizes found).take index).flatten.length) := by
  induction sizes generalizing found index with
  | nil => cases asked
  | cons first sizes ih =>
      cases index with
      | zero =>
          cases asked
          cases given
          simp
      | succ index =>
          have later := ih (rest first found) asked given
          simp only [rest_length] at later
          simp only [pages, List.take_succ_cons, List.flatten_cons, List.length_append, page_length]
          omega

theorem pages_subperm (sizes : List Nat) (found : List α) :
    (pages sizes found).flatten.Subperm found := by
  induction sizes generalizing found with
  | nil => exact List.nil_subperm
  | cons size sizes ih =>
      have later : (page size found ++ (pages sizes (rest size found)).flatten).Subperm
          (page size found ++ rest size found) := (List.subperm_append_left _).mpr (ih _)
      exact later.trans (page_perm size found).subperm

theorem pages_complete (sizes : List Nat) (found : List α) {index size : Nat} {result : List α}
    (asked : sizes[index]? = some size) (given : (pages sizes found)[index]? = some result)
    (short : result.length < size) : ((pages sizes found).take (index + 1)).flatten.Perm found ∧
      ∀ later other, index < later → (pages sizes found)[later]? = some other → other = [] := by
  induction sizes generalizing found index with
  | nil => cases asked
  | cons first sizes ih =>
      cases index with
      | zero =>
          cases asked
          cases given
          rw [page_length] at short
          -- The page was cut short by the end of the list.
          have nothing : rest size found = [] := by
            apply List.eq_nil_of_length_eq_zero
            rw [rest_length]
            omega
          have whole : page size found = found := by
            have both := rest_page size found
            rwa [nothing, List.nil_append] at both
          constructor
          · simp [pages, whole]
          · intro later other after held
            cases later with
            | zero => exact absurd after (Nat.lt_irrefl 0)
            | succ later =>
                rw [pages, nothing] at held
                exact pages_nil sizes other (List.mem_of_getElem? held)
      | succ index =>
          obtain ⟨together, nothing⟩ := ih (rest first found) asked given
          constructor
          · simp only [pages, List.take_succ_cons, List.flatten_cons]
            exact (together.append_left _).trans (page_perm first found)
          · intro later other after held
            cases later with
            | zero => exact absurd after (Nat.not_lt_zero _)
            | succ later => exact nothing later other (Nat.lt_of_succ_lt_succ after) held

theorem pages_paged (sizes : List Nat) {found : List α} (distinct : found.Nodup) :
    Paged sizes (pages sizes found) found where
  answered := pages_length sizes found
  exact _ _ _ asked given := pages_exact sizes found asked given
  distinct := by
    -- Nothing is lost and nothing is repeated.
    obtain ⟨same, perm, sublist⟩ := pages_subperm sizes found
    exact perm.nodup_iff.mp (distinct.sublist sublist)
  complete _ _ _ asked given short := pages_complete sizes found asked given short

end OsClientCerts.Paging
