import Mathlib.Data.List.Basic

/-!
Tables that statements delete from. A statement is given by the rows it selects;
what several of them leave is what none of them selects, in its old place.
-/

namespace OsClientCerts.Deletions
variable {ρ : Type}

/-- `DELETE FROM table WHERE`. -/
def delete (selects : ρ → Bool) (table : List ρ) : List ρ :=
  table.filter fun row => !selects row

def deleteEach (statements : List (ρ → Bool)) (table : List ρ) : List ρ :=
  statements.foldl (fun left selects => delete selects left) table

def Removed (before after : List ρ) (row : ρ) : Prop := row ∈ before ∧ row ∉ after

theorem delete_each_filter (statements : List (ρ → Bool)) (table : List ρ) :
    deleteEach statements table =
      table.filter fun row => statements.all fun selects => !selects row := by
  induction statements generalizing table with
  | nil => exact (List.filter_true table).symm
  | cons selects rest ih =>
      rw [deleteEach, List.foldl_cons]
      refine (ih _).trans ?_
      rw [delete, List.filter_filter]
      apply List.filter_congr
      intro row _
      rw [List.all_cons, Bool.and_comm]

theorem mem_delete_each {statements : List (ρ → Bool)} {table : List ρ} {row : ρ} :
    row ∈ deleteEach statements table ↔
      row ∈ table ∧ ∀ selects ∈ statements, selects row = false := by
  simp [delete_each_filter]

theorem removed_iff {statements : List (ρ → Bool)} {table : List ρ} {row : ρ} :
    Removed table (deleteEach statements table) row ↔
      row ∈ table ∧ ∃ selects ∈ statements, selects row = true := by
  rw [Removed, mem_delete_each]
  constructor
  · rintro ⟨member, gone⟩
    refine ⟨member, ?_⟩
    by_contra none
    exact gone ⟨member, fun selects given =>
      Bool.eq_false_iff.mpr fun selected => none ⟨selects, given, selected⟩⟩
  · rintro ⟨member, selects, given, selected⟩
    exact ⟨member, fun left => Bool.false_ne_true ((left.2 selects given).symm.trans selected)⟩

theorem delete_each_sublist (statements : List (ρ → Bool)) (table : List ρ) :
    (deleteEach statements table).Sublist table := by
  rw [delete_each_filter]
  exact List.filter_sublist

theorem delete_each_again (statements : List (ρ → Bool)) (table : List ρ) :
    deleteEach statements (deleteEach statements table) = deleteEach statements table := by
  rw [delete_each_filter statements (deleteEach statements table), List.filter_eq_self]
  intro row left
  exact List.all_eq_true.mpr fun selects given => by
    rw [(mem_delete_each.mp left).2 selects given, Bool.not_false]

end OsClientCerts.Deletions
