import Mathlib.Data.List.Induction
import Mathlib.Data.List.Nodup

/-!
Keeping the first element of each key, in the order in which the keys are first seen.
No key is kept twice, and every element seen is represented by the first one with
its key.
-/

namespace OsClientCerts.FirstSeen
variable {α κ : Type} [DecidableEq κ] (key : α → κ)

def note (kept : List α) (seen : α) : List α :=
  if key seen ∈ kept.map key then kept else kept ++ [seen]

def firsts (seen : List α) : List α := seen.foldl (note key) []

variable {key}

theorem note_known {kept : List α} {seen : α} (known : key seen ∈ kept.map key) :
    note key kept seen = kept := if_pos known

theorem note_fresh {kept : List α} {seen : α} (fresh : key seen ∉ kept.map key) :
    note key kept seen = kept ++ [seen] := if_neg fresh

@[simp] theorem firsts_nil : firsts key [] = [] := rfl

theorem firsts_concat (seen : List α) (next : α) :
    firsts key (seen ++ [next]) = note key (firsts key seen) next := List.foldl_append

theorem note_keys (kept : List α) (seen : α) (which : κ) :
    which ∈ (note key kept seen).map key ↔ which ∈ kept.map key ∨ which = key seen := by
  by_cases known : key seen ∈ kept.map key
  · rw [note_known known]
    constructor
    · exact Or.inl
    · rintro (old | rfl)
      · exact old
      · exact known
  · simp [note_fresh known]

theorem firsts_keys (seen : List α) (which : κ) :
    which ∈ (firsts key seen).map key ↔ which ∈ seen.map key := by
  induction seen using List.reverseRec with
  | nil => simp
  | append_singleton seen next ih => simp [firsts_concat, note_keys, ih]

theorem firsts_keys_nodup (seen : List α) : ((firsts key seen).map key).Nodup := by
  induction seen using List.reverseRec with
  | nil => exact List.nodup_nil
  | append_singleton seen next ih =>
      rw [firsts_concat]
      by_cases known : key next ∈ (firsts key seen).map key
      · rw [note_known known]
        exact ih
      · rw [note_fresh known, List.map_append]
        apply ih.append (List.nodup_singleton _)
        intro which old new
        rw [List.mem_singleton.mp new] at old
        exact known old

theorem firsts_subset (seen : List α) : ∀ kept ∈ firsts key seen, kept ∈ seen := by
  induction seen using List.reverseRec with
  | nil => simp
  | append_singleton seen next ih =>
      intro kept member
      rw [firsts_concat] at member
      by_cases known : key next ∈ (firsts key seen).map key
      · rw [note_known known] at member
        exact List.mem_append_left _ (ih kept member)
      · rw [note_fresh known] at member
        rcases List.mem_append.mp member with old | new
        · exact List.mem_append_left _ (ih kept old)
        · exact List.mem_append_right _ new

/-- What is kept is exactly what is the first of its key. -/
theorem mem_firsts {seen : List α} {kept : α} :
    kept ∈ firsts key seen ↔ seen.find? (fun other => key other = key kept) = some kept := by
  induction seen using List.reverseRec with
  | nil => simp
  | append_singleton seen next ih =>
      rw [firsts_concat, List.find?_append]
      by_cases known : key next ∈ (firsts key seen).map key
      · rw [note_known known, ih]
        rw [firsts_keys] at known
        cases found : seen.find? fun other => key other = key kept with
        | some first => simp
        | none =>
            -- The new element has a key that was seen, and `kept` one that was not.
            have different : key next ≠ key kept := by
              intro same
              obtain ⟨old, member, sameKey⟩ := List.mem_map.mp known
              have unseen := List.find?_eq_none.mp found old member
              simp [sameKey, same] at unseen
            simp [different]
      · rw [note_fresh known, List.mem_append, ih, List.mem_singleton]
        rw [firsts_keys] at known
        cases found : seen.find? fun other => key other = key kept with
        | some first =>
            have old := List.mem_of_find?_eq_some found
            have sameKey : key first = key kept := by simpa using List.find?_some found
            constructor
            · rintro (same | rfl)
              · simpa using same
              · exact absurd (List.mem_map.mpr ⟨first, old, sameKey⟩) known
            · intro same
              exact Or.inl (by simpa using same)
        | none =>
            rw [Option.none_or]
            constructor
            · rintro (old | rfl)
              · cases old
              · simp
            · exact fun new => Or.inr (List.mem_singleton.mp (List.mem_of_find?_eq_some new))

variable (key) in
theorem represented {seen : List α} {element : α} (member : element ∈ seen) :
    ∃ first ∈ firsts key seen, key first = key element ∧
      seen.find? (fun other => key other = key element) = some first := by
  have known : key element ∈ (firsts key seen).map key :=
    (firsts_keys seen _).mpr (List.mem_map_of_mem member)
  obtain ⟨first, kept, same⟩ := List.mem_map.mp known
  have found := mem_firsts.mp kept
  rw [same] at found
  exact ⟨first, kept, same, found⟩

end OsClientCerts.FirstSeen
