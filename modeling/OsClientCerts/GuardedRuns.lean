import OsClientCerts.LocalAutomata

/-!
Runs whose steps all meet a condition, on the event and on the state it happens in.
What such steps preserve holds after the run, and a run that does not meet the condition
has a first step that does not; so a condition on the steps may be exact for a property of
the runs.
-/

namespace OsClientCerts.GuardedRuns
open LocalAutomata

variable {σ E : Type} (step : E → σ → σ) (ok : E → σ → Prop)

def Meets : List E → σ → Prop
  | [], _ => True
  | event :: rest, state => ok event state ∧ Meets rest (step event state)

variable {step ok}

theorem meets_append {earlier later : List E} {state : σ} :
    Meets step ok (earlier ++ later) state ↔
      Meets step ok earlier state ∧ Meets step ok later (after step earlier state) := by
  induction earlier generalizing state with
  | nil => simp [Meets]
  | cons event rest ih => simp [Meets, ih, and_assoc]

/-- The run rule. -/
theorem meets_preserved {holds : σ → Prop}
    (preserved : ∀ event state, holds state → ok event state → holds (step event state))
    {run : List E} {state : σ} (meets : Meets step ok run state) (first : holds state) :
    holds (after step run state) := by
  induction run generalizing state with
  | nil => exact first
  | cons event rest ih => exact ih meets.2 (preserved event state first meets.1)

theorem always_preserved {holds : σ → Prop}
    (preserved : ∀ event state, holds state → holds (step event state)) (run : List E)
    {state : σ} (first : holds state) : holds (after step run state) := by
  induction run generalizing state with
  | nil => exact first
  | cons event rest ih => exact ih (preserved event state first)

theorem first_violation {run : List E} {state : σ} (violated : ¬Meets step ok run state) :
    ∃ earlier event later, run = earlier ++ event :: later ∧ Meets step ok earlier state ∧
      ¬ok event (after step earlier state) := by
  induction run generalizing state with
  | nil => exact absurd trivial violated
  | cons event rest ih =>
      by_cases here : ok event state
      · obtain ⟨earlier, other, later, rfl, meets, bad⟩ :=
          ih fun meets => violated ⟨here, meets⟩
        exact ⟨event :: earlier, other, later, rfl, ⟨here, meets⟩, bad⟩
      · exact ⟨[], event, rest, rfl, trivial, here⟩

section
variable {good holds broken : σ → Prop}

/-- A condition is exact for what holds at every point of a run if the steps that meet it
keep the invariant and every other step ends outside. -/
theorem always_iff_meets
    (kept : ∀ event state, good state → ok event state → good (step event state))
    (inside : ∀ state, good state → holds state)
    (outside : ∀ event state, good state → ¬ok event state → ¬holds (step event state))
    (run : List E) {state : σ} (first : good state) :
    (∀ earlier later, run = earlier ++ later → holds (after step earlier state)) ↔
      Meets step ok run state := by
  constructor
  · intro always
    by_contra violated
    obtain ⟨earlier, event, later, rfl, meets, bad⟩ := first_violation violated
    apply outside event _ (meets_preserved kept meets first) bad
    rw [← after_concat step earlier event state]
    exact always (earlier ++ [event]) later (by simp)
  · rintro meets earlier later rfl
    exact inside _ (meets_preserved kept (meets_append.mp meets).1 first)

/-- A run that ends unbroken meets the condition if every other step breaks the state for
good. -/
theorem meets_of_unbroken
    (kept : ∀ event state, good state → ok event state → good (step event state))
    (breaks : ∀ event state, good state → ¬ok event state → broken (step event state))
    (stays : ∀ event state, broken state → broken (step event state)) {run : List E} {state : σ}
    (first : good state) (unbroken : ¬broken (after step run state)) : Meets step ok run state := by
  by_contra violated
  obtain ⟨earlier, event, later, rfl, meets, bad⟩ := first_violation violated
  rw [after_append, after_cons] at unbroken
  exact unbroken (always_preserved stays later
    (breaks event _ (meets_preserved kept meets first) bad))

end

/-!
Events that a smaller system answers, by the part of the state it keeps; all others leave
that part alone. -/

section
variable {τ F : Type} {small : F → τ → τ} {allowed : F → τ → Prop} {translate : E → Option F}
  {project : σ → τ}

theorem after_project
    (simulates : ∀ event state, project (step event state) =
      (translate event).elim (project state) fun other => small other (project state))
    (run : List E) (state : σ) : project (after step run state) =
      after small (run.filterMap translate) (project state) := by
  induction run generalizing state with
  | nil => rfl
  | cons event rest ih =>
      rw [after_cons, ih, simulates]
      cases answered : translate event with
      | none => simp [answered]
      | some other => simp [answered]

theorem meets_project
    (simulates : ∀ event state, project (step event state) =
      (translate event).elim (project state) fun other => small other (project state))
    (conditions : ∀ event state, ok event state ↔
      (translate event).elim True fun other => allowed other (project state))
    {run : List E} {state : σ} : Meets step ok run state ↔
      Meets small allowed (run.filterMap translate) (project state) := by
  induction run generalizing state with
  | nil => simp [Meets]
  | cons event rest ih =>
      rw [Meets, ih, simulates, conditions]
      cases answered : translate event with
      | none => simp [answered]
      | some other => simp [answered, Meets]

/-- Events that two states need not share leave them in agreement, and so do the others. -/
theorem after_filter {agree : σ → σ → Prop} {keeps : E → Bool}
    (shared : ∀ event first second, keeps event = true → agree first second →
      agree (step event first) (step event second))
    (skipped : ∀ event first second, keeps event = false → agree first second →
      agree (step event first) second)
    (run : List E) {first second : σ} (agrees : agree first second) :
    agree (after step run first) (after step (run.filter keeps) second) := by
  induction run generalizing first second with
  | nil => exact agrees
  | cons event rest ih =>
      cases keep : keeps event with
      | true =>
          rw [List.filter_cons_of_pos keep]
          exact ih (shared event first second keep agrees)
      | false =>
          rw [List.filter_cons_of_neg (by simp [keep])]
          exact ih (skipped event first second keep agrees)

end

def Since (step : E → σ → σ) (hit : E → σ → Prop) (reset : E → Prop) (run : List E)
    (state : σ) : Prop :=
  ∃ earlier event later, run = earlier ++ event :: later ∧ hit event (after step earlier state) ∧
    ∀ other ∈ later, ¬reset other

theorem since_append_singleton {hit : E → σ → Prop} {reset : E → Prop} {run : List E} {event : E}
    {state : σ} : Since step hit reset (run ++ [event]) state ↔
      hit event (after step run state) ∨ Since step hit reset run state ∧ ¬reset event := by
  constructor
  · rintro ⟨earlier, first, later, split, happened, quiet⟩
    cases later using List.reverseRec with
    | nil =>
        obtain ⟨rfl, same⟩ := List.append_inj' split rfl
        exact Or.inl (List.singleton_inj.mp same ▸ happened)
    | append_singleton before last =>
        rw [← List.cons_append, ← List.append_assoc] at split
        obtain ⟨rfl, same⟩ := List.append_inj' split rfl
        obtain rfl := List.singleton_inj.mp same
        have calm : ∀ other ∈ before, ¬reset other :=
          fun other member => quiet other (List.mem_append_left _ member)
        exact Or.inr ⟨⟨earlier, first, before, rfl, happened, calm⟩, quiet event (by simp)⟩
  · rintro (happened | ⟨⟨earlier, first, later, rfl, happened, quiet⟩, calm⟩)
    · exact ⟨run, event, [], rfl, happened, fun _ member => absurd member List.not_mem_nil⟩
    · refine ⟨earlier, first, later ++ [event], by simp, happened, fun other member => ?_⟩
      rcases List.mem_append.mp member with before | last
      · exact quiet other before
      · exact List.mem_singleton.mp last ▸ calm

theorem get_append_singleton {items : List σ} {last item : σ} {index : Nat}
    (held : (items ++ [last])[index]? = some item) :
    items[index]? = some item ∨ index = items.length ∧ item = last := by
  rw [List.getElem?_append] at held
  split at held
  · exact Or.inl held
  · obtain ⟨inside, same⟩ := List.getElem?_eq_some_iff.mp held
    simp only [List.length_cons, List.length_nil] at inside
    exact Or.inr ⟨by omega, by simpa using same.symm⟩

theorem map_set_same {α : Type} (view : σ → α) {items : List σ} {index : Nat} {old new : σ}
    (found : items[index]? = some old) (same : view new = view old) :
    (items.set index new).map view = items.map view := by
  obtain ⟨inside, held⟩ := List.getElem?_eq_some_iff.mp found
  have kept : (items.map view).get ⟨index, by simpa using inside⟩ = view new := by
    simp [held, same]
  rw [List.map_set, ← kept, List.get_eq_getElem, List.set_getElem_self]

theorem get_modify {items : List σ} {change : σ → σ} {index place : Nat} {item : σ}
    (held : (items.modify index change)[place]? = some item) :
    (index = place ∧ ∃ before, items[place]? = some before ∧ item = change before) ∨
      index ≠ place ∧ items[place]? = some item := by
  by_cases same : index = place
  · subst same
    rw [List.getElem?_modify_eq, Option.map_eq_map, Option.map_eq_some_iff] at held
    obtain ⟨before, found, rfl⟩ := held
    exact Or.inl ⟨rfl, before, found, rfl⟩
  · rw [List.getElem?_modify_ne _ _ same] at held
    exact Or.inr ⟨same, held⟩

theorem forall_mem_modify {holds : σ → Prop} {items : List σ} {change : σ → σ} {index : Nat}
    (all : ∀ item ∈ items, holds item)
    (changed : ∀ item, items[index]? = some item → holds (change item)) :
    ∀ item ∈ items.modify index change, holds item := by
  intro item member
  obtain ⟨place, found⟩ := List.mem_iff_getElem?.mp member
  rcases get_modify found with ⟨rfl, before, earlier, rfl⟩ | ⟨_, earlier⟩
  · exact changed before earlier
  · exact all item (List.mem_of_getElem? earlier)

end OsClientCerts.GuardedRuns
