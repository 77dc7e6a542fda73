import Mathlib.Data.List.Basic
import Mathlib.Data.List.Perm.Basic

/-!
Text made of blocks, each a heading and the lines below it. A reader that opens a
block at every heading and closes the one before it has read the blocks; within a
block, the last line that tells something about a field decides it.
-/

namespace OsClientCerts.HeadedBlocks
variable {Line Name Value σ : Type}

structure Block (Line Name : Type) where
  name : Name
  lines : List Line
  deriving DecidableEq

def divide (heading : Line → Option Name) : List Line → List Line × List (Block Line Name)
  | [] => ([], [])
  | line :: rest =>
      let (front, blocks) := divide heading rest
      match heading line with
      | none => (line :: front, blocks)
      | some name => ([], ⟨name, front⟩ :: blocks)

section
variable {heading : Line → Option Name}

theorem divide_line {line : Line} (plain : heading line = none) (rest : List Line) :
    divide heading (line :: rest) =
      (line :: (divide heading rest).1, (divide heading rest).2) := by
  rw [divide, plain]

theorem divide_heading {line : Line} {name : Name} (headed : heading line = some name)
    (rest : List Line) : divide heading (line :: rest) =
      ([], ⟨name, (divide heading rest).1⟩ :: (divide heading rest).2) := by
  rw [divide, headed]

end

section Reading
variable (heading : Line → Option Name) (opened : Name → σ) (take : σ → Line → σ)

/-- One line: a heading ends the block before it. -/
def readLine (state : List σ × Option σ) (line : Line) : List σ × Option σ :=
  match heading line with
  | some name => (state.1 ++ state.2.toList, some (opened name))
  | none => (state.1, state.2.map fun current => take current line)

def taken (block : Block Line Name) : σ := block.lines.foldl take (opened block.name)

theorem read_lines (lines : List Line) (done : List σ) (current : Option σ) :
    let state := lines.foldl (readLine heading opened take) (done, current)
    state.1 ++ state.2.toList =
      done ++ (current.map fun before => (divide heading lines).1.foldl take before).toList ++
        (divide heading lines).2.map (taken opened take) := by
  induction lines generalizing done current with
  | nil => cases current <;> simp [divide]
  | cons line rest ih =>
      cases headed : heading line with
      | none =>
          rw [List.foldl_cons, readLine, headed, divide_line headed]
          dsimp only
          rw [ih]
          cases current <;> rfl
      | some name =>
          rw [List.foldl_cons, readLine, headed, divide_heading headed]
          dsimp only
          rw [ih]
          simp [taken]

/-- The reader has read the blocks, each by itself. -/
theorem read_blocks (lines : List Line) :
    (lines.foldl (readLine heading opened take) ([], none)).1 ++
        (lines.foldl (readLine heading opened take) ([], none)).2.toList =
      (divide heading lines).2.map (taken opened take) := by
  have whole := read_lines heading opened take lines [] none
  simpa using whole

end Reading

def last (tells : Line → Option Value) (lines : List Line) : Option Value :=
  (lines.filterMap tells).getLast?

section Last
variable {tells : Line → Option Value}

theorem last_cons (line : Line) (lines : List Line) :
    last tells (line :: lines) = (last tells lines).or (tells line) := by
  unfold last
  cases said : tells line with
  | none => rw [List.filterMap_cons_none said, Option.or_none]
  | some value =>
      rw [List.filterMap_cons_some said]
      cases rest : (lines.filterMap tells).getLast? with
      | none =>
          rw [List.getLast?_eq_none_iff] at rest
          rw [rest]
          rfl
      | some other =>
          rw [List.getLast?_cons, rest]
          rfl

theorem last_decides {Field : Type} {take : σ → Line → σ} {field : σ → Field}
    {set : Value → Field} (inv : σ → Prop)
    (kept : ∀ state line, inv state → inv (take state line))
    (sets : ∀ state line, inv state →
      field (take state line) = ((tells line).map set).getD (field state))
    (lines : List Line) {state : σ} (holds : inv state) :
    field (lines.foldl take state) = ((last tells lines).map set).getD (field state) := by
  -- Each line that tells something about the field sets it.
  induction lines generalizing state with
  | nil => rfl
  | cons line rest ih =>
      rw [List.foldl_cons, ih (kept state line holds), sets state line holds, last_cons]
      cases last tells rest <;> rfl

theorem last_perm {lines other : List Line} (reordered : other.Perm lines)
    (once : (lines.filterMap tells).length ≤ 1) : last tells other = last tells lines := by
  -- Where no two lines say something, their order does not matter.
  have same := reordered.filterMap tells
  have none_or_one : ∀ values : List Value, values.length ≤ 1 →
      (other.filterMap tells).Perm values → other.filterMap tells = values := by
    intro values short perm
    match values, short with
    | [], _ => exact List.perm_nil.mp perm
    | [value], _ => exact List.perm_singleton.mp perm
  rw [last, last, none_or_one _ once same]

end Last

def First (property : Value → Prop) (values : List Value) (found : Value) : Prop :=
  property found ∧ ∃ earlier later, values = earlier ++ found :: later ∧
    ∀ other ∈ earlier, ¬ property other

theorem find_first {test : Value → Bool} {property : Value → Prop} {values : List Value}
    (same : ∀ value, test value = true ↔ property value) {found : Value} :
    values.find? test = some found ↔ First property values found := by
  rw [List.find?_eq_some_iff_append, First, same]
  simp only [Bool.not_eq_true', ← Bool.not_eq_true, same]

theorem find_none {test : Value → Bool} {property : Value → Prop} {values : List Value}
    (same : ∀ value, test value = true ↔ property value) :
    values.find? test = none ↔ ∀ value ∈ values, ¬ property value := by
  simp only [List.find?_eq_none, same]

theorem First.mem {property : Value → Prop} {values : List Value} {found : Value}
    (first : First property values found) : found ∈ values := by
  obtain ⟨_, earlier, later, rfl, _⟩ := first
  exact List.mem_append_right _ List.mem_cons_self

theorem first_unique {property : Value → Prop} {values : List Value} {found other : Value}
    (first : First property values found) (too : First property values other) : other = found := by
  classical
  have decided (value : Value) : decide (property value) = true ↔ property value :=
    decide_eq_true_iff
  exact Option.some.inj (((find_first decided).mpr too).symm.trans ((find_first decided).mpr first))

theorem First.strengthen {weak strong : Value → Prop} {values : List Value} {found : Value}
    (weaker : ∀ value, strong value → weak value) (first : First weak values found)
    (holds : strong found) : First strong values found := by
  obtain ⟨_, earlier, later, split, before⟩ := first
  exact ⟨holds, earlier, later, split, fun other member has => before other member
    (weaker other has)⟩

end OsClientCerts.HeadedBlocks
