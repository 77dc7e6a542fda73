import Mathlib.Data.List.Induction

/-!
Components of a system that behave like automata of their own. A component has a
view of the system state; only some events reach it, and those it answers from
its view alone. Whatever runs in between, its answers are then a function of the
inputs that reached it. The second half follows one kind of component, a buffer
that is started, appended to and ended, back to the event that started it.
-/

namespace OsClientCerts.LocalAutomata

variable {σ E A N O : Type}

def after (step : E → σ → σ) (run : List E) (state : σ) : σ :=
  run.foldl (fun current event => step event current) state

@[simp] theorem after_nil (step : E → σ → σ) (state : σ) : after step [] state = state := rfl

@[simp] theorem after_cons (step : E → σ → σ) (event : E) (rest : List E) (state : σ) :
    after step (event :: rest) state = after step rest (step event state) := rfl

theorem after_append (step : E → σ → σ) (first second : List E) (state : σ) :
    after step (first ++ second) state = after step second (after step first state) := by
  simp [after, List.foldl_append]

theorem after_concat (step : E → σ → σ) (run : List E) (event : E) (state : σ) :
    after step (run ++ [event]) state = step event (after step run state) :=
  after_append step run [event] state

/-- The run rule for one run: what its own steps preserve holds at its every point. -/
theorem along_run {step : E → σ → σ} {holds : σ → Prop} {run : List E} {state : σ}
    (first : holds state)
    (preserved : ∀ earlier event later, run = earlier ++ event :: later →
      holds (after step earlier state) → holds (step event (after step earlier state))) :
    ∀ earlier later, run = earlier ++ later → holds (after step earlier state) := by
  intro earlier
  induction earlier using List.reverseRec with
  | nil => intro later _; exact first
  | append_singleton earlier event ih =>
      intro later split
      have shorter : run = earlier ++ event :: later := by simpa using split
      rw [after_append]
      exact preserved earlier event later shorter (ih (event :: later) shorter)

structure Component (σ E A N O : Type) where
  step : E → σ → σ
  view : σ → A
  input : E → σ → Option N
  output : E → σ → Option O
  react : N → A → Option O × A

namespace Component
variable (component : Component σ E A N O)

def inputs : List E → σ → List N
  | [], _ => []
  | event :: rest, state =>
      (component.input event state).toList ++ inputs rest (component.step event state)

def outputs : List E → σ → List O
  | [], _ => []
  | event :: rest, state =>
      (component.output event state).toList ++ outputs rest (component.step event state)

def reactions : List N → A → List O × A
  | [], view => ([], view)
  | given :: rest, view =>
      let (answer, next) := component.react given view
      let (answers, last) := reactions rest next
      (answer.toList ++ answers, last)

/-- An event that does not reach the component leaves its view alone and gets no
answer; one that does is answered by the automaton. -/
def Simulates : Prop :=
  ∀ event state, match component.input event state with
    | none => component.view (component.step event state) = component.view state ∧
        component.output event state = none
    | some given =>
        component.view (component.step event state) =
          (component.react given (component.view state)).2 ∧
        component.output event state = (component.react given (component.view state)).1

variable {component}

theorem run_reactions (simulates : component.Simulates) (run : List E) (state : σ) :
    component.reactions (component.inputs run state) (component.view state) =
      (component.outputs run state, component.view (after component.step run state)) := by
  induction run generalizing state with
  | nil => rfl
  | cons event rest ih =>
      have head := simulates event state
      have tail := ih (component.step event state)
      cases reached : component.input event state with
      | none =>
          simp only [reached] at head
          simp only [inputs, outputs, reached, head.2, Option.toList_none, List.nil_append,
            after_cons]
          rw [← head.1]
          exact tail
      | some given =>
          simp only [reached] at head
          simp only [inputs, outputs, reached, Option.toList_some, List.singleton_append,
            reactions, after_cons, head.2]
          rw [← head.1, tail]

end Component

/-- What an event does to a buffer opened with some `A` and holding data `D`. -/
inductive Effect (A D : Type) where
  | keep
  | start (opened : A)
  | append (data : List D)
  | stop

namespace Effect
variable {D : Type}

def apply : Effect A D → Option (A × List D) → Option (A × List D)
  | .keep, buffer => buffer
  | .start opened, _ => some (opened, [])
  | .append data, buffer => buffer.map fun (opened, held) => (opened, held ++ data)
  | .stop, _ => none

def appended : Effect A D → List D
  | .append data => data
  | _ => []

def continues : Effect A D → Bool
  | .keep | .append _ => true
  | .start _ | .stop => false

end Effect

section Buffer
variable {D : Type} (step : E → σ → σ) (effect : E → σ → Effect A D)

def collected : List E → σ → List D
  | [], _ => []
  | event :: rest, state => (effect event state).appended ++ collected rest (step event state)

def Continues : List E → σ → Prop
  | [], _ => True
  | event :: rest, state =>
      (effect event state).continues = true ∧ Continues rest (step event state)

/-- Since its last start the buffer was only appended to: it was opened by an
event of the run, or was already open before it. -/
def Accumulated (run : List E) (state : σ) (opened : A) (held : List D) : Prop :=
  ∃ earlier event later, run = earlier ++ event :: later ∧
    effect event (after step earlier state) = .start opened ∧
    Continues step effect later (step event (after step earlier state)) ∧
    held = collected step effect later (step event (after step earlier state))

variable {step effect}

theorem accumulated_or_held {view : σ → Option (A × List D)}
    (faithful : ∀ event state, view (step event state) = (effect event state).apply (view state))
    (run : List E) (state : σ) {opened : A} {held : List D}
    (active : view (after step run state) = some (opened, held)) :
    Accumulated step effect run state opened held ∨
      ∃ before, view state = some (opened, before) ∧ Continues step effect run state ∧
        held = before ++ collected step effect run state := by
  induction run generalizing state with
  | nil => exact Or.inr ⟨held, active, trivial, by simp [collected]⟩
  | cons event rest ih =>
      rcases ih (step event state) active with
        ⟨earlier, opening, later, split, started, going, data⟩ | ⟨before, holding, going, data⟩
      · exact Or.inl ⟨event :: earlier, opening, later, by simp [split], started, going, data⟩
      -- The rest of the run only appended; what the first event did decides.
      · rw [faithful] at holding
        cases happened : effect event state with
        | keep =>
            rw [happened] at holding
            exact Or.inr ⟨before, holding, ⟨by simp [happened, Effect.continues], going⟩,
              by simp [collected, happened, Effect.appended, data]⟩
        | start reopened =>
            simp only [happened, Effect.apply, Option.some.injEq, Prod.mk.injEq] at holding
            obtain ⟨rfl, rfl⟩ := holding
            exact Or.inl ⟨[], event, rest, rfl, happened, going, by simpa using data⟩
        | append more =>
            simp only [happened, Effect.apply, Option.map_eq_some_iff, Prod.mk.injEq] at holding
            obtain ⟨⟨first, kept⟩, holding, rfl, rfl⟩ := holding
            exact Or.inr ⟨kept, holding, ⟨by simp [happened, Effect.continues], going⟩,
              by simp [collected, happened, Effect.appended, data]⟩
        | stop => simp [happened, Effect.apply] at holding

/-- A buffer that was closed at first was opened by some event of the run, and
holds exactly what was appended since. -/
theorem accumulated {view : σ → Option (A × List D)}
    (faithful : ∀ event state, view (step event state) = (effect event state).apply (view state))
    (run : List E) (state : σ) (closed : view state = none) {opened : A} {held : List D}
    (active : view (after step run state) = some (opened, held)) :
    Accumulated step effect run state opened held := by
  rcases accumulated_or_held faithful run state active with found | ⟨before, holding, _⟩
  · exact found
  · rw [closed] at holding
    cases holding

theorem continues_view {view : σ → Option (A × List D)}
    (faithful : ∀ event state, view (step event state) = (effect event state).apply (view state))
    (run : List E) (state : σ) {opened : A} {held : List D}
    (holding : view state = some (opened, held)) (going : Continues step effect run state) :
    view (after step run state) = some (opened, held ++ collected step effect run state) := by
  induction run generalizing state held with
  | nil => simpa [collected] using holding
  | cons event rest ih =>
      obtain ⟨stays, later⟩ := going
      have next := faithful event state
      cases happened : effect event state with
      | keep =>
          rw [happened, holding] at next
          simpa [collected, happened, Effect.appended] using ih _ next later
      | append more =>
          rw [happened, holding] at next
          simpa [collected, happened, Effect.appended] using ih _ next later
      | start reopened => simp [happened, Effect.continues] at stays
      | stop => simp [happened, Effect.continues] at stays

/-- What has accumulated is what the buffer holds. -/
theorem accumulated_view {view : σ → Option (A × List D)}
    (faithful : ∀ event state, view (step event state) = (effect event state).apply (view state))
    {run : List E} {state : σ} {opened : A} {held : List D}
    (found : Accumulated step effect run state opened held) :
    view (after step run state) = some (opened, held) := by
  obtain ⟨earlier, event, later, rfl, started, going, rfl⟩ := found
  rw [after_append, after_cons]
  have fresh : view (step event (after step earlier state)) = some (opened, []) := by
    rw [faithful, started]
    rfl
  simpa using continues_view faithful later _ fresh going

end Buffer
end OsClientCerts.LocalAutomata
