import Mathlib.Logic.Function.Basic
import Mathlib.Data.List.Basic

/-!
Interactive programs over a shared component. A program is either finished or
waits for the answer to one atomic call; a handler says how the component
answers. Tasks run by several threads interleave at the calls only, so every
finished task is determined by the answers recorded along its own calls.
-/

namespace OsClientCerts.Resumption

structure Signature where
  Call : Type
  Answer : Call → Type

inductive Prog (S : Signature) (α : Type) where
  | ret (value : α)
  | call (request : S.Call) (next : S.Answer request → Prog S α)

variable {S : Signature} {α β : Type}

def Prog.bind : Prog S α → (α → Prog S β) → Prog S β
  | .ret value, next => next value
  | .call request rest, next => .call request fun answer => (rest answer).bind next

instance : Monad (Prog S) where
  pure := .ret
  bind := Prog.bind

@[simp] theorem pure_eq (value : α) : (pure value : Prog S α) = .ret value := rfl

@[simp] theorem ret_bind (value : α) (next : α → Prog S β) :
    (Prog.ret value >>= next) = next value := rfl

@[simp] theorem call_bind (request : S.Call) (rest : S.Answer request → Prog S α)
    (next : α → Prog S β) :
    (Prog.call request rest >>= next) = .call request fun answer => rest answer >>= next := rfl

def Prog.Ensures (post : α → Prop) : Prog S α → Prop
  | .ret value => post value
  | .call _ next => ∀ answer, (next answer).Ensures post

@[simp] theorem ensures_ret {post : α → Prop} {value : α} :
    (Prog.ret value : Prog S α).Ensures post ↔ post value := Iff.rfl

@[simp] theorem ensures_call {post : α → Prop} {request : S.Call}
    {next : S.Answer request → Prog S α} :
    (Prog.call request next).Ensures post ↔ ∀ answer, (next answer).Ensures post := Iff.rfl

theorem Prog.Ensures.mono {strict loose : α → Prop} (weaker : ∀ value, strict value → loose value)
    {program : Prog S α} (ensures : program.Ensures strict) : program.Ensures loose := by
  induction program with
  | ret value => exact weaker value ensures
  | call request next ih => exact fun answer => ih answer (ensures answer)

theorem ensures_bind {middle : α → Prop} {post : β → Prop} {first : Prog S α}
    {next : α → Prog S β} (held : first.Ensures middle)
    (then_ : ∀ value, middle value → (next value).Ensures post) : (first >>= next).Ensures post := by
  induction first with
  | ret value => exact then_ value held
  | call request rest ih => exact fun answer => ih answer (held answer)

def Prog.Asks (allowed : S.Call → Prop) : Prog S α → Prop
  | .ret _ => True
  | .call request next => allowed request ∧ ∀ answer, (next answer).Asks allowed

theorem asks_bind {allowed : S.Call → Prop} {first : Prog S α} {next : α → Prog S β}
    (asks : first.Asks allowed) (goesOn : ∀ value, (next value).Asks allowed) :
    (first >>= next).Asks allowed := by
  induction first with
  | ret value => exact goesOn value
  | call request rest ih => exact ⟨asks.1, fun answer => ih answer (asks.2 answer)⟩

/-- One atomic answer of the component, given what its surroundings (`ω`) do
during that call. -/
abbrev Handler (S : Signature) (σ ω : Type) :=
  ω → (request : S.Call) → σ → S.Answer request × σ

structure Event (S : Signature) (σ ω : Type) where
  oracle : ω
  request : S.Call
  before : σ

section Execution
variable {σ ω : Type} (handler : Handler S σ ω)

def Event.answer (event : Event S σ ω) : S.Answer event.request :=
  (handler event.oracle event.request event.before).1

def Event.after (event : Event S σ ω) : σ :=
  (handler event.oracle event.request event.before).2

/-- `Residue first events rest`: after the recorded answers `first` has become `rest`. -/
inductive Residue (first : Prog S α) : List (Event S σ ω) → Prog S α → Prop where
  | start : Residue first [] first
  | step {events : List (Event S σ ω)} (event : Event S σ ω)
      (next : S.Answer event.request → Prog S α) :
      Residue first events (.call event.request next) →
      Residue first (events ++ [event]) (next (event.answer handler))

def Follows (first : Prog S α) (events : List (Event S σ ω)) (value : α) : Prop :=
  Residue handler first events (.ret value)

theorem residue_call_cases {request : S.Call} {next : S.Answer request → Prog S α}
    {events : List (Event S σ ω)} {rest : Prog S α}
    (residue : Residue handler (.call request next) events rest) :
    (events = [] ∧ rest = .call request next) ∨
      ∃ (oracle : ω) (before : σ) (tail : List (Event S σ ω)),
        events = ⟨oracle, request, before⟩ :: tail ∧
          Residue handler (next (handler oracle request before).1) tail rest := by
  induction residue with
  | start => exact Or.inl ⟨rfl, rfl⟩
  | step event following previous ih =>
      rcases ih with ⟨empty, same⟩ | ⟨oracle, before, tail, recorded, later⟩
      · subst empty
        rcases event with ⟨oracle, made, before⟩
        obtain ⟨rfl, sameNext⟩ := Prog.call.inj same
        cases sameNext
        exact Or.inr ⟨oracle, before, [], rfl, .start⟩
      · refine Or.inr ⟨oracle, before, tail ++ [event], by simp [recorded], ?_⟩
        exact .step event following later

theorem residue_ret {value : α} {events : List (Event S σ ω)} {rest : Prog S α}
    (residue : Residue handler (.ret value) events rest) :
    events = [] ∧ rest = .ret value := by
  induction residue with
  | start => exact ⟨rfl, rfl⟩
  | step event following _ ih => cases ih.2

theorem follows_ret {value result : α} {events : List (Event S σ ω)} :
    Follows handler (.ret value) events result ↔ events = [] ∧ result = value := by
  constructor
  · intro follows
    obtain ⟨empty, same⟩ := residue_ret handler follows
    exact ⟨empty, by cases same; rfl⟩
  · rintro ⟨rfl, rfl⟩
    exact .start

theorem follows_call {request : S.Call} {next : S.Answer request → Prog S α}
    {events : List (Event S σ ω)} {result : α}
    (follows : Follows handler (.call request next) events result) :
    ∃ (oracle : ω) (before : σ) (tail : List (Event S σ ω)),
      events = ⟨oracle, request, before⟩ :: tail ∧
        Follows handler (next (handler oracle request before).1) tail result := by
  rcases residue_call_cases handler follows with ⟨_, same⟩ | later
  · cases same
  · exact later

/-- What a program ensures holds at the end of each of its executions. -/
theorem follows_ensures {program : Prog S α} {post : α → Prop} (ensures : program.Ensures post)
    {events : List (Event S σ ω)} {value : α} (follows : Follows handler program events value) :
    post value := by
  induction program generalizing events with
  | ret result =>
      obtain ⟨_, rfl⟩ := (follows_ret handler).mp follows
      exact ensures
  | call request next ih =>
      obtain ⟨oracle, before, tail, _, rest⟩ := follows_call handler follows
      exact ih _ (ensures _) rest

theorem residue_cons {request : S.Call} {next : S.Answer request → Prog S α} (oracle : ω)
    (before : σ) {tail : List (Event S σ ω)} {rest : Prog S α}
    (residue : Residue handler (next (handler oracle request before).1) tail rest) :
    Residue handler (.call request next) (⟨oracle, request, before⟩ :: tail) rest := by
  induction residue with
  | start => exact .step ⟨oracle, request, before⟩ next .start
  | step event following _ ih => exact .step event following ih

/-- The sequential execution: one thread, nothing in between. The stream gives
what the surroundings do during each call. -/
def execute : Prog S α → (Nat → ω) → σ → α × σ
  | .ret value, _, state => (value, state)
  | .call request next, surroundings, state =>
      let (answer, after) := handler (surroundings 0) request state
      execute (next answer) (fun n => surroundings (n + 1)) after

def executeEvents : Prog S α → (Nat → ω) → σ → List (Event S σ ω)
  | .ret _, _, _ => []
  | .call request next, surroundings, state =>
      let (answer, after) := handler (surroundings 0) request state
      ⟨surroundings 0, request, state⟩ ::
        executeEvents (next answer) (fun n => surroundings (n + 1)) after

@[simp] theorem execute_ret (value : α) (surroundings : Nat → ω) (state : σ) :
    execute handler (.ret value : Prog S α) surroundings state = (value, state) := rfl

theorem execute_follows (program : Prog S α) (surroundings : Nat → ω) (state : σ) :
    Follows handler program (executeEvents handler program surroundings state)
      (execute handler program surroundings state).1 := by
  induction program generalizing surroundings state with
  | ret value => exact .start
  | call request next ih => exact residue_cons handler _ _ (ih _ _ _)

theorem execute_oracles (program : Prog S α) (surroundings : Nat → ω) (state : σ) :
    (executeEvents handler program surroundings state).map Event.oracle =
      (List.range (executeEvents handler program surroundings state).length).map surroundings := by
  induction program generalizing surroundings state with
  | ret value => rfl
  | call request next ih =>
      simp only [executeEvents, List.map_cons, List.length_cons, List.range_succ_eq_map,
        List.map_map, ih]
      rfl

end Execution

/-! Threads. A run is a list of moves; each thread works on one task at a time
and the component changes only at calls. -/
section Interleaving
variable {ι T ω σ : Type} [DecidableEq ι]

structure Running (S : Signature) (σ ω T α : Type) where
  task : T
  rest : Prog S α
  events : List (Event S σ ω)

structure Finished (S : Signature) (σ ω T α : Type) where
  task : T
  value : α
  events : List (Event S σ ω)

structure Config (S : Signature) (ι σ ω T α : Type) where
  shared : σ
  running : ι → Option (Running S σ ω T α)
  finished : List (Finished S σ ω T α)
  history : List (Event S σ ω)

inductive Move (ι T ω : Type) where
  | begin (thread : ι) (task : T)
  | advance (thread : ι) (oracle : ω)
  | finish (thread : ι)

variable (handler : Handler S σ ω) (program : T → Prog S α)

def move (config : Config S ι σ ω T α) : Move ι T ω → Option (Config S ι σ ω T α)
  | .begin thread task =>
      match config.running thread with
      | some _ => none
      | none => some { config with
          running := Function.update config.running thread (some ⟨task, program task, []⟩) }
  | .advance thread oracle =>
      match config.running thread with
      | some ⟨task, .call request next, events⟩ =>
          let event : Event S σ ω := ⟨oracle, request, config.shared⟩
          some { config with
            shared := event.after handler
            running := Function.update config.running thread
              (some ⟨task, next (event.answer handler), events ++ [event]⟩)
            history := config.history ++ [event] }
      | _ => none
  | .finish thread =>
      match config.running thread with
      | some ⟨task, .ret value, events⟩ => some { config with
          running := Function.update config.running thread none
          finished := ⟨task, value, events⟩ :: config.finished }
      | _ => none

def initial (shared : σ) : Config S ι σ ω T α := ⟨shared, fun _ => none, [], []⟩

/-- Reached by moves each of which meets `ok` in the configuration it is made in. -/
inductive Reachable (ok : Config S ι σ ω T α → Move ι T ω → Prop)
    (start : Config S ι σ ω T α) : Config S ι σ ω T α → Prop where
  | start : Reachable ok start start
  | next {before after : Config S ι σ ω T α} (step : Move ι T ω) :
      Reachable ok start before → ok before step →
      move handler program before step = some after → Reachable ok start after

/-- `allowed task earlier event` is asked of the next event of a task whose own
events so far are `earlier`. The other moves are free. -/
def Admits (allowed : T → List (Event S σ ω) → Event S σ ω → Prop)
    (config : Config S ι σ ω T α) : Move ι T ω → Prop
  | .advance thread oracle => ∀ task request next events,
      config.running thread = some ⟨task, .call request next, events⟩ →
      allowed task events ⟨oracle, request, config.shared⟩
  | _ => True

omit [DecidableEq ι] in
theorem admits_mono {strict loose : T → List (Event S σ ω) → Event S σ ω → Prop}
    (weaker : ∀ task earlier event, strict task earlier event → loose task earlier event)
    {config : Config S ι σ ω T α} {step : Move ι T ω} (admits : Admits strict config step) :
    Admits loose config step := by
  cases step with
  | advance thread oracle =>
      exact fun task request next events busy =>
        weaker _ _ _ (admits task request next events busy)
  | _ => trivial

def passes (check : Event S σ ω → Bool) (config : Config S ι σ ω T α) : Move ι T ω → Bool
  | .advance thread oracle =>
      match config.running thread with
      | some ⟨_, .call request _, _⟩ => check ⟨oracle, request, config.shared⟩
      | _ => true
  | _ => true

omit [DecidableEq ι] in
theorem admits_of_passes {check : Event S σ ω → Bool} {config : Config S ι σ ω T α}
    {step : Move ι T ω} (passed : passes check config step = true) :
    Admits (fun _ _ event => check event = true) config step := by
  cases step with
  | advance thread oracle =>
      intro task request next events busy
      simpa only [passes, busy] using passed
  | _ => trivial

def play (check : Event S σ ω → Bool) :
    List (Move ι T ω) → Config S ι σ ω T α → Option (Config S ι σ ω T α)
  | [], config => some config
  | step :: rest, config =>
      if passes check config step then (move handler program config step).bind (play check rest)
      else none

inductive Admitted (allowed : List (Event S σ ω) → Event S σ ω → Prop) :
    List (Event S σ ω) → Prop where
  | nil : Admitted allowed []
  | snoc {events : List (Event S σ ω)} {event : Event S σ ω} :
      Admitted allowed events → allowed events event → Admitted allowed (events ++ [event])

theorem admitted_pair {allowed : List (Event S σ ω) → Event S σ ω → Prop}
    {first second : Event S σ ω} (admitted : Admitted allowed [first, second]) :
    allowed [] first ∧ allowed [first] second := by
  generalize whole : [first, second] = events at admitted
  cases admitted with
  | nil => cases whole
  | @snoc earlier last before permitted =>
      obtain ⟨rfl, same⟩ := List.append_inj'
        (show [first] ++ [second] = earlier ++ [last] from whole) rfl
      cases same
      generalize single : [first] = events at before
      cases before with
      | nil => cases single
      | @snoc none only _ alone =>
          obtain ⟨rfl, same⟩ := List.append_inj'
            (show [] ++ [first] = none ++ [only] from single) rfl
          cases same
          exact ⟨alone, permitted⟩

/-- The recorded history leads from the first state of the component to the current one. -/
inductive Linked (start : σ) : List (Event S σ ω) → σ → Prop where
  | nil : Linked start [] start
  | snoc {history : List (Event S σ ω)} (event : Event S σ ω) :
      Linked start history event.before →
      Linked start (history ++ [event]) (event.after handler)

structure Sound (allowed : T → List (Event S σ ω) → Event S σ ω → Prop) (start : σ)
    (config : Config S ι σ ω T α) : Prop where
  running : ∀ thread task rest events, config.running thread = some ⟨task, rest, events⟩ →
    Residue handler (program task) events rest ∧ Admitted (allowed task) events ∧
      ∀ event ∈ events, event ∈ config.history
  finished : ∀ done ∈ config.finished,
    Follows handler (program done.task) done.events done.value ∧
      Admitted (allowed done.task) done.events ∧
      ∀ event ∈ done.events, event ∈ config.history
  linked : Linked handler start config.history config.shared

variable {handler program}
variable {allowed : T → List (Event S σ ω) → Event S σ ω → Prop} {start : σ}

omit [DecidableEq ι] in
theorem initial_sound : Sound handler program allowed start
    (initial start : Config S ι σ ω T α) where
  running := by intro thread task rest events busy; cases busy
  finished := by intro done member; cases member
  linked := .nil

theorem move_begin_cases {before after : Config S ι σ ω T α} {thread : ι} {task : T}
    (moved : move handler program before (.begin thread task) = some after) :
    after = { before with
      running := Function.update before.running thread (some ⟨task, program task, []⟩) } := by
  simp only [move] at moved
  split at moved
  · cases moved
  · exact (Option.some.inj moved).symm

theorem move_advance_cases {before after : Config S ι σ ω T α} {thread : ι} {oracle : ω}
    (moved : move handler program before (.advance thread oracle) = some after) :
    ∃ task request next events,
      before.running thread = some ⟨task, .call request next, events⟩ ∧
      after = { before with
        shared := (Event.mk oracle request before.shared).after handler
        running := Function.update before.running thread
          (some ⟨task, next ((Event.mk oracle request before.shared).answer handler),
            events ++ [⟨oracle, request, before.shared⟩]⟩)
        history := before.history ++ [⟨oracle, request, before.shared⟩] } := by
  simp only [move] at moved
  split at moved
  case h_1 task request next events busy =>
    exact ⟨task, request, next, events, busy, (Option.some.inj moved).symm⟩
  case h_2 => cases moved

theorem move_finish_cases {before after : Config S ι σ ω T α} {thread : ι}
    (moved : move handler program before (.finish thread : Move ι T ω) = some after) :
    ∃ task value events,
      before.running thread = some ⟨task, .ret value, events⟩ ∧
      after = { before with
        running := Function.update before.running thread none
        finished := ⟨task, value, events⟩ :: before.finished } := by
  simp only [move] at moved
  split at moved
  case h_1 task value events busy =>
    exact ⟨task, value, events, busy, (Option.some.inj moved).symm⟩
  case h_2 => cases moved

theorem begin_sound {before : Config S ι σ ω T α} (thread : ι) (task : T)
    (sound : Sound handler program allowed start before) :
    Sound handler program allowed start { before with
      running := Function.update before.running thread (some ⟨task, program task, []⟩) } := by
  refine ⟨?_, sound.finished, sound.linked⟩
  intro other given rest events busy
  by_cases same : other = thread
  · subst other
    simp only [Function.update_self, Option.some.injEq, Running.mk.injEq] at busy
    obtain ⟨rfl, rfl, rfl⟩ := busy
    exact ⟨.start, .nil, by simp⟩
  · exact sound.running other given rest events (by simpa [same] using busy)

theorem advance_sound {before : Config S ι σ ω T α} {thread : ι} {task : T}
    {request : S.Call} {next : S.Answer request → Prog S α} {events : List (Event S σ ω)}
    (oracle : ω) (busy : before.running thread = some ⟨task, .call request next, events⟩)
    (permitted : allowed task events ⟨oracle, request, before.shared⟩)
    (sound : Sound handler program allowed start before) :
    Sound handler program allowed start { before with
      shared := (Event.mk oracle request before.shared).after handler
      running := Function.update before.running thread
        (some ⟨task, next ((Event.mk oracle request before.shared).answer handler),
          events ++ [⟨oracle, request, before.shared⟩]⟩)
      history := before.history ++ [⟨oracle, request, before.shared⟩] } := by
  obtain ⟨residue, admitted, recorded⟩ := sound.running thread _ _ _ busy
  refine ⟨?_, ?_, .snoc _ sound.linked⟩
  · intro other given rest own working
    by_cases same : other = thread
    · subst other
      simp only [Function.update_self, Option.some.injEq, Running.mk.injEq] at working
      obtain ⟨rfl, rfl, rfl⟩ := working
      refine ⟨.step _ _ residue, .snoc admitted permitted, ?_⟩
      intro event member
      rcases List.mem_append.mp member with old | new
      · exact List.mem_append_left _ (recorded event old)
      · exact List.mem_append_right _ new
    · obtain ⟨itsResidue, itsAdmitted, itsRecorded⟩ :=
        sound.running other given rest own (by simpa [same] using working)
      exact ⟨itsResidue, itsAdmitted, fun event member =>
        List.mem_append_left _ (itsRecorded event member)⟩
  · intro done member
    obtain ⟨follows, itsAdmitted, itsRecorded⟩ := sound.finished done member
    exact ⟨follows, itsAdmitted, fun event inside =>
      List.mem_append_left _ (itsRecorded event inside)⟩

theorem finish_sound {before : Config S ι σ ω T α} {thread : ι} {task : T} {value : α}
    {events : List (Event S σ ω)}
    (busy : before.running thread = some ⟨task, .ret value, events⟩)
    (sound : Sound handler program allowed start before) :
    Sound handler program allowed start { before with
      running := Function.update before.running thread none
      finished := ⟨task, value, events⟩ :: before.finished } := by
  refine ⟨?_, ?_, sound.linked⟩
  · intro other given rest own working
    by_cases same : other = thread
    · subst other
      simp at working
    · exact sound.running other given rest own (by simpa [same] using working)
  · intro done member
    rcases List.mem_cons.mp member with same | old
    · subst done
      exact sound.running thread _ _ _ busy
    · exact sound.finished done old

/-- The run rule: whatever the interleaving, each task is an execution of its own
program along its own events, and the history links the states. -/
theorem reachable_sound {config : Config S ι σ ω T α}
    (reached : Reachable handler program (Admits allowed) (initial start) config) :
    Sound handler program allowed start config := by
  induction reached with
  | start => exact initial_sound
  | next step _ permitted moved ih =>
      cases step with
      -- Only an advance asks the component, and only it is restricted.
      | begin thread task =>
          cases move_begin_cases moved
          exact begin_sound thread task ih
      | advance thread oracle =>
          obtain ⟨task, request, next, events, busy, rfl⟩ := move_advance_cases moved
          exact advance_sound oracle busy (permitted task request next events busy) ih
      | finish thread =>
          obtain ⟨task, value, events, busy, rfl⟩ := move_finish_cases moved
          exact finish_sound busy ih

theorem Reachable.weaken {strict loose : Config S ι σ ω T α → Move ι T ω → Prop}
    (weaker : ∀ config step, strict config step → loose config step)
    {start config : Config S ι σ ω T α}
    (reached : Reachable handler program strict start config) :
    Reachable handler program loose start config := by
  induction reached with
  | start => exact .start
  | next step _ permitted moved ih => exact .next step ih (weaker _ _ permitted) moved

/-- Whatever the moves were restricted to, the history links the states. -/
theorem reachable_linked {ok : Config S ι σ ω T α → Move ι T ω → Prop}
    {config : Config S ι σ ω T α}
    (reached : Reachable handler program ok (initial start) config) :
    Linked handler start config.history config.shared := by
  have unrestricted (before : Config S ι σ ω T α) (step : Move ι T ω) (_ : ok before step) :
      Admits (fun _ _ _ => True) before step := by
    cases step with
    | advance => exact fun _ _ _ _ _ => trivial
    | _ => trivial
  exact (reachable_sound (reached.weaken unrestricted)).linked

structure Asked (legal : S.Call → Prop) (config : Config S ι σ ω T α) : Prop where
  running : ∀ thread task rest events, config.running thread = some ⟨task, rest, events⟩ →
    rest.Asks legal
  history : ∀ event ∈ config.history, legal event.request

theorem move_asked {legal : S.Call → Prop} (asks : ∀ task, (program task).Asks legal)
    {before after : Config S ι σ ω T α} {step : Move ι T ω} (asked : Asked legal before)
    (moved : move handler program before step = some after) : Asked legal after := by
  -- The threads that do not move are left as they were.
  have others {thread : ι} {resumed : Option (Running S σ ω T α)}
      (legalRest : ∀ task rest events, resumed = some ⟨task, rest, events⟩ → rest.Asks legal) :
      ∀ other task rest events, Function.update before.running thread resumed other =
        some ⟨task, rest, events⟩ → rest.Asks legal := by
    intro other task rest events busy
    by_cases same : other = thread
    · subst other
      rw [Function.update_self] at busy
      exact legalRest task rest events busy
    · rw [Function.update_of_ne same] at busy
      exact asked.running other task rest events busy
  cases step with
  | begin thread task =>
      cases move_begin_cases moved
      exact ⟨others fun _ _ _ begun => by cases begun; exact asks task, asked.history⟩
  | advance thread oracle =>
      obtain ⟨task, request, next, events, busy, rfl⟩ := move_advance_cases moved
      obtain ⟨now, later⟩ := asked.running thread _ _ _ busy
      refine ⟨others fun _ _ _ resumed => by cases resumed; exact later _, ?_⟩
      intro event member
      rcases List.mem_append.mp member with old | new
      · exact asked.history event old
      · rw [List.mem_singleton.mp new]
        exact now
  | finish thread =>
      obtain ⟨task, value, events, busy, rfl⟩ := move_finish_cases moved
      exact ⟨others nofun, asked.history⟩

/-- Whatever the interleaving, only what the programs ask has been asked. -/
theorem reachable_asked {legal : S.Call → Prop} (asks : ∀ task, (program task).Asks legal)
    {ok : Config S ι σ ω T α → Move ι T ω → Prop} {config : Config S ι σ ω T α}
    (reached : Reachable handler program ok (initial start) config) : Asked legal config := by
  induction reached with
  | start => exact ⟨nofun, nofun⟩
  | next step _ _ moved ih => exact move_asked asks ih moved

def replay (handler : Handler S σ ω) (event : Event S σ ω) (state : σ) : σ :=
  (handler event.oracle event.request state).2

theorem linked_replays {history : List (Event S σ ω)} {state : σ}
    (linked : Linked handler start history state) :
    history.foldl (fun current event => replay handler event current) start = state := by
  induction linked with
  | nil => rfl
  | snoc event _ ih =>
      rw [List.foldl_append, ih]
      rfl

theorem linked_before {history : List (Event S σ ω)} {state : σ}
    (linked : Linked handler start history state) {earlier later : List (Event S σ ω)}
    {event : Event S σ ω} (split : history = earlier ++ event :: later) :
    event.before = earlier.foldl (fun current event => replay handler event current) start := by
  -- Every recorded event met the state that the events before it lead to.
  induction linked generalizing later with
  | nil => simp at split
  | snoc last previous ih =>
      rcases List.eq_nil_or_concat later with rfl | ⟨front, final, rfl⟩
      -- The event is the last one, or lies in the history before the last one.
      · obtain ⟨rfl, same⟩ := List.append_inj' split rfl
        cases same
        exact (linked_replays previous).symm
      · rw [show earlier ++ event :: (front.concat final) = (earlier ++ event :: front) ++ [final] by
          simp] at split
        obtain ⟨shorter, _⟩ := List.append_inj' split rfl
        exact ih shorter

theorem linked_cons {event : Event S σ ω} {tail : List (Event S σ ω)} {state : σ}
    (linked : Linked handler (event.after handler) tail state) :
    Linked handler event.before (event :: tail) state := by
  induction linked with
  | nil => exact .snoc event .nil
  | snoc last _ ih => exact .snoc last ih

theorem linked_cons_cases {event : Event S σ ω} {tail : List (Event S σ ω)} {state : σ}
    (linked : Linked handler start (event :: tail) state) :
    event.before = start ∧ Linked handler (event.after handler) tail state := by
  generalize whole : event :: tail = history at linked
  induction linked generalizing tail with
  | nil => cases whole
  | snoc last previous ih =>
      rcases List.eq_nil_or_concat tail with rfl | ⟨front, final, rfl⟩
      · obtain ⟨rfl, same⟩ := List.append_inj' (show [] ++ [event] = _ from whole) rfl
        cases same
        exact ⟨(linked_replays previous).symm, .nil⟩
      · rw [List.concat_eq_append, ← List.cons_append] at whole
        obtain ⟨shorter, same⟩ := List.append_inj' whole rfl
        cases same
        obtain ⟨first, rest⟩ := ih shorter
        exact ⟨first, by simpa using Linked.snoc last rest⟩

theorem execute_linked (program : Prog S α) (surroundings : Nat → ω) (state : σ) :
    Linked handler state (executeEvents handler program surroundings state)
      (execute handler program surroundings state).2 := by
  induction program generalizing surroundings state with
  | ret value => exact .nil
  | call request next ih =>
      have rest := ih (handler (surroundings 0) request state).1 (fun n => surroundings (n + 1))
        (handler (surroundings 0) request state).2
      exact @linked_cons S ω σ handler ⟨surroundings 0, request, state⟩ _ _ rest

theorem play_reachable {ok : Config S ι σ ω T α → Move ι T ω → Prop}
    {check : Event S σ ω → Bool} {moves : List (Move ι T ω)}
    {first before after : Config S ι σ ω T α}
    (permitted : ∀ config, ∀ step ∈ moves,
      Admits (fun _ _ event => check event = true) config step → ok config step)
    (reached : Reachable handler program ok first before)
    (played : play handler program check moves before = some after) :
    Reachable handler program ok first after := by
  induction moves generalizing before with
  | nil =>
      cases played
      exact reached
  | cons step rest ih =>
      rw [play] at played
      split at played
      case isTrue passed =>
        obtain ⟨middle, moved, later⟩ := Option.bind_eq_some_iff.mp played
        apply ih (fun config other member => permitted config other
          (List.mem_cons_of_mem _ member)) _ later
        exact .next step reached
          (permitted before step List.mem_cons_self (admits_of_passes passed)) moved
      case isFalse => cases played

end Interleaving
end OsClientCerts.Resumption
