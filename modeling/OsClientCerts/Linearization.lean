import OsClientCerts.Resumption

/-!
Tasks that take effect at one point. A task that reads first, and whose last call is the
only one that may write, does what it would do alone at the time of its last call, if
what it has read is still so. The order of the last calls is then one in which the
tasks could have run one after the other. It only ever grows at its end, so a task
that has returned comes before every task that begins later.
-/

namespace OsClientCerts.Resumption

variable {S : Signature} {α β T ι ω σ : Type}

/-- All calls are reads but the last one, after which the program only has to return. -/
def Prog.LastWrites (reads : S.Call → Prop) : Prog S α → Prop
  | .ret _ => True
  | .call request next => (reads request ∧ ∀ answer, (next answer).LastWrites reads) ∨
      ∀ answer, ∃ value, next answer = .ret value

def Prog.Silent (program : Prog S α) : Prop := ∃ value, program = .ret value

theorem silent_bind {first : Prog S α} {next : α → Prog S β} (quiet : first.Silent)
    (goesOn : ∀ value, (next value).Silent) : (first >>= next).Silent := by
  obtain ⟨value, rfl⟩ := quiet
  exact goesOn value

theorem last_writes_after {reads : S.Call → Prop} {first : Prog S α} {next : α → Prog S β}
    (quiet : first.Silent) (goesOn : ∀ value, (next value).LastWrites reads) :
    (first >>= next).LastWrites reads := by
  obtain ⟨value, rfl⟩ := quiet
  exact goesOn value

theorem last_writes_of_silent {reads : S.Call → Prop} {program : Prog S α}
    (quiet : program.Silent) : program.LastWrites reads := by
  obtain ⟨value, rfl⟩ := quiet
  trivial

section
variable (handler : Handler S σ ω) (program : T → Prog S α)

/-- The program with nothing in between, given what its surroundings do at each call. -/
def runAlone : Prog S α → List ω → σ → Option (α × σ)
  | .ret value, [], state => some (value, state)
  | .ret _, _ :: _, _ => none
  | .call _ _, [], _ => none
  | .call request next, oracle :: rest, state =>
      let (answer, after) := handler oracle request state
      runAlone (next answer) rest after

inductive Sequential (start : σ) : List (Finished S σ ω T α) → σ → Prop where
  | nil : Sequential start [] start
  | snoc {order : List (Finished S σ ω T α)} {state after : σ} (done : Finished S σ ω T α) :
      Sequential start order state →
      runAlone handler (program done.task) (done.events.map Event.oracle) state =
        some (done.value, after) →
      Sequential start (order ++ [done]) after

def Unmoved (_ : T) (earlier : List (Event S σ ω)) (event : Event S σ ω) : Prop :=
  ∀ read ∈ earlier, (handler read.oracle read.request event.before).1 = read.answer handler

variable {handler program}

theorem residue_alone {first rest : Prog S α} {events : List (Event S σ ω)} {state : σ}
    (residue : Residue handler first events rest)
    (again : ∀ event ∈ events, handler event.oracle event.request state =
      (event.answer handler, state)) (oracles : List ω) :
    runAlone handler first (events.map Event.oracle ++ oracles) state =
      runAlone handler rest oracles state := by
  -- Reads that are answered as before lead to where they led before.
  induction residue generalizing oracles with
  | start => rfl
  | @step events event next _ ih =>
      have earlier := ih (fun other member => again other (List.mem_append_left _ member))
        (event.oracle :: oracles)
      rw [List.map_append, List.append_assoc]
      refine earlier.trans ?_
      have here := again event (List.mem_append_right _ List.mem_cons_self)
      simp only [runAlone, here]

theorem linked_split {start state : σ} {history : List (Event S σ ω)}
    (linked : Linked handler start history state) {earlier later : List (Event S σ ω)}
    {event : Event S σ ω} (split : history = earlier ++ event :: later) :
    Linked handler start earlier event.before := by
  induction linked generalizing later with
  | nil => simp at split
  | snoc last previous ih =>
      rcases List.eq_nil_or_concat later with rfl | ⟨front, final, rfl⟩
      · obtain ⟨rfl, same⟩ := List.append_inj' split rfl
        cases same
        exact previous
      · rw [List.concat_eq_append, ← List.cons_append, ← List.append_assoc] at split
        exact ih (List.append_inj' split rfl).1

end

section
variable [DecidableEq ι] (handler : Handler S σ ω) (program : T → Prog S α)

structure Returning (config : Config S ι σ ω T α) (waiting : List (ι × Finished S σ ω T α)) :
    Prop where
  apart : (waiting.map Prod.fst).Nodup
  exactly : ∀ thread done, (thread, done) ∈ waiting ↔
    config.running thread = some ⟨done.task, .ret done.value, done.events⟩

variable {handler program}

omit [DecidableEq ι] in
theorem Returning.thread {config : Config S ι σ ω T α}
    {waiting : List (ι × Finished S σ ω T α)} (returning : Returning config waiting)
    {thread : ι} : thread ∈ waiting.map Prod.fst ↔
      ∃ task value events, config.running thread = some ⟨task, .ret value, events⟩ := by
  constructor
  · intro member
    obtain ⟨⟨other, done⟩, given, rfl⟩ := List.mem_map.mp member
    exact ⟨_, _, _, (returning.exactly other done).mp given⟩
  · rintro ⟨task, value, events, busy⟩
    exact List.mem_map.mpr ⟨(thread, ⟨task, value, events⟩),
      (returning.exactly thread ⟨task, value, events⟩).mpr busy, rfl⟩

theorem Returning.answer {before after : Config S ι σ ω T α}
    {waiting : List (ι × Finished S σ ω T α)} (returning : Returning before waiting)
    {thread : ι} {done : Finished S σ ω T α}
    (fresh : ∀ task value events, before.running thread ≠ some ⟨task, .ret value, events⟩)
    (answered : after.running = Function.update before.running thread
      (some ⟨done.task, .ret done.value, done.events⟩)) :
    Returning after ((thread, done) :: waiting) := by
  refine ⟨?_, fun other given => ?_⟩
  · rw [List.map_cons, List.nodup_cons]
    refine ⟨fun member => ?_, returning.apart⟩
    obtain ⟨task, value, events, busy⟩ := returning.thread.mp member
    exact fresh task value events busy
  · rw [answered, List.mem_cons]
    by_cases same : other = thread
    · subst other
      rw [Function.update_self]
      constructor
      · rintro (same | old)
        · cases same
          rfl
        · exact absurd ((returning.exactly thread given).mp old) (fresh _ _ _)
      · intro held
        obtain ⟨sameTask, sameValue, sameEvents⟩ : done.task = given.task ∧
            done.value = given.value ∧ done.events = given.events := by simpa using held
        left
        cases done
        cases given
        simp_all
    · rw [Function.update_of_ne same, ← returning.exactly other given]
      constructor
      · rintro (same' | old)
        · cases same'
          exact absurd rfl same
        · exact old
      · exact Or.inr

theorem Returning.keep {before after : Config S ι σ ω T α}
    {waiting : List (ι × Finished S σ ω T α)} (returning : Returning before waiting)
    {thread : ι} {resumed : Option (Running S σ ω T α)}
    (fresh : ∀ task value events, before.running thread ≠ some ⟨task, .ret value, events⟩)
    (still : ∀ task value events, resumed ≠ some ⟨task, .ret value, events⟩)
    (moved : after.running = Function.update before.running thread resumed) :
    Returning after waiting := by
  refine ⟨returning.apart, fun other given => ?_⟩
  rw [returning.exactly other given, moved]
  by_cases same : other = thread
  · subst other
    rw [Function.update_self]
    exact ⟨fun held => absurd held (fresh _ _ _), fun held => absurd held (still _ _ _)⟩
  · rw [Function.update_of_ne same]

theorem Returning.finish {before after : Config S ι σ ω T α}
    {waiting : List (ι × Finished S σ ω T α)} (returning : Returning before waiting)
    {thread : ι} {done : Finished S σ ω T α}
    (busy : before.running thread = some ⟨done.task, .ret done.value, done.events⟩)
    (moved : after.running = Function.update before.running thread none) :
    ∃ others, waiting.Perm ((thread, done) :: others) ∧ Returning after others := by
  have member : (thread, done) ∈ waiting := (returning.exactly thread done).mpr busy
  obtain ⟨front, back, rfl⟩ := List.append_of_mem member
  refine ⟨front ++ back, List.perm_middle, ?_⟩
  have apart := returning.apart
  rw [(List.perm_middle.map Prod.fst).nodup_iff, List.map_cons, List.nodup_cons] at apart
  refine ⟨apart.2, fun other given => ?_⟩
  rw [moved]
  by_cases same : other = thread
  · subst other
    rw [Function.update_self]
    constructor
    · intro held
      exact absurd (List.mem_map.mpr ⟨(thread, given), held, rfl⟩) apart.1
    · intro held
      cases held
  · rw [Function.update_of_ne same, ← returning.exactly other given]
    have different : (other, given) ≠ (thread, done) := fun equal => same (congrArg Prod.fst equal)
    simp [different]

end

section
variable [DecidableEq ι] {handler : Handler S σ ω} {program : T → Prog S α}
  {reads : S.Call → Prop} {start : σ}

variable (handler program reads start) in
/-- The tasks that have made their last call, in the order of these calls. -/
structure Linear (config : Config S ι σ ω T α) (order : List (Finished S σ ω T α)) : Prop where
  sequential : Sequential handler program start order config.shared
  waiting : ∃ waiting, Returning config waiting ∧
    order.Perm (waiting.map Prod.snd ++ config.finished)
  reading : ∀ thread task request next events,
    config.running thread = some ⟨task, .call request next, events⟩ →
    Residue handler (program task) events (.call request next) ∧
      (Prog.call request next).LastWrites reads ∧ ∀ event ∈ events, reads event.request

omit [DecidableEq ι] in
theorem initial_linear : Linear handler program reads start
    (initial start : Config S ι σ ω T α) [] where
  sequential := .nil
  waiting := ⟨[], ⟨List.nodup_nil, fun _ _ => by simp [initial]⟩, List.Perm.refl _⟩
  reading _ _ _ _ _ busy := by cases busy

theorem begin_linear {before after : Config S ι σ ω T α} {order : List (Finished S σ ω T α)}
    {thread : ι} {task : T} (shape : ∀ task, (program task).LastWrites reads)
    (linear : Linear handler program reads start before order)
    (moved : move handler program before (.begin thread task) = some after) :
    ∃ more, Linear handler program reads start after (order ++ more) := by
  have free : before.running thread = none := by
    simp only [move] at moved
    split at moved
    · cases moved
    · assumption
  have fresh : ∀ task value events, before.running thread ≠ some ⟨task, .ret value, events⟩ := by
    intro task value events busy
    rw [free] at busy
    cases busy
  have changed := move_begin_cases moved
  obtain ⟨waiting, returning, perm⟩ := linear.waiting
  cases first : program task with
  | ret value =>
      -- A task that asks for nothing can run at once.
      rw [first] at changed
      let done : Finished S σ ω T α := ⟨task, value, []⟩
      have running : after.running = Function.update before.running thread
          (some ⟨done.task, .ret done.value, done.events⟩) := by rw [changed]
      have same : after.shared = before.shared := by rw [changed]
      have finished : after.finished = before.finished := by rw [changed]
      refine ⟨[done], ?_, ⟨_, returning.answer fresh running, ?_⟩, ?_⟩
      · rw [same]
        exact .snoc done linear.sequential (by simp [done, first, runAlone])
      · rw [finished]
        exact (List.perm_append_singleton done order).trans (perm.cons done)
      · intro other given request next events busy
        rw [running] at busy
        by_cases here : other = thread
        · subst other
          rw [Function.update_self] at busy
          cases busy
        · rw [Function.update_of_ne here] at busy
          exact linear.reading other given request next events busy
  | call request next =>
      rw [first] at changed
      have running : after.running = Function.update before.running thread
          (some ⟨task, .call request next, []⟩) := by rw [changed]
      have same : after.shared = before.shared := by rw [changed]
      have finished : after.finished = before.finished := by rw [changed]
      refine ⟨[], ?_, ⟨waiting, returning.keep fresh (by simp) running, ?_⟩, ?_⟩
      · rw [same, List.append_nil]
        exact linear.sequential
      · rw [finished, List.append_nil]
        exact perm
      · intro other given asked rest events busy
        rw [running] at busy
        by_cases here : other = thread
        · subst other
          rw [Function.update_self] at busy
          cases busy
          refine ⟨first ▸ .start, ?_, by simp⟩
          rw [← first]
          exact shape _
        · rw [Function.update_of_ne here] at busy
          exact linear.reading other given asked rest events busy

theorem finish_linear {before after : Config S ι σ ω T α} {order : List (Finished S σ ω T α)}
    {thread : ι} (linear : Linear handler program reads start before order)
    (moved : move handler program before (.finish thread) = some after) :
    Linear handler program reads start after order := by
  obtain ⟨task, value, events, busy, changed⟩ := move_finish_cases moved
  obtain ⟨waiting, returning, perm⟩ := linear.waiting
  have running : after.running = Function.update before.running thread none := by rw [changed]
  let done : Finished S σ ω T α := ⟨task, value, events⟩
  have held : before.running thread = some ⟨done.task, .ret done.value, done.events⟩ := busy
  obtain ⟨others, removed, left⟩ := returning.finish held running
  have same : after.shared = before.shared := by rw [changed]
  have finished : after.finished = done :: before.finished := by rw [changed]
  refine ⟨same ▸ linear.sequential, ⟨others, left, ?_⟩, ?_⟩
  · rw [finished]
    refine perm.trans ?_
    refine ((removed.map Prod.snd).append_right _).trans ?_
    exact List.perm_middle.symm
  · intro other given request next events busy
    rw [running] at busy
    by_cases here : other = thread
    · subst other
      rw [Function.update_self] at busy
      cases busy
    · rw [Function.update_of_ne here] at busy
      exact linear.reading other given request next events busy

theorem advance_linear {before after : Config S ι σ ω T α} {order : List (Finished S σ ω T α)}
    {thread : ι} {oracle : ω}
    (quiet : ∀ oracle request state, reads request → (handler oracle request state).2 = state)
    (linear : Linear handler program reads start before order)
    (admitted : Admits (Unmoved handler) before (.advance thread oracle))
    (moved : move handler program before (.advance thread oracle) = some after) :
    ∃ more, Linear handler program reads start after (order ++ more) := by
  obtain ⟨task, request, next, events, busy, changed⟩ := move_advance_cases moved
  obtain ⟨waiting, returning, perm⟩ := linear.waiting
  obtain ⟨residue, writesLast, read⟩ := linear.reading thread task request next events busy
  have unmoved := admitted task request next events busy
  have fresh : ∀ task value events, before.running thread ≠ some ⟨task, .ret value, events⟩ := by
    intro other value earlier given
    rw [busy] at given
    cases given
  let event : Event S σ ω := ⟨oracle, request, before.shared⟩
  have shared : after.shared = event.after handler := by rw [changed]
  have finished : after.finished = before.finished := by rw [changed]
  have running : after.running = Function.update before.running thread
      (some ⟨task, next (event.answer handler), events ++ [event]⟩) := by rw [changed]
  cases ended : next (event.answer handler) with
  | ret value =>
      -- The task takes effect here: its reads are answered now as they were.
      let done : Finished S σ ω T α := ⟨task, value, events ++ [event]⟩
      rw [ended] at running
      have again : ∀ other ∈ events, handler other.oracle other.request before.shared =
          (other.answer handler, before.shared) := fun other member =>
        Prod.ext (unmoved other member) (quiet _ _ _ (read other member))
      have alone : runAlone handler (program done.task) (done.events.map Event.oracle)
          before.shared = some (done.value, event.after handler) := by
        have upTo := residue_alone residue again [oracle]
        have last : runAlone handler (next (event.answer handler)) [] (event.after handler) =
            some (value, event.after handler) := by rw [ended]; rfl
        simp only [done, List.map_append, List.map_cons, List.map_nil]
        exact upTo.trans last
      have step : Sequential handler program start (order ++ [done]) after.shared := by
        rw [shared]
        exact .snoc done linear.sequential alone
      have returned : Returning after ((thread, done) :: waiting) := returning.answer fresh running
      refine ⟨[done], step, ⟨_, returned, ?_⟩, ?_⟩
      · rw [finished]
        exact (List.perm_append_singleton done order).trans (perm.cons done)
      · intro other given asked rest earlier held
        rw [running] at held
        by_cases here : other = thread
        · subst other
          rw [Function.update_self] at held
          cases held
        · rw [Function.update_of_ne here] at held
          exact linear.reading other given asked rest earlier held
  | call later onward =>
      -- More is to come, so this was a read.
      have isRead : reads request ∧ ∀ answer, (next answer).LastWrites reads := by
        rcases writesLast with isRead | none
        · exact isRead
        · obtain ⟨value, same⟩ := none (event.answer handler)
          rw [ended] at same
          cases same
      rw [ended] at running
      have same : after.shared = before.shared := by
        rw [shared]
        exact quiet _ _ _ isRead.1
      refine ⟨[], ?_, ⟨waiting, returning.keep fresh (by simp) running, ?_⟩, ?_⟩
      · rw [same, List.append_nil]
        exact linear.sequential
      · rw [finished, List.append_nil]
        exact perm
      · intro other given asked rest earlier held
        rw [running] at held
        by_cases here : other = thread
        · subst other
          rw [Function.update_self] at held
          cases held
          refine ⟨?_, ?_, ?_⟩
          · rw [← ended]
            exact .step event next residue
          · rw [← ended]
            exact isRead.2 _
          · intro made member
            rcases List.mem_append.mp member with old | new
            · exact read made old
            · rw [List.mem_singleton.mp new]
              exact isRead.1
        · rw [Function.update_of_ne here] at held
          exact linear.reading other given asked rest earlier held

theorem move_linear {before after : Config S ι σ ω T α} {order : List (Finished S σ ω T α)}
    {step : Move ι T ω} (shape : ∀ task, (program task).LastWrites reads)
    (quiet : ∀ oracle request state, reads request → (handler oracle request state).2 = state)
    (linear : Linear handler program reads start before order)
    (admitted : Admits (Unmoved handler) before step)
    (moved : move handler program before step = some after) :
    ∃ more, Linear handler program reads start after (order ++ more) := by
  cases step with
  | begin thread task => exact begin_linear shape linear moved
  | advance thread oracle => exact advance_linear quiet linear admitted moved
  | finish thread => exact ⟨[], by rw [List.append_nil]; exact finish_linear linear moved⟩

theorem Reachable.trans {ok : Config S ι σ ω T α → Move ι T ω → Prop}
    {first second third : Config S ι σ ω T α} (early : Reachable handler program ok first second)
    (late : Reachable handler program ok second third) :
    Reachable handler program ok first third := by
  induction late with
  | start => exact early
  | next step _ permitted moved ih => exact .next step ih permitted moved

theorem run_linear {ok : Config S ι σ ω T α → Move ι T ω → Prop}
    {before after : Config S ι σ ω T α} {order : List (Finished S σ ω T α)}
    (shape : ∀ task, (program task).LastWrites reads)
    (quiet : ∀ oracle request state, reads request → (handler oracle request state).2 = state)
    (unmoved : ∀ config order step, Linear handler program reads start config order →
      Reachable handler program ok before config → ok config step →
      Admits (Unmoved handler) config step)
    (reached : Reachable handler program ok before after)
    (linear : Linear handler program reads start before order) :
    ∃ more, Linear handler program reads start after (order ++ more) := by
  induction reached with
  | start => exact ⟨[], by rwa [List.append_nil]⟩
  | next step earlier permitted moved ih =>
      obtain ⟨more, then_⟩ := ih
      obtain ⟨last, now⟩ := move_linear shape quiet then_
        (unmoved _ _ step then_ earlier permitted) moved
      exact ⟨more ++ last, by rwa [← List.append_assoc]⟩

end
end OsClientCerts.Resumption
