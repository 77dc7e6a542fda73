import OsClientCerts.CleanupTurns
import OsClientCerts.GuardedRuns

/-!
Runs of all the cleanups. Whatever the interleaving, they act as if each pass had made its
turns without a wait, and one after the other.
-/

namespace OsClientCerts.CertCleanup
open CertDatabase Deletions GuardedRuns LocalAutomata SerialTurns

namespace CleanupPass

def Over : CleanupPass → Prop
  | .send pass => ∃ result, pass.stage = .settled result
  | .fin pass => ∃ result, pass.stage = .settled result
  | .native pass => pass.rest = []

theorem over_answer {pass : CleanupPass} (ended : pass.Over) (settles : Bool)
    (deleteCertificate : Bytes → List NssRow → Option (List NssRow)) (table : List NssRow) :
    (pass.answer settles deleteCertificate table).1.Over ∧
      (pass.answer settles deleteCertificate table).1.dealt = pass.dealt := by
  cases pass with
  | send pass =>
      obtain ⟨email, given, stage⟩ := pass
      obtain ⟨result, rfl⟩ := ended
      exact ⟨⟨result, rfl⟩, rfl⟩
  | fin pass =>
      obtain ⟨past, rest, deleted, stage⟩ := pass
      obtain ⟨result, rfl⟩ := ended
      exact ⟨⟨result, rfl⟩, rfl⟩
  | native pass =>
      obtain ⟨opened, past, rest⟩ := pass
      obtain rfl : rest = [] := ended
      cases opened <;> cases settles <;> exact ⟨rfl, rfl⟩

end CleanupPass

namespace Cleanups

def OverAt (place : Nat) (dealt : List (NssRow → Bool)) (state : Cleanups) : Prop :=
  ∃ pass, state.passes[place]? = some pass ∧ pass.Over ∧ pass.dealt = dealt

theorem over_step {place : Nat} {dealt : List (NssRow → Bool)} (event : CleanupEvent)
    (state : Cleanups) (ended : state.OverAt place dealt) :
    (step event state).OverAt place dealt := by
  obtain ⟨old, placed, settled, same⟩ := ended
  rcases step_cases event state with ⟨row, rfl⟩ | ⟨answered, settles, deletes, pass, rfl, found⟩ |
    ⟨_, _, added, grown, _⟩
  · exact ⟨old, placed, settled, same⟩
  · rw [answered_at found]
    by_cases here : answered = place
    · subst here
      rw [found, Option.some.injEq] at placed
      subst placed
      have inside := (List.getElem?_eq_some_iff.mp found).1
      obtain ⟨stays, kept⟩ := CleanupPass.over_answer settled settles deletes state.table
      exact ⟨_, List.getElem?_set_self inside, stays, kept.trans same⟩
    · exact ⟨old, (List.getElem?_set_ne here).trans placed, settled, same⟩
  · exact ⟨old, kept_at grown placed, settled, same⟩

theorem over_quiet {place : Nat} {pass : CleanupPass} {state : Cleanups}
    (found : state.passes[place]? = some pass) (ended : pass.Over) (run : List CleanupEvent) :
    ∀ turn ∈ order step turns run state, turn.owner ≠ some place := by
  -- A pass that is over takes no more turns.
  intro turn member owned
  have stays : (after step run state).OverAt place pass.dealt :=
    always_preserved (fun event state => over_step event state) run ⟨pass, found, ended, rfl⟩
  obtain ⟨last, foundLast, _, same⟩ := stays
  have counted := own_turns step_dealt run state place
  simp only [dealtAt, foundLast, found, Option.map_some, Option.getD_some, same] at counted
  have none : ownTurns Turn.owner Turn.selects place (order step turns run state) = [] :=
    List.self_eq_append_right.mp counted
  rw [ownTurns, List.map_eq_nil_iff, List.filter_eq_nil_iff] at none
  exact none turn member (by simpa using owned)

end Cleanups

def Turn.Sound : Turn → Prop
  | .fin _ _ certDb => TakesCopies certDb.deleteCertificate
  | _ => True

section
variable {table : List NssRow} {row : NssRow}

theorem fin_take_cases (place : Nat) (liveCert : X509Cert) (certDb : CertDb) :
    Turn.take (.fin place liveCert certDb) table = table ∨ ∃ left,
      certDb.deleteCertificate liveCert.rawDer table = some left ∧
        Turn.take (.fin place liveCert certDb) table = left := by
  rw [Turn.take]
  simp only [checkLiveCert]
  split
  · exact Or.inl rfl
  · split
    · exact Or.inl rfl
    · cases removed : certDb.deleteCertificate liveCert.rawDer table with
      | none => exact Or.inl rfl
      | some left => exact Or.inr ⟨left, rfl, rfl⟩

theorem take_adds {turn : Turn} (sound : turn.Sound) (member : row ∈ turn.take table) :
    row ∈ table ∨ turn = .write row := by
  cases turn with
  | write written =>
      rcases List.mem_append.mp member with old | new
      · exact Or.inl old
      · exact Or.inr (by rw [List.mem_singleton.mp new])
  | send place email sqlite =>
      rw [Turn.take, do_cleanup_deletes] at member
      exact Or.inl ((delete_each_sublist _ table).subset member)
  | fin place liveCert certDb =>
      rcases @fin_take_cases table place liveCert certDb with same | ⟨left, removed, same⟩
      · exact Or.inl (same ▸ member)
      · obtain ⟨keeps, rfl, _⟩ := sound _ _ _ removed
        rw [same] at member
        exact Or.inl (List.mem_filter.mp member).1
  | native place der executes =>
      rw [Turn.take] at member
      split at member
      · exact Or.inl (List.mem_filter.mp member).1
      · exact Or.inl member

theorem take_spares {turn : Turn} (sound : turn.Sound) (member : row ∈ table)
    (other : turn.selects row = false) : row ∈ turn.take table := by
  cases turn with
  | write written => exact List.mem_append_left _ member
  | send place email sqlite =>
      rw [Turn.take, do_cleanup_deletes, mem_delete_each]
      refine ⟨member, fun selects given => Bool.eq_false_iff.mpr fun selected => ?_⟩
      obtain ⟨_, _, _, address, same, _, matching⟩ :=
        mem_send_statements.mp ⟨selects, given, selected⟩
      cases same
      rw [Turn.selects, matching] at other
      cases other
  | fin place liveCert certDb =>
      rcases @fin_take_cases table place liveCert certDb with same | ⟨left, removed, same⟩
      · rw [same]
        exact member
      · obtain ⟨keeps, rfl, others⟩ := sound _ _ _ removed
        rw [same]
        exact List.mem_filter.mpr ⟨member, others row other⟩
  | native place der executes =>
      rw [Turn.take]
      split
      · exact List.mem_filter.mpr ⟨member, by simpa [Turn.selects] using other⟩
      · exact member

theorem take_clears {place : Nat} {email : JsString} (given : email ≠ [])
    (matching : hasEmail email row = true) :
    row ∉ Turn.take (.send place email ⟨true, true, true, true⟩) table := by
  -- The statement that a pass before a send reports leaves no row with its address.
  rw [send_take_found given, if_pos rfl, delete, List.mem_filter, matching]
  rintro ⟨_, spared⟩
  cases spared

variable {taken : List Turn}

theorem in_order_adds (sound : ∀ turn ∈ taken, turn.Sound)
    (member : row ∈ inOrder Turn.take taken table) : row ∈ table ∨ .write row ∈ taken := by
  induction taken generalizing table with
  | nil => exact Or.inl member
  | cons turn rest ih =>
      have later := fun other inside => sound other (List.mem_cons_of_mem turn inside)
      rcases ih later member with early | written
      · rcases take_adds (sound turn List.mem_cons_self) early with old | rfl
        · exact Or.inl old
        · exact Or.inr List.mem_cons_self
      · exact Or.inr (List.mem_cons_of_mem turn written)

theorem in_order_spares (sound : ∀ turn ∈ taken, turn.Sound) (member : row ∈ table)
    (others : ∀ turn ∈ taken, turn.selects row = false) :
    row ∈ inOrder Turn.take taken table := by
  induction taken generalizing table with
  | nil => exact member
  | cons turn rest ih =>
      have stays := take_spares (sound turn List.mem_cons_self) member
        (others turn List.mem_cons_self)
      exact ih (fun other inside => sound other (List.mem_cons_of_mem turn inside)) stays
        (fun other inside => others other (List.mem_cons_of_mem turn inside))

end

def SendPass.Reports (pass : SendPass) : Prop :=
  ∃ deleted, deleted ≠ [] ∧
    (pass.stage = .closing deleted ∨ pass.stage = .settled (.ok deleted))

theorem reports_answer {pass : SendPass} {settles : Bool} {table : List NssRow} (place : Nat)
    (reports : (pass.answer settles table).1.Reports) :
    pass.Reports ∨ .send place pass.email ⟨true, true, true, true⟩ ∈
      pass.turns place settles table := by
  obtain ⟨email, given, stage⟩ := pass
  obtain ⟨deleted, some_, reported⟩ := reports
  cases stage with
  | opening => cases settles <;> simp_all [SendPass.answer]
  | selecting =>
      dsimp only [SendPass.answer] at reported
      generalize (if settles = true then table.filter (hasEmail email) else []) = rows at reported
      cases rows with
      | nil =>
          rcases reported with closing | settled
          · exact absurd (SendStage.closing.inj closing).symm some_
          · cases settled
      | cons row rows => rcases reported with closing | settled <;> contradiction
  | deleting rowCount =>
      cases settles with
      | false => simp_all [SendPass.answer]
      | true => exact Or.inr List.mem_cons_self
  | closing held =>
      cases settles with
      | false => simp_all [SendPass.answer]
      | true => exact Or.inl ⟨deleted, some_, by simp_all [SendPass.answer]⟩
  | settled result => exact Or.inl ⟨deleted, some_, reported⟩

theorem answer_email (pass : SendPass) (settles : Bool) (table : List NssRow) :
    (pass.answer settles table).1.email = pass.email := by
  obtain ⟨email, given, stage⟩ := pass
  cases stage <;> cases settles <;> rfl

namespace Cleanups

def ReportedAt (place : Nat) (email : JsString) (state : Cleanups) : Prop :=
  ∃ pass, state.passes[place]? = some (.send pass) ∧ pass.email = email ∧ pass.Reports

theorem reported_step {place : Nat} {email : JsString} (event : CleanupEvent) (state : Cleanups)
    (reported : (step event state).ReportedAt place email) :
    state.ReportedAt place email ∨
      .send place email ⟨true, true, true, true⟩ ∈ turns event state := by
  obtain ⟨pass, placed, rfl, reports⟩ := reported
  rcases step_cases event state with ⟨row, rfl⟩ | ⟨answered, settles, deletes, old, rfl, found⟩ |
    ⟨_, _, added, grown, fresh⟩
  · exact Or.inl ⟨pass, placed, rfl, reports⟩
  · rw [answered_at found] at placed
    by_cases here : answered = place
    · subst here
      have inside := (List.getElem?_eq_some_iff.mp found).1
      simp only [List.getElem?_set_self inside, Option.some.injEq] at placed
      cases old with
      | fin old => cases placed
      | native old => cases placed
      | send old =>
          obtain rfl : (old.answer settles state.table).1 = pass := CleanupPass.send.inj placed
          rw [answer_turns found, answer_email]
          rcases reports_answer answered reports with early | taken
          · exact Or.inl ⟨old, found, rfl, early⟩
          · exact Or.inr taken
    · exact Or.inl ⟨pass, (List.getElem?_set_ne here).symm.trans placed, rfl, reports⟩
  · rcases added_at grown fresh placed with old | new
    · exact Or.inl ⟨pass, old, rfl, reports⟩
    · obtain ⟨deleted, _, staged⟩ := reports
      have opening : pass.stage = .opening := new
      rw [opening] at staged
      rcases staged with staged | staged <;> cases staged

theorem reported_turn {place : Nat} {email : JsString} (run : List CleanupEvent)
    {state : Cleanups} (reported : (after step run state).ReportedAt place email) :
    state.ReportedAt place email ∨
      .send place email ⟨true, true, true, true⟩ ∈ order step turns run state := by
  induction run generalizing state with
  | nil => exact Or.inl reported
  | cons event rest ih =>
      rcases ih reported with early | later
      · rcases reported_step event state early with before | here
        · exact Or.inl before
        · exact Or.inr (List.mem_append_left _ here)
      · exact Or.inr (List.mem_append_right _ later)

theorem turns_sound {event : CleanupEvent} (sound : event.Sound) (state : Cleanups) :
    ∀ turn ∈ turns event state, turn.Sound := by
  intro turn member
  rcases step_cases event state with ⟨row, rfl⟩ | ⟨place, settles, deletes, pass, rfl, found⟩ |
    ⟨quiet, _⟩
  · rw [turns, List.mem_singleton] at member
    rw [member]
    trivial
  · rw [answer_turns found] at member
    cases turn with
    | fin answered liveCert certDb =>
        obtain ⟨selects, rfl⟩ := turns_asked member
        exact sound
    | write | send | native => trivial
  · rw [quiet] at member
    cases member

theorem order_sound {run : List CleanupEvent} (sound : ∀ event ∈ run, event.Sound)
    (state : Cleanups) : ∀ turn ∈ order step turns run state, turn.Sound := by
  induction run generalizing state with
  | nil =>
      intro turn member
      cases member
  | cons event rest ih =>
      intro turn member
      rcases List.mem_append.mp member with here | later
      · exact turns_sound (sound event List.mem_cons_self) state turn here
      · exact ih (fun other inside => sound other (List.mem_cons_of_mem event inside)) _ turn later

theorem written {run : List CleanupEvent} {state : Cleanups} {row : NssRow}
    (member : .write row ∈ order step turns run state) : .write row ∈ run := by
  -- Rows are written by NSS only.
  induction run generalizing state with
  | nil => cases member
  | cons event rest ih =>
      rcases List.mem_append.mp member with here | later
      · rcases step_cases event state with ⟨other, rfl⟩ |
          ⟨place, settles, deletes, pass, rfl, found⟩ | ⟨quiet, _⟩
        · rw [turns, List.mem_singleton] at here
          cases here
          exact List.mem_cons_self
        · rw [answer_turns found] at here
          have owned := turns_owned pass _ here
          cases owned
        · rw [quiet] at here
          cases here
      · exact List.mem_cons_of_mem event (ih later)

/-- The thread was started on demand, and no two of its passes run at once. -/
structure ThreadKept (run : List CleanupEvent) (state : Cleanups) : Prop where
  demanded : state.spawned = true → .cInitialize (some "1") ∈ run
  started : ∀ (place : Nat) (pass : NativePass), state.passes[place]? = some (.native pass) →
    state.spawned = true
  single : ∀ (first second : Nat) (pass other : CleanupPass),
    state.passes[first]? = some pass → state.passes[second]? = some other →
      pass.onThread = true → other.onThread = true → first = second

theorem on_thread_answer {pass : CleanupPass} {settles : Bool} {table : List NssRow}
    {deletes : Bytes → List NssRow → Option (List NssRow)}
    (running : (pass.answer settles deletes table).1.onThread = true) : pass.onThread = true := by
  cases pass with
  | send pass => cases running
  | fin pass => cases running
  | native pass =>
      obtain ⟨opened, past, rest⟩ := pass
      cases rest with
      | nil => cases opened <;> cases settles <;> cases running
      | cons der rest => rfl

theorem native_answer {pass : CleanupPass} {settles : Bool} {table : List NssRow}
    {deletes : Bytes → List NssRow → Option (List NssRow)} {native : NativePass}
    (same : (pass.answer settles deletes table).1 = .native native) :
    ∃ old, pass = .native old := by
  cases pass with
  | send pass => cases same
  | fin pass => cases same
  | native pass => exact ⟨pass, rfl⟩

theorem ThreadKept.begin {run : List CleanupEvent} {state : Cleanups} {pass : CleanupPass}
    (kept : ThreadKept run state)
    (started : ∀ native, pass = .native native → state.spawned = true)
    (alone : pass.onThread = true → state.passes.any CleanupPass.onThread = false) :
    ThreadKept run (state.begin pass) where
  demanded := kept.demanded
  started place native placed := by
    rcases get_append_singleton placed with old | ⟨_, same⟩
    · exact kept.started place native old
    · exact started native same.symm
  single first second one other placed placedToo running runningToo := by
    have none {place : Nat} {old : CleanupPass} (found : state.passes[place]? = some old)
        (held : old.onThread = true) : pass.onThread = false := by
      apply Bool.eq_false_iff.mpr
      intro also
      have idle := List.any_eq_false.mp (alone also) old (List.mem_of_getElem? found)
      exact idle held
    rcases get_append_singleton placed with old | ⟨rfl, rfl⟩
    · rcases get_append_singleton placedToo with oldToo | ⟨rfl, rfl⟩
      · exact kept.single first second one other old oldToo running runningToo
      · rw [none old running] at runningToo
        cases runningToo
    · rcases get_append_singleton placedToo with oldToo | ⟨rfl, _⟩
      · rw [none oldToo runningToo] at running
        cases running
      · rfl

theorem ThreadKept.later {run : List CleanupEvent} {state : Cleanups} (event : CleanupEvent)
    (kept : ThreadKept run state) : ThreadKept (run ++ [event]) state where
  demanded spawned := List.mem_append_left _ (kept.demanded spawned)
  started := kept.started
  single := kept.single

/-- Where a pass is after another one went on. -/
theorem set_at {passes : List CleanupPass} {place other : Nat} {new pass : CleanupPass}
    (placed : (passes.set place new)[other]? = some pass) :
    place = other ∧ pass = new ∨ place ≠ other ∧ passes[other]? = some pass := by
  by_cases here : place = other
  · subst here
    have inside : place < passes.length := by
      simpa using (List.getElem?_eq_some_iff.mp placed).1
    rw [List.getElem?_set_self inside] at placed
    exact Or.inl ⟨rfl, (Option.some.inj placed).symm⟩
  · rw [List.getElem?_set_ne here] at placed
    exact Or.inr ⟨here, placed⟩

theorem ThreadKept.answered {run : List CleanupEvent} {state : Cleanups} {place : Nat}
    {pass : CleanupPass} {settles : Bool} {left : List NssRow}
    {deletes : Bytes → List NssRow → Option (List NssRow)} (kept : ThreadKept run state)
    (found : state.passes[place]? = some pass) : ThreadKept run { state with
      table := left
      passes := state.passes.set place (pass.answer settles deletes state.table).1 } where
  demanded := kept.demanded
  started other native placed := by
    rcases set_at placed with ⟨rfl, same⟩ | ⟨_, before⟩
    · obtain ⟨old, rfl⟩ := native_answer same.symm
      exact kept.started place old found
    · exact kept.started other native before
  single first second one other placed placedToo running runningToo := by
    have earlier {at_ : Nat} {here : CleanupPass}
        (held : (state.passes.set place (pass.answer settles deletes state.table).1)[at_]? =
          some here) (runs : here.onThread = true) :
        ∃ old, state.passes[at_]? = some old ∧ old.onThread = true := by
      rcases set_at held with ⟨rfl, rfl⟩ | ⟨_, before⟩
      · exact ⟨pass, found, on_thread_answer runs⟩
      · exact ⟨here, before, runs⟩
    obtain ⟨old, before, ran⟩ := earlier placed running
    obtain ⟨oldToo, beforeToo, ranToo⟩ := earlier placedToo runningToo
    exact kept.single first second old oldToo before beforeToo ran ranToo

theorem thread_step {run : List CleanupEvent} {state : Cleanups} (event : CleanupEvent)
    (kept : ThreadKept run state) : ThreadKept (run ++ [event]) (step event state) := by
  have same := kept.later event
  cases event with
  | write row => exact ⟨same.demanded, same.started, same.single⟩
  | send email =>
      simp only [step, doCleanup]
      split
      · exact same
      · split
        · exact same
        · apply same.begin
          · intro native other
            cases other
          · intro running
            cases running
  | quit getCerts =>
      simp only [step, doCleanupFin]
      split
      · exact same
      · split
        · exact same
        · apply same.begin
          · intro native other
            cases other
          · intro running
            cases running
  | cInitialize cleanupEnable =>
      refine ⟨fun spawned => ?_, fun place pass placed => ?_, kept.single⟩
      · rcases Bool.or_eq_true_iff.mp spawned with before | demanded
        · exact same.demanded before
        · rw [beq_iff_eq] at demanded
          simp [demanded]
      · exact Bool.or_eq_true_iff.mpr (Or.inl (kept.started place pass placed))
  | wake profileDir databaseExists os =>
      simp only [step, runPass]
      split
      · exact same
      case isFalse ready =>
        rw [Bool.or_eq_true, not_or, Bool.not_eq_true', Bool.not_eq_false] at ready
        split
        · exact same
        · split
          · exact same
          · split
            · exact same
            · exact same.begin (fun _ _ => ready.1) fun _ => Bool.eq_false_iff.mpr ready.2
  | answer place settles deletes =>
      cases found : state.passes[place]? with
      | none =>
          simp only [step, found]
          exact same
      | some pass =>
          rw [answered_at found]
          exact same.answered found

def initial (table : List NssRow) : Cleanups := ⟨table, [], false⟩

def afterRun (table : List NssRow) (run : List CleanupEvent) : Cleanups :=
  after step run (initial table)

def turnsOf (table : List NssRow) (run : List CleanupEvent) : List Turn :=
  order step turns run (initial table)

/-- However the passes interleave, they act as if each had made its turns without a wait, and
one after the other. -/
structure Serialized (table : List NssRow) (run : List CleanupEvent) : Prop where
  serial : (afterRun table run).table = inOrder Turn.take (turnsOf table run) table
  /-- Each pass has its turns in the order, each of them once and in the order of the pass. -/
  own : ∀ (place : Nat) (pass : CleanupPass), (afterRun table run).passes[place]? = some pass →
    ownTurns Turn.owner Turn.selects place (turnsOf table run) = pass.dealt
  /-- A pass that is over comes before one that is called later. -/
  realTime : ∀ earlier later, run = earlier ++ later → ∃ rest,
    turnsOf table run = turnsOf table earlier ++ rest ∧
      (∀ turn ∈ turnsOf table earlier, ∀ place, turn.owner = some place →
        place < (afterRun table earlier).passes.length) ∧
      ∀ turn ∈ rest, ∀ place pass, (afterRun table earlier).passes[place]? = some pass →
        turn.owner = some place → ¬pass.Over
  /-- After a pass that reports a deletion, a row with its address is one that NSS has
  written since the pass was called. -/
  cleared : ∀ earlier later, run = earlier ++ later → ∀ (place : Nat) (pass : SendPass),
    (afterRun table earlier).passes[place]? = none →
    (afterRun table run).passes[place]? = some (.send pass) → pass.Reports →
      ∀ row ∈ (afterRun table run).table, hasEmail pass.email row = true → .write row ∈ later
  spared : ∀ row ∈ table, (∀ turn ∈ turnsOf table run, turn.selects row = false) →
    row ∈ (afterRun table run).table
  thread : ThreadKept run (afterRun table run)

section
variable {table : List NssRow} {run : List CleanupEvent}

theorem initial_dealt (place : Nat) : (initial table).dealtAt place = [] := by
  simp [initial, dealtAt]

theorem own_counted (run : List CleanupEvent) (place : Nat) :
    (afterRun table run).dealtAt place =
      ownTurns Turn.owner Turn.selects place (turnsOf table run) := by
  have counted := own_turns step_dealt run (initial table) place
  rwa [initial_dealt, List.nil_append] at counted

theorem turn_begun {turn : Turn} (member : turn ∈ turnsOf table run) {place : Nat}
    (owned : turn.owner = some place) : place < (afterRun table run).passes.length := by
  by_contra beyond
  have absent : (afterRun table run).passes[place]? = none :=
    List.getElem?_eq_none (Nat.le_of_not_lt beyond)
  have counted := @own_counted table run place
  rw [dealtAt, absent] at counted
  have none := counted.symm
  rw [Option.map_none, Option.getD_none, ownTurns, List.map_eq_nil_iff,
    List.filter_eq_nil_iff] at none
  exact none turn member (by simpa using owned)

theorem cleared_since {earlier later : List CleanupEvent} {place : Nat} {pass : SendPass}
    (sound : ∀ event ∈ later, event.Sound)
    (before : (afterRun table earlier).passes[place]? = none)
    (found : (afterRun table (earlier ++ later)).passes[place]? = some (.send pass))
    (reports : pass.Reports) {row : NssRow}
    (left : row ∈ (afterRun table (earlier ++ later)).table)
    (matching : hasEmail pass.email row = true) : .write row ∈ later := by
  have split : afterRun table (earlier ++ later) = after step later (afterRun table earlier) :=
    after_append step earlier later (initial table)
  rw [split] at found left
  have taken := reported_turn later ⟨pass, found, rfl, reports⟩
  have new : ¬(afterRun table earlier).ReportedAt place pass.email := by
    rintro ⟨old, held, _⟩
    rw [before] at held
    cases held
  obtain ⟨first, last, ordered⟩ := List.append_of_mem (taken.resolve_left new)
  have turns := order_sound sound (afterRun table earlier)
  rw [serial step_table sound, ordered, inOrder, List.foldl_append, List.foldl_cons] at left
  rw [ordered] at turns
  have since := in_order_adds
    (fun turn member => turns turn (by simp [member])) left
  rcases since with kept | new
  · exact absurd kept (take_clears pass.given matching)
  · apply @written later (afterRun table earlier) row
    rw [ordered]
    simp [new]

end

/-- For every table, all passes and any interleaving, as long as `deleteCertificate` takes
copies only. -/
theorem cleanups_serialize {table : List NssRow} {run : List CleanupEvent}
    (sound : ∀ event ∈ run, event.Sound) : Serialized table run := by
  refine ⟨serial step_table sound _, ?_, ?_, ?_, ?_, ?_⟩
  · intro place pass found
    rw [← own_counted, dealtAt, found]
    rfl
  · rintro earlier later rfl
    refine ⟨order step turns later (afterRun table earlier), order_append _ _ _, ?_, ?_⟩
    · intro turn member place owned
      exact turn_begun member owned
    · intro turn member place pass found owned ended
      exact over_quiet found ended later turn member owned
  · rintro earlier later rfl place pass before found reports row left matching
    have soundLater := fun event member => sound event (List.mem_append_right earlier member)
    exact cleared_since soundLater before found reports left matching
  · intro row member others
    rw [afterRun, serial step_table sound]
    exact in_order_spares (order_sound sound _) member others
  · induction run using List.reverseRec with
    | nil =>
        refine ⟨fun spawned => ?_, fun place pass found => ?_,
          fun first second pass other found => ?_⟩
        · cases spawned
        · simp [afterRun, initial] at found
        · simp [afterRun, initial] at found
    | append_singleton earlier event ih =>
        rw [afterRun, after_concat]
        exact thread_step event (ih fun other member =>
          sound other (List.mem_append_left [event] member))

/-- Two windows send for one address, and both find the row that only one of them can delete;
NSS writes it again, and the pass at shutdown takes it. -/
theorem crossing_sends_serialize :
    let address := ofAscii "me@example.org"
    let stale : NssRow :=
      ⟨1, .blob ckoCertificateBytes, .blob [1], .blob (emailBytes address), []⟩
    let live : X509Cert := ⟨some osClientCertsTokenName, [address], [1], [], [], []⟩
    let removes : Bytes → List NssRow → Option (List NssRow) :=
      fun der table => some (delete (isCopyOf der) table)
    Serialized [stale] [.send (some address), .send (some address), .answer 0 true removes,
      .answer 1 true removes, .answer 0 true removes, .answer 1 true removes,
      .answer 0 true removes, .answer 1 true removes, .write stale, .quit (some [live]),
      .answer 2 true removes, .answer 2 true removes, .answer 2 true removes] := by
  intro address stale live removes
  have copies : TakesCopies removes := by
    intro der table left removed
    exact ⟨fun row => !isCopyOf der row, (Option.some.inj removed).symm, by simp⟩
  apply cleanups_serialize
  intro event member
  cases event with
  | answer place settles deletes =>
      simp only [List.mem_cons, CleanupEvent.answer.injEq, reduceCtorEq, false_or, or_false,
        List.not_mem_nil] at member
      rcases member with same | same | same | same | same | same | same | same | same
      all_goals
        rw [same.2.2]
        exact copies
  | write | send | quit | cInitialize | wake => trivial

end Cleanups
end OsClientCerts.CertCleanup
