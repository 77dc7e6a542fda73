import OsClientCerts.InterleavedCleanups
import OsClientCerts.SerialTurns

/-!
The turns that the cleanups take at the table: each changes it as the uninterrupted pass
would at that moment, and each pass keeps count of its own.
-/

namespace OsClientCerts.CertCleanup
open CertDatabase Deletions LocalAutomata SerialTurns

/-!
A pass before a send takes its one turn when its query finds nothing or its statement is
executed; the other passes take one turn for each live certificate. Each turn is what the
uninterrupted pass would do at that moment. -/

inductive Turn where
  | write (row : NssRow)
  | send (place : Nat) (email : JsString) (sqlite : Sqlite)
  | fin (place : Nat) (liveCert : X509Cert) (certDb : CertDb)
  | native (place : Nat) (der : Bytes) (executes : Bool)

namespace Turn

def take : Turn → List NssRow → List NssRow
  | .write row, table => table ++ [row]
  | .send _ email sqlite, table => (doCleanup sqlite (some email) table).2
  | .fin _ liveCert certDb, table => (checkLiveCert certDb ([], table) (liveCert, 0)).2
  | .native _ der executes, table => if executes then delete (isCopyOf der) table else table

def owner : Turn → Option Nat
  | .write _ => none
  | .send place _ _ | .fin place _ _ | .native place _ _ => some place

def selects : Turn → NssRow → Bool
  | .write _ => fun _ => false
  | .send _ email _ => hasEmail email
  | .fin _ liveCert _ => isCopyOf liveCert.rawDer
  | .native _ der _ => isCopyOf der

end Turn

def SendPass.turns (pass : SendPass) (place : Nat) (settles : Bool) (table : List NssRow) :
    List Turn :=
  match pass.stage with
  | .opening => if settles then [] else [.send place pass.email ⟨false, true, true, true⟩]
  | .selecting =>
      if settles && !(table.filter (hasEmail pass.email)).isEmpty then []
      else [.send place pass.email ⟨true, settles, true, true⟩]
  | .deleting _ => [.send place pass.email ⟨true, true, settles, true⟩]
  | .closing _ | .settled _ => []

def asked (selects : Bool) (deleteCertificate : Bytes → List NssRow → Option (List NssRow)) :
    CertDb :=
  ⟨none, true, fun _ => selects, deleteCertificate, true⟩

def FinPass.turns (pass : FinPass) (place : Nat) (settles : Bool)
    (deleteCertificate : Bytes → List NssRow → Option (List NssRow)) (table : List NssRow) :
    List Turn :=
  match pass.stage, pass.rest with
  | .selecting, liveCert :: _ =>
      if settles && !(table.filter (isCopyOf liveCert.rawDer)).isEmpty then []
      else [.fin place liveCert (asked settles deleteCertificate)]
  | .deleting _, liveCert :: _ => [.fin place liveCert (asked true deleteCertificate)]
  | _, _ => []

def NativePass.turns (pass : NativePass) (place : Nat) (settles : Bool) : List Turn :=
  match pass.opened, pass.rest with
  | true, der :: _ => [.native place der settles]
  | _, _ => []

namespace CleanupPass

def turns (pass : CleanupPass) (place : Nat) (settles : Bool)
    (deleteCertificate : Bytes → List NssRow → Option (List NssRow)) (table : List NssRow) :
    List Turn :=
  match pass with
  | .send pass => pass.turns place settles table
  | .fin pass => pass.turns place settles deleteCertificate table
  | .native pass => pass.turns place settles

def dealt : CleanupPass → List (NssRow → Bool)
  | .send pass => match pass.stage with
      | .opening | .selecting | .deleting _ => []
      | .closing _ | .settled _ => [hasEmail pass.email]
  | .fin pass => pass.past.map fun liveCert => isCopyOf liveCert.rawDer
  | .native pass => pass.past.map isCopyOf

end CleanupPass

namespace Cleanups

def turns : CleanupEvent → Cleanups → List Turn
  | .write row, _ => [.write row]
  | .answer place settles deleteCertificate, state =>
      match state.passes[place]? with
      | none => []
      | some pass => pass.turns place settles deleteCertificate state.table
  | _, _ => []

end Cleanups

/-- `deleteCertificate` takes copies of the certificate, and nothing else. -/
def TakesCopies (deleteCertificate : Bytes → List NssRow → Option (List NssRow)) : Prop :=
  ∀ der table left, deleteCertificate der table = some left →
    ∃ keeps : NssRow → Bool, left = table.filter keeps ∧
      ∀ row, isCopyOf der row = false → keeps row = true

def CleanupEvent.Sound : CleanupEvent → Prop
  | .answer _ _ deleteCertificate => TakesCopies deleteCertificate
  | _ => True

section
variable {table : List NssRow} {settles : Bool} {place : Nat}
  {deleteCertificate : Bytes → List NssRow → Option (List NssRow)}

theorem take_absent {der : Bytes} {left : List NssRow} (sound : TakesCopies deleteCertificate)
    (absent : table.filter (isCopyOf der) = [])
    (removed : deleteCertificate der table = some left) : left = table := by
  obtain ⟨keeps, rfl, others⟩ := sound der table left removed
  rw [List.filter_eq_self]
  intro row member
  apply others
  exact Bool.eq_false_iff.mpr (List.filter_eq_nil_iff.mp absent row member)

theorem send_take_nothing {sqlite : Sqlite} {email : JsString}
    (found : table.filter (hasEmail email) = []) :
    Turn.take (.send place email sqlite) table = table := by
  have statements := do_cleanup_deletes sqlite (some email) table
  rw [Turn.take, statements, delete_each_filter, List.filter_eq_self]
  intro row member
  refine List.all_eq_true.mpr fun selects given => ?_
  rw [Bool.not_eq_true', Bool.eq_false_iff]
  intro selected
  obtain ⟨_, _, _, address, same, _, matching⟩ :=
    mem_send_statements.mp ⟨selects, given, selected⟩
  cases same
  exact List.filter_eq_nil_iff.mp found row member matching

theorem send_take_found {email : JsString} (given : email ≠ []) :
    Turn.take (.send place email ⟨true, true, settles, true⟩) table =
      if settles then delete (hasEmail email) table else table := by
  have statements := do_cleanup_deletes ⟨true, true, settles, true⟩ (some email) table
  rw [Turn.take, statements]
  cases settles with
  | false => simp [sendStatements, deleteEach]
  | true => simp [sendStatements, deleteEach, given]

theorem send_turns (pass : SendPass) : (pass.answer settles table).2 =
    inOrder Turn.take (pass.turns place settles table) table := by
  obtain ⟨email, given, stage⟩ := pass
  cases stage with
  | opening => cases settles <;> simp [SendPass.answer, SendPass.turns, inOrder, Turn.take,
      doCleanup]
  | selecting =>
      by_cases found : table.filter (hasEmail email) = []
      · simp [SendPass.answer, SendPass.turns, inOrder, found, send_take_nothing]
      · cases settles <;>
          simp [SendPass.answer, SendPass.turns, inOrder, Turn.take, doCleanup, found]
  | deleting rowCount =>
      rw [SendPass.turns, inOrder, List.foldl_cons, List.foldl_nil, send_take_found given]
      cases settles <;> rfl
  | closing deleted => rfl
  | settled result => rfl

theorem fin_take_nothing {liveCert : X509Cert}
    (found : table.filter (isCopyOf liveCert.rawDer) = []) :
    Turn.take (.fin place liveCert (asked settles deleteCertificate)) table = table := by
  have absent : ∀ row ∈ table, isCopyOf liveCert.rawDer row = false := fun row member =>
    Bool.eq_false_iff.mpr (List.filter_eq_nil_iff.mp found row member)
  rw [Turn.take, check_live_cert_absent absent]

theorem fin_take_found {liveCert : X509Cert}
    (found : table.filter (isCopyOf liveCert.rawDer) ≠ []) :
    Turn.take (.fin place liveCert (asked true deleteCertificate)) table =
      (deleteCertificate liveCert.rawDer table).getD table := by
  have some_ : (table.filter (isCopyOf liveCert.rawDer)).length ≠ 0 := by
    rwa [Ne, List.length_eq_zero_iff]
  rw [Turn.take, checkLiveCert, asked]
  simp only [Bool.not_true, Bool.false_eq_true, if_false, if_neg some_]
  cases deleteCertificate liveCert.rawDer table <;> rfl

theorem fin_turns (sound : TakesCopies deleteCertificate) (pass : FinPass) :
    (pass.answer settles deleteCertificate table).2 =
      inOrder Turn.take (pass.turns place settles deleteCertificate table) table := by
  obtain ⟨past, rest, deleted, stage⟩ := pass
  cases stage with
  | opening => rfl
  | selecting =>
      cases rest with
      | nil => rfl
      | cons liveCert rest =>
          by_cases found : table.filter (isCopyOf liveCert.rawDer) = []
          · cases settles <;>
              simp [FinPass.answer, FinPass.turns, inOrder, found, fin_take_nothing]
          · cases settles <;> simp [FinPass.answer, FinPass.turns, inOrder, found, Turn.take,
              checkLiveCert, asked]
  | deleting rowCount =>
      cases rest with
      | nil => rfl
      | cons liveCert rest =>
          have taken : (FinPass.answer ⟨past, liveCert :: rest, deleted, .deleting rowCount⟩
              settles deleteCertificate table).2 =
                (deleteCertificate liveCert.rawDer table).getD table := by
            dsimp only [FinPass.answer]
            cases deleteCertificate liveCert.rawDer table <;> rfl
          rw [taken, FinPass.turns, inOrder, List.foldl_cons, List.foldl_nil]
          by_cases found : table.filter (isCopyOf liveCert.rawDer) = []
          · rw [fin_take_nothing found]
            cases removed : deleteCertificate liveCert.rawDer table with
            | none => rfl
            -- The rows it was told of are gone, so there was nothing to take.
            | some left => exact take_absent sound found removed
          · rw [fin_take_found found]
  | closing => rfl
  | settled result => rfl

theorem native_turns (pass : NativePass) : (pass.answer settles table).2 =
    inOrder Turn.take (pass.turns place settles) table := by
  obtain ⟨opened, past, rest⟩ := pass
  cases opened with
  | false => rfl
  | true =>
      cases rest with
      | nil => rfl
      | cons der rest => rfl

theorem pass_turns (sound : TakesCopies deleteCertificate) (pass : CleanupPass) :
    (pass.answer settles deleteCertificate table).2 =
      inOrder Turn.take (pass.turns place settles deleteCertificate table) table := by
  cases pass with
  | send pass => exact send_turns pass
  | fin pass => exact fin_turns sound pass
  | native pass => exact native_turns pass

theorem send_dealt (pass : SendPass) :
    CleanupPass.dealt (.send (pass.answer settles table).1) = CleanupPass.dealt (.send pass) ++
      (pass.turns place settles table).map Turn.selects := by
  obtain ⟨email, given, stage⟩ := pass
  cases stage with
  | opening =>
      cases settles <;> simp [SendPass.answer, SendPass.turns, CleanupPass.dealt, Turn.selects]
  | selecting =>
      by_cases found : table.filter (hasEmail email) = []
      · cases settles <;> simp [SendPass.answer, SendPass.turns, CleanupPass.dealt, Turn.selects,
          found]
      · cases settles <;> simp [SendPass.answer, SendPass.turns, CleanupPass.dealt, Turn.selects,
          found]
  | deleting rowCount =>
      cases settles <;> simp [SendPass.answer, SendPass.turns, CleanupPass.dealt, Turn.selects]
  | closing deleted =>
      cases settles <;> simp [SendPass.answer, SendPass.turns, CleanupPass.dealt]
  | settled result => simp [SendPass.answer, SendPass.turns, CleanupPass.dealt]

theorem fin_dealt (pass : FinPass) :
    CleanupPass.dealt (.fin (pass.answer settles deleteCertificate table).1) =
      CleanupPass.dealt (.fin pass) ++
        (pass.turns place settles deleteCertificate table).map Turn.selects := by
  obtain ⟨past, rest, deleted, stage⟩ := pass
  cases stage with
  | opening => simp [FinPass.answer, FinPass.turns, CleanupPass.dealt]
  | selecting =>
      cases rest with
      | nil => simp [FinPass.answer, FinPass.turns, CleanupPass.dealt]
      | cons liveCert rest =>
          by_cases found : table.filter (isCopyOf liveCert.rawDer) = []
          · cases settles <;> simp [FinPass.answer, FinPass.turns, FinPass.next,
              CleanupPass.dealt, Turn.selects, found]
          · cases settles <;> simp [FinPass.answer, FinPass.turns, FinPass.next,
              CleanupPass.dealt, Turn.selects, found]
  | deleting rowCount =>
      cases rest with
      | nil => simp [FinPass.answer, FinPass.turns, CleanupPass.dealt]
      | cons liveCert rest =>
          cases removed : deleteCertificate liveCert.rawDer table with
          | none => simp [FinPass.answer, FinPass.turns, FinPass.next, CleanupPass.dealt,
              Turn.selects, removed]
          | some left => simp [FinPass.answer, FinPass.turns, FinPass.next, CleanupPass.dealt,
              Turn.selects, removed]
  | closing => simp [FinPass.answer, FinPass.turns, CleanupPass.dealt]
  | settled result => simp [FinPass.answer, FinPass.turns, CleanupPass.dealt]

theorem native_dealt (pass : NativePass) :
    CleanupPass.dealt (.native (pass.answer settles table).1) =
      CleanupPass.dealt (.native pass) ++ (pass.turns place settles).map Turn.selects := by
  obtain ⟨opened, past, rest⟩ := pass
  cases opened with
  | false => cases settles <;> simp [NativePass.answer, NativePass.turns, CleanupPass.dealt]
  | true =>
      cases rest with
      | nil => simp [NativePass.answer, NativePass.turns, CleanupPass.dealt]
      | cons der rest => simp [NativePass.answer, NativePass.turns, CleanupPass.dealt,
          Turn.selects]

theorem pass_dealt (pass : CleanupPass) : (pass.answer settles deleteCertificate table).1.dealt =
    pass.dealt ++ (pass.turns place settles deleteCertificate table).map Turn.selects := by
  cases pass with
  | send pass => exact send_dealt pass
  | fin pass => exact fin_dealt pass
  | native pass => exact native_dealt pass

theorem turns_owned (pass : CleanupPass) :
    ∀ turn ∈ pass.turns place settles deleteCertificate table, turn.owner = some place := by
  intro turn member
  cases pass with
  | send pass =>
      simp only [CleanupPass.turns, SendPass.turns] at member
      split at member
      · split at member <;> simp_all [Turn.owner]
      · split at member <;> simp_all [Turn.owner]
      · simp_all [Turn.owner]
      · cases member
      · cases member
  | fin pass =>
      simp only [CleanupPass.turns, FinPass.turns] at member
      split at member
      · split at member <;> simp_all [Turn.owner]
      · simp_all [Turn.owner]
      · cases member
  | native pass =>
      simp only [CleanupPass.turns, NativePass.turns] at member
      split at member
      · simp_all [Turn.owner]
      · cases member

theorem turns_asked {pass : CleanupPass} {answered : Nat} {liveCert : X509Cert}
    {certDb : CertDb}
    (member : .fin answered liveCert certDb ∈
      pass.turns place settles deleteCertificate table) :
    ∃ selects, certDb = asked selects deleteCertificate := by
  -- The database of a turn at shutdown is the one that answers.
  cases pass with
  | send pass =>
      simp only [CleanupPass.turns, SendPass.turns] at member
      repeat' split at member
      all_goals simp at member
  | fin pass =>
      simp only [CleanupPass.turns, FinPass.turns] at member
      repeat' split at member
      all_goals simp at member
      · exact ⟨settles, member.2.2⟩
      · exact ⟨true, member.2.2⟩
  | native pass =>
      simp only [CleanupPass.turns, NativePass.turns] at member
      split at member <;> simp at member

theorem own_of_owned {taken : List Turn} (owned : ∀ turn ∈ taken, turn.owner = some place) :
    ownTurns Turn.owner Turn.selects place taken = taken.map Turn.selects := by
  rw [ownTurns, List.filter_eq_self.mpr fun turn member => decide_eq_true (owned turn member)]

theorem own_of_others {other : Nat} {taken : List Turn} (different : place ≠ other)
    (owned : ∀ turn ∈ taken, turn.owner = some place) :
    ownTurns Turn.owner Turn.selects other taken = [] := by
  rw [ownTurns, List.filter_eq_nil_iff.mpr, List.map_nil]
  intro turn member
  rw [owned turn member]
  simpa using different

end

def CleanupPass.Fresh : CleanupPass → Prop
  | .send pass => pass.stage = .opening
  | .fin pass => pass.past = []
  | .native pass => pass.past = []

theorem CleanupPass.Fresh.dealt {pass : CleanupPass} (fresh : pass.Fresh) : pass.dealt = [] := by
  cases pass with
  | send pass =>
      have stage : pass.stage = .opening := fresh
      rw [CleanupPass.dealt, stage]
  | fin pass =>
      have past : pass.past = [] := fresh
      rw [CleanupPass.dealt, past, List.map_nil]
  | native pass =>
      have past : pass.past = [] := fresh
      rw [CleanupPass.dealt, past, List.map_nil]

namespace Cleanups

theorem step_cases (event : CleanupEvent) (state : Cleanups) :
    (∃ row, event = .write row) ∨
    (∃ place settles deleteCertificate pass, event = .answer place settles deleteCertificate ∧
      state.passes[place]? = some pass) ∨
    (turns event state = [] ∧ (step event state).table = state.table ∧
      ∃ added, (step event state).passes = state.passes ++ added ∧
        ∀ pass ∈ added, CleanupPass.Fresh pass) := by
  -- What a step is: a row is written, a pass goes on, or at most passes are added.
  have same : ∃ added, state.passes = state.passes ++ added ∧
      ∀ pass ∈ added, CleanupPass.Fresh pass := ⟨[], by simp, nofun⟩
  have one {pass : CleanupPass} (fresh : pass.Fresh) : ∃ added,
      (state.begin pass).passes = state.passes ++ added ∧
        ∀ pass ∈ added, CleanupPass.Fresh pass :=
    ⟨[pass], rfl, fun other member => List.mem_singleton.mp member ▸ fresh⟩
  cases event with
  | write row => exact Or.inl ⟨row, rfl⟩
  | answer place settles deleteCertificate =>
      cases found : state.passes[place]? with
      | none =>
          refine Or.inr (Or.inr ?_)
          simpa only [turns, step, found, true_and] using same
      | some pass => exact Or.inr (Or.inl ⟨place, settles, deleteCertificate, pass, rfl, found⟩)
  | send email =>
      refine Or.inr (Or.inr ⟨rfl, ?_⟩)
      simp only [step, doCleanup]
      split
      · exact ⟨rfl, same⟩
      · split
        · exact ⟨rfl, same⟩
        · exact ⟨rfl, one rfl⟩
  | quit getCerts =>
      refine Or.inr (Or.inr ⟨rfl, ?_⟩)
      simp only [step, doCleanupFin]
      split
      · exact ⟨rfl, same⟩
      · split
        · exact ⟨rfl, same⟩
        · exact ⟨rfl, one rfl⟩
  | cInitialize cleanupEnable => exact Or.inr (Or.inr ⟨rfl, rfl, same⟩)
  | wake profileDir databaseExists os =>
      refine Or.inr (Or.inr ⟨rfl, ?_⟩)
      simp only [step, runPass]
      repeat' split
      all_goals first
        | exact ⟨rfl, same⟩
        | exact ⟨rfl, one rfl⟩

theorem added_at {state : Cleanups} {added passes : List CleanupPass}
    (grown : passes = state.passes ++ added) (fresh : ∀ pass ∈ added, CleanupPass.Fresh pass)
    {place : Nat} {pass : CleanupPass} (found : passes[place]? = some pass) :
    state.passes[place]? = some pass ∨ pass.Fresh := by
  rw [grown, List.getElem?_append] at found
  split at found
  · exact Or.inl found
  · exact Or.inr (fresh pass (List.mem_of_getElem? found))

theorem kept_at {state : Cleanups} {added passes : List CleanupPass}
    (grown : passes = state.passes ++ added) {place : Nat} {pass : CleanupPass}
    (found : state.passes[place]? = some pass) : passes[place]? = some pass := by
  rw [grown, List.getElem?_append_left (List.getElem?_eq_some_iff.mp found).1, found]

theorem answered_at {state : Cleanups} {settles : Bool} {place : Nat} {pass : CleanupPass}
    {deleteCertificate : Bytes → List NssRow → Option (List NssRow)}
    (found : state.passes[place]? = some pass) :
    step (.answer place settles deleteCertificate) state = { state with
      table := (pass.answer settles deleteCertificate state.table).2
      passes := state.passes.set place
        (pass.answer settles deleteCertificate state.table).1 } := by
  simp only [step, found]

theorem answer_turns {state : Cleanups} {settles : Bool} {place : Nat} {pass : CleanupPass}
    {deleteCertificate : Bytes → List NssRow → Option (List NssRow)}
    (found : state.passes[place]? = some pass) :
    turns (.answer place settles deleteCertificate) state =
      pass.turns place settles deleteCertificate state.table := by
  simp only [turns, found]

theorem step_table (event : CleanupEvent) (state : Cleanups) (sound : event.Sound) :
    (step event state).table = inOrder Turn.take (turns event state) state.table := by
  rcases step_cases event state with ⟨row, rfl⟩ | ⟨place, settles, deletes, pass, rfl, found⟩ |
    ⟨quiet, same, _⟩
  · rfl
  · rw [answered_at found, answer_turns found]
    exact pass_turns sound pass
  · rw [quiet, same]
    rfl

def dealtAt (place : Nat) (state : Cleanups) : List (NssRow → Bool) :=
  (state.passes[place]?.map CleanupPass.dealt).getD []

theorem step_dealt (event : CleanupEvent) (state : Cleanups) (place : Nat) :
    (step event state).dealtAt place = state.dealtAt place ++
      ownTurns Turn.owner Turn.selects place (turns event state) := by
  rcases step_cases event state with ⟨row, rfl⟩ | ⟨answered, settles, deletes, pass, rfl, found⟩ |
    ⟨quiet, _, added, grown, fresh⟩
  · simp [step, turns, dealtAt, ownTurns, Turn.owner]
  · have owned := @turns_owned state.table settles answered deletes pass
    rw [answer_turns found, answered_at found]
    by_cases here : answered = place
    · subst here
      have inside := (List.getElem?_eq_some_iff.mp found).1
      rw [own_of_owned owned, dealtAt, dealtAt, found]
      simp only [List.getElem?_set_self inside, Option.map_some, Option.getD_some]
      exact pass_dealt pass
    · rw [own_of_others here owned, dealtAt, dealtAt, List.append_nil]
      simp only [List.getElem?_set_ne here]
  · rw [quiet, ownTurns, List.filter_nil, List.map_nil, List.append_nil, dealtAt, dealtAt]
    cases before : state.passes[place]? with
    | some pass => rw [kept_at grown before]
    | none =>
        cases placed : (step event state).passes[place]? with
        | none => rfl
        | some pass =>
            rcases added_at grown fresh placed with old | new
            · rw [before] at old
              cases old
            · exact new.dealt

end Cleanups
end OsClientCerts.CertCleanup
