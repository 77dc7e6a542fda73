import OsClientCerts.Cert9Cleanup
import OsClientCerts.CertCleanup

/-!
All the cleanups at one table: the passes of several sends, the pass at shutdown and the
passes of the native thread, each with its own connection, while NSS writes rows. A pass
waits for every call it makes, and anything may happen in between.
-/

namespace OsClientCerts.CertCleanup
open CertDatabase Deletions

/-- What a call of `doCleanup` waits for. -/
inductive SendStage where
  | opening
  | selecting
  | deleting (rowCount : Nat)
  | closing (deleted : List DeletedRecord)
  | settled (result : Except Unit (List DeletedRecord))

structure SendPass where
  email : JsString
  given : email ≠ []
  stage : SendStage

def SendPass.answer (pass : SendPass) (settles : Bool) (table : List NssRow) :
    SendPass × List NssRow :=
  match pass.stage with
  | .opening => ({ pass with stage := if settles then .selecting else .settled (.ok []) }, table)
  | .selecting =>
      let rows := if settles then table.filter (hasEmail pass.email) else []
      ({ pass with stage := if rows.isEmpty then .closing [] else .deleting rows.length }, table)
  | .deleting rowCount =>
      if settles then
        ({ pass with stage := .closing [⟨pass.email, ofAscii "-", ofAscii "-", rowCount⟩] },
          delete (hasEmail pass.email) table)
      else ({ pass with stage := .closing [] }, table)
  | .closing deleted =>
      ({ pass with stage := .settled (if settles then .ok deleted else .error ()) }, table)
  | .settled _ => (pass, table)

inductive FinStage where
  | opening
  | selecting
  | deleting (rowCount : Nat)
  | closing
  | settled (result : Except Unit (List DeletedRecord))

/-- A call of `doCleanupFin`: the live certificates that its loop is past, and the others. -/
structure FinPass where
  past : List X509Cert
  rest : List X509Cert
  deleted : List DeletedRecord
  stage : FinStage

def FinPass.next (pass : FinPass) (liveCert : X509Cert) (rest : List X509Cert) : FinPass :=
  { pass with
    past := pass.past ++ [liveCert]
    rest := rest
    stage := if rest.isEmpty then .closing else .selecting }

/-- `constructX509` and `deleteCertificate` follow the query without another wait, but the
rows may be gone by then. -/
def FinPass.answer (pass : FinPass) (settles : Bool)
    (deleteCertificate : Bytes → List NssRow → Option (List NssRow)) (table : List NssRow) :
    FinPass × List NssRow :=
  match pass.stage, pass.rest with
  | .opening, _ =>
      ({ pass with stage := if settles then .selecting else .settled (.ok pass.deleted) }, table)
  | .selecting, liveCert :: rest =>
      if !settles then (pass.next liveCert rest, table)
      else
        let rows := table.filter (isCopyOf liveCert.rawDer)
        if rows.length = 0 then (pass.next liveCert rest, table)
        else ({ pass with stage := .deleting rows.length }, table)
  | .deleting rowCount, liveCert :: rest =>
      match deleteCertificate liveCert.rawDer table with
      | none => (pass.next liveCert rest, table)
      | some left =>
          ({ pass.next liveCert rest with deleted := pass.deleted ++ [⟨liveCert.subjectName,
            liveCert.issuerName, liveCert.serialNumber, rowCount⟩] }, left)
  | .selecting, [] | .deleting _, [] => ({ pass with stage := .closing }, table)
  | .closing, _ =>
      ({ pass with stage := .settled (if settles then .ok pass.deleted else .error ()) }, table)
  | .settled _, _ => (pass, table)

/-- `run_pass`, once it has listed the live certificates. -/
structure NativePass where
  opened : Bool
  past : List Bytes
  rest : List Bytes

def NativePass.answer (pass : NativePass) (settles : Bool) (table : List NssRow) :
    NativePass × List NssRow :=
  match pass.opened, pass.rest with
  | false, _ => (if settles then { pass with opened := true } else { pass with rest := [] }, table)
  | true, der :: rest =>
      ({ pass with past := pass.past ++ [der], rest := rest },
        if settles then delete (isCopyOf der) table else table)
  | true, [] => (pass, table)

inductive CleanupPass where
  | send (pass : SendPass)
  | fin (pass : FinPass)
  | native (pass : NativePass)

def CleanupPass.answer (pass : CleanupPass) (settles : Bool)
    (deleteCertificate : Bytes → List NssRow → Option (List NssRow)) (table : List NssRow) :
    CleanupPass × List NssRow :=
  match pass with
  | .send pass => ((pass.answer settles table).map .send id)
  | .fin pass => ((pass.answer settles deleteCertificate table).map .fin id)
  | .native pass => ((pass.answer settles table).map .native id)

def CleanupPass.onThread : CleanupPass → Bool
  | .native pass => !pass.rest.isEmpty
  | _ => false

structure Cleanups where
  table : List NssRow
  passes : List CleanupPass
  /-- Whether the native thread has been started. -/
  spawned : Bool

inductive CleanupEvent where
  /-- NSS adds a row. -/
  | write (row : NssRow)
  /-- A send hook calls `doCleanup`. -/
  | send (email : Option JsString)
  /-- The shutdown blocker calls `doCleanupFin`, and the database lists its certificates. -/
  | quit (getCerts : Option (List X509Cert))
  /-- `C_Initialize`, with the value of `OSCLIENTCERTS`. -/
  | cInitialize (cleanupEnable : Option String)
  /-- The native thread has slept. -/
  | wake (profileDir : Option String) (databaseExists : String → Bool) (os : Windows.Stores)
  /-- The call that the pass at this place waits for settles. -/
  | answer (place : Nat) (settles : Bool)
      (deleteCertificate : Bytes → List NssRow → Option (List NssRow))

namespace Cleanups

def begin (state : Cleanups) (pass : CleanupPass) : Cleanups :=
  { state with passes := state.passes ++ [pass] }

def doCleanup (state : Cleanups) (email : Option JsString) : Cleanups :=
  match email with
  | none => state
  | some email =>
      if given : email = [] then state else state.begin (.send ⟨email, given, .opening⟩)

def doCleanupFin (state : Cleanups) (getCerts : Option (List X509Cert)) : Cleanups :=
  match getCerts with
  | none => state
  | some certs =>
      if (liveCerts certs).isEmpty then state
      else state.begin (.fin ⟨[], liveCerts certs, [], .opening⟩)

/-- The thread is started once, whatever the variable holds later. -/
def spawnBackgroundThread (state : Cleanups) (cleanupEnable : Option String) : Cleanups :=
  { state with spawned := state.spawned || cleanupEnable == some "1" }

def runPass (state : Cleanups) (profileDir : Option String) (databaseExists : String → Bool)
    (os : Windows.Stores) : Cleanups :=
  if !state.spawned || state.passes.any CleanupPass.onThread then state
  else match profileDir with
    | none => state
    | some profileDir =>
        if !databaseExists profileDir then state
        else if (Windows.liveCerts os).isEmpty then state
        else state.begin (.native ⟨false, [], Windows.liveCerts os⟩)

def step : CleanupEvent → Cleanups → Cleanups
  | .write row, state => { state with table := state.table ++ [row] }
  | .send email, state => state.doCleanup email
  | .quit getCerts, state => state.doCleanupFin getCerts
  | .cInitialize cleanupEnable, state => state.spawnBackgroundThread cleanupEnable
  | .wake profileDir databaseExists os, state => state.runPass profileDir databaseExists os
  | .answer place settles deleteCertificate, state =>
      match state.passes[place]? with
      | none => state
      | some pass =>
          let (onward, left) := pass.answer settles deleteCertificate state.table
          { state with table := left, passes := state.passes.set place onward }

end Cleanups

def Sqlite.settles (sqlite : Sqlite) : SendStage → Bool
  | .opening => sqlite.opens
  | .selecting => sqlite.selects
  | .deleting _ => sqlite.deletes
  | .closing _ | .settled _ => sqlite.closes

def SendPass.alone (sqlite : Sqlite) : Nat → SendPass × List NssRow → SendPass × List NssRow
  | 0, state => state
  | waits + 1, (pass, table) =>
      SendPass.alone sqlite waits (pass.answer (sqlite.settles pass.stage) table)

theorem send_alone (sqlite : Sqlite) {email : JsString} (given : email ≠ [])
    (table : List NssRow) :
    SendPass.alone sqlite 4 (⟨email, given, .opening⟩, table) =
      (⟨email, given, .settled (doCleanup sqlite (some email) table).1⟩,
        (doCleanup sqlite (some email) table).2) := by
  -- A pass before a send waits four times at most, and computes `doCleanup`.
  obtain ⟨opens, selects, deletes, closes⟩ := sqlite
  by_cases found : table.filter (hasEmail email) = []
  · cases opens <;> cases selects <;> cases deletes <;>
      simp [SendPass.alone, SendPass.answer, Sqlite.settles, doCleanup, given, found]
  · cases opens <;> cases selects <;> cases deletes <;>
      simp [SendPass.alone, SendPass.answer, Sqlite.settles, doCleanup, given, found]

def CertDb.settles (certDb : CertDb) (pass : FinPass) : Bool :=
  match pass.stage with
  | .opening => certDb.opens
  | .selecting => certDb.selects pass.past.length
  | .deleting _ => true
  | .closing | .settled _ => certDb.closes

def FinPass.alone (certDb : CertDb) : Nat → FinPass × List NssRow → FinPass × List NssRow
  | 0, state => state
  | waits + 1, (pass, table) => FinPass.alone certDb waits
      (pass.answer (certDb.settles pass) certDb.deleteCertificate table)

section
variable {certDb : CertDb} {past rest : List X509Cert} {liveCert : X509Cert}
  {deleted : List DeletedRecord} {table : List NssRow}

theorem fin_alone_append (first second : Nat) (state : FinPass × List NssRow) :
    FinPass.alone certDb (first + second) state =
      FinPass.alone certDb second (FinPass.alone certDb first state) := by
  induction first generalizing state with
  | zero => rw [Nat.zero_add, FinPass.alone]
  | succ first ih => rw [Nat.succ_add, FinPass.alone, ih, FinPass.alone]

theorem fin_check_alone : ∃ waits,
    FinPass.alone certDb waits (⟨past, liveCert :: rest, deleted, .selecting⟩, table) =
      let checked := checkLiveCert certDb (deleted, table) (liveCert, past.length)
      (⟨past ++ [liveCert], rest, checked.1, if rest.isEmpty then .closing else .selecting⟩,
        checked.2) := by
  cases selects : certDb.selects past.length with
  | false =>
      refine ⟨1, ?_⟩
      simp [FinPass.alone, FinPass.answer, FinPass.next, CertDb.settles, checkLiveCert, selects]
  | true =>
      by_cases none : table.filter (isCopyOf liveCert.rawDer) = []
      · refine ⟨1, ?_⟩
        simp [FinPass.alone, FinPass.answer, FinPass.next, CertDb.settles, checkLiveCert, selects,
          none]
      · refine ⟨2, ?_⟩
        cases removed : certDb.deleteCertificate liveCert.rawDer table with
        | none =>
            simp [FinPass.alone, FinPass.answer, FinPass.next, CertDb.settles, checkLiveCert,
              selects, none, removed]
        | some left =>
            simp [FinPass.alone, FinPass.answer, FinPass.next, CertDb.settles, checkLiveCert,
              selects, none, removed]

theorem fin_loop_alone (rest : List X509Cert) : ∀ (liveCert : X509Cert) (past : List X509Cert)
    (deleted : List DeletedRecord) (table : List NssRow), ∃ waits,
    FinPass.alone certDb waits (⟨past, liveCert :: rest, deleted, .selecting⟩, table) =
      let checked := ((liveCert :: rest).zipIdx past.length).foldl (checkLiveCert certDb)
        (deleted, table)
      (⟨past ++ liveCert :: rest, [], checked.1, .closing⟩, checked.2) := by
  induction rest with
  | nil =>
      intro liveCert past deleted table
      obtain ⟨waits, checked⟩ := @fin_check_alone certDb past [] liveCert deleted table
      exact ⟨waits, checked⟩
  | cons following rest ih =>
      intro liveCert past deleted table
      obtain ⟨waits, checked⟩ :=
        @fin_check_alone certDb past (following :: rest) liveCert deleted table
      obtain ⟨more, looped⟩ := ih following (past ++ [liveCert])
        (checkLiveCert certDb (deleted, table) (liveCert, past.length)).1
        (checkLiveCert certDb (deleted, table) (liveCert, past.length)).2
      refine ⟨waits + more, ?_⟩
      rw [fin_alone_append, checked]
      simpa using looped

end

theorem fin_alone {certDb : CertDb} {certs : List X509Cert} (table : List NssRow)
    (served : certDb.getCerts = some certs) (live : liveCerts certs ≠ []) :
    ∃ waits past rest deleted,
      FinPass.alone certDb waits (⟨[], liveCerts certs, [], .opening⟩, table) =
        (⟨past, rest, deleted, .settled (doCleanupFin certDb table).1⟩,
          (doCleanupFin certDb table).2) := by
  obtain ⟨liveCert, rest, listed⟩ := List.exists_cons_of_ne_nil live
  cases opens : certDb.opens with
  | false =>
      refine ⟨1, [], liveCerts certs, [], ?_⟩
      simp [FinPass.alone, FinPass.answer, CertDb.settles, doCleanupFin, served, opens, live]
  | true =>
      obtain ⟨waits, looped⟩ := @fin_loop_alone certDb rest liveCert [] [] table
      have entered : FinPass.alone certDb 1 (⟨[], liveCerts certs, [], .opening⟩, table) =
          (⟨[], liveCert :: rest, [], .selecting⟩, table) := by
        simp [FinPass.alone, FinPass.answer, CertDb.settles, opens, listed]
      refine ⟨1 + (waits + 1), liveCert :: rest, [],
        (((liveCert :: rest).zipIdx 0).foldl (checkLiveCert certDb) ([], table)).1, ?_⟩
      rw [fin_alone_append, entered, fin_alone_append, looped]
      simp [FinPass.alone, FinPass.answer, CertDb.settles, doCleanupFin, served, opens, listed]

def NativePass.alone (world : Windows.CleanupWorld) (opens : Bool) :
    Nat → NativePass × List NssRow → NativePass × List NssRow
  | 0, state => state
  | waits + 1, (pass, table) => NativePass.alone world opens waits
      (pass.answer (if pass.opened then world.executes pass.past.length else opens) table)

theorem native_loop_alone {world : Windows.CleanupWorld} {opens : Bool} (rest past : List Bytes)
    (table : List NssRow) :
    NativePass.alone world opens rest.length (⟨true, past, rest⟩, table) =
      (⟨true, past ++ rest, []⟩, (rest.zipIdx past.length).foldl (fun left (der, place) =>
        if world.executes place then delete (isCopyOf der) left else left) table) := by
  induction rest generalizing past table with
  | nil => simp [NativePass.alone]
  | cons der rest ih =>
      rw [List.length_cons, NativePass.alone]
      simp only [NativePass.answer, if_true]
      rw [ih]
      simp

theorem native_unopened_alone {world : Windows.CleanupWorld} (waits : Nat) (rest : List Bytes)
    (table : List NssRow) :
    (NativePass.alone world false waits (⟨false, [], rest⟩, table)).2 = table := by
  induction waits generalizing rest with
  | zero => rfl
  | succ waits ih => exact ih []

theorem native_alone {world : Windows.CleanupWorld} {os : Windows.Stores} {profileDir : String}
    (table : List NssRow) (located : world.profileDir = some profileDir)
    (existing : world.databaseExists profileDir = true) (live : Windows.liveCerts os ≠ []) :
    (NativePass.alone world (world.opens profileDir) ((Windows.liveCerts os).length + 1)
      (⟨false, [], Windows.liveCerts os⟩, table)).2 = Windows.runPass world os table := by
  cases opens : world.opens profileDir with
  | false =>
      rw [native_unopened_alone]
      simp [Windows.runPass, located, existing, live, opens]
  | true =>
      rw [NativePass.alone]
      have looped := @native_loop_alone world true (Windows.liveCerts os) [] table
      simp only [NativePass.answer, Bool.false_eq_true, if_false, if_true]
      rw [looped]
      simp [Windows.runPass, located, existing, live, opens]

end OsClientCerts.CertCleanup
