import OsClientCerts.CertDatabase
import OsClientCerts.Deletions

/-!
The cleanups of the add-on: before a send, all certificate rows with the address of the
signing identity are deleted; at shutdown, the rows with the encoding of a certificate
that is live on the token of the provider.
-/

namespace OsClientCerts.CertCleanup
open CertDatabase Deletions

/-- A JavaScript string, by its UTF-16 code units. -/
abbrev JsString := List UInt16

def ofAscii (text : String) : JsString := text.toList.map fun letter => letter.toNat.toUInt16

def isJsSpace (unit : UInt16) : Bool :=
  unit ∈ [9, 10, 11, 12, 13, 32, 0xa0, 0x1680, 0x2028, 0x2029, 0x202f, 0x205f, 0x3000, 0xfeff] ||
    (0x2000 ≤ unit && unit ≤ 0x200a)

def trim (text : JsString) : JsString :=
  ((text.dropWhile isJsSpace).reverse.dropWhile isJsSpace).reverse

def osClientCertsTokenName : JsString := ofAscii "OS Client Cert Token"

structure DeletedRecord where
  subjectName : JsString
  issuerName : JsString
  serialNumber : JsString
  rowCount : Nat
  deriving DecidableEq

structure Sqlite where
  opens : Bool
  selects : Bool
  deletes : Bool
  closes : Bool

def emailBytes (email : JsString) : Bytes := email.map fun unit => (unit &&& 0xff).toUInt8

/-- `hex(a0) = '00000001' AND LOWER(ace534352) = LOWER(:email)` -/
def hasEmail (email : JsString) (row : NssRow) : Bool :=
  row.a0.hex.equals (.text [48, 48, 48, 48, 48, 48, 48, 49]) &&
    row.ace534352.lower.equals (SqlValue.lower (.blob (emailBytes email)))

/-- The records that are returned, unless the connection fails to close, and what is left of
the table. -/
def doCleanup (sqlite : Sqlite) (email : Option JsString) (table : List NssRow) :
    Except Unit (List DeletedRecord) × List NssRow :=
  match email with
  | none => (.ok [], table)
  | some email =>
      if email.isEmpty then (.ok [], table)
      else if !sqlite.opens then (.ok [], table)
      else
        let rows := if sqlite.selects then table.filter (hasEmail email) else []
        let (deleted, left) :=
          if rows.isEmpty then ([], table)
          else if !sqlite.deletes then ([], table)
          else ([⟨email, ofAscii "-", ofAscii "-", rows.length⟩], delete (hasEmail email) table)
        (if sqlite.closes then .ok deleted else .error (), left)

structure X509Cert where
  tokenName : Option JsString
  emailAddresses : List JsString
  rawDer : Bytes
  subjectName : JsString
  issuerName : JsString
  serialNumber : JsString
  deriving DecidableEq

def onToken (cert : X509Cert) : Bool := trim (cert.tokenName.getD []) == osClientCertsTokenName

def liveCerts (certs : List X509Cert) : List X509Cert :=
  certs.filter fun cert => onToken cert && 0 < cert.emailAddresses.length

/-- What the pass at shutdown asks of the certificate database and of its connection. -/
structure CertDb where
  getCerts : Option (List X509Cert)
  opens : Bool
  /-- Whether the query for the live certificate at some place succeeds. -/
  selects : Nat → Bool
  /-- What `constructX509` and `deleteCertificate` make of the table, unless they throw. -/
  deleteCertificate : Bytes → List NssRow → Option (List NssRow)
  closes : Bool

def checkLiveCert (certDb : CertDb) (state : List DeletedRecord × List NssRow)
    (numbered : X509Cert × Nat) : List DeletedRecord × List NssRow :=
  let (deleted, table) := state
  let (liveCert, place) := numbered
  if !certDb.selects place then state
  else
    let rows := table.filter (isCopyOf liveCert.rawDer)
    if rows.length = 0 then state
    else match certDb.deleteCertificate liveCert.rawDer table with
      | none => state
      | some left =>
          (deleted ++
            [⟨liveCert.subjectName, liveCert.issuerName, liveCert.serialNumber, rows.length⟩], left)

def doCleanupFin (certDb : CertDb) (table : List NssRow) :
    Except Unit (List DeletedRecord) × List NssRow :=
  match certDb.getCerts with
  | none => (.ok [], table)
  | some certs =>
      if (liveCerts certs).isEmpty then (.ok [], table)
      else if !certDb.opens then (.ok [], table)
      else
        let (deleted, left) := (liveCerts certs).zipIdx.foldl (checkLiveCert certDb) ([], table)
        (if certDb.closes then .ok deleted else .error (), left)

def Duplicate (certs : List X509Cert) (row : NssRow) : Prop :=
  ∃ cert ∈ liveCerts certs, isCopyOf cert.rawDer row = true

section
variable {table : List NssRow}

theorem check_live_cert_absent {certDb : CertDb} {deleted : List DeletedRecord}
    {numbered : X509Cert × Nat}
    (absent : ∀ row ∈ table, isCopyOf numbered.1.rawDer row = false) :
    checkLiveCert certDb (deleted, table) numbered = (deleted, table) := by
  have none : table.filter (isCopyOf numbered.1.rawDer) = [] :=
    List.filter_eq_nil_iff.mpr fun row member => Bool.eq_false_iff.mp (absent row member)
  simp [checkLiveCert, none]

def Selected (sqlite : Sqlite) (email : Option JsString) (row : NssRow) : Prop :=
  sqlite.opens = true ∧ sqlite.selects = true ∧ sqlite.deletes = true ∧
    ∃ address, email = some address ∧ address ≠ [] ∧ hasEmail address row = true

def sendStatements (sqlite : Sqlite) (email : Option JsString) : List (NssRow → Bool) :=
  if sqlite.opens && sqlite.selects && sqlite.deletes then
    (email.toList.filter fun address => !address.isEmpty).map hasEmail
  else []

theorem do_cleanup_deletes (sqlite : Sqlite) (email : Option JsString) (table : List NssRow) :
    (doCleanup sqlite email table).2 = deleteEach (sendStatements sqlite email) table := by
  obtain ⟨opens, selects, deletes, closes⟩ := sqlite
  cases email with
  | none => cases opens <;> cases selects <;> cases deletes <;> rfl
  | some address =>
      by_cases empty : address = []
      · simp [doCleanup, sendStatements, empty, deleteEach]
      · by_cases found : table.filter (hasEmail address) = []
        -- A table without such rows is what deleting them leaves.
        · have untouched : delete (hasEmail address) table = table := by
            simpa [delete] using List.filter_eq_nil_iff.mp found
          cases opens <;> cases selects <;> cases deletes <;>
            simp [doCleanup, sendStatements, empty, found, deleteEach, untouched]
        · cases opens <;> cases selects <;> cases deletes <;>
            simp [doCleanup, sendStatements, empty, found, deleteEach]

theorem mem_send_statements {sqlite : Sqlite} {email : Option JsString} {row : NssRow} :
    (∃ selects ∈ sendStatements sqlite email, selects row = true) ↔
      Selected sqlite email row := by
  cases opened : sqlite.opens <;> cases selected : sqlite.selects <;>
    cases deleted : sqlite.deletes <;> cases email <;>
      simp [sendStatements, Selected, opened, selected, deleted]

theorem do_cleanup_removed {sqlite : Sqlite} {email : Option JsString} {row : NssRow} :
    Removed table (doCleanup sqlite email table).2 row ↔
      row ∈ table ∧ Selected sqlite email row := by
  rw [do_cleanup_deletes, removed_iff, mem_send_statements]

/-- Every row that is deleted is one that the pass at shutdown looks for, so none is while
the provider serves no certificate. -/
structure OnlyDuplicates (sqlite : Sqlite) (email : Option JsString) (certs : List X509Cert)
    (table : List NssRow) : Prop where
  duplicates : ∀ row, Removed table (doCleanup sqlite email table).2 row →
    row.a0 = .blob ckoCertificateBytes ∧ ∃ cert ∈ liveCerts certs, row.a11 = .blob cert.rawDer
  unserved : (∀ cert ∈ certs, onToken cert = false) → (doCleanup sqlite email table).2 = table

theorem duplicate_iff {certs : List X509Cert} {row : NssRow} :
    Duplicate certs row ↔ row.a0 = .blob ckoCertificateBytes ∧
      ∃ cert ∈ liveCerts certs, row.a11 = .blob cert.rawDer := by
  simp only [Duplicate, is_copy_of_iff]
  constructor
  · rintro ⟨cert, live, classed, valued⟩
    exact ⟨classed, cert, live, valued⟩
  · rintro ⟨classed, cert, live, valued⟩
    exact ⟨cert, live, classed, valued⟩

theorem unserved_duplicates {certs : List X509Cert} {row : NssRow}
    (unserved : ∀ cert ∈ certs, onToken cert = false) : ¬Duplicate certs row := by
  rintro ⟨cert, live, _⟩
  obtain ⟨member, kept⟩ := List.mem_filter.mp live
  rw [unserved cert member] at kept
  cases kept

/-- The pass before a send deletes nothing but duplicates, exactly when every row that it
selects holds a certificate that is live. -/
theorem do_cleanup_only_duplicates_iff (sqlite : Sqlite) (email : Option JsString)
    (certs : List X509Cert) (table : List NssRow) :
    OnlyDuplicates sqlite email certs table ↔
      ∀ row ∈ table, Selected sqlite email row → Duplicate certs row := by
  constructor
  · intro only row member selected
    exact duplicate_iff.mpr
      (only.duplicates row (do_cleanup_removed.mpr ⟨member, selected⟩))
  · intro live
    constructor
    · intro row removed
      obtain ⟨member, selected⟩ := do_cleanup_removed.mp removed
      exact duplicate_iff.mp (live row member selected)
    · intro unserved
      rw [do_cleanup_deletes, delete_each_filter, List.filter_eq_self]
      intro row member
      refine List.all_eq_true.mpr fun selects given => ?_
      rw [Bool.not_eq_true', Bool.eq_false_iff]
      intro selected
      exact unserved_duplicates unserved
        (live row member (mem_send_statements.mp ⟨selects, given, selected⟩))

end

/-- The software certificate of the user, while the provider serves nothing. -/
theorem own_software_cert_deleted :
    ¬OnlyDuplicates ⟨true, true, true, true⟩ (some (ofAscii "me@example.org")) []
      [⟨1, .blob ckoCertificateBytes, .blob [1], .blob (emailBytes (ofAscii "Me@example.org")),
        []⟩] := by
  intro only
  have kept := only.unserved (by simp)
  exact absurd kept (by decide)

end OsClientCerts.CertCleanup
