import OsClientCerts.CertDatabase
import OsClientCerts.Deletions
import OsClientCerts.RootTrust

/-!
One pass of the native cleanup: every certificate that the scan of the backend lists is
deleted from the table of `cert9.db`. The scan lists certificates with a key and,
without one, the issuers its walks come to.
-/

namespace OsClientCerts.Windows
open CertDatabase Deletions

/-- What a pass meets on its way to the table. -/
structure CleanupWorld where
  /-- What `find_profile_dir` finds. -/
  profileDir : Option String
  /-- Whether there is a `cert9.db` in a directory. -/
  databaseExists : String → Bool
  opens : String → Bool
  /-- Whether the statement for the certificate at some place executes. -/
  executes : Nat → Bool

def liveCerts (os : Stores) : List Bytes := (listObjects os).filterMap certValue

def runPass (world : CleanupWorld) (os : Stores) (table : List NssRow) : List NssRow :=
  match world.profileDir with
  | none => table
  | some profileDir =>
      if !world.databaseExists profileDir then table
      else if (liveCerts os).isEmpty then table
      else if !world.opens profileDir then table
      else (liveCerts os).zipIdx.foldl (fun left (der, place) =>
        -- A statement that fails is logged.
        if world.executes place then delete (isCopyOf der) left else left) table

def Own (objects : List WindowsObject) (der : Bytes) : Prop :=
  ∃ cert key, .cert cert ∈ objects ∧ .key key ∈ objects ∧ cert.value = der ∧ key.id = cert.id

def Keyless (objects : List WindowsObject) (der : Bytes) : Prop :=
  ∃ cert, .cert cert ∈ objects ∧ cert.value = der ∧ ∀ key, .key key ∈ objects → key.id ≠ cert.id

section
variable {world : CleanupWorld} {os : Stores} {table : List NssRow}

theorem cert_new_id {der : Bytes} {cert : Cert} (made : Cert.new os der = .ok cert) :
    cert.id = os.sha256 der := by
  unfold Cert.new at made
  obtain ⟨label, _, rest⟩ := bind_ok made
  obtain ⟨classAttr, _, last⟩ := bind_ok rest
  cases last
  rfl

theorem key_new_id {context : CertContext} {der : Bytes} {key : Key}
    (made : Key.new os context der = .ok key) : key.id = os.sha256 der := by
  unfold Key.new at made
  obtain ⟨label, _, rest⟩ := bind_ok made
  obtain ⟨⟨keyTypeEnum, keyType, modulus, ecParams⟩, _, rest⟩ := bind_ok rest
  obtain ⟨classAttr, _, rest⟩ := bind_ok rest
  obtain ⟨keyTypeAttr, _, last⟩ := bind_ok rest
  cases last
  rfl

theorem personal_cert {found : List (CertContext × Bytes)} {cert : Cert}
    (member : .cert cert ∈ personalObjects os found) :
    Cert.new os cert.value = .ok cert ∧
      ∃ key, .key key ∈ personalObjects os found ∧ key.id = cert.id := by
  obtain ⟨⟨context, der⟩, given, listed⟩ := List.mem_flatMap.mp member
  cases certMade : Cert.new os der with
  | error _ => simp [certMade] at listed
  | ok made =>
      cases keyMade : Key.new os context der with
      | error _ => simp [certMade, keyMade] at listed
      | ok key =>
          obtain rfl : cert = made := by simpa [certMade, keyMade] using listed
          refine ⟨(cert_new_value certMade).symm ▸ certMade, key, ?_, ?_⟩
          · exact List.mem_flatMap.mpr ⟨(context, der), given, by simp [certMade, keyMade]⟩
          · rw [key_new_id keyMade, cert_new_id certMade]

/-- A listed certificate was made from its encoding. One that no listed key goes with was
come to by a walk. -/
theorem listed_cert {cert : Cert} (member : .cert cert ∈ listObjects os) :
    Cert.new os cert.value = .ok cert ∧
      ((∃ key, .key key ∈ listObjects os ∧ key.id = cert.id) ∨
        ∃ found, os.personal = some found ∧
          WalkReaches os (leafCertValues (personalObjects os found)) cert.value) := by
  unfold listObjects at member ⊢
  cases opened : os.personal with
  | none => simp [opened] at member
  | some found =>
      simp only [opened] at member
      rcases List.mem_append.mp member with personal | issuer
      · obtain ⟨made, key, listed, same⟩ := personal_cert personal
        exact ⟨made, Or.inl ⟨key, List.mem_append_left _ listed, same⟩⟩
      · obtain ⟨_, ca, processed, shown⟩ := mem_emitted.mp issuer
        have made := exposed_cert.mp shown
        obtain rfl := cert_new_value made
        exact ⟨made, Or.inr ⟨found, rfl, processed_reached processed⟩⟩

theorem mem_live_certs {der : Bytes} :
    der ∈ liveCerts os ↔ ∃ cert, .cert cert ∈ listObjects os ∧ cert.value = der := by
  constructor
  · intro member
    obtain ⟨object, listed, valued⟩ := List.mem_filterMap.mp member
    cases object with
    | cert cert => exact ⟨cert, listed, Option.some.inj valued⟩
    | key key => cases valued
    | trust trust => cases valued
  · rintro ⟨cert, listed, rfl⟩
    exact List.mem_filterMap.mpr ⟨_, listed, rfl⟩

theorem own_iff_not_keyless {der : Bytes} (live : der ∈ liveCerts os) :
    Own (listObjects os) der ↔ ¬Keyless (listObjects os) der := by
  -- Certificates with one encoding have one id, so either all of them have a key or none.
  constructor
  · rintro ⟨cert, key, listed, keyListed, rfl, same⟩ ⟨other, otherListed, valued, none⟩
    have otherMade := (listed_cert otherListed).1
    rw [valued] at otherMade
    apply none key keyListed
    rw [same, cert_new_id (listed_cert listed).1, cert_new_id otherMade]
  · intro keyed
    obtain ⟨cert, listed, rfl⟩ := mem_live_certs.mp live
    by_contra notOwn
    exact keyed ⟨cert, listed, rfl, fun key keyListed same =>
      notOwn ⟨cert, key, listed, keyListed, rfl, same⟩⟩

def CleanupWorld.Reaches (world : CleanupWorld) : Prop :=
  ∃ profileDir, world.profileDir = some profileDir ∧
    world.databaseExists profileDir = true ∧ world.opens profileDir = true

def Executed (world : CleanupWorld) (os : Stores) (der : Bytes) : Prop :=
  world.Reaches ∧ ∃ place, (liveCerts os)[place]? = some der ∧ world.executes place = true

def passStatements (world : CleanupWorld) (certs : List (Bytes × Nat)) :
    List (NssRow → Bool) :=
  (certs.filter fun (_, place) => world.executes place).map fun (der, _) => isCopyOf der

theorem pass_statements_run (certs : List (Bytes × Nat)) :
    certs.foldl (fun left (der, place) =>
      if world.executes place then delete (isCopyOf der) left else left) table =
      deleteEach (passStatements world certs) table := by
  induction certs generalizing table with
  | nil => rfl
  | cons first rest ih =>
      obtain ⟨der, place⟩ := first
      rw [List.foldl_cons, ih]
      cases executed : world.executes place with
      | false => simp [passStatements, executed]
      | true => simp [passStatements, executed, deleteEach]

theorem mem_pass_statements {selects : NssRow → Bool} :
    selects ∈ passStatements world (liveCerts os).zipIdx ↔
      ∃ der place, (liveCerts os)[place]? = some der ∧ world.executes place = true ∧
        isCopyOf der = selects := by
  simp [passStatements, List.mem_zipIdx_iff_getElem?, and_assoc]

theorem run_pass_deletes (world : CleanupWorld) (os : Stores) :
    ∃ statements, (∀ table, runPass world os table = deleteEach statements table) ∧
      ∀ selects, selects ∈ statements ↔ ∃ der, Executed world os der ∧ isCopyOf der = selects := by
  by_cases reaches : world.Reaches
  · refine ⟨passStatements world (liveCerts os).zipIdx, ?_, ?_⟩
    · intro table
      obtain ⟨profileDir, located, existing, opened⟩ := reaches
      simp only [runPass, located, existing, opened, Bool.not_true, Bool.false_eq_true, if_false]
      split
      case isTrue empty =>
        rw [List.isEmpty_iff.mp empty]
        rfl
      case isFalse _ => exact pass_statements_run _
    · intro selects
      rw [mem_pass_statements]
      constructor
      · rintro ⟨der, place, listed, executed, same⟩
        exact ⟨der, ⟨reaches, place, listed, executed⟩, same⟩
      · rintro ⟨der, ⟨_, place, listed, executed⟩, same⟩
        exact ⟨der, place, listed, executed, same⟩
  · refine ⟨[], ?_, ?_⟩
    · intro table
      unfold runPass deleteEach
      split
      · rfl
      · rename_i profileDir located
        split
        · rfl
        · rename_i existing
          split
          · rfl
          · split
            · rfl
            · rename_i opened
              exact absurd ⟨profileDir, located, by simpa using existing, by simpa using opened⟩
                reaches
    · intro selects
      constructor
      · intro member
        cases member
      · rintro ⟨_, executed, _⟩
        exact absurd executed.1 reaches

theorem run_pass_removed {row : NssRow} :
    Removed table (runPass world os table) row ↔
      row ∈ table ∧ ∃ der, Executed world os der ∧ isCopyOf der row = true := by
  obtain ⟨statements, deletes, given⟩ := run_pass_deletes world os
  rw [deletes, removed_iff]
  apply and_congr_right
  intro _
  constructor
  · rintro ⟨selects, member, selected⟩
    obtain ⟨der, executed, rfl⟩ := (given selects).mp member
    exact ⟨der, executed, selected⟩
  · rintro ⟨der, executed, selected⟩
    exact ⟨_, (given _).mpr ⟨der, executed, rfl⟩, selected⟩

theorem executed_live {der : Bytes} (executed : Executed world os der) : der ∈ liveCerts os := by
  obtain ⟨_, place, listed, _⟩ := executed
  exact List.mem_of_getElem? listed

/-- Only copies of certificates with a private key are removed, the other rows stay as
they are, and a second pass finds nothing. -/
structure SparesOthers (world : CleanupWorld) (os : Stores) (table : List NssRow) : Prop where
  own : ∀ row, Removed table (runPass world os table) row →
    row.a0 = .blob ckoCertificateBytes ∧ ∃ der, row.a11 = .blob der ∧ Own (listObjects os) der
  others : (runPass world os table).Sublist table
  again : runPass world os (runPass world os table) = runPass world os table

theorem run_pass_sublist : (runPass world os table).Sublist table := by
  obtain ⟨statements, deletes, _⟩ := run_pass_deletes world os
  rw [deletes]
  exact delete_each_sublist statements table

theorem run_pass_again : runPass world os (runPass world os table) = runPass world os table := by
  obtain ⟨statements, deletes, _⟩ := run_pass_deletes world os
  rw [deletes, deletes]
  exact delete_each_again statements table

/-- A pass removes only copies of certificates that have a key, exactly when no certificate row
holds one that is listed without a key and whose statement takes effect. -/
theorem run_pass_spares_iff (world : CleanupWorld) (os : Stores) (table : List NssRow) :
    SparesOthers world os table ↔
      ∀ row ∈ table, ∀ der, isCopyOf der row = true → Executed world os der →
        ¬Keyless (listObjects os) der := by
  constructor
  · intro spares row member der copy executed
    obtain ⟨_, other, valued, own⟩ :=
      spares.own row (run_pass_removed.mpr ⟨member, der, executed, copy⟩)
    obtain rfl : der = other := by
      have same := (is_copy_of_iff.mp copy).2.symm.trans valued
      exact SqlValue.blob.inj same
    exact (own_iff_not_keyless (executed_live executed)).mp own
  · intro keyed
    refine ⟨?_, run_pass_sublist, run_pass_again⟩
    intro row removed
    obtain ⟨member, der, executed, copy⟩ := run_pass_removed.mp removed
    obtain ⟨classed, valued⟩ := is_copy_of_iff.mp copy
    exact ⟨classed, der, valued,
      (own_iff_not_keyless (executed_live executed)).mpr (keyed row member der copy executed)⟩

end

def keyId : WindowsObject → Option Bytes
  | .key key => some key.id
  | _ => none

/-- The issuer of the only certificate with a key, which the user has imported. -/
theorem imported_ca_removed :
    ¬SparesOthers ⟨some "profile", fun _ => true, fun _ => true, fun _ => true⟩
      (.issuing (fun der => if der = [1] then some ([2], ⟨false, false⟩) else none)
        (fun _ => false) [])
      [⟨1, .blob ckoCertificateBytes, .blob [2], .null, []⟩] := by
  intro spares
  obtain ⟨_, der, valued, cert, key, listed, keyListed, rfl, same⟩ :=
    spares.own ⟨1, .blob ckoCertificateBytes, .blob [2], .null, []⟩ ⟨by decide, by decide⟩
  have ids : ∀ id ∈ (listObjects (.issuing (fun der =>
      if der = [1] then some ([2], ⟨false, false⟩) else none) (fun _ => false) [])).filterMap keyId,
      id = [1] := by decide
  have keyed : key.id = [1] := ids key.id (List.mem_filterMap.mpr ⟨_, keyListed, rfl⟩)
  have digest : cert.id = cert.value := cert_new_id (listed_cert listed).1
  rw [keyed, digest, ← SqlValue.blob.inj valued] at same
  exact absurd same (by decide)

end OsClientCerts.Windows
