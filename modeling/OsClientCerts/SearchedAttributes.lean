import OsClientCerts.RootTrust
import OsClientCerts.SearchResults

/-!
Reading and searching on Windows. An object is found again by the values it reports,
except that trust records are not searched by their trust values; and a search by
issuer and serial number tells two certificates apart unless one serial number is
the DER encoding of the other.
-/

namespace OsClientCerts
open LocalAutomata

theorem Manager.search_finds {B : Backend} {manager : Manager B} (os : B.Os)
    {session : CkSessionHandle} {attrs : List (CkAttributeType × Bytes)}
    {handle : CkObjectHandle} {object : B.Object}
    (idle : manager.searches.contains session = false)
    (found : manager.objects[handle]? = some object)
    (matching : B.objectMatches object attrs = true)
    (supported : ∀ attr ∈ attrs, attr.1 ∈ B.supportedAttributes) :
    manager.startSearch os session attrs = (.ok (), { manager with
      searches := manager.searches.insert session
        (Manager.matchingHandles manager.objects attrs) }) := by
  -- A search that finds something at once does not scan.
  have listed : attrs.any (fun attr => attr.1 ∉ B.supportedAttributes) = false := by
    rw [List.any_eq_false]
    intro attr member
    simpa using supported attr member
  have selected : handle ∈ Manager.matchingHandles manager.objects attrs :=
    Manager.mem_matching.mpr ⟨object, found, matching⟩
  have something : (Manager.matchingHandles manager.objects attrs).isEmpty = false := by
    rw [List.isEmpty_eq_false_iff]
    exact List.ne_nil_of_mem selected
  unfold Manager.startSearch
  simp only [idle, listed, something, Bool.false_eq_true, if_false]

namespace Windows

def IsFlag (value : Bytes) : Prop := ∃ byte, value = [byte]

theorem flag_matches {value : Bytes} (flag : IsFlag value) :
    boolAttrMatches value value = true := by
  obtain ⟨byte, rfl⟩ := flag
  simp [boolAttrMatches, storedBool, requestedBool]

def FlagsMade : WindowsObject → Prop
  | .cert cert => IsFlag cert.token
  | .key key => IsFlag key.token ∧ IsFlag key.privateFlag ∧ IsFlag key.signFlag ∧
      IsFlag key.decryptFlag ∧ IsFlag key.sensitiveFlag ∧ IsFlag key.extractableFlag ∧
      IsFlag key.alwaysAuthenticateFlag ∧ IsFlag key.localFlag
  | .trust trust => IsFlag trust.token

theorem cert_new_flags {os : Stores} {der : Bytes} {cert : Cert}
    (made : Cert.new os der = .ok cert) : FlagsMade (.cert cert) := by
  unfold Cert.new at made
  obtain ⟨label, _, rest⟩ := bind_ok made
  obtain ⟨classAttr, _, last⟩ := bind_ok rest
  cases last
  exact ⟨_, rfl⟩

theorem key_new_flags {os : Stores} {context : CertContext} {der : Bytes} {key : Key}
    (made : Key.new os context der = .ok key) : FlagsMade (.key key) := by
  unfold Key.new at made
  obtain ⟨label, _, made⟩ := bind_ok made
  obtain ⟨publicPart, _, made⟩ := bind_ok made
  obtain ⟨classAttr, _, made⟩ := bind_ok made
  obtain ⟨keyType, _, made⟩ := bind_ok made
  cases made
  exact ⟨⟨_, rfl⟩, ⟨_, rfl⟩, ⟨_, rfl⟩, ⟨_, rfl⟩, ⟨_, rfl⟩, ⟨_, rfl⟩, ⟨_, rfl⟩, ⟨_, rfl⟩⟩

theorem trust_new_flags {os : Stores} {der : Bytes} {trust : Trust}
    (made : Trust.new os der = .ok trust) : FlagsMade (.trust trust) := by
  cases made
  exact ⟨_, rfl⟩

theorem exposed_flags {os : Stores} {issuer : Bytes} {object : WindowsObject}
    (shown : object ∈ exposed os issuer) : FlagsMade object := by
  cases object with
  | cert cert => exact cert_new_flags (exposed_cert.mp shown)
  | trust trust => exact trust_new_flags (exposed_trust.mp shown).2.2
  | key key => exact absurd shown exposed_key

theorem personal_flags {os : Stores} {found : List (CertContext × Bytes)} {object : WindowsObject}
    (listed : object ∈ personalObjects os found) : FlagsMade object := by
  obtain ⟨⟨context, der⟩, _, shown⟩ := List.mem_flatMap.mp listed
  cases madeCert : Cert.new os der with
  | error err => simp [madeCert] at shown
  | ok cert =>
      cases madeKey : Key.new os context der with
      | error err => simp [madeCert, madeKey] at shown
      | ok key =>
          simp only [madeCert, madeKey, List.mem_cons, List.not_mem_nil, or_false] at shown
          rcases shown with rfl | rfl
          · exact cert_new_flags madeCert
          · exact key_new_flags madeKey

theorem list_objects_flags {os : Stores} {object : WindowsObject}
    (listed : object ∈ listObjects os) : FlagsMade object := by
  unfold listObjects at listed
  cases opened : os.personal with
  | none => simp [opened] at listed
  | some found =>
      simp only [opened, List.mem_append] at listed
      rcases listed with personal | issuers
      · exact personal_flags personal
      · obtain ⟨_, ca, _, shown⟩ := mem_emitted.mp issuers
        exact exposed_flags shown

/-- What a trust record is searched by. Its trust values are only read. -/
def Searchable : WindowsObject → CkAttributeType → Prop
  | .trust _, attrType => attrType ∈ [ckaClass, ckaToken, ckaIssuer, ckaSerialNumber]
  | _, _ => True

theorem serial_matches_itself (serial : Bytes) : serialNumberMatches serial serial = true := by
  simp [serialNumberMatches]

/-! The three kinds of object have tables of their own. Whatever the second table reports,
the first one compares with the same field, and the list of supported types has its type. -/

theorem row_or_below {row : Prop} [Decidable row] {field below : Option Bytes} {value : Bytes}
    (reported : (if row then field else below) = some value) :
    row ∧ field = some value ∨ below = some value := by
  by_cases here : row
  · exact Or.inl ⟨here, by simpa [here] using reported⟩
  · exact Or.inr (by simpa [here] using reported)

theorem cert_reported {cert : Cert} (flags : FlagsMade (.cert cert)) {attrType : CkAttributeType}
    {value : Bytes} (reported : cert.getAttribute attrType = some value) :
    cert.matchesOne (attrType, value) = true ∧ attrType ∈ supportedAttributes := by
  have token := flag_matches flags
  have serial := serial_matches_itself cert.serialNumber
  unfold Cert.getAttribute at reported
  repeat
    obtain ⟨rfl, held⟩ | reported := row_or_below reported
    · cases held
      constructor
      · first
        | exact token
        | exact serial
        | exact beq_self_eq_true _
      · decide
  cases reported

theorem key_reported {key : Key} (flags : FlagsMade (.key key)) {attrType : CkAttributeType}
    {value : Bytes} (reported : key.getAttribute attrType = some value) :
    key.matchesOne (attrType, value) = true ∧ attrType ∈ supportedAttributes := by
  obtain ⟨token, isPrivate, sign, decrypt, sensitive, extractable, always, isLocal⟩ := flags
  have serial := serial_matches_itself key.serialNumber
  -- A modulus or curve may be absent, and is then not reported.
  have optional {stored : Option Bytes} (held : stored = some value) :
      (some value == stored) = true := by
    rw [held]
    exact beq_self_eq_true _
  unfold Key.getAttribute at reported
  repeat
    obtain ⟨rfl, held⟩ | reported := row_or_below reported
    · constructor
      · first
        | exact optional held
        | (cases held; first
          | exact flag_matches ‹_›
          | exact serial)
      · decide
  cases reported

theorem trust_reported {trust : Trust} (flags : FlagsMade (.trust trust))
    {attrType : CkAttributeType} {value : Bytes} (searchable : Searchable (.trust trust) attrType)
    (reported : trust.getAttribute attrType = some value) :
    trust.matchesOne (attrType, value) = true ∧ attrType ∈ supportedAttributes := by
  have token := flag_matches flags
  have serial := serial_matches_itself trust.serialNumber
  simp only [Searchable, List.mem_cons, List.not_mem_nil, or_false] at searchable
  rcases searchable with rfl | rfl | rfl | rfl
  all_goals
    cases reported
    constructor
    · first
      | exact token
      | exact serial
      | exact beq_self_eq_true _
    · decide

theorem object_reported {object : WindowsObject} (flags : FlagsMade object)
    {attrs : List (CkAttributeType × Bytes)}
    (reported : ∀ attr ∈ attrs, getAttribute object attr.1 = some attr.2)
    (searchable : ∀ attr ∈ attrs, Searchable object attr.1) :
    objectMatches object attrs = true ∧ ∀ attr ∈ attrs, attr.1 ∈ supportedAttributes := by
  have each : ∀ attr ∈ attrs, objectMatches object [attr] = true ∧
      attr.1 ∈ supportedAttributes := by
    intro attr member
    have value := reported attr member
    cases object with
    | cert cert => simpa [objectMatches] using cert_reported flags value
    | key key => simpa [objectMatches] using key_reported flags value
    | trust trust =>
        simpa [objectMatches] using trust_reported flags (searchable attr member) value
  constructor
  · exact matches_each.mpr fun attr member => (each attr member).1
  · exact fun attr member => (each attr member).2

def FromStores (os : Cng) : Prop := ∃ stores : Stores, os.objects = listObjects stores

def Selects (manager : Manager backend) (now : Cng) (session : CkSessionHandle)
    (attrs : List (CkAttributeType × Bytes)) (handle : CkObjectHandle) : Prop :=
  (manager.startSearch now session attrs).1 = .ok () ∧
    ∃ handles, (manager.startSearch now session attrs).2.searches[session]? = some handles ∧
      handle ∈ handles

section
variable {manager : Manager backend} {now : Cng} {session : CkSessionHandle}
  {attrs : List (CkAttributeType × Bytes)}

theorem selects_iff {handle other : CkObjectHandle} {object same : WindowsObject}
    (idle : manager.searches.contains session = false)
    (found : manager.objects[handle]? = some object)
    (matching : objectMatches object attrs = true)
    (foundToo : manager.objects[other]? = some same) :
    Selects manager now session attrs other ↔ objectMatches same attrs = true := by
  -- A search that at least one registered object matches finds all that match.
  have started := Manager.search_finds now idle found matching
    (supported_of_matches object attrs matching)
  have stored : (manager.startSearch now session attrs).2.searches[session]? =
      some (Manager.matchingHandles manager.objects attrs) := by
    rw [started]
    exact Std.TreeMap.getElem?_insert_self
  constructor
  · rintro ⟨_, handles, held, selected⟩
    rw [stored] at held
    cases held
    obtain ⟨there, foundThere, matches_⟩ := Manager.mem_matching.mp selected
    rw [foundToo] at foundThere
    cases foundThere
    exact matches_
  · intro matches_
    exact ⟨by rw [started], _, stored, Manager.mem_matching.mpr ⟨same, foundToo, matches_⟩⟩

end

/-- Any values that an object reports find it again; of a trust record, any of those
that trust records are searched by. -/
theorem reported_values_find {os now : Cng} {run : List (ManagerStep backend)}
    {session : CkSessionHandle} {handle : CkObjectHandle} {object : WindowsObject}
    {attrs : List (CkAttributeType × Bytes)}
    (scans : ∀ scan ∈ Manager.allScans os run, FromStores scan)
    (found : (after Manager.step run (Manager.new os)).objects[handle]? = some object)
    (reported : ∀ attr ∈ attrs, getAttribute object attr.1 = some attr.2)
    (searchable : ∀ attr ∈ attrs, Searchable object attr.1)
    (idle : (after Manager.step run (Manager.new os)).searches.contains session = false) :
    Selects (after Manager.step run (Manager.new os)) now session attrs handle := by
  obtain ⟨scan, member, listed⟩ := Manager.reached_listed os run found
  obtain ⟨stores, same⟩ := scans scan member
  have made : object ∈ listObjects stores := by
    rw [← same]
    exact listed
  have flags : FlagsMade object := list_objects_flags made
  have matching := (object_reported flags reported searchable).1
  exact (selects_iff idle found matching found).mpr matching

/-- A root in the issuer chain of the one certificate with a key: the certificate and its
key, then the root and its trust record, have the handles 1 to 4. -/
def rootStores : Stores :=
  .issuing (fun der => if der = [1] then some ([2], ⟨false, false⟩) else none) (· == [2]) [[2]]

def issuedByRoot : Cng := .holding 0 (listObjects rootStores)

theorem root_scans : ∀ scan ∈ Manager.allScans (B := backend) issuedByRoot [], FromStores scan := by
  intro scan member
  rw [List.mem_singleton.mp member]
  exact ⟨rootStores, rfl⟩

theorem trust_found_by_issuer :
    Selects (Manager.new issuedByRoot) issuedByRoot 1
      [(ckaToken, [1]), (ckaIssuer, [2]), (ckaSerialNumber, [])] 4 := by
  have searchable (trust : Trust) : ∀ attr ∈ [(ckaToken, [(1 : UInt8)]), (ckaIssuer, [2]),
      (ckaSerialNumber, [])], Searchable (.trust trust) attr.1 := by
    simp [Searchable]
  exact @reported_values_find issuedByRoot issuedByRoot [] 1 4 _ _ root_scans rfl (by decide)
    (searchable _) rfl

/-- The hash that a trust record reports does not find it. -/
theorem trust_hash_finds_nothing : ¬ ∀ (os now : Cng) (run : List (ManagerStep backend))
    (session : CkSessionHandle) (handle : CkObjectHandle) (object : WindowsObject)
    (attrs : List (CkAttributeType × Bytes)),
    (∀ scan ∈ Manager.allScans os run, FromStores scan) →
    (after Manager.step run (Manager.new os)).objects[handle]? = some object →
    (∀ attr ∈ attrs, getAttribute object attr.1 = some attr.2) →
    (after Manager.step run (Manager.new os)).searches.contains session = false →
    Selects (after Manager.step run (Manager.new os)) now session attrs handle := by
  intro always
  have trust := always issuedByRoot issuedByRoot [] 1 4 (.trust _) [(ckaNssCertSha1Hash, [2])]
    root_scans rfl (by decide) rfl
  obtain ⟨_, handles, stored, selected⟩ := trust
  cases stored
  cases selected

def DerIntegerOf (encoded content : Bytes) : Prop :=
  ∃ length, encoded = derInteger :: length :: content ∧ length.toNat = content.length

theorem serial_matches_iff {stored requested : Bytes} :
    serialNumberMatches stored requested = true ↔
      requested = stored ∨ DerIntegerOf requested stored := by
  unfold serialNumberMatches
  by_cases same : requested = stored
  · simp [same]
  · rw [if_neg same, or_iff_right same]
    match requested with
    | [] => simp [DerIntegerOf]
    | [tag] => simp [DerIntegerOf]
    | tag :: length :: content =>
        simp only [decide_eq_true_eq, DerIntegerOf, List.cons.injEq]
        constructor
        · rintro ⟨_, rfl, short, rfl⟩
          exact ⟨length, ⟨rfl, rfl, rfl⟩, short⟩
        · rintro ⟨_, ⟨rfl, rfl, rfl⟩, short⟩
          exact ⟨by simp, rfl, short, rfl⟩

def NamedByIssuer : WindowsObject → Prop
  | .cert _ | .trust _ => True
  | .key _ => False

theorem named_matches {object : WindowsObject} (named : NamedByIssuer object)
    {classAttr issuer serial : Bytes} (hasClass : getAttribute object ckaClass = some classAttr)
    (hasIssuer : getAttribute object ckaIssuer = some issuer)
    (hasSerial : getAttribute object ckaSerialNumber = some serial) (otherClass otherIssuer
      otherSerial : Bytes) :
    objectMatches object [(ckaClass, otherClass), (ckaIssuer, otherIssuer),
        (ckaSerialNumber, otherSerial)] =
      (otherClass == classAttr && (otherIssuer == issuer &&
        serialNumberMatches serial otherSerial)) := by
  cases object with
  | cert cert =>
      cases hasClass
      cases hasIssuer
      cases hasSerial
      simp [objectMatches, Cert.matchesOne, ckaClass, ckaIssuer, ckaSerialNumber, ckaToken,
        ckaLabel, ckaId, ckaValue]
  | trust trust =>
      cases hasClass
      cases hasIssuer
      cases hasSerial
      simp [objectMatches, Trust.matchesOne, ckaClass, ckaIssuer, ckaSerialNumber, ckaToken]
  | key key => exact named.elim

/-- A search by class, issuer and serial number also finds another object of that issuer
only if the serial number asked for encodes the other one, and then it does. -/
theorem issuer_and_serial_search {manager : Manager backend} {now : Cng}
    {session : CkSessionHandle} {handle other : CkObjectHandle} {object same : WindowsObject}
    {classAttr otherClass issuer serial otherSerial : Bytes}
    (idle : manager.searches.contains session = false)
    (found : manager.objects[handle]? = some object)
    (foundToo : manager.objects[other]? = some same)
    (named : NamedByIssuer object) (namedToo : NamedByIssuer same)
    (hasClass : getAttribute object ckaClass = some classAttr)
    (hasIssuer : getAttribute object ckaIssuer = some issuer)
    (hasSerial : getAttribute object ckaSerialNumber = some serial)
    (hasClassToo : getAttribute same ckaClass = some otherClass)
    (hasIssuerToo : getAttribute same ckaIssuer = some issuer)
    (hasSerialToo : getAttribute same ckaSerialNumber = some otherSerial)
    (different : serial ≠ otherSerial) :
    Selects manager now session
        [(ckaClass, classAttr), (ckaIssuer, issuer), (ckaSerialNumber, serial)] other ↔
      classAttr = otherClass ∧ DerIntegerOf serial otherSerial := by
  have itself : objectMatches object
      [(ckaClass, classAttr), (ckaIssuer, issuer), (ckaSerialNumber, serial)] = true := by
    rw [named_matches named hasClass hasIssuer hasSerial]
    simp [serial_matches_itself]
  rw [selects_iff idle found itself foundToo,
    named_matches namedToo hasClassToo hasIssuerToo hasSerialToo]
  simp [serial_matches_iff, different]

def numbered (id : UInt8) (serial : Bytes) : WindowsObject :=
  .cert ⟨[1, 0, 0, 0], [1], [id], [], [id], [9], serial, []⟩

def sameIssuer (serial : Bytes) : Cng := .holding 0 [numbered 7 [2, 1, 5], numbered 8 serial]

theorem other_serial_not_found :
    ¬Selects (Manager.new (sameIssuer [6])) (sameIssuer [6]) 1
      [(ckaClass, [1, 0, 0, 0]), (ckaIssuer, [9]), (ckaSerialNumber, [2, 1, 5])] 2 := by
  let manager : Manager backend := Manager.new (sameIssuer [6])
  have first : manager.objects[(1 : CkObjectHandle)]? = some (numbered 7 [2, 1, 5]) := rfl
  have second : manager.objects[(2 : CkObjectHandle)]? = some (numbered 8 [6]) := rfl
  intro selected
  obtain ⟨_, length, same, _⟩ := (issuer_and_serial_search rfl first second trivial trivial
    rfl rfl rfl rfl rfl rfl (by decide)).mp selected
  simp at same

/-- The serial number 5 has this encoding, so the search for the first finds the second too. -/
theorem encoded_serial_found : ¬ ∀ (manager : Manager backend) (now : Cng)
    (session : CkSessionHandle) (handle other : CkObjectHandle) (object same : WindowsObject)
    (classAttr otherClass issuer serial otherSerial : Bytes),
    manager.searches.contains session = false →
    manager.objects[handle]? = some object → manager.objects[other]? = some same →
    NamedByIssuer object → NamedByIssuer same →
    getAttribute object ckaClass = some classAttr →
    getAttribute object ckaIssuer = some issuer →
    getAttribute object ckaSerialNumber = some serial →
    getAttribute same ckaClass = some otherClass →
    getAttribute same ckaIssuer = some issuer →
    getAttribute same ckaSerialNumber = some otherSerial → serial ≠ otherSerial →
    ¬Selects manager now session
      [(ckaClass, classAttr), (ckaIssuer, issuer), (ckaSerialNumber, serial)] other := by
  intro never
  apply never (Manager.new (sameIssuer [5])) (sameIssuer [5]) 1 1 2 _ _ [1, 0, 0, 0] [1, 0, 0, 0]
    [9] [2, 1, 5] [5] rfl rfl rfl trivial trivial rfl rfl rfl rfl rfl rfl (by decide)
  exact ⟨rfl, [1, 2], rfl, by decide⟩

end Windows
end OsClientCerts
