import OsClientCerts.SearchedAttributes

/-!
From a key to its certificate and back, as NSS goes: by a search for the class and the id.
Each registered key has one certificate in the registry, which describes the same subject,
and each of the two finds the other and nothing else.
-/

namespace OsClientCerts.Windows
open LocalAutomata

/-- The objects of these scans list the certificate stores, as one Windows decodes them: what
it reads in a certificate does not change, and listed certificates have digests of their own. -/
structure Decodes (decoder : Stores) (scans : List Cng) : Prop where
  lists : ∀ scan ∈ scans, ∃ stores : Stores, scan.objects = listObjects stores ∧
    stores.certInfo = decoder.certInfo ∧ stores.sha256 = decoder.sha256 ∧
      stores.certNameToStr = decoder.certNameToStr
  apart : ∀ scan ∈ scans, ∀ other ∈ scans, ∀ cert same : Cert, .cert cert ∈ scan.objects →
    .cert same ∈ other.objects → cert.id = same.id → cert.value = same.value

/-- What an object shows of the certificate it was made of. -/
structure Shown where
  id : Bytes
  label : Bytes
  subject : Bytes
  issuer : Bytes
  serialNumber : Bytes
  deriving DecidableEq

def Cert.shown (cert : Cert) : Shown :=
  ⟨cert.id, cert.label, cert.subject, cert.issuer, cert.serialNumber⟩

def Key.shown (key : Key) : Shown :=
  ⟨key.id, key.label, key.subject, key.issuer, key.serialNumber⟩

def Stores.describe (os : Stores) (der label : Bytes) : Shown :=
  ⟨os.sha256 der, label, (os.certInfo der).subject, (os.certInfo der).issuer,
    (os.certInfo der).serialNumber.reverse⟩

section
variable {os : Stores} {der : Bytes}

theorem cert_new_shown {cert : Cert} (made : Cert.new os der = .ok cert) :
    getCertSubjectDn os (os.certInfo der) = .ok cert.label ∧
      cert.shown = os.describe der cert.label ∧
        cert.classAttr = (serializeUint .windows ckoCertificate).toOption.getD [] := by
  unfold Cert.new at made
  obtain ⟨label, named, rest⟩ := bind_ok made
  obtain ⟨classAttr, classed, last⟩ := bind_ok rest
  cases last
  cases classed
  exact ⟨named, rfl, rfl⟩

theorem key_new_shown {context : CertContext} {key : Key} (made : Key.new os context der = .ok key) :
    getCertSubjectDn os (os.certInfo der) = .ok key.label ∧
      key.shown = os.describe der key.label ∧
        key.classAttr = (serializeUint .windows ckoPrivateKey).toOption.getD [] := by
  unfold Key.new at made
  obtain ⟨label, named, made⟩ := bind_ok made
  obtain ⟨publicPart, _, made⟩ := bind_ok made
  obtain ⟨classAttr, classed, made⟩ := bind_ok made
  obtain ⟨keyType, _, made⟩ := bind_ok made
  cases made
  cases classed
  exact ⟨named, rfl, rfl⟩

theorem shown_together {context : CertContext} {cert : Cert} {key : Key}
    (madeCert : Cert.new os der = .ok cert) (madeKey : Key.new os context der = .ok key) :
    cert.shown = key.shown := by
  -- A certificate and a key that are made of the same one show the same.
  obtain ⟨named, shown, _⟩ := cert_new_shown madeCert
  obtain ⟨namedToo, shownToo, _⟩ := key_new_shown madeKey
  have label : cert.label = key.label := Except.ok.inj (named.symm.trans namedToo)
  rw [shown, shownToo, label]

theorem listed_key {key : Key} (listed : .key key ∈ listObjects os) :
    ∃ cert : Cert, .cert cert ∈ listObjects os ∧ cert.shown = key.shown := by
  unfold listObjects at listed ⊢
  cases opened : os.personal with
  | none => simp [opened] at listed
  | some found =>
      simp only [opened, List.mem_append] at listed ⊢
      rcases listed with personal | issuers
      · obtain ⟨⟨context, der⟩, member, shown⟩ := List.mem_flatMap.mp personal
        cases madeCert : Cert.new os der with
        | error err => simp [madeCert] at shown
        | ok cert =>
            cases madeKey : Key.new os context der with
            | error err => simp [madeCert, madeKey] at shown
            | ok other =>
                simp only [madeCert, madeKey, List.mem_cons, List.not_mem_nil, or_false] at shown
                obtain rfl : key = other := by simpa using shown
                refine ⟨cert, Or.inl (List.mem_flatMap.mpr ⟨(context, der), member, ?_⟩),
                  shown_together madeCert madeKey⟩
                simp [madeCert, madeKey]
      · obtain ⟨_, ca, _, shown⟩ := mem_emitted.mp issuers
        exact absurd shown exposed_key

end

def certClass : Bytes := (serializeUint .windows ckoCertificate).toOption.getD []
def keyClass : Bytes := (serializeUint .windows ckoPrivateKey).toOption.getD []

def Described (decoder : Stores) : WindowsObject → Prop
  | .cert cert => getCertSubjectDn decoder (decoder.certInfo cert.value) = .ok cert.label ∧
      cert.shown = decoder.describe cert.value cert.label ∧ cert.classAttr = certClass
  | .key key => key.classAttr = keyClass
  | .trust _ => True

theorem cert_new_described {os : Stores} {der : Bytes} {cert : Cert}
    (made : Cert.new os der = .ok cert) : Described os (.cert cert) := by
  have value : cert.value = der := cert_new_value made
  have shown := cert_new_shown made
  rw [← value] at shown
  exact shown

theorem list_objects_described {os : Stores} {object : WindowsObject}
    (listed : object ∈ listObjects os) : Described os object := by
  unfold listObjects at listed
  cases opened : os.personal with
  | none => simp [opened] at listed
  | some found =>
      simp only [opened, List.mem_append] at listed
      rcases listed with personal | issuers
      · obtain ⟨⟨context, der⟩, _, shown⟩ := List.mem_flatMap.mp personal
        cases madeCert : Cert.new os der with
        | error err => simp [madeCert] at shown
        | ok cert =>
            cases madeKey : Key.new os context der with
            | error err => simp [madeCert, madeKey] at shown
            | ok key =>
                simp only [madeCert, madeKey, List.mem_cons, List.not_mem_nil, or_false] at shown
                rcases shown with rfl | rfl
                · exact cert_new_described madeCert
                · exact (key_new_shown madeKey).2.2
      · obtain ⟨_, ca, _, shown⟩ := mem_emitted.mp issuers
        cases object with
        | cert cert => exact cert_new_described (exposed_cert.mp shown)
        | key key => exact absurd shown exposed_key
        | trust trust => trivial

theorem Described.of_same {os decoder : Stores} {object : WindowsObject}
    (described : Described os object) (info : os.certInfo = decoder.certInfo)
    (digest : os.sha256 = decoder.sha256) (names : os.certNameToStr = decoder.certNameToStr) :
    Described decoder object := by
  cases object with
  | cert cert =>
      simpa only [Described, getCertSubjectDn, Stores.describe, info, digest, names] using described
  | key key => exact described
  | trust trust => trivial

section
variable {decoder : Stores} {scans : List Cng}

theorem Decodes.described (decodes : Decodes decoder scans) {scan : Cng} (member : scan ∈ scans)
    {object : WindowsObject} (listed : object ∈ scan.objects) : Described decoder object := by
  obtain ⟨stores, same, info, digest, names⟩ := decodes.lists scan member
  rw [same] at listed
  exact (list_objects_described listed).of_same info digest names

/-- Two certificates with one id show the same, in whichever scans they were listed. -/
theorem Decodes.same_shown (decodes : Decodes decoder scans) {scan other : Cng}
    (member : scan ∈ scans) (memberToo : other ∈ scans) {cert same : Cert}
    (listed : .cert cert ∈ scan.objects) (listedToo : .cert same ∈ other.objects)
    (id : cert.id = same.id) : cert.shown = same.shown := by
  have value := decodes.apart scan member other memberToo cert same listed listedToo id
  obtain ⟨named, shown, _⟩ := decodes.described member listed
  obtain ⟨namedToo, shownToo, _⟩ := decodes.described memberToo listedToo
  rw [← value] at namedToo shownToo
  have label : cert.label = same.label := Except.ok.inj (named.symm.trans namedToo)
  rw [shown, shownToo, label]

theorem Decodes.accompanied (decodes : Decodes decoder scans) {scan : Cng} (member : scan ∈ scans)
    {key : Key} (listed : .key key ∈ scan.objects) :
    ∃ cert : Cert, .cert cert ∈ scan.objects ∧ cert.shown = key.shown := by
  obtain ⟨stores, same, _⟩ := decodes.lists scan member
  rw [same] at listed ⊢
  exact listed_key listed

end

def ofClass (classAttr id : Bytes) : List (CkAttributeType × Bytes) :=
  [(ckaClass, classAttr), (ckaId, id)]

section
variable (classAttr id : Bytes)

theorem cert_of_class (cert : Cert) : objectMatches (.cert cert) (ofClass classAttr id) =
    (classAttr == cert.classAttr && (id == cert.id && true)) := rfl

theorem key_of_class (key : Key) : objectMatches (.key key) (ofClass classAttr id) =
    (classAttr == key.classAttr && (id == key.id && true)) := rfl

theorem trust_of_class (trust : Trust) :
    objectMatches (.trust trust) (ofClass classAttr id) = false := by
  show (_ && false) = false
  exact Bool.and_false _

end

theorem classes_apart : certClass ≠ keyClass := by decide

section
variable {decoder : Stores} {object : WindowsObject}

theorem cert_search_matches (described : Described decoder object) (id : Bytes) :
    objectMatches object (ofClass certClass id) = true ↔ backend.ident object = (.cert, id) := by
  cases object with
  | cert cert =>
      have same : cert.classAttr = certClass := described.2.2
      rw [cert_of_class, same]
      simp only [beq_self_eq_true, Bool.true_and, Bool.and_true, beq_iff_eq, Backend.ident,
        Prod.mk.injEq, true_and]
      exact eq_comm
  | key key =>
      have same : key.classAttr = keyClass := described
      rw [key_of_class, same]
      simp [Backend.ident, classes_apart]
  | trust trust =>
      rw [trust_of_class]
      simp [Backend.ident]

theorem key_search_matches (described : Described decoder object) (id : Bytes) :
    objectMatches object (ofClass keyClass id) = true ↔ backend.ident object = (.key, id) := by
  cases object with
  | cert cert =>
      have same : cert.classAttr = certClass := described.2.2
      rw [cert_of_class, same]
      simp [Backend.ident, classes_apart.symm]
  | key key =>
      have same : key.classAttr = keyClass := described
      rw [key_of_class, same]
      simp only [beq_self_eq_true, Bool.true_and, Bool.and_true, beq_iff_eq, Backend.ident,
        Prod.mk.injEq, true_and]
      exact eq_comm
  | trust trust =>
      rw [trust_of_class]
      simp [Backend.ident]

end

def FindsOnly (manager : Manager backend) (now : Cng) (session : CkSessionHandle)
    (attrs : List (CkAttributeType × Bytes)) (handle : CkObjectHandle) : Prop :=
  manager.startSearch now session attrs =
    (.ok (), { manager with searches := manager.searches.insert session [handle] })

/-- What the registry keeps apart, a search for it finds alone. -/
theorem finds_only {manager : Manager backend} {now : Cng} {session : CkSessionHandle}
    {attrs : List (CkAttributeType × Bytes)} {ident : ObjectKind × Bytes} {handle : CkObjectHandle}
    {object : WindowsObject} (idle : manager.searches.contains session = false)
    (found : manager.objects[handle]? = some object) (named : backend.ident object = ident)
    (matching : ∀ (other : CkObjectHandle) (same : WindowsObject),
      manager.objects[other]? = some same →
        (objectMatches same attrs = true ↔ backend.ident same = ident))
    (unique : ∀ (other : CkObjectHandle) (same : WindowsObject),
      manager.objects[other]? = some same → backend.ident same = ident → other = handle) :
    FindsOnly manager now session attrs handle := by
  have matches_ : objectMatches object attrs = true := (matching handle object found).mpr named
  have started := Manager.search_finds (B := backend) now idle found matches_
    (supported_of_matches object attrs matches_)
  have alone : Manager.matchingHandles manager.objects attrs = [handle] := by
    have nodup := Manager.matching_nodup manager.objects attrs
    have members : ∀ other, other ∈ Manager.matchingHandles manager.objects attrs ↔
        other ∈ [handle] := by
      intro other
      rw [List.mem_singleton, Manager.mem_matching]
      constructor
      · rintro ⟨same, foundToo, matchesToo⟩
        exact unique other same foundToo ((matching other same foundToo).mp matchesToo)
      · rintro rfl
        exact ⟨object, found, matches_⟩
    exact List.perm_singleton.mp
      ((List.perm_ext_iff_of_nodup nodup (List.nodup_singleton handle)).mpr members)
  rw [FindsOnly, started, alone]

/-- The certificate of the key that the handle names: the search for the key's id finds it and
nothing else, it shows what the key shows, and the search for its id finds only the key. -/
structure Paired (manager : Manager backend) (now : Cng) (session : CkSessionHandle)
    (handle : CkObjectHandle) (key : Key) (other : CkObjectHandle) (cert : Cert) : Prop where
  registered : manager.objects[other]? = some (.cert cert)
  shown : cert.shown = key.shown
  finds : FindsOnly manager now session (ofClass certClass key.id) other
  back : FindsOnly manager now session (ofClass key.classAttr cert.id) handle

/-- In every state that calls and scans lead to before the handles run out, each registered key
has its certificate, and searches by the common id find the two and nothing else. -/
theorem every_key_paired {decoder : Stores} {os now : Cng} {run : List (ManagerStep backend)}
    {session : CkSessionHandle} {handle : CkObjectHandle} {key : Key}
    (decodes : Decodes decoder (Manager.allScans (B := backend) os run))
    (unwrapped : (after Manager.step run (Manager.new (B := backend) os)).Unwrapped)
    (idle : (after Manager.step run (Manager.new os)).searches.contains session = false)
    (found : (after Manager.step run (Manager.new os)).objects[handle]? = some (.key key)) :
    ∃ other cert,
      Paired (after Manager.step run (Manager.new os)) now session handle key other cert := by
  have invariant := (Manager.registry_laws os run unwrapped).invariant run [] (by simp)
  have described : ∀ (place : CkObjectHandle) (object : WindowsObject),
      (after Manager.step run (Manager.new (B := backend) os)).objects[place]? = some object →
        Described decoder object := by
    intro place object there
    obtain ⟨scan, member, listed⟩ := Manager.reached_listed os run there
    exact decodes.described member listed
  obtain ⟨scan, member, listed⟩ := Manager.reached_listed os run found
  obtain ⟨accompanying, listedToo, shownTogether⟩ := decodes.accompanied member listed
  -- The certificate may have been listed before, with another key or none.
  obtain ⟨other, first, registered, ident, _⟩ :=
    invariant.represented scan member (.cert accompanying) listedToo
  cases first with
  | key first => cases (Prod.mk.inj ident).1
  | trust first => cases (Prod.mk.inj ident).1
  | cert cert =>
      have sameId : cert.id = accompanying.id := (Prod.mk.inj ident).2
      obtain ⟨earlier, memberToo, listedFirst⟩ := Manager.reached_listed os run registered
      have shown : cert.shown = key.shown :=
        (decodes.same_shown memberToo member listedFirst listedToo sameId).trans shownTogether
      have id : cert.id = key.id := congrArg Shown.id shown
      have keyClassed : key.classAttr = keyClass := described handle (.key key) found
      refine ⟨other, cert, registered, shown, ?_, ?_⟩
      · rw [← id]
        exact finds_only idle registered rfl
          (fun place object there => cert_search_matches (described place object there) cert.id)
          (fun place object there same => invariant.unique place other object (.cert cert) there
            registered same)
      · rw [keyClassed, id]
        exact finds_only idle found rfl
          (fun place object there => key_search_matches (described place object there) key.id)
          (fun place object there same => invariant.unique place handle object (.key key) there
            found same)

/-- The only key of the stores, and the certificate it is found by. -/
theorem issued_key_paired : ∃ key other cert,
    Paired (Manager.new issuedByRoot) issuedByRoot 1 2 key other cert := by
  have lists : ∀ scan ∈ Manager.allScans (B := backend) issuedByRoot [],
      scan = issuedByRoot := by
    intro scan member
    exact List.mem_singleton.mp member
  have decodes : Decodes rootStores (Manager.allScans (B := backend) issuedByRoot []) := by
    constructor
    · intro scan member
      rw [lists scan member]
      exact ⟨rootStores, rfl, rfl, rfl, rfl⟩
    · intro scan member other memberToo cert same listed listedToo id
      rw [lists scan member] at listed
      rw [lists other memberToo] at listedToo
      have value := (@list_objects_described rootStores (.cert cert) listed).2.1
      have valueToo := (@list_objects_described rootStores (.cert same) listedToo).2.1
      have digest : cert.id = cert.value := congrArg Shown.id value
      have digestToo : same.id = same.value := congrArg Shown.id valueToo
      rw [← digest, ← digestToo, id]
  exact ⟨_, @every_key_paired rootStores issuedByRoot issuedByRoot [] 1 2 _ decodes
    (by unfold Manager.Unwrapped; decide) rfl rfl⟩

end OsClientCerts.Windows
