import OsClientCerts.SearchedAttributes

/-!
What a template means to the objects of the Windows backend: every pair of it names an
attribute that the kind of object is searched by, and denotes the stored value.
-/

namespace OsClientCerts.Windows

/-- Objects are only made by the constructors of the backend. -/
def Made : WindowsObject → Prop
  | .cert cert => ∃ os der, Cert.new os der = .ok cert
  | .key key => ∃ os context der, Key.new os context der = .ok key
  | .trust trust => ∃ os der, Trust.new os der = .ok trust

def serialNumber : WindowsObject → Bytes
  | .cert cert => cert.serialNumber
  | .key key => key.serialNumber
  | .trust trust => trust.serialNumber

def booleanTypes : List CkAttributeType :=
  [ckaToken, ckaPrivate, ckaSign, ckaDecrypt, ckaSensitive, ckaExtractable,
    ckaAlwaysAuthenticate, ckaLocal]

def matchedTypes : WindowsObject → List CkAttributeType
  | .cert _ => [ckaClass, ckaToken, ckaLabel, ckaId, ckaValue, ckaIssuer, ckaSerialNumber,
      ckaSubject]
  | .key _ => booleanTypes ++ [ckaClass, ckaLabel, ckaSubject, ckaIssuer, ckaSerialNumber, ckaId,
      ckaKeyType, ckaModulus, ckaEcParams]
  | .trust _ => [ckaClass, ckaToken, ckaIssuer, ckaSerialNumber]

def IsTrue (value : Bytes) : Prop := ∃ byte ∈ value, byte ≠ 0

def SameTruth (stored value : Bytes) : Prop :=
  (value.length = 1 ∨ value.length = 4) ∧ (IsTrue value ↔ IsTrue stored)

/-- Equality is the first way to denote a value; booleans and serial numbers have one more. -/
def DenotesValue (attrType : CkAttributeType) (stored value : Bytes) : Prop :=
  value = stored ∨
    (attrType ∈ booleanTypes ∧ SameTruth stored value) ∨
    (attrType = ckaSerialNumber ∧ Der.read value derInteger = .ok (stored, []))

def Denotes (object : WindowsObject) (attr : CkAttributeType × Bytes) : Prop :=
  attr.1 ∈ matchedTypes object ∧
    ∃ stored, getAttribute object attr.1 = some stored ∧ DenotesValue attr.1 stored attr.2

theorem made_flags {object : WindowsObject} (made : Made object) : FlagsMade object := by
  cases object with
  | cert cert =>
      obtain ⟨os, der, made⟩ := made
      exact cert_new_flags made
  | key key =>
      obtain ⟨os, context, der, made⟩ := made
      exact key_new_flags made
  | trust trust =>
      obtain ⟨os, der, made⟩ := made
      exact trust_new_flags made

theorem requested_bool_iff {value : Bytes} {truth : Bool} :
    requestedBool value = some truth ↔
      (value.length = 1 ∨ value.length = 4) ∧ (IsTrue value ↔ truth = true) := by
  match value with
  | [] => simp [requestedBool]
  | [a] => cases truth <;> simp [requestedBool, IsTrue]
  | [a, b] => simp [requestedBool]
  | [a, b, c] => simp [requestedBool]
  | [a, b, c, d] => cases truth <;> simp [requestedBool, IsTrue]
  | a :: b :: c :: d :: e :: rest => simp [requestedBool]

theorem bool_attr_denotes {attrType : CkAttributeType} {stored value : Bytes}
    (flag : IsFlag stored) (boolean : attrType ∈ booleanTypes) :
    boolAttrMatches stored value = true ↔ DenotesValue attrType stored value := by
  obtain ⟨byte, rfl⟩ := flag
  have notSerial : attrType ≠ ckaSerialNumber := by
    rintro rfl
    exact absurd boolean (by decide)
  have matched : boolAttrMatches [byte] value = true ↔ SameTruth [byte] value := by
    have truth : IsTrue [byte] ↔ decide (byte ≠ 0) = true := by simp [IsTrue]
    rw [SameTruth, truth, ← requested_bool_iff, boolAttrMatches]
    cases requestedBool value with
    | none => simp [storedBool]
    | some other => cases other <;> simp [storedBool]
  rw [matched, DenotesValue]
  constructor
  · exact fun same => Or.inr (Or.inl ⟨boolean, same⟩)
  · rintro (rfl | ⟨_, same⟩ | ⟨serial, _⟩)
    · exact ⟨Or.inl rfl, Iff.rfl⟩
    · exact same
    · exact absurd serial notSerial

theorem serial_denotes {stored value : Bytes} (short : stored.length < 128) :
    serialNumberMatches stored value = true ↔ DenotesValue ckaSerialNumber stored value := by
  -- Below 128 bytes the encoding that the comparison accepts is the one the reader accepts.
  have octets : Der.lengthOctets stored.length = [UInt8.ofNat stored.length] := if_pos short
  have read : Der.read value derInteger = .ok (stored, []) ↔ DerIntegerOf value stored := by
    rw [Der.read_ok_iff, List.append_nil, Der.encode, octets]
    constructor
    · rintro ⟨_, rfl⟩
      exact ⟨_, rfl, UInt8.toNat_ofNat_of_lt' (lt_trans short (by decide))⟩
    · rintro ⟨length, rfl, counted⟩
      refine ⟨by omega, ?_⟩
      rw [← counted, UInt8.ofNat_toNat]
      rfl
  have notBoolean : ckaSerialNumber ∉ booleanTypes := by decide
  rw [serial_matches_iff, DenotesValue, read]
  simp [notBoolean]

theorem other_denotes {attrType : CkAttributeType} {stored value : Bytes}
    (notBoolean : attrType ∉ booleanTypes) (notSerial : attrType ≠ ckaSerialNumber) :
    (value == stored) = true ↔ DenotesValue attrType stored value := by
  simp [DenotesValue, notBoolean, notSerial]

theorem optional_denotes {attrType : CkAttributeType} {held : Option Bytes} {value : Bytes}
    (notBoolean : attrType ∉ booleanTypes) (notSerial : attrType ≠ ckaSerialNumber) :
    (some value == held) = true ↔
      ∃ stored, held = some stored ∧ DenotesValue attrType stored value := by
  -- One that may be absent denotes nothing then.
  cases held with
  | none => simp
  | some stored => simp [DenotesValue, notBoolean, notSerial]

theorem present_denotes {matched : Prop} {attrType : CkAttributeType} {held value : Bytes}
    (compared : matched ↔ DenotesValue attrType held value) :
    matched ↔ ∃ stored, some held = some stored ∧ DenotesValue attrType stored value := by
  simp [compared]

theorem plain_denotes {attrType : CkAttributeType} {held value : Bytes}
    (notBoolean : attrType ∉ booleanTypes) (notSerial : attrType ≠ ckaSerialNumber) :
    (value == held) = true ↔
      ∃ stored, some held = some stored ∧ DenotesValue attrType stored value :=
  present_denotes (other_denotes notBoolean notSerial)

theorem cert_denotes {cert : Cert} (flag : IsFlag cert.token)
    (short : cert.serialNumber.length < 128) {attrType : CkAttributeType} {value : Bytes} :
    cert.matchesOne (attrType, value) = true ↔ Denotes (.cert cert) (attrType, value) := by
  by_cases member : attrType ∈ matchedTypes (.cert cert)
  · refine Iff.trans ?_ (and_iff_right member).symm
    change _ ↔ ∃ stored, cert.getAttribute attrType = some stored ∧
      DenotesValue attrType stored value
    simp only [matchedTypes, List.mem_cons, List.not_mem_nil, or_false] at member
    rcases member with rfl | rfl | rfl | rfl | rfl | rfl | rfl | rfl
    · exact plain_denotes (by decide) (by decide)
    · exact present_denotes (bool_attr_denotes flag (by decide))
    · exact plain_denotes (by decide) (by decide)
    · exact plain_denotes (by decide) (by decide)
    · exact plain_denotes (by decide) (by decide)
    · exact plain_denotes (by decide) (by decide)
    · exact present_denotes (serial_denotes short)
    · exact plain_denotes (by decide) (by decide)
  · refine iff_of_false ?_ fun denotes => member denotes.1
    simp only [matchedTypes, List.mem_cons, List.not_mem_nil, or_false, not_or] at member
    simp [Cert.matchesOne, member]

theorem key_denotes {key : Key} (flags : FlagsMade (.key key))
    (short : key.serialNumber.length < 128) {attrType : CkAttributeType} {value : Bytes} :
    key.matchesOne (attrType, value) = true ↔ Denotes (.key key) (attrType, value) := by
  obtain ⟨token, isPrivate, sign, decrypt, sensitive, extractable, always, isLocal⟩ := flags
  by_cases member : attrType ∈ matchedTypes (.key key)
  · refine Iff.trans ?_ (and_iff_right member).symm
    change _ ↔ ∃ stored, key.getAttribute attrType = some stored ∧
      DenotesValue attrType stored value
    rcases List.mem_append.mp member with boolean | other
    · have bool {stored : Bytes} (flag : IsFlag stored) :=
        @bool_attr_denotes attrType stored value flag boolean
      simp only [booleanTypes, List.mem_cons, List.not_mem_nil, or_false] at boolean
      rcases boolean with rfl | rfl | rfl | rfl | rfl | rfl | rfl | rfl
      · exact present_denotes (bool token)
      · exact present_denotes (bool isPrivate)
      · exact present_denotes (bool sign)
      · exact present_denotes (bool decrypt)
      · exact present_denotes (bool sensitive)
      · exact present_denotes (bool extractable)
      · exact present_denotes (bool always)
      · exact present_denotes (bool isLocal)
    · simp only [List.mem_cons, List.not_mem_nil, or_false] at other
      rcases other with rfl | rfl | rfl | rfl | rfl | rfl | rfl | rfl | rfl
      · exact plain_denotes (by decide) (by decide)
      · exact plain_denotes (by decide) (by decide)
      · exact plain_denotes (by decide) (by decide)
      · exact plain_denotes (by decide) (by decide)
      · exact present_denotes (serial_denotes short)
      · exact plain_denotes (by decide) (by decide)
      · exact plain_denotes (by decide) (by decide)
      · exact optional_denotes (by decide) (by decide)
      · exact optional_denotes (by decide) (by decide)
  · refine iff_of_false ?_ fun denotes => member denotes.1
    simp only [matchedTypes, booleanTypes, List.mem_append, List.mem_cons, List.not_mem_nil,
      or_false, not_or] at member
    simp [Key.matchesOne, member]

theorem trust_denotes {trust : Trust} (flag : IsFlag trust.token)
    (short : trust.serialNumber.length < 128) {attrType : CkAttributeType} {value : Bytes} :
    trust.matchesOne (attrType, value) = true ↔ Denotes (.trust trust) (attrType, value) := by
  by_cases member : attrType ∈ matchedTypes (.trust trust)
  · refine Iff.trans ?_ (and_iff_right member).symm
    change _ ↔ ∃ stored, trust.getAttribute attrType = some stored ∧
      DenotesValue attrType stored value
    simp only [matchedTypes, List.mem_cons, List.not_mem_nil, or_false] at member
    rcases member with rfl | rfl | rfl | rfl
    · exact plain_denotes (by decide) (by decide)
    · exact present_denotes (bool_attr_denotes flag (by decide))
    · exact plain_denotes (by decide) (by decide)
    · exact present_denotes (serial_denotes short)
  · refine iff_of_false ?_ fun denotes => member denotes.1
    simp only [matchedTypes, List.mem_cons, List.not_mem_nil, or_false, not_or] at member
    simp [Trust.matchesOne, member]

theorem pair_denotes {object : WindowsObject} (made : Made object)
    (short : (serialNumber object).length < 128) {attr : CkAttributeType × Bytes} :
    objectMatches object [attr] = true ↔ Denotes object attr := by
  have flags := made_flags made
  cases object with
  | cert cert => simpa [objectMatches] using cert_denotes flags short
  | key key => simpa [objectMatches] using key_denotes flags short
  | trust trust => simpa [objectMatches] using trust_denotes flags short

theorem matches_mono {object : WindowsObject} {attrs more : List (CkAttributeType × Bytes)}
    (added : ∀ attr ∈ attrs, attr ∈ more) (matching : objectMatches object more = true) :
    objectMatches object attrs = true :=
  matches_each.mpr fun attr member => matches_each.mp matching attr (added attr member)

/-- A template matches if all its pairs denote what is stored. Pairs that are added only
exclude objects, in whatever order and however often they are given. -/
theorem matches_iff_denotes (object : WindowsObject) (made : Made object)
    (short : (serialNumber object).length < 128) :
    (∀ template, objectMatches object template = true ↔
      ∀ attr ∈ template, Denotes object attr) ∧
    (∀ template more, (∀ attr ∈ template, attr ∈ more) →
      objectMatches object more = true → objectMatches object template = true) ∧
    (∀ template other, (∀ attr, attr ∈ template ↔ attr ∈ other) →
      objectMatches object template = objectMatches object other) := by
  refine ⟨?_, fun _ _ => matches_mono, ?_⟩
  · intro template
    rw [matches_each]
    exact forall₂_congr fun attr _ => pair_denotes made short
  · intro template other same
    exact Bool.eq_iff_iff.mpr
      ⟨matches_mono fun attr => (same attr).mpr, matches_mono fun attr => (same attr).mp⟩

/-- The token flag as a `CK_ULONG`. -/
theorem long_token_flag_denotes :
    ∃ cert, Cert.new (.issuing (fun _ => none) (fun _ => true) []) [7] = .ok cert ∧
      Denotes (.cert cert) (ckaToken, [1, 0, 0, 0]) := by
  refine ⟨_, rfl, ?_⟩
  have meaning := matches_iff_denotes (.cert _)
    ⟨.issuing (fun _ => none) (fun _ => true) [], [7], rfl⟩ (by decide)
  exact (meaning.1 [(ckaToken, [1, 0, 0, 0])]).mp (by decide) _ (List.mem_singleton_self _)

end OsClientCerts.Windows
