import OsClientCerts.IntegerPairs

/-!
Encodings of RSA public keys against what is accepted as one. Every encoding is read back
and nothing around it is taken for one; but integers are accepted that no encoding has,
since only the length of what is read of them is looked at.
-/

namespace OsClientCerts
open OctetStrings

def RsaBody (n e : Nat) (body : Bytes) : Prop :=
  ∃ modulus exponent, MinimalInteger n modulus ∧ MinimalInteger e exponent ∧
    PairBody modulus exponent body

def RsaPublicKey (n e : Nat) (encoding : Bytes) : Prop :=
  ∃ body, RsaBody n e body ∧ Item sequenceTag body encoding

theorem rsa_public_key_unique {n e : Nat} {encoding other : Bytes}
    (encoded : RsaPublicKey n e encoding) (too : RsaPublicKey n e other) : other = encoding := by
  obtain ⟨_, ⟨modulus, exponent, isN, isE, first, second, one, two, rfl⟩, whole⟩ := encoded
  obtain ⟨_, ⟨modulus', exponent', isN', isE', first', second', one', two', rfl⟩, whole'⟩ := too
  rw [minimal_unique isN' isN] at one'
  rw [minimal_unique isE' isE] at two'
  rw [item_unique one' one, item_unique two' two] at whole'
  exact item_unique whole' whole

theorem clean_minimal {octets : Bytes} (clean : Clean octets) :
    MinimalInteger (value octets) octets := minimal_iff_clean.mpr ⟨clean, rfl⟩

theorem rsa_public_key_clean {left right body encoding : Bytes} (cleanLeft : Clean left)
    (cleanRight : Clean right) (pair : PairBody left right body)
    (encoded : Item sequenceTag body encoding) :
    RsaPublicKey (value left) (value right) encoding :=
  ⟨body, ⟨left, right, clean_minimal cleanLeft, clean_minimal cleanRight, pair⟩, encoded⟩

theorem read_modulus_iff {input modulus : Bytes} :
    readRsaModulus input = .ok modulus ↔
      ∃ exponent, Sequence.twoUnsignedIntegers input = .ok (modulus, exponent) := by
  rw [read_rsa_modulus_eq]
  cases Sequence.twoUnsignedIntegers input with
  | error failure => simp [Except.map]
  | ok pair => simp [Except.map, Prod.ext_iff]

theorem read_modulus_error {input : Bytes}
    (refused : Sequence.twoUnsignedIntegers input = .error ()) :
    readRsaModulus input = .error () := by
  rw [read_rsa_modulus_eq, refused]
  rfl

/-- The modulus that is read from the encoding of a key is that of the key, and from the
encoding with anything more, inside or outside, or with anything less nothing is read. -/
theorem modulus_round_trip {n e : Nat} {body encoding : Bytes} (key : RsaBody n e body)
    (short : body.length < 65536) (encoded : Item sequenceTag body encoding) :
    readRsaModulus encoding = .ok (unsigned n) ∧
    (∀ inner outer longer, inner ≠ [] ∨ outer ≠ [] → Item sequenceTag (body ++ inner) longer →
      readRsaModulus (longer ++ outer) = .error ()) ∧
    ∀ front tail, encoding = front ++ tail → tail ≠ [] → readRsaModulus front = .error () := by
  obtain ⟨modulus, exponent, isN, isE, pair⟩ := key
  obtain ⟨cleanN, valueN⟩ := minimal_iff_clean.mp isN
  refine ⟨?_, ?_, ?_⟩
  · have read := two_integers_iff.mpr ⟨modulus, exponent, body, isN.1, isE.1, pair, short, encoded,
      rfl, rfl⟩
    rw [without_sign_clean cleanN, valueN] at read
    exact read_modulus_iff.mpr ⟨_, read⟩
  · intro inner outer longer more extended
    cases accepted : Sequence.twoUnsignedIntegers (longer ++ outer) with
    | error failure => exact read_modulus_error accepted
    | ok read =>
        obtain ⟨none, nothing, _⟩ := two_integers_exact pair extended accepted
        exact absurd nothing (more.resolve_left fun some_inner => some_inner none)
  · intro front tail whole some_tail
    rw [whole] at encoded
    exact read_modulus_error (two_integers_extended short encoded some_tail)

/-- A modulus with its first bit set, so that a zero is put in front of it. -/
theorem signed_modulus_round_trip :
    readRsaModulus [0x30, 7, 2, 2, 0, 200, 2, 1, 3] = .ok (unsigned 200) ∧
    (∀ inner outer longer, inner ≠ [] ∨ outer ≠ [] →
      Item sequenceTag ([2, 2, 0, 200, 2, 1, 3] ++ inner) longer →
      readRsaModulus (longer ++ outer) = .error ()) ∧
    ∀ front tail, [0x30, 7, 2, 2, 0, 200, 2, 1, 3] = front ++ tail → tail ≠ [] →
      readRsaModulus front = .error () := by
  have modulus : MinimalInteger (200 : Nat) [0, 200] := minimal_iff_clean.mpr (by decide)
  have exponent : MinimalInteger (3 : Nat) [3] := minimal_iff_clean.mpr (by decide)
  have key : RsaBody 200 3 [2, 2, 0, 200, 2, 1, 3] :=
    ⟨_, _, modulus, exponent, _, _, Der.encode_item (by decide) _, Der.encode_item (by decide) _,
      rfl⟩
  exact modulus_round_trip key (by decide) (Der.encode_item (by decide) _)

def SignedMinimally (input : Bytes) : Prop :=
  ∀ left right body, PairBody left right body → Item sequenceTag body input →
    Clean left ∧ Clean right

/-- The input is the one encoding of a key, whose modulus is what was read. -/
def CanonicalKey (input modulus : Bytes) : Prop :=
  ∃ n e, RsaPublicKey n e input ∧ (∀ again, RsaPublicKey n e again → again = input) ∧
    modulus = unsigned n ∧ (modulus = [0] ∨ modulus.head? ≠ some 0)

theorem accepted_pair {input first second : Bytes}
    (accepted : Sequence.twoUnsignedIntegers input = .ok (first, second)) :
    ∃ left right, first = withoutSign left ∧ second = withoutSign right ∧
      (∃ body, PairBody left right body ∧ Item sequenceTag body input) ∧
      ∀ left' right' body, PairBody left' right' body → Item sequenceTag body input →
        left' = left ∧ right' = right := by
  obtain ⟨left, right, body, _, _, pair, short, encoded, isFirst, isSecond⟩ :=
    two_integers_iff.mp accepted
  refine ⟨left, right, isFirst, isSecond, ⟨body, pair, encoded⟩, ?_⟩
  intro left' right' other pair' encoded'
  have same : other = body := item_content_unique encoded' encoded
  rw [same, ← List.append_nil body] at pair'
  rw [← List.append_nil body] at short
  obtain ⟨rfl, rfl, _⟩ := pair_unique short pair pair'
  exact ⟨rfl, rfl⟩

theorem signed_minimally_iff {input left right body : Bytes} (pair : PairBody left right body)
    (encoded : Item sequenceTag body input)
    (unique : ∀ left' right' body, PairBody left' right' body → Item sequenceTag body input →
      left' = left ∧ right' = right) :
    SignedMinimally input ↔ Clean left ∧ Clean right := by
  constructor
  · intro minimal
    exact minimal left right body pair encoded
  · intro clean left' right' body' pair' encoded'
    obtain ⟨rfl, rfl⟩ := unique left' right' body' pair' encoded'
    exact clean

/-- An accepted input is the encoding of a key exactly if its integers are signed minimally,
and two such inputs are never read as the same modulus and exponent. -/
theorem canonical_key_iff {input modulus : Bytes}
    (accepted : readRsaModulus input = .ok modulus) :
    (CanonicalKey input modulus ↔ SignedMinimally input) ∧
    (SignedMinimally input → ∀ other, SignedMinimally other →
      Sequence.twoUnsignedIntegers other = Sequence.twoUnsignedIntegers input →
      other = input) := by
  obtain ⟨exponent, read⟩ := read_modulus_iff.mp accepted
  obtain ⟨left, right, isFirst, isSecond, ⟨body, pair, encoded⟩, unique⟩ := accepted_pair read
  rw [signed_minimally_iff pair encoded unique]
  refine ⟨⟨?_, ?_⟩, ?_⟩
  · rintro ⟨n, e, ⟨body', ⟨modulus', exponent', isN, isE, pair'⟩, encoded'⟩, _⟩
    obtain ⟨rfl, rfl⟩ := unique modulus' exponent' body' pair' encoded'
    exact ⟨(minimal_iff_clean.mp isN).1, (minimal_iff_clean.mp isE).1⟩
  · rintro ⟨cleanLeft, cleanRight⟩
    have key := rsa_public_key_clean cleanLeft cleanRight pair encoded
    have isModulus : modulus = unsigned (value left) := by
      rw [isFirst, without_sign_clean cleanLeft]
    refine ⟨value left, value right, key, fun again too => rsa_public_key_unique key too,
      isModulus, ?_⟩
    rw [isModulus]
    exact unsigned_leads (value left)
  · rintro ⟨cleanLeft, cleanRight⟩ other minimal same
    rw [read] at same
    obtain ⟨left', right', isFirst', isSecond', ⟨body', pair', encoded'⟩, unique'⟩ :=
      accepted_pair same
    obtain ⟨cleanLeft', cleanRight'⟩ :=
      (signed_minimally_iff pair' encoded' unique').mp minimal
    have sameN : value left' = value left := by
      rw [← value_without_sign left', ← isFirst', isFirst, value_without_sign]
    have sameE : value right' = value right := by
      rw [← value_without_sign right', ← isSecond', isSecond, value_without_sign]
    have key := rsa_public_key_clean cleanLeft cleanRight pair encoded
    have too := rsa_public_key_clean cleanLeft' cleanRight' pair' encoded'
    rw [sameN, sameE] at too
    exact rsa_public_key_unique key too

theorem signed_modulus_canonical :
    (CanonicalKey [0x30, 7, 2, 2, 0, 200, 2, 1, 3] [200] ↔
      SignedMinimally [0x30, 7, 2, 2, 0, 200, 2, 1, 3]) ∧
    (SignedMinimally [0x30, 7, 2, 2, 0, 200, 2, 1, 3] → ∀ other, SignedMinimally other →
      Sequence.twoUnsignedIntegers other =
        Sequence.twoUnsignedIntegers [0x30, 7, 2, 2, 0, 200, 2, 1, 3] →
      other = [0x30, 7, 2, 2, 0, 200, 2, 1, 3]) :=
  canonical_key_iff rfl

/-- Two zeros in front leave one in the modulus, and a negative modulus is read as the
number that has the same octets. -/
theorem needless_zero_accepted :
    (readRsaModulus [0x30, 8, 2, 3, 0, 0, 1, 2, 1, 3] = .ok [0, 1] ∧
      ¬CanonicalKey [0x30, 8, 2, 3, 0, 0, 1, 2, 1, 3] [0, 1]) ∧
    Sequence.twoUnsignedIntegers [0x30, 6, 2, 1, 200, 2, 1, 3] = .ok ([200], [3]) ∧
    Sequence.twoUnsignedIntegers [0x30, 7, 2, 2, 0, 200, 2, 1, 3] = .ok ([200], [3]) := by
  refine ⟨⟨rfl, ?_⟩, rfl, rfl⟩
  rintro ⟨_, _, _, _, _, leads⟩
  simp at leads

end OsClientCerts
