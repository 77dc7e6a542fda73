import OsClientCerts.DerReader

/-!
A sequence of two integers and nothing else, as public keys and signatures are encoded:
what reading one accepts, and what it makes of the contents of the integers.
-/

namespace OsClientCerts
open OctetStrings

def sequenceTag : UInt8 := derSequence ||| derConstructed

def Sequence.twoUnsignedIntegers (input : Bytes) : Except Unit (Bytes × Bytes) := do
  let contents ← Sequence.new input
  let (first, rest) ← Sequence.readUnsignedInteger contents
  let (second, rest) ← Sequence.readUnsignedInteger rest
  if rest ≠ [] then .error () else .ok (first, second)

theorem read_rsa_modulus_eq (publicKey : Bytes) :
    readRsaModulus publicKey = (Sequence.twoUnsignedIntegers publicKey).map Prod.fst := by
  unfold readRsaModulus Sequence.twoUnsignedIntegers
  cases Sequence.new publicKey with
  | error failure => rfl
  | ok contents =>
      change (Sequence.readUnsignedInteger contents >>= _) =
        (Sequence.readUnsignedInteger contents >>= _ : Except Unit (Bytes × Bytes)).map Prod.fst
      cases Sequence.readUnsignedInteger contents with
      | error failure => rfl
      | ok first =>
          change (Sequence.readUnsignedInteger first.2 >>= _) =
            (Sequence.readUnsignedInteger first.2 >>= _ : Except Unit (Bytes × Bytes)).map Prod.fst
          cases Sequence.readUnsignedInteger first.2 with
          | error failure => rfl
          | ok second =>
              by_cases ends : second.2 = []
              · simp [ends, bind, Except.bind, Except.map]
              · simp [ends, bind, Except.bind, Except.map]

namespace Sequence

theorem new_iff {input content : Bytes} :
    new input = .ok content ↔ content.length < 65536 ∧ Item sequenceTag content input := by
  constructor
  · intro done
    obtain ⟨⟨taken, rest⟩, first, done⟩ := bind_ok done
    dsimp only at done
    split at done
    · cases done
    · rename_i ends
      cases done
      rw [ne_eq, Classical.not_not] at ends
      obtain ⟨short, item, encoded, rfl⟩ := Der.read_iff_item.mp first
      rw [ends, List.append_nil]
      exact ⟨short, encoded⟩
  · rintro ⟨short, encoded⟩
    change (Der.read input sequenceTag >>= _) = _
    rw [Der.read_whole short encoded]
    rfl

theorem read_unsigned_eq (contents : Bytes) :
    readUnsignedInteger contents = (Der.read contents derInteger >>= fun (bytes, rest) =>
      if bytes = [] then .error () else .ok (withoutSign bytes, rest)) := by
  unfold readUnsignedInteger
  cases Der.read contents derInteger with
  | error failure => rfl
  | ok taken =>
      obtain ⟨bytes, rest⟩ := taken
      cases bytes with
      | nil => rfl
      | cons byte others =>
          cases others with
          | nil => rfl
          | cons next tail => rfl

theorem read_unsigned_item {content item rest : Bytes} (short : content.length < 65536)
    (some_octet : content ≠ []) (encoded : Item derInteger content item) :
    readUnsignedInteger (item ++ rest) = .ok (withoutSign content, rest) := by
  rw [read_unsigned_eq, Der.read_item short encoded]
  simp [some_octet, bind, Except.bind]

theorem read_unsigned_iff {input bytes rest : Bytes} :
    readUnsignedInteger input = .ok (bytes, rest) ↔
      ∃ content item, content ≠ [] ∧ content.length < 65536 ∧ Item derInteger content item ∧
        input = item ++ rest ∧ bytes = withoutSign content := by
  constructor
  · intro done
    rw [read_unsigned_eq] at done
    obtain ⟨⟨content, left⟩, first, done⟩ := bind_ok done
    dsimp only at done
    split at done
    · cases done
    · rename_i some_octet
      cases done
      obtain ⟨short, item, encoded, whole⟩ := Der.read_iff_item.mp first
      exact ⟨content, item, some_octet, short, encoded, whole, rfl⟩
  · rintro ⟨content, item, some_octet, short, encoded, rfl, rfl⟩
    exact read_unsigned_item short some_octet encoded

end Sequence

/-- Two integers with these contents, one after the other. -/
def PairBody (left right body : Bytes) : Prop :=
  ∃ first second, Item derInteger left first ∧ Item derInteger right second ∧
    body = first ++ second

theorem item_longer {tag : UInt8} {content item : Bytes} (encoded : Item tag content item) :
    content.length < item.length := by
  obtain ⟨length, _, rfl⟩ := encoded
  rw [List.length_cons, List.length_append]
  omega

theorem pair_short {left right body : Bytes} (pair : PairBody left right body)
    (short : body.length < 65536) : left.length < 65536 ∧ right.length < 65536 := by
  obtain ⟨first, second, encoded, too, rfl⟩ := pair
  have longer := item_longer encoded
  have longer_too := item_longer too
  rw [List.length_append] at short
  omega

theorem pair_unique {left right left' right' body inner : Bytes}
    (short : (body ++ inner).length < 65536) (pair : PairBody left right body)
    (other : PairBody left' right' (body ++ inner)) :
    left = left' ∧ right = right' ∧ inner = [] := by
  have shorter : body.length < 65536 := by
    rw [List.length_append] at short
    omega
  obtain ⟨shortLeft, shortRight⟩ := pair_short pair shorter
  obtain ⟨shortLeft', shortRight'⟩ := pair_short other short
  obtain ⟨first, second, encoded, too, rfl⟩ := pair
  obtain ⟨first', second', encoded', too', whole⟩ := other
  have read : Der.read (first ++ (second ++ inner)) derInteger = .ok (left, second ++ inner) :=
    Der.read_item shortLeft encoded
  rw [← List.append_assoc, whole, Der.read_item shortLeft' encoded'] at read
  cases read
  have last := Der.read_whole shortRight' too'
  rw [Der.read_item shortRight too] at last
  cases last
  exact ⟨rfl, rfl, rfl⟩

theorem two_integers_iff {input first second : Bytes} :
    Sequence.twoUnsignedIntegers input = .ok (first, second) ↔
      ∃ left right body, left ≠ [] ∧ right ≠ [] ∧ PairBody left right body ∧
        body.length < 65536 ∧ Item sequenceTag body input ∧
        first = withoutSign left ∧ second = withoutSign right := by
  constructor
  · intro done
    obtain ⟨contents, sequence, done⟩ := bind_ok done
    obtain ⟨⟨bytes, rest⟩, one, done⟩ := bind_ok done
    obtain ⟨⟨others, last⟩, two, done⟩ := bind_ok done
    dsimp only at done two
    split at done
    · cases done
    · rename_i ends
      cases done
      rw [ne_eq, Classical.not_not] at ends
      obtain ⟨short, encoded⟩ := Sequence.new_iff.mp sequence
      obtain ⟨left, item, some_left, _, isLeft, rfl, rfl⟩ := Sequence.read_unsigned_iff.mp one
      obtain ⟨right, other, some_right, _, isRight, rfl, rfl⟩ :=
        Sequence.read_unsigned_iff.mp two
      subst ends
      rw [List.append_nil] at short encoded
      exact ⟨left, right, _, some_left, some_right, ⟨item, other, isLeft, isRight, rfl⟩, short,
        encoded, rfl, rfl⟩
  · rintro ⟨left, right, body, some_left, some_right, pair, short, encoded, rfl, rfl⟩
    obtain ⟨shortLeft, shortRight⟩ := pair_short pair short
    obtain ⟨item, other, isLeft, isRight, rfl⟩ := pair
    have readRight : Sequence.readUnsignedInteger (other ++ []) = .ok (withoutSign right, []) :=
      Sequence.read_unsigned_item shortRight some_right isRight
    rw [List.append_nil] at readRight
    rw [Sequence.twoUnsignedIntegers, Sequence.new_iff.mpr ⟨short, encoded⟩]
    change (Sequence.readUnsignedInteger (item ++ other) >>= _) = _
    rw [Sequence.read_unsigned_item shortLeft some_left isLeft]
    change (Sequence.readUnsignedInteger other >>= _) = _
    rw [readRight]
    rfl

/-- Of a sequence that starts with two integers, they are what is read, and nothing may
stand beside them. -/
theorem two_integers_exact {left right body inner outer item first second : Bytes}
    (pair : PairBody left right body) (encoded : Item sequenceTag (body ++ inner) item)
    (accepted : Sequence.twoUnsignedIntegers (item ++ outer) = .ok (first, second)) :
    inner = [] ∧ outer = [] ∧ first = withoutSign left ∧ second = withoutSign right := by
  obtain ⟨left', right', whole, _, _, pair', short, encoded', rfl, rfl⟩ :=
    two_integers_iff.mp accepted
  have read := Der.read_whole short encoded'
  by_cases shortToo : (body ++ inner).length < 65536
  · rw [Der.read_item shortToo encoded] at read
    cases read
    obtain ⟨rfl, rfl, none⟩ := pair_unique shortToo pair pair'
    exact ⟨none, rfl, rfl, rfl⟩
  · rw [Der.read_item_long (Nat.le_of_not_lt shortToo) encoded] at read
    cases read

theorem two_integers_extended {body front tail : Bytes} (short : body.length < 65536)
    (encoded : Item sequenceTag body (front ++ tail)) (some_tail : tail ≠ []) :
    Sequence.twoUnsignedIntegers front = .error () := by
  -- What is cut off an encoding leaves nothing that is accepted.
  cases done : Sequence.twoUnsignedIntegers front with
  | error failure => rfl
  | ok pair =>
      obtain ⟨_, _, part, _, _, _, shortPart, encodedPart, _⟩ := two_integers_iff.mp done
      have whole := Der.read_whole short encoded
      rw [Der.read_item shortPart encodedPart] at whole
      cases whole
      exact absurd rfl some_tail

end OsClientCerts
