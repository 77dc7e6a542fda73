import OsClientCerts.Der
import OsClientCerts.OctetStrings

/-!
The DER reader as a cursor: the contents still to be read are assigned only where an item
was read, and the items are those with a minimal length of at most two further octets.
-/

namespace OsClientCerts
open OctetStrings

/-- What a method of `Der` does to the contents. An assignment made before an early return
would stay. -/
abbrev DerCursor := ExceptT Unit (StateM Bytes)

namespace DerCursor

def attempt {α : Type} (step : Except Unit α) : DerCursor α := ExceptT.mk (pure step)

def read (tag : UInt8) : DerCursor Bytes := do
  let contents ← get
  let (tagRead, rest) ← attempt (tryReadBytes contents 1)
  if tagRead ≠ [tag] then throw ()
  let (length, toReadFrom) ← attempt (Der.readLength rest)
  let (contents, rest) ← attempt (tryReadBytes toReadFrom length)
  set rest
  return contents

def outcome {α : Type} (method : DerCursor α) (contents : Bytes) : Except Unit α × Bytes :=
  method.run.run contents

def moved (contents : Bytes) : Except Unit (Bytes × Bytes) → Except Unit Bytes × Bytes
  | .ok (content, rest) => (.ok content, rest)
  | .error failure => (.error failure, contents)

theorem attempt_outcome {α β : Type} (step : Except Unit α) (next : α → DerCursor β)
    (contents : Bytes) : outcome (attempt step >>= next) contents =
      match step with
      | .ok made => outcome (next made) contents
      | .error failure => (.error failure, contents) := by
  cases step <;> rfl

theorem get_outcome {β : Type} (next : Bytes → DerCursor β) (contents : Bytes) :
    outcome (get >>= next) contents = outcome (next contents) contents := rfl

theorem read_outcome (tag : UInt8) (contents : Bytes) :
    outcome (read tag) contents = moved contents (Der.read contents tag) := by
  -- The cursor moves past what was read, and only then.
  unfold read Der.read
  rw [get_outcome, attempt_outcome]
  cases tryReadBytes contents 1 with
  | error failure => rfl
  | ok first =>
      obtain ⟨tagRead, rest⟩ := first
      by_cases tagged : tagRead = [tag]
      · subst tagged
        change _ = moved contents (if [tag] ≠ [tag] then Except.error () else
          Der.readLength rest >>= fun counted => tryReadBytes counted.2 counted.1)
        rw [if_neg (fun other => other rfl)]
        simp only [ne_eq, not_true_eq_false, if_false]
        rw [attempt_outcome]
        cases Der.readLength rest with
        | error failure => rfl
        | ok counted =>
            change outcome (attempt (tryReadBytes counted.2 counted.1) >>= _) contents =
              moved contents (tryReadBytes counted.2 counted.1)
            rw [attempt_outcome]
            cases tryReadBytes counted.2 counted.1 <;> rfl
      · change _ = moved contents (if tagRead ≠ [tag] then Except.error () else _)
        rw [if_pos tagged]
        simp only [tagged, ne_eq, not_false_eq_true, if_true]
        rfl

end DerCursor

namespace Der

theorem length_octets_shortest {length : Nat} (short : length < 65536) :
    lengthOctets length = shortestLength length := by
  unfold lengthOctets shortestLength
  split
  · rfl
  · split
    · rename_i above below
      have one : width length = 1 := width_eq (by omega) below
      simp [shortest, one, fixed]
    · rename_i above
      have two : width length = 2 := width_eq (by omega) short
      simp [shortest, two, fixed]

theorem short_width {length : Nat} (short : length < 65536) : width length ≤ 2 :=
  lt_pow_iff_width.mp short

theorem encode_item {content : Bytes} (short : content.length < 65536) (tag : UInt8) :
    Item tag content (encode tag content) :=
  ⟨lengthOctets content.length,
    minimal_length_iff.mpr ⟨by have := short_width short; omega, length_octets_shortest short⟩,
    rfl⟩

theorem read_item {content item rest : Bytes} {tag : UInt8} (short : content.length < 65536)
    (encoded : Item tag content item) : read (item ++ rest) tag = .ok (content, rest) := by
  rw [item_unique encoded (encode_item short tag)]
  exact read_complete short tag rest

theorem read_whole {content item : Bytes} {tag : UInt8} (short : content.length < 65536)
    (encoded : Item tag content item) : read item tag = .ok (content, []) := by
  rw [← List.append_nil item]
  exact read_item short encoded

theorem length_octets_first (length : Nat) :
    ∃ octet rest, lengthOctets length = octet :: rest ∧ octet.toNat ≤ 130 := by
  unfold lengthOctets
  split
  · rename_i below
    refine ⟨_, _, rfl, ?_⟩
    rw [UInt8.toNat_ofNat']
    omega
  · split
    · exact ⟨_, _, rfl, by decide⟩
    · exact ⟨_, _, rfl, by decide⟩

theorem read_item_long {content item rest : Bytes} {tag : UInt8} (long : 65536 ≤ content.length)
    (encoded : Item tag content item) : read (item ++ rest) tag = .error () := by
  -- A content that two length octets cannot count is refused.
  obtain ⟨length, minimal, rfl⟩ := encoded
  obtain ⟨fits, rfl⟩ := minimal_length_iff.mp minimal
  have wide : 2 < width content.length := by
    rw [← not_le, ← lt_pow_iff_width]
    omega
  cases done : read (tag :: (shortestLength content.length ++ content) ++ rest) tag with
  | error failure => rfl
  | ok taken =>
      obtain ⟨_, whole⟩ := read_sound done
      obtain ⟨octet, others, octets, first⟩ := length_octets_first taken.1.length
      rw [encode, octets, shortestLength, if_neg (by omega)] at whole
      simp only [List.cons_append, List.cons.injEq, true_and] at whole
      rw [← whole.1, UInt8.toNat_ofNat'] at first
      omega

theorem read_iff_item {input content rest : Bytes} {tag : UInt8} :
    read input tag = .ok (content, rest) ↔
      content.length < 65536 ∧ ∃ item, Item tag content item ∧ input = item ++ rest := by
  constructor
  · intro done
    obtain ⟨short, whole⟩ := read_sound done
    exact ⟨short, _, encode_item short tag, whole⟩
  · rintro ⟨short, item, encoded, rfl⟩
    exact read_item short encoded

end Der

/-- The reader takes a tag, the minimal length of a content below 64 KiB and the content off
the front, and stays where it is in every other case; so it undoes the encoding, and what
it read encodes to what it took. -/
theorem der_read_exact (tag : UInt8) (input : Bytes) :
    (∀ content rest, DerCursor.outcome (DerCursor.read tag) input = (.ok content, rest) ↔
      content.length < 65536 ∧ (∃! length, MinimalLength content.length length) ∧
        ∃ length, MinimalLength content.length length ∧
          input = tag :: (length ++ (content ++ rest))) ∧
    (∀ failure rest, DerCursor.outcome (DerCursor.read tag) input = (.error failure, rest) →
      rest = input) ∧
    (∀ content rest item, content.length < 65536 → Item tag content item →
      DerCursor.outcome (DerCursor.read tag) (item ++ rest) = (.ok content, rest)) ∧
    ∀ content rest item, DerCursor.outcome (DerCursor.read tag) input = (.ok content, rest) →
      Item tag content item → input = item ++ rest := by
  have succeeds (contents content rest : Bytes) :
      DerCursor.outcome (DerCursor.read tag) contents = (.ok content, rest) ↔
        Der.read contents tag = .ok (content, rest) := by
    rw [DerCursor.read_outcome]
    cases Der.read contents tag with
    | error failure => simp [DerCursor.moved]
    | ok taken => simp [DerCursor.moved, Prod.ext_iff]
  refine ⟨?_, ?_, ?_, ?_⟩
  · intro content rest
    rw [succeeds, Der.read_iff_item]
    apply and_congr_right
    intro short
    have unique : ∃! length, MinimalLength content.length length :=
      minimal_length_exists (short.trans (by decide))
    constructor
    · rintro ⟨item, ⟨length, minimal, rfl⟩, rfl⟩
      exact ⟨unique, length, minimal, by simp⟩
    · rintro ⟨_, length, minimal, rfl⟩
      exact ⟨_, ⟨length, minimal, rfl⟩, by simp⟩
  · intro failure rest stays
    rw [DerCursor.read_outcome] at stays
    cases done : Der.read input tag with
    | error reason =>
        rw [done] at stays
        exact (congrArg Prod.snd stays).symm
    | ok taken =>
        rw [done] at stays
        cases congrArg Prod.fst stays
  · intro content rest item short encoded
    exact (succeeds _ _ _).mpr (Der.read_item short encoded)
  · intro content rest item done encoded
    obtain ⟨_, other, too, rfl⟩ := Der.read_iff_item.mp ((succeeds _ _ _).mp done)
    rw [item_unique encoded too]

end OsClientCerts
