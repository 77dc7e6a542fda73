import OsClientCerts.Pkcs11

/-!
The DER reader of the utilities. One item is read from the front of a slice; what
it accepts is exactly the minimal encoding of a content of less than 64 KiB, and
nothing of the slice is lost.
-/

namespace OsClientCerts

def tryReadBytes (data : Bytes) (len : Nat) : Except Unit (Bytes × Bytes) :=
  if data.length < len then .error () else .ok (data.take len, data.drop len)

def derInteger : UInt8 := 0x02
def derSequence : UInt8 := 0x10
def derConstructed : UInt8 := 0x20

namespace Der

def readLength (contents : Bytes) : Except Unit (Nat × Bytes) :=
  match contents with
  | [] => .error ()
  | length1 :: rest =>
      if length1 < 0x80 then .ok (length1.toNat, rest)
      else if length1 = 0x81 then
        match rest with
        | length :: rest => if length < 0x80 then .error () else .ok (length.toNat, rest)
        | [] => .error ()
      else if length1 = 0x82 then
        match rest with
        | high :: low :: rest =>
            let length := 256 * high.toNat + low.toNat
            if length < 256 then .error () else .ok (length, rest)
        | _ => .error ()
      else .error ()

/-- `Der::read`: the content of one item, and the slice after it. -/
def read (contents : Bytes) (tag : UInt8) : Except Unit (Bytes × Bytes) := do
  let (tagRead, rest) ← tryReadBytes contents 1
  if tagRead ≠ [tag] then .error ()
  else
    let (length, toReadFrom) ← readLength rest
    tryReadBytes toReadFrom length

end Der

namespace Sequence

def new (input : Bytes) : Except Unit Bytes := do
  let (sequenceBytes, rest) ← Der.read input (derSequence ||| derConstructed)
  if rest ≠ [] then .error () else .ok sequenceBytes

def readUnsignedInteger (contents : Bytes) : Except Unit (Bytes × Bytes) := do
  let (bytes, rest) ← Der.read contents derInteger
  match bytes with
  | [] => .error ()
  | [byte] => .ok ([byte], rest)
  -- There may be a leading zero.
  | byte :: others => .ok (if byte = 0 then others else byte :: others, rest)

end Sequence

def readRsaModulus (publicKey : Bytes) : Except Unit Bytes := do
  let contents ← Sequence.new publicKey
  let (modulusValue, rest) ← Sequence.readUnsignedInteger contents
  let (_, rest) ← Sequence.readUnsignedInteger rest
  if rest ≠ [] then .error () else .ok modulusValue

namespace Der

def lengthOctets (length : Nat) : Bytes :=
  if length < 128 then [UInt8.ofNat length]
  else if length < 256 then [0x81, UInt8.ofNat length]
  else [0x82, UInt8.ofNat (length / 256), UInt8.ofNat (length % 256)]

def encode (tag : UInt8) (content : Bytes) : Bytes :=
  tag :: lengthOctets content.length ++ content

theorem try_read_ok {data first rest : Bytes} {len : Nat} :
    tryReadBytes data len = .ok (first, rest) ↔ data = first ++ rest ∧ first.length = len := by
  unfold tryReadBytes
  constructor
  · intro done
    split at done
    · cases done
    · rename_i enough
      cases done
      exact ⟨(List.take_append_drop len data).symm, by simp; omega⟩
  · rintro ⟨rfl, rfl⟩
    simp

theorem read_length_encoded {length : Nat} (short : length < 65536) (rest : Bytes) :
    readLength (lengthOctets length ++ rest) = .ok (length, rest) := by
  unfold lengthOctets
  split
  · rename_i below
    have octet : (UInt8.ofNat length).toNat = length := by
      rw [UInt8.toNat_ofNat']
      omega
    have small : UInt8.ofNat length < 0x80 := by
      rw [UInt8.lt_iff_toNat_lt, octet]
      exact below
    simp [readLength, small, octet]
  · split
    · rename_i large below
      have octet : (UInt8.ofNat length).toNat = length := by
        rw [UInt8.toNat_ofNat']
        omega
      have notSmall : ¬UInt8.ofNat length < 0x80 := by
        rw [UInt8.lt_iff_toNat_lt, octet]
        exact large
      simp [readLength, notSmall, octet]
    · rename_i large
      have high : (UInt8.ofNat (length / 256)).toNat = length / 256 := by
        rw [UInt8.toNat_ofNat']
        omega
      have low : (UInt8.ofNat (length % 256)).toNat = length % 256 := by
        rw [UInt8.toNat_ofNat']
        omega
      have whole : 256 * (length / 256) + length % 256 = length := Nat.div_add_mod length 256
      simp [readLength, high, low, whole, large]

theorem read_length_ok {contents rest : Bytes} {length : Nat}
    (done : readLength contents = .ok (length, rest)) :
    length < 65536 ∧ contents = lengthOctets length ++ rest := by
  unfold readLength at done
  split at done
  · cases done
  rename_i length1 tail
  split at done
  · rename_i small
    cases done
    have below : length1.toNat < 128 := UInt8.lt_iff_toNat_lt.mp small
    exact ⟨by omega, by simp [lengthOctets, below]⟩
  split at done
  · rename_i one
    split at done
    · rename_i second others
      split at done
      · cases done
      · rename_i large
        cases done
        have above : ¬second.toNat < 128 := fun below => large (UInt8.lt_iff_toNat_lt.mpr below)
        have byte := second.toNat_lt
        exact ⟨by omega, by simp [lengthOctets, above, byte, one]⟩
    · cases done
  split at done
  · rename_i two
    split at done
    · rename_i high low others
      dsimp only at done
      split at done
      · cases done
      · rename_i large
        cases done
        have first := high.toNat_lt
        have second := low.toNat_lt
        refine ⟨by omega, ?_⟩
        have upper : (256 * high.toNat + low.toNat) / 256 = high.toNat := by omega
        have lower : (256 * high.toNat + low.toNat) % 256 = low.toNat := by omega
        have notShort : ¬256 * high.toNat + low.toNat < 128 := by omega
        rw [lengthOctets, if_neg notShort, if_neg large, upper, lower, two]
        simp
    · cases done
  · cases done

theorem read_sound {contents content rest : Bytes} {tag : UInt8}
    (done : read contents tag = .ok (content, rest)) :
    content.length < 65536 ∧ contents = encode tag content ++ rest := by
  obtain ⟨⟨tagRead, tail⟩, first, done⟩ := bind_ok done
  dsimp only at done
  split at done
  · cases done
  · rename_i tagged
    rw [ne_eq, Classical.not_not] at tagged
    obtain ⟨⟨length, toReadFrom⟩, counted, done⟩ := bind_ok done
    obtain ⟨short, octets⟩ := read_length_ok counted
    obtain ⟨split, exactly⟩ : toReadFrom = content ++ rest ∧ content.length = length :=
      try_read_ok.mp done
    obtain ⟨whole, _⟩ := try_read_ok.mp first
    subst exactly
    refine ⟨short, ?_⟩
    rw [whole, tagged, octets, split]
    simp [encode]

theorem read_complete {content : Bytes} (short : content.length < 65536) (tag : UInt8)
    (rest : Bytes) : read (encode tag content ++ rest) tag = .ok (content, rest) := by
  have first : tryReadBytes (encode tag content ++ rest) 1 =
      .ok ([tag], lengthOctets content.length ++ (content ++ rest)) :=
    try_read_ok.mpr ⟨by simp [encode], rfl⟩
  have last : tryReadBytes (content ++ rest) content.length = .ok (content, rest) :=
    try_read_ok.mpr ⟨rfl, rfl⟩
  simp [read, first, bind, Except.bind, read_length_encoded short, last]

/-- The reader accepts the encoding of a content that two length bytes can count, and
nothing else. -/
theorem read_ok_iff {contents content rest : Bytes} {tag : UInt8} :
    read contents tag = .ok (content, rest) ↔
      content.length < 65536 ∧ contents = encode tag content ++ rest := by
  constructor
  · exact read_sound
  · rintro ⟨short, rfl⟩
    exact read_complete short tag rest

end Der
end OsClientCerts
