import Mathlib.Data.Nat.Log
import Mathlib.Algebra.Order.Ring.Int
import Mathlib.Tactic.Ring
import Mathlib.Tactic.Linarith

/-!
Natural numbers and integers as octets, the most significant first: of a fixed width, of
the least width, and in two's complement. The octets of a width and the numbers below the
power of 256 that belongs to it are in bijection, and the rest follows from that.
-/

namespace OsClientCerts.OctetStrings

def value : List UInt8 → Nat
  | [] => 0
  | octet :: rest => octet.toNat * 256 ^ rest.length + value rest

def fixed : Nat → Nat → List UInt8
  | 0, _ => []
  | width + 1, number => UInt8.ofNat (number / 256 ^ width) :: fixed width (number % 256 ^ width)

@[simp] theorem fixed_length (width number : Nat) : (fixed width number).length = width := by
  induction width generalizing number with
  | zero => rfl
  | succ width ih => simp [fixed, ih]

theorem value_lt (octets : List UInt8) : value octets < 256 ^ octets.length := by
  induction octets with
  | nil => simp [value]
  | cons octet rest ih =>
      have below : octet.toNat + 1 ≤ 256 := octet.toNat_lt
      calc value (octet :: rest)
          < octet.toNat * 256 ^ rest.length + 256 ^ rest.length := by
            rw [value]
            exact Nat.add_lt_add_left ih _
        _ = (octet.toNat + 1) * 256 ^ rest.length := by ring
        _ ≤ 256 * 256 ^ rest.length := Nat.mul_le_mul_right _ below
        _ = 256 ^ (octet :: rest).length := by rw [List.length_cons, pow_succ, mul_comm]

theorem value_fixed {width number : Nat} (fits : number < 256 ^ width) :
    value (fixed width number) = number := by
  induction width generalizing number with
  | zero =>
      rw [pow_zero] at fits
      rw [fixed, value]
      omega
  | succ width ih =>
      have positive : 0 < 256 ^ width := Nat.pow_pos (by decide)
      have top : number / 256 ^ width < 256 := by
        apply Nat.div_lt_of_lt_mul
        rwa [pow_succ] at fits
      have octet : (UInt8.ofNat (number / 256 ^ width)).toNat = number / 256 ^ width := by
        rw [UInt8.toNat_ofNat']
        exact Nat.mod_eq_of_lt top
      rw [fixed, value, fixed_length, octet, ih (Nat.mod_lt _ positive)]
      exact Nat.div_add_mod' number (256 ^ width)

theorem fixed_value (octets : List UInt8) : fixed octets.length (value octets) = octets := by
  induction octets with
  | nil => rfl
  | cons octet rest ih =>
      have below := value_lt rest
      have positive : 0 < 256 ^ rest.length := Nat.pow_pos (by decide)
      have top : (octet.toNat * 256 ^ rest.length + value rest) / 256 ^ rest.length =
          octet.toNat := by
        rw [Nat.mul_comm, Nat.mul_add_div positive, Nat.div_eq_of_lt below, Nat.add_zero]
      have low : (octet.toNat * 256 ^ rest.length + value rest) % 256 ^ rest.length =
          value rest := by
        rw [Nat.mul_comm, Nat.mul_add_mod, Nat.mod_eq_of_lt below]
      rw [List.length_cons, fixed, value, top, low, ih]
      simp

theorem value_inj {left right : List UInt8} (same : left.length = right.length)
    (equal : value left = value right) : left = right := by
  rw [← fixed_value left, same, equal, fixed_value]

@[simp] theorem value_zero_cons (octets : List UInt8) : value (0 :: octets) = value octets := by
  simp [value]

theorem value_padded (zeros : Nat) (octets : List UInt8) :
    value (List.replicate zeros 0 ++ octets) = value octets := by
  induction zeros with
  | zero => rfl
  | succ zeros ih => rw [List.replicate_succ, List.cons_append, value_zero_cons, ih]

theorem padded_fixed {width : Nat} {octets : List UInt8} (fits : octets.length ≤ width) :
    List.replicate (width - octets.length) 0 ++ octets = fixed width (value octets) := by
  -- Zeros in front make the octets of a number those of a larger width.
  have wide : (List.replicate (width - octets.length) 0 ++ octets).length = width := by
    rw [List.length_append, List.length_replicate]
    omega
  apply value_inj
  · rw [wide, fixed_length]
  · rw [value_padded, value_fixed]
    exact lt_of_lt_of_le (value_lt octets) (Nat.pow_le_pow_right (by decide) fits)

theorem value_head_le {octet : UInt8} {rest : List UInt8} :
    octet.toNat * 256 ^ rest.length ≤ value (octet :: rest) := Nat.le_add_right _ _

theorem value_lt_head {octet : UInt8} {rest : List UInt8} {bound : Nat}
    (below : octet.toNat < bound) : value (octet :: rest) < bound * 256 ^ rest.length := by
  have low := value_lt rest
  calc value (octet :: rest)
      < octet.toNat * 256 ^ rest.length + 256 ^ rest.length := Nat.add_lt_add_left low _
    _ = (octet.toNat + 1) * 256 ^ rest.length := by ring
    _ ≤ bound * 256 ^ rest.length := Nat.mul_le_mul_right _ below

def width (number : Nat) : Nat := if number = 0 then 0 else Nat.log 256 number + 1

theorem lt_pow_iff_width {number count : Nat} : number < 256 ^ count ↔ width number ≤ count := by
  unfold width
  split
  · rename_i zero
    simp [zero]
  · rename_i positive
    rw [← Nat.log_lt_iff_lt_pow (by decide) positive]
    exact Nat.lt_iff_add_one_le

theorem width_eq {number count : Nat} (large : 256 ^ count ≤ number)
    (fits : number < 256 ^ (count + 1)) : width number = count + 1 := by
  have least : ¬width number ≤ count := fun narrow =>
    absurd (lt_pow_iff_width.mpr narrow) (not_lt.mpr large)
  have most := lt_pow_iff_width.mp fits
  omega

def shortest (number : Nat) : List UInt8 := fixed (width number) number

@[simp] theorem value_shortest (number : Nat) : value (shortest number) = number :=
  value_fixed (lt_pow_iff_width.mpr le_rfl)

@[simp] theorem shortest_length (number : Nat) : (shortest number).length = width number :=
  fixed_length _ _

theorem width_value_le (octets : List UInt8) : width (value octets) ≤ octets.length :=
  lt_pow_iff_width.mp (value_lt octets)

/-- Octets that do not start with a zero are the shortest ones of their number. -/
theorem shortest_value {octets : List UInt8} (leads : octets.head? ≠ some 0) :
    shortest (value octets) = octets := by
  cases octets with
  | nil => rfl
  | cons octet rest =>
      have positive : 1 ≤ octet.toNat := by
        rw [Nat.one_le_iff_ne_zero]
        intro zero
        exact leads (congrArg some (UInt8.toNat_inj.mp zero))
      have large : 256 ^ rest.length ≤ value (octet :: rest) :=
        (Nat.le_mul_of_pos_left _ positive).trans value_head_le
      have wide : width (value (octet :: rest)) = (octet :: rest).length := by
        apply Nat.le_antisymm (width_value_le _)
        rw [List.length_cons, ← not_lt, Nat.lt_succ_iff, ← lt_pow_iff_width, not_lt]
        exact large
      rw [shortest, wide, fixed_value]

theorem shortest_leads (number : Nat) : (shortest number).head? ≠ some 0 := by
  intro zero
  obtain ⟨rest, whole⟩ : ∃ rest, shortest number = 0 :: rest := by
    cases octets : shortest number with
    | nil => simp [octets] at zero
    | cons octet rest =>
        rw [octets, List.head?_cons, Option.some.injEq] at zero
        exact ⟨rest, by rw [zero]⟩
  have number_rest : value rest = number := by
    rw [← value_zero_cons, ← whole, value_shortest]
  have short := width_value_le rest
  have long : (shortest number).length = rest.length + 1 := by rw [whole, List.length_cons]
  rw [number_rest] at short
  rw [shortest_length] at long
  omega

def unsigned (number : Nat) : List UInt8 := if number = 0 then [0] else shortest number

@[simp] theorem value_unsigned (number : Nat) : value (unsigned number) = number := by
  unfold unsigned
  split
  · rename_i zero
    simp [zero, value]
  · exact value_shortest number

theorem unsigned_leads (number : Nat) :
    unsigned number = [0] ∨ (unsigned number).head? ≠ some 0 := by
  unfold unsigned
  split
  · exact Or.inl rfl
  · exact Or.inr (shortest_leads number)

theorem unsigned_value {octets : List UInt8} (some_octet : octets ≠ [])
    (leads : octets = [0] ∨ octets.head? ≠ some 0) : unsigned (value octets) = octets := by
  rcases leads with rfl | leads
  · rfl
  · have positive : value octets ≠ 0 := by
      intro zero
      apply some_octet
      rw [← shortest_value leads, zero]
      rfl
    rw [unsigned, if_neg positive, shortest_value leads]

theorem unsigned_length_le {number count : Nat} (some_octet : 0 < count)
    (fits : number < 256 ^ count) : (unsigned number).length ≤ count := by
  unfold unsigned
  split
  · exact some_octet
  · rw [shortest_length]
    exact lt_pow_iff_width.mp fits

def twosComplement : List UInt8 → Int
  | [] => 0
  | octet :: rest =>
      if octet < 0x80 then value (octet :: rest)
      else value (octet :: rest) - 256 ^ (rest.length + 1)

def MinimalInteger (integer : Int) (octets : List UInt8) : Prop :=
  octets ≠ [] ∧ twosComplement octets = integer ∧
    ∀ other, other ≠ [] → twosComplement other = integer → octets.length ≤ other.length

/-- No sign bit, and a zero in front only where one would stand otherwise. -/
def Clean : List UInt8 → Prop
  | [] => False
  | [octet] => octet < 0x80
  | octet :: next :: _ => octet < 0x80 ∧ (octet = 0 → ¬next < 0x80)

instance : DecidablePred Clean
  | [] => inferInstanceAs (Decidable False)
  | [octet] => inferInstanceAs (Decidable (octet < 0x80))
  | octet :: next :: _ => inferInstanceAs (Decidable (octet < 0x80 ∧ (octet = 0 → ¬next < 0x80)))

theorem twos_eq_nat {octet : UInt8} {rest : List UInt8} {number : Nat} :
    twosComplement (octet :: rest) = number ↔
      octet < 0x80 ∧ value (octet :: rest) = number := by
  have below : (value (octet :: rest) : Int) < 256 ^ (rest.length + 1) :=
    mod_cast value_lt (octet :: rest)
  rw [twosComplement]
  split
  · rename_i low
    simp [low]
  · rename_i high
    constructor
    · intro negative
      omega
    · rintro ⟨low, _⟩
      exact absurd low high

theorem clean_positive {octet : UInt8} {rest : List UInt8} (clean : Clean (octet :: rest)) :
    octet < 0x80 := by
  cases rest with
  | nil => exact clean
  | cons next tail => exact clean.1

theorem clean_some {octets : List UInt8} (clean : Clean octets) : octets ≠ [] := by
  rintro rfl
  exact clean

theorem clean_least {octets rest : List UInt8} {octet : UInt8} (clean : Clean octets)
    (low : octet < 0x80) (same : value (octet :: rest) = value octets) :
    octets.length ≤ (octet :: rest).length := by
  -- Without a needless octet in front, no other octets of the number are fewer.
  cases octets with
  | nil => exact Nat.zero_le _
  | cons first others =>
      cases others with
      | nil => exact Nat.le_add_left 1 rest.length
      | cons next tail =>
          by_contra fewer
          simp only [List.length_cons, Nat.not_le] at fewer
          have small : value (octet :: rest) < 128 * 256 ^ tail.length :=
            (value_lt_head (UInt8.lt_iff_toNat_lt.mp low)).trans_le
              (Nat.mul_le_mul_left _ (Nat.pow_le_pow_right (by decide) (by omega)))
          apply absurd small
          rw [same, not_lt]
          by_cases zero : first = 0
          · have high : 128 ≤ next.toNat := by
              rw [← not_lt]
              exact fun below => clean.2 zero (UInt8.lt_iff_toNat_lt.mpr below)
            rw [zero, value_zero_cons]
            exact (Nat.mul_le_mul_right _ high).trans value_head_le
          · have positive : 1 ≤ first.toNat := by
              rw [Nat.one_le_iff_ne_zero]
              exact fun none => zero (UInt8.toNat_inj.mp none)
            calc 128 * 256 ^ tail.length
                ≤ 1 * 256 ^ (next :: tail).length := by
                  rw [List.length_cons, pow_succ]
                  omega
              _ ≤ first.toNat * 256 ^ (next :: tail).length := Nat.mul_le_mul_right _ positive
              _ ≤ value (first :: next :: tail) := value_head_le

theorem minimal_iff_clean {number : Nat} {octets : List UInt8} :
    MinimalInteger number octets ↔ Clean octets ∧ value octets = number := by
  -- For a number, minimal octets are those without sign bit and needless zero.
  constructor
  · rintro ⟨some_octet, stands, least⟩
    cases octets with
    | nil => exact absurd rfl some_octet
    | cons octet rest =>
        obtain ⟨low, number_octets⟩ := twos_eq_nat.mp stands
        refine ⟨?_, number_octets⟩
        cases rest with
        | nil => exact low
        | cons next tail =>
            refine ⟨low, fun zero lower => ?_⟩
            -- The zero could be left out.
            rw [zero, value_zero_cons] at number_octets
            have fewer := least (next :: tail) (by simp) (twos_eq_nat.mpr ⟨lower, number_octets⟩)
            simp at fewer
  · rintro ⟨clean, stands⟩
    refine ⟨clean_some clean, ?_, ?_⟩
    · cases octets with
      | nil => exact clean.elim
      | cons octet rest => exact twos_eq_nat.mpr ⟨clean_positive clean, stands⟩
    · intro other some_other stands_too
      cases other with
      | nil => exact absurd rfl some_other
      | cons octet rest =>
          obtain ⟨low, same⟩ := twos_eq_nat.mp stands_too
          exact clean_least clean low (same.trans stands.symm)

theorem minimal_unique {integer : Nat} {left right : List UInt8}
    (first : MinimalInteger integer left) (second : MinimalInteger integer right) :
    left = right := by
  apply value_inj
  · exact Nat.le_antisymm (first.2.2 right second.1 second.2.1) (second.2.2 left first.1 first.2.1)
  · rw [(minimal_iff_clean.mp first).2, (minimal_iff_clean.mp second).2]

def withoutSign : List UInt8 → List UInt8
  | octet :: next :: rest => if octet = 0 then next :: rest else octet :: next :: rest
  | octets => octets

@[simp] theorem value_without_sign (octets : List UInt8) :
    value (withoutSign octets) = value octets := by
  unfold withoutSign
  split
  · split
    · rename_i zero
      rw [zero, value_zero_cons]
    · rfl
  · rfl

theorem without_sign_some {octets : List UInt8} (some_octet : octets ≠ []) :
    withoutSign octets ≠ [] := by
  unfold withoutSign
  split
  · split <;> simp
  · exact some_octet

theorem without_sign_clean {octets : List UInt8} (clean : Clean octets) :
    withoutSign octets = unsigned (value octets) := by
  have leads : withoutSign octets = [0] ∨ (withoutSign octets).head? ≠ some 0 := by
    unfold withoutSign
    split
    · rename_i octet next rest
      split
      · rename_i zero
        right
        rw [List.head?_cons, ne_eq, Option.some.injEq]
        rintro rfl
        exact clean.2 zero (by decide)
      · rename_i nonzero
        right
        simpa using nonzero
    · rename_i single
      cases octets with
      | nil => exact clean.elim
      | cons octet rest =>
          cases rest with
          | nil =>
              by_cases zero : octet = 0
              · exact Or.inl (by rw [zero])
              · exact Or.inr (by simpa using zero)
          | cons next tail => exact absurd rfl (single octet next tail)
  rw [← value_without_sign octets]
  exact (unsigned_value (without_sign_some (clean_some clean)) leads).symm

inductive DefiniteLength (length : Nat) : List UInt8 → Prop where
  | short (below : length < 128) : DefiniteLength length [UInt8.ofNat length]
  | long (octets : List UInt8) (some_octet : octets ≠ []) (bounded : octets.length ≤ 126)
      (counts : value octets = length) :
      DefiniteLength length (UInt8.ofNat (128 + octets.length) :: octets)

def MinimalLength (length : Nat) (octets : List UInt8) : Prop :=
  DefiniteLength length octets ∧
    ∀ other, DefiniteLength length other → octets.length ≤ other.length

def shortestLength (length : Nat) : List UInt8 :=
  if length < 128 then [UInt8.ofNat length]
  else UInt8.ofNat (128 + width length) :: shortest length

theorem width_positive {number : Nat} (positive : number ≠ 0) : 0 < width number := by
  rw [width, if_neg positive]
  exact Nat.succ_pos _

theorem shortest_definite {length : Nat} (fits : width length ≤ 126) :
    DefiniteLength length (shortestLength length) := by
  unfold shortestLength
  split
  · rename_i below
    exact .short below
  · rename_i above
    have some_octet : shortest length ≠ [] := by
      have positive : 0 < width length := width_positive (by omega)
      rw [← shortest_length] at positive
      exact List.ne_nil_of_length_pos positive
    have long := DefiniteLength.long (shortest length) some_octet (by simpa using fits)
      (value_shortest length)
    rwa [shortest_length] at long

theorem minimal_length_iff {length : Nat} {octets : List UInt8} :
    MinimalLength length octets ↔ width length ≤ 126 ∧ octets = shortestLength length := by
  have least (other : List UInt8) (definite : DefiniteLength length other) :
      width length ≤ 126 ∧ (shortestLength length).length ≤ other.length ∧
        ((shortestLength length).length = other.length → other = shortestLength length) := by
    cases definite with
    | short below =>
        have one : width length ≤ 1 := lt_pow_iff_width.mp (by omega)
        refine ⟨by omega, ?_, fun _ => ?_⟩
        · simp [shortestLength, below]
        · simp [shortestLength, below]
    | long octets some_octet bounded counts =>
        have narrow : width length ≤ octets.length := counts ▸ width_value_le octets
        have positive := List.length_pos_iff.mpr some_octet
        refine ⟨by omega, ?_, ?_⟩
        · unfold shortestLength
          split
          · simp
          · simp only [List.length_cons, shortest_length]
            omega
        · unfold shortestLength
          split
          · simp only [List.length_cons, List.length_nil]
            omega
          · simp only [List.length_cons, shortest_length, Nat.add_right_cancel_iff]
            intro exactly
            have same : shortest length = octets := by
              rw [shortest, exactly, ← counts, fixed_value]
            rw [exactly, same]
  constructor
  · rintro ⟨definite, fewest⟩
    obtain ⟨fits, fewer, same⟩ := least octets definite
    exact ⟨fits, same (Nat.le_antisymm fewer (fewest _ (shortest_definite fits)))⟩
  · rintro ⟨fits, rfl⟩
    exact ⟨shortest_definite fits, fun other definite => (least other definite).2.1⟩

theorem minimal_length_exists {length : Nat} (fits : length < 256 ^ 126) :
    ∃! octets, MinimalLength length octets :=
  ⟨shortestLength length, minimal_length_iff.mpr ⟨lt_pow_iff_width.mp fits, rfl⟩,
    fun _ minimal => (minimal_length_iff.mp minimal).2⟩

def Item (tag : UInt8) (content octets : List UInt8) : Prop :=
  ∃ length, MinimalLength content.length length ∧ octets = tag :: (length ++ content)

theorem item_unique {tag : UInt8} {content left right : List UInt8} (first : Item tag content left)
    (second : Item tag content right) : left = right := by
  obtain ⟨length, minimal, rfl⟩ := first
  obtain ⟨other, too, rfl⟩ := second
  rw [(minimal_length_iff.mp minimal).2, (minimal_length_iff.mp too).2]

theorem width_le {number larger : Nat} (below : number ≤ larger) :
    width number ≤ width larger :=
  lt_pow_iff_width.mp (below.trans_lt (lt_pow_iff_width.mpr le_rfl))

theorem shortest_length_le {length longer : Nat} (below : length ≤ longer) :
    (shortestLength length).length ≤ (shortestLength longer).length := by
  have narrower := width_le below
  unfold shortestLength
  split
  · split <;> simp
  · rw [if_neg (by omega)]
    simpa using narrower

theorem item_content_unique {tag : UInt8} {left right octets : List UInt8}
    (first : Item tag left octets) (second : Item tag right octets) : left = right := by
  -- An item has one content, since longer contents have no shorter lengths.
  obtain ⟨length, minimal, rfl⟩ := first
  obtain ⟨other, too, whole⟩ := second
  rw [(minimal_length_iff.mp minimal).2, (minimal_length_iff.mp too).2] at whole
  simp only [List.cons.injEq, true_and] at whole
  have total := congrArg List.length whole
  simp only [List.length_append] at total
  have same : left.length = right.length := by
    rcases Nat.le_total left.length right.length with below | above
    · have shorter := shortest_length_le below
      omega
    · have longer := shortest_length_le above
      omega
  rw [same] at whole
  exact List.append_cancel_left whole

end OsClientCerts.OctetStrings
