import Mathlib.Algebra.Group.Nat.Defs
import Mathlib.Data.List.Basic

/-!
Octets as groups of six bits, three octets to four of them, and back. A group has a letter,
and the bits stay in their order.
-/

namespace OsClientCerts.Base64

/-- The values of six bits that spell the octets; the last one is filled up with zeros. -/
def sextets : List Nat → List Nat
  | first :: second :: third :: rest =>
      first >>> 2 :: ((first &&& 3) <<< 4 ||| second >>> 4) ::
        ((second &&& 15) <<< 2 ||| third >>> 6) :: (third &&& 63) :: sextets rest
  | [first, second] =>
      [first >>> 2, (first &&& 3) <<< 4 ||| second >>> 4, (second &&& 15) <<< 2 ||| 0 >>> 6]
  | [first] => [first >>> 2, (first &&& 3) <<< 4 ||| 0 >>> 4]
  | [] => []

/-- The octets, unless a value is left over; bits that do not fill an octet are dropped. -/
def octets : List Nat → Option (List Nat)
  | first :: second :: third :: fourth :: rest =>
      (octets rest).map fun later =>
        (first <<< 2 ||| second >>> 4) :: ((second &&& 15) <<< 4 ||| third >>> 2) ::
          ((third &&& 3) <<< 6 ||| fourth) :: later
  | [first, second, third] =>
      some [first <<< 2 ||| second >>> 4, (second &&& 15) <<< 4 ||| third >>> 2]
  | [first, second] => some [first <<< 2 ||| second >>> 4]
  | [_] => none
  | [] => some []

def letter (value : Nat) : Char :=
  if value < 26 then Char.ofNat ('A'.toNat + value)
  else if value < 52 then Char.ofNat ('a'.toNat + (value - 26))
  else if value < 62 then Char.ofNat ('0'.toNat + (value - 52))
  else if value = 62 then '+' else '/'

section Groups
variable {first second third : Nat}

theorem join_bits {high low : Nat} (width : Nat) (small : low < 1 <<< width) :
    high <<< width ||| low = high * 1 <<< width + low := by
  rw [Nat.one_shiftLeft] at *
  rw [← Nat.shiftLeft_add_eq_or_of_lt small, Nat.shiftLeft_eq]

theorem low_two (value : Nat) : value &&& 3 = value % 4 := Nat.and_two_pow_sub_one_eq_mod value 2

theorem low_four (value : Nat) : value &&& 15 = value % 16 :=
  Nat.and_two_pow_sub_one_eq_mod value 4

theorem low_six (value : Nat) : value &&& 63 = value % 64 :=
  Nat.and_two_pow_sub_one_eq_mod value 6

theorem second_value (small : second < 256) :
    (first &&& 3) <<< 4 ||| second >>> 4 = first % 4 * 16 + second / 16 := by
  have low : second >>> 4 = second / 16 := Nat.shiftRight_eq_div_pow second 4
  rw [low_two, low]
  exact join_bits 4 (show second / 16 < 16 by omega)

theorem third_value (small : third < 256) :
    (second &&& 15) <<< 2 ||| third >>> 6 = second % 16 * 4 + third / 64 := by
  have low : third >>> 6 = third / 64 := Nat.shiftRight_eq_div_pow third 6
  rw [low_four, low]
  exact join_bits 2 (show third / 64 < 4 by omega)

theorem first_octet (small : second < 256) :
    first >>> 2 <<< 2 ||| ((first &&& 3) <<< 4 ||| second >>> 4) >>> 4 = first := by
  have low : (first % 4 * 16 + second / 16) >>> 4 = (first % 4 * 16 + second / 16) / 16 :=
    Nat.shiftRight_eq_div_pow _ 4
  have high : first >>> 2 = first / 4 := Nat.shiftRight_eq_div_pow first 2
  have joined := @join_bits (first / 4) ((first % 4 * 16 + second / 16) / 16) 2
    (show _ < 4 by omega)
  rw [second_value small, low, high, joined]
  change first / 4 * 4 + _ = _
  omega

theorem second_octet (small : second < 256) (last : third < 256) :
    (((first &&& 3) <<< 4 ||| second >>> 4) &&& 15) <<< 4 |||
      ((second &&& 15) <<< 2 ||| third >>> 6) >>> 2 = second := by
  have low : (second % 16 * 4 + third / 64) >>> 2 = (second % 16 * 4 + third / 64) / 4 :=
    Nat.shiftRight_eq_div_pow _ 2
  have joined := @join_bits ((first % 4 * 16 + second / 16) % 16)
    ((second % 16 * 4 + third / 64) / 4) 4 (show _ < 16 by omega)
  rw [second_value small, third_value last, low, low_four, joined]
  change (first % 4 * 16 + second / 16) % 16 * 16 + _ = _
  omega

theorem third_octet (small : third < 256) :
    (((second &&& 15) <<< 2 ||| third >>> 6) &&& 3) <<< 6 ||| (third &&& 63) = third := by
  have joined := @join_bits ((second % 16 * 4 + third / 64) % 4) (third % 64) 6
    (show _ < 64 by omega)
  rw [third_value small, low_two, low_six, joined]
  change (second % 16 * 4 + third / 64) % 4 * 64 + _ = _
  omega

end Groups

theorem octets_sextets {bytes : List Nat} (small : ∀ byte ∈ bytes, byte < 256) :
    octets (sextets bytes) = some bytes := by
  induction bytes using sextets.induct with
  | case1 first second third rest ih =>
      simp only [List.forall_mem_cons] at small
      obtain ⟨-, two, three, below⟩ := small
      rw [sextets, octets, ih below, first_octet two, second_octet two three, third_octet three]
      rfl
  | case2 first second =>
      simp only [List.forall_mem_cons] at small
      have none : 0 < 256 := by decide
      rw [sextets, octets, first_octet small.2.1, second_octet small.2.1 none]
  | case3 first =>
      have none : 0 < 256 := by decide
      rw [sextets, octets, first_octet none]
  | case4 => rfl

theorem sextets_small {bytes : List Nat} (small : ∀ byte ∈ bytes, byte < 256) :
    ∀ value ∈ sextets bytes, value < 64 := by
  have quarter {value : Nat} (byte : value < 256) : value >>> 2 < 64 := by
    rw [Nat.shiftRight_eq_div_pow]
    omega
  induction bytes using sextets.induct with
  | case1 first second third rest ih =>
      simp only [List.forall_mem_cons] at small
      obtain ⟨one, two, three, below⟩ := small
      simp only [sextets, List.forall_mem_cons, second_value two, third_value three, low_six]
      exact ⟨quarter one, by omega, by omega, by omega, ih below⟩
  | case2 first second =>
      simp only [List.forall_mem_cons] at small
      have none : 0 < 256 := by decide
      simp only [sextets, List.forall_mem_cons, second_value small.2.1, third_value none]
      exact ⟨quarter small.1, by omega, by omega, fun _ absent => absurd absent List.not_mem_nil⟩
  | case3 first =>
      simp only [List.forall_mem_cons] at small
      have none : 0 < 256 := by decide
      simp only [sextets, List.forall_mem_cons, second_value none]
      exact ⟨quarter small.1, by omega, fun _ absent => absurd absent List.not_mem_nil⟩
  | case4 => exact fun _ absent => absurd absent List.not_mem_nil

def bits : Nat → Nat → List Bool
  | 0, _ => []
  | width + 1, number => number.testBit width :: bits width number

theorem bits_low {low count width : Nat} (high : Nat) (small : low < 2 ^ count)
    (fewer : width ≤ count) : bits width (high * 2 ^ count + low) = bits width low := by
  induction width with
  | zero => rfl
  | succ width ih =>
      have here : (high * 2 ^ count + low).testBit width = low.testBit width := by
        rw [Nat.mul_comm, Nat.testBit_two_pow_mul_add high small,
          if_pos (Nat.lt_of_succ_le fewer)]
      rw [bits, bits, here, ih (Nat.le_of_succ_le fewer)]

theorem bits_join {low count : Nat} (width high : Nat) (small : low < 2 ^ count) :
    bits (width + count) (high * 2 ^ count + low) = bits width high ++ bits count low := by
  induction width with
  | zero => rw [Nat.zero_add, bits_low high small (Nat.le_refl count), bits, List.nil_append]
  | succ width ih =>
      have top : (high * 2 ^ count + low).testBit (width + count) = high.testBit width := by
        rw [Nat.mul_comm, Nat.testBit_two_pow_mul_add high small, if_neg (by omega),
          Nat.add_sub_cancel]
      rw [Nat.add_right_comm, bits, top, ih, bits, List.cons_append]

theorem bits_split (width count number : Nat) : bits (width + count) number =
    bits width (number / 2 ^ count) ++ bits count (number % 2 ^ count) := by
  rw [← bits_join width _ (Nat.mod_lt _ (Nat.two_pow_pos count)), Nat.div_add_mod']

section Groups
variable {first second third : Nat}

theorem first_bits : bits 8 first = bits 6 (first >>> 2) ++ bits 2 (first % 4) := by
  rw [Nat.shiftRight_eq_div_pow]
  exact bits_split 6 2 first

theorem second_bits (small : second < 256) :
    bits 6 ((first &&& 3) <<< 4 ||| second >>> 4) = bits 2 (first % 4) ++ bits 4 (second / 16) := by
  rw [second_value small]
  exact @bits_join (second / 16) 4 2 (first % 4) (show second / 16 < 16 by omega)

theorem third_bits (small : third < 256) :
    bits 6 ((second &&& 15) <<< 2 ||| third >>> 6) =
      bits 4 (second % 16) ++ bits 2 (third / 64) := by
  rw [third_value small]
  exact @bits_join (third / 64) 2 4 (second % 16) (show third / 64 < 4 by omega)

theorem middle_bits : bits 8 second = bits 4 (second / 16) ++ bits 4 (second % 16) :=
  bits_split 4 4 second

theorem last_bits : bits 8 third = bits 2 (third / 64) ++ bits 6 (third &&& 63) := by
  rw [low_six]
  exact bits_split 2 6 third

end Groups

theorem sextets_bits {bytes : List Nat} (small : ∀ byte ∈ bytes, byte < 256) :
    (sextets bytes).flatMap (bits 6) = bytes.flatMap (bits 8) ++
      List.replicate (2 * ((3 - bytes.length % 3) % 3)) false := by
  -- The values have the bits of the octets, and zeros where the last value goes on.
  have none : 0 < 256 := by decide
  induction bytes using sextets.induct with
  | case1 first second third rest ih =>
      simp only [List.forall_mem_cons] at small
      obtain ⟨-, two, three, below⟩ := small
      have length : (first :: second :: third :: rest).length % 3 = rest.length % 3 :=
        Nat.add_mod_right rest.length 3
      simp only [sextets, List.flatMap_cons, ih below, length, second_bits two, third_bits three,
        @first_bits first, @middle_bits second, @last_bits third, List.append_assoc]
  | case2 first second =>
      simp only [List.forall_mem_cons] at small
      simp only [sextets, List.flatMap_cons, List.flatMap_nil, second_bits small.2.1,
        third_bits none, @first_bits first, @middle_bits second, List.append_assoc]
      rfl
  | case3 first =>
      simp only [sextets, List.flatMap_cons, List.flatMap_nil, second_bits none, first_bits,
        List.append_assoc]
      rfl
  | case4 => rfl

end OsClientCerts.Base64
