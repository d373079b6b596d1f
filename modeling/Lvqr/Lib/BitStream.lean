import Lvqr.Lib.BigEndian
import Mathlib.Data.Nat.Bitwise
import Mathlib.Tactic.IntervalCases
import Mathlib.Tactic.Ring

set_option autoImplicit false

-- Bytes as a stream of bits, the most significant bit of each byte first; numbers
-- as bits of a fixed width and as exponential Golomb codes.
namespace BitStream

def byteBits (byte : UInt8) : List Bool := [7, 6, 5, 4, 3, 2, 1, 0].map byte.toNat.testBit

def bits (bytes : List UInt8) : List Bool := bytes.flatMap byteBits

def value (bits : List Bool) : Nat := bits.foldl (fun number bit => number * 2 + bit.toNat) 0

def fixed : Nat → Nat → List Bool
  | 0, _ => []
  | width + 1, number => number.testBit width :: fixed width number

theorem fixed_zero (number : Nat) : fixed 0 number = [] := rfl

theorem fixed_succ (width number : Nat) : fixed (width + 1) number = number.testBit width :: fixed width number := rfl

-- As many zeros as bits that follow the leading one of the number's successor.
def golomb (number : Nat) : List Bool :=
  let width := Nat.log2 (number + 1)
  List.replicate width false ++ true :: fixed width (number + 1)

-- The signed numbers in the order of their codes: 0, 1, -1, 2, -2 and so on.
def signed (number : Nat) : Int := if number % 2 = 1 then ((number + 1) / 2 : Nat) else -((number / 2 : Nat) : Int)

@[simp] theorem byte_bits_length (byte : UInt8) : (byteBits byte).length = 8 := rfl

@[simp] theorem bits_nil : bits [] = [] := rfl

@[simp] theorem bits_cons (byte : UInt8) (bytes : List UInt8) : bits (byte :: bytes) = byteBits byte ++ bits bytes := rfl

theorem bits_append (front back : List UInt8) : bits (front ++ back) = bits front ++ bits back := List.flatMap_append

@[simp] theorem bits_length (bytes : List UInt8) : (bits bytes).length = bytes.length * 8 := by
  induction bytes with
  | nil => rfl
  | cons byte bytes ih =>
      rw [bits_cons, List.length_append, byte_bits_length, ih, List.length_cons]
      omega

theorem bits_getElem? (bytes : List UInt8) (index : Nat) (inside : index < bytes.length * 8) :
    (bits bytes)[index]? = some ((bytes.getD (index / 8) 0).toNat.testBit (7 - index % 8)) := by
  induction bytes generalizing index with
  | nil => simp at inside
  | cons byte bytes ih =>
      rw [bits_cons]
      by_cases here : index < 8
      · rw [List.getElem?_append_left here, Nat.div_eq_of_lt here, Nat.mod_eq_of_lt here]
        interval_cases index <;> rfl
      · obtain ⟨before, rfl⟩ := Nat.exists_eq_add_of_le' (Nat.le_of_not_lt here)
        have within : before < bytes.length * 8 := by
          rw [List.length_cons] at inside
          omega
        rw [List.getElem?_append_right (by simp), byte_bits_length, Nat.add_sub_cancel, ih before within,
          Nat.add_div_right before (by decide), Nat.add_mod_right, List.getD_cons_succ]

theorem value_foldl (bits : List Bool) (start : Nat) :
    bits.foldl (fun number bit => number * 2 + bit.toNat) start = start * 2 ^ bits.length + value bits := by
  induction bits generalizing start with
  | nil => simp [value]
  | cons bit bits ih =>
      have front : value (bit :: bits) = bit.toNat * 2 ^ bits.length + value bits := by
        rw [value, List.foldl_cons, ih, Nat.zero_mul, Nat.zero_add]
      rw [List.foldl_cons, ih, front, List.length_cons, Nat.pow_succ]
      ring

theorem value_cons (bit : Bool) (bits : List Bool) :
    value (bit :: bits) = bit.toNat * 2 ^ bits.length + value bits := by
  rw [value, List.foldl_cons, value_foldl, Nat.zero_mul, Nat.zero_add]

theorem value_append (front rest : List Bool) : value (front ++ rest) = value front * 2 ^ rest.length + value rest := by
  rw [value, List.foldl_append, value_foldl]
  rfl

theorem value_lt (bits : List Bool) : value bits < 2 ^ bits.length := by
  induction bits with
  | nil => exact Nat.one_pos
  | cons bit bits ih =>
      have high : bit.toNat * 2 ^ bits.length ≤ 1 * 2 ^ bits.length := Nat.mul_le_mul_right _ bit.toNat_le
      rw [value_cons, List.length_cons, Nat.pow_succ]
      omega

-- A bit of the number, counted from the end of the stream.
theorem value_bit (bits : List Bool) (i : Nat) (inside : i < bits.length) :
    (value bits).testBit i = bits.getD (bits.length - 1 - i) false := by
  induction bits with
  | nil => cases inside
  | cons bit bits ih =>
      rw [value_cons, Nat.mul_comm, Nat.testBit_two_pow_mul_add bit.toNat (value_lt bits), List.length_cons]
      rw [List.length_cons] at inside
      split
      · rename_i low
        have below : bits.length + 1 - 1 - i = bits.length - 1 - i + 1 := by omega
        rw [ih low, below, List.getD_cons_succ]
      · have highest : i = bits.length := by omega
        rw [highest, Nat.sub_self, Nat.add_sub_cancel, Nat.sub_self, List.getD_cons_zero]
        cases bit
        · rfl
        · rfl

@[simp] theorem fixed_length (width number : Nat) : (fixed width number).length = width := by
  induction width with
  | zero => rfl
  | succ width ih => rw [fixed_succ, List.length_cons, ih]

-- A field is that of its high bits and that of its low bits.
theorem fixed_append (high low number : Nat) :
    fixed (high + low) number = fixed high (number / 2 ^ low) ++ fixed low number := by
  induction high with
  | zero => rw [Nat.zero_add, fixed_zero, List.nil_append]
  | succ high ih => rw [Nat.add_right_comm, fixed_succ, ih, fixed_succ, Nat.testBit_div_two_pow, List.cons_append]

theorem value_fixed_mod (width number : Nat) : value (fixed width number) = number % 2 ^ width := by
  induction width with
  | zero => exact (Nat.mod_one number).symm
  | succ width ih =>
      rw [fixed_succ, value_cons, fixed_length, ih, Nat.pow_succ, Nat.mod_mul, Nat.testBit_eq_decide_div_mod_eq]
      rcases Nat.mod_two_eq_zero_or_one (number / 2 ^ width) with even | odd
      · simp [even]
      · simp [odd, Nat.add_comm]

theorem value_fixed (width number : Nat) (fits : number < 2 ^ width) : value (fixed width number) = number := by
  rw [value_fixed_mod, Nat.mod_eq_of_lt fits]

theorem value_byte_bits (byte : UInt8) : value (byteBits byte) = byte.toNat := value_fixed 8 byte.toNat byte.toNat_lt

theorem value_bits (bytes : List UInt8) : value (bits bytes) = BigEndian.value bytes := by
  induction bytes with
  | nil => rfl
  | cons byte bytes ih =>
      rw [bits_cons, value_append, value_byte_bits, ih, bits_length, BigEndian.value_cons, Nat.mul_comm bytes.length 8, Nat.pow_mul]

end BitStream
