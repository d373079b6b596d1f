import Mathlib.Data.Rat.Floor
import Mathlib.Tactic.Positivity

set_option autoImplicit false

-- Finite nonnegative binary floats as the rationals they denote. An operation
-- is the exact rational one followed by one rounding to the significand width.
namespace Decimal

def roundHalfEven (value : ℚ) : ℕ :=
  let below := ⌊value⌋.toNat
  let rest := value - below
  if 1 / 2 < rest ∨ (rest = 1 / 2 ∧ below % 2 = 1) then below + 1 else below

def leadingBit (value : ℚ) : ℤ :=
  let guess : ℤ := (Nat.log2 value.num.toNat : ℤ) - (Nat.log2 value.den : ℤ)
  if (2 : ℚ) ^ guess ≤ value then guess else guess - 1

def roundBits (width : ℕ) (value : ℚ) : ℚ :=
  if value ≤ 0 then 0
  else
    let ulp : ℚ := (2 : ℚ) ^ (leadingBit value - (width - 1 : ℤ))
    roundHalfEven (value / ulp) * ulp

def f32 (value : ℚ) : ℚ := roundBits 24 value

def f64 (value : ℚ) : ℚ := roundBits 53 value

def padLeft (width : ℕ) (value : ℕ) : String :=
  let digits := toString value
  String.ofList (List.replicate (width - digits.length) '0') ++ digits

def fixed (decimals : ℕ) (value : ℚ) : String :=
  let scaled := roundHalfEven (value * 10 ^ decimals)
  toString (scaled / 10 ^ decimals) ++ "." ++ padLeft decimals (scaled % 10 ^ decimals)

example : fixed 3 (f32 (1 / 10) * 2) = "0.200" := by decide +kernel

theorem round_half_even_nat (n : ℕ) : roundHalfEven n = n := by
  simp [roundHalfEven]

theorem leading_bit_nat (n : ℕ) (positive : 0 < n) : leadingBit n = Nat.log2 n := by
  have below : (2 : ℚ) ^ Nat.log2 n ≤ n := by exact_mod_cast Nat.log2_self_le (by omega)
  have one : Nat.log2 1 = 0 := by decide
  simp [leadingBit, one, below]

-- A whole number that fits into the significand is its own rounding.
theorem round_bits_nat (width n : ℕ) (fits : n < 2 ^ width) : roundBits width n = n := by
  cases Nat.eq_zero_or_pos n with
  | inl zero => simp [roundBits, zero]
  | inr positive =>
      have bit : Nat.log2 n + 1 ≤ width := (Nat.log2_lt (by omega)).mpr fits
      let spare := width - 1 - Nat.log2 n
      have ulp : (2 : ℚ) ^ (leadingBit n - (width - 1 : ℤ)) = (2 ^ spare)⁻¹ := by
        have exponent : leadingBit n - (width - 1 : ℤ) = -(spare : ℤ) := by
          rw [leading_bit_nat n positive]
          omega
        rw [exponent, zpow_neg, zpow_natCast]
      have scaled : (n : ℚ) / (2 ^ spare)⁻¹ = (n * 2 ^ spare : ℕ) := by
        rw [div_inv_eq_mul]
        push_cast
        rfl
      have nonzero : (2 : ℚ) ^ spare ≠ 0 := by positivity
      rw [roundBits, if_neg (by simpa using Nat.pos_iff_ne_zero.mp positive), ulp]
      dsimp only
      rw [scaled, round_half_even_nat]
      push_cast
      rw [mul_assoc, mul_inv_cancel₀ nonzero, mul_one]

-- A whole number rounds to a whole number.
theorem round_bits_whole (width n : ℕ) : ∃ rounded : ℕ, roundBits width n = rounded := by
  by_cases fits : n < 2 ^ width
  · exact ⟨n, round_bits_nat width n fits⟩
  · have positive : 0 < n := Nat.lt_of_lt_of_le (Nat.two_pow_pos width) (Nat.le_of_not_lt fits)
    have bit : width ≤ Nat.log2 n := (Nat.le_log2 (by omega)).mpr (Nat.le_of_not_lt fits)
    have ulp : (2 : ℚ) ^ (leadingBit n - (width - 1 : ℤ)) = 2 ^ (Nat.log2 n + 1 - width) := by
      have exponent : leadingBit n - (width - 1 : ℤ) = ((Nat.log2 n + 1 - width : ℕ) : ℤ) := by
        rw [leading_bit_nat n positive]
        omega
      rw [exponent, zpow_natCast]
    refine ⟨roundHalfEven ((n : ℚ) / 2 ^ (Nat.log2 n + 1 - width)) * 2 ^ (Nat.log2 n + 1 - width), ?_⟩
    rw [roundBits, if_neg (by simpa using Nat.pos_iff_ne_zero.mp positive), ulp]
    push_cast
    rfl

theorem pad_left_value (width n : ℕ) : Nat.ofDigitChars 10 (padLeft width n).toList 0 = n := by
  rw [padLeft, String.toList_append, String.toList_ofList, Nat.ofDigitChars_append,
    Nat.ofDigitChars_replicate_zero, Nat.mul_zero, Nat.toString_eq_repr, Nat.toList_repr, Nat.ofDigitChars_ten_toDigits]

theorem pad_left_digits (width n : ℕ) (char : Char) (member : char ∈ (padLeft width n).toList) : char.isDigit = true := by
  rw [padLeft, String.toList_append, String.toList_ofList] at member
  cases List.mem_append.mp member with
  | inl zero =>
      rw [List.eq_of_mem_replicate zero]
      decide
  | inr digit =>
      rw [Nat.toString_eq_repr, Nat.toList_repr] at digit
      exact Nat.isDigit_of_mem_toDigits (by decide) (by decide) digit

theorem f64_whole (n : ℕ) : ∃ rounded : ℕ, f64 n = rounded := round_bits_whole 53 n

theorem fixed_whole (decimals n : ℕ) : fixed decimals n = toString n ++ "." ++ padLeft decimals 0 := by
  have scaled : ((n : ℚ) * 10 ^ decimals) = (n * 10 ^ decimals : ℕ) := by push_cast; rfl
  rw [fixed, scaled, round_half_even_nat, Nat.mul_div_cancel _ (Nat.pow_pos (by decide)), Nat.mul_mod_left]

theorem f32_nat (n : ℕ) (fits : n < 2 ^ 24) : f32 n = n := round_bits_nat 24 n fits

theorem f64_nat (n : ℕ) (fits : n < 2 ^ 53) : f64 n = n := round_bits_nat 53 n fits

end Decimal
