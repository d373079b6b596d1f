import Mathlib.Data.Nat.Bitwise

set_option autoImplicit false

-- Fields packed into numbers: shifting, masking and combining are division,
-- remainder and sum as long as the fields do not overlap.
namespace Bits

theorem shift_or_eq_add (high low width : Nat) (fits : low < 2 ^ width) :
    high <<< width ||| low = high * 2 ^ width + low := by
  rw [← Nat.shiftLeft_add_eq_or_of_lt fits, Nat.shiftLeft_eq]

theorem mask_eq_mod (value width : Nat) : value &&& 2 ^ width - 1 = value % 2 ^ width :=
  Nat.and_two_pow_sub_one_eq_mod value width

theorem flag_ne_zero_iff (value bit : Nat) : value &&& 2 ^ bit ≠ 0 ↔ value / 2 ^ bit % 2 = 1 := by
  rw [Nat.and_two_pow, Nat.testBit_eq_decide_div_mod_eq]
  by_cases set : value / 2 ^ bit % 2 = 1
  · simp [set]
  · simp [set]

theorem byte_value (value : Nat) (small : value < 256) : (UInt8.ofNat value).toNat = value := by
  rw [UInt8.toNat_ofNat', Nat.mod_eq_of_lt small]

theorem bool_value_lt (flag : Bool) : flag.toNat < 2 := Bool.toNat_lt flag

theorem forall_byte (P : UInt8 → Prop) (all : ∀ i : Fin 256, P (UInt8.ofNat i)) (byte : UInt8) : P byte := by
  have here := all ⟨byte.toNat, byte.toNat_lt⟩
  rwa [UInt8.ofNat_toNat] at here

end Bits
