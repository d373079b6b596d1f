import Mathlib.Data.Nat.ModEq
import Mathlib.Data.List.Lex

set_option autoImplicit false

-- Numbers as big-endian bytes of a fixed width.
namespace BigEndian

def bytes : Nat → Nat → List UInt8
  | 0, _ => []
  | width + 1, value => UInt8.ofNat (value / 256 ^ width) :: bytes width value

def value : List UInt8 → Nat
  | [] => 0
  | byte :: rest => byte.toNat * 256 ^ rest.length + value rest

theorem bytes_succ (width number : Nat) :
    bytes (width + 1) number = UInt8.ofNat (number / 256 ^ width) :: bytes width number := rfl

theorem value_cons (byte : UInt8) (rest : List UInt8) :
    value (byte :: rest) = byte.toNat * 256 ^ rest.length + value rest := rfl

@[simp] theorem bytes_length (width number : Nat) : (bytes width number).length = width := by
  induction width with
  | zero => rfl
  | succ width ih => rw [bytes_succ, List.length_cons, ih]

theorem value_bytes_mod (width number : Nat) : value (bytes width number) = number % 256 ^ width := by
  induction width with
  | zero => exact (Nat.mod_one number).symm
  | succ width ih =>
      have byte : (UInt8.ofNat (number / 256 ^ width)).toNat = number / 256 ^ width % 256 := by
        rw [UInt8.toNat_ofNat']
      rw [bytes_succ, value_cons, byte, bytes_length, ih, pow_succ, Nat.mod_mul, mul_comm, add_comm]

theorem value_bytes (width number : Nat) (fits : number < 256 ^ width) : value (bytes width number) = number := by
  rw [value_bytes_mod, Nat.mod_eq_of_lt fits]

theorem value_lt (bytes : List UInt8) : value bytes < 256 ^ bytes.length := by
  induction bytes with
  | nil => exact Nat.one_pos
  | cons byte rest ih =>
      have high : byte.toNat * 256 ^ rest.length ≤ 255 * 256 ^ rest.length :=
        Nat.mul_le_mul_right _ (Nat.le_of_lt_succ byte.toNat_lt)
      rw [value_cons, List.length_cons, pow_succ]
      omega

-- What stands above the width does not show.
theorem bytes_add_mul (width high number : Nat) : bytes width (high * 256 ^ width + number) = bytes width number := by
  induction width generalizing high with
  | zero => rfl
  | succ width ih =>
      have split : high * 256 ^ (width + 1) + number = high * 256 * 256 ^ width + number := by
        rw [pow_succ, mul_comm (256 ^ width) 256, mul_assoc]
      have byte : UInt8.ofNat (high * 256 + number / 256 ^ width) = UInt8.ofNat (number / 256 ^ width) := by
        rw [← UInt8.toNat_inj, UInt8.toNat_ofNat', UInt8.toNat_ofNat']
        omega
      rw [bytes_succ, bytes_succ, split, ih, Nat.mul_comm (high * 256), Nat.mul_add_div (Nat.pow_pos (by decide)), byte]

theorem bytes_value (bytes : List UInt8) : BigEndian.bytes bytes.length (value bytes) = bytes := by
  induction bytes with
  | nil => rfl
  | cons byte rest ih =>
      have top : (byte.toNat * 256 ^ rest.length + value rest) / 256 ^ rest.length = byte.toNat := by
        rw [Nat.mul_comm, Nat.mul_add_div (Nat.pow_pos (by decide)), Nat.div_eq_of_lt (value_lt rest), Nat.add_zero]
      rw [List.length_cons, bytes_succ, value_cons, top, bytes_add_mul, ih, UInt8.ofNat_toNat]

end BigEndian

-- Byte strings in the order of an ordered store: byte by byte, a prefix first.
namespace ByteOrder

def rank (bytes : List UInt8) : List Nat := bytes.map UInt8.toNat

theorem rank_injective : Function.Injective rank := by
  intro first second same
  exact List.map_injective_iff.mpr (fun _ _ equal => UInt8.toNat_inj.mp equal) same

theorem rank_append_lt (front first second : List UInt8) :
    rank (front ++ first) < rank (front ++ second) ↔ rank first < rank second := by
  induction front with
  | nil => exact Iff.rfl
  | cons byte front ih =>
      rw [rank, rank, List.cons_append, List.cons_append, List.map_cons, List.map_cons, List.cons_lt_cons_iff]
      refine ⟨fun less => ?_, fun less => .inr ⟨rfl, ih.mpr less⟩⟩
      exact ih.mp (less.resolve_left (Nat.lt_irrefl _)).2

-- Between two strings with a common front stand only strings with that front.
theorem between_prefixed (front low high bytes : List UInt8) (above : rank (front ++ low) ≤ rank bytes)
    (below : rank bytes ≤ rank (front ++ high)) : ∃ rest, bytes = front ++ rest := by
  induction front generalizing bytes with
  | nil => exact ⟨bytes, rfl⟩
  | cons byte front ih =>
      cases bytes with
      | nil => exact absurd above (not_le.mpr (List.nil_lt_cons _ _))
      | cons other bytes =>
          have above' : rank (byte :: (front ++ low)) ≤ rank (other :: bytes) := above
          have below' : rank (other :: bytes) ≤ rank (byte :: (front ++ high)) := below
          rw [← not_lt, rank, rank, List.map_cons, List.map_cons, List.cons_lt_cons_iff, not_or, not_and, not_lt] at above' below'
          have same : byte.toNat = other.toNat := Nat.le_antisymm above'.1 below'.1
          obtain ⟨rest, rfl⟩ := ih bytes (not_lt.mp (above'.2 same.symm)) (not_lt.mp (below'.2 same))
          exact ⟨rest, by rw [UInt8.toNat_inj.mp same, List.cons_append]⟩

theorem rank_big_endian_lt (width first second : Nat) (fits : first < 256 ^ width) (fitsToo : second < 256 ^ width) :
    rank (BigEndian.bytes width first) < rank (BigEndian.bytes width second) ↔ first < second := by
  induction width generalizing first second with
  | zero =>
      have isZero : first = 0 := Nat.lt_one_iff.mp fits
      have isZeroToo : second = 0 := Nat.lt_one_iff.mp fitsToo
      rw [isZero, isZeroToo]
      exact iff_of_false (lt_irrefl _) (Nat.lt_irrefl 0)
  | succ width ih =>
      have positive : 0 < 256 ^ width := Nat.pow_pos (by decide)
      have top : ∀ number, number < 256 ^ (width + 1) →
          rank (BigEndian.bytes (width + 1) number) =
            number / 256 ^ width :: rank (BigEndian.bytes width (number % 256 ^ width)) := by
        intro number fits
        have high : number / 256 ^ width < 256 := Nat.div_lt_of_lt_mul (by rw [← pow_succ]; exact fits)
        have low : BigEndian.bytes width number = BigEndian.bytes width (number % 256 ^ width) := by
          conv_lhs => rw [← Nat.div_add_mod number (256 ^ width), Nat.mul_comm, BigEndian.bytes_add_mul]
        rw [BigEndian.bytes, low, rank, List.map_cons, UInt8.toNat_ofNat', Nat.mod_eq_of_lt high]
        rfl
      rw [top first fits, top second fitsToo, List.cons_lt_cons_iff,
        ih _ _ (Nat.mod_lt _ positive) (Nat.mod_lt _ positive)]
      have splitFirst := Nat.div_add_mod first (256 ^ width)
      have splitSecond := Nat.div_add_mod second (256 ^ width)
      have smallFirst := Nat.mod_lt first positive
      have smallSecond := Nat.mod_lt second positive
      constructor
      · rintro (less | ⟨same, less⟩)
        · have scaled : 256 ^ width * (first / 256 ^ width + 1) ≤ 256 ^ width * (second / 256 ^ width) :=
            Nat.mul_le_mul_left _ less
          rw [Nat.mul_add, Nat.mul_one] at scaled
          omega
        · rw [same] at splitFirst
          omega
      · intro less
        have quotients : first / 256 ^ width ≤ second / 256 ^ width := Nat.div_le_div_right (Nat.le_of_lt less)
        cases Nat.lt_or_eq_of_le quotients with
        | inl smaller => exact .inl smaller
        | inr same =>
            refine .inr ⟨same, ?_⟩
            rw [same] at splitFirst
            omega

end ByteOrder
