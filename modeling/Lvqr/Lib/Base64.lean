import Mathlib.Data.List.Nodup

set_option autoImplicit false

-- Bytes in the 64 digits of an alphabet, three bytes to four digits.
namespace Base64

def urlSafe : List Char := "ABCDEFGHIJKLMNOPQRSTUVWXYZabcdefghijklmnopqrstuvwxyz0123456789-_".toList

def digit (alphabet : List Char) (value : Nat) : Char := alphabet.getD value '='

def value (alphabet : List Char) (char : Char) : Option Nat :=
  if char ∈ alphabet then some (alphabet.idxOf char) else none

-- `pad` stands for each byte that the last group is short of.
def encode (alphabet pad : List Char) : List UInt8 → List Char
  | [] => []
  | [first] => digit alphabet (first.toNat / 4) :: digit alphabet (first.toNat % 4 * 16) :: (pad ++ pad)
  | [first, second] =>
      digit alphabet (first.toNat / 4) :: digit alphabet (first.toNat % 4 * 16 + second.toNat / 16) ::
        digit alphabet (second.toNat % 16 * 4) :: pad
  | first :: second :: third :: rest =>
      digit alphabet (first.toNat / 4) :: digit alphabet (first.toNat % 4 * 16 + second.toNat / 16) ::
        digit alphabet (second.toNat % 16 * 4 + third.toNat / 64) :: digit alphabet (third.toNat % 64) ::
          encode alphabet pad rest

-- Text without padding; bits that no byte takes up must be zero.
def decode (alphabet : List Char) : List Char → Option (List UInt8)
  | [] => some []
  | [_] => none
  | [a, b] => do
      let x ← value alphabet a
      let y ← value alphabet b
      if y % 16 = 0 then some [UInt8.ofNat (x * 4 + y / 16)] else none
  | [a, b, c] => do
      let x ← value alphabet a
      let y ← value alphabet b
      let z ← value alphabet c
      if z % 4 = 0 then some [UInt8.ofNat (x * 4 + y / 16), UInt8.ofNat (y % 16 * 16 + z / 4)] else none
  | a :: b :: c :: d :: rest => do
      let x ← value alphabet a
      let y ← value alphabet b
      let z ← value alphabet c
      let w ← value alphabet d
      let bytes ← decode alphabet rest
      some (UInt8.ofNat (x * 4 + y / 16) :: UInt8.ofNat (y % 16 * 16 + z / 4) :: UInt8.ofNat (z % 4 * 64 + w) :: bytes)

structure IsAlphabet (alphabet : List Char) : Prop where
  size : alphabet.length = 64
  distinct : alphabet.Nodup

theorem url_safe_alphabet : IsAlphabet urlSafe where
  size := rfl
  distinct := by
    have codes : urlSafe.map Char.toNat = List.range' 65 26 ++ List.range' 97 26 ++ List.range' 48 10 ++ [45, 95] := by decide
    refine .of_map Char.toNat ?_
    rw [codes]
    decide +kernel

variable {alphabet : List Char}

theorem value_digit (isAlphabet : IsAlphabet alphabet) (number : Nat) (small : number < 64) :
    value alphabet (digit alphabet number) = some number := by
  have inside : number < alphabet.length := by rwa [isAlphabet.size]
  have isDigit : digit alphabet number = alphabet[number] := by
    rw [digit, List.getD_eq_getElem?_getD, List.getElem?_eq_getElem inside, Option.getD_some]
  rw [value, isDigit, if_pos (List.getElem_mem inside), isAlphabet.distinct.idxOf_getElem number inside]

theorem byte_of_value (byte : UInt8) (number : Nat) (same : number = byte.toNat) : UInt8.ofNat number = byte := by
  rw [same, UInt8.ofNat_toNat]

theorem decode_encode (isAlphabet : IsAlphabet alphabet) (bytes : List UInt8) :
    decode alphabet (encode alphabet [] bytes) = some bytes := by
  have read := value_digit isAlphabet
  induction bytes using encode.induct with
  | case1 => rfl
  | case2 first =>
      have small := first.toNat_lt
      simp only [encode, decode, List.append_nil]
      rw [read _ (by omega), read _ (by omega)]
      simp only [Option.bind_eq_bind, Option.bind_some]
      rw [if_pos (by omega), byte_of_value first _ (by omega)]
  | case3 first second =>
      have smallFirst := first.toNat_lt
      have smallSecond := second.toNat_lt
      simp only [encode, decode]
      rw [read _ (by omega), read _ (by omega), read _ (by omega)]
      simp only [Option.bind_eq_bind, Option.bind_some]
      rw [if_pos (by omega), byte_of_value first _ (by omega), byte_of_value second _ (by omega)]
  | case4 first second third rest ih =>
      have smallFirst := first.toNat_lt
      have smallSecond := second.toNat_lt
      have smallThird := third.toNat_lt
      simp only [encode, decode]
      rw [read _ (by omega), read _ (by omega), read _ (by omega), read _ (by omega), ih]
      simp only [Option.bind_eq_bind, Option.bind_some]
      rw [byte_of_value first _ (by omega), byte_of_value second _ (by omega), byte_of_value third _ (by omega)]

end Base64
