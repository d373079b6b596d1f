import Mathlib.Data.List.Basic

set_option autoImplicit false

-- UTF-8 over byte lists: characters one at a time, so that what decodes can be
-- read off the list.
namespace Utf8

def encode (text : List Char) : List UInt8 := text.flatMap String.utf8EncodeChar

@[simp] theorem encode_nil : encode [] = [] := rfl

@[simp] theorem encode_cons (char : Char) (text : List Char) :
    encode (char :: text) = String.utf8EncodeChar char ++ encode text := List.flatMap_cons

@[simp] theorem encode_append (first second : List Char) : encode (first ++ second) = encode first ++ encode second :=
  List.flatMap_append

-- A character takes four bytes at most.
def decodeChar (bytes : List UInt8) : Option Char := (bytes.take 4).toByteArray.utf8DecodeChar? 0

def decodeFrom : Nat → List UInt8 → Option (List Char)
  | _, [] => some []
  | 0, _ => none
  | fuel + 1, bytes =>
      match decodeChar bytes with
      | none => none
      | some char => (decodeFrom fuel (bytes.drop char.utf8Size)).map (char :: ·)

theorem decode_from_succ (fuel : Nat) (bytes : List UInt8) (nonempty : bytes ≠ []) :
    decodeFrom (fuel + 1) bytes =
      match decodeChar bytes with
      | none => none
      | some char => (decodeFrom fuel (bytes.drop char.utf8Size)).map (char :: ·) := by
  cases bytes with
  | nil => exact absurd rfl nonempty
  | cons byte bytes => rfl

def decode (bytes : List UInt8) : Option (List Char) := decodeFrom bytes.length bytes

-- A text cut at a byte offset: nothing off its end or inside a character.
def splitAt : Nat → List Char → Option (List Char × List Char)
  | 0, text => some ([], text)
  | _ + 1, [] => none
  | offset + 1, char :: text =>
      if char.utf8Size ≤ offset + 1 then
        (splitAt (offset + 1 - char.utf8Size) text).map fun (front, back) => (char :: front, back)
      else none

theorem split_at_succ (offset : Nat) (char : Char) (text : List Char) :
    splitAt (offset + 1) (char :: text) =
      if char.utf8Size ≤ offset + 1 then
        (splitAt (offset + 1 - char.utf8Size) text).map fun (front, back) => (char :: front, back)
      else none := rfl

theorem encode_char_ne_nil (char : Char) : String.utf8EncodeChar char ≠ [] := by
  have positive := char.utf8Size_pos
  intro nothing
  rw [← String.length_utf8EncodeChar, nothing] at positive
  exact absurd positive (Nat.lt_irrefl 0)

theorem encode_char_ascii (char : Char) (small : char.toNat < 128) :
    String.utf8EncodeChar char = [UInt8.ofNat char.toNat] := by
  have inside : char.val.toNat ≤ 127 := Nat.le_of_lt_succ small
  simp only [String.utf8EncodeChar]
  rw [if_pos inside]
  rfl

theorem decode_char_encode (char : Char) (rest : List UInt8) :
    decodeChar (String.utf8EncodeChar char ++ rest) = some char := by
  have short : (String.utf8EncodeChar char).length ≤ 4 := by
    rw [String.length_utf8EncodeChar]
    exact char.utf8Size_le_four
  rw [decodeChar, List.take_append, List.take_of_length_le short, List.toByteArray_append]
  exact ByteArray.utf8DecodeChar?_utf8EncodeChar_append

theorem decode_char_some (bytes : List UInt8) (char : Char) (decoded : decodeChar bytes = some char) :
    bytes = String.utf8EncodeChar char ++ bytes.drop char.utf8Size := by
  obtain ⟨more, front⟩ := ByteArray.exists_of_utf8DecodeChar?_eq_some decoded
  have lists := congrArg (fun array : ByteArray => array.data.toList) front
  simp only [List.toList_data_toByteArray, ByteArray.data_append, Array.toList_append] at lists
  have whole : bytes = String.utf8EncodeChar char ++ (more.data.toList ++ bytes.drop 4) := by
    rw [← List.append_assoc, ← lists, List.take_append_drop]
  rw [← String.length_utf8EncodeChar]
  conv_rhs => rw [whole]
  rw [List.drop_left, ← whole]

theorem decode_from_encode (text : List Char) (fuel : Nat) (enough : text.length ≤ fuel) :
    decodeFrom fuel (encode text) = some text := by
  induction text generalizing fuel with
  | nil => cases fuel <;> rfl
  | cons char text ih =>
      obtain ⟨fuel, rfl⟩ := Nat.exists_eq_succ_of_ne_zero (Nat.ne_of_gt (Nat.lt_of_lt_of_le (Nat.succ_pos _) enough))
      have nonempty := List.append_ne_nil_of_left_ne_nil (encode_char_ne_nil char) (encode text)
      rw [encode_cons, decode_from_succ fuel _ nonempty, decode_char_encode]
      dsimp only
      rw [← String.length_utf8EncodeChar, List.drop_left, ih fuel (Nat.le_of_succ_le_succ enough)]
      rfl

theorem decode_from_some (fuel : Nat) (bytes : List UInt8) (text : List Char)
    (decoded : decodeFrom fuel bytes = some text) : bytes = encode text := by
  induction fuel generalizing bytes text with
  | zero =>
      cases bytes with
      | nil =>
          obtain rfl := Option.some.inj decoded
          rfl
      | cons byte bytes => cases decoded
  | succ fuel ih =>
      cases bytes with
      | nil =>
          obtain rfl := Option.some.inj decoded
          rfl
      | cons byte bytes =>
          rw [decode_from_succ fuel _ (List.cons_ne_nil byte bytes)] at decoded
          split at decoded
          · cases decoded
          · rename_i char first
            obtain ⟨rest, tail, rfl⟩ := Option.map_eq_some_iff.mp decoded
            rw [encode_cons, ← ih _ rest tail]
            exact decode_char_some _ char first

theorem length_le_encode (text : List Char) : text.length ≤ (encode text).length := by
  induction text with
  | nil => exact Nat.le_refl 0
  | cons char text ih =>
      have positive := List.length_pos_iff.mpr (encode_char_ne_nil char)
      simp only [encode_cons, List.length_cons, List.length_append]
      omega

theorem decode_eq_some_iff (bytes : List UInt8) (text : List Char) : decode bytes = some text ↔ bytes = encode text := by
  constructor
  · exact decode_from_some _ bytes text
  · rintro rfl
    exact decode_from_encode text _ (length_le_encode text)

theorem encode_injective (first second : List Char) (same : encode first = encode second) : first = second := by
  have read := (decode_eq_some_iff (encode first) first).mpr rfl
  rw [same, (decode_eq_some_iff (encode second) second).mpr rfl] at read
  exact (Option.some.inj read).symm

-- No character's code starts another's.
theorem encode_prefix (first : List Char) (rest : List UInt8) (text : List Char)
    (starts : encode first ++ rest = encode text) : ∃ more, text = first ++ more ∧ rest = encode more := by
  induction first generalizing text with
  | nil => exact ⟨text, rfl, starts⟩
  | cons char first ih =>
      cases text with
      | nil =>
          rw [encode_cons, List.append_assoc, encode_nil] at starts
          exact absurd (List.append_eq_nil_iff.mp starts).1 (encode_char_ne_nil char)
      | cons other text =>
          rw [encode_cons, encode_cons, List.append_assoc] at starts
          have sameChar : some char = some other := by
            rw [← decode_char_encode char, starts, decode_char_encode]
          obtain rfl := Option.some.inj sameChar
          obtain ⟨more, rfl, isRest⟩ := ih text (List.append_cancel_left starts)
          exact ⟨more, rfl, isRest⟩

theorem split_at_cons (char : Char) (text : List Char) (offset : Nat) :
    splitAt (char.utf8Size + offset) (char :: text) =
      (splitAt offset text).map fun (front, back) => (char :: front, back) := by
  obtain ⟨size, isSize⟩ := Nat.exists_eq_succ_of_ne_zero (Nat.ne_of_gt char.utf8Size_pos)
  have total : char.utf8Size + offset = (size + offset) + 1 := by omega
  rw [total, split_at_succ, if_pos (by omega)]
  have rest : size + offset + 1 - char.utf8Size = offset := by omega
  rw [rest]

theorem split_at_inside (char : Char) (text : List Char) (offset : Nat) (positive : 0 < offset)
    (inside : offset < char.utf8Size) : splitAt offset (char :: text) = none := by
  obtain ⟨before, rfl⟩ := Nat.exists_eq_succ_of_ne_zero (Nat.ne_of_gt positive)
  rw [Nat.succ_eq_add_one, split_at_succ, if_neg (by omega)]

theorem split_at_append (front back : List Char) : splitAt (encode front).length (front ++ back) = some (front, back) := by
  induction front with
  | nil => cases back <;> rfl
  | cons char front ih =>
      rw [encode_cons, List.length_append, String.length_utf8EncodeChar, List.cons_append, split_at_cons, ih]
      rfl

end Utf8
