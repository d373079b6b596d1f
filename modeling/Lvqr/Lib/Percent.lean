import Mathlib.Data.List.Basic
import Mathlib.Data.List.Count
import Mathlib.Data.List.Infix

set_option autoImplicit false

-- Percent-encoded paths as byte strings.
namespace Percent

def slash : UInt8 := 0x2F

def percent : UInt8 := 0x25

def hexDigit (byte : UInt8) : Option UInt8 :=
  if 0x30 ≤ byte ∧ byte ≤ 0x39 then some (byte - 0x30)
  else if 0x41 ≤ byte ∧ byte ≤ 0x46 then some (byte - 0x41 + 10)
  else if 0x61 ≤ byte ∧ byte ≤ 0x66 then some (byte - 0x61 + 10)
  else none

def escaped (byte high low : UInt8) : Option UInt8 :=
  if byte = percent then (hexDigit high).bind fun first => (hexDigit low).map fun second => first * 16 + second
  else none

-- A percent sign that two hex digits do not follow stands for itself.
def decode : List UInt8 → List UInt8
  | [] => []
  | [byte] => [byte]
  | [byte, next] => [byte, next]
  | byte :: high :: low :: rest =>
      match escaped byte high low with
      | some value => value :: decode rest
      | none => byte :: decode (high :: low :: rest)

theorem decode_three (byte high low : UInt8) (rest : List UInt8) :
    decode (byte :: high :: low :: rest) =
      match escaped byte high low with
      | some value => value :: decode rest
      | none => byte :: decode (high :: low :: rest) := rfl

-- Everything before the last slash and everything behind it.
def splitLast : List UInt8 → Option (List UInt8 × List UInt8)
  | [] => none
  | byte :: rest =>
      match splitLast rest with
      | some (front, back) => some (byte :: front, back)
      | none => if byte = slash then some ([], rest) else none

theorem split_last_cons (byte : UInt8) (rest : List UInt8) :
    splitLast (byte :: rest) =
      match splitLast rest with
      | some (front, back) => some (byte :: front, back)
      | none => if byte = slash then some ([], rest) else none := rfl

theorem hex_digit_not_slash (byte value : UInt8) (digit : hexDigit byte = some value) : byte ≠ slash := by
  rintro rfl
  simp [hexDigit, slash] at digit

theorem escaped_parts (byte high low value : UInt8) (isEscaped : escaped byte high low = some value) :
    byte = percent ∧ high ≠ slash ∧ low ≠ slash := by
  rw [escaped] at isEscaped
  split at isEscaped
  · rename_i same
    obtain ⟨first, isFirst, rest⟩ := Option.bind_eq_some_iff.mp isEscaped
    obtain ⟨second, isSecond, _⟩ := Option.map_eq_some_iff.mp rest
    exact ⟨same, hex_digit_not_slash high first isFirst, hex_digit_not_slash low second isSecond⟩
  · cases isEscaped

-- A text is read byte by byte or escape by escape.
theorem read_induction {motive : List UInt8 → Prop} (nil : motive [])
    (plain : ∀ byte rest, (∀ high low more, rest = high :: low :: more → escaped byte high low = none) → motive rest →
      motive (byte :: rest))
    (escape : ∀ byte high low value rest, escaped byte high low = some value → motive rest →
      motive (byte :: high :: low :: rest)) : ∀ text, motive text
  | [] => nil
  | [byte] => plain byte [] (fun _ _ _ same => by cases same) nil
  | [byte, next] =>
      plain byte [next] (fun _ _ _ same => by cases same) (plain next [] (fun _ _ _ same => by cases same) nil)
  | byte :: high :: low :: rest => by
      cases isEscaped : escaped byte high low with
      | some value => exact escape byte high low value rest isEscaped (read_induction nil plain escape rest)
      | none =>
          refine plain byte (high :: low :: rest) (fun _ _ _ same => ?_) (read_induction nil plain escape _)
          cases same
          exact isEscaped

@[simp] theorem decode_nil : decode [] = [] := rfl

theorem decode_cons (byte : UInt8) (rest : List UInt8)
    (plain : ∀ high low more, rest = high :: low :: more → escaped byte high low = none) :
    decode (byte :: rest) = byte :: decode rest := by
  match rest with
  | [] => rfl
  | [_] => rfl
  | high :: low :: more => rw [decode_three, plain high low more rfl]

theorem decode_escaped (byte high low value : UInt8) (rest : List UInt8) (isEscaped : escaped byte high low = some value) :
    decode (byte :: high :: low :: rest) = value :: decode rest := by
  rw [decode_three, isEscaped]

theorem escaped_slash (high low : UInt8) : escaped slash high low = none := by
  rw [escaped, if_neg (by decide)]

theorem decode_slash_cons (back : List UInt8) : decode (slash :: back) = slash :: decode back :=
  decode_cons slash back fun high low _ _ => escaped_slash high low

-- No escape reaches over a slash.
theorem plain_before_slash (byte : UInt8) (front back : List UInt8)
    (plain : ∀ high low more, front = high :: low :: more → escaped byte high low = none) (high low : UInt8)
    (more : List UInt8) (same : front ++ slash :: back = high :: low :: more) : escaped byte high low = none := by
  cases isEscaped : escaped byte high low with
  | none => rfl
  | some value =>
      obtain ⟨_, highNot, lowNot⟩ := escaped_parts byte high low value isEscaped
      match front with
      | [] => exact absurd (List.cons.inj same).1.symm highNot
      | [_] => exact absurd (List.cons.inj (List.cons.inj same).2).1.symm lowNot
      | first :: second :: rest =>
          obtain ⟨rfl, tail⟩ := List.cons.inj same
          obtain ⟨rfl, _⟩ := List.cons.inj tail
          rw [plain first second rest rfl] at isEscaped
          cases isEscaped

-- The parts of a path decode apart.
theorem decode_slash (front back : List UInt8) : decode (front ++ slash :: back) = decode front ++ slash :: decode back := by
  induction front using read_induction with
  | nil => rw [List.nil_append, decode_slash_cons, decode_nil, List.nil_append]
  | plain byte rest plain ih =>
      rw [List.cons_append, decode_cons byte _ (plain_before_slash byte rest back plain), ih, decode_cons byte rest plain,
        List.cons_append]
  | escape byte high low value rest isEscaped ih =>
      rw [List.cons_append, List.cons_append, List.cons_append, decode_escaped byte high low value _ isEscaped, ih,
        decode_escaped byte high low value _ isEscaped, List.cons_append]

theorem length_decode_le (text : List UInt8) : (decode text).length ≤ text.length := by
  induction text using read_induction with
  | nil => rw [decode_nil]
  | plain byte rest plain ih =>
      rw [decode_cons byte rest plain]
      exact Nat.succ_le_succ ih
  | escape byte high low value rest isEscaped ih =>
      rw [decode_escaped byte high low value rest isEscaped]
      simp only [List.length_cons]
      omega

theorem count_le_decode (text : List UInt8) : text.count slash ≤ (decode text).count slash := by
  induction text using read_induction with
  | nil => rw [decode_nil]
  | plain byte rest plain ih =>
      rw [decode_cons byte rest plain, List.count_cons, List.count_cons]
      omega
  | escape byte high low value rest isEscaped ih =>
      obtain ⟨rfl, highNot, lowNot⟩ := escaped_parts byte high low value isEscaped
      rw [decode_escaped percent high low value rest isEscaped, List.count_cons_of_ne (by decide),
        List.count_cons_of_ne highNot, List.count_cons_of_ne lowNot, List.count_cons]
      omega

theorem split_last_none (text : List UInt8) : splitLast text = none ↔ slash ∉ text := by
  induction text with
  | nil => exact iff_of_true rfl List.not_mem_nil
  | cons byte rest ih =>
      rw [split_last_cons]
      cases found : splitLast rest with
      | some parts =>
          rw [found] at ih
          simp only [reduceCtorEq, false_iff, List.mem_cons, not_or, not_and, not_not] at ih ⊢
          exact fun _ => ih
      | none =>
          have absent := ih.mp found
          by_cases same : byte = slash
          · simp [same]
          · simp [same, absent, Ne.symm same]

theorem split_last_append (front back : List UInt8) (last : slash ∉ back) :
    splitLast (front ++ slash :: back) = some (front, back) := by
  induction front with
  | nil => rw [List.nil_append, split_last_cons, (split_last_none back).mpr last, if_pos rfl]
  | cons byte front ih => rw [List.cons_append, split_last_cons, ih]

theorem split_last_some (text front back : List UInt8) (found : splitLast text = some (front, back)) :
    text = front ++ slash :: back ∧ slash ∉ back := by
  induction text generalizing front back with
  | nil => cases found
  | cons byte rest ih =>
      rw [split_last_cons] at found
      cases inner : splitLast rest with
      | some parts =>
          obtain ⟨before, behind⟩ := parts
          rw [inner] at found
          obtain ⟨rfl, rfl⟩ := Prod.mk.inj (Option.some.inj found)
          obtain ⟨same, last⟩ := ih before behind inner
          exact ⟨by rw [same, List.cons_append], last⟩
      | none =>
          rw [inner] at found
          by_cases same : byte = slash
          · simp only [same, if_true, Option.some.injEq, Prod.mk.injEq] at found
            obtain ⟨rfl, rfl⟩ := found
            exact ⟨by rw [same, List.nil_append], (split_last_none rest).mp inner⟩
          · simp [same] at found

end Percent
