import Lvqr.Lib.Utf8
import Lvqr.Rtp.Aac
import Lvqr.Rtsp.Session

set_option autoImplicit false

-- The AudioSpecificConfig in an fmtp line: what the parser makes of any text, with
-- its panics, and what the SDP of a broadcast writes.
namespace Lvqr.Rtsp

open Rtp (hexDigit hexBytes parseAacConfigFromFmtp)

def configValue (param : List Char) : Option (List Char) := Text.stripPrefix "config=".toList (Text.trim param)

-- The value of the first `config` parameter.
def configParam (fmtp : String) : Option (List Char) :=
  let params :=
    match Text.splitOnce ' ' fmtp.toList with
    | some (_, rest) => rest
    | none => fmtp.toList
  ((params.splitOn ';').filterMap configValue).head?.map Text.trim

def hexNumber (digits : List Char) : Option Nat :=
  digits.foldlM (fun value char => (hexDigit char).map fun digit => value * 16 + digit) 0

-- `u8::from_str_radix` with radix 16.
def hexByte (text : List Char) : Option UInt8 :=
  let digits := if text.head? = some '+' then text.tail else text
  if digits = [] then none else ((hexNumber digits).filter (· < 2 ^ 8)).map UInt8.ofNat

-- The outer `none` is a slice that cuts a character, where the source panics.
def hexPairs : Nat → List Char → Option (Option Bytes)
  | 0, _ => some (some [])
  | count + 1, hex =>
      match Utf8.splitAt 2 hex with
      | none => none
      | some (pair, rest) =>
          match hexByte pair with
          | none => some none
          | some byte => (hexPairs count rest).map fun bytes => bytes.map (byte :: ·)

theorem hex_pairs_succ (count : Nat) (hex : List Char) :
    hexPairs (count + 1) hex =
      match Utf8.splitAt 2 hex with
      | none => none
      | some (pair, rest) =>
          match hexByte pair with
          | none => some none
          | some byte => (hexPairs count rest).map fun bytes => bytes.map (byte :: ·) := rfl

def decodeConfig (hex : List Char) : Option (Option Bytes) :=
  let size := (Utf8.encode hex).length
  if size % 2 ≠ 0 then some none else hexPairs (size / 2) hex

def parseAacConfigChecked (fmtp : String) : Option (Option Bytes) :=
  match configParam fmtp with
  | none => some none
  | some hex => decodeConfig hex

def nibbles (bytes : Bytes) : List Nat := bytes.flatMap fun byte => [byte.toNat / 16, byte.toNat % 16]

-- Two hexadecimal digits a byte, and nothing else.
def Spells (hex : List Char) (bytes : Bytes) : Prop := hex.map hexDigit = (nibbles bytes).map some

structure ExactConfig (fmtp : String) : Prop where
  slices : parseAacConfigChecked fmtp ≠ none
  digits : ∀ bytes, parseAacConfigChecked fmtp = some (some bytes) → ∃ hex, configParam fmtp = some hex ∧ Spells hex bytes

-- A pair the integer parser reads: it takes a plus sign for no digit.
def ReadablePair (high low : Char) : Prop := (high = '+' ∨ hexDigit high ≠ none) ∧ hexDigit low ≠ none

inductive Readable : List Char → Prop
  | nil : Readable []
  | cons (high low : Char) (hex : List Char) (here : ReadablePair high low) (rest : Readable hex) :
      Readable (high :: low :: hex)

-- A character over the end of a slice, behind pairs that are all readable.
inductive Straddles : List Char → Prop
  | first (char : Char) (hex : List Char) (wide : 2 < char.utf8Size) : Straddles (char :: hex)
  | second (narrow char : Char) (hex : List Char) (single : narrow.utf8Size = 1) (wide : 1 < char.utf8Size) :
      Straddles (narrow :: char :: hex)
  | later (high low : Char) (hex : List Char) (here : ReadablePair high low) (rest : Straddles hex) :
      Straddles (high :: low :: hex)

theorem hex_digit_bounds (char : Char) (value : Nat) (digit : hexDigit char = some value) :
    value < 16 ∧ char.toNat < 128 := by
  unfold hexDigit at digit
  split at digit
  · rename_i range
    have high : char.toNat ≤ '9'.toNat := range.2
    have isValue := Option.some.inj digit
    have nine : '9'.toNat = 57 := rfl
    have zero : '0'.toNat = 48 := rfl
    omega
  · split at digit
    · rename_i range
      have high : char.toNat ≤ 'f'.toNat := range.2
      have isValue := Option.some.inj digit
      have last : 'f'.toNat = 102 := rfl
      have base : 'a'.toNat = 97 := rfl
      omega
    · split at digit
      · rename_i range
        have high : char.toNat ≤ 'F'.toNat := range.2
        have isValue := Option.some.inj digit
        have last : 'F'.toNat = 70 := rfl
        have base : 'A'.toNat = 65 := rfl
        omega
      · cases digit

theorem hex_digit_lt (char : Char) (value : Nat) (digit : hexDigit char = some value) : value < 16 :=
  (hex_digit_bounds char value digit).1

theorem hex_digit_ascii (char : Char) (digit : hexDigit char ≠ none) : char.utf8Size = 1 := by
  obtain ⟨value, isDigit⟩ := Option.ne_none_iff_exists'.mp digit
  rw [← String.length_utf8EncodeChar, Utf8.encode_char_ascii char (hex_digit_bounds char value isDigit).2]
  rfl

theorem readable_pair_ascii (high low : Char) (readable : ReadablePair high low) : high.utf8Size = 1 ∧ low.utf8Size = 1 := by
  refine ⟨?_, hex_digit_ascii low readable.2⟩
  cases readable.1 with
  | inl plus => rw [plus]; rfl
  | inr digit => exact hex_digit_ascii high digit

def pairValue (high low : Char) : Option UInt8 := do
  let high ← if high = '+' then some 0 else hexDigit high
  let low ← hexDigit low
  pure (UInt8.ofNat (high * 16 + low))

theorem hex_bytes_cons (high low : Char) (hex : List Char) :
    hexBytes (high :: low :: hex) = (pairValue high low).bind fun byte => (hexBytes hex).map (byte :: ·) := by
  rw [hexBytes, pairValue]
  by_cases plus : high = '+'
  · rw [if_pos plus, if_pos plus]
    cases hexDigit low with
    | none => rfl
    | some low => cases hexBytes hex <;> rfl
  · rw [if_neg plus, if_neg plus]
    cases hexDigit high with
    | none => rfl
    | some high =>
        cases hexDigit low with
        | none => rfl
        | some low => cases hexBytes hex <;> rfl

theorem pair_value_iff (high low : Char) : pairValue high low ≠ none ↔ ReadablePair high low := by
  rw [pairValue, ReadablePair]
  by_cases plus : high = '+'
  · rw [if_pos plus]
    cases hexDigit low with
    | none => simp
    | some low => simp [plus]
  · rw [if_neg plus]
    cases hexDigit high with
    | none => simp [plus]
    | some high =>
        cases hexDigit low with
        | none => simp
        | some low => simp

theorem hex_byte_pair (high low : Char) : hexByte [high, low] = pairValue high low := by
  have small : ∀ high low : Nat, high < 16 → low < 16 → high * 16 + low < 2 ^ 8 := by omega
  by_cases plus : high = '+'
  · have digits : hexByte [high, low] = ((hexNumber [low]).filter (· < 2 ^ 8)).map UInt8.ofNat := by
      rw [hexByte, plus]
      rfl
    rw [digits, pairValue, if_pos plus]
    cases digit : hexDigit low with
    | none => simp [hexNumber, digit]
    | some low =>
        have bound := hex_digit_lt _ low digit
        have fits : low < 256 := by omega
        simp [hexNumber, digit, fits]
  · have digits : hexByte [high, low] = ((hexNumber [high, low]).filter (· < 2 ^ 8)).map UInt8.ofNat := by
      rw [hexByte]
      simp [plus]
    rw [digits, pairValue, if_neg plus]
    cases first : hexDigit high with
    | none => simp [hexNumber, first]
    | some high =>
        cases second : hexDigit low with
        | none => simp [hexNumber, first, second]
        | some low =>
            have fits : high * 16 + low < 256 := small high low (hex_digit_lt _ high first) (hex_digit_lt _ low second)
            simp [hexNumber, first, second, fits]

theorem hex_byte_wide (char : Char) (wide : char.utf8Size ≠ 1) : hexByte [char] = none := by
  have digit : hexDigit char = none := by
    by_contra written
    exact wide (hex_digit_ascii char written)
  have plain : char ≠ '+' := fun plus => wide (by rw [plus]; rfl)
  simp [hexByte, plain, hexNumber, digit]

theorem hex_bytes_wide (char : Char) (hex : List Char) (wide : char.utf8Size ≠ 1) : hexBytes (char :: hex) = none := by
  cases hex with
  | nil => rfl
  | cons low hex =>
      have refused : pairValue char low = none := by
        by_contra read
        exact wide (readable_pair_ascii char low ((pair_value_iff char low).mp read)).1
      rw [hex_bytes_cons, refused]
      rfl

theorem encode_length_cons (char : Char) (hex : List Char) :
    (Utf8.encode (char :: hex)).length = char.utf8Size + (Utf8.encode hex).length := by
  rw [Utf8.encode_cons, List.length_append, String.length_utf8EncodeChar]

theorem split_pair (high low : Char) (hex : List Char) (single : high.utf8Size = 1 ∧ low.utf8Size = 1) :
    Utf8.splitAt 2 (high :: low :: hex) = some ([high, low], hex) := by
  have size : (Utf8.encode [high, low]).length = 2 := by
    rw [encode_length_cons, encode_length_cons, single.1, single.2]
    rfl
  rw [← size]
  exact Utf8.split_at_append [high, low] hex

theorem hex_pairs_readable (count : Nat) (high low : Char) (hex : List Char) (byte : UInt8)
    (single : high.utf8Size = 1 ∧ low.utf8Size = 1) (value : pairValue high low = some byte) :
    hexPairs (count + 1) (high :: low :: hex) = (hexPairs count hex).map fun bytes => bytes.map (byte :: ·) := by
  rw [hex_pairs_succ, split_pair high low hex single]
  simp only [hex_byte_pair, value]

theorem hex_pairs_straddles (hex : List Char) (straddles : Straddles hex) :
    hexPairs ((Utf8.encode hex).length / 2) hex = none := by
  induction straddles with
  | first char hex wide =>
      obtain ⟨count, isCount⟩ : ∃ count, (Utf8.encode (char :: hex)).length / 2 = count + 1 := by
        rw [encode_length_cons]
        exact Nat.exists_eq_succ_of_ne_zero (by omega)
      rw [isCount, hex_pairs_succ, Utf8.split_at_inside char hex 2 (by decide) wide]
  | second narrow char hex single wide =>
      obtain ⟨count, isCount⟩ : ∃ count, (Utf8.encode (narrow :: char :: hex)).length / 2 = count + 1 := by
        rw [encode_length_cons, encode_length_cons]
        exact Nat.exists_eq_succ_of_ne_zero (by omega)
      have cut := Utf8.split_at_cons narrow (char :: hex) 1
      rw [single, Utf8.split_at_inside char hex 1 (by decide) wide] at cut
      rw [isCount, hex_pairs_succ, cut]
      rfl
  | later high low hex here rest ih =>
      obtain ⟨byte, value⟩ := Option.ne_none_iff_exists'.mp ((pair_value_iff high low).mpr here)
      have single := readable_pair_ascii high low here
      have count : (Utf8.encode (high :: low :: hex)).length / 2 = (Utf8.encode hex).length / 2 + 1 := by
        rw [encode_length_cons, encode_length_cons, single.1, single.2]
        omega
      rw [count, hex_pairs_readable _ high low hex byte single value, ih]
      rfl

theorem hex_pairs_two_bytes (count : Nat) (char : Char) (hex : List Char) (two : char.utf8Size = 2) :
    hexPairs (count + 1) (char :: hex) = some none := by
  have cut : Utf8.splitAt 2 (char :: hex) = some ([char], hex) := by
    have whole := Utf8.split_at_append [char] hex
    rwa [encode_length_cons, two] at whole
  rw [hex_pairs_succ, cut]
  simp only [hex_byte_wide char (by omega)]

theorem hex_pairs_clean (hex : List Char) (clean : ¬ Straddles hex) (even : (Utf8.encode hex).length % 2 = 0) :
    hexPairs ((Utf8.encode hex).length / 2) hex = some (hexBytes hex) := by
  match hex with
  | [] => rfl
  | [char] =>
      have narrow : ¬ 2 < char.utf8Size := fun wide => clean (.first char [] wide)
      have positive := char.utf8Size_pos
      rw [encode_length_cons] at even
      have two : char.utf8Size = 2 := by
        have last : (Utf8.encode []).length = 0 := rfl
        omega
      rw [encode_length_cons, two]
      exact hex_pairs_two_bytes 0 char [] two
  | high :: low :: hex =>
      have narrow : ¬ 2 < high.utf8Size := fun wide => clean (.first high (low :: hex) wide)
      have positive := high.utf8Size_pos
      rw [encode_length_cons, encode_length_cons] at even ⊢
      by_cases two : high.utf8Size = 2
      · rw [two, hex_bytes_wide high (low :: hex) (by omega), Nat.add_div_left _ (by decide)]
        exact hex_pairs_two_bytes _ high (low :: hex) two
      · have lowPositive := low.utf8Size_pos
        have lowNarrow : ¬ 1 < low.utf8Size := fun wide => clean (.second high low hex (by omega) wide)
        have single : high.utf8Size = 1 ∧ low.utf8Size = 1 := by omega
        rw [single.1, single.2, ← Nat.add_assoc] at even
        rw [single.1, single.2, ← Nat.add_assoc, Nat.add_div_left _ (by decide), hex_bytes_cons]
        cases value : pairValue high low with
        | none =>
            rw [hex_pairs_succ, split_pair high low hex single]
            simp only [hex_byte_pair, value]
            rfl
        | some byte =>
            have here := (pair_value_iff high low).mp (by rw [value]; exact Option.some_ne_none byte)
            have rest := hex_pairs_clean hex (fun straddles => clean (.later high low hex here straddles)) (by omega)
            rw [hex_pairs_readable _ high low hex byte single value, rest]
            rfl

theorem readable_iff (hex : List Char) : hexBytes hex ≠ none ↔ Readable hex := by
  match hex with
  | [] => exact iff_of_true (Option.some_ne_none []) .nil
  | [_] => exact iff_of_false (fun read => read rfl) fun readable => nomatch readable
  | high :: low :: hex =>
      have rest := readable_iff hex
      rw [hex_bytes_cons]
      constructor
      · intro read
        have here : pairValue high low ≠ none := by
          intro refused
          rw [refused] at read
          exact read rfl
        obtain ⟨byte, value⟩ := Option.ne_none_iff_exists'.mp here
        rw [value] at read
        refine .cons high low hex ((pair_value_iff high low).mp here) (rest.mp fun refused => read ?_)
        rw [refused]
        rfl
      · intro readable
        cases readable with
        | cons _ _ _ here readable =>
            obtain ⟨byte, value⟩ := Option.ne_none_iff_exists'.mp ((pair_value_iff high low).mpr here)
            obtain ⟨bytes, read⟩ := Option.ne_none_iff_exists'.mp (rest.mpr readable)
            rw [value, read]
            exact Option.some_ne_none (byte :: bytes)

theorem readable_even (hex : List Char) (readable : Readable hex) : (Utf8.encode hex).length % 2 = 0 := by
  induction readable with
  | nil => rfl
  | cons high low hex here rest ih =>
      have single := readable_pair_ascii high low here
      rw [encode_length_cons, encode_length_cons, single.1, single.2]
      omega

theorem spells_cons (high low : Char) (hex : List Char) (byte : UInt8) (bytes : Bytes) :
    Spells (high :: low :: hex) (byte :: bytes) ↔
      hexDigit high = some (byte.toNat / 16) ∧ hexDigit low = some (byte.toNat % 16) ∧ Spells hex bytes := by
  show hexDigit high :: hexDigit low :: hex.map hexDigit =
    some (byte.toNat / 16) :: some (byte.toNat % 16) :: (nibbles bytes).map some ↔ _
  rw [List.cons.injEq, List.cons.injEq]
  rfl

theorem pair_value_digits (high low : Char) (byte : UInt8) (value : pairValue high low = some byte) :
    (hexDigit high = some (byte.toNat / 16) ∧ hexDigit low = some (byte.toNat % 16)) ↔ high ≠ '+' := by
  rw [pairValue] at value
  by_cases plus : high = '+'
  · refine iff_of_false (fun digits => ?_) fun other => other plus
    rw [plus] at digits
    have refused : hexDigit '+' = none := rfl
    rw [refused] at digits
    exact Option.some_ne_none _ digits.1.symm
  · refine iff_of_true ?_ plus
    rw [if_neg plus] at value
    cases first : hexDigit high with
    | none =>
        rw [first] at value
        cases value
    | some digit =>
        cases second : hexDigit low with
        | none =>
            rw [first, second] at value
            cases value
        | some other =>
            rw [first, second] at value
            have isByte : UInt8.ofNat (digit * 16 + other) = byte := Option.some.inj value
            have highBound := hex_digit_lt high digit first
            have lowBound := hex_digit_lt low other second
            have number : byte.toNat = digit * 16 + other := by
              rw [← isByte, UInt8.toNat_ofNat']
              exact Nat.mod_eq_of_lt (by omega)
            rw [number]
            refine ⟨congrArg some ?_, congrArg some ?_⟩ <;> omega

theorem spells_iff (hex : List Char) (bytes : Bytes) (read : hexBytes hex = some bytes) :
    Spells hex bytes ↔ '+' ∉ hex := by
  match hex with
  | [] =>
      obtain rfl := Option.some.inj read
      exact iff_of_true rfl List.not_mem_nil
  | [_] => cases read
  | high :: low :: hex =>
      rw [hex_bytes_cons] at read
      obtain ⟨byte, value, tail⟩ := Option.bind_eq_some_iff.mp read
      obtain ⟨rest, readRest, isBytes⟩ := Option.map_eq_some_iff.mp tail
      subst isBytes
      have lowPlain : low ≠ '+' := by
        intro plus
        have digit := ((pair_value_iff high low).mp (by rw [value]; exact Option.some_ne_none byte)).2
        rw [plus] at digit
        exact digit rfl
      rw [spells_cons, ← and_assoc, pair_value_digits high low byte value, spells_iff hex rest readRest]
      rw [List.mem_cons, List.mem_cons, not_or, not_or]
      exact ⟨fun both => ⟨both.1.symm, lowPlain.symm, both.2⟩, fun all => ⟨Ne.symm all.1, all.2.2⟩⟩

theorem decode_config_clean (hex : List Char) (clean : ¬ ((Utf8.encode hex).length % 2 = 0 ∧ Straddles hex)) :
    decodeConfig hex = some (hexBytes hex) := by
  rw [decodeConfig]
  by_cases even : (Utf8.encode hex).length % 2 = 0
  · rw [if_neg (not_not.mpr even)]
    exact hex_pairs_clean hex (fun straddles => clean ⟨even, straddles⟩) even
  · rw [if_pos even]
    have refused : hexBytes hex = none := by
      by_contra read
      exact even (readable_even hex ((readable_iff hex).mp read))
    rw [refused]

theorem decode_config_straddles (hex : List Char) (even : (Utf8.encode hex).length % 2 = 0) (straddles : Straddles hex) :
    decodeConfig hex = none := by
  rw [decodeConfig, if_neg (not_not.mpr even)]
  exact hex_pairs_straddles hex straddles

theorem straddles_refused (hex : List Char) (straddles : Straddles hex) : hexBytes hex = none := by
  induction straddles with
  | first char hex wide => exact hex_bytes_wide char hex (by omega)
  | second narrow char hex single wide =>
      have refused : pairValue narrow char = none := by
        by_contra read
        have ascii := (readable_pair_ascii narrow char ((pair_value_iff narrow char).mp read)).2
        omega
      rw [hex_bytes_cons, refused]
      rfl
  | later high low hex here rest ih =>
      rw [hex_bytes_cons, ih]
      cases pairValue high low <;> rfl

-- The ingest path's model of the parser has no outcome for a panic.
theorem checked_config (fmtp : String) : (parseAacConfigChecked fmtp).join = parseAacConfigFromFmtp fmtp := by
  have plain : parseAacConfigFromFmtp fmtp = (configParam fmtp).bind hexBytes := by
    unfold parseAacConfigFromFmtp configParam configValue
    dsimp only
    generalize List.filterMap _ _ = configs
    cases configs <;> rfl
  rw [plain, parseAacConfigChecked]
  cases configParam fmtp with
  | none => rfl
  | some hex =>
      by_cases straddles : (Utf8.encode hex).length % 2 = 0 ∧ Straddles hex
      · show (decodeConfig hex).join = hexBytes hex
        rw [decode_config_straddles hex straddles.1 straddles.2, straddles_refused hex straddles.2]
        rfl
      · show (decodeConfig hex).join = hexBytes hex
        rw [decode_config_clean hex straddles]
        rfl

-- What the slices and the integer parser make no difference to.
def ExactHex (hex : List Char) : Prop :=
  ¬ ((Utf8.encode hex).length % 2 = 0 ∧ Straddles hex) ∧ ¬ (Readable hex ∧ '+' ∈ hex)

theorem decode_config_exact_iff (hex : List Char) :
    (decodeConfig hex ≠ none ∧ ∀ bytes, decodeConfig hex = some (some bytes) → Spells hex bytes) ↔ ExactHex hex := by
  by_cases straddles : (Utf8.encode hex).length % 2 = 0 ∧ Straddles hex
  · refine iff_of_false (fun exact => ?_) fun exact => exact.1 straddles
    exact exact.1 (decode_config_straddles hex straddles.1 straddles.2)
  · rw [decode_config_clean hex straddles, ExactHex, and_iff_right (Option.some_ne_none _), and_iff_right straddles]
    constructor
    · intro exact ⟨readable, plus⟩
      obtain ⟨bytes, read⟩ := Option.ne_none_iff_exists'.mp ((readable_iff hex).mpr readable)
      exact (spells_iff hex bytes read).mp (exact bytes (congrArg some read)) plus
    · intro exact bytes decoded
      have read := Option.some.inj decoded
      refine (spells_iff hex bytes read).mpr fun plus => exact ⟨?_, plus⟩
      exact (readable_iff hex).mp (by rw [read]; exact Option.some_ne_none bytes)

theorem exact_config_iff (fmtp : String) : ExactConfig fmtp ↔ ∀ hex, configParam fmtp = some hex → ExactHex hex := by
  cases param : configParam fmtp with
  | none =>
      refine iff_of_true ⟨?_, fun bytes parsed => ?_⟩ fun hex found => nomatch found
      · rw [parseAacConfigChecked, param]
        exact Option.some_ne_none none
      · rw [parseAacConfigChecked, param] at parsed
        cases parsed
  | some hex =>
      have parsed : parseAacConfigChecked fmtp = decodeConfig hex := by rw [parseAacConfigChecked, param]
      constructor
      · intro ⟨slices, digits⟩ other found
        obtain rfl := Option.some.inj found
        rw [parsed] at slices digits
        refine (decode_config_exact_iff hex).mp ⟨slices, fun bytes decoded => ?_⟩
        obtain ⟨other, isParam, spells⟩ := digits bytes decoded
        rw [param] at isParam
        exact Option.some.inj isParam ▸ spells
      · intro exact
        obtain ⟨slices, digits⟩ := (decode_config_exact_iff hex).mpr (exact hex rfl)
        rw [← parsed] at slices digits
        exact ⟨slices, fun bytes decoded => ⟨hex, param, digits bytes decoded⟩⟩

end Lvqr.Rtsp
