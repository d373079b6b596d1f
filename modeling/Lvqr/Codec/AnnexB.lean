import Lvqr.Bytes
import Lvqr.Lib.BigEndian

set_option autoImplicit false

namespace Lvqr.Codec

-- The NAL units behind the start codes of a buffer; `current` is the unit being
-- collected. One ingest cuts a unit when it meets the next start code, the other
-- lists the start codes first: both come to this pass.
def splitFrom (current : Option Bytes) : Bytes → List Bytes
  | 0 :: 0 :: 1 :: rest => current.toList.filter (· ≠ []) ++ splitFrom (some []) rest
  | 0 :: 0 :: 0 :: 1 :: rest => current.toList.filter (· ≠ []) ++ splitFrom (some []) rest
  | byte :: rest => splitFrom (current.map (· ++ [byte])) rest
  | [] => current.toList.filter (· ≠ [])

def splitAnnexB (data : Bytes) : List Bytes := splitFrom none data

def lengthPrefixed (nals : List Bytes) : Bytes := nals.flatMap fun nal => BigEndian.bytes 4 nal.length ++ nal

def hevcNalType (nal : Bytes) : UInt8 := (nal.headD 0 >>> 1) &&& 0x3F

def avcNalType (nal : Bytes) : UInt8 := nal.headD 0 &&& 0x1F

def isAvcParameterSet (nal : Bytes) : Bool := avcNalType nal == 7 || avcNalType nal == 8

def isHevcParameterSet (nal : Bytes) : Bool :=
  hevcNalType nal == 32 || hevcNalType nal == 33 || hevcNalType nal == 34

example : splitAnnexB [9, 0, 0, 0, 1, 0x65, 0xCC, 0, 0, 1, 0x41] = [[0x65, 0xCC], [0x41]] := by decide

end Lvqr.Codec

-- Byte streams in the sense of Annex B: what the splitting pass makes of NAL units
-- between start codes and runs of zeros.
namespace Lvqr.Codec

def zeroBytes (count : Nat) : Bytes := List.replicate count 0

def StartsCode (data : Bytes) : Prop := [0, 0, 1] <+: data ∨ [0, 0, 0, 1] <+: data

def emitted (current : Option Bytes) : List Bytes := current.toList.filter (· ≠ [])

theorem emitted_some (unit : Bytes) (present : unit ≠ []) : emitted (some unit) = [unit] := by
  simp [emitted, present]

-- What emulation prevention keeps out of a unit.
def Unbroken (nal : Bytes) : Prop := ¬ [0, 0, 0] <:+: nal ∧ ¬ [0, 0, 1] <:+: nal

instance (nal : Bytes) : Decidable (Unbroken nal) := inferInstanceAs (Decidable (_ ∧ _))

theorem unbroken_suffix (nal suffix : Bytes) (unbroken : Unbroken nal) (isSuffix : suffix <:+ nal) : Unbroken suffix :=
  ⟨fun inside => unbroken.1 (inside.trans isSuffix.isInfix), fun inside => unbroken.2 (inside.trans isSuffix.isInfix)⟩

theorem split_nil (current : Option Bytes) : splitFrom current [] = emitted current := rfl

theorem split_short (current : Option Bytes) (rest : Bytes) :
    splitFrom current (0 :: 0 :: 1 :: rest) = emitted current ++ splitFrom (some []) rest := rfl

theorem split_long (current : Option Bytes) (rest : Bytes) :
    splitFrom current (0 :: 0 :: 0 :: 1 :: rest) = emitted current ++ splitFrom (some []) rest := rfl

theorem split_byte (current : Option Bytes) (byte : UInt8) (rest : Bytes) (plain : ¬ StartsCode (byte :: rest)) :
    splitFrom current (byte :: rest) = splitFrom (current.map (· ++ [byte])) rest := by
  rw [splitFrom]
  · rintro more rfl rfl
    exact plain (.inl ⟨more, rfl⟩)
  · rintro more rfl rfl
    exact plain (.inr ⟨more, rfl⟩)

-- Bytes at none of which a start code stands go to the unit being collected.
theorem split_past (current : Option Bytes) (front rest : Bytes)
    (plain : ∀ suffix, suffix <:+ front → suffix ≠ [] → ¬ StartsCode (suffix ++ rest)) :
    splitFrom current (front ++ rest) = splitFrom (current.map (· ++ front)) rest := by
  induction front generalizing current with
  | nil =>
      cases current with
      | none => rfl
      | some bytes => rw [Option.map_some, List.append_nil, List.nil_append]
  | cons byte front ih =>
      have here := plain (byte :: front) List.suffix_rfl (List.cons_ne_nil _ _)
      have later : ∀ suffix, suffix <:+ front → suffix ≠ [] → ¬ StartsCode (suffix ++ rest) :=
        fun suffix isSuffix => plain suffix (isSuffix.trans (List.suffix_cons byte front))
      rw [List.cons_append, split_byte current byte (front ++ rest) here, ih _ later]
      cases current with
      | none => rfl
      | some bytes => rw [Option.map_some, Option.map_some, Option.map_some, List.append_assoc, List.singleton_append]

theorem split_nonempty (current : Option Bytes) (data : Bytes) : [] ∉ splitFrom current data := by
  have emits : ∀ current, [] ∉ emitted current := fun current member => by
    have kept := (List.mem_filter.mp member).2
    simp at kept
  induction current, data using splitFrom.induct with
  | case1 current rest ih =>
      rw [split_short, List.mem_append]
      exact not_or.mpr ⟨emits current, ih⟩
  | case2 current rest ih =>
      rw [split_long, List.mem_append]
      exact not_or.mpr ⟨emits current, ih⟩
  | case3 current byte rest notShort notLong ih =>
      rw [splitFrom]
      · exact ih
      · exact notShort
      · exact notLong
  | case4 current =>
      rw [split_nil]
      exact emits current

theorem zero_bytes_succ (count : Nat) : zeroBytes (count + 1) = 0 :: zeroBytes count := List.replicate_succ

-- A run of zeros in front of a one: the last three at most are the start code's.
theorem split_zeros (current : Option Bytes) (count : Nat) (rest : Bytes) :
    splitFrom current (zeroBytes (count + 2) ++ 1 :: rest) =
      emitted (current.map (· ++ zeroBytes (count - 1))) ++ splitFrom (some []) rest := by
  induction count generalizing current with
  | zero =>
      refine (split_short current rest).trans ?_
      cases current with
      | none => rfl
      | some bytes => rw [Option.map_some, zeroBytes, Nat.zero_sub, List.replicate_zero, List.append_nil]
  | succ count ih =>
      cases count with
      | zero =>
          refine (split_long current rest).trans ?_
          cases current with
          | none => rfl
          | some bytes => rw [Option.map_some, zeroBytes, Nat.zero_add, Nat.sub_self, List.replicate_zero, List.append_nil]
      | succ count =>
          have plain : ¬ StartsCode (0 :: (zeroBytes (count + 1 + 2) ++ 1 :: rest)) := by
            rintro (⟨more, starts⟩ | ⟨more, starts⟩)
            · exact absurd (List.cons.inj (List.cons.inj (List.cons.inj starts).2).2).1 (by decide)
            · exact absurd (List.cons.inj (List.cons.inj (List.cons.inj (List.cons.inj starts).2).2).2).1 (by decide)
          rw [zero_bytes_succ (count + 1 + 2), List.cons_append, split_byte current 0 _ plain, ih]
          cases current with
          | none => rfl
          | some bytes =>
              have more : (0 : UInt8) :: zeroBytes count = zeroBytes (count + 1) := (zero_bytes_succ count).symm
              rw [Option.map_some, Option.map_some, Option.map_some, List.append_assoc, List.singleton_append,
                Nat.add_sub_cancel, Nat.add_sub_cancel, more]

-- The tests that both scanners make at a position of the buffer.
def ShortCodeAt (data : Bytes) (i : Nat) : Prop :=
  i + 3 ≤ data.length ∧ data.getD i 0 = 0 ∧ data.getD (i + 1) 0 = 0 ∧ data.getD (i + 2) 0 = 1

def LongCodeAt (data : Bytes) (i : Nat) : Prop :=
  i + 4 ≤ data.length ∧ data.getD i 0 = 0 ∧ data.getD (i + 1) 0 = 0 ∧ data.getD (i + 2) 0 = 0 ∧
    data.getD (i + 3) 0 = 1

instance (data : Bytes) (i : Nat) : Decidable (ShortCodeAt data i) := inferInstanceAs (Decidable (_ ∧ _))

instance (data : Bytes) (i : Nat) : Decidable (LongCodeAt data i) := inferInstanceAs (Decidable (_ ∧ _))

theorem get_d_inside (data : Bytes) (i : Nat) (inside : i < data.length) : data.getD i 0 = data[i] := by
  rw [List.getD_eq_getElem?_getD, List.getElem?_eq_getElem inside, Option.getD_some]

theorem drop_of_bound (data : Bytes) (i : Nat) (inside : i < data.length) :
    data.drop i = data.getD i 0 :: data.drop (i + 1) := by
  rw [List.drop_eq_getElem_cons inside, get_d_inside data _ inside]

theorem short_code_drop (data : Bytes) (i : Nat) (found : ShortCodeAt data i) :
    data.drop i = 0 :: 0 :: 1 :: data.drop (i + 3) := by
  obtain ⟨bound, first, second, third⟩ := found
  rw [drop_of_bound data i (by omega), drop_of_bound data (i + 1) (by omega), drop_of_bound data (i + 2) (by omega),
    first, second, third]

theorem long_code_drop (data : Bytes) (i : Nat) (found : LongCodeAt data i) :
    data.drop i = 0 :: 0 :: 0 :: 1 :: data.drop (i + 4) := by
  obtain ⟨bound, first, second, third, fourth⟩ := found
  rw [drop_of_bound data i (by omega), drop_of_bound data (i + 1) (by omega), drop_of_bound data (i + 2) (by omega),
    drop_of_bound data (i + 3) (by omega), first, second, third, fourth]

theorem starts_code_iff (data : Bytes) (i : Nat) :
    StartsCode (data.drop i) ↔ ShortCodeAt data i ∨ LongCodeAt data i := by
  constructor
  · have at_drop : ∀ k, data.getD (i + k) 0 = (data.drop i).getD k 0 := fun k => by
      rw [List.getD_eq_getElem?_getD, List.getD_eq_getElem?_getD, List.getElem?_drop]
    rintro (⟨rest, starts⟩ | ⟨rest, starts⟩)
    · have long := congrArg List.length starts
      rw [List.length_append, List.length_drop] at long
      have bound : i + 3 ≤ data.length := by
        rw [List.length_cons, List.length_cons, List.length_cons] at long
        omega
      exact .inl ⟨bound, (at_drop 0).trans (by rw [← starts]; rfl), (at_drop 1).trans (by rw [← starts]; rfl),
        (at_drop 2).trans (by rw [← starts]; rfl)⟩
    · have long := congrArg List.length starts
      rw [List.length_append, List.length_drop] at long
      have bound : i + 4 ≤ data.length := by
        rw [List.length_cons, List.length_cons, List.length_cons, List.length_cons] at long
        omega
      exact .inr ⟨bound, (at_drop 0).trans (by rw [← starts]; rfl), (at_drop 1).trans (by rw [← starts]; rfl),
        (at_drop 2).trans (by rw [← starts]; rfl), (at_drop 3).trans (by rw [← starts]; rfl)⟩
  · rintro (short | long)
    · exact .inl ⟨data.drop (i + 3), (short_code_drop data i short).symm⟩
    · exact .inr ⟨data.drop (i + 4), (long_code_drop data i long).symm⟩

-- One position of the buffer for the pass over its bytes.
theorem split_drop_short (current : Option Bytes) (data : Bytes) (i : Nat) (found : ShortCodeAt data i) :
    splitFrom current (data.drop i) = emitted current ++ splitFrom (some []) (data.drop (i + 3)) := by
  rw [short_code_drop data i found, split_short]

theorem split_drop_long (current : Option Bytes) (data : Bytes) (i : Nat) (found : LongCodeAt data i) :
    splitFrom current (data.drop i) = emitted current ++ splitFrom (some []) (data.drop (i + 4)) := by
  rw [long_code_drop data i found, split_long]

theorem split_drop_plain (current : Option Bytes) (data : Bytes) (i : Nat) (inside : i < data.length)
    (plain : ¬ StartsCode (data.drop i)) :
    splitFrom current (data.drop i) = splitFrom (current.map (· ++ [data.getD i 0])) (data.drop (i + 1)) := by
  rw [drop_of_bound data i inside] at plain ⊢
  exact split_byte current _ _ plain

theorem split_drop_end (current : Option Bytes) (data : Bytes) (i : Nat) (outside : data.length ≤ i) :
    splitFrom current (data.drop i) = emitted current := by
  rw [List.drop_of_length_le outside, split_nil]

theorem split_drop_tail (current : Option Bytes) (data : Bytes) (i : Nat) (few : data.length < i + 3) :
    splitFrom current (data.drop i) = emitted (current.map (· ++ data.drop i)) := by
  have past := split_past current (data.drop i) [] fun suffix isSuffix _ => by
    have short := isSuffix.length_le
    rw [List.length_drop] at short
    rw [List.append_nil]
    rintro (starts | starts)
    · have long : 3 ≤ suffix.length := starts.length_le
      omega
    · have long : 4 ≤ suffix.length := starts.length_le
      omega
  rw [List.append_nil] at past
  rw [past, split_nil]

-- The part of a buffer between two positions grows by the byte at its end.
def slice (data : Bytes) (start stop : Nat) : Bytes := (data.take stop).drop start

theorem slice_nil (data : Bytes) (start : Nat) : slice data start start = [] :=
  List.drop_of_length_le (List.length_take_le start data)

theorem slice_snoc (data : Bytes) (start stop : Nat) (ordered : start ≤ stop) (inside : stop < data.length) :
    slice data start (stop + 1) = slice data start stop ++ [data.getD stop 0] := by
  have long : start ≤ (data.take stop).length := by
    rw [List.length_take, Nat.min_eq_left (Nat.le_of_lt inside)]
    exact ordered
  rw [slice, slice, List.take_succ_eq_append_getElem inside, List.drop_append_of_le_length long,
    get_d_inside data _ inside]

theorem slice_eq_nil_iff (data : Bytes) (start stop : Nat) (inside : stop ≤ data.length) :
    slice data start stop = [] ↔ stop ≤ start := by
  rw [slice, List.drop_eq_nil_iff, List.length_take, Nat.min_eq_left inside]

theorem slice_end (data : Bytes) (start stop : Nat) (ordered : start ≤ stop) (inside : stop ≤ data.length) :
    slice data start stop ++ data.drop stop = slice data start data.length := by
  have long : start ≤ (data.take stop).length := by
    rw [List.length_take, Nat.min_eq_left inside]
    exact ordered
  rw [slice, slice, ← List.drop_append_of_le_length long, List.take_append_drop, List.take_length]

-- A unit is kept where it is not empty.
theorem emitted_slice (data : Bytes) (start stop : Nat) (inside : stop ≤ data.length) :
    emitted (some (slice data start stop)) = if start < stop then [slice data start stop] else [] := by
  have empty := slice_eq_nil_iff data start stop inside
  by_cases later : start < stop
  · have present : slice data start stop ≠ [] := fun nothing => absurd (empty.mp nothing) (Nat.not_le.mpr later)
    rw [if_pos later, emitted_some _ present]
  · rw [if_neg later, empty.mpr (Nat.not_lt.mp later)]
    rfl

theorem zeros_plain (count : Nat) : ¬ StartsCode (zeroBytes count) := by
  have absent : (1 : UInt8) ∉ zeroBytes count := fun member => absurd (List.eq_of_mem_replicate member) (by decide)
  rintro (starts | starts)
  · exact absent (starts.subset (by decide))
  · exact absent (starts.subset (by decide))

theorem split_zeros_end (current : Option Bytes) (count : Nat) :
    splitFrom current (zeroBytes count) = emitted (current.map (· ++ zeroBytes count)) := by
  have past := split_past current (zeroBytes count) [] fun suffix isSuffix _ => by
    have plain : suffix = zeroBytes suffix.length :=
      List.eq_replicate_iff.mpr ⟨rfl, fun byte member => List.eq_of_mem_replicate (isSuffix.subset member)⟩
    rw [List.append_nil, plain]
    exact zeros_plain _
  rw [List.append_nil] at past
  rw [past, split_nil]

end Lvqr.Codec
