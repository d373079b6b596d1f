import Lvqr.Rtsp.Framing
import Mathlib.Data.List.Perm.Basic

set_option autoImplicit false

-- The headers of a request live in a hash map under their spelling, and a lookup
-- walks the map in its own order. Any order of the entries may be the map's.
namespace Lvqr.Rtsp

structure OrderIndependent (headers : Headers) : Prop where
  lookup : ∀ first second : Headers, first.Perm headers → second.Perm headers → ∀ key, first.get key = second.get key
  framing : ∀ first second : Headers, first.Perm headers → second.Perm headers → contentLength first = contentLength second

def field (line : List Char) : Option (String × String) :=
  (Text.splitOnce ':' line).map fun (key, value) => (String.ofList (Text.trim key), String.ofList (Text.trim value))

-- The header lines of a request, behind its first line.
def fields (header : List Char) : List (String × String) := ((Text.lines header).drop 1).filterMap field

def lastValue (fields : List (String × String)) (name : String) : Option String :=
  (fields.reverse.find? fun entry => entry.1 = name).map Prod.snd

-- Two spellings of one name end up with one value.
def Unambiguous (fields : List (String × String)) : Prop :=
  ∀ first second value other, Headers.sameName first second = true → lastValue fields first = some value →
    lastValue fields second = some other → value = other

namespace Headers

theorem same_name_trans {first second third : String} (left : sameName first third = true)
    (right : sameName second third = true) : sameName first second = true := by
  simp only [sameName, decide_eq_true_eq] at left right ⊢
  exact left.trans right.symm

theorem get_some (headers : Headers) (key value : String) (found : headers.get key = some value) :
    ∃ entry ∈ headers, sameName entry.1 key = true ∧ entry.2 = value := by
  obtain ⟨entry, isFirst, isValue⟩ := Option.map_eq_some_iff.mp found
  have matched := List.find?_some isFirst
  exact ⟨entry, List.mem_of_find?_eq_some isFirst, matched, isValue⟩

theorem get_none_iff (headers : Headers) (key : String) :
    headers.get key = none ↔ ∀ entry ∈ headers, sameName entry.1 key ≠ true := by
  rw [get, Option.map_eq_none_iff, List.find?_eq_none]

theorem insert_mem (headers : Headers) (key value : String) (entry : String × String) :
    entry ∈ headers.insert key value ↔ entry = (key, value) ∨ entry ∈ headers ∧ entry.1 ≠ key := by
  rw [insert]
  split
  · rename_i present
    obtain ⟨old, among, isKey⟩ := List.any_eq_true.mp present
    rw [List.mem_map]
    constructor
    · intro ⟨before, member, isEntry⟩
      split at isEntry
      · exact .inl isEntry.symm
      · rename_i other
        exact .inr (isEntry ▸ ⟨member, other⟩)
    · intro cases
      rcases cases with rfl | ⟨member, other⟩
      · exact ⟨old, among, if_pos (of_decide_eq_true isKey)⟩
      · exact ⟨entry, member, if_neg other⟩
  · rename_i absent
    rw [List.mem_append, List.mem_singleton, or_comm]
    refine or_congr_right (iff_self_and.mpr fun member isKey => absent ?_)
    exact List.any_eq_true.mpr ⟨entry, member, decide_eq_true isKey⟩

-- One order finds the one entry first and another the other.
theorem order_independent_iff (headers : Headers) :
    OrderIndependent headers ↔
      ∀ first ∈ headers, ∀ second ∈ headers, sameName first.1 second.1 = true → first.2 = second.2 := by
  constructor
  · intro independent first firstIn second secondIn same
    have looked := independent.lookup _ _ (List.perm_cons_erase firstIn).symm (List.perm_cons_erase secondIn).symm
      second.1
    have itself : sameName second.1 second.1 = true := decide_eq_true rfl
    simp only [get, List.find?_cons, same, itself, Option.map_some] at looked
    exact Option.some.inj looked
  · intro agree
    have lookup : ∀ first second : Headers, first.Perm headers → second.Perm headers →
        ∀ key, first.get key = second.get key := by
      intro first second firstPerm secondPerm key
      cases found : first.get key with
      | none =>
          have absent := (get_none_iff first key).mp found
          symm
          rw [get_none_iff]
          exact fun entry member => absent entry (firstPerm.mem_iff.mpr (secondPerm.mem_iff.mp member))
      | some value =>
          obtain ⟨entry, member, isName, rfl⟩ := get_some first key value found
          cases other : second.get key with
          | none =>
              have absent := (get_none_iff second key).mp other
              exact absurd isName (absent entry (secondPerm.mem_iff.mpr (firstPerm.mem_iff.mp member)))
          | some value =>
              obtain ⟨last, lastIn, isLast, rfl⟩ := get_some second key value other
              have same := agree entry (firstPerm.mem_iff.mp member) last (secondPerm.mem_iff.mp lastIn)
                (same_name_trans isName isLast)
              rw [same]
    refine ⟨lookup, fun first second firstPerm secondPerm => ?_⟩
    rw [contentLength, contentLength, lookup first second firstPerm secondPerm]

end Headers

theorem last_value_append (fields : List (String × String)) (entry : String × String) (name : String) :
    lastValue (fields ++ [entry]) name = if entry.1 = name then some entry.2 else lastValue fields name := by
  rw [lastValue, List.reverse_append, List.reverse_singleton, List.singleton_append]
  split
  · rename_i isName
    simp only [List.find?_cons, isName, decide_true, Option.map_some]
  · rename_i other
    simp only [List.find?_cons, other, decide_false, lastValue]

-- What the map holds after some lines is the last value under each spelling.
theorem parse_headers_last (before headers : Headers) (seen : List (String × String)) (lines : List (List Char))
    (holds : ∀ name value, (name, value) ∈ before ↔ lastValue seen name = some value)
    (parsed : parseHeaders before lines = .ok headers) (name value : String) :
    (name, value) ∈ headers ↔ lastValue (seen ++ lines.filterMap field) name = some value := by
  induction lines generalizing before seen with
  | nil =>
      obtain rfl := Except.ok.inj parsed
      rw [List.filterMap_nil, List.append_nil]
      exact holds name value
  | cons line lines ih =>
      rw [parseHeaders] at parsed
      cases split : Text.splitOnce ':' line with
      | none =>
          rw [parseHeader, split] at parsed
          cases parsed
      | some parts =>
          obtain ⟨key, text⟩ := parts
          rw [parseHeader, split] at parsed
          have isField : field line = some (String.ofList (Text.trim key), String.ofList (Text.trim text)) := by
            rw [field, split]
            rfl
          rw [List.filterMap_cons_some isField, List.append_cons]
          refine ih _ _ ?_ parsed
          intro other kept
          rw [Headers.insert_mem, holds, last_value_append]
          dsimp only
          split
          · rename_i isName
            subst isName
            simp [eq_comm]
          · rename_i different
            simp [Ne.symm different]

theorem parse_head_fields (header : List Char) (method : Method) (uri : String) (headers : Headers)
    (parsed : parseHead header = .ok (method, uri, headers)) (name value : String) :
    (name, value) ∈ headers ↔ lastValue (fields header) name = some value := by
  unfold parseHead at parsed
  split at parsed
  · cases parsed
  · rename_i requestLine lines isLines
    split at parsed
    · cases parsed
    · split at parsed
      · cases parsed
      · rename_i found
        cases parsed
        rw [fields, isLines, List.drop_one, List.tail_cons, ← List.nil_append (lines.filterMap field)]
        refine parse_headers_last [] _ [] lines ?_ found name value
        intro other kept
        exact iff_of_false List.not_mem_nil fun none => nomatch none

theorem header_order_iff (header : List Char) (method : Method) (uri : String) (headers : Headers)
    (parsed : parseHead header = .ok (method, uri, headers)) :
    OrderIndependent headers ↔ Unambiguous (fields header) := by
  have holds := parse_head_fields header method uri headers parsed
  rw [Headers.order_independent_iff]
  constructor
  · intro agree first second value other same isValue isOther
    exact agree (first, value) ((holds first value).mpr isValue) (second, other) ((holds second other).mpr isOther) same
  · intro unambiguous first firstIn second secondIn same
    exact unambiguous first.1 second.1 first.2 second.2 same ((holds _ _).mp firstIn) ((holds _ _).mp secondIn)

def repeatedHead : List Char := "OPTIONS * RTSP/1.0\r\nCSeq: 1\r\nCSeq: 2".toList

theorem repeated_head_independent :
    OrderIndependent [("CSeq", "2")] ↔ Unambiguous (fields repeatedHead) :=
  header_order_iff repeatedHead .options "*" [("CSeq", "2")] (by decide)

def respelledHead : List Char := "OPTIONS * RTSP/1.0\r\nContent-Length: 5\r\ncontent-length: 0".toList

theorem respelled_head_dependent : ¬ ∀ header method uri headers,
    parseHead header = .ok (method, uri, headers) → OrderIndependent headers := by
  intro always
  have independent := always respelledHead .options "*" [("Content-Length", "5"), ("content-length", "0")]
    (by decide)
  have same := independent.framing [("Content-Length", "5"), ("content-length", "0")]
    [("content-length", "0"), ("Content-Length", "5")] (.refl _) (.swap _ _ _)
  revert same
  decide

end Lvqr.Rtsp
