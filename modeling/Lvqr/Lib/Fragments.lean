import Mathlib.Data.List.Basic

set_option autoImplicit false

-- A body cut into pieces of bounded size, each saying whether it is the first
-- and whether it is the last, and the collector that puts the pieces together.
structure Fragment (α : Type*) where
  first : Bool
  last : Bool
  part : List α

namespace Fragment

variable {α : Type*}

def cut (size : Nat) (positive : 0 < size) (first : Bool) (body : List α) : List (Fragment α) :=
  if body = [] then []
  else if _fits : body.length ≤ size then [⟨first, true, body⟩]
  else ⟨first, false, body.take size⟩ :: cut size positive false (body.drop size)
termination_by body.length
decreasing_by
  rw [List.length_drop]
  omega

theorem cut_last (size : Nat) (positive : 0 < size) (first : Bool) (body : List α) (nonempty : body ≠ [])
    (fits : body.length ≤ size) : cut size positive first body = [⟨first, true, body⟩] := by
  rw [cut, if_neg nonempty, dif_pos fits]

theorem cut_more (size : Nat) (positive : 0 < size) (first : Bool) (body : List α) (long : size < body.length) :
    cut size positive first body = ⟨first, false, body.take size⟩ :: cut size positive false (body.drop size) := by
  have nonempty : body ≠ [] := by
    intro empty
    simp [empty] at long
  rw [cut, if_neg nonempty, dif_neg (Nat.not_le.mpr long)]

theorem drop_ne_nil (size : Nat) (body : List α) (long : size < body.length) : body.drop size ≠ [] := by
  intro empty
  have short := List.drop_eq_nil_iff.mp empty
  omega

-- What holds of a body that fits, and of a longer one whenever it holds of the
-- rest, holds of every body that is cut.
theorem cut_induction (size : Nat) (positive : 0 < size) {motive : Bool → List α → Prop}
    (fits : ∀ first body, body ≠ [] → body.length ≤ size → motive first body)
    (more : ∀ first body, size < body.length → motive false (body.drop size) → motive first body)
    (first : Bool) (body : List α) (nonempty : body ≠ []) : motive first body := by
  by_cases short : body.length ≤ size
  · exact fits first body nonempty short
  · have long : size < body.length := Nat.not_le.mp short
    exact more first body long
      (cut_induction size positive fits more false (body.drop size) (drop_ne_nil size body long))
termination_by body.length
decreasing_by
  rw [List.length_drop]
  omega

def endFlags {β : Type*} : List β → List Bool
  | [] => []
  | [_] => [true]
  | _ :: next :: rest => false :: endFlags (next :: rest)

theorem end_flags_cons {β : Type*} (item : β) (rest : List β) (nonempty : rest ≠ []) :
    endFlags (item :: rest) = false :: endFlags rest := by
  cases rest with
  | nil => exact absurd rfl nonempty
  | cons next rest => rfl

theorem end_flags_append {β : Type*} (front back : List β) (nonempty : back ≠ []) :
    endFlags (front ++ back) = List.replicate front.length false ++ endFlags back := by
  induction front with
  | nil => rfl
  | cons item front ih =>
      have more : front ++ back ≠ [] := List.append_ne_nil_of_right_ne_nil front nonempty
      rw [List.cons_append, end_flags_cons item (front ++ back) more, ih]
      rfl

theorem end_flags_length {β : Type*} (items : List β) : (endFlags items).length = items.length := by
  induction items with
  | nil => rfl
  | cons item rest ih =>
      cases rest with
      | nil => rfl
      | cons next rest => exact congrArg (· + 1) ih

theorem end_flags_map {β γ : Type*} (f : β → γ) (items : List β) : endFlags (items.map f) = endFlags items := by
  induction items with
  | nil => rfl
  | cons item rest ih =>
      cases rest with
      | nil => rfl
      | cons next rest => exact congrArg (List.cons false) ih

theorem cut_ne_nil (size : Nat) (positive : 0 < size) (first : Bool) (body : List α) (nonempty : body ≠ []) :
    cut size positive first body ≠ [] := by
  by_cases short : body.length ≤ size
  · rw [cut_last size positive first body nonempty short]
    exact List.cons_ne_nil _ _
  · rw [cut_more size positive first body (Nat.not_le.mp short)]
    exact List.cons_ne_nil _ _

theorem cut_last_flags (size : Nat) (positive : 0 < size) (first : Bool) (body : List α) (nonempty : body ≠ []) :
    (cut size positive first body).map Fragment.last = endFlags (cut size positive first body) := by
  apply cut_induction size positive _ _ first body nonempty
  · intro first body nonempty fits
    rw [cut_last size positive first body nonempty fits]
    rfl
  · intro first body long ih
    have more := cut_ne_nil size positive false (body.drop size) (drop_ne_nil size body long)
    rw [cut_more size positive first body long, end_flags_cons _ _ more, ← ih]
    rfl

theorem cut_part_length (size : Nat) (positive : 0 < size) (first : Bool) (body : List α) (nonempty : body ≠ []) :
    ∀ fragment ∈ cut size positive first body, fragment.part.length ≤ size := by
  apply cut_induction size positive _ _ first body nonempty
  · intro first body nonempty fits fragment member
    rw [cut_last size positive first body nonempty fits, List.mem_singleton] at member
    rw [member]
    exact fits
  · intro first body long ih fragment member
    rw [cut_more size positive first body long] at member
    cases List.mem_cons.mp member with
    | inl here =>
        rw [here]
        exact List.length_take_le size body
    | inr later => exact ih fragment later

def lead (head : List α) (fragment : Fragment α) : Fragment α :=
  { fragment with part := if fragment.first then head ++ fragment.part else fragment.part }

def collect (pending : Option (List α)) (fragment : Fragment α) : Option (List α) × Option (List α) :=
  match if fragment.first then some fragment.part else pending.map (· ++ fragment.part) with
  | none => (none, none)
  | some collected => if fragment.last then (some collected, none) else (none, some collected)

theorem collect_whole_last (pending : Option (List α)) (fragment : Fragment α) (whole : List α)
    (complete : (collect pending fragment).1 = some whole) : fragment.last = true := by
  unfold collect at complete
  split at complete
  · cases complete
  · split at complete
    · assumption
    · cases complete

-- A piece that begins anew, or goes on where the collector stands, is added at its place.
theorem collect_placed (head start : List α) (pending : Option (List α)) (fragment : Fragment α)
    (begun : fragment.first = true → start = head) (held : fragment.first = false → ∀ buf ∈ pending, buf = start) :
    (∀ whole ∈ (collect pending (lead head fragment)).1, fragment.last = true ∧ whole = start ++ fragment.part) ∧
      ∀ buf ∈ (collect pending (lead head fragment)).2, buf = start ++ fragment.part := by
  have added : ∀ buf ∈ (if fragment.first then some (head ++ fragment.part) else pending.map (· ++ fragment.part)),
      buf = start ++ fragment.part := by
    intro buf member
    cases first : fragment.first with
    | true =>
        rw [first, if_pos rfl] at member
        rw [begun first]
        exact (Option.some.inj member).symm
    | false =>
        rw [first, if_neg Bool.false_ne_true] at member
        obtain ⟨before, pends, rfl⟩ := Option.map_eq_some_iff.mp member
        rw [held first before pends]
  have collects : collect pending (lead head fragment) =
      match (if fragment.first then some (head ++ fragment.part) else pending.map (· ++ fragment.part)) with
      | none => (none, none)
      | some collected => if fragment.last then (some collected, none) else (none, some collected) := by
    cases first : fragment.first with
    | true => simp [collect, lead, first]
    | false => simp [collect, lead, first]
  rw [collects]
  split
  · exact ⟨fun whole none => (Option.not_mem_none whole none).elim, fun buf none => (Option.not_mem_none buf none).elim⟩
  · rename_i collected isCollected
    have placed := added collected isCollected
    split
    · rename_i last
      refine ⟨fun whole member => ⟨last, ?_⟩, fun buf none => (Option.not_mem_none buf none).elim⟩
      rw [← placed]
      exact (Option.some.inj member).symm
    · refine ⟨fun whole none => (Option.not_mem_none whole none).elim, fun buf member => ?_⟩
      rw [← placed]
      exact (Option.some.inj member).symm

def collectAll (pending : Option (List α)) : List (Fragment α) → List (List α) × Option (List α)
  | [] => ([], pending)
  | fragment :: rest =>
      let (whole, next) := collect pending fragment
      let (more, last) := collectAll next rest
      (whole.toList ++ more, last)

theorem collect_cut_from (size : Nat) (positive : 0 < size) (head : List α) (first : Bool) (body : List α)
    (nonempty : body ≠ []) :
    ∀ pending start, (if first then some head else pending) = some start →
      collectAll pending ((cut size positive first body).map (lead head)) = ([start ++ body], none) := by
  apply cut_induction size positive _ _ first body nonempty
  · intro first body nonempty fits pending start started
    rw [cut_last size positive first body nonempty fits]
    cases first with
    | true => simp_all [collectAll, collect, lead]
    | false => simp_all [collectAll, collect, lead]
  · intro first body long ih pending start started
    have rest := ih (some (start ++ body.take size)) (start ++ body.take size) rfl
    rw [List.append_assoc, List.take_append_drop] at rest
    rw [cut_more size positive first body long]
    cases first with
    | true => simp_all [collectAll, collect, lead]
    | false => simp_all [collectAll, collect, lead]

theorem collect_cut (size : Nat) (positive : 0 < size) (head body : List α) (nonempty : body ≠ [])
    (pending : Option (List α)) :
    collectAll pending ((cut size positive true body).map (lead head)) = ([head ++ body], none) :=
  collect_cut_from size positive head true body nonempty pending head rfl

end Fragment
