import Mathlib.Data.List.Basic

set_option autoImplicit false

-- References that are paths alone (no scheme, authority, query or fragment),
-- resolved against the path of the document they stand in. A path is the text
-- behind the slash of the root.
namespace Reference

def segments (path : List Char) : List (List Char) := path.splitOn '/'

def join (parts : List (List Char)) : List Char := ['/'].intercalate parts

def DotSegment (segment : List Char) : Prop := segment = ['.'] ∨ segment = ['.', '.']

instance (segment : List Char) : Decidable (DotSegment segment) := inferInstanceAs (Decidable (_ ∨ _))

-- `done` is what is kept so far, the latest segment first. A dot segment at the
-- end leaves the slash in front of it.
def removeDots : List (List Char) → List (List Char) → List (List Char)
  | done, [] => done.reverse
  | done, segment :: rest =>
      let kept := if segment = ['.'] then done else if segment = ['.', '.'] then done.tail else segment :: done
      removeDots (if DotSegment segment ∧ rest = [] then [] :: kept else kept) rest

theorem remove_dots_nil (done : List (List Char)) : removeDots done [] = done.reverse := rfl

theorem remove_dots_cons (done rest : List (List Char)) (segment : List Char) :
    removeDots done (segment :: rest) =
      removeDots (if DotSegment segment ∧ rest = []
        then [] :: if segment = ['.'] then done else if segment = ['.', '.'] then done.tail else segment :: done
        else if segment = ['.'] then done else if segment = ['.', '.'] then done.tail else segment :: done) rest := rfl

def resolve (base : List Char) : List Char → List Char
  | [] => base
  | '/' :: path => join (removeDots [] (segments path))
  | reference => join (removeDots [] ((segments base).dropLast ++ segments reference))

def Clean (path : List Char) : Prop := ∀ segment ∈ segments path, ¬ DotSegment segment

instance (path : List Char) : Decidable (Clean path) := List.decidableBAll _ _

@[simp] theorem join_segments (path : List Char) : join (segments path) = path := List.intercalate_splitOn '/'

theorem segments_append (front back : List Char) : segments (front ++ '/' :: back) = segments front ++ segments back :=
  List.splitOn_append_cons_self front back

theorem segments_single (path : List Char) (single : '/' ∉ path) : segments path = [path] :=
  List.splitOn_eq_singleton single

theorem segments_join (parts : List (List Char)) (single : ∀ part ∈ parts, '/' ∉ part) (nonempty : parts ≠ []) :
    segments (join parts) = parts := List.splitOn_intercalate '/' single nonempty

@[simp] theorem join_single (part : List Char) : join [part] = part := List.intercalate_singleton

theorem join_cons (part : List Char) (rest : List (List Char)) (nonempty : rest ≠ []) :
    join (part :: rest) = part ++ '/' :: join rest := by
  rw [join, List.intercalate_cons_of_ne_nil nonempty, List.append_assoc]
  rfl

theorem join_append (front back : List (List Char)) (frontNonempty : front ≠ []) (backNonempty : back ≠ []) :
    join (front ++ back) = join front ++ '/' :: join back := by
  induction front with
  | nil => exact absurd rfl frontNonempty
  | cons part front ih =>
      by_cases only : front = []
      · subst only
        rw [List.singleton_append, join_cons part back backNonempty, join_single]
      · rw [List.cons_append, join_cons part _ (List.append_ne_nil_of_right_ne_nil _ backNonempty), ih only,
          join_cons part front only, List.append_assoc, List.cons_append]

theorem segment_single (path segment : List Char) (member : segment ∈ segments path) : '/' ∉ segment := by
  induction path generalizing segment with
  | nil =>
      obtain rfl := List.mem_singleton.mp member
      exact List.not_mem_nil
  | cons char path ih =>
      rw [segments, List.splitOn_cons_eq_if_modifyHead] at member
      split at member
      · exact (List.mem_cons.mp member).elim (fun empty => empty ▸ List.not_mem_nil) (ih segment)
      · rename_i other
        obtain ⟨first, rest, parts⟩ := List.exists_cons_of_ne_nil (List.splitOn_ne_nil '/' path)
        have inner : ∀ part ∈ first :: rest, '/' ∉ part := by
          rw [← parts]
          exact ih
        rw [parts, List.modifyHead_cons] at member
        cases List.mem_cons.mp member with
        | inl head =>
            rw [head, List.mem_cons, not_or]
            exact ⟨fun same => other (by simp [← same]), inner first List.mem_cons_self⟩
        | inr tail => exact inner segment (List.mem_cons_of_mem first tail)

theorem clean_append (front back : List Char) : Clean (front ++ '/' :: back) ↔ Clean front ∧ Clean back := by
  simp only [Clean, segments_append, List.forall_mem_append]

theorem clean_single (path : List Char) (single : '/' ∉ path) : Clean path ↔ ¬ DotSegment path := by
  simp only [Clean, segments_single path single, List.mem_singleton, forall_eq]

theorem remove_dots_append (done front rest : List (List Char)) (clean : ∀ part ∈ front, ¬ DotSegment part) :
    removeDots done (front ++ rest) = removeDots (front.reverse ++ done) rest := by
  induction front generalizing done with
  | nil => rfl
  | cons part front ih =>
      obtain ⟨plain, others⟩ := List.forall_mem_cons.mp clean
      have here : part ≠ ['.'] := fun same => plain (.inl same)
      have up : part ≠ ['.', '.'] := fun same => plain (.inr same)
      rw [List.cons_append, remove_dots_cons]
      simp only [if_neg here, if_neg up, plain, false_and, if_false]
      rw [ih _ others, List.reverse_cons, List.append_assoc, List.singleton_append]

theorem remove_dots_clean (done parts : List (List Char)) (clean : ∀ part ∈ parts, ¬ DotSegment part) :
    removeDots done parts = done.reverse ++ parts := by
  rw [← List.append_nil parts, remove_dots_append done parts [] clean, remove_dots_nil]
  simp

-- What is left has neither dots nor slashes in its segments, where what came in had no slashes.
theorem removed_parts (done parts : List (List Char)) (kept : ∀ part ∈ done, ¬ DotSegment part ∧ '/' ∉ part)
    (single : ∀ part ∈ parts, '/' ∉ part) : ∀ part ∈ removeDots done parts, ¬ DotSegment part ∧ '/' ∉ part := by
  induction parts generalizing done with
  | nil => simpa [remove_dots_nil] using kept
  | cons segment rest ih =>
      obtain ⟨first, others⟩ := List.forall_mem_cons.mp single
      rw [remove_dots_cons]
      refine ih _ ?_ others
      have next : ∀ part ∈ (if segment = ['.'] then done else if segment = ['.', '.'] then done.tail
          else segment :: done), ¬ DotSegment part ∧ '/' ∉ part := by
        split
        · exact kept
        · split
          · exact fun part inside => kept part (List.mem_of_mem_tail inside)
          · rename_i here up
            exact List.forall_mem_cons.mpr ⟨⟨fun dot => dot.elim here up, first⟩, kept⟩
      split
      · exact List.forall_mem_cons.mpr ⟨⟨by simp [DotSegment], List.not_mem_nil⟩, next⟩
      · exact next

theorem remove_dots_nonempty (done parts : List (List Char)) (nonempty : parts ≠ []) :
    removeDots done parts = [] → False := by
  induction parts generalizing done with
  | nil => exact absurd rfl nonempty
  | cons segment rest ih =>
      rw [remove_dots_cons]
      by_cases last : rest = []
      · subst last
        split
        · simp [remove_dots_nil]
        · rename_i plain
          have notDot : ¬ DotSegment segment := fun dot => plain ⟨dot, rfl⟩
          have here : segment ≠ ['.'] := fun same => notDot (.inl same)
          have up : segment ≠ ['.', '.'] := fun same => notDot (.inr same)
          simp [remove_dots_nil, here, up]
      · exact ih _ last

theorem clean_removed (parts : List (List Char)) (single : ∀ part ∈ parts, '/' ∉ part) (nonempty : parts ≠ []) :
    Clean (join (removeDots [] parts)) := by
  have left := removed_parts [] parts (by simp) single
  intro segment member
  rw [segments_join _ (fun part inside => (left part inside).2) (remove_dots_nonempty [] parts nonempty)] at member
  exact (left segment member).1

def Relative (reference : List Char) : Prop := reference ≠ [] ∧ reference.head? ≠ some '/'

theorem resolve_relative (base reference : List Char) (relative : Relative reference) :
    resolve base reference = join (removeDots [] ((segments base).dropLast ++ segments reference)) := by
  obtain ⟨nonempty, notRooted⟩ := relative
  unfold resolve
  split
  · exact absurd rfl nonempty
  · exact absurd rfl notRooted
  · rfl

theorem clean_resolve (base reference : List Char) (relative : Relative reference) : Clean (resolve base reference) := by
  rw [resolve_relative base reference relative]
  refine clean_removed _ (fun part inside => ?_) ?_
  · exact (List.mem_append.mp inside).elim (fun front => segment_single base part (List.dropLast_subset _ front))
      (segment_single reference part)
  · exact List.append_ne_nil_of_right_ne_nil _ (List.splitOn_ne_nil '/' reference)

theorem directory_segments (directory file : List Char) (single : '/' ∉ file) :
    (segments (directory ++ '/' :: file)).dropLast = segments directory := by
  rw [segments_append, segments_single file single, List.dropLast_concat]

-- A reference without dots names what stands beside the document.
theorem resolve_beside (directory file reference : List Char) (single : '/' ∉ file) (clean : Clean directory)
    (relative : Relative reference) (plain : Clean reference) :
    resolve (directory ++ '/' :: file) reference = directory ++ '/' :: reference := by
  rw [resolve_relative _ reference relative, directory_segments directory file single, ← segments_append,
    remove_dots_clean [] _ ((clean_append directory reference).mpr ⟨clean, plain⟩)]
  exact join_segments _

-- A leading dot segment stands for the directory of the document.
theorem resolve_here (directory file reference : List Char) (single : '/' ∉ file) (clean : Clean directory)
    (plain : Clean reference) :
    resolve (directory ++ '/' :: file) ('.' :: '/' :: reference) = directory ++ '/' :: reference := by
  have here : segments ('.' :: '/' :: reference) = ['.'] :: segments reference := segments_append ['.'] reference
  have more : segments reference ≠ [] := List.splitOn_ne_nil '/' reference
  rw [resolve_relative _ _ ⟨by simp, by simp⟩, directory_segments directory file single, here,
    remove_dots_append [] _ _ clean, remove_dots_cons]
  simp only [if_true, more, and_false, if_false]
  rw [remove_dots_clean _ _ plain, List.append_nil, List.reverse_reverse, ← segments_append]
  exact join_segments _

end Reference
