import Lvqr.Lib.Text

set_option autoImplicit false

-- Absolute paths as their components. Empty components and `.` name the directory
-- they stand in; the texts joined here have no `..`.
namespace Paths

abbrev Path := List (List Char)

def components (text : List Char) : Path :=
  (text.splitOn '/').filter fun component => component ≠ [] && component ≠ ['.']

-- A text that starts at the root replaces the directory it is joined to.
def join (directory : Path) (text : List Char) : Path :=
  if text.head? = some '/' then components text else directory ++ components text

def parent (text : List Char) : List Char :=
  match Text.rsplitOnce '/' text with
  | some (front, _) => front
  | none => []

def fileName (text : List Char) : List Char :=
  match Text.rsplitOnce '/' text with
  | some (_, back) => back
  | none => text

-- The directory of a file whose name begins with a text.
def folder (directory : Path) (text : List Char) : Path :=
  if text.head? = some '/' then components (parent text) else directory ++ components (parent text)

theorem components_slash (front back : List Char) :
    components (front ++ '/' :: back) = components front ++ components back := by
  rw [components, List.splitOn_append_cons_self, List.filter_append]
  rfl

theorem components_flat (text : List Char) (flat : '/' ∉ text) (named : 1 < text.length) :
    components text = [text] := by
  have notEmpty : text ≠ [] := by
    rintro rfl
    exact absurd named (by decide)
  have notDot : text ≠ ['.'] := by
    rintro rfl
    exact absurd named (by decide)
  rw [components, List.splitOn_eq_singleton flat]
  simp [notEmpty, notDot]

theorem file_name_flat (text : List Char) : '/' ∉ fileName text := by
  rw [fileName]
  split
  · rename_i front back found
    exact (Text.rsplit_once_some '/' text front back found).2
  · rename_i none
    exact Text.rsplit_once_none '/' text none

theorem components_append (text suffix : List Char) (flat : '/' ∉ suffix) (long : 1 < suffix.length) :
    components (text ++ suffix) = components (parent text) ++ [fileName text ++ suffix] := by
  have flatName : '/' ∉ fileName text ++ suffix := by
    simp [file_name_flat text, flat]
  have longName : 1 < (fileName text ++ suffix).length := by
    rw [List.length_append]
    omega
  have last := components_flat _ flatName longName
  revert last
  rw [fileName, parent]
  split
  · rename_i front back found
    intro last
    rw [(Text.rsplit_once_some '/' text front back found).1, List.append_assoc, List.cons_append, components_slash, last]
  · intro last
    exact last

theorem join_append (directory : Path) (text suffix : List Char) (flat : '/' ∉ suffix) (long : 1 < suffix.length) :
    join directory (text ++ suffix) = folder directory text ++ [fileName text ++ suffix] := by
  have head : (text ++ suffix).head? = some '/' ↔ text.head? = some '/' := by
    cases text with
    | nil =>
        cases suffix with
        | nil => exact absurd long (by decide)
        | cons first rest =>
            have other : first ≠ '/' := fun same => flat (same ▸ List.mem_cons_self)
            simp [other]
    | cons first rest => exact Iff.rfl
  rw [join, folder, components_append text suffix flat long]
  by_cases rooted : text.head? = some '/'
  · rw [if_pos (head.mpr rooted), if_pos rooted]
  · rw [if_neg (fun rooted' => rooted (head.mp rooted')), if_neg rooted, List.append_assoc]

end Paths
