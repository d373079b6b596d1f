import Mathlib.Data.List.Basic

set_option autoImplicit false

-- Cutting a byte stream into frames. A framer that only ever looks at a prefix
-- it can decide on finds the same frames however the stream arrives.
structure Framer (Byte Frame : Type*) where
  next : List Byte → Option (Frame × List Byte)
  shrinks : ∀ input frame rest, next input = some (frame, rest) → rest.length < input.length
  stable : ∀ input more frame rest, next input = some (frame, rest) → next (input ++ more) = some (frame, rest ++ more)

namespace Framer

variable {Byte Frame : Type*}

def frames (framer : Framer Byte Frame) (input : List Byte) : List Frame × List Byte :=
  match _found : framer.next input with
  | none => ([], input)
  | some (frame, rest) => (frame :: (framer.frames rest).1, (framer.frames rest).2)
termination_by input.length
decreasing_by all_goals exact framer.shrinks input frame rest _found

theorem frames_none (framer : Framer Byte Frame) (input : List Byte) (found : framer.next input = none) :
    framer.frames input = ([], input) := by
  rw [frames]
  split
  · rfl
  · simp_all

theorem frames_some (framer : Framer Byte Frame) (input rest : List Byte) (frame : Frame)
    (found : framer.next input = some (frame, rest)) :
    framer.frames input = (frame :: (framer.frames rest).1, (framer.frames rest).2) := by
  rw [frames]
  split
  · simp_all
  · simp_all

theorem frames_congr (framer : Framer Byte Frame) (a b : List Byte) (same : framer.next a = framer.next b) :
    (framer.frames a).1 = (framer.frames b).1 := by
  cases found : framer.next b with
  | none => rw [frames_none framer a (same.trans found), frames_none framer b found]
  | some next =>
      obtain ⟨frame, rest⟩ := next
      rw [frames_some framer a rest frame (same.trans found), frames_some framer b rest frame found]

theorem frames_append (framer : Framer Byte Frame) (input more : List Byte) :
    framer.frames (input ++ more) =
      ((framer.frames input).1 ++ (framer.frames ((framer.frames input).2 ++ more)).1,
        (framer.frames ((framer.frames input).2 ++ more)).2) := by
  cases found : framer.next input with
  | none => simp [frames_none framer input found]
  | some next =>
      obtain ⟨frame, rest⟩ := next
      have shorter := framer.shrinks input frame rest found
      have further := framer.stable input more frame rest found
      have ih := frames_append framer rest more
      rw [frames_some framer input rest frame found, frames_some framer (input ++ more) (rest ++ more) frame further, ih]
      rfl
termination_by input.length

-- Leftovers that no continuation can tell apart by the frames it completes.
def Interchangeable (framer : Framer Byte Frame) (a b : List Byte) : Prop :=
  ∀ more, (framer.frames (a ++ more)).1 = (framer.frames (b ++ more)).1

theorem interchangeable_refl (framer : Framer Byte Frame) (a : List Byte) : framer.Interchangeable a a :=
  fun _ => rfl

theorem interchangeable_symm (framer : Framer Byte Frame) (a b : List Byte) (same : framer.Interchangeable a b) :
    framer.Interchangeable b a :=
  fun more => (same more).symm

theorem interchangeable_trans (framer : Framer Byte Frame) (a b c : List Byte) (first : framer.Interchangeable a b)
    (second : framer.Interchangeable b c) : framer.Interchangeable a c :=
  fun more => (first more).trans (second more)

theorem interchangeable_left (framer : Framer Byte Frame) (a b data : List Byte)
    (same : framer.Interchangeable a b) :
    framer.Interchangeable (framer.frames (a ++ data)).2 (framer.frames (b ++ data)).2 := by
  intro more
  have here := same data
  have further := same (data ++ more)
  rw [← List.append_assoc, ← List.append_assoc, frames_append framer (a ++ data), frames_append framer (b ++ data),
    here] at further
  exact List.append_cancel_left further

-- A scan resumed from leftovers as good as its own finds what a single scan finds.
theorem frames_resumed (framer : Framer Byte Frame) (input kept more : List Byte)
    (same : framer.Interchangeable kept (framer.frames input).2) :
    (framer.frames (input ++ more)).1 = (framer.frames input).1 ++ (framer.frames (kept ++ more)).1 ∧
      framer.Interchangeable (framer.frames (kept ++ more)).2 (framer.frames (input ++ more)).2 := by
  rw [frames_append framer input more, same more]
  exact ⟨rfl, interchangeable_left framer _ _ more same⟩

end Framer
