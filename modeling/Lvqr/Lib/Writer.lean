import Mathlib.Data.List.Basic

set_option autoImplicit false

-- Writers that extend a buffer and may fail. A length is known behind the items that
-- it counts, so it is written over a hole that was left in front of them.
namespace Writer

variable {Item : Type}

def put (items : List Item) (buffer : List Item) : Option (List Item) := some (buffer ++ items)

def patch (position : Nat) (items buffer : List Item) : List Item :=
  buffer.take position ++ (items ++ buffer.drop (position + items.length))

-- From every buffer the writer extends it by the items, or it fails.
def Yields (writer : List Item → Option (List Item)) (items : Option (List Item)) : Prop :=
  ∀ buffer, writer buffer = items.map (buffer ++ ·)

theorem put_yields (items : List Item) : Yields (put items) (some items) := fun _ => rfl

theorem Yields.next {first second : List Item → Option (List Item)} {items others : Option (List Item)}
    (yields : Yields first items) (follows : Yields second others) :
    Yields (first >=> second) (items.bind fun front => others.map (front ++ ·)) := by
  intro buffer
  show (first buffer).bind second = _
  rw [yields]
  cases items with
  | none => rfl
  | some front =>
      rw [Option.map_some, Option.bind_some, Option.bind_some, follows]
      cases others with
      | none => rfl
      | some rest => exact congrArg some (List.append_assoc buffer front rest)

-- What is written over a hole takes its place.
theorem patch_hole (front hole items rest : List Item) (sized : hole.length = items.length) :
    patch front.length items (front ++ (hole ++ rest)) = front ++ (items ++ rest) := by
  have behind : (front ++ (hole ++ rest)).drop (front.length + items.length) = rest := by
    rw [← List.drop_drop, List.drop_left, ← sized, List.drop_left]
  rw [patch, List.take_left, behind]

end Writer
