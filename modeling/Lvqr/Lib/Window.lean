import Mathlib.Data.List.DropRight
import Mathlib.Data.List.Rotate
import Mathlib.Data.List.Sort

set_option autoImplicit false

-- The last items of a history, in a queue that drops its front and in an array that
-- is overwritten in a circle.
namespace Window

variable {Item : Type}

def push (capacity : Nat) (kept : List Item) (item : Item) : List Item :=
  (if kept.length < capacity then kept else kept.tail) ++ [item]

theorem rtake_length (count : Nat) (history : List Item) : (history.rtake count).length = min count history.length := by
  rw [List.rtake, List.length_drop]
  omega

theorem push_rtake (capacity : Nat) (positive : 0 < capacity) (history : List Item) (item : Item) :
    push capacity (history.rtake capacity) item = (history ++ [item]).rtake capacity := by
  obtain ⟨before, rfl⟩ : ∃ before, capacity = before + 1 := ⟨capacity - 1, by omega⟩
  rw [push, List.rtake_concat_succ, rtake_length]
  split
  · rename_i room
    rw [List.rtake, List.rtake]
    congr 1
    rw [Nat.sub_eq_zero_of_le (by omega), Nat.sub_eq_zero_of_le (by omega)]
  · rename_i full
    rw [List.rtake, List.rtake, List.tail_drop]
    congr 2
    omega

theorem pushed (capacity : Nat) (positive : 0 < capacity) (history : List Item) :
    history.foldl (push capacity) [] = history.rtake capacity := by
  induction history using List.reverseRecOn with
  | nil => exact (List.rtake_nil capacity).symm
  | append_singleton history item ih =>
      rw [List.foldl_append, List.foldl_cons, List.foldl_nil, ih, push_rtake capacity positive]

end Window

-- `next` is the slot that is overwritten next once all slots are filled.
structure Circular (Item : Type) where
  slots : List Item
  next : Nat

namespace Circular

variable {Item : Type}

def empty : Circular Item := ⟨[], 0⟩

def push (capacity : Nat) (circular : Circular Item) (item : Item) : Circular Item :=
  if circular.slots.length < capacity then { circular with slots := circular.slots ++ [item] }
  else ⟨circular.slots.set circular.next item, (circular.next + 1) % capacity⟩

-- From the oldest item to the newest.
def view (circular : Circular Item) : List Item := circular.slots.drop circular.next ++ circular.slots.take circular.next

structure Valid (capacity : Nat) (circular : Circular Item) : Prop where
  bounded : circular.slots.length ≤ capacity
  inside : circular.next < capacity
  start : circular.slots.length < capacity → circular.next = 0

theorem push_valid (capacity : Nat) (circular : Circular Item) (item : Item) (valid : Valid capacity circular) :
    Valid capacity (circular.push capacity item) := by
  have bounded := valid.bounded
  have inside := valid.inside
  rw [push]
  split
  · rename_i room
    refine ⟨?_, inside, fun _ => valid.start room⟩
    simp only [List.length_append, List.length_singleton]
    omega
  · rename_i full
    refine ⟨?_, Nat.mod_lt _ (by omega), fun room => absurd room ?_⟩
    · rwa [List.length_set]
    · rwa [List.length_set]

theorem view_push (capacity : Nat) (circular : Circular Item) (item : Item) (valid : Valid capacity circular) :
    (circular.push capacity item).view = Window.push capacity circular.view item := by
  obtain ⟨slots, next⟩ := circular
  obtain ⟨bounded, inside, start⟩ := valid
  dsimp only at bounded inside start
  have size : (view ⟨slots, next⟩).length = slots.length := by
    simp only [view, List.length_append, List.length_drop, List.length_take]
    omega
  rw [push, Window.push, size]
  dsimp only
  split
  · rename_i room
    rw [start room]
    simp [view]
  · rename_i full
    have filled : slots.length = capacity := by omega
    obtain ⟨front, back, rfl, here⟩ : ∃ front back, slots = front ++ back ∧ front.length = next :=
      ⟨slots.take next, slots.drop next, (List.take_append_drop next slots).symm, by rw [List.length_take]; omega⟩
    cases back with
    | nil =>
        rw [List.append_nil] at filled
        omega
    | cons oldest back =>
        subst here
        have around : (view ⟨front ++ oldest :: back, front.length⟩).tail = back ++ front := by
          simp [view]
        rw [around, List.set_append_right _ _ (Nat.le_refl _), Nat.sub_self, List.set_cons_zero]
        by_cases last : back = []
        · subst last
          have wraps : (front.length + 1) % capacity = 0 := by
            rw [← filled, List.length_append, List.length_singleton, Nat.mod_self]
          simp [view, wraps]
        · have more := List.length_pos_iff.mpr last
          have stays : (front.length + 1) % capacity = (front ++ [item]).length := by
            rw [List.length_append, List.length_cons] at filled
            rw [Nat.mod_eq_of_lt (by omega), List.length_append, List.length_singleton]
          have split : front ++ item :: back = (front ++ [item]) ++ back := by simp
          rw [view, stays, split, List.drop_left, List.take_left, List.append_assoc]

theorem pushed (capacity : Nat) (positive : 0 < capacity) (history : List Item) :
    Valid capacity (history.foldl (push capacity) empty) ∧
      (history.foldl (push capacity) empty).view = history.rtake capacity := by
  induction history using List.reverseRecOn with
  | nil => exact ⟨⟨Nat.zero_le _, positive, fun _ => rfl⟩, (List.rtake_nil capacity).symm⟩
  | append_singleton history item ih =>
      obtain ⟨valid, seen⟩ := ih
      rw [List.foldl_append, List.foldl_cons, List.foldl_nil]
      refine ⟨push_valid capacity _ item valid, ?_⟩
      rw [view_push capacity _ item valid, seen, Window.push_rtake capacity positive]

theorem view_perm (circular : Circular Item) : circular.view.Perm circular.slots := by
  rw [view]
  exact List.perm_append_comm.trans (List.Perm.of_eq (List.take_append_drop _ _))

end Circular

-- The values of a list by their rank.
namespace Ranked

variable {Value : Type} [LinearOrder Value]

-- So many values are smaller at most, and more are not greater.
structure IsRanked (values : List Value) (rank : Nat) (value : Value) : Prop where
  smaller : values.countP (· < value) ≤ rank
  notGreater : rank < values.countP (· ≤ value)

theorem ranked_unique (values : List Value) (rank : Nat) (first second : Value) (isFirst : IsRanked values rank first)
    (isSecond : IsRanked values rank second) : first = second := by
  have below : ∀ low high, IsRanked values rank low → IsRanked values rank high → ¬ low < high := by
    intro low high isLow isHigh less
    have counted : values.countP (· ≤ low) ≤ values.countP (· < high) :=
      List.countP_mono_left fun value _ notGreater =>
        decide_eq_true (lt_of_le_of_lt (of_decide_eq_true notGreater) less)
    have above := isLow.notGreater
    have under := isHigh.smaller
    omega
  exact le_antisymm (not_lt.mp (below second first isSecond isFirst)) (not_lt.mp (below first second isFirst isSecond))

theorem ranked_perm {first second : List Value} (perm : first.Perm second) (rank : Nat) (value : Value) :
    IsRanked first rank value ↔ IsRanked second rank value := by
  constructor
  · rintro ⟨smaller, notGreater⟩
    exact ⟨perm.countP_eq _ ▸ smaller, perm.countP_eq _ ▸ notGreater⟩
  · rintro ⟨smaller, notGreater⟩
    exact ⟨(perm.countP_eq _).symm ▸ smaller, (perm.countP_eq _).symm ▸ notGreater⟩

theorem sorted_ranked (values : List Value) (sorted : values.Pairwise (· ≤ ·)) (rank : Nat) (inside : rank < values.length) :
    IsRanked values rank values[rank] := by
  have split : values = values.take rank ++ values[rank] :: values.drop (rank + 1) := by
    rw [List.getElem_cons_drop, List.take_append_drop]
  have ordered := sorted
  rw [split, List.pairwise_append, List.pairwise_cons] at ordered
  obtain ⟨_, ⟨after, _⟩, before⟩ := ordered
  have length : (values.take rank).length = rank := List.length_take_of_le (Nat.le_of_lt inside)
  refine ⟨?_, ?_⟩
  · -- Nothing from the rank on is smaller.
    have none : (values[rank] :: values.drop (rank + 1)).countP (· < values[rank]) = 0 := by
      rw [List.countP_eq_zero]
      intro value member
      have notLess : ¬ value < values[rank] := by
        rcases List.mem_cons.mp member with rfl | later
        · exact lt_irrefl _
        · exact not_lt.mpr (after value later)
      simpa using notLess
    have counted : values.countP (· < values[rank]) = (values.take rank).countP (· < values[rank]) +
        (values[rank] :: values.drop (rank + 1)).countP (· < values[rank]) := by
      rw [← List.countP_append, ← split]
    rw [counted, none, Nat.add_zero]
    exact Nat.le_trans List.countP_le_length (Nat.le_of_eq length)
  · have all : (values.take rank).countP (· ≤ values[rank]) = (values.take rank).length :=
      List.countP_eq_length.mpr fun value member => decide_eq_true (before value member _ List.mem_cons_self)
    have here : 0 < (values[rank] :: values.drop (rank + 1)).countP (· ≤ values[rank]) :=
      List.countP_pos_iff.mpr ⟨_, List.mem_cons_self, decide_eq_true (le_refl _)⟩
    have counted : values.countP (· ≤ values[rank]) = (values.take rank).countP (· ≤ values[rank]) +
        (values[rank] :: values.drop (rank + 1)).countP (· ≤ values[rank]) := by
      rw [← List.countP_append, ← split]
    rw [counted, all, length]
    omega

end Ranked
