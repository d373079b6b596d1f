import Mathlib.Logic.Function.Basic
import Lvqr.Lib.Machine
import Lvqr.Lib.Table

set_option autoImplicit false

-- Several readers that share one bounded queue into one sink. A reader holds an item
-- while the queue is full.
structure Mux (Source Item : Type) where
  unread : Source → List Item
  held : Source → Option Item
  queue : List (Source × Item)
  delivered : List (Source × Item)
  stopped : Bool

namespace Mux

variable {Source Item : Type} [DecidableEq Source]

inductive Choice (Source Item : Type) where
  | produce (source : Source) (items : List Item)
  | read (source : Source)
  | offer (source : Source)
  | deliver
  | stop

def start (unread : Source → List Item) : Mux Source Item := ⟨unread, fun _ => none, [], [], false⟩

def step (capacity : Nat) (mux : Mux Source Item) : Choice Source Item → Mux Source Item
  | .produce source items => { mux with unread := Function.update mux.unread source (mux.unread source ++ items) }
  | .read source =>
      match mux.held source, mux.unread source with
      | none, item :: rest =>
          { mux with
            unread := Function.update mux.unread source rest
            held := Function.update mux.held source (some item) }
      | _, _ => mux
  | .offer source =>
      match mux.held source with
      | some item =>
          if mux.queue.length < capacity then
            { mux with
              held := Function.update mux.held source none
              queue := mux.queue ++ [(source, item)] }
          else mux
      | none => mux
  | .deliver =>
      if mux.stopped then mux
      else
        match mux.queue with
        | [] => mux
        | item :: rest => { mux with queue := rest, delivered := mux.delivered ++ [item] }
  | .stop => { mux with stopped := true }

-- Everything that a source has brought, from what was delivered to what is unread.
def brought (mux : Mux Source Item) (source : Source) : List Item :=
  Table.valuesOf mux.delivered source ++ (Table.valuesOf mux.queue source ++
    ((mux.held source).toList ++ mux.unread source))

def produced (source : Source) : Choice Source Item → List Item
  | .produce other items => if source = other then items else []
  | .read _ | .offer _ | .deliver | .stop => []

theorem values_append (first second : List (Source × Item)) (source : Source) :
    Table.valuesOf (first ++ second) source = Table.valuesOf first source ++ Table.valuesOf second source := by
  simp [Table.valuesOf]

theorem step_brought (capacity : Nat) (mux : Mux Source Item) (choice : Choice Source Item) (source : Source) :
    brought (step capacity mux choice) source = brought mux source ++ produced source choice := by
  cases choice with
  | produce other items =>
      by_cases same : source = other
      · subst same
        simp [brought, step, produced]
      · simp [brought, step, produced, same]
  | read other =>
      rw [step, produced, List.append_nil]
      split
      · rename_i item rest idle here
        by_cases same : source = other
        · subst same
          simp [brought, idle, here]
        · simp [brought, same]
      · rfl
  | offer other =>
      rw [step, produced, List.append_nil]
      split
      · rename_i item holds
        split
        · by_cases same : source = other
          · subst same
            simp [brought, holds, Table.valuesOf]
          · simp [brought, same, Table.valuesOf, Ne.symm same]
        · rfl
      · rfl
  | deliver =>
      rw [step, produced, List.append_nil]
      split
      · rfl
      · split
        · rfl
        · rename_i item rest queued
          have front : mux.queue = [item] ++ rest := queued
          simp only [brought]
          rw [front, values_append, values_append, List.append_assoc, List.append_assoc]
  | stop => exact (List.append_nil _).symm

theorem start_brought (unread : Source → List Item) (source : Source) :
    brought (start unread) source = unread source := by
  simp [brought, start, Table.valuesOf]

-- The sink has the start of what each source has brought, in its order.
theorem delivered_begins (mux : Mux Source Item) (source : Source) :
    Table.valuesOf mux.delivered source <+: brought mux source := List.prefix_append _ _

-- Neither a reader nor the sink can go on.
structure Idle (capacity : Nat) (mux : Mux Source Item) : Prop where
  running : mux.stopped = false
  reads : ∀ source, step capacity mux (.read source) = mux
  offers : ∀ source, step capacity mux (.offer source) = mux
  delivers : step capacity mux .deliver = mux

theorem idle_delivered (capacity : Nat) (mux : Mux Source Item) (room : 0 < capacity) (idle : Idle capacity mux)
    (source : Source) : Table.valuesOf mux.delivered source = brought mux source := by
  have emptied : mux.queue = [] := by
    cases queued : mux.queue with
    | nil => rfl
    | cons item rest =>
        have delivers := congrArg Mux.queue idle.delivers
        rw [step, idle.running] at delivers
        simp [queued] at delivers
  have released : mux.held source = none := by
    cases holds : mux.held source with
    | none => rfl
    | some item =>
        have offers := congrArg Mux.queue (idle.offers source)
        simp [step, holds, emptied, room] at offers
  have through : mux.unread source = [] := by
    cases here : mux.unread source with
    | nil => rfl
    | cons item rest =>
        have reads := congrFun (congrArg Mux.held (idle.reads source)) source
        simp [step, released, here] at reads
  simp [brought, emptied, released, through, Table.valuesOf]

end Mux
