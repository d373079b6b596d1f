import Mathlib.Data.List.Basic

set_option autoImplicit false

-- Computations that give up or panic: an index out of range and an arithmetic
-- overflow panic.
namespace Checked

inductive Halt where
  | refused
  | panicked
deriving DecidableEq, Repr

variable {Item Value Result : Type}

def refused : Except Halt Value := .error .refused

def panicked : Except Halt Value := .error .panicked

def add (limit first second : Nat) : Except Halt Nat :=
  if first + second < limit then .ok (first + second) else panicked

def sub (first second : Nat) : Except Halt Nat := if second ≤ first then .ok (first - second) else panicked

def slice (start stop : Nat) (items : List Item) : Except Halt (List Item) :=
  if start ≤ stop ∧ stop ≤ items.length then .ok ((items.take stop).drop start) else panicked

-- What the computation returns has the property.
def Returns (result : Except Halt Value) (holds : Value → Prop) : Prop := ∀ value, result = .ok value → holds value

-- It does, and it never panics.
structure Safe (result : Except Halt Value) (holds : Value → Prop) : Prop where
  calm : result ≠ panicked
  returns : Returns result holds

variable {holds : Value → Prop} {follows : Result → Prop}

theorem ok_bind (value : Value) (resume : Value → Except Halt Result) : .ok value >>= resume = resume value := rfl

theorem returns_ok (value : Value) (known : holds value) : Returns (.ok value) holds := by
  intro other same
  obtain rfl := Except.ok.inj same
  exact known

theorem returns_refused : Returns (refused : Except Halt Value) holds := nofun

theorem Returns.bind {result : Except Halt Value} {resume : Value → Except Halt Result} (returns : Returns result holds)
    (resumes : ∀ value, holds value → Returns (resume value) follows) : Returns (result >>= resume) follows := by
  cases result with
  | error halt => exact nofun
  | ok value => exact resumes value (returns value rfl)

theorem returns_any (result : Except Halt Value) : Returns result fun _ => True := fun _ _ => trivial

theorem safe_ok (value : Value) (known : holds value) : Safe (.ok value) holds := ⟨nofun, returns_ok value known⟩

theorem safe_refused : Safe (refused : Except Halt Value) holds := ⟨nofun, returns_refused⟩

theorem Safe.bind {result : Except Halt Value} {resume : Value → Except Halt Result} (safe : Safe result holds)
    (resumes : ∀ value, holds value → Safe (resume value) follows) : Safe (result >>= resume) follows := by
  refine ⟨?_, safe.returns.bind fun value known => (resumes value known).returns⟩
  cases result with
  | error halt => exact fun panics => safe.calm (congrArg Except.error (Except.error.inj panics))
  | ok value => exact (resumes value (safe.returns value rfl)).calm

theorem returns_if {asked : Prop} [Decidable asked] {first second : Except Halt Value}
    (here : asked → Returns first holds) (other : ¬ asked → Returns second holds) : Returns (if asked then first else second) holds := by
  split
  · rename_i yes
    exact here yes
  · rename_i no
    exact other no

theorem safe_if {asked : Prop} [Decidable asked] {first second : Except Halt Value} (here : asked → Safe first holds)
    (other : ¬ asked → Safe second holds) : Safe (if asked then first else second) holds := by
  split
  · rename_i yes
    exact here yes
  · rename_i no
    exact other no

theorem add_ok (limit first second : Nat) (fits : first + second < limit) :
    add limit first second = .ok (first + second) := if_pos fits

theorem add_returns (limit first second : Nat) : Returns (add limit first second) (· = first + second) :=
  returns_if (fun _ => returns_ok _ rfl) fun _ => nofun

-- A slice is as long as its bounds are apart.
theorem slice_returns (start stop : Nat) (items : List Item) :
    Returns (slice start stop items) fun part => part.length = stop - start := by
  refine returns_if (fun inside => returns_ok _ ?_) fun _ => nofun
  rw [List.length_drop, List.length_take, Nat.min_eq_left inside.2]

theorem sub_ok (first second : Nat) (fits : second ≤ first) : sub first second = .ok (first - second) := if_pos fits

theorem slice_ok (start stop : Nat) (items : List Item) (ordered : start ≤ stop) (inside : stop ≤ items.length) :
    slice start stop items = .ok ((items.take stop).drop start) := if_pos ⟨ordered, inside⟩

theorem slice_within (front middle back : List Item) :
    slice front.length (front.length + middle.length) (front ++ (middle ++ back)) = .ok middle := by
  have inside : front.length + middle.length ≤ (front ++ (middle ++ back)).length := by
    rw [List.length_append, List.length_append]
    omega
  rw [slice_ok _ _ _ (Nat.le_add_right _ _) inside, List.drop_take, List.drop_left, Nat.add_sub_cancel_left,
    List.take_left]

theorem slice_rest (front back : List Item) :
    slice front.length (front ++ back).length (front ++ back) = .ok back := by
  have read := slice_within front back []
  rwa [List.append_nil, ← List.length_append] at read

theorem add_safe (limit first second : Nat) (fits : first + second < limit) :
    Safe (add limit first second) (· = first + second) := by
  refine ⟨?_, add_returns limit first second⟩
  rw [add_ok limit first second fits]
  exact nofun

theorem sub_safe (first second : Nat) (fits : second ≤ first) : Safe (sub first second) (· = first - second) := by
  rw [sub_ok first second fits]
  exact safe_ok _ rfl

theorem slice_safe (start stop : Nat) (items : List Item) (ordered : start ≤ stop) (inside : stop ≤ items.length) :
    Safe (slice start stop items) fun part => part.length = stop - start := by
  refine ⟨?_, slice_returns start stop items⟩
  rw [slice_ok start stop items ordered inside]
  exact nofun

end Checked
