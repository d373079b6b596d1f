import Mathlib.Data.List.Basic
import Mathlib.Data.List.Count

set_option autoImplicit false

-- A record of things begun and ended. Whether every end had its beginning is a
-- matter of every prefix; whether every beginning has its end, of the whole record.
namespace Brackets

inductive Mark (Item : Type) where
  | opens (item : Item)
  | closes (item : Item)
deriving DecidableEq, Repr

variable {Item : Type} [DecidableEq Item]

def opened (marks : List (Mark Item)) (item : Item) : Nat := marks.count (.opens item)

def closed (marks : List (Mark Item)) (item : Item) : Nat := marks.count (.closes item)

def outstanding (marks : List (Mark Item)) (item : Item) : Nat := opened marks item - closed marks item

def Covered (marks : List (Mark Item)) : Prop :=
  ∀ seen, seen <+: marks → ∀ item, closed seen item ≤ opened seen item

def Settled (marks : List (Mark Item)) : Prop := ∀ item, closed marks item = opened marks item

theorem covered_nil : Covered ([] : List (Mark Item)) := by
  intro seen isPrefix item
  rw [List.prefix_nil.mp isPrefix]
  exact Nat.le_refl 0

theorem covered_earlier (first second : List (Mark Item)) (covered : Covered (first ++ second)) : Covered first :=
  fun seen isPrefix => covered seen (isPrefix.trans (List.prefix_append first second))

@[simp] theorem opened_snoc (marks : List (Mark Item)) (mark : Mark Item) (item : Item) :
    opened (marks ++ [mark]) item = opened marks item + if mark = .opens item then 1 else 0 := by
  simp [opened, List.count_append, List.count_singleton]

@[simp] theorem closed_snoc (marks : List (Mark Item)) (mark : Mark Item) (item : Item) :
    closed (marks ++ [mark]) item = closed marks item + if mark = .closes item then 1 else 0 := by
  simp [closed, List.count_append, List.count_singleton]

theorem covered_snoc (marks : List (Mark Item)) (mark : Mark Item) :
    Covered (marks ++ [mark]) ↔
      Covered marks ∧ ∀ item, mark = .closes item → 0 < outstanding marks item := by
  constructor
  · intro covered
    refine ⟨covered_earlier marks [mark] covered, ?_⟩
    intro item isClose
    have whole := covered (marks ++ [mark]) (List.prefix_refl _) item
    subst isClose
    simp only [closed_snoc, opened_snoc, if_true, reduceCtorEq, if_false] at whole
    rw [outstanding]
    omega
  · rintro ⟨covered, free⟩ seen isPrefix item
    rcases List.prefix_concat_iff.mp isPrefix with whole | part
    · have before := covered marks (List.prefix_refl _) item
      rw [whole, closed_snoc, opened_snoc]
      by_cases isClose : mark = .closes item
      · have room := free item isClose
        rw [outstanding] at room
        rw [if_pos isClose]
        omega
      · rw [if_neg isClose]
        omega
    · exact covered seen part item

theorem covered_opens (marks : List (Mark Item)) (item : Item) (covered : Covered marks) :
    Covered (marks ++ [.opens item]) :=
  (covered_snoc marks (.opens item)).mpr ⟨covered, fun _ same => nomatch same⟩

theorem covered_closes (marks : List (Mark Item)) (item : Item) :
    Covered (marks ++ [.closes item]) ↔ Covered marks ∧ 0 < outstanding marks item := by
  rw [covered_snoc]
  refine and_congr_right fun _ => ⟨fun free => free item rfl, ?_⟩
  intro room other same
  cases same
  exact room

theorem settled_iff_outstanding (marks : List (Mark Item)) (covered : Covered marks) :
    Settled marks ↔ ∀ item, outstanding marks item = 0 := by
  refine forall_congr' fun item => ?_
  have bound := covered marks (List.prefix_refl _) item
  rw [outstanding]
  omega

-- Closing one more thing settles the record exactly when it was all that was open.
theorem settled_closes (marks : List (Mark Item)) (item : Item) (covered : Covered marks) :
    Covered (marks ++ [.closes item]) ∧ Settled (marks ++ [.closes item]) ↔
      ∀ other, outstanding marks other = if other = item then 1 else 0 := by
  rw [covered_closes]
  constructor
  · rintro ⟨⟨_, room⟩, settled⟩ other
    have total := settled other
    have bound := covered marks (List.prefix_refl _) other
    rw [closed_snoc, opened_snoc] at total
    rw [outstanding] at room ⊢
    by_cases same : other = item
    · subst same
      simp only [if_true, reduceCtorEq, if_false] at total ⊢
      omega
    · have differ : (Mark.closes item : Mark Item) ≠ .closes other := fun h => same (Mark.closes.inj h).symm
      simp only [if_neg same, if_neg differ, reduceCtorEq, if_false] at total ⊢
      omega
  · intro only
    refine ⟨⟨covered, by rw [only item, if_pos rfl]; exact Nat.one_pos⟩, ?_⟩
    intro other
    have here := only other
    have bound := covered marks (List.prefix_refl _) other
    rw [outstanding] at here
    rw [closed_snoc, opened_snoc]
    by_cases same : other = item
    · subst same
      simp only [if_true, reduceCtorEq, if_false] at here ⊢
      omega
    · have differ : (Mark.closes item : Mark Item) ≠ .closes other := fun h => same (Mark.closes.inj h).symm
      simp only [if_neg same, if_neg differ, reduceCtorEq, if_false] at here ⊢
      omega

end Brackets
