import Mathlib.Data.Set.Basic

set_option autoImplicit false

-- A pool of tasks, each of which owes some things; one step replaces one task.
namespace Tasks

variable {Task Item : Type*}

def owed (debts : Task → Set Item) (tasks : List Task) : Set Item :=
  {item | ∃ task ∈ tasks, item ∈ debts task}

theorem old_owed (debts : Task → Set Item) (tasks : List Task) (index : Nat) (old : Task)
    (here : tasks[index]? = some old) : debts old ⊆ owed debts tasks :=
  fun _ debt => ⟨old, List.mem_of_getElem? here, debt⟩

theorem new_owed (debts : Task → Set Item) (tasks : List Task) (index : Nat) (old new : Task)
    (here : tasks[index]? = some old) : debts new ⊆ owed debts (tasks.set index new) := by
  intro item debt
  obtain ⟨bound, _⟩ := List.getElem?_eq_some_iff.mp here
  exact ⟨new, List.mem_set bound new, debt⟩

theorem owed_set_subset (debts : Task → Set Item) (tasks : List Task) (index : Nat) (new : Task) :
    owed debts (tasks.set index new) ⊆ owed debts tasks ∪ debts new := by
  intro item owing
  obtain ⟨task, member, debt⟩ := owing
  cases List.mem_or_eq_of_mem_set member with
  | inl before => exact .inl ⟨task, before, debt⟩
  | inr isNew => exact .inr (isNew ▸ debt)

theorem owed_subset_set (debts : Task → Set Item) (tasks : List Task) (index : Nat) (old new : Task)
    (here : tasks[index]? = some old) : owed debts tasks ⊆ debts old ∪ owed debts (tasks.set index new) := by
  intro item owing
  obtain ⟨task, member, debt⟩ := owing
  obtain ⟨place, found⟩ := List.mem_iff_getElem?.mp member
  by_cases replaced : index = place
  · subst replaced
    have isOld : task = old := Option.some.inj (found.symm.trans here)
    exact .inl (isOld ▸ debt)
  · have kept : (tasks.set index new)[place]? = some task := by rw [List.getElem?_set_ne replaced, found]
    exact .inr ⟨task, List.mem_of_getElem? kept, debt⟩

theorem owed_unchanged (debts : Task → Set Item) (tasks : List Task) (index : Nat) (old new : Task)
    (here : tasks[index]? = some old) (same : debts new = debts old) :
    owed debts (tasks.set index new) = owed debts tasks := by
  have before := old_owed debts tasks index old here
  have after := new_owed debts tasks index old new here
  rw [same] at after
  apply Set.Subset.antisymm
  · exact (owed_set_subset debts tasks index new).trans (Set.union_subset (le_refl _) (same ▸ before))
  · exact (owed_subset_set debts tasks index old new here).trans (Set.union_subset after (le_refl _))

theorem owed_append (debts : Task → Set Item) (tasks : List Task) (new : Task) :
    owed debts (tasks ++ [new]) = owed debts tasks ∪ debts new := by
  ext item
  simp [owed, or_and_right, exists_or]

theorem owed_incurred (debts : Task → Set Item) (tasks : List Task) (index : Nat) (old new : Task)
    (here : tasks[index]? = some old) (free : debts old = ∅) :
    owed debts (tasks.set index new) = owed debts tasks ∪ debts new := by
  have kept := owed_subset_set debts tasks index old new here
  rw [free, Set.empty_union] at kept
  apply Set.Subset.antisymm
  · exact owed_set_subset debts tasks index new
  · exact Set.union_subset kept (new_owed debts tasks index old new here)

theorem owed_settled (debts : Task → Set Item) (tasks : List Task) (index : Nat) (old new : Task)
    (here : tasks[index]? = some old) (free : debts new = ∅) :
    owed debts (tasks.set index new) ⊆ owed debts tasks ∧
      owed debts tasks ⊆ debts old ∪ owed debts (tasks.set index new) := by
  have smaller := owed_set_subset debts tasks index new
  rw [free, Set.union_empty] at smaller
  exact ⟨smaller, owed_subset_set debts tasks index old new here⟩

theorem filter_only (test : Task → Bool) (tasks : List Task) (index : Nat) (task : Task)
    (here : tasks[index]? = some task) (passes : test task = true)
    (only : ∀ (other : Nat) (found : Task), tasks[other]? = some found → test found = true → other = index) :
    tasks.filter test = [task] := by
  induction tasks generalizing index with
  | nil => cases here
  | cons first rest ih =>
      cases index with
      | zero =>
          obtain rfl := Option.some.inj here
          have noMore : rest.filter test = [] := by
            refine List.filter_eq_nil_iff.mpr fun found member passing => ?_
            obtain ⟨place, there⟩ := List.mem_iff_getElem?.mp member
            cases only (place + 1) found there passing
          rw [List.filter_cons_of_pos passes, noMore]
      | succ index =>
          have fails : ¬ test first = true := fun passing => by cases only 0 first rfl passing
          rw [List.filter_cons_of_neg fails]
          refine ih index here fun other found there passing => ?_
          exact Nat.succ_inj.mp (only (other + 1) found there passing)

end Tasks
