import Mathlib.Data.List.Basic

set_option autoImplicit false

-- Runs of a deterministic machine: a total step function folded over a list of
-- operations. The guard of `AllSteps` reads the state before each step, so a
-- condition on a run is a condition on what the environment was allowed to do.
namespace Machine

variable {State Op : Type*}

def run (step : State → Op → State) (state : State) (ops : List Op) : State :=
  ops.foldl step state

@[simp] theorem run_nil (step : State → Op → State) (state : State) : run step state [] = state := rfl

@[simp] theorem run_cons (step : State → Op → State) (state : State) (op : Op) (ops : List Op) :
    run step state (op :: ops) = run step (step state op) ops := rfl

theorem run_append (step : State → Op → State) (state : State) (first second : List Op) :
    run step state (first ++ second) = run step (run step state first) second :=
  List.foldl_append

theorem run_snoc (step : State → Op → State) (state : State) (ops : List Op) (op : Op) :
    run step state (ops ++ [op]) = step (run step state ops) op := by
  simp [run_append]

def AllSteps (guard : State → Op → Prop) (step : State → Op → State) : State → List Op → Prop
  | _, [] => True
  | state, op :: ops => guard state op ∧ AllSteps guard step (step state op) ops

instance AllSteps.decidable (guard : State → Op → Prop) [∀ state op, Decidable (guard state op)]
    (step : State → Op → State) : ∀ state ops, Decidable (AllSteps guard step state ops)
  | _, [] => inferInstanceAs (Decidable True)
  | state, op :: ops =>
      have := AllSteps.decidable guard step (step state op) ops
      inferInstanceAs (Decidable (guard state op ∧ AllSteps guard step (step state op) ops))

theorem all_steps_append (guard : State → Op → Prop) (step : State → Op → State) (state : State)
    (first second : List Op) : AllSteps guard step state (first ++ second) ↔
      AllSteps guard step state first ∧ AllSteps guard step (run step state first) second := by
  induction first generalizing state with
  | nil => simp [AllSteps]
  | cons op ops ih => simp [AllSteps, ih, and_assoc]

-- What one guarded step preserves, every prefix of a guarded run preserves.
theorem invariant_of_guarded {guard : State → Op → Prop} {step : State → Op → State} {Inv : State → Prop}
    (keeps : ∀ state op, Inv state → guard state op → Inv (step state op))
    (state : State) (ops : List Op) (start : Inv state) (allowed : AllSteps guard step state ops) :
    Inv (run step state ops) := by
  induction ops generalizing state with
  | nil => exact start
  | cons op ops ih => exact ih (step state op) (keeps state op start allowed.1) allowed.2

theorem invariant_of_run {step : State → Op → State} {Inv : State → Prop}
    (keeps : ∀ state op, Inv state → Inv (step state op))
    (state : State) (ops : List Op) (start : Inv state) : Inv (run step state ops) := by
  induction ops generalizing state with
  | nil => exact start
  | cons op ops ih => exact ih (step state op) (keeps state op start)

-- Where the guard says exactly which steps keep the invariant, it says exactly
-- which runs do.
theorem invariant_iff_guarded {guard : State → Op → Prop} {step : State → Op → State} {Inv : State → Prop}
    (exact : ∀ state op, Inv state → (Inv (step state op) ↔ guard state op))
    (state : State) (ops : List Op) (start : Inv state) :
    (∀ seen, seen <+: ops → Inv (run step state seen)) ↔ AllSteps guard step state ops := by
  induction ops generalizing state with
  | nil =>
      constructor
      · intro _
        trivial
      · intro _ seen isPrefix
        rw [List.prefix_nil.mp isPrefix]
        exact start
  | cons op ops ih =>
      constructor
      · intro always
        have kept : Inv (step state op) := always [op] (by simp [List.cons_prefix_cons])
        refine ⟨(exact state op start).mp kept, (ih (step state op) kept).mp ?_⟩
        intro seen isPrefix
        exact always (op :: seen) (List.cons_prefix_cons.mpr ⟨rfl, isPrefix⟩)
      · intro allowed seen isPrefix
        cases seen with
        | nil => exact start
        | cons first seen =>
            obtain ⟨rfl, rest⟩ := List.cons_prefix_cons.mp isPrefix
            exact (ih (step state first) ((exact state first start).mpr allowed.1)).mpr allowed.2 seen rest

-- Where no step mends what was broken, the last state tells of the whole run.
theorem before_of_run {step : State → Op → State} {Inv : State → Prop}
    (back : ∀ state op, Inv (step state op) → Inv state)
    (state : State) (ops : List Op) (kept : Inv (run step state ops)) : Inv state := by
  induction ops generalizing state with
  | nil => exact kept
  | cons op ops ih => exact back state op (ih (step state op) kept)

theorem run_iff_guarded {guard : State → Op → Prop} {step : State → Op → State} {Inv : State → Prop}
    (back : ∀ state op, Inv (step state op) → Inv state)
    (exact : ∀ state op, Inv state → (Inv (step state op) ↔ guard state op))
    (state : State) (ops : List Op) (start : Inv state) :
    Inv (run step state ops) ↔ AllSteps guard step state ops := by
  rw [← invariant_iff_guarded exact state ops start]
  refine ⟨?_, fun always => always ops (List.prefix_refl ops)⟩
  rintro kept seen ⟨more, rfl⟩
  rw [run_append] at kept
  exact before_of_run back _ more kept

-- The same where exactness rests on an invariant that every step keeps.
theorem invariant_iff_guarded_under {guard : State → Op → Prop} {step : State → Op → State} {Aux Inv : State → Prop}
    (keeps : ∀ state op, Aux state → Aux (step state op))
    (exact : ∀ state op, Aux state → Inv state → (Inv (step state op) ↔ guard state op))
    (state : State) (ops : List Op) (aux : Aux state) (start : Inv state) :
    (∀ seen, seen <+: ops → Inv (run step state seen)) ↔ AllSteps guard step state ops := by
  let Both : State → Prop := fun state => Aux state ∧ Inv state
  have exactBoth : ∀ state op, Both state → (Both (step state op) ↔ guard state op) := by
    intro state op ⟨aux, start⟩
    have here := exact state op aux start
    exact ⟨fun both => here.mp both.2, fun allowed => ⟨keeps state op aux, here.mpr allowed⟩⟩
  rw [← invariant_iff_guarded exactBoth state ops ⟨aux, start⟩]
  refine forall₂_congr fun seen _ => ⟨fun kept => ⟨?_, kept⟩, fun both => both.2⟩
  exact invariant_of_run keeps state seen aux

theorem all_steps_congr {P Q : State → Op → Prop} (step : State → Op → State)
    (same : ∀ state op, P state op ↔ Q state op) (state : State) (ops : List Op) :
    AllSteps P step state ops ↔ AllSteps Q step state ops := by
  have guards : P = Q := funext fun state => funext fun op => propext (same state op)
  rw [guards]

theorem all_steps_mono {P Q : State → Op → Prop} {step : State → Op → State}
    (weaker : ∀ state op, P state op → Q state op) (state : State) (ops : List Op)
    (allowed : AllSteps P step state ops) : AllSteps Q step state ops := by
  induction ops generalizing state with
  | nil => trivial
  | cons op ops ih => exact ⟨weaker state op allowed.1, ih (step state op) allowed.2⟩

-- Two guards that agree while one of them keeps the invariant allow the same runs.
theorem all_steps_iff {P Q : State → Op → Prop} {step : State → Op → State} {Inv : State → Prop}
    (same : ∀ state op, Inv state → (P state op ↔ Q state op))
    (keeps : ∀ state op, Inv state → Q state op → Inv (step state op))
    (state : State) (ops : List Op) (start : Inv state) : AllSteps P step state ops ↔ AllSteps Q step state ops := by
  induction ops generalizing state with
  | nil => exact Iff.rfl
  | cons op ops ih =>
      constructor
      · intro allowed
        have here := (same state op start).mp allowed.1
        exact ⟨here, (ih (step state op) (keeps state op start here)).mp allowed.2⟩
      · intro allowed
        refine ⟨(same state op start).mpr allowed.1, ?_⟩
        exact (ih (step state op) (keeps state op start allowed.1)).mpr allowed.2

end Machine
