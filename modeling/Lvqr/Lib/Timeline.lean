import Lvqr.Lib.Machine

set_option autoImplicit false

-- Machines that fill a log with entries that have a start and a length.
namespace Timeline

-- The length of an entry is found from its start and the start of the one before it.
def stampRun (rule : Option Nat → Nat → Nat) : Option Nat → List Nat → List (Nat × Nat)
  | _, [] => []
  | previous, start :: starts => (start, rule previous start) :: stampRun rule (some start) starts

theorem stamp_run_cons (rule : Option Nat → Nat → Nat) (previous : Option Nat) (start : Nat) (starts : List Nat) :
    stampRun rule previous (start :: starts) = (start, rule previous start) :: stampRun rule (some start) starts := rfl

def Meets (first second : Nat × Nat) : Prop := first.1 + first.2 = second.1

instance (first second : Nat × Nat) : Decidable (Meets first second) := inferInstanceAs (Decidable (_ = _))

-- A rule that gives entries at a steady distance that distance as their length, and
-- the first entry too.
structure Steady (rule : Option Nat → Nat → Nat) (gap : Nat) : Prop where
  first : ∀ start, rule none start = gap
  next : ∀ previous, rule (some previous) (previous + gap) = gap

theorem stamp_run_append (rule : Option Nat → Nat → Nat) (previous : Option Nat) (first second : List Nat) :
    stampRun rule previous (first ++ second) =
      stampRun rule previous first ++ stampRun rule (first.getLast?.or previous) second := by
  induction first generalizing previous with
  | nil => rfl
  | cons start first ih =>
      rw [List.cons_append, stamp_run_cons, stamp_run_cons, ih, List.cons_append, List.getLast?_cons]
      cases first.getLast? <;> rfl

theorem stamp_run_starts (rule : Option Nat → Nat → Nat) (previous : Option Nat) (starts : List Nat) :
    (stampRun rule previous starts).map Prod.fst = starts := by
  induction starts generalizing previous with
  | nil => rfl
  | cons start starts ih => rw [stamp_run_cons, List.map_cons, ih]

theorem stamp_run_length (rule : Option Nat → Nat → Nat) (previous : Option Nat) (starts : List Nat) :
    (stampRun rule previous starts).length = starts.length := by
  rw [← List.length_map Prod.fst, stamp_run_starts]

-- Lengths that are found backwards meet the next start only at the one steady distance.
theorem stamp_run_meets_iff {rule : Option Nat → Nat → Nat} {gap : Nat} (steady : Steady rule gap)
    (previous : Option Nat) (start : Nat) (starts : List Nat) (first : rule previous start = gap) :
    (stampRun rule previous (start :: starts)).IsChain Meets ↔
      (start :: starts).IsChain fun before after => after = before + gap := by
  induction starts generalizing previous start with
  | nil => exact iff_of_true (.singleton _) (.singleton _)
  | cons second starts ih =>
      rw [stamp_run_cons, stamp_run_cons, List.isChain_cons_cons, List.isChain_cons_cons, Meets, first, ← stamp_run_cons]
      constructor
      · rintro ⟨met, more⟩
        have here : second = start + gap := met.symm
        exact ⟨here, (ih (some start) second (here ▸ steady.next start)).mp more⟩
      · rintro ⟨here, more⟩
        exact ⟨here.symm, (ih (some start) second (here ▸ steady.next start)).mpr more⟩

theorem stamp_run_none_meets_iff {rule : Option Nat → Nat → Nat} {gap : Nat} (steady : Steady rule gap)
    (starts : List Nat) : (stampRun rule none starts).IsChain Meets ↔
      starts.IsChain fun before after => after = before + gap := by
  cases starts with
  | nil => exact iff_of_true .nil .nil
  | cons start starts => exact stamp_run_meets_iff steady none start starts (steady.first start)

variable {State Op Value Other : Type*}

-- What each step of a run reads, once for every time the step counts.
def collect (step : State → Op → State) (amount : State → Op → Nat) (read : State → Op → Value) :
    State → List Op → List Value
  | _, [] => []
  | state, op :: ops =>
      List.replicate (amount state op) (read state op) ++ collect step amount read (step state op) ops

theorem collect_cons (step : State → Op → State) (amount : State → Op → Nat) (read : State → Op → Value) (state : State)
    (op : Op) (ops : List Op) : collect step amount read state (op :: ops) =
      List.replicate (amount state op) (read state op) ++ collect step amount read (step state op) ops := rfl

theorem collect_congr {step : State → Op → State} {amount other : State → Op → Nat} {read : State → Op → Value}
    (state : State) (ops : List Op)
    (same : Machine.AllSteps (fun state op => amount state op = other state op) step state ops) :
    collect step amount read state ops = collect step other read state ops := by
  induction ops generalizing state with
  | nil => rfl
  | cons op ops ih => rw [collect_cons, collect_cons, same.1, ih _ same.2]

-- A machine whose steps send entries to a log: each a number of them, all starting
-- at one time.
structure Emitter (State Op : Type*) where
  step : State → Op → State
  starts : State → List Nat
  sends : State → Op → Nat
  time : State → Op → Nat
  starts_step : ∀ state op, starts (step state op) = starts state ++ List.replicate (sends state op) (time state op)

-- An emitter that stamps its entries, each after what was sent before.
structure Track (State Op : Type*) where
  step : State → Op → State
  stamps : State → List (Nat × Nat)
  previous : State → Option Nat
  rule : Option Nat → Nat → Nat
  sends : State → Op → Nat
  time : State → Op → Nat
  stamps_step : ∀ state op, stamps (step state op) =
    stamps state ++ stampRun rule (previous state) (List.replicate (sends state op) (time state op))
  previous_step : ∀ state op, previous (step state op) =
    (List.replicate (sends state op) (time state op)).getLast?.or (previous state)

namespace Track

variable (track : Track State Op)

def emitter : Emitter State Op where
  step := track.step
  starts state := (track.stamps state).map Prod.fst
  sends := track.sends
  time := track.time
  starts_step state op := by rw [track.stamps_step, List.map_append, stamp_run_starts]

theorem run_stamps (state : State) (ops : List Op) :
    track.stamps (Machine.run track.step state ops) = track.stamps state ++
      stampRun track.rule (track.previous state) (collect track.step track.sends track.time state ops) := by
  induction ops generalizing state with
  | nil => exact (List.append_nil _).symm
  | cons op ops ih =>
      rw [Machine.run_cons, ih, track.stamps_step, track.previous_step, collect_cons, stamp_run_append, List.append_assoc]

-- Every step sends as many entries as it has units, and each entry ends where the
-- next one starts.
def Tiles (units : Op → Nat) (state : State) (ops : List Op) : Prop :=
  Machine.AllSteps (fun state op =>
    (track.stamps (track.step state op)).length = (track.stamps state).length + units op) track.step state ops ∧
  (track.stamps (Machine.run track.step state ops)).IsChain Meets

instance (units : Op → Nat) (state : State) (ops : List Op) : Decidable (track.Tiles units state ops) :=
  inferInstanceAs (Decidable (_ ∧ _))

theorem tiles_iff {gap : Nat} (steady : Steady track.rule gap) (units : Op → Nat) (state : State) (ops : List Op)
    (empty : track.stamps state = []) (fresh : track.previous state = none) :
    track.Tiles units state ops ↔
      Machine.AllSteps (fun state op => track.sends state op = units op) track.step state ops ∧
      (collect track.step (fun _ => units) track.time state ops).IsChain fun before after => after = before + gap := by
  have counted : Machine.AllSteps (fun state op =>
      (track.stamps (track.step state op)).length = (track.stamps state).length + units op) track.step state ops ↔
      Machine.AllSteps (fun state op => track.sends state op = units op) track.step state ops := by
    refine Machine.all_steps_congr track.step (fun state op => ?_) state ops
    rw [track.stamps_step, List.length_append, stamp_run_length, List.length_replicate]
    omega
  rw [Tiles, counted]
  refine and_congr_right fun sent => ?_
  rw [track.run_stamps, empty, fresh, List.nil_append, stamp_run_none_meets_iff steady, collect_congr state ops sent]

-- Where all of a step's units are sent: the runs that tile are those whose units lie
-- at the steady distance.
def TilesWhere (guard : State → Op → Prop) (units : Op → Nat) (gap : Nat) (state : State) : Prop :=
  ∀ ops : List Op, track.Tiles units state ops ↔
    Machine.AllSteps guard track.step state ops ∧
      (collect track.step (fun _ => units) track.time state ops).IsChain fun before after => after = before + gap

theorem tiles_where {guard : State → Op → Prop} {units : Op → Nat} {gap : Nat} (steady : Steady track.rule gap)
    (exact : ∀ state op, guard state op ↔ track.sends state op = units op) (state : State)
    (empty : track.stamps state = []) (fresh : track.previous state = none) : track.TilesWhere guard units gap state := by
  intro ops
  rw [track.tiles_iff steady units state ops empty fresh]
  refine and_congr_left fun _ => ?_
  exact (Machine.all_steps_congr track.step exact state ops).symm

def comap (read : Other → Op) : Track State Other where
  step state other := track.step state (read other)
  stamps := track.stamps
  previous := track.previous
  rule := track.rule
  sends state other := track.sends state (read other)
  time state other := track.time state (read other)
  stamps_step state other := track.stamps_step state (read other)
  previous_step state other := track.previous_step state (read other)

theorem run_previous (state : State) (ops : List Op) :
    track.previous (Machine.run track.step state ops) =
      (collect track.step track.sends track.time state ops).getLast?.or (track.previous state) := by
  induction ops generalizing state with
  | nil => rfl
  | cons op ops ih =>
      rw [Machine.run_cons, ih, track.previous_step, collect_cons, List.getLast?_append, Option.or_assoc]

end Track

-- The rule of a track whose entries all have one length.
def constant (gap : Nat) (_ : Option Nat) (_ : Nat) : Nat := gap

theorem constant_steady (gap : Nat) : Steady (constant gap) gap := ⟨fun _ => rfl, fun _ => rfl⟩

theorem stamp_run_constant (gap : Nat) (previous : Option Nat) (starts : List Nat) :
    stampRun (constant gap) previous starts = starts.map (·, gap) := by
  induction starts generalizing previous with
  | nil => rfl
  | cons start starts ih => rw [stamp_run_cons, ih, List.map_cons, constant]

def Track.ofConstant (gap : Nat) (step : State → Op → State) (stamps : State → List (Nat × Nat))
    (sends time : State → Op → Nat)
    (adds : ∀ state op, stamps (step state op) = stamps state ++ List.replicate (sends state op) (time state op, gap)) :
    Track State Op where
  step := step
  stamps := stamps
  previous state := ((stamps state).map Prod.fst).getLast?
  rule := constant gap
  sends := sends
  time := time
  stamps_step state op := by rw [adds, stamp_run_constant, List.map_replicate]
  previous_step state op := by rw [adds, List.map_append, List.map_replicate, List.getLast?_append]

-- Operations that show one time between them, those that show any.
structure Batch {Op : Type*} (wire : Op → Option Nat) where
  ops : List Op
  time : Nat
  same : ∀ op ∈ ops, ∀ shown ∈ wire op, shown = time

namespace Track

variable (track : Track State Op) (wire : Op → Option Nat)
  (shown : ∀ state op, 0 < track.sends state op → track.time state op ∈ wire op)

-- How many entries a run sends.
def total (state : State) (ops : List Op) : Nat := (collect track.step track.sends track.time state ops).length

include shown in
theorem collect_batch (state : State) (batch : Batch wire) :
    collect track.step track.sends track.time state batch.ops =
      List.replicate (track.total state batch.ops) batch.time := by
  refine List.eq_replicate_of_mem ?_
  obtain ⟨ops, time, same⟩ := batch
  dsimp only
  induction ops generalizing state with
  | nil => exact List.forall_mem_nil _
  | cons op ops ih =>
      intro start member
      rw [collect_cons, List.mem_append, List.mem_replicate] at member
      rcases member with ⟨sends, rfl⟩ | later
      · exact same op List.mem_cons_self _ (shown state op (Nat.pos_of_ne_zero sends))
      · exact ih _ (fun op isOp => same op (List.mem_cons_of_mem _ isOp)) start later

-- The same track, taken a batch at a time.
def batched : Track State (Batch wire) where
  step state batch := Machine.run track.step state batch.ops
  stamps := track.stamps
  previous := track.previous
  rule := track.rule
  sends state batch := track.total state batch.ops
  time _ batch := batch.time
  stamps_step state batch := by rw [track.run_stamps, track.collect_batch wire shown]
  previous_step state batch := by rw [track.run_previous, track.collect_batch wire shown]

end Track

end Timeline
