import Lvqr.Lib.Timeline

set_option autoImplicit false

-- Clocks that wrap around, and machines that start their entries where they say.
namespace Timeline

variable {State Op : Type*}

-- Times that lie between the same two wraps of a clock.
def SamePeriod (range : Nat) (times : List Nat) : Prop :=
  ∀ first ∈ times, ∀ second ∈ times, first / range = second / range

def Ascending (values : List Nat) : Prop := values.Pairwise (· ≤ ·)

instance (values : List Nat) : Decidable (Ascending values) := inferInstanceAs (Decidable (values.Pairwise _))

-- Ordered times that are less than half the clock's range apart.
def Dense (range : Nat) (times : List Nat) : Prop :=
  times.IsChain fun before after => before ≤ after ∧ 2 * (after - before) < range

instance (range : Nat) (times : List Nat) : Decidable (Dense range times) :=
  inferInstanceAs (Decidable (times.IsChain _))

theorem wire_le (range first second : Nat) (ordered : first ≤ second) (same : first / range = second / range) :
    first % range ≤ second % range := by
  have low := Nat.div_add_mod first range
  have high := Nat.div_add_mod second range
  rw [same] at low
  omega

-- Across a wrap the clock falls by more than half its range.
theorem wire_drop (range first second : Nat) (ordered : first ≤ second) (near : 2 * (second - first) < range)
    (apart : first / range ≠ second / range) : range < 2 * (first % range - second % range) := by
  have low := Nat.div_add_mod first range
  have high := Nat.div_add_mod second range
  have later : first / range + 1 ≤ second / range :=
    Nat.succ_le_of_lt (Nat.lt_of_le_of_ne (Nat.div_le_div_right ordered) apart)
  have wrapped := Nat.mul_le_mul_left range later
  rw [Nat.mul_add, Nat.mul_one] at wrapped
  omega

-- What a reader of the clock makes of it in a unit of its own; the setting may
-- change from one reading to the next.
structure Reading (range : Nat) where
  read : Nat → Nat → Nat
  mono : ∀ {setting next wire later}, setting ≤ next → wire ≤ later → read setting wire ≤ read next later

def readAll {range : Nat} (reading : Reading range) (entries : List (Nat × Nat)) : List Nat :=
  entries.map fun entry => reading.read entry.2 (entry.1 % range)

theorem read_ascending {range : Nat} (reading : Reading range) (entries : List (Nat × Nat))
    (times : Ascending (entries.map Prod.fst)) (settings : Ascending (entries.map Prod.snd))
    (same : SamePeriod range (entries.map Prod.fst)) : Ascending (readAll reading entries) := by
  rw [Ascending, List.pairwise_map] at times settings
  rw [Ascending, readAll, List.pairwise_map]
  refine (times.and settings).imp_of_mem fun {first second} isFirst isSecond ordered => ?_
  have period := same first.1 (List.mem_map_of_mem isFirst) second.1 (List.mem_map_of_mem isSecond)
  exact reading.mono ordered.2 (wire_le range first.1 second.1 ordered.1 period)

theorem same_period_of_chain (range : Nat) (times : List Nat)
    (chain : times.IsChain fun before after => before / range = after / range) : SamePeriod range times := by
  have pairs : times.Pairwise fun before after => before / range = after / range :=
    List.isChain_iff_pairwise.mp chain
  have back : times.Pairwise (flip fun before after => before / range = after / range) :=
    pairs.imp fun same => Eq.symm same
  intro first isFirst second isSecond
  exact List.Pairwise.forall_of_forall_of_flip (R := fun before after => before / range = after / range)
    (fun _ _ => rfl) pairs back isFirst isSecond

-- A reading that shows every fall by half the range rises only between two wraps.
theorem same_period_of_ascending {range : Nat} (reading : Reading range) (setting : Nat) (times : List Nat)
    (shows : ∀ wire later, range < 2 * (later - wire) → reading.read setting wire < reading.read setting later)
    (dense : Dense range times) (rising : Ascending (readAll reading (times.map (·, setting)))) :
    SamePeriod range times := by
  apply same_period_of_chain
  have risen : (times.map fun time => reading.read setting (time % range)).IsChain (· ≤ ·) := by
    rw [Ascending, readAll, List.map_map] at rising
    exact rising.isChain
  clear rising
  induction times with
  | nil => exact List.IsChain.nil
  | cons before times ih =>
      cases times with
      | nil => exact List.IsChain.singleton _
      | cons after times =>
          rw [Dense, List.isChain_cons_cons] at dense
          rw [List.map_cons, List.map_cons, List.isChain_cons_cons] at risen
          refine List.isChain_cons_cons.mpr ⟨?_, ih dense.2 risen.2⟩
          by_contra apart
          have fall := shows _ _ (wire_drop range before after dense.1.1 dense.1.2 apart)
          exact absurd risen.1 (Nat.not_le.mpr fall)

-- An operation with the true time behind what its clock shows.
structure Timed {Op : Type*} (range : Nat) (wire : Op → Option Nat) where
  op : Op
  time : Nat
  shows : ∀ reading ∈ wire op, reading = time % range

-- An emitter that starts its entries where a wrapping clock says.
structure Clocked (State Op : Type*) (range : Nat) extends Emitter State Op where
  wire : Op → Option Nat
  reading : Reading range
  setting : State → Op → Nat
  time_wire : ∀ state op, 0 < sends state op → ∃ shown ∈ wire op, time state op = reading.read (setting state op) shown

namespace Clocked

variable {range : Nat} (clocked : Clocked State Op range)

-- The true times behind the entries of a run, and the settings they are read with.
def sent (state : State) (ops : List (Timed range clocked.wire)) : List (Nat × Nat) :=
  collect (fun state timed => clocked.step state timed.op) (fun state timed => clocked.sends state timed.op)
    (fun state timed => (timed.time, clocked.setting state timed.op)) state ops

def starting (state : State) (ops : List (Timed range clocked.wire)) : List Nat :=
  clocked.starts (Machine.run (fun state timed => clocked.step state timed.op) state ops)

theorem sent_cons (state : State) (timed : Timed range clocked.wire) (ops : List (Timed range clocked.wire)) :
    clocked.sent state (timed :: ops) =
      List.replicate (clocked.sends state timed.op) (timed.time, clocked.setting state timed.op) ++
        clocked.sent (clocked.step state timed.op) ops := rfl

theorem starting_eq (state : State) (ops : List (Timed range clocked.wire)) :
    clocked.starting state ops = clocked.starts state ++ readAll clocked.reading (clocked.sent state ops) := by
  induction ops generalizing state with
  | nil => simp [starting, sent, collect, readAll]
  | cons timed ops ih =>
      rw [starting, Machine.run_cons, ← starting, ih, clocked.starts_step, sent_cons, readAll, readAll, List.map_append,
        List.map_replicate, List.append_assoc]
      rcases Nat.eq_zero_or_pos (clocked.sends state timed.op) with none | some
      · rw [none, List.replicate_zero, List.replicate_zero]
      · obtain ⟨shown, isShown, time⟩ := clocked.time_wire state timed.op some
        rw [time, timed.shows shown isShown]

def onTrack (ops : List (Timed range clocked.wire)) : List Nat :=
  (ops.filter fun timed => (clocked.wire timed.op).isSome).map Timed.time

theorem sent_on_track (state : State) (ops : List (Timed range clocked.wire)) (time : Nat)
    (member : time ∈ (clocked.sent state ops).map Prod.fst) : time ∈ clocked.onTrack ops := by
  induction ops generalizing state with
  | nil => cases member
  | cons timed ops ih =>
      rw [sent_cons, List.map_append, List.map_replicate, List.mem_append, List.mem_replicate] at member
      rw [onTrack, List.filter_cons]
      rcases member with ⟨sends, rfl⟩ | later
      · obtain ⟨shown, isShown, _⟩ := clocked.time_wire state timed.op (Nat.pos_of_ne_zero sends)
        rw [if_pos (Option.isSome_of_mem isShown)]
        exact List.mem_cons_self
      · have known := ih _ later
        split
        · exact List.mem_cons_of_mem _ known
        · exact known

theorem sent_ascending (state : State) (ops : List (Timed range clocked.wire))
    (ascending : Ascending (clocked.onTrack ops)) : Ascending ((clocked.sent state ops).map Prod.fst) := by
  induction ops generalizing state with
  | nil => exact List.Pairwise.nil
  | cons timed ops ih =>
      rw [onTrack, List.filter_cons] at ascending
      rw [sent_cons, List.map_append, List.map_replicate]
      by_cases shown : (clocked.wire timed.op).isSome = true
      · rw [if_pos shown, List.map_cons, Ascending, List.pairwise_cons] at ascending
        refine List.pairwise_append.mpr ⟨List.pairwise_replicate.mpr (.inr (Nat.le_refl _)), ih _ ascending.2, ?_⟩
        intro first isFirst second isSecond
        rw [List.eq_of_mem_replicate isFirst]
        exact ascending.1 second (clocked.sent_on_track _ ops second isSecond)
      · rw [if_neg shown] at ascending
        have none : clocked.sends state timed.op = 0 := by
          by_contra some
          obtain ⟨reading, isReading, _⟩ := clocked.time_wire state timed.op (Nat.pos_of_ne_zero some)
          exact shown (Option.isSome_of_mem isReading)
        rw [none]
        exact ih _ ascending

-- Between two wraps the entries start in order as long as the setting does not
-- fall; where no two entries are half the clock's range apart, only there.
theorem starting_order (state : State) (ops : List (Timed range clocked.wire)) (empty : clocked.starts state = [])
    (ordered : Ascending (clocked.onTrack ops)) :
    (SamePeriod range ((clocked.sent state ops).map Prod.fst) → Ascending ((clocked.sent state ops).map Prod.snd) →
      Ascending (clocked.starting state ops)) ∧
    (∀ setting, (∀ wire later, range < 2 * (later - wire) →
        clocked.reading.read setting wire < clocked.reading.read setting later) →
      (∀ entry ∈ clocked.sent state ops, entry.2 = setting) → Dense range ((clocked.sent state ops).map Prod.fst) →
      Ascending (clocked.starting state ops) → SamePeriod range ((clocked.sent state ops).map Prod.fst)) := by
  rw [starting_eq, empty, List.nil_append]
  constructor
  · intro same settings
    exact read_ascending clocked.reading _ (clocked.sent_ascending state ops ordered) settings same
  · intro setting shows constant dense rising
    have entries : clocked.sent state ops = ((clocked.sent state ops).map Prod.fst).map (·, setting) := by
      rw [List.map_map]
      refine (List.map_id _).symm.trans (List.map_congr_left fun entry member => ?_)
      exact Prod.ext rfl (constant entry member)
    rw [entries] at rising
    exact same_period_of_ascending clocked.reading setting _ shows dense rising

-- Every run whose true times are in order starts its entries in order as long as no
-- wrap lies between two of them, and otherwise only where a gap hides the wrap.
def OrderedBetweenWraps (state : State) : Prop :=
  ∀ ops : List (Timed range clocked.wire), Ascending (clocked.onTrack ops) →
    (SamePeriod range ((clocked.sent state ops).map Prod.fst) → Ascending (clocked.starting state ops)) ∧
    (Dense range ((clocked.sent state ops).map Prod.fst) → Ascending (clocked.starting state ops) →
      SamePeriod range ((clocked.sent state ops).map Prod.fst))

theorem sent_setting (fixed : Nat) (constant : ∀ state op, clocked.setting state op = fixed) (state : State)
    (ops : List (Timed range clocked.wire)) : ∀ entry ∈ clocked.sent state ops, entry.2 = fixed := by
  induction ops generalizing state with
  | nil => simp [sent, collect]
  | cons timed ops ih =>
      intro entry member
      rw [sent_cons, List.mem_append, List.mem_replicate] at member
      rcases member with ⟨_, rfl⟩ | later
      · exact constant state timed.op
      · exact ih _ entry later

theorem ordered_between_wraps (state : State) (empty : clocked.starts state = []) (fixed : Nat)
    (constant : ∀ state op, clocked.setting state op = fixed)
    (shows : ∀ wire later, range < 2 * (later - wire) →
      clocked.reading.read fixed wire < clocked.reading.read fixed later) : clocked.OrderedBetweenWraps state := by
  intro ops ordered
  have settings := clocked.sent_setting fixed constant state ops
  have steady : Ascending ((clocked.sent state ops).map Prod.snd) := by
    rw [Ascending, List.pairwise_map]
    refine List.pairwise_of_forall_mem_list fun first isFirst second isSecond => ?_
    exact Nat.le_of_eq ((settings first isFirst).trans (settings second isSecond).symm)
  obtain ⟨rises, only⟩ := clocked.starting_order state ops empty ordered
  exact ⟨fun same => rises same steady, only fixed shows settings⟩

-- Where the settings differ: no wrap between two entries, and no fall of the setting.
def OrderedAtRisingSettings (state : State) : Prop :=
  ∀ ops : List (Timed range clocked.wire), Ascending (clocked.onTrack ops) →
    (SamePeriod range ((clocked.sent state ops).map Prod.fst) → Ascending ((clocked.sent state ops).map Prod.snd) →
      Ascending (clocked.starting state ops)) ∧
    (∀ setting, 0 < setting → (∀ entry ∈ clocked.sent state ops, entry.2 = setting) →
      Dense range ((clocked.sent state ops).map Prod.fst) → Ascending (clocked.starting state ops) →
      SamePeriod range ((clocked.sent state ops).map Prod.fst))

theorem ordered_at_rising_settings (state : State) (empty : clocked.starts state = [])
    (shows : ∀ setting, 0 < setting → ∀ wire later, range < 2 * (later - wire) →
      clocked.reading.read setting wire < clocked.reading.read setting later) :
    clocked.OrderedAtRisingSettings state := by
  intro ops ordered
  obtain ⟨rises, only⟩ := clocked.starting_order state ops empty ordered
  exact ⟨rises, fun setting positive => only setting (shows setting positive)⟩

end Clocked

end Timeline
