import Mathlib.Algebra.Order.Ring.Nat
import Lvqr.Cmaf.Coalescer

set_option autoImplicit false

-- What one coalescer gives out: the samples it was pushed, cut into batches.
namespace Lvqr.Cmaf

def totalTicks (samples : List RawSample) : Nat := (samples.map fun sample => sample.duration.toNat).sum

-- The entries of more samples do not fit into one moof.
def MAX_BATCH : Nat := 268435450

structure Batch.Conveys (batch : Batch) (trackId number : Nat) : Prop where
  sequence : batch.sequence = number
  track : batch.trackId = trackId
  nonempty : batch.samples ≠ []
  dts : some batch.dts = batch.samples.head?.map RawSample.dts
  duration : batch.duration = totalTicks batch.samples
  written : batch.chunk.isSome = true

theorem build_moof_mdat_is_some (sequence trackId baseDts : Nat) (samples : List RawSample) :
    (buildMoofMdat sequence trackId baseDts samples).isSome = true ↔ samples.length ≤ MAX_BATCH := by
  have fits (offset : Int) : (moofOf sequence trackId baseDts samples offset).encode =
      if 88 + 16 * samples.length < 2 ^ 32 then some (moofOf sequence trackId baseDts samples offset).written else none := by
    have encoded := (moofOf sequence trackId baseDts samples offset).encode_eq
    simpa only [moofOf, List.length_map] using encoded
  rw [buildMoofMdat, fits, MAX_BATCH]
  split
  · simp only [Option.bind_eq_bind, Option.bind_some, fits]
    rename_i small
    rw [if_pos small]
    simp only [Option.bind_some, Option.pure_def, Option.isSome_some, true_iff]
    omega
  · simp only [Option.bind_eq_bind, Option.bind_none, Option.isSome_none, Bool.false_eq_true, false_iff]
    omega

theorem chunk_is_some (batch : Batch) : batch.chunk.isSome = true ↔ batch.samples.length ≤ MAX_BATCH := by
  rw [Batch.chunk, Option.isSome_map]
  exact build_moof_mdat_is_some _ _ _ _

theorem total_ticks_snoc (samples : List RawSample) (sample : RawSample) :
    totalTicks (samples ++ [sample]) = totalTicks samples + sample.duration.toNat := by
  simp [totalTicks]

-- As long as a moof holds the samples, their durations add up within 64 bits.
theorem total_ticks_lt (samples : List RawSample) (few : samples.length ≤ MAX_BATCH) : totalTicks samples < 2 ^ 64 := by
  have bounded : ∀ samples : List RawSample, totalTicks samples ≤ samples.length * 2 ^ 32 := by
    intro samples
    induction samples with
    | nil => rfl
    | cons sample samples ih =>
        have bound := sample.duration.toNat_lt
        have front : totalTicks (sample :: samples) = sample.duration.toNat + totalTicks samples := rfl
        rw [front, List.length_cons]
        omega
  have here := bounded samples
  unfold MAX_BATCH at few
  omega

namespace TrackCoalescer

structure Holds (coalescer : TrackCoalescer) : Prop where
  dts : coalescer.pendingDts = coalescer.pending.head?.map RawSample.dts
  duration : coalescer.pendingDurationTicks = totalTicks coalescer.pending % 2 ^ 64
  partialStart : coalescer.pending ≠ [] → coalescer.partialStartDts.isSome = true
  segmentStart : coalescer.pending ≠ [] → coalescer.segmentStartDts.isSome = true

theorem new_holds (trackId : Nat) (policy : CmafPolicy) : (new trackId policy).Holds :=
  ⟨rfl, rfl, fun pending => absurd rfl pending, fun pending => absurd rfl pending⟩

theorem flush_pending_holds (coalescer : TrackCoalescer) : coalescer.flushPending.2.Holds :=
  ⟨rfl, rfl, fun pending => absurd rfl pending, fun pending => absurd rfl pending⟩

theorem opened_same (coalescer : TrackCoalescer) (sample : RawSample) (pending : coalescer.pending ≠ []) :
    coalescer.opened sample = coalescer := by
  rw [opened, List.isEmpty_eq_false_iff.mpr pending]
  rfl

theorem opened_fields (coalescer : TrackCoalescer) (sample : RawSample) :
    (coalescer.opened sample).pending = coalescer.pending ∧
      (coalescer.opened sample).trackId = coalescer.trackId ∧
      (coalescer.opened sample).policy = coalescer.policy ∧
      (coalescer.opened sample).nextSequence = coalescer.nextSequence ∧
      (coalescer.opened sample).pendingDurationTicks = coalescer.pendingDurationTicks := by
  rw [opened]
  split
  · exact ⟨rfl, rfl, rfl, rfl, rfl⟩
  · exact ⟨rfl, rfl, rfl, rfl, rfl⟩

theorem opened_empty (coalescer : TrackCoalescer) (sample : RawSample) (empty : coalescer.pending = []) :
    (coalescer.opened sample).pendingDts = some sample.dts ∧
      (coalescer.opened sample).partialStartDts.isSome = true ∧
      (coalescer.opened sample).segmentStartDts.isSome = true := by
  rw [opened, empty, List.isEmpty_nil, if_pos rfl]
  refine ⟨rfl, rfl, ?_⟩
  dsimp only
  split
  · rfl
  · rename_i kept
    cases anchor : coalescer.segmentStartDts with
    | none => simp [startsSegment, anchor] at kept
    | some _ => rfl

theorem appended_holds (coalescer : TrackCoalescer) (sample : RawSample) (holds : coalescer.Holds) :
    ((coalescer.opened sample).append sample).Holds := by
  obtain ⟨pending, _, _, _, ticks⟩ := coalescer.opened_fields sample
  have duration : ((coalescer.opened sample).append sample).pendingDurationTicks =
      totalTicks ((coalescer.opened sample).append sample).pending % 2 ^ 64 := by
    rw [append]
    dsimp only
    rw [pending, ticks, holds.duration, total_ticks_snoc, Nat.mod_add_mod]
  by_cases empty : coalescer.pending = []
  · obtain ⟨dts, partialStart, segmentStart⟩ := coalescer.opened_empty sample empty
    refine ⟨?_, duration, fun _ => partialStart, fun _ => segmentStart⟩
    rw [append]
    dsimp only
    rw [dts, pending, empty]
    rfl
  · have same := coalescer.opened_same sample empty
    rw [same] at duration ⊢
    refine ⟨?_, duration, fun _ => holds.partialStart empty, fun _ => holds.segmentStart empty⟩
    rw [append]
    dsimp only
    rw [holds.dts, List.head?_append_of_ne_nil _ empty]

def cuts (coalescer : TrackCoalescer) : CoalescerOp → Bool
  | .push sample => !coalescer.pending.isEmpty && coalescer.closes sample
  | .flush => !coalescer.pending.isEmpty

def cutBy (coalescer : TrackCoalescer) (op : CoalescerOp) : TrackCoalescer :=
  if coalescer.cuts op then coalescer.flushPending.2 else coalescer

def taken (coalescer : TrackCoalescer) : CoalescerOp → TrackCoalescer
  | .push sample => (coalescer.opened sample).append sample
  | .flush => coalescer

end TrackCoalescer

namespace Coalescing

theorem output_eq (coalescing : Coalescing) (op : CoalescerOp) :
    coalescing.output op =
      (if coalescing.coalescer.cuts op then some coalescing.coalescer.flushPending.1 else none,
        (coalescing.coalescer.cutBy op).taken op) := by
  rw [TrackCoalescer.cutBy]
  cases op with
  | push sample =>
      by_cases cut : coalescing.coalescer.cuts (.push sample) = true
      · rw [if_pos cut, if_pos cut]
        exact if_pos cut
      · rw [if_neg cut, if_neg cut]
        exact if_neg cut
  | flush =>
      cases empty : coalescing.coalescer.pending.isEmpty with
      | true => simp [output, TrackCoalescer.flush, TrackCoalescer.cuts, TrackCoalescer.taken, empty]
      | false => simp [output, TrackCoalescer.flush, TrackCoalescer.cuts, TrackCoalescer.taken, empty]

theorem apply_coalescer (coalescing : Coalescing) (op : CoalescerOp) :
    (coalescing.apply op).coalescer = (coalescing.coalescer.cutBy op).taken op := by
  rw [apply, output_eq]

theorem apply_flushed (coalescing : Coalescing) (op : CoalescerOp) :
    (coalescing.apply op).flushed =
      if coalescing.coalescer.cuts op then coalescing.flushed ++ [coalescing.coalescer.flushPending.1]
      else coalescing.flushed := by
  rw [apply, output_eq]
  split
  · rfl
  · exact List.append_nil _

-- What the coalescer of a track holds and has given out, after the samples `pushed`.
structure Tracked (trackId : Nat) (pushed : List RawSample) (coalescing : Coalescing) : Prop where
  holds : coalescing.coalescer.Holds
  track : coalescing.coalescer.trackId = trackId
  content : coalescing.flushed.flatMap Batch.samples ++ coalescing.coalescer.pending = pushed
  counter : coalescing.coalescer.nextSequence = (coalescing.flushed.length + 1) % 2 ^ 32

theorem new_tracked (trackId : Nat) (policy : CmafPolicy) : Tracked trackId [] (new trackId policy) :=
  ⟨TrackCoalescer.new_holds trackId policy, rfl, rfl, rfl⟩

theorem cut_tracked (trackId : Nat) (pushed : List RawSample) (coalescing : Coalescing) (op : CoalescerOp)
    (tracked : Tracked trackId pushed coalescing) :
    Tracked trackId pushed ⟨coalescing.coalescer.cutBy op, (coalescing.apply op).flushed⟩ := by
  rw [apply_flushed, TrackCoalescer.cutBy]
  split
  · refine ⟨coalescing.coalescer.flush_pending_holds, tracked.track, ?_, ?_⟩
    · rw [← tracked.content, List.flatMap_append, List.flatMap_singleton]
      exact List.append_nil _
    · dsimp only [TrackCoalescer.flushPending]
      rw [tracked.counter, List.length_append, List.length_singleton, Nat.mod_add_mod]
  · exact tracked

theorem apply_tracked (trackId : Nat) (pushed : List RawSample) (coalescing : Coalescing) (op : CoalescerOp)
    (tracked : Tracked trackId pushed coalescing) : Tracked trackId (pushed ++ op.samples) (coalescing.apply op) := by
  have cut := cut_tracked trackId pushed coalescing op tracked
  have same : coalescing.apply op =
      ⟨(coalescing.coalescer.cutBy op).taken op, (coalescing.apply op).flushed⟩ := by
    rw [← apply_coalescer]
  rw [same]
  cases op with
  | push sample =>
      obtain ⟨pending, track, _, counter, _⟩ := (coalescing.coalescer.cutBy (.push sample)).opened_fields sample
      refine ⟨TrackCoalescer.appended_holds _ sample cut.holds, track.trans cut.track, ?_, counter.trans cut.counter⟩
      have content := cut.content
      simp only [TrackCoalescer.taken, TrackCoalescer.append, CoalescerOp.samples, pending] at content ⊢
      rw [← List.append_assoc, content]
  | flush =>
      rw [CoalescerOp.samples, List.append_nil]
      exact cut

theorem run_tracked (trackId : Nat) (pushed : List RawSample) (coalescing : Coalescing) (ops : List CoalescerOp)
    (tracked : Tracked trackId pushed coalescing) :
    Tracked trackId (pushed ++ ops.flatMap CoalescerOp.samples) (Machine.run apply coalescing ops) := by
  induction ops generalizing pushed coalescing with
  | nil => rwa [List.flatMap_nil, List.append_nil]
  | cons op ops ih =>
      rw [List.flatMap_cons, ← List.append_assoc]
      exact ih _ _ (apply_tracked trackId pushed coalescing op tracked)

def Conserved (trackId : Nat) (coalescing : Coalescing) : Prop :=
  ∀ (index : Nat) (batch : Batch), coalescing.flushed[index]? = some batch → batch.Conveys trackId (index + 1)

-- A batch is given out while its number fits the counter and its samples one moof.
def InRange (coalescing : Coalescing) (op : CoalescerOp) : Prop :=
  coalescing.coalescer.cuts op = true →
    coalescing.flushed.length + 1 < 2 ^ 32 ∧ coalescing.coalescer.pending.length ≤ MAX_BATCH

instance (coalescing : Coalescing) (op : CoalescerOp) : Decidable (InRange coalescing op) :=
  inferInstanceAs (Decidable (_ → _))

theorem cuts_pending (coalescer : TrackCoalescer) (op : CoalescerOp) (cut : coalescer.cuts op = true) :
    coalescer.pending ≠ [] := by
  cases op with
  | push sample =>
      rw [TrackCoalescer.cuts, Bool.and_eq_true, Bool.not_eq_true'] at cut
      exact List.isEmpty_eq_false_iff.mp cut.1
  | flush =>
      rw [TrackCoalescer.cuts, Bool.not_eq_true'] at cut
      exact List.isEmpty_eq_false_iff.mp cut

theorem flush_pending_conveys_iff (trackId : Nat) (pushed : List RawSample) (coalescing : Coalescing)
    (tracked : Tracked trackId pushed coalescing) (pending : coalescing.coalescer.pending ≠ []) :
    coalescing.coalescer.flushPending.1.Conveys trackId (coalescing.flushed.length + 1) ↔
      coalescing.flushed.length + 1 < 2 ^ 32 ∧ coalescing.coalescer.pending.length ≤ MAX_BATCH := by
  constructor
  · intro conveys
    refine ⟨?_, (chunk_is_some _).mp conveys.written⟩
    have sequence : coalescing.coalescer.nextSequence = coalescing.flushed.length + 1 := conveys.sequence
    rw [tracked.counter] at sequence
    have below := Nat.mod_lt (coalescing.flushed.length + 1) (show 0 < 2 ^ 32 by decide)
    omega
  · rintro ⟨few, fits⟩
    refine ⟨tracked.counter.trans (Nat.mod_eq_of_lt few), tracked.track, pending, ?_, ?_, (chunk_is_some _).mpr fits⟩
    · change some (coalescing.coalescer.pendingDts.getD 0) = _
      rw [tracked.holds.dts]
      cases samples : coalescing.coalescer.pending with
      | nil => exact absurd samples pending
      | cons sample rest => simp [TrackCoalescer.flushPending, samples]
    · exact tracked.holds.duration.trans (Nat.mod_eq_of_lt (total_ticks_lt _ fits))

theorem conserved_snoc_iff (trackId : Nat) (coalescer : TrackCoalescer) (coalescing : Coalescing) (batch : Batch)
    (conserved : Conserved trackId coalescing) :
    Conserved trackId ⟨coalescer, coalescing.flushed ++ [batch]⟩ ↔ batch.Conveys trackId (coalescing.flushed.length + 1) := by
  constructor
  · intro longer
    exact longer coalescing.flushed.length batch (by simp)
  · intro conveys index other found
    by_cases earlier : index < coalescing.flushed.length
    · dsimp only at found
      rw [List.getElem?_append_left earlier] at found
      exact conserved index other found
    · dsimp only at found
      rw [List.getElem?_append_right (Nat.le_of_not_lt earlier), List.getElem?_singleton] at found
      split at found
      · cases found
        rwa [show index = coalescing.flushed.length by omega]
      · cases found

theorem apply_conserved_iff (trackId : Nat) (pushed : List RawSample) (coalescing : Coalescing) (op : CoalescerOp)
    (tracked : Tracked trackId pushed coalescing) (conserved : Conserved trackId coalescing) :
    Conserved trackId (coalescing.apply op) ↔ InRange coalescing op := by
  have same : Conserved trackId (coalescing.apply op) ↔
      Conserved trackId ⟨coalescing.coalescer, (coalescing.apply op).flushed⟩ := Iff.rfl
  rw [same, apply_flushed, InRange]
  by_cases cut : coalescing.coalescer.cuts op = true
  · have pending := cuts_pending coalescing.coalescer op cut
    rw [if_pos cut, conserved_snoc_iff trackId _ coalescing _ conserved,
      flush_pending_conveys_iff trackId pushed coalescing tracked pending]
    exact ⟨fun fits _ => fits, fun fits => fits cut⟩
  · rw [if_neg cut]
    exact ⟨fun _ cutting => absurd cutting cut, fun _ => conserved⟩

end Coalescing

end Lvqr.Cmaf

-- The coalescer of raw samples and the policy of pre-muxed fragments start their
-- segments at the same samples.
namespace Lvqr.Cmaf

def headed (kind : CmafChunkKind) : List RawSample → List (RawSample × Bool)
  | [] => []
  | first :: rest => (first, kind.isSegmentStart) :: rest.map fun sample => (sample, false)

def Batch.heads (batch : Batch) : List (RawSample × Bool) := headed batch.kind batch.samples

def decisions (state : CmafPolicyState) : List RawSample → List (RawSample × Bool)
  | [] => []
  | sample :: rest =>
      (sample, (state.step sample.keyframe sample.dts).1.isSegmentStart) ::
        decisions (state.step sample.keyframe sample.dts).2 rest

-- What has been cut and what is still pending.
def Coalescing.heads (coalescing : Coalescing) : List (RawSample × Bool) :=
  coalescing.flushed.flatMap Batch.heads ++ headed coalescing.coalescer.pendingKind coalescing.coalescer.pending

theorem headed_snoc (kind : CmafChunkKind) (samples : List RawSample) (sample : RawSample) (pending : samples ≠ []) :
    headed kind (samples ++ [sample]) = headed kind samples ++ [(sample, false)] := by
  cases samples with
  | nil => exact absurd rfl pending
  | cons first rest => simp [headed]

-- The two states agree on where the segment has started.
structure Agrees (coalescer : TrackCoalescer) (state : CmafPolicyState) : Prop where
  policy : coalescer.policy = state.policy
  segmentStart : coalescer.segmentStartDts = state.lastSegmentStartDts

theorem step_segment (state : CmafPolicyState) (coalescer : TrackCoalescer) (sample : RawSample)
    (agrees : Agrees coalescer state) :
    (state.step sample.keyframe sample.dts).1.isSegmentStart = coalescer.startsSegment sample ∧
      (state.step sample.keyframe sample.dts).2.policy = state.policy ∧
      (state.step sample.keyframe sample.dts).2.lastSegmentStartDts =
        if coalescer.startsSegment sample then some sample.dts else state.lastSegmentStartDts := by
  obtain ⟨policy, segmentStart⟩ := agrees
  rw [TrackCoalescer.startsSegment, segmentStart, CmafPolicyState.step, policy]
  cases started : state.lastSegmentStartDts with
  | none => exact ⟨rfl, rfl, rfl⟩
  | some start =>
      by_cases boundary : sample.keyframe = true ∧ state.policy.segmentDuration ≤ sample.dts - start
      · simp [boundary, CmafChunkKind.isSegmentStart]
      · have inside : (sample.keyframe && decide (state.policy.segmentDuration ≤ sample.dts - start)) = false := by
          rw [Bool.eq_false_iff, ne_eq, Bool.and_eq_true, decide_eq_true_eq]
          exact boundary
        simp only [if_neg boundary, inside]
        split
        · exact ⟨rfl, rfl, rfl⟩
        · split
          · exact ⟨rfl, rfl, rfl⟩
          · exact ⟨rfl, rfl, started⟩

theorem cut_heads (coalescing : Coalescing) (op : CoalescerOp) :
    (⟨coalescing.coalescer.cutBy op, (coalescing.apply op).flushed⟩ : Coalescing).heads = coalescing.heads := by
  rw [Coalescing.heads, Coalescing.apply_flushed, TrackCoalescer.cutBy]
  split
  · simp only [List.flatMap_append, List.flatMap_singleton]
    exact List.append_nil _
  · rfl

theorem cut_agrees (coalescer : TrackCoalescer) (op : CoalescerOp) (state : CmafPolicyState)
    (agrees : Agrees coalescer state) : Agrees (coalescer.cutBy op) state := by
  rw [TrackCoalescer.cutBy]
  split
  · exact ⟨agrees.policy, agrees.segmentStart⟩
  · exact agrees

theorem classify_segment (coalescer : TrackCoalescer) (sample : RawSample) :
    (coalescer.classify sample).isSegmentStart = coalescer.startsSegment sample := by
  rw [TrackCoalescer.classify]
  cases coalescer.startsSegment sample with
  | true => rfl
  | false =>
      cases sample.keyframe with
      | true => rfl
      | false => rfl

-- A sample that joins the pending batch starts no segment.
theorem joins_inside (coalescer : TrackCoalescer) (sample : RawSample) (holds : coalescer.Holds)
    (pending : coalescer.pending ≠ []) (joins : coalescer.cuts (.push sample) = false) :
    coalescer.startsSegment sample = false := by
  obtain ⟨start, started⟩ := Option.isSome_iff_exists.mp (holds.segmentStart pending)
  have notEmpty : coalescer.pending.isEmpty = false := List.isEmpty_eq_false_iff.mpr pending
  rw [TrackCoalescer.cuts, notEmpty, Bool.not_false, Bool.true_and, TrackCoalescer.closes, started,
    Bool.or_eq_false_iff] at joins
  rw [TrackCoalescer.startsSegment, started]
  exact joins.2

theorem push_agrees (coalescing : Coalescing) (state : CmafPolicyState) (sample : RawSample)
    (holds : coalescing.coalescer.Holds) (agrees : Agrees coalescing.coalescer state) :
    (coalescing.apply (.push sample)).heads =
        coalescing.heads ++ [(sample, (state.step sample.keyframe sample.dts).1.isSegmentStart)] ∧
      Agrees (coalescing.apply (.push sample)).coalescer (state.step sample.keyframe sample.dts).2 := by
  let cut := coalescing.coalescer.cutBy (.push sample)
  have agreesCut : Agrees cut state := cut_agrees _ _ _ agrees
  obtain ⟨decision, policy, segmentStart⟩ := step_segment state cut sample agreesCut
  obtain ⟨samePending, _, samePolicy, _, _⟩ := cut.opened_fields sample
  have after : coalescing.apply (.push sample) =
      ⟨(cut.opened sample).append sample, (coalescing.apply (.push sample)).flushed⟩ := by
    rw [← TrackCoalescer.taken, ← Coalescing.apply_coalescer]
  have before := cut_heads coalescing (.push sample)
  rw [after, decision, ← before]
  by_cases empty : cut.pending = []
  · have opened : cut.opened sample =
        { cut with
          segmentStartDts := if cut.startsSegment sample then some sample.dts else cut.segmentStartDts
          pendingKind := cut.classify sample
          partialStartDts := some sample.dts
          pendingDts := some sample.dts } := by
      rw [TrackCoalescer.opened, empty]
      rfl
    have nothing : (coalescing.coalescer.cutBy (.push sample)).pending = [] := empty
    refine ⟨?_, samePolicy.trans (agreesCut.policy.trans policy.symm), ?_⟩
    · rw [opened]
      simp only [Coalescing.heads, TrackCoalescer.append, empty, nothing, headed, List.nil_append, List.append_nil,
        List.map_nil, classify_segment]
    · rw [opened, segmentStart, ← agreesCut.segmentStart]
      rfl
  · have opened : cut.opened sample = cut := cut.opened_same sample empty
    have joins : coalescing.coalescer.cuts (.push sample) = false := by
      by_contra cutting
      have gone : cut.pending = [] := by
        change (coalescing.coalescer.cutBy (.push sample)).pending = []
        rw [TrackCoalescer.cutBy, if_pos (by simpa using cutting)]
        rfl
      exact empty gone
    have same : cut = coalescing.coalescer := if_neg (by rw [joins]; decide)
    have inside : cut.startsSegment sample = false := by
      rw [same] at empty ⊢
      exact joins_inside _ sample holds empty joins
    rw [inside] at segmentStart ⊢
    refine ⟨?_, samePolicy.trans (agreesCut.policy.trans policy.symm), ?_⟩
    · rw [opened]
      simp only [Coalescing.heads, TrackCoalescer.append]
      rw [headed_snoc _ _ _ empty, List.append_assoc]
    · rw [opened, segmentStart]
      exact agreesCut.segmentStart

theorem flush_agrees (coalescing : Coalescing) (state : CmafPolicyState) (agrees : Agrees coalescing.coalescer state) :
    (coalescing.apply .flush).heads = coalescing.heads ∧ Agrees (coalescing.apply .flush).coalescer state := by
  have coalescer : (coalescing.apply .flush).coalescer = coalescing.coalescer.cutBy .flush :=
    Coalescing.apply_coalescer coalescing .flush
  have after : coalescing.apply .flush =
      ⟨coalescing.coalescer.cutBy .flush, (coalescing.apply .flush).flushed⟩ := by
    rw [← coalescer]
  rw [after]
  exact ⟨cut_heads coalescing .flush, cut_agrees _ _ _ agrees⟩

theorem run_agrees (coalescing : Coalescing) (state : CmafPolicyState) (trackId : Nat) (pushed : List RawSample)
    (ops : List CoalescerOp) (tracked : Coalescing.Tracked trackId pushed coalescing)
    (agrees : Agrees coalescing.coalescer state) :
    (Machine.run Coalescing.apply coalescing ops).heads =
      coalescing.heads ++ decisions state (ops.flatMap CoalescerOp.samples) := by
  induction ops generalizing coalescing state pushed with
  | nil => exact (List.append_nil _).symm
  | cons op ops ih =>
      have next := Coalescing.apply_tracked trackId pushed coalescing op tracked
      cases op with
      | push sample =>
          obtain ⟨heads, agreesNext⟩ := push_agrees coalescing state sample tracked.holds agrees
          rw [Machine.run_cons, ih _ _ _ next agreesNext, heads, List.append_assoc]
          rfl
      | flush =>
          obtain ⟨heads, agreesNext⟩ := flush_agrees coalescing state agrees
          rw [Machine.run_cons, ih _ _ _ next agreesNext, heads]
          rfl

theorem segment_heads_agree (trackId : Nat) (policy : CmafPolicy) (ops : List CoalescerOp) :
    (Machine.run Coalescing.apply (.new trackId policy) ops).heads =
      decisions (.new policy) (ops.flatMap CoalescerOp.samples) :=
  run_agrees _ (.new policy) trackId [] ops (Coalescing.new_tracked trackId policy) ⟨rfl, rfl⟩

end Lvqr.Cmaf
