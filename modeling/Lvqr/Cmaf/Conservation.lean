import Lvqr.Cmaf.Segmenter

set_option autoImplicit false

-- Every sample the segmenter takes in leaves it in exactly one chunk.
namespace Lvqr.Cmaf

open Coalescing (Tracked Conserved InRange apply_flushed apply_coalescer)

section Flushing

variable {policy : CmafPolicy} {ops : Nat → List CoalescerOp} {returned : List Batch} {segmenter : CmafSampleSegmenter}

theorem flush_settles (coalescing : Coalescing) (empty : coalescing.coalescer.pending = []) :
    coalescing.apply .flush = coalescing := by
  have kept : coalescing.coalescer.cuts .flush = false := by
    rw [TrackCoalescer.cuts, empty]
    rfl
  have coalescer := apply_coalescer coalescing .flush
  have flushed := apply_flushed coalescing .flush
  rw [TrackCoalescer.cutBy, kept] at coalescer
  rw [kept] at flushed
  calc coalescing.apply .flush
      = ⟨(coalescing.apply .flush).coalescer, (coalescing.apply .flush).flushed⟩ := rfl
    _ = coalescing := by
        rw [coalescer, flushed]
        rfl

theorem flush_empties (coalescing : Coalescing) : (coalescing.apply .flush).coalescer.pending = [] := by
  rw [apply_coalescer, TrackCoalescer.taken, TrackCoalescer.cutBy]
  split
  · rfl
  · rename_i kept
    rwa [TrackCoalescer.cuts, Bool.not_eq_true', Bool.not_eq_false, List.isEmpty_iff] at kept

theorem Mirrors.settled {more : Nat → List CoalescerOp} (mirrors : Mirrors policy ops returned segmenter)
    (same : ∀ trackId, Machine.run Coalescing.apply (.new trackId policy) (more trackId) =
      Machine.run Coalescing.apply (.new trackId policy) (ops trackId)) :
    Mirrors policy more returned segmenter := by
  refine ⟨mirrors.configured, ?_, ?_⟩
  · intro trackId
    rw [same trackId]
    exact mirrors.coalescer trackId
  · intro trackId
    rw [same trackId]
    exact mirrors.flushed trackId

-- A track without a coalescer has nothing to flush.
theorem flush_unknown (trackId : Nat) (mirrors : Mirrors policy ops returned segmenter)
    (unknown : segmenter.coalescers.lookup trackId = none) :
    Machine.run Coalescing.apply (.new trackId policy) (ops trackId ++ [.flush]) =
      Machine.run Coalescing.apply (.new trackId policy) (ops trackId) := by
  have fresh : segmenter.coalescerOf trackId = .new trackId segmenter.defaultPolicy := by
    rw [CmafSampleSegmenter.coalescerOf, unknown]
    rfl
  rw [Machine.run_snoc]
  apply flush_settles
  rw [← mirrors.coalescer trackId, fresh]
  rfl

theorem flush_track_mirrors (trackId : Nat) (mirrors : Mirrors policy ops returned segmenter) :
    Mirrors policy (Function.update ops trackId (ops trackId ++ [.flush])) returned (segmenter.flushTrack trackId) := by
  cases found : segmenter.coalescers.lookup trackId with
  | none =>
      rw [CmafSampleSegmenter.flushTrack, found]
      refine mirrors.settled fun other => ?_
      by_cases here : other = trackId
      · rw [here, Function.update_self]
        exact flush_unknown trackId mirrors found
      · rw [Function.update_of_ne here]
  | some coalescer =>
      have same : segmenter.coalescerOf trackId = coalescer := by
        rw [CmafSampleSegmenter.coalescerOf, found]
        rfl
      have stored := store_mirrors trackId .flush mirrors
      rw [same] at stored
      rw [CmafSampleSegmenter.flushTrack, found]
      exact stored

theorem flush_tracks_mirrors (tracks : List Nat) (once : tracks.Nodup) (mirrors : Mirrors policy ops returned segmenter) :
    Mirrors policy (fun trackId => if trackId ∈ tracks then ops trackId ++ [.flush] else ops trackId) returned
      (tracks.foldl CmafSampleSegmenter.flushTrack segmenter) := by
  induction tracks generalizing ops segmenter with
  | nil => simpa using mirrors
  | cons first tracks ih =>
      obtain ⟨absent, once⟩ := List.nodup_cons.mp once
      have rest := ih once (flush_track_mirrors first mirrors)
      have same : (fun trackId => if trackId ∈ first :: tracks then ops trackId ++ [.flush] else ops trackId) =
          fun trackId =>
            if trackId ∈ tracks then Function.update ops first (ops first ++ [.flush]) trackId ++ [.flush]
            else Function.update ops first (ops first ++ [.flush]) trackId := by
        funext trackId
        by_cases here : trackId = first
        · rw [here, if_pos (List.mem_cons_self ..), if_neg absent, Function.update_self]
        · simp [here]
      rw [same]
      exact rest

-- Whatever the order, each track is flushed once.
theorem flush_all_mirrors (order : IterationOrder) (mirrors : Mirrors policy ops returned segmenter) :
    Mirrors policy (fun trackId => ops trackId ++ [.flush]) returned (segmenter.flushAll order) := by
  have listed := order.perm segmenter.coalescers
  have once : (order.keys segmenter.coalescers).Nodup := listed.nodup_iff.mpr segmenter.coalescers.nodupKeys
  refine (flush_tracks_mirrors (order.keys segmenter.coalescers) once mirrors).settled fun trackId => ?_
  split
  · rfl
  · rename_i absent
    apply flush_unknown trackId mirrors
    exact AList.lookup_eq_none.mpr fun member => absent (listed.mem_iff.mpr (AList.mem_keys.mp member))

end Flushing

-- What the tracks have been fed when `consumed` is read, and the stream over or not.
def opsAfter (consumed : List RawSample) (drained : Bool) (trackId : Nat) : List CoalescerOp :=
  (onTrack trackId consumed).map CoalescerOp.push ++ if drained then [.flush] else []

theorem ops_after_snoc (consumed : List RawSample) (sample : RawSample) :
    opsAfter (consumed ++ [sample]) false =
      Function.update (opsAfter consumed false) sample.trackId (opsAfter consumed false sample.trackId ++ [.push sample]) := by
  funext trackId
  by_cases here : trackId = sample.trackId
  · rw [here, Function.update_self]
    simp [opsAfter, onTrack]
  · rw [Function.update_of_ne here]
    have other : sample.trackId ≠ trackId := fun same => here same.symm
    simp [opsAfter, onTrack, other]

structure Reached (samples : List RawSample) (policy : CmafPolicy) (consumed : List RawSample) (pulling : Pulling) :
    Prop where
  read : consumed ++ pulling.segmenter.stream = samples
  exhausted : pulling.segmenter.drained = true → pulling.segmenter.stream = []
  mirrors : Mirrors policy (opsAfter consumed pulling.segmenter.drained) pulling.returned pulling.segmenter
  ended : pulling.ended = true → pulling.segmenter.drained = true ∧ pulling.segmenter.ready = []

section Pulls

variable {samples consumed : List RawSample} {policy : CmafPolicy} {returned : List Batch}
  {segmenter : CmafSampleSegmenter}

def popped (returned : List Batch) (segmenter : CmafSampleSegmenter) : Pulling :=
  ⟨segmenter.popFront.2, returned ++ segmenter.popFront.1.toList, segmenter.popFront.1.isNone⟩

theorem pop_stream (segmenter : CmafSampleSegmenter) :
    segmenter.popFront.2.stream = segmenter.stream ∧ segmenter.popFront.2.drained = segmenter.drained := by
  rw [CmafSampleSegmenter.popFront]
  split <;> exact ⟨rfl, rfl⟩

theorem popped_reached (read : consumed ++ segmenter.stream = samples)
    (exhausted : segmenter.drained = true → segmenter.stream = [])
    (mirrors : Mirrors policy (opsAfter consumed segmenter.drained) returned segmenter)
    (pops : segmenter.ready = [] → segmenter.drained = true) :
    Reached samples policy consumed (popped returned segmenter) := by
  obtain ⟨stream, drained⟩ := pop_stream segmenter
  have kept := pop_mirrors mirrors
  rw [← drained] at kept
  refine ⟨?_, ?_, kept, ?_⟩
  · exact (congrArg (consumed ++ ·) stream).trans read
  · intro isDrained
    exact stream.trans (exhausted (drained.symm.trans isDrained))
  · intro nothing
    cases waiting : segmenter.ready with
    | nil =>
        refine ⟨drained.trans (pops waiting), ?_⟩
        simp [popped, CmafSampleSegmenter.popFront, waiting]
    | cons batch ready => simp [popped, CmafSampleSegmenter.popFront, waiting] at nothing

theorem flush_all_stream (order : IterationOrder) (segmenter : CmafSampleSegmenter) :
    (segmenter.flushAll order).stream = segmenter.stream ∧ (segmenter.flushAll order).drained = segmenter.drained := by
  have kept : ∀ (tracks : List Nat) (segmenter : CmafSampleSegmenter),
      (tracks.foldl CmafSampleSegmenter.flushTrack segmenter).stream = segmenter.stream ∧
        (tracks.foldl CmafSampleSegmenter.flushTrack segmenter).drained = segmenter.drained := by
    intro tracks
    induction tracks with
    | nil => exact fun _ => ⟨rfl, rfl⟩
    | cons first tracks ih =>
        intro segmenter
        have here : (segmenter.flushTrack first).stream = segmenter.stream ∧
            (segmenter.flushTrack first).drained = segmenter.drained := by
          rw [CmafSampleSegmenter.flushTrack]
          split <;> exact ⟨rfl, rfl⟩
        rw [List.foldl_cons]
        exact ⟨(ih _).1.trans here.1, (ih _).2.trans here.2⟩
  exact kept _ segmenter

theorem drain_reached (order : IterationOrder) (before : Bool) (exhausted : segmenter.stream = [])
    (drained : segmenter.drained = true) (mirrors : Mirrors policy (opsAfter samples before) returned segmenter) :
    Reached samples policy samples (popped returned (segmenter.flushAll order)) := by
  obtain ⟨stream, same⟩ := flush_all_stream order segmenter
  refine popped_reached ?_ (fun _ => stream.trans exhausted) ?_ (fun _ => same.trans drained)
  · rw [stream, exhausted, List.append_nil]
  · rw [same, drained]
    refine (flush_all_mirrors order mirrors).settled fun trackId => ?_
    cases before with
    | false => simp [opsAfter]
    | true =>
        have twice : opsAfter samples true trackId = opsAfter samples false trackId ++ [.flush] := by simp [opsAfter]
        rw [Machine.run_snoc]
        refine (flush_settles _ ?_).symm
        rw [twice, Machine.run_snoc]
        exact flush_empties _

theorem poll_reached (order : IterationOrder) (stream : List RawSample) (read : consumed ++ stream = samples)
    (live : segmenter.drained = false) (mirrors : Mirrors policy (opsAfter consumed false) returned segmenter) :
    ∃ more, Reached samples policy more
      ⟨(segmenter.poll order stream).2, returned ++ (segmenter.poll order stream).1.toList,
        (segmenter.poll order stream).1.isNone⟩ := by
  induction stream generalizing consumed segmenter with
  | nil =>
      rw [List.append_nil] at read
      subst read
      refine ⟨consumed, ?_⟩
      have ended : Mirrors policy (opsAfter consumed false) returned { segmenter with stream := [], drained := true } :=
        ⟨mirrors.configured, mirrors.coalescer, mirrors.flushed⟩
      exact drain_reached order false rfl rfl ended
  | cons sample stream ih =>
      have taken : Mirrors policy (opsAfter consumed false) returned { segmenter with stream := stream } :=
        ⟨mirrors.configured, mirrors.coalescer, mirrors.flushed⟩
      have routed := route_mirrors sample taken
      rw [← ops_after_snoc] at routed
      have readMore : (consumed ++ [sample]) ++ stream = samples := by rw [← read, List.append_assoc, List.singleton_append]
      by_cases waiting : ({ segmenter with stream := stream }.route sample).ready.isEmpty = true
      · have polled : segmenter.poll order (sample :: stream) =
            ({ segmenter with stream := stream }.route sample).poll order stream := if_pos waiting
        rw [polled]
        exact ih readMore live routed
      · have polled : segmenter.poll order (sample :: stream) =
            ({ segmenter with stream := stream }.route sample).popFront := if_neg waiting
        rw [polled]
        refine ⟨consumed ++ [sample], popped_reached readMore ?_ ?_ ?_⟩
        · intro drained
          exact absurd (live.symm.trans drained) (by decide)
        · have stays : ({ segmenter with stream := stream }.route sample).drained = false := live
          rw [stays]
          exact routed
        · intro nothing
          exact absurd (List.isEmpty_iff.mpr nothing) waiting

end Pulls

theorem apply_reached (samples : List RawSample) (policy : CmafPolicy) (consumed : List RawSample) (pulling : Pulling)
    (order : IterationOrder) (reached : Reached samples policy consumed pulling) :
    ∃ more, Reached samples policy more (pulling.apply order) := by
  rw [Pulling.apply, CmafSampleSegmenter.nextChunk]
  by_cases waiting : (!pulling.segmenter.ready.isEmpty) = true
  · rw [if_pos waiting]
    refine ⟨consumed, popped_reached reached.read reached.exhausted reached.mirrors ?_⟩
    intro nothing
    simp [nothing] at waiting
  · rw [if_neg waiting]
    cases drained : pulling.segmenter.drained with
    | true =>
        have exhausted := reached.exhausted drained
        have mirrors := reached.mirrors
        have all := reached.read
        rw [exhausted, List.append_nil] at all
        rw [all] at mirrors
        exact ⟨samples, drain_reached order pulling.segmenter.drained exhausted drained mirrors⟩
    | false =>
        have mirrors := reached.mirrors
        rw [drained] at mirrors
        exact poll_reached order pulling.segmenter.stream reached.read drained mirrors

theorem new_reached (samples : List RawSample) (policy : CmafPolicy) :
    Reached samples policy [] (.new samples policy) := by
  refine ⟨rfl, fun drained => absurd drained Bool.false_ne_true, ?_, fun ended => absurd ended Bool.false_ne_true⟩
  exact new_mirrors samples policy

theorem run_reached (samples : List RawSample) (policy : CmafPolicy) (orders : List IterationOrder) :
    ∃ consumed, Reached samples policy consumed (Machine.run Pulling.apply (.new samples policy) orders) := by
  let Inv : Pulling → Prop := fun pulling => ∃ consumed, Reached samples policy consumed pulling
  have keeps : ∀ pulling order, Inv pulling → Inv (pulling.apply order) := by
    rintro pulling order ⟨consumed, reached⟩
    exact apply_reached samples policy consumed pulling order reached
  exact Machine.invariant_of_run keeps _ orders ⟨[], new_reached samples policy⟩

def coalesced (trackId : Nat) (policy : CmafPolicy) (ops : List CoalescerOp) : Coalescing :=
  Machine.run Coalescing.apply (.new trackId policy) ops

theorem coalesced_tracked (trackId : Nat) (policy : CmafPolicy) (ops : List CoalescerOp) :
    Tracked trackId (ops.flatMap CoalescerOp.samples) (coalesced trackId policy ops) :=
  Coalescing.run_tracked trackId [] _ ops (Coalescing.new_tracked trackId policy)

theorem ops_after_samples (consumed : List RawSample) (drained : Bool) (trackId : Nat) :
    (opsAfter consumed drained trackId).flatMap CoalescerOp.samples = onTrack trackId consumed := by
  have pushes : ((onTrack trackId consumed).map CoalescerOp.push).flatMap CoalescerOp.samples = onTrack trackId consumed := by
    induction onTrack trackId consumed with
    | nil => rfl
    | cons sample rest ih => rw [List.map_cons, List.flatMap_cons, ih, CoalescerOp.samples, List.singleton_append]
  rw [opsAfter, List.flatMap_append, pushes]
  cases drained with
  | true => exact List.append_nil _
  | false => exact List.append_nil _

theorem flushed_grows (coalescing : Coalescing) (ops : List CoalescerOp) :
    coalescing.flushed <+: (Machine.run Coalescing.apply coalescing ops).flushed := by
  induction ops generalizing coalescing with
  | nil => exact List.prefix_rfl
  | cons op ops ih => exact (List.prefix_append _ _).trans (ih (coalescing.apply op))

theorem conserved_of_prefix (trackId : Nat) (before after : Coalescing) (earlier : before.flushed <+: after.flushed)
    (conserved : Conserved trackId after) : Conserved trackId before := by
  obtain ⟨rest, later⟩ := earlier
  intro index batch found
  have inside : index < before.flushed.length := (List.getElem?_eq_some_iff.mp found).1
  apply conserved index batch
  rw [← later, List.getElem?_append_left inside, found]

section Runs

variable {samples consumed : List RawSample} {policy : CmafPolicy} {pulling : Pulling}

theorem reached_prefix (reached : Reached samples policy consumed pulling) (trackId : Nat) :
    opsAfter consumed pulling.segmenter.drained trackId <+: trackOps trackId samples := by
  rw [trackOps, ← reached.read]
  cases drained : pulling.segmenter.drained with
  | true =>
      rw [reached.exhausted drained, List.append_nil]
      exact List.prefix_rfl
  | false =>
      rw [opsAfter, onTrack, onTrack, List.filter_append, List.map_append, List.append_assoc, if_neg (by decide),
        List.append_nil]
      exact List.prefix_append _ _

theorem returned_prefix (reached : Reached samples policy consumed pulling) (trackId : Nat) :
    batchesOf trackId pulling.returned <+:
      (coalesced trackId policy (opsAfter consumed pulling.segmenter.drained trackId)).flushed := by
  have flushed := reached.mirrors.flushed trackId
  rw [batchesOf, List.filter_append] at flushed
  exact ⟨_, flushed⟩

theorem reached_content (reached : Reached samples policy consumed pulling) (trackId : Nat) :
    (batchesOf trackId pulling.returned).flatMap Batch.samples <+: onTrack trackId samples := by
  obtain ⟨waiting, flushed⟩ := returned_prefix reached trackId
  have content := (coalesced_tracked trackId policy (opsAfter consumed pulling.segmenter.drained trackId)).content
  rw [ops_after_samples, ← flushed, List.flatMap_append, List.append_assoc] at content
  have read : onTrack trackId consumed <+: onTrack trackId samples := by
    rw [← reached.read, onTrack, onTrack, List.filter_append]
    exact List.prefix_append _ _
  rw [← content] at read
  exact (List.prefix_append _ _).trans read

-- A segmenter that has drained its stream and has nothing ready has returned what
-- the coalescers give out over the whole stream.
theorem quiet_returned (reached : Reached samples policy consumed pulling) (drained : pulling.segmenter.drained = true)
    (nothing : pulling.segmenter.ready = []) (trackId : Nat) :
    batchesOf trackId pulling.returned = (coalesced trackId policy (trackOps trackId samples)).flushed := by
  have flushed := reached.mirrors.flushed trackId
  have all := reached.read
  rw [reached.exhausted drained, List.append_nil] at all
  rw [nothing, List.append_nil, drained, all] at flushed
  exact flushed

theorem reached_complete (reached : Reached samples policy consumed pulling) (ended : pulling.ended = true)
    (trackId : Nat) : (batchesOf trackId pulling.returned).flatMap Batch.samples = onTrack trackId samples := by
  obtain ⟨drained, nothing⟩ := reached.ended ended
  have content := (coalesced_tracked trackId policy (trackOps trackId samples)).content
  have whole : (trackOps trackId samples).flatMap CoalescerOp.samples = onTrack trackId samples :=
    ops_after_samples samples true trackId
  have settled : (coalesced trackId policy (trackOps trackId samples)).coalescer.pending = [] := by
    rw [coalesced, trackOps, Machine.run_snoc]
    exact flush_empties _
  rw [quiet_returned reached drained nothing trackId, ← whole, ← content, settled, List.append_nil]

end Runs

def Pulling.Quiet (pulling : Pulling) : Prop := pulling.segmenter.drained = true ∧ pulling.segmenter.ready = []

theorem route_ready (segmenter : CmafSampleSegmenter) (sample : RawSample) (nothing : segmenter.ready = []) :
    (segmenter.route sample).ready.length ≤ 1 := by
  rw [CmafSampleSegmenter.route, CmafSampleSegmenter.storeOutput]
  dsimp only
  rw [nothing, List.nil_append]
  cases ((segmenter.coalescerOf sample.trackId).push sample).1 with
  | none => exact Nat.zero_le 1
  | some batch => exact Nat.le_refl 1

-- A call that does not come to the end of the stream has read some of it, and has
-- returned the one batch that its last sample cut.
theorem poll_progress (order : IterationOrder) (segmenter : CmafSampleSegmenter) (stream : List RawSample)
    (nothing : segmenter.ready = []) (live : segmenter.drained = false) :
    (segmenter.poll order stream).2.drained = true ∨
      (segmenter.poll order stream).2.ready = [] ∧ (segmenter.poll order stream).2.drained = false ∧
        (segmenter.poll order stream).2.stream.length < stream.length := by
  induction stream generalizing segmenter with
  | nil =>
      left
      rw [CmafSampleSegmenter.poll, (pop_stream _).2, (flush_all_stream _ _).2]
  | cons sample stream ih =>
      let routed := { segmenter with stream := stream }.route sample
      have few : routed.ready.length ≤ 1 := route_ready { segmenter with stream := stream } sample nothing
      by_cases waiting : routed.ready.isEmpty = true
      · have polled : segmenter.poll order (sample :: stream) = routed.poll order stream := if_pos waiting
        rw [polled]
        refine (ih routed (List.isEmpty_iff.mp waiting) live).imp id ?_
        rintro ⟨ready, drained, shorter⟩
        exact ⟨ready, drained, Nat.lt_succ_of_lt shorter⟩
      · have polled : segmenter.poll order (sample :: stream) = routed.popFront := if_neg waiting
        obtain ⟨kept, drained⟩ := pop_stream routed
        rw [polled]
        refine .inr ⟨?_, drained.trans live, ?_⟩
        · rw [CmafSampleSegmenter.popFront]
          cases ready : routed.ready with
          | nil => simp [ready] at waiting
          | cons batch rest =>
              rw [ready, List.length_cons] at few
              exact List.length_eq_zero_iff.mp (show rest.length = 0 by omega)
        · rw [kept]
          exact Nat.lt_succ_self _

theorem drains (pulling : Pulling) (order : IterationOrder) (nothing : pulling.segmenter.ready = []) :
    ∃ orders, (Machine.run Pulling.apply pulling orders).segmenter.drained = true := by
  induction left : pulling.segmenter.stream.length using Nat.strong_induction_on generalizing pulling with
  | _ length ih =>
      cases drained : pulling.segmenter.drained with
      | true => exact ⟨[], drained⟩
      | false =>
          have called : (pulling.apply order).segmenter = (pulling.segmenter.poll order pulling.segmenter.stream).2 := by
            rw [Pulling.apply, CmafSampleSegmenter.nextChunk, nothing, drained]
            rfl
          cases poll_progress order pulling.segmenter pulling.segmenter.stream nothing drained with
          | inl ended =>
              refine ⟨[order], ?_⟩
              rw [Machine.run_cons, Machine.run_nil, called, ended]
          | inr going =>
              obtain ⟨ready, _, shorter⟩ := going
              rw [← called] at ready shorter
              obtain ⟨orders, later⟩ := ih _ (left ▸ shorter) (pulling.apply order) ready rfl
              exact ⟨order :: orders, later⟩

theorem empties (pulling : Pulling) (order : IterationOrder) (drained : pulling.segmenter.drained = true) :
    ∃ orders, (Machine.run Pulling.apply pulling orders).Quiet := by
  induction ready : pulling.segmenter.ready generalizing pulling with
  | nil => exact ⟨[], drained, ready⟩
  | cons batch rest ih =>
      have called : (pulling.apply order).segmenter = { pulling.segmenter with ready := rest } := by
        simp [Pulling.apply, CmafSampleSegmenter.nextChunk, CmafSampleSegmenter.popFront, ready]
      obtain ⟨orders, quiet⟩ := ih (pulling.apply order) (by rw [called, drained]) (by rw [called])
      exact ⟨order :: orders, quiet⟩

theorem quiet_reached (samples : List RawSample) (policy : CmafPolicy) :
    ∃ orders, (Machine.run Pulling.apply (.new samples policy) orders).Quiet := by
  obtain ⟨first, drained⟩ := drains (.new samples policy) .natural rfl
  obtain ⟨second, quiet⟩ := empties _ .natural drained
  exact ⟨first ++ second, by rwa [Machine.run_append]⟩

theorem track_conserved_iff (trackId : Nat) (policy : CmafPolicy) (ops : List CoalescerOp) :
    Conserved trackId (coalesced trackId policy ops) ↔
      Machine.AllSteps InRange Coalescing.apply (.new trackId policy) ops := by
  let Known : Coalescing → Prop := fun coalescing => ∃ pushed, Tracked trackId pushed coalescing
  have keeps : ∀ coalescing op, Known coalescing → Known (coalescing.apply op) := by
    rintro coalescing op ⟨pushed, tracked⟩
    exact ⟨_, Coalescing.apply_tracked trackId pushed coalescing op tracked⟩
  have exact' : ∀ coalescing op, Known coalescing → Conserved trackId coalescing →
      (Conserved trackId (coalescing.apply op) ↔ InRange coalescing op) := by
    rintro coalescing op ⟨pushed, tracked⟩ conserved
    exact Coalescing.apply_conserved_iff trackId pushed coalescing op tracked conserved
  have start : Conserved trackId (.new trackId policy) := by
    intro index batch found
    simp [Coalescing.new] at found
  rw [← Machine.invariant_iff_guarded_under keeps exact' _ ops ⟨[], Coalescing.new_tracked trackId policy⟩ start]
  constructor
  · rintro conserved seen ⟨rest, rfl⟩
    refine conserved_of_prefix trackId _ _ ?_ conserved
    rw [coalesced, Machine.run_append]
    exact flushed_grows _ rest
  · intro always
    exact always ops (List.prefix_refl ops)

theorem allowed_of_conserves (samples : List RawSample) (policy : CmafPolicy)
    (conserves : ∀ orders, Conserves samples (Machine.run Pulling.apply (.new samples policy) orders)) (trackId : Nat) :
    Machine.AllSteps InRange Coalescing.apply (.new trackId policy) (trackOps trackId samples) := by
  obtain ⟨orders, drained, nothing⟩ := quiet_reached samples policy
  obtain ⟨consumed, reached⟩ := run_reached samples policy orders
  rw [← track_conserved_iff]
  intro index batch found
  rw [← quiet_returned reached drained nothing trackId] at found
  exact (conserves orders).conveyed trackId index batch found

theorem samples_conserved_iff (samples : List RawSample) (policy : CmafPolicy) :
    (∀ orders, Conserves samples (Machine.run Pulling.apply (.new samples policy) orders)) ↔
      ∀ trackId, Machine.AllSteps InRange Coalescing.apply (.new trackId policy) (trackOps trackId samples) := by
  refine ⟨allowed_of_conserves samples policy, ?_⟩
  intro allowed orders
  obtain ⟨consumed, reached⟩ := run_reached samples policy orders
  refine ⟨?_, reached_content reached, reached_complete reached⟩
  intro trackId index batch found
  obtain ⟨rest, whole⟩ := reached_prefix reached trackId
  have conserved := (track_conserved_iff trackId policy _).mpr (allowed trackId)
  rw [← whole, coalesced, Machine.run_append] at conserved
  have before := conserved_of_prefix trackId _ _ (flushed_grows _ rest) conserved
  obtain ⟨waiting, flushed⟩ := returned_prefix reached trackId
  have inside : index < (batchesOf trackId (Machine.run Pulling.apply (.new samples policy) orders).returned).length :=
      (List.getElem?_eq_some_iff.mp found).1
  apply before index batch
  change (coalesced trackId policy _).flushed[index]? = some batch
  rw [← flushed, List.getElem?_append_left inside, found]

-- A partial duration of zero cuts in front of every sample but the first.
theorem every_sample_cuts (coalescing : Coalescing) (samples : List RawSample)
    (zero : coalescing.coalescer.policy.partialDuration = 0) (pending : coalescing.coalescer.pending ≠ []) :
    (Machine.run Coalescing.apply coalescing (samples.map CoalescerOp.push)).flushed.length =
        coalescing.flushed.length + samples.length ∧
      (Machine.run Coalescing.apply coalescing (samples.map CoalescerOp.push)).coalescer.pending ≠ [] := by
  induction samples generalizing coalescing with
  | nil => exact ⟨rfl, pending⟩
  | cons sample samples ih =>
      have cut : coalescing.coalescer.cuts (.push sample) = true := by
        simp [TrackCoalescer.cuts, TrackCoalescer.closes, zero, pending]
      have flushed := Coalescing.apply_flushed coalescing (.push sample)
      have coalescer := Coalescing.apply_coalescer coalescing (.push sample)
      rw [if_pos cut] at flushed
      rw [TrackCoalescer.cutBy, if_pos cut, TrackCoalescer.taken] at coalescer
      obtain ⟨_, _, policy, _, _⟩ := coalescing.coalescer.flushPending.2.opened_fields sample
      have zeroStill : (coalescing.apply (.push sample)).coalescer.policy.partialDuration = 0 := by
        rw [coalescer, TrackCoalescer.append]
        dsimp only
        rw [policy]
        exact zero
      have pendingStill : (coalescing.apply (.push sample)).coalescer.pending ≠ [] := by
        rw [coalescer]
        simp [TrackCoalescer.append]
      obtain ⟨length, last⟩ := ih (coalescing.apply (.push sample)) zeroStill pendingStill
      rw [List.map_cons, Machine.run_cons]
      refine ⟨?_, last⟩
      rw [length, flushed, List.length_append, List.length_singleton, List.length_cons]
      omega

def tick : RawSample := ⟨1, 0, 0, 1, [], true⟩

theorem ticks_out_of_range (count : Nat) (many : 2 ^ 32 ≤ count) :
    ¬ Machine.AllSteps InRange Coalescing.apply (.new 1 ⟨0, 0⟩) (trackOps 1 (List.replicate count tick)) := by
  obtain ⟨rest, rfl⟩ : ∃ rest, count = rest + 1 := ⟨count - 1, by omega⟩
  intro allowed
  have all : onTrack 1 (List.replicate (rest + 1) tick) = tick :: List.replicate rest tick :=
    List.filter_eq_self.mpr fun sample member => by
      rw [List.eq_of_mem_replicate member]
      rfl
  rw [trackOps, all, Machine.all_steps_append] at allowed
  have last := allowed.2.1
  have cut := every_sample_cuts (Coalescing.apply (.new 1 ⟨0, 0⟩) (.push tick)) (List.replicate rest tick) rfl (by decide)
  rw [List.map_cons, Machine.run_cons] at last
  have flushes : (Machine.run Coalescing.apply (Coalescing.apply (.new 1 ⟨0, 0⟩) (.push tick))
      ((List.replicate rest tick).map CoalescerOp.push)).coalescer.cuts .flush = true := by
    rw [TrackCoalescer.cuts, Bool.not_eq_true', List.isEmpty_eq_false_iff]
    exact cut.2
  have number := (last flushes).1
  rw [cut.1, List.length_replicate] at number
  omega

-- The chunk after number 2^32 - 1 is number zero.
theorem long_stream_renumbered :
    ¬ ∀ (samples : List RawSample) (policy : CmafPolicy) (orders : List IterationOrder),
      Conserves samples (Machine.run Pulling.apply (.new samples policy) orders) := by
  intro conserves
  have allowed := allowed_of_conserves (List.replicate (2 ^ 32) tick) ⟨0, 0⟩ (conserves _ _) 1
  exact ticks_out_of_range (2 ^ 32) (Nat.le_refl _) allowed

end Lvqr.Cmaf
