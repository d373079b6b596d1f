import Lvqr.Cmaf.Batches
import Lvqr.Lib.Table

set_option autoImplicit false

-- The pull-based segmenter: samples go to the coalescer of their track, batches
-- leave in the order they were cut. A batch stands for the chunk it is encoded to.
namespace Lvqr.Cmaf

-- The order in which a hash map hands out its coalescers.
structure IterationOrder where
  keys : Table Nat TrackCoalescer → List Nat
  perm : ∀ table, (keys table).Perm table.keys

def IterationOrder.natural : IterationOrder := ⟨fun table => table.keys, fun _ => .rfl⟩

structure CmafSampleSegmenter where
  stream : List RawSample
  defaultPolicy : CmafPolicy
  coalescers : Table Nat TrackCoalescer
  ready : List Batch
  drained : Bool

namespace CmafSampleSegmenter

def new (stream : List RawSample) (defaultPolicy : CmafPolicy) : CmafSampleSegmenter :=
  ⟨stream, defaultPolicy, ∅, [], false⟩

def coalescerOf (segmenter : CmafSampleSegmenter) (trackId : Nat) : TrackCoalescer :=
  (segmenter.coalescers.lookup trackId).getD (.new trackId segmenter.defaultPolicy)

def storeOutput (segmenter : CmafSampleSegmenter) (trackId : Nat) (output : Option Batch × TrackCoalescer) :
    CmafSampleSegmenter :=
  { segmenter with
    coalescers := segmenter.coalescers.insert trackId output.2
    ready := segmenter.ready ++ output.1.toList }

def route (segmenter : CmafSampleSegmenter) (sample : RawSample) : CmafSampleSegmenter :=
  segmenter.storeOutput sample.trackId ((segmenter.coalescerOf sample.trackId).push sample)

def flushTrack (segmenter : CmafSampleSegmenter) (trackId : Nat) : CmafSampleSegmenter :=
  match segmenter.coalescers.lookup trackId with
  | none => segmenter
  | some coalescer => segmenter.storeOutput trackId coalescer.flush

def flushAll (segmenter : CmafSampleSegmenter) (order : IterationOrder) : CmafSampleSegmenter :=
  (order.keys segmenter.coalescers).foldl flushTrack segmenter

def popFront (segmenter : CmafSampleSegmenter) : Option Batch × CmafSampleSegmenter :=
  match segmenter.ready with
  | [] => (none, segmenter)
  | batch :: ready => (some batch, { segmenter with ready := ready })

-- The loop of `next_chunk` from a point where nothing is ready; `stream` is what
-- the upstream still has.
def poll (order : IterationOrder) (segmenter : CmafSampleSegmenter) : List RawSample → Option Batch × CmafSampleSegmenter
  | [] => ({ segmenter with stream := [], drained := true }.flushAll order).popFront
  | sample :: stream =>
      let polled := { segmenter with stream := stream }.route sample
      if polled.ready.isEmpty then poll order polled stream else polled.popFront

def nextChunk (order : IterationOrder) (segmenter : CmafSampleSegmenter) : Option Batch × CmafSampleSegmenter :=
  if !segmenter.ready.isEmpty then segmenter.popFront
  else if segmenter.drained then (segmenter.flushAll order).popFront
  else poll order segmenter segmenter.stream

end CmafSampleSegmenter

-- A segmenter with the chunks it has returned, and whether it returned none last.
structure Pulling where
  segmenter : CmafSampleSegmenter
  returned : List Batch
  ended : Bool

namespace Pulling

def new (stream : List RawSample) (policy : CmafPolicy) : Pulling := ⟨.new stream policy, [], false⟩

def apply (pulling : Pulling) (order : IterationOrder) : Pulling :=
  let (batch, segmenter) := pulling.segmenter.nextChunk order
  ⟨segmenter, pulling.returned ++ batch.toList, batch.isNone⟩

end Pulling

def onTrack (trackId : Nat) (samples : List RawSample) : List RawSample := samples.filter fun sample => sample.trackId = trackId

def batchesOf (trackId : Nat) (batches : List Batch) : List Batch := batches.filter fun batch => batch.trackId = trackId

structure Conserves (samples : List RawSample) (pulling : Pulling) : Prop where
  conveyed : ∀ (trackId index : Nat) (batch : Batch), (batchesOf trackId pulling.returned)[index]? = some batch →
    batch.Conveys trackId (index + 1)
  content : ∀ trackId, (batchesOf trackId pulling.returned).flatMap Batch.samples <+: onTrack trackId samples
  complete : pulling.ended = true →
    ∀ trackId, (batchesOf trackId pulling.returned).flatMap Batch.samples = onTrack trackId samples

-- What the coalescer of a track is fed until the segmenter has ended.
def trackOps (trackId : Nat) (samples : List RawSample) : List CoalescerOp :=
  (onTrack trackId samples).map CoalescerOp.push ++ [.flush]

open Coalescing in
-- A segmenter whose tracks have come as far as `ops` says.
structure Mirrors (policy : CmafPolicy) (ops : Nat → List CoalescerOp) (returned : List Batch)
    (segmenter : CmafSampleSegmenter) : Prop where
  configured : segmenter.defaultPolicy = policy
  coalescer : ∀ trackId,
    segmenter.coalescerOf trackId = (Machine.run apply (new trackId policy) (ops trackId)).coalescer
  flushed : ∀ trackId,
    batchesOf trackId (returned ++ segmenter.ready) = (Machine.run apply (new trackId policy) (ops trackId)).flushed

section Mirroring

variable {policy : CmafPolicy} {ops : Nat → List CoalescerOp} {returned : List Batch} {segmenter : CmafSampleSegmenter}

theorem new_mirrors (stream : List RawSample) (policy : CmafPolicy) :
    Mirrors policy (fun _ => []) [] (.new stream policy) := ⟨rfl, fun _ => rfl, fun _ => rfl⟩

theorem pop_mirrors (mirrors : Mirrors policy ops returned segmenter) :
    Mirrors policy ops (returned ++ segmenter.popFront.1.toList) segmenter.popFront.2 := by
  rw [CmafSampleSegmenter.popFront]
  split
  · rename_i nothing
    refine ⟨mirrors.configured, mirrors.coalescer, ?_⟩
    simpa using mirrors.flushed
  · rename_i batch ready waiting
    refine ⟨mirrors.configured, mirrors.coalescer, ?_⟩
    intro trackId
    rw [← mirrors.flushed trackId, waiting]
    simp

theorem batch_track (pushed : List RawSample) (coalescing : Coalescing) (trackId : Nat) (op : CoalescerOp) (batch : Batch)
    (tracked : Coalescing.Tracked trackId pushed coalescing) (given : (coalescing.output op).1 = some batch) :
    batch.trackId = trackId := by
  rw [Coalescing.output_eq] at given
  dsimp only at given
  split at given
  · cases given
    exact tracked.track
  · cases given

-- Storing what an operation gives is a step of that track's coalescer and of no other's.
theorem store_mirrors (trackId : Nat) (op : CoalescerOp) (mirrors : Mirrors policy ops returned segmenter) :
    Mirrors policy (Function.update ops trackId (ops trackId ++ [op])) returned
      (segmenter.storeOutput trackId (Coalescing.output ⟨segmenter.coalescerOf trackId, []⟩ op)) := by
  let coalescing := Machine.run Coalescing.apply (Coalescing.new trackId policy) (ops trackId)
  have same : Coalescing.output ⟨segmenter.coalescerOf trackId, []⟩ op = coalescing.output op := by
    rw [mirrors.coalescer trackId]
    cases op <;> rfl
  have tracked := Coalescing.run_tracked trackId [] _ (ops trackId) (Coalescing.new_tracked trackId policy)
  rw [same]
  refine ⟨mirrors.configured, ?_, ?_⟩
  · intro other
    rw [CmafSampleSegmenter.coalescerOf, CmafSampleSegmenter.storeOutput]
    dsimp only
    rw [Table.lookup_insert_eq]
    by_cases here : other = trackId
    · rw [if_pos here, here, Function.update_self, Machine.run_snoc]
      rfl
    · rw [if_neg here, Function.update_of_ne here]
      exact mirrors.coalescer other
  · intro other
    have before := mirrors.flushed other
    rw [CmafSampleSegmenter.storeOutput]
    dsimp only
    rw [← List.append_assoc, batchesOf, List.filter_append, ← batchesOf, before]
    by_cases here : other = trackId
    · subst here
      rw [Function.update_self, Machine.run_snoc, Coalescing.apply]
      dsimp only
      congr 1
      rw [List.filter_eq_self]
      intro batch given
      exact decide_eq_true (batch_track _ coalescing other op batch tracked (Option.mem_toList.mp given))
    · rw [Function.update_of_ne here]
      have none : (coalescing.output op).1.toList.filter (fun batch => decide (batch.trackId = other)) = [] := by
        rw [List.filter_eq_nil_iff]
        intro batch given mine
        have theirs := batch_track _ coalescing trackId op batch tracked (Option.mem_toList.mp given)
        exact here ((of_decide_eq_true mine).symm.trans theirs)
      rw [none, List.append_nil]

theorem route_mirrors (sample : RawSample) (mirrors : Mirrors policy ops returned segmenter) :
    Mirrors policy (Function.update ops sample.trackId (ops sample.trackId ++ [.push sample])) returned
      (segmenter.route sample) :=
  store_mirrors sample.trackId (.push sample) mirrors

end Mirroring

end Lvqr.Cmaf
