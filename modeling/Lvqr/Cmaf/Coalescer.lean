import Mathlib.Data.Int.ModEq
import Lvqr.Bytes
import Lvqr.Lib.BigEndian
import Lvqr.Lib.Machine

set_option autoImplicit false

-- The moof box as mp4-atom writes it, with the one traf and the one trun that the
-- coalescer puts into it. The encoder fails on a box whose size passes 32 bits.
namespace Lvqr.Cmaf

def fourCc (name : String) : Bytes := name.toList.map fun c => UInt8.ofNat c.toNat

def encodeBox (kind : String) (body : Bytes) : Option Bytes :=
  if 8 + body.length < 2 ^ 32 then some (BigEndian.bytes 4 (8 + body.length) ++ (fourCc kind ++ body)) else none

-- Version and flags in front of the body.
def encodeFullBox (kind : String) (header : Nat) (body : Bytes) : Option Bytes :=
  encodeBox kind (BigEndian.bytes 4 header ++ body)

-- An i32 on the wire is its value modulo 2^32.
def encodeI32 (value : Int) : Bytes := BigEndian.bytes 4 (value % 2 ^ 32).toNat

structure Mfhd where
  sequenceNumber : Nat
deriving DecidableEq, Repr

structure Tfhd where
  trackId : Nat
deriving DecidableEq, Repr

structure Tfdt where
  baseMediaDecodeTime : Nat
deriving DecidableEq, Repr

structure TrunEntry where
  duration : UInt32
  size : Nat
  flags : Nat
  cts : Int
deriving DecidableEq, Repr

structure Trun where
  dataOffset : Int
  entries : List TrunEntry
deriving DecidableEq, Repr

structure Traf where
  tfhd : Tfhd
  tfdt : Tfdt
  trun : Trun
deriving DecidableEq, Repr

structure Moof where
  mfhd : Mfhd
  traf : Traf
deriving DecidableEq, Repr

def Mfhd.encode (mfhd : Mfhd) : Option Bytes := encodeFullBox "mfhd" 0 (BigEndian.bytes 4 mfhd.sequenceNumber)

def Tfhd.encode (tfhd : Tfhd) : Option Bytes := encodeFullBox "tfhd" 0 (BigEndian.bytes 4 tfhd.trackId)

def Tfdt.encode (tfdt : Tfdt) : Option Bytes :=
  encodeFullBox "tfdt" 0x01000000 (BigEndian.bytes 8 tfdt.baseMediaDecodeTime)

def TrunEntry.encode (entry : TrunEntry) : Bytes :=
  BigEndian.bytes 4 entry.duration.toNat ++ (BigEndian.bytes 4 entry.size ++
    (BigEndian.bytes 4 entry.flags ++ encodeI32 entry.cts))

-- Version 1; the offset and the four fields of each entry are there.
def Trun.encode (trun : Trun) : Option Bytes :=
  encodeFullBox "trun" 0x01000F01
    (BigEndian.bytes 4 trun.entries.length ++ (encodeI32 trun.dataOffset ++ trun.entries.flatMap TrunEntry.encode))

def Traf.encode (traf : Traf) : Option Bytes := do
  let tfhd ← traf.tfhd.encode
  let tfdt ← traf.tfdt.encode
  let trun ← traf.trun.encode
  encodeBox "traf" (tfhd ++ (tfdt ++ trun))

def Moof.encode (moof : Moof) : Option Bytes := do
  let mfhd ← moof.mfhd.encode
  let traf ← moof.traf.encode
  encodeBox "moof" (mfhd ++ traf)

@[simp] theorem four_cc_length (name : String) : (fourCc name).length = name.toList.length := List.length_map _

@[simp] theorem entry_length (entry : TrunEntry) : entry.encode.length = 16 := by
  simp [TrunEntry.encode, encodeI32]

@[simp] theorem entries_length (entries : List TrunEntry) :
    (entries.flatMap TrunEntry.encode).length = 16 * entries.length := by
  induction entries with
  | nil => rfl
  | cons entry entries ih =>
      rw [List.flatMap_cons, List.length_append, entry_length, ih, List.length_cons]
      omega

def Moof.front (moof : Moof) : Bytes :=
  BigEndian.bytes 4 16 ++ (fourCc "mfhd" ++ (BigEndian.bytes 4 0 ++ BigEndian.bytes 4 moof.mfhd.sequenceNumber))

def Traf.front (traf : Traf) : Bytes :=
  BigEndian.bytes 4 16 ++ (fourCc "tfhd" ++ (BigEndian.bytes 4 0 ++ (BigEndian.bytes 4 traf.tfhd.trackId ++
    (BigEndian.bytes 4 20 ++ (fourCc "tfdt" ++ (BigEndian.bytes 4 0x01000000 ++
      BigEndian.bytes 8 traf.tfdt.baseMediaDecodeTime))))))

def Trun.written (trun : Trun) : Bytes :=
  BigEndian.bytes 4 (20 + 16 * trun.entries.length) ++ (fourCc "trun" ++ (BigEndian.bytes 4 0x01000F01 ++
    (BigEndian.bytes 4 trun.entries.length ++ (encodeI32 trun.dataOffset ++ trun.entries.flatMap TrunEntry.encode))))

def Moof.written (moof : Moof) : Bytes :=
  BigEndian.bytes 4 (88 + 16 * moof.traf.trun.entries.length) ++ (fourCc "moof" ++ (moof.front ++
    (BigEndian.bytes 4 (64 + 16 * moof.traf.trun.entries.length) ++ (fourCc "traf" ++
      (moof.traf.front ++ moof.traf.trun.written)))))

theorem Moof.front_length (moof : Moof) : moof.front.length = 16 := by
  simp [Moof.front]

theorem Traf.front_length (traf : Traf) : traf.front.length = 36 := by
  simp [Traf.front]

theorem Trun.written_length (trun : Trun) : trun.written.length = 20 + 16 * trun.entries.length := by
  simp only [Trun.written, List.length_append, BigEndian.bytes_length, four_cc_length, encodeI32, entries_length]
  have name : "trun".toList.length = 4 := rfl
  omega

theorem Moof.written_length (moof : Moof) : moof.written.length = 88 + 16 * moof.traf.trun.entries.length := by
  simp only [Moof.written, List.length_append, BigEndian.bytes_length, four_cc_length, Moof.front_length,
    Traf.front_length, Trun.written_length]
  have names : "moof".toList.length = 4 ∧ "traf".toList.length = 4 := ⟨rfl, rfl⟩
  omega

theorem encode_box_eq (kind : String) (body : Bytes) (size : Nat) (sized : 8 + body.length = size) :
    encodeBox kind body =
      if size < 2 ^ 32 then some (BigEndian.bytes 4 size ++ (fourCc kind ++ body)) else none := by
  rw [encodeBox, sized]

theorem encode_full_box_eq (kind : String) (header : Nat) (body : Bytes) (size : Nat) (sized : 12 + body.length = size) :
    encodeFullBox kind header body =
      if size < 2 ^ 32 then some (BigEndian.bytes 4 size ++ (fourCc kind ++ (BigEndian.bytes 4 header ++ body)))
      else none := by
  refine encode_box_eq kind _ size ?_
  rw [List.length_append, BigEndian.bytes_length]
  omega

theorem Trun.encode_eq (trun : Trun) :
    trun.encode = if 20 + 16 * trun.entries.length < 2 ^ 32 then some trun.written else none := by
  refine encode_full_box_eq "trun" _ _ _ ?_
  simp only [List.length_append, BigEndian.bytes_length, encodeI32, entries_length]
  omega

theorem Traf.encode_eq (traf : Traf) :
    traf.encode =
      if 64 + 16 * traf.trun.entries.length < 2 ^ 32 then
        some (BigEndian.bytes 4 (64 + 16 * traf.trun.entries.length) ++ (fourCc "traf" ++
          (traf.front ++ traf.trun.written)))
      else none := by
  have tfhd : traf.tfhd.encode = some (BigEndian.bytes 4 16 ++ (fourCc "tfhd" ++ (BigEndian.bytes 4 0 ++
      BigEndian.bytes 4 traf.tfhd.trackId))) := by
    rw [Tfhd.encode, encode_full_box_eq _ _ _ 16 (by simp), if_pos (by decide)]
  have tfdt : traf.tfdt.encode = some (BigEndian.bytes 4 20 ++ (fourCc "tfdt" ++ (BigEndian.bytes 4 0x01000000 ++
      BigEndian.bytes 8 traf.tfdt.baseMediaDecodeTime))) := by
    rw [Tfdt.encode, encode_full_box_eq _ _ _ 20 (by simp), if_pos (by decide)]
  rw [Traf.encode, tfhd, tfdt, Trun.encode_eq]
  by_cases trunFits : 20 + 16 * traf.trun.entries.length < 2 ^ 32
  · rw [if_pos trunFits]
    simp only [Option.bind_eq_bind, Option.bind_some]
    rw [encode_box_eq "traf" _ (64 + 16 * traf.trun.entries.length)]
    · simp only [Traf.front, List.append_assoc]
    · simp only [List.length_append, BigEndian.bytes_length, four_cc_length, Trun.written_length]
      have names : "tfhd".toList.length = 4 ∧ "tfdt".toList.length = 4 := ⟨rfl, rfl⟩
      omega
  · rw [if_neg trunFits, if_neg (by omega)]
    rfl

theorem Moof.encode_eq (moof : Moof) :
    moof.encode = if 88 + 16 * moof.traf.trun.entries.length < 2 ^ 32 then some moof.written else none := by
  have mfhd : moof.mfhd.encode = some moof.front := by
    rw [Mfhd.encode, encode_full_box_eq _ _ _ 16 (by simp), if_pos (by decide), Moof.front]
  rw [Moof.encode, mfhd, Traf.encode_eq]
  by_cases trafFits : 64 + 16 * moof.traf.trun.entries.length < 2 ^ 32
  · rw [if_pos trafFits]
    simp only [Option.bind_eq_bind, Option.bind_some]
    rw [encode_box_eq "moof" _ (88 + 16 * moof.traf.trun.entries.length)]
    · simp only [Moof.written]
    · simp only [List.length_append, BigEndian.bytes_length, four_cc_length, Moof.front_length, Traf.front_length,
        Trun.written_length]
      have name : "traf".toList.length = 4 := rfl
      omega
  · rw [if_neg trafFits, if_neg (by omega)]
    rfl

inductive CmafChunkKind where
  | partial_
  | partialIndependent
  | segment
deriving DecidableEq, Repr

def CmafChunkKind.isIndependent : CmafChunkKind → Bool
  | .partialIndependent | .segment => true
  | .partial_ => false

def CmafChunkKind.isSegmentStart : CmafChunkKind → Bool
  | .segment => true
  | _ => false

structure CmafChunk where
  trackId : String
  payload : Bytes
  dts : Nat
  duration : Nat
  kind : CmafChunkKind
deriving DecidableEq, Repr

theorem segment_start_independent (kind : CmafChunkKind) (start : kind.isSegmentStart = true) :
    kind.isIndependent = true := by
  cases kind <;> simp_all [CmafChunkKind.isSegmentStart, CmafChunkKind.isIndependent]

-- size 24, "styp", major brand "cmfc", minor version 0, compatible "cmfc" "iso6".
def cmafChunkStypBytes : Bytes :=
  [0x00, 0x00, 0x00, 0x18,
   0x73, 0x74, 0x79, 0x70,
   0x63, 0x6D, 0x66, 0x63,
   0x00, 0x00, 0x00, 0x00,
   0x63, 0x6D, 0x66, 0x63,
   0x69, 0x73, 0x6F, 0x36]

def prependCmafChunkStyp (body : Bytes) : Bytes := cmafChunkStypBytes ++ body

-- The stamp is what keeps an empty body from vanishing in the coalescer.
theorem prepend_styp_ne_nil (body : Bytes) : prependCmafChunkStyp body ≠ [] := by
  simp [prependCmafChunkStyp, cmafChunkStypBytes]

structure CmafPolicy where
  partialDuration : Nat
  segmentDuration : Nat
deriving DecidableEq, Repr

def CmafPolicy.withDurations (timescale segmentDurationMs partDurationMs : Nat) : CmafPolicy where
  partialDuration := timescale * partDurationMs / 1000
  segmentDuration := timescale * segmentDurationMs / 1000

structure CmafPolicyState where
  policy : CmafPolicy
  lastSegmentStartDts : Option Nat
  lastPartialStartDts : Option Nat
deriving DecidableEq, Repr

namespace CmafPolicyState

def new (policy : CmafPolicy) : CmafPolicyState := ⟨policy, none, none⟩

-- `saturating_sub` is Nat subtraction. The partial start is set together with
-- the segment start, so the `unwrap` on it never meets `None`.
def step (state : CmafPolicyState) (keyframe : Bool) (dts : Nat) : CmafChunkKind × CmafPolicyState :=
  match state.lastSegmentStartDts with
  | none => (.segment, { state with lastSegmentStartDts := some dts, lastPartialStartDts := some dts })
  | some segStart =>
      if keyframe = true ∧ state.policy.segmentDuration ≤ dts - segStart then
        (.segment, { state with lastSegmentStartDts := some dts, lastPartialStartDts := some dts })
      else if keyframe then (.partialIndependent, { state with lastPartialStartDts := some dts })
      else
        let parStart := state.lastPartialStartDts.getD 0
        if state.policy.partialDuration ≤ dts - parStart then
          (.partial_, { state with lastPartialStartDts := some dts })
        else (.partial_, state)

theorem step_started (state : CmafPolicyState) (keyframe : Bool) (dts : Nat) :
    (state.step keyframe dts).2.lastSegmentStartDts.isSome = true := by
  unfold step
  cases started : state.lastSegmentStartDts with
  | none => rfl
  | some segStart =>
      simp only
      split
      · rfl
      · split
        · rfl
        · split <;> simp [started]

theorem step_fresh (state : CmafPolicyState) (keyframe : Bool) (dts : Nat) (fresh : state.lastSegmentStartDts = none) :
    (state.step keyframe dts).1 = .segment := by
  simp [step, fresh]

theorem step_independent (state : CmafPolicyState) (keyframe : Bool) (dts : Nat)
    (started : state.lastSegmentStartDts ≠ none) :
    (state.step keyframe dts).1.isIndependent = keyframe := by
  unfold step
  cases known : state.lastSegmentStartDts with
  | none => exact absurd known started
  | some segStart =>
      cases keyframe with
      | false =>
          simp only [Bool.false_eq_true, false_and, if_false]
          split <;> rfl
      | true =>
          simp only [true_and, if_true]
          split <;> rfl

theorem keyframe_independent (state : CmafPolicyState) (dts : Nat) : (state.step true dts).1.isIndependent = true := by
  cases started : state.lastSegmentStartDts with
  | none =>
      rw [step_fresh state true dts started]
      rfl
  | some segStart => exact step_independent state true dts (by simp [started])

end CmafPolicyState

-- The raw-sample coalescer of one track. Decode times are u64 in the source; the
-- coalescer only compares their saturating differences.

structure RawSample where
  trackId : Nat
  dts : Nat
  ctsOffset : Int
  duration : UInt32
  payload : Bytes
  keyframe : Bool
deriving DecidableEq, Repr

def sampleFlags (keyframe : Bool) : Nat := if keyframe then 0x02000000 else 0x01010000

def RawSample.entry (sample : RawSample) : TrunEntry :=
  ⟨sample.duration, sample.payload.length % 2 ^ 32, sampleFlags sample.keyframe, sample.ctsOffset⟩

def moofOf (sequence trackId baseDts : Nat) (samples : List RawSample) (dataOffset : Int) : Moof :=
  ⟨⟨sequence⟩, ⟨⟨trackId⟩, ⟨baseDts⟩, ⟨dataOffset, samples.map RawSample.entry⟩⟩⟩

-- The first encoding measures the box, the second one carries the offset, which is
-- cast to i32. Where the encoder fails, `expect` panics.
def buildMoofMdat (sequence trackId baseDts : Nat) (samples : List RawSample) : Option Bytes := do
  let measured ← (moofOf sequence trackId baseDts samples 0).encode
  let dataOffset := ((measured.length + 8 : Nat) : Int).bmod (2 ^ 32)
  let moof ← (moofOf sequence trackId baseDts samples dataOffset).encode
  let body := samples.flatMap RawSample.payload
  return moof ++ (BigEndian.bytes 4 (8 + body.length) ++ (fourCc "mdat" ++ body))

structure Batch where
  sequence : Nat
  trackId : Nat
  dts : Nat
  duration : Nat
  kind : CmafChunkKind
  samples : List RawSample
deriving DecidableEq, Repr

def trackName (trackId : Nat) : String := toString trackId ++ ".mp4"

def Batch.chunk (batch : Batch) : Option CmafChunk :=
  (buildMoofMdat batch.sequence batch.trackId batch.dts batch.samples).map fun payload =>
    ⟨trackName batch.trackId, payload, batch.dts, batch.duration, batch.kind⟩

structure TrackCoalescer where
  trackId : Nat
  policy : CmafPolicy
  pending : List RawSample
  pendingDurationTicks : Nat
  pendingDts : Option Nat
  partialStartDts : Option Nat
  segmentStartDts : Option Nat
  pendingKind : CmafChunkKind
  nextSequence : Nat
deriving DecidableEq, Repr

namespace TrackCoalescer

def new (trackId : Nat) (policy : CmafPolicy) : TrackCoalescer where
  trackId := trackId
  policy := policy
  pending := []
  pendingDurationTicks := 0
  pendingDts := none
  partialStartDts := none
  segmentStartDts := none
  pendingKind := .segment
  nextSequence := 1

def flushPending (coalescer : TrackCoalescer) : Batch × TrackCoalescer :=
  ({ sequence := coalescer.nextSequence
     trackId := coalescer.trackId
     dts := coalescer.pendingDts.getD 0
     duration := coalescer.pendingDurationTicks
     kind := coalescer.pendingKind
     samples := coalescer.pending },
    { coalescer with
      pending := []
      pendingDurationTicks := 0
      pendingDts := none
      partialStartDts := none
      nextSequence := (coalescer.nextSequence + 1) % 2 ^ 32 })

def startsSegment (coalescer : TrackCoalescer) (sample : RawSample) : Bool :=
  match coalescer.segmentStartDts with
  | none => true
  | some segmentStart => sample.keyframe && decide (coalescer.policy.segmentDuration ≤ sample.dts - segmentStart)

-- Whether a sample closes the batch that is pending. Both anchors are there then.
def closes (coalescer : TrackCoalescer) (sample : RawSample) : Bool :=
  let partialStart := coalescer.partialStartDts.getD 0
  let segmentStart := coalescer.segmentStartDts.getD 0
  decide (coalescer.policy.partialDuration ≤ sample.dts - partialStart) ||
    sample.keyframe && decide (coalescer.policy.segmentDuration ≤ sample.dts - segmentStart)

def classify (coalescer : TrackCoalescer) (sample : RawSample) : CmafChunkKind :=
  if coalescer.startsSegment sample then .segment
  else if sample.keyframe then .partialIndependent
  else .partial_

def opened (coalescer : TrackCoalescer) (sample : RawSample) : TrackCoalescer :=
  if coalescer.pending.isEmpty then
    { coalescer with
      segmentStartDts := if coalescer.startsSegment sample then some sample.dts else coalescer.segmentStartDts
      pendingKind := coalescer.classify sample
      partialStartDts := some sample.dts
      pendingDts := some sample.dts }
  else coalescer

def append (coalescer : TrackCoalescer) (sample : RawSample) : TrackCoalescer :=
  { coalescer with
    pendingDurationTicks := (coalescer.pendingDurationTicks + sample.duration.toNat) % 2 ^ 64
    pending := coalescer.pending ++ [sample] }

def push (coalescer : TrackCoalescer) (sample : RawSample) : Option Batch × TrackCoalescer :=
  if !coalescer.pending.isEmpty && coalescer.closes sample then
    (some coalescer.flushPending.1, (coalescer.flushPending.2.opened sample).append sample)
  else (none, (coalescer.opened sample).append sample)

def flush (coalescer : TrackCoalescer) : Option Batch × TrackCoalescer :=
  if coalescer.pending.isEmpty then (none, coalescer)
  else (some coalescer.flushPending.1, coalescer.flushPending.2)

end TrackCoalescer

inductive CoalescerOp where
  | push (sample : RawSample)
  | flush
deriving DecidableEq, Repr

def CoalescerOp.samples : CoalescerOp → List RawSample
  | push sample => [sample]
  | flush => []

structure Coalescing where
  coalescer : TrackCoalescer
  flushed : List Batch
deriving DecidableEq, Repr

namespace Coalescing

def new (trackId : Nat) (policy : CmafPolicy) : Coalescing := ⟨.new trackId policy, []⟩

def output (coalescing : Coalescing) : CoalescerOp → Option Batch × TrackCoalescer
  | .push sample => coalescing.coalescer.push sample
  | .flush => coalescing.coalescer.flush

def apply (coalescing : Coalescing) (op : CoalescerOp) : Coalescing :=
  ⟨(coalescing.output op).2, coalescing.flushed ++ (coalescing.output op).1.toList⟩

end Coalescing

end Lvqr.Cmaf
