import Lvqr.Whep.AnnexB
import Lvqr.Whep.Caches

set_option autoImplicit false

-- The poll loop of one WHEP session: what it remembers of the messages, and the bytes
-- it hands to the packetizer for a live keyframe and for a replayed one.
namespace Lvqr.Whep

open Whip (MediaCodec)

def isParamSet (codec : MediaCodec) (hdr : UInt8) : Bool :=
  match codec with
  | .h264 => hdr &&& 0x1F == 7 || hdr &&& 0x1F == 8
  | .h265 => (hdr >>> 1) &&& 0x3F == 32 || (hdr >>> 1) &&& 0x3F == 33 || (hdr >>> 1) &&& 0x3F == 34
  | .aac | .opus => false

-- The list is the data from the source's `i` on.
def annexbContainsParamSet (codec : MediaCodec) : Bytes → Bool
  | 0 :: 0 :: 1 :: hdr :: rest => isParamSet codec hdr || annexbContainsParamSet codec (hdr :: rest)
  | _ :: rest => annexbContainsParamSet codec rest
  | [] => false

structure CachedKeyframe where
  payload : Bytes
  dts : Nat
  codec : MediaCodec
deriving DecidableEq, Repr

structure SessionCtx where
  videoMid : Option Nat
  audioMid : Option Nat
  videoPtH264 : Option Nat
  videoPtH265 : Option Nat
  audioPtOpus : Option Nat
  connected : Bool
  lastKeyframe : Option CachedKeyframe
  videoParamSets : Option Bytes
  lastReplayAt : Option Nat
deriving DecidableEq, Repr

inductive SessionMsg where
  | video (payload : Bytes) (dts : Nat) (keyframe : Bool) (codec : MediaCodec) (ingestTimeMs : Nat)
  | aac (payload : Bytes) (dts : Nat) (ingestTimeMs : Nat)
  | audioConfig (configBytes : Bytes) (sampleRate channels objectType : Nat)
  | videoConfig (paramSets : Bytes)
  | remoteCandidate (candidate : String)
deriving DecidableEq, Repr

inductive MediaKind where
  | video
  | audio
deriving DecidableEq, Repr

inductive RtcCodec where
  | h264
  | h265
  | opus
  | other
deriving DecidableEq, Repr

-- A writer is what `rtc.writer` gives for the mid, and whether it accepts the write.
inductive SessionOp where
  | msg (msg : SessionMsg) (writer : Option Bool)
  | keyframeRequest (now : Nat) (writer : Option Bool)
  | connected
  | mediaAdded (kind : MediaKind) (mid : Nat)
  | resolveVideo (params : List (RtcCodec × Nat))
  | resolveAudio (params : List (RtcCodec × Nat))
deriving DecidableEq, Repr

-- A call of `writer.write`, with the arguments of `write_sample` that it does not get.
structure WriterCall where
  mid : Nat
  pt : Nat
  rtpFreq : Nat
  dts : Nat
  bytes : Bytes
  codec : MediaCodec
  keyframe : Bool
deriving DecidableEq, Repr

def MIN_KEYFRAME_REPLAY_INTERVAL : Nat := 250

namespace SessionCtx

def start : SessionCtx := ⟨none, none, none, none, none, false, none, none, none⟩

def route (ctx : SessionCtx) : MediaCodec → Option Nat × Option Nat × Nat
  | .h264 => (ctx.videoMid, ctx.videoPtH264, 90000)
  | .h265 => (ctx.videoMid, ctx.videoPtH265, 90000)
  | .opus => (ctx.audioMid, ctx.audioPtOpus, 48000)
  | .aac => (none, none, 0)

def withParamSets (ctx : SessionCtx) (codec : MediaCodec) (annexB : Bytes) : Bytes :=
  match ctx.videoParamSets with
  | some ps => if annexbContainsParamSet codec annexB then annexB else ps ++ annexB
  | none => annexB

def bytesFor (ctx : SessionCtx) (payload : Bytes) (keyframe : Bool) : MediaCodec → Option Bytes
  | .h264 => video .h264
  | .h265 => video .h265
  | .opus => some payload
  | .aac => none
where
  video (codec : MediaCodec) : Option Bytes :=
    let annexB := avccToAnnexB payload
    if annexB = [] then none else if keyframe then some (ctx.withParamSets codec annexB) else some annexB

-- The call of the writer, if it comes to one, and the result.
def writeSample (ctx : SessionCtx) (payload : Bytes) (dts : Nat) (keyframe : Bool) (codec : MediaCodec)
    (writer : Option Bool) : Option WriterCall × Except Unit Bool :=
  if ctx.connected then
    match ctx.route codec, ctx.bytesFor payload keyframe codec, writer with
    | (some mid, some pt, rtpFreq), some bytes, some accepts =>
        (some ⟨mid, pt, rtpFreq, dts, bytes, codec, keyframe⟩, if accepts then .ok true else .error ())
    | _, _, _ => (none, .ok false)
  else (none, .ok false)

-- The AAC messages go to the encoder, whose packets are never video.
def onMsg (ctx : SessionCtx) (writer : Option Bool) : SessionMsg → SessionCtx × Option WriterCall
  | .video payload dts keyframe codec _ =>
      let cached := if keyframe && (codec == .h264 || codec == .h265) then some ⟨payload, dts, codec⟩ else ctx.lastKeyframe
      let ctx := { ctx with lastKeyframe := cached }
      (ctx, (ctx.writeSample payload dts keyframe codec writer).1)
  | .videoConfig paramSets => ({ ctx with videoParamSets := some paramSets }, none)
  | .aac _ _ _ | .audioConfig _ _ _ _ | .remoteCandidate _ => (ctx, none)

def debounced (ctx : SessionCtx) (now : Nat) : Bool :=
  ctx.lastReplayAt.any fun prev => now - prev < MIN_KEYFRAME_REPLAY_INTERVAL

def replayKeyframeForPli (ctx : SessionCtx) (now : Nat) (writer : Option Bool) : SessionCtx × Option WriterCall :=
  match ctx.lastKeyframe with
  | none => (ctx, none)
  | some keyframe =>
      if ctx.debounced now then (ctx, none)
      else
        match ctx.writeSample keyframe.payload keyframe.dts true keyframe.codec writer with
        | (write, .ok true) => ({ ctx with lastReplayAt := some now }, write)
        | (write, _) => (ctx, write)

def ptOf (codec : RtcCodec) (params : List (RtcCodec × Nat)) : Option Nat :=
  (params.find? fun param => param.1 = codec).map Prod.snd

def step (ctx : SessionCtx) : SessionOp → SessionCtx × Option WriterCall
  | .msg msg writer => ctx.onMsg writer msg
  | .keyframeRequest now writer => ctx.replayKeyframeForPli now writer
  | .connected => ({ ctx with connected := true }, none)
  | .mediaAdded .video mid => ({ ctx with videoMid := some mid }, none)
  | .mediaAdded .audio mid => ({ ctx with audioMid := some mid }, none)
  | .resolveVideo params =>
      if ctx.videoMid.isSome then
        ({ ctx with
            videoPtH264 := ctx.videoPtH264.or (ptOf .h264 params)
            videoPtH265 := ctx.videoPtH265.or (ptOf .h265 params) }, none)
      else (ctx, none)
  | .resolveAudio params =>
      if ctx.audioMid.isSome then ({ ctx with audioPtOpus := ctx.audioPtOpus.or (ptOf .opus params) }, none)
      else (ctx, none)

def apply (ctx : SessionCtx) (op : SessionOp) : SessionCtx := (ctx.step op).1

end SessionCtx

-- The types of the H.264 units in the data, by their start codes.
def nalTypes : Bytes → List UInt8
  | 0 :: 0 :: 1 :: hdr :: rest => (hdr &&& 0x1F) :: nalTypes (hdr :: rest)
  | _ :: rest => nalTypes rest
  | [] => []

def isSlice (type : UInt8) : Bool := 1 ≤ type && type ≤ 5

-- An SPS and a PPS in front of the first slice.
def SetsFirst (data : Bytes) : Prop :=
  7 ∈ (nalTypes data).takeWhile (!isSlice ·) ∧ 8 ∈ (nalTypes data).takeWhile (!isSlice ·)

instance (data : Bytes) : Decidable (SetsFirst data) := inferInstanceAs (Decidable (_ ∧ _))

def SessionOp.config : SessionOp → Option Bytes
  | .msg (.videoConfig paramSets) _ => some paramSets
  | _ => none

def SessionOp.keyframe : SessionOp → Option CachedKeyframe
  | .msg (.video payload dts keyframe codec _) _ =>
      if keyframe && (codec == .h264 || codec == .h265) then some ⟨payload, dts, codec⟩ else none
  | _ => none

-- The last config and the last keyframe among the messages of a run.
def lastConfig (seen : List SessionOp) : Option Bytes := (seen.filterMap SessionOp.config).getLast?

def lastKeyframe (seen : List SessionOp) : Option CachedKeyframe := (seen.filterMap SessionOp.keyframe).getLast?

def ConfigReceived (seen : List SessionOp) : Prop :=
  ∃ paramSets writer, .msg (.videoConfig paramSets) writer ∈ seen ∧ 7 ∈ nalTypes paramSets ∧ 8 ∈ nalTypes paramSets

-- What was asked of the writer after such a config.
def KeyframesCarrySets (ops : List SessionOp) : Prop :=
  ∀ seen op rest, ops = seen ++ op :: rest → ConfigReceived seen →
    ∀ call ∈ ((Machine.run SessionCtx.apply .start seen).step op).2,
      call.codec = .h264 → call.keyframe = true → SetsFirst call.bytes

namespace SessionCtx

-- An H.264 payload finds a connected session, a negotiated payload type and a writer.
def reaches (ctx : SessionCtx) (payload : Bytes) (writer : Option Bool) : Bool :=
  ctx.connected && ctx.videoMid.isSome && ctx.videoPtH264.isSome && avccToAnnexB payload != [] && writer.isSome

end SessionCtx

-- The H.264 keyframe that is due at an operation: its own, or the last one for a request.
def due (seen : List SessionOp) : SessionOp → Option Bytes
  | .msg (.video payload _ keyframe codec _) writer =>
      if keyframe && codec == .h264 && (Machine.run SessionCtx.apply .start seen).reaches payload writer then some payload
      else none
  | .keyframeRequest now writer =>
      (lastKeyframe seen).bind fun keyframe =>
        if keyframe.codec == .h264 && !(Machine.run SessionCtx.apply .start seen).debounced now &&
          (Machine.run SessionCtx.apply .start seen).reaches keyframe.payload writer then some keyframe.payload
        else none
  | _ => none

-- A keyframe with a parameter set of its own has both in front, and one without finds
-- both in the config that is in force.
def Covered (seen : List SessionOp) (payload : Bytes) : Prop :=
  if annexbContainsParamSet .h264 (avccToAnnexB payload) then SetsFirst (avccToAnnexB payload)
  else ∃ paramSets ∈ lastConfig seen, SetsFirst paramSets

def SetsCovered (ops : List SessionOp) : Prop :=
  ∀ seen op rest, ops = seen ++ op :: rest → ConfigReceived seen → ∀ payload ∈ due seen op, Covered seen payload

theorem contains_iff (data : Bytes) :
    annexbContainsParamSet .h264 data = true ↔ 7 ∈ nalTypes data ∨ 8 ∈ nalTypes data := by
  induction data using nalTypes.induct with
  | case1 hdr rest ih =>
      rw [annexbContainsParamSet, nalTypes, Bool.or_eq_true, ih]
      simp only [isParamSet, Bool.or_eq_true, beq_iff_eq, List.mem_cons, eq_comm (a := hdr &&& 0x1F)]
      tauto
  | case2 byte rest other ih =>
      rw [annexbContainsParamSet, nalTypes, ih]
      · exact other
      · exact other
  | case3 => simp [annexbContainsParamSet, nalTypes]

-- A start code that the front leaves open closes on a zero of the code behind it, a
-- unit of type 0.
theorem nal_types_append (front rest : Bytes) : ∃ open', (open' = [] ∨ open' = [0]) ∧
    nalTypes (front ++ (START_CODE ++ rest)) = nalTypes front ++ (open' ++ nalTypes (START_CODE ++ rest)) := by
  induction front using nalTypes.induct with
  | case1 hdr more ih =>
      obtain ⟨open', kind, types⟩ := ih
      refine ⟨open', kind, ?_⟩
      simp only [List.cons_append] at types ⊢
      rw [nalTypes, types, nalTypes]
      rfl
  | case2 byte more other ih =>
      by_cases cut : byte = 0 ∧ more = [0, 1]
      · obtain ⟨rfl, rfl⟩ := cut
        exact ⟨[0], .inr rfl, rfl⟩
      · obtain ⟨open', kind, types⟩ := ih
        refine ⟨open', kind, ?_⟩
        have apart (hdr : UInt8) (behind : Bytes) (zero : byte = 0)
            (starts : more ++ (START_CODE ++ rest) = 0 :: 1 :: hdr :: behind) : False := by
          match more with
          | [] => simp [START_CODE] at starts
          | [first] => simp [START_CODE] at starts
          | [first, second] =>
              obtain ⟨rfl, later⟩ := List.cons.inj starts
              obtain rfl : second = 1 := (List.cons.inj later).1
              exact cut ⟨zero, rfl⟩
          | first :: second :: third :: more =>
              obtain ⟨rfl, later⟩ := List.cons.inj starts
              obtain rfl : second = 1 := (List.cons.inj later).1
              exact other third more zero rfl
        rw [List.cons_append, nalTypes, nalTypes, types]
        · exact other
        · exact apart
  | case3 => exact ⟨[], .inl rfl, rfl⟩

theorem converted_starts (payload : Bytes) (converts : avccToAnnexB payload ≠ []) :
    ∃ rest, avccToAnnexB payload = START_CODE ++ rest := by
  obtain ⟨entries, tail, reads⟩ := exists_reading payload
  have converted := convert_read payload entries tail reads
  cases kept : entries.filter (· ≠ []) with
  | nil =>
      rw [kept] at converted
      exact absurd converted converts
  | cons entry others =>
      rw [kept] at converted
      exact ⟨entry ++ startCoded others, converted.trans (List.append_assoc _ _ _)⟩

theorem take_while_append {Item : Type} (keep : Item → Bool) (item : Item) (front back : List Item)
    (absent : item ∉ back) : item ∈ (front ++ back).takeWhile keep ↔ item ∈ front.takeWhile keep := by
  rw [List.takeWhile_append]
  split
  · rename_i all
    have whole := (List.takeWhile_prefix keep).eq_of_length all
    rw [whole, List.mem_append, or_iff_left fun member => absent ((List.takeWhile_prefix keep).subset member)]
  · rfl

-- In front of a keyframe without parameter sets, the sets come first if they do alone.
theorem prepended_sets_first (ps payload : Bytes) (converts : avccToAnnexB payload ≠ [])
    (bare : annexbContainsParamSet .h264 (avccToAnnexB payload) = false) :
    SetsFirst (ps ++ avccToAnnexB payload) ↔ SetsFirst ps := by
  obtain ⟨rest, starts⟩ := converted_starts payload converts
  obtain ⟨open', kind, types⟩ := nal_types_append ps rest
  have absent := not_or.mp (mt (contains_iff _).mpr (Bool.not_eq_true _ ▸ bare))
  rw [starts] at absent ⊢
  have apart (type : UInt8) (zero : type ≠ 0) (none : type ∉ nalTypes (START_CODE ++ rest)) :
      type ∉ open' ++ nalTypes (START_CODE ++ rest) := by
    rw [List.mem_append]
    rintro (opened | member)
    · rcases kind with rfl | rfl
      · exact absurd opened List.not_mem_nil
      · exact zero (List.mem_singleton.mp opened)
    · exact none member
  rw [SetsFirst, SetsFirst, types, take_while_append _ 7 _ _ (apart 7 (by decide) absent.1),
    take_while_append _ 8 _ _ (apart 8 (by decide) absent.2)]

theorem bare_sets_missing (data : Bytes) (bare : annexbContainsParamSet .h264 data = false) : ¬ SetsFirst data := by
  intro sets
  have contained := (contains_iff data).mpr (.inl ((List.takeWhile_prefix _).subset sets.1))
  rw [bare] at contained
  cases contained

theorem last_snoc {Op Value : Type} (of : Op → Option Value) (ops : List Op) (op : Op) :
    ((ops ++ [op]).filterMap of).getLast? = (of op).or (ops.filterMap of).getLast? := by
  rw [List.filterMap_append, List.getLast?_append, List.filterMap_cons]
  cases of op <;> rfl

theorem replay_remembers (ctx : SessionCtx) (now : Nat) (writer : Option Bool) :
    (ctx.replayKeyframeForPli now writer).1.videoParamSets = ctx.videoParamSets ∧
      (ctx.replayKeyframeForPli now writer).1.lastKeyframe = ctx.lastKeyframe := by
  rw [SessionCtx.replayKeyframeForPli]
  split
  · exact ⟨rfl, rfl⟩
  · split
    · exact ⟨rfl, rfl⟩
    · split <;> exact ⟨rfl, rfl⟩

theorem replay_call (ctx : SessionCtx) (now : Nat) (writer : Option Bool) :
    (ctx.replayKeyframeForPli now writer).2 = ctx.lastKeyframe.bind fun keyframe =>
      if ctx.debounced now then none
      else (ctx.writeSample keyframe.payload keyframe.dts true keyframe.codec writer).1 := by
  rw [SessionCtx.replayKeyframeForPli]
  cases ctx.lastKeyframe with
  | none => rfl
  | some keyframe =>
      dsimp only [Option.bind_some]
      split
      · rfl
      · split <;> rename_i written <;> rw [written]

theorem apply_remembers (ctx : SessionCtx) (op : SessionOp) :
    (ctx.apply op).videoParamSets = op.config.or ctx.videoParamSets ∧
      (ctx.apply op).lastKeyframe = op.keyframe.or ctx.lastKeyframe := by
  cases op with
  | msg msg writer =>
      cases msg with
      | video payload dts keyframe codec ingestTimeMs =>
          refine ⟨rfl, ?_⟩
          simp only [SessionCtx.apply, SessionCtx.step, SessionCtx.onMsg, SessionOp.keyframe]
          split <;> rfl
      | _ => exact ⟨rfl, rfl⟩
  | keyframeRequest now writer => exact replay_remembers ctx now writer
  | connected => exact ⟨rfl, rfl⟩
  | mediaAdded kind mid => cases kind <;> exact ⟨rfl, rfl⟩
  | resolveVideo params =>
      simp only [SessionCtx.apply, SessionCtx.step]
      split <;> exact ⟨rfl, rfl⟩
  | resolveAudio params =>
      simp only [SessionCtx.apply, SessionCtx.step]
      split <;> exact ⟨rfl, rfl⟩

-- What a session remembers is the last of what it was sent.
theorem run_remembers (ops : List SessionOp) :
    (Machine.run SessionCtx.apply .start ops).videoParamSets = lastConfig ops ∧
      (Machine.run SessionCtx.apply .start ops).lastKeyframe = lastKeyframe ops := by
  induction ops using List.reverseRecOn with
  | nil => exact ⟨rfl, rfl⟩
  | append_singleton ops op ih =>
      obtain ⟨paramSets, keyframe⟩ := apply_remembers (Machine.run SessionCtx.apply .start ops) op
      rw [Machine.run_snoc, paramSets, keyframe, ih.1, ih.2, lastConfig, lastKeyframe, lastConfig, lastKeyframe, last_snoc,
        last_snoc]
      exact ⟨rfl, rfl⟩

section Sample

variable (ctx : SessionCtx) (payload : Bytes) (dts : Nat) (keyframe : Bool) (codec : MediaCodec) (writer : Option Bool)

theorem write_labels : ∀ call ∈ (ctx.writeSample payload dts keyframe codec writer).1,
    call.codec = codec ∧ call.keyframe = keyframe := by
  unfold SessionCtx.writeSample
  split
  · split
    · intro call member
      obtain rfl := Option.some.inj member
      exact ⟨rfl, rfl⟩
    · exact nofun
  · exact nofun

theorem write_keyframe : (ctx.writeSample payload dts true .h264 writer).1.map WriterCall.bytes =
    if ctx.reaches payload writer then some (ctx.withParamSets .h264 (avccToAnnexB payload)) else none := by
  unfold SessionCtx.writeSample SessionCtx.reaches
  simp only [SessionCtx.route, SessionCtx.bytesFor, SessionCtx.bytesFor.video]
  by_cases connected : ctx.connected = true
  · by_cases empty : avccToAnnexB payload = []
    · cases ctx.videoMid <;> cases ctx.videoPtH264 <;> simp [connected, empty]
    · cases ctx.videoMid <;> cases ctx.videoPtH264 <;> cases writer <;> simp [connected, empty]
  · simp [connected]

theorem write_sets_iff :
    (∀ call ∈ (ctx.writeSample payload dts keyframe codec writer).1,
        call.codec = .h264 → call.keyframe = true → SetsFirst call.bytes) ↔
      (keyframe && codec == .h264 && ctx.reaches payload writer) = true →
        SetsFirst (ctx.withParamSets .h264 (avccToAnnexB payload)) := by
  have labels := write_labels ctx payload dts keyframe codec writer
  by_cases due : keyframe = true ∧ codec = .h264
  · obtain ⟨rfl, rfl⟩ := due
    have written := write_keyframe ctx payload dts writer
    have isDue : (true && MediaCodec.h264 == .h264 && ctx.reaches payload writer) = ctx.reaches payload writer := rfl
    rw [isDue]
    constructor
    · intro always reaches
      rw [if_pos reaches] at written
      obtain ⟨call, member, bytes⟩ := Option.map_eq_some_iff.mp written
      rw [← bytes]
      exact always call member (labels call member).1 (labels call member).2
    · intro sets call member _ _
      rw [Option.mem_def.mp member] at written
      split at written
      · rename_i reaches
        rw [Option.some.inj written]
        exact sets reaches
      · cases written
  · have idle : (keyframe && codec == .h264 && ctx.reaches payload writer) = false := by
      cases keyframe with
      | false => rfl
      | true =>
          have other : codec ≠ .h264 := fun same => due ⟨rfl, same⟩
          simp [other]
    rw [idle]
    refine iff_of_true (fun call member isH264 isKeyframe => ?_) nofun
    obtain ⟨isCodec, isFlag⟩ := labels call member
    exact absurd ⟨isFlag.symm.trans isKeyframe, isCodec.symm.trans isH264⟩ due

end Sample

theorem with_sets_iff (seen : List SessionOp) (payload : Bytes) (converts : avccToAnnexB payload ≠ []) :
    SetsFirst ((Machine.run SessionCtx.apply .start seen).withParamSets .h264 (avccToAnnexB payload)) ↔
      Covered seen payload := by
  rw [SessionCtx.withParamSets, (run_remembers seen).1, Covered]
  cases contains : annexbContainsParamSet .h264 (avccToAnnexB payload) with
  | true =>
      cases lastConfig seen <;> simp
  | false =>
      cases lastConfig seen with
      | none => simp [bare_sets_missing _ contains]
      | some paramSets => simp [prepended_sets_first paramSets payload converts contains]

theorem reaches_converts (ctx : SessionCtx) (payload : Bytes) (writer : Option Bool)
    (reaches : ctx.reaches payload writer = true) : avccToAnnexB payload ≠ [] := by
  simp only [SessionCtx.reaches, Bool.and_eq_true, bne_iff_ne] at reaches
  exact reaches.1.2

theorem due_sets_iff (seen : List SessionOp) (payload : Bytes) (writer : Option Bool) (asked : Bool) :
    ((asked && (Machine.run SessionCtx.apply .start seen).reaches payload writer) = true →
        SetsFirst ((Machine.run SessionCtx.apply .start seen).withParamSets .h264 (avccToAnnexB payload))) ↔
      ∀ due ∈ if asked && (Machine.run SessionCtx.apply .start seen).reaches payload writer then some payload else none,
        Covered seen due := by
  split
  · rename_i isDue
    have converts := reaches_converts _ payload writer (Bool.and_eq_true_iff.mp isDue).2
    simp only [isDue, with_sets_iff seen payload converts, Option.mem_some, forall_eq', forall_const]
  · rename_i idle
    simp [idle]

theorem step_sets_iff (seen : List SessionOp) (op : SessionOp) :
    (∀ call ∈ ((Machine.run SessionCtx.apply .start seen).step op).2,
        call.codec = .h264 → call.keyframe = true → SetsFirst call.bytes) ↔
      ∀ payload ∈ due seen op, Covered seen payload := by
  cases op with
  | msg msg writer =>
      cases msg with
      | video payload dts keyframe codec ingestTimeMs =>
          exact (write_sets_iff _ payload dts keyframe codec writer).trans
            (due_sets_iff seen payload writer (keyframe && codec == .h264))
      | _ => exact iff_of_true nofun nofun
  | keyframeRequest now writer =>
      rw [SessionCtx.step, replay_call, (run_remembers seen).2, due]
      cases lastKeyframe seen with
      | none => exact iff_of_true nofun nofun
      | some keyframe =>
          rw [Option.bind_some, Option.bind_some]
          by_cases early : (Machine.run SessionCtx.apply .start seen).debounced now = true
          · simp [early]
          · rw [if_neg early, Bool.eq_false_iff.mpr early, Bool.not_false, Bool.and_true]
            exact (write_sets_iff _ keyframe.payload keyframe.dts true keyframe.codec writer).trans
              (due_sets_iff seen keyframe.payload writer (true && keyframe.codec == .h264))
  | connected => exact iff_of_true nofun nofun
  | mediaAdded kind mid => cases kind <;> exact iff_of_true nofun nofun
  | resolveVideo params =>
      simp only [SessionCtx.step, due]
      split <;> exact iff_of_true nofun nofun
  | resolveAudio params =>
      simp only [SessionCtx.step, due]
      split <;> exact iff_of_true nofun nofun

-- In every run the keyframes carry their sets exactly where each of them is covered.
theorem keyframes_carry_sets_iff (ops : List SessionOp) : KeyframesCarrySets ops ↔ SetsCovered ops :=
  forall_congr' fun seen => forall_congr' fun op => forall_congr' fun _rest => imp_congr_right fun _split =>
    imp_congr_right fun _received => step_sets_iff seen op

def negotiated : List SessionOp :=
  [.connected, .mediaAdded .video 0, .resolveVideo [(.h264, 96)],
    .msg (.videoConfig [0, 0, 0, 1, 0x67, 1, 0, 0, 0, 1, 0x68, 1]) none]

-- An SPS and an IDR slice.
def spsKeyframe : Bytes := [0, 0, 0, 2, 0x67, 1, 0, 0, 0, 2, 0x65, 1]

theorem sps_keyframe_converted : avccToAnnexB spsKeyframe = [0, 0, 0, 1, 0x67, 1, 0, 0, 0, 1, 0x65, 1] := by
  decide +kernel

-- An SPS of its own keeps the sets of the config from a keyframe that has no PPS.
theorem sps_keeps_sets_away : ¬ ∀ ops, KeyframesCarrySets ops := by
  intro always
  have isDue : due negotiated (.msg (.video spsKeyframe 0 true .h264 0) (some true)) = some spsKeyframe := by
    have reaches : (Machine.run SessionCtx.apply .start negotiated).reaches spsKeyframe (some true) = true := by
      rw [SessionCtx.reaches, sps_keyframe_converted]
      rfl
    rw [due, reaches]
    rfl
  have received : ConfigReceived negotiated :=
    ⟨_, none, List.mem_of_getLast? rfl, by decide, by decide⟩
  have carried :=
    always (negotiated ++ [.msg (.video spsKeyframe 0 true .h264 0) (some true)]) negotiated _ [] rfl received
  have covered := (step_sets_iff negotiated _).mp carried spsKeyframe isDue
  rw [Covered, sps_keyframe_converted, if_pos (by decide)] at covered
  exact absurd covered (by decide)

end Lvqr.Whep
