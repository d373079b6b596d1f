import Lvqr.Lib.Checked
import Lvqr.Rtp.Aac
import Lvqr.Rtp.RoundTrip
import Lvqr.Rtsp.Fmp4
import Lvqr.Rtsp.ReadLoop

set_option autoImplicit false

-- PLAY egress: a drain that packetizes fragments and a timer that reports on it
-- share one writer channel. Each load and store of the counters is a step.
namespace Lvqr.Rtsp

open Checked (Halt panicked)
open Rtp (Packetizer H264Packetizer HevcPacketizer NalCodec NalFormat DepackResult Depacketizer writeRtpHeader)

def VIDEO_PAYLOAD_TYPE : UInt8 := 96

def AAC_PAYLOAD_TYPE : UInt8 := 97

def OPUS_PAYLOAD_TYPE : UInt8 := 98

def INITIAL_RTP_SEQUENCE : UInt16 := 1000

def DEFAULT_SSRC : UInt32 := 0xDEADBEEF

def AAC_SSRC : UInt32 := DEFAULT_SSRC ^^^ 0x00010000

def OPUS_SSRC : UInt32 := DEFAULT_SSRC ^^^ 0x00020000

structure PlayDrainCtx where
  rtpChannel : UInt8
  rtcpChannel : UInt8

-- What a drain reads of a fragment; the payload is the boxes as they stand.
structure PlayFragment where
  pts : Nat
  payload : Bytes

def sendInterleaved (channel : UInt8) (rtp : Bytes) : Except Halt Bytes :=
  if rtp.length ≤ 65535 then .ok (DOLLAR :: channel :: BigEndian.bytes 2 rtp.length ++ rtp) else panicked

structure RtpStats where
  packetCount : UInt32
  octetCount : UInt32
  lastTsState : UInt64
deriving DecidableEq, Repr

structure RtpStatsSnapshot where
  packetCount : UInt32
  octetCount : UInt32
  lastRtpTs : UInt32
deriving DecidableEq, Repr

def LAST_TS_VALID_BIT : UInt64 := (1 : UInt64) <<< 63

def RtpStats.new : RtpStats := ⟨0, 0, 0⟩

namespace RtpStats

def countPacket (stats : RtpStats) : RtpStats := { stats with packetCount := stats.packetCount + 1 }

def countOctets (stats : RtpStats) (payloadOctets : UInt32) : RtpStats :=
  { stats with octetCount := stats.octetCount + payloadOctets }

def storeTimestamp (stats : RtpStats) (rtpTs : UInt32) : RtpStats :=
  { stats with lastTsState := LAST_TS_VALID_BIT ||| rtpTs.toUInt64 }

def recordPacket (stats : RtpStats) (payloadOctets rtpTs : UInt32) : RtpStats :=
  ((stats.countPacket).countOctets payloadOctets).storeTimestamp rtpTs

end RtpStats

def payloadOctets (rtp : Bytes) : UInt32 :=
  if rtp.length - 12 < 2 ^ 32 then UInt32.ofNat (rtp.length - 12) else 0xFFFFFFFF

def RTCP_PT_SR : UInt8 := 200

def writeSenderReport (ssrc : UInt32) (ntp : UInt64) (rtpTimestamp packetCount octetCount : UInt32) : Bytes :=
  0x80 :: RTCP_PT_SR :: (BigEndian.bytes 2 6 ++ (BigEndian.bytes 4 ssrc.toNat ++ (BigEndian.bytes 8 ntp.toNat ++
    (BigEndian.bytes 4 rtpTimestamp.toNat ++ (BigEndian.bytes 4 packetCount.toNat ++ BigEndian.bytes 4 octetCount.toNat)))))

def wrapInterleaved (channel : UInt8) (body : Bytes) : Except Halt Bytes :=
  if body.length < 2 ^ 16 then .ok (DOLLAR :: channel :: (BigEndian.bytes 2 body.length ++ body)) else panicked

structure RtpSend where
  rtp : Bytes
  rtpTs : UInt32

-- One call of `send_rtp`, or a packetizer's assertion that fails in its place.
inductive DrainAction where
  | send (packet : RtpSend)
  | fails

section Video

variable {format : NalFormat}

def sends (rtpTs : UInt32) (packets : List Bytes) : List DrainAction := packets.map fun rtp => .send ⟨rtp, rtpTs⟩

def drainParameterSets (packetizer : Packetizer format) : List Bytes → List DrainAction × Packetizer format
  | [] => ([], packetizer)
  | set :: rest =>
      let (packets, next) := packetizer.packetize set 0 false
      let (more, last) := drainParameterSets next rest
      (sends 0 packets ++ more, last)

def drainNalus (packetizer : Packetizer format) (rtpTs : UInt32) : List Bytes → List DrainAction × Packetizer format
  | [] => ([], packetizer)
  | nal :: rest =>
      let (packets, next) := packetizer.packetize nal rtpTs rest.isEmpty
      let (more, last) := drainNalus next rtpTs rest
      (sends rtpTs packets ++ more, last)

def drainFragments (packetizer : Packetizer format) : List PlayFragment → List DrainAction
  | [] => []
  | fragment :: rest =>
      match extractMdatBody fragment.payload with
      | none => drainFragments packetizer rest
      | some body =>
          let (actions, next) := drainNalus packetizer (UInt32.ofNat fragment.pts) (splitAvccNalus body)
          actions ++ drainFragments next rest

def drainVideo (packetizer : Packetizer format) (sets : List Bytes) (fragments : List PlayFragment) : List DrainAction :=
  let (actions, next) := drainParameterSets packetizer sets
  actions ++ drainFragments next fragments

end Video

-- What stops a drain for good: an assertion of a packetizer, or that of
-- `send_interleaved`.
def DrainAction.Faulty : DrainAction → Prop
  | .send packet => 65535 < packet.rtp.length
  | .fails => True

structure AvcParameterSets where
  spsList : List Bytes
  ppsList : List Bytes

structure HevcParameterSets where
  vpsList : List Bytes
  spsList : List Bytes
  ppsList : List Bytes

-- `params` is what the init segment decodes to.
def playDrainH264 (params : Option AvcParameterSets) (fragments : List PlayFragment) : List DrainAction :=
  let packetizer := H264Packetizer.new DEFAULT_SSRC VIDEO_PAYLOAD_TYPE INITIAL_RTP_SEQUENCE (by decide)
  match params with
  | some params => drainVideo packetizer (params.spsList ++ params.ppsList) fragments
  | none => drainVideo packetizer [] fragments

def playDrainHevc (params : Option HevcParameterSets) (fragments : List PlayFragment) : List DrainAction :=
  let packetizer := HevcPacketizer.new DEFAULT_SSRC VIDEO_PAYLOAD_TYPE INITIAL_RTP_SEQUENCE (by decide)
  match params with
  | some params => drainVideo packetizer (params.vpsList ++ params.spsList ++ params.ppsList) fragments
  | none => []

structure AudioPacketizer where
  ssrc : UInt32
  payloadType : UInt8
  sequence : UInt16

def AudioPacketizer.emit (packetizer : AudioPacketizer) (timestamp : UInt32) (body : Bytes) : Bytes × AudioPacketizer :=
  (writeRtpHeader packetizer.payloadType packetizer.sequence timestamp packetizer.ssrc true ++ body,
    { packetizer with sequence := packetizer.sequence + 1 })

def AacPacketizer.packetize (packetizer : AudioPacketizer) (frame : Bytes) (timestamp : UInt32) :
    Except Halt (Bytes × AudioPacketizer) :=
  if frame.length ≤ 0x1FFF then
    .ok (packetizer.emit timestamp (BigEndian.bytes 2 16 ++ (BigEndian.bytes 2 (frame.length * 8) ++ frame)))
  else panicked

def OpusPacketizer.packetize (packetizer : AudioPacketizer) (frame : Bytes) (timestamp : UInt32) :
    Except Halt (Bytes × AudioPacketizer) := .ok (packetizer.emit timestamp frame)

def drainAudio (packetize : AudioPacketizer → Bytes → UInt32 → Except Halt (Bytes × AudioPacketizer))
    (packetizer : AudioPacketizer) : List PlayFragment → List DrainAction
  | [] => []
  | fragment :: rest =>
      match extractMdatBody fragment.payload with
      | none => drainAudio packetize packetizer rest
      | some body =>
          if body.isEmpty then drainAudio packetize packetizer rest
          else
            match packetize packetizer body (UInt32.ofNat fragment.pts) with
            | .error _ => [.fails]
            | .ok (rtp, next) => .send ⟨rtp, UInt32.ofNat fragment.pts⟩ :: drainAudio packetize next rest

def playDrainAac (fragments : List PlayFragment) : List DrainAction :=
  drainAudio AacPacketizer.packetize ⟨AAC_SSRC, AAC_PAYLOAD_TYPE, INITIAL_RTP_SEQUENCE⟩ fragments

def playDrainOpus (fragments : List PlayFragment) : List DrainAction :=
  drainAudio OpusPacketizer.packetize ⟨OPUS_SSRC, OPUS_PAYLOAD_TYPE, INITIAL_RTP_SEQUENCE⟩ fragments

-- What the drain has still to do for the packet it is at.
inductive DrainPhase where
  | sending
  | countingPacket
  | countingOctets
  | storingTimestamp
deriving DecidableEq, Repr

-- What the timer has loaded of the counters, in the order of `snapshot`.
inductive SrPhase where
  | waiting
  | loadedState (state : UInt64)
  | loadedPackets (state : UInt64) (packetCount : UInt32)
  | loaded (snapshot : RtpStatsSnapshot)
deriving DecidableEq, Repr

inductive Outgoing where
  | rtp (frame : Bytes)
  | rtcp (frame : Bytes)
deriving DecidableEq, Repr

def Outgoing.frame : Outgoing → Bytes
  | .rtp frame => frame
  | .rtcp frame => frame

-- A drain that is cancelled or whose writer is gone takes no further step.
structure Egress where
  actions : List DrainAction
  phase : DrainPhase
  stats : RtpStats
  sr : SrPhase
  queued : List Outgoing
  panicked : Bool

inductive EgressOp where
  | drain
  | report (ntp : UInt64)

namespace Egress

def new (actions : List DrainAction) : Egress := ⟨actions, .sending, .new, .waiting, [], false⟩

def sendRtp (ctx : PlayDrainCtx) (egress : Egress) (packet : RtpSend) (rest : List DrainAction) : Egress :=
  match egress.phase with
  | .sending =>
      match sendInterleaved ctx.rtpChannel packet.rtp with
      | .error _ => { egress with panicked := true }
      | .ok frame => { egress with queued := egress.queued ++ [.rtp frame], phase := .countingPacket }
  | .countingPacket => { egress with stats := egress.stats.countPacket, phase := .countingOctets }
  | .countingOctets =>
      { egress with stats := egress.stats.countOctets (payloadOctets packet.rtp), phase := .storingTimestamp }
  | .storingTimestamp =>
      { egress with stats := egress.stats.storeTimestamp packet.rtpTs, phase := .sending, actions := rest }

def drainStep (ctx : PlayDrainCtx) (egress : Egress) : Egress :=
  if egress.panicked then egress
  else
    match egress.actions with
    | [] => egress
    | .fails :: _ => { egress with panicked := true }
    | .send packet :: rest => egress.sendRtp ctx packet rest

def reportStep (ctx : PlayDrainCtx) (ssrc : UInt32) (egress : Egress) (ntp : UInt64) : Egress :=
  match egress.sr with
  | .waiting =>
      if egress.stats.lastTsState &&& LAST_TS_VALID_BIT = 0 then egress
      else { egress with sr := .loadedState egress.stats.lastTsState }
  | .loadedState state => { egress with sr := .loadedPackets state egress.stats.packetCount }
  | .loadedPackets state packetCount =>
      { egress with sr := .loaded ⟨packetCount, egress.stats.octetCount, state.toUInt32⟩ }
  | .loaded snapshot =>
      let sr := writeSenderReport ssrc ntp snapshot.lastRtpTs snapshot.packetCount snapshot.octetCount
      match wrapInterleaved ctx.rtcpChannel sr with
      | .error _ => egress
      | .ok frame => { egress with queued := egress.queued ++ [.rtcp frame], sr := .waiting }

def step (ctx : PlayDrainCtx) (ssrc : UInt32) (egress : Egress) : EgressOp → Egress
  | .drain => egress.drainStep ctx
  | .report ntp => egress.reportStep ctx ssrc ntp

end Egress

theorem timestamp_stored (rtpTs : UInt32) : (LAST_TS_VALID_BIT ||| rtpTs.toUInt64).toUInt32 = rtpTs := by
  have high : LAST_TS_VALID_BIT.toUInt32 = 0 := by decide
  simp [high]

def octetsIn (packets : List RtpSend) : Nat := (packets.map fun packet => packet.rtp.length - 12).sum

def lastTsOf (packets : List RtpSend) : UInt64 :=
  match packets.getLast? with
  | none => 0
  | some packet => LAST_TS_VALID_BIT ||| packet.rtpTs.toUInt64

-- The counters behind whole calls of `record_packet`.
def statsAfter (packets : List RtpSend) : RtpStats :=
  ⟨UInt32.ofNat packets.length, UInt32.ofNat (octetsIn packets), lastTsOf packets⟩

theorem octets_append (front back : List RtpSend) : octetsIn (front ++ back) = octetsIn front + octetsIn back := by
  simp [octetsIn]

theorem payload_octets_sent (rtp : Bytes) (fits : rtp.length ≤ 65535) :
    payloadOctets rtp = UInt32.ofNat (rtp.length - 12) := if_pos (by omega)

theorem stats_record (packets : List RtpSend) (packet : RtpSend) (fits : packet.rtp.length ≤ 65535) :
    (statsAfter packets).recordPacket (payloadOctets packet.rtp) packet.rtpTs = statsAfter (packets ++ [packet]) := by
  have octets : octetsIn (packets ++ [packet]) = octetsIn packets + (packet.rtp.length - 12) := by
    rw [octets_append]
    simp [octetsIn]
  simp only [statsAfter, RtpStats.recordPacket, RtpStats.countPacket, RtpStats.countOctets, RtpStats.storeTimestamp,
    payload_octets_sent packet.rtp fits, octets, lastTsOf, List.getLast?_concat, List.length_append,
    List.length_singleton, UInt32.ofNat_add]
  rfl

def rtpFrame? : Outgoing → Option Bytes
  | .rtp frame => some frame
  | .rtcp _ => none

def rtpFrames (queued : List Outgoing) : List Bytes := queued.filterMap rtpFrame?

def RtpSend.frame (channel : UInt8) (packet : RtpSend) : Bytes :=
  DOLLAR :: channel :: BigEndian.bytes 2 packet.rtp.length ++ packet.rtp

-- What a drain sends as long as no packetizer fails.
def sendsOf : List DrainAction → List RtpSend
  | .send packet :: rest => packet :: sendsOf rest
  | _ => []

theorem sends_of_front (done : List RtpSend) (rest : List DrainAction) :
    sendsOf (done.map .send ++ rest) = done ++ sendsOf rest := by
  induction done with
  | nil => rfl
  | cons packet done ih => simp [sendsOf, ih]

namespace Egress

-- The packets whose frame is queued, and those whose counters are still to be
-- moved on.
def inFlight (egress : Egress) : List RtpSend :=
  match egress.phase with
  | .sending => []
  | _ => (sendsOf egress.actions).take 1

def statsBehind (done : List RtpSend) (egress : Egress) : RtpStats :=
  match egress.phase, egress.actions with
  | .countingOctets, _ => (statsAfter done).countPacket
  | .storingTimestamp, .send packet :: _ => ((statsAfter done).countPacket).countOctets (payloadOctets packet.rtp)
  | _, _ => statsAfter done

-- `done` are the packets that were sent and counted.
structure Sent (ctx : PlayDrainCtx) (actions : List DrainAction) (egress : Egress) (done : List RtpSend) : Prop where
  split : actions = done.map .send ++ egress.actions
  at_packet : egress.phase = .sending ∨ ∃ packet rest, egress.actions = .send packet :: rest ∧ packet.rtp.length ≤ 65535
  queued : rtpFrames egress.queued = (done ++ egress.inFlight).map (RtpSend.frame ctx.rtpChannel)
  stats : egress.stats = egress.statsBehind done
  small : ∀ packet ∈ done, packet.rtp.length ≤ 65535

variable {ctx : PlayDrainCtx} {actions : List DrainAction} {egress : Egress} {done : List RtpSend}

theorem new_sent (ctx : PlayDrainCtx) (actions : List DrainAction) : (new actions).Sent ctx actions [] where
  split := rfl
  at_packet := .inl rfl
  queued := rfl
  stats := rfl
  small := nofun

theorem rtp_frames_append (front back : List Outgoing) : rtpFrames (front ++ back) = rtpFrames front ++ rtpFrames back :=
  List.filterMap_append

theorem drain_step_sent (sent : egress.Sent ctx actions done) :
    ∃ more, done <+: more ∧ (egress.drainStep ctx).Sent ctx actions more := by
  obtain ⟨remaining, phase, stats, sr, queued, panicked⟩ := egress
  obtain ⟨split, atPacket, isQueued, isStats, small⟩ := sent
  cases panicked with
  | true => exact ⟨done, List.prefix_rfl, split, atPacket, isQueued, isStats, small⟩
  | false =>
      match remaining with
      | [] => exact ⟨done, List.prefix_rfl, split, atPacket, isQueued, isStats, small⟩
      | .fails :: rest => exact ⟨done, List.prefix_rfl, split, atPacket, isQueued, isStats, small⟩
      | .send packet :: rest =>
          cases phase with
          | sending =>
              by_cases fits : packet.rtp.length ≤ 65535
              · have framed : sendInterleaved ctx.rtpChannel packet.rtp = .ok (packet.frame ctx.rtpChannel) := if_pos fits
                refine ⟨done, List.prefix_rfl, ?_⟩
                simp only [drainStep, sendRtp, framed, Bool.false_eq_true, if_false]
                refine ⟨split, .inr ⟨packet, rest, rfl, fits⟩, ?_, isStats, small⟩
                simp only [inFlight, List.append_nil] at isQueued
                rw [rtp_frames_append, isQueued]
                simp [inFlight, sendsOf, rtpFrames, rtpFrame?]
              · have refused : sendInterleaved ctx.rtpChannel packet.rtp = Checked.panicked := if_neg fits
                refine ⟨done, List.prefix_rfl, ?_⟩
                simp only [drainStep, sendRtp, refused, Bool.false_eq_true, if_false]
                exact ⟨split, atPacket, isQueued, isStats, small⟩
          | countingPacket =>
              refine ⟨done, List.prefix_rfl, split, .inr ?_, isQueued, ?_, small⟩
              · exact atPacket.resolve_left nofun
              · exact congrArg RtpStats.countPacket isStats
          | countingOctets =>
              refine ⟨done, List.prefix_rfl, split, .inr ?_, isQueued, ?_, small⟩
              · exact atPacket.resolve_left nofun
              · exact congrArg (RtpStats.countOctets · (payloadOctets packet.rtp)) isStats
          | storingTimestamp =>
              have fits : packet.rtp.length ≤ 65535 := by
                obtain ⟨other, others, same, fits⟩ := atPacket.resolve_left nofun
                cases same
                exact fits
              refine ⟨done ++ [packet], List.prefix_append done _, ?_, .inl rfl, ?_, ?_, ?_⟩
              · rw [split]
                simp [drainStep, sendRtp]
              · simpa [inFlight, sendsOf, drainStep, sendRtp] using isQueued
              · exact (congrArg (RtpStats.storeTimestamp · packet.rtpTs) isStats).trans (stats_record done packet fits)
              · intro other member
                cases List.mem_append.mp member with
                | inl early => exact small other early
                | inr last => exact (List.mem_singleton.mp last) ▸ fits

theorem in_flight_begins (sent : egress.Sent ctx actions done) : done ++ egress.inFlight <+: sendsOf actions := by
  rw [sent.split, sends_of_front, List.prefix_append_right_inj]
  cases phase : egress.phase with
  | sending => simp [inFlight, phase]
  | countingPacket => simpa [inFlight, phase] using List.take_prefix 1 _
  | countingOctets => simpa [inFlight, phase] using List.take_prefix 1 _
  | storingTimestamp => simpa [inFlight, phase] using List.take_prefix 1 _

theorem queued_count (sent : egress.Sent ctx actions done) :
    (rtpFrames egress.queued).length = done.length + egress.inFlight.length := by
  rw [sent.queued, List.length_map, List.length_append]

theorem in_flight_one (sent : egress.Sent ctx actions done) (busy : egress.phase ≠ .sending) :
    ∃ packet rest, egress.actions = .send packet :: rest ∧ egress.inFlight = [packet] := by
  obtain ⟨packet, rest, next, _⟩ := sent.at_packet.resolve_left busy
  refine ⟨packet, rest, next, ?_⟩
  cases phase : egress.phase with
  | sending => exact absurd phase busy
  | countingPacket => simp [inFlight, phase, next, sendsOf]
  | countingOctets => simp [inFlight, phase, next, sendsOf]
  | storingTimestamp => simp [inFlight, phase, next, sendsOf]

theorem stats_packets (sent : egress.Sent ctx actions done) :
    ∃ counted, done.length ≤ counted ∧ counted ≤ (rtpFrames egress.queued).length ∧
      egress.stats.packetCount = UInt32.ofNat counted := by
  have queued := queued_count sent
  have stats := sent.stats
  by_cases idle : egress.phase = .sending ∨ egress.phase = .countingPacket
  · refine ⟨done.length, Nat.le_refl _, by omega, ?_⟩
    rw [stats]
    rcases idle with phase | phase
    · simp [statsBehind, phase, statsAfter]
    · simp [statsBehind, phase, statsAfter]
  · have ⟨notSending, notCounting⟩ := not_or.mp idle
    obtain ⟨packet, rest, next, inFlight⟩ := in_flight_one sent notSending
    rw [inFlight, List.length_singleton] at queued
    refine ⟨done.length + 1, Nat.le_succ _, Nat.le_of_eq queued.symm, ?_⟩
    rw [stats]
    cases phase : egress.phase with
    | sending => exact absurd phase notSending
    | countingPacket => exact absurd phase notCounting
    | countingOctets => simp [statsBehind, phase, statsAfter, RtpStats.countPacket, UInt32.ofNat_add]
    | storingTimestamp =>
        simp [statsBehind, phase, next, statsAfter, RtpStats.countPacket, RtpStats.countOctets, UInt32.ofNat_add]

theorem stats_octets (sent : egress.Sent ctx actions done) :
    ∃ weighed, done.length ≤ weighed ∧ weighed ≤ (rtpFrames egress.queued).length ∧
      egress.stats.octetCount = UInt32.ofNat (octetsIn ((sendsOf actions).take weighed)) := by
  have queued := queued_count sent
  have stats := sent.stats
  have whole := in_flight_begins sent
  by_cases storing : egress.phase = .storingTimestamp
  · obtain ⟨packet, rest, next, inFlight⟩ := in_flight_one sent (by rw [storing]; decide)
    have fits : packet.rtp.length ≤ 65535 := by
      obtain ⟨other, others, same, small⟩ := sent.at_packet.resolve_left (by rw [storing]; decide)
      rw [next] at same
      cases same
      exact small
    rw [inFlight] at queued whole
    rw [List.length_singleton] at queued
    refine ⟨done.length + 1, Nat.le_succ _, Nat.le_of_eq queued.symm, ?_⟩
    have taken : (sendsOf actions).take (done.length + 1) = done ++ [packet] := by
      have length : done.length + 1 = (done ++ [packet]).length := by simp
      rw [length]
      exact (List.prefix_iff_eq_take.mp whole).symm
    rw [stats, taken, octets_append]
    simp [statsBehind, storing, next, statsAfter, RtpStats.countPacket, RtpStats.countOctets, UInt32.ofNat_add,
      payload_octets_sent packet.rtp fits, octetsIn]
  · refine ⟨done.length, Nat.le_refl _, by omega, ?_⟩
    have taken : (sendsOf actions).take done.length = done :=
      (List.prefix_iff_eq_take.mp ((List.prefix_append done _).trans whole)).symm
    rw [stats, taken]
    cases phase : egress.phase with
    | sending => simp [statsBehind, phase, statsAfter]
    | countingPacket => simp [statsBehind, phase, statsAfter]
    | countingOctets => simp [statsBehind, phase, statsAfter, RtpStats.countPacket]
    | storingTimestamp => exact absurd phase storing

theorem stats_state (sent : egress.Sent ctx actions done) (valid : egress.stats.lastTsState &&& LAST_TS_VALID_BIT ≠ 0) :
    ∃ index packet, index < done.length ∧ (sendsOf actions)[index]? = some packet ∧
      egress.stats.lastTsState = LAST_TS_VALID_BIT ||| packet.rtpTs.toUInt64 := by
  have last : egress.stats.lastTsState = lastTsOf done := by
    rw [sent.stats]
    obtain ⟨remaining, phase, stats, sr, queued, panicked⟩ := egress
    cases phase with
    | sending => rfl
    | countingPacket => rfl
    | countingOctets => rfl
    | storingTimestamp =>
        obtain ⟨packet, rest, next, _⟩ := in_flight_one sent nofun
        obtain rfl : remaining = .send packet :: rest := next
        rfl
  have isPrefix := (List.prefix_append done _).trans (in_flight_begins sent)
  rw [last] at valid ⊢
  cases done using List.reverseRecOn with
  | nil => exact absurd (by decide) valid
  | append_singleton front packet =>
      refine ⟨front.length, packet, by simp, ?_, by simp [lastTsOf]⟩
      obtain ⟨rest, whole⟩ := isPrefix
      simp [← whole]

-- A snapshot's counters come from different moments: the timestamp's packet is among
-- the counted ones, and only packets whose frame is queued are.
structure Behind (packets : List RtpSend) (limit : Nat) (snapshot : RtpStatsSnapshot) (index counted weighed : Nat) :
    Prop where
  timestamp : packets[index]?.map RtpSend.rtpTs = some snapshot.lastRtpTs
  counts : index < counted ∧ counted ≤ limit ∧ snapshot.packetCount = UInt32.ofNat counted
  weighs : index < weighed ∧ weighed ≤ limit ∧ snapshot.octetCount = UInt32.ofNat (octetsIn (packets.take weighed))

structure Stamped (packets : List RtpSend) (stored : Nat) (state : UInt64) (index : Nat) : Prop where
  inside : index < stored
  timestamp : packets[index]?.map RtpSend.rtpTs = some state.toUInt32

def Loaded (packets : List RtpSend) (stored limit : Nat) : SrPhase → Prop
  | .waiting => True
  | .loadedState state => ∃ index, Stamped packets stored state index
  | .loadedPackets state packetCount =>
      ∃ index counted, Stamped packets stored state index ∧ index < counted ∧ counted ≤ limit ∧
        packetCount = UInt32.ofNat counted
  | .loaded snapshot => ∃ index counted weighed, Behind packets limit snapshot index counted weighed

-- `before` is what the channel got ahead of the report.
def Reports (ctx : PlayDrainCtx) (ssrc : UInt32) (packets : List RtpSend) (before : List Outgoing) (frame : Bytes) : Prop :=
  ∃ ntp snapshot index counted weighed, Behind packets (rtpFrames before).length snapshot index counted weighed ∧
    wrapInterleaved ctx.rtcpChannel
      (writeSenderReport ssrc ntp snapshot.lastRtpTs snapshot.packetCount snapshot.octetCount) = .ok frame

structure Reporting (ctx : PlayDrainCtx) (ssrc : UInt32) (actions : List DrainAction) (egress : Egress) : Prop where
  sent : ∃ done, egress.Sent ctx actions done ∧
    Loaded (sendsOf actions) done.length (rtpFrames egress.queued).length egress.sr
  reports : ∀ before frame after, egress.queued = before ++ .rtcp frame :: after →
    Reports ctx ssrc (sendsOf actions) before frame

theorem behind_mono {packets : List RtpSend} {limit more : Nat} {snapshot : RtpStatsSnapshot} {index counted weighed : Nat}
    (behind : Behind packets limit snapshot index counted weighed) (grows : limit ≤ more) :
    Behind packets more snapshot index counted weighed where
  timestamp := behind.timestamp
  counts := ⟨behind.counts.1, behind.counts.2.1.trans grows, behind.counts.2.2⟩
  weighs := ⟨behind.weighs.1, behind.weighs.2.1.trans grows, behind.weighs.2.2⟩

theorem loaded_mono {packets : List RtpSend} {stored limit later more : Nat} (sr : SrPhase)
    (loaded : Loaded packets stored limit sr) (stores : stored ≤ later) (grows : limit ≤ more) :
    Loaded packets later more sr := by
  cases sr with
  | waiting => trivial
  | loadedState state =>
      obtain ⟨index, inside, timestamp⟩ := loaded
      exact ⟨index, Nat.lt_of_lt_of_le inside stores, timestamp⟩
  | loadedPackets state packetCount =>
      obtain ⟨index, counted, ⟨inside, timestamp⟩, behind, queued, count⟩ := loaded
      exact ⟨index, counted, ⟨Nat.lt_of_lt_of_le inside stores, timestamp⟩, behind, queued.trans grows, count⟩
  | loaded snapshot =>
      obtain ⟨index, counted, weighed, behind⟩ := loaded
      exact ⟨index, counted, weighed, behind_mono behind grows⟩

theorem new_reporting (ctx : PlayDrainCtx) (ssrc : UInt32) (actions : List DrainAction) :
    (new actions).Reporting ctx ssrc actions where
  sent := ⟨[], new_sent ctx actions, trivial⟩
  reports := by
    intro before frame after impossible
    cases before <;> cases impossible

-- The drain queues nothing but media and leaves the timer alone.
theorem drain_step_adds (ctx : PlayDrainCtx) (egress : Egress) :
    (egress.drainStep ctx).sr = egress.sr ∧
      ((egress.drainStep ctx).queued = egress.queued ∨
        ∃ frame, (egress.drainStep ctx).queued = egress.queued ++ [.rtp frame]) := by
  obtain ⟨remaining, phase, stats, sr, queued, panicked⟩ := egress
  cases panicked with
  | true => exact ⟨rfl, .inl rfl⟩
  | false =>
      match remaining with
      | [] => exact ⟨rfl, .inl rfl⟩
      | .fails :: rest => exact ⟨rfl, .inl rfl⟩
      | .send packet :: rest =>
          cases phase with
          | sending =>
              simp only [drainStep, sendRtp, Bool.false_eq_true, if_false]
              cases sendInterleaved ctx.rtpChannel packet.rtp with
              | error halt => exact ⟨rfl, .inl rfl⟩
              | ok frame => exact ⟨rfl, .inr ⟨frame, rfl⟩⟩
          | countingPacket => exact ⟨rfl, .inl rfl⟩
          | countingOctets => exact ⟨rfl, .inl rfl⟩
          | storingTimestamp => exact ⟨rfl, .inl rfl⟩

variable {ssrc : UInt32}

theorem reports_rtp {packets : List RtpSend} {queued : List Outgoing} {rtp : Bytes}
    (reports : ∀ before frame after, queued = before ++ .rtcp frame :: after → Reports ctx ssrc packets before frame)
    (before : List Outgoing) (frame : Bytes) (after : List Outgoing)
    (split : queued ++ [.rtp rtp] = before ++ .rtcp frame :: after) : Reports ctx ssrc packets before frame := by
  cases after using List.reverseRecOn with
  | nil =>
      have ends := (List.append_inj' split rfl).2
      cases ends
  | append_singleton front last =>
      rw [← List.cons_append, ← List.append_assoc] at split
      exact reports before frame front (List.append_inj' split rfl).1

theorem reports_rtcp {packets : List RtpSend} {queued : List Outgoing} {rtcp : Bytes}
    (reports : ∀ before frame after, queued = before ++ .rtcp frame :: after → Reports ctx ssrc packets before frame)
    (here : Reports ctx ssrc packets queued rtcp) (before : List Outgoing) (frame : Bytes) (after : List Outgoing)
    (split : queued ++ [.rtcp rtcp] = before ++ .rtcp frame :: after) : Reports ctx ssrc packets before frame := by
  cases after using List.reverseRecOn with
  | nil =>
      obtain ⟨same, ends⟩ := List.append_inj' split rfl
      cases ends
      exact same ▸ here
  | append_singleton front last =>
      rw [← List.cons_append, ← List.append_assoc] at split
      exact reports before frame front (List.append_inj' split rfl).1

theorem drain_step_reporting (reporting : egress.Reporting ctx ssrc actions) :
    (egress.drainStep ctx).Reporting ctx ssrc actions := by
  obtain ⟨⟨done, sent, loaded⟩, reports⟩ := reporting
  obtain ⟨more, longer, sentMore⟩ := drain_step_sent sent
  obtain ⟨sameTimer, queued⟩ := drain_step_adds ctx egress
  refine ⟨⟨more, sentMore, ?_⟩, ?_⟩
  · rw [sameTimer]
    refine loaded_mono _ loaded longer.length_le ?_
    rcases queued with same | ⟨frame, added⟩
    · rw [same]
    · rw [added, rtp_frames_append, List.length_append]
      exact Nat.le_add_right _ _
  · rcases queued with same | ⟨rtp, added⟩
    · rw [same]
      exact reports
    · rw [added]
      exact reports_rtp reports

theorem sender_report_length (ssrc : UInt32) (ntp : UInt64) (rtpTimestamp packetCount octetCount : UInt32) :
    (writeSenderReport ssrc ntp rtpTimestamp packetCount octetCount).length = 28 := by
  simp [writeSenderReport]

theorem report_step_reporting (ntp : UInt64) (reporting : egress.Reporting ctx ssrc actions) :
    (egress.reportStep ctx ssrc ntp).Reporting ctx ssrc actions := by
  obtain ⟨⟨done, sent, loaded⟩, reports⟩ := reporting
  -- The timer writes its own phase and the channel only.
  have kept : ∀ sr, { egress with sr := sr }.Sent ctx actions done := fun sr =>
    ⟨sent.split, sent.at_packet, sent.queued, sent.stats, sent.small⟩
  cases phase : egress.sr with
  | waiting =>
      by_cases unset : egress.stats.lastTsState &&& LAST_TS_VALID_BIT = 0
      · simp only [reportStep, phase, if_pos unset]
        exact ⟨⟨done, sent, loaded⟩, reports⟩
      · obtain ⟨index, packet, inside, isPacket, isState⟩ := stats_state sent unset
        simp only [reportStep, phase, if_neg unset]
        refine ⟨⟨done, kept _, index, inside, ?_⟩, reports⟩
        rw [isPacket, isState, timestamp_stored]
        rfl
  | loadedState state =>
      rw [phase] at loaded
      obtain ⟨index, stamped⟩ := loaded
      obtain ⟨counted, counts, queued, count⟩ := stats_packets sent
      simp only [reportStep, phase]
      exact ⟨⟨done, kept _, index, counted, stamped, Nat.lt_of_lt_of_le stamped.inside counts, queued, count⟩, reports⟩
  | loadedPackets state packetCount =>
      rw [phase] at loaded
      obtain ⟨index, counted, stamped, behind, queued, count⟩ := loaded
      obtain ⟨weighed, weighs, inside, weight⟩ := stats_octets sent
      simp only [reportStep, phase]
      exact ⟨⟨done, kept _, index, counted, weighed, stamped.timestamp, ⟨behind, queued, count⟩,
        Nat.lt_of_lt_of_le stamped.inside weighs, inside, weight⟩, reports⟩
  | loaded snapshot =>
      rw [phase] at loaded
      obtain ⟨index, counted, weighed, behind⟩ := loaded
      have small : (writeSenderReport ssrc ntp snapshot.lastRtpTs snapshot.packetCount snapshot.octetCount).length < 2 ^ 16 := by
        rw [sender_report_length]
        decide
      simp only [reportStep, phase, wrapInterleaved, if_pos small]
      refine ⟨⟨done, ⟨sent.split, sent.at_packet, ?_, sent.stats, sent.small⟩, trivial⟩, ?_⟩
      · rw [rtp_frames_append, show rtpFrames [.rtcp _] = [] from rfl, List.append_nil]
        exact sent.queued
      · refine reports_rtcp reports ⟨ntp, snapshot, index, counted, weighed, behind, ?_⟩
        exact if_pos small

theorem run_reporting (ctx : PlayDrainCtx) (ssrc : UInt32) (actions : List DrainAction) (ops : List EgressOp) :
    (Machine.run (step ctx ssrc) (new actions) ops).Reporting ctx ssrc actions := by
  refine Machine.invariant_of_run (fun egress op reporting => ?_) _ ops (new_reporting ctx ssrc actions)
  cases op with
  | drain => exact drain_step_reporting reporting
  | report ntp => exact report_step_reporting ntp reporting

theorem run_remaining (ctx : PlayDrainCtx) (ssrc : UInt32) (actions : List DrainAction) (ops : List EgressOp) :
    (Machine.run (step ctx ssrc) (new actions) ops).actions <:+ actions := by
  obtain ⟨done, sent, _⟩ := (run_reporting ctx ssrc actions ops).sent
  exact ⟨done.map .send, sent.split.symm⟩

theorem queued_begins (sent : egress.Sent ctx actions done) :
    rtpFrames egress.queued <+: (sendsOf actions).map (RtpSend.frame ctx.rtpChannel) := by
  rw [sent.queued]
  exact (in_flight_begins sent).map _

-- A report's counts never run ahead of the packets that the channel got before it, and
-- its timestamp is that of a packet they count.
theorem sender_reports_behind_stream (ctx : PlayDrainCtx) (ssrc : UInt32) (actions : List DrainAction)
    (ops : List EgressOp) (before after : List Outgoing) (frame : Bytes)
    (queued : (Machine.run (step ctx ssrc) (new actions) ops).queued = before ++ .rtcp frame :: after) :
    rtpFrames before <+: (sendsOf actions).map (RtpSend.frame ctx.rtpChannel) ∧
      Reports ctx ssrc (sendsOf actions) before frame := by
  have reporting := run_reporting ctx ssrc actions ops
  obtain ⟨done, sent, _⟩ := reporting.sent
  have begins := queued_begins sent
  rw [queued, rtp_frames_append] at begins
  exact ⟨(List.prefix_append _ _).trans begins, reporting.reports before frame after queued⟩

end Egress

def onePacket : RtpSend := ⟨List.replicate 13 0x80, 3000⟩

-- The second packet is queued and counted while the timer has loaded only one of the
-- two counters.
def countedBetweenLoads : List EgressOp :=
  List.replicate 4 .drain ++ [.report 0, .report 0] ++ List.replicate 4 .drain ++ [.report 0, .report 7]

theorem torn_report_behind_stream :
    Egress.Reports ⟨0, 1⟩ 5 [onePacket, onePacket] [.rtp (onePacket.frame 0), .rtp (onePacket.frame 0)]
      (DOLLAR :: 1 :: 0 :: 28 :: writeSenderReport 5 7 3000 1 2) :=
  (Egress.sender_reports_behind_stream ⟨0, 1⟩ 5 [.send onePacket, .send onePacket] countedBetweenLoads
    [.rtp (onePacket.frame 0), .rtp (onePacket.frame 0)] [] _ (by decide)).2

end Lvqr.Rtsp
