import Lvqr.Rtsp.Play

set_option autoImplicit false

-- What a player makes of the bytes a PLAY drain and its timer put on the wire, read
-- with the parsers of the ingest side.
namespace Lvqr.Rtsp

open Checked (Halt)
open Rtp (Packetizer NalCodec NalFormat DepackResult Depacketizer RtpHeader Nal byteAt parseRtpHeader)

def interleavedFrame? : Handled → Option InterleavedFrame
  | .frame frame => some frame
  | _ => none

def readFrames (chunks : List Bytes) : List InterleavedFrame :=
  (Machine.run ReadLoop.read .new chunks).handled.filterMap interleavedFrame?

def channelPayloads (channel : UInt8) (frames : List InterleavedFrame) : List Bytes :=
  (frames.filter fun frame => frame.channel = channel).map InterleavedFrame.payload

theorem legible_frames (frames : List WireFrame) (seen : Bytes) (chunks : List Bytes) :
    Message.Legible (frames.map .frame) seen chunks := by
  intro index message found isRequest
  rw [List.getElem?_map] at found
  obtain ⟨frame, _, rfl⟩ := Option.map_eq_some_iff.mp found
  exact absurd isRequest id

-- Frames come out of the read loop however the bytes arrive.
theorem read_frames (frames : List WireFrame) (chunks : List Bytes)
    (arrives : chunks.flatten = frames.flatMap WireFrame.wire) : readFrames chunks = frames.map WireFrame.frame := by
  have wired : [] ++ chunks.flatten = Message.wireAll (frames.map .frame) := by
    rw [List.nil_append, arrives, Message.wireAll, List.flatMap_map]
    rfl
  have handled := (handled_iff_legible (frames.map .frame) [] chunks wired (.inl rfl)).mpr (legible_frames frames [] chunks)
  rw [readFrames, ReadLoop.new, handled, List.map_map, List.filterMap_map]
  exact List.filterMap_eq_map_iff_forall_eq_some.mpr fun frame _ => rfl

-- The packets a packetizer has emitted: consecutive sequence numbers, one stream, the
-- timestamp that the statistics take down, and a bounded size.
structure Emits {format : NalFormat} (packetizer next : Packetizer format) (packets : List RtpSend) : Prop where
  headers : ∀ index packet, packets[index]? = some packet → ∃ marker, parseRtpHeader packet.rtp =
    some ⟨packetizer.payloadType, packetizer.sequence + UInt16.ofNat index, packet.rtpTs, packetizer.ssrc, marker, 12⟩
  sizes : ∀ packet ∈ packets, packet.rtp.length ≤ 12 + packetizer.mtu
  next : next = { packetizer with sequence := packetizer.sequence + UInt16.ofNat packets.length }

section Emits

variable {format : NalFormat}

theorem emits_nothing (packetizer : Packetizer format) : Emits packetizer packetizer [] where
  headers := fun index packet found => by simp at found
  sizes := fun packet member => by simp at member
  next := by simp

theorem emits_packet (packetizer : Packetizer format) (marker : Bool) (timestamp : UInt32) (payload : Bytes)
    (small : payload.length ≤ packetizer.mtu) :
    Emits packetizer (packetizer.emitPacket marker timestamp payload).2
      [⟨(packetizer.emitPacket marker timestamp payload).1, timestamp⟩] where
  headers := by
    intro index packet found
    cases index with
    | zero =>
        cases found
        exact ⟨marker, by rw [packetizer.parse_emitted]; simp [Packetizer.emittedHeader]⟩
    | succ index => simp at found
  sizes := by
    intro packet member
    rw [List.mem_singleton.mp member]
    simp only [Packetizer.emitPacket, List.length_append, Rtp.write_rtp_header_length]
    omega
  next := rfl

theorem emits_append {packetizer between next : Packetizer format} {front back : List RtpSend}
    (first : Emits packetizer between front) (second : Emits between next back) :
    Emits packetizer next (front ++ back) where
  headers := by
    intro index packet found
    by_cases early : index < front.length
    · rw [List.getElem?_append_left early] at found
      exact first.headers index packet found
    · rw [List.getElem?_append_right (Nat.not_lt.mp early)] at found
      obtain ⟨marker, parsed⟩ := second.headers _ packet found
      have sequence : packetizer.sequence + UInt16.ofNat front.length + UInt16.ofNat (index - front.length) =
          packetizer.sequence + UInt16.ofNat index := by
        rw [UInt16.add_assoc, ← UInt16.ofNat_add, Nat.add_sub_cancel' (Nat.not_lt.mp early)]
      rw [first.next] at parsed
      dsimp only at parsed
      rw [sequence] at parsed
      exact ⟨marker, parsed⟩
  sizes := by
    intro packet member
    cases List.mem_append.mp member with
    | inl early => exact first.sizes packet early
    | inr late =>
        have size := second.sizes packet late
        rw [first.next] at size
        exact size
  next := by
    rw [second.next, first.next]
    simp only [List.length_append, UInt16.ofNat_add, UInt16.add_assoc]

end Emits

def sent (timestamp : UInt32) (packets : List Bytes) : List RtpSend := packets.map fun rtp => ⟨rtp, timestamp⟩

section Codec

variable {codec : NalCodec}

theorem fu_payload_size (codec : NalCodec) (nalu : Bytes) (fragment : Fragment UInt8) (size : Nat)
    (small : fragment.part.length ≤ size) :
    (codec.format.fuPayload nalu fragment).length ≤ codec.format.headerLen + 1 + size := by
  have positive := codec.header_positive
  have tail : (codec.format.headerTail nalu).length ≤ codec.format.headerLen - 1 := by
    simp only [NalFormat.headerTail, List.length_drop, List.length_take]
    omega
  simp only [NalFormat.fuPayload, List.length_cons, List.length_append]
  omega

theorem emit_fragments (packetizer : Packetizer codec.format) (nalu : Bytes) (timestamp : UInt32) (endOfAu : Bool)
    (fragments : List (Fragment UInt8)) (small : ∀ fragment ∈ fragments, fragment.part.length ≤ packetizer.chunkSize) :
    Emits packetizer (packetizer.emitFragments nalu timestamp endOfAu fragments).2
      (sent timestamp (packetizer.emitFragments nalu timestamp endOfAu fragments).1) := by
  induction fragments generalizing packetizer with
  | nil => exact emits_nothing packetizer
  | cons fragment rest ih =>
      have covers := packetizer.mtu_covers
      have size := fu_payload_size codec nalu fragment packetizer.chunkSize (small fragment List.mem_cons_self)
      have bounded : (codec.format.fuPayload nalu fragment).length ≤ packetizer.mtu := by
        unfold Packetizer.chunkSize at size
        omega
      have here := emits_packet packetizer (endOfAu && fragment.last) timestamp _ bounded
      exact emits_append here (ih _ fun other member => small other (List.mem_cons_of_mem _ member))

theorem packetize_emits (packetizer : Packetizer codec.format) (nalu : Bytes) (timestamp : UInt32) (endOfAu : Bool) :
    Emits packetizer (packetizer.packetize nalu timestamp endOfAu).2
      (sent timestamp (packetizer.packetize nalu timestamp endOfAu).1) := by
  unfold Packetizer.packetize
  split
  · exact emits_nothing packetizer
  · rename_i long
    split
    · rename_i fits
      exact emits_packet packetizer endOfAu timestamp nalu fits
    · rename_i large
      have covers := packetizer.mtu_covers
      have nonempty : nalu.drop codec.format.headerLen ≠ [] := by
        intro empty
        have short := List.drop_eq_nil_iff.mp empty
        omega
      exact emit_fragments packetizer nalu timestamp endOfAu _
        (Fragment.cut_part_length _ packetizer.chunk_size_positive true _ nonempty)

-- Actions of a drain that nothing can fail, and the packetizer behind them.
structure Sends (packetizer next : Packetizer codec.format) (actions : List DrainAction) : Prop where
  unfailing : actions = (sendsOf actions).map .send
  emits : Emits packetizer next (sendsOf actions)

theorem sends_of_all (packets : List RtpSend) : sendsOf (packets.map .send) = packets := by
  simpa [sendsOf] using sends_of_front packets []

theorem sends_nothing (packetizer : Packetizer codec.format) : Sends packetizer packetizer [] :=
  ⟨rfl, emits_nothing packetizer⟩

theorem sends_append {packetizer between next : Packetizer codec.format} {front back : List DrainAction}
    (first : Sends packetizer between front) (second : Sends between next back) :
    Sends packetizer next (front ++ back) ∧ sendsOf (front ++ back) = sendsOf front ++ sendsOf back := by
  have joined : sendsOf (front ++ back) = sendsOf front ++ sendsOf back := by
    rw [first.unfailing, sends_of_front, sends_of_all]
  refine ⟨⟨?_, ?_⟩, joined⟩
  · rw [joined, List.map_append, ← first.unfailing, ← second.unfailing]
  · rw [joined]
    exact emits_append first.emits second.emits

theorem packets_sent (timestamp : UInt32) (packets : List Bytes) : sendsOf (sends timestamp packets) = sent timestamp packets := by
  rw [sends, ← sends_of_all (sent timestamp packets), sent, List.map_map]
  rfl

theorem packetize_sends (packetizer : Packetizer codec.format) (nalu : Bytes) (timestamp : UInt32) (endOfAu : Bool) :
    Sends packetizer (packetizer.packetize nalu timestamp endOfAu).2
      (sends timestamp (packetizer.packetize nalu timestamp endOfAu).1) where
  unfailing := by
    rw [packets_sent, sends, sent, List.map_map]
    rfl
  emits := by
    rw [packets_sent]
    exact packetize_emits packetizer nalu timestamp endOfAu

theorem drain_sets_send (packetizer : Packetizer codec.format) (sets : List Bytes) :
    Sends packetizer (drainParameterSets packetizer sets).2 (drainParameterSets packetizer sets).1 := by
  induction sets generalizing packetizer with
  | nil => exact sends_nothing packetizer
  | cons set rest ih => exact (sends_append (packetize_sends packetizer set 0 false) (ih _)).1

theorem drain_nalus_send (packetizer : Packetizer codec.format) (rtpTs : UInt32) (nalus : List Bytes) :
    Sends packetizer (drainNalus packetizer rtpTs nalus).2 (drainNalus packetizer rtpTs nalus).1 := by
  induction nalus generalizing packetizer with
  | nil => exact sends_nothing packetizer
  | cons nal rest ih => exact (sends_append (packetize_sends packetizer nal rtpTs rest.isEmpty) (ih _)).1

theorem drain_fragments_send (packetizer : Packetizer codec.format) (fragments : List PlayFragment) :
    ∃ next, Sends packetizer next (drainFragments packetizer fragments) := by
  induction fragments generalizing packetizer with
  | nil => exact ⟨packetizer, sends_nothing packetizer⟩
  | cons fragment rest ih =>
      rw [drainFragments]
      cases extractMdatBody fragment.payload with
      | none => exact ih packetizer
      | some body =>
          have here := drain_nalus_send packetizer (UInt32.ofNat fragment.pts) (splitAvccNalus body)
          obtain ⟨next, later⟩ := ih (drainNalus packetizer (UInt32.ofNat fragment.pts) (splitAvccNalus body)).2
          exact ⟨next, (sends_append here later).1⟩

theorem drain_video_sends (packetizer : Packetizer codec.format) (sets : List Bytes) (fragments : List PlayFragment) :
    ∃ next, Sends packetizer next (drainVideo packetizer sets fragments) := by
  obtain ⟨next, later⟩ := drain_fragments_send (drainParameterSets packetizer sets).2 fragments
  exact ⟨next, (sends_append (drain_sets_send packetizer sets) later).1⟩

-- A NAL unit that its own packet can be told from an aggregation or a fragment by.
structure LegalNal (codec : NalCodec) (nal : Bytes) : Prop where
  long : codec.format.headerLen ≤ nal.length
  legal : codec.legalHeader (byteAt nal 0) = true

def played (codec : NalCodec) (timestamp : UInt32) (marker : Bool) (nal : Bytes) : DepackResult :=
  ⟨[nal], codec.format.isKeyframe (codec.format.nalType (byteAt nal 0)), timestamp, marker⟩

def playedUnit (codec : NalCodec) (timestamp : UInt32) : List Bytes → List DepackResult
  | [] => []
  | nal :: rest => played codec timestamp rest.isEmpty nal :: playedUnit codec timestamp rest

def fragmentNalus (fragment : PlayFragment) : List Bytes :=
  match extractMdatBody fragment.payload with
  | none => []
  | some body => splitAvccNalus body

def playedVideo (codec : NalCodec) (sets : List Bytes) (fragments : List PlayFragment) : List DepackResult :=
  sets.map (played codec 0 false) ++
    fragments.flatMap fun fragment => playedUnit codec (UInt32.ofNat fragment.pts) (fragmentNalus fragment)

-- What the packets of some actions make a depacketizer give, whatever it held before.
def Gives (codec : NalCodec) (actions : List DrainAction) (results : List DepackResult) : Prop :=
  ∀ depacketizer : Depacketizer codec.format,
    (depacketizer.receive ((sendsOf actions).map RtpSend.rtp)).1 = results

theorem gives_append {front back : List DrainAction} {first second : List DepackResult}
    (here : Gives codec front first) (later : Gives codec back second)
    (joined : sendsOf (front ++ back) = sendsOf front ++ sendsOf back) : Gives codec (front ++ back) (first ++ second) := by
  intro depacketizer
  rw [joined, List.map_append, Depacketizer.receive_append]
  dsimp only
  rw [here, later]

theorem packetize_gives (packetizer : Packetizer codec.format) (nal : Bytes) (timestamp : UInt32) (endOfAu : Bool)
    (legal : LegalNal codec nal) :
    Gives codec (sends timestamp (packetizer.packetize nal timestamp endOfAu).1) [played codec timestamp endOfAu nal] := by
  intro depacketizer
  have received := depacketizer.receive_nal packetizer ⟨nal, timestamp, legal.long, legal.legal⟩ endOfAu
  have packets : (sent timestamp (packetizer.packetize nal timestamp endOfAu).1).map RtpSend.rtp =
      (packetizer.packetize nal timestamp endOfAu).1 := by
    simp [sent, Function.comp_def]
  rw [packets_sent, packets]
  exact received

theorem drain_sets_give (packetizer : Packetizer codec.format) (sets : List Bytes)
    (legal : ∀ set ∈ sets, LegalNal codec set) :
    Gives codec (drainParameterSets packetizer sets).1 (sets.map (played codec 0 false)) := by
  induction sets generalizing packetizer with
  | nil => exact fun depacketizer => rfl
  | cons set rest ih =>
      have here := packetize_gives packetizer set 0 false (legal set List.mem_cons_self)
      have later := ih (packetizer.packetize set 0 false).2 fun other member => legal other (List.mem_cons_of_mem _ member)
      exact gives_append here later (sends_append (packetize_sends packetizer set 0 false) (drain_sets_send _ rest)).2

theorem drain_nalus_give (packetizer : Packetizer codec.format) (rtpTs : UInt32) (nalus : List Bytes)
    (legal : ∀ nal ∈ nalus, LegalNal codec nal) :
    Gives codec (drainNalus packetizer rtpTs nalus).1 (playedUnit codec rtpTs nalus) := by
  induction nalus generalizing packetizer with
  | nil => exact fun depacketizer => rfl
  | cons nal rest ih =>
      have here := packetize_gives packetizer nal rtpTs rest.isEmpty (legal nal List.mem_cons_self)
      have later := ih (packetizer.packetize nal rtpTs rest.isEmpty).2 fun other member =>
        legal other (List.mem_cons_of_mem _ member)
      exact gives_append here later
        (sends_append (packetize_sends packetizer nal rtpTs rest.isEmpty) (drain_nalus_send _ rtpTs rest)).2

theorem drain_fragments_give (packetizer : Packetizer codec.format) (fragments : List PlayFragment)
    (legal : ∀ fragment ∈ fragments, ∀ nal ∈ fragmentNalus fragment, LegalNal codec nal) :
    Gives codec (drainFragments packetizer fragments)
      (fragments.flatMap fun fragment => playedUnit codec (UInt32.ofNat fragment.pts) (fragmentNalus fragment)) := by
  induction fragments generalizing packetizer with
  | nil => exact fun depacketizer => rfl
  | cons fragment rest ih =>
      have legalHere := legal fragment List.mem_cons_self
      have legalLater : ∀ other ∈ rest, ∀ nal ∈ fragmentNalus other, LegalNal codec nal := fun other member =>
        legal other (List.mem_cons_of_mem _ member)
      rw [drainFragments, List.flatMap_cons]
      cases extracted : extractMdatBody fragment.payload with
      | none =>
          have nothing : fragmentNalus fragment = [] := by rw [fragmentNalus, extracted]
          rw [nothing]
          exact ih packetizer legalLater
      | some body =>
          have split : fragmentNalus fragment = splitAvccNalus body := by rw [fragmentNalus, extracted]
          rw [split] at legalHere ⊢
          have later := ih (drainNalus packetizer (UInt32.ofNat fragment.pts) (splitAvccNalus body)).2 legalLater
          obtain ⟨next, sendsLater⟩ := drain_fragments_send
            (drainNalus packetizer (UInt32.ofNat fragment.pts) (splitAvccNalus body)).2 rest
          exact gives_append (drain_nalus_give packetizer _ _ legalHere) later
            (sends_append (drain_nalus_send packetizer _ _) sendsLater).2

theorem drain_video_gives (packetizer : Packetizer codec.format) (sets : List Bytes) (fragments : List PlayFragment)
    (legalSets : ∀ set ∈ sets, LegalNal codec set)
    (legal : ∀ fragment ∈ fragments, ∀ nal ∈ fragmentNalus fragment, LegalNal codec nal) :
    Gives codec (drainVideo packetizer sets fragments) (playedVideo codec sets fragments) := by
  obtain ⟨next, later⟩ := drain_fragments_send (drainParameterSets packetizer sets).2 fragments
  exact gives_append (drain_sets_give packetizer sets legalSets) (drain_fragments_give _ fragments legal)
    (sends_append (drain_sets_send packetizer sets) later).2

end Codec

-- What the channel holds is frames, and those on the media channel are the packets.
theorem queued_frames (ctx : PlayDrainCtx) (apart : ctx.rtpChannel ≠ ctx.rtcpChannel) (queued : List Outgoing)
    (packets : List RtpSend) (isRtp : rtpFrames queued = packets.map (RtpSend.frame ctx.rtpChannel))
    (small : ∀ packet ∈ packets, packet.rtp.length ≤ 65535)
    (reports : ∀ frame, .rtcp frame ∈ queued → ∃ body, wrapInterleaved ctx.rtcpChannel body = .ok frame) :
    ∃ frames : List WireFrame, queued.flatMap Outgoing.frame = frames.flatMap WireFrame.wire ∧
      channelPayloads ctx.rtpChannel (frames.map WireFrame.frame) = packets.map RtpSend.rtp := by
  induction queued generalizing packets with
  | nil =>
      have nothing : packets = [] := by simpa [rtpFrames] using isRtp.symm
      exact ⟨[], rfl, by rw [nothing]; rfl⟩
  | cons first rest ih =>
      have later : ∀ frame, .rtcp frame ∈ rest → ∃ body, wrapInterleaved ctx.rtcpChannel body = .ok frame :=
        fun frame member => reports frame (List.mem_cons_of_mem _ member)
      cases first with
      | rtp frame =>
          obtain ⟨packet, others, rfl, isFrame, isRest⟩ := List.map_eq_cons_iff.mp isRtp.symm
          have fits : packet.rtp.length < 2 ^ 16 := Nat.lt_succ_of_le (small packet List.mem_cons_self)
          obtain ⟨frames, wired, isPackets⟩ := ih others isRest.symm
            (fun other member => small other (List.mem_cons_of_mem _ member)) later
          refine ⟨⟨⟨ctx.rtpChannel, packet.rtp⟩, fits⟩ :: frames, ?_, ?_⟩
          · rw [List.flatMap_cons, List.flatMap_cons, wired, Outgoing.frame, ← isFrame]
            rfl
          · rw [List.map_cons, List.map_cons, ← isPackets]
            simp [channelPayloads]
      | rtcp frame =>
          obtain ⟨body, wrapped⟩ := reports frame List.mem_cons_self
          obtain ⟨frames, wired, isPackets⟩ := ih packets isRtp small later
          have fits : body.length < 2 ^ 16 := by
            by_contra large
            rw [wrapInterleaved, if_neg large] at wrapped
            cases wrapped
          rw [wrapInterleaved, if_pos fits] at wrapped
          refine ⟨⟨⟨ctx.rtcpChannel, body⟩, fits⟩ :: frames, ?_, ?_⟩
          · rw [List.flatMap_cons, List.flatMap_cons, wired, Outgoing.frame, ← Except.ok.inj wrapped]
            rfl
          · rw [← isPackets, List.map_cons]
            simp [channelPayloads, apart.symm]

-- A player that reads the media channel gets the packets sent so far, in order.
theorem packets_read (ctx : PlayDrainCtx) (apart : ctx.rtpChannel ≠ ctx.rtcpChannel) (ssrc : UInt32)
    (actions : List DrainAction) (ops : List EgressOp) (chunks : List Bytes)
    (arrives : chunks.flatten = (Machine.run (Egress.step ctx ssrc) (.new actions) ops).queued.flatMap Outgoing.frame) :
    channelPayloads ctx.rtpChannel (readFrames chunks) <+: (sendsOf actions).map RtpSend.rtp ∧
      ((Machine.run (Egress.step ctx ssrc) (.new actions) ops).actions = [] →
        channelPayloads ctx.rtpChannel (readFrames chunks) = (sendsOf actions).map RtpSend.rtp) := by
  have reporting := Egress.run_reporting ctx ssrc actions ops
  generalize Machine.run (Egress.step ctx ssrc) (.new actions) ops = egress at arrives reporting ⊢
  obtain ⟨done, sent, _⟩ := reporting.sent
  have small : ∀ packet ∈ done ++ egress.inFlight, packet.rtp.length ≤ 65535 := by
    intro packet member
    cases List.mem_append.mp member with
    | inl early => exact sent.small packet early
    | inr current =>
        by_cases idle : egress.phase = .sending
        · rw [Egress.inFlight, idle] at current
          cases current
        · obtain ⟨other, rest, next, isCurrent⟩ := Egress.in_flight_one sent idle
          obtain ⟨same, others, alsoNext, fits⟩ := sent.at_packet.resolve_left idle
          rw [next] at alsoNext
          cases alsoNext
          rw [isCurrent] at current
          exact (List.mem_singleton.mp current) ▸ fits
  have wrapped : ∀ frame, .rtcp frame ∈ egress.queued → ∃ body, wrapInterleaved ctx.rtcpChannel body = .ok frame := by
    intro frame member
    obtain ⟨before, after, split⟩ := List.append_of_mem member
    obtain ⟨ntp, snapshot, index, counted, weighed, _, isFrame⟩ := reporting.reports before frame after split
    exact ⟨_, isFrame⟩
  obtain ⟨frames, wired, isPackets⟩ := queued_frames ctx apart egress.queued _ sent.queued small wrapped
  have read : channelPayloads ctx.rtpChannel (readFrames chunks) = (done ++ egress.inFlight).map RtpSend.rtp := by
    rw [read_frames frames chunks (arrives.trans wired), isPackets]
  rw [read]
  refine ⟨(Egress.in_flight_begins sent).map _, fun finished => ?_⟩
  have nothing : egress.inFlight = [] := by
    unfold Egress.inFlight
    cases egress.phase <;> simp [finished, sendsOf]
  have all := sent.split
  rw [finished, List.append_nil] at all
  rw [nothing, List.append_nil, all, sends_of_all]

namespace Egress

theorem drain_step_panicked (ctx : PlayDrainCtx) (egress : Egress) (panics : (egress.drainStep ctx).panicked = true) :
    egress.panicked = true ∨ ∃ action rest, egress.actions = action :: rest ∧ action.Faulty := by
  obtain ⟨remaining, phase, stats, sr, queued, panicked⟩ := egress
  cases panicked with
  | true => exact .inl rfl
  | false =>
      match remaining with
      | [] => cases panics
      | .fails :: rest => exact .inr ⟨_, rest, rfl, trivial⟩
      | .send packet :: rest =>
          cases phase with
          | sending =>
              by_cases fits : packet.rtp.length ≤ 65535
              · simp [drainStep, sendRtp, sendInterleaved, fits] at panics
              · exact .inr ⟨_, rest, rfl, Nat.not_le.mp fits⟩
          | countingPacket => cases panics
          | countingOctets => cases panics
          | storingTimestamp => cases panics

theorem report_step_panicked (ctx : PlayDrainCtx) (ssrc : UInt32) (ntp : UInt64) (egress : Egress) :
    (egress.reportStep ctx ssrc ntp).panicked = egress.panicked := by
  unfold reportStep
  cases egress.sr with
  | waiting =>
      dsimp only
      split <;> rfl
  | loadedState state => rfl
  | loadedPackets state packetCount => rfl
  | loaded snapshot =>
      dsimp only
      split <;> rfl

theorem panicked_faulty (ctx : PlayDrainCtx) (ssrc : UInt32) (actions : List DrainAction) (ops : List EgressOp)
    (panics : (Machine.run (step ctx ssrc) (new actions) ops).panicked = true) : ∃ action ∈ actions, action.Faulty := by
  induction ops using List.reverseRecOn with
  | nil => cases panics
  | append_singleton ops op ih =>
      rw [Machine.run_snoc] at panics
      cases op with
      | drain =>
          cases drain_step_panicked ctx _ panics with
          | inl already => exact ih already
          | inr next =>
              obtain ⟨action, rest, head, faulty⟩ := next
              have inside := (run_remaining ctx ssrc actions ops).subset
              exact ⟨action, inside (head ▸ List.mem_cons_self), faulty⟩
      | report ntp => exact ih ((report_step_panicked ctx ssrc ntp _).symm.trans panics)

-- Four steps send a packet and count it.
theorem drains_packet (ctx : PlayDrainCtx) (ssrc : UInt32) (egress : Egress) (packet : RtpSend) (rest : List DrainAction)
    (next : egress.actions = .send packet :: rest) (idle : egress.phase = .sending) (calm : egress.panicked = false)
    (fits : packet.rtp.length ≤ 65535) :
    let after := Machine.run (step ctx ssrc) egress (List.replicate 4 .drain)
    after.actions = rest ∧ after.phase = .sending ∧ after.panicked = false := by
  obtain ⟨remaining, phase, stats, sr, queued, panicked⟩ := egress
  obtain rfl : remaining = .send packet :: rest := next
  obtain rfl : phase = .sending := idle
  obtain rfl : panicked = false := calm
  simp [step, drainStep, sendRtp, sendInterleaved, fits, List.replicate]

-- A drain left to itself sends everything.
theorem drains_all (ctx : PlayDrainCtx) (ssrc : UInt32) (egress : Egress) (packets : List RtpSend)
    (remaining : egress.actions = packets.map .send) (idle : egress.phase = .sending) (calm : egress.panicked = false)
    (small : ∀ packet ∈ packets, packet.rtp.length ≤ 65535) :
    ∃ ops, (Machine.run (step ctx ssrc) egress ops).actions = [] := by
  induction packets generalizing egress with
  | nil => exact ⟨[], remaining⟩
  | cons packet rest ih =>
      obtain ⟨isRest, idleAfter, calmAfter⟩ := drains_packet ctx ssrc egress packet (rest.map .send) remaining idle calm
        (small packet List.mem_cons_self)
      obtain ⟨ops, finished⟩ := ih _ isRest idleAfter calmAfter fun other member => small other (List.mem_cons_of_mem _ member)
      refine ⟨List.replicate 4 .drain ++ ops, ?_⟩
      rw [Machine.run_append]
      exact finished

-- A drain left to itself comes to whatever stops it.
theorem faulty_panics (ctx : PlayDrainCtx) (ssrc : UInt32) (egress : Egress)
    (faulty : ∃ action ∈ egress.actions, action.Faulty) (idle : egress.phase = .sending) (calm : egress.panicked = false) :
    ∃ ops, (Machine.run (step ctx ssrc) egress ops).panicked = true := by
  generalize isRemaining : egress.actions = remaining at faulty
  induction remaining generalizing egress with
  | nil =>
      obtain ⟨action, member, _⟩ := faulty
      cases member
  | cons first rest ih =>
      cases first with
      | fails =>
          refine ⟨[.drain], ?_⟩
          simp [step, drainStep, calm, isRemaining]
      | send packet =>
          by_cases fits : packet.rtp.length ≤ 65535
          · obtain ⟨isRest, idleAfter, calmAfter⟩ := drains_packet ctx ssrc egress packet rest isRemaining idle calm fits
            have later : ∃ action ∈ rest, action.Faulty := by
              obtain ⟨action, member, isFaulty⟩ := faulty
              cases List.mem_cons.mp member with
              | inl here =>
                  rw [here] at isFaulty
                  exact absurd isFaulty (Nat.not_lt.mpr fits)
              | inr further => exact ⟨action, further, isFaulty⟩
            obtain ⟨ops, panics⟩ := ih _ idleAfter calmAfter isRest later
            refine ⟨List.replicate 4 .drain ++ ops, ?_⟩
            rw [Machine.run_append]
            exact panics
          · refine ⟨[.drain], ?_⟩
            simp [step, drainStep, sendRtp, sendInterleaved, calm, isRemaining, idle, fits]
            rfl

-- Some run of the drain panics exactly if one of its actions is faulty.
theorem panics_iff (ctx : PlayDrainCtx) (ssrc : UInt32) (actions : List DrainAction) :
    (∃ ops, (Machine.run (step ctx ssrc) (new actions) ops).panicked = true) ↔ ∃ action ∈ actions, action.Faulty := by
  constructor
  · intro ⟨ops, panics⟩
    exact panicked_faulty ctx ssrc actions ops panics
  · intro faulty
    exact faulty_panics ctx ssrc (new actions) faulty rfl rfl

end Egress

-- The two video drains; an init segment that is not HEVC ends the HEVC drain at once.
inductive VideoDrain where
  | h264 (params : Option AvcParameterSets)
  | hevc (params : Option HevcParameterSets)

namespace VideoDrain

def codec : VideoDrain → NalCodec
  | .h264 _ => .h264
  | .hevc _ => .hevc

def actions : VideoDrain → List PlayFragment → List DrainAction
  | .h264 params => playDrainH264 params
  | .hevc params => playDrainHevc params

-- `none` where the drain ends before it sends.
def parameterSets : VideoDrain → Option (List Bytes)
  | .h264 none => some []
  | .h264 (some params) => some (params.spsList ++ params.ppsList)
  | .hevc none => none
  | .hevc (some params) => some (params.vpsList ++ params.spsList ++ params.ppsList)

def played (drain : VideoDrain) (fragments : List PlayFragment) : List DepackResult :=
  match drain.parameterSets with
  | none => []
  | some sets => playedVideo drain.codec sets fragments

structure Legal (drain : VideoDrain) (fragments : List PlayFragment) : Prop where
  sets : ∀ sets, drain.parameterSets = some sets → ∀ set ∈ sets, LegalNal drain.codec set
  nalus : ∀ fragment ∈ fragments, ∀ nal ∈ fragmentNalus fragment, LegalNal drain.codec nal

-- A drain that sends anything packetizes with the session's first sequence number.
theorem actions_eq (drain : VideoDrain) (fragments : List PlayFragment) :
    (drain.parameterSets = none ∧ drain.actions fragments = []) ∨
      ∃ (sets : List Bytes) (packetizer : Packetizer drain.codec.format), drain.parameterSets = some sets ∧
        drain.actions fragments = drainVideo packetizer sets fragments ∧ packetizer.mtu = Rtp.DEFAULT_RTP_MTU ∧
        packetizer.payloadType = VIDEO_PAYLOAD_TYPE ∧ packetizer.sequence = INITIAL_RTP_SEQUENCE ∧
        packetizer.ssrc = DEFAULT_SSRC := by
  cases drain with
  | h264 params =>
      cases params with
      | none => exact .inr ⟨_, _, rfl, rfl, rfl, rfl, rfl, rfl⟩
      | some params => exact .inr ⟨_, _, rfl, rfl, rfl, rfl, rfl, rfl⟩
  | hevc params =>
      cases params with
      | none => exact .inl ⟨rfl, rfl⟩
      | some params => exact .inr ⟨_, _, rfl, rfl, rfl, rfl, rfl, rfl⟩

theorem gives_played (drain : VideoDrain) (fragments : List PlayFragment) (legal : drain.Legal fragments) :
    Gives drain.codec (drain.actions fragments) (drain.played fragments) := by
  rcases drain.actions_eq fragments with ⟨ended, silent⟩ | ⟨sets, packetizer, isSets, isDrain, _⟩
  · rw [silent, VideoDrain.played, ended]
    exact fun depacketizer => rfl
  · rw [isDrain, VideoDrain.played, isSets]
    exact drain_video_gives packetizer sets fragments (legal.sets sets isSets) legal.nalus

theorem actions_unfailing (drain : VideoDrain) (fragments : List PlayFragment) :
    drain.actions fragments = (sendsOf (drain.actions fragments)).map .send ∧
      (∀ packet ∈ sendsOf (drain.actions fragments), packet.rtp.length ≤ 65535) ∧
      ∀ index packet, (sendsOf (drain.actions fragments))[index]? = some packet → ∃ marker,
        parseRtpHeader packet.rtp = some
          ⟨VIDEO_PAYLOAD_TYPE, INITIAL_RTP_SEQUENCE + UInt16.ofNat index, packet.rtpTs, DEFAULT_SSRC, marker, 12⟩ := by
  rcases drain.actions_eq fragments with ⟨_, silent⟩ | ⟨sets, packetizer, _, isDrain, mtu, payloadType, sequence, ssrc⟩
  · rw [silent]
    exact ⟨rfl, nofun, nofun⟩
  · obtain ⟨next, sends⟩ := drain_video_sends packetizer sets fragments
    rw [isDrain]
    refine ⟨sends.unfailing, fun packet member => ?_, fun index packet found => ?_⟩
    · have size := sends.emits.sizes packet member
      rw [mtu, Rtp.DEFAULT_RTP_MTU] at size
      omega
    · have header := sends.emits.headers index packet found
      rwa [payloadType, sequence, ssrc] at header

theorem video_never_panics (drain : VideoDrain) (fragments : List PlayFragment) (ctx : PlayDrainCtx) (ops : List EgressOp) :
    (Machine.run (Egress.step ctx DEFAULT_SSRC) (.new (drain.actions fragments)) ops).panicked = false := by
  obtain ⟨unfailing, small, _⟩ := drain.actions_unfailing fragments
  by_contra panics
  obtain ⟨action, member, faulty⟩ := Egress.panicked_faulty ctx DEFAULT_SSRC _ ops (Bool.not_eq_false _ ▸ panics)
  rw [unfailing] at member
  obtain ⟨packet, isSent, rfl⟩ := List.mem_map.mp member
  exact absurd faulty (Nat.not_lt.mpr (small packet isSent))

end VideoDrain

theorem receive_results_begin {codec : NalCodec} {packets all : List Bytes} (begins : packets <+: all) :
    ((Depacketizer.new : Depacketizer codec.format).receive packets).1 <+:
      ((Depacketizer.new : Depacketizer codec.format).receive all).1 := by
  obtain ⟨rest, rfl⟩ := begins
  rw [Depacketizer.receive_append]
  exact List.prefix_append _ _

-- What a player has of a video drain after any run of the drain and its timer.
structure VideoReceived (drain : VideoDrain) (fragments : List PlayFragment) (finished : Prop) (packets : List Bytes) :
    Prop where
  numbered : ∀ index packet, packets[index]? = some packet → ∃ timestamp marker, parseRtpHeader packet = some
    ⟨VIDEO_PAYLOAD_TYPE, INITIAL_RTP_SEQUENCE + UInt16.ofNat index, timestamp, DEFAULT_SSRC, marker, 12⟩
  begins : ((Depacketizer.new : Depacketizer drain.codec.format).receive packets).1 <+: drain.played fragments
  whole : finished → ((Depacketizer.new : Depacketizer drain.codec.format).receive packets).1 = drain.played fragments

theorem video_received (drain : VideoDrain) (fragments : List PlayFragment) (legal : drain.Legal fragments)
    (ctx : PlayDrainCtx) (apart : ctx.rtpChannel ≠ ctx.rtcpChannel) (ops : List EgressOp) (chunks : List Bytes)
    (arrives : chunks.flatten = (Machine.run (Egress.step ctx DEFAULT_SSRC) (.new (drain.actions fragments))
      ops).queued.flatMap Outgoing.frame) :
    VideoReceived drain fragments
      ((Machine.run (Egress.step ctx DEFAULT_SSRC) (.new (drain.actions fragments)) ops).actions = [])
      (channelPayloads ctx.rtpChannel (readFrames chunks)) := by
  obtain ⟨begins, whole⟩ := packets_read ctx apart DEFAULT_SSRC (drain.actions fragments) ops chunks arrives
  have given := drain.gives_played fragments legal Depacketizer.new
  constructor
  · intro index packet found
    obtain ⟨rest, split⟩ := begins
    have among : ((sendsOf (drain.actions fragments)).map RtpSend.rtp)[index]? = some packet := by
      rw [← split]
      exact List.getElem?_append_left (List.getElem?_eq_some_iff.mp found).1 ▸ found
    rw [List.getElem?_map] at among
    obtain ⟨sent, isSent, rfl⟩ := Option.map_eq_some_iff.mp among
    obtain ⟨marker, header⟩ := (drain.actions_unfailing fragments).2.2 index sent isSent
    exact ⟨sent.rtpTs, marker, header⟩
  · have prefixes := @receive_results_begin drain.codec _ _ begins
    rwa [given] at prefixes
  · intro finished
    rw [whole finished, given]

-- The drain never stops, its packets are numbered through, and whatever a player has
-- read of them by any moment depacketizes to the start of the stream.
theorem video_play_received (drain : VideoDrain) (fragments : List PlayFragment) (legal : drain.Legal fragments)
    (ctx : PlayDrainCtx) (apart : ctx.rtpChannel ≠ ctx.rtcpChannel) (ops : List EgressOp) (chunks : List Bytes)
    (arrives : chunks.flatten = (Machine.run (Egress.step ctx DEFAULT_SSRC) (.new (drain.actions fragments))
      ops).queued.flatMap Outgoing.frame) :
    (Machine.run (Egress.step ctx DEFAULT_SSRC) (.new (drain.actions fragments)) ops).panicked = false ∧
      VideoReceived drain fragments
        ((Machine.run (Egress.step ctx DEFAULT_SSRC) (.new (drain.actions fragments)) ops).actions = [])
        (channelPayloads ctx.rtpChannel (readFrames chunks)) :=
  ⟨drain.video_never_panics fragments ctx ops, video_received drain fragments legal ctx apart ops chunks arrives⟩

def setsOnly : VideoDrain := .h264 (some ⟨[[0x67, 0x42]], [[0x68, 0xEB]]⟩)

theorem sets_only_legal : setsOnly.Legal [] where
  sets := by
    intro sets isSets set member
    obtain rfl := Option.some.inj isSets
    simp only [List.cons_append, List.nil_append, List.mem_cons, List.not_mem_nil, or_false] at member
    rcases member with rfl | rfl
    · exact ⟨by decide, by decide⟩
    · exact ⟨by decide, by decide⟩
  nalus := nofun

-- The second parameter set is on its way: a player has the first.
theorem first_set_received :
    let packets := channelPayloads 0 (readFrames [((⟨Rtp.writeRtpHeader 96 1000 0 DEFAULT_SSRC false ++ [0x67, 0x42], 0⟩ :
      RtpSend).frame 0)])
    ((Depacketizer.new : Depacketizer NalCodec.h264.format).receive packets).1 <+: setsOnly.played [] :=
  (video_play_received setsOnly [] sets_only_legal ⟨0, 1⟩ (by decide) (List.replicate 4 .drain)
    [(⟨Rtp.writeRtpHeader 96 1000 0 DEFAULT_SSRC false ++ [0x67, 0x42], 0⟩ : RtpSend).frame 0] (by decide)).2.begins

-- An access unit as the video ingest of a session publishes it.
structure PublishedUnit where
  sequence : Nat
  baseDts : Nat
  pts : Nat
  sample : Cmaf.RawSample
  nalus : List Bytes
  format : Ingest.VideoFormat
  prefixed : sample.payload = Ingest.nalsToLengthPrefixed nalus format
  encodable : 8 + sample.payload.length < 2 ^ 32

def PublishedUnit.payload (unit : PublishedUnit) : Option Bytes :=
  Cmaf.buildMoofMdat unit.sequence 1 unit.baseDts [unit.sample]

def PublishedUnit.kept (unit : PublishedUnit) : List Bytes := Rtsp.kept unit.nalus unit.format

theorem length_le_prefixed (nalus : List Bytes) : ∀ nal ∈ nalus, nal.length ≤ (Codec.lengthPrefixed nalus).length := by
  induction nalus with
  | nil => exact nofun
  | cons first rest ih =>
      have written : (Codec.lengthPrefixed (first :: rest)).length =
          4 + first.length + (Codec.lengthPrefixed rest).length := by
        simp [Codec.lengthPrefixed]
        omega
      intro nal member
      rw [written]
      cases List.mem_cons.mp member with
      | inl here =>
          rw [here]
          omega
      | inr later =>
          have known := ih nal later
          omega

theorem published_nalus (unit : PublishedUnit) :
    ∃ payload, unit.payload = some payload ∧ fragmentNalus ⟨unit.pts, payload⟩ = unit.kept := by
  have size : totalSize [unit.sample] = unit.sample.payload.length := by simp [totalSize]
  have encodable : Encodable [unit.sample] := by
    refine ⟨.inl ?_, by simp⟩
    rw [size]
    exact unit.encodable
  obtain ⟨payload, built, trips⟩ := (media_payload_iff unit.sequence 1 unit.baseDts [unit.sample]).mpr encodable
  refine ⟨payload, built, ?_⟩
  have bounded : ∀ nal ∈ Rtsp.kept unit.nalus unit.format, nal.length < 2 ^ 32 := by
    intro nal member
    have short := length_le_prefixed _ nal member
    have all := unit.encodable
    rw [unit.prefixed, Ingest.nalsToLengthPrefixed] at all
    exact Nat.lt_of_le_of_lt short (by unfold Rtsp.kept; omega)
  rw [fragmentNalus, trips.body, List.flatMap_singleton, unit.prefixed]
  exact (nalus_iff unit.nalus unit.format).mpr bounded

def PublishedUnit.fragment (unit : PublishedUnit) : Option PlayFragment := unit.payload.map fun payload => ⟨unit.pts, payload⟩

theorem published_fragments (units : List PublishedUnit) :
    (units.filterMap PublishedUnit.fragment).map (fun fragment => (fragment.pts, fragmentNalus fragment)) =
      units.map fun unit => (unit.pts, unit.kept) := by
  induction units with
  | nil => rfl
  | cons unit rest ih =>
      obtain ⟨payload, built, split⟩ := published_nalus unit
      have fragment : unit.fragment = some ⟨unit.pts, payload⟩ := by rw [PublishedUnit.fragment, built, Option.map_some]
      rw [List.filterMap_cons_some fragment, List.map_cons, List.map_cons, ih, split]

-- What ingest publishes of some access units reaches a player as those units.
theorem published_units_played (drain : VideoDrain) (sets : List Bytes) (isSets : drain.parameterSets = some sets)
    (legalSets : ∀ set ∈ sets, LegalNal drain.codec set) (units : List PublishedUnit)
    (legal : ∀ unit ∈ units, ∀ nal ∈ unit.kept, LegalNal drain.codec nal)
    (ctx : PlayDrainCtx) (apart : ctx.rtpChannel ≠ ctx.rtcpChannel) (ops : List EgressOp) (chunks : List Bytes)
    (arrives : chunks.flatten = (Machine.run (Egress.step ctx DEFAULT_SSRC)
      (.new (drain.actions (units.filterMap PublishedUnit.fragment))) ops).queued.flatMap Outgoing.frame)
    (finished : (Machine.run (Egress.step ctx DEFAULT_SSRC)
      (.new (drain.actions (units.filterMap PublishedUnit.fragment))) ops).actions = []) :
    ((Depacketizer.new : Depacketizer drain.codec.format).receive (channelPayloads ctx.rtpChannel (readFrames chunks))).1 =
      sets.map (played drain.codec 0 false) ++
        units.flatMap fun unit => playedUnit drain.codec (UInt32.ofNat unit.pts) unit.kept := by
  have carried := published_fragments units
  have legalFragments : drain.Legal (units.filterMap PublishedUnit.fragment) := by
    refine ⟨fun others known => ?_, fun fragment member nal inside => ?_⟩
    · rw [isSets, Option.some_inj] at known
      exact known ▸ legalSets
    · have among := List.mem_map_of_mem (f := fun fragment => (fragment.pts, fragmentNalus fragment)) member
      rw [carried] at among
      obtain ⟨unit, isUnit, same⟩ := List.mem_map.mp among
      exact legal unit isUnit nal ((Prod.mk.inj same).2 ▸ inside)
  have received := (video_received drain _ legalFragments ctx apart ops chunks arrives).whole finished
  have expected : (units.filterMap PublishedUnit.fragment).flatMap (fun fragment =>
      playedUnit drain.codec (UInt32.ofNat fragment.pts) (fragmentNalus fragment)) =
      units.flatMap fun unit => playedUnit drain.codec (UInt32.ofNat unit.pts) unit.kept := by
    have pairs := congrArg (List.flatMap fun pair => playedUnit drain.codec (UInt32.ofNat pair.1) pair.2) carried
    rwa [List.flatMap_map, List.flatMap_map] at pairs
  rw [received, VideoDrain.played, isSets]
  dsimp only
  rw [playedVideo, expected]

theorem video_drain_finishes (drain : VideoDrain) (fragments : List PlayFragment) (ctx : PlayDrainCtx) :
    ∃ ops, (Machine.run (Egress.step ctx DEFAULT_SSRC) (.new (drain.actions fragments)) ops).actions = [] := by
  obtain ⟨unfailing, small, _⟩ := drain.actions_unfailing fragments
  exact Egress.drains_all ctx DEFAULT_SSRC (.new (drain.actions fragments)) _ unfailing rfl rfl small

def keyUnit : PublishedUnit where
  sequence := 1
  baseDts := 3000
  pts := 6000
  sample := ⟨1, 3000, 3000, 3000, [0, 0, 0, 2, 0x65, 0x88], true⟩
  nalus := [[0x67, 0x42], [0x65, 0x88]]
  format := .avc
  prefixed := by decide
  encodable := by decide

-- The parameter set in the access unit is left to the init segment.
theorem key_unit_played :
    ∃ chunks, ((Depacketizer.new : Depacketizer NalCodec.h264.format).receive
      (channelPayloads 0 (readFrames chunks))).1 =
        [⟨[[0x67, 0x42]], false, 0, false⟩, ⟨[[0x68, 0xEB]], false, 0, false⟩, ⟨[[0x65, 0x88]], true, 6000, true⟩] := by
  obtain ⟨ops, finished⟩ := video_drain_finishes setsOnly ([keyUnit].filterMap PublishedUnit.fragment) ⟨0, 1⟩
  refine ⟨[_], published_units_played setsOnly [[0x67, 0x42], [0x68, 0xEB]] rfl
    (sets_only_legal.sets _ rfl) [keyUnit] ?_ ⟨0, 1⟩ (by decide) ops _ (by simp; rfl) finished⟩
  intro unit isUnit nal member
  obtain rfl := List.mem_singleton.mp isUnit
  obtain rfl : nal = [0x65, 0x88] := by simpa using (show nal ∈ [[0x65, 0x88]] from member)
  exact ⟨by decide, by decide⟩

structure OpusDepackResult where
  frame : Bytes
  timestamp : UInt32
  marker : Bool
deriving DecidableEq, Repr

def opusDepacketize (rtpPayload : Bytes) (header : RtpHeader) : Option OpusDepackResult :=
  if rtpPayload.isEmpty then none else some ⟨rtpPayload, header.timestamp, header.marker⟩

inductive AudioDrain where
  | aac
  | opus
deriving DecidableEq, Repr

-- The frames of a packet with their timestamp.
structure AudioFrames where
  frames : List Bytes
  timestamp : UInt32
deriving DecidableEq, Repr

namespace AudioDrain

def ssrc : AudioDrain → UInt32
  | .aac => AAC_SSRC
  | .opus => OPUS_SSRC

def actions : AudioDrain → List PlayFragment → List DrainAction
  | .aac => playDrainAac
  | .opus => playDrainOpus

def packetize : AudioDrain → AudioPacketizer → Bytes → UInt32 → Except Halt (Bytes × AudioPacketizer)
  | .aac => AacPacketizer.packetize
  | .opus => OpusPacketizer.packetize

def depacketize (drain : AudioDrain) (rtpPayload : Bytes) (header : RtpHeader) : Option AudioFrames :=
  match drain with
  | .aac => (Rtp.aacDepacketize rtpPayload header).map fun result => ⟨result.frames, result.timestamp⟩
  | .opus => (opusDepacketize rtpPayload header).map fun result => ⟨[result.frame], result.timestamp⟩

def receive (drain : AudioDrain) (packet : Bytes) : Option AudioFrames :=
  (parseRtpHeader packet).bind fun header => drain.depacketize (packet.drop header.headerLen) header

-- Thirteen bits of an AU header; what an interleaved frame holds behind an RTP header.
def longest : AudioDrain → Nat
  | .aac => 0x1FFF
  | .opus => 65535 - 12

def initial (drain : AudioDrain) : AudioPacketizer :=
  match drain with
  | .aac => ⟨AAC_SSRC, AAC_PAYLOAD_TYPE, INITIAL_RTP_SEQUENCE⟩
  | .opus => ⟨OPUS_SSRC, OPUS_PAYLOAD_TYPE, INITIAL_RTP_SEQUENCE⟩

theorem actions_eq (drain : AudioDrain) (fragments : List PlayFragment) :
    drain.actions fragments = drainAudio drain.packetize drain.initial fragments := by
  cases drain <;> rfl

end AudioDrain

-- The access units of an audio track: one fragment, one unit.
structure AudioUnit where
  bytes : Bytes
  timestamp : UInt32

def audioUnit? (fragment : PlayFragment) : Option AudioUnit :=
  match extractMdatBody fragment.payload with
  | none => none
  | some body => if body.isEmpty then none else some ⟨body, UInt32.ofNat fragment.pts⟩

namespace AudioDrain

-- One unit packetized: a packet of the unit, or the failed assertion where it is too
-- long for the format.
structure Packs (drain : AudioDrain) (unit : AudioUnit) (rtp : Bytes) : Prop where
  received : unit.bytes ≠ [] → drain.receive rtp = some ⟨[unit.bytes], unit.timestamp⟩
  size : 65535 < rtp.length ↔ drain.longest < unit.bytes.length

theorem receive_emitted (drain : AudioDrain) (packetizer : AudioPacketizer) (timestamp : UInt32) (body : Bytes)
    (short : packetizer.payloadType < 0x80) :
    drain.receive (packetizer.emit timestamp body).1 =
      drain.depacketize body ⟨packetizer.payloadType, packetizer.sequence, timestamp, packetizer.ssrc, true, 12⟩ := by
  have header : parseRtpHeader (packetizer.emit timestamp body).1 =
      some ⟨packetizer.payloadType, packetizer.sequence, timestamp, packetizer.ssrc, true, 12⟩ :=
    Rtp.parse_written_header _ _ _ _ _ body short
  have dropped : (packetizer.emit timestamp body).1.drop 12 = body := List.drop_left' (Rtp.write_rtp_header_length ..)
  rw [receive, header, Option.bind_some]
  dsimp only
  rw [dropped]

theorem emitted_length (packetizer : AudioPacketizer) (timestamp : UInt32) (body : Bytes) :
    (packetizer.emit timestamp body).1.length = 12 + body.length := by
  simp [AudioPacketizer.emit]

theorem packetize_unit (drain : AudioDrain) (packetizer : AudioPacketizer) (unit : AudioUnit)
    (short : packetizer.payloadType < 0x80) :
    (drain.packetize packetizer unit.bytes unit.timestamp = Checked.panicked ∧ drain.longest < unit.bytes.length) ∨
      ∃ rtp next, drain.packetize packetizer unit.bytes unit.timestamp = .ok (rtp, next) ∧
        next.payloadType = packetizer.payloadType ∧ drain.Packs unit rtp := by
  cases drain with
  | aac =>
      by_cases fits : unit.bytes.length ≤ 0x1FFF
      · let packet : Rtp.AacPacket := ⟨[unit.bytes], by simp, by simp, by simpa using Nat.lt_succ_of_le fits⟩
        have body : BigEndian.bytes 2 16 ++ (BigEndian.bytes 2 (unit.bytes.length * 8) ++ unit.bytes) = packet.payload := by
          simp [packet, Rtp.AacPacket.payload, Rtp.AacPacket.auHeader]
        have packed : AudioDrain.aac.packetize packetizer unit.bytes unit.timestamp =
            .ok (packetizer.emit unit.timestamp packet.payload) := by
          rw [← body]
          exact if_pos fits
        have packs : AudioDrain.aac.Packs unit (packetizer.emit unit.timestamp packet.payload).1 := by
          refine ⟨fun _ => ?_, ?_⟩
          · rw [receive_emitted _ _ _ _ short, depacketize, packet.depacketize_payload]
            rfl
          · rw [emitted_length, ← body]
            simp only [List.length_append, BigEndian.bytes_length, longest]
            omega
        exact .inr ⟨_, _, packed, rfl, packs⟩
      · exact .inl ⟨if_neg fits, Nat.not_le.mp fits⟩
  | opus =>
      have packed : AudioDrain.opus.packetize packetizer unit.bytes unit.timestamp =
          .ok (packetizer.emit unit.timestamp unit.bytes) := rfl
      have packs : AudioDrain.opus.Packs unit (packetizer.emit unit.timestamp unit.bytes).1 := by
        refine ⟨fun nonempty => ?_, ?_⟩
        · have present : unit.bytes.isEmpty = false := by simpa using nonempty
          rw [receive_emitted _ _ _ _ short, depacketize, opusDepacketize, present]
          rfl
        · rw [emitted_length, longest]
          omega
      exact .inr ⟨_, _, packed, rfl, packs⟩

theorem drain_audio_cons (drain : AudioDrain) (packetizer : AudioPacketizer) (fragment : PlayFragment)
    (rest : List PlayFragment) :
    drainAudio drain.packetize packetizer (fragment :: rest) =
      match audioUnit? fragment with
      | none => drainAudio drain.packetize packetizer rest
      | some unit =>
          match drain.packetize packetizer unit.bytes unit.timestamp with
          | .error _ => [.fails]
          | .ok (rtp, next) => .send ⟨rtp, unit.timestamp⟩ :: drainAudio drain.packetize next rest := by
  rw [drainAudio, audioUnit?]
  cases extractMdatBody fragment.payload with
  | none => rfl
  | some body =>
      dsimp only
      cases body.isEmpty <;> rfl

theorem audio_unit_nonempty {fragment : PlayFragment} {unit : AudioUnit} (found : audioUnit? fragment = some unit) :
    unit.bytes ≠ [] := by
  unfold audioUnit? at found
  split at found
  · cases found
  · rename_i body _
    split at found
    · cases found
    · rename_i present
      obtain rfl := Option.some.inj found
      simpa using present

-- The packets in front of any failure are those of the units in order; nothing fails
-- exactly if every unit is short enough.
theorem drain_audio_packs (drain : AudioDrain) (packetizer : AudioPacketizer) (fragments : List PlayFragment)
    (short : packetizer.payloadType < 0x80) :
    let actions := drainAudio drain.packetize packetizer fragments
    let units := fragments.filterMap audioUnit?
    ((∃ action ∈ actions, action.Faulty) ↔ ∃ unit ∈ units, drain.longest < unit.bytes.length) ∧
      ((sendsOf actions).map RtpSend.rtp).map drain.receive <+:
        units.map (fun unit => some ⟨[unit.bytes], unit.timestamp⟩) ∧
      (actions = (sendsOf actions).map .send → ((sendsOf actions).map RtpSend.rtp).map drain.receive =
        units.map fun unit => some ⟨[unit.bytes], unit.timestamp⟩) := by
  induction fragments generalizing packetizer with
  | nil => simp [drainAudio, sendsOf]
  | cons fragment rest ih =>
      dsimp only at ih ⊢
      rw [drain_audio_cons]
      cases found : audioUnit? fragment with
      | none =>
          rw [List.filterMap_cons_none found]
          exact ih packetizer short
      | some unit =>
          rw [List.filterMap_cons_some found]
          rcases drain.packetize_unit packetizer unit short with ⟨failed, long⟩ | ⟨rtp, next, packed, sameType, packs⟩
          · dsimp only
            rw [failed]
            simp [Checked.panicked, sendsOf, DrainAction.Faulty, long]
          · obtain ⟨faulty, begins, whole⟩ := ih next (sameType ▸ short)
            have received := packs.received (audio_unit_nonempty found)
            dsimp only
            rw [packed]
            simp only [sendsOf, List.map_cons, received, List.exists_mem_cons_iff, faulty, List.cons_prefix_cons, true_and,
              begins, List.cons.injEq]
            exact ⟨or_congr packs.size Iff.rfl, whole⟩

end AudioDrain

-- What a player has of an audio drain: the access units in order, each with its
-- timestamp.
structure AudioReceived (drain : AudioDrain) (units : List AudioUnit) (finished : Prop) (packets : List Bytes) : Prop where
  begins : packets.map drain.receive <+: units.map fun unit => some ⟨[unit.bytes], unit.timestamp⟩
  whole : finished → packets.map drain.receive = units.map fun unit => some ⟨[unit.bytes], unit.timestamp⟩

-- A run of the drain can panic exactly if there is a unit too long for the format;
-- what was sent by any moment is units from the front.
theorem audio_play_received (drain : AudioDrain) (fragments : List PlayFragment) (ctx : PlayDrainCtx)
    (apart : ctx.rtpChannel ≠ ctx.rtcpChannel) :
    ((∃ ops, (Machine.run (Egress.step ctx drain.ssrc) (.new (drain.actions fragments)) ops).panicked = true) ↔
      ∃ unit ∈ fragments.filterMap audioUnit?, drain.longest < unit.bytes.length) ∧
    ∀ ops chunks,
      chunks.flatten = (Machine.run (Egress.step ctx drain.ssrc) (.new (drain.actions fragments)) ops).queued.flatMap
        Outgoing.frame →
      AudioReceived drain (fragments.filterMap audioUnit?)
        ((Machine.run (Egress.step ctx drain.ssrc) (.new (drain.actions fragments)) ops).actions = [])
        (channelPayloads ctx.rtpChannel (readFrames chunks)) := by
  have short : drain.initial.payloadType < 0x80 := by cases drain <;> decide
  obtain ⟨faulty, begins, whole⟩ := drain.drain_audio_packs drain.initial fragments short
  rw [← drain.actions_eq] at faulty begins whole
  refine ⟨(Egress.panics_iff ctx drain.ssrc _).trans faulty, fun ops chunks arrives => ?_⟩
  obtain ⟨front, all⟩ := packets_read ctx apart drain.ssrc (drain.actions fragments) ops chunks arrives
  refine ⟨(front.map _).trans begins, fun finished => ?_⟩
  obtain ⟨done, sent, _⟩ := (Egress.run_reporting ctx drain.ssrc (drain.actions fragments) ops).sent
  have unfailing : drain.actions fragments = (sendsOf (drain.actions fragments)).map .send := by
    have split := sent.split
    rw [finished, List.append_nil] at split
    rw [split, sends_of_all]
  rw [all finished, whole unfailing]

def largeFragment : PlayFragment := ⟨1024, box "mdat" (List.replicate 8192 0x21)⟩

theorem large_access_unit_panics :
    ∃ ops, (Machine.run (Egress.step ⟨2, 3⟩ AudioDrain.aac.ssrc) (.new (AudioDrain.aac.actions [largeFragment]))
      ops).panicked = true := by
  have size : (List.replicate 8192 (0x21 : UInt8)).length = 8192 := List.length_replicate
  have body : extractMdatBody largeFragment.payload = some (List.replicate 8192 0x21) := by
    have here := box_body_here "mdat" (List.replicate 8192 0x21) [] rfl (by rw [size]; decide)
    rwa [List.append_nil] at here
  have unit : audioUnit? largeFragment = some ⟨List.replicate 8192 0x21, 1024⟩ := by
    rw [audioUnit?, body]
    rfl
  refine (audio_play_received .aac [largeFragment] ⟨2, 3⟩ (by decide)).1.mpr ⟨⟨List.replicate 8192 0x21, 1024⟩, ?_, ?_⟩
  · rw [List.filterMap_cons_some unit]
    exact List.mem_cons_self
  · rw [size]
    decide

end Lvqr.Rtsp
