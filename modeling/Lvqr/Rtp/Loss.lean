import Lvqr.Lib.Machine
import Lvqr.Rtp.RoundTrip

set_option autoImplicit false

-- Packets that are lost on the way. Each packet sent is paired with whether it
-- arrives; the depacketizer sees those that do and no sequence numbers.
namespace Lvqr.Rtp

def delivered (sent : List (Bytes × Bool)) : List Bytes := (sent.filter Prod.snd).map Prod.fst

def continuesFu (format : NalFormat) (packet : Bytes) : Bool :=
  match parseRtpHeader packet with
  | none => false
  | some header =>
      let rtpPayload := packet.drop header.headerLen
      format.headerLen + 1 ≤ rtpPayload.length && format.nalType (byteAt rtpPayload 0) == format.fragmentation &&
        !(byteAt rtpPayload format.headerLen &&& 0x80 != 0)

structure Reception (format : NalFormat) where
  depacketizer : Depacketizer format
  lastArrived : Bool

namespace Reception

variable {format : NalFormat}

def step (reception : Reception format) (sent : Bytes × Bool) : Reception format :=
  if sent.2 then ⟨(reception.depacketizer.receivePacket sent.1).2, true⟩
  else { reception with lastArrived := false }

-- No fragment arrives right behind a lost packet and goes on with what is pending.
def Unspliced (reception : Reception format) (sent : Bytes × Bool) : Prop :=
  sent.2 = true → reception.depacketizer.fuActive = true → continuesFu format sent.1 = true →
    reception.lastArrived = true

def results (reception : Reception format) (sent : List (Bytes × Bool)) : List DepackResult :=
  (reception.depacketizer.receive (delivered sent)).1

theorem results_lost (reception : Reception format) (packet : Bytes) (sent : List (Bytes × Bool)) :
    reception.results ((packet, false) :: sent) = (reception.step (packet, false)).results sent := rfl

theorem results_arrived (reception : Reception format) (packet : Bytes) (sent : List (Bytes × Bool)) :
    reception.results ((packet, true) :: sent) =
      (reception.depacketizer.receivePacket packet).1.toList ++ (reception.step (packet, true)).results sent := rfl

theorem results_append (reception : Reception format) (first second : List (Bytes × Bool)) :
    reception.results (first ++ second) =
      reception.results first ++ (Machine.run step reception first).results second := by
  induction first generalizing reception with
  | nil => rfl
  | cons sent first ih =>
      obtain ⟨packet, arrives⟩ := sent
      rw [List.cons_append, Machine.run_cons]
      cases arrives with
      | false => rw [results_lost, results_lost, ih]
      | true => rw [results_arrived, results_arrived, ih, List.append_assoc]

end Reception

namespace Depacketizer

variable {codec : NalCodec}

theorem continues_fragment (packetizer : Packetizer codec.format) (nal : Nal codec) (marker : Bool)
    (fragment : Fragment UInt8) :
    continuesFu codec.format
      (packetizer.emitPacket marker nal.timestamp (codec.format.fuPayload nal.bytes fragment)).1 = !fragment.first := by
  have size := nal.fu_payload_length fragment
  have body : (packetizer.emitPacket marker nal.timestamp (codec.format.fuPayload nal.bytes fragment)).1.drop 12 =
      codec.format.fuPayload nal.bytes fragment := List.drop_left' (write_rtp_header_length ..)
  have long : codec.format.headerLen + 1 ≤ (codec.format.fuPayload nal.bytes fragment).length := by omega
  rw [continuesFu, packetizer.parse_emitted]
  simp only [Packetizer.emittedHeader, body, nal.fu_payload_type, nal.fu_payload_flags, Nal.flags, codec.fu_header_start,
    long, decide_true, beq_self_eq_true, Bool.true_and]

end Depacketizer

namespace Reception

variable {codec : NalCodec}

theorem active_iff_pending (reception : Reception codec.format) (buf : Bytes)
    (pends : buf ∈ reception.depacketizer.pending) : reception.depacketizer.fuActive = true := by
  by_contra idle
  rw [Depacketizer.pending, if_neg idle] at pends
  cases pends

-- What is pending is the part of the unit before `rest`, unless the packet before
-- was lost.
def Holds (reception : Reception codec.format) (first : Bool) (start : Bytes) : Prop :=
  first = false → reception.lastArrived = true → ∀ buf ∈ reception.depacketizer.pending, buf = start

theorem fragment_arrives (reception : Reception codec.format) (packetizer : Packetizer codec.format) (nal : Nal codec)
    (endOfAu : Bool) (fragment : Fragment UInt8) (start : Bytes)
    (begun : fragment.first = true → start = nal.header) (holds : reception.Holds fragment.first start)
    (unspliced : reception.Unspliced
      ((packetizer.emitPacket (endOfAu && fragment.last) nal.timestamp (codec.format.fuPayload nal.bytes fragment)).1,
        true)) :
    let packet :=
      (packetizer.emitPacket (endOfAu && fragment.last) nal.timestamp (codec.format.fuPayload nal.bytes fragment)).1
    (∀ result ∈ (reception.depacketizer.receivePacket packet).1,
      fragment.last = true ∧ result.nalus = [start ++ fragment.part]) ∧
      (reception.step (packet, true)).Holds false (start ++ fragment.part) := by
  intro packet
  obtain ⟨result, pending⟩ := reception.depacketizer.receive_fragment packetizer nal endOfAu fragment
  have held : fragment.first = false → ∀ buf ∈ reception.depacketizer.pending, buf = start := by
    intro later buf pends
    refine holds later ?_ buf pends
    refine unspliced rfl (reception.active_iff_pending buf pends) ?_
    rw [Depacketizer.continues_fragment, later]
    rfl
  obtain ⟨wholes, left⟩ := Fragment.collect_placed nal.header start reception.depacketizer.pending fragment begun held
  refine ⟨?_, ?_⟩
  · intro found member
    rw [result] at member
    obtain ⟨whole, isWhole, rfl⟩ := Option.map_eq_some_iff.mp member
    obtain ⟨last, isPlaced⟩ := wholes whole isWhole
    exact ⟨last, congrArg (fun nalu => [nalu]) isPlaced⟩
  · intro _ _ buf pends
    refine left buf ?_
    rw [← pending]
    exact pends

theorem fragment_results (reception : Reception codec.format) (packetizer : Packetizer codec.format) (nal : Nal codec)
    (endOfAu arrives : Bool) (fragment : Fragment UInt8) (start : Bytes) (more : List (Bytes × Bool))
    (begun : fragment.first = true → start = nal.header) (holds : reception.Holds fragment.first start)
    (whole : fragment.last = true → start ++ fragment.part = nal.bytes) :
    let packet :=
      (packetizer.emitPacket (endOfAu && fragment.last) nal.timestamp (codec.format.fuPayload nal.bytes fragment)).1
    reception.Unspliced (packet, arrives) →
      ((reception.step (packet, arrives)).Holds false (start ++ fragment.part) →
        ∀ result ∈ (reception.step (packet, arrives)).results more, result.nalus = [nal.bytes]) →
      ∀ result ∈ reception.results ((packet, arrives) :: more), result.nalus = [nal.bytes] := by
  intro packet unspliced later result member
  cases arrives with
  | false =>
      refine later ?_ result member
      intro _ arrived
      cases arrived
  | true =>
      obtain ⟨completes, held⟩ := reception.fragment_arrives packetizer nal endOfAu fragment start begun holds unspliced
      rw [results_arrived] at member
      rcases List.mem_append.mp member with here | behind
      · obtain ⟨last, nalus⟩ := completes result (Option.mem_toList.mp here)
        rw [nalus, whole last]
      · exact later held result behind

-- The induction is on how the unit is cut; `start` is what the fragments before carried.
theorem fragments_results (nal : Nal codec) (endOfAu : Bool) (size : Nat) (positive : 0 < size) (first : Bool)
    (body : Bytes) (nonempty : body ≠ []) :
    ∀ (packetizer : Packetizer codec.format) (reception : Reception codec.format) (start : Bytes)
      (sent : List (Bytes × Bool)), start ++ body = nal.bytes → (first = true → start = nal.header) →
      reception.Holds first start →
      sent.map Prod.fst =
        (packetizer.emitFragments nal.bytes nal.timestamp endOfAu (Fragment.cut size positive first body)).1 →
      Machine.AllSteps Unspliced step reception sent → ∀ result ∈ reception.results sent, result.nalus = [nal.bytes] := by
  apply Fragment.cut_induction size positive _ _ first body nonempty
  · intro first body nonempty fits packetizer reception start sent whole begun holds packets allowed
    rw [Fragment.cut_last size positive first body nonempty fits] at packets
    obtain ⟨⟨packet, arrives⟩, rest, rfl, rfl, nothing⟩ := List.map_eq_cons_iff.mp packets
    obtain rfl : rest = [] := List.map_eq_nil_iff.mp nothing
    refine reception.fragment_results packetizer nal endOfAu arrives ⟨first, true, body⟩ start [] begun holds
      (fun _ => whole) allowed.1 ?_
    intro _ result member
    cases member
  · intro first body long ih packetizer reception start sent whole begun holds packets allowed
    rw [Fragment.cut_more size positive first body long] at packets
    obtain ⟨⟨packet, arrives⟩, rest, rfl, rfl, later⟩ := List.map_eq_cons_iff.mp packets
    refine reception.fragment_results packetizer nal endOfAu arrives ⟨first, false, body.take size⟩ start rest begun holds
      (fun last => nomatch last) allowed.1 ?_
    intro held
    refine ih _ _ (start ++ body.take size) rest ?_ (fun none => nomatch none) held later allowed.2
    rw [List.append_assoc, List.take_append_drop, whole]

theorem nal_results (reception : Reception codec.format) (packetizer : Packetizer codec.format) (nal : Nal codec)
    (endOfAu : Bool) (sent : List (Bytes × Bool))
    (packets : sent.map Prod.fst = (packetizer.packetize nal.bytes nal.timestamp endOfAu).1)
    (allowed : Machine.AllSteps Unspliced step reception sent) :
    ∀ result ∈ reception.results sent, result.nalus = [nal.bytes] := by
  have long := nal.long
  have notShort : ¬ nal.bytes.length < codec.format.headerLen := by omega
  by_cases fits : nal.bytes.length ≤ packetizer.mtu
  · have single := codec.legal_is_single (byteAt nal.bytes 0) nal.legal
    simp only [Packetizer.packetize, if_neg notShort, if_pos fits] at packets
    obtain ⟨⟨packet, arrives⟩, rest, rfl, rfl, nothing⟩ := List.map_eq_cons_iff.mp packets
    obtain rfl : rest = [] := List.map_eq_nil_iff.mp nothing
    intro result member
    cases arrives with
    | false => cases member
    | true =>
        rw [results_arrived, packetizer.receive_emitted, Depacketizer.depacketize, if_neg notShort] at member
        simp only [single, if_true, Option.toList_some] at member
        rcases List.mem_append.mp member with here | none
        · rw [List.mem_singleton.mp here]
        · cases none
  · simp only [Packetizer.packetize, if_neg notShort, if_neg fits] at packets
    refine fragments_results nal endOfAu packetizer.chunkSize packetizer.chunk_size_positive true nal.body
      (nal.body_ne_nil packetizer.mtu packetizer.mtu_covers fits) packetizer reception nal.header sent
      nal.header_append_body (fun _ => rfl) ?_ packets allowed
    intro none
    cases none

theorem unit_results (reception : Reception codec.format) (packetizer : Packetizer codec.format)
    (unit : List (Nal codec)) (sent : List (Bytes × Bool))
    (packets : sent.map Prod.fst = (packetizer.packetizeUnit unit).1)
    (allowed : Machine.AllSteps Unspliced step reception sent) :
    ∀ result ∈ reception.results sent, ∃ nal ∈ unit, result.nalus = [nal.bytes] := by
  induction unit generalizing reception packetizer sent with
  | nil =>
      obtain rfl : sent = [] := List.map_eq_nil_iff.mp packets
      intro result member
      cases member
  | cons nal rest ih =>
      simp only [Packetizer.packetizeUnit] at packets
      obtain ⟨first, second, rfl, here, there⟩ := List.map_eq_append_iff.mp packets
      obtain ⟨allowedHere, allowedThere⟩ := (Machine.all_steps_append _ _ _ _ _).mp allowed
      intro result member
      rw [results_append] at member
      rcases List.mem_append.mp member with inFirst | inSecond
      · exact ⟨nal, List.mem_cons_self, reception.nal_results packetizer nal _ first here allowedHere result inFirst⟩
      · obtain ⟨other, among, nalus⟩ := ih _ _ second there allowedThere result inSecond
        exact ⟨other, List.mem_cons_of_mem nal among, nalus⟩

theorem units_results (reception : Reception codec.format) (packetizer : Packetizer codec.format)
    (units : List (List (Nal codec))) (sent : List (Bytes × Bool))
    (packets : sent.map Prod.fst = (packetizer.packetizeUnits units).1.flatten)
    (allowed : Machine.AllSteps Unspliced step reception sent) :
    ∀ result ∈ reception.results sent, ∃ nal ∈ units.flatten, result.nalus = [nal.bytes] := by
  induction units generalizing reception packetizer sent with
  | nil =>
      obtain rfl : sent = [] := List.map_eq_nil_iff.mp packets
      intro result member
      cases member
  | cons unit rest ih =>
      simp only [Packetizer.packetizeUnits, List.flatten_cons] at packets
      obtain ⟨first, second, rfl, here, there⟩ := List.map_eq_append_iff.mp packets
      obtain ⟨allowedHere, allowedThere⟩ := (Machine.all_steps_append _ _ _ _ _).mp allowed
      intro result member
      rw [results_append] at member
      rw [List.flatten_cons]
      rcases List.mem_append.mp member with inFirst | inSecond
      · obtain ⟨nal, among, nalus⟩ := reception.unit_results packetizer unit first here allowedHere result inFirst
        exact ⟨nal, List.mem_append_left _ among, nalus⟩
      · obtain ⟨nal, among, nalus⟩ := ih _ _ second there allowedThere result inSecond
        exact ⟨nal, List.mem_append_right _ among, nalus⟩

end Reception

instance {format : NalFormat} (reception : Reception format) (sent : Bytes × Bool) :
    Decidable (reception.Unspliced sent) :=
  inferInstanceAs (Decidable (_ → _))

theorem delivered_units_whole (codec : NalCodec) (packetizer : Packetizer codec.format)
    (depacketizer : Depacketizer codec.format) (units : List (List (Nal codec))) (sent : List (Bytes × Bool))
    (packets : sent.map Prod.fst = (packetizer.packetizeUnits units).1.flatten)
    (unspliced : Machine.AllSteps Reception.Unspliced Reception.step ⟨depacketizer, false⟩ sent) :
    ∀ result ∈ (depacketizer.receive (delivered sent)).1, ∀ nalu ∈ result.nalus,
      ∃ nal ∈ units.flatten, nalu = nal.bytes := by
  intro result member nalu emitted
  obtain ⟨nal, among, nalus⟩ := Reception.units_results ⟨depacketizer, false⟩ packetizer units sent packets unspliced
    result member
  rw [nalus] at emitted
  exact ⟨nal, among, List.mem_singleton.mp emitted⟩

def sliceNal : Nal .h264 := ⟨[0x65, 1, 2, 3, 4], 0, by decide, by decide⟩

def seiNal : Nal .h264 := ⟨[0x06, 9], 0, by decide, by decide⟩

-- The smallest MTU: one byte of the unit in a fragment.
def smallPacketizer : Packetizer NalCodec.h264.format := ⟨1, 96, 0, 3, by decide, by decide⟩

def smallPackets : List Bytes := (smallPacketizer.packetizeUnits [[sliceNal, seiNal]]).1.flatten

def startLost : List DepackResult :=
  ((.new : Depacketizer NalCodec.h264.format).receive (delivered (smallPackets.zip [false, true, true, true, true]))).1

theorem start_lost_whole : startLost.map DepackResult.nalus = [[[0x06, 9]]] ∧
    ∀ result ∈ startLost, ∀ nalu ∈ result.nalus, ∃ nal ∈ [[sliceNal, seiNal]].flatten, nalu = nal.bytes :=
  ⟨by decide +kernel, delivered_units_whole .h264 smallPacketizer .new [[sliceNal, seiNal]]
    (smallPackets.zip [false, true, true, true, true]) (by decide +kernel) (by decide +kernel)⟩

theorem middle_lost_spliced : ¬ ∀ (codec : NalCodec) (packetizer : Packetizer codec.format)
    (units : List (List (Nal codec))) (received : List Bytes),
    received.Sublist (packetizer.packetizeUnits units).1.flatten →
      ∀ result ∈ ((.new : Depacketizer codec.format).receive received).1, ∀ nalu ∈ result.nalus,
        ∃ nal ∈ units.flatten, nalu = nal.bytes := by
  intro whole
  have emits : (⟨[[0x65, 1, 3, 4]], true, 0, false⟩ : DepackResult) ∈
      ((.new : Depacketizer NalCodec.h264.format).receive (smallPackets.eraseIdx 1)).1 := by decide +kernel
  obtain ⟨nal, among, spliced⟩ := whole .h264 smallPacketizer [[sliceNal, seiNal]] (smallPackets.eraseIdx 1)
    (List.eraseIdx_sublist smallPackets 1) _ emits [0x65, 1, 3, 4] List.mem_cons_self
  have other : ∀ nalu ∈ [[sliceNal, seiNal]].flatten.map Nal.bytes, nalu ≠ [0x65, 1, 3, 4] := by decide
  exact other _ (List.mem_map_of_mem among) spliced.symm

end Lvqr.Rtp
