import Lvqr.Rtp.RoundTrip
import Lvqr.Rtsp.Fmp4

set_option autoImplicit false

-- The second H.264 packetizer of the repository, for payloads without RTP headers.
namespace Lvqr.Whep

open Rtp (byteAt fuHeader Nal NalCodec NalFormat Depacketizer DepackResult)

def FU_A_TYPE : UInt8 := 28

def FU_HEADER_SIZE : Nat := 2

structure H264RtpPayload where
  payload : Bytes
  isStartOfFrame : Bool
  isEndOfFrame : Bool
deriving DecidableEq, Repr

structure H264Packetizer where
  mtu : Nat
  clamped : FU_HEADER_SIZE + 1 ≤ mtu

def H264Packetizer.new (mtu : Nat) : H264Packetizer := ⟨max mtu (FU_HEADER_SIZE + 1), Nat.le_max_right _ _⟩

def splitAvcc (data : Bytes) : List Bytes :=
  if 4 ≤ data.length then
    let len := BigEndian.value (data.take 4)
    if len = 0 then splitAvcc (data.drop 4)
    else if data.length - 4 < len then []
    else (data.drop 4).take len :: splitAvcc (data.drop (4 + len))
  else []
termination_by data.length
decreasing_by all_goals simp only [List.length_drop]; omega

def markFirst : List H264RtpPayload → List H264RtpPayload
  | [] => []
  | first :: rest => { first with isStartOfFrame := true } :: rest

def markLast : List H264RtpPayload → List H264RtpPayload
  | [] => []
  | [last] => [{ last with isEndOfFrame := true }]
  | first :: next :: rest => first :: markLast (next :: rest)

namespace H264Packetizer

def fuPayloadBudget (packetizer : H264Packetizer) : Nat := packetizer.mtu - FU_HEADER_SIZE

theorem budget_positive (packetizer : H264Packetizer) : 0 < packetizer.fuPayloadBudget := by
  have clamped := packetizer.clamped
  unfold fuPayloadBudget FU_HEADER_SIZE at *
  omega

def packetizeOneNal (packetizer : H264Packetizer) (nal : Bytes) : List H264RtpPayload :=
  if nal.length ≤ packetizer.mtu then [⟨nal, false, false⟩]
  else
    let header := byteAt nal 0
    let fNri := header &&& 0xE0
    let nalType := header &&& 0x1F
    (Fragment.cut packetizer.fuPayloadBudget packetizer.budget_positive true (nal.drop 1)).map fun chunk =>
      ⟨(fNri ||| FU_A_TYPE) :: fuHeader (nalType &&& 0x1F) chunk.first chunk.last :: chunk.part, false, false⟩

def packetize (packetizer : H264Packetizer) (avcc : Bytes) : List H264RtpPayload :=
  markLast (markFirst ((splitAvcc avcc).flatMap packetizer.packetizeOneNal))

end H264Packetizer

theorem split_avcc_eq (data : Bytes) : splitAvcc data = Rtsp.splitAvccNalus data := by
  induction data using splitAvcc.induct with
  | case1 data long len empty ih =>
      rw [splitAvcc, Rtsp.splitAvccNalus, if_pos long, if_pos long]
      dsimp only
      rw [if_pos empty, if_pos empty, ih]
  | case2 data long len present short =>
      rw [splitAvcc, Rtsp.splitAvccNalus, if_pos long, if_pos long]
      dsimp only
      rw [if_neg present, if_neg present, if_pos short, if_pos (by rw [List.length_drop]; exact short)]
  | case3 data long len present fits ih =>
      rw [splitAvcc, Rtsp.splitAvccNalus, if_pos long, if_pos long]
      dsimp only
      rw [if_neg present, if_neg present, if_neg fits, if_neg (by rw [List.length_drop]; exact fits), List.drop_drop, ih]
  | case4 data short => rw [splitAvcc, Rtsp.splitAvccNalus, if_neg short, if_neg short]

-- The flags the source sets on the first and on the last payload.
def startFlags {β : Type*} : List β → List Bool
  | [] => []
  | _ :: rest => true :: rest.map fun _ => false

theorem mark_first_payloads (payloads : List H264RtpPayload) :
    (markFirst payloads).map H264RtpPayload.payload = payloads.map H264RtpPayload.payload := by
  cases payloads <;> rfl

theorem mark_first_ends (payloads : List H264RtpPayload) :
    (markFirst payloads).map H264RtpPayload.isEndOfFrame = payloads.map H264RtpPayload.isEndOfFrame := by
  cases payloads <;> rfl

theorem mark_last_payloads (payloads : List H264RtpPayload) :
    (markLast payloads).map H264RtpPayload.payload = payloads.map H264RtpPayload.payload := by
  induction payloads with
  | nil => rfl
  | cons first rest ih =>
      cases rest with
      | nil => rfl
      | cons next rest => exact congrArg (List.cons first.payload) ih

theorem mark_last_starts (payloads : List H264RtpPayload) :
    (markLast payloads).map H264RtpPayload.isStartOfFrame = payloads.map H264RtpPayload.isStartOfFrame := by
  induction payloads with
  | nil => rfl
  | cons first rest ih =>
      cases rest with
      | nil => rfl
      | cons next rest => exact congrArg (List.cons first.isStartOfFrame) ih

theorem mark_last_ends (payloads : List H264RtpPayload) (plain : ∀ payload ∈ payloads, payload.isEndOfFrame = false) :
    (markLast payloads).map H264RtpPayload.isEndOfFrame = Fragment.endFlags payloads := by
  induction payloads with
  | nil => rfl
  | cons first rest ih =>
      have here := plain first List.mem_cons_self
      cases rest with
      | nil => rfl
      | cons next rest =>
          have later := ih fun payload member => plain payload (List.mem_cons_of_mem _ member)
          rw [Fragment.endFlags, ← later, ← here]
          rfl

namespace H264Packetizer

theorem one_nal_plain (packetizer : H264Packetizer) (nal : Bytes) :
    ∀ payload ∈ packetizer.packetizeOneNal nal, payload.isStartOfFrame = false ∧ payload.isEndOfFrame = false := by
  intro payload member
  unfold packetizeOneNal at member
  split at member
  · rw [List.mem_singleton.mp member]
    exact ⟨rfl, rfl⟩
  · obtain ⟨chunk, _, rfl⟩ := List.mem_map.mp member
    exact ⟨rfl, rfl⟩

theorem fragmented_body (packetizer : H264Packetizer) (nal : Bytes) (large : ¬ nal.length ≤ packetizer.mtu) :
    nal.drop 1 ≠ [] := by
  intro empty
  have clamped := packetizer.clamped
  have short := List.drop_eq_nil_iff.mp empty
  unfold FU_HEADER_SIZE at clamped
  omega

theorem one_nal_size (packetizer : H264Packetizer) (nal : Bytes) :
    ∀ payload ∈ packetizer.packetizeOneNal nal, payload.payload.length ≤ packetizer.mtu := by
  intro payload member
  unfold packetizeOneNal at member
  split at member
  · rename_i fits
    rw [List.mem_singleton.mp member]
    exact fits
  · rename_i large
    obtain ⟨chunk, isChunk, rfl⟩ := List.mem_map.mp member
    have small := Fragment.cut_part_length _ packetizer.budget_positive true _ (packetizer.fragmented_body nal large) chunk isChunk
    have clamped := packetizer.clamped
    unfold fuPayloadBudget FU_HEADER_SIZE at *
    simp only [List.length_cons]
    omega

-- The first payload of the first NAL unit starts the frame, the last of the last ends it.
structure Framed (packetizer : H264Packetizer) (payloads : List H264RtpPayload) : Prop where
  sizes : ∀ payload ∈ payloads, payload.payload.length ≤ packetizer.mtu
  starts : payloads.map H264RtpPayload.isStartOfFrame = startFlags payloads
  ends : payloads.map H264RtpPayload.isEndOfFrame = Fragment.endFlags payloads

theorem start_flags_map {β γ : Type*} (f : β → γ) (items : List β) : startFlags (items.map f) = startFlags items := by
  cases items with
  | nil => rfl
  | cons item rest => simp [startFlags]

theorem packetize_framed (packetizer : H264Packetizer) (avcc : Bytes) : packetizer.Framed (packetizer.packetize avcc) := by
  have plain : ∀ payload ∈ (splitAvcc avcc).flatMap packetizer.packetizeOneNal,
      payload.isStartOfFrame = false ∧ payload.isEndOfFrame = false := by
    intro payload member
    obtain ⟨nal, _, inside⟩ := List.mem_flatMap.mp member
    exact packetizer.one_nal_plain nal payload inside
  have sizes : ∀ payload ∈ (splitAvcc avcc).flatMap packetizer.packetizeOneNal, payload.payload.length ≤ packetizer.mtu := by
    intro payload member
    obtain ⟨nal, _, inside⟩ := List.mem_flatMap.mp member
    exact packetizer.one_nal_size nal payload inside
  unfold packetize
  generalize (splitAvcc avcc).flatMap packetizer.packetizeOneNal = payloads at plain sizes ⊢
  have bodies : (markLast (markFirst payloads)).map H264RtpPayload.payload = payloads.map H264RtpPayload.payload := by
    rw [mark_last_payloads, mark_first_payloads]
  have unended : ∀ payload ∈ markFirst payloads, payload.isEndOfFrame = false := by
    intro payload member
    have among := List.mem_map_of_mem (f := H264RtpPayload.isEndOfFrame) member
    rw [mark_first_ends] at among
    obtain ⟨other, known, same⟩ := List.mem_map.mp among
    exact same ▸ (plain other known).2
  constructor
  · intro payload member
    have among := List.mem_map_of_mem (f := H264RtpPayload.payload) member
    rw [bodies] at among
    obtain ⟨other, known, same⟩ := List.mem_map.mp among
    exact same ▸ sizes other known
  · rw [mark_last_starts, ← start_flags_map H264RtpPayload.payload, bodies, start_flags_map]
    cases payloads with
    | nil => rfl
    | cons first rest =>
        refine congrArg (List.cons true) (List.map_congr_left fun payload member => ?_)
        exact (plain payload (List.mem_cons_of_mem _ member)).1
  · rw [mark_last_ends _ unended, ← Fragment.end_flags_map H264RtpPayload.payload, mark_first_payloads, ← bodies,
      Fragment.end_flags_map]

end H264Packetizer

-- A sender that puts the marker on the payloads that end a frame.
def sendMarked (sender : Rtp.Packetizer NalCodec.h264.format) (timestamp : UInt32) :
    List (Bytes × Bool) → List Bytes × Rtp.Packetizer NalCodec.h264.format
  | [] => ([], sender)
  | (payload, marker) :: rest =>
      let (packet, next) := sender.emitPacket marker timestamp payload
      let (more, last) := sendMarked next timestamp rest
      (packet :: more, last)

def sendPayloads (sender : Rtp.Packetizer NalCodec.h264.format) (timestamp : UInt32) (payloads : List H264RtpPayload) : List Bytes :=
  (sendMarked sender timestamp (payloads.map fun payload => (payload.payload, payload.isEndOfFrame))).1

theorem send_append (sender : Rtp.Packetizer NalCodec.h264.format) (timestamp : UInt32) (front back : List (Bytes × Bool)) :
    sendMarked sender timestamp (front ++ back) =
      ((sendMarked sender timestamp front).1 ++ (sendMarked (sendMarked sender timestamp front).2 timestamp back).1,
        (sendMarked (sendMarked sender timestamp front).2 timestamp back).2) := by
  induction front generalizing sender with
  | nil => rfl
  | cons first front ih => simp [sendMarked, ih]

-- With the forbidden bit clear both packetizers write the same indicator.
theorem indicator_agrees (byte : UInt8) (legal : NalCodec.h264.legalHeader byte) :
    (byte &&& 0xE0) ||| FU_A_TYPE = Rtp.h264.fuIndicator byte ∧ byte &&& 0x1F &&& 0x1F = Rtp.h264.nalType byte := by
  revert byte
  apply Bits.forall_byte
  decide +kernel

namespace H264Packetizer

def bodies (packetizer : H264Packetizer) (nal : Bytes) : List Bytes :=
  (packetizer.packetizeOneNal nal).map H264RtpPayload.payload

theorem bodies_single (packetizer : H264Packetizer) (nal : Bytes) (fits : nal.length ≤ packetizer.mtu) :
    packetizer.bodies nal = [nal] := by
  rw [bodies, packetizeOneNal, if_pos fits]
  rfl

theorem bodies_fragmented (packetizer : H264Packetizer) (nal : Nal .h264) (large : ¬ nal.bytes.length ≤ packetizer.mtu) :
    packetizer.bodies nal.bytes =
      (Fragment.cut packetizer.fuPayloadBudget packetizer.budget_positive true nal.body).map
        (NalCodec.h264.format.fuPayload nal.bytes) := by
  obtain ⟨indicator, nalType⟩ := indicator_agrees (byteAt nal.bytes 0) nal.legal
  have tail : Rtp.h264.headerTail nal.bytes = [] := by
    rw [NalFormat.headerTail, List.drop_eq_nil_iff, List.length_take]
    exact Nat.min_le_left _ _
  rw [bodies, packetizeOneNal, if_neg large, List.map_map]
  refine List.map_congr_left fun chunk _ => ?_
  rw [Function.comp_apply]
  dsimp only
  rw [indicator, nalType]
  show _ = Rtp.h264.fuPayload nal.bytes chunk
  rw [NalFormat.fuPayload, tail, List.nil_append]

theorem bodies_ne_nil (packetizer : H264Packetizer) (nal : Bytes) : packetizer.bodies nal ≠ [] := by
  by_cases fits : nal.length ≤ packetizer.mtu
  · rw [packetizer.bodies_single nal fits]
    exact List.cons_ne_nil _ _
  · have nonempty := packetizer.fragmented_body nal fits
    rw [bodies, packetizeOneNal, if_neg fits]
    simpa using Fragment.cut_ne_nil _ packetizer.budget_positive true _ nonempty

theorem send_fragments (sender : Rtp.Packetizer NalCodec.h264.format) (nal : Nal .h264) (endOfAu : Bool)
    (fragments : List (Fragment UInt8)) :
    sendMarked sender nal.timestamp
        (fragments.map fun fragment => (NalCodec.h264.format.fuPayload nal.bytes fragment, endOfAu && fragment.last)) =
      sender.emitFragments nal.bytes nal.timestamp endOfAu fragments := by
  induction fragments generalizing sender with
  | nil => rfl
  | cons fragment rest ih =>
      simp only [List.map_cons, sendMarked, Rtp.Packetizer.emitFragments, ih]

-- The bodies of one NAL unit, with the marker only on the last, are its RTP packets.
theorem send_nal (packetizer : H264Packetizer) (sender : Rtp.Packetizer NalCodec.h264.format) (same : sender.mtu = packetizer.mtu)
    (nal : Nal .h264) (endOfAu : Bool) :
    sendMarked sender nal.timestamp
        ((packetizer.bodies nal.bytes).zip ((Fragment.endFlags (packetizer.bodies nal.bytes)).map (endOfAu && ·))) =
      sender.packetize nal.bytes nal.timestamp endOfAu := by
  have long : ¬ nal.bytes.length < NalCodec.h264.format.headerLen := Nat.not_lt.mpr nal.long
  by_cases fits : nal.bytes.length ≤ packetizer.mtu
  · rw [packetizer.bodies_single nal.bytes fits, Rtp.Packetizer.packetize, if_neg long, if_pos (same ▸ fits)]
    simp [Fragment.endFlags, sendMarked]
  · have nonempty : nal.body ≠ [] := packetizer.fragmented_body nal.bytes fits
    have budget : sender.chunkSize = packetizer.fuPayloadBudget := by
      rw [Rtp.Packetizer.chunkSize, same]
      rfl
    have lastFlags := Fragment.cut_last_flags packetizer.fuPayloadBudget packetizer.budget_positive true nal.body nonempty
    rw [packetizer.bodies_fragmented nal fits, Fragment.end_flags_map, ← lastFlags, List.map_map, List.zip_map', Rtp.Packetizer.packetize,
      if_neg long, if_neg (same ▸ fits)]
    simp only [budget]
    exact send_fragments sender nal endOfAu _

theorem send_mtu (sender : Rtp.Packetizer NalCodec.h264.format) (timestamp : UInt32) (payloads : List (Bytes × Bool)) :
    (sendMarked sender timestamp payloads).2.mtu = sender.mtu := by
  induction payloads generalizing sender with
  | nil => rfl
  | cons first rest ih => exact ih _

theorem send_nals (packetizer : H264Packetizer) (sender : Rtp.Packetizer NalCodec.h264.format)
    (same : sender.mtu = packetizer.mtu) (timestamp : UInt32) (nals : List (Nal .h264))
    (stamped : ∀ nal ∈ nals, nal.timestamp = timestamp) :
    let all := nals.flatMap fun nal => packetizer.bodies nal.bytes
    (sendMarked sender timestamp (all.zip (Fragment.endFlags all))).1 = (sender.packetizeUnit nals).1 := by
  induction nals generalizing sender with
  | nil => rfl
  | cons nal rest ih =>
      have here := stamped nal List.mem_cons_self
      have sent := packetizer.send_nal sender same nal rest.isEmpty
      rw [here] at sent
      dsimp only at ih ⊢
      rw [Rtp.Packetizer.packetizeUnit, here, ← sent, List.flatMap_cons]
      dsimp only
      cases rest with
      | nil => simp [Rtp.Packetizer.packetizeUnit]
      | cons next rest =>
          have more : (next :: rest).flatMap (fun nal => packetizer.bodies nal.bytes) ≠ [] := by
            rw [List.flatMap_cons]
            exact List.append_ne_nil_of_left_ne_nil (packetizer.bodies_ne_nil next.bytes) _
          have sameLength : (packetizer.bodies nal.bytes).length =
              (List.replicate (packetizer.bodies nal.bytes).length false).length := by simp
          let front := (packetizer.bodies nal.bytes).zip (List.replicate (packetizer.bodies nal.bytes).length false)
          have later := ih (sendMarked sender timestamp front).2 ((send_mtu sender timestamp front).trans same)
            fun other member => stamped other (List.mem_cons_of_mem _ member)
          rw [Fragment.end_flags_append _ _ more, List.zip_append sameLength, send_append]
          simp only [List.isEmpty_cons, Bool.false_and, List.map_const', Fragment.end_flags_length]
          rw [later]

theorem packetize_pairs (packetizer : H264Packetizer) (avcc : Bytes) :
    (packetizer.packetize avcc).map (fun payload => (payload.payload, payload.isEndOfFrame)) =
      ((splitAvcc avcc).flatMap packetizer.bodies).zip (Fragment.endFlags ((splitAvcc avcc).flatMap packetizer.bodies)) := by
  have bodies : (packetizer.packetize avcc).map H264RtpPayload.payload = (splitAvcc avcc).flatMap packetizer.bodies := by
    rw [packetize, mark_last_payloads, mark_first_payloads, List.map_flatMap]
    rfl
  rw [← bodies, Fragment.end_flags_map, ← (packetizer.packetize_framed avcc).ends, List.zip_map']

-- Sent with markers, the payloads are the packets of the RTSP packetizer, and its
-- depacketizer gives the NAL units back.
theorem packetize_agrees (mtu : Nat) (avcc : Bytes) (sender : Rtp.Packetizer NalCodec.h264.format)
    (same : sender.mtu = (new mtu).mtu) (nals : List (Nal .h264)) (timestamp : UInt32)
    (isSplit : splitAvcc avcc = nals.map Nal.bytes) (stamped : ∀ nal ∈ nals, nal.timestamp = timestamp)
    (depacketizer : Depacketizer NalCodec.h264.format) :
    (new mtu).Framed ((new mtu).packetize avcc) ∧
      sendPayloads sender timestamp ((new mtu).packetize avcc) = (sender.packetizeUnit nals).1 ∧
      (depacketizer.receive (sendPayloads sender timestamp ((new mtu).packetize avcc))).1 = Rtp.unitResults nals := by
  have agrees : sendPayloads sender timestamp ((new mtu).packetize avcc) = (sender.packetizeUnit nals).1 := by
    rw [sendPayloads, packetize_pairs, isSplit, List.flatMap_map]
    exact (new mtu).send_nals sender same timestamp nals stamped
  refine ⟨(new mtu).packetize_framed avcc, agrees, ?_⟩
  rw [agrees]
  exact Rtp.receive_unit sender depacketizer nals

end H264Packetizer

def sliceNal : Nal .h264 := ⟨[0x65, 9, 8, 7, 6], 9000, by decide, by decide⟩

def tightSender : Rtp.Packetizer NalCodec.h264.format := ⟨1, 97, 7, 3, by decide, Nat.le_refl 3⟩

theorem smallest_mtu_agrees :
    ((Depacketizer.new : Depacketizer NalCodec.h264.format).receive
      (sendPayloads tightSender 9000 ((H264Packetizer.new 0).packetize [0, 0, 0, 5, 0x65, 9, 8, 7, 6]))).1 =
      [⟨[[0x65, 9, 8, 7, 6]], true, 9000, true⟩] := by
  have split : splitAvcc [0, 0, 0, 5, 0x65, 9, 8, 7, 6] = [[0x65, 9, 8, 7, 6]] :=
    (split_avcc_eq _).trans (Rtsp.split_length_prefixed [[0x65, 9, 8, 7, 6]] (by decide) (by decide))
  exact (H264Packetizer.packetize_agrees 0 _ tightSender rfl [sliceNal] 9000 split (by decide) Depacketizer.new).2.2

end Lvqr.Whep
