import Lvqr.Lib.Bits
import Lvqr.Ts.Chunking

set_option autoImplicit false

-- Transport packets as a multiplexer writes them. `adaptation` is the field's
-- content behind its length byte; the fields after the sync byte that the
-- demuxer does not read are free.
namespace Lvqr.Ts

structure TransportPacket where
  pid : Nat
  pusi : Bool
  transportError : Bool
  priority : Bool
  scrambling : Nat
  continuity : Nat
  adaptation : Option Bytes
  payload : Bytes
  pid_lt : pid < 2 ^ 13
  scrambling_lt : scrambling < 2 ^ 2
  continuity_lt : continuity < 2 ^ 4
  full : (adaptation.elim 0 fun content => 1 + content.length) + payload.length = 184

namespace TransportPacket

def adaptationControl (packet : TransportPacket) : Nat :=
  match packet.adaptation with
  | none => 1
  | some _ => if packet.payload = [] then 2 else 3

def flagByte (packet : TransportPacket) : Nat :=
  packet.transportError.toNat * 128 + packet.pusi.toNat * 64 + packet.priority.toNat * 32 + packet.pid / 256

def controlByte (packet : TransportPacket) : Nat :=
  packet.scrambling * 64 + packet.adaptationControl * 16 + packet.continuity

def adaptationBytes (packet : TransportPacket) : Bytes :=
  match packet.adaptation with
  | none => []
  | some content => UInt8.ofNat content.length :: content

def encode (packet : TransportPacket) : Bytes :=
  SYNC_BYTE :: UInt8.ofNat packet.flagByte :: UInt8.ofNat (packet.pid % 256) :: UInt8.ofNat packet.controlByte ::
    (packet.adaptationBytes ++ packet.payload)

theorem adaptation_control_lt (packet : TransportPacket) : packet.adaptationControl < 4 := by
  unfold adaptationControl
  split
  · omega
  · split <;> omega

theorem flag_byte_lt (packet : TransportPacket) : packet.flagByte < 256 := by
  have bound := packet.pid_lt
  have error := Bits.bool_value_lt packet.transportError
  have start := Bits.bool_value_lt packet.pusi
  have priority := Bits.bool_value_lt packet.priority
  unfold flagByte
  omega

theorem control_byte_lt (packet : TransportPacket) : packet.controlByte < 256 := by
  have scrambling := packet.scrambling_lt
  have control := packet.adaptation_control_lt
  have continuity := packet.continuity_lt
  unfold controlByte
  omega

theorem encode_length (packet : TransportPacket) : packet.encode.length = TS_PACKET_SIZE := by
  have full := packet.full
  cases field : packet.adaptation with
  | none =>
      simp only [field, Option.elim_none] at full
      simp only [encode, adaptationBytes, field, List.length_cons, List.nil_append, TS_PACKET_SIZE]
      omega
  | some content =>
      simp only [field, Option.elim_some] at full
      simp only [encode, adaptationBytes, field, List.length_cons, List.length_append, TS_PACKET_SIZE]
      omega

theorem encoded_pid (packet : TransportPacket) : pidAt packet.encode 1 = packet.pid := by
  have bound := packet.pid_lt
  have error := Bits.bool_value_lt packet.transportError
  have start := Bits.bool_value_lt packet.pusi
  have priority := Bits.bool_value_lt packet.priority
  have high : byteAt packet.encode 1 = packet.flagByte := Bits.byte_value _ packet.flag_byte_lt
  have low : byteAt packet.encode 2 = packet.pid % 256 := Bits.byte_value _ (by omega)
  rw [pidAt, high, low, Bits.shift_or_eq_add _ _ 8 (by omega), show 0x1F = 2 ^ 5 - 1 from rfl, Bits.mask_eq_mod]
  unfold flagByte
  omega

theorem encoded_pusi (packet : TransportPacket) : (byteAt packet.encode 1 &&& 0x40 != 0) = packet.pusi := by
  have bound := packet.pid_lt
  have priority := Bits.bool_value_lt packet.priority
  have high : byteAt packet.encode 1 = packet.flagByte := Bits.byte_value _ packet.flag_byte_lt
  rw [high, Bool.eq_iff_iff, bne_iff_ne, show 0x40 = 2 ^ 6 from rfl, Bits.flag_ne_zero_iff]
  unfold flagByte
  cases packet.pusi with
  | false =>
      simp only [Bool.toNat_false, Bool.false_eq_true, iff_false]
      omega
  | true =>
      simp only [Bool.toNat_true, iff_true]
      omega

theorem encoded_control (packet : TransportPacket) :
    (byteAt packet.encode 3 >>> 4) &&& 0x03 = packet.adaptationControl := by
  have scrambling := packet.scrambling_lt
  have control := packet.adaptation_control_lt
  have continuity := packet.continuity_lt
  have read : byteAt packet.encode 3 = packet.controlByte := Bits.byte_value _ packet.control_byte_lt
  rw [read, show 0x03 = 2 ^ 2 - 1 from rfl, Bits.mask_eq_mod, Nat.shiftRight_eq_div_pow]
  unfold controlByte
  omega

end TransportPacket

open TransportPacket

theorem process_encoded (demuxer : TsDemuxer) (packet : TransportPacket) :
    demuxer.processPacket packet.encode =
      if packet.payload = [] then ([], demuxer) else demuxer.dispatch packet.pid packet.payload packet.pusi := by
  have full := packet.full
  simp only [TsDemuxer.processPacket, payloadOffset, encoded_pid, encoded_pusi, encoded_control]
  cases field : packet.adaptation with
  | none =>
      simp only [field, Option.elim_none, Nat.zero_add] at full
      have carries : packet.payload ≠ [] := by
        intro empty
        simp [empty] at full
      have rest : packet.encode.drop 4 = packet.payload := by simp [encode, adaptationBytes, field]
      simp [adaptationControl, field, carries, rest, TS_PACKET_SIZE]
  | some content =>
      simp only [field, Option.elim_some] at full
      by_cases carries : packet.payload = []
      · simp [adaptationControl, field, carries]
      · have positive := List.length_pos_iff.mpr carries
        have length : byteAt packet.encode 4 = content.length := by
          simp only [encode, adaptationBytes, field]
          exact Bits.byte_value _ (by omega)
        have inside : ¬ 5 + content.length ≥ TS_PACKET_SIZE := by
          unfold TS_PACKET_SIZE
          omega
        have rest : packet.encode.drop (5 + content.length) = packet.payload := by
          rw [Nat.add_comm, ← List.drop_drop]
          simp [encode, adaptationBytes, field]
        simp [adaptationControl, field, carries, length, inside, rest]

theorem scan_encoded (packet : TransportPacket) (rest : Bytes) :
    scan (packet.encode ++ rest) = .packet packet.encode rest := by
  have synced : (packet.encode ++ rest).dropWhile (· != SYNC_BYTE) = packet.encode ++ rest := by
    simp [encode]
  rw [scan_packet_iff, synced, ← packet.encode_length]
  refine ⟨by simp, ?_, ?_⟩
  · exact List.take_left.symm
  · exact List.drop_left.symm

theorem frames_encoded (packets : List TransportPacket) :
    tsFramer.frames (packets.flatMap encode) = (packets.map encode, []) := by
  induction packets with
  | nil => exact tsFramer.frames_none [] rfl
  | cons packet packets ih =>
      have found := scan_encoded packet (packets.flatMap encode)
      rw [List.flatMap_cons, tsFramer.frames_some _ _ _ ((next_packet_some _ _ _).mpr found), ih]
      rfl

namespace TsDemuxer

def receive (demuxer : TsDemuxer) (packets : List TransportPacket) : List PesPacket × TsDemuxer :=
  demuxer.processPackets (packets.map encode)

theorem feed_encoded (demuxer : TsDemuxer) (packets : List TransportPacket) (chunks : List Bytes)
    (aligned : demuxer.remainder = []) (sent : chunks.flatten = packets.flatMap encode) :
    (demuxer.feedAll chunks).1 = (demuxer.receive packets).1 ∧
      (demuxer.feedAll chunks).2.pendingScte35 = (demuxer.receive packets).2.pendingScte35 := by
  cases chunks with
  | nil =>
      have nothing : packets = [] := by
        cases packets with
        | nil => rfl
        | cons packet packets => simp [encode] at sent
      rw [nothing]
      exact ⟨rfl, rfl⟩
  | cons first rest =>
      obtain ⟨kept, fed, _⟩ := demuxer.feed_all_spec first rest
      have framed : tsFramer.frames (demuxer.remainder ++ (first ++ rest.flatten)) = (packets.map encode, []) := by
        rw [aligned, List.nil_append, ← List.flatten_cons, sent, frames_encoded]
      rw [fed, framed]
      exact ⟨rfl, rfl⟩

theorem receive_append (demuxer : TsDemuxer) (first second : List TransportPacket) :
    demuxer.receive (first ++ second) =
      ((demuxer.receive first).1 ++ ((demuxer.receive first).2.receive second).1,
        ((demuxer.receive first).2.receive second).2) := by
  simp only [receive, List.map_append, process_packets_append]

theorem receive_cons (demuxer : TsDemuxer) (packet : TransportPacket) (packets : List TransportPacket) :
    demuxer.receive (packet :: packets) =
      ((demuxer.processPacket packet.encode).1 ++ ((demuxer.processPacket packet.encode).2.receive packets).1,
        ((demuxer.processPacket packet.encode).2.receive packets).2) := rfl

end TsDemuxer

end Lvqr.Ts
