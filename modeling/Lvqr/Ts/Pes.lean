import Lvqr.Ts.Packet
import Lvqr.Ts.Tables

set_option autoImplicit false

-- PES packets as an encoder writes them. `headerTail` stands for the optional
-- fields behind the timestamps and the stuffing bytes; `headerFlags` and the
-- low six bits of the second flag byte announce fields the demuxer skips.
namespace Lvqr.Ts

abbrev Timestamp := Fin (2 ^ 33)

inductive Timestamps where
  | absent
  | ptsOnly (pts : Timestamp)
  | ptsDts (pts dts : Timestamp)
deriving DecidableEq, Repr

-- Four bits of prefix and 33 of timestamp, a marker bit after bits 32..30,
-- 29..15 and 14..0.
def encodeTimestamp (prefixBits value : Nat) : Bytes :=
  [UInt8.ofNat (prefixBits * 16 + value / 2 ^ 30 * 2 + 1),
   UInt8.ofNat (value / 2 ^ 22 % 256),
   UInt8.ofNat (value / 2 ^ 15 % 128 * 2 + 1),
   UInt8.ofNat (value / 2 ^ 7 % 256),
   UInt8.ofNat (value % 128 * 2 + 1)]

namespace Timestamps

def pts : Timestamps → Option Nat
  | absent => none
  | ptsOnly pts => some pts.val
  | ptsDts pts _ => some pts.val

def dts : Timestamps → Option Nat
  | ptsDts _ dts => some dts.val
  | _ => none

def flags : Timestamps → Nat
  | absent => 0
  | ptsOnly _ => 2
  | ptsDts _ _ => 3

def encode : Timestamps → Bytes
  | absent => []
  | ptsOnly pts => encodeTimestamp 2 pts.val
  | ptsDts pts dts => encodeTimestamp 3 pts.val ++ encodeTimestamp 1 dts.val

end Timestamps

structure PesUnit where
  streamId : UInt8
  headerFlags : UInt8
  optionalFlags : Nat
  timestamps : Timestamps
  headerTail : Bytes
  payload : Bytes
  exactLength : Bool
  flags_lt : optionalFlags < 2 ^ 6
  header_fits : timestamps.encode.length + headerTail.length < 2 ^ 8
  length_fits : exactLength = true → 3 + (timestamps.encode.length + headerTail.length) + payload.length < 2 ^ 16
  nonempty : payload ≠ []

namespace PesUnit

def headerLength (unit : PesUnit) : Nat := unit.timestamps.encode.length + unit.headerTail.length

def packetLength (unit : PesUnit) : Nat :=
  if unit.exactLength then 3 + unit.headerLength + unit.payload.length else 0

def encode (unit : PesUnit) : Bytes :=
  [0, 0, 1, unit.streamId, UInt8.ofNat (unit.packetLength / 256), UInt8.ofNat (unit.packetLength % 256),
    unit.headerFlags, UInt8.ofNat (unit.timestamps.flags * 64 + unit.optionalFlags), UInt8.ofNat unit.headerLength] ++
    (unit.timestamps.encode ++ unit.headerTail ++ unit.payload)

def packet (unit : PesUnit) (pid : Nat) (streamType : StreamType) : PesPacket :=
  ⟨pid, streamType, unit.timestamps.pts, unit.timestamps.dts, unit.payload⟩

theorem packet_length_lt (unit : PesUnit) : unit.packetLength < 2 ^ 16 := by
  unfold packetLength
  cases exact : unit.exactLength with
  | false => simp
  | true => simpa [headerLength] using unit.length_fits exact

end PesUnit

theorem parse_encoded_timestamp (prefixBits value : Nat) (prefix_lt : prefixBits < 16) (value_lt : value < 2 ^ 33) :
    parseTsTimestamp (encodeTimestamp prefixBits value) = value := by
  have b0 : byteAt (encodeTimestamp prefixBits value) 0 = prefixBits * 16 + value / 2 ^ 30 * 2 + 1 :=
    Bits.byte_value _ (by omega)
  have b1 : byteAt (encodeTimestamp prefixBits value) 1 = value / 2 ^ 22 % 256 := Bits.byte_value _ (by omega)
  have b2 : byteAt (encodeTimestamp prefixBits value) 2 = value / 2 ^ 15 % 128 * 2 + 1 := Bits.byte_value _ (by omega)
  have b3 : byteAt (encodeTimestamp prefixBits value) 3 = value / 2 ^ 7 % 256 := Bits.byte_value _ (by omega)
  have b4 : byteAt (encodeTimestamp prefixBits value) 4 = value % 128 * 2 + 1 := Bits.byte_value _ (by omega)
  have top : (prefixBits * 16 + value / 2 ^ 30 * 2 + 1) >>> 1 &&& 0x07 = value / 2 ^ 30 := by
    rw [show 0x07 = 2 ^ 3 - 1 from rfl, Bits.mask_eq_mod, Nat.shiftRight_eq_div_pow]
    omega
  have middle : (value / 2 ^ 22 % 256) <<< 7 ||| (value / 2 ^ 15 % 128 * 2 + 1) >>> 1 = value / 2 ^ 15 % 2 ^ 15 := by
    rw [Nat.shiftRight_eq_div_pow, Bits.shift_or_eq_add _ _ 7 (by omega)]
    omega
  have bottom : (value / 2 ^ 7 % 256) <<< 7 ||| (value % 128 * 2 + 1) >>> 1 = value % 2 ^ 15 := by
    rw [Nat.shiftRight_eq_div_pow, Bits.shift_or_eq_add _ _ 7 (by omega)]
    omega
  simp only [parseTsTimestamp, b0, b1, b2, b3, b4, top, middle, bottom]
  rw [Nat.or_assoc, Bits.shift_or_eq_add (value / 2 ^ 15 % 2 ^ 15) _ 15 (by omega),
    Bits.shift_or_eq_add (value / 2 ^ 30) _ 30 (by omega)]
  omega

namespace PesUnit

theorem encode_length (unit : PesUnit) : unit.encode.length = 9 + unit.headerLength + unit.payload.length := by
  simp only [encode, headerLength, List.length_append, List.length_cons, List.length_nil]
  omega

theorem encode_drop (unit : PesUnit) : unit.encode.drop (9 + unit.headerLength) = unit.payload := by
  rw [← List.drop_drop]
  simp [encode, headerLength, List.drop_left']

theorem encoded_packet_length (unit : PesUnit) :
    byteAt unit.encode 4 <<< 8 ||| byteAt unit.encode 5 = unit.packetLength := by
  have bound := unit.packet_length_lt
  have high : byteAt unit.encode 4 = unit.packetLength / 256 := Bits.byte_value _ (by omega)
  have low : byteAt unit.encode 5 = unit.packetLength % 256 := Bits.byte_value _ (by omega)
  rw [high, low, Bits.shift_or_eq_add _ _ 8 (by omega)]
  omega

theorem encoded_header_length (unit : PesUnit) : byteAt unit.encode 8 = unit.headerLength :=
  Bits.byte_value _ unit.header_fits

theorem encoded_flags (unit : PesUnit) :
    byteAt unit.encode 7 = unit.timestamps.flags * 64 + unit.optionalFlags := by
  have optional := unit.flags_lt
  apply Bits.byte_value
  cases unit.timestamps <;> simp only [Timestamps.flags] <;> omega

theorem encoded_pts_flag (unit : PesUnit) :
    byteAt unit.encode 7 &&& 0x80 ≠ 0 ↔ unit.timestamps.flags / 2 = 1 := by
  have optional := unit.flags_lt
  have small : unit.timestamps.flags < 4 := by
    cases unit.timestamps <;> simp only [Timestamps.flags] <;> omega
  rw [encoded_flags, show 0x80 = 2 ^ 7 from rfl, Bits.flag_ne_zero_iff]
  omega

theorem encoded_dts_flag (unit : PesUnit) : byteAt unit.encode 7 &&& 0x40 ≠ 0 ↔ unit.timestamps.flags % 2 = 1 := by
  have optional := unit.flags_lt
  rw [encoded_flags, show 0x40 = 2 ^ 6 from rfl, Bits.flag_ne_zero_iff]
  omega

theorem encoded_pts (unit : PesUnit) :
    (if byteAt unit.encode 7 &&& 0x80 ≠ 0 ∧ byteAt unit.encode 8 ≥ 5 then
      some (parseTsTimestamp ((unit.encode.drop 9).take 5)) else none) = unit.timestamps.pts := by
  rw [if_congr (and_congr_left' unit.encoded_pts_flag) rfl rfl, encoded_header_length]
  cases written : unit.timestamps with
  | absent => simp [Timestamps.flags, Timestamps.pts]
  | ptsOnly pts =>
      have read : (unit.encode.drop 9).take 5 = encodeTimestamp 2 pts.val := by
        simp [encode, written, Timestamps.encode, encodeTimestamp]
      have long : unit.headerLength ≥ 5 := by simp [headerLength, written, Timestamps.encode, encodeTimestamp]
      rw [if_pos ⟨by simp [Timestamps.flags], long⟩, read, parse_encoded_timestamp 2 pts.val (by omega) pts.isLt]
      rfl
  | ptsDts pts dts =>
      have read : (unit.encode.drop 9).take 5 = encodeTimestamp 3 pts.val := by
        simp [encode, written, Timestamps.encode, encodeTimestamp]
      have long : unit.headerLength ≥ 5 := by
        simp [headerLength, written, Timestamps.encode, encodeTimestamp]
        omega
      rw [if_pos ⟨by simp [Timestamps.flags], long⟩, read, parse_encoded_timestamp 3 pts.val (by omega) pts.isLt]
      rfl

theorem encoded_dts (unit : PesUnit) :
    (if byteAt unit.encode 7 &&& 0x40 ≠ 0 ∧ byteAt unit.encode 8 ≥ 10 then
      some (parseTsTimestamp ((unit.encode.drop 14).take 5)) else none) = unit.timestamps.dts := by
  rw [if_congr (and_congr_left' unit.encoded_dts_flag) rfl rfl, encoded_header_length]
  cases written : unit.timestamps with
  | absent => simp [Timestamps.flags, Timestamps.dts]
  | ptsOnly pts => simp [Timestamps.flags, Timestamps.dts]
  | ptsDts pts dts =>
      have read : (unit.encode.drop 14).take 5 = encodeTimestamp 1 dts.val := by
        simp [encode, written, Timestamps.encode, encodeTimestamp]
      have long : unit.headerLength ≥ 10 := by simp [headerLength, written, Timestamps.encode, encodeTimestamp]
      rw [if_pos ⟨by simp [Timestamps.flags], long⟩, read, parse_encoded_timestamp 1 dts.val (by omega) dts.isLt]
      rfl

theorem encoded_end (unit : PesUnit) :
    (if unit.packetLength > 0 then min (6 + unit.packetLength) unit.encode.length else unit.encode.length) =
      unit.encode.length := by
  rw [encode_length]
  unfold packetLength
  cases unit.exactLength with
  | false => simp
  | true =>
      simp only [if_true]
      split <;> omega

end PesUnit

-- A reassembled unit decodes to its payload and timestamps, whatever its header
-- carries besides them.
theorem finish_encoded (pid : Nat) (streamType : StreamType) (unit : PesUnit) :
    finishPes pid ⟨streamType, unit.encode, true⟩ = some (unit.packet pid streamType) := by
  have size := unit.encode_length
  have started : ¬ (unit.encode.length < 9 ∨ byteAt unit.encode 0 ≠ 0 ∨ byteAt unit.encode 1 ≠ 0 ∨
      byteAt unit.encode 2 ≠ 1) := by
    simp [byteAt, PesUnit.encode]
  have inside : ¬ 9 + unit.headerLength > unit.encode.length := by omega
  have carries : unit.payload.isEmpty = false := List.isEmpty_eq_false_iff.mpr unit.nonempty
  have content : (unit.encode.take unit.encode.length).drop (9 + unit.headerLength) = unit.payload := by
    rw [List.take_length, unit.encode_drop]
  have pts := unit.encoded_pts
  have dts := unit.encoded_dts
  rw [unit.encoded_header_length] at pts dts
  simp only [finishPes, if_neg started, unit.encoded_header_length, unit.encoded_packet_length, if_neg inside, pts, dts,
    unit.encoded_end, content, carries, Bool.false_eq_true, if_false, PesUnit.packet]

end Lvqr.Ts

namespace Lvqr.Ts

open TransportPacket TsDemuxer

-- The packets that carry a PID's units: each unit starts a packet of its own
-- and runs through the packets up to the next start.
inductive Cut : List PesUnit → List TransportPacket → Prop where
  | done : Cut [] []
  | unit (pes : PesUnit) (units : List PesUnit) (first : TransportPacket) (rest packets : List TransportPacket)
      (starts : first.pusi = true) (continues : ∀ packet ∈ rest, packet.pusi = false)
      (bytes : first.payload ++ rest.flatMap TransportPacket.payload = pes.encode) (others : Cut units packets) :
      Cut (pes :: units) (first :: (rest ++ packets))

section Reassembly

variable {pid : Nat} {streamType : StreamType}

def holding (demuxer : TsDemuxer) (pid : Nat) (streamType : StreamType) (buf : Bytes) : TsDemuxer :=
  { demuxer with pesBufs := Function.update demuxer.pesBufs pid (some ⟨streamType, buf, true⟩) }

theorem holding_announced (demuxer : TsDemuxer) (announced : Announced demuxer pid streamType) (buf : Bytes) :
    Announced (holding demuxer pid streamType buf) pid streamType :=
  ⟨announced.notPat, announced.notPmt, announced.listed⟩

theorem process_carrier (demuxer : TsDemuxer) (packet : TransportPacket) (announced : Announced demuxer pid streamType)
    (media : streamType ≠ .scte35) (mine : carries pid packet = true) :
    demuxer.processPacket packet.encode = demuxer.pushPes pid packet.payload packet.pusi := by
  obtain ⟨isPid, nonempty⟩ := (carries_iff pid packet).mp mine
  rw [process_encoded, if_neg nonempty, isPid, dispatch_media demuxer pid streamType _ _ announced media]

theorem process_start (demuxer : TsDemuxer) (packet : TransportPacket) (announced : Announced demuxer pid streamType)
    (media : streamType ≠ .scte35) (mine : carries pid packet = true) (starts : packet.pusi = true) :
    demuxer.processPacket packet.encode =
      (demuxer.finished pid, holding demuxer pid streamType packet.payload) := by
  rw [process_carrier demuxer packet announced media mine, starts]
  simp [pushPes, announced.listed, holding]

theorem process_continuation (demuxer : TsDemuxer) (packet : TransportPacket) (buf : Bytes)
    (announced : Announced demuxer pid streamType) (media : streamType ≠ .scte35) (mine : carries pid packet = true)
    (continues : packet.pusi = false) :
    (holding demuxer pid streamType buf).processPacket packet.encode =
      ([], holding demuxer pid streamType (buf ++ packet.payload)) := by
  rw [process_carrier _ packet (holding_announced demuxer announced buf) media mine, continues]
  simp [pushPes, holding]

theorem receive_continuations (demuxer : TsDemuxer) (packets : List TransportPacket) (buf : Bytes)
    (announced : Announced demuxer pid streamType) (media : streamType ≠ .scte35)
    (mine : ∀ packet ∈ packets, carries pid packet = true) (later : ∀ packet ∈ packets, packet.pusi = false) :
    (holding demuxer pid streamType buf).receive packets =
      ([], holding demuxer pid streamType (buf ++ packets.flatMap TransportPacket.payload)) := by
  induction packets generalizing buf with
  | nil => simp [receive, processPackets]
  | cons packet packets ih =>
      have step := process_continuation demuxer packet buf announced media (mine packet (by simp))
        (later packet (by simp))
      have rest := ih (buf ++ packet.payload) (fun other member => mine other (by simp [member]))
        (fun other member => later other (by simp [member]))
      rw [receive_cons, step, rest]
      simp

theorem receive_unit (demuxer : TsDemuxer) (pes : PesUnit) (first : TransportPacket) (rest : List TransportPacket)
    (announced : Announced demuxer pid streamType) (media : streamType ≠ .scte35)
    (mine : ∀ packet ∈ first :: rest, carries pid packet = true) (starts : first.pusi = true)
    (continues : ∀ packet ∈ rest, packet.pusi = false)
    (bytes : first.payload ++ rest.flatMap TransportPacket.payload = pes.encode) :
    demuxer.receive (first :: rest) = (demuxer.finished pid, holding demuxer pid streamType pes.encode) := by
  have opened := process_start demuxer first announced media (mine first (by simp)) starts
  have grown := receive_continuations demuxer rest first.payload announced media
    (fun packet member => mine packet (by simp [member])) continues
  rw [receive_cons, opened, grown, bytes]
  simp

theorem finished_holding (demuxer : TsDemuxer) (pes : PesUnit) :
    (holding demuxer pid streamType pes.encode).finished pid = [pes.packet pid streamType] := by
  have nonempty : pes.encode.isEmpty = false := rfl
  simp [finished, holding, nonempty, finish_encoded]

-- Each start releases the unit before it; the last unit stays in its buffer.
theorem receive_cut (demuxer : TsDemuxer) (pes : PesUnit) (units : List PesUnit) (packets : List TransportPacket)
    (announced : Announced demuxer pid streamType) (media : streamType ≠ .scte35) (cut : Cut units packets)
    (mine : ∀ packet ∈ packets, carries pid packet = true) :
    ((holding demuxer pid streamType pes.encode).receive packets).1 =
      ((pes :: units).dropLast).map fun unit => unit.packet pid streamType := by
  induction cut generalizing demuxer pes with
  | done => rfl
  | unit next units first rest packets starts continues bytes others ih =>
      have unit := receive_unit (holding demuxer pid streamType pes.encode) next first rest
        (holding_announced demuxer announced _) media
        (fun packet member => mine packet (by
          cases List.mem_cons.mp member with
          | inl isFirst => simp [isFirst]
          | inr inRest => simp [inRest]))
        starts continues bytes
      have later := ih (holding demuxer pid streamType pes.encode) next (holding_announced demuxer announced _)
        fun packet member => mine packet (by simp [member])
      rw [← List.cons_append, receive_append, unit, later, finished_holding]
      rfl

theorem receive_units (demuxer : TsDemuxer) (units : List PesUnit) (packets : List TransportPacket)
    (announced : Announced demuxer pid streamType) (media : streamType ≠ .scte35) (silent : demuxer.pesBufs pid = none)
    (cut : Cut units packets) (mine : ∀ packet ∈ packets, carries pid packet = true) :
    (demuxer.receive packets).1 = units.dropLast.map fun unit => unit.packet pid streamType := by
  cases cut with
  | done => rfl
  | unit pes units first rest packets starts continues bytes others =>
      have unit := receive_unit demuxer pes first rest announced media
        (fun packet member => mine packet (by
          cases List.mem_cons.mp member with
          | inl isFirst => simp [isFirst]
          | inr inRest => simp [inRest]))
        starts continues bytes
      have later := receive_cut demuxer pes units packets announced media others
        fun packet member => mine packet (by simp [member])
      rw [← List.cons_append, receive_append, unit, later]
      simp [finished, silent]

end Reassembly

-- What one PID sends through a multiplex comes out unit by unit, however the
-- stream is cut into calls; the rest of the multiplex is free.
theorem pes_round_trip (tables stream : List TransportPacket) (pid : Nat) (streamType : StreamType)
    (units : List PesUnit) (chunks : List Bytes)
    (announced : Announced (new.receive tables).2 pid streamType) (media : streamType ≠ .scte35)
    (silent : carriers pid tables = [])
    (steady : ∀ packet ∈ stream, KeepsTables (new.receive tables).2 packet)
    (cut : Cut units (carriers pid stream))
    (sent : chunks.flatten = (tables ++ stream).flatMap encode) :
    packetsOf pid (new.feedAll chunks).1 = units.dropLast.map fun unit => unit.packet pid streamType := by
  have fed := (feed_encoded new (tables ++ stream) chunks rfl sent).1
  obtain ⟨nothing, before⟩ := receive_elsewhere new pid tables silent
  obtain ⟨projected, _⟩ := receive_projects pid streamType stream _ _ (same_pid_refl pid (new.receive tables).2)
    announced steady
  have received := receive_units (new.receive tables).2 units (carriers pid stream) announced media before.pesBufs cut
    (carriers_carry pid stream)
  unfold packetsOf at nothing projected ⊢
  rw [fed, receive_append, List.filter_append, nothing, projected, received, List.nil_append]

def videoUnit : PesUnit where
  streamId := 0xE0
  headerFlags := 0x80
  optionalFlags := 0
  timestamps := .ptsDts 8589934591 4294967296
  headerTail := [0xFF]
  payload := List.replicate 164 7
  exactLength := true
  flags_lt := by omega
  header_fits := by decide
  length_fits := by decide +kernel
  nonempty := by decide

theorem video_pid_lt : 256 < 2 ^ 13 := by decide

def videoPacket : TransportPacket := plainPacket 256 true videoUnit.encode video_pid_lt (by decide +kernel)

theorem pes_round_trip_video :
    packetsOf 256 (new.feedAll [(sampleTables ++ [videoPacket, videoPacket]).flatMap encode]).1 =
      [videoUnit, videoUnit].dropLast.map fun unit => unit.packet 256 .h264 := by
  have steady : ∀ packet ∈ [videoPacket, videoPacket], KeepsTables (new.receive sampleTables).2 packet := by
    intro packet member
    have onPid : packet.pid = 256 := by
      obtain rfl : packet = videoPacket := by simpa using member
      rfl
    exact sample_tables_keep packet (by simp [onPid, PAT_PID]) (by simp [onPid])
  have cut : Cut [videoUnit, videoUnit] (carriers 256 [videoPacket, videoPacket]) :=
    .unit videoUnit [videoUnit] videoPacket [] [videoPacket] rfl (by simp) (List.append_nil _)
      (.unit videoUnit [] videoPacket [] [] rfl (by simp) (List.append_nil _) .done)
  exact pes_round_trip sampleTables [videoPacket, videoPacket] 256 .h264 [videoUnit, videoUnit] _
    (sample_tables_announce 256 .h264 (by decide) (by decide) rfl) (by decide) rfl steady cut (List.append_nil _)

end Lvqr.Ts
