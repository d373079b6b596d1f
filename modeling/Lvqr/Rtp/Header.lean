import Lvqr.Bytes
import Lvqr.Lib.BigEndian
import Lvqr.Lib.Bits

set_option autoImplicit false

namespace Lvqr.Rtp

def byteAt (data : Bytes) (offset : Nat) : UInt8 := data.getD offset 0

def beAt (data : Bytes) (offset width : Nat) : Nat := BigEndian.value ((data.drop offset).take width)

structure RtpHeader where
  payloadType : UInt8
  sequence : UInt16
  timestamp : UInt32
  ssrc : UInt32
  marker : Bool
  headerLen : Nat
deriving DecidableEq, Repr

def payloadStart (data : Bytes) : Option Nat :=
  let extension := (byteAt data 0 >>> 4) &&& 0x01 != 0
  let csrcCount := (byteAt data 0 &&& 0x0F).toNat
  let offset := 12 + csrcCount * 4
  if offset > data.length then none
  else if extension then
    if offset + 4 > data.length then none
    else
      let extLen := beAt data (offset + 2) 2
      let offset := offset + (4 + extLen * 4)
      if offset > data.length then none else some offset
  else some offset

def payloadEnd (data : Bytes) : Nat :=
  let padding := (byteAt data 0 >>> 5) &&& 0x01 != 0
  if padding && !data.isEmpty then data.length - (byteAt data (data.length - 1)).toNat else data.length

def parseRtpHeader (data : Bytes) : Option RtpHeader :=
  if data.length < 12 then none
  else
    let version := (byteAt data 0 >>> 6) &&& 0x03
    if version ≠ 2 then none
    else
      match payloadStart data with
      | none => none
      | some offset =>
          if offset > payloadEnd data then none
          else
            some {
              payloadType := byteAt data 1 &&& 0x7F
              sequence := UInt16.ofNat (beAt data 2 2)
              timestamp := UInt32.ofNat (beAt data 4 4)
              ssrc := UInt32.ofNat (beAt data 8 4)
              marker := (byteAt data 1 >>> 7) &&& 0x01 != 0
              headerLen := offset
            }

def markerByte (payloadType : UInt8) (marker : Bool) : UInt8 := payloadType ||| if marker then 0x80 else 0

def writeRtpHeader (payloadType : UInt8) (sequence : UInt16) (timestamp ssrc : UInt32) (marker : Bool) : Bytes :=
  0x80 :: markerByte payloadType marker ::
    (BigEndian.bytes 2 sequence.toNat ++ BigEndian.bytes 4 timestamp.toNat ++ BigEndian.bytes 4 ssrc.toNat)

@[simp] theorem write_rtp_header_length (payloadType : UInt8) (sequence : UInt16) (timestamp ssrc : UInt32)
    (marker : Bool) : (writeRtpHeader payloadType sequence timestamp ssrc marker).length = 12 := by
  simp [writeRtpHeader]

theorem marker_byte_type (payloadType : UInt8) (marker : Bool) (short : payloadType < 0x80) :
    markerByte payloadType marker &&& 0x7F = payloadType := by
  revert payloadType
  apply Bits.forall_byte
  revert marker
  decide +kernel

theorem marker_byte_marker (payloadType : UInt8) (marker : Bool) (short : payloadType < 0x80) :
    ((markerByte payloadType marker >>> 7) &&& 0x01 != 0) = marker := by
  revert payloadType
  apply Bits.forall_byte
  revert marker
  decide +kernel

theorem be_at_written (front back : Bytes) (offset width number : Nat) (here : front.length = offset)
    (fits : number < 256 ^ width) : beAt (front ++ (BigEndian.bytes width number ++ back)) offset width = number := by
  have field : ((front ++ (BigEndian.bytes width number ++ back)).drop offset).take width =
      BigEndian.bytes width number := by
    rw [List.drop_left' here, List.take_left' (BigEndian.bytes_length width number)]
  rw [beAt, field, BigEndian.value_bytes width number fits]

theorem parse_written_header (payloadType : UInt8) (sequence : UInt16) (timestamp ssrc : UInt32) (marker : Bool)
    (payload : Bytes) (short : payloadType < 0x80) :
    parseRtpHeader (writeRtpHeader payloadType sequence timestamp ssrc marker ++ payload) =
      some ⟨payloadType, sequence, timestamp, ssrc, marker, 12⟩ := by
  generalize written : writeRtpHeader payloadType sequence timestamp ssrc marker ++ payload = packet
  have size : packet.length = 12 + payload.length := by simp [← written]
  have first : byteAt packet 0 = 0x80 := by simp [← written, writeRtpHeader, byteAt]
  have second : byteAt packet 1 = markerByte payloadType marker := by simp [← written, writeRtpHeader, byteAt]
  have sequenceAt : beAt packet 2 2 = sequence.toNat := by
    rw [← be_at_written [0x80, markerByte payloadType marker]
      (BigEndian.bytes 4 timestamp.toNat ++ BigEndian.bytes 4 ssrc.toNat ++ payload) 2 2 sequence.toNat rfl
      sequence.toNat_lt, ← written]
    simp [writeRtpHeader]
  have timestampAt : beAt packet 4 4 = timestamp.toNat := by
    rw [← be_at_written (0x80 :: markerByte payloadType marker :: BigEndian.bytes 2 sequence.toNat)
      (BigEndian.bytes 4 ssrc.toNat ++ payload) 4 4 timestamp.toNat (by simp) timestamp.toNat_lt, ← written]
    simp [writeRtpHeader]
  have ssrcAt : beAt packet 8 4 = ssrc.toNat := by
    rw [← be_at_written (0x80 :: markerByte payloadType marker ::
      (BigEndian.bytes 2 sequence.toNat ++ BigEndian.bytes 4 timestamp.toNat)) payload 8 4 ssrc.toNat (by simp)
      ssrc.toNat_lt, ← written]
    simp [writeRtpHeader]
  have long : ¬ packet.length < 12 := by omega
  have noExtension : (0x80 : UInt8) >>> 4 &&& 0x01 = 0 := by decide
  have noPadding : (0x80 : UInt8) >>> 5 &&& 0x01 = 0 := by decide
  have start : payloadStart packet = some 12 := by simp [payloadStart, first, size, noExtension]
  have stop : payloadEnd packet = packet.length := by simp [payloadEnd, first, noPadding]
  simp only [parseRtpHeader, long, first, start, stop, second, sequenceAt, timestampAt, ssrcAt,
    marker_byte_type payloadType marker short, marker_byte_marker payloadType marker short, UInt16.ofNat_toNat,
    UInt32.ofNat_toNat]
  rfl

end Lvqr.Rtp
