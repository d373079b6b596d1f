import Lvqr.Lib.Fragments
import Lvqr.Rtp.Header

set_option autoImplicit false

-- The H.264 and HEVC payload formats differ in their NAL headers only. A
-- format says how the first header byte is read and written; the bytes behind
-- it up to `headerLen` are copied.
namespace Lvqr.Rtp

structure NalFormat where
  headerLen : Nat
  nalType : UInt8 → UInt8
  isSingle : UInt8 → Bool
  aggregation : UInt8
  fragmentation : UInt8
  fuTypeMask : UInt8
  isKeyframe : UInt8 → Bool
  fuIndicator : UInt8 → UInt8
  restoreHeader : UInt8 → UInt8 → UInt8

def NAL_TYPE_STAP_A : UInt8 := 24

def NAL_TYPE_FU_A : UInt8 := 28

def h264 : NalFormat where
  headerLen := 1
  nalType byte := byte &&& 0x1F
  isSingle nalType := 1 ≤ nalType && nalType ≤ 23
  aggregation := NAL_TYPE_STAP_A
  fragmentation := NAL_TYPE_FU_A
  fuTypeMask := 0x1F
  isKeyframe nalType := nalType == 5
  fuIndicator byte :=
    let nri := byte &&& 0x60
    nri ||| NAL_TYPE_FU_A
  restoreHeader indicator fuNalType :=
    let nri := indicator &&& 0x60
    nri ||| fuNalType

def HEVC_NAL_TYPE_AP : UInt8 := 48

def HEVC_NAL_TYPE_FU : UInt8 := 49

def isHevcKeyframe (nalType : UInt8) : Bool := 19 ≤ nalType && nalType ≤ 21

def hevc : NalFormat where
  headerLen := 2
  nalType byte := (byte >>> 1) &&& 0x3F
  isSingle nalType := nalType ≤ 47
  aggregation := HEVC_NAL_TYPE_AP
  fragmentation := HEVC_NAL_TYPE_FU
  fuTypeMask := 0x3F
  isKeyframe := isHevcKeyframe
  fuIndicator byte :=
    let layer := byte &&& 0x81
    layer ||| HEVC_NAL_TYPE_FU <<< 1
  restoreHeader indicator fuNalType :=
    let layer := indicator &&& 0x81
    layer ||| fuNalType <<< 1

structure DepackResult where
  nalus : List Bytes
  keyframe : Bool
  timestamp : UInt32
  marker : Bool
deriving DecidableEq, Repr

structure Depacketizer (format : NalFormat) where
  fuBuf : Bytes
  fuActive : Bool

abbrev H264Depacketizer := Depacketizer h264

abbrev HevcDepacketizer := Depacketizer hevc

namespace NalFormat

def headerTail (format : NalFormat) (nalu : Bytes) : Bytes := (nalu.take format.headerLen).drop 1

def keyframeNal (format : NalFormat) (nalu : Bytes) : Bool :=
  format.headerLen ≤ nalu.length && format.isKeyframe (format.nalType (byteAt nalu 0))

end NalFormat

def aggregated (data : Bytes) : List Bytes :=
  if _short : data.length < 2 then []
  else
    let naluLen := beAt data 0 2
    if 2 + naluLen > data.length then []
    else (data.drop 2).take naluLen :: aggregated (data.drop (2 + naluLen))
termination_by data.length
decreasing_by
  rw [List.length_drop]
  omega

namespace Depacketizer

variable {format : NalFormat}

def new : Depacketizer format := ⟨[], false⟩

def depacketizeFragment (depacketizer : Depacketizer format) (rtpPayload : Bytes) (header : RtpHeader) :
    Option DepackResult × Depacketizer format :=
  if rtpPayload.length < format.headerLen + 1 then (none, depacketizer)
  else
    let fuHeader := byteAt rtpPayload format.headerLen
    let start := fuHeader &&& 0x80 != 0
    let finish := fuHeader &&& 0x40 != 0
    let fuNalType := fuHeader &&& format.fuTypeMask
    let fragment := rtpPayload.drop (format.headerLen + 1)
    if !start && !depacketizer.fuActive then (none, depacketizer)
    else
      let fuBuf :=
        if start then
          format.restoreHeader (byteAt rtpPayload 0) fuNalType :: (format.headerTail rtpPayload ++ fragment)
        else depacketizer.fuBuf ++ fragment
      if finish then (some ⟨[fuBuf], format.keyframeNal fuBuf, header.timestamp, header.marker⟩, ⟨[], false⟩)
      else (none, ⟨fuBuf, true⟩)

def depacketize (depacketizer : Depacketizer format) (rtpPayload : Bytes) (header : RtpHeader) :
    Option DepackResult × Depacketizer format :=
  if rtpPayload.length < format.headerLen then (none, depacketizer)
  else
    let nalType := format.nalType (byteAt rtpPayload 0)
    if format.isSingle nalType then
      (some ⟨[rtpPayload], format.isKeyframe nalType, header.timestamp, header.marker⟩, depacketizer)
    else if nalType = format.aggregation then
      let nalus := aggregated (rtpPayload.drop format.headerLen)
      if nalus.isEmpty then (none, depacketizer)
      else (some ⟨nalus, nalus.any format.keyframeNal, header.timestamp, header.marker⟩, depacketizer)
    else if nalType = format.fragmentation then depacketizer.depacketizeFragment rtpPayload header
    else (none, depacketizer)

def receivePacket (depacketizer : Depacketizer format) (packet : Bytes) :
    Option DepackResult × Depacketizer format :=
  match parseRtpHeader packet with
  | none => (none, depacketizer)
  | some header => depacketizer.depacketize (packet.drop header.headerLen) header

def receive (depacketizer : Depacketizer format) : List Bytes → List DepackResult × Depacketizer format
  | [] => ([], depacketizer)
  | packet :: rest =>
      let (result, next) := depacketizer.receivePacket packet
      let (more, last) := next.receive rest
      (result.toList ++ more, last)

theorem receive_append (depacketizer : Depacketizer format) (first second : List Bytes) :
    depacketizer.receive (first ++ second) =
      ((depacketizer.receive first).1 ++ ((depacketizer.receive first).2.receive second).1,
        ((depacketizer.receive first).2.receive second).2) := by
  induction first generalizing depacketizer with
  | nil => rfl
  | cons packet rest ih => simp [receive, ih]

def pending (depacketizer : Depacketizer format) : Option Bytes :=
  if depacketizer.fuActive then some depacketizer.fuBuf else none

end Depacketizer

def DEFAULT_RTP_MTU : Nat := 1400

-- `mtu_covers` is what `with_mtu` asserts; the payload type shares its byte
-- with the marker bit.
structure Packetizer (format : NalFormat) where
  ssrc : UInt32
  payloadType : UInt8
  sequence : UInt16
  mtu : Nat
  payload_type_short : payloadType < 0x80
  mtu_covers : format.headerLen + 2 ≤ mtu

abbrev H264Packetizer := Packetizer h264

abbrev HevcPacketizer := Packetizer hevc

def H264Packetizer.new (ssrc : UInt32) (payloadType : UInt8) (initialSequence : UInt16)
    (short : payloadType < 0x80) : H264Packetizer :=
  ⟨ssrc, payloadType, initialSequence, DEFAULT_RTP_MTU, short, by decide⟩

def HevcPacketizer.new (ssrc : UInt32) (payloadType : UInt8) (initialSequence : UInt16)
    (short : payloadType < 0x80) : HevcPacketizer :=
  ⟨ssrc, payloadType, initialSequence, DEFAULT_RTP_MTU, short, by decide⟩

def fuHeader (nalType : UInt8) (isStart isEnd : Bool) : UInt8 :=
  let started := if isStart then nalType ||| 0x80 else nalType
  if isEnd then started ||| 0x40 else started

namespace NalFormat

def fuPayload (format : NalFormat) (nalu : Bytes) (fragment : Fragment UInt8) : Bytes :=
  format.fuIndicator (byteAt nalu 0) ::
    (format.headerTail nalu ++
      fuHeader (format.nalType (byteAt nalu 0)) fragment.first fragment.last :: fragment.part)

end NalFormat

namespace Packetizer

variable {format : NalFormat}

def withMtu (packetizer : Packetizer format) (mtu : Nat) (covers : format.headerLen + 2 ≤ mtu) : Packetizer format :=
  { packetizer with mtu := mtu, mtu_covers := covers }

def emitPacket (packetizer : Packetizer format) (marker : Bool) (timestamp : UInt32) (payload : Bytes) :
    Bytes × Packetizer format :=
  (writeRtpHeader packetizer.payloadType packetizer.sequence timestamp packetizer.ssrc marker ++ payload,
    { packetizer with sequence := packetizer.sequence + 1 })

def chunkSize (packetizer : Packetizer format) : Nat := packetizer.mtu - (format.headerLen + 1)

theorem chunk_size_positive (packetizer : Packetizer format) : 0 < packetizer.chunkSize := by
  have covers := packetizer.mtu_covers
  unfold chunkSize
  omega

def emitFragments (packetizer : Packetizer format) (nalu : Bytes) (timestamp : UInt32) (endOfAu : Bool) :
    List (Fragment UInt8) → List Bytes × Packetizer format
  | [] => ([], packetizer)
  | fragment :: rest =>
      let (packet, next) :=
        packetizer.emitPacket (endOfAu && fragment.last) timestamp (format.fuPayload nalu fragment)
      let (more, last) := next.emitFragments nalu timestamp endOfAu rest
      (packet :: more, last)

def packetize (packetizer : Packetizer format) (nalu : Bytes) (timestamp : UInt32) (endOfAu : Bool) :
    List Bytes × Packetizer format :=
  if nalu.length < format.headerLen then ([], packetizer)
  else if nalu.length ≤ packetizer.mtu then
    let (packet, next) := packetizer.emitPacket endOfAu timestamp nalu
    ([packet], next)
  else
    packetizer.emitFragments nalu timestamp endOfAu
      (Fragment.cut packetizer.chunkSize packetizer.chunk_size_positive true (nalu.drop format.headerLen))

end Packetizer

namespace Packetizer

variable {format : NalFormat}

def emittedHeader (packetizer : Packetizer format) (marker : Bool) (timestamp : UInt32) : RtpHeader :=
  ⟨packetizer.payloadType, packetizer.sequence, timestamp, packetizer.ssrc, marker, 12⟩

theorem parse_emitted (packetizer : Packetizer format) (marker : Bool) (timestamp : UInt32) (payload : Bytes) :
    parseRtpHeader (packetizer.emitPacket marker timestamp payload).1 =
      some (packetizer.emittedHeader marker timestamp) :=
  parse_written_header packetizer.payloadType packetizer.sequence timestamp packetizer.ssrc marker payload
    packetizer.payload_type_short

theorem receive_emitted (packetizer : Packetizer format) (depacketizer : Depacketizer format) (marker : Bool)
    (timestamp : UInt32) (payload : Bytes) :
    depacketizer.receivePacket (packetizer.emitPacket marker timestamp payload).1 =
      depacketizer.depacketize payload (packetizer.emittedHeader marker timestamp) := by
  have body : (packetizer.emitPacket marker timestamp payload).1.drop 12 = payload :=
    List.drop_left' (write_rtp_header_length ..)
  rw [Depacketizer.receivePacket, parse_emitted]
  exact congrArg (depacketizer.depacketize · (packetizer.emittedHeader marker timestamp)) body

end Packetizer

end Lvqr.Rtp
