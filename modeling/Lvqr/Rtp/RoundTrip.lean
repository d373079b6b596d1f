import Lvqr.Rtp.Packetizer

set_option autoImplicit false

namespace Lvqr.Rtp

inductive NalCodec where
  | h264
  | hevc
deriving DecidableEq, Repr

namespace NalCodec

def format : NalCodec → NalFormat
  | .h264 => Rtp.h264
  | .hevc => Rtp.hevc

-- H.264: forbidden bit clear and type 1 to 23; HEVC: type 0 to 47.
def legalHeader (codec : NalCodec) (byte : UInt8) : Bool :=
  match codec with
  | .h264 => byte &&& 0x80 == 0 && codec.format.isSingle (codec.format.nalType byte)
  | .hevc => codec.format.isSingle (codec.format.nalType byte)

theorem legal_is_single (codec : NalCodec) (byte : UInt8) (legal : codec.legalHeader byte) :
    codec.format.isSingle (codec.format.nalType byte) = true := by
  cases codec with
  | h264 => exact (Bool.and_eq_true_iff.mp legal).2
  | hevc => exact legal

theorem header_positive (codec : NalCodec) : 0 < codec.format.headerLen := by
  cases codec <;> decide

-- What the two header bytes of a fragment say, for each header of a unit.
theorem header_bytes (codec : NalCodec) (byte : UInt8) :
    codec.format.nalType (codec.format.fuIndicator byte) = codec.format.fragmentation ∧
      codec.format.nalType byte &&& codec.format.fuTypeMask = codec.format.nalType byte ∧
      (codec.legalHeader byte →
        codec.format.restoreHeader (codec.format.fuIndicator byte) (codec.format.nalType byte) = byte) := by
  revert byte
  apply Bits.forall_byte
  cases codec <;> decide +kernel

theorem fu_header_bits (codec : NalCodec) (nalType : UInt8) (isStart isEnd : Bool) :
    nalType &&& codec.format.fuTypeMask = nalType →
      (fuHeader nalType isStart isEnd &&& 0x80 != 0) = isStart ∧ (fuHeader nalType isStart isEnd &&& 0x40 != 0) = isEnd ∧
        fuHeader nalType isStart isEnd &&& codec.format.fuTypeMask = nalType := by
  revert nalType
  apply Bits.forall_byte
  revert isStart isEnd
  cases codec <;> decide +kernel

theorem indicator_type (codec : NalCodec) (byte : UInt8) :
    codec.format.nalType (codec.format.fuIndicator byte) = codec.format.fragmentation :=
  (header_bytes codec byte).1

theorem fragmentation_not_single (codec : NalCodec) : codec.format.isSingle codec.format.fragmentation = false := by
  cases codec <;> decide

theorem fragmentation_ne_aggregation (codec : NalCodec) : codec.format.fragmentation ≠ codec.format.aggregation := by
  cases codec <;> decide

theorem fu_header_start (codec : NalCodec) (byte : UInt8) (isStart isEnd : Bool) :
    (fuHeader (codec.format.nalType byte) isStart isEnd &&& 0x80 != 0) = isStart :=
  (fu_header_bits codec _ isStart isEnd (header_bytes codec byte).2.1).1

theorem fu_header_end (codec : NalCodec) (byte : UInt8) (isStart isEnd : Bool) :
    (fuHeader (codec.format.nalType byte) isStart isEnd &&& 0x40 != 0) = isEnd :=
  (fu_header_bits codec _ isStart isEnd (header_bytes codec byte).2.1).2.1

theorem fu_header_type (codec : NalCodec) (byte : UInt8) (isStart isEnd : Bool) :
    fuHeader (codec.format.nalType byte) isStart isEnd &&& codec.format.fuTypeMask = codec.format.nalType byte :=
  (fu_header_bits codec _ isStart isEnd (header_bytes codec byte).2.1).2.2

-- A set forbidden bit of an H.264 header would be lost here.
theorem header_restored (codec : NalCodec) (byte : UInt8) (legal : codec.legalHeader byte) :
    codec.format.restoreHeader (codec.format.fuIndicator byte) (codec.format.nalType byte) = byte :=
  (header_bytes codec byte).2.2 legal

end NalCodec

structure Nal (codec : NalCodec) where
  bytes : Bytes
  timestamp : UInt32
  long : codec.format.headerLen ≤ bytes.length
  legal : codec.legalHeader (byteAt bytes 0)

namespace Nal

variable {codec : NalCodec}

def result (nal : Nal codec) (marker : Bool) : DepackResult :=
  ⟨[nal.bytes], codec.format.isKeyframe (codec.format.nalType (byteAt nal.bytes 0)), nal.timestamp, marker⟩

def header (nal : Nal codec) : Bytes := nal.bytes.take codec.format.headerLen

def body (nal : Nal codec) : Bytes := nal.bytes.drop codec.format.headerLen

theorem body_ne_nil (nal : Nal codec) (mtu : Nat) (covers : codec.format.headerLen + 2 ≤ mtu)
    (large : ¬ nal.bytes.length ≤ mtu) : nal.body ≠ [] := by
  intro empty
  have short : nal.bytes.length ≤ codec.format.headerLen := List.drop_eq_nil_iff.mp empty
  omega

theorem header_append_body (nal : Nal codec) : nal.header ++ nal.body = nal.bytes :=
  List.take_append_drop codec.format.headerLen nal.bytes

theorem header_eq (nal : Nal codec) : nal.header = byteAt nal.bytes 0 :: codec.format.headerTail nal.bytes := by
  have positive := codec.header_positive
  have long := nal.long
  unfold header NalFormat.headerTail byteAt
  cases found : nal.bytes with
  | nil =>
      rw [found, List.length_nil] at long
      omega
  | cons byte rest =>
      cases width : codec.format.headerLen with
      | zero => omega
      | succ width => rfl

theorem header_tail_length (nal : Nal codec) :
    (codec.format.headerTail nal.bytes).length + 1 = codec.format.headerLen := by
  have positive := codec.header_positive
  have long := nal.long
  simp only [NalFormat.headerTail, List.length_drop, List.length_take]
  omega

def flags (nal : Nal codec) (fragment : Fragment UInt8) : UInt8 :=
  fuHeader (codec.format.nalType (byteAt nal.bytes 0)) fragment.first fragment.last

def indicator (nal : Nal codec) : Bytes :=
  codec.format.fuIndicator (byteAt nal.bytes 0) :: codec.format.headerTail nal.bytes

theorem indicator_length (nal : Nal codec) : nal.indicator.length = codec.format.headerLen :=
  nal.header_tail_length

theorem fu_payload_eq (nal : Nal codec) (fragment : Fragment UInt8) :
    codec.format.fuPayload nal.bytes fragment = nal.indicator ++ nal.flags fragment :: fragment.part := rfl

theorem fu_payload_length (nal : Nal codec) (fragment : Fragment UInt8) :
    (codec.format.fuPayload nal.bytes fragment).length = codec.format.headerLen + (fragment.part.length + 1) := by
  rw [fu_payload_eq, List.length_append, indicator_length, List.length_cons]

theorem fu_payload_flags (nal : Nal codec) (fragment : Fragment UInt8) :
    byteAt (codec.format.fuPayload nal.bytes fragment) codec.format.headerLen = nal.flags fragment := by
  rw [fu_payload_eq, ← nal.indicator_length, byteAt]
  simp

theorem fu_payload_part (nal : Nal codec) (fragment : Fragment UInt8) :
    (codec.format.fuPayload nal.bytes fragment).drop (codec.format.headerLen + 1) = fragment.part := by
  rw [fu_payload_eq, ← nal.indicator_length]
  simp

theorem fu_payload_tail (nal : Nal codec) (fragment : Fragment UInt8) :
    codec.format.headerTail (codec.format.fuPayload nal.bytes fragment) = codec.format.headerTail nal.bytes := by
  have taken : (nal.indicator ++ nal.flags fragment :: fragment.part).take codec.format.headerLen = nal.indicator :=
    List.take_left' nal.indicator_length
  rw [fu_payload_eq, NalFormat.headerTail, taken]
  rfl

theorem fu_payload_type (nal : Nal codec) (fragment : Fragment UInt8) :
    codec.format.nalType (byteAt (codec.format.fuPayload nal.bytes fragment) 0) = codec.format.fragmentation :=
  codec.indicator_type (byteAt nal.bytes 0)

theorem fu_payload_restored (nal : Nal codec) (fragment : Fragment UInt8) :
    codec.format.restoreHeader (byteAt (codec.format.fuPayload nal.bytes fragment) 0)
        (codec.format.nalType (byteAt nal.bytes 0)) = byteAt nal.bytes 0 :=
  codec.header_restored (byteAt nal.bytes 0) nal.legal

end Nal

def wholeResult (format : NalFormat) (timestamp : UInt32) (marker : Bool) (whole : Bytes) : DepackResult :=
  ⟨[whole], format.keyframeNal whole, timestamp, marker⟩

namespace Depacketizer

variable {codec : NalCodec}

theorem depacketize_fu_payload (depacketizer : Depacketizer codec.format) (nal : Nal codec)
    (fragment : Fragment UInt8) (header : RtpHeader) :
    depacketizer.depacketize (codec.format.fuPayload nal.bytes fragment) header =
      depacketizer.depacketizeFragment (codec.format.fuPayload nal.bytes fragment) header := by
  have size := nal.fu_payload_length fragment
  have long : ¬ (codec.format.fuPayload nal.bytes fragment).length < codec.format.headerLen := by omega
  simp only [depacketize, if_neg long, nal.fu_payload_type fragment, codec.fragmentation_not_single,
    Bool.false_eq_true, if_false, codec.fragmentation_ne_aggregation, if_true]

-- A fragment on the wire does to the depacketizer what the fragment, led by the
-- NAL header, does to the collector.
theorem depacketize_fragment (depacketizer : Depacketizer codec.format) (nal : Nal codec)
    (fragment : Fragment UInt8) (header : RtpHeader) :
    let step := depacketizer.depacketize (codec.format.fuPayload nal.bytes fragment) header
    let collected := Fragment.collect depacketizer.pending (Fragment.lead nal.header fragment)
    step.1 = collected.1.map (wholeResult codec.format header.timestamp header.marker) ∧
      step.2.pending = collected.2 := by
  have size := nal.fu_payload_length fragment
  have long : ¬ (codec.format.fuPayload nal.bytes fragment).length < codec.format.headerLen + 1 := by omega
  rw [depacketize_fu_payload]
  simp only [depacketizeFragment, if_neg long, nal.fu_payload_flags, nal.fu_payload_part, nal.fu_payload_tail, Nal.flags,
    codec.fu_header_start, codec.fu_header_end, codec.fu_header_type, nal.fu_payload_restored]
  simp only [Fragment.collect, Fragment.lead, nal.header_eq, pending]
  cases fragment.first with
  | true =>
      cases fragment.last with
      | true => simp [wholeResult]
      | false => simp
  | false =>
      cases active : depacketizer.fuActive with
      | false => simp [active]
      | true =>
          cases fragment.last with
          | true => simp [wholeResult]
          | false => simp

theorem receive_fragment (packetizer : Packetizer codec.format) (depacketizer : Depacketizer codec.format)
    (nal : Nal codec) (endOfAu : Bool) (fragment : Fragment UInt8) :
    let received := depacketizer.receivePacket
      (packetizer.emitPacket (endOfAu && fragment.last) nal.timestamp (codec.format.fuPayload nal.bytes fragment)).1
    let collected := Fragment.collect depacketizer.pending (Fragment.lead nal.header fragment)
    received.1 = collected.1.map (wholeResult codec.format nal.timestamp endOfAu) ∧
      received.2.pending = collected.2 := by
  intro received collected
  obtain ⟨result, pending⟩ := depacketizer.depacketize_fragment nal fragment
    (packetizer.emittedHeader (endOfAu && fragment.last) nal.timestamp)
  rw [← packetizer.receive_emitted] at result pending
  refine ⟨result.trans ?_, pending⟩
  -- A unit is complete only at a last fragment, which carries the caller's marker.
  cases complete : collected.1 with
  | none => rfl
  | some whole =>
      have last : fragment.last = true :=
        Fragment.collect_whole_last depacketizer.pending (Fragment.lead nal.header fragment) whole complete
      simp only [last, Bool.and_true, Option.map_some, Packetizer.emittedHeader]

theorem receive_fragments (packetizer : Packetizer codec.format) (depacketizer : Depacketizer codec.format)
    (nal : Nal codec) (endOfAu : Bool) (fragments : List (Fragment UInt8)) :
    let received :=
      depacketizer.receive (packetizer.emitFragments nal.bytes nal.timestamp endOfAu fragments).1
    let collected := Fragment.collectAll depacketizer.pending (fragments.map (Fragment.lead nal.header))
    received.1 = collected.1.map (wholeResult codec.format nal.timestamp endOfAu) ∧
      received.2.pending = collected.2 := by
  induction fragments generalizing packetizer depacketizer with
  | nil => exact ⟨rfl, rfl⟩
  | cons fragment rest ih =>
      obtain ⟨result, pending⟩ := depacketizer.receive_fragment packetizer nal endOfAu fragment
      let emitted := packetizer.emitPacket (endOfAu && fragment.last) nal.timestamp
        (codec.format.fuPayload nal.bytes fragment)
      obtain ⟨results, left⟩ := ih emitted.2 (depacketizer.receivePacket emitted.1).2
      rw [pending] at results left
      simp only [Packetizer.emitFragments, receive, List.map_cons, Fragment.collectAll, List.map_append]
      refine ⟨?_, left⟩
      rw [result, results, Option.toList_map]

theorem receive_nal (packetizer : Packetizer codec.format) (depacketizer : Depacketizer codec.format)
    (nal : Nal codec) (endOfAu : Bool) :
    (depacketizer.receive (packetizer.packetize nal.bytes nal.timestamp endOfAu).1).1 = [nal.result endOfAu] := by
  have long := nal.long
  have notShort : ¬ nal.bytes.length < codec.format.headerLen := by omega
  by_cases fits : nal.bytes.length ≤ packetizer.mtu
  · have single := codec.legal_is_single (byteAt nal.bytes 0) nal.legal
    simp only [Packetizer.packetize, if_neg notShort, if_pos fits, receive, packetizer.receive_emitted, depacketize,
      single, if_true]
    rfl
  · have nonempty : nal.body ≠ [] := nal.body_ne_nil packetizer.mtu packetizer.mtu_covers fits
    have collected := Fragment.collect_cut packetizer.chunkSize packetizer.chunk_size_positive nal.header nal.body
      nonempty depacketizer.pending
    have received := (depacketizer.receive_fragments packetizer nal endOfAu
      (Fragment.cut packetizer.chunkSize packetizer.chunk_size_positive true nal.body)).1
    rw [collected, nal.header_append_body] at received
    simp only [Packetizer.packetize, if_neg notShort, if_neg fits]
    rw [← Nal.body, received]
    simp [wholeResult, Nal.result, NalFormat.keyframeNal, long]

end Depacketizer

namespace Packetizer

variable {codec : NalCodec}

def packetizeUnit (packetizer : Packetizer codec.format) : List (Nal codec) → List Bytes × Packetizer codec.format
  | [] => ([], packetizer)
  | nal :: rest =>
      let (packets, next) := packetizer.packetize nal.bytes nal.timestamp rest.isEmpty
      let (more, last) := next.packetizeUnit rest
      (packets ++ more, last)

def packetizeUnits (packetizer : Packetizer codec.format) :
    List (List (Nal codec)) → List (List Bytes) × Packetizer codec.format
  | [] => ([], packetizer)
  | unit :: rest =>
      let (packets, next) := packetizer.packetizeUnit unit
      let (more, last) := next.packetizeUnits rest
      (packets :: more, last)

end Packetizer

def unitResults {codec : NalCodec} : List (Nal codec) → List DepackResult
  | [] => []
  | nal :: rest => nal.result rest.isEmpty :: unitResults rest

theorem receive_unit {codec : NalCodec} (packetizer : Packetizer codec.format)
    (depacketizer : Depacketizer codec.format) (unit : List (Nal codec)) :
    (depacketizer.receive (packetizer.packetizeUnit unit).1).1 = unitResults unit := by
  induction unit generalizing packetizer depacketizer with
  | nil => rfl
  | cons nal rest ih =>
      simp only [Packetizer.packetizeUnit, depacketizer.receive_append, depacketizer.receive_nal, unitResults, ih]
      rfl

theorem receive_units {codec : NalCodec} (packetizer : Packetizer codec.format)
    (depacketizer : Depacketizer codec.format) (units : List (List (Nal codec))) :
    (depacketizer.receive (packetizer.packetizeUnits units).1.flatten).1 = units.flatMap unitResults := by
  induction units generalizing packetizer depacketizer with
  | nil => rfl
  | cons unit rest ih =>
      simp only [Packetizer.packetizeUnits, List.flatten_cons, depacketizer.receive_append, receive_unit, ih,
        List.flatMap_cons]

end Lvqr.Rtp
