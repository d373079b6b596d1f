import Lvqr.Codec.Scte35
import Lvqr.Lib.Bits

set_option autoImplicit false

-- A splice_info_section as an encoder writes it, for the commands whose fields the
-- parser returns and splice_null. Reserved bits are the encoder's to choose.
namespace Lvqr.Codec

-- Seven bits in front of a 33-bit number: five bytes.
def thirtyThree (high : Nat) (number : Fin (2 ^ 33)) : Bytes :=
  UInt8.ofNat (high * 2 + number.val / 2 ^ 32) :: BigEndian.bytes 4 number.val

inductive SpliceTime where
  | specified (reserved : Fin 64) (ptsTime : Fin (2 ^ 33))
  | unspecified (reserved : Fin 128)
deriving DecidableEq, Repr

def SpliceTime.encode : SpliceTime → Bytes
  | specified reserved ptsTime => thirtyThree (64 + reserved.val) ptsTime
  | unspecified reserved => [UInt8.ofNat reserved.val]

def SpliceTime.pts : SpliceTime → Option Nat
  | specified _ ptsTime => some ptsTime.val
  | unspecified _ => none

structure BreakDuration where
  autoReturn : Bool
  reserved : Fin 64
  duration : Fin (2 ^ 33)
deriving DecidableEq, Repr

def BreakDuration.encode (break_ : BreakDuration) : Bytes :=
  thirtyThree (break_.autoReturn.toNat * 64 + break_.reserved.val) break_.duration

structure Components (Component : Type) where
  list : List Component
  counted : list.length < 256

inductive SpliceMode where
  | program (time : SpliceTime)
  | programImmediate
  | components (components : Components (UInt8 × SpliceTime))
  | componentsImmediate (tags : Components UInt8)

namespace SpliceMode

def isProgram : SpliceMode → Bool
  | .program _ => true
  | .programImmediate => true
  | .components _ => false
  | .componentsImmediate _ => false

def immediate : SpliceMode → Bool
  | .program _ => false
  | .programImmediate => true
  | .components _ => false
  | .componentsImmediate _ => true

def encode : SpliceMode → Bytes
  | .program time => time.encode
  | .programImmediate => []
  | .components timed =>
      UInt8.ofNat timed.list.length :: timed.list.flatMap fun component => component.1 :: component.2.encode
  | .componentsImmediate tags => UInt8.ofNat tags.list.length :: tags.list

-- The times of the components are not surfaced.
def pts : SpliceMode → Option Nat
  | .program time => time.pts
  | .programImmediate => none
  | .components _ => none
  | .componentsImmediate _ => none

end SpliceMode

structure SpliceEvent where
  outOfNetwork : Bool
  mode : SpliceMode
  breakDuration : Option BreakDuration
  reserved : Fin 16
  uniqueProgramId : UInt16
  availNum : UInt8
  availsExpected : UInt8

def flagByte (outOfNetwork program duration immediate : Bool) (reserved : Fin 16) : UInt8 :=
  UInt8.ofNat (outOfNetwork.toNat * 128 + program.toNat * 64 + duration.toNat * 32 + immediate.toNat * 16 + reserved.val)

def SpliceEvent.encode (event : SpliceEvent) : Bytes :=
  flagByte event.outOfNetwork event.mode.isProgram event.breakDuration.isSome event.mode.immediate event.reserved ::
    (event.mode.encode ++ ((event.breakDuration.map BreakDuration.encode).getD [] ++
      (BigEndian.bytes 2 event.uniqueProgramId.toNat ++ [event.availNum, event.availsExpected])))

-- A cancellation has no event behind its flag.
structure SpliceInsert where
  eventId : UInt32
  reserved : Fin 128
  event : Option SpliceEvent

def SpliceInsert.encode (insert : SpliceInsert) : Bytes :=
  BigEndian.bytes 4 insert.eventId.toNat ++
    match insert.event with
    | none => [UInt8.ofNat (128 + insert.reserved.val)]
    | some event => UInt8.ofNat insert.reserved.val :: event.encode

inductive SpliceCommand where
  | spliceNull
  | timeSignal (time : SpliceTime)
  | spliceInsert (insert : SpliceInsert)

namespace SpliceCommand

def commandType : SpliceCommand → UInt8
  | spliceNull => 0x00
  | timeSignal _ => CMD_TIME_SIGNAL
  | spliceInsert _ => CMD_SPLICE_INSERT

def encode : SpliceCommand → Bytes
  | spliceNull => []
  | timeSignal time => time.encode
  | spliceInsert insert => insert.encode

def fields : SpliceCommand → CommandFields
  | spliceNull => ⟨none, false, false, none, none⟩
  | timeSignal time => ⟨none, false, false, time.pts, none⟩
  | spliceInsert insert =>
      match insert.event with
      | none => ⟨some insert.eventId.toNat, true, false, none, none⟩
      | some event =>
          ⟨some insert.eventId.toNat, false, event.outOfNetwork, event.mode.pts,
            event.breakDuration.map fun break_ => break_.duration.val⟩

end SpliceCommand

-- `legacyLength` stands for a command length of 0xFFF, which leaves it open.
structure SpliceInfoSection where
  sectionFlags : Fin 16
  protocolVersion : UInt8
  encryptionAlgorithm : Fin 64
  ptsAdjustment : Fin (2 ^ 33)
  cwIndex : UInt8
  tier : Fin 4096
  legacyLength : Bool
  command : SpliceCommand
  descriptors : Bytes
  fits : 17 + command.encode.length + descriptors.length < 4096

namespace SpliceInfoSection

def sectionLength (sect : SpliceInfoSection) : Nat := 17 + sect.command.encode.length + sect.descriptors.length

def commandLength (sect : SpliceInfoSection) : Nat :=
  if sect.legacyLength then 0xFFF else sect.command.encode.length

def header (sect : SpliceInfoSection) : Bytes :=
  [TABLE_ID, UInt8.ofNat (sect.sectionFlags.val * 16 + sect.sectionLength / 256), UInt8.ofNat sect.sectionLength,
    sect.protocolVersion] ++ thirtyThree sect.encryptionAlgorithm.val sect.ptsAdjustment ++
    [sect.cwIndex, UInt8.ofNat (sect.tier.val / 16), UInt8.ofNat (sect.tier.val % 16 * 16 + sect.commandLength / 256),
      UInt8.ofNat sect.commandLength, sect.command.commandType]

def payload (sect : SpliceInfoSection) : Bytes :=
  sect.header ++ (sect.command.encode ++ (BigEndian.bytes 2 sect.descriptors.length ++ sect.descriptors))

def encode (sect : SpliceInfoSection) : Bytes :=
  sect.payload ++ BigEndian.bytes 4 (crc32Mpeg2 sect.payload).toNat

def info (sect : SpliceInfoSection) : SpliceInfo where
  commandType := sect.command.commandType
  ptsAdjustment := sect.ptsAdjustment.val
  pts := sect.command.fields.pts
  duration := sect.command.fields.duration
  eventId := sect.command.fields.eventId
  cancel := sect.command.fields.cancel
  outOfNetwork := sect.command.fields.outOfNetwork
  raw := sect.encode

end SpliceInfoSection

@[simp] theorem thirty_three_length (high : Nat) (number : Fin (2 ^ 33)) : (thirtyThree high number).length = 5 := by
  simp [thirtyThree]

theorem thirty_three_bits_written (high : Nat) (number : Fin (2 ^ 33)) (rest : Bytes) :
    thirtyThreeBits (thirtyThree high number ++ rest) = number.val := by
  have low : (UInt8.ofNat (high * 2 + number.val / 2 ^ 32) &&& 0x01).toNat = number.val / 2 ^ 32 := by
    have bound := number.isLt
    have one : (0x01 : UInt8).toNat = 2 ^ 1 - 1 := rfl
    rw [UInt8.toNat_and, UInt8.toNat_ofNat', one, Bits.mask_eq_mod]
    omega
  have top : byteOf (thirtyThree high number ++ rest) 0 = UInt8.ofNat (high * 2 + number.val / 2 ^ 32) := rfl
  have four : ((thirtyThree high number ++ rest).drop 1).take 4 = BigEndian.bytes 4 number.val := by
    have tail : (thirtyThree high number ++ rest).drop 1 = BigEndian.bytes 4 number.val ++ rest := rfl
    rw [tail, List.take_left' (BigEndian.bytes_length 4 number.val)]
  rw [thirtyThreeBits, top, low, four, BigEndian.value_bytes_mod]
  omega

theorem high_bit (number : Nat) (small : number < 256) : UInt8.ofNat number &&& 0x80 = 0 ↔ number < 128 := by
  have all : ∀ i : Fin 256, UInt8.ofNat i.val &&& 0x80 = 0 ↔ i.val < 128 := by decide +kernel
  exact all ⟨number, small⟩

theorem parse_time_inline (time : SpliceTime) (rest : Bytes) :
    parseSpliceTimeInline (time.encode ++ rest) = .ok (time.pts, time.encode.length) := by
  cases time with
  | specified reserved ptsTime =>
      have nonempty : thirtyThree (64 + reserved.val) ptsTime ++ rest ≠ [] := by simp [thirtyThree]
      have top : byteOf (thirtyThree (64 + reserved.val) ptsTime ++ rest) 0 =
          UInt8.ofNat ((64 + reserved.val) * 2 + ptsTime.val / 2 ^ 32) := rfl
      have flag : ¬ UInt8.ofNat ((64 + reserved.val) * 2 + ptsTime.val / 2 ^ 32) &&& 0x80 = 0 := by
        have bounds := And.intro reserved.isLt ptsTime.isLt
        rw [high_bit _ (by omega)]
        omega
      have long : ¬ (thirtyThree (64 + reserved.val) ptsTime ++ rest).length < 5 := by
        rw [List.length_append, thirty_three_length]
        omega
      rw [SpliceTime.encode, parseSpliceTimeInline, if_neg nonempty, top, if_neg flag, if_neg long,
        thirty_three_bits_written, thirty_three_length, SpliceTime.pts]
  | unspecified reserved =>
      have top : byteOf ([UInt8.ofNat reserved.val] ++ rest) 0 = UInt8.ofNat reserved.val := rfl
      have flag : UInt8.ofNat reserved.val &&& 0x80 = 0 := by
        have bound := reserved.isLt
        rw [high_bit _ (by omega)]
        exact bound
      rw [SpliceTime.encode, parseSpliceTimeInline, if_neg (by simp), top, if_pos flag, SpliceTime.pts]
      rfl

section Cursor

variable {body rest : Bytes} {cursor : Nat}

-- What the cursor stands at when the encoder's next bytes begin there.
theorem cursor_byte (byte : UInt8) (here : body.drop cursor = byte :: rest) :
    byteOf body cursor = byte ∧ body.drop (cursor + 1) = rest ∧ cursor < body.length := by
  have inside : cursor < body.length := by
    by_contra past
    rw [List.drop_eq_nil_of_le (Nat.le_of_not_lt past)] at here
    cases here
  have first : body.drop cursor = body[cursor] :: body.drop (cursor + 1) := List.drop_eq_getElem_cons inside
  rw [first] at here
  injection here with byteHere restHere
  refine ⟨?_, restHere, inside⟩
  rw [byteOf, List.getD_eq_getElem _ _ inside, byteHere]

theorem cursor_past (front : Bytes) (here : body.drop cursor = front ++ rest) :
    body.drop (cursor + front.length) = rest := by
  rw [← List.drop_drop, here, List.drop_left]

theorem skip_components_immediate (tags : Bytes) (here : body.drop cursor = tags ++ rest) :
    skipComponents body true tags.length cursor = .ok (cursor + tags.length) := by
  induction tags generalizing cursor with
  | nil => rfl
  | cons tag tags ih =>
      obtain ⟨-, next, inside⟩ := cursor_byte tag here
      rw [List.length_cons, skipComponents, if_neg (Nat.not_le.mpr inside), if_pos rfl, ih next]
      congr 1
      omega

theorem skip_components_timed (components : List (UInt8 × SpliceTime))
    (here : body.drop cursor = (components.flatMap fun component => component.1 :: component.2.encode) ++ rest) :
    skipComponents body false components.length cursor =
      .ok (cursor + (components.flatMap fun component => component.1 :: component.2.encode).length) := by
  induction components generalizing cursor with
  | nil => rfl
  | cons component components ih =>
      rw [List.flatMap_cons, List.cons_append, List.cons_append, List.append_assoc] at here
      obtain ⟨-, next, inside⟩ := cursor_byte component.1 here
      have later := cursor_past component.2.encode next
      rw [List.length_cons, skipComponents, if_neg (Nat.not_le.mpr inside), if_neg Bool.false_ne_true, next,
        parse_time_inline]
      simp only [bind, Except.bind]
      rw [ih later, List.flatMap_cons, List.length_append, List.length_cons]
      congr 1
      omega

-- The mode's part of an event, which ends where the break duration begins.
theorem event_mode (mode : SpliceMode) (program : Insert.program body = mode.isProgram)
    (immediate : Insert.immediate body = mode.immediate) (here : body.drop 6 = mode.encode ++ rest) :
    ∃ timed, Insert.spliceTime body = .ok timed ∧ timed.1 = mode.pts ∧
      Insert.componentLoop body timed.2 = .ok (6 + mode.encode.length) := by
  cases mode with
  | program time =>
      refine ⟨(time.pts, 6 + time.encode.length), ?_, rfl, ?_⟩
      · rw [Insert.spliceTime, program, immediate, here, SpliceMode.encode, parse_time_inline]
        rfl
      · rw [Insert.componentLoop, program]
        rfl
  | programImmediate =>
      refine ⟨(none, 6), ?_, rfl, ?_⟩
      · rw [Insert.spliceTime, program, immediate]
        rfl
      · rw [Insert.componentLoop, program]
        rfl
  | components components =>
      obtain ⟨count, loop, inside⟩ := cursor_byte (UInt8.ofNat components.list.length) here
      refine ⟨(none, 6), ?_, rfl, ?_⟩
      · rw [Insert.spliceTime, program]
        rfl
      · have skipped := skip_components_timed components.list loop
        have counted : (UInt8.ofNat components.list.length).toNat = components.list.length :=
          Bits.byte_value _ components.counted
        rw [Insert.componentLoop, program, immediate, count, counted, SpliceMode.isProgram, if_neg Bool.false_ne_true,
          if_neg (Nat.not_le.mpr inside), SpliceMode.immediate, skipped, SpliceMode.encode, List.length_cons]
        congr 1
        omega
  | componentsImmediate tags =>
      obtain ⟨count, loop, inside⟩ := cursor_byte (UInt8.ofNat tags.list.length) here
      refine ⟨(none, 6), ?_, rfl, ?_⟩
      · rw [Insert.spliceTime, program]
        rfl
      · have skipped := skip_components_immediate tags.list loop
        have counted : (UInt8.ofNat tags.list.length).toNat = tags.list.length := Bits.byte_value _ tags.counted
        rw [Insert.componentLoop, program, immediate, count, counted, SpliceMode.isProgram, if_neg Bool.false_ne_true,
          if_neg (Nat.not_le.mpr inside), SpliceMode.immediate, skipped, SpliceMode.encode, List.length_cons]
        congr 1
        omega

theorem event_duration (duration : Option BreakDuration) (flagged : Insert.durationFlag body = duration.isSome)
    (here : body.drop cursor = (duration.map BreakDuration.encode).getD [] ++ rest) :
    Insert.breakDuration body cursor = .ok (duration.map fun break_ => break_.duration.val) := by
  cases duration with
  | none =>
      rw [Insert.breakDuration, flagged]
      rfl
  | some break_ =>
      rw [Option.map_some, Option.getD_some, BreakDuration.encode] at here
      have long : ¬ body.length < cursor + 5 := by
        have lengths := congrArg List.length here
        rw [List.length_drop, List.length_append, thirty_three_length] at lengths
        omega
      rw [Insert.breakDuration, flagged, Option.isSome_some, if_pos rfl, if_neg long, here, thirty_three_bits_written]
      rfl

end Cursor

theorem flag_byte_bits (outOfNetwork program duration immediate : Bool) (reserved : Fin 16) :
    decide (flagByte outOfNetwork program duration immediate reserved &&& 0x80 ≠ 0) = outOfNetwork ∧
      decide (flagByte outOfNetwork program duration immediate reserved &&& 0x40 ≠ 0) = program ∧
      decide (flagByte outOfNetwork program duration immediate reserved &&& 0x20 ≠ 0) = duration ∧
      decide (flagByte outOfNetwork program duration immediate reserved &&& 0x10 ≠ 0) = immediate := by
  revert outOfNetwork program duration immediate reserved
  decide +kernel

theorem parse_event (eventId : UInt32) (reserved : Fin 128) (event : SpliceEvent) (rest : Bytes) :
    parseSpliceInsert ((SpliceInsert.mk eventId reserved (some event)).encode ++ rest) =
      .ok ⟨eventId.toNat, false, event.outOfNetwork, event.mode.pts,
        event.breakDuration.map fun break_ => break_.duration.val⟩ := by
  generalize written : (SpliceInsert.mk eventId reserved (some event)).encode ++ rest = body
  have shape : body = BigEndian.bytes 4 eventId.toNat ++ (UInt8.ofNat reserved.val :: (event.encode ++ rest)) := by
    rw [← written, SpliceInsert.encode, List.append_assoc, List.cons_append]
  have id : BigEndian.value (body.take 4) = eventId.toNat := by
    rw [shape, List.take_left' (BigEndian.bytes_length 4 _), BigEndian.value_bytes 4 _ eventId.toNat_lt]
  have fifth : byteOf body 4 = UInt8.ofNat reserved.val := by
    rw [shape]
    rfl
  have kept : ¬ byteOf body 4 &&& 0x80 ≠ 0 := by
    have bound := reserved.isLt
    rw [fifth, not_not, high_bit _ (by omega)]
    exact bound
  have flags : byteOf body 5 = flagByte event.outOfNetwork event.mode.isProgram event.breakDuration.isSome
      event.mode.immediate event.reserved := by
    rw [shape]
    rfl
  have loops : body.drop 6 = event.mode.encode ++ ((event.breakDuration.map BreakDuration.encode).getD [] ++
      ((BigEndian.bytes 2 event.uniqueProgramId.toNat ++ [event.availNum, event.availsExpected]) ++ rest)) := by
    rw [shape, SpliceEvent.encode, List.cons_append, List.append_assoc, List.append_assoc]
    rfl
  have long : 6 ≤ body.length := by
    rw [shape, SpliceEvent.encode]
    simp
    omega
  obtain ⟨out, program, duration, immediate⟩ := flag_byte_bits event.outOfNetwork event.mode.isProgram
    event.breakDuration.isSome event.mode.immediate event.reserved
  rw [← flags] at out program duration immediate
  obtain ⟨timed, time, pts, loop⟩ := event_mode event.mode program immediate loops
  have break_ := event_duration event.breakDuration duration (cursor_past _ loops)
  rw [parse_splice_insert_parts, if_neg (by omega), if_neg kept, if_neg (by omega), Insert.event, time]
  simp only [Except.bind, loop, break_, Except.map, id, out, pts]

theorem parse_cancelled (eventId : UInt32) (reserved : Fin 128) (rest : Bytes) :
    parseSpliceInsert ((SpliceInsert.mk eventId reserved none).encode ++ rest) =
      .ok ⟨eventId.toNat, true, false, none, none⟩ := by
  generalize written : (SpliceInsert.mk eventId reserved none).encode ++ rest = body
  have shape : body = BigEndian.bytes 4 eventId.toNat ++ (UInt8.ofNat (128 + reserved.val) :: rest) := by
    rw [← written, SpliceInsert.encode, List.append_assoc]
    rfl
  have id : BigEndian.value (body.take 4) = eventId.toNat := by
    rw [shape, List.take_left' (BigEndian.bytes_length 4 _), BigEndian.value_bytes 4 _ eventId.toNat_lt]
  have cancelled : byteOf body 4 &&& 0x80 ≠ 0 := by
    have fifth : byteOf body 4 = UInt8.ofNat (128 + reserved.val) := by
      rw [shape]
      rfl
    have bound := reserved.isLt
    rw [fifth, ne_eq, high_bit _ (by omega)]
    omega
  have long : 5 ≤ body.length := by
    rw [shape]
    simp
    omega
  rw [parse_splice_insert_parts, if_neg (by omega), if_pos cancelled, id]

theorem parse_command (command : SpliceCommand) (rest : Bytes) :
    parseCommand command.commandType false (command.encode ++ rest) = .ok command.fields := by
  cases command with
  | spliceNull => rfl
  | timeSignal time =>
      rw [parseCommand, if_neg Bool.false_ne_true, SpliceCommand.commandType, if_neg (by decide), if_pos rfl,
        parseSpliceTime, SpliceCommand.encode, parse_time_inline]
      rfl
  | spliceInsert insert =>
      obtain ⟨eventId, reserved, event⟩ := insert
      rw [parseCommand, if_neg Bool.false_ne_true, SpliceCommand.commandType, if_pos rfl, SpliceCommand.encode]
      cases event with
      | none =>
          rw [parse_cancelled]
          rfl
      | some event =>
          rw [parse_event]
          rfl

theorem low_nibble (high low : Nat) (small : low < 16) : (UInt8.ofNat (high * 16 + low) &&& 0x0F).toNat = low := by
  have four : (0x0F : UInt8).toNat = 2 ^ 4 - 1 := rfl
  rw [UInt8.toNat_and, UInt8.toNat_ofNat', four, Bits.mask_eq_mod]
  omega

namespace SpliceInfoSection

variable (sect : SpliceInfoSection) (trailing : Bytes)

theorem header_length : sect.header.length = 14 := rfl

theorem payload_length : sect.payload.length = sect.sectionLength - 1 := by
  rw [payload, List.length_append, header_length, List.length_append, List.length_append, BigEndian.bytes_length,
    sectionLength]
  omega

theorem encode_length : sect.encode.length = 3 + sect.sectionLength := by
  have payload := payload_length sect
  rw [encode, List.length_append, BigEndian.bytes_length, payload, sectionLength]
  omega

def behindHeader : Bytes :=
  sect.command.encode ++ (BigEndian.bytes 2 sect.descriptors.length ++ (sect.descriptors ++
    (BigEndian.bytes 4 (crc32Mpeg2 sect.payload).toNat ++ trailing)))

theorem encode_shape : sect.encode ++ trailing = sect.header ++ behindHeader sect trailing := by
  simp only [encode, payload, behindHeader, List.append_assoc]

theorem encoded_section_length : Codec.sectionLength (sect.encode ++ trailing) = sect.sectionLength := by
  have fits := sect.fits
  have high : byteOf (sect.encode ++ trailing) 1 = UInt8.ofNat (sect.sectionFlags.val * 16 + sect.sectionLength / 256) := by
    rw [encode_shape]
    rfl
  have low : byteOf (sect.encode ++ trailing) 2 = UInt8.ofNat sect.sectionLength := by
    rw [encode_shape]
    rfl
  rw [← sectionLength] at fits
  rw [Codec.sectionLength, high, low, low_nibble _ _ (by omega), UInt8.toNat_ofNat']
  omega

theorem encoded_command_length : Section.commandLength (sect.encode ++ trailing) = sect.commandLength := by
  have fits := sect.fits
  have bound : sect.commandLength < 4096 := by
    rw [commandLength]
    split
    · decide
    · omega
  have high : byteOf (sect.encode ++ trailing) 11 =
      UInt8.ofNat (sect.tier.val % 16 * 16 + sect.commandLength / 256) := by
    rw [encode_shape]
    rfl
  have low : byteOf (sect.encode ++ trailing) 12 = UInt8.ofNat sect.commandLength := by
    rw [encode_shape]
    rfl
  rw [Section.commandLength, high, low, low_nibble _ _ (by omega), UInt8.toNat_ofNat']
  omega

theorem encoded_total : Section.totalLen (sect.encode ++ trailing) = sect.encode.length := by
  rw [Section.totalLen, encoded_section_length, encode_length]

theorem encoded_crc_offset : Section.crcOffset (sect.encode ++ trailing) = sect.payload.length := by
  rw [Section.crcOffset, encoded_total, encode, List.length_append, BigEndian.bytes_length, Nat.add_sub_cancel]

theorem encoded_framed : Section.Framed (sect.encode ++ trailing) := by
  have size := encode_length sect
  have room : 17 ≤ sect.sectionLength := by
    rw [sectionLength]
    omega
  constructor
  · rw [List.length_append, size]
    omega
  · rw [encode_shape]
    rfl
  · rw [encoded_total, List.length_append]
    omega
  · rw [encoded_section_length]
    omega

theorem encoded_crc : Section.computedCrc (sect.encode ++ trailing) = Section.wireCrc (sect.encode ++ trailing) := by
  have field : ((sect.encode ++ trailing).drop sect.payload.length).take 4 =
      BigEndian.bytes 4 (crc32Mpeg2 sect.payload).toNat := by
    rw [encode, List.append_assoc, List.drop_left, List.take_left' (BigEndian.bytes_length 4 _)]
  have payload : (sect.encode ++ trailing).take sect.payload.length = sect.payload := by
    rw [encode, List.append_assoc, List.take_left]
  rw [Section.computedCrc, Section.wireCrc, encoded_crc_offset, field, payload,
    BigEndian.value_bytes 4 _ (UInt32.toNat_lt _)]

theorem encoded_cmd_end : Section.cmdEnd (sect.encode ++ trailing) ≤ Section.crcOffset (sect.encode ++ trailing) := by
  have fits := sect.fits
  rw [Section.cmdEnd, encoded_command_length, encoded_crc_offset, payload_length, sectionLength, commandLength]
  by_cases legacy : sect.legacyLength = true
  · rw [if_pos legacy, if_pos rfl]
    omega
  · rw [if_neg legacy]
    split
    · omega
    · omega

theorem encoded_command : Section.command (sect.encode ++ trailing) = .ok sect.command.fields := by
  have type : byteOf (sect.encode ++ trailing) 13 = sect.command.commandType := by
    rw [encode_shape]
    rfl
  have plain : Section.encrypted (sect.encode ++ trailing) = false := by
    have fourth : byteOf (sect.encode ++ trailing) 4 =
        UInt8.ofNat (sect.encryptionAlgorithm.val * 2 + sect.ptsAdjustment.val / 2 ^ 32) := by
      rw [encode_shape]
      rfl
    have bounds := And.intro sect.encryptionAlgorithm.isLt sect.ptsAdjustment.isLt
    rw [Section.encrypted, fourth, decide_eq_false_iff_not, not_not, high_bit _ (by omega)]
    omega
  have body : Section.commandBody (sect.encode ++ trailing) =
      sect.command.encode ++ (BigEndian.bytes 2 sect.descriptors.length ++ sect.descriptors) := by
    have payload : (sect.encode ++ trailing).take sect.payload.length = sect.payload := by
      rw [encode, List.append_assoc, List.take_left]
    rw [Section.commandBody, encoded_crc_offset, payload, SpliceInfoSection.payload, List.drop_left' (header_length sect)]
  rw [Section.command, type, plain, body, parse_command]

end SpliceInfoSection

theorem parse_undoes_encode (sect : SpliceInfoSection) (trailing : Bytes) :
    parseSpliceInfoSection (sect.encode ++ trailing) = .ok sect.info := by
  rw [parse_ok_iff]
  refine ⟨sect.encoded_framed trailing, sect.encoded_crc trailing, sect.encoded_cmd_end trailing, sect.command.fields,
    sect.encoded_command trailing, ?_⟩
  have type : byteOf (sect.encode ++ trailing) 13 = sect.command.commandType := by
    rw [SpliceInfoSection.encode_shape]
    rfl
  have adjustment : thirtyThreeBits ((sect.encode ++ trailing).drop 4) = sect.ptsAdjustment.val := by
    rw [SpliceInfoSection.encode_shape, SpliceInfoSection.header, List.append_assoc, List.append_assoc]
    exact thirty_three_bits_written _ _ _
  rw [Section.info, type, adjustment, SpliceInfoSection.encoded_total, List.take_left]
  rfl

end Lvqr.Codec
