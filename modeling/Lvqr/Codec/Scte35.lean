import Lvqr.Codec.Hevc
import Lvqr.Lib.BigEndian

set_option autoImplicit false

-- The splice_info_section parser. What no egress reads of a section stays in `raw`.
namespace Lvqr.Codec

def TABLE_ID : UInt8 := 0xFC

def CMD_SPLICE_INSERT : UInt8 := 0x05

def CMD_TIME_SIGNAL : UInt8 := 0x06

structure SpliceInfo where
  commandType : UInt8
  ptsAdjustment : Nat
  pts : Option Nat
  duration : Option Nat
  eventId : Option Nat
  cancel : Bool
  outOfNetwork : Bool
  raw : Bytes
deriving DecidableEq, Repr

def SpliceInfo.absolutePts (info : SpliceInfo) : Option Nat :=
  info.pts.map fun pts => (pts + info.ptsAdjustment) &&& (1 <<< 33 - 1)

-- CRC-32/MPEG-2, one bit and one byte at a time.
def crcShift (crc : UInt32) : UInt32 :=
  if crc &&& 0x80000000 ≠ 0 then (crc <<< 1) ^^^ 0x04C11DB7 else crc <<< 1

def crcByte (crc : UInt32) (byte : UInt8) : UInt32 := crcShift^[8] (crc ^^^ (byte.toUInt32 <<< 24))

def crc32Mpeg2 (data : Bytes) : UInt32 := data.foldl crcByte 0xFFFFFFFF

def byteOf (data : Bytes) (index : Nat) : UInt8 := data.getD index 0

-- A 33-bit number: the last bit of one byte, then four bytes.
def thirtyThreeBits (data : Bytes) : Nat :=
  (byteOf data 0 &&& 0x01).toNat * 2 ^ 32 + BigEndian.value ((data.drop 1).take 4)

def parseSpliceTimeInline (body : Bytes) : Except CodecError (Option Nat × Nat) :=
  if body = [] then .error (.endOfStream 1 0)
  else if byteOf body 0 &&& 0x80 = 0 then .ok (none, 1)
  else if body.length < 5 then .error (.endOfStream 5 body.length)
  else .ok (some (thirtyThreeBits body), 5)

def parseSpliceTime (body : Bytes) : Except CodecError (Option Nat) := do
  let (pts, _) ← parseSpliceTimeInline body
  return pts

def skipComponents (body : Bytes) (immediate : Bool) : Nat → Nat → Except CodecError Nat
  | 0, cursor => .ok cursor
  | count + 1, cursor =>
      if body.length ≤ cursor then .error (.endOfStream (cursor + 1) body.length)
      else if immediate then skipComponents body immediate count (cursor + 1)
      else do
        let (_, consumed) ← parseSpliceTimeInline (body.drop (cursor + 1))
        skipComponents body immediate count (cursor + 1 + consumed)

structure ParsedSpliceInsert where
  eventId : Nat
  cancel : Bool
  outOfNetwork : Bool
  pts : Option Nat
  duration : Option Nat
deriving DecidableEq, Repr

def parseSpliceInsert (body : Bytes) : Except CodecError ParsedSpliceInsert :=
  if body.length < 5 then .error (.endOfStream 5 body.length)
  else
    let eventId := BigEndian.value (body.take 4)
    if byteOf body 4 &&& 0x80 ≠ 0 then .ok ⟨eventId, true, false, none, none⟩
    else if body.length < 6 then .error (.endOfStream 6 body.length)
    else do
      let flags := byteOf body 5
      let programSplice := flags &&& 0x40 ≠ 0
      let immediate := flags &&& 0x10 ≠ 0
      let (pts, cursor) ←
        if programSplice ∧ ¬immediate then do
          let (pts, consumed) ← parseSpliceTimeInline (body.drop 6)
          pure (pts, 6 + consumed)
        else pure (none, 6)
      let cursor ←
        if programSplice then pure cursor
        else if body.length ≤ cursor then throw (.endOfStream (cursor + 1) body.length)
        else skipComponents body (decide immediate) (byteOf body cursor).toNat (cursor + 1)
      let duration ←
        if flags &&& 0x20 ≠ 0 then
          if body.length < cursor + 5 then throw (.endOfStream (cursor + 5) body.length)
          else pure (some (thirtyThreeBits (body.drop cursor)))
        else pure none
      return ⟨eventId, false, decide (flags &&& 0x80 ≠ 0), pts, duration⟩

-- What a section's command sets of the fields that start out empty.
structure CommandFields where
  eventId : Option Nat
  cancel : Bool
  outOfNetwork : Bool
  pts : Option Nat
  duration : Option Nat
deriving DecidableEq, Repr

def parseCommand (commandType : UInt8) (encrypted : Bool) (body : Bytes) : Except CodecError CommandFields :=
  if encrypted then .ok ⟨none, false, false, none, none⟩
  else if commandType = CMD_SPLICE_INSERT then do
    let parsed ← parseSpliceInsert body
    return ⟨some parsed.eventId, parsed.cancel, parsed.outOfNetwork, parsed.pts, parsed.duration⟩
  else if commandType = CMD_TIME_SIGNAL then do
    let pts ← parseSpliceTime body
    return ⟨none, false, false, pts, none⟩
  else .ok ⟨none, false, false, none, none⟩

def sectionLength (bytes : Bytes) : Nat := (byteOf bytes 1 &&& 0x0F).toNat * 2 ^ 8 + (byteOf bytes 2).toNat

def parseSpliceInfoSection (bytes : Bytes) : Except CodecError SpliceInfo :=
  if bytes.length < 17 then .error (.endOfStream 17 bytes.length)
  else if byteOf bytes 0 ≠ TABLE_ID then .error (.scte35Malformed "table_id != 0xFC")
  else
    let totalLen := 3 + sectionLength bytes
    if bytes.length < totalLen then .error (.endOfStream totalLen bytes.length)
    else if sectionLength bytes < 15 then .error (.scte35Malformed "section_length too short")
    else
      let crcOffset := totalLen - 4
      let computed := (crc32Mpeg2 (bytes.take crcOffset)).toNat
      let wire := BigEndian.value ((bytes.drop crcOffset).take 4)
      if computed ≠ wire then .error (.scte35BadCrc computed wire)
      else
        let spliceCommandLength := (byteOf bytes 11 &&& 0x0F).toNat * 2 ^ 8 + (byteOf bytes 12).toNat
        let cmdEnd := if spliceCommandLength = 0xFFF then 14 else 14 + spliceCommandLength
        if crcOffset < cmdEnd then .error (.scte35Malformed "splice_command extends past section")
        else
          match parseCommand (byteOf bytes 13) (byteOf bytes 4 &&& 0x80 ≠ 0) ((bytes.take crcOffset).drop 14) with
          | .error error => .error error
          | .ok command => .ok {
              commandType := byteOf bytes 13
              ptsAdjustment := thirtyThreeBits (bytes.drop 4)
              pts := command.pts
              duration := command.duration
              eventId := command.eventId
              cancel := command.cancel
              outOfNetwork := command.outOfNetwork
              raw := bytes.take totalLen
            }

-- A splice_info_section taken apart: what the parser checks before the command, and
-- what it makes of a section that passes.
namespace Section

def totalLen (bytes : Bytes) : Nat := 3 + sectionLength bytes

def crcOffset (bytes : Bytes) : Nat := totalLen bytes - 4

def computedCrc (bytes : Bytes) : Nat := (crc32Mpeg2 (bytes.take (crcOffset bytes))).toNat

def wireCrc (bytes : Bytes) : Nat := BigEndian.value ((bytes.drop (crcOffset bytes)).take 4)

def commandLength (bytes : Bytes) : Nat := (byteOf bytes 11 &&& 0x0F).toNat * 2 ^ 8 + (byteOf bytes 12).toNat

def cmdEnd (bytes : Bytes) : Nat := if commandLength bytes = 0xFFF then 14 else 14 + commandLength bytes

def encrypted (bytes : Bytes) : Bool := byteOf bytes 4 &&& 0x80 ≠ 0

-- What the command parser is handed: everything up to the CRC.
def commandBody (bytes : Bytes) : Bytes := (bytes.take (crcOffset bytes)).drop 14

def command (bytes : Bytes) : Except CodecError CommandFields :=
  parseCommand (byteOf bytes 13) (encrypted bytes) (commandBody bytes)

def info (bytes : Bytes) (fields : CommandFields) : SpliceInfo where
  commandType := byteOf bytes 13
  ptsAdjustment := thirtyThreeBits (bytes.drop 4)
  pts := fields.pts
  duration := fields.duration
  eventId := fields.eventId
  cancel := fields.cancel
  outOfNetwork := fields.outOfNetwork
  raw := bytes.take (totalLen bytes)

structure Framed (bytes : Bytes) : Prop where
  long : 17 ≤ bytes.length
  table : byteOf bytes 0 = TABLE_ID
  whole : totalLen bytes ≤ bytes.length
  room : 15 ≤ sectionLength bytes

end Section

open Section

theorem parse_framed (bytes : Bytes) (framed : Framed bytes) :
    parseSpliceInfoSection bytes =
      if computedCrc bytes ≠ wireCrc bytes then .error (.scte35BadCrc (computedCrc bytes) (wireCrc bytes))
      else if crcOffset bytes < cmdEnd bytes then .error (.scte35Malformed "splice_command extends past section")
      else
        match command bytes with
        | .error error => .error error
        | .ok fields => .ok (info bytes fields) := by
  have long := framed.long
  have whole := framed.whole
  have room := framed.room
  rw [totalLen] at whole
  rw [parseSpliceInfoSection, if_neg (by omega), if_neg (not_not.mpr framed.table)]
  dsimp only
  rw [if_neg (by omega), if_neg (by omega)]
  rfl

theorem framed_of_ok (bytes : Bytes) (parsed : SpliceInfo) (accepted : parseSpliceInfoSection bytes = .ok parsed) :
    Framed bytes := by
  unfold parseSpliceInfoSection at accepted
  split at accepted
  · cases accepted
  · rename_i long
    split at accepted
    · cases accepted
    · rename_i table
      dsimp only at accepted
      split at accepted
      · cases accepted
      · rename_i whole
        split at accepted
        · cases accepted
        · rename_i room
          exact ⟨Nat.le_of_not_lt long, not_not.mp table, Nat.le_of_not_lt whole, Nat.le_of_not_lt room⟩

-- A section is accepted if its CRC is right and its command, which has to end
-- before the CRC, can be read.
theorem parse_ok_iff (bytes : Bytes) (parsed : SpliceInfo) :
    parseSpliceInfoSection bytes = .ok parsed ↔
      Framed bytes ∧ computedCrc bytes = wireCrc bytes ∧ cmdEnd bytes ≤ crcOffset bytes ∧
        ∃ fields, command bytes = .ok fields ∧ parsed = info bytes fields := by
  constructor
  · intro accepted
    have framed := framed_of_ok bytes parsed accepted
    rw [parse_framed bytes framed] at accepted
    split at accepted
    · cases accepted
    · rename_i same
      split at accepted
      · cases accepted
      · rename_i inside
        split at accepted
        · cases accepted
        · rename_i fields read
          cases accepted
          exact ⟨framed, not_not.mp same, Nat.le_of_not_lt inside, fields, read, rfl⟩
  · rintro ⟨framed, same, inside, fields, read, rfl⟩
    rw [parse_framed bytes framed, if_neg (not_not.mpr same), if_neg (Nat.not_lt.mpr inside), read]

theorem byte_of_append_left (front rest : Bytes) (index : Nat) (inside : index < front.length) :
    byteOf (front ++ rest) index = byteOf front index :=
  List.getD_append _ _ _ _ inside

theorem byte_of_take (bytes : Bytes) (count index : Nat) (inside : index < count) :
    byteOf (bytes.take count) index = byteOf bytes index := by
  simp [byteOf, List.getD_eq_getElem?_getD, inside]

namespace Insert

def program (body : Bytes) : Bool := byteOf body 5 &&& 0x40 ≠ 0

def durationFlag (body : Bytes) : Bool := byteOf body 5 &&& 0x20 ≠ 0

def immediate (body : Bytes) : Bool := byteOf body 5 &&& 0x10 ≠ 0

def spliceTime (body : Bytes) : Except CodecError (Option Nat × Nat) :=
  if program body && !immediate body then
    (parseSpliceTimeInline (body.drop 6)).map fun parsed => (parsed.1, 6 + parsed.2)
  else .ok (none, 6)

def componentLoop (body : Bytes) (cursor : Nat) : Except CodecError Nat :=
  if program body then .ok cursor
  else if body.length ≤ cursor then .error (.endOfStream (cursor + 1) body.length)
  else skipComponents body (immediate body) (byteOf body cursor).toNat (cursor + 1)

def breakDuration (body : Bytes) (cursor : Nat) : Except CodecError (Option Nat) :=
  if durationFlag body then
    if body.length < cursor + 5 then .error (.endOfStream (cursor + 5) body.length)
    else .ok (some (thirtyThreeBits (body.drop cursor)))
  else .ok none

def event (body : Bytes) : Except CodecError ParsedSpliceInsert :=
  (spliceTime body).bind fun timed =>
    (componentLoop body timed.2).bind fun cursor =>
      (breakDuration body cursor).map fun duration =>
        ⟨BigEndian.value (body.take 4), false, decide (byteOf body 5 &&& 0x80 ≠ 0), timed.1, duration⟩

end Insert

theorem parse_splice_insert_parts (body : Bytes) :
    parseSpliceInsert body =
      if body.length < 5 then .error (.endOfStream 5 body.length)
      else if byteOf body 4 &&& 0x80 ≠ 0 then .ok ⟨BigEndian.value (body.take 4), true, false, none, none⟩
      else if body.length < 6 then .error (.endOfStream 6 body.length)
      else Insert.event body := by
  rw [parseSpliceInsert]
  split
  · rfl
  · dsimp only
    split
    · rfl
    · split
      · rfl
      · simp only [Insert.event, Insert.spliceTime, Insert.componentLoop, Insert.breakDuration, Insert.program,
          Insert.durationFlag, Insert.immediate, ne_eq, decide_not, Bool.not_not, Bool.and_eq_true, Bool.not_eq_true',
          decide_eq_true_eq, decide_eq_false_iff_not, not_not]
        by_cases program : byteOf body 5 &&& 0x40 = 0
        · simp only [program, not_true_eq_false, false_and, if_false]
          by_cases duration : byteOf body 5 &&& 0x20 = 0
          · simp only [duration, not_true_eq_false, if_false, bind, Except.bind, pure, Except.pure, Except.map]
            split
            · rfl
            · rfl
          · simp only [duration, not_false_eq_true, if_true, bind, Except.bind, pure, Except.pure, Except.map]
            split
            · rfl
            · cases skipComponents body (!decide (byteOf body 5 &&& 0x10 = 0)) (byteOf body 6).toNat (6 + 1) with
              | error error => rfl
              | ok cursor =>
                  dsimp only
                  split
                  · rfl
                  · rfl
        · simp only [program, not_false_eq_true, true_and, if_true]
          by_cases immediate : byteOf body 5 &&& 0x10 = 0
          · simp only [immediate, if_true, bind, Except.bind, pure, Except.pure, Except.map]
            cases parseSpliceTimeInline (body.drop 6) with
            | error error => rfl
            | ok parsed =>
                dsimp only
                split
                · split
                  · rfl
                  · rfl
                · rfl
          · simp only [immediate, if_false, bind, Except.bind, pure, Except.pure, Except.map]
            split
            · split
              · rfl
              · rfl
            · rfl

end Lvqr.Codec
