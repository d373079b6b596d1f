import Lvqr.Bytes
import Mathlib.Logic.Function.Basic

set_option autoImplicit false

-- The MPEG-TS demuxer. Bytes are read as numbers; every read below sits behind
-- the length check that keeps the source's index in bounds. The hash maps keyed
-- by PID are functions.
namespace Lvqr.Ts

def TS_PACKET_SIZE : Nat := 188

def SYNC_BYTE : UInt8 := 0x47

def PAT_PID : Nat := 0

def byteAt (data : Bytes) (index : Nat) : Nat := (data.getD index 0).toNat

def pidAt (data : Bytes) (index : Nat) : Nat := (byteAt data index &&& 0x1F) <<< 8 ||| byteAt data (index + 1)

def lengthAt (data : Bytes) (index : Nat) : Nat := (byteAt data index &&& 0x0F) <<< 8 ||| byteAt data (index + 1)

inductive StreamType where
  | h264
  | h265
  | aac
  | scte35
  | unknown (byte : Nat)
deriving DecidableEq, Repr

def StreamType.fromByte (byte : Nat) : StreamType :=
  if byte = 0x1B then .h264
  else if byte = 0x24 then .h265
  else if byte = 0x0F ∨ byte = 0x11 then .aac
  else if byte = 0x86 then .scte35
  else .unknown byte

structure Scte35Section where
  pid : Nat
  raw : Bytes
deriving DecidableEq, Repr

structure PesPacket where
  pid : Nat
  streamType : StreamType
  pts : Option Nat
  dts : Option Nat
  payload : Bytes
deriving DecidableEq, Repr

structure PesBuffer where
  streamType : StreamType
  buf : Bytes
  started : Bool
deriving DecidableEq, Repr

structure SectionBuffer where
  buf : Bytes
  expectedLen : Option Nat
  headed : ∀ expected ∈ expectedLen, 3 ≤ expected

abbrev PidMap (Value : Type) := Nat → Option Value

structure TsDemuxer where
  remainder : Bytes
  pmtPid : Option Nat
  streams : PidMap StreamType
  pesBufs : PidMap PesBuffer
  sectionBufs : PidMap SectionBuffer
  pendingScte35 : List Scte35Section

namespace SectionBuffer

def empty : SectionBuffer := ⟨[], none, by simp⟩

def readExpected (buf : Bytes) : Option Nat :=
  if 3 ≤ buf.length then some (3 + lengthAt buf 1) else none

theorem read_expected_headed (buf : Bytes) : ∀ expected ∈ readExpected buf, 3 ≤ expected := by
  intro expected read
  unfold readExpected at read
  split at read
  · cases read
    omega
  · cases read

def ofBytes (buf : Bytes) : SectionBuffer := ⟨buf, readExpected buf, read_expected_headed buf⟩

-- Where the source returns early the buffer is empty, and flushing it does nothing.
def accumulate (buffer : SectionBuffer) (payload : Bytes) (pusi : Bool) : SectionBuffer :=
  if pusi then
    let start := 1 + byteAt payload 0
    if start ≥ payload.length then .empty else .ofBytes (payload.drop start)
  else if buffer.buf.isEmpty && buffer.expectedLen.isNone then buffer
  else
    let grown := buffer.buf ++ payload
    match known : buffer.expectedLen with
    | some expected => ⟨grown, some expected, by simpa [known] using buffer.headed⟩
    | none => .ofBytes grown

def flush (buffer : SectionBuffer) : List Bytes × SectionBuffer :=
  match known : buffer.expectedLen with
  | none => ([], buffer)
  | some expected =>
      if short : buffer.buf.length < expected then ([], buffer)
      else
        let rest := buffer.buf.drop expected
        if 3 ≤ rest.length then
          let (sections, left) := flush (.ofBytes rest)
          (buffer.buf.take expected :: sections, left)
        else if rest.all (· == 0xFF) then ([buffer.buf.take expected], .empty)
        else ([buffer.buf.take expected], ⟨rest, none, by simp⟩)
termination_by buffer.buf.length
decreasing_by
  have headed := buffer.headed expected known
  simp only [ofBytes, List.length_drop]
  omega

end SectionBuffer

def parseTsTimestamp (data : Bytes) : Nat :=
  let a := ((byteAt data 0 >>> 1) &&& 0x07) <<< 30
  let bc := (byteAt data 1 <<< 7 ||| byteAt data 2 >>> 1) <<< 15
  let de := byteAt data 3 <<< 7 ||| byteAt data 4 >>> 1
  a ||| bc ||| de

def finishPes (pid : Nat) (buffer : PesBuffer) : Option PesPacket :=
  let data := buffer.buf
  if data.length < 9 ∨ byteAt data 0 ≠ 0 ∨ byteAt data 1 ≠ 0 ∨ byteAt data 2 ≠ 1 then none
  else
    let pesPacketLength := byteAt data 4 <<< 8 ||| byteAt data 5
    let headerDataLen := byteAt data 8
    let esStart := 9 + headerDataLen
    if esStart > data.length then none
    else
      let flags := byteAt data 7
      let pts :=
        if flags &&& 0x80 ≠ 0 ∧ headerDataLen ≥ 5 then some (parseTsTimestamp ((data.drop 9).take 5)) else none
      let dts :=
        if flags &&& 0x40 ≠ 0 ∧ headerDataLen ≥ 10 then some (parseTsTimestamp ((data.drop 14).take 5)) else none
      let esEnd := if pesPacketLength > 0 then min (6 + pesPacketLength) data.length else data.length
      if esStart > esEnd then none
      else
        let payload := (data.take esEnd).drop esStart
        if payload.isEmpty then none else some ⟨pid, buffer.streamType, pts, dts, payload⟩

def tableData (payload : Bytes) (pusi : Bool) : Option Bytes :=
  if pusi && !payload.isEmpty then
    let start := 1 + byteAt payload 0
    if start ≥ payload.length then none else some (payload.drop start)
  else some payload

def programLoop (data : Bytes) (loopEnd index : Nat) : Option Nat :=
  if index + 4 ≤ loopEnd then
    let progNum := byteAt data index <<< 8 ||| byteAt data (index + 1)
    if progNum ≠ 0 then some (pidAt data (index + 2)) else programLoop data loopEnd (index + 4)
  else none
termination_by loopEnd - index

def parsePat (payload : Bytes) (pusi : Bool) : Option Nat :=
  match tableData payload pusi with
  | none => none
  | some data =>
      if data.length < 12 then none
      else
        let tableEnd := 3 + lengthAt data 1
        if tableEnd > data.length ∨ lengthAt data 1 < 9 then none
        else programLoop data (tableEnd - 4) 8

def streamLoop (data : Bytes) (loopEnd index : Nat) (streams : PidMap StreamType) : PidMap StreamType :=
  if index + 5 ≤ loopEnd then
    streamLoop data loopEnd (index + (5 + lengthAt data (index + 3)))
      (Function.update streams (pidAt data (index + 1)) (some (.fromByte (byteAt data index))))
  else streams
termination_by loopEnd - index

def parsePmt (payload : Bytes) (pusi : Bool) : Option (PidMap StreamType) :=
  match tableData payload pusi with
  | none => none
  | some data =>
      if data.length < 16 then none
      else
        let tableEnd := 3 + lengthAt data 1
        if tableEnd > data.length ∨ lengthAt data 1 < 13 then none
        else some (streamLoop data (tableEnd - 4) (12 + lengthAt data 10) (fun _ => none))

def payloadOffset (pkt : Bytes) : Option Nat :=
  match (byteAt pkt 3 >>> 4) &&& 0x03 with
  | 1 => some 4
  | 3 => some (5 + byteAt pkt 4)
  | _ => none

namespace TsDemuxer

def new : TsDemuxer where
  remainder := []
  pmtPid := none
  streams := fun _ => none
  pesBufs := fun _ => none
  sectionBufs := fun _ => none
  pendingScte35 := []

def takeScte35Sections (demuxer : TsDemuxer) : List Scte35Section × TsDemuxer :=
  (demuxer.pendingScte35, { demuxer with pendingScte35 := [] })

def pushSection (demuxer : TsDemuxer) (pid : Nat) (payload : Bytes) (pusi : Bool) : TsDemuxer :=
  let buffer := (demuxer.sectionBufs pid).getD .empty
  let (sections, left) := (buffer.accumulate payload pusi).flush
  { demuxer with
    sectionBufs := Function.update demuxer.sectionBufs pid (some left)
    pendingScte35 := demuxer.pendingScte35 ++ sections.map (⟨pid, ·⟩) }

def finished (demuxer : TsDemuxer) (pid : Nat) : List PesPacket :=
  match demuxer.pesBufs pid with
  | none => []
  | some buffer => if buffer.started && !buffer.buf.isEmpty then (finishPes pid buffer).toList else []

def pushPes (demuxer : TsDemuxer) (pid : Nat) (payload : Bytes) (pusi : Bool) : List PesPacket × TsDemuxer :=
  let streamType := (demuxer.streams pid).getD (.unknown 0)
  if pusi then
    (demuxer.finished pid,
      { demuxer with pesBufs := Function.update demuxer.pesBufs pid (some ⟨streamType, payload, true⟩) })
  else
    match demuxer.pesBufs pid with
    | none => ([], demuxer)
    | some buffer =>
        if buffer.started then
          let grown := { buffer with buf := buffer.buf ++ payload }
          ([], { demuxer with pesBufs := Function.update demuxer.pesBufs pid (some grown) })
        else ([], demuxer)

def dispatch (demuxer : TsDemuxer) (pid : Nat) (payload : Bytes) (pusi : Bool) : List PesPacket × TsDemuxer :=
  if pid = PAT_PID then ([], { demuxer with pmtPid := (parsePat payload pusi).or demuxer.pmtPid })
  else if some pid = demuxer.pmtPid then ([], { demuxer with streams := (parsePmt payload pusi).getD demuxer.streams })
  else
    match demuxer.streams pid with
    | none => ([], demuxer)
    | some .scte35 => ([], demuxer.pushSection pid payload pusi)
    | some _ => demuxer.pushPes pid payload pusi

def processPacket (demuxer : TsDemuxer) (pkt : Bytes) : List PesPacket × TsDemuxer :=
  let pid := pidAt pkt 1
  let pusi := byteAt pkt 1 &&& 0x40 != 0
  match payloadOffset pkt with
  | none => ([], demuxer)
  | some offset =>
      if offset ≥ TS_PACKET_SIZE then ([], demuxer) else demuxer.dispatch pid (pkt.drop offset) pusi

end TsDemuxer

-- One turn of the sync loop: no sync byte left, fewer than 188 bytes from it
-- on, or a packet and the rest.
inductive Scan where
  | unsynced
  | short (tail : Bytes)
  | packet (pkt rest : Bytes)
deriving DecidableEq, Repr

def scan (input : Bytes) : Scan :=
  let tail := input.dropWhile (· != SYNC_BYTE)
  if tail.isEmpty then .unsynced
  else if tail.length < TS_PACKET_SIZE then .short tail
  else .packet (tail.take TS_PACKET_SIZE) (tail.drop TS_PACKET_SIZE)

theorem scan_shrinks (input pkt rest : Bytes) (found : scan input = .packet pkt rest) :
    rest.length < input.length := by
  unfold scan at found
  simp only at found
  split at found
  · cases found
  · split at found
    · cases found
    · rename_i _ enough
      cases found
      have bound := (List.dropWhile_suffix (· != SYNC_BYTE) (l := input)).length_le
      simp only [List.length_drop, TS_PACKET_SIZE] at enough ⊢
      omega

namespace TsDemuxer

-- The loop both paths of `feed` run. They differ in what they keep of a run
-- without a sync byte: the fast path stashes it, `process_buf` clears it.
def packetLoop (unsynced : Bytes → Bytes) (demuxer : TsDemuxer) (input : Bytes) :
    List PesPacket × TsDemuxer × Bytes :=
  match _found : scan input with
  | .unsynced => ([], demuxer, unsynced input)
  | .short tail => ([], demuxer, tail)
  | .packet pkt rest =>
      let (out, next) := demuxer.processPacket pkt
      let (more, last, tail) := packetLoop unsynced next rest
      (out ++ more, last, tail)
termination_by input.length
decreasing_by exact scan_shrinks input pkt rest _found

def feed (demuxer : TsDemuxer) (data : Bytes) : List PesPacket × TsDemuxer :=
  if demuxer.remainder.isEmpty then
    let (out, fed, tail) := demuxer.packetLoop id data
    (out, { fed with remainder := tail })
  else
    let (out, fed, tail) := demuxer.packetLoop (fun _ => []) (demuxer.remainder ++ data)
    (out, { fed with remainder := tail })

end TsDemuxer

end Lvqr.Ts
