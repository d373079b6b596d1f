import Lvqr.Rtmp.InitSegment
import Lvqr.Lib.Writer

set_option autoImplicit false

-- The audio segment writer of the bridge: boxes whose sizes are patched behind their
-- bodies, and the expandable lengths of the MPEG-4 descriptors in its init segment.
namespace Lvqr.Rtmp.Fmp4

open Cmaf (fourCc encodeI32 RawSample buildMoofMdat)
open Rtsp (box boxBody trunDataOffset extractMdatBody totalSize)
open Writer (put patch Yields)

def writeBox (kind : String) (write : Bytes → Option Bytes) (buf : Bytes) : Option Bytes := do
  let written ← write (buf ++ u32 0 ++ fourCc kind)
  let size := written.length - buf.length
  return patch buf.length (u32 size) written

def writeFullBox (kind : String) (version flags : Nat) (write : Bytes → Option Bytes) : Bytes → Option Bytes :=
  writeBox kind (put (BigEndian.bytes 1 version ++ BigEndian.bytes 3 flags) >=> write)

-- Four bytes of seven bits each, with the top bit on all but the last.
def descriptorLength (size : Nat) : Bytes :=
  [0x80 ||| UInt8.ofNat (size / 2 ^ 21 % 2 ^ 7), 0x80 ||| UInt8.ofNat (size / 2 ^ 14 % 2 ^ 7),
    0x80 ||| UInt8.ofNat (size / 2 ^ 7 % 2 ^ 7), UInt8.ofNat (size % 2 ^ 7)]

-- The assertion on the size panics.
def writeMpeg4Descriptor (tag : UInt8) (write : Bytes → Option Bytes) (buf : Bytes) : Option Bytes := do
  let sizePos := (buf ++ [tag]).length
  let payloadStart := (buf ++ [tag] ++ zeros 4).length
  let written ← write (buf ++ [tag] ++ zeros 4)
  let size := written.length - payloadStart
  if size < 2 ^ 28 then return patch sizePos (descriptorLength size) written else none

def esds (asc : Bytes) : Bytes → Option Bytes :=
  writeFullBox "esds" 0 0 <| writeMpeg4Descriptor 0x03 <|
    put (u16 1) >=> put [0] >=>
    writeMpeg4Descriptor 0x04
      (put [0x40] >=> put [0x15] >=> put [0] >=> put (u16 0) >=> put (u32 0) >=> put (u32 0) >=>
        writeMpeg4Descriptor 0x05 (put asc)) >=>
    writeMpeg4Descriptor 0x06 (put [0x02])

-- The walk over the boxes of a traf, with what the patch leaves if it finds the trun.
-- None where an index is out of bounds and where a box of size 0 holds the walk.
def patchTraf (dataOffset : Int) (buf : Bytes) (trafEnd inner : Nat) : Option (Option Bytes) :=
  if _more : inner + 8 ≤ trafEnd then
    let innerSize := BigEndian.value ((buf.drop inner).take 4)
    if buf.length < inner + 8 then none
    else if ((buf.drop inner).drop 4).take 4 = fourCc "trun" then
      if buf.length < inner + 20 then none else some (some (patch (inner + 16) (encodeI32 dataOffset) buf))
    else if _stays : innerSize = 0 then none
    else patchTraf dataOffset buf trafEnd (inner + innerSize)
  else some none
termination_by trafEnd - inner

def patchFrom (dataOffset : Int) (buf : Bytes) (pos : Nat) : Option Bytes :=
  if _more : pos + 8 ≤ buf.length then
    let boxSize := BigEndian.value ((buf.drop pos).take 4)
    let within :=
      if ((buf.drop pos).drop 4).take 4 = fourCc "traf" then patchTraf dataOffset buf (pos + boxSize) (pos + 8)
      else some none
    match within with
    | none => none
    | some (some patched) => some patched
    | some none => if _stays : boxSize = 0 then none else patchFrom dataOffset buf (pos + boxSize)
  else some buf
termination_by buf.length - pos

def patchTrunDataOffset (buf : Bytes) (moofStart : Nat) (dataOffset : Int) : Option Bytes :=
  patchFrom dataOffset buf (moofStart + 8)

def moof (sequence : UInt32) (baseDts : UInt64) (duration : UInt32) (data : Bytes) : Bytes → Option Bytes :=
  writeBox "moof" <|
    writeFullBox "mfhd" 0 0 (put (u32 sequence.toNat)) >=>
    writeBox "traf"
      (writeFullBox "tfhd" 0 0x020000 (put (u32 1)) >=>
        writeFullBox "tfdt" 1 0 (put (BigEndian.bytes 8 baseDts.toNat)) >=>
        writeFullBox "trun" 0 (0x000001 ||| 0x000100 ||| 0x000200)
          (put (u32 1) >=> put (encodeI32 0) >=> put (u32 duration.toNat) >=> put (u32 data.length)))

def audioSegment (sequence : UInt32) (baseDts : UInt64) (duration : UInt32) (data : Bytes) : Option Bytes := do
  let buf ← moof sequence baseDts duration data []
  let moofSize := buf.length
  let dataOffset := ((moofSize + 8 : Nat) : Int).bmod (2 ^ 32)
  let patched ← patchTrunDataOffset buf 0 dataOffset
  writeBox "mdat" (put data) patched

-- The boxes that fill the bytes, each as long as its size field says.
def childBoxes (bytes : Bytes) : Option (List (Bytes × Bytes)) :=
  if bytes.isEmpty then some []
  else
    let size := BigEndian.value (bytes.take 4)
    if _fits : 8 ≤ size ∧ size ≤ bytes.length then
      (childBoxes (bytes.drop size)).map (((bytes.drop 4).take 4, (bytes.take size).drop 8) :: ·)
    else none
termination_by bytes.length
decreasing_by simp only [List.length_drop]; omega

-- A size of seven bits a byte, as long as the top bit is set and in at most four bytes.
def readLength : Nat → Nat → Bytes → Option (Nat × Bytes)
  | 0, _, _ => none
  | _, _, [] => none
  | more + 1, high, byte :: rest =>
      let size := high * 2 ^ 7 + byte.toNat % 2 ^ 7
      if byte.toNat < 2 ^ 7 then some (size, rest) else readLength more size rest

def readDescriptor : Bytes → Option (UInt8 × Bytes × Bytes)
  | [] => none
  | tag :: bytes => do
      let (size, rest) ← readLength 4 0 bytes
      if size ≤ rest.length then return (tag, rest.take size, rest.drop size) else none

-- Boxes that fill each other down to the trun, an offset to the first byte of the
-- media, and the media at the end.
structure Sound (media segment : Bytes) : Prop where
  nests : ∃ moof traf mfhd tfhd tfdt trun, childBoxes segment = some [(fourCc "moof", moof), (fourCc "mdat", media)] ∧
    childBoxes moof = some [(fourCc "mfhd", mfhd), (fourCc "traf", traf)] ∧
    childBoxes traf = some [(fourCc "tfhd", tfhd), (fourCc "tfdt", tfdt), (fourCc "trun", trun)]
  offset : trunDataOffset segment = some ((segment.length - media.length : Nat) : Int)
  body : extractMdatBody segment = some media

theorem write_box_yields (kind : String) (write : Bytes → Option Bytes) (body : Option Bytes)
    (named : kind.toList.length = 4) (yields : Yields write body) :
    Yields (writeBox kind write) (body.map (box kind)) := by
  intro buf
  rw [writeBox, yields]
  cases body with
  | none => rfl
  | some body =>
      have shape : buf ++ u32 0 ++ fourCc kind ++ body = buf ++ (u32 0 ++ (fourCc kind ++ body)) := by
        rw [List.append_assoc, List.append_assoc]
      have size : (buf ++ (u32 0 ++ (fourCc kind ++ body))).length - buf.length = 8 + body.length := by
        rw [List.length_append, List.length_append, List.length_append, u32_length, Cmaf.four_cc_length, named]
        omega
      have patched := Writer.patch_hole buf (u32 0) (u32 (8 + body.length)) (fourCc kind ++ body) rfl
      simp only [Option.map_some, Option.bind_eq_bind, Option.bind_some, Option.pure_def, shape, size, patched]
      rfl

theorem write_full_box_yields (kind : String) (version flags : Nat) (write : Bytes → Option Bytes) (body : Option Bytes)
    (named : kind.toList.length = 4) (yields : Yields write body) :
    Yields (writeFullBox kind version flags write) (body.map (Rtmp.writeFullBox kind version flags)) := by
  have header := Writer.put_yields (BigEndian.bytes 1 version ++ BigEndian.bytes 3 flags)
  have written := write_box_yields kind _ _ named (header.next yields)
  cases body with
  | none => exact written
  | some body =>
      rw [Option.bind_some, Option.map_some, Option.map_some, List.append_assoc] at written
      exact written

def descriptor (tag : UInt8) (payload : Bytes) : Bytes := tag :: (descriptorLength payload.length ++ payload)

def sized (tag : UInt8) (payload : Bytes) : Option Bytes :=
  if payload.length < 2 ^ 28 then some (descriptor tag payload) else none

theorem write_descriptor_yields (tag : UInt8) (write : Bytes → Option Bytes) (payload : Option Bytes)
    (yields : Yields write payload) : Yields (writeMpeg4Descriptor tag write) (payload.bind (sized tag)) := by
  intro buf
  simp only [writeMpeg4Descriptor]
  rw [yields]
  cases payload with
  | none => rfl
  | some payload =>
      have size : (buf ++ [tag] ++ zeros 4 ++ payload).length - (buf ++ [tag] ++ zeros 4).length = payload.length := by
        rw [List.length_append, Nat.add_sub_cancel_left]
      have patched := Writer.patch_hole (buf ++ [tag]) (zeros 4) (descriptorLength payload.length) payload rfl
      rw [← List.append_assoc] at patched
      simp only [Option.map_some, Option.bind_eq_bind, Option.bind_some, Option.pure_def, size, patched, sized]
      split
      · rw [Option.map_some, List.append_assoc]
        rfl
      · rfl

theorem seven_bits (size : Nat) : (0x80 ||| UInt8.ofNat (size % 2 ^ 7)).toNat = 2 ^ 7 + size % 2 ^ 7 := by
  have low : size % 2 ^ 7 < 2 ^ 7 := Nat.mod_lt _ (by decide)
  have whole : (UInt8.ofNat (size % 2 ^ 7)).toNat = size % 2 ^ 7 := by
    rw [UInt8.toNat_ofNat', Nat.mod_eq_of_lt (by omega)]
  have bits := Nat.two_pow_add_eq_or_of_lt low 1
  rw [UInt8.toNat_or, whole]
  exact bits.symm

theorem read_length_written (size : Nat) (rest : Bytes) (fits : size < 2 ^ 28) :
    readLength 4 0 (descriptorLength size ++ rest) = some (size, rest) := by
  have last : (UInt8.ofNat (size % 2 ^ 7)).toNat = size % 2 ^ 7 := by
    rw [UInt8.toNat_ofNat', Nat.mod_eq_of_lt (by omega)]
  have digits : (((size / 2 ^ 21 % 2 ^ 7) * 2 ^ 7 + size / 2 ^ 14 % 2 ^ 7) * 2 ^ 7 + size / 2 ^ 7 % 2 ^ 7) * 2 ^ 7 +
      size % 2 ^ 7 = size := by omega
  simp only [descriptorLength, List.cons_append, List.nil_append, readLength, seven_bits, last]
  rw [if_neg (by omega), if_neg (by omega), if_neg (by omega), if_pos (by omega), Option.some_inj, Prod.mk.injEq]
  exact ⟨by omega, rfl⟩

theorem read_descriptor_written (tag : UInt8) (payload rest : Bytes) (fits : payload.length < 2 ^ 28) :
    readDescriptor (descriptor tag payload ++ rest) = some (tag, payload, rest) := by
  have bytes : descriptor tag payload ++ rest = tag :: (descriptorLength payload.length ++ (payload ++ rest)) := by
    rw [descriptor, List.cons_append, List.append_assoc]
  have inside : payload.length ≤ (payload ++ rest).length := by
    rw [List.length_append]
    omega
  simp only [bytes, readDescriptor, read_length_written _ _ fits, Option.bind_eq_bind, Option.bind_some, if_pos inside,
    List.take_left, List.drop_left, Option.pure_def]

theorem descriptor_length (tag : UInt8) (payload : Bytes) : (descriptor tag payload).length = 5 + payload.length := by
  rw [descriptor, List.length_cons, List.length_append]
  simp only [descriptorLength, List.length_cons, List.length_nil]
  omega

def decoderConfig (asc : Bytes) : Bytes := [0x40, 0x15, 0, 0, 0, 0, 0, 0, 0, 0, 0, 0, 0] ++ descriptor 0x05 asc

def esPayload (asc : Bytes) : Bytes := [0, 1, 0] ++ (descriptor 0x04 (decoderConfig asc) ++ descriptor 0x06 [0x02])

-- The length around a descriptor is the longer one, so it alone decides.
theorem sized_nested (outer inner : UInt8) (front payload back : Bytes) :
    ((sized inner payload).bind fun bytes => sized outer (front ++ (bytes ++ back))) =
      sized outer (front ++ (descriptor inner payload ++ back)) := by
  by_cases fits : payload.length < 2 ^ 28
  · rw [sized, if_pos fits, Option.bind_some]
  · have longer : ¬ (front ++ (descriptor inner payload ++ back)).length < 2 ^ 28 := by
      rw [List.length_append, List.length_append, descriptor_length]
      omega
    rw [sized, if_neg fits, Option.bind_none, sized, if_neg longer]

theorem config_yields (asc : Bytes) : Yields
    (writeMpeg4Descriptor 0x04
      (put [0x40] >=> put [0x15] >=> put [0] >=> put (u16 0) >=> put (u32 0) >=> put (u32 0) >=>
        writeMpeg4Descriptor 0x05 (put asc))) (sized 0x04 (decoderConfig asc)) := by
  have specific : Yields (writeMpeg4Descriptor 0x05 (put asc)) (sized 0x05 asc) :=
    write_descriptor_yields 0x05 _ _ (Writer.put_yields asc)
  have config := write_descriptor_yields 0x04 _ _
    ((Writer.put_yields [0x40]).next <| (Writer.put_yields [0x15]).next <| (Writer.put_yields [0]).next <|
      (Writer.put_yields (u16 0)).next <| (Writer.put_yields (u32 0)).next <| (Writer.put_yields (u32 0)).next specific)
  have nested := sized_nested 0x04 0x05 [0x40, 0x15, 0, 0, 0, 0, 0, 0, 0, 0, 0, 0, 0] asc []
  simp only [List.append_nil] at nested
  rw [decoderConfig, ← nested]
  generalize sized 0x05 asc = written at config ⊢
  cases written with
  | none => exact config
  | some specific => exact config

theorem esds_yields (asc : Bytes) :
    Yields (esds asc) ((sized 0x03 (esPayload asc)).map (Rtmp.writeFullBox "esds" 0 0)) := by
  have sl : Yields (writeMpeg4Descriptor 0x06 (put [0x02])) (some (descriptor 0x06 [0x02])) :=
    write_descriptor_yields 0x06 _ _ (Writer.put_yields [0x02])
  have es := write_descriptor_yields 0x03 _ _
    ((Writer.put_yields (u16 1)).next <| (Writer.put_yields [0]).next <| (config_yields asc).next sl)
  refine write_full_box_yields "esds" 0 0 _ _ rfl ?_
  rw [esPayload, ← sized_nested 0x03 0x04 [0, 1, 0]]
  generalize sized 0x04 (decoderConfig asc) = written at es ⊢
  cases written with
  | none => exact es
  | some config => exact es

-- The way down through an esds, with what stands in front of each inner descriptor.
theorem esds_read (asc buf out : Bytes) (written : esds asc buf = some out) :
    ∃ es config sl, readDescriptor (out.drop (buf.length + 12)) = some (0x03, es, []) ∧
      readDescriptor (es.drop 3) = some (0x04, config, sl) ∧ readDescriptor (config.drop 13) = some (0x05, asc, []) ∧
      readDescriptor sl = some (0x06, [0x02], []) := by
  rw [esds_yields asc buf, sized] at written
  split at written
  · rename_i fits
    have inner : (decoderConfig asc).length < 2 ^ 28 ∧ asc.length < 2 ^ 28 := by
      rw [esPayload, List.length_append, List.length_append, descriptor_length] at fits
      have config : (decoderConfig asc).length = 13 + (5 + asc.length) := by
        rw [decoderConfig, List.length_append, descriptor_length]
        rfl
      omega
    obtain rfl := Option.some.inj written
    have whole := read_descriptor_written 0x03 (esPayload asc) [] fits
    have config := read_descriptor_written 0x04 (decoderConfig asc) (descriptor 0x06 [0x02]) inner.1
    have specific := read_descriptor_written 0x05 asc [] inner.2
    rw [List.append_nil] at whole specific
    refine ⟨esPayload asc, decoderConfig asc, descriptor 0x06 [0x02], ?_, config, specific, rfl⟩
    rw [← List.drop_drop, List.drop_left]
    exact whole
  · cases written

def header (kind : String) (size : Nat) : Bytes := BigEndian.bytes 4 (8 + size) ++ fourCc kind

theorem box_header (kind : String) (body : Bytes) : box kind body = header kind body.length ++ body := by
  rw [box, header, List.append_assoc]

section Walk

variable {buf front rest : Bytes} (kind : String) (body : Bytes)

-- What both walks read at the front of a box.
theorem box_here (named : kind.toList.length = 4) (fits : 8 + body.length < 2 ^ 32)
    (shape : buf = front ++ (box kind body ++ rest)) :
    BigEndian.value ((buf.drop front.length).take 4) = 8 + body.length ∧
      ((buf.drop front.length).drop 4).take 4 = fourCc kind ∧ front.length + (8 + body.length) ≤ buf.length := by
  have length := Rtsp.box_length kind body named
  rw [shape, List.drop_left, Rtsp.box_size, Rtsp.box_kind kind body rest named, List.length_append, List.length_append,
    length, Nat.mod_eq_of_lt fits]
  exact ⟨rfl, rfl, by omega⟩

theorem patch_traf_past (dataOffset : Int) (trafEnd : Nat) (named : kind.toList.length = 4)
    (fits : 8 + body.length < 2 ^ 32) (apart : fourCc kind ≠ fourCc "trun")
    (shape : buf = front ++ (box kind body ++ rest)) (inside : front.length + 8 ≤ trafEnd) :
    patchTraf dataOffset buf trafEnd front.length =
      patchTraf dataOffset buf trafEnd (front ++ box kind body).length := by
  obtain ⟨size, name, long⟩ := box_here kind body named fits shape
  rw [patchTraf, dif_pos inside]
  dsimp only
  rw [if_neg (by omega), name, if_neg apart, size, dif_neg (by omega), List.length_append,
    Rtsp.box_length kind body named]

theorem patch_traf_here (dataOffset : Int) (trafEnd : Nat) (head hole tail : Bytes) (headed : head.length = 8)
    (holed : hole.length = 4) (fits : 8 + (head ++ (hole ++ tail)).length < 2 ^ 32)
    (shape : buf = front ++ (box "trun" (head ++ (hole ++ tail)) ++ rest)) (inside : front.length + 8 ≤ trafEnd) :
    patchTraf dataOffset buf trafEnd front.length =
      some (some (front ++ (box "trun" (head ++ (encodeI32 dataOffset ++ tail)) ++ rest))) := by
  obtain ⟨-, name, long⟩ := box_here "trun" _ rfl fits shape
  have sized : (encodeI32 dataOffset).length = 4 := BigEndian.bytes_length 4 _
  have lengths : 8 + (head ++ (hole ++ tail)).length = 8 + (head ++ (encodeI32 dataOffset ++ tail)).length := by
    simp only [List.length_append, holed, sized]
  have place : front.length + 16 = (front ++ (BigEndian.bytes 4 (8 + (head ++ (hole ++ tail)).length) ++
      (fourCc "trun" ++ head))).length := by
    simp only [List.length_append, BigEndian.bytes_length, Cmaf.four_cc_length, headed]
    rfl
  have parts : buf = front ++ (BigEndian.bytes 4 (8 + (head ++ (hole ++ tail)).length) ++ (fourCc "trun" ++ head)) ++
      (hole ++ (tail ++ rest)) := by
    rw [shape, box]
    simp only [List.append_assoc]
  have patched := Writer.patch_hole (front ++ (BigEndian.bytes 4 (8 + (head ++ (hole ++ tail)).length) ++
    (fourCc "trun" ++ head))) hole (encodeI32 dataOffset) (tail ++ rest) (holed.trans sized.symm)
  simp only [List.length_append, headed, holed] at long
  rw [patchTraf, dif_pos inside]
  dsimp only
  rw [if_neg (by omega), name, if_pos rfl, if_neg (by omega), place, parts, patched, box, ← lengths]
  simp only [List.append_assoc]

theorem patch_from_past (dataOffset : Int) (named : kind.toList.length = 4) (fits : 8 + body.length < 2 ^ 32)
    (apart : fourCc kind ≠ fourCc "traf") (shape : buf = front ++ (box kind body ++ rest)) :
    patchFrom dataOffset buf front.length = patchFrom dataOffset buf (front ++ box kind body).length := by
  obtain ⟨size, name, long⟩ := box_here kind body named fits shape
  rw [patchFrom, dif_pos (by omega)]
  dsimp only
  rw [name, if_neg apart]
  dsimp only
  rw [size, dif_neg (by omega), List.length_append, Rtsp.box_length kind body named]

theorem patch_from_traf (dataOffset : Int) (patched : Bytes) (fits : 8 + body.length < 2 ^ 32)
    (shape : buf = front ++ (box "traf" body ++ rest))
    (within : patchTraf dataOffset buf (front.length + (8 + body.length)) (front.length + 8) = some (some patched)) :
    patchFrom dataOffset buf front.length = some patched := by
  obtain ⟨size, name, long⟩ := box_here "traf" body rfl fits shape
  rw [patchFrom, dif_pos (by omega)]
  dsimp only
  rw [name, if_pos rfl, size, within]

end Walk

section Segment

variable (sequence : UInt32) (baseDts : UInt64) (duration : UInt32) (data : Bytes)

def mfhdBody : Bytes := u32 0 ++ u32 sequence.toNat

def tfhdBody : Bytes := u32 0x020000 ++ u32 1

def tfdtBody : Bytes := u32 0x01000000 ++ BigEndian.bytes 8 baseDts.toNat

def trunBody (dataOffset : Int) : Bytes :=
  u32 0x301 ++ u32 1 ++ (encodeI32 dataOffset ++ (u32 duration.toNat ++ u32 data.length))

def moofBody (mfhd tfhd tfdt trun : Bytes) : Bytes :=
  box "mfhd" mfhd ++ box "traf" (box "tfhd" tfhd ++ (box "tfdt" tfdt ++ box "trun" trun))

theorem moof_yields : Yields (moof sequence baseDts duration data)
    (some (box "moof" (moofBody (mfhdBody sequence) tfhdBody (tfdtBody baseDts) (trunBody duration data 0)))) := by
  have mfhd := write_full_box_yields "mfhd" 0 0 _ _ rfl (Writer.put_yields (u32 sequence.toNat))
  have tfhd := write_full_box_yields "tfhd" 0 0x020000 _ _ rfl (Writer.put_yields (u32 1))
  have tfdt := write_full_box_yields "tfdt" 1 0 _ _ rfl (Writer.put_yields (BigEndian.bytes 8 baseDts.toNat))
  have trun := write_full_box_yields "trun" 0 (0x000001 ||| 0x000100 ||| 0x000200) _ _ rfl
    ((Writer.put_yields (u32 1)).next <| (Writer.put_yields (encodeI32 0)).next <|
      (Writer.put_yields (u32 duration.toNat)).next (Writer.put_yields (u32 data.length)))
  have traf := write_box_yields "traf" _ _ rfl (tfhd.next <| tfdt.next trun)
  have whole := write_box_yields "moof" _ _ rfl (mfhd.next traf)
  exact whole

theorem trun_body_length (dataOffset : Int) : (trunBody duration data dataOffset).length = 20 := by
  simp [trunBody, encodeI32]

theorem moof_body_length (dataOffset : Int) :
    (moofBody (mfhdBody sequence) tfhdBody (tfdtBody baseDts) (trunBody duration data dataOffset)).length = 88 := by
  simp [moofBody, Rtsp.box_length _ _, trun_body_length, mfhdBody, tfhdBody, tfdtBody]

theorem traf_body_length (dataOffset : Int) :
    (box "tfhd" tfhdBody ++ (box "tfdt" (tfdtBody baseDts) ++ box "trun" (trunBody duration data dataOffset))).length =
      64 := by
  simp [Rtsp.box_length _ _, trun_body_length, tfhdBody, tfdtBody]

def trafBody (dataOffset : Int) : Bytes :=
  box "tfhd" tfhdBody ++ (box "tfdt" (tfdtBody baseDts) ++ box "trun" (trunBody duration data dataOffset))

-- Inside the traf the walk steps over the tfhd and the tfdt.
theorem patch_traf_written (dataOffset : Int) (buf front rest : Bytes)
    (shape : buf = front ++ (box "traf" (trafBody baseDts duration data 0) ++ rest)) :
    patchTraf dataOffset buf (front.length + 72) (front.length + 8) =
      some (some (front ++ (box "traf" (trafBody baseDts duration data dataOffset) ++ rest))) := by
  have parts (offset : Int) : front ++ (box "traf" (trafBody baseDts duration data offset) ++ rest) =
      front ++ header "traf" 64 ++ (box "tfhd" tfhdBody ++ (box "tfdt" (tfdtBody baseDts) ++
        (box "trun" (trunBody duration data offset) ++ rest))) := by
    rw [box_header "traf", trafBody, traf_body_length]
    simp only [List.append_assoc]
  have atTfhd : buf = front ++ header "traf" 64 ++ (box "tfhd" tfhdBody ++ (box "tfdt" (tfdtBody baseDts) ++
      (box "trun" (trunBody duration data 0) ++ rest))) := shape.trans (parts 0)
  have atTfdt : buf = front ++ header "traf" 64 ++ box "tfhd" tfhdBody ++ (box "tfdt" (tfdtBody baseDts) ++
      (box "trun" (trunBody duration data 0) ++ rest)) := by
    rw [atTfhd, ← List.append_assoc]
  have atTrun : buf = front ++ header "traf" 64 ++ box "tfhd" tfhdBody ++ box "tfdt" (tfdtBody baseDts) ++
      (box "trun" (trunBody duration data 0) ++ rest) := by
    rw [atTfdt, ← List.append_assoc]
  have lengths : (front ++ header "traf" 64).length = front.length + 8 ∧
      (front ++ header "traf" 64 ++ box "tfhd" tfhdBody).length = front.length + 24 ∧
      (front ++ header "traf" 64 ++ box "tfhd" tfhdBody ++ box "tfdt" (tfdtBody baseDts)).length = front.length + 44 := by
    simp [header, Rtsp.box_length _ _, tfhdBody, tfdtBody]
  have sized := trun_body_length duration data 0
  rw [← lengths.1, patch_traf_past "tfhd" tfhdBody dataOffset _ rfl (by decide) (by decide) atTfhd (by omega),
    patch_traf_past "tfdt" (tfdtBody baseDts) dataOffset _ rfl (by simp [tfdtBody]) (by decide) atTfdt (by omega)]
  rw [patch_traf_here dataOffset _ (u32 0x301 ++ u32 1) (encodeI32 0) (u32 duration.toNat ++ u32 data.length) rfl rfl
    (by rw [← trunBody, sized]; decide) atTrun (by omega), parts dataOffset]
  simp only [List.append_assoc, trunBody]

-- In the moof it steps over the mfhd and into the traf.
theorem patch_written (dataOffset : Int) :
    patchTrunDataOffset
        (box "moof" (moofBody (mfhdBody sequence) tfhdBody (tfdtBody baseDts) (trunBody duration data 0))) 0 dataOffset =
      some (box "moof"
        (moofBody (mfhdBody sequence) tfhdBody (tfdtBody baseDts) (trunBody duration data dataOffset))) := by
  have atMfhd (offset : Int) : box "moof" (moofBody (mfhdBody sequence) tfhdBody (tfdtBody baseDts)
      (trunBody duration data offset)) = header "moof" 88 ++ (box "mfhd" (mfhdBody sequence) ++
        (box "traf" (trafBody baseDts duration data offset) ++ [])) := by
    rw [box_header "moof", moof_body_length, moofBody, List.append_nil, trafBody]
  have atTraf (offset : Int) : box "moof" (moofBody (mfhdBody sequence) tfhdBody (tfdtBody baseDts)
      (trunBody duration data offset)) = header "moof" 88 ++ box "mfhd" (mfhdBody sequence) ++
        (box "traf" (trafBody baseDts duration data offset) ++ []) := by
    rw [atMfhd, ← List.append_assoc]
  have start : 0 + 8 = (header "moof" 88).length := rfl
  have sized : (trafBody baseDts duration data 0).length = 64 := traf_body_length baseDts duration data 0
  have past := patch_from_past "mfhd" (mfhdBody sequence) dataOffset rfl (by simp [mfhdBody]) (by decide) (atMfhd 0)
  have within := patch_traf_written baseDts duration data dataOffset _ _ _ (atTraf 0)
  rw [patchTrunDataOffset, start, past, atTraf dataOffset]
  exact patch_from_traf _ dataOffset _ (by omega) (atTraf 0) (by rw [sized]; exact within)

theorem audio_segment_eq : audioSegment sequence baseDts duration data =
    some (box "moof" (moofBody (mfhdBody sequence) tfhdBody (tfdtBody baseDts) (trunBody duration data 104)) ++
      box "mdat" data) := by
  have moofSize := moof_body_length sequence baseDts duration data 0
  have measured : (box "moof" (moofBody (mfhdBody sequence) tfhdBody (tfdtBody baseDts)
      (trunBody duration data 0))).length = 96 := by
    rw [Rtsp.box_length "moof" _ rfl, moofSize]
  have offset : (((96 + 8 : Nat) : Int)).bmod (2 ^ 32) = 104 := by decide
  have mdat := write_box_yields "mdat" _ _ rfl (Writer.put_yields data)
  rw [audioSegment, moof_yields]
  simp only [Option.map_some, List.nil_append, Option.bind_eq_bind, Option.bind_some, measured, offset]
  rw [patch_written, Option.bind_some, mdat]
  rfl

end Segment

theorem child_boxes_next (kind : String) (body rest : Bytes) (named : kind.toList.length = 4)
    (fits : 8 + body.length < 2 ^ 32) :
    childBoxes (box kind body ++ rest) = (childBoxes rest).map ((fourCc kind, body) :: ·) := by
  have length := Rtsp.box_length kind body named
  have size : BigEndian.value ((box kind body ++ rest).take 4) = 8 + body.length := by
    rw [Rtsp.box_size, Nat.mod_eq_of_lt fits]
  have inside : 8 ≤ 8 + body.length ∧ 8 + body.length ≤ (box kind body ++ rest).length := by
    rw [List.length_append, length]
    omega
  have more : (box kind body ++ rest).isEmpty = false := by
    rw [List.isEmpty_eq_false_iff, ← List.length_pos_iff]
    omega
  have whole : (box kind body ++ rest).take (8 + body.length) = box kind body := List.take_left' length
  have content := Rtsp.box_content kind body [] named
  simp only [List.append_nil] at content
  rw [childBoxes, more, if_neg Bool.false_ne_true, size]
  dsimp only
  rw [dif_pos inside, Rtsp.box_kind kind body rest named, whole, content, List.drop_left' length]

theorem child_boxes_last (kind : String) (body : Bytes) (named : kind.toList.length = 4)
    (fits : 8 + body.length < 2 ^ 32) : childBoxes (box kind body) = some [(fourCc kind, body)] := by
  have next := child_boxes_next kind body [] named fits
  rw [List.append_nil] at next
  rw [next, childBoxes]
  rfl

-- A body is as long as a size field says.
theorem child_fits (bytes : Bytes) (boxes : List (Bytes × Bytes)) (read : childBoxes bytes = some boxes) :
    ∀ child ∈ boxes, 8 + child.2.length < 2 ^ 32 := by
  induction bytes using childBoxes.induct generalizing boxes with
  | case1 bytes empty =>
      rw [childBoxes, if_pos empty] at read
      obtain rfl := Option.some.inj read
      exact fun child member => absurd member List.not_mem_nil
  | case2 bytes more size inside ih =>
      rw [childBoxes, if_neg more] at read
      dsimp only at read
      rw [dif_pos inside] at read
      obtain ⟨others, readOthers, rfl⟩ := Option.map_eq_some_iff.mp read
      refine List.forall_mem_cons.mpr ⟨?_, ih others readOthers⟩
      have field : size < 256 ^ (bytes.take 4).length := BigEndian.value_lt _
      have short : (bytes.take 4).length ≤ 4 := List.length_take_le _ _
      have bound := Nat.pow_le_pow_right (show 256 > 0 by decide) short
      have body : ((bytes.take size).drop 8).length ≤ size - 8 := by
        rw [List.length_drop, List.length_take]
        omega
      show 8 + ((bytes.take size).drop 8).length < 2 ^ 32
      omega
  | case3 bytes more size outside =>
      rw [childBoxes, if_neg more] at read
      dsimp only at read
      rw [dif_neg outside] at read
      cases read

def fragment (mfhd tfhd tfdt trun media : Bytes) : Bytes :=
  box "moof" (moofBody mfhd tfhd tfdt trun) ++ box "mdat" media

section Fragment

variable (mfhd tfhd tfdt trun media : Bytes)

theorem moof_body_larger : mfhd.length + tfhd.length + tfdt.length + trun.length + 40 =
    (moofBody mfhd tfhd tfdt trun).length := by
  simp only [moofBody, List.length_append, Rtsp.box_length "mfhd" _ rfl, Rtsp.box_length "traf" _ rfl,
    Rtsp.box_length "tfhd" _ rfl, Rtsp.box_length "tfdt" _ rfl, Rtsp.box_length "trun" _ rfl]
  omega

variable (small : 8 + (moofBody mfhd tfhd tfdt trun).length < 2 ^ 32)

include small

theorem fragment_offset : trunDataOffset (fragment mfhd tfhd tfdt trun media) =
    some ((BigEndian.value ((trun.drop 8).take 4) : Int).bmod (2 ^ 32)) := by
  have sizes := moof_body_larger mfhd tfhd tfdt trun
  have trafSize : (box "tfhd" tfhd ++ (box "tfdt" tfdt ++ box "trun" trun)).length =
      24 + tfhd.length + tfdt.length + trun.length := by
    simp only [List.length_append, Rtsp.box_length "tfhd" _ rfl, Rtsp.box_length "tfdt" _ rfl,
      Rtsp.box_length "trun" _ rfl]
    omega
  have inMoof := Rtsp.box_body_here "moof" (moofBody mfhd tfhd tfdt trun) (box "mdat" media) rfl small
  have inTraf : boxBody "traf" (moofBody mfhd tfhd tfdt trun) =
      some (box "tfhd" tfhd ++ (box "tfdt" tfdt ++ box "trun" trun)) := by
    rw [moofBody, Rtsp.box_body_past "traf" "mfhd" _ _ rfl (by decide) (by omega),
      box_body_last "traf" _ rfl (by omega)]
  have inTrun : boxBody "trun" (box "tfhd" tfhd ++ (box "tfdt" tfdt ++ box "trun" trun)) = some trun := by
    rw [Rtsp.box_body_past "trun" "tfhd" _ _ rfl (by decide) (by omega),
      Rtsp.box_body_past "trun" "tfdt" _ _ rfl (by decide) (by omega), box_body_last "trun" _ rfl (by omega)]
  simp only [trunDataOffset, fragment, inMoof, inTraf, inTrun, Option.bind_eq_bind, Option.bind_some, Option.pure_def]

theorem fragment_nests (fits : 8 + media.length < 2 ^ 32) :
    childBoxes (fragment mfhd tfhd tfdt trun media) =
        some [(fourCc "moof", moofBody mfhd tfhd tfdt trun), (fourCc "mdat", media)] ∧
      childBoxes (moofBody mfhd tfhd tfdt trun) =
        some [(fourCc "mfhd", mfhd), (fourCc "traf", box "tfhd" tfhd ++ (box "tfdt" tfdt ++ box "trun" trun))] ∧
      childBoxes (box "tfhd" tfhd ++ (box "tfdt" tfdt ++ box "trun" trun)) =
        some [(fourCc "tfhd", tfhd), (fourCc "tfdt", tfdt), (fourCc "trun", trun)] := by
  have sizes := moof_body_larger mfhd tfhd tfdt trun
  have trafSize : (box "tfhd" tfhd ++ (box "tfdt" tfdt ++ box "trun" trun)).length =
      24 + tfhd.length + tfdt.length + trun.length := by
    simp only [List.length_append, Rtsp.box_length "tfhd" _ rfl, Rtsp.box_length "tfdt" _ rfl,
      Rtsp.box_length "trun" _ rfl]
    omega
  refine ⟨?_, ?_, ?_⟩
  · rw [fragment, child_boxes_next "moof" _ _ rfl small, child_boxes_last "mdat" media rfl fits]
    rfl
  · rw [moofBody, child_boxes_next "mfhd" _ _ rfl (by omega), child_boxes_last "traf" _ rfl (by omega)]
    rfl
  · rw [child_boxes_next "tfhd" _ _ rfl (by omega), child_boxes_next "tfdt" _ _ rfl (by omega),
      child_boxes_last "trun" _ rfl (by omega)]
    rfl

theorem fragment_sound_iff : Sound media (fragment mfhd tfhd tfdt trun media) ↔
    8 + media.length < 2 ^ 32 ∧ (BigEndian.value ((trun.drop 8).take 4) : Int).bmod (2 ^ 32) =
      ((16 + (moofBody mfhd tfhd tfdt trun).length : Nat) : Int) := by
  have begins : (fragment mfhd tfhd tfdt trun media).length - media.length =
      16 + (moofBody mfhd tfhd tfdt trun).length := by
    rw [fragment, List.length_append, Rtsp.box_length "moof" _ rfl, Rtsp.box_length "mdat" _ rfl]
    omega
  have offset := fragment_offset mfhd tfhd tfdt trun media small
  constructor
  · intro sound
    obtain ⟨_, _, _, _, _, _, outer, -⟩ := sound.nests
    have position := offset.symm.trans sound.offset
    rw [begins] at position
    exact ⟨child_fits _ _ outer _ (List.mem_cons_of_mem _ List.mem_cons_self), Option.some.inj position⟩
  · rintro ⟨fits, position⟩
    refine ⟨⟨_, _, _, _, _, _, fragment_nests mfhd tfhd tfdt trun media small fits⟩, ?_, ?_⟩
    · rw [offset, begins, position]
    · rw [extractMdatBody, fragment, Rtsp.box_body_past "mdat" "moof" _ _ rfl (by decide) small,
        box_body_last "mdat" media rfl fits]

end Fragment

theorem audio_sound_iff (sequence : UInt32) (baseDts : UInt64) (duration : UInt32) (data : Bytes) :
    (∃ segment, audioSegment sequence baseDts duration data = some segment ∧ Sound data segment) ↔
      8 + data.length < 2 ^ 32 := by
  have size := moof_body_length sequence baseDts duration data 104
  have field : ((trunBody duration data 104).drop 8).take 4 = encodeI32 104 := rfl
  have sound := fragment_sound_iff (mfhdBody sequence) tfhdBody (tfdtBody baseDts) (trunBody duration data 104) data
    (by omega)
  rw [size, field, fragment] at sound
  rw [audio_segment_eq]
  constructor
  · rintro ⟨segment, written, found⟩
    obtain rfl := Option.some.inj written
    exact (sound.mp found).1
  · intro fits
    exact ⟨_, rfl, sound.mpr ⟨fits, by decide⟩⟩

theorem moof_sound_iff (moof : Cmaf.Moof) (media : Bytes) (fits : 88 + 16 * moof.traf.trun.entries.length < 2 ^ 32) :
    Sound media (moof.written ++ box "mdat" media) ↔ 8 + media.length < 2 ^ 32 ∧
      moof.traf.trun.dataOffset.bmod (2 ^ 32) = ((96 + 16 * moof.traf.trun.entries.length : Nat) : Int) := by
  have size : (moofBody (Rtsp.Moof.mfhdBody moof) (Rtsp.Moof.tfhdBody moof) (Rtsp.Moof.tfdtBody moof)
      (Rtsp.Trun.body moof.traf.trun)).length = 80 + 16 * moof.traf.trun.entries.length := Rtsp.moof_body_length moof
  have begins : 16 + (80 + 16 * moof.traf.trun.entries.length) = 96 + 16 * moof.traf.trun.entries.length := by omega
  have wrapped := Int.emod_bmod moof.traf.trun.dataOffset (2 ^ 32)
  have sound := fragment_sound_iff (Rtsp.Moof.mfhdBody moof) (Rtsp.Moof.tfhdBody moof) (Rtsp.Moof.tfdtBody moof)
    (Rtsp.Trun.body moof.traf.trun) media (by omega)
  rw [size, begins, Rtsp.trun_body_offset, Rtsp.value_of_i32] at sound
  rw [Rtsp.written_boxes]
  exact sound.trans (and_congr_right fun _ => wrapped ▸ Iff.rfl)

theorem video_sound_iff (sequence trackId baseDts : Nat) (samples : List RawSample) :
    (∃ segment, buildMoofMdat sequence trackId baseDts samples = some segment ∧
        Sound (samples.flatMap RawSample.payload) segment) ↔
      8 + totalSize samples < 2 ^ 32 ∧ 96 + 16 * samples.length < 2 ^ 31 := by
  by_cases fits : 88 + 16 * samples.length < 2 ^ 32
  · have entries : (Cmaf.moofOf sequence trackId baseDts samples (Rtsp.writtenOffset samples)).traf.trun.entries.length =
        samples.length := List.length_map _
    have sound := moof_sound_iff (Cmaf.moofOf sequence trackId baseDts samples (Rtsp.writtenOffset samples))
      (samples.flatMap RawSample.payload) (by omega)
    rw [entries, Rtsp.moof_of_offset, Rtsp.written_offset_bmod, Rtsp.written_offset_iff, Rtsp.body_length] at sound
    rw [Rtsp.build_moof_mdat_eq sequence trackId baseDts samples fits]
    constructor
    · rintro ⟨segment, built, found⟩
      obtain rfl := Option.some.inj built
      exact sound.mp found
    · intro small
      exact ⟨_, rfl, sound.mpr small⟩
  · constructor
    · rintro ⟨segment, built, -⟩
      have few : samples.length ≤ Cmaf.MAX_BATCH := by
        rw [← Cmaf.build_moof_mdat_is_some sequence trackId baseDts samples, built]
        rfl
      unfold Cmaf.MAX_BATCH at few
      omega
    · rintro ⟨-, few⟩
      omega

-- The segments are sound where their sizes fit the fields that hold them, and every
-- descriptor length that is written leads back to its payload.
theorem segments_sound_iff (sequence : UInt32) (baseDts : UInt64) (duration : UInt32) (data : Bytes)
    (videoSequence trackId videoDts : Nat) (samples : List RawSample) :
    ((∃ segment, audioSegment sequence baseDts duration data = some segment ∧ Sound data segment) ↔
      8 + data.length < 2 ^ 32) ∧
    ((∃ segment, buildMoofMdat videoSequence trackId videoDts samples = some segment ∧
        Sound (samples.flatMap RawSample.payload) segment) ↔
      8 + totalSize samples < 2 ^ 32 ∧ 96 + 16 * samples.length < 2 ^ 31) ∧
    (∀ (tag : UInt8) (payload buf out : Bytes), writeMpeg4Descriptor tag (put payload) buf = some out →
      readDescriptor (out.drop buf.length) = some (tag, payload, [])) ∧
    ∀ asc buf out : Bytes, esds asc buf = some out →
      ∃ es config sl, readDescriptor (out.drop (buf.length + 12)) = some (0x03, es, []) ∧
        readDescriptor (es.drop 3) = some (0x04, config, sl) ∧ readDescriptor (config.drop 13) = some (0x05, asc, []) ∧
        readDescriptor sl = some (0x06, [0x02], []) := by
  refine ⟨audio_sound_iff sequence baseDts duration data, video_sound_iff videoSequence trackId videoDts samples, ?_,
    esds_read⟩
  intro tag payload buf out written
  rw [write_descriptor_yields tag _ _ (Writer.put_yields payload), Option.bind_some, sized] at written
  split at written
  · rename_i fits
    obtain rfl := Option.some.inj written
    have read := read_descriptor_written tag payload [] fits
    rw [List.append_nil] at read
    rw [List.drop_left, read]
  · cases written

-- The size of the mdat wraps to 0 before the frame is as long as a size can be.
theorem long_frame_wraps : ¬ ∀ (sequence : UInt32) (baseDts : UInt64) (duration : UInt32) (data : Bytes),
    data.length < 2 ^ 32 →
      ∃ segment, audioSegment sequence baseDts duration data = some segment ∧ Sound data segment := by
  intro always
  have length : (zeros (2 ^ 32 - 8)).length = 2 ^ 32 - 8 := zeros_length _
  have sound := always 1 0 1024 (zeros (2 ^ 32 - 8)) (by rw [length]; decide)
  rw [audio_sound_iff, length] at sound
  omega

end Lvqr.Rtmp.Fmp4
