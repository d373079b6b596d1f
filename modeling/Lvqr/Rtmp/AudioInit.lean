import Lvqr.Rtmp.AudioSegment

set_option autoImplicit false

-- The audio init segment that the bridge writes from an AAC sequence header. A run of
-- `put` calls is one put of all their bytes, and the boxes that stand in the video
-- segment byte for byte are taken from there.
namespace Lvqr.Rtmp.Fmp4

open Cmaf (fourCc)
open Rtsp (box)
open Writer (put Yields)

structure AudioConfig where
  asc : Bytes
  sampleRate : UInt32
  channels : UInt8
  objectType : UInt8
deriving DecidableEq, Repr

def tkhdBody : Bytes :=
  u32 0 ++ (u32 0 ++ (u32 1 ++ (u32 0 ++ (u32 0 ++ (zeros 8 ++ (u16 0 ++ (u16 0 ++
    (u16 0x0100 ++ (u16 0 ++ (matrix ++ (u32 0 ++ u32 0)))))))))))

def hdlrBody : Bytes := u32 0 ++ (fourCc "soun" ++ (zeros 12 ++ (fourCc "LVQR Audio" ++ [0])))

def smhdBody : Bytes := u16 0 ++ u16 0

section Boxes

variable (config : AudioConfig)

def mvhdBody : Bytes :=
  u32 0 ++ (u32 0 ++ (u32 config.sampleRate.toNat ++ (u32 0 ++ (u32 0x00010000 ++
    (u16 0x0100 ++ (zeros 10 ++ (matrix ++ (zeros 24 ++ u32 2))))))))

def mdhdBody : Bytes := u32 0 ++ (u32 0 ++ (u32 config.sampleRate.toNat ++ (u32 0 ++ u32 0x55C40000)))

-- The shift of the sample rate drops its high bits, as the u32 does.
def sampleEntry : Bytes :=
  zeros 6 ++ (u16 1 ++ (zeros 8 ++ (u16 config.channels.toNat ++ (u16 16 ++ (u16 0 ++ (u16 0 ++
    u32 (config.sampleRate.toNat * 2 ^ 16)))))))

def mp4a : Bytes → Option Bytes := writeBox "mp4a" <| put (sampleEntry config) >=> esds config.asc

def stbl : Bytes → Option Bytes :=
  writeBox "stbl" <| writeFullBox "stsd" 0 0 (put (u32 1) >=> mp4a config) >=> put emptyTables

def minf : Bytes → Option Bytes := writeBox "minf" <| writeFullBox "smhd" 0 0 (put smhdBody) >=> put dinf >=> stbl config

def mdia : Bytes → Option Bytes :=
  writeBox "mdia" <|
    writeFullBox "mdhd" 0 0 (put (mdhdBody config)) >=> writeFullBox "hdlr" 0 0 (put hdlrBody) >=> minf config

def trak : Bytes → Option Bytes := writeBox "trak" <| writeFullBox "tkhd" 0 3 (put tkhdBody) >=> mdia config

def moov : Bytes → Option Bytes :=
  writeBox "moov" <| writeFullBox "mvhd" 0 0 (put (mvhdBody config)) >=> trak config >=> put mvex

def audioInitSegment : Option Bytes := (put ftyp >=> moov config) []

end Boxes

-- What stands in the boxes, from the innermost out.
section Bodies

variable (config : AudioConfig)

def mp4aBody : Bytes := sampleEntry config ++ Rtmp.writeFullBox "esds" 0 0 (descriptor 0x03 (esPayload config.asc))

def stblBody : Bytes := Rtmp.writeFullBox "stsd" 0 0 (u32 1 ++ box "mp4a" (mp4aBody config)) ++ emptyTables

def minfBody : Bytes := Rtmp.writeFullBox "smhd" 0 0 smhdBody ++ (dinf ++ box "stbl" (stblBody config))

def mdiaBody : Bytes := Rtmp.writeFullBox "mdhd" 0 0 (mdhdBody config) ++
  (Rtmp.writeFullBox "hdlr" 0 0 hdlrBody ++ box "minf" (minfBody config))

def trakBody : Bytes := Rtmp.writeFullBox "tkhd" 0 3 tkhdBody ++ box "mdia" (mdiaBody config)

def moovBody : Bytes := Rtmp.writeFullBox "mvhd" 0 0 (mvhdBody config) ++ (box "trak" (trakBody config) ++ mvex)

theorem es_length (asc : Bytes) : (esPayload asc).length = 32 + asc.length := by
  rw [esPayload, List.length_append, List.length_append, descriptor_length, descriptor_length, decoderConfig,
    List.length_append, descriptor_length]
  simp only [List.length_cons, List.length_nil]
  omega

theorem mp4a_length : (mp4aBody config).length = 77 + config.asc.length := by
  have entry : (sampleEntry config).length = 28 := by simp [sampleEntry]
  rw [mp4aBody, List.length_append, entry, full_box_length "esds" _ _ _ rfl, descriptor_length, es_length]
  omega

theorem stbl_length : (stblBody config).length = 169 + config.asc.length := by
  rw [stblBody, List.length_append, full_box_length "stsd" _ _ _ rfl, List.length_append, u32_length,
    Rtsp.box_length "mp4a" _ rfl, mp4a_length, tables_length]
  omega

theorem minf_length : (minfBody config).length = 229 + config.asc.length := by
  have front : (Rtmp.writeFullBox "smhd" 0 0 smhdBody).length = 16 ∧ dinf.length = 36 := ⟨rfl, rfl⟩
  rw [minfBody, List.length_append, List.length_append, front.1, front.2, Rtsp.box_length "stbl" _ rfl, stbl_length]
  omega

theorem mdia_length : (mdiaBody config).length = 312 + config.asc.length := by
  have front : (Rtmp.writeFullBox "mdhd" 0 0 (mdhdBody config)).length = 32 ∧
      (Rtmp.writeFullBox "hdlr" 0 0 hdlrBody).length = 43 := ⟨rfl, rfl⟩
  rw [mdiaBody, List.length_append, List.length_append, front.1, front.2, Rtsp.box_length "minf" _ rfl, minf_length]
  omega

theorem trak_length : (trakBody config).length = 412 + config.asc.length := by
  have front : (Rtmp.writeFullBox "tkhd" 0 3 tkhdBody).length = 92 := rfl
  rw [trakBody, List.length_append, front, Rtsp.box_length "mdia" _ rfl, mdia_length]
  omega

theorem moov_length : (moovBody config).length = 568 + config.asc.length := by
  have ends : (Rtmp.writeFullBox "mvhd" 0 0 (mvhdBody config)).length = 108 ∧ mvex.length = 40 := ⟨rfl, rfl⟩
  rw [moovBody, List.length_append, List.length_append, ends.1, ends.2, Rtsp.box_length "trak" _ rfl, trak_length]
  omega

variable (fits : (esPayload config.asc).length < 2 ^ 28)

include fits

theorem mp4a_yields : Yields (mp4a config) (some (box "mp4a" (mp4aBody config))) := by
  have inner := esds_yields config.asc
  rw [sized, if_pos fits] at inner
  exact write_box_yields "mp4a" _ _ rfl ((Writer.put_yields (sampleEntry config)).next inner)

theorem stbl_yields : Yields (stbl config) (some (box "stbl" (stblBody config))) := by
  have stsd := write_full_box_yields "stsd" 0 0 _ _ rfl ((Writer.put_yields (u32 1)).next (mp4a_yields config fits))
  exact write_box_yields "stbl" _ _ rfl (stsd.next (Writer.put_yields emptyTables))

theorem minf_yields : Yields (minf config) (some (box "minf" (minfBody config))) := by
  have smhd := write_full_box_yields "smhd" 0 0 _ _ rfl (Writer.put_yields smhdBody)
  exact write_box_yields "minf" _ _ rfl (smhd.next ((Writer.put_yields dinf).next (stbl_yields config fits)))

theorem mdia_yields : Yields (mdia config) (some (box "mdia" (mdiaBody config))) := by
  have mdhd := write_full_box_yields "mdhd" 0 0 _ _ rfl (Writer.put_yields (mdhdBody config))
  have hdlr := write_full_box_yields "hdlr" 0 0 _ _ rfl (Writer.put_yields hdlrBody)
  exact write_box_yields "mdia" _ _ rfl (mdhd.next (hdlr.next (minf_yields config fits)))

theorem trak_yields : Yields (trak config) (some (box "trak" (trakBody config))) := by
  have tkhd := write_full_box_yields "tkhd" 0 3 _ _ rfl (Writer.put_yields tkhdBody)
  exact write_box_yields "trak" _ _ rfl (tkhd.next (mdia_yields config fits))

theorem moov_yields : Yields (moov config) (some (box "moov" (moovBody config))) := by
  have mvhd := write_full_box_yields "mvhd" 0 0 _ _ rfl (Writer.put_yields (mvhdBody config))
  exact write_box_yields "moov" _ _ rfl (mvhd.next ((trak_yields config fits).next (Writer.put_yields mvex)))

theorem audio_init_segment_eq : audioInitSegment config = some (ftyp ++ box "moov" (moovBody config)) := by
  have whole := (Writer.put_yields ftyp).next (moov_yields config fits) []
  rwa [Option.bind_some, Option.map_some, Option.map_some, List.nil_append] at whole

end Bodies

end Lvqr.Rtmp.Fmp4
