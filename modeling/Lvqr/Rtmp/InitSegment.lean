import Lvqr.Rtmp.Flv
import Lvqr.Rtsp.Fmp4

set_option autoImplicit false

-- The video init segment that the bridge writes from a sequence header, and the way
-- back to the decoder configuration in it.
namespace Lvqr.Rtmp

open Cmaf (fourCc)
open Flv (VideoConfig parseAvccRecord readSets)
open Rtsp (box boxBody)

-- `write_box` writes the size as a u32 cast.
def writeFullBox (kind : String) (version flags : Nat) (body : Bytes) : Bytes :=
  box kind (BigEndian.bytes 1 version ++ (BigEndian.bytes 3 flags ++ body))

def u16 (value : Nat) : Bytes := BigEndian.bytes 2 value

def u32 (value : Nat) : Bytes := BigEndian.bytes 4 value

def zeros (count : Nat) : Bytes := List.replicate count 0

def matrix : Bytes := [0x00010000, 0, 0, 0, 0x00010000, 0, 0, 0, 0x40000000].flatMap u32

def writeSets (sets : List Bytes) : Bytes := sets.flatMap fun set => u16 set.length ++ set

-- The length size is a constant here, whatever the configuration says.
def avccRecord (config : VideoConfig) : Bytes :=
  [1, config.profile, config.compat, config.level, 0xFF, 0xE0 ||| UInt8.ofNat config.spsList.length] ++
    (writeSets config.spsList ++ (UInt8.ofNat config.ppsList.length :: writeSets config.ppsList))

section Boxes

variable (config : VideoConfig) (width height : UInt16)

def ftyp : Bytes :=
  box "ftyp" (fourCc "isom" ++ (u32 0 ++ (fourCc "isom" ++ (fourCc "iso6" ++ (fourCc "msdh" ++ fourCc "msix")))))

def mvhd : Bytes :=
  writeFullBox "mvhd" 0 0 (u32 0 ++ (u32 0 ++ (u32 90000 ++ (u32 0 ++ (u32 0x00010000 ++ (u16 0x0100 ++ (zeros 10 ++
    (matrix ++ (zeros 24 ++ u32 2)))))))))

def tkhd : Bytes :=
  writeFullBox "tkhd" 0 3 (u32 0 ++ (u32 0 ++ (u32 1 ++ (u32 0 ++ (u32 0 ++ (zeros 8 ++ (u16 0 ++ (u16 0 ++ (u16 0 ++
    (u16 0 ++ (matrix ++ (u32 (width.toNat * 2 ^ 16) ++ u32 (height.toNat * 2 ^ 16)))))))))))))

def mdhd : Bytes := writeFullBox "mdhd" 0 0 (u32 0 ++ (u32 0 ++ (u32 90000 ++ (u32 0 ++ u32 0x55C40000))))

def hdlr : Bytes := writeFullBox "hdlr" 0 0 (u32 0 ++ (fourCc "vide" ++ (zeros 12 ++ (fourCc "LVQR Video" ++ [0]))))

def vmhd : Bytes := writeFullBox "vmhd" 0 1 (u16 0 ++ zeros 6)

def dinf : Bytes := box "dinf" (writeFullBox "dref" 0 0 (u32 1 ++ writeFullBox "url " 0 1 []))

def sampleEntry : Bytes :=
  zeros 6 ++ (u16 1 ++ (zeros 16 ++ (u16 width.toNat ++ (u16 height.toNat ++ (u32 0x00480000 ++ (u32 0x00480000 ++
    (u32 0 ++ (u16 1 ++ (zeros 32 ++ (u16 0x0018 ++ u16 0xFFFF))))))))))

def stsd : Bytes :=
  writeFullBox "stsd" 0 0 (u32 1 ++ box "avc1" (sampleEntry width height ++ box "avcC" (avccRecord config)))

def emptyTables : Bytes :=
  writeFullBox "stts" 0 0 (u32 0) ++ (writeFullBox "stsc" 0 0 (u32 0) ++ (writeFullBox "stsz" 0 0 (u32 0 ++ u32 0) ++
    writeFullBox "stco" 0 0 (u32 0)))

def stbl : Bytes := box "stbl" (stsd config width height ++ emptyTables)

def minf : Bytes := box "minf" (vmhd ++ (dinf ++ stbl config width height))

def mdia : Bytes := box "mdia" (mdhd ++ (hdlr ++ minf config width height))

def trak : Bytes := box "trak" (tkhd width height ++ mdia config width height)

def mvex : Bytes := box "mvex" (writeFullBox "trex" 0 0 (u32 1 ++ (u32 1 ++ (u32 0 ++ (u32 0 ++ u32 0)))))

def videoInitSegmentWithSize : Bytes := ftyp ++ box "moov" (mvhd ++ (trak config width height ++ mvex))

end Boxes

-- The avcC box of an init segment, by a walk down the boxes it stands in.
def initAvcc (init : Bytes) : Option Bytes := do
  let moov ← boxBody "moov" init
  let trak ← boxBody "trak" moov
  let mdia ← boxBody "mdia" trak
  let minf ← boxBody "minf" mdia
  let stbl ← boxBody "stbl" minf
  let stsd ← boxBody "stsd" stbl
  let avc1 ← boxBody "avc1" (stsd.drop 8)
  boxBody "avcC" (avc1.drop 78)

-- What the counts and the lengths of the record have room for.
structure Encodable (config : VideoConfig) : Prop where
  spsCount : config.spsList.length < 2 ^ 5
  ppsCount : config.ppsList.length < 2 ^ 8
  spsLengths : ∀ set ∈ config.spsList, set.length < 2 ^ 16
  ppsLengths : ∀ set ∈ config.ppsList, set.length < 2 ^ 16
  someSps : config.spsList ≠ []
  somePps : config.ppsList ≠ []

theorem read_sets_accepted (count : Nat) (data : Bytes) (sets : List Bytes) (rest : Bytes)
    (read : readSets count data = some (sets, rest)) : sets.length = count ∧ ∀ set ∈ sets, set.length < 2 ^ 16 := by
  induction count generalizing data sets with
  | zero =>
      obtain ⟨rfl, _⟩ := Prod.mk.inj (Option.some.inj read)
      exact ⟨rfl, fun set member => absurd member List.not_mem_nil⟩
  | succ count ih =>
      rw [readSets] at read
      split at read
      · cases read
      · rename_i header
        dsimp only at read
        split at read
        · cases read
        · obtain ⟨⟨others, last⟩, readOthers, isSets⟩ := Option.map_eq_some_iff.mp read
          obtain ⟨rfl, rfl⟩ := Prod.mk.inj isSets
          obtain ⟨counted, small⟩ := ih _ _ readOthers
          refine ⟨congrArg Nat.succ counted, List.forall_mem_cons.mpr ⟨?_, small⟩⟩
          have bound := BigEndian.value_lt (data.take 2)
          rw [List.length_take, Nat.min_eq_left (by omega)] at bound
          exact Nat.lt_of_le_of_lt (List.length_take_le _ _) bound

theorem read_sets_written (sets : List Bytes) (rest : Bytes) (small : ∀ set ∈ sets, set.length < 2 ^ 16) :
    readSets sets.length (writeSets sets ++ rest) = some (sets, rest) := by
  induction sets with
  | nil => rfl
  | cons set sets ih =>
      obtain ⟨here, others⟩ := List.forall_mem_cons.mp small
      have front : writeSets (set :: sets) ++ rest = u16 set.length ++ (set ++ (writeSets sets ++ rest)) := by
        rw [writeSets, List.flatMap_cons, List.append_assoc, List.append_assoc]
        rfl
      have header : (u16 set.length).length = 2 := BigEndian.bytes_length _ _
      have long : ¬ (u16 set.length ++ (set ++ (writeSets sets ++ rest))).length < 2 := by
        rw [List.length_append, header]
        omega
      have inside : ¬ (set ++ (writeSets sets ++ rest)).length < set.length := by
        rw [List.length_append]
        omega
      have length : BigEndian.value (u16 set.length) = set.length := BigEndian.value_bytes 2 _ here
      rw [front, List.length_cons, readSets, if_neg long]
      dsimp only
      rw [List.take_left' header, List.drop_left' header, length, if_neg inside, List.take_left, List.drop_left, ih others]
      rfl

theorem low_bits_lt (byte : UInt8) : (byte &&& 0x1F).toNat < 2 ^ 5 := by
  rw [UInt8.toNat_and]
  exact Nat.lt_of_le_of_lt Nat.and_le_right (by decide)

theorem count_bits (count : Nat) (small : count < 2 ^ 5) : ((0xE0 ||| UInt8.ofNat count) &&& 0x1F).toNat = count := by
  have all : ∀ count < 2 ^ 5, ((0xE0 ||| UInt8.ofNat count) &&& 0x1F).toNat = count := by decide +kernel
  exact all count small

theorem record_accepted (record : Bytes) (config : VideoConfig) (parsed : parseAvccRecord record = some config) :
    Encodable config ∧ config.naluLengthSize = (record.getD 4 0 &&& 0x03) + 1 := by
  rw [parseAvccRecord] at parsed
  split at parsed
  · cases parsed
  · split at parsed
    · cases parsed
    · cases parsed
    · rename_i spsList numPps rest readSps
      split at parsed
      · cases parsed
      · rename_i ppsList last readPps
        obtain ⟨spsCount, spsLengths⟩ := read_sets_accepted _ _ spsList _ readSps
        obtain ⟨ppsCount, ppsLengths⟩ := read_sets_accepted _ _ ppsList last readPps
        split at parsed
        · cases parsed
        · rename_i nonempty
          obtain ⟨someSps, somePps⟩ := not_or.mp nonempty
          obtain rfl := Option.some.inj parsed
          have spsRoom : spsList.length < 2 ^ 5 := spsCount ▸ low_bits_lt _
          have ppsRoom : ppsList.length < 2 ^ 8 := ppsCount ▸ numPps.toNat_lt
          exact ⟨⟨spsRoom, ppsRoom, spsLengths, ppsLengths, someSps, somePps⟩, rfl⟩

theorem parse_written (config : VideoConfig) (encodable : Encodable config) :
    parseAvccRecord (avccRecord config) = some { config with naluLengthSize := 4 } := by
  have sps := read_sets_written config.spsList (UInt8.ofNat config.ppsList.length :: writeSets config.ppsList)
    encodable.spsLengths
  have pps := read_sets_written config.ppsList [] encodable.ppsLengths
  rw [List.append_nil] at pps
  have long : ¬ (avccRecord config).length < 6 := by
    rw [avccRecord, List.length_append]
    simp
  have spsCount : ((avccRecord config).getD 5 0 &&& 0x1F).toNat = config.spsList.length :=
    count_bits _ encodable.spsCount
  have behind : (avccRecord config).drop 6 =
      writeSets config.spsList ++ (UInt8.ofNat config.ppsList.length :: writeSets config.ppsList) := rfl
  have ppsCount : (UInt8.ofNat config.ppsList.length).toNat = config.ppsList.length := by
    rw [UInt8.toNat_ofNat']
    exact Nat.mod_eq_of_lt encodable.ppsCount
  rw [parseAvccRecord, if_neg long, spsCount, behind, sps]
  dsimp only
  rw [ppsCount, pps]
  dsimp only
  have lengthSize : ((avccRecord config).getD 4 0 &&& 0x03) + 1 = 4 := show ((0xFF : UInt8) &&& 0x03) + 1 = 4 by decide
  rw [if_neg (not_or.mpr ⟨encodable.someSps, encodable.somePps⟩), lengthSize]
  rfl

theorem write_sets_length (sets : List Bytes) (small : ∀ set ∈ sets, set.length < 2 ^ 16) :
    (writeSets sets).length ≤ sets.length * (2 ^ 16 + 1) := by
  induction sets with
  | nil => exact Nat.le_refl 0
  | cons set sets ih =>
      obtain ⟨here, others⟩ := List.forall_mem_cons.mp small
      have rest := ih others
      have front : (writeSets (set :: sets)).length = 2 + set.length + (writeSets sets).length := by
        rw [writeSets, List.flatMap_cons, List.length_append, List.length_append, u16, BigEndian.bytes_length]
        rfl
      rw [front, List.length_cons]
      omega

theorem record_length (config : VideoConfig) (encodable : Encodable config) : (avccRecord config).length < 2 ^ 25 := by
  have sps := write_sets_length config.spsList encodable.spsLengths
  have pps := write_sets_length config.ppsList encodable.ppsLengths
  have spsCount := encodable.spsCount
  have ppsCount := encodable.ppsCount
  have length : (avccRecord config).length =
      7 + (writeSets config.spsList).length + (writeSets config.ppsList).length := by
    rw [avccRecord, List.length_append, List.length_append, List.length_cons]
    simp only [List.length_cons, List.length_nil]
    omega
  omega

theorem full_box_length (kind : String) (version flags : Nat) (body : Bytes) (named : kind.toList.length = 4) :
    (writeFullBox kind version flags body).length = 12 + body.length := by
  rw [writeFullBox, Rtsp.box_length kind _ named, List.length_append, List.length_append, BigEndian.bytes_length,
    BigEndian.bytes_length]
  omega

@[simp] theorem u16_length (value : Nat) : (u16 value).length = 2 := BigEndian.bytes_length 2 value

@[simp] theorem u32_length (value : Nat) : (u32 value).length = 4 := BigEndian.bytes_length 4 value

@[simp] theorem zeros_length (count : Nat) : (zeros count).length = count := List.length_replicate

@[simp] theorem matrix_length : matrix.length = 36 := rfl

section Sizes

variable (config : VideoConfig) (width height : UInt16)

theorem sample_entry_length : (sampleEntry width height).length = 78 := by
  simp [sampleEntry]

theorem stsd_length : (stsd config width height).length = 110 + (avccRecord config).length := by
  rw [stsd, full_box_length "stsd" _ _ _ rfl, List.length_append, Rtsp.box_length "avc1" _ rfl, List.length_append,
    Rtsp.box_length "avcC" _ rfl, sample_entry_length, u32_length]
  omega

theorem tables_length : emptyTables.length = 68 := by
  simp [emptyTables, full_box_length "stts" _ _ _ rfl, full_box_length "stsc" _ _ _ rfl, full_box_length "stsz" _ _ _ rfl,
    full_box_length "stco" _ _ _ rfl]

theorem stbl_body_length :
    (stsd config width height ++ emptyTables).length = 178 + (avccRecord config).length := by
  rw [List.length_append, stsd_length, tables_length]
  omega

theorem minf_body_length :
    (vmhd ++ (dinf ++ stbl config width height)).length = 242 + (avccRecord config).length := by
  have front : vmhd.length = 20 ∧ dinf.length = 36 := ⟨rfl, rfl⟩
  rw [List.length_append, List.length_append, front.1, front.2, stbl, Rtsp.box_length "stbl" _ rfl, stbl_body_length]
  omega

theorem mdia_body_length :
    (mdhd ++ (hdlr ++ minf config width height)).length = 325 + (avccRecord config).length := by
  have front : mdhd.length = 32 ∧ hdlr.length = 43 := ⟨rfl, rfl⟩
  rw [List.length_append, List.length_append, front.1, front.2, minf, Rtsp.box_length "minf" _ rfl, minf_body_length]
  omega

theorem trak_body_length :
    (tkhd width height ++ mdia config width height).length = 425 + (avccRecord config).length := by
  have header : (tkhd width height).length = 92 := by
    simp [tkhd, full_box_length "tkhd" _ _ _ rfl]
  rw [List.length_append, header, mdia, Rtsp.box_length "mdia" _ rfl, mdia_body_length]
  omega

theorem moov_body_length :
    (mvhd ++ (trak config width height ++ mvex)).length = 581 + (avccRecord config).length := by
  have ends : mvhd.length = 108 ∧ mvex.length = 40 := ⟨rfl, rfl⟩
  rw [List.length_append, List.length_append, ends.1, ends.2, trak, Rtsp.box_length "trak" _ rfl, trak_body_length]
  omega

end Sizes

theorem box_body_last (kind : String) (body : Bytes) (named : kind.toList.length = 4) (fits : 8 + body.length < 2 ^ 32) :
    boxBody kind (box kind body) = some body := by
  have here := Rtsp.box_body_here kind body [] named fits
  rwa [List.append_nil] at here

theorem full_box_past (kind other : String) (version flags : Nat) (body rest : Bytes) (named : other.toList.length = 4)
    (apart : fourCc other ≠ fourCc kind) (fits : 12 + body.length < 2 ^ 32) :
    boxBody kind (writeFullBox other version flags body ++ rest) = boxBody kind rest := by
  refine Rtsp.box_body_past kind other _ rest named apart ?_
  rw [List.length_append, List.length_append, BigEndian.bytes_length, BigEndian.bytes_length]
  omega

section Walk

variable (config : VideoConfig) (width height : UInt16) (encodable : Encodable config)

include encodable

theorem moov_found : boxBody "moov" (videoInitSegmentWithSize config width height) =
    some (mvhd ++ (trak config width height ++ mvex)) := by
  have small := record_length config encodable
  have size := moov_body_length config width height
  rw [videoInitSegmentWithSize, ftyp, Rtsp.box_body_past "moov" "ftyp" _ _ rfl (by decide) (by decide)]
  exact box_body_last "moov" _ rfl (by omega)

theorem trak_found : boxBody "trak" (mvhd ++ (trak config width height ++ mvex)) =
    some (tkhd width height ++ mdia config width height) := by
  have small := record_length config encodable
  have size := trak_body_length config width height
  rw [mvhd, full_box_past "trak" "mvhd" _ _ _ _ rfl (by decide) (by decide), trak]
  exact Rtsp.box_body_here "trak" _ _ rfl (by omega)

theorem mdia_found : boxBody "mdia" (tkhd width height ++ mdia config width height) =
    some (mdhd ++ (hdlr ++ minf config width height)) := by
  have small := record_length config encodable
  have size := mdia_body_length config width height
  rw [tkhd, full_box_past "mdia" "tkhd" _ _ _ _ rfl (by decide) (by simp), mdia]
  exact box_body_last "mdia" _ rfl (by omega)

theorem minf_found : boxBody "minf" (mdhd ++ (hdlr ++ minf config width height)) =
    some (vmhd ++ (dinf ++ stbl config width height)) := by
  have small := record_length config encodable
  have size := minf_body_length config width height
  rw [mdhd, full_box_past "minf" "mdhd" _ _ _ _ rfl (by decide) (by decide), hdlr,
    full_box_past "minf" "hdlr" _ _ _ _ rfl (by decide) (by decide), minf]
  exact box_body_last "minf" _ rfl (by omega)

theorem stbl_found : boxBody "stbl" (vmhd ++ (dinf ++ stbl config width height)) =
    some (stsd config width height ++ emptyTables) := by
  have small := record_length config encodable
  have size := stbl_body_length config width height
  rw [vmhd, full_box_past "stbl" "vmhd" _ _ _ _ rfl (by decide) (by decide), dinf,
    Rtsp.box_body_past "stbl" "dinf" _ _ rfl (by decide) (by decide), stbl]
  exact box_body_last "stbl" _ rfl (by omega)

theorem stsd_found : boxBody "stsd" (stsd config width height ++ emptyTables) =
    some (BigEndian.bytes 1 0 ++ (BigEndian.bytes 3 0 ++
      (u32 1 ++ box "avc1" (sampleEntry width height ++ box "avcC" (avccRecord config))))) := by
  have small := record_length config encodable
  rw [stsd, writeFullBox]
  refine Rtsp.box_body_here "stsd" _ _ rfl ?_
  rw [List.length_append, List.length_append, List.length_append, Rtsp.box_length "avc1" _ rfl, List.length_append,
    sample_entry_length, Rtsp.box_length "avcC" _ rfl, BigEndian.bytes_length, BigEndian.bytes_length, u32_length]
  omega

theorem avc1_found : boxBody "avc1" (box "avc1" (sampleEntry width height ++ box "avcC" (avccRecord config))) =
    some (sampleEntry width height ++ box "avcC" (avccRecord config)) := by
  have small := record_length config encodable
  refine box_body_last "avc1" _ rfl ?_
  rw [List.length_append, sample_entry_length, Rtsp.box_length "avcC" _ rfl]
  omega

theorem init_avcc_written : initAvcc (videoInitSegmentWithSize config width height) = some (avccRecord config) := by
  have small := record_length config encodable
  rw [initAvcc, moov_found config width height encodable]
  dsimp only [Option.bind_eq_bind, Option.bind_some]
  rw [trak_found config width height encodable, Option.bind_some, mdia_found config width height encodable,
    Option.bind_some, minf_found config width height encodable, Option.bind_some,
    stbl_found config width height encodable, Option.bind_some, stsd_found config width height encodable, Option.bind_some]
  show (boxBody "avc1" (box "avc1" (sampleEntry width height ++ box "avcC" (avccRecord config)))).bind
    (fun avc1 => boxBody "avcC" (avc1.drop 78)) = _
  rw [avc1_found config width height encodable, Option.bind_some, List.drop_left' (sample_entry_length width height)]
  exact box_body_last "avcC" _ rfl (by omega)

end Walk

-- The configuration that the init segment of a record carries.
def carried (config : VideoConfig) (width height : UInt16) : Option VideoConfig :=
  (initAvcc (videoInitSegmentWithSize config width height)).bind parseAvccRecord

theorem carried_config (config : VideoConfig) (width height : UInt16) (encodable : Encodable config) :
    carried config width height = some { config with naluLengthSize := 4 } := by
  rw [carried, init_avcc_written config width height encodable]
  exact parse_written config encodable

theorem length_size_four (byte : UInt8) : (byte &&& 0x03) + 1 = 4 ↔ byte &&& 0x03 = 3 := by
  constructor
  · intro four
    have three := congrArg (· - 1) four
    simpa using three
  · intro three
    rw [three]
    rfl

-- The samples keep the length size of the record, and the segment keeps everything
-- else of it.
theorem carried_config_iff (record : Bytes) (width height : UInt16) :
    (∀ config, parseAvccRecord record = some config → carried config width height = some config) ↔
      (parseAvccRecord record ≠ none → record.getD 4 0 &&& 0x03 = 3) := by
  constructor
  · intro kept accepted
    obtain ⟨config, parsed⟩ := Option.ne_none_iff_exists'.mp accepted
    obtain ⟨encodable, lengthSize⟩ := record_accepted record config parsed
    have same := kept config parsed
    rw [carried_config config width height encodable] at same
    have four : config.naluLengthSize = 4 := (congrArg VideoConfig.naluLengthSize (Option.some.inj same)).symm
    rw [lengthSize] at four
    exact (length_size_four _).mp four
  · intro three config parsed
    obtain ⟨encodable, lengthSize⟩ := record_accepted record config parsed
    have four : config.naluLengthSize = 4 := by
      rw [lengthSize]
      exact (length_size_four _).mpr (three (by rw [parsed]; exact Option.some_ne_none config))
    rw [carried_config config width height encodable, ← four]

theorem pushed_payload (overflowChecks : Bool) (stream : ActiveStream) (data : Bytes) (timestamp : UInt32)
    (sample : Cmaf.RawSample) (fragment : Media.Fragment)
    (pushed : videoCallback overflowChecks stream data timestamp = some (some (sample, fragment))) :
    sample.payload = data.drop 5 := by
  obtain ⟨_, _, done⟩ := video_callback_pushed overflowChecks stream data timestamp sample fragment pushed
  exact (push_picture_some overflowChecks stream _ _ _ _ sample fragment done).1

-- The tag as the bridge takes it: h264-reader finds the dimensions in the first SPS.
def bridgeTag (dimensions : Bytes → UInt16 × UInt16) : Flv.VideoTag → FlvVideoTag
  | .sequenceHeader config =>
      let (width, height) := dimensions (config.spsList.headD [])
      .sequenceHeader (videoInitSegmentWithSize config width height)
  | .nalu keyframe cts data => .nalu keyframe cts data
  | .endOfSequence => .endOfSequence
  | .unknown => .unknown

theorem avc_configuration_kept_iff (record : Bytes) (width height : UInt16) :
    ((∀ config, parseAvccRecord record = some config → carried config width height = some config) ↔
      (parseAvccRecord record ≠ none → record.getD 4 0 &&& 0x03 = 3)) ∧
      ∀ overflowChecks stream data timestamp sample fragment,
        videoCallback overflowChecks stream data timestamp = some (some (sample, fragment)) →
          sample.payload = data.drop 5 :=
  ⟨carried_config_iff record width height, pushed_payload⟩

-- Two bytes in front of each NAL unit.
def shortLengths : Bytes := [1, 0x64, 0, 0x1F, 0xFD, 0xE1, 0, 1, 0x67, 1, 0, 1, 0x68]

theorem short_lengths_lost :
    parseAvccRecord shortLengths = some ⟨[[0x67]], [[0x68]], 0x64, 0, 0x1F, 2⟩ ∧
      carried ⟨[[0x67]], [[0x68]], 0x64, 0, 0x1F, 2⟩ 1280 720 = some ⟨[[0x67]], [[0x68]], 0x64, 0, 0x1F, 4⟩ ∧
      ¬ ∀ record width height config, parseAvccRecord record = some config → carried config width height = some config := by
  have parsed : parseAvccRecord shortLengths = some ⟨[[0x67]], [[0x68]], 0x64, 0, 0x1F, 2⟩ := by decide +kernel
  have written : carried ⟨[[0x67]], [[0x68]], 0x64, 0, 0x1F, 2⟩ 1280 720 = some ⟨[[0x67]], [[0x68]], 0x64, 0, 0x1F, 4⟩ := by
    decide +kernel
  refine ⟨parsed, written, fun always => ?_⟩
  have same := always shortLengths 1280 720 _ parsed
  rw [written] at same
  exact absurd same (by decide)

end Lvqr.Rtmp
