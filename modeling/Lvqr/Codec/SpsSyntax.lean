import Lvqr.Codec.Hevc
import Lvqr.Lib.Bits

set_option autoImplicit false

-- The HEVC sequence parameter set as an encoder writes it, up to the fields
-- `parse_sps` wants.
namespace Lvqr.Codec

open BitReader

-- Emulation prevention: no two zeros are followed by a byte up to 3. `zeros` is
-- how many zeros end what has been written, at most two.
def ebspFrom (zeros : Nat) : Bytes → Bytes
  | [] => []
  | byte :: rest =>
      if zeros = 2 ∧ byte ≤ 3 then 3 :: byte :: ebspFrom (if byte = 0 then 1 else 0) rest
      else byte :: ebspFrom (if byte = 0 then zeros + 1 else 0) rest

def ebspFromRbsp (rbsp : Bytes) : Bytes := ebspFrom 0 rbsp

theorem ebsp_cons (zeros : Nat) (byte : UInt8) (rest : Bytes) :
    ebspFrom zeros (byte :: rest) =
      if zeros = 2 ∧ byte ≤ 3 then 3 :: byte :: ebspFrom (if byte = 0 then 1 else 0) rest
      else byte :: ebspFrom (if byte = 0 then zeros + 1 else 0) rest := rfl

theorem rbsp_mark (rest : Bytes) : rbspFromEbsp (0 :: 0 :: 3 :: rest) = 0 :: 0 :: rbspFromEbsp rest := rfl

theorem rbsp_unmarked (byte : UInt8) (rest : Bytes) (unmarked : ¬ [0, 0, 3] <+: byte :: rest) :
    rbspFromEbsp (byte :: rest) = byte :: rbspFromEbsp rest := by
  rw [rbspFromEbsp]
  rintro more rfl rfl
  exact unmarked ⟨more, rfl⟩

theorem rbsp_cons (byte : UInt8) (rest : Bytes) (plain : byte ≠ 0) :
    rbspFromEbsp (byte :: rest) = byte :: rbspFromEbsp rest :=
  rbsp_unmarked byte rest fun marked => plain (List.cons_prefix_cons.mp marked).1.symm

theorem rbsp_zero_cons (byte : UInt8) (rest : Bytes) (plain : byte ≠ 0) :
    rbspFromEbsp (0 :: byte :: rest) = 0 :: byte :: rbspFromEbsp rest := by
  have unmarked : ¬ [0, 0, 3] <+: 0 :: byte :: rest := fun marked =>
    plain (List.cons_prefix_cons.mp (List.cons_prefix_cons.mp marked).2).1.symm
  rw [rbsp_unmarked 0 _ unmarked, rbsp_cons byte rest plain]

theorem rbsp_zeros_cons (byte : UInt8) (rest : Bytes) (plain : 3 < byte) :
    rbspFromEbsp (0 :: 0 :: byte :: rest) = 0 :: 0 :: byte :: rbspFromEbsp rest := by
  have notZero : byte ≠ 0 := by
    rintro rfl
    exact absurd plain (by decide)
  have notMark : byte ≠ 3 := by
    rintro rfl
    exact absurd plain (by decide)
  have unmarked : ¬ [0, 0, 3] <+: 0 :: 0 :: byte :: rest := fun marked =>
    notMark (List.cons_prefix_cons.mp (List.cons_prefix_cons.mp (List.cons_prefix_cons.mp marked).2).2).1.symm
  rw [rbsp_unmarked 0 _ unmarked, rbsp_zero_cons byte rest notZero]

-- Behind the coded bytes a `final` 3 may stand; it is read or dropped.
theorem rbsp_of_closed_from (zeros : Nat) (rbsp final : Bytes) (few : zeros ≤ 2) (closing : final = [] ∨ final = [3]) :
    ∃ more, rbspFromEbsp (List.replicate zeros 0 ++ (ebspFrom zeros rbsp ++ final)) =
      List.replicate zeros 0 ++ (rbsp ++ more) ∧ (final = [] → more = []) := by
  induction rbsp generalizing zeros with
  | nil =>
      rw [show ebspFrom zeros [] = [] from rfl, List.nil_append]
      rcases closing with rfl | rfl
      · refine ⟨[], ?_, fun _ => rfl⟩
        interval_cases zeros <;> rfl
      · refine ⟨if zeros = 2 then [] else [3], ?_, fun absurd => nomatch absurd⟩
        interval_cases zeros <;> rfl
  | cons byte rest ih =>
      rw [ebsp_cons]
      by_cases guarded : zeros = 2 ∧ byte ≤ 3
      · obtain ⟨rfl, small⟩ := guarded
        rw [if_pos ⟨rfl, small⟩]
        by_cases zero : byte = 0
        · obtain ⟨more, later, plain⟩ := ih 1 (by decide)
          exact ⟨more, by simpa [zero, List.replicate, rbsp_mark] using later, plain⟩
        · obtain ⟨more, later, plain⟩ := ih 0 (by decide)
          exact ⟨more, by simpa [zero, List.replicate, rbsp_mark, rbsp_cons byte _ zero] using later, plain⟩
      · rw [if_neg guarded]
        by_cases zero : byte = 0
        · have fewer : zeros + 1 ≤ 2 := by
            by_contra many
            exact guarded ⟨by omega, by rw [zero]; decide⟩
          obtain ⟨more, later, plain⟩ := ih (zeros + 1) fewer
          rw [if_pos zero, zero]
          exact ⟨more, by simpa [List.replicate_succ', List.append_assoc] using later, plain⟩
        · obtain ⟨more, later, plain⟩ := ih 0 (by decide)
          rw [if_neg zero]
          rw [List.replicate_zero, List.nil_append] at later
          refine ⟨more, ?_, plain⟩
          interval_cases zeros
          · simp [rbsp_cons byte _ zero, later]
          · simp [List.replicate, rbsp_zero_cons byte _ zero, later]
          · have large : 3 < byte := by
              rw [← UInt8.not_le]
              exact fun small => guarded ⟨rfl, small⟩
            simp [List.replicate, rbsp_zeros_cons byte _ large, later]

theorem rbsp_of_closed (rbsp final : Bytes) (closing : final = [] ∨ final = [3]) :
    ∃ more, rbspFromEbsp (ebspFromRbsp rbsp ++ final) = rbsp ++ more ∧ (final = [] → more = []) :=
  rbsp_of_closed_from 0 rbsp final (by decide) closing

theorem rbsp_of_ebsp (rbsp : Bytes) : rbspFromEbsp (ebspFromRbsp rbsp) = rbsp := by
  obtain ⟨more, read, plain⟩ := rbsp_of_closed rbsp [] (.inl rfl)
  rw [plain rfl, List.append_nil, List.append_nil] at read
  exact read

-- No two zeros are followed by a byte below 3.
def Prevented (ebsp : Bytes) : Prop := ∀ byte < 3, ¬ [0, 0, byte] <:+: ebsp

theorem prevented_cons (byte : UInt8) (rest : Bytes) (plain : byte ≠ 0) (prevented : Prevented rest) :
    Prevented (byte :: rest) := by
  intro low small inside
  rcases List.infix_cons_iff.mp inside with here | later
  · exact plain (List.cons_prefix_cons.mp here).1.symm
  · exact prevented low small later

theorem prevented_zero_cons (byte : UInt8) (rest : Bytes) (plain : byte ≠ 0) (prevented : Prevented rest) :
    Prevented (0 :: byte :: rest) := by
  intro low small inside
  rcases List.infix_cons_iff.mp inside with here | later
  · exact plain (List.cons_prefix_cons.mp (List.cons_prefix_cons.mp here).2).1.symm
  · exact prevented_cons byte rest plain prevented low small later

theorem prevented_zeros_cons (byte : UInt8) (rest : Bytes) (large : 3 ≤ byte) (prevented : Prevented rest) :
    Prevented (0 :: 0 :: byte :: rest) := by
  have plain : byte ≠ 0 := by
    rintro rfl
    exact absurd large (by decide)
  intro low small inside
  rcases List.infix_cons_iff.mp inside with here | later
  · have third := (List.cons_prefix_cons.mp (List.cons_prefix_cons.mp here).2).2
    rw [(List.cons_prefix_cons.mp third).1] at small
    exact UInt8.not_le.mpr small large
  · exact prevented_zero_cons byte rest plain prevented low small later

theorem prevented_zeros (zeros : Nat) (few : zeros ≤ 2) : Prevented (List.replicate zeros 0) := by
  intro low small inside
  have short := inside.length_le
  rw [List.length_replicate] at short
  exact Nat.not_lt.mpr few short

theorem ebsp_prevented_from (zeros : Nat) (rbsp : Bytes) (few : zeros ≤ 2) :
    Prevented (List.replicate zeros 0 ++ ebspFrom zeros rbsp) := by
  induction rbsp generalizing zeros with
  | nil =>
      rw [show ebspFrom zeros [] = [] from rfl, List.append_nil]
      exact prevented_zeros zeros few
  | cons byte rest ih =>
      rw [ebsp_cons]
      by_cases guarded : zeros = 2 ∧ byte ≤ 3
      · rw [if_pos guarded, guarded.1]
        refine prevented_zeros_cons 3 _ (by decide) ?_
        by_cases zero : byte = 0
        · rw [if_pos zero, zero]
          exact ih 1 (by decide)
        · rw [if_neg zero]
          exact prevented_cons byte _ zero (ih 0 (by decide))
      · rw [if_neg guarded]
        by_cases zero : byte = 0
        · have fewer : zeros + 1 ≤ 2 := by
            by_contra many
            exact guarded ⟨by omega, by rw [zero]; decide⟩
          have later := ih (zeros + 1) fewer
          rw [List.replicate_succ', List.append_assoc] at later
          rw [if_pos zero, zero]
          exact later
        · have later : Prevented (ebspFrom 0 rest) := ih 0 (by decide)
          rw [if_neg zero]
          interval_cases zeros
          · exact prevented_cons byte _ zero later
          · exact prevented_zero_cons byte _ zero later
          · have large : 3 ≤ byte := by
              refine UInt8.le_of_lt ?_
              rw [← UInt8.not_le]
              exact fun small => guarded ⟨rfl, small⟩
            exact prevented_zeros_cons byte _ large later

-- The coded form holds no start code, and the reader finds the bytes it stands for.
theorem emulation_prevention_undone (rbsp : Bytes) :
    Prevented (ebspFromRbsp rbsp) ∧ rbspFromEbsp (ebspFromRbsp rbsp) = rbsp :=
  ⟨ebsp_prevented_from 0 rbsp (by decide), rbsp_of_ebsp rbsp⟩

-- The parts of a sub-layer that are present; the reader skips both.
structure SubLayer where
  profile : Option (List Bool)
  level : Option (List Bool)
  profile_length : ∀ bits ∈ profile, bits.length = 88
  level_length : ∀ bits ∈ level, bits.length = 8

namespace SubLayer

def presence (layer : SubLayer) : List Bool := [layer.profile.isSome, layer.level.isSome]

def present (layer : SubLayer) : Bool × Bool := (layer.profile.isSome, layer.level.isSome)

def body (layer : SubLayer) : List Bool := layer.profile.getD [] ++ layer.level.getD []

end SubLayer

def subLayersCode (layers : List SubLayer) : List Bool :=
  if layers = [] then []
  else layers.flatMap SubLayer.presence ++
    (List.replicate (2 * (8 - layers.length)) false ++ layers.flatMap SubLayer.body)

-- Ten bits behind the source flags carry constraints of the extended profiles, the
-- 33 bits after them are reserved and zero in every profile. Level 0 is no level.
structure ProfileTierLevel where
  profileSpace : Nat
  tier : Bool
  profileIdc : Nat
  compatibility : Nat
  progressive : Bool
  interlaced : Bool
  nonPacked : Bool
  frameOnly : Bool
  constraints : List Bool
  inbld : Bool
  level : Nat
  space_lt : profileSpace < 2 ^ 2
  idc_lt : profileIdc < 2 ^ 5
  compatibility_lt : compatibility < 2 ^ 32
  constraints_length : constraints.length = 10
  level_lt : level < 2 ^ 8
  level_pos : 0 < level

def ProfileTierLevel.code (ptl : ProfileTierLevel) : List Bool :=
  BitStream.fixed 2 ptl.profileSpace ++ ([ptl.tier] ++ (BitStream.fixed 5 ptl.profileIdc ++
    (BitStream.fixed 32 ptl.compatibility ++ ([ptl.progressive] ++ ([ptl.interlaced] ++ ([ptl.nonPacked] ++
      ([ptl.frameOnly] ++ ((ptl.constraints ++ (List.replicate 33 false ++ [ptl.inbld])) ++
        BitStream.fixed 8 ptl.level))))))))

structure SpsSyntax where
  vpsId : Nat
  nesting : Bool
  ptl : ProfileTierLevel
  subLayers : List SubLayer
  spsId : Nat
  chromaFormatIdc : Nat
  separateColourPlane : Bool
  width : Nat
  height : Nat
  vps_lt : vpsId < 2 ^ 4
  few_layers : subLayers.length ≤ 6
  sps_lt : spsId < 16
  chroma_le : chromaFormatIdc ≤ 3

namespace SpsSyntax

def tailCode (sps : SpsSyntax) : List Bool :=
  subLayersCode sps.subLayers ++ (BitStream.golomb sps.spsId ++ (BitStream.golomb sps.chromaFormatIdc ++
    ((if sps.chromaFormatIdc = 3 then [sps.separateColourPlane] else []) ++
      (BitStream.golomb sps.width ++ BitStream.golomb sps.height))))

def code (sps : SpsSyntax) : List Bool :=
  BitStream.fixed 4 sps.vpsId ++ (BitStream.fixed 3 sps.subLayers.length ++ ([sps.nesting] ++
    (sps.ptl.code ++ sps.tailCode)))

def general (sps : SpsSyntax) : PtlGeneral :=
  ⟨sps.ptl.profileSpace, sps.ptl.tier, sps.ptl.profileIdc, sps.ptl.compatibility, sps.ptl.level⟩

def fields (sps : SpsSyntax) : HevcSps :=
  ⟨sps.ptl.profileSpace, sps.ptl.tier, sps.ptl.profileIdc, sps.ptl.compatibility, sps.ptl.level,
    sps.chromaFormatIdc, sps.width, sps.height⟩

end SpsSyntax

-- `nuh_temporal_id_plus1`, the low bits of the second header byte, is not zero.
structure SpsNal where
  sps : SpsSyntax
  first : UInt8
  second : UInt8
  rbsp : Bytes
  is_sps : (first >>> 1) &&& 0x3F = 33
  temporal : second &&& 0x07 ≠ 0
  encodes : sps.code <+: BitStream.bits rbsp

namespace SpsNal

def payload (nal : SpsNal) : Bytes := ebspFromRbsp nal.rbsp

def bytes (nal : SpsNal) : Bytes := nal.first :: nal.second :: nal.payload

theorem rbsp_bytes (nal : SpsNal) : rbspFromEbsp nal.bytes = nal.first :: nal.second :: nal.rbsp := by
  have plain : nal.second ≠ 0 := by
    intro zero
    exact nal.temporal (by rw [zero]; decide)
  rw [bytes, payload]
  by_cases zero : nal.first = 0
  · rw [zero, rbsp_zero_cons _ _ plain, rbsp_of_ebsp]
  · rw [rbsp_cons _ _ zero, rbsp_cons _ _ plain, rbsp_of_ebsp]

end SpsNal

namespace BitReader

theorem reads_code (count : Nat) (code : List Bool) (length : code.length = count) (fits : count ≤ 32) :
    Reads rest (readBits count) code (BitStream.value code) := by
  subst length
  exact reads_bits code fits

theorem reads_skipped (count : Nat) (code : List Bool) (length : code.length = count) :
    Reads rest (skipBits count) code () := by
  subst length
  exact reads_skip code

end BitReader

theorem bit_eq_one (bit : Bool) : (bit.toNat == 1) = bit := by
  cases bit <;> rfl

theorem reads_ptl_general (space idc compatibility skipped level : List Bool)
    (tier progressive interlaced nonPacked frameOnly : Bool) (space_length : space.length = 2)
    (idc_length : idc.length = 5) (compatibility_length : compatibility.length = 32)
    (skipped_length : skipped.length = 44) (level_length : level.length = 8) :
    Reads rest parsePtlGeneral
      (space ++ ([tier] ++ (idc ++ (compatibility ++ ([progressive] ++ ([interlaced] ++ ([nonPacked] ++
        ([frameOnly] ++ (skipped ++ level)))))))))
      ⟨BitStream.value space, tier, BitStream.value idc, BitStream.value compatibility, BitStream.value level⟩ := by
  refine (reads_code 2 space space_length (by decide)).bind ?_
  refine (reads_bit tier).bind ?_
  refine (reads_code 5 idc idc_length (by decide)).bind ?_
  refine (reads_code 32 compatibility compatibility_length (by decide)).bind ?_
  refine (reads_bit progressive).bind ?_
  refine (reads_bit interlaced).bind ?_
  refine (reads_bit nonPacked).bind ?_
  refine (reads_bit frameOnly).bind ?_
  refine (reads_skipped 44 skipped skipped_length).bind ?_
  rw [← List.append_nil level]
  refine (reads_code 8 level level_length (by decide)).bind ?_
  rw [List.append_nil, bit_eq_one]
  exact Reads.pure _

theorem reads_presence (layers : List SubLayer) :
    Reads rest (readPresence layers.length) (layers.flatMap SubLayer.presence) (layers.map SubLayer.present) := by
  induction layers with
  | nil => exact Reads.pure _
  | cons layer layers ih =>
      have code : (layer :: layers).flatMap SubLayer.presence =
          [layer.profile.isSome] ++ ([layer.level.isSome] ++ (layers.flatMap SubLayer.presence ++ [])) := by
        rw [List.append_nil]
        rfl
      rw [code]
      refine (reads_bit layer.profile.isSome).bind ((reads_bit layer.level.isSome).bind (ih.bind ?_))
      rw [bit_eq_one, bit_eq_one]
      exact Reads.pure _

theorem reads_optional (part : Option (List Bool)) (count : Nat) (length : ∀ bits ∈ part, bits.length = count) :
    Reads rest (if part.isSome = true then skipBits count else pure ()) (part.getD []) () := by
  cases part with
  | none => exact Reads.pure ()
  | some bits => exact reads_skipped count bits (length bits rfl)

theorem reads_bodies (layers : List SubLayer) :
    Reads rest (skipPresent (layers.map SubLayer.present)) (layers.flatMap SubLayer.body) () := by
  induction layers with
  | nil => exact Reads.pure ()
  | cons layer layers ih =>
      rw [List.flatMap_cons, SubLayer.body, List.append_assoc]
      exact (reads_optional layer.profile 88 layer.profile_length).bind
        ((reads_optional layer.level 8 layer.level_length).bind ih)

def subLayersWith (padding : List Bool) (layers : List SubLayer) : List Bool :=
  if layers = [] then [] else layers.flatMap SubLayer.presence ++ (padding ++ layers.flatMap SubLayer.body)

theorem reads_sub_layers (padding : List Bool) (layers : List SubLayer)
    (padded : padding.length = 2 * (8 - layers.length)) :
    Reads rest (parsePtlSublayers layers.length) (subLayersWith padding layers) () := by
  rw [parsePtlSublayers, subLayersWith]
  cases layers with
  | nil => exact Reads.pure ()
  | cons layer layers =>
      rw [if_neg (by simp), if_neg (by simp)]
      exact (reads_presence _).bind ((reads_skipped _ padding padded).bind (reads_bodies _))

def OutOfRange (width height : Nat) : Prop := width = 0 ∨ height = 0 ∨ 16384 < width ∨ 16384 < height

instance (width height : Nat) : Decidable (OutOfRange width height) :=
  inferInstanceAs (Decidable (_ ∨ _))

def spsOutcome (general : PtlGeneral) (chroma width height : Nat) : BitRead HevcSps :=
  if OutOfRange width height then throw (.malformedSps "implausible SPS dimensions")
  else pure ⟨general.generalProfileSpace, general.generalTierFlag, general.generalProfileIdc,
    general.generalProfileCompatibilityFlags, general.generalLevelIdc, chroma, width, height⟩

-- Whatever the skipped bits are, the reader comes to its check of the dimensions.
theorem reaches_dimensions (general : PtlGeneral) (padding : List Bool) (layers : List SubLayer)
    (spsId chroma width height : Nat) (separate : Bool) (padded : padding.length = 2 * (8 - layers.length))
    (id_lt : spsId < 2 ^ 32) (chroma_le : chroma ≤ 3) (width_lt : width < 2 ^ 32) (height_lt : height < 2 ^ 32) :
    Reaches rest (parseSpsTail layers.length general) (spsOutcome general chroma width height)
      (subLayersWith padding layers ++ (BitStream.golomb spsId ++ (BitStream.golomb chroma ++
        ((if chroma = 3 then [separate] else []) ++ (BitStream.golomb width ++ BitStream.golomb height))))) := by
  refine (reads_sub_layers padding layers padded).bind_reaches ?_
  refine (reads_golomb spsId id_lt).bind_reaches ?_
  refine (reads_golomb chroma (by omega)).bind_reaches ?_
  rw [if_neg (by omega)]
  have separated : Reads rest (if chroma = 3 then readBit else pure 0) (if chroma = 3 then [separate] else [])
      (if chroma = 3 then separate.toNat else 0) := by
    split
    · exact reads_bit _
    · exact Reads.pure 0
  refine separated.bind_reaches ?_
  refine (reads_golomb width width_lt).bind_reaches ?_
  exact (reads_golomb height height_lt).reaches _

def SpsSyntax.Plausible (sps : SpsSyntax) : Prop :=
  (1 ≤ sps.width ∧ sps.width ≤ 16384) ∧ 1 ≤ sps.height ∧ sps.height ≤ 16384

theorem reads_sps_tail (sps : SpsSyntax) (within : sps.Plausible) :
    Reads rest (parseSpsTail sps.subLayers.length sps.general) sps.tailCode sps.fields := by
  obtain ⟨⟨wide, narrow⟩, high, low⟩ := within
  have chroma := sps.chroma_le
  have spsId := sps.sps_lt
  have reaches := reaches_dimensions sps.general (List.replicate (2 * (8 - sps.subLayers.length)) false) sps.subLayers
    sps.spsId sps.chromaFormatIdc sps.width sps.height sps.separateColourPlane (List.length_replicate ..) (by omega)
    sps.chroma_le (by omega) (by omega)
  rw [spsOutcome, if_neg (show ¬ OutOfRange sps.width sps.height by unfold OutOfRange; omega)] at reaches
  have reads := reaches.reads (Reads.pure sps.fields)
  rw [List.append_nil] at reads
  exact reads

theorem reaches_sps_tail (vpsId layers ptl : List Bool) (nesting : Bool) (general : PtlGeneral)
    (vps_length : vpsId.length = 4) (layers_length : layers.length = 3) (few : BitStream.value layers ≤ 6)
    (reads : Reads rest parsePtlGeneral ptl general) :
    Reaches rest readSps (parseSpsTail (BitStream.value layers) general) (vpsId ++ (layers ++ ([nesting] ++ ptl))) := by
  refine (reads_code 4 vpsId vps_length (by decide)).bind_reaches ?_
  refine (reads_code 3 layers layers_length (by decide)).bind_reaches ?_
  rw [if_neg (by omega)]
  exact (reads_bit nesting).bind_reaches (reads.reaches _)

theorem reads_sps (sps : SpsSyntax) (within : sps.Plausible) : Reads rest readSps sps.code sps.fields := by
  have few := sps.few_layers
  have layers : BitStream.value (BitStream.fixed 3 sps.subLayers.length) = sps.subLayers.length :=
    BitStream.value_fixed 3 _ (by omega)
  have general := reads_ptl_general (BitStream.fixed 2 sps.ptl.profileSpace) (BitStream.fixed 5 sps.ptl.profileIdc)
    (BitStream.fixed 32 sps.ptl.compatibility) (sps.ptl.constraints ++ (List.replicate 33 false ++ [sps.ptl.inbld]))
    (BitStream.fixed 8 sps.ptl.level) sps.ptl.tier sps.ptl.progressive sps.ptl.interlaced sps.ptl.nonPacked
    sps.ptl.frameOnly (BitStream.fixed_length ..) (BitStream.fixed_length ..) (BitStream.fixed_length ..)
    (by simp [sps.ptl.constraints_length]) (BitStream.fixed_length ..)
  rw [BitStream.value_fixed 2 _ sps.ptl.space_lt, BitStream.value_fixed 5 _ sps.ptl.idc_lt,
    BitStream.value_fixed 32 _ sps.ptl.compatibility_lt, BitStream.value_fixed 8 _ sps.ptl.level_lt] at general
  have head := reaches_sps_tail (BitStream.fixed 4 sps.vpsId) (BitStream.fixed 3 sps.subLayers.length) sps.ptl.code
    sps.nesting sps.general (BitStream.fixed_length ..) (BitStream.fixed_length ..) (by omega) general
  rw [layers] at head
  have whole := head.reads (reads_sps_tail sps within)
  simp only [List.append_assoc] at whole
  exact whole

-- Behind the two header bytes `parse_sps` reads what the encoder wrote.
theorem SpsNal.parse_payload (nal : SpsNal) (within : nal.sps.Plausible) :
    parseSps nal.payload = .ok nal.sps.fields := by
  obtain ⟨tail, whole⟩ := nal.encodes
  obtain ⟨next, ran, _⟩ := reads_sps nal.sps within (BitReader.new nal.rbsp) tail whole.symm
  rw [parseSps, SpsNal.payload, rbsp_of_ebsp, ran]
  rfl

theorem parse_sps_tail_level (layers : Nat) (general : PtlGeneral) (reader last : BitReader) (info : HevcSps)
    (ran : (parseSpsTail layers general).run reader = .ok (info, last)) :
    info.generalLevelIdc = general.generalLevelIdc := by
  obtain ⟨_, _, ran⟩ := read_bind_ok _ _ _ _ _ ran
  obtain ⟨_, _, ran⟩ := read_bind_ok _ _ _ _ _ ran
  obtain ⟨chroma, _, ran⟩ := read_bind_ok _ _ _ _ _ ran
  by_cases large : 3 < chroma
  · rw [if_pos large] at ran
    cases ran
  · rw [if_neg large] at ran
    obtain ⟨_, _, ran⟩ := read_bind_ok _ _ _ _ _ ran
    obtain ⟨width, _, ran⟩ := read_bind_ok _ _ _ _ _ ran
    obtain ⟨height, _, ran⟩ := read_bind_ok _ _ _ _ _ ran
    by_cases odd : width = 0 ∨ height = 0 ∨ 16384 < width ∨ 16384 < height
    · rw [if_pos odd] at ran
      cases ran
    · rw [if_neg odd] at ran
      cases ran
      rfl

theorem sps_header_bits (byte : UInt8) (isSps : (byte >>> 1) &&& 0x3F = 33) :
    ∃ forbidden layer, BitStream.byteBits byte = [forbidden, true, false, false, false, false, true, layer] := by
  revert byte
  apply Bits.forall_byte
  decide +kernel

theorem split_front (front : List Bool) (length : front.length = 62) :
    ∃ (compatibility skipped : List Bool) (progressive interlaced nonPacked frameOnly : Bool),
      compatibility.length = 32 ∧ skipped.length = 26 ∧
        front = compatibility ++ ([progressive] ++ ([interlaced] ++ ([nonPacked] ++ ([frameOnly] ++ skipped)))) := by
  have whole := List.take_append_drop 32 front
  have size : (front.drop 32).length = 30 := by rw [List.length_drop, length]
  rcases parts : front.drop 32 with - | ⟨progressive, - | ⟨interlaced, - | ⟨nonPacked, - | ⟨frameOnly, skipped⟩⟩⟩⟩
  all_goals rw [parts] at size
  · cases size
  · cases size
  · cases size
  · cases size
  · rw [parts] at whole
    refine ⟨front.take 32, skipped, progressive, interlaced, nonPacked, frameOnly, by rw [List.length_take, length]; rfl,
      by simpa using size, whole.symm⟩

theorem SpsSyntax.code_front (sps : SpsSyntax) :
    ∃ front back, front.length = 62 ∧ sps.code = front ++ (List.replicate 33 false ++ back) := by
  refine ⟨BitStream.fixed 4 sps.vpsId ++ (BitStream.fixed 3 sps.subLayers.length ++ ([sps.nesting] ++
    (BitStream.fixed 2 sps.ptl.profileSpace ++ ([sps.ptl.tier] ++ (BitStream.fixed 5 sps.ptl.profileIdc ++
      (BitStream.fixed 32 sps.ptl.compatibility ++ ([sps.ptl.progressive] ++ ([sps.ptl.interlaced] ++
        ([sps.ptl.nonPacked] ++ ([sps.ptl.frameOnly] ++ sps.ptl.constraints)))))))))),
    [sps.ptl.inbld] ++ (BitStream.fixed 8 sps.ptl.level ++ sps.tailCode), ?_, ?_⟩
  · simp [sps.ptl.constraints_length]
  · simp only [SpsSyntax.code, ProfileTierLevel.code, List.append_assoc]

-- Read from its header on, an SPS shows reserved zeros where the level is expected.
theorem SpsNal.parse_bytes_level (nal : SpsNal) (info : HevcSps) (parsed : parseSps nal.bytes = .ok info) :
    info.generalLevelIdc = 0 := by
  obtain ⟨forbidden, layer, firstBits⟩ := sps_header_bits nal.first nal.is_sps
  obtain ⟨tail, whole⟩ := nal.encodes
  obtain ⟨front, back, length, code⟩ := nal.sps.code_front
  obtain ⟨compatibility, skipped, progressive, interlaced, nonPacked, frameOnly, compatibility_length,
    skipped_length, parts⟩ := split_front front length
  obtain ⟨b7, b6, b5, b4, b3, b2, b1, b0, secondBits⟩ : ∃ b7 b6 b5 b4 b3 b2 b1 b0,
      BitStream.byteBits nal.second = [b7, b6, b5, b4, b3, b2, b1, b0] := ⟨_, _, _, _, _, _, _, _, rfl⟩
  have general := reads_ptl_general [b7, b6] [b4, b3, b2, b1, b0] compatibility (skipped ++ List.replicate 18 false)
    (List.replicate 8 false) b5 progressive interlaced nonPacked frameOnly rfl rfl compatibility_length
    (by simp [skipped_length]) rfl
  have head := reaches_sps_tail [forbidden, true, false, false] [false, false, true] _ layer _ rfl rfl (by decide) general
  obtain ⟨next, ran, _⟩ := head (BitReader.new (rbspFromEbsp nal.bytes)) (List.replicate 7 false ++ (back ++ tail)) (by
    rw [nal.rbsp_bytes, BitReader.rest, BitReader.new, List.drop_zero, BitStream.bits_cons, BitStream.bits_cons,
      firstBits, secondBits, ← whole, code, parts]
    simp [List.replicate])
  rw [parseSps, ran] at parsed
  cases finished : (parseSpsTail (BitStream.value [false, false, true]) _).run next with
  | error error =>
      rw [finished] at parsed
      cases parsed
  | ok pair =>
      rw [finished] at parsed
      obtain rfl : pair.1 = info := Except.ok.inj parsed
      exact parse_sps_tail_level _ _ next pair.2 pair.1 finished

-- So no reading from the header on finds the fields that are there.
theorem SpsNal.parse_bytes_ne (nal : SpsNal) : parseSps nal.bytes ≠ .ok nal.sps.fields := by
  intro parsed
  have level : nal.sps.ptl.level = 0 := nal.parse_bytes_level nal.sps.fields parsed
  exact nal.sps.ptl.level_pos.ne' level

end Lvqr.Codec

-- Every SPS that the syntax has room for, with whatever stands in the bits that
-- `parse_sps` skips.
namespace Lvqr.Codec

open BitReader

structure SpsValue where
  vpsId : Nat
  nesting : Bool
  profileSpace : Nat
  tier : Bool
  profileIdc : Nat
  compatibility : Nat
  progressive : Bool
  interlaced : Bool
  nonPacked : Bool
  frameOnly : Bool
  constraints : List Bool
  level : Nat
  subLayers : List SubLayer
  padding : List Bool
  spsId : Nat
  chromaFormatIdc : Nat
  separateColourPlane : Bool
  width : Nat
  height : Nat
  vps_lt : vpsId < 2 ^ 4
  space_lt : profileSpace < 2 ^ 2
  idc_lt : profileIdc < 2 ^ 5
  compatibility_lt : compatibility < 2 ^ 32
  constraints_length : constraints.length = 44
  level_lt : level < 2 ^ 8
  few_layers : subLayers.length ≤ 6
  padding_length : padding.length = 2 * (8 - subLayers.length)
  sps_lt : spsId < 2 ^ 32
  chroma_le : chromaFormatIdc ≤ 3
  width_lt : width < 2 ^ 32
  height_lt : height < 2 ^ 32

namespace SpsValue

def general (sps : SpsValue) : PtlGeneral :=
  ⟨sps.profileSpace, sps.tier, sps.profileIdc, sps.compatibility, sps.level⟩

def fields (sps : SpsValue) : HevcSps :=
  ⟨sps.profileSpace, sps.tier, sps.profileIdc, sps.compatibility, sps.level, sps.chromaFormatIdc, sps.width, sps.height⟩

def generalCode (sps : SpsValue) : List Bool :=
  BitStream.fixed 2 sps.profileSpace ++ ([sps.tier] ++ (BitStream.fixed 5 sps.profileIdc ++
    (BitStream.fixed 32 sps.compatibility ++ ([sps.progressive] ++ ([sps.interlaced] ++ ([sps.nonPacked] ++
      ([sps.frameOnly] ++ (sps.constraints ++ BitStream.fixed 8 sps.level))))))))

def code (sps : SpsValue) : List Bool :=
  BitStream.fixed 4 sps.vpsId ++ (BitStream.fixed 3 sps.subLayers.length ++ ([sps.nesting] ++ sps.generalCode)) ++
    (subLayersWith sps.padding sps.subLayers ++ (BitStream.golomb sps.spsId ++
      (BitStream.golomb sps.chromaFormatIdc ++ ((if sps.chromaFormatIdc = 3 then [sps.separateColourPlane] else []) ++
        (BitStream.golomb sps.width ++ BitStream.golomb sps.height)))))

theorem reads_general (sps : SpsValue) : Reads rest parsePtlGeneral sps.generalCode sps.general := by
  have general := reads_ptl_general (BitStream.fixed 2 sps.profileSpace) (BitStream.fixed 5 sps.profileIdc)
    (BitStream.fixed 32 sps.compatibility) sps.constraints (BitStream.fixed 8 sps.level) sps.tier sps.progressive
    sps.interlaced sps.nonPacked sps.frameOnly (BitStream.fixed_length ..) (BitStream.fixed_length ..)
    (BitStream.fixed_length ..) sps.constraints_length (BitStream.fixed_length ..)
  rw [BitStream.value_fixed 2 _ sps.space_lt, BitStream.value_fixed 5 _ sps.idc_lt,
    BitStream.value_fixed 32 _ sps.compatibility_lt, BitStream.value_fixed 8 _ sps.level_lt] at general
  exact general

theorem reaches_outcome (sps : SpsValue) :
    Reaches rest readSps (spsOutcome sps.general sps.chromaFormatIdc sps.width sps.height) sps.code := by
  have few := sps.few_layers
  have layers : BitStream.value (BitStream.fixed 3 sps.subLayers.length) = sps.subLayers.length :=
    BitStream.value_fixed 3 _ (by omega)
  have head := reaches_sps_tail (BitStream.fixed 4 sps.vpsId) (BitStream.fixed 3 sps.subLayers.length) sps.generalCode
    sps.nesting sps.general (BitStream.fixed_length ..) (BitStream.fixed_length ..) (by omega) sps.reads_general
  rw [layers] at head
  exact head.trans (reaches_dimensions sps.general sps.padding sps.subLayers sps.spsId sps.chromaFormatIdc sps.width
    sps.height sps.separateColourPlane sps.padding_length sps.sps_lt sps.chroma_le sps.width_lt sps.height_lt)

end SpsValue

-- The coded bytes start with the SPS; anything may follow it.
structure EncodedSps where
  sps : SpsValue
  rbsp : Bytes
  encodes : sps.code <+: BitStream.bits rbsp

-- Data that ends with a zero byte is closed by an emulation prevention byte.
def closingByte (rbsp : Bytes) : Bytes := if rbsp.getLast? = some 0 then [3] else []

namespace EncodedSps

def payload (encoded : EncodedSps) : Bytes := ebspFromRbsp encoded.rbsp ++ closingByte encoded.rbsp

theorem parse_sps_exact (encoded : EncodedSps) :
    parseSps encoded.payload =
      if OutOfRange encoded.sps.width encoded.sps.height then .error (.malformedSps "implausible SPS dimensions")
      else .ok encoded.sps.fields := by
  have closing : closingByte encoded.rbsp = [] ∨ closingByte encoded.rbsp = [3] := by
    unfold closingByte
    split
    · exact .inr rfl
    · exact .inl rfl
  obtain ⟨more, read, _⟩ := rbsp_of_closed encoded.rbsp _ closing
  obtain ⟨tail, whole⟩ := encoded.encodes
  have starts : (BitReader.new (encoded.rbsp ++ more)).rest = encoded.sps.code ++ (tail ++ BitStream.bits more) := by
    rw [BitReader.rest, BitReader.new, List.drop_zero, BitStream.bits_append, ← whole, List.append_assoc]
  obtain ⟨next, ran, _⟩ := encoded.sps.reaches_outcome _ _ starts
  rw [parseSps, payload, read, ran, spsOutcome]
  split
  · rfl
  · rfl

end EncodedSps

def wideRbsp : Bytes :=
  [0x01, 0x01, 0x60, 0x00, 0x00, 0x00, 0x90, 0x00, 0x00, 0x00, 0x00, 0x00, 0xBA, 0xA0, 0x00, 0x20, 0xFC, 0x84, 0x60]

-- Level 6.2 allows a picture of this width.
theorem wide_encodes : ∃ sps : SpsValue, sps.level = 186 ∧ sps.width = 16888 ∧ sps.height = 16 ∧
    sps.code <+: BitStream.bits wideRbsp := by
  refine ⟨{
    vpsId := 0
    nesting := true
    profileSpace := 0
    tier := false
    profileIdc := 1
    compatibility := 0x60000000
    progressive := true
    interlaced := false
    nonPacked := false
    frameOnly := true
    constraints := List.replicate 44 false
    level := 186
    subLayers := []
    padding := List.replicate 16 false
    spsId := 0
    chromaFormatIdc := 1
    separateColourPlane := false
    width := 16888
    height := 16
    vps_lt := by decide
    space_lt := by decide
    idc_lt := by decide
    compatibility_lt := by decide
    constraints_length := rfl
    level_lt := by decide
    few_layers := by decide
    padding_length := rfl
    sps_lt := by decide
    chroma_le := by decide
    width_lt := by decide
    height_lt := by decide }, rfl, rfl, rfl, by decide⟩

theorem wide_sps_refused : ¬ ∀ encoded : EncodedSps, parseSps encoded.payload = .ok encoded.sps.fields := by
  intro always
  obtain ⟨sps, _, _, _, encodes⟩ := wide_encodes
  have read := always ⟨sps, wideRbsp, encodes⟩
  have refused : parseSps (ebspFromRbsp wideRbsp ++ closingByte wideRbsp) =
      .error (.malformedSps "implausible SPS dimensions") := by decide
  have same := refused.symm.trans read
  cases same

end Lvqr.Codec
