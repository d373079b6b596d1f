import Lvqr.Cmaf.Batches
import Lvqr.Ingest.MediaState
import Mathlib.Data.List.Infix

set_option autoImplicit false

-- The way back from a fragment payload to the samples, for the PLAY drain. The box
-- walk keeps what is left of the payload in place of an offset into it.
namespace Lvqr.Rtsp

open Cmaf (RawSample Moof fourCc encodeI32 moofOf buildMoofMdat)

-- Header and body length of the box at the front, by the three forms of the size.
def boxLayout (rest : Bytes) : Option (Nat × Nat) :=
  let sizeField := BigEndian.value (rest.take 4)
  if sizeField = 0 then some (8, rest.length - 8)
  else if sizeField = 1 then
    let large := BigEndian.value ((rest.drop 8).take 8)
    if rest.length < 16 then none
    else if large < 16 then none
    else some (16, large - 16)
  else if sizeField < 8 then none
  else some (8, sizeField - 8)

theorem layout_header (rest : Bytes) (layout : Nat × Nat) (found : boxLayout rest = some layout) : 8 ≤ layout.1 := by
  simp only [boxLayout] at found
  split at found
  · cases found
    exact Nat.le_refl 8
  · split at found
    · split at found
      · cases found
      · split at found
        · cases found
        · cases found
          exact Nat.le_add_right 8 8
    · split at found
      · cases found
      · cases found
        exact Nat.le_refl 8

def boxBody (kind : String) (rest : Bytes) : Option Bytes :=
  if _long : 8 ≤ rest.length then
    match _found : boxLayout rest with
    | none => none
    | some (headerLen, bodyLen) =>
        if rest.length < headerLen + bodyLen then none
        else if (rest.drop 4).take 4 = fourCc kind then some ((rest.drop headerLen).take bodyLen)
        else boxBody kind (rest.drop (headerLen + bodyLen))
  else none
termination_by rest.length
decreasing_by
  have header := layout_header rest _ _found
  simp only [List.length_drop]
  omega

def extractMdatBody (payload : Bytes) : Option Bytes := boxBody "mdat" payload

def splitAvccNalus (body : Bytes) : List Bytes :=
  if 4 ≤ body.length then
    let len := BigEndian.value (body.take 4)
    let rest := body.drop 4
    if len = 0 then splitAvccNalus rest
    else if rest.length < len then []
    else rest.take len :: splitAvccNalus (rest.drop len)
  else []
termination_by body.length
decreasing_by all_goals simp only [List.length_drop]; omega

-- The offset that a reader of the trun finds: an i32 behind the version and flags
-- and the sample count.
def trunDataOffset (payload : Bytes) : Option Int := do
  let moof ← boxBody "moof" payload
  let traf ← boxBody "traf" moof
  let trun ← boxBody "trun" traf
  return (BigEndian.value ((trun.drop 8).take 4) : Int).bmod (2 ^ 32)

theorem box_body_at (kind : String) (rest : Bytes) (headerLen bodyLen : Nat)
    (layout : boxLayout rest = some (headerLen, bodyLen)) (fits : headerLen + bodyLen ≤ rest.length) :
    boxBody kind rest =
      if (rest.drop 4).take 4 = fourCc kind then some ((rest.drop headerLen).take bodyLen)
      else boxBody kind (rest.drop (headerLen + bodyLen)) := by
  have header := layout_header rest _ layout
  rw [boxBody, dif_pos (by omega)]
  split
  · rename_i unknown
    rw [layout] at unknown
    cases unknown
  · rename_i header' body' known
    rw [layout] at known
    cases known
    rw [if_neg (by omega)]

theorem box_body_refused (kind : String) (rest : Bytes)
    (refused : ∀ layout, boxLayout rest = some layout → rest.length < layout.1 + layout.2) : boxBody kind rest = none := by
  rw [boxBody]
  split
  · split
    · rfl
    · rename_i known
      rw [if_pos (refused _ known)]
  · rfl

def box (kind : String) (body : Bytes) : Bytes := BigEndian.bytes 4 (8 + body.length) ++ (fourCc kind ++ body)

theorem box_size (kind : String) (body rest : Bytes) :
    BigEndian.value ((box kind body ++ rest).take 4) = (8 + body.length) % 2 ^ 32 := by
  rw [box, List.append_assoc, List.take_left' (BigEndian.bytes_length _ _), BigEndian.value_bytes_mod]
  rfl

theorem box_kind (kind : String) (body rest : Bytes) (named : kind.toList.length = 4) :
    ((box kind body ++ rest).drop 4).take 4 = fourCc kind := by
  rw [box, List.append_assoc, List.drop_left' (BigEndian.bytes_length _ _), List.append_assoc,
    List.take_left' (by rw [Cmaf.four_cc_length, named])]

theorem box_content (kind : String) (body rest : Bytes) (named : kind.toList.length = 4) :
    (box kind body ++ rest).drop 8 = body ++ rest := by
  have header : (BigEndian.bytes 4 (8 + body.length) ++ fourCc kind).length = 8 := by
    rw [List.length_append, BigEndian.bytes_length, Cmaf.four_cc_length, named]
  rw [box, ← List.append_assoc, List.append_assoc, List.drop_left' header]

theorem box_length (kind : String) (body : Bytes) (named : kind.toList.length = 4) :
    (box kind body).length = 8 + body.length := by
  rw [box, List.length_append, List.length_append, BigEndian.bytes_length, Cmaf.four_cc_length, named]
  omega

theorem box_layout (kind : String) (body rest : Bytes) (fits : 8 + body.length < 2 ^ 32) :
    boxLayout (box kind body ++ rest) = some (8, body.length) := by
  rw [boxLayout, box_size, Nat.mod_eq_of_lt fits]
  dsimp only
  rw [if_neg (by omega), if_neg (by omega), if_neg (by omega), Nat.add_sub_cancel_left]

theorem box_body_here (kind : String) (body rest : Bytes) (named : kind.toList.length = 4)
    (fits : 8 + body.length < 2 ^ 32) : boxBody kind (box kind body ++ rest) = some body := by
  have inside : 8 + body.length ≤ (box kind body ++ rest).length := by
    rw [List.length_append, box_length kind body named]
    omega
  rw [box_body_at kind _ _ _ (box_layout kind body rest fits) inside, box_kind kind body rest named, if_pos rfl,
    box_content kind body rest named, List.take_left]

theorem box_body_past (kind other : String) (body rest : Bytes) (named : other.toList.length = 4)
    (apart : fourCc other ≠ fourCc kind) (fits : 8 + body.length < 2 ^ 32) :
    boxBody kind (box other body ++ rest) = boxBody kind rest := by
  have inside : 8 + body.length ≤ (box other body ++ rest).length := by
    rw [List.length_append, box_length other body named]
    omega
  rw [box_body_at kind _ _ _ (box_layout other body rest fits) inside, box_kind other body rest named, if_neg apart,
    ← box_length other body named, List.drop_left]

-- The size field leads back to the body if it fits, or if it wraps to the form that
-- extends to the end of the buffer.
theorem mdat_body_iff (body : Bytes) :
    boxBody "mdat" (box "mdat" body) = some body ↔ 8 + body.length < 2 ^ 32 ∨ (8 + body.length) % 2 ^ 32 = 0 := by
  have size := box_size "mdat" body []
  have kind := box_kind "mdat" body [] rfl
  have content := box_content "mdat" body [] rfl
  have length := box_length "mdat" body rfl
  rw [List.append_nil] at size kind content
  have read : ∀ layout, boxLayout (box "mdat" body) = some layout → boxBody "mdat" (box "mdat" body) = some body →
      layout.1 = 8 ∧ layout.2 = body.length := by
    intro layout known extracted
    have header := layout_header _ layout known
    by_cases fits : layout.1 + layout.2 ≤ (box "mdat" body).length
    · rw [box_body_at "mdat" _ layout.1 layout.2 known fits, if_pos kind, Option.some_inj] at extracted
      have lengths := congrArg List.length extracted
      rw [List.length_take, List.length_drop] at lengths
      omega
    · have refused := box_body_refused "mdat" (box "mdat" body) fun other found => by
        rw [known] at found
        cases found
        omega
      rw [refused] at extracted
      cases extracted
  have lands : boxLayout (box "mdat" body) = some (8, body.length) → boxBody "mdat" (box "mdat" body) = some body := by
    intro layout
    rw [box_body_at "mdat" _ 8 body.length layout (by omega), if_pos kind, content, List.append_nil, List.take_length]
  constructor
  · intro extracted
    by_contra lost
    obtain ⟨long, nonzero⟩ := not_or.mp lost
    cases layout : boxLayout (box "mdat" body) with
    | none =>
        have refused := box_body_refused "mdat" (box "mdat" body) fun other found => by
          rw [layout] at found
          cases found
        rw [refused] at extracted
        cases extracted
    | some found =>
        obtain ⟨header, bodyLen⟩ := read found layout extracted
        simp only [boxLayout, size, if_neg nonzero] at layout
        split at layout
        · split at layout
          · cases layout
          · split at layout
            · cases layout
            · cases layout
              simp at header
        · split at layout
          · cases layout
          · cases layout
            dsimp only at bodyLen
            omega
  · rintro (fits | wraps)
    · have layout := box_layout "mdat" body [] fits
      rw [List.append_nil] at layout
      exact lands layout
    · apply lands
      simp only [boxLayout, size, if_pos wraps, length, Nat.add_sub_cancel_left]

def Trun.body (trun : Cmaf.Trun) : Bytes :=
  BigEndian.bytes 4 0x01000F01 ++ (BigEndian.bytes 4 trun.entries.length ++
    (encodeI32 trun.dataOffset ++ trun.entries.flatMap Cmaf.TrunEntry.encode))

def Moof.mfhdBody (moof : Moof) : Bytes := BigEndian.bytes 4 0 ++ BigEndian.bytes 4 moof.mfhd.sequenceNumber

def Moof.tfhdBody (moof : Moof) : Bytes := BigEndian.bytes 4 0 ++ BigEndian.bytes 4 moof.traf.tfhd.trackId

def Moof.tfdtBody (moof : Moof) : Bytes :=
  BigEndian.bytes 4 0x01000000 ++ BigEndian.bytes 8 moof.traf.tfdt.baseMediaDecodeTime

def Moof.trafBody (moof : Moof) : Bytes :=
  box "tfhd" (tfhdBody moof) ++ (box "tfdt" (tfdtBody moof) ++ box "trun" (Trun.body moof.traf.trun))

def Moof.body (moof : Moof) : Bytes := box "mfhd" (mfhdBody moof) ++ box "traf" (trafBody moof)

theorem trun_body_length (trun : Cmaf.Trun) : (Trun.body trun).length = 12 + 16 * trun.entries.length := by
  simp only [Trun.body, encodeI32, List.length_append, BigEndian.bytes_length, Cmaf.entries_length]
  omega

theorem trun_body_offset (trun : Cmaf.Trun) : ((Trun.body trun).drop 8).take 4 = encodeI32 trun.dataOffset := by
  have front : (BigEndian.bytes 4 0x01000F01 ++ BigEndian.bytes 4 trun.entries.length).length = 8 := by simp
  rw [Trun.body, ← List.append_assoc, List.drop_left' front, List.take_left' (by simp [encodeI32])]

theorem traf_body_length (moof : Moof) : (Moof.trafBody moof).length = 56 + 16 * moof.traf.trun.entries.length := by
  have trun := trun_body_length moof.traf.trun
  rw [Moof.trafBody, List.length_append, List.length_append, box_length "tfhd" _ rfl, box_length "tfdt" _ rfl,
    box_length "trun" _ rfl, trun]
  simp only [Moof.tfhdBody, Moof.tfdtBody, List.length_append, BigEndian.bytes_length]
  omega

theorem moof_body_length (moof : Moof) : (Moof.body moof).length = 80 + 16 * moof.traf.trun.entries.length := by
  have traf := traf_body_length moof
  rw [Moof.body, List.length_append, box_length "mfhd" _ rfl, box_length "traf" _ rfl, traf]
  simp only [Moof.mfhdBody, List.length_append, BigEndian.bytes_length]
  omega

theorem written_boxes (moof : Moof) : moof.written = box "moof" (Moof.body moof) := by
  have moofSize : 8 + (Moof.body moof).length = 88 + 16 * moof.traf.trun.entries.length := by
    rw [moof_body_length]
    omega
  have trafSize : 8 + (Moof.trafBody moof).length = 64 + 16 * moof.traf.trun.entries.length := by
    rw [traf_body_length]
    omega
  have trunSize : 8 + (Trun.body moof.traf.trun).length = 20 + 16 * moof.traf.trun.entries.length := by
    rw [trun_body_length]
    omega
  have sizes : 8 + (Moof.mfhdBody moof).length = 16 ∧ 8 + (Moof.tfhdBody moof).length = 16 ∧
      8 + (Moof.tfdtBody moof).length = 20 := by
    simp [Moof.mfhdBody, Moof.tfhdBody, Moof.tfdtBody]
  rw [box, moofSize, Moof.body, box, box, trafSize, Moof.trafBody, box, box, box, trunSize, sizes.1, sizes.2.1,
    sizes.2.2]
  simp only [Moof.written, Moof.front, Cmaf.Traf.front, Cmaf.Trun.written, Moof.mfhdBody, Moof.tfhdBody,
    Moof.tfdtBody, Trun.body, List.append_assoc]


theorem value_of_i32 (offset : Int) : (BigEndian.value (encodeI32 offset) : Int) = offset % 2 ^ 32 := by
  have bounded : (offset % 2 ^ 32).toNat < 256 ^ 4 := by omega
  rw [encodeI32, BigEndian.value_bytes _ _ bounded]
  omega

theorem bmod_32_iff (offset : Nat) : (offset : Int).bmod (2 ^ 32) = offset ↔ offset < 2 ^ 31 := by
  simp only [Int.bmod]
  split
  · omega
  · omega

theorem trun_data_offset (moof : Moof) (rest : Bytes) (fits : 88 + 16 * moof.traf.trun.entries.length < 2 ^ 32) :
    trunDataOffset (moof.written ++ rest) = some (moof.traf.trun.dataOffset.bmod (2 ^ 32)) := by
  have moofBody := moof_body_length moof
  have trafBody := traf_body_length moof
  have trunBody := trun_body_length moof.traf.trun
  have inMoof : boxBody "moof" (moof.written ++ rest) = some (Moof.body moof) := by
    rw [written_boxes]
    exact box_body_here "moof" _ rest rfl (by omega)
  have inTraf : boxBody "traf" (Moof.body moof) = some (Moof.trafBody moof) := by
    have here := box_body_here "traf" (Moof.trafBody moof) [] rfl (by omega)
    rw [List.append_nil] at here
    rw [Moof.body, box_body_past "traf" "mfhd" _ _ rfl (by decide) (by simp [Moof.mfhdBody]), here]
  have inTrun : boxBody "trun" (Moof.trafBody moof) = some (Trun.body moof.traf.trun) := by
    have here := box_body_here "trun" (Trun.body moof.traf.trun) [] rfl (by omega)
    rw [List.append_nil] at here
    rw [Moof.trafBody, box_body_past "trun" "tfhd" _ _ rfl (by decide) (by simp [Moof.tfhdBody]),
      box_body_past "trun" "tfdt" _ _ rfl (by decide) (by simp [Moof.tfdtBody]), here]
  have field := trun_body_offset moof.traf.trun
  have wrapped := Int.emod_bmod moof.traf.trun.dataOffset (2 ^ 32)
  simp only [trunDataOffset, inMoof, inTraf, inTrun, Option.bind_eq_bind, Option.bind_some, Option.pure_def, field,
    value_of_i32]
  exact congrArg some wrapped

-- The payload leads back to the bytes of the samples and to where they begin.
structure RoundTrips (samples : List RawSample) (payload : Bytes) : Prop where
  body : extractMdatBody payload = some (samples.flatMap RawSample.payload)
  offset : trunDataOffset payload = some ((payload.length - (samples.flatMap RawSample.payload).length : Nat) : Int)

def totalSize (samples : List RawSample) : Nat := (samples.map fun sample => sample.payload.length).sum

-- The mdat box has a size that leads back to its end, and the offset of its body
-- fits into an i32.
def Encodable (samples : List RawSample) : Prop :=
  (8 + totalSize samples < 2 ^ 32 ∨ (8 + totalSize samples) % 2 ^ 32 = 0) ∧ 96 + 16 * samples.length < 2 ^ 31

theorem body_length (samples : List RawSample) : (samples.flatMap RawSample.payload).length = totalSize samples := by
  rw [List.length_flatMap, totalSize]

def writtenOffset (samples : List RawSample) : Int := ((96 + 16 * samples.length : Nat) : Int).bmod (2 ^ 32)

theorem written_offset_bmod (samples : List RawSample) :
    (writtenOffset samples).bmod (2 ^ 32) = writtenOffset samples := by
  unfold writtenOffset
  exact Int.bmod_bmod

theorem written_offset_iff (samples : List RawSample) :
    writtenOffset samples = ((96 + 16 * samples.length : Nat) : Int) ↔ 96 + 16 * samples.length < 2 ^ 31 :=
  bmod_32_iff _

theorem moof_of_offset (sequence trackId baseDts : Nat) (samples : List RawSample) (offset : Int) :
    (moofOf sequence trackId baseDts samples offset).traf.trun.dataOffset = offset := rfl

theorem build_moof_mdat_eq (sequence trackId baseDts : Nat) (samples : List RawSample)
    (fits : 88 + 16 * samples.length < 2 ^ 32) :
    buildMoofMdat sequence trackId baseDts samples =
      some ((moofOf sequence trackId baseDts samples (writtenOffset samples)).written ++
        box "mdat" (samples.flatMap RawSample.payload)) := by
  have encoded (offset : Int) : (moofOf sequence trackId baseDts samples offset).encode =
      some (moofOf sequence trackId baseDts samples offset).written := by
    rw [Moof.encode_eq, if_pos (by simpa only [moofOf, List.length_map] using fits)]
  have measured (offset : Int) :
      (moofOf sequence trackId baseDts samples offset).written.length + 8 = 96 + 16 * samples.length := by
    rw [Moof.written_length]
    simp only [moofOf, List.length_map]
    omega
  rw [buildMoofMdat, encoded, Option.bind_eq_bind, Option.bind_some]
  dsimp only
  have offset : writtenOffset samples = ((96 + 16 * samples.length : Nat) : Int).bmod (2 ^ 32) := by
    unfold writtenOffset
    exact Eq.refl _
  rw [measured, encoded, Option.bind_some, Option.pure_def, box, offset]

attribute [irreducible] writtenOffset

theorem round_trips_iff (samples : List RawSample) (moof : Moof)
    (entries : moof.traf.trun.entries.length = samples.length)
    (offset : moof.traf.trun.dataOffset = writtenOffset samples) (fits : 88 + 16 * samples.length < 2 ^ 32) :
    RoundTrips samples (moof.written ++ box "mdat" (samples.flatMap RawSample.payload)) ↔ Encodable samples := by
  have size := body_length samples
  have extracted : extractMdatBody (moof.written ++ box "mdat" (samples.flatMap RawSample.payload)) =
      boxBody "mdat" (box "mdat" (samples.flatMap RawSample.payload)) := by
    have moofBody := moof_body_length moof
    rw [extractMdatBody, written_boxes, box_body_past "mdat" "moof" _ _ rfl (by decide) (by omega)]
  have placed : trunDataOffset (moof.written ++ box "mdat" (samples.flatMap RawSample.payload)) =
      some (writtenOffset samples) := by
    rw [trun_data_offset moof _ (by omega), offset, written_offset_bmod]
  have begins : (moof.written ++ box "mdat" (samples.flatMap RawSample.payload)).length -
      (samples.flatMap RawSample.payload).length = 96 + 16 * samples.length := by
    rw [List.length_append, box_length "mdat" _ rfl, Moof.written_length, entries]
    omega
  constructor
  · intro trips
    have body := extracted.symm.trans trips.body
    have position := placed.symm.trans trips.offset
    rw [mdat_body_iff, size] at body
    rw [begins, Option.some_inj] at position
    exact ⟨body, (written_offset_iff samples).mp position⟩
  · rintro ⟨body, few⟩
    rw [← size, ← mdat_body_iff] at body
    refine ⟨extracted.trans body, ?_⟩
    rw [placed, begins, Option.some_inj]
    exact (written_offset_iff samples).mpr few

theorem media_payload_iff (sequence trackId baseDts : Nat) (samples : List RawSample) :
    (∃ payload, buildMoofMdat sequence trackId baseDts samples = some payload ∧ RoundTrips samples payload) ↔
      Encodable samples := by
  by_cases fits : 88 + 16 * samples.length < 2 ^ 32
  · have built := build_moof_mdat_eq sequence trackId baseDts samples fits
    have conveyed := round_trips_iff samples (moofOf sequence trackId baseDts samples (writtenOffset samples))
      (List.length_map _) (moof_of_offset _ _ _ _ _) fits
    constructor
    · rintro ⟨payload, known, trips⟩
      rw [built, Option.some_inj] at known
      rw [← known] at trips
      exact conveyed.mp trips
    · intro encodable
      exact ⟨_, built, conveyed.mpr encodable⟩
  · constructor
    · rintro ⟨payload, known, -⟩
      have few : samples.length ≤ Cmaf.MAX_BATCH := by
        rw [← Cmaf.build_moof_mdat_is_some sequence trackId baseDts samples, known]
        rfl
      unfold Cmaf.MAX_BATCH at few
      omega
    · rintro ⟨-, few⟩
      omega

theorem split_length_prefixed (nalus : List Bytes) (nonempty : ∀ nal ∈ nalus, nal ≠ [])
    (fit : ∀ nal ∈ nalus, nal.length < 2 ^ 32) : splitAvccNalus (Codec.lengthPrefixed nalus) = nalus := by
  induction nalus with
  | nil =>
      rw [splitAvccNalus]
      rfl
  | cons nal nalus ih =>
      have here := nonempty nal List.mem_cons_self
      have length : nal.length ≠ 0 := fun empty => here (List.length_eq_zero_iff.mp empty)
      have value : BigEndian.value (BigEndian.bytes 4 nal.length) = nal.length :=
        BigEndian.value_bytes 4 _ (fit nal List.mem_cons_self)
      have rest : splitAvccNalus (Codec.lengthPrefixed nalus) = nalus :=
        ih (fun nal known => nonempty nal (List.mem_cons_of_mem _ known)) fun nal known =>
          fit nal (List.mem_cons_of_mem _ known)
      have written : Codec.lengthPrefixed (nal :: nalus) =
          BigEndian.bytes 4 nal.length ++ (nal ++ Codec.lengthPrefixed nalus) := by
        rw [Codec.lengthPrefixed, List.flatMap_cons, List.append_assoc]
        rfl
      have header : (BigEndian.bytes 4 nal.length).length = 4 := BigEndian.bytes_length _ _
      rw [written, splitAvccNalus, if_pos (by rw [List.length_append, header]; omega), List.take_left' header,
        List.drop_left' header, value]
      dsimp only
      rw [if_neg length, if_neg (by rw [List.length_append]; omega), List.take_left, List.drop_left, rest]

-- Whatever the walk returns has a length that its own field held.
theorem split_lengths (body : Bytes) : ∀ nal ∈ splitAvccNalus body, nal.length < 2 ^ 32 := by
  induction body using splitAvccNalus.induct with
  | case1 body long len rest empty ih =>
      rw [splitAvccNalus, if_pos long]
      dsimp only
      rw [if_pos empty]
      exact ih
  | case2 body long len rest present short =>
      rw [splitAvccNalus, if_pos long]
      dsimp only
      rw [if_neg present, if_pos short]
      exact fun nal known => absurd known List.not_mem_nil
  | case3 body long len rest present fits ih =>
      have field : len < 256 ^ (body.take 4).length := BigEndian.value_lt _
      rw [List.length_take, Nat.min_eq_left long] at field
      rw [splitAvccNalus, if_pos long]
      dsimp only
      rw [if_neg present, if_neg fits]
      intro nal known
      rcases List.mem_cons.mp known with rfl | later
      · exact Nat.lt_of_le_of_lt (List.length_take_le len rest) field
      · exact ih nal later
  | case4 body short =>
      rw [splitAvccNalus, if_neg short]
      exact fun nal known => absurd known List.not_mem_nil

def kept (nalus : List Bytes) (format : Ingest.VideoFormat) : List Bytes :=
  nalus.filter fun nal => !nal.isEmpty && !format.skips nal

theorem nalus_iff (nalus : List Bytes) (format : Ingest.VideoFormat) :
    splitAvccNalus (Ingest.nalsToLengthPrefixed nalus format) = kept nalus format ↔
      ∀ nal ∈ kept nalus format, nal.length < 2 ^ 32 := by
  constructor
  · intro split
    rw [← split]
    exact split_lengths _
  · intro fit
    refine split_length_prefixed (kept nalus format) ?_ fit
    intro nal known
    have condition := (List.mem_filter.mp known).2
    rintro rfl
    simp at condition

theorem media_payload_round_trips_iff (sequence trackId baseDts : Nat) (samples : List RawSample)
    (nalus : List Bytes) (format : Ingest.VideoFormat) :
    ((∃ payload, buildMoofMdat sequence trackId baseDts samples = some payload ∧ RoundTrips samples payload) ↔
      Encodable samples) ∧
    (splitAvccNalus (Ingest.nalsToLengthPrefixed nalus format) = kept nalus format ↔
      ∀ nal ∈ kept nalus format, nal.length < 2 ^ 32) :=
  ⟨media_payload_iff sequence trackId baseDts samples, nalus_iff nalus format⟩

def zeros (size : Nat) : RawSample := ⟨1, 0, 0, 3000, List.replicate size 0, true⟩

theorem zeros_size (size : Nat) : totalSize [zeros size] = size := by
  rw [totalSize, List.map_singleton, List.sum_singleton, zeros, List.length_replicate]

-- A payload whose size fits 32 bits in a box whose size does not.
theorem large_mdat_lost :
    ¬ ∀ sequence trackId baseDts samples, totalSize samples < 2 ^ 32 →
      ∃ payload, buildMoofMdat sequence trackId baseDts samples = some payload ∧ RoundTrips samples payload := by
  intro always
  have size := zeros_size (2 ^ 32 - 1)
  have encodable := (media_payload_iff 1 1 0 [zeros (2 ^ 32 - 1)]).mp (always 1 1 0 _ (by rw [size]; decide))
  rw [Encodable, size] at encodable
  omega

end Lvqr.Rtsp
