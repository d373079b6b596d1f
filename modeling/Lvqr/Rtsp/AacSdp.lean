import Lvqr.Rtsp.AacFmtp

set_option autoImplicit false

-- The AAC block of the session description that DESCRIBE answers with.
namespace Lvqr.Rtsp

open Rtp (hexDigit hexBytes)

inductive AddrFamily where
  | ip4
  | ip6
deriving DecidableEq, Repr

def AddrFamily.text : AddrFamily → List Char
  | .ip4 => "IP4".toList
  | .ip6 => "IP6".toList

structure AacConfig where
  asc : Bytes
  sampleRate : UInt32
  channels : UInt8

-- The control name is a constant of the server, "track2".
structure AacTrackDescription where
  payloadType : UInt8
  control : List Char
  config : AacConfig
  plainControl : Text.Word control

def aacProfileLevelId (_config : AacConfig) : UInt8 := 1

def decimal (value : Nat) : List Char := Nat.toDigits 10 value

def upperDigit (value : Nat) : Char := "0123456789ABCDEF".toList.getD value '0'

def configHex (asc : Bytes) : List Char :=
  asc.flatMap fun byte => [upperDigit (byte.toNat / 16), upperDigit (byte.toNat % 16)]

def fmtpParts (config : AacConfig) : List (List Char) :=
  ["streamtype=5".toList,
    "profile-level-id=".toList ++ decimal (aacProfileLevelId config).toNat,
    "mode=AAC-hbr".toList,
    "sizelength=13".toList,
    "indexlength=3".toList,
    "indexdeltalength=3".toList,
    "config=".toList ++ configHex config.asc]

namespace AacTrackDescription

def rtpmap (a : AacTrackDescription) : List Char :=
  decimal a.payloadType.toNat ++ ' ' ::
    ("mpeg4-generic/".toList ++ (decimal a.config.sampleRate.toNat ++ '/' :: decimal a.config.channels.toNat))

def fmtp (a : AacTrackDescription) : List Char :=
  decimal a.payloadType.toNat ++ ' ' :: [';'].intercalate (fmtpParts a.config)

def lines (family : AddrFamily) (a : AacTrackDescription) : List (List Char) :=
  ["m=audio 0 RTP/AVP ".toList ++ decimal a.payloadType.toNat,
    "c=IN ".toList ++ (family.text ++ " 0.0.0.0".toList),
    "a=rtpmap:".toList ++ a.rtpmap,
    "a=fmtp:".toList ++ a.fmtp,
    "a=control:".toList ++ a.control]

end AacTrackDescription

def renderAacBlock (family : AddrFamily) (a : AacTrackDescription) : List Char :=
  (a.lines family).flatMap (· ++ Text.crlf)

theorem upper_digit (value : Nat) (small : value < 16) :
    hexDigit (upperDigit value) = some value ∧ upperDigit value ≠ '+' ∧ upperDigit value ≠ ';' ∧
      Text.isWhitespace (upperDigit value) = false := by
  have all : ∀ value < 16, hexDigit (upperDigit value) = some value ∧ upperDigit value ≠ '+' ∧ upperDigit value ≠ ';' ∧
      Text.isWhitespace (upperDigit value) = false := by decide
  exact all value small

theorem config_hex_cons (byte : UInt8) (asc : Bytes) :
    configHex (byte :: asc) = upperDigit (byte.toNat / 16) :: upperDigit (byte.toNat % 16) :: configHex asc := rfl

theorem byte_nibbles (byte : UInt8) : byte.toNat / 16 < 16 ∧ byte.toNat % 16 < 16 := by
  have bound := byte.toNat_lt
  omega

theorem config_hex_solid (asc : Bytes) : ∀ char ∈ configHex asc, char ≠ ';' ∧ Text.isWhitespace char = false := by
  intro char member
  obtain ⟨byte, _, inside⟩ := List.mem_flatMap.mp member
  obtain ⟨high, low⟩ := byte_nibbles byte
  simp only [List.mem_cons, List.not_mem_nil, or_false] at inside
  cases inside with
  | inl isHigh => exact isHigh ▸ (upper_digit _ high).2.2
  | inr isLow => exact isLow ▸ (upper_digit _ low).2.2

theorem hex_bytes_config (asc : Bytes) : hexBytes (configHex asc) = some asc := by
  induction asc with
  | nil => rfl
  | cons byte asc ih =>
      obtain ⟨high, low⟩ := byte_nibbles byte
      have value : pairValue (upperDigit (byte.toNat / 16)) (upperDigit (byte.toNat % 16)) = some byte := by
        rw [pairValue, if_neg (upper_digit _ high).2.1, (upper_digit _ high).1, (upper_digit _ low).1]
        show some (UInt8.ofNat (byte.toNat / 16 * 16 + byte.toNat % 16)) = some byte
        rw [Nat.div_add_mod', UInt8.ofNat_toNat]
      rw [config_hex_cons, hex_bytes_cons, value, ih]
      rfl

theorem decode_config_hex (asc : Bytes) : decodeConfig (configHex asc) = some (some asc) := by
  have read := hex_bytes_config asc
  rw [decode_config_clean, read]
  intro ⟨_, straddles⟩
  rw [straddles_refused _ straddles] at read
  cases read

def fixedParts : List (List Char) :=
  ["streamtype=5".toList, "profile-level-id=1".toList, "mode=AAC-hbr".toList, "sizelength=13".toList, "indexlength=3".toList,
    "indexdeltalength=3".toList]

theorem fmtp_parts_fixed (config : AacConfig) :
    fmtpParts config = fixedParts ++ ["config=".toList ++ configHex config.asc] := by
  have level : decimal (aacProfileLevelId config).toNat = ['1'] := show decimal 1 = ['1'] by decide
  unfold fmtpParts
  rw [level]
  rfl

-- A parameter of the line: no separator and no blank in it.
def Parameter (part : List Char) : Prop := ';' ∉ part ∧ Text.Word part

instance (part : List Char) : Decidable (Parameter part) := inferInstanceAs (Decidable (_ ∧ _))

theorem fixed_parts_parameters : ∀ part ∈ fixedParts, Parameter part := by
  decide

theorem config_parameter (asc : Bytes) : Parameter ("config=".toList ++ configHex asc) := by
  have name : Parameter "config=".toList := by decide
  refine ⟨fun inside => ?_, Text.word_append _ _ name.2 fun char member => (config_hex_solid asc char member).2⟩
  cases List.mem_append.mp inside with
  | inl front => exact name.1 front
  | inr digit => exact (config_hex_solid asc ';' digit).1 rfl

theorem fmtp_parameters (config : AacConfig) : ∀ part ∈ fmtpParts config, Parameter part := by
  rw [fmtp_parts_fixed]
  intro part among
  cases List.mem_append.mp among with
  | inl fixed => exact fixed_parts_parameters part fixed
  | inr last =>
      obtain rfl := List.mem_singleton.mp last
      exact config_parameter config.asc

theorem config_param_found (config : AacConfig) :
    (fmtpParts config).filterMap configValue = [configHex config.asc] := by
  have fixed : fixedParts.filterMap configValue = [] := by decide
  have found : configValue ("config=".toList ++ configHex config.asc) = some (configHex config.asc) := by
    unfold configValue
    rw [Text.trim_word _ (config_parameter config.asc).2.2]
    exact Text.strip_prefix_append _ _
  rw [fmtp_parts_fixed, List.filterMap_append, fixed, List.nil_append, List.filterMap_cons_some found]
  rfl

theorem decimal_word (value : Nat) : Text.Word (decimal value) := Text.word_digits value

theorem digits_plain (value : Nat) (char : Char) (plain : char.isDigit = false) : char ∉ decimal value := by
  intro inside
  rw [Nat.isDigit_of_mem_toDigits (by decide) (by decide) inside] at plain
  cases plain

namespace AacTrackDescription

variable (a : AacTrackDescription)

theorem config_param_fmtp : configParam (String.ofList a.fmtp) = some (configHex a.config.asc) := by
  have text : (String.ofList a.fmtp).toList = a.fmtp := String.toList_ofList
  have single : ∀ part ∈ fmtpParts a.config, ';' ∉ part := fun part among => (fmtp_parameters a.config part among).1
  have split : Text.splitOnce ' ' a.fmtp = some (decimal a.payloadType.toNat, [';'].intercalate (fmtpParts a.config)) :=
    Text.split_once_append ' ' _ _ (digits_plain _ ' ' rfl)
  unfold configParam
  rw [text, split]
  dsimp only
  rw [List.splitOn_intercalate ';' single (List.cons_ne_nil _ _), config_param_found]
  exact congrArg some (Text.trim_word _ fun char member => (config_hex_solid a.config.asc char member).2)

theorem parse_fmtp : parseAacConfigChecked (String.ofList a.fmtp) = some (some a.config.asc) := by
  rw [parseAacConfigChecked, a.config_param_fmtp]
  exact decode_config_hex a.config.asc

theorem fmtp_word : Text.Word ([';'].intercalate (fmtpParts a.config)) := by
  constructor
  · unfold fmtpParts
    rw [List.intercalate_cons_of_ne_nil (List.cons_ne_nil _ _), List.append_assoc]
    exact List.append_ne_nil_of_left_ne_nil (List.cons_ne_nil _ _) _
  · intro char member
    rcases Text.mem_joined ';' char _ member with rfl | ⟨part, among, inside⟩
    · rfl
    · exact (fmtp_parameters a.config part among).2.2 char inside

theorem rtpmap_word : Text.Word ("mpeg4-generic/".toList ++ (decimal a.config.sampleRate.toNat ++
    '/' :: decimal a.config.channels.toNat)) := by
  refine Text.word_append _ _ (by decide) fun char member => ?_
  rcases List.mem_append.mp member with rate | rest
  · exact (decimal_word _).2 char rate
  · rcases List.mem_cons.mp rest with rfl | channels
    · rfl
    · exact (decimal_word _).2 char channels

theorem described_inline (value : Nat) (text : List Char) (word : Text.Word text) :
    Text.Inline (decimal value ++ ' ' :: text) := by
  rw [Text.inline_append, ← List.singleton_append, Text.inline_append]
  exact ⟨(decimal_word value).inline, by decide, word.inline⟩

theorem lines_inline (family : AddrFamily) : ∀ line ∈ a.lines family, Text.Inline line := by
  have media : Text.Inline ("m=audio 0 RTP/AVP ".toList ++ decimal a.payloadType.toNat) :=
    (Text.inline_append _ _).mpr ⟨by decide, (decimal_word _).inline⟩
  have address : Text.Inline ("c=IN ".toList ++ (family.text ++ " 0.0.0.0".toList)) := by
    cases family <;> decide
  have rtpmap : Text.Inline ("a=rtpmap:".toList ++ a.rtpmap) :=
    (Text.inline_append _ _).mpr ⟨by decide, described_inline _ _ a.rtpmap_word⟩
  have fmtp : Text.Inline ("a=fmtp:".toList ++ a.fmtp) :=
    (Text.inline_append _ _).mpr ⟨by decide, described_inline _ _ a.fmtp_word⟩
  have control : Text.Inline ("a=control:".toList ++ a.control) :=
    (Text.inline_append _ _).mpr ⟨by decide, a.plainControl.inline⟩
  unfold lines
  simp only [List.forall_mem_cons]
  exact ⟨media, address, rtpmap, fmtp, control, fun line absurdly => absurd absurdly List.not_mem_nil⟩

theorem media_line : sdpMedia ("audio 0 RTP/AVP ".toList ++ decimal a.payloadType.toNat) =
    some ⟨.audio, .unknown, a.payloadType.toNat, "", none⟩ := by
  have words : Text.words ("audio 0 RTP/AVP ".toList ++ decimal a.payloadType.toNat) =
      ["audio".toList, "0".toList, "RTP/AVP".toList, decimal a.payloadType.toNat] := by
    show Text.words ("audio".toList ++ ' ' :: ("0".toList ++ ' ' :: ("RTP/AVP".toList ++ ' ' ::
      decimal a.payloadType.toNat))) = _
    rw [Text.words_space _ _ (by decide), Text.words_space _ _ (by decide),
      Text.words_space _ _ (by decide), Text.words_last _ (decimal_word _)]
  have small : a.payloadType.toNat < 2 ^ 32 := Nat.lt_trans a.payloadType.toNat_lt (by decide)
  have rate : Text.parseUnsigned (2 ^ 32) (decimal a.payloadType.toNat) = some a.payloadType.toNat :=
    Text.parse_unsigned_digits _ _ small
  unfold sdpMedia
  rw [words]
  dsimp only
  rw [rate]
  rfl

theorem sdp_rtpmap (track : TrackInfo) : sdpAttribute track ("rtpmap:".toList ++ a.rtpmap) =
    { track with codec := .aac, clockRate := a.config.sampleRate.toNat } := by
  have control : Text.stripPrefix "control:".toList ("rtpmap:".toList ++ a.rtpmap) = none :=
    Text.strip_prefix_none _ _ _ (by decide)
  have found : Text.stripPrefix "rtpmap:".toList ("rtpmap:".toList ++ a.rtpmap) = some a.rtpmap :=
    Text.strip_prefix_append _ _
  have trimmed : Text.trim a.rtpmap = a.rtpmap := Text.trim_words _ _ (decimal_word _) a.rtpmap_word
  have words : Text.words a.rtpmap = [decimal a.payloadType.toNat,
      "mpeg4-generic".toList ++ '/' :: (decimal a.config.sampleRate.toNat ++ '/' :: decimal a.config.channels.toNat)] := by
    rw [rtpmap, Text.words_space _ _ (decimal_word _), Text.words_last _ a.rtpmap_word]
    rfl
  have named : Text.splitOnce '/' ("mpeg4-generic".toList ++
      '/' :: (decimal a.config.sampleRate.toNat ++ '/' :: decimal a.config.channels.toNat)) =
      some ("mpeg4-generic".toList, decimal a.config.sampleRate.toNat ++ '/' :: decimal a.config.channels.toNat) :=
    Text.split_once_append '/' _ _ (by decide)
  have digits : (decimal a.config.sampleRate.toNat ++ '/' :: decimal a.config.channels.toNat).takeWhile (· ≠ '/') =
      decimal a.config.sampleRate.toNat := by
    have plain : ∀ char ∈ decimal a.config.sampleRate.toNat, decide (char ≠ '/') = true :=
      fun char member => decide_eq_true fun same => digits_plain _ '/' rfl (same ▸ member)
    rw [List.takeWhile_append_of_pos plain, List.takeWhile_cons_of_neg (by decide), List.append_nil]
  have rate : Text.parseUnsigned (2 ^ 32) (decimal a.config.sampleRate.toNat) = some a.config.sampleRate.toNat :=
    Text.parse_unsigned_digits _ _ a.config.sampleRate.toNat_lt
  have codec : trackCodec "mpeg4-generic".toList = .aac := by decide
  unfold sdpAttribute
  rw [control, found]
  dsimp only
  rw [trimmed, words]
  dsimp only [List.getElem?_cons_succ, List.getElem?_cons_zero, Option.getD_some]
  rw [named]
  dsimp only [Option.getD_some]
  rw [digits, rate, codec]
  rfl

theorem sdp_fmtp (track : TrackInfo) : sdpAttribute track ("fmtp:".toList ++ a.fmtp) =
    { track with fmtp := some (String.ofList a.fmtp) } := by
  have control : Text.stripPrefix "control:".toList ("fmtp:".toList ++ a.fmtp) = none :=
    Text.strip_prefix_none _ _ _ (by decide)
  have rtpmap : Text.stripPrefix "rtpmap:".toList ("fmtp:".toList ++ a.fmtp) = none :=
    Text.strip_prefix_none _ _ _ (by decide)
  have found : Text.stripPrefix "fmtp:".toList ("fmtp:".toList ++ a.fmtp) = some a.fmtp := Text.strip_prefix_append _ _
  have trimmed : Text.trim a.fmtp = a.fmtp := Text.trim_words _ _ (decimal_word _) a.fmtp_word
  unfold sdpAttribute
  rw [control, rtpmap, found]
  dsimp only
  rw [trimmed]

theorem sdp_control (track : TrackInfo) : sdpAttribute track ("control:".toList ++ a.control) =
    { track with control := String.ofList a.control } := by
  have found : Text.stripPrefix "control:".toList ("control:".toList ++ a.control) = some a.control :=
    Text.strip_prefix_append _ _
  have trimmed : Text.trim a.control = a.control := Text.trim_word _ a.plainControl.2
  unfold sdpAttribute
  rw [found]
  dsimp only
  rw [trimmed]

end AacTrackDescription

theorem trim_returns_inline (line : List Char) (inline : Text.Inline line) : trimReturns line = line := by
  rw [trimReturns]
  have kept : line.reverse.dropWhile (· = '\r') = line.reverse := by
    cases reversed : line.reverse with
    | nil => rfl
    | cons char rest =>
        have other : char ≠ '\r' := by
          intro isReturn
          refine inline.1 (List.mem_reverse.mp ?_)
          rw [reversed, isReturn]
          exact List.mem_cons_self
        exact List.dropWhile_cons_of_neg (by simpa using other)
  rw [kept, List.reverse_reverse]

theorem sdp_line_attribute (parsed : List TrackInfo × Option TrackInfo) (rest : List Char) :
    sdpLine parsed ("a=".toList ++ rest) = (parsed.1, parsed.2.map fun track => sdpAttribute track rest) := by
  have media : Text.stripPrefix "m=".toList ("a=".toList ++ rest) = none := Text.strip_prefix_none _ _ _ (by decide)
  have found : Text.stripPrefix "a=".toList ("a=".toList ++ rest) = some rest := Text.strip_prefix_append _ _
  unfold sdpLine
  rw [media, found]

theorem sdp_line_media (parsed : List TrackInfo × Option TrackInfo) (rest : List Char) :
    sdpLine parsed ("m=".toList ++ rest) = (parsed.1 ++ parsed.2.toList, sdpMedia rest) := by
  have found : Text.stripPrefix "m=".toList ("m=".toList ++ rest) = some rest := Text.strip_prefix_append _ _
  unfold sdpLine
  rw [found]

theorem sdp_line_other (parsed : List TrackInfo × Option TrackInfo) (rest : List Char) :
    sdpLine parsed ("c=".toList ++ rest) = parsed := by
  have media : Text.stripPrefix "m=".toList ("c=".toList ++ rest) = none := Text.strip_prefix_none _ _ _ (by decide)
  have other : Text.stripPrefix "a=".toList ("c=".toList ++ rest) = none :=
    Text.strip_prefix_none _ _ _ (by decide)
  unfold sdpLine
  rw [media, other]

-- The block read back: one AAC track under the rate and the parameters it states.
theorem aac_block_track (family : AddrFamily) (a : AacTrackDescription) : parseSdpTracks (renderAacBlock family a) =
    [⟨.audio, .aac, a.config.sampleRate.toNat, String.ofList a.control, some (String.ofList a.fmtp)⟩] := by
  have inline := a.lines_inline family
  have trimmed : (a.lines family).map trimReturns = a.lines family := by
    refine (List.map_congr_left fun line among => ?_).trans (List.map_id _)
    exact trim_returns_inline line (inline line among)
  have folded : (a.lines family).foldl sdpLine ([], none) = ([], some
      ⟨.audio, .aac, a.config.sampleRate.toNat, String.ofList a.control, some (String.ofList a.fmtp)⟩) := by
    show sdpLine (sdpLine (sdpLine (sdpLine (sdpLine ([], none)
      ("m=".toList ++ ("audio 0 RTP/AVP ".toList ++ decimal a.payloadType.toNat)))
      ("c=".toList ++ ("IN ".toList ++ (family.text ++ " 0.0.0.0".toList))))
      ("a=".toList ++ ("rtpmap:".toList ++ a.rtpmap)))
      ("a=".toList ++ ("fmtp:".toList ++ a.fmtp)))
      ("a=".toList ++ ("control:".toList ++ a.control)) = _
    rw [sdp_line_media, sdp_line_other, sdp_line_attribute, sdp_line_attribute, sdp_line_attribute, a.media_line]
    dsimp only [Option.map_some]
    rw [a.sdp_rtpmap, a.sdp_fmtp, a.sdp_control]
    rfl
  rw [parseSdpTracks, renderAacBlock, Text.lines_ended _ inline, trimmed, folded]
  rfl

-- What the renderer writes is read back, whatever the config; a text from elsewhere
-- is taken for what it spells unless a slice or a sign comes in between.
theorem aac_config_exact_iff (fmtp : String) :
    (ExactConfig fmtp ↔ ∀ hex, configParam fmtp = some hex → ExactHex hex) ∧
      ∀ (family : AddrFamily) (a : AacTrackDescription), ∃ track written, parseSdpTracks (renderAacBlock family a) = [track] ∧
        track.codec = .aac ∧ track.fmtp = some written ∧ parseAacConfigChecked written = some (some a.config.asc) := by
  refine ⟨exact_config_iff fmtp, fun family a => ?_⟩
  exact ⟨_, String.ofList a.fmtp, aac_block_track family a, rfl, rfl, a.parse_fmtp⟩

theorem signed_config_read :
    configParam "97 config=+A" = some "+A".toList ∧ parseAacConfigChecked "97 config=+A" = some (some [0x0A]) ∧
      ¬ Spells "+A".toList [0x0A] ∧ parseAacConfigChecked "97 config=a€" = none ∧ ¬ ∀ fmtp, ExactConfig fmtp := by
  have panics : parseAacConfigChecked "97 config=a€" = none := by decide
  have signed : ¬ Spells "+A".toList [0x0A] := by
    unfold Spells
    decide
  exact ⟨by decide, by decide, signed, panics, fun always => (always "97 config=a€").slices panics⟩

end Lvqr.Rtsp
