import Lvqr.Rtp.Header

set_option autoImplicit false

-- Where the payload of a received packet ends. An index or a slice that does not
-- fit panics in the source and is `none` here.
namespace Lvqr.Rtp

def byteChecked (data : Bytes) (offset : Nat) : Option UInt8 :=
  if offset < data.length then some (byteAt data offset) else none

def beChecked (data : Bytes) (offset width : Nat) : Option Nat :=
  if offset + width ≤ data.length then some (beAt data offset width) else none

def sliceFrom (data : Bytes) (start : Nat) : Option Bytes :=
  if start ≤ data.length then some (data.drop start) else none

def payloadStartChecked (data : Bytes) : Option (Option Nat) := do
  let first ← byteChecked data 0
  let extension := (first >>> 4) &&& 0x01 != 0
  let csrcCount := (first &&& 0x0F).toNat
  let offset := 12 + csrcCount * 4
  if offset > data.length then some none
  else if extension then
    if offset + 4 > data.length then some none
    else
      let extLen ← beChecked data (offset + 2) 2
      let offset := offset + (4 + extLen * 4)
      some (if offset > data.length then none else some offset)
  else some (some offset)

def payloadEndChecked (data : Bytes) : Option Nat := do
  let first ← byteChecked data 0
  let padding := (first >>> 5) &&& 0x01 != 0
  if padding && !data.isEmpty then
    let padLen ← byteChecked data (data.length - 1)
    some (data.length - padLen.toNat)
  else some data.length

def parseRtpHeaderChecked (data : Bytes) : Option (Option RtpHeader) :=
  if data.length < 12 then some none
  else do
    let first ← byteChecked data 0
    let version := (first >>> 6) &&& 0x03
    if version ≠ 2 then some none
    else
      let second ← byteChecked data 1
      let sequence ← beChecked data 2 2
      let timestamp ← beChecked data 4 4
      let ssrc ← beChecked data 8 4
      match ← payloadStartChecked data with
      | none => some none
      | some offset =>
          if offset > (← payloadEndChecked data) then some none
          else
            some (some {
              payloadType := second &&& 0x7F
              sequence := UInt16.ofNat sequence
              timestamp := UInt32.ofNat timestamp
              ssrc := UInt32.ofNat ssrc
              marker := (second >>> 7) &&& 0x01 != 0
              headerLen := offset
            })

-- What `process_rtp_frame` hands to the depacketizer.
def handedPayload (data : Bytes) : Option (Option Bytes) := do
  match ← parseRtpHeaderChecked data with
  | none => some none
  | some header =>
      let rtpPayload ← sliceFrom data header.headerLen
      some (some rtpPayload)

theorem byte_checked_at (data : Bytes) (offset : Nat) (inside : offset < data.length) :
    byteChecked data offset = some (byteAt data offset) := if_pos inside

theorem be_checked_at (data : Bytes) (offset width : Nat) (inside : offset + width ≤ data.length) :
    beChecked data offset width = some (beAt data offset width) := if_pos inside

theorem payload_start_checked (data : Bytes) (long : 12 ≤ data.length) :
    payloadStartChecked data = some (payloadStart data) := by
  rw [payloadStartChecked, byte_checked_at data 0 (by omega), payloadStart]
  dsimp only [Option.bind_eq_bind, Option.bind_some]
  split
  · rfl
  · split
    · split
      · rfl
      · rename_i fits
        rw [be_checked_at _ _ _ (by omega)]
        rfl
    · rfl

theorem payload_end_checked (data : Bytes) (long : 12 ≤ data.length) :
    payloadEndChecked data = some (payloadEnd data) := by
  rw [payloadEndChecked, byte_checked_at data 0 (by omega), byte_checked_at data (data.length - 1) (by omega), payloadEnd]
  dsimp only [Option.bind_eq_bind, Option.bind_some]
  split
  · rfl
  · rfl

-- No index of the parser is out of range.
theorem parse_rtp_header_checked (data : Bytes) : parseRtpHeaderChecked data = some (parseRtpHeader data) := by
  rw [parseRtpHeaderChecked, parseRtpHeader]
  split
  · rfl
  · rename_i notShort
    have long : 12 ≤ data.length := Nat.not_lt.mp notShort
    rw [byte_checked_at data 0 (by omega), byte_checked_at data 1 (by omega), be_checked_at data 2 2 (by omega),
      be_checked_at data 4 4 (by omega), be_checked_at data 8 4 (by omega), payload_start_checked data long,
      payload_end_checked data long]
    dsimp only [Option.bind_eq_bind, Option.bind_some]
    split
    · rfl
    · cases payloadStart data with
      | none => rfl
      | some offset =>
          dsimp only
          split
          · rfl
          · rfl

theorem payload_start_le (data : Bytes) (offset : Nat) (start : payloadStart data = some offset) :
    offset ≤ data.length := by
  unfold payloadStart at start
  dsimp only at start
  split at start
  · cases start
  · split at start
    · split at start
      · cases start
      · split at start
        · cases start
        · cases start
          omega
    · cases start
      omega

theorem parse_rtp_header_start (data : Bytes) (header : RtpHeader) (parsed : parseRtpHeader data = some header) :
    payloadStart data = some header.headerLen := by
  unfold parseRtpHeader at parsed
  split at parsed
  · cases parsed
  · dsimp only at parsed
    split at parsed
    · cases parsed
    · split at parsed
      · cases parsed
      · rename_i start
        split at parsed
        · cases parsed
        · cases parsed
          exact start

theorem handed_payload (data : Bytes) :
    handedPayload data = some ((parseRtpHeader data).map fun header => data.drop header.headerLen) := by
  rw [handedPayload, parse_rtp_header_checked]
  cases parsed : parseRtpHeader data with
  | none => rfl
  | some header =>
      have inside := payload_start_le data _ (parse_rtp_header_start data header parsed)
      dsimp only [Option.bind_eq_bind, Option.bind_some, Option.map_some]
      rw [sliceFrom, if_pos inside]
      rfl

-- The lengths that a packet declares: the fixed header with the sources and the
-- extension, and the count in the last byte of the padding.
def headerLength (data : Bytes) : Nat :=
  let sources := 12 + (byteAt data 0 &&& 0x0F).toNat * 4
  if (byteAt data 0 >>> 4) &&& 0x01 != 0 then sources + 4 + beAt data (sources + 2) 2 * 4 else sources

def paddingLength (data : Bytes) : Nat :=
  if (byteAt data 0 >>> 5) &&& 0x01 != 0 then (byteAt data (data.length - 1)).toNat else 0

structure Layout (data header payload padding : Bytes) : Prop where
  version : (byteAt data 0 >>> 6) &&& 0x03 = 2
  whole : data = header ++ (payload ++ padding)
  header_length : header.length = headerLength data
  padding_length : padding.length = paddingLength data

structure ExtentExact (data : Bytes) : Prop where
  handed : ∀ header payload padding, Layout data header payload padding → handedPayload data = some (some payload)
  rejected : (¬ ∃ header payload padding, Layout data header payload padding) → handedPayload data = some none

-- A packet whose declared lengths fit it.
structure Fits (data : Bytes) : Prop where
  version : (byteAt data 0 >>> 6) &&& 0x03 = 2
  within : headerLength data + paddingLength data ≤ data.length

theorem header_length_ge (data : Bytes) : 12 ≤ headerLength data := by
  simp only [headerLength]
  split
  · omega
  · omega

theorem payload_start_eq (data : Bytes) :
    payloadStart data = if headerLength data ≤ data.length then some (headerLength data) else none := by
  simp only [payloadStart, headerLength]
  obtain ⟨sources, isSources⟩ : ∃ sources, sources = (byteAt data 0 &&& 0x0F).toNat := ⟨_, rfl⟩
  obtain ⟨words, isWords⟩ : ∃ words, words = beAt data (12 + sources * 4 + 2) 2 := ⟨_, rfl⟩
  simp only [← isSources, ← isWords]
  by_cases extension : (byteAt data 0 >>> 4 &&& 0x01 != 0) = true
  · simp only [extension, if_true]
    by_cases short : 12 + sources * 4 + 4 ≤ data.length
    · rw [if_neg (by omega), if_neg (by omega)]
      by_cases fits : 12 + sources * 4 + 4 + words * 4 ≤ data.length
      · rw [if_neg (by omega), if_pos fits, ← Nat.add_assoc (12 + sources * 4)]
      · rw [if_pos (by omega), if_neg fits]
    · rw [if_neg (show ¬ 12 + sources * 4 + 4 + words * 4 ≤ data.length by omega)]
      split
      · rfl
      · exact if_pos (by omega)
  · simp only [extension, if_false, Bool.false_eq_true]
    by_cases fits : 12 + sources * 4 ≤ data.length
    · rw [if_neg (by omega), if_pos fits]
    · rw [if_pos (by omega), if_neg fits]

theorem payload_end_eq (data : Bytes) (nonempty : data ≠ []) :
    payloadEnd data = data.length - paddingLength data := by
  have filled : data.isEmpty = false := by simpa using nonempty
  simp only [payloadEnd, paddingLength, filled, Bool.not_false, Bool.and_true]
  split
  · rfl
  · rfl

theorem parse_fitting (data : Bytes) (fits : Fits data) :
    (parseRtpHeader data).map RtpHeader.headerLen = some (headerLength data) := by
  have least := header_length_ge data
  have within := fits.within
  have nonempty : data ≠ [] := by
    intro empty
    subst empty
    rw [List.length_nil] at within
    omega
  rw [parseRtpHeader, if_neg (by omega)]
  dsimp only
  rw [if_neg (not_not.mpr fits.version), payload_start_eq, if_pos (by omega), payload_end_eq data nonempty]
  dsimp only
  rw [if_neg (by omega)]
  rfl

theorem parse_unfitting (data : Bytes) (unfit : ¬ Fits data) : parseRtpHeader data = none := by
  have least := header_length_ge data
  unfold parseRtpHeader
  split
  · rfl
  · rename_i long
    have nonempty : data ≠ [] := by
      intro empty
      rw [empty, List.length_nil] at long
      omega
    dsimp only
    split
    · rfl
    · rename_i version
      have outside : ¬ headerLength data + paddingLength data ≤ data.length :=
        fun within => unfit ⟨not_not.mp version, within⟩
      rw [payload_start_eq, payload_end_eq data nonempty]
      by_cases inside : headerLength data ≤ data.length
      · rw [if_pos inside]
        exact if_pos (by omega)
      · rw [if_neg inside]

theorem handed_fitting (data : Bytes) (fits : Fits data) :
    handedPayload data = some (some (data.drop (headerLength data))) := by
  have parsed := parse_fitting data fits
  rw [handed_payload]
  cases header : parseRtpHeader data with
  | none =>
      rw [header] at parsed
      cases parsed
  | some found =>
      rw [header] at parsed
      rw [Option.map_some, Option.some.inj parsed]

theorem layout_fits {data header payload padding : Bytes} (layout : Layout data header payload padding) :
    Fits data := by
  refine ⟨layout.version, ?_⟩
  rw [← layout.header_length, ← layout.padding_length]
  conv_rhs => rw [layout.whole]
  simp only [List.length_append]
  omega

theorem fits_layout (data : Bytes) (fits : Fits data) :
    ∃ header payload padding, Layout data header payload padding := by
  have within := fits.within
  refine ⟨data.take (headerLength data),
    (data.drop (headerLength data)).take (data.length - headerLength data - paddingLength data),
    (data.drop (headerLength data)).drop (data.length - headerLength data - paddingLength data), fits.version, ?_, ?_, ?_⟩
  · rw [List.take_append_drop, List.take_append_drop]
  · rw [List.length_take]
    omega
  · simp only [List.length_drop]
    omega

theorem layout_payload {data header payload padding : Bytes} (layout : Layout data header payload padding) :
    data.drop (headerLength data) = payload ++ padding := by
  rw [← layout.header_length]
  conv_lhs => rw [layout.whole]
  exact List.drop_left

-- The parser sees where the padding starts, but its caller hands on all that
-- follows the header.
theorem extent_exact_iff (data : Bytes) : ExtentExact data ↔ (Fits data → paddingLength data = 0) := by
  constructor
  · intro exact fits
    obtain ⟨header, payload, padding, layout⟩ := fits_layout data fits
    have handed := exact.handed header payload padding layout
    rw [handed_fitting data fits, layout_payload layout] at handed
    have nothing : padding = [] := by simpa using handed
    rw [← layout.padding_length, nothing, List.length_nil]
  · intro unpadded
    refine ⟨?_, ?_⟩
    · intro header payload padding layout
      have fits := layout_fits layout
      have nothing : padding = [] := List.eq_nil_of_length_eq_zero (layout.padding_length.trans (unpadded fits))
      rw [handed_fitting data fits, layout_payload layout, nothing, List.append_nil]
    · intro none
      have unfit : ¬ Fits data := fun fits => none (fits_layout data fits)
      rw [handed_payload, parse_unfitting data unfit]
      rfl

-- One byte of an H.264 slice and four bytes of padding.
def paddedPacket : Bytes := [0xA0, 0x60, 0, 1, 0, 0, 0, 0, 0, 0, 0, 0, 0x65, 0, 0, 0, 4]

theorem padding_handed_on : ¬ ∀ data, ExtentExact data := by
  intro always
  have layout : Layout paddedPacket (paddedPacket.take 12) [0x65] [0, 0, 0, 4] :=
    ⟨by decide, by decide, by decide, by decide⟩
  have handed := (always paddedPacket).handed _ _ _ layout
  revert handed
  decide

end Lvqr.Rtp
