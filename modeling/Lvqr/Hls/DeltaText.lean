import Lvqr.Hls.Delta

set_option autoImplicit false

-- The text of a playlist falls into the lines it was written from, as long as the
-- strings it takes over bring no line ends with them.
namespace Lvqr.Hls

open PlaylistBuilder

def InlineText (text : String) : Prop := Text.Inline text.toList

instance (text : String) : Decidable (InlineText text) := inferInstanceAs (Decidable (Text.Inline _))

def NUMBER_TAGS : List String := ["#EXT-X-MEDIA-SEQUENCE:", "#EXT-X-SKIP:SKIPPED-SEGMENTS="]

-- The front of a line tells that none of the tags begins it.
def Apart (tags : List String) (front : String) : Prop :=
  ∀ tag ∈ tags, ¬ tag.toList <+: front.toList ∧ ¬ front.toList <+: tag.toList

instance (tags : List String) (front : String) : Decidable (Apart tags front) :=
  inferInstanceAs (Decidable (∀ tag ∈ tags, _))

def Legible (line : Line) : Prop :=
  ∃ chars, line.text.toList = chars ++ ['\n'] ∧ Text.Inline chars ∧ readLine chars = some line

theorem inline_text_append (first second : String) :
    InlineText (first ++ second) ↔ InlineText first ∧ InlineText second := by
  rw [InlineText, String.toList_append]
  exact Text.inline_append _ _

theorem inline_nat (number : Nat) : InlineText (toString number) := by
  refine Text.inline_digits _ fun char member => ?_
  rw [Nat.toString_eq_repr, Nat.toList_repr] at member
  exact Nat.isDigit_of_mem_toDigits (by decide) (by decide) member

theorem inline_pad (width number : Nat) : InlineText (Decimal.padLeft width number) :=
  Text.inline_digits _ (Decimal.pad_left_digits width number)

theorem inline_fixed (decimals : Nat) (value : ℚ) : InlineText (Decimal.fixed decimals value) := by
  simp only [Decimal.fixed, inline_text_append]
  exact ⟨⟨inline_nat _, by decide⟩, inline_pad _ _⟩

theorem inline_date (epochMillis : Nat) : InlineText (formatProgramDateTime epochMillis) := by
  unfold formatProgramDateTime
  simp only [inline_text_append, inline_pad, true_and, and_true]
  decide

theorem inline_escaped (text : String) : InlineText (escapeAttr text) := by
  have dropped : ∀ feed : Char, feed = '\r' ∨ feed = '\n' → feed ∉ (escapeAttr text).toList := by
    intro feed isEnd member
    rw [escapeAttr, String.toList_ofList] at member
    obtain ⟨char, -, written⟩ := List.mem_flatMap.mp member
    split at written
    · rcases isEnd with rfl | rfl <;> simp at written
    · split at written
      · rcases isEnd with rfl | rfl <;> simp at written
      · split at written
        · cases written
        · rename_i notEnd
          obtain rfl := List.mem_singleton.mp written
          exact notEnd isEnd.symm
  exact ⟨dropped '\r' (.inl rfl), dropped '\n' (.inr rfl)⟩

theorem parse_legible (lines : List Line) (legible : ∀ line ∈ lines, Legible line) :
    Playlist.parse (String.join (lines.map Line.text)) = .ofLines lines := by
  have read : (Text.lines (String.join (lines.map Line.text)).toList).filterMap readLine = lines := by
    induction lines with
    | nil => rfl
    | cons line lines ih =>
        obtain ⟨here, others⟩ := List.forall_mem_cons.mp legible
        obtain ⟨chars, text, inline, read⟩ := here
        rw [List.map_cons, String.join_cons, String.toList_append, text, List.append_assoc, List.singleton_append,
          Text.lines_feed chars _ inline, List.filterMap_cons, read, ih others]
  rw [Playlist.parse, read]

section Lines

variable (front tail : String)

theorem line_chars : (front ++ tail ++ "\n").toList = front.toList ++ tail.toList ++ ['\n'] := by
  rw [String.toList_append, String.toList_append]
  rfl

theorem read_back : String.ofList (front.toList ++ tail.toList) ++ "\n" = front ++ tail ++ "\n" := by
  rw [String.ofList_append, String.ofList_toList, String.ofList_toList]

-- Past the two tags with a number a line is read by whether it is a segment's tag.
theorem read_tagged (hash : front.toList.head? = some '#') (apart : Apart NUMBER_TAGS front) :
    readLine (front.toList ++ tail.toList) =
      if ∃ tag ∈ SEGMENT_TAGS, tag.toList <+: front.toList ++ tail.toList then some (.tag (front ++ tail ++ "\n"))
      else some (.head (front ++ tail ++ "\n")) := by
  have starts : (front.toList ++ tail.toList).head? = some '#' := by
    rw [List.head?_append, hash]
    rfl
  have nonempty : front.toList ++ tail.toList ≠ [] := by
    intro empty
    rw [empty] at starts
    cases starts
  have sequence := apart "#EXT-X-MEDIA-SEQUENCE:" List.mem_cons_self
  have skip := apart "#EXT-X-SKIP:SKIPPED-SEGMENTS=" (List.mem_cons_of_mem _ List.mem_cons_self)
  rw [readLine, if_neg nonempty, if_neg (fun other => other starts), Text.strip_prefix_none _ _ _ sequence]
  dsimp only
  rw [Text.strip_prefix_none _ _ _ skip]
  dsimp only
  rw [read_back]

theorem legible_head (hash : front.toList.head? = some '#') (inline : InlineText front) (apart : Apart NUMBER_TAGS front)
    (whole : Apart SEGMENT_TAGS front) (tailInline : InlineText tail) : Legible (.head (front ++ tail ++ "\n")) := by
  refine ⟨front.toList ++ tail.toList, line_chars front tail, (Text.inline_append _ _).mpr ⟨inline, tailInline⟩, ?_⟩
  rw [read_tagged front tail hash apart, if_neg]
  rintro ⟨tag, isTag, starts⟩
  have away := whole tag isTag
  exact (List.prefix_or_prefix_of_prefix starts (List.prefix_append _ _)).elim away.1 away.2

theorem legible_tag (hash : front.toList.head? = some '#') (inline : InlineText front) (apart : Apart NUMBER_TAGS front)
    (tagged : ∃ tag ∈ SEGMENT_TAGS, tag.toList <+: front.toList) (tailInline : InlineText tail) :
    Legible (.tag (front ++ tail ++ "\n")) := by
  refine ⟨front.toList ++ tail.toList, line_chars front tail, (Text.inline_append _ _).mpr ⟨inline, tailInline⟩, ?_⟩
  obtain ⟨tag, isTag, starts⟩ := tagged
  rw [read_tagged front tail hash apart, if_pos ⟨tag, isTag, starts.trans (List.prefix_append _ _)⟩]

end Lines

theorem legible_sequence (number : Nat) : Legible (.mediaSequence number) := by
  refine ⟨"#EXT-X-MEDIA-SEQUENCE:".toList ++ (toString number).toList, line_chars _ _,
    (Text.inline_append _ _).mpr ⟨by decide, inline_nat number⟩, ?_⟩
  rw [readLine, if_neg (by simp), if_neg (by simp), Text.strip_prefix_append]
  dsimp only
  rw [Text.unsigned_value_nat]
  rfl

theorem legible_skipped (count : Nat) : Legible (.skipped count) := by
  refine ⟨"#EXT-X-SKIP:SKIPPED-SEGMENTS=".toList ++ (toString count).toList, line_chars _ _,
    (Text.inline_append _ _).mpr ⟨by decide, inline_nat count⟩, ?_⟩
  rw [readLine, if_neg (by simp), if_neg (by simp), Text.strip_prefix_none _ _ _ (by decide)]
  dsimp only
  rw [Text.strip_prefix_append]
  dsimp only
  rw [Text.unsigned_value_nat]
  rfl

theorem legible_part (timescale : Nat) (part : Part) (inline : InlineText part.uri) :
    Legible (.tag (part.render timescale)) := by
  have independent : InlineText (if part.independent then ",INDEPENDENT=YES" else "") := by
    split <;> decide
  have tail : InlineText (Decimal.fixed 6 (ticksToSecs part.durationTicks timescale) ++
      (",URI=\"" ++ (part.uri ++ ("\"" ++ if part.independent then ",INDEPENDENT=YES" else "")))) := by
    simp only [inline_text_append]
    exact ⟨inline_fixed _ _, by decide, inline, by decide, independent⟩
  have shape : part.render timescale = "#EXT-X-PART:DURATION=" ++
      (Decimal.fixed 6 (ticksToSecs part.durationTicks timescale) ++
        (",URI=\"" ++ (part.uri ++ ("\"" ++ if part.independent then ",INDEPENDENT=YES" else "")))) ++ "\n" := by
    unfold Part.render
    simp only [String.append_assoc]
  rw [shape]
  exact legible_tag _ _ rfl (by decide) (by decide) ⟨"#EXT-X-PART:", by decide, by decide⟩ tail

theorem inline_optional {Value : Type} (written : Value → String) (inline : ∀ value, InlineText (written value))
    (value : Option Value) : InlineText (value.elim "" written) := by
  cases value with
  | none => exact show InlineText "" by decide
  | some value => exact inline value

theorem legible_range (range : DateRange) (inline : InlineText range.scte35Hex) : Legible (.head range.render) := by
  have class_ := inline_optional (fun class_ => ",CLASS=\"" ++ (escapeAttr class_ ++ "\""))
    (fun class_ => by simp only [inline_text_append, inline_escaped]; decide) range.class_
  have duration := inline_optional (fun secs => ",DURATION=" ++ Decimal.fixed 3 secs)
    (fun secs => by simp only [inline_text_append, inline_fixed]; decide) range.durationSecs
  have kind : InlineText range.kind.attributeName := by
    cases range.kind <;> decide
  have tail : InlineText (escapeAttr range.id ++ ("\"" ++ (range.class_.elim "" (fun class_ => ",CLASS=\"" ++
      (escapeAttr class_ ++ "\"")) ++ (",START-DATE=\"" ++ (formatProgramDateTime range.startDateMillis ++ ("\"" ++
        (range.durationSecs.elim "" (fun secs => ",DURATION=" ++ Decimal.fixed 3 secs) ++ ("," ++
          (range.kind.attributeName ++ ("=" ++ range.scte35Hex)))))))))) := by
    simp only [inline_text_append]
    exact ⟨inline_escaped _, by decide, class_, by decide, inline_date _, by decide, duration, by decide, kind, by decide,
      inline⟩
  have shape : range.render = "#EXT-X-DATERANGE:ID=\"" ++ (escapeAttr range.id ++ ("\"" ++
      (range.class_.elim "" (fun class_ => ",CLASS=\"" ++ (escapeAttr class_ ++ "\"")) ++ (",START-DATE=\"" ++
        (formatProgramDateTime range.startDateMillis ++ ("\"" ++
          (range.durationSecs.elim "" (fun secs => ",DURATION=" ++ Decimal.fixed 3 secs) ++ ("," ++
            (range.kind.attributeName ++ ("=" ++ range.scte35Hex)))))))))) ++ "\n" := by
    unfold DateRange.render
    cases range.class_ <;> cases range.durationSecs <;>
      simp only [Option.elim_none, Option.elim_some, String.append_assoc, String.empty_append]
  rw [shape]
  exact legible_head _ _ rfl (by decide) (by decide) (by decide) tail

theorem legible_control (control : ServerControl) : Legible (.head control.render) := by
  have reload : InlineText (if control.canBlockReload then "YES" else "NO") := by
    split <;> decide
  have skip := inline_optional (fun skip => ",CAN-SKIP-UNTIL=" ++ Decimal.fixed 3 (asSecsF32 skip))
    (fun secs => by simp only [inline_text_append, inline_fixed]; decide) control.canSkipUntil
  have tail : InlineText ((if control.canBlockReload then "YES" else "NO") ++ (",PART-HOLD-BACK=" ++
      (Decimal.fixed 3 (asSecsF32 control.partHoldBack) ++ (",HOLD-BACK=" ++
        (Decimal.fixed 3 (asSecsF32 control.holdBack) ++
          control.canSkipUntil.elim "" (fun skip => ",CAN-SKIP-UNTIL=" ++ Decimal.fixed 3 (asSecsF32 skip))))))) := by
    simp only [inline_text_append]
    exact ⟨reload, by decide, inline_fixed _ _, by decide, inline_fixed _ _, skip⟩
  have shape : control.render = "#EXT-X-SERVER-CONTROL:CAN-BLOCK-RELOAD=" ++
      ((if control.canBlockReload then "YES" else "NO") ++ (",PART-HOLD-BACK=" ++
        (Decimal.fixed 3 (asSecsF32 control.partHoldBack) ++ (",HOLD-BACK=" ++
          (Decimal.fixed 3 (asSecsF32 control.holdBack) ++
            control.canSkipUntil.elim "" (fun skip => ",CAN-SKIP-UNTIL=" ++ Decimal.fixed 3 (asSecsF32 skip))))))) ++
      "\n" := by
    unfold ServerControl.render
    cases control.canSkipUntil <;>
      simp only [Option.elim_none, Option.elim_some, String.append_assoc, String.append_empty]
  rw [shape]
  exact legible_head _ _ rfl (by decide) (by decide) (by decide) tail

theorem legible_uri (uri : String) (inline : InlineText uri) (named : uri ≠ "") (plain : uri.toList.head? ≠ some '#') :
    Legible (.uri (uri ++ "\n")) := by
  refine ⟨uri.toList, ?_, inline, ?_⟩
  · show (uri ++ "\n").toList = uri.toList ++ ['\n']
    rw [String.toList_append]
    rfl
  · rw [readLine, if_neg (fun empty => named (String.toList_eq_nil_iff.mp empty)), if_pos plain, String.ofList_toList]

-- The strings that a playlist takes over bring no line ends, and a URI is read as one.
structure Manifest.Plain (manifest : Manifest) : Prop where
  mapUri : InlineText manifest.mapUri
  uris : ∀ segment ∈ manifest.segments,
    InlineText segment.uri ∧ segment.uri ≠ "" ∧ segment.uri.toList.head? ≠ some '#'
  parts : ∀ segment ∈ manifest.segments, ∀ part ∈ segment.parts, InlineText part.uri
  preliminary : ∀ part ∈ manifest.preliminaryParts, InlineText part.uri
  hint : ∀ uri ∈ manifest.preloadHintUri, InlineText uri
  ranges : ∀ range ∈ manifest.dateRanges, InlineText range.scte35Hex

theorem legible_quoted (front uri : String) (hash : front.toList.head? = some '#') (inline : InlineText front)
    (apart : Apart NUMBER_TAGS front) (whole : Apart SEGMENT_TAGS front) (uriInline : InlineText uri) :
    Legible (.head (front ++ uri ++ "\"\n")) := by
  have closed : ("\"\n" : String) = "\"" ++ "\n" := rfl
  have shape : front ++ uri ++ "\"\n" = front ++ (uri ++ "\"") ++ "\n" := by
    simp only [closed, String.append_assoc]
  rw [shape]
  exact legible_head front (uri ++ "\"") hash inline apart whole ((inline_text_append _ _).mpr ⟨uriInline, by decide⟩)

theorem legible_header (manifest : Manifest) (mapUri : InlineText manifest.mapUri) :
    ∀ text ∈ manifest.header, Legible (.head text) := by
  have plain (front : String) (hash : front.toList.head? = some '#') (inline : InlineText front)
      (apart : Apart NUMBER_TAGS front) (whole : Apart SEGMENT_TAGS front) : Legible (.head (front ++ "\n")) := by
    have legible := legible_head front "" hash inline apart whole (by decide)
    rwa [String.append_empty] at legible
  intro text member
  simp only [Manifest.header, List.mem_cons, List.not_mem_nil, or_false] at member
  rcases member with rfl | rfl | rfl | rfl | rfl | rfl | rfl
  · exact plain "#EXTM3U" rfl (by decide) (by decide) (by decide)
  · exact legible_head _ _ rfl (by decide) (by decide) (by decide) (inline_nat _)
  · exact plain "#EXT-X-INDEPENDENT-SEGMENTS" rfl (by decide) (by decide) (by decide)
  · exact legible_head _ _ rfl (by decide) (by decide) (by decide) (inline_nat _)
  · exact legible_control _
  · exact legible_head _ _ rfl (by decide) (by decide) (by decide) (inline_fixed _ _)
  · exact legible_quoted "#EXT-X-MAP:URI=\"" _ rfl (by decide) (by decide) (by decide) mapUri

theorem legible_ending (manifest : Manifest) (hint : ∀ uri ∈ manifest.preloadHintUri, InlineText uri) :
    ∀ text ∈ manifest.ending, Legible (.head text) := by
  intro text member
  rw [Manifest.ending] at member
  split at member
  · obtain rfl := List.mem_singleton.mp member
    have legible := legible_head "#EXT-X-ENDLIST" "" rfl (by decide) (by decide) (by decide) (by decide)
    rwa [String.append_empty] at legible
  · obtain ⟨uri, isHint, rfl⟩ := List.mem_map.mp member
    exact legible_quoted "#EXT-X-PRELOAD-HINT:TYPE=PART,URI=\"" _ rfl (by decide) (by decide) (by decide)
      (hint uri (Option.mem_toList.mp isHint))

theorem legible_numbers (manifest : Manifest) (skipCount : Nat) :
    ∀ line ∈ manifest.numberLines skipCount, Legible line := by
  intro line member
  rw [Manifest.numberLines] at member
  rcases List.mem_append.mp member with sequence | skip
  · obtain ⟨first, -, rfl⟩ := List.mem_map.mp sequence
    exact legible_sequence _
  · split at skip
    · obtain rfl := List.mem_singleton.mp skip
      exact legible_skipped _
    · cases skip

theorem legible_segment (timescale : Nat) (segment : Segment)
    (uri : InlineText segment.uri ∧ segment.uri ≠ "" ∧ segment.uri.toList.head? ≠ some '#')
    (parts : ∀ part ∈ segment.parts, InlineText part.uri) : ∀ line ∈ segment.lines timescale, Legible line := by
  intro line member
  rw [Segment.lines] at member
  rcases List.mem_append.mp member with tagged | last
  · obtain ⟨text, isTag, rfl⟩ := List.mem_map.mp tagged
    simp only [Segment.tags, List.mem_append] at isTag
    rcases isTag with ((discontinuity | date) | part) | extinf
    · split at discontinuity
      · obtain rfl := List.mem_singleton.mp discontinuity
        have legible := legible_tag "#EXT-X-DISCONTINUITY" "" rfl (by decide) (by decide)
          ⟨"#EXT-X-DISCONTINUITY", by decide, List.prefix_refl _⟩ (by decide)
        rwa [String.append_empty] at legible
      · cases discontinuity
    · obtain ⟨millis, -, rfl⟩ := List.mem_map.mp date
      exact legible_tag "#EXT-X-PROGRAM-DATE-TIME:" _ rfl (by decide) (by decide)
        ⟨"#EXT-X-PROGRAM-DATE-TIME:", by decide, List.prefix_refl _⟩ (inline_date millis)
    · obtain ⟨known, isPart, rfl⟩ := List.mem_map.mp part
      exact legible_part timescale known (parts known isPart)
    · obtain rfl := List.mem_singleton.mp extinf
      have closed : (",\n" : String) = "," ++ "\n" := rfl
      have shape : "#EXTINF:" ++ Decimal.fixed 6 (ticksToSecs segment.durationTicks timescale) ++ ",\n" =
          "#EXTINF:" ++ (Decimal.fixed 6 (ticksToSecs segment.durationTicks timescale) ++ ",") ++ "\n" := by
        simp only [closed, String.append_assoc]
      rw [shape]
      exact legible_tag "#EXTINF:" _ rfl (by decide) (by decide) ⟨"#EXTINF:", by decide, List.prefix_refl _⟩
        ((inline_text_append _ _).mpr ⟨inline_fixed _ _, by decide⟩)
  · obtain rfl := List.mem_singleton.mp last
    exact legible_uri segment.uri uri.1 uri.2.1 uri.2.2

theorem legible_lines (manifest : Manifest) (plain : manifest.Plain) (skipCount : Nat) :
    ∀ line ∈ manifest.lines skipCount, Legible line := by
  intro line member
  simp only [Manifest.lines, List.mem_append] at member
  rcases member with ((((header | numbers) | ranges) | segments) | parts) | ending
  · obtain ⟨text, isText, rfl⟩ := List.mem_map.mp header
    exact legible_header manifest plain.mapUri text isText
  · exact legible_numbers manifest _ line numbers
  · obtain ⟨text, isText, rfl⟩ := List.mem_map.mp ranges
    obtain ⟨range, isRange, rfl⟩ := List.mem_map.mp isText
    exact legible_range range (plain.ranges range isRange)
  · obtain ⟨segment, listed, isLine⟩ := List.mem_flatMap.mp segments
    have known := List.mem_of_mem_drop listed
    exact legible_segment _ segment (plain.uris segment known) (plain.parts segment known) line isLine
  · obtain ⟨text, isText, rfl⟩ := List.mem_map.mp parts
    obtain ⟨part, isPart, rfl⟩ := List.mem_map.mp isText
    exact legible_part _ part (plain.preliminary part isPart)
  · obtain ⟨text, isText, rfl⟩ := List.mem_map.mp ending
    exact legible_ending manifest plain.hint text isText

theorem parse_rendered (manifest : Manifest) (plain : manifest.Plain) (skipCount : Nat) :
    Playlist.parse (manifest.renderWithSkip skipCount) = .ofLines (manifest.lines skipCount) := by
  rw [← render_lines]
  exact parse_legible _ (legible_lines manifest plain skipCount)

section Labelled

variable {config : PlaylistBuilderConfig} {allowed : DateRange → Prop}

end Labelled

def pushes (count : Nat) : List TraceOp :=
  (List.range count).map fun index => .builder (.push ⟨"0.mp4", [], index * 180000, 180000, .segment⟩)

end Lvqr.Hls
