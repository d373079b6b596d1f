import Lvqr.Dash.Render

set_option autoImplicit false

-- What a client reads out of the document of an MPD.
namespace Lvqr.Dash

open Xml (Content Element present)

section Reader

def attrOf (element : Element) (name : String) : Option String := element.attributes.lookup name

def number (element : Element) (name : String) : Option Nat :=
  (attrOf element name).bind fun text => Text.unsignedValue text.toList

-- An attribute that may be absent, but not unreadable.
def optional {Value : Type} (read : String → Option Value) (element : Element) (name : String) : Option (Option Value) :=
  match attrOf element name with
  | none => some none
  | some text => (read text).map some

def readNumber (text : String) : Option Nat := Text.unsignedValue text.toList

def childrenNamed (element : Element) (name : String) : List Element :=
  element.children.elements.filter (·.name = name)

def only : List Element → Option Element
  | [element] => some element
  | _ => none

def dateOf (year month day : Nat) : Option Calendar.Date :=
  if valid : (1 ≤ month ∧ month ≤ 12) ∧ 1 ≤ day ∧ day ≤ Calendar.monthDays year month then
    some ⟨year, month, day, valid.1, valid.2⟩
  else none

-- Numbers, with a separator behind each.
def readNumbers : List Char → List Char → Option (List Nat)
  | [], rest => if rest = [] then some [] else none
  | separator :: separators, text =>
      (Text.splitOnce separator text).bind fun (front, rest) =>
        (Text.unsignedValue front).bind fun number => (readNumbers separators rest).map (number :: ·)

def readDate (text : String) : Option Nat :=
  match readNumbers ['-', '-', 'T', ':', ':', '.', 'Z'] text.toList with
  | some [year, month, day, hour, min, sec, millis] =>
      (dateOf year month day).map fun date => (Calendar.daysFromCivil date).toNat * 86400000 +
        (hour * 3600000 + min * 60000 + sec * 1000 + millis)
  | _ => none

def readDepth (text : String) : Option Nat := do
  let rest ← Text.stripPrefix "PT".toList text.toList
  Text.unsignedValue (← Text.stripSuffix ".000S".toList rest)

def SegmentTemplate.ofElement (element : Element) : Option SegmentTemplate := do
  return {
    initialization := ← attrOf element "initialization"
    media := ← attrOf element "media"
    startNumber := ← number element "startNumber"
    duration := ← number element "duration"
    timescale := ← number element "timescale" }

def Representation.ofElement (element : Element) : Option Representation := do
  return {
    id := ← attrOf element "id"
    codecs := ← attrOf element "codecs"
    bandwidthBps := ← number element "bandwidth"
    width := ← optional readNumber element "width"
    height := ← optional readNumber element "height"
    audioSamplingRate := ← optional readNumber element "audioSamplingRate" }

def AdaptationSet.ofElement (element : Element) : Option AdaptationSet := do
  return {
    id := ← number element "id"
    mimeType := ← attrOf element "mimeType"
    contentType := ← attrOf element "contentType"
    lang := attrOf element "lang"
    representations := ← (childrenNamed element "Representation").mapM Representation.ofElement
    segmentTemplate := ← SegmentTemplate.ofElement (← only (childrenNamed element "SegmentTemplate")) }

def DashEvent.ofElement (element : Element) : Option DashEvent := do
  let signal ← only (childrenNamed element "Signal")
  let binary ← only (childrenNamed signal "Binary")
  return {
    id := ← number element "id"
    presentationTime := ← number element "presentationTime"
    duration := ← optional readNumber element "duration"
    binaryBase64 := binary.children.characters }

def EventStream.ofElement (element : Element) : Option EventStream := do
  return {
    schemeIdUri := ← attrOf element "schemeIdUri"
    value := attrOf element "value"
    timescale := ← number element "timescale"
    events := ← (childrenNamed element "Event").mapM DashEvent.ofElement }

def Period.ofElement (element : Element) : Option Period := do
  return {
    id := ← attrOf element "id"
    start := ← attrOf element "start"
    eventStreams := ← (childrenNamed element "EventStream").mapM EventStream.ofElement
    adaptationSets := ← (childrenNamed element "AdaptationSet").mapM AdaptationSet.ofElement }

def readType (text : String) : Option MpdType :=
  if text = MpdType.dynamic.asStr then some .dynamic
  else if text = MpdType.static.asStr then some .static
  else none

def readTiming : List Element → Option (Option Nat)
  | [] => some none
  | [element] => ((attrOf element "value").bind readDate).map some
  | _ => none

-- An empty update period is one that is absent.
def Mpd.ofElement (element : Element) : Option Mpd := do
  return {
    mpdType := ← (attrOf element "type").bind readType
    profiles := ← attrOf element "profiles"
    minBufferTime := ← attrOf element "minBufferTime"
    minimumUpdatePeriod := (attrOf element "minimumUpdatePeriod").getD ""
    availabilityStartTimeMillis := ← optional readDate element "availabilityStartTime"
    publishTimeMillis := ← optional readDate element "publishTime"
    timeShiftBufferDepthSecs := ← optional readDepth element "timeShiftBufferDepth"
    utcTimingValueMillis := ← readTiming (childrenNamed element "UTCTiming")
    periods := ← (childrenNamed element "Period").mapM Period.ofElement }

end Reader

section Fields

variable (name : String) (fields : List (String × Option String)) (children : Content)
  (distinct : (fields.map Prod.fst).Nodup) (field : String)

include distinct

theorem attr_present (value : Option String) (member : (field, value) ∈ fields) :
    attrOf ⟨name, present fields, children⟩ field = value :=
  Xml.lookup_present fields distinct field value member

theorem number_present (value : Nat) (member : (field, some (toString value)) ∈ fields) :
    number ⟨name, present fields, children⟩ field = some value := by
  rw [number, attr_present name fields children distinct field _ member]
  exact Text.unsigned_value_nat value

theorem optional_present {Value : Type} (read : String → Option Value) (write : Value → String)
    (back : ∀ value, read (write value) = some value) (value : Option Value)
    (member : (field, value.map write) ∈ fields) :
    optional read ⟨name, present fields, children⟩ field = some value := by
  rw [optional, attr_present name fields children distinct field _ member]
  cases value with
  | none => rfl
  | some value =>
      show (read (write value)).map some = _
      rw [back]
      rfl

end Fields

section Children

theorem elements_line (indent : Nat) (element : Element) (rest : Content) :
    (line indent (node element) rest).elements = element :: rest.elements := by
  rw [line, Xml.elements_prepend, node, Content.elements, Xml.elements_prepend]

theorem elements_block (indent : Nat) (children : Content → Content) :
    (block indent children).elements = (children (Content.empty.prepend (pad indent))).elements := by
  rw [block, Xml.elements_prepend]

theorem elements_lines {Item : Type} (indent : Nat) (items : List Item) (element : Item → Element) (rest : Content) :
    (items.foldr (fun item => line indent (node (element item))) rest).elements = items.map element ++ rest.elements :=
  Xml.elements_each items _ element (fun item rest => elements_line indent (element item) rest) rest

theorem filter_named {Item : Type} (items : List Item) (element : Item → Element) (name : String)
    (named : ∀ item, (element item).name = name) : (items.map element).filter (·.name = name) = items.map element := by
  rw [List.filter_eq_self]
  intro other member
  obtain ⟨item, -, rfl⟩ := List.mem_map.mp member
  exact decide_eq_true (named item)

theorem filter_other {Item : Type} (items : List Item) (element : Item → Element) (name other : String)
    (named : ∀ item, (element item).name = name) (apart : name ≠ other) :
    (items.map element).filter (·.name = other) = [] := by
  rw [List.filter_eq_nil_iff]
  intro one member
  obtain ⟨item, -, rfl⟩ := List.mem_map.mp member
  rw [named item]
  simpa using apart

theorem read_each {Item : Type} (items : List Item) (element : Item → Element) (read : Element → Option Item)
    (back : ∀ item, read (element item) = some item) : (items.map element).mapM read = some items := by
  induction items with
  | nil => rfl
  | cons item items ih =>
      rw [List.map_cons, List.mapM_cons, back, ih]
      rfl

end Children

section Dates

theorem padded_value (width value : Nat) : Text.unsignedValue (Decimal.padLeft width value).toList = some value := by
  have nonempty : (Decimal.padLeft width value).toList ≠ [] := by
    rw [Decimal.padLeft, String.toList_append, Nat.toString_eq_repr, Nat.toList_repr]
    exact List.append_ne_nil_of_right_ne_nil _ Nat.toDigits_ne_nil
  rw [Text.unsigned_value_digits _ nonempty (Decimal.pad_left_digits width value), Decimal.pad_left_value]

theorem read_numbers_padded (separator : Char) (other : separator.isDigit = false) (separators : List Char)
    (width value : Nat) (rest : List Char) :
    readNumbers (separator :: separators) ((Decimal.padLeft width value).toList ++ separator :: rest) =
      (readNumbers separators rest).map (value :: ·) := by
  have absent : separator ∉ (Decimal.padLeft width value).toList := by
    intro inside
    rw [Decimal.pad_left_digits width value separator inside] at other
    cases other
  rw [readNumbers, Text.split_once_append separator _ rest absent, Option.bind_some]
  dsimp only
  rw [padded_value, Option.bind_some]

theorem date_of_fields (date : Calendar.Date) : dateOf date.year date.month date.day = some date :=
  dif_pos ⟨date.monthValid, date.dayValid⟩

theorem read_date_time (date : Calendar.Date) (millisOfDay : Nat) :
    readDate (dateTimeText date millisOfDay) = some ((Calendar.daysFromCivil date).toNat * 86400000 + millisOfDay) := by
  have text : (dateTimeText date millisOfDay).toList = (Decimal.padLeft 4 date.year).toList ++ '-' ::
      ((Decimal.padLeft 2 date.month).toList ++ '-' :: ((Decimal.padLeft 2 date.day).toList ++ 'T' ::
      ((Decimal.padLeft 2 (millisOfDay / 3600000)).toList ++ ':' ::
      ((Decimal.padLeft 2 (millisOfDay / 60000 % 60)).toList ++ ':' ::
      ((Decimal.padLeft 2 (millisOfDay / 1000 % 60)).toList ++ '.' ::
      ((Decimal.padLeft 3 (millisOfDay % 1000)).toList ++ 'Z' :: [])))))) := by
    unfold dateTimeText
    simp
  have clock : millisOfDay / 3600000 * 3600000 + millisOfDay / 60000 % 60 * 60000 + millisOfDay / 1000 % 60 * 1000 +
      millisOfDay % 1000 = millisOfDay := by omega
  have numbers : readNumbers ['-', '-', 'T', ':', ':', '.', 'Z'] (dateTimeText date millisOfDay).toList =
      some [date.year, date.month, date.day, millisOfDay / 3600000, millisOfDay / 60000 % 60, millisOfDay / 1000 % 60,
        millisOfDay % 1000] := by
    rw [text, read_numbers_padded '-' rfl, read_numbers_padded '-' rfl, read_numbers_padded 'T' rfl,
      read_numbers_padded ':' rfl, read_numbers_padded ':' rfl, read_numbers_padded '.' rfl, read_numbers_padded 'Z' rfl]
    rfl
  rw [readDate, numbers]
  dsimp only
  rw [date_of_fields, Option.map_some, clock]

theorem read_date (epochMillis : Nat) : readDate (formatIso8601Utc epochMillis) = some epochMillis := by
  rw [mpd_date_time_eq, read_date_time, Calendar.days_from_civil_date, Int.toNat_natCast]
  congr 1
  omega

theorem read_depth (secs : Nat) : readDepth ("PT" ++ toString secs ++ ".000S") = some secs := by
  rw [readDepth, String.toList_append, String.toList_append, List.append_assoc, Text.strip_prefix_append, Option.bind_eq_bind,
    Option.bind_some, Text.strip_suffix_append, Option.bind_some, Text.unsigned_value_nat]

end Dates

section RoundTrips

theorem template_read (template : SegmentTemplate) (children : Content) :
    SegmentTemplate.ofElement ⟨"SegmentTemplate", present template.fields, children⟩ = some template := by
  have distinct : (template.fields.map Prod.fst).Nodup :=
    (by decide : ["initialization", "media", "startNumber", "duration", "timescale"].Nodup)
  have attrs := attr_present "SegmentTemplate" template.fields children distinct
  have numbers := number_present "SegmentTemplate" template.fields children distinct
  rw [SegmentTemplate.ofElement, attrs "initialization" (some template.initialization) (by simp [SegmentTemplate.fields]),
    attrs "media" (some template.media) (by simp [SegmentTemplate.fields]),
    numbers "startNumber" template.startNumber (by simp [SegmentTemplate.fields]),
    numbers "duration" template.duration (by simp [SegmentTemplate.fields]),
    numbers "timescale" template.timescale (by simp [SegmentTemplate.fields])]
  rfl

theorem representation_read (indent : Nat) (representation : Representation) :
    Representation.ofElement (representation.element indent) = some representation := by
  have distinct : (representation.fields.map Prod.fst).Nodup :=
    (by decide : ["id", "codecs", "bandwidth", "width", "height", "audioSamplingRate"].Nodup)
  have attrs := attr_present "Representation" representation.fields (block indent fun rest => rest) distinct
  have numbers := number_present "Representation" representation.fields (block indent fun rest => rest) distinct
  have optionals (field : String) (value : Option Nat) :=
    optional_present "Representation" representation.fields (block indent fun rest => rest) distinct field readNumber
      toString Text.unsigned_value_nat value
  rw [Representation.element, Representation.ofElement,
    attrs "id" (some representation.id) (by simp [Representation.fields]),
    attrs "codecs" (some representation.codecs) (by simp [Representation.fields]),
    numbers "bandwidth" representation.bandwidthBps (by simp [Representation.fields]),
    optionals "width" representation.width (by simp [Representation.fields]),
    optionals "height" representation.height (by simp [Representation.fields]),
    optionals "audioSamplingRate" representation.audioSamplingRate (by simp [Representation.fields])]
  rfl

theorem set_read (indent : Nat) (set : AdaptationSet) : AdaptationSet.ofElement (set.element indent) = some set := by
  have distinct : (set.fields.map Prod.fst).Nodup :=
    (by decide : ["id", "mimeType", "contentType", "segmentAlignment", "lang"].Nodup)
  have attrs := attr_present "AdaptationSet" set.fields (set.element indent).children distinct
  have numbers := number_present "AdaptationSet" set.fields (set.element indent).children distinct
  have elements : (set.element indent).children.elements =
      ⟨"SegmentTemplate", present set.segmentTemplate.fields, .empty⟩ ::
        set.representations.map (Representation.element (indent + 1)) := by
    rw [AdaptationSet.element, elements_block, SegmentTemplate.nodes, line, Xml.elements_prepend, Content.elements,
      Xml.elements_prepend, elements_lines, Xml.elements_prepend, Content.elements, List.append_nil]
  have template : childrenNamed (set.element indent) "SegmentTemplate" =
      [⟨"SegmentTemplate", present set.segmentTemplate.fields, .empty⟩] := by
    rw [childrenNamed, elements, List.filter_cons_of_pos (by simp),
      filter_other _ _ "Representation" _ (fun _ => rfl) (by decide)]
  have representations : childrenNamed (set.element indent) "Representation" =
      set.representations.map (Representation.element (indent + 1)) := by
    rw [childrenNamed, elements, List.filter_cons_of_neg (by simp), filter_named _ _ "Representation" fun _ => rfl]
  have parts : set.element indent = ⟨"AdaptationSet", present set.fields, (set.element indent).children⟩ := rfl
  rw [AdaptationSet.ofElement, template, representations,
    read_each _ _ _ (representation_read (indent + 1)), parts,
    numbers "id" set.id (by simp [AdaptationSet.fields]),
    attrs "mimeType" (some set.mimeType) (by simp [AdaptationSet.fields]),
    attrs "contentType" (some set.contentType) (by simp [AdaptationSet.fields]),
    attrs "lang" set.lang (by simp [AdaptationSet.fields])]
  simp only [only, Option.bind_eq_bind, Option.bind_some, template_read]
  rfl

theorem event_read (indent : Nat) (event : DashEvent) : DashEvent.ofElement (event.element indent) = some event := by
  have distinct : (event.fields.map Prod.fst).Nodup :=
    (by decide : ["presentationTime", "duration", "id"].Nodup)
  have numbers := number_present "Event" event.fields (event.element indent).children distinct
  have duration := optional_present "Event" event.fields (event.element indent).children distinct "duration" readNumber
    toString Text.unsigned_value_nat event.duration (by simp [DashEvent.fields])
  have signal : childrenNamed (event.element indent) "Signal" = [event.signal (indent + 1)] := by
    rw [childrenNamed, DashEvent.element, elements_block, elements_line, Xml.elements_prepend, Content.elements]
    rfl
  have binary : childrenNamed (event.signal (indent + 1)) "Binary" = [event.binary] := by
    rw [childrenNamed, DashEvent.signal, elements_block, Xml.elements_prepend, Xml.elements_prepend, node,
      Content.elements, Xml.elements_prepend, Xml.elements_prepend, Content.elements]
    rfl
  have characters : event.binary.children.characters = event.binaryBase64 := by
    rw [DashEvent.binary, Xml.characters_prepend, Content.characters, String.append_empty]
  have parts : event.element indent = ⟨"Event", present event.fields, (event.element indent).children⟩ := rfl
  rw [DashEvent.ofElement, signal, parts, numbers "id" event.id (by simp [DashEvent.fields]),
    numbers "presentationTime" event.presentationTime (by simp [DashEvent.fields]), duration]
  simp only [only, Option.bind_eq_bind, Option.bind_some, binary, characters]
  rfl

theorem event_stream_read (indent : Nat) (stream : EventStream) :
    EventStream.ofElement (stream.element indent) = some stream := by
  have distinct : (stream.fields.map Prod.fst).Nodup := (by decide : ["schemeIdUri", "timescale", "value"].Nodup)
  have attrs := attr_present "EventStream" stream.fields (stream.element indent).children distinct
  have numbers := number_present "EventStream" stream.fields (stream.element indent).children distinct
  have events : childrenNamed (stream.element indent) "Event" = stream.events.map (DashEvent.element (indent + 1)) := by
    rw [childrenNamed, EventStream.element, elements_block, elements_lines, Xml.elements_prepend, Content.elements,
      List.append_nil, filter_named _ _ "Event" fun _ => rfl]
  have parts : stream.element indent = ⟨"EventStream", present stream.fields, (stream.element indent).children⟩ := rfl
  rw [EventStream.ofElement, events, read_each _ _ _ (event_read (indent + 1)), parts,
    attrs "schemeIdUri" (some stream.schemeIdUri) (by simp [EventStream.fields]),
    numbers "timescale" stream.timescale (by simp [EventStream.fields]),
    attrs "value" stream.value (by simp [EventStream.fields])]
  rfl

theorem period_read (indent : Nat) (period : Period) : Period.ofElement (period.element indent) = some period := by
  have distinct : (period.fields.map Prod.fst).Nodup := (by decide : ["id", "start"].Nodup)
  have attrs := attr_present "Period" period.fields (period.element indent).children distinct
  have elements : (period.element indent).children.elements =
      period.eventStreams.map (EventStream.element (indent + 1)) ++
        period.adaptationSets.map (AdaptationSet.element (indent + 1)) := by
    rw [Period.element, elements_block, elements_lines, elements_lines, Xml.elements_prepend, Content.elements,
      List.append_nil]
  have streams : childrenNamed (period.element indent) "EventStream" =
      period.eventStreams.map (EventStream.element (indent + 1)) := by
    rw [childrenNamed, elements, List.filter_append, filter_named _ _ "EventStream" fun _ => rfl,
      filter_other _ _ "AdaptationSet" _ (fun _ => rfl) (by decide), List.append_nil]
  have sets : childrenNamed (period.element indent) "AdaptationSet" =
      period.adaptationSets.map (AdaptationSet.element (indent + 1)) := by
    rw [childrenNamed, elements, List.filter_append, filter_other _ _ "EventStream" _ (fun _ => rfl) (by decide),
      List.nil_append, filter_named _ _ "AdaptationSet" fun _ => rfl]
  have parts : period.element indent = ⟨"Period", present period.fields, (period.element indent).children⟩ := rfl
  rw [Period.ofElement, streams, sets, read_each _ _ _ (event_stream_read (indent + 1)),
    read_each _ _ _ (set_read (indent + 1)), parts, attrs "id" (some period.id) (by simp [Period.fields]),
    attrs "start" (some period.start) (by simp [Period.fields])]
  rfl

theorem read_type (kind : MpdType) : readType kind.asStr = some kind := by
  cases kind
  · decide
  · decide

theorem timing_read (value : Nat) :
    readTiming [⟨"UTCTiming", present (utcTimingFields value), .empty⟩] = some (some value) := by
  have found := attr_present "UTCTiming" (utcTimingFields value) .empty
    (by decide : ["schemeIdUri", "value"].Nodup) "value" (some (formatIso8601Utc value)) (by simp [utcTimingFields])
  rw [readTiming, found, Option.bind_some, read_date, Option.map_some]

theorem document_elements (mpd : Mpd) : mpd.document.children.elements = mpd.periods.map (Period.element 1) ++
    (mpd.utcTimingValueMillis.map fun value =>
      (⟨"UTCTiming", present (utcTimingFields value), .empty⟩ : Element)).toList := by
  rw [Mpd.document, elements_block, elements_lines]
  cases mpd.utcTimingValueMillis with
  | none =>
      show mpd.periods.map (Period.element 1) ++ (Content.empty.prepend (pad 0)).elements = _
      rw [Xml.elements_prepend]
      rfl
  | some value =>
      show mpd.periods.map (Period.element 1) ++
        (line 1 (.single "UTCTiming" (present (utcTimingFields value))) (Content.empty.prepend (pad 0))).elements = _
      rw [line, Xml.elements_prepend, Content.elements, Xml.elements_prepend, Xml.elements_prepend]
      rfl

theorem mpd_read (mpd : Mpd) : Mpd.ofElement mpd.document = some mpd := by
  have distinct : (mpd.fields.map Prod.fst).Nodup :=
    (by decide : ["xmlns", "type", "profiles", "minBufferTime", "minimumUpdatePeriod", "availabilityStartTime",
      "publishTime", "timeShiftBufferDepth"].Nodup)
  have attrs := attr_present "MPD" mpd.fields mpd.document.children distinct
  have dates (field : String) := optional_present "MPD" mpd.fields mpd.document.children distinct field readDate
    formatIso8601Utc read_date
  have depth := optional_present "MPD" mpd.fields mpd.document.children distinct "timeShiftBufferDepth" readDepth
    (fun s => "PT" ++ toString s ++ ".000S") read_depth mpd.timeShiftBufferDepthSecs (by simp [Mpd.fields])
  have updates : (if mpd.minimumUpdatePeriod.isEmpty then none else some mpd.minimumUpdatePeriod).getD "" =
      mpd.minimumUpdatePeriod := by
    split
    · rename_i empty
      exact (String.isEmpty_iff.mp empty).symm
    · rfl
  have timing : readTiming (childrenNamed mpd.document "UTCTiming") = some mpd.utcTimingValueMillis := by
    rw [childrenNamed, document_elements, List.filter_append,
      filter_other _ _ "Period" _ (fun _ => rfl) (by decide), List.nil_append]
    cases mpd.utcTimingValueMillis with
    | none => rfl
    | some value => exact timing_read value
  have periods : childrenNamed mpd.document "Period" = mpd.periods.map (Period.element 1) := by
    rw [childrenNamed, document_elements, List.filter_append, filter_named _ _ "Period" fun _ => rfl]
    cases mpd.utcTimingValueMillis with
    | none => exact List.append_nil _
    | some value => exact List.append_nil _
  have parts : mpd.document = ⟨"MPD", present mpd.fields, mpd.document.children⟩ := rfl
  rw [Mpd.ofElement, timing, periods, read_each _ _ _ (period_read 1), parts,
    attrs "type" (some mpd.mpdType.asStr) (by simp [Mpd.fields]),
    attrs "profiles" (some mpd.profiles) (by simp [Mpd.fields]),
    attrs "minBufferTime" (some mpd.minBufferTime) (by simp [Mpd.fields]),
    attrs "minimumUpdatePeriod" (if mpd.minimumUpdatePeriod.isEmpty then none else some mpd.minimumUpdatePeriod)
      (by simp [Mpd.fields]), updates,
    dates "availabilityStartTime" mpd.availabilityStartTimeMillis (by simp [Mpd.fields]),
    dates "publishTime" mpd.publishTimeMillis (by simp [Mpd.fields]), depth, Option.bind_some, read_type]
  rfl

-- The text of an MPD is well-formed and is read as the document of the MPD, in which a
-- client finds the fields of the MPD again.
theorem render_reads_back (mpd : Mpd) (text : String) (legal : ∀ string ∈ mpd.strings, ValueText string)
    (rendered : mpd.render = .ok text) :
    Xml.parse text.toList = some mpd.document ∧ Mpd.ofElement mpd.document = some mpd :=
  ⟨parse_rendered mpd legal text rendered, mpd_read mpd⟩

def hostileMpd : Mpd where
  mpdType := .dynamic
  profiles := "\" onload=\"x"
  minBufferTime := "PT2.0S\"><Period>"
  minimumUpdatePeriod := ""
  availabilityStartTimeMillis := some 1777983296789
  publishTimeMillis := none
  timeShiftBufferDepthSecs := some 60
  utcTimingValueMillis := some 1777983296789
  periods :=
    [{ id := "&amp;"
       start := "'</Period>'"
       eventStreams := [⟨SCTE35_SCHEME_ID, some "</EventStream>", 90000, [⟨7, 100, none, "</Binary>]]>&#10;"⟩]⟩]
       adaptationSets :=
        [{ id := 0
           mimeType := "video/mp4"
           contentType := "video"
           lang := some "<!--"
           representations := [⟨"video", "\"/><injection\"", 2500000, some 1280, none, none⟩]
           segmentTemplate := ⟨"init?a=1&b=2", "seg-$Number$.m4s", 1, 180000, 90000⟩ }] }]

theorem hostile_strings_read_back : ∃ text, hostileMpd.render = .ok text ∧
    Xml.parse text.toList = some hostileMpd.document ∧ Mpd.ofElement hostileMpd.document = some hostileMpd :=
  ⟨_, rfl, render_reads_back hostileMpd _ (by decide) rfl⟩

end RoundTrips

end Lvqr.Dash
