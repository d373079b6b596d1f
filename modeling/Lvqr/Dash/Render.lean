import Mathlib.Data.List.Forall2
import Lvqr.Dash.Dates
import Lvqr.Dash.Server
import Lvqr.Lib.Xml

set_option autoImplicit false

-- The MPD as text, and the document that the text is of.
namespace Lvqr.Dash

def esc (s : String) : String :=
  if s.toList.any fun c => c = '<' || c = '>' || c = '&' || c = '"' || c = '\'' then
    String.ofList (s.toList.flatMap fun c =>
      match c with
      | '<' => "&lt;".toList
      | '>' => "&gt;".toList
      | '&' => "&amp;".toList
      | '"' => "&quot;".toList
      | '\'' => "&apos;".toList
      | _ => [c])
  else s

inductive DashError where
  | emptyPeriod
  | emptyAdaptationSet
deriving DecidableEq, Repr

def pad (indent : Nat) : String := String.join (List.replicate indent "  ")

-- The pieces of the format strings: an attribute and the three kinds of tags.
def attr (name value : String) : String := " " ++ name ++ "=\"" ++ value ++ "\""

def openTag (name attrs : String) : String := "<" ++ name ++ attrs ++ ">"

def closeTag (name : String) : String := "</" ++ name ++ ">"

def emptyTag (name attrs : String) : String := "<" ++ name ++ attrs ++ "/>"

def MpdType.asStr : MpdType → String
  | .dynamic => "dynamic"
  | .static => "static"

def SegmentTemplate.write (template : SegmentTemplate) (indent : Nat) : String :=
  pad indent ++
    emptyTag "SegmentTemplate"
      (attr "initialization" (esc template.initialization) ++ attr "media" (esc template.media) ++
        attr "startNumber" (toString template.startNumber) ++ attr "duration" (toString template.duration) ++
        attr "timescale" (toString template.timescale)) ++
    "\n"

namespace Representation

def write (representation : Representation) (indent : Nat) : String :=
  pad indent ++
    openTag "Representation"
      (attr "id" (esc representation.id) ++ attr "codecs" (esc representation.codecs) ++
        attr "bandwidth" (toString representation.bandwidthBps) ++
        (representation.width.elim "" fun w => attr "width" (toString w)) ++
        (representation.height.elim "" fun h => attr "height" (toString h)) ++
        (representation.audioSamplingRate.elim "" fun sr => attr "audioSamplingRate" (toString sr))) ++
    "\n"

def writeClose (indent : Nat) : String := pad indent ++ closeTag "Representation" ++ "\n"

end Representation

def AdaptationSet.write (set : AdaptationSet) (indent : Nat) : Except DashError String :=
  if set.representations.isEmpty then .error .emptyAdaptationSet
  else
    .ok (pad indent ++
      openTag "AdaptationSet"
        (attr "id" (toString set.id) ++ attr "mimeType" (esc set.mimeType) ++ attr "contentType" (esc set.contentType) ++
          attr "segmentAlignment" "true" ++ (set.lang.elim "" fun lang => attr "lang" (esc lang))) ++
      "\n" ++ set.segmentTemplate.write (indent + 1) ++
      String.join (set.representations.map fun rep => rep.write (indent + 1) ++ Representation.writeClose (indent + 1)) ++
      pad indent ++ closeTag "AdaptationSet" ++ "\n")

def SCTE35_SIGNAL_NS : String := "http://www.scte.org/schemas/35/2016"

def DashEvent.write (event : DashEvent) (indent : Nat) : String :=
  pad indent ++
    openTag "Event"
      (attr "presentationTime" (toString event.presentationTime) ++
        (event.duration.elim "" fun d => attr "duration" (toString d)) ++ attr "id" (toString event.id)) ++
    "\n" ++
    pad (indent + 1) ++ openTag "Signal" (attr "xmlns" SCTE35_SIGNAL_NS) ++ "\n" ++
    pad (indent + 1) ++ "  " ++ openTag "Binary" "" ++ esc event.binaryBase64 ++ closeTag "Binary" ++ "\n" ++
    pad (indent + 1) ++ closeTag "Signal" ++ "\n" ++
    pad indent ++ closeTag "Event" ++ "\n"

def EventStream.write (stream : EventStream) (indent : Nat) : String :=
  pad indent ++
    openTag "EventStream"
      (attr "schemeIdUri" (esc stream.schemeIdUri) ++ attr "timescale" (toString stream.timescale) ++
        (stream.value.elim "" fun v => attr "value" (esc v))) ++
    "\n" ++ String.join (stream.events.map fun event => event.write (indent + 1)) ++
    pad indent ++ closeTag "EventStream" ++ "\n"

def Period.write (period : Period) (indent : Nat) : Except DashError String :=
  if period.adaptationSets.isEmpty then .error .emptyPeriod
  else do
    let sets ← period.adaptationSets.mapM fun set => set.write (indent + 1)
    return pad indent ++
      openTag "Period" (attr "id" (esc period.id) ++ attr "start" (esc period.start)) ++
      "\n" ++ String.join (period.eventStreams.map fun es => es.write (indent + 1)) ++ String.join sets ++
      pad indent ++ closeTag "Period" ++ "\n"

namespace Mpd

def openAttrs (mpd : Mpd) : String :=
  attr "xmlns" "urn:mpeg:dash:schema:mpd:2011" ++ attr "type" mpd.mpdType.asStr ++ attr "profiles" (esc mpd.profiles) ++
    attr "minBufferTime" (esc mpd.minBufferTime) ++
    (if mpd.minimumUpdatePeriod.isEmpty then "" else attr "minimumUpdatePeriod" (esc mpd.minimumUpdatePeriod)) ++
    (mpd.availabilityStartTimeMillis.elim "" fun m => attr "availabilityStartTime" (formatIso8601Utc m)) ++
    (mpd.publishTimeMillis.elim "" fun m => attr "publishTime" (formatIso8601Utc m)) ++
    (mpd.timeShiftBufferDepthSecs.elim "" fun s => attr "timeShiftBufferDepth" ("PT" ++ toString s ++ ".000S"))

def render (mpd : Mpd) : Except DashError String :=
  if mpd.periods.isEmpty then .error .emptyPeriod
  else do
    let periods ← mpd.periods.mapM fun period => period.write 1
    return "<?xml version=\"1.0\" encoding=\"UTF-8\"?>\n" ++ openTag "MPD" mpd.openAttrs ++ "\n" ++ String.join periods ++
      (mpd.utcTimingValueMillis.elim "" fun value =>
        "  " ++
          emptyTag "UTCTiming"
            (attr "schemeIdUri" "urn:mpeg:dash:utc:direct:2014" ++ attr "value" (formatIso8601Utc value)) ++
          "\n") ++
      closeTag "MPD" ++ "\n"

end Mpd

section Document

open Xml (Content Element present)

-- Nodes on a line of their own.
def line (indent : Nat) (node : Content → Content) (rest : Content) : Content :=
  (node (rest.prepend "\n")).prepend (pad indent)

-- Children on lines of their own, and the closing tag on the next.
def block (indent : Nat) (children : Content → Content) : Content :=
  (children (Content.empty.prepend (pad indent))).prepend "\n"

def node (element : Element) : Content → Content := .element element.name element.attributes element.children

def SegmentTemplate.fields (template : SegmentTemplate) : List (String × Option String) :=
  [("initialization", some template.initialization), ("media", some template.media),
    ("startNumber", some (toString template.startNumber)), ("duration", some (toString template.duration)),
    ("timescale", some (toString template.timescale))]

def SegmentTemplate.nodes (template : SegmentTemplate) (indent : Nat) : Content → Content :=
  line indent (.single "SegmentTemplate" (present template.fields))

def Representation.fields (representation : Representation) : List (String × Option String) :=
  [("id", some representation.id), ("codecs", some representation.codecs),
    ("bandwidth", some (toString representation.bandwidthBps)), ("width", representation.width.map toString),
    ("height", representation.height.map toString), ("audioSamplingRate", representation.audioSamplingRate.map toString)]

def Representation.element (indent : Nat) (representation : Representation) : Element :=
  ⟨"Representation", present representation.fields, block indent fun rest => rest⟩

def AdaptationSet.fields (set : AdaptationSet) : List (String × Option String) :=
  [("id", some (toString set.id)), ("mimeType", some set.mimeType), ("contentType", some set.contentType),
    ("segmentAlignment", some "true"), ("lang", set.lang)]

def AdaptationSet.element (indent : Nat) (set : AdaptationSet) : Element :=
  ⟨"AdaptationSet", present set.fields, block indent fun rest =>
    set.segmentTemplate.nodes (indent + 1)
      (set.representations.foldr (fun rep => line (indent + 1) (node (rep.element (indent + 1)))) rest)⟩

def DashEvent.fields (event : DashEvent) : List (String × Option String) :=
  [("presentationTime", some (toString event.presentationTime)), ("duration", event.duration.map toString),
    ("id", some (toString event.id))]

def DashEvent.binary (event : DashEvent) : Element := ⟨"Binary", [], Content.empty.prepend event.binaryBase64⟩

def DashEvent.signal (indent : Nat) (event : DashEvent) : Element :=
  ⟨"Signal", present [("xmlns", some SCTE35_SIGNAL_NS)], block indent fun rest =>
    ((node event.binary (rest.prepend "\n")).prepend "  ").prepend (pad indent)⟩

def DashEvent.element (indent : Nat) (event : DashEvent) : Element :=
  ⟨"Event", present event.fields, block indent (line (indent + 1) (node (event.signal (indent + 1))))⟩

def EventStream.fields (stream : EventStream) : List (String × Option String) :=
  [("schemeIdUri", some stream.schemeIdUri), ("timescale", some (toString stream.timescale)), ("value", stream.value)]

def EventStream.element (indent : Nat) (stream : EventStream) : Element :=
  ⟨"EventStream", present stream.fields, block indent fun rest =>
    stream.events.foldr (fun event => line (indent + 1) (node (event.element (indent + 1)))) rest⟩

def Period.fields (period : Period) : List (String × Option String) :=
  [("id", some period.id), ("start", some period.start)]

def Period.element (indent : Nat) (period : Period) : Element :=
  ⟨"Period", present period.fields, block indent fun rest =>
    period.eventStreams.foldr (fun es => line (indent + 1) (node (es.element (indent + 1))))
      (period.adaptationSets.foldr (fun set => line (indent + 1) (node (set.element (indent + 1)))) rest)⟩

def Mpd.fields (mpd : Mpd) : List (String × Option String) :=
  [("xmlns", some "urn:mpeg:dash:schema:mpd:2011"), ("type", some mpd.mpdType.asStr), ("profiles", some mpd.profiles),
    ("minBufferTime", some mpd.minBufferTime),
    ("minimumUpdatePeriod", if mpd.minimumUpdatePeriod.isEmpty then none else some mpd.minimumUpdatePeriod),
    ("availabilityStartTime", mpd.availabilityStartTimeMillis.map formatIso8601Utc),
    ("publishTime", mpd.publishTimeMillis.map formatIso8601Utc),
    ("timeShiftBufferDepth", mpd.timeShiftBufferDepthSecs.map fun s => "PT" ++ toString s ++ ".000S")]

def utcTimingFields (value : Nat) : List (String × Option String) :=
  [("schemeIdUri", some "urn:mpeg:dash:utc:direct:2014"), ("value", some (formatIso8601Utc value))]

-- The document that an MPD stands for: its elements, on lines and indented.
def Mpd.document (mpd : Mpd) : Element :=
  ⟨"MPD", present mpd.fields, block 0 fun rest =>
    mpd.periods.foldr (fun period => line 1 (node (period.element 1)))
      (mpd.utcTimingValueMillis.elim rest fun value => line 1 (.single "UTCTiming" (present (utcTimingFields value))) rest)⟩

end Document

section Legal

-- The strings that an MPD brings into its text.
def SegmentTemplate.strings (template : SegmentTemplate) : List String := [template.initialization, template.media]

def Representation.strings (representation : Representation) : List String := [representation.id, representation.codecs]

def AdaptationSet.strings (set : AdaptationSet) : List String :=
  set.mimeType :: set.contentType :: (set.lang.toList ++ set.segmentTemplate.strings ++
    set.representations.flatMap Representation.strings)

def EventStream.strings (stream : EventStream) : List String :=
  stream.schemeIdUri :: (stream.value.toList ++ stream.events.map DashEvent.binaryBase64)

def Period.strings (period : Period) : List String :=
  period.id :: period.start :: (period.eventStreams.flatMap EventStream.strings ++
    period.adaptationSets.flatMap AdaptationSet.strings)

def Mpd.strings (mpd : Mpd) : List String :=
  mpd.profiles :: mpd.minBufferTime :: mpd.minimumUpdatePeriod :: mpd.periods.flatMap Period.strings

-- Characters that XML allows, and neither tabs nor line ends.
def ValueText (text : String) : Prop := text.toList.all Xml.isValueChar = true

instance (text : String) : Decidable (ValueText text) := inferInstanceAs (Decidable (_ = true))

def Plain (text : String) : Prop := text.toList.all Xml.isPlainChar = true

instance (text : String) : Decidable (Plain text) := inferInstanceAs (Decidable (_ = true))

theorem Plain.value {text : String} (plain : Plain text) : ValueText text := by
  rw [Plain, List.all_eq_true] at plain
  rw [ValueText, List.all_eq_true]
  exact fun char member => (Xml.plain_char char (plain char member)).1

theorem plain_append (first second : String) : Plain (first ++ second) ↔ Plain first ∧ Plain second := by
  rw [Plain, String.toList_append, List.all_append, Bool.and_eq_true]
  rfl

theorem plain_digits (text : String) (digits : ∀ char ∈ text.toList, char.isDigit = true) : Plain text := by
  rw [Plain, List.all_eq_true]
  exact fun char member => Xml.digit_plain char (digits char member)

theorem plain_nat (number : Nat) : Plain (toString number) := by
  refine plain_digits _ fun char member => ?_
  rw [Nat.toString_eq_repr, Nat.toList_repr] at member
  exact Nat.isDigit_of_mem_toDigits (by decide) (by decide) member

theorem plain_pad_left (width number : Nat) : Plain (Decimal.padLeft width number) :=
  plain_digits _ (Decimal.pad_left_digits width number)

theorem plain_date (epochMillis : Nat) : Plain (formatIso8601Utc epochMillis) := by
  unfold formatIso8601Utc
  simp only [plain_append, plain_pad_left, true_and, and_true]
  decide

theorem plain_depth (secs : Nat) : Plain ("PT" ++ toString secs ++ ".000S") := by
  simp only [plain_append, plain_nat, and_true]
  decide

theorem plain_pad (indent : Nat) : Plain (pad indent) := by
  induction indent with
  | zero => decide
  | succ indent ih =>
      rw [pad, List.replicate_succ, String.join_cons, plain_append]
      exact ⟨by decide, ih⟩

end Legal

section Pieces

theorem esc_chars (s : String) : (esc s).toList = Xml.escape s.toList := by
  unfold esc
  split
  · rw [String.toList_ofList, Xml.escape]
    refine List.flatMap_congr fun c _ => ?_
    split
    · rfl
    · rfl
    · rfl
    · rfl
    · rfl
    · rename_i less greater ampersand quote apostrophe
      rw [Xml.escapeChar, if_neg less, if_neg greater, if_neg ampersand, if_neg quote, if_neg apostrophe]
  · rename_i plain
    refine (Xml.escape_same s.toList fun c member => ?_).symm
    have ordinary := List.any_eq_false.mp (Bool.eq_false_of_not_eq_true plain) c member
    simp only [Bool.or_eq_true, decide_eq_true_eq, not_or] at ordinary
    simp [Xml.escapeChar, ordinary]

theorem plain_chars (text : String) (plain : Plain text) : text.toList = Xml.escape text.toList :=
  (Xml.escape_plain text.toList plain).symm

theorem attr_chars (name value text : String) (written : text.toList = Xml.escape value.toList) :
    (attr name text).toList = Xml.writeField (name, some value) := by
  simp [attr, Xml.writeField, Xml.writeAttribute, written]

theorem attr_esc (name value : String) : (attr name (esc value)).toList = Xml.writeField (name, some value) :=
  attr_chars name value _ (esc_chars value)

theorem attr_plain (name value : String) (plain : Plain value) :
    (attr name value).toList = Xml.writeField (name, some value) :=
  attr_chars name value value (plain_chars value plain)

theorem attr_nat (name : String) (number : Nat) :
    (attr name (toString number)).toList = Xml.writeField (name, some (toString number)) :=
  attr_plain name _ (plain_nat number)

theorem attr_option {Value : Type} (name : String) (value : Option Value) (text string : Value → String)
    (written : ∀ value, (attr name (text value)).toList = Xml.writeField (name, some (string value))) :
    (value.elim "" fun value => attr name (text value)).toList = Xml.writeField (name, value.map string) := by
  cases value with
  | none => rfl
  | some value => exact written value

theorem open_tag_chars (name attrs : String) :
    (openTag name attrs).toList = '<' :: (name.toList ++ (attrs.toList ++ ['>'])) := by
  simp [openTag]

theorem close_tag_chars (name : String) : (closeTag name).toList = '<' :: '/' :: (name.toList ++ ['>']) := by
  simp [closeTag]

theorem empty_tag_chars (name attrs : String) :
    (emptyTag name attrs).toList = '<' :: (name.toList ++ (attrs.toList ++ ['/', '>'])) := by
  simp [emptyTag]

end Pieces

section Writing

open Xml (Content Written present)

theorem written_append {first second : String} {left right : Content → Content} (isFirst : Written first.toList left)
    (isSecond : Written second.toList right) : Written (first ++ second).toList fun rest => left (right rest) := by
  rw [String.toList_append]
  exact isFirst.append isSecond

theorem value_text (text : String) (value : ValueText text) : text.toList.all Xml.isTextChar = true := by
  rw [List.all_eq_true]
  exact fun char member => (Xml.value_char char (List.all_eq_true.mp value char member)).1

theorem written_pad (indent : Nat) : Written (pad indent).toList (Content.prepend (pad indent)) := by
  rw [plain_chars _ (plain_pad indent)]
  exact .text _ (value_text _ (plain_pad indent).value)

theorem written_feed : Written "\n".toList (Content.prepend "\n") := .text "\n" (by decide)

theorem written_esc (text : String) (value : ValueText text) : Written (esc text).toList (Content.prepend text) := by
  rw [esc_chars]
  exact .text text (value_text text value)

variable (indent : Nat) (name attrs : String) (fields : List (String × Option String))
  (isAttrs : attrs.toList = fields.flatMap Xml.writeField) (named : Xml.isName name.toList = true)
  (legal : Xml.Legal fields)

include isAttrs named legal

theorem written_empty : Written (emptyTag name attrs).toList (.single name (present fields)) := by
  rw [empty_tag_chars, isAttrs]
  exact .single name fields named legal

theorem written_element {inner : String} {children : Content → Content} (inside : Written inner.toList children) :
    Written (openTag name attrs ++ inner ++ closeTag name).toList (.element name (present fields) (children .empty)) := by
  have written := Written.element name fields named legal inside
  have shape : (openTag name attrs ++ inner ++ closeTag name).toList =
      '<' :: (name.toList ++ (fields.flatMap Xml.writeField ++
        '>' :: (inner.toList ++ '<' :: '/' :: (name.toList ++ ['>'])))) := by
    simp [open_tag_chars, close_tag_chars, isAttrs]
  rw [shape]
  exact written

-- An element whose children stand on lines of their own.
theorem written_block {inner : String} {children : Content → Content} (inside : Written inner.toList children)
    (text : String)
    (shape : text = pad indent ++ (openTag name attrs ++ ("\n" ++ (inner ++ pad indent)) ++ closeTag name ++ "\n")) :
    Written text.toList (line indent (.element name (present fields) (block indent children))) := by
  have children := written_append written_feed (written_append inside (written_pad indent))
  have element := written_element name attrs fields isAttrs named legal children
  have written := written_append (written_pad indent) (written_append element written_feed)
  rw [shape]
  exact written

theorem document_read {inner : String} {children : Content → Content} (inside : Written inner.toList children)
    (text : String)
    (shape : text = "<?xml version=\"1.0\" encoding=\"UTF-8\"?>\n" ++
      (openTag name attrs ++ ("\n" ++ (inner ++ pad 0)) ++ closeTag name ++ "\n")) :
    Xml.parse text.toList = some ⟨name, present fields, block 0 children⟩ := by
  have body := written_append written_feed (written_append inside (written_pad 0))
  have element := written_element name attrs fields isAttrs named legal body
  have whole := written_append element written_feed
  have feed : Content.empty.prepend "\n" = .text "\n" .empty := rfl
  have writes := whole.writes .empty
  have canonical := whole.canonical .empty trivial
  rw [feed] at writes canonical
  have read := Xml.parse_written _ _ _ canonical
  rw [writes] at read
  have declared : ("<?xml version=\"1.0\" encoding=\"UTF-8\"?>\n").toList = Xml.DECLARATION ++ ['\n'] := by decide
  rw [shape, String.toList_append, declared, List.append_assoc, List.singleton_append]
  rw [Content.write, List.append_nil] at read
  exact read

end Writing

section Elements

open Xml (Content Written present)

theorem template_written (template : SegmentTemplate) (indent : Nat)
    (legal : ∀ text ∈ template.strings, ValueText text) :
    Written (template.write indent).toList (template.nodes indent) := by
  have attrs : (attr "initialization" (esc template.initialization) ++ attr "media" (esc template.media) ++
      attr "startNumber" (toString template.startNumber) ++ attr "duration" (toString template.duration) ++
      attr "timescale" (toString template.timescale)).toList = template.fields.flatMap Xml.writeField := by
    simp only [SegmentTemplate.fields, String.toList_append, List.flatMap_cons, List.flatMap_nil, List.append_nil,
      List.append_assoc, attr_esc, attr_nat]
  have fields : Xml.Legal template.fields := by
    refine Xml.legal_names ["initialization", "media", "startNumber", "duration", "timescale"] _ rfl (by decide)
      (by decide) ?_
    simp only [SegmentTemplate.strings, SegmentTemplate.fields, List.forall_mem_cons, Option.mem_some_iff,
      forall_eq'] at legal ⊢
    exact ⟨legal.1, legal.2.1, (plain_nat _).value, (plain_nat _).value, (plain_nat _).value, List.forall_mem_nil _⟩
  have tag := written_empty "SegmentTemplate" _ _ attrs (by decide) fields
  have written := written_append (written_append (written_pad indent) tag) written_feed
  exact written

theorem representation_written (representation : Representation) (indent : Nat)
    (legal : ∀ text ∈ representation.strings, ValueText text) :
    Written (representation.write indent ++ Representation.writeClose indent).toList
      (line indent (node (representation.element indent))) := by
  have attrs : (attr "id" (esc representation.id) ++ attr "codecs" (esc representation.codecs) ++
      attr "bandwidth" (toString representation.bandwidthBps) ++
      (representation.width.elim "" fun w => attr "width" (toString w)) ++
      (representation.height.elim "" fun h => attr "height" (toString h)) ++
      (representation.audioSamplingRate.elim "" fun sr => attr "audioSamplingRate" (toString sr))).toList =
        representation.fields.flatMap Xml.writeField := by
    simp only [Representation.fields, String.toList_append, List.flatMap_cons, List.flatMap_nil, List.append_nil,
      List.append_assoc, attr_esc, attr_nat, attr_option _ _ _ _ (attr_nat _)]
  have fields : Xml.Legal representation.fields := by
    refine Xml.legal_names ["id", "codecs", "bandwidth", "width", "height", "audioSamplingRate"] _ rfl (by decide)
      (by decide) ?_
    simp only [Representation.strings, Representation.fields, List.forall_mem_cons, Option.mem_some_iff, forall_eq',
      Option.forall_mem_map] at legal ⊢
    exact ⟨legal.1, legal.2.1, (plain_nat _).value, fun w _ => (plain_nat w).value, fun h _ => (plain_nat h).value,
      fun sr _ => (plain_nat sr).value, List.forall_mem_nil _⟩
  have nothing : Written "".toList fun rest => rest := ⟨fun rest => rfl, fun rest kept => kept⟩
  refine written_block indent "Representation" _ _ attrs (by decide) fields nothing _ ?_
  simp only [Representation.write, Representation.writeClose, String.append_assoc, String.empty_append]

theorem written_each {Item : Type} {items : List Item} {texts : List String} {nodes : Item → Content → Content}
    (each : List.Forall₂ (fun item text => Written text.toList (nodes item)) items texts) :
    Written (String.join texts).toList fun rest => items.foldr nodes rest := by
  rw [String.toList_join, List.flatMap_def]
  exact .each (List.forall₂_map_right_iff.mpr each)

theorem written_map {Item : Type} (items : List Item) (text : Item → String) (nodes : Item → Content → Content)
    (each : ∀ item ∈ items, Written (text item).toList (nodes item)) :
    Written (String.join (items.map text)).toList fun rest => items.foldr nodes rest :=
  written_each (List.forall₂_map_right_iff.mpr (List.forall₂_same.mpr each))

-- What holds of each result of a pass that succeeds holds of all of them.
theorem map_m_ok {Error Item Result : Type} (f : Item → Except Error Result) (kind : Item → Result → Prop)
    (items : List Item) (results : List Result) (all : items.mapM f = .ok results)
    (each : ∀ item ∈ items, ∀ result, f item = .ok result → kind item result) :
    List.Forall₂ kind items results := by
  induction items generalizing results with
  | nil =>
      cases all
      exact .nil
  | cons item items ih =>
      obtain ⟨first, others⟩ := List.forall_mem_cons.mp each
      rw [List.mapM_cons] at all
      cases head : f item with
      | error error =>
          rw [head] at all
          cases all
      | ok result =>
          cases tail : items.mapM f with
          | error error =>
              rw [head, tail] at all
              cases all
          | ok rest =>
              rw [head, tail] at all
              cases all
              exact .cons (first result head) (ih rest tail others)

theorem set_written (set : AdaptationSet) (indent : Nat) (legal : ∀ text ∈ set.strings, ValueText text) (text : String)
    (written : set.write indent = .ok text) : Written text.toList (line indent (node (set.element indent))) := by
  rw [AdaptationSet.write] at written
  split at written
  · cases written
  · cases written
    have attrs : (attr "id" (toString set.id) ++ attr "mimeType" (esc set.mimeType) ++
        attr "contentType" (esc set.contentType) ++ attr "segmentAlignment" "true" ++
        (set.lang.elim "" fun lang => attr "lang" (esc lang))).toList = set.fields.flatMap Xml.writeField := by
      simp only [AdaptationSet.fields, String.toList_append, List.flatMap_cons, List.flatMap_nil, List.append_nil,
        List.append_assoc, attr_esc, attr_nat, attr_plain "segmentAlignment" "true" (by decide),
        attr_option _ _ _ _ (attr_esc _), Option.map_id']
    simp only [AdaptationSet.strings, List.forall_mem_cons, List.forall_mem_append, List.forall_mem_flatMap] at legal
    obtain ⟨mimeType, contentType, ⟨lang, template⟩, representations⟩ := legal
    have fields : Xml.Legal set.fields := by
      refine Xml.legal_names ["id", "mimeType", "contentType", "segmentAlignment", "lang"] _ rfl (by decide) (by decide) ?_
      simp only [AdaptationSet.fields, List.forall_mem_cons, Option.mem_some_iff, forall_eq']
      exact ⟨(plain_nat _).value, mimeType, contentType, by decide,
        fun value known => lang value (Option.mem_toList.mpr known), List.forall_mem_nil _⟩
    have inside := written_append (template_written set.segmentTemplate (indent + 1) template)
      (written_map set.representations _ _ fun rep member =>
        representation_written rep (indent + 1) (representations rep member))
    refine written_block indent "AdaptationSet" _ _ attrs (by decide) fields inside _ ?_
    simp only [String.append_assoc]

theorem event_written (event : DashEvent) (indent : Nat) (legal : ValueText event.binaryBase64) :
    Written (event.write indent).toList (line indent (node (event.element indent))) := by
  have attrs : (attr "presentationTime" (toString event.presentationTime) ++
      (event.duration.elim "" fun d => attr "duration" (toString d)) ++ attr "id" (toString event.id)).toList =
        event.fields.flatMap Xml.writeField := by
    simp only [DashEvent.fields, String.toList_append, List.flatMap_cons, List.flatMap_nil, List.append_nil,
      List.append_assoc, attr_nat, attr_option _ _ _ _ (attr_nat _)]
  have fields : Xml.Legal event.fields := by
    refine Xml.legal_names ["presentationTime", "duration", "id"] _ rfl (by decide) (by decide) ?_
    simp only [DashEvent.fields, List.forall_mem_cons, Option.mem_some_iff, forall_eq', Option.forall_mem_map]
    exact ⟨(plain_nat _).value, fun d _ => (plain_nat d).value, (plain_nat _).value, List.forall_mem_nil _⟩
  have xmlns : (attr "xmlns" SCTE35_SIGNAL_NS).toList =
      [("xmlns", some SCTE35_SIGNAL_NS)].flatMap Xml.writeField := by
    rw [attr_plain "xmlns" SCTE35_SIGNAL_NS (by decide), List.flatMap_singleton]
  have signalFields : Xml.Legal [("xmlns", some SCTE35_SIGNAL_NS)] := by
    refine Xml.legal_names ["xmlns"] _ rfl (by decide) (by decide) ?_
    simp only [List.forall_mem_cons, Option.mem_some_iff, forall_eq']
    exact ⟨by decide, List.forall_mem_nil _⟩
  have noFields : Xml.Legal [] := Xml.legal_names [] _ rfl (by decide) (by decide) (List.forall_mem_nil _)
  have binary := written_element "Binary" "" [] rfl (by decide) noFields (written_esc event.binaryBase64 legal)
  have spaces : Written "  ".toList (Content.prepend "  ") := written_pad 1
  have binaryLine := written_append (written_pad (indent + 1)) (written_append spaces (written_append binary written_feed))
  have signal := written_block (indent + 1) "Signal" _ _ xmlns (by decide) signalFields binaryLine _ rfl
  refine written_block indent "Event" _ _ attrs (by decide) fields signal _ ?_
  delta DashEvent.write
  simp only [String.append_assoc]

theorem event_stream_written (stream : EventStream) (indent : Nat) (legal : ∀ text ∈ stream.strings, ValueText text) :
    Written (stream.write indent).toList (line indent (node (stream.element indent))) := by
  have attrs : (attr "schemeIdUri" (esc stream.schemeIdUri) ++ attr "timescale" (toString stream.timescale) ++
      (stream.value.elim "" fun v => attr "value" (esc v))).toList = stream.fields.flatMap Xml.writeField := by
    simp only [EventStream.fields, String.toList_append, List.flatMap_cons, List.flatMap_nil, List.append_nil,
      List.append_assoc, attr_esc, attr_nat, attr_option _ _ _ _ (attr_esc _), Option.map_id']
  simp only [EventStream.strings, List.forall_mem_cons, List.forall_mem_append, List.forall_mem_map] at legal
  obtain ⟨schemeIdUri, value, events⟩ := legal
  have fields : Xml.Legal stream.fields := by
    refine Xml.legal_names ["schemeIdUri", "timescale", "value"] _ rfl (by decide) (by decide) ?_
    simp only [EventStream.fields, List.forall_mem_cons, Option.mem_some_iff, forall_eq']
    exact ⟨schemeIdUri, (plain_nat _).value, fun text known => value text (Option.mem_toList.mpr known),
      List.forall_mem_nil _⟩
  have inside := written_map stream.events _ _ fun event member => event_written event (indent + 1) (events event member)
  refine written_block indent "EventStream" _ _ attrs (by decide) fields inside _ ?_
  simp only [EventStream.write, String.append_assoc]

theorem period_written (period : Period) (indent : Nat) (legal : ∀ text ∈ period.strings, ValueText text) (text : String)
    (written : period.write indent = .ok text) : Written text.toList (line indent (node (period.element indent))) := by
  rw [Period.write] at written
  split at written
  · cases written
  · cases sets : period.adaptationSets.mapM fun set => set.write (indent + 1) with
    | error error =>
        rw [sets] at written
        cases written
    | ok texts =>
        rw [sets] at written
        cases written
        have attrs : (attr "id" (esc period.id) ++ attr "start" (esc period.start)).toList =
            period.fields.flatMap Xml.writeField := by
          simp only [Period.fields, String.toList_append, List.flatMap_cons, List.flatMap_nil, List.append_nil, attr_esc]
        simp only [Period.strings, List.forall_mem_cons, List.forall_mem_append, List.forall_mem_flatMap] at legal
        obtain ⟨id, start, eventStreams, adaptationSets⟩ := legal
        have fields : Xml.Legal period.fields := by
          refine Xml.legal_names ["id", "start"] _ rfl (by decide) (by decide) ?_
          simp only [Period.fields, List.forall_mem_cons, Option.mem_some_iff, forall_eq']
          exact ⟨id, start, List.forall_mem_nil _⟩
        have streams := written_map period.eventStreams _ _ fun stream member =>
          event_stream_written stream (indent + 1) (eventStreams stream member)
        have each := map_m_ok _ _ _ _ sets fun set member =>
          set_written set (indent + 1) (adaptationSets set member)
        have inside := written_append streams (written_each each)
        refine written_block indent "Period" _ _ attrs (by decide) fields inside _ ?_
        simp only [String.append_assoc]

theorem mpd_attrs (mpd : Mpd) : mpd.openAttrs.toList = mpd.fields.flatMap Xml.writeField := by
  have period : (if mpd.minimumUpdatePeriod.isEmpty then "" else
      attr "minimumUpdatePeriod" (esc mpd.minimumUpdatePeriod)).toList = Xml.writeField ("minimumUpdatePeriod",
        if mpd.minimumUpdatePeriod.isEmpty then none else some mpd.minimumUpdatePeriod) := by
    split
    · rfl
    · exact attr_esc _ _
  have kind : (attr "type" mpd.mpdType.asStr).toList = Xml.writeField ("type", some mpd.mpdType.asStr) := by
    refine attr_plain _ _ ?_
    cases mpd.mpdType
    · decide
    · decide
  have date (name : String) (millis : Option Nat) : (millis.elim "" fun m => attr name (formatIso8601Utc m)).toList =
      Xml.writeField (name, millis.map formatIso8601Utc) :=
    attr_option _ _ _ _ fun m => attr_plain _ _ (plain_date m)
  have depth : (mpd.timeShiftBufferDepthSecs.elim "" fun s =>
      attr "timeShiftBufferDepth" ("PT" ++ toString s ++ ".000S")).toList = Xml.writeField ("timeShiftBufferDepth",
        mpd.timeShiftBufferDepthSecs.map fun s => "PT" ++ toString s ++ ".000S") :=
    attr_option _ _ _ _ fun s => attr_plain _ _ (plain_depth s)
  unfold Mpd.openAttrs
  simp only [Mpd.fields, String.toList_append, List.flatMap_cons, List.flatMap_nil, List.append_nil, List.append_assoc,
    attr_esc, attr_plain "xmlns" "urn:mpeg:dash:schema:mpd:2011" (by decide), period, kind, date, depth]

theorem mpd_fields_legal (mpd : Mpd) (legal : ∀ text ∈ mpd.strings, ValueText text) : Xml.Legal mpd.fields := by
  simp only [Mpd.strings, List.forall_mem_cons] at legal
  obtain ⟨profiles, minBufferTime, minimumUpdatePeriod, -⟩ := legal
  refine Xml.legal_names ["xmlns", "type", "profiles", "minBufferTime", "minimumUpdatePeriod", "availabilityStartTime",
    "publishTime", "timeShiftBufferDepth"] _ rfl (by decide) (by decide) ?_
  simp only [Mpd.fields, List.forall_mem_cons, Option.mem_some_iff, forall_eq', Option.forall_mem_map]
  refine ⟨by decide, ?_, profiles, minBufferTime, ?_, fun m _ => (plain_date m).value, fun m _ => (plain_date m).value,
    fun s _ => (plain_depth s).value, List.forall_mem_nil _⟩
  · cases mpd.mpdType
    · exact (by decide : ValueText "dynamic")
    · exact (by decide : ValueText "static")
  · intro text known
    split at known
    · cases known
    · cases known
      exact minimumUpdatePeriod

theorem utc_timing_written (value : Nat) :
    Written ("  " ++ emptyTag "UTCTiming" (attr "schemeIdUri" "urn:mpeg:dash:utc:direct:2014" ++
      attr "value" (formatIso8601Utc value)) ++ "\n").toList
        (line 1 (.single "UTCTiming" (present (utcTimingFields value)))) := by
  have attrs : (attr "schemeIdUri" "urn:mpeg:dash:utc:direct:2014" ++ attr "value" (formatIso8601Utc value)).toList =
      (utcTimingFields value).flatMap Xml.writeField := by
    simp only [utcTimingFields, String.toList_append, List.flatMap_cons, List.flatMap_nil, List.append_nil,
      attr_plain "schemeIdUri" "urn:mpeg:dash:utc:direct:2014" (by decide), attr_plain _ _ (plain_date value)]
  have fields : Xml.Legal (utcTimingFields value) := by
    refine Xml.legal_names ["schemeIdUri", "value"] _ rfl (by decide) (by decide) ?_
    simp only [utcTimingFields, List.forall_mem_cons, Option.mem_some_iff, forall_eq']
    exact ⟨by decide, (plain_date value).value, List.forall_mem_nil _⟩
  have tag := written_empty "UTCTiming" _ _ attrs (by decide) fields
  have written := written_append (written_append (written_pad 1) tag) written_feed
  exact written

-- The text is the declaration and the document, and is read as the document.
theorem parse_rendered (mpd : Mpd) (legal : ∀ text ∈ mpd.strings, ValueText text) (text : String)
    (rendered : mpd.render = .ok text) : Xml.parse text.toList = some mpd.document := by
  rw [Mpd.render] at rendered
  split at rendered
  · cases rendered
  · cases texts : mpd.periods.mapM fun period => period.write 1 with
    | error error =>
        rw [texts] at rendered
        cases rendered
    | ok periods =>
        rw [texts] at rendered
        cases rendered
        have periodsLegal : ∀ period ∈ mpd.periods, ∀ text ∈ period.strings, ValueText text := by
          simp only [Mpd.strings, List.forall_mem_cons, List.forall_mem_flatMap] at legal
          exact legal.2.2.2
        have each := map_m_ok _ _ _ _ texts fun period member => period_written period 1 (periodsLegal period member)
        have timing : Written (mpd.utcTimingValueMillis.elim "" fun value => "  " ++ emptyTag "UTCTiming"
            (attr "schemeIdUri" "urn:mpeg:dash:utc:direct:2014" ++ attr "value" (formatIso8601Utc value)) ++ "\n").toList
            fun rest => mpd.utcTimingValueMillis.elim rest fun value =>
              line 1 (.single "UTCTiming" (present (utcTimingFields value))) rest := by
          cases mpd.utcTimingValueMillis with
          | none => exact ⟨fun rest => rfl, fun rest kept => kept⟩
          | some value => exact utc_timing_written value
        have inside := written_append (written_each each) timing
        refine document_read "MPD" _ _ (mpd_attrs mpd) (by decide) (mpd_fields_legal mpd legal) inside _ ?_
        have flush : pad 0 = "" := rfl
        rw [flush]
        simp only [String.append_assoc, String.append_empty]

end Elements

end Lvqr.Dash
