import Mathlib.Data.List.Nodup
import Lvqr.Rtsp.Proto

set_option autoImplicit false

-- What clients put on the wire, and what the parsers make of it.
namespace Lvqr.Rtsp

def headerLine (entry : String × String) : List Char := entry.1.toList ++ ':' :: ' ' :: entry.2.toList

namespace Request

def requestLine (request : Request) : List Char :=
  request.method.asStr.toList ++ ' ' :: (request.uri.toList ++ ' ' :: VERSION)

def head (request : Request) : List Char := Text.sectionOf request.requestLine (request.headers.map headerLine)

def wire (request : Request) : Bytes := Utf8.encode (request.head ++ BLANK_LINE) ++ request.body

def Trimmed (text : String) : Prop := Text.trim text.toList = text.toList

instance (text : String) : Decidable (Trimmed text) := inferInstanceAs (Decidable (_ = _))

-- A request that is one message on the wire: its fields stay within their places
-- and its length is stated.
structure WellFormed (request : Request) : Prop where
  uri : Text.Word request.uri.toList
  names : ∀ entry ∈ request.headers, Trimmed entry.1 ∧ ':' ∉ entry.1.toList ∧ Text.Inline entry.1.toList
  values : ∀ entry ∈ request.headers, Trimmed entry.2 ∧ Text.Inline entry.2.toList
  distinct : (request.headers.map fun entry => Text.lower entry.1.toList).Nodup
  stated : request.headers.get "Content-Length" = some (toString request.body.length) ∨
    request.headers.get "Content-Length" = none ∧ request.body = []
  addressable : request.body.length < 2 ^ 64

end Request

theorem header_line_inline (entry : String × String) (name : Text.Inline entry.1.toList)
    (value : Text.Inline entry.2.toList) : headerLine entry ≠ [] ∧ Text.Inline (headerLine entry) := by
  refine ⟨by simp [headerLine], ?_⟩
  rw [headerLine, Text.inline_append]
  refine ⟨name, ?_⟩
  show Text.Inline ([':', ' '] ++ entry.2.toList)
  rw [Text.inline_append]
  exact ⟨by decide, value⟩

theorem parse_header_line (headers : Headers) (entry : String × String) (noColon : ':' ∉ entry.1.toList)
    (name : Request.Trimmed entry.1) (value : Request.Trimmed entry.2) :
    parseHeader headers (headerLine entry) = .ok (headers.insert entry.1 entry.2) := by
  unfold Request.Trimmed at name value
  rw [parseHeader, headerLine, Text.split_once_append ':' _ _ noColon]
  simp only [Text.trim_space, name, value, String.ofList_toList]

theorem insert_fresh (headers : Headers) (key value : String) (fresh : key ∉ headers.map Prod.fst) :
    headers.insert key value = headers ++ [(key, value)] := by
  rw [Headers.insert, if_neg]
  simpa using fresh

theorem parse_headers_lines (before after : Headers)
    (names : ∀ entry ∈ after, Request.Trimmed entry.1 ∧ ':' ∉ entry.1.toList ∧ Text.Inline entry.1.toList)
    (values : ∀ entry ∈ after, Request.Trimmed entry.2 ∧ Text.Inline entry.2.toList)
    (distinct : ((before ++ after).map Prod.fst).Nodup) :
    parseHeaders before (after.map headerLine) = .ok (before ++ after) := by
  induction after generalizing before with
  | nil => simp [parseHeaders]
  | cons entry after ih =>
      obtain ⟨name, noColon, _⟩ := names entry List.mem_cons_self
      obtain ⟨value, _⟩ := values entry List.mem_cons_self
      have fresh : entry.1 ∉ before.map Prod.fst := by
        intro already
        rw [List.map_append, List.map_cons] at distinct
        exact List.disjoint_of_nodup_append distinct already List.mem_cons_self
      rw [List.map_cons, parseHeaders, parse_header_line before entry noColon name value]
      simp only
      rw [insert_fresh before entry.1 entry.2 fresh]
      have moved : before ++ entry :: after = before ++ [entry] ++ after := by simp
      rw [moved] at distinct ⊢
      exact ih (before ++ [entry]) (fun other member => names other (List.mem_cons_of_mem entry member))
        (fun other member => values other (List.mem_cons_of_mem entry member)) distinct

namespace Request

theorem request_line_inline (request : Request) (wellFormed : request.WellFormed) :
    request.requestLine ≠ [] ∧ Text.Inline request.requestLine := by
  have version : Text.Word VERSION := by decide
  refine ⟨by simp [requestLine], ?_⟩
  rw [requestLine, Text.inline_append]
  refine ⟨request.method.as_str_word.inline, ?_⟩
  show Text.Inline ([' '] ++ (request.uri.toList ++ ([' '] ++ VERSION)))
  rw [Text.inline_append, Text.inline_append, Text.inline_append]
  have space : Text.Inline [' '] := by decide
  exact ⟨space, wellFormed.uri.inline, space, version.inline⟩

theorem header_lines_inline (request : Request) (wellFormed : request.WellFormed) :
    ∀ line ∈ request.headers.map headerLine, line ≠ [] ∧ Text.Inline line := by
  intro line member
  obtain ⟨entry, isHeader, rfl⟩ := List.mem_map.mp member
  exact header_line_inline entry (wellFormed.names entry isHeader).2.2 (wellFormed.values entry isHeader).2

theorem head_ends (request : Request) (wellFormed : request.WellFormed) (text : List Char) :
    Text.before BLANK_LINE (request.head ++ (BLANK_LINE ++ text)) = some request.head :=
  Text.before_section _ _ text (request.request_line_inline wellFormed).2 (request.header_lines_inline wellFormed)

theorem head_lines (request : Request) (wellFormed : request.WellFormed) :
    Text.lines request.head = request.requestLine :: request.headers.map headerLine :=
  Text.lines_section _ _ (request.request_line_inline wellFormed).1 (request.request_line_inline wellFormed).2
    (request.header_lines_inline wellFormed)

theorem parse_request_line (request : Request) (wellFormed : request.WellFormed) :
    parseRequestLine request.requestLine = .ok (request.method, request.uri) := by
  have version : Text.Word VERSION := by decide
  rw [parseRequestLine, requestLine, Text.words_space _ _ request.method.as_str_word,
    Text.words_space _ _ wellFormed.uri, Text.words_last _ version]
  simp only [Method.parse_as_str, String.ofList_toList, if_true]

theorem parse_headers (request : Request) (wellFormed : request.WellFormed) :
    parseHeaders [] (request.headers.map headerLine) = .ok request.headers := by
  have distinct : (([] ++ request.headers).map Prod.fst).Nodup := by
    have lowered := wellFormed.distinct
    rw [List.nil_append]
    refine List.Nodup.of_map (fun name => Text.lower name.toList) ?_
    rw [List.map_map]
    exact lowered
  simpa using parse_headers_lines [] request.headers wellFormed.names wellFormed.values distinct

theorem content_length (request : Request) (wellFormed : request.WellFormed) :
    contentLength request.headers = request.body.length := by
  rcases wellFormed.stated with states | ⟨silent, empty⟩
  · have written : (toString request.body.length).toList = Nat.toDigits 10 request.body.length := Nat.toList_repr
    rw [contentLength, states, Option.bind_some, written,
      Text.parse_unsigned_digits _ _ wellFormed.addressable, Option.getD_some]
  · rw [contentLength, silent, empty]
    rfl

-- Behind a whole head the parser only waits for the body.
theorem parse_request_head (request : Request) (wellFormed : request.WellFormed) (buf : Bytes) (rest : List Char)
    (decodes : Utf8.decode buf = some (request.head ++ BLANK_LINE ++ rest)) :
    parseRequest buf =
      if buf.length < request.wire.length then .error .incomplete
      else .ok (⟨request.method, request.uri, request.headers, (buf.take request.wire.length).drop
        (Utf8.encode (request.head ++ BLANK_LINE)).length⟩, request.wire.length) := by
  have blank : (Utf8.encode BLANK_LINE).length = 4 := by decide
  have headLength : (Utf8.encode (request.head ++ BLANK_LINE)).length = (Utf8.encode request.head).length + 4 := by
    rw [Utf8.encode_append, List.length_append, blank]
  have total : (Utf8.encode request.head).length + 4 + request.body.length = request.wire.length := by
    rw [wire, List.length_append, headLength]
  rw [parseRequest, decodes]
  simp only [List.append_assoc]
  rw [request.head_ends wellFormed rest]
  simp only [request.head_lines wellFormed, request.parse_request_line wellFormed, request.parse_headers wellFormed,
    request.content_length wellFormed, total, headLength]

-- With everything behind it text, a whole request parses to itself.
theorem parse_request_whole (request : Request) (wellFormed : request.WellFormed) (more : Bytes) (text : List Char)
    (decodes : Utf8.decode (request.wire ++ more) = some text) :
    parseRequest (request.wire ++ more) = .ok (request, request.wire.length) := by
  have encoded := (Utf8.decode_eq_some_iff _ text).mp decodes
  rw [wire, List.append_assoc] at encoded
  obtain ⟨rest, rfl, _⟩ := Utf8.encode_prefix _ _ text encoded
  have body : request.wire.drop (Utf8.encode (request.head ++ BLANK_LINE)).length = request.body := by
    rw [wire, List.drop_left]
  rw [request.parse_request_head wellFormed _ rest decodes, if_neg (by simp), List.take_left, body]

-- A text that is not yet the whole request does not fail.
theorem parse_request_part (request : Request) (wellFormed : request.WellFormed) (part more : Bytes) (text : List Char)
    (whole : part ++ more = request.wire) (missing : more ≠ []) (decodes : Utf8.decode part = some text) :
    parseRequest part = .error .incomplete := by
  have short : part.length < request.wire.length := by
    rw [← whole, List.length_append]
    exact Nat.lt_add_of_pos_right (List.length_pos_iff.mpr missing)
  obtain rfl := (Utf8.decode_eq_some_iff part text).mp decodes
  rcases List.append_eq_append_iff.mp whole with ⟨rest, headLonger, _⟩ | ⟨rest, textLonger, _⟩
  · obtain ⟨chars, split, isRest⟩ := Utf8.encode_prefix text rest _ headLonger.symm
    rcases chars with - | ⟨char, chars⟩
    · rw [List.append_nil] at split
      rw [request.parse_request_head wellFormed _ [] (by rw [decodes, split, List.append_nil]), if_pos short]
    · -- The head is not complete, so there is no blank line yet.
      have notEnded : Text.before BLANK_LINE text = none := by
        by_contra ended
        obtain ⟨front, found⟩ := Option.ne_none_iff_exists'.mp ended
        have ends := request.head_ends wellFormed []
        rw [List.append_nil, split, Text.before_append _ _ _ _ found] at ends
        obtain ⟨later, isText⟩ := Text.before_some _ _ _ found
        obtain rfl := Option.some.inj ends
        have lengths := congrArg List.length split
        rw [isText] at lengths
        simp only [List.length_append, List.length_cons] at lengths
        omega
      rw [parseRequest, decodes]
      simp only [notEnded]
  · obtain ⟨chars, rfl, _⟩ := Utf8.encode_prefix _ rest text textLonger.symm
    rw [request.parse_request_head wellFormed _ chars decodes, if_pos short]

theorem parse_request_undecodable (buf : Bytes) (garbled : Utf8.decode buf = none) :
    parseRequest buf = .error .invalidRequestLine := by
  rw [parseRequest, garbled]

-- The first byte tells a request from an interleaved frame.
theorem wire_first (request : Request) : ∃ byte rest, request.wire = byte :: rest ∧ byte ≠ DOLLAR := by
  obtain ⟨byte, name, starts, notDollar⟩ :
      ∃ byte name, Utf8.encode request.method.asStr.toList = byte :: name ∧ byte ≠ DOLLAR := by
    cases request.method <;> exact ⟨_, _, rfl, by decide⟩
  have startsWire : request.wire = byte :: name ++ request.wire.drop (byte :: name).length := by
    rw [← starts]
    simp [wire, head, Text.sectionOf, requestLine]
  exact ⟨byte, _, startsWire, notDollar⟩

end Request

-- A payload's length fits the frame's two bytes.
structure WireFrame where
  frame : InterleavedFrame
  fits : frame.payload.length < 2 ^ 16
deriving DecidableEq, Repr

namespace WireFrame

def wire (frame : WireFrame) : Bytes :=
  DOLLAR :: frame.frame.channel :: BigEndian.bytes 2 frame.frame.payload.length ++ frame.frame.payload

theorem wire_length (frame : WireFrame) : frame.wire.length = 4 + frame.frame.payload.length := by
  simp only [wire, List.cons_append, List.length_cons, List.length_append, BigEndian.bytes_length]
  omega

theorem parse_interleaved_header (channel : UInt8) (length : Nat) (fits : length < 2 ^ 16) (rest : Bytes) :
    parseInterleavedFrame (DOLLAR :: channel :: BigEndian.bytes 2 length ++ rest) =
      if rest.length < length then none else some (⟨channel, rest.take length⟩, 4 + length) := by
  have stated : BigEndian.value (BigEndian.bytes 2 length) = length := BigEndian.value_bytes 2 length fits
  simp only [BigEndian.bytes] at stated
  simp only [BigEndian.bytes, List.cons_append, List.nil_append, parseInterleavedFrame, ne_eq, not_true_eq_false,
    if_false, stated]

theorem parse_interleaved_whole (frame : WireFrame) (more : Bytes) :
    parseInterleavedFrame (frame.wire ++ more) = some (frame.frame, frame.wire.length) := by
  rw [wire_length, wire, List.append_assoc, parse_interleaved_header _ _ frame.fits, if_neg (by simp), List.take_left]

theorem parse_interleaved_part (frame : WireFrame) (part more : Bytes) (whole : part ++ more = frame.wire)
    (missing : more ≠ []) : parseInterleavedFrame part = none := by
  have long := List.length_pos_iff.mpr missing
  rcases part with - | ⟨dollar, - | ⟨channel, - | ⟨high, - | ⟨low, rest⟩⟩⟩⟩
  · rfl
  · rfl
  · rfl
  · rfl
  · have lengths := congrArg List.length whole
    have isHeader : dollar :: channel :: high :: low :: rest =
        DOLLAR :: frame.frame.channel :: BigEndian.bytes 2 frame.frame.payload.length ++ rest := by
      simp only [wire, BigEndian.bytes, List.cons_append, List.nil_append, List.cons.injEq] at whole ⊢
      exact ⟨whole.1, whole.2.1, whole.2.2.1, whole.2.2.2.1, trivial⟩
    rw [isHeader, parse_interleaved_header _ _ frame.fits, if_pos]
    rw [wire_length] at lengths
    simp only [List.length_append, List.length_cons] at lengths
    omega

end WireFrame

end Lvqr.Rtsp
