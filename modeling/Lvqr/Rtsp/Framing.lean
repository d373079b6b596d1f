import Lvqr.Rtsp.Proto

set_option autoImplicit false

-- Which bytes of a buffer `parse_request` takes for a request, in the arithmetic of
-- a 64-bit usize. A panic is `none`.
namespace Lvqr.Rtsp

def parseHead (header : List Char) : Except ParseError (Method × String × Headers) :=
  match Text.lines header with
  | [] => .error .invalidRequestLine
  | requestLine :: lines =>
      match parseRequestLine requestLine with
      | .error error => .error error
      | .ok (method, uri) =>
          match parseHeaders [] lines with
          | .error error => .error error
          | .ok headers => .ok (method, uri, headers)

-- An overflow of the sum panics where it is checked and wraps around where it is
-- not; then the slice ends before it starts.
def takeBody (overflowChecks : Bool) (buf : Bytes) (bodyStart contentLength : Nat) :
    Option (Except ParseError (Bytes × Nat)) :=
  let sum := bodyStart + contentLength
  if overflowChecks = true ∧ 2 ^ 64 ≤ sum then none
  else
    let total := sum % 2 ^ 64
    if buf.length < total then some (.error .incomplete)
    else if total < bodyStart then none
    else some (.ok ((buf.take total).drop bodyStart, total))

def parseRequestChecked (overflowChecks : Bool) (buf : Bytes) : Option (Except ParseError (Request × Nat)) :=
  match Utf8.decode buf with
  | none => some (.error .invalidRequestLine)
  | some text =>
      match Text.before BLANK_LINE text with
      | none => some (.error .incomplete)
      | some header =>
          match parseHead header with
          | .error error => some (.error error)
          | .ok (method, uri, headers) =>
              (takeBody overflowChecks buf ((Utf8.encode header).length + 4) (contentLength headers)).map fun taken =>
                taken.map fun (body, total) => (⟨method, uri, headers, body⟩, total)

-- The length that the header states, of any size; what is no number counts as none.
def statedLength (headers : Headers) : Nat :=
  ((headers.get "Content-Length").bind fun value => Text.unsignedValue value.toList).getD 0

-- A request as it stands in a stream: text up to its first blank line and as many
-- bytes behind it as it states, none if it is malformed.
def bodyLength (header : List Char) : Nat :=
  match parseHead header with
  | .ok (_, _, headers) => statedLength headers
  | .error _ => 0

structure Frame where
  header : List Char
  body : Bytes
  ended : Text.before BLANK_LINE (header ++ BLANK_LINE) = some header
  body_length : body.length = bodyLength header

namespace Frame

def wire (frame : Frame) : Bytes := Utf8.encode (frame.header ++ BLANK_LINE) ++ frame.body

def Holds (frame : Frame) (request : Request) : Prop :=
  parseHead frame.header = .ok (request.method, request.uri, request.headers) ∧ request.body = frame.body

end Frame

def Begun (buf : Bytes) : Prop := ∃ (frame : Frame) (missing : Bytes), missing ≠ [] ∧ frame.wire = buf ++ missing

def Contains (buf : Bytes) (request : Request) (length : Nat) : Prop :=
  ∃ (frame : Frame) (rest : Bytes), buf = frame.wire ++ rest ∧ frame.Holds request ∧ length = frame.wire.length

structure FramingExact (overflowChecks : Bool) (buf : Bytes) : Prop where
  returns : parseRequestChecked overflowChecks buf ≠ none
  incomplete : parseRequestChecked overflowChecks buf = some (.error .incomplete) ↔ Begun buf
  consumed : ∀ request length,
    parseRequestChecked overflowChecks buf = some (.ok (request, length)) ↔ Contains buf request length

-- The header section, its blank line and the stated length are below 2 ^ 64 together.
def Addressable (buf : Bytes) : Prop :=
  ∀ text header method uri headers, Utf8.decode buf = some text → Text.before BLANK_LINE text = some header →
    parseHead header = .ok (method, uri, headers) → (Utf8.encode header).length + 4 + statedLength headers < 2 ^ 64

theorem blank_line_length : (Utf8.encode BLANK_LINE).length = 4 := by decide

theorem content_length_stated (headers : Headers) :
    contentLength headers = if statedLength headers < 2 ^ 64 then statedLength headers else 0 := by
  unfold contentLength statedLength
  cases headers.get "Content-Length" with
  | none => rfl
  | some value =>
      rw [Option.bind_some, Option.bind_some, Text.parse_unsigned_value]
      cases Text.unsignedValue value.toList with
      | none => rfl
      | some number =>
          rw [Option.filter_some, Option.getD_some]
          by_cases small : number < 2 ^ 64
          · rw [if_pos (by simpa using small), if_pos small, Option.getD_some]
          · rw [if_neg (by simpa using small), if_neg small, Option.getD_none]

theorem parse_request_line_error (line : List Char) (error : ParseError) (failed : parseRequestLine line = .error error) :
    error ≠ .incomplete := by
  unfold parseRequestLine at failed
  split at failed
  · split at failed
    · cases failed
      exact fun same => nomatch same
    · split at failed
      · cases failed
      · cases failed
        exact fun same => nomatch same
  · cases failed
    exact fun same => nomatch same

theorem parse_headers_error (headers : Headers) (lines : List (List Char)) (error : ParseError)
    (failed : parseHeaders headers lines = .error error) : error ≠ .incomplete := by
  induction lines generalizing headers with
  | nil => cases failed
  | cons line lines ih =>
      rw [parseHeaders] at failed
      cases parsed : parseHeader headers line with
      | error found =>
          rw [parsed] at failed
          cases failed
          unfold parseHeader at parsed
          split at parsed
          · cases parsed
            exact fun same => nomatch same
          · cases parsed
      | ok more =>
          rw [parsed] at failed
          exact ih more failed

theorem parse_head_error (header : List Char) (error : ParseError) (failed : parseHead header = .error error) :
    error ≠ .incomplete := by
  unfold parseHead at failed
  split at failed
  · cases failed
    exact fun same => nomatch same
  · split at failed
    · rename_i refused
      cases failed
      exact parse_request_line_error _ _ refused
    · split at failed
      · rename_i refused
        cases failed
        exact parse_headers_error _ _ _ refused
      · cases failed

theorem header_wire_length (header : List Char) :
    (Utf8.encode (header ++ BLANK_LINE)).length = (Utf8.encode header).length + 4 := by
  rw [Utf8.encode_append, List.length_append, blank_line_length]

theorem Frame.wire_length (frame : Frame) :
    frame.wire.length = (Utf8.encode frame.header).length + 4 + bodyLength frame.header := by
  rw [Frame.wire, List.length_append, header_wire_length, frame.body_length]

-- Where the buffer is text up to its first blank line, any frame it meets ends its
-- header there.
theorem Frame.header_unique (frame : Frame) (buf : Bytes) (text header : List Char) (rest more : Bytes)
    (decodes : Utf8.decode buf = some text) (ended : Text.before BLANK_LINE text = some header)
    (meets : frame.wire ++ rest = buf ++ more) : frame.header = header := by
  obtain ⟨tail, rfl⟩ := Text.before_some BLANK_LINE text header ended
  obtain rfl := (Utf8.decode_eq_some_iff buf _).mp decodes
  have cut := Text.before_cut BLANK_LINE _ header ended
  rw [Frame.wire, Utf8.encode_append (header ++ BLANK_LINE), List.append_assoc, List.append_assoc] at meets
  rcases List.append_eq_append_iff.mp meets with ⟨between, longer, _⟩ | ⟨between, longer, _⟩
  · obtain ⟨chars, split, _⟩ := Utf8.encode_prefix _ between _ longer.symm
    have first := Text.before_append BLANK_LINE _ _ chars frame.ended
    rw [← split, cut] at first
    exact (Option.some.inj first).symm
  · obtain ⟨chars, split, _⟩ := Utf8.encode_prefix _ between _ longer.symm
    have first := Text.before_append BLANK_LINE _ _ chars cut
    rw [← split, frame.ended] at first
    exact Option.some.inj first

-- The frame of a header section with the body that is there and zeros for the rest.
def frameOf (header : List Char) (ended : Text.before BLANK_LINE (header ++ BLANK_LINE) = some header) (body : Bytes)
    (fits : body.length ≤ bodyLength header) : Frame where
  header := header
  body := body ++ List.replicate (bodyLength header - body.length) 0
  ended := ended
  body_length := by
    rw [List.length_append, List.length_replicate]
    exact Nat.add_sub_cancel' fits

theorem begun_unended (text : List Char) (unended : Text.before BLANK_LINE text = none) : Begun (Utf8.encode text) := by
  have ended : Text.before BLANK_LINE ((text ++ ['x']) ++ BLANK_LINE) = some (text ++ ['x']) := by
    rw [List.append_assoc]
    exact Text.before_guarded BLANK_LINE text 'x' (by decide) unended
  refine ⟨frameOf (text ++ ['x']) ended [] (Nat.zero_le _),
    Utf8.encode ('x' :: BLANK_LINE) ++ List.replicate (bodyLength (text ++ ['x'])) 0, ?_, ?_⟩
  · exact List.append_ne_nil_of_left_ne_nil (by decide) _
  · simp only [Frame.wire, frameOf, List.nil_append, List.length_nil, Nat.sub_zero]
    rw [List.append_assoc text, Utf8.encode_append text, List.append_assoc]
    rfl

section Headed

variable {buf : Bytes} {text header : List Char}

theorem buf_headed (decodes : Utf8.decode buf = some text) (ended : Text.before BLANK_LINE text = some header) :
    ∃ tail, buf = Utf8.encode (header ++ BLANK_LINE) ++ tail := by
  obtain ⟨tail, rfl⟩ := Text.before_some BLANK_LINE text header ended
  refine ⟨Utf8.encode tail, ?_⟩
  rw [(Utf8.decode_eq_some_iff buf _).mp decodes, Utf8.encode_append (header ++ BLANK_LINE)]

theorem body_start_le (decodes : Utf8.decode buf = some text) (ended : Text.before BLANK_LINE text = some header) :
    (Utf8.encode header).length + 4 ≤ buf.length := by
  obtain ⟨tail, rfl⟩ := buf_headed decodes ended
  rw [List.length_append, header_wire_length]
  exact Nat.le_add_right _ _

theorem begun_headed_iff (decodes : Utf8.decode buf = some text) (ended : Text.before BLANK_LINE text = some header) :
    Begun buf ↔ buf.length < (Utf8.encode header).length + 4 + bodyLength header := by
  constructor
  · intro ⟨frame, missing, left, whole⟩
    have same := frame.header_unique buf text header [] missing decodes ended (by rw [List.append_nil, whole])
    have length := frame.wire_length
    rw [whole, List.length_append, same] at length
    have positive := List.length_pos_iff.mpr left
    omega
  · intro short
    obtain ⟨tail, rfl⟩ := buf_headed decodes ended
    rw [List.length_append, header_wire_length] at short
    refine ⟨frameOf header (Text.before_cut BLANK_LINE text header ended) tail (by omega),
      List.replicate (bodyLength header - tail.length) 0, ?_, ?_⟩
    · rw [ne_eq, List.replicate_eq_nil_iff]
      omega
    · simp only [Frame.wire, frameOf, List.append_assoc]

theorem contains_headed_iff (decodes : Utf8.decode buf = some text) (ended : Text.before BLANK_LINE text = some header)
    (request : Request) (length : Nat) :
    Contains buf request length ↔
      parseHead header = .ok (request.method, request.uri, request.headers) ∧
        length = (Utf8.encode header).length + 4 + bodyLength header ∧ length ≤ buf.length ∧
          request.body = (buf.take length).drop ((Utf8.encode header).length + 4) := by
  constructor
  · intro ⟨frame, rest, whole, ⟨parsed, body⟩, isLength⟩
    have same := frame.header_unique buf text header rest [] decodes ended (by rw [List.append_nil, whole])
    have total := frame.wire_length
    have taken : (buf.take length).drop ((Utf8.encode frame.header).length + 4) = frame.body := by
      rw [whole, isLength, List.take_left, Frame.wire, ← header_wire_length, List.drop_left]
    rw [same] at parsed total taken
    refine ⟨parsed, isLength.trans total, ?_, body.trans taken.symm⟩
    rw [isLength, whole, List.length_append]
    exact Nat.le_add_right _ _
  · intro ⟨parsed, isLength, inside, body⟩
    obtain ⟨tail, rfl⟩ := buf_headed decodes ended
    rw [List.length_append, header_wire_length] at inside
    have long : bodyLength header ≤ tail.length := by omega
    have isBody : request.body = tail.take (bodyLength header) := by
      rw [body, isLength, ← header_wire_length, List.take_length_add_append, List.drop_left]
    refine ⟨⟨header, tail.take (bodyLength header), Text.before_cut BLANK_LINE text header ended, ?_⟩,
      tail.drop (bodyLength header), ?_, ⟨parsed, isBody⟩, ?_⟩
    · rw [List.length_take]
      exact Nat.min_eq_left long
    · rw [Frame.wire, List.append_assoc, List.take_append_drop]
    · rw [Frame.wire_length]
      exact isLength

end Headed

theorem take_body_addressable (overflowChecks : Bool) (buf : Bytes) (bodyStart length : Nat)
    (small : bodyStart + length < 2 ^ 64) :
    takeBody overflowChecks buf bodyStart length =
      if buf.length < bodyStart + length then some (.error .incomplete)
      else some (.ok ((buf.take (bodyStart + length)).drop bodyStart, bodyStart + length)) := by
  simp only [takeBody, Nat.mod_eq_of_lt small]
  rw [if_neg (fun overflow => absurd overflow.2 (Nat.not_le.mpr small)),
    if_neg (Nat.not_lt.mpr (Nat.le_add_right bodyStart length))]

theorem take_body_overflow (overflowChecks : Bool) (buf : Bytes) (bodyStart length : Nat)
    (inside : bodyStart ≤ buf.length) (stated : length < 2 ^ 64) (large : 2 ^ 64 ≤ bodyStart + length) :
    takeBody overflowChecks buf bodyStart length = none := by
  have wraps : (bodyStart + length) % 2 ^ 64 < bodyStart := by omega
  simp only [takeBody]
  by_cases checked : overflowChecks = true ∧ 2 ^ 64 ≤ bodyStart + length
  · rw [if_pos checked]
  · rw [if_neg checked, if_neg (show ¬ buf.length < (bodyStart + length) % 2 ^ 64 by omega), if_pos wraps]

theorem take_body_nothing (overflowChecks : Bool) (buf : Bytes) (bodyStart : Nat) (inside : bodyStart ≤ buf.length) :
    takeBody overflowChecks buf bodyStart 0 = none ∨
      ∃ body total, takeBody overflowChecks buf bodyStart 0 = some (.ok (body, total)) ∧ total < 2 ^ 64 := by
  simp only [takeBody, Nat.add_zero]
  split
  · exact .inl rfl
  · rw [if_neg (show ¬ buf.length < bodyStart % 2 ^ 64 by omega)]
    split
    · exact .inl rfl
    · exact .inr ⟨_, _, rfl, Nat.mod_lt _ (by decide)⟩

-- What the decoder makes of the buffer decides which of these branches is taken.
theorem checked_undecodable (overflowChecks : Bool) (buf : Bytes) (garbled : Utf8.decode buf = none) :
    parseRequestChecked overflowChecks buf = some (.error .invalidRequestLine) := by
  rw [parseRequestChecked, garbled]

theorem checked_unended (overflowChecks : Bool) (buf : Bytes) (text : List Char) (decodes : Utf8.decode buf = some text)
    (unended : Text.before BLANK_LINE text = none) :
    parseRequestChecked overflowChecks buf = some (.error .incomplete) := by
  simp only [parseRequestChecked, decodes, unended]

theorem checked_malformed (overflowChecks : Bool) (buf : Bytes) (text header : List Char) (error : ParseError)
    (decodes : Utf8.decode buf = some text) (ended : Text.before BLANK_LINE text = some header)
    (malformed : parseHead header = .error error) : parseRequestChecked overflowChecks buf = some (.error error) := by
  simp only [parseRequestChecked, decodes, ended, malformed]

theorem checked_headed (overflowChecks : Bool) (buf : Bytes) (text header : List Char) (method : Method) (uri : String)
    (headers : Headers) (decodes : Utf8.decode buf = some text) (ended : Text.before BLANK_LINE text = some header)
    (parsed : parseHead header = .ok (method, uri, headers)) :
    parseRequestChecked overflowChecks buf =
      (takeBody overflowChecks buf ((Utf8.encode header).length + 4) (contentLength headers)).map fun taken =>
        taken.map fun (body, total) => (⟨method, uri, headers, body⟩, total) := by
  simp only [parseRequestChecked, decodes, ended, parsed]

theorem body_length_parsed (header : List Char) (method : Method) (uri : String) (headers : Headers)
    (parsed : parseHead header = .ok (method, uri, headers)) : bodyLength header = statedLength headers := by
  rw [bodyLength, parsed]

theorem body_length_malformed (header : List Char) (error : ParseError) (malformed : parseHead header = .error error) :
    bodyLength header = 0 := by
  rw [bodyLength, malformed]

theorem unended_contains_nothing (buf : Bytes) (text : List Char) (decodes : Utf8.decode buf = some text)
    (unended : Text.before BLANK_LINE text = none) (request : Request) (length : Nat) : ¬ Contains buf request length := by
  intro ⟨frame, rest, whole, _⟩
  have encoded := (Utf8.decode_eq_some_iff buf text).mp decodes
  rw [whole, Frame.wire, List.append_assoc] at encoded
  obtain ⟨more, rfl, _⟩ := Utf8.encode_prefix _ _ text encoded
  exact Text.before_present BLANK_LINE frame.header more unended

theorem framing_unended (overflowChecks : Bool) (buf : Bytes) (text : List Char) (decodes : Utf8.decode buf = some text)
    (unended : Text.before BLANK_LINE text = none) : FramingExact overflowChecks buf := by
  have run := checked_unended overflowChecks buf text decodes unended
  have begun : Begun buf := by
    rw [(Utf8.decode_eq_some_iff buf text).mp decodes]
    exact begun_unended text unended
  refine ⟨?_, ?_, ?_⟩
  · rw [run]
    exact Option.some_ne_none _
  · exact iff_of_true run begun
  · intro request length
    refine iff_of_false ?_ (unended_contains_nothing buf text decodes unended request length)
    rw [run]
    exact fun same => nomatch same

theorem framing_malformed (overflowChecks : Bool) (buf : Bytes) (text header : List Char) (error : ParseError)
    (decodes : Utf8.decode buf = some text) (ended : Text.before BLANK_LINE text = some header)
    (malformed : parseHead header = .error error) : FramingExact overflowChecks buf := by
  have run := checked_malformed overflowChecks buf text header error decodes ended malformed
  have inside := body_start_le decodes ended
  refine ⟨?_, ?_, ?_⟩
  · rw [run]
    exact Option.some_ne_none _
  · refine iff_of_false ?_ ?_
    · rw [run]
      intro same
      exact parse_head_error header error malformed (Except.error.inj (Option.some.inj same))
    · rw [begun_headed_iff decodes ended, body_length_malformed header error malformed]
      exact Nat.not_lt.mpr inside
  · intro request length
    refine iff_of_false ?_ ?_
    · rw [run]
      exact fun same => nomatch same
    · rw [contains_headed_iff decodes ended, malformed]
      exact fun both => nomatch both.1

theorem framing_headed (overflowChecks : Bool) (buf : Bytes) (text header : List Char) (method : Method) (uri : String)
    (headers : Headers) (decodes : Utf8.decode buf = some text) (ended : Text.before BLANK_LINE text = some header)
    (parsed : parseHead header = .ok (method, uri, headers))
    (small : (Utf8.encode header).length + 4 + statedLength headers < 2 ^ 64) : FramingExact overflowChecks buf := by
  have run := checked_headed overflowChecks buf text header method uri headers decodes ended parsed
  have stated := body_length_parsed header method uri headers parsed
  rw [content_length_stated, if_pos (by omega), take_body_addressable overflowChecks buf _ _ small] at run
  by_cases short : buf.length < (Utf8.encode header).length + 4 + statedLength headers
  · rw [if_pos short] at run
    refine ⟨?_, ?_, ?_⟩
    · rw [run]
      exact Option.some_ne_none _
    · refine iff_of_true run ?_
      rw [begun_headed_iff decodes ended, stated]
      exact short
    · intro request length
      refine iff_of_false ?_ ?_
      · rw [run]
        exact fun same => nomatch same
      · rw [contains_headed_iff decodes ended, stated]
        intro ⟨_, isLength, inside, _⟩
        omega
  · rw [if_neg short] at run
    refine ⟨?_, ?_, ?_⟩
    · rw [run]
      exact Option.some_ne_none _
    · refine iff_of_false ?_ ?_
      · rw [run]
        exact fun same => nomatch same
      · rw [begun_headed_iff decodes ended, stated]
        exact short
    · intro request length
      rw [run, contains_headed_iff decodes ended, stated, parsed]
      constructor
      · intro same
        obtain ⟨rfl, rfl⟩ := Prod.mk.inj (Except.ok.inj (Option.some.inj same))
        exact ⟨rfl, rfl, Nat.not_lt.mp short, rfl⟩
      · intro ⟨same, isLength, _, body⟩
        obtain ⟨isMethod, rest⟩ := Prod.mk.inj (Except.ok.inj same)
        obtain ⟨isUri, isHeaders⟩ := Prod.mk.inj rest
        subst isMethod isUri isHeaders isLength
        rw [← body]
        rfl

theorem framing_unaddressable (overflowChecks : Bool) (buf : Bytes) (text header : List Char) (method : Method)
    (uri : String) (headers : Headers) (decodes : Utf8.decode buf = some text)
    (ended : Text.before BLANK_LINE text = some header) (parsed : parseHead header = .ok (method, uri, headers))
    (large : 2 ^ 64 ≤ (Utf8.encode header).length + 4 + statedLength headers) : ¬ FramingExact overflowChecks buf := by
  intro exact
  have run := checked_headed overflowChecks buf text header method uri headers decodes ended parsed
  have inside := body_start_le decodes ended
  rw [content_length_stated] at run
  by_cases fits : statedLength headers < 2 ^ 64
  · rw [if_pos fits, take_body_overflow overflowChecks buf _ _ inside fits large] at run
    exact exact.returns run
  · rw [if_neg fits] at run
    rcases take_body_nothing overflowChecks buf _ inside with panics | ⟨body, total, taken, below⟩
    · rw [panics] at run
      exact exact.returns run
    · rw [taken] at run
      have contains := (exact.consumed _ _).mp run
      rw [contains_headed_iff decodes ended, body_length_parsed header method uri headers parsed] at contains
      have isLength := contains.2.1
      omega

def RequestLike (buf : Bytes) : Prop := Begun buf ∨ ∃ request length, Contains buf request length

theorem request_framing_exact_iff (overflowChecks : Bool) (buf : Bytes) :
    FramingExact overflowChecks buf ↔ (Utf8.decode buf = none → ¬ RequestLike buf) ∧ Addressable buf := by
  cases decodes : Utf8.decode buf with
  | none =>
      have run := checked_undecodable overflowChecks buf decodes
      have addressable : Addressable buf := by
        intro text header method uri headers decoded
        rw [decodes] at decoded
        cases decoded
      constructor
      · intro exact
        refine ⟨fun _ like => ?_, addressable⟩
        rcases like with begun | ⟨request, length, contains⟩
        · have same := exact.incomplete.mpr begun
          rw [run] at same
          cases same
        · have same := (exact.consumed request length).mpr contains
          rw [run] at same
          cases same
      · intro ⟨foreign, _⟩
        have unlike := foreign rfl
        refine ⟨?_, ?_, ?_⟩
        · rw [run]
          exact Option.some_ne_none _
        · refine iff_of_false ?_ fun begun => unlike (.inl begun)
          rw [run]
          exact fun same => nomatch same
        · intro request length
          refine iff_of_false ?_ fun contains => unlike (.inr ⟨request, length, contains⟩)
          rw [run]
          exact fun same => nomatch same
  | some text =>
      rw [and_iff_right (fun none => nomatch none)]
      cases ended : Text.before BLANK_LINE text with
      | none =>
          refine iff_of_true (framing_unended overflowChecks buf text decodes ended) ?_
          intro other header method uri headers decoded found
          rw [decodes] at decoded
          rw [← Option.some.inj decoded, ended] at found
          cases found
      | some header =>
          cases parsed : parseHead header with
          | error error =>
              refine iff_of_true (framing_malformed overflowChecks buf text header error decodes ended parsed) ?_
              intro other front method uri headers decoded found read
              rw [decodes] at decoded
              rw [← Option.some.inj decoded, ended] at found
              rw [← Option.some.inj found, parsed] at read
              cases read
          | ok found =>
              obtain ⟨method, uri, headers⟩ := found
              constructor
              · intro exact other front otherMethod otherUri otherHeaders decoded isHeader read
                rw [decodes] at decoded
                rw [← Option.some.inj decoded, ended] at isHeader
                rw [← Option.some.inj isHeader, parsed] at read
                cases read
                rw [← Option.some.inj isHeader]
                by_contra large
                exact framing_unaddressable overflowChecks buf text header method uri headers decodes ended parsed
                  (Nat.not_lt.mp large) exact
              · intro addressable
                exact framing_headed overflowChecks buf text header method uri headers decodes ended parsed
                  (addressable text header method uri headers decodes ended parsed)

theorem parse_request_head_first (buf : Bytes) :
    parseRequest buf =
      match Utf8.decode buf with
      | none => .error .invalidRequestLine
      | some text =>
          match Text.before BLANK_LINE text with
          | none => .error .incomplete
          | some header =>
              match parseHead header with
              | .error error => .error error
              | .ok (method, uri, headers) =>
                  let bodyStart := (Utf8.encode header).length + 4
                  let total := bodyStart + contentLength headers
                  if buf.length < total then .error .incomplete
                  else .ok (⟨method, uri, headers, (buf.take total).drop bodyStart⟩, total) := by
  rw [parseRequest]
  cases Utf8.decode buf with
  | none => rfl
  | some text =>
      dsimp only
      cases Text.before BLANK_LINE text with
      | none => rfl
      | some header =>
          dsimp only
          rw [parseHead]
          cases Text.lines header with
          | nil => rfl
          | cons requestLine lines =>
              dsimp only
              cases parseRequestLine requestLine with
              | error error => rfl
              | ok start =>
                  dsimp only
                  cases parseHeaders [] lines with
                  | error error => rfl
                  | ok headers => rfl

-- Away from the limit of usize the unbounded arithmetic is the machine's.
theorem parse_request_checked (overflowChecks : Bool) (buf : Bytes) (addressable : Addressable buf) :
    parseRequestChecked overflowChecks buf = some (parseRequest buf) := by
  rw [parse_request_head_first]
  cases decodes : Utf8.decode buf with
  | none => exact checked_undecodable overflowChecks buf decodes
  | some text =>
      dsimp only
      cases ended : Text.before BLANK_LINE text with
      | none => exact checked_unended overflowChecks buf text decodes ended
      | some header =>
          dsimp only
          cases parsed : parseHead header with
          | error error => exact checked_malformed overflowChecks buf text header error decodes ended parsed
          | ok found =>
              obtain ⟨method, uri, headers⟩ := found
              have small := addressable text header method uri headers decodes ended parsed
              have stated : contentLength headers = statedLength headers := by
                rw [content_length_stated, if_pos (by omega)]
              dsimp only
              rw [checked_headed overflowChecks buf text header method uri headers decodes ended parsed, stated,
                take_body_addressable overflowChecks buf _ _ small]
              split
              · rfl
              · rfl

def limitRequest : Bytes :=
  Utf8.encode "OPTIONS * RTSP/1.0\r\nContent-Length: 18446744073709551615\r\n\r\n".toList

theorem limit_request_panics : ¬ ∀ (overflowChecks : Bool) (buf : Bytes), FramingExact overflowChecks buf := by
  intro exact
  have panics : parseRequestChecked false limitRequest = none := by decide +kernel
  exact (exact false limitRequest).returns panics

end Lvqr.Rtsp
