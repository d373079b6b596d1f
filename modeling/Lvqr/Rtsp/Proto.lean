import Lvqr.Bytes
import Lvqr.Lib.BigEndian
import Lvqr.Lib.Text
import Lvqr.Lib.Utf8

set_option autoImplicit false

-- RTSP/1.0 requests and responses.
namespace Lvqr.Rtsp

inductive Method where
  | options
  | describe
  | announce
  | setup
  | play
  | pause
  | record
  | teardown
  | getParameter
  | setParameter
deriving DecidableEq, Repr

namespace Method

def parse (name : List Char) : Option Method :=
  if name = "OPTIONS".toList then some .options
  else if name = "DESCRIBE".toList then some .describe
  else if name = "ANNOUNCE".toList then some .announce
  else if name = "SETUP".toList then some .setup
  else if name = "PLAY".toList then some .play
  else if name = "PAUSE".toList then some .pause
  else if name = "RECORD".toList then some .record
  else if name = "TEARDOWN".toList then some .teardown
  else if name = "GET_PARAMETER".toList then some .getParameter
  else if name = "SET_PARAMETER".toList then some .setParameter
  else none

def asStr : Method → String
  | options => "OPTIONS"
  | describe => "DESCRIBE"
  | announce => "ANNOUNCE"
  | setup => "SETUP"
  | play => "PLAY"
  | pause => "PAUSE"
  | record => "RECORD"
  | teardown => "TEARDOWN"
  | getParameter => "GET_PARAMETER"
  | setParameter => "SET_PARAMETER"

theorem parse_as_str (method : Method) : parse method.asStr.toList = some method := by
  cases method <;> decide

theorem as_str_word (method : Method) : Text.Word method.asStr.toList := by
  cases method <;> decide

end Method

-- A map from names to values; a lookup ignores the case of the name.
abbrev Headers := List (String × String)

namespace Headers

def sameName (first second : String) : Bool := Text.lower first.toList = Text.lower second.toList

def get (headers : Headers) (key : String) : Option String :=
  (headers.find? fun entry => sameName entry.1 key).map Prod.snd

def insert (headers : Headers) (key value : String) : Headers :=
  if headers.any (·.1 = key) then headers.map fun entry => if entry.1 = key then (key, value) else entry
  else headers ++ [(key, value)]

end Headers

structure Request where
  method : Method
  uri : String
  headers : Headers
  body : Bytes
deriving DecidableEq, Repr

namespace Request

def cseq (request : Request) : Option Nat :=
  (request.headers.get "CSeq").bind fun value => Text.parseUnsigned (2 ^ 32) value.toList

-- The header may carry parameters behind a semicolon.
def sessionId (request : Request) : Option String :=
  (request.headers.get "Session").map fun value =>
    String.ofList (Text.trim (value.toList.takeWhile (· ≠ ';')))

end Request

structure Response where
  status : Nat
  reason : String
  headers : Headers
  body : Bytes
deriving DecidableEq, Repr

namespace Response

def new (status : Nat) (reason : String) : Response := ⟨status, reason, [], []⟩

def ok : Response := new 200 "OK"

def methodNotAllowed : Response := new 405 "Method Not Allowed"

def badRequest : Response := new 400 "Bad Request"

def sessionNotFound : Response := new 454 "Session Not Found"

def unauthorized : Response := new 401 "Unauthorized"

def unsupportedMediaType : Response := new 415 "Unsupported Media Type"

def withHeader (response : Response) (key value : String) : Response :=
  { response with headers := response.headers.insert key value }

def found (location : String) : Response := (new 302 "Moved Temporarily").withHeader "Location" location

def withCseq (response : Response) (cseq : Nat) : Response := response.withHeader "CSeq" (toString cseq)

def withBody (response : Response) (contentType : String) (body : Bytes) : Response :=
  { (response.withHeader "Content-Length" (toString body.length)).withHeader "Content-Type" contentType with
    body := body }

end Response

inductive ParseError where
  | incomplete
  | invalidRequestLine
  | unknownMethod (name : String)
  | unsupportedVersion
  | malformedHeader
  | bodyTruncated
deriving DecidableEq, Repr

def VERSION : List Char := "RTSP/1.0".toList

def BLANK_LINE : List Char := Text.crlf ++ Text.crlf

def parseHeader (headers : Headers) (line : List Char) : Except ParseError Headers :=
  match Text.splitOnce ':' line with
  | none => .error .malformedHeader
  | some (key, value) => .ok (headers.insert (String.ofList (Text.trim key)) (String.ofList (Text.trim value)))

def parseHeaders : Headers → List (List Char) → Except ParseError Headers
  | headers, [] => .ok headers
  | headers, line :: lines =>
      match parseHeader headers line with
      | .error error => .error error
      | .ok headers => parseHeaders headers lines

-- What does not parse as a length counts as none.
def contentLength (headers : Headers) : Nat :=
  ((headers.get "Content-Length").bind fun value => Text.parseUnsigned (2 ^ 64) value.toList).getD 0

def parseRequestLine (line : List Char) : Except ParseError (Method × String) :=
  match Text.words line with
  | method :: uri :: version :: _ =>
      match Method.parse method with
      | none => .error (.unknownMethod (String.ofList method))
      | some method => if version = VERSION then .ok (method, String.ofList uri) else .error .unsupportedVersion
  | _ => .error .invalidRequestLine

-- The whole buffer must be text, also what follows the request.
def parseRequest (buf : Bytes) : Except ParseError (Request × Nat) :=
  match Utf8.decode buf with
  | none => .error .invalidRequestLine
  | some text =>
      match Text.before BLANK_LINE text with
      | none => .error .incomplete
      | some header =>
          match Text.lines header with
          | [] => .error .invalidRequestLine
          | requestLine :: lines =>
              match parseRequestLine requestLine with
              | .error error => .error error
              | .ok (method, uri) =>
                  match parseHeaders [] lines with
                  | .error error => .error error
                  | .ok headers =>
                      let bodyStart := (Utf8.encode header).length + 4
                      let total := bodyStart + contentLength headers
                      if buf.length < total then .error .incomplete
                      else .ok (⟨method, uri, headers, (buf.take total).drop bodyStart⟩, total)

structure InterleavedFrame where
  channel : UInt8
  payload : Bytes
deriving DecidableEq, Repr

def DOLLAR : UInt8 := 0x24

def parseInterleavedFrame (buf : Bytes) : Option (InterleavedFrame × Nat) :=
  match buf with
  | dollar :: channel :: high :: low :: rest =>
      if dollar ≠ DOLLAR then none
      else
        let length := BigEndian.value [high, low]
        if rest.length < length then none else some (⟨channel, rest.take length⟩, 4 + length)
  | _ => none

end Lvqr.Rtsp
