import Mathlib.Algebra.Group.Nat.Defs
import Lvqr.Bytes
import Lvqr.Lib.Percent
import Lvqr.Lib.Text
import Lvqr.Lib.Utf8

set_option autoImplicit false

-- Live playback: the middleware in front of the HLS and DASH routers and what
-- their handlers make of a path. Paths and broadcast names are byte strings.
namespace Lvqr.Playback

open Percent (slash splitLast)

def ascii (text : String) : Bytes := Utf8.encode text.toList

def stripPrefix (front text : Bytes) : Option Bytes := if front <+: text then some (text.drop front.length) else none

def stripSuffix (back text : Bytes) : Option Bytes :=
  if back <:+ text then some (text.take (text.length - back.length)) else none

inductive LiveScheme where
  | hls
  | dash
deriving DecidableEq, Repr

def LiveScheme.asStr : LiveScheme → String
  | .hls => "hls"
  | .dash => "dash"

def LiveScheme.mount (scheme : LiveScheme) : Bytes := ascii ("/" ++ scheme.asStr ++ "/")

structure Request where
  path : Bytes
  query : List Char
  authorization : Option (List Char)

-- The provider behind `AuthProvider::check` for a subscribe context, and the
-- HMAC, base64 and clock that signed URLs are verified with.
structure LivePlaybackAuth where
  scheme : LiveScheme
  hmacSecret : Option Bytes
  check : Option (List Char) → Bytes → Except String Unit
  computeSignature : Bytes → Bytes → Bytes
  decodeBase64 : List Char → Option Bytes
  now : Nat

def extractQueryParam (query key : List Char) : Option (List Char) :=
  (query.splitOn '&').findSome? fun pair =>
    match Text.splitOnce '=' pair with
    | some (name, value) => if name = key ∧ value ≠ [] then some value else none
    | none => none

def extractLivePlaybackToken (request : Request) : Option (List Char) :=
  match request.authorization.bind (Text.stripPrefix "Bearer ".toList) with
  | some (char :: token) => some (char :: token)
  | _ => extractQueryParam request.query "token".toList

-- The last slash of the raw path separates the broadcast from the file.
def splitBroadcastPath (path : Bytes) : Option (Bytes × Bytes) :=
  match splitLast path with
  | some (broadcast, tail) => if broadcast = [] ∨ tail = [] then none else some (broadcast, tail)
  | none => none

def extractLivePlaybackBroadcast (path : Bytes) : Option Bytes :=
  ((stripPrefix (LiveScheme.mount .hls) path).or (stripPrefix (LiveScheme.mount .dash) path)).bind fun rest =>
    (splitBroadcastPath rest).map Prod.fst

inductive SignedUrlCheck where
  | allow
  | deny (reason : String)
  | notAttempted

def liveSignedInput (scheme : LiveScheme) (broadcast : Bytes) (exp : Nat) : Bytes :=
  ascii scheme.asStr ++ ascii ":" ++ broadcast ++ ascii "?exp=" ++ ascii (toString exp)

def verifyLiveSignedUrl (auth : LivePlaybackAuth) (secret broadcast : Bytes) (sig : Option (List Char))
    (exp : Option Nat) : SignedUrlCheck :=
  match sig, exp with
  | some sig, some exp =>
      if exp ≤ auth.now then .deny "signed URL expired"
      else
        match auth.decodeBase64 sig with
        | none => .deny "signed URL malformed"
        | some provided =>
            if provided = auth.computeSignature secret (liveSignedInput auth.scheme broadcast exp) then .allow
            else .deny "signed URL signature invalid"
  | _, _ => .notAttempted

-- A request passes with the broadcast that was checked for it, if one was.
inductive Verdict where
  | pass (checked : Option Bytes)
  | refused (status : Nat) (reason : String)

def subscribeGate (auth : LivePlaybackAuth) (request : Request) (broadcast : Bytes) : Verdict :=
  match auth.check (extractLivePlaybackToken request) broadcast with
  | .ok _ => .pass (some broadcast)
  | .error reason => .refused 401 reason

def livePlaybackAuthMiddleware (auth : LivePlaybackAuth) (request : Request) : Verdict :=
  match extractLivePlaybackBroadcast request.path with
  | none => .pass none
  | some broadcast =>
      match auth.hmacSecret with
      | none => subscribeGate auth request broadcast
      | some secret =>
          let exp := (extractQueryParam request.query "exp".toList).bind (Text.parseUnsigned (2 ^ 64))
          match verifyLiveSignedUrl auth secret broadcast (extractQueryParam request.query "sig".toList) exp with
          | .allow => .pass (some broadcast)
          | .deny reason => .refused 403 reason
          | .notAttempted => subscribeGate auth request broadcast

inductive Reply where
  | data (broadcast : Bytes)
  | noData
  | notFound (reason : Bytes)
  | redirect (location : Bytes)
  | badRequest
  | refused (status : Nat) (reason : String)
deriving DecidableEq

-- A server is known by the files it has data for.
abbrev Files := Bytes → Bool

structure MultiHlsServer where
  video : Bytes → Option Files
  audio : Bytes → Option Files
  subtitles : Bytes → Option Files
  ownerResolver : Bytes → Option Bytes

structure MultiDashServer where
  get : Bytes → Option Files
  ownerResolver : Bytes → Option Bytes

def redirectToOwner (scheme : LiveScheme) (base path : Bytes) : Reply :=
  .redirect ((base.reverse.dropWhile (· == slash)).reverse ++ scheme.mount ++ path)

def answer (server : Files) (broadcast tail : Bytes) : Reply := if server tail then .data broadcast else .noData

def MASTER : Bytes := ascii "master.m3u8"

def CAPTIONS : Bytes := slash :: ascii "captions"

def handleMasterPlaylist (multi : MultiHlsServer) (broadcast : Bytes) : Reply :=
  match multi.video broadcast with
  | some _ => .data broadcast
  | none => .notFound (ascii "unknown broadcast " ++ broadcast)

def handleCaptions (multi : MultiHlsServer) (broadcast tail : Bytes) : Reply :=
  match multi.subtitles broadcast with
  | some server => if server tail then .data broadcast else .notFound (ascii "unknown captions URI " ++ tail)
  | none => .notFound (ascii "unknown captions rendition for broadcast " ++ broadcast)

def handleRendition (multi : MultiHlsServer) (broadcast tail : Bytes) : Reply :=
  let fromAudio : Bool := tail = ascii "audio.m3u8" || tail = ascii "audio-init.mp4" || (ascii "audio-").isPrefixOf tail
  match if fromAudio then multi.audio broadcast else multi.video broadcast with
  | some server => answer server broadcast tail
  | none =>
      .notFound (ascii "unknown " ++ ascii (if fromAudio then "audio" else "video") ++
        ascii " rendition for broadcast " ++ broadcast)

def MultiHlsServer.handleMultiGet (multi : MultiHlsServer) (path : Bytes) : Reply :=
  match splitBroadcastPath path with
  | none => .notFound (ascii "malformed hls path")
  | some (broadcast, tail) =>
      let known := (multi.video broadcast).isSome || (multi.audio broadcast).isSome || (multi.subtitles broadcast).isSome
      match if known then none else multi.ownerResolver broadcast with
      | some base => redirectToOwner .hls base path
      | none =>
          if tail = MASTER then handleMasterPlaylist multi broadcast
          else
            match stripSuffix CAPTIONS broadcast with
            | some realBroadcast => handleCaptions multi realBroadcast tail
            | none => handleRendition multi broadcast tail

def MultiDashServer.handleMultiGet (multi : MultiDashServer) (path : Bytes) : Reply :=
  match splitBroadcastPath path with
  | none => .notFound (ascii "malformed dash path")
  | some (broadcast, tail) =>
      match multi.get broadcast with
      | some server => answer server broadcast tail
      | none =>
          match multi.ownerResolver broadcast with
          | some base => redirectToOwner .dash base path
          | none => .notFound (ascii "unknown broadcast " ++ broadcast)

structure Site where
  hls : MultiHlsServer
  dash : MultiDashServer

def Site.handleMultiGet (site : Site) : LiveScheme → Bytes → Reply
  | .hls, path => site.hls.handleMultiGet path
  | .dash, path => site.dash.handleMultiGet path

-- The router matches its wildcard on the raw path and decodes what it captured.
def Site.route (site : Site) (scheme : LiveScheme) (path : Bytes) : Reply :=
  match stripPrefix scheme.mount path with
  | none => .notFound []
  | some [] => .notFound []
  | some captured =>
      let decoded := Percent.decode captured
      if (Utf8.decode decoded).isSome then site.handleMultiGet scheme decoded else .badRequest

structure Exchange where
  checked : Option Bytes
  reply : Reply

def respond (auth : LivePlaybackAuth) (site : Site) (request : Request) : Exchange :=
  match livePlaybackAuthMiddleware auth request with
  | .pass checked => ⟨checked, site.route auth.scheme request.path⟩
  | .refused status reason => ⟨none, .refused status reason⟩

end Lvqr.Playback
