import Lvqr.Lib.Text

set_option autoImplicit false

-- What an auth provider is asked, what it answers, and the JWT provider.
namespace Lvqr.Auth

inductive AuthContext where
  | publish (app key : String) (broadcast : Option String)
  | subscribe (token : Option String) (broadcast : String)
  | admin (token : String)
deriving DecidableEq, Repr

inductive AuthScope where
  | subscribe
  | publish
  | admin
deriving DecidableEq, Repr

namespace AuthScope

def includes : AuthScope → AuthScope → Bool
  | .admin, _ => true
  | .publish, .publish => true
  | .publish, .subscribe => true
  | .subscribe, .subscribe => true
  | _, _ => false

def debug : AuthScope → String
  | .subscribe => "Subscribe"
  | .publish => "Publish"
  | .admin => "Admin"

end AuthScope

inductive AuthDecision where
  | allow
  | deny (reason : String)
deriving DecidableEq, Repr

abbrev AuthProvider := AuthContext → AuthDecision

structure JwtClaims where
  scope : AuthScope
  broadcast : Option String
deriving DecidableEq, Repr

def decideClaims (claims : JwtClaims) (requiredScope : AuthScope) (broadcastFilter : Option String) : AuthDecision :=
  if claims.scope.includes requiredScope = false then
    .deny ("token scope " ++ claims.scope.debug ++ " insufficient for " ++ requiredScope.debug)
  else
    match claims.broadcast, broadcastFilter with
    | some filter, some broadcast =>
        if filter ≠ broadcast then .deny "token bound to different broadcast" else .allow
    | _, _ => .allow

def decideToken (decoded : Except String JwtClaims) (requiredScope : AuthScope) (broadcastFilter : Option String) :
    AuthDecision :=
  match decoded with
  | .ok claims => decideClaims claims requiredScope broadcastFilter
  | .error error => .deny ("jwt decode failed: " ++ error)

-- Signature and expiry are checked where the token is decoded.
def jwtCheck (decode : String → Except String JwtClaims) : AuthProvider
  | .publish _ key broadcast => decideToken (decode key) .publish broadcast
  | .subscribe none _ => .deny "subscribe token missing"
  | .subscribe (some token) broadcast => decideToken (decode token) .subscribe (some broadcast)
  | .admin token => decideToken (decode token) .admin none

end Lvqr.Auth

-- How the credentials and the broadcast name of a publisher are read from what
-- its protocol carries.
namespace Lvqr.Auth

def parseBearer (header : Option String) : Option String :=
  match header with
  | none => none
  | some header =>
      let raw := Text.trim header.toList
      match (Text.stripPrefix "Bearer ".toList raw).or
          ((Text.stripPrefix "bearer ".toList raw).or (Text.stripPrefix "BEARER ".toList raw)) with
      | none => none
      | some rest =>
          let token := Text.trim rest
          if token = [] then none else some (String.ofList token)

-- Entries without an equals sign are left out.
def parseSrtStreamid (streamid : String) : List (String × String) :=
  let raw := Text.trim streamid.toList
  let trimmed := (Text.stripPrefix "#!::".toList raw).getD raw
  ((trimmed.splitOn ',').filterMap (Text.splitOnce '=')).map fun (key, value) =>
    (String.ofList (Text.trim key), String.ofList (Text.trim value))

def streamidGet (kv : List (String × String)) (key : String) : Option String :=
  (kv.find? (·.1 = key)).map Prod.snd

def extractSrt (streamid : String) : AuthContext :=
  let kv := parseSrtStreamid streamid
  .publish "srt" ((streamidGet kv "t").getD "") (streamidGet kv "r")

def extractRtsp (broadcast : String) (authorization : Option String) : AuthContext :=
  .publish "rtsp" ((parseBearer authorization).getD "") (some broadcast)

def AuthContext.Names (context : AuthContext) (broadcast : String) : Prop :=
  ∃ app key, context = .publish app key (some broadcast)

def AllowedName (allowed : List AuthContext) (broadcast : String) : Prop :=
  ∃ context ∈ allowed, context.Names broadcast

theorem publish_names_iff (app key broadcast : String) (named : Option String) :
    (AuthContext.publish app key named).Names broadcast ↔ named = some broadcast := by
  constructor
  · rintro ⟨_, _, same⟩
    cases same
    rfl
  · rintro rfl
    exact ⟨app, key, rfl⟩

theorem extract_rtsp_names (broadcast : String) (authorization : Option String) :
    (extractRtsp broadcast authorization).Names broadcast :=
  (publish_names_iff _ _ _ _).mpr rfl

-- The stream id has an `r` value that is not empty.
def NamesBroadcast (streamid : String) : Prop := ∃ broadcast ∈ streamidGet (parseSrtStreamid streamid) "r", broadcast ≠ ""

example : parseSrtStreamid "#!::r=live/cam1, m=publish,t=TOK,flag" =
    [("r", "live/cam1"), ("m", "publish"), ("t", "TOK")] := by decide +kernel

end Lvqr.Auth
