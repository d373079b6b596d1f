import Lvqr.Auth.Provider
import Lvqr.Lib.Machine
import Lvqr.Lib.Table

set_option autoImplicit false

-- The JWKS provider: a key cache that a refresh task replaces while tokens are checked.
namespace Lvqr.Auth.Jwks

inductive Algorithm where
  | hs256 | hs384 | hs512
  | rs256 | rs384 | rs512
  | ps256 | ps384 | ps512
  | es256 | es384
  | edDSA
deriving DecidableEq, Repr

namespace Algorithm

def debug : Algorithm → String
  | hs256 => "HS256" | hs384 => "HS384" | hs512 => "HS512"
  | rs256 => "RS256" | rs384 => "RS384" | rs512 => "RS512"
  | ps256 => "PS256" | ps384 => "PS384" | ps512 => "PS512"
  | es256 => "ES256" | es384 => "ES384"
  | edDSA => "EdDSA"

def isSymmetric : Algorithm → Bool
  | hs256 | hs384 | hs512 => true
  | _ => false

end Algorithm

inductive EllipticCurve where
  | p256 | p384 | p521 | ed25519
deriving DecidableEq, Repr

inductive AlgorithmParameters where
  | rsa
  | ellipticCurve (curve : EllipticCurve)
  | octetKeyPair (curve : EllipticCurve)
  | octetKey
deriving DecidableEq, Repr

-- The `alg` values an RSA key may be declared for.
inductive KeyAlgorithm where
  | rs256 | rs384 | rs512 | ps256 | ps384 | ps512
  | other
deriving DecidableEq, Repr

-- `material` is what `DecodingKey::from_jwk` makes of the key, if anything.
structure Jwk (Key : Type) where
  keyId : Option String
  algorithm : AlgorithmParameters
  keyAlgorithm : Option KeyAlgorithm
  material : Option Key

structure JwtHeader where
  alg : Algorithm
  kid : Option String
deriving DecidableEq, Repr

-- The token library: a header is read without a check; `decode` checks signature,
-- issuer, audience and expiry.
structure Jsonwebtoken (Key : Type) where
  decodeHeader : String → Except String JwtHeader
  decode : String → Key → Algorithm → Option String → Option String → Nat → Except String JwtClaims

-- Durations are in milliseconds.
structure JwksAuthConfig where
  jwksUrl : String
  issuer : Option String
  audience : Option String
  refreshInterval : Nat
  allowedAlgs : List Algorithm
deriving DecidableEq, Repr

def defaultAllowedAlgs : List Algorithm := [.rs256, .es256, .edDSA]

def checkAlgs : List Algorithm → Except String Unit
  | [] => .ok ()
  | alg :: rest =>
      if alg.isSymmetric then .error ("HS* symmetric algorithm " ++ alg.debug ++ " cannot be used with JWKS")
      else checkAlgs rest

-- `scheme` is what the URL parser makes of the URL.
def validateConfig (scheme : String → Except String String) (cfg : JwksAuthConfig) : Except String Unit :=
  if cfg.jwksUrl = "" then .error "JWKS URL is empty"
  else
    match scheme cfg.jwksUrl with
    | .error error => .error ("JWKS URL parse failed: " ++ error)
    | .ok scheme =>
        if scheme ≠ "http" ∧ scheme ≠ "https" then
          .error ("JWKS URL must be http(s), got scheme \"" ++ scheme ++ "\"")
        else if cfg.refreshInterval < 10000 then
          .error ("refresh interval " ++ toString (cfg.refreshInterval / 1000) ++ "s too small (minimum 10s)")
        else if cfg.allowedAlgs = [] then .error "allowed_algs is empty"
        else checkAlgs cfg.allowedAlgs

section Provider

variable {Key : Type}

structure CacheEntry (Key : Type) where
  key : Key
  alg : Algorithm

def algorithmFor (jwk : Jwk Key) : Option Algorithm :=
  match jwk.algorithm with
  | .rsa =>
      match jwk.keyAlgorithm with
      | some .rs256 => some .rs256
      | some .rs384 => some .rs384
      | some .rs512 => some .rs512
      | some .ps256 => some .ps256
      | some .ps384 => some .ps384
      | some .ps512 => some .ps512
      | _ => none
  | .ellipticCurve .p256 => some .es256
  | .ellipticCurve .p384 => some .es384
  | .ellipticCurve _ => none
  | .octetKeyPair .ed25519 => some .edDSA
  | .octetKeyPair _ => none
  | .octetKey => none

def cacheKey (out : Table String (CacheEntry Key)) (jwk : Jwk Key) : Table String (CacheEntry Key) :=
  match jwk.keyId with
  | none => out
  | some kid =>
      match algorithmFor jwk with
      | none => out
      | some alg =>
          match jwk.material with
          | none => out
          | some key => out.insert kid ⟨key, alg⟩

-- `fetched` is the key set the endpoint served, or why there is none.
def fetchAndParse (fetched : Except String (List (Jwk Key))) : Except String (Table String (CacheEntry Key)) :=
  match fetched with
  | .error error => .error error
  | .ok keys =>
      let out := keys.foldl cacheKey ∅
      if out.entries = [] then .error "JWKS contains no usable keys" else .ok out

inductive Selection (Key : Type) where
  | selected (entry : CacheEntry Key)
  | unknownKid (kid : String)
  | ambiguous

def selectKey (cache : Table String (CacheEntry Key)) (header : JwtHeader) : Selection Key :=
  match header.kid with
  | some kid =>
      match cache.lookup kid with
      | some entry => .selected entry
      | none => .unknownKid kid
  | none =>
      match cache.entries with
      | [entry] => .selected entry.2
      | _ => .ambiguous

-- The claims of a token, and whether the refresh task is to be notified.
def decodeToken (lib : Jsonwebtoken Key) (config : JwksAuthConfig) (cache : Table String (CacheEntry Key)) (token : String)
    (now : Nat) : Except String JwtClaims × Bool :=
  match lib.decodeHeader token with
  | .error error => (.error error, false)
  | .ok header =>
      if header.alg ∉ config.allowedAlgs then
        (.error ("algorithm " ++ header.alg.debug ++ " not in allowed set"), false)
      else
        match selectKey cache header with
        | .unknownKid kid => (.error ("kid not found in jwks cache: " ++ kid), true)
        | .ambiguous => (.error "token header missing kid and jwks has multiple keys", false)
        | .selected entry =>
            if entry.alg ≠ header.alg then
              (.error ("algorithm mismatch: header=" ++ header.alg.debug ++ " jwk=" ++ entry.alg.debug), false)
            else (lib.decode token entry.key header.alg config.issuer config.audience now, false)

def decideJwks (decoded : Except String JwtClaims) (requiredScope : AuthScope) (broadcastFilter : Option String) :
    AuthDecision :=
  match decoded with
  | .ok claims => decideClaims claims requiredScope broadcastFilter
  | .error error => .deny ("jwks decode failed: invalid token: " ++ error)

-- The decision, and whether the refresh task is to be notified.
def check (lib : Jsonwebtoken Key) (config : JwksAuthConfig) (cache : Table String (CacheEntry Key)) (now : Nat) :
    AuthContext → AuthDecision × Bool
  | .publish _ key broadcast =>
      let (decoded, missed) := decodeToken lib config cache key now
      (decideJwks decoded .publish broadcast, missed)
  | .subscribe none _ => (.deny "subscribe token missing", false)
  | .subscribe (some token) broadcast =>
      let (decoded, missed) := decodeToken lib config cache token now
      (decideJwks decoded .subscribe (some broadcast), missed)
  | .admin token =>
      let (decoded, missed) := decodeToken lib config cache token now
      (decideJwks decoded .admin none, missed)

-- `served` is ghost state: what each finished fetch came to, the last one first.
structure JwksAuthProvider (Key : Type) where
  cache : Table String (CacheEntry Key)
  permit : Bool
  fetching : Bool
  served : List (Except String (List (Jwk Key)))

inductive JwksOp (Key : Type) where
  | check (ctx : AuthContext) (now : Nat)
  | tick
  | notified
  | fetched (outcome : Except String (List (Jwk Key)))

def new (scheme : String → Except String String) (config : JwksAuthConfig)
    (outcome : Except String (List (Jwk Key))) : Except String (JwksAuthProvider Key) :=
  match validateConfig scheme config with
  | .error error => .error error
  | .ok () =>
      match fetchAndParse outcome with
      | .error error => .error error
      | .ok keys => .ok ⟨keys, false, false, [outcome]⟩

-- A failed fetch keeps the cached keys. A notification while a fetch is under way
-- is kept as a permit.
def step (lib : Jsonwebtoken Key) (config : JwksAuthConfig) (state : JwksAuthProvider Key) :
    JwksOp Key → JwksAuthProvider Key
  | .check ctx now =>
      if (check lib config state.cache now ctx).2 then { state with permit := true } else state
  | .tick => if state.fetching then state else { state with fetching := true }
  | .notified =>
      if state.fetching = false ∧ state.permit = true then { state with fetching := true, permit := false } else state
  | .fetched outcome =>
      if state.fetching then
        let state := { state with fetching := false, served := outcome :: state.served }
        match fetchAndParse outcome with
        | .ok keys => { state with cache := keys }
        | .error _ => state
      else state

end Provider

end Lvqr.Auth.Jwks

-- The key that a provider verifies a token with, as a function of the key sets its
-- endpoint has served.
namespace Lvqr.Auth.Jwks

variable {Key : Type}

def usable (jwk : Jwk Key) : Option (String × CacheEntry Key) :=
  match jwk.keyId, algorithmFor jwk, jwk.material with
  | some kid, some alg, some key => some (kid, ⟨key, alg⟩)
  | _, _, _ => none

-- The last usable key of a set that carries the id.
def keyNamed (keys : List (Jwk Key)) (kid : String) : Option (CacheEntry Key) :=
  (Table.valuesOf (keys.filterMap usable) kid).getLast?

def tableOf (keys : List (Jwk Key)) : Table String (CacheEntry Key) := Table.insertAll (keys.filterMap usable)

theorem lookup_table_of (keys : List (Jwk Key)) (kid : String) : (tableOf keys).lookup kid = keyNamed keys kid :=
  Table.lookup_insert_all _ _

theorem cache_key_usable (out : Table String (CacheEntry Key)) (jwk : Jwk Key) :
    cacheKey out jwk =
      match usable jwk with
      | none => out
      | some entry => out.insert entry.1 entry.2 := by
  obtain ⟨kid, algorithm, keyAlgorithm, material⟩ := jwk
  unfold cacheKey usable
  cases kid with
  | none => rfl
  | some kid =>
      dsimp only
      cases algorithmFor ⟨some kid, algorithm, keyAlgorithm, material⟩ with
      | none => rfl
      | some alg =>
          cases material with
          | none => rfl
          | some key => rfl

theorem fold_cache_key (keys : List (Jwk Key)) : keys.foldl cacheKey ∅ = tableOf keys := by
  induction keys using List.reverseRecOn with
  | nil => rfl
  | append_singleton keys jwk ih =>
      rw [List.foldl_append, List.foldl_cons, List.foldl_nil, ih, cache_key_usable, tableOf, tableOf,
        List.filterMap_append]
      cases here : usable jwk with
      | none => simp [here]
      | some entry => simp [here, Table.insertAll]

def goodSet : Except String (List (Jwk Key)) → Option (List (Jwk Key))
  | .ok keys => if (keys.filterMap usable).isEmpty then none else some keys
  | .error _ => none

-- The key set of the last fetch that brought a usable key.
def lastGood (served : List (Except String (List (Jwk Key)))) : Option (List (Jwk Key)) := served.findSome? goodSet

theorem table_of_empty_iff (keys : List (Jwk Key)) : (tableOf keys).entries = [] ↔ keys.filterMap usable = [] := by
  rw [Table.empty_iff]
  constructor
  · intro absent
    rcases usables : keys.filterMap usable with _ | ⟨entry, rest⟩
    · rfl
    · have member : entry.2 ∈ Table.valuesOf (keys.filterMap usable) entry.1 := by
        rw [Table.mem_values_of, usables]
        exact List.mem_cons_self
      have none : keyNamed keys entry.1 = none := by rw [← lookup_table_of, absent]
      rw [List.getLast?_eq_none_iff.mp none] at member
      cases member
  · intro none key
    rw [tableOf, none]
    rfl

theorem fetch_and_parse_good {outcome : Except String (List (Jwk Key))} {table : Table String (CacheEntry Key)}
    (parsed : fetchAndParse outcome = .ok table) : ∃ keys, goodSet outcome = some keys ∧ table = tableOf keys := by
  cases outcome with
  | error error => cases parsed
  | ok keys =>
      simp only [fetchAndParse] at parsed
      rw [fold_cache_key] at parsed
      split at parsed
      · cases parsed
      · rename_i present
        rw [table_of_empty_iff] at present
        refine ⟨keys, ?_, (Except.ok.inj parsed).symm⟩
        rw [goodSet, if_neg (mt List.isEmpty_iff.mp present)]

theorem fetch_and_parse_bad {outcome : Except String (List (Jwk Key))} {error : String}
    (failed : fetchAndParse outcome = .error error) : goodSet outcome = none := by
  cases outcome with
  | error error => rfl
  | ok keys =>
      simp only [fetchAndParse] at failed
      rw [fold_cache_key] at failed
      split at failed
      · rename_i absent
        rw [goodSet, if_pos (List.isEmpty_iff.mpr ((table_of_empty_iff keys).mp absent))]
      · cases failed

def Cached (state : JwksAuthProvider Key) : Prop := (lastGood state.served).map tableOf = some state.cache

theorem step_cached (lib : Jsonwebtoken Key) (config : JwksAuthConfig) (state : JwksAuthProvider Key) (op : JwksOp Key)
    (cached : Cached state) : Cached (step lib config state op) := by
  cases op with
  | check ctx now =>
      rw [step]
      split
      · exact cached
      · exact cached
  | tick =>
      rw [step]
      split
      · exact cached
      · exact cached
  | notified =>
      rw [step]
      split
      · exact cached
      · exact cached
  | fetched outcome =>
      rw [step]
      split
      · cases parsed : fetchAndParse outcome with
        | ok table =>
            obtain ⟨keys, good, rfl⟩ := fetch_and_parse_good parsed
            simp [Cached, lastGood, good]
        | error error =>
            have bad := fetch_and_parse_bad parsed
            dsimp only
            rw [Cached, lastGood, List.findSome?_cons, bad]
            exact cached
      · exact cached

theorem new_cached {scheme : String → Except String String} {config : JwksAuthConfig}
    {outcome : Except String (List (Jwk Key))} {start : JwksAuthProvider Key}
    (opened : new scheme config outcome = .ok start) : Cached start ∧ validateConfig scheme config = .ok () := by
  rw [new] at opened
  split at opened
  · cases opened
  · rename_i valid
    split at opened
    · cases opened
    · rename_i table parsed
      obtain ⟨keys, good, rfl⟩ := fetch_and_parse_good parsed
      cases opened
      exact ⟨by simp [Cached, lastGood, good], valid⟩

theorem check_algs_asymmetric (algs : List Algorithm) (checked : checkAlgs algs = .ok ()) :
    ∀ alg ∈ algs, alg.isSymmetric = false := by
  induction algs with
  | nil =>
      intro alg member
      cases member
  | cons alg algs ih =>
      rw [checkAlgs] at checked
      split at checked
      · cases checked
      · rename_i asymmetric
        intro other member
        cases List.mem_cons.mp member with
        | inl same =>
            rw [same]
            exact Bool.eq_false_iff.mpr asymmetric
        | inr later => exact ih checked other later

theorem validate_config_asymmetric {scheme : String → Except String String} {config : JwksAuthConfig}
    (valid : validateConfig scheme config = .ok ()) : ∀ alg ∈ config.allowedAlgs, alg.isSymmetric = false := by
  rw [validateConfig] at valid
  split at valid
  · cases valid
  · split at valid
    · cases valid
    · repeat' split at valid
      · cases valid
      · cases valid
      · cases valid
      · exact check_algs_asymmetric _ valid

-- Without a key id, the set must hold a single id.
def Chosen (keys : List (Jwk Key)) (kid : Option String) (entry : CacheEntry Key) : Prop :=
  match kid with
  | some kid => keyNamed keys kid = some entry
  | none => ∃ kid, keyNamed keys kid = some entry ∧ ∀ other, other ≠ kid → keyNamed keys other = none

theorem select_key_iff (keys : List (Jwk Key)) (header : JwtHeader) (entry : CacheEntry Key) :
    selectKey (tableOf keys) header = .selected entry ↔ Chosen keys header.kid entry := by
  obtain ⟨alg, kid⟩ := header
  rw [selectKey]
  cases kid with
  | some kid =>
      dsimp only
      rw [lookup_table_of, Chosen]
      cases keyNamed keys kid with
      | none => simp
      | some other => simp
  | none =>
      dsimp only [Chosen]
      simp only [← lookup_table_of, ← Table.singleton_iff]
      rcases entries : (tableOf keys).entries with _ | ⟨⟨kid, sole⟩, _ | ⟨second, rest⟩⟩
      · simp
      · simp
      · simp

def credential : AuthContext → Option String
  | .publish _ key _ => some key
  | .subscribe token _ => token
  | .admin token => some token

def requiredScope : AuthContext → AuthScope
  | .publish _ _ _ => .publish
  | .subscribe _ _ => .subscribe
  | .admin _ => .admin

def broadcastNamed : AuthContext → Option String
  | .publish _ _ broadcast => broadcast
  | .subscribe _ broadcast => some broadcast
  | .admin _ => none

theorem decide_claims_iff (claims : JwtClaims) (required : AuthScope) (named : Option String) :
    decideClaims claims required named = .allow ↔
      claims.scope.includes required = true ∧ ∀ bound ∈ claims.broadcast, ∀ broadcast ∈ named, bound = broadcast := by
  obtain ⟨scope, bound⟩ := claims
  unfold decideClaims
  cases covers : scope.includes required with
  | false => simp
  | true =>
      cases bound with
      | none => simp
      | some bound =>
          cases named with
          | none => simp
          | some broadcast =>
              by_cases same : bound = broadcast
              · simp [same]
              · simp [same]

theorem check_allows_iff (lib : Jsonwebtoken Key) (config : JwksAuthConfig) (cache : Table String (CacheEntry Key))
    (now : Nat) (context : AuthContext) :
    (check lib config cache now context).1 = .allow ↔
      ∃ token claims, credential context = some token ∧ (decodeToken lib config cache token now).1 = .ok claims ∧
        claims.scope.includes (requiredScope context) = true ∧
        ∀ bound ∈ claims.broadcast, ∀ broadcast ∈ broadcastNamed context, bound = broadcast := by
  have decided : ∀ (decoded : Except String JwtClaims) required named, decideJwks decoded required named = .allow ↔
      ∃ claims, decoded = .ok claims ∧ claims.scope.includes required = true ∧
        ∀ bound ∈ claims.broadcast, ∀ broadcast ∈ named, bound = broadcast := by
    intro decoded required named
    cases decoded with
    | error error => simp [decideJwks]
    | ok claims => simp [decideJwks, decide_claims_iff]
  cases context with
  | publish app key broadcast => simp [check, credential, requiredScope, broadcastNamed, decided]
  | subscribe token broadcast =>
      cases token with
      | none => simp [check, credential]
      | some token => simp [check, credential, requiredScope, broadcastNamed, decided]
  | admin token => simp [check, credential, requiredScope, broadcastNamed, decided]

theorem decode_token_iff (lib : Jsonwebtoken Key) (config : JwksAuthConfig) (keys : List (Jwk Key)) (token : String)
    (now : Nat) (claims : JwtClaims) :
    (decodeToken lib config (tableOf keys) token now).1 = .ok claims ↔
      ∃ header entry, lib.decodeHeader token = .ok header ∧ header.alg ∈ config.allowedAlgs ∧
        Chosen keys header.kid entry ∧ entry.alg = header.alg ∧
        lib.decode token entry.key header.alg config.issuer config.audience now = .ok claims := by
  rw [decodeToken]
  cases lib.decodeHeader token with
  | error error => simp
  | ok header =>
      by_cases allowed : header.alg ∈ config.allowedAlgs
      · simp only [allowed, not_true_eq_false, ↓reduceIte, ← select_key_iff]
        cases selected : selectKey (tableOf keys) header with
        | unknownKid kid => simp [selected]
        | ambiguous => simp [selected]
        | selected entry =>
            by_cases same : entry.alg = header.alg
            · simp [selected, same, allowed]
            · simp [selected, same]
      · simp [allowed]

-- A token that names the key `a`, and a library that knows its signature under the
-- key material 7.
def cameraToken : String := "eyJhbGciOiJFUzI1NiIsImtpZCI6ImEifQ.e30.c2ln"

def cameraTokens : Jsonwebtoken Nat where
  decodeHeader token := if token = cameraToken then .ok ⟨.es256, some "a"⟩ else .error "InvalidToken"
  decode token key alg _ _ _ :=
    if token = cameraToken ∧ key = 7 ∧ alg = .es256 then .ok ⟨.publish, some "live/cam"⟩ else .error "InvalidSignature"

def cameraConfig : JwksAuthConfig where
  jwksUrl := "https://idp.example/jwks.json"
  issuer := none
  audience := none
  refreshInterval := 10000
  allowedAlgs := defaultAllowedAlgs

def cameraKeys (kid : String) : List (Jwk Nat) := [⟨some kid, .ellipticCurve .p256, none, some 7⟩]

def cameraProvider (kid : String) : JwksAuthProvider Nat where
  cache := tableOf (cameraKeys kid)
  permit := false
  fetching := false
  served := [.ok (cameraKeys kid)]

-- In every state of every run, a request is allowed iff its token passes with a key
-- of the last good set.
theorem verified_by_last_good (scheme : String → Except String String) (lib : Jsonwebtoken Key) (config : JwksAuthConfig)
    (outcome : Except String (List (Jwk Key))) (start : JwksAuthProvider Key)
    (opened : new scheme config outcome = .ok start) (ops : List (JwksOp Key)) (context : AuthContext) (now : Nat) :
    ∃ keys, lastGood (Machine.run (step lib config) start ops).served = some keys ∧
      ((check lib config (Machine.run (step lib config) start ops).cache now context).1 = .allow ↔
        ∃ token header entry claims, credential context = some token ∧ lib.decodeHeader token = .ok header ∧
          header.alg ∈ config.allowedAlgs ∧ header.alg.isSymmetric = false ∧ Chosen keys header.kid entry ∧
          entry.alg = header.alg ∧
          lib.decode token entry.key header.alg config.issuer config.audience now = .ok claims ∧
          claims.scope.includes (requiredScope context) = true ∧
          ∀ bound ∈ claims.broadcast, ∀ broadcast ∈ broadcastNamed context, bound = broadcast) := by
  obtain ⟨first, valid⟩ := new_cached opened
  have cached := Machine.invariant_of_run (step_cached lib config) start ops first
  obtain ⟨keys, good, table⟩ := Option.map_eq_some_iff.mp cached
  refine ⟨keys, good, ?_⟩
  rw [check_allows_iff, ← table]
  simp only [decode_token_iff]
  constructor
  · rintro ⟨token, claims, given, ⟨header, entry, decoded, allowed, chosen, same, verified⟩, covers, bound⟩
    exact ⟨token, header, entry, claims, given, decoded, allowed, validate_config_asymmetric valid _ allowed, chosen, same,
      verified, covers, bound⟩
  · rintro ⟨token, header, entry, claims, given, decoded, allowed, _, chosen, same, verified, covers, bound⟩
    exact ⟨token, claims, given, ⟨header, entry, decoded, allowed, chosen, same, verified⟩, covers, bound⟩

theorem rotated_key_verified :
    ∃ keys, lastGood (Machine.run (step cameraTokens cameraConfig) (cameraProvider "b")
        [.tick, .fetched (.ok (cameraKeys "a")), .tick, .fetched (.error "timeout")]).served = some keys ∧
      ((check cameraTokens cameraConfig (Machine.run (step cameraTokens cameraConfig) (cameraProvider "b")
          [.tick, .fetched (.ok (cameraKeys "a")), .tick, .fetched (.error "timeout")]).cache 0
          (.publish "whip" cameraToken (some "live/cam"))).1 = .allow ↔
        ∃ token header entry claims, credential (.publish "whip" cameraToken (some "live/cam")) = some token ∧
          cameraTokens.decodeHeader token = .ok header ∧ header.alg ∈ cameraConfig.allowedAlgs ∧
          header.alg.isSymmetric = false ∧ Chosen keys header.kid entry ∧ entry.alg = header.alg ∧
          cameraTokens.decode token entry.key header.alg none none 0 = .ok claims ∧
          claims.scope.includes .publish = true ∧
          ∀ bound ∈ claims.broadcast, ∀ broadcast ∈ some "live/cam", bound = broadcast) :=
  verified_by_last_good (fun _ => .ok "https") cameraTokens cameraConfig (.ok (cameraKeys "b")) (cameraProvider "b") rfl
    [.tick, .fetched (.ok (cameraKeys "a")), .tick, .fetched (.error "timeout")]
    (.publish "whip" cameraToken (some "live/cam")) 0

-- The step starts no fetch.
def Quiet (lib : Jsonwebtoken Key) (config : JwksAuthConfig) (state : JwksAuthProvider Key) (op : JwksOp Key) : Prop :=
  (step lib config state op).fetching = true → state.fetching = true

theorem quiet_keeps_permit (lib : Jsonwebtoken Key) (config : JwksAuthConfig) (state : JwksAuthProvider Key)
    (op : JwksOp Key) (pending : state.permit = true) (quiet : Quiet lib config state op) :
    (step lib config state op).permit = true := by
  unfold Quiet at quiet
  cases op with
  | check ctx now =>
      rw [step]
      split
      · rfl
      · exact pending
  | tick =>
      rw [step]
      split
      · exact pending
      · exact pending
  | notified =>
      rw [step] at quiet ⊢
      split
      · rename_i woken
        rw [if_pos woken] at quiet
        rw [woken.1] at quiet
        cases quiet rfl
      · exact pending
  | fetched outcome =>
      rw [step]
      split
      · split
        · exact pending
        · exact pending
      · exact pending

theorem fetched_good (lib : Jsonwebtoken Key) (config : JwksAuthConfig) (state : JwksAuthProvider Key)
    (keys : List (Jwk Key)) (fetching : state.fetching = true) (present : keys.filterMap usable ≠ []) :
    (step lib config state (.fetched (.ok keys))).cache = tableOf keys := by
  have parsed : fetchAndParse (.ok keys) = .ok (tableOf keys) := by
    simp only [fetchAndParse]
    rw [fold_cache_key, if_neg (mt (table_of_empty_iff keys).mp present)]
  rw [step, if_pos fetching]
  dsimp only
  rw [parsed]

-- The rest of a fetch that was already under way.
def settle (state : JwksAuthProvider Key) (outcome : Except String (List (Jwk Key))) : List (JwksOp Key) :=
  if state.fetching then [.fetched outcome] else []

theorem settled (lib : Jsonwebtoken Key) (config : JwksAuthConfig) (state : JwksAuthProvider Key)
    (outcome : Except String (List (Jwk Key))) (pending : state.permit = true) :
    (Machine.run (step lib config) state (settle state outcome)).fetching = false ∧
      (Machine.run (step lib config) state (settle state outcome)).permit = true := by
  rw [settle]
  cases fetching : state.fetching with
  | false => exact ⟨fetching, pending⟩
  | true =>
      rw [if_pos rfl, Machine.run_cons, Machine.run_nil, step, if_pos fetching]
      split
      · exact ⟨rfl, pending⟩
      · exact ⟨rfl, pending⟩

-- The request that misses a key id makes the task fetch again, also when a fetch is
-- under way, and the id is then looked up in what that fetch brings.
theorem missed_kid_refetched (lib : Jsonwebtoken Key) (config : JwksAuthConfig) (state : JwksAuthProvider Key)
    (context : AuthContext) (now : Nat) (missed : (check lib config state.cache now context).2 = true)
    (later : List (JwksOp Key))
    (quiet : Machine.AllSteps (Quiet lib config) (step lib config) (step lib config state (.check context now)) later)
    (outcome : Except String (List (Jwk Key))) (keys : List (Jwk Key)) (present : keys.filterMap usable ≠ []) (kid : String) :
    let waiting := Machine.run (step lib config) state (.check context now :: later)
    (Machine.run (step lib config) waiting (settle waiting outcome ++ [.notified, .fetched (.ok keys)])).cache.lookup kid =
      keyNamed keys kid := by
  intro waiting
  have asked : (step lib config state (.check context now)).permit = true := by
    rw [step, if_pos missed]
  have pending : waiting.permit = true :=
    Machine.invariant_of_guarded (quiet_keeps_permit lib config) _ later asked quiet
  obtain ⟨idle, permit⟩ := settled lib config waiting outcome pending
  rw [Machine.run_append, Machine.run_cons, Machine.run_cons, Machine.run_nil, fetched_good, lookup_table_of]
  · rw [step, if_pos ⟨idle, permit⟩]
  · exact present

theorem rotated_key_refetched :
    let waiting := Machine.run (step cameraTokens cameraConfig) (cameraProvider "b")
      (.check (.publish "whip" cameraToken (some "live/cam")) 0 :: [])
    (Machine.run (step cameraTokens cameraConfig) waiting
      (settle waiting (.error "timeout") ++ [.notified, .fetched (.ok (cameraKeys "a"))])).cache.lookup "a" =
        some ⟨7, .es256⟩ :=
  missed_kid_refetched cameraTokens cameraConfig (cameraProvider "b") (.publish "whip" cameraToken (some "live/cam")) 0
    (by decide) [] trivial (.error "timeout") (cameraKeys "a") (by simp [cameraKeys, usable, algorithmFor]) "a"

end Lvqr.Auth.Jwks
