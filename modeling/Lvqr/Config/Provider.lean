import Mathlib.Data.List.Basic

set_option autoImplicit false

-- The auth provider a configuration asks for. A provider is known by what it was
-- built from; whether the JWKS or the webhook one comes up is not decided here.
namespace Lvqr.Config

structure AuthSection where
  adminToken : Option String
  publishKey : Option String
  subscribeToken : Option String
  jwtSecret : Option String
  jwtIssuer : Option String
  jwtAudience : Option String
  jwksUrl : Option String
  webhookAuthUrl : Option String
deriving DecidableEq, Repr

structure IceServer where
  urls : List String
  username : Option String
  credential : Option String
deriving DecidableEq, Repr

structure ServeConfigFile where
  auth : AuthSection
  meshIceServers : List IceServer
  hmacPlaybackSecret : Option String
deriving DecidableEq, Repr

structure AuthBootDefaults where
  adminToken : Option String
  publishKey : Option String
  subscribeToken : Option String
  jwtSecret : Option String
  jwtIssuer : Option String
  jwtAudience : Option String
deriving DecidableEq, Repr

def AuthBootDefaults.mergeWith (defaults : AuthBootDefaults) (overrides : AuthSection) : AuthBootDefaults where
  adminToken := overrides.adminToken.or defaults.adminToken
  publishKey := overrides.publishKey.or defaults.publishKey
  subscribeToken := overrides.subscribeToken.or defaults.subscribeToken
  jwtSecret := overrides.jwtSecret.or defaults.jwtSecret
  jwtIssuer := overrides.jwtIssuer.or defaults.jwtIssuer
  jwtAudience := overrides.jwtAudience.or defaults.jwtAudience

-- Durations are in milliseconds.
structure JwksBootDefaults where
  jwksUrl : Option String
  refreshInterval : Nat
  fetchTimeout : Nat
deriving DecidableEq, Repr

structure WebhookBootDefaults where
  webhookUrl : Option String
  allowCacheTtl : Nat
  denyCacheTtl : Nat
  fetchTimeout : Nat
  cacheCapacity : Nat
deriving DecidableEq, Repr

inductive InnerAuth where
  | jwks (jwksUrl : String) (issuer audience : Option String) (refreshInterval fetchTimeout : Nat)
  | webhook (webhookUrl : String) (allowCacheTtl denyCacheTtl fetchTimeout cacheCapacity : Nat)
  | jwt (secret : String) (issuer audience : Option String)
  | static (adminToken publishKey subscribeToken : Option String)
  | noop
deriving DecidableEq, Repr

structure Features where
  jwks : Bool
  webhook : Bool
deriving DecidableEq, Repr

def orElseZero (configured fallback : Nat) : Nat := if configured = 0 then fallback else configured

-- A JWT provider refuses an empty secret.
def buildStaticAuthFromEffective (effective : AuthBootDefaults) : Option InnerAuth :=
  match effective.jwtSecret with
  | some secret => if secret = "" then none else some (.jwt secret effective.jwtIssuer effective.jwtAudience)
  | none =>
      if effective.adminToken.isSome || effective.publishKey.isSome || effective.subscribeToken.isSome then
        some (.static effective.adminToken effective.publishKey effective.subscribeToken)
      else some .noop

def jwksIgnored (url : String) : String :=
  "jwks_url in config file ignored: lvqr-cli built without --features jwks (file value: " ++ url ++ ")"

def webhookIgnored (url : String) : String :=
  "webhook_auth_url in config file ignored: lvqr-cli built without --features webhook (file value: " ++ url ++ ")"

def webhookWarnings (features : Features) (webhookUrl : Option String) : List String :=
  match webhookUrl with
  | some url => if features.webhook then [] else [webhookIgnored url]
  | none => []

-- The warnings that are pushed before a provider is returned.
def buildWarnings (features : Features) (jwksUrl webhookUrl : Option String) : List String :=
  match jwksUrl with
  | some url => if features.jwks then [] else jwksIgnored url :: webhookWarnings features webhookUrl
  | none => webhookWarnings features webhookUrl

def buildWebhookOrStatic (features : Features) (effective : AuthBootDefaults) (webhookUrl : Option String)
    (webhookBoot : Option WebhookBootDefaults) (accepted : Bool) : Option InnerAuth :=
  match webhookUrl with
  | some url =>
      if features.webhook then
        let boot := webhookBoot.getD ⟨none, 0, 0, 0, 0⟩
        if accepted then
          some (.webhook url (orElseZero boot.allowCacheTtl 60000) (orElseZero boot.denyCacheTtl 10000)
            (orElseZero boot.fetchTimeout 5000) (orElseZero boot.cacheCapacity 4096))
        else none
      else buildStaticAuthFromEffective effective
  | none => buildStaticAuthFromEffective effective

def buildInnerAuthFromEffective (features : Features) (effective : AuthBootDefaults) (jwksUrl webhookUrl : Option String)
    (jwksBoot : Option JwksBootDefaults) (webhookBoot : Option WebhookBootDefaults) (accepted : Bool) : Option InnerAuth :=
  match jwksUrl with
  | some url =>
      if features.jwks then
        let boot := jwksBoot.getD ⟨none, 0, 0⟩
        if accepted then
          some (.jwks url effective.jwtIssuer effective.jwtAudience (orElseZero boot.refreshInterval 300000)
            (orElseZero boot.fetchTimeout 10000))
        else none
      else buildWebhookOrStatic features effective webhookUrl webhookBoot accepted
  | none => buildWebhookOrStatic features effective webhookUrl webhookBoot accepted

-- The provider chain: with stream keys on, the store is asked first.
structure AuthChain where
  inner : InnerAuth
  multiKey : Bool
deriving DecidableEq, Repr

-- What a reload handle was built with.
structure HandleConfig where
  features : Features
  bootDefaults : AuthBootDefaults
  jwksBoot : Option JwksBootDefaults
  webhookBoot : Option WebhookBootDefaults
  hasStreamkeyStore : Bool
  streamkeysEnabled : Bool
deriving DecidableEq, Repr

namespace HandleConfig

def effectiveJwksUrl (handle : HandleConfig) (file : ServeConfigFile) : Option String :=
  file.auth.jwksUrl.or (handle.jwksBoot.bind JwksBootDefaults.jwksUrl)

def effectiveWebhookUrl (handle : HandleConfig) (file : ServeConfigFile) : Option String :=
  file.auth.webhookAuthUrl.or (handle.webhookBoot.bind WebhookBootDefaults.webhookUrl)

def build (handle : HandleConfig) (file : ServeConfigFile) (accepted : Bool) : Option AuthChain :=
  (buildInnerAuthFromEffective handle.features (handle.bootDefaults.mergeWith file.auth) (handle.effectiveJwksUrl file)
    (handle.effectiveWebhookUrl file) handle.jwksBoot handle.webhookBoot accepted).map fun inner =>
      ⟨inner, handle.streamkeysEnabled && handle.hasStreamkeyStore⟩

def warnings (handle : HandleConfig) (file : ServeConfigFile) : List String :=
  buildWarnings handle.features (handle.effectiveJwksUrl file) (handle.effectiveWebhookUrl file)

end HandleConfig

-- A provider that comes up at all comes up the same.
theorem webhook_or_static_accepted (features : Features) (effective : AuthBootDefaults) (webhookUrl : Option String)
    (webhookBoot : Option WebhookBootDefaults) (inner : InnerAuth)
    (built : buildWebhookOrStatic features effective webhookUrl webhookBoot false = some inner) :
    buildWebhookOrStatic features effective webhookUrl webhookBoot true = some inner := by
  unfold buildWebhookOrStatic at built ⊢
  cases webhookUrl with
  | none => exact built
  | some url =>
      by_cases feature : features.webhook = true
      · simp [feature] at built
      · simpa [feature] using built

theorem inner_accepted (features : Features) (effective : AuthBootDefaults) (jwksUrl webhookUrl : Option String)
    (jwksBoot : Option JwksBootDefaults) (webhookBoot : Option WebhookBootDefaults) (inner : InnerAuth)
    (built : buildInnerAuthFromEffective features effective jwksUrl webhookUrl jwksBoot webhookBoot false = some inner) :
    buildInnerAuthFromEffective features effective jwksUrl webhookUrl jwksBoot webhookBoot true = some inner := by
  unfold buildInnerAuthFromEffective at built ⊢
  cases jwksUrl with
  | none => exact webhook_or_static_accepted features effective webhookUrl webhookBoot inner built
  | some url =>
      by_cases feature : features.jwks = true
      · simp [feature] at built
      · simp only [if_neg feature] at built ⊢
        exact webhook_or_static_accepted features effective webhookUrl webhookBoot inner built

theorem build_accepted (handle : HandleConfig) (file : ServeConfigFile) (accepted : Bool) (chain : AuthChain)
    (built : handle.build file accepted = some chain) : handle.build file true = some chain := by
  cases accepted with
  | true => exact built
  | false =>
      obtain ⟨inner, came, rfl⟩ := Option.map_eq_some_iff.mp built
      exact Option.map_eq_some_iff.mpr ⟨inner, inner_accepted _ _ _ _ _ _ inner came, rfl⟩

end Lvqr.Config
