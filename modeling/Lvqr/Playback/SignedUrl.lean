import Mathlib.Data.Set.Function
import Lvqr.Lib.Base64
import Lvqr.Playback.Auth

set_option autoImplicit false

-- Signed URLs: one HMAC over the text of what is granted, for live broadcasts and
-- for playback paths.
namespace Lvqr.Playback

-- HMAC-SHA256 and the URL-safe base64.
structure UrlCrypto where
  computeSignature : Bytes → Bytes → Bytes
  encodeBase64 : Bytes → List Char
  decodeBase64 : List Char → Option Bytes

def verifySignedUrlGeneric (crypto : UrlCrypto) (now : Nat) (hmacSecret : Option Bytes) (signedInput : Bytes)
    (sig : Option (List Char)) (exp : Option Nat) : SignedUrlCheck :=
  match hmacSecret, sig, exp with
  | some secret, some sig, some exp =>
      if exp ≤ now then .deny "signed URL expired"
      else
        match crypto.decodeBase64 sig with
        | none => .deny "signed URL malformed"
        | some provided =>
            if provided = crypto.computeSignature secret signedInput then .allow else .deny "signed URL signature invalid"
  | _, _, _ => .notAttempted

def playbackSignedInput (requestPath : Bytes) (exp : Nat) : Bytes :=
  requestPath ++ ascii "?exp=" ++ ascii (toString exp)

def verifySignedUrl (crypto : UrlCrypto) (now : Nat) (hmacSecret : Option Bytes) (requestPath : Bytes)
    (sig : Option (List Char)) (exp : Option Nat) : SignedUrlCheck :=
  verifySignedUrlGeneric crypto now hmacSecret ((exp.map (playbackSignedInput requestPath)).getD []) sig exp

def verifyLiveSignedUrlWith (crypto : UrlCrypto) (now : Nat) (hmacSecret : Option Bytes) (scheme : LiveScheme)
    (broadcast : Bytes) (sig : Option (List Char)) (exp : Option Nat) : SignedUrlCheck :=
  match sig, exp with
  | some sig, some exp => verifySignedUrlGeneric crypto now hmacSecret (liveSignedInput scheme broadcast exp) (some sig) (some exp)
  | _, _ => .notAttempted

structure SignedSuffix where
  exp : Nat
  sig : List Char
deriving DecidableEq

def SignedSuffix.render (suffix : SignedSuffix) : List Char :=
  "exp=".toList ++ (toString suffix.exp).toList ++ "&sig=".toList ++ suffix.sig

def signLiveUrl (crypto : UrlCrypto) (secret : Bytes) (scheme : LiveScheme) (broadcast : Bytes) (exp : Nat) : SignedSuffix :=
  ⟨exp, crypto.encodeBase64 (crypto.computeSignature secret (liveSignedInput scheme broadcast exp))⟩

def signPlaybackUrl (crypto : UrlCrypto) (secret requestPath : Bytes) (exp : Nat) : SignedSuffix :=
  ⟨exp, crypto.encodeBase64 (crypto.computeSignature secret (playbackSignedInput requestPath exp))⟩

theorem verify_live_eq (auth : LivePlaybackAuth) (encodeBase64 : Bytes → List Char) (secret broadcast : Bytes)
    (sig : Option (List Char)) (exp : Option Nat) :
    verifyLiveSignedUrl auth secret broadcast sig exp =
      verifyLiveSignedUrlWith ⟨auth.computeSignature, encodeBase64, auth.decodeBase64⟩ auth.now (some secret) auth.scheme
        broadcast sig exp := by
  cases sig with
  | none => rfl
  | some sig => cases exp <;> rfl

-- What a URL grants: a live tree, or one playback path.
inductive Grant where
  | live (scheme : LiveScheme) (broadcast : Bytes)
  | playback (path : Bytes)
deriving DecidableEq

namespace Grant

def signedInput (grant : Grant) (exp : Nat) : Bytes :=
  match grant with
  | .live scheme broadcast => liveSignedInput scheme broadcast exp
  | .playback path => playbackSignedInput path exp

def sign (crypto : UrlCrypto) (secret : Bytes) (grant : Grant) (exp : Nat) : SignedSuffix :=
  match grant with
  | .live scheme broadcast => signLiveUrl crypto secret scheme broadcast exp
  | .playback path => signPlaybackUrl crypto secret path exp

def Rooted : Grant → Prop
  | .live _ _ => True
  | .playback path => path.head? = some Percent.slash

end Grant

-- Where a signed URL is presented: the live routes and the three playback routes.
inductive Presented where
  | live (scheme : LiveScheme) (broadcast : Bytes)
  | playback (broadcast : Bytes)
  | latest (broadcast : Bytes)
  | file (rel : Bytes)
deriving DecidableEq

namespace Presented

def grant : Presented → Grant
  | .live scheme broadcast => .live scheme broadcast
  | .playback broadcast => .playback (ascii "/playback/" ++ broadcast)
  | .latest broadcast => .playback (ascii "/playback/latest/" ++ broadcast)
  | .file rel => .playback (ascii "/playback/file/" ++ rel)

def verify (crypto : UrlCrypto) (now : Nat) (hmacSecret : Option Bytes) (presented : Presented)
    (sig : Option (List Char)) (exp : Option Nat) : SignedUrlCheck :=
  match presented.grant with
  | .live scheme broadcast => verifyLiveSignedUrlWith crypto now hmacSecret scheme broadcast sig exp
  | .playback path => verifySignedUrl crypto now hmacSecret path sig exp

end Presented

def equals : UInt8 := 0x3D

theorem digit_not_equals (char : Char) (digit : char.isDigit = true) : equals ∉ String.utf8EncodeChar char := by
  have range : 48 ≤ char.toNat ∧ char.toNat ≤ 57 := by
    simp only [Char.isDigit, ge_iff_le, Bool.and_eq_true, decide_eq_true_eq] at digit
    exact digit
  rw [Utf8.encode_char_ascii char (by omega), List.mem_singleton]
  intro same
  have value := congrArg UInt8.toNat same
  rw [UInt8.toNat_ofNat', Nat.mod_eq_of_lt (by omega)] at value
  have isSixtyOne : equals.toNat = 61 := rfl
  omega

theorem decimal_no_equals (exp : Nat) : equals ∉ ascii (toString exp) := by
  rw [ascii, Utf8.encode, List.mem_flatMap]
  rintro ⟨char, member, inside⟩
  rw [Nat.toString_eq_repr, Nat.toList_repr] at member
  exact digit_not_equals char (Nat.isDigit_of_mem_toDigits (by decide) (by decide) member) inside

theorem decimal_injective (exp other : Nat) (same : ascii (toString exp) = ascii (toString other)) : exp = other := by
  have digits := Utf8.encode_injective _ _ same
  rw [Nat.toString_eq_repr, Nat.toString_eq_repr, Nat.toList_repr, Nat.toList_repr] at digits
  have values := congrArg (fun chars => Nat.ofDigitChars 10 chars 0) digits
  simpa only [Nat.ofDigitChars_ten_toDigits] using values

-- A text is cut at the last place where a mark stands in it.
theorem last_mark {Item : Type} (mark : Item) (front front' back back' : List Item) (absent : mark ∉ back)
    (absent' : mark ∉ back') (same : front ++ mark :: back = front' ++ mark :: back') : front = front' ∧ back = back' := by
  obtain ⟨more, front, rest⟩ | ⟨more, front, rest⟩ := List.append_eq_append_iff.mp same
  · cases more with
    | nil => simp_all
    | cons item more =>
        obtain ⟨_, rfl⟩ := List.cons_eq_cons.mp rest
        simp at absent
  · cases more with
    | nil => simp_all
    | cons item more =>
        obtain ⟨_, rfl⟩ := List.cons_eq_cons.mp rest
        simp at absent'

-- The expiry is read off the end, whatever stands in front of it.
theorem expiry_apart (front front' : Bytes) (exp exp' : Nat)
    (same : front ++ ascii "?exp=" ++ ascii (toString exp) = front' ++ ascii "?exp=" ++ ascii (toString exp')) :
    front = front' ∧ exp = exp' := by
  have mark : ascii "?exp=" = ascii "?exp" ++ [equals] := by decide
  simp only [mark, List.append_assoc, List.singleton_append] at same
  rw [← List.append_assoc, ← List.append_assoc] at same
  obtain ⟨fronts, backs⟩ := last_mark equals _ _ _ _ (decimal_no_equals exp) (decimal_no_equals exp') same
  exact ⟨List.append_cancel_right fronts, decimal_injective exp exp' backs⟩

theorem scheme_head (scheme : LiveScheme) (broadcast : Bytes) :
    (ascii scheme.asStr ++ ascii ":" ++ broadcast).head? =
      some (match scheme with
        | .hls => 0x68
        | .dash => 0x64) := by
  cases scheme <;> rfl

theorem scheme_apart (scheme scheme' : LiveScheme) (broadcast broadcast' : Bytes)
    (same : ascii scheme.asStr ++ ascii ":" ++ broadcast = ascii scheme'.asStr ++ ascii ":" ++ broadcast') :
    scheme = scheme' ∧ broadcast = broadcast' := by
  have heads := congrArg List.head? same
  rw [scheme_head, scheme_head, Option.some.injEq] at heads
  have schemes : scheme = scheme' := by
    cases scheme <;> cases scheme' <;> first | rfl | exact absurd heads (by decide)
  subst schemes
  exact ⟨rfl, List.append_cancel_left same⟩

theorem scheme_not_rooted (scheme : LiveScheme) (broadcast : Bytes) :
    (ascii scheme.asStr ++ ascii ":" ++ broadcast).head? ≠ some Percent.slash := by
  rw [scheme_head]
  cases scheme <;> decide

-- The signed texts of the two families tell everything about what they grant.
theorem signed_input_injective (grant other : Grant) (exp otherExp : Nat) (rooted : grant.Rooted) (otherRooted : other.Rooted)
    (same : grant.signedInput exp = other.signedInput otherExp) : grant = other ∧ exp = otherExp := by
  cases grant with
  | live scheme broadcast =>
      cases other with
      | live scheme' broadcast' =>
          obtain ⟨fronts, exps⟩ := expiry_apart _ _ exp otherExp same
          obtain ⟨rfl, rfl⟩ := scheme_apart scheme scheme' broadcast broadcast' fronts
          exact ⟨rfl, exps⟩
      | playback path =>
          obtain ⟨fronts, _⟩ := expiry_apart _ path exp otherExp same
          exact absurd (fronts ▸ otherRooted) (scheme_not_rooted scheme broadcast)
  | playback path =>
      cases other with
      | live scheme broadcast =>
          obtain ⟨fronts, _⟩ := expiry_apart path _ exp otherExp same
          exact absurd (fronts ▸ rooted) (scheme_not_rooted scheme broadcast)
      | playback path' =>
          obtain ⟨rfl, exps⟩ := expiry_apart path path' exp otherExp same
          exact ⟨rfl, exps⟩

theorem presented_rooted (presented : Presented) : presented.grant.Rooted := by
  cases presented with
  | live scheme broadcast => trivial
  | playback broadcast => rfl
  | latest broadcast => rfl
  | file rel => rfl

theorem presented_verify (crypto : UrlCrypto) (now : Nat) (secret : Bytes) (presented : Presented) (sig : List Char) (exp : Nat) :
    presented.verify crypto now (some secret) (some sig) (some exp) =
      verifySignedUrlGeneric crypto now (some secret) (presented.grant.signedInput exp) (some sig) (some exp) := by
  cases presented <;> rfl

theorem sign_eq (crypto : UrlCrypto) (secret : Bytes) (grant : Grant) (exp : Nat) :
    grant.sign crypto secret exp = ⟨exp, crypto.encodeBase64 (crypto.computeSignature secret (grant.signedInput exp))⟩ := by
  cases grant <;> rfl

theorem fresh_signature_verified (crypto : UrlCrypto) (now exp : Nat) (secret input : Bytes)
    (roundTrip : ∀ bytes, crypto.decodeBase64 (crypto.encodeBase64 bytes) = some bytes) (early : now < exp) :
    verifySignedUrlGeneric crypto now (some secret) input (some (crypto.encodeBase64 (crypto.computeSignature secret input)))
      (some exp) = .allow := by
  simp only [verifySignedUrlGeneric, roundTrip, if_neg (Nat.not_le.mpr early), if_true]

-- A minted signature is good for what it was minted for, until its expiry, and for
-- nothing else.
theorem signed_url_scoped (crypto : UrlCrypto) (secret : Bytes) (given : Set Bytes)
    (collisionFree : Set.InjOn (crypto.computeSignature secret) given)
    (roundTrip : ∀ bytes, crypto.decodeBase64 (crypto.encodeBase64 bytes) = some bytes)
    (minted : Grant) (mintedExp : Nat) (rooted : minted.Rooted) (mintedGiven : minted.signedInput mintedExp ∈ given)
    (presented : Presented) (exp now : Nat) (presentedGiven : presented.grant.signedInput exp ∈ given) :
    presented.verify crypto now (some secret) (some (minted.sign crypto secret mintedExp).sig) (some exp) = .allow ↔
      presented.grant = minted ∧ exp = mintedExp ∧ now < exp := by
  rw [presented_verify, sign_eq]
  simp only [verifySignedUrlGeneric, roundTrip]
  by_cases late : exp ≤ now
  · rw [if_pos late]
    exact iff_of_false (by simp) fun all => absurd all.2.2 (Nat.not_lt.mpr late)
  · rw [if_neg late]
    have early := Nat.lt_of_not_le late
    by_cases same : crypto.computeSignature secret (minted.signedInput mintedExp) =
        crypto.computeSignature secret (presented.grant.signedInput exp)
    · rw [if_pos same]
      have inputs := collisionFree mintedGiven presentedGiven same
      obtain ⟨grants, exps⟩ := signed_input_injective _ _ _ _ rooted (presented_rooted presented) inputs
      exact iff_of_true rfl ⟨grants.symm, exps.symm, early⟩
    · rw [if_neg same]
      refine iff_of_false (by simp) ?_
      rintro ⟨rfl, rfl, _⟩
      exact same rfl

-- HMAC-SHA256 with the key "s", as far as the text below goes.
def sampleCrypto : UrlCrypto where
  computeSignature _ input :=
    if input = ascii "hls:live/a?exp=1760000000" then
      [39, 91, 94, 209, 8, 245, 252, 183, 179, 167, 40, 68, 23, 41, 218, 35, 34, 46, 114, 75, 96, 180, 193, 75, 173, 35,
        232, 254, 184, 77, 179, 56]
    else input
  encodeBase64 := Base64.encode Base64.urlSafe []
  decodeBase64 := Base64.decode Base64.urlSafe

theorem sample_round_trip (bytes : Bytes) :
    sampleCrypto.decodeBase64 (sampleCrypto.encodeBase64 bytes) = some bytes :=
  Base64.decode_encode Base64.url_safe_alphabet bytes

-- The signature of one broadcast is good a second before its expiry.
theorem signed_url_scoped_live :
    (Presented.live .hls (ascii "live/a")).verify sampleCrypto 1759999999 (some (ascii "s"))
        (some ((Grant.live .hls (ascii "live/a")).sign sampleCrypto (ascii "s") 1760000000).sig) (some 1760000000) = .allow ↔
      (Presented.live .hls (ascii "live/a")).grant = .live .hls (ascii "live/a") ∧ 1760000000 = 1760000000 ∧
        1759999999 < 1760000000 :=
  signed_url_scoped sampleCrypto (ascii "s") {liveSignedInput .hls (ascii "live/a") 1760000000}
    (Set.injOn_singleton _ _) sample_round_trip (.live .hls (ascii "live/a")) 1760000000 trivial rfl
    (.live .hls (ascii "live/a")) 1760000000 1759999999 rfl

-- Signed as a playback path, the text of a live grant is a live grant.
theorem unrooted_path_signs_live :
    let minted := Grant.playback (ascii "hls:live/a")
    let presented := Presented.live .hls (ascii "live/a")
    presented.verify sampleCrypto 0 (some (ascii "s")) (some (minted.sign sampleCrypto (ascii "s") 1760000000).sig)
        (some 1760000000) = .allow ∧ presented.grant ≠ minted := by
  refine ⟨?_, by decide⟩
  have sameInput : (Grant.playback (ascii "hls:live/a")).signedInput 1760000000 =
      (Presented.live .hls (ascii "live/a")).grant.signedInput 1760000000 := rfl
  rw [presented_verify, sign_eq, sameInput]
  exact fresh_signature_verified sampleCrypto 0 1760000000 (ascii "s") _ sample_round_trip (by decide)

theorem param_found (pairs : List (List Char)) (name value : List Char) (noEquals : '=' ∉ name) (nonempty : value ≠ []) :
    ((name ++ '=' :: value) :: pairs).findSome? (fun pair =>
      match Text.splitOnce '=' pair with
      | some (front, back) => if front = name ∧ back ≠ [] then some back else none
      | none => none) = some value := by
  rw [List.findSome?_cons, Text.split_once_append '=' name value noEquals]
  simp [nonempty]

theorem rendered_params (suffix : SignedSuffix) (noAmpersand : '&' ∉ suffix.sig) (nonempty : suffix.sig ≠ []) :
    extractQueryParam suffix.render "exp".toList = some (toString suffix.exp).toList ∧
      extractQueryParam suffix.render "sig".toList = some suffix.sig := by
  have digits : ∀ char ∈ (toString suffix.exp).toList, char.isDigit = true := by
    rw [Nat.toString_eq_repr, Nat.toList_repr]
    exact fun char member => Nat.isDigit_of_mem_toDigits (by decide) (by decide) member
  have someDigits : (toString suffix.exp).toList ≠ [] := by
    rw [Nat.toString_eq_repr, Nat.toList_repr]
    exact Nat.toDigits_ne_nil
  have front : '&' ∉ "exp=".toList ++ (toString suffix.exp).toList := by
    rw [List.mem_append]
    rintro (inName | inDigits)
    · exact absurd inName (by decide)
    · exact absurd (digits '&' inDigits) (by decide)
  have back : '&' ∉ "sig=".toList ++ suffix.sig := by
    rw [List.mem_append]
    rintro (inName | inSig)
    · exact absurd inName (by decide)
    · exact noAmpersand inSig
  have parts : suffix.render.splitOn '&' =
      ["exp".toList ++ '=' :: (toString suffix.exp).toList, "sig".toList ++ '=' :: suffix.sig] := by
    have whole : suffix.render = ("exp=".toList ++ (toString suffix.exp).toList) ++ '&' :: ("sig=".toList ++ suffix.sig) := by
      show "exp=".toList ++ (toString suffix.exp).toList ++ "&sig=".toList ++ suffix.sig = _
      simp
    rw [whole, List.splitOn_append_cons_self_of_not_mem front, List.splitOn_eq_singleton back]
    rfl
  refine ⟨?_, ?_⟩
  · rw [extractQueryParam, parts]
    exact param_found _ "exp".toList _ (by decide) someDigits
  · have skipped : Text.splitOnce '=' ("exp".toList ++ '=' :: (toString suffix.exp).toList) =
        some ("exp".toList, (toString suffix.exp).toList) := Text.split_once_append '=' _ _ (by decide)
    have other : "exp".toList ≠ "sig".toList := by decide
    rw [extractQueryParam, parts, List.findSome?_cons, skipped]
    simp only [other, false_and, if_false]
    exact param_found [] "sig".toList _ (by decide) nonempty

-- A request under the broadcast passes with the minted suffix as its query.
theorem minted_live_url_passes (auth : LivePlaybackAuth) (encodeBase64 : Bytes → List Char) (secret broadcast : Bytes)
    (exp : Nat) (request : Request) (hasSecret : auth.hmacSecret = some secret)
    (roundTrip : ∀ bytes, auth.decodeBase64 (encodeBase64 bytes) = some bytes)
    (plain : ∀ bytes, '&' ∉ encodeBase64 bytes) (early : auth.now < exp) (fits : exp < 2 ^ 64)
    (under : extractLivePlaybackBroadcast request.path = some broadcast)
    (query : request.query =
      (signLiveUrl ⟨auth.computeSignature, encodeBase64, auth.decodeBase64⟩ secret auth.scheme broadcast exp).render)
    (signed : encodeBase64 (auth.computeSignature secret (liveSignedInput auth.scheme broadcast exp)) ≠ []) :
    livePlaybackAuthMiddleware auth request = .pass (some broadcast) := by
  obtain ⟨expParam, sigParam⟩ :=
    rendered_params (signLiveUrl ⟨auth.computeSignature, encodeBase64, auth.decodeBase64⟩ secret auth.scheme broadcast exp)
      (plain _) signed
  rw [← query] at expParam sigParam
  have parsed : Text.parseUnsigned (2 ^ 64) (toString exp).toList = some exp := by
    rw [Nat.toString_eq_repr, Nat.toList_repr]
    exact Text.parse_unsigned_digits _ exp fits
  have sameExp : (signLiveUrl ⟨auth.computeSignature, encodeBase64, auth.decodeBase64⟩ secret auth.scheme broadcast exp).exp =
    exp := rfl
  have isSig : (signLiveUrl ⟨auth.computeSignature, encodeBase64, auth.decodeBase64⟩ secret auth.scheme broadcast exp).sig =
    encodeBase64 (auth.computeSignature secret (liveSignedInput auth.scheme broadcast exp)) := rfl
  rw [sameExp] at expParam
  rw [isSig] at sigParam
  have allowed : verifyLiveSignedUrl auth secret broadcast
      (some (encodeBase64 (auth.computeSignature secret (liveSignedInput auth.scheme broadcast exp)))) (some exp) = .allow := by
    rw [verify_live_eq auth encodeBase64]
    exact fresh_signature_verified _ _ exp secret _ roundTrip early
  simp only [livePlaybackAuthMiddleware, under, hasSecret, expParam, sigParam, Option.bind_some, parsed, allowed]

end Lvqr.Playback
