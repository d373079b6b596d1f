import Lvqr.Playback.Auth

set_option autoImplicit false

namespace Lvqr.Playback

open Percent (slash splitLast)

-- The HLS handler takes the last directory of these paths for the captions of
-- the broadcast above it.
def CaptionsRoute (scheme : LiveScheme) (broadcast tail : Bytes) : Prop :=
  scheme = .hls ∧ CAPTIONS <:+ broadcast ∧ tail ≠ MASTER

-- The name in front of the last raw slash is the one the handler gets: it has no
-- effective escapes, and the handler splits at the same slash, or at a later one
-- with nothing but `captions` between the two.
def NamesAgree (scheme : LiveScheme) (path : Bytes) : Prop :=
  ∃ broadcast file, path = scheme.mount ++ broadcast ++ slash :: file ∧ slash ∉ file ∧ broadcast ≠ [] ∧
    Percent.decode broadcast = broadcast ∧
      ((slash ∉ Percent.decode file ∧ ¬ CaptionsRoute scheme broadcast (Percent.decode file)) ∨
        scheme = .hls ∧ ∃ name, Percent.decode file = ascii "captions" ++ slash :: name ∧ slash ∉ name ∧ name ≠ MASTER)

def servedName (scheme : LiveScheme) (broadcast tail : Bytes) : Bytes :=
  match scheme with
  | .dash => broadcast
  | .hls => if tail = MASTER then broadcast else (stripSuffix CAPTIONS broadcast).getD broadcast

theorem strip_prefix_append (front text : Bytes) : stripPrefix front (front ++ text) = some text := by
  rw [stripPrefix, if_pos (List.prefix_append front text), List.drop_left]

theorem strip_prefix_some (front text rest : Bytes) (stripped : stripPrefix front text = some rest) :
    text = front ++ rest := by
  rw [stripPrefix] at stripped
  split at stripped
  · rename_i isPrefix
    obtain rfl := Option.some.inj stripped
    exact (List.prefix_append_drop isPrefix)
  · cases stripped

theorem strip_suffix_append (back text : Bytes) : stripSuffix back (text ++ back) = some text := by
  rw [stripSuffix, if_pos (List.suffix_append text back), List.length_append, Nat.add_sub_cancel, List.take_left]

theorem strip_suffix_some (back text rest : Bytes) (stripped : stripSuffix back text = some rest) :
    text = rest ++ back := by
  rw [stripSuffix] at stripped
  split at stripped
  · rename_i isSuffix
    obtain ⟨front, rfl⟩ := isSuffix
    rw [List.length_append, Nat.add_sub_cancel, List.take_left] at stripped
    rw [Option.some.inj stripped]
  · cases stripped

theorem served_captions (broadcast tail : Bytes) (notMaster : tail ≠ MASTER) :
    servedName .hls (broadcast ++ CAPTIONS) tail = broadcast := by
  rw [servedName, if_neg notMaster, strip_suffix_append, Option.getD_some]

theorem served_plain (scheme : LiveScheme) (broadcast tail : Bytes) (plain : ¬ CaptionsRoute scheme broadcast tail) :
    servedName scheme broadcast tail = broadcast := by
  cases scheme with
  | dash => rfl
  | hls =>
      rw [servedName]
      by_cases master : tail = MASTER
      · rw [if_pos master]
      · rw [if_neg master]
        cases stripped : stripSuffix CAPTIONS broadcast with
        | none => rfl
        | some rest =>
            have isCaptions := strip_suffix_some CAPTIONS broadcast rest stripped
            exact absurd ⟨rfl, ⟨rest, isCaptions.symm⟩, master⟩ plain

theorem split_broadcast_some (path broadcast tail : Bytes) (split : splitBroadcastPath path = some (broadcast, tail)) :
    splitLast path = some (broadcast, tail) ∧ broadcast ≠ [] ∧ tail ≠ [] := by
  rw [splitBroadcastPath] at split
  cases found : splitLast path with
  | none => simp [found] at split
  | some parts =>
      simp only [found] at split
      split at split
      · cases split
      · rename_i both
        obtain ⟨rfl, rfl⟩ := Prod.mk.inj (Option.some.inj split)
        exact ⟨rfl, (not_or.mp both).1, (not_or.mp both).2⟩

theorem redirect_not_data (scheme : LiveScheme) (base path broadcast : Bytes) :
    redirectToOwner scheme base path ≠ .data broadcast := by
  simp [redirectToOwner]

-- Whose data a handler answers with.
theorem handled_data (site : Site) (scheme : LiveScheme) (path name : Bytes)
    (served : site.handleMultiGet scheme path = .data name) :
    ∃ broadcast tail, splitBroadcastPath path = some (broadcast, tail) ∧ name = servedName scheme broadcast tail := by
  have fromFiles : ∀ (server : Files) (owner tail : Bytes), answer server owner tail = .data name → name = owner := by
    intro server owner tail isData
    rw [answer] at isData
    split at isData
    · exact (Reply.data.inj isData).symm
    · cases isData
  cases scheme with
  | dash =>
      rw [Site.handleMultiGet, MultiDashServer.handleMultiGet] at served
      split at served
      · cases served
      · rename_i broadcast tail split
        refine ⟨broadcast, tail, split, ?_⟩
        split at served
        · exact fromFiles _ broadcast tail served
        · split at served
          · exact absurd served (redirect_not_data _ _ _ _)
          · cases served
  | hls =>
      rw [Site.handleMultiGet, MultiHlsServer.handleMultiGet] at served
      split at served
      · cases served
      · rename_i broadcast tail split
        refine ⟨broadcast, tail, split, ?_⟩
        dsimp only at served
        split at served
        · exact absurd served (redirect_not_data _ _ _ _)
        · rw [servedName]
          split at served
          · rename_i isMaster
            rw [if_pos isMaster]
            rw [handleMasterPlaylist] at served
            split at served
            · exact (Reply.data.inj served).symm
            · cases served
          · rename_i notMaster
            rw [if_neg notMaster]
            split at served
            · rename_i realBroadcast stripped
              rw [stripped, Option.getD_some]
              rw [handleCaptions] at served
              split at served
              · split at served
                · exact (Reply.data.inj served).symm
                · cases served
              · cases served
            · rename_i kept
              rw [kept, Option.getD_none]
              rw [handleRendition] at served
              split at served
              · exact fromFiles _ broadcast tail served
              · cases served

theorem middleware_checked (auth : LivePlaybackAuth) (request : Request) (checked : Option Bytes)
    (passed : livePlaybackAuthMiddleware auth request = .pass checked) :
    checked = extractLivePlaybackBroadcast request.path := by
  have gate : ∀ broadcast, subscribeGate auth request broadcast = .pass checked → checked = some broadcast := by
    intro broadcast isPass
    rw [subscribeGate] at isPass
    split at isPass
    · exact (Verdict.pass.inj isPass).symm
    · cases isPass
  rw [livePlaybackAuthMiddleware] at passed
  cases named : extractLivePlaybackBroadcast request.path with
  | none =>
      rw [named] at passed
      exact (Verdict.pass.inj passed).symm
  | some broadcast =>
      simp only [named] at passed
      split at passed
      · exact gate broadcast passed
      · split at passed
        · exact (Verdict.pass.inj passed).symm
        · cases passed
        · exact gate broadcast passed

theorem captions_no_slash : slash ∉ ascii "captions" := by decide

theorem mount_apart (rest : Bytes) : stripPrefix (LiveScheme.mount .hls) (LiveScheme.mount .dash ++ rest) = none := by
  rw [stripPrefix, if_neg]
  rw [show LiveScheme.mount .hls = [0x2F, 0x68, 0x6C, 0x73, 0x2F] by decide,
    show LiveScheme.mount .dash = [0x2F, 0x64, 0x61, 0x73, 0x68, 0x2F] by decide]
  simp

theorem extract_mounted (scheme : LiveScheme) (captured : Bytes) :
    extractLivePlaybackBroadcast (scheme.mount ++ captured) = (splitBroadcastPath captured).map Prod.fst := by
  rw [extractLivePlaybackBroadcast]
  cases scheme with
  | hls => rw [strip_prefix_append]; rfl
  | dash => rw [mount_apart, strip_prefix_append]; rfl

-- The two ways to cut a path agree on the name: the raw path at its last slash,
-- and the decoded one as the handler cuts it.
def CutsAgree (scheme : LiveScheme) (broadcast file : Bytes) : Prop :=
  Percent.decode broadcast = broadcast ∧
    ((slash ∉ Percent.decode file ∧ ¬ CaptionsRoute scheme broadcast (Percent.decode file)) ∨
      scheme = .hls ∧ ∃ name, Percent.decode file = ascii "captions" ++ slash :: name ∧ slash ∉ name ∧ name ≠ MASTER)

theorem same_split (front back front' back' : Bytes) (same : front ++ slash :: back = front' ++ slash :: back')
    (last : slash ∉ back) (last' : slash ∉ back') : front = front' ∧ back = back' := by
  have split := Percent.split_last_append front back last
  rw [same, Percent.split_last_append front' back' last'] at split
  obtain ⟨rfl, rfl⟩ := Prod.mk.inj (Option.some.inj split)
  exact ⟨rfl, rfl⟩

theorem served_iff_last (scheme : LiveScheme) (broadcast file : Bytes) (last : slash ∉ Percent.decode file) :
    broadcast = servedName scheme (Percent.decode broadcast) (Percent.decode file) ↔ CutsAgree scheme broadcast file := by
  by_cases route : CaptionsRoute scheme (Percent.decode broadcast) (Percent.decode file)
  · obtain ⟨rfl, ⟨front, isCaptions⟩, notMaster⟩ := route
    rw [← isCaptions, served_captions front _ notMaster]
    constructor
    · rintro rfl
      have shorter := Percent.length_decode_le broadcast
      rw [← isCaptions, List.length_append] at shorter
      have some' : 0 < CAPTIONS.length := by decide
      omega
    · rintro ⟨plain, ⟨_, apart⟩ | ⟨_, name, spans, _⟩⟩
      · exact absurd ⟨rfl, ⟨front, isCaptions.trans plain⟩, notMaster⟩ apart
      · exact absurd (spans ▸ by simp) last
  · rw [served_plain scheme _ _ route]
    constructor
    · intro same
      exact ⟨same.symm, .inl ⟨last, same ▸ route⟩⟩
    · rintro ⟨plain, _⟩
      exact plain.symm

theorem served_iff_inner (scheme : LiveScheme) (broadcast file middle name : Bytes)
    (decoded : Percent.decode file = middle ++ slash :: name) (last : slash ∉ name) :
    broadcast = servedName scheme (Percent.decode broadcast ++ slash :: middle) name ↔
      CutsAgree scheme broadcast file := by
  have grows := Percent.count_le_decode broadcast
  have inner : slash ∈ Percent.decode file := by simp [decoded]
  by_cases route : CaptionsRoute scheme (Percent.decode broadcast ++ slash :: middle) name
  · obtain ⟨rfl, ⟨front, isCaptions⟩, notMaster⟩ := route
    rw [← isCaptions, served_captions front name notMaster]
    constructor
    · rintro rfl
      have counts := congrArg (List.count slash) isCaptions
      simp only [CAPTIONS, List.count_append, List.count_cons_self] at counts
      have none' : (ascii "captions").count slash = 0 := List.count_eq_zero.mpr captions_no_slash
      have alone : slash ∉ middle := List.count_eq_zero.mp (by omega)
      obtain ⟨same, isMiddle⟩ := same_split broadcast (ascii "captions") (Percent.decode broadcast) middle isCaptions
        captions_no_slash alone
      exact ⟨same.symm, .inr ⟨rfl, name, by rw [decoded, isMiddle], last, notMaster⟩⟩
    · rintro ⟨plain, ⟨apart, _⟩ | ⟨_, other, spans, otherLast, _⟩⟩
      · exact absurd inner apart
      · obtain ⟨rfl, rfl⟩ := same_split middle name (ascii "captions") other (decoded.symm.trans spans) last otherLast
        rw [plain] at isCaptions
        exact (List.append_cancel_right isCaptions).symm
  · rw [served_plain scheme _ _ route]
    constructor
    · intro same
      have counts := congrArg (List.count slash) same
      rw [List.count_append, List.count_cons_self] at counts
      omega
    · rintro ⟨plain, ⟨apart, _⟩ | ⟨isHls, other, spans, otherLast, notMaster⟩⟩
      · exact absurd inner apart
      · obtain ⟨rfl, rfl⟩ := same_split middle name (ascii "captions") other (decoded.symm.trans spans) last otherLast
        exact absurd ⟨isHls, ⟨Percent.decode broadcast, rfl⟩, notMaster⟩ route

-- What the middleware extracts from the captured part of a path is the name of
-- the broadcast that is served in exactly these cases.
theorem extracted_served_iff (scheme : LiveScheme) (captured broadcast tail : Bytes)
    (split : splitBroadcastPath (Percent.decode captured) = some (broadcast, tail)) :
    (splitBroadcastPath captured).map Prod.fst = some (servedName scheme broadcast tail) ↔
      NamesAgree scheme (scheme.mount ++ captured) := by
  obtain ⟨isLast, someName, someTail⟩ := split_broadcast_some _ broadcast tail split
  rw [splitBroadcastPath]
  cases found : splitLast captured with
  | none =>
      have absent := (Percent.split_last_none captured).mp found
      constructor
      · intro extracted
        cases extracted
      · rintro ⟨name, file, same, _⟩
        rw [List.append_assoc] at same
        obtain rfl := List.append_cancel_left same
        exact absurd (by simp) absent
  | some parts =>
      obtain ⟨name, file⟩ := parts
      obtain ⟨rfl, rawLast⟩ := Percent.split_last_some captured name file found
      rw [Percent.decode_slash] at isLast
      have someFile : file ≠ [] := by
        rintro rfl
        rw [Percent.split_last_append _ _ (by simp [Percent.decode])] at isLast
        exact someTail (Prod.mk.inj (Option.some.inj isLast)).2.symm
      have agrees : NamesAgree scheme (scheme.mount ++ (name ++ slash :: file)) ↔ name ≠ [] ∧ CutsAgree scheme name file := by
        constructor
        · rintro ⟨other, back, same, backLast, someOther, cuts⟩
          rw [List.append_assoc] at same
          obtain ⟨rfl, rfl⟩ := same_split name file other back (List.append_cancel_left same) rawLast backLast
          exact ⟨someOther, cuts⟩
        · rintro ⟨someOther, cuts⟩
          exact ⟨name, file, by rw [List.append_assoc], rawLast, someOther, cuts⟩
      rw [agrees]
      by_cases empty : name = []
      · simp [empty]
      · have neither : ¬ (name = [] ∨ file = []) := not_or.mpr ⟨empty, someFile⟩
        dsimp only
        rw [if_neg neither, Option.map_some, Option.some.injEq, and_iff_right empty]
        by_cases last : slash ∈ Percent.decode file
        · obtain ⟨⟨middle, back⟩, inner⟩ := Option.ne_none_iff_exists'.mp
            (fun isNone => (Percent.split_last_none (Percent.decode file)).mp isNone last)
          obtain ⟨decoded, backLast⟩ := Percent.split_last_some _ middle back inner
          rw [decoded, ← List.cons_append, ← List.append_assoc, Percent.split_last_append _ back backLast] at isLast
          obtain ⟨rfl, rfl⟩ := Prod.mk.inj (Option.some.inj isLast)
          exact served_iff_inner scheme name file middle back decoded backLast
        · rw [Percent.split_last_append _ _ last] at isLast
          obtain ⟨rfl, rfl⟩ := Prod.mk.inj (Option.some.inj isLast)
          exact served_iff_last scheme name file last

-- Where a handler answers with data of a broadcast, the middleware has checked
-- that broadcast in exactly the requests on whose name the two agree.
theorem live_playback_checked_iff (auth : LivePlaybackAuth) (site : Site) (request : Request) (broadcast : Bytes)
    (served : (respond auth site request).reply = .data broadcast) :
    (respond auth site request).checked = some broadcast ↔ NamesAgree auth.scheme request.path := by
  rw [respond] at served ⊢
  cases verdict : livePlaybackAuthMiddleware auth request with
  | refused status reason =>
      rw [verdict] at served
      cases served
  | pass checked =>
      rw [verdict] at served
      dsimp only at served ⊢
      rw [middleware_checked auth request checked verdict]
      rw [Site.route] at served
      split at served
      · cases served
      · cases served
      · rename_i captured _ stripped
        dsimp only at served
        split at served
        · obtain ⟨name, tail, split, rfl⟩ := handled_data site auth.scheme _ broadcast served
          rw [strip_prefix_some _ _ captured stripped, extract_mounted]
          exact extracted_served_iff auth.scheme captured name tail split
        · cases served

def oneBroadcast : Site where
  hls :=
    { video := fun name => if name = ascii "live/cam1" then some fun _ => true else none
      audio := fun _ => none
      subtitles := fun _ => none
      ownerResolver := fun _ => none }
  dash := { get := fun _ => none, ownerResolver := fun _ => none }

-- A provider that lets one token through.
def oneToken : LivePlaybackAuth where
  scheme := .hls
  hmacSecret := none
  check := fun token _ => if token = some "viewer".toList then .ok () else .error "invalid token"
  computeSignature := fun _ _ => []
  decodeBase64 := fun _ => none
  now := 0

def plainRequest : Request := ⟨ascii "/hls/live/cam1/playlist.m3u8", "token=viewer".toList, none⟩

theorem plain_request_checked :
    (respond oneToken oneBroadcast plainRequest).checked = some (ascii "live/cam1") ↔
      NamesAgree .hls (ascii "/hls/live/cam1/playlist.m3u8") :=
  live_playback_checked_iff oneToken oneBroadcast plainRequest (ascii "live/cam1") (by decide)

-- No raw slash behind the mount point, so no name to check and no token needed.
def encodedRequest : Request := ⟨ascii "/hls/live%2Fcam1%2Fplaylist.m3u8", [], none⟩

theorem encoded_slashes_pass_unchecked :
    ¬ ∀ (auth : LivePlaybackAuth) (site : Site) (request : Request) (broadcast : Bytes),
      (respond auth site request).reply = .data broadcast → (respond auth site request).checked = some broadcast := by
  intro always
  have served : (respond oneToken oneBroadcast encodedRequest).reply = .data (ascii "live/cam1") := by decide
  have unchecked : (respond oneToken oneBroadcast encodedRequest).checked = none := by decide
  have checked := always oneToken oneBroadcast encodedRequest (ascii "live/cam1") served
  rw [unchecked] at checked
  cases checked

end Lvqr.Playback
