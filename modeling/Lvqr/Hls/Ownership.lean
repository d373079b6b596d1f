import Lvqr.Hls.Site

set_option autoImplicit false

-- Requests for a broadcast that another node has taken over.
namespace Lvqr.Hls

-- A publisher is live from the first entry of its session to the call that ends it.
def liveAfter (broadcast : String) (live : Bool) : MultiHlsOp → Bool
  | .ensureVideo name _ | .ensureAudio name _ _ _ => live || name = broadcast
  | .finalizeBroadcast name => live && name ≠ broadcast
  | _ => live

def livePublisher (broadcast : String) (ops : List MultiHlsOp) : Bool := ops.foldl (liveAfter broadcast) false

inductive UriKind where
  | media
  | captions
deriving DecidableEq, Repr

-- The name in front of the last slash.
def UriKind.asked (kind : UriKind) (broadcast : String) : String :=
  match kind with
  | .media => broadcast
  | .captions => broadcast ++ "/captions"

def UriKind.path (kind : UriKind) (broadcast file : String) : String := kind.asked broadcast ++ "/" ++ file

namespace HlsSite

theorem redirect_inj (base other path : String) :
    redirectToOwner base path = redirectToOwner other path ↔ trimEndMatches '/' base = trimEndMatches '/' other := by
  rw [redirectToOwner, redirectToOwner, Response.found.injEq, ← String.toList_inj, ← String.toList_inj]
  simp only [String.toList_append, List.append_cancel_right_eq]

theorem rendition_not_found (multi : MultiHlsState) (rendition : Rendition) (broadcast tail location : String)
    (hlsSkip : Option String) : multi.handleRendition rendition broadcast tail hlsSkip ≠ .found location := by
  rw [MultiHlsState.handleRendition]
  split
  · simp
  · split
    · simp [renderPlaylist]
    · split
      · rw [renderInit]
        split <;> simp
      · rw [renderUri]
        split <;> simp

theorem captions_not_found (multi : MultiHlsState) (broadcast tail location : String) :
    multi.handleCaptions broadcast tail ≠ .found location := by
  rw [MultiHlsState.handleCaptions]
  split
  · simp
  · split
    · simp
    · split <;> simp

theorem master_not_found (multi : MultiHlsState) (detect : CodecStrings) (broadcast location : String) :
    multi.handleMasterPlaylist detect broadcast ≠ .found location := by
  rw [MultiHlsState.handleMasterPlaylist]
  split <;> simp

theorem redirected_iff (multi : MultiHlsState) (detect : CodecStrings) (path base : String) (hlsSkip : Option String) :
    multi.handleMultiGet detect path hlsSkip = redirectToOwner base path ↔
      ∃ owner, multi.route path = .redirect owner ∧ trimEndMatches '/' owner = trimEndMatches '/' base := by
  rw [MultiHlsState.handleMultiGet]
  cases multi.route path with
  | malformed => simp [redirectToOwner]
  | redirect owner => simp [redirect_inj]
  | master broadcast => simp [redirectToOwner, master_not_found]
  | captions broadcast tail => simp [redirectToOwner, captions_not_found]
  | rendition rendition broadcast tail => simp [redirectToOwner, rendition_not_found]

theorem route_redirect_iff (multi : MultiHlsState) (broadcast file owner : String) (named : broadcast ≠ "")
    (isFile : FileName file) : multi.route (broadcast ++ "/" ++ file) = .redirect owner ↔
      multi.known broadcast = false ∧ multi.resolveRedirectBase broadcast = some owner := by
  by_cases here : multi.known broadcast = true ∨ multi.resolveRedirectBase broadcast = none
  · rw [multi.route_file broadcast file named isFile here]
    refine iff_of_false ?_ fun ⟨unknown, owned⟩ => ?_
    · by_cases master : file = "master.m3u8"
      · rw [if_pos master]
        exact Route.noConfusion
      · rw [if_neg master]
        cases Text.stripSuffix "/captions".toList broadcast.toList <;> exact Route.noConfusion
    · rcases here with isKnown | nobody
      · rw [unknown] at isKnown
        cases isKnown
      · rw [nobody] at owned
        cases owned
  · obtain ⟨unknown, somebody⟩ := not_or.mp here
    obtain ⟨base, owned⟩ := Option.ne_none_iff_exists'.mp somebody
    have isUnknown : multi.known broadcast = false := by simpa using unknown
    rw [MultiHlsState.route, split_file broadcast file named isFile]
    simp only [isUnknown, owned, Bool.false_eq_true, if_false, Route.redirect.injEq, true_and, Option.some.injEq]

theorem run_resolver (template : Template) (resolver : Option (String → Option String)) (ops : List MultiHlsOp) :
    (Machine.run step (start template resolver) ops).multi.ownerResolver = resolver := by
  let Inv : HlsSite → Prop := fun site => site.multi.ownerResolver = resolver
  show Inv _
  refine Machine.invariant_of_run ?_ _ ops rfl
  intro site op kept
  cases op with
  | ensureSubtitles broadcast now =>
      rw [step, MultiHlsState.ensureSubtitles]
      split <;> exact kept
  | _ => exact kept

theorem asked_nonempty (kind : UriKind) (broadcast : String) (named : broadcast ≠ "") : kind.asked broadcast ≠ "" := by
  cases kind with
  | media => exact named
  | captions =>
      intro empty
      have chars := congrArg String.toList empty
      simp [UriKind.asked] at chars

-- The redirect follows the owner where no call has ever made an entry for the name
-- the router reads, and the resolver knows the owner under that name.
theorem redirect_follows_owner_iff (template : Template) (resolver : String → Option String) (ops : List MultiHlsOp)
    (detect : CodecStrings) (kind : UriKind) (broadcast file base : String) (hlsSkip : Option String)
    (named : broadcast ≠ "") (isFile : FileName file) (owned : resolver broadcast = some base) :
    (Machine.run step (start template (some resolver)) ops).multi.handleMultiGet detect (kind.path broadcast file) hlsSkip =
        redirectToOwner base (kind.path broadcast file) ↔
      (∀ op ∈ ops, ¬ op.Creates (kind.asked broadcast)) ∧
        (kind = .captions → (resolver (kind.asked broadcast)).map (trimEndMatches '/') = some (trimEndMatches '/' base)) := by
  have unmade : (Machine.run step (start template (some resolver)) ops).multi.known (kind.asked broadcast) = false ↔
      ∀ op ∈ ops, ¬ op.Creates (kind.asked broadcast) := by
    rw [← Bool.not_eq_true, run_known_iff]
    simp only [not_exists, not_and]
  have answer : (Machine.run step (start template (some resolver)) ops).multi.resolveRedirectBase (kind.asked broadcast) =
      resolver (kind.asked broadcast) := by
    rw [MultiHlsState.resolveRedirectBase, run_resolver]
    rfl
  have routed (owner : String) := route_redirect_iff (Machine.run step (start template (some resolver)) ops).multi
    (kind.asked broadcast) file owner (asked_nonempty kind broadcast named) isFile
  rw [redirected_iff, UriKind.path]
  simp only [routed, unmade, answer, and_assoc, exists_and_left]
  refine and_congr_right fun _ => ?_
  cases kind with
  | media => simp [UriKind.asked, owned]
  | captions => simp [Option.map_eq_some_iff]

def elsewhere : String → Option String := fun _ => some "http://b.local:8888/"

theorem unpublished_name_redirected :
    (start .default (some elsewhere)).multi.handleMultiGet .none (UriKind.media.path "live/cam1" "playlist.m3u8") none =
      redirectToOwner "http://b.local:8888/" (UriKind.media.path "live/cam1" "playlist.m3u8") :=
  (redirect_follows_owner_iff .default elsewhere [] .none .media "live/cam1" "playlist.m3u8" _ none (by decide) (by decide)
    rfl).mpr ⟨by simp, by simp⟩

def endedSession : List MultiHlsOp := [.ensureVideo "live/cam1" 0, .finalizeBroadcast "live/cam1"]

-- After a session has ended here, the stream that went on elsewhere stays ended.
theorem ended_session_not_redirected : livePublisher "live/cam1" endedSession = false ∧
    (Machine.run step (start .default (some elsewhere)) endedSession).multi.handleMultiGet .none
      (UriKind.media.path "live/cam1" "playlist.m3u8") none ≠
        redirectToOwner "http://b.local:8888/" (UriKind.media.path "live/cam1" "playlist.m3u8") := by
  refine ⟨by decide, fun redirected => ?_⟩
  obtain ⟨owner, routed, _⟩ := (redirected_iff _ _ _ _ _).mp redirected
  have unknown := ((route_redirect_iff _ "live/cam1" "playlist.m3u8" owner (by decide) (by decide)).mp routed).1
  have isKnown := (run_known_iff .default (some elsewhere) endedSession "live/cam1").mpr
    ⟨_, List.mem_cons_self, rfl⟩
  rw [isKnown] at unknown
  cases unknown

end HlsSite

end Lvqr.Hls
