import Lvqr.Lib.Reference
import Lvqr.Rtsp.Requests

set_option autoImplicit false

-- The URL a broadcast is announced under and the URLs its tracks are set up with.
-- A segment is any text without a slash, so a query is part of the segments it stands in.
namespace Lvqr.Rtsp

open Reference

def Segment (text : List Char) : Prop := text ≠ [] ∧ '/' ∉ text

instance (text : List Char) : Decidable (Segment text) := inferInstanceAs (Decidable (_ ∧ _))

inductive UrlFront where
  | absolute (authority : List Char) (single : '/' ∉ authority)
  | path (slashes : Nat)

def UrlFront.text : UrlFront → List Char
  | .absolute authority _ => "rtsp://".toList ++ (authority ++ ['/'])
  | .path slashes => List.replicate slashes '/'

theorem absolute_text (authority : List Char) (single : '/' ∉ authority) :
    (UrlFront.absolute authority single).text = "rtsp://".toList ++ (authority ++ ['/']) := rfl

theorem path_text (slashes : Nat) : (UrlFront.path slashes).text = List.replicate slashes '/' := rfl

structure BroadcastUrl where
  front : UrlFront
  name : List (List Char)
  solid : ∀ segment ∈ name, Segment segment
  trailingSlash : Bool

structure TrackSuffix where
  parts : List (List Char)
  solid : ∀ segment ∈ parts, Segment segment
  nonempty : parts ≠ []

def TrackSuffix.text (suffix : TrackSuffix) : List Char := join suffix.parts

-- A client puts a slash between the base and the suffix unless the base ends in one.
def appendTrack (base suffix : List Char) : List Char :=
  if base = [] ∨ base.getLast? = some '/' then base ++ suffix else base ++ '/' :: suffix

namespace BroadcastUrl

def parts (url : BroadcastUrl) : List (List Char) := url.name ++ if url.trailingSlash then [[]] else []

def text (url : BroadcastUrl) : List Char := url.front.text ++ join url.parts

def base (url : BroadcastUrl) : String := String.ofList url.text

def setup (url : BroadcastUrl) (suffix : TrackSuffix) : String := String.ofList (appendTrack url.text suffix.text)

end BroadcastUrl

-- The components `extract_broadcast` keeps.
def keptParts (parts : List (List Char)) : List (List Char) := if 2 < parts.length then parts.dropLast else parts

theorem extract_broadcast_kept (uri : String) :
    extractBroadcast uri = String.ofList (join (keptParts (segments (uriPath uri)))) := by
  unfold extractBroadcast keptParts
  show (if 2 < (segments (uriPath uri)).length then String.ofList (join (segments (uriPath uri)).dropLast)
    else String.ofList (uriPath uri)) = _
  split
  · rfl
  · rw [join_segments]

theorem segments_slash (text : List Char) : segments ('/' :: text) = [] :: segments text := segments_append [] text

theorem segments_nonempty (text : List Char) : segments text ≠ [] := List.splitOn_ne_nil '/' text

-- Only the last component of a path may be empty.
def Solid (parts : List (List Char)) : Prop := ∀ part ∈ parts.dropLast, part ≠ []

theorem solid_head (text : List Char) (solid : Solid (segments text)) : text.head? ≠ some '/' := by
  cases text with
  | nil => exact fun isSlash => nomatch isSlash
  | cons char text =>
      intro isSlash
      obtain rfl := Option.some.inj isSlash
      rw [segments_slash] at solid
      refine solid [] ?_ rfl
      rw [List.dropLast_cons_of_ne_nil (segments_nonempty text)]
      exact List.mem_cons_self

theorem solid_relative (text : List Char) (solid : Solid (segments text)) :
    Text.stripPrefix "rtsp://".toList text = none := by
  cases stripped : Text.stripPrefix "rtsp://".toList text with
  | none => rfl
  | some rest =>
      -- The component between the two slashes would be empty.
      have isText := Text.strip_prefix_some _ _ _ stripped
      have parts : segments text = "rtsp:".toList :: [] :: segments rest := by
        rw [isText]
        show segments ("rtsp:".toList ++ '/' :: '/' :: rest) = _
        rw [segments_append, segments_slash, segments_single _ (by decide)]
        rfl
      rw [parts] at solid
      refine absurd rfl (solid [] ?_)
      rw [List.dropLast_cons_of_ne_nil (List.cons_ne_nil _ _), List.dropLast_cons_of_ne_nil (segments_nonempty rest)]
      exact List.mem_cons_of_mem _ List.mem_cons_self

theorem uri_path_absolute (rest : List Char) :
    uriPath (String.ofList ("rtsp://".toList ++ rest)) = (rest.dropWhile (· ≠ '/')).drop 1 := by
  have text : (String.ofList ("rtsp://".toList ++ rest)).toList = "rtsp://".toList ++ rest := String.toList_ofList
  have found : Text.stripPrefix "rtsp://".toList ("rtsp://".toList ++ rest) = some rest := Text.strip_prefix_append _ _
  unfold uriPath
  rw [text, found]

theorem uri_path_relative (text : List Char) (relative : Text.stripPrefix "rtsp://".toList text = none) :
    uriPath (String.ofList text) = text.dropWhile (· = '/') := by
  have isText : (String.ofList text).toList = text := String.toList_ofList
  unfold uriPath
  rw [isText, relative]

theorem uri_path_front (front : UrlFront) (text : List Char) (solid : Solid (segments text)) :
    uriPath (String.ofList (front.text ++ text)) = text := by
  cases front with
  | absolute authority single =>
      have name : ∀ char ∈ authority, decide (char ≠ '/') = true :=
        fun char member => decide_eq_true fun same => single (same ▸ member)
      rw [absolute_text, List.append_assoc, uri_path_absolute, List.append_assoc, List.dropWhile_append_of_pos name]
      rfl
  | path slashes =>
      have relative : Text.stripPrefix "rtsp://".toList (List.replicate slashes '/' ++ text) = none := by
        cases slashes with
        | zero => exact solid_relative text solid
        | succ slashes => rfl
      rw [path_text, uri_path_relative _ relative,
        List.dropWhile_append_of_pos fun char member => decide_eq_true (List.eq_of_mem_replicate member)]
      cases text with
      | nil => rfl
      | cons char rest =>
          have other : char ≠ '/' := fun same => solid_head _ solid (congrArg some same)
          exact List.dropWhile_cons_of_neg (by simpa using other)

theorem extract_broadcast_front (front : UrlFront) (text : List Char) (solid : Solid (segments text)) :
    extractBroadcast (String.ofList (front.text ++ text)) = String.ofList (join (keptParts (segments text))) := by
  rw [extract_broadcast_kept, uri_path_front front text solid]

theorem kept_parts_length (parts : List (List Char)) :
    (keptParts parts).length = if 2 < parts.length then parts.length - 1 else parts.length := by
  rw [keptParts]
  split
  · exact List.length_dropLast
  · rfl

theorem kept_parts_mem (parts : List (List Char)) (part : List Char) (member : part ∈ keptParts parts) : part ∈ parts := by
  rw [keptParts] at member
  split at member
  · exact List.mem_of_mem_dropLast member
  · exact member

theorem kept_parts_nonempty (parts : List (List Char)) (nonempty : parts ≠ []) : keptParts parts ≠ [] := by
  have some : 0 < parts.length := List.length_pos_iff.mpr nonempty
  rw [← List.length_pos_iff, kept_parts_length]
  split <;> omega

theorem kept_parts_join_inj (first second : List (List Char)) (firstSingle : ∀ part ∈ first, '/' ∉ part)
    (secondSingle : ∀ part ∈ second, '/' ∉ part) (firstNonempty : first ≠ []) (secondNonempty : second ≠ []) :
    join (keptParts first) = join (keptParts second) ↔ keptParts first = keptParts second := by
  refine ⟨fun same => ?_, congrArg join⟩
  rw [← segments_join (keptParts first) (fun part member => firstSingle part (kept_parts_mem first part member))
      (kept_parts_nonempty first firstNonempty), same,
    segments_join (keptParts second) (fun part member => secondSingle part (kept_parts_mem second part member))
      (kept_parts_nonempty second secondNonempty)]

theorem kept_parts_appended (name suffix : List (List Char)) (nonempty : suffix ≠ []) (named : name ≠ []) :
    keptParts (name ++ suffix) = keptParts name ↔ suffix.length = 1 ∧ name.length = 2 := by
  have appended : 0 < suffix.length := List.length_pos_iff.mpr nonempty
  constructor
  · intro same
    have lengths := congrArg List.length same
    rw [kept_parts_length, kept_parts_length, List.length_append] at lengths
    have long := List.length_pos_iff.mpr named
    split at lengths <;> split at lengths <;> omega
  · intro ⟨one, two⟩
    obtain ⟨track, rfl⟩ := List.length_eq_one_iff.mp one
    rw [keptParts, keptParts, if_pos (by simp [two]), if_neg (by omega), List.dropLast_concat]

theorem kept_parts_closed (name suffix : List (List Char)) (solid : ∀ part ∈ name ++ suffix, part ≠ [])
    (nonempty : suffix ≠ []) :
    keptParts (name ++ suffix) = keptParts (name ++ [[]]) ↔ suffix.length = 1 ∧ 2 ≤ name.length := by
  have appended : 0 < suffix.length := List.length_pos_iff.mpr nonempty
  by_cases long : 2 ≤ name.length
  · have base : keptParts (name ++ [[]]) = name := by
      rw [keptParts, if_pos (by rw [List.length_append]; exact Nat.lt_succ_of_le long), List.dropLast_concat]
    rw [base]
    constructor
    · intro same
      have lengths := congrArg List.length same
      rw [kept_parts_length, List.length_append] at lengths
      split at lengths <;> omega
    · intro ⟨one, _⟩
      obtain ⟨track, rfl⟩ := List.length_eq_one_iff.mp one
      rw [keptParts, if_pos (by rw [List.length_append]; exact Nat.lt_succ_of_le long), List.dropLast_concat]
  · -- The base keeps its empty component, and the setup URL has none.
    refine iff_of_false (fun same => ?_) fun both => long both.2
    have short : ¬ 2 < (name ++ [[]]).length := by
      rw [List.length_append, List.length_singleton]
      omega
    have empty : [] ∈ keptParts (name ++ suffix) := by
      rw [same, keptParts, if_neg short]
      exact List.mem_append_right name List.mem_cons_self
    exact solid [] (kept_parts_mem _ _ empty) rfl

theorem front_closed (front : UrlFront) : front.text = [] ∨ front.text.getLast? = some '/' := by
  cases front with
  | absolute authority single =>
      right
      rw [absolute_text, ← List.append_assoc, List.getLast?_concat]
  | path slashes =>
      rw [path_text]
      cases slashes with
      | zero => exact .inl rfl
      | succ slashes => exact .inr (by rw [List.replicate_succ', List.getLast?_concat])

-- A name ends in a character of its last segment.
theorem join_open (front : List Char) (name : List (List Char)) (solid : ∀ segment ∈ name, Segment segment)
    (named : name ≠ []) : ¬ (front ++ join name = [] ∨ (front ++ join name).getLast? = some '/') := by
  obtain ⟨init, last, isName⟩ := (List.eq_nil_or_concat name).resolve_left named
  rw [List.concat_eq_append] at isName
  subst isName
  obtain ⟨nonempty, single⟩ := solid last (by simp)
  have tail : ∃ before, front ++ join (init ++ [last]) = before ++ last := by
    by_cases only : init = []
    · exact ⟨front, by rw [only, List.nil_append, join_single]⟩
    · refine ⟨front ++ (join init ++ ['/']), ?_⟩
      rw [join_append init [last] only (List.cons_ne_nil last [])]
      simp
  obtain ⟨before, isText⟩ := tail
  rw [isText, List.append_eq_nil_iff, List.getLast?_append_of_ne_nil _ nonempty]
  intro closed
  cases closed with
  | inl empty => exact nonempty empty.2
  | inr slash => exact single (List.mem_of_getLast? slash)

namespace BroadcastUrl

theorem parts_single (url : BroadcastUrl) : ∀ part ∈ url.parts, '/' ∉ part := by
  intro part member
  rw [parts, List.mem_append] at member
  cases member with
  | inl named => exact (url.solid part named).2
  | inr last =>
      split at last
      · obtain rfl := List.mem_singleton.mp last
        exact List.not_mem_nil
      · exact absurd last List.not_mem_nil

theorem parts_solid (url : BroadcastUrl) : Solid url.parts := by
  intro part member
  rw [parts] at member
  split at member
  · rw [List.dropLast_concat] at member
    exact (url.solid part member).1
  · rw [List.append_nil] at member
    exact (url.solid part (List.mem_of_mem_dropLast member)).1

theorem setup_text (url : BroadcastUrl) (suffix : TrackSuffix) :
    appendTrack url.text suffix.text = url.front.text ++ join (url.name ++ suffix.parts) := by
  by_cases named : url.name = []
  · have isText : url.text = url.front.text := by
      rw [text, parts, named]
      cases url.trailingSlash with
      | false => exact List.append_nil _
      | true => exact List.append_nil _
    rw [appendTrack, isText, if_pos (front_closed url.front), named]
    rfl
  · have joined := join_append url.name suffix.parts named suffix.nonempty
    cases closed : url.trailingSlash with
    | true =>
        have isText : url.text = url.front.text ++ join url.name ++ ['/'] := by
          rw [text, parts, closed, if_pos rfl, join_append url.name [[]] named (List.cons_ne_nil _ _), ← List.append_assoc]
          rfl
        rw [appendTrack, isText, if_pos (.inr List.getLast?_concat), joined, TrackSuffix.text]
        simp only [List.append_assoc, List.singleton_append]
    | false =>
        have isText : url.text = url.front.text ++ join url.name := by
          rw [text, parts, closed, if_neg Bool.false_ne_true, List.append_nil]
        rw [appendTrack, isText, if_neg (join_open url.front.text url.name url.solid named), joined, List.append_assoc]
        rfl

end BroadcastUrl

theorem solid_of_parts (parts : List (List Char)) (single : ∀ part ∈ parts, '/' ∉ part)
    (solid : Solid parts) : Solid (segments (join parts)) := by
  by_cases empty : parts = []
  · rw [empty]
    exact fun part member => absurd member List.not_mem_nil
  · rwa [segments_join parts single empty]

-- Only a base of two components, or of more and a slash behind them, gives the
-- name that the SETUP of one track gives.
theorem setup_names_base_iff (url : BroadcastUrl) (suffix : TrackSuffix) :
    extractBroadcast (url.setup suffix) = extractBroadcast url.base ↔
      suffix.parts.length = 1 ∧ (if url.trailingSlash then 2 ≤ url.name.length else url.name.length = 2) := by
  have solid : ∀ part ∈ url.name ++ suffix.parts, Segment part := by
    intro part member
    exact (List.mem_append.mp member).elim (url.solid part) (suffix.solid part)
  have single : ∀ part ∈ url.name ++ suffix.parts, '/' ∉ part := fun part member => (solid part member).2
  have nonempty : ∀ part ∈ url.name ++ suffix.parts, part ≠ [] := fun part member => (solid part member).1
  have some : url.name ++ suffix.parts ≠ [] := List.append_ne_nil_of_right_ne_nil _ suffix.nonempty
  have setupSolid : Solid (segments (join (url.name ++ suffix.parts))) :=
    solid_of_parts _ single fun part member => nonempty part (List.mem_of_mem_dropLast member)
  have baseSolid : Solid (segments (join url.parts)) := solid_of_parts _ url.parts_single url.parts_solid
  rw [BroadcastUrl.setup, BroadcastUrl.setup_text, extract_broadcast_front _ _ setupSolid, BroadcastUrl.base,
    BroadcastUrl.text, extract_broadcast_front _ _ baseSolid, String.ofList_inj, segments_join _ single some,
    kept_parts_join_inj _ _ single (fun part => segment_single _ part) some (segments_nonempty _)]
  by_cases named : url.name = []
  · -- An unnamed base is one empty component.
    have unnamed : segments (join url.parts) = [[]] := by
      rw [BroadcastUrl.parts, named]
      cases url.trailingSlash <;> rfl
    rw [unnamed, named]
    refine iff_of_false (fun same => ?_) fun both => ?_
    · have empty : [] ∈ keptParts ([] ++ suffix.parts) := by
        rw [same]
        exact List.mem_cons_self
      exact nonempty [] (List.mem_append_right _ (kept_parts_mem _ _ empty)) rfl
    · have long := both.2
      split at long <;> simp at long
  · rw [segments_join _ url.parts_single (List.append_ne_nil_of_left_ne_nil named _), BroadcastUrl.parts]
    cases url.trailingSlash with
    | true => exact kept_parts_closed url.name suffix.parts nonempty suffix.nonempty
    | false =>
        rw [if_neg Bool.false_ne_true, List.append_nil, if_neg Bool.false_ne_true]
        exact kept_parts_appended url.name suffix.parts suffix.nonempty named

def host : UrlFront := .absolute "host".toList (by decide)

def camera : BroadcastUrl := ⟨host, ["cam1".toList], by decide, false⟩

def studioCamera : BroadcastUrl := ⟨host, ["live".toList, "studio".toList, "cam1".toList], by decide, false⟩

def firstTrack : TrackSuffix := ⟨["track1".toList], by decide, by decide⟩

-- One segment keeps the suffix in the name, and three lose one of the name itself
-- where no suffix stands.
theorem one_and_three_segments_differ :
    camera.setup firstTrack = "rtsp://host/cam1/track1" ∧ camera.base = "rtsp://host/cam1" ∧
      extractBroadcast (camera.setup firstTrack) = "cam1/track1" ∧ extractBroadcast camera.base = "cam1" ∧
      extractBroadcast (studioCamera.setup firstTrack) = "live/studio/cam1" ∧
      extractBroadcast studioCamera.base = "live/studio" ∧
      ¬ ∀ (url : BroadcastUrl) (suffix : TrackSuffix), extractBroadcast (url.setup suffix) = extractBroadcast url.base := by
  refine ⟨by decide, by decide, by decide, by decide, by decide,
    by decide, fun always => ?_⟩
  exact absurd (always camera firstTrack) (by decide)

end Lvqr.Rtsp
