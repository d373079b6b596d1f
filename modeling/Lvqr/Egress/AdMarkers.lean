import Lvqr.Codec.Scte35
import Lvqr.Dash.Inits
import Lvqr.Hls.Broadcasts
import Lvqr.Lib.Base64

set_option autoImplicit false

-- The SCTE-35 drain of a broadcast: each splice section goes to the video playlist
-- as a date range and to the MPD as an event.
namespace Lvqr.Egress

open Codec (SpliceInfo CMD_SPLICE_INSERT parseSpliceInfoSection)
open Dash (CodecStrings DashConfig DashEvent DashOp DashServer EventStream Mpd)
open Hls (DateRange DateRangeKind HlsServer PlaylistBuilder PlaylistBuilderConfig)

def SCTE35_DATERANGE_CLASS : String := "urn:scte:scte35:2014:bin"

def pickHlsKind (info : SpliceInfo) : DateRangeKind :=
  if info.commandType = CMD_SPLICE_INSERT ∧ info.cancel = false then
    if info.outOfNetwork then .spliceOut else .spliceIn
  else .cmd

def hexDigit (value : Nat) : Char := "0123456789ABCDEF".toList.getD value '0'

def hexUpper (bytes : Bytes) : String :=
  String.ofList (bytes.flatMap fun byte : UInt8 => [hexDigit (byte >>> 4).toNat, hexDigit (byte &&& 0x0F).toNat])

def dateRangeId (info : SpliceInfo) : String :=
  if info.eventId.getD 0 ≠ 0 then "splice-" ++ toString (info.eventId.getD 0)
  else "splice-pts-" ++ toString (info.absolutePts.getD 0)

def spliceDateRange (info : SpliceInfo) (now : Nat) : DateRange where
  id := dateRangeId info
  class_ := some SCTE35_DATERANGE_CLASS
  startDateMillis := now
  durationSecs := info.duration.map fun ticks => Decimal.f64 (Decimal.f64 ticks / 90000)
  kind := pickHlsKind info
  scte35Hex := "0x" ++ hexUpper info.raw

def spliceEvent (base64Encode : Bytes → String) (info : SpliceInfo) : DashEvent where
  id := info.eventId.getD 0
  presentationTime := info.absolutePts.getD 0
  duration := info.duration
  binaryBase64 := base64Encode info.raw

-- What happened to the markers, the newest first: sections that were drained, and
-- closed segments that left a first date in the window.
inductive MarkerEvent where
  | drained (info : SpliceInfo) (now : Nat)
  | windowed (firstPdt : Nat)
deriving DecidableEq, Repr

structure AdEgress where
  hls : HlsServer
  dash : Option DashServer
  log : List MarkerEvent

inductive MediaOp where
  | pushInit (bytes : Bytes)
  | pushChunkBytes (chunk : Cmaf.CmafChunk) (body : Bytes)
  | closePendingSegment
  | finalize
deriving DecidableEq, Repr

def MediaOp.serverOp : MediaOp → Hls.ServerOp
  | .pushInit bytes => .pushInit bytes
  | .pushChunkBytes chunk body => .pushChunkBytes chunk body
  | .closePendingSegment => .closePendingSegment
  | .finalize => .finalize

-- `drain` is one turn of the drain with the clock it reads.
inductive AdOp where
  | drain (payload : Bytes) (now : Nat)
  | hls (op : MediaOp)
  | dash (op : DashOp)
  | finalizeDash
deriving DecidableEq, Repr

-- The first date of the window that a newly closed segment left behind.
def windowed (before after : PlaylistBuilder) : Option Nat :=
  if after.nextSequence = before.nextSequence then none
  else after.manifest.segments.head?.bind Hls.Segment.programDateTimeMillis

namespace AdEgress

def new (hls : PlaylistBuilderConfig) (dash : Option DashConfig) : AdEgress := ⟨.new hls, dash.map .new, []⟩

-- A section that does not parse is dropped.
def drain (base64Encode : Bytes → String) (ad : AdEgress) (payload : Bytes) (now : Nat) : AdEgress :=
  match parseSpliceInfoSection payload with
  | .error _ => ad
  | .ok info =>
      { hls := ad.hls.pushDateRange (spliceDateRange info now)
        dash := ad.dash.map fun server => server.pushEvent (spliceEvent base64Encode info)
        log := .drained info now :: ad.log }

def step (codecs : CodecStrings) (base64Encode : Bytes → String) (ad : AdEgress) : AdOp → AdEgress
  | .drain payload now => ad.drain base64Encode payload now
  | .hls op =>
      let hls := ad.hls.apply op.serverOp
      let log :=
        match windowed ad.hls.builder hls.builder with
        | some firstPdt => .windowed firstPdt :: ad.log
        | none => ad.log
      { ad with hls := hls, log := log }
  | .dash op => { ad with dash := ad.dash.map fun server => server.apply codecs op }
  | .finalizeDash => { ad with dash := ad.dash.map DashServer.finalize }

end AdEgress

-- The section that the playlist owes an ID and kind, and its start date: the first
-- one drained since the window left the one before behind.
def due (id : String) (kind : DateRangeKind) : List MarkerEvent → Option (SpliceInfo × Nat)
  | [] => none
  | .drained info now :: log =>
      if dateRangeId info = id ∧ pickHlsKind info = kind then (due id kind log).or (some (info, now)) else due id kind log
  | .windowed firstPdt :: log => (due id kind log).filter fun marker => firstPdt ≤ marker.2

def latest (id : Nat) : List MarkerEvent → Option SpliceInfo
  | [] => none
  | .drained info _ :: log => if info.eventId.getD 0 = id then some info else latest id log
  | .windowed _ :: log => latest id log

def rangesOf (ranges : List DateRange) (id : String) (kind : DateRangeKind) : List DateRange :=
  ranges.filter fun range => range.id = id ∧ range.kind = kind

def eventsOf (events : List DashEvent) (id : Nat) : List DashEvent := events.filter fun event => event.id = id

def keptFrom (firstPdt : Option Nat) (ranges : List DateRange) : List DateRange :=
  match firstPdt with
  | some firstPdt => ranges.filter (firstPdt ≤ ·.startDateMillis)
  | none => ranges

theorem windowed_of_same (before after : PlaylistBuilder) (same : after.nextSequence = before.nextSequence) :
    windowed before after = none := if_pos same

theorem closed_date_ranges (builder : PlaylistBuilder) :
    builder.closePendingSegment.manifest.dateRanges =
      keptFrom (windowed builder builder.closePendingSegment) builder.manifest.dateRanges := by
  by_cases empty : builder.pendingParts = []
  · rw [builder.close_nothing_pending empty, windowed_of_same builder builder rfl]
    rfl
  · have closed : builder.closePendingSegment = builder.appendSegment.evictOverflow.pruneDateRanges := if_neg empty
    have evicted := builder.appendSegment.evict_overflow_eq
    rw [closed, PlaylistBuilder.pruneDateRanges]
    cases first : builder.appendSegment.evictOverflow.manifest.segments.head?.bind Hls.Segment.programDateTimeMillis with
    | none =>
        have unwindowed : windowed builder builder.appendSegment.evictOverflow = none := by
          rw [windowed, first, ite_self]
        simp only [unwindowed, keptFrom]
        rw [evicted]
        rfl
    | some firstPdt =>
        have next : builder.appendSegment.evictOverflow.nextSequence ≠ builder.nextSequence := by
          rw [evicted]
          exact Nat.succ_ne_self builder.nextSequence
        rw [windowed, if_neg next]
        simp only [first, keptFrom]
        rw [evicted]
        rfl

theorem accepted_date_ranges (builder : PlaylistBuilder) (chunk : Cmaf.CmafChunk) :
    (builder.accept chunk).manifest.dateRanges =
      keptFrom (windowed builder (builder.accept chunk)) builder.manifest.dateRanges := by
  rw [PlaylistBuilder.accept, PlaylistBuilder.start_chunk_eq]
  split
  · exact closed_date_ranges (builder.counted chunk)
  · rw [windowed_of_same]
    · rfl
    · rfl

theorem media_date_ranges (server : HlsServer) (op : MediaOp) :
    (server.apply op.serverOp).builder.manifest.dateRanges =
      keptFrom (windowed server.builder (server.apply op.serverOp).builder) server.builder.manifest.dateRanges := by
  cases op with
  | pushInit bytes =>
      have same : (server.pushInit bytes).builder.nextSequence = server.builder.nextSequence := by
        dsimp only [HlsServer.pushInit]
        split <;> rfl
      rw [MediaOp.serverOp, HlsServer.apply, server.push_init_manifest, windowed_of_same _ _ same]
      rfl
  | pushChunkBytes chunk body =>
      rw [MediaOp.serverOp, HlsServer.apply, server.push_chunk_builder]
      split
      · exact accepted_date_ranges server.builder chunk
      · rw [windowed_of_same _ _ rfl]
        rfl
  | closePendingSegment => exact closed_date_ranges server.builder
  | finalize => exact closed_date_ranges server.builder

theorem ranges_of_kept (firstPdt : Option Nat) (ranges : List DateRange) (id : String) (kind : DateRangeKind) :
    rangesOf (keptFrom firstPdt ranges) id kind = keptFrom firstPdt (rangesOf ranges id kind) := by
  cases firstPdt with
  | none => rfl
  | some firstPdt => simp only [rangesOf, keptFrom, List.filter_filter, Bool.and_comm]

theorem ranges_of_pushed (builder : PlaylistBuilder) (range : DateRange) (id : String) (kind : DateRangeKind) :
    rangesOf (builder.pushDateRange range).manifest.dateRanges id kind =
      if range.id = id ∧ range.kind = kind ∧ rangesOf builder.manifest.dateRanges id kind = [] then [range]
      else rangesOf builder.manifest.dateRanges id kind := by
  have listed : builder.manifest.dateRanges.any (PlaylistBuilder.sameMarker range) = true ↔
      rangesOf builder.manifest.dateRanges range.id range.kind ≠ [] := by
    simp only [rangesOf, ne_eq, List.filter_eq_nil_iff, List.any_eq_true, PlaylistBuilder.sameMarker, decide_eq_true_eq,
      Bool.and_eq_true, beq_iff_eq, not_forall, not_not, exists_prop]
  by_cases own : range.id = id ∧ range.kind = kind
  · obtain ⟨rfl, rfl⟩ := own
    by_cases empty : rangesOf builder.manifest.dateRanges range.id range.kind = []
    · rw [if_pos ⟨rfl, rfl, empty⟩, PlaylistBuilder.pushDateRange, if_neg fun any => listed.mp any empty, rangesOf,
        List.filter_append]
      refine (congrArg (· ++ _) empty).trans ?_
      simp
    · rw [if_neg fun all => empty all.2.2, PlaylistBuilder.pushDateRange, if_pos (listed.mpr empty)]
  · rw [if_neg fun all => own ⟨all.1, all.2.1⟩, PlaylistBuilder.pushDateRange]
    split
    · rfl
    · simp [rangesOf, List.filter_append, own]

def pushedEvents (events : List DashEvent) (event : DashEvent) : List DashEvent :=
  if events.any (·.id = event.id) then events.replaceF fun old => if old.id = event.id then some event else none
  else events ++ [event]

theorem events_of_absent (events : List DashEvent) (id : Nat) :
    eventsOf events id = [] ↔ events.any (·.id = id) = false := by
  simp [eventsOf, List.filter_eq_nil_iff]

theorem events_of_replaced (events : List DashEvent) (event : DashEvent) (id : Nat)
    (once : (eventsOf events event.id).length ≤ 1) (listed : events.any (·.id = event.id) = true) :
    eventsOf (events.replaceF fun old => if old.id = event.id then some event else none) id =
      if id = event.id then [event] else eventsOf events id := by
  induction events with
  | nil => cases listed
  | cons head events ih =>
      by_cases here : head.id = event.id
      · have replaced : (head :: events).replaceF (fun old => if old.id = event.id then some event else none) =
            event :: events := by simp [List.replaceF, here]
        rw [replaced]
        by_cases own : id = event.id
        · subst own
          have rest : eventsOf events event.id = [] := by
            simpa [eventsOf, here, List.filter_cons] using once
          rw [if_pos rfl]
          simpa [eventsOf, List.filter_cons] using rest
        · simp [eventsOf, own, here, Ne.symm own]
      · have onceRest : (eventsOf events event.id).length ≤ 1 := by
          simpa [eventsOf, List.filter_cons, here] using once
        have listedRest : events.any (·.id = event.id) = true := by simpa [here] using listed
        have kept := ih onceRest listedRest
        have replaced : (head :: events).replaceF (fun old => if old.id = event.id then some event else none) =
            head :: events.replaceF (fun old => if old.id = event.id then some event else none) := by
          simp [List.replaceF, here]
        rw [replaced]
        by_cases own : id = event.id
        · subst own
          rw [if_pos rfl] at kept ⊢
          simpa [eventsOf, List.filter_cons, here] using kept
        · rw [if_neg own] at kept ⊢
          simp only [eventsOf, List.filter_cons] at kept ⊢
          rw [kept]

theorem events_of_pushed (events : List DashEvent) (event : DashEvent) (id : Nat)
    (once : (eventsOf events event.id).length ≤ 1) :
    eventsOf (pushedEvents events event) id = if id = event.id then [event] else eventsOf events id := by
  rw [pushedEvents]
  by_cases listed : events.any (·.id = event.id) = true
  · rw [if_pos listed]
    exact events_of_replaced events event id once listed
  · rw [if_neg listed]
    have absent := (events_of_absent events event.id).mpr (Bool.eq_false_of_not_eq_true listed)
    by_cases own : id = event.id
    · subst own
      rw [if_pos rfl]
      refine (List.filter_append _ _).trans ((congrArg (· ++ _) absent).trans ?_)
      simp
    · rw [if_neg own]
      simp [eventsOf, List.filter_append, Ne.symm own]

def serverEvents (server : DashServer) : List DashEvent := server.eventStreams.flatMap EventStream.events

theorem pushed_server_events (server : DashServer) (event : DashEvent) (single : server.eventStreams.length ≤ 1) :
    serverEvents (server.pushEvent event) = pushedEvents (serverEvents server) event ∧
      (server.pushEvent event).eventStreams.length ≤ 1 := by
  cases streams : server.eventStreams with
  | nil => simp [serverEvents, DashServer.pushEvent, streams, pushedEvents]
  | cons stream more =>
      have none : more = [] := by simpa [streams] using single
      subst none
      simp [serverEvents, DashServer.pushEvent, streams, pushedEvents]

theorem applied_streams (codecs : CodecStrings) (server : DashServer) (op : DashOp) :
    (server.apply codecs op).eventStreams = server.eventStreams := by
  have started (now : Nat) : (server.ensureStarted now).eventStreams = server.eventStreams := by
    rw [DashServer.ensureStarted]
    split <;> rfl
  cases op with
  | pushInit isVideo bytes now => cases isVideo <;> exact started now
  | pushSegment isVideo seq bytes now => cases isVideo <;> exact started now

namespace AdEgress

structure Sound (base64Encode : Bytes → String) (ad : AdEgress) : Prop where
  ranges : ∀ id kind, rangesOf ad.hls.builder.manifest.dateRanges id kind =
    (due id kind ad.log).toList.map fun marker => spliceDateRange marker.1 marker.2
  single : ∀ server, ad.dash = some server → server.eventStreams.length ≤ 1
  events : ∀ server, ad.dash = some server → ∀ id,
    eventsOf (serverEvents server) id = (latest id ad.log).toList.map (spliceEvent base64Encode)

theorem option_once {Value Other : Type} (value : Option Value) (show_ : Value → Other) :
    (value.toList.map show_).length ≤ 1 := by
  cases value <;> simp

theorem new_sound (base64Encode : Bytes → String) (hls : PlaylistBuilderConfig) (dash : Option DashConfig) :
    (new hls dash).Sound base64Encode where
  ranges _ _ := rfl
  single server isServer := by
    obtain ⟨config, _, rfl⟩ := Option.map_eq_some_iff.mp isServer
    exact Nat.zero_le 1
  events server isServer _ := by
    obtain ⟨config, _, rfl⟩ := Option.map_eq_some_iff.mp isServer
    rfl

-- The playlist takes the section just when it owes nothing under its ID and kind.
theorem drained_ranges (ad : AdEgress) (info : SpliceInfo) (now : Nat) (id : String) (kind : DateRangeKind)
    (before : rangesOf ad.hls.builder.manifest.dateRanges id kind =
      (due id kind ad.log).toList.map fun marker => spliceDateRange marker.1 marker.2) :
    rangesOf (ad.hls.pushDateRange (spliceDateRange info now)).builder.manifest.dateRanges id kind =
      (due id kind (.drained info now :: ad.log)).toList.map fun marker => spliceDateRange marker.1 marker.2 := by
  rw [HlsServer.pushDateRange, ranges_of_pushed, before, due]
  by_cases own : dateRangeId info = id ∧ pickHlsKind info = kind
  · rw [if_pos own]
    cases due id kind ad.log with
    | none => rw [if_pos ⟨own.1, own.2, rfl⟩, Option.none_or]; rfl
    | some marker =>
        rw [if_neg, Option.some_or]
        simp
  · rw [if_neg own, if_neg fun all => own ⟨all.1, all.2.1⟩]

theorem drain_sound (base64Encode : Bytes → String) (ad : AdEgress) (payload : Bytes) (now : Nat)
    (sound : ad.Sound base64Encode) : (ad.drain base64Encode payload now).Sound base64Encode := by
  rw [drain]
  cases parseSpliceInfoSection payload with
  | error _ => exact sound
  | ok info =>
      refine ⟨fun id kind => drained_ranges ad info now id kind (sound.ranges id kind), ?_, ?_⟩
      · intro server isServer
        obtain ⟨old, found, rfl⟩ := Option.map_eq_some_iff.mp isServer
        exact (pushed_server_events old _ (sound.single old found)).2
      · intro server isServer id
        obtain ⟨old, found, rfl⟩ := Option.map_eq_some_iff.mp isServer
        have before := sound.events old found
        have once : (eventsOf (serverEvents old) (spliceEvent base64Encode info).id).length ≤ 1 := by
          rw [before]
          exact option_once _ _
        have named : (spliceEvent base64Encode info).id = info.eventId.getD 0 := rfl
        rw [(pushed_server_events old _ (sound.single old found)).1, events_of_pushed _ _ id once, latest, named]
        by_cases own : info.eventId.getD 0 = id
        · rw [if_pos own.symm, if_pos own]
          rfl
        · rw [if_neg fun same => own same.symm, if_neg own]
          exact before id

-- The window prunes what is shown and what is owed alike.
theorem media_sound (codecs : CodecStrings) (base64Encode : Bytes → String) (ad : AdEgress) (op : MediaOp)
    (sound : ad.Sound base64Encode) : (ad.step codecs base64Encode (.hls op)).Sound base64Encode := by
  have ranges (id : String) (kind : DateRangeKind) :
      rangesOf (ad.hls.apply op.serverOp).builder.manifest.dateRanges id kind =
        keptFrom (windowed ad.hls.builder (ad.hls.apply op.serverOp).builder)
          ((due id kind ad.log).toList.map fun marker => spliceDateRange marker.1 marker.2) := by
    rw [media_date_ranges, ranges_of_kept, sound.ranges id kind]
  rw [step]
  cases window : windowed ad.hls.builder (ad.hls.apply op.serverOp).builder with
  | none =>
      simp only [window] at ranges ⊢
      exact ⟨ranges, sound.single, sound.events⟩
  | some firstPdt =>
      simp only [window] at ranges ⊢
      refine ⟨fun id kind => (ranges id kind).trans ?_, sound.single, sound.events⟩
      rw [due]
      cases due id kind ad.log with
      | none => rfl
      | some marker =>
          have starts : (spliceDateRange marker.1 marker.2).startDateMillis = marker.2 := rfl
          by_cases kept : firstPdt ≤ marker.2
          · have owed : (some marker).filter (fun marker => decide (firstPdt ≤ marker.2)) = some marker :=
              if_pos (decide_eq_true kept)
            rw [owed]
            simp [keptFrom, starts, kept]
          · have gone : (some marker).filter (fun marker => decide (firstPdt ≤ marker.2)) = none :=
              if_neg (by simpa using kept)
            rw [gone]
            simpa [keptFrom, starts] using kept

theorem dash_sound (base64Encode : Bytes → String) (ad : AdEgress) (change : DashServer → DashServer)
    (keeps : ∀ server, (change server).eventStreams = server.eventStreams) (sound : ad.Sound base64Encode) :
    Sound base64Encode { ad with dash := ad.dash.map change } where
  ranges := sound.ranges
  single server isServer := by
    obtain ⟨old, found, rfl⟩ := Option.map_eq_some_iff.mp isServer
    rw [keeps old]
    exact sound.single old found
  events server isServer id := by
    obtain ⟨old, found, rfl⟩ := Option.map_eq_some_iff.mp isServer
    rw [serverEvents, keeps old]
    exact sound.events old found id

theorem step_sound (codecs : CodecStrings) (base64Encode : Bytes → String) (ad : AdEgress) (op : AdOp)
    (sound : ad.Sound base64Encode) : (ad.step codecs base64Encode op).Sound base64Encode := by
  cases op with
  | drain payload now => exact drain_sound base64Encode ad payload now sound
  | hls op => exact media_sound codecs base64Encode ad op sound
  | dash op => exact dash_sound base64Encode ad _ (fun server => applied_streams codecs server op) sound
  | finalizeDash => exact dash_sound base64Encode ad _ (fun _ => rfl) sound

end AdEgress

end Lvqr.Egress
