import Mathlib.Algebra.Group.Nat.Defs
import Lvqr.Hls.Server
import Lvqr.Lib.Notify
import Lvqr.Hls.Conservation
import Lvqr.Hls.Routing
import Lvqr.Hls.Broadcasts

set_option autoImplicit false

-- Blocking reload: requests for a playlist that is not there yet, and the calls
-- that make it and notify.
namespace Lvqr.Hls

open Notify (Board Choice)

structure BlockingReloadQuery where
  hlsMsn : Option Nat
  hlsPart : Option Nat
deriving DecidableEq, Repr

def Manifest.openSequence (manifest : Manifest) : Nat :=
  match manifest.segments.getLast? with
  | some segment => segment.sequence + 1
  | none => 0

def Manifest.ready (manifest : Manifest) (query : BlockingReloadQuery) : Bool :=
  match query.hlsMsn, query.hlsPart with
  | none, _ => true
  | some targetMsn, none => manifest.segments.any fun segment => targetMsn ≤ segment.sequence
  | some targetMsn, some targetPart =>
      (manifest.segments.any fun segment => targetMsn ≤ segment.sequence) ||
        (manifest.openSequence = targetMsn && targetPart < manifest.preliminaryParts.length % 2 ^ 32)

namespace HlsServer

-- A refused chunk leaves before the waiters are notified.
def notifies (server : HlsServer) : ServerOp → Bool
  | .pushChunkBytes chunk body =>
      match (server.pushChunkBytes chunk body).1 with
      | .ok _ => true
      | .error _ => false
  | _ => true

theorem apply_quiet (server : HlsServer) (op : ServerOp) (quiet : server.notifies op = false) :
    server.apply op = server := by
  cases op with
  | pushChunkBytes chunk body =>
      rw [apply]
      by_cases accepts : server.builder.Accepts chunk
      · have pushed := PlaylistBuilder.push_section_accepted server.builder chunk body accepts
        simp [notifies, pushChunkBytes, pushed] at quiet
      · obtain ⟨error, failed⟩ := PlaylistBuilder.push_section_rejected server.builder chunk body accepts
        rw [pushChunkBytes, failed]
  | pushInit | pushDateRange | closePendingSegment | finalize => cases quiet

end HlsServer

-- A call changes builder and cache first and notifies at its end.
def reloadBoard : Board HlsServer ServerOp BlockingReloadQuery where
  ready server query := server.builder.manifest.ready query
  act server op := (server.apply op, server.notifies op)
  quiet server op quiet := server.apply_quiet op quiet

abbrev Reload := Notify.System HlsServer ServerOp BlockingReloadQuery

def Reload.start (config : PlaylistBuilderConfig) (calls : List ServerOp) (queries : List BlockingReloadQuery) : Reload :=
  Notify.System.start (.new config) calls queries

-- Whatever the calls and the requests are and however they interleave, no request
-- sleeps while its part is there and every notification over, exactly if none
-- registers with the notifier in such a state.
theorem reload_never_lost_iff (config : PlaylistBuilderConfig) (calls : List ServerOp)
    (queries : List BlockingReloadQuery) (schedule : List Choice) :
    (∀ seen, seen <+: schedule →
      ¬ (Machine.run (Notify.System.step reloadBoard) (Reload.start config calls queries) seen).Lost reloadBoard) ↔
      Machine.AllSteps (Notify.System.InTime reloadBoard) (Notify.System.step reloadBoard)
        (Reload.start config calls queries) schedule :=
  Notify.System.never_lost_iff reloadBoard (.new config) calls queries schedule

-- A call that waits for the requests between their look and their registration
-- loses none of them.
theorem undisturbed_reload_never_lost (config : PlaylistBuilderConfig) (calls : List ServerOp)
    (queries : List BlockingReloadQuery) (schedule : List Choice)
    (undisturbed : Machine.AllSteps Notify.System.Undisturbed (Notify.System.step reloadBoard)
      (Reload.start config calls queries) schedule) :
    ¬ (Machine.run (Notify.System.step reloadBoard) (Reload.start config calls queries) schedule).Lost reloadBoard := by
  have unready : (Reload.start config calls queries).Unready reloadBoard := by
    simp [Notify.System.Unready, Reload.start, Notify.System.start]
  have inTime := Notify.System.in_time_of_undisturbed reloadBoard _ schedule unready undisturbed
  exact (Notify.System.never_lost_iff reloadBoard (.new config) calls queries schedule).mpr inTime schedule
    (List.prefix_refl schedule)

def openingChunk : Cmaf.CmafChunk := ⟨"0.mp4", [1], 0, 3000, .segment⟩

-- The request looks before the push and registers after its notification.
def overtaken : List Choice := [.wait 0 false, .produce 0, .produce 0, .wait 0 false]

theorem overtaken_request_lost :
    ¬ ∀ (config : PlaylistBuilderConfig) (calls : List ServerOp) (queries : List BlockingReloadQuery)
      (schedule : List Choice),
      ¬ (Machine.run (Notify.System.step reloadBoard) (Reload.start config calls queries) schedule).Lost reloadBoard := by
  intro neverLost
  refine neverLost .default [.pushChunkBytes openingChunk [1]] [⟨some 0, some 0⟩] overtaken ⟨?_, ⟨some 0, some 0⟩, ?_, ?_⟩
  · simp only [Notify.System.Owing]
    decide
  · decide +kernel
  · decide

-- The number of the open segment, which requests find from the end of the window
-- and the builder keeps in a counter.

open PlaylistBuilder

-- What a server call does to its builder.
def HlsServer.builderOps (server : HlsServer) : ServerOp → List TraceOp
  | .pushInit _ => if server.initSegment.isSome then [.builder .markDiscontinuityPending] else []
  | .pushChunkBytes chunk _ =>
      if server.builder.Accepts chunk then [.builder (.push chunk), .drainEvictedUris] else []
  | .pushDateRange range => [.builder (.pushDateRange range)]
  | .closePendingSegment => [.builder .closePendingSegment, .drainEvictedUris]
  | .finalize => [.builder .finalize, .drainEvictedUris]

structure AccountedServer where
  server : HlsServer
  account : BuilderTrace

namespace AccountedServer

def new (config : PlaylistBuilderConfig) : AccountedServer := ⟨.new config, .new config⟩

def apply (accounted : AccountedServer) (op : ServerOp) : AccountedServer where
  server := accounted.server.apply op
  account := Machine.run BuilderTrace.step accounted.account (accounted.server.builderOps op)

-- The number of the segment that the next close leaves behind.
def closingSequence (accounted : AccountedServer) : Option Nat :=
  (accounted.apply .closePendingSegment).account.segments.getLast?.map Segment.sequence

def IsClosed (accounted : AccountedServer) (msn : Nat) : Prop :=
  ∃ segment ∈ accounted.account.segments, segment.sequence = msn

-- `_HLS_part` is a u32.
structure NumbersOpen (accounted : AccountedServer) : Prop where
  waited : accounted.server.builder.pendingParts ≠ [] →
    accounted.closingSequence = some accounted.server.builder.manifest.openSequence
  reported : accounted.server.builder.pendingParts ≠ [] →
    accounted.server.currentRenditionPosition.map Prod.fst = accounted.closingSequence
  readiness : ∀ msn part, part < 2 ^ 32 →
    (accounted.server.builder.manifest.ready ⟨some msn, some part⟩ = true ↔
      accounted.IsClosed msn ∨
        accounted.closingSequence = some msn ∧ part < accounted.server.builder.pendingParts.length)

-- Only a playlist that counts from zero and keeps at least one closed segment gets
-- its numbers right once it has parts.
def Countable (server : HlsServer) : ServerOp → Prop
  | .pushInit _ => True
  | .pushChunkBytes chunk _ =>
      server.builder.Accepts chunk →
        server.builder.config.startingSequence = 0 ∧
          if chunk.kind.isSegmentStart = true ∧ server.builder.pendingParts ≠ [] then
            server.builder.config.maxSegments ≠ some 0
          else server.builder.pendingParts.length + 1 < 2 ^ 32
  | .pushDateRange _ => True
  | .closePendingSegment => server.builder.pendingParts ≠ [] → server.builder.config.maxSegments ≠ some 0
  | .finalize => server.builder.pendingParts ≠ [] → server.builder.config.maxSegments ≠ some 0

instance (server : HlsServer) : (op : ServerOp) → Decidable (Countable server op)
  | .pushInit _ => inferInstanceAs (Decidable True)
  | .pushChunkBytes _ _ => inferInstanceAs (Decidable (_ → _ ∧ ite _ _ _))
  | .pushDateRange _ => inferInstanceAs (Decidable True)
  | .closePendingSegment => inferInstanceAs (Decidable (_ → _))
  | .finalize => inferInstanceAs (Decidable (_ → _))

theorem builder_ops_run (server : HlsServer) (op : ServerOp) (trace : BuilderTrace)
    (linked : trace.builder = server.builder) :
    (Machine.run BuilderTrace.step trace (server.builderOps op)).builder = (server.apply op).builder := by
  obtain ⟨builder, accepted, ledger, drained⟩ := trace
  cases linked
  cases op with
  | pushInit bytes =>
      by_cases replaced : server.initSegment.isSome = true
      · simp only [HlsServer.builderOps, HlsServer.apply, HlsServer.pushInit, if_pos replaced]
        rfl
      · simp only [HlsServer.builderOps, HlsServer.apply, HlsServer.pushInit, if_neg replaced]
        rfl
  | pushChunkBytes chunk body =>
      rw [HlsServer.apply, HlsServer.push_chunk_builder, HlsServer.builderOps]
      by_cases accepts : server.builder.Accepts chunk
      · rw [if_pos accepts, if_pos accepts, Machine.run_cons, step_push_accepted _ chunk accepts]
        rfl
      · rw [if_neg accepts, if_neg accepts]
        rfl
  | pushDateRange range => rfl
  | closePendingSegment => rfl
  | finalize => rfl

-- What the numbers rest on: the account of the builder and the window it shows.
structure Sound (config : PlaylistBuilderConfig) (accounted : AccountedServer) : Prop where
  linked : accounted.account.builder = accounted.server.builder
  conserved : Conserved accounted.account
  configured : accounted.server.builder.config = config

theorem new_sound (config : PlaylistBuilderConfig) : Sound config (.new config) := ⟨rfl, new_conserved config, rfl⟩

theorem apply_sound (config : PlaylistBuilderConfig) (accounted : AccountedServer) (op : ServerOp)
    (sound : Sound config accounted) : Sound config (accounted.apply op) where
  linked := builder_ops_run accounted.server op accounted.account sound.linked
  conserved := Machine.invariant_of_run step_conserved accounted.account _ sound.conserved
  configured := by
    rw [AccountedServer.apply, ← builder_ops_run accounted.server op accounted.account sound.linked]
    exact trace_config config _ _ (by rw [sound.linked, sound.configured])

-- An account in numbers: what closed, what is listed, what is open.
section Numbers

variable {config : PlaylistBuilderConfig} {accounted : AccountedServer} (sound : Sound config accounted)

include sound

theorem sequences_counted : accounted.account.segments.map Segment.sequence =
    List.range' config.startingSequence accounted.account.segments.length := by
  have numbered := sound.conserved.kept.sequences
  rw [sound.linked, sound.configured] at numbered
  rw [BuilderTrace.segments, List.map_map, List.length_map]
  exact numbered

theorem next_counted : accounted.server.builder.nextSequence =
    config.startingSequence + accounted.account.segments.length := by
  have next := sound.conserved.kept.next
  rw [sound.linked, sound.configured] at next
  rw [next, BuilderTrace.segments, List.length_map]

theorem is_closed_iff (msn : Nat) : accounted.IsClosed msn ↔
    config.startingSequence ≤ msn ∧ msn < accounted.server.builder.nextSequence := by
  have listed : accounted.IsClosed msn ↔ msn ∈ accounted.account.segments.map Segment.sequence := by
    simp [IsClosed]
  rw [listed, sequences_counted sound, List.mem_range'_1, next_counted sound]

theorem closing_sequence_eq (pending : accounted.server.builder.pendingParts ≠ []) :
    accounted.closingSequence = some accounted.server.builder.nextSequence := by
  have open' : accounted.account.builder.pendingParts ≠ [] := sound.linked ▸ pending
  have closed : (accounted.apply .closePendingSegment).account.segments =
      accounted.account.segments ++ [accounted.account.builder.pendingSegment] := by
    change (accounted.account.ledger.closed accounted.account.builder).history.map ClosedSegment.segment = _
    rw [ledger_closed_pending _ _ open', List.map_append]
    rfl
  rw [closingSequence, closed, List.getLast?_concat, sound.linked]
  rfl

theorem listed_last (listed : accounted.server.builder.manifest.segments ≠ []) :
    (accounted.server.builder.manifest.segments.getLast listed).sequence + 1 = accounted.server.builder.nextSequence := by
  obtain ⟨dropped, windowed⟩ := sound.conserved.windowed
  have partition := windowed.partition
  rw [sound.linked] at partition
  have whole : accounted.account.segments ≠ [] := by
    rw [partition]
    exact List.append_ne_nil_of_right_ne_nil _ listed
  have last : accounted.account.segments.getLast? = some (accounted.server.builder.manifest.segments.getLast listed) := by
    rw [partition, List.getLast?_append_of_ne_nil _ listed, List.getLast?_eq_some_getLast listed]
  have numbered := congrArg List.getLast? (sequences_counted sound)
  have positive := List.length_pos_iff.mpr whole
  rw [List.getLast?_map, last, Option.map_some, List.getLast?_range', if_neg (by omega), Option.some_inj] at numbered
  have next := next_counted sound
  omega

theorem open_sequence_listed (listed : accounted.server.builder.manifest.segments ≠ []) :
    accounted.server.builder.manifest.openSequence = accounted.server.builder.nextSequence := by
  rw [Manifest.openSequence, List.getLast?_eq_some_getLast listed]
  exact listed_last sound listed

theorem reaches_iff (listed : accounted.server.builder.manifest.segments ≠ []) (msn : Nat) :
    (accounted.server.builder.manifest.segments.any fun segment => msn ≤ segment.sequence) = true ↔
      msn < accounted.server.builder.nextSequence := by
  have last := listed_last sound listed
  rw [List.any_eq_true]
  constructor
  · rintro ⟨segment, member, reaches⟩
    obtain ⟨dropped, windowed⟩ := sound.conserved.windowed
    have partition := windowed.partition
    rw [sound.linked] at partition
    have closed : accounted.IsClosed segment.sequence := by
      refine ⟨segment, ?_, rfl⟩
      rw [partition]
      exact List.mem_append_right _ member
    have below := ((is_closed_iff sound _).mp closed).2
    have reached : msn ≤ segment.sequence := by simpa using reaches
    omega
  · intro below
    exact ⟨_, List.getLast_mem listed, by simp; omega⟩

theorem shown_open : accounted.server.builder.manifest.preliminaryParts = accounted.server.builder.pendingParts := by
  have preliminary := sound.conserved.preliminary
  rwa [sound.linked] at preliminary

theorem ready_iff (msn part : Nat) :
    accounted.server.builder.manifest.ready ⟨some msn, some part⟩ = true ↔
      (accounted.server.builder.manifest.segments.any fun segment => msn ≤ segment.sequence) = true ∨
        accounted.server.builder.manifest.openSequence = msn ∧
          part < accounted.server.builder.pendingParts.length % 2 ^ 32 := by
  simp [Manifest.ready, shown_open sound]

theorem nothing_listed (none : accounted.account.segments = []) :
    accounted.server.builder.manifest.segments = [] := by
  obtain ⟨dropped, windowed⟩ := sound.conserved.windowed
  have partition := windowed.partition
  rw [sound.linked, none] at partition
  exact (List.append_eq_nil_iff.mp partition.symm).2

theorem unlisted_ready_iff (none : accounted.server.builder.manifest.segments = []) (msn part : Nat) :
    accounted.server.builder.manifest.ready ⟨some msn, some part⟩ = true ↔
      0 = msn ∧ part < accounted.server.builder.pendingParts.length % 2 ^ 32 := by
  rw [ready_iff sound, Manifest.openSequence, none]
  simp

theorem open_ready_iff (msn part : Nat) :
    accounted.closingSequence = some msn ∧ part < accounted.server.builder.pendingParts.length ↔
      accounted.server.builder.nextSequence = msn ∧ part < accounted.server.builder.pendingParts.length := by
  refine and_congr_left fun within => ?_
  have pending : accounted.server.builder.pendingParts ≠ [] := List.ne_nil_of_length_pos (by omega)
  rw [closing_sequence_eq sound pending, Option.some_inj]

theorem listed_iff : accounted.server.builder.manifest.segments ≠ [] ↔
    accounted.account.segments ≠ [] ∧ config.maxSegments ≠ some 0 := by
  obtain ⟨dropped, windowed⟩ := sound.conserved.windowed
  have bounded := windowed.bounded
  have leaves := windowed.shown
  rw [sound.linked, sound.configured] at bounded leaves
  constructor
  · intro listed
    refine ⟨fun none => listed (nothing_listed sound none), fun noRoom => listed ?_⟩
    exact List.length_eq_zero_iff.mp (Nat.le_zero.mp (bounded 0 noRoom))
  · rintro ⟨closed, room⟩
    exact leaves closed room

end Numbers

-- The states that number their open segment right.
structure InCount (config : PlaylistBuilderConfig) (accounted : AccountedServer) : Prop where
  short : accounted.server.builder.pendingParts.length < 2 ^ 32
  counted : (accounted.account.segments = [] ∧ accounted.server.builder.pendingParts = []) ∨
    (config.startingSequence = 0 ∧
      (accounted.account.segments = [] ∨ accounted.server.builder.manifest.segments ≠ []))

theorem counted_from_zero (config : PlaylistBuilderConfig) (accounted : AccountedServer) (sound : Sound config accounted)
    (zero : config.startingSequence = 0)
    (shown : accounted.account.segments = [] ∨ accounted.server.builder.manifest.segments ≠ []) :
    accounted.server.builder.manifest.openSequence = accounted.server.builder.nextSequence ∧
      ∀ msn, (accounted.server.builder.manifest.segments.any fun segment => msn ≤ segment.sequence) = true ↔
        msn < accounted.server.builder.nextSequence := by
  cases shown with
  | inl none =>
      have next : accounted.server.builder.nextSequence = 0 := by
        rw [next_counted sound, zero, none]
        rfl
      rw [Manifest.openSequence, nothing_listed sound none, next]
      simp
  | inr listed => exact ⟨open_sequence_listed sound listed, reaches_iff sound listed⟩

theorem in_count_numbers (config : PlaylistBuilderConfig) (accounted : AccountedServer) (sound : Sound config accounted)
    (inCount : InCount config accounted) : NumbersOpen accounted := by
  cases inCount.counted with
  | inl untouched =>
      obtain ⟨none, nothing⟩ := untouched
      refine ⟨fun pending => absurd nothing pending, fun pending => absurd nothing pending, ?_⟩
      intro msn part _
      rw [unlisted_ready_iff sound (nothing_listed sound none), open_ready_iff sound, nothing]
      simp [IsClosed, none]
  | inr fromZero =>
      obtain ⟨zero, shown⟩ := fromZero
      obtain ⟨openSequence, reaches⟩ := counted_from_zero config accounted sound zero shown
      refine ⟨?_, ?_, ?_⟩
      · intro pending
        rw [closing_sequence_eq sound pending, openSequence]
      · intro pending
        have preliminary : accounted.server.builder.manifest.preliminaryParts ≠ [] := by rwa [shown_open sound]
        rw [closing_sequence_eq sound pending, ← openSequence, HlsServer.currentRenditionPosition, if_pos preliminary,
          Option.map_some, Manifest.openSequence]
        cases accounted.server.builder.manifest.segments.getLast? <;> rfl
      · intro msn part _
        rw [ready_iff sound, reaches msn, openSequence, Nat.mod_eq_of_lt inCount.short, is_closed_iff sound,
          open_ready_iff sound, zero]
        simp

theorem pending_short (config : PlaylistBuilderConfig) (accounted : AccountedServer) (sound : Sound config accounted)
    (numbers : NumbersOpen accounted) : accounted.server.builder.pendingParts.length < 2 ^ 32 := by
  by_contra long
  have pending : accounted.server.builder.pendingParts ≠ [] := List.ne_nil_of_length_pos (by omega)
  have closing := closing_sequence_eq sound pending
  have openSequence : accounted.server.builder.manifest.openSequence = accounted.server.builder.nextSequence := by
    have waited := numbers.waited pending
    rw [closing, Option.some_inj] at waited
    exact waited.symm
  -- The first part that the truncated count hides.
  let hidden := accounted.server.builder.pendingParts.length % 2 ^ 32
  have ready := (numbers.readiness accounted.server.builder.nextSequence hidden (Nat.mod_lt _ (by decide))).mpr
    (.inr ⟨closing, by omega⟩)
  rw [ready_iff sound] at ready
  cases ready with
  | inl reaches =>
      by_cases listed : accounted.server.builder.manifest.segments = []
      · simp [listed] at reaches
      · exact Nat.lt_irrefl _ ((reaches_iff sound listed _).mp reaches)
  | inr here => exact Nat.lt_irrefl _ here.2

theorem numbers_in_count (config : PlaylistBuilderConfig) (accounted : AccountedServer) (sound : Sound config accounted)
    (numbers : NumbersOpen accounted) : InCount config accounted := by
  refine ⟨pending_short config accounted sound numbers, ?_⟩
  by_cases listed : accounted.server.builder.manifest.segments = []
  · by_cases none : accounted.account.segments = []
    · by_cases nothing : accounted.server.builder.pendingParts = []
      · exact .inl ⟨none, nothing⟩
      · have waited := numbers.waited nothing
        have next := next_counted sound
        rw [closing_sequence_eq sound nothing, Option.some_inj, Manifest.openSequence, listed, next, none] at waited
        exact .inr ⟨waited, .inl none⟩
    · -- A closed segment that the window let go is never ready.
      have closed : accounted.IsClosed config.startingSequence := by
        have positive := List.length_pos_iff.mpr none
        have next := next_counted sound
        exact (is_closed_iff sound _).mpr ⟨le_rfl, by omega⟩
      have ready := (numbers.readiness config.startingSequence (2 ^ 32 - 1) (by decide)).mpr (.inl closed)
      rw [unlisted_ready_iff sound listed] at ready
      have below := Nat.mod_lt accounted.server.builder.pendingParts.length (show 0 < 2 ^ 32 by decide)
      omega
  · refine .inr ⟨?_, .inr listed⟩
    by_contra positive
    -- The number just below the first one is reported as there.
    have ready : accounted.server.builder.manifest.ready ⟨some (config.startingSequence - 1), some 0⟩ = true := by
      have next := next_counted sound
      exact (ready_iff sound _ _).mpr (.inl ((reaches_iff sound listed _).mpr (by omega)))
    cases (numbers.readiness _ 0 (by decide)).mp ready with
    | inl closed =>
        have above := ((is_closed_iff sound _).mp closed).1
        omega
    | inr here =>
        have opened := ((open_ready_iff sound _ _).mp here).1
        have next := next_counted sound
        omega

theorem in_count_iff (config : PlaylistBuilderConfig) (accounted : AccountedServer) (sound : Sound config accounted) :
    InCount config accounted ↔
      accounted.server.builder.pendingParts.length < 2 ^ 32 ∧
        ((accounted.account.segments = [] ∧ accounted.server.builder.pendingParts = []) ∨
          (config.startingSequence = 0 ∧ (accounted.account.segments = [] ∨ config.maxSegments ≠ some 0))) := by
  have same : accounted.account.segments = [] ∨ accounted.server.builder.manifest.segments ≠ [] ↔
      accounted.account.segments = [] ∨ config.maxSegments ≠ some 0 := by
    rw [listed_iff sound]
    by_cases none : accounted.account.segments = []
    · simp [none]
    · simp [none]
  rw [← same]
  exact ⟨fun inCount => ⟨inCount.short, inCount.counted⟩, fun ⟨short, counted⟩ => ⟨short, counted⟩⟩

-- The calls that leave the open parts and the closed segments alone.
theorem untouched_in_count (config : PlaylistBuilderConfig) (before after : AccountedServer) (sound : Sound config before)
    (soundAfter : Sound config after) (inCount : InCount config before)
    (pendingParts : after.server.builder.pendingParts = before.server.builder.pendingParts)
    (segments : after.account.segments = before.account.segments) : InCount config after := by
  rw [in_count_iff config after soundAfter, pendingParts, segments]
  exact (in_count_iff config before sound).mp inCount

-- The calls that close the open segment, with what they open instead.
theorem closes_in_count_iff (config : PlaylistBuilderConfig) (before after : AccountedServer)
    (sound : Sound config before) (soundAfter : Sound config after) (inCount : InCount config before)
    (pending : before.server.builder.pendingParts ≠ []) (few : after.server.builder.pendingParts.length ≤ 1)
    (closed : after.account.segments ≠ []) : InCount config after ↔ config.maxSegments ≠ some 0 := by
  have zero : config.startingSequence = 0 := by
    cases ((in_count_iff config before sound).mp inCount).2 with
    | inl untouched => exact absurd untouched.2 pending
    | inr fromZero => exact fromZero.1
  rw [in_count_iff config after soundAfter]
  simp only [closed, zero, false_and, false_or, true_and, and_iff_right_iff_imp]
  intro _
  omega

theorem account_builder_closed (accounted : AccountedServer) (config : PlaylistBuilderConfig)
    (sound : Sound config accounted) (pending : accounted.server.builder.pendingParts ≠ []) :
    (accounted.account.ledger.closed accounted.account.builder).history.map ClosedSegment.segment =
      accounted.account.segments ++ [accounted.server.builder.pendingSegment] := by
  rw [sound.linked, ledger_closed_pending _ _ pending, List.map_append]
  rfl

theorem close_in_count_iff (config : PlaylistBuilderConfig) (accounted : AccountedServer)
    (after : AccountedServer) (sound : Sound config accounted) (soundAfter : Sound config after)
    (inCount : InCount config accounted) (nothing : after.server.builder.pendingParts = [])
    (closed : after.account.ledger = accounted.account.ledger.closed accounted.account.builder) :
    InCount config after ↔
      (accounted.server.builder.pendingParts ≠ [] → accounted.server.builder.config.maxSegments ≠ some 0) := by
  by_cases empty : accounted.server.builder.pendingParts = []
  · have segments : after.account.segments = accounted.account.segments := by
      rw [BuilderTrace.segments, closed, sound.linked, ledger_nothing_pending _ _ empty, BuilderTrace.segments]
    have kept := untouched_in_count config accounted after sound soundAfter inCount (nothing.trans empty.symm) segments
    exact ⟨fun _ pending => absurd empty pending, fun _ => kept⟩
  · have segments : after.account.segments = accounted.account.segments ++ [accounted.server.builder.pendingSegment] := by
      rw [BuilderTrace.segments, closed, account_builder_closed accounted config sound empty]
    rw [closes_in_count_iff config accounted after sound soundAfter inCount empty (by simp [nothing]) (by simp [segments]),
      sound.configured]
    exact ⟨fun room _ => room, fun room => room empty⟩

theorem pushed_boundary (builder : PlaylistBuilder) (ledger : Ledger Cmaf.CmafChunk) (chunk : Cmaf.CmafChunk)
    (boundary : chunk.kind.isSegmentStart = true ∧ builder.pendingParts ≠ []) :
    (builder.accept chunk).pendingParts = [builder.nextPart chunk] ∧
      (ledger.pushed builder chunk chunk).history.map ClosedSegment.segment ≠ [] := by
  obtain ⟨start, pending⟩ := boundary
  constructor
  · simp [accept, appendPart, start_chunk_eq, start]
  · simp [Ledger.pushed, Ledger.started, start, ledger_closed_pending _ _ pending]

theorem pushed_within (builder : PlaylistBuilder) (ledger : Ledger Cmaf.CmafChunk) (chunk : Cmaf.CmafChunk)
    (within : ¬ (chunk.kind.isSegmentStart = true ∧ builder.pendingParts ≠ [])) :
    (builder.accept chunk).pendingParts = builder.pendingParts ++ [builder.nextPart chunk] ∧
      (ledger.pushed builder chunk chunk).history = ledger.history := by
  have kept : builder.startChunk chunk = builder.counted chunk := if_neg within
  have same : ledger.started builder chunk = ledger := by
    rw [Ledger.started]
    split
    · rename_i start
      exact ledger_nothing_pending ledger builder (not_not.mp fun pending => within ⟨start, pending⟩)
    · rfl
  refine ⟨?_, by rw [Ledger.pushed, same]⟩
  rw [accept, kept]
  rfl

theorem push_in_count_iff (config : PlaylistBuilderConfig) (accounted : AccountedServer) (chunk : Cmaf.CmafChunk)
    (body : Bytes) (sound : Sound config accounted) (inCount : InCount config accounted) :
    InCount config (accounted.apply (.pushChunkBytes chunk body)) ↔
      Countable accounted.server (.pushChunkBytes chunk body) := by
  have soundAfter := apply_sound config accounted (.pushChunkBytes chunk body) sound
  have before := ((in_count_iff config accounted sound).mp inCount).2
  by_cases accepts : accounted.server.builder.Accepts chunk
  · have pendingParts : (accounted.apply (.pushChunkBytes chunk body)).server.builder.pendingParts =
        (accounted.server.builder.accept chunk).pendingParts := by
      rw [AccountedServer.apply, HlsServer.apply, HlsServer.push_chunk_builder, if_pos accepts]
    have segments : (accounted.apply (.pushChunkBytes chunk body)).account.segments =
        (accounted.account.ledger.pushed accounted.server.builder chunk chunk).history.map ClosedSegment.segment := by
      have here : accounted.account.builder.Accepts chunk := sound.linked ▸ accepts
      simp only [AccountedServer.apply, HlsServer.builderOps, if_pos accepts, Machine.run_cons]
      rw [step_push_accepted _ chunk here, sound.linked]
      rfl
    simp only [Countable, accepts, forall_const, sound.configured]
    by_cases boundary : chunk.kind.isSegmentStart = true ∧ accounted.server.builder.pendingParts ≠ []
    · obtain ⟨parts, closed⟩ := pushed_boundary accounted.server.builder accounted.account.ledger chunk boundary
      rw [if_pos boundary, closes_in_count_iff config accounted _ sound soundAfter inCount boundary.2
        (by rw [pendingParts, parts]; rfl) (by rwa [segments])]
      exact ⟨fun room => ⟨(before.resolve_left fun untouched => boundary.2 untouched.2).1, room⟩, And.right⟩
    · obtain ⟨parts, history⟩ := pushed_within accounted.server.builder accounted.account.ledger chunk boundary
      have same : (accounted.apply (.pushChunkBytes chunk body)).account.segments = accounted.account.segments := by
        rw [segments, history]
        rfl
      rw [if_neg boundary, in_count_iff config _ soundAfter, pendingParts, parts, same, List.length_append,
        List.length_singleton]
      constructor
      · rintro ⟨short, untouched | fromZero⟩
        · simp at untouched
        · exact ⟨fromZero.1, short⟩
      · rintro ⟨zero, short⟩
        exact ⟨short, .inr ⟨zero, before.elim (fun untouched => .inl untouched.1) And.right⟩⟩
  · have kept : InCount config (accounted.apply (.pushChunkBytes chunk body)) := by
      refine untouched_in_count config accounted _ sound soundAfter inCount ?_ ?_
      · rw [AccountedServer.apply, HlsServer.apply, HlsServer.push_chunk_builder, if_neg accepts]
      · simp [AccountedServer.apply, HlsServer.builderOps, accepts]
    exact ⟨fun _ accepted => absurd accepted accepts, fun _ => kept⟩

theorem apply_in_count_iff (config : PlaylistBuilderConfig) (accounted : AccountedServer) (op : ServerOp)
    (sound : Sound config accounted) (inCount : InCount config accounted) :
    InCount config (accounted.apply op) ↔ Countable accounted.server op := by
  have soundAfter := apply_sound config accounted op sound
  cases op with
  | pushInit bytes =>
      have kept : InCount config (accounted.apply (.pushInit bytes)) := by
        refine untouched_in_count config accounted _ sound soundAfter inCount ?_ ?_
        · simp only [AccountedServer.apply, HlsServer.apply, HlsServer.pushInit]
          split <;> rfl
        · simp only [AccountedServer.apply, HlsServer.builderOps]
          split <;> rfl
      exact ⟨fun _ => trivial, fun _ => kept⟩
  | pushChunkBytes chunk body => exact push_in_count_iff config accounted chunk body sound inCount
  | pushDateRange range =>
      have kept : InCount config (accounted.apply (.pushDateRange range)) := by
        refine untouched_in_count config accounted _ sound soundAfter inCount ?_ rfl
        obtain ⟨ranges, pushed⟩ := push_date_range_eq accounted.server.builder range
        rw [AccountedServer.apply, HlsServer.apply, HlsServer.pushDateRange, pushed]
      exact ⟨fun _ => trivial, fun _ => kept⟩
  | closePendingSegment =>
      exact close_in_count_iff config accounted _ sound soundAfter inCount (close_pending_parts _) rfl
  | finalize => exact close_in_count_iff config accounted _ sound soundAfter inCount (finalize_pending_parts _) rfl

theorem new_in_count (config : PlaylistBuilderConfig) : InCount config (.new config) :=
  ⟨Nat.two_pow_pos 32, .inl ⟨rfl, rfl⟩⟩

end AccountedServer

open AccountedServer in
theorem open_segment_numbered_iff (config : PlaylistBuilderConfig) (ops : List ServerOp) :
    (∀ seen, seen <+: ops → NumbersOpen (Machine.run AccountedServer.apply (.new config) seen)) ↔
      Machine.AllSteps (fun accounted op => Countable accounted.server op) AccountedServer.apply (.new config) ops := by
  rw [← Machine.invariant_iff_guarded_under (apply_sound config) (apply_in_count_iff config) (.new config) ops
    (new_sound config) (new_in_count config)]
  refine forall₂_congr fun seen _ => ?_
  have sound : Sound config (Machine.run AccountedServer.apply (.new config) seen) :=
    Machine.invariant_of_run (apply_sound config) (.new config) seen (new_sound config)
  exact ⟨numbers_in_count config _ sound, in_count_numbers config _ sound⟩

-- A playlist that resumes at 5: the open segment is waited for under 0.
def resumedConfig : PlaylistBuilderConfig := { PlaylistBuilderConfig.default with startingSequence := 5 }

theorem resumed_playlist_misnumbered :
    ¬ ∀ (config : PlaylistBuilderConfig) (ops : List ServerOp),
      (Machine.run AccountedServer.apply (.new config) ops).NumbersOpen := by
  intro numbered
  have waited := (numbered resumedConfig [.pushChunkBytes openingChunk [1]]).waited (by decide +kernel)
  revert waited
  decide

-- Blocking reload of a playlist that has ended: which requests are still parked.

namespace AccountedServer

-- The number that the open segment of a run bears, or would bear.
def nextNumber (config : PlaylistBuilderConfig) (accounted : AccountedServer) : Nat :=
  config.startingSequence + accounted.account.segments.length

-- The requests that a run of calls has answered: those that name no segment, those
-- for a number that it counted past while the window keeps any segment, and those for
-- a part of a segment that late chunks have opened.
def Answered (config : PlaylistBuilderConfig) (accounted : AccountedServer) (query : BlockingReloadQuery) : Prop :=
  ∀ msn, query.hlsMsn = some msn →
    if accounted.account.segments ≠ [] ∧ config.maxSegments ≠ some 0 then
      msn < accounted.nextNumber config ∨ msn = accounted.nextNumber config ∧
        ∃ part, query.hlsPart = some part ∧ part < accounted.server.builder.pendingParts.length % 2 ^ 32
    else msn = 0 ∧ ∃ part, query.hlsPart = some part ∧ part < accounted.server.builder.pendingParts.length % 2 ^ 32

section Requests

variable {config : PlaylistBuilderConfig} {accounted : AccountedServer} (sound : Sound config accounted)

include sound

theorem ready_split (msn : Nat) (part : Option Nat) :
    accounted.server.builder.manifest.ready ⟨some msn, part⟩ = true ↔
      (accounted.server.builder.manifest.segments.any fun segment => msn ≤ segment.sequence) = true ∨
        accounted.server.builder.manifest.openSequence = msn ∧
          ∃ index, part = some index ∧ index < accounted.server.builder.pendingParts.length % 2 ^ 32 := by
  cases part with
  | none => simp [Manifest.ready]
  | some part => simp [ready_iff sound]

theorem ready_iff_answered (query : BlockingReloadQuery) :
    accounted.server.builder.manifest.ready query = true ↔ accounted.Answered config query := by
  obtain ⟨msn, part⟩ := query
  cases msn with
  | none => simp [Manifest.ready, Answered]
  | some msn =>
      have next : accounted.server.builder.nextSequence = accounted.nextNumber config := next_counted sound
      have here : accounted.Answered config ⟨some msn, part⟩ ↔
          if accounted.account.segments ≠ [] ∧ config.maxSegments ≠ some 0 then
            msn < accounted.nextNumber config ∨ msn = accounted.nextNumber config ∧
              ∃ index, part = some index ∧ index < accounted.server.builder.pendingParts.length % 2 ^ 32
          else msn = 0 ∧
            ∃ index, part = some index ∧ index < accounted.server.builder.pendingParts.length % 2 ^ 32 := by
        simp only [Answered, Option.some_inj, forall_eq']
      rw [ready_split sound, here]
      by_cases listed : accounted.server.builder.manifest.segments = []
      · rw [if_neg ((listed_iff sound).not.mp (not_not.mpr listed)), Manifest.openSequence, listed]
        simp [eq_comm]
      · rw [if_pos ((listed_iff sound).mp listed), reaches_iff sound listed, open_sequence_listed sound listed, next, eq_comm]

-- Whatever the run has counted to, a request beyond it is parked.
theorem beyond_parked (part : Option Nat) :
    accounted.server.builder.manifest.ready ⟨some (accounted.nextNumber config + 1), part⟩ = false := by
  rw [← Bool.not_eq_true, ready_iff_answered sound]
  intro answered
  have split := answered _ rfl
  split at split
  · omega
  · omega

end Requests

theorem apply_stays_ended (server : HlsServer) (op : ServerOp) (ended : server.builder.manifest.ended = true) :
    (server.apply op).builder.manifest.ended = true := by
  cases op with
  | pushInit bytes => rw [HlsServer.apply, HlsServer.push_init_manifest, ended]
  | pushChunkBytes chunk body => rw [HlsServer.apply, HlsServer.push_chunk_ended, ended]
  | pushDateRange range =>
      obtain ⟨ranges, pushed⟩ := push_date_range_eq server.builder range
      rw [HlsServer.apply, HlsServer.pushDateRange, pushed]
      exact ended
  | closePendingSegment => exact (server.builder.close_ended).trans ended
  | finalize => rfl

theorem finalized_run_ended (accounted : AccountedServer) (after : List ServerOp) :
    (Machine.run AccountedServer.apply accounted (.finalize :: after)).server.builder.manifest.ended = true := by
  have stays (before : AccountedServer) (op : ServerOp) (ended : before.server.builder.manifest.ended = true) :
      (before.apply op).server.builder.manifest.ended = true := apply_stays_ended before.server op ended
  rw [Machine.run_cons]
  exact Machine.invariant_of_run stays (accounted.apply .finalize) after rfl

end AccountedServer

def finalizedRun (config : PlaylistBuilderConfig) (before after : List ServerOp) : AccountedServer :=
  Machine.run AccountedServer.apply (.new config) (before ++ .finalize :: after)

open AccountedServer in
theorem ended_reload_answered_iff (config : PlaylistBuilderConfig) (before after : List ServerOp) :
    (finalizedRun config before after).server.builder.manifest.ended = true ∧
      (∀ query, (finalizedRun config before after).server.builder.manifest.ready query = true ↔
        (finalizedRun config before after).Answered config query) ∧
      ∃ msn, ∀ part, (finalizedRun config before after).server.builder.manifest.ready ⟨some msn, part⟩ = false := by
  have sound : Sound config (finalizedRun config before after) :=
    Machine.invariant_of_run (apply_sound config) (.new config) _ (new_sound config)
  refine ⟨?_, ready_iff_answered sound, _, beyond_parked sound⟩
  rw [finalizedRun, Machine.run_append]
  exact finalized_run_ended _ after

theorem ended_playlist_parks :
    ¬ ∀ (config : PlaylistBuilderConfig) (before after : List ServerOp) (query : BlockingReloadQuery),
      (finalizedRun config before after).server.builder.manifest.ready query = true := by
  intro answered
  have parked := answered .default [.pushChunkBytes openingChunk [1]] [] ⟨some 1, none⟩
  revert parked
  decide

end Lvqr.Hls
