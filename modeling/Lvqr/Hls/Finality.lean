import Lvqr.Hls.Builder

set_option autoImplicit false

namespace Lvqr.Hls

open PlaylistBuilder

def playlistView (builder : PlaylistBuilder) : String × List Segment × List Part :=
  (builder.manifest.render, builder.manifest.segments, builder.manifest.preliminaryParts)

def PushFails (builder : PlaylistBuilder) : BuilderOp → Prop
  | .push chunk => ∃ error, (builder.push chunk).1 = .error error
  | _ => True

-- The contract of `finalize`: in every call sequence that follows, each push
-- fails and no call changes what a client sees.
def StaysFinal (builder : PlaylistBuilder) (ops : List BuilderOp) : Prop :=
  Machine.AllSteps PushFails apply builder.finalize ops ∧
    ∀ seen, seen <+: ops → playlistView (Machine.run apply builder.finalize seen) = playlistView builder.finalize

-- The calls an ended builder ignores: `ended` itself is never consulted, so a
-- push is refused only for its duration or for a DTS below the last one.
def IgnoredOnceEnded (builder : PlaylistBuilder) : BuilderOp → Prop
  | .push chunk => chunk.duration = 0 ∨ ∃ last, builder.lastDts = some last ∧ chunk.dts < last
  | .pushDateRange range => builder.manifest.dateRanges.any (sameMarker range) = true
  | _ => True

structure Ended (builder : PlaylistBuilder) : Prop where
  nothingPending : builder.pendingParts = []
  nothingPreliminary : builder.manifest.preliminaryParts = []
  noHint : builder.manifest.preloadHintUri = none
  ended : builder.manifest.ended = true

theorem finalize_ended (builder : PlaylistBuilder) : Ended builder.finalize :=
  ⟨finalize_pending_parts builder, rfl, rfl, rfl⟩

theorem ignored_push_iff (builder : PlaylistBuilder) (chunk : Cmaf.CmafChunk) :
    IgnoredOnceEnded builder (.push chunk) ↔ ¬ builder.Accepts chunk := by
  simp only [IgnoredOnceEnded, Accepts, not_and_or, Nat.not_lt, Nat.le_zero, not_forall, Nat.not_le,
    Option.mem_def, exists_prop]

theorem ignored_same_state (before after : PlaylistBuilder) (manifest : after.manifest = before.manifest)
    (lastDts : after.lastDts = before.lastDts) (op : BuilderOp) :
    IgnoredOnceEnded after op ↔ IgnoredOnceEnded before op := by
  cases op <;> simp only [IgnoredOnceEnded, manifest, lastDts]

theorem finalize_again (builder : PlaylistBuilder) (ended : Ended builder) : builder.finalize = builder := by
  have manifest : { builder.manifest with preliminaryParts := [], preloadHintUri := none, ended := true } =
      builder.manifest := by
    simp only [← ended.nothingPreliminary, ← ended.noHint, ← ended.ended]
  simp only [finalize, close_nothing_pending builder ended.nothingPending, manifest]

theorem ignored_step (builder : PlaylistBuilder) (op : BuilderOp) (ended : Ended builder)
    (ignored : IgnoredOnceEnded builder op) :
    Ended (builder.apply op) ∧ (builder.apply op).manifest = builder.manifest ∧
      (builder.apply op).lastDts = builder.lastDts := by
  cases op with
  | push chunk =>
      rw [apply_push_rejected builder chunk ((ignored_push_iff builder chunk).mp ignored)]
      exact ⟨ended, rfl, rfl⟩
  | closePendingSegment =>
      have unchanged : builder.apply .closePendingSegment = builder :=
        close_nothing_pending builder ended.nothingPending
      rw [unchanged]
      exact ⟨ended, rfl, rfl⟩
  | pushDateRange range =>
      have duplicate : builder.apply (.pushDateRange range) = builder := if_pos ignored
      rw [duplicate]
      exact ⟨ended, rfl, rfl⟩
  | markDiscontinuityPending =>
      exact ⟨⟨ended.nothingPending, ended.nothingPreliminary, ended.noHint, ended.ended⟩, rfl, rfl⟩
  | finalize =>
      have unchanged : builder.apply .finalize = builder := finalize_again builder ended
      rw [unchanged]
      exact ⟨ended, rfl, rfl⟩

theorem ignored_step_fails (builder : PlaylistBuilder) (op : BuilderOp) (ignored : IgnoredOnceEnded builder op) :
    PushFails builder op := by
  cases op with
  | push chunk => exact (push_error_iff builder chunk).mpr ((ignored_push_iff builder chunk).mp ignored)
  | _ => trivial

theorem ignored_run (builder : PlaylistBuilder) (ops : List BuilderOp) (ended : Ended builder)
    (ignored : ∀ op ∈ ops, IgnoredOnceEnded builder op) :
    Machine.AllSteps PushFails apply builder ops ∧ (Machine.run apply builder ops).manifest = builder.manifest := by
  induction ops generalizing builder with
  | nil => exact ⟨trivial, rfl⟩
  | cons op ops ih =>
      have first := ignored op (by simp)
      obtain ⟨stillEnded, manifest, lastDts⟩ := ignored_step builder op ended first
      have rest : ∀ later ∈ ops, IgnoredOnceEnded (builder.apply op) later := fun later member =>
        (ignored_same_state builder (builder.apply op) manifest lastDts later).mpr (ignored later (by simp [member]))
      obtain ⟨fails, same⟩ := ih (builder.apply op) stillEnded rest
      exact ⟨⟨ignored_step_fails builder op first, fails⟩, same.trans manifest⟩

-- A call that is not ignored shows at once: a push succeeds, or a new DATERANGE
-- line lengthens the text.
theorem ignored_of_unseen (builder : PlaylistBuilder) (op : BuilderOp) (fails : PushFails builder op)
    (same : playlistView (builder.apply op) = playlistView builder) : IgnoredOnceEnded builder op := by
  cases op with
  | push chunk => exact (ignored_push_iff builder chunk).mpr ((push_error_iff builder chunk).mp fails)
  | pushDateRange range =>
      by_contra fresh
      have added : builder.apply (.pushDateRange range) =
          { builder with manifest := { builder.manifest with dateRanges := builder.manifest.dateRanges ++ [range] } } :=
        if_neg fresh
      simp only [playlistView, added, Prod.mk.injEq] at same
      have longer := render_with_more_date_ranges builder.manifest [range] (by simp)
      rw [same.1] at longer
      exact Nat.lt_irrefl _ longer
  | _ => trivial

theorem ignored_of_stays (builder : PlaylistBuilder) (ops : List BuilderOp) (ended : Ended builder)
    (fails : Machine.AllSteps PushFails apply builder ops)
    (same : ∀ seen, seen <+: ops → playlistView (Machine.run apply builder seen) = playlistView builder) :
    ∀ op ∈ ops, IgnoredOnceEnded builder op := by
  induction ops generalizing builder with
  | nil => simp
  | cons op ops ih =>
      have sameAfterFirst : playlistView (builder.apply op) = playlistView builder :=
        same [op] (by simp [List.cons_prefix_cons])
      have first := ignored_of_unseen builder op fails.1 sameAfterFirst
      obtain ⟨stillEnded, manifest, lastDts⟩ := ignored_step builder op ended first
      have rest := ih (builder.apply op) stillEnded fails.2 fun seen isPrefix =>
        (same (op :: seen) (List.cons_prefix_cons.mpr ⟨rfl, isPrefix⟩)).trans sameAfterFirst.symm
      intro later member
      cases List.mem_cons.mp member with
      | inl same =>
          subst same
          exact first
      | inr member =>
          exact (ignored_same_state builder (builder.apply op) manifest lastDts later).mp (rest later member)

theorem finalized_playlist_final_iff (builder : PlaylistBuilder) (ops : List BuilderOp) :
    StaysFinal builder ops ↔ ∀ op ∈ ops, IgnoredOnceEnded builder.finalize op := by
  constructor
  · intro final
    obtain ⟨fails, same⟩ := final
    exact ignored_of_stays builder.finalize ops (finalize_ended builder) fails same
  · intro ignored
    refine ⟨(ignored_run builder.finalize ops (finalize_ended builder) ignored).1, ?_⟩
    intro seen isPrefix
    have unchanged := (ignored_run builder.finalize seen (finalize_ended builder)
      fun op member => ignored op (isPrefix.subset member)).2
    simp only [playlistView, unchanged]

def lateChunk : Cmaf.CmafChunk := ⟨"0.mp4", [], 90000, 30000, .segment⟩

theorem finalized_playlist_accepts_late_chunk :
    ¬ ∀ (builder : PlaylistBuilder) (ops : List BuilderOp), StaysFinal builder ops := by
  intro final
  obtain ⟨⟨fails, _⟩, _⟩ := final (new .default) [.push lateChunk]
  have accepts : (new .default).finalize.Accepts lateChunk := by decide
  exact (push_error_iff _ lateChunk).mp fails accepts

def acceptedChunks (builder : PlaylistBuilder) : List BuilderOp → List Cmaf.CmafChunk
  | [] => []
  | .push chunk :: ops =>
      if builder.Accepts chunk then chunk :: acceptedChunks (builder.apply (.push chunk)) ops
      else acceptedChunks (builder.apply (.push chunk)) ops
  | op :: ops => acceptedChunks (builder.apply op) ops

def PushSucceeds (builder : PlaylistBuilder) : BuilderOp → Prop
  | .push chunk => (builder.push chunk).1 = .ok ()
  | _ => True

def AllAccepted (builder : PlaylistBuilder) (chunks : List Cmaf.CmafChunk) : Prop :=
  Machine.AllSteps PushSucceeds apply builder (chunks.map .push)

theorem last_dts_after_run (builder : PlaylistBuilder) (ops : List BuilderOp) :
    (Machine.run apply builder ops).lastDts =
      ((acceptedChunks builder ops).getLast?.map Cmaf.CmafChunk.dts).or builder.lastDts := by
  induction ops generalizing builder with
  | nil => simp [acceptedChunks]
  | cons op ops ih =>
      rw [Machine.run_cons, ih]
      cases op with
      | push chunk =>
          by_cases accepts : builder.Accepts chunk
          · simp only [acceptedChunks, if_pos accepts, apply_push_accepted builder chunk accepts, accept_last_dts,
              List.getLast?_cons]
            cases (acceptedChunks (builder.accept chunk) ops).getLast? <;> rfl
          · simp only [acceptedChunks, if_neg accepts, apply_push_rejected builder chunk accepts]
      | closePendingSegment => simp only [acceptedChunks, apply, close_last_dts]
      | pushDateRange range => simp only [acceptedChunks, apply, push_date_range_last_dts]
      | markDiscontinuityPending => rfl
      | finalize => simp only [acceptedChunks, apply, finalize_last_dts]

theorem increasing_chunks_accepted (builder : PlaylistBuilder) (chunks : List Cmaf.CmafChunk)
    (increasing : chunks.Pairwise (·.dts < ·.dts)) (positive : ∀ chunk ∈ chunks, 0 < chunk.duration)
    (resumes : ∀ first ∈ chunks.head?, ∀ last ∈ builder.lastDts, last ≤ first.dts) :
    AllAccepted builder chunks := by
  induction chunks generalizing builder with
  | nil => trivial
  | cons chunk chunks ih =>
      have accepts : builder.Accepts chunk := ⟨positive chunk (by simp), resumes chunk rfl⟩
      have next := apply_push_accepted builder chunk accepts
      obtain ⟨later, increasing⟩ := List.pairwise_cons.mp increasing
      refine ⟨(push_ok_iff builder chunk).mpr accepts, ?_⟩
      rw [next]
      apply ih (builder.accept chunk) increasing (fun other member => positive other (by simp [member]))
      intro first isFirst last isLast
      have sameDts : chunk.dts = last := by simpa using isLast
      exact sameDts ▸ Nat.le_of_lt (later first (List.mem_of_mem_head? isFirst))

-- After a reconnect the new session is accepted exactly when its timeline does
-- not restart below the old one: the mark leaves `last_dts` in force.
theorem reconnect_accepted_iff (config : PlaylistBuilderConfig) (ops : List BuilderOp)
    (chunks : List Cmaf.CmafChunk)
    (increasing : chunks.Pairwise (·.dts < ·.dts)) (positive : ∀ chunk ∈ chunks, 0 < chunk.duration) :
    AllAccepted (Machine.run apply (new config) (ops ++ [.markDiscontinuityPending])) chunks ↔
      ∀ first ∈ chunks.head?, ∀ last ∈ (acceptedChunks (new config) ops).getLast?, last.dts ≤ first.dts := by
  have marked : (Machine.run apply (new config) (ops ++ [.markDiscontinuityPending])).lastDts =
      (acceptedChunks (new config) ops).getLast?.map Cmaf.CmafChunk.dts := by
    rw [Machine.run_snoc]
    exact (last_dts_after_run (new config) ops).trans Option.or_none
  constructor
  · intro accepted first isFirst last isLast
    cases chunks with
    | nil => cases isFirst
    | cons chunk chunks =>
        obtain rfl : chunk = first := by simpa using isFirst
        have accepts := (push_ok_iff _ chunk).mp accepted.1
        exact accepts.2 last.dts (by simp [marked, Option.mem_def.mp isLast])
  · intro resumes
    apply increasing_chunks_accepted _ chunks increasing positive
    intro first isFirst dts isDts
    rw [marked] at isDts
    obtain ⟨last, isLast, rfl⟩ := Option.mem_map.mp isDts
    exact resumes first isFirst last isLast

def oldSessionChunk : Cmaf.CmafChunk := ⟨"0.mp4", [], 90000, 3000, .segment⟩

def newSessionChunk : Cmaf.CmafChunk := ⟨"0.mp4", [], 0, 3000, .segment⟩

theorem reconnect_accepted_iff_later_session :
    AllAccepted (Machine.run apply (new .default) ([.push newSessionChunk] ++ [.markDiscontinuityPending]))
      [oldSessionChunk] ↔
      ∀ first ∈ [oldSessionChunk].head?,
        ∀ last ∈ (acceptedChunks (new .default) [.push newSessionChunk]).getLast?, last.dts ≤ first.dts :=
  reconnect_accepted_iff .default [.push newSessionChunk] [oldSessionChunk] (by decide) (by decide)

theorem restarted_timeline_rejected :
    ¬ ∀ (config : PlaylistBuilderConfig) (ops : List BuilderOp) (chunks : List Cmaf.CmafChunk),
      .finalize ∉ ops → chunks.Pairwise (·.dts < ·.dts) → (∀ chunk ∈ chunks, 0 < chunk.duration) →
      AllAccepted (Machine.run apply (new config) (ops ++ [.markDiscontinuityPending])) chunks := by
  intro resumed
  have accepted := resumed .default [.push oldSessionChunk] [newSessionChunk] (by decide) (by decide) (by decide)
  have accepts := (push_ok_iff _ newSessionChunk).mp accepted.1
  revert accepts
  decide

end Lvqr.Hls
