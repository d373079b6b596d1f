import Lvqr.Events
import Lvqr.Hls.Broadcasts
import Lvqr.Hls.Drain
import Lvqr.Hls.Finality

set_option autoImplicit false

-- One broadcast from its first fragment to its end. Its media reaches the server
-- through the queue of its drain task, its end through the event bus.
namespace Lvqr.Hls

open PlaylistBuilder

inductive PublisherPhase where
  | publishing
  | stopped
  | removed
deriving DecidableEq, Repr

-- The drain task between its awaits: what `next_fragment` gave it stays in its
-- hand until it is pushed.
inductive DrainPhase where
  | waiting
  | taken (fragment : Fragment)
  | refreshed (fragment : Fragment) (currentInit : Option Bytes)
  | pushing (fragment : Fragment)
  | terminated
deriving DecidableEq, Repr

def DrainPhase.hand : DrainPhase → List Fragment
  | .taken fragment => [fragment]
  | .refreshed fragment _ => [fragment]
  | .pushing fragment => [fragment]
  | .waiting => []
  | .terminated => []

-- `emitted`, `refused` and `ledger` are ghost state: what the publisher emitted,
-- what the server returned an error for, and the segments the rest went into.
structure Airing where
  broadcast : String
  publisher : PublisherPhase
  currentInit : Option Bytes
  queue : List Fragment
  phase : DrainPhase
  task : DrainTask
  bus : List RelayEvent
  emitted : List Fragment
  refused : List Fragment
  ledger : Ledger Fragment

inductive AiringOp where
  | setInitSegment (init : Bytes)
  | emit (fragment : Fragment)
  | unpublish
  | drain
  | announce (event : RelayEvent)
  | receive
deriving DecidableEq, Repr

namespace Airing

def start (broadcast : String) (config : PlaylistBuilderConfig) (timescale segmentDurationMs partDurationMs : Nat) :
    Airing where
  broadcast := broadcast
  publisher := .publishing
  currentInit := none
  queue := []
  phase := .waiting
  task := .new config timescale segmentDurationMs partDurationMs
  bus := []
  emitted := []
  refused := []
  ledger := .empty

abbrev builder (airing : Airing) : PlaylistBuilder := airing.task.server.builder

abbrev stop (airing : Airing) : RelayEvent := .broadcastStopped airing.broadcast

def backlog (airing : Airing) : List Fragment := airing.phase.hand ++ airing.queue

def emit (airing : Airing) (fragment : Fragment) : Airing :=
  { airing with queue := airing.queue ++ [fragment], emitted := airing.emitted ++ [fragment] }

-- The event goes out first; the broadcaster is dropped after it.
def unpublish (airing : Airing) : Airing :=
  match airing.publisher with
  | .publishing => { airing with publisher := .stopped, bus := airing.bus ++ [airing.stop] }
  | .stopped => { airing with publisher := .removed }
  | .removed => airing

def push (airing : Airing) (fragment : Fragment) : Airing :=
  let chunk := fragment.chunk (airing.task.kind fragment)
  let pushed := { airing with phase := .waiting, task := airing.task.pushFragment fragment }
  if airing.builder.Accepts chunk then { pushed with ledger := airing.ledger.pushed airing.builder chunk fragment }
  else { pushed with refused := airing.refused ++ [fragment] }

def drain (airing : Airing) : Airing :=
  match airing.phase with
  | .waiting =>
      match airing.queue with
      | fragment :: queue => { airing with phase := .taken fragment, queue := queue }
      | [] => if airing.publisher = .removed then { airing with phase := .terminated } else airing
  | .taken fragment => { airing with phase := .refreshed fragment airing.currentInit }
  | .refreshed fragment currentInit =>
      { airing with phase := .pushing fragment, task := airing.task.refreshInit currentInit }
  | .pushing fragment => airing.push fragment
  | .terminated => airing

def finalize (airing : Airing) : Airing :=
  { airing with
    task := { airing.task with server := airing.task.server.finalize }
    ledger := airing.ledger.closed airing.builder }

def receive (airing : Airing) : Airing :=
  match airing.bus with
  | [] => airing
  | event :: bus => if event = airing.stop then finalize { airing with bus := bus } else { airing with bus := bus }

-- The other events on the bus are about other broadcasts or no stops at all.
def step (airing : Airing) : AiringOp → Airing
  | .setInitSegment init => if airing.publisher = .publishing then { airing with currentInit := some init } else airing
  | .emit fragment => if airing.publisher = .publishing then airing.emit fragment else airing
  | .unpublish => airing.unpublish
  | .drain => airing.drain
  | .announce event => if event = airing.stop then airing else { airing with bus := airing.bus ++ [event] }
  | .receive => airing.receive

structure Finished (airing : Airing) : Prop where
  unpublished : airing.publisher = .removed
  drained : airing.phase = .terminated
  delivered : airing.bus = []

-- Every fragment is in a closed segment unless the server refused it, and the
-- playlist lists the newest closed segments, without a window all of them.
structure Whole (airing : Airing) : Prop extends Recorded airing.builder airing.ledger where
  unwindowed : Unwindowed airing.builder airing.ledger
  complete : (airing.ledger.history.flatMap ClosedSegment.labels ++ airing.refused).Perm airing.emitted

def playlist (airing : Airing) : String × List Segment × List Part := playlistView airing.builder

def NothingAfterEndlist (airing : Airing) (ops : List AiringOp) : Prop :=
  ∀ seen later, seen <+: later → later <+: ops →
    CarriesEndlist (Machine.run step airing seen).builder.manifest.render →
    (Machine.run step airing later).playlist = (Machine.run step airing seen).playlist

def Takes (airing : Airing) (fragment : Fragment) : Prop :=
  0 < fragment.duration ∧ ∀ last ∈ airing.builder.lastDts, last ≤ fragment.dts

-- The order that is safe: when the stop is received, the server would refuse
-- whatever the drain task still has to push.
def CaughtUp (airing : Airing) : AiringOp → Prop
  | .receive => airing.bus.head? = some airing.stop → ∀ fragment ∈ airing.backlog, ¬ airing.Takes fragment
  | _ => True

instance (airing : Airing) (fragment : Fragment) : Decidable (airing.Takes fragment) :=
  inferInstanceAs (Decidable (_ ∧ _))

instance (airing : Airing) (op : AiringOp) : Decidable (airing.CaughtUp op) := by
  unfold CaughtUp
  split <;> infer_instance

-- `finalize_broadcast` reaches a shared server under its own broadcast's name only.
theorem finalize_broadcast_reaches (multi : MultiHlsServer) (rendition : Rendition) (airing : Airing) (name : String)
    (shared : multi.get rendition airing.broadcast = some airing.task.server) :
    (multi.finalizeBroadcast name).get rendition airing.broadcast =
      some (if RelayEvent.broadcastStopped name = airing.stop then airing.finalize else airing).task.server := by
  rw [MultiHlsServer.get_finalize, shared]
  by_cases same : airing.broadcast = name
  · subst same
    rw [if_pos rfl, if_pos rfl]
    rfl
  · have other : RelayEvent.broadcastStopped name ≠ airing.stop := fun stops =>
      same (RelayEvent.broadcastStopped.inj stops).symm
    rw [if_neg same, if_neg other]

theorem refresh_builder (task : DrainTask) (currentInit : Option Bytes) :
    ∃ flag, (task.refreshInit currentInit).server.builder = { task.server.builder with pendingDiscontinuity := flag } := by
  cases currentInit with
  | none => exact ⟨_, rfl⟩
  | some init =>
      dsimp only [DrainTask.refreshInit, HlsServer.pushInit]
      split
      · exact ⟨_, rfl⟩
      · dsimp only
        split
        · exact ⟨true, rfl⟩
        · exact ⟨_, rfl⟩

-- What every step does that pushes nothing, emits nothing and ends nothing.
structure Still (before after : Airing) : Prop where
  config : after.builder.config = before.builder.config
  manifest : after.builder.manifest = before.builder.manifest
  pendingParts : after.builder.pendingParts = before.builder.pendingParts
  lastDts : after.builder.lastDts = before.builder.lastDts
  backlog : after.backlog = before.backlog
  emitted : after.emitted = before.emitted
  refused : after.refused = before.refused
  ledger : after.ledger = before.ledger

theorem drain_cases (airing : Airing) :
    Still airing airing.drain ∨ ∃ fragment, airing.phase = .pushing fragment ∧ airing.drain = airing.push fragment := by
  rw [drain]
  cases phase : airing.phase with
  | waiting =>
      left
      cases queue : airing.queue with
      | nil =>
          dsimp only
          split
          · exact ⟨rfl, rfl, rfl, rfl, by simp [backlog, phase, queue, DrainPhase.hand], rfl, rfl, rfl⟩
          · exact ⟨rfl, rfl, rfl, rfl, rfl, rfl, rfl, rfl⟩
      | cons fragment rest =>
          exact ⟨rfl, rfl, rfl, rfl, by simp [backlog, phase, queue, DrainPhase.hand], rfl, rfl, rfl⟩
  | taken fragment =>
      exact .inl ⟨rfl, rfl, rfl, rfl, by simp [backlog, phase, DrainPhase.hand], rfl, rfl, rfl⟩
  | refreshed fragment currentInit =>
      left
      obtain ⟨flag, same⟩ := refresh_builder airing.task currentInit
      refine ⟨?_, ?_, ?_, ?_, by simp [backlog, phase, DrainPhase.hand], rfl, rfl, rfl⟩ <;> simp only [builder, same]
  | pushing fragment => exact .inr ⟨fragment, rfl, rfl⟩
  | terminated => exact .inl ⟨rfl, rfl, rfl, rfl, rfl, rfl, rfl, rfl⟩

theorem step_cases (airing : Airing) (op : AiringOp) :
    Still airing (airing.step op) ∨
      (∃ fragment, airing.publisher = .publishing ∧ airing.step op = airing.emit fragment) ∨
      (∃ fragment, airing.phase = .pushing fragment ∧ airing.step op = airing.push fragment) ∨
      ∃ bus, op = .receive ∧ airing.bus = airing.stop :: bus ∧ airing.step op = finalize { airing with bus := bus } := by
  cases op with
  | setInitSegment init =>
      left
      rw [step]
      split <;> exact ⟨rfl, rfl, rfl, rfl, rfl, rfl, rfl, rfl⟩
  | emit fragment =>
      rw [step]
      split
      · exact .inr (.inl ⟨fragment, ‹_›, rfl⟩)
      · exact .inl ⟨rfl, rfl, rfl, rfl, rfl, rfl, rfl, rfl⟩
  | unpublish =>
      left
      rw [step, unpublish]
      split <;> exact ⟨rfl, rfl, rfl, rfl, rfl, rfl, rfl, rfl⟩
  | drain =>
      rcases airing.drain_cases with still | pushed
      · exact .inl still
      · exact .inr (.inr (.inl pushed))
  | announce event =>
      left
      rw [step]
      split <;> exact ⟨rfl, rfl, rfl, rfl, rfl, rfl, rfl, rfl⟩
  | receive =>
      rw [step, receive]
      cases bus : airing.bus with
      | nil => exact .inl ⟨rfl, rfl, rfl, rfl, rfl, rfl, rfl, rfl⟩
      | cons event rest =>
          dsimp only
          split
          · rename_i isStop
            exact .inr (.inr (.inr ⟨rest, rfl, by rw [isStop], rfl⟩))
          · exact .inl ⟨rfl, rfl, rfl, rfl, rfl, rfl, rfl, rfl⟩

theorem push_taken (airing : Airing) (fragment : Fragment) (takes : airing.Takes fragment) :
    let chunk := fragment.chunk (airing.task.kind fragment)
    (airing.push fragment).builder = { airing.builder.accept chunk with evictedUris := [] } ∧
      (airing.push fragment).ledger = airing.ledger.pushed airing.builder chunk fragment ∧
      (airing.push fragment).refused = airing.refused := by
  intro chunk
  have accepts : airing.builder.Accepts chunk := takes
  rw [push, if_pos accepts]
  refine ⟨?_, rfl, rfl⟩
  exact (HlsServer.push_chunk_builder airing.task.server chunk fragment.payload).trans (if_pos accepts)

theorem push_refused (airing : Airing) (fragment : Fragment) (refuses : ¬ airing.Takes fragment) :
    (airing.push fragment).builder = airing.builder ∧ (airing.push fragment).ledger = airing.ledger ∧
      (airing.push fragment).refused = airing.refused ++ [fragment] := by
  let chunk := fragment.chunk (airing.task.kind fragment)
  have rejects : ¬ airing.builder.Accepts chunk := refuses
  rw [push, if_neg rejects]
  refine ⟨?_, rfl, rfl⟩
  exact (HlsServer.push_chunk_builder airing.task.server chunk fragment.payload).trans (if_neg rejects)

theorem push_backlog (airing : Airing) (fragment : Fragment) (phase : airing.phase = .pushing fragment) :
    airing.backlog = fragment :: (airing.push fragment).backlog ∧
      (airing.push fragment).emitted = airing.emitted := by
  rw [push]
  split <;> exact ⟨by simp [backlog, phase, DrainPhase.hand], rfl⟩

theorem finalize_takes_iff (airing : Airing) (fragment : Fragment) :
    airing.finalize.Takes fragment ↔ airing.Takes fragment := by
  have sameDts : airing.finalize.builder.lastDts = airing.builder.lastDts := airing.builder.finalize_last_dts
  rw [Takes, sameDts, Takes]

-- Everything emitted is accounted for, and the playlist is the ledger's.
structure Sound (airing : Airing) : Prop extends Recorded airing.builder airing.ledger where
  unwindowed : Unwindowed airing.builder airing.ledger
  accounted : (airing.ledger.labels ++ airing.refused ++ airing.backlog).Perm airing.emitted
  plain : Plain airing.builder.manifest

theorem start_sound (broadcast : String) (config : PlaylistBuilderConfig)
    (timescale segmentDurationMs partDurationMs : Nat) :
    (start broadcast config timescale segmentDurationMs partDurationMs).Sound where
  toRecorded := new_recorded config
  unwindowed := fun _ => rfl
  accounted := List.Perm.refl _
  plain := HlsServer.new_plain config

theorem still_sound (before after : Airing) (still : Still before after) (sound : before.Sound) : after.Sound where
  toRecorded := still.ledger ▸
    recorded_same _ _ _ sound.toRecorded still.pendingParts (congrArg Manifest.segments still.manifest)
  unwindowed := by
    rw [Unwindowed, still.config, still.manifest, still.ledger]
    exact sound.unwindowed
  accounted := by
    rw [still.ledger, still.refused, still.backlog, still.emitted]
    exact sound.accounted
  plain := still.manifest ▸ sound.plain

theorem emit_sound (airing : Airing) (fragment : Fragment) (sound : airing.Sound) : (airing.emit fragment).Sound where
  toRecorded := sound.toRecorded
  unwindowed := sound.unwindowed
  accounted := by
    have appended := sound.accounted.append_right [fragment]
    simpa only [emit, backlog, List.append_assoc] using appended
  plain := sound.plain

theorem push_sound (airing : Airing) (fragment : Fragment) (phase : airing.phase = .pushing fragment)
    (sound : airing.Sound) : (airing.push fragment).Sound := by
  obtain ⟨backlog, emitted⟩ := push_backlog airing fragment phase
  have accounted := sound.accounted
  rw [backlog] at accounted
  by_cases takes : airing.Takes fragment
  · obtain ⟨built, ledger, refused⟩ := push_taken airing fragment takes
    let chunk := fragment.chunk (airing.task.kind fragment)
    constructor
    · rw [built, ledger]
      exact recorded_same _ _ _ (pushed_recorded airing.builder airing.ledger chunk fragment sound.toRecorded) rfl rfl
    · rw [built, ledger]
      exact pushed_unwindowed airing.builder airing.ledger chunk fragment sound.unwindowed
    · rw [ledger, refused, emitted, pushed_labels]
      refine List.Perm.trans ?_ accounted
      simp only [List.append_assoc, List.singleton_append]
      exact List.perm_middle.symm.append_left _
    · rw [built]
      exact airing.builder.accept_plain chunk sound.plain
  · obtain ⟨built, ledger, refused⟩ := push_refused airing fragment takes
    constructor
    · rw [built, ledger]
      exact sound.toRecorded
    · rw [built, ledger]
      exact sound.unwindowed
    · rw [ledger, refused, emitted]
      simpa only [List.append_assoc, List.singleton_append] using accounted
    · rw [built]
      exact sound.plain

theorem finalize_sound (airing : Airing) (sound : airing.Sound) : airing.finalize.Sound where
  toRecorded := recorded_same _ _ _ (closed_recorded airing.builder airing.ledger sound.toRecorded) rfl rfl
  unwindowed := closed_unwindowed airing.builder airing.ledger sound.unwindowed
  accounted := by
    rw [finalize, closed_labels]
    exact sound.accounted
  plain := airing.builder.finalize_plain sound.plain

theorem step_sound (airing : Airing) (op : AiringOp) (sound : airing.Sound) : (airing.step op).Sound := by
  rcases airing.step_cases op with still | ⟨fragment, _, emits⟩ | ⟨fragment, phase, pushes⟩ | ⟨bus, _, _, ends⟩
  · exact still_sound airing _ still sound
  · exact emits ▸ emit_sound airing fragment sound
  · exact pushes ▸ push_sound airing fragment phase sound
  · have delivered : Sound { airing with bus := bus } :=
      still_sound airing _ ⟨rfl, rfl, rfl, rfl, rfl, rfl, rfl, rfl⟩ sound
    exact ends ▸ finalize_sound _ delivered

-- The stop is sent once and received once, and the drain task leaves nothing
-- behind.
structure Signalled (airing : Airing) : Prop where
  once : airing.bus.count airing.stop + airing.builder.manifest.ended.toNat =
    if airing.publisher = .publishing then 0 else 1
  drained : airing.phase = .terminated → airing.queue = [] ∧ airing.publisher = .removed

theorem start_signalled (broadcast : String) (config : PlaylistBuilderConfig)
    (timescale segmentDurationMs partDurationMs : Nat) :
    (start broadcast config timescale segmentDurationMs partDurationMs).Signalled where
  once := rfl
  drained terminated := by cases terminated

theorem ended_not_publishing (airing : Airing) (signalled : airing.Signalled)
    (ended : airing.builder.manifest.ended = true) : airing.publisher ≠ .publishing := by
  intro publishing
  have once := signalled.once
  rw [if_pos publishing, ended, Bool.toNat_true] at once
  omega

theorem ended_not_stopped (airing : Airing) (signalled : airing.Signalled)
    (ended : airing.builder.manifest.ended = true) : airing.stop ∉ airing.bus := by
  have once := signalled.once
  rw [ended, Bool.toNat_true] at once
  rw [← List.count_eq_zero]
  split at once <;> omega

theorem push_signal (airing : Airing) (fragment : Fragment) :
    (airing.push fragment).bus = airing.bus ∧ (airing.push fragment).publisher = airing.publisher ∧
      (airing.push fragment).stop = airing.stop ∧ (airing.push fragment).phase = .waiting ∧
      (airing.push fragment).builder.manifest.ended = airing.builder.manifest.ended := by
  have kept := airing.task.server.push_chunk_ended (fragment.chunk (airing.task.kind fragment)) fragment.payload
  rw [push]
  split <;> exact ⟨rfl, rfl, rfl, rfl, kept⟩

theorem drain_signalled (airing : Airing) (signalled : airing.Signalled) : airing.drain.Signalled := by
  rw [drain]
  cases phase : airing.phase with
  | waiting =>
      cases queue : airing.queue with
      | nil =>
          dsimp only
          split
          · rename_i removed
            exact ⟨signalled.once, fun _ => ⟨rfl, removed⟩⟩
          · exact signalled
      | cons fragment rest => exact ⟨signalled.once, fun terminated => by cases terminated⟩
  | taken fragment => exact ⟨signalled.once, fun terminated => by cases terminated⟩
  | refreshed fragment currentInit =>
      obtain ⟨flag, same⟩ := refresh_builder airing.task currentInit
      refine ⟨?_, fun terminated => by cases terminated⟩
      simp only [builder, same]
      exact signalled.once
  | pushing fragment =>
      obtain ⟨bus, publisher, stop, waiting, ended⟩ := push_signal airing fragment
      constructor
      · rw [bus, publisher, stop, ended]
        exact signalled.once
      · intro terminated
        rw [waiting] at terminated
        cases terminated
  | terminated => exact signalled

theorem receive_signalled (airing : Airing) (signalled : airing.Signalled) : airing.receive.Signalled := by
  rw [receive]
  have once := signalled.once
  cases bus : airing.bus with
  | nil => exact signalled
  | cons event rest =>
      rw [bus, List.count_cons] at once
      dsimp only
      split
      · rename_i isStop
        refine ⟨?_, signalled.drained⟩
        rw [isStop, beq_self_eq_true, if_pos rfl] at once
        have fresh : airing.builder.manifest.ended.toNat = 0 := by
          split at once <;> omega
        rw [fresh] at once
        exact once
      · rename_i other
        refine ⟨?_, signalled.drained⟩
        rw [if_neg (by simpa using other)] at once
        exact once

theorem step_signalled (airing : Airing) (op : AiringOp) (signalled : airing.Signalled) :
    (airing.step op).Signalled := by
  cases op with
  | setInitSegment init =>
      rw [step]
      split
      · exact ⟨signalled.once, signalled.drained⟩
      · exact signalled
  | emit fragment =>
      rw [step]
      split
      · rename_i publishing
        refine ⟨signalled.once, fun terminated => ?_⟩
        have removed := (signalled.drained terminated).2
        rw [publishing] at removed
        cases removed
      · exact signalled
  | unpublish =>
      rw [step, unpublish]
      have once := signalled.once
      cases publisher : airing.publisher with
      | publishing =>
          rw [if_pos publisher] at once
          refine ⟨?_, fun terminated => ?_⟩
          · have sent : (airing.bus ++ [airing.stop]).count airing.stop = airing.bus.count airing.stop + 1 := by simp
            change (airing.bus ++ [airing.stop]).count airing.stop + airing.builder.manifest.ended.toNat = 1
            omega
          · have removed := (signalled.drained terminated).2
            rw [publisher] at removed
            cases removed
      | stopped =>
          rw [if_neg (by simp [publisher])] at once
          refine ⟨once, fun terminated => ⟨(signalled.drained terminated).1, rfl⟩⟩
      | removed => exact signalled
  | drain => exact drain_signalled airing signalled
  | announce event =>
      rw [step]
      split
      · exact signalled
      · rename_i other
        refine ⟨?_, signalled.drained⟩
        have none : [event].count airing.stop = 0 := by simp [other]
        simp only [List.count_append, none]
        exact signalled.once
  | receive => exact receive_signalled airing signalled

-- Once ended, a playlist stays as it is if the server would refuse all that is
-- still to come.
structure Settled (airing : Airing) : Prop extends Hls.Ended airing.builder where
  refused : ∀ fragment ∈ airing.backlog, ¬ airing.Takes fragment

theorem settled_step (airing : Airing) (op : AiringOp) (signalled : airing.Signalled) (settled : airing.Settled) :
    (airing.step op).Settled ∧ (airing.step op).builder.manifest = airing.builder.manifest := by
  rcases airing.step_cases op with still | ⟨fragment, publishing, _⟩ | ⟨fragment, phase, pushes⟩ | ⟨bus, _, sent, _⟩
  · refine ⟨⟨⟨?_, ?_, ?_, ?_⟩, ?_⟩, still.manifest⟩
    · exact still.pendingParts.trans settled.nothingPending
    · rw [still.manifest, settled.nothingPreliminary]
    · rw [still.manifest, settled.noHint]
    · rw [still.manifest, settled.ended]
    · rw [still.backlog]
      intro fragment member
      rw [Takes, still.lastDts]
      exact settled.refused fragment member
  · exact absurd publishing (ended_not_publishing airing signalled settled.ended)
  · obtain ⟨backlog, _⟩ := push_backlog airing fragment phase
    have refuses := settled.refused
    rw [backlog] at refuses
    obtain ⟨built, _, _⟩ := push_refused airing fragment (refuses fragment List.mem_cons_self)
    rw [pushes]
    refine ⟨⟨built ▸ settled.toEnded, fun later member => ?_⟩, congrArg PlaylistBuilder.manifest built⟩
    rw [Takes, built]
    exact refuses later (List.mem_cons_of_mem _ member)
  · exact absurd (sent ▸ List.mem_cons_self) (ended_not_stopped airing signalled settled.ended)

-- What a run of safe steps keeps.
structure InOrder (airing : Airing) : Prop where
  sound : airing.Sound
  signalled : airing.Signalled
  settled : airing.builder.manifest.ended = true → airing.Settled

theorem start_in_order (broadcast : String) (config : PlaylistBuilderConfig)
    (timescale segmentDurationMs partDurationMs : Nat) :
    (start broadcast config timescale segmentDurationMs partDurationMs).InOrder where
  sound := start_sound broadcast config timescale segmentDurationMs partDurationMs
  signalled := start_signalled broadcast config timescale segmentDurationMs partDurationMs
  settled ended := by cases ended

theorem push_ended (airing : Airing) (fragment : Fragment) :
    (airing.push fragment).builder.manifest.ended = airing.builder.manifest.ended :=
  (push_signal airing fragment).2.2.2.2

theorem step_in_order (airing : Airing) (op : AiringOp) (inOrder : airing.InOrder) (caughtUp : airing.CaughtUp op) :
    (airing.step op).InOrder where
  sound := step_sound airing op inOrder.sound
  signalled := step_signalled airing op inOrder.signalled
  settled := by
    intro ended
    by_cases already : airing.builder.manifest.ended = true
    · exact (settled_step airing op inOrder.signalled (inOrder.settled already)).1
    · rcases airing.step_cases op with still | ⟨fragment, _, emits⟩ | ⟨fragment, _, pushes⟩ | ⟨bus, isReceive, sent, ends⟩
      · rw [still.manifest] at ended
        exact absurd ended already
      · rw [emits] at ended
        exact absurd ended already
      · rw [pushes, push_ended] at ended
        exact absurd ended already
      · subst isReceive
        have refuses := caughtUp (by rw [sent, List.head?_cons])
        rw [ends]
        refine ⟨⟨finalize_pending_parts airing.builder, rfl, rfl, rfl⟩, fun fragment member => ?_⟩
        rw [finalize_takes_iff]
        exact refuses fragment member

theorem settled_run (airing : Airing) (ops : List AiringOp) (signalled : airing.Signalled) (settled : airing.Settled) :
    (Machine.run step airing ops).builder.manifest = airing.builder.manifest := by
  induction ops generalizing airing with
  | nil => rfl
  | cons op ops ih =>
      obtain ⟨stays, same⟩ := settled_step airing op signalled settled
      exact (ih _ (step_signalled airing op signalled) stays).trans same

theorem in_order_final (airing : Airing) (ops : List AiringOp) (inOrder : airing.InOrder)
    (caughtUp : Machine.AllSteps CaughtUp step airing ops) : airing.NothingAfterEndlist ops := by
  intro seen later isPrefix within carries
  obtain ⟨rest, rfl⟩ := isPrefix
  obtain ⟨unseen, rfl⟩ := within
  rw [List.append_assoc, Machine.all_steps_append] at caughtUp
  have here := Machine.invariant_of_guarded step_in_order airing seen inOrder caughtUp.1
  have ended := (render_carries_endlist_iff _ here.sound.plain).mp carries
  have same := settled_run _ rest here.signalled (here.settled ended)
  rw [Machine.run_append, playlist, playlist, playlistView, playlistView, same]

theorem finished_ended (airing : Airing) (signalled : airing.Signalled) (finished : airing.Finished) :
    airing.builder.manifest.ended = true ∧ airing.backlog = [] := by
  have once := signalled.once
  rw [finished.delivered, finished.unpublished, List.count_nil, Nat.zero_add, if_neg (by decide)] at once
  refine ⟨Bool.toNat_eq_one.mp once, ?_⟩
  rw [backlog, finished.drained, (signalled.drained finished.drained).1]
  rfl

theorem in_order_whole (airing : Airing) (inOrder : airing.InOrder) (finished : airing.Finished) : airing.Whole where
  toRecorded := inOrder.sound.toRecorded
  unwindowed := inOrder.sound.unwindowed
  complete := by
    obtain ⟨ended, nothingLeft⟩ := finished_ended airing inOrder.signalled finished
    have nothingOpen := (open_labels_empty_iff _ _ inOrder.sound.toRecorded).mpr (inOrder.settled ended).nothingPending
    have accounted := inOrder.sound.accounted
    rwa [nothingLeft, Ledger.labels, nothingOpen, List.append_nil, List.append_nil] at accounted

-- A fragment the server will still take shows up behind the end.
structure Late (airing : Airing) : Prop where
  ended : airing.builder.manifest.ended = true
  nothingPreliminary : airing.builder.manifest.preliminaryParts = []
  late : ∃ fragment ∈ airing.backlog, airing.Takes fragment

theorem late_step (airing : Airing) (op : AiringOp) (signalled : airing.Signalled) (late : airing.Late)
    (unseen : (airing.step op).playlist = airing.playlist) : (airing.step op).Late := by
  obtain ⟨fragment, member, takes⟩ := late.late
  rcases airing.step_cases op with still | ⟨other, publishing, _⟩ | ⟨first, phase, pushes⟩ | ⟨bus, _, sent, _⟩
  · refine ⟨?_, ?_, fragment, still.backlog ▸ member, ?_⟩
    · rw [still.manifest, late.ended]
    · rw [still.manifest, late.nothingPreliminary]
    · rwa [Takes, still.lastDts]
  · exact absurd publishing (ended_not_publishing airing signalled late.ended)
  · rw [pushes] at unseen ⊢
    obtain ⟨backlog, _⟩ := push_backlog airing first phase
    have kept : ¬ airing.Takes first := by
      intro taken
      have listed := congrArg (fun view => view.2.2) unseen
      simp only [playlist, playlistView, (push_taken airing first taken).1, late.nothingPreliminary] at listed
      simp [accept, appendPart] at listed
    obtain ⟨built, _, _⟩ := push_refused airing first kept
    refine ⟨by rw [built, late.ended], by rw [built, late.nothingPreliminary], fragment, ?_, by rwa [Takes, built]⟩
    rw [backlog] at member
    cases List.mem_cons.mp member with
    | inl same => exact absurd (same ▸ takes) kept
    | inr member => exact member
  · exact absurd (sent ▸ List.mem_cons_self) (ended_not_stopped airing signalled late.ended)

theorem late_surfaces (airing : Airing) (ops : List AiringOp) (signalled : airing.Signalled) (late : airing.Late)
    (finished : (Machine.run step airing ops).Finished) :
    ∃ seen, seen <+: ops ∧ (Machine.run step airing seen).playlist ≠ airing.playlist := by
  induction ops generalizing airing with
  | nil =>
      obtain ⟨fragment, member, _⟩ := late.late
      rw [(finished_ended airing signalled finished).2] at member
      cases member
  | cons op ops ih =>
      by_cases unseen : (airing.step op).playlist = airing.playlist
      · obtain ⟨seen, isPrefix, differs⟩ :=
          ih (airing.step op) (step_signalled airing op signalled) (late_step airing op signalled late unseen) finished
        exact ⟨op :: seen, List.cons_prefix_cons.mpr ⟨rfl, isPrefix⟩, fun same => differs (same.trans unseen.symm)⟩
      · exact ⟨[op], by simp [List.cons_prefix_cons], unseen⟩

theorem not_caught_up_late (airing : Airing) (op : AiringOp) (broken : ¬ airing.CaughtUp op) :
    (airing.step op).Late := by
  cases op with
  | receive =>
      simp only [CaughtUp, Classical.not_imp, not_forall, not_not] at broken
      obtain ⟨sent, fragment, member, takes⟩ := broken
      obtain ⟨bus, queued⟩ := List.head?_eq_some_iff.mp sent
      have ends : airing.step .receive = finalize { airing with bus := bus } := by
        rw [step, receive, queued]
        exact if_pos rfl
      rw [ends]
      exact ⟨rfl, rfl, fragment, member, (finalize_takes_iff _ fragment).mpr takes⟩
  | _ => exact absurd trivial broken

theorem caught_up_of_final (airing : Airing) (ops : List AiringOp) (sound : airing.Sound) (signalled : airing.Signalled)
    (finished : (Machine.run step airing ops).Finished) (final : airing.NothingAfterEndlist ops) :
    Machine.AllSteps CaughtUp step airing ops := by
  induction ops generalizing airing with
  | nil => trivial
  | cons op ops ih =>
      have nextSound := step_sound airing op sound
      have nextSignalled := step_signalled airing op signalled
      refine ⟨?_, ih _ nextSound nextSignalled finished ?_⟩
      · by_contra broken
        have late := not_caught_up_late airing op broken
        obtain ⟨seen, isPrefix, differs⟩ := late_surfaces _ ops nextSignalled late finished
        have carries := (render_carries_endlist_iff _ nextSound.plain).mpr late.ended
        exact differs (final [op] (op :: seen) (List.cons_prefix_cons.mpr ⟨rfl, List.nil_prefix⟩)
          (List.cons_prefix_cons.mpr ⟨rfl, isPrefix⟩) carries)
      · intro seen later isPrefix within carries
        exact final (op :: seen) (op :: later) (List.cons_prefix_cons.mpr ⟨rfl, isPrefix⟩)
          (List.cons_prefix_cons.mpr ⟨rfl, within⟩) carries

end Airing

-- When everything has run to its end, the playlist is whole and nothing was added
-- behind its end exactly if the stop was received late enough.
theorem end_of_stream_whole_iff (broadcast : String) (config : PlaylistBuilderConfig)
    (timescale segmentDurationMs partDurationMs : Nat) (ops : List AiringOp)
    (finished : (Machine.run Airing.step
      (.start broadcast config timescale segmentDurationMs partDurationMs) ops).Finished) :
    let start := Airing.start broadcast config timescale segmentDurationMs partDurationMs
    ((Machine.run Airing.step start ops).Whole ∧ start.NothingAfterEndlist ops) ↔
      Machine.AllSteps Airing.CaughtUp Airing.step start ops := by
  intro start
  have inOrder := Airing.start_in_order broadcast config timescale segmentDurationMs partDurationMs
  constructor
  · intro ending
    exact Airing.caught_up_of_final start ops inOrder.sound inOrder.signalled finished ending.2
  · intro caughtUp
    have ended := Machine.invariant_of_guarded Airing.step_in_order start ops inOrder caughtUp
    exact ⟨Airing.in_order_whole _ ended finished, Airing.in_order_final start ops inOrder caughtUp⟩

def openingFragment : Fragment := ⟨"0.mp4", 0, 3000, true, [1]⟩

def closingFragment : Fragment := ⟨"0.mp4", 3000, 3000, false, [2]⟩

def stopBehindMedia : List AiringOp :=
  [.emit openingFragment, .drain, .drain, .drain, .drain, .emit closingFragment, .unpublish,
    .drain, .drain, .drain, .drain, .receive, .unpublish, .drain]

theorem stop_behind_media_whole :
    (Machine.run Airing.step (.start "live/cam" .default 90000 2000 200) stopBehindMedia).Whole ∧
      (Airing.start "live/cam" .default 90000 2000 200).NothingAfterEndlist stopBehindMedia := by
  refine (end_of_stream_whole_iff "live/cam" .default 90000 2000 200 stopBehindMedia ⟨rfl, rfl, rfl⟩).mpr ?_
  decide

-- The subscriber is quicker than the drain task, which pushes the last fragment
-- behind the end and leaves it there outside any segment.
def stopBeforeMedia : List AiringOp :=
  [.emit openingFragment, .drain, .drain, .drain, .drain, .emit closingFragment, .unpublish, .receive,
    .drain, .drain, .drain, .drain, .unpublish, .drain]

theorem stop_before_media_breaks :
    ¬ ∀ (broadcast : String) (config : PlaylistBuilderConfig) (timescale segmentDurationMs partDurationMs : Nat)
      (ops : List AiringOp),
      let start := Airing.start broadcast config timescale segmentDurationMs partDurationMs
      (Machine.run Airing.step start ops).Finished →
        (Machine.run Airing.step start ops).Whole ∧ start.NothingAfterEndlist ops := by
  intro ends
  have ending := ends "live/cam" .default 90000 2000 200 stopBeforeMedia ⟨rfl, rfl, rfl⟩
  have complete := ending.1.complete
  revert complete
  decide

end Lvqr.Hls
