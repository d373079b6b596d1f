import Lvqr.Dash.Inits
import Lvqr.Hls.Drain
import Lvqr.Lib.Machine

set_option autoImplicit false

-- A broadcaster's fragments wait in a queue a drain; its init segment is read when a
-- fragment is taken from there.
namespace Lvqr.Egress

-- `inForce` is ghost state: the init segment at the time of the emit.
structure Queued where
  fragment : Media.Fragment
  inForce : Option Bytes
deriving DecidableEq, Repr

inductive Turn where
  | idle
  | received (queued : Queued)
  | refreshed (queued : Queued) (init : Option Bytes)
deriving DecidableEq, Repr

inductive Move where
  | receive
  | refreshMeta
  | push (now : Nat)
deriving DecidableEq, Repr

structure Consumer (Task : Type) where
  queue : List Queued
  turn : Turn
  task : Task

inductive FeedOp where
  | setInitSegment (init : Bytes)
  | emit (fragment : Media.Fragment)
  | hls (move : Move)
  | dash (move : Move)
deriving DecidableEq, Repr

-- A drain as what a push does to its server, and the init segment last pushed there.
structure InitDrain (Task : Type) where
  push : Task → Media.Fragment → Option Bytes → Nat → Task
  pushedInit : Task → Option Bytes
  Synced : Task → Prop
  push_synced : ∀ task fragment init now, Synced task → Synced (push task fragment init now)
  push_replaces : ∀ task fragment init now, Synced task → pushedInit (push task fragment (some init) now) = some init
  push_keeps : ∀ task fragment now, Synced task → pushedInit (push task fragment none now) = pushedInit task

namespace Consumer

variable {Task : Type} (drain : InitDrain Task)

def new (task : Task) : Consumer Task := ⟨[], .idle, task⟩

def emit (consumer : Consumer Task) (queued : Queued) : Consumer Task :=
  { consumer with queue := consumer.queue ++ [queued] }

-- `init` is what the broadcaster's meta holds now.
def move (init : Option Bytes) (consumer : Consumer Task) : Move → Consumer Task
  | .receive =>
      match consumer.turn, consumer.queue with
      | .idle, queued :: queue => { consumer with queue := queue, turn := .received queued }
      | _, _ => consumer
  | .refreshMeta =>
      match consumer.turn with
      | .received queued => { consumer with turn := .refreshed queued init }
      | _ => consumer
  | .push now =>
      match consumer.turn with
      | .refreshed queued init =>
          { consumer with turn := .idle, task := drain.push consumer.task queued.fragment init now }
      | _ => consumer

-- A fragment is pushed behind the init segment that was in force when it was emitted.
def Kept (consumer : Consumer Task) : Move → Prop
  | .push now => ∀ queued init, consumer.turn = .refreshed queued init →
      drain.pushedInit (drain.push consumer.task queued.fragment init now) = queued.inForce
  | _ => True

-- The meta that was read for the fragment still held the init segment of its emit; where
-- that was none, the server has none.
def Fresh (consumer : Consumer Task) : Move → Prop
  | .push _ => ∀ queued init, consumer.turn = .refreshed queued init →
      init = queued.inForce ∧ (init = none → drain.pushedInit consumer.task = none)
  | _ => True

-- An init segment is replaced, never taken away.
structure Coherent (init : Option Bytes) (consumer : Consumer Task) : Prop where
  synced : drain.Synced consumer.task
  queued : ∀ queued ∈ consumer.queue, queued.inForce.isSome → init.isSome
  received : ∀ queued, consumer.turn = .received queued → queued.inForce.isSome → init.isSome
  refreshed : ∀ queued read, consumer.turn = .refreshed queued read → queued.inForce.isSome → read.isSome

theorem new_coherent (task : Task) (synced : drain.Synced task) : Coherent drain none (new task) where
  synced := synced
  queued := by simp [new]
  received := by simp [new]
  refreshed := by simp [new]

theorem set_init_coherent (init : Option Bytes) (bytes : Bytes) (consumer : Consumer Task)
    (coherent : Coherent drain init consumer) : Coherent drain (some bytes) consumer :=
  ⟨coherent.synced, fun _ _ _ => rfl, fun _ _ _ => rfl, coherent.refreshed⟩

theorem emit_coherent (init : Option Bytes) (fragment : Media.Fragment) (consumer : Consumer Task)
    (coherent : Coherent drain init consumer) : Coherent drain init (consumer.emit ⟨fragment, init⟩) := by
  refine ⟨coherent.synced, ?_, coherent.received, coherent.refreshed⟩
  intro queued member present
  rcases List.mem_append.mp member with before | last
  · exact coherent.queued queued before present
  · rw [List.mem_singleton.mp last] at present
    exact present

theorem move_coherent (init : Option Bytes) (consumer : Consumer Task) (move : Move)
    (coherent : Coherent drain init consumer) : Coherent drain init (consumer.move drain init move) := by
  obtain ⟨queue, turn, task⟩ := consumer
  cases move with
  | receive =>
      cases turn with
      | idle =>
          cases queue with
          | nil => exact coherent
          | cons head rest =>
              refine ⟨coherent.synced, fun queued member => coherent.queued queued (List.mem_cons_of_mem head member), ?_, ?_⟩
              · intro queued same
                cases same
                exact coherent.queued head List.mem_cons_self
              · intro queued read same
                cases same
      | received queued => exact coherent
      | refreshed queued read => exact coherent
  | refreshMeta =>
      cases turn with
      | idle => exact coherent
      | received taken =>
          refine ⟨coherent.synced, coherent.queued, ?_, ?_⟩
          · intro queued same
            cases same
          · intro queued read same
            cases same
            exact coherent.received taken rfl
      | refreshed queued read => exact coherent
  | push now =>
      cases turn with
      | idle => exact coherent
      | received queued => exact coherent
      | refreshed taken read =>
          refine ⟨drain.push_synced task taken.fragment read now coherent.synced, coherent.queued, ?_, ?_⟩
          · intro queued same
            cases same
          · intro queued read same
            cases same

theorem kept_iff (init : Option Bytes) (consumer : Consumer Task) (move : Move)
    (coherent : Coherent drain init consumer) : consumer.Kept drain move ↔ consumer.Fresh drain move := by
  cases move with
  | receive => exact Iff.rfl
  | refreshMeta => exact Iff.rfl
  | push now =>
      refine forall_congr' fun queued => forall_congr' fun read => forall_congr' fun atPush => ?_
      have present := coherent.refreshed queued read atPush
      cases read with
      | some bytes =>
          rw [drain.push_replaces consumer.task queued.fragment bytes now coherent.synced]
          simp
      | none =>
          rw [drain.push_keeps consumer.task queued.fragment now coherent.synced]
          have nothing : queued.inForce = none := by
            rw [← Option.not_isSome_iff_eq_none]
            intro isSome
            cases present isSome
          rw [nothing]
          simp

end Consumer

structure Feed (Hls Dash : Type) where
  init : Option Bytes
  hls : Consumer Hls
  dash : Consumer Dash

namespace Feed

variable {Hls Dash : Type} (hls : InitDrain Hls) (dash : InitDrain Dash)

def start (hlsTask : Hls) (dashTask : Dash) : Feed Hls Dash := ⟨none, .new hlsTask, .new dashTask⟩

def step (feed : Feed Hls Dash) : FeedOp → Feed Hls Dash
  | .setInitSegment init => { feed with init := some init }
  | .emit fragment =>
      { feed with hls := feed.hls.emit ⟨fragment, feed.init⟩, dash := feed.dash.emit ⟨fragment, feed.init⟩ }
  | .hls move => { feed with hls := feed.hls.move hls feed.init move }
  | .dash move => { feed with dash := feed.dash.move dash feed.init move }

def Kept (feed : Feed Hls Dash) : FeedOp → Prop
  | .hls move => feed.hls.Kept hls move
  | .dash move => feed.dash.Kept dash move
  | _ => True

def Fresh (feed : Feed Hls Dash) : FeedOp → Prop
  | .hls move => feed.hls.Fresh hls move
  | .dash move => feed.dash.Fresh dash move
  | _ => True

structure Coherent (feed : Feed Hls Dash) : Prop where
  hls : feed.hls.Coherent hls feed.init
  dash : feed.dash.Coherent dash feed.init

theorem step_coherent (feed : Feed Hls Dash) (op : FeedOp) (coherent : feed.Coherent hls dash) :
    (feed.step hls dash op).Coherent hls dash := by
  cases op with
  | setInitSegment init =>
      exact ⟨Consumer.set_init_coherent hls feed.init init feed.hls coherent.hls,
        Consumer.set_init_coherent dash feed.init init feed.dash coherent.dash⟩
  | emit fragment =>
      exact ⟨Consumer.emit_coherent hls feed.init fragment feed.hls coherent.hls,
        Consumer.emit_coherent dash feed.init fragment feed.dash coherent.dash⟩
  | hls move => exact ⟨Consumer.move_coherent hls feed.init feed.hls move coherent.hls, coherent.dash⟩
  | dash move => exact ⟨coherent.hls, Consumer.move_coherent dash feed.init feed.dash move coherent.dash⟩

theorem kept_iff (feed : Feed Hls Dash) (op : FeedOp) (coherent : feed.Coherent hls dash) :
    feed.Kept hls dash op ↔ feed.Fresh hls dash op := by
  cases op with
  | setInitSegment init => exact Iff.rfl
  | emit fragment => exact Iff.rfl
  | hls move => exact Consumer.kept_iff hls feed.init feed.hls move coherent.hls
  | dash move => exact Consumer.kept_iff dash feed.init feed.dash move coherent.dash

end Feed

def hlsFragment (fragment : Media.Fragment) : Hls.Fragment :=
  ⟨fragment.trackId, fragment.dts, fragment.duration, fragment.flags.keyframe, fragment.payload⟩

def hlsPush (task : Hls.DrainTask) (fragment : Media.Fragment) (init : Option Bytes) : Hls.DrainTask :=
  task.drain ⟨init, hlsFragment fragment⟩

theorem push_fragment_init (task : Hls.DrainTask) (fragment : Hls.Fragment) :
    (task.pushFragment fragment).server.initSegment = task.server.initSegment := by
  rw [Hls.DrainTask.pushFragment, Hls.HlsServer.pushChunkBytes]
  split <;> rfl

def hlsDrain : InitDrain Hls.DrainTask where
  push := fun task fragment init _ => hlsPush task fragment init
  pushedInit := fun task => task.server.initSegment
  Synced := fun task => ∀ init, task.lastInit = some init → task.server.initSegment = some init
  push_synced := by
    intro task fragment init now synced last isLast
    rw [hlsPush, Hls.DrainTask.drain, push_fragment_init]
    cases init with
    | none => exact synced last isLast
    | some bytes =>
        by_cases same : task.lastInit = some bytes
        · simp only [hlsPush, Hls.DrainTask.drain, Hls.DrainTask.refreshInit, same, if_true] at isLast ⊢
          exact synced last isLast
        · simp only [hlsPush, Hls.DrainTask.drain, Hls.DrainTask.refreshInit, same, if_false] at isLast ⊢
          exact isLast
  push_replaces := by
    intro task fragment init now synced
    rw [hlsPush, Hls.DrainTask.drain, push_fragment_init]
    by_cases same : task.lastInit = some init
    · simp only [Hls.DrainTask.refreshInit, same, if_true]
      exact synced init same
    · simp only [Hls.DrainTask.refreshInit, same, if_false]
      rfl
  push_keeps := by
    intro task fragment now synced
    rw [hlsPush, Hls.DrainTask.drain, push_fragment_init]
    rfl

section dash

open Dash (CodecStrings DashBridge DashDrain DashServer)

variable (codecs : CodecStrings)

-- The bridge of a broadcast with the one drain that this broadcaster feeds.
structure DashTask where
  server : DashServer
  drain : DashDrain

def dashPush (task : DashTask) (fragment : Media.Fragment) (init : Option Bytes) (now : Nat) : DashTask :=
  let bridge := DashBridge.drainFragment codecs ⟨task.server, [task.drain], []⟩ 0 task.drain fragment init now
  ⟨bridge.server, { task.drain.refresh init with seq := task.drain.number init }⟩

-- It is what the bridge's step does to the server and to the drain.
theorem dash_push_step (task : DashTask) (fragment : Media.Fragment) (init : Option Bytes) (now : Nat) :
    let bridge := DashBridge.step codecs ⟨task.server, [task.drain], []⟩ (.fragment 0 fragment init now)
    bridge.server = (dashPush codecs task fragment init now).server ∧
      bridge.drains = [(dashPush codecs task fragment init now).drain] := ⟨rfl, rfl⟩

def DashTask.servedInit (task : DashTask) : Option Bytes := task.server.servedInit task.drain.isVideo

theorem refresh_is_video (drain : DashDrain) (init : Option Bytes) : (drain.refresh init).isVideo = drain.isVideo := by
  rw [DashDrain.refresh]
  split <;> rfl

theorem dash_push_served (task : DashTask) (fragment : Media.Fragment) (init : Option Bytes) (now : Nat) :
    (dashPush codecs task fragment init now).servedInit =
      (task.drain.changedInit init).or task.servedInit := by
  show (dashPush codecs task fragment init now).server.servedInit (task.drain.refresh init).isVideo = _
  rw [refresh_is_video, dashPush, DashBridge.drainFragment]
  dsimp only
  rw [DashServer.push_segment_served]
  cases task.drain.changedInit init with
  | none => rfl
  | some current =>
      dsimp only
      rw [DashServer.push_init_served, if_pos rfl]
      rfl

def dashDrain : InitDrain DashTask where
  push := dashPush codecs
  pushedInit := DashTask.servedInit
  Synced := fun task => ∀ init, task.drain.lastInit = some init → task.servedInit = some init
  push_synced := by
    intro task fragment init now synced last isLast
    have drained : (dashPush codecs task fragment init now).drain.lastInit = (task.drain.refresh init).lastInit := rfl
    rw [drained, DashDrain.refresh] at isLast
    rw [dash_push_served]
    cases changed : task.drain.changedInit init with
    | none =>
        rw [changed] at isLast
        exact synced last isLast
    | some current =>
        rw [changed] at isLast
        exact isLast
  push_replaces := by
    intro task fragment init now synced
    rw [dash_push_served, DashDrain.changedInit]
    by_cases same : task.drain.lastInit = some init
    · rw [if_pos same]
      exact synced init same
    · rw [if_neg same]
      rfl
  push_keeps := by
    intro task fragment now synced
    exact dash_push_served codecs task fragment none now

end dash

open Dash (CodecStrings DashServer)

-- The drains of a broadcaster start afresh on servers that earlier ones may have fed.
def freshHls (server : Hls.HlsServer) (timescale segmentDurationMs partDurationMs : Nat) : Hls.DrainTask :=
  let policy := Cmaf.CmafPolicy.withDurations timescale segmentDurationMs partDurationMs
  ⟨policy, .new policy, none, server⟩

def freshDash (server : DashServer) (isVideo : Bool) (timescale : Nat) : DashTask :=
  ⟨server, ⟨isVideo, timescale, none, 0⟩⟩

-- Every fragment is pushed behind its own init segment in exactly the orders in which no
-- replacement comes between an emit and the refresh of a drain that takes the fragment.
theorem fragments_keep_init_iff (codecs : CodecStrings) (server : Hls.HlsServer)
    (timescale segmentDurationMs partDurationMs : Nat) (dashServer : DashServer) (isVideo : Bool) (ops : List FeedOp) :
    let start := Feed.start (freshHls server timescale segmentDurationMs partDurationMs)
      (freshDash dashServer isVideo timescale)
    Machine.AllSteps (Feed.Kept hlsDrain (dashDrain codecs)) (Feed.step hlsDrain (dashDrain codecs)) start ops ↔
      Machine.AllSteps (Feed.Fresh hlsDrain (dashDrain codecs)) (Feed.step hlsDrain (dashDrain codecs)) start ops := by
  intro start
  have coherent : start.Coherent hlsDrain (dashDrain codecs) := by
    refine ⟨Consumer.new_coherent hlsDrain _ ?_, Consumer.new_coherent (dashDrain codecs) _ ?_⟩
    · intro init isLast
      cases isLast
    · intro init isLast
      cases isLast
  exact Machine.all_steps_iff (Feed.kept_iff hlsDrain (dashDrain codecs))
    (fun feed op held _ => Feed.step_coherent hlsDrain (dashDrain codecs) feed op held) start ops coherent

def queuedFragment : Media.Fragment := ⟨"0.mp4", 1, 0, 0, 3000, .KEYFRAME, [7]⟩

def freshHlsTask : Hls.DrainTask := freshHls (.new Hls.PlaylistBuilderConfig.default) 90000 2000 200

def freshDashTask : DashTask := freshDash (.new Dash.DashConfig.default) true 90000

-- The second init segment comes while the fragment of the first is still in the queue.
theorem queued_fragment_gets_next_init :
    let codecs : CodecStrings := ⟨fun _ => none, fun _ => none⟩
    ¬ Machine.AllSteps (Feed.Kept hlsDrain (dashDrain codecs)) (Feed.step hlsDrain (dashDrain codecs))
      (Feed.start freshHlsTask freshDashTask)
      [.setInitSegment [1], .emit queuedFragment, .setInitSegment [2], .hls .receive, .hls .refreshMeta, .hls (.push 0)] := by
  rintro codecs ⟨_, _, _, _, _, kept, _⟩
  have pushed := kept ⟨queuedFragment, some [1]⟩ (some [2]) rfl
  have replaced := hlsDrain.push_replaces freshHlsTask queuedFragment [2] 0 (fun init isLast => by cases isLast)
  have different := replaced.symm.trans pushed
  cases different

end Lvqr.Egress
