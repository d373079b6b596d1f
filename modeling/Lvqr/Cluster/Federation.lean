import Mathlib.Algebra.Group.Nat.Defs
import Mathlib.Data.List.Basic
import Mathlib.Data.List.Count
import Mathlib.Data.List.Nodup
import Lvqr.Lib.Machine

set_option autoImplicit false

-- One federation link: the task that keeps a session to the remote relay, and the
-- forwarders it spawns for what the remote announces.
namespace Lvqr.Cluster

structure FederationLink where
  remoteUrl : String
  forwardedBroadcasts : List String
deriving DecidableEq, Repr

def FederationLink.forwards (link : FederationLink) (name : String) : Bool :=
  link.forwardedBroadcasts.any fun forwarded => forwarded == name

inductive FederationConnectState where
  | connecting
  | connected
  | failed
deriving DecidableEq, Repr

structure FederationLinkStatus where
  state : FederationConnectState
  lastError : Option String
  connectAttempts : Nat
  forwardedBroadcastsSeen : Nat
deriving DecidableEq, Repr

-- Where `run_link` is: in the connect, in the announcement loop of a live session, in
-- the sleep before the next attempt, or returned.
inductive LinkPhase where
  | connecting
  | announcing
  | waiting
  | ended
deriving DecidableEq, Repr

-- `remote` is what the remote relay announces, to whoever is connected. A forwarder
-- holds the producer of a local broadcast, the shadow, under its name.
structure LinkTask where
  remote : List String
  phase : LinkPhase
  status : FederationLinkStatus
  forwarders : List String
deriving DecidableEq, Repr

-- A path is announced and unannounced in turn. `connected` and `connectFailed` are
-- how the connect of an attempt ends, `retry` is the end of the sleep.
inductive LinkEvent where
  | announce (name : String)
  | unannounce (name : String)
  | connected
  | connectFailed (error : String)
  | streamClosed
  | sessionClosed (error : Option String)
  | retry
  | shutdown
deriving DecidableEq, Repr

def saturatingIncrement (count : Nat) : Nat := min (count + 1) (2 ^ 64 - 1)

namespace FederationLinkStatus

def setConnecting (status : FederationLinkStatus) : FederationLinkStatus :=
  { status with state := .connecting, connectAttempts := saturatingIncrement status.connectAttempts }

def setConnected (status : FederationLinkStatus) : FederationLinkStatus :=
  { status with state := .connected, lastError := none }

def setFailed (status : FederationLinkStatus) (error : String) : FederationLinkStatus :=
  { status with state := .failed, lastError := some error }

def incrementForwarded (status : FederationLinkStatus) : FederationLinkStatus :=
  { status with forwardedBroadcastsSeen := saturatingIncrement status.forwardedBroadcastsSeen }

end FederationLinkStatus

namespace LinkTask

-- The runner starts the link with nothing known of the remote.
def new : LinkTask :=
  ⟨[], .connecting, FederationLinkStatus.setConnecting ⟨.connecting, none, 0, 0⟩, []⟩

-- `creates` is whether the local origin gives a producer for the name.
def forwardBroadcast (creates : String → Bool) (task : LinkTask) (name : String) : LinkTask :=
  if creates name then { task with forwarders := task.forwarders ++ [name] } else task

def announced (link : FederationLink) (creates : String → Bool) (task : LinkTask) (name : String) : LinkTask :=
  if link.forwards name then
    forwardBroadcast creates { task with status := task.status.incrementForwarded } name
  else task

-- A session that ends is dropped, the forwarders it fed are not.
def closed (task : LinkTask) (error : String) : LinkTask :=
  { task with phase := .waiting, status := task.status.setFailed error }

def sessionClosedMessage : Option String → String
  | none => "moq session closed"
  | some error => "moq session closed: " ++ error

def step (link : FederationLink) (creates : String → Bool) (task : LinkTask) : LinkEvent → LinkTask
  | .announce name =>
      if name ∈ task.remote then task
      else
        let known := { task with remote := task.remote ++ [name] }
        if task.phase = .announcing then announced link creates known name else known
  | .unannounce name => { task with remote := task.remote.erase name }
  | .connected =>
      if task.phase = .connecting then
        task.remote.foldl (announced link creates)
          { task with phase := .announcing, status := task.status.setConnected }
      else task
  | .connectFailed error => if task.phase = .connecting then task.closed error else task
  | .streamClosed =>
      if task.phase = .announcing then task.closed "remote announcement stream closed" else task
  | .sessionClosed error =>
      if task.phase = .announcing then task.closed (sessionClosedMessage error) else task
  | .retry =>
      if task.phase = .waiting then { task with phase := .connecting, status := task.status.setConnecting } else task
  | .shutdown => { task with phase := .ended, forwarders := [] }

def Announced (link : FederationLink) (task : LinkTask) (name : String) : Prop :=
  task.phase = .announcing ∧ name ∈ task.remote ∧ link.forwards name

instance (link : FederationLink) (task : LinkTask) (name : String) : Decidable (task.Announced link name) :=
  inferInstanceAs (Decidable (_ ∧ _ ∧ _))

-- A shadow, with one forwarder, for each matching name that is announced over a live
-- session, and no other.
def Follows (link : FederationLink) (task : LinkTask) : Prop :=
  ∀ name, task.forwarders.count name = if task.Announced link name then 1 else 0

-- While a session lives no matching name goes away, and a session ends without any.
def Steady (link : FederationLink) (creates : String → Bool) (task : LinkTask) : LinkEvent → Prop
  | .announce name => task.phase = .announcing → name ∉ task.remote → link.forwards name → creates name
  | .unannounce name => ¬task.Announced link name
  | .connected => task.phase = .connecting → ∀ name ∈ task.remote, link.forwards name → creates name
  | .streamClosed | .sessionClosed _ => ∀ name, ¬task.Announced link name
  | .connectFailed _ | .retry | .shutdown => True

theorem announced_frame (link : FederationLink) (creates : String → Bool) (task : LinkTask) (name : String) :
    (announced link creates task name).remote = task.remote ∧ (announced link creates task name).phase = task.phase ∧
      (announced link creates task name).forwarders =
        task.forwarders ++ if link.forwards name && creates name then [name] else [] := by
  rw [announced]
  by_cases matching : link.forwards name = true
  · rw [if_pos matching, forwardBroadcast]
    by_cases created : creates name = true
    · simp [matching, created]
    · simp [created]
  · simp [matching]

theorem announced_all (link : FederationLink) (creates : String → Bool) (names : List String) (task : LinkTask) :
    (names.foldl (announced link creates) task).remote = task.remote ∧
      (names.foldl (announced link creates) task).phase = task.phase ∧
      (names.foldl (announced link creates) task).forwarders =
        task.forwarders ++ names.filter fun name => link.forwards name && creates name := by
  induction names generalizing task with
  | nil => simp
  | cons name names ih =>
      obtain ⟨remote, phase, forwarders⟩ := announced_frame link creates task name
      obtain ⟨remotes, phases, all⟩ := ih (announced link creates task name)
      rw [List.foldl_cons]
      refine ⟨remotes.trans remote, phases.trans phase, ?_⟩
      rw [all, forwarders, List.filter_cons, List.append_assoc]
      split <;> rfl

theorem step_remote (link : FederationLink) (creates : String → Bool) (task : LinkTask) (event : LinkEvent)
    (distinct : task.remote.Nodup) : (step link creates task event).remote.Nodup := by
  cases event with
  | announce name =>
      rw [step]
      by_cases known : name ∈ task.remote
      · rwa [if_pos known]
      · rw [if_neg known]
        have added : (task.remote ++ [name]).Nodup := by
          rw [List.nodup_append_comm]
          exact List.nodup_cons.mpr ⟨known, distinct⟩
        dsimp only
        split
        · rwa [(announced_frame link creates _ name).1]
        · exact added
  | unannounce name => exact distinct.erase name
  | connected =>
      rw [step]
      split
      · rwa [(announced_all link creates task.remote _).1]
      · exact distinct
  | connectFailed error | streamClosed | sessionClosed error | retry =>
      rw [step]
      split <;> exact distinct
  | shutdown => exact distinct

theorem not_announced (link : FederationLink) (task : LinkTask) (name : String) (idle : task.phase ≠ .announcing) :
    ¬task.Announced link name := fun announced => idle announced.1

-- What keeps the forwarders has to keep what is announced.
theorem follows_same (link : FederationLink) (task next : LinkTask) (follows : task.Follows link)
    (forwarders : next.forwarders = task.forwarders) :
    next.Follows link ↔ ∀ name, next.Announced link name ↔ task.Announced link name := by
  refine forall_congr' fun name => ?_
  rw [forwarders, follows name]
  by_cases before : task.Announced link name <;> by_cases after : next.Announced link name <;> simp [before, after]

theorem follows_closed (link : FederationLink) (task : LinkTask) (error : String) (follows : task.Follows link) :
    (task.closed error).Follows link ↔ ∀ name, ¬task.Announced link name := by
  rw [follows_same link task (task.closed error) follows rfl]
  refine forall_congr' fun name => ?_
  have idle : ¬(task.closed error).Announced link name := not_announced link _ name (by simp [closed])
  exact ⟨fun same announced => idle (same.mpr announced), fun silent => iff_of_false idle silent⟩

theorem follows_announce (link : FederationLink) (creates : String → Bool) (task : LinkTask) (name : String)
    (follows : task.Follows link) (unknown : name ∉ task.remote) (live : task.phase = .announcing) :
    (announced link creates { task with remote := task.remote ++ [name] } name).Follows link ↔
      (link.forwards name → creates name) := by
  obtain ⟨remote, phase, forwarders⟩ := announced_frame link creates { task with remote := task.remote ++ [name] } name
  have silent : ¬task.Announced link name := fun announced => unknown announced.2.1
  have none : task.forwarders.count name = 0 := by rw [follows name, if_neg silent]
  have here : (announced link creates { task with remote := task.remote ++ [name] } name).Announced link name ↔
      link.forwards name := by
    rw [Announced, remote, phase]
    simp [live]
  have elsewhere : ∀ other, other ≠ name →
      ((announced link creates { task with remote := task.remote ++ [name] } name).Announced link other ↔
        task.Announced link other) := by
    intro other differ
    rw [Announced, Announced, remote, phase]
    simp [differ]
  constructor
  · intro after matching
    have one := after name
    rw [if_pos (here.mpr matching), forwarders, List.count_append, none] at one
    by_contra refused
    simp [refused] at one
  · intro accepted other
    rw [forwarders, List.count_append]
    by_cases same : other = name
    · subst same
      rw [none]
      by_cases matching : link.forwards other = true
      · simp [here, matching, accepted matching]
      · simp [here, matching]
    · have added : (if link.forwards name && creates name then [name] else []).count other = 0 := by
        split
        · exact List.count_singleton.trans (if_neg (by simpa using fun h : name = other => same h.symm))
        · rfl
      rw [added, Nat.add_zero, follows other]
      simp only [elsewhere other same]

theorem follows_unannounce (link : FederationLink) (task : LinkTask) (name : String) (distinct : task.remote.Nodup)
    (follows : task.Follows link) :
    LinkTask.Follows link { task with remote := task.remote.erase name } ↔ ¬task.Announced link name := by
  rw [follows_same link task { task with remote := task.remote.erase name } follows rfl]
  have gone : ¬LinkTask.Announced link { task with remote := task.remote.erase name } name :=
    fun announced => (List.Nodup.not_mem_erase distinct) announced.2.1
  constructor
  · intro same announced
    exact gone ((same name).mpr announced)
  · intro silent other
    by_cases same : other = name
    · subst same
      exact iff_of_false gone silent
    · rw [Announced, Announced, List.mem_erase_of_ne same]

theorem follows_connected (link : FederationLink) (creates : String → Bool) (task : LinkTask)
    (distinct : task.remote.Nodup) (follows : task.Follows link) (idle : task.phase = .connecting) :
    (step link creates task .connected).Follows link ↔ ∀ name ∈ task.remote, link.forwards name → creates name := by
  rw [step, if_pos idle]
  obtain ⟨remote, phase, forwarders⟩ := announced_all link creates task.remote
    { task with phase := .announcing, status := task.status.setConnected }
  have none : ∀ name, task.forwarders.count name = 0 := by
    intro name
    rw [follows name, if_neg (not_announced link task name (by simp [idle]))]
  refine forall_congr' fun name => ?_
  have counted : (task.remote.filter fun name => link.forwards name && creates name).count name =
      if name ∈ task.remote ∧ link.forwards name ∧ creates name then 1 else 0 := by
    by_cases kept : name ∈ task.remote.filter fun name => link.forwards name && creates name
    · have inside := kept
      rw [List.mem_filter, Bool.and_eq_true] at inside
      rw [if_pos inside]
      exact List.count_eq_one_of_mem (distinct.filter _) kept
    · have outside := kept
      rw [List.mem_filter, Bool.and_eq_true] at outside
      rw [if_neg outside]
      exact List.count_eq_zero.mpr kept
  have here : (task.remote.foldl (announced link creates)
      { task with phase := .announcing, status := task.status.setConnected }).Announced link name ↔
        name ∈ task.remote ∧ link.forwards name := by
    rw [Announced, remote, phase]
    simp
  rw [forwarders, List.count_append, none, Nat.zero_add, counted]
  simp only [here]
  by_cases known : name ∈ task.remote <;> by_cases matching : link.forwards name = true <;>
    by_cases accepted : creates name = true <;> simp [known, matching, accepted]

theorem step_follows (link : FederationLink) (creates : String → Bool) (task : LinkTask) (event : LinkEvent)
    (distinct : task.remote.Nodup) (follows : task.Follows link) :
    (step link creates task event).Follows link ↔ Steady link creates task event := by
  cases event with
  | announce name =>
      rw [step, Steady]
      by_cases known : name ∈ task.remote
      · rw [if_pos known]
        exact iff_of_true follows fun _ unknown => absurd known unknown
      · rw [if_neg known]
        by_cases live : task.phase = .announcing
        · simp only [if_pos live]
          rw [follows_announce link creates task name follows known live]
          simp [live, known]
        · simp only [if_neg live]
          refine iff_of_true ?_ fun announcing => absurd announcing live
          refine (follows_same link task { task with remote := task.remote ++ [name] } follows rfl).mpr fun other =>
            iff_of_false ?_ (not_announced link task other live)
          exact not_announced link _ other live
  | unannounce name => exact follows_unannounce link task name distinct follows
  | connected =>
      by_cases idle : task.phase = .connecting
      · rw [follows_connected link creates task distinct follows idle, Steady]
        simp [idle]
      · rw [step, if_neg idle]
        exact iff_of_true follows fun connecting => absurd connecting idle
  | streamClosed | sessionClosed error =>
      rw [step, Steady]
      by_cases live : task.phase = .announcing
      · rw [if_pos live]
        exact follows_closed link task _ follows
      · rw [if_neg live]
        exact iff_of_true follows fun name => not_announced link task name live
  | connectFailed error =>
      rw [step]
      refine iff_of_true ?_ trivial
      split
      · rename_i idle
        exact (follows_closed link task error follows).mpr fun name => not_announced link task name (by simp [idle])
      · exact follows
  | retry =>
      rw [step]
      refine iff_of_true ?_ trivial
      split
      · rename_i idle
        refine (follows_same link task { task with phase := .connecting, status := task.status.setConnecting }
          follows rfl).mpr fun name => iff_of_false ?_ (not_announced link task name (by simp [idle]))
        exact not_announced link _ name (by simp)
      · exact follows
  | shutdown =>
      refine iff_of_true (fun name => ?_) trivial
      rw [if_neg (not_announced link _ name (by simp [step]))]
      rfl

theorem shadows_follow_iff (link : FederationLink) (creates : String → Bool) (events : List LinkEvent) :
    (∀ seen, seen <+: events → (Machine.run (step link creates) new seen).Follows link) ↔
      Machine.AllSteps (Steady link creates) (step link creates) new events := by
  refine Machine.invariant_iff_guarded_under (step_remote link creates) (step_follows link creates) new events
    List.nodup_nil fun name => ?_
  rw [if_neg (not_announced link new name (by simp [new]))]
  rfl

def onePeer : FederationLink := ⟨"https://peer.example:4443/", ["live/room1"]⟩

-- The broadcast ends at the remote.
def remoteEnds : List LinkEvent := [.connected, .announce "live/room1", .unannounce "live/room1"]

-- The session drops and the link reconnects while the broadcast goes on.
def linkReconnects : List LinkEvent :=
  [.connected, .announce "live/room1", .sessionClosed none, .retry, .connected]

theorem shadow_outlives_remote :
    ¬∀ link creates events seen, seen <+: events → (Machine.run (step link creates) new seen).Follows link := by
  intro always
  have ended := always onePeer (fun _ => true) remoteEnds remoteEnds (List.prefix_refl _) "live/room1"
  have left : (Machine.run (step onePeer fun _ => true) new remoteEnds).forwarders = ["live/room1"] := rfl
  rw [left] at ended
  cases ended

example : (Machine.run (step onePeer fun _ => true) new linkReconnects).forwarders = ["live/room1", "live/room1"] := rfl

end LinkTask

end Lvqr.Cluster
