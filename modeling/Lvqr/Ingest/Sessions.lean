import Lvqr.Lib.Machine
import Lvqr.Lib.Table

set_option autoImplicit false

-- The registry of live publisher sessions that the admin API stops broadcasts by.
namespace Lvqr.Ingest

inductive Protocol where
  | rtmp
  | whip
  | srt
  | rtsp
deriving DecidableEq, Repr

abbrev PublisherId := Nat

inductive Token where
  | listener (protocol : Protocol)
  | publisher (id : PublisherId)
deriving DecidableEq, Repr

structure BroadcastSessionEntry where
  protocol : Protocol
  token : Token
deriving DecidableEq, Repr

-- How the task of a session leaves its loop: over its end, through a failed read
-- that `?` returns, or where the response writer is gone.
inductive Leaving where
  | loopEnd
  | readError
  | writerClosed
deriving DecidableEq, Repr

inductive Phase where
  | running
  | deregistering (name : String) (rest : List String)
  | ended
deriving DecidableEq, Repr

structure Publisher where
  protocol : Protocol
  names : List String
  phase : Phase
deriving DecidableEq, Repr

-- `last` is ghost state: who registered a name last.
structure Sessions where
  broadcastSessions : Table String BroadcastSessionEntry
  publishers : List Publisher
  cancelled : List Token
  last : Table String PublisherId

inductive SessionsOp where
  | accept (protocol : Protocol)
  | register (id : PublisherId) (name : String)
  | leave (id : PublisherId) (leaving : Leaving)
  | deregister (id : PublisherId)
  | broadcastStop (name : String)
  | shutdown (protocol : Protocol)
deriving DecidableEq, Repr

-- The names a task deregisters on its way out. An RTMP session's guard has the last
-- name only, and on every exit; an RTSP connection has all of its names, but not on
-- the two exits that return early.
def deregistered (publisher : Publisher) (leaving : Leaving) : List String :=
  match publisher.protocol, leaving with
  | .rtmp, _ => publisher.names.getLast?.toList
  | .rtsp, .loopEnd => publisher.names
  | .rtsp, _ => []
  | .whip, _ | .srt, _ => publisher.names

-- SRT and WHIP sessions register once, before their task is spawned; RTMP and RTSP
-- sessions whenever a client publishes.
def Publisher.registers (publisher : Publisher) : Bool :=
  match publisher.protocol with
  | .rtmp | .rtsp => true
  | .whip | .srt => publisher.names.isEmpty

def Phase.after : List String → Phase
  | [] => .ended
  | name :: rest => .deregistering name rest

namespace Sessions

def new : Sessions := ⟨∅, [], [], ∅⟩

def setPublisher (sessions : Sessions) (id : PublisherId) (publisher : Publisher) : Sessions :=
  { sessions with publishers := sessions.publishers.set id publisher }

-- The registrar replaces the entry of a name and removes it by name alone.
def register (sessions : Sessions) (id : PublisherId) (publisher : Publisher) (name : String) : Sessions :=
  { sessions with
    broadcastSessions := sessions.broadcastSessions.insert name ⟨publisher.protocol, .publisher id⟩
    publishers := sessions.publishers.set id { publisher with names := publisher.names ++ [name] }
    last := sessions.last.insert name id }

def deregister (sessions : Sessions) (name : String) : Sessions :=
  { sessions with broadcastSessions := sessions.broadcastSessions.erase name }

def cancel (sessions : Sessions) (token : Token) : Sessions :=
  { sessions with cancelled := token :: sessions.cancelled }

-- The entry stays: the task that owns the token removes it on its way out.
def broadcastStop (sessions : Sessions) (name : String) : Sessions :=
  match sessions.broadcastSessions.lookup name with
  | none => sessions
  | some entry => sessions.cancel entry.token

def step (sessions : Sessions) : SessionsOp → Sessions
  | .accept protocol => { sessions with publishers := sessions.publishers ++ [⟨protocol, [], .running⟩] }
  | .register id name =>
      match sessions.publishers[id]? with
      | some publisher =>
          if publisher.phase = .running ∧ publisher.registers then sessions.register id publisher name else sessions
      | none => sessions
  | .leave id leaving =>
      match sessions.publishers[id]? with
      | some publisher =>
          if publisher.phase = .running then
            sessions.setPublisher id { publisher with phase := .after (deregistered publisher leaving) }
          else sessions
      | none => sessions
  | .deregister id =>
      match sessions.publishers[id]? with
      | some publisher =>
          match publisher.phase with
          | .deregistering name rest =>
              (sessions.deregister name).setPublisher id { publisher with phase := .after rest }
          | _ => sessions
      | none => sessions
  | .broadcastStop name => sessions.broadcastStop name
  | .shutdown protocol => sessions.cancel (.listener protocol)

-- RTSP and SRT connections run on children of their listener's token, the others on
-- tokens of their own.
def parent (sessions : Sessions) : Token → Option Token
  | .listener _ => none
  | .publisher id =>
      match sessions.publishers[id]?.map Publisher.protocol with
      | some .srt => some (.listener .srt)
      | some .rtsp => some (.listener .rtsp)
      | _ => none

def IsCancelled (sessions : Sessions) (token : Token) : Prop :=
  token ∈ sessions.cancelled ∨ ∃ above, sessions.parent token = some above ∧ above ∈ sessions.cancelled

def holder (sessions : Sessions) (name : String) : Option Token :=
  (sessions.broadcastSessions.lookup name).map BroadcastSessionEntry.token

def phaseOf (sessions : Sessions) (id : PublisherId) : Option Phase := sessions.publishers[id]?.map Publisher.phase

-- Whoever registered a name last keeps it while it lives, and is who a stop of the
-- name cancels; nobody keeps a name past the end of its task.
structure Kept (sessions : Sessions) : Prop where
  held : ∀ name id, sessions.last.lookup name = some id → sessions.phaseOf id = some .running →
    sessions.holder name = some (.publisher id)
  stops : ∀ name id, sessions.last.lookup name = some id → sessions.phaseOf id = some .running →
    ∀ token, (sessions.broadcastStop name).IsCancelled token ↔ sessions.IsCancelled token ∨ token = .publisher id
  released : ∀ name id, sessions.phaseOf id = some .ended → sessions.holder name ≠ some (.publisher id)

-- A task deregisters no name that a live session holds, and when its way out ends it
-- holds no other name than the one it deregisters last.
def Orderly (sessions : Sessions) : SessionsOp → Prop
  | .leave id leaving => ∀ publisher, sessions.publishers[id]? = some publisher → publisher.phase = .running →
      deregistered publisher leaving = [] → ∀ name, sessions.holder name ≠ some (.publisher id)
  | .deregister id => ∀ publisher name rest, sessions.publishers[id]? = some publisher →
      publisher.phase = .deregistering name rest →
        (∀ other, sessions.holder name = some (.publisher other) → sessions.phaseOf other ≠ some .running) ∧
        (rest = [] → ∀ kept, sessions.holder kept = some (.publisher id) → kept = name)
  | _ => True

-- Whoever holds a name registered it last.
structure Traced (sessions : Sessions) : Prop where
  holders : ∀ name token, sessions.holder name = some token →
    ∃ id, token = .publisher id ∧ sessions.last.lookup name = some id
  known : ∀ name id, sessions.last.lookup name = some id → id < sessions.publishers.length

theorem parent_listener (sessions : Sessions) (token above : Token) (isParent : sessions.parent token = some above) :
    ∃ protocol, above = .listener protocol := by
  cases token with
  | listener protocol => cases isParent
  | publisher id =>
      rw [parent] at isParent
      split at isParent
      · exact ⟨.srt, (Option.some.inj isParent).symm⟩
      · exact ⟨.rtsp, (Option.some.inj isParent).symm⟩
      · cases isParent

theorem cancelled_publisher (sessions : Sessions) (id : PublisherId) (token : Token) :
    (sessions.cancel (.publisher id)).IsCancelled token ↔ sessions.IsCancelled token ∨ token = .publisher id := by
  have parents : (sessions.cancel (.publisher id)).parent token = sessions.parent token := by
    cases token <;> rfl
  have above : ∀ above, sessions.parent token = some above →
      (above ∈ (sessions.cancel (.publisher id)).cancelled ↔ above ∈ sessions.cancelled) := by
    intro above isParent
    obtain ⟨protocol, isListener⟩ := parent_listener sessions token above isParent
    simp [cancel, isListener]
  rw [IsCancelled, IsCancelled, parents]
  have direct : token ∈ (sessions.cancel (.publisher id)).cancelled ↔
      token = .publisher id ∨ token ∈ sessions.cancelled := List.mem_cons
  constructor
  · rintro (isIn | ⟨one, isParent, isIn⟩)
    · rcases direct.mp isIn with same | before
      · exact .inr same
      · exact .inl (.inl before)
    · exact .inl (.inr ⟨one, isParent, (above one isParent).mp isIn⟩)
  · rintro ((before | ⟨one, isParent, before⟩) | same)
    · exact .inl (direct.mpr (.inr before))
    · exact .inr ⟨one, isParent, (above one isParent).mpr before⟩
    · exact .inl (direct.mpr (.inl same))

-- A stop finds the token that holds the name.
theorem stop_of_held (sessions : Sessions) (name : String) (id : PublisherId)
    (held : sessions.holder name = some (.publisher id)) (token : Token) :
    (sessions.broadcastStop name).IsCancelled token ↔ sessions.IsCancelled token ∨ token = .publisher id := by
  rw [holder] at held
  obtain ⟨entry, found, isToken⟩ := Option.map_eq_some_iff.mp held
  rw [broadcastStop, found]
  simp only [isToken]
  exact cancelled_publisher sessions id token

def Held (sessions : Sessions) : Prop :=
  ∀ name id, sessions.last.lookup name = some id → sessions.phaseOf id = some .running →
    sessions.holder name = some (.publisher id)

def Released (sessions : Sessions) : Prop :=
  ∀ name id, sessions.phaseOf id = some .ended → sessions.holder name ≠ some (.publisher id)

theorem kept_iff (sessions : Sessions) : sessions.Kept ↔ sessions.Held ∧ sessions.Released := by
  refine ⟨fun kept => ⟨kept.held, kept.released⟩, fun ⟨held, released⟩ => ⟨held, ?_, released⟩⟩
  intro name id isLast running token
  exact stop_of_held sessions name id (held name id isLast running) token

@[simp] theorem holder_set_publisher (sessions : Sessions) (id : PublisherId) (publisher : Publisher) (name : String) :
    (sessions.setPublisher id publisher).holder name = sessions.holder name := rfl

theorem holder_register (sessions : Sessions) (id : PublisherId) (publisher : Publisher) (name other : String) :
    (sessions.register id publisher name).holder other =
      if other = name then some (.publisher id) else sessions.holder other := by
  simp only [holder, register, Table.lookup_insert_eq]
  split <;> rfl

theorem holder_deregister (sessions : Sessions) (name other : String) :
    (sessions.deregister name).holder other = if other = name then none else sessions.holder other := by
  simp only [holder, deregister, Table.lookup_erase_eq]
  split <;> rfl

theorem phase_set (sessions : Sessions) (id : PublisherId) (old publisher : Publisher)
    (here : sessions.publishers[id]? = some old) (other : PublisherId) :
    (sessions.setPublisher id publisher).phaseOf other =
      if other = id then some publisher.phase else sessions.phaseOf other := by
  obtain ⟨bound, _⟩ := List.getElem?_eq_some_iff.mp here
  rw [phaseOf, phaseOf, setPublisher, List.getElem?_set]
  by_cases same : other = id
  · simp [same, bound]
  · have differ : ¬id = other := fun h => same h.symm
    rw [if_neg differ, if_neg same]

theorem phase_register (sessions : Sessions) (id : PublisherId) (publisher : Publisher) (name : String)
    (here : sessions.publishers[id]? = some publisher) (other : PublisherId) :
    (sessions.register id publisher name).phaseOf other = sessions.phaseOf other := by
  have set := phase_set sessions id publisher { publisher with names := publisher.names ++ [name] } here other
  have same : (sessions.register id publisher name).phaseOf other =
      (sessions.setPublisher id { publisher with names := publisher.names ++ [name] }).phaseOf other := rfl
  rw [same, set]
  split
  · rename_i isSelf
    rw [isSelf, phaseOf, here]
    rfl
  · rfl

theorem traced_new : new.Traced := by
  refine ⟨fun name token found => ?_, fun name id found => ?_⟩
  · cases found
  · cases found

theorem traced_of_same (sessions after : Sessions) (traced : sessions.Traced)
    (holders : ∀ name token, after.holder name = some token → sessions.holder name = some token)
    (last : after.last = sessions.last) (publishers : sessions.publishers.length ≤ after.publishers.length) :
    after.Traced := by
  refine ⟨fun name token found => ?_, fun name id found => ?_⟩
  · rw [last]
    exact traced.holders name token (holders name token found)
  · rw [last] at found
    exact Nat.lt_of_lt_of_le (traced.known name id found) publishers

theorem traced_register (sessions : Sessions) (id : PublisherId) (publisher : Publisher) (name : String)
    (here : sessions.publishers[id]? = some publisher) (traced : sessions.Traced) :
    (sessions.register id publisher name).Traced := by
  obtain ⟨bound, _⟩ := List.getElem?_eq_some_iff.mp here
  refine ⟨fun other token found => ?_, fun other one found => ?_⟩
  · rw [holder_register] at found
    rw [register, Table.lookup_insert_eq]
    split at found
    · rename_i same
      exact ⟨id, (Option.some.inj found).symm, if_pos same⟩
    · rename_i differ
      rw [if_neg differ]
      exact traced.holders other token found
  · have inserted : (sessions.last.insert name id).lookup other = some one := found
    have length : (sessions.register id publisher name).publishers.length = sessions.publishers.length :=
      List.length_set
    rw [length]
    rcases Table.insert_cases inserted with ⟨_, rfl⟩ | ⟨_, before⟩
    · assumption
    · exact traced.known other one before

theorem stop_frame (sessions : Sessions) (name : String) :
    (sessions.broadcastStop name).broadcastSessions = sessions.broadcastSessions ∧
      (sessions.broadcastStop name).publishers = sessions.publishers ∧
      (sessions.broadcastStop name).last = sessions.last := by
  rw [broadcastStop]
  split <;> exact ⟨rfl, rfl, rfl⟩

theorem step_traced (sessions : Sessions) (op : SessionsOp) (traced : sessions.Traced) : (sessions.step op).Traced := by
  have set : ∀ id publisher, (sessions.setPublisher id publisher).publishers.length = sessions.publishers.length :=
    fun id publisher => List.length_set
  cases op with
  | accept protocol => exact traced_of_same sessions _ traced (fun _ _ found => found) rfl (by simp [step])
  | register id name =>
      simp only [step]
      split
      · rename_i publisher here
        split
        · exact traced_register sessions id publisher name here traced
        · exact traced
      · exact traced
  | leave id leaving =>
      simp only [step]
      split
      · split
        · exact traced_of_same sessions _ traced (fun _ _ found => found) rfl (Nat.le_of_eq (set id _).symm)
        · exact traced
      · exact traced
  | deregister id =>
      simp only [step]
      split
      · split
        · refine traced_of_same sessions _ traced (fun other token found => ?_) rfl (Nat.le_of_eq (set id _).symm)
          rw [holder_set_publisher, holder_deregister] at found
          split at found
          · cases found
          · exact found
        · exact traced
      · exact traced
  | broadcastStop name =>
      obtain ⟨entries, publishers, last⟩ := stop_frame sessions name
      have holders : ∀ other, (sessions.broadcastStop name).holder other = sessions.holder other :=
        fun other => by rw [holder, entries, holder]
      exact traced_of_same sessions _ traced (fun other _ found => (holders other).symm.trans found) last
        (by rw [step, publishers])
  | shutdown protocol => exact traced_of_same sessions _ traced (fun _ _ found => found) rfl (Nat.le_refl _)

theorem kept_of_same (sessions after : Sessions) (holders : ∀ name, after.holder name = sessions.holder name)
    (phases : ∀ id, after.phaseOf id = sessions.phaseOf id) (last : after.last = sessions.last)
    (kept : sessions.Kept) : after.Kept := by
  rw [kept_iff]
  refine ⟨fun name id isLast running => ?_, fun name id ended => ?_⟩
  · rw [holders]
    exact kept.held name id (last ▸ isLast) (phases id ▸ running)
  · rw [holders]
    exact kept.released name id (phases id ▸ ended)

theorem accept_kept (sessions : Sessions) (protocol : Protocol) (traced : sessions.Traced) (kept : sessions.Kept) :
    (sessions.step (.accept protocol)).Kept := by
  have older : ∀ id, id < sessions.publishers.length →
      (sessions.step (.accept protocol)).phaseOf id = sessions.phaseOf id := by
    intro id bound
    simp [step, phaseOf, List.getElem?_append_left bound]
  rw [kept_iff]
  refine ⟨fun name id isLast running => ?_, fun name id ended => ?_⟩
  · exact kept.held name id isLast (older id (traced.known name id isLast) ▸ running)
  · intro held
    obtain ⟨one, same, isLast⟩ := traced.holders name _ held
    cases same
    exact kept.released name id (older id (traced.known name id isLast) ▸ ended) held

theorem register_kept (sessions : Sessions) (id : PublisherId) (publisher : Publisher) (name : String)
    (here : sessions.publishers[id]? = some publisher) (running : publisher.phase = .running) (kept : sessions.Kept) :
    (sessions.register id publisher name).Kept := by
  rw [kept_iff]
  refine ⟨fun other one isLast lives => ?_, fun other one ended => ?_⟩
  · have inserted : (sessions.last.insert name id).lookup other = some one := isLast
    rw [holder_register]
    rw [phase_register sessions id publisher name here] at lives
    rcases Table.insert_cases inserted with ⟨same, rfl⟩ | ⟨differ, before⟩
    · rw [if_pos same]
    · rw [if_neg differ]
      exact kept.held other one before lives
  · rw [phase_register sessions id publisher name here] at ended
    rw [holder_register]
    split
    · intro same
      cases same
      rw [phaseOf, here, Option.map_some, running] at ended
      cases ended
    · exact kept.released other one ended

-- What becomes of a task that is on its way out, with the names it has still to remove.
theorem leaving_kept (sessions : Sessions) (id : PublisherId) (publisher : Publisher) (names : List String)
    (here : sessions.publishers[id]? = some publisher)
    (released : ∀ name other, sessions.phaseOf other = some .ended → sessions.holder name ≠ some (.publisher other)) :
    (sessions.setPublisher id { publisher with phase := .after names }).Kept ↔
      (∀ name other, sessions.last.lookup name = some other → other ≠ id → sessions.phaseOf other = some .running →
        sessions.holder name = some (.publisher other)) ∧
      (names = [] → ∀ name, sessions.holder name ≠ some (.publisher id)) := by
  have phase := phase_set sessions id publisher { publisher with phase := .after names } here
  rw [kept_iff]
  constructor
  · intro ⟨held, nothing⟩
    refine ⟨fun name other isLast differ running => ?_, fun last name => ?_⟩
    · exact held name other isLast (by rwa [phase, if_neg differ])
    · refine nothing name id ?_
      rw [phase, if_pos rfl, last]
      rfl
  · intro ⟨held, clean⟩
    refine ⟨fun name other isLast running => ?_, fun name other ended => ?_⟩
    · rw [phase] at running
      split at running
      · cases names <;> cases running
      · rename_i differ
        exact held name other isLast differ running
    · rw [phase] at ended
      split at ended
      · rename_i same
        cases names with
        | nil => exact same ▸ clean rfl name
        | cons first rest => cases ended
      · exact released name other ended

theorem leave_kept (sessions : Sessions) (id : PublisherId) (leaving : Leaving) (kept : sessions.Kept) :
    (sessions.step (.leave id leaving)).Kept ↔ sessions.Orderly (.leave id leaving) := by
  simp only [step, Orderly]
  cases here : sessions.publishers[id]? with
  | none => exact ⟨fun _ _ found => (by cases found), fun _ => kept⟩
  | some publisher =>
      by_cases running : publisher.phase = .running
      · simp only [if_pos running]
        rw [leaving_kept sessions id publisher _ here kept.released]
        constructor
        · intro ⟨_, clean⟩ one same _
          cases same
          exact clean
        · exact fun orderly =>
            ⟨fun name other isLast _ lives => kept.held name other isLast lives, orderly publisher rfl running⟩
      · simp only [if_neg running]
        refine ⟨fun _ one same isRunning => ?_, fun _ => kept⟩
        cases same
        exact absurd isRunning running

theorem held_deregister (sessions : Sessions) (id : PublisherId) (name : String) (traced : sessions.Traced)
    (kept : sessions.Kept) (leaving : sessions.phaseOf id ≠ some .running) :
    (∀ other one, sessions.last.lookup other = some one → one ≠ id → sessions.phaseOf one = some .running →
        (sessions.deregister name).holder other = some (.publisher one)) ↔
      ∀ other, sessions.holder name = some (.publisher other) → sessions.phaseOf other ≠ some .running := by
  constructor
  · intro after other isHolder running
    obtain ⟨one, same, isLast⟩ := traced.holders name _ isHolder
    cases same
    have differ : other ≠ id := fun same => leaving (same ▸ running)
    have gone := after name other isLast differ running
    rw [holder_deregister, if_pos rfl] at gone
    cases gone
  · intro free other one isLast _ running
    have isHolder := kept.held other one isLast running
    rw [holder_deregister]
    split
    · rename_i same
      exact absurd running (free one (same ▸ isHolder))
    · exact isHolder

theorem clean_deregister (sessions : Sessions) (id : PublisherId) (name : String) :
    (∀ kept, (sessions.deregister name).holder kept ≠ some (.publisher id)) ↔
      ∀ kept, sessions.holder kept = some (.publisher id) → kept = name := by
  refine forall_congr' fun kept => ?_
  rw [holder_deregister]
  split
  · rename_i same
    exact iff_of_true (by simp) fun _ => same
  · rename_i differ
    exact ⟨fun other isHolder => absurd isHolder other, fun only isHolder => differ (only isHolder)⟩

theorem deregister_kept (sessions : Sessions) (id : PublisherId) (traced : sessions.Traced) (kept : sessions.Kept) :
    (sessions.step (.deregister id)).Kept ↔ sessions.Orderly (.deregister id) := by
  simp only [step, Orderly]
  cases here : sessions.publishers[id]? with
  | none => exact ⟨fun _ _ _ _ found => (by cases found), fun _ => kept⟩
  | some publisher =>
      have phaseHere : sessions.phaseOf id = some publisher.phase := by rw [phaseOf, here, Option.map_some]
      by_cases leaving : ∃ name rest, publisher.phase = .deregistering name rest
      · obtain ⟨name, rest, phase⟩ := leaving
        simp only [phase]
        have still : sessions.phaseOf id ≠ some .running := by simp [phaseHere, phase]
        have released : ∀ other one, (sessions.deregister name).phaseOf one = some .ended →
            (sessions.deregister name).holder other ≠ some (.publisher one) := by
          intro other one ended
          rw [holder_deregister]
          split
          · simp
          · exact kept.released other one ended
        rw [leaving_kept (sessions.deregister name) id publisher rest here released]
        have held := held_deregister sessions id name traced kept still
        have clean := clean_deregister sessions id name
        constructor
        · intro ⟨heldAfter, cleanAfter⟩ one other more found isPhase
          cases found
          rw [phase] at isPhase
          cases isPhase
          exact ⟨held.mp heldAfter, fun last => clean.mp (cleanAfter last)⟩
        · intro orderly
          obtain ⟨free, only⟩ := orderly publisher name rest rfl phase
          exact ⟨held.mpr free, fun last => clean.mpr (only last)⟩
      · refine ⟨fun _ one name rest found isPhase => ?_, fun _ => ?_⟩
        · cases found
          exact absurd ⟨name, rest, isPhase⟩ leaving
        · cases phase : publisher.phase with
          | deregistering name rest => exact absurd ⟨name, rest, phase⟩ leaving
          | running => simpa only [phase] using kept
          | ended => simpa only [phase] using kept

theorem step_kept (sessions : Sessions) (op : SessionsOp) (traced : sessions.Traced) (kept : sessions.Kept) :
    (sessions.step op).Kept ↔ sessions.Orderly op := by
  cases op with
  | accept protocol => exact iff_of_true (accept_kept sessions protocol traced kept) trivial
  | register id name =>
      refine iff_of_true ?_ trivial
      simp only [step]
      split
      · rename_i publisher here
        split
        · rename_i may
          exact register_kept sessions id publisher name here may.1 kept
        · exact kept
      · exact kept
  | leave id leaving => exact leave_kept sessions id leaving kept
  | deregister id => exact deregister_kept sessions id traced kept
  | broadcastStop name =>
      obtain ⟨entries, publishers, last⟩ := stop_frame sessions name
      refine iff_of_true (kept_of_same sessions _ (fun other => ?_) (fun other => ?_) last kept) trivial
      · rw [step, holder, entries, holder]
      · rw [step, phaseOf, publishers, phaseOf]
  | shutdown protocol => exact iff_of_true (kept_of_same sessions _ (fun _ => rfl) (fun _ => rfl) rfl kept) trivial

theorem new_kept : new.Kept := by
  rw [kept_iff]
  exact ⟨fun _ _ found _ => (by cases found), fun _ _ ended _ => (by cases ended)⟩

theorem registry_kept_iff (ops : List SessionsOp) :
    (∀ seen, seen <+: ops → (Machine.run step new seen).Kept) ↔ Machine.AllSteps Orderly step new ops :=
  Machine.invariant_iff_guarded_under step_traced step_kept new ops traced_new new_kept

-- The old session of a publisher that came back ends after the new one registered.
def takenOver : List SessionsOp :=
  [.accept .rtmp, .register 0 "live/camera", .accept .rtmp, .register 1 "live/camera", .leave 0 .loopEnd, .deregister 0]

theorem old_session_removes_new_entry :
    ¬∀ ops seen, seen <+: ops → (Machine.run step new seen).Kept := by
  intro always
  have kept := always takenOver takenOver (List.prefix_refl _)
  have held := kept.held "live/camera" 1 rfl rfl
  have gone : (Machine.run step new takenOver).holder "live/camera" = none := rfl
  rw [gone] at held
  cases held

end Sessions

end Lvqr.Ingest
