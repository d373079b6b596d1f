import Mathlib.Data.List.Basic
import Lvqr.Lib.Machine

set_option autoImplicit false

-- Waiters on a shared state behind a notifier that keeps no permits: a
-- notification wakes the waiters that have registered by then, and nobody else.
namespace Notify

variable {State Op Query : Type*}

-- An operation says whether it goes on to notify; one that does not has changed
-- nothing.
structure Board (State Op Query : Type*) where
  ready : State → Query → Bool
  act : State → Op → State × Bool
  quiet : ∀ state op, (act state op).2 = false → (act state op).1 = state

inductive Producer (Op : Type*) where
  | called (op : Op)
  | notifying
  | finished
deriving DecidableEq

-- A waiter looks at the state first and registers afterwards.
inductive Waiter (Query : Type*) where
  | checking (query : Query)
  | registering (query : Query)
  | parked (query : Query) (woken : Bool)
  | returned (query : Query)
deriving DecidableEq

def Waiter.wake : Waiter Query → Waiter Query
  | .parked query _ => .parked query true
  | waiter => waiter

structure System (State Op Query : Type*) where
  state : State
  producers : List (Producer Op)
  waiters : List (Waiter Query)

-- `expired` is whether the waiter's deadline has passed.
inductive Choice where
  | produce (index : Nat)
  | wait (index : Nat) (expired : Bool)
deriving DecidableEq, Repr

namespace System

def start (state : State) (ops : List Op) (queries : List Query) : System State Op Query :=
  ⟨state, ops.map .called, queries.map .checking⟩

def produce (board : Board State Op Query) (system : System State Op Query) (index : Nat) : System State Op Query :=
  match system.producers[index]? with
  | some (.called op) =>
      let (state, notifies) := board.act system.state op
      { system with
        state := state
        producers := system.producers.set index (if notifies then .notifying else .finished) }
  | some .notifying =>
      { system with
        producers := system.producers.set index .finished
        waiters := system.waiters.map Waiter.wake }
  | some .finished => system
  | none => system

def advance (board : Board State Op Query) (state : State) (expired : Bool) : Waiter Query → Waiter Query
  | .checking query => if board.ready state query then .returned query else .registering query
  | .registering query => if expired then .returned query else .parked query false
  | .parked query woken => if woken || expired then .checking query else .parked query woken
  | .returned query => .returned query

def wait (board : Board State Op Query) (system : System State Op Query) (index : Nat) (expired : Bool) :
    System State Op Query :=
  match system.waiters[index]? with
  | some waiter => { system with waiters := system.waiters.set index (advance board system.state expired waiter) }
  | none => system

def step (board : Board State Op Query) (system : System State Op Query) : Choice → System State Op Query
  | .produce index => system.produce board index
  | .wait index expired => system.wait board index expired

-- Some operation has still to notify.
def Owing (system : System State Op Query) : Prop := Producer.notifying ∈ system.producers

-- A waiter sleeps through what it waits for, and nobody is about to wake it.
def Lost (board : Board State Op Query) (system : System State Op Query) : Prop :=
  ¬ system.Owing ∧ ∃ query, .parked query false ∈ system.waiters ∧ board.ready system.state query = true

-- A waiter that registers does so before the last notification of what it waits for.
def InTime (board : Board State Op Query) (system : System State Op Query) : Choice → Prop
  | .produce _ => True
  | .wait index expired => ∀ query, system.waiters[index]? = some (.registering query) → expired = false →
      board.ready system.state query = true → system.Owing

theorem mem_set_iff_of_not {Item : Type*} (items : List Item) (index : Nat) (old new item : Item)
    (here : items[index]? = some old) (notOld : item ≠ old) (notNew : item ≠ new) :
    item ∈ items.set index new ↔ item ∈ items := by
  constructor
  · intro member
    exact (List.mem_or_eq_of_mem_set member).resolve_right notNew
  · intro member
    obtain ⟨place, found⟩ := List.mem_iff_getElem?.mp member
    refine List.mem_iff_getElem?.mpr ⟨place, ?_⟩
    rw [List.getElem?_set_ne, found]
    rintro rfl
    exact notOld (Option.some.inj (found.symm.trans here))

theorem act_not_lost (board : Board State Op Query) (system : System State Op Query) (index : Nat) (op : Op)
    (here : system.producers[index]? = some (.called op)) (found : ¬ system.Lost board) :
    ¬ (system.produce board index).Lost board := by
  obtain ⟨bound, _⟩ := List.getElem?_eq_some_iff.mp here
  rw [produce, here]
  cases notifies : (board.act system.state op).2 with
  | true =>
      rintro ⟨idle, _⟩
      refine idle ?_
      simp only [Owing, notifies, if_true]
      exact List.mem_set bound _
  | false =>
      have unchanged := board.quiet system.state op notifies
      rintro ⟨idle, query, parked, ready⟩
      simp only [Owing, notifies, unchanged] at idle parked ready
      refine found ⟨?_, query, parked, ready⟩
      rwa [Owing, ← mem_set_iff_of_not system.producers index (.called op) .finished .notifying here (by simp) (by simp)]

theorem notify_not_lost (board : Board State Op Query) (system : System State Op Query) (index : Nat)
    (here : system.producers[index]? = some .notifying) : ¬ (system.produce board index).Lost board := by
  rw [produce, here]
  rintro ⟨_, query, parked, _⟩
  obtain ⟨waiter, _, woken⟩ := List.mem_map.mp parked
  cases waiter <;> simp [Waiter.wake] at woken

theorem produce_not_lost (board : Board State Op Query) (system : System State Op Query) (index : Nat)
    (found : ¬ system.Lost board) : ¬ (system.produce board index).Lost board := by
  cases here : system.producers[index]? with
  | none => rwa [produce, here]
  | some producer =>
      cases producer with
      | called op => exact act_not_lost board system index op here found
      | notifying => exact notify_not_lost board system index here
      | finished => rwa [produce, here]

-- A waiter that does not go to sleep is not lost by that.
theorem awake_not_lost (board : Board State Op Query) (system : System State Op Query) (index : Nat)
    (new : Waiter Query) (awake : ∀ query, new ≠ .parked query false) (found : ¬ system.Lost board) :
    ¬ Lost board { system with waiters := system.waiters.set index new } := by
  rintro ⟨idle, query, parked, ready⟩
  refine found ⟨idle, query, ?_, ready⟩
  exact (List.mem_or_eq_of_mem_set parked).resolve_right (awake query).symm

theorem register_not_lost_iff (board : Board State Op Query) (system : System State Op Query) (index : Nat)
    (query : Query) (here : system.waiters[index]? = some (.registering query)) (found : ¬ system.Lost board) :
    ¬ Lost board { system with waiters := system.waiters.set index (.parked query false) } ↔
      (board.ready system.state query = true → system.Owing) := by
  obtain ⟨bound, _⟩ := List.getElem?_eq_some_iff.mp here
  constructor
  · intro notLost ready
    by_contra idle
    exact notLost ⟨idle, query, List.mem_set bound _, ready⟩
  · rintro owing ⟨idle, other, parked, ready⟩
    rcases List.mem_or_eq_of_mem_set parked with before | isNew
    · exact found ⟨idle, other, before, ready⟩
    · obtain ⟨rfl, _⟩ := Waiter.parked.inj isNew
      exact idle (owing ready)

theorem wait_not_lost_iff (board : Board State Op Query) (system : System State Op Query) (index : Nat)
    (expired : Bool) (found : ¬ system.Lost board) :
    ¬ (system.wait board index expired).Lost board ↔ system.InTime board (.wait index expired) := by
  rw [wait, InTime]
  cases here : system.waiters[index]? with
  | none => simpa using found
  | some waiter =>
      cases waiter with
      | checking query =>
          refine iff_of_true (awake_not_lost board system index _ ?_ found) (by simp)
          rw [advance]
          split <;> simp
      | registering query =>
          cases expired with
          | true => exact iff_of_true (awake_not_lost board system index _ (by simp [advance]) found) (by simp)
          | false =>
              simp only [advance, Option.some.injEq, Waiter.registering.injEq, forall_eq', forall_const]
              exact register_not_lost_iff board system index query here found
      | parked query woken =>
          refine iff_of_true ?_ (by simp)
          dsimp only [advance]
          split
          · exact awake_not_lost board system index _ (by simp) found
          · rintro ⟨idle, other, parked, ready⟩
            refine found ⟨idle, other, ?_, ready⟩
            rcases List.mem_or_eq_of_mem_set parked with before | same
            · exact before
            · exact same ▸ List.mem_of_getElem? here
      | returned query => exact iff_of_true (awake_not_lost board system index _ (by simp [advance]) found) (by simp)

theorem step_not_lost_iff (board : Board State Op Query) (system : System State Op Query) (choice : Choice)
    (found : ¬ system.Lost board) : ¬ (system.step board choice).Lost board ↔ system.InTime board choice := by
  cases choice with
  | produce index => exact iff_of_true (produce_not_lost board system index found) trivial
  | wait index expired => exact wait_not_lost_iff board system index expired found

theorem start_not_lost (board : Board State Op Query) (state : State) (ops : List Op) (queries : List Query) :
    ¬ (start state ops queries).Lost board := by
  rintro ⟨_, query, parked, _⟩
  simp [start] at parked

-- No waiter of a run is ever lost exactly if all of them register in time.
theorem never_lost_iff (board : Board State Op Query) (state : State) (ops : List Op) (queries : List Query)
    (schedule : List Choice) :
    (∀ seen, seen <+: schedule → ¬ (Machine.run (step board) (start state ops queries) seen).Lost board) ↔
      Machine.AllSteps (InTime board) (step board) (start state ops queries) schedule :=
  Machine.invariant_iff_guarded (step_not_lost_iff board) _ schedule (start_not_lost board state ops queries)

-- No operation acts while a waiter stands between its look and its registration.
def Undisturbed (system : System State Op Query) : Choice → Prop
  | .produce index => ∀ op, system.producers[index]? = some (.called op) →
      ∀ query, .registering query ∉ system.waiters
  | .wait _ _ => True

def Unready (board : Board State Op Query) (system : System State Op Query) : Prop :=
  ∀ query, .registering query ∈ system.waiters → board.ready system.state query = false

theorem produce_unready (board : Board State Op Query) (system : System State Op Query) (index : Nat)
    (unready : system.Unready board) (undisturbed : system.Undisturbed (.produce index)) :
    (system.produce board index).Unready board := by
  rw [produce]
  split
  · rename_i op here
    intro query registering
    exact absurd registering (undisturbed op here query)
  · intro query registering
    obtain ⟨waiter, member, same⟩ := List.mem_map.mp registering
    cases waiter with
    | registering other =>
        obtain rfl := Waiter.registering.inj same
        exact unready other member
    | checking | parked | returned => cases same
  · exact unready
  · exact unready

theorem advance_registering (board : Board State Op Query) (state : State) (expired : Bool) (waiter : Waiter Query)
    (query : Query) (advanced : advance board state expired waiter = .registering query) :
    board.ready state query = false := by
  cases waiter with
  | checking other =>
      dsimp only [advance] at advanced
      split at advanced
      · cases advanced
      · rename_i notReady
        obtain rfl := Waiter.registering.inj advanced
        exact eq_false_of_ne_true notReady
  | registering | parked =>
      dsimp only [advance] at advanced
      split at advanced <;> cases advanced
  | returned => cases advanced

theorem wait_unready (board : Board State Op Query) (system : System State Op Query) (index : Nat) (expired : Bool)
    (unready : system.Unready board) : (system.wait board index expired).Unready board := by
  rw [wait]
  split
  · rename_i waiter here
    intro query registering
    rcases List.mem_or_eq_of_mem_set registering with before | isNew
    · exact unready query before
    · exact advance_registering board system.state expired waiter query isNew.symm
  · exact unready

theorem in_time_of_undisturbed (board : Board State Op Query) (system : System State Op Query)
    (schedule : List Choice) (unready : system.Unready board)
    (undisturbed : Machine.AllSteps Undisturbed (step board) system schedule) :
    Machine.AllSteps (InTime board) (step board) system schedule := by
  induction schedule generalizing system with
  | nil => trivial
  | cons choice schedule ih =>
      obtain ⟨here, later⟩ := undisturbed
      cases choice with
      | produce index => exact ⟨trivial, ih _ (produce_unready board system index unready here) later⟩
      | wait index expired =>
          refine ⟨?_, ih _ (wait_unready board system index expired unready) later⟩
          intro query registering _ ready
          rw [unready query (List.mem_of_getElem? registering)] at ready
          cases ready

end System

end Notify
