import Lvqr.Lib.Machine
import Lvqr.Cluster.Lease

set_option autoImplicit false

-- What dropping a claim leaves on its key.
namespace Lvqr.Cluster

def lastOf (writes : List LeaseWrite) (claim : Nat) : Option LeaseWrite :=
  writes.find? fun write => write.claim = claim

def abortedAt (claims : List Claim) (index : Nat) : Option Nat := claims[index]?.bind Claim.aborted

def After (aborted : Nat → Option Nat) (index later : Nat) : Prop :=
  ∃ made, aborted index = some made ∧ made ≤ later

-- No claim of the name that was made after the writer was dropped has its lease there.
def Clear (aborted : Nat → Option Nat) (older : List LeaseWrite) (write : LeaseWrite) : Prop :=
  ∀ later last, After aborted write.claim later → lastOf older later = some last → last.key = write.key →
    last.lease = none

def Spared (aborted : Nat → Option Nat) : List LeaseWrite → Prop
  | [] => True
  | write :: older => (write.lease = none → Clear aborted older write) ∧ Spared aborted older

-- What a renewer last wrote goes with its phase.
def Claim.Fits (claim : Claim) (last : Option LeaseWrite) : Prop :=
  match claim.phase with
  | .claiming | .abandoned => last = none ∧ claim.aborted = none ∧ claim.stopped = false
  | .selecting | .renewing _ | .releasing =>
      (∃ write, last = some write ∧ write.lease ≠ none) ∧ (claim.aborted.isSome → claim.stopped)
  | .finished => ∃ write, last = some write ∧ write.lease = none
  | .cancelled => (∃ write, last = some write ∧ write.lease ≠ none) ∧ claim.aborted.isSome

namespace ChitchatNode

def Quiet (node : ChitchatNode) (index : Nat) : Prop :=
  node.step (.poll index) = node ∧ ∀ tick now, node.step (.advance index tick now) = node

def Released (node : ChitchatNode) : Prop :=
  ∀ index claim, node.claims[index]? = some claim → claim.aborted.isSome → node.Quiet index →
    ∃ last, lastOf node.writes index = some last ∧ last.lease = none

def NeverDeleted (node : ChitchatNode) : Prop := Spared (abortedAt node.claims) node.writes

def DropReleases (node : ChitchatNode) : Prop := node.Released ∧ node.NeverDeleted

def Waits (node : ChitchatNode) (index : Nat) : Prop :=
  .claim index ∈ node.queue ∧ node.queue.head? ≠ some (.claim index)

-- The abort finds the renewer in a poll, or through. That poll gets the lock without
-- waiting, before another claim of the name has its lease.
def InTime (node : ChitchatNode) : LeaseOp → Prop
  | .poll index => ∀ claim, node.claims[index]? = some claim → claim.running → claim.aborted.isSome → claim.polled
  | .advance index _ _ => ∀ claim, node.claims[index]? = some claim → claim.polled →
      match claim.phase with
      | .renewing _ => claim.aborted.isSome → ¬node.Waits index
      | .releasing => (claim.aborted.isSome → ¬node.Waits index) ∧
          (node.queue.head? = some (.claim index) →
            Clear (abortedAt node.claims) node.writes ⟨index, broadcastKey claim.broadcast, none⟩)
      | _ => True
  | _ => True

structure Sound (node : ChitchatNode) : Prop where
  fits : ∀ (index : Nat) (claim : Claim), node.claims[index]? = some claim → claim.Fits (lastOf node.writes index)
  known : ∀ write ∈ node.writes, write.claim < node.claims.length

-- What a step can do to the claims and the writes, and whether it is in time.
inductive Outcome (node next : ChitchatNode) (inTime : Prop) : Prop where
  | idle (claims : next.claims = node.claims) (writes : next.writes = node.writes) (allowed : inTime)
  | made (claim : Claim) (claims : next.claims = node.claims ++ [claim]) (writes : next.writes = node.writes)
      (phase : claim.phase = .claiming) (stopped : claim.stopped = false) (aborted : claim.aborted = none)
      (allowed : inTime)
  | moved (index : Nat) (old claim : Claim) (found : node.claims[index]? = some old)
      (claims : next.claims = node.claims.set index claim) (writes : next.writes = node.writes)
      (aborted : claim.aborted = old.aborted) (phase : claim.phase = .cancelled → old.phase = .cancelled)
      (fits : ∀ last, old.Fits last → claim.Fits last) (allowed : inTime)
  | cancelled (index : Nat) (old claim : Claim) (found : node.claims[index]? = some old)
      (claims : next.claims = node.claims.set index claim) (writes : next.writes = node.writes)
      (running : old.running) (aborted : old.aborted.isSome) (same : claim.aborted = old.aborted)
      (phase : claim.phase = .cancelled) (late : ¬inTime)
  | leased (index : Nat) (old claim : Claim) (write : LeaseWrite) (found : node.claims[index]? = some old)
      (claims : next.claims = node.claims.set index claim) (writes : next.writes = write :: node.writes)
      (own : write.claim = index) (lease : write.lease ≠ none) (aborted : claim.aborted = old.aborted)
      (phase : claim.phase = .selecting) (fits : claim.Fits (some write)) (allowed : inTime)
  | deleted (index : Nat) (old claim : Claim) (write : LeaseWrite) (found : node.claims[index]? = some old)
      (claims : next.claims = node.claims.set index claim) (writes : next.writes = write :: node.writes)
      (own : write.claim = index) (lease : write.lease = none) (aborted : claim.aborted = old.aborted)
      (phase : claim.phase = .finished)
      (allowed : inTime ↔ Clear (abortedAt node.claims) node.writes write)
  | aborted (index : Nat) (old : Claim) (found : node.claims[index]? = some old)
      (claims : next.claims = node.claims.set index { old with aborted := some node.claims.length })
      (writes : next.writes = node.writes) (stopped : old.stopped) (first : old.aborted = none) (allowed : inTime)

theorem suspend_outcome (node : ChitchatNode) (index : Nat) (claim : Claim) (inTime : Prop)
    (found : node.claims[index]? = some claim) (running : claim.running)
    (allowed : inTime ↔ ¬claim.aborted.isSome) : Outcome node (node.suspend index claim) inTime := by
  rw [suspend]
  by_cases aborted : claim.aborted.isSome = true
  · rw [if_pos aborted]
    have late : ¬inTime := fun inTime => allowed.mp inTime aborted
    exact .cancelled index claim { claim with phase := .cancelled, polled := false } found rfl rfl running aborted rfl rfl late
  · rw [if_neg aborted]
    exact .moved index claim { claim with polled := false } found rfl rfl rfl id
      (fun _ fits => fits) (allowed.mpr aborted)

theorem head_mem (node : ChitchatNode) (waiter : Waiter) (first : node.queue.head? = some waiter) :
    waiter ∈ node.queue := List.mem_of_mem_head? first

theorem with_lock_outcome (node held : ChitchatNode) (index : Nat) (claim : Claim) (inTime : Prop)
    (found : node.claims[index]? = some claim) (running : claim.running)
    (waiting : node.Waits index → (inTime ↔ ¬claim.aborted.isSome))
    (joining : .claim index ∉ node.queue → inTime)
    (holding : node.queue.head? = some (.claim index) → Outcome node (held.leave (.claim index)) inTime) :
    Outcome node (node.withLock index claim held) inTime := by
  rw [withLock]
  by_cases member : .claim index ∈ node.queue
  · rw [if_pos member]
    by_cases first : node.queue.head? = some (.claim index)
    · rw [if_pos first]
      exact holding first
    · rw [if_neg first]
      exact suspend_outcome node index claim inTime found running (waiting ⟨member, first⟩)
  · rw [if_neg member]
    exact .idle rfl rfl (joining member)

theorem advance_outcome (node : ChitchatNode) (index : Nat) (claim : Claim) (tick : Bool) (now : Nat)
    (found : node.claims[index]? = some claim) (polled : claim.polled) (fits : claim.Fits (lastOf node.writes index)) :
    Outcome node (node.advance index claim tick now) (node.InTime (.advance index tick now)) := by
  have guard : ∀ (P : Claim → Prop), (∀ one, node.claims[index]? = some one → one.polled → P one) ↔ P claim := by
    intro P
    simp [found, polled]
  rw [advance, InTime, guard]
  cases phase : claim.phase with
  | selecting =>
      rw [Claim.Fits, phase] at fits
      have running : claim.running := by rw [Claim.running, phase]
      dsimp only
      by_cases stopped : claim.stopped = true
      · rw [if_pos stopped]
        refine .moved index claim { claim with phase := .releasing } found rfl rfl rfl (by simp) (fun last fits => ?_) trivial
        rw [Claim.Fits, phase] at fits
        exact fits
      · rw [if_neg stopped]
        cases tick with
        | true =>
            refine .moved index claim { claim with phase := .renewing (min (now + claim.lease) u64Max) } found rfl rfl
              rfl (by simp) (fun last fits => ?_) trivial
            rw [Claim.Fits, phase] at fits
            exact fits
        | false =>
            refine suspend_outcome node index claim True found running (iff_of_true trivial fun aborted => ?_)
            exact stopped (fits.2 aborted)
  | renewing expiresAtMs =>
      rw [Claim.Fits, phase] at fits
      have running : claim.running := by rw [Claim.running, phase]
      refine with_lock_outcome node _ index claim _ found running ?_ ?_ ?_
      · intro waits
        exact ⟨fun allowed aborted => allowed aborted waits, fun alive aborted => absurd aborted alive⟩
      · intro absent _ waits
        exact absent waits.1
      · intro first
        refine .leased index claim { claim with phase := .selecting } _ found rfl rfl rfl (by simp) rfl rfl
          ⟨⟨_, rfl, by simp⟩, fits.2⟩ fun _ waits => waits.2 first
  | releasing =>
      have running : claim.running := by rw [Claim.running, phase]
      refine with_lock_outcome node _ index claim _ found running ?_ ?_ ?_
      · intro waits
        refine ⟨fun allowed aborted => allowed.1 aborted waits, fun alive => ⟨fun aborted => absurd aborted alive, ?_⟩⟩
        intro first
        exact absurd first waits.2
      · intro absent
        exact ⟨fun _ waits => absent waits.1, fun first => absurd (head_mem node _ first) absent⟩
      · intro first
        refine .deleted index claim { claim with phase := .finished, polled := false } _ found rfl rfl rfl rfl rfl rfl ?_
        exact ⟨fun allowed => allowed.2 first, fun clear => ⟨fun _ waits => waits.2 first, fun _ => clear⟩⟩
  | claiming => exact .idle rfl rfl trivial
  | abandoned => exact .idle rfl rfl trivial
  | finished => exact .idle rfl rfl trivial
  | cancelled => exact .idle rfl rfl trivial

theorem poll_outcome (node : ChitchatNode) (index : Nat) (claim : Claim) (found : node.claims[index]? = some claim) :
    Outcome node (node.poll index claim) (node.InTime (.poll index)) := by
  have guard : node.InTime (.poll index) ↔ (claim.running → claim.aborted.isSome → claim.polled) := by
    simp [InTime, found]
  rw [poll]
  by_cases due : (claim.running && !claim.polled) = true
  · rw [if_pos due]
    rw [Bool.and_eq_true, Bool.not_eq_true'] at due
    by_cases aborted : claim.aborted.isSome = true
    · rw [if_pos aborted]
      refine .cancelled index claim { claim with phase := .cancelled, polled := false } found rfl rfl due.1 aborted rfl rfl ?_
      intro allowed
      rw [guard.mp allowed due.1 aborted] at due
      cases due.2
    · rw [if_neg aborted]
      exact .moved index claim { claim with polled := true } found rfl rfl rfl id (fun _ fits => fits)
        (guard.mpr fun _ given => absurd given aborted)
  · rw [if_neg due]
    refine .idle rfl rfl (guard.mpr fun running _ => ?_)
    by_contra idle
    simp [running, idle] at due

theorem publish_outcome (node : ChitchatNode) (index now : Nat) (claim : Claim) (sound : node.Sound)
    (found : node.claims[index]? = some claim) : Outcome node (node.publish index claim now) True := by
  rw [publish]
  split
  · rename_i first
    rw [Bool.and_eq_true, decide_eq_true_eq, decide_eq_true_eq] at first
    have fits := sound.fits index claim found
    rw [Claim.Fits, first.1] at fits
    refine .leased index claim { claim with phase := .selecting } _ found rfl rfl rfl (by simp) rfl rfl
      ⟨⟨_, rfl, by simp⟩, fun aborted => ?_⟩ trivial
    rw [fits.2.1] at aborted
    cases aborted
  · exact .idle rfl rfl trivial

theorem abandon_outcome (node : ChitchatNode) (index : Nat) (claim : Claim) (found : node.claims[index]? = some claim) :
    Outcome node (node.abandon index claim) True := by
  rw [abandon]
  split
  · rename_i claiming
    refine .moved index claim { claim with phase := .abandoned } found rfl rfl rfl (by simp) (fun last fits => ?_) trivial
    rw [Claim.Fits, claiming] at fits
    exact fits
  · exact .idle rfl rfl trivial

theorem signal_outcome (node : ChitchatNode) (index : Nat) (claim : Claim) (found : node.claims[index]? = some claim) :
    Outcome node (node.signal index claim) True := by
  rw [signal]
  split
  · exact .idle rfl rfl trivial
  · rename_i handed
    refine .moved index claim { claim with stopped := true } found rfl rfl rfl id (fun last fits => ?_) trivial
    rw [Claim.Fits] at fits ⊢
    cases phase : claim.phase with
    | claiming => simp [phase] at handed
    | abandoned => simp [phase] at handed
    | selecting | renewing _ | releasing =>
        rw [phase] at fits
        exact ⟨fits.1, fun _ => rfl⟩
    | finished | cancelled =>
        rw [phase] at fits
        exact fits

theorem abort_outcome (node : ChitchatNode) (index : Nat) (claim : Claim) (found : node.claims[index]? = some claim) :
    Outcome node (node.abort index claim) True := by
  rw [abort]
  split
  · rename_i dropped
    rw [Bool.and_eq_true, Option.isNone_iff_eq_none] at dropped
    exact .aborted index claim found rfl rfl dropped.1 dropped.2 trivial
  · exact .idle rfl rfl trivial

theorem claim_outcome (node : ChitchatNode) (op : LeaseOp) (sound : node.Sound) :
    Outcome node (node.step op) (node.InTime op) := by
  have onClaim : ∀ index (act : Claim → ChitchatNode), (node.claims[index]? = none → node.InTime op) →
      (∀ claim, node.claims[index]? = some claim → Outcome node (act claim) (node.InTime op)) →
      Outcome node (node.onClaim index act) (node.InTime op) := by
    intro index act unknown known
    rw [ChitchatNode.onClaim]
    cases found : node.claims[index]? with
    | none => exact .idle rfl rfl (unknown found)
    | some claim => exact known claim found
  cases op with
  | claim name lease => exact .made _ rfl rfl rfl rfl rfl trivial
  | publish index now => exact onClaim index _ (fun _ => trivial) fun claim => publish_outcome node index now claim sound
  | abandon index => exact onClaim index _ (fun _ => trivial) (abandon_outcome node index)
  | poll index =>
      exact onClaim index _ (fun unknown claim found => by rw [unknown] at found; cases found)
        (poll_outcome node index)
  | advance index tick now =>
      refine onClaim index _ (fun unknown claim found => by rw [unknown] at found; cases found) fun claim found => ?_
      by_cases polled : claim.polled = true
      · rw [if_pos polled]
        exact advance_outcome node index claim tick now found polled (sound.fits index claim found)
      · rw [if_neg polled]
        refine .idle rfl rfl fun one isOne given => ?_
        rw [found, Option.some.injEq] at isOne
        subst isOne
        exact absurd given polled
  | signal index => exact onClaim index _ (fun _ => trivial) (signal_outcome node index)
  | abort index => exact onClaim index _ (fun _ => trivial) (abort_outcome node index)
  | lock user =>
      rw [step]
      split <;> exact .idle rfl rfl trivial
  | unlock user => exact .idle rfl rfl trivial

theorem last_of_cons_self (writes : List LeaseWrite) (write : LeaseWrite) :
    lastOf (write :: writes) write.claim = some write := by
  simp [lastOf]

theorem last_of_cons_other (writes : List LeaseWrite) (write : LeaseWrite) (index : Nat) (other : index ≠ write.claim) :
    lastOf (write :: writes) index = lastOf writes index := by
  simp [lastOf, other.symm]

-- A step that rewrites one claim, with or without a write of its own.
theorem sound_set {node next : ChitchatNode} {index : Nat} {claim : Claim} (sound : node.Sound)
    (claims : next.claims = node.claims.set index claim) (writes : next.writes = node.writes)
    (fits : claim.Fits (lastOf node.writes index)) : next.Sound := by
  constructor
  · intro other one isOne
    rw [claims, List.getElem?_set] at isOne
    rw [writes]
    split at isOne
    · rename_i same
      subst same
      split at isOne
      · rw [Option.some.injEq] at isOne
        exact isOne ▸ fits
      · cases isOne
    · exact sound.fits other one isOne
  · intro write member
    rw [claims, List.length_set]
    exact sound.known write (writes ▸ member)

theorem sound_write {node next : ChitchatNode} {index : Nat} {old claim : Claim} {write : LeaseWrite}
    (sound : node.Sound) (found : node.claims[index]? = some old) (claims : next.claims = node.claims.set index claim)
    (writes : next.writes = write :: node.writes) (own : write.claim = index) (fits : claim.Fits (some write)) :
    next.Sound := by
  have bound : index < node.claims.length := (List.getElem?_eq_some_iff.mp found).1
  constructor
  · intro other one isOne
    rw [claims, List.getElem?_set] at isOne
    rw [writes]
    split at isOne
    · rename_i same
      rw [Option.some.injEq] at isOne
      rw [← same, ← own, last_of_cons_self, ← isOne]
      exact fits
    · rename_i differ
      rw [last_of_cons_other _ _ _ (fun h => differ (h.trans own).symm)]
      exact sound.fits other one isOne
  · intro one member
    rw [claims, List.length_set]
    rw [writes] at member
    rcases List.mem_cons.mp member with rfl | before
    · exact own ▸ bound
    · exact sound.known one before

theorem last_of_unknown {node : ChitchatNode} (sound : node.Sound) (index : Nat) (unknown : node.claims.length ≤ index) :
    lastOf node.writes index = none := by
  refine List.find?_eq_none.mpr fun write member => ?_
  have known := sound.known write member
  simp only [decide_eq_true_eq]
  omega

theorem step_sound (node : ChitchatNode) (op : LeaseOp) (sound : node.Sound) : (node.step op).Sound := by
  cases claim_outcome node op sound with
  | idle claims writes => exact ⟨claims ▸ writes ▸ sound.fits, claims ▸ writes ▸ sound.known⟩
  | made claim claims writes phase stopped aborted =>
      refine ⟨fun index one isOne => ?_, fun write member => ?_⟩
      · rw [claims, List.getElem?_append] at isOne
        rw [writes]
        split at isOne
        · exact sound.fits index one isOne
        · rename_i beyond
          have isNew : one = claim := by
            rw [List.getElem?_singleton] at isOne
            split at isOne
            · exact (Option.some.inj isOne).symm
            · cases isOne
          rw [last_of_unknown sound index (Nat.le_of_not_lt beyond), isNew, Claim.Fits, phase]
          exact ⟨rfl, aborted, stopped⟩
      · rw [claims, List.length_append]
        exact Nat.lt_add_right _ (sound.known write (writes ▸ member))
  | moved index old claim found claims writes aborted phase fits =>
      exact sound_set sound claims writes (fits _ (sound.fits index old found))
  | cancelled index old claim found claims writes running aborted same phase =>
      refine sound_set sound claims writes ?_
      have fits := sound.fits index old found
      rw [Claim.Fits] at fits
      rw [Claim.Fits, phase]
      cases was : old.phase with
      | selecting | renewing _ | releasing =>
          rw [was] at fits
          exact ⟨fits.1, same ▸ aborted⟩
      | claiming | abandoned | finished | cancelled => simp [Claim.running, was] at running
  | leased index old claim write found claims writes own lease aborted phase fits =>
      exact sound_write sound found claims writes own fits
  | deleted index old claim write found claims writes own lease aborted phase =>
      refine sound_write sound found claims writes own ?_
      rw [Claim.Fits, phase]
      exact ⟨write, rfl, lease⟩
  | aborted index old found claims writes stopped first =>
      refine sound_set sound claims writes ?_
      have fits := sound.fits index old found
      rw [Claim.Fits] at fits ⊢
      cases phase : old.phase with
      | selecting | renewing _ | releasing =>
          rw [phase] at fits
          exact ⟨fits.1, fun _ => stopped⟩
      | claiming | abandoned =>
          rw [phase] at fits
          rw [fits.2.2] at stopped
          cases stopped
      | finished =>
          rw [phase] at fits
          exact fits
      | cancelled =>
          rw [phase] at fits
          exact ⟨fits.1, rfl⟩

theorem same_claim {node next : ChitchatNode} {index : Nat} {old claim : Claim}
    (found : node.claims[index]? = some old) (same : next = node) (claims : next.claims = node.claims.set index claim) :
    claim = old := by
  have bound : index < node.claims.length := (List.getElem?_eq_some_iff.mp found).1
  have entry : next.claims[index]? = some claim := by rw [claims, List.getElem?_set_self bound]
  rw [same, found, Option.some.injEq] at entry
  exact entry.symm

-- Taking the lock, waiting for it and giving up on it all change something.
theorem with_lock_moves (node held : ChitchatNode) (index : Nat) (claim moved : Claim)
    (found : node.claims[index]? = some claim) (stays : node.suspend index claim ≠ node)
    (claims : held.claims = node.claims.set index moved) (differ : moved.phase ≠ claim.phase) :
    node.withLock index claim held ≠ node := by
  intro same
  rw [withLock] at same
  split at same
  · split at same
    · exact differ (congrArg Claim.phase (same_claim found same claims))
    · exact stays same
  · have longer := congrArg (fun node => node.queue.length) same
    simp [join] at longer

-- A dropped claim whose renewer lives can be stepped.
theorem busy_of_running (node : ChitchatNode) (index : Nat) (claim : Claim) (found : node.claims[index]? = some claim)
    (running : claim.running) (aborted : claim.aborted.isSome) : ¬node.Quiet index := by
  rintro ⟨pollSame, advanceSame⟩
  have alive : claim.phase ≠ .cancelled := fun cancelled => by simp [Claim.running, cancelled] at running
  have stays : node.cancel index claim ≠ node := by
    intro same
    have isClaim := same_claim found same rfl
    exact alive (isClaim ▸ rfl)
  cases polled : claim.polled with
  | false =>
      rw [step, onClaim, found] at pollSame
      simp only [poll, running, polled, aborted, Bool.not_false, Bool.and_self, if_true] at pollSame
      exact stays pollSame
  | true =>
      have same := advanceSame true 0
      rw [step, onClaim, found] at same
      simp only [polled, if_true, advance] at same
      have suspended : node.suspend index claim ≠ node := by
        rw [suspend, if_pos aborted]
        exact stays
      cases phase : claim.phase with
      | selecting =>
          simp only [phase] at same
          split at same
          · have isClaim := congrArg Claim.phase (same_claim found same rfl)
            simp [phase] at isClaim
          · have isClaim := congrArg Claim.phase (same_claim found same rfl)
            simp [phase] at isClaim
      | renewing expiresAtMs =>
          simp only [phase] at same
          exact with_lock_moves node _ index claim _ found suspended rfl (by simp [phase]) same
      | releasing =>
          simp only [phase] at same
          exact with_lock_moves node _ index claim _ found suspended rfl (by simp [phase]) same
      | claiming | abandoned | finished | cancelled => simp [Claim.running, phase] at running

-- The two halves of the property, read off the claims and the writes.
def Kept (node : ChitchatNode) : Prop :=
  (∀ (index : Nat) (claim : Claim), node.claims[index]? = some claim → claim.phase ≠ .cancelled) ∧ node.NeverDeleted

theorem kept_iff (node : ChitchatNode) (sound : node.Sound) : node.Kept ↔ node.DropReleases := by
  refine and_congr_left fun _ => ⟨fun alive index claim found aborted quiet => ?_, fun released index claim found => ?_⟩
  · have fits := sound.fits index claim found
    have notRunning : ¬claim.running := fun running => busy_of_running node index claim found running aborted quiet
    rw [Claim.Fits] at fits
    cases phase : claim.phase with
    | selecting | renewing _ | releasing => simp [Claim.running, phase] at notRunning
    | claiming | abandoned =>
        rw [phase] at fits
        rw [fits.2.1] at aborted
        cases aborted
    | finished =>
        rw [phase] at fits
        exact fits
    | cancelled => exact absurd phase (alive index claim found)
  · intro cancelled
    have fits := sound.fits index claim found
    rw [Claim.Fits, cancelled] at fits
    have quiet : node.Quiet index := by
      refine ⟨?_, fun tick now => ?_⟩
      · simp [step, onClaim, found, poll, Claim.running, cancelled]
      · simp [step, onClaim, found, advance, cancelled]
    obtain ⟨last, isLast, tombstone⟩ := released index claim found fits.2 quiet
    obtain ⟨write, isWrite, lease⟩ := fits.1
    rw [isLast, Option.some.injEq] at isWrite
    exact lease (isWrite ▸ tombstone)

theorem aborted_at_set (claims : List Claim) (index : Nat) (old claim : Claim) (found : claims[index]? = some old)
    (same : claim.aborted = old.aborted) : abortedAt (claims.set index claim) = abortedAt claims := by
  funext other
  rw [abortedAt, abortedAt, List.getElem?_set]
  by_cases isIndex : index = other
  · subst isIndex
    have bound : index < claims.length := (List.getElem?_eq_some_iff.mp found).1
    rw [if_pos rfl, if_pos bound, found]
    exact same
  · rw [if_neg isIndex]

theorem alive_set (node next : ChitchatNode) (index : Nat) (old claim : Claim) (kept : node.Kept)
    (found : node.claims[index]? = some old) (claims : next.claims = node.claims.set index claim) :
    (∀ (other : Nat) (one : Claim), next.claims[other]? = some one → one.phase ≠ .cancelled) ↔ claim.phase ≠ .cancelled := by
  have bound : index < node.claims.length := (List.getElem?_eq_some_iff.mp found).1
  constructor
  · intro alive
    exact alive index claim (by rw [claims, List.getElem?_set_self bound])
  · intro alive other one isOne
    rw [claims, List.getElem?_set] at isOne
    split at isOne
    · rw [Option.some.injEq] at isOne
      exact isOne ▸ alive
    · exact kept.1 other one isOne

theorem spared_mono {aborted after : Nat → Option Nat} (writes : List LeaseWrite)
    (fewer : ∀ older write, (write :: older) <:+ writes → write.lease = none → Clear aborted older write →
      Clear after older write) (spared : Spared aborted writes) : Spared after writes := by
  induction writes with
  | nil => trivial
  | cons write older ih =>
      refine ⟨fun tombstone => fewer older write (List.suffix_refl _) tombstone (spared.1 tombstone), ih ?_ spared.2⟩
      intro before one suffix
      exact fewer before one (suffix.trans (List.suffix_cons write older))

theorem of_last (writes : List LeaseWrite) (index : Nat) (last : LeaseWrite) (isLast : lastOf writes index = some last) :
    last ∈ writes ∧ last.claim = index := by
  refine ⟨List.mem_of_find?_eq_some isLast, ?_⟩
  simpa using List.find?_some isLast

-- A claim that is dropped now has no later claim yet.
theorem spared_abort (node : ChitchatNode) (index : Nat) (old : Claim) (sound : node.Sound) (spared : node.NeverDeleted) :
    Spared (abortedAt (node.claims.set index { old with aborted := some node.claims.length })) node.writes := by
  refine spared_mono node.writes (fun older write suffix _ clear later last after isLast sameKey => ?_) spared
  obtain ⟨made, isMade, bound⟩ := after
  rw [abortedAt, List.getElem?_set] at isMade
  split at isMade
  · exfalso
    have isLength : node.claims.length = made := by
      split at isMade
      · exact Option.some.inj isMade
      · cases isMade
    obtain ⟨member, isLater⟩ := of_last older later last isLast
    have known := sound.known last (suffix.subset (List.mem_cons_of_mem _ member))
    omega
  · exact clear later last ⟨made, isMade, bound⟩ isLast sameKey

theorem step_kept (node : ChitchatNode) (op : LeaseOp) (sound : node.Sound) (kept : node.Kept) :
    (node.step op).Kept ↔ node.InTime op := by
  have never : ∀ {next : ChitchatNode} {index : Nat} {old claim : Claim}, node.claims[index]? = some old →
      next.claims = node.claims.set index claim → claim.aborted = old.aborted →
      next.NeverDeleted = Spared (abortedAt node.claims) next.writes := by
    intro next index old claim found claims same
    rw [NeverDeleted, claims, aborted_at_set _ _ _ _ found same]
  cases claim_outcome node op sound with
  | idle claims writes allowed =>
      refine iff_of_true ?_ allowed
      rw [Kept, NeverDeleted, claims, writes]
      exact kept
  | made claim claims writes phase stopped aborted allowed =>
      refine iff_of_true ⟨fun index one isOne => ?_, ?_⟩ allowed
      · rw [claims] at isOne
        rcases List.mem_append.mp (List.mem_of_getElem? isOne) with before | isNew
        · obtain ⟨place, found⟩ := List.mem_iff_getElem?.mp before
          exact kept.1 place one found
        · rw [List.mem_singleton] at isNew
          simp [isNew, phase]
      · have same : abortedAt (node.claims ++ [claim]) = abortedAt node.claims := by
          funext index
          rw [abortedAt, abortedAt, List.getElem?_append]
          split
          · rfl
          · rename_i beyond
            rw [List.getElem?_eq_none (Nat.le_of_not_lt beyond), List.getElem?_singleton]
            split
            · exact aborted
            · rfl
        rw [NeverDeleted, claims, writes, same]
        exact kept.2
  | moved index old claim found claims writes aborted phase fits allowed =>
      refine iff_of_true ⟨(alive_set node _ index old claim kept found claims).mpr ?_, ?_⟩ allowed
      · exact fun cancelled => kept.1 index old found (phase cancelled)
      · rw [never found claims aborted, writes]
        exact kept.2
  | cancelled index old claim found claims writes running aborted same phase late =>
      refine iff_of_false (fun after => ?_) late
      exact (alive_set node _ index old claim kept found claims).mp after.1 phase
  | leased index old claim write found claims writes own lease aborted phase fits allowed =>
      refine iff_of_true ⟨(alive_set node _ index old claim kept found claims).mpr (by simp [phase]), ?_⟩ allowed
      rw [never found claims aborted, writes]
      exact ⟨fun tombstone => absurd tombstone lease, kept.2⟩
  | deleted index old claim write found claims writes own lease aborted phase allowed =>
      rw [allowed, Kept, alive_set node _ index old claim kept found claims, never found claims aborted, writes]
      constructor
      · exact fun after => after.2.1 lease
      · exact fun clear => ⟨by simp [phase], fun _ => clear, kept.2⟩
  | aborted index old found claims writes stopped first allowed =>
      refine iff_of_true ⟨(alive_set node _ index old _ kept found claims).mpr (kept.1 index old found), ?_⟩ allowed
      rw [NeverDeleted, claims, writes]
      exact spared_abort node index old sound kept.2

theorem claim_released_iff (owner : String) (ops : List LeaseOp) :
    (∀ seen, seen <+: ops → (Machine.run step (new owner) seen).DropReleases) ↔
      Machine.AllSteps InTime step (new owner) ops := by
  have start : (new owner).Sound := ⟨fun _ _ found => (by cases found), fun _ member => (by cases member)⟩
  refine Machine.invariant_iff_guarded_under step_sound (fun node op sound both => ?_) (new owner) ops start ?_
  · rw [← kept_iff _ (step_sound node op sound)]
    exact step_kept node op sound ((kept_iff node sound).mpr both)
  · exact ⟨fun _ _ found => (by cases found), trivial⟩

-- A claim is made, dropped, and its renewer scheduled only then.
def droppedAtOnce : List LeaseOp :=
  [.claim "live/camera" 10000, .publish 0 1000, .signal 0, .abort 0, .poll 0]

-- The renewer is at the ticker when the claim is dropped. Before it is at the lock
-- the node has claimed the name again.
def claimedAgain : List LeaseOp :=
  [.claim "live/camera" 10000, .publish 0 1000, .poll 0, .signal 0, .advance 0 false 2000, .abort 0,
    .claim "live/camera" 10000, .publish 1 2000, .advance 0 false 2000, .advance 0 false 2000]

theorem dropped_claim_keeps_lease :
    ¬(∀ owner ops seen, seen <+: ops → (Machine.run step (new owner) seen).Released) ∧
      ¬∀ owner ops seen, seen <+: ops → (Machine.run step (new owner) seen).NeverDeleted := by
  refine ⟨fun always => ?_, fun always => ?_⟩
  · have released := always "node-a" droppedAtOnce droppedAtOnce (List.prefix_refl _)
    obtain ⟨last, isLast, tombstone⟩ := released 0 _ rfl rfl ⟨rfl, fun _ _ => rfl⟩
    have written : lastOf (Machine.run step (new "node-a") droppedAtOnce).writes 0 =
        some ⟨0, "broadcast.live/camera", some ⟨"node-a", 11000⟩⟩ := rfl
    rw [written, Option.some.injEq] at isLast
    rw [← isLast] at tombstone
    cases tombstone
  · have never := always "node-a" claimedAgain claimedAgain (List.prefix_refl _)
    have lease := never.1 rfl 1 ⟨1, "broadcast.live/camera", some ⟨"node-a", 12000⟩⟩ ⟨1, rfl, Nat.le_refl 1⟩ rfl rfl
    cases lease

end ChitchatNode

end Lvqr.Cluster
