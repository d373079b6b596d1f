import Lvqr.Bytes
import Lvqr.Lib.Machine
import Lvqr.Lib.Utf8

set_option autoImplicit false

-- The main loop of one connection, its bounded writer channel and the PLAY
-- drains. Only the main loop takes messages out of the channel, and it also puts
-- its responses in.
namespace Lvqr.Rtsp

def WRITER_CAPACITY : Nat := 256

-- What `read_buf` holds after a read: complete messages in order. `drains` are
-- the tasks the request's handler spawns (PLAY).
inductive Inbound where
  | request (response : Bytes) (drains : Nat)
  | interleaved
  | malformed (response : Bytes)
deriving DecidableEq, Repr

inductive MainLoop where
  | selecting
  | writing (message : Bytes)
  | processing (inbound : List Inbound)
  | sending (response : Bytes) (rest : List Inbound)
  | stopped
deriving DecidableEq, Repr

-- What went into the channel since the last read, and what was in it then.
structure Batch where
  backlog : Nat
  responses : Nat
  frames : Nat
deriving DecidableEq, Repr

def Batch.total (batch : Batch) : Nat := batch.backlog + batch.responses + batch.frames

-- A drain is the list of frames it has still to send; `waiters` are the drains
-- whose send waits for a slot, in turn. `batch` is ghost state.
structure Connection where
  mainLoop : MainLoop
  queued : List Bytes
  waiters : List Nat
  drains : List (List Bytes)
  batch : Batch
deriving DecidableEq, Repr

inductive ConnectionOp where
  | read (inbound : List Inbound)
  | handle
  | send
  | recv
  | written
  | writeFailed
  | cancelled
  | media (drain : Nat) (frames : List Bytes)
  | drainSend (drain : Nat)
deriving DecidableEq, Repr

namespace Connection

def new : Connection := ⟨.selecting, [], [], [], ⟨0, 0, 0⟩⟩

-- The slot a `recv` frees goes to the drain that waits longest.
def handOver (conn : Connection) : Connection :=
  match conn.waiters with
  | [] => conn
  | drain :: waiters =>
      match conn.drains[drain]? with
      | some (frame :: frames) =>
          { conn with
            queued := conn.queued ++ [frame]
            waiters := waiters
            drains := conn.drains.set drain frames }
      | _ => { conn with waiters := waiters }

def drainSend (conn : Connection) (drain : Nat) : Connection :=
  match conn.drains[drain]? with
  | some (frame :: frames) =>
      if drain ∈ conn.waiters then conn
      else
        let conn := { conn with batch := { conn.batch with frames := conn.batch.frames + 1 } }
        if conn.queued.length < WRITER_CAPACITY then
          { conn with queued := conn.queued ++ [frame], drains := conn.drains.set drain frames }
        else { conn with waiters := conn.waiters ++ [drain] }
  | _ => conn

-- An operation that is not possible in the state leaves it as it is.
def step (conn : Connection) : ConnectionOp → Connection
  | .read inbound =>
      match conn.mainLoop with
      | .selecting => { conn with mainLoop := .processing inbound, batch := ⟨conn.queued.length, 0, 0⟩ }
      | _ => conn
  | .handle =>
      match conn.mainLoop with
      | .processing (.interleaved :: rest) => { conn with mainLoop := .processing rest }
      | .processing (.request response drains :: rest) =>
          { conn with mainLoop := .sending response rest, drains := conn.drains ++ List.replicate drains [] }
      | .processing (.malformed response :: _) => { conn with mainLoop := .sending response [] }
      | .processing [] => { conn with mainLoop := .selecting }
      | _ => conn
  | .send =>
      match conn.mainLoop with
      | .sending response rest =>
          if conn.queued.length < WRITER_CAPACITY then
            { conn with
              mainLoop := .processing rest
              queued := conn.queued ++ [response]
              batch := { conn.batch with responses := conn.batch.responses + 1 } }
          else conn
      | _ => conn
  | .recv =>
      match conn.mainLoop, conn.queued with
      | .selecting, message :: queued => { conn with mainLoop := .writing message, queued := queued }.handOver
      | _, _ => conn
  | .written =>
      match conn.mainLoop with
      | .writing _ => { conn with mainLoop := .selecting }
      | _ => conn
  | .writeFailed =>
      match conn.mainLoop with
      | .writing _ => { conn with mainLoop := .stopped }
      | _ => conn
  | .cancelled =>
      match conn.mainLoop with
      | .selecting => { conn with mainLoop := .stopped }
      | _ => conn
  | .media drain frames => { conn with drains := conn.drains.modify drain (· ++ frames) }
  | .drainSend drain => conn.drainSend drain

def SendsResponse (conn : Connection) : Prop :=
  match conn.mainLoop with
  | .sending _ _ => True
  | _ => False

-- The main loop waits for a slot that only the main loop can free.
def SelfBlocked (conn : Connection) : Prop := conn.SendsResponse ∧ WRITER_CAPACITY ≤ conn.queued.length

instance (conn : Connection) : Decidable conn.SendsResponse := by
  unfold SendsResponse
  split <;> infer_instance

instance (conn : Connection) : Decidable conn.SelfBlocked := inferInstanceAs (Decidable (_ ∧ _))

def AboutToRespond (conn : Connection) : Prop :=
  match conn.mainLoop with
  | .processing (.request _ _ :: _) | .processing (.malformed _ :: _) => True
  | _ => False

def Offers (conn : Connection) (drain : Nat) : Prop :=
  match conn.drains[drain]? with
  | some (_ :: _) => drain ∉ conn.waiters
  | _ => False

-- A read may bring a response, and a drain may send a frame before it, as long as
-- both fit beside what went into the channel since the read and was there then.
def WithinBatch (conn : Connection) : ConnectionOp → Prop
  | .handle => conn.AboutToRespond → conn.batch.total < WRITER_CAPACITY
  | .drainSend drain => conn.SendsResponse → conn.Offers drain → conn.batch.total + 1 < WRITER_CAPACITY
  | _ => True

def InBatch (conn : Connection) : Prop :=
  match conn.mainLoop with
  | .processing _ | .sending _ _ => True
  | _ => False

structure Accounted (conn : Connection) : Prop where
  bounded : conn.queued.length ≤ WRITER_CAPACITY
  batched : conn.InBatch → conn.queued.length = min WRITER_CAPACITY conn.batch.total

theorem hand_over_keeps (conn : Connection) :
    conn.handOver.mainLoop = conn.mainLoop ∧ conn.handOver.queued.length ≤ conn.queued.length + 1 := by
  unfold handOver
  split
  · exact ⟨rfl, Nat.le_succ _⟩
  · split
    · exact ⟨rfl, by simp⟩
    · exact ⟨rfl, Nat.le_succ _⟩

-- An offered frame counts whether it finds a slot or not.
theorem drain_send_cases (conn : Connection) (drain : Nat) :
    (conn.drainSend drain).mainLoop = conn.mainLoop ∧
      (¬ conn.Offers drain ∧ conn.drainSend drain = conn ∨
        conn.Offers drain ∧ (conn.drainSend drain).batch.total = conn.batch.total + 1 ∧
          (conn.drainSend drain).queued.length =
            if conn.queued.length < WRITER_CAPACITY then conn.queued.length + 1 else conn.queued.length) := by
  unfold Offers drainSend
  split
  · by_cases waiting : drain ∈ conn.waiters
    · rw [if_pos waiting]
      exact ⟨rfl, .inl ⟨not_not_intro waiting, rfl⟩⟩
    · rw [if_neg waiting]
      dsimp only
      split
      · exact ⟨rfl, .inr ⟨waiting, by simp [Batch.total]; omega, List.length_append⟩⟩
      · exact ⟨rfl, .inr ⟨waiting, by simp [Batch.total]; omega, rfl⟩⟩
  · exact ⟨rfl, .inl ⟨id, rfl⟩⟩

theorem drain_send_in_batch (conn : Connection) (drain : Nat) : (conn.drainSend drain).InBatch ↔ conn.InBatch := by
  rw [InBatch, InBatch, (drain_send_cases conn drain).1]

theorem drain_send_accounted (conn : Connection) (drain : Nat) (accounted : conn.Accounted) :
    (conn.drainSend drain).Accounted := by
  rcases (drain_send_cases conn drain).2 with ⟨_, same⟩ | ⟨_, total, length⟩
  · rwa [same]
  · have bounded := accounted.bounded
    refine ⟨?_, ?_⟩
    · rw [length]
      split <;> omega
    · rw [drain_send_in_batch, total, length]
      intro inBatch
      have before := accounted.batched inBatch
      split <;> omega

theorem step_accounted (conn : Connection) (op : ConnectionOp) (accounted : conn.Accounted) :
    (conn.step op).Accounted := by
  have bounded := accounted.bounded
  cases op with
  | read inbound =>
      simp only [step]
      split
      · exact ⟨bounded, fun _ => (Nat.min_eq_right bounded).symm⟩
      · exact accounted
  | handle =>
      simp only [step]
      split
      · rename_i here
        exact ⟨bounded, fun _ => accounted.batched (by simp [InBatch, here])⟩
      · rename_i here
        exact ⟨bounded, fun _ => accounted.batched (by simp [InBatch, here])⟩
      · rename_i here
        exact ⟨bounded, fun _ => accounted.batched (by simp [InBatch, here])⟩
      · exact ⟨bounded, fun inBatch => absurd inBatch id⟩
      · exact accounted
  | send =>
      simp only [step]
      split
      · rename_i here
        have before := accounted.batched (by simp [InBatch, here])
        split
        · refine ⟨by simpa using by omega, fun _ => ?_⟩
          simp only [List.length_append, List.length_singleton, Batch.total] at before ⊢
          omega
        · exact accounted
      · exact accounted
  | recv =>
      simp only [step]
      split
      · rename_i message queued here full
        refine ⟨?_, ?_⟩
        · have length := (hand_over_keeps { conn with mainLoop := .writing message, queued := queued }).2
          simp only [full, List.length_cons] at bounded
          exact Nat.le_trans length bounded
        · rw [InBatch, (hand_over_keeps _).1]
          intro inBatch
          exact absurd inBatch id
      · exact accounted
  | written =>
      simp only [step]
      split
      · exact ⟨bounded, fun inBatch => absurd inBatch id⟩
      · exact accounted
  | writeFailed =>
      simp only [step]
      split
      · exact ⟨bounded, fun inBatch => absurd inBatch id⟩
      · exact accounted
  | cancelled =>
      simp only [step]
      split
      · exact ⟨bounded, fun inBatch => absurd inBatch id⟩
      · exact accounted
  | media drain frames => exact ⟨bounded, accounted.batched⟩
  | drainSend drain => exact drain_send_accounted conn drain accounted

-- A batch has filled the channel when what it counts reaches the capacity.
theorem full_iff (conn : Connection) (accounted : conn.Accounted) (inBatch : conn.InBatch) :
    WRITER_CAPACITY ≤ conn.queued.length ↔ WRITER_CAPACITY ≤ conn.batch.total := by
  rw [accounted.batched inBatch]
  omega

theorem sends_response_iff (conn : Connection) :
    conn.SendsResponse ↔ ∃ response rest, conn.mainLoop = .sending response rest := by
  unfold SendsResponse
  split
  · rename_i response rest here
    exact ⟨fun _ => ⟨response, rest, here⟩, fun _ => trivial⟩
  · rename_i other
    exact ⟨fun impossible => absurd impossible id, fun ⟨response, rest, here⟩ => other response rest here⟩

theorem idle_free (conn : Connection) (idle : ¬ conn.SendsResponse) : ¬ conn.SelfBlocked :=
  fun blocked => idle blocked.1

theorem handle_free_iff (conn : Connection) (accounted : conn.Accounted) (free : ¬ conn.SelfBlocked) :
    ¬ (conn.step .handle).SelfBlocked ↔ conn.WithinBatch .handle := by
  have silent (notAbout : ¬ conn.AboutToRespond) (idle : ¬ (conn.step .handle).SelfBlocked) :
      ¬ (conn.step .handle).SelfBlocked ↔ conn.WithinBatch .handle :=
    ⟨fun _ responding => absurd responding notAbout, fun _ => idle⟩
  cases here : conn.mainLoop with
  | processing inbound =>
      have full := full_iff conn accounted (by simp [InBatch, here])
      match inbound with
      | [] => exact silent (by simp [AboutToRespond, here]) (idle_free _ (by simp [step, here, SendsResponse]))
      | .interleaved :: rest =>
          exact silent (by simp [AboutToRespond, here]) (idle_free _ (by simp [step, here, SendsResponse]))
      | .request response drains :: rest =>
          simp only [step, here, SelfBlocked, SendsResponse, WithinBatch, AboutToRespond, true_and, true_imp_iff, full,
            Nat.not_le]
      | .malformed response :: rest =>
          simp only [step, here, SelfBlocked, SendsResponse, WithinBatch, AboutToRespond, true_and, true_imp_iff, full,
            Nat.not_le]
  | selecting => exact silent (by simp [AboutToRespond, here]) (by simpa [step, here] using free)
  | writing message => exact silent (by simp [AboutToRespond, here]) (by simpa [step, here] using free)
  | sending response rest => exact silent (by simp [AboutToRespond, here]) (by simpa [step, here] using free)
  | stopped => exact silent (by simp [AboutToRespond, here]) (by simpa [step, here] using free)

theorem drain_send_free_iff (conn : Connection) (drain : Nat) (accounted : conn.Accounted)
    (free : ¬ conn.SelfBlocked) :
    ¬ (conn.step (.drainSend drain)).SelfBlocked ↔ conn.WithinBatch (.drainSend drain) := by
  have sends : (conn.drainSend drain).SendsResponse ↔ conn.SendsResponse := by
    rw [SendsResponse, SendsResponse, (drain_send_cases conn drain).1]
  rcases (drain_send_cases conn drain).2 with ⟨idle, same⟩ | ⟨offers, _, length⟩
  · refine ⟨fun _ _ offered => absurd offered idle, fun _ => ?_⟩
    rw [step, same]
    exact free
  · by_cases sending : conn.SendsResponse
    · have inBatch : conn.InBatch := by
        obtain ⟨response, rest, here⟩ := conn.sends_response_iff.mp sending
        simp [InBatch, here]
      have room : ¬ WRITER_CAPACITY ≤ conn.queued.length := fun full => free ⟨sending, full⟩
      have counted := accounted.batched inBatch
      rw [if_pos (Nat.not_le.mp room)] at length
      simp only [step, SelfBlocked, sends, sending, true_and, WithinBatch, true_imp_iff, offers, length]
      omega
    · exact ⟨fun _ responding => absurd responding sending, fun _ => idle_free _ (mt sends.mp sending)⟩

theorem step_free_iff (conn : Connection) (op : ConnectionOp) (accounted : conn.Accounted)
    (free : ¬ conn.SelfBlocked) : ¬ (conn.step op).SelfBlocked ↔ conn.WithinBatch op := by
  have stays (idle : ¬ (conn.step op).SelfBlocked) (unguarded : conn.WithinBatch op) :
      ¬ (conn.step op).SelfBlocked ↔ conn.WithinBatch op := ⟨fun _ => unguarded, fun _ => idle⟩
  cases op with
  | handle => exact handle_free_iff conn accounted free
  | drainSend drain => exact drain_send_free_iff conn drain accounted free
  | media drain frames => exact stays free trivial
  | read inbound =>
      refine stays ?_ trivial
      simp only [step]
      split
      · exact idle_free _ id
      · exact free
  | send =>
      refine stays ?_ trivial
      simp only [step]
      split
      · split
        · exact idle_free _ id
        · exact free
      · exact free
  | recv =>
      refine stays ?_ trivial
      simp only [step]
      split
      · refine idle_free _ ?_
        rw [SendsResponse, (hand_over_keeps _).1]
        exact id
      · exact free
  | written =>
      refine stays ?_ trivial
      simp only [step]
      split
      · exact idle_free _ id
      · exact free
  | writeFailed =>
      refine stays ?_ trivial
      simp only [step]
      split
      · exact idle_free _ id
      · exact free
  | cancelled =>
      refine stays ?_ trivial
      simp only [step]
      split
      · exact idle_free _ id
      · exact free

theorem new_accounted : new.Accounted := ⟨Nat.zero_le _, fun inBatch => absurd inBatch id⟩

end Connection

open Connection

-- The main loop never waits for itself in exactly the runs in which every response
-- fits in the channel with what its batch put there before it.
theorem main_loop_never_self_blocked_iff (ops : List ConnectionOp) :
    (∀ seen, seen <+: ops → ¬ (Machine.run step new seen).SelfBlocked) ↔ Machine.AllSteps WithinBatch step new ops :=
  Machine.invariant_iff_guarded_under step_accounted step_free_iff new ops new_accounted (idle_free new id)

def optionsResponse : Bytes := Utf8.encode "RTSP/1.0 200 OK\r\nCSeq: 0\r\n\r\n".toList

def pipelined (count : Nat) : List ConnectionOp :=
  .read (List.replicate count (.request optionsResponse 0)) :: (List.replicate count [.handle, .send]).flatten

-- One read of 257 pipelined requests: the last response finds 256 in the channel.
theorem pipelined_requests_block_main_loop :
    ¬ ∀ (ops : List ConnectionOp), ¬ (Machine.run step new ops).SelfBlocked := by
  intro free
  refine free (pipelined 257) ?_
  decide +kernel

end Lvqr.Rtsp
