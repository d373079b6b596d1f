import Lvqr.Lib.Machine
import Lvqr.Rtsp.Wire

set_option autoImplicit false

-- The read branch of a connection: text requests and binary frames share one
-- buffer that grows with every read.
namespace Lvqr.Rtsp

inductive Handled where
  | request (request : Request)
  | frame (frame : InterleavedFrame)
  | badRequest
deriving DecidableEq, Repr

inductive NextMessage where
  | message (handled : Handled) (consumed : Nat)
  | incomplete
  | failed (error : ParseError)
deriving DecidableEq, Repr

def nextMessage (buf : Bytes) : NextMessage :=
  match buf with
  | [] => .incomplete
  | byte :: _ =>
      if byte = DOLLAR then
        match parseInterleavedFrame buf with
        | some (frame, consumed) => .message (.frame frame) consumed
        | none => .incomplete
      else
        match parseRequest buf with
        | .ok (request, consumed) => .message (.request request) consumed
        | .error .incomplete => .incomplete
        | .error error => .failed error

theorem next_request (byte : UInt8) (rest : Bytes) (notDollar : byte ≠ DOLLAR) :
    nextMessage (byte :: rest) =
      match parseRequest (byte :: rest) with
      | .ok (request, consumed) => .message (.request request) consumed
      | .error .incomplete => .incomplete
      | .error error => .failed error := if_neg notDollar

theorem next_frame (rest : Bytes) :
    nextMessage (DOLLAR :: rest) =
      match parseInterleavedFrame (DOLLAR :: rest) with
      | some (frame, consumed) => .message (.frame frame) consumed
      | none => .incomplete := rfl

-- A parse error answers 400 and throws the buffer away. Every message takes at
-- least a byte, so the buffer's length is fuel enough.
def processLoop : Nat → Bytes → List Handled × Bytes
  | 0, buf => ([], buf)
  | fuel + 1, buf =>
      match nextMessage buf with
      | .incomplete => ([], buf)
      | .failed _ => ([.badRequest], [])
      | .message handled consumed =>
          let (later, left) := processLoop fuel (buf.drop consumed)
          (handled :: later, left)

theorem process_loop_succ (fuel : Nat) (buf : Bytes) :
    processLoop (fuel + 1) buf =
      match nextMessage buf with
      | .incomplete => ([], buf)
      | .failed _ => ([.badRequest], [])
      | .message handled consumed =>
          (handled :: (processLoop fuel (buf.drop consumed)).1, (processLoop fuel (buf.drop consumed)).2) := rfl

def processBuffer (buf : Bytes) : List Handled × Bytes := processLoop buf.length buf

structure ReadLoop where
  readBuf : Bytes
  handled : List Handled
deriving DecidableEq, Repr

def ReadLoop.new : ReadLoop := ⟨[], []⟩

def ReadLoop.read (conn : ReadLoop) (chunk : Bytes) : ReadLoop :=
  let (handled, left) := processBuffer (conn.readBuf ++ chunk)
  ⟨left, conn.handled ++ handled⟩

-- What a client sends: requests and frames that are messages of their own.
inductive Message where
  | request (request : Request) (wellFormed : request.WellFormed)
  | frame (frame : WireFrame)

namespace Message

def wire : Message → Bytes
  | .request sent _ => sent.wire
  | .frame sent => sent.wire

def handled : Message → Handled
  | .request sent _ => .request sent
  | .frame sent => .frame sent.frame

def IsRequest : Message → Prop
  | .request _ _ => True
  | .frame _ => False

def wireAll (messages : List Message) : Bytes := messages.flatMap wire

def startOf (messages : List Message) (index : Nat) : Nat := (wireAll (messages.take index)).length

theorem wire_ne_nil (message : Message) : message.wire ≠ [] := by
  cases message with
  | request request wellFormed =>
      obtain ⟨byte, rest, isWire, _⟩ := request.wire_first
      rw [wire, isWire]
      exact List.cons_ne_nil byte rest
  | frame frame => exact List.cons_ne_nil _ _

theorem next_whole (message : Message) (more : Bytes)
    (text : message.IsRequest → Utf8.decode (message.wire ++ more) ≠ none) :
    nextMessage (message.wire ++ more) = .message message.handled message.wire.length := by
  cases message with
  | request request wellFormed =>
      obtain ⟨byte, rest, isWire, notDollar⟩ := request.wire_first
      obtain ⟨chars, decodes⟩ := Option.ne_none_iff_exists'.mp (text trivial)
      have parsed := request.parse_request_whole wellFormed more chars decodes
      show nextMessage (request.wire ++ more) = .message (.request request) request.wire.length
      rw [isWire, List.cons_append] at parsed ⊢
      rw [next_request byte _ notDollar, parsed]
  | frame frame =>
      have parsed := frame.parse_interleaved_whole more
      show nextMessage (frame.wire ++ more) = .message (.frame frame.frame) frame.wire.length
      obtain ⟨rest, isWire⟩ : ∃ rest, frame.wire = DOLLAR :: rest := ⟨_, rfl⟩
      rw [isWire, List.cons_append] at parsed ⊢
      rw [next_frame, parsed]

theorem next_part (message : Message) (part more : Bytes) (whole : part ++ more = message.wire) (missing : more ≠ [])
    (text : message.IsRequest → part ≠ [] → Utf8.decode part ≠ none) : nextMessage part = .incomplete := by
  rcases part with - | ⟨first, rest⟩
  · rfl
  · cases message with
    | request request wellFormed =>
        obtain ⟨byte, tail, isWire, notDollar⟩ := request.wire_first
        have sameFirst : first = byte := (List.cons.inj ((List.cons_append).symm.trans (whole.trans isWire))).1
        obtain ⟨chars, decodes⟩ := Option.ne_none_iff_exists'.mp (text trivial (List.cons_ne_nil first rest))
        have parsed := request.parse_request_part wellFormed _ more chars whole missing decodes
        rw [next_request first rest (sameFirst ▸ notDollar), parsed]
    | frame frame =>
        have sameFirst : first = DOLLAR := (List.cons.inj ((List.cons_append).symm.trans whole)).1
        have parsed := frame.parse_interleaved_part _ more whole missing
        rw [sameFirst] at parsed ⊢
        rw [next_frame, parsed]

-- A request that is not followed by text only is refused.
theorem next_garbled (message : Message) (buf more : Bytes) (isRequest : message.IsRequest)
    (starts : ∃ rest, buf ++ more = message.wire ++ rest) (nonempty : buf ≠ []) (garbled : Utf8.decode buf = none) :
    nextMessage buf = .failed .invalidRequestLine := by
  cases message with
  | frame frame => exact absurd isRequest id
  | request request wellFormed =>
      obtain ⟨byte, tail, isWire, notDollar⟩ := request.wire_first
      obtain ⟨rest, starts⟩ := starts
      obtain ⟨first, front, rfl⟩ := List.exists_cons_of_ne_nil nonempty
      rw [wire, isWire] at starts
      have sameFirst : first = byte := (List.cons.inj starts).1
      rw [next_request first front (sameFirst ▸ notDollar), Request.parse_request_undecodable _ garbled]

@[simp] theorem wire_all_cons (message : Message) (rest : List Message) :
    wireAll (message :: rest) = message.wire ++ wireAll rest := rfl

@[simp] theorem start_of_zero (messages : List Message) : startOf messages 0 = 0 := rfl

@[simp] theorem start_of_succ (message : Message) (rest : List Message) (index : Nat) :
    startOf (message :: rest) (index + 1) = message.wire.length + startOf rest index := by
  simp [startOf]

theorem drop_start_of_succ (message : Message) (rest : List Message) (index : Nat) (buf : Bytes) :
    (message.wire ++ buf).drop (startOf (message :: rest) (index + 1)) = buf.drop (startOf rest index) := by
  rw [start_of_succ, ← List.drop_drop, List.drop_left]

-- Every request that begins in the buffer has text only behind it.
def BufferLegible (messages : List Message) (buf : Bytes) : Prop :=
  ∀ index message, messages[index]? = some message → message.IsRequest → startOf messages index < buf.length →
    Utf8.decode (buf.drop (startOf messages index)) ≠ none

-- A read that takes the stream from `seen` to `arrived` finds text from the start of
-- the request on, if it ends within the request or is the first to end behind it.
def ReadsText (messages : List Message) (index : Nat) (seen arrived : Bytes) : Prop :=
  seen.length < startOf messages (index + 1) → startOf messages index < arrived.length →
    Utf8.decode (arrived.drop (startOf messages index)) ≠ none

def Legible (messages : List Message) (seen : Bytes) (chunks : List Bytes) : Prop :=
  ∀ index message, messages[index]? = some message → message.IsRequest → ∀ count < chunks.length,
    ReadsText messages index (seen ++ (chunks.take count).flatten) (seen ++ (chunks.take (count + 1)).flatten)

theorem reads_text_whole (message : Message) (rest : List Message) (index : Nat) (seen arrived : Bytes) :
    ReadsText (message :: rest) (index + 1) (message.wire ++ seen) (message.wire ++ arrived) ↔
      ReadsText rest index seen arrived := by
  simp only [ReadsText, drop_start_of_succ]
  simp only [start_of_succ, List.length_append, Nat.add_lt_add_iff_left]

theorem buffer_legible_whole (message : Message) (rest : List Message) (buf : Bytes) :
    BufferLegible (message :: rest) (message.wire ++ buf) ↔
      (message.IsRequest → Utf8.decode (message.wire ++ buf) ≠ none) ∧ BufferLegible rest buf := by
  have positive := List.length_pos_iff.mpr message.wire_ne_nil
  constructor
  · intro legible
    refine ⟨fun isRequest => ?_, fun index other found isRequest begins => ?_⟩
    · simpa using legible 0 message rfl isRequest (by simp; omega)
    · rw [← drop_start_of_succ message rest]
      exact legible (index + 1) other found isRequest (by simpa using begins)
  · intro ⟨first, later⟩ index other found isRequest begins
    cases index with
    | zero =>
        obtain rfl := Option.some.inj found
        simpa using first isRequest
    | succ index =>
        rw [drop_start_of_succ message rest]
        exact later index other found isRequest (by simpa using begins)

theorem buffer_legible_part (message : Message) (rest : List Message) (buf : Bytes)
    (short : buf.length < message.wire.length) :
    BufferLegible (message :: rest) buf ↔ (message.IsRequest → buf ≠ [] → Utf8.decode buf ≠ none) := by
  constructor
  · intro legible isRequest nonempty
    simpa using legible 0 message rfl isRequest (by simpa using List.length_pos_iff.mpr nonempty)
  · intro first index other found isRequest begins
    cases index with
    | zero =>
        obtain rfl := Option.some.inj found
        simpa using first isRequest (List.length_pos_iff.mp (by simpa using begins))
    | succ index =>
        rw [start_of_succ] at begins
        omega

end Message

open Message

-- What is left in the buffer is less than the next message.
def Unfinished (messages : List Message) (left : Bytes) : Prop := left = [] ∨ left.length < startOf messages 1

theorem process_loop_nil (fuel : Nat) : processLoop fuel [] = ([], []) := by
  cases fuel <;> rfl

theorem process_loop_part (message : Message) (fuel : Nat) (part more : Bytes) (whole : part ++ more = message.wire)
    (missing : more ≠ []) (text : message.IsRequest → part ≠ [] → Utf8.decode part ≠ none) :
    processLoop fuel part = ([], part) := by
  cases fuel with
  | zero => rfl
  | succ fuel => rw [process_loop_succ, message.next_part part more whole missing text]

theorem process_loop_whole (message : Message) (fuel : Nat) (more : Bytes)
    (text : message.IsRequest → Utf8.decode (message.wire ++ more) ≠ none) :
    processLoop (fuel + 1) (message.wire ++ more) =
      (message.handled :: (processLoop fuel more).1, (processLoop fuel more).2) := by
  rw [process_loop_succ, message.next_whole more text]
  simp only [List.drop_left]

theorem process_loop_garbled (message : Message) (fuel : Nat) (buf more : Bytes) (isRequest : message.IsRequest)
    (starts : ∃ rest, buf ++ more = message.wire ++ rest) (nonempty : buf ≠ []) (enough : buf.length ≤ fuel)
    (garbled : Utf8.decode buf = none) : Handled.badRequest ∈ (processLoop fuel buf).1 := by
  have positive := List.length_pos_iff.mpr nonempty
  obtain ⟨fuel, rfl⟩ := Nat.exists_eq_succ_of_ne_zero (show fuel ≠ 0 by omega)
  rw [Nat.succ_eq_add_one, process_loop_succ, message.next_garbled buf more isRequest starts nonempty garbled]
  exact List.mem_singleton_self _

-- The buffer holds some whole messages and a part of the next.
theorem process_loop_legible (messages : List Message) (fuel : Nat) (buf more : Bytes)
    (arrives : buf ++ more = wireAll messages) (enough : buf.length ≤ fuel) (legible : BufferLegible messages buf) :
    ∃ done rest left, messages = done ++ rest ∧ buf = wireAll done ++ left ∧
      processLoop fuel buf = (done.map handled, left) ∧ Unfinished rest left := by
  induction messages generalizing fuel buf with
  | nil =>
      obtain rfl : buf = [] := (List.append_eq_nil_iff.mp arrives).1
      exact ⟨[], [], [], rfl, rfl, process_loop_nil fuel, .inl rfl⟩
  | cons message messages ih =>
      have positive := List.length_pos_iff.mpr message.wire_ne_nil
      rcases List.append_eq_append_iff.mp arrives with ⟨missing, whole, _⟩ | ⟨behind, rfl, later⟩
      · by_cases complete : missing = []
        · subst complete
          obtain rfl : message.wire = buf := by simpa using whole
          rw [← List.append_nil message.wire] at legible
          obtain ⟨text, _⟩ := (buffer_legible_whole message messages []).mp legible
          obtain ⟨fuel, rfl⟩ := Nat.exists_eq_succ_of_ne_zero (show fuel ≠ 0 by omega)
          have ran := process_loop_whole message fuel [] text
          rw [List.append_nil, process_loop_nil] at ran
          exact ⟨[message], messages, [], rfl, by simp [wireAll], ran, .inl rfl⟩
        · have short : buf.length < message.wire.length := by
            rw [whole, List.length_append]
            exact Nat.lt_add_of_pos_right (List.length_pos_iff.mpr complete)
          have text := (buffer_legible_part message messages buf short).mp legible
          exact ⟨[], message :: messages, buf, rfl, rfl,
            process_loop_part message fuel buf missing whole.symm complete text, .inr (by simpa using short)⟩
      · rw [List.length_append] at enough
        obtain ⟨text, further⟩ := (buffer_legible_whole message messages behind).mp legible
        obtain ⟨fuel, rfl⟩ := Nat.exists_eq_succ_of_ne_zero (show fuel ≠ 0 by omega)
        obtain ⟨done, rest, left, rfl, rfl, ran, unfinished⟩ := ih fuel behind later.symm (by omega) further
        refine ⟨message :: done, rest, left, rfl, by simp, ?_, unfinished⟩
        rw [Nat.succ_eq_add_one, process_loop_whole message fuel _ text, ran]
        rfl

theorem process_loop_illegible (messages : List Message) (fuel : Nat) (buf more : Bytes)
    (arrives : buf ++ more = wireAll messages) (enough : buf.length ≤ fuel)
    (illegible : ¬ BufferLegible messages buf) : Handled.badRequest ∈ (processLoop fuel buf).1 := by
  induction messages generalizing fuel buf with
  | nil => exact absurd (fun index message found => by simp at found) illegible
  | cons message messages ih =>
      have positive := List.length_pos_iff.mpr message.wire_ne_nil
      rcases Nat.lt_or_ge buf.length message.wire.length with short | long
      · rw [buffer_legible_part message messages buf short] at illegible
        push Not at illegible
        obtain ⟨isRequest, nonempty, garbled⟩ := illegible
        exact process_loop_garbled message fuel buf more isRequest ⟨wireAll messages, arrives⟩ nonempty enough garbled
      · obtain ⟨behind, rfl⟩ : ∃ behind, buf = message.wire ++ behind := by
          have isPrefix : message.wire <+: buf :=
            List.prefix_of_prefix_length_le ⟨_, arrives.symm⟩ ⟨_, rfl⟩ long
          obtain ⟨behind, isBuf⟩ := isPrefix
          exact ⟨behind, isBuf.symm⟩
        rw [List.length_append] at enough
        have later : behind ++ more = wireAll messages := by
          rw [wire_all_cons, List.append_assoc] at arrives
          exact List.append_cancel_left arrives
        rw [buffer_legible_whole] at illegible
        by_cases text : message.IsRequest → Utf8.decode (message.wire ++ behind) ≠ none
        · obtain ⟨fuel, rfl⟩ := Nat.exists_eq_succ_of_ne_zero (show fuel ≠ 0 by omega)
          rw [Nat.succ_eq_add_one, process_loop_whole message fuel behind text]
          exact List.mem_cons_of_mem _ (ih fuel behind later (by omega) fun legible => illegible ⟨text, legible⟩)
        · push Not at text
          obtain ⟨isRequest, garbled⟩ := text
          refine process_loop_garbled message fuel _ more isRequest ⟨wireAll messages, arrives⟩ ?_ ?_ garbled
          · exact fun nothing => message.wire_ne_nil (List.append_eq_nil_iff.mp nothing).1
          · simpa using enough

theorem legible_whole (message : Message) (rest : List Message) (seen : Bytes) (chunks : List Bytes) :
    Legible (message :: rest) (message.wire ++ seen) chunks ↔ Legible rest seen chunks := by
  constructor
  · intro legible index other found isRequest count inside
    have there := legible (index + 1) other found isRequest count inside
    rwa [List.append_assoc, List.append_assoc, reads_text_whole] at there
  · intro legible index other found isRequest count inside
    cases index with
    | zero =>
        intro within _
        simp only [start_of_succ, start_of_zero, List.length_append] at within
        omega
    | succ index =>
        rw [List.append_assoc, List.append_assoc, reads_text_whole]
        exact legible index other found isRequest count inside

theorem legible_done (done rest : List Message) (left : Bytes) (chunks : List Bytes) :
    Legible (done ++ rest) (wireAll done ++ left) chunks ↔ Legible rest left chunks := by
  induction done with
  | nil => exact Iff.rfl
  | cons message done ih =>
      rw [List.cons_append, wire_all_cons, List.append_assoc, legible_whole, ih]

theorem start_of_le (messages : List Message) (index : Nat) (inside : index < messages.length) :
    startOf messages 1 ≤ startOf messages (index + 1) := by
  cases messages with
  | nil => exact absurd inside (Nat.not_lt_zero index)
  | cons message rest => simp

-- One read is judged on the buffer it fills, the later ones on what they add.
theorem legible_read (messages : List Message) (seen chunk : Bytes) (chunks : List Bytes)
    (unfinished : Unfinished messages seen) :
    Legible messages seen (chunk :: chunks) ↔
      BufferLegible messages (seen ++ chunk) ∧ Legible messages (seen ++ chunk) chunks := by
  constructor
  · intro legible
    constructor
    · intro index message found isRequest begins
      have inside := (List.getElem?_eq_some_iff.mp found).1
      have later := start_of_le messages index inside
      have positive : 0 < startOf messages 1 := by
        obtain ⟨first, rest, rfl⟩ := List.exists_cons_of_length_pos (Nat.zero_lt_of_lt inside)
        simpa using List.length_pos_iff.mpr first.wire_ne_nil
      have before : seen.length < startOf messages (index + 1) := by
        rcases unfinished with nothing | short
        · rw [nothing, List.length_nil]
          omega
        · omega
      simpa using legible index message found isRequest 0 (Nat.succ_pos _) (by simpa using before) (by simpa using begins)
    · intro index message found isRequest count inside
      simpa using legible index message found isRequest (count + 1) (Nat.succ_lt_succ inside)
  · intro ⟨buffer, later⟩ index message found isRequest count inside
    cases count with
    | zero =>
        intro _ begins
        simp only [List.take_succ_cons, List.take_zero, List.flatten_cons, List.flatten_nil, List.append_nil,
          Nat.zero_add] at begins ⊢
        exact buffer index message found isRequest begins
    | succ count =>
        simpa using later index message found isRequest count (Nat.lt_of_succ_lt_succ inside)

theorem run_handled (conn : ReadLoop) (chunks : List Bytes) :
    (Machine.run ReadLoop.read conn chunks).handled =
      conn.handled ++ (Machine.run ReadLoop.read ⟨conn.readBuf, []⟩ chunks).handled := by
  induction chunks generalizing conn with
  | nil => simp
  | cons chunk chunks ih =>
      rw [Machine.run_cons, ih, Machine.run_cons, ih (ReadLoop.read ⟨conn.readBuf, []⟩ chunk)]
      simp [ReadLoop.read]

theorem handled_iff_legible (messages : List Message) (seen : Bytes) (chunks : List Bytes)
    (arrives : seen ++ chunks.flatten = wireAll messages) (unfinished : Unfinished messages seen) :
    (Machine.run ReadLoop.read ⟨seen, []⟩ chunks).handled = messages.map handled ↔ Legible messages seen chunks := by
  induction chunks generalizing messages seen with
  | nil =>
      rw [List.flatten_nil, List.append_nil] at arrives
      have ended : messages = [] := by
        rcases messages with - | ⟨message, messages⟩
        · rfl
        · have positive := List.length_pos_iff.mpr message.wire_ne_nil
          have length := congrArg List.length arrives
          rw [wire_all_cons, List.length_append] at length
          rcases unfinished with nothing | short
          · rw [nothing, List.length_nil] at length
            omega
          · simp only [start_of_succ, start_of_zero] at short
            omega
      subst ended
      exact ⟨fun _ index message found => by simp at found, fun _ => rfl⟩
  | cons chunk chunks ih =>
      have whole : (seen ++ chunk) ++ chunks.flatten = wireAll messages := by
        rw [List.append_assoc, ← List.flatten_cons]
        exact arrives
      rw [legible_read messages seen chunk chunks unfinished, Machine.run_cons, run_handled]
      by_cases legible : BufferLegible messages (seen ++ chunk)
      · obtain ⟨done, rest, left, rfl, isBuffer, ran, ends⟩ :=
          process_loop_legible messages _ _ _ whole (Nat.le_refl _) legible
        have remains : left ++ chunks.flatten = wireAll rest := by
          rw [isBuffer, List.append_assoc] at whole
          refine List.append_cancel_left (whole.trans ?_)
          simp [wireAll]
        have read : ReadLoop.read ⟨seen, []⟩ chunk = ⟨left, done.map handled⟩ := by
          simp only [ReadLoop.read, processBuffer, ran, List.nil_append]
        rw [read, and_iff_right legible, isBuffer, legible_done, ← ih rest left remains ends, List.map_append]
        exact List.append_right_inj _
      · refine iff_of_false ?_ (fun both => legible both.1)
        have refused := process_loop_illegible messages _ _ _ whole (Nat.le_refl _) legible
        intro same
        have among : Handled.badRequest ∈ messages.map handled := by
          rw [← same]
          exact List.mem_append_left _ (by simpa [ReadLoop.read, processBuffer] using refused)
        obtain ⟨message, _, isBad⟩ := List.mem_map.mp among
        cases message <;> cases isBad

end Lvqr.Rtsp
