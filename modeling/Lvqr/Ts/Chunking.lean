import Lvqr.Lib.Framing
import Lvqr.Ts.Demuxer
import Mathlib.Data.List.DropRight

set_option autoImplicit false

namespace Lvqr.Ts

theorem scan_packet_iff (input pkt rest : Bytes) :
    scan input = .packet pkt rest ↔
      TS_PACKET_SIZE ≤ (input.dropWhile (· != SYNC_BYTE)).length ∧
        pkt = (input.dropWhile (· != SYNC_BYTE)).take TS_PACKET_SIZE ∧
        rest = (input.dropWhile (· != SYNC_BYTE)).drop TS_PACKET_SIZE := by
  unfold scan
  cases tail : input.dropWhile (· != SYNC_BYTE) with
  | nil => simp [TS_PACKET_SIZE]
  | cons byte more =>
      by_cases short : (byte :: more).length < TS_PACKET_SIZE
      · have notLong : ¬ TS_PACKET_SIZE ≤ (byte :: more).length := by omega
        simp only [List.isEmpty_cons, Bool.false_eq_true, if_false, if_pos short, notLong, false_and, reduceCtorEq]
      · have long : TS_PACKET_SIZE ≤ (byte :: more).length := by omega
        simp only [List.isEmpty_cons, Bool.false_eq_true, if_false, if_neg short, long, true_and, Scan.packet.injEq]
        exact and_congr eq_comm eq_comm

def nextPacket (input : Bytes) : Option (Bytes × Bytes) :=
  match scan input with
  | .packet pkt rest => some (pkt, rest)
  | _ => none

theorem next_packet_some (input pkt rest : Bytes) :
    nextPacket input = some (pkt, rest) ↔ scan input = .packet pkt rest := by
  unfold nextPacket
  cases scan input <;> simp

theorem drop_while_append {α : Type} (stop : α → Bool) (input more : List α) (found : input.dropWhile stop ≠ []) :
    (input ++ more).dropWhile stop = input.dropWhile stop ++ more := by
  rw [List.dropWhile_append]
  simp [found]

theorem scan_stable (input more pkt rest : Bytes) (found : scan input = .packet pkt rest) :
    scan (input ++ more) = .packet pkt (rest ++ more) := by
  obtain ⟨long, rfl, rfl⟩ := (scan_packet_iff input pkt rest).mp found
  have nonempty : input.dropWhile (· != SYNC_BYTE) ≠ [] := by
    intro empty
    simp [empty, TS_PACKET_SIZE] at long
  rw [scan_packet_iff, drop_while_append _ input more nonempty]
  refine ⟨?_, ?_, ?_⟩
  · rw [List.length_append]
    omega
  · exact (List.take_append_of_le_length long).symm
  · exact (List.drop_append_of_le_length long).symm

def tsFramer : Framer UInt8 Bytes where
  next := nextPacket
  shrinks input pkt rest found := scan_shrinks input pkt rest ((next_packet_some input pkt rest).mp found)
  stable input more pkt rest found :=
    (next_packet_some (input ++ more) pkt (rest ++ more)).mpr
      (scan_stable input more pkt rest ((next_packet_some input pkt rest).mp found))

theorem unsynced_interchangeable (garbage : Bytes) (unsynced : garbage.dropWhile (· != SYNC_BYTE) = []) :
    tsFramer.Interchangeable garbage [] := by
  intro more
  apply tsFramer.frames_congr
  change nextPacket (garbage ++ more) = nextPacket more
  have skipped : (garbage ++ more).dropWhile (· != SYNC_BYTE) = more.dropWhile (· != SYNC_BYTE) := by
    rw [List.dropWhile_append]
    simp [unsynced]
  simp only [nextPacket, scan, skipped]

theorem tail_interchangeable (input : Bytes) :
    tsFramer.Interchangeable (input.dropWhile (· != SYNC_BYTE)) input := by
  intro more
  apply tsFramer.frames_congr
  change nextPacket (input.dropWhile (· != SYNC_BYTE) ++ more) = nextPacket (input ++ more)
  have skipped : (input.dropWhile (· != SYNC_BYTE) ++ more).dropWhile (· != SYNC_BYTE) =
      (input ++ more).dropWhile (· != SYNC_BYTE) := by
    rw [List.dropWhile_append, List.dropWhile_append]
    simp only [List.dropWhile_idempotent]
  simp only [nextPacket, scan, skipped]

namespace TsDemuxer

def processPackets (demuxer : TsDemuxer) : List Bytes → List PesPacket × TsDemuxer
  | [] => ([], demuxer)
  | pkt :: rest =>
      let (out, next) := demuxer.processPacket pkt
      let (more, last) := next.processPackets rest
      (out ++ more, last)

def feedAll (demuxer : TsDemuxer) : List Bytes → List PesPacket × TsDemuxer
  | [] => ([], demuxer)
  | chunk :: chunks =>
      let (out, next) := demuxer.feed chunk
      let (more, last) := next.feedAll chunks
      (out ++ more, last)

-- The caller of `feed` that takes the queued sections after every call.
def feedTaking (demuxer : TsDemuxer) : List Bytes → List PesPacket × List Scte35Section
  | [] => ([], [])
  | chunk :: chunks =>
      let (out, fed) := demuxer.feed chunk
      let (sections, taken) := fed.takeScte35Sections
      let (more, later) := taken.feedTaking chunks
      (out ++ more, sections ++ later)

theorem process_packets_append (demuxer : TsDemuxer) (first second : List Bytes) :
    demuxer.processPackets (first ++ second) =
      ((demuxer.processPackets first).1 ++ ((demuxer.processPackets first).2.processPackets second).1,
        ((demuxer.processPackets first).2.processPackets second).2) := by
  induction first generalizing demuxer with
  | nil => rfl
  | cons pkt rest ih => simp [processPackets, ih]

def carrying (demuxer : TsDemuxer) (remainder : Bytes) (queue : List Scte35Section) : TsDemuxer :=
  { demuxer with remainder := remainder, pendingScte35 := queue ++ demuxer.pendingScte35 }

theorem push_section_carrying (demuxer : TsDemuxer) (pid : Nat) (payload : Bytes) (pusi : Bool) (remainder : Bytes)
    (queue : List Scte35Section) :
    (demuxer.carrying remainder queue).pushSection pid payload pusi =
      (demuxer.pushSection pid payload pusi).carrying remainder queue := by
  simp [pushSection, carrying]

theorem push_pes_carrying (demuxer : TsDemuxer) (pid : Nat) (payload : Bytes) (pusi : Bool) (remainder : Bytes)
    (queue : List Scte35Section) :
    (demuxer.carrying remainder queue).pushPes pid payload pusi =
      ((demuxer.pushPes pid payload pusi).1, (demuxer.pushPes pid payload pusi).2.carrying remainder queue) := by
  cases pusi with
  | true => rfl
  | false =>
      cases buffered : demuxer.pesBufs pid with
      | none => simp [pushPes, carrying, buffered]
      | some buffer =>
          cases started : buffer.started with
          | true => simp [pushPes, carrying, buffered, started]
          | false => simp [pushPes, carrying, buffered, started]

theorem dispatch_carrying (demuxer : TsDemuxer) (pid : Nat) (payload : Bytes) (pusi : Bool) (remainder : Bytes)
    (queue : List Scte35Section) :
    (demuxer.carrying remainder queue).dispatch pid payload pusi =
      ((demuxer.dispatch pid payload pusi).1, (demuxer.dispatch pid payload pusi).2.carrying remainder queue) := by
  have samePmt : (demuxer.carrying remainder queue).pmtPid = demuxer.pmtPid := rfl
  have sameStreams : (demuxer.carrying remainder queue).streams = demuxer.streams := rfl
  unfold dispatch
  rw [samePmt, sameStreams]
  by_cases isPat : pid = PAT_PID
  · simp only [if_pos isPat]
    rfl
  · by_cases isPmt : some pid = demuxer.pmtPid
    · simp only [if_neg isPat, if_pos isPmt]
      rfl
    · simp only [if_neg isPat, if_neg isPmt]
      cases demuxer.streams pid with
      | none => rfl
      | some streamType =>
          cases streamType with
          | scte35 => exact congrArg (Prod.mk []) (push_section_carrying demuxer pid payload pusi remainder queue)
          | h264 => exact push_pes_carrying demuxer pid payload pusi remainder queue
          | h265 => exact push_pes_carrying demuxer pid payload pusi remainder queue
          | aac => exact push_pes_carrying demuxer pid payload pusi remainder queue
          | unknown byte => exact push_pes_carrying demuxer pid payload pusi remainder queue

theorem process_packet_carrying (demuxer : TsDemuxer) (pkt remainder : Bytes) (queue : List Scte35Section) :
    (demuxer.carrying remainder queue).processPacket pkt =
      ((demuxer.processPacket pkt).1, (demuxer.processPacket pkt).2.carrying remainder queue) := by
  unfold processPacket
  cases payloadOffset pkt with
  | none => rfl
  | some offset =>
      by_cases outside : offset ≥ TS_PACKET_SIZE
      · simp only [if_pos outside]
      · simp only [if_neg outside]
        exact dispatch_carrying demuxer _ _ _ remainder queue

theorem process_packets_carrying (demuxer : TsDemuxer) (pkts : List Bytes) (remainder : Bytes)
    (queue : List Scte35Section) :
    (demuxer.carrying remainder queue).processPackets pkts =
      ((demuxer.processPackets pkts).1, (demuxer.processPackets pkts).2.carrying remainder queue) := by
  induction pkts generalizing demuxer with
  | nil => rfl
  | cons pkt rest ih => simp only [processPackets, process_packet_carrying, ih]

theorem packet_loop_spec (unsynced : Bytes → Bytes) (demuxer : TsDemuxer) (input : Bytes)
    (harmless : ∀ garbage, tsFramer.Interchangeable [] garbage → tsFramer.Interchangeable (unsynced garbage) garbage) :
    ∃ kept, demuxer.packetLoop unsynced input =
        ((demuxer.processPackets (tsFramer.frames input).1).1,
          (demuxer.processPackets (tsFramer.frames input).1).2, kept) ∧
      tsFramer.Interchangeable kept (tsFramer.frames input).2 := by
  rw [packetLoop]
  split
  · rename_i found
    have noFrame : tsFramer.next input = none := by simp [tsFramer, nextPacket, found]
    rw [tsFramer.frames_none input noFrame]
    refine ⟨unsynced input, rfl, harmless input ?_⟩
    apply tsFramer.interchangeable_symm
    apply unsynced_interchangeable
    by_contra synced
    simp only [scan, List.isEmpty_iff, if_neg synced] at found
    split at found <;> cases found
  · rename_i tail found
    have noFrame : tsFramer.next input = none := by simp [tsFramer, nextPacket, found]
    rw [tsFramer.frames_none input noFrame]
    refine ⟨tail, rfl, ?_⟩
    have isTail : tail = input.dropWhile (· != SYNC_BYTE) := by
      simp only [scan] at found
      split at found
      · cases found
      · split at found
        · cases found
          rfl
        · cases found
    exact isTail ▸ tail_interchangeable input
  · rename_i pkt rest found
    have frame := tsFramer.frames_some input rest pkt ((next_packet_some input pkt rest).mpr found)
    obtain ⟨kept, looped, same⟩ := packet_loop_spec unsynced (demuxer.processPacket pkt).2 rest harmless
    rw [frame]
    exact ⟨kept, by simp only [looped, processPackets], same⟩
termination_by input.length
decreasing_by exact scan_shrinks input _ _ (by assumption)

-- Both paths of `feed` process the frames of what was left over and the new
-- data, and keep bytes as good as the ones no frame was found in.
theorem feed_spec (demuxer : TsDemuxer) (data : Bytes) :
    ∃ kept, demuxer.feed data =
        ((demuxer.processPackets (tsFramer.frames (demuxer.remainder ++ data)).1).1,
          { (demuxer.processPackets (tsFramer.frames (demuxer.remainder ++ data)).1).2 with remainder := kept }) ∧
      tsFramer.Interchangeable kept (tsFramer.frames (demuxer.remainder ++ data)).2 := by
  cases left : demuxer.remainder with
  | nil =>
      obtain ⟨kept, looped, same⟩ := packet_loop_spec id demuxer data fun garbage _ =>
        tsFramer.interchangeable_refl garbage
      exact ⟨kept, by simp [feed, left, looped], same⟩
  | cons byte bytes =>
      obtain ⟨kept, looped, same⟩ := packet_loop_spec (fun _ => []) demuxer (byte :: bytes ++ data) fun _ lost => lost
      exact ⟨kept, by simp only [feed, left, List.isEmpty_cons, looped]; rfl, same⟩

theorem feed_all_spec (demuxer : TsDemuxer) (first : Bytes) (rest : List Bytes) :
    let framed := tsFramer.frames (demuxer.remainder ++ (first ++ rest.flatten))
    ∃ kept, demuxer.feedAll (first :: rest) =
        ((demuxer.processPackets framed.1).1, { (demuxer.processPackets framed.1).2 with remainder := kept }) ∧
      tsFramer.Interchangeable kept framed.2 := by
  induction rest generalizing demuxer first with
  | nil =>
      obtain ⟨kept, fed, same⟩ := feed_spec demuxer first
      refine ⟨kept, ?_, ?_⟩
      · simp [feedAll, fed]
      · simpa using same
  | cons second rest ih =>
      obtain ⟨kept, fed, same⟩ := feed_spec demuxer first
      obtain ⟨resumed, leftover⟩ :=
        tsFramer.frames_resumed (demuxer.remainder ++ first) kept (second ++ rest.flatten) same
      rw [List.append_assoc] at resumed leftover
      simp only [List.flatten_cons]
      rw [resumed, process_packets_append]
      obtain ⟨last, more, sameLast⟩ := ih (demuxer.feed first).2 second
      rw [fed] at more sameLast
      refine ⟨last, ?_, ?_⟩
      · have carried := process_packets_carrying
          (demuxer.processPackets (tsFramer.frames (demuxer.remainder ++ first)).1).2
          (tsFramer.frames (kept ++ (second ++ rest.flatten))).1 kept []
        simp only [carrying, List.nil_append] at carried
        rw [feedAll, fed]
        simp only [more, carried]
      · exact tsFramer.interchangeable_trans _ _ _ sameLast leftover

theorem feed_taking_spec (demuxer : TsDemuxer) (first : Bytes) (rest : List Bytes) :
    let framed := tsFramer.frames (demuxer.remainder ++ (first ++ rest.flatten))
    demuxer.feedTaking (first :: rest) =
      ((demuxer.processPackets framed.1).1, (demuxer.processPackets framed.1).2.pendingScte35) := by
  induction rest generalizing demuxer first with
  | nil =>
      obtain ⟨kept, fed, _⟩ := feed_spec demuxer first
      simp [feedTaking, fed, takeScte35Sections]
  | cons second rest ih =>
      obtain ⟨kept, fed, same⟩ := feed_spec demuxer first
      obtain ⟨resumed, _⟩ :=
        tsFramer.frames_resumed (demuxer.remainder ++ first) kept (second ++ rest.flatten) same
      rw [List.append_assoc] at resumed
      simp only [List.flatten_cons]
      rw [resumed, process_packets_append]
      have more := ih (demuxer.feed first).2.takeScte35Sections.2 second
      let processed := (demuxer.processPackets (tsFramer.frames (demuxer.remainder ++ first)).1).2
      let taken : TsDemuxer := { processed with remainder := kept, pendingScte35 := [] }
      have requeued : taken.carrying processed.remainder processed.pendingScte35 = processed := by
        simp [taken, carrying]
      have carried := process_packets_carrying taken (tsFramer.frames (kept ++ (second ++ rest.flatten))).1
        processed.remainder processed.pendingScte35
      rw [requeued] at carried
      rw [fed] at more
      rw [feedTaking, fed]
      simp only [takeScte35Sections] at more ⊢
      simp only [more, processed, taken, carried, carrying]

def Agrees (a b : TsDemuxer) : Prop :=
  { a with remainder := [] } = { b with remainder := [] } ∧ tsFramer.Interchangeable a.remainder b.remainder

end TsDemuxer

-- However a byte string is cut into calls, the packets returned, the sections
-- queued (or taken call by call) and the parser left behind are those of one call.
theorem chunking_invariance (demuxer : TsDemuxer) (first : Bytes) (rest : List Bytes) :
    let whole := demuxer.feed (first ++ rest.flatten)
    let split := demuxer.feedAll (first :: rest)
    split.1 = whole.1 ∧ split.2.pendingScte35 = whole.2.pendingScte35 ∧
      demuxer.feedTaking (first :: rest) = (whole.1, whole.2.pendingScte35) ∧ split.2.Agrees whole.2 := by
  intro whole split
  obtain ⟨kept, fed, same⟩ := demuxer.feed_spec (first ++ rest.flatten)
  obtain ⟨last, fedAll, sameLast⟩ := demuxer.feed_all_spec first rest
  have isWhole : whole = _ := fed
  have isSplit : split = _ := fedAll
  refine ⟨?_, ?_, ?_, ?_, ?_⟩
  · rw [isSplit, isWhole]
  · rw [isSplit, isWhole]
  · rw [demuxer.feed_taking_spec first rest, isWhole]
  · rw [isSplit, isWhole]
  · rw [isSplit, isWhole]
    exact tsFramer.interchangeable_trans _ _ _ sameLast (tsFramer.interchangeable_symm _ _ same)

end Lvqr.Ts
