import Lvqr.Ts.Tables

set_option autoImplicit false

-- Private sections on a SCTE-35 PID. A section starts in a packet whose pointer
-- field leads to it; what precedes that point is the tail of the section before.
namespace Lvqr.Ts

open TransportPacket TsDemuxer

structure Section where
  bytes : Bytes
  sized : bytes.length = 3 + lengthAt bytes 1
  tableId : bytes.head? ≠ some 0xFF

structure OpenSection where
  whole : Section
  sent : Bytes
  rest : Bytes
  split : sent ++ rest = whole.bytes
  begun : sent ≠ []
  unfinished : rest ≠ []

inductive Ending where
  | stuffed (count : Nat)
  | opens (next : OpenSection)

namespace Ending

def bytes : Ending → Bytes
  | stuffed count => List.replicate count 0xFF
  | opens next => next.sent

def left : Ending → Option OpenSection
  | stuffed _ => none
  | opens next => some next

end Ending

def sectionBytes (sections : List Section) : Bytes := sections.flatMap Section.bytes

-- The legal ways to go on from an open section, or from none. Every PUSI packet
-- starts a section; only there can a pointer field carry a tail.
inductive Packetized : Option OpenSection → List Section → List TransportPacket → Prop where
  | done (left : Option OpenSection) : Packetized left [] []
  | middle (left next : OpenSection) (sections : List Section) (packet : TransportPacket)
      (packets : List TransportPacket) (continues : packet.pusi = false) (same : next.whole = left.whole)
      (sent : next.sent = left.sent ++ packet.payload) (others : Packetized (some next) sections packets) :
      Packetized (some left) sections (packet :: packets)
  | last (left : OpenSection) (stuffing : Nat) (sections : List Section) (packet : TransportPacket)
      (packets : List TransportPacket) (continues : packet.pusi = false)
      (payload : packet.payload = left.rest ++ List.replicate stuffing 0xFF)
      (others : Packetized none sections packets) :
      Packetized (some left) (left.whole :: sections) (packet :: packets)
  | start (whole : List Section) (ending : Ending) (sections : List Section) (packet : TransportPacket)
      (packets : List TransportPacket) (starts : packet.pusi = true)
      (payload : packet.payload = 0 :: (sectionBytes whole ++ ending.bytes))
      (begins : whole ≠ [] ∨ ending.left ≠ none)
      (others : Packetized ending.left sections packets) :
      Packetized none (whole ++ sections) (packet :: packets)
  | tail (left : OpenSection) (whole : List Section) (ending : Ending) (sections : List Section)
      (packet : TransportPacket) (packets : List TransportPacket) (starts : packet.pusi = true)
      (payload : packet.payload =
        UInt8.ofNat left.rest.length :: (left.rest ++ (sectionBytes whole ++ ending.bytes)))
      (begins : whole ≠ [] ∨ ending.left ≠ none)
      (others : Packetized ending.left sections packets) :
      Packetized (some left) (left.whole :: (whole ++ sections)) (packet :: packets)

theorem section_length (whole : Section) : 3 ≤ whole.bytes.length := by
  have sized := whole.sized
  omega

theorem length_at_append (data rest : Bytes) (long : 3 ≤ data.length) : lengthAt (data ++ rest) 1 = lengthAt data 1 := by
  have read (index : Nat) (inside : index < data.length) : byteAt (data ++ rest) index = byteAt data index := by
    simp [byteAt, List.getD_eq_getElem?_getD, List.getElem?_append_left inside]
  rw [lengthAt, lengthAt, read 1 (by omega), read 2 (by omega)]

-- An open section whose header has come is still shorter than the header says.
theorem open_short (left : OpenSection) (long : 3 ≤ left.sent.length) :
    left.sent.length < 3 + lengthAt left.sent 1 := by
  have unfinished := List.length_pos_iff.mpr left.unfinished
  have header := left.whole.sized
  rw [← left.split, length_at_append left.sent left.rest long, List.length_append] at header
  omega

namespace SectionBuffer

theorem buffer_ext (a b : SectionBuffer) (buf : a.buf = b.buf) (expected : a.expectedLen = b.expectedLen) : a = b := by
  cases a
  cases b
  cases buf
  cases expected
  rfl

theorem read_expected_append (data rest : Bytes) (long : 3 ≤ data.length) :
    readExpected (data ++ rest) = some (3 + lengthAt data 1) := by
  have longer : 3 ≤ (data ++ rest).length := by
    rw [List.length_append]
    omega
  rw [readExpected, if_pos longer, length_at_append data rest long]

theorem accumulate_continuation (sent payload : Bytes) (begun : sent ≠ []) :
    (ofBytes sent).accumulate payload false = ofBytes (sent ++ payload) := by
  have notEmpty : sent.isEmpty = false := List.isEmpty_eq_false_iff.mpr begun
  simp only [accumulate, ofBytes, notEmpty, Bool.false_and, Bool.false_eq_true, if_false]
  split
  · rename_i expected known
    apply buffer_ext
    · rfl
    · simp only [readExpected] at known
      split at known
      · rename_i long
        exact (known.symm.trans (read_expected_append sent payload long).symm)
      · cases known
  · rfl

theorem accumulate_start (buffer : SectionBuffer) (skipped area : Bytes) (fits : skipped.length < 256)
    (begins : area ≠ []) :
    buffer.accumulate (UInt8.ofNat skipped.length :: (skipped ++ area)) true = ofBytes area := by
  have pointer : byteAt (UInt8.ofNat skipped.length :: (skipped ++ area)) 0 = skipped.length := Bits.byte_value _ fits
  have positive := List.length_pos_iff.mpr begins
  have inside : ¬ 1 + skipped.length ≥ (UInt8.ofNat skipped.length :: (skipped ++ area)).length := by
    simp only [List.length_cons, List.length_append]
    omega
  have rest : (UInt8.ofNat skipped.length :: (skipped ++ area)).drop (1 + skipped.length) = area := by
    rw [Nat.add_comm, List.drop_succ_cons, List.drop_left]
  simp only [accumulate, if_true, pointer, if_neg inside, rest]

theorem flush_waiting (buffer : SectionBuffer)
    (waiting : ∀ expected ∈ buffer.expectedLen, buffer.buf.length < expected) : buffer.flush = ([], buffer) := by
  rw [flush]
  split
  · rfl
  · rename_i expected known
    rw [dif_pos (waiting expected known)]

theorem flush_ready (buffer : SectionBuffer) (expected : Nat) (known : buffer.expectedLen = some expected)
    (ready : expected ≤ buffer.buf.length) :
    buffer.flush =
      if 3 ≤ (buffer.buf.drop expected).length then
        (buffer.buf.take expected :: (flush (ofBytes (buffer.buf.drop expected))).1,
          (flush (ofBytes (buffer.buf.drop expected))).2)
      else if (buffer.buf.drop expected).all (· == 0xFF) then ([buffer.buf.take expected], .empty)
      else ([buffer.buf.take expected], ⟨buffer.buf.drop expected, none, by simp⟩) := by
  rw [flush]
  split
  · rename_i unknown
    rw [known] at unknown
    cases unknown
  · rename_i other also
    obtain rfl : expected = other := Option.some.inj (known.symm.trans also)
    rw [dif_neg (by omega)]

-- The buffer an open section needs; without one any buffer will do, since the
-- next packet of the PID starts afresh.
def Holds (buffer : SectionBuffer) : Option OpenSection → Prop
  | none => True
  | some left => buffer = ofBytes left.sent

theorem flush_open (left : OpenSection) : (ofBytes left.sent).flush = ([], ofBytes left.sent) := by
  apply flush_waiting
  intro expected known
  change left.sent.length < expected
  simp only [ofBytes, readExpected, Option.mem_def] at known
  split at known
  · rename_i long
    cases known
    exact open_short left long
  · cases known

theorem length_at_stuffing (count : Nat) (long : 3 ≤ count) : lengthAt (List.replicate count 0xFF) 1 = 4095 := by
  have read (index : Nat) (inside : index < count) : byteAt (List.replicate count 0xFF) index = 255 := by
    simp [byteAt, List.getD_eq_getElem?_getD, inside]
  rw [lengthAt, read 1 (by omega), read 2 (by omega)]
  rfl

theorem flush_stuffing (count : Nat) (small : count < 4096) :
    (ofBytes (List.replicate count 0xFF)).flush = ([], ofBytes (List.replicate count 0xFF)) := by
  apply flush_waiting
  intro expected known
  simp only [ofBytes, readExpected, Option.mem_def, List.length_replicate] at known ⊢
  split at known
  · rename_i long
    rw [length_at_stuffing count long] at known
    cases known
    omega
  · cases known

theorem flush_ending (ending : Ending) (small : ending.left = none → ending.bytes.length < 4096) :
    (ofBytes ending.bytes).flush.1 = [] ∧ Holds (ofBytes ending.bytes).flush.2 ending.left := by
  cases ending with
  | stuffed count =>
      have few := small rfl
      rw [Ending.bytes, List.length_replicate] at few
      rw [Ending.bytes, flush_stuffing count few]
      exact ⟨rfl, trivial⟩
  | opens next =>
      rw [Ending.bytes, flush_open next]
      exact ⟨rfl, rfl⟩

-- Fewer than three bytes behind the last section are either stuffing, which is
-- dropped, or the head of the next one, which does not look like stuffing.
theorem short_ending (ending : Ending) :
    if ending.bytes.all (· == 0xFF) then ending.left = none else Holds (ofBytes ending.bytes) ending.left := by
  cases ending with
  | stuffed count => simp [Ending.bytes, Ending.left]
  | opens next =>
      have notStuffing : ¬ next.sent.all (· == 0xFF) = true := by
        intro all
        cases sent : next.sent with
        | nil => exact next.begun sent
        | cons byte rest =>
            have split := next.split
            have tableId := next.whole.tableId
            rw [sent, List.cons_append] at split
            rw [← split, List.head?_cons] at tableId
            simp only [sent, List.all_cons, Bool.and_eq_true, beq_iff_eq] at all
            exact tableId (congrArg some all.1)
      rw [Ending.bytes, if_neg notStuffing]
      rfl

theorem flush_sections (sections : List Section) (ending : Ending)
    (small : ending.left = none → ending.bytes.length < 4096) :
    (ofBytes (sectionBytes sections ++ ending.bytes)).flush.1 = sections.map Section.bytes ∧
      Holds (ofBytes (sectionBytes sections ++ ending.bytes)).flush.2 ending.left := by
  induction sections with
  | nil => exact flush_ending ending small
  | cons first sections ih =>
      let rest := sectionBytes sections ++ ending.bytes
      have area : sectionBytes (first :: sections) ++ ending.bytes = first.bytes ++ rest := by
        simp [sectionBytes, rest]
      have long := section_length first
      have expected : (ofBytes (first.bytes ++ rest)).expectedLen = some first.bytes.length := by
        rw [first.sized]
        exact read_expected_append first.bytes rest long
      have ready : first.bytes.length ≤ (ofBytes (first.bytes ++ rest)).buf.length := by
        simp [ofBytes]
      have dropped : (ofBytes (first.bytes ++ rest)).buf.drop first.bytes.length = rest := List.drop_left
      have taken : (ofBytes (first.bytes ++ rest)).buf.take first.bytes.length = first.bytes := List.take_left
      rw [area, flush_ready _ _ expected ready, dropped, taken]
      by_cases more : 3 ≤ rest.length
      · rw [if_pos more]
        exact ⟨congrArg (first.bytes :: ·) ih.1, ih.2⟩
      · rw [if_neg more]
        have lastOne : sections = [] := by
          cases sections with
          | nil => rfl
          | cons second others =>
              have header := section_length second
              simp only [rest, sectionBytes, List.flatMap_cons, List.length_append] at more
              omega
        subst lastOne
        have isEnding : rest = ending.bytes := rfl
        have tail := short_ending ending
        have unknown : readExpected rest = none := if_neg more
        rw [isEnding] at more unknown ⊢
        split at tail
        · rename_i stuffing
          rw [if_pos stuffing, tail]
          exact ⟨rfl, trivial⟩
        · rename_i head
          rw [if_neg head]
          refine ⟨rfl, ?_⟩
          have same : (⟨ending.bytes, none, by simp⟩ : SectionBuffer) = ofBytes ending.bytes :=
            buffer_ext _ _ rfl unknown.symm
          rw [same]
          exact tail

end SectionBuffer

def queued (pid : Nat) (sections : List Section) : List Scte35Section :=
  sections.map fun whole => ⟨pid, whole.bytes⟩

def PointersZero (packets : List TransportPacket) : Prop :=
  ∀ packet ∈ packets, packet.pusi = true → byteAt packet.payload 0 = 0

theorem pointers_zero_cons (packet : TransportPacket) (packets : List TransportPacket) :
    PointersZero (packet :: packets) ↔
      (packet.pusi = true → byteAt packet.payload 0 = 0) ∧ PointersZero packets :=
  List.forall_mem_cons

theorem payload_length_le (packet : TransportPacket) : packet.payload.length ≤ 184 := by
  have full := packet.full
  omega

theorem area_begins (whole : List Section) (ending : Ending) (begins : whole ≠ [] ∨ ending.left ≠ none) :
    sectionBytes whole ++ ending.bytes ≠ [] := by
  intro empty
  obtain ⟨noSections, noEnding⟩ := List.append_eq_nil_iff.mp empty
  cases begins with
  | inl someSection =>
      cases whole with
      | nil => exact someSection rfl
      | cons first rest =>
          have long := section_length first
          have nothing : first.bytes = [] := (List.append_eq_nil_iff.mp noSections).1
          simp [nothing] at long
  | inr opened =>
      cases ending with
      | stuffed count => exact opened rfl
      | opens next => exact next.begun noEnding

section Reassembly

variable {pid : Nat} {demuxer : TsDemuxer}

def sectionBuffer (demuxer : TsDemuxer) (pid : Nat) : SectionBuffer := (demuxer.sectionBufs pid).getD .empty

theorem process_section (packet : TransportPacket) (announced : Announced demuxer pid .scte35)
    (mine : carries pid packet = true) :
    demuxer.processPacket packet.encode = ([], demuxer.pushSection pid packet.payload packet.pusi) := by
  obtain ⟨isPid, nonempty⟩ := (carries_iff pid packet).mp mine
  rw [process_encoded, if_neg nonempty, isPid, dispatch_scte35 demuxer pid _ _ announced]

-- What a run over packets that carry `sections` leaves behind: the sections
-- kept, and that all are kept exactly if the pointer fields are zero.
def Keeps (pid : Nat) (before after : TsDemuxer) (sections : List Section) (packets : List TransportPacket) : Prop :=
  ∃ kept, after.pendingScte35 = before.pendingScte35 ++ queued pid kept ∧ kept.Sublist sections ∧
    (kept.length = sections.length ↔ PointersZero packets)

-- One packet of the PID, whatever brought the buffer to the bytes of some whole
-- sections and what the packet ends with.
theorem receive_section_packet (packet : TransportPacket) (packets : List TransportPacket) (whole : List Section)
    (ending : Ending) (announced : Announced demuxer pid .scte35) (mine : carries pid packet = true)
    (small : ending.left = none → ending.bytes.length < 4096)
    (collected : (sectionBuffer demuxer pid).accumulate packet.payload packet.pusi =
      .ofBytes (sectionBytes whole ++ ending.bytes)) :
    ∃ next : TsDemuxer, (demuxer.receive (packet :: packets)).2 = (next.receive packets).2 ∧
      Announced next pid .scte35 ∧ next.pendingScte35 = demuxer.pendingScte35 ++ queued pid whole ∧
      (sectionBuffer next pid).Holds ending.left := by
  obtain ⟨sections, left⟩ := SectionBuffer.flush_sections whole ending small
  rw [← collected] at sections left
  unfold sectionBuffer at sections left
  refine ⟨demuxer.pushSection pid packet.payload packet.pusi, ?_, ?_, ?_, ?_⟩
  · rw [receive_cons, process_section packet announced mine]
  · exact ⟨announced.notPat, announced.notPmt, announced.listed⟩
  · simp only [pushSection, sections, queued, List.map_map]
    rfl
  · simp only [sectionBuffer, pushSection, Function.update_self, Option.getD_some]
    exact left

theorem receive_section_then (packet : TransportPacket) (packets : List TransportPacket) (whole : List Section)
    (ending : Ending) (sections : List Section) (announced : Announced demuxer pid .scte35)
    (mine : ∀ other ∈ packet :: packets, carries pid other = true)
    (collected : (sectionBuffer demuxer pid).accumulate packet.payload packet.pusi =
      .ofBytes (sectionBytes whole ++ ending.bytes))
    (small : ending.left = none → ending.bytes.length < 4096)
    (later : ∀ next : TsDemuxer, Announced next pid .scte35 → (sectionBuffer next pid).Holds ending.left →
      (∀ other ∈ packets, carries pid other = true) → Keeps pid next (next.receive packets).2 sections packets) :
    ∃ kept, (demuxer.receive (packet :: packets)).2.pendingScte35 =
        demuxer.pendingScte35 ++ queued pid (whole ++ kept) ∧
      kept.Sublist sections ∧ (kept.length = sections.length ↔ PointersZero packets) := by
  obtain ⟨next, received, still, pending, holds⟩ := receive_section_packet packet packets whole ending announced
    (mine packet (List.mem_cons_self ..)) small collected
  obtain ⟨kept, queue, sublist, exact⟩ := later next still holds fun other member =>
    mine other (List.mem_cons_of_mem _ member)
  refine ⟨kept, ?_, sublist, exact⟩
  rw [received, queue, pending]
  simp [queued]

theorem short_stuffing (packet : TransportPacket) (front : Bytes) (ending : Ending)
    (payload : packet.payload = front ++ ending.bytes) : ending.left = none → ending.bytes.length < 4096 := by
  intro _
  have size := payload_length_le packet
  rw [payload, List.length_append] at size
  omega

theorem continued_pointers (packet : TransportPacket) (packets : List TransportPacket)
    (free : packet.pusi = true → byteAt packet.payload 0 = 0) :
    PointersZero (packet :: packets) ↔ PointersZero packets := by
  rw [pointers_zero_cons]
  exact ⟨And.right, fun rest => ⟨free, rest⟩⟩

theorem receive_packetized (left : Option OpenSection) (sections : List Section) (packets : List TransportPacket)
    (announced : Announced demuxer pid .scte35) (holds : (sectionBuffer demuxer pid).Holds left)
    (packetized : Packetized left sections packets) (mine : ∀ packet ∈ packets, carries pid packet = true) :
    Keeps pid demuxer (demuxer.receive packets).2 sections packets := by
  induction packetized generalizing demuxer with
  | done left => exact ⟨[], by simp [receive, processPackets, queued], List.Sublist.refl _, by simp [PointersZero]⟩
  | middle left next sections packet packets continues same sent others ih =>
      have collected : (sectionBuffer demuxer pid).accumulate packet.payload packet.pusi =
          .ofBytes (sectionBytes [] ++ (Ending.opens next).bytes) := by
        rw [holds, continues, SectionBuffer.accumulate_continuation left.sent packet.payload left.begun, ← sent]
        rfl
      obtain ⟨kept, queue, sublist, exact⟩ := receive_section_then packet packets [] (.opens next) sections announced
        mine collected (fun closed => by cases closed) fun _ still holds => ih still holds
      have free := continued_pointers packet packets fun starts => by simp [continues] at starts
      exact ⟨kept, queue, sublist, exact.trans free.symm⟩
  | last left stuffing sections packet packets continues payload others ih =>
      have collected : (sectionBuffer demuxer pid).accumulate packet.payload packet.pusi =
          .ofBytes (sectionBytes [left.whole] ++ (Ending.stuffed stuffing).bytes) := by
        rw [holds, continues, SectionBuffer.accumulate_continuation left.sent packet.payload left.begun, payload,
          ← List.append_assoc, left.split]
        simp [sectionBytes, Ending.bytes]
      obtain ⟨kept, queue, sublist, exact⟩ := receive_section_then packet packets [left.whole] (.stuffed stuffing)
        sections announced mine collected (short_stuffing packet left.rest (.stuffed stuffing) payload)
        fun _ still holds => ih still holds
      have free := continued_pointers packet packets fun starts => by simp [continues] at starts
      refine ⟨left.whole :: kept, queue, sublist.cons_cons left.whole, ?_⟩
      rw [List.length_cons, List.length_cons, Nat.add_right_cancel_iff, exact, free]
  | start whole ending sections packet packets starts payload begins others ih =>
      have collected : (sectionBuffer demuxer pid).accumulate packet.payload packet.pusi =
          .ofBytes (sectionBytes whole ++ ending.bytes) := by
        rw [starts, payload]
        exact SectionBuffer.accumulate_start _ [] _ (by simp) (area_begins whole ending begins)
      obtain ⟨kept, queue, sublist, exact⟩ := receive_section_then packet packets whole ending sections announced mine
        collected (short_stuffing packet (0 :: sectionBytes whole) ending payload) fun _ still holds => ih still holds
      have free := continued_pointers packet packets fun _ => by rw [payload]; rfl
      refine ⟨whole ++ kept, queue, (List.Sublist.refl whole).append sublist, ?_⟩
      rw [List.length_append, List.length_append, Nat.add_left_cancel_iff, exact, free]
  | tail left whole ending sections packet packets starts payload begins others ih =>
      have size := payload_length_le packet
      have long := List.length_pos_iff.mpr left.unfinished
      have fits : left.rest.length < 256 := by
        rw [payload, List.length_cons, List.length_append] at size
        omega
      have collected : (sectionBuffer demuxer pid).accumulate packet.payload packet.pusi =
          .ofBytes (sectionBytes whole ++ ending.bytes) := by
        rw [starts, payload]
        exact SectionBuffer.accumulate_start _ left.rest _ fits (area_begins whole ending begins)
      have front : packet.payload =
          (UInt8.ofNat left.rest.length :: (left.rest ++ sectionBytes whole)) ++ ending.bytes := by
        rw [payload, List.cons_append, List.append_assoc]
      obtain ⟨kept, queue, sublist, _⟩ := receive_section_then packet packets whole ending sections announced mine
        collected (short_stuffing packet _ ending front) fun _ still holds => ih still holds
      have pointer : byteAt packet.payload 0 = left.rest.length := by
        rw [payload]
        exact Bits.byte_value _ fits
      refine ⟨whole ++ kept, queue, ((List.Sublist.refl whole).append sublist).cons left.whole, ?_⟩
      -- The open section is lost, and the pointer field that leads past it is not zero.
      have shorter := sublist.length_le
      constructor
      · intro equal
        rw [List.length_cons, List.length_append, List.length_append] at equal
        omega
      · intro zero
        have here := ((pointers_zero_cons packet packets).mp zero).1 starts
        omega

end Reassembly

theorem queued_eq_iff (pid : Nat) (kept sections : List Section) (sublist : kept.Sublist sections) :
    queued pid kept = queued pid sections ↔ kept.length = sections.length := by
  constructor
  · intro same
    have lengths := congrArg List.length same
    simpa [queued] using lengths
  · intro same
    rw [sublist.eq_of_length same]

theorem sections_of_queued (pid : Nat) (sections : List Section) :
    sectionsOf pid (queued pid sections) = queued pid sections := by
  rw [sectionsOf, List.filter_eq_self]
  intro item member
  obtain ⟨whole, _, rfl⟩ := List.mem_map.mp member
  simp

-- Through a whole multiplex: the queue holds the sections in order, byte for
-- byte, up to those that end in the tail a pointer field leads past.
theorem receive_sections (tables stream : List TransportPacket) (pid : Nat) (sections : List Section)
    (chunks : List Bytes) (announced : Announced (new.receive tables).2 pid .scte35)
    (silent : carriers pid tables = [])
    (steady : ∀ packet ∈ stream, KeepsTables (new.receive tables).2 packet)
    (packetized : Packetized none sections (carriers pid stream))
    (sent : chunks.flatten = (tables ++ stream).flatMap encode) :
    ∃ kept, sectionsOf pid (new.feedAll chunks).2.pendingScte35 = queued pid kept ∧ kept.Sublist sections ∧
      (kept.length = sections.length ↔ PointersZero (carriers pid stream)) := by
  have fed := (feed_encoded new (tables ++ stream) chunks rfl sent).2
  obtain ⟨_, before⟩ := receive_elsewhere new pid tables silent
  obtain ⟨_, projected⟩ := receive_projects pid .scte35 stream _ _ (same_pid_refl pid (new.receive tables).2)
    announced steady
  obtain ⟨kept, queue, sublist, exact⟩ := receive_packetized none sections (carriers pid stream) announced trivial
    packetized (carriers_carry pid stream)
  refine ⟨kept, ?_, sublist, exact⟩
  have nothing := before.pending
  have pending := projected.pending
  rw [queue] at pending
  unfold sectionsOf at nothing pending
  rw [List.filter_append, nothing] at pending
  rw [fed, receive_append, sectionsOf, pending]
  exact sections_of_queued pid kept

theorem section_queue_exact_iff (tables stream : List TransportPacket) (pid : Nat) (sections : List Section)
    (chunks : List Bytes) (announced : Announced (new.receive tables).2 pid .scte35)
    (silent : carriers pid tables = [])
    (steady : ∀ packet ∈ stream, KeepsTables (new.receive tables).2 packet)
    (packetized : Packetized none sections (carriers pid stream))
    (sent : chunks.flatten = (tables ++ stream).flatMap encode) :
    sectionsOf pid (new.feedAll chunks).2.pendingScte35 = queued pid sections ↔
      PointersZero (carriers pid stream) := by
  obtain ⟨kept, queue, sublist, exact⟩ := receive_sections tables stream pid sections chunks announced silent steady
    packetized sent
  rw [queue, queued_eq_iff pid kept sections sublist]
  exact exact

def spliceSection (bodyLength : UInt8) : Bytes := 0xFC :: 0x30 :: bodyLength :: List.replicate bodyLength.toNat 0

def longSection : Section := ⟨spliceSection 190, by decide +kernel, by decide⟩

def shortSection : Section := ⟨spliceSection 17, by decide, by decide⟩

def longSectionOpen : OpenSection :=
  ⟨longSection, (spliceSection 190).take 183, (spliceSection 190).drop 183, List.take_append_drop _ _,
    by decide, by decide⟩

theorem splice_pid_lt : 500 < 2 ^ 13 := by decide

def openingPacket : TransportPacket :=
  plainPacket 500 true (0 :: longSectionOpen.sent) splice_pid_lt (by decide +kernel)

def closingPacket : TransportPacket :=
  plainPacket 500 false (longSectionOpen.rest ++ List.replicate 174 0xFF) splice_pid_lt (by decide +kernel)

def tailPacket : TransportPacket :=
  plainPacket 500 true
    (10 :: (longSectionOpen.rest ++ (sectionBytes [shortSection] ++ List.replicate 153 0xFF))) splice_pid_lt
    (by decide +kernel)

theorem splice_packets_keep (stream : List TransportPacket) (onPid : ∀ packet ∈ stream, packet.pid = 500) :
    ∀ packet ∈ stream, KeepsTables (new.receive sampleTables).2 packet := by
  intro packet member
  exact sample_tables_keep packet (by simp [onPid packet member, PAT_PID]) (by simp [onPid packet member])

theorem section_queue_exact_iff_closed_section :
    sectionsOf 500 (new.feedAll [(sampleTables ++ [openingPacket, closingPacket]).flatMap encode]).2.pendingScte35 =
        queued 500 [longSection] ↔
      PointersZero (carriers 500 [openingPacket, closingPacket]) := by
  have packetized : Packetized none [longSection] (carriers 500 [openingPacket, closingPacket]) :=
    .start [] (.opens longSectionOpen) [longSection] openingPacket [closingPacket] rfl rfl (.inr (by simp [Ending.left]))
      (.last longSectionOpen 174 [] closingPacket [] rfl rfl (.done none))
  exact section_queue_exact_iff sampleTables [openingPacket, closingPacket] 500 [longSection] _
    (sample_tables_announce 500 .scte35 (by decide) (by decide) rfl) rfl
    (splice_packets_keep _ (by simp [openingPacket, closingPacket, plainPacket])) packetized (List.append_nil _)

-- The second packet carries the end of the long section in front of the short
-- one: its pointer field makes the demuxer drop the long section.
theorem tail_section_dropped :
    ¬ ∀ (tables stream : List TransportPacket) (pid : Nat) (sections : List Section) (chunks : List Bytes),
      Announced (new.receive tables).2 pid .scte35 → carriers pid tables = [] →
      (∀ packet ∈ stream, KeepsTables (new.receive tables).2 packet) →
      Packetized none sections (carriers pid stream) →
      chunks.flatten = (tables ++ stream).flatMap encode →
      sectionsOf pid (new.feedAll chunks).2.pendingScte35 = queued pid sections := by
  intro reassembled
  have announced := sample_tables_announce 500 .scte35 (by decide) (by decide) rfl
  have steady := splice_packets_keep [openingPacket, tailPacket] (by simp [openingPacket, tailPacket, plainPacket])
  have packetized : Packetized none [longSection, shortSection] (carriers 500 [openingPacket, tailPacket]) :=
    .start [] (.opens longSectionOpen) [longSection, shortSection] openingPacket [tailPacket] rfl rfl
      (.inr (by simp [Ending.left]))
      (.tail longSectionOpen [shortSection] (.stuffed 153) [] tailPacket [] rfl rfl (.inl (by simp)) (.done none))
  let chunks := [(sampleTables ++ [openingPacket, tailPacket]).flatMap encode]
  have sent : chunks.flatten = (sampleTables ++ [openingPacket, tailPacket]).flatMap encode := List.append_nil _
  have claimed := reassembled sampleTables _ 500 [longSection, shortSection] chunks announced rfl steady packetized sent
  obtain ⟨kept, queue, sublist, exact⟩ := receive_sections sampleTables _ 500 [longSection, shortSection] chunks
    announced rfl steady packetized sent
  rw [queue, queued_eq_iff 500 kept _ sublist] at claimed
  have pointer := exact.mp claimed tailPacket (by simp [carriers, carries, tailPacket, plainPacket]) rfl
  exact absurd pointer (by decide +kernel)

end Lvqr.Ts
