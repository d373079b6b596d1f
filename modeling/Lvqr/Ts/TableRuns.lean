import Lvqr.Ts.Programs
import Mathlib.Data.List.Infix

set_option autoImplicit false

-- The tables over a whole run of packets, against the sections that the packets of
-- the two table PIDs carry.
namespace Lvqr.Ts

-- The PID and the payload of a packet, where `process_packet` gets to one.
def delivery (pkt : Bytes) : Option (Nat × Carried) :=
  match payloadOffset pkt with
  | none => none
  | some offset =>
      if offset ≥ TS_PACKET_SIZE then none
      else some (pidAt pkt 1, ⟨byteAt pkt 1 &&& 0x40 != 0, pkt.drop offset⟩)

def onPid (pid : Nat) (packets : List Bytes) : List Carried :=
  packets.filterMap fun pkt => (delivery pkt).bind fun found => if found.1 = pid then some found.2 else none

-- The demuxer with the bytes of the sections that are under way on its table PIDs.
structure TableReader where
  demuxer : TsDemuxer
  pat : Bytes
  pmt : Bytes

namespace TableReader

def new : TableReader := ⟨.new, [], []⟩

def step (reader : TableReader) (pkt : Bytes) : TableReader :=
  let next := (reader.demuxer.processPacket pkt).2
  match delivery pkt with
  | none => { reader with demuxer := next }
  | some (pid, carried) =>
      if pid = PAT_PID then
        ⟨next, carried.leftOpen reader.pat, if next.pmtPid = reader.demuxer.pmtPid then reader.pmt else []⟩
      else if some pid = reader.demuxer.pmtPid then ⟨next, reader.pat, carried.leftOpen reader.pmt⟩
      else { reader with demuxer := next }

def after (packets : List Bytes) : TableReader := Machine.run step new packets

def completedOn (pid : Nat) (opened pkt : Bytes) : List Bytes := (onPid pid [pkt]).flatMap (Carried.completed opened)

def PacketInPlace (reader : TableReader) (pkt : Bytes) : Prop :=
  ∀ found ∈ delivery pkt,
    (found.1 = PAT_PID → InPlace 0x00 9 reader.pat found.2) ∧
      (found.1 ≠ PAT_PID → some found.1 = reader.demuxer.pmtPid → InPlace 0x02 13 reader.pmt found.2)

instance (reader : TableReader) (pkt : Bytes) : Decidable (PacketInPlace reader pkt) :=
  inferInstanceAs (Decidable (∀ found ∈ delivery pkt, _))

structure PatStep (reader next : TableReader) (pkt : Bytes) (carried : Carried) : Prop where
  found : delivery pkt = some (PAT_PID, carried)
  pmtPid : next.demuxer.pmtPid = ((readTable 9 carried).bind sectionProgram).or reader.demuxer.pmtPid
  streams : next.demuxer.streams = reader.demuxer.streams
  pat : next.pat = carried.leftOpen reader.pat
  pmt : next.demuxer.pmtPid = reader.demuxer.pmtPid → next.pmt = reader.pmt

structure PmtStep (reader next : TableReader) (pkt : Bytes) (pid : Nat) (carried : Carried) : Prop where
  notPat : pid ≠ PAT_PID
  isPmt : reader.demuxer.pmtPid = some pid
  found : delivery pkt = some (pid, carried)
  pmtPid : next.demuxer.pmtPid = reader.demuxer.pmtPid
  streams : next.demuxer.streams = ((readTable 13 carried).map sectionStreams).getD reader.demuxer.streams
  pat : next.pat = reader.pat
  pmt : next.pmt = carried.leftOpen reader.pmt

structure OtherStep (reader next : TableReader) (pkt : Bytes) : Prop where
  notPat : ∀ carried, delivery pkt ≠ some (PAT_PID, carried)
  notPmt : ∀ pid carried, reader.demuxer.pmtPid = some pid → delivery pkt ≠ some (pid, carried)
  pmtPid : next.demuxer.pmtPid = reader.demuxer.pmtPid
  streams : next.demuxer.streams = reader.demuxer.streams
  pat : next.pat = reader.pat
  pmt : next.pmt = reader.pmt

theorem process_delivery (demuxer : TsDemuxer) (pkt : Bytes) :
    demuxer.processPacket pkt =
      match delivery pkt with
      | none => ([], demuxer)
      | some (pid, carried) => demuxer.dispatch pid carried.payload carried.pusi := by
  rw [TsDemuxer.processPacket, delivery]
  cases payloadOffset pkt with
  | none => rfl
  | some offset =>
      dsimp only
      split
      · rfl
      · rfl

theorem empty_step (reader : TableReader) (pkt : Bytes) (found : delivery pkt = none) :
    OtherStep reader (reader.step pkt) pkt := by
  have processed := process_delivery reader.demuxer pkt
  rw [found] at processed
  have here : reader.step pkt = { reader with demuxer := (reader.demuxer.processPacket pkt).2 } := by
    rw [step, found]
  rw [here, processed]
  refine ⟨fun carried isPat => ?_, fun pid carried _ isPmt => ?_, rfl, rfl, rfl, rfl⟩
  · rw [found] at isPat
    cases isPat
  · rw [found] at isPmt
    cases isPmt

theorem pat_step (reader : TableReader) (pkt : Bytes) (carried : Carried) (found : delivery pkt = some (PAT_PID, carried)) :
    PatStep reader (reader.step pkt) pkt carried := by
  have processed := process_delivery reader.demuxer pkt
  rw [found] at processed
  dsimp only at processed
  rw [TsDemuxer.dispatch, if_pos rfl, parse_pat_read] at processed
  have here : reader.step pkt = ⟨(reader.demuxer.processPacket pkt).2, carried.leftOpen reader.pat,
      if (reader.demuxer.processPacket pkt).2.pmtPid = reader.demuxer.pmtPid then reader.pmt else []⟩ := by
    rw [step, found]
    dsimp only
    rw [if_pos rfl]
  rw [here, processed]
  exact ⟨found, rfl, rfl, rfl, fun same => if_pos same⟩

theorem pmt_step (reader : TableReader) (pkt : Bytes) (pid : Nat) (carried : Carried)
    (found : delivery pkt = some (pid, carried)) (notPat : pid ≠ PAT_PID) (isPmt : some pid = reader.demuxer.pmtPid) :
    PmtStep reader (reader.step pkt) pkt pid carried := by
  have processed := process_delivery reader.demuxer pkt
  rw [found] at processed
  dsimp only at processed
  rw [TsDemuxer.dispatch, if_neg notPat, if_pos isPmt, parse_pmt_read] at processed
  have here : reader.step pkt =
      ⟨(reader.demuxer.processPacket pkt).2, reader.pat, carried.leftOpen reader.pmt⟩ := by
    rw [step, found]
    dsimp only
    rw [if_neg notPat, if_pos isPmt]
  rw [here, processed]
  exact ⟨notPat, isPmt.symm, found, rfl, rfl, rfl, rfl⟩

theorem other_step (reader : TableReader) (pkt : Bytes) (pid : Nat) (carried : Carried)
    (found : delivery pkt = some (pid, carried)) (notPat : pid ≠ PAT_PID) (notPmt : some pid ≠ reader.demuxer.pmtPid) :
    OtherStep reader (reader.step pkt) pkt := by
  have processed := process_delivery reader.demuxer pkt
  rw [found] at processed
  dsimp only at processed
  have same := TsDemuxer.dispatch_other reader.demuxer pid carried.payload carried.pusi notPat notPmt
  rw [← processed] at same
  have here : reader.step pkt = { reader with demuxer := (reader.demuxer.processPacket pkt).2 } := by
    rw [step, found]
    dsimp only
    rw [if_neg notPat, if_neg notPmt]
  rw [here]
  refine ⟨fun other isOther => ?_, fun other _ isOther isHere => ?_, same.pmtPid, same.streams, rfl, rfl⟩
  · rw [found] at isOther
    exact notPat (congrArg Prod.fst (Option.some.inj isOther))
  · rw [found] at isHere
    obtain rfl : pid = other := congrArg Prod.fst (Option.some.inj isHere)
    exact notPmt isOther.symm

theorem step_cases (reader : TableReader) (pkt : Bytes) :
    (∃ carried, PatStep reader (reader.step pkt) pkt carried) ∨
      (∃ pid carried, PmtStep reader (reader.step pkt) pkt pid carried) ∨ OtherStep reader (reader.step pkt) pkt := by
  cases found : delivery pkt with
  | none => exact .inr (.inr (empty_step reader pkt found))
  | some pair =>
      obtain ⟨pid, carried⟩ := pair
      by_cases isPat : pid = PAT_PID
      · subst isPat
        exact .inl ⟨carried, pat_step reader pkt carried found⟩
      · by_cases isPmt : some pid = reader.demuxer.pmtPid
        · exact .inr (.inl ⟨pid, carried, pmt_step reader pkt pid carried found isPat isPmt⟩)
        · exact .inr (.inr (other_step reader pkt pid carried found isPat isPmt))

theorem on_pid_here (pid : Nat) (pkt : Bytes) (packets : List Bytes) (carried : Carried)
    (found : delivery pkt = some (pid, carried)) : onPid pid (pkt :: packets) = carried :: onPid pid packets := by
  rw [onPid, List.filterMap_cons, found, Option.bind_some, if_pos rfl]
  rfl

theorem on_pid_elsewhere (pid : Nat) (pkt : Bytes) (packets : List Bytes)
    (elsewhere : ∀ carried, delivery pkt ≠ some (pid, carried)) : onPid pid (pkt :: packets) = onPid pid packets := by
  rw [onPid, List.filterMap_cons]
  cases found : delivery pkt with
  | none => rfl
  | some pair =>
      have other : pair.1 ≠ pid := by
        rintro rfl
        exact elsewhere pair.2 found
      rw [Option.bind_some, if_neg other]
      rfl

theorem pat_run (reader : TableReader) (packets : List Bytes)
    (allowed : Machine.AllSteps PacketInPlace step reader packets) :
    Machine.AllSteps (InPlace 0x00 9) Carried.next reader.pat (onPid PAT_PID packets) ∧
      (Machine.run step reader packets).demuxer.pmtPid =
        (onPid PAT_PID packets).foldl (fun known carried => ((readTable 9 carried).bind sectionProgram).or known)
          reader.demuxer.pmtPid := by
  induction packets generalizing reader with
  | nil => exact ⟨trivial, rfl⟩
  | cons pkt packets ih =>
      obtain ⟨inPlace, others⟩ := allowed
      obtain ⟨later, result⟩ := ih (reader.step pkt) others
      rw [Machine.run_cons]
      rcases step_cases reader pkt with ⟨carried, here⟩ | ⟨pid, carried, here⟩ | here
      · rw [here.pat] at later
        rw [here.pmtPid] at result
        rw [on_pid_here PAT_PID pkt packets carried here.found]
        exact ⟨⟨(inPlace _ here.found).1 rfl, later⟩, result⟩
      · have elsewhere : ∀ other, delivery pkt ≠ some (PAT_PID, other) := by
          intro other isOther
          rw [here.found] at isOther
          exact here.notPat (congrArg Prod.fst (Option.some.inj isOther))
        rw [here.pat] at later
        rw [here.pmtPid] at result
        rw [on_pid_elsewhere PAT_PID pkt packets elsewhere]
        exact ⟨later, result⟩
      · rw [here.pat] at later
        rw [here.pmtPid] at result
        rw [on_pid_elsewhere PAT_PID pkt packets here.notPat]
        exact ⟨later, result⟩

theorem pmt_run (pid : Nat) (notPat : pid ≠ PAT_PID) (reader : TableReader) (packets : List Bytes)
    (stays : ∀ seen, seen <+: packets → (Machine.run step reader seen).demuxer.pmtPid = some pid)
    (allowed : Machine.AllSteps PacketInPlace step reader packets) :
    Machine.AllSteps (InPlace 0x02 13) Carried.next reader.pmt (onPid pid packets) ∧
      (Machine.run step reader packets).demuxer.streams =
        (onPid pid packets).foldl (fun known carried => ((readTable 13 carried).map sectionStreams).getD known)
          reader.demuxer.streams := by
  induction packets generalizing reader with
  | nil => exact ⟨trivial, rfl⟩
  | cons pkt packets ih =>
      have isPmt : reader.demuxer.pmtPid = some pid := stays [] List.nil_prefix
      have still : (reader.step pkt).demuxer.pmtPid = some pid := stays [pkt] (List.cons_prefix_cons.mpr ⟨rfl, List.nil_prefix⟩)
      obtain ⟨inPlace, others⟩ := allowed
      obtain ⟨later, result⟩ := ih (reader.step pkt)
        (fun seen within => stays (pkt :: seen) (List.cons_prefix_cons.mpr ⟨rfl, within⟩)) others
      rw [Machine.run_cons]
      rcases step_cases reader pkt with ⟨carried, here⟩ | ⟨other, carried, here⟩ | here
      · have elsewhere : ∀ other, delivery pkt ≠ some (pid, other) := by
          intro other isOther
          rw [here.found] at isOther
          exact notPat (congrArg Prod.fst (Option.some.inj isOther)).symm
        rw [here.pmt (still.trans isPmt.symm)] at later
        rw [here.streams] at result
        rw [on_pid_elsewhere pid pkt packets elsewhere]
        exact ⟨later, result⟩
      · obtain rfl : other = pid := Option.some.inj (here.isPmt.symm.trans isPmt)
        rw [here.pmt] at later
        rw [here.streams] at result
        rw [on_pid_here other pkt packets carried here.found]
        exact ⟨⟨(inPlace _ here.found).2 notPat isPmt.symm, later⟩, result⟩
      · rw [here.pmt] at later
        rw [here.streams] at result
        rw [on_pid_elsewhere pid pkt packets fun carried => here.notPmt pid carried isPmt]
        exact ⟨later, result⟩

theorem completed_here (pid : Nat) (opened pkt : Bytes) (carried : Carried) (found : delivery pkt = some (pid, carried)) :
    completedOn pid opened pkt = carried.completed opened := by
  rw [completedOn, on_pid_here pid pkt [] carried found]
  exact List.append_nil _

def patSection (association : ProgramAssociation) : Section :=
  tableSection 0x00 association.body (by rw [association.body_length]; exact association.fits) (by decide)

def pmtSection (program : ProgramTables) : Section :=
  tableSection 0x02 program.pmtBody (by rw [program.pmt_body_length]; exact program.pmt_fits) (by decide)

-- The tables change by whole sections only, and any split of a section over
-- packets of its PID leaves what the section describes.
structure TablesRight (packets : List Bytes) : Prop where
  patChange : ∀ seen pkt, seen ++ [pkt] <+: packets →
    (after (seen ++ [pkt])).demuxer.pmtPid ≠ (after seen).demuxer.pmtPid →
    ∃ table ∈ completedOn PAT_PID (after seen).pat pkt, IsTable 0x00 9 table ∧
      (after (seen ++ [pkt])).demuxer.pmtPid = sectionProgram table
  pmtChange : ∀ seen pkt, seen ++ [pkt] <+: packets →
    (after (seen ++ [pkt])).demuxer.streams ≠ (after seen).demuxer.streams →
    ∃ pid, (after seen).demuxer.pmtPid = some pid ∧ ∃ table ∈ completedOn pid (after seen).pmt pkt,
      IsTable 0x02 13 table ∧ (after (seen ++ [pkt])).demuxer.streams = sectionStreams table
  patSplit : ∀ seen parts, seen ++ parts <+: packets → ∀ association pid, association.pmtPid = some pid →
    Splits (patSection association) (onPid PAT_PID parts) → (after (seen ++ parts)).demuxer.pmtPid = some pid
  pmtSplit : ∀ seen parts, seen ++ parts <+: packets → ∀ program pid, pid ≠ PAT_PID →
    (∀ part, part <+: parts → (after (seen ++ part)).demuxer.pmtPid = some pid) →
    Splits (pmtSection program) (onPid pid parts) → (after (seen ++ parts)).demuxer.streams = program.streams

theorem pat_change (reader : TableReader) (pkt : Bytes) (inPlace : PacketInPlace reader pkt)
    (changed : (reader.step pkt).demuxer.pmtPid ≠ reader.demuxer.pmtPid) :
    ∃ table ∈ completedOn PAT_PID reader.pat pkt, IsTable 0x00 9 table ∧
      (reader.step pkt).demuxer.pmtPid = sectionProgram table := by
  rcases step_cases reader pkt with ⟨carried, here⟩ | ⟨pid, carried, here⟩ | here
  · have placed := (inPlace _ here.found).1 rfl
    have result := here.pmtPid
    cases named : (readTable 9 carried).bind sectionProgram with
    | none =>
        rw [named] at result
        exact absurd result changed
    | some program =>
        obtain ⟨table, read, isProgram⟩ := Option.bind_eq_some_iff.mp named
        obtain ⟨complete, isTable⟩ := read_completed reader.pat carried placed (by decide) table read
        rw [completed_here PAT_PID reader.pat pkt carried here.found]
        refine ⟨table, complete, isTable, ?_⟩
        rw [result, named, isProgram]
        rfl
  · exact absurd here.pmtPid changed
  · exact absurd here.pmtPid changed

theorem pmt_change (reader : TableReader) (pkt : Bytes) (inPlace : PacketInPlace reader pkt)
    (changed : (reader.step pkt).demuxer.streams ≠ reader.demuxer.streams) :
    ∃ pid, reader.demuxer.pmtPid = some pid ∧ ∃ table ∈ completedOn pid reader.pmt pkt, IsTable 0x02 13 table ∧
      (reader.step pkt).demuxer.streams = sectionStreams table := by
  rcases step_cases reader pkt with ⟨carried, here⟩ | ⟨pid, carried, here⟩ | here
  · exact absurd here.streams changed
  · have placed := (inPlace _ here.found).2 here.notPat here.isPmt.symm
    have result := here.streams
    cases read : readTable 13 carried with
    | none =>
        rw [read] at result
        exact absurd result changed
    | some table =>
        obtain ⟨complete, isTable⟩ := read_completed reader.pmt carried placed (by decide) table read
        refine ⟨pid, here.isPmt, table, ?_, isTable, ?_⟩
        · rw [completed_here pid reader.pmt pkt carried here.found]
          exact complete
        · rw [result, read]
          rfl
  · exact absurd here.streams changed

theorem pat_split (reader : TableReader) (parts : List Bytes) (association : ProgramAssociation) (pid : Nat)
    (named : association.pmtPid = some pid) (split : Splits (patSection association) (onPid PAT_PID parts))
    (allowed : Machine.AllSteps PacketInPlace step reader parts) :
    (Machine.run step reader parts).demuxer.pmtPid = some pid := by
  have body := association.body_length
  have isTable : IsTable 0x00 9 (patSection association).bytes :=
    table_section_is_table 0x00 9 association.body _ _ (by omega)
  obtain ⟨placed, result⟩ := pat_run reader parts allowed
  obtain ⟨carried, one, read⟩ := split_in_place _ _ split reader.pat isTable placed
  have program : sectionProgram (patSection association).bytes = some pid := association.program_of_body.trans named
  rw [result, one, List.foldl_cons, List.foldl_nil, read, Option.bind_some, program]
  rfl

theorem pmt_split (reader : TableReader) (parts : List Bytes) (program : ProgramTables) (pid : Nat)
    (notPat : pid ≠ PAT_PID)
    (stays : ∀ part, part <+: parts → (Machine.run step reader part).demuxer.pmtPid = some pid)
    (split : Splits (pmtSection program) (onPid pid parts))
    (allowed : Machine.AllSteps PacketInPlace step reader parts) :
    (Machine.run step reader parts).demuxer.streams = program.streams := by
  have body := program.pmt_body_length
  have isTable : IsTable 0x02 13 (pmtSection program).bytes :=
    table_section_is_table 0x02 13 program.pmtBody _ _ (by omega)
  obtain ⟨placed, result⟩ := pmt_run pid notPat reader parts stays allowed
  obtain ⟨carried, one, read⟩ := split_in_place _ _ split reader.pmt isTable placed
  have streams : sectionStreams (pmtSection program).bytes = program.streams := streams_of_body program
  rw [result, one, List.foldl_cons, List.foldl_nil, read, Option.map_some, Option.getD_some, streams]

theorem after_append (seen parts : List Bytes) : after (seen ++ parts) = Machine.run step (after seen) parts :=
  Machine.run_append step new seen parts

theorem after_snoc (seen : List Bytes) (pkt : Bytes) : after (seen ++ [pkt]) = (after seen).step pkt :=
  after_append seen [pkt]

theorem allowed_from (packets seen parts : List Bytes) (within : seen ++ parts <+: packets)
    (allowed : Machine.AllSteps PacketInPlace step new packets) :
    Machine.AllSteps PacketInPlace step (after seen) parts := by
  obtain ⟨rest, rfl⟩ := within
  have front := ((Machine.all_steps_append _ _ _ (seen ++ parts) rest).mp allowed).1
  exact ((Machine.all_steps_append _ _ _ seen parts).mp front).2

theorem tables_follow_sections (packets : List Bytes) (allowed : Machine.AllSteps PacketInPlace step new packets) :
    TablesRight packets where
  patChange := by
    intro seen pkt within changed
    have inPlace := allowed_from packets seen [pkt] within allowed
    rw [after_snoc] at changed ⊢
    exact pat_change (after seen) pkt inPlace.1 changed
  pmtChange := by
    intro seen pkt within changed
    have inPlace := allowed_from packets seen [pkt] within allowed
    rw [after_snoc] at changed ⊢
    exact pmt_change (after seen) pkt inPlace.1 changed
  patSplit := by
    intro seen parts within association pid named split
    have inPlace := allowed_from packets seen parts within allowed
    rw [after_append]
    exact pat_split (after seen) parts association pid named split inPlace
  pmtSplit := by
    intro seen parts within program pid notPat stays split
    have inPlace := allowed_from packets seen parts within allowed
    rw [after_append]
    refine pmt_split (after seen) parts program pid notPat (fun part before => ?_) split inPlace
    have here := stays part before
    rwa [after_append] at here

theorem sample_tables_follow_sections : TablesRight [patPacket.encode, pmtPacket.encode] :=
  tables_follow_sections _ (by decide +kernel)

-- The same program with a descriptor that makes its section too long for one packet.
def longProgram : ProgramTables := { sampleProgram with programInfo := List.replicate 200 0, pmt_fits := by decide +kernel }

def longOpen : OpenSection where
  whole := pmtSection longProgram
  sent := (pmtSection longProgram).bytes.take 183
  rest := (pmtSection longProgram).bytes.drop 183
  split := List.take_append_drop _ _
  begun := by decide +kernel
  unfinished := by decide

def longStart : TransportPacket := plainPacket 4096 true (0 :: longOpen.sent) sampleProgram.pmtPid_lt (by decide +kernel)

def longEnd : TransportPacket :=
  plainPacket 4096 false (longOpen.rest ++ List.replicate 141 0xFF) sampleProgram.pmtPid_lt (by decide +kernel)

theorem long_program_lost : ¬ ∀ packets, TablesRight packets := by
  intro always
  have right := always [patPacket.encode, longStart.encode, longEnd.encode]
  have stays : ∀ part, part <+: [longStart.encode, longEnd.encode] →
      (after ([patPacket.encode] ++ part)).demuxer.pmtPid = some 4096 := by
    intro part before
    have all : ∀ part ∈ [longStart.encode, longEnd.encode].inits,
        (after ([patPacket.encode] ++ part)).demuxer.pmtPid = some 4096 := by decide +kernel
    exact all part ((List.mem_inits part _).mpr before)
  have split : Splits (pmtSection longProgram) (onPid 4096 [longStart.encode, longEnd.encode]) := by
    have parts : onPid 4096 [longStart.encode, longEnd.encode] =
        [⟨true, 0 :: longOpen.sent⟩, ⟨false, longOpen.rest ++ List.replicate 141 0xFF⟩] := by decide +kernel
    rw [parts]
    exact .several [] [] longOpen _ rfl (by decide) (.last longOpen 141)
  have described := right.pmtSplit [patPacket.encode] [longStart.encode, longEnd.encode] (List.prefix_refl _) longProgram
    4096 (by decide) stays split
  have lost : (after ([patPacket.encode] ++ [longStart.encode, longEnd.encode])).demuxer.streams 256 = none := by
    decide +kernel
  rw [described] at lost
  exact absurd lost (by decide +kernel)

end TableReader

end Lvqr.Ts
