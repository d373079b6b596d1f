import Lvqr.Ts.Streams

set_option autoImplicit false

-- A PAT naming one program and its PMT, each written into one packet behind a
-- pointer field. The identifiers, versions and checksums the demuxer skips are free.
namespace Lvqr.Ts

open TransportPacket TsDemuxer

theorem byte_at_drop (data : Bytes) (start index : Nat) :
    byteAt data (start + index) = byteAt (data.drop start) index := by
  simp [byteAt, List.getD_eq_getElem?_getD]

def encodeSection (tableId : UInt8) (body : Bytes) : Bytes :=
  tableId :: UInt8.ofNat (176 + body.length / 256) :: UInt8.ofNat (body.length % 256) :: body

theorem encoded_section_length (tableId : UInt8) (body rest : Bytes) (fits : body.length < 2 ^ 12) :
    lengthAt (encodeSection tableId body ++ rest) 1 = body.length := by
  have high : byteAt (encodeSection tableId body ++ rest) 1 = 176 + body.length / 256 := Bits.byte_value _ (by omega)
  have low : byteAt (encodeSection tableId body ++ rest) 2 = body.length % 256 := Bits.byte_value _ (by omega)
  rw [lengthAt, high, low, Bits.shift_or_eq_add _ _ 8 (by omega), show 0x0F = 2 ^ 4 - 1 from rfl, Bits.mask_eq_mod]
  omega

def encodePid (pid : Nat) : Bytes := [UInt8.ofNat (224 + pid / 256), UInt8.ofNat (pid % 256)]

theorem encoded_pid_at (pid : Nat) (data : Bytes) (index : Nat) (rest : Bytes) (pid_lt : pid < 2 ^ 13)
    (here : data.drop index = encodePid pid ++ rest) : pidAt data index = pid := by
  have high : byteAt data index = 224 + pid / 256 := by
    rw [← Nat.add_zero index, byte_at_drop, here]
    exact Bits.byte_value _ (by omega)
  have low : byteAt data (index + 1) = pid % 256 := by
    rw [byte_at_drop, here]
    exact Bits.byte_value _ (by omega)
  rw [pidAt, high, low, Bits.shift_or_eq_add _ _ 8 (by omega), show 0x1F = 2 ^ 5 - 1 from rfl, Bits.mask_eq_mod]
  omega

structure StreamEntry where
  streamType : UInt8
  pid : Nat
  info : Bytes
  pid_lt : pid < 2 ^ 13
  info_lt : info.length < 2 ^ 12

namespace StreamEntry

def encode (entry : StreamEntry) : Bytes :=
  entry.streamType :: (encodePid entry.pid ++
    (UInt8.ofNat (240 + entry.info.length / 256) :: UInt8.ofNat (entry.info.length % 256) :: entry.info))

def add (streams : PidMap StreamType) (entry : StreamEntry) : PidMap StreamType :=
  Function.update streams entry.pid (some (.fromByte entry.streamType.toNat))

theorem encode_length (entry : StreamEntry) : entry.encode.length = 5 + entry.info.length := by
  simp only [encode, encodePid, List.length_cons, List.length_append, List.length_nil]
  omega

end StreamEntry

def encodeEntries (entries : List StreamEntry) : Bytes := entries.flatMap StreamEntry.encode

theorem stream_loop_encoded (data rest : Bytes) (entries : List StreamEntry) (index : Nat)
    (streams : PidMap StreamType) (here : data.drop index = encodeEntries entries ++ rest) :
    streamLoop data (index + (encodeEntries entries).length) index streams = entries.foldl StreamEntry.add streams := by
  induction entries generalizing index streams with
  | nil =>
      rw [streamLoop, if_neg (by simp [encodeEntries])]
      rfl
  | cons entry entries ih =>
      have bound := entry.info_lt
      have size := entry.encode_length
      have split : encodeEntries (entry :: entries) = entry.encode ++ encodeEntries entries := rfl
      rw [split, List.append_assoc] at here
      have typeByte : byteAt data index = entry.streamType.toNat := by
        rw [← Nat.add_zero index, byte_at_drop, here]
        rfl
      have pid : pidAt data (index + 1) = entry.pid := by
        apply encoded_pid_at entry.pid data (index + 1) _ entry.pid_lt
        rw [← List.drop_drop, here]
        rfl
      have info : lengthAt data (index + 3) = entry.info.length := by
        have high : byteAt data (index + 3) = 240 + entry.info.length / 256 := by
          rw [byte_at_drop, here]
          exact Bits.byte_value _ (by omega)
        have low : byteAt data (index + 3 + 1) = entry.info.length % 256 := by
          rw [Nat.add_assoc, byte_at_drop, here]
          exact Bits.byte_value _ (by omega)
        rw [lengthAt, high, low, Bits.shift_or_eq_add _ _ 8 (by omega), show 0x0F = 2 ^ 4 - 1 from rfl,
          Bits.mask_eq_mod]
        omega
      have next : data.drop (index + (5 + entry.info.length)) = encodeEntries entries ++ rest := by
        rw [← List.drop_drop, here, ← size, List.drop_left]
      have later := ih (index + (5 + entry.info.length)) (StreamEntry.add streams entry) next
      have total : index + (encodeEntries (entry :: entries)).length =
          index + (5 + entry.info.length) + (encodeEntries entries).length := by
        rw [split, List.length_append, size]
        omega
      rw [streamLoop, if_pos (by rw [total]; omega), info, pid, typeByte, total]
      exact later

structure ProgramTables where
  programNumber : Nat
  pmtPid : Nat
  programInfo : Bytes
  entries : List StreamEntry
  patFields : Vector UInt8 5
  pmtFields : Vector UInt8 7
  patCrc : Vector UInt8 4
  pmtCrc : Vector UInt8 4
  programNumber_pos : 0 < programNumber
  programNumber_lt : programNumber < 2 ^ 16
  pmtPid_pos : PAT_PID < pmtPid
  pmtPid_lt : pmtPid < 2 ^ 13
  pmt_fits : 13 + programInfo.length + (encodeEntries entries).length < 2 ^ 12

namespace ProgramTables

def patBody (program : ProgramTables) : Bytes :=
  program.patFields.toList ++ ([UInt8.ofNat (program.programNumber / 256), UInt8.ofNat (program.programNumber % 256)] ++
    (encodePid program.pmtPid ++ program.patCrc.toList))

def pmtBody (program : ProgramTables) : Bytes :=
  program.pmtFields.toList ++
    ([UInt8.ofNat (240 + program.programInfo.length / 256), UInt8.ofNat (program.programInfo.length % 256)] ++
      (program.programInfo ++ (encodeEntries program.entries ++ program.pmtCrc.toList)))

def streams (program : ProgramTables) : PidMap StreamType :=
  program.entries.foldl StreamEntry.add fun _ => none

theorem pat_body_length (program : ProgramTables) : program.patBody.length = 13 := by
  simp [patBody, encodePid]

theorem pmt_body_length (program : ProgramTables) :
    program.pmtBody.length = 13 + program.programInfo.length + (encodeEntries program.entries).length := by
  simp only [pmtBody, List.length_append, List.length_cons, List.length_nil, Vector.length_toList]
  omega

end ProgramTables

structure CarriesSection (packet : TransportPacket) (pid : Nat) (bytes : Bytes) : Prop where
  onPid : packet.pid = pid
  starts : packet.pusi = true
  content : ∃ skipped stuffing : Bytes,
    packet.payload = UInt8.ofNat skipped.length :: (skipped ++ (bytes ++ stuffing))

theorem carried_table_data (packet : TransportPacket) (pid : Nat) (bytes : Bytes)
    (carried : CarriesSection packet pid bytes) (nonempty : bytes ≠ []) :
    ∃ stuffing, tableData packet.payload packet.pusi = some (bytes ++ stuffing) := by
  obtain ⟨skipped, stuffing, payload⟩ := carried.content
  have size : packet.payload.length ≤ 184 := by
    have full := packet.full
    omega
  have positive := List.length_pos_iff.mpr nonempty
  have long : packet.payload.length = 1 + skipped.length + bytes.length + stuffing.length := by
    simp only [payload, List.length_cons, List.length_append]
    omega
  have pointer : byteAt packet.payload 0 = skipped.length := by
    rw [payload]
    exact Bits.byte_value _ (by omega)
  refine ⟨stuffing, ?_⟩
  have inside : ¬ 1 + skipped.length ≥ packet.payload.length := by omega
  have carries : packet.payload.isEmpty = false := by simp [payload]
  have rest : packet.payload.drop (1 + skipped.length) = bytes ++ stuffing := by
    rw [payload, Nat.add_comm, List.drop_succ_cons, List.drop_left]
  simp only [tableData, carried.starts, carries, Bool.not_false, Bool.and_self, if_true, pointer, if_neg inside, rest]

theorem parse_carried_pat (program : ProgramTables) (packet : TransportPacket)
    (carried : CarriesSection packet PAT_PID (encodeSection 0x00 program.patBody)) :
    parsePat packet.payload packet.pusi = some program.pmtPid := by
  obtain ⟨stuffing, data⟩ := carried_table_data packet PAT_PID _ carried (by simp [encodeSection])
  have number := program.programNumber_pos
  have numberLt := program.programNumber_lt
  have body := program.pat_body_length
  have length := encoded_section_length 0x00 program.patBody stuffing (by omega)
  rw [body] at length
  have size : (encodeSection 0x00 program.patBody ++ stuffing).length = 16 + stuffing.length := by
    simp only [encodeSection, List.length_append, List.length_cons, body]
  have entry : (encodeSection 0x00 program.patBody ++ stuffing).drop 8 =
      [UInt8.ofNat (program.programNumber / 256), UInt8.ofNat (program.programNumber % 256)] ++
        (encodePid program.pmtPid ++ (program.patCrc.toList ++ stuffing)) := by
    simp [encodeSection, ProgramTables.patBody, List.drop_left']
  have programNumber : byteAt (encodeSection 0x00 program.patBody ++ stuffing) 8 <<< 8 |||
      byteAt (encodeSection 0x00 program.patBody ++ stuffing) (8 + 1) = program.programNumber := by
    have high : byteAt (encodeSection 0x00 program.patBody ++ stuffing) 8 = program.programNumber / 256 := by
      rw [← Nat.add_zero 8, byte_at_drop, entry]
      exact Bits.byte_value _ (by omega)
    have low : byteAt (encodeSection 0x00 program.patBody ++ stuffing) (8 + 1) = program.programNumber % 256 := by
      rw [byte_at_drop, entry]
      exact Bits.byte_value _ (by omega)
    rw [high, low, Bits.shift_or_eq_add _ _ 8 (by omega)]
    omega
  have pid : pidAt (encodeSection 0x00 program.patBody ++ stuffing) (8 + 2) = program.pmtPid := by
    apply encoded_pid_at program.pmtPid _ (8 + 2) (program.patCrc.toList ++ stuffing) program.pmtPid_lt
    rw [← List.drop_drop, entry]
    rfl
  have listed : programLoop (encodeSection 0x00 program.patBody ++ stuffing) (3 + 13 - 4) 8 = some program.pmtPid := by
    rw [programLoop, if_pos (by omega)]
    simp only [programNumber, pid]
    rw [if_pos (by omega)]
  simp only [parsePat, data, length, size]
  rw [if_neg (by omega), if_neg (by omega), listed]

-- The stream loop over a program map section, whatever the packet holds behind it.
theorem stream_loop_section (program : ProgramTables) (stuffing : Bytes) :
    streamLoop (encodeSection 0x02 program.pmtBody ++ stuffing) (3 + program.pmtBody.length - 4)
      (12 + lengthAt (encodeSection 0x02 program.pmtBody ++ stuffing) 10) (fun _ => none) = program.streams := by
  have fits := program.pmt_fits
  have body := program.pmt_body_length
  have entry : (encodeSection 0x02 program.pmtBody ++ stuffing).drop 10 =
      [UInt8.ofNat (240 + program.programInfo.length / 256), UInt8.ofNat (program.programInfo.length % 256)] ++
        (program.programInfo ++ (encodeEntries program.entries ++ (program.pmtCrc.toList ++ stuffing))) := by
    simp [encodeSection, ProgramTables.pmtBody, List.drop_left']
  have info : lengthAt (encodeSection 0x02 program.pmtBody ++ stuffing) 10 = program.programInfo.length := by
    have high : byteAt (encodeSection 0x02 program.pmtBody ++ stuffing) 10 = 240 + program.programInfo.length / 256 := by
      rw [← Nat.add_zero 10, byte_at_drop, entry]
      exact Bits.byte_value _ (by omega)
    have low : byteAt (encodeSection 0x02 program.pmtBody ++ stuffing) (10 + 1) = program.programInfo.length % 256 := by
      rw [byte_at_drop, entry]
      exact Bits.byte_value _ (by omega)
    rw [lengthAt, high, low, Bits.shift_or_eq_add _ _ 8 (by omega), show 0x0F = 2 ^ 4 - 1 from rfl, Bits.mask_eq_mod]
    omega
  have entries : (encodeSection 0x02 program.pmtBody ++ stuffing).drop (12 + program.programInfo.length) =
      encodeEntries program.entries ++ (program.pmtCrc.toList ++ stuffing) := by
    have head : (encodeSection 0x02 program.pmtBody ++ stuffing).drop (10 + 2) =
        program.programInfo ++ (encodeEntries program.entries ++ (program.pmtCrc.toList ++ stuffing)) := by
      rw [← List.drop_drop, entry]
      rfl
    rw [← List.drop_drop, head, List.drop_left]
  have loopEnd : 3 + program.pmtBody.length - 4 =
      12 + program.programInfo.length + (encodeEntries program.entries).length := by omega
  rw [info, loopEnd, stream_loop_encoded _ _ program.entries _ _ entries]
  rfl

theorem parse_carried_pmt (program : ProgramTables) (packet : TransportPacket) (pid : Nat)
    (carried : CarriesSection packet pid (encodeSection 0x02 program.pmtBody)) :
    parsePmt packet.payload packet.pusi = some program.streams := by
  obtain ⟨stuffing, data⟩ := carried_table_data packet pid _ carried (by simp [encodeSection])
  have fits := program.pmt_fits
  have body := program.pmt_body_length
  have length := encoded_section_length 0x02 program.pmtBody stuffing (by omega)
  have size : (encodeSection 0x02 program.pmtBody ++ stuffing).length = 3 + program.pmtBody.length + stuffing.length := by
    simp only [encodeSection, List.length_append, List.length_cons]
    omega
  simp only [parsePmt, data, length, size]
  rw [if_neg (by omega), if_neg (by omega), stream_loop_section]

theorem receive_tables (program : ProgramTables) (pat pmt : TransportPacket)
    (carriedPat : CarriesSection pat PAT_PID (encodeSection 0x00 program.patBody))
    (carriedPmt : CarriesSection pmt program.pmtPid (encodeSection 0x02 program.pmtBody)) :
    (new.receive [pat, pmt]).2 = { new with pmtPid := some program.pmtPid, streams := program.streams } := by
  have patPayload : pat.payload ≠ [] := by
    obtain ⟨skipped, stuffing, payload⟩ := carriedPat.content
    simp [payload]
  have pmtPayload : pmt.payload ≠ [] := by
    obtain ⟨skipped, stuffing, payload⟩ := carriedPmt.content
    simp [payload]
  have apart : program.pmtPid ≠ PAT_PID := Nat.ne_of_gt program.pmtPid_pos
  have first : new.processPacket pat.encode = ([], { new with pmtPid := some program.pmtPid }) := by
    rw [process_encoded, if_neg patPayload, dispatch, if_pos carriedPat.onPid, parse_carried_pat program pat carriedPat]
    rfl
  have second : TsDemuxer.processPacket { new with pmtPid := some program.pmtPid } pmt.encode =
      ([], { new with pmtPid := some program.pmtPid, streams := program.streams }) := by
    rw [process_encoded, if_neg pmtPayload, dispatch, carriedPmt.onPid, if_neg apart, if_pos rfl,
      parse_carried_pmt program pmt _ carriedPmt]
    rfl
  simp only [receive, List.map_cons, List.map_nil, processPackets, first, second]

-- The two packets announce every entry of the program map, and repeating either
-- of them later changes nothing.
theorem program_tables_announce (program : ProgramTables) (pat pmt : TransportPacket) (pid : Nat)
    (streamType : StreamType) (carriedPat : CarriesSection pat PAT_PID (encodeSection 0x00 program.patBody))
    (carriedPmt : CarriesSection pmt program.pmtPid (encodeSection 0x02 program.pmtBody))
    (notPat : pid ≠ PAT_PID) (notPmt : pid ≠ program.pmtPid) (listed : program.streams pid = some streamType) :
    Announced (new.receive [pat, pmt]).2 pid streamType := by
  rw [receive_tables program pat pmt carriedPat carriedPmt]
  exact ⟨notPat, fun same => notPmt (Option.some.inj same), listed⟩

theorem program_tables_keep (program : ProgramTables) (pat pmt packet : TransportPacket)
    (carriedPat : CarriesSection pat PAT_PID (encodeSection 0x00 program.patBody))
    (carriedPmt : CarriesSection pmt program.pmtPid (encodeSection 0x02 program.pmtBody))
    (repeatsPat : packet.pid = PAT_PID → CarriesSection packet PAT_PID (encodeSection 0x00 program.patBody))
    (repeatsPmt : packet.pid = program.pmtPid →
      CarriesSection packet program.pmtPid (encodeSection 0x02 program.pmtBody)) :
    KeepsTables (new.receive [pat, pmt]).2 packet := by
  rw [receive_tables program pat pmt carriedPat carriedPmt]
  constructor
  · intro isPat
    rw [parse_carried_pat program packet (repeatsPat isPat)]
    rfl
  · intro _ isPmt
    rw [parse_carried_pmt program packet _ (repeatsPmt (Option.some.inj isPmt))]
    rfl

def plainPacket (pid : Nat) (pusi : Bool) (payload : Bytes) (pid_lt : pid < 2 ^ 13) (full : payload.length = 184) :
    TransportPacket where
  pid := pid
  pusi := pusi
  transportError := false
  priority := false
  scrambling := 0
  continuity := 0
  adaptation := none
  payload := payload
  pid_lt := pid_lt
  scrambling_lt := by omega
  continuity_lt := by omega
  full := by simpa using full

-- A sample program: H.264 on PID 256 and SCTE-35 on PID 500.
def sampleProgram : ProgramTables where
  programNumber := 1
  pmtPid := 4096
  programInfo := []
  entries := [⟨0x1B, 256, [], by omega, by decide⟩, ⟨0x86, 500, [], by omega, by decide⟩]
  patFields := .replicate 5 0
  pmtFields := .replicate 7 0
  patCrc := .replicate 4 0
  pmtCrc := .replicate 4 0
  programNumber_pos := by omega
  programNumber_lt := by omega
  pmtPid_pos := by decide
  pmtPid_lt := by omega
  pmt_fits := by decide

def patPacket : TransportPacket :=
  plainPacket 0 true (0 :: (encodeSection 0x00 sampleProgram.patBody ++ List.replicate 167 0xFF)) (by omega)
    (by decide +kernel)

def pmtPacket : TransportPacket :=
  plainPacket 4096 true (0 :: (encodeSection 0x02 sampleProgram.pmtBody ++ List.replicate 157 0xFF)) (by omega)
    (by decide +kernel)

def sampleTables : List TransportPacket := [patPacket, pmtPacket]

theorem pat_packet_carries : CarriesSection patPacket PAT_PID (encodeSection 0x00 sampleProgram.patBody) :=
  ⟨rfl, rfl, [], _, rfl⟩

theorem pmt_packet_carries : CarriesSection pmtPacket 4096 (encodeSection 0x02 sampleProgram.pmtBody) :=
  ⟨rfl, rfl, [], _, rfl⟩

theorem sample_tables_announce (pid : Nat) (streamType : StreamType) (notPat : pid ≠ PAT_PID) (notPmt : pid ≠ 4096)
    (listed : sampleProgram.streams pid = some streamType) : Announced (new.receive sampleTables).2 pid streamType :=
  program_tables_announce sampleProgram patPacket pmtPacket pid streamType pat_packet_carries pmt_packet_carries
    notPat notPmt listed

theorem sample_tables_keep (packet : TransportPacket) (notPat : packet.pid ≠ PAT_PID) (notPmt : packet.pid ≠ 4096) :
    KeepsTables (new.receive sampleTables).2 packet :=
  program_tables_keep sampleProgram patPacket pmtPacket packet pat_packet_carries pmt_packet_carries
    (fun isPat => absurd isPat notPat) (fun isPmt => absurd isPmt notPmt)

end Lvqr.Ts
