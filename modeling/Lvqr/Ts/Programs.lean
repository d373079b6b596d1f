import Lvqr.Ts.Assembly

set_option autoImplicit false

-- What a whole table section describes: a PAT the PID of its first program, a PMT
-- the streams of its program.
namespace Lvqr.Ts

def sectionProgram (table : Bytes) : Option Nat := programLoop table (table.length - 4) 8

def sectionStreams (table : Bytes) : PidMap StreamType :=
  streamLoop table (table.length - 4) (12 + lengthAt table 10) fun _ => none

theorem byte_at_take (data : Bytes) (size index : Nat) (inside : index < size) :
    byteAt (data.take size) index = byteAt data index := by
  simp [byteAt, List.getD_eq_getElem?_getD, inside]

theorem pid_at_take (data : Bytes) (size index : Nat) (inside : index + 1 < size) :
    pidAt (data.take size) index = pidAt data index := by
  rw [pidAt, pidAt, byte_at_take data size index (by omega), byte_at_take data size (index + 1) inside]

theorem length_at_take (data : Bytes) (size index : Nat) (inside : index + 1 < size) :
    lengthAt (data.take size) index = lengthAt data index := by
  rw [lengthAt, lengthAt, byte_at_take data size index (by omega), byte_at_take data size (index + 1) inside]

-- Neither loop reads behind the end it is given.
theorem program_loop_take (data : Bytes) (size loopEnd index : Nat) (inside : loopEnd ≤ size) :
    programLoop (data.take size) loopEnd index = programLoop data loopEnd index := by
  induction index using programLoop.induct data loopEnd with
  | case1 index more number named =>
      have high := byte_at_take data size index (by omega)
      have low := byte_at_take data size (index + 1) (by omega)
      rw [programLoop, if_pos more, programLoop.eq_1 data, if_pos more, high, low]
      dsimp only
      rw [if_pos named, if_pos named, pid_at_take data size (index + 2) (by omega)]
  | case2 index more number unnamed ih =>
      have high := byte_at_take data size index (by omega)
      have low := byte_at_take data size (index + 1) (by omega)
      rw [programLoop, if_pos more, programLoop.eq_1 data, if_pos more, high, low]
      dsimp only
      rw [if_neg unnamed, if_neg unnamed, ih]
  | case3 index done => rw [programLoop, if_neg done, programLoop, if_neg done]

theorem stream_loop_take (data : Bytes) (size loopEnd index : Nat) (streams : PidMap StreamType)
    (inside : loopEnd ≤ size) :
    streamLoop (data.take size) loopEnd index streams = streamLoop data loopEnd index streams := by
  induction index, streams using streamLoop.induct data loopEnd with
  | case1 index streams more ih =>
      rw [streamLoop, if_pos more, streamLoop.eq_1 data, if_pos more, length_at_take data size (index + 3) (by omega),
        pid_at_take data size (index + 1) (by omega), byte_at_take data size index (by omega), ih]
  | case2 index streams done => rw [streamLoop, if_neg done, streamLoop, if_neg done]

-- A parser that checks a table as `readTable` does reads what `readTable` returns.
theorem read_table_bind {Value : Type} (minimum : Nat) (carried : Carried) (read parse : Bytes → Option Value)
    (same : ∀ data, minimum ≤ lengthAt data 1 →
      (data.take (3 + lengthAt data 1)).length = 3 + lengthAt data 1 →
      read (data.take (3 + lengthAt data 1)) = parse data) :
    (readTable minimum carried).bind read =
      match tableData carried.payload carried.pusi with
      | none => none
      | some data =>
          if data.length < 3 + minimum then none
          else if 3 + lengthAt data 1 > data.length ∨ lengthAt data 1 < minimum then none
          else parse data := by
  rw [readTable]
  cases tableData carried.payload carried.pusi with
  | none => rfl
  | some data =>
      dsimp only [Option.bind_some]
      by_cases short : data.length < 3 + minimum
      · rw [if_pos (.inl short), if_pos short]
        rfl
      · by_cases cutOff : 3 + lengthAt data 1 > data.length ∨ lengthAt data 1 < minimum
        · rw [if_pos (.inr cutOff), if_neg short, if_pos cutOff]
          rfl
        · have taken : (data.take (3 + lengthAt data 1)).length = 3 + lengthAt data 1 := by
            rw [List.length_take]
            omega
          rw [if_neg (by omega), if_neg short, if_neg cutOff, Option.bind_some, same data (by omega) taken]

theorem parse_pat_read (payload : Bytes) (pusi : Bool) :
    parsePat payload pusi = (readTable 9 ⟨pusi, payload⟩).bind sectionProgram := by
  refine (read_table_bind 9 ⟨pusi, payload⟩ sectionProgram
    (fun data => programLoop data (3 + lengthAt data 1 - 4) 8) ?_).symm
  intro data _ taken
  rw [sectionProgram, taken, program_loop_take _ _ _ _ (Nat.sub_le _ _)]

theorem parse_pmt_read (payload : Bytes) (pusi : Bool) :
    parsePmt payload pusi = (readTable 13 ⟨pusi, payload⟩).map sectionStreams := by
  rw [Option.map_eq_bind]
  refine (read_table_bind 13 ⟨pusi, payload⟩ (some ∘ sectionStreams)
    (fun data => some (streamLoop data (3 + lengthAt data 1 - 4) (12 + lengthAt data 10) fun _ => none)) ?_).symm
  intro data minimal taken
  rw [Function.comp_apply, sectionStreams, taken, stream_loop_take _ _ _ _ _ (Nat.sub_le _ _),
    length_at_take data _ 10 (by omega)]

structure ProgramEntry where
  number : Nat
  pid : Nat
  number_lt : number < 2 ^ 16
  pid_lt : pid < 2 ^ 13

def ProgramEntry.encode (entry : ProgramEntry) : Bytes :=
  [UInt8.ofNat (entry.number / 256), UInt8.ofNat (entry.number % 256)] ++ encodePid entry.pid

-- A PAT with any number of programs; number 0 names the network PID.
structure ProgramAssociation where
  fields : Vector UInt8 5
  entries : List ProgramEntry
  crc : Vector UInt8 4
  fits : 9 + 4 * entries.length < 2 ^ 12

namespace ProgramAssociation

def encodePrograms (entries : List ProgramEntry) : Bytes := entries.flatMap ProgramEntry.encode

def body (association : ProgramAssociation) : Bytes :=
  association.fields.toList ++ (encodePrograms association.entries ++ association.crc.toList)

def pmtPid (association : ProgramAssociation) : Option Nat :=
  (association.entries.find? fun entry => entry.number ≠ 0).map ProgramEntry.pid

theorem programs_length (entries : List ProgramEntry) : (encodePrograms entries).length = 4 * entries.length := by
  induction entries with
  | nil => rfl
  | cons entry entries ih =>
      have split : encodePrograms (entry :: entries) = entry.encode ++ encodePrograms entries := rfl
      rw [split, List.length_append, ih, List.length_cons, ProgramEntry.encode, encodePid]
      simp only [List.cons_append, List.nil_append, List.length_cons, List.length_nil]
      omega

theorem body_length (association : ProgramAssociation) : association.body.length = 9 + 4 * association.entries.length := by
  rw [body, List.length_append, List.length_append, programs_length, Vector.length_toList, Vector.length_toList]
  omega

theorem program_loop_encoded (data rest : Bytes) (entries : List ProgramEntry) (index : Nat)
    (here : data.drop index = encodePrograms entries ++ rest) :
    programLoop data (index + 4 * entries.length) index =
      (entries.find? fun entry => entry.number ≠ 0).map ProgramEntry.pid := by
  induction entries generalizing index with
  | nil =>
      rw [programLoop, if_neg (by simp)]
      rfl
  | cons entry entries ih =>
      have numberLt := entry.number_lt
      have split : encodePrograms (entry :: entries) = entry.encode ++ encodePrograms entries := rfl
      rw [split, List.append_assoc, ProgramEntry.encode, List.append_assoc] at here
      have number : byteAt data index <<< 8 ||| byteAt data (index + 1) = entry.number := by
        have high : byteAt data index = entry.number / 256 := by
          rw [← Nat.add_zero index, byte_at_drop, here]
          exact Bits.byte_value _ (by omega)
        have low : byteAt data (index + 1) = entry.number % 256 := by
          rw [byte_at_drop, here]
          exact Bits.byte_value _ (by omega)
        rw [high, low, Bits.shift_or_eq_add _ _ 8 (by omega)]
        omega
      have pid : pidAt data (index + 2) = entry.pid := by
        apply encoded_pid_at entry.pid data (index + 2) (encodePrograms entries ++ rest) entry.pid_lt
        rw [← List.drop_drop, here]
        rfl
      have next : data.drop (index + 4) = encodePrograms entries ++ rest := by
        rw [← List.drop_drop, here]
        rfl
      have later := ih (index + 4) next
      have total : index + 4 * (entry :: entries).length = index + 4 + 4 * entries.length := by
        rw [List.length_cons]
        omega
      rw [programLoop, total, if_pos (by omega), number]
      dsimp only
      by_cases named : entry.number ≠ 0
      · rw [if_pos named, pid, List.find?_cons_of_pos (by simpa using named)]
        rfl
      · rw [if_neg named, later, List.find?_cons_of_neg (by simpa using named)]

theorem program_of_body (association : ProgramAssociation) :
    sectionProgram (encodeSection 0x00 association.body) = association.pmtPid := by
  have body := association.body_length
  have size : (encodeSection 0x00 association.body).length = 3 + association.body.length := by
    rw [encodeSection, List.length_cons, List.length_cons, List.length_cons]
    omega
  have here : (encodeSection 0x00 association.body).drop 8 =
      encodePrograms association.entries ++ association.crc.toList := by
    simp [encodeSection, ProgramAssociation.body, List.drop_left']
  have loopEnd : (encodeSection 0x00 association.body).length - 4 = 8 + 4 * association.entries.length := by omega
  rw [sectionProgram, loopEnd, program_loop_encoded _ _ _ _ here]
  rfl

end ProgramAssociation

theorem streams_of_body (program : ProgramTables) :
    sectionStreams (encodeSection 0x02 program.pmtBody) = program.streams := by
  have size : (encodeSection 0x02 program.pmtBody).length = 3 + program.pmtBody.length := by
    rw [encodeSection, List.length_cons, List.length_cons, List.length_cons]
    omega
  have listed := stream_loop_section program []
  rw [List.append_nil] at listed
  rw [sectionStreams, size, listed]

theorem encoded_section_sized (tableId : UInt8) (body : Bytes) (fits : body.length < 2 ^ 12) :
    (encodeSection tableId body).length = 3 + lengthAt (encodeSection tableId body) 1 := by
  have length := encoded_section_length tableId body [] fits
  rw [List.append_nil] at length
  rw [length, encodeSection, List.length_cons, List.length_cons, List.length_cons]
  omega

theorem encoded_section_head (tableId : UInt8) (body : Bytes) (notStuffing : tableId ≠ 0xFF) :
    (encodeSection tableId body).head? ≠ some 0xFF :=
  fun stuffing => notStuffing (Option.some.inj stuffing)

def tableSection (tableId : UInt8) (body : Bytes) (fits : body.length < 2 ^ 12) (notStuffing : tableId ≠ 0xFF) : Section where
  bytes := encodeSection tableId body
  sized := encoded_section_sized tableId body fits
  tableId := encoded_section_head tableId body notStuffing

theorem table_section_is_table (tableId : UInt8) (minimum : Nat) (body : Bytes) (fits : body.length < 2 ^ 12)
    (notStuffing : tableId ≠ 0xFF) (minimal : minimum ≤ body.length) :
    IsTable tableId minimum (tableSection tableId body fits notStuffing).bytes := by
  have length := encoded_section_length tableId body [] fits
  rw [List.append_nil] at length
  refine ⟨rfl, ?_⟩
  rw [tableSection, length]
  exact minimal

end Lvqr.Ts
