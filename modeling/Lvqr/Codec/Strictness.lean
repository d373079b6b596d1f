import Lvqr.Codec.Scte35

set_option autoImplicit false

-- How far a command reaches by its own flags, and what the parser holds it to.
namespace Lvqr.Codec

open Section

namespace Command

def timeSpan (body : Bytes) : Nat := if byteOf body 0 &&& 0x80 = 0 then 1 else 5

def timePts (body : Bytes) : Option Nat := if byteOf body 0 &&& 0x80 = 0 then none else some (thirtyThreeBits body)

def componentsSpan (body : Bytes) (immediate : Bool) : Nat → Nat → Nat
  | 0, cursor => cursor
  | count + 1, cursor =>
      if immediate then componentsSpan body immediate count (cursor + 1)
      else componentsSpan body immediate count (cursor + 1 + timeSpan (body.drop (cursor + 1)))

def timed (body : Bytes) : Nat :=
  if Insert.program body && !Insert.immediate body then 6 + timeSpan (body.drop 6) else 6

def looped (body : Bytes) : Nat :=
  if Insert.program body then timed body
  else componentsSpan body (Insert.immediate body) (byteOf body 6).toNat 7

def insertSpan (body : Bytes) : Nat :=
  if byteOf body 4 &&& 0x80 ≠ 0 then 5
  else if Insert.durationFlag body then looped body + 5
  else looped body

def insertFields (body : Bytes) : ParsedSpliceInsert :=
  if byteOf body 4 &&& 0x80 ≠ 0 then ⟨BigEndian.value (body.take 4), true, false, none, none⟩
  else {
    eventId := BigEndian.value (body.take 4)
    cancel := false
    outOfNetwork := byteOf body 5 &&& 0x80 ≠ 0
    pts := if Insert.program body && !Insert.immediate body then timePts (body.drop 6) else none
    duration := if Insert.durationFlag body then some (thirtyThreeBits (body.drop (looped body))) else none
  }

-- How many bytes of a command its flags ask for, of those the parser reads.
def span (commandType : UInt8) (encrypted : Bool) (body : Bytes) : Nat :=
  if encrypted then 0
  else if commandType = CMD_SPLICE_INSERT then insertSpan body
  else if commandType = CMD_TIME_SIGNAL then timeSpan body
  else 0

def fields (commandType : UInt8) (encrypted : Bool) (body : Bytes) : CommandFields :=
  if encrypted then ⟨none, false, false, none, none⟩
  else if commandType = CMD_SPLICE_INSERT then
    let parsed := insertFields body
    ⟨some parsed.eventId, parsed.cancel, parsed.outOfNetwork, parsed.pts, parsed.duration⟩
  else if commandType = CMD_TIME_SIGNAL then ⟨none, false, false, timePts body, none⟩
  else ⟨none, false, false, none, none⟩

end Command

open Command

section Reading

variable (body : Bytes)

theorem time_span_pos : 1 ≤ timeSpan body := by
  rw [timeSpan]
  split
  · exact Nat.le_refl 1
  · decide

theorem time_inline_ok (fits : timeSpan body ≤ body.length) :
    parseSpliceTimeInline body = .ok (timePts body, timeSpan body) := by
  have positive := time_span_pos body
  have nonempty : body ≠ [] := by
    rintro rfl
    rw [List.length_nil] at fits
    omega
  rw [parseSpliceTimeInline, if_neg nonempty, timePts]
  rw [timeSpan] at fits ⊢
  split
  · rfl
  · rename_i specified
    rw [if_neg specified] at fits
    rw [if_neg (Nat.not_lt.mpr fits)]

theorem time_inline_error (short : body.length < timeSpan body) : ∃ error, parseSpliceTimeInline body = .error error := by
  rw [parseSpliceTimeInline]
  rw [timeSpan] at short
  split
  · exact ⟨_, rfl⟩
  · rename_i nonempty
    have long : 1 ≤ body.length := List.length_pos_of_ne_nil nonempty
    split at short
    · omega
    · rename_i specified
      rw [if_neg specified, if_pos short]
      exact ⟨_, rfl⟩

theorem components_span_ge (immediate : Bool) (count cursor : Nat) :
    cursor ≤ componentsSpan body immediate count cursor := by
  induction count generalizing cursor with
  | zero => exact Nat.le_refl cursor
  | succ count ih =>
      rw [componentsSpan]
      split
      · exact Nat.le_of_succ_le (ih (cursor + 1))
      · have later := ih (cursor + 1 + timeSpan (body.drop (cursor + 1)))
        omega

theorem skip_components_ok (immediate : Bool) (count cursor : Nat)
    (fits : componentsSpan body immediate count cursor ≤ body.length) :
    skipComponents body immediate count cursor = .ok (componentsSpan body immediate count cursor) := by
  induction count generalizing cursor with
  | zero => rfl
  | succ count ih =>
      rw [componentsSpan] at fits ⊢
      rw [skipComponents]
      by_cases untimed : immediate = true
      · rw [if_pos untimed] at fits ⊢
        have later := components_span_ge body immediate count (cursor + 1)
        rw [if_neg (by omega), if_pos untimed]
        exact ih (cursor + 1) fits
      · rw [if_neg untimed] at fits ⊢
        have later := components_span_ge body immediate count (cursor + 1 + timeSpan (body.drop (cursor + 1)))
        have time := time_inline_ok (body.drop (cursor + 1)) (by rw [List.length_drop]; omega)
        rw [if_neg (by omega), if_neg untimed, time]
        exact ih _ fits

theorem skip_components_error (immediate : Bool) (count cursor : Nat) (inside : cursor ≤ body.length)
    (short : body.length < componentsSpan body immediate count cursor) :
    ∃ error, skipComponents body immediate count cursor = .error error := by
  induction count generalizing cursor with
  | zero =>
      rw [componentsSpan] at short
      omega
  | succ count ih =>
      rw [componentsSpan] at short
      rw [skipComponents]
      split
      · exact ⟨_, rfl⟩
      · rename_i here
        by_cases untimed : immediate = true
        · rw [if_pos untimed] at short ⊢
          exact ih (cursor + 1) (by omega) short
        · rw [if_neg untimed] at short ⊢
          by_cases fits : timeSpan (body.drop (cursor + 1)) ≤ (body.drop (cursor + 1)).length
          · rw [time_inline_ok _ fits]
            rw [List.length_drop] at fits
            exact ih _ (by omega) short
          · obtain ⟨error, refused⟩ := time_inline_error (body.drop (cursor + 1)) (Nat.lt_of_not_le fits)
            rw [refused]
            exact ⟨error, rfl⟩

theorem timed_ge : 6 ≤ timed body := by
  rw [timed]
  split
  · exact Nat.le_add_right 6 _
  · exact Nat.le_refl 6

theorem looped_ge : timed body ≤ looped body := by
  rw [looped]
  split
  · exact Nat.le_refl _
  · rename_i component
    have later := components_span_ge body (Insert.immediate body) (byteOf body 6).toNat 7
    have untimed : timed body = 6 := by simp [timed, component]
    omega

theorem splice_time_ok (fits : timed body ≤ body.length) :
    Insert.spliceTime body =
      .ok (if Insert.program body && !Insert.immediate body then timePts (body.drop 6) else none, timed body) := by
  rw [timed] at fits ⊢
  rw [Insert.spliceTime]
  split
  · rename_i present
    rw [if_pos present] at fits
    rw [time_inline_ok _ (by rw [List.length_drop]; omega)]
    rfl
  · rfl

theorem splice_time_error (long : 6 ≤ body.length) (short : body.length < timed body) :
    ∃ error, Insert.spliceTime body = .error error := by
  rw [timed] at short
  rw [Insert.spliceTime]
  split
  · rename_i present
    rw [if_pos present] at short
    obtain ⟨error, refused⟩ := time_inline_error (body.drop 6) (by rw [List.length_drop]; omega)
    rw [refused]
    exact ⟨error, rfl⟩
  · rename_i absent
    rw [if_neg absent] at short
    omega

theorem component_loop_ok (fits : looped body ≤ body.length) :
    Insert.componentLoop body (timed body) = .ok (looped body) := by
  rw [looped] at fits ⊢
  rw [Insert.componentLoop]
  split
  · rfl
  · rename_i component
    rw [if_neg component] at fits
    have later := components_span_ge body (Insert.immediate body) (byteOf body 6).toNat 7
    have untimed : timed body = 6 := by simp [timed, component]
    rw [untimed, if_neg (by omega), skip_components_ok body _ _ _ fits]

theorem component_loop_error (fits : timed body ≤ body.length) (short : body.length < looped body) :
    ∃ error, Insert.componentLoop body (timed body) = .error error := by
  rw [looped] at short
  rw [Insert.componentLoop]
  split
  · rename_i program
    rw [if_pos program] at short
    omega
  · rename_i component
    rw [if_neg component] at short
    have untimed : timed body = 6 := by simp [timed, component]
    rw [untimed]
    split
    · exact ⟨_, rfl⟩
    · exact skip_components_error body _ _ _ (by omega) short

theorem parse_insert_ok (fits : insertSpan body ≤ body.length) : parseSpliceInsert body = .ok (insertFields body) := by
  have time := timed_ge body
  have loop := looped_ge body
  rw [insertSpan] at fits
  rw [parse_splice_insert_parts, insertFields]
  split at fits
  · rename_i cancelled
    rw [if_neg (by omega), if_pos cancelled, if_pos cancelled]
  · rename_i kept
    by_cases flagged : Insert.durationFlag body = true
    · rw [if_pos flagged] at fits
      rw [if_neg (by omega), if_neg kept, if_neg (by omega), if_neg kept, Insert.event,
        splice_time_ok body (by omega)]
      simp only [Except.bind]
      rw [component_loop_ok body (by omega)]
      simp only [Insert.breakDuration, if_pos flagged, if_neg (Nat.not_lt.mpr fits)]
      rfl
    · rw [if_neg flagged] at fits
      rw [if_neg (by omega), if_neg kept, if_neg (by omega), if_neg kept, Insert.event,
        splice_time_ok body (by omega)]
      simp only [Except.bind]
      rw [component_loop_ok body fits]
      simp only [Insert.breakDuration, if_neg flagged]
      rfl

theorem parse_insert_error (short : body.length < insertSpan body) :
    ∃ error, parseSpliceInsert body = .error error := by
  rw [parse_splice_insert_parts]
  split
  · exact ⟨_, rfl⟩
  · rename_i long
    rw [insertSpan] at short
    split
    · rename_i cancelled
      rw [if_pos cancelled] at short
      exact absurd short long
    · rename_i kept
      rw [if_neg kept] at short
      split
      · exact ⟨_, rfl⟩
      · rename_i flags
        rw [Insert.event]
        by_cases time : timed body ≤ body.length
        · rw [splice_time_ok body time]
          simp only [Except.bind]
          by_cases loop : looped body ≤ body.length
          · rw [component_loop_ok body loop]
            by_cases flagged : Insert.durationFlag body = true
            · rw [if_pos flagged] at short
              simp only [Insert.breakDuration, if_pos flagged, if_pos short]
              exact ⟨_, rfl⟩
            · rw [if_neg flagged] at short
              omega
          · obtain ⟨error, refused⟩ := component_loop_error body time (Nat.lt_of_not_le loop)
            rw [refused]
            exact ⟨error, rfl⟩
        · obtain ⟨error, refused⟩ := splice_time_error body (Nat.le_of_not_lt flags) (Nat.lt_of_not_le time)
          rw [refused]
          exact ⟨error, rfl⟩

variable (commandType : UInt8) (encrypted : Bool)

theorem parse_command_ok (fits : span commandType encrypted body ≤ body.length) :
    parseCommand commandType encrypted body = .ok (fields commandType encrypted body) := by
  rw [span] at fits
  rw [parseCommand, fields]
  split
  · rfl
  · rename_i plain
    rw [if_neg plain] at fits
    split
    · rename_i insert
      rw [if_pos insert] at fits
      rw [parse_insert_ok body fits]
      rfl
    · rename_i other
      rw [if_neg other] at fits
      split
      · rename_i signal
        rw [if_pos signal] at fits
        rw [parseSpliceTime, time_inline_ok body fits]
        rfl
      · rfl

theorem parse_command_error (short : body.length < span commandType encrypted body) :
    ∃ error, parseCommand commandType encrypted body = .error error := by
  rw [span] at short
  rw [parseCommand]
  split
  · rename_i hidden
    rw [if_pos hidden] at short
    exact absurd short (Nat.not_lt_zero _)
  · rename_i plain
    rw [if_neg plain] at short
    split
    · rename_i insert
      rw [if_pos insert] at short
      obtain ⟨error, refused⟩ := parse_insert_error body short
      rw [refused]
      exact ⟨error, rfl⟩
    · rename_i other
      rw [if_neg other] at short
      split
      · rename_i signal
        rw [if_pos signal] at short
        obtain ⟨error, refused⟩ := time_inline_error body short
        rw [parseSpliceTime, refused]
        exact ⟨error, rfl⟩
      · rename_i unread
        rw [if_neg unread] at short
        exact absurd short (Nat.not_lt_zero _)

theorem parse_command_ok_iff :
    (∃ parsed, parseCommand commandType encrypted body = .ok parsed) ↔
      span commandType encrypted body ≤ body.length := by
  constructor
  · rintro ⟨parsed, read⟩
    by_contra short
    obtain ⟨error, refused⟩ := parse_command_error body commandType encrypted (Nat.lt_of_not_le short)
    rw [refused] at read
    cases read
  · intro fits
    exact ⟨_, parse_command_ok body commandType encrypted fits⟩

end Reading

-- What follows the bytes a command asks for does not change what is read.
section Extending

variable (front rest : Bytes)

theorem drop_append_inside (count : Nat) (inside : count ≤ front.length) :
    (front ++ rest).drop count = front.drop count ++ rest :=
  List.drop_append_of_le_length inside

theorem thirty_three_bits_extend (long : 5 ≤ front.length) : thirtyThreeBits (front ++ rest) = thirtyThreeBits front := by
  have tail : ((front ++ rest).drop 1).take 4 = (front.drop 1).take 4 := by
    rw [drop_append_inside front rest 1 (by omega), List.take_append_of_le_length (by rw [List.length_drop]; omega)]
  rw [thirtyThreeBits, byte_of_append_left front rest 0 (by omega), tail, thirtyThreeBits]

theorem time_span_extend (nonempty : 1 ≤ front.length) : timeSpan (front ++ rest) = timeSpan front := by
  rw [timeSpan, byte_of_append_left front rest 0 nonempty, timeSpan]

theorem time_pts_extend (fits : timeSpan front ≤ front.length) : timePts (front ++ rest) = timePts front := by
  have positive := time_span_pos front
  rw [timePts, byte_of_append_left front rest 0 (by omega), timePts]
  rw [timeSpan] at fits
  split
  · rfl
  · rename_i specified
    rw [if_neg specified] at fits
    rw [thirty_three_bits_extend front rest fits]

theorem components_span_extend (immediate : Bool) (count cursor : Nat)
    (fits : componentsSpan front immediate count cursor ≤ front.length ∨
      componentsSpan (front ++ rest) immediate count cursor ≤ front.length) :
    componentsSpan (front ++ rest) immediate count cursor = componentsSpan front immediate count cursor := by
  induction count generalizing cursor with
  | zero => rfl
  | succ count ih =>
      rw [componentsSpan, componentsSpan] at fits ⊢
      by_cases untimed : immediate = true
      · rw [if_pos untimed, if_pos untimed] at fits ⊢
        exact ih (cursor + 1) fits
      · rw [if_neg untimed, if_neg untimed] at fits ⊢
        have inside : cursor + 2 ≤ front.length := by
          rcases fits with own | extended
          · have later := components_span_ge front immediate count (cursor + 1 + timeSpan (front.drop (cursor + 1)))
            have positive := time_span_pos (front.drop (cursor + 1))
            omega
          · have later := components_span_ge (front ++ rest) immediate count
              (cursor + 1 + timeSpan ((front ++ rest).drop (cursor + 1)))
            have positive := time_span_pos ((front ++ rest).drop (cursor + 1))
            omega
        have time : timeSpan ((front ++ rest).drop (cursor + 1)) = timeSpan (front.drop (cursor + 1)) := by
          rw [drop_append_inside front rest (cursor + 1) (by omega),
            time_span_extend _ _ (by rw [List.length_drop]; omega)]
        rw [time] at fits ⊢
        exact ih _ fits

theorem insert_flags_extend (long : 6 ≤ front.length) :
    Insert.program (front ++ rest) = Insert.program front ∧
      Insert.durationFlag (front ++ rest) = Insert.durationFlag front ∧
      Insert.immediate (front ++ rest) = Insert.immediate front := by
  have flags := byte_of_append_left front rest 5 (by omega)
  simp only [Insert.program, Insert.durationFlag, Insert.immediate, flags, and_self]

theorem timed_extend (fits : timed front ≤ front.length ∨ timed (front ++ rest) ≤ front.length) :
    timed (front ++ rest) = timed front := by
  have long : 6 ≤ front.length := by
    have own := timed_ge front
    have extended := timed_ge (front ++ rest)
    omega
  obtain ⟨program, -, immediate⟩ := insert_flags_extend front rest long
  rw [timed, timed, program, immediate] at fits ⊢
  split
  · rename_i present
    rw [if_pos present, if_pos present] at fits
    have inside : 7 ≤ front.length := by
      have own := time_span_pos (front.drop 6)
      have extended := time_span_pos ((front ++ rest).drop 6)
      omega
    rw [drop_append_inside front rest 6 (by omega), time_span_extend _ _ (by rw [List.length_drop]; omega)]
  · rfl

theorem looped_extend (fits : looped front ≤ front.length ∨ looped (front ++ rest) ≤ front.length) :
    looped (front ++ rest) = looped front := by
  have own := looped_ge front
  have extended := looped_ge (front ++ rest)
  have time := timed_extend front rest (by omega)
  have least := timed_ge front
  obtain ⟨program, -, immediate⟩ := insert_flags_extend front rest (by omega)
  rw [looped, looped, program, immediate] at fits ⊢
  split
  · exact time
  · rename_i component
    rw [if_neg component, if_neg component] at fits
    have counted := components_span_ge front (Insert.immediate front) (byteOf front 6).toNat 7
    have countedToo := components_span_ge (front ++ rest) (Insert.immediate front) (byteOf (front ++ rest) 6).toNat 7
    have count := byte_of_append_left front rest 6 (by omega)
    rw [count] at fits ⊢
    exact components_span_extend front rest _ _ _ fits

theorem insert_span_extend (fits : insertSpan front ≤ front.length ∨ insertSpan (front ++ rest) ≤ front.length) :
    insertSpan (front ++ rest) = insertSpan front := by
  have least (body : Bytes) : 5 ≤ insertSpan body := by
    have time := timed_ge body
    have loop := looped_ge body
    rw [insertSpan]
    split
    · exact Nat.le_refl 5
    · split
      · omega
      · omega
  have own := least front
  have extended := least (front ++ rest)
  have cancel := byte_of_append_left front rest 4 (by omega)
  rw [insertSpan, insertSpan, cancel] at fits ⊢
  split
  · rfl
  · rename_i kept
    rw [if_neg kept, if_neg kept] at fits
    have long : 6 ≤ front.length := by
      have loop := looped_ge front
      have loopToo := looped_ge (front ++ rest)
      have time := timed_ge front
      have timeToo := timed_ge (front ++ rest)
      split at fits
      · split at fits
        · omega
        · omega
      · split at fits
        · omega
        · omega
    obtain ⟨-, duration, -⟩ := insert_flags_extend front rest long
    rw [duration] at fits ⊢
    split
    · rename_i flagged
      rw [if_pos flagged, if_pos flagged] at fits
      rw [looped_extend front rest (by omega)]
    · rename_i unflagged
      rw [if_neg unflagged, if_neg unflagged] at fits
      exact looped_extend front rest fits

theorem insert_fields_extend (fits : insertSpan front ≤ front.length) :
    insertFields (front ++ rest) = insertFields front := by
  rw [insertSpan] at fits
  have time := timed_ge front
  have loop := looped_ge front
  have long : 5 ≤ front.length := by
    split at fits
    · exact fits
    · split at fits
      · omega
      · omega
  have id : (front ++ rest).take 4 = front.take 4 := List.take_append_of_le_length (by omega)
  have cancel := byte_of_append_left front rest 4 (by omega)
  rw [insertFields, insertFields, cancel, id]
  split
  · rfl
  · rename_i kept
    rw [if_neg kept] at fits
    have inside : looped front ≤ front.length := by
      split at fits
      · omega
      · exact fits
    obtain ⟨program, duration, immediate⟩ := insert_flags_extend front rest (by omega)
    have flags := byte_of_append_left front rest 5 (by omega)
    have ends := looped_extend front rest (Or.inl inside)
    have pts : (if Insert.program front && !Insert.immediate front then timePts ((front ++ rest).drop 6) else none) =
        if Insert.program front && !Insert.immediate front then timePts (front.drop 6) else none := by
      split
      · rename_i present
        rw [timed, if_pos present] at time loop
        rw [drop_append_inside front rest 6 (by omega), time_pts_extend _ _ (by rw [List.length_drop]; omega)]
      · rfl
    have value : (if Insert.durationFlag front then some (thirtyThreeBits ((front ++ rest).drop (looped front))) else none) =
        if Insert.durationFlag front then some (thirtyThreeBits (front.drop (looped front))) else none := by
      split
      · rename_i flagged
        rw [if_pos flagged] at fits
        rw [drop_append_inside front rest _ inside, thirty_three_bits_extend _ _ (by rw [List.length_drop]; omega)]
      · rfl
    rw [program, duration, immediate, flags, ends, pts, value]

variable (commandType : UInt8) (encrypted : Bool)

theorem span_extend (fits : span commandType encrypted front ≤ front.length ∨
    span commandType encrypted (front ++ rest) ≤ front.length) :
    span commandType encrypted (front ++ rest) = span commandType encrypted front := by
  rw [span, span] at fits ⊢
  split
  · rfl
  · rename_i plain
    rw [if_neg plain, if_neg plain] at fits
    split
    · rename_i insert
      rw [if_pos insert, if_pos insert] at fits
      exact insert_span_extend front rest fits
    · rename_i other
      rw [if_neg other, if_neg other] at fits
      split
      · rename_i signal
        rw [if_pos signal, if_pos signal] at fits
        have own := time_span_pos front
        have extended := time_span_pos (front ++ rest)
        exact time_span_extend front rest (by omega)
      · rfl

theorem fields_extend (fits : span commandType encrypted front ≤ front.length) :
    fields commandType encrypted (front ++ rest) = fields commandType encrypted front := by
  rw [span] at fits
  rw [fields, fields]
  split
  · rfl
  · rename_i plain
    rw [if_neg plain] at fits
    split
    · rename_i insert
      rw [if_pos insert] at fits
      rw [insert_fields_extend front rest fits]
    · rename_i other
      rw [if_neg other] at fits
      split
      · rename_i signal
        rw [if_pos signal] at fits
        rw [time_pts_extend front rest fits]
      · rfl

end Extending

-- The bytes a section gives its command; a length of 0xFFF gives it all but the
-- descriptor loop's own length.
def ownLength (bytes : Bytes) : Nat := if commandLength bytes = 0xFFF then crcOffset bytes - 16 else commandLength bytes

def ownCommand (bytes : Bytes) : Bytes := (bytes.drop 14).take (ownLength bytes)

def SpliceInfo.fields (parsed : SpliceInfo) : CommandFields :=
  ⟨parsed.eventId, parsed.cancel, parsed.outOfNetwork, parsed.pts, parsed.duration⟩

structure SameCommand (bytes other : Bytes) : Prop where
  header : other.take 14 = bytes.take 14
  command : ownCommand other = ownCommand bytes
  whole : totalLen bytes ≤ other.length

-- What an accepted section promises: the mandatory fields fit, the command fits the
-- bytes it was given, and whatever follows them the fields come out the same.
structure Strict (bytes : Bytes) (parsed : SpliceInfo) : Prop where
  mandatory : 17 + ownLength bytes ≤ sectionLength bytes
  body : ∃ fields, parseCommand (byteOf bytes 13) (encrypted bytes) (ownCommand bytes) = .ok fields
  own : ∀ other, SameCommand bytes other → computedCrc other = wireCrc other →
    ∃ otherParsed, parseSpliceInfoSection other = .ok otherParsed ∧ otherParsed.fields = parsed.fields

def commandSpan (bytes : Bytes) : Nat := span (byteOf bytes 13) (encrypted bytes) (commandBody bytes)

structure Acceptable (bytes : Bytes) : Prop where
  framed : Framed bytes
  crc : computedCrc bytes = wireCrc bytes
  ends : cmdEnd bytes ≤ crcOffset bytes
  read : commandSpan bytes ≤ (commandBody bytes).length

-- Two bytes are left between the command and the CRC, and the command's flags ask
-- for no more than it was given.
structure Roomy (bytes : Bytes) : Prop where
  descriptors : cmdEnd bytes + 2 ≤ crcOffset bytes
  covered : commandSpan bytes ≤ ownLength bytes

theorem accepted_iff (bytes : Bytes) : (∃ parsed, parseSpliceInfoSection bytes = .ok parsed) ↔ Acceptable bytes := by
  simp only [parse_ok_iff]
  constructor
  · rintro ⟨parsed, framed, crc, ends, fields, read, -⟩
    exact ⟨framed, crc, ends, (parse_command_ok_iff _ _ _).mp ⟨fields, read⟩⟩
  · rintro ⟨framed, crc, ends, read⟩
    obtain ⟨fields, read⟩ := (parse_command_ok_iff _ _ _).mpr read
    exact ⟨_, framed, crc, ends, fields, read, rfl⟩

section Strictness

variable {bytes : Bytes}

theorem roomy_end (roomy : Roomy bytes) : 14 + ownLength bytes + 2 ≤ crcOffset bytes := by
  have descriptors := roomy.descriptors
  rw [cmdEnd] at descriptors
  rw [ownLength]
  split
  · rename_i legacy
    rw [if_pos legacy] at descriptors
    omega
  · rename_i given
    rw [if_neg given] at descriptors
    omega

theorem command_body_split (bytes : Bytes) (whole : totalLen bytes ≤ bytes.length)
    (ends : 14 + ownLength bytes ≤ crcOffset bytes) :
    (ownCommand bytes).length = ownLength bytes ∧ ∃ rest, commandBody bytes = ownCommand bytes ++ rest := by
  have crc : crcOffset bytes ≤ bytes.length := Nat.le_trans (Nat.sub_le _ _) whole
  have handed : commandBody bytes = (bytes.drop 14).take (crcOffset bytes - 14) := List.drop_take
  constructor
  · rw [ownCommand, List.length_take, List.length_drop]
    omega
  · have sizes : crcOffset bytes - 14 = ownLength bytes + (crcOffset bytes - 14 - ownLength bytes) := by omega
    rw [handed, sizes, List.take_add]
    exact ⟨_, rfl⟩

theorem body_iff (framed : Framed bytes) (ends : 14 + ownLength bytes ≤ crcOffset bytes) :
    (∃ fields, parseCommand (byteOf bytes 13) (encrypted bytes) (ownCommand bytes) = .ok fields) ↔
      commandSpan bytes ≤ ownLength bytes := by
  obtain ⟨size, rest, handed⟩ := command_body_split bytes framed.whole ends
  rw [parse_command_ok_iff, commandSpan, handed, size]
  constructor
  · intro fits
    rwa [span_extend _ rest _ _ (Or.inl (by rwa [size]))]
  · intro fits
    rwa [← span_extend _ rest _ _ (Or.inr (by rwa [size]))]

theorem same_byte {other : Bytes} (same : SameCommand bytes other) (index : Nat) (inside : index < 14) :
    byteOf other index = byteOf bytes index := by
  rw [← byte_of_take other 14 index inside, same.header, byte_of_take bytes 14 index inside]

theorem same_section_length {other : Bytes} (same : SameCommand bytes other) :
    sectionLength other = sectionLength bytes := by
  rw [sectionLength, same_byte same 1 (by decide), same_byte same 2 (by decide), sectionLength]

theorem same_command_length {other : Bytes} (same : SameCommand bytes other) :
    commandLength other = commandLength bytes := by
  rw [commandLength, same_byte same 11 (by decide), same_byte same 12 (by decide), commandLength]

theorem same_crc_offset {other : Bytes} (same : SameCommand bytes other) : crcOffset other = crcOffset bytes := by
  rw [crcOffset, totalLen, same_section_length same, crcOffset, totalLen]

theorem same_own_length {other : Bytes} (same : SameCommand bytes other) : ownLength other = ownLength bytes := by
  rw [ownLength, same_command_length same, same_crc_offset same, ownLength]

theorem same_framed {other : Bytes} (same : SameCommand bytes other) (framed : Framed bytes) : Framed other := by
  have whole := same.whole
  have room := framed.room
  rw [totalLen] at whole
  constructor
  · omega
  · rw [same_byte same 0 (by decide)]
    exact framed.table
  · rw [totalLen, same_section_length same]
    exact whole
  · rw [same_section_length same]
    exact room

theorem strict_of_roomy (framed : Framed bytes) (roomy : Roomy bytes) (parsed : SpliceInfo)
    (accepted : parseSpliceInfoSection bytes = .ok parsed) : Strict bytes parsed := by
  have ends := roomy_end roomy
  obtain ⟨size, rest, handed⟩ := command_body_split bytes framed.whole (by omega)
  obtain ⟨fields, read⟩ := (body_iff framed (by omega)).mpr roomy.covered
  have fits : span (byteOf bytes 13) (encrypted bytes) (ownCommand bytes) ≤ (ownCommand bytes).length :=
    (parse_command_ok_iff _ _ _).mp ⟨fields, read⟩
  have found (tail : Bytes) : parseCommand (byteOf bytes 13) (encrypted bytes) (ownCommand bytes ++ tail) =
      .ok (Command.fields (byteOf bytes 13) (encrypted bytes) (ownCommand bytes)) := by
    have extended := span_extend _ tail _ _ (Or.inl fits)
    rw [parse_command_ok _ _ _ (by rw [extended, List.length_append]; omega), fields_extend _ tail _ _ fits]
  refine ⟨?_, ⟨fields, read⟩, ?_⟩
  · have room := framed.room
    rw [crcOffset, totalLen] at ends
    omega
  · intro other same crc
    have otherFramed := same_framed same framed
    have otherEnds : 14 + ownLength other ≤ crcOffset other := by
      rw [same_own_length same, same_crc_offset same]
      omega
    obtain ⟨-, otherRest, otherHanded⟩ := command_body_split other otherFramed.whole otherEnds
    have otherEncrypted : encrypted other = encrypted bytes := by
      rw [encrypted, same_byte same 4 (by decide), encrypted]
    have otherRead : command other = .ok (Command.fields (byteOf bytes 13) (encrypted bytes) (ownCommand bytes)) := by
      rw [command, otherHanded, same.command, same_byte same 13 (by decide), otherEncrypted, found]
    have inside : cmdEnd other ≤ crcOffset other := by
      have descriptors := roomy.descriptors
      rw [cmdEnd, same_command_length same, same_crc_offset same, ← cmdEnd]
      omega
    obtain ⟨-, -, -, own, ownRead, rfl⟩ := (parse_ok_iff bytes parsed).mp accepted
    rw [command, handed, found] at ownRead
    cases ownRead
    exact ⟨_, (parse_ok_iff other _).mpr ⟨otherFramed, crc, inside, _, otherRead, rfl⟩, rfl⟩

theorem roomy_of_strict (framed : Framed bytes) (parsed : SpliceInfo) (strict : Strict bytes parsed) : Roomy bytes := by
  have mandatory := strict.mandatory
  have room : 14 + ownLength bytes + 2 ≤ crcOffset bytes := by
    rw [crcOffset, totalLen]
    omega
  refine ⟨?_, (body_iff framed (by omega)).mp strict.body⟩
  rw [cmdEnd]
  split
  · omega
  · rename_i given
    rw [ownLength, if_neg given] at room
    exact room

end Strictness

theorem strict_iff_roomy (bytes : Bytes) :
    (∀ parsed, parseSpliceInfoSection bytes = .ok parsed → Strict bytes parsed) ↔ (Acceptable bytes → Roomy bytes) := by
  rw [← accepted_iff]
  constructor
  · rintro strict ⟨parsed, accepted⟩
    exact roomy_of_strict (framed_of_ok bytes parsed accepted) parsed (strict parsed accepted)
  · intro roomy parsed accepted
    exact strict_of_roomy (framed_of_ok bytes parsed accepted) (roomy ⟨parsed, accepted⟩) parsed accepted

-- A time_signal of no bytes at all: its time is read out of what follows.
def emptyTimeSignal : Bytes :=
  [0xFC, 0x30, 0x16, 0, 0, 0, 0, 0, 0, 0, 0xFF, 0xF0, 0, 0x06, 0xFE, 0, 0, 0, 7, 0, 0, 0x43, 0x04, 0x03, 0xE8]

theorem time_read_past_command : ¬ ∀ bytes parsed, parseSpliceInfoSection bytes = .ok parsed → Strict bytes parsed := by
  intro strict
  have accepted : parseSpliceInfoSection emptyTimeSignal =
      .ok ⟨CMD_TIME_SIGNAL, 0, some 7, none, none, false, false, emptyTimeSignal⟩ := by decide +kernel
  obtain ⟨fields, read⟩ := (strict _ _ accepted).body
  have refused : parseCommand (byteOf emptyTimeSignal 13) (encrypted emptyTimeSignal) (ownCommand emptyTimeSignal) =
      .error (.endOfStream 1 0) := by decide
  rw [refused] at read
  cases read

end Lvqr.Codec
