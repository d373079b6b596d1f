import Lvqr.Lib.Checked
import Lvqr.Rtmp.AudioInit

set_option autoImplicit false

-- The AudioSpecificConfig of an audio init segment, by a walk down its boxes and the
-- descriptors in the last of them.
namespace Lvqr.Whisper

open Checked (Halt Returns Safe add sub slice refused panicked)
open Cmaf (fourCc)

def BOX_HEADER_LEN : Nat := 8

-- The values of a usize.
def usize : Nat := 2 ^ 64

-- The size and the type of the box at the cursor, which lies in the payload.
def boxAt (payload : Bytes) (cursor : Nat) : Except Halt (Nat × Bytes) := do
  let size ← slice cursor (← add usize cursor 4) payload
  let boxType ← slice (← add usize cursor 4) (← add usize cursor BOX_HEADER_LEN) payload
  if BigEndian.value size < BOX_HEADER_LEN then refused
  else if (← sub payload.length cursor) < BigEndian.value size then refused
  else return (BigEndian.value size, boxType)

theorem box_at_size (payload : Bytes) (cursor size : Nat) (boxType : Bytes)
    (found : boxAt payload cursor = .ok (size, boxType)) : 0 < size := by
  have sized : Returns (boxAt payload cursor) fun box => 0 < box.1 := by
    refine (Checked.returns_any _).bind fun _ _ => (Checked.returns_any _).bind fun size _ =>
      (Checked.returns_any _).bind fun _ _ => (Checked.returns_any _).bind fun _ _ =>
      (Checked.returns_any _).bind fun boxType _ => ?_
    refine Checked.returns_if (fun _ => Checked.returns_refused) fun long => ?_
    refine (Checked.returns_any _).bind fun _ _ => ?_
    refine Checked.returns_if (fun _ => Checked.returns_refused) fun _ => Checked.returns_ok _ ?_
    unfold BOX_HEADER_LEN at long
    dsimp only
    omega
  exact sized _ found

-- The loop of `descend` and both loops of `extract_asc`: where the first box of a kind
-- stands, and its size.
def locate (kind : Bytes) (payload : Bytes) (cursor : Nat) : Except Halt (Nat × Nat) :=
  match _start : add usize cursor BOX_HEADER_LEN with
  | .error halt => .error halt
  | .ok header =>
      if _inside : header ≤ payload.length then
        match _found : boxAt payload cursor with
        | .error halt => .error halt
        | .ok (size, boxType) =>
            if boxType = kind then .ok (cursor, size)
            else
              match _next : add usize cursor size with
              | .error halt => .error halt
              | .ok next => locate kind payload next
      else refused
termination_by payload.length - cursor
decreasing_by
  have size := box_at_size payload cursor _ _ _found
  have header := Checked.add_returns _ _ _ _ _start
  have next := Checked.add_returns _ _ _ _ _next
  unfold BOX_HEADER_LEN at header
  omega

theorem locate_bind (kind payload : Bytes) (cursor : Nat) : locate kind payload cursor =
    add usize cursor BOX_HEADER_LEN >>= fun header =>
      if header ≤ payload.length then
        boxAt payload cursor >>= fun box =>
          if box.2 = kind then .ok (cursor, box.1) else add usize cursor box.1 >>= locate kind payload
      else refused := by
  rw [locate]
  split
  · rename_i start
    rw [start]
    rfl
  · rename_i header start
    rw [start]
    dsimp only [bind, Except.bind]
    split
    · split
      · rename_i found
        rw [found]
      · rename_i size boxType found
        rw [found]
        dsimp only
        split
        · rfl
        · split
          · rename_i next
            rw [next]
          · rename_i next
            rw [next]
    · rfl

def firstBody (kind : Bytes) (payload : Bytes) : Except Halt Bytes := do
  let (cursor, size) ← locate kind payload 0
  slice (← add usize cursor BOX_HEADER_LEN) (← add usize cursor size) payload

def descend (payload : Bytes) : List String → Except Halt Bytes
  | [] => .ok payload
  | kind :: path => do descend (← firstBody (fourCc kind) payload) path

-- At most four bytes of seven bits each; the list is the buffer from the source's `idx`.
def readDescriptorLengthFrom (idx length : Nat) : Bytes → Option (Nat × Nat)
  | [] => none
  | byte :: rest =>
      let length := length * 2 ^ 7 + byte.toNat % 2 ^ 7
      if byte.toNat < 2 ^ 7 then some (length, idx + 1) else readDescriptorLengthFrom (idx + 1) length rest

def readDescriptorLength (buf : Bytes) : Option (Nat × Nat) := readDescriptorLengthFrom 0 0 (buf.take 4)

-- The payload of the descriptor in front, if it has the tag, or what is behind it.
def descriptorAt (body : Bytes) (targetTag : UInt8) : Except Halt (Bytes ⊕ Bytes) := do
  let tag ← slice 0 1 body
  match readDescriptorLength (← slice 1 body.length body) with
  | none => refused
  | some (len, consumed) =>
      let payloadStart ← add usize 1 consumed
      let payloadEnd ← add usize payloadStart len
      if body.length < payloadEnd then refused
      else if tag = [targetTag] then return .inl (← slice payloadStart payloadEnd body)
      else return .inr (← slice payloadEnd body.length body)

theorem descriptor_at_shorter (body rest : Bytes) (targetTag : UInt8)
    (passed : descriptorAt body targetTag = .ok (.inr rest)) (more : body ≠ []) : rest.length < body.length := by
  have shorter : Returns (descriptorAt body targetTag) fun step =>
      ∀ rest, step = .inr rest → rest.length < body.length := by
    refine (Checked.returns_any _).bind fun tag _ => (Checked.returns_any _).bind fun lengthBytes _ => ?_
    cases readDescriptorLength lengthBytes with
    | none => exact Checked.returns_refused
    | some length =>
        refine (Checked.add_returns _ _ _).bind fun payloadStart begins => ?_
        refine (Checked.add_returns _ _ _).bind fun payloadEnd ends => ?_
        refine Checked.returns_if (fun _ => Checked.returns_refused) fun inside => ?_
        refine Checked.returns_if (fun _ => ?_) fun _ => ?_
        · exact (Checked.returns_any _).bind fun payload _ => Checked.returns_ok _ nofun
        · refine (Checked.slice_returns _ _ _).bind fun behind size => Checked.returns_ok _ fun rest same => ?_
          obtain rfl := Sum.inr.inj same
          have present := List.length_pos_iff.mpr more
          omega
  exact shorter _ passed rest rfl

def walkDescriptors (body : Bytes) (targetTag : UInt8) : Except Halt Bytes :=
  if _more : body = [] then refused
  else
    match _passed : descriptorAt body targetTag with
    | .error halt => .error halt
    | .ok (.inl payload) => .ok payload
    | .ok (.inr rest) => walkDescriptors rest targetTag
termination_by body.length
decreasing_by exact descriptor_at_shorter body rest targetTag _passed _more

theorem walk_bind (body : Bytes) (targetTag : UInt8) : walkDescriptors body targetTag =
    if body = [] then refused
    else descriptorAt body targetTag >>= Sum.elim .ok fun rest => walkDescriptors rest targetTag := by
  rw [walkDescriptors]
  split
  · rfl
  · split
    · rename_i passed
      rw [passed]
      rfl
    · rename_i passed
      rw [passed]
      rfl
    · rename_i passed
      rw [passed]
      rfl

def findDescriptor (body : Bytes) (targetTag : UInt8) (skipPrefix : Nat) : Except Halt Bytes := do
  if body.length < skipPrefix then refused
  else walkDescriptors (← slice skipPrefix body.length body) targetTag

def extractAsc (initSegment : Bytes) : Except Halt Bytes := do
  let stsd ← descend initSegment ["moov", "trak", "mdia", "minf", "stbl", "stsd"]
  if stsd.length < 8 then refused
  else
    let entries ← slice 8 stsd.length stsd
    let mp4a ← firstBody (fourCc "mp4a") entries
    if mp4a.length < 28 then refused
    else
      let afterPreamble ← slice 28 mp4a.length mp4a
      let (cursor, size) ← locate (fourCc "esds") afterPreamble 0
      let bodyStart ← add usize (← add usize cursor BOX_HEADER_LEN) 4
      let bodyEnd ← add usize cursor size
      if bodyEnd < bodyStart then refused
      else
        let es ← findDescriptor (← slice bodyStart bodyEnd afterPreamble) 0x03 0
        let config ← findDescriptor es 0x04 3
        findDescriptor config 0x05 13

def isizeMax : Nat := 2 ^ 63 - 1

-- A slice in memory is shorter than half of what a usize counts.
structure Buffer where
  bytes : Bytes
  small : bytes.length ≤ isizeMax

section Bounds

variable (payload : Bytes) (small : payload.length ≤ isizeMax)

include small

theorem usize_room (count : Nat) (near : count ≤ payload.length + 12) : count < usize := by
  unfold isizeMax at small
  unfold usize
  omega

theorem header_ok (cursor : Nat) (near : cursor ≤ payload.length) :
    add usize cursor BOX_HEADER_LEN = .ok (cursor + 8) :=
  Checked.add_ok _ _ _ (usize_room payload small _ (by unfold BOX_HEADER_LEN; omega))

theorem header_safe (cursor : Nat) (near : cursor ≤ payload.length) :
    Safe (add usize cursor BOX_HEADER_LEN) (· = cursor + 8) := by
  rw [header_ok payload small cursor near]
  exact Checked.safe_ok _ rfl

theorem box_at_safe (cursor : Nat) (inside : cursor + BOX_HEADER_LEN ≤ payload.length) :
    Safe (boxAt payload cursor) fun box => BOX_HEADER_LEN ≤ box.1 ∧ cursor + box.1 ≤ payload.length := by
  have room := usize_room payload small
  unfold BOX_HEADER_LEN at inside
  refine (Checked.add_safe usize cursor 4 (room _ (by omega))).bind fun sizeEnd isEnd => ?_
  refine (Checked.slice_safe cursor sizeEnd payload (by omega) (by omega)).bind fun size _ => ?_
  refine (Checked.add_safe usize cursor 4 (room _ (by omega))).bind fun typeStart isStart => ?_
  refine (header_safe payload small cursor (by omega)).bind fun typeEnd isTypeEnd => ?_
  refine (Checked.slice_safe typeStart typeEnd payload (by omega) (by omega)).bind fun boxType _ => ?_
  refine Checked.safe_if (fun _ => Checked.safe_refused) fun long => ?_
  refine (Checked.sub_safe payload.length cursor (by omega)).bind fun left isLeft => ?_
  refine Checked.safe_if (fun _ => Checked.safe_refused) fun fits => Checked.safe_ok _ ⟨Nat.not_lt.mp long, ?_⟩
  dsimp only
  omega

theorem locate_safe (kind : Bytes) (cursor : Nat) (inside : cursor ≤ payload.length) :
    Safe (locate kind payload cursor) fun found => BOX_HEADER_LEN ≤ found.2 ∧ found.1 + found.2 ≤ payload.length := by
  induction behind : payload.length - cursor using Nat.strong_induction_on generalizing cursor with
  | _ behind ih =>
      rw [locate_bind]
      refine (header_safe payload small cursor inside).bind fun header isHeader => ?_
      refine Checked.safe_if (fun long => ?_) fun _ => Checked.safe_refused
      rw [isHeader] at long
      refine (box_at_safe payload small cursor long).bind fun box ⟨sized, fits⟩ => ?_
      refine Checked.safe_if (fun _ => Checked.safe_ok _ ⟨sized, fits⟩) fun _ => ?_
      refine (Checked.add_safe usize cursor box.1 (usize_room payload small _ (by omega))).bind fun next isNext => ?_
      unfold BOX_HEADER_LEN at sized
      exact ih (payload.length - next) (by omega) next (by omega) rfl

theorem first_body_safe (kind : Bytes) : Safe (firstBody kind payload) fun body => body.length ≤ payload.length := by
  refine (locate_safe payload small kind 0 (Nat.zero_le _)).bind fun found ⟨sized, fits⟩ => ?_
  unfold BOX_HEADER_LEN at sized
  refine (header_safe payload small found.1 (by omega)).bind fun bodyStart isStart => ?_
  refine (Checked.add_safe _ _ _ (usize_room payload small _ (by omega))).bind fun bodyEnd isEnd => ?_
  have inside := Checked.slice_safe bodyStart bodyEnd payload (by omega) (by omega)
  refine ⟨inside.calm, fun body found => ?_⟩
  have length := inside.returns body found
  omega

end Bounds

theorem descend_safe (payload : Bytes) (small : payload.length ≤ isizeMax) (path : List String) :
    Safe (descend payload path) fun body => body.length ≤ payload.length := by
  induction path generalizing payload with
  | nil => exact Checked.safe_ok _ (Nat.le_refl _)
  | cons kind path ih =>
      refine (first_body_safe payload small (fourCc kind)).bind fun body shorter => ?_
      have below := ih body (Nat.le_trans shorter small)
      exact ⟨below.calm, fun last found => Nat.le_trans (below.returns last found) shorter⟩

theorem descriptor_length_bound (idx length : Nat) (buf : Bytes) (len consumed : Nat) (short : idx + buf.length ≤ 4)
    (bound : length < 2 ^ (7 * idx)) (read : readDescriptorLengthFrom idx length buf = some (len, consumed)) :
    len < 2 ^ 28 ∧ consumed ≤ idx + buf.length := by
  induction buf generalizing idx length with
  | nil => cases read
  | cons byte rest ih =>
      rw [List.length_cons] at short
      have grown : length * 2 ^ 7 + byte.toNat % 2 ^ 7 < 2 ^ (7 * (idx + 1)) := by
        have low : byte.toNat % 2 ^ 7 < 2 ^ 7 := Nat.mod_lt _ (by decide)
        have power : 2 ^ (7 * (idx + 1)) = 2 ^ (7 * idx) * 2 ^ 7 := by rw [Nat.mul_add, Nat.pow_add]
        omega
      rw [readDescriptorLengthFrom] at read
      split at read
      · obtain ⟨rfl, rfl⟩ := Prod.mk.inj (Option.some.inj read)
        have most : 2 ^ (7 * (idx + 1)) ≤ 2 ^ 28 := Nat.pow_le_pow_right (by decide) (by omega)
        rw [List.length_cons]
        omega
      · have later := ih (idx + 1) _ (by omega) grown read
        rw [List.length_cons]
        omega

theorem descriptor_at_safe (body : Bytes) (targetTag : UInt8) (more : body ≠ []) :
    Safe (descriptorAt body targetTag) fun step => ∀ payload, step = .inl payload → payload.length ≤ body.length := by
  have present := List.length_pos_iff.mpr more
  refine (Checked.slice_safe 0 1 body (by decide) present).bind fun tag _ => ?_
  refine (Checked.slice_safe 1 body.length body present (Nat.le_refl _)).bind fun lengthBytes size => ?_
  cases read : readDescriptorLength lengthBytes with
  | none => exact Checked.safe_refused
  | some length =>
      have short : (lengthBytes.take 4).length ≤ 4 := List.length_take_le 4 _
      obtain ⟨bound, few⟩ := descriptor_length_bound 0 0 _ length.1 length.2 (by omega) (by decide) read
      refine (Checked.add_safe usize 1 length.2 (by unfold usize; omega)).bind fun payloadStart begins => ?_
      refine (Checked.add_safe usize payloadStart length.1 (by unfold usize; omega)).bind fun payloadEnd ends => ?_
      refine Checked.safe_if (fun _ => Checked.safe_refused) fun inside => ?_
      refine Checked.safe_if (fun _ => ?_) fun _ => ?_
      · refine (Checked.slice_safe payloadStart payloadEnd body (by omega) (by omega)).bind fun payload size =>
          Checked.safe_ok _ fun other same => ?_
        obtain rfl := Sum.inl.inj same
        omega
      · exact (Checked.slice_safe payloadEnd body.length body (by omega) (Nat.le_refl _)).bind fun rest _ =>
          Checked.safe_ok _ nofun

theorem walk_safe (body : Bytes) (targetTag : UInt8) :
    Safe (walkDescriptors body targetTag) fun payload => payload.length ≤ body.length := by
  induction size : body.length using Nat.strong_induction_on generalizing body with
  | _ size ih =>
      rw [walk_bind]
      refine Checked.safe_if (fun _ => Checked.safe_refused) fun more => ?_
      have here := descriptor_at_safe body targetTag more
      have passed : Returns (descriptorAt body targetTag) fun step =>
          (∀ payload, step = .inl payload → payload.length ≤ body.length) ∧
            ∀ rest, step = .inr rest → rest.length < body.length := fun step found =>
        ⟨here.returns step found, fun rest same => descriptor_at_shorter body rest targetTag (same ▸ found) more⟩
      refine (Safe.mk here.calm passed).bind fun step ⟨within, shorter⟩ => ?_
      cases step with
      | inl payload => exact Checked.safe_ok _ (size ▸ within payload rfl)
      | inr rest =>
          have later := ih rest.length (size ▸ shorter rest rfl) rest rfl
          refine ⟨later.calm, fun payload found => ?_⟩
          have bound := later.returns payload found
          have less := shorter rest rfl
          omega

theorem find_safe (body : Bytes) (targetTag : UInt8) (skipPrefix : Nat) :
    Safe (findDescriptor body targetTag skipPrefix) fun payload => payload.length ≤ body.length := by
  refine Checked.safe_if (fun _ => Checked.safe_refused) fun long => ?_
  refine (Checked.slice_safe skipPrefix body.length body (Nat.not_lt.mp long) (Nat.le_refl _)).bind fun rest size => ?_
  have walked := walk_safe rest targetTag
  refine ⟨walked.calm, fun payload found => ?_⟩
  have bound := walked.returns payload found
  omega

theorem extract_safe (initSegment : Bytes) (small : initSegment.length ≤ isizeMax) :
    Safe (extractAsc initSegment) fun _ => True := by
  refine (descend_safe initSegment small _).bind fun stsd shorter => ?_
  have stsdSmall : stsd.length ≤ isizeMax := Nat.le_trans shorter small
  refine Checked.safe_if (fun _ => Checked.safe_refused) fun long => ?_
  refine (Checked.slice_safe 8 stsd.length stsd (Nat.not_lt.mp long) (Nat.le_refl _)).bind fun entries size => ?_
  refine (first_body_safe entries (by omega) (fourCc "mp4a")).bind fun mp4a shorter => ?_
  refine Checked.safe_if (fun _ => Checked.safe_refused) fun long => ?_
  have preamble := Nat.not_lt.mp long
  refine (Checked.slice_safe 28 mp4a.length mp4a preamble (Nat.le_refl _)).bind fun afterPreamble length => ?_
  have near : afterPreamble.length ≤ isizeMax := by omega
  have room := usize_room afterPreamble near
  refine (locate_safe afterPreamble near (fourCc "esds") 0 (Nat.zero_le _)).bind fun found ⟨sized, fits⟩ => ?_
  unfold BOX_HEADER_LEN at sized
  refine (header_safe afterPreamble near found.1 (by omega)).bind fun header isHeader => ?_
  refine (Checked.add_safe usize header 4 (room _ (by omega))).bind fun bodyStart isStart => ?_
  refine (Checked.add_safe usize found.1 found.2 (room _ (by omega))).bind fun bodyEnd isEnd => ?_
  refine Checked.safe_if (fun _ => Checked.safe_refused) fun ordered => ?_
  refine (Checked.slice_safe bodyStart bodyEnd afterPreamble (by omega) (by omega)).bind fun descriptors _ => ?_
  refine (find_safe descriptors 0x03 0).bind fun es _ => ?_
  refine (find_safe es 0x04 3).bind fun config _ => ?_
  have specific := find_safe config 0x05 13
  exact ⟨specific.calm, Checked.returns_any _⟩

section Written

open Rtsp (box)
open Rtmp.Fmp4 (descriptor descriptorLength)

theorem box_at_written (kind : String) (payload front body rest : Bytes) (named : kind.toList.length = 4)
    (fits : 8 + body.length < 2 ^ 32) (small : payload.length ≤ isizeMax)
    (shape : payload = front ++ (box kind body ++ rest)) :
    boxAt payload front.length = .ok (8 + body.length, fourCc kind) := by
  have size : (BigEndian.bytes 4 (8 + body.length)).length = 4 := BigEndian.bytes_length 4 _
  have name : (fourCc kind).length = 4 := by rw [Cmaf.four_cc_length, named]
  have value : BigEndian.value (BigEndian.bytes 4 (8 + body.length)) = 8 + body.length := BigEndian.value_bytes 4 _ fits
  have atSize : payload = front ++ (BigEndian.bytes 4 (8 + body.length) ++ (fourCc kind ++ (body ++ rest))) := by
    rw [shape, box, List.append_assoc, List.append_assoc]
  have atName : payload = front ++ BigEndian.bytes 4 (8 + body.length) ++ (fourCc kind ++ (body ++ rest)) := by
    rw [atSize, List.append_assoc]
  have whole : payload.length = front.length + (8 + body.length) + rest.length := by
    rw [shape, List.length_append, List.length_append, Rtsp.box_length kind body named]
    omega
  have sizeRead := Checked.slice_within front (BigEndian.bytes 4 (8 + body.length)) (fourCc kind ++ (body ++ rest))
  have nameRead := Checked.slice_within (front ++ BigEndian.bytes 4 (8 + body.length)) (fourCc kind) (body ++ rest)
  rw [← atSize, size] at sizeRead
  rw [← atName, List.length_append, size, name] at nameRead
  have room := usize_room payload small
  have first : add usize front.length 4 = .ok (front.length + 4) := Checked.add_ok _ _ _ (room _ (by omega))
  have second : add usize front.length BOX_HEADER_LEN = .ok (front.length + 4 + 4) :=
    header_ok payload small _ (by omega)
  have left : sub payload.length front.length = .ok (payload.length - front.length) := Checked.sub_ok _ _ (by omega)
  have long : ¬ 8 + body.length < BOX_HEADER_LEN := by
    unfold BOX_HEADER_LEN
    omega
  simp only [boxAt, first, second, sizeRead, nameRead, value, left, bind, Except.bind, if_neg long]
  rw [if_neg (by omega)]
  rfl

def boxes (parts : List (String × Bytes)) : Bytes := parts.flatMap fun part => box part.1 part.2

theorem boxes_cons (part : String × Bytes) (parts : List (String × Bytes)) (rest : Bytes) :
    boxes (part :: parts) ++ rest = box part.1 part.2 ++ (boxes parts ++ rest) := by
  rw [boxes, List.flatMap_cons, List.append_assoc]
  rfl

-- What the walk steps over on its way to a kind.
structure Passes (kind : String) (part : String × Bytes) : Prop where
  named : part.1.toList.length = 4
  apart : fourCc part.1 ≠ fourCc kind
  fits : 8 + part.2.length < 2 ^ 32

theorem passes_box (kind name : String) (body : Bytes) (named : name.toList.length = 4)
    (apart : fourCc name ≠ fourCc kind) (fits : 8 + body.length < 2 ^ 32) : Passes kind (name, body) := ⟨named, apart, fits⟩

theorem locate_written (kind : String) (payload front : Bytes) (parts : List (String × Bytes)) (body rest : Bytes)
    (passes : ∀ part ∈ parts, Passes kind part) (named : kind.toList.length = 4) (fits : 8 + body.length < 2 ^ 32)
    (small : payload.length ≤ isizeMax) (shape : payload = front ++ (boxes parts ++ (box kind body ++ rest))) :
    locate (fourCc kind) payload front.length = .ok ((front ++ boxes parts).length, 8 + body.length) := by
  have room := usize_room payload small
  induction parts generalizing front with
  | nil =>
      have whole : payload.length = front.length + (8 + body.length) + rest.length := by
        rw [shape, List.length_append, boxes, List.flatMap_nil, List.nil_append, List.length_append,
          Rtsp.box_length kind body named]
        omega
      have header := header_ok payload small front.length (by omega)
      have here := box_at_written kind payload front body rest named fits small shape
      rw [locate_bind, header, Checked.ok_bind, if_pos (by omega), here, Checked.ok_bind, if_pos rfl, boxes,
        List.flatMap_nil, List.append_nil]
  | cons part parts ih =>
      obtain ⟨passed, passes⟩ := List.forall_mem_cons.mp passes
      have first : payload = front ++ (box part.1 part.2 ++ (boxes parts ++ (box kind body ++ rest))) := by
        rw [shape, boxes_cons]
      have behind : payload = front ++ box part.1 part.2 ++ (boxes parts ++ (box kind body ++ rest)) := by
        rw [first, List.append_assoc]
      have length := Rtsp.box_length part.1 part.2 passed.named
      have whole : front.length + (8 + part.2.length) ≤ payload.length := by
        rw [behind, List.length_append, List.length_append, length]
        omega
      have header := header_ok payload small front.length (by omega)
      have next : add usize front.length (8 + part.2.length) = .ok (front ++ box part.1 part.2).length := by
        rw [Checked.add_ok _ _ _ (room _ (by omega)), List.length_append, length]
      have here := box_at_written part.1 payload front part.2 _ passed.named passed.fits small first
      rw [locate_bind, header, Checked.ok_bind, if_pos (by omega), here, Checked.ok_bind, if_neg passed.apart, next,
        Checked.ok_bind, ih (front ++ box part.1 part.2) passes behind, boxes, boxes, List.flatMap_cons,
        List.append_assoc]

-- The body of the first box of a kind, behind boxes of other kinds.
theorem first_body_written (kind : String) (payload : Bytes) (parts : List (String × Bytes)) (body rest : Bytes)
    (passes : ∀ part ∈ parts, Passes kind part) (named : kind.toList.length = 4) (fits : 8 + body.length < 2 ^ 32)
    (small : payload.length ≤ isizeMax) (shape : payload = boxes parts ++ (box kind body ++ rest)) :
    firstBody (fourCc kind) payload = .ok body := by
  have found := locate_written kind payload [] parts body rest passes named fits small shape
  have header : (BigEndian.bytes 4 (8 + body.length) ++ fourCc kind).length = 8 := by
    rw [List.length_append, BigEndian.bytes_length, Cmaf.four_cc_length, named]
  have atBody : payload = boxes parts ++ (BigEndian.bytes 4 (8 + body.length) ++ fourCc kind) ++ (body ++ rest) := by
    rw [shape, box]
    simp only [List.append_assoc]
  have whole : payload.length = (boxes parts).length + 8 + (body.length + rest.length) := by
    rw [atBody, List.length_append, List.length_append, header, List.length_append]
  have room := usize_room payload small
  have bodyStart := header_ok payload small (boxes parts).length (by omega)
  have bodyEnd : add usize (boxes parts).length (8 + body.length) = .ok ((boxes parts).length + 8 + body.length) := by
    rw [Checked.add_ok _ _ _ (room _ (by omega)), Nat.add_assoc]
  have read := Checked.slice_within (boxes parts ++ (BigEndian.bytes 4 (8 + body.length) ++ fourCc kind)) body rest
  rw [← atBody, List.length_append, header] at read
  rw [List.nil_append] at found
  rw [firstBody]
  have start : locate (fourCc kind) payload 0 = .ok ((boxes parts).length, 8 + body.length) := found
  rw [start, Checked.ok_bind]
  dsimp only
  rw [bodyStart, Checked.ok_bind, bodyEnd, Checked.ok_bind, read]

theorem descriptor_length_written (size : Nat) (rest : Bytes) (fits : size < 2 ^ 28) :
    readDescriptorLength (descriptorLength size ++ rest) = some (size, 4) := by
  have four : (descriptorLength size ++ rest).take 4 = descriptorLength size := List.take_left' rfl
  have last : (UInt8.ofNat (size % 2 ^ 7)).toNat = size % 2 ^ 7 := by
    rw [UInt8.toNat_ofNat', Nat.mod_eq_of_lt (by omega)]
  have digits : (((size / 2 ^ 21 % 2 ^ 7) * 2 ^ 7 + size / 2 ^ 14 % 2 ^ 7) * 2 ^ 7 + size / 2 ^ 7 % 2 ^ 7) * 2 ^ 7 +
      size % 2 ^ 7 = size := by omega
  rw [readDescriptorLength, four]
  simp only [descriptorLength, readDescriptorLengthFrom, Rtmp.Fmp4.seven_bits, last]
  rw [if_neg (by omega), if_neg (by omega), if_neg (by omega), if_pos (by omega), Option.some_inj, Prod.mk.injEq]
  exact ⟨by omega, rfl⟩

theorem descriptor_at_written (tag : UInt8) (payload rest : Bytes) (fits : payload.length < 2 ^ 28) :
    descriptorAt (descriptor tag payload ++ rest) tag = .ok (.inl payload) := by
  have bytes : descriptor tag payload ++ rest = [tag] ++ (descriptorLength payload.length ++ (payload ++ rest)) := by
    rw [descriptor, List.cons_append, List.append_assoc]
    rfl
  have whole : (descriptor tag payload ++ rest).length = 5 + payload.length + rest.length := by
    rw [List.length_append, Rtmp.Fmp4.descriptor_length]
  have first : slice 0 1 (descriptor tag payload ++ rest) = .ok [tag] := by
    rw [bytes]
    exact Checked.slice_within [] [tag] _
  have behind : slice 1 (descriptor tag payload ++ rest).length (descriptor tag payload ++ rest) =
      .ok (descriptorLength payload.length ++ (payload ++ rest)) := by
    rw [bytes]
    exact Checked.slice_rest [tag] _
  have content : slice 5 (5 + payload.length) (descriptor tag payload ++ rest) = .ok payload := by
    rw [descriptor, List.cons_append, List.append_assoc]
    exact Checked.slice_within (tag :: descriptorLength payload.length) payload rest
  have payloadStart : add usize 1 4 = .ok 5 := rfl
  have payloadEnd : add usize 5 payload.length = .ok (5 + payload.length) :=
    Checked.add_ok _ _ _ (by unfold usize; omega)
  rw [descriptorAt, first, Checked.ok_bind, behind, Checked.ok_bind, descriptor_length_written _ _ fits]
  dsimp only
  rw [payloadStart, Checked.ok_bind, payloadEnd, Checked.ok_bind, if_neg (by omega), if_pos rfl, content]
  rfl

-- A descriptor behind the fields of its parent.
theorem find_written (tag : UInt8) (front payload rest : Bytes) (fits : payload.length < 2 ^ 28) :
    findDescriptor (front ++ (descriptor tag payload ++ rest)) tag front.length = .ok payload := by
  have present : descriptor tag payload ++ rest ≠ [] := List.cons_ne_nil _ _
  have long : ¬ (front ++ (descriptor tag payload ++ rest)).length < front.length := by
    rw [List.length_append]
    omega
  have behind := Checked.slice_rest front (descriptor tag payload ++ rest)
  rw [findDescriptor, if_neg long, behind, Checked.ok_bind, walk_bind, if_neg present, descriptor_at_written _ _ _ fits]
  rfl

theorem descend_step (kind : String) (payload body : Bytes) (path : List String)
    (found : firstBody (fourCc kind) payload = .ok body) : descend payload (kind :: path) = descend body path := by
  rw [descend, found, Checked.ok_bind]

end Written

section Init

open Rtsp (box)
open Rtmp (ftyp u32 emptyTables mvex)
open Rtmp.Fmp4 (AudioConfig audioInitSegment mvhdBody tkhdBody mdhdBody hdlrBody smhdBody moovBody trakBody mdiaBody
  minfBody stblBody mp4aBody sampleEntry descriptor esPayload decoderConfig)

-- The version and the flags in front of a body.
def full (flags : Nat) (body : Bytes) : Bytes := BigEndian.bytes 1 0 ++ (BigEndian.bytes 3 flags ++ body)

def brands : Bytes := fourCc "isom" ++ (u32 0 ++ (fourCc "isom" ++ (fourCc "iso6" ++ (fourCc "msdh" ++ fourCc "msix"))))

-- The entries behind the two fields of the stsd.
theorem entries_read (entries : Bytes) :
    slice 8 (full 0 (u32 1 ++ entries)).length (full 0 (u32 1 ++ entries)) = .ok entries := by
  have parts : full 0 (u32 1 ++ entries) = [0, 0, 0, 0, 0, 0, 0, 1] ++ entries := rfl
  rw [parts]
  exact Checked.slice_rest [0, 0, 0, 0, 0, 0, 0, 1] entries

theorem descriptors_read (descriptors : Bytes) :
    slice 12 (8 + (full 0 descriptors).length) (box "esds" (full 0 descriptors)) = .ok descriptors := by
  have header (size : Bytes) (four : size.length = 4) : (size ++ (fourCc "esds" ++ [0, 0, 0, 0])).length = 12 := by
    rw [List.length_append, four]
    rfl
  have parts : box "esds" (full 0 descriptors) =
      (BigEndian.bytes 4 (8 + (full 0 descriptors).length) ++ (fourCc "esds" ++ [0, 0, 0, 0])) ++ descriptors := by
    rw [box, List.append_assoc, List.append_assoc]
    rfl
  have read := Checked.slice_rest
    (BigEndian.bytes 4 (8 + (full 0 descriptors).length) ++ (fourCc "esds" ++ [0, 0, 0, 0])) descriptors
  rwa [header _ (BigEndian.bytes_length 4 _), ← parts, Rtsp.box_length "esds" _ rfl] at read

-- What stands behind the fixed fields of the sample entry.
theorem preamble_read (config : AudioConfig) : slice 28 (mp4aBody config).length (mp4aBody config) =
    .ok (box "esds" (full 0 (descriptor 0x03 (esPayload config.asc)))) := by
  have entry : (sampleEntry config).length = 28 := by simp [sampleEntry]
  have read := Checked.slice_rest (sampleEntry config) (box "esds" (full 0 (descriptor 0x03 (esPayload config.asc))))
  rw [entry] at read
  exact read

variable (config : AudioConfig) (small : config.asc.length < 2 ^ 28 - 64)

include small

theorem moov_reached : firstBody (fourCc "moov") (ftyp ++ box "moov" (moovBody config)) = .ok (moovBody config) := by
  have length := Rtmp.Fmp4.moov_length config
  have front : ftyp.length = 32 := rfl
  have first : ftyp = boxes [("ftyp", brands)] := rfl
  refine first_body_written "moov" _ [("ftyp", brands)] _ []
    (List.forall_mem_singleton.mpr (passes_box "moov" "ftyp" _ rfl (by decide) (by decide))) rfl (by omega) ?_
    (by rw [List.append_nil, first])
  rw [List.length_append, front, Rtsp.box_length "moov" _ rfl]
  unfold isizeMax
  omega

theorem trak_reached : firstBody (fourCc "trak") (moovBody config) = .ok (trakBody config) := by
  have length := Rtmp.Fmp4.moov_length config
  have below := Rtmp.Fmp4.trak_length config
  refine first_body_written "trak" _ [("mvhd", full 0 (mvhdBody config))] _ mvex
    (List.forall_mem_singleton.mpr (passes_box "trak" "mvhd" _ rfl (by decide) (by simp [full, mvhdBody]))) rfl (by omega)
    (by unfold isizeMax; omega) ?_
  rw [boxes_cons]
  rfl

theorem mdia_reached : firstBody (fourCc "mdia") (trakBody config) = .ok (mdiaBody config) := by
  have length := Rtmp.Fmp4.trak_length config
  have below := Rtmp.Fmp4.mdia_length config
  refine first_body_written "mdia" _ [("tkhd", full 3 tkhdBody)] _ []
    (List.forall_mem_singleton.mpr (passes_box "mdia" "tkhd" _ rfl (by decide) (by simp [full, tkhdBody]))) rfl (by omega)
    (by unfold isizeMax; omega) ?_
  rw [boxes_cons, List.append_nil]
  rfl

theorem minf_reached : firstBody (fourCc "minf") (mdiaBody config) = .ok (minfBody config) := by
  have length := Rtmp.Fmp4.mdia_length config
  have below := Rtmp.Fmp4.minf_length config
  refine first_body_written "minf" _ [("mdhd", full 0 (mdhdBody config)), ("hdlr", full 0 hdlrBody)] _ []
    (List.forall_mem_cons.mpr ⟨passes_box "minf" "mdhd" _ rfl (by decide) (by simp [full, mdhdBody]),
      List.forall_mem_singleton.mpr (passes_box "minf" "hdlr" _ rfl (by decide) (by decide))⟩) rfl (by omega)
    (by unfold isizeMax; omega) ?_
  rw [boxes_cons, boxes_cons, List.append_nil]
  rfl

theorem stbl_reached : firstBody (fourCc "stbl") (minfBody config) = .ok (stblBody config) := by
  have length := Rtmp.Fmp4.minf_length config
  have below := Rtmp.Fmp4.stbl_length config
  refine first_body_written "stbl" _
    [("smhd", full 0 smhdBody), ("dinf", Rtmp.writeFullBox "dref" 0 0 (u32 1 ++ Rtmp.writeFullBox "url " 0 1 []))] _ []
    (List.forall_mem_cons.mpr ⟨passes_box "stbl" "smhd" _ rfl (by decide) (by decide),
      List.forall_mem_singleton.mpr (passes_box "stbl" "dinf" _ rfl (by decide) (by decide))⟩) rfl (by omega)
    (by unfold isizeMax; omega) ?_
  rw [boxes_cons, boxes_cons, List.append_nil]
  rfl

theorem stsd_reached : firstBody (fourCc "stsd") (stblBody config) =
    .ok (full 0 (u32 1 ++ box "mp4a" (mp4aBody config))) := by
  have length := Rtmp.Fmp4.stbl_length config
  have below := Rtmp.Fmp4.mp4a_length config
  refine first_body_written "stsd" _ [] _ emptyTables nofun rfl ?_ (by unfold isizeMax; omega) rfl
  rw [full, List.length_append, List.length_append, List.length_append, BigEndian.bytes_length, BigEndian.bytes_length,
    Rtmp.u32_length, Rtsp.box_length "mp4a" _ rfl]
  omega

theorem mp4a_reached : firstBody (fourCc "mp4a") (box "mp4a" (mp4aBody config)) = .ok (mp4aBody config) := by
  have below := Rtmp.Fmp4.mp4a_length config
  refine first_body_written "mp4a" _ [] _ [] nofun rfl (by omega) ?_ (List.append_nil _).symm
  rw [Rtsp.box_length "mp4a" _ rfl]
  unfold isizeMax
  omega

theorem esds_read : findDescriptor (descriptor 0x03 (esPayload config.asc)) 0x03 0 = .ok (esPayload config.asc) ∧
    findDescriptor (esPayload config.asc) 0x04 3 = .ok (decoderConfig config.asc) ∧
    findDescriptor (decoderConfig config.asc) 0x05 13 = .ok config.asc := by
  have es := Rtmp.Fmp4.es_length config.asc
  have decoder : (decoderConfig config.asc).length = 18 + config.asc.length := by
    rw [decoderConfig, List.length_append, Rtmp.Fmp4.descriptor_length]
    simp only [List.length_cons, List.length_nil]
    omega
  have outer := find_written 0x03 [] (esPayload config.asc) [] (by omega)
  have middle := find_written 0x04 [0, 1, 0] (decoderConfig config.asc) (descriptor 0x06 [0x02]) (by omega)
  have inner := find_written 0x05 [0x40, 0x15, 0, 0, 0, 0, 0, 0, 0, 0, 0, 0, 0] config.asc [] (by omega)
  rw [List.append_nil] at outer inner
  exact ⟨outer, middle, inner⟩

theorem extract_written : extractAsc (ftyp ++ box "moov" (moovBody config)) = .ok config.asc := by
  have below := Rtmp.Fmp4.mp4a_length config
  have reached : descend (ftyp ++ box "moov" (moovBody config)) ["moov", "trak", "mdia", "minf", "stbl", "stsd"] =
      .ok (full 0 (u32 1 ++ box "mp4a" (mp4aBody config))) := by
    rw [descend_step "moov" _ _ _ (moov_reached config small), descend_step "trak" _ _ _ (trak_reached config small),
      descend_step "mdia" _ _ _ (mdia_reached config small), descend_step "minf" _ _ _ (minf_reached config small),
      descend_step "stbl" _ _ _ (stbl_reached config small), descend_step "stsd" _ _ _ (stsd_reached config small)]
    rfl
  have es := Rtmp.Fmp4.es_length config.asc
  have stsd : ¬ (full 0 (u32 1 ++ box "mp4a" (mp4aBody config))).length < 8 := by
    rw [full, List.length_append, List.length_append, List.length_append, BigEndian.bytes_length, BigEndian.bytes_length,
      Rtmp.u32_length]
    omega
  have length : (full 0 (descriptor 0x03 (esPayload config.asc))).length = 41 + config.asc.length := by
    rw [full, List.length_append, List.length_append, BigEndian.bytes_length, BigEndian.bytes_length,
      Rtmp.Fmp4.descriptor_length, es]
    omega
  have found : locate (fourCc "esds") (box "esds" (full 0 (descriptor 0x03 (esPayload config.asc)))) 0 =
      .ok (0, 8 + (full 0 (descriptor 0x03 (esPayload config.asc))).length) := by
    refine locate_written "esds" _ [] [] _ [] nofun rfl (by omega) ?_ (List.append_nil _).symm
    rw [Rtsp.box_length "esds" _ rfl]
    unfold isizeMax
    omega
  have bodyStart : add usize 0 BOX_HEADER_LEN = .ok 8 := rfl
  have bodyStart' : add usize 8 4 = .ok 12 := rfl
  have bodyEnd : add usize 0 (8 + (full 0 (descriptor 0x03 (esPayload config.asc))).length) =
      .ok (8 + (full 0 (descriptor 0x03 (esPayload config.asc))).length) := by
    rw [Checked.add_ok _ _ _ (by unfold usize; omega), Nat.zero_add]
  obtain ⟨outer, middle, inner⟩ := esds_read config small
  rw [extractAsc, reached, Checked.ok_bind, if_neg stsd, entries_read, Checked.ok_bind, mp4a_reached config small,
    Checked.ok_bind, if_neg (by omega), preamble_read, Checked.ok_bind, found, Checked.ok_bind]
  dsimp only
  rw [bodyStart, Checked.ok_bind, bodyStart', Checked.ok_bind, bodyEnd, Checked.ok_bind, if_neg (by omega),
    descriptors_read, Checked.ok_bind, outer, Checked.ok_bind, middle, Checked.ok_bind, inner]

theorem written_extracted : ∃ init, audioInitSegment config = some init ∧ extractAsc init = .ok config.asc := by
  have es := Rtmp.Fmp4.es_length config.asc
  exact ⟨_, Rtmp.Fmp4.audio_init_segment_eq config (by omega), extract_written config small⟩

end Init

-- The reader undoes the writer, and it panics on no bytes at all.
theorem asc_extracted :
    (∀ config : Rtmp.Fmp4.AudioConfig, config.asc.length < 2 ^ 28 - 64 →
      ∃ init, Rtmp.Fmp4.audioInitSegment config = some init ∧ extractAsc init = .ok config.asc) ∧
    ∀ initSegment : Buffer, extractAsc initSegment.bytes ≠ panicked :=
  ⟨written_extracted, fun initSegment => (extract_safe initSegment.bytes initSegment.small).calm⟩

-- An ASC that looks like a descriptor, and a box that ends behind the segment.
theorem descriptor_like_extracted :
    (∃ init, Rtmp.Fmp4.audioInitSegment ⟨[0x05, 0x02, 0x12, 0x10], 44100, 2, 2⟩ = some init ∧
      extractAsc init = .ok [0x05, 0x02, 0x12, 0x10]) ∧
    extractAsc [0xFF, 0xFF, 0xFF, 0xFF, 0x6D, 0x6F, 0x6F, 0x76] ≠ panicked :=
  ⟨asc_extracted.1 ⟨[0x05, 0x02, 0x12, 0x10], 44100, 2, 2⟩ (by decide),
    asc_extracted.2 ⟨[0xFF, 0xFF, 0xFF, 0xFF, 0x6D, 0x6F, 0x6F, 0x76], by decide⟩⟩

end Lvqr.Whisper
