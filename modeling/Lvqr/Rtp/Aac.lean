import Lvqr.Lib.Text
import Lvqr.Rtp.Header

set_option autoImplicit false

-- AAC over RTP in AAC-hbr mode: the sizes of the access units, then the units.
namespace Lvqr.Rtp

structure AacDepackResult where
  frames : List Bytes
  timestamp : UInt32
  marker : Bool
deriving DecidableEq, Repr

def auSizes (rtpPayload : Bytes) (count : Nat) : List Nat :=
  (List.range count).map fun index => beAt rtpPayload (2 + index * 2) 2 >>> 3

def auFrames (rtpPayload : Bytes) : Nat → List Nat → List Bytes
  | _, [] => []
  | offset, size :: sizes =>
      if offset + size > rtpPayload.length then []
      else (rtpPayload.drop offset).take size :: auFrames rtpPayload (offset + size) sizes

def aacDepacketize (rtpPayload : Bytes) (header : RtpHeader) : Option AacDepackResult :=
  if rtpPayload.length < 2 then none
  else
    let count := beAt rtpPayload 0 2 / 16
    if count = 0 then none
    else
      let headersEnd := 2 + count * 2
      if headersEnd > rtpPayload.length then none
      else
        let frames := auFrames rtpPayload headersEnd (auSizes rtpPayload count)
        if frames.isEmpty then none else some ⟨frames, header.timestamp, header.marker⟩

-- A packet of access units as a sender writes it: a size of thirteen bits and an
-- index of three for each.
structure AacPacket where
  units : List Bytes
  some_unit : units ≠ []
  few : units.length < 2 ^ 12
  small : ∀ unit ∈ units, unit.length < 2 ^ 13

namespace AacPacket

def auHeader (unit : Bytes) : Bytes := BigEndian.bytes 2 (unit.length * 8)

def payload (packet : AacPacket) : Bytes :=
  BigEndian.bytes 2 (packet.units.length * 16) ++ (packet.units.flatMap auHeader ++ packet.units.flatten)

theorem au_headers_length (units : List Bytes) : (units.flatMap auHeader).length = units.length * 2 := by
  induction units with
  | nil => rfl
  | cons unit units ih =>
      rw [List.flatMap_cons, List.length_append, ih, auHeader, BigEndian.bytes_length, List.length_cons]
      omega

theorem read_sizes (front : Bytes) (units : List Bytes) (back : Bytes) (small : ∀ unit ∈ units, unit.length < 2 ^ 13) :
    ((List.range units.length).map fun index =>
      beAt (front ++ (units.flatMap auHeader ++ back)) (front.length + index * 2) 2 >>> 3) = units.map List.length := by
  induction units generalizing front with
  | nil => rfl
  | cons unit units ih =>
      have size : unit.length < 2 ^ 13 := small unit List.mem_cons_self
      have whole : front ++ ((unit :: units).flatMap auHeader ++ back) =
          (front ++ auHeader unit) ++ (units.flatMap auHeader ++ back) := by simp
      have first : beAt (front ++ ((unit :: units).flatMap auHeader ++ back)) front.length 2 = unit.length * 8 := by
        rw [List.flatMap_cons, List.append_assoc]
        exact be_at_written front _ front.length 2 _ rfl (by omega)
      have rest := ih (front ++ auHeader unit) fun unit member => small unit (List.mem_cons_of_mem _ member)
      rw [List.length_cons, List.range_succ_eq_map, List.map_cons, List.map_map, List.map_cons]
      congr 1
      · rw [Nat.zero_mul, Nat.add_zero, first, Nat.shiftRight_eq_div_pow]
        omega
      · rw [← rest]
        refine List.map_congr_left fun index _ => ?_
        have next : front.length + (index + 1) * 2 = (front ++ auHeader unit).length + index * 2 := by
          rw [List.length_append, auHeader, BigEndian.bytes_length]
          omega
        rw [Function.comp_apply, Nat.succ_eq_add_one, next, whole]

theorem read_units (front : Bytes) (units : List Bytes) :
    auFrames (front ++ units.flatten) front.length (units.map List.length) = units := by
  induction units generalizing front with
  | nil => rfl
  | cons unit units ih =>
      have whole : front ++ (unit :: units).flatten = (front ++ unit) ++ units.flatten := by simp
      have fits : ¬ (front ++ (unit :: units).flatten).length < front.length + unit.length := by
        simp only [List.length_append, List.flatten_cons]
        omega
      have here : ((front ++ (unit :: units).flatten).drop front.length).take unit.length = unit := by
        rw [List.drop_left, List.flatten_cons, List.take_left]
      rw [List.map_cons, auFrames, if_neg fits, here, whole, ← List.length_append, ih]

-- All access units of a packet come out, whatever their number.
theorem depacketize_payload (packet : AacPacket) (header : RtpHeader) :
    aacDepacketize packet.payload header = some ⟨packet.units, header.timestamp, header.marker⟩ := by
  have few := packet.few
  have positive : 0 < packet.units.length := List.length_pos_iff.mpr packet.some_unit
  have headers := au_headers_length packet.units
  have count : beAt packet.payload 0 2 / 16 = packet.units.length := by
    have written := be_at_written [] (packet.units.flatMap auHeader ++ packet.units.flatten) 0 2
      (packet.units.length * 16) rfl (by omega)
    rw [List.nil_append] at written
    rw [payload, written, Nat.mul_div_cancel _ (by decide)]
  have long : packet.payload.length = 2 + packet.units.length * 2 + packet.units.flatten.length := by
    rw [payload, List.length_append, List.length_append, headers, BigEndian.bytes_length]
    omega
  have sizes : auSizes packet.payload packet.units.length = packet.units.map List.length := by
    have read := read_sizes (BigEndian.bytes 2 (packet.units.length * 16)) packet.units packet.units.flatten packet.small
    rw [BigEndian.bytes_length] at read
    exact read
  have units : auFrames packet.payload (2 + packet.units.length * 2) (packet.units.map List.length) = packet.units := by
    have read := read_units (BigEndian.bytes 2 (packet.units.length * 16) ++ packet.units.flatMap auHeader) packet.units
    rw [List.length_append, headers, BigEndian.bytes_length, List.append_assoc] at read
    exact read
  rw [aacDepacketize, count, if_neg (by omega)]
  dsimp only
  rw [if_neg (by omega), if_neg (by omega), sizes, units, if_neg (by simpa using packet.some_unit)]

end AacPacket

def hexDigit (char : Char) : Option Nat :=
  if '0' ≤ char ∧ char ≤ '9' then some (char.toNat - '0'.toNat)
  else if 'a' ≤ char ∧ char ≤ 'f' then some (char.toNat - 'a'.toNat + 10)
  else if 'A' ≤ char ∧ char ≤ 'F' then some (char.toNat - 'A'.toNat + 10)
  else none

-- A plus sign may stand before the last digit.
def hexBytes : List Char → Option Bytes
  | [] => some []
  | [_] => none
  | high :: low :: rest => do
      let high ← if high = '+' then some 0 else hexDigit high
      let low ← hexDigit low
      let bytes ← hexBytes rest
      pure (UInt8.ofNat (high * 16 + low) :: bytes)

-- A slice through a character of several bytes panics in the source and is `none` here.
def parseAacConfigFromFmtp (fmtp : String) : Option Bytes :=
  let params :=
    match Text.splitOnce ' ' fmtp.toList with
    | some (_, rest) => rest
    | none => fmtp.toList
  let configs := (params.splitOn ';').filterMap fun param => Text.stripPrefix "config=".toList (Text.trim param)
  match configs with
  | [] => none
  | hex :: _ => hexBytes (Text.trim hex)

example : parseAacConfigFromFmtp "97 mode=AAC-hbr;sizelength=13;config=1210" = some [0x12, 0x10] := by decide

end Lvqr.Rtp
