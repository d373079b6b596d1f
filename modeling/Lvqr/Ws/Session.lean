import Lvqr.Fragment.MoqTrack
import Lvqr.Lib.Mux
import Lvqr.Rtmp.AudioSegment
import Lvqr.Rtmp.InitSegment

set_option autoImplicit false

-- A browser that publishes over a WebSocket, and a viewer that reads the broadcast
-- over another one.
namespace Lvqr.Ws

open Cmaf (fourCc buildMoofMdat)
open Moq (Group Writes)
open Rtmp (videoInitSegmentWithSize)
open Rtmp.Flv (VideoConfig)
open Rtsp (extractMdatBody)

inductive Message where
  | binary (data : Bytes)
  | text
  | close
  | failed
deriving DecidableEq, Repr

-- A message, and what the two tracks make of what the session writes for it.
structure Received where
  message : Message
  video : Writes
  catalog : Bool
deriving DecidableEq, Repr

-- The sessionAfters copy of the parser is the one of the FLV remuxer.
def parseAvccRecord (data : Bytes) : Option VideoConfig := Rtmp.Flv.parseAvccRecord data

def upperHex (byte : UInt8) : String :=
  let digit := fun value : Nat => if value < 10 then Char.ofNat (48 + value) else Char.ofNat (55 + value)
  String.ofList [digit (byte.toNat / 16), digit (byte.toNat % 16)]

def codecString (config : VideoConfig) : String :=
  "avc1." ++ upperHex config.profile ++ upperHex config.compat ++ upperHex config.level

-- The session has no audio.
def generateCatalog (video : VideoConfig) : String :=
  "\x7b\"version\":1,\"tracks\":[\x7b\"name\":\"0.mp4\",\"packaging\":\"cmaf\",\"renderGroup\":0,\"codec\":\"" ++
    codecString video ++ "\",\"mimeType\":\"video/mp4\"\x7d]\x7d"

-- `video` is the groups behind the open one. A release build's u32 wraps.
structure IngestSession where
  videoInit : Option Bytes
  videoGroup : Option Group
  videoSeq : UInt32
  video : List Group
  catalog : List String
  ended : Bool
deriving DecidableEq, Repr

def pictureSample (timestamp : Nat) (payload : Bytes) (keyframe : Bool) : Cmaf.RawSample where
  trackId := 1
  dts := timestamp * 90
  ctsOffset := 0
  duration := 3000
  payload := payload
  keyframe := keyframe

-- A moof of one sample always encodes.
def pictureSegment (sequence : UInt32) (timestamp : Nat) (payload : Bytes) (keyframe : Bool) : Bytes :=
  (buildMoofMdat sequence.toNat 1 (timestamp * 90) [pictureSample timestamp payload keyframe]).getD []

namespace IngestSession

def new : IngestSession := ⟨none, none, 0, [], [], false⟩

def groups (session : IngestSession) : List Group := session.video ++ session.videoGroup.toList

def finishGroup (session : IngestSession) : IngestSession :=
  { session with video := session.groups, videoGroup := none }

def configure (session : IngestSession) (payload : Bytes) (catalog : Bool) : IngestSession :=
  if payload.length < 6 then session
  else
    let width := UInt16.ofNat (BigEndian.value (payload.take 2))
    let height := UInt16.ofNat (BigEndian.value ((payload.drop 2).take 2))
    match parseAvccRecord (payload.drop 4) with
    | some config =>
        { session with
          videoInit := some (videoInitSegmentWithSize config width height)
          catalog := session.catalog ++ if catalog then [generateCatalog config] else [] }
    | none => session

def keyframe (session : IngestSession) (timestamp : Nat) (payload : Bytes) (writes : Writes) : IngestSession :=
  match session.videoInit with
  | none => session
  | some init =>
      let session := { session.finishGroup with videoSeq := session.videoSeq + 1 }
      match writes.group with
      | none => session
      | some sequence =>
          { session with
            videoGroup := some ⟨sequence, (if writes.init then [init] else []) ++
              if writes.payload then [pictureSegment session.videoSeq timestamp payload true] else []⟩ }

def delta (session : IngestSession) (timestamp : Nat) (payload : Bytes) (writes : Writes) : IngestSession :=
  match session.videoInit with
  | none => session
  | some _ =>
      let session := { session with videoSeq := session.videoSeq + 1 }
      match session.videoGroup with
      | none => session
      | some group =>
          { session with
            videoGroup := some { group with
              frames := group.frames ++
                if writes.payload then [pictureSegment session.videoSeq timestamp payload false] else [] } }

def step (session : IngestSession) (received : Received) : IngestSession :=
  if session.ended then session
  else
    match received.message with
    | .close | .failed => { session.finishGroup with ended := true }
    | .text => session
    | .binary data =>
        if data.length < 5 then session
        else
          let msgType := data.getD 0 0
          let timestamp := BigEndian.value ((data.drop 1).take 4)
          let payload := data.drop 5
          if msgType = 0 then session.configure payload received.catalog
          else if msgType = 1 then session.keyframe timestamp payload received.video
          else if msgType = 2 then session.delta timestamp payload received.video
          else session

def run (session : IngestSession) (messages : List Received) : IngestSession := Machine.run step session messages

end IngestSession

-- The relay tags a frame with its track.
inductive Track where
  | video
  | audio
deriving DecidableEq, Repr

def Track.tag : Track → UInt8
  | video => 0
  | audio => 1

def framed (frame : Track × Bytes) : Bytes := frame.1.tag :: frame.2

def RELAY_CAPACITY : Nat := 64

def frames (groups : List Group) : List Bytes := groups.flatMap Group.frames

-- The viewer reads the groups of the video track that it has not skipped.
structure Live where
  session : IngestSession
  skipped : Nat
  relay : Mux Track Bytes

inductive LiveOp where
  | publisher (received : Received)
  | audio (frames : List Bytes)
  | read (track : Track)
  | offer (track : Track)
  | deliver
  | leave

namespace Live

def sessionAfter (live : Live) : LiveOp → IngestSession
  | .publisher received => live.session.step received
  | _ => live.session

def choice (live : Live) : LiveOp → Mux.Choice Track Bytes
  | .publisher received =>
      let readable := frames (live.session.groups.drop live.skipped)
      .produce .video ((frames ((live.session.step received).groups.drop live.skipped)).drop readable.length)
  | .audio frames => .produce .audio frames
  | .read track => .read track
  | .offer track => .offer track
  | .deliver => .deliver
  | .leave => .stop

def step (live : Live) (op : LiveOp) : Live :=
  ⟨live.sessionAfter op, live.skipped, live.relay.step RELAY_CAPACITY (live.choice op)⟩

def joined (session : IngestSession) (skipped : Nat) (audio : List Bytes) : Live where
  session := session
  skipped := skipped
  relay := Mux.start fun track =>
    match track with
    | .video => frames (session.groups.drop skipped)
    | .audio => audio

def sent (live : Live) : List Bytes := live.relay.delivered.map framed

end Live

end Lvqr.Ws

-- What the publisher's messages mean, and what a viewer makes of the frames.
namespace Lvqr.Ws

open Cmaf (fourCc)
open Moq (Group Writes)
open Rtmp (initAvcc)
open Rtmp.Flv (VideoConfig)
open Rtsp (box extractMdatBody)

inductive Sent where
  | config (config : VideoConfig)
  | picture (keyframe : Bool) (picture : Bytes)

-- The groups of a broadcast, each with the configuration of its keyframe.
structure Broadcast where
  config : Option VideoConfig
  groups : List (VideoConfig × List Bytes)

def Broadcast.new : Broadcast := ⟨none, []⟩

def Broadcast.add (broadcast : Broadcast) : Sent → Broadcast
  | .config config => { broadcast with config := some config }
  | .picture true picture =>
      match broadcast.config with
      | none => broadcast
      | some config => { broadcast with groups := broadcast.groups ++ [(config, [picture])] }
  | .picture false picture =>
      match broadcast.groups.getLast? with
      | none => broadcast
      | some (config, pictures) =>
          { broadcast with groups := broadcast.groups.dropLast ++ [(config, pictures ++ [picture])] }

-- Whatever length size the publisher names, the init segment says four.
def announced (config : VideoConfig) : VideoConfig := { config with naluLengthSize := 4 }

def sentBy : Message → List Sent
  | .binary data =>
      if data.length < 5 then []
      else if data.getD 0 0 = 0 then
        if (data.drop 5).length < 6 then []
        else ((parseAvccRecord ((data.drop 5).drop 4)).map fun config => Sent.config (announced config)).toList
      else if data.getD 0 0 = 1 then [.picture true (data.drop 5)]
      else if data.getD 0 0 = 2 then [.picture false (data.drop 5)]
      else []
  | .text | .close | .failed => []

def Message.isOpen : Message → Bool
  | .binary _ | .text => true
  | .close | .failed => false

def broadcast (messages : List Message) : Broadcast :=
  ((messages.takeWhile Message.isOpen).flatMap sentBy).foldl Broadcast.add Broadcast.new

def isInit (frame : Bytes) : Bool := (frame.drop 4).take 4 = fourCc "ftyp"

-- A viewer that tells init segments from media segments and shows each picture with
-- the configuration it was given last.
def watch : Option VideoConfig → List Bytes → List (VideoConfig × Bytes)
  | _, [] => []
  | known, frame :: rest =>
      if isInit frame then watch ((initAvcc frame).bind parseAvccRecord) rest
      else
        match known, extractMdatBody frame with
        | some config, some picture => (config, picture) :: watch known rest
        | _, _ => watch known rest

def videoFrames (sent : List Bytes) : List Bytes :=
  sent.filterMap fun message =>
    match message with
    | 0 :: frame => some frame
    | _ => none

def shown (groups : List (VideoConfig × List Bytes)) : List (VideoConfig × Bytes) :=
  groups.flatMap fun group => group.2.map (group.1, ·)

-- The WebSocket library takes no larger message.
def MAX_MESSAGE_SIZE : Nat := 2 ^ 26

def Message.Small : Message → Prop
  | .binary data => data.length ≤ MAX_MESSAGE_SIZE
  | _ => True

-- The tracks live as long as the session, and take what it writes.
structure Received.Accepted (received : Received) : Prop where
  opens : received.video.group.isSome = true
  init : received.video.init = true
  payload : received.video.payload = true

structure IsInit (config : VideoConfig) (frame : Bytes) : Prop where
  marked : isInit frame = true
  carries : (initAvcc frame).bind parseAvccRecord = some config

structure IsPicture (frame picture : Bytes) : Prop where
  unmarked : isInit frame = false
  carries : extractMdatBody frame = some picture

def Carries (group : Group) (shows : VideoConfig × List Bytes) : Prop :=
  ∃ init segments, group.frames = init :: segments ∧ IsInit shows.1 init ∧ List.Forall₂ IsPicture segments shows.2

theorem init_is_init (config : VideoConfig) (width height : UInt16) (record : Bytes)
    (parsed : parseAvccRecord record = some config) :
    IsInit (announced config) (Rtmp.videoInitSegmentWithSize config width height) := by
  obtain ⟨encodable, _⟩ := Rtmp.record_accepted record config parsed
  refine ⟨?_, Rtmp.carried_config config width height encodable⟩
  rw [isInit, Rtmp.videoInitSegmentWithSize, Rtmp.ftyp, Rtsp.box_kind "ftyp" _ _ rfl]
  exact decide_eq_true rfl

theorem segment_is_picture (sequence : UInt32) (timestamp : Nat) (payload : Bytes) (keyframe : Bool)
    (small : payload.length ≤ MAX_MESSAGE_SIZE) : IsPicture (pictureSegment sequence timestamp payload keyframe) payload := by
  unfold MAX_MESSAGE_SIZE at small
  have sample : [pictureSample timestamp payload keyframe].flatMap Cmaf.RawSample.payload = payload := List.append_nil _
  have built := Rtsp.build_moof_mdat_eq sequence.toNat 1 (timestamp * 90) [pictureSample timestamp payload keyframe]
    (by rw [List.length_singleton]; decide)
  have fits : 8 + Rtsp.totalSize [pictureSample timestamp payload keyframe] < 2 ^ 32 ∧ 96 + 16 * 1 < 2 ^ 31 := by
    rw [← Rtsp.body_length, sample]
    omega
  obtain ⟨segment, isBuilt, sound⟩ := (Rtmp.Fmp4.video_sound_iff sequence.toNat 1 (timestamp * 90)
    [pictureSample timestamp payload keyframe]).mpr fits
  have body := sound.body
  rw [sample] at body
  rw [built] at isBuilt
  obtain rfl := Option.some.inj isBuilt
  rw [pictureSegment, built, Option.getD_some]
  refine ⟨?_, body⟩
  rw [isInit, Rtsp.written_boxes, Rtsp.box_kind "moof" _ _ rfl]
  exact decide_eq_false (by decide)

structure Shows (session : IngestSession) (broadcast : Broadcast) : Prop where
  config : session.videoInit = none ∧ session.groups = [] ∧ broadcast.config = none ∨
    ∃ init config, session.videoInit = some init ∧ broadcast.config = some config ∧ IsInit config init
  groups : List.Forall₂ Carries session.groups broadcast.groups
  opened : session.videoGroup = none → session.video = []

namespace IngestSession

theorem finish_groups (session : IngestSession) : session.finishGroup.groups = session.groups := List.append_nil _

theorem groups_opened (session : IngestSession) (group : Group) (opened : session.videoGroup = some group) :
    session.groups = session.video ++ [group] := by
  rw [groups, opened]
  rfl

-- What a message does to the groups: nothing, one more, or more frames in the open one.
theorem step_groups (session : IngestSession) (received : Received) :
    (session.step received).groups = session.groups ∨
      (∃ group, (session.step received).groups = session.groups ++ [group]) ∨
      ∃ group added, session.groups = session.video ++ [group] ∧
        (session.step received).groups = session.video ++ [{ group with frames := group.frames ++ added }] := by
  unfold step
  split
  · exact .inl rfl
  · split
    · exact .inl (finish_groups session)
    · exact .inl (finish_groups session)
    · exact .inl rfl
    · split
      · exact .inl rfl
      · dsimp only
        split
        · refine .inl ?_
          unfold configure
          split
          · rfl
          · dsimp only
            split
            · rfl
            · rfl
        · split
          · unfold keyframe
            split
            · exact .inl rfl
            · dsimp only
              split
              · exact .inl (finish_groups session)
              · exact .inr (.inl ⟨_, rfl⟩)
          · split
            · unfold delta
              split
              · exact .inl rfl
              · dsimp only
                split
                · exact .inl rfl
                · rename_i group opened
                  exact .inr (.inr ⟨group, _, groups_opened session group opened, rfl⟩)
            · exact .inl rfl

theorem step_frames (session : IngestSession) (received : Received) (skipped : Nat) :
    ∃ added, frames ((session.step received).groups.drop skipped) = frames (session.groups.drop skipped) ++ added := by
  rcases step_groups session received with same | ⟨group, grown⟩ | ⟨group, added, before, after⟩
  · exact ⟨[], by rw [same, List.append_nil]⟩
  · rw [grown, List.drop_append]
    exact ⟨_, List.flatMap_append⟩
  · rw [before, after, List.drop_append, List.drop_append]
    cases behind : skipped - session.video.length with
    | zero => exact ⟨added, by simp [frames]⟩
    | succ past => exact ⟨[], by simp [frames]⟩

end IngestSession

theorem forall_snoc {First Second : Type} {Relates : First → Second → Prop} {items : List First} {item : First}
    {others : List Second} (related : List.Forall₂ Relates (items ++ [item]) others) :
    ∃ front last, others = front ++ [last] ∧ List.Forall₂ Relates items front ∧ Relates item last := by
  induction items generalizing others with
  | nil =>
      cases related with
      | cons here rest =>
          cases rest
          exact ⟨[], _, rfl, .nil, here⟩
  | cons first items ih =>
      cases related with
      | cons here rest =>
          obtain ⟨front, last, rfl, fronts, lasts⟩ := ih rest
          exact ⟨_ :: front, last, rfl, .cons here fronts, lasts⟩

section Messages

variable (session : IngestSession) (broadcast : Broadcast) (shows : Shows session broadcast)

include shows

theorem keyframe_shows (timestamp : Nat) (payload : Bytes) (writes : Writes) (small : payload.length ≤ MAX_MESSAGE_SIZE)
    (opens : writes.group.isSome = true) (init : writes.init = true) (written : writes.payload = true) :
    Shows (session.keyframe timestamp payload writes) (broadcast.add (.picture true payload)) := by
  obtain ⟨sequence, takes⟩ := Option.isSome_iff_exists.mp opens
  rcases shows.config with ⟨unknown, _, none⟩ | ⟨first, config, known, configured, isInit⟩
  · rw [IngestSession.keyframe, unknown, Broadcast.add, none]
    exact shows
  · have pushed : session.keyframe timestamp payload writes =
        { session with
          video := session.groups
          videoGroup := some ⟨sequence, [first, pictureSegment (session.videoSeq + 1) timestamp payload true]⟩
          videoSeq := session.videoSeq + 1 } := by
      simp [IngestSession.keyframe, known, takes, init, written, IngestSession.finishGroup]
    rw [pushed, Broadcast.add, configured]
    refine ⟨.inr ⟨first, config, known, rfl, isInit⟩, ?_, nofun⟩
    refine List.rel_append shows.groups (.cons ⟨first, _, rfl, isInit, ?_⟩ .nil)
    exact .cons (segment_is_picture _ timestamp payload true small) .nil

theorem delta_shows (timestamp : Nat) (payload : Bytes) (writes : Writes) (small : payload.length ≤ MAX_MESSAGE_SIZE)
    (written : writes.payload = true) :
    Shows (session.delta timestamp payload writes) (broadcast.add (.picture false payload)) := by
  cases opened : session.videoGroup with
  | none =>
      -- Without an open group there is none at all.
      have nothing : session.groups = [] := by
        rw [IngestSession.groups, opened, shows.opened opened]
        rfl
      have unshown : broadcast.groups = [] := by
        have carried := shows.groups
        rw [nothing] at carried
        exact List.forall₂_nil_left_iff.mp carried
      have added : broadcast.add (.picture false payload) = broadcast := by
        simp [Broadcast.add, unshown]
      rw [added]
      rcases shows.config with ⟨unknown, _, none⟩ | ⟨first, config, known, configured, isInit⟩
      · rw [IngestSession.delta, unknown]
        exact shows
      · have kept : session.delta timestamp payload writes = { session with videoSeq := session.videoSeq + 1 } := by
          simp [IngestSession.delta, known, opened]
        rw [kept]
        exact ⟨.inr ⟨first, config, known, configured, isInit⟩, shows.groups, shows.opened⟩
  | some group =>
      have grouped := session.groups_opened group opened
      rcases shows.config with ⟨_, nothing, _⟩ | ⟨first, config, known, configured, isInit⟩
      · rw [grouped] at nothing
        cases List.append_ne_nil_of_right_ne_nil _ (List.cons_ne_nil _ _) nothing
      · have carried := shows.groups
        rw [grouped] at carried
        obtain ⟨front, ⟨named, pictures⟩, split, fronts, init, segments, frames, isNamed, areSegments⟩ :=
          forall_snoc carried
        have pushed : session.delta timestamp payload writes =
            { session with
              videoGroup := some { group with
                frames := init :: (segments ++ [pictureSegment (session.videoSeq + 1) timestamp payload false]) }
              videoSeq := session.videoSeq + 1 } := by
          simp [IngestSession.delta, known, opened, written, frames]
        have added : broadcast.add (.picture false payload) =
            { broadcast with groups := front ++ [(named, pictures ++ [payload])] } := by
          simp [Broadcast.add, split]
        rw [pushed, added]
        refine ⟨.inr ⟨first, config, known, configured, isInit⟩, ?_, nofun⟩
        refine List.rel_append fronts (.cons ⟨init, _, rfl, isNamed, ?_⟩ .nil)
        exact List.rel_append areSegments (.cons (segment_is_picture _ timestamp payload false small) .nil)

theorem configure_shows (payload : Bytes) (catalog : Bool) :
    Shows (session.configure payload catalog)
      ((if payload.length < 6 then []
        else ((parseAvccRecord (payload.drop 4)).map fun config => Sent.config (announced config)).toList).foldl
        Broadcast.add broadcast) := by
  rw [IngestSession.configure]
  split
  · exact shows
  · cases parsed : parseAvccRecord (payload.drop 4) with
    | none => exact shows
    | some config =>
        refine ⟨.inr ⟨_, _, rfl, rfl, init_is_init config _ _ _ parsed⟩, shows.groups, shows.opened⟩

theorem step_shows (received : Received) (running : session.ended = false) (accepted : received.Accepted)
    (small : received.message.Small) (isOpen : received.message.isOpen = true) :
    Shows (session.step received) ((sentBy received.message).foldl Broadcast.add broadcast) ∧
      (session.step received).ended = false := by
  obtain ⟨message, video, catalog⟩ := received
  obtain ⟨opens, init, written⟩ := accepted
  cases message with
  | close => cases isOpen
  | failed => cases isOpen
  | text =>
      simp only [IngestSession.step, running]
      exact ⟨shows, running⟩
  | binary data =>
      have payload : (data.drop 5).length ≤ MAX_MESSAGE_SIZE := Nat.le_trans (by simp) small
      simp only [IngestSession.step, running, sentBy, Bool.false_eq_true, if_false]
      split
      · exact ⟨shows, running⟩
      · split
        · refine ⟨configure_shows session broadcast shows _ catalog, ?_⟩
          rw [IngestSession.configure]
          split
          · exact running
          · dsimp only
            split
            · exact running
            · exact running
        · split
          · refine ⟨keyframe_shows session broadcast shows _ _ video payload opens init written, ?_⟩
            rw [IngestSession.keyframe]
            split
            · exact running
            · split
              · exact running
              · exact running
          · split
            · refine ⟨delta_shows session broadcast shows _ _ video payload written, ?_⟩
              rw [IngestSession.delta]
              split
              · exact running
              · dsimp only
                split
                · exact running
                · exact running
            · exact ⟨shows, running⟩

end Messages

theorem run_ended (session : IngestSession) (messages : List Received) (ended : session.ended = true) :
    session.run messages = session := by
  induction messages with
  | nil => rfl
  | cons received messages ih =>
      have stays : session.step received = session := by
        rw [IngestSession.step, if_pos ended]
      rw [IngestSession.run, Machine.run_cons, stays]
      exact ih

theorem close_step (session : IngestSession) (received : Received) (running : session.ended = false)
    (closes : received.message.isOpen = false) :
    session.step received = { session.finishGroup with ended := true } := by
  obtain ⟨message, video, catalog⟩ := received
  cases message with
  | binary data => cases closes
  | text => cases closes
  | close => simp [IngestSession.step, running]
  | failed => simp [IngestSession.step, running]

theorem run_shows (session : IngestSession) (broadcast : Broadcast) (messages : List Received)
    (shows : Shows session broadcast) (running : session.ended = false)
    (accepted : ∀ received ∈ messages, received.Accepted) (small : ∀ received ∈ messages, received.message.Small) :
    List.Forall₂ Carries (session.run messages).groups
      ((((messages.map Received.message).takeWhile Message.isOpen).flatMap sentBy).foldl Broadcast.add broadcast).groups := by
  induction messages generalizing session broadcast with
  | nil => exact shows.groups
  | cons received messages ih =>
      rw [List.map_cons, List.takeWhile_cons, IngestSession.run, Machine.run_cons]
      cases isOpen : received.message.isOpen with
      | true =>
          obtain ⟨next, going⟩ := step_shows session broadcast shows received running (accepted _ List.mem_cons_self)
            (small _ List.mem_cons_self) isOpen
          rw [if_pos rfl, List.flatMap_cons, List.foldl_append]
          exact ih _ _ next going (fun other member => accepted other (List.mem_cons_of_mem _ member))
            fun other member => small other (List.mem_cons_of_mem _ member)
      | false =>
          rw [close_step session received running isOpen]
          have stopped := run_ended { session.finishGroup with ended := true } messages rfl
          rw [IngestSession.run] at stopped
          rw [stopped]
          exact (session.finish_groups) ▸ shows.groups

theorem new_shows : Shows .new .new := ⟨.inl ⟨rfl, rfl, rfl⟩, .nil, fun _ => rfl⟩

theorem broadcast_carried (messages : List Received) (accepted : ∀ received ∈ messages, received.Accepted)
    (small : ∀ received ∈ messages, received.message.Small) :
    List.Forall₂ Carries (IngestSession.new.run messages).groups (broadcast (messages.map Received.message)).groups :=
  run_shows .new .new messages new_shows rfl accepted small

theorem watch_init (known : Option VideoConfig) (config : VideoConfig) (frame : Bytes) (rest : List Bytes)
    (init : IsInit config frame) : watch known (frame :: rest) = watch (some config) rest := by
  rw [watch.eq_def]
  dsimp only
  rw [if_pos init.marked, init.carries]

theorem watch_pictures (config : VideoConfig) (segments pictures rest : List Bytes)
    (carry : List.Forall₂ IsPicture segments pictures) :
    watch (some config) (segments ++ rest) = pictures.map (config, ·) ++ watch (some config) rest := by
  induction carry with
  | nil => rfl
  | cons here _ ih =>
      rw [List.cons_append, watch.eq_def]
      simp [here.unmarked, here.carries, ih]

theorem watch_groups (known : Option VideoConfig) (groups : List Group) (shows : List (VideoConfig × List Bytes))
    (carried : List.Forall₂ Carries groups shows) : watch known (frames groups) = shown shows := by
  induction carried generalizing known with
  | nil => rfl
  | @cons group named groups shows here _ ih =>
      obtain ⟨init, segments, holds, isInit, areSegments⟩ := here
      rw [frames, List.flatMap_cons, holds, List.cons_append, watch_init known named.1 init _ isInit,
        watch_pictures named.1 segments named.2 _ areSegments, shown, List.flatMap_cons]
      exact congrArg _ (ih _)

theorem watch_begins (known : Option VideoConfig) (front back : List Bytes) :
    watch known front <+: watch known (front ++ back) := by
  induction front generalizing known with
  | nil => exact List.nil_prefix
  | cons frame front ih =>
      rw [List.cons_append, watch.eq_def, watch.eq_def known (frame :: (front ++ back))]
      dsimp only
      split
      · exact ih _
      · split
        · exact (List.prefix_cons_inj _).mpr (ih _)
        · exact ih _

namespace Live

def published : LiveOp → List Received
  | .publisher received => [received]
  | _ => []

theorem run_session (live : Live) (ops : List LiveOp) :
    (Machine.run step live ops).session = live.session.run (ops.flatMap published) ∧
      (Machine.run step live ops).skipped = live.skipped := by
  induction ops generalizing live with
  | nil => exact ⟨rfl, rfl⟩
  | cons op ops ih =>
      obtain ⟨session, skipped⟩ := ih (live.step op)
      rw [Machine.run_cons, List.flatMap_cons]
      refine ⟨session.trans ?_, skipped⟩
      cases op <;> rfl

-- The relay brings exactly the frames of the groups that the viewer has not skipped.
def Fed (live : Live) : Prop := live.relay.brought .video = frames (live.session.groups.drop live.skipped)

theorem step_fed (live : Live) (op : LiveOp) (fed : live.Fed) : (live.step op).Fed := by
  have grown := live.relay.step_brought RELAY_CAPACITY (live.choice op) .video
  rw [Fed] at fed
  rw [Fed, step, grown, fed]
  cases op with
  | publisher received =>
      obtain ⟨added, frames⟩ := live.session.step_frames received live.skipped
      simp only [choice, Mux.produced, sessionAfter, frames, if_true, List.drop_left]
  | audio frames => simp [choice, Mux.produced, sessionAfter]
  | read track => simp [choice, Mux.produced, sessionAfter]
  | offer track => simp [choice, Mux.produced, sessionAfter]
  | deliver => simp [choice, Mux.produced, sessionAfter]
  | leave => simp [choice, Mux.produced, sessionAfter]

theorem joined_fed (session : IngestSession) (skipped : Nat) (audio : List Bytes) : (joined session skipped audio).Fed :=
  Mux.start_brought _ _

end Live

theorem video_frames_framed (delivered : List (Track × Bytes)) :
    videoFrames (delivered.map framed) = Table.valuesOf delivered .video := by
  induction delivered with
  | nil => rfl
  | cons frame delivered ih =>
      obtain ⟨track, payload⟩ := frame
      rw [videoFrames] at ih
      cases track with
      | video => simp [videoFrames, framed, Track.tag, Table.valuesOf, ih]
      | audio => simp [videoFrames, framed, Track.tag, Table.valuesOf, ih]

-- Whenever a viewer joins and however its relay and the publisher take turns, it shows
-- the start of what was published in the groups it reads, and all of it once the relay
-- is idle.
theorem viewer_shows_broadcast (before : List Received) (skipped : Nat) (audio : List Bytes) (ops : List LiveOp)
    (accepted : ∀ received ∈ before ++ ops.flatMap Live.published, received.Accepted)
    (small : ∀ received ∈ before ++ ops.flatMap Live.published, received.message.Small) :
    let live := Machine.run Live.step (Live.joined (IngestSession.new.run before) skipped audio) ops
    let messages := (before ++ ops.flatMap Live.published).map Received.message
    watch none (videoFrames live.sent) <+: shown ((broadcast messages).groups.drop skipped) ∧
      (live.relay.Idle RELAY_CAPACITY →
        watch none (videoFrames live.sent) = shown ((broadcast messages).groups.drop skipped)) := by
  intro live messages
  have fed : live.Fed := Machine.invariant_of_run Live.step_fed _ ops (Live.joined_fed _ skipped audio)
  obtain ⟨session, same⟩ := Live.run_session (Live.joined (IngestSession.new.run before) skipped audio) ops
  have whole : live.session = IngestSession.new.run (before ++ ops.flatMap Live.published) := by
    rw [session]
    exact (Machine.run_append IngestSession.step .new before (ops.flatMap Live.published)).symm
  have carried := List.forall₂_drop skipped (broadcast_carried _ accepted small)
  have everything : watch none (live.relay.brought .video) = shown ((broadcast messages).groups.drop skipped) := by
    rw [fed, whole, same]
    exact watch_groups none _ _ carried
  have seen : videoFrames live.sent = Table.valuesOf live.relay.delivered .video := video_frames_framed _
  rw [seen, ← everything]
  refine ⟨?_, fun idle => by rw [Mux.idle_delivered RELAY_CAPACITY live.relay (by decide) idle]⟩
  obtain ⟨rest, split⟩ := live.relay.delivered_begins .video
  rw [← split]
  exact watch_begins none _ rest

def sends (data : Bytes) : Received := ⟨.binary data, ⟨some 0, true, true⟩, true⟩

-- A configuration for 1280x720, and three pictures, the last two of them in a group.
def browserConfig : Bytes := [0, 0, 0, 0, 0, 5, 0, 2, 0xD0, 1, 0x64, 0, 0x1F, 0xFF, 0xE1, 0, 1, 0x67, 1, 0, 1, 0x68]

def browserPictures : List Bytes := [[1, 0, 0, 0, 0, 0x65, 1], [1, 0, 0, 0, 33, 0x65, 2], [2, 0, 0, 0, 66, 0x41, 3]]

def lateViewer : List LiveOp :=
  [.publisher (sends [2, 0, 0, 0, 66, 0x41, 3]), .read .video, .audio [[7]], .offer .video, .read .audio, .deliver]

theorem late_viewer_shows_group :
    let live := Machine.run Live.step (Live.joined (IngestSession.new.run
      [sends browserConfig, sends [1, 0, 0, 0, 0, 0x65, 1], sends [1, 0, 0, 0, 33, 0x65, 2]]) 1 []) lateViewer
    watch none (videoFrames live.sent) <+:
      shown ((broadcast ((browserConfig :: browserPictures).map .binary)).groups.drop 1) := by
  have all (received : Received) (member : received ∈ (browserConfig :: browserPictures).map sends) :
      received.Accepted ∧ received.message.Small := by
    obtain ⟨data, isOne, rfl⟩ := List.mem_map.mp member
    have small : ∀ data ∈ browserConfig :: browserPictures, data.length ≤ MAX_MESSAGE_SIZE := by decide
    exact ⟨⟨rfl, rfl, rfl⟩, small data isOne⟩
  exact (viewer_shows_broadcast [sends browserConfig, sends [1, 0, 0, 0, 0, 0x65, 1], sends [1, 0, 0, 0, 33, 0x65, 2]] 1 []
    lateViewer (fun received member => (all received member).1) fun received member => (all received member).2).1

end Lvqr.Ws
