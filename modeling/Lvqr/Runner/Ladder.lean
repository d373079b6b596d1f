import Lvqr.Runner.Drains
import Mathlib.Tactic.Common

set_option autoImplicit false

-- The transcoder factories of a ladder and the output entries that their running
-- transcoders create in the registry the runner listens to.
namespace Lvqr

def looksLikeRenditionOutput (broadcast : String) (extra : List String) : Bool :=
  let suffix := lastSegment broadcast
  if suffix = "" then false
  else if extra.any fun skipped => skipped == suffix then true
  else if suffix.toList.length < 2 then false
  else if suffix.toList.getLast? ≠ some 'p' then false
  else suffix.toList.dropLast.all Char.isDigit

inductive VideoEncoder where
  | software
  | videotoolbox
  | nvenc
  | vaapi
  | qsv
deriving DecidableEq, Repr

def VideoEncoder.factoryName : VideoEncoder → String
  | software => "software"
  | videotoolbox => "videotoolbox"
  | nvenc => "nvenc"
  | vaapi => "vaapi"
  | qsv => "qsv"

-- The video factories differ in their name and in the elements they probe for.
inductive LadderFactory where
  | video (encoder : VideoEncoder) (rendition : String) (missingElements skipSourceSuffixes : List String)
  | audioPassthrough (rendition : String) (skipSourceSuffixes : List String)
  | passthrough (rendition : String)
deriving DecidableEq, Repr

namespace LadderFactory

def name : LadderFactory → String
  | video encoder _ _ _ => encoder.factoryName
  | audioPassthrough _ _ => "audio-passthrough"
  | passthrough _ => "passthrough"

def rendition : LadderFactory → String
  | video _ rendition _ _ => rendition
  | audioPassthrough rendition _ => rendition
  | passthrough rendition => rendition

def build (factory : LadderFactory) (ctx : TranscoderContext) : Bool :=
  match factory with
  | video _ _ missingElements skipSourceSuffixes =>
      if missingElements ≠ [] then false
      else if ctx.track ≠ "0.mp4" then false
      else if looksLikeRenditionOutput ctx.broadcast skipSourceSuffixes then false
      else true
  | audioPassthrough _ skipSourceSuffixes =>
      if ctx.track ≠ "1.mp4" then false
      else if looksLikeRenditionOutput ctx.broadcast skipSourceSuffixes then false
      else true
  | passthrough _ => if ctx.track ≠ "0.mp4" then false else true

-- The track a transcoder publishes, if it publishes at all.
def outputTrack : LadderFactory → Option String
  | video _ _ _ _ => some "0.mp4"
  | audioPassthrough _ _ => some "1.mp4"
  | passthrough _ => none

def methods : TranscoderFactory LadderFactory := ⟨name, rendition, build⟩

def runner : RunnerKind LadderFactory (String × String) := methods.runner

end LadderFactory

def outputBroadcastName (sourceBroadcast rendition : String) : String := sourceBroadcast ++ "/" ++ rendition

-- An entry that a transcoder created, under the number of its broadcaster.
structure Output where
  source : Nat
  broadcast : String
  rendition : String
  track : String
deriving DecidableEq, Repr

def Output.key (output : Output) : SourceKey := (outputBroadcastName output.broadcast output.rendition, output.track)

-- A drain whose task has been polled goes through `on_start` even when it is
-- aborted meanwhile.
structure TranscodeServer where
  race : RunnerRace LadderFactory (String × String)
  polled : List Nat
  started : List Nat
  outputs : List Output

inductive TranscodeOp where
  | runner (op : RunnerOp LadderFactory)
  | poll (index : Nat)
  | onStart (index : Nat) (panics : Bool)
deriving DecidableEq, Repr

namespace TranscodeServer

def install (factories : List LadderFactory) : TranscodeServer := ⟨.install factories, [], [], []⟩

def inner (server : TranscodeServer) : RunnerInner LadderFactory (String × String) := server.race.inner

-- The entry that `get_or_create` makes for a transcoder, unless it finds one.
def created (server : TranscodeServer) (spawn : Spawn LadderFactory) : Option Output :=
  match spawn.factory.outputTrack with
  | none => none
  | some track =>
      let output : Output := ⟨server.inner.broadcasters, spawn.key.1, spawn.factory.rendition, track⟩
      match server.inner.registry.lookup output.key with
      | some _ => none
      | none => some output

def starting (server : TranscodeServer) (index : Nat) : Option Output :=
  if index ∈ server.polled ∧ index ∉ server.started then
    match server.inner.drains[index]? with
    | none => none
    | some drain => server.created drain.spawn
  else none

-- A task returns only after its `on_start`.
def step (server : TranscodeServer) : TranscodeOp → TranscodeServer
  | .runner (.driveReturns index) =>
      if index ∈ server.started then
        { server with race := server.race.step LadderFactory.runner (.driveReturns index) }
      else server
  | .runner op => { server with race := server.race.step LadderFactory.runner op }
  | .poll index =>
      match server.inner.drains[index]? with
      | some drain =>
          if drain.running = true ∧ index ∉ server.polled then { server with polled := server.polled ++ [index] }
          else server
      | none => server
  | .onStart index panics =>
      if index ∈ server.polled ∧ index ∉ server.started then
        match (if panics then none else server.starting index) with
        | none => { server with started := server.started ++ [index] }
        | some output =>
            { server with
              race := server.race.step LadderFactory.runner (.getOrCreate output.key)
              started := server.started ++ [index]
              outputs := server.outputs ++ [output] }
      else server

end TranscodeServer

-- The last segment of an output's name is that of its rendition's.
theorem last_segment_output (sourceBroadcast rendition : String) :
    lastSegment (outputBroadcastName sourceBroadcast rendition) = lastSegment rendition := by
  have chars : (outputBroadcastName sourceBroadcast rendition).toList =
      sourceBroadcast.toList ++ '/' :: rendition.toList := by simp [outputBroadcastName]
  unfold lastSegment
  rw [chars]
  cases split : Text.rsplitOnce '/' rendition.toList with
  | none =>
      rw [Text.rsplit_once_append '/' _ _ (Text.rsplit_once_none '/' _ split)]
      exact String.ofList_toList
  | some parts =>
      obtain ⟨whole, absent⟩ := Text.rsplit_once_some '/' _ parts.1 parts.2 split
      have again : sourceBroadcast.toList ++ '/' :: rendition.toList =
          (sourceBroadcast.toList ++ '/' :: parts.1) ++ '/' :: parts.2 := by simp [whole]
      rw [again, Text.rsplit_once_append '/' _ _ absent]

theorem looks_like_output (sourceBroadcast rendition : String) (extra : List String) :
    looksLikeRenditionOutput (outputBroadcastName sourceBroadcast rendition) extra =
      looksLikeRenditionOutput rendition extra := by
  rw [looksLikeRenditionOutput, looksLikeRenditionOutput, last_segment_output]

namespace TranscodeServer

theorem created_fresh (server : TranscodeServer) (spawn : Spawn LadderFactory) (output : Output)
    (created : server.created spawn = some output) :
    output.source = server.inner.broadcasters ∧ server.inner.registry.lookup output.key = none := by
  rw [TranscodeServer.created] at created
  split at created
  · cases created
  simp only at created
  split at created
  · cases created
  · rename_i vacant
    obtain rfl := Option.some.inj created
    exact ⟨rfl, vacant⟩

theorem starting_ready (server : TranscodeServer) (index : Nat) (output : Output)
    (starting : server.starting index = some output) : index ∈ server.polled ∧ index ∉ server.started := by
  rw [TranscodeServer.starting] at starting
  split at starting
  · assumption
  · cases starting

theorem starting_fresh (server : TranscodeServer) (index : Nat) (output : Output)
    (starting : server.starting index = some output) :
    output.source = server.inner.broadcasters ∧ server.inner.registry.lookup output.key = none := by
  rw [TranscodeServer.starting] at starting
  split at starting
  · cases found : server.inner.drains[index]? with
    | none =>
        rw [found] at starting
        cases starting
    | some drain =>
        rw [found] at starting
        exact server.created_fresh drain.spawn output starting
  · cases starting

end TranscodeServer

def liveAudio : SourceKey := ("live/demo", "1.mp4")

-- An audio source is published, drained and republished under its rendition.
def audioLadder : List TranscodeOp :=
  .runner (.getOrCreate liveAudio) :: List.replicate 6 (.runner (.advance 0 true 0)) ++ [.poll 0, .onStart 0 false] ++
    List.replicate 5 (.runner (.advance 1 true 0))

end Lvqr
