import Lvqr.Runner.Ladder
import Lvqr.Runner.Numbering

set_option autoImplicit false

-- Which runs never transcode what a transcoder has put out.
namespace Lvqr

-- What a factory itself turns down of an output, going by the rendition's name.
def LadderFactory.optsOut (factory : LadderFactory) (track rendition : String) : Bool :=
  match factory with
  | video _ _ missingElements skipSourceSuffixes =>
      missingElements != [] || track != "0.mp4" || looksLikeRenditionOutput rendition skipSourceSuffixes
  | audioPassthrough _ skipSourceSuffixes => track != "1.mp4" || looksLikeRenditionOutput rendition skipSourceSuffixes
  | passthrough _ => track != "0.mp4"

theorem build_output (factory : LadderFactory) (output : Output) (source : Nat) :
    factory.build ⟨output.key.1, output.key.2, source, factory.rendition⟩ =
      !factory.optsOut output.track output.rendition := by
  cases factory with
  | video encoder rendition missingElements skipSourceSuffixes =>
      rw [LadderFactory.build, LadderFactory.optsOut, Output.key, looks_like_output]
      by_cases missing : missingElements = [] <;> by_cases video : output.track = "0.mp4" <;> simp [missing, video]
  | audioPassthrough rendition skipSourceSuffixes =>
      rw [LadderFactory.build, LadderFactory.optsOut, Output.key, looks_like_output]
      by_cases audio : output.track = "1.mp4" <;> simp [audio]
  | passthrough rendition =>
      rw [LadderFactory.build, LadderFactory.optsOut, Output.key]
      by_cases video : output.track = "0.mp4" <;> simp [video]

theorem refuses_output (factories : List LadderFactory) (output : Output) :
    LadderFactory.runner.refuses factories output.key.1 = true ↔
      ∃ other ∈ factories, other.rendition = lastSegment output.rendition := by
  rw [RunnerKind.refuses, List.any_eq_true]
  refine exists_congr fun other => and_congr_right fun _ => ?_
  rw [← last_segment_output output.broadcast output.rendition]
  exact beq_iff_eq

namespace TranscodeServer

def NeverTranscoded (server : TranscodeServer) : Prop :=
  ∀ drain ∈ server.inner.drains, ∀ output ∈ server.outputs, output.source ≠ drain.spawn.source

instance (server : TranscodeServer) : Decidable server.NeverTranscoded :=
  inferInstanceAs (Decidable (∀ drain ∈ server.inner.drains, ∀ output ∈ server.outputs,
    output.source ≠ drain.spawn.source))

-- The guard of `spawn_for` knows the rendition behind the output it is offered.
def SpawnRecognises (server : TranscodeServer) (inRuntime : Bool) (spawn : Spawn LadderFactory) : SpawnStage → Prop
  | .check => True
  | .build => ∀ output ∈ server.outputs, output.source = spawn.source →
      (∃ other ∈ server.inner.factories, other.rendition = lastSegment output.rendition) ∨
        spawn.factory.optsOut output.track output.rendition = true ∨ inRuntime = false
  | .reserve => True

def ActivityRecognises (server : TranscodeServer) (inRuntime : Bool) : RunnerActivity LadderFactory → Prop
  | .created _ _ => True
  | .added _ => True
  | .looping _ => True
  | .spawning spawn stage _ => server.SpawnRecognises inRuntime spawn stage
  | .removing _ => True
  | .finished _ => True

def RunnerRecognises (server : TranscodeServer) : RunnerOp LadderFactory → Prop
  | .getOrCreate _ => True
  | .remove _ => True
  | .add _ => True
  | .removeNamed _ => True
  | .driveReturns _ => True
  | .advance index inRuntime _ => ∀ activity ∈ server.race.activities[index]?, server.ActivityRecognises inRuntime activity

def Recognises (server : TranscodeServer) : TranscodeOp → Prop
  | .runner op => server.RunnerRecognises op
  | .poll _ => True
  | .onStart _ _ => True

instance (server : TranscodeServer) (inRuntime : Bool) (spawn : Spawn LadderFactory) :
    DecidablePred (server.SpawnRecognises inRuntime spawn)
  | .check => inferInstanceAs (Decidable True)
  | .build => inferInstanceAs (Decidable (∀ output ∈ server.outputs, output.source = spawn.source →
      (∃ other ∈ server.inner.factories, other.rendition = lastSegment output.rendition) ∨
        spawn.factory.optsOut output.track output.rendition = true ∨ inRuntime = false))
  | .reserve => inferInstanceAs (Decidable True)

instance (server : TranscodeServer) (inRuntime : Bool) : DecidablePred (server.ActivityRecognises inRuntime)
  | .created _ _ => inferInstanceAs (Decidable True)
  | .added _ => inferInstanceAs (Decidable True)
  | .looping _ => inferInstanceAs (Decidable True)
  | .spawning spawn stage _ => inferInstanceAs (Decidable (server.SpawnRecognises inRuntime spawn stage))
  | .removing _ => inferInstanceAs (Decidable True)
  | .finished _ => inferInstanceAs (Decidable True)

instance (server : TranscodeServer) : DecidablePred server.RunnerRecognises
  | .getOrCreate _ => inferInstanceAs (Decidable True)
  | .remove _ => inferInstanceAs (Decidable True)
  | .add _ => inferInstanceAs (Decidable True)
  | .removeNamed _ => inferInstanceAs (Decidable True)
  | .driveReturns _ => inferInstanceAs (Decidable True)
  | .advance index inRuntime _ => inferInstanceAs (Decidable (∀ activity ∈ server.race.activities[index]?,
      server.ActivityRecognises inRuntime activity))

instance (server : TranscodeServer) : DecidablePred server.Recognises
  | .runner op => inferInstanceAs (Decidable (server.RunnerRecognises op))
  | .poll _ => inferInstanceAs (Decidable True)
  | .onStart _ _ => inferInstanceAs (Decidable True)

structure Sound (server : TranscodeServer) : Prop where
  numbered : ∃ names, server.race.Numbered names ∧ ∀ output ∈ server.outputs, names[output.source]? = some output.key
  waiting : ∀ (spawn : Spawn LadderFactory) (rest : SpawnLoop LadderFactory),
    .spawning spawn .reserve rest ∈ server.race.activities → ∀ output ∈ server.outputs, output.source ≠ spawn.source
  unread : server.NeverTranscoded

theorem install_sound (factories : List LadderFactory) : (install factories).Sound where
  numbered := ⟨[], RunnerRace.install_numbered factories, fun _ member => nomatch member⟩
  waiting := fun _ _ _ _ member => nomatch member
  unread := fun _ member => nomatch member

-- An output that lets a spawn pass is one whose rendition the guard knows not.
theorem passed_unrecognised (names : List SourceKey) (server : TranscodeServer) (spawn : Spawn LadderFactory)
    (output : Output) (rest : SpawnLoop LadderFactory) (index : Nat) (numbered : server.race.Numbered names)
    (named : names[output.source]? = some output.key)
    (found : server.race.activities[index]? = some (.spawning spawn .build rest)) (same : output.source = spawn.source)
    (accepted : LadderFactory.runner.refuses server.inner.factories spawn.key.1 = false)
    (builds : LadderFactory.runner.builds spawn = true) :
    ¬(∃ other ∈ server.inner.factories, other.rendition = lastSegment output.rendition) ∧
      spawn.factory.optsOut output.track output.rendition = false := by
  have mentioned : (spawn.key, spawn.source) ∈ (RunnerActivity.spawning spawn .build rest).mentions := .inl rfl
  have owed := Tasks.old_owed RunnerActivity.mentions server.race.activities index _ found mentioned
  have key : spawn.key = output.key := by
    have spawned := numbered.pending (spawn.key, spawn.source) owed
    rw [← same, named] at spawned
    exact (Option.some.inj spawned).symm
  constructor
  · intro known
    rw [key, (refuses_output server.inner.factories output).mpr known] at accepted
    cases accepted
  · have built : spawn.factory.build ⟨spawn.key.1, spawn.key.2, spawn.source, spawn.factory.rendition⟩ = true := builds
    rw [key, build_output] at built
    simpa using built

theorem runner_sound (server : TranscodeServer) (op : RunnerOp LadderFactory) (sound : server.Sound)
    (recognises : server.RunnerRecognises op) :
    Sound { server with race := server.race.step LadderFactory.runner op } := by
  obtain ⟨names, numbered, named⟩ := sound.numbered
  refine ⟨?_, ?_, ?_⟩
  · obtain ⟨more, grown⟩ := RunnerRace.step_numbered LadderFactory.runner names server.race op numbered
    exact ⟨names ++ more, grown, fun output member => RunnerRace.named_before (named output member)⟩
  · intro spawn rest reserving output member
    rcases RunnerRace.step_reserving LadderFactory.runner server.race op spawn rest reserving with
      before | ⟨index, inRuntime, pick, rfl, found, accepted, builds, within⟩
    · exact sound.waiting spawn rest before output member
    · intro same
      obtain ⟨unknown, takes⟩ := passed_unrecognised names server spawn output rest index numbered (named output member)
        found same accepted builds
      rcases recognises _ found output member same with known | optsOut | outside
      · exact unknown known
      · rw [takes] at optsOut
        cases optsOut
      · rw [within] at outside
        cases outside
  · intro drain member output put
    rcases RunnerRace.step_drains LadderFactory.runner server.race op drain member with ⟨before, was, same⟩ | ⟨rest, was⟩
    · rw [← same]
      exact sound.unread before was output put
    · exact sound.waiting drain.spawn rest was output put

-- The broadcaster of a new output has a number that nobody holds yet.
theorem output_sound (server : TranscodeServer) (index : Nat) (output : Output) (sound : server.Sound)
    (fresh : output.source = server.inner.broadcasters) (vacant : server.inner.registry.lookup output.key = none) :
    Sound { server with
      race := server.race.step LadderFactory.runner (.getOrCreate output.key)
      started := server.started ++ [index]
      outputs := server.outputs ++ [output] } := by
  obtain ⟨names, numbered, named⟩ := sound.numbered
  have newest : names.length = output.source := numbered.counted.trans fresh.symm
  have other : ∀ (spawn : Spawn LadderFactory), names[spawn.source]? = some spawn.key → output.source ≠ spawn.source := by
    intro spawn held same
    have below := RunnerRace.named_below held
    omega
  refine ⟨⟨names ++ [output.key], ?_, ?_⟩, ?_, ?_⟩
  · exact RunnerRace.get_or_create_numbered LadderFactory.runner names server.race output.key numbered vacant
  · intro put member
    rcases List.mem_append.mp member with before | new
    · exact RunnerRace.named_before (named put before)
    · rw [List.mem_singleton.mp new, ← newest, List.getElem?_concat_length]
  · intro spawn rest reserving put member
    rcases RunnerRace.step_reserving LadderFactory.runner server.race _ spawn rest reserving with
      before | ⟨_, _, _, impossible, _⟩
    · rcases List.mem_append.mp member with old | new
      · exact sound.waiting spawn rest before put old
      · rw [List.mem_singleton.mp new]
        exact other spawn (numbered.pending (spawn.key, spawn.source) ⟨_, before, .inl rfl⟩)
    · cases impossible
  · intro drain member put putIn
    rcases RunnerRace.step_drains LadderFactory.runner server.race _ drain member with ⟨before, was, same⟩ | ⟨rest, was⟩
    · rw [← same]
      rcases List.mem_append.mp putIn with old | new
      · exact sound.unread before was put old
      · rw [List.mem_singleton.mp new]
        exact other before.spawn (numbered.drained before was)
    · rcases List.mem_append.mp putIn with old | new
      · exact sound.waiting drain.spawn rest was put old
      · rw [List.mem_singleton.mp new]
        exact other drain.spawn (numbered.pending (drain.spawn.key, drain.spawn.source) ⟨_, was, .inl rfl⟩)

theorem step_sound (server : TranscodeServer) (op : TranscodeOp) (sound : server.Sound)
    (recognises : server.Recognises op) : (server.step op).Sound := by
  cases op with
  | runner op =>
      have kept := runner_sound server op sound recognises
      cases op with
      | driveReturns index =>
          rw [step]
          split
          · exact kept
          · exact sound
      | getOrCreate key => exact kept
      | remove key => exact kept
      | add factory => exact kept
      | removeNamed name => exact kept
      | advance index inRuntime pick => exact kept
  | poll index =>
      rw [step]
      split
      · split
        · exact ⟨sound.numbered, sound.waiting, sound.unread⟩
        · exact sound
      · exact sound
  | onStart index panics =>
      rw [step]
      split
      · cases made : (if panics then none else server.starting index) with
        | none => exact ⟨sound.numbered, sound.waiting, sound.unread⟩
        | some output =>
            split at made
            · cases made
            · obtain ⟨fresh, vacant⟩ := starting_fresh server index output made
              exact output_sound server index output sound fresh vacant
      · exact sound

end TranscodeServer

theorem outputs_never_transcoded (factories : List LadderFactory) (ops : List TranscodeOp)
    (recognised : Machine.AllSteps TranscodeServer.Recognises TranscodeServer.step (.install factories) ops) :
    (Machine.run TranscodeServer.step (.install factories) ops).NeverTranscoded :=
  (Machine.invariant_of_guarded TranscodeServer.step_sound _ ops (TranscodeServer.install_sound factories)
    recognised).unread

theorem audio_output_recognised :
    (Machine.run TranscodeServer.step (.install [.audioPassthrough "720p" ["720p"]]) audioLadder).NeverTranscoded :=
  outputs_never_transcoded [.audioPassthrough "720p" ["720p"]] audioLadder (by decide)

-- The rendition leaves the ladder, its output stays, and a new rendition comes
-- that skips the names of the ladder it joins.
def ladderReplaced : List TranscodeOp :=
  audioLadder ++ [.runner (.removeNamed "ultra"), .runner (.advance 2 true 0),
    .runner (.add (.audioPassthrough "low" []))] ++ List.replicate 12 (.runner (.advance 3 true 0))

theorem removed_output_transcoded :
    ¬ (Machine.run TranscodeServer.step (.install [.audioPassthrough "ultra" ["ultra"]]) ladderReplaced).NeverTranscoded := by
  decide

end Lvqr
