import Lvqr.Runner.Ladder
import Lvqr.Runner.Numbering

set_option autoImplicit false

-- What becomes of the entries that transcoders created once their source is over.
namespace Lvqr

namespace RunnerRace

variable {Factory Label : Type} [DecidableEq Label] (kind : RunnerKind Factory Label)

theorem step_broadcasters (race : RunnerRace Factory Label) (op : RunnerOp Factory) :
    race.inner.broadcasters ≤ (step kind race op).inner.broadcasters := by
  cases op with
  | getOrCreate key =>
      rw [step]
      split
      · exact Nat.le_refl _
      · exact Nat.le_succ _
  | remove key => exact Nat.le_refl _
  | add factory =>
      rw [step]
      split
      · exact Nat.le_refl _
      · exact Nat.le_refl _
  | removeNamed name => exact Nat.le_refl _
  | driveReturns index => exact Nat.le_refl _
  | advance index inRuntime pick =>
      rw [step]
      cases race.activities[index]? with
      | none => exact Nat.le_refl _
      | some activity =>
          exact Nat.le_of_eq (advance_advanced kind race.inner inRuntime pick activity).broadcasters.symm

-- An entry goes when it is removed, and is not made twice.
theorem step_registry (race : RunnerRace Factory Label) (op : RunnerOp Factory) (key : SourceKey) (source : Nat)
    (numbered : source < race.inner.broadcasters) :
    (step kind race op).inner.registry.lookup key = some source ↔
      race.inner.registry.lookup key = some source ∧ op ≠ .remove key := by
  have same (other : op ≠ .remove key) : race.inner.registry.lookup key = some source ↔
      race.inner.registry.lookup key = some source ∧ op ≠ .remove key := (and_iff_left other).symm
  cases op with
  | getOrCreate made =>
      rw [step]
      cases found : race.inner.registry.lookup made with
      | some _ => exact same (by simp)
      | none =>
          rw [← same (by simp)]
          simp only [push, Table.lookup_insert_eq]
          split
          · rename_i own
            rw [own, found]
            constructor
            · intro newest
              exact absurd (Option.some.inj newest) (Nat.ne_of_gt numbered)
            · intro impossible
              cases impossible
          · exact Iff.rfl
  | remove removed =>
      rw [step, Table.lookup_erase_eq]
      split
      · rename_i own
        subst own
        constructor
        · intro impossible
          cases impossible
        · exact fun both => absurd rfl both.2
      · rename_i other
        exact same fun equal => other (RunnerOp.remove.inj equal).symm
  | add factory =>
      rw [step]
      split
      · exact same (by simp)
      · exact same (by simp)
  | removeNamed name => exact same (by simp)
  | driveReturns index => exact same (by simp)
  | advance index inRuntime pick =>
      rw [step]
      cases race.activities[index]? with
      | none => exact same (by simp)
      | some activity =>
          change (advance kind race.inner inRuntime pick activity).1.registry.lookup key = _ ↔ _
          rw [(advance_advanced kind race.inner inRuntime pick activity).registry]
          exact same (by simp)

end RunnerRace

namespace TranscodeServer

def Ended (server : TranscodeServer) (broadcast : String) : Prop :=
  (∀ key ∈ server.inner.registry.keys, key.1 ≠ broadcast) ∧
    ∀ (index : Nat) (drain : Drain LadderFactory), server.inner.drains[index]? = some drain →
      drain.spawn.key.1 = broadcast → drain.running = false ∧ (index ∈ server.polled → index ∈ server.started)

-- The entries of an ended source's outputs are out of the registry.
def OutputsEnd (server : TranscodeServer) : Prop :=
  ∀ output ∈ server.outputs, server.Ended output.broadcast →
    server.inner.registry.lookup output.key ≠ some output.source

theorem step_start (server : TranscodeServer) (index : Nat) (output : Output)
    (starting : server.starting index = some output) :
    server.step (.onStart index false) =
      { server with
        race := server.race.step LadderFactory.runner (.getOrCreate output.key)
        started := server.started ++ [index]
        outputs := server.outputs ++ [output] } := by
  simp only [step, if_pos (starting_ready server index output starting), Bool.false_eq_true, if_false, starting]

-- A step either makes an output or leaves the outputs and works on the runner alone.
theorem step_outcomes (server : TranscodeServer) (op : TranscodeOp) :
    (∃ index output, op = .onStart index false ∧ server.starting index = some output) ∨
      ((server.step op).outputs = server.outputs ∧ (∀ index, op = .onStart index false → server.starting index = none) ∧
        ((server.step op).race = server.race ∧ (∀ key, op ≠ .runner (.remove key)) ∨
          ∃ runnerOp, op = .runner runnerOp ∧
            (server.step op).race = server.race.step LadderFactory.runner runnerOp)) := by
  cases op with
  | runner op =>
      cases op with
      | driveReturns index =>
          refine .inr ?_
          rw [step]
          split
          · exact ⟨rfl, nofun, .inr ⟨_, rfl, rfl⟩⟩
          · exact ⟨rfl, nofun, .inl ⟨rfl, nofun⟩⟩
      | getOrCreate key => exact .inr ⟨rfl, nofun, .inr ⟨_, rfl, rfl⟩⟩
      | remove key => exact .inr ⟨rfl, nofun, .inr ⟨_, rfl, rfl⟩⟩
      | add factory => exact .inr ⟨rfl, nofun, .inr ⟨_, rfl, rfl⟩⟩
      | removeNamed name => exact .inr ⟨rfl, nofun, .inr ⟨_, rfl, rfl⟩⟩
      | advance index inRuntime pick => exact .inr ⟨rfl, nofun, .inr ⟨_, rfl, rfl⟩⟩
  | poll index =>
      refine .inr ?_
      rw [step]
      split
      · split
        · exact ⟨rfl, nofun, .inl ⟨rfl, nofun⟩⟩
        · exact ⟨rfl, nofun, .inl ⟨rfl, nofun⟩⟩
      · exact ⟨rfl, nofun, .inl ⟨rfl, nofun⟩⟩
  | onStart index panics =>
      cases starting : server.starting index with
      | some output =>
          cases panics with
          | false => exact .inl ⟨index, output, rfl, starting⟩
          | true =>
              refine .inr ?_
              rw [step, if_pos (starting_ready server index output starting)]
              exact ⟨rfl, nofun, .inl ⟨rfl, nofun⟩⟩
      | none =>
          refine .inr ?_
          have silent : (if panics = true then none else server.starting index) = none := by
            rw [starting]
            exact ite_self none
          have nothing : ∀ other, TranscodeOp.onStart index panics = .onStart other false → server.starting other = none := by
            intro other same
            rw [← (TranscodeOp.onStart.inj same).1]
            exact starting
          rw [step, silent]
          split
          · exact ⟨rfl, nothing, .inl ⟨rfl, nofun⟩⟩
          · exact ⟨rfl, nothing, .inl ⟨rfl, nofun⟩⟩

theorem step_outputs (server : TranscodeServer) (op : TranscodeOp) (output : Output) :
    output ∈ (server.step op).outputs ↔ output ∈ server.outputs ∨
      ∃ index, op = .onStart index false ∧ server.starting index = some output := by
  rcases server.step_outcomes op with ⟨index, made, rfl, starting⟩ | ⟨same, nothing, _⟩
  · rw [server.step_start index made starting, List.mem_append, List.mem_singleton]
    refine or_congr_right ⟨?_, ?_⟩
    · rintro rfl
      exact ⟨index, rfl, starting⟩
    · rintro ⟨other, sameOp, found⟩
      rw [← (TranscodeOp.onStart.inj sameOp).1, starting] at found
      exact (Option.some.inj found).symm
  · rw [same]
    refine ⟨.inl, fun either => either.elim id ?_⟩
    rintro ⟨index, isStart, starting⟩
    rw [nothing index isStart] at starting
    cases starting

theorem step_lookup (server : TranscodeServer) (op : TranscodeOp) (key : SourceKey) (source : Nat)
    (numbered : source < server.inner.broadcasters) :
    (server.step op).inner.registry.lookup key = some source ↔
      server.inner.registry.lookup key = some source ∧ op ≠ .runner (.remove key) := by
  have steps := fun runnerOp =>
    RunnerRace.step_registry LadderFactory.runner server.race runnerOp key source numbered
  rcases server.step_outcomes op with ⟨index, made, rfl, starting⟩ | ⟨_, _, ⟨same, other⟩ | ⟨runnerOp, rfl, stepped⟩⟩
  · rw [server.step_start index made starting]
    exact (steps _).trans (and_congr_right fun _ => iff_of_true nofun nofun)
  · rw [inner, same]
    exact (and_iff_left (other key)).symm
  · rw [inner, stepped]
    exact (steps runnerOp).trans (and_congr_right fun _ => not_congr ⟨congrArg _, TranscodeOp.runner.inj⟩)

theorem step_numbers (server : TranscodeServer) (op : TranscodeOp) :
    server.inner.broadcasters ≤ (server.step op).inner.broadcasters := by
  rcases server.step_outcomes op with ⟨index, made, rfl, starting⟩ | ⟨_, _, ⟨same, _⟩ | ⟨runnerOp, _, stepped⟩⟩
  · rw [server.step_start index made starting]
    exact RunnerRace.step_broadcasters LadderFactory.runner server.race _
  · rw [inner, inner, same]
  · rw [inner, inner, stepped]
    exact RunnerRace.step_broadcasters LadderFactory.runner server.race runnerOp

theorem run_lookup (server : TranscodeServer) (ops : List TranscodeOp) (key : SourceKey) (source : Nat)
    (numbered : source < server.inner.broadcasters) :
    (Machine.run step server ops).inner.registry.lookup key = some source ↔
      server.inner.registry.lookup key = some source ∧ .runner (.remove key) ∉ ops := by
  induction ops generalizing server with
  | nil => exact (and_iff_left List.not_mem_nil).symm
  | cons op ops ih =>
      have later := Nat.lt_of_lt_of_le numbered (server.step_numbers op)
      rw [Machine.run_cons, ih (server.step op) later, server.step_lookup op key source numbered, List.mem_cons,
        not_or, and_assoc]
      exact and_congr_right fun _ => and_congr_left fun _ => ne_comm

theorem run_outputs (server : TranscodeServer) (ops : List TranscodeOp) (output : Output) :
    output ∈ (Machine.run step server ops).outputs ↔ output ∈ server.outputs ∨
      ∃ before index after, ops = before ++ .onStart index false :: after ∧
        (Machine.run step server before).starting index = some output := by
  induction ops generalizing server with
  | nil =>
      refine ⟨.inl, fun either => either.elim id ?_⟩
      rintro ⟨before, index, after, split, _⟩
      exact absurd split.symm (List.append_ne_nil_of_right_ne_nil before (List.cons_ne_nil _ _))
  | cons op ops ih =>
      rw [Machine.run_cons, ih (server.step op), server.step_outputs op output, or_assoc]
      refine or_congr_right ⟨?_, ?_⟩
      · rintro (⟨index, rfl, starting⟩ | ⟨before, index, after, rfl, starting⟩)
        · exact ⟨[], index, ops, rfl, starting⟩
        · exact ⟨op :: before, index, after, rfl, starting⟩
      · rintro ⟨before, index, after, split, starting⟩
        cases before with
        | nil =>
            obtain ⟨rfl, rfl⟩ := List.cons.inj split
            exact .inl ⟨index, rfl, starting⟩
        | cons first before =>
            obtain ⟨rfl, rfl⟩ := List.cons.inj split
            exact .inr ⟨before, index, after, rfl, starting⟩

-- A new output stays in the registry until somebody removes it there.
theorem output_registered (server : TranscodeServer) (index : Nat) (after : List TranscodeOp) (output : Output)
    (starting : server.starting index = some output) :
    (Machine.run step server (.onStart index false :: after)).inner.registry.lookup output.key = some output.source ↔
      .runner (.remove output.key) ∉ after := by
  obtain ⟨fresh, vacant⟩ := server.starting_fresh index output starting
  have made : (server.step (.onStart index false)).inner.registry.lookup output.key = some output.source ∧
      output.source < (server.step (.onStart index false)).inner.broadcasters := by
    rw [server.step_start index output starting]
    simp only [inner, RunnerRace.step] at vacant fresh ⊢
    rw [vacant, fresh]
    exact ⟨AList.lookup_insert _, Nat.lt_succ_self _⟩
  rw [Machine.run_cons, run_lookup _ after output.key output.source made.2]
  exact and_iff_right made.1

end TranscodeServer

-- Nothing but a removal by somebody else takes an output out of the registry.
theorem outputs_end_iff (factories : List LadderFactory) (ops : List TranscodeOp) :
    (Machine.run TranscodeServer.step (.install factories) ops).OutputsEnd ↔
      ∀ (before after : List TranscodeOp) (index : Nat) (output : Output),
        ops = before ++ .onStart index false :: after →
        (Machine.run TranscodeServer.step (.install factories) before).starting index = some output →
        (Machine.run TranscodeServer.step (.install factories) ops).Ended output.broadcast →
        .runner (.remove output.key) ∈ after := by
  constructor
  · intro outputsEnd before after index output split starting ended
    have put : output ∈ (Machine.run TranscodeServer.step (.install factories) ops).outputs :=
      (TranscodeServer.run_outputs _ ops output).mpr (.inr ⟨before, index, after, split, starting⟩)
    have gone := outputsEnd output put ended
    rw [split, Machine.run_append, ne_eq, TranscodeServer.output_registered _ index after output starting] at gone
    exact not_not.mp gone
  · intro removed output put ended
    rcases (TranscodeServer.run_outputs _ ops output).mp put with never | ⟨before, index, after, split, starting⟩
    · cases never
    · have gone := removed before after index output split starting ended
      rw [split, Machine.run_append, ne_eq, TranscodeServer.output_registered _ index after output starting]
      exact not_not.mpr gone

def sourceOver : List TranscodeOp := audioLadder ++ [.runner (.remove liveAudio), .runner (.driveReturns 0)]

theorem output_outlives_source :
    ¬ (Machine.run TranscodeServer.step (.install [.audioPassthrough "720p" ["720p"]]) sourceOver).OutputsEnd := by
  intro outputsEnd
  refine outputsEnd ⟨1, "live/demo", "720p", "1.mp4"⟩ (by decide) ⟨by decide, ?_⟩ (by decide)
  intro index drain found _
  have drains : (Machine.run TranscodeServer.step (.install [.audioPassthrough "720p" ["720p"]])
      sourceOver).inner.drains = [⟨⟨.audioPassthrough "720p" ["720p"], liveAudio, 0⟩, false⟩] := by decide
  rw [drains, List.getElem?_singleton] at found
  split at found
  · rename_i first
    subst first
    obtain rfl := Option.some.inj found
    exact ⟨rfl, fun _ => by decide⟩
  · cases found

end Lvqr
