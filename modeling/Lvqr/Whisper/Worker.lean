import Lvqr.Fragment.Broadcaster
import Lvqr.Lib.Machine
import Lvqr.Lib.Text
import Lvqr.Lib.Utf8
import Lvqr.Whisper.Asc

set_option autoImplicit false

-- The captions agent of one broadcast: its fragments go over a bounded queue to a worker
-- that decodes them and transcribes what it has heard window by window.
namespace Lvqr.Whisper

open Cmaf (fourCc)

def WHISPER_SAMPLE_RATE : Nat := 16000

def WORKER_QUEUE_DEPTH : Nat := 64

def windowSamples (windowMs : Nat) : Nat := windowMs * WHISPER_SAMPLE_RATE / 1000

-- No step of the walk panics on a payload in memory (`first_body_safe`).
def extractFirstMdat (payload : Bytes) : Option Bytes := (firstBody (fourCc "mdat") payload).toOption

structure WhisperSegment where
  startTimestamp : Int
  endTimestamp : Int
  text : Option String
deriving DecidableEq, Repr

structure TranscribedCaption where
  broadcast : String
  startTs : Nat
  endTs : Nat
  text : String
deriving DecidableEq, Repr

-- The AAC decoder with its resampler, and the transcriber. A decode that fails gives no
-- samples, a failed pass no segments; a segment can be missing.
structure Engine (Sample Decoder Context : Type) where
  decodeFrame : Decoder → Nat → Bytes → Decoder × Option (List Sample)
  full : Context → List Sample → Context × Option (List (Option WhisperSegment))

structure Settings where
  broadcast : String
  sourceSampleRate : Nat
  windowSamples : Nat
  queueDepth : Nat
deriving DecidableEq, Repr

-- `passes` are the windows that were handed to the transcriber.
structure Worker (Sample Decoder Context : Type) where
  decoder : Decoder
  context : Context
  pcm : List Sample
  windowStartDts : Option Nat
  passes : List (Nat × List Sample)
  captions : List TranscribedCaption
  fragments : List Media.Fragment
  exited : Bool

-- Centiseconds into the window, as ticks of the source.
def ticks (settings : Settings) (windowStart : Nat) (centiseconds : Int) : Nat :=
  (windowStart + centiseconds.toNat * settings.sourceSampleRate % 2 ^ 64 / 100) % 2 ^ 64

-- `clock` is the wall clock at each caption of the pass.
def publish (settings : Settings) (windowStart : Nat) (clock : Nat → Nat) (emitted : Nat) :
    List (Option WhisperSegment) → List (TranscribedCaption × Media.Fragment)
  | [] => []
  | none :: segments => publish settings windowStart clock emitted segments
  | some segment :: segments =>
      match segment.text with
      | none => publish settings windowStart clock emitted segments
      | some text =>
          let trimmed := Text.trim text.toList
          if trimmed = [] then publish settings windowStart clock emitted segments
          else
            let startTs := ticks settings windowStart segment.startTimestamp
            let endTs := ticks settings windowStart segment.endTimestamp
            let durationMs := (endTs - startTs) * 1000 % 2 ^ 64 / max settings.sourceSampleRate 1
            let now := clock emitted
            let caption : TranscribedCaption := ⟨settings.broadcast, startTs, endTs, String.ofList trimmed⟩
            let fragment : Media.Fragment :=
              ⟨"captions", emitted, now, now, durationMs, .KEYFRAME, Utf8.encode trimmed⟩
            (caption, fragment) :: publish settings windowStart clock (emitted + 1) segments

section Agent

variable {Sample Decoder Context : Type} (engine : Engine Sample Decoder Context) (settings : Settings)

def runInference (worker : Worker Sample Decoder Context) (clock : Nat → Nat) (startDts : Nat) (pcm : List Sample) :
    Worker Sample Decoder Context :=
  let (context, segments) := engine.full worker.context pcm
  let published := publish settings startDts clock 0 (segments.getD [])
  { worker with
    context := context
    passes := worker.passes ++ [(startDts, pcm)]
    captions := worker.captions ++ published.map Prod.fst
    fragments := worker.fragments ++ published.map Prod.snd }

-- The body of the loop on a frame.
def receive (worker : Worker Sample Decoder Context) (clock : Nat → Nat) (frame : Nat × Bytes) :
    Worker Sample Decoder Context :=
  let startDts := worker.windowStartDts.getD frame.1
  let (decoder, decoded) := engine.decodeFrame worker.decoder frame.1 frame.2
  match decoded with
  | none => { worker with decoder := decoder, windowStartDts := some startDts }
  | some samples =>
      let pcm := worker.pcm ++ samples
      if settings.windowSamples ≤ pcm.length then
        { runInference engine settings { worker with decoder := decoder } clock startDts pcm with
          pcm := []
          windowStartDts := none }
      else { worker with decoder := decoder, pcm := pcm, windowStartDts := some startDts }

-- And where the sender is gone.
def finish (worker : Worker Sample Decoder Context) (clock : Nat → Nat) : Worker Sample Decoder Context :=
  match worker.windowStartDts with
  | none => { worker with exited := true }
  | some startDts =>
      if worker.pcm = [] then { worker with windowStartDts := none, exited := true }
      else
        { runInference engine settings worker clock startDts worker.pcm with
          windowStartDts := none
          exited := true }

-- `sent` are the frames that the queue took.
structure CaptionsAgent (Sample Decoder Context : Type) where
  worker : Worker Sample Decoder Context
  queue : List (Nat × Bytes)
  closed : Bool
  sent : List (Nat × Bytes)

inductive AgentOp where
  | fragment (dts : Nat) (payload : Bytes)
  | work (clock : Nat → Nat)
  | stop

def onStart (decoder : Decoder) (context : Context) : CaptionsAgent Sample Decoder Context :=
  ⟨⟨decoder, context, [], none, [], [], [], false⟩, [], false, []⟩

def sendFrame (agent : CaptionsAgent Sample Decoder Context) (frame : Nat × Bytes) :
    CaptionsAgent Sample Decoder Context :=
  if agent.queue.length < settings.queueDepth then
    { agent with queue := agent.queue ++ [frame], sent := agent.sent ++ [frame] }
  else agent

-- The worker waits on an empty queue until the sender is dropped.
def step (agent : CaptionsAgent Sample Decoder Context) : AgentOp → CaptionsAgent Sample Decoder Context
  | .fragment dts payload =>
      if agent.closed then agent
      else
        match extractFirstMdat payload with
        | none => agent
        | some aac => sendFrame settings agent (dts, aac)
  | .work clock =>
      if agent.worker.exited then agent
      else
        match agent.queue with
        | frame :: queue => { agent with worker := receive engine settings agent.worker clock frame, queue := queue }
        | [] => if agent.closed then { agent with worker := finish engine settings agent.worker clock } else agent
  | .stop => { agent with closed := true }

-- What the decoder makes of the frames, one after another.
def heard : Decoder → List (Nat × Bytes) → List (Nat × List Sample)
  | _, [] => []
  | decoder, frame :: frames =>
      let (next, decoded) := engine.decodeFrame decoder frame.1 frame.2
      (frame.1, decoded.getD []) :: heard next frames

def decoderAfter (decoder : Decoder) (frames : List (Nat × Bytes)) : Decoder :=
  frames.foldl (fun decoder frame => (engine.decodeFrame decoder frame.1 frame.2).1) decoder

end Agent

section Windows

variable {Sample : Type}

def samplesOf (frames : List (Nat × List Sample)) : List Sample := frames.flatMap Prod.snd

-- A window starts at its first frame, decoded or not.
def window (frames : List (Nat × List Sample)) : Nat × List Sample :=
  ((frames.head?.map Prod.fst).getD 0, samplesOf frames)

-- The last frame is the one that filled it.
structure Filled (windowSamples : Nat) (frames : List (Nat × List Sample)) : Prop where
  full : windowSamples ≤ (samplesOf frames).length
  atLast : (samplesOf frames.dropLast).length < windowSamples

-- The frames of the windows done, and of the one that is not full yet.
structure Cut (windowSamples : Nat) (frames : List (Nat × List Sample)) (groups : List (List (Nat × List Sample)))
    (last : List (Nat × List Sample)) : Prop where
  covers : frames = groups.flatten ++ last
  filled : ∀ group ∈ groups, Filled windowSamples group
  short : (samplesOf last).length < windowSamples

theorem samples_append (first second : List (Nat × List Sample)) :
    samplesOf (first ++ second) = samplesOf first ++ samplesOf second := List.flatMap_append

theorem Cut.wait {windowSamples : Nat} {frames last : List (Nat × List Sample)} {groups : List (List (Nat × List Sample))}
    (cut : Cut windowSamples frames groups last) (frame : Nat × List Sample)
    (short : (samplesOf last ++ frame.2).length < windowSamples) :
    Cut windowSamples (frames ++ [frame]) groups (last ++ [frame]) where
  covers := by rw [cut.covers, List.append_assoc]
  filled := cut.filled
  short := by
    rw [samples_append]
    simpa [samplesOf] using short

theorem Cut.fill {windowSamples : Nat} {frames last : List (Nat × List Sample)} {groups : List (List (Nat × List Sample))}
    (cut : Cut windowSamples frames groups last) (positive : 0 < windowSamples) (frame : Nat × List Sample)
    (full : windowSamples ≤ (samplesOf last ++ frame.2).length) :
    Cut windowSamples (frames ++ [frame]) (groups ++ [last ++ [frame]]) [] where
  covers := by rw [cut.covers]; simp
  filled := by
    intro group member
    rcases List.mem_append.mp member with earlier | here
    · exact cut.filled group earlier
    · obtain rfl := List.mem_singleton.mp here
      refine ⟨?_, ?_⟩
      · rw [samples_append]
        simpa [samplesOf] using full
      · rw [List.dropLast_concat]
        exact cut.short
  short := positive

end Windows

section Runs

variable {Sample Decoder Context : Type} (engine : Engine Sample Decoder Context) (settings : Settings)

theorem heard_snoc (decoder : Decoder) (frames : List (Nat × Bytes)) (frame : Nat × Bytes) :
    heard engine decoder (frames ++ [frame]) = heard engine decoder frames ++
      [(frame.1, ((engine.decodeFrame (decoderAfter engine decoder frames) frame.1 frame.2).2).getD [])] := by
  induction frames generalizing decoder with
  | nil => rfl
  | cons first rest ih =>
      rw [List.cons_append, heard, heard, List.cons_append]
      exact congrArg _ (ih _)

-- A worker that has received the frames, up to its window that is not full yet.
structure Hears (decoder : Decoder) (worker : Worker Sample Decoder Context) (received : List (Nat × Bytes))
    (groups : List (List (Nat × List Sample))) (last : List (Nat × List Sample)) : Prop where
  cut : Cut settings.windowSamples (heard engine decoder received) groups last
  decoder : worker.decoder = decoderAfter engine decoder received
  pcm : worker.pcm = samplesOf last
  start : worker.windowStartDts = last.head?.map Prod.fst
  passes : worker.passes = groups.map window

theorem receive_hears (positive : 0 < settings.windowSamples) (decoder : Decoder)
    (worker : Worker Sample Decoder Context) (received : List (Nat × Bytes)) (groups : List (List (Nat × List Sample)))
    (last : List (Nat × List Sample)) (hears : Hears engine settings decoder worker received groups last)
    (clock : Nat → Nat) (frame : Nat × Bytes) : ∃ groups last,
      Hears engine settings decoder (receive engine settings worker clock frame) (received ++ [frame]) groups last := by
  have snoc := heard_snoc engine decoder received frame
  have after : decoderAfter engine decoder (received ++ [frame]) =
      (engine.decodeFrame worker.decoder frame.1 frame.2).1 := by
    rw [decoderAfter, List.foldl_append, hears.decoder]
    rfl
  rw [← hears.decoder] at snoc
  have begins : ∀ samples, ((last ++ [(frame.1, samples)]).head?.map Prod.fst) =
      some (worker.windowStartDts.getD frame.1) := by
    intro samples
    rw [hears.start]
    cases last with
    | nil => rfl
    | cons first rest => rfl
  rw [receive]
  cases result : engine.decodeFrame worker.decoder frame.1 frame.2 with
  | mk next decoded =>
  rw [result] at snoc after
  cases decoded with
  | none =>
      refine ⟨groups, last ++ [(frame.1, [])], ?_, after.symm, ?_, (begins []).symm, hears.passes⟩
      · rw [snoc]
        refine hears.cut.wait (frame.1, []) ?_
        rw [List.append_nil]
        exact hears.cut.short
      · rw [samples_append]
        simpa [samplesOf] using hears.pcm
  | some samples =>
      dsimp only
      have joined : worker.pcm ++ samples = samplesOf (last ++ [(frame.1, samples)]) := by
        rw [samples_append, hears.pcm]
        simp [samplesOf]
      split
      · rename_i full
        rw [hears.pcm] at full
        refine ⟨groups ++ [last ++ [(frame.1, samples)]], [], ?_, after.symm, rfl, rfl, ?_⟩
        · rw [snoc]
          exact hears.cut.fill positive _ full
        · rw [List.map_append, List.map_singleton, ← hears.passes, window, begins samples, ← joined]
          rfl
      · rename_i short
        rw [hears.pcm] at short
        refine ⟨groups, last ++ [(frame.1, samples)], ?_, after.symm, joined, (begins samples).symm, hears.passes⟩
        rw [snoc]
        exact hears.cut.wait _ (Nat.not_le.mp short)

theorem receive_exited (worker : Worker Sample Decoder Context) (clock : Nat → Nat) (frame : Nat × Bytes) :
    (receive engine settings worker clock frame).exited = worker.exited := by
  rw [receive]
  cases engine.decodeFrame worker.decoder frame.1 frame.2 with
  | mk next decoded =>
  cases decoded with
  | none => rfl
  | some samples =>
      dsimp only
      split
      · rfl
      · rfl

-- What a worker leaves that has ended: a pass for each full window and one for the rest.
def allPasses (groups : List (List (Nat × List Sample))) (last : List (Nat × List Sample)) : List (Nat × List Sample) :=
  groups.map window ++ if (samplesOf last).isEmpty then [] else [window last]

theorem finish_exited (worker : Worker Sample Decoder Context) (clock : Nat → Nat) :
    (finish engine settings worker clock).exited = true := by
  rw [finish]
  split
  · rfl
  · split
    · rfl
    · rfl

theorem finish_passes (decoder : Decoder) (worker : Worker Sample Decoder Context) (received : List (Nat × Bytes))
    (groups : List (List (Nat × List Sample))) (last : List (Nat × List Sample))
    (hears : Hears engine settings decoder worker received groups last) (clock : Nat → Nat) :
    (finish engine settings worker clock).passes = allPasses groups last := by
  have start := hears.start
  have pcm := hears.pcm
  rw [finish, allPasses]
  cases last with
  | nil =>
      rw [start]
      dsimp only [List.head?_nil, Option.map_none]
      rw [hears.passes]
      simp [samplesOf]
  | cons first rest =>
      rw [start]
      dsimp only [List.head?_cons, Option.map_some]
      split
      · rename_i silent
        rw [← pcm, silent, ← hears.passes]
        simp
      · rename_i audible
        rw [← pcm, if_neg (by simpa using audible), ← hears.passes, window, ← pcm]
        rfl

-- The worker either runs, or has ended on an empty queue that nothing can enter.
inductive Transcribes (decoder : Decoder) (agent : CaptionsAgent Sample Decoder Context) : Prop where
  | running (received : List (Nat × Bytes)) (groups : List (List (Nat × List Sample)))
      (last : List (Nat × List Sample)) (runs : agent.worker.exited = false)
      (sent : agent.sent = received ++ agent.queue)
      (hears : Hears engine settings decoder agent.worker received groups last)
  | ended (groups : List (List (Nat × List Sample))) (last : List (Nat × List Sample))
      (exited : agent.worker.exited = true) (closed : agent.closed = true) (emptied : agent.queue = [])
      (cut : Cut settings.windowSamples (heard engine decoder agent.sent) groups last)
      (passes : agent.worker.passes = allPasses groups last)

theorem start_transcribes (positive : 0 < settings.windowSamples) (decoder : Decoder) (context : Context) :
    Transcribes engine settings decoder (onStart decoder context) :=
  .running [] [] [] rfl rfl ⟨⟨rfl, nofun, positive⟩, rfl, rfl, rfl, rfl⟩

theorem step_transcribes (positive : 0 < settings.windowSamples) (decoder : Decoder)
    (agent : CaptionsAgent Sample Decoder Context) (op : AgentOp) (transcribes : Transcribes engine settings decoder agent) :
    Transcribes engine settings decoder (step engine settings agent op) := by
  cases op with
  | fragment dts payload =>
      rw [step]
      split
      · exact transcribes
      · rename_i isOpen
        split
        · exact transcribes
        · rename_i aac _
          rw [sendFrame]
          split
          · cases transcribes with
            | running received groups last runs sent hears =>
                refine .running received groups last runs ?_ hears
                rw [sent, List.append_assoc]
            | ended groups last exited closed _ _ _ => exact absurd closed isOpen
          · exact transcribes
  | work clock =>
      rw [step]
      split
      · exact transcribes
      · rename_i notExited
        cases transcribes with
        | ended groups last exited closed _ _ _ => exact absurd exited notExited
        | running received groups last runs sent hears =>
            split
            · rename_i frame queue queued
              obtain ⟨groups, last, hears⟩ := receive_hears engine settings positive decoder _ _ _ _ hears clock frame
              refine .running (received ++ [frame]) groups last ?_ ?_ hears
              · rw [← runs]
                exact receive_exited engine settings agent.worker clock frame
              · rw [sent, queued, List.append_assoc]
                rfl
            · rename_i emptied
              split
              · rename_i closed
                have exited := finish_exited engine settings agent.worker clock
                have passes := finish_passes engine settings decoder _ _ _ _ hears clock
                refine .ended groups last exited closed emptied ?_ passes
                rw [sent, emptied, List.append_nil]
                exact hears.cut
              · exact .running received groups last runs sent hears
  | stop =>
      cases transcribes with
      | running received groups last runs sent hears => exact .running received groups last runs sent hears
      | ended groups last exited _ emptied cut passes => exact .ended groups last exited rfl emptied cut passes

theorem work_keeps (agent : CaptionsAgent Sample Decoder Context) (clock : Nat → Nat) :
    (step engine settings agent (.work clock)).closed = agent.closed ∧
      (step engine settings agent (.work clock)).sent = agent.sent := by
  rw [step]
  split
  · exact ⟨rfl, rfl⟩
  · split
    · exact ⟨rfl, rfl⟩
    · split
      · exact ⟨rfl, rfl⟩
      · exact ⟨rfl, rfl⟩

-- Each turn of a worker whose sender is gone takes a frame, or ends it.
theorem work_progresses (agent : CaptionsAgent Sample Decoder Context) (closed : agent.closed = true)
    (clock : Nat → Nat) : (step engine settings agent (.work clock)).worker.exited = true ∨
      (step engine settings agent (.work clock)).queue.length + 1 = agent.queue.length := by
  rw [step]
  split
  · rename_i exited
    exact .inl exited
  · split
    · rename_i frame queue queued
      rw [queued]
      exact .inr rfl
    · exact .inl (finish_exited engine settings agent.worker clock)

theorem exited_stays (agent : CaptionsAgent Sample Decoder Context) (exited : agent.worker.exited = true)
    (clocks : List (Nat → Nat)) :
    (Machine.run (step engine settings) agent (clocks.map .work)).worker.exited = true := by
  induction clocks with
  | nil => exact exited
  | cons clock clocks ih =>
      rw [List.map_cons, Machine.run_cons, step, if_pos exited]
      exact ih

theorem closed_exits (agent : CaptionsAgent Sample Decoder Context) (closed : agent.closed = true)
    (clocks : List (Nat → Nat)) (enough : agent.queue.length < clocks.length) :
    (Machine.run (step engine settings) agent (clocks.map .work)).worker.exited = true := by
  induction clocks generalizing agent with
  | nil => cases enough
  | cons clock clocks ih =>
      rw [List.map_cons, Machine.run_cons]
      cases work_progresses engine settings agent closed clock with
      | inl exited => exact exited_stays engine settings _ exited clocks
      | inr shorter =>
          rw [List.length_cons] at enough
          exact ih _ ((work_keeps engine settings agent clock).1.trans closed) (by omega)

theorem works_sent (agent : CaptionsAgent Sample Decoder Context) (clocks : List (Nat → Nat)) :
    (Machine.run (step engine settings) agent (clocks.map .work)).sent = agent.sent := by
  induction clocks generalizing agent with
  | nil => rfl
  | cons clock clocks ih =>
      rw [List.map_cons, Machine.run_cons, ih]
      exact (work_keeps engine settings agent clock).2

-- The frames of the fragments that come before the agent is stopped.
def offered : List AgentOp → List (Nat × Bytes)
  | [] => []
  | .fragment dts payload :: ops => ((extractFirstMdat payload).map fun aac => (dts, aac)).toList ++ offered ops
  | .work _ :: ops => offered ops
  | .stop :: _ => []

def QueueHasRoom (agent : CaptionsAgent Sample Decoder Context) : AgentOp → Prop
  | .fragment _ _ => agent.queue.length < settings.queueDepth
  | .work _ | .stop => True

theorem closed_sent (agent : CaptionsAgent Sample Decoder Context) (closed : agent.closed = true) (ops : List AgentOp) :
    (Machine.run (step engine settings) agent ops).sent = agent.sent := by
  induction ops generalizing agent with
  | nil => rfl
  | cons op ops ih =>
      rw [Machine.run_cons]
      cases op with
      | fragment dts payload =>
          rw [step, if_pos closed]
          exact ih agent closed
      | work clock =>
          obtain ⟨stays, same⟩ := work_keeps engine settings agent clock
          rw [ih _ (stays.trans closed), same]
      | stop => exact ih _ rfl

-- A full queue drops frames; nothing else does.
theorem run_sent (agent : CaptionsAgent Sample Decoder Context) (isOpen : agent.closed = false) (ops : List AgentOp) :
    ∃ took, (Machine.run (step engine settings) agent ops).sent = agent.sent ++ took ∧ took.Sublist (offered ops) ∧
      (Machine.AllSteps (QueueHasRoom settings) (step engine settings) agent ops → took = offered ops) := by
  induction ops generalizing agent with
  | nil => exact ⟨[], (List.append_nil _).symm, List.Sublist.refl _, fun _ => rfl⟩
  | cons op ops ih =>
      rw [Machine.run_cons, Machine.AllSteps]
      cases op with
      | work clock =>
          obtain ⟨stays, same⟩ := work_keeps engine settings agent clock
          obtain ⟨took, sent, sublist, roomy⟩ := ih _ (stays.trans isOpen)
          rw [same] at sent
          exact ⟨took, sent, sublist, fun room => roomy room.2⟩
      | stop =>
          refine ⟨[], ?_, List.nil_sublist _, fun _ => rfl⟩
          rw [List.append_nil]
          exact closed_sent engine settings _ rfl ops
      | fragment dts payload =>
          rw [offered, QueueHasRoom]
          cases extracted : extractFirstMdat payload with
          | none =>
              have same : step engine settings agent (.fragment dts payload) = agent := by
                simp [step, isOpen, extracted]
              rw [same]
              obtain ⟨took, sent, sublist, roomy⟩ := ih agent isOpen
              exact ⟨took, sent, sublist, fun room => roomy room.2⟩
          | some aac =>
              have sends : step engine settings agent (.fragment dts payload) = sendFrame settings agent (dts, aac) := by
                simp [step, isOpen, extracted]
              rw [sends, sendFrame]
              split
              · obtain ⟨took, sent, sublist, roomy⟩ := ih { agent with
                  queue := agent.queue ++ [(dts, aac)]
                  sent := agent.sent ++ [(dts, aac)] } isOpen
                refine ⟨(dts, aac) :: took, ?_, sublist.cons_cons _, fun room => congrArg _ (roomy room.2)⟩
                rw [sent, List.append_assoc]
                rfl
              · rename_i full
                obtain ⟨took, sent, sublist, _⟩ := ih agent isOpen
                exact ⟨took, sent, sublist.trans (List.sublist_cons_self _ _), fun room => absurd room.1 full⟩

theorem step_bounded (agent : CaptionsAgent Sample Decoder Context) (op : AgentOp)
    (bounded : agent.queue.length ≤ settings.queueDepth) :
    (step engine settings agent op).queue.length ≤ settings.queueDepth := by
  cases op with
  | fragment dts payload =>
      rw [step]
      split
      · exact bounded
      · split
        · exact bounded
        · rw [sendFrame]
          split
          · rename_i room
            rw [List.length_append]
            exact room
          · exact bounded
  | work clock =>
      rw [step]
      split
      · exact bounded
      · split
        · rename_i frame queue queued
          rw [queued, List.length_cons] at bounded
          exact Nat.le_of_succ_le bounded
        · split
          · exact bounded
          · exact bounded
  | stop => exact bounded

-- The audio that was sent is transcribed once, in order and window by window, before
-- `shutdown` returns; a window's captions count from its first frame.
theorem shutdown_transcribes_all (positive : 0 < settings.windowSamples) (decoder : Decoder) (context : Context)
    (ops : List AgentOp) (clocks : List (Nat → Nat)) (enough : settings.queueDepth < clocks.length) :
    let agent := Machine.run (step engine settings) (onStart decoder context) ops
    let ended := Machine.run (step engine settings) agent (.stop :: clocks.map .work)
    ended.worker.exited = true ∧ ended.sent.Sublist (offered ops) ∧
      (Machine.AllSteps (QueueHasRoom settings) (step engine settings) (onStart decoder context) ops →
        ended.sent = offered ops) ∧
      ∃ groups last, Cut settings.windowSamples (heard engine decoder ended.sent) groups last ∧
        ended.worker.passes = allPasses groups last := by
  intro agent ended
  have bounded : agent.queue.length ≤ settings.queueDepth :=
    Machine.invariant_of_run (step_bounded engine settings) _ ops (Nat.zero_le _)
  have exited : ended.worker.exited = true :=
    closed_exits engine settings _ rfl clocks (Nat.lt_of_le_of_lt bounded enough)
  have sent : ended.sent = agent.sent := works_sent engine settings (step engine settings agent .stop) clocks
  obtain ⟨took, isSent, sublist, roomy⟩ := run_sent engine settings (onStart decoder context) rfl ops
  have taken : agent.sent = took := isSent
  refine ⟨exited, ?_, ?_, ?_⟩
  · rw [sent, taken]
    exact sublist
  · intro room
    rw [sent, taken]
    exact roomy room
  · have transcribes : Transcribes engine settings decoder ended := by
      have whole := Machine.invariant_of_run (step_transcribes engine settings positive decoder) _
        (ops ++ .stop :: clocks.map .work) (start_transcribes engine settings positive decoder context)
      rwa [Machine.run_append] at whole
    cases transcribes with
    | running received groups last runs _ _ =>
        rw [exited] at runs
        cases runs
    | ended groups last _ _ _ cut passes => exact ⟨groups, last, cut, passes⟩

end Runs

-- Samples are bytes, an empty frame is not decoded, and the context counts the passes.
def byteEngine : Engine UInt8 Unit Nat where
  decodeFrame := fun decoder _ aac => (decoder, if aac = [] then none else some aac)
  full := fun passes _ => (passes + 1, some [some ⟨0, 50, some " hello "⟩, none, some ⟨50, 90, some " "⟩])

def threeSamples : Settings := ⟨"live/cam1", 48000, 3, 64⟩

-- A frame that is not decoded, two that fill a window, and one behind it.
def spoken : List AgentOp :=
  [.fragment 1024 (Rtsp.box "mdat" []), .fragment 2048 (Rtsp.box "mdat" [1, 2]), .work fun _ => 7,
    .fragment 3072 (Rtsp.box "mdat" [3, 4]), .fragment 4096 (Rtsp.box "mdat" [5])]

theorem partial_window_transcribed :
    let agent := Machine.run (step byteEngine threeSamples) (onStart () 0) spoken
    let ended := Machine.run (step byteEngine threeSamples) agent (.stop :: (List.replicate 65 fun _ => 9).map .work)
    ended.worker.exited = true ∧ ended.sent.Sublist (offered spoken) ∧
      ∃ groups last, Cut 3 (heard byteEngine () ended.sent) groups last ∧ ended.worker.passes = allPasses groups last := by
  have all := shutdown_transcribes_all byteEngine threeSamples (by decide) () 0 spoken (List.replicate 65 fun _ => 9)
    (by decide)
  exact ⟨all.1, all.2.1, all.2.2.2⟩

end Lvqr.Whisper
