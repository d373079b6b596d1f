import Lvqr.Rtmp.Connection

set_option autoImplicit false

-- Every stream a connection publishes is unpublished once before its task is over.
namespace Lvqr.Rtmp

open Brackets (Mark Covered Settled outstanding)
open Machine (AllSteps)

def Callback.mark : Callback → Option (Mark (String × String))
  | .publish appName streamKey => some (.opens (appName, streamKey))
  | .unpublish appName streamKey => some (.closes (appName, streamKey))
  | _ => none

namespace Connection

def marks (c : Connection) : List (Mark (String × String)) := c.callbacks.filterMap Callback.mark

-- No unpublish without its publish at any time, and once the task is over none
-- is missing.
def Paired (c : Connection) : Prop :=
  Covered c.marks ∧ (c.exit.isSome → Settled c.marks)

-- How often a stream was published and not yet unpublished.
def live (c : Connection) (appName streamKey : String) : Nat := outstanding c.marks (appName, streamKey)

-- What is still published is what the exit unpublishes: the current stream, if the
-- exit is one that does so and there is one, and nothing otherwise.
def EndsClean (c : Connection) (exit : Exit) : Prop :=
  if exit.unpublishes && c.hasCurrent then
    ∀ stream, outstanding c.marks stream = if stream = c.current then 1 else 0
  else ∀ stream, outstanding c.marks stream = 0

def acceptExit (env : Environment) (c : Connection) (requestId : Nat) : Option Exit :=
  match c.session.acceptRequest requestId with
  | .error _ => some .acceptError
  | .ok (_, packets) => if c.sends env packets then none else some .writeError

-- The exit that the handling of a result takes, if any.
def exitOf (env : Environment) (c : Connection) : ServerSessionResult → Option Exit
  | .outboundResponse => if c.sends env 1 then none else some .writeError
  | .raisedEvent (.connectionRequested requestId _) => c.acceptExit env requestId
  | .raisedEvent (.publishStreamRequested requestId appName streamKey _) =>
      if c.refuses env appName streamKey then some .refused
      else { c with clock := c.clock + 1 }.acceptExit env requestId
  | .raisedEvent (.streamMetadataChanged _ _ videoCodecId) =>
      if unsupported videoCodecId then some .codecRejected else none
  | _ => none

-- Before its exit a stream that the client finishes is one that is published.
def OrderlyResult (env : Environment) (c : Connection) (result : ServerSessionResult) : Prop :=
  c.exit = none →
    match c.exitOf env result with
    | some exit => c.EndsClean exit
    | none => ∀ appName streamKey, result = .raisedEvent (.publishStreamFinished appName streamKey) →
        0 < c.live appName streamKey

def Orderly (env : Environment) (c : Connection) (input : Input) : Prop :=
  c.exit = none →
    match input with
    | .cancelled => c.EndsClean .cancelled
    | .eof => c.EndsClean .eof
    | .readError => c.EndsClean .readError
    | .read acknowledge messages =>
        match c.session.handleInput messages with
        | .error fault => c.EndsClean (.inputError fault)
        | .ok (session, results) =>
            AllSteps (OrderlyResult env) (handleResult env) { c with session := session } (acknowledged acknowledge results)

theorem marks_call (c : Connection) (callback : Callback) :
    (c.call callback).marks = c.marks ++ callback.mark.toList := by
  rw [marks, call, List.filterMap_append]
  cases found : callback.mark <;> simp [marks, found]

theorem marks_drop (c : Connection) : c.drop.marks = c.marks := by
  rw [drop]
  cases c.dereg with
  | none => rfl
  | some name => simp [marks_call, Callback.mark]

theorem marks_leave (c : Connection) (exit : Exit) :
    (c.leave exit).marks = if exit.unpublishes && c.hasCurrent then c.marks ++ [.closes c.current] else c.marks := by
  have dropped : (c.leave exit).marks =
      (if exit.unpublishes && c.hasCurrent then c.call (.unpublish c.currentApp c.currentKey) else c).marks :=
    marks_drop _
  rw [dropped]
  split
  · simp [marks_call, Callback.mark, current]
  · rfl

theorem marks_published (env : Environment) (c : Connection) (appName streamKey : String) :
    (c.published env appName streamKey).marks = c.marks ++ [.opens (appName, streamKey)] := by
  have opened : (c.call (.publish appName streamKey)).marks = c.marks ++ [.opens (appName, streamKey)] := by
    simp [marks_call, Callback.mark]
  rw [published]
  split
  · have registered := marks_call (c.call (.publish appName streamKey)) (.register (broadcastName appName streamKey))
    rw [opened] at registered
    simpa [marks, Callback.mark] using registered
  · exact opened

theorem paired_running (c : Connection) (running : c.exit = none) : c.Paired ↔ Covered c.marks := by
  simp [Paired, running]

theorem paired_leave (c : Connection) (exit : Exit) (covered : Covered c.marks) :
    (c.leave exit).Paired ↔ c.EndsClean exit := by
  have gone : (c.leave exit).exit.isSome := rfl
  rw [Paired, marks_leave, EndsClean]
  split
  · rw [← Brackets.settled_closes c.marks c.current covered]
    exact and_congr_right fun _ => ⟨fun settled => settled gone, fun settled _ => settled⟩
  · rw [← Brackets.settled_iff_outstanding c.marks covered]
    exact ⟨fun paired => paired.2 gone, fun settled => ⟨covered, fun _ => settled⟩⟩

theorem ends_clean_of_marks (c before : Connection) (exit : Exit) (silent : exit.unpublishes = false)
    (marks : before.marks = c.marks) : before.EndsClean exit ↔ c.EndsClean exit := by
  simp [EndsClean, silent, marks]

-- What handling a result does to the pairing: it takes the exit, or it goes on
-- with the marks of the result.
def Leaves (c after : Connection) (expected : Option Exit) : Prop :=
  ∃ exit, ∃ before : Connection, expected = some exit ∧ after = before.leave exit ∧ before.marks = c.marks ∧
    (before.EndsClean exit ↔ c.EndsClean exit)

structure GoesOn (c after : Connection) (expected : Option Exit) (added : List (Mark (String × String))) : Prop where
  stays : expected = none
  running : after.exit = none
  marks : after.marks = c.marks ++ added

theorem write_outcome (env : Environment) (c before : Connection) (packets : Nat) (running : before.exit = none)
    (marks : before.marks = c.marks) :
    Leaves c (before.write env packets) (if before.sends env packets then none else some .writeError) ∨
      GoesOn c (before.write env packets) (if before.sends env packets then none else some .writeError) [] := by
  rw [write]
  cases before.sends env packets with
  | true => exact .inr ⟨rfl, running, marks.trans (List.append_nil _).symm⟩
  | false =>
      have clean := ends_clean_of_marks c { before with clock := before.clock + packets } .writeError rfl marks
      exact .inl ⟨.writeError, _, rfl, rfl, marks, clean⟩

theorem accept_outcome (env : Environment) (c before : Connection) (requestId : Nat) (running : before.exit = none)
    (marks : before.marks = c.marks) :
    Leaves c (before.accept env requestId) (before.acceptExit env requestId) ∨
      GoesOn c (before.accept env requestId) (before.acceptExit env requestId) [] := by
  rw [acceptExit, accept]
  cases before.session.acceptRequest requestId with
  | error fault =>
      exact .inl ⟨.acceptError, before, rfl, rfl, marks, ends_clean_of_marks c before .acceptError rfl marks⟩
  | ok accepted => exact write_outcome env c { before with session := accepted.1 } accepted.2 running marks

def marksOf : ServerSessionResult → List (Mark (String × String))
  | .raisedEvent (.publishStreamRequested _ appName streamKey _) => [.opens (appName, streamKey)]
  | .raisedEvent (.publishStreamFinished appName streamKey) => [.closes (appName, streamKey)]
  | _ => []

theorem publish_outcome (env : Environment) (c : Connection) (requestId : Nat) (appName streamKey : String)
    (mode : PublishMode) (running : c.exit = none) :
    let result := ServerSessionResult.raisedEvent (.publishStreamRequested requestId appName streamKey mode)
    Leaves c (c.publishStreamRequested env requestId appName streamKey) (c.exitOf env result) ∨
      GoesOn c (c.publishStreamRequested env requestId appName streamKey) (c.exitOf env result) (marksOf result) := by
  intro result
  simp only [publishStreamRequested, exitOf, result]
  cases c.refuses env appName streamKey with
  | true => exact .inl ⟨.refused, c, rfl, rfl, rfl, Iff.rfl⟩
  | false =>
      let asked : Connection := { c with currentKey := streamKey, clock := c.clock + 1 }
      rcases accept_outcome env c asked requestId running rfl with leaves | goesOn
      · obtain ⟨exit, before, expected, gone, marks, clean⟩ := leaves
        have isOver : (asked.accept env requestId).exit.isSome := by rw [gone]; rfl
        refine .inl ⟨exit, before, expected, ?_, marks, clean⟩
        simp only [Bool.false_eq_true, if_false]
        rw [if_pos isOver, gone]
      · have isRunning := goesOn.running
        have stays : ¬(asked.accept env requestId).exit.isSome := by simp [isRunning]
        refine .inr ⟨goesOn.stays, ?_, ?_⟩
        · simp only [Bool.false_eq_true, if_false]
          rw [if_neg stays, published]
          split <;> exact isRunning
        · simp only [Bool.false_eq_true, if_false]
          rw [if_neg stays, marks_published, goesOn.marks, List.append_nil]
          rfl

theorem call_outcome (c : Connection) (callback : Callback) (running : c.exit = none) :
    GoesOn c (c.call callback) none callback.mark.toList :=
  ⟨rfl, running, marks_call c callback⟩

theorem unchanged_outcome (c : Connection) (running : c.exit = none) : GoesOn c c none [] :=
  ⟨rfl, running, (List.append_nil _).symm⟩

theorem handle_result_outcome (env : Environment) (c : Connection) (result : ServerSessionResult)
    (running : c.exit = none) :
    Leaves c (c.handleResult env result) (c.exitOf env result) ∨
      GoesOn c (c.handleResult env result) (c.exitOf env result) (marksOf result) := by
  have goes : ¬c.exit.isSome := by simp [running]
  rw [handleResult.eq_def, if_neg goes]
  cases result with
  | outboundResponse => exact write_outcome env c c 1 running rfl
  | unhandleableMessageReceived => exact .inr (unchanged_outcome c running)
  | raisedEvent event =>
      cases event with
      | connectionRequested requestId appName =>
          exact accept_outcome env c { c with currentApp := appName } requestId running rfl
      | publishStreamRequested requestId appName streamKey mode =>
          exact publish_outcome env c requestId appName streamKey mode running
      | publishStreamFinished appName streamKey =>
          have called := call_outcome c (.unpublish appName streamKey) running
          exact .inr ⟨rfl, called.running, called.marks⟩
      | streamMetadataChanged appName streamKey videoCodecId =>
          simp only [handleEvent, exitOf]
          cases unsupported videoCodecId with
          | true => exact .inl ⟨.codecRejected, c, rfl, rfl, rfl, Iff.rfl⟩
          | false => exact .inr (unchanged_outcome c running)
      | videoDataReceived appName streamKey data timestamp => exact .inr (call_outcome c _ running)
      | audioDataReceived appName streamKey data timestamp => exact .inr (call_outcome c _ running)
      | amf0DataReceived => exact .inr (unchanged_outcome c running)
      | playStreamRequested => exact .inr (unchanged_outcome c running)
      | playStreamFinished => exact .inr (unchanged_outcome c running)
      | unhandleable => exact .inr (unchanged_outcome c running)

theorem covered_marks_of (c : Connection) (result : ServerSessionResult) (covered : Covered c.marks) :
    Covered (c.marks ++ marksOf result) ↔ ∀ appName streamKey,
      result = .raisedEvent (.publishStreamFinished appName streamKey) → 0 < c.live appName streamKey := by
  have unchanged : Covered (c.marks ++ []) := by rwa [List.append_nil]
  cases result with
  | outboundResponse => exact ⟨fun _ _ _ same => (by cases same), fun _ => unchanged⟩
  | unhandleableMessageReceived => exact ⟨fun _ _ _ same => (by cases same), fun _ => unchanged⟩
  | raisedEvent event =>
      cases event with
      | publishStreamFinished appName streamKey =>
          rw [marksOf, Brackets.covered_closes]
          constructor
          · intro ⟨_, room⟩ _ _ same
            cases same
            exact room
          · exact fun room => ⟨covered, room appName streamKey rfl⟩
      | publishStreamRequested requestId appName streamKey mode =>
          exact ⟨fun _ _ _ same => (by cases same), fun _ => Brackets.covered_opens _ _ covered⟩
      | _ => exact ⟨fun _ _ _ same => (by cases same), fun _ => unchanged⟩

theorem handle_result_paired (env : Environment) (c : Connection) (result : ServerSessionResult) (paired : c.Paired) :
    (c.handleResult env result).Paired ↔ c.OrderlyResult env result := by
  cases running : c.exit with
  | some exit =>
      have isOver : c.exit.isSome := by rw [running]; rfl
      rw [handleResult.eq_def, if_pos isOver]
      exact ⟨fun _ stays => absurd (running.symm.trans stays) (by simp), fun _ => paired⟩
  | none =>
      rw [OrderlyResult, imp_iff_right running]
      rcases handle_result_outcome env c result running with leaves | goesOn
      · obtain ⟨exit, before, taken, gone, marks, clean⟩ := leaves
        rw [taken, gone, paired_leave before exit (marks ▸ paired.1)]
        exact clean
      · rw [paired_running _ goesOn.running, goesOn.marks, goesOn.stays]
        exact covered_marks_of c result paired.1

theorem marks_leave_earlier (c before : Connection) (exit : Exit) (marks : before.marks = c.marks) :
    c.marks <+: (before.leave exit).marks := by
  rw [marks_leave, marks]
  split
  · exact List.prefix_append _ _
  · exact List.prefix_refl _

theorem handle_result_earlier (env : Environment) (c : Connection) (result : ServerSessionResult)
    (running : c.exit = none) : c.marks <+: (c.handleResult env result).marks := by
  rcases handle_result_outcome env c result running with leaves | goesOn
  · obtain ⟨exit, before, _, gone, marks, _⟩ := leaves
    rw [gone]
    exact marks_leave_earlier c before exit marks
  · rw [goesOn.marks]
    exact List.prefix_append _ _

theorem paired_of_prefix (c after : Connection) (running : c.exit = none) (isPrefix : c.marks <+: after.marks)
    (paired : after.Paired) : c.Paired := by
  rw [paired_running c running]
  exact fun seen isSeen => paired.1 seen (isSeen.trans isPrefix)

theorem paired_before_result (env : Environment) (c : Connection) (result : ServerSessionResult)
    (paired : (c.handleResult env result).Paired) : c.Paired := by
  cases running : c.exit with
  | some exit =>
      have isOver : c.exit.isSome := by rw [running]; rfl
      rwa [handleResult.eq_def, if_pos isOver] at paired
  | none => exact paired_of_prefix c _ running (handle_result_earlier env c result running) paired

theorem results_paired (env : Environment) (c : Connection) (results : List ServerSessionResult) (paired : c.Paired) :
    (Machine.run (handleResult env) c results).Paired ↔ AllSteps (OrderlyResult env) (handleResult env) c results :=
  Machine.run_iff_guarded (paired_before_result env) (handle_result_paired env) c results paired

theorem step_paired (env : Environment) (c : Connection) (input : Input) (paired : c.Paired) :
    (c.step env input).Paired ↔ c.Orderly env input := by
  cases running : c.exit with
  | some exit =>
      have isOver : c.exit.isSome := by rw [running]; rfl
      rw [step.eq_def, if_pos isOver]
      exact ⟨fun _ stays => absurd (running.symm.trans stays) (by simp), fun _ => paired⟩
  | none =>
      have goes : ¬c.exit.isSome := by simp [running]
      rw [step.eq_def, if_neg goes, Orderly.eq_def, imp_iff_right running]
      cases input with
      | cancelled => exact paired_leave c .cancelled paired.1
      | eof => exact paired_leave c .eof paired.1
      | readError => exact paired_leave c .readError paired.1
      | read acknowledge messages =>
          dsimp only
          cases c.session.handleInput messages with
          | error fault => exact paired_leave c (.inputError fault) paired.1
          | ok handled => exact results_paired env { c with session := handled.1 } _ paired

theorem paired_before_step (env : Environment) (c : Connection) (input : Input) (paired : (c.step env input).Paired) :
    c.Paired := by
  cases running : c.exit with
  | some exit =>
      have isOver : c.exit.isSome := by rw [running]; rfl
      rwa [step.eq_def, if_pos isOver] at paired
  | none =>
      have goes : ¬c.exit.isSome := by simp [running]
      rw [step.eq_def, if_neg goes] at paired
      cases input with
      | cancelled => exact paired_of_prefix c _ running (marks_leave_earlier c c .cancelled rfl) paired
      | eof => exact paired_of_prefix c _ running (marks_leave_earlier c c .eof rfl) paired
      | readError => exact paired_of_prefix c _ running (marks_leave_earlier c c .readError rfl) paired
      | read acknowledge messages =>
          simp only at paired
          cases handled : c.session.handleInput messages with
          | error fault =>
              rw [handled] at paired
              exact paired_of_prefix c _ running (marks_leave_earlier c c (.inputError fault) rfl) paired
          | ok result =>
              rw [handled] at paired
              exact Machine.before_of_run (paired_before_result env) { c with session := result.1 } _ paired

-- Nothing is published before the read loop.
theorem write_idle (env : Environment) (c : Connection) (packets : Nat) (idle : c.hasCurrent = false) :
    (c.write env packets).marks = c.marks := by
  rw [write]
  split
  · rfl
  · have still : ({ c with clock := c.clock + packets } : Connection).hasCurrent = false := idle
    rw [marks_leave, still, Bool.and_false]
    rfl

theorem leave_idle (c : Connection) (exit : Exit) (idle : c.hasCurrent = false) : (c.leave exit).marks = c.marks := by
  rw [marks_leave, idle, Bool.and_false]
  rfl

theorem start_marks (env : Environment) (handshake : Bool) (remaining : List (Option RtmpMessage)) :
    (handleRtmpConnection env handshake remaining).marks = [] := by
  rw [handleRtmpConnection]
  cases handshake with
  | false => exact leave_idle new .handshakeFailed rfl
  | true =>
      simp only [if_true, handleRtmpSession]
      have opened := write_idle env new 5 rfl
      by_cases sent : new.sends env 5
      · have written : new.write env 5 = { new with clock := 5 } := by rw [write, if_pos sent]; rfl
        rw [written]
        simp only [new, handleRemaining, Option.isSome_none, Bool.false_eq_true, if_false]
        cases ServerSession.new.handleInput remaining with
        | error fault => exact leave_idle _ (.inputError fault) rfl
        | ok handled => exact write_idle env _ _ rfl
      · have left : (new.write env 5).exit.isSome := by rw [write, if_neg sent]; rfl
        rw [if_pos left]
        exact opened

theorem publish_unpublish_paired_iff (env : Environment) (handshake : Bool) (remaining : List (Option RtmpMessage))
    (inputs : List Input) :
    let start := handleRtmpConnection env handshake remaining
    (Machine.run (step env) start inputs).Paired ↔ AllSteps (Orderly env) (step env) start inputs := by
  intro start
  have marks := start_marks env handshake remaining
  have paired : start.Paired := by
    rw [Paired, marks]
    exact ⟨Brackets.covered_nil, fun _ _ => rfl⟩
  exact Machine.run_iff_guarded (paired_before_step env) (step_paired env) start inputs paired

def lenient : Environment := ⟨none, fun _ => true, true⟩

-- A publisher whose connection is reset while it streams.
def resetPublisher : List Input :=
  [.read false [some (.amf0Command 0 "connect" (.object [("app", .utf8String "live")]) [])],
   .read false [some (.amf0Command 0 "createStream" .null [])],
   .read false [some (.amf0Command 1 "publish" .null [.utf8String "camera", .utf8String "live"])],
   .readError]

theorem reset_publisher_never_unpublished :
    ¬∀ (env : Environment) (handshake : Bool) (remaining : List (Option RtmpMessage)) (inputs : List Input),
      (Machine.run (step env) (handleRtmpConnection env handshake remaining) inputs).Paired := by
  intro always
  have paired := always lenient true [] resetPublisher
  have marks : (Machine.run (step lenient) (handleRtmpConnection lenient true []) resetPublisher).marks =
      [.opens ("live", "camera")] := rfl
  have settled := paired.2 rfl ("live", "camera")
  rw [marks] at settled
  exact absurd settled (by decide)

end Connection

end Lvqr.Rtmp
