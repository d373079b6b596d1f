import Lvqr.Lib.Machine
import Lvqr.Rtsp.Requests

set_option autoImplicit false

-- Which sessions announce their end when the connection is over.
namespace Lvqr.Rtsp

-- How the main loop is left. A failed read returns before the sessions are looked
-- at; a parse error does not end the connection.
inductive Exit where
  | peerClosed
  | writeFailed
  | cancelled
  | readFailed
deriving DecidableEq, Repr

namespace ConnectionState

def step (conn : ConnectionState) (input : Surroundings × Request) : ConnectionState :=
  (handleRequest conn input.1 input.2).1

def Live (session : Session) : Bool := session.state = .playing || session.state = .recording

-- Each event with the session it is emitted for.
def finish (conn : ConnectionState) : Exit → List (Nat × RelayEvent)
  | .readFailed => []
  | _ => (conn.sessions.entries.filter fun entry => Live entry.2).map fun entry =>
      (entry.2.serial, .broadcastStopped entry.2.broadcast)

-- One event for each broadcast a session recorded and none for anything else.
def AnnouncesRecordings (conn : ConnectionState) (exit : Exit) : Prop :=
  ∀ serial broadcast, (conn.finish exit).count (serial, .broadcastStopped broadcast) =
    if ⟨serial, broadcast, .record⟩ ∈ conn.history then 1 else 0

def last (conn : ConnectionState) (serial : Nat) : Option Accepted :=
  (conn.history.find? (·.serial = serial)).map HistoryEntry.accepted

-- Nothing was accepted for a session behind its RECORD, and none is left playing;
-- after a failed read no session may have recorded at all.
def EndsRecording (conn : ConnectionState) (exit : Exit) : Prop :=
  (∀ entry ∈ conn.history, entry.accepted = .record → exit ≠ .readFailed ∧ conn.last entry.serial = some .record) ∧
    (exit ≠ .readFailed → ∀ entry ∈ conn.history, conn.last entry.serial ≠ some .play)

-- What the history says of the sessions in the table and of those that are gone.
structure Tracked (conn : ConnectionState) : Prop where
  known : ∀ entry ∈ conn.history, entry.serial < conn.created
  placed : ∀ id session, conn.sessions.lookup id = some session → session.serial < conn.created
  single : ∀ id other session second, conn.sessions.lookup id = some session →
    conn.sessions.lookup other = some second → session.serial = second.serial → id = other
  current : ∀ id session, conn.sessions.lookup id = some session →
    conn.last session.serial = some (acceptedFor session.state)
  gone : ∀ serial accepted, conn.last serial = some accepted → accepted ≠ .removed →
    ∃ id session, conn.sessions.lookup id = some session ∧ session.serial = serial
  named : ∀ id session, conn.sessions.lookup id = some session → ∀ entry ∈ conn.history,
    entry.serial = session.serial → entry.broadcast = session.broadcast
  recorded : ∀ id session, conn.sessions.lookup id = some session →
    ⟨session.serial, session.broadcast, .record⟩ ∈ conn.history → session.mode = .ingest
  playing : ∀ id session, conn.sessions.lookup id = some session → session.state = .playing →
    session.mode = .playback

theorem last_note (conn : ConnectionState) (session : Session) (accepted : Accepted) (serial : Nat) :
    (conn.note session accepted).last serial = if session.serial = serial then some accepted else conn.last serial := by
  simp only [last, note, List.find?_cons]
  split
  · rename_i same
    simp only [decide_eq_true_eq] at same
    simp [same]
  · rename_i different
    simp only [decide_eq_false_iff_not] at different
    simp [different]

theorem last_mem (conn : ConnectionState) (serial : Nat) (accepted : Accepted)
    (isLast : conn.last serial = some accepted) :
    ∃ entry ∈ conn.history, entry.serial = serial ∧ entry.accepted = accepted := by
  obtain ⟨entry, found, isAccepted⟩ := Option.map_eq_some_iff.mp isLast
  exact ⟨entry, List.mem_of_find?_eq_some found, by simpa using List.find?_some found, isAccepted⟩

theorem new_tracked : new.Tracked where
  known := by simp [new]
  placed := by simp [new]
  single := by simp [new]
  current := by simp [new]
  gone := by simp [new, last]
  named := by simp [new]
  recorded := by simp [new]
  playing := by simp [new]

theorem remove_tracked (conn : ConnectionState) (id : SessionId) (tracked : conn.Tracked) :
    (conn.removeSession id).Tracked := by
  rw [removeSession]
  split
  · exact tracked
  · rename_i removed here
    have others (other : SessionId) (session : Session) (found : (conn.sessions.erase id).lookup other = some session) :
        conn.sessions.lookup other = some session ∧ removed.serial ≠ session.serial := by
      obtain ⟨different, before⟩ := Table.erase_cases found
      exact ⟨before, fun same => different (tracked.single id other removed session here before same).symm⟩
    refine ⟨?known, ?placed, ?single, ?current, ?gone, ?named, ?recorded, ?playing⟩
    case known =>
        intro entry member
        rcases List.mem_cons.mp member with rfl | before
        · exact tracked.placed id removed here
        · exact tracked.known entry before
    case placed =>
        intro other session found
        exact tracked.placed other session (others other session found).1
    case single =>
        intro first second session other found foundOther
        exact tracked.single first second session other (others _ _ found).1 (others _ _ foundOther).1
    case current =>
        intro other session found
        obtain ⟨before, different⟩ := others other session found
        rw [last_note, if_neg different]
        exact tracked.current other session before
    case gone =>
        intro serial accepted isLast notRemoved
        rw [last_note] at isLast
        split at isLast
        · exact absurd (Option.some.inj isLast).symm notRemoved
        · rename_i different
          obtain ⟨other, session, found, isSerial⟩ := tracked.gone serial accepted isLast notRemoved
          refine ⟨other, session, ?_, isSerial⟩
          show (conn.sessions.erase id).lookup other = some session
          rw [Table.lookup_erase_eq, if_neg, found]
          rintro rfl
          rw [here] at found
          exact different (Option.some.inj found ▸ isSerial)
    case named =>
        intro other session found entry member same
        obtain ⟨before, different⟩ := others other session found
        rcases List.mem_cons.mp member with rfl | known
        · exact absurd same different
        · exact tracked.named other session before entry known same
    case recorded =>
        intro other session found recorded
        rcases List.mem_cons.mp recorded with isRemoved | before
        · cases congrArg HistoryEntry.accepted isRemoved
        · exact tracked.recorded other session (others other session found).1 before
    case playing =>
        intro other session found
        exact tracked.playing other session (others other session found).1

theorem remove_absent (conn : ConnectionState) (id : SessionId) : (conn.removeSession id).sessions.lookup id = none := by
  rw [removeSession]
  split
  · assumption
  · exact AList.lookup_erase _ _

theorem insert_tracked (conn : ConnectionState) (session : Session) (isNew : session.state = .init)
    (tracked : conn.Tracked) : (conn.insertSession session).Tracked := by
  have cleared := remove_tracked conn session.id tracked
  have absent := remove_absent conn session.id
  rw [insertSession]
  generalize conn.removeSession session.id = conn at cleared absent
  simp only
  have found (other : SessionId) (value : Session)
      (lookup : (conn.sessions.insert session.id { session with serial := conn.created }).lookup other = some value) :
      other = session.id ∧ value = { session with serial := conn.created } ∨
        other ≠ session.id ∧ conn.sessions.lookup other = some value ∧ value.serial < conn.created := by
    exact (Table.insert_cases lookup).imp_right fun ⟨different, before⟩ =>
      ⟨different, before, cleared.placed other value before⟩
  refine ⟨?known, ?placed, ?single, ?current, ?gone, ?named, ?recorded, ?playing⟩
  case known =>
      intro entry member
      rcases List.mem_cons.mp member with rfl | before
      · exact Nat.lt_succ_self _
      · exact Nat.lt_succ_of_lt (cleared.known entry before)
  case placed =>
      intro other value lookup
      rcases found other value lookup with ⟨_, rfl⟩ | ⟨_, _, old⟩
      · exact Nat.lt_succ_self _
      · exact Nat.lt_succ_of_lt old
  case single =>
      intro first second value other lookup lookupOther same
      rcases found first value lookup with ⟨rfl, rfl⟩ | ⟨_, old, older⟩
      · rcases found second other lookupOther with ⟨rfl, _⟩ | ⟨_, _, olderOther⟩
        · rfl
        · exact absurd same (Nat.ne_of_gt olderOther)
      · rcases found second other lookupOther with ⟨rfl, rfl⟩ | ⟨_, oldOther, _⟩
        · exact absurd same (Nat.ne_of_lt older)
        · exact cleared.single first second value other old oldOther same
  case current =>
      intro other value lookup
      rw [last_note]
      rcases found other value lookup with ⟨rfl, rfl⟩ | ⟨_, old, older⟩
      · simp [isNew, acceptedFor]
      · rw [if_neg (Nat.ne_of_gt older)]
        exact cleared.current other value old
  case gone =>
      intro serial accepted isLast notRemoved
      rw [last_note] at isLast
      split at isLast
      · rename_i same
        refine ⟨session.id, { session with serial := conn.created }, AList.lookup_insert _, same⟩
      · obtain ⟨other, value, old, isSerial⟩ := cleared.gone serial accepted isLast notRemoved
        refine ⟨other, value, ?_, isSerial⟩
        show (conn.sessions.insert _ _).lookup other = some value
        rw [Table.lookup_insert_eq, if_neg, old]
        rintro rfl
        rw [absent] at old
        cases old
  case named =>
      intro other value lookup entry member same
      rcases found other value lookup with ⟨rfl, rfl⟩ | ⟨_, old, older⟩
      · rcases List.mem_cons.mp member with rfl | before
        · rfl
        · exact absurd same (Nat.ne_of_lt (cleared.known entry before))
      · rcases List.mem_cons.mp member with rfl | before
        · exact absurd same (Nat.ne_of_gt older)
        · exact cleared.named other value old entry before same
  case recorded =>
      intro other value lookup recorded
      rcases List.mem_cons.mp recorded with isCreated | before
      · cases congrArg HistoryEntry.accepted isCreated
      · rcases found other value lookup with ⟨rfl, rfl⟩ | ⟨_, old, _⟩
        · exact absurd (cleared.known _ before) (Nat.lt_irrefl _)
        · exact cleared.recorded other value old before
  case playing =>
      intro other value lookup playing
      rcases found other value lookup with ⟨rfl, rfl⟩ | ⟨_, old, _⟩
      · rw [isNew] at playing
        cases playing
      · exact cleared.playing other value old playing

theorem update_tracked (conn : ConnectionState) (id : SessionId) (old session : Session) (accepted : Accepted)
    (here : conn.sessions.lookup id = some old) (follows : Follows old session accepted) (tracked : conn.Tracked) :
    (conn.updateSession id session accepted).Tracked := by
  have found (other : SessionId) (value : Session)
      (lookup : (conn.sessions.insert id session).lookup other = some value) :
      other = id ∧ value = session ∨
        other ≠ id ∧ conn.sessions.lookup other = some value ∧ session.serial ≠ value.serial := by
    refine (Table.insert_cases lookup).imp_right fun ⟨different, before⟩ => ⟨different, before, fun same => different ?_⟩
    exact (tracked.single id other old value here before (follows.serial ▸ same)).symm
  refine ⟨?known, ?placed, ?single, ?current, ?gone, ?named, ?recorded, ?playing⟩
  case known =>
      intro entry member
      rcases List.mem_cons.mp member with rfl | before
      · exact follows.serial ▸ tracked.placed id old here
      · exact tracked.known entry before
  case placed =>
      intro other value lookup
      rcases found other value lookup with ⟨_, rfl⟩ | ⟨_, before, _⟩
      · exact follows.serial ▸ tracked.placed id old here
      · exact tracked.placed other value before
  case single =>
      intro first second value other lookup lookupOther same
      rcases found first value lookup with ⟨rfl, rfl⟩ | ⟨_, before, different⟩
      · rcases found second other lookupOther with ⟨rfl, _⟩ | ⟨_, _, differentOther⟩
        · rfl
        · exact absurd same differentOther
      · rcases found second other lookupOther with ⟨rfl, rfl⟩ | ⟨_, beforeOther, _⟩
        · exact absurd same.symm different
        · exact tracked.single first second value other before beforeOther same
  case current =>
      intro other value lookup
      rw [updateSession, last_note]
      rcases found other value lookup with ⟨rfl, rfl⟩ | ⟨_, before, different⟩
      · rw [if_pos rfl, follows.state]
      · rw [if_neg different]
        exact tracked.current other value before
  case gone =>
      intro serial last isLast notRemoved
      rw [updateSession, last_note] at isLast
      split at isLast
      · rename_i same
        exact ⟨id, session, AList.lookup_insert _, same⟩
      · rename_i different
        obtain ⟨other, value, before, isSerial⟩ := tracked.gone serial last isLast notRemoved
        refine ⟨other, value, ?_, isSerial⟩
        show (conn.sessions.insert id session).lookup other = some value
        rw [Table.lookup_insert_eq, if_neg, before]
        rintro rfl
        rw [here] at before
        exact different (follows.serial.trans (Option.some.inj before ▸ isSerial))
  case named =>
      intro other value lookup entry member same
      rcases found other value lookup with ⟨rfl, rfl⟩ | ⟨_, before, different⟩
      · rcases List.mem_cons.mp member with rfl | known
        · rfl
        · exact follows.broadcast ▸ tracked.named other old here entry known (follows.serial ▸ same)
      · rcases List.mem_cons.mp member with rfl | known
        · exact absurd same different
        · exact tracked.named other value before entry known same
  case recorded =>
      intro other value lookup recorded
      rcases found other value lookup with ⟨rfl, rfl⟩ | ⟨_, before, different⟩
      · rcases List.mem_cons.mp recorded with isNow | earlier
        · exact follows.records (congrArg HistoryEntry.accepted isNow).symm
        · rw [follows.serial, follows.broadcast] at earlier
          exact follows.mode ▸ tracked.recorded other old here earlier
      · rcases List.mem_cons.mp recorded with isNow | earlier
        · exact absurd (congrArg HistoryEntry.serial isNow).symm different
        · exact tracked.recorded other value before earlier
  case playing =>
      intro other value lookup playing
      rcases found other value lookup with ⟨rfl, rfl⟩ | ⟨_, before, _⟩
      · exact follows.plays playing
      · exact tracked.playing other value before playing

theorem tracked_kept (surroundings : Surroundings) (request : Request) : RequestKept surroundings request Tracked where
  announces conn _ _ _ tracked := insert_tracked conn _ rfl tracked
  opens conn tracked := insert_tracked conn _ rfl tracked
  updates conn id old session accepted tracked here follows :=
    update_tracked conn id old session accepted here follows tracked
  removes conn id tracked := remove_tracked conn id tracked
  drains _ _ tracked := ⟨tracked.known, tracked.placed, tracked.single, tracked.current, tracked.gone, tracked.named,
    tracked.recorded, tracked.playing⟩

theorem step_tracked (conn : ConnectionState) (input : Surroundings × Request) (tracked : conn.Tracked) :
    (conn.step input).Tracked :=
  request_keeps (tracked_kept input.1 input.2) conn tracked

theorem mem_finish (conn : ConnectionState) (exit : Exit) (serial : Nat) (broadcast : String) :
    (serial, .broadcastStopped broadcast) ∈ conn.finish exit ↔ exit ≠ .readFailed ∧
      ∃ id session, conn.sessions.lookup id = some session ∧ Live session = true ∧ session.serial = serial ∧
        session.broadcast = broadcast := by
  have listed : (serial, .broadcastStopped broadcast) ∈ ((conn.sessions.entries.filter fun entry =>
      Live entry.2).map fun entry => (entry.2.serial, RelayEvent.broadcastStopped entry.2.broadcast)) ↔
        ∃ id session, conn.sessions.lookup id = some session ∧ Live session = true ∧ session.serial = serial ∧
          session.broadcast = broadcast := by
    simp only [List.mem_map, List.mem_filter, Prod.mk.injEq, RelayEvent.broadcastStopped.injEq]
    constructor
    · rintro ⟨⟨id, session⟩, ⟨member, live⟩, isSerial, isBroadcast⟩
      exact ⟨id, session, AList.mem_lookup_iff.mpr member, live, isSerial, isBroadcast⟩
    · rintro ⟨id, session, found, live, isSerial, isBroadcast⟩
      exact ⟨⟨id, session⟩, ⟨AList.mem_lookup_iff.mp found, live⟩, isSerial, isBroadcast⟩
  cases exit with
  | readFailed => simp [finish]
  | peerClosed => simpa [finish] using listed
  | writeFailed => simpa [finish] using listed
  | cancelled => simpa [finish] using listed

theorem finish_nodup (conn : ConnectionState) (exit : Exit) (tracked : conn.Tracked) : (conn.finish exit).Nodup := by
  have listed : ((conn.sessions.entries.filter fun entry => Live entry.2).map fun entry =>
      (entry.2.serial, RelayEvent.broadcastStopped entry.2.broadcast)).Nodup := by
    refine List.Nodup.map_on ?_ (conn.sessions.nodupKeys.nodup.filter _)
    rintro ⟨id, session⟩ member ⟨other, second⟩ memberOther same
    have found := AList.mem_lookup_iff.mpr (List.mem_filter.mp member).1
    have foundOther := AList.mem_lookup_iff.mpr (List.mem_filter.mp memberOther).1
    obtain rfl := tracked.single id other session second found foundOther (Prod.mk.inj same).1
    obtain rfl : session = second := Option.some.inj (found.symm.trans foundOther)
    rfl
  cases exit with
  | readFailed => exact List.nodup_nil
  | peerClosed => exact listed
  | writeFailed => exact listed
  | cancelled => exact listed

theorem announces_iff_mem (conn : ConnectionState) (exit : Exit) (tracked : conn.Tracked) :
    conn.AnnouncesRecordings exit ↔ ∀ serial broadcast,
      (serial, .broadcastStopped broadcast) ∈ conn.finish exit ↔ ⟨serial, broadcast, .record⟩ ∈ conn.history := by
  have nodup := finish_nodup conn exit tracked
  constructor
  · intro announces serial broadcast
    have counted := announces serial broadcast
    split at counted
    · rename_i recorded
      exact iff_of_true (List.count_pos_iff.mp (by omega)) recorded
    · rename_i unrecorded
      exact iff_of_false (List.count_eq_zero.mp counted) unrecorded
  · intro same serial broadcast
    split
    · rename_i recorded
      exact List.count_eq_one_of_mem nodup ((same serial broadcast).mpr recorded)
    · rename_i unrecorded
      exact List.count_eq_zero.mpr (mt (same serial broadcast).mp unrecorded)

-- The two directions a session can end in exclude each other.
theorem recorded_not_playing (conn : ConnectionState) (tracked : conn.Tracked) (id : SessionId) (session : Session)
    (found : conn.sessions.lookup id = some session)
    (recorded : ⟨session.serial, session.broadcast, .record⟩ ∈ conn.history) : session.state ≠ .playing := by
  intro playing
  have ingest := tracked.recorded id session found recorded
  have playback := tracked.playing id session found playing
  rw [ingest] at playback
  cases playback

theorem live_cases (session : Session) (live : Live session = true) :
    session.state = .playing ∨ session.state = .recording := by
  simpa [Live] using live

theorem announces_of_ends_recording (conn : ConnectionState) (exit : Exit) (tracked : conn.Tracked)
    (ends : conn.EndsRecording exit) : conn.AnnouncesRecordings exit := by
  rw [announces_iff_mem conn exit tracked]
  intro serial broadcast
  rw [mem_finish]
  constructor
  · rintro ⟨regular, id, session, found, live, rfl, rfl⟩
    have isLast := tracked.current id session found
    obtain ⟨entry, member, isSerial, isAccepted⟩ := conn.last_mem _ _ isLast
    rcases live_cases session live with playing | recording
    · rw [playing] at isLast
      exact absurd (isSerial ▸ isLast) (ends.2 regular entry member)
    · have named := tracked.named id session found entry member isSerial
      rw [recording] at isAccepted
      obtain ⟨entrySerial, entryBroadcast, entryAccepted⟩ := entry
      simp only [acceptedFor] at isSerial named isAccepted
      subst isSerial named isAccepted
      exact member
  · intro recorded
    obtain ⟨regular, isLast⟩ := ends.1 _ recorded rfl
    obtain ⟨id, session, found, rfl⟩ := tracked.gone serial _ isLast (by simp)
    have isState := (tracked.current id session found).symm.trans isLast
    have named := tracked.named id session found _ recorded rfl
    have recording : session.state = .recording := by
      cases state : session.state <;> simp [state, acceptedFor] at isState ⊢
    exact ⟨regular, id, session, found, by simp [Live, recording], rfl, named.symm⟩

theorem ends_recording_of_announces (conn : ConnectionState) (exit : Exit) (tracked : conn.Tracked)
    (announces : conn.AnnouncesRecordings exit) : conn.EndsRecording exit := by
  rw [announces_iff_mem conn exit tracked] at announces
  constructor
  · intro ⟨serial, broadcast, accepted⟩ member isRecord
    obtain rfl : accepted = .record := isRecord
    obtain ⟨regular, id, session, found, live, rfl, rfl⟩ :=
      (mem_finish conn exit serial broadcast).mp ((announces serial broadcast).mpr member)
    refine ⟨regular, ?_⟩
    rcases live_cases session live with playing | recording
    · exact absurd playing (recorded_not_playing conn tracked id session found member)
    · rw [tracked.current id session found, recording]
      rfl
  · intro regular entry member isLast
    obtain ⟨id, session, found, isSerial⟩ := tracked.gone entry.serial _ isLast (by simp)
    have isState := (tracked.current id session found).symm.trans (isSerial ▸ isLast)
    have playing : session.state = .playing := by
      cases state : session.state <;> simp [state, acceptedFor] at isState ⊢
    have announced := (mem_finish conn exit session.serial session.broadcast).mpr
      ⟨regular, id, session, found, by simp [Live, playing], rfl, rfl⟩
    exact recorded_not_playing conn tracked id session found ((announces _ _).mp announced) playing

end ConnectionState

open ConnectionState

-- However a connection's requests go and however it ends, the recordings are the
-- ones announced exactly if each of them was still going on and nobody played.
theorem broadcast_stopped_once_iff (inputs : List (Surroundings × Request)) (exit : Exit) :
    (Machine.run step new inputs).AnnouncesRecordings exit ↔ (Machine.run step new inputs).EndsRecording exit := by
  have tracked := Machine.invariant_of_run step_tracked new inputs new_tracked
  exact ⟨ends_recording_of_announces _ exit tracked, announces_of_ends_recording _ exit tracked⟩

def loneServer : Surroundings := ⟨none, false, true, "S1", "", none, none, []⟩

def publishAndTearDown : List (Surroundings × Request) :=
  [(loneServer, ⟨.announce, "rtsp://h/live/cam", [], []⟩),
    (loneServer, ⟨.setup, "rtsp://h/live/cam/track1", [("Session", "S1")], []⟩),
    (loneServer, ⟨.record, "rtsp://h/live/cam", [("Session", "S1")], []⟩),
    (loneServer, ⟨.teardown, "rtsp://h/live/cam", [("Session", "S1")], []⟩)]

-- The session is gone before the connection ends, so nobody hears of its end.
theorem teardown_of_recording_unannounced :
    ¬ ∀ (inputs : List (Surroundings × Request)) (exit : Exit),
      (Machine.run step new inputs).AnnouncesRecordings exit := by
  intro announces
  have counted := announces publishAndTearDown .peerClosed 0 "live/cam"
  revert counted
  decide

end Lvqr.Rtsp
