import Lvqr.Ts.Packet

set_option autoImplicit false

-- One PID at a time. Once the tables stand, nothing the demuxer does for other
-- PIDs shows in what it does for this one.
namespace Lvqr.Ts

def carries (pid : Nat) (packet : TransportPacket) : Bool := packet.pid == pid && !packet.payload.isEmpty

def carriers (pid : Nat) (stream : List TransportPacket) : List TransportPacket := stream.filter (carries pid)

theorem carries_iff (pid : Nat) (packet : TransportPacket) :
    carries pid packet = true ↔ packet.pid = pid ∧ packet.payload ≠ [] := by
  simp [carries]

theorem carriers_carry (pid : Nat) (stream : List TransportPacket) :
    ∀ packet ∈ carriers pid stream, carries pid packet = true :=
  fun _ member => (List.mem_filter.mp member).2

structure Announced (demuxer : TsDemuxer) (pid : Nat) (streamType : StreamType) : Prop where
  notPat : pid ≠ PAT_PID
  notPmt : some pid ≠ demuxer.pmtPid
  listed : demuxer.streams pid = some streamType

-- A packet that carries a table says again what the demuxer already knows.
def KeepsTables (demuxer : TsDemuxer) (packet : TransportPacket) : Prop :=
  (packet.pid = PAT_PID → (parsePat packet.payload packet.pusi).or demuxer.pmtPid = demuxer.pmtPid) ∧
    (packet.pid ≠ PAT_PID → some packet.pid = demuxer.pmtPid →
      (parsePmt packet.payload packet.pusi).getD demuxer.streams = demuxer.streams)

structure SameTables (a b : TsDemuxer) : Prop where
  pmtPid : a.pmtPid = b.pmtPid
  streams : a.streams = b.streams

def sectionsOf (pid : Nat) (sections : List Scte35Section) : List Scte35Section := sections.filter (·.pid == pid)

def packetsOf (pid : Nat) (packets : List PesPacket) : List PesPacket := packets.filter (·.pid == pid)

structure SameBuffers (pid : Nat) (a b : TsDemuxer) : Prop where
  pesBufs : a.pesBufs pid = b.pesBufs pid
  sectionBufs : a.sectionBufs pid = b.sectionBufs pid
  pending : sectionsOf pid a.pendingScte35 = sectionsOf pid b.pendingScte35

structure SamePid (pid : Nat) (a b : TsDemuxer) : Prop extends SameTables a b, SameBuffers pid a b

theorem same_tables_refl (demuxer : TsDemuxer) : SameTables demuxer demuxer := ⟨rfl, rfl⟩

theorem same_buffers_refl (pid : Nat) (demuxer : TsDemuxer) : SameBuffers pid demuxer demuxer := ⟨rfl, rfl, rfl⟩

theorem same_pid_refl (pid : Nat) (demuxer : TsDemuxer) : SamePid pid demuxer demuxer :=
  ⟨same_tables_refl demuxer, same_buffers_refl pid demuxer⟩

theorem same_buffers_trans (pid : Nat) (a b c : TsDemuxer) (first : SameBuffers pid a b) (second : SameBuffers pid b c) :
    SameBuffers pid a c :=
  ⟨first.pesBufs.trans second.pesBufs, first.sectionBufs.trans second.sectionBufs, first.pending.trans second.pending⟩

theorem finish_pes_pid (pid : Nat) (buffer : PesBuffer) (packet : PesPacket)
    (finished : finishPes pid buffer = some packet) : packet.pid = pid := by
  simp only [finishPes] at finished
  repeat' split at finished
  all_goals cases finished
  all_goals rfl

namespace TsDemuxer

theorem finished_pid (demuxer : TsDemuxer) (pid : Nat) (packet : PesPacket) (member : packet ∈ demuxer.finished pid) :
    packet.pid = pid := by
  unfold finished at member
  cases buffered : demuxer.pesBufs pid with
  | none => simp [buffered] at member
  | some buffer =>
      simp only [buffered] at member
      split at member
      · exact finish_pes_pid pid buffer packet (Option.mem_toList.mp member)
      · cases member

theorem push_pes_pid (demuxer : TsDemuxer) (pid : Nat) (payload : Bytes) (pusi : Bool) (packet : PesPacket)
    (member : packet ∈ (demuxer.pushPes pid payload pusi).1) : packet.pid = pid := by
  cases pusi with
  | true => exact demuxer.finished_pid pid packet member
  | false =>
      simp only [pushPes, Bool.false_eq_true, if_false] at member
      split at member
      · cases member
      · split at member <;> cases member

theorem push_pes_tables (demuxer : TsDemuxer) (pid : Nat) (payload : Bytes) (pusi : Bool) :
    SameTables (demuxer.pushPes pid payload pusi).2 demuxer := by
  cases pusi with
  | true => exact ⟨rfl, rfl⟩
  | false =>
      simp only [pushPes, Bool.false_eq_true, if_false]
      split
      · exact same_tables_refl demuxer
      · split <;> exact ⟨rfl, rfl⟩

theorem push_pes_elsewhere (demuxer : TsDemuxer) (pid other : Nat) (payload : Bytes) (pusi : Bool)
    (different : other ≠ pid) : SameBuffers pid (demuxer.pushPes other payload pusi).2 demuxer := by
  have untouched (buffer : PesBuffer) :
      SameBuffers pid { demuxer with pesBufs := Function.update demuxer.pesBufs other (some buffer) } demuxer :=
    ⟨Function.update_of_ne different.symm _ _, rfl, rfl⟩
  cases pusi with
  | true => exact untouched _
  | false =>
      simp only [pushPes, Bool.false_eq_true, if_false]
      split
      · exact same_buffers_refl pid demuxer
      · split
        · exact untouched _
        · exact same_buffers_refl pid demuxer

theorem push_section_elsewhere (demuxer : TsDemuxer) (pid other : Nat) (payload : Bytes) (pusi : Bool)
    (different : other ≠ pid) : SameBuffers pid (demuxer.pushSection other payload pusi) demuxer := by
  refine ⟨rfl, Function.update_of_ne different.symm _ _, ?_⟩
  simp [pushSection, sectionsOf, different]

end TsDemuxer

theorem packets_of_elsewhere (pid other : Nat) (packets : List PesPacket) (different : other ≠ pid)
    (all : ∀ packet ∈ packets, packet.pid = other) : packetsOf pid packets = [] := by
  rw [packetsOf, List.filter_eq_nil_iff]
  intro packet member
  simp [all packet member, different]

theorem packets_of_here (pid : Nat) (packets : List PesPacket) (all : ∀ packet ∈ packets, packet.pid = pid) :
    packetsOf pid packets = packets := by
  rw [packetsOf, List.filter_eq_self]
  intro packet member
  simp [all packet member]

theorem keeps_tables_congr (a b : TsDemuxer) (same : SameTables a b) (packet : TransportPacket)
    (steady : KeepsTables a packet) : KeepsTables b packet := by
  unfold KeepsTables at *
  rwa [← same.pmtPid, ← same.streams]

namespace TsDemuxer

theorem announced_congr (a b : TsDemuxer) (same : SameTables a b) (pid : Nat) (streamType : StreamType)
    (announced : Announced a pid streamType) : Announced b pid streamType :=
  ⟨announced.notPat, same.pmtPid ▸ announced.notPmt, same.streams ▸ announced.listed⟩

theorem dispatch_media (demuxer : TsDemuxer) (pid : Nat) (streamType : StreamType) (payload : Bytes) (pusi : Bool)
    (announced : Announced demuxer pid streamType) (media : streamType ≠ .scte35) :
    demuxer.dispatch pid payload pusi = demuxer.pushPes pid payload pusi := by
  rw [dispatch, if_neg announced.notPat, if_neg announced.notPmt, announced.listed]
  cases streamType with
  | scte35 => exact absurd rfl media
  | h264 => rfl
  | h265 => rfl
  | aac => rfl
  | unknown byte => rfl

theorem dispatch_scte35 (demuxer : TsDemuxer) (pid : Nat) (payload : Bytes) (pusi : Bool)
    (announced : Announced demuxer pid .scte35) :
    demuxer.dispatch pid payload pusi = ([], demuxer.pushSection pid payload pusi) := by
  rw [dispatch, if_neg announced.notPat, if_neg announced.notPmt, announced.listed]

theorem dispatch_elsewhere (demuxer : TsDemuxer) (pid other : Nat) (payload : Bytes) (pusi : Bool)
    (different : other ≠ pid) :
    packetsOf pid (demuxer.dispatch other payload pusi).1 = [] ∧
      SameBuffers pid (demuxer.dispatch other payload pusi).2 demuxer := by
  unfold dispatch
  by_cases isPat : other = PAT_PID
  · rw [if_pos isPat]
    exact ⟨rfl, rfl, rfl, rfl⟩
  · by_cases isPmt : some other = demuxer.pmtPid
    · rw [if_neg isPat, if_pos isPmt]
      exact ⟨rfl, rfl, rfl, rfl⟩
    · rw [if_neg isPat, if_neg isPmt]
      have pes : packetsOf pid (demuxer.pushPes other payload pusi).1 = [] ∧
          SameBuffers pid (demuxer.pushPes other payload pusi).2 demuxer :=
        ⟨packets_of_elsewhere pid other _ different (demuxer.push_pes_pid other payload pusi),
          demuxer.push_pes_elsewhere pid other payload pusi different⟩
      cases demuxer.streams other with
      | none => exact ⟨rfl, same_buffers_refl pid demuxer⟩
      | some streamType =>
          cases streamType with
          | scte35 => exact ⟨rfl, demuxer.push_section_elsewhere pid other payload pusi different⟩
          | h264 => exact pes
          | h265 => exact pes
          | aac => exact pes
          | unknown byte => exact pes

theorem dispatch_other (demuxer : TsDemuxer) (pid : Nat) (payload : Bytes) (pusi : Bool) (notPat : pid ≠ PAT_PID)
    (notPmt : some pid ≠ demuxer.pmtPid) : SameTables (demuxer.dispatch pid payload pusi).2 demuxer := by
  rw [dispatch, if_neg notPat, if_neg notPmt]
  cases demuxer.streams pid with
  | none => exact same_tables_refl demuxer
  | some streamType =>
      cases streamType with
      | scte35 => exact ⟨rfl, rfl⟩
      | h264 => exact demuxer.push_pes_tables pid _ _
      | h265 => exact demuxer.push_pes_tables pid _ _
      | aac => exact demuxer.push_pes_tables pid _ _
      | unknown byte => exact demuxer.push_pes_tables pid _ _

theorem dispatch_tables (demuxer : TsDemuxer) (packet : TransportPacket) (steady : KeepsTables demuxer packet) :
    SameTables (demuxer.dispatch packet.pid packet.payload packet.pusi).2 demuxer := by
  by_cases isPat : packet.pid = PAT_PID
  · rw [dispatch, if_pos isPat]
    exact ⟨steady.1 isPat, rfl⟩
  · by_cases isPmt : some packet.pid = demuxer.pmtPid
    · rw [dispatch, if_neg isPat, if_pos isPmt]
      exact ⟨rfl, steady.2 isPat isPmt⟩
    · exact dispatch_other demuxer packet.pid _ _ isPat isPmt

theorem push_pes_same (a b : TsDemuxer) (pid : Nat) (payload : Bytes) (pusi : Bool) (same : SamePid pid a b) :
    (a.pushPes pid payload pusi).1 = (b.pushPes pid payload pusi).1 ∧
      SamePid pid (a.pushPes pid payload pusi).2 (b.pushPes pid payload pusi).2 := by
  have updated (old new : Option PesBuffer) (equal : old = new) :
      SamePid pid { a with pesBufs := Function.update a.pesBufs pid old }
        { b with pesBufs := Function.update b.pesBufs pid new } :=
    ⟨⟨same.pmtPid, same.streams⟩, by simp [equal], same.sectionBufs, same.pending⟩
  cases pusi with
  | true =>
      refine ⟨?_, updated _ _ (by rw [same.streams])⟩
      simp only [pushPes, finished, same.pesBufs, if_true]
  | false =>
      simp only [pushPes, Bool.false_eq_true, if_false, same.pesBufs]
      split
      · exact ⟨rfl, same⟩
      · split
        · exact ⟨rfl, updated _ _ rfl⟩
        · exact ⟨rfl, same⟩

theorem push_section_same (a b : TsDemuxer) (pid : Nat) (payload : Bytes) (pusi : Bool) (same : SamePid pid a b) :
    SamePid pid (a.pushSection pid payload pusi) (b.pushSection pid payload pusi) := by
  refine ⟨⟨same.pmtPid, same.streams⟩, same.pesBufs, ?_, ?_⟩
  · simp [pushSection, same.sectionBufs]
  · have pending := same.pending
    unfold sectionsOf at pending
    simp only [pushSection, sectionsOf, List.filter_append, pending, same.sectionBufs]

theorem dispatch_same (a b : TsDemuxer) (pid : Nat) (streamType : StreamType) (payload : Bytes) (pusi : Bool)
    (same : SamePid pid a b) (announced : Announced a pid streamType) :
    (a.dispatch pid payload pusi).1 = (b.dispatch pid payload pusi).1 ∧
      SamePid pid (a.dispatch pid payload pusi).2 (b.dispatch pid payload pusi).2 := by
  have alsoAnnounced := announced_congr a b same.toSameTables pid streamType announced
  by_cases media : streamType = .scte35
  · subst media
    rw [dispatch_scte35 a pid payload pusi announced, dispatch_scte35 b pid payload pusi alsoAnnounced]
    exact ⟨rfl, push_section_same a b pid payload pusi same⟩
  · rw [dispatch_media a pid streamType payload pusi announced media,
      dispatch_media b pid streamType payload pusi alsoAnnounced media]
    exact push_pes_same a b pid payload pusi same

theorem dispatch_announced_pid (demuxer : TsDemuxer) (pid : Nat) (streamType : StreamType) (payload : Bytes)
    (pusi : Bool) (announced : Announced demuxer pid streamType) (packet : PesPacket)
    (member : packet ∈ (demuxer.dispatch pid payload pusi).1) : packet.pid = pid := by
  by_cases media : streamType = .scte35
  · subst media
    rw [dispatch_scte35 demuxer pid payload pusi announced] at member
    cases member
  · rw [dispatch_media demuxer pid streamType payload pusi announced media] at member
    exact demuxer.push_pes_pid pid payload pusi packet member

theorem process_tables (demuxer : TsDemuxer) (packet : TransportPacket) (steady : KeepsTables demuxer packet) :
    SameTables (demuxer.processPacket packet.encode).2 demuxer := by
  rw [process_encoded]
  split
  · exact same_tables_refl demuxer
  · exact demuxer.dispatch_tables packet steady

theorem process_elsewhere (demuxer : TsDemuxer) (pid : Nat) (packet : TransportPacket)
    (notMine : carries pid packet = false) :
    packetsOf pid (demuxer.processPacket packet.encode).1 = [] ∧
      SameBuffers pid (demuxer.processPacket packet.encode).2 demuxer := by
  rw [process_encoded]
  by_cases empty : packet.payload = []
  · rw [if_pos empty]
    exact ⟨rfl, same_buffers_refl pid demuxer⟩
  · rw [if_neg empty]
    have different : packet.pid ≠ pid := by
      intro isPid
      rw [(carries_iff pid packet).mpr ⟨isPid, empty⟩] at notMine
      cases notMine
    exact demuxer.dispatch_elsewhere pid packet.pid _ _ different

theorem receive_elsewhere (demuxer : TsDemuxer) (pid : Nat) (stream : List TransportPacket)
    (silent : carriers pid stream = []) :
    packetsOf pid (demuxer.receive stream).1 = [] ∧ SameBuffers pid (demuxer.receive stream).2 demuxer := by
  induction stream generalizing demuxer with
  | nil => exact ⟨rfl, same_buffers_refl pid demuxer⟩
  | cons packet stream ih =>
      have noneCarries := List.filter_eq_nil_iff.mp silent
      have later : carriers pid stream = [] :=
        List.filter_eq_nil_iff.mpr fun other member => noneCarries other (by simp [member])
      obtain ⟨nothing, same⟩ := demuxer.process_elsewhere pid packet (by simpa using noneCarries packet (by simp))
      obtain ⟨rest, final⟩ := ih (demuxer.processPacket packet.encode).2 later
      rw [receive_cons]
      refine ⟨?_, same_buffers_trans pid _ _ _ final same⟩
      unfold packetsOf at nothing rest ⊢
      rw [List.filter_append, nothing, rest, List.append_nil]

theorem receive_projects (pid : Nat) (streamType : StreamType) (stream : List TransportPacket) (a b : TsDemuxer)
    (same : SamePid pid a b) (announced : Announced a pid streamType)
    (steady : ∀ packet ∈ stream, KeepsTables a packet) :
    packetsOf pid (a.receive stream).1 = (b.receive (carriers pid stream)).1 ∧
      SamePid pid (a.receive stream).2 (b.receive (carriers pid stream)).2 := by
  induction stream generalizing a b with
  | nil => exact ⟨rfl, same⟩
  | cons packet stream ih =>
      have here := steady packet (by simp)
      have tables := a.process_tables packet here
      have back : SameTables a (a.processPacket packet.encode).2 := ⟨tables.pmtPid.symm, tables.streams.symm⟩
      have later : ∀ other ∈ stream, KeepsTables (a.processPacket packet.encode).2 other := fun other member =>
        keeps_tables_congr a _ back other (steady other (by simp [member]))
      have still := announced_congr a _ back pid streamType announced
      rw [receive_cons, packetsOf, List.filter_append]
      by_cases mine : carries pid packet = true
      · obtain ⟨isPid, nonempty⟩ := (carries_iff pid packet).mp mine
        have selected : carriers pid (packet :: stream) = packet :: carriers pid stream := by
          simp [carriers, mine]
        obtain ⟨sameOut, sameNext⟩ := dispatch_same a b pid streamType packet.payload packet.pusi same announced
        have all := packets_of_here pid _ (dispatch_announced_pid a pid streamType packet.payload packet.pusi announced)
        rw [selected, receive_cons]
        have ofA : a.processPacket packet.encode = a.dispatch pid packet.payload packet.pusi := by
          rw [process_encoded, if_neg nonempty, isPid]
        have ofB : b.processPacket packet.encode = b.dispatch pid packet.payload packet.pusi := by
          rw [process_encoded, if_neg nonempty, isPid]
        rw [ofA] at later still
        obtain ⟨rest, final⟩ := ih _ _ sameNext still later
        rw [ofA, ofB]
        unfold packetsOf at all rest
        refine ⟨?_, final⟩
        rw [all, rest, sameOut]
      · have skipped : carriers pid (packet :: stream) = carriers pid stream := by
          simp [carriers, mine]
        obtain ⟨nothing, quiet⟩ := a.process_elsewhere pid packet (by simpa using mine)
        have sameNext : SamePid pid (a.processPacket packet.encode).2 b :=
          ⟨⟨tables.pmtPid.trans same.pmtPid, tables.streams.trans same.streams⟩,
            same_buffers_trans pid _ a b quiet same.toSameBuffers⟩
        obtain ⟨rest, final⟩ := ih _ _ sameNext still later
        unfold packetsOf at nothing rest
        rw [skipped, nothing, List.nil_append]
        exact ⟨rest, final⟩

end TsDemuxer

end Lvqr.Ts
