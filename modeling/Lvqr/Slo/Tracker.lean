import Mathlib.Data.Prod.Lex
import Mathlib.Data.String.Basic
import Lvqr.Auth.Provider
import Lvqr.Lib.Machine
import Lvqr.Lib.Table
import Lvqr.Lib.Utf8
import Lvqr.Lib.Window

set_option autoImplicit false

-- The latency samples behind the SLO route, and the route on which clients push theirs.
namespace Lvqr.Slo

def MAX_SAMPLES_PER_KEY : Nat := 1024

structure TrackerKey where
  broadcast : String
  transport : String
deriving DecidableEq, Repr

structure SampleBuffer where
  samples : List Nat
  nextIndex : Nat
  total : Nat
deriving DecidableEq, Repr

namespace SampleBuffer

def new : SampleBuffer := ⟨[], 0, 0⟩

def push (buffer : SampleBuffer) (sample : Nat) : SampleBuffer :=
  let buffer :=
    if buffer.samples.length < MAX_SAMPLES_PER_KEY then { buffer with samples := buffer.samples ++ [sample] }
    else
      { buffer with
        samples := buffer.samples.set buffer.nextIndex sample
        nextIndex := (buffer.nextIndex + 1) % MAX_SAMPLES_PER_KEY }
  { buffer with total := min (buffer.total + 1) (2 ^ 64 - 1) }

-- p50, p95, p99 and the greatest.
def percentiles (buffer : SampleBuffer) : Nat × Nat × Nat × Nat :=
  if buffer.samples = [] then (0, 0, 0, 0)
  else
    let sorted := buffer.samples.insertionSort (· ≤ ·)
    let n := sorted.length
    let ranked := fun percent => sorted.getD (min (n * percent / 100) (n - 1)) 0
    (ranked 50, ranked 95, ranked 99, sorted.getLast?.getD 0)

end SampleBuffer

structure SloEntry where
  broadcast : String
  transport : String
  p50Ms : Nat
  p95Ms : Nat
  p99Ms : Nat
  maxMs : Nat
  sampleCount : Nat
  totalObserved : Nat
deriving DecidableEq, Repr

abbrev LatencyTracker := Table TrackerKey SampleBuffer

-- Strings compare by their characters, which is the order of their UTF-8 bytes.
def TrackerKey.rank (key : TrackerKey) : String ×ₗ String := toLex (key.broadcast, key.transport)

namespace LatencyTracker

def record (tracker : LatencyTracker) (sample : TrackerKey × Nat) : LatencyTracker :=
  tracker.insert sample.1 (((tracker.lookup sample.1).getD .new).push sample.2)

def entry (key : TrackerKey) (buffer : SampleBuffer) : SloEntry :=
  let (p50, p95, p99, max) := buffer.percentiles
  ⟨key.broadcast, key.transport, p50, p95, p99, max, buffer.samples.length, buffer.total⟩

def snapshot (tracker : LatencyTracker) : List SloEntry :=
  (Table.inOrder TrackerKey.rank tracker).map fun (key, buffer) => entry key buffer

end LatencyTracker

structure ClientLatencySample where
  broadcast : String
  transport : String
  ingestTsMs : Nat
  renderTsMs : Nat
deriving DecidableEq, Repr

def MAX_ACCEPTED_LATENCY_MS : Nat := 300000

def MAX_BROADCAST_LEN : Nat := 256

def MAX_TRANSPORT_LEN : Nat := 32

inductive AdminError where
  | unavailable (message : String)
  | badRequest (message : String)
  | unauthorized (message : String)
deriving DecidableEq, Repr

def trim (text : String) : String := String.ofList (Text.trim text.toList)

-- The length of a string is that of its UTF-8 bytes.
def byteLength (text : String) : Nat := (Utf8.encode text.toList).length

def bearerToken (authorization : Option String) : String :=
  match authorization.bind fun value => Text.stripPrefix "Bearer ".toList value.toList with
  | some token => String.ofList token
  | none => ""

def mayPush (auth : Auth.AuthProvider) (token broadcast : String) : Bool :=
  auth (.admin token) = .allow || auth (.subscribe (if token = "" then none else some token) broadcast) = .allow

-- The sample that the route records.
def checkSample (auth : Auth.AuthProvider) (authorization : Option String) (sample : ClientLatencySample) :
    Except AdminError (TrackerKey × Nat) :=
  let broadcast := trim sample.broadcast
  let transport := trim sample.transport
  let latency := sample.renderTsMs - sample.ingestTsMs
  if broadcast = "" then .error (.badRequest "broadcast must be non-empty")
  else if MAX_BROADCAST_LEN < byteLength broadcast then
    .error (.badRequest "broadcast exceeds max length (256 chars)")
  else if transport = "" then .error (.badRequest "transport must be non-empty")
  else if MAX_TRANSPORT_LEN < byteLength transport then
    .error (.badRequest "transport exceeds max length (32 chars)")
  else if sample.renderTsMs < sample.ingestTsMs then
    .error (.badRequest "render_ts_ms must be >= ingest_ts_ms (client clock skew?)")
  else if MAX_ACCEPTED_LATENCY_MS < latency then
    .error (.badRequest ("latency_ms " ++ toString latency ++ " exceeds 300000 ms cap (clock skew or bad sample)"))
  else if mayPush auth (bearerToken authorization) broadcast = false then
    .error (.unauthorized "admin or subscribe token required to push SLO samples")
  else .ok (⟨broadcast, transport⟩, latency)

def postClientSample (tracker : Option LatencyTracker) (auth : Auth.AuthProvider) (authorization : Option String)
    (sample : ClientLatencySample) : Option LatencyTracker × Except AdminError Unit :=
  match tracker with
  | none => (none, .error (.unavailable "SLO tracker not configured on this server"))
  | some tracker =>
      match checkSample auth authorization sample with
      | .error error => (some tracker, .error error)
      | .ok recorded => (some (tracker.record recorded), .ok ())

-- The egress surfaces record their samples themselves.
inductive TrackerOp where
  | record (sample : TrackerKey × Nat)
  | post (auth : Auth.AuthProvider) (authorization : Option String) (sample : ClientLatencySample)

def TrackerOp.recorded : TrackerOp → List (TrackerKey × Nat)
  | .record sample => [sample]
  | .post auth authorization sample =>
      match checkSample auth authorization sample with
      | .ok recorded => [recorded]
      | .error _ => []

def LatencyTracker.step (tracker : LatencyTracker) : TrackerOp → LatencyTracker
  | .record sample => tracker.record sample
  | .post auth authorization sample =>
      ((postClientSample (some tracker) auth authorization sample).1).getD tracker

end Lvqr.Slo

-- What a snapshot says about the samples there were.
namespace Lvqr.Slo

open Ranked (IsRanked)

namespace SampleBuffer

def ring (buffer : SampleBuffer) : Circular Nat := ⟨buffer.samples, buffer.nextIndex⟩

def of (samples : List Nat) : SampleBuffer := samples.foldl push new

theorem push_ring (buffer : SampleBuffer) (sample : Nat) :
    (buffer.push sample).ring = buffer.ring.push MAX_SAMPLES_PER_KEY sample := by
  rw [push, Circular.push]
  show ring { (if buffer.samples.length < MAX_SAMPLES_PER_KEY then _ else _ : SampleBuffer) with total := _ } =
    if buffer.samples.length < MAX_SAMPLES_PER_KEY then _ else _
  split
  · rfl
  · rfl

theorem push_total (buffer : SampleBuffer) (sample : Nat) :
    (buffer.push sample).total = min (buffer.total + 1) (2 ^ 64 - 1) := by
  rw [push]
  dsimp only
  split
  · rfl
  · rfl

theorem of_snoc (samples : List Nat) (sample : Nat) : of (samples ++ [sample]) = (of samples).push sample := by
  rw [of, List.foldl_append]
  rfl

theorem of_ring (samples : List Nat) : (of samples).ring = samples.foldl (Circular.push MAX_SAMPLES_PER_KEY) Circular.empty := by
  induction samples using List.reverseRecOn with
  | nil => rfl
  | append_singleton samples sample ih =>
      rw [of_snoc, push_ring, ih, List.foldl_append]
      rfl

theorem of_total (samples : List Nat) : (of samples).total = min samples.length (2 ^ 64 - 1) := by
  induction samples using List.reverseRecOn with
  | nil => rfl
  | append_singleton samples sample ih =>
      rw [of_snoc, push_total, ih, List.length_append, List.length_singleton]
      omega

-- The buffer holds the last samples, in some order.
theorem of_perm (samples : List Nat) : (of samples).samples.Perm (samples.rtake MAX_SAMPLES_PER_KEY) := by
  have seen := (Circular.pushed MAX_SAMPLES_PER_KEY (by decide) samples).2
  rw [← of_ring] at seen
  rw [← seen]
  exact (Circular.view_perm (of samples).ring).symm

end SampleBuffer

structure Summarises (samples : List Nat) (entry : SloEntry) : Prop where
  count : entry.sampleCount = min MAX_SAMPLES_PER_KEY samples.length
  total : entry.totalObserved = min samples.length (2 ^ 64 - 1)
  p50 : IsRanked (samples.rtake MAX_SAMPLES_PER_KEY) (entry.sampleCount * 50 / 100) entry.p50Ms
  p95 : IsRanked (samples.rtake MAX_SAMPLES_PER_KEY) (entry.sampleCount * 95 / 100) entry.p95Ms
  p99 : IsRanked (samples.rtake MAX_SAMPLES_PER_KEY) (entry.sampleCount * 99 / 100) entry.p99Ms
  max : IsRanked (samples.rtake MAX_SAMPLES_PER_KEY) (entry.sampleCount - 1) entry.maxMs

theorem summary_unique (samples : List Nat) (first second : SloEntry) (isFirst : Summarises samples first)
    (isSecond : Summarises samples second) (broadcast : first.broadcast = second.broadcast)
    (transport : first.transport = second.transport) : first = second := by
  obtain ⟨b, t, p50, p95, p99, max, count, total⟩ := first
  obtain ⟨b', t', p50', p95', p99', max', count', total'⟩ := second
  obtain ⟨counted, totalled, is50, is95, is99, isMax⟩ := isFirst
  obtain ⟨countedToo, totalledToo, is50Too, is95Too, is99Too, isMaxToo⟩ := isSecond
  dsimp only at *
  subst broadcast transport counted totalled countedToo totalledToo
  rw [Ranked.ranked_unique _ _ _ _ is50 is50Too, Ranked.ranked_unique _ _ _ _ is95 is95Too,
    Ranked.ranked_unique _ _ _ _ is99 is99Too, Ranked.ranked_unique _ _ _ _ isMax isMaxToo]

section Sorted

variable (slots kept : List Nat) (perm : slots.Perm kept)

include perm

theorem ranked_at (rank : Nat) (inside : rank < slots.length) :
    IsRanked kept rank ((slots.insertionSort (· ≤ ·)).getD rank 0) := by
  have sorting := List.perm_insertionSort (· ≤ ·) slots
  have sorted : (slots.insertionSort (· ≤ ·)).Pairwise (· ≤ ·) := List.pairwise_insertionSort _ _
  rw [← sorting.length_eq] at inside
  rw [List.getD_eq_getElem?_getD, List.getElem?_eq_getElem inside, Option.getD_some]
  exact (Ranked.ranked_perm (sorting.trans perm) _ _).mp (Ranked.sorted_ranked _ sorted rank inside)

theorem percentile_ranked (filled : slots ≠ []) (percent : Nat) (part : percent < 100) :
    IsRanked kept (slots.length * percent / 100)
      ((slots.insertionSort (· ≤ ·)).getD (min (slots.length * percent / 100) (slots.length - 1)) 0) := by
  have positive := List.length_pos_iff.mpr filled
  have inside : slots.length * percent / 100 < slots.length :=
    Nat.div_lt_of_lt_mul (by rw [Nat.mul_comm 100]; exact Nat.mul_lt_mul_of_pos_left part positive)
  rw [Nat.min_eq_left (Nat.le_sub_one_of_lt inside)]
  exact ranked_at slots kept perm _ inside

theorem greatest_ranked (filled : slots ≠ []) :
    IsRanked kept (slots.length - 1) ((slots.insertionSort (· ≤ ·)).getLast?.getD 0) := by
  have positive := List.length_pos_iff.mpr filled
  have size := (List.perm_insertionSort (· ≤ ·) slots).length_eq
  rw [List.getLast?_eq_getElem?, size, ← List.getD_eq_getElem?_getD]
  exact ranked_at slots kept perm _ (by omega)

end Sorted

theorem entry_summarises (key : TrackerKey) (samples : List Nat) (present : samples ≠ []) :
    Summarises samples (LatencyTracker.entry key (.of samples)) := by
  have perm := SampleBuffer.of_perm samples
  have total := SampleBuffer.of_total samples
  generalize SampleBuffer.of samples = buffer at perm total
  have count : buffer.samples.length = min MAX_SAMPLES_PER_KEY samples.length := by
    rw [perm.length_eq, Window.rtake_length]
  have filled : buffer.samples ≠ [] := by
    have positive := List.length_pos_iff.mpr present
    intro none
    rw [none, List.length_nil, MAX_SAMPLES_PER_KEY] at count
    omega
  have size := (List.perm_insertionSort (· ≤ ·) buffer.samples).length_eq
  simp only [LatencyTracker.entry, SampleBuffer.percentiles, if_neg filled, size]
  have ranked := percentile_ranked buffer.samples _ perm filled
  exact ⟨count, total, ranked 50 (by decide), ranked 95 (by decide), ranked 99 (by decide),
    greatest_ranked buffer.samples _ perm filled⟩

theorem recorded_buffers (records : List (TrackerKey × Nat)) (key : TrackerKey) :
    (records.foldl LatencyTracker.record ∅).lookup key =
      if Table.valuesOf records key = [] then none else some (.of (Table.valuesOf records key)) := by
  induction records using List.reverseRecOn generalizing key with
  | nil => rfl
  | append_singleton records sample ih =>
      rw [List.foldl_append, List.foldl_cons, List.foldl_nil, LatencyTracker.record, Table.lookup_insert_eq]
      by_cases same : key = sample.1
      · have added : Table.valuesOf (records ++ [sample]) key = Table.valuesOf records key ++ [sample.2] := by
          simp [Table.valuesOf, same]
        rw [if_pos same, ← same, ih key, added, if_neg (List.append_ne_nil_of_right_ne_nil _ (List.cons_ne_nil _ _)),
          SampleBuffer.of_snoc]
        by_cases fresh : Table.valuesOf records key = []
        · rw [if_pos fresh, fresh]
          rfl
        · rw [if_neg fresh]
          rfl
      · have others : Table.valuesOf (records ++ [sample]) key = Table.valuesOf records key := by
          simp [Table.valuesOf, Ne.symm same]
        rw [if_neg same, ih key, others]

theorem step_records (tracker : LatencyTracker) (op : TrackerOp) :
    tracker.step op = op.recorded.foldl LatencyTracker.record tracker := by
  cases op with
  | record sample => rfl
  | post auth authorization sample =>
      rw [LatencyTracker.step, postClientSample, TrackerOp.recorded]
      cases checkSample auth authorization sample with
      | error error => rfl
      | ok recorded => rfl

theorem run_records (tracker : LatencyTracker) (ops : List TrackerOp) :
    Machine.run LatencyTracker.step tracker ops = (ops.flatMap TrackerOp.recorded).foldl LatencyTracker.record tracker := by
  induction ops generalizing tracker with
  | nil => rfl
  | cons op ops ih => rw [Machine.run_cons, ih, step_records, List.flatMap_cons, List.foldl_append]

theorem rank_injective : Function.Injective TrackerKey.rank := by
  rintro ⟨broadcast, transport⟩ ⟨other, otherTransport⟩ same
  obtain ⟨rfl, rfl⟩ := Prod.mk.inj (toLex_inj.mp same)
  rfl

def SloEntry.key (entry : SloEntry) : TrackerKey := ⟨entry.broadcast, entry.transport⟩

theorem mem_snapshot (ops : List TrackerOp) (entry : SloEntry) :
    entry ∈ (Machine.run LatencyTracker.step ∅ ops).snapshot ↔
      Table.valuesOf (ops.flatMap TrackerOp.recorded) entry.key ≠ [] ∧
        Summarises (Table.valuesOf (ops.flatMap TrackerOp.recorded) entry.key) entry := by
  rw [run_records, LatencyTracker.snapshot, List.mem_map]
  constructor
  · rintro ⟨⟨key, buffer⟩, member, rfl⟩
    have found := (Table.mem_in_order TrackerKey.rank _ key buffer).mp member
    rw [recorded_buffers] at found
    split at found
    · cases found
    · rename_i present
      obtain rfl := Option.some.inj found
      exact ⟨present, entry_summarises key _ present⟩
  · rintro ⟨present, summarises⟩
    refine ⟨(entry.key, .of (Table.valuesOf (ops.flatMap TrackerOp.recorded) entry.key)), ?_, ?_⟩
    · rw [Table.mem_in_order, recorded_buffers, if_neg present]
    · exact summary_unique _ _ _ (entry_summarises entry.key _ present) summarises rfl rfl

-- After any samples, from the egress surfaces and from clients, the snapshot has one
-- entry for each broadcast and transport with a sample, in order, with the ranks of the
-- last samples.
theorem snapshot_summarises (ops : List TrackerOp) :
    let records := ops.flatMap TrackerOp.recorded
    let entries := (Machine.run LatencyTracker.step ∅ ops).snapshot
    (entries.Pairwise fun first second => first.key.rank < second.key.rank) ∧
      ∀ entry, entry ∈ entries ↔
        Table.valuesOf records entry.key ≠ [] ∧ Summarises (Table.valuesOf records entry.key) entry := by
  intro records entries
  have ascending := Table.in_order_ascending TrackerKey.rank rank_injective (Machine.run LatencyTracker.step ∅ ops)
  exact ⟨List.pairwise_map.mpr ascending, mem_snapshot ops⟩

-- A client that may read the broadcast, or an operator, has sent the sample.
structure Sent (key : TrackerKey) (latency : Nat) (auth : Auth.AuthProvider) (authorization : Option String)
    (sample : ClientLatencySample) : Prop where
  broadcast : trim sample.broadcast = key.broadcast
  transport : trim sample.transport = key.transport
  latency : sample.ingestTsMs + latency = sample.renderTsMs
  authorised : auth (.admin (bearerToken authorization)) = .allow ∨
    auth (.subscribe (if bearerToken authorization = "" then none else some (bearerToken authorization)) key.broadcast) =
      .allow

structure Plausible (key : TrackerKey) (latency : Nat) : Prop where
  broadcast : key.broadcast ≠ "" ∧ byteLength key.broadcast ≤ MAX_BROADCAST_LEN
  transport : key.transport ≠ "" ∧ byteLength key.transport ≤ MAX_TRANSPORT_LEN
  latency : latency ≤ MAX_ACCEPTED_LATENCY_MS

theorem check_sample_ok {auth : Auth.AuthProvider} {authorization : Option String} {sample : ClientLatencySample}
    {key : TrackerKey} {latency : Nat} (checked : checkSample auth authorization sample = .ok (key, latency)) :
    Sent key latency auth authorization sample ∧ Plausible key latency := by
  unfold checkSample at checked
  dsimp only at checked
  split at checked
  · cases checked
  · rename_i named
    split at checked
    · cases checked
    · rename_i short
      split at checked
      · cases checked
      · rename_i labelled
        split at checked
        · cases checked
        · rename_i shortToo
          split at checked
          · cases checked
          · rename_i later
            split at checked
            · cases checked
            · rename_i near
              split at checked
              · cases checked
              · rename_i may
                cases checked
                refine ⟨⟨rfl, rfl, by omega, ?_⟩, ⟨named, Nat.le_of_not_lt short⟩, ⟨labelled, Nat.le_of_not_lt shortToo⟩,
                  Nat.le_of_not_lt near⟩
                simpa [mayPush] using Bool.eq_true_of_not_eq_false may

theorem recorded_sent {ops : List TrackerOp} {key : TrackerKey} {latency : Nat}
    (recorded : (key, latency) ∈ ops.flatMap TrackerOp.recorded) (client : .record (key, latency) ∉ ops) :
    ∃ auth authorization sample, .post auth authorization sample ∈ ops ∧ Sent key latency auth authorization sample ∧
      Plausible key latency := by
  obtain ⟨op, isOp, member⟩ := List.mem_flatMap.mp recorded
  cases op with
  | record sample =>
      rw [TrackerOp.recorded, List.mem_singleton] at member
      rw [member] at client
      exact absurd isOp client
  | post auth authorization sample =>
      rw [TrackerOp.recorded] at member
      cases checked : checkSample auth authorization sample with
      | error error =>
          rw [checked] at member
          cases member
      | ok sent =>
          rw [checked, List.mem_singleton] at member
          rw [← member] at checked
          exact ⟨auth, authorization, sample, isOp, check_sample_ok checked⟩

theorem ranked_le {values : List Nat} {value bound : Nat} (ranked : IsRanked values (values.length - 1) value)
    (bounded : ∀ other ∈ values, other ≤ bound) : value ≤ bound := by
  have some : 0 < values.length := by
    have positive := ranked.notGreater
    have least : values.countP (· ≤ value) ≤ values.length := List.countP_le_length
    omega
  have not : values.countP (· < value) ≠ values.length := by
    have few := ranked.smaller
    omega
  rw [ne_eq, List.countP_eq_length, not_forall] at not
  obtain ⟨other, reaches⟩ := not
  rw [Classical.not_imp, decide_eq_true_eq, Nat.not_lt] at reaches
  exact Nat.le_trans reaches.2 (bounded other reaches.1)

-- What clients alone report: no entry without a client that was allowed to report it,
-- and none of more than five minutes.
theorem client_samples_confined (ops : List TrackerOp) (entry : SloEntry)
    (shown : entry ∈ (Machine.run LatencyTracker.step ∅ ops).snapshot)
    (client : ∀ latency, .record (entry.key, latency) ∉ ops) :
    entry.maxMs ≤ MAX_ACCEPTED_LATENCY_MS ∧ byteLength entry.broadcast ≤ MAX_BROADCAST_LEN ∧
      ∀ latency ∈ Table.valuesOf (ops.flatMap TrackerOp.recorded) entry.key,
        ∃ auth authorization sample, .post auth authorization sample ∈ ops ∧
          Sent entry.key latency auth authorization sample := by
  obtain ⟨some, summarises⟩ := (mem_snapshot ops entry).mp shown
  have sent : ∀ latency ∈ Table.valuesOf (ops.flatMap TrackerOp.recorded) entry.key, ∃ auth authorization sample,
      .post auth authorization sample ∈ ops ∧ Sent entry.key latency auth authorization sample ∧
        Plausible entry.key latency := by
    intro latency member
    rw [Table.mem_values_of] at member
    exact recorded_sent member (client latency)
  obtain ⟨one, present⟩ := List.exists_mem_of_ne_nil _ some
  obtain ⟨_, _, _, _, _, credible⟩ := sent one present
  refine ⟨?_, credible.broadcast.2, ?_⟩
  · have greatest := summarises.max
    rw [summarises.count, ← Window.rtake_length] at greatest
    refine ranked_le greatest fun other kept => ?_
    obtain ⟨_, _, _, _, _, near⟩ := sent other (List.mem_of_mem_drop kept)
    exact near.latency
  · intro latency member
    obtain ⟨auth, authorization, sample, isOp, isSent, _⟩ := sent latency member
    exact ⟨auth, authorization, sample, isOp, isSent⟩

def viewerSample : TrackerOp := .post (fun _ => .allow) none ⟨" live/demo", "moq", 1000, 1250⟩

def viewerEntry : SloEntry := ⟨"live/demo", "moq", 250, 250, 250, 250, 1, 1⟩

theorem viewer_sample_confined :
    viewerEntry.maxMs ≤ MAX_ACCEPTED_LATENCY_MS ∧ byteLength viewerEntry.broadcast ≤ MAX_BROADCAST_LEN ∧
      ∀ latency ∈ Table.valuesOf ([viewerSample].flatMap TrackerOp.recorded) viewerEntry.key,
        ∃ auth authorization sample, .post auth authorization sample ∈ [viewerSample] ∧
          Sent viewerEntry.key latency auth authorization sample :=
  client_samples_confined [viewerSample] viewerEntry (by decide) fun latency member =>
    TrackerOp.noConfusion (List.mem_singleton.mp member)

end Lvqr.Slo
