/-
# The telemetry snapshot

`TelemetrySnapshot` (runtime_control.h) is published through a sequence lock.  Its writer is
one thread: the snap of the backend (physical_link.h) and the broker's producer that calls it
(broker.cpp) each read the snapshot back, assign their own fields, and publish the result.
The telemetry thread and the tests read it.
-/
import GpuChannel.Library.SeqLock
import GpuChannel.SharedControl
import GpuChannel.TimingMetrics

/-! ## The record -/

/-- The fields of `TelemetrySnapshot` that the snap assigns. -/
structure ControlTelemetry (K : Type) where
  slot : ℕ
  liveSeqno : ℕ
  live : MutableParams K
  profileActive : Bool
  matrixProfileActive : Bool
  nt : ℕ
  nr : ℕ
  warmupUntilSlot : ℕ
  warmupEventSeq : ℕ
  warmupProfileSeqno : ℕ
  warmupBeginSlot : ℕ
  warmupEndSlot : ℕ
  warmupBeginUnixNs : ℕ
  warmupEndUnixNs : ℕ

/-- The fields of `TelemetrySnapshot` that the broker assigns. -/
structure ServeTelemetry (K : Type) where
  processedSamples : ℕ
  sampleRateHz : ℕ
  slotDeadlineUs : K
  channelProcessUs : K
  slotProcessCount : ℕ
  slotDeadlineMissCount : ℕ
  slotProcessMaxUs : K
  slotProcessP95Us : K
  slotProcessP99Us : K
  nominalSlotSamples : ℕ
  nominalPendingSamples : ℕ
  nominalPendingEstimatedUs : K
  nominalLatestEstimatedUs : K
  nominalSlotCount : ℕ
  nominalDeadlineMissCount : ℕ
  nominalProcessMaxUs : K
  nominalProcessP95Us : K
  nominalProcessP99Us : K
  fragmentCallCount : ℕ
  fragmentSampleCount : ℕ
  fragmentMinSamples : ℕ
  fragmentMaxSamples : ℕ
  fragmentedNominalSlotCount : ℕ

/-- **`TelemetrySnapshot`.** -/
structure TelemetrySnapshot (K : Type) extends ControlTelemetry K, ServeTelemetry K

/-- The words of a snapshot, in the order of the struct. -/
inductive TelemetryCell
  | slot
  | liveSeqno
  | live (field : ParamField)
  | profileActive
  | matrixProfileActive
  | nt
  | nr
  | warmupUntilSlot
  | warmupEventSeq
  | warmupProfileSeqno
  | warmupBeginSlot
  | warmupEndSlot
  | warmupBeginUnixNs
  | warmupEndUnixNs
  | processedSamples
  | sampleRateHz
  | slotDeadlineUs
  | channelProcessUs
  | slotProcessCount
  | slotDeadlineMissCount
  | slotProcessMaxUs
  | slotProcessP95Us
  | slotProcessP99Us
  | nominalSlotSamples
  | nominalPendingSamples
  | nominalPendingEstimatedUs
  | nominalLatestEstimatedUs
  | nominalSlotCount
  | nominalDeadlineMissCount
  | nominalProcessMaxUs
  | nominalProcessP95Us
  | nominalProcessP99Us
  | fragmentCallCount
  | fragmentSampleCount
  | fragmentMinSamples
  | fragmentMaxSamples
  | fragmentedNominalSlotCount

namespace TelemetrySnapshot

variable {K : Type}

def copyCell (src dst : TelemetrySnapshot K) : TelemetryCell → TelemetrySnapshot K
  | .slot => { dst with slot := src.slot }
  | .liveSeqno => { dst with liveSeqno := src.liveSeqno }
  | .live field => { dst with live := dst.live.set field (src.live.get field) }
  | .profileActive => { dst with profileActive := src.profileActive }
  | .matrixProfileActive => { dst with matrixProfileActive := src.matrixProfileActive }
  | .nt => { dst with nt := src.nt }
  | .nr => { dst with nr := src.nr }
  | .warmupUntilSlot => { dst with warmupUntilSlot := src.warmupUntilSlot }
  | .warmupEventSeq => { dst with warmupEventSeq := src.warmupEventSeq }
  | .warmupProfileSeqno => { dst with warmupProfileSeqno := src.warmupProfileSeqno }
  | .warmupBeginSlot => { dst with warmupBeginSlot := src.warmupBeginSlot }
  | .warmupEndSlot => { dst with warmupEndSlot := src.warmupEndSlot }
  | .warmupBeginUnixNs => { dst with warmupBeginUnixNs := src.warmupBeginUnixNs }
  | .warmupEndUnixNs => { dst with warmupEndUnixNs := src.warmupEndUnixNs }
  | .processedSamples => { dst with processedSamples := src.processedSamples }
  | .sampleRateHz => { dst with sampleRateHz := src.sampleRateHz }
  | .slotDeadlineUs => { dst with slotDeadlineUs := src.slotDeadlineUs }
  | .channelProcessUs => { dst with channelProcessUs := src.channelProcessUs }
  | .slotProcessCount => { dst with slotProcessCount := src.slotProcessCount }
  | .slotDeadlineMissCount => { dst with slotDeadlineMissCount := src.slotDeadlineMissCount }
  | .slotProcessMaxUs => { dst with slotProcessMaxUs := src.slotProcessMaxUs }
  | .slotProcessP95Us => { dst with slotProcessP95Us := src.slotProcessP95Us }
  | .slotProcessP99Us => { dst with slotProcessP99Us := src.slotProcessP99Us }
  | .nominalSlotSamples => { dst with nominalSlotSamples := src.nominalSlotSamples }
  | .nominalPendingSamples => { dst with nominalPendingSamples := src.nominalPendingSamples }
  | .nominalPendingEstimatedUs =>
      { dst with nominalPendingEstimatedUs := src.nominalPendingEstimatedUs }
  | .nominalLatestEstimatedUs =>
      { dst with nominalLatestEstimatedUs := src.nominalLatestEstimatedUs }
  | .nominalSlotCount => { dst with nominalSlotCount := src.nominalSlotCount }
  | .nominalDeadlineMissCount =>
      { dst with nominalDeadlineMissCount := src.nominalDeadlineMissCount }
  | .nominalProcessMaxUs => { dst with nominalProcessMaxUs := src.nominalProcessMaxUs }
  | .nominalProcessP95Us => { dst with nominalProcessP95Us := src.nominalProcessP95Us }
  | .nominalProcessP99Us => { dst with nominalProcessP99Us := src.nominalProcessP99Us }
  | .fragmentCallCount => { dst with fragmentCallCount := src.fragmentCallCount }
  | .fragmentSampleCount => { dst with fragmentSampleCount := src.fragmentSampleCount }
  | .fragmentMinSamples => { dst with fragmentMinSamples := src.fragmentMinSamples }
  | .fragmentMaxSamples => { dst with fragmentMaxSamples := src.fragmentMaxSamples }
  | .fragmentedNominalSlotCount =>
      { dst with fragmentedNominalSlotCount := src.fragmentedNominalSlotCount }

instance : Cells (TelemetrySnapshot K) TelemetryCell where
  copy c src dst := src.copyCell dst c
  cells := [.slot, .liveSeqno] ++ (Cells.cells (MutableParams K)).map .live ++
    [.profileActive, .matrixProfileActive, .nt, .nr, .warmupUntilSlot, .warmupEventSeq,
      .warmupProfileSeqno, .warmupBeginSlot, .warmupEndSlot, .warmupBeginUnixNs,
      .warmupEndUnixNs, .processedSamples, .sampleRateHz, .slotDeadlineUs, .channelProcessUs,
      .slotProcessCount, .slotDeadlineMissCount, .slotProcessMaxUs, .slotProcessP95Us,
      .slotProcessP99Us, .nominalSlotSamples, .nominalPendingSamples,
      .nominalPendingEstimatedUs, .nominalLatestEstimatedUs, .nominalSlotCount,
      .nominalDeadlineMissCount, .nominalProcessMaxUs, .nominalProcessP95Us,
      .nominalProcessP99Us, .fragmentCallCount, .fragmentSampleCount, .fragmentMinSamples,
      .fragmentMaxSamples, .fragmentedNominalSlotCount]
  copy_cells := by
    rintro ⟨⟨_, _, ⟨_, _, _, _, _, _, _⟩, _, _, _, _, _, _, _, _, _, _, _⟩, _⟩
      ⟨⟨_, _, ⟨_, _, _, _, _, _, _⟩, _, _, _, _, _, _, _, _, _, _, _⟩, _⟩
    simp only [Cells.cells, List.map_cons, List.map_nil, List.cons_append, List.nil_append,
      List.foldl_cons, List.foldl_nil, copyCell, MutableParams.set, MutableParams.get]

/-- The member initialisers of the struct. -/
def default [Field K] : TelemetrySnapshot K where
  slot := 0
  liveSeqno := 0
  live := MutableParams.default
  profileActive := false
  matrixProfileActive := false
  nt := 1
  nr := 1
  warmupUntilSlot := 0
  warmupEventSeq := 0
  warmupProfileSeqno := 0
  warmupBeginSlot := 0
  warmupEndSlot := 0
  warmupBeginUnixNs := 0
  warmupEndUnixNs := 0
  processedSamples := 0
  sampleRateHz := 0
  slotDeadlineUs := 0
  channelProcessUs := 0
  slotProcessCount := 0
  slotDeadlineMissCount := 0
  slotProcessMaxUs := 0
  slotProcessP95Us := 0
  slotProcessP99Us := 0
  nominalSlotSamples := 0
  nominalPendingSamples := 0
  nominalPendingEstimatedUs := 0
  nominalLatestEstimatedUs := 0
  nominalSlotCount := 0
  nominalDeadlineMissCount := 0
  nominalProcessMaxUs := 0
  nominalProcessP95Us := 0
  nominalProcessP99Us := 0
  fragmentCallCount := 0
  fragmentSampleCount := 0
  fragmentMinSamples := 0
  fragmentMaxSamples := 0
  fragmentedNominalSlotCount := 0

end TelemetrySnapshot

/-! ## The two writers -/

namespace ReceiverTimingAccumulator

/-- `fragment_min`. -/
def fragmentMin {K : Type} (s : ReceiverTimingAccumulator K) : ℕ :=
  if s.fragmentCalls = 0 then 0 else s.fragmentMinSamples

end ReceiverTimingAccumulator

/-- What one writer does to the snapshot that it has read back. -/
inductive TelemetryUpdate (K : Type)
  | snap (link : PhysicalLinkRuntime K) (snapIdx warmupBeginUnixNs warmupEndUnixNs : ℕ)
  | serve (count rate : ℕ) (processUs : K) (stats : ReceiverTimingAccumulator K)

namespace TelemetryUpdate

variable {K : Type} [Field K]

/-- The end of `snap_physical_link`: the assignments to `ts`, with the link as it stands then. -/
def snapTelemetry (link : PhysicalLinkRuntime K) (snapIdx warmupBeginUnixNs warmupEndUnixNs : ℕ)
    (ts : ControlTelemetry K) : ControlTelemetry K :=
  let ts := { ts with
    slot := snapIdx, liveSeqno := link.liveSeqno, live := link.live
    profileActive := link.liveProfileActive || link.liveMatrixProfileActive
    matrixProfileActive := link.liveMatrixProfileActive
    nt := link.control.ntHint, nr := link.control.nrHint
    warmupUntilSlot := link.warmupUntilSlot }
  let ts :=
    if warmupBeginUnixNs ≠ 0 then
      { ts with
        warmupEventSeq := ts.warmupEventSeq + 1, warmupProfileSeqno := link.liveSeqno
        warmupBeginSlot := snapIdx, warmupEndSlot := 0
        warmupBeginUnixNs := warmupBeginUnixNs, warmupEndUnixNs := 0 }
    else ts
  if warmupEndUnixNs ≠ 0 then
    { ts with warmupEndSlot := snapIdx, warmupEndUnixNs := warmupEndUnixNs }
  else ts

/-- The telemetry of `run_producer`: the timing of the call that has just completed. -/
def serveTelemetry (count rate : ℕ) (processUs : K) (stats : ReceiverTimingAccumulator K) :
    ServeTelemetry K where
  processedSamples := count
  sampleRateHz := rate
  slotDeadlineUs := count * 1000000 / rate
  channelProcessUs := processUs
  slotProcessCount := stats.calls.count
  slotDeadlineMissCount := stats.calls.deadlineMisses
  slotProcessMaxUs := stats.calls.maxUs
  slotProcessP95Us := stats.calls.p95Us
  slotProcessP99Us := stats.calls.p99Us
  nominalSlotSamples := stats.nominalSamples
  nominalPendingSamples := stats.pendingSamples
  nominalPendingEstimatedUs := stats.pendingEstimatedUs
  nominalLatestEstimatedUs := stats.latestNominalEstimatedUs
  nominalSlotCount := stats.nominalSlots.count
  nominalDeadlineMissCount := stats.nominalSlots.deadlineMisses
  nominalProcessMaxUs := stats.nominalSlots.maxUs
  nominalProcessP95Us := stats.nominalSlots.p95Us
  nominalProcessP99Us := stats.nominalSlots.p99Us
  fragmentCallCount := stats.fragmentCalls
  fragmentSampleCount := stats.fragmentSamples
  fragmentMinSamples := stats.fragmentMin
  fragmentMaxSamples := stats.fragmentMaxSamples
  fragmentedNominalSlotCount := stats.fragmentedNominalSlots

def apply (ts : TelemetrySnapshot K) : TelemetryUpdate K → TelemetrySnapshot K
  | .snap link snapIdx begun ended =>
      { ts with toControlTelemetry := snapTelemetry link snapIdx begun ended ts.toControlTelemetry }
  | .serve count rate processUs stats =>
      { ts with toServeTelemetry := serveTelemetry count rate processUs stats }

end TelemetryUpdate

/-! ## The lock -/

namespace Telemetry

open SeqLock

variable {K : Type} [Field K] {R : Type*} [DecidableEq R]

/-- `telemetry`, `publish_telemetry_snapshot` and `read_telemetry_snapshot`: the block and every
copy start as `TelemetrySnapshot{}`, and `max_retries` is 8 in both writers. -/
def lock (K : Type) [Field K] : Protocol (TelemetrySnapshot K) (TelemetryUpdate K) where
  apply u ts := u.apply ts
  initial := TelemetrySnapshot.default
  tries := 8
  tries_pos := by decide

/-- One access of the writer's thread or of a reader, or the entry into a call. -/
abbrev Access (K : Type) (R : Type*) := Action (TelemetrySnapshot K) (TelemetryUpdate K) R

/-- The block and its threads after some accesses. -/
def run (actions : List (Access K R)) :
    System (TelemetrySnapshot K) TelemetryCell (TelemetryUpdate K) R :=
  (lock K).run actions

/-- The job is a snap's. -/
def IsSnap (job : Job (TelemetrySnapshot K) (TelemetryUpdate K)) : Prop :=
  ∃ link snapIdx begun ended, job = .modify (.snap link snapIdx begun ended)

/-- The job is the broker's. -/
def IsServe (job : Job (TelemetrySnapshot K) (TelemetryUpdate K)) : Prop :=
  ∃ count rate processUs stats, job = .modify (.serve count rate processUs stats)

/-- The broker's fields pass through the publications of snaps. -/
theorem serve_kept (actions : List (Access K R)) {j k : ℕ} (hjk : j ≤ k)
    (hk : k ≤ (run actions).jobs.length)
    (hsnaps : ∀ i job, j ≤ i → i < k → (run actions).jobs[i]? = some job → IsSnap job) :
    ∃ a b, (run actions).history[j]? = some a ∧ (run actions).history[k]? = some b ∧
      b.toServeTelemetry = a.toServeTelemetry := by
  apply (Inv.run (lock K) actions).part_kept (fun ts => ts.toServeTelemetry) hjk hk
  intro i job hi hik hjob prev
  obtain ⟨link, snapIdx, begun, ended, rfl⟩ := hsnaps i job hi hik hjob
  rfl

/-- The snap's fields pass through the publications of the broker. -/
theorem control_kept (actions : List (Access K R)) {j k : ℕ} (hjk : j ≤ k)
    (hk : k ≤ (run actions).jobs.length)
    (hserves : ∀ i job, j ≤ i → i < k → (run actions).jobs[i]? = some job → IsServe job) :
    ∃ a b, (run actions).history[j]? = some a ∧ (run actions).history[k]? = some b ∧
      b.toControlTelemetry = a.toControlTelemetry := by
  apply (Inv.run (lock K) actions).part_kept (fun ts => ts.toControlTelemetry) hjk hk
  intro i job hi hik hjob prev
  obtain ⟨count, rate, processUs, stats, rfl⟩ := hserves i job hi hik hjob
  rfl

/-- **The writers lose nothing of each other.** What the broker published stands in every later
publication up to the broker's next, and what a snap published stands in every later one up to
the next snap; the next snap builds on it. -/
theorem writers_keep (actions : List (Access K R)) :
    (∀ j k count rate processUs stats,
      (run actions).jobs[j]? = some (.modify (.serve count rate processUs stats)) → j < k →
      k ≤ (run actions).jobs.length →
      (∀ i job, j < i → i < k → (run actions).jobs[i]? = some job → IsSnap job) →
      ∃ ts, (run actions).history[k]? = some ts ∧
        ts.toServeTelemetry = TelemetryUpdate.serveTelemetry count rate processUs stats) ∧
    ∀ j k link snapIdx begun ended,
      (run actions).jobs[j]? = some (.modify (.snap link snapIdx begun ended)) → j < k →
      k ≤ (run actions).jobs.length →
      (∀ i job, j < i → i < k → (run actions).jobs[i]? = some job → IsServe job) →
      ∃ prev ts, (run actions).history[j]? = some prev ∧ (run actions).history[k]? = some ts ∧
        ts.toControlTelemetry
          = TelemetryUpdate.snapTelemetry link snapIdx begun ended prev.toControlTelemetry := by
  have hinv := Inv.run (ι := TelemetryCell) (lock K) actions
  constructor
  · intro j k count rate processUs stats hjob hjk hk hsnaps
    obtain ⟨prev, -, hresult⟩ := hinv.chain j _ hjob
    obtain ⟨a, b, ha, hb, hpart⟩ := serve_kept actions hjk hk fun i job hi => hsnaps i job hi
    obtain rfl : _ = a := Option.some.inj (hresult.symm.trans ha)
    exact ⟨b, hb, hpart⟩
  · intro j k link snapIdx begun ended hjob hjk hk hserves
    obtain ⟨prev, hprev, hresult⟩ := hinv.chain j _ hjob
    obtain ⟨a, b, ha, hb, hpart⟩ := control_kept actions hjk hk fun i job hi => hserves i job hi
    obtain rfl : _ = a := Option.some.inj (hresult.symm.trans ha)
    exact ⟨prev, b, hprev, hb, hpart⟩

/-- **Telemetry reads are whole.** In every interleaving of the writer's thread with any
readers: what a call accepts is one of the publications completed so far, the initial record
counted first, and none before the last one completed when the call began; every publication
is the record passed to `publish_telemetry_snapshot`, or the change of the one before it; and
neither writer loses a field of the other. -/
theorem telemetry_whole (actions : List (Access K R)) :
    (∀ before r tries after checked old copy, actions = before ++ .call r tries :: after →
      (run before).readers r = .returned checked old → (∀ tries, Action.call r tries ∉ after) →
      (run actions).readers r = .returned true copy →
      ∃ i, (run before).jobs.length ≤ i ∧ (run actions).history[i]? = some copy) ∧
    (run actions).history[0]? = some TelemetrySnapshot.default ∧
    (run actions).history.length = (run actions).jobs.length + 1 ∧
    (∀ k job, (run actions).jobs[k]? = some job → ∃ prev,
      (run actions).history[k]? = some prev ∧
      (run actions).history[k + 1]? = some ((lock K).result prev job)) ∧
    (∀ j k count rate processUs stats,
      (run actions).jobs[j]? = some (.modify (.serve count rate processUs stats)) → j < k →
      k ≤ (run actions).jobs.length →
      (∀ i job, j < i → i < k → (run actions).jobs[i]? = some job → IsSnap job) →
      ∃ ts, (run actions).history[k]? = some ts ∧
        ts.toServeTelemetry = TelemetryUpdate.serveTelemetry count rate processUs stats) ∧
    ∀ j k link snapIdx begun ended,
      (run actions).jobs[j]? = some (.modify (.snap link snapIdx begun ended)) → j < k →
      k ≤ (run actions).jobs.length →
      (∀ i job, j < i → i < k → (run actions).jobs[i]? = some job → IsServe job) →
      ∃ prev ts, (run actions).history[j]? = some prev ∧ (run actions).history[k]? = some ts ∧
        ts.toControlTelemetry
          = TelemetryUpdate.snapTelemetry link snapIdx begun ended prev.toControlTelemetry := by
  have hinv := Inv.run (ι := TelemetryCell) (lock K) actions
  refine ⟨?_, hinv.first, hinv.length, hinv.chain, writers_keep actions⟩
  rintro before r tries after checked old copy rfl hidle hafter hreturn
  exact read_whole (lock K) before after r tries hidle hafter hreturn

end Telemetry
