/-
# Receiver timing

timing_metrics.h: `TimingDistribution` counts what it observes by microsecond buckets, and
`ReceiverTimingAccumulator` cuts the calls of a receiver into nominal slots of a fixed number of
samples.  The wall time of a call that crosses a slot boundary is split by samples.

Spread the time of every call evenly over its samples.  Then the estimate of a slot is the sum over
its window of samples, and nothing is lost between the windows.
-/
import Mathlib
import GpuChannel.Library.Numerals

/-! ## Distributions -/

/-- `kOverflowBucket`. -/
def kOverflowBucket : ℕ := 20000

/-- **`TimingDistribution`.** `observed` only records what was observed. -/
structure TimingDistribution (K : Type) where
  histogram : List ℕ
  count : ℕ
  deadlineMisses : ℕ
  maxUs : K
  p95Us : K
  p99Us : K
  observed : List K

/-- One call of `observe`: the samples of a call and its wall time. -/
structure TimedCall (K : Type) where
  samples : ℕ
  elapsedUs : K

section Timing

variable {K : Type} [Field K] [LinearOrder K] [FloorRing K]

namespace TimingDistribution

def empty : TimingDistribution K :=
  { histogram := List.replicate (kOverflowBucket + 1) 0, count := 0, deadlineMisses := 0
    maxUs := 0, p95Us := 0, p99Us := 0, observed := [] }

/-- The loop of `percentile`: the first bucket at which `target` observations are reached. -/
def percentileFrom (maxUs : K) (target : ℕ) : ℕ → ℕ → List ℕ → K
  | _, _, [] => maxUs
  | bucket, cumulative, n :: histogram =>
      if target ≤ cumulative + n then if bucket = kOverflowBucket then maxUs else (bucket + 1 : ℕ)
      else percentileFrom maxUs target (bucket + 1) (cumulative + n) histogram

/-- `percentile`. -/
def percentile (d : TimingDistribution K) (quantile : K) : K :=
  if d.count = 0 then 0
  else percentileFrom d.maxUs ⌈quantile * d.count⌉.toNat 0 0 d.histogram

/-- The bucket of an observation. -/
def bucketOf (elapsedUs : K) : ℕ :=
  if (kOverflowBucket : K) ≤ elapsedUs then kOverflowBucket else (max 0 ⌊elapsedUs⌋).toNat

/-- **`TimingDistribution::observe`.** -/
def observe (d : TimingDistribution K) (elapsedUs deadlineUs : K) : TimingDistribution K :=
  let d :=
    { d with
      count := d.count + 1
      deadlineMisses :=
        if 0 < deadlineUs ∧ deadlineUs < elapsedUs then d.deadlineMisses + 1 else d.deadlineMisses
      maxUs := max d.maxUs elapsedUs
      histogram := d.histogram.modify (bucketOf elapsedUs) (· + 1)
      observed := d.observed ++ [elapsedUs] }
  if d.count = 1 ∨ d.count % 50 = 0 then
    { d with p95Us := d.percentile (95 / 100), p99Us := d.percentile (99 / 100) }
  else d

/-- Every observation is counted. -/
@[simp] theorem observe_count (d : TimingDistribution K) (elapsedUs deadlineUs : K) :
    (d.observe elapsedUs deadlineUs).count = d.count + 1 := by
  unfold observe
  dsimp only
  split_ifs <;> rfl

/-- Every observation is recorded. -/
@[simp] theorem observe_observed (d : TimingDistribution K) (elapsedUs deadlineUs : K) :
    (d.observe elapsedUs deadlineUs).observed = d.observed ++ [elapsedUs] := by
  unfold observe
  dsimp only
  split_ifs <;> rfl

/-- An observation raises its own bucket. -/
@[simp] theorem observe_histogram (d : TimingDistribution K) (elapsedUs deadlineUs : K) :
    (d.observe elapsedUs deadlineUs).histogram = d.histogram.modify (bucketOf elapsedUs) (· + 1) := by
  unfold observe
  dsimp only
  split_ifs <;> rfl

/-- **The histogram is that of the observations.** -/
structure Tallied (d : TimingDistribution K) : Prop where
  count : d.count = d.observed.length
  buckets : d.histogram.length = kOverflowBucket + 1
  total : d.histogram.sum = d.count

/-- Raising one bucket raises the total by one. -/
theorem sum_modify (l : List ℕ) {i : ℕ} (hi : i < l.length) :
    (l.modify i (· + 1)).sum = l.sum + 1 := by
  induction l generalizing i with
  | nil => exact absurd hi (Nat.not_lt_zero i)
  | cons n l ih =>
      cases i with
      | zero =>
          rw [List.modify_zero_cons, List.sum_cons, List.sum_cons]
          omega
      | succ i =>
          rw [List.modify_succ_cons, List.sum_cons, List.sum_cons, ih (Nat.lt_of_succ_lt_succ hi)]
          omega

omit [LinearOrder K] [FloorRing K] in
/-- A distribution without observations is tallied. -/
theorem tallied_empty : (empty : TimingDistribution K).Tallied where
  count := rfl
  buckets := List.length_replicate
  total := by
    show (List.replicate (kOverflowBucket + 1) 0).sum = 0
    rw [List.sum_replicate, smul_zero]

/-- Every observation has a bucket. -/
theorem bucketOf_lt (elapsedUs : K) : bucketOf elapsedUs < kOverflowBucket + 1 := by
  unfold bucketOf
  split_ifs with h
  · exact Nat.lt_succ_self _
  · have hfloor : ⌊elapsedUs⌋ < (kOverflowBucket : ℤ) := by
      rw [Int.floor_lt]
      exact_mod_cast not_le.mp h
    omega

/-- An observation keeps the distribution tallied. -/
theorem Tallied.observe {d : TimingDistribution K} (h : d.Tallied) (elapsedUs deadlineUs : K) :
    (d.observe elapsedUs deadlineUs).Tallied where
  count := by
    rw [observe_count, observe_observed, h.count, List.length_append]
    rfl
  buckets := by
    rw [observe_histogram, List.length_modify, h.buckets]
  total := by
    rw [observe_histogram, observe_count, sum_modify _ (h.buckets ▸ bucketOf_lt elapsedUs), h.total]

end TimingDistribution

/-! ## The accumulator -/

/-- **`ReceiverTimingAccumulator`.** A slot that is complete is never pending. -/
structure ReceiverTimingAccumulator (K : Type) where
  nominalSamples : ℕ
  sampleRateHz : ℕ
  calls : TimingDistribution K
  nominalSlots : TimingDistribution K
  pendingSamples : ℕ
  pendingEstimatedUs : K
  latestNominalEstimatedUs : K
  fragmentCalls : ℕ
  fragmentSamples : ℕ
  fragmentMinSamples : ℕ
  fragmentMaxSamples : ℕ
  fragmentedNominalSlots : ℕ
  pendingFragmented : Bool
  pending_lt : pendingSamples < nominalSamples

namespace ReceiverTimingAccumulator

/-- The constructor. -/
def make (nominalSamples sampleRateHz : ℕ) : ReceiverTimingAccumulator K :=
  { nominalSamples := max 1 nominalSamples, sampleRateHz := max 1 sampleRateHz
    calls := TimingDistribution.empty, nominalSlots := TimingDistribution.empty
    pendingSamples := 0, pendingEstimatedUs := 0, latestNominalEstimatedUs := 0
    fragmentCalls := 0, fragmentSamples := 0, fragmentMinSamples := 2 ^ 64 - 1
    fragmentMaxSamples := 0, fragmentedNominalSlots := 0, pendingFragmented := false
    pending_lt := Nat.lt_of_lt_of_le Nat.one_pos (le_max_left _ _) }

/-- The length of that many samples. -/
def deadlineUs (s : ReceiverTimingAccumulator K) (samples : ℕ) : K :=
  samples * 1000000 / s.sampleRateHz

/-- What the loop takes of the call: up to the end of the slot. -/
def take (s : ReceiverTimingAccumulator K) (remaining : ℕ) : ℕ :=
  min remaining (s.nominalSamples - s.pendingSamples)

/-- The time of the next piece: the last one takes what is left. -/
def pieceUs (s : ReceiverTimingAccumulator K) (call : TimedCall K) (remaining : ℕ)
    (attributedUs : K) : K :=
  if s.take remaining = remaining then call.elapsedUs - attributedUs
  else call.elapsedUs * s.take remaining / call.samples

/-- The loop body behind the choice of the piece. -/
def addPiece (s : ReceiverTimingAccumulator K) (aligned : Bool) (remaining : ℕ)
    (pieceUs : K) : ReceiverTimingAccumulator K :=
  if h : s.pendingSamples + s.take remaining = s.nominalSamples then
    { s with
      nominalSlots :=
        s.nominalSlots.observe (s.pendingEstimatedUs + pieceUs) (s.deadlineUs s.nominalSamples)
      latestNominalEstimatedUs := s.pendingEstimatedUs + pieceUs
      fragmentedNominalSlots :=
        if s.pendingFragmented || !aligned then s.fragmentedNominalSlots + 1
        else s.fragmentedNominalSlots
      pendingSamples := 0
      pendingEstimatedUs := 0
      pendingFragmented := false
      pending_lt := Nat.zero_lt_of_lt s.pending_lt }
  else
    { s with
      pendingSamples := s.pendingSamples + s.take remaining
      pendingEstimatedUs := s.pendingEstimatedUs + pieceUs
      pendingFragmented := s.pendingFragmented || !aligned
      pending_lt := by
        have := s.pending_lt
        unfold take at h ⊢
        omega }

omit [Field K] [LinearOrder K] [FloorRing K] in
/-- A call that is not exhausted gives samples to the slot. -/
theorem take_pos (s : ReceiverTimingAccumulator K) {remaining : ℕ} (h : remaining ≠ 0) :
    0 < s.take remaining := by
  have := s.pending_lt
  unfold take
  omega

/-- The loop of `observe`.  Every round takes at least one sample. -/
def apportion (call : TimedCall K) (aligned : Bool) (s : ReceiverTimingAccumulator K)
    (remaining : ℕ) (attributedUs : K) : ReceiverTimingAccumulator K :=
  if _h : remaining = 0 then s
  else
    let piece := s.pieceUs call remaining attributedUs
    apportion call aligned (s.addPiece aligned remaining piece) (remaining - s.take remaining)
      (attributedUs + piece)
termination_by remaining
decreasing_by
  have := s.take_pos _h
  omega

/-- What `observe` counts of a call before the loop. -/
def enterCall (s : ReceiverTimingAccumulator K) (call : TimedCall K) :
    ReceiverTimingAccumulator K :=
  let s := { s with calls := s.calls.observe call.elapsedUs (s.deadlineUs call.samples) }
  if call.samples ≠ s.nominalSamples then
    { s with
      fragmentCalls := s.fragmentCalls + 1
      fragmentSamples := s.fragmentSamples + call.samples
      fragmentMinSamples := min s.fragmentMinSamples call.samples
      fragmentMaxSamples := max s.fragmentMaxSamples call.samples }
  else s

/-- **`ReceiverTimingAccumulator::observe`.** -/
def observe (s : ReceiverTimingAccumulator K) (call : TimedCall K) : ReceiverTimingAccumulator K :=
  if call.samples = 0 then s
  else
    let aligned := s.pendingSamples = 0 ∧ call.samples = s.nominalSamples
    apportion call aligned (s.enterCall call) call.samples 0

/-! ## The time line of the samples -/

/-- The samples of the calls. -/
def totalSamples (calls : List (TimedCall K)) : ℕ := (calls.map (·.samples)).sum

/-- The time of the calls that carry samples. -/
def totalUs (calls : List (TimedCall K)) : K :=
  ((calls.filter (·.samples ≠ 0)).map (·.elapsedUs)).sum

/-- The samples that a call of `n` samples behind `start` has in the window. -/
def overlap (start n lo hi : ℕ) : ℕ := min (start + n) hi - max start lo

/-- **The time of the window `[lo, hi)`**: of every call in proportion to its overlap. -/
def windowUs (lo hi : ℕ) : ℕ → List (TimedCall K) → K
  | _, [] => 0
  | start, call :: calls =>
      call.elapsedUs * overlap start call.samples lo hi / call.samples
        + windowUs lo hi (start + call.samples) calls

/-- Slot `k` is one call of `n` samples. -/
def oneCall (n k : ℕ) : ℕ → List (TimedCall K) → Bool
  | _, [] => false
  | start, call :: calls =>
      decide (start = k * n ∧ call.samples = n) || oneCall n k (start + call.samples) calls

/-- The time of every call spread over its samples. -/
def costs (calls : List (TimedCall K)) : List K :=
  calls.flatMap fun call => List.replicate call.samples (call.elapsedUs / call.samples)

omit [LinearOrder K] [FloorRing K] in
/-- One more call adds its samples at their share of its time. -/
theorem costs_append (calls : List (TimedCall K)) (call : TimedCall K) :
    costs (calls ++ [call])
      = costs calls ++ List.replicate call.samples (call.elapsedUs / call.samples) := by
  unfold costs
  rw [List.flatMap_append, List.flatMap_cons, List.flatMap_nil, List.append_nil]

omit [LinearOrder K] [FloorRing K] in
/-- Every sample has a cost. -/
theorem length_costs (calls : List (TimedCall K)) : (costs calls).length = totalSamples calls := by
  unfold costs totalSamples
  rw [List.length_flatMap]
  congr 1
  apply List.map_congr_left
  intro call _
  exact List.length_replicate

omit [LinearOrder K] [FloorRing K] in
/-- The time of a window is the sum of its samples. -/
theorem windowUs_eq (lo hi : ℕ) (calls : List (TimedCall K)) : ∀ start,
    windowUs lo hi start calls
      = (((costs calls).drop (lo - start)).take (hi - max lo start)).sum := by
  induction calls with
  | nil =>
      intro start
      unfold windowUs costs
      simp
  | cons call calls ih =>
      intro start
      have hn : min (hi - max lo start) (call.samples - (lo - start))
          = overlap start call.samples lo hi := by
        unfold overlap
        omega
      have hdrop : lo - start - call.samples = lo - (start + call.samples) := by omega
      unfold windowUs
      rw [ih (start + call.samples)]
      show _ = (((List.replicate call.samples (call.elapsedUs / call.samples) ++ costs calls).drop
        (lo - start)).take (hi - max lo start)).sum
      rw [List.drop_append, List.take_append, List.sum_append, List.drop_replicate,
        List.take_replicate, List.sum_replicate, List.length_replicate, List.length_replicate, hn,
        hdrop, nsmul_eq_mul, mul_comm call.elapsedUs, mul_div_assoc]
      congr 3
      omega

omit [Field K] [LinearOrder K] [FloorRing K] in
/-- A slot of one call lies among the samples. -/
theorem le_of_oneCall {n k : ℕ} (calls : List (TimedCall K)) : ∀ start,
    oneCall n k start calls = true → (k + 1) * n ≤ start + totalSamples calls := by
  induction calls with
  | nil =>
      intro start h
      exact absurd h Bool.false_ne_true
  | cons call calls ih =>
      intro start h
      have hsum : totalSamples (call :: calls) = call.samples + totalSamples calls := rfl
      rw [oneCall, Bool.or_eq_true] at h
      rcases h with h | h
      · obtain ⟨hstart, hsamples⟩ := of_decide_eq_true h
        rw [Nat.succ_mul]
        omega
      · have := ih _ h
        omega

omit [Field K] [LinearOrder K] [FloorRing K] in
/-- One more call fills a slot alone if it starts on the slot and has its length. -/
theorem oneCall_append (n k : ℕ) (calls : List (TimedCall K)) (call : TimedCall K) : ∀ start,
    oneCall n k start (calls ++ [call])
      = (oneCall n k start calls
        || decide (start + totalSamples calls = k * n ∧ call.samples = n)) := by
  induction calls with
  | nil =>
      intro start
      rw [List.nil_append, oneCall, oneCall, oneCall, Bool.or_false, Bool.false_or]
      rfl
  | cons c calls ih =>
      intro start
      have hsum : totalSamples (c :: calls) = c.samples + totalSamples calls := rfl
      rw [List.cons_append, oneCall, oneCall, ih, Bool.or_assoc, hsum, Nat.add_assoc]

/-- The costs of the samples add up to the time of the calls. -/
theorem sum_costs (calls : List (TimedCall K)) : (costs calls).sum = totalUs calls := by
  induction calls with
  | nil => rfl
  | cons call calls ih =>
      show (List.replicate call.samples (call.elapsedUs / call.samples) ++ costs calls).sum = _
      rw [List.sum_append, List.sum_replicate, ih, nsmul_eq_mul]
      unfold totalUs
      by_cases hzero : call.samples = 0
      · rw [hzero, Nat.cast_zero, zero_mul, zero_add, List.filter_cons_of_neg]
        simpa using hzero
      · have hne : (call.samples : K) ≠ 0 := Nat.cast_ne_zero.mpr hzero
        rw [mul_div_cancel₀ _ hne, List.filter_cons_of_pos (by simpa using hzero), List.map_cons,
          List.sum_cons]

/-! ## The slots are cut from the time line -/

/-- **The slots so far.** `line` is the time line of the samples, and `alone k` says that slot `k`
was one call. -/
structure Cut (n : ℕ) (alone : ℕ → Bool) (line : List K) (s : ReceiverTimingAccumulator K) :
    Prop where
  nominal : s.nominalSamples = n
  length : line.length = s.nominalSlots.count * n + s.pendingSamples
  slots : s.nominalSlots.observed
    = (List.range s.nominalSlots.count).map fun k => ((line.drop (k * n)).take n).sum
  pending : s.pendingEstimatedUs = (line.drop (s.nominalSlots.count * n)).sum
  fragmented : s.fragmentedNominalSlots
    = ((List.range s.nominalSlots.count).filter fun k => !alone k).length
  flag : s.pendingFragmented = decide (0 < s.pendingSamples)
  tallied : s.nominalSlots.Tallied

variable {n : ℕ} {alone : ℕ → Bool} {line : List K} {s : ReceiverTimingAccumulator K}

/-- One piece of a call. -/
theorem Cut.addPiece (h : Cut n alone line s) {aligned : Bool} {remaining : ℕ} {unit : K}
    (hne : remaining ≠ 0)
    (halone : alone s.nominalSlots.count = (decide (s.pendingSamples = 0) && aligned))
    (hrest : aligned = true → s.pendingSamples = 0 → n ≤ remaining) :
    Cut n alone (line ++ List.replicate (s.take remaining) unit)
      (s.addPiece aligned remaining (s.take remaining * unit)) := by
  have hpos := s.take_pos hne
  have hlt := s.pending_lt
  have hn := h.nominal
  have hlen := h.length
  obtain ⟨m, hm⟩ : ∃ m, s.take remaining = m := ⟨_, rfl⟩
  rw [hm] at hpos ⊢
  have hdrop : (line ++ List.replicate m unit).drop (s.nominalSlots.count * n)
      = line.drop (s.nominalSlots.count * n) ++ List.replicate m unit := by
    rw [List.drop_append_of_le_length (by omega)]
  have hsum : ((line ++ List.replicate m unit).drop (s.nominalSlots.count * n)).sum
      = s.pendingEstimatedUs + m * unit := by
    rw [hdrop, List.sum_append, h.pending, List.sum_replicate, nsmul_eq_mul]
  -- the earlier slots do not reach the new samples
  have hearlier : ∀ k < s.nominalSlots.count,
      (((line ++ List.replicate m unit).drop (k * n)).take n).sum
        = ((line.drop (k * n)).take n).sum := by
    intro k hk
    have hend : k * n + n ≤ line.length := by
      have := Nat.mul_le_mul_right n (Nat.succ_le_of_lt hk)
      rw [Nat.succ_mul] at this
      omega
    rw [List.drop_append_of_le_length (by omega),
      List.take_append_of_le_length (by rw [List.length_drop]; omega)]
  unfold ReceiverTimingAccumulator.addPiece
  by_cases hfull : s.pendingSamples + s.take remaining = s.nominalSamples
  · rw [dif_pos hfull]
    rw [hm] at hfull
    have hwhole : (line.drop (s.nominalSlots.count * n) ++ List.replicate m unit).length = n := by
      rw [List.length_append, List.length_drop, List.length_replicate]
      omega
    constructor
    · exact hn
    · dsimp only
      rw [List.length_append, List.length_replicate, TimingDistribution.observe_count, Nat.succ_mul]
      omega
    · dsimp only
      rw [TimingDistribution.observe_observed, TimingDistribution.observe_count, List.range_succ,
        List.map_append, h.slots]
      congr 1
      · exact List.map_congr_left fun k hk => (hearlier k (List.mem_range.mp hk)).symm
      · rw [List.map_singleton, hdrop, List.take_of_length_le hwhole.le, ← hdrop, hsum]
    · dsimp only
      rw [TimingDistribution.observe_count, List.drop_eq_nil_of_le, List.sum_nil]
      rw [List.length_append, List.length_replicate, Nat.succ_mul]
      omega
    · dsimp only
      rw [TimingDistribution.observe_count, List.range_succ, List.filter_append,
        List.length_append, ← h.fragmented, List.filter_singleton, halone, h.flag]
      by_cases hp : s.pendingSamples = 0
      · cases aligned <;> simp [hp]
      · simp [hp, Nat.pos_of_ne_zero hp]
    · rfl
    · exact h.tallied.observe _ _
  · rw [dif_neg hfull]
    -- an aligned call would have filled the slot
    have hopen : (s.pendingFragmented || !aligned) = true := by
      rw [h.flag]
      cases haligned : aligned with
      | false => exact Bool.or_true _
      | true =>
          by_contra hno
          have hzero : s.pendingSamples = 0 := by simpa using hno
          have hreach := hrest haligned hzero
          unfold take at hfull
          omega
    constructor
    · exact hn
    · dsimp only
      rw [List.length_append, List.length_replicate, hm]
      omega
    · dsimp only
      rw [h.slots]
      exact List.map_congr_left fun k hk => (hearlier k (List.mem_range.mp hk)).symm
    · exact hsum.symm
    · exact h.fragmented
    · refine hopen.trans (decide_eq_true ?_).symm
      dsimp only
      omega
    · exact h.tallied

/-- A piece never takes a nominal slot away. -/
theorem count_le_addPiece (aligned : Bool) (remaining : ℕ) (piece : K) :
    s.nominalSlots.count ≤ (s.addPiece aligned remaining piece).nominalSlots.count := by
  unfold ReceiverTimingAccumulator.addPiece
  by_cases hfull : s.pendingSamples + s.take remaining = s.nominalSamples
  · rw [dif_pos hfull]
    dsimp only
    rw [TimingDistribution.observe_count]
    exact Nat.le_succ _
  · rw [dif_neg hfull]

/-- **The loop of a call** that starts at sample `start`.  Only an aligned call is a slot alone. -/
theorem Cut.apportion {call : TimedCall K} {aligned : Bool} (start : ℕ)
    (hcall : call.samples ≠ 0)
    (haligned : aligned = decide (n ∣ start ∧ call.samples = n)) {remaining : ℕ}
    (hle : remaining ≤ call.samples) {attributedUs : K} (h : Cut n alone line s)
    (hline : line.length = start + (call.samples - remaining))
    (hattributed : attributedUs = (call.samples - remaining : ℕ) * (call.elapsedUs / call.samples))
    (hwhole : aligned = true → remaining ≠ 0 → remaining = call.samples)
    (halone : ∀ k, s.nominalSlots.count ≤ k →
      alone k = decide (start = k * n ∧ call.samples = n)) :
    Cut n alone (line ++ List.replicate remaining (call.elapsedUs / call.samples))
      (apportion call aligned s remaining attributedUs) := by
  induction remaining using Nat.strongRecOn generalizing line s attributedUs with
  | ind remaining ih =>
    have hlt := s.pending_lt
    have hn := h.nominal
    have hlen := h.length
    have hcast : (call.samples : K) ≠ 0 := Nat.cast_ne_zero.mpr hcall
    unfold ReceiverTimingAccumulator.apportion
    by_cases hzero : remaining = 0
    · rw [dif_pos hzero, hzero, List.replicate_zero, List.append_nil]
      exact h
    · rw [dif_neg hzero]
      dsimp only
      have hpos := s.take_pos hzero
      have htake : s.take remaining ≤ remaining := Nat.min_le_left _ _
      -- both ways of timing a piece give it its share
      have hpiece : s.pieceUs call remaining attributedUs
          = s.take remaining * (call.elapsedUs / call.samples) := by
        unfold pieceUs
        split_ifs with hlast
        · rw [hattributed, hlast, Nat.cast_sub hle]
          field_simp
          ring
        · rw [mul_comm call.elapsedUs, mul_div_assoc]
      have hstart : aligned = true → line.length = start := by
        intro ha
        have := hwhole ha hzero
        omega
      have hslot : alone s.nominalSlots.count = (decide (s.pendingSamples = 0) && aligned) := by
        rw [halone _ (le_refl _), haligned, ← Bool.decide_and, decide_eq_decide]
        constructor
        · rintro ⟨hk, hsamples⟩
          have hdvd : n ∣ start := ⟨_, hk.trans (Nat.mul_comm _ _)⟩
          have hlength := hstart (haligned.trans (decide_eq_true ⟨hdvd, hsamples⟩))
          exact ⟨by omega, hdvd, hsamples⟩
        · rintro ⟨hp, hdvd, hsamples⟩
          have hlength := hstart (haligned.trans (decide_eq_true ⟨hdvd, hsamples⟩))
          exact ⟨by omega, hsamples⟩
      have hreach : aligned = true → s.pendingSamples = 0 → n ≤ remaining := by
        intro ha _
        rw [hwhole ha hzero, (of_decide_eq_true (haligned.symm.trans ha)).2]
      have hnext : Cut n alone
          (line ++ List.replicate (s.take remaining) (call.elapsedUs / call.samples))
          (s.addPiece aligned remaining (s.take remaining * (call.elapsedUs / call.samples))) :=
        h.addPiece hzero hslot hreach
      have hshare : attributedUs + s.take remaining * (call.elapsedUs / call.samples)
          = (call.samples - (remaining - s.take remaining) : ℕ)
            * (call.elapsedUs / call.samples) := by
        rw [hattributed, ← add_mul, ← Nat.cast_add]
        congr 2
        omega
      rw [hpiece]
      have hrest := ih (remaining - s.take remaining) (by omega) (by omega) hnext
        (by rw [List.length_append, List.length_replicate]; omega) hshare ?_ ?_
      · rw [List.append_assoc, ← List.replicate_add, Nat.add_sub_cancel' htake] at hrest
        exact hrest
      · intro ha hmore
        exfalso
        -- an aligned call is taken whole
        have hwhole' := hwhole ha hzero
        have hsamples := (of_decide_eq_true (haligned.symm.trans ha)).2
        have hlength := hstart ha
        obtain ⟨c, hc⟩ := (of_decide_eq_true (haligned.symm.trans ha)).1
        have hpending : s.pendingSamples = 0 := by
          have hmod : s.pendingSamples = start % n := by
            rw [← hlength, hlen, Nat.mul_comm, Nat.mul_add_mod, Nat.mod_eq_of_lt (by omega)]
          rw [hmod, hc, Nat.mul_mod_right]
        unfold take at hmore
        omega
      · intro k hk
        exact halone k (le_trans (count_le_addPiece _ _ _) hk)

/-- One call. -/
theorem Cut.observe {calls : List (TimedCall K)} (h : Cut n (oneCall n · 0 calls) (costs calls) s)
    (call : TimedCall K) :
    Cut n (oneCall n · 0 (calls ++ [call])) (costs (calls ++ [call])) (s.observe call) := by
  have hlen := h.length
  have hlt := s.pending_lt
  have hn := h.nominal
  rw [length_costs] at hlen
  have happend (k : ℕ) := oneCall_append n k calls call 0
  rw [Nat.zero_add] at happend
  -- no slot that is complete gains from the new call
  have hbefore : ∀ k < s.nominalSlots.count,
      oneCall n k 0 (calls ++ [call]) = oneCall n k 0 calls := by
    intro k hk
    have hmul := Nat.mul_le_mul_right n (Nat.succ_le_of_lt hk)
    rw [Nat.succ_mul] at hmul
    rw [happend, decide_eq_false (by omega), Bool.or_false]
  -- entering the call moves neither the slots nor what is pending
  have hentered : ∀ t : ReceiverTimingAccumulator K, t.nominalSamples = s.nominalSamples →
      t.nominalSlots = s.nominalSlots → t.pendingSamples = s.pendingSamples →
      t.pendingEstimatedUs = s.pendingEstimatedUs →
      t.fragmentedNominalSlots = s.fragmentedNominalSlots →
      t.pendingFragmented = s.pendingFragmented →
      Cut n (oneCall n · 0 (calls ++ [call])) (costs calls) t := by
    intro t h₁ h₂ h₃ h₄ h₅ h₆
    constructor
    · rw [h₁, hn]
    · rw [h₂, h₃, h.length]
    · rw [h₂, h.slots]
    · rw [h₄, h₂, h.pending]
    · rw [h₅, h₂, h.fragmented]
      congr 1
      apply List.filter_congr
      intro k hk
      rw [hbefore k (List.mem_range.mp hk)]
    · rw [h₆, h₃, h.flag]
    · rw [h₂]
      exact h.tallied
  unfold ReceiverTimingAccumulator.observe
  by_cases hzero : call.samples = 0
  · rw [if_pos hzero, costs_append, hzero, List.replicate_zero, List.append_nil]
    exact hentered s rfl rfl rfl rfl rfl rfl
  · rw [if_neg hzero, costs_append]
    have henter : Cut n (oneCall n · 0 (calls ++ [call])) (costs calls) (s.enterCall call) := by
      unfold enterCall
      dsimp only
      split_ifs
      · exact hentered _ rfl rfl rfl rfl rfl rfl
      · exact hentered _ rfl rfl rfl rfl rfl rfl
    have hcount : (s.enterCall call).nominalSlots = s.nominalSlots := by
      unfold enterCall
      dsimp only
      split_ifs <;> rfl
    refine henter.apportion (totalSamples calls) hzero ?_ (le_refl _) ?_ ?_ ?_ ?_
    -- the call starts on the slot exactly if nothing is pending
    · rw [decide_eq_decide, hn]
      refine and_congr_left fun _ => ?_
      rw [hlen, Nat.mul_comm, Nat.dvd_add_right ⟨_, rfl⟩]
      constructor
      · intro hp
        rw [hp]
        exact dvd_zero n
      · intro hdvd
        exact Nat.eq_zero_of_dvd_of_lt hdvd (by omega)
    · rw [Nat.sub_self, Nat.add_zero, length_costs]
    · rw [Nat.sub_self, Nat.cast_zero, zero_mul]
    · exact fun _ _ => rfl
    · intro k hk
      rw [hcount] at hk
      have hmul : (s.nominalSlots.count + 1) * n ≤ (k + 1) * n :=
        Nat.mul_le_mul_right n (Nat.succ_le_succ hk)
      rw [Nat.succ_mul] at hmul
      have hnot : oneCall n k 0 calls = false := by
        by_contra hyes
        have := le_of_oneCall calls 0 (Bool.eq_true_of_not_eq_false hyes)
        omega
      rw [happend, hnot, Bool.false_or]

omit [LinearOrder K] [FloorRing K] in
/-- A new accumulator is cut, with nothing observed. -/
theorem cut_make (nominalSamples sampleRateHz : ℕ) :
    Cut (max 1 nominalSamples) (oneCall (max 1 nominalSamples) · 0 ([] : List (TimedCall K)))
      (costs []) (make nominalSamples sampleRateHz : ReceiverTimingAccumulator K) where
  nominal := rfl
  length := by
    show 0 = 0 * _ + 0
    omega
  slots := rfl
  pending := by
    show 0 = (List.drop _ ([] : List K)).sum
    rw [List.drop_nil, List.sum_nil]
  fragmented := rfl
  flag := rfl
  tallied := TimingDistribution.tallied_empty

/-- **Every sequence of calls is cut** into nominal slots. -/
theorem cut_run (nominalSamples sampleRateHz : ℕ) (calls : List (TimedCall K)) :
    Cut (max 1 nominalSamples) (oneCall (max 1 nominalSamples) · 0 calls) (costs calls)
      (calls.foldl observe (make nominalSamples sampleRateHz)) := by
  induction calls using List.reverseRecOn with
  | nil => exact cut_make nominalSamples sampleRateHz
  | append_singleton calls call ih =>
      rw [List.foldl_append]
      exact ih.observe call

/-! ## The calls -/

/-- Apportioning a call leaves the distribution of calls alone. -/
theorem apportion_calls (call : TimedCall K) (aligned : Bool) (remaining : ℕ) :
    ∀ (s : ReceiverTimingAccumulator K) (attributedUs : K),
      (apportion call aligned s remaining attributedUs).calls = s.calls := by
  induction remaining using Nat.strongRecOn with
  | ind remaining ih =>
    intro s attributedUs
    unfold ReceiverTimingAccumulator.apportion
    split_ifs with hzero
    · rfl
    · have hpos := s.take_pos hzero
      dsimp only
      rw [ih _ (by omega)]
      unfold ReceiverTimingAccumulator.addPiece
      split_ifs <;> rfl

/-- Every call that carries samples is observed once. -/
theorem observe_calls (s : ReceiverTimingAccumulator K) (call : TimedCall K) :
    (s.observe call).calls =
      if call.samples = 0 then s.calls
      else s.calls.observe call.elapsedUs (s.deadlineUs call.samples) := by
  unfold ReceiverTimingAccumulator.observe
  split_ifs with hzero
  · rfl
  · dsimp only
    rw [apportion_calls]
    unfold enterCall
    dsimp only
    split_ifs <;> rfl

/-- The distribution of calls holds every call with samples. -/
theorem calls_run (nominalSamples sampleRateHz : ℕ) (calls : List (TimedCall K)) :
    (calls.foldl observe (make nominalSamples sampleRateHz)).calls.Tallied ∧
      (calls.foldl observe (make nominalSamples sampleRateHz)).calls.observed
        = (calls.filter (·.samples ≠ 0)).map (·.elapsedUs) := by
  induction calls using List.reverseRecOn with
  | nil => exact ⟨TimingDistribution.tallied_empty, rfl⟩
  | append_singleton calls call ih =>
      rw [List.foldl_append, List.foldl_cons, List.foldl_nil, observe_calls, List.filter_append,
        List.map_append]
      by_cases hzero : call.samples = 0
      · rw [if_pos hzero, List.filter_cons_of_neg (by simpa using hzero)]
        simpa using ih
      · rw [if_neg hzero, List.filter_cons_of_pos (by simpa using hzero),
          TimingDistribution.observe_observed, ih.2]
        exact ⟨ih.1.observe _ _, rfl⟩

/-! ## The accounts -/

omit [LinearOrder K] [FloorRing K] in
/-- The windows of the slots and the rest make up the time line. -/
theorem sum_windows (line : List K) (n : ℕ) : ∀ count, count * n ≤ line.length →
    ((List.range count).map fun k => ((line.drop (k * n)).take n).sum).sum
      + (line.drop (count * n)).sum = line.sum := by
  intro count
  induction count with
  | zero =>
      intro _
      rw [Nat.zero_mul, List.drop_zero, List.range_zero, List.map_nil, List.sum_nil, zero_add]
  | succ count ih =>
      intro h
      rw [Nat.succ_mul] at h ⊢
      have hsplit : ((line.drop (count * n)).take n).sum + (line.drop (count * n + n)).sum
          = (line.drop (count * n)).sum := by
        rw [← List.drop_drop, ← List.sum_append, List.take_append_drop]
      rw [List.range_succ, List.map_append, List.sum_append, List.map_singleton, List.sum_singleton,
        add_assoc, hsplit]
      exact ih (by omega)

/-- **The accounts of a run of calls**, with slots of `n` samples. -/
structure Accounts (n : ℕ) (calls : List (TimedCall K)) (s : ReceiverTimingAccumulator K) :
    Prop where
  samples : s.nominalSlots.count * n + s.pendingSamples = totalSamples calls
  pending_lt : s.pendingSamples < n
  slots : s.nominalSlots.observed
    = (List.range s.nominalSlots.count).map fun k => windowUs (k * n) ((k + 1) * n) 0 calls
  pending : s.pendingEstimatedUs = windowUs (s.nominalSlots.count * n) (totalSamples calls) 0 calls
  time : s.nominalSlots.observed.sum + s.pendingEstimatedUs = totalUs calls
  fragmented : s.fragmentedNominalSlots
    = ((List.range s.nominalSlots.count).filter fun k => !oneCall n k 0 calls).length
  slotHistogram : s.nominalSlots.histogram.sum = s.nominalSlots.count
  callHistogram : s.calls.histogram.sum = s.calls.count

/-- **Nothing is lost between the slots.** -/
theorem nominal_accounting (nominalSamples sampleRateHz : ℕ) (calls : List (TimedCall K)) :
    Accounts (max 1 nominalSamples) calls
      (calls.foldl observe (make nominalSamples sampleRateHz)) := by
  have hcut := cut_run nominalSamples sampleRateHz calls
  have hlength := hcut.length
  rw [length_costs] at hlength
  generalize max 1 nominalSamples = n at hcut hlength ⊢
  generalize hs : calls.foldl observe (make nominalSamples sampleRateHz) = s at hcut hlength ⊢
  have hpending : s.pendingSamples < n := hcut.nominal ▸ s.pending_lt
  constructor
  · exact hlength.symm
  · exact hpending
  · rw [hcut.slots]
    apply List.map_congr_left
    intro k _
    rw [windowUs_eq, Nat.succ_mul, Nat.max_eq_left (Nat.zero_le _), Nat.add_sub_cancel_left,
      Nat.sub_zero]
  · rw [hcut.pending, windowUs_eq, Nat.sub_zero, List.take_of_length_le]
    rw [List.length_drop, length_costs]
    omega
  · rw [hcut.slots, hcut.pending, sum_windows _ _ _ (by rw [length_costs]; omega), sum_costs]
  · exact hcut.fragmented
  · exact hcut.tallied.total
  · rw [← hs]
    exact (calls_run nominalSamples sampleRateHz calls).1.total

end ReceiverTimingAccumulator

end Timing

/-- A short fragment and a call that reaches into the second slot. -/
def crossingCalls : List (TimedCall ℚ) := [⟨1, 80⟩, ⟨30000, 180⟩]

theorem nominal_accounting_crossing :
    (crossingCalls.foldl ReceiverTimingAccumulator.observe
      (ReceiverTimingAccumulator.make 23040 23040000)).nominalSlots.count = 1 ∧
    (crossingCalls.foldl ReceiverTimingAccumulator.observe
      (ReceiverTimingAccumulator.make 23040 23040000)).pendingSamples = 6961 := by
  have h := ReceiverTimingAccumulator.nominal_accounting 23040 23040000 crossingCalls
  have htotal : ReceiverTimingAccumulator.totalSamples crossingCalls = 30001 := rfl
  have hsamples := h.samples
  have hlt := h.pending_lt
  rw [htotal] at hsamples
  have hn : max 1 23040 = 23040 := rfl
  rw [hn] at hsamples hlt
  omega

/-- The time of a call without samples is dropped, and a slot of no samples is taken as one. -/
theorem empty_call_is_dropped :
    ((ReceiverTimingAccumulator.make 23040 23040000 : ReceiverTimingAccumulator ℚ).observe
        ⟨0, 5⟩).nominalSlots.observed.sum
      + ((ReceiverTimingAccumulator.make 23040 23040000 : ReceiverTimingAccumulator ℚ).observe
        ⟨0, 5⟩).pendingEstimatedUs ≠ 5 ∧
      ¬ (ReceiverTimingAccumulator.make 0 23040000 : ReceiverTimingAccumulator ℚ).pendingSamples
        < 0 := by
  decide +kernel
