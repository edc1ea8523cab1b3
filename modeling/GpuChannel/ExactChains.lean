/-
# Fixed chains in exact arithmetic

Over `ℂ` the steps of a fixed chain are stages of a cascade: a path loss, a gain or a rotation
multiplies each sample by a factor, and a tdl step filters with the response of its taps and
remembers as many samples as its ring holds.
-/
import GpuChannel.FixedChains
import GpuChannel.RealScalars

noncomputable section

/-! ## Complex samples -/

def Iq.toComplex (s : Iq ℝ) : ℂ := ⟨s.i, s.q⟩

/-- `a_k = 10^(gain_db / 20) * exp(j * phase_rad)`. -/
def TapSpec.weight (tap : TapSpec ℝ) : ℂ :=
  ((10 : ℝ) ^ (tap.gainDb / 20) : ℝ) * Complex.exp (tap.phaseRad * Complex.I)

/-- The zero sample is zero. -/
@[simp] theorem toComplex_zero : (0 : Iq ℝ).toComplex = 0 := rfl

/-- Addition of samples is complex addition. -/
theorem toComplex_add (a b : Iq ℝ) : (a + b).toComplex = a.toComplex + b.toComplex := rfl

/-- Scaling a sample is complex multiplication. -/
theorem toComplex_scale (s : Iq ℝ) (factor : ℝ) : (s.scale factor).toComplex = factor * s.toComplex := by
  unfold Iq.toComplex Iq.scale
  apply Complex.ext
  · simp [mul_comm]
  · simp [mul_comm]

/-- Rotating a sample is multiplication by a unit number. -/
theorem toComplex_rotate (s : Iq ℝ) (phaseRad : ℝ) :
    (s.rotate phaseRad).toComplex = Complex.exp (phaseRad * Complex.I) * s.toComplex := by
  unfold Iq.toComplex Iq.rotate
  apply Complex.ext
  · show s.i * Real.cos phaseRad - s.q * Real.sin phaseRad = _
    rw [Complex.mul_re, Complex.exp_ofReal_mul_I_re, Complex.exp_ofReal_mul_I_im]
    ring
  · show s.i * Real.sin phaseRad + s.q * Real.cos phaseRad = _
    rw [Complex.mul_im, Complex.exp_ofReal_mul_I_re, Complex.exp_ofReal_mul_I_im]
    ring

/-- Weighting a sample is multiplication by the tap's weight. -/
theorem toComplex_weightTap (tap : TapSpec ℝ) (s : Iq ℝ) :
    (weightTap tap s).toComplex = tap.weight * s.toComplex := by
  have hscale : weightTap tap s = (s.rotate tap.phaseRad).scale ((10 : ℝ) ^ (tap.gainDb / 20)) := by
    show Iq.mk _ _ = Iq.mk _ _
    rw [mul_comm, mul_comm _ (s.rotate tap.phaseRad).q]
    rfl
  rw [hscale, toComplex_scale, toComplex_rotate, TapSpec.weight, mul_assoc]

/-- A power of ten is not zero. -/
theorem pow10_ne_zero (x : ℝ) : (((10 : ℝ) ^ x : ℝ) : ℂ) ≠ 0 :=
  Complex.ofReal_ne_zero.mpr (Real.rpow_pos_of_pos (by norm_num) x).ne'

/-- A tap has a weight. -/
theorem TapSpec.weight_ne_zero (tap : TapSpec ℝ) : tap.weight ≠ 0 :=
  mul_ne_zero (pow10_ne_zero _) (Complex.exp_ne_zero _)

/-- The filtered input of a tap as a sum. -/
theorem toComplex_filterTap (read : ℤ → Iq ℝ) (n : ℕ) (tap : TapSpec ℝ) (h : Polyphase ℝ) :
    (filterTap read n tap h).toComplex =
      ∑ i, (h i : ℂ) * (read (n - ⌊tap.delaySamples⌋ + 3 - (i.val : ℤ))).toComplex := by
  have hfold : ∀ (l : List (Fin kTdlFracFilterTaps)) (acc : Iq ℝ),
      (l.foldl (fun x i => (⟨x.i + h i * (read (n - ⌊tap.delaySamples⌋ + 3 - (i.val : ℤ))).i,
        x.q + h i * (read (n - ⌊tap.delaySamples⌋ + 3 - (i.val : ℤ))).q⟩ : Iq ℝ)) acc).toComplex =
      acc.toComplex + (l.map fun i =>
        (h i : ℂ) * (read (n - ⌊tap.delaySamples⌋ + 3 - (i.val : ℤ))).toComplex).sum := by
    intro l
    induction l with
    | nil => intro acc; simp
    | cons i l ih =>
        intro acc
        rw [List.foldl_cons, ih, List.map_cons, List.sum_cons, ← add_assoc]
        congr 1
        apply Complex.ext
        · simp [Iq.toComplex]
        · simp [Iq.toComplex]
  unfold filterTap
  rw [hfold, toComplex_zero, zero_add, Fin.sum_univ_def]

/-! ## The convolution -/

/-- `h_k`. -/
def kernel (tap : TapSpec ℝ) (i : Fin kTdlFracFilterTaps) : ℂ := ((tapPolyphase tap i : ℝ) : ℂ)

/-- **The direct convolution** `y[n] = sum_k a_k sum_i h_k[i] x[n - floor(tau_k) + 3 - i]`. -/
def directConvolution (taps : List (TapSpec ℝ)) (x : ℤ → ℂ) (n : ℕ) : ℂ :=
  (taps.map fun tap => tap.weight *
    ∑ i, kernel tap i * x (n - ⌊tap.delaySamples⌋ + 3 - (i.val : ℤ))).sum

/-- The samples of a stream, with zeros before its start. -/
def extended (xs : List (Iq ℝ)) (idx : ℤ) : ℂ :=
  if idx < 0 then 0 else Slots.signal Iq.toComplex xs idx.toNat

/-- **The response of the taps**: what they weigh the sample `lag` positions back with. -/
def response (taps : List (TapSpec ℝ)) (lag : ℕ) : ℂ :=
  (taps.map fun tap => tap.weight *
    ∑ i : Fin kTdlFracFilterTaps,
      if ⌊tap.delaySamples⌋ + (i.val : ℤ) - 3 = lag then kernel tap i else 0).sum

/-- The outputs of a tdl step. -/
theorem signal_applyTdlStep (input : List (Iq ℝ)) (taps : List (TapSpec ℝ)) (ring : List (Iq ℝ))
    {n : ℕ} (hn : n < input.length) :
    Slots.signal Iq.toComplex (applyTdlStep input taps (taps.map tapPolyphase) ring).1 n =
      directConvolution taps (fun idx => (readSample input ring idx).toComplex) n := by
  have hfold : ∀ (l : List (TapSpec ℝ)) (acc : Iq ℝ),
      ((l.zip (l.map tapPolyphase)).foldl (fun acc p =>
        acc + weightTap p.1 (filterTap (readSample input ring) n p.1 p.2)) acc).toComplex =
      acc.toComplex + directConvolution l (fun idx => (readSample input ring idx).toComplex) n := by
    intro l
    induction l with
    | nil => intro acc; simp [directConvolution]
    | cons tap l ih =>
        intro acc
        rw [List.map_cons, List.zip_cons_cons, List.foldl_cons, ih, toComplex_add,
          toComplex_weightTap, toComplex_filterTap, add_assoc]
        rfl
  unfold applyTdlStep Slots.signal
  rw [List.getD_eq_getElem _ _ (by simpa using hn), List.getElem_map, List.getElem_map,
    List.getElem_range, hfold, toComplex_zero, zero_add]

/-- The lag of each coefficient collected: a convolution with the response. -/
theorem directConvolution_eq_response {taps : List (TapSpec ℝ)} (hcausal : ∀ tap ∈ taps, CausalTap tap)
    (x : ℤ → ℂ) (n limit : ℕ) (hx : ∀ lag : ℕ, limit ≤ lag → x (n - lag) = 0) :
    directConvolution taps x n = ∑ lag ∈ Finset.range limit, response taps lag * x (n - lag) := by
  induction taps with
  | nil => simp [directConvolution, response]
  | cons tap taps ih =>
      rw [List.forall_mem_cons] at hcausal
      have hcons : ∀ lag, response (tap :: taps) lag = tap.weight *
          (∑ i : Fin kTdlFracFilterTaps, if ⌊tap.delaySamples⌋ + (i.val : ℤ) - 3 = lag then
            kernel tap i else 0) + response taps lag := fun lag => rfl
      have htap : ∑ i, kernel tap i * x (n - ⌊tap.delaySamples⌋ + 3 - (i.val : ℤ)) =
          ∑ lag ∈ Finset.range limit, (∑ i : Fin kTdlFracFilterTaps,
            if ⌊tap.delaySamples⌋ + (i.val : ℤ) - 3 = lag then kernel tap i else 0) *
              x (n - lag) := by
        simp only [Finset.sum_mul]
        rw [Finset.sum_comm]
        refine Finset.sum_congr rfl fun i _ => ?_
        by_cases hi : ⌊tap.delaySamples⌋ + (i.val : ℤ) < 3
        · have hzero : kernel tap i = 0 := by
            rw [kernel, hcausal.1 i hi, Complex.ofReal_zero]
          simp [hzero]
        · obtain ⟨lag, hlag⟩ := Int.eq_ofNat_of_zero_le
            (by omega : 0 ≤ ⌊tap.delaySamples⌋ + (i.val : ℤ) - 3)
          rw [show (n : ℤ) - ⌊tap.delaySamples⌋ + 3 - (i.val : ℤ) = n - lag by omega, hlag]
          by_cases hlimit : lag < limit
          · rw [Finset.sum_eq_single lag]
            · rw [if_pos rfl]
            · intro other _ hother
              rw [if_neg (by omega), zero_mul]
            · intro hout
              exact absurd (Finset.mem_range.mpr hlimit) hout
          · -- no sample lies that far back
            rw [hx lag (by omega), mul_zero]
            refine (Finset.sum_eq_zero fun other hother => ?_).symm
            rw [Finset.mem_range] at hother
            rw [if_neg (by omega), zero_mul]
      have hrest := ih hcausal.2
      simp only [hcons, add_mul, Finset.sum_add_distrib, mul_assoc]
      rw [← Finset.mul_sum, ← htap, ← hrest]
      rfl

/-! ## The ring -/

/-- The last `size` of the samples `pre`, behind zeros. -/
def history (size : ℕ) (pre : List (Iq ℝ)) : List (Iq ℝ) :=
  (List.replicate size 0 ++ pre).drop pre.length

/-- The history has the length of its ring. -/
theorem length_history (size : ℕ) (pre : List (Iq ℝ)) : (history size pre).length = size := by
  simp [history]

/-- The two branches of the roll are one. -/
theorem rollDelayLine_eq {K : Type} (input ring : List (Iq K)) :
    rollDelayLine input ring = (ring ++ input).drop input.length := by
  unfold rollDelayLine
  rw [List.drop_append]
  split_ifs with h
  · rw [List.drop_of_length_le h, List.nil_append]
  · rw [show input.length - ring.length = 0 by omega, List.drop_zero]

/-- The ring rolls on to the history of what came before and now. -/
theorem rollDelayLine_history (size : ℕ) (pre input : List (Iq ℝ)) :
    rollDelayLine input (history size pre) = history size (pre ++ input) := by
  rw [rollDelayLine_eq]
  unfold history
  rw [← List.append_assoc, List.length_append, ← List.drop_drop]
  congr 1
  exact (List.drop_append_of_le_length (by simp)).symm

/-- What a filter reads `lag` samples back: nothing beyond the ring. -/
theorem readSample_history (size : ℕ) (pre input : List (Iq ℝ)) {n : ℕ} (hn : n < input.length)
    (lag : ℕ) :
    (readSample input (history size pre) (n - lag)).toComplex =
      if lag ≤ pre.length + n ∧ lag ≤ n + size then
        Slots.signal Iq.toComplex (pre ++ input) (pre.length + n - lag) else 0 := by
  unfold readSample
  rw [if_neg (by omega), length_history]
  by_cases hslot : lag ≤ n
  · -- within the slot
    have hidx : ((n : ℤ) - lag).toNat = n - lag := by omega
    rw [if_pos (by omega), if_pos (by omega), hidx, List.getD_eq_getElem _ _ (by omega),
      Slots.signal_append_right _ _ _ (by omega), Slots.signal,
      List.getD_eq_getElem _ _ (by rw [List.length_map]; omega), List.getElem_map]
    congr 2
    omega
  · rw [if_neg (by omega)]
    by_cases hring : lag ≤ n + size
    · rw [if_neg (by omega)]
      have hidx : ((size : ℤ) + (n - lag)).toNat = size + n - lag := by omega
      rw [hidx]
      unfold history
      rw [List.getD_eq_getElem _ _ (by simp; omega), List.getElem_drop]
      by_cases hpre : lag ≤ pre.length + n
      · rw [if_pos ⟨hpre, hring⟩, List.getElem_append_right (by simp; omega),
          Slots.signal_append_left _ _ _ (by omega), Slots.signal,
          List.getD_eq_getElem _ _ (by rw [List.length_map]; omega), List.getElem_map]
        congr 2
        simp
        omega
      · rw [if_neg (by omega), List.getElem_append_left (by simp; omega), List.getElem_replicate,
          toComplex_zero]
    · rw [if_pos (by omega), if_neg (by omega), toComplex_zero]

/-- **A tdl step is a filter** with the response of its taps, and its ring is the memory. -/
theorem applyTdlStep_realises {taps : List (TapSpec ℝ)} (hcausal : ∀ tap ∈ taps, CausalTap tap)
    (size : ℕ) :
    Slots.Realises Iq.toComplex (fun ring input => applyTdlStep input taps (taps.map tapPolyphase) ring)
      (fun pre ring => ring = history size pre) (.filter size (response taps)) := by
  constructor
  · rintro pre _ input rfl
    exact rollDelayLine_history size pre input
  · intro ring input
    simp [applyTdlStep]
  · rintro pre _ input n rfl hn
    have hread := readSample_history size pre input hn
    rw [signal_applyTdlStep input taps _ hn,
      directConvolution_eq_response hcausal _ n (pre.length + n + 1)]
    · refine Finset.sum_congr rfl fun lag hlag => ?_
      rw [Finset.mem_range] at hlag
      rw [hread lag]
      by_cases hreach : pre.length ≤ pre.length + n - lag + size
      · rw [if_pos hreach, if_pos (by omega)]
      · rw [if_neg hreach, if_neg (by omega), mul_zero]
    · intro lag hlag
      rw [hread lag, if_neg (by omega)]

/-! ## The factors -/

/-- The accumulated phase after `n` samples. -/
def phaseAfter (increment : ℝ) (n : ℕ) : ℝ := (fun phase => wrapPhase (phase + increment))^[n] 0

/-- **The rotation of a slot** goes on where the samples before it ended. -/
theorem rotateSamples_spec (fixedPhase increment : ℝ) (n : ℕ) (slot : List (Iq ℝ)) :
    (rotateSamples fixedPhase increment (phaseAfter increment n) slot).2 =
        phaseAfter increment (n + slot.length) ∧
      (rotateSamples fixedPhase increment (phaseAfter increment n) slot).1.length = slot.length ∧
      ∀ m, Slots.signal Iq.toComplex
          (rotateSamples fixedPhase increment (phaseAfter increment n) slot).1 m =
        Complex.exp ((fixedPhase + phaseAfter increment (n + m) : ℝ) * Complex.I) *
          Slots.signal Iq.toComplex slot m := by
  induction slot generalizing n with
  | nil => exact ⟨rfl, rfl, fun m => by simp [rotateSamples, Slots.signal]⟩
  | cons s slot ih =>
      have hnext : wrapPhase (phaseAfter increment n + increment) = phaseAfter increment (n + 1) :=
        (Function.iterate_succ_apply' (fun phase => wrapPhase (phase + increment)) n 0).symm
      obtain ⟨hphase, hlength, hvalue⟩ := ih (n + 1)
      unfold rotateSamples
      rw [hnext]
      refine ⟨?_, ?_, ?_⟩
      · rw [List.length_cons, ← Nat.add_assoc, Nat.add_right_comm]
        exact hphase
      · rw [List.length_cons, List.length_cons, hlength]
      · intro m
        cases m with
        | zero => exact toComplex_rotate s _
        | succ m =>
            have hm := hvalue m
            rw [Nat.add_right_comm] at hm
            exact hm

/-- Scaling a slot scales its signal. -/
theorem signal_map_scale (slot : List (Iq ℝ)) (factor : ℝ) (n : ℕ) :
    Slots.signal Iq.toComplex (slot.map (·.scale factor)) n =
      factor * Slots.signal Iq.toComplex slot n := by
  induction slot generalizing n with
  | nil => simp [Slots.signal]
  | cons s slot ih =>
      cases n with
      | zero => exact toComplex_scale s factor
      | succ n => exact ih n

/-! ## The stages of a chain -/

/-- **The stage that a step is.** -/
def stepStage (sampleRateHz : ℕ) (live : MutableParams ℝ) (step : ModelStep ℝ) : Slots.Stage ℂ :=
  match silentUse live step with
  | .pathLoss db => .factor fun _ => ((10 : ℝ) ^ (-db / 20) : ℝ)
  | .gain db => .factor fun _ => ((10 : ℝ) ^ (db / 20) : ℝ)
  | .noisePower _ | .noiseSnr _ => .factor fun _ => 1
  | .rotation phaseRad cfoHz => .factor fun n => Complex.exp
      ((phaseRad + phaseAfter (phaseIncrement cfoHz sampleRateHz) n : ℝ) * Complex.I)
  | .tdl taps _ => .filter (ringSize step.taps) (response taps)

/-- The state of a step that has been given the samples `pre`. -/
def HasSeen (sampleRateHz : ℕ) (live : MutableParams ℝ) (step : ModelStep ℝ) (pre : List (Iq ℝ))
    (st : StepState ℝ) : Prop :=
  match silentUse live step with
  | .rotation _ cfoHz => st.phaseRad = phaseAfter (phaseIncrement cfoHz sampleRateHz) pre.length
  | .tdl _ _ => st.delayLine = history (ringSize step.taps) pre
  | _ => True

/-- A step that multiplies each sample realises a factor. -/
theorem factor_realises {σ : Type} {f : σ → List (Iq ℝ) → List (Iq ℝ) × σ}
    {I : List (Iq ℝ) → σ → Prop} {u : ℕ → ℂ}
    (hnext : ∀ pre s xs, I pre s → I (pre ++ xs) (f s xs).2)
    (hlength : ∀ s xs, (f s xs).1.length = xs.length)
    (hvalue : ∀ pre s xs n, I pre s → Slots.signal Iq.toComplex (f s xs).1 n =
      u (pre.length + n) * Slots.signal Iq.toComplex xs n) :
    Slots.Realises Iq.toComplex f I (.factor u) := by
  refine ⟨hnext, hlength, fun pre s xs n hs hn => ?_⟩
  rw [hvalue pre s xs n hs]
  show _ = u (pre.length + n) * Slots.signal Iq.toComplex (pre ++ xs) (pre.length + n)
  rw [Slots.signal_append_right _ _ _ (by omega), Nat.add_sub_cancel_left]

/-- A scaled slot. -/
theorem scale_realises {σ : Type} (factor : ℝ) {I : List (Iq ℝ) → σ → Prop}
    (hnext : ∀ pre s xs, I pre s → I (pre ++ xs) s) :
    Slots.Realises Iq.toComplex (fun s slot => (slot.map (·.scale factor), s)) I
      (.factor fun _ => (factor : ℂ)) :=
  factor_realises hnext (fun _ _ => List.length_map _)
    (fun _ _ xs n _ => signal_map_scale xs factor n)

/-- The rotation of a slot, with the phase carried over. -/
theorem rotate_realises (phaseRad increment : ℝ) :
    Slots.Realises Iq.toComplex
      (fun (st : StepState ℝ) slot =>
        ((rotateSamples phaseRad increment st.phaseRad slot).1,
          { st with phaseRad := (rotateSamples phaseRad increment st.phaseRad slot).2 }))
      (fun pre st => st.phaseRad = phaseAfter increment pre.length)
      (.factor fun n => Complex.exp ((phaseRad + phaseAfter increment n : ℝ) * Complex.I)) := by
  have hlength : ∀ (phase : ℝ) (slot : List (Iq ℝ)),
      (rotateSamples phaseRad increment phase slot).1.length = slot.length := by
    intro phase slot
    induction slot generalizing phase with
    | nil => rfl
    | cons s slot ih => exact congrArg (· + 1) (ih _)
  refine factor_realises ?_ (fun st slot => hlength _ slot) ?_
  · intro pre st slot hst
    dsimp only
    rw [hst, List.length_append]
    exact (rotateSamples_spec phaseRad increment pre.length slot).1
  · intro pre st slot n hst
    dsimp only
    rw [hst]
    exact (rotateSamples_spec phaseRad increment pre.length slot).2.2 n

/-- **A step of a fixed chain realises its stage.** -/
theorem slotStep_realises (sampleRateHz : ℕ) (live : MutableParams ℝ) {step : ModelStep ℝ}
    (hstep : step.IsFixed)
    (hcausal : step.type = .tdl → ∀ tap ∈ effectiveTaps live step.taps, CausalTap tap) :
    Slots.Realises Iq.toComplex (slotStep sampleRateHz live step) (HasSeen sampleRateHz live step)
      (stepStage sampleRateHz live step) := by
  unfold slotStep HasSeen stepStage silentUse
  cases htype : step.type with
  | awgn => exact absurd htype hstep.1
  | pathLoss => exact scale_realises _ fun _ _ _ _ => trivial
  | gain => exact scale_realises _ fun _ _ _ _ => trivial
  | phase => exact rotate_realises _ _
  | cfo => exact rotate_realises _ _
  | tdl =>
      have hfilter := applyTdlStep_realises (hcausal htype) (ringSize step.taps)
      constructor
      · intro pre st slot hst
        exact hfilter.next pre st.delayLine slot hst
      · intro st slot
        exact hfilter.length st.delayLine slot
      · intro pre st slot n hst hn
        exact hfilter.value pre st.delayLine slot n hst hn

/-- An empty ring and a zero phase: nothing seen yet. -/
theorem hasSeen_nil (sampleRateHz : ℕ) (live : MutableParams ℝ) {step : ModelStep ℝ}
    {st : StepState ℝ}
    (hring : step.type = .tdl → st.delayLine = List.replicate (ringSize step.taps) 0)
    (hphase : st.phaseRad = 0) : HasSeen sampleRateHz live step [] st := by
  unfold HasSeen silentUse
  cases htype : step.type with
  | tdl =>
      show st.delayLine = _
      rw [hring htype, history, List.append_nil, List.length_nil, List.drop_zero]
  | phase => exact hphase
  | cfo => exact hphase
  | pathLoss => trivial
  | gain => trivial
  | awgn =>
      dsimp only
      split_ifs <;> trivial

/-- A chain that was just prepared has seen nothing. -/
theorem prepareSteps_hasSeen [Rng ℝ] (sampleRateHz : ℕ) (live : MutableParams ℝ) (key : String)
    (model : ModelConfig ℝ) (identity : LaneIdentity) :
    List.Forall₂ (fun step st => HasSeen sampleRateHz live step [] st) model.chain
      (prepareSteps key model identity) := by
  rw [List.forall₂_iff_get]
  refine ⟨by simp [prepareSteps], fun i h₁ h₂ => hasSeen_nil sampleRateHz live ?_ ?_⟩
  · intro htype
    rw [List.get_eq_getElem] at htype ⊢
    unfold prepareSteps
    rw [List.getElem_mapIdx, if_pos htype]
    show (prepareTdlState model.chain[i].taps ([] : List (Iq ℝ))).2 = _
    rw [prepareTdlState, if_pos (by simp [ringSize, kTdlFracFilterTaps])]
    rfl
  · rw [List.get_eq_getElem]
    unfold prepareSteps
    rw [List.getElem_mapIdx]
    split_ifs <;> rfl

end
