/-
# Cutting a stream into slots

A fixed chain gives the same output however its stream is cut into slots, if the ring of each tdl
step holds what its taps read.  The ring is sized by the taps that the step declares, while the
first tap it runs with is that of the leading step; so the ring of a later step may be too short.
`KeepsStream` says for which chains it is not, and `fragmentation_invariant` that it is exact.
-/
import GpuChannel.ExactChains

noncomputable section

/-! ## Which kernels are causal -/

/-- A filter for a whole number of samples is an impulse. -/
theorem tapPolyphase_of_integer {tap : TapSpec ℝ} {d : ℤ} (hd : tap.delaySamples = d)
    {i : Fin kTdlFracFilterTaps} (hi : (i.val : ℤ) ≠ 3) : tapPolyphase tap i = 0 := by
  have hfrac : tap.delaySamples - (⌊tap.delaySamples⌋ : ℝ) = 0 := by
    rw [hd, Int.floor_intCast, sub_self]
  have hcoeff : windowedSincCoeff (0 : ℝ) i = 0 := by
    have hone : (1 : ℝ) ≤ |(((i.val : ℤ) - 3 : ℤ) : ℝ)| := by
      rw [← Int.cast_abs]
      exact_mod_cast Int.one_le_abs (by omega : (i.val : ℤ) - 3 ≠ 0)
    unfold windowedSincCoeff
    dsimp only
    rw [sub_zero, if_neg (by linarith [show (1 : ℝ) / 10 ^ 12 < 1 by norm_num])]
    -- the sine vanishes at the multiples of `π`
    have hsin : (Libm.sin (Libm.pi * (((i.val : ℤ) - 3 : ℤ) : ℝ)) : ℝ) = 0 := by
      show Real.sin (Real.pi * _) = 0
      rw [mul_comm]
      exact Real.sin_int_mul_pi _
    rw [hsin, zero_div, zero_mul]
  unfold tapPolyphase computeWindowedSincTaps
  rw [hfrac]
  split_ifs
  · show windowedSincCoeff (0 : ℝ) i * _ = 0
    rw [hcoeff, zero_mul]
  · exact hcoeff

/-- **Whole delays, and delays from three samples on, are causal.** -/
theorem causalTap_of_delay {tap : TapSpec ℝ} (hnonneg : 0 ≤ tap.delaySamples)
    (hdelay : (∃ d : ℤ, tap.delaySamples = d) ∨ 3 ≤ tap.delaySamples) : CausalTap tap := by
  intro i hi
  rcases hdelay with ⟨d, hd⟩ | hthree
  · refine tapPolyphase_of_integer hd ?_
    have hfloor : 0 ≤ ⌊tap.delaySamples⌋ := Int.floor_nonneg.mpr hnonneg
    omega
  · have hfloor : (3 : ℤ) ≤ ⌊tap.delaySamples⌋ := Int.le_floor.mpr (by exact_mod_cast hthree)
    omega

/-- The default tap is causal. -/
theorem causalTap_default : CausalTap (default : TapSpec ℝ) :=
  causalTap_of_delay le_rfl (Or.inl ⟨0, Int.cast_zero.symm⟩)

/-! ## Which rings suffice -/

/-- The ring of these taps holds every sample that a tap with this delay reads. -/
def RingReaches {K : Type} [Field K] [LinearOrder K] [FloorRing K] [Libm K] (tap : TapSpec K)
    (taps : List (TapSpec K)) : Prop :=
  ∀ i : Fin kTdlFracFilterTaps,
    tapPolyphase tap i ≠ 0 → ⌊tap.delaySamples⌋ + (i.val : ℤ) - 3 ≤ ringSize taps

/-- A running maximum is no less than any of its entries. -/
theorem le_foldl_max (taps : List (TapSpec ℝ)) (init : ℝ) :
    init ≤ taps.foldl (fun m tap => max m tap.delaySamples) init ∧
      ∀ tap ∈ taps, tap.delaySamples ≤ taps.foldl (fun m tap => max m tap.delaySamples) init := by
  induction taps generalizing init with
  | nil => exact ⟨le_rfl, fun tap htap => absurd htap List.not_mem_nil⟩
  | cons tap taps ih =>
      obtain ⟨hinit, htaps⟩ := ih (max init tap.delaySamples)
      exact ⟨(le_max_left _ _).trans hinit, List.forall_mem_cons.mpr
        ⟨(le_max_right _ _).trans hinit, htaps⟩⟩

/-- The ring holds what the step's own taps read. -/
theorem lag_le_ringSize {tap : TapSpec ℝ} {taps : List (TapSpec ℝ)} (h : tap ∈ taps)
    (i : Fin kTdlFracFilterTaps) : ⌊tap.delaySamples⌋ + (i.val : ℤ) - 3 ≤ ringSize taps := by
  have hdelay := (le_foldl_max taps 0).2 tap h
  have hfloor : ⌊tap.delaySamples⌋ ≤ ⌈taps.foldl (fun m tap => max m tap.delaySamples) (0 : ℝ)⌉ :=
    (Int.floor_le_ceil _).trans (Int.ceil_mono hdelay)
  have hi : i.val < 8 := i.isLt
  unfold ringSize kTdlFracFilterTaps
  push_cast
  have htoNat := Int.self_le_toNat ⌈taps.foldl (fun m tap => max m tap.delaySamples) (0 : ℝ)⌉
  omega

/-- Whether a ring reaches depends on the first tap's delay only. -/
theorem RingReaches.congr {a b : TapSpec ℝ} (h : a.delaySamples = b.delaySamples)
    {taps : List (TapSpec ℝ)} (hb : RingReaches b taps) : RingReaches a taps := by
  intro i hi
  have hfilter : tapPolyphase a i = tapPolyphase b i := by rw [tapPolyphase, tapPolyphase, h]
  rw [h]
  exact hb i (hfilter ▸ hi)

/-- The response of a list of taps is the sum of theirs. -/
theorem response_cons (tap : TapSpec ℝ) (taps : List (TapSpec ℝ)) (lag : ℕ) :
    response (tap :: taps) lag = tap.weight *
      (∑ i : Fin kTdlFracFilterTaps,
        if ⌊tap.delaySamples⌋ + (i.val : ℤ) - 3 = lag then kernel tap i else 0) + response taps lag :=
  rfl

/-- A lag that no tap reads has no response. -/
theorem response_eq_zero {taps : List (TapSpec ℝ)} {lag : ℕ}
    (h : ∀ tap ∈ taps, ∀ i : Fin kTdlFracFilterTaps,
      ⌊tap.delaySamples⌋ + (i.val : ℤ) - 3 = lag → kernel tap i = 0) : response taps lag = 0 := by
  induction taps with
  | nil => rfl
  | cons tap taps ih =>
      rw [List.forall_mem_cons] at h
      rw [response_cons, ih h.2, add_zero, Finset.sum_eq_zero, mul_zero]
      intro i _
      split_ifs with hlag
      · exact h.1 i hlag
      · rfl

/-- **The response ends within the ring** if and only if the ring holds what the first tap reads:
the ring is sized by the others. -/
theorem response_fits_iff (first : TapSpec ℝ) {taps : List (TapSpec ℝ)} {size : ℕ}
    (hrest : ∀ tap ∈ taps, ∀ i : Fin kTdlFracFilterTaps, ⌊tap.delaySamples⌋ + (i.val : ℤ) - 3 ≤ size) :
    (∀ lag, size < lag → response (first :: taps) lag = 0) ↔
      ∀ i : Fin kTdlFracFilterTaps,
        tapPolyphase first i ≠ 0 → ⌊first.delaySamples⌋ + (i.val : ℤ) - 3 ≤ size := by
  constructor
  · intro h i hi
    by_contra hlag
    obtain ⟨lag, hlag'⟩ := Int.eq_ofNat_of_zero_le
      (by omega : 0 ≤ ⌊first.delaySamples⌋ + (i.val : ℤ) - 3)
    have hzero := h lag (by omega)
    have htaps : response taps lag = 0 :=
      response_eq_zero fun tap htap j hj => absurd (hrest tap htap j) (by omega)
    -- at this lag the coefficient `i` of the first tap stands alone
    have hsum : (∑ j : Fin kTdlFracFilterTaps,
        if ⌊first.delaySamples⌋ + (j.val : ℤ) - 3 = lag then kernel first j else 0) =
        kernel first i := by
      rw [Finset.sum_eq_single i]
      · rw [if_pos hlag']
      · intro j _ hj
        have hval : j.val ≠ i.val := fun heq => hj (Fin.ext heq)
        rw [if_neg (by omega)]
      · intro hout
        exact absurd (Finset.mem_univ i) hout
    rw [response_cons, htaps, add_zero, hsum] at hzero
    exact mul_ne_zero first.weight_ne_zero (Complex.ofReal_ne_zero.mpr hi) hzero
  · intro h lag hlag
    refine response_eq_zero fun tap htap i hi => ?_
    rcases List.mem_cons.mp htap with rfl | htap
    · by_contra hne
      have hreach := h i (fun hz => hne (by rw [kernel, hz, Complex.ofReal_zero]))
      omega
    · have hreach := hrest tap htap i
      omega

/-- The taps that the steps of a silent lane run with. -/
def runningTaps {K : Type} [Field K] (model : ModelConfig K) (step : ModelStep K) :
    List (TapSpec K) :=
  effectiveTaps (populateMutableParamsFromYaml model) step.taps

/-- **The ring of every tdl step holds what the leading tap reads**, or the taps of one step
cancel at every lag. -/
def KeepsStream (model : ModelConfig ℝ) : Prop :=
  (∃ step ∈ model.chain, step.type = .tdl ∧ ∀ lag, response (runningTaps model step) lag = 0) ∨
    ∀ step ∈ model.chain, step.type = .tdl → step.taps ≠ [] →
      RingReaches (scannedTap model.chain) step.taps

/-! ## The stages of a fixed chain -/

/-- The scanned tap is causal: it is a declared one, or has no delay. -/
theorem causalTap_scannedTap {chain : List (ModelStep ℝ)} (hchain : FixedChain chain)
    (hdefault : CausalTap (default : TapSpec ℝ)) : CausalTap (scannedTap chain) := by
  unfold scannedTap leadingTap?
  cases chain with
  | nil => exact hdefault
  | cons step chain =>
      dsimp only
      split_ifs with htype
      · cases htaps : step.taps with
        | nil => exact hdefault
        | cons tap taps =>
            refine hchain.causal step List.mem_cons_self htype tap ?_
            rw [htaps]
            exact List.mem_cons_self
      · exact hdefault

section Stages

variable (sampleRateHz : ℕ) (model : ModelConfig ℝ) {step : ModelStep ℝ}

/-- A TDL step is a filter with the response of its taps. -/
theorem stepStage_of_tdl (h : step.type = .tdl) :
    stepStage sampleRateHz (populateMutableParamsFromYaml model) step =
      .filter (ringSize step.taps) (response (runningTaps model step)) := by
  unfold stepStage silentUse
  rw [h]
  rfl

/-- Without a filter there is a factor that never vanishes. -/
theorem stepStage_of_not_tdl (hfixed : step.IsFixed) (h : step.type ≠ .tdl) :
    ∃ u : ℕ → ℂ, (∀ n, u n ≠ 0) ∧
      stepStage sampleRateHz (populateMutableParamsFromYaml model) step = .factor u := by
  unfold stepStage silentUse
  cases htype : step.type with
  | tdl => exact absurd htype h
  | awgn => exact absurd htype hfixed.1
  | pathLoss => exact ⟨_, fun _ => pow10_ne_zero _, rfl⟩
  | gain => exact ⟨_, fun _ => pow10_ne_zero _, rfl⟩
  | phase => exact ⟨_, fun _ => Complex.exp_ne_zero _, rfl⟩
  | cfo => exact ⟨_, fun _ => Complex.exp_ne_zero _, rfl⟩

/-- A step of a fixed chain keeps silence silent. -/
theorem stepStage_proper (hfixed : step.IsFixed) :
    (stepStage sampleRateHz (populateMutableParamsFromYaml model) step).Proper := by
  by_cases h : step.type = .tdl
  · rw [stepStage_of_tdl sampleRateHz model h]
    refine ⟨ringSize (runningTaps model step), fun lag hlag => ?_⟩
    refine response_eq_zero fun tap htap i hi => ?_
    have hreach := lag_le_ringSize htap i
    omega
  · obtain ⟨u, hu, hstage⟩ := stepStage_of_not_tdl sampleRateHz model hfixed h
    rw [hstage]
    exact hu

/-- A step is silent exactly if it is a TDL without response. -/
theorem stepStage_silent_iff (hfixed : step.IsFixed) :
    (stepStage sampleRateHz (populateMutableParamsFromYaml model) step).Silent ↔
      step.type = .tdl ∧ ∀ lag, response (runningTaps model step) lag = 0 := by
  by_cases h : step.type = .tdl
  · rw [stepStage_of_tdl sampleRateHz model h]
    exact ⟨fun hsilent => ⟨h, hsilent⟩, fun hsilent => hsilent.2⟩
  · obtain ⟨u, -, hstage⟩ := stepStage_of_not_tdl sampleRateHz model hfixed h
    rw [hstage]
    exact ⟨fun hf => absurd hf id, fun ht => absurd ht.1 h⟩

/-- A step fits exactly if its ring reaches its taps. -/
theorem stepStage_fits_iff (hfixed : step.IsFixed) :
    (stepStage sampleRateHz (populateMutableParamsFromYaml model) step).Fits ↔
      (step.type = .tdl → step.taps ≠ [] → RingReaches (scannedTap model.chain) step.taps) := by
  by_cases h : step.type = .tdl
  · rw [stepStage_of_tdl sampleRateHz model h]
    show (∀ lag, ringSize step.taps < lag → response (runningTaps model step) lag = 0) ↔ _
    cases htaps : step.taps with
    | nil =>
        refine ⟨fun _ _ hne => absurd rfl hne, fun _ lag _ => ?_⟩
        rw [runningTaps, htaps]
        rfl
    | cons tap taps =>
        have hrun : runningTaps model step =
            overrideTap0 (populateMutableParamsFromYaml model) tap :: taps := by
          rw [runningTaps, htaps]
          rfl
        have hdelay : (overrideTap0 (populateMutableParamsFromYaml model) tap).delaySamples =
            (scannedTap model.chain).delaySamples := by
          rw [overrideTap0_populate]
        rw [hrun, response_fits_iff _ fun other hother i =>
          lag_le_ringSize (List.mem_cons_of_mem _ hother) i]
        exact ⟨fun hreach _ _ => RingReaches.congr hdelay.symm hreach,
          fun hreach => RingReaches.congr hdelay (hreach h (List.cons_ne_nil _ _))⟩
  · obtain ⟨u, -, hstage⟩ := stepStage_of_not_tdl sampleRateHz model hfixed h
    rw [hstage]
    exact ⟨fun _ ht => absurd ht h, fun _ => trivial⟩

end Stages

/-! ## Fragmentation -/

section Cuts

variable [Rng ℝ]

/-- **The output does not depend on the cut**, and that of one tdl step is the convolution. -/
structure FragmentationInvariant (model : ModelConfig ℝ) : Prop where
  cuts_agree : ∀ (p : CpuChannelProcessor ℝ) (key : String) (identity : LaneIdentity)
    (count rate : ℕ), NewLane p key identity → ∀ slots slots' : List (List (Iq ℝ)),
    (∀ slot ∈ slots, slot ≠ []) → (∀ slot ∈ slots', slot ≠ []) → slots.flatten = slots'.flatten →
    ∃ outs outs',
      (p.ensureLinkState key model count identity).streamLane key model rate slots = .ok outs ∧
      (p.ensureLinkState key model count identity).streamLane key model rate slots' = .ok outs' ∧
      outs.flatten = outs'.flatten
  convolves : ∀ step, model.chain = [step] → step.type = .tdl →
    ∀ (p : CpuChannelProcessor ℝ) (key : String) (identity : LaneIdentity) (count rate : ℕ),
    NewLane p key identity → ∀ slots : List (List (Iq ℝ)), (∀ slot ∈ slots, slot ≠ []) →
    ∃ outs,
      (p.ensureLinkState key model count identity).streamLane key model rate slots = .ok outs ∧
      outs.flatten.length = slots.flatten.length ∧ ∀ n < slots.flatten.length,
        Slots.signal Iq.toComplex outs.flatten n =
          directConvolution step.taps (extended slots.flatten) n

/-- The cascade that a chain is. -/
def chainStages (model : ModelConfig ℝ) (sampleRateHz : ℕ) : List (Slots.Stage ℂ) :=
  model.chain.map (stepStage sampleRateHz (populateMutableParamsFromYaml model))

omit [Rng ℝ] in
/-- The taps that run in a fixed chain are causal. -/
theorem causalTap_runningTaps {model : ModelConfig ℝ} (hchain : FixedChain model.chain)
    {step : ModelStep ℝ} (hstep : step ∈ model.chain) (htype : step.type = .tdl) :
    ∀ tap ∈ runningTaps model step, CausalTap tap := by
  have hdeclared := hchain.causal step hstep htype
  unfold runningTaps
  cases htaps : step.taps with
  | nil => exact fun tap htap => absurd htap List.not_mem_nil
  | cons tap taps =>
      rw [htaps, List.forall_mem_cons] at hdeclared
      have hscanned := causalTap_scannedTap hchain causalTap_default
      refine List.forall_mem_cons.mpr ⟨CausalTap.congr ?_ hscanned, hdeclared.2⟩
      rw [overrideTap0_populate]

/-- **A stream through a new lane** is the cascade of its stages, with the slots' starts. -/
theorem streamLane_signal {model : ModelConfig ℝ} (hchain : FixedChain model.chain)
    {p : CpuChannelProcessor ℝ} {key : String} {identity : LaneIdentity} (hp : NewLane p key identity)
    (count rate : ℕ) {slots : List (List (Iq ℝ))} (hslots : ∀ slot ∈ slots, slot ≠ []) :
    ∃ outs,
      (p.ensureLinkState key model count identity).streamLane key model rate slots = .ok outs ∧
      outs.flatten.length = slots.flatten.length ∧ ∀ n < slots.flatten.length,
        Slots.signal Iq.toComplex outs.flatten n =
          Slots.cascade (Slots.start (slots.map List.length)) (chainStages model rate)
            (Slots.signal Iq.toComplex slots.flatten) n := by
  obtain ⟨hsizes, hvalue⟩ := Slots.outputs_pipe
    (slotStep rate (populateMutableParamsFromYaml model))
    (HasSeen rate (populateMutableParamsFromYaml model))
    (stepStage rate (populateMutableParamsFromYaml model))
    (fun step hstep => slotStep_realises rate _ (hchain.fixed step hstep)
      fun htype => causalTap_runningTaps hchain hstep htype)
    (prepareSteps_hasSeen rate _ key model identity) slots
  refine ⟨_, streamLane_of_fixed (hp.ensureLinkState model count) hchain.fixed rate hslots, ?_, hvalue⟩
  rw [List.length_flatten, List.length_flatten, hsizes]

omit [Rng ℝ] in
/-- A sample is its complex number. -/
theorem toComplex_injective : Function.Injective Iq.toComplex := by
  rintro ⟨i, q⟩ ⟨i', q'⟩ h
  rw [Iq.mk.injEq]
  exact ⟨congrArg Complex.re h, congrArg Complex.im h⟩

omit [Rng ℝ] in
/-- The signal of a list at a place of it. -/
theorem signal_eq_getElem (xs : List (Iq ℝ)) {n : ℕ} (hn : n < xs.length) :
    Slots.signal Iq.toComplex xs n = xs[n].toComplex := by
  rw [Slots.signal, List.getD_eq_getElem _ _ (by rwa [List.length_map]), List.getElem_map]

omit [Rng ℝ] in
/-- Streams of one length with one signal are equal. -/
theorem eq_of_signal {xs ys : List (Iq ℝ)} (hlength : xs.length = ys.length)
    (h : ∀ n < xs.length, Slots.signal Iq.toComplex xs n = Slots.signal Iq.toComplex ys n) :
    xs = ys := by
  refine List.ext_getElem hlength fun n hx hy => toComplex_injective ?_
  rw [← signal_eq_getElem xs hx, ← signal_eq_getElem ys hy]
  exact h n hx

omit [Rng ℝ] in
/-- A chain keeps its stream exactly if a step is silent or every step fits. -/
theorem keepsStream_iff {model : ModelConfig ℝ} (hchain : FixedChain model.chain) (rate : ℕ) :
    ((∃ stage ∈ chainStages model rate, stage.Silent) ∨ ∀ stage ∈ chainStages model rate, stage.Fits) ↔
      KeepsStream model := by
  unfold chainStages KeepsStream
  simp only [List.mem_map, exists_exists_and_eq_and, forall_exists_index, and_imp,
    forall_apply_eq_imp_iff₂]
  refine or_congr ?_ ?_
  · exact exists_congr fun step => and_congr_right fun hstep =>
      stepStage_silent_iff rate model (hchain.fixed step hstep)
  · exact forall₂_congr fun step hstep => stepStage_fits_iff rate model (hchain.fixed step hstep)

/-- The samples of a signal. -/
def samples (x : ℕ → ℂ) (limit : ℕ) : List (Iq ℝ) :=
  (List.range limit).map fun n => ⟨(x n).re, (x n).im⟩

omit [Rng ℝ] in
/-- The samples of a signal are the signal, below their number. -/
theorem signal_samples (x : ℕ → ℂ) {limit n : ℕ} (hn : n < limit) :
    Slots.signal Iq.toComplex (samples x limit) n = x n := by
  rw [signal_eq_getElem _ (by simpa [samples] using hn)]
  unfold samples
  rw [List.getElem_map, List.getElem_range]
  rfl

/-- A chain that loses samples at a cut shows it on some stream. -/
theorem keepsStream_of_cuts_agree {model : ModelConfig ℝ} (hchain : FixedChain model.chain)
    (h : FragmentationInvariant model) : KeepsStream model := by
  rw [← keepsStream_iff hchain 0]
  by_contra hlossy
  obtain ⟨hloud, hfit⟩ := not_or.mp hlossy
  have hproper : ∀ stage ∈ chainStages model 0, stage.Proper := by
    unfold chainStages
    rw [List.forall_mem_map]
    exact fun step hstep => stepStage_proper 0 model (hchain.fixed step hstep)
  obtain ⟨p, x, n, hne⟩ := Slots.cuts_differ hproper
    (fun stage hstage hsilent => hloud ⟨stage, hstage, hsilent⟩) hfit
  have hp : 0 < p := by
    by_contra hzero
    have hstart : Slots.cutAt p = fun _ => 0 := by
      funext m
      unfold Slots.cutAt
      split_ifs <;> omega
    exact hne (by rw [hstart])
  -- the stream is long enough to be cut at `p` and to show the difference at `n`
  let limit := n + p + 1
  have hlength : (samples x limit).length = limit := by simp [samples]
  have hnew : NewLane (CpuChannelProcessor.empty : CpuChannelProcessor ℝ) "" { physicalLinkKey := "" } :=
    ⟨rfl, fun link hlink => by cases hlink⟩
  have hwhole : ∀ slot ∈ [samples x limit], slot ≠ [] := by
    intro slot hslot hnil
    rw [List.mem_singleton.mp hslot] at hnil
    have hzero := congrArg List.length hnil
    rw [hlength, List.length_nil] at hzero
    omega
  have hcut : ∀ slot ∈ [(samples x limit).take p, (samples x limit).drop p], slot ≠ [] := by
    intro slot hslot hnil
    rcases List.mem_cons.mp hslot with rfl | hslot
    · have hzero := congrArg List.length hnil
      rw [List.length_take, hlength, List.length_nil] at hzero
      omega
    · rw [List.mem_singleton.mp hslot] at hnil
      have hzero := congrArg List.length hnil
      rw [List.length_drop, hlength, List.length_nil] at hzero
      omega
  have hflat : [(samples x limit).take p, (samples x limit).drop p].flatten = samples x limit := by
    rw [List.flatten_cons, List.flatten_cons, List.flatten_nil, List.append_nil, List.take_append_drop]
  have hflat' : [samples x limit].flatten = samples x limit := by
    rw [List.flatten_cons, List.flatten_nil, List.append_nil]
  obtain ⟨outs, outs', hrun, hrun', heq⟩ := h.cuts_agree _ _ _ 0 0 hnew _ _ hwhole hcut
    (hflat'.trans hflat.symm)
  obtain ⟨_, hok, -, hvalue⟩ := streamLane_signal hchain hnew 0 0 hwhole
  obtain ⟨_, hok', -, hvalue'⟩ := streamLane_signal hchain hnew 0 0 hcut
  rw [hrun, Except.ok.injEq] at hok
  rw [hrun', Except.ok.injEq] at hok'
  subst hok hok'
  rw [hflat', hlength] at hvalue
  rw [hflat, hlength] at hvalue'
  refine hne ?_
  have hn : n < limit := by omega
  have hsignal : ∀ m < limit, Slots.signal Iq.toComplex (samples x limit) m = x m :=
    fun m hm => signal_samples x hm
  calc Slots.cascade (fun _ => 0) (chainStages model 0) x n
      = Slots.cascade (Slots.start ([samples x limit].map List.length)) (chainStages model 0)
          (Slots.signal Iq.toComplex (samples x limit)) n := by
        rw [Slots.cascade_congr _ _ limit hsignal n hn]
        refine Slots.cascade_start_congr _ limit x (fun m hm => ?_) n hn
        rw [List.map_cons, hlength, Slots.start, if_pos hm]
    _ = Slots.signal Iq.toComplex outs.flatten n := (hvalue n hn).symm
    _ = Slots.signal Iq.toComplex outs'.flatten n := by rw [heq]
    _ = Slots.cascade (Slots.start
          ([(samples x limit).take p, (samples x limit).drop p].map List.length))
          (chainStages model 0) (Slots.signal Iq.toComplex (samples x limit)) n := hvalue' n hn
    _ = Slots.cascade (Slots.cutAt p) (chainStages model 0) x n := by
        rw [Slots.cascade_congr _ _ limit hsignal n hn]
        refine Slots.cascade_start_congr _ limit x (fun m hm => ?_) n hn
        rw [List.map_cons, List.map_cons, List.length_take, List.length_drop, hlength,
          min_eq_left (by omega), Slots.start, Slots.cutAt]
        by_cases hmp : m < p
        · rw [if_pos hmp, if_pos hmp]
        · rw [if_neg hmp, if_neg hmp, Slots.start, if_pos (by omega), add_zero]

/-- **Fragmentation.** Whole delays, and delays from three samples on, have causal kernels.  For a
chain of path losses, gains, rotations and non-fading tdl steps with causal kernels, the output of
a lane does not depend on how its stream is cut into slots, and that of one tdl step is the direct
convolution, if and only if every ring holds what the leading tap reads or some step is silent. -/
theorem fragmentation_invariant :
    (∀ tap : TapSpec ℝ, 0 ≤ tap.delaySamples →
      ((∃ d : ℤ, tap.delaySamples = d) ∨ 3 ≤ tap.delaySamples) → CausalTap tap) ∧
    ∀ model : ModelConfig ℝ, FixedChain model.chain →
      (FragmentationInvariant model ↔ KeepsStream model) := by
  refine ⟨fun tap => causalTap_of_delay, fun model hchain =>
    ⟨keepsStream_of_cuts_agree hchain, fun hkeeps => ⟨?_, ?_⟩⟩⟩
  -- both cuts read the same filter at the same samples
  · intro p key identity count rate hp slots slots' hslots hslots' hflat
    obtain ⟨outs, hrun, hlength, hvalue⟩ := streamLane_signal hchain hp count rate hslots
    obtain ⟨outs', hrun', hlength', hvalue'⟩ := streamLane_signal hchain hp count rate hslots'
    refine ⟨outs, outs', hrun, hrun', eq_of_signal (by rw [hlength, hlength', hflat]) ?_⟩
    intro n hn
    rw [hlength] at hn
    rw [hvalue n hn, hvalue' n (by rwa [← hflat]), hflat]
    exact congrFun (Slots.cuts_agree (Slots.start_le _) (Slots.start_le _)
      ((keepsStream_iff hchain rate).mpr hkeeps) _) n
  -- a lone TDL step runs the taps it declares
  · intro step hstep htype p key identity count rate hp slots hslots
    obtain ⟨outs, hrun, hlength, hvalue⟩ := streamLane_signal hchain hp count rate hslots
    refine ⟨outs, hrun, hlength, fun n hn => ?_⟩
    have hmem : step ∈ model.chain := by
      rw [hstep]
      exact List.mem_singleton_self step
    have hown : runningTaps model step = step.taps := by
      refine (tdl_eq_declared_iff model step.taps).mpr fun tap htap => ?_
      have hscanned : scannedTap model.chain = tap := by
        rw [scannedTap, hstep, leadingTap?, if_pos htype, htap]
        rfl
      rw [hscanned]
      exact ⟨rfl, rfl, rfl, fun _ => rfl⟩
    have hfits : (stepStage rate (populateMutableParamsFromYaml model) step).Fits := by
      rw [stepStage_of_tdl rate model htype, hown]
      exact fun lag hlag => response_eq_zero fun tap htap i hi =>
        absurd (lag_le_ringSize htap i) (by omega)
    have hcausal := causalTap_runningTaps hchain hmem htype
    rw [hown] at hcausal
    rw [hvalue n hn, chainStages, hstep, List.map_cons, List.map_nil, Slots.cascade_cons]
    show Slots.Stage.value _ _ _ n = _
    rw [Slots.Stage.value_of_fits hfits (Slots.start_le _ n), stepStage_of_tdl rate model htype, hown,
      directConvolution_eq_response hcausal _ n (n + 1)]
    · refine Finset.sum_congr rfl fun lag hlag => ?_
      rw [Finset.mem_range] at hlag
      rw [if_pos (Nat.zero_le _), extended, if_neg (by omega), show ((n : ℤ) - lag).toNat = n - lag by omega]
    · intro lag hlag
      rw [extended, if_pos (by omega)]

end Cuts

end

/-! ## Concrete chains -/

/-- A tdl step with one tap of this delay. -/
def echoStep {K : Type} [Field K] (delay : K) : ModelStep K :=
  { type := .tdl, taps := [{ (default : TapSpec K) with delaySamples := delay }], tapsDeclared := true
    fadingFDMaxHz := 0, fadingGridUs := 100 }

/-- Two echoes in a row. -/
def echoModel {K : Type} [Field K] (first second : K) : ModelConfig K :=
  { id := "m", chain := [echoStep first, echoStep second] }

/-- No noise. -/
abbrev noNoise : Rng ℝ := ⟨fun _ => 0, fun _ _ => 0, fun _ _ => 0⟩

theorem fragmentation_invariant_echoes : @FragmentationInvariant noNoise (echoModel 20 17) := by
  have hsteps : ∀ {P : ModelStep ℝ → Prop}, P (echoStep 20) → P (echoStep 17) →
      ∀ step ∈ (echoModel (20 : ℝ) 17).chain, P step := fun h₁ h₂ =>
    List.forall_mem_cons.mpr ⟨h₁, List.forall_mem_singleton.mpr h₂⟩
  have hcausal : ∀ d : ℤ, 0 ≤ d → ∀ tap ∈ (echoStep (d : ℝ)).taps, CausalTap tap := by
    intro d hd tap htap
    rw [List.mem_singleton.mp htap]
    exact causalTap_of_delay (Int.cast_nonneg hd) (Or.inl ⟨d, rfl⟩)
  have hchain : FixedChain (echoModel (20 : ℝ) 17).chain := by
    constructor
    · exact hsteps ⟨by decide, fun _ => rfl⟩ ⟨by decide, fun _ => rfl⟩
    · exact hsteps (fun _ => hcausal 20 (by norm_num)) (fun _ => hcausal 17 (by norm_num))
  refine ((@fragmentation_invariant noNoise).2 (echoModel 20 17) hchain).mpr (Or.inr ?_)
  -- both rings hold 20 samples and more
  have hreach : ∀ d : ℤ, 17 ≤ d →
      RingReaches (scannedTap (echoModel (20 : ℝ) 17).chain) (echoStep (d : ℝ)).taps := by
    intro d hd i hi
    have hthree : (i.val : ℤ) = 3 := by
      by_contra hne
      exact hi (tapPolyphase_of_integer (d := 20) rfl hne)
    have hring := lag_le_ringSize (List.mem_singleton_self
      { (default : TapSpec ℝ) with delaySamples := (d : ℝ) }) (Fin.last 7)
    have hscanned : ⌊(scannedTap (echoModel (20 : ℝ) 17).chain).delaySamples⌋ = 20 :=
      Int.floor_intCast (20 : ℤ)
    rw [hscanned, hthree]
    rw [Int.floor_intCast] at hring
    have hseven : ((Fin.last 7).val : ℤ) = 7 := rfl
    rw [hseven] at hring
    show (20 : ℤ) + 3 - 3 ≤ ringSize [{ (default : TapSpec ℝ) with delaySamples := (d : ℝ) }]
    omega
  exact hsteps (fun _ _ => hreach 20 (by norm_num)) (fun _ _ => hreach 17 (by norm_num))

/-- An impulse, in slots of these sizes. -/
def impulseSlots : List ℕ → List (List (Iq ℚ))
  | [] => []
  | size :: sizes => ((⟨1, 0⟩ : Iq ℚ) :: List.replicate (size - 1) 0) ::
      sizes.map fun size => List.replicate size 0

/-- What a new lane with this model makes of an impulse. -/
def impulseOutput (model : ModelConfig ℚ) (sizes : List ℕ) : Option (List (Iq ℚ)) :=
  ((CpuChannelProcessor.empty.ensureLinkState "l" model 60 { physicalLinkKey := "l" }).streamLane
    "l" model 23040000 (impulseSlots sizes)).toOption.map List.flatten

/-- The second of two echoes runs with the delay of the first and a ring for its own: the impulse
comes out after 40 samples, or not at all when the stream is cut on the way. -/
theorem later_ring_loses_samples :
    FixedChain (echoModel (20 : ℚ) 0).chain ∧
      (impulseSlots [60]).flatten = (impulseSlots [30, 30]).flatten ∧
      impulseOutput (echoModel 20 0) [60] =
        some (List.replicate 40 0 ++ ⟨1, 0⟩ :: List.replicate 19 0) ∧
      impulseOutput (echoModel 20 0) [30, 30] = some (List.replicate 60 0) := by
  refine ⟨⟨?_, ?_⟩, by decide +kernel, by decide +kernel, by decide +kernel⟩
  · show ∀ step ∈ [echoStep (20 : ℚ), echoStep 0],
      step.type ≠ .awgn ∧ (step.type = .tdl → step.fadingEnabled = false)
    decide +kernel
  · show ∀ step ∈ [echoStep (20 : ℚ), echoStep 0], step.type = .tdl → ∀ tap ∈ step.taps,
      ∀ i : Fin kTdlFracFilterTaps, ⌊tap.delaySamples⌋ + (i.val : ℤ) < 3 → tapPolyphase tap i = 0
    decide +kernel
