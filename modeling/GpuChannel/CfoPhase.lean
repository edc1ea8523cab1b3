/-
# The phase of a carrier offset

The rotation of the `phase` and `cfo` steps in exact arithmetic.  The CPU adds the increment to the
phase of the step after every sample and wraps it above a full turn; the GPU starts a batch at the
phase of the step, multiplies the increment by the sample's index, and wraps once per batch.
Modulo a full turn both rotate a sample by the fixed phase and the increments of all samples the
step rotated before it, whatever the batch sizes and whenever `cfo_hz` changed.
-/
import GpuChannel.CudaSteps
import GpuChannel.RealScalars
import GpuChannel.Library.Checked

noncomputable section

/-! ## Modulo a full turn -/

/-- `fmod` by a full turn is the same angle. -/
theorem coe_fmod_two_pi (x : ℝ) : ((fmod x (2 * Real.pi) : ℝ) : Real.Angle) = x := by
  unfold fmod
  rw [Real.Angle.coe_sub, Real.Angle.intCast_mul_eq_zsmul, Real.Angle.coe_two_pi, smul_zero,
    sub_zero]

/-- The conditional wrap of the CPU is the same angle. -/
theorem coe_wrapPhase (x : ℝ) : ((wrapPhase x : ℝ) : Real.Angle) = x := by
  unfold wrapPhase
  split_ifs
  · exact coe_fmod_two_pi x
  · rfl

/-- A sample is rotated alike by two phases that are the same angle. -/
theorem rotate_congr (s : Iq ℝ) {a b : ℝ} (h : (a : Real.Angle) = b) : s.rotate a = s.rotate b := by
  have hcos : Real.cos a = Real.cos b := by
    rw [← Real.Angle.cos_coe, h, Real.Angle.cos_coe]
  have hsin : Real.sin a = Real.sin b := by
    rw [← Real.Angle.sin_coe, h, Real.Angle.sin_coe]
  show Iq.mk (_ * Real.cos a - _ * Real.sin a) (_ * Real.sin a + _ * Real.cos a) = _
  rw [hcos, hsin]
  rfl

/-! ## Histories -/

/-- One batch as a step sees it: the `cfo_hz` in force, the sample rate, and the samples. -/
structure Batch where
  cfoHz : ℝ
  sampleRateHz : ℕ
  count : ℕ

/-- The step rotates. -/
def rotates (step : ModelStep ℝ) : Prop := step.type = .phase ∨ step.type = .cfo

/-- What one sample of a batch adds to the phase of the step: a `phase` step stands still. -/
def Batch.increment (step : ModelStep ℝ) (b : Batch) : ℝ :=
  if step.type = .cfo then 2 * Real.pi * b.cfoHz / b.sampleRateHz else 0

/-- The increments of all samples of some batches, in the order in which they were processed. -/
def earlierIncrements (step : ModelStep ℝ) (history : List Batch) : List ℝ :=
  history.flatMap fun b => List.replicate b.count (b.increment step)

/-- **The declared phase**: the fixed phase, and the increments of every earlier sample of the
step, the first `n` samples of the current batch among them. -/
def declaredPhase (step : ModelStep ℝ) (history : List Batch) (current : Batch) (n : ℕ) : ℝ :=
  step.paramOr "phase_rad" 0 +
    (earlierIncrements step history ++ List.replicate n (current.increment step)).sum

theorem sum_earlierIncrements_snoc (step : ModelStep ℝ) (history : List Batch) (b : Batch) :
    (earlierIncrements step (history ++ [b])).sum =
      (earlierIncrements step history).sum + b.count * b.increment step := by
  rw [earlierIncrements, List.flatMap_append, List.flatMap_singleton, List.sum_append,
    List.sum_replicate, nsmul_eq_mul]
  rfl

theorem declaredPhase_eq (step : ModelStep ℝ) (history : List Batch) (current : Batch) (n : ℕ) :
    declaredPhase step history current n = step.paramOr "phase_rad" 0 +
      ((earlierIncrements step history).sum + n * current.increment step) := by
  rw [declaredPhase, List.sum_append, List.sum_replicate, nsmul_eq_mul]

/-- The increment of both backends. -/
theorem phaseIncrement_eq (step : ModelStep ℝ) (b : Batch) :
    phaseIncrement (if step.type = .cfo then b.cfoHz else 0) b.sampleRateHz = b.increment step := by
  unfold phaseIncrement Batch.increment
  by_cases hrate : b.sampleRateHz = 0
  · rw [if_pos hrate, hrate]
    simp
  · rw [if_neg hrate]
    split_ifs
    · rfl
    · simp

/-! ## The CPU -/

/-- The phases of the rotation loop: the one of each sample, and the one it ends with. -/
def rotationPhases (fixedPhase increment : ℝ) : ℝ → ℕ → List ℝ × ℝ
  | phase, 0 => ([], phase)
  | phase, n + 1 =>
      let rest := rotationPhases fixedPhase increment (wrapPhase (phase + increment)) n
      ((fixedPhase + phase) :: rest.1, rest.2)

/-- The loop rotates each sample by its phase. -/
theorem rotateSamples_eq (fixedPhase increment phase : ℝ) (xs : List (Iq ℝ)) :
    rotateSamples fixedPhase increment phase xs =
      (List.zipWith Iq.rotate xs (rotationPhases fixedPhase increment phase xs.length).1,
        (rotationPhases fixedPhase increment phase xs.length).2) := by
  induction xs generalizing phase with
  | nil => rfl
  | cons x xs ih =>
      rw [rotateSamples, ih]
      rfl

/-- **The accumulator counts the samples**, modulo a full turn. -/
theorem rotationPhases_spec (fixedPhase increment : ℝ) (count : ℕ) :
    ∀ phase : ℝ,
      (rotationPhases fixedPhase increment phase count).1.length = count ∧
      (∀ (n : ℕ) (θ : ℝ), (rotationPhases fixedPhase increment phase count).1[n]? = some θ →
        (θ : Real.Angle) = (fixedPhase + (phase + n * increment) : ℝ)) ∧
      ((rotationPhases fixedPhase increment phase count).2 : Real.Angle) =
        (phase + count * increment : ℝ) := by
  -- the accumulator is wrapped at every sample, which no angle sees
  induction count with
  | zero =>
      intro phase
      refine ⟨rfl, ?_, ?_⟩
      · intro n θ h
        cases h
      · rw [Nat.cast_zero, zero_mul, add_zero]
        rfl
  | succ count ih =>
      intro phase
      obtain ⟨hlen, hat, hlast⟩ := ih (wrapPhase (phase + increment))
      have hshift : ∀ x : ℝ, ((wrapPhase (phase + increment) + x : ℝ) : Real.Angle) =
          (phase + increment + x : ℝ) := by
        intro x
        rw [Real.Angle.coe_add, coe_wrapPhase, ← Real.Angle.coe_add]
      refine ⟨?_, ?_, ?_⟩
      · show (_ :: (rotationPhases fixedPhase increment (wrapPhase (phase + increment)) count).1).length
          = count + 1
        rw [List.length_cons, hlen]
      · intro n θ h
        cases n with
        | zero =>
            obtain rfl := Option.some.inj h
            rw [Nat.cast_zero, zero_mul, add_zero]
        | succ n =>
            rw [hat n θ h, Real.Angle.coe_add, hshift, ← Real.Angle.coe_add, Nat.cast_succ]
            congr 1
            ring
      · show ((rotationPhases fixedPhase increment (wrapPhase (phase + increment)) count).2 :
          Real.Angle) = _
        rw [hlast, hshift, Nat.cast_succ]
        congr 1
        ring

section Cpu

variable [Rng ℝ]

/-- **The steps of one lane on the CPU**, from its preparation over any number of snaps and
batches. -/
inductive CpuHistory (model : ModelConfig ℝ) : List Batch → LinkState ℝ → Prop
  | prepared (key : String) (identity : LaneIdentity) :
      CpuHistory model []
        { LinkState.bound model identity with
          steps := prepareSteps key model identity
          live := populateMutableParamsFromYaml model }
  | snapped {history : List Batch} {st : LinkState ℝ} (h : CpuHistory model history st)
      (link : PhysicalLinkRuntime ℝ) (outcome : LinkSnapOutcome) :
      CpuHistory model history (CpuChannelProcessor.refreshLane link outcome st)
  | shaped {history : List Batch} {st : LinkState ℝ} (h : CpuHistory model history st)
      (ctx : ChainContext ℝ) (input : List (Iq ℝ)) (run : ChainRun ℝ) (hlive : ctx.live = st.live)
      (hrun : runChain ctx 0 model.chain st.steps input = .ok run) :
      CpuHistory model (history ++ [⟨st.live.cfoHz, ctx.sampleRateHz, input.length⟩])
        { st with steps := run.states }

/-- The phases of the rotating steps, as far as they count the samples of the history. -/
def Phased (model : ModelConfig ℝ) (history : List Batch) (phases : List ℝ) : Prop :=
  phases.length = model.chain.length ∧
    ∀ (i : ℕ) (step : ModelStep ℝ) (phase : ℝ), model.chain[i]? = some step → phases[i]? = some phase →
      rotates step → (phase : Real.Angle) = (earlierIncrements step history).sum

/-- One round of the step loop: the samples that reach step `i`, and what the step makes of
them. -/
theorem runChain_at (ctx : ChainContext ℝ) (chain : List (ModelStep ℝ)) :
    ∀ (k : ℕ) (states : List (StepState ℝ)) (input : List (Iq ℝ)) (run : ChainRun ℝ),
      runChain ctx k chain states input = .ok run →
      ∀ i step st, chain[i]? = some step → states[i]? = some st →
        ∃ current next st' use,
          (runChain ctx k (chain.take i) states input).map (·.out) = .ok current ∧
          stepUse ctx.live ctx.link ctx.laneIndex step st = .ok use ∧
          runStep ctx (k + i) step use st current = .ok (next, st') ∧
          (runChain ctx k (chain.take (i + 1)) states input).map (·.out) = .ok next ∧
          run.states[i]? = some st' := by
  -- induction on the chain; the step asked for is the first one, or one behind it
  induction chain with
  | nil =>
      intro k states input run _ i step st hstep
      cases hstep
  | cons first chain ih =>
      intro k states input run hrun i step st hstep hst
      cases states with
      | nil => cases hst
      | cons st₀ states =>
          obtain ⟨use, huse, hrest⟩ := bind_eq_ok hrun
          obtain ⟨⟨next, st₁⟩, hdo, hrest⟩ := bind_eq_ok hrest
          obtain ⟨rest, htail, hpure⟩ := bind_eq_ok hrest
          cases hpure
          -- the front of the chain runs its first step as the whole chain does
          have hhead : ∀ l, runChain ctx k (first :: l) (st₀ :: states) input =
              (do let r ← runChain ctx (k + 1) l states next
                  pure ⟨r.out, st₁ :: r.states, use :: r.uses⟩) := by
            intro l
            show (stepUse _ _ _ _ _ >>= _) = _
            rw [huse]
            show (runStep _ _ _ _ _ _ >>= _) = _
            rw [hdo]
            rfl
          cases i with
          | zero =>
              cases hstep
              cases hst
              refine ⟨input, next, st₁, use, ?_, huse, hdo, ?_, rfl⟩
              · cases first
                rfl
              · rw [List.take_succ_cons, List.take_zero, hhead]
                cases states with
                | nil => rfl
                | cons st₂ states => rfl
          | succ i =>
              obtain ⟨current, out, st', use', hbefore, huse', hdo', hafter, hstate⟩ :=
                ih (k + 1) states next rest htail i step st hstep hst
              refine ⟨current, out, st', use', ?_, huse', ?_, ?_, hstate⟩
              · rw [List.take_succ_cons, hhead]
                cases htake : runChain ctx (k + 1) (chain.take i) states next with
                | error e =>
                    rw [htake] at hbefore
                    cases hbefore
                | ok r =>
                    rw [htake] at hbefore
                    exact hbefore
              · rw [show k + (i + 1) = k + 1 + i by omega]
                exact hdo'
              · rw [List.take_succ_cons, hhead]
                cases htake : runChain ctx (k + 1) (chain.take (i + 1)) states next with
                | error e =>
                    rw [htake] at hafter
                    cases hafter
                | ok r =>
                    rw [htake] at hafter
                    exact hafter

omit [Rng ℝ] in
/-- Noise gives as many samples as it takes. -/
theorem length_addNoise {K : Type} [Field K] [LinearOrder K] [FloorRing K] [Libm K] [Rng K]
    (sigma : K) (seed draw : ℕ) (xs : List (Iq K)) :
    (addNoise sigma seed draw xs).length = xs.length := by
  induction xs generalizing draw with
  | nil => rfl
  | cons x xs ih =>
      show (_ :: addNoise sigma seed (draw + 2) xs).length = _
      rw [List.length_cons, List.length_cons, ih]

omit [Rng ℝ] in
/-- A rotation gives as many samples as it takes. -/
theorem length_rotateSamples {K : Type} [Field K] [LinearOrder K] [FloorRing K] [Libm K]
    (fixedPhase increment phase : K) (xs : List (Iq K)) :
    (rotateSamples fixedPhase increment phase xs).1.length = xs.length := by
  induction xs generalizing phase with
  | nil => rfl
  | cons x xs ih =>
      show (_ :: (rotateSamples fixedPhase increment (wrapPhase (phase + increment)) xs).1).length = _
      rw [List.length_cons, List.length_cons, ih]

omit [Rng ℝ] in
/-- A step shapes as many samples as it is given. -/
theorem runStep_length {K : Type} [Field K] [LinearOrder K] [FloorRing K] [Libm K] [Rng K]
    {ctx : ChainContext K} {k : ℕ} {step : ModelStep K} {use : StepUse K} {st st' : StepState K}
    {current next : List (Iq K)}
    (h : runStep ctx k step use st current = .ok (next, st')) : next.length = current.length := by
  cases use with
  | pathLoss db =>
      cases h
      exact List.length_map _
  | gain db =>
      cases h
      exact List.length_map _
  | noisePower power =>
      cases h
      exact length_addNoise ..
  | noiseSnr db =>
      cases h
      exact length_addNoise ..
  | rotation phaseRad cfoHz =>
      cases h
      exact length_rotateSamples ..
  | tdl taps polyphase =>
      obtain ⟨shaped, hshaped, hpure⟩ := bind_eq_ok h
      cases hpure
      have hstatic : (applyTdlStep current taps polyphase st.delayLine).1.length =
          current.length := by
        show ((List.range current.length).map _).length = _
        rw [List.length_map, List.length_range]
      unfold shapeTdl at hshaped
      split_ifs at hshaped with hfading
      · unfold applyTdlStepFading at hshaped
        split_ifs at hshaped
        · cases hshaped
          exact hstatic
        · cases hshaped
          rw [List.length_map, List.length_range]
      · cases hshaped
        exact hstatic

omit [Rng ℝ] in
theorem runChain_length {K : Type} [Field K] [LinearOrder K] [FloorRing K] [Libm K] [Rng K]
    (ctx : ChainContext K) (chain : List (ModelStep K)) :
    ∀ (k : ℕ) (states : List (StepState K)) (input : List (Iq K)) (run : ChainRun K),
      runChain ctx k chain states input = .ok run →
      run.out.length = input.length ∧ run.states.length = states.length := by
  induction chain with
  | nil =>
      intro k states input run hrun
      cases states with
      | nil =>
          cases hrun
          exact ⟨rfl, rfl⟩
      | cons st states =>
          cases hrun
          exact ⟨rfl, rfl⟩
  | cons step chain ih =>
      intro k states input run hrun
      cases states with
      | nil =>
          cases hrun
          exact ⟨rfl, rfl⟩
      | cons st states =>
          obtain ⟨use, huse, hrest⟩ := bind_eq_ok hrun
          obtain ⟨⟨next, st₁⟩, hdo, hrest⟩ := bind_eq_ok hrest
          obtain ⟨rest, htail, hpure⟩ := bind_eq_ok hrest
          cases hpure
          obtain ⟨hout, hstates⟩ := ih (k + 1) states next rest htail
          exact ⟨hout.trans (runStep_length hdo), congrArg (· + 1) hstates⟩

omit [Rng ℝ] in
/-- What a rotating step reads. -/
theorem stepUse_of_rotates {live : MutableParams ℝ} {link : PhysicalLinkRuntime ℝ} {lane : ℕ}
    {step : ModelStep ℝ} {st : StepState ℝ} (h : rotates step) :
    stepUse live link lane step st = .ok (.rotation (step.paramOr "phase_rad" 0)
      (if step.type = .cfo then live.cfoHz else 0)) := by
  unfold stepUse
  rcases h with h | h
  · rw [h]
    rfl
  · rw [h]
    rfl

/-- **One batch of a rotating step on the CPU**: the phases of its samples, and the phase it
leaves. -/
theorem cpu_batch {model : ModelConfig ℝ} {history : List Batch} {states : List (StepState ℝ)}
    (h : Phased model history (states.map (·.phaseRad))) {ctx : ChainContext ℝ}
    {input : List (Iq ℝ)} {run : ChainRun ℝ}
    (hrun : runChain ctx 0 model.chain states input = .ok run) {i : ℕ} {step : ModelStep ℝ}
    (hstep : model.chain[i]? = some step) (hrot : rotates step) :
    let batch : Batch := ⟨ctx.live.cfoHz, ctx.sampleRateHz, input.length⟩
    ∃ current phases st',
      (runChain ctx 0 (model.chain.take i) states input).map (·.out) = .ok current ∧
      (runChain ctx 0 (model.chain.take (i + 1)) states input).map (·.out) =
        .ok (List.zipWith Iq.rotate current phases) ∧
      current.length = input.length ∧ phases.length = input.length ∧
      (∀ (n : ℕ) (θ : ℝ), phases[n]? = some θ →
        (θ : Real.Angle) = declaredPhase step history batch n) ∧
      run.states[i]? = some st' ∧
      (st'.phaseRad : Real.Angle) = (earlierIncrements step (history ++ [batch])).sum := by
  intro batch
  obtain ⟨hlen, hphase⟩ := h
  rw [List.length_map] at hlen
  have hi : i < states.length := by
    rw [hlen]
    exact (List.getElem?_eq_some_iff.mp hstep).1
  obtain ⟨current, next, st', use, hbefore, huse, hdo, hafter, hstate⟩ :=
    runChain_at ctx model.chain 0 states input run hrun i step _ hstep
      (List.getElem?_eq_getElem hi)
  rw [stepUse_of_rotates hrot] at huse
  cases huse
  -- the steps before this one keep the number of samples
  have hcurrent : current.length = input.length := by
    cases htake : runChain ctx 0 (model.chain.take i) states input with
    | error e =>
        rw [htake] at hbefore
        cases hbefore
    | ok r =>
        rw [htake] at hbefore
        cases hbefore
        exact (runChain_length ctx _ 0 states input r htake).1
  -- the phase that the step starts with is what the earlier batches added up to
  have hstart := hphase i step states[i].phaseRad hstep
    (by rw [List.getElem?_map, List.getElem?_eq_getElem hi]; rfl) hrot
  have hincrement : phaseIncrement (if step.type = .cfo then ctx.live.cfoHz else 0)
      ctx.sampleRateHz = batch.increment step := phaseIncrement_eq step batch
  have hdo' := Except.ok.inj hdo
  rw [rotateSamples_eq, hincrement] at hdo'
  cases hdo'
  obtain ⟨hcount, hat, hlast⟩ := rotationPhases_spec (step.paramOr "phase_rad" 0)
    (batch.increment step) current.length states[i].phaseRad
  refine ⟨current, _, _, hbefore, hafter, hcurrent, hcount.trans hcurrent, ?_, hstate, ?_⟩
  · intro n θ hn
    rw [hat n θ hn, declaredPhase_eq, Real.Angle.coe_add, Real.Angle.coe_add, hstart,
      ← Real.Angle.coe_add, ← Real.Angle.coe_add]
  · have hsize : (batch.count : ℝ) = current.length := by rw [hcurrent]
    rw [sum_earlierIncrements_snoc, Real.Angle.coe_add, ← hstart, ← Real.Angle.coe_add, hsize]
    exact hlast

omit [Rng ℝ] in
/-- A snap changes delay lines and live values, and no phase. -/
theorem refreshLane_phases (link : PhysicalLinkRuntime ℝ) (outcome : LinkSnapOutcome)
    (st : LinkState ℝ) : (CpuChannelProcessor.refreshLane link outcome st).steps.map (·.phaseRad) =
      st.steps.map (·.phaseRad) := by
  have hclear : ∀ steps : List (StepState ℝ),
      (steps.map fun step => { step with delayLine := step.delayLine.map fun _ => 0 }).map
        (·.phaseRad) = steps.map (·.phaseRad) := by
    intro steps
    rw [List.map_map]
    rfl
  unfold CpuChannelProcessor.refreshLane
  dsimp only
  by_cases hreset : outcome.historyResetRequired = true
  · rw [if_pos hreset]
    dsimp only
    rw [hclear]
    split
    · split_ifs
      · rfl
      · rfl
    · split_ifs
      · cases st.steps with
        | nil => rfl
        | cons first rest => rfl
      · cases st.steps with
        | nil => rfl
        | cons first rest => rfl
  · rw [if_neg hreset]
    split_ifs
    · rfl
    · rfl

/-- The phases of the steps count the samples of any history. -/
theorem CpuHistory.phased {model : ModelConfig ℝ} {history : List Batch} {st : LinkState ℝ}
    (h : CpuHistory model history st) : Phased model history (st.steps.map (·.phaseRad)) := by
  -- a history starts where the steps are prepared and grows by one batch
  induction h with
  | prepared key identity =>
      refine ⟨?_, ?_⟩
      · show ((prepareSteps key model identity).map _).length = _
        rw [List.length_map, prepareSteps, List.length_mapIdx]
      · intro i step phase _ hphase _
        have hzero : phase = 0 := by
          change ((prepareSteps key model identity).map _)[i]? = some phase at hphase
          rw [prepareSteps, List.getElem?_map, List.getElem?_mapIdx] at hphase
          cases hstep : model.chain[i]? with
          | none =>
              rw [hstep] at hphase
              cases hphase
          | some step' =>
              rw [hstep] at hphase
              have hval := Option.some.inj hphase
              rw [← hval]
              dsimp only
              split_ifs
              · rfl
              · rfl
        rw [hzero]
        rfl
  | snapped h link outcome ih =>
      rw [refreshLane_phases]
      exact ih
  | shaped h ctx input run hlive hrun ih =>
      obtain ⟨hlen, hphase⟩ := ih
      rw [List.length_map] at hlen
      obtain ⟨-, hstates⟩ := runChain_length ctx _ 0 _ input run hrun
      refine ⟨?_, ?_⟩
      · rw [List.length_map]
        exact hstates.trans hlen
      · intro i step phase hstep hat hrot
        obtain ⟨-, -, st', -, -, -, -, -, hst', hsum⟩ := cpu_batch ⟨by
          rw [List.length_map]
          exact hlen, hphase⟩ hrun hstep hrot
        change (run.states.map _)[i]? = some phase at hat
        rw [List.getElem?_map, hst'] at hat
        cases hat
        rw [← hlive]
        exact hsum

end Cpu

/-! ## The GPU -/

section Gpu

variable [Rng ℝ] [Curand ℝ]

/-- **The model state of one lane on the GPU**, over any number of live values and batches. -/
inductive CudaHistory (model : ModelConfig ℝ) : List Batch → LinkModelState ℝ → Prop
  | prepared (seedPrefix : String) :
      CudaHistory model [] (initModelState model.chain.length seedPrefix)
  | snapped {history : List Batch} {ms : LinkModelState ℝ} (h : CudaHistory model history ms)
      (live : MutableParams ℝ) : CudaHistory model history { ms with live := live }
  | built {history : List Batch} {ms : LinkModelState ℝ} (h : CudaHistory model history ms)
      (input : Option (List (Iq ℝ))) (sampleCount sampleRateHz : ℕ) :
      CudaHistory model (history ++ [⟨ms.live.cfoHz, sampleRateHz, sampleCount⟩])
        (buildSteps ms model input sampleCount sampleRateHz)

omit [Rng ℝ] [Curand ℝ] in
/-- Step `i` of a built chain. -/
theorem buildChain_at (live : MutableParams ℝ) (sampleCount sampleRateHz : ℕ)
    (chain : List (ModelStep ℝ)) :
    ∀ (phases : List ℝ) (seeds counters : List ℕ) (power : ℝ), phases.length = chain.length →
      seeds.length = chain.length → counters.length = chain.length →
      (buildChain live sampleCount sampleRateHz chain phases seeds counters power).length =
        chain.length ∧
      ∀ (i : ℕ) (step : ModelStep ℝ) (phase : ℝ), chain[i]? = some step →
        phases[i]? = some phase → ∃ seed counter power',
          (buildChain live sampleCount sampleRateHz chain phases seeds counters power)[i]? =
            some (buildStep live sampleCount sampleRateHz step phase seed counter power') := by
  induction chain with
  | nil =>
      intro phases seeds counters power _ _ _
      refine ⟨rfl, ?_⟩
      intro i step phase hstep
      cases hstep
  | cons first chain ih =>
      intro phases seeds counters power hphases hseeds hcounters
      obtain ⟨phase₀, phases, rfl⟩ := List.exists_cons_of_length_eq_add_one hphases
      obtain ⟨seed₀, seeds, rfl⟩ := List.exists_cons_of_length_eq_add_one hseeds
      obtain ⟨counter₀, counters, rfl⟩ := List.exists_cons_of_length_eq_add_one hcounters
      obtain ⟨hlen, hat⟩ := ih phases seeds counters
        (buildStep live sampleCount sampleRateHz first phase₀ seed₀ counter₀ power).runningPower
        (Nat.succ.inj hphases) (Nat.succ.inj hseeds) (Nat.succ.inj hcounters)
      refine ⟨congrArg (· + 1) hlen, ?_⟩
      intro i step phase hstep hphase
      cases i with
      | zero =>
          cases hstep
          cases hphase
          exact ⟨seed₀, counter₀, power, rfl⟩
      | succ i => exact hat i step phase hstep hphase

/-- The tables of a model state have an entry for each step. -/
structure Sized (model : ModelConfig ℝ) (ms : LinkModelState ℝ) : Prop where
  hostSteps : ms.hostSteps.length = model.chain.length
  phases : ms.phaseRad.length = model.chain.length
  seeds : ms.noiseSeed.length = model.chain.length
  counters : ms.noiseCounter.length = model.chain.length

omit [Rng ℝ] [Curand ℝ] in
/-- What `build_steps` writes for step `i`. -/
theorem buildSteps_at {model : ModelConfig ℝ} {ms : LinkModelState ℝ} (h : Sized model ms)
    (input : Option (List (Iq ℝ))) (sampleCount sampleRateHz : ℕ) :
    Sized model (buildSteps ms model input sampleCount sampleRateHz) ∧
      ∀ (i : ℕ) (step : ModelStep ℝ) (phase : ℝ), model.chain[i]? = some step →
        ms.phaseRad[i]? = some phase → ∃ seed counter power,
          let built := buildStep ms.live sampleCount sampleRateHz step phase seed counter power
          (buildSteps ms model input sampleCount sampleRateHz).hostSteps[i]? = some built.step ∧
          (buildSteps ms model input sampleCount sampleRateHz).phaseRad[i]? =
            some built.phaseRad := by
  obtain ⟨power, hpower⟩ : ∃ power,
      let built := buildChain ms.live sampleCount sampleRateHz model.chain ms.phaseRad ms.noiseSeed
        ms.noiseCounter power
      buildSteps ms model input sampleCount sampleRateHz =
        { ms with
          hostSteps := built.map (·.step) ++ ms.hostSteps.drop built.length
          phaseRad := built.map (·.phaseRad) ++ ms.phaseRad.drop built.length
          noiseCounter := built.map (·.noiseCounter) ++ ms.noiseCounter.drop built.length } :=
    ⟨_, rfl⟩
  rw [hpower]
  obtain ⟨hlen, hat⟩ := buildChain_at ms.live sampleCount sampleRateHz model.chain ms.phaseRad
    ms.noiseSeed ms.noiseCounter power h.phases h.seeds h.counters
  have hdrop : ∀ {α : Type} (l : List α), l.length = model.chain.length →
      l.drop (buildChain ms.live sampleCount sampleRateHz model.chain ms.phaseRad ms.noiseSeed
        ms.noiseCounter power).length = [] := by
    intro α l hl
    rw [hlen, ← hl, List.drop_length]
  rw [hdrop _ h.hostSteps, hdrop _ h.phases, hdrop _ h.counters]
  simp only [List.append_nil]
  refine ⟨⟨by rw [List.length_map, hlen], by rw [List.length_map, hlen], h.seeds,
    by rw [List.length_map, hlen]⟩, ?_⟩
  intro i step phase hstep hphase
  obtain ⟨seed, counter, power', hbuilt⟩ := hat i step phase hstep hphase
  refine ⟨seed, counter, power', ?_, ?_⟩
  · rw [List.getElem?_map, hbuilt]
    rfl
  · rw [List.getElem?_map, hbuilt]
    rfl

omit [Rng ℝ] [Curand ℝ] in
/-- What `build_steps` makes of a rotating step. -/
theorem buildStep_of_rotates {live : MutableParams ℝ} {sampleCount sampleRateHz : ℕ}
    {step : ModelStep ℝ} (h : rotates step) (phase : ℝ) (seed counter : ℕ) (power : ℝ) :
    let increment := Batch.increment step ⟨live.cfoHz, sampleRateHz, sampleCount⟩
    let built := buildStep live sampleCount sampleRateHz step phase seed counter power
    built.step = makeStep .rotate (step.paramOr "phase_rad" 0 + phase) increment ∧
      built.phaseRad = fmod (phase + increment * sampleCount) (2 * Real.pi) := by
  intro increment
  have hincrement : phaseIncrement (if step.type = .cfo then live.cfoHz else 0) sampleRateHz =
      increment := phaseIncrement_eq step ⟨live.cfoHz, sampleRateHz, sampleCount⟩
  unfold buildStep
  rcases h with h | h
  · rw [← hincrement, h]
    exact ⟨rfl, rfl⟩
  · rw [← hincrement, h]
    exact ⟨rfl, rfl⟩

omit [Rng ℝ] in
/-- **One batch of a rotating step on the GPU.** -/
theorem cuda_batch {model : ModelConfig ℝ} {history : List Batch} {ms : LinkModelState ℝ}
    (hsized : Sized model ms) (h : Phased model history ms.phaseRad)
    (input : Option (List (Iq ℝ))) (sampleCount sampleRateHz : ℕ) {i : ℕ} {step : ModelStep ℝ}
    (hstep : model.chain[i]? = some step) (hrot : rotates step) :
    let batch : Batch := ⟨ms.live.cfoHz, sampleRateHz, sampleCount⟩
    let built := buildSteps ms model input sampleCount sampleRateHz
    (∀ n, ∃ θ : ℝ, (∀ s, applyChain (built.hostSteps.take (i + 1)) n s =
        (applyChain (built.hostSteps.take i) n s).rotate θ) ∧
      (θ : Real.Angle) = declaredPhase step history batch n) ∧
    ∃ phase, built.phaseRad[i]? = some phase ∧
      (phase : Real.Angle) = (earlierIncrements step (history ++ [batch])).sum := by
  intro batch built
  obtain ⟨hlen, hphase⟩ := h
  have hi : i < ms.phaseRad.length := by
    rw [hlen]
    exact (List.getElem?_eq_some_iff.mp hstep).1
  have hat : ms.phaseRad[i]? = some ms.phaseRad[i] := List.getElem?_eq_getElem hi
  obtain ⟨-, hbuilt⟩ := buildSteps_at hsized input sampleCount sampleRateHz
  obtain ⟨seed, counter, power, hhost, hnext⟩ := hbuilt i step _ hstep hat
  obtain ⟨hmake, hleft⟩ := @buildStep_of_rotates ms.live sampleCount sampleRateHz step hrot
    ms.phaseRad[i] seed counter power
  have hstart := hphase i step _ hstep hat hrot
  refine ⟨?_, _, hnext, ?_⟩
  · intro n
    refine ⟨step.paramOr "phase_rad" 0 + ms.phaseRad[i] + batch.increment step * n, ?_, ?_⟩
    · intro s
      rw [hmake] at hhost
      rw [List.take_add_one, hhost, applyChain, List.foldl_append]
      rfl
    · rw [declaredPhase_eq, add_assoc, Real.Angle.coe_add, Real.Angle.coe_add, hstart,
        ← Real.Angle.coe_add, ← Real.Angle.coe_add, mul_comm]
  · rw [hleft, coe_fmod_two_pi, sum_earlierIncrements_snoc, Real.Angle.coe_add, hstart,
      ← Real.Angle.coe_add, mul_comm]

theorem CudaHistory.phased {model : ModelConfig ℝ} {history : List Batch} {ms : LinkModelState ℝ}
    (h : CudaHistory model history ms) : Sized model ms ∧ Phased model history ms.phaseRad := by
  induction h with
  | prepared seedPrefix =>
      refine ⟨⟨List.length_replicate, List.length_replicate, ?_, List.length_replicate⟩,
        List.length_replicate, ?_⟩
      · show ((List.range model.chain.length).map _).length = _
        rw [List.length_map, List.length_range]
      · intro i step phase _ hphase _
        rw [List.eq_of_mem_replicate (List.mem_of_getElem? hphase)]
        rfl
  | snapped h live ih => exact ⟨⟨ih.1.hostSteps, ih.1.phases, ih.1.seeds, ih.1.counters⟩, ih.2⟩
  | built h input sampleCount sampleRateHz ih =>
      obtain ⟨hsized, hphased⟩ := ih
      have hnext := (buildSteps_at hsized input sampleCount sampleRateHz).1
      refine ⟨hnext, hnext.phases, ?_⟩
      intro i step phase hstep hat hrot
      obtain ⟨-, phase', hat', hsum⟩ :=
        cuda_batch hsized hphased input sampleCount sampleRateHz hstep hrot
      rw [hat'] at hat
      cases hat
      exact hsum

end Gpu

/-! ## Both -/

section Both

variable [Rng ℝ] [Curand ℝ]

/-- **The phase of a rotating step is continuous and the same on both backends.**  After any history
of batches and live values, both rotate sample `n` of a batch by the fixed phase of the step and the
increments of all samples it rotated before, modulo a full turn; and the first sample of a next
batch goes on where the last one ended. -/
theorem cfo_phase_parity {model : ModelConfig ℝ} {history : List Batch} {st : LinkState ℝ}
    {ms : LinkModelState ℝ} (hcpu : CpuHistory model history st)
    (hcuda : CudaHistory model history ms) (hlive : ms.live.cfoHz = st.live.cfoHz)
    {ctx : ChainContext ℝ} (hctx : ctx.live = st.live) {input : List (Iq ℝ)} {run : ChainRun ℝ}
    (hrun : runChain ctx 0 model.chain st.steps input = .ok run) (gpuInput : Option (List (Iq ℝ)))
    {i : ℕ} {step : ModelStep ℝ} (hstep : model.chain[i]? = some step) (hrot : rotates step) :
    let batch : Batch := ⟨st.live.cfoHz, ctx.sampleRateHz, input.length⟩
    let built := buildSteps ms model gpuInput input.length ctx.sampleRateHz
    (∃ current phases,
      (runChain ctx 0 (model.chain.take i) st.steps input).map (·.out) = .ok current ∧
      (runChain ctx 0 (model.chain.take (i + 1)) st.steps input).map (·.out) =
        .ok (List.zipWith Iq.rotate current phases) ∧
      current.length = input.length ∧ phases.length = input.length ∧
      ∀ n < input.length, ∃ cpuPhase gpuPhase : ℝ, phases[n]? = some cpuPhase ∧
        (∀ s, applyChain (built.hostSteps.take (i + 1)) n s =
          (applyChain (built.hostSteps.take i) n s).rotate gpuPhase) ∧
        (cpuPhase : Real.Angle) = declaredPhase step history batch n ∧
        (gpuPhase : Real.Angle) = declaredPhase step history batch n ∧
        ∀ s : Iq ℝ, s.rotate cpuPhase = s.rotate gpuPhase) ∧
    ∀ next, declaredPhase step (history ++ [batch]) next 0 =
      declaredPhase step history batch input.length := by
  intro batch built
  obtain ⟨hsized, hphased⟩ := hcuda.phased
  obtain ⟨hgpu, -⟩ := cuda_batch hsized hphased gpuInput input.length ctx.sampleRateHz hstep hrot
  obtain ⟨current, phases, -, hbefore, hafter, hcurrent, hcount, hat, -, -⟩ :=
    cpu_batch hcpu.phased hrun hstep hrot
  rw [hlive] at hgpu
  rw [hctx] at hat
  refine ⟨⟨current, phases, hbefore, hafter, hcurrent, hcount, ?_⟩, ?_⟩
  · intro n hn
    have hlt : n < phases.length := by
      rw [hcount]
      exact hn
    have hget : phases[n]? = some phases[n] := List.getElem?_eq_getElem hlt
    -- both phases are the declared one, up to whole turns
    obtain ⟨gpuPhase, hrotate, hangle⟩ := hgpu n
    have hcpuAngle := hat n _ hget
    refine ⟨phases[n], gpuPhase, hget, hrotate, hcpuAngle, hangle, ?_⟩
    intro s
    exact rotate_congr s (hcpuAngle.trans hangle.symm)
  · intro next
    rw [declaredPhase_eq, declaredPhase_eq, sum_earlierIncrements_snoc, Nat.cast_zero, zero_mul,
      add_zero]

end Both

/-- A carrier offset of minus one hertz. -/
def offsetStep : ModelStep ℝ :=
  { type := .cfo, params := [("cfo_hz", -1)], fadingFDMaxHz := 0, fadingGridUs := 0 }

def offsetModel : ModelConfig ℝ := { id := "offset", chain := [offsetStep] }

/-- The second of two batches of two samples at four hertz. -/
theorem cfo_phase_parity_negative :
    ∃ cpuPhase gpuPhase : ℝ,
      (cpuPhase : Real.Angle) = declaredPhase offsetStep [⟨-1, 4, 2⟩] ⟨-1, 4, 2⟩ 1 ∧
      (gpuPhase : Real.Angle) = declaredPhase offsetStep [⟨-1, 4, 2⟩] ⟨-1, 4, 2⟩ 1 ∧
      ∀ s : Iq ℝ, s.rotate cpuPhase = s.rotate gpuPhase := by
  let _ : Rng ℝ := ⟨fun _ => 0, fun _ _ => 0, fun _ _ => 0⟩
  let _ : Curand ℝ := ⟨fun _ _ => 0⟩
  let ctx : ChainContext ℝ :=
    { live := populateMutableParamsFromYaml offsetModel, link := PhysicalLinkRuntime.default
      laneIndex := 0, losCoefficient := 1, sampleRateHz := 4 }
  have hcpu₀ : CpuHistory offsetModel [] _ := CpuHistory.prepared "" ⟨"", 0, 0, 1, 1⟩
  have hcuda₀ : CudaHistory offsetModel [] _ := CudaHistory.prepared ""
  have hcpu := hcpu₀.shaped ctx [0, 0] _ rfl rfl
  have hcuda := (hcuda₀.snapped (populateMutableParamsFromYaml offsetModel)).built none 2 4
  have hstep : offsetModel.chain[0]? = some offsetStep := rfl
  have hctx : ctx.live = populateMutableParamsFromYaml offsetModel := rfl
  obtain ⟨⟨current, phases, -, -, -, -, hall⟩, -⟩ := cfo_phase_parity hcpu hcuda rfl hctx
    (show runChain ctx 0 offsetModel.chain _ [0, 0] = .ok _ from rfl) none hstep (Or.inr rfl)
  obtain ⟨cpuPhase, gpuPhase, -, -, hcpuPhase, hgpuPhase, hsame⟩ := hall 1 (by decide)
  exact ⟨cpuPhase, gpuPhase, hcpuPhase, hgpuPhase, hsame⟩

end
