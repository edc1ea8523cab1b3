/-
# A chain on both backends

The steps behind the leading tdl are multiplications: a path loss, a gain, a fixed rotation, a
carrier offset.  The CPU runs a step over the whole slot before the next one; the GPU flattens the
chain and runs all of it on one sample in registers.  In exact arithmetic both give the same slot and
leave the same phases, modulo a full turn, for any phases they start from.
-/
import GpuChannel.CfoPhase
import GpuChannel.ChannelKernel

noncomputable section

/-- A step that both backends compute sample by sample, without noise. -/
def ModelStep.IsPlain {K : Type} (step : ModelStep K) : Prop :=
  step.type = .pathLoss ∨ step.type = .gain ∨ step.type = .phase ∨ step.type = .cfo

/-- The phases of the two backends are the same angles, step by step. -/
def PhasesAgree (states : List (StepState ℝ)) (phases : List ℝ) : Prop :=
  List.Forall₂ (fun st φ => (st.phaseRad : Real.Angle) = (φ : ℝ)) states phases

/-- Two lists of step states that differ in their phases at most. -/
def SameButPhases {K : Type} (states states' : List (StepState K)) : Prop :=
  List.Forall₂ (fun st st' => st' = { st with phaseRad := st'.phaseRad }) states states'

section ChainParity

variable [Rng ℝ] [Curand ℝ]

/-! ## One step -/

omit [Rng ℝ] [Curand ℝ] in
theorem map_eq_mapIdx {α β : Type} (xs : List α) (f : α → β) : xs.map f = xs.mapIdx fun _ => f := by
  apply List.ext_getElem
  · rw [List.length_map, List.length_mapIdx]
  · intro n hn hn'
    rw [List.getElem_map, List.getElem_mapIdx]

omit [Rng ℝ] [Curand ℝ] in
/-- A rotation of every sample by its phase, as an indexed map. -/
theorem zipWith_rotate (xs : List (Iq ℝ)) {phases : List ℝ} {start increment : ℝ}
    (hlen : phases.length = xs.length)
    (hat : ∀ (n : ℕ) (θ : ℝ), phases[n]? = some θ →
      (θ : Real.Angle) = (start + increment * n : ℝ)) :
    List.zipWith Iq.rotate xs phases = xs.mapIdx fun n x => x.rotate (start + increment * n) := by
  apply List.ext_getElem
  · rw [List.length_zipWith, List.length_mapIdx, hlen, min_self]
  · intro n hn hn'
    rw [List.length_mapIdx] at hn'
    rw [List.getElem_zipWith, List.getElem_mapIdx]
    apply rotate_congr
    exact hat n _ (List.getElem?_eq_getElem (hlen.symm ▸ hn'))

/-- **A plain step**: the CPU's slot is the GPU's, sample by sample, and so is the phase. -/
theorem plain_step (ctx : ChainContext ℝ) (i : ℕ) {step : ModelStep ℝ} (hplain : step.IsPlain)
    {st : StepState ℝ} {φ : ℝ} (hφ : (st.phaseRad : Real.Angle) = φ) (seed counter : ℕ) (power : ℝ)
    (xs : List (Iq ℝ)) :
    let built := buildStep ctx.live xs.length ctx.sampleRateHz step φ seed counter power
    ∃ use st', stepUse ctx.live ctx.link ctx.laneIndex step st = .ok use ∧
      runStep ctx i step use st xs =
        .ok (xs.mapIdx fun idx x => applyGpuStep idx built.step x, st') ∧
      st' = { st with phaseRad := st'.phaseRad } ∧
      (st'.phaseRad : Real.Angle) = built.phaseRad := by
  intro built
  -- a multiplication by a constant
  have hscale : ∀ factor : ℝ, xs.map (·.scale factor) =
      xs.mapIdx fun idx x => applyGpuStep idx (makeStep .scale factor 0) x := by
    exact fun factor => map_eq_mapIdx xs _
  have hrotates : rotates step → ∃ use st', stepUse ctx.live ctx.link ctx.laneIndex step st = .ok use ∧
      runStep ctx i step use st xs =
        .ok (xs.mapIdx fun idx x => applyGpuStep idx built.step x, st') ∧
      st' = { st with phaseRad := st'.phaseRad } ∧
      (st'.phaseRad : Real.Angle) = built.phaseRad := by
    intro hrot
    have hbuilt : built.step = makeStep .rotate (step.paramOr "phase_rad" 0 + φ)
        (Batch.increment step ⟨ctx.live.cfoHz, ctx.sampleRateHz, xs.length⟩) ∧
      built.phaseRad = fmod (φ + Batch.increment step ⟨ctx.live.cfoHz, ctx.sampleRateHz, xs.length⟩ *
        xs.length) (2 * Real.pi) := buildStep_of_rotates hrot φ seed counter power
    obtain ⟨hstep, hphase⟩ := hbuilt
    have hincrement : phaseIncrement (if step.type = .cfo then ctx.live.cfoHz else 0)
        ctx.sampleRateHz =
          Batch.increment step ⟨ctx.live.cfoHz, ctx.sampleRateHz, xs.length⟩ :=
      phaseIncrement_eq step ⟨ctx.live.cfoHz, ctx.sampleRateHz, xs.length⟩
    obtain ⟨hlen, hat, hlast⟩ := rotationPhases_spec (step.paramOr "phase_rad" 0)
      (Batch.increment step ⟨ctx.live.cfoHz, ctx.sampleRateHz, xs.length⟩) xs.length st.phaseRad
    refine ⟨_, { st with phaseRad := (rotateSamples (step.paramOr "phase_rad" 0)
      (phaseIncrement (if step.type = .cfo then ctx.live.cfoHz else 0) ctx.sampleRateHz)
      st.phaseRad xs).2 }, stepUse_of_rotates hrot, ?_, rfl, ?_⟩
    · have hzip : List.zipWith Iq.rotate xs (rotationPhases (step.paramOr "phase_rad" 0)
          (Batch.increment step ⟨ctx.live.cfoHz, ctx.sampleRateHz, xs.length⟩)
          st.phaseRad xs.length).1 =
          xs.mapIdx fun n x => x.rotate (step.paramOr "phase_rad" 0 + φ +
            Batch.increment step ⟨ctx.live.cfoHz, ctx.sampleRateHz, xs.length⟩ * n) := by
        apply zipWith_rotate xs hlen
        intro n θ hn
        rw [hat n θ hn, Real.Angle.coe_add, Real.Angle.coe_add, hφ, ← Real.Angle.coe_add,
          ← Real.Angle.coe_add]
        congr 1
        ring
      unfold runStep
      dsimp only
      rw [rotateSamples_eq, hincrement, hzip]
      simp only [built, hstep]
      rfl
    · dsimp only
      rw [rotateSamples_eq, hincrement, hlast, hphase, coe_fmod_two_pi, Real.Angle.coe_add, hφ,
        ← Real.Angle.coe_add]
      congr 1
      ring
  rcases hplain with h | h | h | h
  · refine ⟨.pathLoss ctx.live.pathLossDb, st, ?_, ?_, rfl, ?_⟩
    · unfold stepUse
      rw [h]
      rfl
    · unfold runStep
      dsimp only
      rw [hscale]
      simp only [built, buildStep, h]
      rfl
    · simp only [built, buildStep, h]
      exact hφ
  · refine ⟨.gain (step.paramOr "gain_db" 0), st, ?_, ?_, rfl, ?_⟩
    · unfold stepUse
      rw [h]
      rfl
    · unfold runStep
      dsimp only
      rw [hscale]
      simp only [built, buildStep, h]
      rfl
    · simp only [built, buildStep, h]
      exact hφ
  · exact hrotates (.inl h)
  · exact hrotates (.inr h)

/-! ## One chain -/

omit [Rng ℝ] in
/-- The steps of a chain on one sample, after the first. -/
theorem mapIdx_applyChain (step : GpuStep ℝ) (steps : List (GpuStep ℝ)) (xs : List (Iq ℝ)) :
    (xs.mapIdx fun idx x => applyGpuStep idx step x).mapIdx (applyChain steps) =
      xs.mapIdx (applyChain (step :: steps)) := by
  rw [List.mapIdx_mapIdx]
  rfl

/-- **A plain chain**: the CPU's loop over the steps is the GPU's kernel over the samples. -/
theorem plain_chain (ctx : ChainContext ℝ) {chain : List (ModelStep ℝ)}
    (hplain : ∀ step ∈ chain, step.IsPlain) {states : List (StepState ℝ)} {phases : List ℝ}
    {seeds counters : List ℕ} (i : ℕ) (power : ℝ) (xs : List (Iq ℝ))
    (hagree : PhasesAgree states phases) (hphases : phases.length = chain.length)
    (hseeds : seeds.length = chain.length) (hcounters : counters.length = chain.length) :
    let built := buildChain ctx.live xs.length ctx.sampleRateHz chain phases seeds counters power
    ∃ run : ChainRun ℝ, runChain ctx i chain states xs = .ok run ∧
      run.out = applyStepsKernel (built.map (·.step)) xs ∧ SameButPhases states run.states ∧
      PhasesAgree run.states (built.map (·.phaseRad)) := by
  -- the samples of the head step are the input of the tail
  induction chain generalizing i states phases seeds counters power xs with
  | nil =>
      have hnil : phases = [] := List.length_eq_zero_iff.mp hphases
      subst hnil
      have hnil : states = [] := List.forall₂_nil_right_iff.mp hagree
      subst hnil
      refine ⟨⟨xs, [], []⟩, rfl, ?_, List.Forall₂.nil, List.Forall₂.nil⟩
      exact (List.map_id xs).symm.trans (map_eq_mapIdx xs id)
  | cons step chain ih =>
      rw [List.forall_mem_cons] at hplain
      obtain ⟨φ, phases, rfl⟩ := List.exists_cons_of_length_eq_add_one hphases
      obtain ⟨seed, seeds, rfl⟩ := List.exists_cons_of_length_eq_add_one hseeds
      obtain ⟨counter, counters, rfl⟩ := List.exists_cons_of_length_eq_add_one hcounters
      obtain ⟨st, states, hφ, hrest, rfl⟩ := List.forall₂_cons_right_iff.mp hagree
      obtain ⟨use, st', huse, hdo, hst', hφ'⟩ := plain_step ctx i hplain.1 hφ seed counter power xs
      have hlen : (xs.mapIdx fun idx x => applyGpuStep idx
          (buildStep ctx.live xs.length ctx.sampleRateHz step φ seed counter power).step x).length =
            xs.length := List.length_mapIdx
      obtain ⟨run, hrun, hout, hsame, hphase⟩ := ih hplain.2 (i + 1)
        (buildStep ctx.live xs.length ctx.sampleRateHz step φ seed counter power).runningPower
        (xs.mapIdx fun idx x => applyGpuStep idx
          (buildStep ctx.live xs.length ctx.sampleRateHz step φ seed counter power).step x)
        hrest (Nat.succ.inj hphases) (Nat.succ.inj hseeds) (Nat.succ.inj hcounters)
      rw [hlen] at hout hphase
      refine ⟨⟨run.out, st' :: run.states, use :: run.uses⟩, ?_, ?_, ?_, ?_⟩
      · rw [runChain, huse, ok_bind, hdo, ok_bind]
        dsimp only
        rw [hrun]
        rfl
      · rw [buildChain, List.map_cons]
        dsimp only
        rw [hout]
        exact mapIdx_applyChain ..
      · exact List.Forall₂.cons hst' hsame
      · exact List.Forall₂.cons hφ' hphase

end ChainParity

end
