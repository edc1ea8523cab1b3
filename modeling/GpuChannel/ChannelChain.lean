/-
# The model chain of one lane

`populate_mutable_params_from_yaml` (mutable_params.cpp) and the step loop of
`CpuChannelProcessor::apply_chain_to_link`.  What a step reads of the live state is
`stepUse`, and `runStep` is what the step does with it, so that the parameters a lane runs
with can be compared with the declared ones.
-/
import GpuChannel.DelayLine

section Populate

variable {K : Type} [Field K]

/-- The params of the step name an absolute noise power. -/
def ModelStep.hasNoisePower (step : ModelStep K) : Bool := (step.params.lookup "noise_power").isSome

/-- One step of the scan of `populate_mutable_params_from_yaml`. -/
def populateStep (out : MutableParams K) (step : ModelStep K) : MutableParams K :=
  match step.type with
  | .pathLoss => { out with pathLossDb := step.paramOr "path_loss_db" 0 }
  | .cfo | .phase => { out with cfoHz := step.paramOr "cfo_hz" 0 }
  | .awgn =>
      if step.hasNoisePower then out else { out with awgnSnrDb := step.paramOr "snr_db" 60 }
  | .tdl | .gain => out

/-- The first tap of a leading tdl step. -/
def leadingTap? (chain : List (ModelStep K)) : Option (TapSpec K) :=
  match chain with
  | [] => none
  | step :: _ => if step.type = .tdl then step.taps.head? else none

/-- **`populate_mutable_params_from_yaml`.** -/
def populateMutableParamsFromYaml (model : ModelConfig K) : MutableParams K :=
  let out := model.chain.foldl populateStep MutableParams.default
  match leadingTap? model.chain with
  | none => out
  | some tap =>
      { out with
        tap0DelaySamples := tap.delaySamples, tap0GainDb := tap.gainDb
        tap0PhaseRad := tap.phaseRad, losKDb := tap.losKDb }

end Populate

/-! ## What a step uses -/

/-- The parameters that one execution of a step reads. -/
inductive StepUse (K : Type)
  | pathLoss (db : K)
  | gain (db : K)
  | noisePower (power : K)
  | noiseSnr (db : K)
  | rotation (phaseRad cfoHz : K)
  | tdl (taps : List (TapSpec K)) (polyphase : List (Polyphase K))
  deriving DecidableEq

/-- **`StepState`.** The engine of the noise is its seed and the number of draws taken. -/
structure StepState (K : Type) where
  delayLine : List (Iq K)
  phaseRad : K
  noiseSeed : ℕ
  noiseDraws : ℕ
  tdlPolyphase : List (Polyphase K)
  tdlFading : TdlFadingState K

section Chain

variable {K : Type} [Field K]

/-- A value-initialised step state. -/
def StepState.default : StepState K :=
  { delayLine := [], phaseRad := 0, noiseSeed := 0, noiseDraws := 0, tdlPolyphase := []
    tdlFading := TdlFadingState.default }

variable [LinearOrder K] [FloorRing K] [Libm K]

/-- The tap-0 override of the v1 path. -/
def overrideTap0 (live : MutableParams K) (tap : TapSpec K) : TapSpec K :=
  { tap with
    delaySamples := live.tap0DelaySamples, gainDb := live.tap0GainDb
    phaseRad := live.tap0PhaseRad
    losKDb := if tap.isLos then live.losKDb else tap.losKDb }

/-- The taps of the v1 path: the step's own, with tap 0 taken from `live`. -/
def effectiveTaps (live : MutableParams K) (taps : List (TapSpec K)) : List (TapSpec K) :=
  taps.modifyHead (overrideTap0 live)

/-- The filters of the v1 path: the prepared ones, the first recomputed. -/
def effectivePolyphase (live : MutableParams K) (taps : List (TapSpec K))
    (cached : List (Polyphase K)) : List (Polyphase K) :=
  match effectiveTaps live taps with
  | [] => cached
  | tap :: _ => cached.modifyHead fun _ => tapPolyphase tap

/-- Where the taps of a tdl step come from. -/
def tdlUse (live : MutableParams K) (link : PhysicalLinkRuntime K) (laneIndex : ℕ)
    (step : ModelStep K) (cached : List (Polyphase K)) : Except String (StepUse K) :=
  if link.liveMatrixProfileActive then
    if link.liveMatrixProfile.laneCount ≤ laneIndex then
      throw "matrix profile lane index is outside the active matrix"
    else
      let taps := ((link.liveMatrixProfile.lane? laneIndex).map (·.tapList)).getD []
      pure (.tdl taps (taps.map tapPolyphase))
  else if link.liveProfileActive then
    let taps := link.liveProfile.tapList
    pure (.tdl taps (taps.map tapPolyphase))
  else pure (.tdl (effectiveTaps live step.taps) (effectivePolyphase live step.taps cached))

/-- What a step reads, case by case of the switch. -/
def stepUse (live : MutableParams K) (link : PhysicalLinkRuntime K) (laneIndex : ℕ)
    (step : ModelStep K) (st : StepState K) : Except String (StepUse K) :=
  match step.type with
  | .pathLoss => pure (.pathLoss live.pathLossDb)
  | .gain => pure (.gain (step.paramOr "gain_db" 0))
  | .awgn =>
      let noisePower := step.paramOr "noise_power" (-1)
      pure (if noisePower < 0 then .noiseSnr live.awgnSnrDb else .noisePower noisePower)
  | .phase => pure (.rotation (step.paramOr "phase_rad" 0) 0)
  | .cfo => pure (.rotation (step.paramOr "phase_rad" 0) live.cfoHz)
  | .tdl => tdlUse live link laneIndex step st.tdlPolyphase

/-! ## What a step does -/

/-- `estimate_average_power`. -/
def estimateAveragePower (input : List (Iq K)) : K :=
  if input.isEmpty then 0
  else input.foldl (fun sum sample => sum + sample.power) 0 / input.length

/-- The noise loop: two draws a sample. -/
def addNoise [Rng K] (sigma : K) (seed : ℕ) : ℕ → List (Iq K) → List (Iq K)
  | _, [] => []
  | draw, x :: xs =>
      ⟨x.i + sigma * Rng.normal seed draw, x.q + sigma * Rng.normal seed (draw + 1)⟩ ::
        addNoise sigma seed (draw + 2) xs

/-- The phase after one sample. -/
def wrapPhase (phaseRad : K) : K :=
  if 2 * Libm.pi < phaseRad then fmod phaseRad (2 * Libm.pi) else phaseRad

/-- The rotation loop of `phase` and `cfo`, and the phase it ends with. -/
def rotateSamples (fixedPhase increment : K) : K → List (Iq K) → List (Iq K) × K
  | phase, [] => ([], phase)
  | phase, x :: xs =>
      let rest := rotateSamples fixedPhase increment (wrapPhase (phase + increment)) xs
      (x.rotate (fixedPhase + phase) :: rest.1, rest.2)

/-- `phase_increment`. -/
def phaseIncrement (cfoHz : K) (sampleRateHz : ℕ) : K :=
  if sampleRateHz = 0 then 0 else 2 * Libm.pi * cfoHz / sampleRateHz

/-- What the steps of one lane share in one slot. -/
structure ChainContext (K : Type) where
  live : MutableParams K
  link : PhysicalLinkRuntime K
  laneIndex : ℕ
  losCoefficient : Cplx K
  sampleRateHz : ℕ

/-- `lane_grids[lane_index][step_index]`. -/
def laneGrid (link : PhysicalLinkRuntime K) (laneIndex stepIndex : ℕ) : FadingGrid K :=
  ((link.fading.laneGrids[laneIndex]?).bind (·[stepIndex]?)).getD (FadingGrid.empty K)

/-- The convolution of a tdl step, fading or not. -/
def shapeTdl (ctx : ChainContext K) (stepIndex : ℕ) (step : ModelStep K) (taps : List (TapSpec K))
    (polyphase : List (Polyphase K)) (st : StepState K) (current : List (Iq K)) :
    Except String (List (Iq K) × List (Iq K)) :=
  if step.fadingEnabled then
    applyTdlStepFading current taps polyphase st.delayLine st.tdlFading ctx.sampleRateHz
      ctx.link.slotStartSamples (laneGrid ctx.link ctx.laneIndex stepIndex) ctx.losCoefficient
  else pure (applyTdlStep current taps polyphase st.delayLine)

variable [Rng K]

/-- The body of a case of the switch. -/
def runStep (ctx : ChainContext K) (stepIndex : ℕ) (step : ModelStep K) (use : StepUse K)
    (st : StepState K) (current : List (Iq K)) : Except String (List (Iq K) × StepState K) :=
  match use with
  | .pathLoss db => pure (current.map (·.scale (Libm.pow10 (-db / 20))), st)
  | .gain db => pure (current.map (·.scale (Libm.pow10 (db / 20))), st)
  | .noisePower power =>
      let sigma := Libm.sqrt (max 0 power / 2)
      pure (addNoise sigma st.noiseSeed st.noiseDraws current,
        { st with noiseDraws := st.noiseDraws + 2 * current.length })
  | .noiseSnr db =>
      let power := estimateAveragePower current / Libm.pow10 (db / 10)
      let sigma := Libm.sqrt (max 0 power / 2)
      pure (addNoise sigma st.noiseSeed st.noiseDraws current,
        { st with noiseDraws := st.noiseDraws + 2 * current.length })
  | .rotation phaseRad cfoHz =>
      let rotated := rotateSamples phaseRad (phaseIncrement cfoHz ctx.sampleRateHz) st.phaseRad current
      pure (rotated.1, { st with phaseRad := rotated.2 })
  | .tdl taps polyphase => do
      let shaped ← shapeTdl ctx stepIndex step taps polyphase st current
      pure (shaped.1, { st with delayLine := shaped.2 })

/-- The outcome of the step loop: samples, step states, and what each step used. -/
structure ChainRun (K : Type) where
  out : List (Iq K)
  states : List (StepState K)
  uses : List (StepUse K)

/-- **The step loop of `apply_chain_to_link`.** -/
def runChain (ctx : ChainContext K) :
    ℕ → List (ModelStep K) → List (StepState K) → List (Iq K) → Except String (ChainRun K)
  | stepIndex, step :: steps, st :: states, current => do
      let use ← stepUse ctx.live ctx.link ctx.laneIndex step st
      let (next, st) ← runStep ctx stepIndex step use st current
      let rest ← runChain ctx (stepIndex + 1) steps states next
      pure ⟨rest.out, st :: rest.states, use :: rest.uses⟩
  | _, _, states, current => pure ⟨current, states, []⟩

end Chain
