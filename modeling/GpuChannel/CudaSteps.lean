/-
# Channel steps on the GPU

cuda_backend.cu: `build_steps` flattens a chain into `GpuStep`s, with the phases and noise counters
that persist between batches, and `apply_chain` runs them on one sample in registers.  One state
stands for a lane or for one row of the receiver model.
-/
import GpuChannel.CpuBackend

/-- What the kernels use of cuRAND. -/
class Curand (K : Type) where
  /-- `curand_normal2` of a Philox generator with this seed and subsequence -/
  normal2 : ℕ → ℕ → Iq K

inductive GpuStepType
  | scale
  | rotate
  | addNoise
  deriving DecidableEq, Repr

/-- **`GpuStep`.** -/
structure GpuStep (K : Type) where
  type : GpuStepType
  a : K
  b : K
  seed : ℕ
  counter : ℕ
  deriving DecidableEq

/-- **`LinkModelState`.** `tdlTaps` stands for the borrowed tap list of the configuration, and
`link` for the borrowed runtime of the physical link. -/
structure LinkModelState (K : Type) where
  stepCapacity : ℕ
  hostSteps : List (GpuStep K)
  phaseRad : List K
  noiseSeed : List ℕ
  noiseCounter : List ℕ
  hasTdl : Bool
  tdlTaps : List (TapSpec K)
  tdlPolyphase : List (Polyphase K)
  delayLine : List (Iq K)
  tdlFading : TdlFadingState K
  live : MutableParams K
  losCoefficient : Cplx K
  link : String
  laneIndex : ℕ

section Steps

variable {K : Type} [Field K]

/-- A default-constructed step. -/
def GpuStep.default : GpuStep K := { type := .scale, a := 0, b := 0, seed := 0, counter := 0 }

/-- `make_step`. -/
def makeStep (type : GpuStepType) (a b : K) : GpuStep K :=
  { type := type, a := a, b := b, seed := 0, counter := 0 }

/-- **`init_model_state`** on a default-constructed state. -/
def initModelState [Rng K] (steps : ℕ) (seedPrefix : String) : LinkModelState K :=
  { stepCapacity := steps
    hostSteps := List.replicate steps GpuStep.default
    phaseRad := List.replicate steps 0
    noiseSeed := (List.range steps).map fun s =>
      Rng.hashString K (seedPrefix ++ ":awgn:" ++ toString s)
    noiseCounter := List.replicate steps 0
    hasTdl := false, tdlTaps := [], tdlPolyphase := [], delayLine := []
    tdlFading := TdlFadingState.default
    live := MutableParams.default, losCoefficient := 1, link := "", laneIndex := 0 }

variable [LinearOrder K] [FloorRing K] [Libm K]

/-- What `build_steps` carries from one step to the next and leaves behind. -/
structure BuiltStep (K : Type) where
  step : GpuStep K
  phaseRad : K
  noiseCounter : ℕ
  runningPower : K

/-- One round of the loop of `build_steps`. -/
def buildStep (live : MutableParams K) (sampleCount sampleRateHz : ℕ) (step : ModelStep K)
    (phaseRad : K) (noiseSeed noiseCounter : ℕ) (runningPower : K) : BuiltStep K :=
  match step.type with
  | .pathLoss =>
      let factor := Libm.pow10 (-live.pathLossDb / 20)
      ⟨makeStep .scale factor 0, phaseRad, noiseCounter, runningPower * (factor * factor)⟩
  | .gain =>
      let factor := Libm.pow10 (step.paramOr "gain_db" 0 / 20)
      ⟨makeStep .scale factor 0, phaseRad, noiseCounter, runningPower * (factor * factor)⟩
  | .phase | .cfo =>
      let cfoHz := if step.type = .cfo then live.cfoHz else 0
      let increment := phaseIncrement cfoHz sampleRateHz
      ⟨makeStep .rotate (step.paramOr "phase_rad" 0 + phaseRad) increment,
        fmod (phaseRad + increment * sampleCount) (2 * Libm.pi), noiseCounter, runningPower⟩
  | .awgn =>
      let declared := step.paramOr "noise_power" (-1)
      let noisePower := max 0
        (if declared < 0 then runningPower / Libm.pow10 (live.awgnSnrDb / 10) else declared)
      ⟨{ type := .addNoise, a := Libm.sqrt (noisePower / 2), b := 0, seed := noiseSeed
         counter := noiseCounter },
        phaseRad, noiseCounter + sampleCount, runningPower + noisePower⟩
  -- the leading tdl ran while staging
  | .tdl => ⟨makeStep .scale 1 0, phaseRad, noiseCounter, runningPower⟩

/-- The loop of `build_steps`. -/
def buildChain (live : MutableParams K) (sampleCount sampleRateHz : ℕ) :
    List (ModelStep K) → List K → List ℕ → List ℕ → K → List (BuiltStep K)
  | step :: chain, phase :: phases, seed :: seeds, counter :: counters, power =>
      let built := buildStep live sampleCount sampleRateHz step phase seed counter power
      built :: buildChain live sampleCount sampleRateHz chain phases seeds counters built.runningPower
  | _, _, _, _, _ => []

/-- **`build_steps`.** -/
def buildSteps (ms : LinkModelState K) (model : ModelConfig K) (input : Option (List (Iq K)))
    (sampleCount sampleRateHz : ℕ) : LinkModelState K :=
  let hasAwgn := model.chain.any (·.type = .awgn)
  let runningPower :=
    match input with
    | none => 0
    | some samples => if hasAwgn ∧ sampleCount ≠ 0 then estimateAveragePower samples else 0
  let built := buildChain ms.live sampleCount sampleRateHz model.chain ms.phaseRad ms.noiseSeed
    ms.noiseCounter runningPower
  { ms with
    hostSteps := built.map (·.step) ++ ms.hostSteps.drop built.length
    phaseRad := built.map (·.phaseRad) ++ ms.phaseRad.drop built.length
    noiseCounter := built.map (·.noiseCounter) ++ ms.noiseCounter.drop built.length }

variable [Curand K]

/-- One round of the loop of `apply_chain`. -/
def applyGpuStep (idx : ℕ) (step : GpuStep K) (s : Iq K) : Iq K :=
  match step.type with
  | .scale => s.scale step.a
  | .addNoise =>
      let noise := Curand.normal2 step.seed (step.counter + idx)
      ⟨s.i + step.a * noise.i, s.q + step.a * noise.q⟩
  | .rotate => s.rotate (step.a + step.b * idx)

/-- **`apply_chain`.** -/
def applyChain (steps : List (GpuStep K)) (idx : ℕ) (s : Iq K) : Iq K :=
  steps.foldl (fun s step => applyGpuStep idx step s) s

/-- **`apply_steps_kernel`**: one thread for each sample. -/
def applyStepsKernel (steps : List (GpuStep K)) (row : List (Iq K)) : List (Iq K) :=
  row.mapIdx (applyChain steps)

end Steps

/-! ## The receiver model -/

section Receiver

variable {K : Type} [Field K] [LinearOrder K] [FloorRing K] [Libm K] [Rng K] [Curand K]

/-- The states that `prepare` makes for the output rows of a node. -/
def prepareRxModels (node : ResolvedNode) (model : ModelConfig K) : List (LinkModelState K) :=
  let rows := max 1 node.rxPorts.length
  (List.range rows).map fun r => initModelState model.chain.length (rxStateKey node.id r rows)

/-- The receiver model on the rows of one slot: every row's steps are built, then applied. -/
def receiveRows (rxModels : List (LinkModelState K)) (model : ModelConfig K)
    (count sampleRateHz : ℕ) (rows : List (List (Iq K))) :
    Except String (List (LinkModelState K) × List (List (Iq K))) :=
  if rxModels = [] ∨ ∃ ms ∈ rxModels.head?, ms.stepCapacity < model.chain.length then
    throw "CUDA superposition rx_model chain exceeds preallocated capacity"
  else
    let built := rxModels.map fun ms => buildSteps ms model none count sampleRateHz
    pure (built,
      List.zipWith (fun ms row => applyStepsKernel (ms.hostSteps.take model.chain.length) row)
        built rows)

end Receiver
