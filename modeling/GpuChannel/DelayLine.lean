/-
# Tapped delay lines

delay.h: the windowed-sinc fractional delay, the static and the fading multi-tap
convolution over the cross-slot ring `delay_line`, and the Jakes grid of a fading step.

The ring is a list, oldest sample first.  A sample outside slot and ring is zero.  The random
draws of the fading state come from `Rng`, indexed by seed and position.
-/
import GpuChannel.PhysicalLink

/-- What the code uses of the C++ hash and random number facilities. -/
class Rng (K : Type) where
  /-- `std::hash<std::string>`, cut to `unsigned` -/
  hashString : String → ℕ
  /-- draw of a standard normal distribution over an engine with this seed -/
  normal : ℕ → ℕ → K
  /-- draw of the uniform distribution on `[0, 2π)` over an engine with this seed -/
  uniform2Pi : UInt64 → ℕ → K

section Scalars

variable {K : Type} [Field K] [LinearOrder K] [FloorRing K]

/-- `std::fmod`. -/
def fmod (x y : K) : K := x - (truncInt (x / y) : K) * y

/-- `std::round`: to nearest, halves away from zero. -/
def roundInt (x : K) : ℤ := if 0 ≤ x then ⌊x + 1 / 2⌋ else ⌈x - 1 / 2⌉

end Scalars

/-! ## The static step -/

/-- The coefficients of one fractional-delay filter. -/
abbrev Polyphase (K : Type) := Fin kTdlFracFilterTaps → K

/-- The ring after the slot: its last samples and this slot's, the newest last. -/
def rollDelayLine {K : Type} (input delayLine : List (Iq K)) : List (Iq K) :=
  if delayLine.length ≤ input.length then input.drop (input.length - delayLine.length)
  else delayLine.drop input.length ++ input

section Static

variable {K : Type} [Field K] [LinearOrder K] [FloorRing K] [Libm K]

/-- One coefficient of the filter before normalisation: sinc times Hamming window. -/
def windowedSincCoeff (frac : K) (i : Fin kTdlFracFilterTaps) : K :=
  let x := ((i.val : ℤ) - 3 : ℤ) - frac
  let sinc :=
    if |x| < 1 / 10 ^ 12 then 1 else Libm.sin (Libm.pi * x) / (Libm.pi * x)
  sinc * (54 / 100 - 46 / 100 * Libm.cos (2 * Libm.pi * (i.val : K) / 7))

/-- **`compute_windowed_sinc_taps`.** -/
def computeWindowedSincTaps (frac : K) : Polyphase K :=
  let sum := (List.finRange kTdlFracFilterTaps).foldl (fun acc i => acc + windowedSincCoeff frac i) 0
  if 1 / 10 ^ 12 < |sum| then fun i => windowedSincCoeff frac i * (1 / sum)
  else windowedSincCoeff frac

/-- The filter of a tap: the fractional part of its delay. -/
def tapPolyphase (tap : TapSpec K) : Polyphase K :=
  computeWindowedSincTaps (tap.delaySamples - (⌊tap.delaySamples⌋ : K))

/-- `ceil(max tau) + kTdlFracFilterTaps`. -/
def ringSize (taps : List (TapSpec K)) : ℕ :=
  ⌈taps.foldl (fun m tap => max m tap.delaySamples) 0⌉.toNat + kTdlFracFilterTaps

/-- **`prepare_tdl_state`**: the filters, and a ring that only ever grows. -/
def prepareTdlState (taps : List (TapSpec K)) (delayLine : List (Iq K)) :
    List (Polyphase K) × List (Iq K) :=
  (taps.map tapPolyphase,
    if delayLine.length < ringSize taps then List.replicate (ringSize taps) 0 else delayLine)

/-- The lambda `read`: this slot's input, or the ring behind it. -/
def readSample (input delayLine : List (Iq K)) (idx : ℤ) : Iq K :=
  if (input.length : ℤ) ≤ idx then 0
  else if 0 ≤ idx then input.getD idx.toNat 0
  else if (delayLine.length : ℤ) + idx < 0 then 0
  else delayLine.getD (delayLine.length + idx).toNat 0

/-- The filtered input of one tap at sample `n`. -/
def filterTap (read : ℤ → Iq K) (n : ℕ) (tap : TapSpec K) (h : Polyphase K) : Iq K :=
  (List.finRange kTdlFracFilterTaps).foldl (fun x i =>
    let s := read (n - ⌊tap.delaySamples⌋ + 3 - i.val)
    ⟨x.i + h i * s.i, x.q + h i * s.q⟩) 0

/-- The static gain and phase of a tap. -/
def weightTap (tap : TapSpec K) (x : Iq K) : Iq K :=
  let gain := Libm.pow10 (tap.gainDb / 20)
  let rotated := x.rotate tap.phaseRad
  ⟨gain * rotated.i, gain * rotated.q⟩

/-- **`apply_tdl_step`.** -/
def applyTdlStep (input : List (Iq K)) (taps : List (TapSpec K)) (polyphase : List (Polyphase K))
    (delayLine : List (Iq K)) : List (Iq K) × List (Iq K) :=
  let read := readSample input delayLine
  ((List.range input.length).map fun n =>
      (taps.zip polyphase).foldl (fun acc p => acc + weightTap p.1 (filterTap read n p.1 p.2)) 0,
    rollDelayLine input delayLine)

end Static

/-! ## The fading step -/

/-- `kTdlFadingSinusoids`. -/
def kTdlFadingSinusoids : ℕ := 20

/-- **`TdlFadingState`.** The LOS phases, which are drawn but not read, only take their place
in the sequence of draws. -/
structure TdlFadingState (K : Type) where
  enabled : Bool
  fDMaxHz : K
  spectrum : FadingSpectrum
  gridUs : K
  tapAlpha : List (Fin kTdlFadingSinusoids → K)
  tapPhi : List (Fin kTdlFadingSinusoids → K)

section Fading

variable {K : Type} [Field K]

/-- A default-constructed fading state. -/
def TdlFadingState.default : TdlFadingState K :=
  { enabled := false, fDMaxHz := 0, spectrum := .jakes, gridUs := 100, tapAlpha := [], tapPhi := [] }

/-- **`prepare_tdl_fading_state`.** Each tap draws an angle and a phase for every sinusoid, and
one LOS phase. -/
def prepareTdlFadingState [Rng K] (step : ModelStep K) (seed : UInt64) : TdlFadingState K :=
  let draw := fun k m : ℕ => Rng.uniform2Pi seed (k * (2 * kTdlFadingSinusoids + 1) + m)
  let taps := if step.fadingEnabled then List.range step.taps.length else []
  { enabled := step.fadingEnabled, fDMaxHz := step.fadingFDMaxHz
    spectrum := step.fadingSpectrum, gridUs := step.fadingGridUs
    tapAlpha := taps.map fun k m => draw k (2 * m.val)
    tapPhi := taps.map fun k m => draw k (2 * m.val + 1) }

variable [LinearOrder K] [FloorRing K] [Libm K]

/-- `exp(j * angle)`. -/
def phasor (angle : K) : Cplx K := ⟨Libm.cos angle, Libm.sin angle⟩

/-- `start` multiplied `n` times by `step`. -/
def advance (step start : Cplx K) : ℕ → Cplx K
  | 0 => start
  | n + 1 => advance step start n * step

/-- The angular rate of a ray that arrives at angle `alpha`. -/
def rayOmega (fDMaxHz alpha : K) : K := 2 * Libm.pi * fDMaxHz * Libm.cos alpha

/-- One point of the Jakes process of one tap. -/
def jakesPoint (fading : TdlFadingState K) (slotStartT gridDt : K) (k g : ℕ) : Cplx K :=
  let alpha := fading.tapAlpha.getD k fun _ => 0
  let phi := fading.tapPhi.getD k fun _ => 0
  let sum := (List.finRange kTdlFadingSinusoids).foldl (fun acc m =>
    let omega := rayOmega fading.fDMaxHz (alpha m)
    acc + advance (phasor (omega * gridDt))
      (phasor (fmod (omega * slotStartT + phi m) (2 * Libm.pi))) g) 0
  sum.smul (1 / Libm.sqrt (kTdlFadingSinusoids : K))

/-- The stride of `generate_fading_grid`, computed in `double`s. -/
def hostStride (gridUs : K) (sampleRateHz : ℕ) : ℕ :=
  max 1 (roundInt (Libm.float64
    (Libm.float64 (gridUs * Libm.float64 (1 / 10 ^ 6)) * Libm.float64 (sampleRateHz : K)))).toNat

/-- **`generate_fading_grid`.** -/
def generateFadingGrid (fading : TdlFadingState K) (nTaps count sampleRateHz slotStartSamples : ℕ)
    (out : FadingGrid K) : Except String (FadingGrid K) :=
  if !fading.enabled then pure { out with taps := 0, points := 0, values := [] }
  else if fading.spectrum ≠ .jakes then
    throw ("tdl fading spectrum other than 'jakes' is not implemented yet " ++
      "(Phase 1.4b ships Jakes; gaussian/flat reserved for a later phase)")
  else
    let sr : K := sampleRateHz
    let stride := hostStride fading.gridUs sampleRateHz
    let points := (count + stride - 1) / stride + 1
    pure
      { stride := stride, points := points, taps := nTaps
        values := (List.range nTaps).flatMap fun k => (List.range points).map
          (jakesPoint fading (slotStartSamples / sr) (stride / sr) k) }

/-- The coefficient of tap `k` at sample `n`: the interpolated grid and, for a LOS tap, the
specular ray. -/
def fadingGain (fading : TdlFadingState K) (grid : FadingGrid K) (losCoefficient : Cplx K)
    (sampleRateHz slotStartSamples k n : ℕ) (tap : TapSpec K) : Cplx K :=
  let floor := n / grid.stride
  let ceil := min (floor + 1) (grid.points - 1)
  let frac : K := ((n - floor * grid.stride : ℕ) : K) / grid.stride
  let row := fun g => grid.values.getD (k * grid.points + g) 0
  let rayleigh := (row floor).smul (1 - frac) + (row ceil).smul frac
  if tap.isLos then
    let kLin := Libm.pow10 (tap.losKDb / 10)
    let omega := rayOmega fading.fDMaxHz tap.losAngleRad
    let start := phasor (fmod (omega * (slotStartSamples / sampleRateHz)) (2 * Libm.pi))
    let los := advance (phasor (omega / sampleRateHz)) start n
    (losCoefficient * los).smul (Libm.sqrt (kLin / (kLin + 1))) +
      rayleigh.smul (Libm.sqrt (1 / (kLin + 1)))
  else rayleigh

/-- **`apply_tdl_step_fading`.** -/
def applyTdlStepFading (input : List (Iq K)) (taps : List (TapSpec K))
    (polyphase : List (Polyphase K)) (delayLine : List (Iq K)) (fading : TdlFadingState K)
    (sampleRateHz slotStartSamples : ℕ) (grid : FadingGrid K) (losCoefficient : Cplx K) :
    Except String (List (Iq K) × List (Iq K)) :=
  if !fading.enabled then pure (applyTdlStep input taps polyphase delayLine)
  else if grid.taps ≠ taps.length ∨ grid.points = 0 then
    throw "tdl fading grid does not match the step's tap count"
  else
    let read := readSample input delayLine
    pure
      ((List.range input.length).map fun n =>
          (taps.zip polyphase).zipIdx.foldl (fun acc p =>
            let g := fadingGain fading grid losCoefficient sampleRateHz slotStartSamples p.2 n p.1.1
            let gain := Libm.pow10 (p.1.1.gainDb / 20)
            let x := (filterTap read n p.1.1 p.1.2).rotate p.1.1.phaseRad
            acc + ⟨gain * (x.i * g.re - x.q * g.im), gain * (x.i * g.im + x.q * g.re)⟩) 0,
        rollDelayLine input delayLine)

end Fading

/-! ## What the ring keeps -/

section Ring

@[simp] theorem length_rollDelayLine {K : Type} (input delayLine : List (Iq K)) :
    (rollDelayLine input delayLine).length = delayLine.length := by
  unfold rollDelayLine
  split_ifs with h
  · rw [List.length_drop]
    omega
  · rw [List.length_append, List.length_drop]
    omega

end Ring
