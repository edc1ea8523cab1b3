/-
# Fading as a function of time

The generators of the fading grid and of the specular ray start every slot at an angle reduced
modulo a full turn and go on by rotations of equal steps.  In exact arithmetic a rotation that is
repeated `n` times is one rotation by `n` steps and a reduced angle turns like the angle, so what
they compute is the closed form of the process at the absolute time of the grid point or the sample:
on the host, and in the kernels, which reach the sample of a specular ray by one product instead.
-/
import GpuChannel.CfoPhase
import GpuChannel.CudaFading
import GpuChannel.DeviceChannel
import GpuChannel.MixingFactor

open Complex

/-! ## Rotations -/

/-- A rotation of the code is the complex exponential. -/
theorem toComplex_phasor (x : ℝ) : (phasor x).toComplex = exp (x * I) := by
  rw [exp_mul_I, ← ofReal_cos, ← ofReal_sin]
  apply Complex.ext
  · rw [add_re, ofReal_re, re_ofReal_mul, I_re, mul_zero, add_zero]
    rfl
  · rw [add_im, ofReal_im, im_ofReal_mul, I_im, mul_one, zero_add]
    rfl

/-- Angles that differ by full turns rotate alike. -/
theorem exp_congr {a b : ℝ} (h : (a : Real.Angle) = b) : exp (a * I) = exp (b * I) := by
  have hcos : Real.cos a = Real.cos b := by
    rw [← Real.Angle.cos_coe, h, Real.Angle.cos_coe]
  have hsin : Real.sin a = Real.sin b := by
    rw [← Real.Angle.sin_coe, h, Real.Angle.sin_coe]
  rw [exp_mul_I, exp_mul_I, ← ofReal_cos, ← ofReal_sin, hcos, hsin, ofReal_cos, ofReal_sin]

/-- A start angle may be reduced by full turns. -/
theorem exp_fmod_add (x y : ℝ) :
    exp ((fmod x (2 * Real.pi) + y : ℝ) * I) = exp ((x + y : ℝ) * I) := by
  apply exp_congr
  rw [Real.Angle.coe_add, coe_fmod_two_pi, Real.Angle.coe_add]

/-- The recurrence of the generators: `n` equal rotations. -/
theorem toComplex_advance (step start : Cplx ℝ) (n : ℕ) :
    (advance step start n).toComplex = start.toComplex * step.toComplex ^ n := by
  induction n with
  | zero =>
      rw [pow_zero, mul_one]
      rfl
  | succ n ih =>
      have hstep : advance step start (n + 1) = advance step start n * step := rfl
      rw [hstep, Cplx.toComplex_mul, ih, mul_assoc, ← pow_succ]

/-- **A rotation started at a reduced angle and repeated `n` times** is one rotation. -/
theorem toComplex_advance_fmod (start step : ℝ) (n : ℕ) :
    (advance (phasor step) (phasor (fmod start (2 * Real.pi))) n).toComplex =
      exp ((start + n * step : ℝ) * I) := by
  have hpow : exp (step * I) ^ n = exp ((n * step : ℝ) * I) := by
    rw [← exp_nat_mul]
    congr 1
    push_cast
    ring
  rw [toComplex_advance, toComplex_phasor, toComplex_phasor, hpow, ← exp_add, ← add_mul,
    ← ofReal_add, exp_fmod_add]

/-- A sum that the code accumulates over the rays. -/
theorem toComplex_foldl_add {n : ℕ} (f : Fin n → Cplx ℝ) :
    ((List.finRange n).foldl (fun acc m => acc + f m) 0).toComplex = ∑ m, (f m).toComplex := by
  have hfold : ∀ (l : List (Fin n)) (a : Cplx ℝ),
      (l.foldl (fun acc m => acc + f m) a).toComplex =
        a.toComplex + (l.map fun m => (f m).toComplex).sum := by
    intro l
    induction l with
    | nil => exact fun a => (add_zero _).symm
    | cons m l ih =>
        intro a
        rw [List.foldl_cons, ih, Cplx.toComplex_add, List.map_cons, List.sum_cons, add_assoc]
  rw [hfold, Cplx.toComplex_zero, zero_add, Fin.sum_univ_def]

/-! ## The process -/

noncomputable section

/-- **The Jakes process of tap `k` at time `t`.** -/
def jakesAt (fDMaxHz : ℝ) (tapAlpha tapPhi : List (Fin kTdlFadingSinusoids → ℝ)) (k : ℕ) (t : ℝ) :
    ℂ :=
  1 / (√(kTdlFadingSinusoids : ℝ) : ℂ) * ∑ m : Fin kTdlFadingSinusoids,
    exp ((2 * Real.pi * fDMaxHz * Real.cos (tapAlpha.getD k (fun _ => 0) m) * t +
      tapPhi.getD k (fun _ => 0) m : ℝ) * I)

/-- **The specular ray at time `t`**, weighted by the LOS coefficient of the lane. -/
def specularAt (losCoefficient : ℂ) (fDMaxHz losAngleRad t : ℝ) : ℂ :=
  losCoefficient * exp ((2 * Real.pi * fDMaxHz * Real.cos losAngleRad * t : ℝ) * I)

end

/-- What both generators accumulate for a grid point. -/
theorem toComplex_rays (fDMaxHz : ℝ) (tapAlpha tapPhi : List (Fin kTdlFadingSinusoids → ℝ))
    (slotStartT gridDt : ℝ) (k g : ℕ) :
    (((List.finRange kTdlFadingSinusoids).foldl (fun acc m =>
      acc + advance (phasor (rayOmega fDMaxHz (tapAlpha.getD k (fun _ => 0) m) * gridDt))
        (phasor (fmod (rayOmega fDMaxHz (tapAlpha.getD k (fun _ => 0) m) * slotStartT +
          tapPhi.getD k (fun _ => 0) m) (2 * Libm.pi))) g) 0).smul
      (1 / Libm.sqrt (kTdlFadingSinusoids : ℝ))).toComplex =
      jakesAt fDMaxHz tapAlpha tapPhi k (slotStartT + g * gridDt) := by
  rw [Cplx.toComplex_smul, toComplex_foldl_add, mul_comm]
  unfold jakesAt
  congr 1
  · show ((1 / √(kTdlFadingSinusoids : ℝ) : ℝ) : ℂ) = _
    rw [ofReal_div, ofReal_one]
  · refine Finset.sum_congr rfl fun m _ => ?_
    rw [show (Libm.pi : ℝ) = Real.pi from rfl, toComplex_advance_fmod]
    congr 3
    show rayOmega fDMaxHz _ * slotStartT + _ + g * (rayOmega fDMaxHz _ * gridDt) =
      rayOmega fDMaxHz _ * (slotStartT + g * gridDt) + _
    ring

/-! ## The host -/

/-- **`generate_fading_grid` evaluates the process** at the time of the grid point. -/
theorem jakesPoint_toComplex (fading : TdlFadingState ℝ) (slotStartSamples stride rate k g : ℕ) :
    (jakesPoint fading (slotStartSamples / rate) (stride / rate) k g).toComplex =
      jakesAt fading.fDMaxHz fading.tapAlpha fading.tapPhi k
        ((slotStartSamples + g * stride) / rate) := by
  have htime : ((slotStartSamples : ℝ) / rate + g * (stride / rate)) =
      (slotStartSamples + g * stride) / rate := by
    ring
  rw [← htime]
  exact toComplex_rays ..

section Specular

variable {K : Type} [Field K] [LinearOrder K] [FloorRing K] [Libm K]

/-- The specular factor of sample `n`, as `apply_tdl_step_fading` advances it. -/
def hostSpecular (fading : TdlFadingState K) (losCoefficient : Cplx K)
    (sampleRateHz slotStartSamples n : ℕ) (tap : TapSpec K) : Cplx K :=
  let omega := rayOmega fading.fDMaxHz tap.losAngleRad
  let start := phasor (fmod (omega * (slotStartSamples / sampleRateHz)) (2 * Libm.pi))
  losCoefficient * advance (phasor (omega / sampleRateHz)) start n

/-- The Rayleigh part of sample `n`. -/
def hostRayleigh (grid : FadingGrid K) (k n : ℕ) : Cplx K :=
  let read : GridRead K := hostRead grid n
  let row := fun g : ℤ => grid.values.getD (k * grid.points + g.toNat) 0
  (row read.floor).smul (1 - read.frac) + (row read.ceil).smul read.frac

/-- The coefficient of a LOS tap. -/
theorem fadingGain_of_los (fading : TdlFadingState K) (grid : FadingGrid K)
    (losCoefficient : Cplx K) (sampleRateHz slotStartSamples k n : ℕ) {tap : TapSpec K}
    (hlos : tap.isLos = true) :
    fadingGain fading grid losCoefficient sampleRateHz slotStartSamples k n tap =
      (hostSpecular fading losCoefficient sampleRateHz slotStartSamples n tap).smul
          (Libm.sqrt (Libm.pow10 (tap.losKDb / 10) / (Libm.pow10 (tap.losKDb / 10) + 1))) +
        (hostRayleigh grid k n).smul (Libm.sqrt (1 / (Libm.pow10 (tap.losKDb / 10) + 1))) := by
  unfold fadingGain
  dsimp only
  rw [if_pos hlos]
  rfl

end Specular

/-- **`apply_tdl_step_fading` evaluates the specular ray** at the time of the sample. -/
theorem hostSpecular_toComplex (fading : TdlFadingState ℝ) (losCoefficient : Cplx ℝ)
    (rate slotStartSamples n : ℕ) (tap : TapSpec ℝ) :
    (hostSpecular fading losCoefficient rate slotStartSamples n tap).toComplex =
      specularAt losCoefficient.toComplex fading.fDMaxHz tap.losAngleRad
        ((slotStartSamples + n) / rate) := by
  unfold hostSpecular specularAt
  dsimp only
  rw [Cplx.toComplex_mul, show (Libm.pi : ℝ) = Real.pi from rfl, toComplex_advance_fmod]
  congr 4
  show rayOmega fading.fDMaxHz tap.losAngleRad * (slotStartSamples / rate) +
      n * (rayOmega fading.fDMaxHz tap.losAngleRad / rate) =
    rayOmega fading.fDMaxHz tap.losAngleRad * ((slotStartSamples + n) / rate)
  ring

/-! ## The device -/

section Device

variable {K : Type} [Field K] [LinearOrder K] [FloorRing K] [Libm K]

/-- The specular factor of sample `idx`, as `apply_channel_kernel` composes it. -/
def deviceSpecular (s : DeviceLinkState K) (sampleRateHz : ℕ) (tap : Fin kDeviceMaxTaps)
    (idx : ℕ) : Cplx K :=
  let omega := rayOmega s.fDMaxHz (s.taps tap).losAngleRad
  let losPhaseStart := fmod (omega * (s.slotStartSamples / sampleRateHz)) (2 * Libm.pi)
  let losStepAngle := omega / sampleRateHz
  s.losCoeff * phasor (losPhaseStart + losStepAngle * idx)

/-- The Rayleigh part of sample `idx`, from the edge's rows of the grid. -/
def deviceRayleigh (shape : ℤ × ℤ) (rows : ℕ → ℕ → Cplx K) (tap : Fin kDeviceMaxTaps)
    (idx : ℕ) : Cplx K :=
  let read : GridRead K := deviceRead shape idx
  (rows tap read.floor.toNat).smul (1 - read.frac) + (rows tap read.ceil.toNat).smul read.frac

/-- The coefficient `g` of a tap at sample `idx`. -/
def deviceGain (s : DeviceLinkState K) (shape : ℤ × ℤ) (rows : ℕ → ℕ → Cplx K)
    (sampleRateHz : ℕ) (tap : Fin kDeviceMaxTaps) (idx : ℕ) : Cplx K :=
  if s.fadingEnabled then
    if (s.taps tap).isLos then
      (deviceSpecular s sampleRateHz tap idx).smul (s.taps tap).losFactor +
        (deviceRayleigh shape rows tap idx).smul (s.taps tap).rayleighFactor
    else deviceRayleigh shape rows tap idx
  else 1

/-- The coefficient of a LOS tap. -/
theorem deviceGain_of_los (s : DeviceLinkState K) (shape : ℤ × ℤ) (rows : ℕ → ℕ → Cplx K)
    (sampleRateHz : ℕ) {tap : Fin kDeviceMaxTaps} (hfading : s.fadingEnabled = true)
    (hlos : (s.taps tap).isLos = true) (idx : ℕ) :
    deviceGain s shape rows sampleRateHz tap idx =
      (deviceSpecular s sampleRateHz tap idx).smul (s.taps tap).losFactor +
        (deviceRayleigh shape rows tap idx).smul (s.taps tap).rayleighFactor := by
  unfold deviceGain
  rw [if_pos hfading, if_pos hlos]

end Device

/-- In exact arithmetic the stride of the device is the host's, in the range of an `int`. -/
theorem fadingGridShape_stride (s : DeviceFadingState ℝ) (count sampleRateHz : ℕ) :
    (fadingGridShape s count sampleRateHz).1 =
      (min (2 ^ 31 - 1) (hostStride s.gridUs sampleRateHz) : ℕ) := by
  have hsingle : ∀ x : ℝ, Libm.float32 x = x := fun _ => rfl
  have hdouble : ∀ x : ℝ, Libm.float64 x = x := fun _ => rfl
  unfold fadingGridShape deviceStride hostStride saturate32
  simp only [hsingle, hdouble]
  generalize roundInt (s.gridUs * (1 / 10 ^ 6) * (sampleRateHz : ℝ)) = rounded
  split_ifs <;> omega

/-- **`generate_fading_grid_kernel` evaluates the process** at the time of every point it writes. -/
theorem generateFadingGridKernel_toComplex {states : List (DeviceFadingState ℝ)}
    {s : DeviceFadingState ℝ} {count rate edge tap point : ℕ} (hs : states[edge]? = some s)
    {value : Cplx ℝ}
    (hvalue : generateFadingGridKernel states count rate edge tap point = some value) :
    value.toComplex = jakesAt s.fDMaxHz s.tapAlpha s.tapPhi tap
      ((s.slotStartSamples + point * ((fadingGridShape s count rate).1 : ℝ)) / rate) := by
  unfold generateFadingGridKernel at hvalue
  rw [hs, Option.bind_some] at hvalue
  split_ifs at hvalue
  obtain rfl := Option.some.inj hvalue
  have htime : ((s.slotStartSamples : ℝ) / rate +
      point * (((fadingGridShape s count rate).1 : ℝ) / rate)) =
        (s.slotStartSamples + point * ((fadingGridShape s count rate).1 : ℝ)) / rate := by
    ring
  rw [← htime]
  exact toComplex_rays ..

/-- **`apply_channel_kernel` evaluates the specular ray** at the time of the sample. -/
theorem deviceSpecular_toComplex (s : DeviceLinkState ℝ) (rate : ℕ) (tap : Fin kDeviceMaxTaps)
    (idx : ℕ) :
    (deviceSpecular s rate tap idx).toComplex =
      specularAt s.losCoeff.toComplex s.fDMaxHz (s.taps tap).losAngleRad
        ((s.slotStartSamples + idx) / rate) := by
  unfold deviceSpecular specularAt
  dsimp only
  rw [Cplx.toComplex_mul, toComplex_phasor, show (Libm.pi : ℝ) = Real.pi from rfl, exp_fmod_add]
  congr 4
  show rayOmega s.fDMaxHz (s.taps tap).losAngleRad * (s.slotStartSamples / rate) +
      rayOmega s.fDMaxHz (s.taps tap).losAngleRad / rate * idx =
    rayOmega s.fDMaxHz (s.taps tap).losAngleRad * ((s.slotStartSamples + idx) / rate)
  ring
