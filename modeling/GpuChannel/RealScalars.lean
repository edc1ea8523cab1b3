/-
# Real scalars

The exact reading of `Libm` over `ℝ`, for the statements that are about exact arithmetic: powers
and logarithms are the real ones, the angle of a pair is the argument of the complex number, and
nothing is rounded.
-/
import GpuChannel.RationalScalars

noncomputable section

/-- `std::to_string`: six digits behind the point. -/
def formatFixed (x : ℝ) : String :=
  let m := (roundInt (|x| * 10 ^ 6)).toNat
  let digits := Nat.toDigits 10 (m % 10 ^ 6)
  (if x < 0 then "-" else "") ++ toString (m / 10 ^ 6) ++ "." ++
    String.ofList (List.replicate (6 - digits.length) '0' ++ digits)

instance : Libm ℝ where
  pow10 x := (10 : ℝ) ^ x
  log10 x := Real.logb 10 x
  sqrt x := √x
  hypot x y := √(x * x + y * y)
  cos x := Real.cos x
  sin x := Real.sin x
  atan2 y x := Complex.arg ⟨x, y⟩
  pi := Real.pi
  float32 x := x
  float64 x := x
  formatDouble x := formatDigits 15 x
  toString x := formatFixed x
  formatStream x := formatDigits 6 x

end

/-! ## Complex factors in a tap -/

/-- A sample times a complex number. -/
def Iq.mulCplx {K : Type} [Ring K] (value : Iq K) (c : Cplx K) : Iq K :=
  ⟨value.i * c.re - value.q * c.im, value.i * c.im + value.q * c.re⟩

theorem norm_mk (re im : ℝ) : ‖(⟨re, im⟩ : ℂ)‖ = √(re * re + im * im) := by
  rw [Complex.norm_def, Complex.normSq_apply]

/-- The gain in dB of a magnitude gives the magnitude back. -/
theorem pow10_log10 {x : ℝ} (hx : 0 < x) (g : ℝ) :
    Libm.pow10 ((g + 20 * Libm.log10 x) / 20) = Libm.pow10 (g / 20) * x := by
  show (10 : ℝ) ^ ((g + 20 * Real.logb 10 x) / 20) = (10 : ℝ) ^ (g / 20) * x
  rw [show (g + 20 * Real.logb 10 x) / 20 = g / 20 + Real.logb 10 x by ring,
    Real.rpow_add (by norm_num), Real.rpow_logb (by norm_num) (by norm_num) hx]

/-- **A folded coefficient multiplies the tap.** -/
theorem weightTap_folded (tap : TapSpec ℝ) {re im : ℝ} (h : re ≠ 0 ∨ im ≠ 0) (x : Iq ℝ) :
    weightTap
        { tap with
          gainDb := tap.gainDb + 20 * Libm.log10 (Libm.hypot re im)
          phaseRad := tap.phaseRad + Libm.atan2 im re } x =
      (weightTap tap x).mulCplx ⟨re, im⟩ := by
  have hne : (⟨re, im⟩ : ℂ) ≠ 0 := by
    intro heq
    rw [Complex.ext_iff] at heq
    rcases h with h | h
    · exact h heq.1
    · exact h heq.2
  have hpos : 0 < Libm.hypot re im := by
    show 0 < √(re * re + im * im)
    rw [← norm_mk]
    exact norm_pos_iff.mpr hne
  -- the polar form of the coefficient
  have hcos : Libm.hypot re im * Real.cos (Complex.arg ⟨re, im⟩) = re := by
    show √(re * re + im * im) * _ = re
    rw [← norm_mk]
    exact Complex.norm_mul_cos_arg ⟨re, im⟩
  have hsin : Libm.hypot re im * Real.sin (Complex.arg ⟨re, im⟩) = im := by
    show √(re * re + im * im) * _ = im
    rw [← norm_mk]
    exact Complex.norm_mul_sin_arg ⟨re, im⟩
  unfold weightTap Iq.rotate Iq.mulCplx
  dsimp only
  rw [pow10_log10 hpos]
  show Iq.mk (_ * (x.i * Real.cos (tap.phaseRad + Complex.arg ⟨re, im⟩) -
      x.q * Real.sin (tap.phaseRad + Complex.arg ⟨re, im⟩)))
    (_ * (x.i * Real.sin (tap.phaseRad + Complex.arg ⟨re, im⟩) +
      x.q * Real.cos (tap.phaseRad + Complex.arg ⟨re, im⟩))) = _
  rw [Real.cos_add, Real.sin_add]
  congr 1
  · show _ = Libm.pow10 (tap.gainDb / 20) * (x.i * Real.cos tap.phaseRad -
      x.q * Real.sin tap.phaseRad) * re - Libm.pow10 (tap.gainDb / 20) *
      (x.i * Real.sin tap.phaseRad + x.q * Real.cos tap.phaseRad) * im
    linear_combination Libm.pow10 (tap.gainDb / 20) * (x.i * Real.cos tap.phaseRad -
      x.q * Real.sin tap.phaseRad) * hcos - Libm.pow10 (tap.gainDb / 20) *
      (x.i * Real.sin tap.phaseRad + x.q * Real.cos tap.phaseRad) * hsin
  · show _ = Libm.pow10 (tap.gainDb / 20) * (x.i * Real.cos tap.phaseRad -
      x.q * Real.sin tap.phaseRad) * im + Libm.pow10 (tap.gainDb / 20) *
      (x.i * Real.sin tap.phaseRad + x.q * Real.cos tap.phaseRad) * re
    linear_combination Libm.pow10 (tap.gainDb / 20) * (x.i * Real.sin tap.phaseRad +
      x.q * Real.cos tap.phaseRad) * hcos + Libm.pow10 (tap.gainDb / 20) *
      (x.i * Real.cos tap.phaseRad - x.q * Real.sin tap.phaseRad) * hsin
