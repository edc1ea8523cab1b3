/-
# Rounding to a binary floating-point format

A format is given by the number of its binary digits and the exponent of its least positive
number.  `FloatFormat.round` is the nearest number of the format, halves to the even one; above it
is unbounded, so whether a result overflows is left to whoever rounds.

Numbers are elements of an ordered field with a floor, so the functions run over the rationals.
-/
import Mathlib
import GpuChannel.Library.Numerals

section Rounding

variable {K : Type} [Field K] [LinearOrder K] [FloorRing K]

/-! ## To an integer -/

/-- To the nearest integer, halves to the even one. -/
def roundHalfEven (x : K) : ℤ :=
  let d := x - ⌊x⌋
  if d < 1 / 2 then ⌊x⌋
  else if 1 / 2 < d then ⌊x⌋ + 1
  else if ⌊x⌋ % 2 = 0 then ⌊x⌋ else ⌊x⌋ + 1

/-- An integer is not rounded. -/
theorem roundHalfEven_intCast [IsStrictOrderedRing K] (n : ℤ) : roundHalfEven (n : K) = n := by
  unfold roundHalfEven
  dsimp only
  rw [Int.floor_intCast, sub_self, if_pos (by norm_num)]

/-- What is not negative is not rounded below zero. -/
theorem roundHalfEven_nonneg {x : K} (hx : 0 ≤ x) : 0 ≤ roundHalfEven x := by
  have hfloor : 0 ≤ ⌊x⌋ := Int.floor_nonneg.mpr hx
  unfold roundHalfEven
  dsimp only
  split
  · exact hfloor
  · split
    · omega
    · split <;> omega

/-! ## To a format -/

/-- A binary format. -/
structure FloatFormat where
  digits : ℕ
  minExp : ℤ

namespace FloatFormat

/-- `float`. -/
def single : FloatFormat := ⟨24, -149⟩

/-- `double`. -/
def double : FloatFormat := ⟨53, -1074⟩

/-- The exponent of the last digit of a positive number. -/
def lastPlace (f : FloatFormat) (x : K) : ℤ := max f.minExp (Int.log 2 x + 1 - f.digits)

/-- A number that is not negative, rounded at its last digit. -/
def roundMagnitude (f : FloatFormat) (x : K) : K :=
  roundHalfEven (x / 2 ^ f.lastPlace x) * 2 ^ f.lastPlace x

/-- **The nearest number of the format**, halves to the even one. -/
def round (f : FloatFormat) (x : K) : K :=
  if x < 0 then -f.roundMagnitude (-x) else f.roundMagnitude x

example : single.round (1 / 10 : ℚ) = 13421773 / 2 ^ 27 := by decide +kernel

example : double.round (1 / 10 : ℚ) = 3602879701896397 / 2 ^ 55 := by decide +kernel

example : double.round (2 ^ 53 + 1 : ℚ) = 2 ^ 53 := by decide +kernel

/-- Zero is a number of every format. -/
theorem round_zero [IsStrictOrderedRing K] (f : FloatFormat) : f.round (0 : K) = 0 := by
  have hzero : roundHalfEven (0 : K) = 0 := by
    have h := roundHalfEven_intCast (K := K) 0
    rwa [Int.cast_zero] at h
  rw [round, if_neg (lt_irrefl 0), roundMagnitude, zero_div, hzero, Int.cast_zero, zero_mul]

end FloatFormat

end Rounding
