/-
# Rational scalars for concrete runs

A computable reading of `Libm` and `Rng` over `ℚ`.  It agrees with the real functions wherever
the concrete inputs of this development evaluate them: powers of ten at integers, roots of
squares, the sine and cosine of zero.  Rounding is that of the binary formats.
-/
import GpuChannel.DelayLine
import GpuChannel.Library.Rounding

/-- Without the zeros at the end, and without a point that ends the rest. -/
def stripZeros (digits : List Char) : List Char :=
  (((digits.reverse.dropWhile (· = '0')).dropWhile (· = '.')).reverse)

/-- `n` of the digits before the point and the others behind it. -/
def pointAfter (n : ℕ) (digits : List Char) : List Char :=
  stripZeros (digits.take n ++ '.' :: digits.drop n)

section Format

variable {K : Type} [Field K] [LinearOrder K] [FloorRing K]

/-- The first `n` significant digits of a positive number and the exponent of the first of them,
rounded half to even. -/
def significant (n : ℕ) (x : K) : ℕ × ℤ :=
  let e := Int.log 10 x
  let y := x * 10 ^ ((n : ℤ) - 1 - e)
  let down := ⌊y⌋.toNat
  let m :=
    if y - down < 1 / 2 ∨ y - down = 1 / 2 ∧ down % 2 = 0 then down else down + 1
  if m = 10 ^ n then (10 ^ (n - 1), e + 1) else (m, e)

/-- `printf("%.ng")` of a positive number. -/
def formatG (n : ℕ) (x : K) : List Char :=
  let (m, e) := significant n x
  let digits := Nat.toDigits 10 m
  if -4 ≤ e ∧ e < 0 then
    '0' :: '.' :: stripZeros (List.replicate (-e - 1).toNat '0' ++ digits)
  else if 0 ≤ e ∧ e < n then pointAfter (e.toNat + 1) digits
  else
    let power := Nat.toDigits 10 e.natAbs
    pointAfter 1 digits ++ ['e', if e < 0 then '-' else '+'] ++
      List.replicate (2 - power.length) '0' ++ power

/-- A number with `n` significant digits. -/
def formatDigits (n : ℕ) (x : K) : String :=
  String.ofList
    (if x = 0 then ['0'] else if x < 0 then '-' :: formatG n (-x) else formatG n x)

end Format

/-- Exact where the value is rational; `0` (or `1` for the cosine) stands for the rest. -/
instance : Libm ℚ where
  pow10 x := if x.den = 1 then 10 ^ x.num else 0
  log10 x := if x = 10 ^ Int.log 10 x then Int.log 10 x else 0
  sqrt x := Rat.sqrt x
  hypot x y := Rat.sqrt (x * x + y * y)
  cos _ := 1
  sin _ := 0
  atan2 _ _ := 0
  pi := 355 / 113
  float32 := FloatFormat.single.round
  float64 := FloatFormat.double.round
  formatDouble x := toString x
  toString x := toString x
  formatStream x := formatDigits 6 x

/-- No noise, and every ray at angle zero. -/
instance : Rng ℚ where
  hashString := String.length
  normal _ _ := 0
  uniform2Pi _ _ := 0

/-- A device without offset or scale. -/
def plainDevice (id : String) : DeviceConfig ℚ :=
  { id := id, txEndpoint := "tcp://*:" ++ id, rxEndpoint := "tcp://" ++ id
    txTimingOffsetSamples := 0, txScaleDb := 0 }

/-- A link of a configuration file, without propagation delay. -/
def plainLink (fromNode toNode model : String) : LinkConfig ℚ :=
  { fromNode := fromNode, toNode := toNode, model := model, declaredModel := model
    propagationDelaySamples := 0 }
