/-
# Samples and scalars

The source computes with `float` and `double`.  The model reads both as one field
`K`; what the code takes from `<cmath>` and from stream formatting is the class `Libm`.  Rounding
to `float` and to `double` is a part of that class.  It is written where an integer is made of the
result, and elsewhere a cast between the two is the identity.  The integer casts follow the source:
truncation towards zero, and `uint64` by its residue.
-/
import Mathlib
import GpuChannel.Library.Numerals

/-- What the code uses of the C++ mathematics and formatting libraries. -/
class Libm (K : Type) where
  /-- `std::pow(10.0, x)` -/
  pow10 : K → K
  log10 : K → K
  sqrt : K → K
  hypot : K → K → K
  cos : K → K
  sin : K → K
  atan2 : K → K → K
  pi : K
  /-- the `float` next to a number -/
  float32 : K → K
  /-- the `double` next to a number -/
  float64 : K → K
  /-- `format_double` of control_server.cpp (15 significant digits) -/
  formatDouble : K → String
  /-- `std::to_string(double)` -/
  toString : K → String
  /-- `operator<<` of a double at the default precision (6 significant digits) -/
  formatStream : K → String

/-- **`IqSample` (iq.h).** -/
structure Iq (K : Type) where
  i : K
  q : K
  deriving DecidableEq, Repr

/-- `std::complex`, for tap coefficients and mixing factors. -/
structure Cplx (K : Type) where
  re : K
  im : K
  deriving DecidableEq, Repr

section Casts

variable {K : Type} [Ring K] [LinearOrder K] [FloorRing K]

/-- `static_cast<int>` of a floating-point value: truncation towards zero. -/
def truncInt (x : K) : ℤ := if 0 ≤ x then ⌊x⌋ else ⌈x⌉

/-- `static_cast<std::uint64_t>` of a floating-point value. -/
def castU64 (x : K) : ℕ := (truncInt x % 2 ^ 64).toNat

end Casts

namespace Iq

variable {K : Type}

instance [Zero K] : Zero (Iq K) := ⟨⟨0, 0⟩⟩

instance [Add K] : Add (Iq K) := ⟨fun a b => ⟨a.i + b.i, a.q + b.q⟩⟩

/-- `scale` of iq.h. -/
def scale [Mul K] (value : Iq K) (factor : K) : Iq K := ⟨value.i * factor, value.q * factor⟩

/-- `rotate` of iq.h. -/
def rotate [Ring K] [Libm K] (value : Iq K) (phaseRad : K) : Iq K :=
  let c := Libm.cos phaseRad
  let s := Libm.sin phaseRad
  ⟨value.i * c - value.q * s, value.i * s + value.q * c⟩

/-- `power` of iq.h. -/
def power [Ring K] (value : Iq K) : K := value.i * value.i + value.q * value.q

@[simp] theorem zero_i [Zero K] : (0 : Iq K).i = 0 := rfl
@[simp] theorem zero_q [Zero K] : (0 : Iq K).q = 0 := rfl
@[simp] theorem add_i [Add K] (a b : Iq K) : (a + b).i = a.i + b.i := rfl
@[simp] theorem add_q [Add K] (a b : Iq K) : (a + b).q = a.q + b.q := rfl

end Iq

namespace Cplx

variable {K : Type}

instance [Zero K] : Zero (Cplx K) := ⟨⟨0, 0⟩⟩

instance [Zero K] [One K] : One (Cplx K) := ⟨⟨1, 0⟩⟩

instance [Add K] : Add (Cplx K) := ⟨fun a b => ⟨a.re + b.re, a.im + b.im⟩⟩

instance [Sub K] : Sub (Cplx K) := ⟨fun a b => ⟨a.re - b.re, a.im - b.im⟩⟩

instance [Ring K] : Mul (Cplx K) :=
  ⟨fun a b => ⟨a.re * b.re - a.im * b.im, a.re * b.im + a.im * b.re⟩⟩

/-- `std::conj`. -/
def conj [Neg K] (a : Cplx K) : Cplx K := ⟨a.re, -a.im⟩

/-- Multiplication by a real factor. -/
def smul [Mul K] (a : Cplx K) (x : K) : Cplx K := ⟨a.re * x, a.im * x⟩

/-- Division by a real number. -/
def sdiv [Div K] (a : Cplx K) (x : K) : Cplx K := ⟨a.re / x, a.im / x⟩

end Cplx
