/-
# Bijective mixing of machine words

A word mixer is a composition of additions, exclusive ors with a constant, shifts folded
back by exclusive or, and multiplications by a constant.  Each stage loses no information:
the folded shift because a bit of the result and the bits above it determine the bit of the
argument, the multiplication because the constant has an inverse modulo the word size.
-/
import Mathlib.Data.UInt

namespace Words

/-- Folding a word shifted right back into itself can be undone. -/
theorem xorShiftRight_injective {w k : ℕ} (hk : 0 < k) :
    Function.Injective fun x : BitVec w => x ^^^ (x >>> k) := by
  intro x y h
  have hbit (i : ℕ) : (x.getLsbD i ^^ x.getLsbD (k + i)) = (y.getLsbD i ^^ y.getLsbD (k + i)) := by
    have hi := congrArg (fun v => v.getLsbD i) h
    simpa [BitVec.getLsbD_xor, BitVec.getLsbD_ushiftRight] using hi
  -- downwards from the top bit: the bits above `i` agree already
  have hall : ∀ d i, w ≤ i + d → x.getLsbD i = y.getLsbD i := by
    intro d
    induction d with
    | zero =>
      intro i hi
      rw [BitVec.getLsbD_of_ge x i hi, BitVec.getLsbD_of_ge y i hi]
    | succ d ih =>
      intro i hi
      have habove : x.getLsbD (k + i) = y.getLsbD (k + i) := ih (k + i) (by omega)
      have hi' := hbit i
      rw [habove] at hi'
      exact Bool.xor_left_inj.mp hi'
  apply BitVec.eq_of_getLsbD_eq
  intro i _
  exact hall w i (by omega)

theorem xor_left_injective (c : UInt64) : Function.Injective fun x : UInt64 => x ^^^ c := by
  intro x y h
  have hc := congrArg (fun v => v ^^^ c) h
  simpa [UInt64.xor_assoc] using hc

theorem add_left_injective (c : UInt64) : Function.Injective fun x : UInt64 => x + c := by
  intro x y h
  exact UInt64.add_left_inj c |>.mp h

/-- Multiplication by a word with an inverse loses nothing. -/
theorem mul_left_injective {c d : UInt64} (hcd : c * d = 1) :
    Function.Injective fun x : UInt64 => x * c := by
  intro x y h
  have hd := congrArg (fun v => v * d) h
  simpa only [UInt64.mul_assoc, hcd, UInt64.mul_one] using hd

/-- `xorShiftRight_injective` for a 64-bit word and a shift below its size. -/
theorem xorShift_injective {k : UInt64} (hk : 0 < k.toNat % 64) :
    Function.Injective fun x : UInt64 => x ^^^ (x >>> k) := by
  intro x y h
  apply UInt64.toBitVec_inj.mp
  apply xorShiftRight_injective hk
  have hb := congrArg UInt64.toBitVec h
  simpa [UInt64.toBitVec_xor, UInt64.toBitVec_shiftRight, BitVec.ushiftRight_eq'] using hb

end Words
