/-
# Divisions with a carried remainder, and limited releases

A rate turns an amount `c` into `c * a / b` units of time.  When the amounts come one by one,
the remainder of each division is carried into the next, so that nothing is rounded away:
after any amounts the quotients make up the quotient of their sum.  A limiter that is advanced
by what it grants, and is never left more than a burst behind the last release, bounds what is
granted between any two releases: `granted_le`.
-/
import Mathlib

/-! ## Carried division -/

namespace Carried

/-- Whole multiples of the divisor may be taken out first. -/
theorem split_div (a r c : ℕ) {b : ℕ} (hb : 0 < b) :
    c / b * a + (c % b * a + r) / b = (c * a + r) / b := by
  have hc : c * a + r = (c % b * a + r) + b * (c / b * a) := by
    calc c * a + r = (c % b + b * (c / b)) * a + r := by rw [Nat.mod_add_div]
      _ = (c % b * a + r) + b * (c / b * a) := by ring
  rw [hc, Nat.add_mul_div_left _ _ hb, Nat.add_comm]

theorem split_mod (a b r c : ℕ) : (c % b * a + r) % b = (c * a + r) % b :=
  ((Nat.mod_modEq c b).mul_right a).add_right r

/-- The remainder of what came before, carried into the next division, completes the quotient
of the sum. -/
theorem advance_div (a s c : ℕ) {b : ℕ} (hb : 0 < b) :
    s * a / b + (c * a + s * a % b) / b = (s + c) * a / b := by
  have hs : (s + c) * a = (c * a + s * a % b) + b * (s * a / b) := by
    calc (s + c) * a = c * a + s * a := by ring
      _ = c * a + (s * a % b + b * (s * a / b)) := by rw [Nat.mod_add_div]
      _ = (c * a + s * a % b) + b * (s * a / b) := by ring
  rw [hs, Nat.add_mul_div_left _ _ hb, Nat.add_comm]

theorem advance_mod (a b s c : ℕ) : (c * a + s * a % b) % b = (s + c) * a % b := by
  rw [Nat.add_mod_mod, ← Nat.add_mul, Nat.add_comm c s]

/-- Over any part of a run, the amounts are less than one unit ahead of the quotients. -/
theorem amounts_lt {a b : ℕ} {amount quotient rest : ℕ → ℕ} {i j : ℕ} (hij : i ≤ j)
    (hstep : ∀ k, i ≤ k → k < j →
      amount k * a + rest k = b * quotient k + rest (k + 1)) (hrest : rest j < b) :
    a * ∑ k ∈ Finset.Ico i j, amount k < b * (∑ k ∈ Finset.Ico i j, quotient k + 1) := by
  have hsum : ∀ n, i + n ≤ j → a * ∑ k ∈ Finset.Ico i (i + n), amount k + rest i
      = b * ∑ k ∈ Finset.Ico i (i + n), quotient k + rest (i + n) := by
    intro n
    induction n with
    | zero => simp
    | succ n ih =>
        intro hn
        have hprev := ih (by omega)
        have hnext := hstep (i + n) (by omega) (by omega)
        rw [← Nat.add_assoc, Finset.sum_Ico_succ_top (by omega), Finset.sum_Ico_succ_top (by omega),
          Nat.mul_add, Nat.mul_add]
        linarith
  have hlast := hsum (j - i) (by omega)
  rw [Nat.add_sub_cancel' hij] at hlast
  rw [Nat.mul_add, Nat.mul_one]
  omega

end Carried

/-! ## Limited releases -/

namespace Limiter

/-- What a limiter grants from release `i` to release `j` is at most the time between them and
one burst: each grant advances it, no release leaves it more than a burst behind, and no release
comes before it. -/
theorem granted_le (limiter release grant : ℕ → ℤ) {burst : ℤ} {i j : ℕ} (hij : i < j)
    (hadvance : ∀ k, i ≤ k → k < j → limiter k + grant k ≤ limiter (k + 1))
    (hlate : release i - burst + grant i ≤ limiter (i + 1)) (hdue : limiter j ≤ release j) :
    ∑ k ∈ Finset.Ico i j, grant k ≤ release j - release i + burst := by
  have hreach : ∀ n, i + 1 + n ≤ j →
      release i - burst + ∑ k ∈ Finset.Ico i (i + 1 + n), grant k ≤ limiter (i + 1 + n) := by
    intro n
    induction n with
    | zero =>
        intro _
        simpa using hlate
    | succ n ih =>
        intro hn
        have hprev := ih (by omega)
        have hnext := hadvance (i + 1 + n) (by omega) (by omega)
        rw [← Nat.add_assoc, Finset.sum_Ico_succ_top (by omega)]
        linarith
  have hlast := hreach (j - (i + 1)) (by omega)
  rw [Nat.add_sub_cancel' hij] at hlast
  linarith

end Limiter
