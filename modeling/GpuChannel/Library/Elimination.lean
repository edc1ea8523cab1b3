/-
# Elimination of a Hermitian matrix

One pivot of an `L D L^H` factorisation.  `schur A j` is what is left of `A` once column `j` is
accounted for; a zero pivot leaves everything.  Elimination is a congruence, so it keeps a matrix
positive semidefinite, and it clears its column together with the columns that were clear before.
-/
import Mathlib

open Matrix
open scoped ComplexOrder

noncomputable section

namespace Elimination

variable {𝕜 ι : Type} [RCLike 𝕜] [Fintype ι] [DecidableEq ι]

/-- What is left of a matrix once column `j` is accounted for.  A column with a zero pivot
accounts for nothing. -/
def schur (A : Matrix ι ι 𝕜) (j : ι) : Matrix ι ι 𝕜 :=
  Matrix.of fun r c => A r c - A r j * star (A c j) / A j j

omit [Fintype ι] [DecidableEq ι] in
@[simp] theorem schur_apply (A : Matrix ι ι 𝕜) (j r c : ι) :
    schur A j r c = A r c - A r j * star (A c j) / A j j := rfl

/-- The row operation that clears row `j`. -/
def clearing (A : Matrix ι ι 𝕜) (j : ι) : Matrix ι ι 𝕜 :=
  1 - Matrix.of fun r c => if r = j then A j c / A j j else 0

theorem mul_clearing (A : Matrix ι ι 𝕜) (j r c : ι) (X : Matrix ι ι 𝕜) :
    (X * clearing A j) r c = X r c - X r j * (A j c / A j j) := by
  rw [clearing, Matrix.mul_sub, Matrix.mul_one, Matrix.sub_apply, Matrix.mul_apply]
  congr 1
  rw [Finset.sum_eq_single j]
  · simp
  · intro k _ hk
    simp [hk]
  · intro h
    exact absurd (Finset.mem_univ j) h

theorem conjTranspose_clearing_mul {A : Matrix ι ι 𝕜} (hA : A.IsHermitian) (j r c : ι)
    (X : Matrix ι ι 𝕜) :
    ((clearing A j)ᴴ * X) r c = X r c - A r j / A j j * X j c := by
  have hstar : ((clearing A j)ᴴ * X) r c = star ((Xᴴ * clearing A j) c r) := by
    rw [← Matrix.conjTranspose_apply, Matrix.conjTranspose_mul, Matrix.conjTranspose_conjTranspose]
  rw [hstar, mul_clearing]
  simp only [Matrix.conjTranspose_apply, star_sub, star_mul', star_star, star_div₀]
  rw [hA.apply r j, hA.apply j j]
  ring

/-- Elimination is a congruence. -/
theorem schur_eq {A : Matrix ι ι 𝕜} (hA : A.IsHermitian) {j : ι} (hj : A j j ≠ 0) :
    schur A j = (clearing A j)ᴴ * A * clearing A j := by
  ext r c
  rw [mul_clearing, conjTranspose_clearing_mul hA, conjTranspose_clearing_mul hA, schur_apply,
    hA.apply j c]
  field_simp
  ring

omit [Fintype ι] [DecidableEq ι] in
theorem schur_isHermitian {A : Matrix ι ι 𝕜} (hA : A.IsHermitian) (j : ι) :
    (schur A j).IsHermitian := by
  ext r c
  simp only [Matrix.conjTranspose_apply, schur_apply, star_sub, star_mul', star_star, star_div₀]
  rw [hA.apply r c, hA.apply j j]
  ring

/-- **Elimination keeps a positive semidefinite matrix positive semidefinite.** -/
theorem schur_posSemidef {A : Matrix ι ι 𝕜} (hA : A.PosSemidef) (j : ι) :
    (schur A j).PosSemidef := by
  by_cases hj : A j j = 0
  · have : schur A j = A := by
      ext r c
      rw [schur_apply, hj, div_zero, sub_zero]
    rw [this]
    exact hA
  · rw [schur_eq hA.isHermitian hj]
    exact hA.conjTranspose_mul_mul_same _

/-- A direction with no variance has no covariance. -/
theorem column_zero {A : Matrix ι ι 𝕜} (hA : A.PosSemidef) {j : ι} (hj : A j j = 0) (r : ι) :
    A r j = 0 := by
  have hquad : star (Pi.single j (1 : 𝕜)) ⬝ᵥ A *ᵥ Pi.single j 1 = 0 := by
    simp [hj]
  have hcol := (hA.dotProduct_mulVec_zero_iff _).mp hquad
  have := congrFun hcol r
  simpa using this

omit [Fintype ι] [DecidableEq ι] in
/-- The eliminated column is clear, and so is every column that was. -/
theorem schur_column {A : Matrix ι ι 𝕜} (hA : A.IsHermitian) {j k : ι}
    (hz : A j j = 0 → ∀ r, A r j = 0) (hk : k = j ∨ ∀ r, A r k = 0) (r : ι) :
    schur A j r k = 0 := by
  rw [schur_apply]
  rcases hk with rfl | hk
  · by_cases h0 : A k k = 0
    · rw [hz h0 r]
      simp
    · rw [hA.apply k k]
      field_simp
      ring
  · rw [hk r, hA.apply j k, hk j]
    simp

end Elimination

end
