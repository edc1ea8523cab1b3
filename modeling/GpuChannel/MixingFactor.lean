/-
# The mixing factor of a declared correlation

correlation.cpp over the complex numbers, with its two tolerances read as tests for zero.  The
factorisation succeeds exactly on the positive semidefinite matrices, singular ones included, and
its factor `M` is lower triangular with `M M^H = A`; the factor of a link is the Kronecker product
of its two sides in lane order `l = r * Nt + t`.
-/
import GpuChannel.Correlation
import GpuChannel.RealScalars
import GpuChannel.Library.Checked
import GpuChannel.Library.Elimination
import GpuChannel.Library.Tables

open Matrix
open scoped ComplexOrder

noncomputable section

/-! ## Complex numbers -/

namespace Cplx

/-- A pair of reals as the complex number it stands for. -/
def toComplex (a : Cplx ℝ) : ℂ := ⟨a.re, a.im⟩

/-- Zero as a complex number. -/
@[simp] theorem toComplex_zero : (0 : Cplx ℝ).toComplex = 0 := rfl

/-- One as a complex number. -/
@[simp] theorem toComplex_one : (1 : Cplx ℝ).toComplex = 1 := rfl

/-- Addition of the source is complex addition. -/
@[simp] theorem toComplex_add (a b : Cplx ℝ) :
    (a + b).toComplex = a.toComplex + b.toComplex := rfl

/-- Subtraction of the source is complex subtraction. -/
@[simp] theorem toComplex_sub (a b : Cplx ℝ) :
    (a - b).toComplex = a.toComplex - b.toComplex := rfl

/-- Multiplication of the source is complex multiplication. -/
@[simp] theorem toComplex_mul (a b : Cplx ℝ) :
    (a * b).toComplex = a.toComplex * b.toComplex := rfl

/-- Conjugation of the source is the star. -/
@[simp] theorem toComplex_conj (a : Cplx ℝ) : a.conj.toComplex = star a.toComplex := rfl

/-- Scaling by a real is complex multiplication. -/
@[simp] theorem toComplex_smul (a : Cplx ℝ) (x : ℝ) :
    (a.smul x).toComplex = a.toComplex * (x : ℂ) := by
  apply Complex.ext
  · simp [toComplex, smul]
  · simp [toComplex, smul]

/-- Division by a real is complex division. -/
@[simp] theorem toComplex_sdiv (a : Cplx ℝ) (x : ℝ) :
    (a.sdiv x).toComplex = a.toComplex / (x : ℂ) := by
  apply Complex.ext
  · rw [Complex.div_ofReal_re]
    rfl
  · rw [Complex.div_ofReal_im]
    rfl

@[simp] theorem toComplex_re (a : Cplx ℝ) : a.toComplex.re = a.re := rfl

@[simp] theorem toComplex_im (a : Cplx ℝ) : a.toComplex.im = a.im := rfl

/-- A real number is its own conjugate. -/
theorem star_ofReal (x : ℝ) : star (x : ℂ) = (x : ℂ) := Complex.conj_ofReal x

/-- The magnitude of a number is positive exactly when the number is not zero. -/
theorem hypot_pos (a : Cplx ℝ) : 0 < Libm.hypot a.re a.im ↔ a.toComplex ≠ 0 := by
  show 0 < √(a.re * a.re + a.im * a.im) ↔ _
  rw [← norm_mk, norm_pos_iff]
  rfl

end Cplx

/-- The leading `n` by `n` block of a matrix of the code. -/
def square (n : ℕ) (m : ℕ → ℕ → Cplx ℝ) : Matrix (Fin n) (Fin n) ℂ :=
  Matrix.of fun r c => (m r c).toComplex

@[simp] theorem square_apply (n : ℕ) (m : ℕ → ℕ → Cplx ℝ) (r c : Fin n) :
    square n m r c = (m r c).toComplex := rfl

/-! ## One pivot -/

/-- The inner loop of the source is a finite sum. -/
theorem pivotSum_eq (lower : ℕ → ℕ → Cplx ℝ) (d : ℕ → ℝ) (r c j : ℕ) :
    ((List.range j).foldl (fun acc k => acc + (lower r k * (lower c k).conj).smul (d k)) 0).toComplex
      = ∑ k ∈ Finset.range j, (lower r k).toComplex * star (lower c k).toComplex * (d k : ℂ) := by
  induction j with
  | zero => rfl
  | succ j ih =>
      rw [List.range_succ, List.foldl_append, Finset.sum_range_succ, ← ih]
      simp

/-- What the first `j` columns of the factor leave of the matrix. -/
def leftOver (a : ℕ → ℕ → Cplx ℝ) (n : ℕ) (f : Factors ℝ) (j : ℕ) : Matrix (Fin n) (Fin n) ℂ :=
  Matrix.of fun r c => (a r c).toComplex -
    ∑ k ∈ Finset.range j, (f.lower r k).toComplex * star (f.lower c k).toComplex * (f.d k : ℂ)

/-- An entry of what the first columns leave over. -/
theorem leftOver_apply (a : ℕ → ℕ → Cplx ℝ) {n : ℕ} (f : Factors ℝ) (j : ℕ) (r c : Fin n) :
    leftOver a n f j r c = (a r c).toComplex -
      ∑ k ∈ Finset.range j, (f.lower r k).toComplex * star (f.lower c k).toComplex * (f.d k : ℂ) :=
  rfl

/-- The factorisation after `j` pivots. -/
structure Eliminated (a : ℕ → ℕ → Cplx ℝ) (n : ℕ) (f : Factors ℝ) (j : ℕ) : Prop where
  hermitian : (leftOver a n f j).IsHermitian
  clear : ∀ c : Fin n, (c : ℕ) < j → ∀ r, leftOver a n f j r c = 0
  nonneg : ∀ k < j, 0 ≤ f.d k
  lower : ∀ r k, k < j → r < k → f.lower r k = 0

/-- The pivot of a column is what the columns before it leave over. -/
theorem leftOver_entry (a : ℕ → ℕ → Cplx ℝ) {n : ℕ} (f : Factors ℝ) (r c : Fin n) :
    (a r c - pivotSum f.lower f.d r c).toComplex = leftOver a n f c r c := by
  rw [Cplx.toComplex_sub, pivotSum, pivotSum_eq]
  rfl

/-- The entries of a clear column's row vanish too. -/
theorem Eliminated.clear_row {a : ℕ → ℕ → Cplx ℝ} {n j : ℕ} {f : Factors ℝ}
    (h : Eliminated a n f j) (r c : Fin n) (hr : (r : ℕ) < j) : leftOver a n f j r c = 0 := by
  rw [← h.hermitian.apply, h.clear r hr, star_zero]

/-- The pivot is the diagonal entry that is left. -/
theorem Eliminated.pivot {a : ℕ → ℕ → Cplx ℝ} {n : ℕ} {f : Factors ℝ} {j : Fin n}
    (h : Eliminated a n f j) :
    (((a j j).re - (pivotSum f.lower f.d j j).re : ℝ) : ℂ) = leftOver a n f j j j := by
  have hreal := h.hermitian.apply j j
  rw [← leftOver_entry] at hreal ⊢
  apply Complex.ext
  · rfl
  · have him := congrArg Complex.im hreal
    rw [Complex.star_def, Complex.conj_im] at him
    rw [Complex.ofReal_im]
    linarith

/-- When the factorisation passes a pivot: it is positive, or zero over a zero column. -/
theorem pivotStepWith_isOk {a : ℕ → ℕ → Cplx ℝ} {n : ℕ} {f : Factors ℝ} {j : Fin n}
    (h : Eliminated a n f j) :
    (∃ f', pivotStepWith 0 0 a n f j = .ok f') ↔
      0 ≤ leftOver a n f j j j ∧
        (leftOver a n f j j j = 0 → ∀ r, leftOver a n f j r j = 0) := by
  rw [← h.pivot, Complex.zero_le_real, Complex.ofReal_eq_zero]
  unfold pivotStepWith
  dsimp only
  rw [neg_zero]
  by_cases hneg : (a j j).re - (pivotSum f.lower f.d j j).re < 0
  · rw [if_pos hneg]
    constructor
    · rintro ⟨f', hf'⟩
      cases hf'
    · rintro ⟨hle, -⟩
      exact absurd hneg (not_lt.mpr hle)
  · rw [if_neg hneg]
    push Not at hneg
    split_ifs with hcol
    · constructor
      · rintro ⟨f', hf'⟩
        cases hf'
      · rintro ⟨-, hz⟩
        obtain ⟨hle, i, hi, hji, hres⟩ := hcol
        have hin : i < n := List.mem_range.mp hi
        rw [Cplx.hypot_pos] at hres
        refine absurd ?_ hres
        rw [leftOver_entry a f ⟨i, hin⟩ j]
        exact hz (le_antisymm hle hneg) _
    · refine ⟨fun _ => ⟨hneg, ?_⟩, fun _ => ⟨_, rfl⟩⟩
      intro hz r
      -- above the pivot the rows are clear already, the pivot is zero, below it was tested
      rcases lt_trichotomy (r : ℕ) j with hr | hr | hr
      · exact h.clear_row r j hr
      · rw [Fin.ext hr, ← h.pivot, hz, Complex.ofReal_zero]
      · by_contra hne
        apply hcol
        refine ⟨le_of_eq hz, r, List.mem_range.mpr r.isLt, hr, ?_⟩
        rw [Cplx.hypot_pos, leftOver_entry a f r j]
        exact hne

/-- A column of the factor that is not the current one stays. -/
theorem pivotStepWith_lower {a : ℕ → ℕ → Cplx ℝ} {n : ℕ} {f f' : Factors ℝ} {j : ℕ}
    (hok : pivotStepWith 0 0 a n f j = .ok f') :
    (∀ k, k ≠ j → (∀ r, f'.lower r k = f.lower r k) ∧ f'.d k = f.d k) ∧
      f'.d j = (a j j).re - (pivotSum f.lower f.d j j).re ∧ f'.lower j j = 1 ∧
      (∀ r, r < j → f'.lower r j = 0) ∧
      ∀ r, j < r → f'.lower r j =
        if f'.d j ≤ 0 then 0 else (a r j - pivotSum f.lower f.d r j).sdiv (f'.d j) := by
  unfold pivotStepWith at hok
  dsimp only at hok
  split_ifs at hok
  cases hok
  refine ⟨?_, ?_, ?_, ?_, ?_⟩
  · intro k hk
    refine ⟨fun r => ?_, ?_⟩
    · dsimp only
      rw [if_pos hk]
    · dsimp only
      rw [Function.update_of_ne hk]
  · dsimp only
    rw [Function.update_self]
  · simp
  · intro r hr
    dsimp only
    rw [if_neg (by simp), if_neg (by omega), if_pos (Or.inl hr)]
  · intro r hr
    dsimp only
    rw [if_neg (by simp), if_neg (by omega)]
    by_cases hz : (a j j).re - (pivotSum f.lower f.d j j).re ≤ 0
    · rw [if_pos (Or.inr hz), if_pos (by rw [Function.update_self]; exact hz)]
    · rw [if_neg (by rintro (hlt | hle); exacts [by omega, hz hle]),
        if_neg (by rw [Function.update_self]; exact hz), Function.update_self]

/-- **One pivot eliminates its column.** -/
theorem Eliminated.step {a : ℕ → ℕ → Cplx ℝ} {n : ℕ} {f f' : Factors ℝ} {j : Fin n}
    (h : Eliminated a n f j) (hok : pivotStepWith 0 0 a n f j = .ok f') :
    leftOver a n f' (j + 1) = Elimination.schur (leftOver a n f j) j ∧
      Eliminated a n f' (j + 1) := by
  obtain ⟨hpos, hzero⟩ := (pivotStepWith_isOk h).mp ⟨f', hok⟩
  obtain ⟨hkeep, hd, hone, habove, hbelow⟩ := pivotStepWith_lower hok
  have hpivot : ((f'.d j : ℝ) : ℂ) = leftOver a n f j j j := by
    rw [hd, h.pivot]
  have hdpos : 0 ≤ f'.d j := by
    rw [← hpivot, Complex.zero_le_real] at hpos
    exact hpos
  -- with a positive pivot the new column is the column that is left, over the pivot
  have hcol : 0 < f'.d j → ∀ r : Fin n,
      (f'.lower r j).toComplex = leftOver a n f j r j / ((f'.d j : ℝ) : ℂ) := by
    intro hlt r
    have hne : ((f'.d j : ℝ) : ℂ) ≠ 0 := Complex.ofReal_ne_zero.mpr hlt.ne'
    rcases lt_trichotomy (r : ℕ) j with hr | hr | hr
    · rw [habove r hr, h.clear_row r j hr, zero_div]
      rfl
    · rw [Fin.ext hr, hone, ← hpivot, div_self hne]
      rfl
    · rw [hbelow r hr, if_neg (not_le.mpr hlt), Cplx.toComplex_sdiv, leftOver_entry]
  have hschur : leftOver a n f' (j + 1) = Elimination.schur (leftOver a n f j) j := by
    ext r c
    rw [Elimination.schur_apply, ← hpivot]
    have hsum : ∑ k ∈ Finset.range j,
        (f'.lower r k).toComplex * star (f'.lower c k).toComplex * (f'.d k : ℂ) =
        ∑ k ∈ Finset.range j,
          (f.lower r k).toComplex * star (f.lower c k).toComplex * (f.d k : ℂ) := by
      apply Finset.sum_congr rfl
      intro k hk
      obtain ⟨hl, hdk⟩ := hkeep k (Finset.mem_range.mp hk).ne
      rw [hl, hl, hdk]
    rw [leftOver_apply, Finset.sum_range_succ, hsum, sub_add_eq_sub_sub, ← leftOver_apply]
    congr 1
    rcases hdpos.eq_or_lt with hz | hlt
    · rw [← hz]
      simp
    · have hne : ((f'.d j : ℝ) : ℂ) ≠ 0 := Complex.ofReal_ne_zero.mpr hlt.ne'
      rw [hcol hlt, hcol hlt, star_div₀, Cplx.star_ofReal]
      field_simp
  refine ⟨hschur, ?_, ?_, ?_, ?_⟩
  · rw [hschur]
    exact Elimination.schur_isHermitian h.hermitian j
  · intro c hc r
    rw [hschur]
    apply Elimination.schur_column h.hermitian hzero
    rcases Nat.lt_succ_iff_lt_or_eq.mp hc with hlt | heq
    · exact Or.inr (h.clear c hlt)
    · exact Or.inl (Fin.ext heq)
  · intro k hk
    rcases Nat.lt_succ_iff_lt_or_eq.mp hk with hlt | rfl
    · rw [(hkeep k hlt.ne).2]
      exact h.nonneg k hlt
    · exact hdpos
  · intro r k hk hr
    rcases Nat.lt_succ_iff_lt_or_eq.mp hk with hlt | rfl
    · rw [(hkeep k hlt.ne).1]
      exact h.lower r k hlt hr
    · exact habove r hr

/-! ## The whole factorisation -/

/-- The factorisation before the first pivot. -/
theorem eliminated_zero {a : ℕ → ℕ → Cplx ℝ} {n : ℕ} (h : (square n a).IsHermitian) :
    leftOver a n { lower := fun _ _ => 0, d := fun _ => 0 } 0 = square n a ∧
      Eliminated a n { lower := fun _ _ => 0, d := fun _ => 0 } 0 := by
  have hleft : leftOver a n { lower := fun _ _ => 0, d := fun _ => 0 } 0 = square n a := by
    ext r c
    rw [leftOver_apply, Finset.sum_range_zero, sub_zero, square_apply]
  refine ⟨hleft, ?_, ?_, ?_, ?_⟩
  · rw [hleft]
    exact h
  · intro c hc
    exact absurd hc (by omega)
  · intro k hk
    exact absurd hk (by omega)
  · intro r k hk
    exact absurd hk (by omega)

/-- The pivots up to `j`. -/
theorem pivots_spec {a : ℕ → ℕ → Cplx ℝ} {n : ℕ} (h : (square n a).IsHermitian) :
    ∀ j ≤ n, ((square n a).PosSemidef → ∃ f, (List.range j).foldlM (pivotStepWith 0 0 a n)
        { lower := fun _ _ => 0, d := fun _ => 0 } = .ok f ∧ (leftOver a n f j).PosSemidef) ∧
      ∀ f, (List.range j).foldlM (pivotStepWith 0 0 a n)
        { lower := fun _ _ => 0, d := fun _ => 0 } = .ok f → Eliminated a n f j := by
  intro j
  -- pivot by pivot: what is left over stays positive semidefinite
  induction j with
  | zero =>
      intro _
      obtain ⟨hleft, helim⟩ := eliminated_zero h
      constructor
      · intro hpsd
        refine ⟨_, rfl, ?_⟩
        rw [hleft]
        exact hpsd
      · rintro _ ⟨⟩
        exact helim
  | succ j ih =>
      intro hj
      obtain ⟨ihex, ihall⟩ := ih (by omega)
      rw [List.range_succ]
      simp only [List.foldlM_append, List.foldlM_cons, List.foldlM_nil, bind_pure]
      constructor
      · intro hpsd
        obtain ⟨f, hf, hleft⟩ := ihex hpsd
        have helim : Eliminated a n f (⟨j, hj⟩ : Fin n) := ihall f hf
        have hok : ∃ f', pivotStepWith 0 0 a n f (⟨j, hj⟩ : Fin n) = .ok f' := by
          rw [pivotStepWith_isOk helim]
          exact ⟨hleft.diag_nonneg, fun hz => Elimination.column_zero hleft hz⟩
        obtain ⟨f', hf'⟩ := hok
        refine ⟨f', ?_, ?_⟩
        · rw [hf]
          exact hf'
        · rw [show j + 1 = ((⟨j, hj⟩ : Fin n) : ℕ) + 1 from rfl, (helim.step hf').1]
          exact Elimination.schur_posSemidef hleft _
      · intro f' hf'
        obtain ⟨f, hf, hstep⟩ := bind_eq_ok hf'
        have helim : Eliminated a n f (⟨j, hj⟩ : Fin n) := ihall f hf
        exact (helim.step hstep).2

/-- The factor `L sqrt(D)` of a finished factorisation. -/
theorem Eliminated.factor {a : ℕ → ℕ → Cplx ℝ} {n : ℕ} {f : Factors ℝ} (h : Eliminated a n f n) :
    square n (fun i j => (f.lower i j).smul (Libm.sqrt (max 0 (f.d j)))) *
      (square n fun i j => (f.lower i j).smul (Libm.sqrt (max 0 (f.d j))))ᴴ = square n a := by
  ext r c
  have hleft := h.clear c c.isLt r
  have hsum : (a r c).toComplex = ∑ k ∈ Finset.range n,
      (f.lower r k).toComplex * star (f.lower c k).toComplex * (f.d k : ℂ) :=
    sub_eq_zero.mp hleft
  rw [Matrix.mul_apply, square_apply, hsum, Finset.sum_range]
  apply Finset.sum_congr rfl
  intro k _
  have hd := h.nonneg k k.isLt
  have hroot : ((√(f.d k) : ℝ) : ℂ) * ((√(f.d k) : ℝ) : ℂ) = (f.d k : ℂ) := by
    rw [← Complex.ofReal_mul, Real.mul_self_sqrt hd]
  rw [Matrix.conjTranspose_apply, square_apply, square_apply, Cplx.toComplex_smul,
    Cplx.toComplex_smul, max_eq_right hd, star_mul', Cplx.star_ofReal, ← hroot]
  show _ * ((√(f.d k) : ℝ) : ℂ) * (_ * ((√(f.d k) : ℝ) : ℂ)) = _
  ring

/-- **The factorisation succeeds on the positive semidefinite matrices alone, and factors them.** -/
theorem correlationMixingMatrixWith_spec {a : ℕ → ℕ → Cplx ℝ} {n : ℕ} (hn : n ≠ 0)
    (h : (square n a).IsHermitian) :
    ((∃ m, correlationMixingMatrixWith 0 0 a n = .ok m) ↔ (square n a).PosSemidef) ∧
      ∀ m, correlationMixingMatrixWith 0 0 a n = .ok m →
        (∀ r c : Fin n, r < c → square n m r c = 0) ∧ square n m * (square n m)ᴴ = square n a := by
  have hrun : ∀ m, correlationMixingMatrixWith 0 0 a n = .ok m →
      ∃ f, Eliminated a n f n ∧ m = fun i j => (f.lower i j).smul (Libm.sqrt (max 0 (f.d j))) := by
    intro m hm
    unfold correlationMixingMatrixWith at hm
    rw [if_neg hn] at hm
    obtain ⟨f, hf, hm⟩ := bind_eq_ok hm
    cases hm
    exact ⟨f, (pivots_spec h n le_rfl).2 f hf, rfl⟩
  refine ⟨⟨?_, ?_⟩, ?_⟩
  · rintro ⟨m, hm⟩
    obtain ⟨f, hf, rfl⟩ := hrun m hm
    rw [← hf.factor]
    exact Matrix.posSemidef_self_mul_conjTranspose _
  · intro hpsd
    obtain ⟨f, hf, -⟩ := (pivots_spec h n le_rfl).1 hpsd
    refine ⟨fun i j => (f.lower i j).smul (Libm.sqrt (max 0 (f.d j))), ?_⟩
    unfold correlationMixingMatrixWith
    rw [if_neg hn]
    show (_ >>= _) = _
    rw [hf]
    rfl
  · intro m hm
    obtain ⟨f, hf, rfl⟩ := hrun m hm
    refine ⟨?_, hf.factor⟩
    intro r c hrc
    rw [square_apply, hf.lower r c c.isLt hrc, Cplx.toComplex_smul, Cplx.toComplex_zero, zero_mul]

/-! ## Declared entries -/

/-- Entries above the diagonal of an `n` by `n` matrix, at most one for each place. -/
structure UpperEntries (n : ℕ) (entries : List (CorrelationEntry ℝ)) : Prop where
  upper : ∀ e ∈ entries, 0 ≤ e.i ∧ e.i < e.j ∧ e.j < n
  distinct : (entries.map fun e => (e.i, e.j)).Nodup

/-- **The matrix that a list of entries declares**: the diagonal is one, the entries stand where
they say, their conjugates below the diagonal, and the other places are zero. -/
structure Declares {n : ℕ} (entries : List (CorrelationEntry ℝ)) (R : Matrix (Fin n) (Fin n) ℂ) :
    Prop where
  hermitian : R.IsHermitian
  diagonal : ∀ r, R r r = 1
  entry : ∀ e ∈ entries, ∀ r c : Fin n, (r : ℤ) = e.i → (c : ℤ) = e.j → R r c = ⟨e.re, e.im⟩
  rest : ∀ r c : Fin n, r < c → (∀ e ∈ entries, ¬((r : ℤ) = e.i ∧ (c : ℤ) = e.j)) → R r c = 0

/-- A list of entries declares one matrix. -/
theorem Declares.unique {n : ℕ} {entries : List (CorrelationEntry ℝ)}
    {R S : Matrix (Fin n) (Fin n) ℂ} (hR : Declares entries R) (hS : Declares entries S) :
    R = S := by
  have hupper : ∀ r c : Fin n, r < c → R r c = S r c := by
    intro r c hrc
    by_cases he : ∃ e ∈ entries, (r : ℤ) = e.i ∧ (c : ℤ) = e.j
    · obtain ⟨e, hmem, hr, hc⟩ := he
      rw [hR.entry e hmem r c hr hc, hS.entry e hmem r c hr hc]
    · have hnone : ∀ e ∈ entries, ¬((r : ℤ) = e.i ∧ (c : ℤ) = e.j) :=
        fun e hmem hat => he ⟨e, hmem, hat⟩
      rw [hR.rest r c hrc hnone, hS.rest r c hrc hnone]
  ext r c
  rcases lt_trichotomy r c with hrc | rfl | hrc
  · exact hupper r c hrc
  · rw [hR.diagonal, hS.diagonal]
  · rw [← hR.hermitian.apply, ← hS.hermitian.apply, hupper c r hrc]

/-- One more entry at a new place. -/
theorem Declares.snoc {n : ℕ} {entries : List (CorrelationEntry ℝ)} {e : CorrelationEntry ℝ}
    {m : ℕ → ℕ → Cplx ℝ} (h : Declares entries (square n m))
    (hupper : 0 ≤ e.i ∧ e.i < e.j ∧ e.j < n)
    (hnew : ∀ e' ∈ entries, e'.i < e'.j ∧ (e'.i, e'.j) ≠ (e.i, e.j)) :
    Declares (entries ++ [e]) (square n (setEntry (setEntry m e.i.toNat e.j.toNat ⟨e.re, e.im⟩)
      e.j.toNat e.i.toNat (Cplx.conj ⟨e.re, e.im⟩))) := by
  obtain ⟨hi, hij, hj⟩ := hupper
  -- the two cells that the source writes, the entry and its conjugate
  have hcell : ∀ r c : Fin n, square n (setEntry (setEntry m e.i.toNat e.j.toNat ⟨e.re, e.im⟩)
      e.j.toNat e.i.toNat (Cplx.conj ⟨e.re, e.im⟩)) r c =
      if (r : ℤ) = e.j ∧ (c : ℤ) = e.i then star (⟨e.re, e.im⟩ : ℂ)
      else if (r : ℤ) = e.i ∧ (c : ℤ) = e.j then ⟨e.re, e.im⟩ else square n m r c := by
    intro r c
    rw [square_apply, setEntry]
    by_cases hlow : (r : ℤ) = e.j ∧ (c : ℤ) = e.i
    · rw [if_pos hlow, if_pos ⟨by omega, by omega⟩]
      rfl
    · rw [if_neg hlow, if_neg (by rintro ⟨hr, hc⟩; exact hlow ⟨by omega, by omega⟩), setEntry]
      by_cases hup : (r : ℤ) = e.i ∧ (c : ℤ) = e.j
      · rw [if_pos hup, if_pos ⟨by omega, by omega⟩]
        rfl
      · rw [if_neg hup, if_neg (by rintro ⟨hr, hc⟩; exact hup ⟨by omega, by omega⟩)]
        rfl
  refine ⟨?_, ?_, ?_, ?_⟩
  · apply Matrix.IsHermitian.ext
    intro r c
    rw [hcell, hcell]
    by_cases hlow : (r : ℤ) = e.j ∧ (c : ℤ) = e.i
    · rw [if_pos hlow, if_neg (by omega), if_pos ⟨hlow.2, hlow.1⟩]
    · rw [if_neg hlow]
      by_cases hup : (r : ℤ) = e.i ∧ (c : ℤ) = e.j
      · rw [if_pos hup, if_pos ⟨hup.2, hup.1⟩, star_star]
      · rw [if_neg hup, if_neg (fun hat => hup ⟨hat.2, hat.1⟩),
          if_neg (fun hat => hlow ⟨hat.2, hat.1⟩)]
        exact h.hermitian.apply r c
  · intro r
    rw [hcell, if_neg (by omega), if_neg (by omega)]
    exact h.diagonal r
  · intro e' hmem r c hr hc
    rw [hcell]
    rcases List.mem_append.mp hmem with hold | hlast
    · obtain ⟨hlt, hne⟩ := hnew e' hold
      rw [← hr, ← hc] at hne
      rw [if_neg, if_neg]
      · exact h.entry e' hold r c hr hc
      · rintro ⟨hri, hcj⟩
        exact hne (by rw [hri, hcj])
      · rintro ⟨hrj, hci⟩
        omega
    · obtain rfl := List.mem_singleton.mp hlast
      rw [if_neg (by omega), if_pos ⟨hr, hc⟩]
  · intro r c hrc hnone
    have hat := hnone e (List.mem_append_right _ (List.mem_singleton_self e))
    have hlt : (r : ℤ) < c := by exact_mod_cast hrc
    rw [hcell, if_neg (by omega), if_neg hat]
    exact h.rest r c hrc fun e' hmem => hnone e' (List.mem_append_left _ hmem)

/-- **`dense_correlation` builds the declared matrix.** -/
theorem denseCorrelation_declares {n : ℕ} {entries : List (CorrelationEntry ℝ)}
    (h : UpperEntries n entries) : Declares entries (square n (denseCorrelation entries n)) := by
  induction entries using List.reverseRecOn with
  | nil =>
      have hdense : square n (denseCorrelation [] n) = 1 := by
        ext r c
        rw [square_apply, Matrix.one_apply, denseCorrelation, List.foldl_nil]
        by_cases hrc : r = c
        · rw [if_pos hrc, if_pos (congrArg Fin.val hrc)]
          rfl
        · rw [if_neg hrc, if_neg fun hval => hrc (Fin.ext hval)]
          rfl
      rw [hdense]
      refine ⟨Matrix.isHermitian_one, fun r => Matrix.one_apply_eq r, ?_, ?_⟩
      · intro e he
        exact absurd he List.not_mem_nil
      · intro r c hrc _
        exact Matrix.one_apply_ne hrc.ne
  | append_singleton entries e ih =>
      obtain ⟨hupper, hnodup⟩ := h
      rw [List.map_append, List.nodup_append] at hnodup
      have hold : Declares entries (square n (denseCorrelation entries n)) :=
        ih ⟨fun e' he' => hupper e' (List.mem_append_left _ he'), hnodup.1⟩
      obtain ⟨hi, hij, hj⟩ := hupper e (List.mem_append_right _ (List.mem_singleton_self e))
      rw [denseCorrelation, List.foldl_append, List.foldl_cons, List.foldl_nil]
      rw [if_neg (by omega)]
      apply hold.snoc ⟨hi, hij, hj⟩
      intro e' he'
      refine ⟨(hupper e' (List.mem_append_left _ he')).2.1, ?_⟩
      exact hnodup.2.2 _ (List.mem_map_of_mem he') _ (by simp)

/-! ## Lane order -/

/-- A row-major vector of `n * n` numbers as a matrix. -/
def rowMajor (n : ℕ) (l : List (Cplx ℝ)) : Matrix (Fin n) (Fin n) ℂ :=
  Matrix.of fun r c => (l.getD (r * n + c) 0).toComplex

/-- Lane `r * Nt + t`. -/
def laneIndex {nr nt : ℕ} (r : Fin nr) (t : Fin nt) : Fin (nr * nt) :=
  ⟨r * nt + t, by
    calc r * nt + t < r * nt + nt := Nat.add_lt_add_left t.isLt _
      _ = (r + 1) * nt := by ring
      _ ≤ nr * nt := Nat.mul_le_mul_right nt r.isLt⟩

/-- A flattened matrix is read back row by row. -/
theorem rowMajor_flattenMatrix (n : ℕ) (m : ℕ → ℕ → Cplx ℝ) :
    rowMajor n (flattenMatrix n m) = square n m := by
  ext r c
  show ((flattenMatrix n m).getD (r * n + c) 0).toComplex = _
  rw [flattenMatrix, Tables.getD_flatMap_range m 0 r.isLt c.isLt, square_apply]

/-- A flattened matrix has the square of its dimension of entries. -/
theorem flattenMatrix_length {α : Type} (n : ℕ) (m : ℕ → ℕ → α) :
    (flattenMatrix n m).length = n * n := by
  rw [flattenMatrix, List.length_flatMap]
  simp

/-- The lanes are numbered as the pairs of ports. -/
theorem laneIndex_eq {nr nt : ℕ} (r : Fin nr) (t : Fin nt) :
    laneIndex r t = finProdFinEquiv (r, t) := by
  apply Fin.ext
  show (r : ℕ) * nt + t = t + nt * r
  ring

/-- `kron` is the Kronecker product in lane order. -/
theorem square_kron {nr nt : ℕ} (rx tx : ℕ → ℕ → Cplx ℝ) :
    (square (nr * nt) (kron rx tx nt)).submatrix finProdFinEquiv finProdFinEquiv =
      Matrix.kroneckerMap (· * ·) (square nr rx) (square nt tx) := by
  ext ⟨r, t⟩ ⟨r', t'⟩
  rw [Matrix.submatrix_apply, ← laneIndex_eq, ← laneIndex_eq, Matrix.kroneckerMap_apply]
  have hdiv : ∀ (r : Fin nr) (t : Fin nt), (laneIndex r t : ℕ) / nt = r ∧
      (laneIndex r t : ℕ) % nt = t := by
    intro r t
    have hpos : 0 < nt := t.pos
    show ((r : ℕ) * nt + t) / nt = r ∧ ((r : ℕ) * nt + t) % nt = t
    rw [Nat.mul_comm, Nat.mul_add_div hpos, Nat.mul_add_mod, Nat.div_eq_of_lt t.isLt,
      Nat.mod_eq_of_lt t.isLt]
    exact ⟨Nat.add_zero _, rfl⟩
  show (kron rx tx nt (laneIndex r t) (laneIndex r' t')).toComplex = _
  rw [kron, (hdiv r t).1, (hdiv r t).2, (hdiv r' t').1, (hdiv r' t').2]
  rfl

/-- **The factor of a link factors the Kronecker product of its sides.** -/
theorem laneMixingMatrixWith_spec {nt nr : ℕ} (hnt : nt ≠ 0) (hnr : nr ≠ 0)
    {correlation : SpatialCorrelationConfig ℝ} (hkind : correlation.kind = .kronecker)
    {rrx : Matrix (Fin nr) (Fin nr) ℂ} {rtx : Matrix (Fin nt) (Fin nt) ℂ}
    (hrx : square nr (denseCorrelation correlation.rx nr) = rrx)
    (htx : square nt (denseCorrelation correlation.tx nt) = rtx)
    (hprx : rrx.PosSemidef) (hptx : rtx.PosSemidef) :
    ∃ mixing, laneMixingMatrixWith 0 0 correlation nt nr = .ok mixing ∧
      mixing.length = (nr * nt) * (nr * nt) ∧
      ∀ (r₁ r₂ : Fin nr) (t₁ t₂ : Fin nt),
        (rowMajor (nr * nt) mixing * (rowMajor (nr * nt) mixing)ᴴ)
          (laneIndex r₁ t₁) (laneIndex r₂ t₂) = rrx r₁ r₂ * rtx t₁ t₂ := by
  subst hrx htx
  obtain ⟨hokrx, hallrx⟩ := correlationMixingMatrixWith_spec hnr hprx.isHermitian
  obtain ⟨hoktx, halltx⟩ := correlationMixingMatrixWith_spec hnt hptx.isHermitian
  obtain ⟨rx, hmrx⟩ := hokrx.mpr hprx
  obtain ⟨tx, hmtx⟩ := hoktx.mpr hptx
  refine ⟨flattenMatrix (nr * nt) (kron rx tx nt), ?_, flattenMatrix_length _ _, ?_⟩
  · unfold laneMixingMatrixWith
    rw [if_neg (by rintro (h | h); exacts [hnt h, hnr h]), hkind]
    dsimp only
    rw [hmrx, hmtx]
    rfl
  · intro r₁ r₂ t₁ t₂
    rw [rowMajor_flattenMatrix, laneIndex_eq, laneIndex_eq]
    have hprod : (square (nr * nt) (kron rx tx nt) *
        (square (nr * nt) (kron rx tx nt))ᴴ).submatrix finProdFinEquiv finProdFinEquiv =
        Matrix.kroneckerMap (· * ·) (square nr (denseCorrelation correlation.rx nr))
          (square nt (denseCorrelation correlation.tx nt)) := by
      calc (square (nr * nt) (kron rx tx nt) *
            (square (nr * nt) (kron rx tx nt))ᴴ).submatrix finProdFinEquiv finProdFinEquiv
          = (square (nr * nt) (kron rx tx nt)).submatrix finProdFinEquiv finProdFinEquiv *
              ((square (nr * nt) (kron rx tx nt)).submatrix finProdFinEquiv finProdFinEquiv)ᴴ := by
            rw [Matrix.conjTranspose_submatrix, Matrix.submatrix_mul_equiv]
        _ = Matrix.kroneckerMap (· * ·) (square nr rx * (square nr rx)ᴴ)
              (square nt tx * (square nt tx)ᴴ) := by
            rw [square_kron, Matrix.conjTranspose_kronecker, Matrix.mul_kronecker_mul]
        _ = _ := by
            rw [(hallrx rx hmrx).2, (halltx tx hmtx).2]
    exact congrFun (congrFun hprod (r₁, t₁)) (r₂, t₂)

/-! ## The two results together -/

/-- **Mixing factors are correct.**  With exact tests for zero, the factorisation of a Hermitian
matrix with at least one row succeeds if and only if the matrix is positive semidefinite, with a
lower triangular factor; and a link with ports on both sides gets a factor of the Kronecker product
of its declared sides. -/
theorem mixing_factor_correct :
    (∀ (n : ℕ) (a : ℕ → ℕ → Cplx ℝ), n ≠ 0 → (square n a).IsHermitian →
      ((∃ m, correlationMixingMatrixWith 0 0 a n = .ok m) ↔ (square n a).PosSemidef) ∧
      ∀ m, correlationMixingMatrixWith 0 0 a n = .ok m →
        (∀ r c : Fin n, r < c → square n m r c = 0) ∧
          square n m * (square n m)ᴴ = square n a) ∧
    (∀ (nt nr : ℕ) (correlation : SpatialCorrelationConfig ℝ)
      (rrx : Matrix (Fin nr) (Fin nr) ℂ) (rtx : Matrix (Fin nt) (Fin nt) ℂ), nt ≠ 0 → nr ≠ 0 →
      correlation.kind = .kronecker → UpperEntries nr correlation.rx →
      UpperEntries nt correlation.tx → Declares correlation.rx rrx → Declares correlation.tx rtx →
      rrx.PosSemidef → rtx.PosSemidef →
      ∃ mixing, laneMixingMatrixWith 0 0 correlation nt nr = .ok mixing ∧
        mixing.length = (nr * nt) * (nr * nt) ∧
        ∀ (r₁ r₂ : Fin nr) (t₁ t₂ : Fin nt),
          (rowMajor (nr * nt) mixing * (rowMajor (nr * nt) mixing)ᴴ)
            (laneIndex r₁ t₁) (laneIndex r₂ t₂) = rrx r₁ r₂ * rtx t₁ t₂) := by
  refine ⟨fun n a hn h => correlationMixingMatrixWith_spec hn h, ?_⟩
  intro nt nr correlation rrx rtx hnt hnr hkind hrx htx hdrx hdtx hprx hptx
  have hrx' := (denseCorrelation_declares hrx).unique hdrx
  have htx' := (denseCorrelation_declares htx).unique hdtx
  exact laneMixingMatrixWith_spec hnt hnr hkind hrx' htx' hprx hptx

/-- Two receive ports that see the same channel: the matrix of ones. -/
theorem ones_posSemidef : (Matrix.of fun _ _ => 1 : Matrix (Fin 2) (Fin 2) ℂ).PosSemidef := by
  have hones : (Matrix.of fun _ _ => 1 : Matrix (Fin 2) (Fin 2) ℂ) =
      Matrix.vecMulVec (fun _ => 1) (star fun _ => 1) := by
    ext r c
    simp [Matrix.vecMulVec_apply]
  rw [hones]
  exact Matrix.posSemidef_vecMulVec_self_star _

/-- The singular matrix of ones has a factor, on its own and as the receive side of a link with
one transmit port. -/
theorem mixing_factor_correct_ones :
    (∃ m, correlationMixingMatrixWith 0 0 (fun _ _ => (1 : Cplx ℝ)) 2 = .ok m ∧
      square 2 m * (square 2 m)ᴴ = square 2 fun _ _ => 1) ∧
    ∃ mixing, laneMixingMatrixWith 0 0
        ({ declared := true, kind := .kronecker, rx := [⟨0, 1, 1, 0⟩] } :
          SpatialCorrelationConfig ℝ) 1 2 = .ok mixing ∧
      ∀ r₁ r₂ : Fin 2, (rowMajor (2 * 1) mixing * (rowMajor (2 * 1) mixing)ᴴ)
        (laneIndex r₁ (0 : Fin 1)) (laneIndex r₂ 0) = 1 := by
  obtain ⟨hfactor, hlane⟩ := mixing_factor_correct
  constructor
  · obtain ⟨hok, hall⟩ := hfactor 2 (fun _ _ => 1) (by decide) ones_posSemidef.isHermitian
    obtain ⟨m, hm⟩ := hok.mpr ones_posSemidef
    exact ⟨m, hm, (hall m hm).2⟩
  · obtain ⟨mixing, hok, -, hentry⟩ := hlane 1 2
      { declared := true, kind := .kronecker, rx := [⟨0, 1, 1, 0⟩] }
      (Matrix.of fun _ _ => 1) 1 (by decide) (by decide) rfl
      ⟨by simp, by simp⟩ ⟨by simp, by simp⟩
      -- the correlation of the two receive ports is 1
      { hermitian := ones_posSemidef.isHermitian
        diagonal := fun _ => rfl
        entry := by
          intro e he r c _ _
          rw [List.mem_singleton.mp he]
          rfl
        rest := by
          intro r c hrc hnone
          exfalso
          apply hnone _ (List.mem_singleton_self _)
          exact ⟨by simp; omega, by simp; omega⟩ }
      -- one transmit port is correlated with itself only
      { hermitian := Matrix.isHermitian_one
        diagonal := fun r => Matrix.one_apply_eq r
        entry := by
          intro e he
          exact absurd he List.not_mem_nil
        rest := by
          intro r c hrc
          omega }
      ones_posSemidef Matrix.PosSemidef.one
    refine ⟨mixing, hok, ?_⟩
    intro r₁ r₂
    rw [hentry, Matrix.one_apply_eq, mul_one]
    rfl

/-- The empty matrix is positive semidefinite and is refused, and so is a link without ports. -/
theorem empty_matrix_is_refused :
    (square 0 fun _ _ => 0).PosSemidef ∧
      correlationMixingMatrixWith 0 0 (fun _ _ => (0 : Cplx ℝ)) 0 =
        .error "correlation matrix has the wrong size" ∧
      laneMixingMatrixWith 0 0
        ({ declared := true, kind := .kronecker } : SpatialCorrelationConfig ℝ) 0 0 =
        .error "lane mixing needs positive Nt and Nr" := by
  refine ⟨?_, rfl, rfl⟩
  have hzero : (square 0 fun _ _ => 0) = 0 := by
    ext r
    exact r.elim0
  rw [hzero]
  exact Matrix.PosSemidef.zero

end
