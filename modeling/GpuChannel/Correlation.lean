/-
# Spatial correlation

correlation.cpp: the factorisation of a declared correlation into the lane mixing
matrix, in lane order `l = r * Nt + t`.  A matrix is a function of row and column; the
row-major vectors of the source are its flattening.
-/
import GpuChannel.RuntimeControl

/-- `kPivotEpsilon`. -/
def kPivotEpsilon {K : Type} [Field K] : K := 1 / 10 ^ 12

section Correlation

variable {K : Type} [Field K] [LinearOrder K] [Libm K]

/-- A matrix with one entry replaced. -/
def setEntry {α : Type} (m : ℕ → ℕ → α) (i j : ℕ) (v : α) : ℕ → ℕ → α :=
  fun r c => if r = i ∧ c = j then v else m r c

/-- The row-major vector of an `n` by `n` matrix. -/
def flattenMatrix {α : Type} (n : ℕ) (m : ℕ → ℕ → α) : List α :=
  (List.range n).flatMap fun r => (List.range n).map (m r)

/-- `dense_correlation`: unit diagonal, the entries as declared, and their mirror images. -/
def denseCorrelation (entries : List (CorrelationEntry K)) (dim : ℕ) : ℕ → ℕ → Cplx K :=
  entries.foldl (fun m e =>
    if e.i < 0 ∨ e.j < 0 ∨ (dim : ℤ) ≤ e.i ∨ (dim : ℤ) ≤ e.j then m
    else
      let value : Cplx K := ⟨e.re, e.im⟩
      setEntry (setEntry m e.i.toNat e.j.toNat value) e.j.toNat e.i.toNat value.conj)
    fun r c => if r = c then 1 else 0

/-- `sum over k < j of lower[i][k] * conj(lower[j][k]) * d[k]`. -/
def pivotSum (lower : ℕ → ℕ → Cplx K) (d : ℕ → K) (i j : ℕ) : Cplx K :=
  (List.range j).foldl (fun acc k => acc + (lower i k * (lower j k).conj).smul (d k)) 0

/-- The unit lower triangular factor and the diagonal, as far as they are computed. -/
structure Factors (K : Type) where
  lower : ℕ → ℕ → Cplx K
  d : ℕ → K

/-- One pass of the outer loop of `correlation_mixing_matrix`, pivot `j` and its column, with the
tolerances for a pivot and for a residual below it as arguments. -/
def pivotStepWith (pivotTol residualTol : K) (hermitian : ℕ → ℕ → Cplx K) (n : ℕ)
    (f : Factors K) (j : ℕ) : Except String (Factors K) :=
  let pivot := (hermitian j j).re - (pivotSum f.lower f.d j j).re
  let residual := fun i => hermitian i j - pivotSum f.lower f.d i j
  if pivot < -pivotTol then
    throw ("correlation matrix is not positive semidefinite (negative pivot " ++
      Libm.toString pivot ++ " at index " ++ toString j ++ ")")
  else if pivot ≤ pivotTol ∧
      ∃ i ∈ List.range n, j < i ∧ residualTol < Libm.hypot (residual i).re (residual i).im then
    throw ("correlation matrix is not positive semidefinite (zero pivot at index " ++
      toString j ++ " with a nonzero column below it)")
  else
    pure
      { lower := fun r c =>
          if c ≠ j then f.lower r c
          else if r = j then 1
          else if r < j ∨ pivot ≤ pivotTol then 0
          else (residual r).sdiv pivot
        d := Function.update f.d j pivot }

/-- `correlation_mixing_matrix` with its tolerances as arguments.  `M = L sqrt(D)` of the
factorisation `A = L D L^H`. -/
def correlationMixingMatrixWith (pivotTol residualTol : K) (hermitian : ℕ → ℕ → Cplx K)
    (dim : ℕ) : Except String (ℕ → ℕ → Cplx K) := do
  if dim = 0 then throw "correlation matrix has the wrong size"
  let f ← (List.range dim).foldlM (pivotStepWith pivotTol residualTol hermitian dim)
    { lower := fun _ _ => 0, d := fun _ => 0 }
  pure fun i j => (f.lower i j).smul (Libm.sqrt (max 0 (f.d j)))

/-- **`correlation_mixing_matrix`.** -/
def correlationMixingMatrix (hermitian : ℕ → ℕ → Cplx K) (dim : ℕ) :
    Except String (ℕ → ℕ → Cplx K) :=
  correlationMixingMatrixWith kPivotEpsilon (1 / 10 ^ 9) hermitian dim

/-- `kron`: the Kronecker product with a right factor of dimension `dimB`. -/
def kron (a b : ℕ → ℕ → Cplx K) (dimB : ℕ) : ℕ → ℕ → Cplx K :=
  fun i j => a (i / dimB) (j / dimB) * b (i % dimB) (j % dimB)

/-- `lane_mixing_matrix` with its tolerances as arguments, as the row-major vector. -/
def laneMixingMatrixWith (pivotTol residualTol : K) (correlation : SpatialCorrelationConfig K)
    (nt nr : ℕ) : Except String (List (Cplx K)) :=
  if nt = 0 ∨ nr = 0 then throw "lane mixing needs positive Nt and Nr"
  else
    match correlation.kind with
    | .iid => pure (flattenMatrix (nt * nr) fun r c => if r = c then 1 else 0)
    | .kronecker => do
        let rx ← (correlationMixingMatrixWith pivotTol residualTol
          (denseCorrelation correlation.rx nr) nr).mapError ("rx correlation: " ++ ·)
        let tx ← (correlationMixingMatrixWith pivotTol residualTol
          (denseCorrelation correlation.tx nt) nt).mapError ("tx correlation: " ++ ·)
        pure (flattenMatrix (nr * nt) (kron rx tx nt))

/-- **`lane_mixing_matrix`.** -/
def laneMixingMatrix (correlation : SpatialCorrelationConfig K) (nt nr : ℕ) :
    Except String (List (Cplx K)) :=
  laneMixingMatrixWith kPivotEpsilon (1 / 10 ^ 9) correlation nt nr

/-- `lane_los_coefficients`: `1 + 0j` for every lane with no declared entry. -/
def laneLosCoefficients (los : LosMatrixConfig K) (nt nr : ℕ) : List (Cplx K) :=
  if !los.declared then List.replicate (nt * nr) 1
  else
    los.coefficients.foldl (fun out c =>
      if c.rx < 0 ∨ c.tx < 0 ∨ (nr : ℤ) ≤ c.rx ∨ (nt : ℤ) ≤ c.tx then out
      else out.set (c.rx.toNat * nt + c.tx.toNat) ⟨c.re, c.im⟩)
      (List.replicate (nt * nr) 1)

end Correlation
