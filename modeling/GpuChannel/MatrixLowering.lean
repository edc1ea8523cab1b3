/-
# What the lowering makes of a chain

The lane `(r, t)` of a fixed matrix should carry the declared chain with the taps of its first
tdl step weighted by `h[k][r][t]`, behind the link's delay and scale.  The clone weights the
first tdl step of the folded chain, which is another step when a delay was put in front.
-/
import GpuChannel.FixedMimo

section Chains

variable {K : Type} [Field K] [LinearOrder K] [Libm K]

/-! ## The expected chain -/

def MimoCoefficient.nonzero (c : MimoCoefficient K) : Prop := c.real ≠ 0 ∨ c.imag ≠ 0

instance (c : MimoCoefficient K) : Decidable c.nonzero := inferInstanceAs (Decidable (_ ∨ _))

/-- `h[k][r][t]`, unless it is zero. -/
def ModelConfig.coefficient (model : ModelConfig K) (k r t : ℕ) : Option (MimoCoefficient K) :=
  (model.fixedMimo.find? fun c => c.tap = (k : ℤ) ∧ c.rx = (r : ℤ) ∧ c.tx = (t : ℤ)).filter
    fun c => decide c.nonzero

/-- The tap with its complex gain multiplied by a coefficient. -/
def TapSpec.weighted (tap : TapSpec K) (c : MimoCoefficient K) : TapSpec K :=
  { tap with
    gainDb := tap.gainDb + 20 * Libm.log10 (Libm.hypot c.real c.imag)
    phaseRad := tap.phaseRad + Libm.atan2 c.imag c.real }

/-- The taps `k` from `n` on with `h[k][r][t] ≠ 0`, each weighted. -/
def ModelConfig.weightedTaps (model : ModelConfig K) (r t : ℕ) (n : ℕ) (taps : List (TapSpec K)) :
    List (TapSpec K) :=
  (taps.zipIdx n).filterMap fun entry => (model.coefficient entry.2 r t).map entry.1.weighted

/-- The first tdl step with other taps. -/
def mapFirstTdl (f : List (TapSpec K) → List (TapSpec K)) (chain : List (ModelStep K)) :
    List (ModelStep K) :=
  chain.modify (chain.findIdx (·.type = .tdl)) fun step =>
    { step with
      taps := f step.taps
      tapsDeclared := true }

/-- **The declared chain of a lane.** -/
def ModelConfig.weighted (model : ModelConfig K) (r t : ℕ) : ModelConfig K :=
  { model with chain := mapFirstTdl (model.weightedTaps r t 0) model.chain }

/-- The chains agree, whether or not a `taps` block was written. -/
def SameChain (a b : ModelConfig K) : Prop :=
  a.chain.map (fun step => { step with tapsDeclared := true }) =
    b.chain.map fun step => { step with tapsDeclared := true }

instance [DecidableEq K] (a b : ModelConfig K) : Decidable (SameChain a b) :=
  inferInstanceAs (Decidable (_ = _))

/-- The loop over the taps weights them in order. -/
theorem foldMimoTaps_eq (model : ModelConfig K) (r t n : ℕ) (taps : List (TapSpec K)) :
    foldMimoTaps model r t n taps = model.weightedTaps r t n taps := by
  induction taps generalizing n with
  | nil => rfl
  | cons tap taps ih =>
      unfold foldMimoTaps ModelConfig.weightedTaps
      rw [List.zipIdx_cons, List.filterMap_cons, ih]
      unfold ModelConfig.coefficient
      cases hfind : model.fixedMimo.find?
          fun c => c.tap = (n : ℤ) ∧ c.rx = (r : ℤ) ∧ c.tx = (t : ℤ) with
      | none =>
          rfl
      | some c =>
          by_cases hzero : c.real = 0 ∧ c.imag = 0
          · have hnot : ¬ c.nonzero := by
              rintro (h | h)
              · exact h hzero.1
              · exact h hzero.2
            simp only [hzero, and_self, if_true, Option.filter_some, decide_eq_false hnot]
            rfl
          · have hc : c.nonzero := by
              by_contra h
              exact hzero ⟨by_contra fun h' => h (Or.inl h'), by_contra fun h' => h (Or.inr h')⟩
            simp only [hzero, if_false, Option.filter_some, decide_eq_true hc]
            rfl

/-- The weights depend on the matrix only. -/
theorem weightedTaps_congr {a b : ModelConfig K} (h : a.fixedMimo = b.fixedMimo) (r t n : ℕ)
    (taps : List (TapSpec K)) : a.weightedTaps r t n taps = b.weightedTaps r t n taps := by
  unfold ModelConfig.weightedTaps ModelConfig.coefficient
  rw [h]

/-- The clone of a lane has the base's chain, with the first TDL weighted. -/
theorem chain_fixedMimoClone (base : ModelConfig K) (lane : LaneConfig) :
    (fixedMimoClone base lane).chain =
      mapFirstTdl (base.weightedTaps lane.rxPort lane.txPort 0) base.chain := by
  unfold fixedMimoClone mapFirstTdl fixedMimoStepIndex
  simp only [foldMimoTaps_eq]

/-! ## The first tdl step -/

variable {f : List (TapSpec K) → List (TapSpec K)} {step : ModelStep K} {chain : List (ModelStep K)}

omit [Field K] [LinearOrder K] [Libm K] in
/-- The first TDL of a chain that starts with one. -/
theorem mapFirstTdl_cons_tdl (h : step.type = .tdl) : mapFirstTdl f (step :: chain) =
    { step with
      taps := f step.taps
      tapsDeclared := true } :: chain := by
  unfold mapFirstTdl
  rw [List.findIdx_cons]
  simp [h]

omit [Field K] [LinearOrder K] [Libm K] in
/-- The first TDL of a chain that starts with another step. -/
theorem mapFirstTdl_cons_other (h : step.type ≠ .tdl) :
    mapFirstTdl f (step :: chain) = step :: mapFirstTdl f chain := by
  unfold mapFirstTdl
  rw [List.findIdx_cons]
  simp [h]

omit [Field K] [LinearOrder K] [Libm K] in
/-- Weighting leaves a chain alone exactly when it leaves the taps of its first tdl step. -/
theorem mapFirstTdl_same_iff (f : List (TapSpec K) → List (TapSpec K))
    (chain : List (ModelStep K)) :
    (mapFirstTdl f chain).map (fun step => { step with tapsDeclared := true }) =
      chain.map (fun step => { step with tapsDeclared := true }) ↔
      ∀ step, chain.find? (·.type = .tdl) = some step → f step.taps = step.taps := by
  induction chain with
  | nil => simp [mapFirstTdl]
  | cons step chain ih =>
      by_cases htdl : step.type = .tdl
      · rw [mapFirstTdl_cons_tdl htdl, List.find?_cons_of_pos (by simpa using htdl)]
        simp only [List.map_cons, List.cons.injEq, ModelStep.mk.injEq, and_true, true_and,
          Option.some.injEq, forall_eq']
      · rw [mapFirstTdl_cons_other htdl, List.find?_cons_of_neg (by simpa using htdl),
          List.map_cons, List.map_cons, List.cons.injEq, ih]
        simp

/-! ## The folds on a chain -/

variable {model : ModelConfig K} {rest : List (ModelStep K)}

omit [Field K] [LinearOrder K] [Libm K] in
/-- A chain leads with a TDL exactly if its first step is one. -/
theorem leads_cons (h : model.chain = step :: rest) :
    model.leadsWithTdl = decide (step.type = .tdl) := by
  unfold ModelConfig.leadsWithTdl
  rw [h]
  rfl

omit [LinearOrder K] [Libm K] in
/-- A delay goes into a leading TDL. -/
theorem delayed_leading (h : model.chain = step :: rest) (htdl : step.type = .tdl) (delay : K) :
    (model.delayed delay).chain =
      { step with
        taps := step.taps.map (·.shifted delay)
        tapsDeclared := true } :: rest := by
  unfold ModelConfig.delayed
  rw [if_pos (by rw [leads_cons h]; simpa using htdl)]
  simp only [h, List.modifyHead_cons]

omit [LinearOrder K] [Libm K] in
/-- A delay goes before a chain that does not lead with a TDL. -/
theorem delayed_other (h : model.leadsWithTdl = false) (delay : K) :
    (model.delayed delay).chain = delayStep delay :: model.chain := by
  unfold ModelConfig.delayed
  rw [h]
  rfl

omit [LinearOrder K] [Libm K] in
/-- A gain goes behind a leading TDL. -/
theorem scaled_leading (h : model.chain = step :: rest) (htdl : step.type = .tdl) (db : K) :
    (model.scaled db).chain = step :: gainStep db :: rest := by
  unfold ModelConfig.scaled
  rw [if_pos (by rw [leads_cons h]; simpa using htdl), h]
  rfl

omit [LinearOrder K] [Libm K] in
/-- A gain goes before a chain that does not lead with a TDL. -/
theorem scaled_other (h : model.leadsWithTdl = false) (db : K) :
    (model.scaled db).chain = gainStep db :: model.chain := by
  unfold ModelConfig.scaled
  rw [h]
  rfl

/-- The steps behind the first one, with the gain step in front of them. -/
def gainBefore (db : K) (rest : List (ModelStep K)) : List (ModelStep K) :=
  if db = 0 ∨ kMaxTxScaleDb < |db| then rest else gainStep db :: rest

omit [Libm K] in
/-- A gain, or none, behind a leading TDL. -/
theorem scaledBy_leading (h : model.chain = step :: rest) (htdl : step.type = .tdl) (db : K) :
    (model.scaledBy db).chain = step :: gainBefore db rest := by
  unfold ModelConfig.scaledBy gainBefore
  split_ifs
  · exact h
  · exact scaled_leading h htdl db

omit [Libm K] in
/-- A gain, or none, before another chain. -/
theorem scaledBy_other (h : model.leadsWithTdl = false) (db : K) :
    (model.scaledBy db).chain = gainBefore db model.chain := by
  unfold ModelConfig.scaledBy gainBefore
  split_ifs
  · rfl
  · exact scaled_other h db

omit [Libm K] in
/-- The weighting passes the gain. -/
theorem mapFirstTdl_gainBefore (f : List (TapSpec K) → List (TapSpec K)) (db : K)
    (rest : List (ModelStep K)) :
    mapFirstTdl f (gainBefore db rest) = gainBefore db (mapFirstTdl f rest) := by
  unfold gainBefore
  split_ifs
  · rfl
  · exact mapFirstTdl_cons_other fun h => ModelStepType.noConfusion h

/-- Weighting moves no step. -/
theorem weighted_leads (model : ModelConfig K) (r t : ℕ) :
    (model.weighted r t).leadsWithTdl = model.leadsWithTdl := by
  unfold ModelConfig.leadsWithTdl ModelConfig.weighted
  dsimp only
  cases hchain : model.chain with
  | nil => rfl
  | cons step rest =>
      by_cases htdl : step.type = .tdl
      · rw [mapFirstTdl_cons_tdl htdl]
        rfl
      · rw [mapFirstTdl_cons_other htdl]
        rfl

/-- The weighting passes the delay. -/
theorem weightedTaps_shifted (model : ModelConfig K) (r t n : ℕ) (taps : List (TapSpec K))
    (delay : K) : model.weightedTaps r t n (taps.map (·.shifted delay)) =
      (model.weightedTaps r t n taps).map (·.shifted delay) := by
  induction taps generalizing n with
  | nil => rfl
  | cons tap taps ih =>
      have hrest := ih (n + 1)
      unfold ModelConfig.weightedTaps at hrest ⊢
      rw [List.map_cons, List.zipIdx_cons, List.zipIdx_cons, List.filterMap_cons,
        List.filterMap_cons, hrest]
      cases model.coefficient n r t with
      | none => rfl
      | some c => rfl

/-! ## The lowered chain -/

/-- The chain of the clone: the folded chain with its first tdl step weighted. -/
def loweredChain (model : ModelConfig K) (delay db : K) (r t : ℕ) : ModelConfig K :=
  { model with
    chain := mapFirstTdl (model.weightedTaps r t 0) ((model.delayedBy delay).scaledBy db).chain }

/-- The chain that the lane should have. -/
def expectedChain (model : ModelConfig K) (delay db : K) (r t : ℕ) : ModelConfig K :=
  ((model.weighted r t).delayedBy delay).scaledBy db

/-- Where the declared chain leads with a tdl, delays and weights do not meet. -/
theorem lowered_leading (h : model.chain = step :: rest) (htdl : step.type = .tdl) (delay db : K)
    (r t : ℕ) : SameChain (loweredChain model delay db r t) (expectedChain model delay db r t) := by
  have hweighted : (model.weighted r t).chain =
      { step with
        taps := model.weightedTaps r t 0 step.taps
        tapsDeclared := true } :: rest := by
    rw [ModelConfig.weighted, h, mapFirstTdl_cons_tdl htdl]
  unfold SameChain loweredChain expectedChain
  dsimp only
  by_cases hdelay : delay = 0
  · rw [ModelConfig.delayedBy, if_pos hdelay, ModelConfig.delayedBy, if_pos hdelay,
      scaledBy_leading h htdl, scaledBy_leading hweighted htdl, mapFirstTdl_cons_tdl htdl]
  · rw [ModelConfig.delayedBy, if_neg hdelay, ModelConfig.delayedBy, if_neg hdelay,
      scaledBy_leading (delayed_leading h htdl delay) htdl,
      scaledBy_leading (delayed_leading hweighted htdl delay) htdl, mapFirstTdl_cons_tdl]
    · simp only [weightedTaps_shifted]
    · exact htdl

/-- Without a delay nothing is put in front. -/
theorem lowered_undelayed (h : model.leadsWithTdl = false) (db : K) (r t : ℕ) :
    SameChain (loweredChain model 0 db r t) (expectedChain model 0 db r t) := by
  have hweighted : (model.weighted r t).leadsWithTdl = false := by
    rw [weighted_leads, h]
  unfold SameChain loweredChain expectedChain
  dsimp only
  rw [ModelConfig.delayedBy, if_pos rfl, ModelConfig.delayedBy, if_pos rfl, scaledBy_other h,
    scaledBy_other hweighted, mapFirstTdl_gainBefore]
  rfl

/-- **Behind a delay that was put in front**, the chains agree exactly when the weights change
neither the delay's tap nor the declared step. -/
theorem lowered_prepended (h : model.leadsWithTdl = false) {delay : K} (hdelay : delay ≠ 0) (db : K)
    (r t : ℕ) : SameChain (loweredChain model delay db r t) (expectedChain model delay db r t) ↔
      model.weightedTaps r t 0 [⟨delay, 0, 0, false, 0, 0⟩] = [⟨delay, 0, 0, false, 0, 0⟩] ∧
        ∀ step, model.chain.find? (·.type = .tdl) = some step →
          model.weightedTaps r t 0 step.taps = step.taps := by
  have hweighted : (model.weighted r t).leadsWithTdl = false := by
    rw [weighted_leads, h]
  have hgain : ∀ a b : List (ModelStep K),
      (gainBefore db a).map (fun step => { step with tapsDeclared := true }) =
        (gainBefore db b).map (fun step => { step with tapsDeclared := true }) ↔
      a.map (fun step => { step with tapsDeclared := true }) =
        b.map fun step => { step with tapsDeclared := true } := by
    intro a b
    unfold gainBefore
    split_ifs
    · exact Iff.rfl
    · rw [List.map_cons, List.map_cons, List.cons.injEq]
      exact and_iff_right rfl
  rw [← mapFirstTdl_same_iff]
  unfold SameChain loweredChain expectedChain
  dsimp only
  rw [ModelConfig.delayedBy, if_neg hdelay, ModelConfig.delayedBy, if_neg hdelay,
    scaledBy_leading (delayed_other h delay) rfl, scaledBy_leading (delayed_other hweighted delay) rfl,
    mapFirstTdl_cons_tdl rfl, List.map_cons, List.map_cons, List.cons.injEq, hgain]
  refine and_congr ?_ ?_
  · simp only [delayStep, ModelStep.mk.injEq, and_true, true_and]
  · exact eq_comm

end Chains
