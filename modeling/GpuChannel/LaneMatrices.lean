/-
# Fixed matrices through the whole load

An accepted file with a `fixed_mimo` model has the lanes of the non-zero coefficients, and each
lane the declared chain with the weights of its coefficients, exactly when no delay was put in
front of a chain that the weights change and, without radio nodes, no coefficient leaves the
single lane.
-/
import GpuChannel.MatrixLowering
import GpuChannel.RealScalars

open FoldPass

section Matrices

variable {K : Type} [Field K] [LinearOrder K] [Libm K] {model base : ModelConfig K}
  {c : MimoCoefficient K} {k r t : ℕ}

/-! ## What the validator knows of a matrix -/

/-- The checks of a declared matrix. -/
structure MatrixChecked (model : ModelConfig K) (step : ModelStep K) : Prop where
  first : model.chain.find? (·.type = .tdl) = some step
  taps : ∀ c ∈ model.fixedMimo, 0 ≤ c.tap ∧ c.tap < (step.taps.length : ℤ)
  ports : ∀ c ∈ model.fixedMimo, 0 ≤ c.rx ∧ 0 ≤ c.tx
  nodup : (model.fixedMimo.map fun c => (c.tap, c.rx, c.tx)).Nodup
  live : ∃ c ∈ model.fixedMimo, c.nonzero

omit [Libm K] in
/-- A declared matrix that is checked stands before a TDL of its own shape. -/
theorem matrixChecked {id : String} (h : fixedMimoErrors id model = [])
    (hdeclared : model.fixedMimoDeclared = true) : ∃ step, MatrixChecked model step := by
  unfold fixedMimoErrors at h
  rw [hdeclared, if_neg (by decide)] at h
  split_ifs at h with hempty
  cases hfirst : model.chain.find? (·.type = .tdl) with
  | none =>
      rw [hfirst] at h
      cases h
  | some step =>
      rw [hfirst] at h
      obtain ⟨hwalk, hlive⟩ := List.append_eq_nil_iff.mp h
      rw [errorIf_eq_nil] at hlive
      refine ⟨step, hfirst, ?_, ?_, ?_, ?_⟩
      · intro c hc
        obtain ⟨earlier, hcheck⟩ := withEarlier_mem hwalk hc
        simp only [coefficientErrors, List.append_eq_nil_iff, errorIf_eq_nil] at hcheck
        omega
      · intro c hc
        obtain ⟨earlier, hcheck⟩ := withEarlier_mem hwalk hc
        simp only [coefficientErrors, List.append_eq_nil_iff, errorIf_eq_nil] at hcheck
        omega
      · refine nodup_of_withEarlier hwalk ?_
        intro earlier c hcheck
        simp only [coefficientErrors, List.append_eq_nil_iff, errorIf_eq_nil] at hcheck
        exact hcheck.2
      · by_contra hnone
        refine hlive ?_
        rw [List.all_eq_true]
        intro c hc
        rw [decide_eq_true_iff]
        by_contra hne
        refine hnone ⟨c, hc, ?_⟩
        by_cases hre : c.real = 0
        · exact Or.inr fun him => hne ⟨hre, him⟩
        · exact Or.inl hre

omit [Libm K] in
/-- A nonzero coefficient of the matrix is the one that the lane finds. -/
theorem coefficient_of_mem {step : ModelStep K} (h : MatrixChecked model step)
    (hc : c ∈ model.fixedMimo) (hk : c.tap = k) (hr : c.rx = r) (ht : c.tx = t)
    (hlive : c.nonzero) : model.coefficient k r t = some c := by
  have hfind : model.fixedMimo.find? (fun c => c.tap = (k : ℤ) ∧ c.rx = (r : ℤ) ∧ c.tx = (t : ℤ)) =
      some c := by
    have hsome : (model.fixedMimo.find? fun c =>
        c.tap = (k : ℤ) ∧ c.rx = (r : ℤ) ∧ c.tx = (t : ℤ)).isSome = true :=
      List.find?_isSome.mpr ⟨c, hc, by simp [hk, hr, ht]⟩
    obtain ⟨found, hfound⟩ := Option.isSome_iff_exists.mp hsome
    have hkeys : found.tap = (k : ℤ) ∧ found.rx = (r : ℤ) ∧ found.tx = (t : ℤ) := by
      simpa using List.find?_some hfound
    rw [hfound]
    refine congrArg some (List.inj_on_of_nodup_map h.nodup (List.mem_of_find?_eq_some hfound) hc ?_)
    rw [hk, hr, ht, hkeys.1, hkeys.2.1, hkeys.2.2]
  unfold ModelConfig.coefficient
  rw [hfind, Option.filter_some, if_pos (decide_eq_true hlive)]

omit [Libm K] in
/-- The coefficient that a lane finds is a nonzero one of the matrix, at the lane's place. -/
theorem coefficient_eq_some (h : model.coefficient k r t = some c) :
    c ∈ model.fixedMimo ∧ c.tap = k ∧ c.rx = r ∧ c.tx = t ∧ c.nonzero := by
  unfold ModelConfig.coefficient at h
  obtain ⟨hfind, hlive⟩ := Option.filter_eq_some_iff.mp h
  have hkeys : c.tap = (k : ℤ) ∧ c.rx = (r : ℤ) ∧ c.tx = (t : ℤ) := by
    simpa using List.find?_some hfind
  obtain ⟨hk, hr, ht⟩ := hkeys
  exact ⟨List.mem_of_find?_eq_some hfind, hk, hr, ht, of_decide_eq_true hlive⟩

/-! ## Matrices of one tap -/

/-- A coefficient that adds 0 dB and 0 rad. -/
def UnitCoefficient (c : MimoCoefficient K) : Prop :=
  20 * Libm.log10 (Libm.hypot c.real c.imag) = 0 ∧ Libm.atan2 c.imag c.real = 0

omit [LinearOrder K] in
/-- Weighting leaves a tap as it is exactly if the coefficient is one. -/
theorem weighted_eq_iff (tap : TapSpec K) (c : MimoCoefficient K) :
    tap.weighted c = tap ↔ UnitCoefficient c := by
  unfold UnitCoefficient
  rw [← add_eq_left (a := tap.gainDb), ← add_eq_left (a := tap.phaseRad)]
  constructor
  · intro h
    exact ⟨congrArg TapSpec.gainDb h, congrArg TapSpec.phaseRad h⟩
  · rintro ⟨hgain, hphase⟩
    unfold TapSpec.weighted
    rw [hgain, hphase]

/-- A matrix of single taps drops every tap behind the first. -/
theorem weightedTaps_behind (h : ∀ c ∈ model.fixedMimo, c.tap = 0) (n : ℕ)
    (taps : List (TapSpec K)) : model.weightedTaps r t (n + 1) taps = [] := by
  unfold ModelConfig.weightedTaps
  rw [List.filterMap_eq_nil_iff]
  intro entry hentry
  rw [Option.map_eq_none_iff]
  by_contra hsome
  obtain ⟨c, hc⟩ := Option.ne_none_iff_exists'.mp hsome
  obtain ⟨hmem, hk, -⟩ := coefficient_eq_some hc
  have hn := (List.mem_zipIdx hentry).1
  rw [h c hmem] at hk
  omega

/-- With weights on tap 0 only, the lane keeps that tap. -/
theorem weightedTaps_single (h : ∀ c ∈ model.fixedMimo, c.tap = 0)
    (hc : model.coefficient 0 r t = some c) (tap : TapSpec K) (taps : List (TapSpec K)) :
    model.weightedTaps r t 0 (tap :: taps) = [tap.weighted c] := by
  have hbehind := weightedTaps_behind (r := r) (t := t) h 0 taps
  unfold ModelConfig.weightedTaps at hbehind ⊢
  rw [List.zipIdx_cons, List.filterMap_cons, hbehind, hc]
  rfl

/-- A matrix of single taps leaves the taps exactly if there is one, with a coefficient of one. -/
theorem weightedTaps_same_iff (h : ∀ c ∈ model.fixedMimo, c.tap = 0)
    (hc : model.coefficient 0 r t = some c) (tap : TapSpec K) (taps : List (TapSpec K)) :
    model.weightedTaps r t 0 (tap :: taps) = tap :: taps ↔ UnitCoefficient c ∧ taps = [] := by
  rw [weightedTaps_single h hc, List.cons.injEq, weighted_eq_iff]
  exact and_congr_right fun _ => eq_comm

/-! ## The statement -/

/-- The lanes of one link whose model has the fixed matrix `model`. -/
structure LaneModels (config loaded : TopologyConfig K) (resolved : ResolvedTopology) (i : ℕ)
    (link : LinkConfig K) (model : ModelConfig K) : Prop where
  lanes : ∀ r t : ℕ, (∃ lane ∈ resolved.lanes, lane.linkIndex = i ∧ lane.rxPort = r ∧
    lane.txPort = t) ↔ ∃ c ∈ model.fixedMimo, c.rx = (r : ℤ) ∧ c.tx = (t : ℤ) ∧ c.nonzero
  addressed : ∀ c ∈ model.fixedMimo, c.nonzero → ∃ lane ∈ resolved.lanes, lane.linkIndex = i ∧
    (lane.rxPort : ℤ) = c.rx ∧ (lane.txPort : ℤ) = c.tx
  chains : ∀ lane ∈ resolved.lanes, lane.linkIndex = i → ∃ clone,
    loaded.findModel lane.modelId = some clone ∧
      SameChain clone (((model.weighted lane.rxPort lane.txPort).delayedBy
        (totalDelay config link)).scaledBy (txScaleDb config link))

/-- **A faithful lowering** of every fixed matrix of a configuration. -/
def LoweredFaithfully (config loaded : TopologyConfig K) : Prop :=
  ∀ i link model, config.links[i]? = some link → config.findModel link.model = some model →
    model.fixedMimoDeclared = true → ∃ resolved, resolveTopology loaded = .ok resolved ∧
      LaneModels config loaded resolved i link model

/-- **No clone of a fixed matrix finds its id taken**: neither in the folds, where the printed id
may belong to a model of the file or to the clone of another delay or scale, nor in the expansion
of the lanes. -/
structure MimoIdsFree (config : TopologyConfig K) : Prop where
  folds : FoldsEnter config (·.fixedMimoDeclared)
  clones : ∀ resolved, resolveTopology (foldModels config) = .ok resolved →
    ∀ lane ∈ resolved.lanes, ∀ link base, MatrixLane (foldModels config) lane link base →
      (foldModels config).findModel lane.modelId = none

/-- Without radio nodes, every matrix is one coefficient wide. -/
def CoefficientsInRange (config : TopologyConfig K) : Prop :=
  config.radioNodes = [] → ∀ link ∈ config.links, ∀ model,
    config.findModel link.model = some model → model.fixedMimoDeclared = true →
      ∀ c ∈ model.fixedMimo, c.nonzero → c.rx = 0 ∧ c.tx = 0

/-- Where a delay is put in front of a chain with a fixed matrix, the matrix changes nothing. -/
def UnitBehindDelay (config : TopologyConfig K) : Prop :=
  ∀ link ∈ config.links, ∀ model, config.findModel link.model = some model →
    model.fixedMimoDeclared = true → totalDelay config link ≠ 0 → model.leadsWithTdl = false →
      (∀ c ∈ model.fixedMimo, c.nonzero → UnitCoefficient c) ∧
        ∀ step, model.chain.find? (·.type = .tdl) = some step → step.taps.length = 1

/-! ## Ports of nodes -/

section Ports

variable {node : ResolvedNode} {id : String}

omit [Field K] [LinearOrder K] [Libm K] in
/-- Without declared nodes every node has one port on either side. -/
theorem implicit_ports (config : TopologyConfig K) (h : config.radioNodes = []) (hnode : node ∈ resolveNodes config) :
    node.txPorts.length = 1 ∧ node.rxPorts.length = 1 := by
  unfold resolveNodes at hnode
  rw [if_pos (by rw [h]; rfl)] at hnode
  obtain ⟨device, -, rfl⟩ := List.mem_map.mp hnode
  exact ⟨rfl, rfl⟩

omit [Field K] [LinearOrder K] [Libm K] in
/-- A declared node has the ports of its declaration. -/
theorem find_declared (config : TopologyConfig K) (h : config.radioNodes ≠ [])
    (hnode : (resolveNodes config).find? (·.id = id) = some node) :
    ∃ declared, config.findRadioNode id = some declared ∧ node.txPorts = declared.txPorts ∧
      node.rxPorts = declared.rxPorts := by
  unfold resolveNodes at hnode
  rw [if_neg (by simpa using h), List.find?_map] at hnode
  obtain ⟨declared, hdeclared, rfl⟩ := Option.map_eq_some_iff.mp hnode
  exact ⟨declared, hdeclared, rfl, rfl⟩

end Ports

/-! ## One link through the load -/

omit [Libm K] in
/-- A delay leaves the matrix of a model alone. -/
theorem delayedBy_matrix (model : ModelConfig K) (delay : K) :
    (model.delayedBy delay).fixedMimo = model.fixedMimo ∧
      (model.delayedBy delay).fixedMimoDeclared = model.fixedMimoDeclared := by
  unfold ModelConfig.delayedBy ModelConfig.delayed
  split_ifs <;> exact ⟨rfl, rfl⟩

omit [Libm K] in
/-- A gain leaves the matrix of a model alone. -/
theorem scaledBy_matrix (model : ModelConfig K) (db : K) :
    (model.scaledBy db).fixedMimo = model.fixedMimo ∧
      (model.scaledBy db).fixedMimoDeclared = model.fixedMimoDeclared := by
  unfold ModelConfig.scaledBy ModelConfig.scaled
  split_ifs <;> exact ⟨rfl, rfl⟩

variable {config loaded : TopologyConfig K} {resolved : ResolvedTopology} {i : ℕ}
  {link mid : LinkConfig K} {src dst : ResolvedNode} {step first : ModelStep K}

/-- A link with a fixed matrix on its way through the load. -/
structure LoadedLink (config loaded : TopologyConfig K) (resolved : ResolvedTopology) (i : ℕ)
    (link mid : LinkConfig K) (model base : ModelConfig K) (src dst : ResolvedNode)
    (step first : ModelStep K) : Prop where
  expanded : loaded = resolved.lanes.foldl expandLane (foldModels config)
  resolves : resolveTopology (foldModels config) = .ok resolved
  between : LinkBetween (foldModels config) i mid src dst
  found : (foldModels config).findModel mid.model = some base
  same : SameUpToId base ((model.delayedBy (totalDelay config link)).scaledBy (txScaleDb config link))
  declared : base.fixedMimoDeclared = true
  matrix : base.fixedMimo = model.fixedMimo
  folded : MatrixChecked base step
  checked : MatrixChecked model first

omit [Field K] [LinearOrder K] [Libm K] in
/-- A model that is found is one of the configuration. -/
theorem findModel_mem {id : String} (h : config.findModel id = some model) :
    (id, model) ∈ config.models := by
  obtain ⟨before, after, hmem, -⟩ := List.lookup_eq_some_iff.mp h
  rw [hmem]
  simp

/-- What the folds make of a link with a matrix. -/
theorem loadedLink {path : String} (hload : loadConfig path config = .ok loaded)
    (henter : FoldsEnter config (·.fixedMimoDeclared)) (hlink : config.links[i]? = some link)
    (hmodel : config.findModel link.model = some model)
    (hdeclared : model.fixedMimoDeclared = true) : ∃ resolved mid base src dst step first,
      LoadedLink config loaded resolved i link mid model base src dst step first := by
  obtain ⟨hexpand, hvalid⟩ := loadConfig_eq_ok hload
  have hkept : (foldModels config).findModel link.model = some model := by
    exact run_kept _ (run_kept _ hmodel)
  obtain ⟨resolved, hresolved, rfl⟩ := expand_eq_ok hkept hdeclared hexpand
  have hrun := expanded_run (foldModels config) resolved.lanes
  have haccepted := accepted_of_validate hvalid
  obtain ⟨mid, base, hmid, hbase, hsame⟩ := folded_model henter hlink hmodel hdeclared (by
    intro delayed hdelayed
    rw [hdelayed]
    exact (delayedBy_matrix _ _).2.trans hdeclared)
  have hmatrix : base.fixedMimo = model.fixedMimo ∧
      base.fixedMimoDeclared = model.fixedMimoDeclared := by
    rw [hsame]
    exact ⟨(scaledBy_matrix _ _).1.trans (delayedBy_matrix _ _).1,
      (scaledBy_matrix _ _).2.trans (delayedBy_matrix _ _).2⟩
  have hbaseDeclared := hmatrix.2.trans hdeclared
  obtain ⟨step, hstep⟩ :=
    matrixChecked (haccepted.fixedMimo _ (findModel_mem (hrun.kept _ _ hbase))) hbaseDeclared
  obtain ⟨first, hfirst⟩ :=
    matrixChecked (haccepted.fixedMimo _ (findModel_mem (hrun.kept _ _ hkept))) hdeclared
  have hmidLoaded : mid ∈ (resolved.lanes.foldl expandLane (foldModels config)).links := by
    rw [hrun.same]
    exact List.mem_of_getElem? hmid
  obtain ⟨hsrc, hdst, -⟩ := haccepted.link hmidLoaded
  have hnodes : resolveNodes (resolved.lanes.foldl expandLane (foldModels config)) =
      resolveNodes (foldModels config) := by
    rw [hrun.same]
    rfl
  rw [hnodes] at hsrc hdst
  obtain ⟨src, hsrc⟩ := find_node hsrc
  obtain ⟨dst, hdst⟩ := find_node hdst
  exact ⟨resolved, mid, base, src, dst, step, first, rfl, hresolved, ⟨hmid, hsrc, hdst⟩, hbase,
    hsame, hbaseDeclared, hmatrix.1, hstep, hfirst⟩

namespace LoadedLink

variable (h : LoadedLink config loaded resolved i link mid model base src dst step first)

include h

/-- A configuration that is loaded is resolved. -/
theorem loaded_resolves : resolveTopology loaded = .ok resolved := by
  rw [h.expanded, resolve_expanded (expanded_run _ _), h.resolves]

/-- The lanes of the link are those of its coefficients that are in range. -/
theorem lane_iff (r t : ℕ) : (∃ lane ∈ resolved.lanes, lane.linkIndex = i ∧ lane.rxPort = r ∧
    lane.txPort = t) ↔ r < dst.rxPorts.length ∧ t < src.txPorts.length ∧
      ∃ c ∈ model.fixedMimo, c.rx = (r : ℤ) ∧ c.tx = (t : ℤ) ∧ c.nonzero := by
  have hcarries : carries (foldModels config) mid r t ↔
      ∃ c ∈ model.fixedMimo, c.rx = (r : ℤ) ∧ c.tx = (t : ℤ) ∧ c.nonzero := by
    unfold carries
    rw [h.found, ← h.matrix]
    constructor
    · exact fun hc => hc base rfl h.declared
    · rintro hc _ ⟨⟩ -
      exact hc
  constructor
  · rintro ⟨lane, hlane, hi, rfl, rfl⟩
    obtain ⟨j, l, s, d, hl, r', hr', t', ht', hc, rfl⟩ := ((lanes_spec h.resolves).2 lane).mp hlane
    obtain rfl : j = i := hi
    obtain ⟨rfl, rfl, rfl⟩ := h.between.unique hl
    exact ⟨hr', ht', hcarries.mp hc⟩
  · rintro ⟨hr, ht, hc⟩
    exact ⟨_, ((lanes_spec h.resolves).2 _).mpr
      ⟨i, mid, src, dst, h.between, r, hr, t, ht, hcarries.mpr hc, rfl⟩, rfl, rfl, rfl⟩

/-- The model of a lane is the lowered chain. -/
theorem clone_chain (hfree : MimoIdsFree config) {lane : LaneConfig} (hlane : lane ∈ resolved.lanes)
    (hi : lane.linkIndex = i) : ∃ clone, loaded.findModel lane.modelId = some clone ∧
      clone.chain = (loweredChain model (totalDelay config link) (txScaleDb config link)
        lane.rxPort lane.txPort).chain := by
  have hmatrix : MatrixLane (foldModels config) lane mid base := by
    refine ⟨?_, h.found, h.declared⟩
    rw [hi]
    exact h.between.1
  have hindex : fixedMimoStepIndex base < base.chain.length :=
    List.findIdx_lt_length_of_exists
      ⟨step, List.mem_of_find?_eq_some h.folded.first, by simpa using List.find?_some h.folded.first⟩
  refine ⟨fixedMimoClone base lane, ?_, ?_⟩
  · rw [h.expanded]
    exact clone_of_lane h.resolves hlane hmatrix hindex
      (hfree.clones resolved h.resolves lane hlane mid base hmatrix)
  · have hweights : base.weightedTaps lane.rxPort lane.txPort 0 =
        model.weightedTaps lane.rxPort lane.txPort 0 := by
      funext taps
      exact weightedTaps_congr h.matrix _ _ _ taps
    have hchain : base.chain = ((model.delayedBy (totalDelay config link)).scaledBy
        (txScaleDb config link)).chain := by
      rw [h.same]
    rw [chain_fixedMimoClone, hweights, hchain]
    rfl

/-- The delay in front of the chain has one tap, so that only tap 0 can have weights. -/
theorem prepended_taps (hlead : model.leadsWithTdl = false) (hdelay : totalDelay config link ≠ 0) :
    ∀ c ∈ model.fixedMimo, c.tap = 0 := by
  have hchain : base.chain = delayStep (totalDelay config link) ::
      gainBefore (txScaleDb config link) model.chain := by
    rw [h.same]
    show ((model.delayedBy (totalDelay config link)).scaledBy (txScaleDb config link)).chain = _
    rw [ModelConfig.delayedBy, if_neg hdelay, scaledBy_leading (delayed_other hlead _) rfl]
  have hstep : step = delayStep (totalDelay config link) := by
    have hfirst := h.folded.first
    rw [hchain, List.find?_cons_of_pos (by rfl)] at hfirst
    exact (Option.some.inj hfirst).symm
  intro c hc
  have htap := h.folded.taps c (h.matrix ▸ hc)
  rw [hstep] at htap
  simp only [delayStep, List.length_singleton, Nat.cast_one] at htap
  omega

/-- When the chain of one lane is the expected one. -/
theorem sameChain_iff (hc : c ∈ model.fixedMimo) (hlive : c.nonzero) (hr : c.rx = (r : ℤ))
    (ht : c.tx = (t : ℤ)) :
    SameChain (loweredChain model (totalDelay config link) (txScaleDb config link) r t)
        (expectedChain model (totalDelay config link) (txScaleDb config link) r t) ↔
      (totalDelay config link ≠ 0 → model.leadsWithTdl = false →
        UnitCoefficient c ∧ first.taps.length = 1) := by
  -- a chain that leads with a tdl keeps its first step through the fold
  cases hlead : model.leadsWithTdl with
  | true =>
      have hsame : SameChain
          (loweredChain model (totalDelay config link) (txScaleDb config link) r t)
          (expectedChain model (totalDelay config link) (txScaleDb config link) r t) := by
        cases hchain : model.chain with
        | nil =>
            rw [ModelConfig.leadsWithTdl, hchain] at hlead
            cases hlead
        | cons head rest =>
            rw [leads_cons hchain] at hlead
            exact lowered_leading hchain (of_decide_eq_true hlead) _ _ r t
      exact iff_of_true hsame fun _ hfalse => absurd hfalse (by decide)
  | false =>
      -- without a delay nothing is prepended
      by_cases hdelay : totalDelay config link = 0
      · rw [hdelay]
        exact iff_of_true (lowered_undelayed hlead _ r t) fun hne => absurd rfl hne
      -- behind a prepended tap the weights fall on that tap
      · have hzero := h.prepended_taps hlead hdelay
        have hcoefficient : model.coefficient 0 r t = some c :=
          coefficient_of_mem h.checked hc (hzero c hc) hr ht hlive
        rw [lowered_prepended hlead hdelay, weightedTaps_same_iff hzero hcoefficient,
          h.checked.first]
        simp only [Option.some.injEq, forall_eq', and_true, ne_eq, hdelay, not_false_eq_true,
          forall_const]
        cases htaps : first.taps with
        | nil =>
            have := h.checked.taps c hc
            rw [htaps, List.length_nil] at this
            exact absurd this.2 (by push_cast; omega)
        | cons tap taps =>
            rw [weightedTaps_same_iff hzero hcoefficient, List.length_cons, Nat.add_eq_right,
              List.length_eq_zero_iff]
            exact and_self_left

/-- Without radio nodes both ends have one port. -/
theorem implicit (hnodes : config.radioNodes = []) :
    src.txPorts.length = 1 ∧ dst.rxPorts.length = 1 :=
  ⟨(implicit_ports (foldModels config) hnodes
      (List.mem_of_find?_eq_some h.between.2.1)).1,
    (implicit_ports (foldModels config) hnodes
      (List.mem_of_find?_eq_some h.between.2.2)).2⟩

/-- Declared radio nodes are checked for room. -/
theorem in_range (hvalid : validateConfig loaded = []) (hnodes : config.radioNodes ≠ [])
    (hc : c ∈ model.fixedMimo) :
    c.rx < (dst.rxPorts.length : ℤ) ∧ c.tx < (src.txPorts.length : ℤ) := by
  have hrun := expanded_run (foldModels config) resolved.lanes
  rw [← h.expanded] at hrun
  have hradio : loaded.radioNodes = config.radioNodes := by
    rw [hrun.same]
    rfl
  have hmid : mid ∈ loaded.links := by
    rw [hrun.same]
    exact List.mem_of_getElem? h.between.1
  have hrange := (accepted_of_validate hvalid).laneRange (hradio ▸ hnodes) mid hmid
  obtain ⟨source, hsource, htx, -⟩ := find_declared (foldModels config) hnodes h.between.2.1
  obtain ⟨target, htarget, -, hrx⟩ := find_declared (foldModels config) hnodes h.between.2.2
  have hsource' : loaded.findRadioNode mid.fromNode = some source := by
    rw [hrun.same]
    exact hsource
  have htarget' : loaded.findRadioNode mid.toNode = some target := by
    rw [hrun.same]
    exact htarget
  unfold laneRangeErrors at hrange
  rw [hrun.kept _ _ h.found, hsource', htarget'] at hrange
  dsimp only at hrange
  rw [h.declared, if_neg (by decide), List.flatMap_eq_nil_iff] at hrange
  have hcoefficient := errorIf_eq_nil.mp (hrange c (h.matrix ▸ hc))
  rw [htx, hrx]
  omega

end LoadedLink

/-- Where no id is taken, a faithful lowering has its coefficients in range and changes no delay. -/
theorem LoweredFaithfully.conditions {path : String} (hload : loadConfig path config = .ok loaded)
    (hfree : MimoIdsFree config) (hfaithful : LoweredFaithfully config loaded) :
    CoefficientsInRange config ∧ UnitBehindDelay config := by
  have hlane : ∀ link ∈ config.links, ∀ model, config.findModel link.model = some model →
      model.fixedMimoDeclared = true → ∃ resolved i mid base src dst step first,
        LoadedLink config loaded resolved i link mid model base src dst step first ∧
        LaneModels config loaded resolved i link model := by
    -- every link with a matrix is loaded with faithful lanes
    intro link hlink model hmodel hdeclared
    obtain ⟨i, hi⟩ := List.getElem?_of_mem hlink
    obtain ⟨resolved, mid, base, src, dst, step, first, h⟩ :=
      loadedLink hload hfree.folds hi hmodel hdeclared
    obtain ⟨resolved', hresolved, hmodels⟩ := hfaithful i link model hi hmodel hdeclared
    obtain rfl : resolved = resolved' :=
      Except.ok.inj (h.loaded_resolves.symm.trans hresolved)
    exact ⟨resolved, i, mid, base, src, dst, step, first, h, hmodels⟩
  constructor
  · intro hnodes link hlink model hmodel hdeclared c hc hlive
    obtain ⟨resolved, i, mid, base, src, dst, step, first, h, hmodels⟩ :=
      hlane link hlink model hmodel hdeclared
    obtain ⟨lane, hmem, hi, hr, ht⟩ := hmodels.addressed c hc hlive
    obtain ⟨hrow, hcolumn, -⟩ := (h.lane_iff lane.rxPort lane.txPort).mp ⟨lane, hmem, hi, rfl, rfl⟩
    obtain ⟨hsrc, hdst⟩ := h.implicit hnodes
    omega
  · intro link hlink model hmodel hdeclared hdelay hlead
    obtain ⟨resolved, i, mid, base, src, dst, step, first, h, hmodels⟩ :=
      hlane link hlink model hmodel hdeclared
    -- a lane behind a delay reads its coefficient as the unit
    have hunit : ∀ c ∈ model.fixedMimo, c.nonzero →
        UnitCoefficient c ∧ first.taps.length = 1 := by
      intro c hc hlive
      obtain ⟨lane, hmem, hi, hr, ht⟩ := hmodels.addressed c hc hlive
      obtain ⟨clone, hclone, hchain⟩ := h.clone_chain hfree hmem hi
      obtain ⟨clone', hclone', hsame⟩ := hmodels.chains lane hmem hi
      obtain rfl : clone = clone' := Option.some.inj (hclone.symm.trans hclone')
      refine (h.sameChain_iff hc hlive hr.symm ht.symm).mp ?_ hdelay hlead
      unfold SameChain at hsame ⊢
      rw [← hchain]
      exact hsame
    refine ⟨fun c hc hlive => (hunit c hc hlive).1, ?_⟩
    intro step' hstep'
    obtain ⟨c, hc, hlive⟩ := h.checked.live
    rw [← Option.some.inj (h.checked.first.symm.trans hstep')]
    exact (hunit c hc hlive).2

/-- Where no id is taken, coefficients in range and matrices that change no delay are lowered
faithfully. -/
theorem loweredFaithfully {path : String} (hload : loadConfig path config = .ok loaded)
    (hfree : MimoIdsFree config) (hrange : CoefficientsInRange config)
    (hdelays : UnitBehindDelay config) : LoweredFaithfully config loaded := by
  obtain ⟨-, hvalid⟩ := loadConfig_eq_ok hload
  intro i link model hi hmodel hdeclared
  have hlink := List.mem_of_getElem? hi
  obtain ⟨resolved, mid, base, src, dst, step, first, h⟩ :=
    loadedLink hload hfree.folds hi hmodel hdeclared
  -- with radio nodes the loader checks the range, without them it is the hypothesis
  have hroom : ∀ c ∈ model.fixedMimo, c.nonzero →
      c.rx < (dst.rxPorts.length : ℤ) ∧ c.tx < (src.txPorts.length : ℤ) := by
    intro c hc hlive
    by_cases hnodes : config.radioNodes = []
    · obtain ⟨hsrc, hdst⟩ := h.implicit hnodes
      obtain ⟨hrx, htx⟩ := hrange hnodes link hlink model hmodel hdeclared c hc hlive
      omega
    · exact h.in_range hvalid hnodes hc
  -- the lanes of the link are its live coefficients
  have hlanes : ∀ r t : ℕ, (∃ lane ∈ resolved.lanes, lane.linkIndex = i ∧ lane.rxPort = r ∧
      lane.txPort = t) ↔ ∃ c ∈ model.fixedMimo, c.rx = (r : ℤ) ∧ c.tx = (t : ℤ) ∧ c.nonzero := by
    intro r t
    rw [h.lane_iff]
    constructor
    · exact fun hlane => hlane.2.2
    · rintro ⟨c, hc, hr, ht, hlive⟩
      obtain ⟨hrx, htx⟩ := hroom c hc hlive
      exact ⟨by omega, by omega, c, hc, hr, ht, hlive⟩
  refine ⟨resolved, h.loaded_resolves, hlanes, ?_, ?_⟩
  · intro c hc hlive
    obtain ⟨hrx, htx⟩ := h.checked.ports c hc
    obtain ⟨lane, hmem, hindex, hr, ht⟩ := (hlanes c.rx.toNat c.tx.toNat).mpr
      ⟨c, hc, (Int.toNat_of_nonneg hrx).symm, (Int.toNat_of_nonneg htx).symm, hlive⟩
    exact ⟨lane, hmem, hindex, by omega, by omega⟩
  · intro lane hmem hindex
    obtain ⟨c, hc, hr, ht, hlive⟩ :=
      (hlanes lane.rxPort lane.txPort).mp ⟨lane, hmem, hindex, rfl, rfl⟩
    obtain ⟨clone, hclone, hchain⟩ := h.clone_chain hfree hmem hindex
    refine ⟨clone, hclone, ?_⟩
    have hsame := (h.sameChain_iff hc hlive hr ht).mpr fun hdelay hlead =>
      ⟨(hdelays link hlink model hmodel hdeclared hdelay hlead).1 c hc hlive,
        (hdelays link hlink model hmodel hdeclared hdelay hlead).2 first h.checked.first⟩
    unfold SameChain at hsame ⊢
    rw [hchain]
    exact hsame

/-- **Fixed matrices are lowered faithfully** when no clone finds its id taken, no coefficient
leaves the single lane of an implicit node and no delay is put in front of a chain that the weights
change; the last two are needed wherever the first holds; and over the reals a folded coefficient
is a complex factor. -/
theorem fixed_mimo_lowering (path : String) (config loaded : TopologyConfig K)
    (hload : loadConfig path config = .ok loaded) :
    (MimoIdsFree config ∧ CoefficientsInRange config ∧ UnitBehindDelay config →
      LoweredFaithfully config loaded) ∧
    (MimoIdsFree config → LoweredFaithfully config loaded →
      CoefficientsInRange config ∧ UnitBehindDelay config) ∧
    ∀ (tap : TapSpec ℝ) (c : MimoCoefficient ℝ) (x : Iq ℝ), c.nonzero →
      weightTap (tap.weighted c) x = (weightTap tap x).mulCplx ⟨c.real, c.imag⟩ := by
  refine ⟨?_, ?_, fun tap c x hlive => weightTap_folded tap hlive x⟩
  · rintro ⟨hfree, hrange, hdelays⟩
    exact loweredFaithfully hload hfree hrange hdelays
  · exact fun hfree hfaithful => hfaithful.conditions hload hfree

end Matrices

/-- A matrix whose chain leads with the weighted step, on a delayed link. -/
def delayedMatrix : TopologyConfig ℚ :=
  { devices := [plainDevice "u0", plainDevice "u1", plainDevice "g"]
    radioNodes := [⟨"ue", ["u0", "u1"], ["u0", "u1"]⟩, ⟨"gnb", ["g"], ["g"]⟩]
    links :=
      [{ plainLink "ue" "gnb" "matrix" with propagationDelaySamples := 2 },
       plainLink "gnb" "ue" "flat"]
    models :=
      [("matrix",
        { id := "matrix"
          chain := [{ type := .tdl, taps := [⟨0, 0, 0, false, 0, 0⟩, ⟨3, 0, 0, false, 0, 0⟩]
                      tapsDeclared := true, fadingFDMaxHz := 0, fadingGridUs := 100 }]
          fixedMimo := [⟨0, 0, 0, 1, 0⟩, ⟨1, 0, 1, 10, 0⟩]
          fixedMimoDeclared := true }),
       ("flat",
        { id := "flat"
          chain := [{ type := .gain, params := [("gain_db", 0)]
                      fadingFDMaxHz := 0, fadingGridUs := 100 }] })] }

theorem fixed_mimo_lowering_delayedMatrix : ∃ loaded,
    loadConfig "topology.yaml" delayedMatrix = .ok loaded ∧
      LoweredFaithfully delayedMatrix loaded := by
  have hclones : (resolveTopology (foldModels delayedMatrix)).toOption.all (fun resolved =>
      resolved.lanes.all fun lane =>
        match (foldModels delayedMatrix).links[lane.linkIndex]? with
        | none => true
        | some link =>
            !((foldModels delayedMatrix).findModel link.model).any (·.fixedMimoDeclared) ||
              ((foldModels delayedMatrix).findModel lane.modelId).isNone) = true := by
    decide +kernel
  have hfree : MimoIdsFree delayedMatrix := by
    constructor
    · exact ⟨by decide +kernel, by decide +kernel⟩
    · intro resolved hresolved lane hlane link base hmatrix
      rw [hresolved] at hclones
      have hlane' := List.all_eq_true.mp hclones lane hlane
      rw [hmatrix.linkAt] at hlane'
      simpa [hmatrix.baseAt, hmatrix.declared] using hlane'
  have hload : (loadConfig "topology.yaml" delayedMatrix).toOption.isSome = true := by
    decide +kernel
  cases hloaded : loadConfig "topology.yaml" delayedMatrix with
  | error e =>
      rw [hloaded] at hload
      cases hload
  | ok loaded =>
      refine ⟨loaded, rfl,
        (fixed_mimo_lowering "topology.yaml" delayedMatrix loaded hloaded).1 ⟨hfree, ?_, ?_⟩⟩
      · intro hnodes
        cases hnodes
      · intro link hlink model hmodel hdeclared _ hlead
        have hleads : ∀ link ∈ delayedMatrix.links, ∀ entry ∈ delayedMatrix.models,
            entry.2.fixedMimoDeclared = true → entry.2.leadsWithTdl = true := by
          decide +kernel
        rw [hleads link hlink _ (findModel_mem hmodel) hdeclared] at hlead
        cases hlead

/-- A matrix on the first of two taps, behind a path loss, on a delayed link. -/
def prependedMatrix : TopologyConfig ℚ :=
  { devices := [plainDevice "a", plainDevice "b"]
    links :=
      [{ plainLink "a" "b" "matrix" with propagationDelaySamples := 2 }, plainLink "b" "a" "loss"]
    models :=
      [("matrix",
        { id := "matrix"
          chain :=
            [{ type := .pathLoss, params := [("path_loss_db", 3)]
               fadingFDMaxHz := 0, fadingGridUs := 100 },
             { type := .tdl, taps := [⟨0, 0, 0, false, 0, 0⟩, ⟨4, 0, 0, false, 0, 0⟩]
               tapsDeclared := true, fadingFDMaxHz := 0, fadingGridUs := 100 }]
          fixedMimo := [⟨0, 0, 0, 1, 0⟩]
          fixedMimoDeclared := true }),
       ("loss",
        { id := "loss"
          chain := [{ type := .pathLoss, params := [("path_loss_db", 3)]
                      fadingFDMaxHz := 0, fadingGridUs := 100 }] })] }

/-- Two links of one matrix, whose delays print the same six digits. -/
def collidingDelays : TopologyConfig ℚ :=
  { devices := [plainDevice "a", plainDevice "b"]
    links :=
      [{ plainLink "a" "b" "matrix" with propagationDelaySamples := 1 + 1 / 10 ^ 7 },
       { plainLink "b" "a" "matrix" with propagationDelaySamples := 1 + 2 / 10 ^ 7 }]
    models :=
      [("matrix",
        { id := "matrix"
          chain := [{ type := .tdl, taps := [⟨0, 0, 0, false, 0, 0⟩], tapsDeclared := true
                      fadingFDMaxHz := 0, fadingGridUs := 100 }]
          fixedMimo := [⟨0, 0, 0, 1, 0⟩]
          fixedMimoDeclared := true })] }

/-- Link `i` has a lane whose chain is not the declared one. -/
def hasWrongLane (config loaded : TopologyConfig ℚ) (i : ℕ) : Bool :=
  (resolveTopology loaded).toOption.any fun resolved => resolved.lanes.any fun lane =>
    decide (lane.linkIndex = i) && (loaded.findModel lane.modelId).any fun clone =>
      (config.links[i]?).any fun link => (config.findModel link.model).any fun model =>
        model.fixedMimoDeclared && !decide (SameChain clone
          (((model.weighted lane.rxPort lane.txPort).delayedBy
            (totalDelay config link)).scaledBy (txScaleDb config link)))

/-- A wrong lane is no faithful lowering. -/
theorem not_lowered_of_wrongLane {config loaded : TopologyConfig ℚ} {i : ℕ}
    (h : hasWrongLane config loaded i = true) : ¬ LoweredFaithfully config loaded := by
  intro hfaithful
  unfold hasWrongLane at h
  obtain ⟨resolved, hresolved, h⟩ := (Option.any_eq_true _ _).mp h
  obtain ⟨lane, hlane, h⟩ := List.any_eq_true.mp h
  obtain ⟨hindex, h⟩ := (Bool.and_eq_true _ _).mp h
  obtain ⟨clone, hclone, h⟩ := (Option.any_eq_true _ _).mp h
  obtain ⟨link, hlink, h⟩ := (Option.any_eq_true _ _).mp h
  obtain ⟨model, hmodel, h⟩ := (Option.any_eq_true _ _).mp h
  obtain ⟨hdeclared, hdiffers⟩ := (Bool.and_eq_true _ _).mp h
  obtain ⟨resolved', hresolved', hmodels⟩ := hfaithful i link model hlink hmodel hdeclared
  rw [hresolved'] at hresolved
  obtain rfl : resolved' = resolved := Option.some.inj hresolved
  obtain ⟨clone', hclone', hsame⟩ := hmodels.chains lane hlane (of_decide_eq_true hindex)
  obtain rfl : clone = clone' := Option.some.inj (hclone.symm.trans hclone')
  rw [decide_eq_true hsame] at hdiffers
  cases hdiffers

/-- A load that goes through with a wrong lane. -/
theorem exists_not_lowered (path : String) (config : TopologyConfig ℚ) (i : ℕ)
    (h : (loadConfig path config).toOption.any (hasWrongLane config · i) = true) :
    ∃ loaded, loadConfig path config = .ok loaded ∧ ¬ LoweredFaithfully config loaded := by
  cases hloaded : loadConfig path config with
  | error e =>
      rw [hloaded] at h
      cases h
  | ok loaded =>
      rw [hloaded] at h
      exact ⟨loaded, rfl, not_lowered_of_wrongLane h⟩

/-- The delay takes the weight, and the second tap of the declared step stays; and of two delays
with one printed id, the second link gets the first one's, though its matrix is in range and
meets no delay in front. -/
theorem fixed_mimo_lowering_fails :
    (¬ ∀ (path : String) (config loaded : TopologyConfig ℚ),
      loadConfig path config = .ok loaded → LoweredFaithfully config loaded) ∧
    ¬ ∀ (path : String) (config loaded : TopologyConfig ℚ), loadConfig path config = .ok loaded →
      CoefficientsInRange config → UnitBehindDelay config → LoweredFaithfully config loaded := by
  constructor
  · intro h
    obtain ⟨loaded, hloaded, hnot⟩ := exists_not_lowered "topology.yaml" prependedMatrix 0
      (by decide +kernel)
    exact hnot (h _ _ _ hloaded)
  · intro h
    obtain ⟨loaded, hloaded, hnot⟩ := exists_not_lowered "topology.yaml" collidingDelays 1
      (by decide +kernel)
    have hmatrix : ∀ entry ∈ collidingDelays.models,
        (∀ c ∈ entry.2.fixedMimo, c.rx = 0 ∧ c.tx = 0) ∧ entry.2.leadsWithTdl = true := by
      decide +kernel
    refine hnot (h _ _ _ hloaded ?_ ?_)
    · intro _ link _ model hmodel _ c hc _
      exact (hmatrix _ (findModel_mem hmodel)).1 c hc
    · intro link _ model hmodel _ _ hlead
      rw [(hmatrix _ (findModel_mem hmodel)).2] at hlead
      cases hlead
