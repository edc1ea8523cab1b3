/-
# The lowering of fixed matrices

`load_config_file` after the parser: the two folds, the expansion of every `fixed_mimo` model
into one clone for each lane, and the validation.  The clone of a lane weights the first tdl
step of the folded chain.
-/
import GpuChannel.LinkAmounts
import GpuChannel.LaneTable
import GpuChannel.Library.Texts

/-! ## Loading -/

section Load

variable {K : Type} [Field K] [LinearOrder K] [Libm K]

/-- The two folds. -/
def foldModels (config : TopologyConfig K) : TopologyConfig K :=
  foldDeviceTxScales (foldLinkLeadingDelays config)

/-- **`load_config_file`** behind the parser. -/
def loadConfig (path : String) (config : TopologyConfig K) : Except String (TopologyConfig K) := do
  let config ← expandFixedMimoModels (foldModels config)
  let errors := validateConfig config
  if !errors.isEmpty then
    throw ("invalid config " ++ path ++ ":" ++ String.join (errors.map ("\n- " ++ ·)))
  return config

/-- One lane of the loop of `expand_fixed_mimo_models`. -/
def expandLane (config : TopologyConfig K) (lane : LaneConfig) : TopologyConfig K :=
  if (config.findModel lane.modelId).isSome then config
  else
    match (config.links[lane.linkIndex]?).bind fun link => config.findModel link.model with
    | none => config
    | some base =>
        if base.fixedMimoDeclared ∧ fixedMimoStepIndex base < base.chain.length then
          { config with models := config.models ++ [(lane.modelId, fixedMimoClone base lane)] }
        else config

theorem loadConfig_eq_ok {path : String} {config loaded : TopologyConfig K}
    (h : loadConfig path config = .ok loaded) :
    expandFixedMimoModels (foldModels config) = .ok loaded ∧ validateConfig loaded = [] := by
  unfold loadConfig at h
  obtain ⟨expanded, hexpanded, h⟩ := bind_eq_ok h
  dsimp only at h
  split_ifs at h with herrors
  · cases h
  · cases h
    exact ⟨hexpanded, by simpa using herrors⟩

theorem expand_eq_ok {config loaded : TopologyConfig K} {id : String} {model : ModelConfig K}
    (hmodel : config.findModel id = some model) (hdeclared : model.fixedMimoDeclared = true)
    (h : expandFixedMimoModels config = .ok loaded) :
    ∃ resolved, resolveTopology config = .ok resolved ∧
      loaded = resolved.lanes.foldl expandLane config := by
  have hany : ¬ config.models.all (fun entry => !entry.2.fixedMimoDeclared) = true := by
    rw [List.all_eq_true]
    intro hall
    obtain ⟨before, after, hmem⟩ := List.lookup_eq_some_iff.mp hmodel
    have := hall (id, model) (by rw [hmem.1]; simp)
    rw [hdeclared] at this
    exact absurd this (by decide)
  unfold expandFixedMimoModels at h
  rw [if_neg hany] at h
  obtain ⟨resolved, hresolved, h⟩ := bind_eq_ok h
  cases h
  exact ⟨resolved, hresolved, rfl⟩

end Load

/-! ## The clones -/

section Clones

variable {K : Type} [Field K] [LinearOrder K] [Libm K] {start config : TopologyConfig K}
  {done : List LaneConfig} {lane : LaneConfig}

/-- The lane belongs to a link whose model has a fixed matrix. -/
structure MatrixLane (start : TopologyConfig K) (lane : LaneConfig) (link : LinkConfig K)
    (base : ModelConfig K) : Prop where
  linkAt : start.links[lane.linkIndex]? = some link
  baseAt : start.findModel link.model = some base
  declared : base.fixedMimoDeclared = true

/-- The configuration after the loop over the lanes `done`. -/
structure Expanded (start : TopologyConfig K) (done : List LaneConfig)
    (config : TopologyConfig K) : Prop where
  same : config = { start with models := config.models }
  kept : ∀ id model, start.findModel id = some model → config.findModel id = some model
  added : ∀ id model, config.findModel id = some model → start.findModel id = none →
    ∃ lane ∈ done, ∃ link base, MatrixLane start lane link base ∧ lane.modelId = id ∧
      model = fixedMimoClone base lane
  cloned : ∀ lane ∈ done, ∀ link base, MatrixLane start lane link base →
    fixedMimoStepIndex base < base.chain.length → config.findModel lane.modelId ≠ none

theorem expanded_start (start : TopologyConfig K) : Expanded start [] start := by
  constructor
  · rfl
  · exact fun id model h => h
  · intro id model h hnone
    rw [h] at hnone
    cases hnone
  · intro lane hlane
    cases hlane

/-- A model with a fixed matrix is no clone. -/
theorem Expanded.base (h : Expanded start done config) {id : String} {base : ModelConfig K}
    (hbase : config.findModel id = some base) (hdeclared : base.fixedMimoDeclared = true) :
    start.findModel id = some base := by
  cases hstart : start.findModel id with
  | none =>
      obtain ⟨lane, -, link, origin, -, -, rfl⟩ := h.added id base hbase hstart
      exact absurd hdeclared Bool.false_ne_true
  | some model => exact (h.kept id model hstart).symm.trans hbase

/-- The loop leaves the configuration as it is, or enters one clone. -/
theorem expandLane_cases (config : TopologyConfig K) (lane : LaneConfig) :
    (expandLane config lane = config ∧ (config.findModel lane.modelId ≠ none ∨
      ∀ link base, config.links[lane.linkIndex]? = some link → config.findModel link.model = some base →
        ¬ (base.fixedMimoDeclared = true ∧ fixedMimoStepIndex base < base.chain.length))) ∨
    ∃ link base, config.links[lane.linkIndex]? = some link ∧
      config.findModel link.model = some base ∧ base.fixedMimoDeclared = true ∧
      config.findModel lane.modelId = none ∧
      expandLane config lane =
        { config with models := config.models ++ [(lane.modelId, fixedMimoClone base lane)] } := by
  unfold expandLane
  -- the lane's id is free only where its link has a declared matrix
  cases hown : config.findModel lane.modelId with
  | some model =>
      left
      exact ⟨rfl, Or.inl (Option.some_ne_none model)⟩
  | none =>
      rw [if_neg (by simp)]
      cases hlink : config.links[lane.linkIndex]? with
      | none =>
          left
          refine ⟨rfl, Or.inr ?_⟩
          intro link base h
          cases h
      | some link =>
          rw [Option.bind_some]
          cases hbase : config.findModel link.model with
          | none =>
              left
              refine ⟨rfl, Or.inr ?_⟩
              intro link' base hlink' hbase'
              cases hlink'
              rw [hbase] at hbase'
              cases hbase'
          | some base =>
              dsimp only
              split_ifs with hfold
              · right
                exact ⟨link, base, rfl, hbase, hfold.1, rfl, rfl⟩
              · left
                refine ⟨rfl, Or.inr ?_⟩
                intro link' base' hlink' hbase'
                cases hlink'
                cases hbase.symm.trans hbase'
                exact hfold

omit [Field K] [LinearOrder K] [Libm K] in
theorem findModel_append (config : TopologyConfig K) (id key : String) (model : ModelConfig K) :
    ({ config with models := config.models ++ [(key, model)] } : TopologyConfig K).findModel id =
      (config.findModel id).or (if id = key then some model else none) := by
  unfold TopologyConfig.findModel
  rw [List.lookup_append, List.lookup_cons, List.lookup_nil]
  by_cases h : id = key
  · subst h
    simp
  · have hbeq : (id == key) = false := beq_eq_false_iff_ne.mpr h
    simp [h, hbeq]

theorem Expanded.step (h : Expanded start done config) (lane : LaneConfig) :
    Expanded start (done ++ [lane]) (expandLane config lane) := by
  have hlinks : config.links = start.links := by
    rw [h.same]
  -- nothing is cloned, or the lane's clone is added
  rcases expandLane_cases config lane with ⟨heq, hwhy⟩ | ⟨link, base, hlink, hbase, hdecl, hown, heq⟩
  · rw [heq]
    refine ⟨h.same, h.kept, ?_, ?_⟩
    · intro id model hmodel hnone
      obtain ⟨other, hother, hrest⟩ := h.added id model hmodel hnone
      exact ⟨other, List.mem_append_left _ hother, hrest⟩
    · intro other hother link base hmatrix hindex
      rcases List.mem_append.mp hother with hother | hother
      · exact h.cloned other hother link base hmatrix hindex
      · obtain rfl := List.mem_singleton.mp hother
        rcases hwhy with hown | hnot
        · exact hown
        · exact absurd ⟨hmatrix.declared, hindex⟩
            (hnot link base (hlinks ▸ hmatrix.linkAt) (h.kept _ _ hmatrix.baseAt))
  · rw [heq]
    refine ⟨?_, ?_, ?_, ?_⟩
    · rw [h.same]
    · intro id model hmodel
      rw [findModel_append, h.kept id model hmodel, Option.some_or]
    · intro id model hmodel hnone
      rw [findModel_append] at hmodel
      cases hold : config.findModel id with
      | some found =>
          rw [hold, Option.some_or] at hmodel
          obtain ⟨other, hother, hrest⟩ := h.added id model (hold.trans hmodel) hnone
          exact ⟨other, List.mem_append_left _ hother, hrest⟩
      | none =>
          rw [hold, Option.none_or] at hmodel
          split_ifs at hmodel with hid
          refine ⟨lane, List.mem_append_right _ (List.mem_singleton.mpr rfl), link, base, ?_,
            hid.symm, (Option.some.inj hmodel).symm⟩
          exact ⟨hlinks ▸ hlink, h.base hbase hdecl, hdecl⟩
    · intro other hother link' base' hmatrix hindex
      rw [findModel_append]
      rcases List.mem_append.mp hother with hother | hother
      · obtain ⟨found, hfound⟩ :=
          Option.ne_none_iff_exists'.mp (h.cloned other hother link' base' hmatrix hindex)
        rw [hfound, Option.some_or]
        exact Option.some_ne_none _
      · obtain rfl := List.mem_singleton.mp hother
        rw [hown, Option.none_or, if_pos rfl]
        exact Option.some_ne_none _

theorem expanded_run (start : TopologyConfig K) (lanes : List LaneConfig) :
    Expanded start lanes (lanes.foldl expandLane start) := by
  induction lanes using List.reverseRecOn with
  | nil => exact expanded_start start
  | append_singleton lanes lane ih =>
      rw [List.foldl_append]
      exact ih.step lane

/-! ## The ids of the clones -/

theorem fixedMimoModelId_inj {base base' : String} {r t r' t' : ℕ}
    (h : fixedMimoModelId base r t = fixedMimoModelId base' r' t') :
    base = base' ∧ r = r' ∧ t = t' := by
  have htext : ∀ (b : String) (i j : ℕ), fixedMimoModelId b i j =
      "__ocg_mimo__" ++ b ++ "__" ++ "r" ++ toString i ++ "t" ++ toString j := by
    intro b i j
    rw [fixedMimoModelId, show ("__r" : String) = "__" ++ "r" by decide]
    simp only [String.append_assoc]
  rw [htext, htext] at h
  obtain ⟨h, -, ht⟩ := Texts.append_number_inj (c := 't') (d := 't') (by decide) (by decide)
    (by decide) (by decide) h
  obtain ⟨h, -, hr⟩ := Texts.append_number_inj (c := 'r') (d := 'r') (by decide) (by decide)
    (by decide) (by decide) h
  exact ⟨(String.append_right_inj "__ocg_mimo__").mp ((String.append_left_inj "__").mp h), hr, ht⟩

omit [Libm K] in
/-- The model id of a lane of a fixed matrix. -/
theorem modelId_of_matrix {resolved : ResolvedTopology}
    (hresolved : resolveTopology start = .ok resolved) (hlane : lane ∈ resolved.lanes)
    {link : LinkConfig K} {base : ModelConfig K} (hmatrix : MatrixLane start lane link base) :
    lane.modelId = fixedMimoModelId link.model lane.rxPort lane.txPort := by
  obtain ⟨i, l, s, d, hl, r, -, t, -, -, rfl⟩ := ((lanes_spec hresolved).2 lane).mp hlane
  obtain rfl : link = l := Option.some.inj (hmatrix.linkAt.symm.trans hl.1)
  simp only [laneAt, hmatrix.baseAt, Option.map_some, Option.getD_some, hmatrix.declared, if_true]

/-- **The model of a matrix lane** is the clone of its link's model, where its id is free. -/
theorem clone_of_lane {resolved : ResolvedTopology}
    (hresolved : resolveTopology start = .ok resolved) (hlane : lane ∈ resolved.lanes)
    {link : LinkConfig K} {base : ModelConfig K} (hmatrix : MatrixLane start lane link base)
    (hindex : fixedMimoStepIndex base < base.chain.length)
    (hfree : start.findModel lane.modelId = none) :
    (resolved.lanes.foldl expandLane start).findModel lane.modelId =
      some (fixedMimoClone base lane) := by
  have hexp := expanded_run start resolved.lanes
  obtain ⟨model, hmodel⟩ :=
    Option.ne_none_iff_exists'.mp (hexp.cloned lane hlane link base hmatrix hindex)
  obtain ⟨other, hother, link', base', hmatrix', hid, rfl⟩ := hexp.added _ _ hmodel hfree
  have hids := hid
  rw [modelId_of_matrix hresolved hother hmatrix', modelId_of_matrix hresolved hlane hmatrix] at hids
  obtain ⟨hname, hr, ht⟩ := fixedMimoModelId_inj hids
  have hbase : base' = base := by
    have := hmatrix'.baseAt
    rw [hname, hmatrix.baseAt] at this
    exact (Option.some.inj this).symm
  rw [hmodel, hbase]
  simp only [fixedMimoClone, hid, hr, ht]

/-! ## Resolving the expanded configuration -/

omit [Libm K] in
theorem expandLinks_congr {a b : TopologyConfig K} {nodes : List ResolvedNode}
    {links : List (LinkConfig K)} (h : ∀ link ∈ links, ∀ i src dst,
      expandLink a i link src dst = expandLink b i link src dst) (index : ℕ) :
    expandLinks a nodes index links = expandLinks b nodes index links := by
  induction links generalizing index with
  | nil => rfl
  | cons link links ih =>
      have hlink := h link List.mem_cons_self
      have hrest := ih fun l hl => h l (List.mem_cons_of_mem link hl)
      simp only [expandLinks, hlink, hrest]

/-- The clones do not change the lanes. -/
theorem resolve_expanded (h : Expanded start done config) :
    resolveTopology config = resolveTopology start := by
  have hlinks : ∀ link ∈ config.links, ∀ i src dst,
      expandLink config i link src dst = expandLink start i link src dst := by
    intro link _ i src dst
    cases hstart : start.findModel link.model with
    | some model =>
        unfold expandLink
        rw [h.kept _ _ hstart, hstart]
    | none =>
        have hflag : ((config.findModel link.model).map (·.fixedMimoDeclared)).getD false = false := by
          cases hmodel : config.findModel link.model with
          | none => rfl
          | some model =>
              obtain ⟨other, -, link', base, -, -, rfl⟩ := h.added _ _ hmodel hstart
              rfl
        unfold expandLink
        simp only [hflag, hstart, Option.map_none, Option.getD_none]
        simp
  have hnodes : resolveNodes config = resolveNodes start := by
    rw [h.same]
    rfl
  have hsame : config.links = start.links := by
    rw [h.same]
  unfold resolveTopology
  dsimp only
  rw [expandLinks_congr hlinks, hnodes, hsame]

end Clones
