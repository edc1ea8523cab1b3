/-
# Both backends from one configuration

`prepare` of the CPU processor against `prepare` of the CUDA processor on a static topology.  Their
lane loops write the same control blocks and live parameters to every link; behind them the CPU adds
the mixing matrices of its groups, and the CUDA processor builds the device states of its nodes.
Whenever both succeed, the lanes that they leave are parallel.
-/
import GpuChannel.BackendParity

noncomputable section

section BackendPrepare

open CudaChannelProcessor (laneSlot deviceEdge nodeEdges)

variable [Rng ℝ]

/-- **A static topology**: every lane has a static model, and no node has a receiver model. -/
structure StaticTopology (config : TopologyConfig ℝ) (resolved : ResolvedTopology) : Prop where
  lanes : ∀ lane ∈ resolved.lanes, ∃ model first rest,
    config.findModel lane.modelId = some model ∧ StaticModel model first rest
  rows : ∀ node ∈ resolved.nodes, rowModel config node = none

/-! ## One lane -/

section Lane

variable {model : ModelConfig ℝ} {first : ModelStep ℝ} {rest : List (ModelStep ℝ)}
  {lane : LaneConfig}

omit [Rng ℝ] in
theorem StaticModel.ne_nil (h : StaticModel model first rest) : model.chain ≠ [] := by
  rw [h.chain]
  exact List.cons_ne_nil _ _

omit [Rng ℝ] in
theorem leadsWithTdl_of_static (h : StaticModel model first rest) : leadsWithTdl model = true := by
  unfold leadsWithTdl
  rw [h.chain]
  exact decide_eq_true (congrArg some h.leads)

omit [Rng ℝ] in
/-- The ring that `prepare` makes room for, all zero. -/
theorem prepareTdlState_ring (taps : List (TapSpec ℝ)) :
    (prepareTdlState taps []).2 = List.replicate (ringSize taps) 0 := by
  have hroom : ([] : List (Iq ℝ)).length < ringSize taps := by
    unfold ringSize
    exact Nat.succ_pos _
  unfold prepareTdlState
  rw [if_pos hroom]

/-- The slot of a lane, its leading tdl prepared. -/
theorem laneSlot_tdl (h : StaticModel model first rest) (lane : LaneConfig) :
    (laneSlot model lane).tdlPolyphase = first.taps.map tapPolyphase ∧
      (laneSlot model lane).delayLine = List.replicate (ringSize first.taps) 0 := by
  unfold laneSlot configureLeadingPropagation
  rw [h.chain]
  dsimp only
  rw [if_pos h.leads]
  exact ⟨rfl, prepareTdlState_ring first.taps⟩

/-- The step states of a lane on the CPU: the same tdl state in front. -/
theorem prepareSteps_static (h : StaticModel model first rest) (key : String)
    (identity : LaneIdentity) : ∃ tdl others, prepareSteps key model identity = tdl :: others ∧
      tdl.tdlPolyphase = first.taps.map tapPolyphase ∧
      tdl.delayLine = List.replicate (ringSize first.taps) 0 := by
  unfold prepareSteps
  rw [h.chain, List.mapIdx_cons]
  dsimp only
  rw [if_pos h.leads]
  exact ⟨_, _, rfl, rfl, prepareTdlState_ring first.taps⟩

/-- No step has turned yet. -/
theorem prepareSteps_phaseRad (key : String) (model : ModelConfig ℝ) (identity : LaneIdentity) :
    ∀ st ∈ prepareSteps key model identity, st.phaseRad = 0 := by
  intro st hst
  unfold prepareSteps at hst
  obtain ⟨i, hi, rfl⟩ := List.mem_mapIdx.mp hst
  dsimp only
  split_ifs <;> rfl

/-- **Both lane loops write the same to a link.** -/
theorem prepareLink_agree (h : StaticModel model first rest) (lane : LaneConfig) (flag : Bool)
    (count : ℕ) (link : PhysicalLinkRuntime ℝ) :
    CudaChannelProcessor.prepareLink model (laneSlot model lane) lane flag count link =
      { enteredLink lane.key model count lane.identity link with
        control := { (enteredLink lane.key model count lane.identity link).control with
          fixedMimoDeclared := flag } } := by
  obtain ⟨tdl, others, hsteps, -, hline⟩ := prepareSteps_static h lane.key lane.identity
  have hlive : (laneSlot model lane).live = populateMutableParamsFromYaml model := rfl
  unfold enteredLink
  rw [if_neg h.ne_nil, hsteps]
  unfold CudaChannelProcessor.prepareLink prepareLink
  rw [hlive, (laneSlot_tdl h lane).2]
  dsimp only
  rw [hline]
  rfl

end Lane

/-! ## The lane loops -/

section Lanes

variable {config : TopologyConfig ℝ} {resolved : ResolvedTopology} {p q : CpuChannelProcessor ℝ}
  {c c' : CudaChannelProcessor ℝ}

/-- The flag of a link's base model. -/
def baseFlag (config : TopologyConfig ℝ) (lane : LaneConfig) : Bool :=
  (((config.links[lane.linkIndex]?).bind fun link => config.findModel link.model).map
    (·.fixedMimoDeclared)).getD false

/-- What both lane loops write to a link. -/
def loweredLink (config : TopologyConfig ℝ) (model : ModelConfig ℝ) (lane : LaneConfig) (count : ℕ)
    (link : PhysicalLinkRuntime ℝ) : PhysicalLinkRuntime ℝ :=
  { enteredLink lane.key model count lane.identity link with
    control := { (enteredLink lane.key model count lane.identity link).control with
      fixedMimoDeclared := baseFlag config lane } }

/-- **Both processors behind these lanes** of the lane loops. -/
structure LanesEntered (config : TopologyConfig ℝ) (done : List LaneConfig)
    (p : CpuChannelProcessor ℝ) (c : CudaChannelProcessor ℝ) : Prop where
  links : p.links = c.links
  states : ∀ key, p.states key ≠ none → key ∈ done.map (·.key)
  slots : ∀ lane ∈ done, ∀ model, config.findModel lane.modelId = some model →
    c.linkSlots lane.key = some (laneSlot model lane)

omit [Rng ℝ] in
/-- The link and the destination of a lane are in the topology. -/
theorem lane_resolved (hresolved : resolveTopology config = .ok resolved) {lane : LaneConfig}
    (hlane : lane ∈ resolved.lanes) : (∃ link, config.links[lane.linkIndex]? = some link) ∧
      ∃ node, resolved.nodes.find? (·.id = lane.dstNode) = some node := by
  obtain ⟨i, l, src, dst, hl, r, -, t, -, -, rfl⟩ := ((lanes_spec hresolved).2 lane).mp hlane
  refine ⟨⟨l, hl.1⟩, dst, ?_⟩
  have hid : dst.id = l.toNode := by
    have hfound := List.find?_some hl.2.2
    exact of_decide_eq_true hfound
  have hdst : (laneAt config i l src dst r t).dstNode = l.toNode := hid
  rw [resolveTopology_nodes hresolved, hdst]
  exact hl.2.2

/-- A lane of the lane loop on the CPU. -/
theorem prepareLane_cpu {lane : LaneConfig} (hnone : p.states lane.key = none)
    {model : ModelConfig ℝ} (hmodel : config.findModel lane.modelId = some model)
    {node : ResolvedNode} (hnode : resolved.nodes.find? (·.id = lane.dstNode) = some node)
    {link : LinkConfig ℝ} (hlink : config.links[lane.linkIndex]? = some link) :
    CpuChannelProcessor.prepareLane config resolved p lane =
      { p with
        states := Function.update p.states lane.key
          (some (ensuredState lane.key model lane.identity none))
        links := Function.update p.links lane.physicalLinkKey
          (some (loweredLink config model lane
            (resolveBatchSamples config.runtime node.sampleRateHz)
            ((p.links lane.physicalLinkKey).getD PhysicalLinkRuntime.default))) } := by
  have hidentity : ({ physicalLinkKey := lane.physicalLinkKey, rxPort := lane.rxPort
                      txPort := lane.txPort, nt := lane.nt, nr := lane.nr } : LaneIdentity) =
      lane.identity := rfl
  have hhome : (ensuredState lane.key model lane.identity none).link = lane.physicalLinkKey :=
    ensuredState_link ..
  have hkey : lane.identity.physicalLinkKey = lane.physicalLinkKey := rfl
  unfold CpuChannelProcessor.prepareLane loweredLink baseFlag
  rw [hmodel, hnode]
  dsimp only
  rw [hidentity, ensureLinkState_of_none hnone, hlink]
  dsimp only
  rw [Function.update_self]
  dsimp only
  unfold CpuChannelProcessor.modifyLink
  dsimp only
  rw [hhome, hkey, Function.update_self, Function.update_idem, Option.map_some]
  rfl

/-- **One lane** on both processors. -/
theorem LanesEntered.prepareLane (hresolved : resolveTopology config = .ok resolved)
    {done : List LaneConfig} (h : LanesEntered config done p c) {lane : LaneConfig}
    (hlane : lane ∈ resolved.lanes) (hnew : lane.key ∉ done.map (·.key)) {model : ModelConfig ℝ}
    {first : ModelStep ℝ} {rest : List (ModelStep ℝ)}
    (hmodel : config.findModel lane.modelId = some model) (hstatic : StaticModel model first rest) :
    LanesEntered config (done ++ [lane]) (CpuChannelProcessor.prepareLane config resolved p lane)
      (CudaChannelProcessor.prepareLane config resolved c lane) := by
  obtain ⟨⟨link, hlink⟩, node, hnode⟩ := lane_resolved hresolved hlane
  have hnone : p.states lane.key = none := by
    by_contra hsome
    exact hnew (h.states lane.key hsome)
  rw [prepareLane_cpu hnone hmodel hnode hlink]
  unfold CudaChannelProcessor.prepareLane
  rw [hmodel, hnode]
  refine ⟨?_, ?_, ?_⟩
  · dsimp only
    rw [h.links, prepareLink_agree hstatic]
    rfl
  · intro key hkey
    rw [List.map_append, List.mem_append, List.map_singleton, List.mem_singleton]
    by_cases heq : key = lane.key
    · exact Or.inr heq
    · dsimp only at hkey
      rw [Function.update_of_ne heq] at hkey
      exact Or.inl (h.states key hkey)
  · intro lane' hlane' model' hmodel'
    dsimp only
    rcases List.mem_append.mp hlane' with hlane' | hlane'
    · have hne : lane'.key ≠ lane.key := fun heq => hnew (heq ▸ List.mem_map_of_mem hlane')
      rw [Function.update_of_ne hne]
      exact h.slots lane' hlane' model' hmodel'
    · obtain rfl := List.mem_singleton.mp hlane'
      obtain rfl := Option.some.inj (hmodel.symm.trans hmodel')
      exact Function.update_self ..

/-- **The lane loops.** -/
theorem prepareLanes_entered (hresolved : resolveTopology config = .ok resolved)
    (hstatic : StaticTopology config resolved) (lanes : List LaneConfig)
    (hsub : ∀ lane ∈ lanes, lane ∈ resolved.lanes) (hnodup : (lanes.map (·.key)).Nodup) :
    LanesEntered config lanes
      (lanes.foldl (CpuChannelProcessor.prepareLane config resolved) CpuChannelProcessor.empty)
      (lanes.foldl (CudaChannelProcessor.prepareLane config resolved) CudaChannelProcessor.empty) := by
  induction lanes using List.reverseRecOn with
  | nil =>
      exact ⟨rfl, fun _ hkey => absurd rfl hkey, fun _ hlane => absurd hlane List.not_mem_nil⟩
  | append_singleton lanes lane ih =>
      rw [List.map_append, List.map_singleton, List.nodup_append] at hnodup
      obtain ⟨hnodup, -, hapart⟩ := hnodup
      have hdone := ih (fun l hl => hsub l (List.mem_append_left _ hl)) hnodup
      have hmem := hsub lane (List.mem_append_right _ (List.mem_singleton_self lane))
      obtain ⟨model, first, rest, hmodel, hmodelStatic⟩ := hstatic.lanes lane hmem
      rw [List.foldl_concat, List.foldl_concat]
      refine hdone.prepareLane hresolved hmem ?_ hmodel hmodelStatic
      exact fun hin => hapart _ hin _ (List.mem_singleton_self _) rfl

/-! ## Behind the lane loop of the CPU -/

/-- **The grids of some links changed, and nothing else.** -/
structure OnlyGrids (p q : CpuChannelProcessor ℝ) : Prop where
  links : ∀ k, ∃ f : PhysicalLinkFading ℝ → PhysicalLinkFading ℝ,
    q.links k = (p.links k).map fun link => { link with fading := f link.fading }

omit [Rng ℝ] in
theorem OnlyGrids.refl (p : CpuChannelProcessor ℝ) : OnlyGrids p p := by
  refine ⟨fun k => ⟨id, ?_⟩⟩
  cases p.links k <;> rfl

omit [Rng ℝ] in
theorem OnlyGrids.trans {r : CpuChannelProcessor ℝ} (h : OnlyGrids p q) (h' : OnlyGrids q r) :
    OnlyGrids p r := by
  refine ⟨fun k => ?_⟩
  obtain ⟨f, hf⟩ := h.links k
  obtain ⟨g, hg⟩ := h'.links k
  refine ⟨g ∘ f, ?_⟩
  rw [hg, hf, Option.map_map]
  rfl

omit [Rng ℝ] in
theorem onlyGrids_modifyLink (p : CpuChannelProcessor ℝ) (key : String)
    (f : PhysicalLinkFading ℝ → PhysicalLinkFading ℝ) :
    OnlyGrids p (p.modifyLink key fun link => { link with fading := f link.fading }) := by
  refine ⟨fun k => ?_⟩
  unfold CpuChannelProcessor.modifyLink
  dsimp only
  by_cases hk : k = key
  · subst hk
    rw [Function.update_self]
    exact ⟨f, rfl⟩
  · rw [Function.update_of_ne hk]
    exact (OnlyGrids.refl p).links k

omit [Rng ℝ] in
/-- A group changes the grids of its link. -/
theorem onlyGrids_prepareGroup (group : LinkLaneGroup) :
    Ensures (OnlyGrids p) (CpuChannelProcessor.prepareGroup config resolved p group) := by
  unfold CpuChannelProcessor.prepareGroup
  split
  · exact Ensures.pure (OnlyGrids.refl p)
  · split
    · exact Ensures.pure (OnlyGrids.refl p)
    · split_ifs
      · exact Ensures.pure (onlyGrids_modifyLink p _ fun fading =>
          { fading with lanes := group.nt * group.nr, mixing := [] })
      · split
        · exact Ensures.throw
        · exact Ensures.pure (onlyGrids_modifyLink p _ fun fading =>
            { fading with lanes := group.nt * group.nr, mixing := _ })

/-- A node without a receiver model has no rows to prepare. -/
theorem prepareRows_none {node : ResolvedNode} (h : rowModel config node = none) :
    CpuChannelProcessor.prepareRows config p node = p := by
  unfold CpuChannelProcessor.prepareRows
  unfold rowModel at h
  split_ifs at h with hempty
  · rw [if_pos hempty]
  · rw [if_neg hempty, h]

/-- **The links of the CPU behind `prepare`**: as the lane loop left them, but for their grids. -/
theorem prepare_onlyGrids (hresolved : resolveTopology config = .ok resolved)
    (hstatic : StaticTopology config resolved) (hprepare : CpuChannelProcessor.prepare config = .ok p) :
    OnlyGrids (resolved.lanes.foldl (CpuChannelProcessor.prepareLane config resolved)
      CpuChannelProcessor.empty) p := by
  unfold CpuChannelProcessor.prepare at hprepare
  split_ifs at hprepare
  obtain ⟨resolved', hresolved', hprepare⟩ := bind_eq_ok hprepare
  obtain rfl := Except.ok.inj (hresolved.symm.trans hresolved')
  obtain ⟨q, hq, hprepare⟩ := bind_eq_ok hprepare
  obtain rfl := Except.ok.inj hprepare
  generalize resolved.lanes.foldl (CpuChannelProcessor.prepareLane config resolved)
    CpuChannelProcessor.empty = start at hq ⊢
  have hgroups : OnlyGrids start q :=
    Ensures.foldlM (P := OnlyGrids start) (OnlyGrids.refl start)
      (fun group _ r hr r' hr' => hr.trans (onlyGrids_prepareGroup group r' hr')) q hq
  refine List.foldlRecOn _ _ hgroups fun r hr node hnode => ?_
  rw [prepareRows_none (hstatic.rows node hnode)]
  exact hr

/-- What holds of a link between `prepare` and the first slot. -/
structure LinkStands (resolved : ResolvedTopology) (k : String) (link : PhysicalLinkRuntime ℝ) :
    Prop where
  fresh : link.Fresh
  hints : ∀ lane ∈ resolved.lanes, lane.physicalLinkKey = k →
    link.control.ntHint = lane.nt ∧ link.control.nrHint = lane.nr

theorem linkStands_kept (hresolved : resolveTopology config = .ok resolved)
    (hkeys : KeysDistinct config resolved) (hstatic : StaticTopology config resolved) :
    LinksKept config resolved (LinkStands resolved) := by
  refine ⟨?_, ?_, ?_⟩
  · intro key model count identity link hvisit hlink
    have hfresh : link.Fresh := by
      rcases hlink with rfl | hlink
      · exact ⟨rfl, rfl, rfl, rfl⟩
      · exact hlink.fresh
    cases hvisit with
    | lane hlane hmodel =>
        rename_i lane
        obtain ⟨model', first, rest, hmodel', hmodelStatic⟩ := hstatic.lanes lane hlane
        obtain rfl := Option.some.inj (hmodel.symm.trans hmodel')
        unfold enteredLink
        rw [if_neg hmodelStatic.ne_nil]
        have hinit : ∀ live, (if link.control.seqno = 0 ∧ link.liveSeqno = 0 then
            { link with live := live, control := link.control.init live } else link).Fresh := by
          intro live
          split_ifs
          · exact ⟨hfresh.profileActive, hfresh.matrixActive, rfl, rfl⟩
          · exact hfresh
        obtain ⟨hprofile, hmatrix, hprofileIdle, hmatrixIdle⟩ :=
          hinit (populateMutableParamsFromYaml model)
        refine ⟨⟨hprofile, hmatrix, hprofileIdle, hmatrixIdle⟩, ?_⟩
        intro other hother hkey
        obtain ⟨hnt, hnr⟩ := (groupable hresolved hkeys.links).shape lane hlane other hother hkey.symm
        exact ⟨hnt, hnr⟩
    | row hnode hmodel hr =>
        rw [hstatic.rows _ hnode] at hmodel
        cases hmodel
  · intro k link flag h
    exact ⟨⟨h.fresh.profileActive, h.fresh.matrixActive, h.fresh.profilePending,
      h.fresh.matrixPending⟩, h.hints⟩
  · intro group hgroup model link mixing hmodel hmixing h
    exact ⟨⟨h.fresh.profileActive, h.fresh.matrixActive, h.fresh.profilePending,
      h.fresh.matrixPending⟩, h.hints⟩

end Lanes

/-! ## The device state of an edge -/

section Edge

variable {model : ModelConfig ℝ} {first : ModelStep ℝ} {rest : List (ModelStep ℝ)}
  {lane : LaneConfig} {srcIndex : ℕ}

omit [Rng ℝ] in
/-- The populated tap 0 is the declared one. -/
theorem effectiveTaps_populate (h : StaticModel model first rest) :
    effectiveTaps (populateMutableParamsFromYaml model) first.taps = first.taps := by
  obtain ⟨tap, taps, htaps⟩ := List.exists_cons_of_ne_nil h.taps
  have hscanned : scannedTap model.chain = tap := by
    unfold scannedTap leadingTap?
    rw [h.chain]
    dsimp only
    rw [if_pos h.leads, htaps]
    rfl
  unfold effectiveTaps
  rw [htaps, List.modifyHead_cons, overrideTap0_populate, hscanned, ite_self]

/-- The fields of a device state that `build_device_link_state` accepted. -/
theorem deviceEdge_static (h : StaticModel model first rest)
    (hfits : (deviceEdge model (laneSlot model lane) lane srcIndex).1 = true) :
    let d := (deviceEdge model (laneSlot model lane) lane srcIndex).2
    d.srcIndex = srcIndex ∧ d.hasTdl = true ∧ d.fadingEnabled = false ∧
      d.delayLine = List.replicate kDeviceMaxDelayLine 0 ∧
      d.delayLineSize = ringSize first.taps ∧ ringSize first.taps ≤ kDeviceMaxDelayLine ∧
      d.Shows first.taps := by
  obtain ⟨hpoly, hline⟩ := laneSlot_tdl h lane
  unfold deviceEdge at hfits ⊢
  rw [h.chain] at hfits ⊢
  dsimp only at hfits ⊢
  rw [if_pos h.leads] at hfits ⊢
  rw [hpoly, hline, List.length_replicate] at hfits ⊢
  unfold buildDeviceLinkState at hfits ⊢
  dsimp only at hfits ⊢
  rw [if_neg (not_not_intro h.leads)] at hfits ⊢
  -- the three checks of `build_device_link_state`
  by_cases hcount : first.taps.length < 1 ∨ kDeviceMaxTaps < first.taps.length
  · rw [if_pos hcount] at hfits
    cases hfits
  rw [if_neg hcount] at hfits ⊢
  by_cases hring : ringSize first.taps = 0 ∨ kDeviceMaxDelayLine < ringSize first.taps
  · rw [if_pos hring] at hfits
    cases hfits
  rw [if_neg hring] at hfits ⊢
  by_cases hdelay : ∃ tap ∈ first.taps, tap.exceedsDevice ∨
      ((ringSize first.taps : ℕ) : ℤ) < ⌈tap.delaySamples⌉ + kTdlFracFilterTaps
  · rw [if_pos hdelay] at hfits
    cases hfits
  rw [if_neg hdelay]
  dsimp only
  rw [not_or, not_lt] at hcount hring
  -- each tap of the device is that of the configuration
  refine ⟨rfl, rfl, h.still, rfl, rfl, hring.2, rfl, not_lt.mp hcount.2, ?_⟩
  intro k tap htap
  dsimp only
  rw [htap]
  dsimp only
  have hpolyphase : (first.taps.map tapPolyphase).getD k.val (fun _ => 0) = tapPolyphase tap := by
    rw [List.getD_eq_getElem?_getD, List.getElem?_map, htap]
    rfl
  rw [hpolyphase]
  exact ⟨rfl, rfl, rfl, rfl, rfl⟩

/-- **A prepared lane is parallel** on a fresh link. -/
theorem laneParallel_prepared (h : StaticModel model first rest)
    (hfits : (deviceEdge model (laneSlot model lane) lane srcIndex).1 = true)
    {link : PhysicalLinkRuntime ℝ} (hfresh : link.Fresh) (los : Cplx ℝ) :
    LaneParallel model first link (ensuredState lane.key model lane.identity none)
      { laneSlot model lane with losCoefficient := los }
      (deviceEdge model (laneSlot model lane) lane srcIndex).2 := by
  obtain ⟨-, htdl, hstill, hcells, hsize, hroom, hshows⟩ := deviceEdge_static h hfits
  obtain ⟨tdl, others, hsteps, hpoly, hline⟩ := prepareSteps_static h lane.key lane.identity
  -- a lane that is entered for the first time takes the parameters of its model
  have hlive : (ensuredState lane.key model lane.identity none).live =
      populateMutableParamsFromYaml model := by
    have hshort : ¬ (LinkState.bound model lane.identity).steps.length = model.chain.length := by
      intro hlen
      exact h.ne_nil (List.length_eq_zero_iff.mp hlen.symm)
    unfold ensuredState
    dsimp only
    rw [Option.getD_none, if_neg hshort]
  have hlaneIndex : (ensuredState lane.key model lane.identity none).laneIndex =
      lane.rxPort * lane.nt + lane.txPort := ensuredState_laneIndex ..
  -- the slot of the device starts with the phases and counters of a new chain
  have hslot : (laneSlot model lane).phaseRad = List.replicate model.chain.length 0 ∧
      Sized model (laneSlot model lane) := by
    unfold laneSlot configureLeadingPropagation
    rw [h.chain]
    dsimp only
    rw [if_pos h.leads]
    refine ⟨rfl, ⟨?_, ?_, ?_, ?_⟩⟩
    · exact List.length_replicate.trans (congrArg List.length h.chain.symm)
    · exact List.length_replicate.trans (congrArg List.length h.chain.symm)
    · exact ((List.length_map _).trans List.length_range).trans (congrArg List.length h.chain.symm)
    · exact List.length_replicate.trans (congrArg List.length h.chain.symm)
  obtain ⟨hphase, hsized⟩ := hslot
  refine ⟨hlive.symm, hlaneIndex.symm,
    ⟨hsized.hostSteps, hsized.phases, hsized.seeds, hsized.counters⟩, ?_⟩
  refine ⟨tdl, others, 0, List.replicate rest.length 0, ?_, ?_, ?_, ?_⟩
  · rw [ensuredState_steps, hsteps]
  · dsimp only
    rw [hphase, h.chain, List.length_cons, List.replicate_succ]
  -- the ring of the edge is empty, and as long as the CPU's
  · generalize (deviceEdge model (laneSlot model lane) lane srcIndex).2 = d at *
    have hring : d.ring = List.replicate (ringSize first.taps) 0 := by
      unfold DeviceLinkState.ring
      rw [hcells, hsize, List.take_replicate, min_eq_left hroom]
    refine ⟨htdl, hstill, ?_, hsize ▸ hroom,
      DeviceLinkState.mirrors_of_declared hfresh.matrixActive hfresh.profileActive, ?_, ?_⟩
    · rw [hcells, List.length_replicate]
    · rw [hring, hline]
    · intro _ _
      rw [hlive, effectiveTaps_populate h]
      refine ⟨hshows, hpoly, ?_⟩
      rw [hline, hsize, List.length_replicate]
  · have hcount : others.length = rest.length := by
      have hlen := prepareSteps_length lane.key model lane.identity
      rw [hsteps, h.chain, List.length_cons, List.length_cons] at hlen
      exact Nat.succ.inj hlen
    -- behind the first step every phase starts at zero on both sides
    have hzero : ∀ st ∈ others, st.phaseRad = 0 := by
      intro st hst
      apply prepareSteps_phaseRad lane.key model lane.identity
      rw [hsteps]
      exact List.mem_cons_of_mem _ hst
    unfold PhasesAgree
    rw [List.forall₂_iff_get]
    refine ⟨by rw [List.length_replicate, hcount], fun i hi hi' => ?_⟩
    have hst := hzero _ (List.get_mem others ⟨i, hi⟩)
    rw [hst, List.get_eq_getElem, List.getElem_replicate]

end Edge

/-! ## The node loop of the CUDA processor -/

section Nodes

variable {config : TopologyConfig ℝ} {resolved : ResolvedTopology} {c₀ c c' : CudaChannelProcessor ℝ}
  {node : ResolvedNode}

/-- **The slots keep everything but their LOS entry**, and the links stay. -/
structure OnlyLos (c₀ c : CudaChannelProcessor ℝ) : Prop where
  links : c.links = c₀.links
  slots : ∀ key slot, c₀.linkSlots key = some slot →
    ∃ los, c.linkSlots key = some { slot with losCoefficient := los }

omit [Rng ℝ] in
theorem OnlyLos.refl (c : CudaChannelProcessor ℝ) : OnlyLos c c :=
  ⟨rfl, fun _ slot h => ⟨slot.losCoefficient, h⟩⟩

/-- Every link takes matrix profiles. -/
def AllSupported (c : CudaChannelProcessor ℝ) : Prop :=
  ∀ k link, c.links k = some link → link.control.matrixProfileSupported = true

/-- The lane loop leaves every link with its default, which takes them. -/
theorem prepareLanes_supported (config : TopologyConfig ℝ) (resolved : ResolvedTopology)
    (lanes : List LaneConfig) :
    AllSupported (lanes.foldl (CudaChannelProcessor.prepareLane config resolved)
      CudaChannelProcessor.empty) := by
  have hempty : AllSupported (CudaChannelProcessor.empty : CudaChannelProcessor ℝ) := by
    intro k link hlink
    cases hlink
  refine List.foldlRecOn _ _ hempty fun c hc lane _ => ?_
  unfold CudaChannelProcessor.prepareLane
  split
  · rename_i model node _ _
    intro k link hlink
    dsimp only at hlink
    by_cases hk : k = lane.physicalLinkKey
    · subst hk
      rw [Function.update_self] at hlink
      obtain rfl := Option.some.inj hlink
      have hbefore : ((c.links lane.physicalLinkKey).getD
          PhysicalLinkRuntime.default).control.matrixProfileSupported = true := by
        cases hold : c.links lane.physicalLinkKey with
        | none => rfl
        | some old => exact hc _ old hold
      unfold CudaChannelProcessor.prepareLink
      dsimp only
      split_ifs
      · exact hbefore
      · exact hbefore
    · rw [Function.update_of_ne hk] at hlink
      exact hc k link hlink
  · exact hc

omit [Rng ℝ] in
/-- One edge of a node on the device path. -/
theorem OnlyLos.prepareEdge (h : OnlyLos c₀ c) (hsupported : AllSupported c₀)
    (e : LaneConfig × ModelConfig ℝ × LinkModelState ℝ) :
    OnlyLos c₀ (CudaChannelProcessor.prepareEdge true c e) := by
  unfold CudaChannelProcessor.prepareEdge
  constructor
  · dsimp only
    rw [← h.links]
    funext k
    by_cases hk : k = e.2.2.link
    · subst hk
      rw [Function.update_self]
      cases hlink : c.links e.2.2.link with
      | none => rfl
      | some link =>
          have hthere : c₀.links e.2.2.link = some link := h.links ▸ hlink
          have hsame : ({ link with control := { link.control with
              matrixProfileSupported := true } } : PhysicalLinkRuntime ℝ) = link := by
            rw [← hsupported _ link hthere]
          rw [Option.map_some, hsame]
    · exact Function.update_of_ne hk ..
  · intro key slot hslot
    obtain ⟨los, hlos⟩ := h.slots key slot hslot
    dsimp only
    by_cases hk : key = e.1.key
    · subst hk
      rw [Function.update_self, hlos]
      exact ⟨_, rfl⟩
    · rw [Function.update_of_ne hk]
      exact ⟨los, hlos⟩

/-- **What the node loop prepares for a node.** -/
structure NodePrepared (config : TopologyConfig ℝ) (resolved : ResolvedTopology)
    (node : ResolvedNode) (sp : CudaSuperposeState ℝ) : Prop where
  table : sp.table = preparedRows (nodeLanes config resolved node) (max 1 node.rxPorts.length)
  device : sp.useDeviceChannel = true
  capacity : sp.capacity = resolveBatchSamples config.runtime node.sampleRateHz
  maxSteps : ∀ lane ∈ nodeLanes config resolved node, ∀ model,
    config.findModel lane.modelId = some model → model.chain.length ≤ sp.maxSteps
  edges : ∀ (k : ℕ) (lane : LaneConfig), (nodeLanes config resolved node)[k]? = some lane →
    ∃ model srcIndex, config.findModel lane.modelId = some model ∧
      sp.table.sources.numbers[k]? = some srcIndex ∧
      (deviceEdge model (laneSlot model lane) lane srcIndex).1 = true ∧
      sp.linkStates[k]? = some (deviceEdge model (laneSlot model lane) lane srcIndex).2

omit [Rng ℝ] in
/-- A running maximum bounds what it was taken over. -/
theorem foldl_max_bounds {α β : Type} [LinearOrder β] (f : α → β) (l : List α) (n : β) :
    n ≤ l.foldl (fun n a => max n (f a)) n ∧ ∀ a ∈ l, f a ≤ l.foldl (fun n a => max n (f a)) n := by
  induction l generalizing n with
  | nil => exact ⟨le_rfl, fun a ha => absurd ha List.not_mem_nil⟩
  | cons b l ih =>
      obtain ⟨hstart, hall⟩ := ih (max n (f b))
      rw [List.foldl_cons, List.forall_mem_cons]
      exact ⟨(le_max_left _ _).trans hstart, (le_max_right _ _).trans hstart, hall⟩

omit [Rng ℝ] in
/-- The edges of a node are its lanes, with their models and slots. -/
theorem nodeEdges_forall₂ (c : CudaChannelProcessor ℝ) (table : SuperposeState)
    (hall : ∀ lane ∈ table.edges, ∃ model slot, config.findModel lane.modelId = some model ∧
      c.linkSlots lane.key = some slot) :
    List.Forall₂ (fun lane e => e.1 = lane ∧ config.findModel lane.modelId = some e.2.1 ∧
      c.linkSlots lane.key = some e.2.2) table.edges (nodeEdges config c table) := by
  unfold CudaChannelProcessor.nodeEdges
  generalize table.edges = lanes at hall ⊢
  induction lanes with
  | nil => exact List.Forall₂.nil
  | cons lane lanes ih =>
      rw [List.forall_mem_cons] at hall
      obtain ⟨⟨model, slot, hmodel, hslot⟩, hall⟩ := hall
      rw [List.filterMap_cons, hmodel, hslot]
      exact List.Forall₂.cons ⟨rfl, hmodel, hslot⟩ (ih hall)

omit [Rng ℝ] in
/-- A node without an incoming lane is not prepared. -/
theorem prepareNodeRows_nil (hlanes : nodeLanes config resolved node = []) :
    prepareNodeRows config resolved node = .ok none := by
  unfold prepareNodeRows
  dsimp only
  rw [hlanes]
  rfl

variable (hresolved : resolveTopology config = .ok resolved)
  (hstatic : StaticTopology config resolved) (hnodes : (resolved.nodes.map (·.id)).Nodup)
include hresolved hstatic hnodes

omit hresolved hnodes in
/-- The edges of a node: its lanes in their order, each with its model and its slot. -/
theorem nodeEdges_static
    (hslots : ∀ lane ∈ resolved.lanes, ∀ model, config.findModel lane.modelId = some model →
      c₀.linkSlots lane.key = some (laneSlot model lane)) (h : OnlyLos c₀ c)
    (node : ResolvedNode) (rows : ℕ) :
    let edges := nodeEdges config c (preparedRows (nodeLanes config resolved node) rows)
    (edges.all fun e => leadsWithTdl e.2.1) = true ∧
      List.Forall₂ (fun lane e => e.1 = lane ∧ config.findModel lane.modelId = some e.2.1 ∧
        ∃ los, e.2.2 = { laneSlot e.2.1 lane with losCoefficient := los })
        (nodeLanes config resolved node) edges := by
  intro edges
  have hall : ∀ lane ∈ (preparedRows (nodeLanes config resolved node) rows).edges,
      ∃ model slot, config.findModel lane.modelId = some model ∧ c.linkSlots lane.key = some slot := by
    intro lane hlane
    have hmem := (mem_nodeLanes.mp hlane).1
    obtain ⟨model, -, -, hmodel, -⟩ := hstatic.lanes lane hmem
    obtain ⟨los, hlos⟩ := h.slots _ _ (hslots lane hmem model hmodel)
    exact ⟨model, _, hmodel, hlos⟩
  have hforall : List.Forall₂ _ (nodeLanes config resolved node) edges :=
    nodeEdges_forall₂ c (preparedRows (nodeLanes config resolved node) rows) hall
  constructor
  · rw [List.all_eq_true]
    intro e he
    obtain ⟨k, hk⟩ := List.getElem?_of_mem he
    obtain ⟨lane, hlane, -, hmodel, -⟩ := Tables.forall₂_getElem? hforall.flip hk
    have hmem := (mem_nodeLanes.mp (List.mem_of_getElem? hlane)).1
    obtain ⟨model, first, rest, hmodel', hmodelStatic⟩ := hstatic.lanes lane hmem
    obtain rfl := Option.some.inj (hmodel.symm.trans hmodel')
    exact leadsWithTdl_of_static hmodelStatic
  · rw [List.forall₂_iff_get] at hforall ⊢
    refine ⟨hforall.1, fun k hk hk' => ?_⟩
    obtain ⟨hlane, hmodel, hslot⟩ := hforall.2 k hk hk'
    have hmem := (mem_nodeLanes.mp (List.get_mem (nodeLanes config resolved node) ⟨k, hk⟩)).1
    obtain ⟨los, hlos⟩ := h.slots _ _ (hslots _ hmem _ hmodel)
    exact ⟨hlane, hmodel, los, Option.some.inj (hslot.symm.trans hlos)⟩

omit hresolved hstatic hnodes in
/-- The device states of the edges. -/
theorem built_getElem? {edges : List (LaneConfig × ModelConfig ℝ × LinkModelState ℝ)}
    (hforall : List.Forall₂ (fun lane e => e.1 = lane ∧ config.findModel lane.modelId = some e.2.1 ∧
      ∃ los, e.2.2 = { laneSlot e.2.1 lane with losCoefficient := los })
      (nodeLanes config resolved node) edges) (rows : ℕ) {k : ℕ} {lane : LaneConfig}
    (hlane : (nodeLanes config resolved node)[k]? = some lane) :
    ∃ model srcIndex, config.findModel lane.modelId = some model ∧
      (preparedRows (nodeLanes config resolved node) rows).sources.numbers[k]? = some srcIndex ∧
      (edges.zipWith (fun e src => deviceEdge e.2.1 e.2.2 e.1 src)
        (preparedRows (nodeLanes config resolved node) rows).sources.numbers)[k]? =
          some (deviceEdge model (laneSlot model lane) lane srcIndex) := by
  obtain ⟨⟨lane', model, slot⟩, he, hfst, hmodel, los, hslot⟩ := Tables.forall₂_getElem? hforall hlane
  dsimp only at hfst hmodel hslot
  subst hfst hslot
  have hwalk := Tables.Numbering.correct_walk ((nodeLanes config resolved node).map (·.srcDevice))
  have hnumbers : k <
      (preparedRows (nodeLanes config resolved node) rows).sources.numbers.length := by
    have hlen : (preparedRows (nodeLanes config resolved node) rows).sources.numbers.length =
        (nodeLanes config resolved node).length := hwalk.length.trans (List.length_map _)
    rw [hlen]
    exact (List.getElem?_eq_some_iff.mp hlane).1
  refine ⟨model, _, hmodel, List.getElem?_eq_getElem hnumbers, ?_⟩
  rw [List.getElem?_zipWith, he, List.getElem?_eq_getElem hnumbers]
  rfl

/-- **One node of the node loop.** -/
theorem prepareNode_static (hsupported : AllSupported c₀)
    (hslots : ∀ lane ∈ resolved.lanes, ∀ model, config.findModel lane.modelId = some model →
      c₀.linkSlots lane.key = some (laneSlot model lane))
    (hnode : node ∈ resolved.nodes) (h : OnlyLos c₀ c)
    (hok : CudaChannelProcessor.prepareNode config resolved c node = .ok c') :
    OnlyLos c₀ c' ∧ (nodeLanes config resolved node = [] ∧ c' = c ∨
      ∃ sp, NodePrepared config resolved node sp ∧
        c'.superposeStates = Function.update c.superposeStates node.id (some sp)) := by
  unfold CudaChannelProcessor.prepareNode at hok
  obtain ⟨table?, htable, hok⟩ := bind_eq_ok hok
  -- a node without lanes is not prepared at all
  by_cases hlanes : nodeLanes config resolved node = []
  · obtain rfl := Except.ok.inj ((prepareNodeRows_nil hlanes).symm.trans htable)
    obtain rfl := Except.ok.inj hok
    exact ⟨h, Or.inl ⟨hlanes, rfl⟩⟩
  have hports := nodeLanes_rxPort hresolved hnodes hnode
  obtain rfl := Except.ok.inj ((prepareNodeRows_eq hnode hports hlanes).symm.trans htable)
  dsimp only at hok
  obtain ⟨hleads, hforall⟩ := nodeEdges_static hstatic hslots h node (max 1 node.rxPorts.length)
  have hbuilt := fun {k : ℕ} {lane : LaneConfig}
      (hlane : (nodeLanes config resolved node)[k]? = some lane) =>
    built_getElem? hforall (max 1 node.rxPorts.length) hlane
  generalize nodeEdges config c (preparedRows (nodeLanes config resolved node)
    (max 1 node.rxPorts.length)) = edges at hleads hforall hbuilt hok
  rw [hleads] at hok
  -- the call succeeded, so no edge is too large for the device
  have hfits : ¬ (true = true ∧ (edges.zipWith (fun e src => deviceEdge e.2.1 e.2.2 e.1 src)
      (preparedRows (nodeLanes config resolved node)
        (max 1 node.rxPorts.length)).sources.numbers).any (!·.1) = true) := by
    intro hover
    rw [if_pos hover] at hok
    cases hok
  rw [if_neg hfits] at hok
  obtain ⟨groups, -, hok⟩ := bind_eq_ok hok
  obtain ⟨complete, -, hok⟩ := bind_eq_ok hok
  obtain rfl := Except.ok.inj hok
  -- the edge loop changes the LOS coefficients only
  have hfolded : OnlyLos c₀ (edges.foldl (CudaChannelProcessor.prepareEdge true) c) :=
    List.foldlRecOn _ _ h fun d hd e _ => hd.prepareEdge hsupported e
  have hstates : (edges.foldl (CudaChannelProcessor.prepareEdge true) c).superposeStates =
      c.superposeStates :=
    List.foldlRecOn
      (motive := fun d : CudaChannelProcessor ℝ => d.superposeStates = c.superposeStates) _ _ rfl
      fun d hd e _ => hd
  refine ⟨⟨hfolded.links, hfolded.slots⟩, Or.inr ⟨?sp, ?prepared, ?stored⟩⟩
  case stored =>
    dsimp only
    rw [hstates]
  case prepared =>
    refine ⟨rfl, rfl, rfl, ?_, ?_⟩
    · intro lane hlane model hmodel
      apply (foldl_max_bounds (fun model : ModelConfig ℝ => model.chain.length) _ 1).2
      exact List.mem_filterMap.mpr ⟨lane, hlane, hmodel⟩
    · intro k lane hlane
      obtain ⟨model, src, hmodel, hsrc, hat⟩ := hbuilt hlane
      refine ⟨model, src, hmodel, hsrc, ?_, ?_⟩
      · by_contra hno
        refine hfits ⟨rfl, ?_⟩
        rw [List.any_eq_true]
        exact ⟨_, List.mem_of_getElem? hat, by simpa using hno⟩
      · rw [List.getElem?_map, hat, Option.map_some]

/-- **The node loop**, over nodes with distinct ids. -/
theorem prepareNodes_static (hsupported : AllSupported c₀)
    (hslots : ∀ lane ∈ resolved.lanes, ∀ model, config.findModel lane.modelId = some model →
      c₀.linkSlots lane.key = some (laneSlot model lane))
    (nodes : List ResolvedNode) (hsub : ∀ node ∈ nodes, node ∈ resolved.nodes)
    (hids : (nodes.map (·.id)).Nodup)
    (hok : nodes.foldlM (CudaChannelProcessor.prepareNode config resolved) c₀ = .ok c') :
    OnlyLos c₀ c' ∧ ∀ node ∈ nodes, nodeLanes config resolved node ≠ [] →
      ∃ sp, NodePrepared config resolved node sp ∧ c'.superposeStates node.id = some sp := by
  induction nodes using List.reverseRecOn generalizing c' with
  | nil =>
      obtain rfl := Except.ok.inj hok
      exact ⟨OnlyLos.refl c₀, fun _ hnode => absurd hnode List.not_mem_nil⟩
  | append_singleton nodes last ih =>
      rw [List.map_append, List.map_singleton, List.nodup_append] at hids
      obtain ⟨hids, -, hapart⟩ := hids
      rw [List.foldlM_append] at hok
      obtain ⟨mid, hmid, hok⟩ := bind_eq_ok hok
      rw [List.foldlM_cons] at hok
      obtain ⟨left, hleft, hok⟩ := bind_eq_ok hok
      obtain rfl := Except.ok.inj hok
      obtain ⟨hkept, hdone⟩ := ih (fun n hn => hsub n (List.mem_append_left _ hn)) hids hmid
      have hlast := hsub last (List.mem_append_right _ (List.mem_singleton_self last))
      obtain ⟨hkept', hcase⟩ :=
        prepareNode_static hresolved hstatic hnodes hsupported hslots hlast hkept hleft
      refine ⟨hkept', fun node hnode hlanes => ?_⟩
      rcases List.mem_append.mp hnode with hnode | hnode
      · -- an earlier node: its id is another
        obtain ⟨sp, hsp, hstate⟩ := hdone node hnode hlanes
        refine ⟨sp, hsp, ?_⟩
        rcases hcase with ⟨-, rfl⟩ | ⟨sp', -, hstates⟩
        · exact hstate
        · have hne : node.id ≠ last.id :=
            hapart _ (List.mem_map_of_mem hnode) _ (List.mem_singleton_self _)
          rw [hstates, Function.update_of_ne hne]
          exact hstate
      · obtain rfl := List.mem_singleton.mp hnode
        rcases hcase with ⟨hnil, -⟩ | ⟨sp, hsp, hstates⟩
        · exact absurd hnil hlanes
        · refine ⟨sp, hsp, ?_⟩
          rw [hstates]
          exact Function.update_self ..

end Nodes

/-! ## When the CUDA processor can be prepared -/

section Capacity

variable {config : TopologyConfig ℝ} {resolved : ResolvedTopology} {c₀ c : CudaChannelProcessor ℝ}
  {node : ResolvedNode}

/-- **Leading taps within the bounds of the device**, and no correlation between the lanes. -/
structure FitsDeviceModel (model : ModelConfig ℝ) (first : ModelStep ℝ) : Prop where
  count : first.taps.length ≤ kDeviceMaxTaps
  delays : ∀ tap ∈ first.taps, ¬ tap.exceedsDevice
  uncorrelated : model.spatialCorrelation.declared = false

omit [Rng ℝ] in
/-- The ring of a tap list has room for the filter of each tap. -/
theorem ceil_le_ringSize {taps : List (TapSpec ℝ)} {tap : TapSpec ℝ} (h : tap ∈ taps) :
    ⌈tap.delaySamples⌉ + kTdlFracFilterTaps ≤ (ringSize taps : ℤ) := by
  have hceil := Int.ceil_le_ceil ((foldl_max_bounds (fun tap => tap.delaySamples) taps (0 : ℝ)).2 tap h)
  unfold ringSize
  omega

/-- **A model within the bounds fits.** -/
theorem deviceEdge_fits {model : ModelConfig ℝ} {first : ModelStep ℝ} {rest : List (ModelStep ℝ)}
    (h : StaticModel model first rest) (hfits : FitsDeviceModel model first) (lane : LaneConfig)
    (srcIndex : ℕ) : (deviceEdge model (laneSlot model lane) lane srcIndex).1 = true := by
  obtain ⟨hpoly, hline⟩ := laneSlot_tdl h lane
  have hfar : ¬ ∃ tap ∈ first.taps, tap.exceedsDevice := by
    rintro ⟨tap, htap, hexceeds⟩
    exact hfits.delays tap htap hexceeds
  have hroom : ringSize first.taps ≤ kDeviceMaxDelayLine := DeviceLinkState.ringSize_le_cells hfar
  have hsome : first.taps.length ≠ 0 := fun hzero => h.taps (List.length_eq_zero_iff.mp hzero)
  have hring : ringSize first.taps ≠ 0 := by
    unfold ringSize
    exact Nat.succ_ne_zero _
  have hreach : ¬ ∃ tap ∈ first.taps, tap.exceedsDevice ∨
      ((ringSize first.taps : ℕ) : ℤ) < ⌈tap.delaySamples⌉ + kTdlFracFilterTaps := by
    rintro ⟨tap, htap, hexceeds | hshort⟩
    · exact hfits.delays tap htap hexceeds
    · exact absurd (ceil_le_ringSize htap) (not_le.mpr hshort)
  have hcount := hfits.count
  unfold deviceEdge
  rw [h.chain]
  dsimp only
  rw [if_pos h.leads, hpoly, hline, List.length_replicate]
  unfold buildDeviceLinkState
  dsimp only
  rw [if_neg (not_not_intro h.leads), if_neg (by omega), if_neg (by omega), if_neg hreach]

omit [Rng ℝ] in
/-- Uncorrelated lanes make no groups. -/
theorem groupEdges_none {edges : List (LaneConfig × ℕ)}
    (h : ∀ e ∈ edges, ∃ model, config.findModel e.1.modelId = some model ∧
      model.spatialCorrelation.declared = false) (nodeId : String) :
    edges.foldlM (CudaChannelProcessor.groupEdge config nodeId true) [] = .ok [] := by
  induction edges with
  | nil => rfl
  | cons e edges ih =>
      rw [List.forall_mem_cons] at h
      obtain ⟨⟨model, hmodel, hplain⟩, h⟩ := h
      have hhead : CudaChannelProcessor.groupEdge config nodeId true [] e = .ok [] := by
        unfold CudaChannelProcessor.groupEdge
        rw [hmodel]
        dsimp only
        rw [if_pos hplain]
        rfl
      rw [List.foldlM_cons, hhead]
      exact ih h

variable (hresolved : resolveTopology config = .ok resolved)
  (hstatic : StaticTopology config resolved) (hnodes : (resolved.nodes.map (·.id)).Nodup)
  (hfits : ∀ lane ∈ resolved.lanes, ∀ model first rest, config.findModel lane.modelId = some model →
    StaticModel model first rest → FitsDeviceModel model first)
include hresolved hstatic hnodes hfits

theorem prepareNode_ok
    (hslots : ∀ lane ∈ resolved.lanes, ∀ model, config.findModel lane.modelId = some model →
      c₀.linkSlots lane.key = some (laneSlot model lane))
    (hnode : node ∈ resolved.nodes) (h : OnlyLos c₀ c) :
    ∃ c', CudaChannelProcessor.prepareNode config resolved c node = .ok c' := by
  unfold CudaChannelProcessor.prepareNode
  by_cases hlanes : nodeLanes config resolved node = []
  · rw [prepareNodeRows_nil hlanes]
    exact ⟨c, rfl⟩
  have hports := nodeLanes_rxPort hresolved hnodes hnode
  rw [prepareNodeRows_eq hnode hports hlanes, ok_bind]
  dsimp only
  obtain ⟨hleads, hforall⟩ := nodeEdges_static hstatic hslots h node (max 1 node.rxPorts.length)
  have hbuilt := fun {k : ℕ} {lane : LaneConfig}
      (hlane : (nodeLanes config resolved node)[k]? = some lane) =>
    built_getElem? hforall (max 1 node.rxPorts.length) hlane
  generalize nodeEdges config c (preparedRows (nodeLanes config resolved node)
    (max 1 node.rxPorts.length)) = edges at hleads hforall hbuilt
  rw [hleads]
  have hmodels : ∀ lane ∈ nodeLanes config resolved node, ∃ model first rest,
      config.findModel lane.modelId = some model ∧ StaticModel model first rest ∧
        FitsDeviceModel model first := by
    intro lane hlane
    have hmem := (mem_nodeLanes.mp hlane).1
    obtain ⟨model, first, rest, hmodel, hmodelStatic⟩ := hstatic.lanes lane hmem
    exact ⟨model, first, rest, hmodel, hmodelStatic, hfits lane hmem model first rest hmodel hmodelStatic⟩
  -- every edge fits the device
  have hroom : ¬ (true = true ∧ (edges.zipWith (fun e src => deviceEdge e.2.1 e.2.2 e.1 src)
      (preparedRows (nodeLanes config resolved node)
        (max 1 node.rxPorts.length)).sources.numbers).any (!·.1) = true) := by
    rintro ⟨-, hover⟩
    rw [List.any_eq_true] at hover
    obtain ⟨b, hb, hno⟩ := hover
    obtain ⟨k, hk⟩ := List.getElem?_of_mem hb
    obtain ⟨hk', -⟩ := List.getElem?_eq_some_iff.mp hk
    rw [List.length_zipWith] at hk'
    have hlane := List.getElem?_eq_getElem
      (show k < (nodeLanes config resolved node).length by rw [hforall.length_eq]; omega)
    obtain ⟨model, src, hmodel, -, hat⟩ := hbuilt hlane
    obtain rfl := Option.some.inj (hat.symm.trans hk)
    obtain ⟨model', first, rest, hmodel', hmodelStatic, hmodelFits⟩ :=
      hmodels _ (List.mem_of_getElem? hlane)
    obtain rfl := Option.some.inj (hmodel.symm.trans hmodel')
    rw [deviceEdge_fits hmodelStatic hmodelFits] at hno
    cases hno
  -- the edges come in the order of the lanes
  have hlist : edges.map (·.1) = nodeLanes config resolved node := by
    apply List.ext_getElem?
    intro k
    rw [List.getElem?_map]
    cases hlane : (nodeLanes config resolved node)[k]? with
    | none =>
        have hnone := List.getElem?_eq_none_iff.mp hlane
        rw [hforall.length_eq] at hnone
        rw [List.getElem?_eq_none hnone]
        rfl
    | some lane =>
        obtain ⟨e, he, hfst, -⟩ := Tables.forall₂_getElem? hforall hlane
        rw [he, Option.map_some, hfst]
  -- and none is in a correlation group
  have hplain : ∀ e ∈ (edges.map (·.1)).zipIdx, ∃ model,
      config.findModel e.1.modelId = some model ∧ model.spatialCorrelation.declared = false := by
    intro e he
    have hmem := List.fst_mem_of_mem_zipIdx he
    rw [hlist] at hmem
    obtain ⟨model, first, rest, hmodel, -, hmodelFits⟩ := hmodels _ hmem
    exact ⟨model, hmodel, hmodelFits.uncorrelated⟩
  rw [if_neg hroom, groupEdges_none hplain node.id, ok_bind]
  exact ⟨_, rfl⟩

theorem prepareNodes_ok (hsupported : AllSupported c₀)
    (hslots : ∀ lane ∈ resolved.lanes, ∀ model, config.findModel lane.modelId = some model →
      c₀.linkSlots lane.key = some (laneSlot model lane))
    {nodes : List ResolvedNode} (hsub : ∀ node ∈ nodes, node ∈ resolved.nodes) (h : OnlyLos c₀ c) :
    ∃ c', nodes.foldlM (CudaChannelProcessor.prepareNode config resolved) c = .ok c' := by
  induction nodes generalizing c with
  | nil => exact ⟨c, rfl⟩
  | cons node nodes ih =>
      rw [List.forall_mem_cons] at hsub
      obtain ⟨mid, hmid⟩ := prepareNode_ok hresolved hstatic hnodes hfits hslots hsub.1 h
      obtain ⟨hkept, -⟩ :=
        prepareNode_static hresolved hstatic hnodes hsupported hslots hsub.1 h hmid
      rw [List.foldlM_cons, hmid]
      exact ih hsub.2 hkept

/-- **The CUDA processor can be prepared** for a static topology within the bounds of the device. -/
theorem cuda_prepare_ok (hkeys : KeysDistinct config resolved) :
    ∃ c, CudaChannelProcessor.prepare config = .ok c := by
  have hentered := prepareLanes_entered hresolved hstatic resolved.lanes (fun _ h => h) hkeys.lanes
  have hsupported := prepareLanes_supported config resolved resolved.lanes
  unfold CudaChannelProcessor.prepare
  rw [hresolved, ok_bind]
  exact prepareNodes_ok hresolved hstatic hnodes hfits hsupported hentered.slots (fun _ h => h)
    (OnlyLos.refl _)

end Capacity

/-! ## Both processors -/

/-- **`prepare` leaves the backends parallel**, whenever both of them succeed. -/
theorem prepare_parallel {config : TopologyConfig ℝ} {resolved : ResolvedTopology}
    (hresolved : resolveTopology config = .ok resolved) (hkeys : KeysDistinct config resolved)
    (hnodes : (resolved.nodes.map (·.id)).Nodup) (hstatic : StaticTopology config resolved)
    {p : CpuChannelProcessor ℝ} (hcpu : CpuChannelProcessor.prepare config = .ok p)
    {c : CudaChannelProcessor ℝ} (hcuda : CudaChannelProcessor.prepare config = .ok c) :
    BackendsParallel config resolved p c := by
  have hentered := prepareLanes_entered hresolved hstatic resolved.lanes (fun _ h => h) hkeys.lanes
  have hgrids := prepare_onlyGrids hresolved hstatic hcpu
  have hkept := linkStands_kept hresolved hkeys hstatic
  have hstands := (prepare_preparedBy hresolved hkeys hkept hcpu).links
  have hsupported := prepareLanes_supported config resolved resolved.lanes
  generalize resolved.lanes.foldl (CpuChannelProcessor.prepareLane config resolved)
    CpuChannelProcessor.empty = p₀ at hentered hgrids
  unfold CudaChannelProcessor.prepare at hcuda
  obtain ⟨resolved', hresolved', hcuda⟩ := bind_eq_ok hcuda
  obtain rfl := Except.ok.inj (hresolved.symm.trans hresolved')
  generalize resolved.lanes.foldl (CudaChannelProcessor.prepareLane config resolved)
    CudaChannelProcessor.empty = c₀ at hentered hsupported hcuda
  -- the links of the CPU are those of the lane loop, but for their grids
  have hlinks : ∀ k, ∃ f : PhysicalLinkFading ℝ → PhysicalLinkFading ℝ,
      p.links k = (c₀.links k).map fun link => { link with fading := f link.fading } := by
    intro k
    rw [← hentered.links]
    exact hgrids.links k
  obtain ⟨hlos, hprepared⟩ := prepareNodes_static hresolved hstatic hnodes hsupported
    hentered.slots resolved.nodes (fun _ h => h) hnodes hcuda
  have hstand : LanesStand config resolved MatrixHints p :=
    prepare_stand hresolved hkeys hkept
      (fun lane hlane model link _ h => h.hints lane hlane rfl) hcpu
  refine ⟨hstand, ?_, hstatic.rows, ?_⟩
  · funext k
    obtain ⟨f, hf⟩ := hlinks k
    unfold LinkTable.linkMap
    rw [hf, hlos.links, Option.map_map]
    rfl
  · intro node hnode hlanes
    obtain ⟨sp, hsp, hstate⟩ := hprepared node hnode hlanes
    refine ⟨sp, hstate, hsp.table, hsp.device, hsp.capacity, hsp.maxSteps, ?_⟩
    intro k lane hlane
    have hmem := (mem_nodeLanes.mp (List.mem_of_getElem? hlane)).1
    obtain ⟨model, src, hmodel, hsrc, hfits, hbuilt⟩ := hsp.edges k lane hlane
    obtain ⟨model', first, rest, hmodel', hmodelStatic⟩ := hstatic.lanes lane hmem
    obtain rfl := Option.some.inj (hmodel.symm.trans hmodel')
    obtain ⟨st, link, hst, hhome, -, hlink, hhints⟩ := hstand.lanes lane hmem model hmodel
    have hst' := prepare_state hresolved hkeys hcpu (Prepares.lane hmem hmodel)
    obtain rfl := Option.some.inj (hst.symm.trans hst')
    obtain ⟨los, hslot⟩ := hlos.slots _ _ (hentered.slots lane hmem model hmodel)
    have hfresh := (hstands _ _ hlink).fresh
    obtain ⟨f, hf⟩ := hlinks lane.physicalLinkKey
    obtain ⟨link₀, hlink₀, rfl⟩ := Option.map_eq_some_iff.mp (hf.symm.trans hlink)
    refine ⟨_, hbuilt, ?_, model, first, rest, _, _, _, link₀.fading, hmodel, hmodelStatic, hst,
      ⟨hhome, ensuredState_laneIndex ..⟩, hlink, hslot, rfl, ?_, ?_,
      laneParallel_prepared hmodelStatic hfits hfresh los⟩
    · rw [(deviceEdge_static hmodelStatic hfits).1]
      exact hsrc
    · rw [hlos.links]
      exact hlink₀
    · exact ⟨⟨Or.inl hfresh.profilePending,
          fun hp => absurd (hfresh.profilePending.symm.trans hp) Bool.false_ne_true,
          fun hp => absurd (hfresh.matrixPending.symm.trans hp) Bool.false_ne_true⟩,
        fun hp => absurd (hfresh.matrixPending.symm.trans hp) Bool.false_ne_true,
        fun hp => absurd (hfresh.matrixActive.symm.trans hp) Bool.false_ne_true⟩

end BackendPrepare

end
