/-
# The prepared processor

`prepare` leaves every lane and every receiver row in the state that its model and its place in
the topology give, and no other state; and every link as the preparation of its lanes left it.
With distinct keys each key is prepared once.
-/
import GpuChannel.NodeCalls

section PreparedLanes

variable {K : Type} [Field K] [LinearOrder K] [FloorRing K] [Libm K] [Rng K]

/-! ## One key -/

/-- The identity that `prepare` gives a lane. -/
def LaneConfig.identity (lane : LaneConfig) : LaneIdentity :=
  { physicalLinkKey := lane.physicalLinkKey, rxPort := lane.rxPort, txPort := lane.txPort
    nt := lane.nt, nr := lane.nr }

/-- What preparing a key with a non-empty chain writes to its link. -/
def enteredLink (key : String) (model : ModelConfig K) (count : ℕ) (identity : LaneIdentity)
    (link : PhysicalLinkRuntime K) : PhysicalLinkRuntime K :=
  if model.chain = [] then link
  else
    prepareLink model (populateMutableParamsFromYaml model) (prepareSteps key model identity) count
      identity link

/-- A step state for every step. -/
@[simp] theorem prepareSteps_length (key : String) (model : ModelConfig K)
    (identity : LaneIdentity) : (prepareSteps key model identity).length = model.chain.length := by
  unfold prepareSteps
  exact List.length_mapIdx

/-- A lane that is entered has a state for every step. -/
@[simp] theorem ensuredState_length (key : String) (model : ModelConfig K)
    (identity : LaneIdentity) (old : Option (LinkState K)) :
    (ensuredState key model identity old).steps.length = model.chain.length := by
  unfold ensuredState
  dsimp only
  split_ifs with h
  · exact h
  · exact prepareSteps_length key model identity

/-- A new lane is bound to its link. -/
@[simp] theorem ensuredState_link (key : String) (model : ModelConfig K) (identity : LaneIdentity) :
    (ensuredState key model identity none).link = identity.physicalLinkKey := by
  unfold ensuredState
  dsimp only
  split_ifs <;> rfl

/-- A new lane has its place in the matrix. -/
@[simp] theorem ensuredState_laneIndex (key : String) (model : ModelConfig K)
    (identity : LaneIdentity) :
    (ensuredState key model identity none).laneIndex = identity.laneIndex := by
  unfold ensuredState
  dsimp only
  split_ifs <;> rfl

/-- A new lane has the size of the matrix. -/
@[simp] theorem ensuredState_laneCount (key : String) (model : ModelConfig K)
    (identity : LaneIdentity) :
    (ensuredState key model identity none).laneCount = identity.laneCount := by
  unfold ensuredState
  dsimp only
  split_ifs <;> rfl

/-- The steps of a prepared state are the prepared steps, also for an empty chain. -/
theorem ensuredState_steps (key : String) (model : ModelConfig K) (identity : LaneIdentity) :
    (ensuredState key model identity none).steps = prepareSteps key model identity := by
  unfold ensuredState
  dsimp only
  split_ifs with h
  · have hnil : model.chain = [] := List.length_eq_zero_iff.mp h.symm
    rw [prepareSteps, hnil]
    rfl
  · rfl

/-- A key that is prepared with the same chain already is left alone. -/
theorem ensureLinkState_of_length {p : CpuChannelProcessor K} {key : String} {st : LinkState K}
    {model : ModelConfig K} (hst : p.states key = some st)
    (hlen : st.steps.length = model.chain.length) (count : ℕ) (identity : LaneIdentity) :
    p.ensureLinkState key model count identity = p := by
  unfold CpuChannelProcessor.ensureLinkState CpuChannelProcessor.bindState
  rw [hst]
  dsimp only
  rw [hst]
  dsimp only
  rw [if_pos hlen]

/-- A new key gets its state, and enters its link. -/
theorem ensureLinkState_of_none {p : CpuChannelProcessor K} {key : String}
    (hnone : p.states key = none) (model : ModelConfig K) (count : ℕ) (identity : LaneIdentity) :
    p.ensureLinkState key model count identity =
      { p with
        states := Function.update p.states key (some (ensuredState key model identity none))
        links := Function.update p.links identity.physicalLinkKey
          (some (enteredLink key model count identity
            ((p.links identity.physicalLinkKey).getD PhysicalLinkRuntime.default))) } := by
  unfold CpuChannelProcessor.ensureLinkState CpuChannelProcessor.bindState
  rw [hnone]
  dsimp only
  rw [Function.update_self]
  dsimp only
  by_cases hnil : model.chain = []
  · have hlen : (LinkState.bound model identity).steps.length = model.chain.length := by
      rw [hnil]
      rfl
    rw [if_pos hlen, enteredLink, if_pos hnil]
    congr 2
    unfold ensuredState
    dsimp only
    rw [Option.getD_none, if_pos hlen]
  · have hlen : ¬ (LinkState.bound model identity).steps.length = model.chain.length := by
      intro h
      exact hnil (List.length_eq_zero_iff.mp h.symm)
    have hlink : (LinkState.bound model identity).link = identity.physicalLinkKey := rfl
    rw [if_neg hlen, hlink, Function.update_self, Function.update_idem, Function.update_idem,
      Option.map_some, enteredLink, if_neg hnil]
    congr 3
    unfold ensuredState
    dsimp only
    rw [Option.getD_none, if_neg hlen]
    rfl

/-! ## The keys that prepare visits -/

section Visited

variable (config : TopologyConfig K) (resolved : ResolvedTopology)

/-- `prepare` visits the key with this model and this identity. -/
inductive Prepares : String → ModelConfig K → LaneIdentity → Prop
  | lane {lane : LaneConfig} {model : ModelConfig K} :
      lane ∈ resolved.lanes → config.findModel lane.modelId = some model →
      Prepares lane.key model lane.identity
  | row {node : ResolvedNode} {model : ModelConfig K} {r : ℕ} :
      node ∈ resolved.nodes → rowModel config node = some model → r < node.rxPorts.length →
      Prepares (rxStateKey node.id r node.rxPorts.length) model
        { physicalLinkKey := rxStateKey node.id r node.rxPorts.length }

variable {config resolved}

/-- Two rows of one key are of one node. -/
theorem mem_row_of_nodup {a b : ResolvedNode} {r s : ℕ} (hkeys : (rowKeys resolved).Nodup)
    (ha : a ∈ resolved.nodes) (hb : b ∈ resolved.nodes) (hr : r < a.rxPorts.length)
    (hs : s < b.rxPorts.length)
    (heq : rxStateKey a.id r a.rxPorts.length = rxStateKey b.id s b.rxPorts.length) : a = b := by
  by_contra hne
  rw [rowKeys, List.nodup_flatMap] at hkeys
  have hsymm : Std.Symm (Function.onFun List.Disjoint fun node : ResolvedNode =>
      (List.range node.rxPorts.length).map fun r => rxStateKey node.id r node.rxPorts.length) :=
    ⟨fun _ _ hxy => List.Disjoint.symm hxy⟩
  refine List.disjoint_left.mp (hkeys.2.forall ha hb hne)
    (List.mem_map_of_mem (f := fun r => rxStateKey a.id r a.rxPorts.length) (List.mem_range.mpr hr)) ?_
  rw [heq]
  exact List.mem_map_of_mem (f := fun r => rxStateKey b.id r b.rxPorts.length)
    (List.mem_range.mpr hs)

variable (hresolved : resolveTopology config = .ok resolved) (hkeys : KeysDistinct config resolved)
include hresolved hkeys

omit [Field K] [LinearOrder K] [FloorRing K] [Libm K] [Rng K] hresolved in
/-- A key is visited with one model and one identity. -/
theorem Prepares.unique {key : String} {m m' : ModelConfig K} {i i' : LaneIdentity}
    (h : Prepares config resolved key m i) (h' : Prepares config resolved key m' i') :
    m = m' ∧ i = i' := by
  generalize hkey : key = key' at h'
  cases h with
  | lane hlane hmodel =>
      cases h' with
      | lane hlane' hmodel' =>
          obtain rfl := lane_of_key hkeys hlane hlane' hkey
          exact ⟨Option.some.inj (hmodel.symm.trans hmodel'), rfl⟩
      | row hnode _ hr =>
          exact absurd (hkey ▸ List.mem_map_of_mem (f := LaneConfig.key) hlane)
            (hkeys.lanesApart _ (mem_rowKeys.mpr ⟨_, hnode, _, hr, rfl⟩))
  | row hnode hmodel hr =>
      cases h' with
      | lane hlane' _ =>
          exact absurd (hkey ▸ List.mem_map_of_mem (f := LaneConfig.key) hlane')
            (hkeys.lanesApart _ (mem_rowKeys.mpr ⟨_, hnode, _, hr, hkey ▸ rfl⟩))
      | row hnode' hmodel' hr' =>
          obtain rfl := mem_row_of_nodup hkeys.rows hnode hnode' hr hr' hkey
          rw [hkey]
          exact ⟨Option.some.inj (hmodel.symm.trans hmodel'), rfl⟩

end Visited

/-! ## What prepare leaves -/

section Leaves

open CpuChannelProcessor

variable {config : TopologyConfig K} {resolved : ResolvedTopology}

/-- The model of a group, that of its first live lane. -/
def GroupModel (config : TopologyConfig K) (resolved : ResolvedTopology) (group : LinkLaneGroup)
    (model : ModelConfig K) : Prop :=
  ∃ position lane, group.laneIndex.findSome? id = some position ∧
    resolved.lanes[position]? = some lane ∧ config.findModel lane.modelId = some model

/-- **What `prepare` keeps of a property of links**: entering a key, the flag of the base model,
and the mixing matrix of a group. -/
structure LinksKept (config : TopologyConfig K) (resolved : ResolvedTopology)
    (L : String → PhysicalLinkRuntime K → Prop) : Prop where
  entered : ∀ key model count identity link, Prepares config resolved key model identity →
    link = PhysicalLinkRuntime.default ∨ L identity.physicalLinkKey link →
    L identity.physicalLinkKey (enteredLink key model count identity link)
  flag : ∀ k link flag, L k link →
    L k { link with control := { link.control with fixedMimoDeclared := flag } }
  grouped : ∀ group ∈ resolved.linkGroups, ∀ model link mixing, GroupModel config resolved group model →
    mixing = [] ∨ (model.spatialCorrelation.declared = true ∧ model.spatialCorrelation.kind ≠ .iid) →
    L group.physicalLinkKey link →
    L group.physicalLinkKey { link with fading := { link.fading with
      lanes := group.nt * group.nr, mixing := mixing } }

/-- Every state is prepared as its key says, and every link has the property. -/
structure PreparedBy (config : TopologyConfig K) (resolved : ResolvedTopology)
    (L : String → PhysicalLinkRuntime K → Prop) (p : CpuChannelProcessor K) : Prop where
  states : ∀ key st, p.states key = some st → ∃ model identity,
    Prepares config resolved key model identity ∧ st = ensuredState key model identity none
  links : ∀ k link, p.links k = some link → L k link

variable {L : String → PhysicalLinkRuntime K → Prop} {p : CpuChannelProcessor K}

/-- A change of a link within its kind keeps what was prepared. -/
theorem PreparedBy.modifyLink (h : PreparedBy config resolved L p) {k : String}
    {f : PhysicalLinkRuntime K → PhysicalLinkRuntime K} (hf : ∀ link, L k link → L k (f link)) :
    PreparedBy config resolved L (p.modifyLink k f) := by
  refine ⟨h.states, ?_⟩
  intro k' link hlink
  unfold CpuChannelProcessor.modifyLink at hlink
  dsimp only at hlink
  by_cases hk : k' = k
  · subst hk
    rw [Function.update_self] at hlink
    obtain ⟨link₀, hlink₀, rfl⟩ := Option.map_eq_some_iff.mp hlink
    exact hf _ (h.links _ _ hlink₀)
  · rw [Function.update_of_ne hk] at hlink
    exact h.links k' link hlink

variable (hresolved : resolveTopology config = .ok resolved) (hkeys : KeysDistinct config resolved)
  (hkept : LinksKept config resolved L)
include hkeys hkept

/-- Entering a lane keeps what was prepared. -/
theorem PreparedBy.ensureLinkState (h : PreparedBy config resolved L p) {key : String}
    {model : ModelConfig K} {identity : LaneIdentity}
    (hvisit : Prepares config resolved key model identity) (count : ℕ) :
    PreparedBy config resolved L (p.ensureLinkState key model count identity) := by
  cases hst : p.states key with
  | some st =>
      obtain ⟨m, i, hm, rfl⟩ := h.states key st hst
      obtain ⟨rfl, rfl⟩ := hvisit.unique hkeys hm
      rw [ensureLinkState_of_length hst (ensuredState_length key model identity none)]
      exact h
  | none =>
      rw [ensureLinkState_of_none hst]
      constructor
      · intro key' st' hst'
        dsimp only at hst'
        by_cases hk : key' = key
        · subst hk
          rw [Function.update_self] at hst'
          exact ⟨model, identity, hvisit, (Option.some.inj hst').symm⟩
        · rw [Function.update_of_ne hk] at hst'
          exact h.states key' st' hst'
      · intro k link hlink
        dsimp only at hlink
        by_cases hk : k = identity.physicalLinkKey
        · subst hk
          rw [Function.update_self] at hlink
          obtain rfl := Option.some.inj hlink
          apply hkept.entered key model count identity _ hvisit
          cases hold : p.links identity.physicalLinkKey with
          | none => exact Or.inl rfl
          | some old => exact Or.inr (h.links _ _ hold)
        · rw [Function.update_of_ne hk] at hlink
          exact h.links k link hlink

/-- Preparing a lane keeps what was prepared. -/
theorem PreparedBy.prepareLane (h : PreparedBy config resolved L p) {lane : LaneConfig}
    (hlane : lane ∈ resolved.lanes) :
    PreparedBy config resolved L (prepareLane config resolved p lane) := by
  unfold CpuChannelProcessor.prepareLane
  cases hmodel : config.findModel lane.modelId with
  | none => exact h
  | some model =>
      cases resolved.nodes.find? (·.id = lane.dstNode) with
      | none => exact h
      | some destination =>
          have hens := h.ensureLinkState hkeys hkept (Prepares.lane hlane hmodel)
            (resolveBatchSamples config.runtime destination.sampleRateHz)
          unfold LaneConfig.identity at hens
          dsimp only
          split
          · exact hens.modifyLink fun link hlink => hkept.flag _ _ _ hlink
          · exact hens

omit hkeys in
/-- Preparing the lanes of a link keeps what was prepared. -/
theorem PreparedBy.prepareGroup (h : PreparedBy config resolved L p) {group : LinkLaneGroup}
    (hgroup : group ∈ resolved.linkGroups) :
    Ensures (PreparedBy config resolved L) (prepareGroup config resolved p group) := by
  unfold CpuChannelProcessor.prepareGroup
  cases hposition : group.laneIndex.findSome? id with
  | none => exact Ensures.pure h
  | some position =>
      dsimp only
      cases hmodel : (resolved.lanes[position]?).bind fun lane => config.findModel lane.modelId with
      | none => exact Ensures.pure h
      | some model =>
          obtain ⟨lane, hlane, hfind⟩ := Option.bind_eq_some_iff.mp hmodel
          have hof : GroupModel config resolved group model := ⟨position, lane, hposition, hlane, hfind⟩
          dsimp only
          split_ifs with hiid
          · exact Ensures.pure (h.modifyLink fun link hlink =>
              hkept.grouped group hgroup model link [] hof (.inl rfl) hlink)
          · rw [not_or] at hiid
            have hdeclared : model.spatialCorrelation.declared = true ∧
                model.spatialCorrelation.kind ≠ .iid := ⟨by simpa using hiid.1, hiid.2⟩
            split
            · exact Ensures.throw
            · exact Ensures.pure (h.modifyLink fun link hlink =>
                hkept.grouped group hgroup model link _ hof (.inr hdeclared) hlink)

/-- Preparing the rows of a node keeps what was prepared. -/
theorem PreparedBy.prepareRows (h : PreparedBy config resolved L p) {node : ResolvedNode}
    (hnode : node ∈ resolved.nodes) :
    PreparedBy config resolved L (prepareRows config p node) := by
  unfold CpuChannelProcessor.prepareRows
  split_ifs with hempty
  · exact h
  · cases hmodel : config.findModel node.rxModel with
    | none => exact h
    | some model =>
        have hrow : rowModel config node = some model := by
          rw [rowModel, if_neg hempty]
          exact hmodel
        refine List.foldlRecOn _ _ h fun q hq r hr => ?_
        have hens := hq.ensureLinkState hkeys hkept
          (Prepares.row hnode hrow (List.mem_range.mp hr))
          (resolveBatchSamples config.runtime node.sampleRateHz)
        exact ⟨hens.states, hens.links⟩

include hresolved

/-- **`prepare` prepares every key as the topology says.** -/
theorem prepare_preparedBy (hprepare : prepare config = .ok p) :
    PreparedBy config resolved L p := by
  unfold prepare at hprepare
  split_ifs at hprepare
  obtain ⟨resolved', hresolved', hprepare⟩ := bind_eq_ok hprepare
  obtain rfl := Except.ok.inj (hresolved.symm.trans hresolved')
  have hempty : PreparedBy config resolved L (CpuChannelProcessor.empty : CpuChannelProcessor K) :=
    ⟨fun _ _ h => absurd h (by simp [empty]), fun _ _ h => absurd h (by simp [empty])⟩
  have hlanes : PreparedBy config resolved L
      (resolved.lanes.foldl (CpuChannelProcessor.prepareLane config resolved) empty) :=
    List.foldlRecOn _ _ hempty fun q hq lane hlane =>
      hq.prepareLane hkeys hkept hlane
  obtain ⟨q, hq, hprepare⟩ := bind_eq_ok hprepare
  have hgroups : PreparedBy config resolved L q :=
    Ensures.foldlM (P := PreparedBy config resolved L) hlanes
      (fun group hgroup q hq => hq.prepareGroup hkept hgroup) q hq
  obtain rfl := Except.ok.inj hprepare
  exact List.foldlRecOn _ _ hgroups fun q hq node hnode =>
    hq.prepareRows hkeys hkept hnode

omit hkept

/-- A visited key has the prepared state. -/
theorem prepare_state (hprepare : prepare config = .ok p) {key : String} {model : ModelConfig K}
    {identity : LaneIdentity} (hvisit : Prepares config resolved key model identity) :
    p.states key = some (ensuredState key model identity none) := by
  have hany : LinksKept config resolved fun _ (_ : PhysicalLinkRuntime K) => True :=
    ⟨fun _ _ _ _ _ _ _ => trivial, fun _ _ _ _ => trivial, fun _ _ _ _ _ _ _ _ => trivial⟩
  have hprepared := prepare_preparedBy hresolved hkeys hany hprepare
  have hthere : (p.states key).isSome = true := by
    have hall := (prepare_housed hresolved hprepare).2
    cases hvisit with
    | lane hlane hmodel =>
        rename_i lane
        obtain ⟨node, hnode, hid⟩ : ∃ node ∈ resolved.nodes, node.id = lane.dstNode := by
          obtain ⟨i, l, src, dst, hl, r, -, t, -, -, rfl⟩ := ((lanes_spec hresolved).2 lane).mp hlane
          rw [resolveTopology_nodes hresolved]
          exact ⟨dst, List.mem_of_find?_eq_some hl.2.2, rfl⟩
        exact hall node hnode _ (.inl ⟨lane, ⟨hlane, hid.symm, by rw [hmodel]; rfl⟩, rfl⟩)
    | row hnode hmodel hr =>
        exact hall _ hnode _ (.inr ⟨_, hnode, rfl, by rw [hmodel]; rfl, _, hr, rfl⟩)
  obtain ⟨st, hst⟩ := Option.isSome_iff_exists.mp hthere
  obtain ⟨m, i, hm, rfl⟩ := hprepared.states key st hst
  obtain ⟨rfl, rfl⟩ := hvisit.unique hkeys hm
  exact hst

end Leaves

end PreparedLanes
