/-
# Calls for different nodes

`prepare` creates the lane states, links and receiver states of every node, and with distinct keys
no two nodes share one.  So the calls of the nodes' producer threads commute, and any interleaving
of whole calls gives each node the rows of its own calls alone.
-/
import GpuChannel.CallFrame
import GpuChannel.KeyInjectivity

section NodeCalls

variable {K : Type} [Field K] [LinearOrder K] [FloorRing K] [Libm K] [Rng K]

/-! ## The keys of a node -/

section Keys

variable (config : TopologyConfig K) (resolved : ResolvedTopology) (node : ResolvedNode)

/-- A live lane of the node, with a model. -/
def LaneOf (lane : LaneConfig) : Prop :=
  lane ∈ resolved.lanes ∧ lane.dstNode = node.id ∧ (config.findModel lane.modelId).isSome = true

/-- The receiver model of the node, if there is one. -/
def rowModel : Option (ModelConfig K) :=
  if node.rxModel.isEmpty then none else config.findModel node.rxModel

/-- The keys of a node's receiver rows, if it has a receiver model. -/
def rowsOf : Set String :=
  {key | (rowModel config node).isSome = true ∧
    ∃ r < node.rxPorts.length, key = rxStateKey node.id r node.rxPorts.length}

/-- The keys of the receiver rows under the node's id. -/
def nodeRows : Set String :=
  {key | ∃ node' ∈ resolved.nodes, node'.id = node.id ∧ key ∈ rowsOf config node'}

/-- The state keys of a node. -/
def nodeStates : Set String :=
  {key | ∃ lane, LaneOf config resolved node lane ∧ key = lane.key} ∪ nodeRows config resolved node

/-- The link keys of a node. -/
def nodeLinks : Set String :=
  {key | ∃ lane, LaneOf config resolved node lane ∧ key = lane.physicalLinkKey} ∪
    nodeRows config resolved node

/-- **A call as the producer of the node makes it.** -/
structure MadeFor (call : SuperpositionCall K) : Prop where
  dst : call.dstKey = node.id
  lanes : ∀ input ∈ call.inputs, ∃ lane, LaneOf config resolved node lane ∧
    input.linkKey = lane.key
  rx : call.rxModel = rowModel config node
  rows : call.rowSizes.length = node.rxPorts.length

variable {config resolved node}

omit [Field K] [LinearOrder K] [FloorRing K] [Libm K] [Rng K] in
/-- A call that was made for a node stays within the node's keys. -/
theorem MadeFor.within {call : SuperpositionCall K} (hnode : node ∈ resolved.nodes)
    (h : MadeFor config resolved node call) :
    call.Within (nodeStates config resolved node) where
  lanes input hinput := .inl (h.lanes input hinput)
  rows hmodel r hr := by
    rw [h.rx] at hmodel
    rw [h.rows] at hr ⊢
    rw [h.dst]
    exact .inr ⟨node, hnode, rfl, hmodel, r, hr, rfl⟩

omit [Field K] [LinearOrder K] [FloorRing K] [Libm K] [Rng K] in
/-- The rows of a node are among all rows. -/
theorem nodeRows_subset {key : String} (h : key ∈ nodeRows config resolved node) :
    key ∈ rowKeys resolved := by
  obtain ⟨node, hnode, -, -, r, hr, rfl⟩ := h
  exact mem_rowKeys.mpr ⟨node, hnode, r, hr, rfl⟩

omit [Field K] [LinearOrder K] [FloorRing K] [Libm K] [Rng K] in
/-- Rows of nodes with different ids have different keys. -/
theorem nodeRows_disjoint {node' : ResolvedNode} (hid : node.id ≠ node'.id) {key : String}
    (h : key ∈ nodeRows config resolved node) (h' : key ∈ nodeRows config resolved node') :
    False := by
  obtain ⟨a, -, ha, -, r, hr, rfl⟩ := h
  obtain ⟨b, -, hb, -, r', hr', heq⟩ := h'
  rw [rxStateKey_eq, rxStateKey_eq] at heq
  exact hid (ha.symm.trans ((rowSuffix_inj hr hr' heq).1.trans hb))

variable (hresolved : resolveTopology config = .ok resolved) (hkeys : KeysDistinct config resolved)
include hresolved hkeys

omit [Field K] [LinearOrder K] [FloorRing K] [Libm K] [Rng K] hresolved in
/-- A lane's state key names the lane. -/
theorem lane_of_key {a b : LaneConfig} (ha : a ∈ resolved.lanes) (hb : b ∈ resolved.lanes)
    (hkey : a.key = b.key) : a = b :=
  List.inj_on_of_nodup_map hkeys.lanes ha hb hkey

omit [Libm K] [FloorRing K] [Rng K] in
/-- Lanes of one physical link have one destination. -/
theorem dstNode_of_link {a b : LaneConfig} (ha : a ∈ resolved.lanes) (hb : b ∈ resolved.lanes)
    (hkey : a.physicalLinkKey = b.physicalLinkKey) : a.dstNode = b.dstNode := by
  obtain ⟨i, l, s, d, hl, r, -, t, -, -, rfl⟩ := ((lanes_spec hresolved).2 a).mp ha
  obtain ⟨i', l', s', d', hl', r', -, t', -, -, rfl⟩ := ((lanes_spec hresolved).2 b).mp hb
  obtain rfl := index_of_key hkeys.links hl.1 hl'.1 hkey
  obtain ⟨rfl, rfl, rfl⟩ := hl.unique hl'
  rfl

omit [Libm K] [FloorRing K] [Rng K] hkeys in
/-- The link of a lane is a link of the configuration. -/
theorem physicalLinkKey_mem {lane : LaneConfig} (h : lane ∈ resolved.lanes) :
    lane.physicalLinkKey ∈ config.links.map linkKey := by
  obtain ⟨i, l, s, d, hl, r, -, t, -, -, rfl⟩ := ((lanes_spec hresolved).2 lane).mp h
  exact List.mem_map_of_mem (List.mem_of_getElem? hl.1)

omit [Field K] [LinearOrder K] [FloorRing K] [Libm K] [Rng K] hresolved in
/-- Two nodes share no lane and no row. -/
theorem nodeStates_disjoint {node' : ResolvedNode} (hid : node.id ≠ node'.id) :
    Disjoint (nodeStates config resolved node) (nodeStates config resolved node') := by
  rw [Set.disjoint_left]
  rintro key (⟨a, ha, rfl⟩ | hrow) (⟨b, hb, heq⟩ | hrow')
  · obtain rfl := lane_of_key hkeys ha.1 hb.1 heq
    exact hid (ha.2.1.symm.trans hb.2.1)
  · exact hkeys.lanesApart _ (nodeRows_subset hrow') (List.mem_map_of_mem ha.1)
  · exact hkeys.lanesApart _ (nodeRows_subset hrow) (heq ▸ List.mem_map_of_mem hb.1)
  · exact nodeRows_disjoint hid hrow hrow'

omit [Libm K] [FloorRing K] [Rng K] in
/-- Two nodes share no link. -/
theorem nodeLinks_disjoint {node' : ResolvedNode} (hid : node.id ≠ node'.id) :
    Disjoint (nodeLinks config resolved node) (nodeLinks config resolved node') := by
  rw [Set.disjoint_left]
  rintro key (⟨a, ha, rfl⟩ | hrow) (⟨b, hb, heq⟩ | hrow')
  · have hdst := dstNode_of_link hresolved hkeys ha.1 hb.1 heq
    rw [ha.2.1, hb.2.1] at hdst
    exact hid hdst
  · exact hkeys.linksApart _ (nodeRows_subset hrow')
      (physicalLinkKey_mem hresolved ha.1)
  · exact hkeys.linksApart _ (nodeRows_subset hrow)
      (heq ▸ physicalLinkKey_mem hresolved hb.1)
  · exact nodeRows_disjoint hid hrow hrow'

end Keys

/-! ## What prepare creates -/

section Prepare

open CpuChannelProcessor

/-- Every lane state stands in a link that `home` allows, and the link exists. -/
def Housed (home : String → String → Prop) (p : CpuChannelProcessor K) : Prop :=
  ∀ key st, p.states key = some st → home key st.link ∧ ∃ link, p.links st.link = some link

variable {home : String → String → Prop} {p q : CpuChannelProcessor K}

omit [Field K] [LinearOrder K] [FloorRing K] [Libm K] [Rng K] in
/-- Replacing a link keeps every lane housed. -/
theorem Housed.setLink (h : Housed home p) (k : String) (link : PhysicalLinkRuntime K) :
    Housed home { p with links := Function.update p.links k (some link) } := by
  intro key st hst
  obtain ⟨hhome, old, hold⟩ := h key st hst
  refine ⟨hhome, ?_⟩
  by_cases hk : st.link = k
  · subst hk
    exact ⟨link, Function.update_self ..⟩
  · exact ⟨old, by dsimp only; rw [Function.update_of_ne hk]; exact hold⟩

omit [Field K] [LinearOrder K] [FloorRing K] [Libm K] [Rng K] in
/-- Changing a link keeps every lane housed. -/
theorem Housed.modifyLink (h : Housed home p) (k : String)
    (f : PhysicalLinkRuntime K → PhysicalLinkRuntime K) : Housed home (p.modifyLink k f) := by
  unfold CpuChannelProcessor.modifyLink
  cases hk : p.links k with
  | some link => exact h.setLink k (f link)
  | none =>
      rw [Option.map_none, ← hk, Function.update_eq_self]
      exact h

omit [Field K] [LinearOrder K] [FloorRing K] [Libm K] [Rng K] in
/-- A lane bound to its own link is housed. -/
theorem Housed.setState (h : Housed home p) {key : String} {st : LinkState K}
    (hhome : home key st.link) (hlink : ∃ link, p.links st.link = some link) :
    Housed home { p with states := Function.update p.states key (some st) } := by
  intro key' st' hst'
  dsimp only at hst'
  by_cases hk : key' = key
  · subst hk
    rw [Function.update_self] at hst'
    obtain rfl := Option.some.inj hst'
    exact ⟨hhome, hlink⟩
  · rw [Function.update_of_ne hk] at hst'
    exact h key' st' hst'

/-- No lane state disappears. -/
def Grows (p q : CpuChannelProcessor K) : Prop :=
  ∀ key, (p.states key).isSome = true → (q.states key).isSome = true

omit [Field K] [LinearOrder K] [FloorRing K] [Libm K] [Rng K] in
/-- A lane that is set is added to the ones that are there. -/
theorem grows_setState (p : CpuChannelProcessor K) (key : String) (st : LinkState K)
    (links : LinkTable K) :
    Grows p { p with states := Function.update p.states key (some st), links := links } := by
  intro key' hkey'
  dsimp only
  by_cases hk : key' = key
  · subst hk
    rw [Function.update_self]
    rfl
  · rw [Function.update_of_ne hk]
    exact hkey'

omit [LinearOrder K] [FloorRing K] [Libm K] [Rng K] in
/-- Binding a lane houses it and keeps the others. -/
theorem bindState_housed (h : Housed home p) {key : String} (model : ModelConfig K)
    {identity : LaneIdentity} (hhome : home key identity.physicalLinkKey) :
    Housed home (p.bindState key model identity) ∧ Grows p (p.bindState key model identity) ∧
      ((p.bindState key model identity).states key).isSome = true := by
  unfold CpuChannelProcessor.bindState
  cases hst : p.states key with
  | some st => exact ⟨h, fun _ => id, by rw [hst]; rfl⟩
  | none =>
      refine ⟨?_, grows_setState p key _ _, by dsimp only; rw [Function.update_self]; rfl⟩
      refine (h.setLink identity.physicalLinkKey _).setState ?_ ⟨_, Function.update_self ..⟩
      exact hhome

/-- Entering a lane houses it and keeps the others. -/
theorem ensureLinkState_housed (h : Housed home p) (key : String) (model : ModelConfig K)
    (count : ℕ) (identity : LaneIdentity) (hhome : home key identity.physicalLinkKey) :
    Housed home (p.ensureLinkState key model count identity) ∧
      Grows p (p.ensureLinkState key model count identity) ∧
      ((p.ensureLinkState key model count identity).states key).isSome = true := by
  obtain ⟨hbound, hgrows, hthere⟩ := bindState_housed h model hhome
  unfold CpuChannelProcessor.ensureLinkState
  generalize p.bindState key model identity = q at hbound hgrows hthere ⊢
  dsimp only
  cases hst : q.states key with
  | none =>
      rw [hst] at hthere
      exact absurd hthere Bool.false_ne_true
  | some st =>
      dsimp only
      split_ifs
      · exact ⟨hbound, hgrows, by rw [hst]; rfl⟩
      · obtain ⟨hhomeSt, link, hlink⟩ := hbound key st hst
        refine ⟨?_, fun key' hkey' => grows_setState q key _ _ key' (hgrows key' hkey'),
          by dsimp only; rw [Function.update_self]; rfl⟩
        refine (hbound.modifyLink st.link _).setState hhomeSt ?_
        unfold CpuChannelProcessor.modifyLink
        dsimp only
        rw [hlink, Function.update_self]
        exact ⟨_, rfl⟩

omit [Field K] [LinearOrder K] [FloorRing K] [Libm K] [Rng K] in
/-- A loop that makes keys makes all of them. -/
theorem foldl_housed {β : Type} {f : CpuChannelProcessor K → β → CpuChannelProcessor K}
    {M : β → String → Prop} {l : List β}
    (hstep : ∀ x ∈ l, ∀ q, Housed home q → Housed home (f q x) ∧ Grows q (f q x) ∧
      ∀ key, M x key → ((f q x).states key).isSome = true)
    (hp : Housed home p) :
    Housed home (l.foldl f p) ∧ Grows p (l.foldl f p) ∧
      ∀ x ∈ l, ∀ key, M x key → ((l.foldl f p).states key).isSome = true := by
  induction l generalizing p with
  | nil => exact ⟨hp, fun _ => id, fun x hx => absurd hx List.not_mem_nil⟩
  | cons x l ih =>
      obtain ⟨hhoused, hgrows, hmade⟩ := hstep x List.mem_cons_self p hp
      obtain ⟨hhoused', hgrows', hmade'⟩ :=
        ih (fun y hy => hstep y (List.mem_cons_of_mem x hy)) hhoused
      refine ⟨hhoused', fun key hkey => hgrows' key (hgrows key hkey), ?_⟩
      intro y hy key hkey
      rcases List.mem_cons.mp hy with rfl | hy
      · exact hgrows' key (hmade key hkey)
      · exact hmade' y hy key hkey

variable {config : TopologyConfig K} {resolved : ResolvedTopology}

/-- A lane stands in its physical link, a row in a link of its own. -/
def keyHome (resolved : ResolvedTopology) (key k : String) : Prop :=
  (∃ lane ∈ resolved.lanes, lane.key = key ∧ lane.physicalLinkKey = k) ∨
    key ∈ rowKeys resolved ∧ k = key

/-- Preparing a lane houses it, if its model is known. -/
theorem prepareLane_housed (hresolved : resolveTopology config = .ok resolved) {lane : LaneConfig}
    (hlane : lane ∈ resolved.lanes) (hq : Housed (keyHome resolved) q) :
    Housed (keyHome resolved) (prepareLane config resolved q lane) ∧
      Grows q (prepareLane config resolved q lane) ∧
      ∀ key, (config.findModel lane.modelId).isSome = true ∧ key = lane.key →
        ((prepareLane config resolved q lane).states key).isSome = true := by
  have hdestination : ∃ destination,
      resolved.nodes.find? (·.id = lane.dstNode) = some destination := by
    obtain ⟨i, l, s, d, hl, r, -, t, -, -, rfl⟩ := ((lanes_spec hresolved).2 lane).mp hlane
    rw [resolveTopology_nodes hresolved]
    exact find_node ⟨d, List.mem_of_find?_eq_some hl.2.2, rfl⟩
  obtain ⟨destination, hfind⟩ := hdestination
  unfold prepareLane
  rw [hfind]
  cases hmodel : config.findModel lane.modelId with
  | none => exact ⟨hq, fun _ => id, fun key hkey => absurd hkey.1 Bool.false_ne_true⟩
  | some model =>
      obtain ⟨hhoused, hgrows, hthere⟩ := ensureLinkState_housed hq lane.key model
        (resolveBatchSamples config.runtime destination.sampleRateHz)
        { physicalLinkKey := lane.physicalLinkKey, rxPort := lane.rxPort
          txPort := lane.txPort, nt := lane.nt, nr := lane.nr }
        (.inl ⟨lane, hlane, rfl, rfl⟩)
      dsimp only
      split
      · exact ⟨hhoused.modifyLink _ _, hgrows, fun key hkey => hkey.2 ▸ hthere⟩
      · exact ⟨hhoused, hgrows, fun key hkey => hkey.2 ▸ hthere⟩

omit [FloorRing K] [Rng K] in
/-- Preparing the lanes of a link houses nothing else. -/
theorem prepareGroup_housed {group : LinkLaneGroup} (hq : Housed home q) :
    Ensures (fun q' => Housed home q' ∧ Grows q q') (prepareGroup config resolved q group) := by
  have hkeep : ∀ f, Housed home (q.modifyLink group.physicalLinkKey f) ∧
      Grows q (q.modifyLink group.physicalLinkKey f) :=
    fun f => ⟨hq.modifyLink _ f, fun _ => id⟩
  unfold prepareGroup
  split
  · exact Ensures.pure ⟨hq, fun _ => id⟩
  · split
    · exact Ensures.pure ⟨hq, fun _ => id⟩
    · split_ifs
      · exact Ensures.pure (hkeep _)
      · split
        · exact Ensures.throw
        · exact Ensures.pure (hkeep _)

/-- Preparing the rows of a node houses them. -/
theorem prepareRows_housed {node : ResolvedNode} (hnode : node ∈ resolved.nodes)
    (hq : Housed (keyHome resolved) q) :
    Housed (keyHome resolved) (prepareRows config q node) ∧
      Grows q (prepareRows config q node) ∧
      ∀ key, key ∈ rowsOf config node →
        ((prepareRows config q node).states key).isSome = true := by
  unfold prepareRows
  by_cases hempty : node.rxModel.isEmpty = true
  · rw [if_pos hempty]
    refine ⟨hq, fun _ => id, fun key hkey => ?_⟩
    have hmodel := hkey.1
    rw [rowModel, if_pos hempty] at hmodel
    exact absurd hmodel Bool.false_ne_true
  · rw [if_neg hempty]
    cases hfind : config.findModel node.rxModel with
    | none =>
        refine ⟨hq, fun _ => id, fun key hkey => ?_⟩
        have hmodel := hkey.1
        rw [rowModel, if_neg hempty, hfind] at hmodel
        exact absurd hmodel Bool.false_ne_true
    -- the states of the model are grown row by row
    | some model =>
        dsimp only
        obtain ⟨hhoused, hgrows, hthere⟩ := foldl_housed (p := q)
          (l := List.range node.rxPorts.length)
          (M := fun r key => key = rxStateKey node.id r node.rxPorts.length)
          (f := fun p r => { p.ensureLinkState (rxStateKey node.id r node.rxPorts.length) model
              (resolveBatchSamples config.runtime node.sampleRateHz)
              { physicalLinkKey := rxStateKey node.id r node.rxPorts.length } with
            rxModelKeys := (p.ensureLinkState (rxStateKey node.id r node.rxPorts.length) model
              (resolveBatchSamples config.runtime node.sampleRateHz)
              { physicalLinkKey := rxStateKey node.id r node.rxPorts.length }).rxModelKeys
                ++ [rxStateKey node.id r node.rxPorts.length] })
          (fun r hr q' hq' => by
            have hrow : rxStateKey node.id r node.rxPorts.length ∈ rowKeys resolved :=
              mem_rowKeys.mpr ⟨node, hnode, r, List.mem_range.mp hr, rfl⟩
            obtain ⟨hhoused, hgrows, hthere⟩ := ensureLinkState_housed hq'
              (rxStateKey node.id r node.rxPorts.length) model
              (resolveBatchSamples config.runtime node.sampleRateHz)
              { physicalLinkKey := rxStateKey node.id r node.rxPorts.length }
              (.inr ⟨hrow, rfl⟩)
            exact ⟨hhoused, hgrows, fun key hkey => hkey ▸ hthere⟩) hq
        refine ⟨hhoused, hgrows, ?_⟩
        rintro key ⟨-, r, hr, rfl⟩
        exact hthere r (List.mem_range.mpr hr) _ rfl

/-- **`prepare` creates every key** of every node, each in its home. -/
theorem prepare_housed (hresolved : resolveTopology config = .ok resolved)
    (hprepare : prepare config = .ok p) :
    Housed (keyHome resolved) p ∧ ∀ node ∈ resolved.nodes,
      ∀ key ∈ nodeStates config resolved node, (p.states key).isSome = true := by
  unfold prepare at hprepare
  split_ifs at hprepare
  obtain ⟨resolved', hresolved', hprepare⟩ := bind_eq_ok hprepare
  obtain rfl := Except.ok.inj (hresolved.symm.trans hresolved')
  have hempty : Housed (keyHome resolved) (CpuChannelProcessor.empty : CpuChannelProcessor K) :=
    fun key st hst => absurd hst (by simp [CpuChannelProcessor.empty])
  obtain ⟨hlanes, -, hlaneKeys⟩ := foldl_housed (f := prepareLane config resolved)
    (l := resolved.lanes)
    (fun lane hlane q hq => prepareLane_housed hresolved hlane hq) hempty
  generalize resolved.lanes.foldl (prepareLane config resolved) empty = p₁
    at hlanes hlaneKeys hprepare
  obtain ⟨p₂, hp₂, hprepare⟩ := bind_eq_ok hprepare
  have hgroups : Housed (keyHome resolved) p₂ ∧ Grows p₁ p₂ :=
    Ensures.foldlM (P := fun q => Housed (keyHome resolved) q ∧ Grows p₁ q) ⟨hlanes, fun _ => id⟩
      (fun group _ q hq => (prepareGroup_housed hq.1).mono fun q' hq' =>
        ⟨hq'.1, fun key hkey => hq'.2 key (hq.2 key hkey)⟩) p₂ hp₂
  obtain rfl := Except.ok.inj hprepare
  obtain ⟨hrows, hgrows, hrowKeys⟩ := foldl_housed (f := prepareRows config)
    (l := resolved.nodes) (fun node hnode q hq => prepareRows_housed hnode hq) hgroups.1
  refine ⟨hrows, ?_⟩
  rintro node hnode key (⟨lane, hlane, rfl⟩ | hrow)
  · exact hgrows _ (hgroups.2 _ (hlaneKeys lane hlane.1 _ ⟨hlane.2.2, rfl⟩))
  · obtain ⟨node', hnode', -, hrow⟩ := hrow
    exact hrowKeys node' hnode' key hrow

/-- A prepared processor owns the keys of every node. -/
theorem prepare_owned (hresolved : resolveTopology config = .ok resolved)
    (hkeys : KeysDistinct config resolved) (hprepare : prepare config = .ok p) {node : ResolvedNode}
    (hnode : node ∈ resolved.nodes) :
    Owned (nodeStates config resolved node) (nodeLinks config resolved node) p := by
  obtain ⟨hhoused, hthere⟩ := prepare_housed hresolved hprepare
  -- a lane's state stands in the lane's link, a row's state in the row's own
  have hlane : ∀ lane, LaneOf config resolved node lane → ∃ st, p.states lane.key = some st ∧
      st.link = lane.physicalLinkKey := by
    intro lane hlane
    obtain ⟨st, hst⟩ := Option.isSome_iff_exists.mp
      (hthere node hnode lane.key (.inl ⟨lane, hlane, rfl⟩))
    refine ⟨st, hst, ?_⟩
    rcases (hhoused _ _ hst).1 with ⟨lane', hlane', hkey, hlink⟩ | ⟨hrow, -⟩
    · obtain rfl := lane_of_key hkeys hlane' hlane.1 hkey
      exact hlink.symm
    · exact absurd (List.mem_map_of_mem hlane.1) (hkeys.lanesApart _ hrow)
  have hrow : ∀ key ∈ nodeRows config resolved node,
      ∃ st, p.states key = some st ∧ st.link = key := by
    intro key hkey
    obtain ⟨st, hst⟩ := Option.isSome_iff_exists.mp (hthere node hnode key (.inr hkey))
    refine ⟨st, hst, ?_⟩
    rcases (hhoused _ _ hst).1 with ⟨lane, hlane, rfl, -⟩ | ⟨-, hlink⟩
    · exact absurd (List.mem_map_of_mem hlane)
        (hkeys.lanesApart _ (nodeRows_subset hkey))
    · exact hlink
  constructor
  · rintro key (⟨lane, hof, rfl⟩ | hkey)
    · obtain ⟨st, hst, hlink⟩ := hlane lane hof
      exact ⟨st, hst, .inl ⟨lane, hof, hlink⟩⟩
    · obtain ⟨st, hst, hlink⟩ := hrow key hkey
      exact ⟨st, hst, .inr (hlink.symm ▸ hkey)⟩
  · rintro k (⟨lane, hof, rfl⟩ | hkey)
    · obtain ⟨st, hst, hlink⟩ := hlane lane hof
      exact hlink ▸ (hhoused _ _ hst).2
    · obtain ⟨st, hst, hlink⟩ := hrow k hkey
      obtain ⟨-, hexists⟩ := hhoused _ _ hst
      rw [hlink] at hexists
      exact hexists

end Prepare

/-! ## Interleavings of whole calls -/

section Interleavings

/-- Calls one after the other: the rows of each, under the node it was for. -/
def CpuChannelProcessor.serveAll (p : CpuChannelProcessor K) :
    List (SuperpositionCall K) →
      Except String (CpuChannelProcessor K × List (String × List (List (Iq K))))
  | [] => .ok (p, [])
  | call :: calls => do
      let (q, rows) ← p.serve call
      let (last, outs) ← q.serveAll calls
      pure (last, (call.dstKey, rows) :: outs)

/-- `p` owns the keys, and `q` agrees with it there. -/
structure AgreeOn (S L : Set String) (p q : CpuChannelProcessor K) : Prop where
  owned : Owned S L p
  states : ∀ key ∈ S, q.states key = p.states key
  links : ∀ k ∈ L, q.links k = p.links k

/-- **What a call leaves to the others**: no key is new, and `S` and `L` are untouched. -/
structure LeavesTo (S L : Set String) (p q : CpuChannelProcessor K) : Prop where
  noNewState : ∀ key, (q.states key).isSome = (p.states key).isSome
  noNewLink : ∀ k, (q.links k).isSome = (p.links k).isSome
  states : ∀ key ∈ S, q.states key = p.states key
  links : ∀ k ∈ L, q.links k = p.links k
  rows : q.rxModelKeys = p.rxModelKeys

/-- **Both orders agree**: where `A` and then `B` go through, so do `B` and then `A`, with the same
rows and the same state. -/
def OrdersAgree (p : CpuChannelProcessor K) (A B : SuperpositionCall K) : Prop :=
  ∀ pA rowsA pAB rowsB, p.serve A = .ok (pA, rowsA) → pA.serve B = .ok (pAB, rowsB) →
    ∃ pB pBA, p.serve B = .ok (pB, rowsB) ∧ pB.serve A = .ok (pBA, rowsA) ∧ SameState pAB pBA

variable {S L S' L' : Set String} {p q p' : CpuChannelProcessor K} {call : SuperpositionCall K}
  {rows : List (List (Iq K))}

/-- The first call of a sequence is served first. -/
theorem serveAll_cons (calls : List (SuperpositionCall K)) :
    p.serveAll (call :: calls) = (p.serve call >>= fun first => first.1.serveAll calls >>=
      fun rest => pure (rest.1, (call.dstKey, first.2) :: rest.2)) := rfl

/-- A sequence is served if its first call is and the rest is served behind it. -/
theorem serveAll_cons_eq_ok {calls : List (SuperpositionCall K)}
    {outs : List (String × List (List (Iq K)))} :
    p.serveAll (call :: calls) = .ok (q, outs) ↔
      ∃ mid rows rest, p.serve call = .ok (mid, rows) ∧ mid.serveAll calls = .ok (q, rest) ∧
        outs = (call.dstKey, rows) :: rest := by
  rw [serveAll_cons]
  constructor
  · intro h
    obtain ⟨⟨mid, rows⟩, hmid, h⟩ := bind_eq_ok h
    obtain ⟨⟨last, rest⟩, hlast, h⟩ := bind_eq_ok h
    obtain ⟨rfl, rfl⟩ := Prod.mk.inj (Except.ok.inj h)
    exact ⟨mid, rows, rest, hmid, hlast, rfl⟩
  · rintro ⟨mid, rows, rest, hmid, hrest, rfl⟩
    rw [hmid]
    change (mid.serveAll calls >>= fun rest => _) = _
    rw [hrest]
    rfl

omit [Field K] [LinearOrder K] [FloorRing K] [Libm K] [Rng K] in
/-- Every processor agrees with itself. -/
theorem AgreeOn.refl (h : Owned S L p) : AgreeOn S L p p :=
  ⟨h, fun _ _ => rfl, fun _ _ => rfl⟩

omit [Field K] [LinearOrder K] [FloorRing K] [Libm K] [Rng K] in
/-- Agreement is symmetric. -/
theorem AgreeOn.symm (h : AgreeOn S L p q) : AgreeOn S L q p :=
  ⟨h.owned.congr h.states h.links, fun key hkey => (h.states key hkey).symm,
    fun k hk => (h.links k hk).symm⟩

/-- A call with keys in `S` goes the same way on both sides. -/
theorem AgreeOn.serve (h : AgreeOn S L p q) (hcall : call.Within S)
    (hserve : p.serve call = .ok (p', rows)) :
    ∃ q', q.serve call = .ok (q', rows) ∧ AgreeOn S L p' q' := by
  obtain ⟨q', hq', htogether⟩ := serve_local h.owned h.states h.links hcall hserve
  exact ⟨q', hq', htogether.owned, fun key hkey => (htogether.states key hkey).symm,
    fun k hk => (htogether.links k hk).symm⟩

/-- A call with its keys apart from `S'` and `L'` is not seen there. -/
theorem AgreeOn.serve_other (h : AgreeOn S' L' p q) (howned : Owned S L p) (hS : Disjoint S S')
    (hL : Disjoint L L') (hcall : call.Within S) (hserve : p.serve call = .ok (p', rows)) :
    AgreeOn S' L' p' q := by
  obtain ⟨hown, hstates, hlinks⟩ := h.owned.beside hS hL (serve_frame howned hcall hserve).2
  exact ⟨hown, fun key hkey => (h.states key hkey).trans (hstates key hkey).symm,
    fun k hk => (h.links k hk).trans (hlinks k hk).symm⟩

/-- A call within other keys leaves these alone. -/
theorem Owned.leavesTo (h : Owned S L p) (hS : Disjoint S S') (hL : Disjoint L L')
    (hcall : call.Within S) (hserve : p.serve call = .ok (p', rows)) : LeavesTo S' L' p p' := by
  obtain ⟨howned, hbeside⟩ := serve_frame h hcall hserve
  refine ⟨?_, ?_, ?_, ?_, hbeside.rows⟩
  · intro key
    by_cases hkey : key ∈ S
    · obtain ⟨st, hst, -⟩ := h.states key hkey
      obtain ⟨st', hst', -⟩ := howned.states key hkey
      rw [hst, hst']
      rfl
    · rw [hbeside.states key hkey]
  · intro k
    by_cases hk : k ∈ L
    · obtain ⟨link, hlink⟩ := h.links k hk
      obtain ⟨link', hlink'⟩ := howned.links k hk
      rw [hlink, hlink']
      rfl
    · rw [hbeside.links k hk]
  · exact fun key hkey => hbeside.states key fun hmem => Set.disjoint_left.mp hS hmem hkey
  · exact fun k hk => hbeside.links k fun hmem => Set.disjoint_left.mp hL hmem hk

/-! ### Every node of a topology -/

variable {config : TopologyConfig K} {resolved : ResolvedTopology}

/-- Every node owns its keys. -/
def AllOwned (config : TopologyConfig K) (resolved : ResolvedTopology)
    (p : CpuChannelProcessor K) : Prop :=
  ∀ node ∈ resolved.nodes, Owned (nodeStates config resolved node) (nodeLinks config resolved node) p

/-- Each call is for a node of the topology. -/
def AllMade (config : TopologyConfig K) (resolved : ResolvedTopology)
    (calls : List (SuperpositionCall K)) : Prop :=
  ∀ call ∈ calls, ∃ node ∈ resolved.nodes, MadeFor config resolved node call

/-- The calls of one node, in their order. -/
def ownCalls (node : ResolvedNode) (calls : List (SuperpositionCall K)) :
    List (SuperpositionCall K) :=
  calls.filter fun call => call.dstKey = node.id

/-- The rows of one node, in their order. -/
def ownRows (node : ResolvedNode) (outs : List (String × List (List (Iq K)))) :
    List (String × List (List (Iq K))) :=
  outs.filter fun out => out.1 = node.id

omit [Field K] [LinearOrder K] [FloorRing K] [Libm K] [Rng K] in
/-- The keys of a node depend on its id only. -/
theorem nodeStates_congr {node node' : ResolvedNode} (hid : node.id = node'.id) :
    nodeStates config resolved node = nodeStates config resolved node' ∧
      nodeLinks config resolved node = nodeLinks config resolved node' := by
  unfold nodeStates nodeLinks nodeRows LaneOf
  rw [hid]
  exact ⟨rfl, rfl⟩

variable (hresolved : resolveTopology config = .ok resolved) (hkeys : KeysDistinct config resolved)
include hresolved hkeys

/-- A served call leaves every node its own. -/
theorem AllOwned.serve (h : AllOwned config resolved p) {node : ResolvedNode}
    (hnode : node ∈ resolved.nodes) (hmade : MadeFor config resolved node call)
    (hserve : p.serve call = .ok (p', rows)) : AllOwned config resolved p' := by
  intro node' hnode'
  by_cases hid : node.id = node'.id
  · rw [← (nodeStates_congr hid).1, ← (nodeStates_congr hid).2]
    exact (serve_frame (h node hnode) (hmade.within hnode) hserve).1
  · exact ((AgreeOn.refl (h node' hnode')).serve_other (h node hnode)
      (nodeStates_disjoint hkeys hid) (nodeLinks_disjoint hresolved hkeys hid)
      (hmade.within hnode) hserve).owned

/-- **Each node gets what it would get alone**: a run of whole calls goes through for a node's own
calls, with the node's rows. -/
theorem serveAll_alone {calls : List (SuperpositionCall K)} (hmade : AllMade config resolved calls)
    {node : ResolvedNode} (hall : AllOwned config resolved p)
    {alone : CpuChannelProcessor K}
    (hagree : AgreeOn (nodeStates config resolved node) (nodeLinks config resolved node) p alone)
    {outs : List (String × List (List (Iq K)))} (hrun : p.serveAll calls = .ok (q, outs)) :
    AllOwned config resolved q ∧ ∃ last,
      alone.serveAll (ownCalls node calls) = .ok (last, ownRows node outs) := by
  induction calls generalizing p alone outs with
  | nil =>
      obtain ⟨rfl, rfl⟩ := Prod.mk.inj (Except.ok.inj hrun)
      exact ⟨hall, alone, rfl⟩
  | cons call calls ih =>
      obtain ⟨mid, rows, rest, hmid, hrest, rfl⟩ := serveAll_cons_eq_ok.mp hrun
      obtain ⟨dst, hdst, hcall⟩ := hmade call List.mem_cons_self
      have hmade' : AllMade config resolved calls :=
        fun call' hcall' => hmade call' (List.mem_cons_of_mem call hcall')
      have hall' := hall.serve hresolved hkeys hdst hcall hmid
      unfold ownCalls ownRows
      by_cases hid : call.dstKey = node.id
      · -- the node's own call: it goes the same way alone
        rw [List.filter_cons_of_pos (by simpa using hid),
          List.filter_cons_of_pos (by simpa using hid)]
        have hsame : nodeStates config resolved dst = nodeStates config resolved node ∧ _ :=
          nodeStates_congr (hcall.dst.symm.trans hid)
        have hwithin : call.Within (nodeStates config resolved node) :=
          hsame.1 ▸ hcall.within hdst
        obtain ⟨alone', halone', hagree'⟩ := hagree.serve hwithin hmid
        obtain ⟨hlast, last, hrun'⟩ := ih hmade' hall' hagree' hrest
        exact ⟨hlast, last, serveAll_cons_eq_ok.mpr ⟨alone', rows, _, halone', hrun', rfl⟩⟩
      · rw [List.filter_cons_of_neg (by simpa using hid),
          List.filter_cons_of_neg (by simpa using hid)]
        have hne : dst.id ≠ node.id := hcall.dst ▸ hid
        exact ih hmade' hall' (hagree.serve_other (hall dst hdst)
          (nodeStates_disjoint hkeys hne) (nodeLinks_disjoint hresolved hkeys hne)
          (hcall.within hdst) hmid) hrest

/-- Where every node's own calls go through alone, so does every interleaving of them. -/
theorem serveAll_of_alone {calls : List (SuperpositionCall K)}
    (hmade : AllMade config resolved calls) (hall : AllOwned config resolved p)
    (halone : ∀ node ∈ resolved.nodes, ∃ alone last outs,
      AgreeOn (nodeStates config resolved node) (nodeLinks config resolved node) p alone ∧
        alone.serveAll (ownCalls node calls) = .ok (last, outs)) :
    ∃ q outs, p.serveAll calls = .ok (q, outs) := by
  induction calls generalizing p with
  | nil => exact ⟨p, [], rfl⟩
  | cons call calls ih =>
      obtain ⟨dst, hdst, hcall⟩ := hmade call List.mem_cons_self
      have hwithin := hcall.within hdst
      -- the call goes through because it does at its own node
      obtain ⟨alone, last, outs, hagree, hrun⟩ := halone dst hdst
      unfold ownCalls at hrun
      rw [List.filter_cons_of_pos (by simpa using hcall.dst)] at hrun
      obtain ⟨alone', rows, rest, halone', -, -⟩ := serveAll_cons_eq_ok.mp hrun
      obtain ⟨mid, hmid, -⟩ := hagree.symm.serve hwithin halone'
      have hnext : ∀ node ∈ resolved.nodes, ∃ alone last outs,
          AgreeOn (nodeStates config resolved node) (nodeLinks config resolved node) mid alone ∧
            alone.serveAll (ownCalls node calls) = .ok (last, outs) := by
        intro node hnode
        obtain ⟨alone, last, outs, hagree, hrun⟩ := halone node hnode
        unfold ownCalls at hrun ⊢
        by_cases hid : call.dstKey = node.id
        · rw [List.filter_cons_of_pos (by simpa using hid)] at hrun
          have hsame : nodeStates config resolved dst = nodeStates config resolved node ∧ _ :=
            nodeStates_congr (hcall.dst.symm.trans hid)
          obtain ⟨alone', halone', hagree'⟩ := hagree.serve (hsame.1 ▸ hwithin) hmid
          obtain ⟨alone'', rows', rest, hsame', hrest, -⟩ := serveAll_cons_eq_ok.mp hrun
          obtain ⟨rfl, rfl⟩ := Prod.mk.inj (Except.ok.inj (halone'.symm.trans hsame'))
          exact ⟨alone', last, rest, hagree', hrest⟩
        · rw [List.filter_cons_of_neg (by simpa using hid)] at hrun
          have hne : dst.id ≠ node.id := hcall.dst ▸ hid
          exact ⟨alone, last, outs, hagree.serve_other (hall dst hdst)
            (nodeStates_disjoint hkeys hne) (nodeLinks_disjoint hresolved hkeys hne)
            hwithin hmid, hrun⟩
      obtain ⟨q, outs', hq⟩ := ih
        (fun call' hcall' => hmade call' (List.mem_cons_of_mem call hcall'))
        (hall.serve hresolved hkeys hdst hcall hmid) hnext
      exact ⟨q, _, serveAll_cons_eq_ok.mpr ⟨mid, rows, outs', hmid, hq, rfl⟩⟩

/-- **Calls for different nodes commute.**  Any interleaving of whole calls gives each node the rows
of its own calls alone; and after it, of two calls for different nodes, neither makes a new key nor
changes what the other reads, and both orders agree. -/
theorem node_calls_commute (hprepare : CpuChannelProcessor.prepare config = .ok p)
    (calls : List (SuperpositionCall K)) (hmade : AllMade config resolved calls) :
    ((∃ q outs, p.serveAll calls = .ok (q, outs)) ↔
      ∀ node ∈ resolved.nodes, ∃ q outs, p.serveAll (ownCalls node calls) = .ok (q, outs)) ∧
    ∀ q outs, p.serveAll calls = .ok (q, outs) →
      (∀ node ∈ resolved.nodes, ∃ last,
        p.serveAll (ownCalls node calls) = .ok (last, ownRows node outs)) ∧
      ∀ a ∈ resolved.nodes, ∀ b ∈ resolved.nodes, a.id ≠ b.id → ∀ A B,
        MadeFor config resolved a A → MadeFor config resolved b B →
          (∀ qA rows, q.serve A = .ok (qA, rows) →
            LeavesTo (nodeStates config resolved b) (nodeLinks config resolved b) q qA) ∧
          OrdersAgree q A B := by
  have hall : AllOwned config resolved p :=
    fun node hnode => prepare_owned hresolved hkeys hprepare hnode
  have halone : ∀ q outs, p.serveAll calls = .ok (q, outs) → ∀ node ∈ resolved.nodes,
      AllOwned config resolved q ∧ ∃ last,
        p.serveAll (ownCalls node calls) = .ok (last, ownRows node outs) := by
    intro q outs hrun node hnode
    exact serveAll_alone hresolved hkeys hmade hall (AgreeOn.refl (hall node hnode)) hrun
  refine ⟨⟨?_, ?_⟩, ?_⟩
  · rintro ⟨q, outs, hrun⟩ node hnode
    obtain ⟨last, hlast⟩ := (halone q outs hrun node hnode).2
    exact ⟨last, _, hlast⟩
  · intro hruns
    refine serveAll_of_alone hresolved hkeys hmade hall fun node hnode => ?_
    obtain ⟨last, outs, hrun⟩ := hruns node hnode
    exact ⟨p, last, outs, AgreeOn.refl (hall node hnode), hrun⟩
  · intro q outs hrun
    refine ⟨fun node hnode => (halone q outs hrun node hnode).2, ?_⟩
    intro a ha b hb hid A B hA hB
    have hq := (halone q outs hrun a ha).1
    have hS : Disjoint (nodeStates config resolved a) _ := nodeStates_disjoint hkeys hid
    have hL : Disjoint (nodeLinks config resolved a) _ := nodeLinks_disjoint hresolved hkeys hid
    constructor
    · intro qA rows hserve
      exact (hq a ha).leavesTo hS hL (hA.within ha) hserve
    · intro pA rowsA pAB rowsB hserveA hserveB
      exact serve_commute (hq a ha) (hq b hb) hS hL (hA.within ha) (hB.within hb) hserveA hserveB

end Interleavings

end NodeCalls

/-- Two samples over the only lane into `dst`. -/
def roundCall (src dst : String) (x : ℚ) : SuperpositionCall ℚ :=
  { dstKey := dst
    inputs := [{ linkKey := linkKey (plainLink src dst "flat")
                 model := some (oneTapModel "flat" 0), samples := [⟨x, 0⟩, ⟨x, 0⟩] }]
    rxModel := none, sampleRateHz := 23040000, rowSizes := [2] }

/-- Two calls of `b` around one of `a`. -/
def roundCalls : List (SuperpositionCall ℚ) :=
  [roundCall "a" "b" 1, roundCall "b" "a" 2, roundCall "a" "b" 3]

theorem node_calls_commute_pair :
    ∃ resolved p q outs, resolveTopology pairOfLinks = .ok resolved ∧ resolved.nodes.length = 2 ∧
      CpuChannelProcessor.prepare pairOfLinks = .ok p ∧ p.serveAll roundCalls = .ok (q, outs) ∧
      ∀ node ∈ resolved.nodes, ∃ last,
        p.serveAll (ownCalls node roundCalls) = .ok (last, ownRows node outs) := by
  have htable : (resolveTopology pairOfLinks).toOption.any (fun resolved => decide
      (resolved.nodes.length = 2 ∧ (pairOfLinks.links.map linkKey).Nodup ∧
        (resolved.lanes.map (·.key)).Nodup ∧ (rowKeys resolved).Nodup ∧
        (∀ key ∈ rowKeys resolved, key ∉ pairOfLinks.links.map linkKey) ∧
        (∀ key ∈ rowKeys resolved, key ∉ resolved.lanes.map (·.key)) ∧
        ∀ call ∈ roundCalls, ∃ node ∈ resolved.nodes, call.dstKey = node.id ∧
          (rowModel pairOfLinks node).isNone = true ∧
          call.rowSizes.length = node.rxPorts.length ∧
          ∀ input ∈ call.inputs, ∃ lane ∈ resolved.lanes, lane.dstNode = node.id ∧
            (pairOfLinks.findModel lane.modelId).isSome = true ∧ input.linkKey = lane.key)) =
      true := by
    decide +kernel
  have hrun : ((CpuChannelProcessor.prepare pairOfLinks).toOption.any fun p =>
      (p.serveAll roundCalls).toOption.isSome) = true := by
    decide +kernel
  cases hresolved : resolveTopology pairOfLinks with
  | error e =>
      rw [hresolved] at htable
      cases htable
  | ok resolved =>
      cases hprepare : CpuChannelProcessor.prepare pairOfLinks with
      | error e =>
          rw [hprepare] at hrun
          cases hrun
      | ok p =>
          cases hserve : p.serveAll roundCalls with
          | error e =>
              rw [hprepare] at hrun
              change (p.serveAll roundCalls).toOption.isSome = true at hrun
              rw [hserve] at hrun
              cases hrun
          | ok last =>
              rw [hresolved] at htable
              obtain ⟨htwo, hlinks, hlanes, hrows, hlinksApart, hlanesApart, hmade⟩ :=
                of_decide_eq_true htable
              -- every call names a node and lanes of its own
              have hmade' : AllMade pairOfLinks resolved roundCalls := by
                intro call hcall
                obtain ⟨node, hnode, hdst, hmodel, hsize, hinputs⟩ := hmade call hcall
                refine ⟨node, hnode, hdst, ?_, ?_, hsize⟩
                · intro input hinput
                  obtain ⟨lane, hlane, hto, hfind, hkey⟩ := hinputs input hinput
                  exact ⟨lane, ⟨hlane, hto, hfind⟩, hkey⟩
                · have hnone : ∀ call ∈ roundCalls, call.rxModel = none := by decide +kernel
                  rw [Option.isNone_iff_eq_none.mp hmodel, hnone call hcall]
              refine ⟨resolved, p, last.1, last.2, rfl, htwo, rfl, hserve, ?_⟩
              exact ((node_calls_commute hresolved
                ⟨hlinks, hlanes, hrows, hlinksApart, hlanesApart⟩ hprepare roundCalls hmade').2
                last.1 last.2 hserve).1
