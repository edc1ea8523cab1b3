/-
# The slots of a node

The call that a node's producer makes for one slot, and what it does to the lanes of the topology:
the node's lanes are served, the lanes of the other nodes are left alone.  A relation between a lane
and its link that a slot re-establishes therefore holds along a whole run, of any nodes in any order.
-/
import GpuChannel.CallOutcome
import GpuChannel.LaneAgreement

section NodeSlots

variable {K : Type} [Field K] [LinearOrder K]

/-! ## The call of a slot -/

section NodeCall

variable (config : TopologyConfig K) (resolved : ResolvedTopology) (node : ResolvedNode)
  (samples : LaneConfig → List (Iq K)) (count : ℕ)

/-- The inputs of the node: its lanes in resolved order. -/
def nodeInputs : List (SuperpositionInput K) :=
  (nodeLanes config resolved node).map fun lane =>
    { linkKey := lane.key, model := config.findModel lane.modelId, samples := samples lane
      rxPort := lane.rxPort, txPort := lane.txPort }

/-- **The call that the producer of the node makes** for a slot of `count` samples. -/
def nodeCall : SuperpositionCall K :=
  { dstKey := node.id, inputs := nodeInputs config resolved node samples
    rxModel := rowModel config node, sampleRateHz := node.sampleRateHz
    rowSizes := List.replicate node.rxPorts.length count }

variable {config resolved node samples count}

omit [Field K] [LinearOrder K] in
theorem nodeInputs_keys : (nodeInputs config resolved node samples).map (·.linkKey) =
    (nodeLanes config resolved node).map (·.key) := by
  unfold nodeInputs
  rw [List.map_map]
  rfl

omit [Field K] [LinearOrder K] in
theorem nodeCall_madeFor : MadeFor config resolved node
    (nodeCall config resolved node samples count) where
  dst := rfl
  lanes input hinput := by
    obtain ⟨lane, hlane, rfl⟩ := List.mem_map.mp hinput
    exact ⟨lane, mem_nodeLanes.mp hlane, rfl⟩
  rx := rfl
  rows := List.length_replicate

omit [Field K] [LinearOrder K] in
theorem nodeCall_rows :
    (nodeCall config resolved node samples count).rowSizes.length = node.rxPorts.length :=
  List.length_replicate

omit [Field K] [LinearOrder K] in
theorem nodeCall_head (hnr : node.rxPorts.length ≠ 0) :
    (nodeCall config resolved node samples count).rowSizes.head? = some count := by
  obtain ⟨n, hn⟩ := Nat.exists_eq_succ_of_ne_zero hnr
  unfold nodeCall
  dsimp only
  rw [hn, List.replicate_succ, List.head?_cons]

end NodeCall

/-! ## The lanes of a topology -/

section LanesStand

variable (config : TopologyConfig K) (resolved : ResolvedTopology)

/-- **Every lane stands** in its physical link, prepared, and in the relation `R` to it. -/
structure LanesStand (R : LaneConfig → ModelConfig K → LinkState K → PhysicalLinkRuntime K → Prop)
    (p : CpuChannelProcessor K) : Prop where
  lanes : ∀ lane ∈ resolved.lanes, ∀ model, config.findModel lane.modelId = some model →
    ∃ st link, p.states lane.key = some st ∧ st.link = lane.physicalLinkKey ∧
      st.steps.length = model.chain.length ∧ p.links lane.physicalLinkKey = some link ∧
      R lane model st link
  rows : ∀ node ∈ resolved.nodes, (rowModel config node).isSome = true →
    ∀ r < node.rxPorts.length, ∃ st,
      p.states (rxStateKey node.id r node.rxPorts.length) = some st ∧
        st.link ∉ (nodeLanes config resolved node).map (·.physicalLinkKey)
  owned : AllOwned config resolved p

variable {config resolved}
  {R R' : LaneConfig → ModelConfig K → LinkState K → PhysicalLinkRuntime K → Prop}
  {p q : CpuChannelProcessor K}

omit [Field K] [LinearOrder K] in
/-- A publication on the links of the topology. -/
theorem LanesStand.publish (h : LanesStand config resolved R p)
    (hR : ∀ lane model st link ps, R lane model st link →
      R lane model st (LinkTable.publishTo lane.physicalLinkKey ps link))
    (ps : List (Publication K)) :
    LanesStand config resolved R { p with links := p.links.publishAll ps } := by
  refine ⟨?_, h.rows, ?_⟩
  · intro lane hlane model hmodel
    obtain ⟨st, link, hst, hk, hlen, hlink, hrel⟩ := h.lanes lane hlane model hmodel
    refine ⟨st, _, hst, hk, hlen, ?_, hR lane model st link ps hrel⟩
    dsimp only
    rw [LinkTable.publishAll_apply, hlink, Option.map_some]
  · intro node hnode
    refine ⟨(h.owned node hnode).states, ?_⟩
    intro k hk
    obtain ⟨link, hlink⟩ := (h.owned node hnode).links k hk
    dsimp only
    rw [LinkTable.publishAll_apply, hlink]
    exact ⟨_, rfl⟩

variable (hresolved : resolveTopology config = .ok resolved) (hkeys : KeysDistinct config resolved)
  (hnodes : (resolved.nodes.map (·.id)).Nodup)
  {node : ResolvedNode} (hnode : node ∈ resolved.nodes) {samples : LaneConfig → List (Iq K)}
  {count : ℕ}

omit [Field K] [LinearOrder K] hnodes in
theorem mem_laneLinks (h : LanesStand config resolved R p) {k : String} :
    k ∈ laneLinks p (nodeInputs config resolved node samples) ↔
      k ∈ (nodeLanes config resolved node).map (·.physicalLinkKey) := by
  rw [List.mem_map]
  constructor
  · rintro ⟨input, hinput, st, hst, rfl⟩
    obtain ⟨lane, hlane, rfl⟩ := List.mem_map.mp hinput
    obtain ⟨hmem, -, hsome⟩ := mem_nodeLanes.mp hlane
    obtain ⟨model, hmodel⟩ := Option.isSome_iff_exists.mp hsome
    obtain ⟨st', link, hst', hk, -⟩ := h.lanes lane hmem model hmodel
    obtain rfl := Option.some.inj (hst.symm.trans hst')
    exact ⟨lane, hlane, hk.symm⟩
  · rintro ⟨lane, hlane, rfl⟩
    obtain ⟨hmem, -, hsome⟩ := mem_nodeLanes.mp hlane
    obtain ⟨model, hmodel⟩ := Option.isSome_iff_exists.mp hsome
    obtain ⟨st, link, hst, hk, -⟩ := h.lanes lane hmem model hmodel
    exact ⟨_, List.mem_map_of_mem hlane, st, hst, hk⟩

include hkeys

omit [Field K] [LinearOrder K] in
/-- The lanes of a node are ready for its call. -/
theorem LanesStand.ready (h : LanesStand config resolved R p) :
    LanesReady p (nodeInputs config resolved node samples) where
  nodup := by
    rw [nodeInputs_keys]
    exact hkeys.lanes.sublist (List.filter_sublist.map _)
  ready input hinput := by
    obtain ⟨lane, hlane, rfl⟩ := List.mem_map.mp hinput
    obtain ⟨hmem, -, hsome⟩ := mem_nodeLanes.mp hlane
    obtain ⟨model, hmodel⟩ := Option.isSome_iff_exists.mp hsome
    obtain ⟨st, link, hst, hk, hlen, hlink, -⟩ := h.lanes lane hmem model hmodel
    exact ⟨model, st, link, hmodel, hst, hlen, hk ▸ hlink⟩

include hnode

omit [Field K] [LinearOrder K] in
/-- The rows of the node stand apart from its lanes. -/
theorem LanesStand.rowsApart (h : LanesStand config resolved R p)
    (hrow : (rowModel config node).isSome = true) :
    RowsApart p (nodeInputs config resolved node samples) node.id node.rxPorts.length where
  keys r hr hmem := by
    rw [nodeInputs_keys] at hmem
    exact hkeys.lanesApart _ (mem_rowKeys.mpr ⟨node, hnode, r, hr, rfl⟩)
      ((List.filter_sublist.map _).subset hmem)
  links r hr := by
    obtain ⟨st, hst, hlink⟩ := h.rows node hnode hrow r hr
    exact ⟨st, hst, fun hmem => hlink ((mem_laneLinks h).mp hmem)⟩

include hresolved hnodes

omit hnodes in
/-- A call of the node leaves the lanes of the other nodes alone. -/
theorem LanesStand.serve_other [Rng K] [Libm K] [FloorRing K] (h : LanesStand config resolved R p)
    {rows : List (List (Iq K))}
    (hserve : p.serve (nodeCall config resolved node samples count) = .ok (q, rows))
    {lane : LaneConfig} (hlane : lane ∈ resolved.lanes) (hto : lane.dstNode ≠ node.id)
    (hmodel : (config.findModel lane.modelId).isSome = true) :
    q.states lane.key = p.states lane.key ∧
      q.links lane.physicalLinkKey = p.links lane.physicalLinkKey := by
  obtain ⟨-, hbeside⟩ := serve_frame (h.owned node hnode) (nodeCall_madeFor.within hnode) hserve
  obtain ⟨other, hother, hid⟩ : ∃ other ∈ resolved.nodes, other.id = lane.dstNode := by
    obtain ⟨i, l, src, dst, hl, r, -, t, -, -, rfl⟩ := ((lanes_spec hresolved).2 lane).mp hlane
    rw [resolveTopology_nodes hresolved]
    exact ⟨dst, List.mem_of_find?_eq_some hl.2.2, rfl⟩
  have hne : node.id ≠ other.id := fun heq => hto (hid.symm.trans heq.symm)
  have hof : LaneOf config resolved other lane := ⟨hlane, hid.symm, hmodel⟩
  constructor
  · refine hbeside.states _ fun hmem => ?_
    exact Set.disjoint_left.mp (nodeStates_disjoint hkeys hne) hmem
      (.inl ⟨lane, hof, rfl⟩)
  · refine hbeside.links _ fun hmem => ?_
    exact Set.disjoint_left.mp (nodeLinks_disjoint hresolved hkeys hne) hmem
      (.inl ⟨lane, hof, rfl⟩)

/-- **One slot of a node.** -/
theorem LanesStand.serve [Rng K] [Libm K] [FloorRing K] (h : LanesStand config resolved R p) (hpos : count ≠ 0)
    {rows : List (List (Iq K))}
    (hserve : p.serve (nodeCall config resolved node samples count) = .ok (q, rows))
    (hown : ∀ lane ∈ nodeLanes config resolved node, ∀ model st link steps fading,
      config.findModel lane.modelId = some model → p.states lane.key = some st →
      p.links lane.physicalLinkKey = some link → R lane model st link →
      SameRings steps (CpuChannelProcessor.refreshLane (link.slotSnap count).1
        (link.slotSnap count).2 st).steps →
      R' lane model
        { CpuChannelProcessor.refreshLane (link.slotSnap count).1 (link.slotSnap count).2 st with
          steps := steps }
        { (link.slotSnap count).1 with
          fading := fading, slotStartSamples := link.slotStartSamples + count })
    (hother : ∀ lane ∈ resolved.lanes, lane.dstNode ≠ node.id → ∀ model st link,
      R lane model st link → R' lane model st link) :
    LanesStand config resolved R' q := by
  have howned : AllOwned config resolved q :=
    h.owned.serve hresolved hkeys hnode nodeCall_madeFor hserve
  have hready : LanesReady p (nodeCall config resolved node samples count).inputs := h.ready hkeys
  have hrows : (nodeCall config resolved node samples count).rxModel.isSome = true →
      RowsApart p (nodeCall config resolved node samples count).inputs node.id
        (nodeCall config resolved node samples count).rowSizes.length := by
    intro hrow
    rw [nodeCall_rows]
    exact h.rowsApart hkeys hnode hrow
  have hspec (hnr : node.rxPorts.length ≠ 0) :=
    serve_spec hready (nodeCall_head hnr) hpos hrows hserve
  refine ⟨?_, ?_, howned⟩
  · intro lane hlane model hmodel
    have hsome : (config.findModel lane.modelId).isSome = true := by
      rw [hmodel]
      rfl
    obtain ⟨st, link, hst, hk, hlen, hlink, hrel⟩ := h.lanes lane hlane model hmodel
    -- a lane of the called node went through the slot, every other lane is untouched
    by_cases hto : lane.dstNode = node.id
    · have hmem : lane ∈ nodeLanes config resolved node := mem_nodeLanes.mpr ⟨hlane, hto, hsome⟩
      have hnr := nodeLanes_rxPort hresolved hnodes hnode lane hmem
      obtain ⟨⟨steps, hstate, hrings⟩, fading, hlinkEq⟩ :=
        (hspec (by omega)).1 _ (List.mem_map_of_mem hmem) st link hst (hk.symm ▸ hlink)
      rw [hk] at hlinkEq
      refine ⟨_, _, hstate, ?_, ?_, hlinkEq,
        hown lane hmem model st link steps fading hmodel hst hlink hrel hrings⟩
      · dsimp only
        rw [refreshLane_link, hk]
      · dsimp only
        rw [hrings.length, refreshLane_steps_length, hlen]
    · obtain ⟨hstates, hlinks⟩ :=
        h.serve_other hresolved hkeys hnode hserve hlane hto hsome
      exact ⟨st, link, hstates.trans hst, hk, hlen, hlinks.trans hlink,
        hother lane hlane hto model st link hrel⟩
  · intro other hmem hrow r hr
    by_cases hid : other.id = node.id
    -- a row of the called node keeps its own link, which no lane of the call has
    · obtain rfl := List.inj_on_of_nodup_map hnodes hmem hnode hid
      have hr' : r < (nodeCall config resolved other samples count).rowSizes.length := by
        rwa [nodeCall_rows]
      obtain ⟨st, hst, hlink⟩ := (hspec (by omega)).2 hrow r hr'
      rw [nodeCall_rows] at hst
      exact ⟨st, hst, fun hin => hlink ((mem_laneLinks h).mpr hin)⟩
    · obtain ⟨st, hst, hlink⟩ := h.rows other hmem hrow r hr
      refine ⟨st, ?_, hlink⟩
      rw [← hst]
      refine (serve_frame (h.owned node hnode) (nodeCall_madeFor.within hnode) hserve).2.states _ ?_
      intro hin
      refine Set.disjoint_left.mp (nodeStates_disjoint hkeys (Ne.symm hid)) hin ?_
      exact .inr ⟨other, hmem, rfl, hrow, r, hr, rfl⟩

omit hnodes hnode

/-- **`prepare` puts every lane in its place.** -/
theorem prepare_stand [Rng K] [Libm K] [FloorRing K] {L : String → PhysicalLinkRuntime K → Prop} (hkept : LinksKept config resolved L)
    (hR : ∀ lane ∈ resolved.lanes, ∀ model link, config.findModel lane.modelId = some model →
      L lane.physicalLinkKey link → R lane model (ensuredState lane.key model lane.identity none) link)
    (hprepare : CpuChannelProcessor.prepare config = .ok p) : LanesStand config resolved R p := by
  have hprepared := prepare_preparedBy hresolved hkeys hkept hprepare
  have howned : AllOwned config resolved p :=
    fun node hnode => prepare_owned hresolved hkeys hprepare hnode
  refine ⟨?_, ?_, howned⟩
  · intro lane hlane model hmodel
    have hst := prepare_state hresolved hkeys hprepare (Prepares.lane hlane hmodel)
    obtain ⟨node, hnode, hid⟩ : ∃ node ∈ resolved.nodes, node.id = lane.dstNode := by
      obtain ⟨i, l, src, dst, hl, r, -, t, -, -, rfl⟩ := ((lanes_spec hresolved).2 lane).mp hlane
      rw [resolveTopology_nodes hresolved]
      exact ⟨dst, List.mem_of_find?_eq_some hl.2.2, rfl⟩
    obtain ⟨link, hlink⟩ := (howned node hnode).links lane.physicalLinkKey
      (.inl ⟨lane, ⟨hlane, hid.symm, by rw [hmodel]; rfl⟩, rfl⟩)
    exact ⟨_, link, hst, ensuredState_link .., ensuredState_length .., hlink,
      hR lane hlane model link hmodel (hprepared.links _ _ hlink)⟩
  · intro node hnode hrow r hr
    obtain ⟨model, hmodel⟩ := Option.isSome_iff_exists.mp hrow
    refine ⟨_, prepare_state hresolved hkeys hprepare (Prepares.row hnode hmodel hr), ?_⟩
    rw [ensuredState_link]
    intro hmem
    obtain ⟨lane, hlane, heq⟩ := List.mem_map.mp hmem
    refine hkeys.linksApart _ (mem_rowKeys.mpr ⟨node, hnode, r, hr, rfl⟩) ?_
    dsimp only at heq
    rw [← heq]
    exact physicalLinkKey_mem hresolved (mem_nodeLanes.mp hlane).1

end LanesStand

end NodeSlots
