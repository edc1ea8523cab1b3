/-
# One table, three consumers

The broker hands a node the lanes of the table that end there, in the order of the table.
The CUDA backend prepares its rows, edges and sources from the same lanes, so that every
check it makes at run time holds.
-/
import GpuChannel.LaneTable
import GpuChannel.RationalScalars

section Agreement

variable {K : Type} [Field K] [LinearOrder K] [Libm K] {config : TopologyConfig K}
  {resolved : ResolvedTopology} {links : List (LaneRuntime K)} {n : ℕ} {node : ResolvedNode}

/-! ## The broker's side -/

/-- The number of a node that is found. -/
theorem nodeIndex_eq_ok {id : String} (h : nodeIndex resolved id = .ok n) :
    ∃ found : ResolvedNode, resolved.nodes[n]? = some found ∧ found.id = id := by
  unfold nodeIndex at h
  cases hfind : resolved.nodes.findIdx? (·.id = id) with
  | none =>
      rw [hfind] at h
      cases h
  | some m =>
      rw [hfind] at h
      cases h
      obtain ⟨hlt, hid, -⟩ := List.findIdx?_eq_some_iff_getElem.mp hfind
      exact ⟨_, List.getElem?_eq_getElem hlt, of_decide_eq_true hid⟩

omit [Field K] [LinearOrder K] [Libm K] in
/-- The number of a port that is found. -/
theorem resolvePort_eq_ok {id : String} (h : resolvePort config id = .ok n) :
    ∃ device : DeviceConfig K, config.devices[n]? = some device ∧ device.id = id := by
  unfold resolvePort at h
  cases hfind : config.devices.findIdx? (·.id = id) with
  | none =>
      rw [hfind] at h
      cases h
  | some m =>
      rw [hfind] at h
      cases h
      obtain ⟨hlt, hid, -⟩ := List.findIdx?_eq_some_iff_getElem.mp hfind
      exact ⟨_, List.getElem?_eq_getElem hlt, of_decide_eq_true hid⟩

/-- A `LinkRuntime` and the lane that it was built from. -/
structure BuiltFrom (config : TopologyConfig K) (resolved : ResolvedTopology)
    (link : LaneRuntime K) (lane : LaneConfig) : Prop where
  key : link.key = lane.key
  rxPort : link.rxPort = lane.rxPort
  txPort : link.txPort = lane.txPort
  physicalKey : link.physicalKey = lane.physicalLinkKey
  model : config.findModel lane.modelId = some link.model
  dstNode : nodeIndex resolved lane.dstNode = .ok link.dstNode
  source : resolvePort config lane.srcDevice = .ok link.srcIndex

omit [Field K] [LinearOrder K] [Libm K] in
/-- A lane of the broker is built from its entry of the table. -/
theorem builtFrom_of_ok {link : LaneRuntime K} {lane : LaneConfig}
    (h : brokerLink config resolved lane = .ok link) : BuiltFrom config resolved link lane := by
  unfold brokerLink at h
  cases hmodel : config.findModel lane.modelId with
  | none =>
      rw [hmodel] at h
      cases h
  | some model =>
      rw [hmodel] at h
      obtain ⟨src, -, h⟩ := bind_eq_ok h
      obtain ⟨dst, hdst, h⟩ := bind_eq_ok h
      obtain ⟨source, hsource, h⟩ := bind_eq_ok h
      obtain ⟨dstIndex, -, h⟩ := bind_eq_ok h
      cases h
      exact ⟨rfl, rfl, rfl, rfl, hmodel, hdst, hsource⟩

omit [Field K] [LinearOrder K] [Libm K] in
/-- With distinct node ids, an index stands for one id. -/
theorem BuiltFrom.dstNode_eq_iff {link : LaneRuntime K} {lane : LaneConfig}
    (h : BuiltFrom config resolved link lane) (hnodes : (resolved.nodes.map (·.id)).Nodup)
    (hn : resolved.nodes[n]? = some node) : link.dstNode = n ↔ lane.dstNode = node.id := by
  obtain ⟨found, hfound, hid⟩ := nodeIndex_eq_ok h.dstNode
  constructor
  · rintro rfl
    rw [← hid, Option.some.inj (hfound.symm.trans hn)]
  · intro heq
    have hleft : (resolved.nodes.map (·.id))[link.dstNode]? = some node.id := by
      rw [List.getElem?_map, hfound, Option.map_some, hid, heq]
    have hright : (resolved.nodes.map (·.id))[n]? = some node.id := by
      rw [List.getElem?_map, hn, Option.map_some]
    exact (List.getElem?_inj (List.getElem?_eq_some_iff.mp hleft).1 hnodes).mp
      (hleft.trans hright.symm)

omit [Field K] [LinearOrder K] [Libm K] in
/-- Two lanes read one port exactly when they have one source device. -/
theorem BuiltFrom.source_eq_iff {a b : LaneRuntime K} {x y : LaneConfig}
    (ha : BuiltFrom config resolved a x) (hb : BuiltFrom config resolved b y) :
    a.srcIndex = b.srcIndex ↔ x.srcDevice = y.srcDevice := by
  constructor
  · intro heq
    obtain ⟨d, hd, hx⟩ := resolvePort_eq_ok ha.source
    obtain ⟨e, he, hy⟩ := resolvePort_eq_ok hb.source
    rw [heq] at hd
    rw [← hx, ← hy, Option.some.inj (hd.symm.trans he)]
  · intro heq
    have hsource := ha.source
    rw [heq] at hsource
    exact Except.ok.inj (hsource.symm.trans hb.source)

omit [Field K] [LinearOrder K] [Libm K] in
/-- **The node's inputs are its lanes**, in the order of the table. -/
theorem superposition_built (hlinks : brokerLinks config resolved = .ok links)
    (hnodes : (resolved.nodes.map (·.id)).Nodup) (hn : resolved.nodes[n]? = some node) :
    List.Forall₂ (BuiltFrom config resolved) (superposition links n)
      (nodeLanes config resolved node) := by
  have hall : List.Forall₂ (BuiltFrom config resolved) links resolved.lanes :=
    (mapM_eq_ok hlinks).imp fun _ _ => builtFrom_of_ok
  have hsuper : superposition links n = links.filter fun link => decide (link.dstNode = n) :=
    Tables.filterMap_positions links _
  rw [hsuper]
  refine List.rel_filter ?_ hall
  intro link lane hlane
  have hmodel : (config.findModel lane.modelId).isSome = true := by
    rw [hlane.model]
    rfl
  simp [hlane.dstNode_eq_iff hnodes hn, hmodel]

/-! ## The backend's side -/

omit [Field K] [LinearOrder K] [Libm K] in
/-- The lanes of a node are the lanes that end there, with a known model. -/
theorem mem_nodeLanes {lane : LaneConfig} : lane ∈ nodeLanes config resolved node ↔
    lane ∈ resolved.lanes ∧ lane.dstNode = node.id ∧ (config.findModel lane.modelId).isSome := by
  simp [nodeLanes]

omit [Field K] [LinearOrder K] [Libm K] in
/-- The rows of a node are in order. -/
theorem nodeLanes_sorted (htable : resolved.lanes.Pairwise TableOrder) :
    ((nodeLanes config resolved node).map (·.rxPort)).Pairwise (· ≤ ·) := by
  rw [List.pairwise_map]
  refine (List.pairwise_iff_forall_sublist.mpr ?_)
  intro a b hab
  have ha := (mem_nodeLanes.mp (hab.subset (by simp : a ∈ [a, b]))).2.1
  have hb := (mem_nodeLanes.mp (hab.subset (by simp : b ∈ [a, b]))).2.1
  have horder : TableOrder a b :=
    List.pairwise_iff_forall_sublist.mp htable (hab.trans List.filter_sublist)
  rcases horder with hlt | ⟨-, hlt | ⟨heq, -⟩⟩
  · exact absurd (ha.trans hb.symm) hlt.ne
  · exact hlt.le
  · exact heq.le

omit [Field K] [LinearOrder K] [Libm K] in
/-- Every lane of a node has a slot. -/
theorem edges_eq (hn : node ∈ resolved.nodes) :
    (nodeLanes config resolved node).filter (fun lane => lane.key ∈ linkSlots config resolved) =
      nodeLanes config resolved node := by
  rw [List.filter_eq_self]
  intro lane hlane
  obtain ⟨hmem, hdst, hmodel⟩ := mem_nodeLanes.mp hlane
  rw [decide_eq_true_iff]
  refine List.mem_map.mpr ⟨lane, List.mem_filter.mpr ⟨hmem, ?_⟩, rfl⟩
  simp only [hmodel, true_and, decide_eq_true_eq, List.any_eq_true]
  exact ⟨node, hn, hdst.symm⟩

/-- The counting pass counts. -/
theorem countRows_from {rows : ℕ} {lanes : List LaneConfig} (h : ∀ lane ∈ lanes, lane.rxPort < rows)
    (count : ℕ → ℕ) :
    lanes.foldlM (fun perRow lane =>
      if rows ≤ lane.rxPort then
        (throw ("lane rx_port is outside the node's RX ports: " ++ lane.key) : Except String _)
      else pure (perRow.modify lane.rxPort (· + 1))) ((List.range rows).map count) =
      .ok ((List.range rows).map fun r => count r + (lanes.map (·.rxPort)).count r) := by
  induction lanes generalizing count with
  | nil => rfl
  | cons lane lanes ih =>
      have hlane := h lane List.mem_cons_self
      have hmodify : ((List.range rows).map count).modify lane.rxPort (· + 1) =
          (List.range rows).map fun r => count r + if lane.rxPort = r then 1 else 0 := by
        refine List.ext_getElem (by simp) ?_
        intro r hr hr'
        rw [List.getElem_modify, List.getElem_map, List.getElem_map, List.getElem_range]
        split_ifs with heq <;> rfl
      rw [List.foldlM_cons, if_neg (Nat.not_le.mpr hlane), pure_bind, hmodify,
        ih fun l hl => h l (List.mem_cons_of_mem lane hl)]
      congr 1
      refine List.map_congr_left ?_
      intro r _
      rw [List.map_cons, List.count_cons]
      simp only [beq_iff_eq]
      omega

/-- Counting the lanes of each row succeeds if every row is there. -/
theorem countRows_eq {rows : ℕ} {lanes : List LaneConfig}
    (h : ∀ lane ∈ lanes, lane.rxPort < rows) :
    countRows rows lanes = .ok ((List.range rows).map ((lanes.map (·.rxPort)).count ·)) := by
  have hzero : List.replicate rows 0 = (List.range rows).map fun _ => 0 := by
    simp [List.map_const']
  rw [countRows, hzero, countRows_from h]
  simp only [Nat.zero_add]

/-! ## The agreement -/

/-- What the backend prepares for a node, over the node's lanes. -/
def preparedRows (lanes : List LaneConfig) (rows : ℕ) : SuperposeState :=
  { rows := rows
    maxLinks := lanes.length
    rowBegin := (List.range (rows + 1)).map fun r => (lanes.map (·.rxPort)).countP (· < r)
    edges := lanes
    sources := (lanes.map (·.srcDevice)).foldl Tables.Numbering.visit
      (Tables.Numbering.empty String) }

omit [Field K] [LinearOrder K] [Libm K] in
/-- Preparing the rows of a node succeeds. -/
theorem prepareNodeRows_eq (hn : node ∈ resolved.nodes)
    (hports : ∀ lane ∈ nodeLanes config resolved node, lane.rxPort < node.rxPorts.length)
    (hne : nodeLanes config resolved node ≠ []) :
    prepareNodeRows config resolved node =
      .ok (some (preparedRows (nodeLanes config resolved node) (max 1 node.rxPorts.length))) := by
  have hrows : ∀ lane ∈ nodeLanes config resolved node,
      lane.rxPort < max 1 node.rxPorts.length :=
    fun lane hlane => (hports lane hlane).trans_le (le_max_right _ _)
  unfold prepareNodeRows
  dsimp only
  rw [if_neg (by simpa using hne), countRows_eq hrows, edges_eq hn]
  rw [preparedRows, ← Tables.scanl_count]
  rfl

/-- **Agreement** of the inputs of a node with what the backend prepared for it: the edges are
the inputs, every row is a range of inputs, two inputs share a source number exactly when they
share a port, the staged edge of a source is its first input, and no check fails. -/
structure Agrees (links : List (LaneRuntime K)) (n : ℕ) (sp : SuperposeState) : Prop where
  edges : List.Forall₂ (fun link lane => link.key = lane.key ∧ link.rxPort = lane.rxPort ∧
    link.txPort = lane.txPort ∧ link.physicalKey = lane.physicalLinkKey)
    (superposition links n) sp.edges
  rows : ∀ (k r : ℕ) (a : LaneRuntime K), (superposition links n)[k]? = some a →
    (a.rxPort = r ↔ sp.rowBegin.getD r 0 ≤ k ∧ k < sp.rowBegin.getD (r + 1) 0)
  sources : ∀ (j k : ℕ) (a b : LaneRuntime K), (superposition links n)[j]? = some a →
    (superposition links n)[k]? = some b →
      (sp.sources.numbers[j]? = sp.sources.numbers[k]? ↔ a.srcIndex = b.srcIndex)
  first : ∀ (j : ℕ) (a : LaneRuntime K), (superposition links n)[j]? = some a →
    ∃ s k b, sp.sources.numbers[j]? = some s ∧ sp.sources.first[s]? = some k ∧
      (superposition links n)[k]? = some b ∧ b.srcIndex = a.srcIndex ∧
      ∀ i < k, ∀ c, (superposition links n)[i]? = some c → c.srcIndex ≠ a.srcIndex
  checks : ∀ dstKey, checkInputs sp dstKey ((superposition links n).map (·.rxPort)) = .ok ()

/-- The first lane of a row is behind the lanes of the rows before it. -/
theorem rowBegin_getD (lanes : List LaneConfig) {rows r : ℕ} (hr : r ≤ rows) :
    (preparedRows lanes rows).rowBegin.getD r 0 = (lanes.map (·.rxPort)).countP (· < r) := by
  rw [preparedRows, List.getD_eq_getElem?_getD, List.getElem?_map,
    List.getElem?_range (Nat.lt_succ_of_le hr)]
  rfl

/-- **Rows are ranges.** -/
theorem rowBegin_spec {lanes : List LaneConfig} {rows : ℕ}
    (hsorted : (lanes.map (·.rxPort)).Pairwise (· ≤ ·)) (hrows : ∀ lane ∈ lanes, lane.rxPort < rows)
    {k : ℕ} {lane : LaneConfig} (hk : lanes[k]? = some lane) (r : ℕ) :
    lane.rxPort = r ↔ (preparedRows lanes rows).rowBegin.getD r 0 ≤ k ∧
      k < (preparedRows lanes rows).rowBegin.getD (r + 1) 0 := by
  have hport := hrows lane (List.mem_of_getElem? hk)
  obtain ⟨hlt, hget⟩ := List.getElem?_eq_some_iff.mp hk
  rcases Nat.lt_or_ge r rows with hr | hr
  · rw [rowBegin_getD lanes hr.le, rowBegin_getD lanes hr,
      ← Tables.getElem_eq_iff hsorted r (by simpa using hlt), List.getElem_map, hget]
  · have hlast : (preparedRows lanes rows).rowBegin.getD (r + 1) 0 = 0 := by
      rw [List.getD_eq_getElem?_getD, List.getElem?_eq_none]
      · rfl
      · simpa [preparedRows] using hr
    rw [hlast]
    omega

/-- **No check fails** on the lanes that the rows were prepared from. -/
theorem checkInputs_prepared {lanes : List LaneConfig} {rows : ℕ}
    (hsorted : (lanes.map (·.rxPort)).Pairwise (· ≤ ·)) (hrows : ∀ lane ∈ lanes, lane.rxPort < rows)
    (dstKey : String) :
    checkInputs (preparedRows lanes rows) dstKey (lanes.map (·.rxPort)) = .ok () := by
  have hports : ∀ p ∈ lanes.map (·.rxPort), p < rows := by
    simpa using hrows
  have hcount : (preparedRows lanes rows).rowBegin.getLast? =
      some (lanes.map (·.rxPort)).length := by
    rw [preparedRows, List.range_succ, List.map_append, List.map_singleton, List.getLast?_concat,
      Tables.countP_lt_of_bound hports]
  -- a row's range holds the lanes of the row, because the lanes are sorted by row
  have hgrouped : ∀ r ∈ List.range rows, ∀ k ∈ List.range'
      ((preparedRows lanes rows).rowBegin.getD r 0)
      ((preparedRows lanes rows).rowBegin.getD (r + 1) 0 -
        (preparedRows lanes rows).rowBegin.getD r 0),
      (lanes.map (·.rxPort))[k]? = some r := by
    intro r hr k hk
    rw [List.mem_range] at hr
    rw [List.mem_range'_1] at hk
    have hk' : k < lanes.length := by
      have hle : (preparedRows lanes rows).rowBegin.getD (r + 1) 0 ≤ (lanes.map (·.rxPort)).length := by
        rw [rowBegin_getD lanes hr]
        exact List.countP_le_length
      rw [List.length_map] at hle
      omega
    have hlane := List.getElem?_eq_getElem hk'
    rw [List.getElem?_map, hlane, Option.map_some,
      (rowBegin_spec hsorted hrows hlane r).mpr (by omega)]
  have hfirst : ∀ k ∈ (preparedRows lanes rows).sources.first,
      k < (lanes.map (·.rxPort)).length := by
    intro k hk
    simpa using Tables.Numbering.first_lt_length _ k hk
  unfold checkInputs
  rw [if_neg (not_not_intro hcount)]
  -- so neither loop of the checks throws
  have hrowLoop : (List.range rows).forM (fun r =>
      (List.range' ((preparedRows lanes rows).rowBegin.getD r 0)
        ((preparedRows lanes rows).rowBegin.getD (r + 1) 0 -
          (preparedRows lanes rows).rowBegin.getD r 0)).forM fun k =>
        if (lanes.map (·.rxPort))[k]? ≠ some r then
          (throw ("CUDA superposition inputs are not grouped by rx_port: " ++ dstKey) :
            Except String PUnit)
        else pure ⟨⟩) = .ok ⟨⟩ := by
    refine forM_eq_ok fun r hr => forM_eq_ok fun k hk => ?_
    rw [if_neg (not_not_intro (hgrouped r hr k hk))]
    rfl
  have hfirstLoop : (preparedRows lanes rows).sources.first.forM (fun k =>
      if (lanes.map (·.rxPort)).length ≤ k then
        (throw "CUDA superposition: source_first_edge out of range" : Except String PUnit)
      else pure ⟨⟩) = .ok ⟨⟩ := by
    refine forM_eq_ok fun k hk => ?_
    rw [if_neg (Nat.not_le.mpr (hfirst k hk))]
    rfl
  have hcapacity : ¬ (preparedRows lanes rows).maxLinks < (lanes.map (·.rxPort)).length := by
    simp [preparedRows]
  rw [if_neg hcapacity]
  show ((List.range rows).forM _ >>= fun _ =>
    (preparedRows lanes rows).sources.first.forM _) = Except.ok PUnit.unit
  rw [hrowLoop]
  exact hfirstLoop

omit [Field K] [LinearOrder K] [Libm K] in
/-- **The consumers agree** about every node that has a lane. -/
theorem agrees_of_built {rows : ℕ} {lanes : List LaneConfig}
    (hbuilt : List.Forall₂ (BuiltFrom config resolved) (superposition links n) lanes)
    (hsorted : (lanes.map (·.rxPort)).Pairwise (· ≤ ·))
    (hrows : ∀ lane ∈ lanes, lane.rxPort < rows) : Agrees links n (preparedRows lanes rows) := by
  have hwalk := Tables.Numbering.correct_walk (lanes.map (·.srcDevice))
  have hlane : ∀ (k : ℕ) (a : LaneRuntime K), (superposition links n)[k]? = some a →
      ∃ lane, lanes[k]? = some lane ∧ BuiltFrom config resolved a lane :=
    fun k a ha => Tables.forall₂_getElem? hbuilt ha
  have hdevice : ∀ (k : ℕ) (lane : LaneConfig), lanes[k]? = some lane →
      (lanes.map (·.srcDevice))[k]? = some lane.srcDevice := by
    intro k lane hk
    rw [List.getElem?_map, hk, Option.map_some]
  constructor
  · exact hbuilt.imp fun a lane h => ⟨h.key, h.rxPort, h.txPort, h.physicalKey⟩
  · intro k r a ha
    obtain ⟨lane, hk, hfrom⟩ := hlane k a ha
    rw [hfrom.rxPort]
    exact rowBegin_spec hsorted hrows hk r
  · intro j k a b ha hb
    obtain ⟨x, hx, hax⟩ := hlane j a ha
    obtain ⟨y, hy, hby⟩ := hlane k b hb
    rw [hax.source_eq_iff hby]
    exact hwalk.numbers_eq_iff (hdevice j x hx) (hdevice k y hy)
  · intro j a ha
    obtain ⟨x, hx, hax⟩ := hlane j a ha
    obtain ⟨s, hs⟩ := Option.isSome_iff_exists.mp
      ((hwalk.known x.srcDevice).mpr (List.mem_of_getElem? (hdevice j x hx)))
    obtain ⟨k, hfirst, hat, hbefore⟩ := hwalk.first x.srcDevice s hs
    -- the first position of the device is an input that reads the same port
    have hk : k < (superposition links n).length := by
      rw [hbuilt.length_eq]
      simpa using (List.getElem?_eq_some_iff.mp hat).1
    obtain ⟨y, hy, hby⟩ := hlane k _ (List.getElem?_eq_getElem hk)
    have hsame : y.srcDevice = x.srcDevice :=
      Option.some.inj ((hdevice k y hy).symm.trans hat)
    refine ⟨s, k, _, ?_, hfirst, List.getElem?_eq_getElem hk, (hby.source_eq_iff hax).mpr hsame, ?_⟩
    · rw [← hs]
      exact hwalk.numbers j _ (hdevice j x hx)
    · intro i hi c hc hsrc
      obtain ⟨z, hz, hcz⟩ := hlane i c hc
      refine hbefore i hi ?_
      rw [hdevice i z hz, (hcz.source_eq_iff hax).mp hsrc]
  · intro dstKey
    have hports : (superposition links n).map (·.rxPort) = lanes.map (·.rxPort) := by
      refine List.forall₂_eq_eq_eq ▸ ?_
      rw [List.forall₂_map_left_iff, List.forall₂_map_right_iff]
      exact hbuilt.imp fun a lane h => h.rxPort
    rw [hports]
    exact checkInputs_prepared hsorted hrows dstKey

/-! ## Accepted configurations -/

/-- An accepted configuration with ports on its links resolves. -/
theorem resolveTopology_ok (h : Accepted config) (hports : PortsOnLinks config) :
    ∃ resolved, resolveTopology config = .ok resolved := by
  have hlinks : ∀ link ∈ config.links, ∃ src dst,
      (resolveNodes config).find? (·.id = link.fromNode) = some src ∧
      (resolveNodes config).find? (·.id = link.toNode) = some dst ∧
      src.txPorts ≠ [] ∧ dst.rxPorts ≠ [] := by
    intro link hlink
    obtain ⟨hsrc, hdst, -⟩ := h.link hlink
    obtain ⟨src, hsrc⟩ := find_node hsrc
    obtain ⟨dst, hdst⟩ := find_node hdst
    obtain ⟨index, hindex⟩ := List.getElem?_of_mem hlink
    obtain ⟨htx, hrx⟩ := hports index link src dst ⟨hindex, hsrc, hdst⟩
    exact ⟨src, dst, hsrc, hdst, htx, hrx⟩
  obtain ⟨lanes, hlanes⟩ := expandLinks_ok config hlinks 0
  refine ⟨⟨resolveNodes config, lanes.insertionSort laneOrder,
    groupLanes [] 0 (lanes.insertionSort laneOrder)⟩, ?_⟩
  unfold resolveTopology
  dsimp only
  rw [hlanes]
  rfl

omit [Libm K] in
/-- The lanes of a node end at its rows. -/
theorem nodeLanes_rxPort (h : resolveTopology config = .ok resolved)
    (hnodes : (resolved.nodes.map (·.id)).Nodup) (hn : node ∈ resolved.nodes) :
    ∀ lane ∈ nodeLanes config resolved node, lane.rxPort < node.rxPorts.length := by
  intro lane hlane
  obtain ⟨hmem, hdst, -⟩ := mem_nodeLanes.mp hlane
  obtain ⟨i, link, src, dst, hl, r, hr, t, -, -, rfl⟩ := ((lanes_spec h).2 lane).mp hmem
  have hdstMem : dst ∈ resolved.nodes := by
    obtain ⟨expanded, -, rfl⟩ := resolveTopology_eq_ok h
    exact List.mem_of_find?_eq_some hl.2.2
  have hsame : dst = node := List.inj_on_of_nodup_map hnodes hdstMem hn hdst
  rw [← hsame]
  exact hr

/-- **The lane table is exact**, and what the broker and the CUDA backend build from it agrees. -/
theorem lane_table_exact (config : TopologyConfig K) (hvalid : validateConfig config = [])
    (hkeys : (config.links.map linkKey).Nodup) (hports : PortsOnLinks config) :
    ∃ resolved, resolveTopology config = .ok resolved ∧ LaneTable config resolved ∧
      ∀ links, brokerLinks config resolved = .ok links →
        ∀ n node, resolved.nodes[n]? = some node →
          (superposition links n = [] ∧ prepareNodeRows config resolved node = .ok none) ∨
          ∃ sp, prepareNodeRows config resolved node = .ok (some sp) ∧ Agrees links n sp := by
  have haccepted := accepted_of_validate hvalid
  obtain ⟨resolved, hresolved⟩ := resolveTopology_ok haccepted hports
  refine ⟨resolved, hresolved, laneTable_of_resolve hresolved hkeys, ?_⟩
  intro links hlinks n node hn
  have hnodes : (resolved.nodes.map (·.id)).Nodup := by
    obtain ⟨expanded, -, rfl⟩ := resolveTopology_eq_ok hresolved
    exact haccepted.nodes_nodup
  have hmem := List.mem_of_getElem? hn
  have hbuilt := superposition_built hlinks hnodes hn
  have hrx := nodeLanes_rxPort hresolved hnodes hmem
  by_cases hne : nodeLanes config resolved node = []
  · left
    rw [hne] at hbuilt
    refine ⟨List.forall₂_nil_right_iff.mp hbuilt, ?_⟩
    unfold prepareNodeRows
    rw [hne]
    rfl
  · right
    refine ⟨_, prepareNodeRows_eq hmem hrx hne, ?_⟩
    refine agrees_of_built hbuilt (nodeLanes_sorted (lanes_spec hresolved).1) ?_
    exact fun lane hlane => (hrx lane hlane).trans_le (le_max_right _ _)

end Agreement

/-- Nodes with ports give links with ports. -/
theorem portsOnLinks_of_nodes {K : Type} [Field K] [LinearOrder K] [Libm K]
    {config : TopologyConfig K}
    (h : ∀ node ∈ resolveNodes config, node.txPorts ≠ [] ∧ node.rxPorts ≠ []) :
    PortsOnLinks config := by
  rintro index link src dst ⟨-, hsrc, hdst⟩
  exact ⟨(h src (List.mem_of_find?_eq_some hsrc)).1, (h dst (List.mem_of_find?_eq_some hdst)).2⟩

/-- Two links into a node with two rows; the first has a fixed matrix with one zero lane. -/
def fanInConfig : TopologyConfig ℚ :=
  { devices := [plainDevice "u0", plainDevice "u1", plainDevice "g0", plainDevice "g1"]
    radioNodes := [⟨"ue", ["u0", "u1"], ["u0", "u1"]⟩, ⟨"gnb", ["g0", "g1"], ["g0", "g1"]⟩]
    links := [plainLink "ue" "gnb" "matrix", plainLink "gnb" "gnb" "loss",
      plainLink "gnb" "ue" "loss"]
    models :=
      [("matrix",
        { id := "matrix"
          chain := [{ type := .tdl, taps := [⟨0, 0, 0, false, 0, 0⟩], tapsDeclared := true
                      fadingFDMaxHz := 0, fadingGridUs := 1 }]
          fixedMimo := [⟨0, 0, 0, 1, 0⟩, ⟨0, 1, 1, 1, 0⟩, ⟨0, 1, 0, 1, 0⟩]
          fixedMimoDeclared := true }),
       ("loss",
        { id := "loss"
          chain := [{ type := .pathLoss, params := [("path_loss_db", 3)]
                      fadingFDMaxHz := 0, fadingGridUs := 1 }] })] }

/-- The configuration with the clones of its fixed matrix. -/
def fanInLoaded : TopologyConfig ℚ :=
  match expandFixedMimoModels fanInConfig with
  | .ok config => config
  | .error _ => fanInConfig

theorem lane_table_exact_fanIn :
    ∃ resolved links node sp, resolveTopology fanInLoaded = .ok resolved ∧
      LaneTable fanInLoaded resolved ∧ brokerLinks fanInLoaded resolved = .ok links ∧
      resolved.nodes[1]? = some node ∧ superposition links 1 ≠ [] ∧
      prepareNodeRows fanInLoaded resolved node = .ok (some sp) ∧ Agrees links 1 sp := by
  have hports : ∀ node ∈ resolveNodes fanInLoaded, node.txPorts ≠ [] ∧ node.rxPorts ≠ [] := by
    decide +kernel
  obtain ⟨resolved, hresolved, htable, hagree⟩ :=
    lane_table_exact fanInLoaded (by decide +kernel) (by decide +kernel)
      (portsOnLinks_of_nodes hports)
  have hrun : ((resolveTopology fanInLoaded).toOption.any fun resolved =>
      (resolved.nodes[1]?).isSome && (brokerLinks fanInLoaded resolved).toOption.any fun links =>
        !(superposition links 1).isEmpty) = true := by
    decide +kernel
  rw [hresolved] at hrun
  obtain ⟨hnode, hlinks⟩ := (Bool.and_eq_true _ _).mp hrun
  obtain ⟨node, hnode⟩ := Option.isSome_iff_exists.mp hnode
  cases hbroker : brokerLinks fanInLoaded resolved with
  | error e =>
      rw [hbroker] at hlinks
      cases hlinks
  | ok links =>
      rw [hbroker] at hlinks
      have hne : superposition links 1 ≠ [] := by
        simpa [Except.toOption] using hlinks
      rcases hagree links hbroker 1 node hnode with ⟨hempty, -⟩ | ⟨sp, hsp, hagrees⟩
      · exact absurd hempty hne
      · exact ⟨resolved, links, node, sp, hresolved, htable, hbroker, hnode, hne, hsp, hagrees⟩
