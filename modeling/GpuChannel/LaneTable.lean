/-
# The lane table

`resolve_topology` lists every live lane of every link once, sorted by destination node and
row, and gives each link the positions of its lanes.  The broker and the CUDA backend
then build the same rows, edges and sources from it.
-/
import GpuChannel.Validation
import GpuChannel.LaneConsumers
import GpuChannel.Library.Checked

/-! ## The lanes of one link -/

section Lanes

variable {K : Type} [Field K] [LinearOrder K] [Libm K]

/-- The link's matrix has a coefficient that is not zero at `(r, t)`, or is not fixed. -/
def carries (config : TopologyConfig K) (link : LinkConfig K) (r t : ℕ) : Prop :=
  ∀ model, config.findModel link.model = some model → model.fixedMimoDeclared = true →
    ∃ c ∈ model.fixedMimo, c.rx = (r : ℤ) ∧ c.tx = (t : ℤ) ∧ (c.real ≠ 0 ∨ c.imag ≠ 0)

/-- **A live lane**: a port pair of the link at `index` whose signal is not fixed to zero. -/
def Live (config : TopologyConfig K) (index r t : ℕ) : Prop :=
  ∃ link src dst, config.links[index]? = some link ∧
    (resolveNodes config).find? (·.id = link.fromNode) = some src ∧
    (resolveNodes config).find? (·.id = link.toNode) = some dst ∧
    r < dst.rxPorts.length ∧ t < src.txPorts.length ∧ carries config link r t

/-- The lane `(r, t)` of a link between two nodes. -/
def laneAt (config : TopologyConfig K) (index : ℕ) (link : LinkConfig K) (src dst : ResolvedNode)
    (r t : ℕ) : LaneConfig :=
  { key := laneKey (linkKey link) r t src.txPorts.length dst.rxPorts.length
    srcNode := src.id
    dstNode := dst.id
    srcDevice := src.txPorts.getD t ""
    dstDevice := dst.rxPorts.getD r ""
    txPort := t
    rxPort := r
    nt := src.txPorts.length
    nr := dst.rxPorts.length
    modelId :=
      if ((config.findModel link.model).map (·.fixedMimoDeclared)).getD false then
        fixedMimoModelId link.model r t
      else link.model
    linkIndex := index
    physicalLinkKey := linkKey link }

/-- The order in which the lane loop emits. -/
def EmitOrder (a b : LaneConfig) : Prop :=
  a.linkIndex < b.linkIndex ∨ a.linkIndex = b.linkIndex ∧
    (a.rxPort < b.rxPort ∨ a.rxPort = b.rxPort ∧ a.txPort < b.txPort)

/-- **The order of the table**: destination node, row, link, column. -/
def TableOrder (a b : LaneConfig) : Prop :=
  a.dstNode < b.dstNode ∨ a.dstNode = b.dstNode ∧
    (a.rxPort < b.rxPort ∨ a.rxPort = b.rxPort ∧
      (a.linkIndex < b.linkIndex ∨ a.linkIndex = b.linkIndex ∧ a.txPort < b.txPort))

variable {config : TopologyConfig K} {index : ℕ} {link : LinkConfig K} {src dst : ResolvedNode}

omit [Libm K] in
/-- A zero lane of a fixed matrix is the one that is left out. -/
theorem carries_iff (r t : ℕ) : carries config link r t ↔
    ¬ (((config.findModel link.model).map (·.fixedMimoDeclared)).getD false = true ∧
      ¬ ((config.findModel link.model).map (fixedMimoLaneIsLive · r t)).getD false = true) := by
  unfold carries
  cases hmodel : config.findModel link.model with
  | none => simp
  | some model =>
      simp only [Option.map_some, Option.getD_some, Option.some.injEq, forall_eq', not_and,
        not_not, fixedMimoLaneIsLive, List.any_eq_true, decide_eq_true_eq]

omit [Libm K] in
/-- The lanes of a link, as one list. -/
theorem expandLink_eq : expandLink config index link src dst =
    (List.range dst.rxPorts.length).flatMap fun r => (List.range src.txPorts.length).filterMap fun t =>
      if ((config.findModel link.model).map (·.fixedMimoDeclared)).getD false = true ∧
          ¬ ((config.findModel link.model).map (fixedMimoLaneIsLive · r t)).getD false = true then
        none
      else some (laneAt config index link src dst r t) := rfl

omit [Libm K] in
/-- A lane of a link is one that the link carries. -/
theorem mem_expandLink {lane : LaneConfig} : lane ∈ expandLink config index link src dst ↔
    ∃ r < dst.rxPorts.length, ∃ t < src.txPorts.length, carries config link r t ∧
      lane = laneAt config index link src dst r t := by
  rw [expandLink_eq]
  simp only [List.mem_flatMap, List.mem_range, List.mem_filterMap]
  constructor
  · rintro ⟨r, hr, t, ht, hlane⟩
    split_ifs at hlane with hdead
    exact ⟨r, hr, t, ht, (carries_iff r t).mpr hdead, (Option.some.inj hlane).symm⟩
  · rintro ⟨r, hr, t, ht, hlive, rfl⟩
    refine ⟨r, hr, t, ht, ?_⟩
    rw [if_neg ((carries_iff r t).mp hlive)]

omit [Libm K] in
/-- The lanes of a link are emitted row by row. -/
theorem expandLink_pairwise : (expandLink config index link src dst).Pairwise EmitOrder := by
  rw [expandLink_eq, List.pairwise_flatMap]
  constructor
  · intro r hr
    rw [List.pairwise_filterMap]
    refine List.pairwise_lt_range.imp ?_
    intro t t' hlt a ha b hb
    split_ifs at ha hb
    rw [← Option.some.inj ha, ← Option.some.inj hb]
    exact Or.inr ⟨rfl, Or.inr ⟨rfl, hlt⟩⟩
  · refine List.pairwise_lt_range.imp ?_
    intro r r' hlt a ha b hb
    obtain ⟨t, -, ha⟩ := List.mem_filterMap.mp ha
    obtain ⟨t', -, hb⟩ := List.mem_filterMap.mp hb
    split_ifs at ha hb
    rw [← Option.some.inj ha, ← Option.some.inj hb]
    exact Or.inr ⟨rfl, Or.inl hlt⟩

/-! ## All links -/

/-- The link at an index, between its two nodes. -/
def LinkBetween (config : TopologyConfig K) (index : ℕ) (link : LinkConfig K)
    (src dst : ResolvedNode) : Prop :=
  config.links[index]? = some link ∧
    (resolveNodes config).find? (·.id = link.fromNode) = some src ∧
    (resolveNodes config).find? (·.id = link.toNode) = some dst

/-- Every link has a TX port on its source and an RX port on its destination. -/
def PortsOnLinks (config : TopologyConfig K) : Prop :=
  ∀ index link src dst, LinkBetween config index link src dst → src.txPorts ≠ [] ∧ dst.rxPorts ≠ []

/-- A node of the list is found by its id. -/
theorem find_node {nodes : List ResolvedNode} {id : String} (h : ∃ node ∈ nodes, node.id = id) :
    ∃ node, nodes.find? (·.id = id) = some node := by
  obtain ⟨node, hnode, hid⟩ := h
  exact Option.isSome_iff_exists.mp
    (List.find?_isSome.mpr ⟨node, hnode, decide_eq_true hid⟩)

omit [Field K] [LinearOrder K] [Libm K] in
/-- A link stands between one pair of nodes. -/
theorem LinkBetween.unique {link' : LinkConfig K} {src' dst' : ResolvedNode}
    (h : LinkBetween config index link src dst) (h' : LinkBetween config index link' src' dst') :
    link' = link ∧ src' = src ∧ dst' = dst := by
  obtain ⟨hlink, hsrc, hdst⟩ := h
  obtain ⟨hlink', hsrc', hdst'⟩ := h'
  have hl : link' = link := Option.some.inj (hlink'.symm.trans hlink)
  subst hl
  exact ⟨rfl, Option.some.inj (hsrc'.symm.trans hsrc), Option.some.inj (hdst'.symm.trans hdst)⟩

omit [Libm K] in
/-- The lane loop over the links from `index` on. -/
theorem expandLinks_spec {nodes : List ResolvedNode} {links : List (LinkConfig K)} {index : ℕ}
    {lanes : List LaneConfig} (h : expandLinks config nodes index links = .ok lanes) :
    lanes.Pairwise EmitOrder ∧ ∀ lane, lane ∈ lanes ↔ ∃ k link src dst, links[k]? = some link ∧
      nodes.find? (·.id = link.fromNode) = some src ∧
      nodes.find? (·.id = link.toNode) = some dst ∧
      lane ∈ expandLink config (index + k) link src dst := by
  induction links generalizing index lanes with
  | nil =>
      cases h
      simp
  | cons link links ih =>
      unfold expandLinks at h
      cases hsrc : nodes.find? (·.id = link.fromNode) with
      | none =>
          rw [hsrc] at h
          cases h
      | some src =>
          cases hdst : nodes.find? (·.id = link.toNode) with
          | none =>
              rw [hsrc, hdst] at h
              cases h
          | some dst =>
              rw [hsrc, hdst] at h
              dsimp only at h
              -- a link without ports on one side is refused
              split_ifs at h with hports
              · cases h
              obtain ⟨rest, hrest, h⟩ := bind_eq_ok h
              cases h
              obtain ⟨hpair, hmem⟩ := ih hrest
              constructor
              -- every lane of this link is emitted before those of the later links
              · rw [List.pairwise_append]
                refine ⟨expandLink_pairwise, hpair, ?_⟩
                intro a ha b hb
                obtain ⟨r, -, t, -, -, rfl⟩ := mem_expandLink.mp ha
                obtain ⟨k, l, s, d, -, -, -, hb⟩ := (hmem b).mp hb
                obtain ⟨r', -, t', -, -, rfl⟩ := mem_expandLink.mp hb
                exact Or.inl (by simp only [laneAt]; omega)
              · intro lane
                rw [List.mem_append, hmem]
                constructor
                -- this link, or one of the later ones at the next index
                · rintro (hlane | ⟨k, l, s, d, hl, hs, hd, hlane⟩)
                  · exact ⟨0, link, src, dst, rfl, hsrc, hdst, hlane⟩
                  · refine ⟨k + 1, l, s, d, hl, hs, hd, ?_⟩
                    rwa [← Nat.add_assoc, Nat.add_right_comm]
                · rintro ⟨k, l, s, d, hl, hs, hd, hlane⟩
                  cases k with
                  | zero =>
                      obtain rfl : link = l := Option.some.inj hl
                      rw [Option.some.inj (hsrc.symm.trans hs), Option.some.inj (hdst.symm.trans hd)]
                      exact Or.inl hlane
                  | succ k =>
                      refine Or.inr ⟨k, l, s, d, hl, hs, hd, ?_⟩
                      rwa [Nat.add_right_comm, Nat.add_assoc]

omit [Libm K] in
/-- Links between known nodes with ports are expanded. -/
theorem expandLinks_ok (config : TopologyConfig K) {nodes : List ResolvedNode} {links : List (LinkConfig K)}
    (h : ∀ link ∈ links, ∃ src dst, nodes.find? (·.id = link.fromNode) = some src ∧
      nodes.find? (·.id = link.toNode) = some dst ∧ src.txPorts ≠ [] ∧ dst.rxPorts ≠ [])
    (index : ℕ) : ∃ lanes, expandLinks config nodes index links = .ok lanes := by
  induction links generalizing index with
  | nil => exact ⟨[], rfl⟩
  | cons link links ih =>
      obtain ⟨src, dst, hsrc, hdst, htx, hrx⟩ := h link List.mem_cons_self
      obtain ⟨rest, hrest⟩ := ih (fun l hl => h l (List.mem_cons_of_mem link hl)) (index + 1)
      refine ⟨expandLink config index link src dst ++ rest, ?_⟩
      rw [expandLinks, hsrc, hdst]
      dsimp only
      rw [if_neg (by simp [htx, hrx]), hrest]
      rfl

/-! ## The sorted table -/

instance : Std.Total laneOrder := ⟨by
  intro a b
  rcases lt_trichotomy a.dstNode b.dstNode with h | h | h
  · exact Or.inl (Or.inl h)
  · rcases le_total a.rxPort b.rxPort with hr | hr
    · exact Or.inl (Or.inr ⟨h, hr⟩)
    · exact Or.inr (Or.inr ⟨h.symm, hr⟩)
  · exact Or.inr (Or.inl h)⟩

instance : IsTrans LaneConfig laneOrder := ⟨by
  intro a b c hab hbc
  rcases hab with hab | ⟨hab, habr⟩
  · rcases hbc with hbc | ⟨hbc, -⟩
    · exact Or.inl (hab.trans hbc)
    · exact Or.inl (hab.trans_eq hbc)
  · rcases hbc with hbc | ⟨hbc, hbcr⟩
    · exact Or.inl (hab.trans_lt hbc)
    · exact Or.inr ⟨hab.trans hbc, habr.trans hbcr⟩⟩

/-- The table orders by the sort key first and by emission second. -/
theorem tableOrder_of_refined {a b : LaneConfig} (h : Tables.Refined laneOrder EmitOrder a b) :
    TableOrder a b := by
  obtain ⟨hab, hemit⟩ := h
  rcases hab with hab | ⟨hab, habr⟩
  · exact Or.inl hab
  · rcases habr.lt_or_eq with hlt | heq
    · exact Or.inr ⟨hab, Or.inl hlt⟩
    · -- one row of one node: the order of emission decides
      refine Or.inr ⟨hab, Or.inr ⟨heq, ?_⟩⟩
      rcases hemit (Or.inr ⟨hab.symm, heq.ge⟩) with hl | ⟨hl, hr | ⟨-, ht⟩⟩
      · exact Or.inl hl
      · exact absurd heq hr.ne
      · exact Or.inr ⟨hl, ht⟩

/-- No lane stands before itself. -/
theorem tableOrder_irrefl (a : LaneConfig) : ¬ TableOrder a a := by
  rintro (h | ⟨-, h | ⟨-, h | ⟨-, h⟩⟩⟩) <;> exact lt_irrefl _ h

variable {resolved : ResolvedTopology}

omit [Libm K] in
/-- **What resolving a topology gives**: its nodes, and the sorted lanes of its links. -/
theorem resolveTopology_eq_ok (h : resolveTopology config = .ok resolved) :
    ∃ expanded, expandLinks config (resolveNodes config) 0 config.links = .ok expanded ∧
      resolved =
        { nodes := resolveNodes config, lanes := expanded.insertionSort laneOrder
          linkGroups := groupLanes [] 0 (expanded.insertionSort laneOrder) } := by
  obtain ⟨expanded, hexp, h⟩ := bind_eq_ok h
  cases h
  exact ⟨expanded, hexp, rfl⟩

omit [Libm K] in
/-- **The table** is in order, and its entries are the lanes that links carry. -/
theorem lanes_spec (h : resolveTopology config = .ok resolved) :
    resolved.lanes.Pairwise TableOrder ∧ ∀ lane, lane ∈ resolved.lanes ↔
      ∃ index link src dst, LinkBetween config index link src dst ∧
        ∃ r < dst.rxPorts.length, ∃ t < src.txPorts.length, carries config link r t ∧
          lane = laneAt config index link src dst r t := by
  obtain ⟨expanded, hexp, rfl⟩ := resolveTopology_eq_ok h
  obtain ⟨hpair, hmem⟩ := expandLinks_spec hexp
  constructor
  · exact (Tables.pairwise_insertionSort hpair).imp tableOrder_of_refined
  · intro lane
    rw [List.mem_insertionSort, hmem]
    constructor
    · rintro ⟨k, link, src, dst, hl, hs, hd, hlane⟩
      rw [Nat.zero_add] at hlane
      exact ⟨k, link, src, dst, ⟨hl, hs, hd⟩, mem_expandLink.mp hlane⟩
    · rintro ⟨k, link, src, dst, ⟨hl, hs, hd⟩, hlane⟩
      refine ⟨k, link, src, dst, hl, hs, hd, ?_⟩
      rw [Nat.zero_add]
      exact mem_expandLink.mpr hlane

omit [Libm K] in
/-- Two positions of one table with the same link, row and column are one position. -/
theorem position_unique (h : resolveTopology config = .ok resolved) {p q : ℕ} {a b : LaneConfig}
    (ha : resolved.lanes[p]? = some a) (hb : resolved.lanes[q]? = some b)
    (hlink : a.linkIndex = b.linkIndex) (hr : a.rxPort = b.rxPort) (ht : a.txPort = b.txPort) :
    p = q := by
  obtain ⟨hpair, hmem⟩ := lanes_spec h
  obtain ⟨i, link, src, dst, hij, r, hrl, t, htl, hc, rfl⟩ := (hmem a).mp (List.mem_of_getElem? ha)
  obtain ⟨i', link', src', dst', hij', r', hrl', t', htl', hc', rfl⟩ :=
    (hmem b).mp (List.mem_of_getElem? hb)
  obtain rfl : i = i' := hlink
  obtain rfl : r = r' := hr
  obtain rfl : t = t' := ht
  obtain ⟨rfl, rfl, rfl⟩ := hij.unique hij'
  rcases lt_trichotomy p q with hlt | heq | hlt
  · exact absurd (Tables.pairwise_at hpair ha hb hlt) (tableOrder_irrefl _)
  · exact heq
  · exact absurd (Tables.pairwise_at hpair hb ha hlt) (tableOrder_irrefl _)

end Lanes

/-! ## Link groups -/

section Groups

/-- The place of a lane in its link's matrix. -/
def LaneConfig.place (lane : LaneConfig) : ℕ := lane.rxPort * lane.nt + lane.txPort

/-- Lanes of one key have one shape, and at most one lane stands at each place of a key. -/
structure Groupable (all : List LaneConfig) : Prop where
  shape : ∀ a ∈ all, ∀ b ∈ all, a.physicalLinkKey = b.physicalLinkKey → a.nt = b.nt ∧ a.nr = b.nr
  room : ∀ a ∈ all, a.place < a.nt * a.nr
  once : ∀ (p q : ℕ) (a b : LaneConfig), all[p]? = some a → all[q]? = some b →
    a.physicalLinkKey = b.physicalLinkKey → a.place = b.place → p = q

/-- What a group holds once the lanes `done` are entered. -/
structure GroupHolds (all done : List LaneConfig) (group : LinkLaneGroup) : Prop where
  shape : ∀ a ∈ all, a.physicalLinkKey = group.physicalLinkKey → a.nt = group.nt ∧ a.nr = group.nr
  length : group.laneIndex.length = group.nt * group.nr
  slots : ∀ k p : ℕ, group.laneIndex[k]? = some (some p) ↔ ∃ lane, done[p]? = some lane ∧
    lane.physicalLinkKey = group.physicalLinkKey ∧ lane.place = k

/-- The groups once the lanes `done` are entered. -/
structure Grouped (all done : List LaneConfig) (groups : List LinkLaneGroup) : Prop where
  nodup : (groups.map (·.physicalLinkKey)).Nodup
  covers : ∀ key, key ∈ groups.map (·.physicalLinkKey) ↔ key ∈ done.map (·.physicalLinkKey)
  holds : ∀ group ∈ groups, GroupHolds all done group

variable {all done : List LaneConfig} {groups : List LinkLaneGroup} {lane : LaneConfig}

/-- The group of a lane that is about to be entered. -/
def LaneConfig.freshGroup (lane : LaneConfig) : LinkLaneGroup :=
  { physicalLinkKey := lane.physicalLinkKey, nt := lane.nt, nr := lane.nr
    laneIndex := List.replicate (lane.nt * lane.nr) none }

/-- The first lane of a link starts the group that holds it. -/
theorem fresh_holds (hall : Groupable all) (hlane : lane ∈ all)
    (hnew : lane.physicalLinkKey ∉ done.map (·.physicalLinkKey)) :
    GroupHolds all done lane.freshGroup := by
  constructor
  · exact fun a ha hkey => hall.shape a ha lane hlane hkey
  · exact List.length_replicate
  · intro k p
    constructor
    · intro h
      have hmem : some p ∈ List.replicate (lane.nt * lane.nr) none := List.mem_of_getElem? h
      cases (List.mem_replicate.mp hmem).2
    · rintro ⟨a, ha, hkey, -⟩
      exact absurd (List.mem_map.mpr ⟨a, List.mem_of_getElem? ha, hkey⟩) hnew

/-- A group of another link does not notice the lane. -/
theorem GroupHolds.other {group : LinkLaneGroup} (h : GroupHolds all done group)
    (hkey : group.physicalLinkKey ≠ lane.physicalLinkKey) : GroupHolds all (done ++ [lane]) group := by
  refine ⟨h.shape, h.length, ?_⟩
  intro k p
  rw [h.slots]
  constructor
  · rintro ⟨a, ha, hak, hp⟩
    exact ⟨a, by rwa [List.getElem?_append_left (List.getElem?_eq_some_iff.mp ha).1], hak, hp⟩
  · rintro ⟨a, ha, hak, hp⟩
    rcases Tables.getElem?_concat ha with ⟨-, hold⟩ | ⟨-, rfl⟩
    · exact ⟨a, hold, hak, hp⟩
    · exact absurd hak.symm hkey

/-- The group of the lane's own link takes its position. -/
theorem GroupHolds.own {group : LinkLaneGroup} (hall : Groupable all) (h : GroupHolds all done group)
    (hlane : all[done.length]? = some lane)
    (hdone : ∀ (p : ℕ) (a : LaneConfig), done[p]? = some a → all[p]? = some a)
    (hkey : group.physicalLinkKey = lane.physicalLinkKey) :
    GroupHolds all (done ++ [lane])
      { group with laneIndex := group.laneIndex.set lane.place (some done.length) } := by
  refine ⟨h.shape, ?_, ?_⟩
  · rw [List.length_set]
    exact h.length
  · intro k p
    dsimp only
    rw [List.getElem?_set]
    split_ifs with hk hroom
    · -- the lane's own place
      subst hk
      constructor
      · intro hp
        obtain rfl : done.length = p := Option.some.inj (Option.some.inj hp)
        exact ⟨lane, List.getElem?_concat_length, hkey.symm, rfl⟩
      · rintro ⟨a, ha, hak, hplace⟩
        rcases Tables.getElem?_concat ha with ⟨-, hold⟩ | ⟨rfl, -⟩
        · have := hall.once p done.length a lane (hdone p a hold) hlane (hak.trans hkey) hplace
          rw [this] at hold
          exact absurd (List.getElem?_eq_some_iff.mp hold).1 (lt_irrefl _)
        · rfl
    · have hmem := List.mem_of_getElem? hlane
      have hr := hall.room lane hmem
      rw [h.length, ← (h.shape lane hmem hkey.symm).1, ← (h.shape lane hmem hkey.symm).2] at hroom
      exact absurd hr hroom
    · rw [h.slots]
      constructor
      · rintro ⟨a, ha, hak, hp⟩
        exact ⟨a, by rwa [List.getElem?_append_left (List.getElem?_eq_some_iff.mp ha).1], hak, hp⟩
      · rintro ⟨a, ha, hak, hp⟩
        rcases Tables.getElem?_concat ha with ⟨-, hold⟩ | ⟨-, rfl⟩
        · exact ⟨a, hold, hak, hp⟩
        · exact absurd hp hk

/-- Entering the next lane keeps the lanes grouped. -/
theorem enterGroup_grouped (hall : Groupable all) (h : Grouped all done groups)
    (hlane : all[done.length]? = some lane)
    (hdone : ∀ (p : ℕ) (a : LaneConfig), done[p]? = some a → all[p]? = some a) :
    Grouped all (done ++ [lane]) (enterGroup groups done.length lane) := by
  have hmem := List.mem_of_getElem? hlane
  -- the groups after the lane's own group exists
  obtain ⟨groups', hgroups', hnodup, hcovers, hholds⟩ : ∃ groups',
      groups' = (if groups.any (·.physicalLinkKey = lane.physicalLinkKey) then groups
        else groups ++ [lane.freshGroup]) ∧
      (groups'.map (·.physicalLinkKey)).Nodup ∧
      (∀ key, key ∈ groups'.map (·.physicalLinkKey) ↔
        key ∈ (done ++ [lane]).map (·.physicalLinkKey)) ∧
      ∀ group ∈ groups', GroupHolds all done group := by
    refine ⟨_, rfl, ?_⟩
    split_ifs with hany
    · refine ⟨h.nodup, ?_, h.holds⟩
      intro key
      rw [h.covers, List.map_append, List.mem_append]
      constructor
      · exact Or.inl
      · rintro (hkey | hkey)
        · exact hkey
        · obtain ⟨g, hg, hgk⟩ := List.any_eq_true.mp hany
          rw [List.map_singleton, List.mem_singleton] at hkey
          rw [← h.covers, hkey]
          exact List.mem_map.mpr ⟨g, hg, of_decide_eq_true hgk⟩
    · have hnew : lane.physicalLinkKey ∉ groups.map (·.physicalLinkKey) := by
        intro hold
        obtain ⟨g, hg, hgk⟩ := List.mem_map.mp hold
        exact hany (List.any_eq_true.mpr ⟨g, hg, decide_eq_true hgk⟩)
      refine ⟨?_, ?_, ?_⟩
      · rw [List.map_append, List.nodup_append]
        refine ⟨h.nodup, List.nodup_singleton _, ?_⟩
        intro a ha b hb
        rw [List.mem_singleton.mp hb]
        rintro rfl
        exact hnew ha
      · intro key
        rw [List.map_append, List.map_append, List.mem_append, List.mem_append, h.covers]
        rfl
      · intro group hgroup
        rcases List.mem_append.mp hgroup with hgroup | hgroup
        · exact h.holds group hgroup
        · rw [List.mem_singleton.mp hgroup]
          exact fresh_holds hall hmem (by rwa [← h.covers])
  have henter : enterGroup groups done.length lane = groups'.map fun group =>
      if group.physicalLinkKey = lane.physicalLinkKey then
        { group with laneIndex := group.laneIndex.set lane.place (some done.length) }
      else group := by
    rw [hgroups']
    rfl
  have hkeys : (enterGroup groups done.length lane).map (·.physicalLinkKey) =
      groups'.map (·.physicalLinkKey) := by
    rw [henter, List.map_map]
    refine List.map_congr_left ?_
    intro group _
    dsimp only [Function.comp]
    split_ifs <;> rfl
  refine ⟨by rwa [hkeys], by rwa [hkeys], ?_⟩
  intro group hgroup
  rw [henter] at hgroup
  obtain ⟨g, hg, rfl⟩ := List.mem_map.mp hgroup
  split_ifs with hkey
  · exact (hholds g hg).own hall hlane hdone hkey
  · exact (hholds g hg).other hkey

/-- The grouping loop from any point on. -/
theorem groupLanes_grouped (hall : Groupable all) {rest : List LaneConfig}
    (hsplit : all = done ++ rest) (h : Grouped all done groups) :
    Grouped all all (groupLanes groups done.length rest) := by
  induction rest generalizing done groups with
  | nil =>
      rw [List.append_nil] at hsplit
      rw [← hsplit] at h
      exact h
  | cons lane rest ih =>
      have hlane : all[done.length]? = some lane := by
        rw [hsplit, List.getElem?_append_right le_rfl, Nat.sub_self]
        rfl
      have hdone : ∀ (p : ℕ) (a : LaneConfig), done[p]? = some a → all[p]? = some a := by
        intro p a ha
        rw [hsplit, List.getElem?_append_left (List.getElem?_eq_some_iff.mp ha).1]
        exact ha
      have hnext := ih (by rw [hsplit, List.append_assoc]; rfl)
        (enterGroup_grouped hall h hlane hdone)
      rwa [List.length_append] at hnext

/-- **The groups of a table.** -/
theorem groupLanes_spec (hall : Groupable all) : Grouped all all (groupLanes [] 0 all) := by
  refine groupLanes_grouped hall (List.nil_append all).symm ?_
  refine ⟨List.nodup_nil, fun key => Iff.rfl, ?_⟩
  intro group hgroup
  exact absurd hgroup List.not_mem_nil

end Groups

/-! ## The table of a configuration -/

section Table

variable {K : Type} [Field K] [LinearOrder K] [Libm K] {config : TopologyConfig K}
  {resolved : ResolvedTopology}

omit [Libm K] in
/-- Every lane of the table, with its link. -/
theorem lane_at (h : resolveTopology config = .ok resolved) {p : ℕ} {lane : LaneConfig}
    (hlane : resolved.lanes[p]? = some lane) : ∃ index link src dst,
      LinkBetween config index link src dst ∧ ∃ r < dst.rxPorts.length, ∃ t < src.txPorts.length,
        carries config link r t ∧ lane = laneAt config index link src dst r t :=
  ((lanes_spec h).2 lane).mp (List.mem_of_getElem? hlane)

/-- Two places of a row-major matrix are equal if row and column are. -/
theorem place_eq_iff {n r t r' t' : ℕ} (ht : t < n) (ht' : t' < n) :
    r * n + t = r' * n + t' ↔ r = r' ∧ t = t' := by
  constructor
  · intro heq
    have hmod : (r * n + t) % n = (r' * n + t') % n := congrArg (· % n) heq
    rw [Nat.mul_add_mod_of_lt ht, Nat.mul_add_mod_of_lt ht'] at hmod
    subst hmod
    exact ⟨Nat.eq_of_mul_eq_mul_right (by omega) (Nat.add_right_cancel heq), rfl⟩
  · rintro ⟨rfl, rfl⟩
    rfl

omit [Field K] [LinearOrder K] [Libm K] in
/-- With distinct link keys, a key stands for one link. -/
theorem index_of_key (hkeys : (config.links.map linkKey).Nodup) {i j : ℕ} {a b : LinkConfig K}
    (ha : config.links[i]? = some a) (hb : config.links[j]? = some b)
    (hkey : linkKey a = linkKey b) : i = j := by
  have hi : (config.links.map linkKey)[i]? = some (linkKey b) := by
    rw [List.getElem?_map, ha, Option.map_some, hkey]
  have hj : (config.links.map linkKey)[j]? = some (linkKey b) := by
    rw [List.getElem?_map, hb, Option.map_some]
  exact (List.getElem?_inj (List.getElem?_eq_some_iff.mp hi).1 hkeys).mp (hi.trans hj.symm)

omit [Libm K] in
/-- The lanes of distinct link keys can be grouped. -/
theorem groupable (h : resolveTopology config = .ok resolved)
    (hkeys : (config.links.map linkKey).Nodup) : Groupable resolved.lanes := by
  constructor
  · intro a ha b hb hkey
    obtain ⟨i, l, s, d, hl, r, -, t, -, -, rfl⟩ := ((lanes_spec h).2 a).mp ha
    obtain ⟨i', l', s', d', hl', r', -, t', -, -, rfl⟩ := ((lanes_spec h).2 b).mp hb
    obtain rfl := index_of_key hkeys hl.1 hl'.1 hkey
    obtain ⟨rfl, rfl, rfl⟩ := hl.unique hl'
    exact ⟨rfl, rfl⟩
  · intro a ha
    obtain ⟨i, l, s, d, hl, r, hr, t, ht, -, rfl⟩ := ((lanes_spec h).2 a).mp ha
    change r * s.txPorts.length + t < s.txPorts.length * d.rxPorts.length
    calc r * s.txPorts.length + t < (r + 1) * s.txPorts.length := by
          rw [Nat.succ_mul]
          omega
      _ ≤ d.rxPorts.length * s.txPorts.length := Nat.mul_le_mul_right _ hr
      _ = s.txPorts.length * d.rxPorts.length := Nat.mul_comm _ _
  · intro p q a b ha hb hkey hplace
    obtain ⟨i, l, s, d, hl, r, hr, t, ht, -, rfl⟩ := lane_at h ha
    obtain ⟨i', l', s', d', hl', r', hr', t', ht', -, rfl⟩ := lane_at h hb
    obtain rfl := index_of_key hkeys hl.1 hl'.1 hkey
    obtain ⟨rfl, rfl, rfl⟩ := hl.unique hl'
    obtain ⟨rfl, rfl⟩ := (place_eq_iff ht ht').mp hplace
    exact position_unique h ha hb rfl rfl rfl

/-- The lane `(r, t)` of the link at `index` stands at position `p`. -/
def StandsAt (resolved : ResolvedTopology) (index r t p : ℕ) : Prop :=
  ∃ lane : LaneConfig, resolved.lanes[p]? = some lane ∧ lane.linkIndex = index ∧
    lane.rxPort = r ∧ lane.txPort = t

/-- **An exact lane table.** Every live lane stands at one position, in the order of the table,
with the devices of its ports; every link with a lane has one group, which is the inverse of
the positions. -/
structure LaneTable (config : TopologyConfig K) (resolved : ResolvedTopology) : Prop where
  sorted : resolved.lanes.Pairwise TableOrder
  live : ∀ lane ∈ resolved.lanes, Live config lane.linkIndex lane.rxPort lane.txPort
  once : ∀ index r t, Live config index r t → ∃! p, StandsAt resolved index r t p
  devices : ∀ lane ∈ resolved.lanes, ∃ link src dst,
    LinkBetween config lane.linkIndex link src dst ∧ lane.srcNode = src.id ∧ lane.dstNode = dst.id ∧
      src.txPorts[lane.txPort]? = some lane.srcDevice ∧
      dst.rxPorts[lane.rxPort]? = some lane.dstDevice
  grouped : ∀ lane ∈ resolved.lanes,
    ∃! group, group ∈ resolved.linkGroups ∧ group.physicalLinkKey = lane.physicalLinkKey
  groups : ∀ group ∈ resolved.linkGroups, ∃ index link src dst,
    LinkBetween config index link src dst ∧ group.physicalLinkKey = linkKey link ∧
      group.nt = src.txPorts.length ∧ group.nr = dst.rxPorts.length ∧
      group.laneIndex.length = group.nt * group.nr ∧
      ∀ r < group.nr, ∀ t < group.nt,
        (∀ p, group.laneIndex[r * group.nt + t]? = some (some p) ↔
          StandsAt resolved index r t p) ∧
        (group.laneIndex[r * group.nt + t]? = some none ↔ ¬ Live config index r t)

omit [Libm K] in
/-- A live pair of ports stands once in the table. -/
theorem once_of_live (h : resolveTopology config = .ok resolved) {index r t : ℕ}
    (hlive : Live config index r t) : ∃! p, StandsAt resolved index r t p := by
  obtain ⟨link, src, dst, hl, hs, hd, hr, ht, hc⟩ := hlive
  have hmem := ((lanes_spec h).2 (laneAt config index link src dst r t)).mpr
    ⟨index, link, src, dst, ⟨hl, hs, hd⟩, r, hr, t, ht, hc, rfl⟩
  obtain ⟨p, hp⟩ := List.getElem?_of_mem hmem
  refine ⟨p, ⟨_, hp, rfl, rfl, rfl⟩, ?_⟩
  rintro q ⟨lane, hq, hi, hrow, hcol⟩
  exact position_unique h hq hp hi hrow hcol

omit [Libm K] in
/-- Every lane of the table is live. -/
theorem live_of_lane (h : resolveTopology config = .ok resolved) {lane : LaneConfig}
    (hlane : lane ∈ resolved.lanes) : Live config lane.linkIndex lane.rxPort lane.txPort := by
  obtain ⟨i, l, s, d, hl, r, hr, t, ht, hc, rfl⟩ := ((lanes_spec h).2 lane).mp hlane
  exact ⟨l, s, d, hl.1, hl.2.1, hl.2.2, hr, ht, hc⟩

omit [Libm K] in
/-- The group of a link holds the positions of its lanes. -/
theorem group_spec (h : resolveTopology config = .ok resolved)
    (hkeys : (config.links.map linkKey).Nodup) {group : LinkLaneGroup}
    (hgroup : group ∈ resolved.linkGroups) : ∃ index link src dst,
      LinkBetween config index link src dst ∧ group.physicalLinkKey = linkKey link ∧
        group.nt = src.txPorts.length ∧ group.nr = dst.rxPorts.length ∧
        group.laneIndex.length = group.nt * group.nr ∧
        ∀ r < group.nr, ∀ t < group.nt, ∀ p, group.laneIndex[r * group.nt + t]? = some (some p) ↔
          StandsAt resolved index r t p := by
  have hgroups := groupLanes_spec (groupable h hkeys)
  have hlinkGroups : resolved.linkGroups = groupLanes [] 0 resolved.lanes := by
    obtain ⟨expanded, -, rfl⟩ := resolveTopology_eq_ok h
    rfl
  rw [hlinkGroups] at hgroup
  obtain ⟨lane, hlane, hkey⟩ := List.mem_map.mp
    ((hgroups.covers group.physicalLinkKey).mp (List.mem_map_of_mem hgroup))
  have hholds := hgroups.holds group hgroup
  obtain ⟨hnt, hnr⟩ := hholds.shape lane hlane hkey
  obtain ⟨i, link, src, dst, hl, r₀, -, t₀, -, -, rfl⟩ := ((lanes_spec h).2 lane).mp hlane
  refine ⟨i, link, src, dst, hl, hkey.symm, hnt.symm, hnr.symm, hholds.length, ?_⟩
  intro r hr t ht p
  rw [hholds.slots]
  constructor
  · rintro ⟨a, ha, hak, hplace⟩
    obtain ⟨i', link', src', dst', hl', r', hr', t', ht', -, rfl⟩ := lane_at h ha
    obtain rfl := index_of_key hkeys hl'.1 hl.1 (hak.trans hkey.symm)
    obtain ⟨rfl, rfl, rfl⟩ := hl.unique hl'
    rw [← hnt] at ht hplace
    obtain ⟨rfl, rfl⟩ := (place_eq_iff ht' ht).mp hplace
    exact ⟨_, ha, rfl, rfl, rfl⟩
  · rintro ⟨a, ha, hi, hrow, hcol⟩
    obtain ⟨i', link', src', dst', hl', r', hr', t', ht', -, rfl⟩ := lane_at h ha
    obtain rfl : i' = i := hi
    obtain rfl : r' = r := hrow
    obtain rfl : t' = t := hcol
    obtain ⟨rfl, rfl, rfl⟩ := hl.unique hl'
    refine ⟨_, ha, hkey, ?_⟩
    rw [← hnt]
    rfl

omit [Libm K] in
/-- **The lane table** of every loaded topology with distinct link keys. -/
theorem laneTable_of_resolve (h : resolveTopology config = .ok resolved)
    (hkeys : (config.links.map linkKey).Nodup) : LaneTable config resolved := by
  have hgroups := groupLanes_spec (groupable h hkeys)
  have hlinkGroups : resolved.linkGroups = groupLanes [] 0 resolved.lanes := by
    obtain ⟨expanded, -, rfl⟩ := resolveTopology_eq_ok h
    rfl
  constructor
  · exact (lanes_spec h).1
  · exact fun lane hlane => live_of_lane h hlane
  · exact fun index r t hlive => once_of_live h hlive
  · intro lane hlane
    obtain ⟨i, l, s, d, hl, r, hr, t, ht, -, rfl⟩ := ((lanes_spec h).2 lane).mp hlane
    refine ⟨l, s, d, hl, rfl, rfl, ?_, ?_⟩
    · simp only [laneAt, List.getD_eq_getElem?_getD, List.getElem?_eq_getElem ht, Option.getD_some]
    · simp only [laneAt, List.getD_eq_getElem?_getD, List.getElem?_eq_getElem hr, Option.getD_some]
  · intro lane hlane
    rw [hlinkGroups]
    obtain ⟨group, hgroup, hkey⟩ := List.mem_map.mp
      ((hgroups.covers lane.physicalLinkKey).mpr (List.mem_map_of_mem hlane))
    refine ⟨group, ⟨hgroup, hkey⟩, ?_⟩
    rintro other ⟨hother, hkey'⟩
    exact List.inj_on_of_nodup_map hgroups.nodup hother hgroup (hkey'.trans hkey.symm)
  -- the matrix of a group: its cells are the live places of its link
  · intro group hgroup
    obtain ⟨i, l, s, d, hl, hkey, hnt, hnr, hlen, hslots⟩ := group_spec h hkeys hgroup
    refine ⟨i, l, s, d, hl, hkey, hnt, hnr, hlen, ?_⟩
    intro r hr t ht
    refine ⟨hslots r hr t ht, ?_⟩
    have hroom : r * group.nt + t < group.laneIndex.length := by
      rw [hlen]
      calc r * group.nt + t < (r + 1) * group.nt := by
            rw [Nat.succ_mul]
            omega
        _ ≤ group.nr * group.nt := Nat.mul_le_mul_right _ hr
        _ = group.nt * group.nr := Nat.mul_comm _ _
    constructor
    · intro hnone hlive
      obtain ⟨p, hp, -⟩ := once_of_live h hlive
      have := (hslots r hr t ht p).mpr hp
      rw [hnone] at this
      cases this
    · intro hdead
      rw [List.getElem?_eq_getElem hroom]
      cases hslot : group.laneIndex[r * group.nt + t] with
      | none => rfl
      | some p =>
          obtain ⟨lane, hlane, hi, hrow, hcol⟩ := (hslots r hr t ht p).mp
            (by rw [List.getElem?_eq_getElem hroom, hslot])
          have hlive := live_of_lane h (List.mem_of_getElem? hlane)
          rw [hi, hrow, hcol] at hlive
          exact absurd hlive hdead

end Table
