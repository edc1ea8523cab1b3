/-
# Which state keys coincide

Link keys, lane keys and receiver row keys are texts joined from ids of the configuration.
Two of them coincide exactly when the ids read the same across a moved separator, and two
links with the same ends and the same model always do.
-/
import GpuChannel.Library.Texts
import GpuChannel.LaneTable
import GpuChannel.ModelFolds
import GpuChannel.RationalScalars

/-! ## The texts -/

/-- The model part of a link's key. -/
def LinkConfig.keyModel {K : Type} (link : LinkConfig K) : String :=
  if link.declaredModel.isEmpty then link.model else link.declaredModel

/-- Two triples of ids that read the same, `f>t:m` and `f'>t':m'`. -/
def ReadAlike (f t m f' t' m' : String) : Prop :=
  (f = f' ∧ Texts.Resplit ":" t m t' m') ∨
    (∃ x, f' = f ++ ">" ++ x ∧ Texts.Resplit ":" t m (x ++ ">" ++ t') m') ∨
    ∃ x, f = f' ++ ">" ++ x ∧ Texts.Resplit ":" (x ++ ">" ++ t) m t' m'

/-- A colon is one character. -/
theorem toList_colon : (":" : String).toList = [':'] := by decide

/-- Two texts with the separators of a link key are equal exactly if they are read alike. -/
theorem readAlike_iff {f t m f' t' m' : String} :
    f ++ ">" ++ t ++ ":" ++ m = f' ++ ">" ++ t' ++ ":" ++ m' ↔ ReadAlike f t m f' t' m' := by
  have hcolon : ∀ {a b a' b' : String}, a ++ ":" ++ b = a' ++ ":" ++ b' ↔
      Texts.Resplit ":" a b a' b' :=
    Texts.append_eq_append_iff_resplit toList_colon
  have hassoc : ∀ a b c : String, a ++ ">" ++ b ++ ":" ++ c = a ++ ">" ++ (b ++ ":" ++ c) := by
    intro a b c
    simp only [String.append_assoc]
  rw [hassoc, hassoc, Texts.append_eq_append_iff_resplit (c := '>') (by decide)]
  unfold ReadAlike Texts.Resplit
  simp only [← hassoc]
  constructor
  · rintro (⟨rfl, h⟩ | ⟨x, rfl, h⟩ | ⟨x, rfl, h⟩)
    · exact Or.inl ⟨rfl, hcolon.mp h⟩
    · exact Or.inr (Or.inl ⟨x, rfl, hcolon.mp h⟩)
    · exact Or.inr (Or.inr ⟨x, rfl, hcolon.mp h.symm⟩)
  · rintro (⟨rfl, h⟩ | ⟨x, rfl, h⟩ | ⟨x, rfl, h⟩)
    · exact Or.inl ⟨rfl, hcolon.mpr h⟩
    · exact Or.inr (Or.inl ⟨x, rfl, hcolon.mpr h⟩)
    · exact Or.inr (Or.inr ⟨x, rfl, (hcolon.mpr h).symm⟩)

/-- What `rx_state_key` puts behind the node's id. -/
def rowSuffix (r nr : ℕ) : String := if nr = 1 then ">rx" else ">rx#r" ++ toString r

/-- What `lane_key` puts behind the link's key. -/
def laneSuffix (r t : ℕ) : String := "#r" ++ toString r ++ "t" ++ toString t

/-- A row key is the node's id and the row's suffix. -/
theorem rxStateKey_eq (id : String) (r nr : ℕ) : rxStateKey id r nr = id ++ rowSuffix r nr := by
  unfold rxStateKey rowSuffix
  split_ifs
  · rfl
  · exact String.append_assoc

/-- A link with one lane gives it its own key. -/
theorem laneKey_single (base : String) (r t : ℕ) : laneKey base r t 1 1 = base := rfl

/-- A lane of a matrix has the suffix of its place. -/
theorem laneKey_matrix (base : String) (r t : ℕ) {nt nr : ℕ} (h : ¬ (nt = 1 ∧ nr = 1)) :
    laneKey base r t nt nr = base ++ laneSuffix r t := by
  rw [laneKey, if_neg h, laneSuffix]
  simp only [String.append_assoc]

/-- A lane suffix can be read off the end of a key. -/
theorem laneSuffix_inj {a a' : String} {r t r' t' : ℕ}
    (h : a ++ laneSuffix r t = a' ++ laneSuffix r' t') : a = a' ∧ r = r' ∧ t = t' := by
  have htext : ∀ (b : String) (i j : ℕ), b ++ laneSuffix i j =
      b ++ "#" ++ "r" ++ toString i ++ "t" ++ toString j := by
    intro b i j
    rw [laneSuffix, show ("#r" : String) = "#" ++ "r" by decide]
    simp only [String.append_assoc]
  rw [htext, htext] at h
  obtain ⟨h, -, ht⟩ := Texts.append_number_inj (c := 't') (d := 't') (by decide) (by decide)
    (by decide) (by decide) h
  obtain ⟨h, -, hr⟩ := Texts.append_number_inj (c := 'r') (d := 'r') (by decide) (by decide)
    (by decide) (by decide) h
  exact ⟨(String.append_left_inj "#").mp h, hr, ht⟩

/-- A row among several has the suffix of its place. -/
theorem rowSuffix_matrix {r nr : ℕ} (h : nr ≠ 1) : rowSuffix r nr = ">rx#" ++ "r" ++ toString r := by
  rw [rowSuffix, if_neg h]
  rfl

/-- A single row has the suffix of a receiver. -/
theorem rowSuffix_single (r : ℕ) : rowSuffix r 1 = ">r" ++ "x" := rfl

/-- A lane suffix is no row suffix. -/
theorem lane_ne_row (a n : String) (r t i nr : ℕ) : a ++ laneSuffix r t ≠ n ++ rowSuffix i nr := by
  intro h
  rw [laneSuffix, ← String.append_assoc, ← String.append_assoc, ← String.append_assoc] at h
  by_cases hnr : nr = 1
  · subst hnr
    rw [rowSuffix_single, ← String.append_assoc] at h
    exact Texts.append_ne_number (c := 'x') (by decide) (by decide) h.symm
  · -- before the last digits stand a `t` and an `r`
    rw [rowSuffix_matrix hnr, ← String.append_assoc, ← String.append_assoc] at h
    obtain ⟨-, hc, -⟩ := Texts.append_number_inj (c := 't') (d := 'r') (by decide) (by decide)
      (by decide) (by decide) h
    exact absurd hc (by decide)

/-- A row suffix can be read off the end of a key. -/
theorem rowSuffix_inj {n n' : String} {r r' nr nr' : ℕ} (hr : r < nr) (hr' : r' < nr')
    (h : n ++ rowSuffix r nr = n' ++ rowSuffix r' nr') : n = n' ∧ r = r' := by
  by_cases hnr : nr = 1 <;> by_cases hnr' : nr' = 1
  · subst hnr hnr'
    exact ⟨(String.append_left_inj ">rx").mp h, by omega⟩
  · subst hnr
    rw [rowSuffix_single, rowSuffix_matrix hnr', ← String.append_assoc, ← String.append_assoc] at h
    exact absurd h (Texts.append_ne_number (c := 'x') (by decide) (by decide))
  · subst hnr'
    rw [rowSuffix_single, rowSuffix_matrix hnr, ← String.append_assoc, ← String.append_assoc,
      ← String.append_assoc] at h
    exact absurd h.symm (Texts.append_ne_number (c := 'x') (by decide) (by decide))
  · rw [rowSuffix_matrix hnr, rowSuffix_matrix hnr', ← String.append_assoc, ← String.append_assoc,
      ← String.append_assoc, ← String.append_assoc] at h
    obtain ⟨h, -, hrr⟩ := Texts.append_number_inj (c := 'r') (d := 'r') (by decide) (by decide)
      (by decide) (by decide) h
    exact ⟨(String.append_left_inj ">rx#").mp h, hrr⟩

/-- No row suffix has a colon. -/
theorem colon_notMem_rowSuffix (r nr : ℕ) : ':' ∉ (rowSuffix r nr).toList := by
  by_cases hnr : nr = 1
  · subst hnr
    exact (by decide : ':' ∉ (">rx" : String).toList)
  · rw [rowSuffix_matrix hnr, String.toList_append, List.mem_append, not_or]
    refine ⟨by decide, ?_⟩
    intro hmem
    exact absurd (Texts.isDigit_of_mem_toString hmem) (by decide)

/-! ## The keys in use -/

section Keys

variable {K : Type} [Field K] [LinearOrder K] [Libm K] {config : TopologyConfig K}
  {resolved : ResolvedTopology}

/-- One key for every row of every node. -/
def rowKeys (resolved : ResolvedTopology) : List String :=
  resolved.nodes.flatMap fun node =>
    (List.range node.rxPorts.length).map fun r => rxStateKey node.id r node.rxPorts.length

/-- **Distinct keys**: of links, of lanes, of rows, and no row has a link's or a lane's key. -/
structure KeysDistinct (config : TopologyConfig K) (resolved : ResolvedTopology) : Prop where
  links : (config.links.map linkKey).Nodup
  lanes : (resolved.lanes.map (·.key)).Nodup
  rows : (rowKeys resolved).Nodup
  linksApart : ∀ key ∈ rowKeys resolved, key ∉ config.links.map linkKey
  lanesApart : ∀ key ∈ rowKeys resolved, key ∉ resolved.lanes.map (·.key)

/-- **Ids that keep the keys apart.**  No two links read alike, no live lane of a matrix reads
like a live 1x1 link, and no node is named like a link whose model ends with a row suffix. -/
structure IdsApart (config : TopologyConfig K) : Prop where
  links : ∀ (i j : ℕ) (a b : LinkConfig K), i ≠ j → config.links[i]? = some a →
    config.links[j]? = some b →
      ¬ ReadAlike a.fromNode a.toNode a.keyModel b.fromNode b.toNode b.keyModel
  lanes : ∀ i j a b src dst src' dst' r t, LinkBetween config i a src dst →
    LinkBetween config j b src' dst' → ¬ (src.txPorts.length = 1 ∧ dst.rxPorts.length = 1) →
      src'.txPorts.length = 1 → dst'.rxPorts.length = 1 → Live config i r t → Live config j 0 0 →
        ¬ ReadAlike a.fromNode a.toNode (a.keyModel ++ laneSuffix r t)
          b.fromNode b.toNode b.keyModel
  rows : ∀ link ∈ config.links, ∀ node ∈ resolveNodes config, ∀ r < node.rxPorts.length,
    ∀ base, link.keyModel = base ++ rowSuffix r node.rxPorts.length →
      node.id ≠ link.fromNode ++ ">" ++ link.toNode ++ ":" ++ base

omit [Field K] [LinearOrder K] [Libm K] in
/-- A link key is its nodes and its model, between separators. -/
theorem linkKey_eq (link : LinkConfig K) :
    linkKey link = link.fromNode ++ ">" ++ link.toNode ++ ":" ++ link.keyModel := rfl

omit [Field K] [LinearOrder K] [Libm K] in
/-- Two links share a key exactly if they are read alike. -/
theorem linkKey_eq_iff (a b : LinkConfig K) : linkKey a = linkKey b ↔
    ReadAlike a.fromNode a.toNode a.keyModel b.fromNode b.toNode b.keyModel := by
  rw [linkKey_eq, linkKey_eq, readAlike_iff]

omit [Field K] [LinearOrder K] [Libm K] in
/-- A lane shares a key with a link exactly if its suffix is read as part of the model. -/
theorem linkKey_lane_eq_iff (a b : LinkConfig K) (r t : ℕ) :
    linkKey a ++ laneSuffix r t = linkKey b ↔
      ReadAlike a.fromNode a.toNode (a.keyModel ++ laneSuffix r t) b.fromNode b.toNode
        b.keyModel := by
  rw [linkKey_eq, linkKey_eq, ← readAlike_iff]
  simp only [String.append_assoc]

omit [Field K] [LinearOrder K] [Libm K] in
/-- A link shares a key with a row exactly if the model ends in the row's suffix. -/
theorem linkKey_row_eq_iff (link : LinkConfig K) (id : String) (r nr : ℕ) :
    linkKey link = rxStateKey id r nr ↔ ∃ base, link.keyModel = base ++ rowSuffix r nr ∧
      id = link.fromNode ++ ">" ++ link.toNode ++ ":" ++ base := by
  rw [linkKey_eq, rxStateKey_eq]
  exact Texts.append_eq_append_suffix_iff toList_colon (colon_notMem_rowSuffix r nr)

/-- Keys of a column are distinct when the entries at any two positions differ. -/
theorem nodup_map_iff {α β : Type*} {f : α → β} {l : List α} : (l.map f).Nodup ↔
    ∀ (i j : ℕ) (a b : α), i ≠ j → l[i]? = some a → l[j]? = some b → f a ≠ f b := by
  constructor
  · intro h i j a b hij ha hb heq
    refine hij ((List.getElem?_inj (l := l.map f) ?_ h).mp ?_)
    · simpa using (List.getElem?_eq_some_iff.mp ha).1
    · rw [List.getElem?_map, List.getElem?_map, ha, hb, Option.map_some, Option.map_some, heq]
  · intro h
    rw [List.Nodup, List.pairwise_map, List.pairwise_iff_getElem]
    intro i j hi hj hlt
    exact h i j _ _ hlt.ne (List.getElem?_eq_getElem hi) (List.getElem?_eq_getElem hj)

omit [Field K] [LinearOrder K] [Libm K] in
/-- The link keys are distinct exactly if no two links are read alike. -/
theorem links_nodup_iff : (config.links.map linkKey).Nodup ↔
    ∀ (i j : ℕ) (a b : LinkConfig K), i ≠ j → config.links[i]? = some a →
      config.links[j]? = some b →
        ¬ ReadAlike a.fromNode a.toNode a.keyModel b.fromNode b.toNode b.keyModel := by
  simp only [nodup_map_iff, ne_eq, linkKey_eq_iff]

/-! ### Rows -/

/-- The row keys are the keys of every node's rows. -/
theorem mem_rowKeys {key : String} : key ∈ rowKeys resolved ↔ ∃ node ∈ resolved.nodes,
    ∃ r < node.rxPorts.length, key = rxStateKey node.id r node.rxPorts.length := by
  simp [rowKeys, eq_comm]

/-- Rows never share a key. -/
theorem rowKeys_nodup (hnodes : (resolved.nodes.map (·.id)).Nodup) : (rowKeys resolved).Nodup := by
  rw [rowKeys, List.nodup_flatMap]
  constructor
  · intro node _
    rw [List.nodup_map_iff_inj_on List.nodup_range]
    intro r hr r' hr' heq
    rw [rxStateKey_eq, rxStateKey_eq] at heq
    exact (rowSuffix_inj (List.mem_range.mp hr) (List.mem_range.mp hr') heq).2
  · rw [List.Nodup, List.pairwise_map] at hnodes
    refine hnodes.imp ?_
    intro node node' hne
    rw [Function.onFun, List.disjoint_left]
    intro key hkey hkey'
    obtain ⟨r, hr, rfl⟩ := List.mem_map.mp hkey
    obtain ⟨r', hr', heq⟩ := List.mem_map.mp hkey'
    rw [rxStateKey_eq, rxStateKey_eq] at heq
    exact hne (rowSuffix_inj (List.mem_range.mp hr') (List.mem_range.mp hr) heq).1.symm

omit [Libm K] in
/-- A row has a link's key exactly when its node is named like the link. -/
theorem linksApart_iff (hresolved : resolveTopology config = .ok resolved) :
    (∀ key ∈ rowKeys resolved, key ∉ config.links.map linkKey) ↔
      ∀ link ∈ config.links, ∀ node ∈ resolveNodes config, ∀ r < node.rxPorts.length,
        ∀ base, link.keyModel = base ++ rowSuffix r node.rxPorts.length →
          node.id ≠ link.fromNode ++ ">" ++ link.toNode ++ ":" ++ base := by
  have hnodes : resolved.nodes = resolveNodes config := by
    obtain ⟨expanded, -, rfl⟩ := resolveTopology_eq_ok hresolved
    rfl
  constructor
  · intro h link hlink node hnode r hr base hmodel hid
    refine h _ (mem_rowKeys.mpr ⟨node, hnodes ▸ hnode, r, hr, rfl⟩) ?_
    exact List.mem_map.mpr ⟨link, hlink, (linkKey_row_eq_iff link _ _ _).mpr ⟨base, hmodel, hid⟩⟩
  · intro h key hkey hmem
    obtain ⟨node, hnode, r, hr, rfl⟩ := mem_rowKeys.mp hkey
    obtain ⟨link, hlink, heq⟩ := List.mem_map.mp hmem
    obtain ⟨base, hmodel, hid⟩ := (linkKey_row_eq_iff link _ _ _).mp heq
    exact h link hlink node (hnodes ▸ hnode) r hr base hmodel hid

omit [Libm K] in
/-- The key of a lane is the key of its link, or has a lane suffix. -/
theorem lane_key_cases (hresolved : resolveTopology config = .ok resolved) {lane : LaneConfig}
    (hlane : lane ∈ resolved.lanes) : ∃ link ∈ config.links,
      lane.key = linkKey link ∨ ∃ r t, lane.key = linkKey link ++ laneSuffix r t := by
  obtain ⟨i, link, src, dst, hl, r, -, t, -, -, rfl⟩ := ((lanes_spec hresolved).2 lane).mp hlane
  refine ⟨link, List.mem_of_getElem? hl.1, ?_⟩
  by_cases hshape : src.txPorts.length = 1 ∧ dst.rxPorts.length = 1
  · exact Or.inl (if_pos hshape)
  · exact Or.inr ⟨r, t, laneKey_matrix _ r t hshape⟩

omit [Libm K] in
/-- Rows that are apart from the links are apart from the lanes. -/
theorem lanesApart (hresolved : resolveTopology config = .ok resolved)
    (h : ∀ key ∈ rowKeys resolved, key ∉ config.links.map linkKey) :
    ∀ key ∈ rowKeys resolved, key ∉ resolved.lanes.map (·.key) := by
  intro key hkey hmem
  obtain ⟨lane, hlane, heq⟩ := List.mem_map.mp hmem
  obtain ⟨link, hlink, hkind | ⟨r, t, hkind⟩⟩ := lane_key_cases hresolved hlane
  · refine h key hkey (List.mem_map.mpr ⟨link, hlink, ?_⟩)
    rw [← hkind, heq]
  · obtain ⟨node, -, i, -, hrow⟩ := mem_rowKeys.mp hkey
    rw [hkind, hrow, rxStateKey_eq] at heq
    exact lane_ne_row _ _ r t i _ heq

/-! ### Lanes -/

omit [Libm K] in
/-- With distinct link keys, only a matrix lane and a 1x1 link can share a lane key. -/
theorem lanes_nodup_iff (hresolved : resolveTopology config = .ok resolved)
    (hkeys : (config.links.map linkKey).Nodup) : (resolved.lanes.map (·.key)).Nodup ↔
      ∀ i j a b src dst src' dst' r t, LinkBetween config i a src dst →
        LinkBetween config j b src' dst' → ¬ (src.txPorts.length = 1 ∧ dst.rxPorts.length = 1) →
          src'.txPorts.length = 1 → dst'.rxPorts.length = 1 → Live config i r t →
            Live config j 0 0 →
              ¬ ReadAlike a.fromNode a.toNode (a.keyModel ++ laneSuffix r t)
                b.fromNode b.toNode b.keyModel := by
  rw [nodup_map_iff]
  constructor
  -- two lanes whose keys are read alike stand at two places with one key
  · intro h i j a b src dst src' dst' r t ha hb hshape htx hrx hlive hlive' halike
    obtain ⟨p, ⟨lane, hp, hi, hr, ht⟩, -⟩ := once_of_live hresolved hlive
    obtain ⟨q, ⟨lane', hq, hj, hr', ht'⟩, -⟩ := once_of_live hresolved hlive'
    have hkey : lane.key = linkKey a ++ laneSuffix r t := by
      obtain ⟨i', l, s, d, hl, r₁, -, t₁, -, -, rfl⟩ := lane_at hresolved hp
      obtain rfl : i' = i := hi
      obtain rfl : r₁ = r := hr
      obtain rfl : t₁ = t := ht
      obtain ⟨rfl, rfl, rfl⟩ := ha.unique hl
      exact laneKey_matrix _ _ _ hshape
    have hkey' : lane'.key = linkKey b := by
      obtain ⟨j', l, s, d, hl, r₁, -, t₁, -, -, rfl⟩ := lane_at hresolved hq
      obtain rfl : j' = j := hj
      obtain ⟨rfl, rfl, rfl⟩ := hb.unique hl
      exact if_pos ⟨htx, hrx⟩
    refine h p q lane lane' ?_ hp hq ?_
    · rintro rfl
      obtain rfl : lane = lane' := Option.some.inj (hp.symm.trans hq)
      obtain rfl : i = j := hi.symm.trans hj
      obtain ⟨rfl, rfl, rfl⟩ := ha.unique hb
      exact hshape ⟨htx, hrx⟩
    · rw [hkey, hkey', linkKey_lane_eq_iff]
      exact halike
  · intro h p q lane lane' hpq hp hq heq
    have hlive := live_of_lane hresolved (List.mem_of_getElem? hp)
    have hlive' := live_of_lane hresolved (List.mem_of_getElem? hq)
    obtain ⟨i, a, src, dst, ha, r, hr, t, ht, hc, rfl⟩ := lane_at hresolved hp
    obtain ⟨j, b, src', dst', hb, r', hr', t', ht', hc', rfl⟩ := lane_at hresolved hq
    -- links with distinct keys give distinct lanes, so equal keys come from different shapes
    have hsame : linkKey a = linkKey b → r = r' → t = t' → p = q := by
      rintro hl rfl rfl
      obtain rfl := index_of_key hkeys ha.1 hb.1 hl
      exact position_unique hresolved hp hq rfl rfl rfl
    change laneKey (linkKey a) r t _ _ = laneKey (linkKey b) r' t' _ _ at heq
    by_cases hshape : src.txPorts.length = 1 ∧ dst.rxPorts.length = 1 <;>
      by_cases hshape' : src'.txPorts.length = 1 ∧ dst'.rxPorts.length = 1
    · rw [hshape.1, hshape.2, hshape'.1, hshape'.2, laneKey_single, laneKey_single] at heq
      exact hpq (hsame heq (by omega) (by omega))
    · rw [hshape.1, hshape.2, laneKey_single, laneKey_matrix _ _ _ hshape'] at heq
      obtain rfl : r = 0 := by omega
      obtain rfl : t = 0 := by omega
      exact h j i b a src' dst' src dst r' t' hb ha hshape' hshape.1 hshape.2 hlive' hlive
        ((linkKey_lane_eq_iff b a r' t').mp heq.symm)
    · rw [hshape'.1, hshape'.2, laneKey_single, laneKey_matrix _ _ _ hshape] at heq
      obtain rfl : r' = 0 := by omega
      obtain rfl : t' = 0 := by omega
      exact h i j a b src dst src' dst' r t ha hb hshape hshape'.1 hshape'.2 hlive hlive'
        ((linkKey_lane_eq_iff a b r t).mp heq)
    · rw [laneKey_matrix _ _ _ hshape, laneKey_matrix _ _ _ hshape'] at heq
      obtain ⟨hl, hrr, htt⟩ := laneSuffix_inj heq
      exact hpq (hsame hl hrr htt)

/-- **The keys are distinct exactly when the ids keep them apart.** -/
theorem keys_distinct_iff (config : TopologyConfig K) (hvalid : validateConfig config = [])
    (resolved : ResolvedTopology) (hresolved : resolveTopology config = .ok resolved) :
    KeysDistinct config resolved ↔ IdsApart config := by
  have hnodes : (resolved.nodes.map (·.id)).Nodup := by
    obtain ⟨expanded, -, rfl⟩ := resolveTopology_eq_ok hresolved
    exact (accepted_of_validate hvalid).nodes_nodup
  constructor
  · intro h
    constructor
    · exact links_nodup_iff.mp h.links
    · exact (lanes_nodup_iff hresolved h.links).mp h.lanes
    · exact (linksApart_iff hresolved).mp h.linksApart
  · intro h
    have hkeys := links_nodup_iff.mpr h.links
    have hapart := (linksApart_iff hresolved).mpr h.rows
    exact ⟨hkeys, (lanes_nodup_iff hresolved hkeys).mpr h.lanes, rowKeys_nodup hnodes, hapart,
      lanesApart hresolved hapart⟩

end Keys

/-! ## Two links that differ in their delay only -/

/-- One tap at the delay `n`. -/
def oneTapModel (id : String) (n : ℚ) : ModelConfig ℚ :=
  { id := id
    chain := [{ type := .tdl, taps := [⟨n, 0, 0, false, 0, 0⟩], tapsDeclared := true
                fadingFDMaxHz := 0, fadingGridUs := 1 }] }

/-- Two devices, with a link each way. -/
def pairOfLinks : TopologyConfig ℚ :=
  { devices := [plainDevice "a", plainDevice "b"]
    links := [plainLink "a" "b" "flat", plainLink "b" "a" "flat"]
    models := [("flat", oneTapModel "flat" 0)] }

/-- The same with a second path from `a` to `b`, five samples long, as the fold of the delays
leaves it. -/
def repeatedLink : TopologyConfig ℚ :=
  foldLinkLeadingDelays
    { pairOfLinks with
      links := pairOfLinks.links ++
        [{ plainLink "a" "b" "flat" with propagationDelaySamples := 5 }] }

theorem keys_distinct_pair : ∃ resolved, resolveTopology pairOfLinks = .ok resolved ∧
    KeysDistinct pairOfLinks resolved ∧ IdsApart pairOfLinks := by
  have hrun : (resolveTopology pairOfLinks).toOption.any (fun resolved =>
      decide ((resolved.lanes.map (·.key)).Nodup ∧ (rowKeys resolved).Nodup ∧
        (∀ key ∈ rowKeys resolved, key ∉ pairOfLinks.links.map linkKey) ∧
        ∀ key ∈ rowKeys resolved, key ∉ resolved.lanes.map (·.key))) = true := by
    decide +kernel
  cases hresolved : resolveTopology pairOfLinks with
  | error e =>
      rw [hresolved] at hrun
      cases hrun
  | ok resolved =>
      rw [hresolved] at hrun
      obtain ⟨hlanes, hrows, hlinksApart, hlanesApart⟩ := of_decide_eq_true hrun
      have hkeys : KeysDistinct pairOfLinks resolved :=
        ⟨by decide +kernel, hlanes, hrows, hlinksApart, hlanesApart⟩
      exact ⟨resolved, rfl, hkeys,
        (keys_distinct_iff pairOfLinks (by decide +kernel) resolved hresolved).mp hkeys⟩

theorem repeated_link_shares_keys : ¬ ∀ (config : TopologyConfig ℚ) (resolved : ResolvedTopology),
    validateConfig config = [] → resolveTopology config = .ok resolved →
      KeysDistinct config resolved := by
  intro h
  have hvalid : validateConfig repeatedLink = [] := by decide +kernel
  have hrun : (resolveTopology repeatedLink).toOption.isSome = true := by decide +kernel
  cases hresolved : resolveTopology repeatedLink with
  | error e =>
      rw [hresolved] at hrun
      cases hrun
  | ok resolved =>
      have hkeys := (h repeatedLink resolved hvalid hresolved).links
      revert hkeys
      decide +kernel
