/-
# What a call of the CUDA processor does

`process_superposition` in three passes: one snap for each link, the edge loop that stages every
edge and builds its steps, and the kernels.  With the edges of a node prepared and their keys
distinct, the passes do not interfere: every edge works on its own slot and its own device state,
behind the one snap of its link, and each row is the sum of its own edges.
-/
import GpuChannel.CudaBackend
import GpuChannel.CallOutcome

section CudaCalls

variable {K : Type} [Field K] [LinearOrder K] [FloorRing K] [Libm K]

open CudaChannelProcessor

/-! ## The step table -/

namespace StepTable

/-- The places of the first `n` edges lie inside the table. -/
structure Filled (t : StepTable K) (n : ℕ) : Prop where
  offsets : t.offsets.length = n
  counts : t.counts.length = n
  inside : ∀ k < n, t.offsets.getD k 0 + t.counts.getD k 0 ≤ t.steps.length

omit [Field K] [LinearOrder K] [FloorRing K] [Libm K] in
theorem filled_empty : (StepTable.empty K).Filled 0 :=
  ⟨rfl, rfl, fun _ hk => absurd hk (Nat.not_lt_zero _)⟩

variable {t : StepTable K} {n : ℕ}

omit [Field K] [LinearOrder K] [FloorRing K] [Libm K] in
theorem Filled.push (h : t.Filled n) (steps : List (GpuStep K)) : (t.push steps).Filled (n + 1) := by
  refine ⟨?_, ?_, ?_⟩
  · unfold StepTable.push
    rw [List.length_append, h.offsets, List.length_singleton]
  · unfold StepTable.push
    rw [List.length_append, h.counts, List.length_singleton]
  · intro k hk
    unfold StepTable.push
    dsimp only
    rw [List.length_append]
    rcases Nat.lt_succ_iff_lt_or_eq.mp hk with hlt | rfl
    · rw [List.getD_append t.offsets _ _ _ (h.offsets ▸ hlt),
        List.getD_append t.counts _ _ _ (h.counts ▸ hlt)]
      exact (h.inside k hlt).trans (Nat.le_add_right _ _)
    · rw [List.getD_append_right _ _ _ _ h.offsets.le, List.getD_append_right _ _ _ _ h.counts.le,
        h.offsets, h.counts, Nat.sub_self]
      exact le_refl _

omit [Field K] [LinearOrder K] [FloorRing K] [Libm K] in
/-- A new edge leaves the steps of the edges before it alone. -/
theorem Filled.edge_push_of_lt (h : t.Filled n) (steps : List (GpuStep K)) {k : ℕ} (hk : k < n) :
    (t.push steps).edge k = t.edge k := by
  have hinside := h.inside k hk
  unfold StepTable.edge StepTable.push
  dsimp only
  rw [List.getD_append t.offsets _ _ _ (h.offsets ▸ hk),
    List.getD_append t.counts _ _ _ (h.counts ▸ hk),
    List.drop_append_of_le_length (by omega), List.take_append_of_le_length]
  rw [List.length_drop]
  omega

omit [Field K] [LinearOrder K] [FloorRing K] [Libm K] in
/-- A new edge finds its steps. -/
theorem Filled.edge_push_self (h : t.Filled n) (steps : List (GpuStep K)) :
    (t.push steps).edge n = steps := by
  unfold StepTable.edge StepTable.push
  dsimp only
  rw [List.getD_append_right _ _ _ _ h.offsets.le, List.getD_append_right _ _ _ _ h.counts.le,
    h.offsets, h.counts, Nat.sub_self, List.getD_cons_zero, List.getD_cons_zero, List.drop_left,
    List.take_length]

end StepTable

/-! ## The snap pass -/

/-- The slots and links of the inputs are there, each key once. -/
structure SlotsReady (slots : String → Option (LinkModelState K)) (links : LinkTable K)
    (inputs : List (SuperpositionInput K)) : Prop where
  nodup : (inputs.map (·.linkKey)).Nodup
  ready : ∀ input ∈ inputs, ∃ ms link, slots input.linkKey = some ms ∧ links ms.link = some link

/-- **Where the snap pass stands**: the links that were reached are snapped, once. -/
structure SnapsDone (links : LinkTable K) (count : ℕ)
    (acc : LinkTable K × List (String × LinkSnapOutcome)) : Prop where
  nodup : (acc.2.map (·.1)).Nodup
  reached : ∀ k link, k ∈ acc.2.map (·.1) → links k = some link →
    acc.1 k = some (link.snap count).1 ∧ acc.2.lookup k = some (link.snap count).2
  others : ∀ k, k ∉ acc.2.map (·.1) → acc.1 k = links k

variable {slots : String → Option (LinkModelState K)} {links : LinkTable K}
  {inputs : List (SuperpositionInput K)} {count : ℕ}
  {acc : LinkTable K × List (String × LinkSnapOutcome)}

omit [Libm K] in
theorem SnapsDone.start (links : LinkTable K) (count : ℕ) : SnapsDone links count (links, []) :=
  ⟨List.nodup_nil, fun _ _ hk => absurd hk List.not_mem_nil, fun _ _ => rfl⟩

theorem lookup_isSome_iff {α : Type} (l : List (String × α)) (k : String) :
    (l.lookup k).isSome = true ↔ k ∈ l.map (·.1) := by
  induction l with
  | nil => simp
  | cons entry l ih =>
      rw [List.lookup_cons, List.map_cons, List.mem_cons]
      by_cases hk : k = entry.1
      · simp [hk]
      · simp [hk, ih, beq_eq_false_iff_ne.mpr hk]

omit [Libm K] in
/-- **One edge of the snap pass.** -/
theorem SnapsDone.snapInput (h : SnapsDone links count acc) {edge : SuperpositionInput K}
    {ms : LinkModelState K} {link : PhysicalLinkRuntime K} (hslot : slots edge.linkKey = some ms)
    (hlink : links ms.link = some link) :
    SnapsDone links count (snapInput count slots acc edge) ∧
      ∀ k, k ∈ (snapInput count slots acc edge).2.map (·.1) ↔
        k ∈ acc.2.map (·.1) ∨ k = ms.link := by
  unfold CudaChannelProcessor.snapInput
  rw [hslot]
  dsimp only
  -- a link is snapped at its first edge, and not again
  by_cases hreached : (acc.2.lookup ms.link).isSome = true
  · rw [if_pos hreached]
    rw [lookup_isSome_iff] at hreached
    refine ⟨h, fun k => ⟨Or.inl, ?_⟩⟩
    rintro (hk | rfl)
    · exact hk
    · exact hreached
  · rw [if_neg hreached]
    rw [lookup_isSome_iff] at hreached
    have hcurrent : (acc.1 ms.link).getD PhysicalLinkRuntime.default = link := by
      rw [h.others _ hreached, hlink, Option.getD_some]
    rw [hcurrent]
    have hkeys : ∀ k, k ∈ (acc.2 ++ [(ms.link, (link.snap count).2)]).map (·.1) ↔
        k ∈ acc.2.map (·.1) ∨ k = ms.link := by
      intro k
      rw [List.map_append, List.mem_append, List.map_singleton, List.mem_singleton]
    refine ⟨⟨?_, ?_, ?_⟩, hkeys⟩
    · dsimp only
      rw [List.map_append, List.map_singleton]
      exact h.nodup.append (List.nodup_singleton _) (List.disjoint_singleton.mpr hreached)
    · intro k link' hk hlink'
      dsimp only
      rcases (hkeys k).mp hk with hold | rfl
      · have hne : k ≠ ms.link := fun heq => hreached (heq ▸ hold)
        obtain ⟨hk₁, hk₂⟩ := h.reached k link' hold hlink'
        refine ⟨?_, ?_⟩
        · rw [Function.update_of_ne hne, hk₁]
        · rw [List.lookup_append, hk₂, Option.some_or]
      · obtain rfl := Option.some.inj (hlink.symm.trans hlink')
        refine ⟨Function.update_self .., ?_⟩
        have hnone : acc.2.lookup ms.link = none := by
          rw [← Option.not_isSome_iff_eq_none, lookup_isSome_iff]
          exact hreached
        rw [List.lookup_append, hnone, Option.none_or, List.lookup_cons_self]
    · intro k hk
      rw [hkeys, not_or] at hk
      dsimp only
      rw [Function.update_of_ne hk.2, h.others k hk.1]

omit [Libm K] in
/-- **The snap pass**: every link of the inputs is snapped once, and no other is touched. -/
theorem snapInputs_spec (hready : ∀ input ∈ inputs, ∃ ms link, slots input.linkKey = some ms ∧
    links ms.link = some link) (count : ℕ) :
    let acc := inputs.foldl (snapInput count slots) (links, [])
    SnapsDone links count acc ∧ ∀ k, k ∈ acc.2.map (·.1) ↔
      ∃ input ∈ inputs, ∃ ms, slots input.linkKey = some ms ∧ ms.link = k := by
  suffices hfrom : ∀ (todo : List (SuperpositionInput K)), todo ⊆ inputs → ∀ acc,
      SnapsDone links count acc → SnapsDone links count (todo.foldl (snapInput count slots) acc) ∧
        ∀ k, k ∈ (todo.foldl (snapInput count slots) acc).2.map (·.1) ↔ k ∈ acc.2.map (·.1) ∨
          ∃ input ∈ todo, ∃ ms, slots input.linkKey = some ms ∧ ms.link = k by
    obtain ⟨hdone, hkeys⟩ := hfrom inputs (List.Subset.refl _) _ (SnapsDone.start links count)
    refine ⟨hdone, fun k => (hkeys k).trans ?_⟩
    simp
  intro todo
  induction todo with
  | nil =>
      intro _ acc hacc
      refine ⟨hacc, fun k => ?_⟩
      simp
  | cons edge todo ih =>
      intro hsub acc hacc
      rw [List.cons_subset] at hsub
      obtain ⟨ms, link, hslot, hlink⟩ := hready edge hsub.1
      obtain ⟨hstep, hkeys⟩ := hacc.snapInput hslot hlink
      obtain ⟨hdone, hall⟩ := ih hsub.2 _ hstep
      refine ⟨hdone, fun k => ?_⟩
      rw [List.foldl_cons, hall, hkeys]
      constructor
      · rintro ((hk | rfl) | ⟨input, hinput, hms⟩)
        · exact Or.inl hk
        · exact Or.inr ⟨edge, List.mem_cons_self, ms, hslot, rfl⟩
        · exact Or.inr ⟨input, List.mem_cons_of_mem _ hinput, hms⟩
      · rintro (hk | ⟨input, hinput, ms', hms', rfl⟩)
        · exact Or.inl (Or.inl hk)
        · rcases List.mem_cons.mp hinput with rfl | hinput
          · obtain rfl := Option.some.inj (hslot.symm.trans hms')
            exact Or.inl (Or.inr rfl)
          · exact Or.inr ⟨input, hinput, ms', hms', rfl⟩

/-! ## The edge loop -/

/-- The slot of an edge behind the snap of its link. -/
def snapSlot (after : PhysicalLinkRuntime K × LinkSnapOutcome) (ms : LinkModelState K) :
    LinkModelState K :=
  if after.2.valuesChanged then { ms with live := after.1.live } else ms

omit [Field K] [LinearOrder K] [FloorRing K] [Libm K] in
@[simp] theorem snapSlot_laneIndex (after : PhysicalLinkRuntime K × LinkSnapOutcome)
    (ms : LinkModelState K) : (snapSlot after ms).laneIndex = ms.laneIndex := by
  unfold snapSlot
  split_ifs <;> rfl

omit [Field K] [LinearOrder K] [FloorRing K] [Libm K] in
@[simp] theorem snapSlot_link (after : PhysicalLinkRuntime K × LinkSnapOutcome)
    (ms : LinkModelState K) : (snapSlot after ms).link = ms.link := by
  unfold snapSlot
  split_ifs <;> rfl

/-- **What the edge loop finds of an edge**, and the device state that the refresh gives. -/
structure EdgeData (K : Type) where
  model : ModelConfig K
  ms : LinkModelState K
  after : PhysicalLinkRuntime K × LinkSnapOutcome
  before : DeviceLinkState K
  refreshed : DeviceLinkState K

/-- The slot of an edge behind the edge loop. -/
def EdgeData.built (e : EdgeData K) (sources : List (List (Iq K))) (count sampleRateHz : ℕ) :
    LinkModelState K :=
  buildSteps (snapSlot e.after e.ms) e.model (some (sources.getD e.refreshed.srcIndex [])) count
    sampleRateHz

variable (sp : CudaSuperposeState K) (outcomes : List (String × LinkSnapOutcome))
  (sources : List (List (Iq K))) (rate : ℕ)

/-- The edge is ready for the loop of the device path. -/
structure EdgeReady (slots : String → Option (LinkModelState K)) (links : LinkTable K) (count : ℕ)
    (states : List (DeviceLinkState K)) (k : ℕ) (edge : SuperpositionInput K) (e : EdgeData K) :
    Prop where
  model : edge.model = some e.model
  samples : edge.samples.length = count
  fits : e.model.chain.length ≤ sp.maxSteps
  slot : slots edge.linkKey = some e.ms
  link : links e.ms.link = some e.after.1
  outcome : outcomes.lookup e.ms.link = some e.after.2
  state : states[k]? = some e.before
  refresh : e.before.snapRefresh e.after.1 e.after.2 e.ms.laneIndex = .ok e.refreshed

/-- **What the edge loop leaves of an edge.** -/
structure EdgeDone (count : ℕ) (acc : Staging K) (k : ℕ) (edge : SuperpositionInput K)
    (e : EdgeData K) : Prop where
  slot : acc.slots edge.linkKey = some (e.built sources count rate)
  state : acc.linkStates[k]? = some e.refreshed
  steps : acc.table.edge k = (e.built sources count rate).hostSteps.take e.model.chain.length
  staged : acc.staged[k]? = some (sources.getD e.refreshed.srcIndex [])
  next : acc.nextSlotStart[k]? = some (e.after.1.slotStartSamples + count)

variable {sp outcomes sources rate} {states : List (DeviceLinkState K)} {st : Staging K}
  {k : ℕ} {edge : SuperpositionInput K} {e : EdgeData K}

/-- One round of the edge loop on the device path. -/
theorem stageEdge_device (hdevice : sp.useDeviceChannel = true)
    (h : EdgeReady sp outcomes st.slots links count st.linkStates k edge e) :
    ∃ groups, stageEdge sp links outcomes sources count rate st (edge, k) = .ok
      { slots := Function.update st.slots edge.linkKey (some (e.built sources count rate))
        linkStates := st.linkStates.set k e.refreshed
        groups := groups
        table := st.table.push
          ((e.built sources count rate).hostSteps.take e.model.chain.length)
        staged := st.staged ++ [sources.getD e.refreshed.srcIndex []]
        nextSlotStart := st.nextSlotStart ++ [e.after.1.slotStartSamples + count] } := by
  have hrefresh : (st.linkStates.getD k DeviceLinkState.zero).snapRefresh e.after.1 e.after.2
      (snapSlot e.after e.ms).laneIndex = .ok e.refreshed := by
    rw [List.getD_eq_getElem?_getD, h.state, Option.getD_some, snapSlot_laneIndex]
    exact h.refresh
  unfold stageEdge
  dsimp only
  rw [h.model]
  dsimp only
  rw [if_neg (not_not_intro h.samples), if_neg (Nat.not_lt.mpr h.fits), h.slot]
  dsimp only
  rw [h.link, h.outcome, Option.getD_some, Option.getD_some, if_pos hdevice]
  unfold snapSlot at hrefresh
  rw [hrefresh, ok_bind, if_pos hdevice,
    if_neg (fun hboth => absurd (hdevice.symm.trans hboth.2) (by decide))]
  exact ⟨_, rfl⟩

/-- **Where the edge loop stands** after `n` edges. -/
structure StagedTo (sp : CudaSuperposeState K) (outcomes : List (String × LinkSnapOutcome))
    (sources : List (List (Iq K))) (rate : ℕ) (slots : String → Option (LinkModelState K))
    (links : LinkTable K) (count : ℕ) (states : List (DeviceLinkState K))
    (inputs : List (SuperpositionInput K)) (n : ℕ) (acc : Staging K) : Prop where
  length : acc.linkStates.length = states.length
  waitingSlots : ∀ k edge, n ≤ k → inputs[k]? = some edge →
    acc.slots edge.linkKey = slots edge.linkKey
  waitingStates : ∀ k, n ≤ k → acc.linkStates[k]? = states[k]?
  done : ∀ k edge e, k < n → inputs[k]? = some edge →
    EdgeReady sp outcomes slots links count states k edge e →
      EdgeDone sources rate count acc k edge e
  others : ∀ key, key ∉ inputs.map (·.linkKey) → acc.slots key = slots key
  table : acc.table.Filled n
  staged : acc.staged.length = n
  starts : acc.nextSlotStart.length = n

theorem EdgeReady.unique {e' : EdgeData K}
    (h : EdgeReady sp outcomes slots links count states k edge e)
    (h' : EdgeReady sp outcomes slots links count states k edge e') : e = e' := by
  have hmodel := Option.some.inj (h.model.symm.trans h'.model)
  have hms := Option.some.inj (h.slot.symm.trans h'.slot)
  have hlink := h.link
  have hout := h.outcome
  have hstate := Option.some.inj (h.state.symm.trans h'.state)
  have hok := h.refresh
  rw [hms] at hlink hout hok
  have hafter : e.after = e'.after := Prod.ext (Option.some.inj (hlink.symm.trans h'.link))
    (Option.some.inj (hout.symm.trans h'.outcome))
  rw [hafter, hstate] at hok
  have hrefreshed := Except.ok.inj (hok.symm.trans h'.refresh)
  cases e
  cases e'
  dsimp only at hmodel hms hafter hstate hrefreshed
  rw [hmodel, hms, hafter, hstate, hrefreshed]

theorem StagedTo.start (slots : String → Option (LinkModelState K)) (links : LinkTable K)
    (states : List (DeviceLinkState K)) (inputs : List (SuperpositionInput K))
    (groups : List (DeviceCorrelationGroup K)) :
    StagedTo sp outcomes sources rate slots links count states inputs 0
      ⟨slots, states, groups, StepTable.empty K, [], []⟩ where
  length := rfl
  waitingSlots _ _ _ _ := rfl
  waitingStates _ _ := rfl
  done _ _ _ hk := absurd hk (Nat.not_lt_zero _)
  others _ _ := rfl
  table := StepTable.filled_empty
  staged := rfl
  starts := rfl

omit [Field K] [LinearOrder K] [FloorRing K] [Libm K] in
/-- Two inputs under one key are one input. -/
theorem input_unique (hnodup : (inputs.map (·.linkKey)).Nodup) {j : ℕ}
    {a b : SuperpositionInput K} (ha : inputs[j]? = some a) (hb : inputs[k]? = some b)
    (hkey : a.linkKey = b.linkKey) : j = k := by
  have hj : (inputs.map (·.linkKey))[j]? = some b.linkKey := by
    rw [List.getElem?_map, ha, Option.map_some, hkey]
  have hk : (inputs.map (·.linkKey))[k]? = some b.linkKey := by
    rw [List.getElem?_map, hb, Option.map_some]
  exact (List.getElem?_inj (List.getElem?_eq_some_iff.mp hj).1 hnodup).mp (hj.trans hk.symm)

/-- **One edge.** -/
theorem StagedTo.stageEdge {n : ℕ}
    (h : StagedTo sp outcomes sources rate slots links count states inputs n st)
    (hnodup : (inputs.map (·.linkKey)).Nodup) (hdevice : sp.useDeviceChannel = true)
    (hedge : inputs[n]? = some edge)
    (hready : EdgeReady sp outcomes slots links count states n edge e) :
    ∃ st', stageEdge sp links outcomes sources count rate st (edge, n) = .ok st' ∧
      StagedTo sp outcomes sources rate slots links count states inputs (n + 1) st' := by
  have hcurrent : EdgeReady sp outcomes st.slots links count st.linkStates n edge e :=
    ⟨hready.model, hready.samples, hready.fits, (h.waitingSlots n edge le_rfl hedge).trans hready.slot,
      hready.link, hready.outcome, (h.waitingStates n le_rfl).trans hready.state, hready.refresh⟩
  obtain ⟨groups, hstep⟩ := @stageEdge_device _ _ _ _ _ _ _ sp outcomes sources rate st n edge e hdevice hcurrent
  refine ⟨_, hstep, ?_⟩
  -- no other edge has this key, so the write to the slots is seen by this edge only
  have hother : ∀ k a, k ≠ n → inputs[k]? = some a → a.linkKey ≠ edge.linkKey :=
    fun k a hk ha hkey => hk (input_unique hnodup ha hedge hkey)
  have hroom : n < st.linkStates.length := by
    rw [h.length]
    exact (List.getElem?_eq_some_iff.mp hready.state).1
  constructor
  case length => exact (List.length_set ..).trans h.length
  case waitingSlots =>
    intro k a hk ha
    dsimp only
    rw [Function.update_of_ne (hother k a (by omega) ha)]
    exact h.waitingSlots k a (by omega) ha
  case waitingStates =>
    intro k hk
    dsimp only
    rw [List.getElem?_set_ne (by omega)]
    exact h.waitingStates k (by omega)
  case done =>
    intro k a e' hk ha he'
    -- the edges before this one keep what was staged for them
    rcases Nat.lt_succ_iff_lt_or_eq.mp hk with hlt | rfl
    · have hold := h.done k a e' hlt ha he'
      constructor
      · dsimp only
        rw [Function.update_of_ne (hother k a hlt.ne ha)]
        exact hold.slot
      · dsimp only
        rw [List.getElem?_set_ne hlt.ne']
        exact hold.state
      · exact (h.table.edge_push_of_lt _ hlt).trans hold.steps
      · exact (List.getElem?_append_left (h.staged ▸ hlt)).trans hold.staged
      · exact (List.getElem?_append_left (h.starts ▸ hlt)).trans hold.next
    · obtain rfl := Option.some.inj (hedge.symm.trans ha)
      obtain rfl := hready.unique he'
      constructor
      · exact Function.update_self ..
      · exact List.getElem?_set_self hroom
      · exact h.table.edge_push_self _
      · dsimp only
        rw [← h.staged]
        exact List.getElem?_concat_length
      · dsimp only
        rw [← h.starts]
        exact List.getElem?_concat_length
  case others =>
    intro key hkey
    dsimp only
    rw [Function.update_of_ne]
    · exact h.others key hkey
    · rintro rfl
      exact hkey (List.mem_map_of_mem (List.mem_of_getElem? hedge))
  case table => exact h.table.push _
  case staged =>
    dsimp only
    rw [List.length_append, h.staged, List.length_singleton]
  case starts =>
    dsimp only
    rw [List.length_append, h.starts, List.length_singleton]

/-- **The edge loop**: it throws nothing, and leaves every edge as it should. -/
theorem stageEdges_spec (sources : List (List (Iq K))) (hnodup : (inputs.map (·.linkKey)).Nodup)
    (hdevice : sp.useDeviceChannel = true) (groups : List (DeviceCorrelationGroup K))
    (hready : ∀ (k : ℕ) (edge : SuperpositionInput K), inputs[k]? = some edge →
      ∃ e, EdgeReady sp outcomes slots links count states k edge e) :
    ∃ acc, inputs.zipIdx.foldlM (stageEdge sp links outcomes sources count rate)
        ⟨slots, states, groups, StepTable.empty K, [], []⟩ = .ok acc ∧
      StagedTo sp outcomes sources rate slots links count states inputs inputs.length acc := by
  suffices hfrom : ∀ (todo : List (SuperpositionInput K)) (n : ℕ) (st : Staging K),
      inputs.drop n = todo → n ≤ inputs.length →
      StagedTo sp outcomes sources rate slots links count states inputs n st →
      ∃ acc, (todo.zipIdx n).foldlM (stageEdge sp links outcomes sources count rate) st = .ok acc ∧
        StagedTo sp outcomes sources rate slots links count states inputs inputs.length acc from
    hfrom inputs 0 _ rfl (Nat.zero_le _) (StagedTo.start slots links states inputs groups)
  intro todo
  induction todo with
  | nil =>
      intro n st hdrop hn h
      have hlen : inputs.length ≤ n := List.drop_eq_nil_iff.mp hdrop
      obtain rfl : n = inputs.length := le_antisymm hn hlen
      exact ⟨st, rfl, h⟩
  | cons edge todo ih =>
      intro n st hdrop hn h
      have hedge : inputs[n]? = some edge := by
        have hhead := congrArg List.head? hdrop
        rwa [List.head?_drop, List.head?_cons] at hhead
      have hrest : inputs.drop (n + 1) = todo := by
        have htail := congrArg List.tail hdrop
        rwa [List.tail_drop, List.tail_cons] at htail
      obtain ⟨e, he⟩ := hready n edge hedge
      obtain ⟨st', hstep, hst'⟩ := h.stageEdge hnodup hdevice hedge he
      have hlt := (List.getElem?_eq_some_iff.mp hedge).1
      obtain ⟨acc, hfold, hacc⟩ := ih (n + 1) st' hrest hlt hst'
      refine ⟨acc, ?_, hacc⟩
      rw [List.zipIdx_cons, List.foldlM_cons, hstep, ok_bind]
      exact hfold

/-! ## The clocks and the rows -/

omit [Field K] [LinearOrder K] [FloorRing K] [Libm K] in
/-- Every touched clock moves on, once. -/
theorem advanceClocks_apply (links : LinkTable K) {touched : List String} (hnodup : touched.Nodup)
    (count : ℕ) (k : String) :
    CudaChannelProcessor.advanceClocks links touched count k =
      if k ∈ touched then
        (links k).map fun link => { link with slotStartSamples := link.slotStartSamples + count }
      else links k := by
  unfold CudaChannelProcessor.advanceClocks
  induction touched generalizing links with
  | nil => rfl
  | cons k₀ touched ih =>
      rw [List.nodup_cons] at hnodup
      rw [List.foldl_cons, ih _ hnodup.2]
      by_cases hk : k = k₀
      · subst hk
        rw [if_neg hnodup.1, if_pos List.mem_cons_self, Function.update_self]
      · rw [Function.update_of_ne hk]
        simp only [List.mem_cons, hk, false_or]

section Rows

variable [Curand K]

omit [LinearOrder K] [FloorRing K] in
/-- One sample behind the steps of its edge. -/
theorem applyStepsKernel_getD (steps : List (GpuStep K)) {row : List (Iq K)} {idx : ℕ}
    (h : idx < row.length) :
    (applyStepsKernel steps row).getD idx 0 = applyChain steps idx (row.getD idx 0) := by
  unfold applyStepsKernel
  rw [List.getD_eq_getElem?_getD, List.getD_eq_getElem?_getD, List.getElem?_mapIdx,
    List.getElem?_eq_getElem h]
  rfl

omit [LinearOrder K] [FloorRing K] in
/-- **A row is the sum of its edges**, each behind its own steps. -/
theorem superposeRow_eq {table : StepTable K} {staged : List (List (Iq K))} {outs : ℕ → List (Iq K)}
    {first last : ℕ} (hstaged : ∀ k, first ≤ k → k < last → (staged.getD k []).length = count)
    (houts : ∀ k, first ≤ k → k < last →
      outs k = applyStepsKernel (table.edge k) (staged.getD k [])) :
    superposeRow table staged count first last = (List.range count).map fun idx =>
      (List.range' first (last - first)).foldl (fun acc k => acc + (outs k).getD idx 0) 0 := by
  unfold superposeRow
  apply List.map_congr_left
  intro idx hidx
  rw [List.mem_range] at hidx
  apply List.foldl_ext
  intro acc k hk
  rw [List.mem_range'_1] at hk
  have hlt : k < last := by omega
  rw [houts k hk.1 hlt, applyStepsKernel_getD]
  rw [hstaged k hk.1 hlt]
  exact hidx

end Rows

/-! ## The call -/

section Call

variable [Curand K] {p : CudaChannelProcessor K}

/-- A call, with the rows it produces. -/
def CudaChannelProcessor.serve (p : CudaChannelProcessor K) (call : SuperpositionCall K) :
    Except String (CudaChannelProcessor K × List (List (Iq K))) :=
  p.processSuperposition call.dstKey call.inputs call.rxModel call.sampleRateHz call.rowSizes

/-- **An edge before the call**: its slot, its link, its device state, and a refresh that succeeds
behind the snap. -/
structure EdgeWaits (p : CudaChannelProcessor K) (sp : CudaSuperposeState K) (count k : ℕ)
    (edge : SuperpositionInput K) (e : EdgeData K) (before : PhysicalLinkRuntime K) : Prop where
  model : edge.model = some e.model
  samples : edge.samples.length = count
  fits : e.model.chain.length ≤ sp.maxSteps
  slot : p.linkSlots edge.linkKey = some e.ms
  link : p.links e.ms.link = some before
  after : e.after = before.snap count
  state : sp.linkStates[k]? = some e.before
  refresh : e.before.snapRefresh e.after.1 e.after.2 e.ms.laneIndex = .ok e.refreshed

/-- What the snap pass of a call leaves. -/
def callSnaps (p : CudaChannelProcessor K) (count : ℕ) (inputs : List (SuperpositionInput K)) :
    LinkTable K × List (String × LinkSnapOutcome) :=
  inputs.foldl (snapInput count p.linkSlots) (p.links, [])

omit [Libm K] [Curand K] in
theorem callSnaps_spec (hready : ∀ input ∈ inputs, ∃ ms link, p.linkSlots input.linkKey = some ms ∧
    p.links ms.link = some link) (count : ℕ) :
    SnapsDone p.links count (callSnaps p count inputs) ∧
      ∀ k, k ∈ (callSnaps p count inputs).2.map (·.1) ↔
        ∃ input ∈ inputs, ∃ ms, p.linkSlots input.linkKey = some ms ∧ ms.link = k :=
  snapInputs_spec hready count

variable {dstKey : String} {nr : ℕ}

omit [Curand K] in
/-- An edge that waits is ready behind the snap pass. -/
theorem EdgeWaits.ready {link : PhysicalLinkRuntime K} (h : EdgeWaits p sp count k edge e link)
    (hready : SlotsReady p.linkSlots p.links inputs) (hedge : edge ∈ inputs) :
    EdgeReady sp (callSnaps p count inputs).2 p.linkSlots (callSnaps p count inputs).1 count
      sp.linkStates k edge e := by
  obtain ⟨hdone, hkeys⟩ := callSnaps_spec hready.ready count
  have hreached := (hkeys e.ms.link).mpr ⟨edge, hedge, e.ms, h.slot, rfl⟩
  obtain ⟨hlink, houtcome⟩ := hdone.reached e.ms.link link hreached h.link
  refine ⟨h.model, h.samples, h.fits, h.slot, ?_, ?_, h.state, h.refresh⟩
  · rw [h.after]
    exact hlink
  · rw [h.after]
    exact houtcome

/-- **A call on the device path**, without a receiver model: no check fails, and the edges are
staged as the edge loop leaves them. -/
theorem processSuperposition_device (rate : ℕ) (hstate : p.superposeStates dstKey = some sp)
    (hdevice : sp.useDeviceChannel = true) (hrows : sp.table.rows = nr) (hnr : nr ≠ 0)
    (hpos : count ≠ 0) (hcapacity : count ≤ sp.capacity) (hsome : inputs ≠ [])
    (hchecks : checkInputs sp.table dstKey (inputs.map (inputRow nr)) = .ok ())
    (hsources : ∀ xs ∈ packSources sp inputs, xs.length = count)
    (hready : SlotsReady p.linkSlots p.links inputs)
    (hedges : ∀ (k : ℕ) (edge : SuperpositionInput K), inputs[k]? = some edge →
      ∃ e link, EdgeWaits p sp count k edge e link) :
    ∃ acc, StagedTo sp (callSnaps p count inputs).2 (packSources sp inputs) rate p.linkSlots
        (callSnaps p count inputs).1 count sp.linkStates inputs inputs.length acc ∧
      p.processSuperposition dstKey inputs none rate (List.replicate nr count) = .ok
        ({ linkSlots := acc.slots
           superposeStates := Function.update p.superposeStates dstKey (some
            { sp with linkStates := (runChannel acc count rate).2, groups := acc.groups })
           links := CudaChannelProcessor.advanceClocks (callSnaps p count inputs).1
            ((callSnaps p count inputs).2.map (·.1)) count },
          (List.range nr).map fun r => superposeRow acc.table (runChannel acc count rate).1 count
            (sp.table.rowBegin.getD r 0) (sp.table.rowBegin.getD (r + 1) 0)) := by
  obtain ⟨acc, hfold, hacc⟩ := stageEdges_spec (packSources sp inputs) hready.nodup
    hdevice sp.groups fun k edge hedge => by
      obtain ⟨e, link, he⟩ := hedges k edge hedge
      exact ⟨e, he.ready hready (List.mem_of_getElem? hedge)⟩
  refine ⟨acc, hacc, ?_⟩
  obtain ⟨m, rfl⟩ := Nat.exists_eq_succ_of_ne_zero hnr
  -- the source rows and the output rows have the length of the slot
  have hlengths : ¬ (packSources sp inputs).any (fun xs => decide (xs.length ≠ count)) = true := by
    rw [List.any_eq_true]
    rintro ⟨xs, hxs, hne⟩
    exact of_decide_eq_true hne (hsources xs hxs)
  have hequal : ¬ (count :: List.replicate m count).any (fun size => decide (size ≠ count)) = true := by
    rw [List.any_eq_true]
    rintro ⟨size, hsize, hne⟩
    have hsize' : size ∈ List.replicate (m + 1) count := hsize
    exact of_decide_eq_true hne (List.eq_of_mem_replicate hsize')
  -- so every check of the call passes
  unfold CudaChannelProcessor.processSuperposition
  rw [List.replicate_succ]
  dsimp only
  rw [hstate]
  dsimp only
  rw [if_neg (not_not_intro (by rw [hrows, List.length_cons, List.length_replicate])), if_neg hequal,
    if_neg hpos, if_neg (Nat.not_lt.mpr hcapacity), if_neg (by simpa using hsome), hrows, hchecks,
    ok_bind, if_neg (fun hboth => absurd hboth.1 Bool.false_ne_true),
    if_neg (fun hboth => hlengths hboth.2)]
  unfold callSnaps at hfold ⊢
  rw [hfold, ok_bind, if_pos hdevice]
  rfl

end Call

end CudaCalls
