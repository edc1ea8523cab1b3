/-
# The two backends

The CPU processor and the CUDA processor on one topology of static lanes.  Both are prepared from the
same configuration, take the same publications and serve the same slots.  The lanes stay parallel, so
every slot that the CPU serves is served by the GPU as well, with the same rows in exact arithmetic.
-/
import GpuChannel.CpuRows
import GpuChannel.LaneParity
import GpuChannel.NodeSlots

/-! ## A snap and the grids -/

section Snap

variable {K : Type} [LinearOrder K]

namespace PhysicalLinkRuntime

/-- A block of the snap that passes the grids on, whatever they are. -/
def BlindToFading (f : PhysicalLinkRuntime K × LinkSnapOutcome → PhysicalLinkRuntime K × LinkSnapOutcome) :
    Prop :=
  ∀ s fading, ∃ fading', f ({ s.1 with fading := fading }, s.2) =
    ({ (f s).1 with fading := fading' }, (f s).2)

omit [LinearOrder K] in
/-- Two blind blocks are blind together. -/
theorem BlindToFading.comp
    {f g : PhysicalLinkRuntime K × LinkSnapOutcome → PhysicalLinkRuntime K × LinkSnapOutcome}
    (hf : BlindToFading f) (hg : BlindToFading g) : BlindToFading fun s => f (g s) := by
  intro s fading
  obtain ⟨fading₁, h₁⟩ := hg s fading
  obtain ⟨fading₂, h₂⟩ := hf (g s) fading₁
  refine ⟨fading₂, ?_⟩
  dsimp only
  rw [h₁, h₂]

omit [LinearOrder K] in
/-- The profile block does not look at the grids. -/
theorem snapProfile_blind : BlindToFading (snapProfile : _ → PhysicalLinkRuntime K × _) := by
  intro s fading
  refine ⟨fading, ?_⟩
  by_cases h : s.2.valuesChanged ∧ s.1.control.profilePending ∧ s.1.profileEligible
  · have h' : s.2.valuesChanged ∧ s.1.control.profilePending ∧
        ({ s.1 with fading := fading } : PhysicalLinkRuntime K).profileEligible := h
    unfold snapProfile
    dsimp only
    rw [if_pos h, if_pos h']
  · have h' : ¬ (s.2.valuesChanged ∧ s.1.control.profilePending ∧
        ({ s.1 with fading := fading } : PhysicalLinkRuntime K).profileEligible) := h
    unfold snapProfile
    dsimp only
    rw [if_neg h, if_neg h']

/-- The matrix block does not look at the grids. -/
theorem snapMatrix_blind : BlindToFading (snapMatrix : _ → PhysicalLinkRuntime K × _) := by
  intro s fading
  refine ⟨fading, ?_⟩
  by_cases h : s.2.valuesChanged ∧ s.1.control.matrixProfilePending ∧ s.1.matrixEligible
  · have h' : s.2.valuesChanged ∧ s.1.control.matrixProfilePending ∧
        ({ s.1 with fading := fading } : PhysicalLinkRuntime K).matrixEligible := h
    unfold snapMatrix
    dsimp only
    rw [if_pos h, if_pos h']
  · have h' : ¬ (s.2.valuesChanged ∧ s.1.control.matrixProfilePending ∧
        ({ s.1 with fading := fading } : PhysicalLinkRuntime K).matrixEligible) := h
    unfold snapMatrix
    dsimp only
    rw [if_neg h, if_neg h']

omit [LinearOrder K] in
/-- The correlation block passes the grids on. -/
theorem snapCorrelation_blind : BlindToFading (snapCorrelation : _ → PhysicalLinkRuntime K × _) := by
  intro s fading
  unfold snapCorrelation
  dsimp only
  split_ifs
  · exact ⟨_, rfl⟩
  · exact ⟨_, rfl⟩

/-- The warm-up block does not look at the grids. -/
theorem snapWarmup_blind [Field K] [FloorRing K] (snapIdx count : ℕ) :
    BlindToFading (snapWarmup snapIdx count : _ → PhysicalLinkRuntime K × _) := by
  intro s fading
  exact ⟨fading, rfl⟩

/-- **A snap does not see the grids.** -/
theorem snap_fading [Field K] [FloorRing K] (link : PhysicalLinkRuntime K) (fading : PhysicalLinkFading K) (count : ℕ) :
    ∃ fading', ({ link with fading := fading } : PhysicalLinkRuntime K).snap count =
      ({ (link.snap count).1 with fading := fading' }, (link.snap count).2) := by
  have hblocks := (snapWarmup_blind (K := K) link.nextSlot count).comp
    ((snapCorrelation_blind (K := K)).comp (snapMatrix_blind.comp snapProfile_blind))
  exact hblocks link.snapValues fading

end PhysicalLinkRuntime

end Snap

/-! ## One lane in one slot -/

noncomputable section

section Lane

variable {model : ModelConfig ℝ} {first : ModelStep ℝ} {rest : List (ModelStep ℝ)}
  {link : PhysicalLinkRuntime ℝ} {st : LinkState ℝ} {ms : LinkModelState ℝ}
  {d d' : DeviceLinkState ℝ}

open DeviceLinkState

/-- The refresh behind the snap succeeds. -/
theorem LaneParallel.refreshes (h : LaneParallel model first link st ms d)
    (hfit : link.FitsLane st.laneIndex) (count : ℕ) :
    ∃ d', d.snapRefresh (link.snap count).1 (link.snap count).2 ms.laneIndex = .ok d' := by
  obtain ⟨tdl, others, φ, phases, -, -, htdl, -⟩ := h.steps
  rw [h.laneIndex]
  exact htdl.refreshes hfit.swaps (link.snap_swaps count hfit.swaps.onePending) (hfit.snap count).live

/-- The refresh of an edge keeps its source. -/
theorem snapRefresh_srcIndex {after : PhysicalLinkRuntime ℝ × LinkSnapOutcome} {laneIndex : ℕ}
    (hok : d.snapRefresh after.1 after.2 laneIndex = .ok d') : d'.srcIndex = d.srcIndex := by
  cases htdl : d.hasTdl with
  | false =>
      unfold snapRefresh at hok
      rw [if_neg (fun hboth => Bool.false_ne_true (htdl.symm.trans hboth.2))] at hok
      rw [Except.ok.inj hok]
  | true =>
      have hload : ∀ {t : DeviceLinkState ℝ} {profile : ProfileShadow ℝ},
          { d with live := after.1.live }.refreshAllTapsFromLive profile = .ok t →
          t.srcIndex = d.srcIndex := by
        intro t profile ht
        have hlive : ({ d with live := after.1.live } : DeviceLinkState ℝ).hasTdl = true := htdl
        obtain ⟨-, -, rfl⟩ := refreshAllTapsFromLive_eq_ok hlive ht
        rfl
      cases snapRefresh_cases htdl hok with
      | unchanged => rfl
      | matrix _ _ _ ht =>
          have hsource := hload ht
          exact hsource
      | gains => rfl
      | profile _ _ ht =>
          rw [apply_ite srcIndex]
          have hsource := hload ht
          split_ifs
          · exact hsource
          · exact hsource
      | tap0 =>
          unfold refreshTap0FromLive
          split_ifs <;> rfl

/-- The ring kernel keeps the source of an edge. -/
theorem updateDelayLineKernel_srcIndex (d : DeviceLinkState ℝ) (xs : List (Iq ℝ)) (next : ℕ) :
    (d.updateDelayLineKernel xs next).srcIndex = d.srcIndex := by
  unfold updateDelayLineKernel
  dsimp only
  split_ifs <;> rfl

/-- **One lane in one slot**: behind the snap, both backends make the same samples of it. -/
theorem LaneParallel.step [Curand ℝ] [Rng ℝ] (hstatic : StaticModel model first rest)
    (h : LaneParallel model first link st ms d) (hfit : link.FitsLane st.laneIndex) (xs : List (Iq ℝ))
    (rate next clock : ℕ) (fading fading' : PhysicalLinkFading ℝ) (rows : ℕ → ℕ → Cplx ℝ)
    (hok : d.snapRefresh (link.snap xs.length).1 (link.snap xs.length).2 ms.laneIndex = .ok d')
    {run : ChainRun ℝ} (hrun : runChain (laneContext (CpuChannelProcessor.refreshLane
        (link.snap xs.length).1 (link.snap xs.length).2 st)
        { (link.snap xs.length).1 with fading := fading } rate) 0 model.chain
      (CpuChannelProcessor.refreshLane (link.snap xs.length).1 (link.snap xs.length).2 st).steps xs =
        .ok run) :
    let built := buildSteps (snapSlot (link.snap xs.length) ms) model (some xs) xs.length rate
    run.out = applyStepsKernel (built.hostSteps.take model.chain.length)
        (applyChannelKernel d' xs rows rate) ∧
      LaneParallel model first
        { (link.snap xs.length).1 with fading := fading', slotStartSamples := clock }
        { CpuChannelProcessor.refreshLane (link.snap xs.length).1 (link.snap xs.length).2 st with
          steps := run.states } built (d'.updateDelayLineKernel xs next) := by
  intro built
  have hsnapped := h.snap hstatic.taps (link.snap_swaps xs.length hfit.swaps.onePending) hok
  obtain ⟨run', hrun', hout, hparallel⟩ :=
    hsnapped.slot hstatic xs rate next clock fading rows (some xs)
  obtain rfl := Except.ok.inj (hrun'.symm.trans hrun)
  refine ⟨hout, hparallel.live, hparallel.laneIndex, hparallel.sized, ?_⟩
  obtain ⟨tdl, others, φ, phases, hsteps, hphase, htdl, hagree⟩ := hparallel.steps
  exact ⟨tdl, others, φ, phases, hsteps, hphase, htdl.relink fading' clock, hagree⟩

/-- The parts of a link that a snap's effects read are beside the grids. -/
theorem refreshLane_fading (link : PhysicalLinkRuntime ℝ) (fading : PhysicalLinkFading ℝ)
    (outcome : LinkSnapOutcome) (st : LinkState ℝ) :
    CpuChannelProcessor.refreshLane { link with fading := fading } outcome st =
      CpuChannelProcessor.refreshLane link outcome st := rfl

/-- The refresh of an edge does not look at the grids. -/
theorem snapRefresh_fading (link : PhysicalLinkRuntime ℝ) (fading : PhysicalLinkFading ℝ)
    (outcome : LinkSnapOutcome) (laneIndex : ℕ) (d : DeviceLinkState ℝ) :
    d.snapRefresh { link with fading := fading } outcome laneIndex =
      d.snapRefresh link outcome laneIndex := rfl

/-- The slot of an edge does not look at the grids. -/
theorem snapSlot_fading (after : PhysicalLinkRuntime ℝ × LinkSnapOutcome)
    (fading : PhysicalLinkFading ℝ) (ms : LinkModelState ℝ) :
    snapSlot ({ after.1 with fading := fading }, after.2) ms = snapSlot after ms := rfl

/-- The snap keeps the clock of the link. -/
theorem slotStartSamples_snap (link : PhysicalLinkRuntime ℝ) (count : ℕ) :
    (link.snap count).1.slotStartSamples = link.slotStartSamples := by
  refine (link.snap_sameCore count).slotStartSamples.trans ?_
  unfold PhysicalLinkRuntime.snapValues
  rfl

/-- **One lane in one slot**, each backend behind its own snap. -/
theorem LaneParallel.served [Curand ℝ] [Rng ℝ] (hstatic : StaticModel model first rest)
    (h : LaneParallel model first link st ms d) (hfit : link.FitsLane st.laneIndex)
    (xs : List (Iq ℝ)) (rate next : ℕ) (gridsRun gridsLeft grids : PhysicalLinkFading ℝ)
    (rows : ℕ → ℕ → Cplx ℝ) {after : PhysicalLinkRuntime ℝ × LinkSnapOutcome}
    (hafter : ({ link with fading := grids } : PhysicalLinkRuntime ℝ).snap xs.length = after)
    (hok : d.snapRefresh after.1 after.2 ms.laneIndex = .ok d') {run : ChainRun ℝ}
    (hrun : runChain (laneContext (CpuChannelProcessor.refreshLane (link.slotSnap xs.length).1
        (link.slotSnap xs.length).2 st) { (link.slotSnap xs.length).1 with fading := gridsRun } rate)
        0 model.chain (CpuChannelProcessor.refreshLane (link.slotSnap xs.length).1
          (link.slotSnap xs.length).2 st).steps xs = .ok run) :
    let built := buildSteps (snapSlot after ms) model (some xs) xs.length rate
    run.out = applyStepsKernel (built.hostSteps.take model.chain.length)
        (applyChannelKernel d' xs rows rate) ∧
      (LaneParallel model first { (link.slotSnap xs.length).1 with
          fading := gridsLeft, slotStartSamples := link.slotStartSamples + xs.length }
        { CpuChannelProcessor.refreshLane (link.slotSnap xs.length).1 (link.slotSnap xs.length).2 st with
          steps := run.states } built (d'.updateDelayLineKernel xs next)) ∧
      ({ (link.slotSnap xs.length).1 with
          fading := gridsLeft, slotStartSamples := link.slotStartSamples + xs.length } :
        PhysicalLinkRuntime ℝ).FitsLane st.laneIndex ∧
      ∃ grids', { after.1 with slotStartSamples := after.1.slotStartSamples + xs.length } =
        { (link.slotSnap xs.length).1 with
          fading := grids', slotStartSamples := link.slotStartSamples + xs.length } := by
  -- the snap does not look at the grids
  obtain ⟨begun, hcpu⟩ := link.snap_fading link.fading.beginSlot xs.length
  obtain ⟨grids', hcuda⟩ := link.snap_fading grids xs.length
  have hslot : link.slotSnap xs.length =
      ({ (link.snap xs.length).1 with fading := begun }, (link.snap xs.length).2) := hcpu
  have hclock := slotStartSamples_snap link xs.length
  have hfit' := hfit.snap xs.length
  rw [hcuda] at hafter
  subst hafter
  rw [hslot] at hrun ⊢
  dsimp only at hrun hok ⊢
  rw [snapRefresh_fading] at hok
  rw [refreshLane_fading] at hrun ⊢
  rw [snapSlot_fading]
  obtain ⟨hout, hparallel⟩ := h.step hstatic hfit xs rate next (link.slotStartSamples + xs.length)
    gridsRun gridsLeft rows hok hrun
  refine ⟨hout, hparallel, hfit'.reclock _ _, grids', ?_⟩
  rw [hclock]

end Lane

/-! ## Both processors -/

section Both

open CudaChannelProcessor (packSources runChannel superposeRow)

variable (config : TopologyConfig ℝ) (resolved : ResolvedTopology)

/-- **One lane on both processors.** The grids of the link are the CPU's business. -/
structure LaneBoth (p : CpuChannelProcessor ℝ) (c : CudaChannelProcessor ℝ) (lane : LaneConfig)
    (model : ModelConfig ℝ) (first : ModelStep ℝ) (d : DeviceLinkState ℝ) (st : LinkState ℝ)
    (link : PhysicalLinkRuntime ℝ) (ms : LinkModelState ℝ) (fading : PhysicalLinkFading ℝ) :
    Prop where
  state : p.states lane.key = some st
  place : st.link = lane.physicalLinkKey ∧ st.laneIndex = lane.place
  cpuLink : p.links lane.physicalLinkKey = some link
  slot : c.linkSlots lane.key = some ms
  slotLink : ms.link = lane.physicalLinkKey
  cudaLink : c.links lane.physicalLinkKey = some { link with fading := fading }
  fits : link.FitsLane lane.place
  parallel : LaneParallel model first link st ms d

/-- **One node on the CUDA processor**, every lane of it beside the CPU's. -/
structure NodeBoth (p : CpuChannelProcessor ℝ) (c : CudaChannelProcessor ℝ) (node : ResolvedNode)
    (sp : CudaSuperposeState ℝ) : Prop where
  state : c.superposeStates node.id = some sp
  table : sp.table = preparedRows (nodeLanes config resolved node) (max 1 node.rxPorts.length)
  device : sp.useDeviceChannel = true
  capacity : sp.capacity = resolveBatchSamples config.runtime node.sampleRateHz
  maxSteps : ∀ lane ∈ nodeLanes config resolved node, ∀ model,
    config.findModel lane.modelId = some model → model.chain.length ≤ sp.maxSteps
  lanes : ∀ (k : ℕ) (lane : LaneConfig), (nodeLanes config resolved node)[k]? = some lane →
    ∃ d, sp.linkStates[k]? = some d ∧ sp.table.sources.numbers[k]? = some d.srcIndex ∧
      ∃ model first rest st link ms fading, config.findModel lane.modelId = some model ∧
        StaticModel model first rest ∧ LaneBoth p c lane model first d st link ms fading

/-- The control block of a lane's link names the dimensions of the lane's matrix. -/
def MatrixHints (lane : LaneConfig) (_ : ModelConfig ℝ) (_ : LinkState ℝ)
    (link : PhysicalLinkRuntime ℝ) : Prop :=
  link.control.ntHint = lane.nt ∧ link.control.nrHint = lane.nr

/-- **Both processors**, between two slots. -/
structure BackendsParallel (p : CpuChannelProcessor ℝ) (c : CudaChannelProcessor ℝ) : Prop where
  stand : LanesStand config resolved MatrixHints p
  controls : p.links.linkMap = c.links.linkMap
  rows : ∀ node ∈ resolved.nodes, rowModel config node = none
  nodes : ∀ node ∈ resolved.nodes, nodeLanes config resolved node ≠ [] →
    ∃ sp, NodeBoth config resolved p c node sp

variable {config resolved} {p q : CpuChannelProcessor ℝ} {c : CudaChannelProcessor ℝ}
  {node : ResolvedNode} {sp : CudaSuperposeState ℝ} {air : String → List (Iq ℝ)} {count : ℕ}

/-- The samples that the source ports send. -/
def sent (air : String → List (Iq ℝ)) (lane : LaneConfig) : List (Iq ℝ) := air lane.srcDevice

/-- The input of a lane, by place. -/
theorem nodeInputs_getElem? {k : ℕ} {input : SuperpositionInput ℝ}
    (h : (nodeInputs config resolved node (sent air))[k]? = some input) :
    ∃ lane, (nodeLanes config resolved node)[k]? = some lane ∧ input =
      { linkKey := lane.key, model := config.findModel lane.modelId, samples := air lane.srcDevice
        rxPort := lane.rxPort, txPort := lane.txPort } := by
  unfold nodeInputs at h
  rw [List.getElem?_map] at h
  obtain ⟨lane, hlane, rfl⟩ := Option.map_eq_some_iff.mp h
  exact ⟨lane, hlane, rfl⟩

/-- The input at the place of a lane. -/
theorem nodeInputs_at (air : String → List (Iq ℝ)) {k : ℕ} {lane : LaneConfig}
    (hlane : (nodeLanes config resolved node)[k]? = some lane) :
    (nodeInputs config resolved node (sent air))[k]? = some
      { linkKey := lane.key, model := config.findModel lane.modelId, samples := air lane.srcDevice
        rxPort := lane.rxPort, txPort := lane.txPort } := by
  unfold nodeInputs
  rw [List.getElem?_map, hlane]
  rfl

namespace NodeBoth

variable (h : NodeBoth config resolved p c node sp)
include h

/-- The slots and the links of the inputs are there. -/
theorem slotsReady (hkeys : KeysDistinct config resolved) :
    SlotsReady c.linkSlots c.links (nodeInputs config resolved node (sent air)) where
  nodup := by
    rw [nodeInputs_keys]
    exact hkeys.lanes.sublist (List.filter_sublist.map _)
  ready input hinput := by
    obtain ⟨k, hk⟩ := List.getElem?_of_mem hinput
    obtain ⟨lane, hlane, rfl⟩ := nodeInputs_getElem? hk
    obtain ⟨d, -, -, model, first, rest, st, link, ms, fading, -, -, hboth⟩ := h.lanes k lane hlane
    exact ⟨ms, _, hboth.slot, hboth.slotLink ▸ hboth.cudaLink⟩

/-- The samples that the device finds for the source of an edge. -/
theorem source {k : ℕ} {lane : LaneConfig} (hlane : (nodeLanes config resolved node)[k]? = some lane)
    {s : ℕ} (hs : sp.table.sources.numbers[k]? = some s) :
    (packSources sp (nodeInputs config resolved node (sent air))).getD s [] = air lane.srcDevice := by
  have hwalk := Tables.Numbering.correct_walk
    ((nodeLanes config resolved node).map (·.srcDevice))
  rw [h.table] at hs
  have hdevice : ((nodeLanes config resolved node).map (·.srcDevice))[k]? = some lane.srcDevice := by
    rw [List.getElem?_map, hlane, Option.map_some]
  have hnumber := (hwalk.numbers k _ hdevice).symm.trans hs
  obtain ⟨j, hj, hat, -⟩ := hwalk.first _ _ hnumber
  rw [List.getElem?_map] at hat
  obtain ⟨other, hother, hsame⟩ := Option.map_eq_some_iff.mp hat
  have hinput := nodeInputs_at air hother
  unfold packSources
  rw [List.getD_eq_getElem?_getD, List.getElem?_map, h.table]
  have hfirst : (preparedRows (nodeLanes config resolved node)
      (max 1 node.rxPorts.length)).sources.first[s]? = some j := hj
  rw [hfirst, Option.map_some, Option.getD_some, hinput, Option.map_some, Option.getD_some]
  dsimp only
  rw [hsame]

/-- Every source has a full slot of samples. -/
theorem sources_length
    (hlen : ∀ lane ∈ nodeLanes config resolved node, (air lane.srcDevice).length = count) :
    ∀ xs ∈ packSources sp (nodeInputs config resolved node (sent air)), xs.length = count := by
  intro xs hxs
  unfold packSources at hxs
  obtain ⟨j, hj, rfl⟩ := List.mem_map.mp hxs
  rw [h.table] at hj
  have hlt := Tables.Numbering.first_lt_length _ j hj
  rw [List.length_map] at hlt
  unfold nodeInputs
  rw [List.getElem?_map, List.getElem?_eq_getElem hlt, Option.map_some, Option.map_some,
    Option.getD_some]
  exact hlen _ (List.getElem_mem hlt)

omit h in
/-- The refresh of an edge's device state behind the snap, on the CUDA side. -/
theorem refreshed {lane : LaneConfig} {model : ModelConfig ℝ} {first : ModelStep ℝ}
    {d : DeviceLinkState ℝ} {st : LinkState ℝ} {link : PhysicalLinkRuntime ℝ}
    {ms : LinkModelState ℝ} {fading : PhysicalLinkFading ℝ}
    (hboth : LaneBoth p c lane model first d st link ms fading) (count : ℕ) :
    ∃ d', d.snapRefresh (({ link with fading := fading } : PhysicalLinkRuntime ℝ).snap count).1
      (({ link with fading := fading } : PhysicalLinkRuntime ℝ).snap count).2 ms.laneIndex =
        .ok d' := by
  obtain ⟨d', hok⟩ := hboth.parallel.refreshes (hboth.place.2.symm ▸ hboth.fits) count
  obtain ⟨fading', hsnap⟩ := link.snap_fading fading count
  refine ⟨d', ?_⟩
  rw [hsnap]
  exact hok

/-- An edge waits for the call. -/
theorem edgeWaits {k : ℕ} {lane : LaneConfig}
    (hlane : (nodeLanes config resolved node)[k]? = some lane) {model : ModelConfig ℝ}
    (hmodel : config.findModel lane.modelId = some model) (hxs : (air lane.srcDevice).length = count)
    {ms : LinkModelState ℝ} (hslot : c.linkSlots lane.key = some ms)
    {before : PhysicalLinkRuntime ℝ} (hlink : c.links ms.link = some before)
    {d d' : DeviceLinkState ℝ} (hd : sp.linkStates[k]? = some d)
    (hok : d.snapRefresh (before.snap count).1 (before.snap count).2 ms.laneIndex = .ok d') :
    EdgeWaits c sp count k
      { linkKey := lane.key, model := config.findModel lane.modelId, samples := air lane.srcDevice
        rxPort := lane.rxPort, txPort := lane.txPort }
      ⟨model, ms, before.snap count, d, d'⟩ before := by
  constructor
  · exact hmodel
  · exact hxs
  · exact h.maxSteps lane (List.mem_of_getElem? hlane) model hmodel
  · exact hslot
  · exact hlink
  · rfl
  · exact hd
  · exact hok

/-- Every edge waits for the call. -/
theorem edgesWait
    (hlen : ∀ lane ∈ nodeLanes config resolved node, (air lane.srcDevice).length = count)
    {k : ℕ} {input : SuperpositionInput ℝ}
    (hinput : (nodeInputs config resolved node (sent air))[k]? = some input) :
    ∃ e link, EdgeWaits c sp count k input e link := by
  obtain ⟨lane, hlane, rfl⟩ := nodeInputs_getElem? hinput
  obtain ⟨d, hd, -, model, first, rest, st, link, ms, fading, hmodel, -, hboth⟩ := h.lanes k lane hlane
  obtain ⟨d', hok⟩ := refreshed hboth count
  have hlink := hboth.slotLink ▸ hboth.cudaLink
  exact ⟨_, _, h.edgeWaits hlane hmodel (hlen lane (List.mem_of_getElem? hlane)) hboth.slot hlink hd
    hok⟩

end NodeBoth

/-- The row of a lane's input. -/
theorem nodeInputs_rows (nr : ℕ) :
    (nodeInputs config resolved node (sent air)).map (CudaChannelProcessor.inputRow nr) =
      (nodeLanes config resolved node).map (·.rxPort) := by
  unfold nodeInputs
  rw [List.map_map]
  apply List.map_congr_left
  intro lane _
  unfold CudaChannelProcessor.inputRow
  dsimp only [Function.comp]
  rw [if_neg (by omega), Int.toNat_natCast]

section Slot

variable {rows : List (List (Iq ℝ))} {acc : CudaChannelProcessor.Staging ℝ} {rate : ℕ}

/-- The link of a lane behind the CUDA call: snapped, and its clock moved on. -/
theorem NodeBoth.cudaLink_after (h : NodeBoth config resolved p c node sp)
    (hkeys : KeysDistinct config resolved) (air : String → List (Iq ℝ)) (count : ℕ) {lane : LaneConfig}
    (hlane : lane ∈ nodeLanes config resolved node) {ms : LinkModelState ℝ}
    (hslot : c.linkSlots lane.key = some ms) {before : PhysicalLinkRuntime ℝ}
    (hlink : c.links ms.link = some before) :
    let inputs := nodeInputs config resolved node (sent air)
    CudaChannelProcessor.advanceClocks (callSnaps c count inputs).1
        ((callSnaps c count inputs).2.map (·.1)) count ms.link =
      some { (before.snap count).1 with
        slotStartSamples := (before.snap count).1.slotStartSamples + count } := by
  intro inputs
  have hready : SlotsReady c.linkSlots c.links inputs := h.slotsReady hkeys
  obtain ⟨hdone, hreached⟩ := callSnaps_spec hready.ready count
  have hmem : ms.link ∈ (callSnaps c count inputs).2.map (·.1) :=
    (hreached ms.link).mpr ⟨_, List.mem_map_of_mem hlane, ms, hslot, rfl⟩
  rw [advanceClocks_apply _ hdone.nodup, if_pos hmem, (hdone.reached _ before hmem hlink).1]
  rfl

/-- A link of no lane of the node is left alone. -/
theorem NodeBoth.cudaLink_other (h : NodeBoth config resolved p c node sp)
    (hkeys : KeysDistinct config resolved) (air : String → List (Iq ℝ)) (count : ℕ) {k : String}
    (hk : ∀ lane ∈ nodeLanes config resolved node, lane.physicalLinkKey ≠ k) :
    let inputs := nodeInputs config resolved node (sent air)
    CudaChannelProcessor.advanceClocks (callSnaps c count inputs).1
        ((callSnaps c count inputs).2.map (·.1)) count k = c.links k := by
  intro inputs
  have hready : SlotsReady c.linkSlots c.links inputs := h.slotsReady hkeys
  obtain ⟨hdone, hreached⟩ := callSnaps_spec hready.ready count
  have hnot : k ∉ (callSnaps c count inputs).2.map (·.1) := by
    intro hmem
    obtain ⟨input, hinput, ms, hms, rfl⟩ := (hreached k).mp hmem
    obtain ⟨j, hj⟩ := List.getElem?_of_mem hinput
    obtain ⟨lane, hlane, rfl⟩ := nodeInputs_getElem? hj
    obtain ⟨d, -, -, model, first, rest, st, link, ms', fading, -, -, hboth⟩ := h.lanes j lane hlane
    obtain rfl := Option.some.inj (hms.symm.trans hboth.slot)
    exact hk lane (List.mem_of_getElem? hlane) hboth.slotLink.symm
  rw [advanceClocks_apply _ hdone.nodup, if_neg hnot]
  exact hdone.others k hnot

/-- The state of one device edge behind the kernels. -/
theorem runChannel_getElem? {k : ℕ} {d : DeviceLinkState ℝ} (hd : acc.linkStates[k]? = some d)
    {xs : List (Iq ℝ)} (hxs : acc.staged[k]? = some xs) {next : ℕ}
    (hnext : acc.nextSlotStart[k]? = some next) (count rate : ℕ) :
    (∃ rows, (runChannel acc count rate).1[k]? = some (applyChannelKernel d xs rows rate)) ∧
      (runChannel acc count rate).2[k]? = some (d.updateDelayLineKernel xs next) := by
  unfold CudaChannelProcessor.runChannel
  dsimp only
  rw [List.getElem?_mapIdx, List.getElem?_mapIdx, hd, Option.map_some, Option.map_some,
    List.getD_eq_getElem?_getD, List.getD_eq_getElem?_getD, hxs, hnext]
  exact ⟨⟨_, rfl⟩, rfl⟩

/-- The channel kernel gives as many samples as it takes. -/
theorem length_applyChannelKernel (d : DeviceLinkState ℝ) (xs : List (Iq ℝ)) (rows : ℕ → ℕ → Cplx ℝ)
    (rate : ℕ) : (applyChannelKernel d xs rows rate).length = xs.length := by
  unfold applyChannelKernel
  dsimp only
  split_ifs
  · rfl
  · rw [List.length_map, List.length_range]

/-- **One lane of the node in the slot**: the CPU's samples are the device's behind its steps, and
both processors hold the lane as before. -/
theorem NodeBoth.laneStep [Curand ℝ] [Rng ℝ] (h : NodeBoth config resolved p c node sp)
    (hkeys : KeysDistinct config resolved)
    (hlen : ∀ lane ∈ nodeLanes config resolved node, (air lane.srcDevice).length = count)
    (hacc : StagedTo sp (callSnaps c count (nodeInputs config resolved node (sent air))).2
      (packSources sp (nodeInputs config resolved node (sent air))) node.sampleRateHz c.linkSlots
      (callSnaps c count (nodeInputs config resolved node (sent air))).1 count sp.linkStates
      (nodeInputs config resolved node (sent air))
      (nodeInputs config resolved node (sent air)).length acc)
    {links : LinkTable ℝ} {k : ℕ} {lane : LaneConfig}
    (hlane : (nodeLanes config resolved node)[k]? = some lane) {input : SuperpositionInput ℝ}
    (hinput : (nodeInputs config resolved node (sent air))[k]? = some input) {run : ChainRun ℝ}
    (hran : LaneRan p links count node.sampleRateHz input run) (hleft : LaneLeft p count q input run)
    (hserved : ∀ st link, p.states lane.key = some st → p.links st.link = some link →
      LaneServed p q count lane.key st link)
    {c' : CudaChannelProcessor ℝ} (hslots : c'.linkSlots = acc.slots)
    (hlinks : c'.links = CudaChannelProcessor.advanceClocks
      (callSnaps c count (nodeInputs config resolved node (sent air))).1
      ((callSnaps c count (nodeInputs config resolved node (sent air))).2.map (·.1)) count) :
    (∃ staged, (runChannel acc count node.sampleRateHz).1[k]? = some staged ∧ staged.length = count ∧
        run.out = applyStepsKernel (acc.table.edge k) staged) ∧
      ∃ d, (runChannel acc count node.sampleRateHz).2[k]? = some d ∧
        sp.table.sources.numbers[k]? = some d.srcIndex ∧
        ∃ model first rest st link ms fading, config.findModel lane.modelId = some model ∧
          StaticModel model first rest ∧ LaneBoth q c' lane model first d st link ms fading := by
  obtain ⟨d, hd, hnumber, model, first, rest, st, link, ms, fading, hmodel, hstatic, hboth⟩ :=
    h.lanes k lane hlane
  obtain ⟨lane', hlane', hinputEq⟩ := nodeInputs_getElem? hinput
  obtain rfl := Option.some.inj (hlane.symm.trans hlane')
  subst hinputEq
  have hmem := List.mem_of_getElem? hlane
  have hxs := hlen lane hmem
  obtain ⟨d', hok⟩ := NodeBoth.refreshed hboth count
  have hlink := hboth.slotLink ▸ hboth.cudaLink
  -- what the edge loop made of the edge
  have hwaits := h.edgeWaits hlane hmodel hxs hboth.slot hlink hd hok
  have hdone := hacc.done k _ _ (List.getElem?_eq_some_iff.mp hinput).1 hinput
    (hwaits.ready (h.slotsReady hkeys) (List.mem_of_getElem? hinput))
  have hsrc : d'.srcIndex = d.srcIndex := snapRefresh_srcIndex hok
  have hsource : (packSources sp (nodeInputs config resolved node (sent air))).getD d'.srcIndex [] =
      air lane.srcDevice := by
    rw [hsrc]
    exact h.source hlane hnumber
  obtain ⟨⟨rows, hkernel⟩, hrolled⟩ :=
    runChannel_getElem? hdone.state hdone.staged hdone.next count node.sampleRateHz
  rw [hsource] at hkernel hrolled
  -- the CPU's run of the lane, on the same snap
  obtain ⟨gridsRun, -, hrun⟩ := hran.ran model st link hmodel hboth.state
    (hboth.place.1.symm ▸ hboth.cpuLink)
  obtain ⟨-, gridsLeft, hleftLink⟩ := hserved st link hboth.state
    (hboth.place.1.symm ▸ hboth.cpuLink)
  have hleftState := hleft st link hboth.state (hboth.place.1.symm ▸ hboth.cpuLink)
  have hbuilt : EdgeData.built ⟨model, ms,
      ({ link with fading := fading } : PhysicalLinkRuntime ℝ).snap count, d, d'⟩
      (packSources sp (nodeInputs config resolved node (sent air))) count node.sampleRateHz =
        buildSteps (snapSlot (({ link with fading := fading } : PhysicalLinkRuntime ℝ).snap count) ms)
          model (some (air lane.srcDevice)) count node.sampleRateHz := by
    unfold EdgeData.built
    dsimp only
    rw [hsource]
  have hsteps := hdone.steps
  have hslot' := hdone.slot
  rw [hbuilt] at hsteps hslot'
  subst hxs
  obtain ⟨hout, hparallel, hfits, grids', hlinkEq⟩ := hboth.parallel.served hstatic
    (hboth.place.2.symm ▸ hboth.fits) (air lane.srcDevice) node.sampleRateHz _ gridsRun gridsLeft
    fading rows rfl hok hrun
  have hcudaLink := h.cudaLink_after hkeys air (air lane.srcDevice).length hmem hboth.slot hlink
  constructor
  · refine ⟨_, hkernel, length_applyChannelKernel .., ?_⟩
    · rw [hsteps]
      exact hout
  · rw [hboth.place.1] at hleftLink
    rw [← hslots] at hslot'
    refine ⟨_, hrolled, ?_, model, first, rest, _, _, _, grids', hmodel, hstatic,
      ⟨hleftState, ?_, hleftLink, hslot', ?_, ?_, ?_, hparallel⟩⟩
    · rw [updateDelayLineKernel_srcIndex, hsrc]
      exact hnumber
    · dsimp only
      rw [refreshLane_link, refreshLane_laneIndex]
      exact hboth.place
    · exact (snapSlot_link _ ms).trans hboth.slotLink
    · rw [hlinks, ← hboth.slotLink, hcudaLink, hlinkEq]
    · rw [← hboth.place.2]
      exact hfits

/-- **The rows**: a range of edges on the device is the sum of a row's lanes on the CPU. -/
theorem rows_agree [Curand ℝ] {lanes : List LaneConfig} {nr : ℕ}
    (hsorted : (lanes.map (·.rxPort)).Pairwise (· ≤ ·)) (hports : ∀ lane ∈ lanes, lane.rxPort < nr)
    {table : StepTable ℝ} {staged : List (List (Iq ℝ))} {items : List (ℕ × List (Iq ℝ))}
    (hlength : items.length = lanes.length)
    (hitems : ∀ (k : ℕ) (lane : LaneConfig), lanes[k]? = some lane → ∃ out shaped,
      items[k]? = some (lane.rxPort, out) ∧ staged[k]? = some shaped ∧ shaped.length = count ∧
        out = applyStepsKernel (table.edge k) shaped) :
    (List.range nr).map (fun r => superposeRow table staged count
        ((preparedRows lanes nr).rowBegin.getD r 0) ((preparedRows lanes nr).rowBegin.getD (r + 1) 0)) =
      items.foldl RowSums.add (List.replicate nr (List.replicate count 0)) := by
  -- what is staged for each lane
  have hat : ∀ k < lanes.length, ∃ lane out shaped, lanes[k]? = some lane ∧
      items[k]? = some (lane.rxPort, out) ∧ staged[k]? = some shaped ∧ shaped.length = count ∧
        out = applyStepsKernel (table.edge k) shaped := by
    intro k hk
    obtain ⟨out, shaped, hitem⟩ := hitems k _ (List.getElem?_eq_getElem hk)
    exact ⟨_, out, shaped, List.getElem?_eq_getElem hk, hitem⟩
  have hout : ∀ item ∈ items, item.2.length = count := by
    intro item hitem
    obtain ⟨k, hk⟩ := List.getElem?_of_mem hitem
    obtain ⟨lane, out, shaped, -, hk', -, hlen, hsteps⟩ :=
      hat k (hlength ▸ (List.getElem?_eq_some_iff.mp hk).1)
    obtain rfl := Option.some.inj (hk.symm.trans hk')
    dsimp only
    rw [hsteps]
    unfold applyStepsKernel
    rw [List.length_mapIdx, hlen]
  rw [RowSums.foldl_add nr count items hout]
  unfold RowSums.table
  apply List.map_congr_left
  intro r hr
  rw [List.mem_range] at hr
  -- the range of the row lies within the lanes
  have hlast : (preparedRows lanes nr).rowBegin.getD (r + 1) 0 ≤ lanes.length := by
    have hle : (lanes.map (·.rxPort)).countP (· < r + 1) ≤ (lanes.map (·.rxPort)).length :=
      List.countP_le_length
    rw [rowBegin_getD lanes hr]
    rwa [List.length_map] at hle
  generalize hb : (preparedRows lanes nr).rowBegin.getD r 0 = b at hlast ⊢
  generalize he : (preparedRows lanes nr).rowBegin.getD (r + 1) 0 = e at hlast ⊢
  -- the row is a sum over that range, sample by sample
  have hsum : superposeRow table staged count b e = (List.range count).map fun idx =>
      (List.range' b (e - b)).foldl
        (fun acc k => acc + (((items[k]?).map (·.2)).getD []).getD idx 0) 0 := by
    refine superposeRow_eq ?_ ?_
    · intro k _ hk
      obtain ⟨lane, out, shaped, -, -, hshaped, hlen, -⟩ := hat k (by omega)
      rw [List.getD_eq_getElem?_getD, hshaped, Option.getD_some, hlen]
    · intro k _ hk
      obtain ⟨lane, out, shaped, -, hitem, hshaped, -, hsteps⟩ := hat k (by omega)
      rw [hitem, List.getD_eq_getElem?_getD, hshaped, Option.map_some, Option.getD_some,
        Option.getD_some]
      exact hsteps
  rw [hsum]
  apply List.map_congr_left
  intro c _
  refine (RowSums.sumAt_range (hlast.trans hlength.ge) ?_ c).symm
  intro k item hitem
  obtain ⟨lane, out, shaped, hlane, hk', -⟩ :=
    hat k (hlength ▸ (List.getElem?_eq_some_iff.mp hitem).1)
  obtain rfl := Option.some.inj (hitem.symm.trans hk')
  rw [← hb, ← he]
  exact rowBegin_spec hsorted hports hlane r

/-- A node whose lanes and state are left alone. -/
theorem NodeBoth.frame (h : NodeBoth config resolved p c node sp) {c' : CudaChannelProcessor ℝ}
    (hstate : c'.superposeStates node.id = c.superposeStates node.id)
    (hlanes : ∀ lane ∈ nodeLanes config resolved node, q.states lane.key = p.states lane.key ∧
      q.links lane.physicalLinkKey = p.links lane.physicalLinkKey ∧
      c'.linkSlots lane.key = c.linkSlots lane.key ∧
      c'.links lane.physicalLinkKey = c.links lane.physicalLinkKey) :
    NodeBoth config resolved q c' node sp := by
  refine ⟨hstate.trans h.state, h.table, h.device, h.capacity, h.maxSteps, ?_⟩
  intro k lane hlane
  obtain ⟨d, hd, hnumber, model, first, rest, st, link, ms, fading, hmodel, hstatic, hboth⟩ :=
    h.lanes k lane hlane
  obtain ⟨hstates, hlinks, hslots, hcuda⟩ := hlanes lane (List.mem_of_getElem? hlane)
  exact ⟨d, hd, hnumber, model, first, rest, st, link, ms, fading, hmodel, hstatic,
    hstates.trans hboth.state, hboth.place, hlinks.trans hboth.cpuLink, hslots.trans hboth.slot,
    hboth.slotLink, hcuda.trans hboth.cudaLink, hboth.fits, hboth.parallel⟩

/-- Every lane that the CPU ran has a full slot of samples. -/
theorem samples_of_ran [Rng ℝ] {links : LinkTable ℝ} {runs : List (ChainRun ℝ)}
    (hruns : List.Forall₂ (fun lane run => LaneRan p links count rate lane run ∧
      LaneLeft p count q lane run) (nodeInputs config resolved node (sent air)) runs) :
    ∀ lane ∈ nodeLanes config resolved node, (air lane.srcDevice).length = count := by
  intro lane hlane
  obtain ⟨k, hk⟩ := List.getElem?_of_mem hlane
  obtain ⟨run, -, hran, -⟩ := Tables.forall₂_getElem? hruns (nodeInputs_at _ hk)
  exact hran.samples

variable (config resolved) in
/-- **The device call of a node**: the edges are staged as the edge loop leaves them, and the call
stores the slots, the links and the state of the node. -/
structure DeviceCall (c c' : CudaChannelProcessor ℝ) (node : ResolvedNode) (sp : CudaSuperposeState ℝ)
    (air : String → List (Iq ℝ)) (count : ℕ) (acc : CudaChannelProcessor.Staging ℝ) : Prop where
  staged : StagedTo sp (callSnaps c count (nodeInputs config resolved node (sent air))).2
    (packSources sp (nodeInputs config resolved node (sent air))) node.sampleRateHz c.linkSlots
    (callSnaps c count (nodeInputs config resolved node (sent air))).1 count sp.linkStates
    (nodeInputs config resolved node (sent air))
    (nodeInputs config resolved node (sent air)).length acc
  slots : c'.linkSlots = acc.slots
  links : c'.links = CudaChannelProcessor.advanceClocks
    (callSnaps c count (nodeInputs config resolved node (sent air))).1
    ((callSnaps c count (nodeInputs config resolved node (sent air))).2.map (·.1)) count
  states : c'.superposeStates = Function.update c.superposeStates node.id (some
    { sp with linkStates := (runChannel acc count node.sampleRateHz).2, groups := acc.groups })

/-- The call of a node that both processors hold passes its checks. -/
theorem NodeBoth.deviceCall [Curand ℝ] (h : NodeBoth config resolved p c node sp)
    (hkeys : KeysDistinct config resolved)
    (hsorted : ((nodeLanes config resolved node).map (·.rxPort)).Pairwise (· ≤ ·))
    (hports : ∀ lane ∈ nodeLanes config resolved node, lane.rxPort < node.rxPorts.length)
    (hlanes : nodeLanes config resolved node ≠ []) (hnr : node.rxPorts.length ≠ 0)
    (hpos : count ≠ 0) (hcapacity : count ≤ resolveBatchSamples config.runtime node.sampleRateHz)
    (hlen : ∀ lane ∈ nodeLanes config resolved node, (air lane.srcDevice).length = count) :
    ∃ acc c', DeviceCall config resolved c c' node sp air count acc ∧
      c.processSuperposition node.id (nodeInputs config resolved node (sent air)) none
          node.sampleRateHz (List.replicate node.rxPorts.length count) =
        .ok (c', (List.range node.rxPorts.length).map fun r => superposeRow acc.table
          (runChannel acc count node.sampleRateHz).1 count (sp.table.rowBegin.getD r 0)
          (sp.table.rowBegin.getD (r + 1) 0)) := by
  have hmax : max 1 node.rxPorts.length = node.rxPorts.length := by omega
  have htable : sp.table = preparedRows (nodeLanes config resolved node) node.rxPorts.length := by
    rw [h.table, hmax]
  have hedges : ∀ (k : ℕ) (edge : SuperpositionInput ℝ),
      (nodeInputs config resolved node (sent air))[k]? = some edge →
        ∃ e link, EdgeWaits c sp count k edge e link :=
    fun k edge hedge => h.edgesWait hlen hedge
  have hchecks : checkInputs sp.table node.id ((nodeInputs config resolved node (sent air)).map
      (CudaChannelProcessor.inputRow node.rxPorts.length)) = .ok () := by
    rw [nodeInputs_rows, htable]
    exact checkInputs_prepared hsorted hports node.id
  have hsome : nodeInputs config resolved node (sent air) ≠ [] := by
    unfold nodeInputs
    exact fun hnil => hlanes (List.map_eq_nil_iff.mp hnil)
  obtain ⟨acc, hacc, hcall⟩ := processSuperposition_device node.sampleRateHz h.state h.device
    (by rw [htable]; rfl) hnr hpos (h.capacity ▸ hcapacity) hsome hchecks (h.sources_length hlen)
    (h.slotsReady hkeys) hedges
  exact ⟨acc, _, ⟨hacc, rfl, rfl, rfl⟩, hcall⟩

variable {c' : CudaChannelProcessor ℝ}

/-- The control blocks: those of the node's links went through one snap, the others stayed. -/
theorem BackendsParallel.controls_after [Rng ℝ] (h : BackendsParallel config resolved p c)
    (hkeys : KeysDistinct config resolved) (hnode : node ∈ resolved.nodes)
    (hsp : NodeBoth config resolved p c node sp)
    (hcall : DeviceCall config resolved c c' node sp air count acc)
    (hserve : p.serve (nodeCall config resolved node (sent air) count) = .ok (q, rows))
    (hheld : ∀ lane ∈ nodeLanes config resolved node, ∃ model first d st link ms fading,
      LaneBoth q c' lane model first d st link ms fading) :
    q.links.linkMap = c'.links.linkMap := by
  funext k
  show (q.links k).map (·.control) = (c'.links k).map (·.control)
  by_cases hk : ∃ lane ∈ nodeLanes config resolved node, lane.physicalLinkKey = k
  · obtain ⟨lane, hlane, rfl⟩ := hk
    obtain ⟨model, first, d, st, link, ms, fading, hboth⟩ := hheld lane hlane
    rw [hboth.cpuLink, hboth.cudaLink, Option.map_some, Option.map_some]
  · rw [not_exists] at hk
    obtain ⟨-, hbeside⟩ :=
      serve_frame (h.stand.owned node hnode) (nodeCall_madeFor.within hnode) hserve
    have hcpu : q.links k = p.links k := by
      apply hbeside.links
      rintro (⟨lane, hof, rfl⟩ | ⟨other, hother, -, hrow, -⟩)
      · exact hk lane ⟨mem_nodeLanes.mpr hof, rfl⟩
      · rw [h.rows other hother] at hrow
        cases hrow
    have hcuda : c'.links k = c.links k := by
      rw [hcall.links]
      exact hsp.cudaLink_other hkeys air count fun lane hlane heq => hk lane ⟨hlane, heq⟩
    rw [hcpu, hcuda]
    exact congrFun h.controls k

variable (hresolved : resolveTopology config = .ok resolved) (hkeys : KeysDistinct config resolved)
include hresolved hkeys

/-- A node that was not called is held as before. -/
theorem BackendsParallel.other_node [Rng ℝ] (h : BackendsParallel config resolved p c)
    (hnode : node ∈ resolved.nodes) (hsp : NodeBoth config resolved p c node sp)
    (hcall : DeviceCall config resolved c c' node sp air count acc)
    (hserve : p.serve (nodeCall config resolved node (sent air) count) = .ok (q, rows))
    {other : ResolvedNode} {sp' : CudaSuperposeState ℝ} (hid : other.id ≠ node.id)
    (hsp' : NodeBoth config resolved p c other sp') : NodeBoth config resolved q c' other sp' := by
  refine hsp'.frame ?_ ?_
  · rw [hcall.states]
    exact Function.update_of_ne hid ..
  · intro lane hlane
    obtain ⟨hmem, hto, hsome⟩ := mem_nodeLanes.mp hlane
    have hne : lane.dstNode ≠ node.id := fun heq => hid (hto.symm.trans heq)
    obtain ⟨hst, hlk⟩ := h.stand.serve_other hresolved hkeys hnode hserve hmem hne hsome
    refine ⟨hst, hlk, ?_, ?_⟩
    · rw [hcall.slots]
      apply hcall.staged.others
      rw [nodeInputs_keys]
      intro hin
      obtain ⟨lane', hlane', hkey⟩ := List.mem_map.mp hin
      have hsame := lane_of_key hkeys (mem_nodeLanes.mp hlane').1 hmem hkey
      exact hne (hsame ▸ (mem_nodeLanes.mp hlane').2.1)
    · rw [hcall.links]
      apply hsp.cudaLink_other hkeys air count
      intro lane' hlane' hkey
      have hsame := dstNode_of_link hresolved hkeys (mem_nodeLanes.mp hlane').1 hmem hkey
      exact hne (hsame ▸ (mem_nodeLanes.mp hlane').2.1)

variable (hnodes : (resolved.nodes.map (·.id)).Nodup)
include hnodes

/-- **One slot of one node.** -/
theorem BackendsParallel.slot [Curand ℝ] [Rng ℝ] (h : BackendsParallel config resolved p c)
    (hnode : node ∈ resolved.nodes) (hlanes : nodeLanes config resolved node ≠ [])
    (hpos : count ≠ 0) (hcapacity : count ≤ resolveBatchSamples config.runtime node.sampleRateHz)
    (hserve : p.serve (nodeCall config resolved node (sent air) count) = .ok (q, rows)) :
    ∃ c', c.serve (nodeCall config resolved node (sent air) count) = .ok (c', rows) ∧
      BackendsParallel config resolved q c' := by
  obtain ⟨sp, hsp⟩ := h.nodes node hnode hlanes
  have hsorted : ((nodeLanes config resolved node).map (·.rxPort)).Pairwise (· ≤ ·) :=
    nodeLanes_sorted (lanes_spec hresolved).1
  have hports := nodeLanes_rxPort hresolved hnodes hnode
  obtain ⟨lane₀, hlane₀⟩ := List.exists_mem_of_ne_nil _ hlanes
  have hnr : node.rxPorts.length ≠ 0 := by
    have := hports lane₀ hlane₀
    omega
  have hmodel : (nodeCall config resolved node (sent air) count).rxModel = none := h.rows node hnode
  have hready : LanesReady p (nodeCall config resolved node (sent air) count).inputs :=
    h.stand.ready hkeys
  -- the CPU's runs of the lanes
  obtain ⟨links, runs, hruns, hrows⟩ := serve_ran hready hnr rfl hpos hmodel hserve
  have hnorow : ¬ (nodeCall config resolved node (sent air) count).rxModel.isSome = true := by
    rw [hmodel]
    decide
  have hserved := (serve_spec hready (nodeCall_head hnr) hpos (fun hrow => absurd hrow hnorow)
    hserve).1
  have hlen := samples_of_ran hruns
  -- the CUDA call
  obtain ⟨acc, c', hcall, hok⟩ :=
    hsp.deviceCall hkeys hsorted hports hlanes hnr hpos hcapacity hlen
  -- every lane of the node, in the slot
  have hstep : ∀ (k : ℕ) (lane : LaneConfig), (nodeLanes config resolved node)[k]? = some lane →
      (∃ input run, (nodeInputs config resolved node (sent air))[k]? = some input ∧
        input.rxPort = lane.rxPort ∧ runs[k]? = some run ∧
        ∃ staged, (runChannel acc count node.sampleRateHz).1[k]? = some staged ∧
          staged.length = count ∧ run.out = applyStepsKernel (acc.table.edge k) staged) ∧
      ∃ d, (runChannel acc count node.sampleRateHz).2[k]? = some d ∧
        sp.table.sources.numbers[k]? = some d.srcIndex ∧
        ∃ model first rest st link ms fading, config.findModel lane.modelId = some model ∧
          StaticModel model first rest ∧ LaneBoth q c' lane model first d st link ms fading := by
    intro k lane hlane
    have hinput := nodeInputs_at air hlane
    obtain ⟨run, hrun, hran, hleft⟩ := Tables.forall₂_getElem? hruns hinput
    obtain ⟨hout, hnext⟩ := hsp.laneStep hkeys hlen hcall.staged hlane hinput hran hleft
      (hserved _ (List.mem_of_getElem? hinput)) hcall.slots hcall.links
    exact ⟨⟨_, run, hinput, rfl, hrun, hout⟩, hnext⟩
  refine ⟨c', ?_, h.stand.serve hresolved hkeys hnodes hnode hpos hserve ?_ ?_, ?_, h.rows, ?_⟩
  · -- the rows
    have htable : sp.table = preparedRows (nodeLanes config resolved node) node.rxPorts.length := by
      rw [hsp.table, max_eq_right (Nat.pos_of_ne_zero hnr)]
    unfold CudaChannelProcessor.serve
    rw [hmodel]
    refine hok.trans ?_
    rw [hrows, htable]
    congr 2
    refine rows_agree hsorted hports ?_ ?_
    · rw [List.length_map, List.length_zip, ← hruns.length_eq, min_self]
      exact List.length_map ..
    · intro k lane hlane
      obtain ⟨⟨input, run, hinput, hport, hrun, staged, hstaged, hlength, hout⟩, -⟩ :=
        hstep k lane hlane
      refine ⟨run.out, staged, ?_, hstaged, hlength, hout⟩
      have hzip : ((nodeInputs config resolved node (sent air)).zip runs)[k]? = some (input, run) :=
        List.getElem?_zip_eq_some.mpr ⟨hinput, hrun⟩
      show (((nodeInputs config resolved node (sent air)).zip runs).map laneItem)[k]? = _
      rw [List.getElem?_map, hzip, Option.map_some]
      unfold laneItem
      dsimp only
      rw [hport, Int.toNat_natCast]
  · intro lane _ model st link steps fading _ _ _ hhints _
    have hsame : SameHints (link.slotSnap count).1.control link.control := sameHints_snap _ count
    exact ⟨hsame.ntHint.trans hhints.1, hsame.nrHint.trans hhints.2⟩
  · exact fun _ _ _ _ _ _ hhints => hhints
  · refine h.controls_after hkeys hnode hsp hcall hserve fun lane hlane => ?_
    obtain ⟨j, hj⟩ := List.getElem?_of_mem hlane
    obtain ⟨-, d, -, -, model, first, rest, st, link, ms, fading, -, -, hboth⟩ := hstep j lane hj
    exact ⟨model, first, d, st, link, ms, fading, hboth⟩
  · intro other hother hsome
    by_cases hid : other.id = node.id
    · obtain rfl := List.inj_on_of_nodup_map hnodes hother hnode hid
      refine ⟨{ sp with
        linkStates := (runChannel acc count other.sampleRateHz).2, groups := acc.groups }, ?_⟩
      refine ⟨?_, hsp.table, hsp.device, hsp.capacity, hsp.maxSteps, fun k lane hlane =>
        (hstep k lane hlane).2⟩
      rw [hcall.states]
      exact Function.update_self ..
    · obtain ⟨sp', hsp'⟩ := h.nodes other hother hsome
      exact ⟨sp', h.other_node hresolved hkeys hnode hsp hcall hserve hid hsp'⟩

end Slot

/-! ## Publications -/

section Publish

/-- What publications make of the control block of a link. -/
def publishedControl {K : Type} (k : String) (ps : List (Publication K))
    (control : BrokerLinkControl K) : BrokerLinkControl K :=
  (ps.filter (·.linkId = k)).foldl (fun ctl pub => ctl.publish pub.gate pub.update) control

/-- Publications write to the control block and to nothing else. -/
theorem publishTo_eq {K : Type} (k : String) (ps : List (Publication K))
    (link : PhysicalLinkRuntime K) :
    LinkTable.publishTo k ps link = { link with control := publishedControl k ps link.control } := by
  unfold LinkTable.publishTo publishedControl
  generalize ps.filter (·.linkId = k) = qs
  induction qs generalizing link with
  | nil => rfl
  | cons pub qs ih => exact ih (link.publish pub.gate pub.update)

/-- The parts of a link that a lane reads are beside its control block. -/
theorem LaneParallel.recontrol {model : ModelConfig ℝ} {first : ModelStep ℝ}
    {link : PhysicalLinkRuntime ℝ} {st : LinkState ℝ} {ms : LinkModelState ℝ}
    {d : DeviceLinkState ℝ} (h : LaneParallel model first link st ms d)
    (control : BrokerLinkControl ℝ) :
    LaneParallel model first { link with control := control } st ms d := by
  refine ⟨h.live, h.laneIndex, h.sized, ?_⟩
  obtain ⟨tdl, others, φ, phases, hsteps, hphase, htdl, hagree⟩ := h.steps
  refine ⟨tdl, others, φ, phases, hsteps, hphase, ?_, hagree⟩
  exact ⟨htdl.hasTdl, htdl.still, htdl.cells, htdl.size,
    ⟨htdl.mirrors.matrix, htdl.mirrors.profile⟩, htdl.suffix, htdl.declared⟩

/-- **Publications on both processors.** -/
theorem BackendsParallel.publish (h : BackendsParallel config resolved p c)
    {ps : List (Publication ℝ)} (hfit : ∀ pub ∈ ps, ∀ lane ∈ resolved.lanes,
      lane.physicalLinkKey = pub.linkId → pub.update.Fits lane.place) :
    BackendsParallel config resolved { p with links := p.links.publishAll ps }
      { c with links := c.links.publishAll ps } := by
  refine ⟨h.stand.publish ?_ ps, ?_, h.rows, ?_⟩
  · intro lane model st link ps' hhints
    have hsame := LinkTable.sameHints_publishTo lane.physicalLinkKey ps' link
    exact ⟨hsame.ntHint.trans hhints.1, hsame.nrHint.trans hhints.2⟩
  · have hcontrols : ∀ links : LinkTable ℝ, ∀ k, (links.publishAll ps).linkMap k =
        (links.linkMap k).map (publishedControl k ps) := by
      intro links k
      unfold LinkTable.linkMap
      rw [LinkTable.publishAll_apply, Option.map_map, Option.map_map]
      congr 1
      funext link
      rw [Function.comp_apply, publishTo_eq]
      rfl
    funext k
    rw [hcontrols, hcontrols, h.controls]
  · intro node hnode hlanes
    obtain ⟨sp, hsp⟩ := h.nodes node hnode hlanes
    refine ⟨sp, hsp.state, hsp.table, hsp.device, hsp.capacity, hsp.maxSteps, ?_⟩
    intro k lane hlane
    obtain ⟨d, hd, hnumber, model, first, rest, st, link, ms, fading, hmodel, hstatic, hboth⟩ :=
      hsp.lanes k lane hlane
    have hmem := (mem_nodeLanes.mp (List.mem_of_getElem? hlane)).1
    refine ⟨d, hd, hnumber, model, first, rest, st,
      LinkTable.publishTo lane.physicalLinkKey ps link, ms, fading, hmodel, hstatic, hboth.state,
      hboth.place, ?_, hboth.slot, hboth.slotLink, ?_, ?_, ?_⟩
    · dsimp only
      rw [LinkTable.publishAll_apply, hboth.cpuLink, Option.map_some]
    · dsimp only
      rw [LinkTable.publishAll_apply, hboth.cudaLink, Option.map_some, publishTo_eq, publishTo_eq]
    · exact hboth.fits.publishTo fun pub hpub hid => hfit pub hpub lane hmem hid.symm
    · rw [publishTo_eq]
      exact hboth.parallel.recontrol _

end Publish

end Both

end
