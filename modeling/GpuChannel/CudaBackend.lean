/-
# The CUDA processor

`CudaChannelProcessor` (cuda_backend.cu) over the resolved lane table, with the kernels of
device_channel.cu: `prepare`, and `process_superposition` from its checks to the output rows.

A node whose incoming edges all lead with a tdl runs on the device: one copy of the samples for each
source, and the tapped delay line of every edge in `apply_channel_kernel`.  Any other node stages its
edges on the host, with the taps of the configuration.  The rest of each chain and the sum over the
edges of a row run in `superpose_kernel` either way.

A buffer that is copied between host and device, or mapped into both, is one list here.
-/
import GpuChannel.FadingTime
import GpuChannel.LaneConsumers

/-! ## The device copy of an edge -/

section Build

variable {K : Type} [Field K]

/-- A tap of zeroed memory. -/
def DeviceTap.zero : DeviceTap K :=
  { delayInt := 0, frac := 0, gainAmp := 0, cosPhi := 0, sinPhi := 0, polyphase := fun _ => 0
    isLos := false, losFactor := 0, rayleighFactor := 0, losAngleRad := 0
    alpha := fun _ => 0, phi := fun _ => 0 }

/-- A state of zeroed memory. -/
def DeviceLinkState.zero : DeviceLinkState K :=
  { nTaps := 0, hasTdl := false, delayLineSize := 0, srcIndex := 0
    taps := fun _ => DeviceTap.zero, fadingEnabled := false, fDMaxHz := 0, gridUs := 0
    losCoeff := 0, delayLine := List.replicate kDeviceMaxDelayLine 0, slotStartSamples := 0
    live := MutableParams.default }

variable [LinearOrder K] [FloorRing K] [Libm K]

/-- One round of the tap loops of `build_device_link_state`. -/
def buildDeviceTap (tap : TapSpec K) (polyphase : Polyphase K)
    (draws : Option ((Fin kTdlFadingSinusoids → K) × (Fin kTdlFadingSinusoids → K))) :
    DeviceTap K :=
  let kLin := Libm.pow10 (tap.losKDb / 10)
  { delayInt := ⌊tap.delaySamples⌋
    frac := tap.delaySamples - (⌊tap.delaySamples⌋ : K)
    gainAmp := Libm.pow10 (tap.gainDb / 20)
    cosPhi := Libm.cos tap.phaseRad
    sinPhi := Libm.sin tap.phaseRad
    polyphase := polyphase
    isLos := tap.isLos
    losFactor := if tap.isLos then Libm.sqrt (kLin / (kLin + 1)) else 0
    rayleighFactor := if tap.isLos then Libm.sqrt (1 / (kLin + 1)) else 1
    losAngleRad := if tap.isLos then tap.losAngleRad else 0
    alpha := (draws.map (·.1)).getD fun _ => 0
    phi := (draws.map (·.2)).getD fun _ => 0 }

/-- The draws of a tap that the host made, if the step fades. -/
def tapDraws (step : ModelStep K) (fading : TdlFadingState K) (k : ℕ) :
    Option ((Fin kTdlFadingSinusoids → K) × (Fin kTdlFadingSinusoids → K)) :=
  if step.fadingEnabled then
    (fading.tapAlpha[k]?).map fun alpha => (alpha, fading.tapPhi.getD k fun _ => 0)
  else none

/-- **`build_device_link_state`**, with what it returns. -/
def buildDeviceLinkState (step : ModelStep K) (hostPolyphase : List (Polyphase K))
    (hostFading : TdlFadingState K) (delayLineSize srcIndex : ℕ) : Bool × DeviceLinkState K :=
  let out : DeviceLinkState K := { DeviceLinkState.zero with srcIndex := srcIndex, losCoeff := 1 }
  if step.type ≠ .tdl then (true, out)
  else if step.taps.length < 1 ∨ kDeviceMaxTaps < step.taps.length then (false, out)
  else if delayLineSize = 0 ∨ kDeviceMaxDelayLine < delayLineSize then (false, out)
  else if ∃ tap ∈ step.taps, tap.exceedsDevice ∨
      (delayLineSize : ℤ) < ⌈tap.delaySamples⌉ + kTdlFracFilterTaps then (false, out)
  else
    (true, { out with
      hasTdl := true
      nTaps := step.taps.length
      delayLineSize := delayLineSize
      taps := fun k =>
        match step.taps[k.val]? with
        | none => DeviceTap.zero
        | some tap =>
            buildDeviceTap tap (hostPolyphase.getD k fun _ => 0) (tapDraws step hostFading k)
      fadingEnabled := step.fadingEnabled
      fDMaxHz := step.fadingFDMaxHz
      gridUs := step.fadingGridUs })

end Build

/-! ## The channel kernel -/

section Kernel

variable {K : Type} [Field K]

/-- What the fading kernels read of a state. -/
def DeviceLinkState.fading (s : DeviceLinkState K) : DeviceFadingState K :=
  { hasTdl := s.hasTdl, nTaps := s.nTaps, fadingEnabled := s.fadingEnabled
    fDMaxHz := s.fDMaxHz, gridUs := s.gridUs
    tapAlpha := (List.finRange kDeviceMaxTaps).map fun k => (s.taps k).alpha
    tapPhi := (List.finRange kDeviceMaxTaps).map fun k => (s.taps k).phi
    slotStartSamples := s.slotStartSamples }

/-- The taps in use, with their numbers. -/
def DeviceLinkState.tapsInUse (s : DeviceLinkState K) :
    List (Fin kDeviceMaxTaps × DeviceTap K) :=
  ((List.finRange kDeviceMaxTaps).take s.nTaps).map fun k => (k, s.taps k)

/-- One sample that a filter reads: this slot's, or the ring behind it. -/
def DeviceLinkState.kernelRead (s : DeviceLinkState K) (source : List (Iq K)) (readIdx : ℤ) : Iq K :=
  if (source.length : ℤ) ≤ readIdx then 0
  else if 0 ≤ readIdx then source.getD readIdx.toNat 0
  else
    let ringIdx := (s.delayLineSize : ℤ) + readIdx
    if 0 ≤ ringIdx ∧ ringIdx < s.delayLineSize then s.delayLine.getD ringIdx.toNat 0 else 0

/-- One round of the tap loop, behind the filter: static phase, coefficient, gain. -/
def DeviceTap.weigh (t : DeviceTap K) (g : Cplx K) (x : Iq K) : Iq K :=
  let rot : Iq K := ⟨x.i * t.cosPhi - x.q * t.sinPhi, x.i * t.sinPhi + x.q * t.cosPhi⟩
  ⟨t.gainAmp * (rot.i * g.re - rot.q * g.im), t.gainAmp * (rot.i * g.im + rot.q * g.re)⟩

/-- The windowed-sinc read around `idx - tau_int`. -/
def DeviceTap.filter (t : DeviceTap K) (read : ℤ → Iq K) (idx : ℕ) : Iq K :=
  (List.finRange kTdlFracFilterTaps).foldl (fun x i =>
    let s := read (idx - t.delayInt + 3 - i.val)
    ⟨x.i + t.polyphase i * s.i, x.q + t.polyphase i * s.q⟩) 0

variable [LinearOrder K] [FloorRing K] [Libm K]

/-- **`apply_channel_kernel`**, one edge.  `rows` are the edge's rows of the grid. -/
def applyChannelKernel (s : DeviceLinkState K) (source : List (Iq K)) (rows : ℕ → ℕ → Cplx K)
    (sampleRateHz : ℕ) : List (Iq K) :=
  if s.hasTdl = false then source
  else
    let shape := fadingGridShape s.fading source.length sampleRateHz
    (List.range source.length).map fun idx =>
      s.tapsInUse.foldl (fun acc kt =>
        acc + kt.2.weigh (deviceGain s shape rows sampleRateHz kt.1 idx)
          (kt.2.filter (s.kernelRead source) idx)) 0

end Kernel

/-! ## The state of the processor -/

/-- `host_steps` and `step_meta`: the steps of the edges back to back, and for each edge the place
and the number of its steps. -/
structure StepTable (K : Type) where
  steps : List (GpuStep K)
  offsets : List ℕ
  counts : List ℕ

namespace StepTable

variable {K : Type}

def empty (K : Type) : StepTable K := ⟨[], [], []⟩

/-- The steps of one more edge. -/
def push (t : StepTable K) (steps : List (GpuStep K)) : StepTable K :=
  ⟨t.steps ++ steps, t.offsets ++ [t.steps.length], t.counts ++ [steps.length]⟩

/-- The steps that the kernel reads for an edge. -/
def edge (t : StepTable K) (k : ℕ) : List (GpuStep K) :=
  (t.steps.drop (t.offsets.getD k 0)).take (t.counts.getD k 0)

end StepTable

/-- **`CudaSuperposeState`** of a node.  `groupOwners` are the links of the correlation groups. -/
structure CudaSuperposeState (K : Type) where
  capacity : ℕ
  maxSteps : ℕ
  table : SuperposeState
  useDeviceChannel : Bool
  linkStates : List (DeviceLinkState K)
  rxModels : List (LinkModelState K)
  groups : List (DeviceCorrelationGroup K)
  groupOwners : List String

/-- **`CudaChannelProcessor`.** -/
structure CudaChannelProcessor (K : Type) where
  linkSlots : String → Option (LinkModelState K)
  superposeStates : String → Option (CudaSuperposeState K)
  links : LinkTable K

section Processor

variable {K : Type} [Field K] [LinearOrder K] [FloorRing K] [Libm K]

/-- **`configure_leading_propagation`.** -/
def configureLeadingPropagation [Rng K] (state : LinkModelState K) (model : ModelConfig K)
    (fadingSeed : UInt64) : LinkModelState K :=
  let state := { state with
    hasTdl := false, tdlTaps := [], tdlPolyphase := [], delayLine := []
    tdlFading := TdlFadingState.default }
  match model.chain with
  | [] => state
  | first :: _ =>
      if first.type = .tdl then
        let tdl := prepareTdlState first.taps []
        { state with
          hasTdl := true, tdlTaps := first.taps, tdlPolyphase := tdl.1, delayLine := tdl.2
          tdlFading := prepareTdlFadingState first fadingSeed }
      else state

/-- **`stage_link`.** The scratch grid is built anew in every slot. -/
def stageLink (state : LinkModelState K) (input : List (Iq K))
    (sampleRateHz slotStartSamples : ℕ) : Except String (LinkModelState K × List (Iq K)) :=
  if state.hasTdl then
    if state.tdlFading.enabled then do
      let grid ← generateFadingGrid state.tdlFading state.tdlTaps.length input.length sampleRateHz
        slotStartSamples (FadingGrid.empty K)
      let shaped ← applyTdlStepFading input state.tdlTaps state.tdlPolyphase state.delayLine
        state.tdlFading sampleRateHz slotStartSamples grid state.losCoefficient
      pure ({ state with delayLine := shaped.2 }, shaped.1)
    else
      let shaped := applyTdlStep input state.tdlTaps state.tdlPolyphase state.delayLine
      pure ({ state with delayLine := shaped.2 }, shaped.1)
  else pure (state, input)

namespace CudaChannelProcessor

/-! ## prepare -/

/-- What the lane loop writes to the link of a lane. -/
def prepareLink (model : ModelConfig K) (slot : LinkModelState K) (lane : LaneConfig)
    (fixedMimoDeclared : Bool) (slotCount : ℕ) (link : PhysicalLinkRuntime K) :
    PhysicalLinkRuntime K :=
  let link :=
    if link.control.seqno = 0 ∧ link.liveSeqno = 0 then
      { link with live := slot.live, control := link.control.init slot.live }
    else link
  { link with
    chainHasLeadingTdl := leadsWithTdl model
    control := { link.control with
      dlSizeSamplesHint :=
        if leadsWithTdl model then slot.delayLine.length else link.control.dlSizeSamplesHint
      ntHint := lane.nt
      nrHint := lane.nr
      correlationDeclared := model.spatialCorrelation.declared
      fixedMimoDeclared := fixedMimoDeclared
      slotCountHint := slotCount } }

variable [Rng K]

/-- The slot of a lane, as the lane loop leaves it. -/
def laneSlot (model : ModelConfig K) (lane : LaneConfig) : LinkModelState K :=
  let slot := configureLeadingPropagation (initModelState model.chain.length lane.key) model
    (laneFadingSeed (physicalLinkSeed lane.physicalLinkKey) lane.rxPort lane.txPort 0)
  { slot with
    link := lane.physicalLinkKey
    laneIndex := lane.rxPort * lane.nt + lane.txPort
    live := populateMutableParamsFromYaml model }

/-- One lane of the lane loop. -/
def prepareLane (config : TopologyConfig K) (resolved : ResolvedTopology)
    (p : CudaChannelProcessor K) (lane : LaneConfig) : CudaChannelProcessor K :=
  match config.findModel lane.modelId, resolved.nodes.find? (·.id = lane.dstNode) with
  | some model, some destination =>
      let slot := laneSlot model lane
      let baseModel := (config.links[lane.linkIndex]?).bind fun link => config.findModel link.model
      let link := prepareLink model slot lane ((baseModel.map (·.fixedMimoDeclared)).getD false)
        (resolveBatchSamples config.runtime destination.sampleRateHz)
        ((p.links lane.physicalLinkKey).getD PhysicalLinkRuntime.default)
      { p with
        linkSlots := Function.update p.linkSlots lane.key (some slot)
        links := Function.update p.links lane.physicalLinkKey (some link) }
  | _, _ => p

/-- The LOS entry of a lane. -/
def laneLos (model : ModelConfig K) (lane : LaneConfig) : Cplx K :=
  (laneLosCoefficients model.losMatrix lane.nt lane.nr).getD (lane.rxPort * lane.nt + lane.txPort) 0

/-- The device state of one edge, and whether it fits. -/
def deviceEdge (model : ModelConfig K) (slot : LinkModelState K) (lane : LaneConfig)
    (srcIndex : ℕ) : Bool × DeviceLinkState K :=
  let built : Bool × DeviceLinkState K :=
    match model.chain with
    | first :: _ =>
        if first.type = .tdl then
          buildDeviceLinkState first slot.tdlPolyphase slot.tdlFading slot.delayLine.length srcIndex
        else (true, { DeviceLinkState.zero with srcIndex := srcIndex })
    | [] => (true, { DeviceLinkState.zero with srcIndex := srcIndex })
  (built.1, { built.2 with live := slot.live, losCoeff := laneLos model lane })

/-- The correlation group of a link, every lane's edge still missing. -/
def newGroup (model : ModelConfig K) (lane : LaneConfig) :
    Except String (List (Option ℕ) × List (Cplx K)) :=
  match laneMixingMatrix model.spatialCorrelation lane.nt lane.nr with
  | .error e => throw ("link " ++ lane.physicalLinkKey ++ ": " ++ e)
  | .ok mixing => pure (List.replicate (lane.nt * lane.nr) none, mixing)

/-- One edge of the grouping loop: the groups by owner. -/
def groupEdge (config : TopologyConfig K) (nodeId : String) (useDeviceChannel : Bool)
    (groups : List (String × List (Option ℕ) × List (Cplx K))) (e : LaneConfig × ℕ) :
    Except String (List (String × List (Option ℕ) × List (Cplx K))) :=
  match config.findModel e.1.modelId with
  | none => pure groups
  | some model =>
      if model.spatialCorrelation.declared = false then pure groups
      else if useDeviceChannel = false then
        throw ("node " ++ nodeId ++
          " falls back to host staging (an incoming edge does not lead with tdl), but link " ++
          e.1.physicalLinkKey ++ " declares spatial_correlation, which only the device path applies")
      else do
        let groups ←
          if (groups.lookup e.1.physicalLinkKey).isSome then pure groups
          else do
            let group ← newGroup model e.1
            pure (groups ++ [(e.1.physicalLinkKey, group)])
        pure (groups.map fun g =>
          if g.1 = e.1.physicalLinkKey then
            (g.1, g.2.1.set (e.1.rxPort * e.1.nt + e.1.txPort) (some e.2), g.2.2)
          else g)

/-- The groups, once every lane of each has its edge. -/
def completeGroups (nodeId : String)
    (groups : List (String × List (Option ℕ) × List (Cplx K))) :
    Except String (List (DeviceCorrelationGroup K)) :=
  groups.mapM fun g =>
    match g.2.1.mapM id with
    | some edges => pure { edgeIndex := edges, mixing := g.2.2 }
    | none => throw ("node " ++ nodeId ++ " has a correlated link with a missing lane; " ++
        "correlation is defined over the whole Nt x Nr matrix")

/-- The edges of a node, with their models and slots. -/
def nodeEdges (config : TopologyConfig K) (p : CudaChannelProcessor K) (table : SuperposeState) :
    List (LaneConfig × ModelConfig K × LinkModelState K) :=
  table.edges.filterMap fun lane =>
    (config.findModel lane.modelId).bind fun model =>
      (p.linkSlots lane.key).map fun slot => (lane, model, slot)

/-- What the node loop writes to the slots and links of its edges. -/
def prepareEdge (useDeviceChannel : Bool) (p : CudaChannelProcessor K)
    (e : LaneConfig × ModelConfig K × LinkModelState K) : CudaChannelProcessor K :=
  { p with
    linkSlots := Function.update p.linkSlots e.1.key
      ((p.linkSlots e.1.key).map fun slot => { slot with losCoefficient := laneLos e.2.1 e.1 })
    links := Function.update p.links e.2.2.link ((p.links e.2.2.link).map fun link =>
      { link with control := { link.control with matrixProfileSupported := useDeviceChannel } }) }

/-- One node of the node loop. -/
def prepareNode (config : TopologyConfig K) (resolved : ResolvedTopology)
    (p : CudaChannelProcessor K) (node : ResolvedNode) : Except String (CudaChannelProcessor K) := do
  match ← prepareNodeRows config resolved node with
  | none => pure p
  | some table =>
      let edges := nodeEdges config p table
      let built := edges.zipWith (fun e src => deviceEdge e.2.1 e.2.2 e.1 src) table.sources.numbers
      let useDeviceChannel := edges.all fun e => leadsWithTdl e.2.1
      if useDeviceChannel ∧ built.any (!·.1) then
        throw ("CUDA device channel capacity exceeded for " ++
          (((edges.zip built).reverse.find? (!·.2.1)).map (·.1.1.key)).getD "")
      else do
        let groups ← (edges.map (·.1)).zipIdx.foldlM
          (groupEdge config node.id useDeviceChannel) []
        let complete ← completeGroups node.id groups
        let rxModel := if node.rxModel.isEmpty then none else config.findModel node.rxModel
        let sp : CudaSuperposeState K :=
          { capacity := resolveBatchSamples config.runtime node.sampleRateHz
            maxSteps := ((nodeLanes config resolved node).filterMap fun lane =>
              config.findModel lane.modelId).foldl (fun n model => max n model.chain.length) 1
            table := table
            useDeviceChannel := useDeviceChannel
            linkStates := built.map (·.2)
            rxModels := (rxModel.map (prepareRxModels node)).getD []
            groups := complete
            groupOwners := groups.map (·.1) }
        let p := edges.foldl (prepareEdge useDeviceChannel) p
        pure { p with superposeStates := Function.update p.superposeStates node.id (some sp) }

/-- A processor that nothing was prepared on. -/
def empty : CudaChannelProcessor K :=
  { linkSlots := fun _ => none, superposeStates := fun _ => none, links := fun _ => none }

/-- **`prepare`.** -/
def prepare (config : TopologyConfig K) : Except String (CudaChannelProcessor K) := do
  let resolved ← resolveTopology config
  resolved.nodes.foldlM (prepareNode config resolved)
    (resolved.lanes.foldl (prepareLane config resolved) empty)

/-! ## process_superposition -/

/-- The snap pass: one snap for each link, before any edge is staged. -/
def snapInput (count : ℕ) (slots : String → Option (LinkModelState K))
    (acc : LinkTable K × List (String × LinkSnapOutcome)) (edge : SuperpositionInput K) :
    LinkTable K × List (String × LinkSnapOutcome) :=
  match slots edge.linkKey with
  | none => acc
  | some slot =>
      if (acc.2.lookup slot.link).isSome then acc
      else
        let snapped := ((acc.1 slot.link).getD PhysicalLinkRuntime.default).snap count
        (Function.update acc.1 slot.link (some snapped.1), acc.2 ++ [(slot.link, snapped.2)])

/-- What the edge loop carries along. -/
structure Staging (K : Type) where
  slots : String → Option (LinkModelState K)
  linkStates : List (DeviceLinkState K)
  groups : List (DeviceCorrelationGroup K)
  table : StepTable K
  staged : List (List (Iq K))
  nextSlotStart : List ℕ

/-- A new factor for the group of a link; a missing entry is the identity's. -/
def uploadMixing (owners : List String) (link : String) (mixing : List (Cplx K))
    (groups : List (DeviceCorrelationGroup K)) : List (DeviceCorrelationGroup K) :=
  groups.modify (owners.idxOf link) fun group =>
    let n := group.edgeIndex.length
    { group with mixing := (List.range (n * n)).map fun idx =>
        mixing.getD idx (if idx / n = idx % n then 1 else 0) }

/-- One round of the edge loop. -/
def stageEdge (sp : CudaSuperposeState K) (links : LinkTable K)
    (outcomes : List (String × LinkSnapOutcome)) (sources : List (List (Iq K)))
    (count sampleRateHz : ℕ) (acc : Staging K) (edge : SuperpositionInput K × ℕ) :
    Except String (Staging K) :=
  match edge.1.model with
  | none => throw "CUDA superposition input is malformed"
  | some model =>
      if edge.1.samples.length ≠ count then throw "CUDA superposition input is malformed"
      else if sp.maxSteps < model.chain.length then
        throw "CUDA superposition model chain exceeds preallocated capacity"
      else
        match acc.slots edge.1.linkKey with
        | none => throw ("CUDA link state was not preallocated: " ++ edge.1.linkKey)
        | some slot => do
            let link := (links slot.link).getD PhysicalLinkRuntime.default
            let outcome := (outcomes.lookup slot.link).getD {}
            let slot := if outcome.valuesChanged then { slot with live := link.live } else slot
            let state := acc.linkStates.getD edge.2 DeviceLinkState.zero
            let state ←
              if sp.useDeviceChannel then state.snapRefresh link outcome slot.laneIndex
              else pure state
            let groups :=
              if outcome.correlationChanged then
                uploadMixing sp.groupOwners slot.link link.fading.mixing acc.groups
              else acc.groups
            let slot :=
              if outcome.profileActivated ∧ sp.useDeviceChannel = false then
                { slot with delayLine := slot.delayLine.map fun _ => 0 }
              else slot
            let (slot, staged) ←
              if sp.useDeviceChannel then pure (slot, sources.getD state.srcIndex [])
              else stageLink slot edge.1.samples sampleRateHz link.slotStartSamples
            let slot := buildSteps slot model (some staged) count sampleRateHz
            pure
              { slots := Function.update acc.slots edge.1.linkKey (some slot)
                linkStates := acc.linkStates.set edge.2 state
                groups := groups
                table := acc.table.push (slot.hostSteps.take model.chain.length)
                staged := acc.staged ++ [staged]
                nextSlotStart := acc.nextSlotStart ++ [link.slotStartSamples + count] }

/-- The clock advance: once for each link. -/
def advanceClocks (links : LinkTable K) (touched : List String) (count : ℕ) : LinkTable K :=
  touched.foldl (fun links k => Function.update links k ((links k).map fun link =>
    { link with slotStartSamples := link.slotStartSamples + count })) links

/-- The device path: the grids, their mixing, the channel of every edge, and the rings rolled. -/
def runChannel (acc : Staging K) (count sampleRateHz : ℕ) :
    List (List (Iq K)) × List (DeviceLinkState K) :=
  let fading := acc.linkStates.map (·.fading)
  let grid := mixFadingGridKernel fading acc.groups count sampleRateHz
    (generateFadingGridKernel fading count sampleRateHz)
  (acc.linkStates.mapIdx fun k s => applyChannelKernel s (acc.staged.getD k [])
      (fun tap point => (grid k tap point).getD 0) sampleRateHz,
    acc.linkStates.mapIdx fun k s =>
      s.updateDelayLineKernel (acc.staged.getD k []) (acc.nextSlotStart.getD k 0))

variable [Curand K]

/-- **`superpose_kernel`**, one row: the edges `[first, last)` in their order. -/
def superposeRow (table : StepTable K) (staged : List (List (Iq K))) (count first last : ℕ) :
    List (Iq K) :=
  (List.range count).map fun idx =>
    (List.range' first (last - first)).foldl (fun acc k =>
      acc + applyChain (table.edge k) idx ((staged.getD k []).getD idx 0)) 0

/-- The samples of every source: those of the first edge that reads it. -/
def packSources (sp : CudaSuperposeState K) (inputs : List (SuperpositionInput K)) :
    List (List (Iq K)) :=
  sp.table.sources.first.map fun k => ((inputs[k]?).map (·.samples)).getD []

/-- The row of an input; a negative port is none. -/
def inputRow (rows : ℕ) (input : SuperpositionInput K) : ℕ :=
  if input.rxPort < 0 then rows else input.rxPort.toNat

/-- **`process_superposition`.** `rowSizes` are the sizes of the output spans. -/
def processSuperposition (p : CudaChannelProcessor K) (dstKey : String)
    (inputs : List (SuperpositionInput K)) (rxModel : Option (ModelConfig K)) (sampleRateHz : ℕ)
    (rowSizes : List ℕ) : Except String (CudaChannelProcessor K × List (List (Iq K))) :=
  match rowSizes with
  | [] => pure (p, [])
  | count :: _ =>
      match p.superposeStates dstKey with
      | none => throw ("CUDA superposition state was not preallocated: " ++ dstKey)
      | some sp =>
          if rowSizes.length ≠ sp.table.rows then
            throw ("CUDA superposition row count does not match the prepared node: " ++ dstKey)
          else if rowSizes.any (· ≠ count) then
            throw "CUDA superposition output rows have unequal lengths"
          else if count = 0 then pure (p, rowSizes.map fun _ => [])
          else if sp.capacity < count then
            throw "CUDA superposition batch exceeds preallocated capacity"
          else if inputs.isEmpty then
            pure (p, rowSizes.map fun size => List.replicate size 0)
          else do
            checkInputs sp.table dstKey (inputs.map (inputRow sp.table.rows))
            if rxModel.isSome ∧ sp.rxModels = [] then
              throw ("CUDA superposition rx_model state was not preallocated: " ++ dstKey)
            if sp.useDeviceChannel ∧ (packSources sp inputs).any (·.length ≠ count) then
              throw "CUDA superposition input is malformed"
            let (links, outcomes) := inputs.foldl (snapInput count p.linkSlots) (p.links, [])
            let acc ← inputs.zipIdx.foldlM
              (stageEdge sp links outcomes (packSources sp inputs) count sampleRateHz)
              ⟨p.linkSlots, sp.linkStates, sp.groups, StepTable.empty K, [], []⟩
            let (staged, states) :=
              if sp.useDeviceChannel then runChannel acc count sampleRateHz
              else (acc.staged, acc.linkStates)
            let rows := (List.range sp.table.rows).map fun r =>
              superposeRow acc.table staged count (sp.table.rowBegin.getD r 0)
                (sp.table.rowBegin.getD (r + 1) 0)
            let (rxModels, rows) ←
              match rxModel with
              | none => pure (sp.rxModels, rows)
              | some model => receiveRows sp.rxModels model count sampleRateHz rows
            pure
              ({ linkSlots := acc.slots
                 superposeStates := Function.update p.superposeStates dstKey
                   (some { sp with linkStates := states, groups := acc.groups, rxModels := rxModels })
                 links := advanceClocks links (outcomes.map (·.1)) count }, rows)

end CudaChannelProcessor

end Processor
