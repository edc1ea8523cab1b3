/-
# The CPU processor

`CpuChannelProcessor` (cpu_backend.cpp) over the resolved lane table: `prepare`, and
`process_superposition` with its passes in the order of the source.  A lane state names
its physical link by key where the source holds a pointer.  A thrown exception is an
`Except` error.  Reads outside a vector, which the source leaves undefined, give a default.
-/
import GpuChannel.ChannelChain
import GpuChannel.Correlation
import GpuChannel.ControlPlane

/-! ## Seeds -/

/-- `seed_mix`: the splitmix64 finaliser. -/
def seedMix (x : UInt64) : UInt64 :=
  let x := x + 0x9e3779b97f4a7c15
  let x := (x ^^^ (x >>> 30)) * 0xbf58476d1ce4e5b9
  let x := (x ^^^ (x >>> 27)) * 0x94d049bb133111eb
  x ^^^ (x >>> 31)

/-- `physical_link_seed`: FNV-1a over the key's bytes. -/
def physicalLinkSeed (baseLinkKey : String) : UInt64 :=
  seedMix (baseLinkKey.toUTF8.foldl (fun h c => (h ^^^ c.toUInt64) * 1099511628211)
    1469598103934665603)

/-- `lane_fading_seed`. -/
def laneFadingSeed (linkSeed : UInt64) (rxPort txPort stepIndex : ℕ) : UInt64 :=
  let v := seedMix (linkSeed ^^^ (0x9e3779b97f4a7c15 * (rxPort.toUInt64 + 1)))
  let v := seedMix (v ^^^ (0xc2b2ae3d27d4eb4f * (txPort.toUInt64 + 1)))
  seedMix (v ^^^ (0x165667b19e3779f9 * (stepIndex.toUInt64 + 1)))

/-! ## The grids of a link -/

namespace PhysicalLinkFading

variable {K : Type}

def beginSlot (f : PhysicalLinkFading K) : PhysicalLinkFading K :=
  { f with laneReady := List.replicate (max f.lanes 1) false }

/-- `vector::resize` upwards. -/
def padTo {α : Type} (n : ℕ) (fill : α) (l : List α) : List α := l ++ List.replicate (n - l.length) fill

def reshape (f : PhysicalLinkFading K) (laneCount steps : ℕ) : PhysicalLinkFading K :=
  { f with
    laneGrids := (padTo laneCount [] f.laneGrids).map (padTo steps (FadingGrid.empty K))
    laneReady := padTo laneCount false f.laneReady }

variable [Field K]

/-- One point of `apply_mixing`: the lane vector `w` becomes `L w`. -/
def mixPoint (mixing : List (Cplx K)) (n : ℕ) (laneGrids : List (List (FadingGrid K)))
    (kg : ℕ × ℕ) : List (List (FadingGrid K)) :=
  let point := fun (grid : FadingGrid K) => grid.values.getD (kg.1 * grid.points + kg.2) 0
  let scratch := fun l => point (((laneGrids[l]?).bind (·.head?)).getD (FadingGrid.empty K))
  laneGrids.mapIdx fun l perStep =>
    if l < n then
      perStep.modifyHead fun grid =>
        { grid with
          values := grid.values.set (kg.1 * grid.points + kg.2)
            ((List.range n).foldl (fun acc c => acc + mixing.getD (l * n + c) 0 * scratch c) 0) }
    else perStep

/-- **`apply_mixing`.** -/
def applyMixing (f : PhysicalLinkFading K) : Except String (PhysicalLinkFading K) :=
  if f.mixing.isEmpty then pure f
  else if ∃ l ∈ List.range f.lanes, f.laneReady.getD l false = false then
    throw ("spatial correlation needs every lane of the link in the same slot, " ++
      "but one lane's grid was not built")
  else
    let first := ((f.laneGrids[0]?).bind (·.head?)).getD (FadingGrid.empty K)
    let points := (List.range first.taps).product (List.range first.points)
    pure { f with laneGrids := points.foldl (mixPoint f.mixing f.lanes) f.laneGrids }

end PhysicalLinkFading

/-! ## Lane states -/

/-- **`LaneIdentity`.** -/
structure LaneIdentity where
  physicalLinkKey : String
  rxPort : ℕ := 0
  txPort : ℕ := 0
  nt : ℕ := 1
  nr : ℕ := 1

def LaneIdentity.laneIndex (id : LaneIdentity) : ℕ := id.rxPort * id.nt + id.txPort

def LaneIdentity.laneCount (id : LaneIdentity) : ℕ := id.nt * id.nr

/-- **`LinkState`.** `link` is the key of the physical link that the lane belongs to. -/
structure LinkState (K : Type) where
  steps : List (StepState K)
  live : MutableParams K
  link : String
  laneIndex : ℕ
  laneCount : ℕ
  losCoefficient : Cplx K

/-- One execution of a lane's chain: its key, its model, and what every step used. -/
structure Execution (K : Type) where
  key : String
  model : ModelConfig K
  uses : List (StepUse K)

/-- **`CpuChannelProcessor`.** `executed` only records which parameters the chains ran with. -/
structure CpuChannelProcessor (K : Type) where
  states : String → Option (LinkState K)
  links : LinkTable K
  rxModelKeys : List String
  executed : List (Execution K)

/-- **`SuperpositionInput`.** -/
structure SuperpositionInput (K : Type) where
  linkKey : String
  model : Option (ModelConfig K)
  samples : List (Iq K)
  rxPort : ℤ := 0
  txPort : ℤ := 0

section LaneStates

variable {K : Type} [Field K]

/-- A lane state bound to its link, before its steps are prepared. -/
def LinkState.bound (model : ModelConfig K) (identity : LaneIdentity) : LinkState K :=
  { steps := [], live := MutableParams.default, link := identity.physicalLinkKey
    laneIndex := identity.laneIndex, laneCount := identity.laneCount
    losCoefficient :=
      (laneLosCoefficients model.losMatrix identity.nt identity.nr).getD identity.laneIndex 1 }

variable [LinearOrder K] [FloorRing K] [Libm K] [Rng K]

/-- The step states of a lane: `prepare_tdl_step` for every tdl step. -/
def prepareSteps (key : String) (model : ModelConfig K) (identity : LaneIdentity) :
    List (StepState K) :=
  let linkSeed := physicalLinkSeed identity.physicalLinkKey
  model.chain.mapIdx fun i step =>
    let st : StepState K :=
      { StepState.default with noiseSeed := Rng.hashString K (key ++ ":" ++ toString i) }
    if step.type = .tdl then
      let tdl := prepareTdlState step.taps []
      { st with
        tdlPolyphase := tdl.1, delayLine := tdl.2
        tdlFading := prepareTdlFadingState step
          (laneFadingSeed linkSeed identity.rxPort identity.txPort i) }
    else st

def leadsWithTdl (model : ModelConfig K) : Bool := (model.chain.head?.map (·.type)) = some .tdl

/-- What preparing a lane writes to its link. -/
def prepareLink (model : ModelConfig K) (live : MutableParams K) (steps : List (StepState K))
    (sampleCount : ℕ) (identity : LaneIdentity) (link : PhysicalLinkRuntime K) :
    PhysicalLinkRuntime K :=
  let link :=
    if link.control.seqno = 0 ∧ link.liveSeqno = 0 then
      { link with live := live, control := link.control.init live }
    else link
  { link with
    chainHasLeadingTdl := leadsWithTdl model
    control := { link.control with
      dlSizeSamplesHint :=
        match steps with
        | st :: _ => if leadsWithTdl model then st.delayLine.length else link.control.dlSizeSamplesHint
        | [] => link.control.dlSizeSamplesHint
      slotCountHint := sampleCount
      ntHint := identity.nt
      nrHint := identity.nr
      correlationDeclared := model.spatialCorrelation.declared
      fixedMimoDeclared := model.fixedMimoDeclared } }

namespace CpuChannelProcessor

/-- The first half of `ensure_link_state`: the state exists and is bound to its link. -/
def bindState (p : CpuChannelProcessor K) (key : String) (model : ModelConfig K)
    (identity : LaneIdentity) : CpuChannelProcessor K :=
  match p.states key with
  | some _ => p
  | none =>
      { p with
        states := Function.update p.states key (some (LinkState.bound model identity))
        links := Function.update p.links identity.physicalLinkKey
          (some ((p.links identity.physicalLinkKey).getD PhysicalLinkRuntime.default)) }

/-- **`ensure_link_state`.** -/
def ensureLinkState (p : CpuChannelProcessor K) (key : String) (model : ModelConfig K)
    (sampleCount : ℕ) (identity : LaneIdentity) : CpuChannelProcessor K :=
  let p := p.bindState key model identity
  match p.states key with
  | none => p
  | some st =>
      if st.steps.length = model.chain.length then p
      else
        let steps := prepareSteps key model identity
        let live := populateMutableParamsFromYaml model
        { p with
          states := Function.update p.states key (some { st with steps := steps, live := live })
          links := Function.update p.links st.link
            ((p.links st.link).map (prepareLink model live steps sampleCount identity)) }

/-- The link of a key is changed, if there is one. -/
def modifyLink (p : CpuChannelProcessor K) (key : String)
    (f : PhysicalLinkRuntime K → PhysicalLinkRuntime K) : CpuChannelProcessor K :=
  { p with links := Function.update p.links key ((p.links key).map f) }

/-! ## prepare -/

/-- One lane of the lane loop of `prepare`. -/
def prepareLane (config : TopologyConfig K) (resolved : ResolvedTopology)
    (p : CpuChannelProcessor K) (lane : LaneConfig) : CpuChannelProcessor K :=
  match config.findModel lane.modelId, resolved.nodes.find? (·.id = lane.dstNode) with
  | some model, some destination =>
      let p := p.ensureLinkState lane.key model
        (resolveBatchSamples config.runtime destination.sampleRateHz)
        { physicalLinkKey := lane.physicalLinkKey, rxPort := lane.rxPort, txPort := lane.txPort
          nt := lane.nt, nr := lane.nr }
      match config.links[lane.linkIndex]?, p.states lane.key with
      | some link, some st =>
          p.modifyLink st.link fun runtime =>
            { runtime with control := { runtime.control with
                fixedMimoDeclared :=
                  ((config.findModel link.model).map (·.fixedMimoDeclared)).getD false } }
      | _, _ => p
  | _, _ => p

/-- One group of the mixing loop of `prepare`. -/
def prepareGroup (config : TopologyConfig K) (resolved : ResolvedTopology)
    (p : CpuChannelProcessor K) (group : LinkLaneGroup) : Except String (CpuChannelProcessor K) :=
  match group.laneIndex.findSome? id with
  | none => pure p
  | some position =>
      match (resolved.lanes[position]?).bind fun lane => config.findModel lane.modelId with
      | none => pure p
      | some model =>
          if !model.spatialCorrelation.declared ∨ model.spatialCorrelation.kind = .iid then
            pure (p.modifyLink group.physicalLinkKey fun link =>
              { link with fading := { link.fading with lanes := group.nt * group.nr, mixing := [] } })
          else
            match laneMixingMatrix model.spatialCorrelation group.nt group.nr with
            | .error e => throw ("link " ++ group.physicalLinkKey ++ ": " ++ e)
            | .ok mixing =>
                pure (p.modifyLink group.physicalLinkKey fun link =>
                  { link with fading := { link.fading with
                      lanes := group.nt * group.nr, mixing := mixing } })

/-- The receiver rows of one node. -/
def prepareRows (config : TopologyConfig K) (p : CpuChannelProcessor K) (node : ResolvedNode) :
    CpuChannelProcessor K :=
  if node.rxModel.isEmpty then p
  else
    match config.findModel node.rxModel with
    | none => p
    | some model =>
        let count := resolveBatchSamples config.runtime node.sampleRateHz
        let nr := node.rxPorts.length
        (List.range nr).foldl (fun p r =>
          let key := rxStateKey node.id r nr
          let p := p.ensureLinkState key model count { physicalLinkKey := key }
          { p with rxModelKeys := p.rxModelKeys ++ [key] }) p

/-- A processor that nothing was prepared on. -/
def empty : CpuChannelProcessor K :=
  { states := fun _ => none, links := fun _ => none, rxModelKeys := [], executed := [] }

/-- **`prepare`.** -/
def prepare (config : TopologyConfig K) : Except String (CpuChannelProcessor K) :=
  if config.runtime.cpuThreads = 0 then throw "runtime.cpu_threads must be greater than zero"
  else do
    let resolved ← resolveTopology config
    let p := resolved.lanes.foldl (prepareLane config resolved) empty
    let p ← resolved.linkGroups.foldlM (prepareGroup config resolved) p
    pure (resolved.nodes.foldl (prepareRows config) p)

/-! ## process_superposition -/

/-- **`refresh_lane_grids`** for the lane of this state. -/
def refreshLaneGrids (p : CpuChannelProcessor K) (st : LinkState K) (model : ModelConfig K)
    (count sampleRateHz : ℕ) : Except String (CpuChannelProcessor K) :=
  match p.links st.link with
  | none => pure p
  | some link => do
      let fading := link.fading.reshape (max st.laneCount (st.laneIndex + 1)) model.chain.length
      let old := fading.laneGrids.getD st.laneIndex []
      let grids ← (model.chain.zip st.steps).zipIdx.mapM fun s =>
        generateFadingGrid s.1.2.tdlFading s.1.1.taps.length count sampleRateHz
          link.slotStartSamples (old.getD s.2 (FadingGrid.empty K))
      pure { p with links := Function.update p.links st.link (some
        { link with fading := { fading with
            laneGrids := fading.laneGrids.set st.laneIndex (grids ++ old.drop grids.length)
            laneReady := fading.laneReady.set st.laneIndex true } }) }

/-- What the sweep over the siblings does to one lane of the link. -/
def refreshLane (link : PhysicalLinkRuntime K) (outcome : LinkSnapOutcome) (st : LinkState K) :
    LinkState K :=
  let st := if outcome.valuesChanged then { st with live := link.live } else st
  if outcome.historyResetRequired then
    let profile : Option (ProfileShadow K) :=
      if link.liveMatrixProfileActive then link.liveMatrixProfile.lane? st.laneIndex
      else if link.liveProfileActive then some link.liveProfile
      else none
    let steps :=
      match profile with
      | none => st.steps
      | some profile =>
          st.steps.modifyHead fun step =>
            let tdl := prepareTdlState profile.tapList step.delayLine
            { step with tdlPolyphase := tdl.1, delayLine := tdl.2 }
    { st with steps := steps.map fun step =>
        { step with delayLine := step.delayLine.map fun _ => 0 } }
  else st

/-- The once-per-link part of the generation pass: begin the slot, snap, sweep the siblings. -/
def snapLink (p : CpuChannelProcessor K) (inputs : List (SuperpositionInput K))
    (linkKey : String) (count : ℕ) : CpuChannelProcessor K :=
  match p.links linkKey with
  | none => p
  | some link =>
      let snapped := { link with fading := link.fading.beginSlot }.snap count
      let outcome := snapped.2
      let p := { p with links := Function.update p.links linkKey (some snapped.1) }
      if outcome.valuesChanged ∨ outcome.profileActivated ∨ outcome.matrixProfileActivated then
        { p with states := inputs.foldl (fun states sibling =>
            match states sibling.linkKey with
            | some st =>
                if st.link = linkKey then
                  Function.update states sibling.linkKey (some (refreshLane snapped.1 outcome st))
                else states
            | none => states) p.states }
      else p

/-- One lane of the generation pass; `touched` holds the links already snapped. -/
def generateLane (inputs : List (SuperpositionInput K)) (count sampleRateHz : ℕ)
    (acc : CpuChannelProcessor K × List String) (lane : SuperpositionInput K) :
    Except String (CpuChannelProcessor K × List String) :=
  match lane.model with
  | none => throw "CPU superposition input is malformed"
  | some model => do
      let p := acc.1.ensureLinkState lane.linkKey model count { physicalLinkKey := lane.linkKey }
      match p.states lane.linkKey with
      | none => pure (p, acc.2)
      | some st =>
          let fresh := st.link ∉ acc.2
          let p := if fresh then p.snapLink inputs st.link count else p
          let p ← p.refreshLaneGrids ((p.states lane.linkKey).getD st) model count sampleRateHz
          pure (p, if fresh then acc.2 ++ [st.link] else acc.2)

/-- `apply_mixing` of one touched link. -/
def mixLink (p : CpuChannelProcessor K) (linkKey : String) :
    Except String (CpuChannelProcessor K) :=
  match p.links linkKey with
  | none => pure p
  | some link => do
      let fading ← link.fading.applyMixing
      pure { p with links := Function.update p.links linkKey (some { link with fading := fading }) }

/-- **`apply_chain_to_link`**, with the link it returns. -/
def applyChainToLink (p : CpuChannelProcessor K) (key : String) (model : ModelConfig K)
    (input : List (Iq K)) (sampleRateHz : ℕ) :
    Except String (CpuChannelProcessor K × List (Iq K) × Option String) :=
  if input.isEmpty then pure (p, [], none)
  else do
    let p := p.ensureLinkState key model input.length { physicalLinkKey := key }
    match p.states key with
    | none => pure (p, input, none)
    | some st =>
        let ctx : ChainContext K :=
          { live := st.live, link := (p.links st.link).getD PhysicalLinkRuntime.default
            laneIndex := st.laneIndex, losCoefficient := st.losCoefficient
            sampleRateHz := sampleRateHz }
        let run ← runChain ctx 0 model.chain st.steps input
        pure
          ({ p with
              states := Function.update p.states key (some { st with steps := run.states })
              executed := p.executed ++ [⟨key, model, run.uses⟩] },
            run.out, some st.link)

/-- The links whose clock this slot advances, each once. -/
def touch (touched : List String) : Option String → List String
  | none => touched
  | some link => if link ∈ touched then touched else touched ++ [link]

/-- What the passes after the mixing carry along. -/
structure Slot (K : Type) where
  proc : CpuChannelProcessor K
  touched : List String
  rows : List (List (Iq K))

/-- One lane of the shaping pass. -/
def shapeLane (count sampleRateHz : ℕ) (slot : Slot K) (lane : SuperpositionInput K) :
    Except String (Slot K) :=
  match lane.model with
  | none => throw "CPU superposition input is malformed"
  | some model =>
      if lane.samples.length ≠ count then throw "CPU superposition input is malformed"
      else if lane.rxPort < 0 ∨ (slot.rows.length : ℤ) ≤ lane.rxPort then
        throw ("CPU superposition lane rx_port is out of range: " ++ lane.linkKey)
      else do
        let (p, shaped, link) ←
          slot.proc.applyChainToLink lane.linkKey model lane.samples sampleRateHz
        pure
          { proc := p, touched := touch slot.touched link
            rows := slot.rows.modify lane.rxPort.toNat fun row => List.zipWith (· + ·) row shaped }

/-- The receiver model on one row. -/
def receiveRow (dstKey : String) (model : ModelConfig K) (count sampleRateHz : ℕ)
    (slot : Slot K) (r : ℕ) : Except String (Slot K) := do
  let key := rxStateKey dstKey r slot.rows.length
  let p := slot.proc.ensureLinkState key model count { physicalLinkKey := key }
  match p.states key with
  | none => pure slot
  | some st =>
      match p.links st.link with
      | none => pure slot
      | some link =>
          let snapped := { link with fading := link.fading.beginSlot }.snap count
          let st := if snapped.2.valuesChanged then { st with live := snapped.1.live } else st
          let p : CpuChannelProcessor K :=
            { p with
              states := Function.update p.states key (some st)
              links := Function.update p.links st.link (some snapped.1) }
          let p ← p.refreshLaneGrids st model count sampleRateHz
          let (p, row, link) ← p.applyChainToLink key model (slot.rows.getD r []) sampleRateHz
          pure { proc := p, touched := touch slot.touched link, rows := slot.rows.set r row }

/-- The end of the slot: every touched clock moves on. -/
def advanceClocks (p : CpuChannelProcessor K) (touched : List String) (count : ℕ) :
    CpuChannelProcessor K :=
  touched.foldl (fun p key => p.modifyLink key fun link =>
    { link with slotStartSamples := link.slotStartSamples + count }) p

/-- **`process_superposition`.** `rowSizes` are the sizes of the output spans. -/
def processSuperposition (p : CpuChannelProcessor K) (dstKey : String)
    (inputs : List (SuperpositionInput K)) (rxModel : Option (ModelConfig K)) (sampleRateHz : ℕ)
    (rowSizes : List ℕ) : Except String (CpuChannelProcessor K × List (List (Iq K))) :=
  match rowSizes with
  | [] => pure (p, [])
  | count :: _ =>
      let rows := rowSizes.map fun size => List.replicate size (0 : Iq K)
      if rowSizes.any (· ≠ count) then
        throw "CPU superposition output rows have unequal lengths"
      else if count = 0 then pure (p, rows)
      else do
        let (p, touched) ← inputs.foldlM (generateLane inputs count sampleRateHz) (p, [])
        let p ← touched.foldlM mixLink p
        let slot ← inputs.foldlM (shapeLane count sampleRateHz) ⟨p, [], rows⟩
        let slot ←
          match rxModel with
          | none => pure slot
          | some model => (List.range rows.length).foldlM (receiveRow dstKey model count sampleRateHz) slot
        pure (slot.proc.advanceClocks slot.touched count, slot.rows)

end CpuChannelProcessor

end LaneStates
