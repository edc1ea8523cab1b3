/-
# Configuration and its resolved view

The configuration record of config.h as the processors read it, the expansion of a
`fixed_mimo` model into per-lane clones, and `resolve_topology`: radio nodes with
their ports in matrix order, and every link expanded into its lanes.  Fields that
neither the processors nor the control plane read are left out.
-/
import GpuChannel.Numeric

/-! ## Models -/

inductive ModelStepType
  | pathLoss
  | awgn
  | phase
  | cfo
  | tdl
  | gain
  deriving DecidableEq, Repr

inductive FadingSpectrum
  | jakes
  | gaussian
  | flat
  deriving DecidableEq, Repr

/-- **`TapSpec`.** One tap of a tapped delay line. -/
structure TapSpec (K : Type) where
  delaySamples : K
  gainDb : K
  phaseRad : K
  isLos : Bool
  losKDb : K
  losAngleRad : K
  deriving DecidableEq, Repr

instance {K : Type} [Zero K] : Inhabited (TapSpec K) := ⟨⟨0, 0, 0, false, 0, 0⟩⟩

/-- **`ModelStep`.** `params` is a map with distinct keys. -/
structure ModelStep (K : Type) where
  type : ModelStepType
  params : List (String × K) := []
  taps : List (TapSpec K) := []
  tapsDeclared : Bool := false
  fadingEnabled : Bool := false
  fadingFDMaxHz : K
  fadingSpectrum : FadingSpectrum := .jakes
  fadingGridUs : K
  deriving DecidableEq, Repr

/-- `param_or` of cpu_backend.cpp and mutable_params.cpp. -/
def ModelStep.paramOr {K : Type} (step : ModelStep K) (name : String) (fallback : K) : K :=
  (step.params.lookup name).getD fallback

/-- The complex weight of tap `tap` on the lane `(rx, tx)`. -/
structure MimoCoefficient (K : Type) where
  tap : ℤ
  rx : ℤ
  tx : ℤ
  real : K
  imag : K
  deriving DecidableEq, Repr

inductive SpatialCorrelationKind
  | iid
  | kronecker
  deriving DecidableEq, Repr

/-- One entry of the upper triangle of a Hermitian correlation matrix. -/
structure CorrelationEntry (K : Type) where
  i : ℤ
  j : ℤ
  re : K
  im : K
  deriving DecidableEq, Repr

structure SpatialCorrelationConfig (K : Type) where
  declared : Bool := false
  kind : SpatialCorrelationKind := .iid
  rx : List (CorrelationEntry K) := []
  tx : List (CorrelationEntry K) := []
  deriving DecidableEq, Repr

structure LosCoefficient (K : Type) where
  rx : ℤ
  tx : ℤ
  re : K
  im : K
  deriving DecidableEq, Repr

structure LosMatrixConfig (K : Type) where
  declared : Bool := false
  coefficients : List (LosCoefficient K) := []
  deriving DecidableEq, Repr

structure ModelConfig (K : Type) where
  id : String
  chain : List (ModelStep K)
  fixedMimo : List (MimoCoefficient K) := []
  fixedMimoDeclared : Bool := false
  spatialCorrelation : SpatialCorrelationConfig K := {}
  losMatrix : LosMatrixConfig K := {}
  deriving DecidableEq, Repr

/-! ## Topology -/

structure RuntimeConfig where
  cpuThreads : ℕ := 1
  batchSamplesAuto : Bool := true
  batchSamples : ℕ := 0
  queueSamples : ℕ := 614400
  rxRingBatches : ℕ := 2
  pacingRecoveryPpm : ℕ := 10000
  deriving DecidableEq, Repr

/-- **`DeviceConfig`.** An empty carrier is unlabelled; `txQueueSamples = 0` is the runtime's
`queueSamples`. -/
structure DeviceConfig (K : Type) where
  id : String
  sampleRateHz : ℕ := 23040000
  txEndpoint : String
  rxEndpoint : String
  rxModel : String := ""
  txCarrier : String := ""
  rxCarrier : String := ""
  txTimingOffsetSamples : K
  txScaleDb : K
  txQueueSamples : ℕ := 0
  deriving DecidableEq, Repr

structure RadioNodeConfig where
  id : String
  txPorts : List String
  rxPorts : List String
  deriving DecidableEq, Repr

/-- **`LinkConfig`.** `declaredModel` is empty for a link built in code. -/
structure LinkConfig (K : Type) where
  fromNode : String
  toNode : String
  model : String
  declaredModel : String := ""
  propagationDelaySamples : K
  deriving DecidableEq, Repr

/-- **`TopologyConfig`.** `models` is a map: the first entry of a key is the one that is found. -/
structure TopologyConfig (K : Type) where
  runtime : RuntimeConfig := {}
  devices : List (DeviceConfig K)
  radioNodes : List RadioNodeConfig := []
  links : List (LinkConfig K)
  models : List (String × ModelConfig K)
  deriving DecidableEq, Repr

/-- `link_key`: the identity of a physical link. -/
def linkKey {K : Type} (link : LinkConfig K) : String :=
  link.fromNode ++ ">" ++ link.toNode ++ ":" ++
    (if link.declaredModel.isEmpty then link.model else link.declaredModel)

/-- `lane_key`: the link key itself at `Nt = Nr = 1`. -/
def laneKey (baseLinkKey : String) (rxPort txPort nt nr : ℕ) : String :=
  if nt = 1 ∧ nr = 1 then baseLinkKey
  else baseLinkKey ++ "#r" ++ toString rxPort ++ "t" ++ toString txPort

/-- `rx_state_key`: the state key of one receiver row of a node. -/
def rxStateKey (nodeId : String) (rxPort nr : ℕ) : String :=
  if nr = 1 then nodeId ++ ">rx" else nodeId ++ ">rx#r" ++ toString rxPort

/-- `fixed_mimo_model_id`. -/
def fixedMimoModelId (baseModelId : String) (rxPort txPort : ℕ) : String :=
  "__ocg_mimo__" ++ baseModelId ++ "__r" ++ toString rxPort ++ "t" ++ toString txPort

/-- `resolve_batch_samples`. -/
def resolveBatchSamples (runtime : RuntimeConfig) (sampleRateHz : ℕ) : ℕ :=
  if runtime.batchSamplesAuto then max 1 (sampleRateHz / 1000) else runtime.batchSamples

namespace TopologyConfig

variable {K : Type}

def findDevice (config : TopologyConfig K) (id : String) : Option (DeviceConfig K) :=
  config.devices.find? (·.id = id)

def findRadioNode (config : TopologyConfig K) (id : String) : Option RadioNodeConfig :=
  config.radioNodes.find? (·.id = id)

def findModel (config : TopologyConfig K) (id : String) : Option (ModelConfig K) :=
  config.models.lookup id

end TopologyConfig

/-! ## The resolved view -/

structure ResolvedNode where
  id : String
  txPorts : List String
  rxPorts : List String
  sampleRateHz : ℕ
  rxModel : String
  deriving DecidableEq, Repr

/-- **`LaneConfig`.** The `(rxPort, txPort)` pair of one physical link. -/
structure LaneConfig where
  key : String
  srcNode : String
  dstNode : String
  srcDevice : String
  dstDevice : String
  txPort : ℕ
  rxPort : ℕ
  nt : ℕ
  nr : ℕ
  modelId : String
  linkIndex : ℕ
  physicalLinkKey : String
  deriving DecidableEq, Repr

/-- **`LinkLaneGroup`.** `laneIndex` holds positions in `ResolvedTopology.lanes`; `none` is
the `-1` of an absent lane. -/
structure LinkLaneGroup where
  physicalLinkKey : String
  nt : ℕ
  nr : ℕ
  laneIndex : List (Option ℕ)
  deriving DecidableEq, Repr

structure ResolvedTopology where
  nodes : List ResolvedNode
  lanes : List LaneConfig
  linkGroups : List LinkLaneGroup
  deriving DecidableEq, Repr

/-- `fixed_mimo_lane_is_live`: some coefficient of the lane is not zero. -/
def fixedMimoLaneIsLive {K : Type} [Zero K] [DecidableEq K] (model : ModelConfig K)
    (rxPort txPort : ℕ) : Bool :=
  model.fixedMimo.any fun c => c.rx = (rxPort : ℤ) ∧ c.tx = (txPort : ℤ) ∧ (c.real ≠ 0 ∨ c.imag ≠ 0)

section Resolve

variable {K : Type} [Zero K] [DecidableEq K]

/-- The nodes of `resolve_topology`: the declared ones, or one singleton per device. -/
def resolveNodes (config : TopologyConfig K) : List ResolvedNode :=
  if config.radioNodes.isEmpty then
    config.devices.map fun device =>
      { id := device.id, txPorts := [device.id], rxPorts := [device.id]
        sampleRateHz := device.sampleRateHz, rxModel := device.rxModel }
  else
    config.radioNodes.map fun declared =>
      let device := (declared.txPorts.head?.or declared.rxPorts.head?).bind config.findDevice
      { id := declared.id, txPorts := declared.txPorts, rxPorts := declared.rxPorts
        sampleRateHz := (device.map (·.sampleRateHz)).getD 0
        rxModel := (device.map (·.rxModel)).getD "" }

/-- The lanes of one link, in the order `l = r * Nt + t`; zero lanes of a fixed matrix are absent. -/
def expandLink (config : TopologyConfig K) (index : ℕ) (link : LinkConfig K)
    (src dst : ResolvedNode) : List LaneConfig :=
  let nt := src.txPorts.length
  let nr := dst.rxPorts.length
  let baseModel := config.findModel link.model
  let fixedMimo := (baseModel.map (·.fixedMimoDeclared)).getD false
  (List.range nr).flatMap fun r => (List.range nt).filterMap fun t =>
    if fixedMimo ∧ ¬ (baseModel.map (fixedMimoLaneIsLive · r t)).getD false then none
    else some
      { key := laneKey (linkKey link) r t nt nr
        srcNode := src.id
        dstNode := dst.id
        srcDevice := src.txPorts.getD t ""
        dstDevice := dst.rxPorts.getD r ""
        txPort := t
        rxPort := r
        nt := nt
        nr := nr
        modelId := if fixedMimo then fixedMimoModelId link.model r t else link.model
        linkIndex := index
        physicalLinkKey := linkKey link }

/-- The lane loop of `resolve_topology`, before the sort. -/
def expandLinks (config : TopologyConfig K) (nodes : List ResolvedNode) :
    ℕ → List (LinkConfig K) → Except String (List LaneConfig)
  | _, [] => .ok []
  | index, link :: links =>
      match nodes.find? (·.id = link.fromNode), nodes.find? (·.id = link.toNode) with
      | some src, some dst => do
          if src.txPorts.isEmpty ∨ dst.rxPorts.isEmpty then
            throw ("link " ++ linkKey link ++
              " needs a TX port on its source and an RX port on its destination")
          let rest ← expandLinks config nodes (index + 1) links
          pure (expandLink config index link src dst ++ rest)
      | _, _ => throw ("link endpoint resolves to no radio node: " ++ linkKey link)

/-- The order of the lane table: destination node, then row. -/
def laneOrder (a b : LaneConfig) : Prop :=
  a.dstNode < b.dstNode ∨ a.dstNode = b.dstNode ∧ a.rxPort ≤ b.rxPort

instance : DecidableRel laneOrder := fun _ _ => inferInstanceAs (Decidable (_ ∨ _))

/-- One lane entered into its link's group. -/
def enterGroup (groups : List LinkLaneGroup) (position : ℕ) (lane : LaneConfig) :
    List LinkLaneGroup :=
  let fresh : LinkLaneGroup :=
    { physicalLinkKey := lane.physicalLinkKey, nt := lane.nt, nr := lane.nr
      laneIndex := List.replicate (lane.nt * lane.nr) none }
  let groups :=
    if groups.any (·.physicalLinkKey = lane.physicalLinkKey) then groups else groups ++ [fresh]
  groups.map fun group =>
    if group.physicalLinkKey = lane.physicalLinkKey then
      { group with laneIndex :=
          group.laneIndex.set (lane.rxPort * lane.nt + lane.txPort) (some position) }
    else group

/-- The grouping loop of `resolve_topology`. -/
def groupLanes : List LinkLaneGroup → ℕ → List LaneConfig → List LinkLaneGroup
  | groups, _, [] => groups
  | groups, position, lane :: lanes =>
      groupLanes (enterGroup groups position lane) (position + 1) lanes

/-- **`resolve_topology`.** -/
def resolveTopology (config : TopologyConfig K) : Except String ResolvedTopology := do
  let nodes := resolveNodes config
  let expanded ← expandLinks config nodes 0 config.links
  let lanes := expanded.insertionSort laneOrder
  pure { nodes := nodes, lanes := lanes, linkGroups := groupLanes [] 0 lanes }

end Resolve

/-! ## The fixed_mimo clones -/

section FixedMimo

variable {K : Type} [Field K] [DecidableEq K] [Libm K]

/-- `fixed_mimo_step_index`: the first tdl step, or the chain's length. -/
def fixedMimoStepIndex (model : ModelConfig K) : ℕ := model.chain.findIdx (·.type = .tdl)

/-- The taps of the base step that the lane carries, each with its coefficient folded in. -/
def foldMimoTaps (model : ModelConfig K) (rxPort txPort : ℕ) : ℕ → List (TapSpec K) → List (TapSpec K)
  | _, [] => []
  | k, tap :: taps =>
      let rest := foldMimoTaps model rxPort txPort (k + 1) taps
      match model.fixedMimo.find? fun c => c.tap = (k : ℤ) ∧ c.rx = (rxPort : ℤ) ∧ c.tx = (txPort : ℤ) with
      | none => rest
      | some c =>
          if c.real = 0 ∧ c.imag = 0 then rest
          else
            { tap with
              gainDb := tap.gainDb + 20 * Libm.log10 (Libm.hypot c.real c.imag)
              phaseRad := tap.phaseRad + Libm.atan2 c.imag c.real } :: rest

/-- The model clone of one lane of a `fixed_mimo` link. -/
def fixedMimoClone (base : ModelConfig K) (lane : LaneConfig) : ModelConfig K :=
  let stepIndex := fixedMimoStepIndex base
  { base with
    id := lane.modelId
    fixedMimo := []
    fixedMimoDeclared := false
    chain := base.chain.modify stepIndex fun step =>
      { step with
        taps := foldMimoTaps base lane.rxPort lane.txPort 0 step.taps, tapsDeclared := true } }

/-- **`expand_fixed_mimo_models`.** One clone for each lane of the resolved table. -/
def expandFixedMimoModels (config : TopologyConfig K) : Except String (TopologyConfig K) := do
  if config.models.all (fun entry => !entry.2.fixedMimoDeclared) then
    return config
  let resolved ← resolveTopology config
  return resolved.lanes.foldl (fun config lane =>
    if (config.findModel lane.modelId).isSome then config
    else
      match (config.links[lane.linkIndex]?).bind fun link => config.findModel link.model with
      | none => config
      | some base =>
          if base.fixedMimoDeclared ∧ fixedMimoStepIndex base < base.chain.length then
            { config with models := config.models ++ [(lane.modelId, fixedMimoClone base lane)] }
          else config) config

end FixedMimo
