/-
# The configuration validator

`validate_config`: every check in the order of the source, with the text it reports.  A
configuration is accepted when no check reports anything.  The scalars of the model have no
infinities, so the finiteness tests of the source always pass here.
-/
import GpuChannel.Correlation

/-- `kMaxTxScaleDb`. -/
def kMaxTxScaleDb {K : Type} [Field K] : K := 200

/-- One report of the validator. -/
def errorIf (c : Prop) [Decidable c] (text : String) : List String := if c then [text] else []

/-- A check of every element, given the ones before it. -/
def withEarlier {α : Type} (check : List α → α → List String) : List α → List α → List String
  | _, [] => []
  | earlier, x :: xs => check earlier x ++ withEarlier check (earlier ++ [x]) xs

section Checks

variable {K : Type} [Field K] [LinearOrder K] [Libm K]

/-! ## Runtime and devices -/

def runtimeErrors (runtime : RuntimeConfig) : List String :=
  errorIf (runtime.queueSamples = 0) "runtime.queue_samples must be greater than zero" ++
  errorIf (10000 < runtime.pacingRecoveryPpm) "runtime.pacing_recovery_ppm must be in 0..10000" ++
  errorIf (runtime.rxRingBatches < 2)
    ("runtime.rx_ring_batches must be at least 2, got " ++ toString runtime.rxRingBatches) ++
  errorIf (!runtime.batchSamplesAuto ∧ runtime.batchSamples = 0)
    "runtime.batch_samples must be greater than zero or auto" ++
  errorIf (runtime.cpuThreads = 0) "runtime.cpu_threads must be greater than zero"

/-- The capacity of a device's ring. -/
def deviceQueue (config : TopologyConfig K) (device : DeviceConfig K) : ℕ :=
  if device.txQueueSamples ≠ 0 then device.txQueueSamples else config.runtime.queueSamples

/-- The ring must hold two batches. -/
def queueErrors (config : TopologyConfig K) (device : DeviceConfig K) : List String :=
  let queue := deviceQueue config device
  let batch := resolveBatchSamples config.runtime device.sampleRateHz
  errorIf (device.sampleRateHz ≠ 0 ∧ queue ≠ 0 ∧ queue < 2 * batch)
    ("device " ++ device.id ++ " needs queue_samples >= 2 * batch (" ++ toString (2 * batch) ++
      "), got " ++ toString queue)

def deviceErrors (config : TopologyConfig K) (earlier : List (DeviceConfig K))
    (device : DeviceConfig K) : List String :=
  errorIf device.id.isEmpty "device id is required" ++
  errorIf (device.id ∈ earlier.map (·.id)) ("duplicate device id: " ++ device.id) ++
  errorIf (device.sampleRateHz = 0)
    ("device " ++ device.id ++ " sample_rate_hz must be greater than zero") ++
  queueErrors config device ++
  errorIf device.txEndpoint.isEmpty ("device " ++ device.id ++ " tx_endpoint is required") ++
  errorIf device.rxEndpoint.isEmpty ("device " ++ device.id ++ " rx_endpoint is required") ++
  errorIf (!device.rxModel.isEmpty ∧ config.findModel device.rxModel = none)
    ("device " ++ device.id ++ " rx_model does not exist: " ++ device.rxModel) ++
  errorIf (device.txTimingOffsetSamples < 0)
    ("device " ++ device.id ++ " tx_timing_offset_samples must be non-negative") ++
  errorIf (kMaxTxScaleDb < |device.txScaleDb|)
    ("device " ++ device.id ++ " tx_scale_db must be within +/-" ++
      Libm.formatStream (kMaxTxScaleDb : K) ++ " dB, got " ++ Libm.formatStream device.txScaleDb)

/-! ## Radio nodes -/

/-- The ports of a node, transmit side first. -/
def RadioNodeConfig.ports (node : RadioNodeConfig) : List String := node.txPorts ++ node.rxPorts

/-- The `std::set` of a node's ports. -/
def RadioNodeConfig.claimed (node : RadioNodeConfig) : List String :=
  node.ports.dedup.insertionSort (· ≤ ·)

def portListErrors (config : TopologyConfig K) (node : RadioNodeConfig) (which : String)
    (ports : List String) : List String :=
  withEarlier (fun earlier port =>
    if config.findDevice port = none then
      ["radio node " ++ node.id ++ "." ++ which ++ " references an unknown device: " ++ port]
    else
      errorIf (port ∈ earlier)
        ("radio node " ++ node.id ++ "." ++ which ++ " lists device " ++ port ++ " twice")) [] ports

/-- The named nodes among the earlier ones, which alone own ports. -/
def named (nodes : List RadioNodeConfig) : List RadioNodeConfig := nodes.filter (!·.id.isEmpty)

/-- The owner of a port: the first named node that lists it. -/
def portOwner (nodes : List RadioNodeConfig) (port : String) : Option String :=
  ((named nodes).find? (port ∈ ·.ports)).map (·.id)

def claimErrors (earlier : List RadioNodeConfig) (node : RadioNodeConfig) : List String :=
  node.claimed.flatMap fun port =>
    match portOwner earlier port with
    | none => []
    | some owner =>
        errorIf (owner ≠ node.id)
          ("device " ++ port ++ " is claimed by radio nodes " ++ owner ++ " and " ++ node.id)

/-- The ports of a node share rate, offset, scale and receiver model. -/
def agreementErrors (config : TopologyConfig K) (node : RadioNodeConfig) : List String :=
  match node.claimed.filterMap config.findDevice with
  | [] => []
  | reference :: others =>
      others.flatMap fun device =>
        errorIf (device.sampleRateHz ≠ reference.sampleRateHz)
          ("radio node " ++ node.id ++ " ports disagree on sample_rate_hz: " ++ reference.id ++ "=" ++
            toString reference.sampleRateHz ++ ", " ++ device.id ++ "=" ++
            toString device.sampleRateHz) ++
        errorIf (device.txTimingOffsetSamples ≠ reference.txTimingOffsetSamples)
          ("radio node " ++ node.id ++ " ports disagree on tx_timing_offset_samples: " ++
            reference.id ++ " and " ++ device.id) ++
        errorIf (device.txScaleDb ≠ reference.txScaleDb)
          ("radio node " ++ node.id ++ " ports disagree on tx_scale_db: " ++ reference.id ++
            " and " ++ device.id) ++
        errorIf (device.rxModel ≠ reference.rxModel)
          ("radio node " ++ node.id ++ " ports disagree on rx_model: " ++ reference.id ++ " and " ++
            device.id)

/-- The body of the node loop.  A node without an id is reported and skipped. -/
def nodeErrors (config : TopologyConfig K) (earlier : List RadioNodeConfig)
    (node : RadioNodeConfig) : List String :=
  if node.id.isEmpty then ["radio node id must not be empty"]
  else
    errorIf (node.id ∈ (named earlier).map (·.id)) ("duplicate radio node id: " ++ node.id) ++
    errorIf (config.findDevice node.id ≠ none)
      ("radio node id collides with a device id: " ++ node.id) ++
    errorIf (node.txPorts.isEmpty ∧ node.rxPorts.isEmpty)
      ("radio node " ++ node.id ++ " declares no ports") ++
    portListErrors config node "tx_ports" node.txPorts ++
    portListErrors config node "rx_ports" node.rxPorts ++
    claimErrors earlier node ++
    agreementErrors config node

def unclaimedErrors (config : TopologyConfig K) (device : DeviceConfig K) : List String :=
  errorIf (!device.id.isEmpty ∧ portOwner config.radioNodes device.id = none)
    ("device " ++ device.id ++ " is not claimed by any radio node; declaring radio_nodes requires " ++
      "declaring all of them")

def endpointErrors (config : TopologyConfig K) (link : LinkConfig K) : List String :=
  [link.fromNode, link.toNode].flatMap fun endpoint =>
    errorIf (!endpoint.isEmpty ∧ endpoint ∉ (named config.radioNodes).map (·.id))
      ("link endpoint " ++ endpoint ++ " does not name a radio node (radio_nodes is declared)")

def radioNodeErrors (config : TopologyConfig K) : List String :=
  if config.radioNodes.isEmpty then []
  else
    withEarlier (nodeErrors config) [] config.radioNodes ++
    config.devices.flatMap (unclaimedErrors config) ++
    config.links.flatMap (endpointErrors config)

/-! ## Links -/

/-- A device that carries the endpoint's sample rate. -/
def endpointDevice (config : TopologyConfig K) (id : String) : Option (DeviceConfig K) :=
  if config.radioNodes.isEmpty then config.findDevice id
  else (config.findRadioNode id).bind fun node => node.ports.findSome? config.findDevice

def endpointKind (config : TopologyConfig K) : String :=
  if config.radioNodes.isEmpty then "device" else "radio node"

/-- `check_pair`: a port only hears its own carrier. -/
def carrierErrors (config : TopologyConfig K) (link : LinkConfig K) (tx rx : DeviceConfig K) :
    List String :=
  let place := "link " ++ link.fromNode ++ "->" ++ link.toNode ++
    (if config.radioNodes.isEmpty then "" else " (port " ++ tx.id ++ "->" ++ rx.id ++ ")")
  errorIf (!tx.txCarrier.isEmpty ∧ !rx.rxCarrier.isEmpty ∧ tx.txCarrier ≠ rx.rxCarrier)
    (place ++ " connects tx carrier \"" ++ tx.txCarrier ++ "\" to rx carrier \"" ++ rx.rxCarrier ++
      "\": a port only hears its own carrier, so this edge has no physical counterpart " ++
      "(remove it, or label both ports with the same carrier if they really share one)")

/-- The port pairs of a link whose carriers are compared. -/
def carrierPairs (config : TopologyConfig K) (link : LinkConfig K) :
    List (DeviceConfig K × DeviceConfig K) :=
  match endpointDevice config link.fromNode, endpointDevice config link.toNode with
  | some source, some destination =>
      if config.radioNodes.isEmpty then [(source, destination)]
      else
        match config.findRadioNode link.fromNode, config.findRadioNode link.toNode with
        | some src, some dst =>
            (src.txPorts.filterMap config.findDevice).flatMap fun tx =>
              (dst.rxPorts.filterMap config.findDevice).map fun rx => (tx, rx)
        | _, _ => []
  | _, _ => []

def linkErrors (config : TopologyConfig K) (link : LinkConfig K) : List String :=
  let source := endpointDevice config link.fromNode
  let destination := endpointDevice config link.toNode
  errorIf (source = none)
    ("link source " ++ endpointKind config ++ " does not exist: " ++ link.fromNode) ++
  errorIf (destination = none)
    ("link destination " ++ endpointKind config ++ " does not exist: " ++ link.toNode) ++
  errorIf (config.findModel link.model = none) ("link model does not exist: " ++ link.model) ++
  errorIf (∃ a ∈ source, ∃ b ∈ destination, a.sampleRateHz ≠ b.sampleRateHz)
    ("link " ++ link.fromNode ++ "->" ++ link.toNode ++
      " has mixed sample rates but no resampler is implemented") ++
  errorIf (link.propagationDelaySamples < 0)
    ("link " ++ link.fromNode ++ "->" ++ link.toNode ++
      " propagation_delay_samples must be non-negative") ++
  (carrierPairs config link).flatMap fun pair => carrierErrors config link pair.1 pair.2

/-- The node a device belongs to, or the device itself. -/
def endpointFor (config : TopologyConfig K) (device : DeviceConfig K) : String :=
  ((config.radioNodes.find? (device.id ∈ ·.ports)).map (·.id)).getD device.id

def reachErrors (config : TopologyConfig K) (device : DeviceConfig K) : List String :=
  errorIf (config.links.all (·.fromNode ≠ endpointFor config device))
    ("device " ++ device.id ++ " is not the source of any link") ++
  errorIf (config.links.all (·.toNode ≠ endpointFor config device))
    ("device " ++ device.id ++ " is not the destination of any link")

/-! ## fixed_mimo -/

def coefficientErrors (modelId : String) (tapCount : ℕ) (earlier : List (MimoCoefficient K))
    (c : MimoCoefficient K) : List String :=
  errorIf (c.tap < 0 ∨ (tapCount : ℤ) ≤ c.tap)
    ("model " ++ modelId ++ " fixed_mimo tap index " ++ toString c.tap ++ " is outside its " ++
      toString tapCount ++ " tap(s)") ++
  errorIf (c.rx < 0 ∨ c.tx < 0)
    ("model " ++ modelId ++ " fixed_mimo rx/tx indices must be non-negative") ++
  errorIf ((c.tap, c.rx, c.tx) ∈ earlier.map fun d => (d.tap, d.rx, d.tx))
    ("model " ++ modelId ++ " fixed_mimo has a duplicate entry for tap " ++ toString c.tap ++
      " rx " ++ toString c.rx ++ " tx " ++ toString c.tx)

def fixedMimoErrors (modelId : String) (model : ModelConfig K) : List String :=
  if !model.fixedMimoDeclared then []
  else if model.fixedMimo.isEmpty then
    ["model " ++ modelId ++ " declares fixed_mimo with no coefficients"]
  else
    match model.chain.find? (·.type = .tdl) with
    | none => ["model " ++ modelId ++ " declares fixed_mimo but its chain has no tdl step to weight"]
    | some step =>
        withEarlier (coefficientErrors modelId step.taps.length) [] model.fixedMimo ++
        errorIf (model.fixedMimo.all fun c => c.real = 0 ∧ c.imag = 0)
          ("model " ++ modelId ++ " fixed_mimo is entirely zero, so every lane using it would vanish")

/-- A coefficient must address a lane the topology has; only declared radio nodes are checked. -/
def laneRangeErrors (config : TopologyConfig K) (link : LinkConfig K) : List String :=
  match config.findModel link.model, config.findRadioNode link.fromNode,
    config.findRadioNode link.toNode with
  | some model, some source, some destination =>
      if !model.fixedMimoDeclared then []
      else
        let nt := source.txPorts.length
        let nr := destination.rxPorts.length
        model.fixedMimo.flatMap fun c =>
          errorIf ((nt : ℤ) ≤ c.tx ∨ (nr : ℤ) ≤ c.rx)
            ("link " ++ link.fromNode ++ "->" ++ link.toNode ++ " is " ++ toString nr ++ "x" ++
              toString nt ++ " but model " ++ link.model ++ " addresses rx " ++ toString c.rx ++
              " tx " ++ toString c.tx)
  | _, _, _ => []

/-! ## spatial_correlation and los_matrix -/

/-- `check_side`: one side of a correlation. -/
def sideErrors (modelId side : String) (entries : List (CorrelationEntry K)) : List String :=
  let subject := "model " ++ modelId ++ " spatial_correlation " ++ side
  withEarlier (fun earlier e =>
    let pair := "(" ++ toString e.i ++ ", " ++ toString e.j ++ ")"
    if e.i < 0 ∨ e.j < 0 then [subject ++ " indices must be non-negative"]
    else
      errorIf (e.j ≤ e.i)
        (subject ++ " entry " ++ pair ++
          " must have i < j; the diagonal is 1 and the lower triangle is mirrored") ++
      errorIf ((e.i, e.j) ∈ earlier.map fun d => (d.i, d.j))
        (subject ++ " has a duplicate entry for " ++ pair) ++
      errorIf (1 + 1 / 10 ^ 12 < Libm.sqrt (e.re * e.re + e.im * e.im))
        (subject ++ " entry " ++ pair ++
          " has magnitude above 1, which no unit-diagonal correlation can have")) [] entries

/-- The step fades. -/
def ModelStep.fades (step : ModelStep K) : Bool := step.type = .tdl ∧ step.fadingEnabled

/-- Some fading tap has a line of sight. -/
def ModelConfig.hasLosTap (model : ModelConfig K) : Bool :=
  model.chain.any fun step => step.fades && step.taps.any (·.isLos)

def SpatialCorrelationConfig.correlated (correlation : SpatialCorrelationConfig K) : Bool :=
  correlation.declared ∧ correlation.kind ≠ .iid

def modelMatrixErrors (modelId : String) (model : ModelConfig K) : List String :=
  let correlation := model.spatialCorrelation
  let subject := "model " ++ modelId
  errorIf (correlation.declared ∧ !correlation.correlated ∧
      (!correlation.rx.isEmpty ∨ !correlation.tx.isEmpty))
    (subject ++ " declares spatial_correlation entries with kind: iid, which ignores them") ++
  errorIf (correlation.correlated ∧ correlation.rx.isEmpty ∧ correlation.tx.isEmpty)
    (subject ++ " declares spatial_correlation kind: kronecker with no rx or tx entries") ++
  errorIf (correlation.correlated ∧ !model.chain.head?.any ModelStep.fades)
    (subject ++ " declares spatial_correlation but its chain does not lead with a fading tdl step") ++
  errorIf (correlation.correlated ∧ model.fixedMimoDeclared)
    (subject ++ " declares both fixed_mimo and spatial_correlation; a model states H one way") ++
  (if correlation.declared then
    sideErrors modelId "rx" correlation.rx ++ sideErrors modelId "tx" correlation.tx else []) ++
  (if model.losMatrix.declared then
    errorIf (!model.hasLosTap)
      (subject ++ " declares los_matrix but its chain has no fading tdl tap with is_los") ++
    withEarlier (fun earlier c =>
      if c.rx < 0 ∨ c.tx < 0 then [subject ++ " los_matrix indices must be non-negative"]
      else
        errorIf ((c.rx, c.tx) ∈ earlier.map fun d => (d.rx, d.tx))
          (subject ++ " los_matrix has a duplicate entry for rx " ++ toString c.rx ++ " tx " ++
            toString c.tx)) [] model.losMatrix.coefficients
  else [])

/-- A correlation entry outside its side. -/
def outsideErrors (place side sort : String) (dim : ℕ) (entries : List (CorrelationEntry K)) :
    List String :=
  entries.flatMap fun e =>
    errorIf ((dim : ℤ) ≤ e.i ∨ (dim : ℤ) ≤ e.j)
      (place ++ " " ++ side ++ " correlation addresses index " ++ toString e.j ++ " outside its " ++
        toString dim ++ " " ++ sort ++ " port(s)")

/-- Whether the declared matrices fit the radios, and the correlation is a covariance. -/
def linkMatrixErrors (config : TopologyConfig K) (link : LinkConfig K) : List String :=
  match config.findModel link.model, config.findRadioNode link.fromNode,
    config.findRadioNode link.toNode with
  | some model, some source, some destination =>
      let nt := source.txPorts.length
      let nr := destination.rxPorts.length
      let place := "link " ++ link.fromNode ++ "->" ++ link.toNode ++ " (" ++ toString nr ++ "x" ++
        toString nt ++ ") model " ++ link.model
      let correlation := model.spatialCorrelation
      let outside := outsideErrors place "rx" "RX" nr correlation.rx ++
        outsideErrors place "tx" "TX" nt correlation.tx ++
        errorIf (kMaxCorrelatedLanes < nt * nr)
          (place ++ " has " ++ toString (nt * nr) ++ " lanes, above the " ++
            toString kMaxCorrelatedLanes ++ " a correlated link supports")
      let los := model.losMatrix.coefficients
      let stray := los.filter fun c => (nr : ℤ) ≤ c.rx ∨ (nt : ℤ) ≤ c.tx
      let lanes := (los.map fun c => (c.rx, c.tx)).dedup.length
      (if correlation.correlated then
        if outside.isEmpty then
          match laneMixingMatrix correlation nt nr with
          | .ok _ => []
          | .error reason => [place ++ ": " ++ reason]
        else outside
      else []) ++
      (if model.losMatrix.declared then
        if stray.isEmpty then
          errorIf (lanes ≠ nt * nr)
            (place ++ " los_matrix declares " ++ toString lanes ++ " of " ++ toString (nt * nr) ++
              " lanes; declare every lane or none")
        else
          stray.map fun c =>
            place ++ " los_matrix addresses rx " ++ toString c.rx ++ " tx " ++ toString c.tx ++
              ", which it does not have"
      else [])
  | _, _, _ => []

/-! ## Chains -/

/-- `is_allowed_param`. -/
def isAllowedParam (type : ModelStepType) (key : String) : Bool :=
  match type with
  | .pathLoss => key = "path_loss_db"
  | .gain => key = "gain_db"
  | .awgn => key = "snr_db" ∨ key = "noise_power"
  | .phase => key = "phase_rad"
  | .cfo => key = "cfo_hz" ∨ key = "phase_rad"
  | .tdl => false

/-- `to_string(ModelStepType)`. -/
def ModelStepType.text : ModelStepType → String
  | .pathLoss => "path_loss"
  | .awgn => "awgn"
  | .phase => "phase"
  | .cfo => "cfo"
  | .tdl => "tdl"
  | .gain => "gain"

def paramErrors (modelId : String) (step : ModelStep K) : List String :=
  step.params.flatMap (fun entry =>
    errorIf (!isAllowedParam step.type entry.1)
      ("model " ++ modelId ++ " step " ++ step.type.text ++ " has unknown parameter: " ++ entry.1)) ++
  errorIf ((step.params.lookup "delay_samples").any (· < 0))
    ("model " ++ modelId ++ " delay_samples must be non-negative") ++
  errorIf ((step.params.lookup "noise_power").any (· < 0))
    ("model " ++ modelId ++ " noise_power must be non-negative") ++
  (if step.type = .gain then
    match step.params.lookup "gain_db" with
    | none => ["model " ++ modelId ++ " gain step requires gain_db"]
    | some gain =>
        errorIf (kMaxTxScaleDb < |gain|)
          ("model " ++ modelId ++ " gain_db must be finite and within +/-" ++
            Libm.formatStream (kMaxTxScaleDb : K) ++ " dB")
  else [])

def tapErrors (modelId : String) (step : ModelStep K) (earlier : List (TapSpec K))
    (tap : TapSpec K) : List String :=
  let cap : K := 1000000
  errorIf (tap.delaySamples < 0)
    ("model " ++ modelId ++ " tdl tap delay_samples must be non-negative") ++
  errorIf (cap < tap.delaySamples)
    ("model " ++ modelId ++ " tdl tap delay_samples=" ++ Libm.toString tap.delaySamples ++
      " exceeds the validator cap of " ++ Libm.toString cap ++ " samples") ++
  errorIf (tap.delaySamples ∈ earlier.map (·.delaySamples))
    ("model " ++ modelId ++ " tdl has duplicate tap delay_samples=" ++
      Libm.toString tap.delaySamples ++
      "; collapse into a single tap with summed complex gain") ++
  errorIf (tap.isLos ∧ !step.fadingEnabled)
    ("model " ++ modelId ++ " tdl tap is_los is set but the step has no fading sub-config;" ++
      " a Rician specular component needs fading enabled") ++
  errorIf (tap.isLos ∧ tap.losKDb ≤ 0)
    ("model " ++ modelId ++ " tdl tap is_los requires los_k_db > 0 dB (got " ++
      Libm.toString tap.losKDb ++ "); TR 38.901 publishes 13.3 dB / 22 dB for the LOS profiles")

def fadingErrors (modelId : String) (step : ModelStep K) : List String :=
  let cap : K := 100000
  errorIf (step.fadingFDMaxHz < 0)
    ("model " ++ modelId ++ " tdl fading f_d_max_hz must be non-negative") ++
  errorIf (cap < step.fadingFDMaxHz)
    ("model " ++ modelId ++ " tdl fading f_d_max_hz=" ++ Libm.toString step.fadingFDMaxHz ++
      " exceeds the validator cap of " ++ Libm.toString cap ++ " Hz") ++
  errorIf (step.fadingGridUs ≤ 0)
    ("model " ++ modelId ++ " tdl fading grid_us must be strictly positive")

def stepErrors (modelId : String) (step : ModelStep K) : List String :=
  paramErrors modelId step ++
  (if step.type = .tdl then
    errorIf step.taps.isEmpty ("model " ++ modelId ++ " tdl step must have at least one tap") ++
    errorIf (64 < step.taps.length)
      ("model " ++ modelId ++ " tdl has " ++ toString step.taps.length ++
        " taps; the validator caps tdl at 64 taps per step") ++
    withEarlier (tapErrors modelId step) [] step.taps ++
    (if step.fadingEnabled then fadingErrors modelId step else [])
  else
    errorIf (!step.taps.isEmpty ∨ step.tapsDeclared)
      ("model " ++ modelId ++ " step " ++ step.type.text ++
        " has a taps block but only tdl steps may carry one")) ++
  errorIf (step.fadingEnabled ∧ step.type ≠ .tdl)
    ("model " ++ modelId ++ " step " ++ step.type.text ++
      " has a fading block but only tdl steps may carry one")

def chainErrors (modelId : String) (model : ModelConfig K) : List String :=
  errorIf model.chain.isEmpty ("model " ++ modelId ++ " must have at least one step") ++
  model.chain.flatMap (stepErrors modelId)

/-! ## The validator -/

/-- **`validate_config`.** Everything that is wrong with a configuration. -/
def validateConfig (config : TopologyConfig K) : List String :=
  runtimeErrors config.runtime ++
  errorIf config.devices.isEmpty "at least one device is required" ++
  withEarlier (deviceErrors config) [] config.devices ++
  radioNodeErrors config ++
  config.links.flatMap (linkErrors config) ++
  config.devices.flatMap (reachErrors config) ++
  config.models.flatMap (fun entry => fixedMimoErrors entry.1 entry.2) ++
  (if config.radioNodes.isEmpty then [] else config.links.flatMap (laneRangeErrors config)) ++
  config.models.flatMap (fun entry => modelMatrixErrors entry.1 entry.2) ++
  (if config.radioNodes.isEmpty then [] else config.links.flatMap (linkMatrixErrors config)) ++
  config.models.flatMap fun entry => chainErrors entry.1 entry.2

end Checks

/-! ## What an accepted configuration has -/

section Accepted

variable {K : Type} [Field K] [LinearOrder K] [Libm K]

@[simp] theorem errorIf_eq_nil {c : Prop} [Decidable c] {text : String} :
    errorIf c text = [] ↔ ¬ c := by
  by_cases h : c <;> simp [errorIf, h]

theorem withEarlier_append {α : Type} (check : List α → α → List String) (earlier l l' : List α) :
    withEarlier check earlier (l ++ l') =
      withEarlier check earlier l ++ withEarlier check (earlier ++ l) l' := by
  induction l generalizing earlier with
  | nil => simp [withEarlier]
  | cons a l ih => simp [withEarlier, ih]

/-- Every element passes its check. -/
theorem withEarlier_mem {α : Type} {check : List α → α → List String} {l : List α}
    (h : withEarlier check [] l = []) {x : α} (hx : x ∈ l) : ∃ earlier, check earlier x = [] := by
  obtain ⟨before, after, rfl⟩ := List.append_of_mem hx
  rw [withEarlier_append] at h
  exact ⟨_, (List.append_eq_nil_iff.mp (List.append_eq_nil_iff.mp h).2).1⟩

/-- A check that refuses a repeated name leaves the names distinct. -/
theorem nodup_of_withEarlier {α β : Type} {check : List α → α → List String} {f : α → β}
    {l : List α} (h : withEarlier check [] l = [])
    (hcheck : ∀ earlier x, check earlier x = [] → f x ∉ earlier.map f) : (l.map f).Nodup := by
  induction l using List.reverseRecOn with
  | nil => exact List.nodup_nil
  | append_singleton l x ih =>
      rw [withEarlier_append, List.append_eq_nil_iff] at h
      have hx := hcheck _ x (List.append_eq_nil_iff.mp h.2).1
      rw [List.map_append, List.nodup_append]
      refine ⟨ih h.1, List.nodup_singleton _, ?_⟩
      intro a ha b hb
      rw [List.mem_singleton.mp hb]
      rintro rfl
      exact hx ha

variable {config : TopologyConfig K}

/-- The parts of the validator, when it reports nothing. -/
structure Accepted (config : TopologyConfig K) : Prop where
  devices : withEarlier (deviceErrors config) [] config.devices = []
  radioNodes : radioNodeErrors config = []
  links : ∀ link ∈ config.links, linkErrors config link = []
  reach : ∀ device ∈ config.devices, reachErrors config device = []
  fixedMimo : ∀ entry ∈ config.models, fixedMimoErrors entry.1 entry.2 = []
  laneRange : config.radioNodes ≠ [] → ∀ link ∈ config.links, laneRangeErrors config link = []
  chains : ∀ entry ∈ config.models, chainErrors entry.1 entry.2 = []

theorem accepted_of_validate (h : validateConfig config = []) : Accepted config := by
  simp only [validateConfig, List.append_eq_nil_iff, List.flatMap_eq_nil_iff] at h
  obtain ⟨⟨⟨⟨⟨⟨⟨⟨⟨⟨-, -⟩, hdev⟩, hnodes⟩, hlinks⟩, hreach⟩, hmimo⟩, hrange⟩, -⟩, -⟩, hchains⟩ := h
  refine ⟨hdev, hnodes, hlinks, hreach, fun entry he => hmimo entry he, ?_,
    fun entry he => hchains entry he⟩
  intro hne link hlink
  rw [if_neg (by simpa using hne), List.flatMap_eq_nil_iff] at hrange
  exact hrange link hlink

namespace Accepted

theorem devices_nodup (h : Accepted config) : (config.devices.map (·.id)).Nodup := by
  refine nodup_of_withEarlier h.devices ?_
  intro earlier device hd
  simp only [deviceErrors, List.append_eq_nil_iff, errorIf_eq_nil] at hd
  exact hd.1.1.1.1.1.1.1.2

/-- The checks of one declared node. -/
theorem node (h : Accepted config) {node : RadioNodeConfig} (hnode : node ∈ config.radioNodes) :
    ∃ earlier, nodeErrors config earlier node = [] := by
  have hnodes := h.radioNodes
  have hne : config.radioNodes.isEmpty = false :=
    List.isEmpty_eq_false_iff.mpr (List.ne_nil_of_mem hnode)
  rw [radioNodeErrors, if_neg (by simp [hne]), List.append_eq_nil_iff,
    List.append_eq_nil_iff] at hnodes
  exact withEarlier_mem hnodes.1.1 hnode

omit [Field K] [Libm K] in
theorem nodeErrors_eq_nil {earlier : List RadioNodeConfig} {node : RadioNodeConfig}
    (h : nodeErrors config earlier node = []) :
    node.id.isEmpty = false ∧ node.id ∉ (named earlier).map (·.id) ∧
      portListErrors config node "tx_ports" node.txPorts = [] ∧
      portListErrors config node "rx_ports" node.rxPorts = [] := by
  unfold nodeErrors at h
  split_ifs at h with hid
  simp only [List.append_eq_nil_iff, errorIf_eq_nil] at h
  exact ⟨Bool.eq_false_of_not_eq_true hid, h.1.1.1.1.1.1, h.1.1.1.2, h.1.1.2⟩

theorem radioNodes_nodup (h : Accepted config) : (config.radioNodes.map (·.id)).Nodup := by
  cases hne : config.radioNodes with
  | nil => exact List.nodup_nil
  | cons n ns =>
      have hnodes := h.radioNodes
      rw [radioNodeErrors, if_neg (by simp [hne]), List.append_eq_nil_iff,
        List.append_eq_nil_iff] at hnodes
      rw [← hne]
      refine nodup_of_withEarlier hnodes.1.1 ?_
      intro earlier node hd hmem
      obtain ⟨hid, hfresh, -, -⟩ := nodeErrors_eq_nil hd
      obtain ⟨other, hother, heq⟩ := List.mem_map.mp hmem
      refine hfresh (List.mem_map.mpr ⟨other, ?_, heq⟩)
      exact List.mem_filter.mpr ⟨hother, by rw [heq, hid]; rfl⟩

/-- Resolved nodes have distinct ids. -/
theorem nodes_nodup (h : Accepted config) [DecidableEq K] :
    ((resolveNodes config).map (·.id)).Nodup := by
  unfold resolveNodes
  split_ifs
  · rw [List.map_map]
    exact h.devices_nodup
  · rw [List.map_map]
    exact h.radioNodes_nodup

omit [Field K] [LinearOrder K] [Libm K] in
theorem endpoint {id : String} (h : endpointDevice config id ≠ none) :
    ∃ node ∈ resolveNodes config, node.id = id := by
  unfold endpointDevice at h
  unfold resolveNodes
  split_ifs at h ⊢ with hne
  · obtain ⟨device, hdevice⟩ := Option.ne_none_iff_exists'.mp h
    refine ⟨_, List.mem_map.mpr ⟨device, List.mem_of_find?_eq_some hdevice, rfl⟩, ?_⟩
    simpa using List.find?_some hdevice
  · obtain ⟨device, hdevice⟩ := Option.ne_none_iff_exists'.mp h
    obtain ⟨node, hnode, -⟩ := Option.bind_eq_some_iff.mp hdevice
    refine ⟨_, List.mem_map.mpr ⟨node, List.mem_of_find?_eq_some hnode, rfl⟩, ?_⟩
    simpa using List.find?_some hnode

/-- Both ends of a link are nodes, and its model exists. -/
theorem link (h : Accepted config) {link : LinkConfig K} (hlink : link ∈ config.links) :
    (∃ src ∈ resolveNodes config, src.id = link.fromNode) ∧
      (∃ dst ∈ resolveNodes config, dst.id = link.toNode) ∧
      config.findModel link.model ≠ none := by
  have herr := h.links link hlink
  simp only [linkErrors, List.append_eq_nil_iff, errorIf_eq_nil] at herr
  obtain ⟨⟨⟨⟨⟨hsrc, hdst⟩, hmodel⟩, -⟩, -⟩, -⟩ := herr
  exact ⟨endpoint hsrc, endpoint hdst, hmodel⟩

end Accepted

end Accepted
