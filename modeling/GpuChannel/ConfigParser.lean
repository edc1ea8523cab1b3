/-
# The topology file

`load_config_file` (config.cpp) up to the folds: a minimal block-style YAML reader that decides by
section, indent and open blocks which branch takes a line.  A line is a list of characters, one for
each byte.

The pointers of the reader are positions in the configuration.  A write checks that its pointer
refers to an element of the model that is open; where the source would follow a null pointer or
one that an earlier section left behind, the reader here stops with `deadPointer`.
-/
import GpuChannel.ModelFolds

/-- What the reader uses of the standard library: the number that a text begins with and how many
characters it takes, or `none` where `std::stod` and `std::stoull` throw. -/
class TextNumbers (K : Type) where
  stod : List Char → Option (K × ℕ)
  stoull : List Char → Option (ℕ × ℕ)

/-! ## Lines -/

/-- `std::isspace`. -/
def isSpace (c : Char) : Bool := c.toNat = 32 ∨ (9 ≤ c.toNat ∧ c.toNat ≤ 13)

def trim (value : List Char) : List Char :=
  ((value.dropWhile isSpace).reverse.dropWhile isSpace).reverse

def stripComment (value : List Char) : List Char := value.takeWhile (· ≠ '#')

def indentOf (line : List Char) : ℕ := (line.takeWhile (· = ' ')).length

/-- `line.rfind("- ", 0) == 0`. -/
def isItem (line : List Char) : Bool := line.take 2 = ['-', ' ']

def quoted (value : List Char) (quote : Char) : Bool :=
  value.head? = some quote ∧ value.getLast? = some quote

/-- `split_key_value`. -/
def splitKeyValue (line : List Char) : String × List Char :=
  if line.contains ':' then
    let value := trim ((line.dropWhile (· ≠ ':')).drop 1)
    (String.ofList (trim (line.takeWhile (· ≠ ':'))),
      if 2 ≤ value.length ∧ (quoted value (Char.ofNat 34) ∨ quoted value (Char.ofNat 39)) then
        (value.drop 1).dropLast
      else value)
  else (String.ofList (trim line), [])

/-- The key and value of a list item, behind its dash. -/
def itemKeyValue (line : List Char) : String × List Char := splitKeyValue (trim (line.drop 2))

/-- A value or item in flow style. -/
def isFlow (line : List Char) : Bool :=
  let opens := fun text : List Char => text.head? = some '{' ∨ text.head? = some '['
  let probe := if isItem line then trim (line.drop 2) else line
  opens probe ∨ (probe.contains ':' ∧ opens (trim ((probe.dropWhile (· ≠ ':')).drop 1)))

/-- A line with its indent, without comment and outer white space. -/
structure SourceLine where
  indent : ℕ
  text : List Char
  deriving DecidableEq, Repr

/-- The head of the line loop: blank lines are skipped, tabs and flow style are refused. -/
def readLine (number : ℕ) (raw : List Char) : Except String (Option SourceLine) :=
  let line := stripComment raw
  if trim line = [] then pure none
  else if (line.dropWhile (· = ' ')).head? = some '\t' then
    throw ("tab indentation is not supported at line " ++ toString number ++ "; use spaces")
  else if isFlow (trim line) then
    throw ("flow-style YAML is not supported at line " ++ toString number ++ "; use block style")
  else pure (some { indent := indentOf line, text := trim line })

/-! ## Values -/

section Values

variable {K : Type} [TextNumbers K]

/-- `parse_double`. -/
def parseDouble (value : List Char) (key : String) : Except String K :=
  match TextNumbers.stod value with
  | some (result, parsed) =>
      if parsed = value.length then pure result
      else throw ("invalid numeric value for " ++ key ++ ": " ++ String.ofList value)
  | none => throw ("invalid numeric value for " ++ key ++ ": " ++ String.ofList value)

variable (K) in
/-- `parse_u64`, and with it `parse_size`. -/
def parseU64 (value : List Char) (key : String) : Except String ℕ :=
  if value.head? = some '-' then
    throw ("invalid unsigned value for " ++ key ++ ": " ++ String.ofList value)
  else
    match TextNumbers.stoull K value with
    | some (result, parsed) =>
        if parsed = value.length then pure result
        else throw ("invalid unsigned value for " ++ key ++ ": " ++ String.ofList value)
    | none => throw ("invalid unsigned value for " ++ key ++ ": " ++ String.ofList value)

variable (K) in
/-- `static_cast<int>(parse_u64(..))`. -/
def parseInt (value : List Char) (key : String) : Except String ℤ := do
  let n ← parseU64 K value key
  pure (Int.bmod n (2 ^ 32))

/-- `parse_bool`. -/
def parseBool (value : List Char) (key : String) : Except String Bool :=
  let text := String.ofList value
  if text = "true" ∨ text = "True" ∨ text = "TRUE" ∨ text = "1" then pure true
  else if text = "false" ∨ text = "False" ∨ text = "FALSE" ∨ text = "0" then pure false
  else throw ("invalid boolean value for " ++ key ++ ": " ++ text)

/-- The value of an enumeration. -/
def parseName {α : Type} (names : List (String × α)) (reason : String) (value : List Char) :
    Except String α :=
  match names.lookup (String.ofList value) with
  | some a => pure a
  | none => throw (reason ++ String.ofList value)

/-- `parse_model_step_type`. -/
def parseModelStepType : List Char → Except String ModelStepType :=
  parseName [("path_loss", .pathLoss), ("awgn", .awgn), ("phase", .phase), ("cfo", .cfo),
    ("tdl", .tdl), ("gain", .gain)] "unsupported model step type: "

/-- `parse_fading_spectrum`. -/
def parseFadingSpectrum : List Char → Except String FadingSpectrum :=
  parseName [("jakes", .jakes), ("gaussian", .gaussian), ("flat", .flat)]
    "unsupported fading spectrum: "

/-- `parse_spatial_correlation_kind`. -/
def parseSpatialCorrelationKind (value : List Char) : Except String SpatialCorrelationKind :=
  if String.ofList value = "full" then
    throw "spatial_correlation kind 'full' is not implemented; use 'kronecker' or 'iid'"
  else parseName [("iid", .iid), ("kronecker", .kronecker)]
    "unsupported spatial_correlation kind: " value

variable (K) in
/-- `apply_runtime`.  A field that `RuntimeConfig` leaves out is only checked. -/
def applyRuntime (runtime : RuntimeConfig) (key : String) (value : List Char) :
    Except String RuntimeConfig :=
  if key = "backend" then do
    let _ ← parseName [("cpu", ()), ("cuda", ())] "unsupported backend: " value
    pure runtime
  else if key = "cpu_threads" then do
    let n ← parseU64 K value key
    pure { runtime with cpuThreads := n }
  else if key = "gpu_device" then do
    let _ ← parseU64 K value key
    pure runtime
  else if key = "batch_samples" then
    if String.ofList value = "auto" then
      pure { runtime with batchSamplesAuto := true, batchSamples := 0 }
    else do
      let n ← parseU64 K value key
      pure { runtime with batchSamplesAuto := false, batchSamples := n }
  else if key = "queue_samples" then do
    let n ← parseU64 K value key
    pure { runtime with queueSamples := n }
  else if key = "rx_ring_batches" then do
    let n ← parseU64 K value key
    pure { runtime with rxRingBatches := n }
  else if key = "cuda_host_memory" then
    match ["copy", "zero_copy", "auto"].find? (· = String.ofList value) with
    | some _ => pure runtime
    | none => throw ("unsupported runtime.cuda_host_memory: " ++ String.ofList value ++
        " (copy, zero_copy, auto)")
  else if key = "cuda_stream_priority" then
    match ["default", "high", "low"].find? (· = String.ofList value) with
    | some _ => pure runtime
    | none => throw ("unsupported runtime.cuda_stream_priority: " ++ String.ofList value ++
        " (default, high, low)")
  else if key = "pacing" then do
    let _ ← parseBool value key
    pure runtime
  else if key = "pacing_recovery_ppm" then do
    let n ← parseU64 K value key
    pure { runtime with pacingRecoveryPpm := n }
  else throw ("unknown runtime key: " ++ key)

/-- `apply_device`.  The role is a label that nothing reads. -/
def applyDevice (device : DeviceConfig K) (key : String) (value : List Char) :
    Except String (DeviceConfig K) :=
  let text := String.ofList value
  if key = "id" then pure { device with id := text }
  else if key = "role" then pure device
  else if key = "sample_rate_hz" then do
    let n ← parseU64 K value key
    pure { device with sampleRateHz := n }
  else if key = "tx_endpoint" then pure { device with txEndpoint := text }
  else if key = "rx_endpoint" then pure { device with rxEndpoint := text }
  else if key = "rx_model" then pure { device with rxModel := text }
  else if key = "tx_carrier" then pure { device with txCarrier := text }
  else if key = "rx_carrier" then pure { device with rxCarrier := text }
  else if key = "carrier" then pure { device with txCarrier := text, rxCarrier := text }
  else if key = "tx_timing_offset_samples" then do
    let x ← parseDouble value key
    pure { device with txTimingOffsetSamples := x }
  else if key = "tx_scale_db" then do
    let x ← parseDouble value key
    pure { device with txScaleDb := x }
  else if key = "tx_queue_samples" then do
    let n ← parseU64 K value key
    pure { device with txQueueSamples := n }
  else throw ("unknown device key: " ++ key)

/-- `apply_radio_node`. -/
def applyRadioNode (node : RadioNodeConfig) (key : String) (value : List Char) :
    Except String RadioNodeConfig :=
  if key = "id" then pure { node with id := String.ofList value }
  else throw ("unknown radio_nodes key: " ++ key)

/-- `apply_link`. -/
def applyLink (link : LinkConfig K) (key : String) (value : List Char) :
    Except String (LinkConfig K) :=
  let text := String.ofList value
  if key = "from" then pure { link with fromNode := text }
  else if key = "to" then pure { link with toNode := text }
  else if key = "model" then pure { link with model := text, declaredModel := text }
  else if key = "propagation_delay_samples" then do
    let x ← parseDouble value key
    pure { link with propagationDelaySamples := x }
  else throw ("unknown link key: " ++ key)

/-- `apply_mimo_coefficient`. -/
def applyMimoCoefficient (c : MimoCoefficient K) (key : String) (value : List Char) :
    Except String (MimoCoefficient K) :=
  if key = "tap" then do
    let n ← parseInt K value key
    pure { c with tap := n }
  else if key = "rx" then do
    let n ← parseInt K value key
    pure { c with rx := n }
  else if key = "tx" then do
    let n ← parseInt K value key
    pure { c with tx := n }
  else if key = "real" then do
    let x ← parseDouble value key
    pure { c with real := x }
  else if key = "imag" then do
    let x ← parseDouble value key
    pure { c with imag := x }
  else throw ("unknown fixed_mimo coefficient key: " ++ key)

/-- `apply_correlation_entry`. -/
def applyCorrelationEntry (entry : CorrelationEntry K) (key : String) (value : List Char) :
    Except String (CorrelationEntry K) :=
  if key = "i" then do
    let n ← parseInt K value key
    pure { entry with i := n }
  else if key = "j" then do
    let n ← parseInt K value key
    pure { entry with j := n }
  else if key = "re" then do
    let x ← parseDouble value key
    pure { entry with re := x }
  else if key = "im" then do
    let x ← parseDouble value key
    pure { entry with im := x }
  else throw ("unknown spatial_correlation entry key: " ++ key)

/-- `apply_los_coefficient`. -/
def applyLosCoefficient (c : LosCoefficient K) (key : String) (value : List Char) :
    Except String (LosCoefficient K) :=
  if key = "rx" then do
    let n ← parseInt K value key
    pure { c with rx := n }
  else if key = "tx" then do
    let n ← parseInt K value key
    pure { c with tx := n }
  else if key = "re" then do
    let x ← parseDouble value key
    pure { c with re := x }
  else if key = "im" then do
    let x ← parseDouble value key
    pure { c with im := x }
  else throw ("unknown los_matrix coefficient key: " ++ key)

/-- `apply_tap`. -/
def applyTap (tap : TapSpec K) (key : String) (value : List Char) : Except String (TapSpec K) :=
  if key = "delay_samples" then do
    let x ← parseDouble value key
    pure { tap with delaySamples := x }
  else if key = "gain_db" then do
    let x ← parseDouble value key
    pure { tap with gainDb := x }
  else if key = "phase_rad" then do
    let x ← parseDouble value key
    pure { tap with phaseRad := x }
  else if key = "is_los" then do
    let b ← parseBool value key
    pure { tap with isLos := b }
  else if key = "los_k_db" then do
    let x ← parseDouble value key
    pure { tap with losKDb := x }
  else if key = "los_angle_rad" then do
    let x ← parseDouble value key
    pure { tap with losAngleRad := x }
  else throw ("unknown tap key: " ++ key)

/-- `apply_fading_key`. -/
def applyFadingKey (step : ModelStep K) (key : String) (value : List Char) :
    Except String (ModelStep K) :=
  if key = "f_d_max_hz" then do
    let x ← parseDouble value key
    pure { step with fadingFDMaxHz := x }
  else if key = "spectrum" then do
    let s ← parseFadingSpectrum value
    pure { step with fadingSpectrum := s }
  else if key = "grid_us" then do
    let x ← parseDouble value key
    pure { step with fadingGridUs := x }
  else throw ("unknown fading key: " ++ key)

/-- `step.params[key] = value`: the parameters are sorted by key. -/
def setParam (params : List (String × K)) (key : String) (value : K) : List (String × K) :=
  match params with
  | [] => [(key, value)]
  | (k, v) :: rest =>
      if key = k then (key, value) :: rest
      else if key < k then (key, value) :: (k, v) :: rest
      else (k, v) :: setParam rest key value

/-- `apply_step`. -/
def applyStep (step : ModelStep K) (key : String) (value : List Char) :
    Except String (ModelStep K) :=
  if key = "type" then do
    let t ← parseModelStepType value
    pure { step with type := t }
  else if value ≠ [] then do
    let x ← parseDouble value key
    pure { step with params := setParam step.params key x }
  else throw ("unknown empty model step key: " ++ key)

end Values

/-! ## The state of the reader -/

/-- `Section`: the section that the lines belong to. -/
inductive FileSection
  | none
  | runtime
  | devices
  | radioNodes
  | links
  | models
  deriving DecidableEq, Repr

inductive PortList
  | none
  | tx
  | rx
  deriving DecidableEq, Repr

inductive CorrelationSide
  | rx
  | tx
  deriving DecidableEq, Repr

/-- The entries of one side of a correlation. -/
def SpatialCorrelationConfig.entries {K : Type} (c : SpatialCorrelationConfig K) :
    CorrelationSide → List (CorrelationEntry K)
  | .rx => c.rx
  | .tx => c.tx

def SpatialCorrelationConfig.setEntries {K : Type} (c : SpatialCorrelationConfig K)
    (side : CorrelationSide) (entries : List (CorrelationEntry K)) : SpatialCorrelationConfig K :=
  match side with
  | .rx => { c with rx := entries }
  | .tx => { c with tx := entries }

/-- **The local variables of `load_config_file`.** A pointer is the id of its model and the place
in it; a null pointer is `none`. -/
structure ConfigReader (K : Type) where
  config : TopologyConfig K
  lineNumber : ℕ
  currentSection : FileSection
  currentDevice : Option ℕ
  currentNode : Option ℕ
  radioNodeIndent : Option ℕ
  currentPortList : PortList
  currentLink : Option ℕ
  currentModel : Option String
  currentStep : Option (String × ℕ)
  inTaps : Bool
  currentTap : Option (String × ℕ × ℕ)
  inFading : Bool
  inFixedMimo : Bool
  inSpatial : Bool
  correlationSide : Option CorrelationSide
  currentEntry : Option (String × CorrelationSide × ℕ)
  inLos : Bool
  inLosCoefficients : Bool
  currentLosCoefficient : Option (String × ℕ)
  inCoefficients : Bool
  currentCoefficient : Option (String × ℕ)

/-- How the reader stops early: it throws, or it would write through a dead pointer. -/
inductive ReadFailure
  | thrown (what : String)
  | deadPointer
  deriving DecidableEq, Repr

/-- What an `apply` function throws leaves the reader. -/
def thrown {α : Type} (x : Except String α) : Except ReadFailure α := x.mapError .thrown

namespace ConfigReader

variable {K : Type}

def start : ConfigReader K :=
  { config := { devices := [], links := [], models := [] }, lineNumber := 0
    currentSection := .none, currentDevice := none, currentNode := none, radioNodeIndent := none
    currentPortList := .none, currentLink := none, currentModel := none, currentStep := none
    inTaps := false, currentTap := none, inFading := false, inFixedMimo := false
    inSpatial := false, correlationSide := none, currentEntry := none, inLos := false
    inLosCoefficients := false, currentLosCoefficient := none, inCoefficients := false
    currentCoefficient := none }

/-! ### Writes -/

/-- `*current_model`, which has to be open. -/
def openModel (s : ConfigReader K) : Except ReadFailure (String × ModelConfig K) :=
  match s.currentModel with
  | none => throw .deadPointer
  | some id =>
      match s.config.models.lookup id with
      | none => throw .deadPointer
      | some model => pure (id, model)

def setModel (s : ConfigReader K) (id : String) (model : ModelConfig K) : ConfigReader K :=
  { s with config := { s.config with
      models := s.config.models.map fun entry => if entry.1 = id then (id, model) else entry } }

/-- A write to an element of the model `id`, which has to be open and to have the element. -/
def writeIn (s : ConfigReader K) (id : String)
    (write : ModelConfig K → Option (Except String (ModelConfig K))) :
    Except ReadFailure (ConfigReader K) :=
  if s.currentModel = some id then
    match (s.config.models.lookup id).bind write with
    | none => throw .deadPointer
    | some result => do
        let model ← thrown result
        pure (s.setModel id model)
  else throw .deadPointer

/-- `*current_step`. -/
def writeStep (s : ConfigReader K) (f : ModelStep K → Except String (ModelStep K)) :
    Except ReadFailure (ConfigReader K) :=
  match s.currentStep with
  | none => throw .deadPointer
  | some (id, i) => s.writeIn id fun model => (model.chain[i]?).map fun step => do
      let step ← f step
      pure { model with chain := model.chain.set i step }

/-- `*current_tap`. -/
def writeTap (s : ConfigReader K) (f : TapSpec K → Except String (TapSpec K)) :
    Except ReadFailure (ConfigReader K) :=
  match s.currentTap with
  | none => throw .deadPointer
  | some (id, i, k) => s.writeIn id fun model => (model.chain[i]?).bind fun step =>
      (step.taps[k]?).map fun tap => do
        let tap ← f tap
        let step : ModelStep K := { step with taps := step.taps.set k tap }
        pure { model with chain := model.chain.set i step }

/-- `*current_coefficient`. -/
def writeCoefficient (s : ConfigReader K)
    (f : MimoCoefficient K → Except String (MimoCoefficient K)) :
    Except ReadFailure (ConfigReader K) :=
  match s.currentCoefficient with
  | none => throw .deadPointer
  | some (id, i) => s.writeIn id fun model => (model.fixedMimo[i]?).map fun c => do
      let c ← f c
      pure { model with fixedMimo := model.fixedMimo.set i c }

/-- `*current_correlation_entry`. -/
def writeEntry (s : ConfigReader K)
    (f : CorrelationEntry K → Except String (CorrelationEntry K)) :
    Except ReadFailure (ConfigReader K) :=
  match s.currentEntry with
  | none => throw .deadPointer
  | some (id, side, i) => s.writeIn id fun model =>
      ((model.spatialCorrelation.entries side)[i]?).map fun entry => do
        let entry ← f entry
        let entries := (model.spatialCorrelation.entries side).set i entry
        pure { model with
          spatialCorrelation := model.spatialCorrelation.setEntries side entries }

/-- `*current_los_coefficient`. -/
def writeLosCoefficient (s : ConfigReader K)
    (f : LosCoefficient K → Except String (LosCoefficient K)) :
    Except ReadFailure (ConfigReader K) :=
  match s.currentLosCoefficient with
  | none => throw .deadPointer
  | some (id, i) => s.writeIn id fun model => (model.losMatrix.coefficients[i]?).map fun c => do
      let c ← f c
      pure { model with losMatrix := { model.losMatrix with
        coefficients := model.losMatrix.coefficients.set i c } }

/-! ### Sections -/

/-- An element of a section is changed in place. -/
def modifyNth {α : Type} (f : α → Except String α) : ℕ → List α → Except String (List α)
  | _, [] => pure []
  | 0, x :: xs => do
      let x ← f x
      pure (x :: xs)
  | n + 1, x :: xs => do
      let xs ← modifyNth f n xs
      pure (x :: xs)

/-- A key at indent 0 closes what was open, except the blocks of correlations and LOS matrices. -/
def openSection (s : ConfigReader K) (line : SourceLine) : Except ReadFailure (ConfigReader K) :=
  let s : ConfigReader K :=
    { s with
      currentDevice := none, currentNode := none, radioNodeIndent := none
      currentPortList := .none, currentLink := none, currentModel := none, currentStep := none
      inTaps := false, currentTap := none, inFading := false, inFixedMimo := false
      inCoefficients := false, currentCoefficient := none }
  if line.text = "runtime:".toList then pure { s with currentSection := .runtime }
  else if line.text = "devices:".toList then pure { s with currentSection := .devices }
  else if line.text = "radio_nodes:".toList then pure { s with currentSection := .radioNodes }
  else if line.text = "links:".toList then pure { s with currentSection := .links }
  else if line.text = "models:".toList then pure { s with currentSection := .models }
  else throw (.thrown ("unknown top-level key at line " ++ toString s.lineNumber ++ ": " ++
    String.ofList line.text))

section Lines

variable [Zero K] [One K] [NatCast K]

/-! The member initialisers of the structs. -/

def newDevice : DeviceConfig K :=
  { id := "", txEndpoint := "", rxEndpoint := "", txTimingOffsetSamples := 0, txScaleDb := 0 }

def newLink : LinkConfig K :=
  { fromNode := "", toNode := "", model := "", propagationDelaySamples := 0 }

def newStep : ModelStep K := { type := .tdl, fadingFDMaxHz := 0, fadingGridUs := (100 : ℕ) }

def newTap : TapSpec K := ⟨0, 0, 0, false, 0, 0⟩

def newCoefficient : MimoCoefficient K := ⟨0, 0, 0, 0, 0⟩

def newEntry : CorrelationEntry K := ⟨0, 0, 0, 0⟩

def newLosCoefficient : LosCoefficient K := ⟨0, 0, 1, 0⟩

variable [TextNumbers K]

def runtimeLine (s : ConfigReader K) (line : SourceLine) : Except ReadFailure (ConfigReader K) := do
  let kv := splitKeyValue line.text
  let runtime ← thrown (applyRuntime K s.config.runtime kv.1 kv.2)
  pure { s with config := { s.config with runtime := runtime } }

def devicesLine (s : ConfigReader K) (line : SourceLine) : Except ReadFailure (ConfigReader K) :=
  if isItem line.text then do
    let kv := itemKeyValue line.text
    let device ← thrown (applyDevice newDevice kv.1 kv.2)
    pure { s with
      config := { s.config with devices := s.config.devices ++ [device] }
      currentDevice := some s.config.devices.length }
  else
    match s.currentDevice with
    | some i => do
        let kv := splitKeyValue line.text
        let devices ← thrown (modifyNth (applyDevice · kv.1 kv.2) i s.config.devices)
        pure { s with config := { s.config with devices := devices } }
    | none => throw (.thrown ("malformed devices section at line " ++ toString s.lineNumber))

/-- A port entry under `tx_ports:` or `rx_ports:`. -/
def portItem (s : ConfigReader K) (line : SourceLine) : Except ReadFailure (ConfigReader K) :=
  match s.currentNode with
  | none => throw (.thrown ("radio_nodes list item outside tx_ports/rx_ports at line " ++
      toString s.lineNumber))
  | some i =>
      if s.currentPortList = .none then
        throw (.thrown ("radio_nodes list item outside tx_ports/rx_ports at line " ++
          toString s.lineNumber))
      else
        let port := trim (line.text.drop 2)
        if port = [] ∨ port.contains ':' then
          throw (.thrown ("radio_nodes port entry must be a bare device id at line " ++
            toString s.lineNumber ++ ": " ++ String.ofList port))
        else
          let add := fun node : RadioNodeConfig =>
            if s.currentPortList = .tx then
              { node with txPorts := node.txPorts ++ [String.ofList port] }
            else { node with rxPorts := node.rxPorts ++ [String.ofList port] }
          pure { s with config := { s.config with radioNodes := s.config.radioNodes.modify i add } }

def radioNodesLine (s : ConfigReader K) (line : SourceLine) :
    Except ReadFailure (ConfigReader K) :=
  if isItem line.text ∧ s.radioNodeIndent.all (line.indent ≤ ·) then do
    let kv := itemKeyValue line.text
    let node ← thrown (applyRadioNode { id := "", txPorts := [], rxPorts := [] } kv.1 kv.2)
    pure { s with
      config := { s.config with radioNodes := s.config.radioNodes ++ [node] }
      currentNode := some s.config.radioNodes.length
      radioNodeIndent := some line.indent, currentPortList := .none }
  else if isItem line.text then s.portItem line
  else
    match s.currentNode with
    | none => throw (.thrown ("malformed radio_nodes section at line " ++ toString s.lineNumber))
    | some i =>
        let kv := splitKeyValue line.text
        if kv.1 = "tx_ports" ∨ kv.1 = "rx_ports" then
          if kv.2 ≠ [] then
            throw (.thrown ("radio_nodes." ++ kv.1 ++
              " must be a block list, not an inline value, at line " ++ toString s.lineNumber))
          else pure { s with currentPortList := if kv.1 = "tx_ports" then .tx else .rx }
        else do
          let nodes ← thrown (modifyNth (applyRadioNode · kv.1 kv.2) i s.config.radioNodes)
          pure { s with
            config := { s.config with radioNodes := nodes }, currentPortList := .none }

def linksLine (s : ConfigReader K) (line : SourceLine) : Except ReadFailure (ConfigReader K) :=
  if isItem line.text then do
    let kv := itemKeyValue line.text
    let link ← thrown (applyLink newLink kv.1 kv.2)
    pure { s with
      config := { s.config with links := s.config.links ++ [link] }
      currentLink := some s.config.links.length }
  else
    match s.currentLink with
    | some i => do
        let kv := splitKeyValue line.text
        let links ← thrown (modifyNth (applyLink · kv.1 kv.2) i s.config.links)
        pure { s with config := { s.config with links := links } }
    | none => throw (.thrown ("malformed links section at line " ++ toString s.lineNumber))

/-! ### The models section -/

/-- Which branch of the models section takes a line. -/
inductive ModelsBranch
  | model
  | chain
  | fixedMimo
  | coefficients
  | coefficient
  | coefficientKey
  | spatialCorrelation
  | rx
  | tx
  | kind
  | entry
  | entryKey
  | losMatrix
  | losCoefficients
  | losCoefficient
  | losCoefficientKey
  | step
  | taps
  | fading
  | tap
  | tapKey
  | fadingKey
  | stepKey
  | malformed
  deriving DecidableEq, Repr

/-- The tests of the models section, in the order of the source. -/
def modelsBranch (s : ConfigReader K) (line : SourceLine) : ModelsBranch :=
  if line.indent = 2 ∧ line.text.getLast? = some ':' then .model
  else if s.currentModel.isSome ∧ line.text = "chain:".toList then .chain
  else if s.currentModel.isSome ∧ line.indent = 4 ∧ line.text = "fixed_mimo:".toList then
    .fixedMimo
  else if s.inFixedMimo ∧ line.indent = 6 ∧ line.text = "coefficients:".toList then
    .coefficients
  else if s.inCoefficients ∧ line.indent = 8 ∧ isItem line.text then .coefficient
  else if s.currentCoefficient.isSome ∧ s.inCoefficients ∧ line.indent = 10 then .coefficientKey
  else if s.currentModel.isSome ∧ line.indent = 4 ∧ line.text = "spatial_correlation:".toList then
    .spatialCorrelation
  else if s.inSpatial ∧ line.indent = 6 ∧ line.text = "rx:".toList then .rx
  else if s.inSpatial ∧ line.indent = 6 ∧ line.text = "tx:".toList then .tx
  else if s.inSpatial ∧ line.indent = 6 then .kind
  else if s.correlationSide.isSome ∧ line.indent = 8 ∧ isItem line.text then .entry
  else if s.currentEntry.isSome ∧ s.correlationSide.isSome ∧ line.indent = 10 then .entryKey
  else if s.currentModel.isSome ∧ line.indent = 4 ∧ line.text = "los_matrix:".toList then
    .losMatrix
  else if s.inLos ∧ line.indent = 6 ∧ line.text = "coefficients:".toList then .losCoefficients
  else if s.inLosCoefficients ∧ line.indent = 8 ∧ isItem line.text then .losCoefficient
  else if s.currentLosCoefficient.isSome ∧ s.inLosCoefficients ∧ line.indent = 10 then
    .losCoefficientKey
  else if s.currentModel.isSome ∧ line.indent = 6 ∧ isItem line.text then .step
  else if s.currentStep.isSome ∧ line.indent = 8 ∧ line.text = "taps:".toList then .taps
  else if s.currentStep.isSome ∧ line.indent = 8 ∧ line.text = "fading:".toList then .fading
  else if s.currentStep.isSome ∧ s.inTaps ∧ line.indent = 10 ∧ isItem line.text then .tap
  else if s.currentTap.isSome ∧ s.inTaps ∧ line.indent = 12 then .tapKey
  else if s.currentStep.isSome ∧ s.inFading ∧ line.indent = 10 then .fadingKey
  else if s.currentStep.isSome ∧ line.indent = 8 ∧ s.inTaps = false ∧ s.inFading = false then
    .stepKey
  else .malformed

/-! What the branches close. -/

def closeSpatial (s : ConfigReader K) : ConfigReader K :=
  { s with inSpatial := false, correlationSide := none, currentEntry := none }

def closeLos (s : ConfigReader K) : ConfigReader K :=
  { s with inLos := false, inLosCoefficients := false, currentLosCoefficient := none }

def closeMimo (s : ConfigReader K) : ConfigReader K :=
  { s with inFixedMimo := false, inCoefficients := false, currentCoefficient := none }

def closeStep (s : ConfigReader K) : ConfigReader K :=
  { s with currentStep := none, inTaps := false, inFading := false }

/-- What the header of a block at indent 4 closes; the tap pointer stays. -/
def closeList (s : ConfigReader K) : ConfigReader K := s.closeMimo.closeStep.closeSpatial.closeLos

def closeBlocks (s : ConfigReader K) : ConfigReader K := { s.closeList with currentTap := none }

/-- The number of taps of a step. -/
def tapCount (s : ConfigReader K) (id : String) (i : ℕ) : ℕ :=
  (((s.config.models.lookup id).bind (·.chain[i]?)).map (·.taps.length)).getD 0

/-- The body of a branch. -/
def takeBranch (s : ConfigReader K) (line : SourceLine) :
    ModelsBranch → Except ReadFailure (ConfigReader K)
  | .model =>
      let id := String.ofList line.text.dropLast
      pure { s.closeBlocks with
        config := { s.config with
          models := emplaceModel s.config.models id { id := id, chain := [] } }
        currentModel := some id }
  | .chain => pure s.closeBlocks
  | .fixedMimo => do
      let (id, model) ← s.openModel
      let s := s.setModel id { model with fixedMimoDeclared := true }
      pure { s.closeList with inFixedMimo := true }
  | .coefficients => pure { s with inCoefficients := true, currentCoefficient := none }
  | .coefficient => do
      let (id, model) ← s.openModel
      let s := s.setModel id { model with fixedMimo := model.fixedMimo ++ [newCoefficient] }
      let kv := itemKeyValue line.text
      { s with currentCoefficient := some (id, model.fixedMimo.length) }.writeCoefficient
        (applyMimoCoefficient · kv.1 kv.2)
  | .coefficientKey =>
      let kv := splitKeyValue line.text
      s.writeCoefficient (applyMimoCoefficient · kv.1 kv.2)
  | .spatialCorrelation => do
      let (id, model) ← s.openModel
      let declared := { model.spatialCorrelation with declared := true }
      let s := s.setModel id { model with spatialCorrelation := declared }
      pure { s.closeList with inSpatial := true }
  | .rx => pure { s with correlationSide := some .rx, currentEntry := none }
  | .tx => pure { s with correlationSide := some .tx, currentEntry := none }
  | .kind => do
      let kv := splitKeyValue line.text
      if kv.1 ≠ "kind" then throw (.thrown ("unknown spatial_correlation key: " ++ kv.1))
      let kind ← thrown (parseSpatialCorrelationKind kv.2)
      let (id, model) ← s.openModel
      let correlation := { model.spatialCorrelation with kind := kind }
      pure { s.setModel id { model with spatialCorrelation := correlation } with
        correlationSide := none, currentEntry := none }
  | .entry => do
      let (id, model) ← s.openModel
      let side := s.correlationSide.getD .tx
      let entries := model.spatialCorrelation.entries side
      let correlation := model.spatialCorrelation.setEntries side (entries ++ [newEntry])
      let s := s.setModel id { model with spatialCorrelation := correlation }
      let kv := itemKeyValue line.text
      { s with currentEntry := some (id, side, entries.length) }.writeEntry
        (applyCorrelationEntry · kv.1 kv.2)
  | .entryKey =>
      let kv := splitKeyValue line.text
      s.writeEntry (applyCorrelationEntry · kv.1 kv.2)
  | .losMatrix => do
      let (id, model) ← s.openModel
      let declared := { model.losMatrix with declared := true }
      let s := s.setModel id { model with losMatrix := declared }
      pure { s.closeList with inLos := true }
  | .losCoefficients => pure { s with inLosCoefficients := true, currentLosCoefficient := none }
  | .losCoefficient => do
      let (id, model) ← s.openModel
      let coefficients := model.losMatrix.coefficients
      let los := { model.losMatrix with coefficients := coefficients ++ [newLosCoefficient] }
      let s := s.setModel id { model with losMatrix := los }
      let kv := itemKeyValue line.text
      { s with currentLosCoefficient := some (id, coefficients.length) }.writeLosCoefficient
        (applyLosCoefficient · kv.1 kv.2)
  | .losCoefficientKey =>
      let kv := splitKeyValue line.text
      s.writeLosCoefficient (applyLosCoefficient · kv.1 kv.2)
  | .step => do
      let (id, model) ← s.openModel
      let s := s.setModel id { model with chain := model.chain ++ [newStep] }
      let kv := itemKeyValue line.text
      { s with currentStep := some (id, model.chain.length), inTaps := false, currentTap := none
               inFading := false }.writeStep (applyStep · kv.1 kv.2)
  | .taps => do
      let s ← s.writeStep fun step => pure { step with tapsDeclared := true }
      pure { s with inTaps := true, currentTap := none, inFading := false }
  | .fading => do
      let s ← s.writeStep fun step => pure { step with fadingEnabled := true }
      pure { s with inFading := true, inTaps := false, currentTap := none }
  | .tap => do
      let last := s.currentStep.map fun step => (step.1, step.2, s.tapCount step.1 step.2)
      let s ← s.writeStep fun step => pure { step with taps := step.taps ++ [newTap] }
      let kv := itemKeyValue line.text
      { s with currentTap := last }.writeTap (applyTap · kv.1 kv.2)
  | .tapKey =>
      let kv := splitKeyValue line.text
      s.writeTap (applyTap · kv.1 kv.2)
  | .fadingKey =>
      let kv := splitKeyValue line.text
      s.writeStep (applyFadingKey · kv.1 kv.2)
  | .stepKey =>
      let kv := splitKeyValue line.text
      s.writeStep (applyStep · kv.1 kv.2)
  | .malformed => throw (.thrown ("malformed models section at line " ++ toString s.lineNumber))

/-! ### The line loop -/

/-- A line that is not blank. -/
def takeLine (s : ConfigReader K) (line : SourceLine) : Except ReadFailure (ConfigReader K) :=
  if line.indent = 0 then s.openSection line
  else
    match s.currentSection with
    | .runtime => s.runtimeLine line
    | .devices => s.devicesLine line
    | .radioNodes => s.radioNodesLine line
    | .links => s.linksLine line
    | .models => s.takeBranch line (s.modelsBranch line)
    | .none => pure s

/-- One pass of the line loop. -/
def readNext (s : ConfigReader K) (raw : List Char) : Except ReadFailure (ConfigReader K) := do
  let s := { s with lineNumber := s.lineNumber + 1 }
  match ← thrown (readLine s.lineNumber raw) with
  | none => pure s
  | some line => s.takeLine line

/-- The line loop of `load_config_file`. -/
def readLines (lines : List (List Char)) : Except ReadFailure (ConfigReader K) :=
  lines.foldlM readNext start

end Lines

end ConfigReader
