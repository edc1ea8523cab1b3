/-
# The consumers of the lane table

What the broker and the CUDA backend build from the resolved lanes before the first slot: the
broker's `LinkRuntime`s and the incoming list of every node, and for every node of the CUDA
backend its row boundaries, its edges and its numbering of the sources.  The run-time checks
of `process_superposition` compare the two.
-/
import GpuChannel.Library.Tables
import GpuChannel.Broker
import GpuChannel.Config

section Broker

variable {K : Type}

/-- **`LinkRuntime`**, for one lane. -/
structure LaneRuntime (K : Type) extends LinkRuntime ℕ ℕ where
  srcNode : ℕ
  dstIndex : ℕ
  txPort : ℕ
  rxPort : ℕ
  model : ModelConfig K
  physicalKey : String

/-- `node_by_id.at`. -/
def nodeIndex (resolved : ResolvedTopology) (id : String) : Except String ℕ :=
  match resolved.nodes.findIdx? (·.id = id) with
  | some n => pure n
  | none => throw "unordered_map::at"

/-- `resolve_port`: the broker has one port for each device. -/
def resolvePort (config : TopologyConfig K) (id : String) : Except String ℕ :=
  match config.devices.findIdx? (·.id = id) with
  | some p => pure p
  | none => throw ("radio node references an unknown device: " ++ id)

def brokerLink (config : TopologyConfig K) (resolved : ResolvedTopology) (lane : LaneConfig) :
    Except String (LaneRuntime K) :=
  match config.findModel lane.modelId with
  | none => throw ("lane model does not exist: " ++ lane.key)
  | some model => do
      let srcNode ← nodeIndex resolved lane.srcNode
      let dstNode ← nodeIndex resolved lane.dstNode
      let srcIndex ← resolvePort config lane.srcDevice
      let dstIndex ← resolvePort config lane.dstDevice
      pure { key := lane.key, srcIndex := srcIndex, dstNode := dstNode, srcNode := srcNode
             dstIndex := dstIndex, txPort := lane.txPort, rxPort := lane.rxPort, model := model
             physicalKey := lane.physicalLinkKey }

/-- The lane loop of `Broker::run`. -/
def brokerLinks (config : TopologyConfig K) (resolved : ResolvedTopology) :
    Except String (List (LaneRuntime K)) := resolved.lanes.mapM (brokerLink config resolved)

/-- `RadioNodeRuntime::incoming`: the positions of the lanes that end at the node. -/
def incomingLanes (links : List (LaneRuntime K)) (n : ℕ) : List ℕ :=
  (List.range links.length).filter fun i => (links[i]?).any (·.dstNode = n)

/-- The inputs that the node hands to `process_superposition`. -/
def superposition (links : List (LaneRuntime K)) (n : ℕ) : List (LaneRuntime K) :=
  (incomingLanes links n).filterMap (links[·]?)

end Broker

section Cuda

variable {K : Type}

/-- What the CUDA backend keeps of a destination node. -/
structure SuperposeState where
  rows : ℕ
  maxLinks : ℕ
  rowBegin : List ℕ
  edges : List LaneConfig
  sources : Tables.Numbering String

/-- The lanes of a node that have a model. -/
def nodeLanes (config : TopologyConfig K) (resolved : ResolvedTopology) (node : ResolvedNode) :
    List LaneConfig :=
  resolved.lanes.filter fun lane => lane.dstNode = node.id ∧ (config.findModel lane.modelId).isSome

/-- `link_slots_`: a lane has a slot when its model and its destination node exist. -/
def linkSlots (config : TopologyConfig K) (resolved : ResolvedTopology) : List String :=
  (resolved.lanes.filter fun lane => (config.findModel lane.modelId).isSome ∧
    resolved.nodes.any (·.id = lane.dstNode)).map (·.key)

/-- The counting pass over the rows of a node. -/
def countRows (rows : ℕ) (lanes : List LaneConfig) : Except String (List ℕ) :=
  lanes.foldlM (fun perRow lane =>
    if rows ≤ lane.rxPort then
      throw ("lane rx_port is outside the node's RX ports: " ++ lane.key)
    else pure (perRow.modify lane.rxPort (· + 1))) (List.replicate rows 0)

/-- The row part of `CudaChannelProcessor::prepare` for one node; a node without incoming lanes
has no state. -/
def prepareNodeRows (config : TopologyConfig K) (resolved : ResolvedTopology)
    (node : ResolvedNode) : Except String (Option SuperposeState) :=
  let incoming := nodeLanes config resolved node
  if incoming.isEmpty then pure none
  else do
    let rows := max 1 node.rxPorts.length
    let perRow ← countRows rows incoming
    let edges := incoming.filter fun lane => lane.key ∈ linkSlots config resolved
    pure (some
      { rows := rows
        maxLinks := incoming.length
        rowBegin := perRow.scanl (· + ·) 0
        edges := edges
        sources := (edges.map (·.srcDevice)).foldl Tables.Numbering.visit
          (Tables.Numbering.empty String) })

/-- The row checks of `CudaChannelProcessor::process_superposition`: the lane count, the grouping
by row, the capacity, and the first edge of every source. -/
def checkInputs (sp : SuperposeState) (dstKey : String) (rxPorts : List ℕ) : Except String Unit := do
  if sp.rowBegin.getLast? ≠ some rxPorts.length then
    throw ("CUDA superposition lane count does not match the prepared rows: " ++ dstKey)
  (List.range sp.rows).forM fun r =>
    (List.range' (sp.rowBegin.getD r 0) (sp.rowBegin.getD (r + 1) 0 - sp.rowBegin.getD r 0)).forM
      fun k =>
        if rxPorts[k]? ≠ some r then
          throw ("CUDA superposition inputs are not grouped by rx_port: " ++ dstKey)
        else pure ()
  if sp.maxLinks < rxPorts.length then
    throw "CUDA superposition edge count exceeds preallocated capacity"
  sp.sources.first.forM fun k =>
    if rxPorts.length ≤ k then throw "CUDA superposition: source_first_edge out of range"
    else pure ()

end Cuda
