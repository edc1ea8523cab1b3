/-
# The broker's relay

The worker threads of `Broker::run` as one transition system.  A puller per TX port
drains the device into the port's TX ring, a producer per radio node reads a common
window from every incoming lane, calls the channel once and publishes one row per RX
port, and a REP worker per RX port answers each request with one published window.

One step of the model is one critical section of one thread (or one access to a lane
cursor), so a run is an arbitrary interleaving.  Loops over lanes and ports keep the
part of the list still to be visited in the program counter.  Threads that the source
does not start are never scheduled; waiting, pacing and statistics other than the gap
counter are left out.
-/
import GpuChannel.Library.Run
import GpuChannel.Ring

/-! ## The resolved topology -/

/-- The part of `PortRuntime` that is fixed before the workers start. -/
structure PortConfig where
  id : String
  batch : ℕ
  queueSamples : ℕ

/-- The fixed part of `RadioNodeRuntime`: its batch and its RX ports in row order. -/
structure RadioNode (Port : Type) where
  id : String
  batch : ℕ
  rxPorts : List Port

/-- The fixed part of `LinkRuntime`: one lane from a source port to a node. -/
structure LinkRuntime (Port Node : Type) where
  key : String
  srcIndex : Port
  dstNode : Node

/-- **Resolved topology.** `validate_config` rejects a node that lists a device twice
and a device claimed by two nodes, so an RX port belongs to one row of one node. -/
structure Topology where
  numPorts : ℕ
  numNodes : ℕ
  numLinks : ℕ
  rxRingBatches : ℕ
  port : Fin numPorts → PortConfig
  node : Fin numNodes → RadioNode (Fin numPorts)
  link : Fin numLinks → LinkRuntime (Fin numPorts) (Fin numNodes)
  rxPorts_nodup : ∀ n, (node n).rxPorts.Nodup
  rxPorts_disjoint : ∀ m n p, p ∈ (node m).rxPorts → p ∈ (node n).rxPorts → m = n

namespace Topology

variable (top : Topology)

abbrev Port : Type := Fin top.numPorts
abbrev Node : Type := Fin top.numNodes
abbrev Lane : Type := Fin top.numLinks

/-- `RadioNodeRuntime::incoming`: the lanes that terminate on the node. -/
def incoming (n : top.Node) : List top.Lane :=
  (List.finRange top.numLinks).filter fun i => (top.link i).dstNode = n

@[simp] theorem mem_incoming {n : top.Node} {i : top.Lane} :
    i ∈ top.incoming n ↔ (top.link i).dstNode = n := by
  simp [incoming]

theorem nodup_incoming (n : top.Node) : (top.incoming n).Nodup :=
  (List.nodup_finRange _).filter _

end Topology

/-! ## Thread-local data -/

/-- `BrokerDiagKnobs`: the two knobs that avoid copies. -/
structure Knobs where
  fewerCopies : Bool
  directRows : Bool

/-- A span of input or reply samples: the thread's own buffer, or a range of ring
storage that is held after the lock is released. -/
inductive Window (α : Type*) where
  | copied (samples : List α)
  | inPlace (head count : ℕ)

/-- What a span shows, given the current storage of the ring it may point into. -/
def Window.samples {α : Type*} (storage : List α) : Window α → List α
  | copied samples => samples
  | inPlace head count => CyclicBuffer.slice storage head count

/-- One output row: staged in the producer's own buffer, or already written into the
tail of the RX ring (`row_in_ring`). -/
inductive Row (α : Type*) where
  | staged (samples : List α)
  | inRing

namespace Row

/-- Publishing a row: commit the reserved cells, or push the staged samples. -/
def publish {α : Type*} (ring : IqRing α) (count : ℕ) : Row α → Option (IqRing α)
  | inRing => some (ring.commit count)
  | staged samples => ring.push samples

/-- The samples that become visible to the ring's reader with this row. -/
def samples {α : Type*} (ring : IqRing α) (count : ℕ) : Row α → List α
  | inRing => CyclicBuffer.readCyclic ring.buffer (ring.nextSequence % ring.capacity) count
  | staged samples => samples

end Row

/-- Where a puller stands: at the top of its loop, or past the room check. -/
inductive PullerPc where
  | discard
  | act (room : ℕ)
  | failed (what : String)
  deriving DecidableEq

/-- Where a REP worker stands.  `release` is an in-ring reply that was sent and
whose window is not discarded yet. -/
inductive RepPc (α : Type*) where
  | waitReq
  | waitRow
  | send (reply : Window α) (take : ℕ)
  | release (take : ℕ)
  | failed (what : String)

/-- Where a producer stands; the comments are the phases of `run_producer`.  `threw` is
an exception of the channel call, `failed` one of the relay itself. -/
inductive ProducerPc (Port Lane : Type) (α : Type*) where
  | waitRoom (todo : List Port) (room : ℕ)                              -- (A)
  | align (todo : List Lane) (room : ℕ)                                 -- (B)
  | waitData (todo : List Lane) (common room : ℕ)                       -- (C)
  | read (done : List (Lane × Window α)) (todo : List Lane) (count : ℕ) -- (D)
  | reserve (windows : List (Lane × Window α)) (done : List (Port × Option ℕ))
      (todo : List Port) (count : ℕ)
  | process (windows : List (Lane × Window α)) (tails : List (Port × Option ℕ))
      (count : ℕ)                                                       -- (E)
  | commit (todo : List Lane) (rows : List (Port × Row α)) (count : ℕ)  -- (F)
  | push (todo : List (Port × Row α)) (count : ℕ)                       -- (H)
  | threw (count : ℕ) (what : String)
  | failed (what : String)

/-! ## States -/

/-- The half of `PortRuntime` guarded by `ring_mutex`, and the port's puller.  `sent`
records everything the device has sent. -/
structure TxState (α : Type*) where
  txRing : IqRing α
  pending : List α
  puller : PullerPc
  sent : List α

/-- The half of `PortRuntime` guarded by `rx_mutex`, and the port's REP worker.
`published` records the rows pushed into the RX ring, `replies` the replies sent. -/
structure RxState (α : Type*) where
  rxRing : IqRing α
  rxCursor : ℕ
  rxSlots : List ℕ
  rep : RepPc α
  published : List (List α)
  replies : List (List α)

/-- One lane.  `origin` records the sequence number at which the cursor was
initialised, `windows` the windows read, `served` how many of them are committed. -/
structure LaneState (α : Type*) where
  cursor : ℕ
  cursorInit : Bool
  origin : ℕ
  windows : List (List α)
  served : ℕ

/-- One produced slot: its window length, the lanes' windows as the channel saw them,
and the row of every RX port. -/
structure Slot (Port : Type) (α : Type*) where
  count : ℕ
  windows : List (List α)
  row : Port → List α

/-- One node: the producer, whether it has aligned its cursors, the processor state
of the node, and the slots produced so far. -/
structure NodeState (Port Lane : Type) (α σ : Type*) where
  pc : ProducerPc Port Lane α
  epochSet : Bool
  proc : σ
  slots : List (Slot Port α)

/-- The state of a run. -/
structure BrokerState (top : Topology) (α σ : Type*) where
  tx : top.Port → TxState α
  rx : top.Port → RxState α
  lanes : top.Lane → LaneState α
  nodes : top.Node → NodeState top.Port top.Lane α σ
  txSequenceGaps : ℕ

/-- The channel processor seen by the relay: `process_superposition` takes the node's
state, the lanes' windows and the window length, and yields the samples of each row.
Concurrent calls touch disjoint state, so every node has its own. -/
structure Processor (top : Topology) (α σ : Type*) where
  init : top.Node → σ
  process : top.Node → σ → List (List α) → ℕ → Except String (σ × (ℕ → ℕ → α))

namespace BrokerState

variable {top : Topology} {α σ : Type*}

def modifyTx (s : BrokerState top α σ) (p : top.Port) (f : TxState α → TxState α) :
    BrokerState top α σ :=
  { s with tx := Function.update s.tx p (f (s.tx p)) }

def modifyRx (s : BrokerState top α σ) (p : top.Port) (f : RxState α → RxState α) :
    BrokerState top α σ :=
  { s with rx := Function.update s.rx p (f (s.rx p)) }

def modifyLane (s : BrokerState top α σ) (i : top.Lane) (f : LaneState α → LaneState α) :
    BrokerState top α σ :=
  { s with lanes := Function.update s.lanes i (f (s.lanes i)) }

def modifyNode (s : BrokerState top α σ) (n : top.Node)
    (f : NodeState top.Port top.Lane α σ → NodeState top.Port top.Lane α σ) :
    BrokerState top α σ :=
  { s with nodes := Function.update s.nodes n (f (s.nodes n)) }

/-- Move the producer of `n` to `pc`. -/
def goto (s : BrokerState top α σ) (n : top.Node) (pc : ProducerPc top.Port top.Lane α) :
    BrokerState top α σ :=
  s.modifyNode n fun node => { node with pc := pc }

/-- The TX ring that lane `i` reads. -/
def source (s : BrokerState top α σ) (i : top.Lane) : IqRing α :=
  (s.tx (top.link i).srcIndex).txRing

end BrokerState

/-! ## Initial state -/

section Steps

variable {top : Topology} {α σ : Type*}

/-- The state in which the workers start. -/
def brokerInit [Zero α] (top : Topology) (proc : Processor top α σ) : BrokerState top α σ where
  tx p :=
    { txRing := IqRing.reset (top.port p).queueSamples
      pending := []
      puller := .discard
      sent := [] }
  rx p :=
    { rxRing := IqRing.reset (top.rxRingBatches * (top.port p).batch)
      rxCursor := 0
      rxSlots := []
      rep := .waitReq
      published := []
      replies := [] }
  lanes _ := { cursor := 0, cursorInit := false, origin := 0, windows := [], served := 0 }
  nodes n :=
    { pc := .waitRoom (top.node n).rxPorts (top.node n).batch
      epochSet := false
      proc := proc.init n
      slots := [] }
  txSequenceGaps := 0

/-! ## The puller -/

/-- What the scan over the links leaves behind. -/
structure CursorScan where
  minCursor : ℕ
  hasConsumer : Bool
  hasOutgoing : Bool

/-- One link of the scan: a lane of another port is skipped, a lane that is not
initialised yet holds the ring at its earliest sample. -/
def CursorScan.visit (p : top.Port) (earliest : ℕ) (lanes : top.Lane → LaneState α)
    (acc : CursorScan) (i : top.Lane) : CursorScan :=
  if (top.link i).srcIndex ≠ p then acc
  else if (lanes i).cursorInit = false then
    { acc with minCursor := earliest, hasOutgoing := true }
  else
    { minCursor := min acc.minCursor (lanes i).cursor, hasConsumer := true, hasOutgoing := true }

/-- The scan of `run_puller` over all links of the source port `p`. -/
def scanCursors (p : top.Port) (ring : IqRing α) (lanes : top.Lane → LaneState α) : CursorScan :=
  (List.finRange top.numLinks).foldl (CursorScan.visit p ring.earliestSequence lanes)
    { minCursor := ring.nextSequence, hasConsumer := false, hasOutgoing := false }

/-- Release the samples consumed by every lane that reads this ring. -/
def discardConsumed (p : top.Port) (ring : IqRing α) (lanes : top.Lane → LaneState α) :
    IqRing α :=
  let scan := scanCursors p ring lanes
  if scan.hasOutgoing = false then ring.discardBefore ring.nextSequence
  else if scan.hasConsumer then ring.discardBefore scan.minCursor
  else ring

/-- One step of `run_puller` for port `p`.  `received` is what the REQ socket delivers if
this step gets as far as waiting for a reply; `none` is a timeout. -/
def TxState.pullerStep (p : top.Port) (lanes : top.Lane → LaneState α) (dev : TxState α)
    (received : Option (List α)) : TxState α :=
  match dev.puller with
  | .discard =>
      let ring := discardConsumed p dev.txRing lanes
      { dev with txRing := ring, puller := .act ring.freeCapacity }
  | .act room =>
      if dev.pending ≠ [] then
        match dev.txRing.push dev.pending with
        | some ring => { dev with txRing := ring, pending := [], puller := .discard }
        | none => { dev with puller := .discard }
      else if room < (top.port p).batch then { dev with puller := .discard }
      else
        match received with
        | none => { dev with puller := .discard }
        | some samples =>
            if samples.length > max (top.port p).queueSamples (top.port p).batch then
              { dev with
                puller := .failed "received ZMQ payload exceeds the receive buffer"
                sent := dev.sent ++ samples }
            else { dev with pending := samples, puller := .discard, sent := dev.sent ++ samples }
  | .failed _ => dev

/-! ## The producer -/

/-- `rx_headroom`: the room below the run-ahead bound of one batch. -/
def rxHeadroom (batch : ℕ) (ring : IqRing α) : ℕ :=
  let rx_high_water := batch
  if ring.size ≥ rx_high_water then 0
  else min (rx_high_water - ring.size) ring.freeCapacity

/-- (C) after room and alignment: without lanes the window is the room itself. -/
def enterData (top : Topology) (n : top.Node) (room : ℕ) : ProducerPc top.Port top.Lane α :=
  if top.incoming n = [] then .read [] [] room
  else .waitData (top.incoming n) (top.node n).batch room

/-- (D) for one lane: the window in place if it is contiguous, else a copy; `none`
is the failed read. -/
def readWindow (knobs : Knobs) (ring : IqRing α) (cursor count : ℕ) : Option (Window α) :=
  match if knobs.fewerCopies then ring.view cursor count else none with
  | some head => some (.inPlace head count)
  | none => (ring.read cursor count).map .copied

/-- The rows of one channel call: RX port `p` gets the row of its position. -/
def portRow (top : Topology) (n : top.Node) (count : ℕ) (out : ℕ → ℕ → α) (p : top.Port) :
    List α :=
  (List.range count).map (out ((top.node n).rxPorts.idxOf p))

/-- Writing the rows whose span is the tail of an RX ring. -/
def fillRows (tails : List (top.Port × Option ℕ)) (row : top.Port → List α)
    (rx : top.Port → RxState α) : top.Port → RxState α := fun p =>
  match tails.lookup p with
  | some (some tail) => { rx p with rxRing := (rx p).rxRing.fill tail (row p) }
  | _ => rx p

/-- One step of `run_producer`. -/
def producerStep (knobs : Knobs) (proc : Processor top α σ) (s : BrokerState top α σ)
    (n : top.Node) : BrokerState top α σ :=
  let node := top.node n
  match (s.nodes n).pc with
  | .waitRoom (r :: todo) room =>
      s.goto n (.waitRoom todo (min room (rxHeadroom (top.port r).batch (s.rx r).rxRing)))
  | .waitRoom [] room =>
      if room > 0 then
        if (s.nodes n).epochSet then s.goto n (enterData top n room)
        else s.goto n (.align (top.incoming n) room)
      else s.goto n (.waitRoom node.rxPorts node.batch)
  | .align (k :: todo) room =>
      let earliest := (s.source k).earliestSequence
      (s.modifyLane k fun lane =>
        { lane with cursor := earliest, cursorInit := true, origin := earliest }).goto n
          (.align todo room)
  | .align [] room =>
      s.modifyNode n fun st => { st with epochSet := true, pc := enterData top n room }
  | .waitData (k :: todo) common room =>
      let ring := s.source k
      let cur := (s.lanes k).cursor
      if cur < ring.earliestSequence then
        -- samples were lost before this lane read them
        let s := s.modifyLane k fun lane => { lane with cursor := ring.earliestSequence }
        let avail := ring.nextSequence - ring.earliestSequence
        { s with txSequenceGaps := s.txSequenceGaps + 1 }.goto n
          (.waitData todo (min common avail) room)
      else
        let avail := ring.nextSequence - cur
        s.goto n (.waitData todo (min common avail) room)
  | .waitData [] common room =>
      if common > 0 then s.goto n (.read [] (top.incoming n) (min common room))
      else s.goto n (.waitData (top.incoming n) node.batch room)
  | .read done (k :: todo) count =>
      match readWindow knobs (s.source k) (s.lanes k).cursor count with
      | none => s.goto n (.failed ("broker serve window vanished from ring: " ++ (top.link k).key))
      | some window =>
          (s.modifyLane k fun lane =>
            { lane with
              windows := lane.windows ++ [window.samples (s.source k).buffer] }).goto n
            (.read (done ++ [(k, window)]) todo count)
  | .read done [] count => s.goto n (.reserve done [] node.rxPorts count)
  | .reserve windows done (r :: todo) count =>
      let tail := if knobs.directRows then (s.rx r).rxRing.reserve count else none
      s.goto n (.reserve windows (done ++ [(r, tail)]) todo count)
  | .reserve windows done [] count => s.goto n (.process windows done count)
  | .process windows tails count =>
      let inputs := windows.map fun kw => kw.2.samples (s.source kw.1).buffer
      match proc.process n (s.nodes n).proc inputs count with
      | .error what => s.goto n (.threw count what)
      | .ok (proc', out) =>
          let row := portRow top n count out
          let rows := tails.map fun rt =>
            (rt.1, match rt.2 with
              | some _ => Row.inRing
              | none => Row.staged (row rt.1))
          let s := { s with rx := fillRows tails row s.rx }
          s.modifyNode n fun st =>
            { st with
              proc := proc'
              slots := st.slots ++ [{ count, windows := inputs, row }]
              pc := .commit (top.incoming n) rows count }
  | .commit (k :: todo) rows count =>
      (s.modifyLane k fun lane =>
        { lane with cursor := lane.cursor + count, served := lane.served + 1 }).goto n
          (.commit todo rows count)
  | .commit [] rows count => s.goto n (.push rows count)
  | .push ((r, row) :: todo) count =>
      let out := s.rx r
      match row.publish out.rxRing count with
      | none => s.goto n (.failed ("RX output ring rejected a reserved push: " ++ (top.port r).id))
      | some ring =>
          (s.modifyRx r fun out =>
            { out with
              rxRing := ring
              rxSlots := out.rxSlots ++ [count]
              published := out.published ++ [row.samples out.rxRing count] }).goto n (.push todo count)
  | .push [] _ => s.goto n (.waitRoom node.rxPorts node.batch)
  | .threw _ _ => s
  | .failed _ => s

/-! ## The REP worker -/

/-- Consume the front window: advance the cursor, discard, drop the boundary. -/
def RxState.popRow (port : RxState α) (take : ℕ) : RxState α :=
  { port with
    rxCursor := port.rxCursor + take
    rxRing := port.rxRing.discardBefore (port.rxCursor + take)
    rxSlots := port.rxSlots.tail }

/-- One step of `run_rep_worker` of the port named `id`.  `ready` says whether the socket
is: a request has arrived, or the reply is accepted. -/
def RxState.repStep (knobs : Knobs) (id : String) (port : RxState α) (ready : Bool) : RxState α :=
  match port.rep with
  | .waitReq => if ready then { port with rep := .waitRow } else port
  | .waitRow =>
      match port.rxSlots with
      | [] => port
      | take :: _ =>
          match if knobs.fewerCopies then port.rxRing.view port.rxCursor take else none with
          | some head => { port with rep := .send (.inPlace head take) take }
          | none =>
              match port.rxRing.read port.rxCursor take with
              | none => { port with rep := .failed ("RX output window vanished from ring: " ++ id) }
              | some samples =>
                  { port.popRow take with
                    rep := if take > 0 then .send (.copied samples) take else .waitRow }
  | .send reply take =>
      if ready then
        { port with
          replies := port.replies ++ [reply.samples port.rxRing.buffer]
          rep := match reply with
            | .inPlace _ _ => .release take
            | .copied _ => .waitReq }
      else port
  | .release take => { port.popRow take with rep := .waitReq }
  | .failed _ => port

/-! ## Runs -/

/-- The atomic steps of the workers, with what the environment decides. -/
inductive BrokerAction (top : Topology) (α : Type*) where
  | puller (p : top.Port) (received : Option (List α))
  | producer (n : top.Node)
  | rep (p : top.Port) (ready : Bool)

def brokerStep (knobs : Knobs) (proc : Processor top α σ) (s : BrokerState top α σ) :
    BrokerAction top α → BrokerState top α σ
  | .puller p received => s.modifyTx p fun dev => dev.pullerStep p s.lanes received
  | .producer n => producerStep knobs proc s n
  | .rep p ready => s.modifyRx p fun port => port.repStep knobs (top.port p).id ready

/-- The state after an interleaving of worker steps. -/
def brokerRun [Zero α] (top : Topology) (knobs : Knobs) (proc : Processor top α σ)
    (actions : List (BrokerAction top α)) : BrokerState top α σ :=
  actions.foldl (brokerStep knobs proc) (brokerInit top proc)

end Steps
