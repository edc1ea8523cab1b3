/-
# Waiting in the broker

The workers of the relay wait on `RingProgress` signals: a puller for room in its TX ring, a
producer for output room and then for lane data on the one signal of its node, a REP worker for a
published window.  This file adds the signals to the relay, with every take-ticket, check-guard and
wait as steps of their own and one notification at a time, and shows that no wake is lost.

Left out are the timeout of the wait and the spinning modes.  A generation is a natural number: the
rings bound how often a signal is raised while its worker stands between two steps.
-/
import GpuChannel.BrokerPublish
import GpuChannel.Library.EventCount

open EventCount

/-! ## Signals -/

section Signals

variable (top : Topology)

/-- The `RingProgress` objects: `tx_room_changed` and `rx_data_changed` of a port, and
`node_progress` of a node. -/
inductive Signal
  | txRoomChanged (p : top.Port)
  | nodeProgress (n : top.Node)
  | rxDataChanged (p : top.Port)
  deriving DecidableEq

inductive Worker
  | puller (p : top.Port)
  | producer (n : top.Node)
  | rep (p : top.Port)
  deriving DecidableEq

variable {top} {α σ : Type*}

/-- The signal that a worker waits for. -/
def Worker.signal : Worker top → Signal top
  | .puller p => .txRoomChanged p
  | .producer n => .nodeProgress n
  | .rep p => .rxDataChanged p

def BrokerAction.worker : BrokerAction top α → Worker top
  | .puller p _ => .puller p
  | .producer n => .producer n
  | .rep p _ => .rep p

variable (top)

/-- `port_consumers`: the nodes with a lane from the port, each once. -/
def portConsumers (p : top.Port) : List top.Node :=
  (((List.finRange top.numLinks).filter fun i => (top.link i).srcIndex = p).map
    fun i => (top.link i).dstNode).eraseDups

/-- `node_sources`: the ports with a lane to the node, each once. -/
def nodeSources (n : top.Node) : List top.Port :=
  ((top.incoming n).map fun i => (top.link i).srcIndex).eraseDups

/-- `PortRuntime::node_index` of an RX port. -/
def rxNodeIndex (p : top.Port) : Option top.Node :=
  (List.finRange top.numNodes).find? fun n => p ∈ (top.node n).rxPorts

variable {top}

theorem mem_portConsumers (i : top.Lane) :
    (top.link i).dstNode ∈ portConsumers top (top.link i).srcIndex := by
  unfold portConsumers
  rw [List.mem_eraseDups, List.mem_map]
  exact ⟨i, List.mem_filter.mpr ⟨List.mem_finRange i, decide_eq_true rfl⟩, rfl⟩

theorem mem_nodeSources {n : top.Node} {i : top.Lane} (hi : i ∈ top.incoming n) :
    (top.link i).srcIndex ∈ nodeSources top n := by
  unfold nodeSources
  rw [List.mem_eraseDups]
  exact List.mem_map_of_mem hi

theorem rxNodeIndex_eq {n : top.Node} {p : top.Port} (hp : p ∈ (top.node n).rxPorts) :
    rxNodeIndex top p = some n := by
  unfold rxNodeIndex
  cases hfind : (List.finRange top.numNodes).find? fun n => p ∈ (top.node n).rxPorts with
  | none =>
      rw [List.find?_eq_none] at hfind
      exact absurd (decide_eq_true hp) (hfind n (List.mem_finRange n))
  | some m =>
      have hm := List.find?_some hfind
      rw [top.rxPorts_disjoint m n p (of_decide_eq_true hm) hp]

end Signals

/-! ## How a worker goes on -/

section Waiting

variable {top : Topology} {α σ : Type*}

/-- The waits and notifications of `run_puller`. -/
def pullerAfter (p : top.Port) (dev : TxState α) : Pc (Signal top) :=
  match dev.puller with
  | .discard => .run
  | .act room =>
      if dev.pending ≠ [] then
        match dev.txRing.push dev.pending with
        | some _ => .notify ((portConsumers top p).map .nodeProgress) true
        | none => .blocked
      else if room < (top.port p).batch then .blocked
      else .ticket
  | .failed _ => .run

/-- The waits and notifications of `run_producer`. -/
def producerAfter (n : top.Node) (node : NodeState top.Port top.Lane α σ) : Pc (Signal top) :=
  match node.pc with
  | .waitRoom [] room =>
      if room > 0 then if node.epochSet ∧ top.incoming n ≠ [] then .ticket else .run
      else .blocked
  | .align [] _ => if top.incoming n = [] then .run else .ticket
  | .waitData [] common _ => if common > 0 then .run else .blocked
  | .commit [] _ _ => .notify ((nodeSources top n).map .txRoomChanged) false
  | .push [] _ => .notify ((top.node n).rxPorts.map .rxDataChanged) true
  | _ => .run

/-- `node_progress[port.node_index].notify()`. -/
def notifyNode (p : top.Port) : Pc (Signal top) :=
  .notify ((rxNodeIndex top p).toList.map .nodeProgress) false

/-- The waits and notifications of `run_rep_worker`. -/
def repAfter (knobs : Knobs) (p : top.Port) (port : RxState α) (ready : Bool) : Pc (Signal top) :=
  match port.rep with
  | .waitReq => if ready then .ticket else .run
  | .waitRow =>
      match port.rxSlots with
      | [] => .blocked
      | take :: _ =>
          match if knobs.fewerCopies then port.rxRing.view port.rxCursor take else none with
          | some _ => .run
          | none =>
              match port.rxRing.read port.rxCursor take with
              | none => .run
              | some _ => if take > 0 then notifyNode p else .blocked
  | .release _ => notifyNode p
  | _ => .run

/-- How the worker of an action goes on. -/
def brokerAfter (knobs : Knobs) (s : BrokerState top α σ) : BrokerAction top α → Pc (Signal top)
  | .puller p _ => pullerAfter p (s.tx p)
  | .producer n => producerAfter n (s.nodes n)
  | .rep p ready => repAfter knobs p (s.rx p) ready

/-- The relay as a protocol of workers and signals. -/
def brokerProtocol (knobs : Knobs) (proc : Processor top α σ) :
    Protocol (BrokerState top α σ) (BrokerAction top α) (Worker top) (Signal top) where
  step := brokerStep knobs proc
  worker := BrokerAction.worker
  signal := Worker.signal

/-- Pullers and producers start with a ticket, REP workers with a request. -/
def firstPc : Worker top → Pc (Signal top)
  | .rep _ => .run
  | _ => .ticket

/-- The relay with its signals, after an interleaving of worker steps. -/
def wakeRun [Zero α] (top : Topology) (knobs : Knobs) (proc : Processor top α σ)
    (actions : List (BrokerAction top α)) : State (BrokerState top α σ) (Worker top) (Signal top) :=
  actions.foldl ((brokerProtocol knobs proc).next (brokerAfter knobs))
    (State.start (brokerInit top proc) firstPc)

/-! ## The guards -/

/-- `rx_headroom` on every RX port of the node, capped at the batch. -/
def outputRoom (s : BrokerState top α σ) (n : top.Node) : ℕ :=
  (top.node n).rxPorts.foldl (fun room r => min room (rxHeadroom (top.port r).batch (s.rx r).rxRing))
    (top.node n).batch

/-- What every incoming lane of the node has, capped at the batch. -/
def commonData (s : BrokerState top α σ) (n : top.Node) : ℕ :=
  (top.incoming n).foldl (fun common k =>
    min common ((s.source k).nextSequence - max (s.lanes k).cursor (s.source k).earliestSequence))
    (top.node n).batch

/-- Room in this TX ring for the pending message, or for the next one. -/
def messageFits (p : top.Port) (dev : TxState α) (ring : IqRing α) : Prop :=
  if dev.pending ≠ [] then (ring.push dev.pending).isSome = true
  else (top.port p).batch ≤ ring.freeCapacity

/-- What the producer of `n` waits for where it stands. -/
def producerGuard (s : BrokerState top α σ) (n : top.Node) :
    ProducerPc top.Port top.Lane α → Prop
  | .waitRoom _ _ => 0 < outputRoom s n
  | .waitData _ _ _ => 0 < commonData s n
  | _ => False

/-- **The guards.** What a worker checks before it waits, in the current state of the rings. -/
def waitGuard (s : BrokerState top α σ) : Worker top → Prop
  | .puller p => messageFits p (s.tx p) (discardConsumed p (s.tx p).txRing s.lanes)
  | .producer n => producerGuard s n (s.nodes n).pc
  | .rep p => (s.rx p).rxSlots ≠ []

/-- The producer of `n` moved a cursor of a lane from this port, or published a row on it, and is
not past the loop that notifies. -/
def producerOwing (n : top.Node) : ProducerPc top.Port top.Lane α → Signal top → Prop
  | .commit todo _ _, sig =>
      ∃ k ∈ top.incoming n, k ∉ todo ∧ sig = .txRoomChanged (top.link k).srcIndex
  | .push todo _, sig =>
      ∃ p ∈ (top.node n).rxPorts, p ∉ todo.map Prod.fst ∧ sig = .rxDataChanged p
  | _, _ => False

/-- **A running worker has yet to notify.** -/
def owing (s : BrokerState top α σ) : Worker top → Signal top → Prop
  | .producer n, sig => producerOwing n (s.nodes n).pc sig
  | _, _ => False

/-! ## What the puller can release -/

/-- The scan stops at the ring's end or at a lane of the port. -/
theorem foldl_visit_holder (p : top.Port) (earliest next : ℕ) (lanes : top.Lane → LaneState α)
    (L : List top.Lane) (acc : CursorScan)
    (hacc : acc.minCursor = next ∨ ∃ i, (top.link i).srcIndex = p ∧
      ((lanes i).cursorInit = false ∨ (lanes i).cursor ≤ acc.minCursor)) :
    (L.foldl (CursorScan.visit p earliest lanes) acc).minCursor = next ∨
      ∃ i, (top.link i).srcIndex = p ∧ ((lanes i).cursorInit = false ∨
        (lanes i).cursor ≤ (L.foldl (CursorScan.visit p earliest lanes) acc).minCursor) := by
  induction L generalizing acc with
  | nil => exact hacc
  | cons k L ih =>
      apply ih
      unfold CursorScan.visit
      split_ifs with hsrc hinit
      · exact hacc
      · exact .inr ⟨k, not_not.mp hsrc, .inl hinit⟩
      · dsimp only
        rcases le_total (lanes k).cursor acc.minCursor with hle | hge
        · rw [min_eq_right hle]
          exact .inr ⟨k, not_not.mp hsrc, .inr le_rfl⟩
        · rw [min_eq_left hge]
          exact hacc

/-- A scan that saw no consumer saw a lane that is not aligned. -/
theorem foldl_visit_waiting (p : top.Port) (earliest : ℕ) (lanes : top.Lane → LaneState α)
    (L : List top.Lane) (acc : CursorScan)
    (hacc : acc.hasOutgoing = true → acc.hasConsumer = true ∨
      ∃ i, (top.link i).srcIndex = p ∧ (lanes i).cursorInit = false) :
    (L.foldl (CursorScan.visit p earliest lanes) acc).hasOutgoing = true →
      (L.foldl (CursorScan.visit p earliest lanes) acc).hasConsumer = true ∨
        ∃ i, (top.link i).srcIndex = p ∧ (lanes i).cursorInit = false := by
  induction L generalizing acc with
  | nil => exact hacc
  | cons k L ih =>
      apply ih
      unfold CursorScan.visit
      split_ifs with hsrc hinit
      · exact hacc
      · exact fun _ => .inr ⟨k, not_not.mp hsrc, hinit⟩
      · exact fun _ => .inl rfl

/-- Nothing of the ring can be released. -/
def Held (p : top.Port) (ring : IqRing α) (lanes : top.Lane → LaneState α) : Prop :=
  ring.size = 0 ∨ ∃ i, (top.link i).srcIndex = p ∧ (lanes i).cursor ≤ ring.earliestSequence

theorem discardConsumed_of_held {p : top.Port} {ring : IqRing α} {landed : List α}
    {lanes : top.Lane → LaneState α} (hc : ring.Carries landed)
    (hlanes : ∀ i, (top.link i).srcIndex = p → ring.earliestSequence ≤ (lanes i).cursor)
    (h : Held p ring lanes) : discardConsumed p ring lanes = ring := by
  have hstays : ∀ q, q ≤ ring.earliestSequence ∨ ring.size = 0 → ring.discardBefore q = ring := by
    intro q hq
    unfold IqRing.discardBefore
    exact if_pos hq
  unfold discardConsumed
  dsimp only
  rcases h with hempty | ⟨i, hi, hcursor⟩
  · rw [hstays _ (.inr hempty), hstays _ (.inr hempty), ite_self, ite_self]
  · obtain ⟨-, -, hscan⟩ := foldl_visit_spec p ring.earliestSequence lanes
      (List.finRange top.numLinks)
      { minCursor := ring.nextSequence, hasConsumer := false, hasOutgoing := false }
      (by rw [hc.next]; exact hc.earliest_le) hlanes
    obtain ⟨hmin, hout⟩ := hscan i (List.mem_finRange i) hi
    rw [scanCursors, hout, hstays _ (.inl (hmin.trans hcursor)), ite_self]
    exact if_neg (by decide)

/-- Releasing releases everything: a second pass finds nothing. -/
theorem held_discardConsumed (p : top.Port) {ring : IqRing α} {landed : List α}
    {lanes : top.Lane → LaneState α} (hc : ring.Carries landed)
    (huninit : ∀ i, (lanes i).cursorInit = false → (lanes i).cursor = 0) :
    Held p (discardConsumed p ring lanes) lanes := by
  have hall : ∀ q, ring.nextSequence ≤ q → (ring.discardBefore q).size = 0 := by
    intro q hq
    have hsize := (hc.discardBefore q).1.length_eq
    have hlen := hc.next
    rw [(hc.discardBefore q).2] at hsize
    have hearly := hc.earliest_le
    rw [min_eq_right (by omega), max_eq_right hearly] at hsize
    omega
  have hscan := foldl_visit_holder p ring.earliestSequence ring.nextSequence lanes
    (List.finRange top.numLinks)
    { minCursor := ring.nextSequence, hasConsumer := false, hasOutgoing := false } (.inl rfl)
  have hwaiting := foldl_visit_waiting p ring.earliestSequence lanes
    (List.finRange top.numLinks)
    { minCursor := ring.nextSequence, hasConsumer := false, hasOutgoing := false }
    (fun hfalse => absurd hfalse Bool.false_ne_true)
  rw [← scanCursors] at hscan hwaiting
  unfold discardConsumed
  generalize scanCursors p ring lanes = scan at hscan hwaiting ⊢
  dsimp only
  split_ifs with hout hconsumer
  · exact .inl (hall _ le_rfl)
  · rcases hscan with hnext | ⟨i, hi, hcursor⟩
    · rw [hnext]
      exact .inl (hall _ le_rfl)
    · rcases hcursor with hinit | hle
      · exact .inr ⟨i, hi, by rw [huninit i hinit]; exact Nat.zero_le _⟩
      · rcases Nat.lt_or_ge scan.minCursor ring.nextSequence with hlt | hend
        · refine .inr ⟨i, hi, ?_⟩
          rw [(hc.discardBefore _).2, ← hc.next, min_eq_left hlt.le]
          exact hle.trans (le_max_right _ _)
        · exact .inl (hall _ hend)
  · obtain ⟨i, hi, hinit⟩ := (hwaiting (by simpa using hout)).resolve_left hconsumer
    exact .inr ⟨i, hi, by rw [huninit i hinit]; exact Nat.zero_le _⟩

theorem discardConsumed_eq_iff {p : top.Port} {ring : IqRing α} {landed : List α}
    {lanes : top.Lane → LaneState α} (hc : ring.Carries landed)
    (hlanes : ∀ i, (top.link i).srcIndex = p → ring.earliestSequence ≤ (lanes i).cursor)
    (huninit : ∀ i, (lanes i).cursorInit = false → (lanes i).cursor = 0) :
    discardConsumed p ring lanes = ring ↔ Held p ring lanes :=
  ⟨fun h => h ▸ held_discardConsumed p hc huninit, discardConsumed_of_held hc hlanes⟩

end Waiting
