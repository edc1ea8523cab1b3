/-
# What the relay guarantees

Two results about every reachable state of the broker, read off the invariant: each
lane consumes its source's sample stream exactly once and in order, and the RX ports
of one node reply with the rows of the node's windows, window by window.
-/
import GpuChannel.BrokerPublish

open CyclicBuffer

section Relay

variable {top : Topology} {α σ : Type*}

/-! ## The input side -/

/-- The windows a lane has read are a prefix of what its source sent. -/
theorem LaneOk.windows_isPrefix {i : top.Lane} {node : NodeState top.Port top.Lane α σ}
    {src : TxState α} {lane : LaneState α} (h : LaneOk i node src lane) :
    lane.windows.flatten <+: src.sent ∧ lane.windows.length ≤ lane.served + 1 := by
  have hsplit := List.take_append_drop lane.served lane.windows
  have hlen : lane.windows.length = lane.served + (lane.windows.drop lane.served).length := by
    have := h.served_le
    rw [List.length_drop]; omega
  by_cases hr : node.pc.reading i
  · rw [h.inFlight hr] at hsplit hlen
    refine ⟨?_, hlen.le⟩
    rw [← hsplit, List.flatten_append, h.committed, List.flatten_singleton, take_append_slice]
    exact List.take_prefix _ _
  · rw [h.idle hr] at hsplit hlen
    refine ⟨?_, by rw [hlen]; exact Nat.le_succ _⟩
    rw [← hsplit, List.append_nil, h.committed]
    exact List.take_prefix _ _

/-- **Exactly-once relay.** In every reachable state, each initialised cursor started
at sequence `0` and lies in the window of its source ring; the committed windows of a
lane are exactly the first `cursor` samples its source sent, at most one further window
has been read, and it continues that stream; no gap was ever counted and no producer
has lost a window. -/
theorem relay_exactly_once [Zero α] (top : Topology) (knobs : Knobs) (proc : Processor top α σ)
    (actions : List (BrokerAction top α)) :
    let s := brokerRun top knobs proc actions
    (∀ i, (s.lanes i).cursorInit = true →
      (s.lanes i).origin = 0 ∧ (s.source i).earliestSequence ≤ (s.lanes i).cursor ∧
        (s.lanes i).cursor ≤ (s.source i).nextSequence) ∧
    (∀ i, ((s.lanes i).windows.take (s.lanes i).served).flatten =
        (s.tx (top.link i).srcIndex).sent.take (s.lanes i).cursor ∧
      (s.lanes i).cursor ≤ (s.tx (top.link i).srcIndex).sent.length ∧
      (s.lanes i).windows.flatten <+: (s.tx (top.link i).srcIndex).sent ∧
      (s.lanes i).windows.length ≤ (s.lanes i).served + 1) ∧
    s.txSequenceGaps = 0 ∧
    ∀ n what, (s.nodes n).pc ≠ .failed what := by
  have h := brokerOk_run top knobs proc actions
  refine ⟨fun i _ => ?_, fun i => ?_, h.gaps, fun n what hpc => ?_⟩
  · have hl := h.lane i
    have hw := hl.wanted_le
    exact ⟨hl.origin, hl.earliest_le, by unfold BrokerState.source; omega⟩
  · have hl := h.lane i
    have hw := hl.wanted_le
    have hn := (h.tx (top.link i).srcIndex).nextSequence_le
    exact ⟨hl.committed, by omega, hl.windows_isPrefix⟩
  · have := h.shape n
    rw [ShapeOk, hpc] at this
    exact this

/-! ## The output side -/

/-- Replies are the published rows in order. -/
theorem RxOk.replies_isPrefix {rx : RxState α} (h : RxOk rx) : rx.replies <+: rx.published := by
  obtain ⟨-, -, popped, rest, hsplit, -, -, -, hrep⟩ := h
  rw [hsplit]
  unfold RepOk at hrep
  split at hrep
  · rw [hrep]; exact List.prefix_append _ _
  · rw [hrep]; exact List.prefix_append _ _
  · rw [hrep, List.append_assoc]; exact List.prefix_append _ _
  · rw [hrep.1]; exact List.prefix_append _ _
  · obtain ⟨row, rest', rfl, -, hreplies⟩ := hrep
    exact ⟨rest', by rw [hreplies, List.append_assoc]; rfl⟩
  · exact hrep.elim

/-- The boundaries in `rx_slots` account for exactly the buffered samples. -/
theorem RxOk.sum_rxSlots {rx : RxState α} (h : RxOk rx) : rx.rxSlots.sum = rx.rxRing.size := by
  obtain ⟨hc, -, popped, rest, hsplit, hcur, he, hslots, -⟩ := h
  have hlen := hc.length_eq
  rw [hsplit, List.flatten_append, List.length_append, he, hcur] at hlen
  rw [hslots, ← List.length_flatten]
  omega

/-- Published rows are the rows of the produced windows, except one still on its way. -/
theorem OutOk.published_isPrefix {batch : ℕ} {p : top.Port}
    {node : NodeState top.Port top.Lane α σ} {rx : RxState α} (h : OutOk batch p node rx) :
    rx.published <+: node.slots.map fun slot => slot.row p := by
  by_cases hp : p ∈ node.pc.rows.map Prod.fst
  · obtain ⟨⟨p', r⟩, hmem, hpr⟩ := List.mem_map.mp hp
    obtain rfl : p' = p := hpr
    obtain ⟨row, -, hslots, -⟩ := h.pending r hmem
    exact ⟨[row], hslots.symm⟩
  · rw [h.produced hp]

/-- **Sibling alignment.** In every reachable state and for every RX port of a node, the
`k`-th reply is the port's row of the node's `k`-th window and has that window's length,
the reply stream is a prefix of the produced rows, the RX ring holds at most one batch,
and `rx_slots` sums to the ring's contents; no push is rejected and no window vanishes. -/
theorem sibling_alignment [Zero α] (top : Topology) (knobs : Knobs) (proc : Processor top α σ)
    (actions : List (BrokerAction top α)) :
    let s := brokerRun top knobs proc actions
    (∀ n, ∀ p ∈ (top.node n).rxPorts,
      (∀ (k : ℕ) reply, (s.rx p).replies[k]? = some reply →
        ∃ slot, (s.nodes n).slots[k]? = some slot ∧ reply = slot.row p ∧
          reply.length = slot.count) ∧
      (s.rx p).replies.flatten <+: ((s.nodes n).slots.map fun slot => slot.row p).flatten ∧
      (s.rx p).rxRing.size ≤ (top.port p).batch) ∧
    (∀ p, (s.rx p).rxSlots.sum = (s.rx p).rxRing.size) ∧
    (∀ n what, (s.nodes n).pc ≠ .failed what) ∧
    ∀ p what, (s.rx p).rep ≠ .failed what := by
  have h := brokerOk_run top knobs proc actions
  refine ⟨fun n p hp => ?_, fun p => (h.rx p).sum_rxSlots, fun n what hpc => ?_,
    fun p what hrep => ?_⟩
  · have ho := h.out n p hp
    obtain ⟨rest, hrest⟩ := (h.rx p).replies_isPrefix.trans ho.published_isPrefix
    refine ⟨fun k reply hk => ?_, ⟨rest.flatten, by rw [← hrest, List.flatten_append]⟩, ?_⟩
    · have hk' : (((brokerRun top knobs proc actions).nodes n).slots.map
          (fun slot => slot.row p))[k]? = some reply := by
        rw [← hrest, List.getElem?_append_left (List.getElem?_eq_some_iff.mp hk).1]
        exact hk
      rw [List.getElem?_map, Option.map_eq_some_iff] at hk'
      obtain ⟨slot, hslot, rfl⟩ := hk'
      exact ⟨slot, hslot, rfl, (h.slots n slot (List.mem_of_getElem? hslot)).2 p hp⟩
    · have := ho.highWater
      omega
  · have := h.shape n
    rw [ShapeOk, hpc] at this
    exact this
  · obtain ⟨-, -, popped, rest, -, -, -, -, hok⟩ := h.rx p
    rw [RepOk, hrep] at hok
    exact hok

end Relay

/-! ## Windows in flight -/

/-- Samples of the window a REP worker is about to send or to release. -/
def RepPc.inFlight {α : Type*} : RepPc α → ℕ
  | send _ take => take
  | release take => take
  | _ => 0

/-- One node with one RX port and no lanes: it publishes zero-filled windows of one sample. -/
def loneNode : Topology where
  numPorts := 1
  numNodes := 1
  numLinks := 0
  rxRingBatches := 2
  port _ := { id := "rx0", batch := 1, queueSamples := 2 }
  node _ := { id := "rx0", batch := 1, rxPorts := [0] }
  link i := i.elim0
  rxPorts_nodup _ := List.nodup_singleton _
  rxPorts_disjoint m n _ _ _ := Subsingleton.elim m n

def silentProcessor (top : Topology) : Processor top ℕ Unit where
  init _ := ()
  process _ _ _ _ := .ok ((), fun _ _ => 0)

/-- A window held for an in-ring send is still in `rx_slots` and in the ring, so the
boundaries and the window in flight together count it twice. -/
theorem rxSlots_add_inFlight_ne_size :
    ¬ ∀ (top : Topology) (knobs : Knobs) (proc : Processor top ℕ Unit)
      (actions : List (BrokerAction top ℕ)) (p : top.Port),
      let rx := (brokerRun top knobs proc actions).rx p
      rx.rxSlots.sum + rx.rep.inFlight = rx.rxRing.size := by
  intro h
  have := h loneNode { fewerCopies := true, directRows := false } (silentProcessor loneNode)
    (List.replicate 9 (.producer ⟨0, by decide⟩) ++
      List.replicate 2 (.rep ⟨0, by decide⟩ true)) ⟨0, by decide⟩
  revert this
  decide
