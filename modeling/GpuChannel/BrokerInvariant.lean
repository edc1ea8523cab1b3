/-
# The broker's invariant

One inductive invariant carries every result about the relay.  It is stated per lane
(`LaneOk`), per TX half (`TxOk`) and RX half (`RxOk`) of a port, per node (`ShapeOk`)
and per output row (`OutOk`), each mentioning only the data its threads share, so a
step has to re-establish only the parts whose data it touches.
-/
import GpuChannel.Broker

open CyclicBuffer

/-! ## What a program counter says -/

namespace ProducerPc

variable {Port Lane : Type} {α : Type*} [DecidableEq Port] [DecidableEq Lane]

/-- The window length once it is fixed. -/
def count : ProducerPc Port Lane α → ℕ
  | read _ _ count | reserve _ _ _ count | process _ _ count | commit _ _ count
  | push _ count | threw count _ => count
  | _ => 0

/-- Samples past the cursor of lane `i` that the producer relies on being buffered. -/
def wanted (i : Lane) : ProducerPc Port Lane α → ℕ
  | waitData todo common _ => if i ∈ todo then 0 else common
  | read _ _ count | reserve _ _ _ count | process _ _ count | threw count _ => count
  | commit todo _ count => if i ∈ todo then count else 0
  | _ => 0

/-- The producer has read a window of lane `i` and not yet moved its cursor. -/
def reading (i : Lane) : ProducerPc Port Lane α → Prop
  | read done _ _ => i ∈ done.map Prod.fst
  | reserve _ _ _ _ | process _ _ _ | threw _ _ => True
  | commit todo _ _ => i ∈ todo
  | _ => False

/-- The first alignment pass has initialised lane `i`. -/
def alignedLane (i : Lane) : ProducerPc Port Lane α → Bool
  | align todo _ => i ∉ todo
  | _ => false

/-- The windows the producer holds. -/
def windows : ProducerPc Port Lane α → List (Lane × Window α)
  | read done _ _ => done
  | reserve windows _ _ _ | process windows _ _ => windows
  | _ => []

/-- Room on the RX ring of `p` that the producer relies on. -/
def claimed (p : Port) : ProducerPc Port Lane α → ℕ
  | waitRoom todo room => if p ∈ todo then 0 else room
  | align _ room | waitData _ _ room => room
  | read _ _ count | reserve _ _ _ count | process _ _ count | commit _ _ count => count
  | push todo count => if p ∈ todo.map Prod.fst then count else 0
  | _ => 0

/-- The tails reserved so far. -/
def tails : ProducerPc Port Lane α → List (Port × Option ℕ)
  | reserve _ done _ _ => done
  | process _ tails _ => tails
  | _ => []

/-- The rows computed and not yet published. -/
def rows : ProducerPc Port Lane α → List (Port × Row α)
  | commit _ rows _ => rows
  | push todo _ => todo
  | _ => []

omit [DecidableEq Port] in
/-- A lane that is being read waits for the whole window. -/
theorem wanted_eq_count {i : Lane} {pc : ProducerPc Port Lane α} (h : pc.reading i) :
    pc.wanted i = pc.count := by
  cases pc with
  | commit todo rows count => exact if_pos h
  | read | reserve | process | threw => rfl
  | _ => exact h.elim

omit [DecidableEq Port] [DecidableEq Lane] in
/-- A lane whose window is held is being read. -/
theorem reading_of_mem_windows {i : Lane} {w : Window α} {pc : ProducerPc Port Lane α}
    (h : (i, w) ∈ pc.windows) : pc.reading i := by
  cases pc with
  | read done todo count => exact List.mem_map_of_mem h
  | reserve | process => trivial
  | _ => exact absurd h List.not_mem_nil

end ProducerPc

/-! ## Updates of the state -/

namespace BrokerState

variable {top : Topology} {α σ : Type*} (s : BrokerState top α σ)

-- a TX port
@[simp] theorem rx_modifyTx (p) (f) : (s.modifyTx p f).rx = s.rx := rfl
@[simp] theorem lanes_modifyTx (p) (f) : (s.modifyTx p f).lanes = s.lanes := rfl
@[simp] theorem nodes_modifyTx (p) (f) : (s.modifyTx p f).nodes = s.nodes := rfl
@[simp] theorem gaps_modifyTx (p) (f) :
    (s.modifyTx p f).txSequenceGaps = s.txSequenceGaps := rfl
@[simp] theorem tx_modifyTx_self (p) (f) : (s.modifyTx p f).tx p = f (s.tx p) :=
  Function.update_self ..
theorem tx_modifyTx_of_ne {p q} (f) (h : q ≠ p) : (s.modifyTx p f).tx q = s.tx q :=
  Function.update_of_ne h ..

-- an RX port
@[simp] theorem tx_modifyRx (p) (f) : (s.modifyRx p f).tx = s.tx := rfl
@[simp] theorem lanes_modifyRx (p) (f) : (s.modifyRx p f).lanes = s.lanes := rfl
@[simp] theorem nodes_modifyRx (p) (f) : (s.modifyRx p f).nodes = s.nodes := rfl
@[simp] theorem gaps_modifyRx (p) (f) :
    (s.modifyRx p f).txSequenceGaps = s.txSequenceGaps := rfl
@[simp] theorem rx_modifyRx_self (p) (f) : (s.modifyRx p f).rx p = f (s.rx p) :=
  Function.update_self ..
theorem rx_modifyRx_of_ne {p q} (f) (h : q ≠ p) : (s.modifyRx p f).rx q = s.rx q :=
  Function.update_of_ne h ..

-- a lane
@[simp] theorem tx_modifyLane (i) (f) : (s.modifyLane i f).tx = s.tx := rfl
@[simp] theorem rx_modifyLane (i) (f) : (s.modifyLane i f).rx = s.rx := rfl
@[simp] theorem nodes_modifyLane (i) (f) : (s.modifyLane i f).nodes = s.nodes := rfl
@[simp] theorem gaps_modifyLane (i) (f) :
    (s.modifyLane i f).txSequenceGaps = s.txSequenceGaps := rfl
@[simp] theorem lanes_modifyLane_self (i) (f) : (s.modifyLane i f).lanes i = f (s.lanes i) :=
  Function.update_self ..
theorem lanes_modifyLane_of_ne {i j} (f) (h : j ≠ i) : (s.modifyLane i f).lanes j = s.lanes j :=
  Function.update_of_ne h ..

-- a node
@[simp] theorem tx_modifyNode (n) (f) : (s.modifyNode n f).tx = s.tx := rfl
@[simp] theorem rx_modifyNode (n) (f) : (s.modifyNode n f).rx = s.rx := rfl
@[simp] theorem lanes_modifyNode (n) (f) : (s.modifyNode n f).lanes = s.lanes := rfl
@[simp] theorem gaps_modifyNode (n) (f) :
    (s.modifyNode n f).txSequenceGaps = s.txSequenceGaps := rfl
@[simp] theorem nodes_modifyNode_self (n) (f) : (s.modifyNode n f).nodes n = f (s.nodes n) :=
  Function.update_self ..
theorem nodes_modifyNode_of_ne {n m} (f) (h : m ≠ n) : (s.modifyNode n f).nodes m = s.nodes m :=
  Function.update_of_ne h ..

-- the program counter of a producer
@[simp] theorem tx_goto (n) (pc) : (s.goto n pc).tx = s.tx := rfl
@[simp] theorem rx_goto (n) (pc) : (s.goto n pc).rx = s.rx := rfl
@[simp] theorem lanes_goto (n) (pc) : (s.goto n pc).lanes = s.lanes := rfl
@[simp] theorem gaps_goto (n) (pc) : (s.goto n pc).txSequenceGaps = s.txSequenceGaps := rfl
@[simp] theorem nodes_goto_self (n) (pc) : (s.goto n pc).nodes n = { s.nodes n with pc := pc } :=
  Function.update_self ..
theorem pc_goto (n) (pc) : ((s.goto n pc).nodes n).pc = pc := by
  rw [nodes_goto_self]
theorem nodes_goto_of_ne {n m} (pc) (h : m ≠ n) : (s.goto n pc).nodes m = s.nodes m :=
  Function.update_of_ne h ..

end BrokerState

section Invariant

variable {top : Topology} {α σ : Type*}

/-! ## The invariant -/

/-- TX half: the ring carries what was landed, and landed and pending samples are
what the device sent (all of it, unless an oversized message stopped the puller). -/
structure TxOk (tx : TxState α) : Prop where
  exists_landed : ∃ landed, tx.txRing.Carries landed ∧ landed ++ tx.pending <+: tx.sent ∧
    ((∀ what, tx.puller ≠ .failed what) → landed ++ tx.pending = tx.sent)

/-- A held window shows the `count` samples at the lane's cursor: it holds a copy of
them, or it points at the cells of their sequence numbers. -/
def WindowOk (tx : TxState α) (cursor count : ℕ) : Window α → Prop
  | .copied samples => samples = slice tx.sent cursor count
  | .inPlace head n => n = count ∧ head = cursor % tx.txRing.capacity ∧
      head + n ≤ tx.txRing.capacity

/-- The lane's cursor lies in the window of its source ring, and the windows read so
far are the samples before it plus the window being processed. -/
structure LaneOk (i : top.Lane) (node : NodeState top.Port top.Lane α σ) (src : TxState α)
    (lane : LaneState α) : Prop where
  origin : lane.origin = 0
  init_eq : lane.cursorInit = (node.epochSet || node.pc.alignedLane i)
  uninit : lane.cursorInit = false → lane.cursor = 0 ∧ lane.windows = [] ∧ lane.served = 0
  earliest_le : src.txRing.earliestSequence ≤ lane.cursor
  wanted_le : lane.cursor + node.pc.wanted i ≤ src.txRing.nextSequence
  served_le : lane.served ≤ lane.windows.length
  committed : (lane.windows.take lane.served).flatten = src.sent.take lane.cursor
  inFlight : node.pc.reading i →
    lane.windows.drop lane.served = [slice src.sent lane.cursor node.pc.count]
  idle : ¬ node.pc.reading i → lane.windows.drop lane.served = []
  window : ∀ w, (i, w) ∈ node.pc.windows → WindowOk src lane.cursor node.pc.count w

/-- The program counter visits the node's lanes and ports in order, each once. -/
def ShapeOk (n : top.Node) (node : NodeState top.Port top.Lane α σ) : Prop :=
  match node.pc with
  | .waitRoom todo _ => todo <:+ (top.node n).rxPorts
  | .align todo room => node.epochSet = false ∧ todo <:+ top.incoming n ∧ 0 < room
  | .waitData todo _ room => node.epochSet = true ∧ todo <:+ top.incoming n ∧ 0 < room
  | .read done todo count =>
      node.epochSet = true ∧ done.map Prod.fst ++ todo = top.incoming n ∧ 0 < count
  | .reserve windows done todo count =>
      node.epochSet = true ∧ windows.map Prod.fst = top.incoming n ∧
        done.map Prod.fst ++ todo = (top.node n).rxPorts ∧ 0 < count
  | .process windows tails count =>
      node.epochSet = true ∧ windows.map Prod.fst = top.incoming n ∧
        tails.map Prod.fst = (top.node n).rxPorts ∧ 0 < count
  | .commit todo rows count =>
      node.epochSet = true ∧ todo <:+ top.incoming n ∧
        rows.map Prod.fst = (top.node n).rxPorts ∧ 0 < count
  | .push todo count =>
      node.epochSet = true ∧ todo.map Prod.fst <:+ (top.node n).rxPorts ∧ 0 < count
  | .threw _ _ => node.epochSet = true
  | .failed _ => False

/-- A REP worker's place in the port's row stream: `popped` are the rows consumed,
`rest` the rows still in the ring. -/
def RepOk (rx : RxState α) (popped rest : List (List α)) : Prop :=
  match rx.rep with
  | .waitReq | .waitRow => rx.replies = popped
  | .send (.copied samples) _ => popped = rx.replies ++ [samples]
  | .send (.inPlace head n) take => rx.replies = popped ∧ n = take ∧
      head = rx.rxCursor % rx.rxRing.capacity ∧ head + n ≤ rx.rxRing.capacity ∧
      ∃ row rest', rest = row :: rest' ∧ row.length = take
  | .release take => ∃ row rest', rest = row :: rest' ∧ row.length = take ∧
      rx.replies = popped ++ [row]
  | .failed _ => False

/-- RX half: the ring carries the published rows, its window starts at the REP
worker's cursor, and `rx_slots` are the lengths of the rows in it. -/
structure RxOk (rx : RxState α) : Prop where
  carries : rx.rxRing.Carries rx.published.flatten
  rows_pos : ∀ row ∈ rx.published, 0 < row.length
  exists_split : ∃ popped rest, rx.published = popped ++ rest ∧
    rx.rxCursor = popped.flatten.length ∧ rx.rxRing.earliestSequence = rx.rxCursor ∧
    rx.rxSlots = rest.map List.length ∧ RepOk rx popped rest

/-- A computed row is at hand: in the producer's buffer, or in the ring's free cells. -/
def RowOk (rx : RxState α) (row : List α) : Row α → Prop
  | .staged samples => samples = row
  | .inRing => rx.rxRing.Staged row

/-- Output side of node `n` at its port `p`: the claimed room is there, reserved tails
stay at the tail, and the published rows are the produced ones up to the row that is
still to be published. -/
structure OutOk (batch : ℕ) (p : top.Port) (node : NodeState top.Port top.Lane α σ)
    (rx : RxState α) : Prop where
  fits : rx.rxRing.size + node.pc.claimed p ≤ rx.rxRing.capacity
  highWater : rx.rxRing.size + node.pc.claimed p ≤ batch
  tail : ∀ t, (p, some t) ∈ node.pc.tails →
    t = rx.rxRing.nextSequence % rx.rxRing.capacity ∧ t + node.pc.count ≤ rx.rxRing.capacity
  produced : p ∉ node.pc.rows.map Prod.fst → rx.published = node.slots.map fun slot => slot.row p
  pending : ∀ r, (p, r) ∈ node.pc.rows → ∃ row, row.length = node.pc.count ∧
    (node.slots.map fun slot => slot.row p) = rx.published ++ [row] ∧ RowOk rx row r

/-- Every produced slot has rows of its window's length. -/
def SlotsOk (n : top.Node) (node : NodeState top.Port top.Lane α σ) : Prop :=
  ∀ slot ∈ node.slots, 0 < slot.count ∧ ∀ p ∈ (top.node n).rxPorts, (slot.row p).length = slot.count

/-- **The invariant of the relay.** -/
structure BrokerOk (s : BrokerState top α σ) : Prop where
  tx : ∀ p, TxOk (s.tx p)
  rx : ∀ p, RxOk (s.rx p)
  lane : ∀ i, LaneOk i (s.nodes (top.link i).dstNode) (s.tx (top.link i).srcIndex) (s.lanes i)
  shape : ∀ n, ShapeOk n (s.nodes n)
  slots : ∀ n, SlotsOk n (s.nodes n)
  out : ∀ n, ∀ p ∈ (top.node n).rxPorts, OutOk (top.port p).batch p (s.nodes n) (s.rx p)
  gaps : s.txSequenceGaps = 0

/-! ## Frame lemmas -/

/-- A TX ring never runs ahead of what the device has sent. -/
theorem TxOk.nextSequence_le {tx : TxState α} (h : TxOk tx) :
    tx.txRing.nextSequence ≤ tx.sent.length := by
  obtain ⟨landed, hc, hpre, -⟩ := h.exists_landed
  have := hpre.length_le
  rw [List.length_append] at this
  rw [hc.next]; omega

/-- What a held window shows: the samples at the cursor. -/
theorem TxOk.samples_eq {tx : TxState α} (h : TxOk tx) {cursor count : ℕ} {w : Window α}
    (hw : WindowOk tx cursor count w) (hlo : tx.txRing.earliestSequence ≤ cursor)
    (hhi : cursor + count ≤ tx.txRing.nextSequence) :
    w.samples tx.txRing.buffer = slice tx.sent cursor count := by
  obtain ⟨landed, hc, ⟨rest, hrest⟩, -⟩ := h.exists_landed
  cases w with
  | copied samples => exact hw
  | inPlace head n =>
      obtain ⟨rfl, rfl, hfit⟩ := hw
      rw [hc.next] at hhi
      show slice _ _ _ = _
      rw [hc.slice_view hlo hhi hfit, ← hrest, List.append_assoc, slice_append_of_le _ _ _ _ hhi]

/-- A slice of a longer history is the slice of the shorter one. -/
theorem slice_of_isPrefix {l l' : List α} (h : l <+: l') {q n : ℕ} (hn : q + n ≤ l.length) :
    slice l' q n = slice l q n := by
  obtain ⟨xs, rfl⟩ := h
  exact slice_append_of_le _ _ _ _ hn

/-- The front of a longer history is the front of the shorter one. -/
theorem take_of_isPrefix {l l' : List α} (h : l <+: l') {q : ℕ} (hq : q ≤ l.length) :
    l'.take q = l.take q := by
  obtain ⟨xs, rfl⟩ := h
  exact List.take_append_of_le_length hq

/-- Lanes only see their source ring grow, and lose samples before their cursor. -/
theorem LaneOk.of_source {i : top.Lane} {node : NodeState top.Port top.Lane α σ}
    {src src' : TxState α} {lane : LaneState α} (h : LaneOk i node src lane)
    (hlen : src.txRing.nextSequence ≤ src.sent.length) (hsent : src.sent <+: src'.sent)
    (hcap : src'.txRing.capacity = src.txRing.capacity)
    (hnext : src.txRing.nextSequence ≤ src'.txRing.nextSequence)
    (he : src'.txRing.earliestSequence ≤ lane.cursor) : LaneOk i node src' lane := by
  have hw := h.wanted_le
  have hin : node.pc.reading i → lane.cursor + node.pc.count ≤ src.sent.length := fun hr => by
    rw [ProducerPc.wanted_eq_count hr] at hw; omega
  refine ⟨h.origin, h.init_eq, h.uninit, he, by omega, h.served_le, ?_, fun hr => ?_, h.idle,
    fun w hmem => ?_⟩
  · rw [h.committed, take_of_isPrefix hsent (by omega)]
  · rw [h.inFlight hr, slice_of_isPrefix hsent (hin hr)]
  · have hold := h.window w hmem
    cases w with
    | copied samples =>
        show samples = _
        rw [slice_of_isPrefix hsent (hin (ProducerPc.reading_of_mem_windows hmem))]
        exact hold
    | inPlace head n =>
        obtain ⟨h₁, h₂, h₃⟩ := hold
        exact ⟨h₁, by rw [hcap]; exact h₂, by rw [hcap]; exact h₃⟩

/-- A lane that a producer step leaves alone stays as good as its new program counter asks. -/
theorem LaneOk.of_node {i : top.Lane} {node node' : NodeState top.Port top.Lane α σ}
    {src : TxState α} {lane : LaneState α} (h : LaneOk i node src lane)
    (hinit : (node'.epochSet || node'.pc.alignedLane i) = (node.epochSet || node.pc.alignedLane i))
    (hwanted : lane.cursor + node'.pc.wanted i ≤ src.txRing.nextSequence)
    (hreading : node'.pc.reading i ↔ node.pc.reading i)
    (hcount : node.pc.reading i → node'.pc.count = node.pc.count)
    (hwindows : ∀ w, (i, w) ∈ node'.pc.windows → (i, w) ∈ node.pc.windows) :
    LaneOk i node' src lane := by
  refine ⟨h.origin, by rw [hinit]; exact h.init_eq, h.uninit, h.earliest_le, hwanted, h.served_le,
    h.committed, fun hr => ?_, fun hr => h.idle (fun hr' => hr (hreading.mpr hr')),
    fun w hmem => ?_⟩
  · rw [h.inFlight (hreading.mp hr), hcount (hreading.mp hr)]
  · have hw := hwindows w hmem
    rw [hcount (ProducerPc.reading_of_mem_windows hw)]
    exact h.window w hw

/-- Output side of a step that changes no row: the claimed room is there, and there are
no new tails. -/
theorem OutOk.of_node {batch : ℕ} {p : top.Port} {node node' : NodeState top.Port top.Lane α σ}
    {rx : RxState α} (h : OutOk batch p node rx)
    (hclaimed : node'.pc.claimed p ≤ node.pc.claimed p ∨
      rx.rxRing.size + node'.pc.claimed p ≤ rx.rxRing.capacity ∧
        rx.rxRing.size + node'.pc.claimed p ≤ batch)
    (htails : ∀ t, (p, some t) ∈ node'.pc.tails →
      (p, some t) ∈ node.pc.tails ∧ node'.pc.count = node.pc.count)
    (hrows : node'.pc.rows = node.pc.rows)
    (hcount : node.pc.rows ≠ [] → node'.pc.count = node.pc.count)
    (hslots : node'.slots = node.slots) : OutOk batch p node' rx := by
  have h₁ := h.fits
  have h₂ := h.highWater
  refine ⟨by omega, by omega, fun t ht => ?_, fun hp => ?_, fun r hr => ?_⟩
  · obtain ⟨ht', hc⟩ := htails t ht
    rw [hc]; exact h.tail t ht'
  · rw [hslots]; exact h.produced (by rw [← hrows]; exact hp)
  · rw [hrows] at hr
    rw [hcount (List.ne_nil_of_mem hr), hslots]
    exact h.pending r hr

/-- Output side under a step of the REP worker: it only discards, and so only frees room. -/
theorem OutOk.of_rx {batch : ℕ} {p : top.Port} {node : NodeState top.Port top.Lane α σ}
    {rx rx' : RxState α} (h : OutOk batch p node rx)
    (hbuf : rx'.rxRing.buffer = rx.rxRing.buffer)
    (hnext : rx'.rxRing.nextSequence = rx.rxRing.nextSequence)
    (hsize : rx'.rxRing.size ≤ rx.rxRing.size) (hpub : rx'.published = rx.published) :
    OutOk batch p node rx' := by
  have h₁ := h.fits
  have h₂ := h.highWater
  have hcap : rx'.rxRing.capacity = rx.rxRing.capacity := congrArg List.length hbuf
  refine ⟨by omega, by omega, fun t ht => ?_, fun hp => ?_, fun r hr => ?_⟩
  · rw [hnext, hcap]; exact h.tail t ht
  · rw [hpub]; exact h.produced hp
  · obtain ⟨row, hlen, hslots, hrow⟩ := h.pending r hr
    refine ⟨row, hlen, by rw [hpub]; exact hslots, ?_⟩
    cases r with
    | staged samples => exact hrow
    | inRing =>
        intro j hj
        rw [hbuf, hnext, hcap]; exact hrow j hj

/-- A puller step changes one TX half; the lanes reading it must not lose anything. -/
theorem BrokerOk.modifyTx {s : BrokerState top α σ} (h : BrokerOk s) (p : top.Port)
    (f : TxState α → TxState α) (hok : TxOk (f (s.tx p)))
    (hsent : (s.tx p).sent <+: (f (s.tx p)).sent)
    (hcap : (f (s.tx p)).txRing.capacity = (s.tx p).txRing.capacity)
    (hnext : (s.tx p).txRing.nextSequence ≤ (f (s.tx p)).txRing.nextSequence)
    (he : ∀ i, (top.link i).srcIndex = p →
      (f (s.tx p)).txRing.earliestSequence ≤ (s.lanes i).cursor) :
    BrokerOk (s.modifyTx p f) := by
  refine ⟨fun q => ?_, h.rx, fun i => ?_, h.shape, h.slots, h.out, h.gaps⟩
  · by_cases hq : q = p
    · subst hq; rw [s.tx_modifyTx_self]; exact hok
    · rw [s.tx_modifyTx_of_ne f hq]; exact h.tx q
  · by_cases hq : (top.link i).srcIndex = p
    · have hi := h.lane i
      rw [hq] at hi ⊢
      rw [s.tx_modifyTx_self]
      exact hi.of_source (h.tx p).nextSequence_le hsent hcap hnext (he i hq)
    · rw [s.tx_modifyTx_of_ne f hq]; exact h.lane i

/-- A producer step of node `n` touches the node, its own lanes and its own RX ports. -/
theorem BrokerOk.of_producer {s s' : BrokerState top α σ} (h : BrokerOk s) (n : top.Node)
    (htx : s'.tx = s.tx) (hgaps : s'.txSequenceGaps = s.txSequenceGaps)
    (hnodes : ∀ m, m ≠ n → s'.nodes m = s.nodes m)
    (hlanes : ∀ i, (top.link i).dstNode ≠ n → s'.lanes i = s.lanes i)
    (hrx : ∀ p, p ∉ (top.node n).rxPorts → s'.rx p = s.rx p)
    (hshape : ShapeOk n (s'.nodes n)) (hslots : SlotsOk n (s'.nodes n))
    (hlane : ∀ i ∈ top.incoming n,
      LaneOk i (s'.nodes n) (s.tx (top.link i).srcIndex) (s'.lanes i))
    (hrxok : ∀ p ∈ (top.node n).rxPorts, RxOk (s'.rx p))
    (hout : ∀ p ∈ (top.node n).rxPorts, OutOk (top.port p).batch p (s'.nodes n) (s'.rx p)) :
    BrokerOk s' := by
  refine ⟨fun p => by rw [htx]; exact h.tx p, fun p => ?_, fun i => ?_, fun m => ?_, fun m => ?_,
    fun m p hp => ?_, by rw [hgaps]; exact h.gaps⟩
  · by_cases hp : p ∈ (top.node n).rxPorts
    · exact hrxok p hp
    · rw [hrx p hp]; exact h.rx p
  · rw [htx]
    by_cases hi : (top.link i).dstNode = n
    · have := hlane i (top.mem_incoming.mpr hi)
      rw [hi]; exact this
    · rw [hnodes _ hi, hlanes i hi]; exact h.lane i
  · by_cases hm : m = n
    · subst hm; exact hshape
    · rw [hnodes m hm]; exact h.shape m
  · by_cases hm : m = n
    · subst hm; exact hslots
    · rw [hnodes m hm]; exact h.slots m
  · by_cases hm : m = n
    · subst hm; exact hout p hp
    · have hp' : p ∉ (top.node n).rxPorts := fun hmem => hm (top.rxPorts_disjoint m n p hp hmem)
      rw [hnodes m hm, hrx p hp']
      exact h.out m p hp

/-- A producer step that only moves the program counter. -/
theorem BrokerOk.goto {s : BrokerState top α σ} (h : BrokerOk s) (n : top.Node)
    (pc : ProducerPc top.Port top.Lane α)
    (hshape : ShapeOk n { s.nodes n with pc := pc })
    (hlane : ∀ i ∈ top.incoming n, LaneOk i { s.nodes n with pc := pc }
      (s.tx (top.link i).srcIndex) (s.lanes i))
    (hout : ∀ p ∈ (top.node n).rxPorts,
      OutOk (top.port p).batch p { s.nodes n with pc := pc } (s.rx p)) :
    BrokerOk (s.goto n pc) := by
  refine h.of_producer n rfl rfl (fun m hm => s.nodes_goto_of_ne pc hm) (fun _ _ => rfl)
    (fun _ _ => rfl) ?_ ?_ ?_ (fun p _ => h.rx p) ?_ <;> rw [s.nodes_goto_self]
  · exact hshape
  · exact h.slots n
  · exact hlane
  · exact hout

/-- A producer step that updates one lane and moves on. -/
theorem BrokerOk.modifyLane_goto {s : BrokerState top α σ} (h : BrokerOk s) (n : top.Node)
    (k : top.Lane) (hk : k ∈ top.incoming n) (f : LaneState α → LaneState α)
    (pc : ProducerPc top.Port top.Lane α)
    (hshape : ShapeOk n { s.nodes n with pc := pc })
    (hself : LaneOk k { s.nodes n with pc := pc } (s.tx (top.link k).srcIndex) (f (s.lanes k)))
    (hlane : ∀ i ∈ top.incoming n, i ≠ k → LaneOk i { s.nodes n with pc := pc }
      (s.tx (top.link i).srcIndex) (s.lanes i))
    (hout : ∀ p ∈ (top.node n).rxPorts,
      OutOk (top.port p).batch p { s.nodes n with pc := pc } (s.rx p)) :
    BrokerOk ((s.modifyLane k f).goto n pc) := by
  have hlanes : ∀ i, i ≠ k → ((s.modifyLane k f).goto n pc).lanes i = s.lanes i :=
    fun i hi => s.lanes_modifyLane_of_ne f hi
  refine h.of_producer n rfl rfl (fun m hm => BrokerState.nodes_goto_of_ne _ pc hm)
    (fun i hi => hlanes i ?_) (fun _ _ => rfl) ?_ ?_ (fun i hi => ?_) (fun p _ => h.rx p) ?_
  · rintro rfl
    exact hi (top.mem_incoming.mp hk)
  all_goals rw [BrokerState.nodes_goto_self, BrokerState.nodes_modifyLane]
  · exact hshape
  · exact h.slots n
  · by_cases hik : i = k
    · subst hik
      rw [BrokerState.lanes_goto, BrokerState.lanes_modifyLane_self]
      exact hself
    · rw [hlanes i hik]; exact hlane i hi hik
  · exact hout

end Invariant
