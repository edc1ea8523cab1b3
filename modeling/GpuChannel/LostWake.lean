/-
# No lost wake

What one step of a worker does to the data that the others check: everything that can make a guard
true is followed by a notification.  The relay with its signals is an instance of waiting on event
counts, and the rule for these gives the result.
-/
import GpuChannel.RingProgress
import GpuChannel.Relay

open EventCount

section LostWake

variable {top : Topology} {α σ : Type*}

/-! ## The guards as conditions -/

/-- A running minimum is positive if every entry is. -/
theorem foldl_min_pos {β : Type*} (f : β → ℕ) (l : List β) (b : ℕ) :
    0 < l.foldl (fun acc x => min acc (f x)) b ↔ 0 < b ∧ ∀ x ∈ l, 0 < f x := by
  induction l generalizing b with
  | nil => simp
  | cons a l ih =>
      rw [List.foldl_cons, ih, lt_min_iff, List.forall_mem_cons, and_assoc]

/-- A node has room to produce if every RX port has headroom. -/
theorem outputRoom_pos {s : BrokerState top α σ} {n : top.Node} :
    0 < outputRoom s n ↔ 0 < (top.node n).batch ∧
      ∀ r ∈ (top.node n).rxPorts, 0 < rxHeadroom (top.port r).batch (s.rx r).rxRing :=
  foldl_min_pos _ _ _

/-- A node has data if every incoming lane has some. -/
theorem commonData_pos {s : BrokerState top α σ} {n : top.Node} :
    0 < commonData s n ↔ 0 < (top.node n).batch ∧ ∀ k ∈ top.incoming n,
      0 < (s.source k).nextSequence - max (s.lanes k).cursor (s.source k).earliestSequence :=
  foldl_min_pos _ _ _

/-- A fuller RX ring has less headroom. -/
theorem rxHeadroom_anti {batch : ℕ} {ring ring' : IqRing α} (hcap : ring'.capacity = ring.capacity)
    (hsize : ring.size ≤ ring'.size) : rxHeadroom batch ring' ≤ rxHeadroom batch ring := by
  unfold rxHeadroom IqRing.freeCapacity
  dsimp only
  split_ifs <;> omega

/-! ## What a puller does to the others -/

/-- Releasing samples never moves the start of the ring back. -/
theorem IqRing.Carries.earliest_le_discardConsumed (p : top.Port) {ring : IqRing α}
    {landed : List α} (hc : ring.Carries landed) (lanes : top.Lane → LaneState α) :
    ring.earliestSequence ≤ (discardConsumed p ring lanes).earliestSequence := by
  unfold discardConsumed
  dsimp only
  split_ifs
  · rw [(hc.discardBefore _).2]
    exact le_max_left _ _
  · rw [(hc.discardBefore _).2]
    exact le_max_left _ _
  · exact le_rfl

/-- New samples are followed by a notification of every node that reads the port. -/
theorem TxOk.pullerStep_effect {p : top.Port} {dev : TxState α} (h : TxOk dev)
    (lanes : top.Lane → LaneState α) (received : Option (List α)) :
    dev.txRing.earliestSequence ≤ (dev.pullerStep p lanes received).txRing.earliestSequence ∧
      ((dev.pullerStep p lanes received).txRing.nextSequence = dev.txRing.nextSequence ∨
        pullerAfter p dev = .notify ((portConsumers top p).map .nodeProgress) true) := by
  obtain ⟨landed, hc, -, -⟩ := h.exists_landed
  unfold TxState.pullerStep pullerAfter
  cases hpc : dev.puller with
  | failed what => exact ⟨le_rfl, .inl rfl⟩
  | discard =>
      refine ⟨hc.earliest_le_discardConsumed p lanes, .inl ?_⟩
      dsimp only
      unfold discardConsumed
      dsimp only
      split_ifs <;> simp
  | act room =>
      dsimp only
      split_ifs
      · cases hpush : dev.txRing.push dev.pending with
        | none => exact ⟨le_rfl, .inl rfl⟩
        | some ring => exact ⟨(hc.push hpush).2.2.2.ge, .inr rfl⟩
      · exact ⟨le_rfl, .inl rfl⟩
      · cases received with
        | none => exact ⟨le_rfl, .inl rfl⟩
        | some samples =>
            dsimp only
            split_ifs <;> exact ⟨le_rfl, .inl rfl⟩

/-! ## What a REP worker does to the others -/

/-- A popped window is followed by a notification of the node. -/
theorem RxOk.repStep_effect {rx : RxState α} (h : RxOk rx) (knobs : Knobs) (p : top.Port)
    (ready : Bool) : (rx.repStep knobs (top.port p).id ready).rxRing = rx.rxRing ∨
      repAfter knobs p rx ready = notifyNode p := by
  obtain ⟨-, hpos, popped, rest, hsplit, -, -, hslots, -⟩ := h
  unfold RxState.repStep repAfter
  cases hpc : rx.rep with
  | failed what => exact .inl rfl
  | waitReq =>
      cases ready <;> exact .inl rfl
  | send reply take =>
      cases ready <;> exact .inl rfl
  | release take => exact .inr rfl
  | waitRow =>
      dsimp only
      cases hrest : rest with
      | nil =>
          rw [hslots, hrest]
          exact .inl rfl
      | cons row rest' =>
          have hrow : 0 < row.length := hpos row (by rw [hsplit, hrest]; simp)
          rw [hslots, hrest, List.map_cons]
          dsimp only
          cases if knobs.fewerCopies then rx.rxRing.view rx.rxCursor row.length else none with
          | some head => exact .inl rfl
          | none =>
              dsimp only
              cases rx.rxRing.read rx.rxCursor row.length with
              | none => exact .inl rfl
              | some samples => exact .inr (if_pos hrow)

/-- A REP worker that finds no window waits with none; a published window is never empty. -/
theorem RxOk.repStep_blocked {rx : RxState α} (h : RxOk rx) {knobs : Knobs} {p : top.Port}
    {ready : Bool} (hafter : repAfter knobs p rx ready = .blocked) :
    (rx.repStep knobs (top.port p).id ready).rxSlots = [] := by
  obtain ⟨-, hpos, popped, rest, hsplit, -, -, hslots, -⟩ := h
  unfold repAfter at hafter
  cases hpc : rx.rep with
  | failed what =>
      rw [hpc] at hafter
      exact absurd hafter (by simp)
  | waitReq =>
      rw [hpc] at hafter
      cases ready <;> exact absurd hafter (by simp)
  | send reply take =>
      rw [hpc] at hafter
      exact absurd hafter (by simp)
  | release take =>
      rw [hpc] at hafter
      exact absurd hafter (by simp [notifyNode])
  | waitRow =>
      rw [hpc] at hafter
      dsimp only at hafter
      cases hrest : rest with
      | nil =>
          -- no row is left, so none is waiting
          have hnone : rx.rxSlots = [] := by rw [hslots, hrest]; rfl
          unfold RxState.repStep
          rw [hpc]
          dsimp only
          rw [hnone]
          exact hnone
      -- a row that waits is viewed or read, and then the worker does not block
      | cons row rest' =>
          have hrow : 0 < row.length := hpos row (by rw [hsplit, hrest]; simp)
          rw [hslots, hrest, List.map_cons] at hafter
          dsimp only at hafter
          cases hview : (if knobs.fewerCopies then rx.rxRing.view rx.rxCursor row.length
              else none) with
          | some head =>
              rw [hview] at hafter
              exact absurd hafter (by simp)
          | none =>
              rw [hview] at hafter
              dsimp only at hafter
              cases hread : rx.rxRing.read rx.rxCursor row.length with
              | none =>
                  rw [hread] at hafter
                  exact absurd hafter (by simp)
              | some samples =>
                  rw [hread] at hafter
                  dsimp only at hafter
                  rw [if_pos hrow] at hafter
                  exact absurd hafter (by simp [notifyNode])

/-! ## What a producer does to the others -/

/-- **The effect of a step of the producer of `n`**, which goes on as `pc`.  A cursor that passes
samples and a published row are announced, or are going to be. -/
structure ProducerEffect (n : top.Node) (pc : Pc (Signal top)) (s s' : BrokerState top α σ) :
    Prop where
  tx : s'.tx = s.tx
  nodes : ∀ m, m ≠ n → s'.nodes m = s.nodes m
  lanes : ∀ i, (top.link i).dstNode ≠ n → s'.lanes i = s.lanes i
  cursor : ∀ i, (s'.lanes i).cursor = (s.lanes i).cursor ∨
    (s'.lanes i).cursor = (s.source i).earliestSequence ∨
    Owes owing pc s' (.producer n) (.txRoomChanged (top.link i).srcIndex)
  slots : ∀ p, (s'.rx p).rxSlots = (s.rx p).rxSlots ∨
    Owes owing pc s' (.producer n) (.rxDataChanged p)
  capacity : ∀ p, (s'.rx p).rxRing.capacity = (s.rx p).rxRing.capacity
  size : ∀ p, (s.rx p).rxRing.size ≤ (s'.rx p).rxRing.size

namespace ProducerEffect

/-- A step that does nothing has the effect of none. -/
theorem refl (s : BrokerState top α σ) (n : top.Node) (pc : Pc (Signal top)) :
    ProducerEffect n pc s s :=
  ⟨rfl, fun _ _ => rfl, fun _ _ => rfl, fun _ => .inl rfl, fun _ => .inl rfl, fun _ => rfl,
    fun _ => le_rfl⟩

/-- A step that only moves the program counter. -/
theorem modifyNode (s : BrokerState top α σ) (n : top.Node) (pc : Pc (Signal top))
    (f : NodeState top.Port top.Lane α σ → NodeState top.Port top.Lane α σ) :
    ProducerEffect n pc s (s.modifyNode n f) where
  tx := rfl
  nodes _ hm := s.nodes_modifyNode_of_ne f hm
  lanes _ _ := rfl
  cursor _ := .inl rfl
  slots _ := .inl rfl
  capacity _ := rfl
  size _ := le_rfl

/-- A step that updates one lane of the node and moves on. -/
theorem modifyLane {s : BrokerState top α σ} {n : top.Node} {k : top.Lane}
    (hk : k ∈ top.incoming n) (pc : Pc (Signal top)) (f : LaneState α → LaneState α)
    (next : ProducerPc top.Port top.Lane α)
    (hcursor : (f (s.lanes k)).cursor = (s.lanes k).cursor ∨
      (f (s.lanes k)).cursor = (s.source k).earliestSequence ∨
      Owes owing pc ((s.modifyLane k f).goto n next) (.producer n)
        (.txRoomChanged (top.link k).srcIndex)) :
    ProducerEffect n pc s ((s.modifyLane k f).goto n next) where
  tx := rfl
  nodes _ hm := BrokerState.nodes_goto_of_ne _ next hm
  lanes i hi := by
    refine s.lanes_modifyLane_of_ne f ?_
    rintro rfl
    exact hi (top.mem_incoming.mp hk)
  cursor i := by
    by_cases hik : i = k
    · subst hik
      rw [BrokerState.lanes_goto, BrokerState.lanes_modifyLane_self]
      exact hcursor
    · left
      rw [BrokerState.lanes_goto, s.lanes_modifyLane_of_ne f hik]
  slots _ := .inl rfl
  capacity _ := rfl
  size _ := le_rfl

end ProducerEffect

/-- Publishing a row never shrinks the ring. -/
theorem size_le_publish {rx : IqRing α} {l : List α} (hc : rx.Carries l) {count : ℕ} {row : Row α}
    {ring : IqRing α} (h : row.publish rx count = some ring) : rx.size ≤ ring.size := by
  cases row with
  | inRing =>
      obtain rfl := Option.some.inj h
      exact Nat.le_add_right _ _
  | staged samples =>
      rw [(hc.push h).2.2.1]
      exact Nat.le_add_right _ _

/-- Writing into reserved tails shows the others nothing. -/
theorem BrokerOk.process_effect {s : BrokerState top α σ} (h : BrokerOk s) {n : top.Node}
    {windows : List (top.Lane × Window α)} {tails : List (top.Port × Option ℕ)} {count : ℕ}
    (hpc : (s.nodes n).pc = .process windows tails count) {row : top.Port → List α}
    (hrow : ∀ p, (row p).length = count) (pc : Pc (Signal top))
    (f : NodeState top.Port top.Lane α σ → NodeState top.Port top.Lane α σ) :
    ProducerEffect n pc s
      (({ s with rx := fillRows tails row s.rx } : BrokerState top α σ).modifyNode n f) := by
  have hports : tails.map Prod.fst = (top.node n).rxPorts := by
    have hshape := h.shape n
    rw [ShapeOk, hpc] at hshape
    exact hshape.2.2.1
  have hring : ∀ p, (fillRows tails row s.rx p).rxRing.size = (s.rx p).rxRing.size ∧
      (fillRows tails row s.rx p).rxRing.capacity = (s.rx p).rxRing.capacity := by
    intro p
    by_cases hp : p ∈ (top.node n).rxPorts
    · obtain ⟨-, hsize, hcap, -⟩ := h.fillRows_spec hpc hrow hp
      exact ⟨hsize, hcap⟩
    · rw [fillRows_of_notMem tails row s.rx (by rw [hports]; exact hp)]
      exact ⟨rfl, rfl⟩
  refine ⟨rfl, fun m hm => BrokerState.nodes_modifyNode_of_ne _ f hm, fun _ _ => rfl,
    fun _ => .inl rfl, ?_, fun p => (hring p).2, fun p => (hring p).1.ge⟩
  intro p
  left
  show (fillRows tails row s.rx p).rxSlots = (s.rx p).rxSlots
  unfold fillRows
  split <;> rfl

/-- **The effect of a producer's step.** Each pass changes lanes and ports of its own node only. -/
theorem BrokerOk.producer_effect {s : BrokerState top α σ} (h : BrokerOk s) (knobs : Knobs)
    (proc : Processor top α σ) (n : top.Node) :
    ProducerEffect n (producerAfter n (s.nodes n)) s (producerStep knobs proc s n) := by
  have hshape := h.shape n
  unfold producerStep
  dsimp only
  cases hpc : (s.nodes n).pc with
  | waitRoom todo room =>
      cases todo with
      | cons r todo => exact .modifyNode s n _ _
      | nil =>
          dsimp only
          split_ifs <;> exact .modifyNode s n _ _
  | align todo room =>
      rw [ShapeOk, hpc] at hshape
      cases todo with
      | cons k todo =>
          exact .modifyLane (hshape.2.1.subset List.mem_cons_self) _ _ _ (.inr (.inl rfl))
      | nil => exact .modifyNode s n _ _
  | waitData todo common room =>
      rw [ShapeOk, hpc] at hshape
      cases todo with
      | cons k todo =>
          have hk : k ∈ top.incoming n := hshape.2.1.subset List.mem_cons_self
          -- no lane falls behind its ring, so the branch that catches up is not taken
          have he : ¬ (s.lanes k).cursor < (s.source k).earliestSequence :=
            Nat.not_lt.mpr (h.lane_of_mem hk).earliest_le
          dsimp only
          rw [if_neg he]
          exact .modifyNode s n _ _
      | nil =>
          dsimp only
          split_ifs <;> exact .modifyNode s n _ _
  | read done todo count =>
      rw [ShapeOk, hpc] at hshape
      cases todo with
      | cons k todo =>
          have hk : k ∈ top.incoming n := by
            rw [← hshape.2.1]
            exact List.mem_append_right _ List.mem_cons_self
          obtain ⟨w, hread, -, -⟩ := h.read_visit knobs hpc
          dsimp only
          rw [hread]
          exact .modifyLane hk _ _ _ (.inl rfl)
      | nil => exact .modifyNode s n _ _
  | reserve windows done todo count =>
      cases todo with
      | cons r todo => exact .modifyNode s n _ _
      | nil => exact .modifyNode s n _ _
  | process windows tails count =>
      dsimp only
      cases proc.process n (s.nodes n).proc
          (windows.map fun kw => kw.2.samples (s.source kw.1).buffer) count with
      | error what => exact .modifyNode s n _ _
      | ok out => exact h.process_effect hpc (length_portRow top n count out.2) _ _
  | commit todo rows count =>
      rw [ShapeOk, hpc] at hshape
      cases todo with
      | cons k todo =>
          have hnodup := (top.nodup_incoming n).sublist hshape.2.1.sublist
          have hk : k ∈ top.incoming n := hshape.2.1.subset List.mem_cons_self
          refine .modifyLane hk _ _ _ (.inr (.inr ?_))
          -- the committed lane is no longer among those still to commit
          unfold producerAfter owing
          rw [hpc]
          show producerOwing n (((s.modifyLane k _).goto n (.commit todo rows count)).nodes n).pc _
          rw [BrokerState.nodes_goto_self]
          exact ⟨k, hk, (List.nodup_cons.mp hnodup).1, rfl⟩
      | nil => exact .modifyNode s n _ _
  | push todo count =>
      rw [ShapeOk, hpc] at hshape
      cases todo with
      | cons rrow todo =>
          obtain ⟨r, row⟩ := rrow
          obtain ⟨ring, hring, hcap, -, -⟩ := h.push_visit hpc
          have hsuf := hshape.2.1
          rw [List.map_cons] at hsuf
          have hnodup := (top.rxPorts_nodup n).sublist hsuf.sublist
          have hr : r ∈ (top.node n).rxPorts := hsuf.subset List.mem_cons_self
          dsimp only
          rw [hring]
          refine ⟨rfl, fun m hm => BrokerState.nodes_goto_of_ne _ _ hm, fun _ _ => rfl,
            fun _ => .inl rfl, ?_, ?_, ?_⟩
          -- the ring of the row that was pushed, and the other rings
          · intro p
            by_cases hp : p = r
            · subst hp
              right
              unfold producerAfter owing
              rw [hpc]
              show producerOwing n (((s.modifyRx p _).goto n (.push todo count)).nodes n).pc _
              rw [BrokerState.nodes_goto_self]
              exact ⟨p, hr, (List.nodup_cons.mp hnodup).1, rfl⟩
            · left
              rw [BrokerState.rx_goto, s.rx_modifyRx_of_ne _ hp]
          · intro p
            by_cases hp : p = r
            · subst hp
              rw [BrokerState.rx_goto, BrokerState.rx_modifyRx_self]
              exact hcap
            · rw [BrokerState.rx_goto, s.rx_modifyRx_of_ne _ hp]
          · intro p
            by_cases hp : p = r
            · subst hp
              rw [BrokerState.rx_goto, BrokerState.rx_modifyRx_self]
              exact size_le_publish (h.rx p).carries hring
            · rw [BrokerState.rx_goto, s.rx_modifyRx_of_ne _ hp]
      | nil => exact .modifyNode s n _ _
  | threw count what => exact .refl s n _
  | failed what => exact .refl s n _

/-! ## The discipline -/

def producerStartsOver (n : top.Node) : ProducerPc top.Port top.Lane α → Prop
  | .waitRoom todo room => todo = (top.node n).rxPorts ∧ room = (top.node n).batch
  | .waitData todo common _ => todo = top.incoming n ∧ common = (top.node n).batch
  | .push _ _ => True
  | _ => False

/-- A worker at the top of a wait loop, or past its notifications: nothing was checked yet. -/
def startsOver (s : BrokerState top α σ) : Worker top → Prop
  | .puller p => ∀ room, (s.tx p).puller ≠ .act room
  | .producer n => producerStartsOver n (s.nodes n).pc
  | .rep _ => True

def producerMissed (s : BrokerState top α σ) (n : top.Node) :
    ProducerPc top.Port top.Lane α → Prop
  | .waitRoom _ room => room = 0 ∧ 0 < outputRoom s n
  | .waitData _ common _ => common = 0 ∧ 0 < commonData s n
  | _ => False

/-- A check of a running worker has failed, and would pass by now. -/
def missed (s : BrokerState top α σ) : Worker top → Prop
  | .puller p => (∃ room, (s.tx p).puller = .act room) ∧
      discardConsumed p (s.tx p).txRing s.lanes ≠ (s.tx p).txRing
  | .producer n => producerMissed s n (s.nodes n).pc
  | .rep _ => False

/-- What a waiting worker has to be told of. -/
def ready (s : BrokerState top α σ) : Worker top → Prop
  | .puller p => discardConsumed p (s.tx p).txRing s.lanes ≠ (s.tx p).txRing ∨
      messageFits p (s.tx p) (s.tx p).txRing
  | w => waitGuard s w

/-- A guard that passes is what the worker has to be told of. -/
theorem ready_of_waitGuard {s : BrokerState top α σ} {w : Worker top} (h : waitGuard s w) :
    ready s w := by
  cases w with
  | puller p =>
      by_cases hheld : discardConsumed p (s.tx p).txRing s.lanes = (s.tx p).txRing
      · right
        change messageFits p (s.tx p) (discardConsumed p (s.tx p).txRing s.lanes) at h
        rw [hheld] at h
        exact h
      · exact .inl hheld
  | producer n => exact h
  | rep p => exact h

/-- The relay's invariant; the room that a puller found is the room of its ring. -/
structure WaitOk (s : BrokerState top α σ) : Prop extends BrokerOk s where
  room : ∀ p room, (s.tx p).puller = .act room → room = (s.tx p).txRing.freeCapacity

/-- A cursor that was never aligned stands at zero. -/
theorem BrokerOk.uninit {s : BrokerState top α σ} (h : BrokerOk s) (i : top.Lane)
    (hinit : (s.lanes i).cursorInit = false) : (s.lanes i).cursor = 0 :=
  ((h.lane i).uninit hinit).1

/-- A ring holds everything that a lane of its port has not read. -/
theorem BrokerOk.source_le {s : BrokerState top α σ} (h : BrokerOk s) (p : top.Port)
    (i : top.Lane) (hi : (top.link i).srcIndex = p) :
    (s.tx p).txRing.earliestSequence ≤ (s.lanes i).cursor :=
  hi ▸ (h.lane i).earliest_le

/-- The puller has nothing to release exactly if some cursor holds the ring. -/
theorem BrokerOk.held_iff {s : BrokerState top α σ} (h : BrokerOk s) (p : top.Port) :
    discardConsumed p (s.tx p).txRing s.lanes = (s.tx p).txRing
      ↔ Held p (s.tx p).txRing s.lanes := by
  obtain ⟨landed, hc, -, -⟩ := (h.tx p).exists_landed
  exact discardConsumed_eq_iff hc (h.source_le p) h.uninit

section Steps

variable (knobs : Knobs) (proc : Processor top α σ) {s : BrokerState top α σ}

/-- A puller's step is a step on its TX port. -/
theorem brokerStep_puller (p : top.Port) (received : Option (List α)) :
    brokerStep knobs proc s (.puller p received)
      = s.modifyTx p fun dev => dev.pullerStep p s.lanes received := rfl

/-- A producer's step is a step of its node. -/
theorem brokerStep_producer (n : top.Node) :
    brokerStep knobs proc s (.producer n) = producerStep knobs proc s n := rfl

/-- A REP worker's step is a step on its RX port. -/
theorem brokerStep_rep (p : top.Port) (isReady : Bool) :
    brokerStep knobs proc s (.rep p isReady)
      = s.modifyRx p fun port => port.repStep knobs (top.port p).id isReady := rfl

/-- The TX port behind its puller's step. -/
theorem brokerStep_puller_tx (p : top.Port) (received : Option (List α)) :
    (brokerStep knobs proc s (.puller p received)).tx p
      = (s.tx p).pullerStep p s.lanes received := by
  rw [brokerStep_puller, s.tx_modifyTx_self]

/-- The RX port behind its REP worker's step. -/
theorem brokerStep_rep_rx (p : top.Port) (isReady : Bool) :
    (brokerStep knobs proc s (.rep p isReady)).rx p
      = (s.rx p).repStep knobs (top.port p).id isReady := by
  rw [brokerStep_rep, s.rx_modifyRx_self]

/-! ### What the other workers leave alone -/

/-- Only the puller of a port changes its TX half. -/
theorem brokerStep_tx_of_ne (h : BrokerOk s) {a : BrokerAction top α} {p : top.Port}
    (hne : Worker.puller p ≠ a.worker) : (brokerStep knobs proc s a).tx p = s.tx p := by
  cases a with
  | puller q received =>
      rw [brokerStep_puller, s.tx_modifyTx_of_ne]
      rintro rfl
      exact hne rfl
  | producer n => exact congrFun (h.producer_effect knobs proc n).tx p
  | rep q ready => rfl

/-- Only the producer of a node moves its program counter. -/
theorem brokerStep_nodes_of_ne (h : BrokerOk s) {a : BrokerAction top α} {n : top.Node}
    (hne : Worker.producer n ≠ a.worker) : (brokerStep knobs proc s a).nodes n = s.nodes n := by
  cases a with
  | puller q received => rfl
  | producer m =>
      refine (h.producer_effect knobs proc m).nodes n ?_
      rintro rfl
      exact hne rfl
  | rep q ready => rfl

/-- The step of `a` is followed by a notification of `sig`. -/
def Announced (s : BrokerState top α σ) (a : BrokerAction top α) (sig : Signal top) : Prop :=
  Owes owing (brokerAfter knobs s a) (brokerStep knobs proc s a) a.worker sig

/-- Output room of a node comes from its REP workers, which announce it. -/
theorem outputRoom_frame (h : BrokerOk s) {a : BrokerAction top α} {n : top.Node}
    (hroom : 0 < outputRoom (brokerStep knobs proc s a) n) :
    0 < outputRoom s n ∨ Announced knobs proc s a (.nodeProgress n) := by
  obtain ⟨hbatch, hports⟩ := outputRoom_pos.mp hroom
  by_cases hold : ∀ r ∈ (top.node n).rxPorts, 0 < rxHeadroom (top.port r).batch (s.rx r).rxRing
  · exact .inl (outputRoom_pos.mpr ⟨hbatch, hold⟩)
  · rw [not_forall] at hold
    obtain ⟨r, hold⟩ := hold
    rw [Classical.not_imp] at hold
    obtain ⟨hr, hfull⟩ := hold
    have hnew := hports r hr
    cases a with
    | puller q received => exact absurd hnew hfull
    | producer m =>
        have heffect := h.producer_effect knobs proc m
        exact absurd (hnew.trans_le (rxHeadroom_anti (heffect.capacity r) (heffect.size r))) hfull
    | rep q isReady =>
        right
        by_cases hqr : r = q
        · subst hqr
          rcases (h.rx r).repStep_effect knobs r isReady with hsame | hnotify
          · rw [brokerStep_rep, s.rx_modifyRx_self, hsame] at hnew
            exact absurd hnew hfull
          · unfold Announced
            rw [show brokerAfter knobs s (.rep r isReady) = notifyNode r from hnotify]
            show Signal.nodeProgress n ∈ (rxNodeIndex top r).toList.map Signal.nodeProgress
            rw [rxNodeIndex_eq hr]
            exact List.mem_singleton.mpr rfl
        · rw [brokerStep_rep, s.rx_modifyRx_of_ne _ hqr] at hnew
          exact absurd hnew hfull

/-- Data of a node comes from the pullers of its sources, which announce it. -/
theorem commonData_frame (h : BrokerOk s) {a : BrokerAction top α} {n : top.Node}
    (hne : Worker.producer n ≠ a.worker)
    (hdata : 0 < commonData (brokerStep knobs proc s a) n) :
    0 < commonData s n ∨ Announced knobs proc s a (.nodeProgress n) := by
  obtain ⟨hbatch, hlanes⟩ := commonData_pos.mp hdata
  -- data that was not there before came from the source of one of the links
  by_cases hold : ∀ k ∈ top.incoming n, 0 < (s.source k).nextSequence
      - max (s.lanes k).cursor (s.source k).earliestSequence
  · exact .inl (commonData_pos.mpr ⟨hbatch, hold⟩)
  · rw [not_forall] at hold
    obtain ⟨k, hold⟩ := hold
    rw [Classical.not_imp] at hold
    obtain ⟨hk, hempty⟩ := hold
    have hnew := hlanes k hk
    cases a with
    | rep q isReady => exact absurd hnew hempty
    | producer m =>
        have heffect := h.producer_effect knobs proc m
        have hdst : (top.link k).dstNode ≠ m := by
          rw [top.mem_incoming.mp hk]
          rintro rfl
          exact hne rfl
        unfold BrokerState.source at hnew
        rw [brokerStep_producer, heffect.tx, heffect.lanes k hdst] at hnew
        exact absurd hnew hempty
    -- only the puller of that source adds samples
    | puller q received =>
        right
        by_cases hsrc : (top.link k).srcIndex = q
        · subst hsrc
          obtain ⟨hearly, hnext⟩ := (h.tx _).pullerStep_effect s.lanes received
          rcases hnext with hsame | hnotify
          · unfold BrokerState.source at hnew hempty
            rw [brokerStep_puller, s.tx_modifyTx_self, hsame, s.lanes_modifyTx] at hnew
            omega
          · unfold Announced
            rw [show brokerAfter knobs s (.puller (top.link k).srcIndex received)
              = .notify ((portConsumers top (top.link k).srcIndex).map .nodeProgress) true
              from hnotify]
            refine List.mem_map_of_mem ?_
            rw [← top.mem_incoming.mp hk]
            exact mem_portConsumers k
        · unfold BrokerState.source at hnew
          rw [brokerStep_puller, s.tx_modifyTx_of_ne _ hsrc, s.lanes_modifyTx] at hnew
          exact absurd hnew hempty

/-- Room in a TX ring comes from the cursors of its lanes, whose producers announce it. -/
theorem held_frame (h : BrokerOk s) {a : BrokerAction top α} {p : top.Port}
    (hne : Worker.puller p ≠ a.worker) (hheld : Held p (s.tx p).txRing s.lanes) :
    Held p ((brokerStep knobs proc s a).tx p).txRing (brokerStep knobs proc s a).lanes ∨
      Announced knobs proc s a (.txRoomChanged p) := by
  rw [brokerStep_tx_of_ne knobs proc h hne]
  rcases hheld with hsize | ⟨i, hi, hcursor⟩
  · exact .inl (.inl hsize)
  · cases a with
    | puller q received => exact .inl (.inr ⟨i, hi, hcursor⟩)
    | rep q isReady => exact .inl (.inr ⟨i, hi, hcursor⟩)
    | producer n =>
        rcases (h.producer_effect knobs proc n).cursor i with hsame | hearly | howes
        · exact .inl (.inr ⟨i, hi, hsame.le.trans hcursor⟩)
        · refine .inl (.inr ⟨i, hi, hearly.le.trans ?_⟩)
          unfold BrokerState.source
          rw [hi]
        · exact .inr (hi ▸ howes)

/-- Windows of a port come from the producer of its node, which announces them. -/
theorem rxSlots_frame (h : BrokerOk s) {a : BrokerAction top α} {p : top.Port}
    (hne : Worker.rep p ≠ a.worker) (hslots : ((brokerStep knobs proc s a).rx p).rxSlots ≠ []) :
    (s.rx p).rxSlots ≠ [] ∨ Announced knobs proc s a (.rxDataChanged p) := by
  cases a with
  | puller q received => exact .inl hslots
  | producer n =>
      refine ((h.producer_effect knobs proc n).slots p).imp (fun hsame => ?_) id
      rw [← hsame]
      exact hslots
  | rep q isReady =>
      left
      have hpq : p ≠ q := by
        rintro rfl
        exact hne rfl
      rw [brokerStep_rep, s.rx_modifyRx_of_ne _ hpq] at hslots
      exact hslots

/-! ### The obligations -/

/-- What a producer misses behind another's step, it missed before or is told. -/
theorem producerMissed_frame (h : BrokerOk s) {a : BrokerAction top α} {n : top.Node}
    (hne : Worker.producer n ≠ a.worker) {pc : ProducerPc top.Port top.Lane α}
    (hm : producerMissed (brokerStep knobs proc s a) n pc) :
    producerMissed s n pc ∨ Announced knobs proc s a (.nodeProgress n) := by
  cases pc with
  | waitRoom todo room =>
      exact (outputRoom_frame knobs proc h hm.2).imp (fun hroom => ⟨hm.1, hroom⟩) id
  | waitData todo common room =>
      exact (commonData_frame knobs proc h hne hm.2).imp (fun hdata => ⟨hm.1, hdata⟩) id
  | _ => exact hm.elim

/-- A guard of a producer that holds behind another's step held before or is told. -/
theorem producerGuard_frame (h : BrokerOk s) {a : BrokerAction top α} {n : top.Node}
    (hne : Worker.producer n ≠ a.worker) {pc : ProducerPc top.Port top.Lane α}
    (hg : producerGuard (brokerStep knobs proc s a) n pc) :
    producerGuard s n pc ∨ Announced knobs proc s a (.nodeProgress n) := by
  cases pc with
  | waitRoom todo room => exact outputRoom_frame knobs proc h hg
  | waitData todo common room => exact commonData_frame knobs proc h hne hg
  | _ => exact hg.elim

/-- A puller whose ring had nothing to release is told when it has. -/
theorem discardConsumed_frame (h : BrokerOk s) {a : BrokerAction top α} {p : top.Port}
    (hne : Worker.puller p ≠ a.worker)
    (hd : discardConsumed p ((brokerStep knobs proc s a).tx p).txRing
      (brokerStep knobs proc s a).lanes ≠ ((brokerStep knobs proc s a).tx p).txRing) :
    discardConsumed p (s.tx p).txRing s.lanes ≠ (s.tx p).txRing ∨
      Announced knobs proc s a (.txRoomChanged p) := by
  by_cases hheld : discardConsumed p (s.tx p).txRing s.lanes = (s.tx p).txRing
  · rcases held_frame knobs proc h hne ((h.held_iff p).mp hheld) with hstays | hannounced
    · exact absurd (((h.step knobs proc a).held_iff p).mpr hstays) hd
    · exact .inr hannounced
  · exact .inl hheld

/-- **What a worker misses** behind another's step, it missed before or is told. -/
theorem missed_frame (h : BrokerOk s) {a : BrokerAction top α} {w : Worker top}
    (hne : w ≠ a.worker) (hm : missed (brokerStep knobs proc s a) w) :
    missed s w ∨ Announced knobs proc s a w.signal := by
  cases w with
  | puller p =>
      obtain ⟨hact, hd⟩ := hm
      refine (discardConsumed_frame knobs proc h hne hd).imp (fun hold => ⟨?_, hold⟩) id
      rw [brokerStep_tx_of_ne knobs proc h hne] at hact
      exact hact
  | producer n =>
      change producerMissed _ n ((brokerStep knobs proc s a).nodes n).pc at hm
      rw [brokerStep_nodes_of_ne knobs proc h hne] at hm
      exact producerMissed_frame knobs proc h hne hm
  | rep p => exact hm.elim

/-- **What a worker waits for** and another's step brings about is announced. -/
theorem ready_frame (h : BrokerOk s) {a : BrokerAction top α} {w : Worker top}
    (hne : w ≠ a.worker) (hr : ready (brokerStep knobs proc s a) w) :
    ready s w ∨ Announced knobs proc s a w.signal := by
  cases w with
  | puller p =>
      rcases hr with hd | hfits
      · exact (discardConsumed_frame knobs proc h hne hd).imp .inl id
      · rw [brokerStep_tx_of_ne knobs proc h hne] at hfits
        exact .inl (.inr hfits)
  | producer n =>
      change producerGuard _ n ((brokerStep knobs proc s a).nodes n).pc at hr
      rw [brokerStep_nodes_of_ne knobs proc h hne] at hr
      exact producerGuard_frame knobs proc h hne hr
  | rep p => exact rxSlots_frame knobs proc h hne hr

/-- A step of another worker leaves a worker where it starts over. -/
theorem startsOver_frame (h : BrokerOk s) {a : BrokerAction top α} {w : Worker top}
    (hne : w ≠ a.worker) (hw : startsOver s w) : startsOver (brokerStep knobs proc s a) w := by
  cases w with
  | puller p =>
      show ∀ room, ((brokerStep knobs proc s a).tx p).puller ≠ .act room
      rw [brokerStep_tx_of_ne knobs proc h hne]
      exact hw
  | producer n =>
      show producerStartsOver n ((brokerStep knobs proc s a).nodes n).pc
      rw [brokerStep_nodes_of_ne knobs proc h hne]
      exact hw
  | rep p => trivial

/-- A step of another worker takes no debt away. -/
theorem owing_frame (h : BrokerOk s) {a : BrokerAction top α} {w : Worker top}
    {sig : Signal top} (hne : w ≠ a.worker) (hw : owing s w sig) :
    owing (brokerStep knobs proc s a) w sig := by
  cases w with
  | producer n =>
      show producerOwing n ((brokerStep knobs proc s a).nodes n).pc sig
      rw [brokerStep_nodes_of_ne knobs proc h hne]
      exact hw
  | puller p => exact hw.elim
  | rep p => exact hw.elim

/-- A worker that starts over with an empty batch would pass no guard either. -/
theorem not_missed_of_startsOver {w : Worker top} (hw : startsOver s w) : ¬ missed s w := by
  intro hm
  cases w with
  | puller p =>
      obtain ⟨⟨room, hact⟩, -⟩ := hm
      exact hw room hact
  | producer n =>
      change producerStartsOver n (s.nodes n).pc at hw
      change producerMissed s n (s.nodes n).pc at hm
      cases hpc : (s.nodes n).pc with
      | waitRoom todo room =>
          rw [hpc] at hw hm
          have hbatch := (outputRoom_pos.mp hm.2).1
          rw [← hw.2, hm.1] at hbatch
          exact absurd hbatch (lt_irrefl 0)
      | waitData todo common room =>
          rw [hpc] at hw hm
          have hbatch := (commonData_pos.mp hm.2).1
          rw [← hw.2, hm.1] at hbatch
          exact absurd hbatch (lt_irrefl 0)
      | _ =>
          rw [hpc] at hm
          exact hm
  | rep p => exact hm

/-- **The obligations of the producer of `n`** for its own step, after which it goes on as `pc`. -/
structure ProducerOwn (n : top.Node) (pc : Pc (Signal top)) (s s' : BrokerState top α σ) :
    Prop where
  fresh : pc ≠ .run → producerStartsOver n (s'.nodes n).pc
  missed : pc = .run → producerMissed s' n (s'.nodes n).pc → producerMissed s n (s.nodes n).pc
  ready : pc = .blocked → producerGuard s' n (s'.nodes n).pc → producerMissed s n (s.nodes n).pc
  owing : ∀ sig, producerOwing n (s.nodes n).pc sig → Owes owing pc s' (.producer n) sig

namespace ProducerOwn

variable {n : top.Node} {s' : BrokerState top α σ} {pc pc' : ProducerPc top.Port top.Lane α}

/-- A step that goes on without a wait: what it misses was missed before, and what it owes stays
owed. -/
theorem onward (hpc : (s.nodes n).pc = pc) (hpc' : (s'.nodes n).pc = pc')
    (hmissed : producerMissed s' n pc' → producerMissed s n pc)
    (howing : ∀ sig, producerOwing n pc sig → producerOwing n pc' sig) :
    ProducerOwn n .run s s' where
  fresh hrun := absurd rfl hrun
  missed _ hm := hpc ▸ hmissed (hpc' ▸ hm)
  ready hblocked := absurd hblocked (by simp)
  owing sig hsig := by
    show producerOwing n (s'.nodes n).pc sig
    rw [hpc']
    exact howing sig (hpc ▸ hsig)

/-- A step between two places that wait for nothing. -/
theorem quiet (hpc : (s.nodes n).pc = pc) (hpc' : (s'.nodes n).pc = pc')
    (hmissed : ¬ producerMissed s' n pc') (howing : ∀ sig, ¬ producerOwing n pc sig) :
    ProducerOwn n .run s s' :=
  onward hpc hpc' (fun hm => absurd hm hmissed) fun sig hsig => absurd hsig (howing sig)

/-- A step that takes the ticket of a wait: nothing was checked yet. -/
theorem ticketed (hpc : (s.nodes n).pc = pc) (hpc' : (s'.nodes n).pc = pc')
    (hover : producerStartsOver n pc') (howing : ∀ sig, ¬ producerOwing n pc sig) :
    ProducerOwn n .ticket s s' where
  fresh _ := hpc' ▸ hover
  missed hrun := absurd hrun (by simp)
  ready hblocked := absurd hblocked (by simp)
  owing sig hsig := absurd (hpc ▸ hsig) (howing sig)

/-- A step that notifies: what was owed is in the list. -/
theorem notifies {todo : List (Signal top)} {again : Bool} (hpc : (s.nodes n).pc = pc)
    (hpc' : (s'.nodes n).pc = pc') (hover : producerStartsOver n pc')
    (howing : ∀ sig, producerOwing n pc sig → sig ∈ todo) :
    ProducerOwn n (.notify todo again) s s' where
  fresh _ := hpc' ▸ hover
  missed hrun := absurd hrun (by simp)
  ready hblocked := absurd hblocked (by simp)
  owing sig hsig := howing sig (hpc ▸ hsig)

/-- A step into a wait: if the guard holds by now, the check that failed has missed it. -/
theorem sleeps (hpc : (s.nodes n).pc = pc) (hpc' : (s'.nodes n).pc = pc')
    (hover : producerStartsOver n pc')
    (hguard : producerGuard s' n pc' → producerMissed s n pc)
    (howing : ∀ sig, ¬ producerOwing n pc sig) : ProducerOwn n .blocked s s' where
  fresh _ := hpc' ▸ hover
  missed hrun := absurd hrun (by simp)
  ready _ hg := hpc ▸ hguard (hpc' ▸ hg)
  owing sig hsig := absurd (hpc ▸ hsig) (howing sig)

end ProducerOwn

/-- Entering the wait for data of a node with lanes, nothing is checked yet. -/
theorem startsOver_enterData {n : top.Node} (room : ℕ) (hlanes : top.incoming n ≠ []) :
    producerStartsOver n (enterData (α := α) top n room) := by
  unfold enterData
  rw [if_neg hlanes]
  exact ⟨rfl, rfl⟩

section Passes

variable {n : top.Node}

/-- Pass (A), the headroom of the RX ports. -/
theorem BrokerOk.waitRoom_own (h : BrokerOk s) {todo : List top.Port} {room : ℕ}
    (hpc : (s.nodes n).pc = .waitRoom todo room) :
    ProducerOwn n (producerAfter n (s.nodes n)) s (producerStep knobs proc s n) := by
  have hshape := h.shape n
  rw [ShapeOk, hpc] at hshape
  unfold producerStep producerAfter
  rw [hpc]
  cases todo with
  | cons r todo =>
      dsimp only
      refine .onward hpc (s.pc_goto n _) (fun hm => ⟨?_, hm.2⟩) fun _ => id
      -- a full port makes the room zero
      have hr := (outputRoom_pos.mp hm.2).2 r (hshape.subset List.mem_cons_self)
      have hzero := hm.1
      change 0 < rxHeadroom (top.port r).batch (s.rx r).rxRing at hr
      omega
  | nil =>
      dsimp only
      by_cases hroom : room > 0
      · rw [if_pos hroom, if_pos hroom]
        by_cases hepoch : (s.nodes n).epochSet = true
        · rw [if_pos hepoch]
          by_cases hnil : top.incoming n = []
          · rw [if_neg (fun hand => hand.2 hnil)]
            refine .quiet hpc (?_ : _ = .read [] [] room) id fun _ => id
            rw [BrokerState.nodes_goto_self, enterData, if_pos hnil]
          · rw [if_pos ⟨hepoch, hnil⟩]
            exact .ticketed hpc (s.pc_goto n _) (startsOver_enterData room hnil) fun _ => id
        · rw [if_neg hepoch, if_neg (fun hand => hepoch hand.1)]
          exact .quiet hpc (s.pc_goto n _) id fun _ => id
      · rw [if_neg hroom, if_neg hroom]
        exact .sleeps hpc (s.pc_goto n _) ⟨rfl, rfl⟩
          (fun hguard => ⟨Nat.eq_zero_of_not_pos hroom, hguard⟩) fun _ => id

/-- Pass (B), the alignment of the cursors. -/
theorem align_own {todo : List top.Lane} {room : ℕ} (hpc : (s.nodes n).pc = .align todo room) :
    ProducerOwn n (producerAfter n (s.nodes n)) s (producerStep knobs proc s n) := by
  unfold producerStep producerAfter
  rw [hpc]
  cases todo with
  | cons k todo => exact .quiet hpc (BrokerState.pc_goto _ n _) id fun _ => id
  | nil =>
      dsimp only
      by_cases hnil : top.incoming n = []
      · rw [if_pos hnil]
        refine .quiet hpc (?_ : _ = .read [] [] room) id fun _ => id
        rw [BrokerState.nodes_modifyNode_self, enterData, if_pos hnil]
      · rw [if_neg hnil]
        exact .ticketed hpc (by rw [BrokerState.nodes_modifyNode_self])
          (startsOver_enterData room hnil) fun _ => id

/-- Pass (C), the common window of the lanes. -/
theorem BrokerOk.waitData_own (h : BrokerOk s) {todo : List top.Lane} {common room : ℕ}
    (hpc : (s.nodes n).pc = .waitData todo common room) :
    ProducerOwn n (producerAfter n (s.nodes n)) s (producerStep knobs proc s n) := by
  have hshape := h.shape n
  rw [ShapeOk, hpc] at hshape
  unfold producerStep producerAfter
  rw [hpc]
  cases todo with
  | cons k todo =>
      have hk : k ∈ top.incoming n := hshape.2.1.subset List.mem_cons_self
      have hearly : (s.source k).earliestSequence ≤ (s.lanes k).cursor :=
        (h.lane_of_mem hk).earliest_le
      dsimp only
      rw [if_neg (Nat.not_lt.mpr hearly)]
      refine .onward hpc (s.pc_goto n _) (fun hm => ⟨?_, hm.2⟩) fun _ => id
      -- an empty lane makes the common window zero
      have hr := (commonData_pos.mp hm.2).2 k hk
      have hzero := hm.1
      change 0 < (s.source k).nextSequence
        - max (s.lanes k).cursor (s.source k).earliestSequence at hr
      rw [max_eq_left hearly] at hr
      omega
  | nil =>
      dsimp only
      by_cases hcommon : common > 0
      · rw [if_pos hcommon, if_pos hcommon]
        exact .quiet hpc (s.pc_goto n _) id fun _ => id
      · rw [if_neg hcommon, if_neg hcommon]
        exact .sleeps hpc (s.pc_goto n _) ⟨rfl, rfl⟩
          (fun hguard => ⟨Nat.eq_zero_of_not_pos hcommon, hguard⟩) fun _ => id

/-- Pass (F), the commit of the cursors: every cursor that moved is announced at its end. -/
theorem commit_own {todo : List top.Lane} {rows : List (top.Port × Row α)} {count : ℕ}
    (hpc : (s.nodes n).pc = .commit todo rows count) :
    ProducerOwn n (producerAfter n (s.nodes n)) s (producerStep knobs proc s n) := by
  unfold producerStep producerAfter
  rw [hpc]
  cases todo with
  | cons k todo =>
      refine .onward hpc (BrokerState.pc_goto _ n _) id ?_
      rintro sig ⟨i, hi, htodo, rfl⟩
      exact ⟨i, hi, fun hmem => htodo (List.mem_cons_of_mem k hmem), rfl⟩
  | nil =>
      refine .notifies hpc (s.pc_goto n _) trivial ?_
      rintro sig ⟨i, hi, -, rfl⟩
      exact List.mem_map_of_mem (mem_nodeSources hi)

/-- Pass (H), the rows: every port that got one is told at its end. -/
theorem BrokerOk.push_own (h : BrokerOk s) {todo : List (top.Port × Row α)} {count : ℕ}
    (hpc : (s.nodes n).pc = .push todo count) :
    ProducerOwn n (producerAfter n (s.nodes n)) s (producerStep knobs proc s n) := by
  unfold producerStep producerAfter
  rw [hpc]
  cases todo with
  | cons rrow todo =>
      obtain ⟨r, row⟩ := rrow
      obtain ⟨ring, hring, -, -, -⟩ := h.push_visit hpc
      dsimp only
      rw [hring]
      refine .onward hpc (BrokerState.pc_goto _ n _) id ?_
      rintro sig ⟨p, hp, htodo, rfl⟩
      exact ⟨p, hp, fun hmem => htodo (List.mem_cons_of_mem r hmem), rfl⟩
  | nil =>
      refine .notifies hpc (s.pc_goto n _) ⟨rfl, rfl⟩ ?_
      rintro sig ⟨p, hp, -, rfl⟩
      exact List.mem_map_of_mem hp

end Passes

/-- A producer keeps its obligations over each of its passes; the passes that read, reserve and
call the channel wait for nothing. -/
theorem BrokerOk.producer_own (h : BrokerOk s) (n : top.Node) :
    ProducerOwn n (producerAfter n (s.nodes n)) s (producerStep knobs proc s n) := by
  cases hpc : (s.nodes n).pc with
  | waitRoom todo room => exact h.waitRoom_own knobs proc hpc
  | align todo room => exact align_own knobs proc hpc
  | waitData todo common room => exact h.waitData_own knobs proc hpc
  | commit todo rows count => exact commit_own knobs proc hpc
  | push todo count => exact h.push_own knobs proc hpc
  | read done todo count =>
      -- reading, reserving and processing owe nobody a notification
      unfold producerStep producerAfter
      rw [hpc]
      cases todo with
      | cons k todo =>
          obtain ⟨w, hread, -, -⟩ := h.read_visit knobs hpc
          dsimp only
          rw [hread]
          exact .quiet hpc (BrokerState.pc_goto _ n _) id fun _ => id
      | nil => exact .quiet hpc (s.pc_goto n _) id fun _ => id
  | reserve windows done todo count =>
      unfold producerStep producerAfter
      rw [hpc]
      cases todo with
      | cons r todo => exact .quiet hpc (s.pc_goto n _) id fun _ => id
      | nil => exact .quiet hpc (s.pc_goto n _) id fun _ => id
  | process windows tails count =>
      unfold producerStep producerAfter
      rw [hpc]
      dsimp only
      cases proc.process n (s.nodes n).proc
          (windows.map fun kw => kw.2.samples (s.source kw.1).buffer) count with
      | error what => exact .quiet hpc (s.pc_goto n _) id fun _ => id
      | ok out => exact .quiet hpc (by rw [BrokerState.nodes_modifyNode_self]) id fun _ => id
  | threw count what =>
      unfold producerStep producerAfter
      rw [hpc]
      exact .quiet hpc hpc id fun _ => id
  | failed what =>
      unfold producerStep producerAfter
      rw [hpc]
      exact .quiet hpc hpc id fun _ => id

/-- **The obligations of the puller of `p`** for its own step. -/
structure PullerOwn (p : top.Port) (pc : Pc (Signal top)) (lanes : top.Lane → LaneState α)
    (dev dev' : TxState α) : Prop where
  room : ∀ room, dev'.puller = .act room → room = dev'.txRing.freeCapacity
  fresh : pc ≠ .run → ∀ room, dev'.puller ≠ .act room
  missed : pc = .run → ∀ room, dev'.puller = .act room → Held p dev'.txRing lanes
  ready : pc = .blocked → (∃ room, dev.puller = .act room) ∧ dev'.txRing = dev.txRing ∧
    ¬ messageFits p dev' dev'.txRing

/-- A puller keeps its obligations over its own step. -/
theorem TxOk.puller_own {p : top.Port} {dev : TxState α} (h : TxOk dev)
    (hroom : ∀ room, dev.puller = .act room → room = dev.txRing.freeCapacity)
    {lanes : top.Lane → LaneState α}
    (huninit : ∀ i, (lanes i).cursorInit = false → (lanes i).cursor = 0)
    (received : Option (List α)) :
    PullerOwn p (pullerAfter p dev) lanes dev (dev.pullerStep p lanes received) := by
  obtain ⟨landed, hc, -, -⟩ := h.exists_landed
  unfold pullerAfter TxState.pullerStep
  cases hpc : dev.puller with
  | failed what =>
      refine ⟨hroom, fun hrun => absurd rfl hrun, fun _ room hact => ?_, fun hb => absurd hb (by simp)⟩
      rw [hpc] at hact
      exact absurd hact (by simp)
  | discard =>
      refine ⟨?_, fun hrun => absurd rfl hrun, fun _ _ _ => held_discardConsumed p hc huninit,
        fun hb => absurd hb (by simp)⟩
      intro room hact
      exact (PullerPc.act.inj hact).symm
  | act room =>
      dsimp only
      by_cases hpending : dev.pending ≠ []
      · rw [if_pos hpending, if_pos hpending]
        cases hpush : dev.txRing.push dev.pending with
        | some ring => exact ⟨by simp, by simp, by simp, by simp⟩
        | none =>
            -- blocked on a message that does not fit
            refine ⟨by simp, by simp, by simp, fun _ => ⟨⟨room, hpc⟩, rfl, ?_⟩⟩
            unfold messageFits
            rw [if_pos hpending, hpush]
            exact Bool.false_ne_true
      · rw [if_neg hpending, if_neg hpending]
        by_cases hsmall : room < (top.port p).batch
        · rw [if_pos hsmall, if_pos hsmall]
          -- blocked on room for less than a batch
          refine ⟨by simp, by simp, by simp, fun _ => ⟨⟨room, hpc⟩, rfl, ?_⟩⟩
          unfold messageFits
          rw [if_neg hpending, ← hroom room hpc]
          exact Nat.not_le.mpr hsmall
        · rw [if_neg hsmall, if_neg hsmall]
          cases received with
          | none => exact ⟨by simp, by simp, by simp, by simp⟩
          | some samples =>
              dsimp only
              split_ifs <;> exact ⟨by simp, by simp, by simp, by simp⟩

/-- Every step keeps what the waits rely on. -/
theorem WaitOk.step (h : WaitOk s) (a : BrokerAction top α) :
    WaitOk (brokerStep knobs proc s a) where
  toBrokerOk := h.toBrokerOk.step knobs proc a
  room p room hact := by
    by_cases hne : Worker.puller p = a.worker
    · cases a with
      | puller q received =>
          obtain rfl := Worker.puller.inj hne
          rw [brokerStep_puller, s.tx_modifyTx_self] at hact ⊢
          exact ((h.tx p).puller_own (h.room p) h.uninit received).room room hact
      | producer n => exact absurd hne (by simp [BrokerAction.worker])
      | rep q isReady => exact absurd hne (by simp [BrokerAction.worker])
    · rw [brokerStep_tx_of_ne knobs proc h.toBrokerOk hne] at hact ⊢
      exact h.room p room hact

/-- The initial state has what the waits rely on. -/
theorem waitOk_init [Zero α] (top : Topology) (proc : Processor top α σ) :
    WaitOk (brokerInit top proc) where
  toBrokerOk := brokerOk_init top proc
  room _ _ hact := absurd hact (by simp [brokerInit])

/-- **The relay keeps the discipline.** -/
def brokerDiscipline : Discipline (brokerProtocol knobs proc) (brokerAfter knobs) where
  Inv := WaitOk
  fresh := startsOver
  missed := missed
  ready := ready
  owing := owing
  inv_step _ a h := h.step knobs proc a
  fresh_frame _ _ _ h hne hw := startsOver_frame knobs proc h.toBrokerOk hne hw
  not_missed _ _ _ hw := not_missed_of_startsOver hw
  owing_frame _ _ _ _ h hne hw := owing_frame knobs proc h.toBrokerOk hne hw
  missed_frame _ _ _ h hne hm := missed_frame knobs proc h.toBrokerOk hne hm
  ready_frame _ _ _ h hne hr := ready_frame knobs proc h.toBrokerOk hne hr
  fresh_step s a h hrun := by
    cases a with
    | puller p received =>
        show ∀ room, ((brokerStep knobs proc s (.puller p received)).tx p).puller ≠ .act room
        rw [brokerStep_puller_tx]
        exact ((h.tx p).puller_own (h.room p) h.uninit received).fresh hrun
    | producer n => exact (h.toBrokerOk.producer_own knobs proc n).fresh hrun
    | rep p isReady => trivial
  owing_step s a sig h howes := by
    cases a with
    | puller p received => exact howes.elim
    | producer n => exact (h.toBrokerOk.producer_own knobs proc n).owing sig howes
    | rep p isReady => exact howes.elim
  missed_own s a h hrun hm := by
    cases a with
    | puller p received =>
        obtain ⟨⟨room, hact⟩, hd⟩ := hm
        refine absurd (((h.step knobs proc (.puller p received)).toBrokerOk.held_iff p).mpr ?_) hd
        change ((brokerStep knobs proc s (.puller p received)).tx p).puller = .act room at hact
        rw [brokerStep_puller_tx] at hact ⊢
        exact ((h.tx p).puller_own (h.room p) h.uninit received).missed hrun room hact
    | producer n => exact (h.toBrokerOk.producer_own knobs proc n).missed hrun hm
    | rep p isReady => exact hm
  ready_own s a h hblocked hr := by
    cases a with
    | puller p received =>
        obtain ⟨hact, hring, hfits⟩ :=
          ((h.tx p).puller_own (h.room p) h.uninit received).ready hblocked
        refine ⟨hact, ?_⟩
        rcases hr with hd | hfit
        · change discardConsumed p ((brokerStep knobs proc s (.puller p received)).tx p).txRing
            s.lanes ≠ ((brokerStep knobs proc s (.puller p received)).tx p).txRing at hd
          rw [brokerStep_puller_tx, hring] at hd
          exact hd
        · change messageFits p ((brokerStep knobs proc s (.puller p received)).tx p)
            ((brokerStep knobs proc s (.puller p received)).tx p).txRing at hfit
          rw [brokerStep_puller_tx] at hfit
          exact absurd hfit hfits
    | producer n => exact (h.toBrokerOk.producer_own knobs proc n).ready hblocked hr
    | rep p isReady =>
        have hnone := (h.rx p).repStep_blocked hblocked
        change ((brokerStep knobs proc s (.rep p isReady)).rx p).rxSlots ≠ [] at hr
        rw [brokerStep_rep_rx] at hr
        exact absurd hnone hr

end Steps

/-- **No lost wake in the broker.** In every reachable state, when the guard of a waiting worker is
true, its signal was raised since its ticket, or another worker has yet to raise it for a change
that it made. -/
theorem no_lost_wake [Zero α] (top : Topology) (knobs : Knobs) (proc : Processor top α σ)
    (actions : List (BrokerAction top α)) (w : Worker top) :
    let s := wakeRun top knobs proc actions
    s.pc w = .blocked → waitGuard s.base w →
      s.generation w.signal ≠ s.ticket w ∨
        ∃ v, v ≠ w ∧ Owes owing (s.pc v) s.base v w.signal := by
  intro s hblocked hguard
  have hok : (brokerDiscipline knobs proc).Ok s :=
    (brokerDiscipline knobs proc).heard (waitOk_init top proc)
      (fun w => by
        cases w with
        | puller p => exact fun room => by simp [brokerInit]
        | producer n => exact ⟨rfl, rfl⟩
        | rep p => trivial)
      (fun w => by cases w <;> simp [firstPc]) actions
  have hwatched : (brokerDiscipline knobs proc).watched s w := by
    unfold Discipline.watched
    rw [hblocked]
    exact ready_of_waitGuard hguard
  refine (hok.heard w hwatched).imp id ?_
  rintro ⟨v, hv⟩
  refine ⟨v, ?_, hv⟩
  rintro rfl
  unfold Discipline.owes at hv
  rw [hblocked] at hv
  exact hv

end LostWake

/-- The REP worker of `loneNode` goes to sleep, and the producer publishes a window. -/
def sleepingRep : List (BrokerAction loneNode ℕ) :=
  List.replicate 3 (.rep ⟨0, by decide⟩ true) ++ List.replicate 11 (.producer ⟨0, by decide⟩)

/-- The two knobs of `loneNode`'s run. -/
def heldRows : Knobs := { fewerCopies := true, directRows := false }

/-- The signal is not raised yet, so the producer owes it. -/
theorem no_lost_wake_sleepingRep :
    ∃ v, Owes owing ((wakeRun loneNode heldRows (silentProcessor loneNode) sleepingRep).pc v)
      (wakeRun loneNode heldRows (silentProcessor loneNode) sleepingRep).base v
      (Worker.rep ⟨0, by decide⟩ : Worker loneNode).signal := by
  have hasleep : (wakeRun loneNode heldRows (silentProcessor loneNode) sleepingRep).pc
      (.rep ⟨0, by decide⟩) = .blocked := by decide +kernel
  have hguard : waitGuard (wakeRun loneNode heldRows (silentProcessor loneNode) sleepingRep).base
      (.rep ⟨0, by decide⟩) := by
    unfold waitGuard
    decide +kernel
  have hunheard : (wakeRun loneNode heldRows (silentProcessor loneNode) sleepingRep).generation
      (Worker.rep ⟨0, by decide⟩ : Worker loneNode).signal
        = (wakeRun loneNode heldRows (silentProcessor loneNode) sleepingRep).ticket
          (.rep ⟨0, by decide⟩) := by decide +kernel
  rcases no_lost_wake loneNode heldRows (silentProcessor loneNode) sleepingRep
    (.rep ⟨0, by decide⟩) hasleep hguard with hheard | ⟨v, -, hv⟩
  · exact absurd hunheard hheard
  · exact ⟨v, hv⟩
