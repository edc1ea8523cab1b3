/-
# Every worker step keeps the broker's invariant

One lemma per phase of the puller, the REP worker and the producer, then the step
lemma and, by induction over the interleaving, the run lemma.
-/
import GpuChannel.BrokerInvariant

open CyclicBuffer

section Steps

variable {top : Topology} {α σ : Type*}

/-! ## The puller -/

/-- The scan never passes a lane's cursor, and sees every lane of the port. -/
theorem foldl_visit_spec (p : top.Port) (earliest : ℕ) (lanes : top.Lane → LaneState α)
    (L : List top.Lane) (acc : CursorScan) (hacc : earliest ≤ acc.minCursor)
    (hlanes : ∀ i, (top.link i).srcIndex = p → earliest ≤ (lanes i).cursor) :
    (L.foldl (CursorScan.visit p earliest lanes) acc).minCursor ≤ acc.minCursor ∧
      (acc.hasOutgoing = true →
        (L.foldl (CursorScan.visit p earliest lanes) acc).hasOutgoing = true) ∧
      ∀ i ∈ L, (top.link i).srcIndex = p →
        (L.foldl (CursorScan.visit p earliest lanes) acc).minCursor ≤ (lanes i).cursor ∧
        (L.foldl (CursorScan.visit p earliest lanes) acc).hasOutgoing = true := by
  induction L generalizing acc with
  | nil => exact ⟨le_refl _, id, fun i hi => absurd hi List.not_mem_nil⟩
  | cons k L ih =>
      have hvisit : earliest ≤ (CursorScan.visit p earliest lanes acc k).minCursor ∧
          (CursorScan.visit p earliest lanes acc k).minCursor ≤ acc.minCursor ∧
          (acc.hasOutgoing = true →
            (CursorScan.visit p earliest lanes acc k).hasOutgoing = true) ∧
          ((top.link k).srcIndex = p →
            (CursorScan.visit p earliest lanes acc k).minCursor ≤ (lanes k).cursor ∧
            (CursorScan.visit p earliest lanes acc k).hasOutgoing = true) := by
        unfold CursorScan.visit
        split_ifs with h₁ h₂
        · exact ⟨hacc, le_refl _, id, fun h => absurd h h₁⟩
        · have := hlanes k (not_not.mp h₁)
          exact ⟨le_refl _, hacc, fun _ => rfl, fun _ => ⟨this, rfl⟩⟩
        · have := hlanes k (not_not.mp h₁)
          exact ⟨le_min hacc this, min_le_left _ _, fun _ => rfl,
            fun _ => ⟨min_le_right _ _, rfl⟩⟩
      obtain ⟨hlo, hle, hout, hk⟩ := hvisit
      obtain ⟨ih₁, ih₂, ih₃⟩ := ih _ hlo
      refine ⟨ih₁.trans hle, fun h => ih₂ (hout h), fun i hi hp => ?_⟩
      rcases List.mem_cons.mp hi with rfl | hi
      · exact ⟨ih₁.trans (hk hp).1, ih₂ (hk hp).2⟩
      · exact ih₃ i hi hp

/-- Releasing the consumed samples keeps the stream and every lane's cursor. -/
theorem discardConsumed_spec (p : top.Port) {ring : IqRing α} {landed : List α}
    (lanes : top.Lane → LaneState α) (h : ring.Carries landed)
    (hlanes : ∀ i, (top.link i).srcIndex = p → ring.earliestSequence ≤ (lanes i).cursor) :
    (discardConsumed p ring lanes).Carries landed ∧
      (discardConsumed p ring lanes).capacity = ring.capacity ∧
      (discardConsumed p ring lanes).nextSequence = ring.nextSequence ∧
      ∀ i, (top.link i).srcIndex = p →
        (discardConsumed p ring lanes).earliestSequence ≤ (lanes i).cursor := by
  have hle := h.earliest_le
  have hnext := h.next
  obtain ⟨-, -, hscan⟩ := foldl_visit_spec p ring.earliestSequence lanes
    (List.finRange top.numLinks)
    { minCursor := ring.nextSequence, hasConsumer := false, hasOutgoing := false }
    (by rw [hnext]; exact hle) hlanes
  unfold discardConsumed
  dsimp only
  split_ifs with h₁ h₂
  · refine ⟨(h.discardBefore _).1, by simp, by simp, fun i hi => ?_⟩
    have hout := (hscan i (List.mem_finRange i) hi).2
    rw [scanCursors] at h₁
    rw [h₁] at hout
    exact absurd hout (by decide)
  · refine ⟨(h.discardBefore _).1, by simp, by simp, fun i hi => ?_⟩
    rw [(h.discardBefore _).2]
    exact max_le (hlanes i hi)
      ((min_le_left _ _).trans (hscan i (List.mem_finRange i) hi).1)
  · exact ⟨h, rfl, rfl, hlanes⟩

/-- A puller step lands, receives or releases: the stream grows at its end, and the ring
keeps every sample a lane has not passed. -/
theorem TxOk.pullerStep {p : top.Port} {lanes : top.Lane → LaneState α} {dev : TxState α}
    (h : TxOk dev)
    (hlanes : ∀ i, (top.link i).srcIndex = p → dev.txRing.earliestSequence ≤ (lanes i).cursor)
    (received : Option (List α)) :
    TxOk (dev.pullerStep p lanes received) ∧
      dev.sent <+: (dev.pullerStep p lanes received).sent ∧
      (dev.pullerStep p lanes received).txRing.capacity = dev.txRing.capacity ∧
      dev.txRing.nextSequence ≤ (dev.pullerStep p lanes received).txRing.nextSequence ∧
      ∀ i, (top.link i).srcIndex = p →
        (dev.pullerStep p lanes received).txRing.earliestSequence ≤ (lanes i).cursor := by
  obtain ⟨landed, hc, hpre, heq⟩ := h.exists_landed
  unfold TxState.pullerStep
  cases hpc : dev.puller with
  | failed what => exact ⟨h, List.prefix_refl _, rfl, le_rfl, hlanes⟩
  | discard =>
      obtain ⟨hc', hcap, hnext, he⟩ := discardConsumed_spec p lanes hc hlanes
      exact ⟨⟨landed, hc', hpre, fun _ => heq (by simp [hpc])⟩, List.prefix_refl _, hcap,
        hnext.ge, he⟩
  | act room =>
      have hall : landed ++ dev.pending = dev.sent := heq (by simp [hpc])
      dsimp only
      split_ifs with h₁ h₂
      · -- land the pending message
        cases hpush : dev.txRing.push dev.pending with
        | none =>
            exact ⟨⟨landed, hc, hpre, fun _ => hall⟩, List.prefix_refl _, rfl, le_rfl, hlanes⟩
        | some ring =>
            obtain ⟨hc', hcap, -, he⟩ := hc.push hpush
            have hall' : landed ++ dev.pending ++ [] = dev.sent := by
              rw [List.append_nil]; exact hall
            refine ⟨⟨_, hc', ⟨[], by rw [List.append_nil]; exact hall'⟩, fun _ => hall'⟩,
              List.prefix_refl _, hcap, ?_, fun i hi => ?_⟩
            · simp only [hc.next, hc'.next, List.length_append]; omega
            · exact he.le.trans (hlanes i hi)
      · exact ⟨⟨landed, hc, hpre, fun _ => hall⟩, List.prefix_refl _, rfl, le_rfl, hlanes⟩
      · have hnil : dev.pending = [] := not_not.mp h₁
        cases received with
        | none =>
            exact ⟨⟨landed, hc, hpre, fun _ => hall⟩, List.prefix_refl _, rfl, le_rfl, hlanes⟩
        | some samples =>
            dsimp only
            split_ifs with h₃
            · exact ⟨⟨landed, hc, hpre.trans (List.prefix_append _ _), fun hf => absurd rfl (hf _)⟩,
                List.prefix_append _ _, rfl, le_rfl, hlanes⟩
            · have hsent : landed ++ samples = dev.sent ++ samples := by
                rw [← hall, hnil, List.append_nil]
              exact ⟨⟨landed, hc, ⟨[], by rw [List.append_nil]; exact hsent⟩, fun _ => hsent⟩,
                List.prefix_append _ _, rfl, le_rfl, hlanes⟩

/-- A puller's step keeps the invariant. -/
theorem BrokerOk.puller {s : BrokerState top α σ} (h : BrokerOk s) (p : top.Port)
    (received : Option (List α)) :
    BrokerOk (s.modifyTx p fun dev => dev.pullerStep p s.lanes received) := by
  obtain ⟨hok, hsent, hcap, hnext, he⟩ :=
    (h.tx p).pullerStep (fun i hi => hi ▸ (h.lane i).earliest_le) received
  exact h.modifyTx p _ hok hsent hcap hnext he

/-! ## The REP worker -/

/-- A REP step changes one RX half, and at most discards from its ring. -/
theorem BrokerOk.modifyRx {s : BrokerState top α σ} (h : BrokerOk s) (p : top.Port)
    (f : RxState α → RxState α) (hok : RxOk (f (s.rx p)))
    (hbuf : (f (s.rx p)).rxRing.buffer = (s.rx p).rxRing.buffer)
    (hnext : (f (s.rx p)).rxRing.nextSequence = (s.rx p).rxRing.nextSequence)
    (hsize : (f (s.rx p)).rxRing.size ≤ (s.rx p).rxRing.size)
    (hpub : (f (s.rx p)).published = (s.rx p).published) : BrokerOk (s.modifyRx p f) := by
  refine ⟨h.tx, fun q => ?_, h.lane, h.shape, h.slots, fun n q hq => ?_, h.gaps⟩
  all_goals
    by_cases hqp : q = p
    · subst hqp; rw [s.rx_modifyRx_self]
      first
        | exact hok
        | exact (h.out n q hq).of_rx hbuf hnext hsize hpub
    · rw [s.rx_modifyRx_of_ne f hqp]
      first
        | exact h.rx q
        | exact h.out n q hq

/-- Popping the front row moves the window of the RX ring past exactly that row. -/
theorem RxState.popRow_spec {rx : RxState α} (hc : rx.rxRing.Carries rx.published.flatten)
    {popped rest : List (List α)} {row : List α} (hsplit : rx.published = popped ++ row :: rest)
    (hcur : rx.rxCursor = popped.flatten.length)
    (he : rx.rxRing.earliestSequence = rx.rxCursor)
    (hslots : rx.rxSlots = (row :: rest).map List.length) :
    (rx.popRow row.length).rxRing.Carries rx.published.flatten ∧
      (rx.popRow row.length).published = (popped ++ [row]) ++ rest ∧
      (rx.popRow row.length).rxCursor = (popped ++ [row]).flatten.length ∧
      (rx.popRow row.length).rxRing.earliestSequence = (rx.popRow row.length).rxCursor ∧
      (rx.popRow row.length).rxSlots = rest.map List.length := by
  obtain ⟨hc', he'⟩ := hc.discardBefore (rx.rxCursor + row.length)
  have hlen : rx.published.flatten.length =
      popped.flatten.length + (row.length + rest.flatten.length) := by
    rw [hsplit, List.flatten_append, List.flatten_cons, List.length_append, List.length_append]
  refine ⟨hc', by rw [popRow, hsplit, List.append_assoc]; rfl, ?_, ?_, ?_⟩
  · show rx.rxCursor + row.length = _
    rw [List.flatten_append, List.length_append, hcur]
    simp
  · show (rx.rxRing.discardBefore _).earliestSequence = rx.rxCursor + row.length
    rw [he']; omega
  · show rx.rxSlots.tail = _
    rw [hslots]; rfl

/-- What the front row of the RX ring reads as. -/
theorem RxState.slice_front {rx : RxState α} {popped rest : List (List α)} {row : List α}
    (hsplit : rx.published = popped ++ row :: rest) (hcur : rx.rxCursor = popped.flatten.length) :
    rx.rxCursor + row.length ≤ rx.published.flatten.length ∧
      slice rx.published.flatten rx.rxCursor row.length = row := by
  rw [hsplit, List.flatten_append, List.flatten_cons, hcur]
  constructor
  · rw [List.length_append, List.length_append]; omega
  · rw [slice, List.drop_left, List.take_left]

/-- A REP step keeps the port's bookkeeping, and at most discards from the ring. -/
theorem RxOk.repStep {rx : RxState α} (h : RxOk rx) (knobs : Knobs) (id : String)
    (ready : Bool) :
    RxOk (rx.repStep knobs id ready) ∧
      (rx.repStep knobs id ready).rxRing.buffer = rx.rxRing.buffer ∧
      (rx.repStep knobs id ready).rxRing.nextSequence = rx.rxRing.nextSequence ∧
      (rx.repStep knobs id ready).rxRing.size ≤ rx.rxRing.size ∧
      (rx.repStep knobs id ready).published = rx.published := by
  obtain ⟨hc, hpos, popped, rest, hsplit, hcur, he, hslots, hrep⟩ := h
  -- a worker that does nothing changes nothing
  have hsame : ∀ {rx' : RxState α}, rx' = rx → RxOk rx' ∧ rx'.rxRing.buffer = rx.rxRing.buffer ∧
      rx'.rxRing.nextSequence = rx.rxRing.nextSequence ∧ rx'.rxRing.size ≤ rx.rxRing.size ∧
      rx'.published = rx.published := by
    rintro _ rfl
    exact ⟨⟨hc, hpos, popped, rest, hsplit, hcur, he, hslots, hrep⟩, rfl, rfl, le_rfl, rfl⟩
  have hpopRing : ∀ take, (rx.popRow take).rxRing.buffer = rx.rxRing.buffer ∧
      (rx.popRow take).rxRing.nextSequence = rx.rxRing.nextSequence ∧
      (rx.popRow take).rxRing.size ≤ rx.rxRing.size := fun take =>
    ⟨by simp [RxState.popRow], by simp [RxState.popRow], IqRing.size_discardBefore_le _ _⟩
  unfold RxState.repStep
  cases hpc : rx.rep with
  | failed what => exact hsame rfl
  | waitReq =>
      cases ready with
      | false => exact hsame rfl
      | true =>
          rw [RepOk, hpc] at hrep
          exact ⟨⟨hc, hpos, popped, rest, hsplit, hcur, he, hslots, hrep⟩, rfl, rfl, le_rfl, rfl⟩
  | waitRow =>
      rw [RepOk, hpc] at hrep
      cases rest with
      | nil => rw [hslots]; exact hsame rfl
      | cons row rest =>
          obtain ⟨hle, hfront⟩ := RxState.slice_front hsplit hcur
          rw [hslots, List.map_cons]
          dsimp only
          cases hv : (if knobs.fewerCopies then rx.rxRing.view rx.rxCursor row.length else none) with
          -- in place: the window stays in the ring until the reply is sent
          | some head =>
              have hview : rx.rxRing.view rx.rxCursor row.length = some head := by
                split_ifs at hv; exact hv
              obtain ⟨-, -, -, hhead, hfit⟩ := hc.view hview
              exact ⟨⟨hc, hpos, popped, row :: rest, hsplit, hcur, he, rfl, hrep, rfl, hhead,
                hfit, row, rest, rfl, rfl⟩, rfl, rfl, le_rfl, rfl⟩
          | none =>
              -- copied: the window leaves the ring at once
              rw [hc.read he.le hle, hfront]
              obtain ⟨h₁, h₂, h₃, h₄, h₅⟩ := RxState.popRow_spec hc hsplit hcur he hslots
              obtain ⟨hbuf, hnext, hsize⟩ := hpopRing row.length
              have hrow : 0 < row.length := hpos row (by rw [hsplit]; simp)
              dsimp only
              rw [if_pos hrow]
              refine ⟨⟨h₁, hpos, popped ++ [row], rest, h₂, h₃, h₄, h₅, ?_⟩, hbuf, hnext, hsize, rfl⟩
              show popped ++ [row] = rx.replies ++ [row]
              rw [hrep]
  | send reply take =>
      rw [RepOk, hpc] at hrep
      cases ready with
      | false => exact hsame rfl
      | true =>
          dsimp only
          rw [if_pos rfl]
          cases reply with
          | copied samples =>
              exact ⟨⟨hc, hpos, popped, rest, hsplit, hcur, he, hslots, hrep.symm⟩, rfl, rfl,
                le_rfl, rfl⟩
          -- the storage still shows the window that was held
          | inPlace head n =>
              obtain ⟨hreplies, rfl, rfl, hfit, row, rest', rfl, rfl⟩ := hrep
              obtain ⟨hle, hfront⟩ := RxState.slice_front hsplit hcur
              refine ⟨⟨hc, hpos, popped, row :: rest', hsplit, hcur, he, hslots, row, rest', rfl,
                rfl, ?_⟩, rfl, rfl, le_rfl, rfl⟩
              show rx.replies ++ [slice _ _ _] = _
              rw [hc.slice_view he.le hle hfit, hfront, hreplies]
  | release take =>
      rw [RepOk, hpc] at hrep
      obtain ⟨row, rest', rfl, rfl, hreplies⟩ := hrep
      obtain ⟨h₁, h₂, h₃, h₄, h₅⟩ := RxState.popRow_spec hc hsplit hcur he hslots
      obtain ⟨hbuf, hnext, hsize⟩ := hpopRing row.length
      exact ⟨⟨h₁, hpos, popped ++ [row], rest', h₂, h₃, h₄, h₅, hreplies⟩, hbuf, hnext, hsize, rfl⟩

/-- A REP worker's step keeps the invariant. -/
theorem BrokerOk.rep {s : BrokerState top α σ} (h : BrokerOk s) (knobs : Knobs)
    (p : top.Port) (ready : Bool) :
    BrokerOk (s.modifyRx p fun port => port.repStep knobs (top.port p).id ready) := by
  obtain ⟨hok, hbuf, hnext, hsize, hpub⟩ := (h.rx p).repStep knobs (top.port p).id ready
  exact h.modifyRx p _ hok hbuf hnext hsize hpub

/-! ## The producer: waiting for output room -/

/-- An incoming lane is in order. -/
theorem BrokerOk.lane_of_mem {s : BrokerState top α σ} (h : BrokerOk s) {n : top.Node}
    {i : top.Lane} (hi : i ∈ top.incoming n) :
    LaneOk i (s.nodes n) (s.tx (top.link i).srcIndex) (s.lanes i) := by
  have := h.lane i
  rwa [top.mem_incoming.mp hi] at this

/-- The headroom of a port fits its ring and its batch. -/
theorem rxHeadroom_fits {batch : ℕ} {ring : IqRing α} (h₁ : ring.size ≤ ring.capacity)
    (h₂ : ring.size ≤ batch) :
    ring.size + rxHeadroom batch ring ≤ ring.capacity ∧
      ring.size + rxHeadroom batch ring ≤ batch := by
  unfold rxHeadroom IqRing.freeCapacity
  dsimp only
  split_ifs <;> omega

/-- (A) The headroom of one more port. -/
theorem BrokerOk.waitRoom_visit {s : BrokerState top α σ} (h : BrokerOk s) {n : top.Node}
    {r : top.Port} {todo : List top.Port} {room : ℕ}
    (hpc : (s.nodes n).pc = .waitRoom (r :: todo) room) :
    BrokerOk (s.goto n
      (.waitRoom todo (min room (rxHeadroom (top.port r).batch (s.rx r).rxRing)))) := by
  have hshape := h.shape n
  rw [ShapeOk, hpc] at hshape
  refine h.goto n _ ((List.suffix_cons r todo).trans hshape) (fun i hi => ?_) (fun p hp => ?_)
  · have hl := h.lane_of_mem hi
    have hw := hl.wanted_le
    rw [hpc] at hw
    exact hl.of_node (by rw [hpc]; rfl) hw (by rw [hpc]; rfl) (by simp [hpc, ProducerPc.reading])
      (by simp [ProducerPc.windows])
  · have ho := h.out n p hp
    refine ho.of_node ?_ (by simp [ProducerPc.tails]) (by rw [hpc]; rfl)
      (by simp [hpc, ProducerPc.rows]) rfl
    by_cases hpr : p = r
    · subst hpr
      right
      have h₁ := ho.fits
      have h₂ := ho.highWater
      obtain ⟨h₃, h₄⟩ := rxHeadroom_fits (by omega) (by omega :
        (s.rx p).rxRing.size ≤ (top.port p).batch)
      simp only [ProducerPc.claimed]
      split_ifs <;> omega
    · left
      simp only [hpc, ProducerPc.claimed, List.mem_cons, hpr, false_or]
      split_ifs <;> omega

/-- (A) Without room the pass starts over. -/
theorem BrokerOk.waitRoom_retry {s : BrokerState top α σ} (h : BrokerOk s) {n : top.Node}
    {room : ℕ} (hpc : (s.nodes n).pc = .waitRoom [] room) :
    BrokerOk (s.goto n (.waitRoom (top.node n).rxPorts (top.node n).batch)) := by
  refine h.goto n _ (List.suffix_refl _) (fun i hi => ?_) (fun p hp => ?_)
  · have hl := h.lane_of_mem hi
    have hw := hl.wanted_le
    rw [hpc] at hw
    exact hl.of_node (by rw [hpc]; rfl) hw (by rw [hpc]; rfl) (by simp [hpc, ProducerPc.reading])
      (by simp [ProducerPc.windows])
  · refine (h.out n p hp).of_node (.inl ?_) (by simp [ProducerPc.tails]) (by rw [hpc]; rfl)
      (by simp [hpc, ProducerPc.rows]) rfl
    simp only [ProducerPc.claimed, if_pos hp]
    exact Nat.zero_le _

/-! ## The producer: aligning the lanes -/

/-- (B) With room, and no cursor aligned yet, the alignment starts. -/
theorem BrokerOk.align_enter {s : BrokerState top α σ} (h : BrokerOk s) {n : top.Node}
    {room : ℕ} (hpc : (s.nodes n).pc = .waitRoom [] room) (hroom : 0 < room)
    (hepoch : (s.nodes n).epochSet = false) :
    BrokerOk (s.goto n (.align (top.incoming n) room)) := by
  refine h.goto n _ ⟨hepoch, List.suffix_refl _, hroom⟩ (fun i hi => ?_) (fun p hp => ?_)
  · have hl := h.lane_of_mem hi
    have hw := hl.wanted_le
    rw [hpc] at hw
    refine hl.of_node ?_ hw (by rw [hpc]; rfl) (by simp [hpc, ProducerPc.reading])
      (by simp [ProducerPc.windows])
    simp only [hpc, ProducerPc.alignedLane, decide_not, decide_eq_true hi, Bool.not_true]
  · exact (h.out n p hp).of_node (.inl (by simp [hpc, ProducerPc.claimed]))
      (by simp [ProducerPc.tails]) (by rw [hpc]; rfl) (by simp [hpc, ProducerPc.rows]) rfl

/-- Before its co-initialisation a lane has consumed nothing and its source ring has
lost nothing, so the cursor starts at sequence `0`. -/
theorem BrokerOk.align_visit {s : BrokerState top α σ} (h : BrokerOk s) {n : top.Node}
    {k : top.Lane} {todo : List top.Lane} {room : ℕ}
    (hpc : (s.nodes n).pc = .align (k :: todo) room) :
    BrokerOk ((s.modifyLane k fun lane =>
      { lane with
        cursor := (s.source k).earliestSequence
        cursorInit := true
        origin := (s.source k).earliestSequence }).goto n (.align todo room)) := by
  have hshape := h.shape n
  rw [ShapeOk, hpc] at hshape
  obtain ⟨hepoch, hsuf, hroom⟩ := hshape
  have hk : k ∈ top.incoming n := hsuf.subset List.mem_cons_self
  have hnd : (k :: todo).Nodup := (top.nodup_incoming n).sublist hsuf.sublist
  have hktodo : k ∉ todo := (List.nodup_cons.mp hnd).1
  have hl := h.lane_of_mem hk
  have hinit : (s.lanes k).cursorInit = false := by
    rw [hl.init_eq, hepoch, hpc]; simp [ProducerPc.alignedLane]
  obtain ⟨hcur, hwin, hserved⟩ := hl.uninit hinit
  -- before the alignment nothing has been discarded
  have he : (s.source k).earliestSequence = 0 := by
    have := hl.earliest_le
    rw [hcur] at this
    exact Nat.le_zero.mp this
  rw [he]
  refine h.modifyLane_goto n k hk _ _ ⟨hepoch, (List.suffix_cons k todo).trans hsuf, hroom⟩
    ⟨rfl, ?_, fun hf => Bool.noConfusion hf, ?_, Nat.zero_le _, ?_, ?_, fun hr => hr.elim,
      fun _ => ?_, ?_⟩ (fun i hi hik => ?_) (fun p hp => ?_)
  · simp [hepoch, ProducerPc.alignedLane, hktodo]
  · exact he.le
  · show (s.lanes k).served ≤ _
    rw [hserved]; exact Nat.zero_le _
  · show (List.take (s.lanes k).served (s.lanes k).windows).flatten = _
    rw [hwin, hserved]; rfl
  · show List.drop (s.lanes k).served (s.lanes k).windows = []
    rw [hwin, hserved]; rfl
  · simp [ProducerPc.windows]
  · have hli := h.lane_of_mem hi
    have hw := hli.wanted_le
    rw [hpc] at hw
    refine hli.of_node ?_ hw (by rw [hpc]; rfl) (by simp [hpc, ProducerPc.reading])
      (by simp [ProducerPc.windows])
    simp [hpc, ProducerPc.alignedLane, hik]
  · exact (h.out n p hp).of_node (.inl (by simp [hpc, ProducerPc.claimed]))
      (by simp [ProducerPc.tails]) (by rw [hpc]; rfl) (by simp [hpc, ProducerPc.rows]) rfl

/-- Leaving phase (A) or (B) for the input side. -/
theorem BrokerOk.data_enter {s : BrokerState top α σ} (h : BrokerOk s) {n : top.Node}
    {room : ℕ} (hroom : 0 < room)
    (hpc : (s.nodes n).pc = .waitRoom [] room ∧ (s.nodes n).epochSet = true ∨
      (s.nodes n).pc = .align [] room) :
    BrokerOk (s.modifyNode n fun st => { st with epochSet := true, pc := enterData top n room }) := by
  refine h.of_producer n rfl rfl (fun m hm => s.nodes_modifyNode_of_ne _ hm) (fun _ _ => rfl)
    (fun _ _ => rfl) ?_ ?_ ?_ (fun p _ => h.rx p) ?_ <;> rw [s.nodes_modifyNode_self]
  -- a node without incoming lanes has nothing to wait for
  · unfold ShapeOk enterData
    split_ifs with hnil
    · exact ⟨rfl, by simp [hnil], hroom⟩
    · exact ⟨rfl, List.suffix_refl _, hroom⟩
  · exact h.slots n
  · intro i hi
    have hl := h.lane_of_mem hi
    have hw := hl.wanted_le
    have hne : top.incoming n ≠ [] := List.ne_nil_of_mem hi
    simp only [enterData, if_neg hne, BrokerState.lanes_modifyNode]
    refine hl.of_node ?_ ?_ ?_ ?_ (by simp [ProducerPc.windows])
    -- all lanes are aligned now
    · rcases hpc with ⟨hpc, hepoch⟩ | hpc
      · simp [hepoch]
      · simp [hpc, ProducerPc.alignedLane]
    · simp only [ProducerPc.wanted, if_pos hi]; omega
    · rcases hpc with ⟨hpc, -⟩ | hpc <;> simp [hpc, ProducerPc.reading]
    · rcases hpc with ⟨hpc, -⟩ | hpc <;> simp [hpc, ProducerPc.reading]
  · intro p hp
    have hclaimed : (enterData (α := α) top n room).claimed p = room := by
      unfold enterData; split_ifs <;> rfl
    have htails : (enterData (α := α) top n room).tails = [] := by
      unfold enterData; split_ifs <;> rfl
    have hrows : (enterData (α := α) top n room).rows = [] := by
      unfold enterData; split_ifs <;> rfl
    refine (h.out n p hp).of_node (.inl ?_) (by simp [htails]) ?_ ?_ rfl
    · show (enterData top n room).claimed p ≤ _
      rw [hclaimed]
      rcases hpc with ⟨hpc, -⟩ | hpc <;> simp [hpc, ProducerPc.claimed]
    · show (enterData top n room).rows = _
      rw [hrows]
      rcases hpc with ⟨hpc, -⟩ | hpc <;> rw [hpc] <;> rfl
    · rcases hpc with ⟨hpc, -⟩ | hpc <;> simp [hpc, ProducerPc.rows]

/-! ## The producer: sizing the common window -/

/-- (C) The window of one more lane. -/
theorem BrokerOk.waitData_visit {s : BrokerState top α σ} (h : BrokerOk s) {n : top.Node}
    {k : top.Lane} {todo : List top.Lane} {common room : ℕ}
    (hpc : (s.nodes n).pc = .waitData (k :: todo) common room) :
    BrokerOk (s.goto n (.waitData todo
      (min common ((s.source k).nextSequence - (s.lanes k).cursor)) room)) := by
  have hshape := h.shape n
  rw [ShapeOk, hpc] at hshape
  obtain ⟨hepoch, hsuf, hroom⟩ := hshape
  refine h.goto n _ ⟨hepoch, (List.suffix_cons k todo).trans hsuf, hroom⟩ (fun i hi => ?_)
    (fun p hp => ?_)
  · have hl := h.lane_of_mem hi
    refine hl.of_node (by rw [hpc]; rfl) ?_ (by rw [hpc]; rfl) (by simp [hpc, ProducerPc.reading])
      (by simp [ProducerPc.windows])
    have hw := hl.wanted_le
    rw [hpc] at hw
    simp only [ProducerPc.wanted, List.mem_cons] at hw ⊢
    by_cases hik : i = k
    · subst hik
      unfold BrokerState.source
      split_ifs <;> omega
    · simp only [hik, false_or] at hw
      split_ifs at hw ⊢ <;> omega
  · exact (h.out n p hp).of_node (.inl (by simp [hpc, ProducerPc.claimed]))
      (by simp [ProducerPc.tails]) (by rw [hpc]; rfl) (by simp [hpc, ProducerPc.rows]) rfl

/-- (C) Without data the pass starts over. -/
theorem BrokerOk.waitData_retry {s : BrokerState top α σ} (h : BrokerOk s) {n : top.Node}
    {common room : ℕ} (hpc : (s.nodes n).pc = .waitData [] common room) :
    BrokerOk (s.goto n (.waitData (top.incoming n) (top.node n).batch room)) := by
  have hshape := h.shape n
  rw [ShapeOk, hpc] at hshape
  refine h.goto n _ ⟨hshape.1, List.suffix_refl _, hshape.2.2⟩ (fun i hi => ?_) (fun p hp => ?_)
  · have hl := h.lane_of_mem hi
    refine hl.of_node (by rw [hpc]; rfl) ?_ (by rw [hpc]; rfl) (by simp [hpc, ProducerPc.reading])
      (by simp [ProducerPc.windows])
    have hw := hl.wanted_le
    simp only [ProducerPc.wanted, if_pos hi]
    omega
  · exact (h.out n p hp).of_node (.inl (by simp [hpc, ProducerPc.claimed]))
      (by simp [ProducerPc.tails]) (by rw [hpc]; rfl) (by simp [hpc, ProducerPc.rows]) rfl

/-- (C) With data the read of the lanes starts. -/
theorem BrokerOk.read_enter {s : BrokerState top α σ} (h : BrokerOk s) {n : top.Node}
    {common room : ℕ} (hpc : (s.nodes n).pc = .waitData [] common room) (hcommon : 0 < common) :
    BrokerOk (s.goto n (.read [] (top.incoming n) (min common room))) := by
  have hshape := h.shape n
  rw [ShapeOk, hpc] at hshape
  obtain ⟨hepoch, -, hroom⟩ := hshape
  refine h.goto n _ ⟨hepoch, rfl, lt_min hcommon hroom⟩ (fun i hi => ?_) (fun p hp => ?_)
  · have hl := h.lane_of_mem hi
    refine hl.of_node (by rw [hpc]; rfl) ?_ (by simp [hpc, ProducerPc.reading])
      (by simp [hpc, ProducerPc.reading]) (by simp [ProducerPc.windows])
    have hw := hl.wanted_le
    rw [hpc] at hw
    simp only [ProducerPc.wanted, List.not_mem_nil, if_false] at hw ⊢
    omega
  · refine (h.out n p hp).of_node (.inl ?_) (by simp [ProducerPc.tails]) (by rw [hpc]; rfl)
      (by simp [hpc, ProducerPc.rows]) rfl
    simp only [hpc, ProducerPc.claimed]
    exact min_le_right _ _

/-! ## The producer: reading the lanes -/

/-- A window that is buffered can be read, in place or as a copy. -/
theorem TxOk.exists_window {tx : TxState α} (h : TxOk tx) (knobs : Knobs) {cursor count : ℕ}
    (hlo : tx.txRing.earliestSequence ≤ cursor)
    (hhi : cursor + count ≤ tx.txRing.nextSequence) :
    ∃ w, readWindow knobs tx.txRing cursor count = some w ∧ WindowOk tx cursor count w := by
  obtain ⟨landed, hc, hpre, -⟩ := h.exists_landed
  rw [hc.next] at hhi
  unfold readWindow
  cases hv : (if knobs.fewerCopies then tx.txRing.view cursor count else none) with
  | some head =>
      have hview : tx.txRing.view cursor count = some head := by
        split_ifs at hv; exact hv
      obtain ⟨-, -, -, hhead, hfit⟩ := hc.view hview
      exact ⟨_, rfl, rfl, hhead, hfit⟩
  | none =>
      rw [hc.read hlo hhi]
      refine ⟨_, rfl, ?_⟩
      show slice landed cursor count = slice tx.sent cursor count
      have hpre' := (List.prefix_append landed tx.pending).trans hpre
      rw [slice_of_isPrefix hpre' hhi]

/-- (D) The window of a lane is there, and is read as the samples that the device sent. -/
theorem BrokerOk.read_visit {s : BrokerState top α σ} (h : BrokerOk s) (knobs : Knobs)
    {n : top.Node} {done : List (top.Lane × Window α)} {k : top.Lane} {todo : List top.Lane}
    {count : ℕ} (hpc : (s.nodes n).pc = .read done (k :: todo) count) :
    ∃ w, readWindow knobs (s.source k) (s.lanes k).cursor count = some w ∧
      w.samples (s.source k).buffer =
        slice (s.tx (top.link k).srcIndex).sent (s.lanes k).cursor count ∧
      BrokerOk ((s.modifyLane k fun lane =>
        { lane with windows := lane.windows ++ [w.samples (s.source k).buffer] }).goto n
          (.read (done ++ [(k, w)]) todo count)) := by
  have hshape := h.shape n
  rw [ShapeOk, hpc] at hshape
  obtain ⟨hepoch, hlist, hcount⟩ := hshape
  have hk : k ∈ top.incoming n := by rw [← hlist]; simp
  have hkdone : k ∉ done.map Prod.fst := by
    have hnd := top.nodup_incoming n
    rw [← hlist] at hnd
    exact fun hmem => (List.disjoint_of_nodup_append hnd) hmem List.mem_cons_self
  have hl := h.lane_of_mem hk
  have hw := hl.wanted_le
  rw [hpc] at hw
  -- the lane was not visited in this pass, so no window of it is in flight
  have hidle : (s.lanes k).windows.drop (s.lanes k).served = [] :=
    hl.idle (by rw [hpc]; exact hkdone)
  obtain ⟨w, hread, hwin⟩ := (h.tx (top.link k).srcIndex).exists_window knobs hl.earliest_le hw
  have hsamples := (h.tx (top.link k).srcIndex).samples_eq hwin hl.earliest_le hw
  refine ⟨w, hread, hsamples, h.modifyLane_goto n k hk _ _ ?_ ?_ (fun i hi hik => ?_)
    (fun p hp => ?_)⟩
  · exact ⟨hepoch, by simp [← hlist], hcount⟩
  · have hserved := hl.served_le
    refine ⟨hl.origin, ?_, fun hf => ?_, hl.earliest_le, hw, ?_, ?_, fun _ => ?_,
      fun hr => (hr (by simp [ProducerPc.reading])).elim, fun w' hmem => ?_⟩
    · rw [hl.init_eq, hpc]; rfl
    · rw [hl.init_eq, hepoch] at hf
      exact Bool.noConfusion hf
    · show (s.lanes k).served ≤ _
      rw [List.length_append]; omega
    · show (List.take (s.lanes k).served (_ ++ _)).flatten = _
      rw [List.take_append_of_le_length hserved, hl.committed]
    · show List.drop (s.lanes k).served (_ ++ _) = _
      rw [List.drop_append_of_le_length hserved, hidle]
      exact congrArg (fun x => [x]) hsamples
    · rcases List.mem_append.mp hmem with hmem | hmem
      · exact absurd (List.mem_map_of_mem hmem) hkdone
      · obtain ⟨-, rfl⟩ := Prod.mk.inj (List.mem_singleton.mp hmem)
        exact hwin
  -- the other lanes and the rows are where they were
  · have hli := h.lane_of_mem hi
    have hwi := hli.wanted_le
    rw [hpc] at hwi
    exact hli.of_node (by rw [hpc]; rfl) hwi (by simp [hpc, ProducerPc.reading, hik])
      (by rw [hpc]; exact fun _ => rfl) (by simp [hpc, ProducerPc.windows, hik])
  · exact (h.out n p hp).of_node (.inl (by simp [hpc, ProducerPc.claimed]))
      (by simp [ProducerPc.tails]) (by rw [hpc]; rfl) (by simp [hpc, ProducerPc.rows]) rfl

/-- (D) Behind the last lane the rows are reserved. -/
theorem BrokerOk.reserve_enter {s : BrokerState top α σ} (h : BrokerOk s) {n : top.Node}
    {done : List (top.Lane × Window α)} {count : ℕ}
    (hpc : (s.nodes n).pc = .read done [] count) :
    BrokerOk (s.goto n (.reserve done [] (top.node n).rxPorts count)) := by
  have hshape := h.shape n
  rw [ShapeOk, hpc] at hshape
  obtain ⟨hepoch, hlist, hcount⟩ := hshape
  rw [List.append_nil] at hlist
  refine h.goto n _ ⟨hepoch, hlist, rfl, hcount⟩ (fun i hi => ?_) (fun p hp => ?_)
  · have hl := h.lane_of_mem hi
    have hw := hl.wanted_le
    rw [hpc] at hw
    refine hl.of_node (by rw [hpc]; rfl) hw ?_ (by rw [hpc]; exact fun _ => rfl)
      (by rw [hpc]; exact fun _ => id)
    rw [hpc]
    exact iff_of_true trivial (by show i ∈ _; rw [hlist]; exact hi)
  · exact (h.out n p hp).of_node (.inl (by simp [hpc, ProducerPc.claimed]))
      (by simp [ProducerPc.tails]) (by rw [hpc]; rfl) (by simp [hpc, ProducerPc.rows]) rfl

/-! ## The producer: reserving rows -/

/-- (E) The row of one more port is reserved, or staged. -/
theorem BrokerOk.reserve_visit {s : BrokerState top α σ} (h : BrokerOk s) {n : top.Node}
    {windows : List (top.Lane × Window α)} {done : List (top.Port × Option ℕ)} {r : top.Port}
    {todo : List top.Port} {count : ℕ} {tail : Option ℕ}
    (hpc : (s.nodes n).pc = .reserve windows done (r :: todo) count)
    (htail : tail = none ∨ tail = (s.rx r).rxRing.reserve count) :
    BrokerOk (s.goto n (.reserve windows (done ++ [(r, tail)]) todo count)) := by
  have hshape := h.shape n
  rw [ShapeOk, hpc] at hshape
  obtain ⟨hepoch, hwin, hlist, hcount⟩ := hshape
  refine h.goto n _ ⟨hepoch, hwin, by simp [← hlist], hcount⟩ (fun i hi => ?_) (fun p hp => ?_)
  · have hl := h.lane_of_mem hi
    have hw := hl.wanted_le
    rw [hpc] at hw
    exact hl.of_node (by rw [hpc]; rfl) hw (by rw [hpc]; rfl) (by rw [hpc]; exact fun _ => rfl)
      (by rw [hpc]; exact fun _ => id)
  · have ho := h.out n p hp
    refine ⟨?_, ?_, fun t ht => ?_, ?_, ?_⟩
    · have := ho.fits; rw [hpc] at this; exact this
    · have := ho.highWater; rw [hpc] at this; exact this
    · rcases List.mem_append.mp ht with ht | ht
      · have := ho.tail t
        rw [hpc] at this
        exact this ht
      · obtain ⟨rfl, rfl⟩ := Prod.mk.inj (List.mem_singleton.mp ht)
        rcases htail with htail | htail
        · exact absurd htail (by simp)
        · obtain ⟨-, -, h₁, h₂⟩ := (h.rx p).carries.reserve htail.symm
          rw [(h.rx p).carries.next]
          exact ⟨h₁, h₂⟩
    · have := ho.produced; rw [hpc] at this; exact this
    · have := ho.pending; rw [hpc] at this; exact this

/-- (E) Behind the last row the channel is called. -/
theorem BrokerOk.process_enter {s : BrokerState top α σ} (h : BrokerOk s) {n : top.Node}
    {windows : List (top.Lane × Window α)} {done : List (top.Port × Option ℕ)} {count : ℕ}
    (hpc : (s.nodes n).pc = .reserve windows done [] count) :
    BrokerOk (s.goto n (.process windows done count)) := by
  have hshape := h.shape n
  rw [ShapeOk, hpc] at hshape
  obtain ⟨hepoch, hwin, hlist, hcount⟩ := hshape
  rw [List.append_nil] at hlist
  refine h.goto n _ ⟨hepoch, hwin, hlist, hcount⟩ (fun i hi => ?_) (fun p hp => ?_)
  · have hl := h.lane_of_mem hi
    have hw := hl.wanted_le
    rw [hpc] at hw
    exact hl.of_node (by rw [hpc]; rfl) hw (by rw [hpc]; rfl) (by rw [hpc]; exact fun _ => rfl)
      (by rw [hpc]; exact fun _ => id)
  · exact (h.out n p hp).of_node (.inl (by simp [hpc, ProducerPc.claimed]))
      (by rw [hpc]; exact fun t ht => ⟨ht, rfl⟩) (by rw [hpc]; rfl) (by simp [hpc, ProducerPc.rows])
      rfl

end Steps
