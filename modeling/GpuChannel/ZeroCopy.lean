/-
# The zero-copy knobs change nothing observable

A forward simulation from the broker with any setting of the knobs to the broker that
copies everything.  Producers and pullers move in lock step.  A reply sent straight from
the ring is released only after the send, so the copying broker answers it when it is
released: until then its REP worker waits, one reply behind, and it catches up at the end.
-/
import GpuChannel.Relay

open CyclicBuffer

/-- Both knobs off. -/
def copyingKnobs : Knobs := { fewerCopies := false, directRows := false }

section ZeroCopy

variable {top : Topology} {α σ : Type*}

/-! ## The simulation relation -/

/-- Equal program counters, up to where windows and rows are stored. -/
inductive PcSim : ProducerPc top.Port top.Lane α → ProducerPc top.Port top.Lane α → Prop
  | waitRoom (todo room) : PcSim (.waitRoom todo room) (.waitRoom todo room)
  | align (todo room) : PcSim (.align todo room) (.align todo room)
  | waitData (todo common room) : PcSim (.waitData todo common room) (.waitData todo common room)
  | read {done done'} (todo count) (h : done.map Prod.fst = done'.map Prod.fst) :
      PcSim (.read done todo count) (.read done' todo count)
  | reserve {windows windows' done done'} (todo count)
      (hw : windows.map Prod.fst = windows'.map Prod.fst)
      (ht : done.map Prod.fst = done'.map Prod.fst) :
      PcSim (.reserve windows done todo count) (.reserve windows' done' todo count)
  | process {windows windows' tails tails'} (count)
      (hw : windows.map Prod.fst = windows'.map Prod.fst)
      (ht : tails.map Prod.fst = tails'.map Prod.fst) :
      PcSim (.process windows tails count) (.process windows' tails' count)
  | commit {rows rows'} (todo count) (h : rows.map Prod.fst = rows'.map Prod.fst) :
      PcSim (.commit todo rows count) (.commit todo rows' count)
  | push {todo todo'} (count) (h : todo.map Prod.fst = todo'.map Prod.fst) :
      PcSim (.push todo count) (.push todo' count)
  | threw (count what) : PcSim (.threw count what) (.threw count what)
  | failed (what) : PcSim (.failed what) (.failed what)

structure NodeSim (node node' : NodeState top.Port top.Lane α σ) : Prop where
  pc : PcSim node.pc node'.pc
  epochSet : node'.epochSet = node.epochSet
  proc : node'.proc = node.proc
  slots : node'.slots = node.slots

/-- The copying REP worker waits while a window is held for an in-ring send. -/
def RepSim (rx rx' : RxState α) : Prop :=
  match rx.rep with
  | .send (.inPlace _ _) _ => rx'.rep = .waitRow ∧ rx'.replies = rx.replies
  | .release _ => rx'.rep = .waitRow ∧ ∃ row, rx.replies = rx'.replies ++ [row]
  | rep => rx'.rep = rep ∧ rx'.replies = rx.replies

structure RxSim (rx rx' : RxState α) : Prop where
  capacity : rx'.rxRing.capacity = rx.rxRing.capacity
  cursor : rx'.rxCursor = rx.rxCursor
  slots : rx'.rxSlots = rx.rxSlots
  published : rx'.published = rx.published
  rep : RepSim rx rx'

structure BrokerSim (s t : BrokerState top α σ) : Prop where
  ok : BrokerOk s
  ok' : BrokerOk t
  tx : t.tx = s.tx
  lanes : t.lanes = s.lanes
  gaps : t.txSequenceGaps = s.txSequenceGaps
  node : ∀ n, NodeSim (s.nodes n) (t.nodes n)
  rx : ∀ p, RxSim (s.rx p) (t.rx p)

/-! ## The REP worker -/

/-- The rows in the ring and the boundaries determine its size. -/
theorem RxSim.size_eq {rx rx' : RxState α} (h : RxSim rx rx') (hok : RxOk rx) (hok' : RxOk rx') :
    rx'.rxRing.size = rx.rxRing.size := by
  rw [← hok.sum_rxSlots, ← hok'.sum_rxSlots, h.slots]

/-- Two copying steps answer the front row: pop it into the reply buffer, then send. -/
theorem RxOk.pop_and_send {rx : RxState α} (h : RxOk rx) (hrep : rx.rep = .waitRow) (id : String)
    {row : List α} {rest : List (List α)} (hsplit : rx.published = rx.replies ++ row :: rest) :
    [true, true].foldl (fun rx ready => rx.repStep copyingKnobs id ready) rx =
      { rx.popRow row.length with rep := .waitReq, replies := rx.replies ++ [row] } := by
  obtain ⟨hc, hpos, popped, rest', hsplit', hcur, he, hslots, hok⟩ := h
  rw [RepOk, hrep] at hok
  obtain rfl : rx.replies = popped := hok
  obtain rfl : rest' = row :: rest := List.append_cancel_left (hsplit'.symm.trans hsplit)
  obtain ⟨hle, hfront⟩ := RxState.slice_front hsplit hcur
  have hrow : 0 < row.length := hpos row (by rw [hsplit]; simp)
  have hpop : rx.repStep copyingKnobs id true =
      { rx.popRow row.length with rep := .send (.copied row) row.length } := by
    unfold RxState.repStep
    have hcopying : (if copyingKnobs.fewerCopies then rx.rxRing.view rx.rxCursor row.length
        else none) = none := rfl
    rw [hrep, hslots, List.map_cons]
    dsimp only
    rw [hcopying, hc.read he.le hle, hfront]
    dsimp only
    rw [if_pos hrow]
  rw [List.foldl_cons, List.foldl_cons, List.foldl_nil, hpop]
  rfl

/-- Every REP step is answered by copying REP steps of the same port. -/
theorem RxSim.repStep {rx rx' : RxState α} (h : RxSim rx rx') (hok : RxOk rx) (hok' : RxOk rx')
    (knobs : Knobs) (id : String) (ready : Bool) :
    ∃ bs : List Bool, RxSim (rx.repStep knobs id ready)
      (bs.foldl (fun rx ready => rx.repStep copyingKnobs id ready) rx') := by
  obtain ⟨hcap, hcur, hslots, hpub, hrep⟩ := h
  have hstay : RxSim rx rx' := ⟨hcap, hcur, hslots, hpub, hrep⟩
  cases hpc : rx.rep with
  | failed what => exact ⟨[], by rw [RxState.repStep, hpc]; exact hstay⟩
  | waitReq =>
      rw [RepSim, hpc] at hrep
      cases ready with
      | false => exact ⟨[], by rw [RxState.repStep, hpc]; exact hstay⟩
      | true =>
          refine ⟨[true], ?_⟩
          rw [List.foldl_cons, List.foldl_nil, RxState.repStep, RxState.repStep, hpc, hrep.1]
          exact ⟨hcap, hcur, hslots, hpub, rfl, hrep.2⟩
  | waitRow =>
      rw [RepSim, hpc] at hrep
      obtain ⟨hc, hpos, popped, rest, hsplit, hcursor, he, hs, hk⟩ := (show RxOk rx from hok)
      obtain ⟨hc', -, popped', rest', hsplit', hcursor', he', hs', hk'⟩ := (show RxOk rx' from hok')
      rw [RepOk, hpc] at hk
      rw [RepOk, hrep.1] at hk'
      change rx.replies = popped at hk
      change rx'.replies = popped' at hk'
      have hpp : popped' = popped := by rw [← hk', hrep.2, hk]
      subst hpp
      have hrest : rest' = rest :=
        List.append_cancel_left (hsplit'.symm.trans (hpub.trans hsplit))
      subst hrest
      cases rest' with
      | nil =>
          refine ⟨[], ?_⟩
          rw [RxState.repStep, hpc, hs]
          exact hstay
      | cons row rest =>
          obtain ⟨hle, hfront⟩ := RxState.slice_front hsplit hcursor
          obtain ⟨hle', hfront'⟩ := RxState.slice_front hsplit' hcursor'
          have hrow : 0 < row.length := hpos row (by rw [hsplit]; simp)
          cases hv : (if knobs.fewerCopies then rx.rxRing.view rx.rxCursor row.length else none) with
          | some head =>
              -- the window is held in place: the copying worker waits
              refine ⟨[], ?_⟩
              rw [RxState.repStep, hpc, hs, List.map_cons]
              dsimp only
              rw [hv]
              exact ⟨hcap, hcur, hslots.trans hs, hpub, hrep⟩
          | none =>
              refine ⟨[ready], ?_⟩
              rw [List.foldl_cons, List.foldl_nil, RxState.repStep, RxState.repStep, hpc, hrep.1, hs,
                hs', List.map_cons]
              dsimp only
              have hcopying : (if copyingKnobs.fewerCopies then
                  rx'.rxRing.view rx'.rxCursor row.length else none) = none := rfl
              rw [hv, hc.read he.le hle, hfront, hcopying, hc'.read he'.le hle', hfront']
              dsimp only
              rw [if_pos hrow]
              refine ⟨?_, ?_, ?_, hpub, rfl, hrep.2⟩
              · simpa [RxState.popRow] using hcap
              · show rx'.rxCursor + _ = rx.rxCursor + _
                rw [hcur]
              · show rx'.rxSlots.tail = rx.rxSlots.tail
                rw [hslots]
  | send reply take =>
      rw [RepSim, hpc] at hrep
      cases ready with
      | false => exact ⟨[], by rw [RxState.repStep, hpc]; exact hstay⟩
      | true =>
          cases reply with
          | copied samples =>
              refine ⟨[true], ?_⟩
              rw [List.foldl_cons, List.foldl_nil, RxState.repStep, RxState.repStep, hpc, hrep.1]
              refine ⟨hcap, hcur, hslots, hpub, rfl, ?_⟩
              show rx'.replies ++ [samples] = rx.replies ++ [samples]
              rw [hrep.2]
          | inPlace head n =>
              refine ⟨[], ?_⟩
              rw [RxState.repStep, hpc]
              refine ⟨hcap, hcur, hslots, hpub, hrep.1, slice rx.rxRing.buffer head n, ?_⟩
              show rx.replies ++ [_] = rx'.replies ++ [_]
              rw [hrep.2]
              rfl
  | release take =>
      rw [RepSim, hpc] at hrep
      obtain ⟨hwait, x, hx⟩ := hrep
      obtain ⟨-, -, popped, rest, hsplit, -, -, -, hk⟩ := (show RxOk rx from hok)
      rw [RepOk, hpc] at hk
      obtain ⟨row, rest', rfl, rfl, hreplies⟩ := hk
      have hpopped : rx'.replies = popped ∧ [x] = [row] :=
        List.append_inj' (hx.symm.trans hreplies) rfl
      have hsplit' : rx'.published = rx'.replies ++ row :: rest' := by
        rw [hpub, hsplit, hpopped.1]
      refine ⟨[true, true], ?_⟩
      rw [hok'.pop_and_send hwait id hsplit', RxState.repStep, hpc]
      refine ⟨?_, ?_, ?_, hpub, rfl, ?_⟩
      · simpa [RxState.popRow] using hcap
      · show rx'.rxCursor + _ = rx.rxCursor + _
        rw [hcur]
      · show rx'.rxSlots.tail = rx.rxSlots.tail
        rw [hslots]
      · show rx'.replies ++ [row] = rx.replies
        rw [hreplies, hpopped.1]

/-- After a catch-up the copying REP worker has sent every reply that was sent in place. -/
theorem RxSim.catch_up {rx rx' : RxState α} (h : RxSim rx rx') (hok : RxOk rx) (hok' : RxOk rx')
    (id : String) :
    ∃ bs : List Bool,
      (bs.foldl (fun rx ready => rx.repStep copyingKnobs id ready) rx').replies = rx.replies := by
  cases hpc : rx.rep with
  | release take =>
      obtain ⟨bs, hbs⟩ := h.repStep hok hok' copyingKnobs id true
      have hrep := hbs.rep
      rw [RxState.repStep, hpc] at hrep
      exact ⟨bs, hrep.2⟩
  | send reply take =>
      have hrep := h.rep
      rw [RepSim, hpc] at hrep
      cases reply with
      | copied | inPlace => exact ⟨[], hrep.2⟩
  | waitReq | waitRow | failed =>
      have hrep := h.rep
      rw [RepSim, hpc] at hrep
      exact ⟨[], hrep.2⟩

/-! ## The producer -/

theorem NodeSim.goto {node node' : NodeState top.Port top.Lane α σ} (h : NodeSim node node')
    {pc pc' : ProducerPc top.Port top.Lane α} (hpc : PcSim pc pc') :
    NodeSim { node with pc := pc } { node' with pc := pc' } :=
  ⟨hpc, h.epochSet, h.proc, h.slots⟩

theorem PcSim.of_enterData (n : top.Node) (room : ℕ) :
    PcSim (enterData (α := α) top n room) (enterData top n room) := by
  unfold enterData
  split_ifs
  · exact .read _ _ rfl
  · exact .waitData _ _ _

/-- Lock-step producer steps that move both program counters. -/
theorem BrokerSim.goto {s t : BrokerState top α σ} (h : BrokerSim s t) (n : top.Node)
    {pc pc' : ProducerPc top.Port top.Lane α} (hpc : PcSim pc pc')
    (hok : BrokerOk (s.goto n pc)) (hok' : BrokerOk (t.goto n pc')) :
    BrokerSim (s.goto n pc) (t.goto n pc') := by
  refine ⟨hok, hok', h.tx, h.lanes, h.gaps, fun m => ?_, h.rx⟩
  by_cases hm : m = n
  · subst hm
    rw [BrokerState.nodes_goto_self, BrokerState.nodes_goto_self]
    exact (h.node m).goto hpc
  · rw [BrokerState.nodes_goto_of_ne _ _ hm, BrokerState.nodes_goto_of_ne _ _ hm]
    exact h.node m

/-- Lock-step producer steps that also make the same change to a lane. -/
theorem BrokerSim.modifyLane_goto {s t : BrokerState top α σ} (h : BrokerSim s t) (n : top.Node)
    (k : top.Lane) {f f' : LaneState α → LaneState α} (hf : f' (s.lanes k) = f (s.lanes k))
    {pc pc' : ProducerPc top.Port top.Lane α} (hpc : PcSim pc pc')
    (hok : BrokerOk ((s.modifyLane k f).goto n pc))
    (hok' : BrokerOk ((t.modifyLane k f').goto n pc')) :
    BrokerSim ((s.modifyLane k f).goto n pc) ((t.modifyLane k f').goto n pc') := by
  refine ⟨hok, hok', h.tx, ?_, h.gaps, fun m => ?_, h.rx⟩
  · show Function.update t.lanes k (f' (t.lanes k)) = Function.update s.lanes k (f (s.lanes k))
    rw [h.lanes, hf]
  · by_cases hm : m = n
    · subst hm
      rw [BrokerState.nodes_goto_self, BrokerState.nodes_goto_self]
      exact (h.node m).goto hpc
    · rw [BrokerState.nodes_goto_of_ne _ _ hm, BrokerState.nodes_goto_of_ne _ _ hm]
      exact h.node m

/-- The channel sees the same windows: a view held in place shows what a copy holds. -/
theorem BrokerSim.inputs_eq {s t : BrokerState top α σ} (h : BrokerSim s t) {n : top.Node}
    {windows windows' : List (top.Lane × Window α)} {tails tails' : List (top.Port × Option ℕ)}
    {count : ℕ} (hs : (s.nodes n).pc = .process windows tails count)
    (ht : (t.nodes n).pc = .process windows' tails' count)
    (hw : windows.map Prod.fst = windows'.map Prod.fst) :
    (windows'.map fun kw => kw.2.samples (t.source kw.1).buffer) =
      windows.map fun kw => kw.2.samples (s.source kw.1).buffer := by
  have hin : ∀ {u : BrokerState top α σ} {ws : List (top.Lane × Window α)} {ts}, BrokerOk u →
      (u.nodes n).pc = .process ws ts count →
      (ws.map fun kw => kw.2.samples (u.source kw.1).buffer) =
        (ws.map Prod.fst).map fun k =>
          slice (u.tx (top.link k).srcIndex).sent (u.lanes k).cursor count := by
    intro u ws ts hu hpc
    rw [List.map_map]
    refine List.map_congr_left fun kw hkw => ?_
    have hshape := hu.shape n
    rw [ShapeOk, hpc] at hshape
    have hk : kw.1 ∈ top.incoming n := hshape.2.1 ▸ List.mem_map_of_mem hkw
    have := hu.inputs_eq (n := n) (k := kw.1) (w := kw.2) (by rw [hpc]; exact hkw) hk
    rw [hpc] at this
    exact this
  rw [hin h.ok hs, hin h.ok' ht, hw, h.tx, h.lanes]

theorem fillRows_fields (tails : List (top.Port × Option ℕ)) (row : top.Port → List α)
    (rx : top.Port → RxState α) (p : top.Port) :
    (fillRows tails row rx p).rxCursor = (rx p).rxCursor ∧
      (fillRows tails row rx p).rxSlots = (rx p).rxSlots ∧
      (fillRows tails row rx p).published = (rx p).published ∧
      (fillRows tails row rx p).rep = (rx p).rep ∧
      (fillRows tails row rx p).replies = (rx p).replies := by
  unfold fillRows
  split <;> exact ⟨rfl, rfl, rfl, rfl, rfl⟩

theorem RepSim.congr {rx₁ rx₁' rx₂ rx₂' : RxState α} (h : RepSim rx₁ rx₁')
    (hrep : rx₂.rep = rx₁.rep) (hreplies : rx₂.replies = rx₁.replies)
    (hrep' : rx₂'.rep = rx₁'.rep) (hreplies' : rx₂'.replies = rx₁'.replies) :
    RepSim rx₂ rx₂' := by
  unfold RepSim at h ⊢
  rw [hrep, hreplies, hrep', hreplies']
  exact h

/-- The channel call: same inputs, same outcome, rows written in place or staged. -/
theorem BrokerSim.process {s t : BrokerState top α σ} (h : BrokerSim s t) (knobs : Knobs)
    (proc : Processor top α σ) {n : top.Node} {windows windows' : List (top.Lane × Window α)}
    {tails tails' : List (top.Port × Option ℕ)} {count : ℕ}
    (hpc : (s.nodes n).pc = .process windows tails count)
    (hpc' : (t.nodes n).pc = .process windows' tails' count)
    (hw : windows.map Prod.fst = windows'.map Prod.fst)
    (ht : tails.map Prod.fst = tails'.map Prod.fst) :
    BrokerSim (producerStep knobs proc s n) (producerStep copyingKnobs proc t n) := by
  have hok := h.ok.producer knobs proc n
  have hok' := h.ok'.producer copyingKnobs proc n
  have hproc := (h.node n).proc
  rw [producerStep, hpc] at hok ⊢
  rw [producerStep, hpc'] at hok' ⊢
  dsimp only at hok hok' ⊢
  -- the spans show the same samples, so the channel gives the same rows
  rw [h.inputs_eq hpc hpc' hw, hproc] at hok' ⊢
  cases hcall : proc.process n (s.nodes n).proc
      (windows.map fun kw => kw.2.samples (s.source kw.1).buffer) count with
  | error what =>
      rw [hcall] at hok hok'
      exact h.goto n (.threw count what) hok hok'
  | ok out =>
      rw [hcall] at hok hok'
      refine ⟨hok, hok', h.tx, h.lanes, h.gaps, fun m => ?_, fun p => ?_⟩
      · by_cases hm : m = n
        · subst hm
          simp only [BrokerState.nodes_modifyNode_self]
          refine ⟨.commit _ _ ?_, (h.node m).epochSet, rfl, ?_⟩
          · rw [List.map_map, List.map_map]
            exact ht
          · show (t.nodes m).slots ++ _ = (s.nodes m).slots ++ _
            rw [(h.node m).slots]
        · simp only [BrokerState.nodes_modifyNode_of_ne _ _ hm]
          exact h.node m
      · have hrow := length_portRow top n count out.2
        obtain ⟨h₁, h₂, h₃, h₄, h₅⟩ := fillRows_fields tails (portRow top n count out.2) s.rx p
        obtain ⟨h₁', h₂', h₃', h₄', h₅'⟩ :=
          fillRows_fields tails' (portRow top n count out.2) t.rx p
        have hp := h.rx p
        refine ⟨?_, h₁'.trans (hp.cursor.trans h₁.symm), h₂'.trans (hp.slots.trans h₂.symm),
          h₃'.trans (hp.published.trans h₃.symm), hp.rep.congr h₄ h₅ h₄' h₅'⟩
        by_cases hmem : p ∈ (top.node n).rxPorts
        · have hc := (h.ok.fillRows_spec hpc hrow hmem).2.2.1
          have hc' := (h.ok'.fillRows_spec hpc' hrow hmem).2.2.1
          exact hc'.trans (hp.capacity.trans hc.symm)
        -- a port of another node has no reserved row
        · have hnone : ∀ {u : BrokerState top α σ} {ws : List (top.Lane × Window α)} {ts},
              BrokerOk u → (u.nodes n).pc = .process ws ts count →
              fillRows ts (portRow top n count out.2) u.rx p = u.rx p := by
            intro u ws ts hu hupc
            have hshape := hu.shape n
            rw [ShapeOk, hupc] at hshape
            exact fillRows_of_notMem _ _ _ (hshape.2.2.1.symm ▸ hmem)
          show (fillRows tails' _ t.rx p).rxRing.capacity = (fillRows tails _ s.rx p).rxRing.capacity
          rw [hnone h.ok hpc, hnone h.ok' hpc']
          exact hp.capacity

/-- Publishing: a committed row and a pushed copy append the same samples. -/
theorem BrokerSim.push {s t : BrokerState top α σ} (h : BrokerSim s t) (knobs : Knobs)
    (proc : Processor top α σ) {n : top.Node} {r : top.Port} {row row' : Row α}
    {todo todo' : List (top.Port × Row α)} {count : ℕ}
    (hpc : (s.nodes n).pc = .push ((r, row) :: todo) count)
    (hpc' : (t.nodes n).pc = .push ((r, row') :: todo') count)
    (htodo : todo.map Prod.fst = todo'.map Prod.fst) :
    BrokerSim (producerStep knobs proc s n) (producerStep copyingKnobs proc t n) := by
  obtain ⟨ring, hring, hcap, hslots, hok⟩ := h.ok.push_visit hpc
  obtain ⟨ring', hring', hcap', hslots', hok'⟩ := h.ok'.push_visit hpc'
  have hsamples : row'.samples (t.rx r).rxRing count = row.samples (s.rx r).rxRing count := by
    rw [(h.node n).slots, hslots, (h.rx r).published] at hslots'
    exact (List.cons.inj (List.append_cancel_left hslots')).1.symm
  rw [producerStep, hpc, producerStep, hpc']
  dsimp only
  rw [hring, hring']
  refine ⟨hok, hok', h.tx, h.lanes, h.gaps, fun m => ?_, fun p => ?_⟩
  · by_cases hm : m = n
    · subst hm
      rw [BrokerState.nodes_goto_self, BrokerState.nodes_goto_self]
      exact (h.node m).goto (.push _ htodo)
    · rw [BrokerState.nodes_goto_of_ne _ _ hm, BrokerState.nodes_goto_of_ne _ _ hm]
      exact h.node m
  · simp only [BrokerState.rx_goto]
    by_cases hp : p = r
    · subst hp
      have hrx := h.rx p
      rw [BrokerState.rx_modifyRx_self, BrokerState.rx_modifyRx_self]
      refine ⟨hcap'.trans (hrx.capacity.trans hcap.symm), hrx.cursor, ?_, ?_,
        hrx.rep.congr rfl rfl rfl rfl⟩
      · show (t.rx p).rxSlots ++ _ = (s.rx p).rxSlots ++ _
        rw [hrx.slots]
      · show (t.rx p).published ++ _ = (s.rx p).published ++ _
        rw [hrx.published, hsamples]
    · rw [BrokerState.rx_modifyRx_of_ne _ _ hp, BrokerState.rx_modifyRx_of_ne _ _ hp]
      exact h.rx p

section Passes

variable {s t : BrokerState top α σ} {n : top.Node}

/-- The related brokers read the same TX rings. -/
theorem BrokerSim.source_eq (h : BrokerSim s t) (k : top.Lane) : t.source k = s.source k := by
  rw [BrokerState.source, BrokerState.source, h.tx]

/-- Pass (A): the headroom of a port is the same in both. -/
theorem BrokerSim.waitRoom (h : BrokerSim s t) (knobs : Knobs) (proc : Processor top α σ)
    {todo : List top.Port} {room : ℕ} (hpc : (s.nodes n).pc = .waitRoom todo room)
    (hpc' : (t.nodes n).pc = .waitRoom todo room) :
    BrokerSim (producerStep knobs proc s n) (producerStep copyingKnobs proc t n) := by
  have hok := h.ok.producer knobs proc n
  have hok' := h.ok'.producer copyingKnobs proc n
  rw [producerStep, hpc] at hok ⊢
  rw [producerStep, hpc'] at hok' ⊢
  cases todo with
  | cons r todo =>
      have hroom : rxHeadroom (top.port r).batch (t.rx r).rxRing =
          rxHeadroom (top.port r).batch (s.rx r).rxRing := by
        unfold rxHeadroom IqRing.freeCapacity
        rw [(h.rx r).size_eq (h.ok.rx r) (h.ok'.rx r), (h.rx r).capacity]
      dsimp only at hok hok' ⊢
      rw [hroom] at hok' ⊢
      exact h.goto n (.waitRoom _ _) hok hok'
  | nil =>
      dsimp only at hok hok' ⊢
      rw [(h.node n).epochSet] at hok' ⊢
      split_ifs at hok hok' ⊢
      · exact h.goto n (.of_enterData n room) hok hok'
      · exact h.goto n (.align _ _) hok hok'
      · exact h.goto n (.waitRoom _ _) hok hok'

/-- Pass (B): the cursors are aligned to the same samples. -/
theorem BrokerSim.align (h : BrokerSim s t) (knobs : Knobs) (proc : Processor top α σ)
    {todo : List top.Lane} {room : ℕ} (hpc : (s.nodes n).pc = .align todo room)
    (hpc' : (t.nodes n).pc = .align todo room) :
    BrokerSim (producerStep knobs proc s n) (producerStep copyingKnobs proc t n) := by
  have hok := h.ok.producer knobs proc n
  have hok' := h.ok'.producer copyingKnobs proc n
  rw [producerStep, hpc] at hok ⊢
  rw [producerStep, hpc'] at hok' ⊢
  cases todo with
  | cons k todo =>
      dsimp only at hok hok' ⊢
      rw [h.source_eq k] at hok' ⊢
      exact h.modifyLane_goto n k rfl (.align _ _) hok hok'
  | nil =>
      refine ⟨hok, hok', h.tx, h.lanes, h.gaps, fun m => ?_, h.rx⟩
      by_cases hm : m = n
      · subst hm
        simp only [BrokerState.nodes_modifyNode_self]
        exact ⟨.of_enterData m room, rfl, (h.node m).proc, (h.node m).slots⟩
      · simp only [BrokerState.nodes_modifyNode_of_ne _ _ hm]
        exact h.node m

/-- Pass (C): a lane has the same samples in both. -/
theorem BrokerSim.waitData (h : BrokerSim s t) (knobs : Knobs) (proc : Processor top α σ)
    {todo : List top.Lane} {common room : ℕ} (hpc : (s.nodes n).pc = .waitData todo common room)
    (hpc' : (t.nodes n).pc = .waitData todo common room) :
    BrokerSim (producerStep knobs proc s n) (producerStep copyingKnobs proc t n) := by
  have hok := h.ok.producer knobs proc n
  have hok' := h.ok'.producer copyingKnobs proc n
  rw [producerStep, hpc] at hok ⊢
  rw [producerStep, hpc'] at hok' ⊢
  cases todo with
  | cons k todo =>
      have hk : k ∈ top.incoming n := by
        have hshape := h.ok.shape n
        rw [ShapeOk, hpc] at hshape
        exact hshape.2.1.subset List.mem_cons_self
      -- no lane loses samples, so the gap branch is taken in neither
      have he : ¬ (s.lanes k).cursor < (s.source k).earliestSequence :=
        Nat.not_lt.mpr (h.ok.lane_of_mem hk).earliest_le
      dsimp only at hok hok' ⊢
      rw [h.lanes, h.source_eq k, if_neg he] at hok' ⊢
      rw [if_neg he] at hok ⊢
      exact h.goto n (.waitData _ _ _) hok hok'
  | nil =>
      dsimp only at hok hok' ⊢
      split_ifs at hok hok' ⊢
      · exact h.goto n (.read _ _ rfl) hok hok'
      · exact h.goto n (.waitData _ _ _) hok hok'

/-- Pass (D): a window in place shows what the copying broker copies. -/
theorem BrokerSim.read (h : BrokerSim s t) (knobs : Knobs) (proc : Processor top α σ)
    {done done' : List (top.Lane × Window α)} {todo : List top.Lane} {count : ℕ}
    (hpc : (s.nodes n).pc = .read done todo count) (hpc' : (t.nodes n).pc = .read done' todo count)
    (hdone : done.map Prod.fst = done'.map Prod.fst) :
    BrokerSim (producerStep knobs proc s n) (producerStep copyingKnobs proc t n) := by
  cases todo with
  | cons k todo =>
      obtain ⟨w, hread, hsamples, hok⟩ := h.ok.read_visit knobs hpc
      obtain ⟨w', hread', hsamples', hok'⟩ := h.ok'.read_visit copyingKnobs hpc'
      rw [producerStep, hpc, producerStep, hpc']
      dsimp only
      rw [hread, hread']
      refine h.modifyLane_goto n k ?_ (.read _ _ ?_) hok hok'
      · rw [hsamples', hsamples, h.tx, h.lanes]
      · rw [List.map_append, List.map_append, hdone]; rfl
  | nil =>
      have hok := h.ok.producer knobs proc n
      have hok' := h.ok'.producer copyingKnobs proc n
      rw [producerStep, hpc] at hok ⊢
      rw [producerStep, hpc'] at hok' ⊢
      exact h.goto n (.reserve _ _ hdone rfl) hok hok'

/-- Pass (H): a row in the ring is published as the row that is pushed. -/
theorem BrokerSim.pushes (h : BrokerSim s t) (knobs : Knobs) (proc : Processor top α σ)
    {todo todo' : List (top.Port × Row α)} {count : ℕ} (hpc : (s.nodes n).pc = .push todo count)
    (hpc' : (t.nodes n).pc = .push todo' count)
    (htodo : todo.map Prod.fst = todo'.map Prod.fst) :
    BrokerSim (producerStep knobs proc s n) (producerStep copyingKnobs proc t n) := by
  cases todo with
  | nil =>
      obtain rfl : todo' = [] := List.map_eq_nil_iff.mp htodo.symm
      have hok := h.ok.producer knobs proc n
      have hok' := h.ok'.producer copyingKnobs proc n
      rw [producerStep, hpc] at hok ⊢
      rw [producerStep, hpc'] at hok' ⊢
      exact h.goto n (.waitRoom _ _) hok hok'
  | cons x todo =>
      obtain ⟨x', rest, rfl, hx, hrest⟩ := List.map_eq_cons_iff.mp htodo.symm
      obtain ⟨r, row⟩ := x
      obtain ⟨r', row'⟩ := x'
      obtain rfl : r' = r := hx
      exact h.push knobs proc hpc hpc' hrest.symm

end Passes

/-- Producers move in lock step. -/
theorem BrokerSim.producer {s t : BrokerState top α σ} (h : BrokerSim s t) (knobs : Knobs)
    (proc : Processor top α σ) (n : top.Node) :
    BrokerSim (producerStep knobs proc s n) (producerStep copyingKnobs proc t n) := by
  have hsim := (h.node n).pc
  generalize hpc : (s.nodes n).pc = pc at hsim
  generalize hpc' : (t.nodes n).pc = pc' at hsim
  cases hsim with
  | waitRoom todo room => exact h.waitRoom knobs proc hpc hpc'
  | align todo room => exact h.align knobs proc hpc hpc'
  | waitData todo common room => exact h.waitData knobs proc hpc hpc'
  | read todo count hdone => exact h.read knobs proc hpc hpc' hdone
  | process count hw ht => exact h.process knobs proc hpc hpc' hw ht
  | push count htodo => exact h.pushes knobs proc hpc hpc' htodo
  | reserve todo count hw ht =>
      have hok := h.ok.producer knobs proc n
      have hok' := h.ok'.producer copyingKnobs proc n
      rw [producerStep, hpc] at hok ⊢
      rw [producerStep, hpc'] at hok' ⊢
      cases todo with
      | cons r todo =>
          refine h.goto n (.reserve _ _ hw ?_) hok hok'
          rw [List.map_append, List.map_append, ht]; rfl
      | nil => exact h.goto n (.process _ hw ht) hok hok'
  | commit todo count hrows =>
      have hok := h.ok.producer knobs proc n
      have hok' := h.ok'.producer copyingKnobs proc n
      rw [producerStep, hpc] at hok ⊢
      rw [producerStep, hpc'] at hok' ⊢
      cases todo with
      | cons k todo => exact h.modifyLane_goto n k rfl (.commit _ _ hrows) hok hok'
      | nil => exact h.goto n (.push _ hrows) hok hok'
  | threw count what | failed what =>
      rw [producerStep, hpc, producerStep, hpc']
      exact h

/-! ## The simulation -/

/-- Steps of one REP worker change its port only. -/
theorem foldl_rep (proc : Processor top α σ) (p : top.Port) (bs : List Bool)
    (t : BrokerState top α σ) :
    (bs.map (BrokerAction.rep p)).foldl (brokerStep copyingKnobs proc) t =
      t.modifyRx p fun rx =>
        bs.foldl (fun rx ready => rx.repStep copyingKnobs (top.port p).id ready) rx := by
  induction bs generalizing t with
  | nil => simp [BrokerState.modifyRx]
  | cons b bs ih =>
      rw [List.map_cons, List.foldl_cons, ih]
      simp only [brokerStep, BrokerState.modifyRx, Function.update_self, Function.update_idem,
        List.foldl_cons]

/-- Every step of the broker is answered by the copying broker. -/
theorem BrokerSim.step {s t : BrokerState top α σ} (h : BrokerSim s t) (knobs : Knobs)
    (proc : Processor top α σ) (a : BrokerAction top α) :
    ∃ bs : List (BrokerAction top α),
      BrokerSim (brokerStep knobs proc s a) (bs.foldl (brokerStep copyingKnobs proc) t) := by
  cases a with
  | producer n => exact ⟨[.producer n], h.producer knobs proc n⟩
  | puller p received =>
      refine ⟨[.puller p received], h.ok.puller p received, h.ok'.puller p received, ?_, h.lanes,
        h.gaps, h.node, h.rx⟩
      show Function.update t.tx p ((t.tx p).pullerStep p t.lanes received) =
        Function.update s.tx p ((s.tx p).pullerStep p s.lanes received)
      rw [h.tx, h.lanes]
  | rep p ready =>
      obtain ⟨bs, hbs⟩ := (h.rx p).repStep (h.ok.rx p) (h.ok'.rx p) knobs (top.port p).id ready
      have hok' : BrokerOk ((bs.map (.rep p)).foldl (brokerStep copyingKnobs proc) t) :=
        Run.invariant (fun _ a hk => hk.step copyingKnobs proc a) h.ok' _
      refine ⟨bs.map (.rep p), ?_⟩
      rw [foldl_rep] at hok' ⊢
      refine ⟨h.ok.rep knobs p ready, hok', h.tx, h.lanes, h.gaps, h.node, fun q => ?_⟩
      unfold brokerStep
      by_cases hq : q = p
      · subst hq
        rw [BrokerState.rx_modifyRx_self, BrokerState.rx_modifyRx_self]
        exact hbs
      · rw [BrokerState.rx_modifyRx_of_ne _ _ hq, BrokerState.rx_modifyRx_of_ne _ _ hq]
        exact h.rx q

theorem brokerSim_init [Zero α] (top : Topology) (proc : Processor top α σ) :
    BrokerSim (brokerInit top proc) (brokerInit top proc) where
  ok := brokerOk_init top proc
  ok' := brokerOk_init top proc
  tx := rfl
  lanes := rfl
  gaps := rfl
  node _ := ⟨.waitRoom _ _, rfl, rfl, rfl⟩
  rx _ := ⟨rfl, rfl, rfl, rfl, rfl, rfl⟩

/-- The copying broker catches up on the replies that were sent and are still held. -/
theorem BrokerSim.catch_up {s t : BrokerState top α σ} (h : BrokerSim s t)
    (proc : Processor top α σ) (ports : List top.Port) (hnd : ports.Nodup) :
    ∃ bs : List (BrokerAction top α),
      (bs.foldl (brokerStep copyingKnobs proc) t).lanes = t.lanes ∧
      (bs.foldl (brokerStep copyingKnobs proc) t).nodes = t.nodes ∧
      (bs.foldl (brokerStep copyingKnobs proc) t).tx = t.tx ∧
      (∀ p ∈ ports, ((bs.foldl (brokerStep copyingKnobs proc) t).rx p).replies =
        (s.rx p).replies) ∧
      ∀ p ∉ ports, (bs.foldl (brokerStep copyingKnobs proc) t).rx p = t.rx p := by
  induction ports with
  | nil => exact ⟨[], rfl, rfl, rfl, fun p hp => absurd hp List.not_mem_nil, fun _ _ => rfl⟩
  | cons p ports ih =>
      obtain ⟨hp, hnd⟩ := List.nodup_cons.mp hnd
      obtain ⟨bs, hl, hn, ht, hin, hout⟩ := ih hnd
      obtain ⟨cs, hcs⟩ := (h.rx p).catch_up (h.ok.rx p) (h.ok'.rx p) (top.port p).id
      refine ⟨bs ++ cs.map (.rep p), ?_⟩
      rw [List.foldl_append, foldl_rep]
      refine ⟨hl, hn, ht, fun q hq => ?_, fun q hq => ?_⟩
      · by_cases hqp : q = p
        · subst hqp
          rw [BrokerState.rx_modifyRx_self, hout q hp]
          exact hcs
        · rw [BrokerState.rx_modifyRx_of_ne _ _ hqp]
          exact hin q ((List.mem_cons.mp hq).resolve_left hqp)
      · rw [BrokerState.rx_modifyRx_of_ne _ _ (List.ne_of_not_mem_cons hq)]
        exact hout q (List.not_mem_of_not_mem_cons hq)

/-! ## Held spans -/

/-- A view held over the channel call shows the window that was read. -/
theorem BrokerOk.held_window {s : BrokerState top α σ} (h : BrokerOk s) {n : top.Node}
    {k : top.Lane} {w : Window α} (hmem : (k, w) ∈ (s.nodes n).pc.windows) :
    (s.lanes k).windows.getLast? = some (w.samples (s.source k).buffer) := by
  have hshape := h.shape n
  have hk : k ∈ top.incoming n := by
    have hfst : k ∈ (s.nodes n).pc.windows.map Prod.fst := List.mem_map_of_mem hmem
    unfold ShapeOk at hshape
    cases hpc : (s.nodes n).pc with
    | read done todo count =>
        rw [hpc] at hshape hfst
        exact hshape.2.1 ▸ List.mem_append_left _ hfst
    | reserve windows done todo count =>
        rw [hpc] at hshape hfst
        exact hshape.2.1 ▸ hfst
    | process windows tails count =>
        rw [hpc] at hshape hfst
        exact hshape.2.1 ▸ hfst
    | _ => rw [hpc] at hfst; exact absurd hfst List.not_mem_nil
  have hl := h.lane_of_mem hk
  have hdrop := hl.inFlight (ProducerPc.reading_of_mem_windows hmem)
  rw [h.inputs_eq hmem hk, ← List.take_append_drop (s.lanes k).served (s.lanes k).windows, hdrop,
    List.getLast?_append, List.getLast?_singleton]
  rfl

/-- The reply that is being sent is the port's next row. -/
theorem RxOk.held_reply {rx : RxState α} (h : RxOk rx) {reply : Window α} {take : ℕ}
    (hrep : rx.rep = .send reply take) :
    rx.published[rx.replies.length]? = some (reply.samples rx.rxRing.buffer) := by
  obtain ⟨hc, -, popped, rest, hsplit, hcur, he, hslots, hok⟩ := h
  rw [RepOk, hrep] at hok
  cases reply with
  | copied samples =>
      have hpop : popped = rx.replies ++ [samples] := hok
      rw [hsplit, hpop, List.append_assoc, List.getElem?_append_right le_rfl, Nat.sub_self]
      rfl
  | inPlace head n =>
      obtain ⟨hreplies, rfl, rfl, hfit, row, rest', rfl, rfl⟩ := hok
      obtain ⟨hle, hfront⟩ := RxState.slice_front hsplit hcur
      have hshow : (Window.inPlace (α := α) (rx.rxCursor % rx.rxRing.capacity) row.length).samples
          rx.rxRing.buffer = row := (hc.slice_view he.le hle hfit).trans hfront
      rw [hshow, hsplit, hreplies, List.getElem?_append_right le_rfl, Nat.sub_self]
      rfl

/-- A reserved tail is still what `reserve` would return. -/
theorem BrokerOk.held_tail {s : BrokerState top α σ} (h : BrokerOk s) {n : top.Node}
    {p : top.Port} (hp : p ∈ (top.node n).rxPorts) {tail : ℕ}
    (hmem : (p, some tail) ∈ (s.nodes n).pc.tails) :
    (s.rx p).rxRing.reserve (s.nodes n).pc.count = some tail := by
  have hshape := h.shape n
  have ho := h.out n p hp
  have hfits := ho.fits
  obtain ⟨htail, hcontig⟩ := ho.tail tail hmem
  have hc := (h.rx p).carries
  have hcount : 0 < (s.nodes n).pc.count ∧
      (s.nodes n).pc.claimed p = (s.nodes n).pc.count := by
    unfold ShapeOk at hshape
    cases hpc : (s.nodes n).pc with
    | reserve windows done todo count => rw [hpc] at hshape; exact ⟨hshape.2.2.2, rfl⟩
    | process windows tails count => rw [hpc] at hshape; exact ⟨hshape.2.2.2, rfl⟩
    | _ => rw [hpc] at hmem; exact absurd hmem List.not_mem_nil
  rw [hcount.2] at hfits
  exact hc.reserve_eq hcount.1 hfits (hc.next ▸ htail) hcontig

/-- A computed row that waits for its publication is intact. -/
theorem BrokerOk.held_row {s : BrokerState top α σ} (h : BrokerOk s) {n : top.Node}
    {p : top.Port} (hp : p ∈ (top.node n).rxPorts) {r : Row α}
    (hmem : (p, r) ∈ (s.nodes n).pc.rows) :
    ((s.nodes n).slots.map fun slot => slot.row p) =
      (s.rx p).published ++ [r.samples (s.rx p).rxRing (s.nodes n).pc.count] := by
  have ho := h.out n p hp
  have hfits := ho.fits
  obtain ⟨row, hlen, hslots, hrow⟩ := ho.pending r hmem
  have hclaimed : (s.nodes n).pc.claimed p = (s.nodes n).pc.count := by
    cases hpc : (s.nodes n).pc with
    | commit todo rows count => rfl
    | push todo count =>
        rw [hpc] at hmem
        exact if_pos (List.mem_map_of_mem hmem)
    | _ => rw [hpc] at hmem; exact absurd hmem List.not_mem_nil
  rw [hslots]
  cases r with
  | staged samples =>
      obtain rfl : samples = row := hrow
      rfl
  | inRing =>
      rw [hclaimed, ← hlen] at hfits
      show _ = _ ++ [readCyclic _ _ (s.nodes n).pc.count]
      rw [← hlen, (h.rx p).carries.readCyclic_staged hrow hfits]

/-- **Zero-copy refinement.** Whatever the knobs, every reachable state has the lane
windows, channel calls and replies of a reachable state of the broker that copies
everything; in every reachable state the held input windows, the reply being sent, the
reserved tails and the rows waiting to be published are intact, and what was published
are the computed rows. -/
theorem zero_copy_unobservable [Zero α] (top : Topology) (knobs : Knobs)
    (proc : Processor top α σ) (actions : List (BrokerAction top α)) :
    let s := brokerRun top knobs proc actions
    (∃ actions', let t := brokerRun top copyingKnobs proc actions'
      (∀ i, (t.lanes i).windows = (s.lanes i).windows) ∧
      (∀ n, (t.nodes n).slots = (s.nodes n).slots) ∧
      ∀ p, (t.tx p).sent = (s.tx p).sent ∧ (t.rx p).replies = (s.rx p).replies) ∧
    (∀ n k w, (k, w) ∈ (s.nodes n).pc.windows →
      (s.lanes k).windows.getLast? = some (w.samples (s.source k).buffer)) ∧
    (∀ p reply take, (s.rx p).rep = .send reply take →
      (s.rx p).published[(s.rx p).replies.length]? =
        some (reply.samples (s.rx p).rxRing.buffer)) ∧
    ∀ n, ∀ p ∈ (top.node n).rxPorts,
      (∀ tail, (p, some tail) ∈ (s.nodes n).pc.tails →
        (s.rx p).rxRing.reserve (s.nodes n).pc.count = some tail) ∧
      (∀ r, (p, r) ∈ (s.nodes n).pc.rows →
        ((s.nodes n).slots.map fun slot => slot.row p) =
          (s.rx p).published ++ [r.samples (s.rx p).rxRing (s.nodes n).pc.count]) ∧
      (s.rx p).published <+: (s.nodes n).slots.map fun slot => slot.row p := by
  have hok := brokerOk_run top knobs proc actions
  refine ⟨?_, fun n k w hmem => hok.held_window hmem,
    fun p reply take hrep => (hok.rx p).held_reply hrep, fun n p hp =>
      ⟨fun tail hmem => hok.held_tail hp hmem, fun r hmem => hok.held_row hp hmem,
        (hok.out n p hp).published_isPrefix⟩⟩
  obtain ⟨as, has⟩ := Run.simulation (R := BrokerSim)
    (fun _ _ a h => BrokerSim.step h knobs proc a) (brokerSim_init top proc) actions
  obtain ⟨bs, hl, hn, ht, hr, -⟩ := has.catch_up proc _ (List.nodup_finRange top.numPorts)
  refine ⟨as ++ bs, fun i => ?_, fun n => ?_, fun p => ⟨?_, ?_⟩⟩
  all_goals rw [brokerRun, List.foldl_append]
  · rw [hl, has.lanes]; rfl
  · rw [hn]; exact (has.node n).slots
  · rw [ht, has.tx]; rfl
  · exact hr p (List.mem_finRange p)

end ZeroCopy
