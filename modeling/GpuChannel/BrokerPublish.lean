/-
# From the channel call to the published rows

The phases (E), (F) and (H) of the producer, and with them the step and run lemmas of
the relay: every reachable state satisfies the invariant.
-/
import GpuChannel.BrokerSteps
import GpuChannel.Library.Tables

open CyclicBuffer

section Steps

variable {top : Topology} {α σ : Type*}

/-! ## The channel call -/

/-- A row has the length of the window. -/
theorem length_portRow (top : Topology) (n : top.Node) (count : ℕ) (out : ℕ → ℕ → α)
    (p : top.Port) : (portRow top n count out p).length = count := by
  simp [portRow]

/-- Writing into a reserved tail leaves the port's published window and its REP worker alone. -/
theorem RxOk.fill {rx : RxState α} (h : RxOk rx) (row : List α)
    (hfree : rx.rxRing.size + row.length ≤ rx.rxRing.capacity)
    (hcontig : rx.rxRing.nextSequence % rx.rxRing.capacity + row.length ≤ rx.rxRing.capacity) :
    RxOk { rx with
        rxRing := rx.rxRing.fill (rx.rxRing.nextSequence % rx.rxRing.capacity) row } ∧
      (rx.rxRing.fill (rx.rxRing.nextSequence % rx.rxRing.capacity) row).capacity =
        rx.rxRing.capacity ∧
      (rx.rxRing.fill (rx.rxRing.nextSequence % rx.rxRing.capacity) row).Staged row := by
  obtain ⟨hc, hpos, popped, rest, hsplit, hcur, he, hslots, hrep⟩ := h
  rw [hc.next] at hcontig ⊢
  obtain ⟨hc', hcap, hstaged⟩ := hc.fill hfree hcontig
  refine ⟨⟨hc', hpos, popped, rest, hsplit, hcur, he, hslots, ?_⟩, hcap, hstaged⟩
  unfold RepOk at hrep ⊢
  dsimp only
  rw [hcap]
  exact hrep

/-- The inputs of the channel call are the samples at the lanes' cursors, whether the
windows are copies or views held in place. -/
theorem BrokerOk.inputs_eq {s : BrokerState top α σ} (h : BrokerOk s) {n : top.Node}
    {k : top.Lane} {w : Window α} (hmem : (k, w) ∈ (s.nodes n).pc.windows)
    (hk : k ∈ top.incoming n) :
    w.samples (s.source k).buffer =
      slice (s.tx (top.link k).srcIndex).sent (s.lanes k).cursor (s.nodes n).pc.count := by
  have hl := h.lane_of_mem hk
  have hw := hl.wanted_le
  rw [ProducerPc.wanted_eq_count (ProducerPc.reading_of_mem_windows hmem)] at hw
  exact (h.tx _).samples_eq (hl.window w hmem) hl.earliest_le hw

/-- (E) An exception of the channel stops the producer. -/
theorem BrokerOk.process_threw {s : BrokerState top α σ} (h : BrokerOk s) {n : top.Node}
    {windows : List (top.Lane × Window α)} {tails : List (top.Port × Option ℕ)} {count : ℕ}
    (hpc : (s.nodes n).pc = .process windows tails count) (what : String) :
    BrokerOk (s.goto n (.threw count what)) := by
  have hshape := h.shape n
  rw [ShapeOk, hpc] at hshape
  refine h.goto n _ hshape.1 (fun i hi => ?_) (fun p hp => ?_)
  · have hl := h.lane_of_mem hi
    have hw := hl.wanted_le
    rw [hpc] at hw
    exact hl.of_node (by rw [hpc]; rfl) hw (by rw [hpc]; rfl) (by rw [hpc]; exact fun _ => rfl)
      (by simp [ProducerPc.windows])
  · exact (h.out n p hp).of_node (.inl (by simp [hpc, ProducerPc.claimed]))
      (by simp [ProducerPc.tails]) (by rw [hpc]; rfl) (by simp [hpc, ProducerPc.rows]) rfl

/-- A port without a reserved row is left alone. -/
theorem fillRows_of_notMem (tails : List (top.Port × Option ℕ)) (row : top.Port → List α)
    (rx : top.Port → RxState α) {p : top.Port} (hp : p ∉ tails.map Prod.fst) :
    fillRows tails row rx p = rx p := by
  unfold fillRows
  have hnone : tails.lookup p = none := by
    rw [List.lookup_eq_none_iff]
    intro rt hrt
    refine bne_iff_ne.mpr ?_
    rintro rfl
    exact hp (List.mem_map_of_mem hrt)
  rw [hnone]

/-- What filling the reserved tails does to one RX port of the node. -/
theorem BrokerOk.fillRows_spec {s : BrokerState top α σ} (h : BrokerOk s) {n : top.Node}
    {windows : List (top.Lane × Window α)} {tails : List (top.Port × Option ℕ)} {count : ℕ}
    (hpc : (s.nodes n).pc = .process windows tails count) {row : top.Port → List α}
    (hrow : ∀ p, (row p).length = count) {p : top.Port} (hp : p ∈ (top.node n).rxPorts) :
    RxOk (fillRows tails row s.rx p) ∧
      (fillRows tails row s.rx p).rxRing.size = (s.rx p).rxRing.size ∧
      (fillRows tails row s.rx p).rxRing.capacity = (s.rx p).rxRing.capacity ∧
      (fillRows tails row s.rx p).published = (s.rx p).published ∧
      ∀ t, (p, some t) ∈ tails → (fillRows tails row s.rx p).rxRing.Staged (row p) := by
  have hshape := h.shape n
  rw [ShapeOk, hpc] at hshape
  obtain ⟨-, -, hlist, -⟩ := hshape
  have hnd : (tails.map Prod.fst).Nodup := hlist ▸ top.rxPorts_nodup n
  have ho := h.out n p hp
  have hfits := ho.fits
  have htail := ho.tail
  rw [hpc] at hfits htail
  obtain ⟨⟨p', t⟩, hmem, hpt⟩ := List.mem_map.mp (hlist ▸ hp : p ∈ tails.map Prod.fst)
  obtain rfl : p' = p := hpt
  unfold fillRows
  rw [lookup_of_mem hnd hmem]
  cases t with
  | none =>
      refine ⟨h.rx p', rfl, rfl, rfl, fun t ht => ?_⟩
      have := (lookup_of_mem hnd hmem).symm.trans (lookup_of_mem hnd ht)
      exact absurd this (by simp)
  | some t =>
      obtain ⟨rfl, hcontig⟩ := htail t hmem
      obtain ⟨hok, hcap, hstaged⟩ := (h.rx p').fill (row p')
        (by rw [hrow]; exact hfits) (by rw [hrow]; exact hcontig)
      exact ⟨hok, rfl, hcap, rfl, fun _ _ => hstaged⟩

/-- (E) The rows of the channel are written or staged. -/
theorem BrokerOk.process_ok {s : BrokerState top α σ} (h : BrokerOk s) {n : top.Node}
    {windows : List (top.Lane × Window α)} {tails : List (top.Port × Option ℕ)} {count : ℕ}
    (hpc : (s.nodes n).pc = .process windows tails count) (proc' : σ)
    (inputs : List (List α)) (row : top.Port → List α) (hrow : ∀ p, (row p).length = count) :
    BrokerOk (({ s with rx := fillRows tails row s.rx } : BrokerState top α σ).modifyNode n
      fun st =>
        { st with
          proc := proc'
          slots := st.slots ++ [{ count, windows := inputs, row }]
          pc := .commit (top.incoming n)
            (tails.map fun rt => (rt.1, match rt.2 with
              | some _ => Row.inRing
              | none => Row.staged (row rt.1))) count }) := by
  have hshape := h.shape n
  rw [ShapeOk, hpc] at hshape
  obtain ⟨hepoch, -, hlist, hcount⟩ := hshape
  have hkeys : (tails.map fun rt => (rt.1, match rt.2 with
      | some _ => Row.inRing
      | none => Row.staged (row rt.1))).map Prod.fst = (top.node n).rxPorts := by
    rw [List.map_map, ← hlist]; rfl
  refine h.of_producer n rfl rfl (fun m hm => ?_) (fun _ _ => rfl) (fun p hp => ?_) ?_ ?_
    (fun i hi => ?_) (fun p hp => ?_) (fun p hp => ?_)
  · rw [BrokerState.nodes_modifyNode_of_ne _ _ hm]
  · exact fillRows_of_notMem tails row s.rx (hlist.symm ▸ hp)
  all_goals try simp only [BrokerState.nodes_modifyNode_self]
  · exact ⟨hepoch, List.suffix_refl _, hkeys, hcount⟩
  · intro slot hslot
    -- the new slot has its window and a row for every port
    rcases List.mem_append.mp hslot with hslot | hslot
    · exact h.slots n slot hslot
    · obtain rfl := List.mem_singleton.mp hslot
      exact ⟨hcount, fun p _ => hrow p⟩
  · have hl := h.lane_of_mem hi
    have hw := hl.wanted_le
    rw [hpc] at hw
    refine hl.of_node (by rw [hpc]; rfl) ?_ ?_ (by rw [hpc]; exact fun _ => rfl)
      (by simp [ProducerPc.windows])
    · simp only [ProducerPc.wanted, if_pos hi]; exact hw
    · rw [hpc]; exact iff_of_true hi trivial
  · exact (h.fillRows_spec hpc hrow hp).1
  -- of the node's own ports: the row is in the ring's tail or staged, and nothing is visible yet
  · obtain ⟨-, hsize, hcap, hpub, hstaged⟩ := h.fillRows_spec hpc hrow hp
    have ho := h.out n p hp
    have hfits := ho.fits
    have hhigh := ho.highWater
    have hprod := ho.produced (by rw [hpc]; simp [ProducerPc.rows])
    rw [hpc] at hfits hhigh
    simp only [BrokerState.rx_modifyNode]
    refine ⟨by rw [hsize, hcap]; exact hfits, by rw [hsize]; exact hhigh,
      by simp [ProducerPc.tails], fun hp' => ?_, fun r hr => ?_⟩
    · refine absurd ?_ hp'
      show p ∈ (tails.map _).map Prod.fst
      rw [hkeys]; exact hp
    · obtain ⟨rt, hmem, hrt⟩ := List.mem_map.mp hr
      obtain ⟨rfl, rfl⟩ := Prod.mk.inj hrt
      refine ⟨row rt.1, hrow _, ?_, ?_⟩
      · rw [List.map_append, hpub, hprod]; rfl
      · obtain ⟨p, t⟩ := rt
        cases t with
        | none => rfl
        | some t => exact hstaged t hmem

/-! ## Committing the cursors -/

/-- (F) The cursor of one more lane is moved. -/
theorem BrokerOk.commit_visit {s : BrokerState top α σ} (h : BrokerOk s) {n : top.Node}
    {k : top.Lane} {todo : List top.Lane} {rows : List (top.Port × Row α)} {count : ℕ}
    (hpc : (s.nodes n).pc = .commit (k :: todo) rows count) :
    BrokerOk ((s.modifyLane k fun lane =>
      { lane with cursor := lane.cursor + count, served := lane.served + 1 }).goto n
        (.commit todo rows count)) := by
  have hshape := h.shape n
  rw [ShapeOk, hpc] at hshape
  obtain ⟨hepoch, hsuf, hlist, hcount⟩ := hshape
  have hk : k ∈ top.incoming n := hsuf.subset List.mem_cons_self
  have hktodo : k ∉ todo :=
    (List.nodup_cons.mp ((top.nodup_incoming n).sublist hsuf.sublist)).1
  have hl := h.lane_of_mem hk
  have hw := hl.wanted_le
  have hin := hl.inFlight (by rw [hpc]; exact List.mem_cons_self)
  have he := hl.earliest_le
  have hserved := hl.served_le
  rw [hpc] at hw hin
  simp only [ProducerPc.wanted, List.mem_cons_self, if_true] at hw
  -- one window of the lane is in flight
  have hlen : (s.lanes k).windows.length = (s.lanes k).served + 1 := by
    have := congrArg List.length hin
    rw [List.length_drop, List.length_singleton] at this
    omega
  refine h.modifyLane_goto n k hk _ _ ⟨hepoch, (List.suffix_cons k todo).trans hsuf, hlist, hcount⟩
    ⟨hl.origin, ?_, fun hf => ?_, ?_, ?_, hlen.ge, ?_, fun hr => absurd hr hktodo, fun _ => ?_,
      by simp [ProducerPc.windows]⟩ (fun i hi hik => ?_) (fun p hp => ?_)
  · rw [hl.init_eq, hepoch]; rfl
  · rw [hl.init_eq, hepoch] at hf
    exact Bool.noConfusion hf
  · show _ ≤ (s.lanes k).cursor + count
    omega
  · simp only [ProducerPc.wanted, if_neg hktodo]
    omega
  · show (List.take ((s.lanes k).served + 1) (s.lanes k).windows).flatten = _
    rw [List.take_add, List.flatten_append, hl.committed, hin]
    exact (congrArg _ (List.append_nil _)).trans (take_append_slice _ _ count)
  · exact List.drop_eq_nil_of_le hlen.le
  · have hli := h.lane_of_mem hi
    have hwi := hli.wanted_le
    rw [hpc] at hwi
    refine hli.of_node (by rw [hpc]; rfl) ?_ (by simp [hpc, ProducerPc.reading, hik])
      (by rw [hpc]; exact fun _ => rfl) (by simp [ProducerPc.windows])
    simpa only [ProducerPc.wanted, List.mem_cons, hik, false_or] using hwi
  · exact (h.out n p hp).of_node (.inl (by simp [hpc, ProducerPc.claimed]))
      (by simp [ProducerPc.tails]) (by rw [hpc]; rfl) (by rw [hpc]; exact fun _ => rfl) rfl

/-- (F) Behind the last lane the rows are pushed. -/
theorem BrokerOk.push_enter {s : BrokerState top α σ} (h : BrokerOk s) {n : top.Node}
    {rows : List (top.Port × Row α)} {count : ℕ}
    (hpc : (s.nodes n).pc = .commit [] rows count) : BrokerOk (s.goto n (.push rows count)) := by
  have hshape := h.shape n
  rw [ShapeOk, hpc] at hshape
  obtain ⟨hepoch, -, hlist, hcount⟩ := hshape
  refine h.goto n _ ⟨hepoch, hlist ▸ List.suffix_refl _, hcount⟩ (fun i hi => ?_) (fun p hp => ?_)
  · have hl := h.lane_of_mem hi
    have hw := hl.wanted_le
    rw [hpc] at hw
    exact hl.of_node (by rw [hpc]; rfl) hw (by simp [hpc, ProducerPc.reading])
      (by rw [hpc]; exact fun _ => rfl) (by simp [ProducerPc.windows])
  · refine (h.out n p hp).of_node (.inl ?_) (by simp [ProducerPc.tails]) (by rw [hpc]; rfl)
      (by rw [hpc]; exact fun _ => rfl) rfl
    simp only [hpc, ProducerPc.claimed, hlist, if_pos hp]
    exact le_refl _

/-! ## Publishing the rows -/

/-- A row that enters the ring at its tail joins the port's stream. -/
theorem RxOk.publish {rx : RxState α} (h : RxOk rx) {ring : IqRing α} {row : List α}
    (hc' : ring.Carries (rx.published.flatten ++ row)) (hcap : ring.capacity = rx.rxRing.capacity)
    (he' : ring.earliestSequence = rx.rxRing.earliestSequence) (hrow : 0 < row.length) :
    RxOk { rx with
      rxRing := ring
      rxSlots := rx.rxSlots ++ [row.length]
      published := rx.published ++ [row] } := by
  obtain ⟨-, hpos, popped, rest, hsplit, hcur, he, hslots, hrep⟩ := h
  refine ⟨?_, ?_, popped, rest ++ [row], ?_, hcur, he'.trans he, ?_, ?_⟩
  · simpa using hc'
  · intro row' hmem
    rcases List.mem_append.mp hmem with hmem | hmem
    · exact hpos row' hmem
    · obtain rfl := List.mem_singleton.mp hmem
      exact hrow
  · show rx.published ++ [row] = _
    rw [hsplit, List.append_assoc]
  · show rx.rxSlots ++ [row.length] = _
    rw [hslots, List.map_append]; rfl
  · unfold RepOk at hrep ⊢
    dsimp only
    rw [hcap]
    split at hrep
    · exact hrep
    · exact hrep
    · exact hrep
    · obtain ⟨h₁, h₂, h₃, h₄, row', rest', rfl, h₅⟩ := hrep
      exact ⟨h₁, h₂, h₃, h₄, row', rest' ++ [row], rfl, h₅⟩
    · obtain ⟨row', rest', rfl, h₁, h₂⟩ := hrep
      exact ⟨row', rest' ++ [row], rfl, h₁, h₂⟩
    · exact hrep

/-- The cells behind the tail read as the row staged there. -/
theorem IqRing.Carries.readCyclic_staged {r : IqRing α} {l row : List α} (h : r.Carries l)
    (hs : r.Staged row) (hfree : r.size + row.length ≤ r.capacity) :
    readCyclic r.buffer (r.nextSequence % r.capacity) row.length = row := by
  obtain ⟨hc, he⟩ := h.commit hs hfree
  have hle := h.earliest_le
  have := hc.holds.readCyclic (q := l.length) (n := row.length) (by rw [he]; exact hle)
    (by rw [List.length_append]) (by unfold IqRing.capacity at hfree; show _ ≤ r.buffer.length; omega)
  rw [h.next]
  refine this.trans ?_
  rw [slice, List.drop_left, List.take_length]

/-- Headroom was taken in phase (A) and the producer is the ring's only writer, so the
row goes in: by a push of the staged row, or by committing the cells it was written to. -/
theorem BrokerOk.push_visit {s : BrokerState top α σ} (h : BrokerOk s) {n : top.Node}
    {r : top.Port} {row : Row α} {todo : List (top.Port × Row α)} {count : ℕ}
    (hpc : (s.nodes n).pc = .push ((r, row) :: todo) count) :
    ∃ ring, row.publish (s.rx r).rxRing count = some ring ∧
      ring.capacity = (s.rx r).rxRing.capacity ∧
      ((s.nodes n).slots.map fun slot => slot.row r) =
        (s.rx r).published ++ [row.samples (s.rx r).rxRing count] ∧
      BrokerOk ((s.modifyRx r fun out =>
        { out with
          rxRing := ring
          rxSlots := out.rxSlots ++ [count]
          published := out.published ++ [row.samples out.rxRing count] }).goto n
            (.push todo count)) := by
  have hshape := h.shape n
  rw [ShapeOk, hpc] at hshape
  obtain ⟨hepoch, hsuf, hcount⟩ := hshape
  rw [List.map_cons] at hsuf
  have hr : r ∈ (top.node n).rxPorts := hsuf.subset List.mem_cons_self
  have hrtodo : r ∉ todo.map Prod.fst :=
    (List.nodup_cons.mp ((top.rxPorts_nodup n).sublist hsuf.sublist)).1
  have ho := h.out n r hr
  obtain ⟨samples, hlen, hslots, hrow⟩ :=
    ho.pending row (by rw [hpc]; exact List.mem_cons_self)
  have hfits := ho.fits
  have hhigh := ho.highWater
  have hc := (h.rx r).carries
  rw [hpc] at hfits hhigh hlen
  simp only [ProducerPc.claimed, List.map_cons, List.mem_cons_self, if_true] at hfits hhigh
  change samples.length = count at hlen
  rw [← hlen] at hfits
  -- the ring after the push or the commit
  obtain ⟨ring, hring, hc', hcap, hsize, he⟩ : ∃ ring,
      row.publish (s.rx r).rxRing count = some ring ∧
      ring.Carries ((s.rx r).published.flatten ++ samples) ∧
      ring.capacity = (s.rx r).rxRing.capacity ∧
      ring.size = (s.rx r).rxRing.size + samples.length ∧
      ring.earliestSequence = (s.rx r).rxRing.earliestSequence := by
    cases row with
    | staged xs =>
        obtain rfl : xs = samples := hrow
        obtain ⟨ring, hpush⟩ := (s.rx r).rxRing.exists_push xs hfits
        exact ⟨ring, hpush, hc.push hpush⟩
    | inRing =>
        obtain ⟨hc', he⟩ := hc.commit hrow hfits
        rw [← hlen]
        exact ⟨_, rfl, hc', rfl, rfl, he⟩
  have hsamples : row.samples (s.rx r).rxRing count = samples := by
    cases row with
    | staged xs => exact hrow
    | inRing => rw [← hlen]; exact hc.readCyclic_staged hrow hfits
  refine ⟨ring, hring, hcap, by rw [hsamples]; exact hslots, ?_⟩
  have hrx := fun p (hp : p ≠ r) => s.rx_modifyRx_of_ne (fun out =>
    { out with
      rxRing := ring
      rxSlots := out.rxSlots ++ [count]
      published := out.published ++ [row.samples out.rxRing count] }) hp
  refine h.of_producer n rfl rfl (fun m hm => BrokerState.nodes_goto_of_ne _ _ hm) (fun _ _ => rfl)
    (fun p hp => hrx p ?_) ?_ ?_ (fun i hi => ?_) (fun p hp => ?_) (fun p hp => ?_)
  · rintro rfl
    exact hp hr
  all_goals try simp only [BrokerState.nodes_goto_self, BrokerState.nodes_modifyRx]
  · exact ⟨hepoch, (List.suffix_cons _ _).trans hsuf, hcount⟩
  · exact h.slots n
  · have hl := h.lane_of_mem hi
    have hw := hl.wanted_le
    rw [hpc] at hw
    exact hl.of_node (by rw [hpc]; rfl) hw (by rw [hpc]; rfl) (by rw [hpc]; exact fun _ => rfl)
      (by simp [ProducerPc.windows])
  · by_cases hpr : p = r
    · subst hpr
      rw [BrokerState.rx_goto, BrokerState.rx_modifyRx_self, hsamples, ← hlen]
      exact (h.rx p).publish hc' hcap he (by omega)
    · rw [BrokerState.rx_goto, hrx p hpr]
      exact h.rx p
  · by_cases hpr : p = r
    · subst hpr
      rw [BrokerState.rx_goto, BrokerState.rx_modifyRx_self, hsamples]
      refine ⟨?_, ?_, by simp [ProducerPc.tails], fun _ => hslots.symm, fun r' hr' => ?_⟩
      · simp only [ProducerPc.claimed, if_neg hrtodo, hcap, hsize]; omega
      · simp only [ProducerPc.claimed, if_neg hrtodo, hsize]; omega
      · exact absurd (List.mem_map_of_mem hr') hrtodo
    · rw [BrokerState.rx_goto, hrx p hpr]
      have hop := h.out n p hp
      have h₁ := hop.fits
      have h₂ := hop.highWater
      have h₃ := hop.produced
      have h₄ := hop.pending
      rw [hpc] at h₁ h₂ h₃ h₄
      simp only [ProducerPc.claimed, ProducerPc.rows, List.map_cons, List.mem_cons, hpr, false_or]
        at h₁ h₂ h₃
      refine ⟨h₁, h₂, by simp [ProducerPc.tails], h₃, fun r' hr' => ?_⟩
      exact h₄ r' (List.mem_cons_of_mem _ hr')

/-- (H) Behind the last row the producer starts over. -/
theorem BrokerOk.room_enter {s : BrokerState top α σ} (h : BrokerOk s) {n : top.Node} {count : ℕ}
    (hpc : (s.nodes n).pc = .push [] count) :
    BrokerOk (s.goto n (.waitRoom (top.node n).rxPorts (top.node n).batch)) := by
  have hshape := h.shape n
  rw [ShapeOk, hpc] at hshape
  refine h.goto n _ (List.suffix_refl _) (fun i hi => ?_) (fun p hp => ?_)
  · have hl := h.lane_of_mem hi
    have hw := hl.wanted_le
    rw [hpc] at hw
    exact hl.of_node (by rw [hpc]; rfl) hw (by rw [hpc]; rfl) (by simp [hpc, ProducerPc.reading])
      (by simp [ProducerPc.windows])
  · refine (h.out n p hp).of_node (.inl ?_) (by simp [ProducerPc.tails]) (by rw [hpc]; rfl)
      (by simp [hpc, ProducerPc.rows]) rfl
    simp only [ProducerPc.claimed, if_pos hp]
    exact Nat.zero_le _

/-! ## Steps and runs -/

/-- **A producer's step keeps the invariant.** -/
theorem BrokerOk.producer {s : BrokerState top α σ} (h : BrokerOk s) (knobs : Knobs)
    (proc : Processor top α σ) (n : top.Node) : BrokerOk (producerStep knobs proc s n) := by
  unfold producerStep
  dsimp only
  cases hpc : (s.nodes n).pc with
  | waitRoom todo room =>
      cases todo with
      | cons r todo => exact h.waitRoom_visit hpc
      | nil =>
          dsimp only
          split_ifs with hroom hepoch
          -- the first epoch aligns the lanes before it waits for data
          · have := h.data_enter hroom (.inl ⟨hpc, hepoch⟩)
            simpa only [BrokerState.goto, BrokerState.modifyNode, hepoch] using this
          · exact h.align_enter hpc hroom (by simpa using hepoch)
          · exact h.waitRoom_retry hpc
  | align todo room =>
      cases todo with
      | cons k todo => exact h.align_visit hpc
      | nil =>
          have hshape := h.shape n
          rw [ShapeOk, hpc] at hshape
          exact h.data_enter hshape.2.2 (.inr hpc)
  | waitData todo common room =>
      cases todo with
      | cons k todo =>
          have hk : k ∈ top.incoming n := by
            have hshape := h.shape n
            rw [ShapeOk, hpc] at hshape
            exact hshape.2.1.subset List.mem_cons_self
          -- no lane falls behind its ring, so nothing is skipped
          have he : ¬ (s.lanes k).cursor < (s.source k).earliestSequence :=
            Nat.not_lt.mpr (h.lane_of_mem hk).earliest_le
          dsimp only
          rw [if_neg he]
          exact h.waitData_visit hpc
      | nil =>
          dsimp only
          split_ifs with hcommon
          · exact h.read_enter hpc hcommon
          · exact h.waitData_retry hpc
  | read done todo count =>
      cases todo with
      | cons k todo =>
          obtain ⟨w, hread, -, hok⟩ := h.read_visit knobs hpc
          dsimp only
          rw [hread]
          exact hok
      | nil => exact h.reserve_enter hpc
  | reserve windows done todo count =>
      cases todo with
      | cons r todo =>
          refine h.reserve_visit hpc ?_
          split_ifs
          · exact .inr rfl
          · exact .inl rfl
      | nil => exact h.process_enter hpc
  | process windows tails count =>
      dsimp only
      cases proc.process n (s.nodes n).proc
          (windows.map fun kw => kw.2.samples (s.source kw.1).buffer) count with
      | error what => exact h.process_threw hpc what
      | ok out => exact h.process_ok hpc _ _ _ (length_portRow top n count out.2)
  | commit todo rows count =>
      cases todo with
      | cons k todo => exact h.commit_visit hpc
      | nil => exact h.push_enter hpc
  | push todo count =>
      cases todo with
      | cons rrow todo =>
          obtain ⟨r, row⟩ := rrow
          obtain ⟨ring, hring, -, -, hok⟩ := h.push_visit hpc
          dsimp only
          rw [hring]
          exact hok
      | nil => exact h.room_enter hpc
  | threw count what => exact h
  | failed what => exact h

/-- **Every step keeps the invariant.** -/
theorem BrokerOk.step {s : BrokerState top α σ} (h : BrokerOk s) (knobs : Knobs)
    (proc : Processor top α σ) (a : BrokerAction top α) : BrokerOk (brokerStep knobs proc s a) := by
  cases a with
  | puller p received => exact h.puller p received
  | producer n => exact h.producer knobs proc n
  | rep p ready => exact h.rep knobs p ready

/-- The initial state has the invariant. -/
theorem brokerOk_init [Zero α] (top : Topology) (proc : Processor top α σ) :
    BrokerOk (brokerInit top proc) where
  tx p := ⟨[], IqRing.carries_reset _, List.nil_prefix, fun _ => rfl⟩
  rx p := ⟨IqRing.carries_reset _, by simp [brokerInit], [], [], rfl, rfl, rfl, rfl, rfl⟩
  lane i := ⟨rfl, rfl, fun _ => ⟨rfl, rfl, rfl⟩, le_refl _, le_refl _, le_refl _, rfl,
    fun hr => hr.elim, fun _ => rfl, by simp [brokerInit, ProducerPc.windows]⟩
  shape n := List.suffix_refl _
  slots n := by simp [SlotsOk, brokerInit]
  out n p hp := by
    have hclaimed : ((brokerInit top proc).nodes n).pc.claimed p = 0 := if_pos hp
    refine ⟨?_, ?_, by simp [brokerInit, ProducerPc.tails], fun _ => rfl,
      by simp [brokerInit, ProducerPc.rows]⟩
    · rw [hclaimed]; exact Nat.zero_le _
    · rw [hclaimed]; exact Nat.zero_le _
  gaps := rfl

/-- Every reachable state of the relay satisfies the invariant. -/
theorem brokerOk_run [Zero α] (top : Topology) (knobs : Knobs) (proc : Processor top α σ)
    (actions : List (BrokerAction top α)) : BrokerOk (brokerRun top knobs proc actions) :=
  Run.invariant (fun _ a h => h.step knobs proc a) (brokerOk_init top proc) actions

end Steps
