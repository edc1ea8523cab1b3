/-
# The outcome of a call

Behind the shaping pass of `process_superposition` the receiver rows run in states and links of
their own, and every touched clock moves on once.  So a call leaves each lane that it was given with
the state that the sweep of its link's snap gave it, up to the samples in its steps, and each link
of these lanes snapped once, its clock one slot further.
-/
import GpuChannel.SlotReads

section CallOutcome

variable {K : Type} [Field K] [LinearOrder K] [FloorRing K] [Libm K] [Rng K]

open CpuChannelProcessor

/-! ## The receiver rows -/

section Rows

/-- `q` is `p` but for the state of `key` and the link `k` in which that state stands. -/
structure OnlyAt (key k : String) (p q : CpuChannelProcessor K) : Prop where
  housed : ∀ st, p.states key = some st → st.link = k → ∃ st', q.states key = some st' ∧ st'.link = k
  states : ∀ key', key' ≠ key → q.states key' = p.states key'
  links : ∀ k', k' ≠ k → q.links k' = p.links k'

namespace OnlyAt

variable {key k : String} {p q r : CpuChannelProcessor K}

omit [Field K] [LinearOrder K] [FloorRing K] [Libm K] [Rng K] in
/-- Nothing changed at all. -/
theorem refl (key k : String) (p : CpuChannelProcessor K) : OnlyAt key k p p :=
  ⟨fun st hst hk => ⟨st, hst, hk⟩, fun _ _ => rfl, fun _ _ => rfl⟩

omit [Field K] [LinearOrder K] [FloorRing K] [Libm K] [Rng K] in
/-- Changes at one key, one behind the other. -/
theorem trans (h : OnlyAt key k p q) (h' : OnlyAt key k q r) : OnlyAt key k p r := by
  refine ⟨?_, ?_, ?_⟩
  · intro st hst hk
    obtain ⟨st', hst', hk'⟩ := h.housed st hst hk
    exact h'.housed st' hst' hk'
  · exact fun key' hne => (h'.states key' hne).trans (h.states key' hne)
  · exact fun k' hne => (h'.links k' hne).trans (h.links k' hne)

omit [Field K] [LinearOrder K] [FloorRing K] [Libm K] [Rng K] in
/-- A lane state that is set is the only change. -/
theorem setState (key : String) {st : LinkState K} (hk : st.link = k)
    (p : CpuChannelProcessor K) :
    OnlyAt key k p { p with states := Function.update p.states key (some st) } := by
  refine ⟨?_, ?_, fun _ _ => rfl⟩
  · rintro _ - -
    exact ⟨st, Function.update_self .., hk⟩
  · intro key' hne
    exact Function.update_of_ne hne ..

omit [Field K] [LinearOrder K] [FloorRing K] [Libm K] [Rng K] in
/-- A link that is set is the only change. -/
theorem setLink (key k : String) (link : Option (PhysicalLinkRuntime K))
    (p : CpuChannelProcessor K) :
    OnlyAt key k p { p with links := Function.update p.links k link } := by
  refine ⟨fun st hst hk => ⟨st, hst, hk⟩, fun _ _ => rfl, ?_⟩
  intro k' hne
  exact Function.update_of_ne hne ..

omit [Field K] [LinearOrder K] [FloorRing K] [Libm K] [Rng K] in
/-- Recording an execution changes nothing else. -/
theorem record (h : OnlyAt key k p q) (executed : List (Execution K)) :
    OnlyAt key k p { q with executed := executed } :=
  ⟨h.housed, h.states, h.links⟩

variable {st : LinkState K} (hst : p.states key = some st) (hk : st.link = k)
include hst hk

/-- Entering a lane changes nothing else. -/
theorem ensureLinkState (model : ModelConfig K) (count : ℕ) (identity : LaneIdentity) :
    OnlyAt key k p (p.ensureLinkState key model count identity) := by
  unfold CpuChannelProcessor.ensureLinkState bindState
  rw [hst]
  dsimp only
  rw [hst]
  dsimp only
  split_ifs
  · exact refl key k p
  · subst hk
    exact (setLink key st.link _ p).trans (setState key (by rfl) _)

/-- The chain of a lane changes nothing else. -/
theorem applyChainToLink (model : ModelConfig K) (input : List (Iq K)) (rate : ℕ) :
    Ensures (fun r => OnlyAt key k p r.1 ∧ ∀ k' ∈ r.2.2, k' = k)
      (p.applyChainToLink key model input rate) := by
  unfold CpuChannelProcessor.applyChainToLink
  split_ifs
  · exact Ensures.pure ⟨refl key k p, fun _ h => absurd h (by simp)⟩
  · have hens := ensureLinkState hst hk model input.length { physicalLinkKey := key }
    obtain ⟨st', hst', hk'⟩ := hens.housed st hst hk
    dsimp only
    rw [hst']
    refine Ensures.bind (fun _ _ => trivial) fun run _ => Ensures.pure ⟨?_, ?_⟩
    · exact (hens.trans (setState key (by exact hk') _)).record _
    · intro k' hmem
      rw [← Option.mem_some_iff.mp hmem]
      exact hk'

omit [Rng K] hst in
/-- The refresh of a lane's grids changes nothing else. -/
theorem refreshLaneGrids (key : String) (model : ModelConfig K) (count rate : ℕ) :
    Ensures (OnlyAt key k p) (p.refreshLaneGrids st model count rate) := by
  unfold CpuChannelProcessor.refreshLaneGrids
  cases p.links st.link with
  | none => exact Ensures.pure (refl key k p)
  | some link =>
      rw [hk]
      exact Ensures.bind (fun _ _ => trivial) fun grids _ => Ensures.pure (setLink key k _ p)

end OnlyAt

/-- **One receiver row** only works at its own key. -/
theorem receiveRow_onlyAt (dstKey : String) (model : ModelConfig K) (count rate : ℕ)
    {slot : CpuChannelProcessor.Slot K} {r : ℕ} {k : String} {st : LinkState K}
    (hst : slot.proc.states (rxStateKey dstKey r slot.rows.length) = some st) (hk : st.link = k) :
    Ensures (fun slot' => OnlyAt (rxStateKey dstKey r slot.rows.length) k slot.proc slot'.proc ∧
        ∃ visited, slot'.touched = touch slot.touched visited ∧ ∀ k' ∈ visited, k' = k)
      (receiveRow dstKey model count rate slot r) := by
  unfold receiveRow
  dsimp only
  generalize rxStateKey dstKey r slot.rows.length = key at hst ⊢
  have hens := OnlyAt.ensureLinkState hst hk model count { physicalLinkKey := key }
  generalize slot.proc.ensureLinkState key model count { physicalLinkKey := key } = p at hens ⊢
  obtain ⟨st', hst', hk'⟩ := hens.housed st hst hk
  rw [hst']
  dsimp only
  cases p.links st'.link with
  | none => exact Ensures.pure ⟨OnlyAt.refl _ _ _, none, rfl, fun _ h => absurd h (by simp)⟩
  | some link =>
      dsimp only
      generalize (({ link with fading := link.fading.beginSlot }).snap count) = snapped
      obtain ⟨st'', hst''⟩ : ∃ st'',
          (if snapped.2.valuesChanged then { st' with live := snapped.1.live } else st') = st'' :=
        ⟨_, rfl⟩
      have hk'' : st''.link = k := by
        rw [← hst'', ← hk']
        split_ifs <;> rfl
      rw [hst'', hk'']
      have hset := (hens.trans (OnlyAt.setState key hk'' p)).trans
        (OnlyAt.setLink key k (some snapped.1) _)
      refine Ensures.bind (P := OnlyAt key k slot.proc) (fun q hq => hset.trans
        (OnlyAt.refreshLaneGrids hk'' key model count rate q hq)) fun q hq => ?_
      obtain ⟨st₃, hst₃, hk₃⟩ := hq.housed st hst hk
      refine (OnlyAt.applyChainToLink hst₃ hk₃ model _ rate).bind ?_
      rintro ⟨q', row, visited⟩ ⟨hq', hvisited⟩
      exact Ensures.pure ⟨hq.trans hq', visited, rfl, hvisited⟩

/-- The receiver rows stand apart from the lanes of the call. -/
structure RowsApart (p : CpuChannelProcessor K) (inputs : List (SuperpositionInput K))
    (dstKey : String) (nr : ℕ) : Prop where
  keys : ∀ r < nr, rxStateKey dstKey r nr ∉ inputs.map (·.linkKey)
  links : ∀ r < nr, ∃ st, p.states (rxStateKey dstKey r nr) = some st ∧
    st.link ∉ laneLinks p inputs

variable (p₀ : CpuChannelProcessor K) (inputs : List (SuperpositionInput K)) (dstKey : String)
  (nr : ℕ)

/-- **What the rows leave of the lanes.** -/
structure RowsKeep (x y : CpuChannelProcessor.Slot K) : Prop where
  states : ∀ key ∈ inputs.map (·.linkKey), y.proc.states key = x.proc.states key
  links : ∀ k ∈ laneLinks p₀ inputs, y.proc.links k = x.proc.links k
  housed : ∀ r < nr, ∃ st, y.proc.states (rxStateKey dstKey r nr) = some st ∧
    st.link ∉ laneLinks p₀ inputs
  touched : x.touched ⊆ y.touched
  nodup : y.touched.Nodup
  rows : y.rows.length = nr

variable {p₀ inputs dstKey nr} {x y : CpuChannelProcessor.Slot K}

/-- The receiver pass over one row leaves the lanes alone. -/
theorem RowsKeep.receiveRow (hkeys : ∀ r < nr, rxStateKey dstKey r nr ∉ inputs.map (·.linkKey))
    (h : RowsKeep p₀ inputs dstKey nr x y) (model : ModelConfig K) (count rate : ℕ) {r : ℕ}
    (hr : r < nr) :
    Ensures (RowsKeep p₀ inputs dstKey nr x) (receiveRow dstKey model count rate y r) := by
  obtain ⟨st, hst, hlink⟩ := h.housed r hr
  rw [← h.rows] at hst
  intro z hz
  obtain ⟨honly, visited, htouched, -⟩ := receiveRow_onlyAt dstKey model count rate hst rfl z hz
  have hrows := receiveRow_rows dstKey model count rate y r z hz
  rw [h.rows] at honly
  refine ⟨?_, ?_, ?_, ?_, ?_, hrows.trans h.rows⟩
  · intro key hkey
    rw [honly.states key fun heq => hkeys r hr (heq ▸ hkey)]
    exact h.states key hkey
  · intro k hk
    rw [honly.links k fun heq => hlink (heq ▸ hk)]
    exact h.links k hk
  · intro r' hr'
    obtain ⟨st', hst', hlink'⟩ := h.housed r' hr'
    by_cases heq : rxStateKey dstKey r' nr = rxStateKey dstKey r nr
    · rw [h.rows] at hst
      rw [heq] at hst' ⊢
      obtain ⟨st₂, hst₂, hlink₂⟩ := honly.housed st hst rfl
      exact ⟨st₂, hst₂, hlink₂ ▸ hlink⟩
    · rw [honly.states _ heq]
      exact ⟨st', hst', hlink'⟩
  · rw [htouched]
    exact List.Subset.trans h.touched (subset_touch ..)
  · rw [htouched]
    exact nodup_touch h.nodup visited

end Rows

/-! ## The clocks -/

section Clocks

omit [Field K] [LinearOrder K] [FloorRing K] [Libm K] [Rng K] in
/-- Moving the clocks changes no lane. -/
theorem advanceClocks_states (p : CpuChannelProcessor K) (touched : List String) (count : ℕ) :
    (p.advanceClocks touched count).states = p.states := by
  unfold advanceClocks
  induction touched generalizing p with
  | nil => rfl
  | cons k touched ih => exact ih (p.modifyLink k _)

omit [Field K] [LinearOrder K] [FloorRing K] [Libm K] [Rng K] in
/-- Every touched clock moves on, once. -/
theorem advanceClocks_links (p : CpuChannelProcessor K) {touched : List String}
    (hnodup : touched.Nodup) (count : ℕ) (k : String) :
    (p.advanceClocks touched count).links k =
      if k ∈ touched then
        (p.links k).map fun link => { link with slotStartSamples := link.slotStartSamples + count }
      else p.links k := by
  unfold advanceClocks
  induction touched generalizing p with
  | nil => rfl
  | cons k₀ touched ih =>
      rw [List.nodup_cons] at hnodup
      rw [List.foldl_cons, ih _ hnodup.2]
      unfold modifyLink
      dsimp only
      by_cases hk : k = k₀
      · subst hk
        rw [if_neg hnodup.1, if_pos List.mem_cons_self, Function.update_self]
      · rw [Function.update_of_ne hk]
        simp only [List.mem_cons, hk, false_or]

end Clocks

/-! ## The whole call -/

section Call

/-- The generation pass and the shaping pass of a call, read by read. -/
def CpuChannelProcessor.callReads (p : CpuChannelProcessor K) (call : SuperpositionCall K) :
    List (LaneRead K) × List (LaneRead K) :=
  match call.rowSizes with
  | [] => ([], [])
  | count :: _ =>
      if call.rowSizes.any (· ≠ count) then ([], [])
      else if count = 0 then ([], [])
      else
        (generateReads call.inputs count call.sampleRateHz (p, []) call.inputs,
          match call.inputs.foldlM (generateLane call.inputs count call.sampleRateHz) (p, []) with
          | .error _ => []
          | .ok (p, touched) =>
              match touched.foldlM mixLink p with
              | .error _ => []
              | .ok p => shapeReads count call.sampleRateHz
                  ⟨p, [], call.rowSizes.map fun size => List.replicate size 0⟩ call.inputs)

/-- A lane of the call, and its link, behind the call. -/
structure LaneServed (p q : CpuChannelProcessor K) (count : ℕ) (key : String) (st : LinkState K)
    (link : PhysicalLinkRuntime K) : Prop where
  state : ∃ steps, q.states key =
      some { refreshLane (link.slotSnap count).1 (link.slotSnap count).2 st with steps := steps } ∧
    SameRings steps (refreshLane (link.slotSnap count).1 (link.slotSnap count).2 st).steps
  link : ∃ fading, q.links st.link =
      some { (link.slotSnap count).1 with
        fading := fading, slotStartSamples := link.slotStartSamples + count }

omit [Libm K] [Rng K] in
/-- The slot's snap keeps the clock of the link. -/
theorem slotSnap_slotStartSamples (link : PhysicalLinkRuntime K) (count : ℕ) :
    (link.slotSnap count).1.slotStartSamples = link.slotStartSamples := by
  have hcore := ({ link with fading := link.fading.beginSlot } : PhysicalLinkRuntime K).snap_sameCore
    count
  refine hcore.slotStartSamples.trans ?_
  unfold PhysicalLinkRuntime.snapValues
  rfl

variable {p q : CpuChannelProcessor K} {call : SuperpositionCall K} {count : ℕ}
  {rows : List (List (Iq K))}

/-- **What a call of `count` samples leaves**: its lanes served, and its rows still apart. -/
theorem serve_spec (hready : LanesReady p call.inputs)
    (hcount : call.rowSizes.head? = some count) (hpos : count ≠ 0)
    (hrows : call.rxModel.isSome = true →
      RowsApart p call.inputs call.dstKey call.rowSizes.length)
    (hserve : p.serve call = .ok (q, rows)) :
    (∀ lane ∈ call.inputs, ∀ st link, p.states lane.linkKey = some st →
      p.links st.link = some link → LaneServed p q count lane.linkKey st link) ∧
      (call.rxModel.isSome = true → ∀ r < call.rowSizes.length, ∃ st,
        q.states (rxStateKey call.dstKey r call.rowSizes.length) = some st ∧
          st.link ∉ laneLinks p call.inputs) := by
  unfold CpuChannelProcessor.serve processSuperposition at hserve
  cases hsizes : call.rowSizes with
  | nil =>
      rw [hsizes] at hcount
      cases hcount
  | cons size sizes =>
      rw [hsizes] at hcount hserve hrows
      obtain rfl : size = count := Option.some.inj hcount
      dsimp only at hserve
      split_ifs at hserve
      obtain ⟨⟨q₁, touched⟩, hgen, hserve⟩ := bind_eq_ok hserve
      have hstart : Generated p call.inputs size (p, []) := Generated.start
      obtain ⟨hgenerated, -, hall⟩ :=
        (hstart.generate hready (List.Subset.refl _) call.sampleRateHz).2 _ hgen
      obtain ⟨q₂, hmix, hserve⟩ := bind_eq_ok hserve
      obtain ⟨hshaped, hlinks⟩ := (hgenerated.mix q₂ hmix).shaped hall
        ((size :: sizes).map fun size => List.replicate size 0)
      obtain ⟨slot, hslot, hserve⟩ := bind_eq_ok hserve
      obtain ⟨hdone, -, htouched⟩ := (hshaped.shape hready hlinks hpos (List.Subset.refl _)
        hready.nodup call.sampleRateHz).2 slot hslot
      have hslotRows : slot.rows.length = (size :: sizes).length := by
        refine (Ensures.foldlM
          (P := fun slot : CpuChannelProcessor.Slot K => slot.rows.length = (size :: sizes).length)
          (List.length_map ..) (fun lane _ x hx y hy =>
            (shapeLane_rows size call.sampleRateHz x lane y hy).trans hx)) slot hslot
      -- the rows leave the lanes, and the clocks move on
      have hend : ∀ slot' : CpuChannelProcessor.Slot K, (∀ key ∈ call.inputs.map (·.linkKey),
          slot'.proc.states key = slot.proc.states key) →
          (∀ k ∈ laneLinks p call.inputs, slot'.proc.links k = slot.proc.links k) →
          slot.touched ⊆ slot'.touched → slot'.touched.Nodup → ∀ lane ∈ call.inputs, ∀ st link,
            p.states lane.linkKey = some st → p.links st.link = some link →
            LaneServed p (slot'.proc.advanceClocks slot'.touched size) size lane.linkKey st link := by
        intro slot' hstates hlinkEq hsub hnodup lane hlane st link hst hlink
        have hmem : st.link ∈ laneLinks p call.inputs := ⟨lane, hlane, st, hst, rfl⟩
        constructor
        · rw [advanceClocks_states, hstates _ (List.mem_map_of_mem hlane)]
          exact hdone.lanes lane hlane st link hst hlink
        · obtain ⟨fading, hfading⟩ := hlinks st.link hmem link hlink
          refine ⟨fading, ?_⟩
          rw [advanceClocks_links _ hnodup, if_pos (hsub (htouched lane hlane st hst)),
            hlinkEq _ hmem, hdone.links, hfading, Option.map_some]
          congr 2
          rw [slotSnap_slotStartSamples]
      cases hmodel : call.rxModel with
      | none =>
          rw [hmodel] at hserve
          obtain ⟨rfl, rfl⟩ := Prod.mk.inj (Except.ok.inj hserve)
          exact ⟨hend slot (fun _ _ => rfl) (fun _ _ => rfl) (List.Subset.refl _) hdone.nodup,
            fun hsome => absurd hsome Bool.false_ne_true⟩
      | some model =>
          rw [hmodel] at hserve hrows
          obtain ⟨slot', hslot', hserve⟩ := bind_eq_ok hserve
          obtain ⟨rfl, rfl⟩ := Prod.mk.inj (Except.ok.inj hserve)
          have happart := hrows rfl
          have hkeep : RowsKeep p call.inputs call.dstKey (size :: sizes).length slot slot' := by
            refine Ensures.foldlM
              (P := RowsKeep p call.inputs call.dstKey (size :: sizes).length slot)
              ⟨fun _ _ => rfl, fun _ _ => rfl, ?_, List.Subset.refl _, hdone.nodup, hslotRows⟩ ?_
              slot' hslot'
            · intro r hr
              rw [hdone.others _ (happart.keys r hr)]
              exact happart.links r hr
            · intro r hr x hx
              rw [List.mem_range, List.length_map] at hr
              exact hx.receiveRow happart.keys model size call.sampleRateHz hr
          refine ⟨hend slot' hkeep.states hkeep.links hkeep.touched hkeep.nodup, fun _ r hr => ?_⟩
          rw [advanceClocks_states]
          exact hkeep.housed r hr

end Call

end CallOutcome
