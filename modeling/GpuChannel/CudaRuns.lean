/-
# Runs of the CUDA processor

Calls of `process_superposition` and publications of the control plane, in any order.  What
`prepare` wires into a slot (its link, its taps and their filters, its rays and its LOS
coefficient) stays as it is over every run: the device path works on the device states, and a node
that stages on the host reads the wired taps.  The clock of a link counts the samples of the calls
with a lane of it, one snap for each call, and the device copies of the clock keep up.
-/
import GpuChannel.CudaCalls
import GpuChannel.LinkClock
import GpuChannel.LaneAgreement

section CudaRuns

variable {K : Type}

open CudaChannelProcessor

/-! ## What prepare wires into a slot -/

/-- **The same wiring**: what `prepare` decides once and for all, and the length of the ring. -/
structure SameWiring (a b : LinkModelState K) : Prop where
  link : b.link = a.link
  laneIndex : b.laneIndex = a.laneIndex
  hasTdl : b.hasTdl = a.hasTdl
  tdlTaps : b.tdlTaps = a.tdlTaps
  tdlPolyphase : b.tdlPolyphase = a.tdlPolyphase
  tdlFading : b.tdlFading = a.tdlFading
  losCoefficient : b.losCoefficient = a.losCoefficient
  ring : b.delayLine.length = a.delayLine.length

namespace SameWiring

variable {a b c : LinkModelState K}

/-- A slot has its own wiring. -/
theorem refl (a : LinkModelState K) : SameWiring a a := ⟨rfl, rfl, rfl, rfl, rfl, rfl, rfl, rfl⟩

/-- Wiring is kept over two steps. -/
theorem trans (h : SameWiring a b) (h' : SameWiring b c) : SameWiring a c :=
  ⟨h'.link.trans h.link, h'.laneIndex.trans h.laneIndex, h'.hasTdl.trans h.hasTdl,
    h'.tdlTaps.trans h.tdlTaps, h'.tdlPolyphase.trans h.tdlPolyphase,
    h'.tdlFading.trans h.tdlFading, h'.losCoefficient.trans h.losCoefficient,
    h'.ring.trans h.ring⟩

/-- A slot with another ring of the same length. -/
theorem of_ring (a : LinkModelState K) {ring : List (Iq K)}
    (h : ring.length = a.delayLine.length) : SameWiring a { a with delayLine := ring } :=
  ⟨rfl, rfl, rfl, rfl, rfl, rfl, rfl, h⟩

/-- Slots, each wired as it was. -/
def All (slots slots' : String → Option (LinkModelState K)) : Prop :=
  ∀ key, Option.Rel SameWiring (slots key) (slots' key)

/-- Every slot has its own wiring. -/
theorem All.refl (slots : String → Option (LinkModelState K)) : All slots slots := by
  intro key
  cases slots key with
  | none => exact Option.Rel.none
  | some ms => exact Option.Rel.some (SameWiring.refl ms)

variable {slots slots' slots'' : String → Option (LinkModelState K)}

/-- A slot that was there is there, wired as it was. -/
theorem All.of_some (h : All slots slots') {key : String} {ms : LinkModelState K}
    (hms : slots key = some ms) : ∃ ms', slots' key = some ms' ∧ SameWiring ms ms' := by
  have hkey := h key
  rw [hms] at hkey
  generalize slots' key = o at hkey ⊢
  cases hkey with
  | some hsame => exact ⟨_, rfl, hsame⟩

/-- A slot that is there was there, wired as it is. -/
theorem All.to_some (h : All slots slots') {key : String} {ms' : LinkModelState K}
    (hms' : slots' key = some ms') : ∃ ms, slots key = some ms ∧ SameWiring ms ms' := by
  have hkey := h key
  rw [hms'] at hkey
  generalize slots key = o at hkey ⊢
  cases hkey with
  | some hsame => exact ⟨_, rfl, hsame⟩

/-- The wiring of all slots is kept over two steps. -/
theorem All.trans (h : All slots slots') (h' : All slots' slots'') : All slots slots'' := by
  intro key
  cases hslot : slots key with
  | none =>
      have hkey := h key
      have hkey' := h' key
      rw [hslot] at hkey
      cases hnext : slots' key with
      | none =>
          rw [hnext] at hkey'
          exact hkey'
      | some ms =>
          rw [hnext] at hkey
          cases hkey
  | some ms =>
      obtain ⟨ms', hms', hsame⟩ := h.of_some hslot
      obtain ⟨ms'', hms'', hsame'⟩ := h'.of_some hms'
      rw [hms'']
      exact Option.Rel.some (hsame.trans hsame')

/-- A slot may be replaced by one with the same wiring. -/
theorem All.update (h : All slots slots') {key : String} {ms ms' : LinkModelState K}
    (hms : slots key = some ms) (hsame : SameWiring ms ms') :
    All slots (Function.update slots' key (some ms')) := by
  intro key'
  by_cases hkey : key' = key
  · subst hkey
    rw [Function.update_self, hms]
    exact Option.Rel.some hsame
  · rw [Function.update_of_ne hkey]
    exact h key'

variable [Field K] [LinearOrder K] [FloorRing K] [Libm K]

/-- `build_steps` does not touch the wiring. -/
theorem built (a : LinkModelState K) (model : ModelConfig K) (input : Option (List (Iq K)))
    (count rate : ℕ) : SameWiring a (buildSteps a model input count rate) :=
  ⟨rfl, rfl, rfl, rfl, rfl, rfl, rfl, rfl⟩

/-- `stage_link` rolls the ring of the slot and leaves the rest alone. -/
theorem staged (a : LinkModelState K) (input : List (Iq K)) (rate start : ℕ) :
    Ensures (fun r => ∃ ring : List (Iq K), ring.length = a.delayLine.length ∧
      r.1 = { a with delayLine := ring }) (stageLink a input rate start) := by
  unfold stageLink
  split_ifs with htdl hfading
  · refine Ensures.bind (fun _ _ => trivial) fun grid _ => ?_
    refine Ensures.bind (P := fun r : List (Iq K) × List (Iq K) => r.2.length = a.delayLine.length)
      ?_ fun shaped hshaped => Ensures.pure ⟨shaped.2, hshaped, rfl⟩
    unfold applyTdlStepFading
    split_ifs
    · exact Ensures.pure (length_rollDelayLine input a.delayLine)
    · exact Ensures.throw
    · exact Ensures.pure (length_rollDelayLine input a.delayLine)
  · exact Ensures.pure ⟨_, length_rollDelayLine input a.delayLine, rfl⟩
  · exact Ensures.pure ⟨a.delayLine, rfl, rfl⟩

end SameWiring

variable [Field K] [LinearOrder K] [FloorRing K] [Libm K]

/-! ## One edge -/

/-- The slot of an edge behind the snap of its link.  Where the host stages, a new profile clears
the ring and changes nothing else. -/
def stagedSlot (useDeviceChannel : Bool) (after : PhysicalLinkRuntime K × LinkSnapOutcome)
    (ms : LinkModelState K) : LinkModelState K :=
  if after.2.profileActivated ∧ useDeviceChannel = false then
    { snapSlot after ms with delayLine := (snapSlot after ms).delayLine.map fun _ => 0 }
  else snapSlot after ms

omit [LinearOrder K] [FloorRing K] [Libm K] in
/-- The snap of its link does not touch the wiring of a slot. -/
theorem sameWiring_stagedSlot (useDeviceChannel : Bool)
    (after : PhysicalLinkRuntime K × LinkSnapOutcome) (ms : LinkModelState K) :
    SameWiring ms (stagedSlot useDeviceChannel after ms) := by
  have hsnap : SameWiring ms (snapSlot after ms) := by
    unfold snapSlot
    split_ifs
    · exact ⟨rfl, rfl, rfl, rfl, rfl, rfl, rfl, rfl⟩
    · exact SameWiring.refl ms
  unfold stagedSlot
  split_ifs
  · exact hsnap.trans ⟨rfl, rfl, rfl, rfl, rfl, rfl, rfl, List.length_map ..⟩
  · exact hsnap

/-- The link of a slot behind the snap pass, and what its snap said. -/
def snapped (links : LinkTable K) (outcomes : List (String × LinkSnapOutcome))
    (ms : LinkModelState K) : PhysicalLinkRuntime K × LinkSnapOutcome :=
  ((links ms.link).getD PhysicalLinkRuntime.default, (outcomes.lookup ms.link).getD {})

/-- **How an edge was staged**: on the device from the samples of its source, or on the host by
`stage_link`. -/
structure StagedBy (sp : CudaSuperposeState K) (sources : List (List (Iq K))) (rate : ℕ)
    (after : PhysicalLinkRuntime K × LinkSnapOutcome) (samples : List (Iq K))
    (ms : LinkModelState K) (d d' : DeviceLinkState K) (slot : LinkModelState K)
    (staged : List (Iq K)) : Prop where
  onDevice : sp.useDeviceChannel = true → d.snapRefresh after.1 after.2 ms.laneIndex = .ok d' ∧
    slot = stagedSlot true after ms ∧ staged = sources.getD d'.srcIndex []
  onHost : sp.useDeviceChannel = false → d' = d ∧
    stageLink (stagedSlot false after ms) samples rate after.1.slotStartSamples = .ok (slot, staged)

/-- Staging an edge does not touch the wiring of its slot. -/
theorem StagedBy.sameWiring {sp : CudaSuperposeState K} {sources : List (List (Iq K))} {rate : ℕ}
    {after : PhysicalLinkRuntime K × LinkSnapOutcome} {samples : List (Iq K)}
    {ms : LinkModelState K} {d d' : DeviceLinkState K} {slot : LinkModelState K}
    {staged : List (Iq K)} (h : StagedBy sp sources rate after samples ms d d' slot staged) :
    SameWiring ms slot := by
  cases hdevice : sp.useDeviceChannel with
  | true =>
      obtain ⟨-, rfl, -⟩ := h.onDevice hdevice
      exact sameWiring_stagedSlot true after ms
  | false =>
      obtain ⟨-, hstage⟩ := h.onHost hdevice
      obtain ⟨ring, hring, rfl⟩ := SameWiring.staged _ _ _ _ _ hstage
      exact (sameWiring_stagedSlot false after ms).trans (SameWiring.of_ring _ hring)

variable {sp : CudaSuperposeState K} {links : LinkTable K}
  {outcomes : List (String × LinkSnapOutcome)} {sources : List (List (Iq K))} {count rate : ℕ}

/-- **What one round of the edge loop did.** -/
theorem stageEdge_eq_ok {acc acc' : Staging K} {edge : SuperpositionInput K} {k : ℕ}
    (h : stageEdge sp links outcomes sources count rate acc (edge, k) = .ok acc') :
    ∃ model ms d slot staged groups, edge.model = some model ∧ edge.samples.length = count ∧
      acc.slots edge.linkKey = some ms ∧
      StagedBy sp sources rate (snapped links outcomes ms) edge.samples ms
        (acc.linkStates.getD k DeviceLinkState.zero) d slot staged ∧
      acc' =
        { slots := Function.update acc.slots edge.linkKey
            (some (buildSteps slot model (some staged) count rate))
          linkStates := acc.linkStates.set k d
          groups := groups
          table := acc.table.push
            ((buildSteps slot model (some staged) count rate).hostSteps.take model.chain.length)
          staged := acc.staged ++ [staged]
          nextSlotStart := acc.nextSlotStart ++
            [(snapped links outcomes ms).1.slotStartSamples + count] } := by
  unfold stageEdge at h
  dsimp only at h
  cases hmodel : edge.model with
  | none =>
      rw [hmodel] at h
      cases h
  | some model =>
      rw [hmodel] at h
      dsimp only at h
      obtain ⟨hsize, h⟩ := passed_check h
      obtain ⟨hchain, h⟩ := passed_check h
      cases hslot : acc.slots edge.linkKey with
      | none =>
          rw [hslot] at h
          cases h
      | some ms =>
          rw [hslot] at h
          dsimp only at h
          -- a node is on the device path or stages on the host, for all its edges
          cases hpath : sp.useDeviceChannel with
          | true =>
              rw [hpath, if_pos rfl] at h
              obtain ⟨d, hd, h⟩ := bind_eq_ok h
              rw [if_pos rfl] at h
              refine ⟨model, ms, d, _, _, _, rfl, not_not.mp hsize, rfl,
                ⟨fun _ => ⟨?_, rfl, rfl⟩, fun hhost => ?_⟩, (Except.ok.inj h).symm⟩
              · rw [← snapSlot_laneIndex (snapped links outcomes ms) ms]
                exact hd
              · exact absurd (hpath.symm.trans hhost) (by decide)
          | false =>
              rw [hpath, if_neg Bool.false_ne_true] at h
              obtain ⟨d, hd, h⟩ := bind_eq_ok h
              rw [if_neg Bool.false_ne_true] at h
              obtain ⟨⟨slot, staged⟩, hstaged, h⟩ := bind_eq_ok h
              refine ⟨model, ms, d, slot, staged, _, rfl, not_not.mp hsize, rfl,
                ⟨fun hdevice => ?_, fun _ => ⟨(Except.ok.inj hd).symm, hstaged⟩⟩,
                (Except.ok.inj h).symm⟩
              exact absurd (hpath.symm.trans hdevice) (by decide)

/-- **Where the edge loop stands** in a call that goes through. -/
structure Passed (slots : String → Option (LinkModelState K)) (links : LinkTable K) (count : ℕ)
    (states : List (DeviceLinkState K)) (done : List (SuperpositionInput K × ℕ))
    (acc : Staging K) : Prop where
  wiring : SameWiring.All slots acc.slots
  length : acc.linkStates.length = states.length
  there : ∀ e ∈ done, (slots e.1.linkKey).isSome = true
  starts : acc.nextSlotStart = done.map fun e => ((slots e.1.linkKey).map fun ms =>
    ((links ms.link).getD PhysicalLinkRuntime.default).slotStartSamples + count).getD 0

/-- The edge loop keeps the wiring, finds a slot for every edge and notes its next slot start. -/
theorem stageEdges_passed (slots : String → Option (LinkModelState K))
    (states : List (DeviceLinkState K)) (groups : List (DeviceCorrelationGroup K))
    (edges : List (SuperpositionInput K × ℕ)) :
    Ensures (Passed slots links count states edges)
      (edges.foldlM (stageEdge sp links outcomes sources count rate)
        ⟨slots, states, groups, StepTable.empty K, [], []⟩) := by
  refine Ensures.foldlM_done ⟨SameWiring.All.refl slots, rfl, ?_, rfl⟩ ?_
  · exact fun _ he => absurd he List.not_mem_nil
  · rintro done ⟨edge, k⟩ - acc hacc acc' hstep
    obtain ⟨model, ms, d, slot, staged, groups, -, -, hms, hstaged, rfl⟩ := stageEdge_eq_ok hstep
    obtain ⟨ms₀, hms₀, hsame⟩ := hacc.wiring.to_some hms
    refine ⟨?_, ?_, ?_, ?_⟩
    · exact hacc.wiring.update hms₀
        ((hsame.trans hstaged.sameWiring).trans (SameWiring.built slot model _ count rate))
    · exact (List.length_set ..).trans hacc.length
    · intro e he
      rcases List.mem_append.mp he with he | he
      · exact hacc.there e he
      · rw [List.mem_singleton.mp he, hms₀]
        rfl
    · dsimp only
      rw [hacc.starts, List.map_append, List.map_singleton, hms₀, Option.map_some, Option.getD_some]
      unfold snapped
      rw [hsame.link]

/-! ## One call -/

section Call

variable [Rng K] [Curand K]

/-- The number of samples of a call. -/
def SuperpositionCall.sampleCount (call : SuperpositionCall K) : ℕ := call.rowSizes.headD 0

/-- **What a call did** that went through all its passes. -/
structure ServedBy (p : CudaChannelProcessor K) (call : SuperpositionCall K)
    (sp : CudaSuperposeState K) (acc : Staging K) (rx : List (LinkModelState K))
    (q : CudaChannelProcessor K) (rows : List (List (Iq K))) : Prop where
  pos : call.sampleCount ≠ 0
  state : p.superposeStates call.dstKey = some sp
  checked : checkInputs sp.table call.dstKey (call.inputs.map (inputRow sp.table.rows)) = .ok ()
  staged : call.inputs.zipIdx.foldlM
    (stageEdge sp (callSnaps p call.sampleCount call.inputs).1 (callSnaps p call.sampleCount call.inputs).2
      (packSources sp call.inputs) call.sampleCount call.sampleRateHz)
    ⟨p.linkSlots, sp.linkStates, sp.groups, StepTable.empty K, [], []⟩ = .ok acc
  after : q =
    { linkSlots := acc.slots
      superposeStates := Function.update p.superposeStates call.dstKey (some
        { sp with
          linkStates :=
            if sp.useDeviceChannel then (runChannel acc call.sampleCount call.sampleRateHz).2
            else acc.linkStates
          groups := acc.groups
          rxModels := rx })
      links := advanceClocks (callSnaps p call.sampleCount call.inputs).1
        ((callSnaps p call.sampleCount call.inputs).2.map (·.1)) call.sampleCount }
  rows : call.rxModel = none → rx = sp.rxModels ∧
    rows = (List.range sp.table.rows).map fun r => superposeRow acc.table
      (if sp.useDeviceChannel then (runChannel acc call.sampleCount call.sampleRateHz).1 else acc.staged)
      call.sampleCount (sp.table.rowBegin.getD r 0) (sp.table.rowBegin.getD (r + 1) 0)

variable {p q : CudaChannelProcessor K} {call : SuperpositionCall K} {rows : List (List (Iq K))}

omit [Rng K] in
/-- **A call that returns** had nothing to do, or went through all its passes. -/
theorem cudaServe_eq_ok (h : p.serve call = .ok (q, rows)) :
    q = p ∧ (call.sampleCount = 0 ∨ call.inputs = []) ∨ ∃ sp acc rx, ServedBy p call sp acc rx q rows := by
  unfold CudaChannelProcessor.serve CudaChannelProcessor.processSuperposition at h
  unfold SuperpositionCall.sampleCount
  cases hsizes : call.rowSizes with
  | nil =>
      rw [hsizes] at h
      exact Or.inl ⟨(Prod.mk.inj (Except.ok.inj h)).1.symm, Or.inl rfl⟩
  | cons count sizes =>
      rw [hsizes] at h
      dsimp only at h
      cases hstate : p.superposeStates call.dstKey with
      | none =>
          rw [hstate] at h
          cases h
      | some sp =>
          rw [hstate] at h
          dsimp only at h
          -- the two returns without a pass stand between the checks
          obtain ⟨hcount, h⟩ := passed_check h
          obtain ⟨hunequal, h⟩ := passed_check h
          by_cases hzero : count = 0
          · rw [if_pos hzero] at h
            exact Or.inl ⟨(Prod.mk.inj (Except.ok.inj h)).1.symm, Or.inl hzero⟩
          rw [if_neg hzero] at h
          obtain ⟨hroom, h⟩ := passed_check h
          by_cases hnone : call.inputs.isEmpty = true
          · rw [if_pos hnone] at h
            exact Or.inl ⟨(Prod.mk.inj (Except.ok.inj h)).1.symm, Or.inr (by simpa using hnone)⟩
          rw [if_neg hnone] at h
          obtain ⟨⟨⟩, hchecked, h⟩ := bind_eq_ok h
          obtain ⟨hmissing, h⟩ := passed_check h
          obtain ⟨hmalformed, h⟩ := passed_check h
          obtain ⟨acc, hstaged, h⟩ := bind_eq_ok h
          have hsame : call.sampleCount = count := by
            unfold SuperpositionCall.sampleCount
            rw [hsizes, List.headD_cons]
          subst hsame
          refine Or.inr ⟨sp, acc, ?_⟩
          -- without a receiver model the rows of the sum are the rows of the call
          cases hrx : call.rxModel with
          | none =>
              rw [hrx] at h
              obtain ⟨rfl, rfl⟩ := Prod.mk.inj (Except.ok.inj h)
              refine ⟨sp.rxModels, hzero, hstate, hchecked, hstaged, ?_, fun _ => ⟨rfl, ?_⟩⟩
              · dsimp only
                congr 3
                split_ifs <;> rfl
              · split_ifs <;> rfl
          | some model =>
              rw [hrx] at h
              obtain ⟨⟨rx, shaped⟩, hreceive, h⟩ := bind_eq_ok h
              obtain ⟨rfl, rfl⟩ := Prod.mk.inj (Except.ok.inj h)
              refine ⟨rx, hzero, hstate, hchecked, hstaged, ?_, fun hnone => ?_⟩
              · dsimp only
                congr 3
                split_ifs <;> rfl
              · rw [hrx] at hnone
                cases hnone

/-! ## The clocks -/

/-- Every slot stands in a link that exists. -/
def SlotsLinked (p : CudaChannelProcessor K) : Prop :=
  ∀ key ms, p.linkSlots key = some ms → ∃ link, p.links ms.link = some link

/-- The link has a lane in the call. -/
def CudaChannelProcessor.Touches (p : CudaChannelProcessor K) (call : SuperpositionCall K)
    (k : String) : Prop :=
  ∃ input ∈ call.inputs, (p.linkSlots input.linkKey).map (·.link) = some k

instance (p : CudaChannelProcessor K) (call : SuperpositionCall K) (k : String) :
    Decidable (p.Touches call k) :=
  inferInstanceAs (Decidable (∃ input ∈ call.inputs, _ = _))

/-- How many samples of the link an event processes. -/
def CudaChannelProcessor.samplesOf (p : CudaChannelProcessor K) (k : String) : ServiceEvent K → ℕ
  | .call call => if p.Touches call k then call.sampleCount else 0
  | .publish _ => 0

/-- How many snaps of the link an event takes. -/
def CudaChannelProcessor.snapsOf (p : CudaChannelProcessor K) (k : String) : ServiceEvent K → ℕ
  | .call call => if call.sampleCount ≠ 0 ∧ p.Touches call k then 1 else 0
  | .publish _ => 0

/-- **What a run leaves**: the wiring as it was, and every link ahead by its samples and snaps. -/
structure Ticked (p q : CudaChannelProcessor K) (samples snaps : String → ℕ) : Prop where
  wiring : SameWiring.All p.linkSlots q.linkSlots
  links : ∀ k, Option.Rel (fun a b : PhysicalLinkRuntime K =>
    b.slotStartSamples = a.slotStartSamples + samples k ∧ b.nextSlot = a.nextSlot + snaps k)
    (p.links k) (q.links k)

omit [Libm K] [Rng K] [Curand K] in
/-- A snap leaves the clock alone. -/
theorem snap_slotStartSamples (link : PhysicalLinkRuntime K) (count : ℕ) :
    (link.snap count).1.slotStartSamples = link.slotStartSamples :=
  (link.snap_sameCore count).slotStartSamples.trans (by unfold PhysicalLinkRuntime.snapValues; rfl)

/-- A reflexive relation holds of an optional value and itself. -/
theorem rel_self {α : Type} {R : α → α → Prop} (hR : ∀ a, R a a) (o : Option α) :
    Option.Rel R o o := by
  cases o with
  | none => exact Option.Rel.none
  | some a => exact Option.Rel.some (hR a)

omit [Field K] [LinearOrder K] [FloorRing K] [Libm K] [Rng K] [Curand K] in
/-- Slots with the same wiring touch the same links. -/
theorem touches_congr (h : SameWiring.All p.linkSlots q.linkSlots) (call : SuperpositionCall K)
    (k : String) : q.Touches call k ↔ p.Touches call k := by
  have hlink : ∀ key, (q.linkSlots key).map (·.link) = (p.linkSlots key).map (·.link) := by
    intro key
    have hkey := h key
    generalize p.linkSlots key = a at hkey ⊢
    generalize q.linkSlots key = b at hkey ⊢
    cases hkey with
    | none => rfl
    | some hsame => exact congrArg some hsame.link
  unfold CudaChannelProcessor.Touches
  simp only [hlink]

namespace ServedBy

variable {acc : Staging K} {rx : List (LinkModelState K)}

omit [Rng K] in
/-- What the edge loop of the call left. -/
theorem passed (h : ServedBy p call sp acc rx q rows) :
    Passed p.linkSlots (callSnaps p call.sampleCount call.inputs).1 call.sampleCount sp.linkStates
      call.inputs.zipIdx acc :=
  stageEdges_passed _ _ _ _ _ h.staged

omit [Rng K] in
/-- Every input had its slot, and the slot its link. -/
theorem inputs_ready (h : ServedBy p call sp acc rx q rows) (hlinked : SlotsLinked p) :
    ∀ input ∈ call.inputs, ∃ ms link, p.linkSlots input.linkKey = some ms ∧
      p.links ms.link = some link := by
  intro input hinput
  obtain ⟨k, hk⟩ := List.mem_iff_getElem?.mp hinput
  have hmem : (input, k) ∈ call.inputs.zipIdx := List.mk_mem_zipIdx_iff_getElem?.mpr hk
  obtain ⟨ms, hms⟩ := Option.isSome_iff_exists.mp (h.passed.there _ hmem)
  obtain ⟨link, hlink⟩ := hlinked _ ms hms
  exact ⟨ms, link, hms, hlink⟩

omit [Rng K] in
/-- The links that the snap pass reached. -/
theorem mem_snapped (h : ServedBy p call sp acc rx q rows) (hlinked : SlotsLinked p) (k : String) :
    k ∈ (callSnaps p call.sampleCount call.inputs).2.map (·.1) ↔ p.Touches call k := by
  rw [(callSnaps_spec (h.inputs_ready hlinked) call.sampleCount).2 k]
  unfold CudaChannelProcessor.Touches
  constructor
  · rintro ⟨input, hinput, ms, hms, rfl⟩
    exact ⟨input, hinput, by rw [hms]; rfl⟩
  · rintro ⟨input, hinput, htouches⟩
    obtain ⟨ms, hms, rfl⟩ := Option.map_eq_some_iff.mp htouches
    exact ⟨input, hinput, ms, hms, rfl⟩

omit [Rng K] in
/-- **A link behind the call.** -/
theorem link_after (h : ServedBy p call sp acc rx q rows) (hlinked : SlotsLinked p) (k : String) :
    q.links k =
      if p.Touches call k then (p.links k).map fun link =>
        { (link.snap call.sampleCount).1 with
          slotStartSamples := link.slotStartSamples + call.sampleCount }
      else p.links k := by
  obtain ⟨hdone, -⟩ := callSnaps_spec (h.inputs_ready hlinked) call.sampleCount
  have hmem := h.mem_snapped hlinked k
  rw [h.after]
  dsimp only
  rw [advanceClocks_apply _ hdone.nodup]
  by_cases htouched : p.Touches call k
  · rw [if_pos htouched, if_pos (hmem.mpr htouched)]
    obtain ⟨input, hinput, htouches⟩ := id htouched
    obtain ⟨ms, hms, rfl⟩ := Option.map_eq_some_iff.mp htouches
    obtain ⟨link, hlink⟩ := hlinked _ ms hms
    rw [(hdone.reached _ link (hmem.mpr htouched) hlink).1, hlink, Option.map_some, Option.map_some,
      snap_slotStartSamples]
  · rw [if_neg htouched, if_neg fun hin => htouched (hmem.mp hin), hdone.others k
      fun hin => htouched (hmem.mp hin)]

omit [Rng K] in
/-- A call keeps the wiring and moves the clocks of its links on. -/
theorem ticked (h : ServedBy p call sp acc rx q rows) (hlinked : SlotsLinked p) :
    Ticked p q (fun k => p.samplesOf k (.call call)) fun k => p.snapsOf k (.call call) := by
  constructor
  · rw [h.after]
    exact h.passed.wiring
  · intro k
    rw [h.link_after hlinked]
    unfold CudaChannelProcessor.samplesOf CudaChannelProcessor.snapsOf
    dsimp only
    by_cases htouched : p.Touches call k
    · rw [if_pos htouched, if_pos htouched, if_pos ⟨h.pos, htouched⟩]
      cases p.links k with
      | none => exact Option.Rel.none
      | some link => exact Option.Rel.some ⟨rfl, link.snap_nextSlot call.sampleCount⟩
    · rw [if_neg htouched, if_neg htouched, if_neg fun hboth => htouched hboth.2]
      exact rel_self (fun _ => ⟨rfl, rfl⟩) _

end ServedBy

/-! ## The device copies of the clocks -/

/-- The clock of a link. -/
def CudaChannelProcessor.clock (p : CudaChannelProcessor K) (k : String) : ℕ :=
  ((p.links k).map (·.slotStartSamples)).getD 0

omit [Field K] [LinearOrder K] [FloorRing K] [Libm K] [Rng K] [Curand K] in
/-- The clock of a link behind a run. -/
theorem Ticked.clock {samples snaps : String → ℕ} (h : Ticked p q samples snaps) {k : String}
    {link : PhysicalLinkRuntime K} (hlink : p.links k = some link) :
    q.clock k = p.clock k + samples k := by
  have hrel := h.links k
  unfold CudaChannelProcessor.clock
  rw [hlink] at hrel ⊢
  generalize q.links k = after at hrel ⊢
  cases hrel with
  | some hboth => exact hboth.1

/-- The nodes keep their tables and their paths. -/
def SameTables (p q : CudaChannelProcessor K) : Prop :=
  ∀ id, (q.superposeStates id).map (fun sp => (sp.table, sp.useDeviceChannel)) =
    (p.superposeStates id).map fun sp => (sp.table, sp.useDeviceChannel)

omit [Field K] [LinearOrder K] [FloorRing K] [Libm K] [Rng K] [Curand K] in
/-- A node that has its states now had them before. -/
theorem SameTables.of_some (h : SameTables p q) {id : String} {sp' : CudaSuperposeState K}
    (hsp : q.superposeStates id = some sp') : ∃ sp, p.superposeStates id = some sp ∧
      sp.table = sp'.table ∧ sp.useDeviceChannel = sp'.useDeviceChannel := by
  have hid := h id
  rw [hsp, Option.map_some] at hid
  obtain ⟨sp, hp, hboth⟩ := Option.map_eq_some_iff.mp hid.symm
  exact ⟨sp, hp, (Prod.mk.inj hboth).1, (Prod.mk.inj hboth).2⟩

omit [Rng K] in
/-- A call does not touch the tables or the paths. -/
theorem ServedBy.sameTables {acc : Staging K} {rx : List (LinkModelState K)}
    (h : ServedBy p call sp acc rx q rows) : SameTables p q := by
  intro id
  rw [h.after]
  dsimp only
  by_cases hid : id = call.dstKey
  · subst hid
    rw [Function.update_self, h.state]
    rfl
  · rw [Function.update_of_ne hid]

/-- The inputs of the call are the edges of its node, in their order. -/
def FromEdges (p : CudaChannelProcessor K) (call : SuperpositionCall K) : Prop :=
  ∀ sp, p.superposeStates call.dstKey = some sp →
    call.inputs.map (·.linkKey) = sp.table.edges.map (·.key)

/-- No two nodes have edges of one link. -/
def NodesApart (p : CudaChannelProcessor K) : Prop :=
  ∀ id id' sp sp', p.superposeStates id = some sp → p.superposeStates id' = some sp' →
    ∀ lane ∈ sp.table.edges, ∀ lane' ∈ sp'.table.edges, ∀ ms ms', p.linkSlots lane.key = some ms →
      p.linkSlots lane'.key = some ms' → ms.link = ms'.link → id = id'

/-- **Every device state is at the time of its link.** -/
def EdgesTimed (p : CudaChannelProcessor K) : Prop :=
  ∀ id sp, p.superposeStates id = some sp → sp.useDeviceChannel = true →
    ∀ (k : ℕ) lane ms d, sp.table.edges[k]? = some lane → p.linkSlots lane.key = some ms →
      sp.linkStates[k]? = some d → d.slotStartSamples = p.clock ms.link

omit [Field K] [LinearOrder K] [FloorRing K] [Libm K] [Rng K] [Curand K] in
/-- A call is made from the same edges later on. -/
theorem FromEdges.congr (h : SameTables p q) (hcall : FromEdges p call) : FromEdges q call := by
  intro sp' hsp'
  obtain ⟨sp, hsp, htable, -⟩ := h.of_some hsp'
  rw [hcall sp hsp, htable]

omit [Field K] [LinearOrder K] [FloorRing K] [Libm K] [Rng K] [Curand K] in
/-- The nodes stay apart. -/
theorem NodesApart.congr (h : NodesApart p) (htables : SameTables p q)
    (hwiring : SameWiring.All p.linkSlots q.linkSlots) : NodesApart q := by
  intro id id' sp sp' hsp hsp' lane hlane lane' hlane' ms ms' hms hms' hlink
  obtain ⟨sp₀, hsp₀, htable, -⟩ := htables.of_some hsp
  obtain ⟨sp₀', hsp₀', htable', -⟩ := htables.of_some hsp'
  obtain ⟨ms₀, hms₀, hsame⟩ := hwiring.to_some hms
  obtain ⟨ms₀', hms₀', hsame'⟩ := hwiring.to_some hms'
  rw [hsame.link, hsame'.link] at hlink
  exact h id id' sp₀ sp₀' hsp₀ hsp₀' lane (htable ▸ hlane) lane' (htable' ▸ hlane') ms₀ ms₀' hms₀
    hms₀' hlink

omit [Rng K] in
/-- **A call keeps the device states at the time of their links.** -/
theorem ServedBy.edgesTimed {acc : Staging K} {rx : List (LinkModelState K)}
    (h : ServedBy p call sp acc rx q rows) (hlinked : SlotsLinked p) (hcall : FromEdges p call)
    (hapart : NodesApart p) (htimed : EdgesTimed p) : EdgesTimed q := by
  have hticked := h.ticked hlinked
  intro id sp' hsp' hdevice k lane ms' d hlane hms' hd
  obtain ⟨ms, hms, hsame⟩ := hticked.wiring.to_some hms'
  obtain ⟨link, hlink⟩ := hlinked _ ms hms
  rw [hsame.link, hticked.clock hlink]
  rw [h.after] at hsp'
  dsimp only at hsp'
  by_cases hid : id = call.dstKey
  · -- the states of the node itself are rolled to the next slot start
    subst hid
    rw [Function.update_self] at hsp'
    obtain rfl := Option.some.inj hsp'
    dsimp only at hdevice hlane hd
    rw [if_pos hdevice] at hd
    have hkey : (call.inputs.map (·.linkKey))[k]? = some lane.key := by
      rw [hcall sp h.state, List.getElem?_map, hlane, Option.map_some]
    rw [List.getElem?_map] at hkey
    obtain ⟨input, hinput, hkey⟩ := Option.map_eq_some_iff.mp hkey
    have htouched : p.Touches call ms.link := by
      refine ⟨input, List.mem_of_getElem? hinput, ?_⟩
      rw [hkey, hms, Option.map_some]
    obtain ⟨hdone, -⟩ := callSnaps_spec (h.inputs_ready hlinked) call.sampleCount
    have hsnap := (hdone.reached _ link ((h.mem_snapped hlinked _).mpr htouched) hlink).1
    have hstart : acc.nextSlotStart.getD k 0 = link.slotStartSamples + call.sampleCount := by
      rw [h.passed.starts, List.getD_eq_getElem?_getD, List.getElem?_map, List.getElem?_zipIdx,
        hinput, Option.map_some, Option.map_some, Option.getD_some, hkey, hms, Option.map_some,
        Option.getD_some, hsnap, Option.getD_some, snap_slotStartSamples]
    unfold runChannel at hd
    dsimp only at hd
    rw [List.getElem?_mapIdx] at hd
    obtain ⟨s, -, rfl⟩ := Option.map_eq_some_iff.mp hd
    have hrolled : ∀ (source : List (Iq K)) (next : ℕ),
        (s.updateDelayLineKernel source next).slotStartSamples = next := by
      intro source next
      unfold DeviceLinkState.updateDelayLineKernel
      dsimp only
      split_ifs <;> rfl
    rw [hrolled, hstart]
    unfold CudaChannelProcessor.clock CudaChannelProcessor.samplesOf
    dsimp only
    rw [hlink, if_pos htouched]
    rfl
  · -- the call has no lane of the other node's links
    rw [Function.update_of_ne hid] at hsp'
    have hnot : ¬ p.Touches call ms.link := by
      rintro ⟨input, hinput, htouches⟩
      obtain ⟨ms₁, hms₁, hlink₁⟩ := Option.map_eq_some_iff.mp htouches
      have hkey : input.linkKey ∈ sp.table.edges.map (·.key) := by
        rw [← hcall sp h.state]
        exact List.mem_map_of_mem hinput
      obtain ⟨lane₁, hlane₁, hkey⟩ := List.mem_map.mp hkey
      refine hid (hapart id call.dstKey sp' sp hsp' h.state lane (List.mem_of_getElem? hlane) lane₁
        hlane₁ ms ms₁ hms ?_ hlink₁.symm)
      rw [hkey]
      exact hms₁
    unfold CudaChannelProcessor.samplesOf
    dsimp only
    rw [if_neg hnot, Nat.add_zero]
    exact htimed id sp' hsp' hdevice k lane ms d hlane hms hd

/-! ## Runs -/

/-- What happens to the processor between two calls: a call, or publications. -/
def CudaChannelProcessor.serviceStep (p : CudaChannelProcessor K) :
    ServiceEvent K → Except String (CudaChannelProcessor K × List (List (Iq K)))
  | .call call => p.serve call
  | .publish ps => .ok ({ p with links := p.links.publishAll ps }, [])

omit [Field K] [LinearOrder K] [FloorRing K] [Libm K] [Rng K] [Curand K] in
/-- Nothing happened. -/
theorem Ticked.refl (p : CudaChannelProcessor K) : Ticked p p (fun _ => 0) fun _ => 0 :=
  ⟨SameWiring.All.refl _, fun _ => rel_self (fun _ => ⟨rfl, rfl⟩) _⟩

omit [Field K] [LinearOrder K] [FloorRing K] [Libm K] [Rng K] [Curand K] in
/-- Samples and snaps add up. -/
theorem Ticked.trans {r : CudaChannelProcessor K} {samples snaps samples' snaps' : String → ℕ}
    (h : Ticked p q samples snaps) (h' : Ticked q r samples' snaps') :
    Ticked p r (fun k => samples k + samples' k) fun k => snaps k + snaps' k := by
  refine ⟨h.wiring.trans h'.wiring, fun k => ?_⟩
  have hpq := h.links k
  have hqr := h'.links k
  generalize p.links k = a at hpq ⊢
  generalize q.links k = b at hpq hqr
  generalize r.links k = c at hqr ⊢
  cases hpq with
  | none =>
      cases hqr
      exact Option.Rel.none
  | some hab =>
      cases hqr with
      | some hbc =>
          refine Option.Rel.some ⟨?_, ?_⟩
          · rw [hbc.1, hab.1, Nat.add_assoc]
          · rw [hbc.2, hab.2, Nat.add_assoc]

omit [Field K] [LinearOrder K] [FloorRing K] [Libm K] [Rng K] [Curand K] in
/-- Slots stay linked. -/
theorem Ticked.slotsLinked {samples snaps : String → ℕ} (h : Ticked p q samples snaps)
    (hlinked : SlotsLinked p) : SlotsLinked q := by
  intro key ms' hms'
  obtain ⟨ms, hms, hsame⟩ := h.wiring.to_some hms'
  obtain ⟨link, hlink⟩ := hlinked key ms hms
  have hrel := h.links ms.link
  rw [hlink] at hrel
  rw [hsame.link]
  generalize q.links ms.link = after at hrel ⊢
  cases hrel with
  | some _ => exact ⟨_, rfl⟩

omit [Field K] [LinearOrder K] [FloorRing K] [Libm K] [Rng K] [Curand K] in
/-- A publication writes to control blocks alone. -/
theorem ticked_publish (p : CudaChannelProcessor K) (ps : List (Publication K)) :
    Ticked p { p with links := p.links.publishAll ps } (fun _ => 0) fun _ => 0 := by
  have hto : ∀ (k : String) (link : PhysicalLinkRuntime K),
      (LinkTable.publishTo k ps link).slotStartSamples = link.slotStartSamples ∧
        (LinkTable.publishTo k ps link).nextSlot = link.nextSlot := by
    intro k link
    unfold LinkTable.publishTo
    induction ps.filter (·.linkId = k) generalizing link with
    | nil => exact ⟨rfl, rfl⟩
    | cons one ps ih => exact ih (link.publish one.gate one.update)
  refine ⟨SameWiring.All.refl _, fun k => ?_⟩
  dsimp only
  rw [LinkTable.publishAll_apply]
  cases p.links k with
  | none => exact Option.Rel.none
  | some link => exact Option.Rel.some (hto k link)

omit [Field K] [LinearOrder K] [FloorRing K] [Libm K] [Rng K] [Curand K] in
/-- The samples and the snaps of a link do not depend on when an event happens. -/
theorem amounts_congr (h : SameWiring.All p.linkSlots q.linkSlots) (k : String)
    (event : ServiceEvent K) :
    q.samplesOf k event = p.samplesOf k event ∧ q.snapsOf k event = p.snapsOf k event := by
  cases event with
  | call call =>
      unfold CudaChannelProcessor.samplesOf CudaChannelProcessor.snapsOf
      dsimp only
      simp only [touches_congr h call k, and_self]
  | publish ps => exact ⟨rfl, rfl⟩

/-- The calls of a run are made from the edges of their nodes. -/
def ServiceEvent.Made (p : CudaChannelProcessor K) : ServiceEvent K → Prop
  | .call call => FromEdges p call
  | .publish _ => True

omit [Rng K] in
/-- One event of a run, at the links. -/
theorem serviceStep_ticked {event : ServiceEvent K} {out : List (List (Iq K))}
    (hlinked : SlotsLinked p) (h : p.serviceStep event = .ok (q, out)) :
    Ticked p q (fun k => p.samplesOf k event) fun k => p.snapsOf k event := by
  cases event with
  | call call =>
      rcases cudaServe_eq_ok h with ⟨rfl, hidle⟩ | ⟨sp, acc, rx, hserved⟩
      · -- a call without samples or without inputs counts for no link
        have hnothing : ∀ k, q.samplesOf k (.call call) = 0 ∧ q.snapsOf k (.call call) = 0 := by
          intro k
          unfold CudaChannelProcessor.samplesOf CudaChannelProcessor.snapsOf
          dsimp only
          rcases hidle with hzero | hnone
          · have hnot : ¬ (0 ≠ 0 ∧ q.Touches call k) := fun hboth => hboth.1 rfl
            rw [hzero, ite_self, if_neg hnot]
            exact ⟨rfl, rfl⟩
          · have hnot : ¬ q.Touches call k := by
              rintro ⟨input, hinput, -⟩
              rw [hnone] at hinput
              exact List.not_mem_nil hinput
            rw [if_neg hnot, if_neg fun hboth => hnot hboth.2]
            exact ⟨rfl, rfl⟩
        rw [funext fun k => (hnothing k).1, funext fun k => (hnothing k).2]
        exact Ticked.refl q
      · exact hserved.ticked hlinked
  | publish ps =>
      obtain ⟨rfl, -⟩ := Prod.mk.inj (Except.ok.inj h)
      exact ticked_publish p ps

omit [Rng K] in
/-- No event changes the tables or the paths. -/
theorem serviceStep_tables {event : ServiceEvent K} {out : List (List (Iq K))}
    (h : p.serviceStep event = .ok (q, out)) : SameTables p q := by
  cases event with
  | call call =>
      rcases cudaServe_eq_ok h with ⟨rfl, -⟩ | ⟨sp, acc, rx, hserved⟩
      · exact fun _ => rfl
      · exact hserved.sameTables
  | publish ps =>
      obtain ⟨rfl, -⟩ := Prod.mk.inj (Except.ok.inj h)
      exact fun _ => rfl

omit [Rng K] in
/-- One event of a run, at the device states. -/
theorem serviceStep_timed {event : ServiceEvent K} {out : List (List (Iq K))}
    (hlinked : SlotsLinked p) (hevent : event.Made p) (hapart : NodesApart p)
    (htimed : EdgesTimed p) (h : p.serviceStep event = .ok (q, out)) : EdgesTimed q := by
  cases event with
  | call call =>
      rcases cudaServe_eq_ok h with ⟨rfl, -⟩ | ⟨sp, acc, rx, hserved⟩
      · exact htimed
      · exact hserved.edgesTimed hlinked hevent hapart htimed
  | publish ps =>
      obtain ⟨rfl, -⟩ := Prod.mk.inj (Except.ok.inj h)
      intro id sp hsp hdevice k lane ms d hlane hms hd
      rw [htimed id sp hsp hdevice k lane ms d hlane hms hd]
      have hlink := (ticked_publish p ps).links ms.link
      unfold CudaChannelProcessor.clock
      generalize ({ p with links := p.links.publishAll ps } : CudaChannelProcessor K).links ms.link
        = after at hlink ⊢
      generalize p.links ms.link = before at hlink ⊢
      cases hlink with
      | none => rfl
      | some hboth => exact hboth.1.symm

variable {events : List (ServiceEvent K)} {outs : List (List (List (Iq K)))}

omit [Rng K] in
/-- **A run, at the links**: the wiring stays, and every link is ahead by its samples and its
snaps, whatever calls were made. -/
theorem service_ticked (hlinked : SlotsLinked p)
    (hrun : Run.trace CudaChannelProcessor.serviceStep p events = .ok (q, outs)) :
    Ticked p q (fun k => (events.map (p.samplesOf k)).sum) fun k =>
      (events.map (p.snapsOf k)).sum := by
  induction events generalizing p outs with
  | nil =>
      cases hrun
      exact Ticked.refl _
  | cons event events ih =>
      obtain ⟨mid, out, outs', hstep, hrest, rfl⟩ := Run.trace_cons_eq_ok.mp hrun
      have hmid := serviceStep_ticked hlinked hstep
      have hsums : ∀ k, (events.map (mid.samplesOf k)).sum = (events.map (p.samplesOf k)).sum ∧
          (events.map (mid.snapsOf k)).sum = (events.map (p.snapsOf k)).sum := by
        intro k
        rw [List.map_congr_left fun event _ => (amounts_congr hmid.wiring k event).1,
          List.map_congr_left fun event _ => (amounts_congr hmid.wiring k event).2]
        exact ⟨rfl, rfl⟩
      have hboth := hmid.trans (ih (hmid.slotsLinked hlinked) hrest)
      rw [funext fun k => congrArg (p.samplesOf k event + ·) (hsums k).1,
        funext fun k => congrArg (p.snapsOf k event + ·) (hsums k).2] at hboth
      exact hboth

omit [Rng K] in
/-- **A run, at the device states**, where the calls are made from the edges of nodes that share
no link. -/
theorem service_timed (hlinked : SlotsLinked p) (hevents : ∀ event ∈ events, event.Made p)
    (hapart : NodesApart p) (htimed : EdgesTimed p)
    (hrun : Run.trace CudaChannelProcessor.serviceStep p events = .ok (q, outs)) : EdgesTimed q := by
  induction events generalizing p outs with
  | nil =>
      cases hrun
      exact htimed
  | cons event events ih =>
      rw [List.forall_mem_cons] at hevents
      obtain ⟨mid, out, outs', hstep, hrest, rfl⟩ := Run.trace_cons_eq_ok.mp hrun
      have hticked := serviceStep_ticked hlinked hstep
      have htables := serviceStep_tables hstep
      have hmade : ∀ event ∈ events, event.Made mid := by
        intro event hevent
        cases event with
        | call call => exact FromEdges.congr htables (hevents.2 _ hevent)
        | publish ps => trivial
      exact ih (hticked.slotsLinked hlinked) hmade (hapart.congr htables hticked.wiring)
        (serviceStep_timed hlinked hevents.1 hapart htimed hstep) hrest

end Call

/-! ## The start of a run -/

section Start

variable [Rng K] {config : TopologyConfig K} {resolved : ResolvedTopology}
  {p : CudaChannelProcessor K}

/-- The slot of a live lane, as `prepare` wires it. -/
def WiredLane (config : TopologyConfig K) (resolved : ResolvedTopology) (key : String)
    (ms : LinkModelState K) : Prop :=
  ∃ lane ∈ resolved.lanes, ∃ model los, lane.key = key ∧
    config.findModel lane.modelId = some model ∧
      ms = { laneSlot model lane with losCoefficient := los }

/-- **What `prepare` builds**: wired slots in links at time zero, and device states beside them. -/
structure Built (config : TopologyConfig K) (resolved : ResolvedTopology)
    (p : CudaChannelProcessor K) : Prop where
  slots : ∀ key ms, p.linkSlots key = some ms → WiredLane config resolved key ms
  linked : SlotsLinked p
  clocks : ∀ k link, p.links k = some link → link.slotStartSamples = 0 ∧ link.nextSlot = 0
  edges : ∀ id sp, p.superposeStates id = some sp →
    (∀ lane ∈ sp.table.edges, lane ∈ resolved.lanes ∧ lane.dstNode = id) ∧
      ∀ d ∈ sp.linkStates, d.slotStartSamples = 0

/-- A slot stands in the link of its lane. -/
theorem laneSlot_link (model : ModelConfig K) (lane : LaneConfig) :
    (laneSlot model lane).link = lane.physicalLinkKey := rfl

omit [LinearOrder K] [FloorRing K] [Libm K] [Rng K] in
/-- The lane loop leaves the clock of a link at zero. -/
theorem prepareLink_clock (model : ModelConfig K) (slot : LinkModelState K) (lane : LaneConfig)
    (flag : Bool) (count : ℕ) (link : PhysicalLinkRuntime K) :
    let after := CudaChannelProcessor.prepareLink model slot lane flag count link
    after.slotStartSamples = link.slotStartSamples ∧ after.nextSlot = link.nextSlot := by
  unfold CudaChannelProcessor.prepareLink
  dsimp only
  split_ifs <;> exact ⟨rfl, rfl⟩

/-- One lane of the lane loop. -/
theorem Built.prepareLane (h : Built config resolved p) {lane : LaneConfig}
    (hlane : lane ∈ resolved.lanes) :
    Built config resolved (CudaChannelProcessor.prepareLane config resolved p lane) := by
  unfold CudaChannelProcessor.prepareLane
  split
  · rename_i model node hmodel hnode
    refine ⟨?_, ?_, ?_, h.edges⟩
    -- the new slot is the lane's, the others stay
    · intro key ms hms
      dsimp only at hms
      by_cases hkey : key = lane.key
      · subst hkey
        rw [Function.update_self] at hms
        obtain rfl := Option.some.inj hms
        exact ⟨lane, hlane, model, _, rfl, hmodel, rfl⟩
      · rw [Function.update_of_ne hkey] at hms
        exact h.slots key ms hms
    -- the lane's own link is there now, whatever was
    · intro key ms hms
      dsimp only at hms ⊢
      have hthere : ms.link = lane.physicalLinkKey ∨ ∃ link, p.links ms.link = some link := by
        by_cases hkey : key = lane.key
        · subst hkey
          rw [Function.update_self] at hms
          obtain rfl := Option.some.inj hms
          exact Or.inl (laneSlot_link model lane)
        · rw [Function.update_of_ne hkey] at hms
          exact Or.inr (h.linked key ms hms)
      by_cases hk : ms.link = lane.physicalLinkKey
      · rw [hk, Function.update_self]
        exact ⟨_, rfl⟩
      · rw [Function.update_of_ne hk]
        exact hthere.resolve_left hk
    -- preparing a link leaves its clock and its slot counter at zero
    · intro k link hlink
      dsimp only at hlink
      by_cases hk : k = lane.physicalLinkKey
      · subst hk
        rw [Function.update_self] at hlink
        obtain rfl := Option.some.inj hlink
        have hbefore : ((p.links lane.physicalLinkKey).getD
            PhysicalLinkRuntime.default).slotStartSamples = 0 ∧
            ((p.links lane.physicalLinkKey).getD PhysicalLinkRuntime.default).nextSlot = 0 := by
          cases hold : p.links lane.physicalLinkKey with
          | none => exact ⟨rfl, rfl⟩
          | some old => exact h.clocks _ old hold
        obtain ⟨hclock, hslot⟩ := prepareLink_clock model (laneSlot model lane) lane
          ((((config.links[lane.linkIndex]?).bind fun link => config.findModel link.model).map
            (·.fixedMimoDeclared)).getD false)
          (resolveBatchSamples config.runtime node.sampleRateHz)
          ((p.links lane.physicalLinkKey).getD PhysicalLinkRuntime.default)
        exact ⟨hclock.trans hbefore.1, hslot.trans hbefore.2⟩
      · rw [Function.update_of_ne hk] at hlink
        exact h.clocks k link hlink
  · exact h

/-- One edge of a node. -/
theorem Built.prepareEdge (h : Built config resolved p) (useDeviceChannel : Bool)
    (e : LaneConfig × ModelConfig K × LinkModelState K) :
    Built config resolved (CudaChannelProcessor.prepareEdge useDeviceChannel p e) := by
  -- the link of the edge is marked and keeps its clock
  have hmarked : ∀ k, Option.Rel (fun a b : PhysicalLinkRuntime K =>
      b.slotStartSamples = a.slotStartSamples ∧ b.nextSlot = a.nextSlot) (p.links k)
      ((CudaChannelProcessor.prepareEdge useDeviceChannel p e).links k) := by
    intro k
    unfold CudaChannelProcessor.prepareEdge
    dsimp only
    by_cases hk : k = e.2.2.link
    · subst hk
      rw [Function.update_self]
      cases p.links e.2.2.link with
      | none => exact Option.Rel.none
      | some link => exact Option.Rel.some ⟨rfl, rfl⟩
    · rw [Function.update_of_ne hk]
      exact rel_self (fun _ => ⟨rfl, rfl⟩) _
  -- the slot of the edge gets its LOS coefficient, the others are kept
  have hslots : ∀ key ms', (CudaChannelProcessor.prepareEdge useDeviceChannel p e).linkSlots key =
      some ms' → ∃ ms los, p.linkSlots key = some ms ∧
        ms' = { ms with losCoefficient := los } := by
    intro key ms' hms'
    unfold CudaChannelProcessor.prepareEdge at hms'
    dsimp only at hms'
    by_cases hkey : key = e.1.key
    · subst hkey
      rw [Function.update_self] at hms'
      obtain ⟨ms, hms, rfl⟩ := Option.map_eq_some_iff.mp hms'
      exact ⟨ms, _, hms, rfl⟩
    · rw [Function.update_of_ne hkey] at hms'
      exact ⟨ms', ms'.losCoefficient, hms', rfl⟩
  refine ⟨?_, ?_, ?_, h.edges⟩
  · intro key ms' hms'
    obtain ⟨ms, los, hms, rfl⟩ := hslots key ms' hms'
    obtain ⟨lane, hlane, model, los', hkey, hmodel, rfl⟩ := h.slots key ms hms
    exact ⟨lane, hlane, model, los, hkey, hmodel, rfl⟩
  · intro key ms' hms'
    obtain ⟨ms, los, hms, rfl⟩ := hslots key ms' hms'
    obtain ⟨link, hlink⟩ := h.linked key ms hms
    have hrel := hmarked ms.link
    dsimp only
    rw [hlink] at hrel
    generalize (CudaChannelProcessor.prepareEdge useDeviceChannel p e).links ms.link = after
      at hrel ⊢
    cases hrel with
    | some _ => exact ⟨_, rfl⟩
  · intro k link hlink
    have hrel := hmarked k
    rw [hlink] at hrel
    cases hbefore : p.links k with
    | none =>
        rw [hbefore] at hrel
        cases hrel
    | some before =>
        rw [hbefore] at hrel
        cases hrel with
        | some hboth =>
            obtain ⟨hclock, hslot⟩ := h.clocks k before hbefore
            exact ⟨hboth.1.trans hclock, hboth.2.trans hslot⟩

omit [Rng K] in
/-- The device state of an edge starts at time zero. -/
theorem deviceEdge_clock (model : ModelConfig K) (slot : LinkModelState K) (lane : LaneConfig)
    (srcIndex : ℕ) : (deviceEdge model slot lane srcIndex).2.slotStartSamples = 0 := by
  have hbuilt : ∀ first : ModelStep K, (buildDeviceLinkState first slot.tdlPolyphase slot.tdlFading
      slot.delayLine.length srcIndex).2.slotStartSamples = 0 := by
    intro first
    unfold buildDeviceLinkState
    dsimp only
    split_ifs <;> rfl
  unfold deviceEdge
  dsimp only
  cases model.chain with
  | nil => rfl
  | cons first rest =>
      dsimp only
      split_ifs
      · exact hbuilt first
      · rfl

omit [Field K] [LinearOrder K] [Libm K] [FloorRing K] [Rng K] in
/-- The rows that a node is given, and their edges. -/
theorem prepareNodeRows_eq_ok {node : ResolvedNode} {table : SuperposeState}
    (h : prepareNodeRows config resolved node = .ok (some table)) :
    table.rows = max 1 node.rxPorts.length ∧
      ∀ lane ∈ table.edges, lane ∈ resolved.lanes ∧ lane.dstNode = node.id := by
  unfold prepareNodeRows at h
  dsimp only at h
  split_ifs at h
  · cases h
  · obtain ⟨perRow, -, h⟩ := bind_eq_ok h
    obtain rfl := Option.some.inj (Except.ok.inj h)
    refine ⟨rfl, fun lane hlane => ?_⟩
    have hmem := mem_nodeLanes.mp (List.mem_of_mem_filter hlane)
    exact ⟨hmem.1, hmem.2.1⟩

/-- **What one node of the node loop did.** -/
theorem prepareNode_eq_ok {node : ResolvedNode} {q : CudaChannelProcessor K}
    (h : CudaChannelProcessor.prepareNode config resolved p node = .ok q) :
    q = p ∨ ∃ table sp, prepareNodeRows config resolved node = .ok (some table) ∧
      sp.table = table ∧
      sp.linkStates = ((nodeEdges config p table).zipWith
        (fun e src => deviceEdge e.2.1 e.2.2 e.1 src) table.sources.numbers).map (·.2) ∧
      sp.rxModels = ((if node.rxModel.isEmpty then none else config.findModel node.rxModel).map
        (prepareRxModels node)).getD [] ∧
      let edged := (nodeEdges config p table).foldl (CudaChannelProcessor.prepareEdge
        ((nodeEdges config p table).all fun e => leadsWithTdl e.2.1)) p
      q = { edged with
        superposeStates := Function.update edged.superposeStates node.id (some sp) } := by
  unfold CudaChannelProcessor.prepareNode at h
  obtain ⟨table, htable, h⟩ := bind_eq_ok h
  cases table with
  | none => exact Or.inl (Except.ok.inj h).symm
  | some table =>
      dsimp only at h
      obtain ⟨-, h⟩ := passed_check h
      obtain ⟨groups, -, h⟩ := bind_eq_ok h
      obtain ⟨complete, -, h⟩ := bind_eq_ok h
      exact Or.inr ⟨table, _, htable, rfl, rfl, rfl, (Except.ok.inj h).symm⟩

/-- One node of the node loop. -/
theorem Built.prepareNode (h : Built config resolved p) (node : ResolvedNode) :
    Ensures (Built config resolved) (CudaChannelProcessor.prepareNode config resolved p node) := by
  intro q hq
  rcases prepareNode_eq_ok hq with rfl | ⟨table, sp, htable, hsp, hstates, -, rfl⟩
  · exact h
  have hfolded : Built config resolved ((nodeEdges config p table).foldl
      (CudaChannelProcessor.prepareEdge
        ((nodeEdges config p table).all fun e => leadsWithTdl e.2.1)) p) :=
    List.foldlRecOn _ _ h fun q' hq' e _ => hq'.prepareEdge _ e
  refine ⟨hfolded.slots, hfolded.linked, hfolded.clocks, ?_⟩
  intro id sp' hsp'
  dsimp only at hsp'
  by_cases hid : id = node.id
  · subst hid
    rw [Function.update_self] at hsp'
    obtain rfl := Option.some.inj hsp'
    refine ⟨?_, ?_⟩
    · rw [hsp]
      exact (prepareNodeRows_eq_ok htable).2
    · intro d hd
      rw [hstates] at hd
      obtain ⟨built, hbuilt, rfl⟩ := List.mem_map.mp hd
      rw [← List.map_uncurry_zip_eq_zipWith] at hbuilt
      obtain ⟨⟨e, src⟩, -, rfl⟩ := List.mem_map.mp hbuilt
      exact deviceEdge_clock ..
  · rw [Function.update_of_ne hid] at hsp'
    exact hfolded.edges id sp' hsp'

/-- **What `prepare` leaves.** -/
theorem cudaPrepare_built (hresolved : resolveTopology config = .ok resolved)
    (hprepare : CudaChannelProcessor.prepare config = .ok p) : Built config resolved p := by
  unfold CudaChannelProcessor.prepare at hprepare
  obtain ⟨resolved', hresolved', hprepare⟩ := bind_eq_ok hprepare
  obtain rfl := Except.ok.inj (hresolved.symm.trans hresolved')
  have hempty : Built config resolved (CudaChannelProcessor.empty : CudaChannelProcessor K) := by
    refine ⟨?_, ?_, ?_, ?_⟩
    · exact fun _ _ hms => absurd hms (Option.some_ne_none _).symm
    · exact fun _ _ hms => absurd hms (Option.some_ne_none _).symm
    · exact fun _ _ hlink => absurd hlink (Option.some_ne_none _).symm
    · exact fun _ _ hsp => absurd hsp (Option.some_ne_none _).symm
  have hlanes : Built config resolved (resolved.lanes.foldl
      (CudaChannelProcessor.prepareLane config resolved) CudaChannelProcessor.empty) :=
    List.foldlRecOn _ _ hempty fun q hq lane hlane => hq.prepareLane hlane
  exact Ensures.foldlM hlanes (fun node _ q hq => hq.prepareNode node) p hprepare

/-- The nodes of a topology share no link. -/
theorem Built.nodesApart (hresolved : resolveTopology config = .ok resolved)
    (hkeys : KeysDistinct config resolved) (h : Built config resolved p) : NodesApart p := by
  intro id id' sp sp' hsp hsp' lane hlane lane' hlane' ms ms' hms hms' hlink
  obtain ⟨hmem, hdst⟩ := (h.edges id sp hsp).1 lane hlane
  obtain ⟨hmem', hdst'⟩ := (h.edges id' sp' hsp').1 lane' hlane'
  obtain ⟨own, hown, model, los, hkey, -, rfl⟩ := h.slots _ ms hms
  obtain ⟨own', hown', model', los', hkey', -, rfl⟩ := h.slots _ ms' hms'
  obtain rfl := lane_of_key hkeys hown hmem hkey
  obtain rfl := lane_of_key hkeys hown' hmem' hkey'
  rw [← hdst, ← hdst']
  exact dstNode_of_link hresolved hkeys hmem hmem' hlink

/-- At the start every clock is zero. -/
theorem Built.edgesTimed (h : Built config resolved p) : EdgesTimed p := by
  intro id sp hsp hdevice k lane ms d hlane hms hd
  rw [(h.edges id sp hsp).2 d (List.mem_of_getElem? hd)]
  obtain ⟨link, hlink⟩ := h.linked _ ms hms
  unfold CudaChannelProcessor.clock
  rw [hlink, Option.map_some, Option.getD_some, (h.clocks _ link hlink).1]

variable [Curand K] {q : CudaChannelProcessor K} {events : List (ServiceEvent K)}
  {outs : List (List (List (Iq K)))}

/-- **One time per link.**  In every run of calls and publications, the clock of a link is the
samples of the calls with a lane of it, it was snapped once in each of them, and the device state of
every edge is at the time of its link. -/
theorem cuda_link_clocks (hresolved : resolveTopology config = .ok resolved)
    (hkeys : KeysDistinct config resolved) (hprepare : CudaChannelProcessor.prepare config = .ok p)
    (hevents : ∀ event ∈ events, event.Made p)
    (hrun : Run.trace CudaChannelProcessor.serviceStep p events = .ok (q, outs)) :
    (∀ k link, q.links k = some link →
      link.slotStartSamples = (events.map (p.samplesOf k)).sum ∧
        link.nextSlot = (events.map (p.snapsOf k)).sum) ∧ EdgesTimed q := by
  have hbuilt := cudaPrepare_built hresolved hprepare
  refine ⟨?_, service_timed hbuilt.linked hevents (hbuilt.nodesApart hresolved hkeys)
    hbuilt.edgesTimed hrun⟩
  intro k link hlink
  have hrel := (service_ticked hbuilt.linked hrun).links k
  rw [hlink] at hrel
  cases hbefore : p.links k with
  | none =>
      rw [hbefore] at hrel
      cases hrel
  | some before =>
      rw [hbefore] at hrel
      obtain ⟨hclock, hslot⟩ := hbuilt.clocks k before hbefore
      cases hrel with
      | some hboth =>
          rw [hboth.1, hboth.2, hclock, hslot, Nat.zero_add, Nat.zero_add]
          exact ⟨rfl, rfl⟩

/-! ## What the host stages with -/

omit [Rng K] [Curand K] in
/-- What `stage_link` gives is decided by the wiring of the slot and its ring. -/
theorem stageLink_wired {a b : LinkModelState K} (h : SameWiring a b) {input : List (Iq K)}
    {rate start : ℕ} {slot : LinkModelState K} {staged : List (Iq K)}
    (hstage : stageLink b input rate start = .ok (slot, staged)) :
    ∃ slot', stageLink { a with delayLine := b.delayLine } input rate start =
      .ok (slot', staged) := by
  unfold stageLink at hstage ⊢
  rw [h.hasTdl, h.tdlFading, h.tdlTaps, h.tdlPolyphase, h.losCoefficient] at hstage
  dsimp only
  by_cases htdl : a.hasTdl = true
  · rw [if_pos htdl] at hstage ⊢
    by_cases hfading : a.tdlFading.enabled = true
    · rw [if_pos hfading] at hstage ⊢
      obtain ⟨grid, hgrid, hstage⟩ := bind_eq_ok hstage
      obtain ⟨shaped, hshaped, hstage⟩ := bind_eq_ok hstage
      obtain ⟨-, rfl⟩ := Prod.mk.inj (Except.ok.inj hstage)
      rw [hgrid, ok_bind, hshaped]
      exact ⟨_, rfl⟩
    · rw [if_neg hfading] at hstage ⊢
      obtain ⟨-, rfl⟩ := Prod.mk.inj (Except.ok.inj hstage)
      exact ⟨_, rfl⟩
  · rw [if_neg htdl] at hstage ⊢
    obtain ⟨-, rfl⟩ := Prod.mk.inj (Except.ok.inj hstage)
    exact ⟨_, rfl⟩

/-- **The slot that the steps of an edge are built from**: it has the values that the snap of its
link gives the slot before the call.  The first edge of a key finds that slot itself, but for the
ring; the others find the phases and noise counters where the edges before them left them. -/
structure StepsFrom (after : PhysicalLinkRuntime K × LinkSnapOutcome) (first : Prop)
    (ms slot : LinkModelState K) : Prop where
  live : slot.live = (snapSlot after ms).live
  noiseSeed : slot.noiseSeed = ms.noiseSeed
  found : first → slot = { snapSlot after ms with delayLine := slot.delayLine }

/-- **How the edges of a call were staged on the host**: each was shaped by the wiring that `prepare`
gave its slot, on some ring of the length that was prepared, and has the steps that `build_steps`
makes of its own chain. -/
structure StagedWired (p q : CudaChannelProcessor K) (call : SuperpositionCall K)
    (shaped : ℕ → List (Iq K)) (steps : ℕ → List (GpuStep K)) : Prop where
  shape : ∀ (k : ℕ) input, call.inputs[k]? = some input → ∃ ms ring,
    p.linkSlots input.linkKey = some ms ∧ ring.length = ms.delayLine.length ∧
      ∃ slot', stageLink { ms with delayLine := ring } input.samples call.sampleRateHz
        (q.clock ms.link) = .ok (slot', shaped k)
  chain : ∀ (k : ℕ) input, call.inputs[k]? = some input → ∃ model ms link slot,
    input.model = some model ∧ q.linkSlots input.linkKey = some ms ∧
      q.links ms.link = some link ∧
      StepsFrom (link.snap call.sampleCount)
        (input.linkKey ∉ (call.inputs.take k).map (·.linkKey)) ms slot ∧
      steps k = (buildSteps slot model (some (shaped k)) call.sampleCount
        call.sampleRateHz).hostSteps.take model.chain.length

omit [LinearOrder K] [FloorRing K] [Libm K] [Rng K] [Curand K] in
/-- What the snap pass left of a link is decided by the wiring of the slot. -/
theorem snapped_congr {a b : LinkModelState K} (h : SameWiring a b) (links : LinkTable K)
    (outcomes : List (String × LinkSnapOutcome)) : snapped links outcomes b = snapped links outcomes a := by
  unfold snapped
  rw [h.link]

omit [Field K] [LinearOrder K] [FloorRing K] [Libm K] [Rng K] [Curand K] in
/-- The values of a slot behind the snap of its link. -/
theorem snapSlot_live (after : PhysicalLinkRuntime K × LinkSnapOutcome) (ms : LinkModelState K) :
    (snapSlot after ms).live = if after.2.valuesChanged then after.1.live else ms.live := by
  unfold snapSlot
  split_ifs <;> rfl

omit [LinearOrder K] [FloorRing K] [Libm K] [Rng K] [Curand K] in
/-- Where the host stages, the slot behind the snap differs in its ring only. -/
theorem stagedSlot_host (after : PhysicalLinkRuntime K × LinkSnapOutcome) (ms : LinkModelState K) :
    stagedSlot false after ms =
      { snapSlot after ms with delayLine := (stagedSlot false after ms).delayLine } := by
  unfold stagedSlot
  split_ifs <;> rfl

section Host

variable {slots : String → Option (LinkModelState K)} {links : LinkTable K}
  {outcomes : List (String × LinkSnapOutcome)} {count rate : ℕ}

/-- **One edge that the host staged**, of the slots before the call and the links behind the
snap pass. -/
def HostEdge (slots : String → Option (LinkModelState K)) (links : LinkTable K)
    (outcomes : List (String × LinkSnapOutcome)) (count rate : ℕ) (input : SuperpositionInput K)
    (first : Prop) (shaped : List (Iq K)) (steps : List (GpuStep K)) : Prop :=
  ∃ model ms ring slot, input.model = some model ∧ slots input.linkKey = some ms ∧
    ring.length = ms.delayLine.length ∧
    (∃ slot', stageLink { ms with delayLine := ring } input.samples rate
      (snapped links outcomes ms).1.slotStartSamples = .ok (slot', shaped)) ∧
    StepsFrom (snapped links outcomes ms) first ms slot ∧
    steps = (buildSteps slot model (some shaped) count rate).hostSteps.take model.chain.length

/-- **Where the edge loop of a node that stages on the host stands.** -/
structure HostStaged (slots : String → Option (LinkModelState K)) (links : LinkTable K)
    (outcomes : List (String × LinkSnapOutcome)) (count rate : ℕ)
    (done : List (SuperpositionInput K × ℕ)) (acc : Staging K) : Prop where
  wiring : SameWiring.All slots acc.slots
  values : ∀ key ms now, slots key = some ms → acc.slots key = some now →
    (snapSlot (snapped links outcomes ms) now).live = (snapSlot (snapped links outcomes ms) ms).live ∧
      now.noiseSeed = ms.noiseSeed ∧ (key ∉ done.map (·.1.linkKey) → now = ms)
  table : acc.table.Filled done.length
  staged : acc.staged.length = done.length
  edges : ∀ (k : ℕ) e, done[k]? = some e →
    HostEdge slots links outcomes count rate e.1 (e.1.linkKey ∉ (done.take k).map (·.1.linkKey))
      (acc.staged.getD k []) (acc.table.edge k)

omit [Rng K] [Curand K] in
/-- The slot of an edge in the loop, from the slot before the call. -/
theorem HostStaged.stepsFrom {done : List (SuperpositionInput K × ℕ)} {acc : Staging K}
    (h : HostStaged slots links outcomes count rate done acc) {key : String}
    {ms now : LinkModelState K} (hms : slots key = some ms) (hnow : acc.slots key = some now)
    (hsame : SameWiring ms now) (ring : List (Iq K)) :
    StepsFrom (snapped links outcomes ms) (key ∉ done.map (·.1.linkKey)) ms
      { stagedSlot false (snapped links outcomes now) now with delayLine := ring } := by
  obtain ⟨hlive, hseed, hfound⟩ := h.values key ms now hms hnow
  rw [snapped_congr hsame, stagedSlot_host]
  refine ⟨hlive, ?_, ?_⟩
  · rw [← hseed]
    unfold snapSlot
    split_ifs <;> rfl
  · intro hfirst
    rw [hfound hfirst]

omit [Rng K] [Curand K] in
/-- **The edge loop of a node that stages on the host.** -/
theorem stageEdges_host {sp : CudaSuperposeState K} {sources : List (List (Iq K))}
    (hhost : sp.useDeviceChannel = false) (slots : String → Option (LinkModelState K))
    (states : List (DeviceLinkState K)) (groups : List (DeviceCorrelationGroup K))
    (edges : List (SuperpositionInput K × ℕ)) :
    Ensures (HostStaged slots links outcomes count rate edges)
      (edges.foldlM (stageEdge sp links outcomes sources count rate)
        ⟨slots, states, groups, StepTable.empty K, [], []⟩) := by
  refine Ensures.foldlM_done (P := HostStaged slots links outcomes count rate)
    ⟨SameWiring.All.refl slots, ?_, StepTable.filled_empty, rfl, ?_⟩ ?_
  · intro key ms now hms hnow
    obtain rfl := Option.some.inj (hms.symm.trans hnow)
    exact ⟨rfl, rfl, fun _ => rfl⟩
  · intro k e he
    cases he
  rintro done ⟨edge, k⟩ - acc hdone acc' hstep
  obtain ⟨model, now, d, slot, staged, groups, hmodel, -, hnow, hstaged, rfl⟩ := stageEdge_eq_ok hstep
  obtain ⟨ms, hms, hsame⟩ := hdone.wiring.to_some hnow
  obtain ⟨-, hstage⟩ := hstaged.onHost hhost
  have hbefore : SameWiring ms (stagedSlot false (snapped links outcomes now) now) :=
    hsame.trans (sameWiring_stagedSlot false _ now)
  obtain ⟨slot', hslot'⟩ := stageLink_wired hbefore hstage
  obtain ⟨ring, -, hslot⟩ := SameWiring.staged _ _ _ _ _ hstage
  have hfrom := hdone.stepsFrom hms hnow hsame ring
  rw [← hslot] at hfrom
  have hlast : SameWiring ms (buildSteps slot model (some staged) count rate) :=
    (hsame.trans hstaged.sameWiring).trans (SameWiring.built slot model _ count rate)
  refine ⟨hdone.wiring.update hms hlast, ?_, ?_, ?_, ?_⟩
  · intro key ms' now' hms' hnow'
    dsimp only at hnow'
    by_cases hkey : key = edge.linkKey
    · subst hkey
      obtain rfl := Option.some.inj (hms.symm.trans hms')
      rw [Function.update_self] at hnow'
      obtain rfl := Option.some.inj hnow'
      refine ⟨?_, hfrom.noiseSeed, fun hnot => ?_⟩
      · have hlive := hfrom.live
        rw [snapSlot_live] at hlive ⊢
        rw [snapSlot_live]
        show (if _ then _ else slot.live) = _
        rw [hlive]
        split_ifs <;> rfl
      · rw [List.map_append] at hnot
        exact absurd (List.mem_append_right _ (List.mem_singleton.mpr rfl)) hnot
    · rw [Function.update_of_ne hkey] at hnow'
      obtain ⟨hlive, hseed, hfound⟩ := hdone.values key ms' now' hms' hnow'
      refine ⟨hlive, hseed, fun hnot => hfound fun hin => hnot ?_⟩
      rw [List.map_append]
      exact List.mem_append_left _ hin
  · rw [List.length_append]
    exact hdone.table.push _
  · dsimp only
    rw [List.length_append, List.length_append, hdone.staged]
    rfl
  · intro j e he
    rcases Nat.lt_or_ge j done.length with hlt | hge
    · -- the edges before stay as they are
      rw [List.getElem?_append_left hlt] at he
      have hold := hdone.edges j e he
      dsimp only
      rwa [List.take_append_of_le_length hlt.le, hdone.table.edge_push_of_lt _ hlt,
        List.getD_append acc.staged _ _ _ (hdone.staged ▸ hlt)]
    · rw [List.getElem?_append_right hge] at he
      rw [List.getElem?_singleton] at he
      split_ifs at he with hj
      obtain rfl := Option.some.inj he
      obtain rfl : j = done.length := by omega
      dsimp only
      rw [List.take_left, hdone.table.edge_push_self,
        List.getD_append_right _ _ _ _ hdone.staged.le, hdone.staged, Nat.sub_self,
        List.getD_cons_zero]
      refine ⟨model, ms, _, slot, hmodel, hms, hbefore.ring, ⟨slot', ?_⟩, hfrom, rfl⟩
      rwa [← snapped_congr hsame]

end Host

/-- **A node that stages on the host keeps the declared taps.**  After any run of calls and
publications, a call for such a node, without a receiver model, shapes every edge with the taps,
filters, rays and LOS coefficient that `prepare` wired: whatever was published, only the ring
differs.  Every row is the sum of its edges, each behind the steps of its own chain. -/
theorem host_staging_keeps_taps (hresolved : resolveTopology config = .ok resolved)
    (hprepare : CudaChannelProcessor.prepare config = .ok p)
    (hrun : Run.trace CudaChannelProcessor.serviceStep p events = .ok (q, outs))
    {call : SuperpositionCall K} (hpos : call.sampleCount ≠ 0) (hsome : call.inputs ≠ [])
    (hrx : call.rxModel = none) {sp : CudaSuperposeState K}
    (hstate : q.superposeStates call.dstKey = some sp) (hhost : sp.useDeviceChannel = false)
    {q' : CudaChannelProcessor K} {rows : List (List (Iq K))}
    (hserve : q.serve call = .ok (q', rows)) :
    ∃ (shaped : ℕ → List (Iq K)) (steps : ℕ → List (GpuStep K)),
      StagedWired p q call shaped steps ∧
      (∀ input ∈ call.inputs, ∀ ms, p.linkSlots input.linkKey = some ms →
        WiredLane config resolved input.linkKey ms) ∧
      rows = (List.range sp.table.rows).map fun r => (List.range call.sampleCount).map fun idx =>
        (List.range' (sp.table.rowBegin.getD r 0)
          (sp.table.rowBegin.getD (r + 1) 0 - sp.table.rowBegin.getD r 0)).foldl
            (fun acc k => acc + applyChain (steps k) idx ((shaped k).getD idx 0)) 0 := by
  have hbuilt := cudaPrepare_built hresolved hprepare
  have hticked := service_ticked hbuilt.linked hrun
  have hlinked := hticked.slotsLinked hbuilt.linked
  rcases cudaServe_eq_ok hserve with ⟨-, hidle⟩ | ⟨sp', acc, rx, hserved⟩
  · rcases hidle with hzero | hnone
    · exact absurd hzero hpos
    · exact absurd hnone hsome
  obtain rfl := Option.some.inj (hstate.symm.trans hserved.state)
  obtain ⟨-, hrows⟩ := hserved.rows hrx
  rw [if_neg (by rw [hhost]; exact Bool.false_ne_true)] at hrows
  have hloop := stageEdges_host hhost _ _ _ _ _ hserved.staged
  obtain ⟨hdone, -⟩ := callSnaps_spec (hserved.inputs_ready hlinked) call.sampleCount
  -- each edge of the call: the loop's account of it, with the snap of its link written out
  have hedge : ∀ (k : ℕ) input, call.inputs[k]? = some input → ∃ model now link ring slot,
      input.model = some model ∧ q.linkSlots input.linkKey = some now ∧
      q.links now.link = some link ∧ ring.length = now.delayLine.length ∧
      (∃ slot', stageLink { now with delayLine := ring } input.samples call.sampleRateHz
        link.slotStartSamples = .ok (slot', acc.staged.getD k [])) ∧
      StepsFrom (link.snap call.sampleCount)
        (input.linkKey ∉ (call.inputs.take k).map (·.linkKey)) now slot ∧
      acc.table.edge k = (buildSteps slot model (some (acc.staged.getD k [])) call.sampleCount
        call.sampleRateHz).hostSteps.take model.chain.length := by
    intro k input hinput
    have hzip : call.inputs.zipIdx[k]? = some (input, k) := by
      rw [List.getElem?_zipIdx, hinput, Option.map_some, Nat.zero_add]
    obtain ⟨model, now, ring, slot, hmodel, hnow, hring, hshaped, hfrom, hsteps⟩ :=
      hloop.edges k _ hzip
    obtain ⟨link, hlink⟩ := hlinked _ now hnow
    have htouched : q.Touches call now.link :=
      ⟨input, List.mem_of_getElem? hinput, by rw [hnow, Option.map_some]⟩
    obtain ⟨hsnapped, houtcome⟩ :=
      hdone.reached _ link ((hserved.mem_snapped hlinked _).mpr htouched) hlink
    have hafter : snapped (callSnaps q call.sampleCount call.inputs).1
        (callSnaps q call.sampleCount call.inputs).2 now = link.snap call.sampleCount := by
      unfold snapped
      rw [hsnapped, houtcome]
      rfl
    have hkeys : (call.inputs.zipIdx.take k).map (·.1.linkKey) =
        (call.inputs.take k).map (·.linkKey) := by
      have hfst : call.inputs.zipIdx.map (·.1.linkKey) = call.inputs.map (·.linkKey) := by
        have hmap := congrArg (List.map (·.linkKey)) (List.zipIdx_map_fst 0 call.inputs)
        rwa [List.map_map] at hmap
      rw [List.map_take, List.map_take, hfst]
    rw [hafter] at hshaped hfrom
    rw [snap_slotStartSamples] at hshaped
    rw [hkeys] at hfrom
    exact ⟨model, now, link, ring, slot, hmodel, hnow, hlink, hring, hshaped, hfrom, hsteps⟩
  refine ⟨fun k => acc.staged.getD k [], acc.table.edge, ⟨?_, ?_⟩, ?_, hrows⟩
  · intro k input hinput
    obtain ⟨model, now, link, ring, slot, -, hnow, hlink, hring, ⟨slot', hslot'⟩, -⟩ :=
      hedge k input hinput
    obtain ⟨ms, hms, hsame⟩ := hticked.wiring.to_some hnow
    have hback : SameWiring ms { now with delayLine := ring } :=
      hsame.trans (SameWiring.of_ring now hring)
    obtain ⟨slot'', hslot''⟩ := stageLink_wired hback hslot'
    refine ⟨ms, ring, hms, hback.ring, slot'', ?_⟩
    have hclock : q.clock ms.link = link.slotStartSamples := by
      unfold CudaChannelProcessor.clock
      rw [← hsame.link, hlink]
      rfl
    rw [hclock]
    exact hslot''
  · intro k input hinput
    obtain ⟨model, now, link, ring, slot, hmodel, hnow, hlink, -, -, hfrom, hsteps⟩ :=
      hedge k input hinput
    exact ⟨model, now, link, slot, hmodel, hnow, hlink, hfrom, hsteps⟩
  · exact fun input _ ms hms => hbuilt.slots _ ms hms

end Start

end CudaRuns

/-! ## A hall with one lane off the device -/

/-- A path loss and no leading tdl. -/
def lossModel : ModelConfig ℚ :=
  { id := "loss"
    chain := [{ type := .pathLoss, params := [("path_loss_db", 0)], fadingFDMaxHz := 0
                fadingGridUs := 1 }] }

/-- Of the two lanes into `b`, one does not lead with a tdl: `b` stages on the host. -/
def mixedHall : TopologyConfig ℚ :=
  { devices := [plainDevice "a", plainDevice "b", plainDevice "c"]
    links := [plainLink "a" "b" "flat", plainLink "c" "b" "loss", plainLink "b" "a" "flat"]
    models := [("flat", oneTapModel "flat" 0), ("loss", lossModel)] }

def hallInput (link : LinkConfig ℚ) (model : ModelConfig ℚ) (x : ℚ) : SuperpositionInput ℚ :=
  { linkKey := linkKey link, model := some model, samples := [⟨x, 0⟩, ⟨x, 0⟩] }

/-- Two samples for `b`. -/
def hallCall (x : ℚ) : SuperpositionCall ℚ :=
  { dstKey := "b"
    inputs := [hallInput (plainLink "a" "b" "flat") (oneTapModel "flat" 0) x,
      hallInput (plainLink "c" "b" "loss") lossModel x]
    rxModel := none, sampleRateHz := 23040000, rowSizes := [2] }

/-- Two samples for `a`. -/
def hallReply : SuperpositionCall ℚ :=
  { dstKey := "a", inputs := [hallInput (plainLink "b" "a" "flat") (oneTapModel "flat" 0) 1]
    rxModel := none, sampleRateHz := 23040000, rowSizes := [2] }

/-- A call for each node, and between them a new gain for tap 0 of a lane into `b`. -/
def hallEvents : List (ServiceEvent ℚ) :=
  [.call (hallCall 1),
   .publish [⟨linkKey (plainLink "a" "b" "flat"), 0, .scalar .tap0GainDb 20⟩],
   .call hallReply, .call (hallCall 2)]

/-- No noise. -/
abbrev quiet : Curand ℚ := ⟨fun _ _ => 0⟩

/-- The hall is prepared and the events go through, `b` staging on the host and `a` not. -/
theorem hall_runs : let _ : Curand ℚ := quiet
    ∃ resolved p q outs, resolveTopology mixedHall = .ok resolved ∧
      KeysDistinct mixedHall resolved ∧ CudaChannelProcessor.prepare mixedHall = .ok p ∧
      (∀ event ∈ hallEvents, event.Made p) ∧
      Run.trace CudaChannelProcessor.serviceStep p hallEvents = .ok (q, outs) ∧
      (hallEvents.map (p.samplesOf (linkKey (plainLink "a" "b" "flat")))).sum = 4 ∧
      (∃ sp, q.superposeStates "b" = some sp ∧ sp.useDeviceChannel = false) ∧
      ∃ q' rows, q.serve (hallCall 3) = .ok (q', rows) := by
  intro _
  have htable : (resolveTopology mixedHall).toOption.any (fun resolved => decide
      ((mixedHall.links.map linkKey).Nodup ∧ (resolved.lanes.map (·.key)).Nodup ∧
        (rowKeys resolved).Nodup ∧ (∀ key ∈ rowKeys resolved, key ∉ mixedHall.links.map linkKey) ∧
        ∀ key ∈ rowKeys resolved, key ∉ resolved.lanes.map (·.key))) = true := by
    decide +kernel
  have hrun : ((CudaChannelProcessor.prepare mixedHall).toOption.any fun p =>
      decide ((∀ call ∈ [hallCall 1, hallReply, hallCall 2],
        (p.superposeStates call.dstKey).any fun sp =>
          decide (call.inputs.map (·.linkKey) = sp.table.edges.map (·.key))) ∧
        (hallEvents.map (p.samplesOf (linkKey (plainLink "a" "b" "flat")))).sum = 4) &&
      (Run.trace CudaChannelProcessor.serviceStep p hallEvents).toOption.any fun r =>
        ((r.1.superposeStates "b").any fun sp => !sp.useDeviceChannel) &&
          (r.1.serve (hallCall 3)).toOption.isSome) = true := by
    decide +kernel
  cases hresolved : resolveTopology mixedHall with
  | error e =>
      rw [hresolved] at htable
      cases htable
  | ok resolved =>
      rw [hresolved] at htable
      obtain ⟨hlinks, hlanes, hrows, hlinksApart, hlanesApart⟩ := of_decide_eq_true htable
      cases hprepare : CudaChannelProcessor.prepare mixedHall with
      | error e =>
          rw [hprepare] at hrun
          cases hrun
      | ok p =>
          rw [hprepare] at hrun
          change (_ && _) = true at hrun
          rw [Bool.and_eq_true] at hrun
          obtain ⟨hmade, hrun⟩ := hrun
          obtain ⟨hmade, hsum⟩ := of_decide_eq_true hmade
          cases htrace : Run.trace CudaChannelProcessor.serviceStep p hallEvents with
          | error e =>
              rw [htrace] at hrun
              cases hrun
          | ok r =>
              rw [htrace] at hrun
              change (_ && _) = true at hrun
              rw [Bool.and_eq_true] at hrun
              obtain ⟨hhost, hserve⟩ := hrun
              obtain ⟨sp, hsp, hhost⟩ := Option.any_eq_true _ _ |>.mp hhost
              -- the calls of the run name the prepared edges
              have hmadeFrom : ∀ call ∈ [hallCall 1, hallReply, hallCall 2], FromEdges p call := by
                intro call hcall sp hsp
                have hall := hmade call hcall
                rw [hsp] at hall
                exact of_decide_eq_true hall
              refine ⟨resolved, p, r.1, r.2, rfl,
                ⟨hlinks, hlanes, hrows, hlinksApart, hlanesApart⟩, rfl, ?_, htrace, hsum,
                ⟨sp, hsp, by simpa using hhost⟩, ?_⟩
              · intro event hevent
                unfold hallEvents at hevent
                simp only [List.mem_cons, List.not_mem_nil, or_false] at hevent
                rcases hevent with rfl | rfl | rfl | rfl
                · exact hmadeFrom _ (by simp)
                · trivial
                · exact hmadeFrom _ (by simp)
                · exact hmadeFrom _ (by simp)
              · cases hlast : r.1.serve (hallCall 3) with
                | error e =>
                    rw [hlast] at hserve
                    cases hserve
                | ok served => exact ⟨served.1, served.2, rfl⟩

/-- Two calls of two samples, with a publication and the call of another node between them. -/
theorem cuda_link_clocks_hall : let _ : Curand ℚ := quiet
    ∃ p q outs, CudaChannelProcessor.prepare mixedHall = .ok p ∧
      Run.trace CudaChannelProcessor.serviceStep p hallEvents = .ok (q, outs) ∧
      (∀ link, q.links (linkKey (plainLink "a" "b" "flat")) = some link →
        link.slotStartSamples = 4) ∧ EdgesTimed q := by
  intro _
  obtain ⟨resolved, p, q, outs, hresolved, hkeys, hprepare, hmade, htrace, hsum, -⟩ := hall_runs
  obtain ⟨hclocks, htimed⟩ := cuda_link_clocks hresolved hkeys hprepare hmade htrace
  exact ⟨p, q, outs, hprepare, htrace, fun link hlink => (hclocks _ link hlink).1.trans hsum, htimed⟩

/-- Node `b` keeps its taps, though tap 0 was published. -/
theorem host_staging_keeps_taps_hall : let _ : Curand ℚ := quiet
    ∃ p q outs shaped steps, CudaChannelProcessor.prepare mixedHall = .ok p ∧
      Run.trace CudaChannelProcessor.serviceStep p hallEvents = .ok (q, outs) ∧
      StagedWired p q (hallCall 3) shaped steps := by
  intro _
  obtain ⟨resolved, p, q, outs, hresolved, -, hprepare, -, htrace, -, ⟨sp, hsp, hhost⟩,
    q', rows, hserve⟩ := hall_runs
  obtain ⟨shaped, steps, hwired, -⟩ := host_staging_keeps_taps hresolved hprepare htrace
    (by decide) (List.cons_ne_nil _ _) rfl hsp hhost hserve
  exact ⟨p, q, outs, shaped, steps, hprepare, htrace, hwired⟩
