/-
# What the lanes of a slot read

The generation pass and the shaping pass of `process_superposition` visit the lanes one by one, and
each visit reads the lane's own state and its physical link.  `generationReads` and `shapingReads`
list these reads.  On a processor whose lanes are prepared, every read of both passes shows the link
as its one snap left it and the lane as the sweep of that snap left it, whichever lane came first.
-/
import GpuChannel.PreparedLanes

section SlotReads

variable {K : Type} [Field K] [LinearOrder K] [FloorRing K] [Libm K] [Rng K]

/-- **What one visit of a lane reads.** -/
structure LaneRead (K : Type) where
  key : String
  model : ModelConfig K
  state : LinkState K
  link : PhysicalLinkRuntime K

namespace CpuChannelProcessor

/-! ## The reads of the two passes -/

/-- What `generate_lane` reads: the lane and its link behind the snap, if this lane makes it. -/
def generateRead (inputs : List (SuperpositionInput K)) (count : ℕ)
    (acc : CpuChannelProcessor K × List String) (lane : SuperpositionInput K) :
    Option (LaneRead K) :=
  match lane.model with
  | none => none
  | some model =>
      let p := acc.1.ensureLinkState lane.linkKey model count { physicalLinkKey := lane.linkKey }
      match p.states lane.linkKey with
      | none => none
      | some st =>
          let p := if st.link ∉ acc.2 then p.snapLink inputs st.link count else p
          let st := (p.states lane.linkKey).getD st
          (p.links st.link).map fun link => ⟨lane.linkKey, model, st, link⟩

def generateReads (inputs : List (SuperpositionInput K)) (count sampleRateHz : ℕ) :
    CpuChannelProcessor K × List String → List (SuperpositionInput K) → List (LaneRead K)
  | _, [] => []
  | acc, lane :: lanes =>
      (generateRead inputs count acc lane).toList ++
        match generateLane inputs count sampleRateHz acc lane with
        | .error _ => []
        | .ok acc => generateReads inputs count sampleRateHz acc lanes

/-- What `apply_chain_to_link` reads. -/
def shapeRead (p : CpuChannelProcessor K) (lane : SuperpositionInput K) : Option (LaneRead K) :=
  match lane.model with
  | none => none
  | some model =>
      let p := p.ensureLinkState lane.linkKey model lane.samples.length
        { physicalLinkKey := lane.linkKey }
      (p.states lane.linkKey).map fun st =>
        ⟨lane.linkKey, model, st, (p.links st.link).getD PhysicalLinkRuntime.default⟩

def shapeReads (count sampleRateHz : ℕ) : Slot K → List (SuperpositionInput K) → List (LaneRead K)
  | _, [] => []
  | slot, lane :: lanes =>
      (shapeRead slot.proc lane).toList ++
        match shapeLane count sampleRateHz slot lane with
        | .error _ => []
        | .ok slot => shapeReads count sampleRateHz slot lanes

/-- The chain runs on what was read. -/
theorem applyChainToLink_read (p : CpuChannelProcessor K) {lane : SuperpositionInput K}
    {model : ModelConfig K} (hmodel : lane.model = some model) (hsome : lane.samples ≠ [])
    {read : LaneRead K} (hread : p.shapeRead lane = some read) (rate : ℕ) :
    p.applyChainToLink lane.linkKey model lane.samples rate =
      (runChain (laneContext read.state read.link rate) 0 read.model.chain read.state.steps
        lane.samples >>= fun run =>
          let q := p.ensureLinkState lane.linkKey model lane.samples.length
            { physicalLinkKey := lane.linkKey }
          pure
            ({ q with
                states := Function.update q.states lane.linkKey
                  (some { read.state with steps := run.states })
                executed := q.executed ++ [⟨lane.linkKey, read.model, run.uses⟩] },
              run.out, some read.state.link)) := by
  unfold shapeRead at hread
  rw [hmodel] at hread
  dsimp only at hread
  obtain ⟨st, hst, rfl⟩ := Option.map_eq_some_iff.mp hread
  unfold applyChainToLink
  rw [if_neg (by simpa using hsome)]
  dsimp only
  rw [hst]
  rfl

end CpuChannelProcessor

/-! ## The snap of a slot -/

/-- The snap that a slot makes of a link, behind `begin_slot`. -/
def PhysicalLinkRuntime.slotSnap (link : PhysicalLinkRuntime K) (count : ℕ) :
    PhysicalLinkRuntime K × LinkSnapOutcome :=
  ({ link with fading := link.fading.beginSlot } : PhysicalLinkRuntime K).snap count

section Refresh

open CpuChannelProcessor

/-- The profile that a swap gives the lane. -/
def PhysicalLinkRuntime.laneProfile (link : PhysicalLinkRuntime K) (laneIndex : ℕ) :
    Option (ProfileShadow K) :=
  if link.liveMatrixProfileActive then link.liveMatrixProfile.lane? laneIndex
  else if link.liveProfileActive then some link.liveProfile
  else none

/-- A ring that fits a profile. -/
def resizeRing (profile : ProfileShadow K) (step : StepState K) : StepState K :=
  let tdl := prepareTdlState profile.tapList step.delayLine
  { step with tdlPolyphase := tdl.1, delayLine := tdl.2 }

/-- The steps behind a history reset: the first ring may grow, and every ring is cleared. -/
def resetSteps (profile : Option (ProfileShadow K)) (steps : List (StepState K)) :
    List (StepState K) :=
  let resized := match profile with
    | none => steps
    | some profile => steps.modifyHead (resizeRing profile)
  resized.map fun step => { step with delayLine := step.delayLine.map fun _ => 0 }

omit [Rng K] in
/-- The reset keeps the number of steps. -/
@[simp] theorem resetSteps_length (profile : Option (ProfileShadow K))
    (steps : List (StepState K)) : (resetSteps profile steps).length = steps.length := by
  unfold resetSteps
  rw [List.length_map]
  cases profile with
  | none => rfl
  | some profile => exact List.length_modifyHead

variable (link : PhysicalLinkRuntime K) (outcome : LinkSnapOutcome) (st : LinkState K)

omit [Rng K] in
/-- The sweep, field by field. -/
theorem refreshLane_eq : refreshLane link outcome st =
    { st with
      live := if outcome.valuesChanged then link.live else st.live
      steps :=
        if outcome.historyResetRequired then resetSteps (link.laneProfile st.laneIndex) st.steps
        else st.steps } := by
  unfold refreshLane
  by_cases hvalues : outcome.valuesChanged = true
  · rw [if_pos hvalues, if_pos hvalues]
    by_cases hreset : outcome.historyResetRequired = true
    · rw [if_pos hreset, if_pos hreset]
      rfl
    · rw [if_neg hreset, if_neg hreset]
  · rw [if_neg hvalues, if_neg hvalues]
    by_cases hreset : outcome.historyResetRequired = true
    · rw [if_pos hreset, if_pos hreset]
      rfl
    · rw [if_neg hreset, if_neg hreset]

omit [Rng K] in
/-- The refresh leaves a lane at its link. -/
@[simp] theorem refreshLane_link : (refreshLane link outcome st).link = st.link := by
  rw [refreshLane_eq]

omit [Rng K] in
/-- The refresh keeps the lane's place in the matrix. -/
@[simp] theorem refreshLane_laneIndex :
    (refreshLane link outcome st).laneIndex = st.laneIndex := by
  rw [refreshLane_eq]

omit [Rng K] in
/-- The refresh keeps the size of the lane's matrix. -/
@[simp] theorem refreshLane_laneCount :
    (refreshLane link outcome st).laneCount = st.laneCount := by
  rw [refreshLane_eq]

omit [Rng K] in
/-- The refresh keeps the number of steps. -/
@[simp] theorem refreshLane_steps_length :
    (refreshLane link outcome st).steps.length = st.steps.length := by
  rw [refreshLane_eq]
  dsimp only
  split_ifs
  · exact resetSteps_length _ _
  · rfl

omit [Rng K] in
/-- A snap that changed nothing sweeps nothing. -/
theorem refreshLane_of_unchanged : refreshLane link {} st = st := rfl

end Refresh

/-! ## The sweep over the siblings -/

section Sweep

variable (f : LinkState K → LinkState K) (k : String)

omit [Field K] [LinearOrder K] [FloorRing K] [Libm K] [Rng K] in
/-- The sweep writes the sibling's own state, if it is of the link. -/
theorem sweepSibling_self (states : String → Option (LinkState K)) (sibling : SuperpositionInput K) :
    sweepSibling f k states sibling sibling.linkKey =
      (states sibling.linkKey).map fun st => if st.link = k then f st else st := by
  unfold sweepSibling
  cases hst : states sibling.linkKey with
  | none =>
      dsimp only
      rw [hst]
      rfl
  | some st =>
      dsimp only
      split_ifs with hk
      · rw [Function.update_self, Option.map_some, if_pos hk]
      · rw [hst, Option.map_some, if_neg hk]

omit [Field K] [LinearOrder K] [FloorRing K] [Libm K] [Rng K] in
/-- The sweep of one sibling leaves every other lane alone. -/
theorem sweepSibling_of_ne (states : String → Option (LinkState K)) (sibling : SuperpositionInput K)
    {key : String} (hne : key ≠ sibling.linkKey) :
    sweepSibling f k states sibling key = states key := by
  unfold sweepSibling
  cases states sibling.linkKey with
  | none => rfl
  | some st =>
      dsimp only
      split_ifs
      · exact Function.update_of_ne hne ..
      · rfl

omit [Field K] [LinearOrder K] [FloorRing K] [Libm K] [Rng K] in
/-- The sweep reaches every sibling once. -/
theorem foldl_sweepSibling {inputs : List (SuperpositionInput K)}
    (hnodup : (inputs.map (·.linkKey)).Nodup) (states : String → Option (LinkState K))
    (key : String) :
    inputs.foldl (sweepSibling f k) states key =
      if key ∈ inputs.map (·.linkKey) then
        (states key).map fun st => if st.link = k then f st else st
      else states key := by
  induction inputs generalizing states with
  | nil => rfl
  | cons sibling inputs ih =>
      rw [List.map_cons, List.nodup_cons] at hnodup
      rw [List.foldl_cons, ih hnodup.2, List.map_cons]
      by_cases hkey : key = sibling.linkKey
      · subst hkey
        rw [if_neg hnodup.1, if_pos List.mem_cons_self, sweepSibling_self]
      · rw [sweepSibling_of_ne f k states sibling hkey]
        simp only [List.mem_cons, hkey, false_or]

end Sweep

section SnapLink

open CpuChannelProcessor

variable {p : CpuChannelProcessor K} {inputs : List (SuperpositionInput K)} {k : String}
  {link : PhysicalLinkRuntime K}

omit [Rng K] in
/-- **The once-per-link part**: the link is snapped, and every lane of the call that stands in it is
swept. -/
theorem snapLink_eq (hnodup : (inputs.map (·.linkKey)).Nodup) (hlink : p.links k = some link)
    (count : ℕ) : p.snapLink inputs k count =
      { p with
        links := Function.update p.links k (some (link.slotSnap count).1)
        states := fun key =>
          if key ∈ inputs.map (·.linkKey) then
            (p.states key).map fun st =>
              if st.link = k then refreshLane (link.slotSnap count).1 (link.slotSnap count).2 st
              else st
          else p.states key } := by
  have hsweep : inputs.foldl (sweepSibling
      (refreshLane (link.slotSnap count).1 (link.slotSnap count).2) k) p.states = fun key =>
        if key ∈ inputs.map (·.linkKey) then
          (p.states key).map fun st =>
            if st.link = k then refreshLane (link.slotSnap count).1 (link.slotSnap count).2 st
            else st
        else p.states key := by
    funext key
    exact foldl_sweepSibling _ k hnodup p.states key
  unfold snapLink
  rw [hlink]
  change (if (link.slotSnap count).2.valuesChanged ∨ (link.slotSnap count).2.profileActivated ∨
      (link.slotSnap count).2.matrixProfileActivated then
        ({ p with
          links := Function.update p.links k (some (link.slotSnap count).1)
          states := inputs.foldl (sweepSibling
            (refreshLane (link.slotSnap count).1 (link.slotSnap count).2) k) p.states } :
          CpuChannelProcessor K)
      else { p with links := Function.update p.links k (some (link.slotSnap count).1) }) = _
  rw [hsweep]
  split_ifs with hchanged
  · rfl
  · -- nothing changed, and the sweep is the identity
    have hvalues : (link.slotSnap count).2.valuesChanged = false := by
      simpa using fun h => hchanged (Or.inl h)
    have hout : (link.slotSnap count).2 = {} :=
      PhysicalLinkRuntime.snap_outcome_of_unchanged _ _ hvalues
    rw [hout]
    congr 1
    funext key
    simp only [refreshLane_of_unchanged, ite_self, Option.map_id']

end SnapLink

/-! ## The generation pass -/

section Generation

open CpuChannelProcessor

/-- The lanes of a call are prepared, each once. -/
structure LanesReady (p : CpuChannelProcessor K) (inputs : List (SuperpositionInput K)) : Prop where
  nodup : (inputs.map (·.linkKey)).Nodup
  ready : ∀ input ∈ inputs, ∃ model st link, input.model = some model ∧
    p.states input.linkKey = some st ∧ st.steps.length = model.chain.length ∧
    p.links st.link = some link

variable (p₀ : CpuChannelProcessor K) (inputs : List (SuperpositionInput K)) (count : ℕ)

/-- **A read behind the snap**: the lane as the sweep of its link's one snap left it, and the link
as the snap left it, with the grids of this slot. -/
def SnappedRead (r : LaneRead K) : Prop :=
  ∃ input ∈ inputs, input.linkKey = r.key ∧ input.model = some r.model ∧
    ∃ st link fading, p₀.states r.key = some st ∧ p₀.links st.link = some link ∧
      r.state = refreshLane (link.slotSnap count).1 (link.slotSnap count).2 st ∧
      r.link = { (link.slotSnap count).1 with fading := fading }

/-- A lane once the links `touched` are snapped. -/
def sweptState (touched : List String) (st : LinkState K) : LinkState K :=
  match p₀.links st.link with
  | some link =>
      if st.link ∈ touched then refreshLane (link.slotSnap count).1 (link.slotSnap count).2 st
      else st
  | none => st

/-- **Where the generation pass stands**: the links touched so far are snapped, once, and the lanes
of the call that stand in them are swept. -/
structure Generated (acc : CpuChannelProcessor K × List String) : Prop where
  nodup : acc.2.Nodup
  untouched : ∀ k ∉ acc.2, acc.1.links k = p₀.links k
  touched : ∀ k ∈ acc.2, ∃ link fading, p₀.links k = some link ∧
    acc.1.links k = some { (link.slotSnap count).1 with fading := fading }
  lanes : ∀ key ∈ inputs.map (·.linkKey),
    acc.1.states key = (p₀.states key).map (sweptState p₀ count acc.2)
  others : ∀ key ∉ inputs.map (·.linkKey), acc.1.states key = p₀.states key
  executed : acc.1.executed = p₀.executed
  rows : acc.1.rxModelKeys = p₀.rxModelKeys

variable {p₀ inputs count}

omit [Rng K] in
/-- A swept lane is still at its link. -/
@[simp] theorem sweptState_link (touched : List String) (st : LinkState K) :
    (sweptState p₀ count touched st).link = st.link := by
  unfold sweptState
  split
  · split_ifs
    · exact refreshLane_link ..
    · rfl
  · rfl

omit [Rng K] in
/-- A swept lane has as many steps. -/
@[simp] theorem sweptState_steps_length (touched : List String) (st : LinkState K) :
    (sweptState p₀ count touched st).steps.length = st.steps.length := by
  unfold sweptState
  split
  · split_ifs
    · exact refreshLane_steps_length ..
    · rfl
  · rfl

omit [Rng K] in
/-- A lane of a link that was touched has been refreshed on the slot's snap. -/
theorem sweptState_of_mem {touched : List String} {st : LinkState K} {link : PhysicalLinkRuntime K}
    (hlink : p₀.links st.link = some link) (hmem : st.link ∈ touched) :
    sweptState p₀ count touched st =
      refreshLane (link.slotSnap count).1 (link.slotSnap count).2 st := by
  unfold sweptState
  rw [hlink]
  exact if_pos hmem

omit [Rng K] in
/-- A lane of a link that was not touched is as it was. -/
theorem sweptState_of_not_mem {touched : List String} {st : LinkState K}
    (hmem : st.link ∉ touched) : sweptState p₀ count touched st = st := by
  unfold sweptState
  split
  · exact if_neg hmem
  · rfl

omit [Rng K] in
/-- Before the first lane nothing was generated. -/
theorem Generated.start : Generated p₀ inputs count (p₀, []) where
  nodup := List.nodup_nil
  untouched _ _ := rfl
  touched _ hk := absurd hk List.not_mem_nil
  lanes key _ := by
    have hid : sweptState p₀ count [] = id := by
      funext st
      exact sweptState_of_not_mem List.not_mem_nil
    rw [hid, Option.map_id]
    rfl
  others _ _ := rfl
  executed := rfl
  rows := rfl

variable {q : CpuChannelProcessor K} {touched : List String} {k : String}
  {link : PhysicalLinkRuntime K}

omit [Rng K] in
/-- Snapping a link that was not touched yet. -/
theorem Generated.snap (h : Generated p₀ inputs count (q, touched))
    (hnodup : (inputs.map (·.linkKey)).Nodup) (hk : k ∉ touched) (hlink : p₀.links k = some link) :
    Generated p₀ inputs count (q.snapLink inputs k count, touched ++ [k]) := by
  rw [snapLink_eq hnodup ((h.untouched k hk).trans hlink)]
  refine ⟨?_, ?_, ?_, ?_, ?_, h.executed, h.rows⟩
  · rw [List.nodup_append]
    refine ⟨h.nodup, List.nodup_singleton k, ?_⟩
    rintro a ha b hb rfl
    exact hk (List.mem_singleton.mp hb ▸ ha)
  · intro k' hk'
    rw [List.mem_append, List.mem_singleton, not_or] at hk'
    dsimp only
    rw [Function.update_of_ne hk'.2]
    exact h.untouched k' hk'.1
  · intro k' hk'
    dsimp only
    by_cases heq : k' = k
    · subst heq
      rw [Function.update_self]
      exact ⟨link, _, hlink, rfl⟩
    · rw [Function.update_of_ne heq]
      exact h.touched k' ((List.mem_append.mp hk').resolve_right (mt List.mem_singleton.mp heq))
  -- the snap of a link reaches all its lanes
  · intro key hkey
    dsimp only
    rw [if_pos hkey, h.lanes key hkey, Option.map_map]
    congr 1
    funext st
    rw [Function.comp_apply, sweptState_link]
    by_cases heq : st.link = k
    · subst heq
      rw [if_pos rfl, sweptState_of_not_mem hk,
        sweptState_of_mem hlink (List.mem_append_right _ List.mem_cons_self)]
    · rw [if_neg heq]
      unfold sweptState
      simp only [List.mem_append, List.mem_singleton, heq, or_false]
  · intro key hkey
    dsimp only
    rw [if_neg hkey]
    exact h.others key hkey

omit [Rng K] in
/-- The grids of a touched link may change. -/
theorem Generated.setFading (h : Generated p₀ inputs count (q, touched)) (hk : k ∈ touched)
    (hlink : q.links k = some link) (fading : PhysicalLinkFading K) :
    Generated p₀ inputs count
      ({ q with links := Function.update q.links k (some { link with fading := fading }) },
        touched) := by
  refine ⟨h.nodup, ?_, ?_, h.lanes, h.others, h.executed, h.rows⟩
  · intro k' hk'
    have hne : k' ≠ k := by
      rintro rfl
      exact hk' hk
    dsimp only
    rw [Function.update_of_ne hne]
    exact h.untouched k' hk'
  · intro k' hk'
    dsimp only
    by_cases heq : k' = k
    · subst heq
      obtain ⟨link₀, fading₀, hlink₀, hq⟩ := h.touched k' hk
      obtain rfl := Option.some.inj (hlink.symm.trans hq)
      rw [Function.update_self]
      exact ⟨link₀, fading, hlink₀, rfl⟩
    · rw [Function.update_of_ne heq]
      exact h.touched k' hk'

omit [Rng K] in
/-- The refresh of a lane's grids generates nothing anew. -/
theorem Generated.refreshLaneGrids (h : Generated p₀ inputs count (q, touched)) {st : LinkState K}
    (hk : st.link ∈ touched) (model : ModelConfig K) (rate : ℕ) :
    Ensures (fun q' => Generated p₀ inputs count (q', touched))
      (q.refreshLaneGrids st model count rate) := by
  unfold CpuChannelProcessor.refreshLaneGrids
  cases hlink : q.links st.link with
  | none => exact Ensures.pure h
  | some link => exact Ensures.bind (fun _ _ => trivial) fun grids _ =>
      Ensures.pure (h.setFading hk hlink _)

omit [Rng K] in
/-- Mixing a link that was touched generates nothing anew. -/
theorem Generated.mixLink (h : Generated p₀ inputs count (q, touched)) (hk : k ∈ touched) :
    Ensures (fun q' => Generated p₀ inputs count (q', touched)) (q.mixLink k) := by
  unfold CpuChannelProcessor.mixLink
  cases hlink : q.links k with
  | none => exact Ensures.pure h
  | some link => exact Ensures.bind (fun _ _ => trivial) fun fading _ =>
      Ensures.pure (h.setFading hk hlink _)

omit [Rng K] in
/-- The mixing pass generates nothing anew. -/
theorem Generated.mix (h : Generated p₀ inputs count (q, touched)) :
    Ensures (fun q' => Generated p₀ inputs count (q', touched)) (touched.foldlM
      CpuChannelProcessor.mixLink q) :=
  Ensures.foldlM (P := fun q' => Generated p₀ inputs count (q', touched)) h
    fun _ hk _ hq => hq.mixLink hk

omit [Rng K] in
/-- A prepared lane of the call, as the pass finds it. -/
theorem Generated.lane (h : Generated p₀ inputs count (q, touched))
    {lane : SuperpositionInput K} (hlane : lane ∈ inputs) {st : LinkState K}
    (hst : p₀.states lane.linkKey = some st) :
    q.states lane.linkKey = some (sweptState p₀ count touched st) := by
  rw [h.lanes _ (List.mem_map_of_mem hlane), hst]
  rfl

omit [Rng K] in
/-- The link of a lane whose link is touched. -/
theorem Generated.touchedLink (h : Generated p₀ inputs count (q, touched)) {st : LinkState K}
    (hmem : st.link ∈ touched) (hlink : p₀.links st.link = some link) :
    ∃ fading, q.links st.link = some { (link.slotSnap count).1 with fading := fading } := by
  obtain ⟨link₀, fading, hlink₀, hq⟩ := h.touched _ hmem
  obtain rfl := Option.some.inj (hlink₀.symm.trans hlink)
  exact ⟨fading, hq⟩

/-- **One lane of the generation pass.** -/
theorem Generated.generateLane (hready : LanesReady p₀ inputs)
    (h : Generated p₀ inputs count (q, touched)) {lane : SuperpositionInput K}
    (hlane : lane ∈ inputs) (rate : ℕ) :
    (∀ r ∈ generateRead inputs count (q, touched) lane, SnappedRead p₀ inputs count r) ∧
      Ensures (fun acc => Generated p₀ inputs count acc ∧ touched ⊆ acc.2 ∧
        ∀ st, p₀.states lane.linkKey = some st → st.link ∈ acc.2)
        (CpuChannelProcessor.generateLane inputs count rate (q, touched) lane) := by
  obtain ⟨model, st, link, hmodel, hst, hlen, hlink⟩ := hready.ready lane hlane
  have hq := h.lane hlane hst
  have hens : q.ensureLinkState lane.linkKey model count { physicalLinkKey := lane.linkKey } = q :=
    ensureLinkState_of_length hq ((sweptState_steps_length touched st).trans hlen) count _
  unfold generateRead CpuChannelProcessor.generateLane
  rw [hmodel]
  dsimp only
  rw [hens, hq]
  dsimp only
  rw [sweptState_link]
  -- behind the first visit of its link, the lane finds the link snapped and itself swept
  obtain ⟨q', touched', hq', htouched', hsub, hmem, hgen⟩ : ∃ q' touched',
      (if st.link ∉ touched then q.snapLink inputs st.link count else q) = q' ∧
        (if st.link ∉ touched then touched ++ [st.link] else touched) = touched' ∧
        touched ⊆ touched' ∧ st.link ∈ touched' ∧ Generated p₀ inputs count (q', touched') := by
    by_cases hfresh : st.link ∈ touched
    · exact ⟨q, touched, if_neg (not_not.mpr hfresh), if_neg (not_not.mpr hfresh),
        List.Subset.refl _, hfresh, h⟩
    · exact ⟨_, _, if_pos hfresh, if_pos hfresh, List.subset_append_left .., by simp,
        h.snap hready.nodup hfresh hlink⟩
  rw [hq', htouched', hgen.lane hlane hst, Option.getD_some, sweptState_of_mem hlink hmem,
    refreshLane_link]
  obtain ⟨fading, hlink'⟩ := hgen.touchedLink hmem hlink
  constructor
  · intro r hr
    rw [hlink', Option.map_some, Option.mem_some_iff] at hr
    subst hr
    exact ⟨lane, hlane, rfl, hmodel, st, link, fading, hst, hlink, rfl, rfl⟩
  · have hswept : (refreshLane (link.slotSnap count).1 (link.slotSnap count).2 st).link ∈
        touched' := by
      rw [refreshLane_link]
      exact hmem
    have hgrids := hgen.refreshLaneGrids hswept model rate
    refine hgrids.bind fun q'' hq'' => Ensures.pure ⟨hq'', hsub, ?_⟩
    rintro st' hst'
    obtain rfl := Option.some.inj (hst.symm.trans hst')
    exact hmem

/-- **The generation pass**, from any point on. -/
theorem Generated.generate (hready : LanesReady p₀ inputs) {lanes : List (SuperpositionInput K)}
    (hlanes : lanes ⊆ inputs) (h : Generated p₀ inputs count (q, touched)) (rate : ℕ) :
    (∀ r ∈ generateReads inputs count rate (q, touched) lanes, SnappedRead p₀ inputs count r) ∧
      Ensures (fun acc => Generated p₀ inputs count acc ∧ touched ⊆ acc.2 ∧
        ∀ lane ∈ lanes, ∀ st, p₀.states lane.linkKey = some st → st.link ∈ acc.2)
        (lanes.foldlM (CpuChannelProcessor.generateLane inputs count rate) (q, touched)) := by
  induction lanes generalizing q touched with
  | nil =>
      exact ⟨fun r hr => absurd hr List.not_mem_nil,
        Ensures.pure ⟨h, List.Subset.refl _, fun _ hlane => absurd hlane List.not_mem_nil⟩⟩
  | cons lane lanes ih =>
      rw [List.cons_subset] at hlanes
      obtain ⟨hread, hstep⟩ := h.generateLane hready hlanes.1 rate
      constructor
      · intro r hr
        unfold generateReads at hr
        rcases List.mem_append.mp hr with hr | hr
        · exact hread r (Option.mem_toList.mp hr)
        · split at hr
          · exact absurd hr List.not_mem_nil
          · rename_i acc hacc
            exact (ih hlanes.2 (hstep acc hacc).1).1 r hr
      · rw [List.foldlM_cons]
        refine hstep.bind ?_
        rintro ⟨q', touched'⟩ ⟨hgen, hsub, hmem⟩
        refine (ih hlanes.2 hgen).2.mono ?_
        rintro acc ⟨hgen', hsub', hmem'⟩
        refine ⟨hgen', List.Subset.trans hsub hsub', ?_⟩
        intro lane' hlane' st hst
        rcases List.mem_cons.mp hlane' with rfl | hlane'
        · exact hsub' (hmem st hst)
        · exact hmem' lane' hlane' st hst

end Generation

/-! ## The shaping pass -/

section Rings

/-- The steps have the same rings, up to their samples. -/
def SameRings (steps steps' : List (StepState K)) : Prop :=
  steps.map (·.delayLine.length) = steps'.map (·.delayLine.length)

omit [Field K] [LinearOrder K] [FloorRing K] [Libm K] [Rng K] in
/-- Equal rings have the same number of steps. -/
theorem SameRings.length {steps steps' : List (StepState K)} (h : SameRings steps steps') :
    steps.length = steps'.length := by
  have hlen := congrArg List.length h
  rwa [List.length_map, List.length_map] at hlen

/-- A step of a chain keeps the length of its ring. -/
theorem runStep_ring (ctx : ChainContext K) (i : ℕ) (step : ModelStep K) (use : StepUse K)
    (st : StepState K) (current : List (Iq K)) :
    Ensures (fun r => r.2.delayLine.length = st.delayLine.length)
      (runStep ctx i step use st current) := by
  cases use with
  | pathLoss db => exact Ensures.pure rfl
  | gain db => exact Ensures.pure rfl
  | noisePower power => exact Ensures.pure rfl
  | noiseSnr db => exact Ensures.pure rfl
  | rotation phaseRad cfoHz => exact Ensures.pure rfl
  | tdl taps polyphase =>
      have hshaped : Ensures (fun r : List (Iq K) × List (Iq K) =>
          r.2.length = st.delayLine.length) (shapeTdl ctx i step taps polyphase st current) := by
        unfold shapeTdl applyTdlStepFading applyTdlStep
        split_ifs
        · exact Ensures.pure (length_rollDelayLine _ _)
        · exact Ensures.throw
        · exact Ensures.pure (length_rollDelayLine _ _)
        · exact Ensures.pure (length_rollDelayLine _ _)
      exact hshaped.bind fun shaped h => Ensures.pure h

/-- A chain rolls its rings and never resizes them. -/
theorem runChain_rings (ctx : ChainContext K) (i : ℕ) (chain : List (ModelStep K))
    (states : List (StepState K)) (current : List (Iq K)) :
    Ensures (fun run => SameRings run.states states) (runChain ctx i chain states current) := by
  induction chain generalizing i states current with
  | nil =>
      unfold runChain
      exact Ensures.pure rfl
  | cons step chain ih =>
      cases states with
      | nil =>
          unfold runChain
          exact Ensures.pure rfl
      | cons st states =>
          unfold runChain
          refine Ensures.bind (fun _ _ => trivial) fun use _ => ?_
          refine (runStep_ring ctx i step use st current).bind ?_
          rintro ⟨next, st'⟩ hring
          refine (ih (i + 1) states next).bind fun rest hrest => Ensures.pure ?_
          exact congrArg₂ List.cons hring hrest

end Rings

section Shaping

open CpuChannelProcessor

variable (p₀ : CpuChannelProcessor K) (inputs : List (SuperpositionInput K)) (count : ℕ)

/-- The links of the lanes of a call. -/
def laneLinks : Set String :=
  {k | ∃ input ∈ inputs, ∃ st, p₀.states input.linkKey = some st ∧ st.link = k}

/-- **Where the shaping pass stands**: the links are as the mixing left them, and a lane that ran
has the same rings. -/
structure ShapedTo (links : LinkTable K) (todo : List (SuperpositionInput K))
    (slot : CpuChannelProcessor.Slot K) : Prop where
  links : slot.proc.links = links
  waiting : ∀ lane ∈ todo, ∀ st link, p₀.states lane.linkKey = some st →
    p₀.links st.link = some link → slot.proc.states lane.linkKey =
      some (refreshLane (link.slotSnap count).1 (link.slotSnap count).2 st)
  lanes : ∀ lane ∈ inputs, ∀ st link, p₀.states lane.linkKey = some st →
    p₀.links st.link = some link → ∃ steps, slot.proc.states lane.linkKey =
      some { refreshLane (link.slotSnap count).1 (link.slotSnap count).2 st with steps := steps } ∧
      SameRings steps (refreshLane (link.slotSnap count).1 (link.slotSnap count).2 st).steps
  others : ∀ key ∉ inputs.map (·.linkKey), slot.proc.states key = p₀.states key
  nodup : slot.touched.Nodup
  inside : ∀ k ∈ slot.touched, k ∈ laneLinks p₀ inputs

/-- The links of the lanes, snapped. -/
def LinksSnapped (links : LinkTable K) : Prop :=
  ∀ k ∈ laneLinks p₀ inputs, ∀ link, p₀.links k = some link →
    ∃ fading, links k = some { (link.slotSnap count).1 with fading := fading }

variable {p₀ inputs count}

/-- Touching a link twice lists it once. -/
theorem nodup_touch {touched : List String} (h : touched.Nodup) (link : Option String) :
    (touch touched link).Nodup := by
  unfold touch
  cases link with
  | none => exact h
  | some k =>
      dsimp only
      split_ifs with hk
      · exact h
      · rw [List.nodup_append]
        refine ⟨h, List.nodup_singleton k, ?_⟩
        rintro a ha b hb rfl
        exact hk (List.mem_singleton.mp hb ▸ ha)

/-- A link that was touched stays touched. -/
theorem subset_touch (touched : List String) (link : Option String) :
    touched ⊆ touch touched link := by
  unfold touch
  cases link with
  | none => exact List.Subset.refl _
  | some k =>
      dsimp only
      split_ifs
      · exact List.Subset.refl _
      · exact List.subset_append_left ..

/-- The link that is touched is listed. -/
theorem mem_touch_self (touched : List String) (k : String) : k ∈ touch touched (some k) := by
  unfold touch
  dsimp only
  split_ifs with hk
  · exact hk
  · exact List.mem_append_right _ List.mem_cons_self

omit [Rng K] in
/-- Behind the generation and the mixing, every lane waits for its chain. -/
theorem Generated.shaped {q : CpuChannelProcessor K} {touched : List String}
    (h : Generated p₀ inputs count (q, touched))
    (hall : ∀ lane ∈ inputs, ∀ st, p₀.states lane.linkKey = some st → st.link ∈ touched)
    (rows : List (List (Iq K))) :
    ShapedTo p₀ inputs count q.links inputs ⟨q, [], rows⟩ ∧
      LinksSnapped p₀ inputs count q.links := by
  have hwaiting : ∀ lane ∈ inputs, ∀ st link, p₀.states lane.linkKey = some st →
      p₀.links st.link = some link → q.states lane.linkKey =
        some (refreshLane (link.slotSnap count).1 (link.slotSnap count).2 st) := by
    intro lane hlane st link hst hlink
    rw [h.lane hlane hst, sweptState_of_mem hlink (hall lane hlane st hst)]
  refine ⟨⟨rfl, hwaiting, ?_, h.others, List.nodup_nil, fun _ hk => absurd hk List.not_mem_nil⟩, ?_⟩
  · intro lane hlane st link hst hlink
    exact ⟨_, hwaiting lane hlane st link hst hlink, rfl⟩
  · rintro k ⟨lane, hlane, st, hst, rfl⟩ link hlink
    exact h.touchedLink (hall lane hlane st hst) hlink

variable {links : LinkTable K} {todo : List (SuperpositionInput K)}
  {slot : CpuChannelProcessor.Slot K}

/-- What the next lane of the shaping pass finds: itself, and its link, behind the slot's snap. -/
theorem ShapedTo.next (hready : LanesReady p₀ inputs) (hlinks : LinksSnapped p₀ inputs count links)
    {lane : SuperpositionInput K} (hlane : lane ∈ inputs)
    (h : ShapedTo p₀ inputs count links (lane :: todo) slot) :
    ∃ model st link fading, lane.model = some model ∧ p₀.states lane.linkKey = some st ∧
      p₀.links st.link = some link ∧
      links st.link = some { (link.slotSnap count).1 with fading := fading } ∧
      (∀ n identity, slot.proc.ensureLinkState lane.linkKey model n identity = slot.proc) ∧
      shapeRead slot.proc lane = some ⟨lane.linkKey, model,
        refreshLane (link.slotSnap count).1 (link.slotSnap count).2 st,
        { (link.slotSnap count).1 with fading := fading }⟩ := by
  obtain ⟨model, st, link, hmodel, hst, hlen, hlink⟩ := hready.ready lane hlane
  obtain ⟨fading, hsnapped⟩ := hlinks st.link ⟨lane, hlane, st, hst, rfl⟩ link hlink
  have hstate := h.waiting lane List.mem_cons_self st link hst hlink
  -- the lane was entered by the generating pass, so entering it again does nothing
  have hens : ∀ n identity, slot.proc.ensureLinkState lane.linkKey model n identity = slot.proc :=
    fun n identity =>
      ensureLinkState_of_length hstate ((refreshLane_steps_length _ _ st).trans hlen) n identity
  refine ⟨model, st, link, fading, hmodel, hst, hlink, hsnapped, hens, ?_⟩
  unfold shapeRead
  rw [hmodel]
  dsimp only
  rw [hens, hstate, Option.map_some, refreshLane_link, h.links, hsnapped, Option.getD_some]

/-- **One lane of the shaping pass.** -/
theorem ShapedTo.shapeLane (hready : LanesReady p₀ inputs)
    (hlinks : LinksSnapped p₀ inputs count links) (hcount : count ≠ 0)
    {lane : SuperpositionInput K} (hlane : lane ∈ inputs)
    (htodo : ∀ other ∈ todo, other.linkKey ≠ lane.linkKey)
    (h : ShapedTo p₀ inputs count links (lane :: todo) slot) (rate : ℕ) :
    (∀ r ∈ shapeRead slot.proc lane, SnappedRead p₀ inputs count r) ∧
      Ensures (fun slot' => ShapedTo p₀ inputs count links todo slot' ∧
        slot.touched ⊆ slot'.touched ∧
        ∀ st, p₀.states lane.linkKey = some st → st.link ∈ slot'.touched)
        (CpuChannelProcessor.shapeLane count rate slot lane) := by
  obtain ⟨model, st, link, fading, hmodel, hst, hlink, -, hens, hread⟩ := h.next hready hlinks hlane
  have hmem : st.link ∈ laneLinks p₀ inputs := ⟨lane, hlane, st, hst, rfl⟩
  constructor
  · intro r hr
    rw [hread, Option.mem_some_iff] at hr
    subst hr
    exact ⟨lane, hlane, rfl, hmodel, st, link, fading, hst, hlink, rfl, rfl⟩
  · unfold CpuChannelProcessor.shapeLane
    rw [hmodel]
    dsimp only
    split_ifs with hsize
    · exact Ensures.throw
    · exact Ensures.throw
    · have hsome : lane.samples ≠ [] := by
        rintro hnil
        rw [hnil, List.length_nil, ne_eq, not_not] at hsize
        exact hcount hsize.symm
      rw [applyChainToLink_read slot.proc hmodel hsome hread rate, hens]
      refine Ensures.bind ((runChain_rings _ _ _ _ _).bind fun run hrun =>
        Ensures.pure (P := fun r : CpuChannelProcessor K × List (Iq K) × Option String =>
          ∃ steps, SameRings steps
              (refreshLane (link.slotSnap count).1 (link.slotSnap count).2 st).steps ∧
            r.1.links = slot.proc.links ∧ r.2.2 = some st.link ∧
            r.1.states = Function.update slot.proc.states lane.linkKey
              (some { refreshLane (link.slotSnap count).1 (link.slotSnap count).2 st with
                steps := steps }))
          ⟨run.states, hrun, rfl, congrArg some (refreshLane_link ..), rfl⟩) ?_
      rintro ⟨p, out, touchedLink⟩ ⟨steps, hrings, hp, rfl, hstates⟩
      dsimp only at hp hstates ⊢
      refine Ensures.pure ⟨⟨hp.trans h.links, ?_, ?_, ?_,
        nodup_touch h.nodup (some st.link), ?_⟩,
        subset_touch slot.touched (some st.link), ?_⟩
      -- the lanes still to come, those behind, and the states of no lane
      · intro other hother st' link' hst' hlink'
        dsimp only
        rw [hstates, Function.update_of_ne (htodo other hother)]
        exact h.waiting other (List.mem_cons_of_mem _ hother) st' link' hst' hlink'
      · intro other hother st' link' hst' hlink'
        dsimp only
        rw [hstates]
        -- this lane, or one that was shaped earlier
        by_cases heq : other.linkKey = lane.linkKey
        · rw [heq] at hst'
          obtain rfl := Option.some.inj (hst.symm.trans hst')
          obtain rfl := Option.some.inj (hlink.symm.trans hlink')
          rw [heq, Function.update_self]
          exact ⟨steps, rfl, hrings⟩
        · rw [Function.update_of_ne heq]
          exact h.lanes other hother st' link' hst' hlink'
      · intro key hkey
        dsimp only
        rw [hstates, Function.update_of_ne]
        · exact h.others key hkey
        · rintro rfl
          exact hkey (List.mem_map_of_mem hlane)
      · intro k hk
        have hk' : k ∈ touch slot.touched (some st.link) := hk
        rcases mem_touch hk' with hold | hnew
        · exact h.inside k hold
        · rw [← Option.mem_some_iff.mp hnew]
          exact hmem
      · intro st' hst'
        obtain rfl := Option.some.inj (hst.symm.trans hst')
        exact mem_touch_self ..

/-- **The shaping pass**, from any point on. -/
theorem ShapedTo.shape (hready : LanesReady p₀ inputs)
    (hlinks : LinksSnapped p₀ inputs count links) (hcount : count ≠ 0)
    (hsub : todo ⊆ inputs) (hnodup : (todo.map (·.linkKey)).Nodup)
    (h : ShapedTo p₀ inputs count links todo slot) (rate : ℕ) :
    (∀ r ∈ shapeReads count rate slot todo, SnappedRead p₀ inputs count r) ∧
      Ensures (fun slot' => ShapedTo p₀ inputs count links [] slot' ∧
        slot.touched ⊆ slot'.touched ∧
        ∀ lane ∈ todo, ∀ st, p₀.states lane.linkKey = some st → st.link ∈ slot'.touched)
        (todo.foldlM (CpuChannelProcessor.shapeLane count rate) slot) := by
  -- each lane is shaped once, so those before it have not touched its state
  induction todo generalizing slot with
  | nil =>
      exact ⟨fun r hr => absurd hr List.not_mem_nil,
        Ensures.pure ⟨h, List.Subset.refl _, fun _ hlane => absurd hlane List.not_mem_nil⟩⟩
  | cons lane todo ih =>
      rw [List.cons_subset] at hsub
      rw [List.map_cons, List.nodup_cons] at hnodup
      have hother : ∀ other ∈ todo, other.linkKey ≠ lane.linkKey := by
        intro other hother heq
        exact hnodup.1 (heq ▸ List.mem_map_of_mem hother)
      obtain ⟨hread, hstep⟩ := h.shapeLane hready hlinks hcount hsub.1 hother rate
      constructor
      · intro r hr
        unfold shapeReads at hr
        rcases List.mem_append.mp hr with hr | hr
        · exact hread r (Option.mem_toList.mp hr)
        · split at hr
          · exact absurd hr List.not_mem_nil
          · rename_i slot' hslot'
            exact (ih hsub.2 hnodup.2 (hstep slot' hslot').1).1 r hr
      · rw [List.foldlM_cons]
        refine hstep.bind ?_
        rintro slot' ⟨hshaped, htouched, hmem⟩
        refine (ih hsub.2 hnodup.2 hshaped).2.mono ?_
        rintro slot'' ⟨hshaped', htouched', hmem'⟩
        refine ⟨hshaped', List.Subset.trans htouched htouched', ?_⟩
        intro lane' hlane' st hst
        rcases List.mem_cons.mp hlane' with rfl | hlane'
        · exact htouched' (hmem st hst)
        · exact hmem' lane' hlane' st hst

end Shaping

end SlotReads
