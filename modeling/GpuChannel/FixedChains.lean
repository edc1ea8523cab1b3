/-
# Lanes without randomness

A lane gets its stream slot by slot, one call of `apply_chain_to_link` for each slot
(`streamLane`).  When the chain has no noise and no fading, and no control message reaches the
link, the call is a row of machines, one for each step (`slotStep`), with the step states
between the slots.
-/
import GpuChannel.DeclaredModel
import GpuChannel.Library.SlotFilters

section FixedChains

variable {K : Type} [Field K] [LinearOrder K] [FloorRing K] [Libm K] [Rng K]

/-- **The outputs of a lane**: one call of `apply_chain_to_link` for each slot. -/
def CpuChannelProcessor.streamLane (key : String) (model : ModelConfig K) (sampleRateHz : ℕ) :
    CpuChannelProcessor K → List (List (Iq K)) → Except String (List (List (Iq K)))
  | _, [] => pure []
  | p, slot :: slots => do
      let (p, out, _) ← p.applyChainToLink key model slot sampleRateHz
      let outs ← streamLane key model sampleRateHz p slots
      pure (out :: outs)

/-- The lane does not exist yet, and no control message has reached its link. -/
structure NewLane (p : CpuChannelProcessor K) (key : String) (identity : LaneIdentity) : Prop where
  state : p.states key = none
  link : ∀ link, p.links identity.physicalLinkKey = some link → link.Quiet

/-- No noise, and no fading. -/
def ModelStep.IsFixed (step : ModelStep K) : Prop :=
  step.type ≠ .awgn ∧ (step.type = .tdl → step.fadingEnabled = false)

/-- The filter of a tap does not look ahead. -/
def CausalTap (tap : TapSpec K) : Prop :=
  ∀ i : Fin kTdlFracFilterTaps, ⌊tap.delaySamples⌋ + (i.val : ℤ) < 3 → tapPolyphase tap i = 0

/-- **A chain of path losses, gains, rotations and causal tapped delay lines.** -/
structure FixedChain (chain : List (ModelStep K)) : Prop where
  fixed : ∀ step ∈ chain, step.IsFixed
  causal : ∀ step ∈ chain, step.type = .tdl → ∀ tap ∈ step.taps, CausalTap tap

omit [Rng K] in
theorem CausalTap.congr {a b : TapSpec K} (h : a.delaySamples = b.delaySamples) (hb : CausalTap b) :
    CausalTap a := by
  intro i hi
  rw [h] at hi
  have hfilter := hb i hi
  unfold tapPolyphase at hfilter ⊢
  rwa [h]

/-! ## One step -/

/-- What a step of a fixed chain makes of a slot. -/
def slotStep (sampleRateHz : ℕ) (live : MutableParams K) (step : ModelStep K) (st : StepState K)
    (slot : List (Iq K)) : List (Iq K) × StepState K :=
  match silentUse live step with
  | .pathLoss db => (slot.map (·.scale (Libm.pow10 (-db / 20))), st)
  | .gain db => (slot.map (·.scale (Libm.pow10 (db / 20))), st)
  | .noisePower _ | .noiseSnr _ => (slot, st)
  | .rotation phaseRad cfoHz =>
      let rotated := rotateSamples phaseRad (phaseIncrement cfoHz sampleRateHz) st.phaseRad slot
      (rotated.1, { st with phaseRad := rotated.2 })
  | .tdl taps polyphase =>
      let shaped := applyTdlStep slot taps polyphase st.delayLine
      (shaped.1, { st with delayLine := shaped.2 })

theorem runStep_of_fixed (ctx : ChainContext K) (i : ℕ) {step : ModelStep K} (h : step.IsFixed)
    (st : StepState K) (slot : List (Iq K)) :
    runStep ctx i step (silentUse ctx.live step) st slot =
      .ok (slotStep ctx.sampleRateHz ctx.live step st slot) := by
  unfold slotStep silentUse
  cases htype : step.type with
  | awgn => exact absurd htype h.1
  | tdl =>
      dsimp only
      unfold runStep shapeTdl
      dsimp only
      rw [h.2 htype, if_neg Bool.false_ne_true]
      rfl
  | pathLoss => rfl
  | gain => rfl
  | phase => rfl
  | cfo => rfl

omit [Rng K] in
theorem slotStep_polyphase (sampleRateHz : ℕ) (live : MutableParams K) (step : ModelStep K)
    (st : StepState K) (slot : List (Iq K)) :
    (slotStep sampleRateHz live step st slot).2.tdlPolyphase = st.tdlPolyphase := by
  unfold slotStep
  cases silentUse live step <;> rfl

/-! ## One slot -/

/-- The filters that preparing a chain leaves in its states. -/
def preparedFilters (chain : List (ModelStep K)) : List (List (Polyphase K)) :=
  chain.map fun step => if step.type = .tdl then step.taps.map tapPolyphase else []

/-- A fixed chain of a silent lane is a row of machines. -/
theorem runChain_of_fixed (ctx : ChainContext K) (hlink : ctx.link.Quiet) (i : ℕ)
    {chain : List (ModelStep K)} (hchain : ∀ step ∈ chain, step.IsFixed)
    {states : List (StepState K)} (hpoly : states.map (·.tdlPolyphase) = preparedFilters chain)
    (slot : List (Iq K)) :
    ∃ run : ChainRun K, runChain ctx i chain states slot = .ok run ∧
      (run.out, run.states) = Slots.pipe (slotStep ctx.sampleRateHz ctx.live) chain states slot ∧
      run.states.map (·.tdlPolyphase) = preparedFilters chain := by
  -- the output of the head step is the slot of the tail
  induction chain generalizing i states slot with
  | nil =>
      have hnil : states = [] := List.map_eq_nil_iff.mp hpoly
      subst hnil
      exact ⟨⟨slot, [], []⟩, rfl, rfl, rfl⟩
  | cons step chain ih =>
      rw [List.forall_mem_cons] at hchain
      cases states with
      | nil => exact absurd hpoly (by simp [preparedFilters])
      | cons st states =>
          simp only [preparedFilters, List.map_cons, List.cons.injEq] at hpoly
          have huse := stepUse_of_quiet ctx.live hlink ctx.laneIndex step st
            (fun htype => by rw [hpoly.1, if_pos htype])
          obtain ⟨run, hrun, hpipe, hfilters⟩ := ih (i + 1) hchain.2 hpoly.2
            (slotStep ctx.sampleRateHz ctx.live step st slot).1
          have hst : (slotStep ctx.sampleRateHz ctx.live step st slot).2.tdlPolyphase =
              if step.type = .tdl then step.taps.map tapPolyphase else [] := by
            rw [slotStep_polyphase, hpoly.1]
          refine ⟨⟨run.out, (slotStep ctx.sampleRateHz ctx.live step st slot).2 :: run.states,
            silentUse ctx.live step :: run.uses⟩, ?_, ?_, ?_⟩
          · have hstep := runStep_of_fixed ctx i hchain.1 st slot
            generalize slotStep ctx.sampleRateHz ctx.live step st slot = next at hstep hrun
            unfold runChain
            rw [huse]
            show (runStep ctx i step (silentUse ctx.live step) st slot >>= _) = _
            rw [hstep]
            show (runChain ctx (i + 1) chain states next.1 >>= _) = _
            rw [hrun]
            rfl
          · unfold Slots.pipe
            rw [← hpipe]
          · rw [List.map_cons, hfilters, hst]
            rfl

/-! ## All slots -/

/-- The lane is there, prepared for this model, and no control message has reached its link. -/
structure LaneReady (p : CpuChannelProcessor K) (key : String) (model : ModelConfig K)
    (states : List (StepState K)) : Prop where
  state : ∃ st, p.states key = some st ∧ st.steps = states ∧
    st.live = populateMutableParamsFromYaml model ∧
    ((p.links st.link).getD PhysicalLinkRuntime.default).Quiet
  filters : states.map (·.tdlPolyphase) = preparedFilters model.chain

/-- `ensure_link_state` makes a new lane ready. -/
theorem NewLane.ensureLinkState {p : CpuChannelProcessor K} {key : String} {identity : LaneIdentity}
    (h : NewLane p key identity) (model : ModelConfig K) (count : ℕ) :
    LaneReady (p.ensureLinkState key model count identity) key model
      (prepareSteps key model identity) := by
  have hlink : ((p.links identity.physicalLinkKey).getD PhysicalLinkRuntime.default).Quiet := by
    cases hl : p.links identity.physicalLinkKey with
    | none => exact quiet_default
    | some link => exact h.link link hl
  refine ⟨?_, prepareSteps_polyphase key model identity⟩
  unfold CpuChannelProcessor.ensureLinkState CpuChannelProcessor.bindState
  rw [h.state]
  dsimp only
  rw [Function.update_self]
  dsimp only
  by_cases hlen : (LinkState.bound model identity).steps.length = model.chain.length
  · -- an empty chain: the bound state is the prepared one
    have hnil : model.chain = [] := List.length_eq_zero_iff.mp hlen.symm
    rw [if_pos hlen]
    refine ⟨_, Function.update_self .., ?_, ?_, ?_⟩
    · simp [LinkState.bound, prepareSteps, hnil]
    · simp [populateMutableParamsFromYaml, leadingTap?, hnil, LinkState.bound]
    · show ((Function.update p.links identity.physicalLinkKey _ identity.physicalLinkKey).getD _).Quiet
      rw [Function.update_self]
      exact hlink
  · rw [if_neg hlen]
    refine ⟨_, Function.update_self .., rfl, rfl, ?_⟩
    show ((Function.update (Function.update p.links identity.physicalLinkKey _)
      identity.physicalLinkKey _ identity.physicalLinkKey).getD _).Quiet
    rw [Function.update_self]
    show ((Option.map _ (Function.update p.links identity.physicalLinkKey
      (some ((p.links identity.physicalLinkKey).getD PhysicalLinkRuntime.default))
      identity.physicalLinkKey)).getD PhysicalLinkRuntime.default).Quiet
    rw [Function.update_self]
    exact quiet_prepareLink hlink _ _ _ _ _

/-- A ready lane turns a slot into the row's output and is ready again. -/
theorem LaneReady.applyChainToLink {p : CpuChannelProcessor K} {key : String} {model : ModelConfig K}
    {states : List (StepState K)} (h : LaneReady p key model states)
    (hchain : ∀ step ∈ model.chain, step.IsFixed) (sampleRateHz : ℕ) {slot : List (Iq K)}
    (hslot : slot ≠ []) :
    let next := Slots.pipe (slotStep sampleRateHz (populateMutableParamsFromYaml model)) model.chain
      states slot
    ∃ q link, p.applyChainToLink key model slot sampleRateHz = .ok (q, next.1, link) ∧
      LaneReady q key model next.2 ∧ q.links = p.links ∧
      ∀ k, k ≠ key → q.states k = p.states k := by
  intro next
  obtain ⟨st, hst, hsteps, hlive, hquiet⟩ := h.state
  have hlen : st.steps.length = model.chain.length := by
    have hfilters := congrArg List.length h.filters
    rwa [List.length_map, preparedFilters, List.length_map, ← hsteps] at hfilters
  -- the lane was prepared, so entering it does nothing
  have hkeep : p.ensureLinkState key model slot.length { physicalLinkKey := key } = p := by
    unfold CpuChannelProcessor.ensureLinkState CpuChannelProcessor.bindState
    rw [hst]
    dsimp only
    rw [hst]
    dsimp only
    rw [if_pos hlen]
  obtain ⟨run, hrun, hpipe, hfilters⟩ := runChain_of_fixed
    (laneContext st ((p.links st.link).getD PhysicalLinkRuntime.default) sampleRateHz) hquiet 0 hchain
    h.filters slot
  have hnext : (run.out, run.states) = next := by
    rw [hpipe]
    show Slots.pipe (slotStep sampleRateHz st.live) model.chain states slot = next
    rw [hlive]
  refine ⟨{ p with
      states := Function.update p.states key (some { st with steps := run.states })
      executed := p.executed ++ [⟨key, model, run.uses⟩] }, some st.link, ?_, ?_⟩
  · unfold CpuChannelProcessor.applyChainToLink
    -- the chain runs, because the slot is not empty
    have hempty : slot.isEmpty = false := by
      cases slot with
      | nil => exact absurd rfl hslot
      | cons s slot => rfl
    rw [hempty, if_neg Bool.false_ne_true]
    dsimp only
    rw [hkeep, hst]
    dsimp only
    rw [hsteps]
    show (runChain (laneContext st ((p.links st.link).getD PhysicalLinkRuntime.default) sampleRateHz) 0
      model.chain states slot >>= _) = _
    rw [hrun, ← hnext]
    rfl
  · rw [← hnext]
    exact ⟨⟨⟨_, Function.update_self .., rfl, hlive, hquiet⟩, hfilters⟩, rfl,
      fun k hk => Function.update_of_ne hk ..⟩

/-- **A stream through a fixed chain** returns, and its outputs are those of the row of machines. -/
theorem streamLane_of_fixed {p : CpuChannelProcessor K} {key : String} {model : ModelConfig K}
    {states : List (StepState K)} (h : LaneReady p key model states)
    (hchain : ∀ step ∈ model.chain, step.IsFixed) (sampleRateHz : ℕ) {slots : List (List (Iq K))}
    (hslots : ∀ slot ∈ slots, slot ≠ []) :
    p.streamLane key model sampleRateHz slots = .ok (Slots.outputs
      (Slots.pipe (slotStep sampleRateHz (populateMutableParamsFromYaml model)) model.chain)
      states slots) := by
  induction slots generalizing p states with
  | nil => rfl
  | cons slot slots ih =>
      rw [List.forall_mem_cons] at hslots
      obtain ⟨q, link, happly, hready, -, -⟩ := h.applyChainToLink hchain sampleRateHz hslots.1
      unfold CpuChannelProcessor.streamLane
      rw [happly]
      show (q.streamLane key model sampleRateHz slots >>= _) = _
      rw [ih hready hslots.2]
      rfl

end FixedChains
