/-
# The receiver model of the CUDA processor

`prepare` makes a model state for every output row of a node with a receiver model, and leaves the
live values of these states at their defaults; no control message names them.  So over every run
their phases stand at zero, and what a receiver model makes of a row is one function of a sample:
the gains and the declared phases of its chain.  Path losses and carrier offsets have no effect in a
receiver model, and neither has a noise given by its SNR where no step declares a noise power.
-/
import GpuChannel.CudaRuns
import GpuChannel.RealScalars

section CudaReceiver

open CudaChannelProcessor

/-! ## One step -/

/-- What a step of a receiver model makes of a sample. -/
noncomputable def receiverStep (s : Iq ℝ) (step : ModelStep ℝ) : Iq ℝ :=
  match step.type with
  | .gain => s.scale (Libm.pow10 (step.paramOr "gain_db" 0 / 20))
  | .phase | .cfo => s.rotate (step.paramOr "phase_rad" 0)
  | .pathLoss | .awgn | .tdl => s

/-- What a receiver model makes of a sample. -/
noncomputable def receiverSample (model : ModelConfig ℝ) (s : Iq ℝ) : Iq ℝ :=
  model.chain.foldl receiverStep s

/-- Silence stays silence. -/
theorem receiverSample_zero (model : ModelConfig ℝ) : receiverSample model 0 = 0 := by
  have hstep : ∀ step : ModelStep ℝ, receiverStep 0 step = 0 := by
    intro step
    unfold receiverStep
    cases step.type with
    | gain => exact congrArg₂ Iq.mk (zero_mul _) (zero_mul _)
    | phase | cfo =>
        refine congrArg₂ Iq.mk ?_ ?_
        · show (0 : ℝ) * _ - 0 * _ = 0
          rw [zero_mul, zero_mul, sub_zero]
        · show (0 : ℝ) * _ + 0 * _ = 0
          rw [zero_mul, zero_mul, add_zero]
    | pathLoss | awgn | tdl => rfl
  unfold receiverSample
  exact List.foldlRecOn (motive := fun s => s = 0) _ _ rfl fun s hs step _ => hs ▸ hstep step

/-- The step declares no noise power of its own. -/
def NoisePowerUndeclared (step : ModelStep ℝ) : Prop :=
  step.type = .awgn → step.paramOr "noise_power" (-1) < 0

theorem fmod_zero (y : ℝ) : fmod 0 y = 0 := by
  unfold fmod truncInt
  rw [zero_div, if_pos le_rfl, Int.floor_zero, Int.cast_zero, zero_mul, sub_zero]

theorem phaseIncrement_zero (rate : ℕ) : phaseIncrement (0 : ℝ) rate = 0 := by
  unfold phaseIncrement
  split_ifs
  · rfl
  · rw [mul_zero, zero_div]

theorem scale_one (s : Iq ℝ) : s.scale 1 = s := by
  unfold Iq.scale
  rw [mul_one, mul_one]

section Steps

variable (count rate : ℕ) (step : ModelStep ℝ) (seed counter : ℕ)

/-- A phase at zero stays there: the live offset is zero. -/
theorem buildStep_phase (power : ℝ) :
    (buildStep MutableParams.default count rate step 0 seed counter power).phaseRad = 0 := by
  have hstill : fmod (0 + phaseIncrement (0 : ℝ) rate * count) (2 * Libm.pi) = 0 := by
    rw [phaseIncrement_zero, zero_mul, add_zero, fmod_zero]
  unfold buildStep
  cases step.type with
  | phase => exact hstill
  | cfo => exact hstill
  | pathLoss | gain | awgn | tdl => rfl

variable [Curand ℝ] {step}

/-- **One step on a silent sum**: the running power stays at zero, and the step is one function of
the sample. -/
theorem buildStep_still (hnoise : NoisePowerUndeclared step) :
    let built := buildStep MutableParams.default count rate step 0 seed counter 0
    built.runningPower = 0 ∧ ∀ idx s, applyGpuStep idx built.step s = receiverStep s step := by
  -- the phase of a row state never moves
  have hturn : ∀ (θ : ℝ) (idx : ℕ), θ + 0 + phaseIncrement (0 : ℝ) rate * idx = θ := by
    intro θ idx
    rw [phaseIncrement_zero, zero_mul, add_zero, add_zero]
  unfold buildStep receiverStep
  unfold NoisePowerUndeclared at hnoise
  cases htype : step.type with
  | pathLoss =>
      -- a path loss of 0 dB
      have hloss : (Libm.pow10 (-(MutableParams.default : MutableParams ℝ).pathLossDb / 20) : ℝ) = 1 := by
        show (10 : ℝ) ^ (-(0 : ℝ) / 20) = 1
        rw [neg_zero, zero_div, Real.rpow_zero]
      refine ⟨zero_mul _, fun idx s => ?_⟩
      dsimp only
      rw [hloss]
      exact scale_one s
  | gain => exact ⟨zero_mul _, fun _ _ => rfl⟩
  | phase =>
      refine ⟨rfl, fun idx s => ?_⟩
      show s.rotate (_ + 0 + phaseIncrement (0 : ℝ) rate * idx) = _
      rw [hturn]
  | cfo =>
      refine ⟨rfl, fun idx s => ?_⟩
      show s.rotate (_ + 0 + phaseIncrement (0 : ℝ) rate * idx) = _
      rw [hturn]
  | awgn =>
      have hpower : max 0 (if step.paramOr "noise_power" (-1) < 0 then
          (0 : ℝ) / Libm.pow10 ((MutableParams.default : MutableParams ℝ).awgnSnrDb / 10)
          else step.paramOr "noise_power" (-1)) = 0 := by
        rw [if_pos (hnoise htype), zero_div, max_self]
      dsimp only
      rw [hpower]
      refine ⟨add_zero 0, fun idx s => ?_⟩
      -- a noise of no power
      have hsigma : (Libm.sqrt ((0 : ℝ) / 2) : ℝ) = 0 := by
        show √((0 : ℝ) / 2) = 0
        rw [zero_div, Real.sqrt_zero]
      unfold applyGpuStep
      dsimp only
      rw [hsigma, zero_mul, zero_mul, add_zero, add_zero]
  | tdl => exact ⟨rfl, fun idx s => scale_one s⟩

end Steps

/-! ## One row -/

section Rows

/-- A row state whose live values are the defaults and whose phases are at zero. -/
structure RxStill (steps : ℕ) (ms : LinkModelState ℝ) : Prop where
  capacity : ms.stepCapacity = steps
  live : ms.live = MutableParams.default
  phases : ms.phaseRad = List.replicate steps 0
  seeds : ms.noiseSeed.length = steps
  counters : ms.noiseCounter.length = steps

theorem RxStill.init [Rng ℝ] (steps : ℕ) (seedPrefix : String) :
    RxStill steps (initModelState steps seedPrefix) := by
  refine ⟨rfl, rfl, rfl, ?_, List.length_replicate⟩
  exact (List.length_map _).trans List.length_range

/-- The loop of `build_steps` on phases at zero. -/
theorem buildChain_phases (count rate : ℕ) (chain : List (ModelStep ℝ)) {n : ℕ}
    {seeds counters : List ℕ} {power : ℝ} (hchain : chain.length ≤ n) (hseeds : seeds.length = n)
    (hcounters : counters.length = n) :
    (buildChain MutableParams.default count rate chain (List.replicate n 0) seeds counters power).map
      (·.phaseRad) = List.replicate chain.length 0 := by
  induction chain generalizing n seeds counters power with
  | nil => rfl
  | cons step chain ih =>
      obtain ⟨m, rfl⟩ : ∃ m, n = m + 1 := ⟨n - 1, by rw [List.length_cons] at hchain; omega⟩
      obtain ⟨seed, seeds, rfl⟩ := List.exists_cons_of_length_eq_add_one hseeds
      obtain ⟨counter, counters, rfl⟩ := List.exists_cons_of_length_eq_add_one hcounters
      rw [List.replicate_succ, buildChain, List.map_cons, buildStep_phase,
        ih (Nat.le_of_succ_le_succ hchain) (Nat.succ.inj hseeds) (Nat.succ.inj hcounters)]
      rfl

variable [Curand ℝ]

/-- The steps that it builds, on a sample. -/
theorem buildChain_sample (count rate : ℕ) {chain : List (ModelStep ℝ)} {n : ℕ}
    {seeds counters : List ℕ} (hnoise : ∀ step ∈ chain, NoisePowerUndeclared step)
    (hchain : chain.length ≤ n) (hseeds : seeds.length = n) (hcounters : counters.length = n)
    (idx : ℕ) (s : Iq ℝ) :
    applyChain ((buildChain MutableParams.default count rate chain (List.replicate n 0) seeds
      counters 0).map (·.step)) idx s = chain.foldl receiverStep s := by
  induction chain generalizing n seeds counters s with
  | nil => rfl
  | cons step chain ih =>
      rw [List.forall_mem_cons] at hnoise
      obtain ⟨m, rfl⟩ : ∃ m, n = m + 1 := ⟨n - 1, by rw [List.length_cons] at hchain; omega⟩
      obtain ⟨seed, seeds, rfl⟩ := List.exists_cons_of_length_eq_add_one hseeds
      obtain ⟨counter, counters, rfl⟩ := List.exists_cons_of_length_eq_add_one hcounters
      obtain ⟨hpower, hstep⟩ := buildStep_still count rate seed counter hnoise.1
      rw [List.replicate_succ, buildChain, List.map_cons, hpower, List.foldl_cons]
      show applyChain _ idx (applyGpuStep idx _ s) = _
      rw [hstep, ih hnoise.2 (Nat.le_of_succ_le_succ hchain) (Nat.succ.inj hseeds)
        (Nat.succ.inj hcounters)]

section Row

variable {steps : ℕ} {ms : LinkModelState ℝ} {model : ModelConfig ℝ}

omit [Curand ℝ] in
theorem RxStill.length_built (h : RxStill steps ms) (hchain : model.chain.length ≤ steps)
    (count rate : ℕ) :
    let built := buildChain ms.live count rate model.chain ms.phaseRad ms.noiseSeed ms.noiseCounter 0
    built.map (·.phaseRad) = List.replicate model.chain.length 0 ∧
      built.length = model.chain.length := by
  have hphases : (buildChain MutableParams.default count rate model.chain (List.replicate steps 0)
      ms.noiseSeed ms.noiseCounter 0).map (·.phaseRad) = List.replicate model.chain.length 0 :=
    buildChain_phases count rate model.chain hchain h.seeds h.counters
  rw [h.live, h.phases]
  refine ⟨hphases, ?_⟩
  rw [← List.length_map (·.phaseRad), hphases, List.length_replicate]

omit [Curand ℝ] in
/-- A call leaves the state still. -/
theorem RxStill.built (h : RxStill steps ms) (hchain : model.chain.length ≤ steps)
    (count rate : ℕ) : RxStill steps (buildSteps ms model none count rate) := by
  obtain ⟨hphases, hlength⟩ := h.length_built hchain count rate
  refine ⟨h.capacity, h.live, ?_, h.seeds, ?_⟩
  · show (buildChain _ _ _ _ _ _ _ 0).map (·.phaseRad) ++ ms.phaseRad.drop _ = _
    rw [hphases, hlength, h.phases, List.drop_replicate, List.replicate_append_replicate,
      Nat.add_sub_cancel' hchain]
  · show ((buildChain _ _ _ _ _ _ _ 0).map (·.noiseCounter) ++ ms.noiseCounter.drop _).length = _
    rw [List.length_append, List.length_map, hlength, List.length_drop, h.counters,
      Nat.add_sub_cancel' hchain]

/-- The row goes through the function of a sample. -/
theorem RxStill.applied (h : RxStill steps ms) (hchain : model.chain.length ≤ steps)
    (hnoise : ∀ step ∈ model.chain, NoisePowerUndeclared step) (count rate : ℕ)
    (row : List (Iq ℝ)) :
    applyStepsKernel ((buildSteps ms model none count rate).hostSteps.take model.chain.length) row =
      row.map (receiverSample model) := by
  obtain ⟨-, hlength⟩ := h.length_built hchain count rate
  have htake : (buildSteps ms model none count rate).hostSteps.take model.chain.length =
      (buildChain ms.live count rate model.chain ms.phaseRad ms.noiseSeed ms.noiseCounter 0).map
        (·.step) := by
    show (List.map _ _ ++ _).take _ = _
    exact List.take_left' ((List.length_map _).trans hlength)
  rw [htake, h.live, h.phases]
  unfold applyStepsKernel
  refine List.ext_getElem (by rw [List.length_mapIdx, List.length_map]) fun i hi hi' => ?_
  rw [List.getElem_mapIdx, List.getElem_map]
  exact buildChain_sample count rate hnoise hchain h.seeds h.counters i _

end Row

/-- **The receiver model on the rows of one call**: the states stay still, and every row goes
through the function of a sample. -/
theorem receiveRows_still {states rx : List (LinkModelState ℝ)} {steps : ℕ}
    (hstill : ∀ ms ∈ states, RxStill steps ms) {model : ModelConfig ℝ} {count rate : ℕ}
    {sums rows : List (List (Iq ℝ))}
    (h : receiveRows states model count rate sums = .ok (rx, rows)) :
    rx.length = states.length ∧ (∀ ms ∈ rx, RxStill steps ms) ∧
      ((∀ step ∈ model.chain, NoisePowerUndeclared step) → sums.length = states.length →
        rows = sums.map (List.map (receiverSample model))) := by
  obtain ⟨hroom, h⟩ := passed_check h
  obtain ⟨rfl, rfl⟩ := Prod.mk.inj (Except.ok.inj h)
  push Not at hroom
  -- the capacity is checked on the first state, and all of them have the same
  have hchain : model.chain.length ≤ steps := by
    obtain ⟨first, rest, rfl⟩ := List.exists_cons_of_ne_nil hroom.1
    rw [← (hstill first List.mem_cons_self).capacity]
    exact hroom.2 first rfl
  refine ⟨List.length_map _, ?_, ?_⟩
  · intro ms' hms'
    obtain ⟨ms, hms, rfl⟩ := List.mem_map.mp hms'
    exact (hstill ms hms).built hchain count rate
  · intro hnoise hsums
    refine List.ext_getElem ?_ ?_
    · rw [List.length_zipWith, List.length_map, List.length_map, hsums, min_self]
    · intro r hr hr'
      rw [List.getElem_zipWith, List.getElem_map, List.getElem_map]
      rw [List.length_map, hsums] at hr'
      exact (hstill _ (List.getElem_mem hr')).applied hchain hnoise count rate _

end Rows

/-! ## One call -/

section Call

variable [Curand ℝ] {p q : CudaChannelProcessor ℝ} {call : SuperpositionCall ℝ}
  {model : ModelConfig ℝ} {rows : List (List (Iq ℝ))}

/-- **A call with a receiver model** is the call without it, and then the receiver model on its
rows; only the row states of the node are different. -/
theorem cudaServe_receiver (hrx : call.rxModel = some model) (h : p.serve call = .ok (q, rows)) :
    (p.serve { call with rxModel := none } = .ok (p, rows) ∧ q = p ∧
      ∀ row ∈ rows, ∀ s ∈ row, s = 0) ∨
    ∃ sp sp₀ q₀ sums rx, p.superposeStates call.dstKey = some sp ∧
      p.serve { call with rxModel := none } = .ok (q₀, sums) ∧ sums.length = sp.table.rows ∧
      receiveRows sp.rxModels model call.sampleCount call.sampleRateHz sums = .ok (rx, rows) ∧
      q = { q₀ with superposeStates :=
        Function.update q₀.superposeStates call.dstKey (some { sp₀ with rxModels := rx }) } ∧
      q₀.superposeStates call.dstKey = some sp₀ := by
  unfold CudaChannelProcessor.serve CudaChannelProcessor.processSuperposition at h ⊢
  unfold SuperpositionCall.sampleCount
  cases hsizes : call.rowSizes with
  | nil =>
      rw [hsizes] at h
      obtain ⟨rfl, rfl⟩ := Prod.mk.inj (Except.ok.inj h)
      exact Or.inl ⟨rfl, rfl, fun _ hrow => absurd hrow List.not_mem_nil⟩
  | cons count sizes =>
      rw [hsizes] at h
      dsimp only at h ⊢
      cases hstate : p.superposeStates call.dstKey with
      | none =>
          rw [hstate] at h
          cases h
      | some sp =>
          rw [hstate] at h
          dsimp only at h ⊢
          obtain ⟨hcount, h⟩ := passed_check h
          obtain ⟨hunequal, h⟩ := passed_check h
          rw [if_neg hcount, if_neg hunequal]
          by_cases hzero : count = 0
          · rw [if_pos hzero] at h ⊢
            obtain ⟨rfl, rfl⟩ := Prod.mk.inj (Except.ok.inj h)
            refine Or.inl ⟨rfl, rfl, fun row hrow s hs => ?_⟩
            obtain ⟨size, -, rfl⟩ := List.mem_map.mp hrow
            exact absurd hs List.not_mem_nil
          rw [if_neg hzero] at h ⊢
          obtain ⟨hroom, h⟩ := passed_check h
          rw [if_neg hroom]
          by_cases hnone : call.inputs.isEmpty = true
          · rw [if_pos hnone] at h ⊢
            obtain ⟨rfl, rfl⟩ := Prod.mk.inj (Except.ok.inj h)
            refine Or.inl ⟨rfl, rfl, fun row hrow s hs => ?_⟩
            obtain ⟨size, -, rfl⟩ := List.mem_map.mp hrow
            exact List.eq_of_mem_replicate hs
          rw [if_neg hnone] at h ⊢
          obtain ⟨⟨⟩, hchecked, h⟩ := bind_eq_ok h
          obtain ⟨-, h⟩ := passed_check h
          obtain ⟨hmalformed, h⟩ := passed_check h
          obtain ⟨acc, hstaged, h⟩ := bind_eq_ok h
          rw [hrx] at h
          obtain ⟨⟨rx, shaped⟩, hreceive, h⟩ := bind_eq_ok h
          obtain ⟨rfl, rfl⟩ := Prod.mk.inj (Except.ok.inj h)
          -- the same passes without the receiver model
          rw [hchecked, ok_bind, if_neg (by simp), if_neg hmalformed, hstaged, ok_bind]
          refine Or.inr ⟨sp, _, _, _, rx, rfl, rfl, ?_, hreceive, ?_, Function.update_self ..⟩
          · rw [List.length_map, List.length_range]
          · rw [Function.update_idem]

end Call

/-! ## Over a run -/

section Runs

/-- **The row states of a node**: one for each row, all still. -/
def RxNode (sp : CudaSuperposeState ℝ) : Prop :=
  sp.rxModels = [] ∨ sp.rxModels.length = sp.table.rows ∧
    ∃ steps, ∀ ms ∈ sp.rxModels, RxStill steps ms

/-- The row states of all nodes are still. -/
def ReceiversStill (p : CudaChannelProcessor ℝ) : Prop :=
  ∀ id sp, p.superposeStates id = some sp → RxNode sp

variable {p q : CudaChannelProcessor ℝ}

theorem ReceiversStill.update (h : ReceiversStill p) {id : String} {sp : CudaSuperposeState ℝ}
    (hsp : RxNode sp)
    (hq : q.superposeStates = Function.update p.superposeStates id (some sp)) :
    ReceiversStill q := by
  intro id' sp' hsp'
  rw [hq] at hsp'
  by_cases hid : id' = id
  · subst hid
    rw [Function.update_self] at hsp'
    rwa [← Option.some.inj hsp']
  · rw [Function.update_of_ne hid] at hsp'
    exact h id' sp' hsp'

variable [Rng ℝ]

/-- One node of the node loop. -/
theorem ReceiversStill.prepareNode {config : TopologyConfig ℝ} {resolved : ResolvedTopology}
    (h : ReceiversStill p) (node : ResolvedNode) :
    Ensures ReceiversStill (CudaChannelProcessor.prepareNode config resolved p node) := by
  intro q hq
  rcases prepareNode_eq_ok hq with rfl | ⟨table, sp, htable, hsp, -, hmodels, rfl⟩
  · exact h
  have hfolded : ReceiversStill ((nodeEdges config p table).foldl (prepareEdge
      ((nodeEdges config p table).all fun e => leadsWithTdl e.2.1)) p) :=
    List.foldlRecOn _ _ h fun _ hq' _ _ => hq'
  refine hfolded.update ?_ rfl
  unfold RxNode
  rw [hmodels, hsp]
  generalize (if node.rxModel.isEmpty = true then none else config.findModel node.rxModel) = model
  cases model with
  | none => exact Or.inl rfl
  | some model =>
      refine Or.inr ⟨?_, model.chain.length, fun ms hms => ?_⟩
      · show ((List.range (max 1 node.rxPorts.length)).map _).length = table.rows
        rw [List.length_map, List.length_range, (prepareNodeRows_eq_ok htable).1]
      · obtain ⟨r, -, rfl⟩ := List.mem_map.mp hms
        exact RxStill.init _ _

/-- `prepare` leaves every row state still. -/
theorem cudaPrepare_still {config : TopologyConfig ℝ}
    (hprepare : CudaChannelProcessor.prepare config = .ok p) : ReceiversStill p := by
  unfold CudaChannelProcessor.prepare at hprepare
  obtain ⟨resolved, -, hprepare⟩ := bind_eq_ok hprepare
  have hlanes : ReceiversStill (resolved.lanes.foldl
      (CudaChannelProcessor.prepareLane config resolved) CudaChannelProcessor.empty) := by
    refine List.foldlRecOn (motive := ReceiversStill) _ _ ?_ fun q hq lane _ => ?_
    · exact fun _ _ hsp => absurd hsp (Option.some_ne_none _).symm
    · unfold CudaChannelProcessor.prepareLane
      split
      · exact hq
      · exact hq
  exact Ensures.foldlM hlanes (fun node _ q hq => hq.prepareNode node) p hprepare

variable [Curand ℝ] {call : SuperpositionCall ℝ} {rows : List (List (Iq ℝ))}

omit [Rng ℝ] in
/-- A call without a receiver model leaves the row states of its node alone. -/
theorem ReceiversStill.serve_plain (h : ReceiversStill p) (hrx : call.rxModel = none)
    (hserve : p.serve call = .ok (q, rows)) : ReceiversStill q := by
  rcases cudaServe_eq_ok hserve with ⟨rfl, -⟩ | ⟨sp, acc, rx, hserved⟩
  · exact h
  · obtain ⟨rfl, -⟩ := hserved.rows hrx
    have hnode := h _ _ hserved.state
    refine h.update ?_ (congrArg CudaChannelProcessor.superposeStates hserved.after)
    exact hnode

omit [Rng ℝ] in
/-- **One call keeps every row state still.** -/
theorem ReceiversStill.serve (h : ReceiversStill p) (hserve : p.serve call = .ok (q, rows)) :
    ReceiversStill q := by
  cases hrx : call.rxModel with
  | none => exact h.serve_plain hrx hserve
  | some model =>
      rcases cudaServe_receiver hrx hserve with ⟨-, rfl, -⟩ |
        ⟨sp, sp₀, q₀, sums, rx, hsp, hplain, -, hreceive, rfl, hsp₀⟩
      · exact h
      · have hstill₀ : ReceiversStill q₀ := h.serve_plain rfl hplain
        have hsame : sp₀.rxModels = sp.rxModels ∧ sp₀.table = sp.table := by
          rcases cudaServe_eq_ok hplain with ⟨rfl, -⟩ | ⟨sp', acc, rx', hserved⟩
          · obtain rfl := Option.some.inj (hsp.symm.trans hsp₀)
            exact ⟨rfl, rfl⟩
          · obtain rfl := Option.some.inj (hsp.symm.trans hserved.state)
            obtain ⟨rfl, -⟩ := hserved.rows rfl
            rw [hserved.after] at hsp₀
            dsimp only at hsp₀
            rw [Function.update_self] at hsp₀
            obtain rfl := Option.some.inj hsp₀
            exact ⟨rfl, rfl⟩
        refine hstill₀.update ?_ rfl
        rcases h _ _ hsp with hempty | ⟨hlength, steps, hstates⟩
        · obtain ⟨hroom, -⟩ := passed_check hreceive
          exact absurd (Or.inl hempty) hroom
        · obtain ⟨hlength', hstill, -⟩ := receiveRows_still hstates hreceive
          exact Or.inr ⟨by rw [hlength', hlength, hsame.2], steps, hstill⟩

variable {config : TopologyConfig ℝ} {events : List (ServiceEvent ℝ)}
  {outs : List (List (List (Iq ℝ)))} {model : ModelConfig ℝ}

/-- **The receiver model has no memory on the CUDA backend.**  After any run of calls and
publications, a call with a receiver model gives the rows of the same call without it, with every
sample put through the gains and the declared phases of the chain; and it leaves the same slots and
links. -/
theorem cuda_receiver_memoryless (hprepare : CudaChannelProcessor.prepare config = .ok p)
    (hrun : Run.trace CudaChannelProcessor.serviceStep p events = .ok (q, outs))
    (hrx : call.rxModel = some model) (hnoise : ∀ step ∈ model.chain, NoisePowerUndeclared step)
    {q' : CudaChannelProcessor ℝ} (hserve : q.serve call = .ok (q', rows)) :
    ∃ q₀ sums, q.serve { call with rxModel := none } = .ok (q₀, sums) ∧
      rows = sums.map (List.map (receiverSample model)) ∧
      q'.linkSlots = q₀.linkSlots ∧ q'.links = q₀.links := by
  have hstill : ReceiversStill q := by
    refine Run.trace_invariant (C := fun _ => True) ?_ (cudaPrepare_still hprepare)
      (fun _ _ => trivial) hrun
    intro s event t o hs _ hstep
    cases event with
    | call call => exact hs.serve hstep
    | publish ps =>
        obtain ⟨rfl, -⟩ := Prod.mk.inj (Except.ok.inj hstep)
        exact hs
  rcases cudaServe_receiver hrx hserve with ⟨hplain, rfl, hzero⟩ |
    ⟨sp, sp₀, q₀, sums, rx, hsp, hplain, hsums, hreceive, rfl, -⟩
  · refine ⟨q', rows, hplain, ?_, rfl, rfl⟩
    -- an idle call gives zeros, which no step changes
    have hkeep : ∀ row ∈ rows, row.map (receiverSample model) = row := by
      intro row hrow
      refine (List.map_congr_left fun s hs => ?_).trans (List.map_id' row)
      rw [hzero row hrow s hs]
      exact receiverSample_zero model
    exact ((List.map_congr_left hkeep).trans (List.map_id' rows)).symm
  · refine ⟨q₀, sums, hplain, ?_, rfl, rfl⟩
    rcases hstill _ _ hsp with hempty | ⟨hlength, steps, hstates⟩
    · obtain ⟨hroom, -⟩ := passed_check hreceive
      exact absurd (Or.inl hempty) hroom
    · obtain ⟨-, -, hrows⟩ := receiveRows_still hstates hreceive
      exact hrows hnoise (hsums.trans hlength.symm)

end Runs

end CudaReceiver

/-! ## A booth -/

/-- A loss, and no tdl. -/
def wireModel : ModelConfig ℝ :=
  { id := "wire"
    chain := [{ type := .pathLoss, params := [("path_loss_db", 20)], fadingFDMaxHz := 0
                fadingGridUs := 100 }] }

/-- A receiver with a gain, a loss and a carrier offset. -/
def boothModel : ModelConfig ℝ :=
  { id := "booth"
    chain := [
      { type := .gain, params := [("gain_db", 20)], fadingFDMaxHz := 0, fadingGridUs := 100 },
      { type := .pathLoss, params := [("path_loss_db", 20)], fadingFDMaxHz := 0, fadingGridUs := 100 },
      { type := .cfo, params := [("cfo_hz", 100)], fadingFDMaxHz := 0, fadingGridUs := 100 }] }

/-- One wire into the booth. -/
def boothConfig : TopologyConfig ℝ :=
  { devices := [
      { id := "a", txEndpoint := "tcp://*:a", rxEndpoint := "tcp://a", txTimingOffsetSamples := 0
        txScaleDb := 0 },
      { id := "b", txEndpoint := "tcp://*:b", rxEndpoint := "tcp://b", rxModel := "booth"
        txTimingOffsetSamples := 0, txScaleDb := 0 }]
    links := [{ fromNode := "a", toNode := "b", model := "wire", declaredModel := "wire"
                propagationDelaySamples := 0 }]
    models := [("wire", wireModel), ("booth", boothModel)] }

/-- Two samples for the booth. -/
def boothCall : SuperpositionCall ℝ :=
  { dstKey := "b"
    inputs := boothConfig.links.map fun link =>
      { linkKey := linkKey link, model := some wireModel, samples := [⟨1, 0⟩, ⟨0, 1⟩] }
    rxModel := some boothModel, sampleRateHz := 23040000, rowSizes := [2] }

/-- Two calls. -/
def boothEvents : List (ServiceEvent ℝ) := [.call boothCall, .call boothCall]

theorem cuda_receiver_memoryless_booth :
    let _ : Rng ℝ := ⟨fun _ => 0, fun _ _ => 0, fun _ _ => 0⟩
    let _ : Curand ℝ := ⟨fun _ _ => 0⟩
    ∃ p q outs q' rows q₀ sums, CudaChannelProcessor.prepare boothConfig = .ok p ∧
      Run.trace CudaChannelProcessor.serviceStep p boothEvents = .ok (q, outs) ∧
      q.serve boothCall = .ok (q', rows) ∧
      q.serve { boothCall with rxModel := none } = .ok (q₀, sums) ∧
      rows = sums.map (List.map (receiverSample boothModel)) := by
  intro _ _
  -- whether the run goes through does not depend on the real samples
  have hrun : ((CudaChannelProcessor.prepare boothConfig).toOption.any fun p =>
      (Run.trace CudaChannelProcessor.serviceStep p boothEvents).toOption.any fun r =>
        (r.1.serve boothCall).toOption.isSome) = true := by
    decide +kernel
  have hnoise : ∀ step ∈ boothModel.chain, NoisePowerUndeclared step := by
    intro step hstep hawgn
    unfold boothModel at hstep
    simp only [List.mem_cons, List.not_mem_nil, or_false] at hstep
    rcases hstep with rfl | rfl | rfl
    · cases hawgn
    · cases hawgn
    · cases hawgn
  cases hprepare : CudaChannelProcessor.prepare boothConfig with
  | error e =>
      rw [hprepare] at hrun
      cases hrun
  | ok p =>
      rw [hprepare] at hrun
      change (Run.trace CudaChannelProcessor.serviceStep p boothEvents).toOption.any _ = true at hrun
      cases htrace : Run.trace CudaChannelProcessor.serviceStep p boothEvents with
      | error e =>
          rw [htrace] at hrun
          cases hrun
      | ok r =>
          rw [htrace] at hrun
          change (r.1.serve boothCall).toOption.isSome = true at hrun
          cases hserve : r.1.serve boothCall with
          | error e =>
              rw [hserve] at hrun
              cases hrun
          | ok served =>
              obtain ⟨q₀, sums, hplain, hrows, -⟩ :=
                cuda_receiver_memoryless hprepare htrace rfl hnoise hserve
              exact ⟨p, r.1, r.2, served.1, served.2, q₀, sums, rfl, htrace, hserve, hplain, hrows⟩
