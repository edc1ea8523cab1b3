/-
# The declared model

What a chain declares and what it runs with when no control message is ever sent.  A lane
keeps one `MutableParams` for its whole chain, filled by a scan, so a step gets back its own
value only when no later step of its kind overwrote it, and every tdl step gets the first tap
of the leading one.  `OwnParameters` says for which chains each step gets its own.
-/
import GpuChannel.CpuInvariant
import GpuChannel.RationalScalars

section Declared

variable {K : Type} [Field K] [LinearOrder K] [FloorRing K] [Libm K]

/-! ## What a chain declares -/

/-- **The parameters that the step itself declares.** -/
def StepUse.declared (step : ModelStep K) : StepUse K :=
  match step.type with
  | .pathLoss => .pathLoss (step.paramOr "path_loss_db" 0)
  | .gain => .gain (step.paramOr "gain_db" 0)
  | .awgn =>
      let noisePower := step.paramOr "noise_power" (-1)
      if noisePower < 0 then .noiseSnr (step.paramOr "snr_db" 60) else .noisePower noisePower
  | .phase => .rotation (step.paramOr "phase_rad" 0) 0
  | .cfo => .rotation (step.paramOr "phase_rad" 0) (step.paramOr "cfo_hz" 0)
  | .tdl => .tdl step.taps (step.taps.map tapPolyphase)

/-- The last value that a scan for one kind of step leaves behind. -/
def lastParam (chain : List (ModelStep K)) (kind : ModelStep K → Bool) (name : String)
    (fallback : K) : K :=
  ((chain.filter kind).getLast?.map (·.paramOr name fallback)).getD fallback

def ModelStep.isPathLoss (step : ModelStep K) : Bool := step.type = .pathLoss

/-- `phase` steps count: the scan reads their `cfo_hz` too. -/
def ModelStep.isRotation (step : ModelStep K) : Bool := step.type = .cfo ∨ step.type = .phase

def ModelStep.isSnrNoise (step : ModelStep K) : Bool := step.type = .awgn ∧ !step.hasNoisePower

/-- The tap that `live` holds: the first of a leading tdl step, or zeros. -/
def scannedTap (chain : List (ModelStep K)) : TapSpec K := (leadingTap? chain).getD default

/-- **The step gets back what it declares**: its value is the last of its kind, and the first tap
of a tdl step is that of the leading one. -/
def GetsOwn (chain : List (ModelStep K)) (step : ModelStep K) : Prop :=
  match step.type with
  | .pathLoss => step.paramOr "path_loss_db" 0 = lastParam chain ModelStep.isPathLoss "path_loss_db" 0
  | .cfo => step.paramOr "cfo_hz" 0 = lastParam chain ModelStep.isRotation "cfo_hz" 0
  | .awgn =>
      step.paramOr "noise_power" (-1) < 0 →
        step.paramOr "snr_db" 60 = lastParam chain ModelStep.isSnrNoise "snr_db" 60
  | .tdl => ∀ tap ∈ step.taps.head?,
      tap.delaySamples = (scannedTap chain).delaySamples ∧ tap.gainDb = (scannedTap chain).gainDb ∧
        tap.phaseRad = (scannedTap chain).phaseRad ∧
        (tap.isLos = true → tap.losKDb = (scannedTap chain).losKDb)
  | .phase | .gain => True

/-- **The chains whose steps all get their own parameters.** -/
def OwnParameters (chain : List (ModelStep K)) : Prop := ∀ step ∈ chain, GetsOwn chain step

/-! ## What the scan leaves behind -/

omit [Field K] [LinearOrder K] [FloorRing K] [Libm K] in
/-- The last step of a chain decides, if it is of the kind. -/
theorem lastParam_concat (chain : List (ModelStep K)) (step : ModelStep K)
    (kind : ModelStep K → Bool) (name : String) (fallback : K) :
    lastParam (chain ++ [step]) kind name fallback =
      if kind step then step.paramOr name fallback else lastParam chain kind name fallback := by
  unfold lastParam
  rw [List.filter_append]
  cases hk : kind step <;> simp [hk]

omit [LinearOrder K] [FloorRing K] [Libm K] in
/-- The scan keeps the last value of each kind and leaves the tap fields alone. -/
theorem foldl_populateStep (chain : List (ModelStep K)) :
    chain.foldl populateStep MutableParams.default =
      { MutableParams.default with
        pathLossDb := lastParam chain ModelStep.isPathLoss "path_loss_db" 0
        cfoHz := lastParam chain ModelStep.isRotation "cfo_hz" 0
        awgnSnrDb := lastParam chain ModelStep.isSnrNoise "snr_db" 60 } := by
  induction chain using List.reverseRecOn with
  | nil => rfl
  | append_singleton chain step ih =>
      rw [List.foldl_append, ih, List.foldl_cons, List.foldl_nil]
      simp only [lastParam_concat]
      cases htype : step.type <;>
        simp [populateStep, htype, ModelStep.isPathLoss, ModelStep.isRotation,
          ModelStep.isSnrNoise]
      cases step.hasNoisePower <;> simp

omit [LinearOrder K] [FloorRing K] [Libm K] in
/-- The path loss that runs is the one of the last `path_loss` step. -/
theorem populate_pathLossDb (model : ModelConfig K) :
    (populateMutableParamsFromYaml model).pathLossDb =
      lastParam model.chain ModelStep.isPathLoss "path_loss_db" 0 := by
  unfold populateMutableParamsFromYaml
  rw [foldl_populateStep]
  cases leadingTap? model.chain <;> rfl

omit [LinearOrder K] [FloorRing K] [Libm K] in
/-- The rotation that runs is the one of the last `cfo` step. -/
theorem populate_cfoHz (model : ModelConfig K) :
    (populateMutableParamsFromYaml model).cfoHz =
      lastParam model.chain ModelStep.isRotation "cfo_hz" 0 := by
  unfold populateMutableParamsFromYaml
  rw [foldl_populateStep]
  cases leadingTap? model.chain <;> rfl

omit [LinearOrder K] [FloorRing K] [Libm K] in
/-- The noise that runs is the one of the last `awgn` step. -/
theorem populate_awgnSnrDb (model : ModelConfig K) :
    (populateMutableParamsFromYaml model).awgnSnrDb =
      lastParam model.chain ModelStep.isSnrNoise "snr_db" 60 := by
  unfold populateMutableParamsFromYaml
  rw [foldl_populateStep]
  cases leadingTap? model.chain <;> rfl

omit [LinearOrder K] [FloorRing K] [Libm K] in
/-- The tap-0 override of a populated lane installs the scanned tap. -/
theorem overrideTap0_populate (model : ModelConfig K) (tap : TapSpec K) :
    overrideTap0 (populateMutableParamsFromYaml model) tap =
      { tap with
        delaySamples := (scannedTap model.chain).delaySamples
        gainDb := (scannedTap model.chain).gainDb
        phaseRad := (scannedTap model.chain).phaseRad
        losKDb := if tap.isLos then (scannedTap model.chain).losKDb else tap.losKDb } := by
  unfold populateMutableParamsFromYaml scannedTap
  rw [foldl_populateStep]
  cases leadingTap? model.chain <;> rfl

/-! ## What a silent lane uses -/

/-- What a step uses on a lane with these parameters and no swapped profile. -/
def silentUse (live : MutableParams K) (step : ModelStep K) : StepUse K :=
  match step.type with
  | .pathLoss => .pathLoss live.pathLossDb
  | .gain => .gain (step.paramOr "gain_db" 0)
  | .awgn =>
      let noisePower := step.paramOr "noise_power" (-1)
      if noisePower < 0 then .noiseSnr live.awgnSnrDb else .noisePower noisePower
  | .phase => .rotation (step.paramOr "phase_rad" 0) 0
  | .cfo => .rotation (step.paramOr "phase_rad" 0) live.cfoHz
  | .tdl => .tdl (effectiveTaps live step.taps) ((effectiveTaps live step.taps).map tapPolyphase)

/-- The filters of the first tap follow its live delay. -/
theorem effectivePolyphase_prepared (live : MutableParams K) (taps : List (TapSpec K)) :
    effectivePolyphase live taps (taps.map tapPolyphase) =
      (effectiveTaps live taps).map tapPolyphase := by
  cases taps <;> rfl

omit [LinearOrder K] [FloorRing K] [Libm K] in
/-- A TDL runs as declared exactly if its first tap is the one that was scanned. -/
theorem tdl_eq_declared_iff (model : ModelConfig K) (taps : List (TapSpec K)) :
    effectiveTaps (populateMutableParamsFromYaml model) taps = taps ↔ ∀ tap ∈ taps.head?,
      tap.delaySamples = (scannedTap model.chain).delaySamples ∧
        tap.gainDb = (scannedTap model.chain).gainDb ∧
        tap.phaseRad = (scannedTap model.chain).phaseRad ∧
        (tap.isLos = true → tap.losKDb = (scannedTap model.chain).losKDb) := by
  cases taps with
  | nil => simp [effectiveTaps]
  | cons tap taps =>
      have hhead : effectiveTaps (populateMutableParamsFromYaml model) (tap :: taps) =
          overrideTap0 (populateMutableParamsFromYaml model) tap :: taps := rfl
      rw [hhead, overrideTap0_populate]
      obtain ⟨delay, gain, phase, isLos, losK, angle⟩ := tap
      simp only [List.cons.injEq, and_true, TapSpec.mk.injEq, true_and, List.head?_cons,
        Option.mem_def, Option.some.injEq, forall_eq']
      constructor
      · rintro ⟨hd, hg, hp, hk⟩
        refine ⟨hd.symm, hg.symm, hp.symm, ?_⟩
        intro hlos
        rw [if_pos hlos] at hk
        exact hk.symm
      · rintro ⟨hd, hg, hp, hk⟩
        refine ⟨hd.symm, hg.symm, hp.symm, ?_⟩
        cases isLos
        · rfl
        · exact (hk rfl).symm

/-- A silent step uses what it declares exactly when it gets back its own. -/
theorem silentUse_eq_declared_iff (model : ModelConfig K) (step : ModelStep K) :
    silentUse (populateMutableParamsFromYaml model) step = StepUse.declared step ↔
      GetsOwn model.chain step := by
  unfold silentUse StepUse.declared GetsOwn
  cases step.type with
  | pathLoss =>
      simp only [StepUse.pathLoss.injEq, populate_pathLossDb]
      exact eq_comm
  | gain => simp
  | phase => simp
  | cfo =>
      simp only [StepUse.rotation.injEq, true_and, populate_cfoHz]
      exact eq_comm
  | awgn =>
      dsimp only
      by_cases hneg : step.paramOr "noise_power" (-1) < 0
      · rw [if_pos hneg, if_pos hneg, StepUse.noiseSnr.injEq, populate_awgnSnrDb]
        exact ⟨fun h _ => h.symm, fun h => (h hneg).symm⟩
      · rw [if_neg hneg, if_neg hneg]
        exact ⟨fun _ h => absurd h hneg, fun _ => rfl⟩
  | tdl =>
      simp only [StepUse.tdl.injEq]
      rw [← tdl_eq_declared_iff]
      exact ⟨fun h => h.1, fun h => ⟨h, by rw [h]⟩⟩

/-! ## Silent runs -/

/-- **A link that no control message has reached.** -/
structure PhysicalLinkRuntime.Quiet (link : PhysicalLinkRuntime K) : Prop where
  seqno : link.control.seqno = link.liveSeqno
  profile : link.liveProfileActive = false
  matrix : link.liveMatrixProfileActive = false

omit [LinearOrder K] [FloorRing K] [Libm K] in
/-- A new link is quiet. -/
theorem quiet_default : (PhysicalLinkRuntime.default : PhysicalLinkRuntime K).Quiet := ⟨rfl, rfl, rfl⟩

omit [LinearOrder K] [FloorRing K] [Libm K] in
/-- Preparing a link keeps it quiet. -/
theorem quiet_prepareLink [Rng K] {link : PhysicalLinkRuntime K} (h : link.Quiet)
    (model : ModelConfig K) (live : MutableParams K) (steps : List (StepState K)) (count : ℕ)
    (identity : LaneIdentity) :
    (prepareLink model live steps count identity link).Quiet := by
  have hinit : PhysicalLinkRuntime.Quiet
      (if link.control.seqno = 0 ∧ link.liveSeqno = 0 then
        { link with live := live, control := link.control.init live } else link) := by
    split_ifs with hzero
    · exact ⟨hzero.2.symm, h.profile, h.matrix⟩
    · exact h
  exact ⟨hinit.seqno, hinit.profile, hinit.matrix⟩

omit [Field K] [LinearOrder K] [FloorRing K] [Libm K] in
/-- A quiet link has nothing to take. -/
theorem PhysicalLinkRuntime.Quiet.not_due {link : PhysicalLinkRuntime K} (h : link.Quiet) :
    link.due = false := by
  cases hdue : link.due
  · rfl
  · exact absurd h.seqno (link.due_iff.mp hdue).1

omit [Libm K] in
/-- The snap of a quiet link takes nothing. -/
theorem PhysicalLinkRuntime.Quiet.valuesChanged {link : PhysicalLinkRuntime K} (h : link.Quiet)
    (count : ℕ) : (link.snap count).2.valuesChanged = false := by
  rw [← h.not_due, ← link.snapValues_valuesChanged]
  simp [PhysicalLinkRuntime.snap, PhysicalLinkRuntime.snapWarmup]

omit [Libm K] in
/-- The snap of a quiet link leaves it quiet. -/
theorem PhysicalLinkRuntime.Quiet.snap {link : PhysicalLinkRuntime K} (h : link.Quiet) (count : ℕ) :
    (link.snap count).1.Quiet := by
  obtain ⟨w, hw⟩ := link.snap_of_not_due count h.not_due
  rw [hw]
  exact ⟨h.seqno, h.profile, h.matrix⟩

variable [Rng K]

/-- The lane state holds what preparing this model put there. -/
structure Prepared (model : ModelConfig K) (st : LinkState K) : Prop where
  live : st.live = populateMutableParamsFromYaml model
  polyphase : st.steps.map (·.tdlPolyphase) =
    model.chain.map fun step => if step.type = .tdl then step.taps.map tapPolyphase else []

/-- Preparing a chain builds the filters of its declared taps. -/
theorem prepareSteps_polyphase (key : String) (model : ModelConfig K) (identity : LaneIdentity) :
    (prepareSteps key model identity).map (·.tdlPolyphase) =
      model.chain.map fun step => if step.type = .tdl then step.taps.map tapPolyphase else [] := by
  unfold prepareSteps
  apply List.ext_getElem
  · simp
  · intro i h₁ h₂
    simp only [List.getElem_map, List.getElem_mapIdx]
    split_ifs <;> rfl

/-- Entering a lane prepares it, or finds it prepared. -/
theorem ensuredState_prepared (key : String) (model : ModelConfig K) (identity : LaneIdentity)
    (old : Option (LinkState K)) (h : ∀ st, old = some st → Prepared model st) :
    Prepared model (ensuredState key model identity old) := by
  unfold ensuredState
  dsimp only
  split_ifs with hlen
  · cases old with
    | some st => exact h st rfl
    | none =>
        -- an empty chain: nothing to prepare
        have hnil : model.chain = [] := List.length_eq_zero_iff.mp hlen.symm
        constructor
        · simp [populateMutableParamsFromYaml, leadingTap?, hnil, LinkState.bound]
        · simp [hnil, LinkState.bound]
  · exact ⟨rfl, prepareSteps_polyphase key model identity⟩

omit [Rng K] in
/-- Without a swapped profile a step uses its filters and the lane's parameters. -/
theorem stepUse_of_quiet (live : MutableParams K) {link : PhysicalLinkRuntime K} (h : link.Quiet)
    (laneIndex : ℕ) (step : ModelStep K) (st : StepState K)
    (hpoly : step.type = .tdl → st.tdlPolyphase = step.taps.map tapPolyphase) :
    stepUse live link laneIndex step st = .ok (silentUse live step) := by
  unfold stepUse silentUse
  cases htype : step.type with
  | tdl =>
      dsimp only [tdlUse]
      rw [h.matrix, h.profile, if_neg Bool.false_ne_true, if_neg Bool.false_ne_true, hpoly htype,
        effectivePolyphase_prepared]
      rfl
  | pathLoss => rfl
  | gain => rfl
  | awgn => rfl
  | phase => rfl
  | cfo => rfl

/-- No step of a chain writes the filters. -/
theorem runStep_polyphase (ctx : ChainContext K) (i : ℕ) (step : ModelStep K) (use : StepUse K)
    (st : StepState K) (current : List (Iq K)) :
    Ensures (fun r => r.2.tdlPolyphase = st.tdlPolyphase) (runStep ctx i step use st current) := by
  cases use with
  | pathLoss db => exact Ensures.pure rfl
  | gain db => exact Ensures.pure rfl
  | noisePower power => exact Ensures.pure rfl
  | noiseSnr db => exact Ensures.pure rfl
  | rotation phaseRad cfoHz => exact Ensures.pure rfl
  | tdl taps polyphase =>
      refine Ensures.bind (x := shapeTdl ctx i step taps polyphase st current) (P := fun _ => True)
        (fun _ _ => trivial) fun shaped _ => ?_
      exact Ensures.pure rfl

/-- The chain of a silent lane: every step's use, and the filters stay. -/
theorem runChain_of_quiet (ctx : ChainContext K) (h : ctx.link.Quiet) (i : ℕ)
    (chain : List (ModelStep K)) (states : List (StepState K)) (current : List (Iq K))
    (hpoly : states.map (·.tdlPolyphase) =
      chain.map fun step => if step.type = .tdl then step.taps.map tapPolyphase else []) :
    Ensures (fun run : ChainRun K => run.uses = chain.map (silentUse ctx.live) ∧
      run.states.map (·.tdlPolyphase) = states.map (·.tdlPolyphase))
      (runChain ctx i chain states current) := by
  induction chain generalizing i states current with
  | nil =>
      have hnil : states = [] := List.map_eq_nil_iff.mp hpoly
      subst hnil
      exact Ensures.pure ⟨rfl, rfl⟩
  | cons step chain ih =>
      cases states with
      | nil => exact absurd hpoly (by simp)
      | cons st states =>
          simp only [List.map_cons, List.cons.injEq] at hpoly
          have huse := stepUse_of_quiet ctx.live h ctx.laneIndex step st
            (fun htype => by rw [hpoly.1, if_pos htype])
          unfold runChain
          rw [huse]
          refine (runStep_polyphase ctx i step _ st current).bind fun r hr => ?_
          refine (ih (i + 1) states r.1 hpoly.2).bind fun run hrun => Ensures.pure ⟨?_, ?_⟩
          · rw [List.map_cons, hrun.1]
          · rw [List.map_cons, List.map_cons, hrun.2, hr]

/-- The key is used with this model alone. -/
def OnlyWith (key : String) (model : ModelConfig K) (k : String) (m : ModelConfig K) : Prop :=
  k = key → m = model

/-- A silent run keeps every link quiet and the lane prepared. -/
theorem silent_kept (key : String) (model : ModelConfig K) :
    Kept (OnlyWith key model) (fun k st => k = key → Prepared model st) (fun _ link => link.Quiet)
      (fun e => e.key = key → e.model = model ∧
        e.uses = model.chain.map (silentUse (populateMutableParamsFromYaml model))) := by
  constructor
  · exact fun _ => quiet_default
  · intro k m identity old hm hold hk
    rw [hm hk]
    exact ensuredState_prepared k model identity old fun st hst => hold st hst hk
  · exact fun k m live steps count identity link h => quiet_prepareLink h m live steps count identity
  · exact fun k link fading h _ => ⟨h.seqno, h.profile, h.matrix⟩
  · exact fun k link n h => ⟨h.seqno, h.profile, h.matrix⟩
  · exact fun k link count h => h.snap count
  · exact fun k st link count _ h hv => absurd (hv.symm.trans (h.valuesChanged count)) Bool.noConfusion
  · exact fun k st link count _ h hv => absurd (hv.symm.trans (h.valuesChanged count)) Bool.noConfusion
  · intro k m st link rate input run hm hst hlink hrun
    by_cases hk : k = key
    · obtain ⟨hlive, hpoly⟩ := hst hk
      rw [hm hk] at hrun ⊢
      obtain ⟨huses, hstates⟩ := runChain_of_quiet (laneContext st link rate) hlink 0
        model.chain st.steps input hpoly run hrun
      refine ⟨fun _ => ⟨hlive, hstates.trans hpoly⟩, fun _ => ⟨rfl, ?_⟩⟩
      rw [huses, ← hlive]
      rfl
    · exact ⟨fun h => absurd h hk, fun h => absurd h hk⟩

/-- **The declared model.** On a lane whose key is used with one model, every execution of a run
without control messages uses the parameters that its steps declare if and only if each
step of the chain gets its own. -/
theorem executes_declared_parameters (config : TopologyConfig K) (calls : List (SuperpositionCall K))
    (key : String) (model : ModelConfig K) (hconfig : config.Uses (OnlyWith key model))
    (hcalls : ∀ c ∈ calls, c.Uses (OnlyWith key model)) :
    Ensures (fun p : CpuChannelProcessor K => ∀ e ∈ p.executed, e.key = key →
        (e.model = model ∧ (e.uses = model.chain.map StepUse.declared ↔ OwnParameters model.chain)))
      (CpuChannelProcessor.prepare config >>= fun p => calls.foldlM CpuChannelProcessor.call p) := by
  have hkept := silent_kept key model
  have hprepared := CpuChannelProcessor.prepare_holds hkept
    (fun _ _ _ h => ⟨h.seqno, h.profile, h.matrix⟩)
    (fun _ _ _ _ h => ⟨h.seqno, h.profile, h.matrix⟩) hconfig
  refine hprepared.bind fun p hp => ?_
  refine (CpuChannelProcessor.calls_hold hkept hp hcalls).mono fun q hq e he hkey => ?_
  obtain ⟨hmodel, huses⟩ := hq.executed e he hkey
  refine ⟨hmodel, ?_⟩
  rw [huses, List.map_inj_left]
  exact forall₂_congr fun step _ => silentUse_eq_declared_iff model step

end Declared

/-! ## Concrete runs -/

/-- Two devices linked both ways with this model. -/
def pairConfig (model : ModelConfig ℚ) : TopologyConfig ℚ :=
  { devices := [plainDevice "a", plainDevice "b"]
    links := [plainLink "a" "b" model.id, plainLink "b" "a" model.id]
    models := [(model.id, model)] }

/-- One slot of one sample from `a` to `b`. -/
def pairCall (model : ModelConfig ℚ) : SuperpositionCall ℚ :=
  { dstKey := "b", inputs := [{ linkKey := "a>b:" ++ model.id, model := some model, samples := [⟨1, 0⟩] }]
    rxModel := none, sampleRateHz := 23040000, rowSizes := [1] }

/-- A step with one parameter. -/
def paramStep (type : ModelStepType) (name : String) (value : ℚ) : ModelStep ℚ :=
  { type := type, params := [(name, value)], fadingFDMaxHz := 0, fadingGridUs := 100 }

/-- A path loss and a carrier offset. -/
def onceModel : ModelConfig ℚ :=
  { id := "m", chain := [paramStep .pathLoss "path_loss_db" 20, paramStep .cfo "cfo_hz" 100] }

/-- Two path losses. -/
def twiceModel : ModelConfig ℚ :=
  { id := "m"
    chain := [paramStep .pathLoss "path_loss_db" 20, paramStep .pathLoss "path_loss_db" 40] }

/-- The processor after one slot without a control message. -/
def silentSlot (model : ModelConfig ℚ) : Except String (CpuChannelProcessor ℚ) :=
  CpuChannelProcessor.prepare (pairConfig model) >>= fun p =>
    [pairCall model].foldlM CpuChannelProcessor.call p

theorem executes_declared_parameters_once : ∃ p, silentSlot onceModel = .ok p ∧
    ∀ e ∈ p.executed, e.key = "a>b:m" → (e.model = onceModel ∧
      (e.uses = onceModel.chain.map StepUse.declared ↔ OwnParameters onceModel.chain)) := by
  have hok : (silentSlot onceModel).toOption.isSome = true := by decide +kernel
  have honly : ∀ id m, (pairConfig onceModel).findModel id = some m → m = onceModel := by
    intro id m h
    simp only [TopologyConfig.findModel, pairConfig, List.lookup_cons, List.lookup_nil] at h
    split at h
    · exact (Option.some.inj h).symm
    · cases h
  have hmain := executes_declared_parameters (pairConfig onceModel) [pairCall onceModel] "a>b:m" onceModel
    ⟨fun _ _ lane _ m hm _ => honly _ m hm, fun node _ m hm _ _ _ => honly _ m hm⟩
    (by
      intro c hc
      rw [List.mem_singleton.mp hc]
      constructor
      · intro lane hlane m hm _
        rw [List.mem_singleton.mp hlane] at hm
        exact (Option.some.inj hm).symm
      · intro m hm
        cases hm)
  cases hrun : silentSlot onceModel with
  | error e =>
      rw [hrun] at hok
      cases hok
  | ok p => exact ⟨p, rfl, hmain p hrun⟩

/-- The first of two path losses runs with the second's value. -/
theorem first_pathLoss_is_overwritten :
    (silentSlot twiceModel).toOption.map (·.executed.map (·.uses)) =
        some [[.pathLoss 40, .pathLoss 40]] ∧
      twiceModel.chain.map StepUse.declared = [.pathLoss 20, .pathLoss 40] := by
  decide +kernel
