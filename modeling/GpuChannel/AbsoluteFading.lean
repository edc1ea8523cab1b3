/-
# Fading over a run

Every visit of a lane generates its grids and advances its specular rays from the clock of the
lane's link, and that clock is the number of samples of the link that the run has processed.  So the
fading of a lane is one function of absolute time, fixed by what `prepare` drew for the lane: how
the samples were cut into slots does not show in it, and the lanes of a link are evaluated together.
-/
import GpuChannel.DeclaredModel
import GpuChannel.FadingTime
import GpuChannel.LinkClock

/-! ## The receiver rows -/

section Rows

variable {K : Type} [Field K] [LinearOrder K] [FloorRing K] [Libm K] [Rng K]

open CpuChannelProcessor

namespace CpuChannelProcessor

/-- What the receiver model reads on one row, behind the snap of the row's link. -/
def receiveRead (dstKey : String) (model : ModelConfig K) (count : ℕ) (slot : Slot K) (r : ℕ) :
    Option (LaneRead K) :=
  let key := rxStateKey dstKey r slot.rows.length
  let p := slot.proc.ensureLinkState key model count { physicalLinkKey := key }
  match p.states key with
  | none => none
  | some st =>
      (p.links st.link).map fun link =>
        let snapped := link.slotSnap count
        ⟨key, model, if snapped.2.valuesChanged then { st with live := snapped.1.live } else st,
          snapped.1⟩

def receiveReads (dstKey : String) (model : ModelConfig K) (count sampleRateHz : ℕ) :
    Slot K → List ℕ → List (LaneRead K)
  | _, [] => []
  | slot, r :: rs =>
      (receiveRead dstKey model count slot r).toList ++
        match receiveRow dstKey model count sampleRateHz slot r with
        | .error _ => []
        | .ok slot => receiveReads dstKey model count sampleRateHz slot rs

/-- The receiver rows of a call, read by read. -/
def rowReads (p : CpuChannelProcessor K) (call : SuperpositionCall K) : List (LaneRead K) :=
  match call.rxModel, call.rowSizes with
  | some model, count :: _ =>
      if call.rowSizes.any (· ≠ count) then []
      else if count = 0 then []
      else
        match call.inputs.foldlM (generateLane call.inputs count call.sampleRateHz) (p, []) with
        | .error _ => []
        | .ok (p, touched) =>
            match touched.foldlM mixLink p with
            | .error _ => []
            | .ok p =>
                let rows := call.rowSizes.map fun size => List.replicate size 0
                match call.inputs.foldlM (shapeLane count call.sampleRateHz) ⟨p, [], rows⟩ with
                | .error _ => []
                | .ok slot => receiveReads call.dstKey model count call.sampleRateHz slot
                    (List.range rows.length)
  | _, _ => []

/-- **Every visit of a call**: the lanes of the generation pass, those of the shaping pass, and the
receiver rows. -/
def visits (p : CpuChannelProcessor K) (call : SuperpositionCall K) : List (LaneRead K) :=
  (p.callReads call).1 ++ (p.callReads call).2 ++ p.rowReads call

end CpuChannelProcessor

variable {U : String → ModelConfig K → Prop} {p q : CpuChannelProcessor K}

theorem receiveRead_at {slot : Slot K} (h : Keeps U p slot.proc) {dstKey : String}
    {model : ModelConfig K} {r : ℕ} (hm : U (rxStateKey dstKey r slot.rows.length) model)
    (count : ℕ) {read : LaneRead K} (hread : receiveRead dstKey model count slot r = some read) :
    ReadAt U p read := by
  unfold receiveRead at hread
  have hens := h.trans (Keeps.ensureLinkState hm count)
  have hlength : ∀ st, (slot.proc.ensureLinkState (rxStateKey dstKey r slot.rows.length) model count
      { physicalLinkKey := rxStateKey dstKey r slot.rows.length }).states
        (rxStateKey dstKey r slot.rows.length) = some st →
      st.steps.length = model.chain.length := fun _ => ensureLinkState_length
  dsimp only at hread
  generalize slot.proc.ensureLinkState (rxStateKey dstKey r slot.rows.length) model count
    { physicalLinkKey := rxStateKey dstKey r slot.rows.length } = q at hens hread hlength
  cases hst : q.states (rxStateKey dstKey r slot.rows.length) with
  | none =>
      rw [hst] at hread
      cases hread
  | some st =>
      rw [hst] at hread
      obtain ⟨link, hlink, rfl⟩ := Option.map_eq_some_iff.mp hread
      -- the live values are no part of the lane
      have hread' : ReadAt U p ⟨rxStateKey dstKey r slot.rows.length, model, st,
          (link.slotSnap count).1⟩ := hens.readAt hm hst (hlength st hst)
        ((slotSnap_slotStartSamples link count).trans (clock_of_link hlink).symm)
      split_ifs
      · exact ⟨hread'.link, hread'.clock, fun model' hone =>
          ⟨(hread'.lane model' hone).1, (hread'.lane model' hone).2.trans ⟨rfl, rfl, rfl, rfl⟩⟩⟩
      · exact hread'

theorem receiveReads_at (hp : Linked p) {dstKey : String} {model : ModelConfig K} {count nr : ℕ}
    (hcount : count ≠ 0) (rate : ℕ) (hm : ∀ r < nr, U (rxStateKey dstKey r nr) model)
    {rs : List ℕ} (hrs : ∀ r ∈ rs, r < nr) {keys : List String} {slot : Slot K}
    (h : Worked U p count nr keys slot) :
    ∀ read ∈ receiveReads dstKey model count rate slot rs, ReadAt U p read := by
  induction rs generalizing keys slot with
  | nil => exact fun read hread => absurd hread List.not_mem_nil
  | cons r rs ih =>
      rw [List.forall_mem_cons] at hrs
      intro read hread
      rcases List.mem_append.mp hread with hread | hread
      · have hkey := hm r hrs.1
        rw [← h.rows] at hkey
        exact receiveRead_at h.keeps hkey count (Option.mem_toList.mp hread)
      · cases hrow : receiveRow dstKey model count rate slot r with
        | error e =>
            rw [hrow] at hread
            exact absurd hread List.not_mem_nil
        | ok slot' =>
            rw [hrow] at hread
            exact ih hrs.2 (receiveRow_worked hcount rate hp h hrs.1 (hm r hrs.1) slot' hrow) read
              hread

theorem rowReads_at (hp : Linked p) {call : SuperpositionCall K} (hc : call.Uses U) :
    ∀ read ∈ p.rowReads call, ReadAt U p read := by
  have hnone : ∀ read ∈ ([] : List (LaneRead K)), ReadAt U p read :=
    fun read hread => absurd hread List.not_mem_nil
  -- rows are read only where the call goes through to the receiver model
  unfold CpuChannelProcessor.rowReads
  cases hmodel : call.rxModel with
  | none => exact hnone
  | some model =>
      cases hsizes : call.rowSizes with
      | nil => exact hnone
      | cons count sizes =>
          dsimp only
          rw [← hsizes]
          split_ifs with hunequal hzero
          · exact hnone
          · exact hnone
          have hequal : ∀ size ∈ call.rowSizes, size = count := by
            simpa using hunequal
          cases hgen : call.inputs.foldlM (generateLane call.inputs count call.sampleRateHz) (p, [])
            with
          | error e => exact hnone
          | ok acc =>
              obtain ⟨q, touched⟩ := acc
              dsimp only
              cases hmix : touched.foldlM mixLink q with
              | error e => exact hnone
              | ok q' =>
                  have hq := mix_keeps (generate_keeps hc count _ hgen) touched q' hmix
                  have hshaped := shape_worked hp hc hzero hequal hq
                  dsimp only
                  cases hshape : call.inputs.foldlM (shapeLane count call.sampleRateHz)
                    ⟨q', [], call.rowSizes.map fun size => List.replicate size 0⟩ with
                  | error e => exact hnone
                  | ok slot =>
                      dsimp only
                      rw [List.length_map]
                      exact receiveReads_at hp hzero call.sampleRateHz (hc.row model hmodel)
                        (fun r hr => List.mem_range.mp hr) (hshaped slot hshape)

/-- **Every visit of a call reads the time at which the call began.** -/
theorem visits_at (hp : Linked p) {call : SuperpositionCall K} (hc : call.Uses U) :
    ∀ read ∈ p.visits call, ReadAt U p read := by
  intro read hread
  unfold CpuChannelProcessor.visits at hread
  rcases List.mem_append.mp hread with hread | hread
  · rcases List.mem_append.mp hread with hread | hread
    · exact (callReads_at hc).1 read hread
    · exact (callReads_at hc).2 read hread
  · exact rowReads_at hp hc read hread

end Rows

/-! ## What a visit evaluates -/

section Evaluation

variable {K : Type} [Field K] [LinearOrder K] [FloorRing K] [Libm K] [Rng K]

open CpuChannelProcessor

/-- The grids that `refresh_lane_grids` generates from the read, one for each step. -/
def LaneRead.grids (r : LaneRead K) (count sampleRateHz : ℕ) :
    Except String (List (FadingGrid K)) :=
  let fading := r.link.fading.reshape (max r.state.laneCount (r.state.laneIndex + 1))
    r.model.chain.length
  let old := fading.laneGrids.getD r.state.laneIndex []
  (r.model.chain.zip r.state.steps).zipIdx.mapM fun s =>
    generateFadingGrid s.1.2.tdlFading s.1.1.taps.length count sampleRateHz r.link.slotStartSamples
      (old.getD s.2 (FadingGrid.empty K))

end Evaluation

section AbsoluteTime

variable [Rng ℝ]

open CpuChannelProcessor

/-- **A visit evaluates the fading at absolute time**, its slot starting at sample `start`: the
grids it generates, and the specular part of what a LOS tap is multiplied with. -/
structure EvaluatesFrom (start : ℕ) (call : SuperpositionCall ℝ) (r : LaneRead ℝ) : Prop where
  rayleigh : ∀ grids, r.grids (call.rowSizes.headD 0) call.sampleRateHz = .ok grids →
    ∀ (i : ℕ) (step : ModelStep ℝ) (st : StepState ℝ) (grid : FadingGrid ℝ),
      r.model.chain[i]? = some step → r.state.steps[i]? = some st → grids[i]? = some grid →
      st.tdlFading.enabled = true →
        grid.stride = hostStride st.tdlFading.gridUs call.sampleRateHz ∧
        ∀ k < step.taps.length, ∀ g < grid.points,
          (grid.values.getD (k * grid.points + g) 0).toComplex =
            jakesAt st.tdlFading.fDMaxHz st.tdlFading.tapAlpha st.tdlFading.tapPhi k
              ((start + g * grid.stride) / call.sampleRateHz)
  specular : ∀ st ∈ r.state.steps, ∀ (grid : FadingGrid ℝ) (tap : TapSpec ℝ) (k n : ℕ),
    tap.isLos = true →
      fadingGain st.tdlFading grid r.state.losCoefficient call.sampleRateHz
          r.link.slotStartSamples k n tap =
        (hostSpecular st.tdlFading r.state.losCoefficient call.sampleRateHz
            r.link.slotStartSamples n tap).smul
            (Libm.sqrt (Libm.pow10 (tap.losKDb / 10) / (Libm.pow10 (tap.losKDb / 10) + 1))) +
          (hostRayleigh grid k n).smul (Libm.sqrt (1 / (Libm.pow10 (tap.losKDb / 10) + 1))) ∧
      (hostSpecular st.tdlFading r.state.losCoefficient call.sampleRateHz
          r.link.slotStartSamples n tap).toComplex =
        specularAt r.state.losCoefficient.toComplex st.tdlFading.fDMaxHz tap.losAngleRad
          ((start + n) / call.sampleRateHz)

omit [Rng ℝ] in
/-- A visit evaluates the fading at the clock that it reads. -/
theorem evaluatesFrom_clock (call : SuperpositionCall ℝ) (r : LaneRead ℝ) :
    EvaluatesFrom r.link.slotStartSamples call r := by
  constructor
  · intro grids hgrids i step st grid hstep hst hgrid henabled
    -- the grid of step `i` is what the generator made of it
    obtain ⟨old, hmade⟩ : ∃ old, generateFadingGrid st.tdlFading step.taps.length
        (call.rowSizes.headD 0) call.sampleRateHz r.link.slotStartSamples old = .ok grid := by
      unfold LaneRead.grids at hgrids
      have hall := mapM_eq_ok hgrids
      have hzip : (r.model.chain.zip r.state.steps)[i]? = some (step, st) :=
        List.getElem?_zip_eq_some.mpr ⟨hstep, hst⟩
      have hat : ((r.model.chain.zip r.state.steps).zipIdx)[i]? = some ((step, st), i) := by
        rw [List.getElem?_zipIdx, hzip, Nat.zero_add]
        rfl
      obtain ⟨hi, hsource⟩ := List.getElem?_eq_some_iff.mp hat
      obtain ⟨hi', hmade⟩ := List.getElem?_eq_some_iff.mp hgrid
      have hpair := hall.get hi' hi
      rw [List.get_eq_getElem, List.get_eq_getElem, hsource, hmade] at hpair
      exact ⟨_, hpair⟩
    obtain ⟨hstride, -, hvalues⟩ := generateFadingGrid_eq_ok henabled hmade
    refine ⟨hstride, fun k hk g hg => ?_⟩
    rw [hvalues k hk g hg, jakesPoint_toComplex]
  · intro st _ grid tap k n hlos
    exact ⟨fadingGain_of_los _ _ _ _ _ _ _ hlos, hostSpecular_toComplex _ _ _ _ _ _⟩

/-- **Two visits evaluate one function of absolute time**, their slots starting at `start` and
`start'`: a sample, and a grid point of both, has one value. -/
structure Coincide (start start' : ℕ) (call call' : SuperpositionCall ℝ) (r r' : LaneRead ℝ) :
    Prop where
  specular : ∀ (i : ℕ) (st st' : StepState ℝ), r.state.steps[i]? = some st →
    r'.state.steps[i]? = some st' → ∀ (tap : TapSpec ℝ) (n n' : ℕ), start + n = start' + n' →
      hostSpecular st.tdlFading r.state.losCoefficient call.sampleRateHz r.link.slotStartSamples
          n tap =
        hostSpecular st'.tdlFading r'.state.losCoefficient call'.sampleRateHz
          r'.link.slotStartSamples n' tap
  rayleigh : ∀ grids grids', r.grids (call.rowSizes.headD 0) call.sampleRateHz = .ok grids →
    r'.grids (call'.rowSizes.headD 0) call'.sampleRateHz = .ok grids' →
    ∀ (i : ℕ) (step : ModelStep ℝ) (st : StepState ℝ) (grid grid' : FadingGrid ℝ),
      r.model.chain[i]? = some step → r.state.steps[i]? = some st → grids[i]? = some grid →
      grids'[i]? = some grid' → st.tdlFading.enabled = true →
      ∀ k < step.taps.length, ∀ g < grid.points, ∀ g' < grid'.points,
        start + g * grid.stride = start' + g' * grid'.stride →
          grid.values.getD (k * grid.points + g) 0 = grid'.values.getD (k * grid'.points + g') 0

omit [Rng ℝ] in
theorem Cplx.toComplex_injective : Function.Injective Cplx.toComplex := by
  intro a b h
  obtain ⟨hre, him⟩ := Complex.ext_iff.mp h
  obtain ⟨re, im⟩ := a
  obtain ⟨re', im'⟩ := b
  exact congrArg₂ Cplx.mk hre him

omit [Rng ℝ] in
/-- Visits of one lane at one rate. -/
theorem coincide_of_sameLane {call call' : SuperpositionCall ℝ} {r r' : LaneRead ℝ}
    (hrate : call'.sampleRateHz = call.sampleRateHz) (hmodel : r'.model = r.model)
    (hlane : SameLane r'.state r.state) :
    Coincide r.link.slotStartSamples r'.link.slotStartSamples call call' r r' := by
  constructor
  · intro i st st' hst hst' tap n n' hsample
    obtain ⟨st₀, hst₀, hfading⟩ := hlane.step hst
    obtain rfl := Option.some.inj (hst₀.symm.trans hst')
    have htime : (r.link.slotStartSamples + n : ℝ) = r'.link.slotStartSamples + n' := by
      exact_mod_cast hsample
    apply Cplx.toComplex_injective
    rw [hostSpecular_toComplex, hostSpecular_toComplex, hrate, hfading, hlane.losCoefficient, htime]
  · intro grids grids' hgrids hgrids' i step st grid grid' hstep hst hgrid hgrid' henabled k hk g hg
      g' hg' hpoint
    obtain ⟨st₀, hst₀, hfading⟩ := hlane.step hst
    obtain ⟨-, hvalue⟩ := (evaluatesFrom_clock call r).rayleigh grids hgrids i step st grid hstep hst
      hgrid henabled
    obtain ⟨-, hvalue'⟩ := (evaluatesFrom_clock call' r').rayleigh grids' hgrids' i step st₀ grid'
      (hmodel ▸ hstep) hst₀ hgrid' (hfading ▸ henabled)
    have htime : (r.link.slotStartSamples + g * grid.stride : ℝ) =
        r'.link.slotStartSamples + g' * grid'.stride := by
      exact_mod_cast hpoint
    apply Cplx.toComplex_injective
    rw [hvalue k hk g hg, hvalue' k hk g' hg', hrate, hfading, htime]

/-- A visit behind a run: its clock counts the samples of the link, and its lane is the prepared
one. -/
theorem visit_behind {config : TopologyConfig ℝ} {p q : CpuChannelProcessor ℝ}
    (hprepare : prepare config = .ok p) {U : String → ModelConfig ℝ → Prop}
    {es : List (ServiceEvent ℝ)} (hes : ∀ e ∈ es, e.Uses U) (hrun : p.service es = .ok q)
    {call : SuperpositionCall ℝ} (hcall : call.Uses U) {r : LaneRead ℝ} (hr : r ∈ q.visits call) :
    r.state.link = p.home r.key ∧ r.link.slotStartSamples = p.processed es r.state.link ∧
      ∀ model, (∀ model', U r.key model' → model' = model) →
        r.model = model ∧ SameLane (p.lane r.key model) r.state := by
  obtain ⟨hlinked, hstart⟩ := prepare_atStart hprepare
  have hbehind := service_behind hlinked hes hrun
  have hread := visits_at hbehind.linked hcall r hr
  refine ⟨hread.link.trans (hbehind.home r.key), ?_, ?_⟩
  · rw [hread.clock, hbehind.clock, hstart, Nat.zero_add]
  · intro model hone
    obtain ⟨hmodel, hlane⟩ := hread.lane model hone
    exact ⟨hmodel, (hbehind.lane r.key model hone).trans hlane⟩

/-- **Fading is a function of absolute time.** Behind any run of calls and publications, every visit
of a lane evaluates its grid points and its specular rays at the samples of its link that were
processed, the lanes of one link together; two runs evaluate a lane alike; and so do the kernels,
from their own slot start. -/
theorem fading_absolute_time {config : TopologyConfig ℝ} {p q : CpuChannelProcessor ℝ}
    (hprepare : prepare config = .ok p) {es : List (ServiceEvent ℝ)} (hrun : p.service es = .ok q)
    (call : SuperpositionCall ℝ) :
    (∀ r ∈ q.visits call, EvaluatesFrom (p.processed es r.state.link) call r) ∧
    (∀ r ∈ q.visits call, ∀ r' ∈ q.visits call, r.state.link = r'.state.link →
      r.link.slotStartSamples = r'.link.slotStartSamples) ∧
    (∀ es' q' call', p.service es' = .ok q' → call'.sampleRateHz = call.sampleRateHz →
      ∀ key model, (∀ e ∈ .call call :: .call call' :: (es ++ es'), e.Uses (OnlyWith key model)) →
        ∀ r ∈ q.visits call, ∀ r' ∈ q'.visits call', r.key = key → r'.key = key →
          r'.state.link = r.state.link ∧
          Coincide (p.processed es r.state.link) (p.processed es' r'.state.link) call call' r r') ∧
    (∀ (states : List (DeviceFadingState ℝ)) (s : DeviceFadingState ℝ) (count rate edge tap : ℕ)
      (point : ℕ) (value : Cplx ℝ), states[edge]? = some s →
      generateFadingGridKernel states count rate edge tap point = some value →
        value.toComplex = jakesAt s.fDMaxHz s.tapAlpha s.tapPhi tap
          ((s.slotStartSamples + point * (min (2 ^ 31 - 1) (hostStride s.gridUs rate) : ℕ)) / rate)) ∧
    (∀ (s : DeviceLinkState ℝ) (shape : ℤ × ℤ) (rows : ℕ → ℕ → Cplx ℝ) (rate : ℕ)
      (tap : Fin kDeviceMaxTaps) (idx : ℕ), s.fadingEnabled = true → (s.taps tap).isLos = true →
        deviceGain s shape rows rate tap idx =
          (deviceSpecular s rate tap idx).smul (s.taps tap).losFactor +
            (deviceRayleigh shape rows tap idx).smul (s.taps tap).rayleighFactor ∧
        (deviceSpecular s rate tap idx).toComplex =
          specularAt s.losCoeff.toComplex s.fDMaxHz (s.taps tap).losAngleRad
            ((s.slotStartSamples + idx) / rate)) := by
  -- the clocks are right whatever the models are
  have hany : ∀ e : ServiceEvent ℝ, e.Uses fun _ _ => True := by
    intro e
    cases e with
    | call c => exact ⟨fun _ _ _ _ => trivial, fun _ _ _ _ => trivial⟩
    | publish ps => trivial
  have hclock : ∀ r ∈ q.visits call, r.link.slotStartSamples = p.processed es r.state.link :=
    fun r hr => (visit_behind hprepare (fun e _ => hany e) hrun (hany (.call call)) hr).2.1
  refine ⟨?_, ?_, ?_, ?_, ?_⟩
  · intro r hr
    rw [← hclock r hr]
    exact evaluatesFrom_clock call r
  · intro r hr r' hr' hlink
    rw [hclock r hr, hclock r' hr', hlink]
  -- two runs that enter the lane with one model read it at the same lane and place
  · intro es' q' call' hrun' hrate key model huses r hr r' hr' hkey hkey'
    rw [List.forall_mem_cons, List.forall_mem_cons, List.forall_mem_append] at huses
    obtain ⟨hcall, hcall', hes, hes'⟩ := huses
    subst hkey
    obtain ⟨hlink, hstart, hlane⟩ := visit_behind hprepare hes hrun hcall hr
    obtain ⟨hlink', hstart', hlane'⟩ := visit_behind hprepare hes' hrun' hcall' hr'
    rw [hkey'] at hlink' hlane'
    obtain ⟨hmodel, hsame⟩ := hlane model fun _ hused => hused rfl
    obtain ⟨hmodel', hsame'⟩ := hlane' model fun _ hused => hused rfl
    refine ⟨hlink'.trans hlink.symm, ?_⟩
    rw [← hstart, ← hstart']
    exact coincide_of_sameLane hrate (hmodel'.trans hmodel.symm) (hsame'.symm.trans hsame)
  · intro states s count rate edge tap point value hs hvalue
    rw [generateFadingGridKernel_toComplex hs hvalue, fadingGridShape_stride, Int.cast_natCast]
  · intro s shape rows rate tap idx hfading hlos
    exact ⟨deviceGain_of_los s shape rows rate hfading hlos idx, deviceSpecular_toComplex s rate tap idx⟩

end AbsoluteTime

noncomputable section

/-- One fading LOS tap. -/
def specularModel : ModelConfig ℝ :=
  { id := "los"
    chain := [{ type := .tdl, taps := [⟨0, 0, 0, true, 3, 0⟩], tapsDeclared := true
                fadingEnabled := true, fadingFDMaxHz := 10, fadingGridUs := 100 }] }

def antennaDevice (id : String) : DeviceConfig ℝ :=
  { id := id, txEndpoint := "tcp://*:" ++ id, rxEndpoint := "tcp://" ++ id
    txTimingOffsetSamples := 0, txScaleDb := 0 }

/-- Two devices and one link between them. -/
def specularConfig : TopologyConfig ℝ :=
  { devices := [antennaDevice "a", antennaDevice "b"]
    links := [{ fromNode := "a", toNode := "b", model := "los", declaredModel := "los"
                propagationDelaySamples := 0 }]
    models := [("los", specularModel)] }

/-- A slot of the link. -/
def specularCall (count : ℕ) : SuperpositionCall ℝ :=
  { dstKey := "b"
    inputs := [{ linkKey := "a>b:los", model := some specularModel
                 samples := List.replicate count 0 }]
    rxModel := none, sampleRateHz := 23040000, rowSizes := [count] }

/-- Draws that are all zero. -/
@[reducible] def zeroDraws : Rng ℝ := ⟨fun _ => 0, fun _ _ => 0, fun _ _ => 0⟩

end

/-- Behind a slot of four samples, a slot of two is evaluated from the fourth sample on. -/
theorem fading_absolute_time_los :
    let _ : Rng ℝ := zeroDraws
    ∃ p q, CpuChannelProcessor.prepare specularConfig = .ok p ∧
      p.service [.call (specularCall 4)] = .ok q ∧ (q.visits (specularCall 2)).length = 2 ∧
      ∀ r ∈ q.visits (specularCall 2), EvaluatesFrom 4 (specularCall 2) r := by
  intro _
  have hrun : ((CpuChannelProcessor.prepare specularConfig).toOption.any fun p =>
      (p.service [.call (specularCall 4)]).toOption.any fun q =>
        decide (((q.visits (specularCall 2)).map fun r =>
          p.processed [.call (specularCall 4)] r.state.link) = [4, 4])) = true := by
    decide +kernel
  cases hprepare : CpuChannelProcessor.prepare specularConfig with
  | error e =>
      rw [hprepare] at hrun
      cases hrun
  | ok p =>
      rw [hprepare] at hrun
      cases hservice : p.service [.call (specularCall 4)] with
      | error e =>
          change (p.service [.call (specularCall 4)]).toOption.any _ = true at hrun
          rw [hservice] at hrun
          cases hrun
      | ok q =>
          change (p.service [.call (specularCall 4)]).toOption.any _ = true at hrun
          rw [hservice] at hrun
          have hstarts := of_decide_eq_true hrun
          refine ⟨p, q, rfl, hservice, ?_, ?_⟩
          · have hlength := congrArg List.length hstarts
            rwa [List.length_map] at hlength
          · intro r hr
            have hmem := List.mem_map_of_mem
              (f := fun r : LaneRead ℝ => p.processed [.call (specularCall 4)] r.state.link) hr
            rw [hstarts] at hmem
            have hfour : p.processed [.call (specularCall 4)] r.state.link = 4 := by
              simpa using hmem
            rw [← hfour]
            exact (fading_absolute_time hprepare hservice (specularCall 2)).1 r hr
