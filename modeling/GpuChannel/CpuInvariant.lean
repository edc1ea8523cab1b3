/-
# Invariants of the CPU processor

An invariant of the processor is given by a property of lane states, one of links and one
of executions.  `Kept` collects what each elementary operation has to preserve, and
`processSuperposition_keeps` carries it through the passes of a slot.
-/
import GpuChannel.CpuBackend
import GpuChannel.Library.Checked

section CpuInvariant

variable {K : Type} [Field K] [LinearOrder K] [FloorRing K] [Libm K] [Rng K]

/-- The lane state that `ensure_link_state` leaves behind. -/
def ensuredState (key : String) (model : ModelConfig K) (identity : LaneIdentity)
    (old : Option (LinkState K)) : LinkState K :=
  let st := old.getD (LinkState.bound model identity)
  if st.steps.length = model.chain.length then st
  else
    { st with
      steps := prepareSteps key model identity, live := populateMutableParamsFromYaml model }

/-- The context in which a lane runs its chain. -/
def laneContext (st : LinkState K) (link : PhysicalLinkRuntime K) (sampleRateHz : ℕ) :
    ChainContext K :=
  { live := st.live, link := link, laneIndex := st.laneIndex, losCoefficient := st.losCoefficient
    sampleRateHz := sampleRateHz }

/-- **What the elementary operations have to keep.** `M` says which models a key is used with. -/
structure Kept (M : String → ModelConfig K → Prop) (S : String → LinkState K → Prop)
    (L : String → PhysicalLinkRuntime K → Prop) (E : Execution K → Prop) : Prop where
  default : ∀ k, L k PhysicalLinkRuntime.default
  ensured : ∀ key model identity old, M key model → (∀ st, old = some st → S key st) →
    S key (ensuredState key model identity old)
  prepared : ∀ k model live steps count identity link, L k link →
    L k (prepareLink model live steps count identity link)
  fading : ∀ k link fading, L k link → fading.mixing = link.fading.mixing →
    L k { link with fading := fading }
  clock : ∀ k link n, L k link → L k { link with slotStartSamples := n }
  snapped : ∀ k link count, L k link → L k (link.snap count).1
  swept : ∀ key st link count, S key st → L st.link link → (link.snap count).2.valuesChanged = true →
    S key (CpuChannelProcessor.refreshLane (link.snap count).1 (link.snap count).2 st)
  received : ∀ key st link count, S key st → L st.link link →
    (link.snap count).2.valuesChanged = true → S key { st with live := (link.snap count).1.live }
  ran : ∀ key model st link rate input run, M key model → S key st → L st.link link →
    runChain (laneContext st link rate) 0 model.chain st.steps input = .ok run →
    S key { st with steps := run.states } ∧ E ⟨key, model, run.uses⟩

/-- The invariant that the three properties make. -/
structure Holds (S : String → LinkState K → Prop) (L : String → PhysicalLinkRuntime K → Prop)
    (E : Execution K → Prop) (p : CpuChannelProcessor K) : Prop where
  states : ∀ key st, p.states key = some st → S key st
  links : ∀ k link, p.links k = some link → L k link
  executed : ∀ e ∈ p.executed, E e

omit [Libm K] [Rng K] in
/-- Without changed values a snap decides nothing for the lanes. -/
theorem PhysicalLinkRuntime.snap_outcome_of_unchanged (link : PhysicalLinkRuntime K)
    (count : ℕ) (h : (link.snap count).2.valuesChanged = false) : (link.snap count).2 = {} := by
  have hdue : link.due = false := by
    rw [← snapValues_valuesChanged, ← h]
    simp [snap, snapWarmup]
  have hchanged := link.snapValues_valuesChanged
  rw [hdue] at hchanged
  unfold snap
  rw [snapProfile_of_unchanged _ hchanged, snapMatrix_of_unchanged _ hchanged,
    snapCorrelation_of_unchanged _ hchanged, snapValues_of_not_due link hdue]
  rfl

/-- One sibling of the sweep. -/
def sweepSibling (f : LinkState K → LinkState K) (k : String)
    (states : String → Option (LinkState K)) (sibling : SuperpositionInput K) :
    String → Option (LinkState K) :=
  match states sibling.linkKey with
  | some st =>
      if st.link = k then Function.update states sibling.linkKey (some (f st)) else states
  | none => states

/-! ## One operation -/

namespace CpuChannelProcessor

variable {M : String → ModelConfig K → Prop} {S : String → LinkState K → Prop}
  {L : String → PhysicalLinkRuntime K → Prop} {E : Execution K → Prop}
  {p : CpuChannelProcessor K}

omit [Field K] [LinearOrder K] [FloorRing K] [Libm K] [Rng K] in
/-- A link that is replaced by one of its kind keeps the invariant. -/
theorem update_links_holds (h : Holds S L E p) {k : String} {o : Option (PhysicalLinkRuntime K)}
    (ho : ∀ link, o = some link → L k link) :
    Holds S L E { p with links := Function.update p.links k o } := by
  refine ⟨h.states, ?_, h.executed⟩
  intro k' link hlink
  dsimp only at hlink
  by_cases hk : k' = k
  · subst hk
    rw [Function.update_self] at hlink
    exact ho link hlink
  · rw [Function.update_of_ne hk] at hlink
    exact h.links k' link hlink

omit [Field K] [LinearOrder K] [FloorRing K] [Libm K] [Rng K] in
/-- A lane state of its kind keeps the invariant. -/
theorem update_states_holds (h : Holds S L E p) {key : String} {st : LinkState K} (hst : S key st) :
    Holds S L E { p with states := Function.update p.states key (some st) } := by
  refine ⟨?_, h.links, h.executed⟩
  intro key' st' hst'
  dsimp only at hst'
  by_cases hk : key' = key
  · subst hk
    rw [Function.update_self, Option.some.injEq] at hst'
    rwa [← hst']
  · rw [Function.update_of_ne hk] at hst'
    exact h.states key' st' hst'

variable (hkept : Kept M S L E)
include hkept

/-- Entering a lane whose model is allowed keeps the invariant. -/
theorem ensureLinkState_holds (h : Holds S L E p) {key : String} {model : ModelConfig K}
    (hm : M key model) (count : ℕ) (identity : LaneIdentity) :
    Holds S L E (p.ensureLinkState key model count identity) := by
  have hens := hkept.ensured key model identity (p.states key) hm (h.states key)
  cases hkey : p.states key with
  -- the lane was there: nothing to do, or its steps are prepared anew
  | some st =>
      rw [hkey, ensuredState, Option.getD_some] at hens
      unfold ensureLinkState bindState
      rw [hkey]
      dsimp only
      rw [hkey]
      dsimp only
      by_cases hlen : st.steps.length = model.chain.length
      · rw [if_pos hlen]
        exact h
      · rw [if_neg hlen] at hens ⊢
        refine update_states_holds (p := { p with links := Function.update p.links st.link _ })
          (update_links_holds h ?_) hens
        intro link hlink
        obtain ⟨link₀, hlink₀, rfl⟩ := Option.map_eq_some_iff.mp hlink
        exact hkept.prepared _ _ _ _ _ _ _ (h.links _ _ hlink₀)
  -- the lane is new: its link is entered as well
  | none =>
      rw [hkey, ensuredState, Option.getD_none] at hens
      have hdefault : L identity.physicalLinkKey
          ((p.links identity.physicalLinkKey).getD PhysicalLinkRuntime.default) := by
        cases hlink : p.links identity.physicalLinkKey with
        | none => exact hkept.default _
        | some link => exact h.links _ _ hlink
      unfold ensureLinkState bindState
      rw [hkey]
      dsimp only
      rw [Function.update_self]
      dsimp only
      by_cases hlen : (LinkState.bound model identity).steps.length = model.chain.length
      · rw [if_pos hlen] at hens ⊢
        refine update_states_holds
          (p := { p with links := Function.update p.links identity.physicalLinkKey _ })
          (update_links_holds h ?_) hens
        rintro _ ⟨⟩
        exact hdefault
      · rw [if_neg hlen] at hens ⊢
        rw [Function.update_idem]
        refine update_states_holds (p := { p with links := Function.update _ _ _ })
          (update_links_holds (p := { p with links := Function.update _ _ _ })
            (update_links_holds h ?_) ?_) hens
        · rintro _ ⟨⟩
          exact hdefault
        · intro link hlink
          have hself : (LinkState.bound model identity).link = identity.physicalLinkKey := rfl
          rw [hself, Function.update_self] at hlink
          obtain ⟨link₀, ⟨⟩, rfl⟩ := Option.map_eq_some_iff.mp hlink
          exact hkept.prepared _ _ _ _ _ _ _ hdefault

/-- The refresh of a lane's grids keeps the invariant. -/
theorem refreshLaneGrids_holds (h : Holds S L E p) (st : LinkState K) (model : ModelConfig K)
    (count rate : ℕ) : Ensures (Holds S L E) (p.refreshLaneGrids st model count rate) := by
  unfold refreshLaneGrids
  cases hlink : p.links st.link with
  | none => exact Ensures.pure h
  | some link =>
      refine Ensures.bind (fun _ _ => trivial) fun grids _ => Ensures.pure ?_
      refine update_links_holds h ?_
      rintro _ ⟨⟩
      exact hkept.fading _ _ _ (h.links _ _ hlink) rfl

/-- The snap of a link keeps the invariant. -/
theorem snapLink_holds (h : Holds S L E p) (inputs : List (SuperpositionInput K)) (k : String)
    (count : ℕ) : Holds S L E (p.snapLink inputs k count) := by
  unfold snapLink
  cases hlink : p.links k with
  | none => exact h
  | some link =>
      have hbegun : L k { link with fading := link.fading.beginSlot } :=
        hkept.fading _ _ _ (h.links _ _ hlink) rfl
      dsimp only
      generalize { link with fading := link.fading.beginSlot } = begun at hbegun ⊢
      have hp : Holds S L E
          { p with links := Function.update p.links k (some (begun.snap count).1) } := by
        refine update_links_holds h ?_
        rintro _ ⟨⟩
        exact hkept.snapped _ _ _ hbegun
      cases hvalues : (begun.snap count).2.valuesChanged with
      | false =>
          rw [begun.snap_outcome_of_unchanged count hvalues, if_neg (by simp)]
          exact hp
      | true =>
          rw [if_pos (Or.inl rfl)]
          refine ⟨?_, hp.links, hp.executed⟩
          -- the sweep changes one lane state after the other
          have hsweep : ∀ (l : List (SuperpositionInput K)) (states : String → Option (LinkState K)),
              (∀ key st, states key = some st → S key st) →
              ∀ key st, l.foldl (sweepSibling (refreshLane (begun.snap count).1
                (begun.snap count).2) k) states key = some st → S key st := by
            intro l
            induction l with
            | nil => exact fun states hstates => hstates
            | cons sibling l ih =>
                intro states hstates
                rw [List.foldl_cons]
                apply ih
                intro key st hst
                unfold sweepSibling at hst
                cases hsib : states sibling.linkKey with
                | none =>
                    rw [hsib] at hst
                    exact hstates key st hst
                | some st₀ =>
                    rw [hsib] at hst
                    dsimp only at hst
                    split_ifs at hst with hk
                    · by_cases hkey : key = sibling.linkKey
                      · subst hkey
                        rw [Function.update_self, Option.some.injEq] at hst
                        rw [← hst]
                        exact hkept.swept _ _ _ _ (hstates _ _ hsib) (hk ▸ hbegun) hvalues
                      · rw [Function.update_of_ne hkey] at hst
                        exact hstates key st hst
                    · exact hstates key st hst
          exact hsweep inputs p.states h.states

/-- Mixing a link's grids keeps the invariant. -/
theorem mixLink_holds (h : Holds S L E p) (k : String) :
    Ensures (Holds S L E) (p.mixLink k) := by
  unfold mixLink
  cases hlink : p.links k with
  | none => exact Ensures.pure h
  | some link =>
      have hmixing : Ensures (fun fading => fading.mixing = link.fading.mixing)
          link.fading.applyMixing := by
        unfold PhysicalLinkFading.applyMixing
        split_ifs
        · exact Ensures.pure rfl
        · exact Ensures.throw
        · exact Ensures.pure rfl
      refine hmixing.bind fun fading hf => Ensures.pure (update_links_holds h ?_)
      rintro _ ⟨⟩
      exact hkept.fading _ _ _ (h.links _ _ hlink) hf

/-- The chain of one lane keeps the invariant. -/
theorem applyChainToLink_holds (h : Holds S L E p) {key : String} {model : ModelConfig K}
    (hm : M key model) (input : List (Iq K)) (rate : ℕ) :
    Ensures (fun r => Holds S L E r.1) (p.applyChainToLink key model input rate) := by
  unfold applyChainToLink
  split_ifs
  · exact Ensures.pure h
  · have hp := ensureLinkState_holds hkept h hm input.length { physicalLinkKey := key }
    dsimp only
    generalize p.ensureLinkState key model input.length { physicalLinkKey := key } = q at hp ⊢
    cases hst : q.states key with
    | none => exact Ensures.pure hp
    | some st =>
        have hlink : L st.link ((q.links st.link).getD PhysicalLinkRuntime.default) := by
          cases hlink : q.links st.link with
          | none => exact hkept.default _
          | some link => exact hp.links _ _ hlink
        have hrun : Ensures (fun run : ChainRun K =>
            S key { st with steps := run.states } ∧ E ⟨key, model, run.uses⟩)
            (runChain (laneContext st ((q.links st.link).getD PhysicalLinkRuntime.default) rate) 0
              model.chain st.steps input) :=
          fun run hrun => hkept.ran _ _ _ _ _ _ _ hm (hp.states _ _ hst) hlink hrun
        refine hrun.bind fun run hr => Ensures.pure ?_
        have hupdated := update_states_holds hp hr.1
        refine ⟨hupdated.states, hupdated.links, ?_⟩
        intro e he
        rcases List.mem_append.mp he with he | he
        · exact hp.executed e he
        · rw [List.mem_singleton.mp he]
          exact hr.2

/-! ## The passes -/

/-- The generating pass over one lane keeps the invariant. -/
theorem generateLane_holds (inputs : List (SuperpositionInput K)) (count rate : ℕ)
    {acc : CpuChannelProcessor K × List String} (h : Holds S L E acc.1)
    {lane : SuperpositionInput K} (hm : ∀ model, lane.model = some model → M lane.linkKey model) :
    Ensures (fun r => Holds S L E r.1) (generateLane inputs count rate acc lane) := by
  unfold generateLane
  cases hmodel : lane.model with
  | none => exact Ensures.throw
  | some model =>
      have hp := ensureLinkState_holds hkept h (hm model hmodel) count
        { physicalLinkKey := lane.linkKey }
      dsimp only
      generalize acc.1.ensureLinkState lane.linkKey model count
        { physicalLinkKey := lane.linkKey } = q at hp ⊢
      cases hst : q.states lane.linkKey with
      | none => exact Ensures.pure hp
      | some st =>
          have hq : Holds S L E (if st.link ∉ acc.2 then q.snapLink inputs st.link count else q) := by
            split_ifs
            · exact hp
            · exact snapLink_holds hkept hp inputs st.link count
          exact (refreshLaneGrids_holds hkept hq _ model count rate).bind
            fun r hr => Ensures.pure hr

/-- The shaping pass over one lane keeps the invariant. -/
theorem shapeLane_holds (count rate : ℕ) {slot : Slot K} (h : Holds S L E slot.proc)
    {lane : SuperpositionInput K} (hm : ∀ model, lane.model = some model → M lane.linkKey model) :
    Ensures (fun slot => Holds S L E slot.proc) (shapeLane count rate slot lane) := by
  unfold shapeLane
  cases hmodel : lane.model with
  | none => exact Ensures.throw
  | some model =>
      dsimp only
      split_ifs
      · exact Ensures.throw
      · exact Ensures.throw
      · exact (applyChainToLink_holds hkept h (hm model hmodel) lane.samples rate).bind
          fun r hr => Ensures.pure hr

/-- The receiver pass over one row keeps the invariant. -/
theorem receiveRow_holds {dstKey : String} {model : ModelConfig K} (count rate : ℕ) {slot : Slot K}
    (h : Holds S L E slot.proc) {r : ℕ} (hm : M (rxStateKey dstKey r slot.rows.length) model) :
    Ensures (fun slot => Holds S L E slot.proc) (receiveRow dstKey model count rate slot r) := by
  unfold receiveRow
  have hp := ensureLinkState_holds hkept h hm count
    { physicalLinkKey := rxStateKey dstKey r slot.rows.length }
  dsimp only
  generalize slot.proc.ensureLinkState (rxStateKey dstKey r slot.rows.length) model count
    { physicalLinkKey := rxStateKey dstKey r slot.rows.length } = q at hp ⊢
  cases hst : q.states (rxStateKey dstKey r slot.rows.length) with
  | none => exact Ensures.pure h
  | some st =>
      dsimp only
      cases hlink : q.links st.link with
      | none => exact Ensures.pure h
      | some link =>
          have hbegun : L st.link { link with fading := link.fading.beginSlot } :=
            hkept.fading _ _ _ (hp.links _ _ hlink) rfl
          dsimp only
          generalize { link with fading := link.fading.beginSlot } = begun at hbegun ⊢
          have hlive : S (rxStateKey dstKey r slot.rows.length)
              (if (begun.snap count).2.valuesChanged then { st with live := (begun.snap count).1.live }
                else st) := by
            split_ifs with hvalues
            · exact hkept.received _ _ _ _ (hp.states _ _ hst) hbegun hvalues
            · exact hp.states _ _ hst
          have hq := update_links_holds (update_states_holds hp hlive) (k := st.link)
            (o := some (begun.snap count).1) (by
              rintro _ ⟨⟩
              exact hkept.snapped _ _ _ hbegun)
          have hlinkEq : (if (begun.snap count).2.valuesChanged then
              { st with live := (begun.snap count).1.live } else st).link = st.link := by
            split_ifs <;> rfl
          rw [hlinkEq]
          exact (refreshLaneGrids_holds hkept hq _ model count rate).bind fun q' hq' =>
            (applyChainToLink_holds hkept hq' hm _ rate).bind fun r' hr' => Ensures.pure hr'

/-- Moving the clocks keeps the invariant. -/
theorem advanceClocks_holds (h : Holds S L E p) (touched : List String) (count : ℕ) :
    Holds S L E (p.advanceClocks touched count) := by
  unfold advanceClocks
  induction touched generalizing p with
  | nil => exact h
  | cons k touched ih =>
      apply ih
      refine update_links_holds h ?_
      intro link hlink
      obtain ⟨link₀, hlink₀, rfl⟩ := Option.map_eq_some_iff.mp hlink
      exact hkept.clock _ _ _ (h.links _ _ hlink₀)

end CpuChannelProcessor

/-! ## A call -/

/-- The arguments of one call of `process_superposition`. -/
structure SuperpositionCall (K : Type) where
  dstKey : String
  inputs : List (SuperpositionInput K)
  rxModel : Option (ModelConfig K)
  sampleRateHz : ℕ
  rowSizes : List ℕ

/-- Every key of the call is used with a model that `M` allows. -/
structure SuperpositionCall.Uses (M : String → ModelConfig K → Prop) (c : SuperpositionCall K) :
    Prop where
  lane : ∀ lane ∈ c.inputs, ∀ model, lane.model = some model → M lane.linkKey model
  row : ∀ model, c.rxModel = some model → ∀ r < c.rowSizes.length,
    M (rxStateKey c.dstKey r c.rowSizes.length) model

/-- The processor after the call. -/
def CpuChannelProcessor.call (p : CpuChannelProcessor K) (c : SuperpositionCall K) :
    Except String (CpuChannelProcessor K) :=
  Prod.fst <$> p.processSuperposition c.dstKey c.inputs c.rxModel c.sampleRateHz c.rowSizes

section Call

variable {M : String → ModelConfig K → Prop} {S : String → LinkState K → Prop}
  {L : String → PhysicalLinkRuntime K → Prop} {E : Execution K → Prop}
  {p : CpuChannelProcessor K}

/-- The shaping pass keeps the number of rows. -/
theorem CpuChannelProcessor.shapeLane_rows (count rate : ℕ) (slot : Slot K) (lane : SuperpositionInput K) :
    Ensures (fun slot' => slot'.rows.length = slot.rows.length)
      (shapeLane count rate slot lane) := by
  unfold shapeLane
  cases lane.model with
  | none => exact Ensures.throw
  | some model =>
      dsimp only
      split_ifs
      · exact Ensures.throw
      · exact Ensures.throw
      · exact Ensures.bind (fun _ _ => trivial) fun r _ => Ensures.pure (List.length_modify ..)

/-- The receiver pass keeps the number of rows. -/
theorem CpuChannelProcessor.receiveRow_rows (dstKey : String) (model : ModelConfig K) (count rate : ℕ) (slot : Slot K)
    (r : ℕ) : Ensures (fun slot' => slot'.rows.length = slot.rows.length)
      (receiveRow dstKey model count rate slot r) := by
  unfold receiveRow
  dsimp only
  cases (slot.proc.ensureLinkState (rxStateKey dstKey r slot.rows.length) model count
    { physicalLinkKey := rxStateKey dstKey r slot.rows.length }).states
      (rxStateKey dstKey r slot.rows.length) with
  | none => exact Ensures.pure rfl
  | some st =>
      dsimp only
      cases (slot.proc.ensureLinkState (rxStateKey dstKey r slot.rows.length) model count
        { physicalLinkKey := rxStateKey dstKey r slot.rows.length }).links st.link with
      | none => exact Ensures.pure rfl
      | some link =>
          exact Ensures.bind (fun _ _ => trivial) fun q _ =>
            Ensures.bind (fun _ _ => trivial) fun r' _ => Ensures.pure (List.length_set ..)

/-- **One call keeps the invariant.** -/
theorem CpuChannelProcessor.call_holds (hkept : Kept M S L E) (h : Holds S L E p)
    {c : SuperpositionCall K} (hc : c.Uses M) : Ensures (Holds S L E) (p.call c) := by
  suffices hall : Ensures (fun r : CpuChannelProcessor K × List (List (Iq K)) => Holds S L E r.1)
      (p.processSuperposition c.dstKey c.inputs c.rxModel c.sampleRateHz c.rowSizes) by
    intro q hq
    unfold call at hq
    cases hp : p.processSuperposition c.dstKey c.inputs c.rxModel c.sampleRateHz c.rowSizes with
    | error e =>
        rw [hp] at hq
        cases hq
    | ok r =>
        rw [hp] at hq
        cases hq
        exact hall r hp
  unfold processSuperposition
  cases hsizes : c.rowSizes with
  | nil => exact Ensures.pure h
  | cons count sizes =>
      dsimp only
      split_ifs
      · exact Ensures.throw
      · exact Ensures.pure h
      -- the four passes of a call, each of which keeps the invariant
      have hgenerated : Ensures (fun r : CpuChannelProcessor K × List String => Holds S L E r.1)
          (c.inputs.foldlM (generateLane c.inputs count c.sampleRateHz) (p, [])) :=
        Ensures.foldlM (P := fun r : CpuChannelProcessor K × List String => Holds S L E r.1) h
          fun lane hlane r hr => generateLane_holds hkept c.inputs count c.sampleRateHz hr
            (hc.lane lane hlane)
      refine hgenerated.bind fun generated hgen => ?_
      have hmixed : Ensures (Holds S L E) (generated.2.foldlM mixLink generated.1) :=
        Ensures.foldlM hgen fun k _ q hq => mixLink_holds hkept hq k
      refine hmixed.bind fun q hq => ?_
      have hshaped : Ensures (fun slot : Slot K => Holds S L E slot.proc ∧
          slot.rows.length = c.rowSizes.length)
          (c.inputs.foldlM (shapeLane count c.sampleRateHz)
            ⟨q, [], (count :: sizes).map fun size => List.replicate size 0⟩) := by
        refine Ensures.foldlM (P := fun slot : Slot K => Holds S L E slot.proc ∧
          slot.rows.length = c.rowSizes.length) ⟨hq, ?_⟩ ?_
        · rw [hsizes, List.length_map]
        · intro lane hlane slot hslot slot' hok
          exact ⟨shapeLane_holds hkept count c.sampleRateHz hslot.1 (hc.lane lane hlane) slot' hok,
            (shapeLane_rows count c.sampleRateHz slot lane slot' hok).trans hslot.2⟩
      refine hshaped.bind fun slot hslot => ?_
      cases hmodel : c.rxModel with
      | none => exact Ensures.pure (advanceClocks_holds hkept hslot.1 _ _)
      | some model =>
          have hreceived : Ensures (fun slot : Slot K => Holds S L E slot.proc ∧
              slot.rows.length = c.rowSizes.length)
              ((List.range ((count :: sizes).map fun size => List.replicate size (0 : Iq K)).length).foldlM
                (receiveRow c.dstKey model count c.sampleRateHz) slot) := by
            refine Ensures.foldlM (P := fun slot : Slot K => Holds S L E slot.proc ∧
              slot.rows.length = c.rowSizes.length) hslot ?_
            intro r hr slot₁ hslot₁ slot₂ hok
            have hr' : r < c.rowSizes.length := by
              rw [hsizes]
              simpa using hr
            refine ⟨receiveRow_holds hkept count c.sampleRateHz hslot₁.1 ?_ slot₂ hok,
              (receiveRow_rows c.dstKey model count c.sampleRateHz slot₁ r slot₂ hok).trans hslot₁.2⟩
            rw [hslot₁.2]
            exact hc.row model hmodel r hr'
          exact hreceived.bind fun slot₁ hslot₁ =>
            Ensures.pure (advanceClocks_holds hkept hslot₁.1 _ _)

/-- **A run of calls keeps the invariant.** -/
theorem CpuChannelProcessor.calls_hold (hkept : Kept M S L E) (h : Holds S L E p)
    {calls : List (SuperpositionCall K)} (hc : ∀ c ∈ calls, c.Uses M) :
    Ensures (Holds S L E) (calls.foldlM call p) :=
  Ensures.foldlM h fun c hmem _ hq => call_holds hkept hq (hc c hmem)

end Call

/-! ## The prepared processor -/

/-- Every key that `prepare` creates is used with a model that `M` allows. -/
structure TopologyConfig.Uses (M : String → ModelConfig K → Prop) (config : TopologyConfig K) :
    Prop where
  lane : ∀ resolved, resolveTopology config = .ok resolved → ∀ lane ∈ resolved.lanes,
    ∀ model, config.findModel lane.modelId = some model → M lane.key model
  row : ∀ node ∈ resolveNodes config, ∀ model, config.findModel node.rxModel = some model →
    ∀ r < node.rxPorts.length, M (rxStateKey node.id r node.rxPorts.length) model

omit [FloorRing K] [Libm K] [Rng K] in
/-- The resolved nodes are the nodes of the configuration. -/
theorem resolveTopology_nodes {config : TopologyConfig K} {resolved : ResolvedTopology}
    (h : resolveTopology config = .ok resolved) : resolved.nodes = resolveNodes config := by
  unfold resolveTopology at h
  obtain ⟨lanes, -, h⟩ := bind_eq_ok h
  cases h
  rfl

section Prepare

variable {M : String → ModelConfig K → Prop} {S : String → LinkState K → Prop}
  {L : String → PhysicalLinkRuntime K → Prop} {E : Execution K → Prop}
  {p : CpuChannelProcessor K}

omit [Field K] [LinearOrder K] [FloorRing K] [Libm K] [Rng K] in
/-- A change of a link within its kind keeps the invariant. -/
theorem CpuChannelProcessor.modifyLink_holds (h : Holds S L E p) {k : String}
    {f : PhysicalLinkRuntime K → PhysicalLinkRuntime K} (hf : ∀ link, L k link → L k (f link)) :
    Holds S L E (p.modifyLink k f) := by
  refine update_links_holds h ?_
  intro link hlink
  obtain ⟨link₀, hlink₀, rfl⟩ := Option.map_eq_some_iff.mp hlink
  exact hf _ (h.links _ _ hlink₀)

namespace CpuChannelProcessor

variable (hkept : Kept M S L E)
include hkept

/-- Preparing a lane keeps the invariant. -/
theorem prepareLane_holds
    (hflag : ∀ k link flag, L k link →
      L k { link with control := { link.control with fixedMimoDeclared := flag } })
    {config : TopologyConfig K} (resolved : ResolvedTopology) {lane : LaneConfig}
    (hm : ∀ model, config.findModel lane.modelId = some model → M lane.key model)
    (h : Holds S L E p) : Holds S L E (prepareLane config resolved p lane) := by
  unfold prepareLane
  cases hmodel : config.findModel lane.modelId with
  | none => exact h
  | some model =>
      cases resolved.nodes.find? (·.id = lane.dstNode) with
      | none => exact h
      | some destination =>
          have hens := ensureLinkState_holds hkept h (hm model hmodel)
            (resolveBatchSamples config.runtime destination.sampleRateHz)
            { physicalLinkKey := lane.physicalLinkKey, rxPort := lane.rxPort
              txPort := lane.txPort, nt := lane.nt, nr := lane.nr }
          dsimp only
          split
          · exact modifyLink_holds hens fun link hlink => hflag _ _ _ hlink
          · exact hens

omit [FloorRing K] [Rng K] hkept in
/-- Preparing the lanes of a link keeps the invariant. -/
theorem prepareGroup_holds
    (hmixing : ∀ k link lanes mixing, L k link →
      L k { link with fading := { link.fading with lanes := lanes, mixing := mixing } })
    (config : TopologyConfig K) (resolved : ResolvedTopology) (group : LinkLaneGroup)
    (h : Holds S L E p) : Ensures (Holds S L E) (prepareGroup config resolved p group) := by
  unfold prepareGroup
  split
  · exact Ensures.pure h
  · split
    · exact Ensures.pure h
    · split_ifs
      · exact Ensures.pure (modifyLink_holds h fun link hlink => hmixing _ _ _ _ hlink)
      · split
        · exact Ensures.throw
        · exact Ensures.pure (modifyLink_holds h fun link hlink => hmixing _ _ _ _ hlink)

/-- Preparing the rows of a node keeps the invariant. -/
theorem prepareRows_holds {config : TopologyConfig K} {node : ResolvedNode}
    (hm : ∀ model, config.findModel node.rxModel = some model →
      ∀ r < node.rxPorts.length, M (rxStateKey node.id r node.rxPorts.length) model)
    (h : Holds S L E p) : Holds S L E (prepareRows config p node) := by
  unfold prepareRows
  split_ifs
  · exact h
  · cases hmodel : config.findModel node.rxModel with
    | none => exact h
    | some model =>
        refine List.foldlRecOn _ _ h fun q hq r hr => ?_
        have hens := ensureLinkState_holds hkept hq (hm model hmodel r (List.mem_range.mp hr))
          (resolveBatchSamples config.runtime node.sampleRateHz)
          { physicalLinkKey := rxStateKey node.id r node.rxPorts.length }
        exact ⟨hens.states, hens.links, hens.executed⟩

/-- **`prepare` establishes the invariant.** -/
theorem prepare_holds
    (hflag : ∀ k link flag, L k link →
      L k { link with control := { link.control with fixedMimoDeclared := flag } })
    (hmixing : ∀ k link lanes mixing, L k link →
      L k { link with fading := { link.fading with lanes := lanes, mixing := mixing } })
    {config : TopologyConfig K} (hc : config.Uses M) : Ensures (Holds S L E) (prepare config) := by
  have hempty : Holds S L E (CpuChannelProcessor.empty : CpuChannelProcessor K) :=
    ⟨fun _ _ h => absurd h (by simp [empty]), fun _ _ h => absurd h (by simp [empty]),
      fun _ h => absurd h (by simp [empty])⟩
  unfold prepare
  split_ifs
  · exact Ensures.throw
  intro p hp
  obtain ⟨resolved, hresolved, hp⟩ := bind_eq_ok hp
  have hlanes : Holds S L E (resolved.lanes.foldl (prepareLane config resolved) empty) :=
    List.foldlRecOn _ _ hempty fun q hq lane hlane =>
      prepareLane_holds hkept hflag resolved (hc.lane resolved hresolved lane hlane) hq
  obtain ⟨q, hq, hp⟩ := bind_eq_ok hp
  have hgroups : Holds S L E q :=
    Ensures.foldlM (P := Holds S L E) hlanes
      (fun group _ q hq => prepareGroup_holds hmixing config resolved group hq) q hq
  cases hp
  refine List.foldlRecOn _ _ hgroups fun q hq node hnode => ?_
  rw [resolveTopology_nodes hresolved] at hnode
  exact prepareRows_holds hkept (hc.row node hnode) hq

end CpuChannelProcessor

end Prepare

end CpuInvariant
