/-
# The clock of a physical link

`process_superposition` evaluates the fading of every lane at the clock of the lane's link, which it
advances once, behind the last lane of the call.  No pass of a call moves a clock, so every visit of
every lane of a link reads the time at which the call began; and over a run the clock of a link
counts the samples of the calls that had a lane or a row of it.

What the fading of a lane is drawn from, the state of its rays and its LOS coefficient, is fixed
when the lane is prepared, and neither a call nor a publication changes it while the lane is used
with one model.
-/
import GpuChannel.CallOutcome
import GpuChannel.CfoPhase

section LinkClock

variable {K : Type} [Field K] [LinearOrder K] [FloorRing K] [Libm K] [Rng K]

open CpuChannelProcessor

/-! ## What the fading of a lane is drawn from -/

/-- **The same lane**: its link, its place in it, its LOS coefficient and its rays. -/
structure SameLane (a b : LinkState K) : Prop where
  link : b.link = a.link
  laneIndex : b.laneIndex = a.laneIndex
  losCoefficient : b.losCoefficient = a.losCoefficient
  fading : b.steps.map (·.tdlFading) = a.steps.map (·.tdlFading)

namespace SameLane

variable {a b c : LinkState K}

omit [Field K] [LinearOrder K] [FloorRing K] [Libm K] [Rng K] in
/-- A lane is the same as itself. -/
theorem refl (a : LinkState K) : SameLane a a := ⟨rfl, rfl, rfl, rfl⟩

omit [Field K] [LinearOrder K] [FloorRing K] [Libm K] [Rng K] in
/-- Sameness of lanes is symmetric. -/
theorem symm (h : SameLane a b) : SameLane b a :=
  ⟨h.link.symm, h.laneIndex.symm, h.losCoefficient.symm, h.fading.symm⟩

omit [Field K] [LinearOrder K] [FloorRing K] [Libm K] [Rng K] in
/-- Sameness of lanes is transitive. -/
theorem trans (h : SameLane a b) (h' : SameLane b c) : SameLane a c :=
  ⟨h'.link.trans h.link, h'.laneIndex.trans h.laneIndex,
    h'.losCoefficient.trans h.losCoefficient, h'.fading.trans h.fading⟩

omit [Field K] [LinearOrder K] [FloorRing K] [Libm K] [Rng K] in
/-- The same lane has as many step states. -/
theorem length (h : SameLane a b) : b.steps.length = a.steps.length := by
  have hlen := congrArg List.length h.fading
  rwa [List.length_map, List.length_map] at hlen

omit [Field K] [LinearOrder K] [FloorRing K] [Libm K] [Rng K] in
/-- The rays of one step. -/
theorem step (h : SameLane a b) {i : ℕ} {st : StepState K} (hst : b.steps[i]? = some st) :
    ∃ st', a.steps[i]? = some st' ∧ st'.tdlFading = st.tdlFading := by
  have hat : (a.steps.map (·.tdlFading))[i]? = some st.tdlFading := by
    rw [← h.fading, List.getElem?_map, hst]
    rfl
  rw [List.getElem?_map] at hat
  exact Option.map_eq_some_iff.mp hat

/-- Lanes that are the same are prepared alike. -/
theorem ensured (h : SameLane a b) (key : String) (model : ModelConfig K)
    (identity : LaneIdentity) :
    SameLane (ensuredState key model identity (some a))
      (ensuredState key model identity (some b)) := by
  unfold ensuredState
  dsimp only
  rw [Option.getD_some, Option.getD_some, h.length]
  split_ifs
  · exact h
  · exact ⟨h.link, h.laneIndex, h.losCoefficient, rfl⟩

end SameLane

/-- A step keeps the rays. -/
theorem runStep_tdlFading (ctx : ChainContext K) (i : ℕ) (step : ModelStep K) (use : StepUse K)
    (st : StepState K) (current : List (Iq K)) :
    Ensures (fun r => r.2.tdlFading = st.tdlFading) (runStep ctx i step use st current) := by
  cases use with
  | pathLoss db => exact Ensures.pure rfl
  | gain db => exact Ensures.pure rfl
  | noisePower power => exact Ensures.pure rfl
  | noiseSnr db => exact Ensures.pure rfl
  | rotation phaseRad cfoHz => exact Ensures.pure rfl
  | tdl taps polyphase => exact Ensures.bind (fun _ _ => trivial) fun shaped _ => Ensures.pure rfl

/-- No step of a chain writes the grids of a fading step. -/
theorem runChain_tdlFading (ctx : ChainContext K) (i : ℕ) (chain : List (ModelStep K))
    (states : List (StepState K)) (current : List (Iq K)) :
    Ensures (fun run => run.states.map (·.tdlFading) = states.map (·.tdlFading))
      (runChain ctx i chain states current) := by
  induction chain generalizing i states current with
  | nil =>
      unfold runChain
      exact Ensures.pure rfl
  | cons step chain ih =>
      cases states with
      | nil =>
          unfold runChain
          exact Ensures.pure rfl
      | cons st states =>
          unfold runChain
          refine Ensures.bind (fun _ _ => trivial) fun use _ => ?_
          refine (runStep_tdlFading ctx i step use st current).bind ?_
          rintro ⟨next, st'⟩ hfading
          refine (ih (i + 1) states next).bind fun rest hrest => Ensures.pure ?_
          exact congrArg₂ List.cons hfading hrest

omit [Rng K] in
/-- The sweep behind a snap keeps the rays. -/
theorem sameLane_refreshLane (link : PhysicalLinkRuntime K) (outcome : LinkSnapOutcome)
    (st : LinkState K) : SameLane st (refreshLane link outcome st) := by
  have hreset : ∀ profile : Option (ProfileShadow K),
      (resetSteps profile st.steps).map (·.tdlFading) = st.steps.map (·.tdlFading) := by
    intro profile
    unfold resetSteps
    rw [List.map_map]
    cases profile with
    | none => rfl
    | some profile =>
        cases st.steps with
        | nil => rfl
        | cons step steps => rfl
  rw [refreshLane_eq]
  refine ⟨rfl, rfl, rfl, ?_⟩
  dsimp only
  split_ifs
  · exact hreset _
  · rfl

/-! ## Between two readings of the clock -/

namespace CpuChannelProcessor

/-- The clock of a link.  One that does not exist yet will start at zero. -/
def clock (p : CpuChannelProcessor K) (k : String) : ℕ :=
  ((p.links k).map (·.slotStartSamples)).getD 0

/-- The link in which the state of a key stands, or will stand once a call makes it. -/
def home (p : CpuChannelProcessor K) (key : String) : String :=
  ((p.states key).map (·.link)).getD key

/-- The lane of a key as a call with this model finds it. -/
def lane (p : CpuChannelProcessor K) (key : String) (model : ModelConfig K) : LinkState K :=
  ensuredState key model { physicalLinkKey := key } (p.states key)

end CpuChannelProcessor

omit [Field K] [LinearOrder K] [FloorRing K] [Libm K] [Rng K] in
/-- The clock of a link that is there. -/
theorem clock_of_link {p : CpuChannelProcessor K} {k : String} {link : PhysicalLinkRuntime K}
    (h : p.links k = some link) : p.clock k = link.slotStartSamples := by
  unfold CpuChannelProcessor.clock
  rw [h]
  rfl

omit [Field K] [LinearOrder K] [FloorRing K] [Libm K] [Rng K] in
/-- The link of a lane that is there. -/
theorem home_of_state {p : CpuChannelProcessor K} {key : String} {st : LinkState K}
    (h : p.states key = some st) : p.home key = st.link := by
  unfold CpuChannelProcessor.home
  rw [h]
  rfl

/-- Every state stands in a link that exists. -/
abbrev Linked (p : CpuChannelProcessor K) : Prop := Housed (fun _ _ => True) p

/-- **Nothing that the fading reads is disturbed**: no clock, no lane and no link. -/
structure Undisturbed (p q : CpuChannelProcessor K) : Prop where
  clock : ∀ k, q.clock k = p.clock k
  lanes : ∀ key, Option.Rel SameLane (p.states key) (q.states key)
  linked : ∀ k, (p.links k).isSome = true → (q.links k).isSome = true

omit [Field K] [LinearOrder K] [FloorRing K] [Libm K] [Rng K] in
/-- A slot of lane states is related to itself. -/
theorem optionRel_refl (o : Option (LinkState K)) : Option.Rel SameLane o o := by
  cases o with
  | none => exact Option.Rel.none
  | some st => exact Option.Rel.some (SameLane.refl st)

namespace Undisturbed

variable {p q r : CpuChannelProcessor K}

omit [Field K] [LinearOrder K] [FloorRing K] [Libm K] [Rng K] in
/-- Nothing is disturbed by nothing. -/
theorem refl (p : CpuChannelProcessor K) : Undisturbed p p :=
  ⟨fun _ => rfl, fun _ => optionRel_refl _, fun _ => id⟩

omit [Field K] [LinearOrder K] [FloorRing K] [Libm K] [Rng K] in
/-- Two passes that disturb nothing disturb nothing together. -/
theorem trans (h : Undisturbed p q) (h' : Undisturbed q r) : Undisturbed p r := by
  refine ⟨fun k => (h'.clock k).trans (h.clock k), ?_, fun k hk => h'.linked k (h.linked k hk)⟩
  intro key
  have hpq := h.lanes key
  have hqr := h'.lanes key
  revert hpq hqr
  generalize p.states key = x
  generalize q.states key = y
  generalize r.states key = z
  rintro (hpq | _) hqr
  · cases hqr with
    | some hqr => exact Option.Rel.some (SameLane.trans ‹_› hqr)
  · exact hqr

omit [Field K] [LinearOrder K] [FloorRing K] [Libm K] [Rng K] in
/-- The lane of a key that has a state. -/
theorem lane_of_some (h : Undisturbed p q) {key : String} {st : LinkState K}
    (hst : p.states key = some st) : ∃ st', q.states key = some st' ∧ SameLane st st' := by
  have hlane := h.lanes key
  rw [hst] at hlane
  generalize q.states key = o at hlane ⊢
  cases hlane with
  | some hsame => exact ⟨_, rfl, hsame⟩

omit [Field K] [LinearOrder K] [FloorRing K] [Libm K] [Rng K] in
/-- A link changes but keeps its clock. -/
theorem setLink {k : String} {link : PhysicalLinkRuntime K}
    (hclock : link.slotStartSamples = p.clock k) :
    Undisturbed p { p with links := Function.update p.links k (some link) } := by
  refine ⟨?_, fun _ => optionRel_refl _, ?_⟩
  · intro k'
    by_cases hk : k' = k
    · subst hk
      rw [clock_of_link (Function.update_self ..)]
      exact hclock
    · unfold CpuChannelProcessor.clock
      dsimp only
      rw [Function.update_of_ne hk]
  · intro k' hk'
    dsimp only
    by_cases hk : k' = k
    · subst hk
      rw [Function.update_self]
      rfl
    · rwa [Function.update_of_ne hk]

omit [Field K] [LinearOrder K] [FloorRing K] [Libm K] [Rng K] in
/-- A state is replaced by one of the same lane. -/
theorem setState {key : String} {st st' : LinkState K} (hst : p.states key = some st)
    (h : SameLane st st') :
    Undisturbed p { p with states := Function.update p.states key (some st') } := by
  refine ⟨fun _ => rfl, ?_, fun _ => id⟩
  intro key'
  dsimp only
  by_cases hk : key' = key
  · subst hk
    rw [Function.update_self, hst]
    exact Option.Rel.some h
  · rw [Function.update_of_ne hk]
    exact optionRel_refl _

omit [Field K] [LinearOrder K] [FloorRing K] [Libm K] [Rng K] in
/-- Recording an execution disturbs no lane and no link. -/
theorem record (h : Undisturbed p q) (executed : List (Execution K)) :
    Undisturbed p { q with executed := executed } :=
  ⟨h.clock, h.lanes, h.linked⟩

/-! ### The operations of a call -/

omit [Field K] [LinearOrder K] [FloorRing K] [Libm K] [Rng K] in
/-- A sweep over the siblings that keeps every lane disturbs nothing. -/
theorem sweep {f : LinkState K → LinkState K} (hf : ∀ st, SameLane st (f st)) (k : String)
    (inputs : List (SuperpositionInput K)) :
    Undisturbed p { p with states := inputs.foldl (sweepSibling f k) p.states } := by
  induction inputs generalizing p with
  | nil => exact refl p
  | cons sibling inputs ih =>
      have hone : Undisturbed p { p with states := sweepSibling f k p.states sibling } := by
        unfold sweepSibling
        cases hst : p.states sibling.linkKey with
        | none => exact refl p
        | some st =>
            dsimp only
            split_ifs
            · exact setState hst (hf st)
            · exact refl p
      exact hone.trans (ih (p := { p with states := sweepSibling f k p.states sibling }))

omit [Rng K] in
/-- The snap of a link moves no clock. -/
theorem snapLink (inputs : List (SuperpositionInput K)) (k : String) (count : ℕ) :
    Undisturbed p (p.snapLink inputs k count) := by
  unfold CpuChannelProcessor.snapLink
  cases hlink : p.links k with
  | none => exact refl p
  | some link =>
      have hset : Undisturbed p
          { p with links := Function.update p.links k (some (link.slotSnap count).1) } :=
        setLink ((slotSnap_slotStartSamples link count).trans (clock_of_link hlink).symm)
      dsimp only
      split_ifs
      · exact hset.trans (sweep (fun st => sameLane_refreshLane (link.slotSnap count).1
          (link.slotSnap count).2 st) k inputs)
      · exact hset

omit [Rng K] in
/-- The refresh of a lane's grids moves no clock. -/
theorem refreshLaneGrids (st : LinkState K) (model : ModelConfig K) (count rate : ℕ) :
    Ensures (Undisturbed p) (p.refreshLaneGrids st model count rate) := by
  unfold CpuChannelProcessor.refreshLaneGrids
  cases hlink : p.links st.link with
  | none => exact Ensures.pure (refl p)
  | some link =>
      exact Ensures.bind (fun _ _ => trivial) fun grids _ =>
        Ensures.pure (setLink (clock_of_link hlink).symm)

omit [LinearOrder K] [FloorRing K] [Libm K] [Rng K] in
/-- Mixing a link's grids moves no clock. -/
theorem mixLink (k : String) : Ensures (Undisturbed p) (p.mixLink k) := by
  unfold CpuChannelProcessor.mixLink
  cases hlink : p.links k with
  | none => exact Ensures.pure (refl p)
  | some link =>
      exact Ensures.bind (fun _ _ => trivial) fun fading _ =>
        Ensures.pure (setLink (clock_of_link hlink).symm)

omit [Field K] [LinearOrder K] [FloorRing K] [Libm K] [Rng K] in
/-- A publication reaches the controls of the links, nothing else. -/
theorem publish (ps : List (Publication K)) :
    Undisturbed p { p with links := p.links.publishAll ps } := by
  have hto : ∀ (k : String) (link : PhysicalLinkRuntime K),
      (LinkTable.publishTo k ps link).slotStartSamples = link.slotStartSamples := by
    intro k link
    unfold LinkTable.publishTo
    induction ps.filter (·.linkId = k) generalizing link with
    | nil => rfl
    | cons one ps ih => exact ih (link.publish one.gate one.update)
  refine ⟨?_, fun _ => optionRel_refl _, ?_⟩
  · intro k
    unfold CpuChannelProcessor.clock
    dsimp only
    rw [LinkTable.publishAll_apply]
    cases p.links k with
    | none => rfl
    | some link => exact hto k link
  · intro k hk
    dsimp only
    rwa [LinkTable.publishAll_apply, Option.isSome_map]

end Undisturbed

/-! ## A key enters -/

omit [LinearOrder K] [FloorRing K] [Libm K] [Rng K] in
/-- Preparing a link leaves its clock alone. -/
theorem prepareLink_slotStartSamples (model : ModelConfig K) (live : MutableParams K)
    (steps : List (StepState K)) (count : ℕ) (identity : LaneIdentity)
    (link : PhysicalLinkRuntime K) :
    (prepareLink model live steps count identity link).slotStartSamples = link.slotStartSamples := by
  unfold prepareLink
  by_cases hfresh : link.control.seqno = 0 ∧ link.liveSeqno = 0
  · rw [if_pos hfresh]
  · rw [if_neg hfresh]

/-- A link that a lane enters keeps its clock. -/
theorem enteredLink_slotStartSamples (key : String) (model : ModelConfig K) (count : ℕ)
    (identity : LaneIdentity) (link : PhysicalLinkRuntime K) :
    (enteredLink key model count identity link).slotStartSamples = link.slotStartSamples := by
  unfold enteredLink
  split_ifs
  · rfl
  · exact prepareLink_slotStartSamples ..

section Ensure

variable (p : CpuChannelProcessor K) (key : String) (model : ModelConfig K) (count : ℕ)
  (identity : LaneIdentity)

/-- **`ensure_link_state` on the states.** -/
theorem ensureLinkState_states :
    (p.ensureLinkState key model count identity).states =
      Function.update p.states key (some (ensuredState key model identity (p.states key))) := by
  cases hst : p.states key with
  | none =>
      rw [ensureLinkState_of_none hst]
  | some st =>
      unfold ensuredState
      dsimp only
      rw [Option.getD_some]
      by_cases hlen : st.steps.length = model.chain.length
      · rw [ensureLinkState_of_length hst hlen, if_pos hlen, ← hst, Function.update_eq_self]
      · rw [if_neg hlen]
        unfold CpuChannelProcessor.ensureLinkState CpuChannelProcessor.bindState
        rw [hst]
        dsimp only
        rw [hst]
        dsimp only
        rw [if_neg hlen]

/-- `ensure_link_state` moves no clock and drops no link. -/
theorem ensureLinkState_clock (k : String) :
    (p.ensureLinkState key model count identity).clock k = p.clock k ∧
      ((p.links k).isSome = true →
        ((p.ensureLinkState key model count identity).links k).isSome = true) := by
  unfold CpuChannelProcessor.clock
  cases hst : p.states key with
  | none =>
      rw [ensureLinkState_of_none hst]
      dsimp only
      -- a new state enters its link and keeps the clock that the link had
      by_cases hk : k = identity.physicalLinkKey
      · subst hk
        rw [Function.update_self]
        refine ⟨?_, fun _ => rfl⟩
        rw [Option.map_some, Option.getD_some, enteredLink_slotStartSamples]
        cases p.links identity.physicalLinkKey with
        | none => rfl
        | some link => rfl
      · rw [Function.update_of_ne hk]
        exact ⟨rfl, id⟩
  | some st =>
      -- a state of the right length is kept, another is bound again
      by_cases hlen : st.steps.length = model.chain.length
      · rw [ensureLinkState_of_length hst hlen]
        exact ⟨rfl, id⟩
      · unfold CpuChannelProcessor.ensureLinkState CpuChannelProcessor.bindState
        rw [hst]
        dsimp only
        rw [hst]
        dsimp only
        rw [if_neg hlen]
        dsimp only
        by_cases hk : k = st.link
        · subst hk
          rw [Function.update_self]
          cases p.links st.link with
          | none => exact ⟨rfl, id⟩
          | some link =>
              refine ⟨?_, fun _ => rfl⟩
              rw [Option.map_some, Option.map_some, Option.getD_some, prepareLink_slotStartSamples]
              rfl
        · rw [Function.update_of_ne hk]
          exact ⟨rfl, id⟩

/-- A key that was entered is not entered again. -/
theorem ensuredState_ensuredState (identity' : LaneIdentity) (old : Option (LinkState K)) :
    ensuredState key model identity' (some (ensuredState key model identity old)) =
      ensuredState key model identity old := by
  have hlen := ensuredState_length key model identity old
  generalize ensuredState key model identity old = st at hlen ⊢
  unfold ensuredState
  dsimp only
  rw [Option.getD_some, if_pos hlen]

end Ensure

/-! ## What a pass keeps -/

/-- **What the passes of a call keep**: the clocks, the links of all keys, and the lane of every key
that `U` uses with one model. -/
structure Keeps (U : String → ModelConfig K → Prop) (p q : CpuChannelProcessor K) : Prop where
  linked : Linked p → Linked q
  links : ∀ k, (p.links k).isSome = true → (q.links k).isSome = true
  clock : ∀ k, q.clock k = p.clock k
  home : ∀ key', q.home key' = p.home key'
  lane : ∀ key model, (∀ model', U key model' → model' = model) →
    SameLane (p.lane key model) (q.lane key model)

/-- A pass that disturbs nothing keeps what is clocked. -/
theorem Undisturbed.keeps {p q : CpuChannelProcessor K} (h : Undisturbed p q)
    (U : String → ModelConfig K → Prop) : Keeps U p q := by
  have hsame : ∀ key', p.states key' = none ∧ q.states key' = none ∨
      ∃ st st', p.states key' = some st ∧ q.states key' = some st' ∧ SameLane st st' := by
    intro key'
    have hlane := h.lanes key'
    generalize p.states key' = x at hlane
    generalize q.states key' = y at hlane
    cases hlane with
    | none => exact .inl ⟨rfl, rfl⟩
    | some hst => exact .inr ⟨_, _, rfl, rfl, hst⟩
  refine ⟨?_, h.linked, h.clock, ?_, ?_⟩
  · intro hp key' st' hst'
    rcases hsame key' with ⟨-, hnone⟩ | ⟨st, st₁, hst, hst₁, hlane⟩
    · rw [hnone] at hst'
      cases hst'
    · obtain rfl := Option.some.inj (hst'.symm.trans hst₁)
      obtain ⟨-, link, hlink⟩ := hp key' st hst
      refine ⟨trivial, Option.isSome_iff_exists.mp ?_⟩
      rw [hlane.link]
      exact h.linked _ (by rw [hlink]; rfl)
  · intro key'
    rcases hsame key' with ⟨hp, hq⟩ | ⟨st, st', hst, hst', hlane⟩
    · unfold CpuChannelProcessor.home
      rw [hp, hq]
    · rw [home_of_state hst, home_of_state hst', hlane.link]
  · intro key model _
    unfold CpuChannelProcessor.lane
    rcases hsame key with ⟨hp, hq⟩ | ⟨st, st', hst, hst', hlane⟩
    · rw [hp, hq]
      exact SameLane.refl _
    · rw [hst, hst']
      exact hlane.ensured key model _

namespace Keeps

variable {U : String → ModelConfig K → Prop} {p q r : CpuChannelProcessor K}

/-- Everything is kept by nothing. -/
theorem refl (p : CpuChannelProcessor K) : Keeps U p p :=
  (Undisturbed.refl p).keeps U

/-- Two passes that keep what is clocked keep it together. -/
theorem trans (h : Keeps U p q) (h' : Keeps U q r) : Keeps U p r :=
  ⟨fun hp => h'.linked (h.linked hp), fun k hk => h'.links k (h.links k hk),
    fun k => (h'.clock k).trans (h.clock k), fun key' => (h'.home key').trans (h.home key'),
    fun key model hone => (h.lane key model hone).trans (h'.lane key model hone)⟩

/-- A key of the call enters with its model. -/
theorem ensureLinkState {key' : String} {model' : ModelConfig K} (hm : U key' model')
    (count : ℕ) :
    Keeps U p (p.ensureLinkState key' model' count { physicalLinkKey := key' }) := by
  have hstates := ensureLinkState_states p key' model' count { physicalLinkKey := key' }
  refine ⟨?_, ?_, ?_, ?_, ?_⟩
  · exact fun hp => (ensureLinkState_housed hp key' model' count _ trivial).1
  · exact fun k => (ensureLinkState_clock p key' model' count _ k).2
  · exact fun k => (ensureLinkState_clock p key' model' count _ k).1
  · intro key₁
    by_cases hk : key₁ = key'
    · subst hk
      rw [home_of_state (by rw [hstates, Function.update_self])]
      cases hst : p.states key₁ with
      | none =>
          rw [ensuredState_link]
          unfold CpuChannelProcessor.home
          rw [hst]
          rfl
      | some st =>
          rw [home_of_state hst]
          unfold ensuredState
          dsimp only
          rw [Option.getD_some]
          split_ifs
          · rfl
          · rfl
    · unfold CpuChannelProcessor.home
      rw [hstates, Function.update_of_ne hk]
  · intro key model hone
    unfold CpuChannelProcessor.lane
    rw [hstates]
    by_cases hk : key' = key
    · subst hk
      obtain rfl := hone model' hm
      rw [Function.update_self, ensuredState_ensuredState]
      exact SameLane.refl _
    · rw [Function.update_of_ne (Ne.symm hk)]
      exact SameLane.refl _

/-- What `apply_chain_to_link` keeps, and the link whose clock it will move. -/
theorem applyChainToLink {key' : String} {model' : ModelConfig K}
    (hm : U key' model') (input : List (Iq K)) (rate : ℕ) :
    Ensures (fun r => Keeps U p r.1 ∧ r.2.1.length = input.length ∧
        (input ≠ [] → r.2.2 = some (p.home key')))
      (p.applyChainToLink key' model' input rate) := by
  unfold CpuChannelProcessor.applyChainToLink
  by_cases hempty : input.isEmpty = true
  · rw [if_pos hempty]
    rw [List.isEmpty_iff] at hempty
    subst hempty
    exact Ensures.pure ⟨refl p, rfl, fun h => absurd rfl h⟩
  · rw [if_neg hempty]
    have hens := ensureLinkState (p := p) hm input.length
    have hstates := ensureLinkState_states p key' model' input.length { physicalLinkKey := key' }
    dsimp only
    generalize p.ensureLinkState key' model' input.length { physicalLinkKey := key' } = q
      at hens hstates ⊢
    have hst : q.states key' =
        some (ensuredState key' model' { physicalLinkKey := key' } (p.states key')) := by
      rw [hstates, Function.update_self]
    have hhome := (home_of_state hst).symm.trans (hens.home key')
    generalize ensuredState key' model' { physicalLinkKey := key' } (p.states key') = st
      at hst hhome
    rw [hst]
    dsimp only
    intro r hr
    obtain ⟨run, hrun, hr⟩ := bind_eq_ok hr
    obtain rfl := Except.ok.inj hr
    have hfading := runChain_tdlFading _ 0 model'.chain st.steps input run hrun
    have hlane : SameLane st { st with steps := run.states } := ⟨rfl, rfl, rfl, hfading⟩
    refine ⟨hens.trans (((Undisturbed.setState hst hlane).record _).keeps U), ?_, ?_⟩
    · exact (runChain_length _ _ _ _ _ _ hrun).1
    · exact fun _ => congrArg some hhome

end Keeps

/-! ## The passes -/

section Passes

variable {U : String → ModelConfig K → Prop} {p : CpuChannelProcessor K}

/-- The pass that generates grids for one lane keeps what is clocked. -/
theorem generateLane_keeps (inputs : List (SuperpositionInput K)) (count rate : ℕ)
    {acc : CpuChannelProcessor K × List String} (h : Keeps U p acc.1)
    {lane : SuperpositionInput K}
    (hm : ∀ model', lane.model = some model' → U lane.linkKey model') :
    Ensures (fun r => Keeps U p r.1) (generateLane inputs count rate acc lane) := by
  unfold generateLane
  cases hmodel : lane.model with
  | none => exact Ensures.throw
  | some model' =>
      have hens := h.trans (Keeps.ensureLinkState (hm model' hmodel) count)
      dsimp only
      generalize acc.1.ensureLinkState lane.linkKey model' count
        { physicalLinkKey := lane.linkKey } = q at hens ⊢
      cases hst : q.states lane.linkKey with
      | none => exact Ensures.pure hens
      | some st =>
          have hq : Keeps U p
              (if st.link ∉ acc.2 then q.snapLink inputs st.link count else q) := by
            split_ifs
            · exact hens
            · exact hens.trans ((Undisturbed.snapLink inputs st.link count).keeps U)
          exact (Undisturbed.refreshLaneGrids _ model' count rate).bind fun r hr =>
            Ensures.pure (hq.trans (hr.keeps U))

/-- **Where the shaping stands** once it worked at `keys`: the touched links are those of the keys,
each once. -/
structure Worked (U : String → ModelConfig K → Prop) (p : CpuChannelProcessor K) (count nr : ℕ)
    (keys : List String) (slot : CpuChannelProcessor.Slot K) : Prop where
  keeps : Keeps U p slot.proc
  nodup : slot.touched.Nodup
  touched : ∀ k, k ∈ slot.touched ↔ k ∈ keys.map p.home
  there : ∀ k ∈ slot.touched, (slot.proc.links k).isSome = true
  rows : slot.rows.length = nr
  row : ∀ row ∈ slot.rows, row.length = count

/-- One more key, and its link touched. -/
theorem Worked.touch {count nr : ℕ} {keys : List String} {slot : CpuChannelProcessor.Slot K}
    (h : Worked U p count nr keys slot) {q : CpuChannelProcessor K}
    (hq : Keeps U slot.proc q) (hp : Linked p) {key' : String}
    (hthere : (q.states key').isSome = true) {rows : List (List (Iq K))}
    (hrows : rows.length = nr) (hrow : ∀ row ∈ rows, row.length = count) :
    Worked U p count nr (keys ++ [key'])
      { proc := q, touched := CpuChannelProcessor.touch slot.touched (some (slot.proc.home key'))
        rows := rows } := by
  have hkeeps := h.keeps.trans hq
  have hhome : slot.proc.home key' = p.home key' := h.keeps.home key'
  have hmem : ∀ k, k ∈ CpuChannelProcessor.touch slot.touched (some (p.home key')) ↔
      k ∈ slot.touched ∨ k = p.home key' := by
    intro k
    constructor
    · exact fun hk => (mem_touch hk).imp id fun hk => (Option.mem_some_iff.mp hk).symm
    · rintro (hk | rfl)
      · exact subset_touch _ _ hk
      · exact mem_touch_self _ _
  rw [hhome]
  refine ⟨hkeeps, nodup_touch h.nodup (some (p.home key')), ?_, ?_, hrows, hrow⟩
  · intro k
    rw [hmem, h.touched, List.map_append, List.mem_append, List.map_singleton, List.mem_singleton]
  · intro k hk
    rcases (hmem k).mp hk with hk | rfl
    · exact hq.links k (h.there k hk)
    · obtain ⟨st, hst⟩ := Option.isSome_iff_exists.mp hthere
      rw [← hkeeps.home key', home_of_state hst]
      exact Option.isSome_iff_exists.mpr (hkeeps.linked hp key' st hst).2

/-- The state of a key is there once its chain ran. -/
theorem applyChainToLink_there {q : CpuChannelProcessor K} {key' : String} {model' : ModelConfig K}
    {input : List (Iq K)} (hinput : input ≠ []) (rate : ℕ) :
    Ensures (fun r => (r.1.states key').isSome = true)
      (q.applyChainToLink key' model' input rate) := by
  unfold CpuChannelProcessor.applyChainToLink
  rw [if_neg (by simpa using hinput)]
  have hstates := ensureLinkState_states q key' model' input.length { physicalLinkKey := key' }
  dsimp only
  generalize q.ensureLinkState key' model' input.length { physicalLinkKey := key' } = q' at hstates ⊢
  rw [hstates, Function.update_self]
  dsimp only
  refine Ensures.bind (fun _ _ => trivial) fun run _ => Ensures.pure ?_
  dsimp only
  rw [Function.update_self]
  rfl

/-- The pass that shapes one lane works on that lane and on no other. -/
theorem shapeLane_worked {count nr : ℕ} (hcount : count ≠ 0) (rate : ℕ) (hp : Linked p)
    {keys : List String} {slot : CpuChannelProcessor.Slot K}
    (h : Worked U p count nr keys slot) {lane : SuperpositionInput K}
    (hm : ∀ model', lane.model = some model' → U lane.linkKey model') :
    Ensures (Worked U p count nr (keys ++ [lane.linkKey]))
      (shapeLane count rate slot lane) := by
  unfold shapeLane
  cases hmodel : lane.model with
  | none => exact Ensures.throw
  | some model' =>
      dsimp only
      split_ifs with hsamples hport
      · exact Ensures.throw
      · exact Ensures.throw
      rw [not_not] at hsamples
      have hne : lane.samples ≠ [] := by
        rintro hnil
        rw [hnil] at hsamples
        exact hcount hsamples.symm
      intro slot' hslot'
      obtain ⟨⟨q, shaped, link⟩, hchain, hslot'⟩ := bind_eq_ok hslot'
      obtain rfl := Except.ok.inj hslot'
      obtain ⟨hq, hlength, hlink⟩ :=
        Keeps.applyChainToLink (hm model' hmodel) lane.samples rate _ hchain
      have hthere := applyChainToLink_there hne rate _ hchain
      dsimp only at hq hlength hlink hthere ⊢
      rw [hlink hne]
      refine h.touch hq hp hthere ((List.length_modify ..).trans h.rows) ?_
      intro row hrow
      obtain ⟨i, hi, rfl⟩ := List.mem_iff_getElem.mp hrow
      rw [List.length_modify] at hi
      rw [List.getElem_modify]
      split_ifs
      · rw [List.length_zipWith, h.row _ (List.getElem_mem hi), hlength, hsamples, min_self]
      · exact h.row _ (List.getElem_mem hi)

/-- The receiver pass of one row works on that row's key and on no lane. -/
theorem receiveRow_worked {count nr : ℕ} (hcount : count ≠ 0) (rate : ℕ) (hp : Linked p)
    {keys : List String} {slot : CpuChannelProcessor.Slot K}
    (h : Worked U p count nr keys slot) {dstKey : String} {model' : ModelConfig K} {r : ℕ}
    (hr : r < nr) (hm : U (rxStateKey dstKey r nr) model') :
    Ensures (Worked U p count nr (keys ++ [rxStateKey dstKey r nr]))
      (receiveRow dstKey model' count rate slot r) := by
  have hrowAt : (slot.rows.getD r []).length = count := by
    have hlt : r < slot.rows.length := h.rows.symm ▸ hr
    rw [List.getD_eq_getElem _ _ hlt]
    exact h.row _ (List.getElem_mem hlt)
  have hne : slot.rows.getD r [] ≠ [] := by
    intro hnil
    rw [hnil] at hrowAt
    exact hcount hrowAt.symm
  unfold receiveRow
  rw [h.rows]
  -- from here on the row's key is any key
  generalize rxStateKey dstKey r nr = key' at hm ⊢
  have hens := Keeps.ensureLinkState (p := slot.proc) hm count
  have hstates := ensureLinkState_states slot.proc key' model' count { physicalLinkKey := key' }
  dsimp only
  generalize slot.proc.ensureLinkState key' model' count { physicalLinkKey := key' } = q
    at hens hstates ⊢
  have hst : q.states key' =
      some (ensuredState key' model' { physicalLinkKey := key' } (slot.proc.states key')) := by
    rw [hstates, Function.update_self]
  generalize ensuredState key' model' { physicalLinkKey := key' } (slot.proc.states key') = st at hst
  rw [hst]
  obtain ⟨-, link, hlink⟩ := (h.keeps.trans hens).linked hp key' st hst
  dsimp only
  rw [hlink]
  dsimp only
  generalize hbegun : ({ link with fading := link.fading.beginSlot } : PhysicalLinkRuntime K).snap
    count = snapped
  -- the snap of the row's link keeps its clock, whether it takes values or not
  have hclock : snapped.1.slotStartSamples = q.clock st.link := by
    rw [clock_of_link hlink, ← hbegun]
    exact slotSnap_slotStartSamples link count
  obtain ⟨st', hst'⟩ : ∃ st',
      (if snapped.2.valuesChanged then { st with live := snapped.1.live } else st) = st' := ⟨_, rfl⟩
  have hlane : SameLane st st' := by
    rw [← hst']
    split_ifs
    · exact ⟨rfl, rfl, rfl, rfl⟩
    · exact SameLane.refl st
  rw [hst', hlane.link]
  have hset : Undisturbed q
      { q with
        states := Function.update q.states key' (some st')
        links := Function.update q.links st.link (some snapped.1) } :=
    (Undisturbed.setLink hclock).trans (Undisturbed.setState hst hlane)
  generalize ({ q with
      states := Function.update q.states key' (some st')
      links := Function.update q.links st.link (some snapped.1) } : CpuChannelProcessor K) = q₁
    at hset ⊢
  -- the refresh, then the chain of the row
  refine (Undisturbed.refreshLaneGrids st' model' count rate).bind fun q₂ hq₂ => ?_
  have hsofar := hens.trans ((hset.trans hq₂).keeps U)
  intro slot' hslot'
  obtain ⟨⟨q₃, row, touched⟩, hchain, hslot'⟩ := bind_eq_ok hslot'
  obtain rfl := Except.ok.inj hslot'
  obtain ⟨hq₃, hlength, hlinkKey⟩ := Keeps.applyChainToLink hm (slot.rows.getD r []) rate _ hchain
  have hthere := applyChainToLink_there hne rate _ hchain
  dsimp only at hq₃ hlength hlinkKey hthere ⊢
  rw [hlinkKey hne, hsofar.home key']
  refine h.touch (hsofar.trans hq₃) hp hthere ((List.length_set ..).trans h.rows) ?_
  intro row' hrow'
  rcases List.mem_or_eq_of_mem_set hrow' with hrow' | rfl
  · exact h.row _ hrow'
  · exact hlength.trans hrowAt

end Passes

/-! ## The run -/

section Run

/-- The keys that a call works at: its lanes, and its rows if it has a receiver model. -/
def SuperpositionCall.keys (c : SuperpositionCall K) : List String :=
  c.inputs.map (·.linkKey) ++
    if c.rxModel.isSome then
      (List.range c.rowSizes.length).map fun r => rxStateKey c.dstKey r c.rowSizes.length
    else []

/-- How many samples of the link the call processes. -/
def CpuChannelProcessor.samplesOf (p : CpuChannelProcessor K) (c : SuperpositionCall K)
    (k : String) : ℕ :=
  if k ∈ c.keys.map p.home then c.rowSizes.headD 0 else 0

/-- **Behind some samples of each link**: every clock moved on by as many, and the lanes of the keys
with one model are what they were. -/
structure Behind (U : String → ModelConfig K → Prop) (samples : String → ℕ)
    (p q : CpuChannelProcessor K) : Prop where
  linked : Linked q
  clock : ∀ k, q.clock k = p.clock k + samples k
  home : ∀ key', q.home key' = p.home key'
  lane : ∀ key model, (∀ model', U key model' → model' = model) →
    SameLane (p.lane key model) (q.lane key model)

variable {U : String → ModelConfig K → Prop} {p q : CpuChannelProcessor K}

/-- What only keeps stands no slot behind. -/
theorem Keeps.behind (h : Keeps U p q) (hp : Linked p) :
    Behind U (fun _ => 0) p q :=
  ⟨h.linked hp, h.clock, h.home, h.lane⟩

/-- The end of a slot. -/
theorem Worked.behind {count nr : ℕ} {keys : List String} {slot : CpuChannelProcessor.Slot K}
    (h : Worked U p count nr keys slot) (hp : Linked p) :
    Behind U (fun k => if k ∈ keys.map p.home then count else 0) p
      (slot.proc.advanceClocks slot.touched count) := by
  have hstates := advanceClocks_states slot.proc slot.touched count
  have hlinks := advanceClocks_links slot.proc h.nodup count
  have hsame : ∀ k, ((slot.proc.advanceClocks slot.touched count).links k).isSome =
      (slot.proc.links k).isSome := by
    -- an advance only changes the clocks of the touched links
    intro k
    rw [hlinks]
    split_ifs
    · exact Option.isSome_map
    · rfl
  refine ⟨?_, ?_, ?_, ?_⟩
  · intro key' st hst
    rw [hstates] at hst
    obtain ⟨-, link, hlink⟩ := h.keeps.linked hp key' st hst
    refine ⟨trivial, Option.isSome_iff_exists.mp ?_⟩
    rw [hsame, hlink]
    rfl
  · intro k
    rw [← h.keeps.clock k]
    unfold CpuChannelProcessor.clock
    rw [hlinks]
    by_cases hk : k ∈ slot.touched
    · obtain ⟨link, hlink⟩ := Option.isSome_iff_exists.mp (h.there k hk)
      rw [if_pos hk, if_pos ((h.touched k).mp hk), hlink]
      rfl
    · rw [if_neg hk, if_neg (mt (h.touched k).mpr hk)]
      rfl
  · intro key'
    rw [← h.keeps.home key']
    unfold CpuChannelProcessor.home
    rw [hstates]
  · intro key model hone
    refine (h.keeps.lane key model hone).trans ?_
    unfold CpuChannelProcessor.lane
    rw [hstates]
    exact SameLane.refl _

/-- The generation and the mixing of a call. -/
theorem generate_keeps {call : SuperpositionCall K} (hc : call.Uses (U))
    (count : ℕ) :
    Ensures (fun r : CpuChannelProcessor K × List String => Keeps U p r.1)
      (call.inputs.foldlM (generateLane call.inputs count call.sampleRateHz) (p, [])) :=
  Ensures.foldlM (P := fun r : CpuChannelProcessor K × List String => Keeps U p r.1)
    (Keeps.refl p) fun lane hlane _ hacc =>
      generateLane_keeps call.inputs count call.sampleRateHz hacc (hc.lane lane hlane)

/-- The mixing pass keeps what is clocked. -/
theorem mix_keeps (h : Keeps U p q) (touched : List String) :
    Ensures (Keeps U p) (touched.foldlM mixLink q) :=
  Ensures.foldlM (P := Keeps U p) h fun k _ _ hq' =>
    (Undisturbed.mixLink k).mono fun _ hr => hq'.trans (hr.keeps U)

/-- The shaping of a call works at its lanes. -/
theorem shape_worked (hp : Linked p) {call : SuperpositionCall K} (hc : call.Uses U) {count : ℕ}
    (hcount : count ≠ 0) (hsizes : ∀ size ∈ call.rowSizes, size = count) (hq : Keeps U p q) :
    Ensures (Worked U p count call.rowSizes.length (call.inputs.map (·.linkKey)))
      (call.inputs.foldlM (shapeLane count call.sampleRateHz)
        ⟨q, [], call.rowSizes.map fun size => List.replicate size 0⟩) := by
  refine Ensures.foldlM_done
    (P := fun (done : List (SuperpositionInput K)) (slot : CpuChannelProcessor.Slot K) =>
      Worked U p count call.rowSizes.length (done.map (·.linkKey)) slot) ?_ ?_
  · refine ⟨hq, List.nodup_nil, ?_, ?_, List.length_map .., ?_⟩
    · exact fun k => Iff.rfl
    · exact fun k hk => absurd hk List.not_mem_nil
    · intro row hrow
      obtain ⟨size, hsize, rfl⟩ := List.mem_map.mp hrow
      rw [List.length_replicate]
      exact hsizes size hsize
  · intro done lane hlane slot hslot
    rw [List.map_append, List.map_singleton]
    exact shapeLane_worked hcount call.sampleRateHz hp hslot (hc.lane lane hlane)

/-- The receiver model of a call works at its rows. -/
theorem receive_worked (hp : Linked p) {call : SuperpositionCall K} (hc : call.Uses U)
    {model : ModelConfig K} (hmodel : call.rxModel = some model) {count : ℕ} (hcount : count ≠ 0)
    {keys : List String} {slot : CpuChannelProcessor.Slot K}
    (h : Worked U p count call.rowSizes.length keys slot) :
    Ensures (Worked U p count call.rowSizes.length (keys ++ (List.range call.rowSizes.length).map
        fun r => rxStateKey call.dstKey r call.rowSizes.length))
      ((List.range call.rowSizes.length).foldlM
        (receiveRow call.dstKey model count call.sampleRateHz) slot) := by
  refine Ensures.foldlM_done
    (P := fun (done : List ℕ) (slot : CpuChannelProcessor.Slot K) =>
      Worked U p count call.rowSizes.length
        (keys ++ done.map fun r => rxStateKey call.dstKey r call.rowSizes.length) slot) ?_ ?_
  · rwa [List.map_nil, List.append_nil]
  · intro done r hr slot hslot
    have hlt : r < call.rowSizes.length := List.mem_range.mp hr
    rw [List.map_append, List.map_singleton, ← List.append_assoc]
    exact receiveRow_worked hcount call.sampleRateHz hp hslot hlt (hc.row model hmodel r hlt)

/-- **One call**: every link that it had a lane or a row of is behind its samples. -/
theorem serve_behind (hp : Linked p) {call : SuperpositionCall K} (hc : call.Uses U)
    {rows : List (List (Iq K))} (hserve : p.serve call = .ok (q, rows)) :
    Behind U (p.samplesOf call) p q := by
  -- a call that serves no samples stands no slot behind
  have hidle : (∀ k, p.samplesOf call k = 0) → Behind U (p.samplesOf call) p p :=
    fun hnone => ⟨hp, fun k => by rw [hnone, Nat.add_zero], fun _ => rfl,
      fun _ _ _ => SameLane.refl _⟩
  unfold CpuChannelProcessor.serve processSuperposition at hserve
  cases hsizes : call.rowSizes with
  | nil =>
      rw [hsizes] at hserve
      obtain ⟨rfl, -⟩ := Prod.mk.inj (Except.ok.inj hserve)
      refine hidle fun k => ?_
      unfold CpuChannelProcessor.samplesOf
      rw [hsizes, List.headD_nil, ite_self]
  | cons count sizes =>
      rw [hsizes] at hserve
      dsimp only at hserve
      rw [← hsizes] at hserve
      -- equal rows of a positive length, else nothing is served
      split_ifs at hserve with hunequal hzero
      · subst hzero
        obtain ⟨rfl, -⟩ := Prod.mk.inj (Except.ok.inj hserve)
        refine hidle fun k => ?_
        unfold CpuChannelProcessor.samplesOf
        rw [hsizes, List.headD_cons, ite_self]
      obtain ⟨generated, hgen, hserve⟩ := bind_eq_ok hserve
      obtain ⟨mixed, hmix, hserve⟩ := bind_eq_ok hserve
      obtain ⟨slot, hslot, hserve⟩ := bind_eq_ok hserve
      -- the passes before the rows move no clock
      have hkeeps := mix_keeps (generate_keeps hc count generated hgen) generated.2 mixed hmix
      have hequal : ∀ size ∈ call.rowSizes, size = count := by
        simpa using hunequal
      have hshaped := shape_worked hp hc hzero hequal hkeeps slot hslot
      have hsamples : p.samplesOf call =
          fun k => if k ∈ call.keys.map p.home then count else 0 := by
        funext k
        unfold CpuChannelProcessor.samplesOf
        rw [hsizes, List.headD_cons]
      rw [hsamples]
      unfold SuperpositionCall.keys
      cases hmodel : call.rxModel with
      | none =>
          rw [hmodel] at hserve
          obtain ⟨rfl, -⟩ := Prod.mk.inj (Except.ok.inj hserve)
          rw [Option.isSome_none, if_neg Bool.false_ne_true, List.append_nil]
          exact hshaped.behind hp
      | some model =>
          rw [hmodel] at hserve
          dsimp only at hserve
          rw [List.length_map] at hserve
          obtain ⟨slot', hslot', hserve⟩ := bind_eq_ok hserve
          obtain ⟨rfl, -⟩ := Prod.mk.inj (Except.ok.inj hserve)
          rw [Option.isSome_some, if_pos rfl]
          exact (receive_worked hp hc hmodel hzero hshaped slot' hslot').behind hp

/-- What happens to a processor between two calls: a call, or publications of the control plane. -/
inductive ServiceEvent (K : Type)
  | call (c : SuperpositionCall K)
  | publish (ps : List (Publication K))

/-- One event after the other. -/
def CpuChannelProcessor.service (p : CpuChannelProcessor K) :
    List (ServiceEvent K) → Except String (CpuChannelProcessor K)
  | [] => .ok p
  | .call c :: es => p.serve c >>= fun served => served.1.service es
  | .publish ps :: es => ({ p with links := p.links.publishAll ps } : CpuChannelProcessor K).service es

/-- How many samples of the link one event processes. -/
def ServiceEvent.samplesOf (p : CpuChannelProcessor K) (k : String) : ServiceEvent K → ℕ
  | .call c => p.samplesOf c k
  | .publish _ => 0

/-- **The samples of the link that a run processes.** -/
def CpuChannelProcessor.processed (p : CpuChannelProcessor K) (es : List (ServiceEvent K))
    (k : String) : ℕ :=
  (es.map (ServiceEvent.samplesOf p k)).sum

/-- Every key of the call is used as `U` says. -/
def ServiceEvent.Uses (U : String → ModelConfig K → Prop) : ServiceEvent K → Prop
  | .call c => c.Uses U
  | .publish _ => True

omit [Field K] [LinearOrder K] [FloorRing K] [Libm K] [Rng K] in
/-- The samples of an event do not depend on when it happens. -/
theorem samplesOf_congr (hhome : ∀ key, q.home key = p.home key) (k : String) (e : ServiceEvent K) :
    e.samplesOf q k = e.samplesOf p k := by
  cases e with
  | call c =>
      unfold ServiceEvent.samplesOf CpuChannelProcessor.samplesOf
      rw [show q.home = p.home from funext hhome]
  | publish ps => rfl

/-- **A run moves the clock of a link by the samples of the link**, and leaves the lanes alone. -/
theorem service_behind {es : List (ServiceEvent K)} (hp : Linked p) (hc : ∀ e ∈ es, e.Uses U)
    (hrun : p.service es = .ok q) : Behind U (p.processed es) p q := by
  induction es generalizing p with
  | nil =>
      obtain rfl := Except.ok.inj hrun
      exact ⟨hp, fun _ => rfl, fun _ => rfl, fun _ _ _ => SameLane.refl _⟩
  | cons e es ih =>
      rw [List.forall_mem_cons] at hc
      -- the first event, and behind it the rest of the run
      obtain ⟨mid, hmid, hrest⟩ : ∃ mid, Behind U (fun k => e.samplesOf p k) p mid ∧
          mid.service es = .ok q := by
        cases e with
        | call c =>
            obtain ⟨⟨mid, rows⟩, hserve, hrest⟩ := bind_eq_ok hrun
            exact ⟨mid, serve_behind hp hc.1 hserve, hrest⟩
        | publish ps => exact ⟨_, ((Undisturbed.publish ps).keeps U).behind hp, hrun⟩
      have hlast := ih hmid.linked hc.2 hrest
      refine ⟨hlast.linked, ?_, ?_, ?_⟩
      · intro k
        have hsame : mid.processed es k = p.processed es k := by
          unfold CpuChannelProcessor.processed
          congr 1
          apply List.map_congr_left
          exact fun e' _ => samplesOf_congr hmid.home k e'
        rw [hlast.clock, hmid.clock, hsame, Nat.add_assoc]
        rfl
      · exact fun key => (hlast.home key).trans (hmid.home key)
      · exact fun key model hone => (hmid.lane key model hone).trans (hlast.lane key model hone)

end Run

/-! ## The start of a run -/

section Start

variable {config : TopologyConfig K} {p : CpuChannelProcessor K}

/-- No link has processed a sample. -/
def AtStart (p : CpuChannelProcessor K) : Prop := ∀ k, p.clock k = 0

omit [Field K] [LinearOrder K] [FloorRing K] [Libm K] [Rng K] in
/-- A change of a link that keeps its clock leaves every clock at the start. -/
theorem AtStart.modifyLink (h : AtStart p) {f : PhysicalLinkRuntime K → PhysicalLinkRuntime K}
    (hf : ∀ link, (f link).slotStartSamples = link.slotStartSamples) (k : String) :
    AtStart (p.modifyLink k f) := by
  intro k'
  rw [← h k']
  unfold CpuChannelProcessor.modifyLink CpuChannelProcessor.clock
  dsimp only
  by_cases hk : k' = k
  · subst hk
    rw [Function.update_self]
    cases p.links k' with
    | none => rfl
    | some link => exact hf link
  · rw [Function.update_of_ne hk]

/-- A lane that is entered leaves every clock at the start. -/
theorem AtStart.ensureLinkState (h : AtStart p) (key : String) (model : ModelConfig K) (count : ℕ)
    (identity : LaneIdentity) : AtStart (p.ensureLinkState key model count identity) :=
  fun k => (ensureLinkState_clock p key model count identity k).1.trans (h k)

/-- Preparing a lane leaves every clock at the start. -/
theorem AtStart.prepareLane (h : AtStart p) (resolved : ResolvedTopology) (lane : LaneConfig) :
    AtStart (prepareLane config resolved p lane) := by
  unfold CpuChannelProcessor.prepareLane
  split
  · dsimp only
    split
    · apply (h.ensureLinkState _ _ _ _).modifyLink
      exact fun _ => rfl
    · exact h.ensureLinkState _ _ _ _
  · exact h

omit [FloorRing K] [Rng K] in
/-- Preparing the lanes of a link leaves every clock at the start. -/
theorem AtStart.prepareGroup (h : AtStart p) (resolved : ResolvedTopology) (group : LinkLaneGroup) :
    Ensures AtStart (prepareGroup config resolved p group) := by
  have hset : ∀ lanes mixing, AtStart (p.modifyLink group.physicalLinkKey fun link =>
      { link with fading := { link.fading with lanes := lanes, mixing := mixing } }) := by
    intro lanes mixing
    apply h.modifyLink
    exact fun _ => rfl
  unfold CpuChannelProcessor.prepareGroup
  split
  · exact Ensures.pure h
  · split
    · exact Ensures.pure h
    · split_ifs
      · exact Ensures.pure (hset _ _)
      · split
        · exact Ensures.throw
        · exact Ensures.pure (hset _ _)

/-- Preparing the rows of a node leaves every clock at the start. -/
theorem AtStart.prepareRows (h : AtStart p) (node : ResolvedNode) :
    AtStart (prepareRows config p node) := by
  unfold CpuChannelProcessor.prepareRows
  split_ifs
  · exact h
  · cases config.findModel node.rxModel with
    | none => exact h
    | some model =>
        exact List.foldlRecOn _ _ h fun q hq r _ => hq.ensureLinkState _ model _ _

/-- **`prepare` leaves every clock at zero**, and every state in a link. -/
theorem prepare_atStart (hprepare : prepare config = .ok p) : Linked p ∧ AtStart p := by
  have hcopy := hprepare
  unfold prepare at hprepare
  split_ifs at hprepare
  obtain ⟨resolved, hresolved, hprepare⟩ := bind_eq_ok hprepare
  constructor
  · intro key st hst
    exact ⟨trivial, ((prepare_housed hresolved hcopy).1 key st hst).2⟩
  · have hlanes : AtStart
        (resolved.lanes.foldl (CpuChannelProcessor.prepareLane config resolved) empty) :=
      List.foldlRecOn _ _ (fun _ => rfl) fun q hq lane _ => AtStart.prepareLane hq resolved lane
    obtain ⟨q, hq, hprepare⟩ := bind_eq_ok hprepare
    have hgroups : AtStart q :=
      Ensures.foldlM (P := AtStart) hlanes (fun group _ _ hq => hq.prepareGroup resolved group) q hq
    obtain rfl := Except.ok.inj hprepare
    exact List.foldlRecOn _ _ hgroups fun q hq node _ => hq.prepareRows node

end Start

/-! ## What the visits of a call read -/

section Reads

/-- **A read at the time of the call**: the clock of the lane's link as it was when the call began,
and the lane as it was. -/
structure ReadAt (U : String → ModelConfig K → Prop) (p : CpuChannelProcessor K) (r : LaneRead K) :
    Prop where
  link : r.state.link = p.home r.key
  clock : r.link.slotStartSamples = p.clock r.state.link
  lane : ∀ model, (∀ model', U r.key model' → model' = model) →
    r.model = model ∧ SameLane (p.lane r.key model) r.state

variable {U : String → ModelConfig K → Prop} {p q : CpuChannelProcessor K}

/-- A lane that a kept pass finds was there at the clock that the call began with. -/
theorem Keeps.readAt (h : Keeps U p q) {key : String} {model : ModelConfig K} (hm : U key model)
    {st : LinkState K} (hst : q.states key = some st)
    (hlength : st.steps.length = model.chain.length) {link : PhysicalLinkRuntime K}
    (hlink : link.slotStartSamples = q.clock st.link) : ReadAt U p ⟨key, model, st, link⟩ := by
  refine ⟨?_, hlink.trans (h.clock st.link), ?_⟩
  · exact (home_of_state hst).symm.trans (h.home key)
  · intro model' hone
    obtain rfl := hone model hm
    refine ⟨rfl, ?_⟩
    have hlane := h.lane key model hone
    have hfound : q.lane key model = st := by
      unfold CpuChannelProcessor.lane ensuredState
      rw [hst]
      dsimp only
      rw [Option.getD_some, if_pos hlength]
    rwa [hfound] at hlane

/-- The steps of a key that just entered fit its chain. -/
theorem ensureLinkState_length {q : CpuChannelProcessor K} {key : String} {model : ModelConfig K}
    {count : ℕ} {identity : LaneIdentity} {st : LinkState K}
    (hst : (q.ensureLinkState key model count identity).states key = some st) :
    st.steps.length = model.chain.length := by
  rw [ensureLinkState_states, Function.update_self] at hst
  obtain rfl := Option.some.inj hst
  exact ensuredState_length key model identity _

/-- The lane that the generating pass reads is read at the clock of the call. -/
theorem generateRead_at (inputs : List (SuperpositionInput K)) (count : ℕ)
    {acc : CpuChannelProcessor K × List String} (h : Keeps U p acc.1) {lane : SuperpositionInput K}
    (hm : ∀ model, lane.model = some model → U lane.linkKey model) {r : LaneRead K}
    (hr : generateRead inputs count acc lane = some r) : ReadAt U p r := by
  unfold generateRead at hr
  cases hmodel : lane.model with
  | none =>
      rw [hmodel] at hr
      cases hr
  | some model =>
      rw [hmodel] at hr
      have hens := h.trans (Keeps.ensureLinkState (hm model hmodel) count)
      dsimp only at hr
      have hlength : ∀ st, (acc.1.ensureLinkState lane.linkKey model count
          { physicalLinkKey := lane.linkKey }).states lane.linkKey = some st →
          st.steps.length = model.chain.length := fun _ => ensureLinkState_length
      generalize acc.1.ensureLinkState lane.linkKey model count
        { physicalLinkKey := lane.linkKey } = q at hens hr hlength
      cases hst : q.states lane.linkKey with
      | none =>
          rw [hst] at hr
          cases hr
      | some st =>
          rw [hst] at hr
          dsimp only at hr
          have hundisturbed : Undisturbed q
              (if st.link ∉ acc.2 then q.snapLink inputs st.link count else q) := by
            split_ifs
            · exact Undisturbed.refl q
            · exact Undisturbed.snapLink inputs st.link count
          generalize (if st.link ∉ acc.2 then q.snapLink inputs st.link count else q) = q'
            at hundisturbed hr
          obtain ⟨st', hst', hlane⟩ := hundisturbed.lane_of_some hst
          rw [hst', Option.getD_some] at hr
          obtain ⟨link, hlink, rfl⟩ := Option.map_eq_some_iff.mp hr
          exact (hens.trans (hundisturbed.keeps U)).readAt (hm model hmodel) hst'
            (hlane.length.trans (hlength st hst)) (clock_of_link hlink).symm

/-- All lanes that the generating pass reads are read at the clock of the call. -/
theorem generateReads_at {inputs : List (SuperpositionInput K)} (count rate : ℕ)
    {acc : CpuChannelProcessor K × List String} (h : Keeps U p acc.1)
    {lanes : List (SuperpositionInput K)}
    (hm : ∀ lane ∈ lanes, ∀ model, lane.model = some model → U lane.linkKey model) :
    ∀ r ∈ generateReads inputs count rate acc lanes, ReadAt U p r := by
  induction lanes generalizing acc with
  | nil => exact fun r hr => absurd hr List.not_mem_nil
  | cons lane lanes ih =>
      rw [List.forall_mem_cons] at hm
      intro r hr
      rcases List.mem_append.mp hr with hr | hr
      · exact generateRead_at inputs count h hm.1 (Option.mem_toList.mp hr)
      · cases hlane : generateLane inputs count rate acc lane with
        | error e =>
            rw [hlane] at hr
            exact absurd hr List.not_mem_nil
        | ok acc' =>
            rw [hlane] at hr
            exact ih (generateLane_keeps inputs count rate h hm.1 acc' hlane) hm.2 r hr

/-- The lane that the shaping pass reads is read at the clock of the call. -/
theorem shapeRead_at (h : Keeps U p q) {lane : SuperpositionInput K}
    (hm : ∀ model, lane.model = some model → U lane.linkKey model) {r : LaneRead K}
    (hr : q.shapeRead lane = some r) : ReadAt U p r := by
  unfold shapeRead at hr
  cases hmodel : lane.model with
  | none =>
      rw [hmodel] at hr
      cases hr
  | some model =>
      rw [hmodel] at hr
      dsimp only at hr
      obtain ⟨st, hst, rfl⟩ := Option.map_eq_some_iff.mp hr
      refine (h.trans (Keeps.ensureLinkState (hm model hmodel) lane.samples.length)).readAt
        (hm model hmodel) hst (ensureLinkState_length hst) ?_
      unfold CpuChannelProcessor.clock
      generalize (q.ensureLinkState lane.linkKey model lane.samples.length
        { physicalLinkKey := lane.linkKey }).links st.link = o
      cases o with
      | none => rfl
      | some link => rfl

/-- The pass that shapes one lane keeps what is clocked. -/
theorem shapeLane_keeps (count rate : ℕ) {slot : CpuChannelProcessor.Slot K}
    (h : Keeps U p slot.proc) {lane : SuperpositionInput K}
    (hm : ∀ model, lane.model = some model → U lane.linkKey model) :
    Ensures (fun slot => Keeps U p slot.proc) (shapeLane count rate slot lane) := by
  unfold shapeLane
  cases hmodel : lane.model with
  | none => exact Ensures.throw
  | some model =>
      dsimp only
      split_ifs
      · exact Ensures.throw
      · exact Ensures.throw
      · exact (Keeps.applyChainToLink (hm model hmodel) lane.samples rate).bind fun r hr =>
          Ensures.pure (h.trans hr.1)

/-- All lanes that the shaping pass reads are read at the clock of the call. -/
theorem shapeReads_at (count rate : ℕ) {slot : CpuChannelProcessor.Slot K}
    (h : Keeps U p slot.proc) {lanes : List (SuperpositionInput K)}
    (hm : ∀ lane ∈ lanes, ∀ model, lane.model = some model → U lane.linkKey model) :
    ∀ r ∈ shapeReads count rate slot lanes, ReadAt U p r := by
  induction lanes generalizing slot with
  | nil => exact fun r hr => absurd hr List.not_mem_nil
  | cons lane lanes ih =>
      rw [List.forall_mem_cons] at hm
      intro r hr
      rcases List.mem_append.mp hr with hr | hr
      · exact shapeRead_at h hm.1 (Option.mem_toList.mp hr)
      · cases hlane : shapeLane count rate slot lane with
        | error e =>
            rw [hlane] at hr
            exact absurd hr List.not_mem_nil
        | ok slot' =>
            rw [hlane] at hr
            exact ih (shapeLane_keeps count rate h hm.1 slot' hlane) hm.2 r hr

/-- **Every visit of a call reads the time at which the call began.** -/
theorem callReads_at {call : SuperpositionCall K} (hc : call.Uses U) :
    (∀ r ∈ (p.callReads call).1, ReadAt U p r) ∧ ∀ r ∈ (p.callReads call).2, ReadAt U p r := by
  have hnone : ∀ r ∈ ([] : List (LaneRead K)), ReadAt U p r :=
    fun r hr => absurd hr List.not_mem_nil
  unfold CpuChannelProcessor.callReads
  cases call.rowSizes with
  | nil => exact ⟨hnone, hnone⟩
  | cons count sizes =>
      dsimp only
      split_ifs
      · exact ⟨hnone, hnone⟩
      · exact ⟨hnone, hnone⟩
      refine ⟨generateReads_at count call.sampleRateHz (Keeps.refl p) hc.lane, ?_⟩
      cases hgen : call.inputs.foldlM (generateLane call.inputs count call.sampleRateHz) (p, [])
        with
      | error e => exact hnone
      | ok acc =>
          obtain ⟨q, touched⟩ := acc
          dsimp only
          cases hmix : touched.foldlM mixLink q with
          | error e => exact hnone
          | ok q' =>
              have hq := mix_keeps (generate_keeps hc count _ hgen) touched q' hmix
              exact shapeReads_at count call.sampleRateHz hq hc.lane

end Reads

end LinkClock
