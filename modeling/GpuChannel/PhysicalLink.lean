/-
# Physical links and the slot-boundary snap

`PhysicalLinkRuntime` (physical_link.h) and `snap_physical_link`, which moves a
pending control update into the live state of a link at a slot boundary.

Over it stands what the snap is for.  `view` is the part of the live state that a
control message can change (parameters, tap layout, mixing factor) and `staged` is
what the next due snap turns it into.  Publishing an update changes `staged` by exactly
that update, and a due snap makes `view` equal to it; the scheduling and the
publication results use only these two facts.
-/
import GpuChannel.RuntimeControl

/-! ## State -/

/-- **`FadingGrid` (delay.h).** Tap `k` holds `values[k * points, (k + 1) * points)`. -/
structure FadingGrid (K : Type) where
  stride : ℕ
  points : ℕ
  taps : ℕ
  values : List (Cplx K)
  deriving DecidableEq, Repr

def FadingGrid.empty (K : Type) : FadingGrid K := { stride := 1, points := 0, taps := 0, values := [] }

/-- **`PhysicalLinkFading`.** An empty `mixing` means that the lanes stay independent. -/
structure PhysicalLinkFading (K : Type) where
  laneGrids : List (List (FadingGrid K))
  mixing : List (Cplx K)
  lanes : ℕ
  laneReady : List Bool
  deriving DecidableEq, Repr

/-- **`PhysicalLinkRuntime`.** -/
structure PhysicalLinkRuntime (K : Type) where
  slotStartSamples : ℕ
  fading : PhysicalLinkFading K
  control : BrokerLinkControl K
  live : MutableParams K
  liveSeqno : ℕ
  nextSlot : ℕ
  liveProfile : ProfileShadow K
  liveProfileActive : Bool
  liveMatrixProfile : MatrixProfileShadow K
  liveMatrixProfileActive : Bool
  chainHasLeadingTdl : Bool
  warmupUntilSlot : ℕ
  deriving DecidableEq

/-- The default-constructed runtime of a link. -/
def PhysicalLinkRuntime.default {K : Type} [Field K] : PhysicalLinkRuntime K :=
  { slotStartSamples := 0
    fading := { laneGrids := [], mixing := [], lanes := 1, laneReady := [] }
    control := BrokerLinkControl.default
    live := MutableParams.default, liveSeqno := 0, nextSlot := 0
    liveProfile := ProfileShadow.default, liveProfileActive := false
    liveMatrixProfile := MatrixProfileShadow.default, liveMatrixProfileActive := false
    chainHasLeadingTdl := false, warmupUntilSlot := 0 }

/-- **`LinkSnapOutcome`.** -/
structure LinkSnapOutcome where
  valuesChanged : Bool := false
  profileActivated : Bool := false
  matrixProfileActivated : Bool := false
  historyResetRequired : Bool := false
  correlationChanged : Bool := false
  deriving DecidableEq, Repr

/-! ## The snap -/

namespace PhysicalLinkRuntime

variable {K : Type}

/-- The first block of `snap_physical_link`: the slot counter and the scalar snap. -/
def snapValues (link : PhysicalLinkRuntime K) : PhysicalLinkRuntime K × LinkSnapOutcome :=
  let snap := snapMutableParams link.live link.liveSeqno link.control link.nextSlot
  ({ link with
      live := snap.live, liveSeqno := snap.liveSeqno, control := snap.control
      nextSlot := link.nextSlot + 1 },
    { valuesChanged := snap.changed })

/-- A pending profile is taken when the chain leads with a tdl or the message forces it. -/
def profileEligible (link : PhysicalLinkRuntime K) : Bool :=
  link.chainHasLeadingTdl || link.control.shadowProfile.force

def matrixEligible (link : PhysicalLinkRuntime K) : Bool :=
  link.chainHasLeadingTdl || (link.control.shadowMatrixProfile.lanes 0).force

/-- The profile block: `snap_profile_from_shadow` behind the eligibility test. -/
def snapProfile (s : PhysicalLinkRuntime K × LinkSnapOutcome) :
    PhysicalLinkRuntime K × LinkSnapOutcome :=
  let (link, out) := s
  if out.valuesChanged ∧ link.control.profilePending ∧ link.profileEligible then
    ({ link with
        liveProfile := link.control.shadowProfile
        control := { link.control with
          profilePending := false
          forceInertWarnings :=
            if link.chainHasLeadingTdl then link.control.forceInertWarnings
            else link.control.forceInertWarnings + 1 }
        liveProfileActive := true
        liveMatrixProfileActive := false },
      { out with profileActivated := true, historyResetRequired := true })
  else s

/-- The matrix block: `snap_matrix_profile_from_shadow` behind the eligibility test. -/
def snapMatrix [DecidableEq K] (s : PhysicalLinkRuntime K × LinkSnapOutcome) :
    PhysicalLinkRuntime K × LinkSnapOutcome :=
  let (link, out) := s
  if out.valuesChanged ∧ link.control.matrixProfilePending ∧ link.matrixEligible then
    let preserveHistory := link.liveMatrixProfileActive &&
      matrixHistoryCompatible link.liveMatrixProfile link.control.shadowMatrixProfile
    ({ link with
        liveMatrixProfile := link.control.shadowMatrixProfile
        control := { link.control with matrixProfilePending := false }
        liveMatrixProfileActive := true
        liveProfileActive := false },
      { out with matrixProfileActivated := true, historyResetRequired := !preserveHistory })
  else s

/-- The correlation block. -/
def snapCorrelation (s : PhysicalLinkRuntime K × LinkSnapOutcome) :
    PhysicalLinkRuntime K × LinkSnapOutcome :=
  let (link, out) := s
  if out.valuesChanged ∧ link.control.correlationPending then
    ({ link with
        fading := { link.fading with mixing := link.control.shadowCorrelation.mixing }
        control := { link.control with correlationPending := false } },
      { out with correlationChanged := true })
  else s

section Warmup

variable [Field K] [LinearOrder K] [FloorRing K]

/-- The ring length a profile needs: its longest delay and the filter span. -/
def profileDelaySize (dlSize : ℕ) (profile : ProfileShadow K) : ℕ :=
  profile.tapList.foldl (fun size tap => max size (⌈tap.delaySamples⌉.toNat + kTdlFracFilterTaps)) dlSize

/-- The warm-up blocks of `snap_physical_link`: open the window on a history reset, close it
at its slot.  `snapIdx` is the slot of this snap. -/
def snapWarmup (snapIdx count : ℕ) (s : PhysicalLinkRuntime K × LinkSnapOutcome) :
    PhysicalLinkRuntime K × LinkSnapOutcome :=
  let (link, out) := s
  let dlSize :=
    if out.matrixProfileActivated then
      ((List.finRange kMaxCorrelatedLanes).take link.liveMatrixProfile.laneCount).foldl
        (fun size l => profileDelaySize size (link.liveMatrixProfile.lanes l))
        link.control.dlSizeSamplesHint
    else link.control.dlSizeSamplesHint
  let warmupSlots := if count = 0 then 1 else max 1 ((dlSize + count - 1) / count)
  let opened := if out.historyResetRequired then snapIdx + warmupSlots else link.warmupUntilSlot
  ({ link with warmupUntilSlot := if opened ≠ 0 ∧ opened ≤ snapIdx then 0 else opened }, out)

/-- **`snap_physical_link`.** -/
def snap (link : PhysicalLinkRuntime K) (count : ℕ) : PhysicalLinkRuntime K × LinkSnapOutcome :=
  snapWarmup link.nextSlot count (snapCorrelation (snapMatrix (snapProfile link.snapValues)))

end Warmup

/-- The control thread's side of a link. -/
def publish (link : PhysicalLinkRuntime K) (gate : ℕ) (u : Update K) : PhysicalLinkRuntime K :=
  { link with control := link.control.publish gate u }

end PhysicalLinkRuntime

/-! ## The live view -/

/-- Where the taps of a link come from. -/
inductive Layout (K : Type)
  | declared
  | profile (live : ProfileShadow K)
  | matrix (live : MatrixProfileShadow K)
  deriving DecidableEq

/-- **What a control message can change of a link.** -/
structure LiveView (K : Type) where
  params : MutableParams K
  layout : Layout K
  mixing : List (Cplx K)
  deriving DecidableEq

/-- The effect that an update announces. -/
def LiveView.apply {K : Type} (v : LiveView K) : Update K → LiveView K
  | .scalar field value => { v with params := v.params.set field value }
  | .profile staged => { v with layout := .profile staged }
  | .matrix staged => { v with layout := .matrix staged }
  | .correlation staged => { v with mixing := staged.mixing }

namespace PhysicalLinkRuntime

variable {K : Type}

def layout (link : PhysicalLinkRuntime K) : Layout K :=
  if link.liveMatrixProfileActive then .matrix link.liveMatrixProfile
  else if link.liveProfileActive then .profile link.liveProfile
  else .declared

/-- The live view of a link. -/
def view (link : PhysicalLinkRuntime K) : LiveView K :=
  ⟨link.live, link.layout, link.fading.mixing⟩

/-- The layout that the pending flags announce. -/
def stagedLayout (link : PhysicalLinkRuntime K) : Layout K :=
  if link.control.matrixProfilePending then .matrix link.control.shadowMatrixProfile
  else if link.control.profilePending then .profile link.control.shadowProfile
  else link.layout

def stagedMixing (link : PhysicalLinkRuntime K) : List (Cplx K) :=
  if link.control.correlationPending then link.control.shadowCorrelation.mixing
  else link.fading.mixing

/-- **What the next due snap makes of the view.** -/
def staged (link : PhysicalLinkRuntime K) : LiveView K :=
  ⟨link.control.shadow, link.stagedLayout, link.stagedMixing⟩

/-- The test of `snap_mutable_params` at the link's next slot. -/
def due (link : PhysicalLinkRuntime K) : Bool := link.control.due link.liveSeqno link.nextSlot

/-- No pending swap will be refused. -/
structure Pending (link : PhysicalLinkRuntime K) : Prop where
  profile : link.control.profilePending → link.profileEligible
  matrix : link.control.matrixProfilePending → link.matrixEligible

/-- A swap that the snap does not refuse on this link. -/
def Accepts (link : PhysicalLinkRuntime K) : Update K → Prop
  | .profile staged => link.chainHasLeadingTdl ∨ staged.force
  | .matrix staged => link.chainHasLeadingTdl ∨ (staged.lanes 0).force
  | _ => True

instance (link : PhysicalLinkRuntime K) : DecidablePred link.Accepts := fun u => by
  cases u <;> unfold Accepts <;> infer_instance

/-! ### Publication -/

section Publish

variable (link : PhysicalLinkRuntime K) (gate : ℕ) (u : Update K)

/-- A publication leaves the view of the link alone. -/
@[simp] theorem publish_view : (link.publish gate u).view = link.view := rfl

/-- A publication starts no slot. -/
@[simp] theorem publish_nextSlot : (link.publish gate u).nextSlot = link.nextSlot := rfl

/-- A publication leaves the sequence number that was taken alone. -/
@[simp] theorem publish_liveSeqno : (link.publish gate u).liveSeqno = link.liveSeqno := rfl

/-- A publication leaves the shape of the chain alone. -/
@[simp] theorem publish_chainHasLeadingTdl :
    (link.publish gate u).chainHasLeadingTdl = link.chainHasLeadingTdl := rfl

/-- A publication is a publication to the control block. -/
@[simp] theorem publish_control :
    (link.publish gate u).control = link.control.publish gate u := rfl

/-- A publication changes what is staged by exactly its update. -/
theorem staged_publish : (link.publish gate u).staged = link.staged.apply u := by
  cases u <;> rfl

variable {link} in
/-- A publication that the link accepts keeps what is pending in order. -/
theorem Pending.publish (h : link.Pending) {u : Update K} (hu : link.Accepts u) :
    (link.publish gate u).Pending := by
  cases u with
  | scalar field value => exact ⟨h.profile, h.matrix⟩
  | correlation staged => exact ⟨h.profile, h.matrix⟩
  | profile staged =>
      refine ⟨fun _ => ?_, fun hp => absurd hp Bool.false_ne_true⟩
      simpa [profileEligible, Accepts, BrokerLinkControl.publish, BrokerLinkControl.stage,
        PhysicalLinkRuntime.publish] using hu
  | matrix staged =>
      refine ⟨fun hp => absurd hp Bool.false_ne_true, fun _ => ?_⟩
      simpa [matrixEligible, Accepts, BrokerLinkControl.publish, BrokerLinkControl.stage,
        PhysicalLinkRuntime.publish] using hu

end Publish

/-! ### The snap -/

/-- What the blocks of the snap after the first leave alone. -/
structure SameCore (a b : PhysicalLinkRuntime K) : Prop where
  slotStartSamples : a.slotStartSamples = b.slotStartSamples
  laneGrids : a.fading.laneGrids = b.fading.laneGrids
  lanes : a.fading.lanes = b.fading.lanes
  laneReady : a.fading.laneReady = b.fading.laneReady
  live : a.live = b.live
  liveSeqno : a.liveSeqno = b.liveSeqno
  nextSlot : a.nextSlot = b.nextSlot
  chainHasLeadingTdl : a.chainHasLeadingTdl = b.chainHasLeadingTdl
  shadow : a.control.shadow = b.control.shadow
  shadowProfile : a.control.shadowProfile = b.control.shadowProfile
  shadowMatrixProfile : a.control.shadowMatrixProfile = b.control.shadowMatrixProfile
  shadowCorrelation : a.control.shadowCorrelation = b.control.shadowCorrelation
  matrixProfileSupported : a.control.matrixProfileSupported = b.control.matrixProfileSupported
  ntHint : a.control.ntHint = b.control.ntHint
  nrHint : a.control.nrHint = b.control.nrHint
  fixedMimoDeclared : a.control.fixedMimoDeclared = b.control.fixedMimoDeclared
  correlationDeclared : a.control.correlationDeclared = b.control.correlationDeclared
  takeEffectAtSlot : a.control.takeEffectAtSlot = b.control.takeEffectAtSlot
  currentSlot : a.control.currentSlot = b.control.currentSlot
  seqno : a.control.seqno = b.control.seqno
  dlSizeSamplesHint : a.control.dlSizeSamplesHint = b.control.dlSizeSamplesHint
  slotCountHint : a.control.slotCountHint = b.control.slotCountHint

/-- Sameness of the core is transitive. -/
theorem SameCore.trans {a b c : PhysicalLinkRuntime K} (hab : a.SameCore b) (hbc : b.SameCore c) :
    a.SameCore c := by
  constructor
  · exact hab.slotStartSamples.trans hbc.slotStartSamples
  · exact hab.laneGrids.trans hbc.laneGrids
  · exact hab.lanes.trans hbc.lanes
  · exact hab.laneReady.trans hbc.laneReady
  · exact hab.live.trans hbc.live
  · exact hab.liveSeqno.trans hbc.liveSeqno
  · exact hab.nextSlot.trans hbc.nextSlot
  · exact hab.chainHasLeadingTdl.trans hbc.chainHasLeadingTdl
  · exact hab.shadow.trans hbc.shadow
  · exact hab.shadowProfile.trans hbc.shadowProfile
  · exact hab.shadowMatrixProfile.trans hbc.shadowMatrixProfile
  · exact hab.shadowCorrelation.trans hbc.shadowCorrelation
  · exact hab.matrixProfileSupported.trans hbc.matrixProfileSupported
  · exact hab.ntHint.trans hbc.ntHint
  · exact hab.nrHint.trans hbc.nrHint
  · exact hab.fixedMimoDeclared.trans hbc.fixedMimoDeclared
  · exact hab.correlationDeclared.trans hbc.correlationDeclared
  · exact hab.takeEffectAtSlot.trans hbc.takeEffectAtSlot
  · exact hab.currentSlot.trans hbc.currentSlot
  · exact hab.seqno.trans hbc.seqno
  · exact hab.dlSizeSamplesHint.trans hbc.dlSizeSamplesHint
  · exact hab.slotCountHint.trans hbc.slotCountHint

section Blocks

variable (s : PhysicalLinkRuntime K × LinkSnapOutcome)

/-- The profile block of a snap leaves the core alone. -/
theorem snapProfile_sameCore : (snapProfile s).1.SameCore s.1 := by
  unfold snapProfile
  dsimp only
  split_ifs <;> constructor <;> rfl

/-- The matrix block of a snap leaves the core alone. -/
theorem snapMatrix_sameCore [DecidableEq K] : (snapMatrix s).1.SameCore s.1 := by
  unfold snapMatrix
  dsimp only
  split_ifs <;> constructor <;> rfl

/-- The correlation block of a snap leaves the core alone. -/
theorem snapCorrelation_sameCore : (snapCorrelation s).1.SameCore s.1 := by
  unfold snapCorrelation
  dsimp only
  split_ifs <;> constructor <;> rfl

/-- The profile block does not change whether values are taken. -/
@[simp] theorem snapProfile_valuesChanged : (snapProfile s).2.valuesChanged = s.2.valuesChanged := by
  unfold snapProfile
  dsimp only
  split_ifs <;> rfl

/-- The matrix block does not change whether values are taken. -/
@[simp] theorem snapMatrix_valuesChanged [DecidableEq K] :
    (snapMatrix s).2.valuesChanged = s.2.valuesChanged := by
  unfold snapMatrix
  dsimp only
  split_ifs <;> rfl

/-- The correlation block does not change whether values are taken. -/
@[simp] theorem snapCorrelation_valuesChanged :
    (snapCorrelation s).2.valuesChanged = s.2.valuesChanged := by
  unfold snapCorrelation
  dsimp only
  split_ifs <;> rfl

/-! A block does nothing in a slot whose scalar snap changed nothing. -/

/-- Where no values are taken, the profile block does nothing. -/
theorem snapProfile_of_unchanged (h : s.2.valuesChanged = false) : snapProfile s = s := by
  simp [snapProfile, h]

/-- Where no values are taken, the matrix block does nothing. -/
theorem snapMatrix_of_unchanged [DecidableEq K] (h : s.2.valuesChanged = false) :
    snapMatrix s = s := by
  simp [snapMatrix, h]

/-- Where no values are taken, the correlation block does nothing. -/
theorem snapCorrelation_of_unchanged (h : s.2.valuesChanged = false) : snapCorrelation s = s := by
  simp [snapCorrelation, h]

/-! In a slot whose scalar snap changed, each block takes its own part of what is staged. -/

variable {s}

/-- The profile block leaves what is staged as it was and ends with no profile pending. -/
theorem snapProfile_staged (h : s.2.valuesChanged = true) (hp : s.1.Pending) :
    (snapProfile s).1.staged = s.1.staged ∧ (snapProfile s).1.Pending ∧
      (snapProfile s).1.control.profilePending = false := by
  by_cases hc : s.2.valuesChanged ∧ s.1.control.profilePending ∧ s.1.profileEligible
  · unfold snapProfile
    dsimp only
    rw [if_pos hc]
    refine ⟨?_, ⟨fun hf => absurd hf Bool.false_ne_true, hp.matrix⟩, rfl⟩
    simp [staged, stagedLayout, stagedMixing, layout, hc.2.1]
  · unfold snapProfile
    dsimp only
    rw [if_neg hc]
    have hno : s.1.control.profilePending = false := by
      by_contra hpend
      rw [Bool.not_eq_false] at hpend
      exact hc ⟨h, hpend, hp.profile hpend⟩
    exact ⟨rfl, hp, hno⟩

/-- The matrix block does the same for a pending matrix. -/
theorem snapMatrix_staged [DecidableEq K] (h : s.2.valuesChanged = true) (hp : s.1.Pending)
    (hnone : s.1.control.profilePending = false) :
    (snapMatrix s).1.staged = s.1.staged ∧ (snapMatrix s).1.control.profilePending = false ∧
      (snapMatrix s).1.control.matrixProfilePending = false := by
  by_cases hc : s.2.valuesChanged ∧ s.1.control.matrixProfilePending ∧ s.1.matrixEligible
  · unfold snapMatrix
    dsimp only
    rw [if_pos hc]
    refine ⟨?_, hnone, rfl⟩
    simp [staged, stagedLayout, stagedMixing, layout, hc.2.1, hnone]
  · unfold snapMatrix
    dsimp only
    rw [if_neg hc]
    have hno : s.1.control.matrixProfilePending = false := by
      by_contra hpend
      rw [Bool.not_eq_false] at hpend
      exact hc ⟨h, hpend, hp.matrix hpend⟩
    exact ⟨rfl, hnone, hno⟩

/-- The correlation block leaves nothing pending: the view is what was staged. -/
theorem snapCorrelation_staged (h : s.2.valuesChanged = true)
    (hprofile : s.1.control.profilePending = false)
    (hmatrix : s.1.control.matrixProfilePending = false) :
    (snapCorrelation s).1.staged = s.1.staged ∧
      (snapCorrelation s).1.stagedLayout = (snapCorrelation s).1.layout ∧
      (snapCorrelation s).1.stagedMixing = (snapCorrelation s).1.fading.mixing ∧
      (snapCorrelation s).1.control.profilePending = false ∧
      (snapCorrelation s).1.control.matrixProfilePending = false := by
  by_cases hc : s.2.valuesChanged ∧ s.1.control.correlationPending
  · unfold snapCorrelation
    dsimp only
    rw [if_pos hc]
    simp [staged, stagedLayout, stagedMixing, layout, hc.2, hprofile, hmatrix]
  · unfold snapCorrelation
    dsimp only
    rw [if_neg hc]
    have hno : s.1.control.correlationPending = false := by
      by_contra hpend
      rw [Bool.not_eq_false] at hpend
      exact hc ⟨h, hpend⟩
    simp [stagedLayout, stagedMixing, hno, hprofile, hmatrix]

end Blocks

section Snap

variable (link : PhysicalLinkRuntime K) (count : ℕ)

/-- A link whose gate is open takes the shadow. -/
theorem snapValues_of_due (h : link.due = true) : link.snapValues =
    ({ link with
        live := link.control.shadow, liveSeqno := link.control.seqno
        control := { link.control with currentSlot := link.nextSlot }
        nextSlot := link.nextSlot + 1 }, { valuesChanged := true }) := by
  have hdue : ({ link.control with currentSlot := link.nextSlot } : BrokerLinkControl K).due
      link.liveSeqno link.nextSlot = true := h
  simp [snapValues, snapMutableParams, hdue]

/-- A link whose gate is closed takes nothing. -/
theorem snapValues_of_not_due (h : link.due = false) : link.snapValues =
    ({ link with
        control := { link.control with currentSlot := link.nextSlot }
        nextSlot := link.nextSlot + 1 }, {}) := by
  have hdue : ({ link.control with currentSlot := link.nextSlot } : BrokerLinkControl K).due
      link.liveSeqno link.nextSlot = false := h
  simp [snapValues, snapMutableParams, hdue]

/-- The value block writes the slot counter into the control block. -/
theorem snapValues_control : link.snapValues.1.control =
    { link.control with currentSlot := link.nextSlot } := by
  cases h : link.due
  · rw [snapValues_of_not_due link h]
  · rw [snapValues_of_due link h]

/-- The gate is open for a new sequence number whose slot has come. -/
theorem due_iff : link.due = true ↔
    link.control.seqno ≠ link.liveSeqno ∧ link.control.takeEffectAtSlot ≤ link.nextSlot := by
  simp only [due, BrokerLinkControl.due, decide_eq_true_eq]

/-- Values are taken exactly if the gate is open. -/
theorem snapValues_valuesChanged : link.snapValues.2.valuesChanged = link.due := by
  cases h : link.due
  · rw [snapValues_of_not_due link h]
  · rw [snapValues_of_due link h]

variable [Field K] [LinearOrder K] [FloorRing K]

/-- The warm-up block writes the end of the window only. -/
theorem snapWarmup_fst (snapIdx : ℕ) (s : PhysicalLinkRuntime K × LinkSnapOutcome) :
    ∃ w, (snapWarmup snapIdx count s).1 = { s.1 with warmupUntilSlot := w } :=
  ⟨_, rfl⟩

/-- Behind the value block the snap leaves the core alone. -/
theorem snap_sameCore : (link.snap count).1.SameCore link.snapValues.1 := by
  have hblocks := (snapCorrelation_sameCore (snapMatrix (snapProfile link.snapValues))).trans
    ((snapMatrix_sameCore (snapProfile link.snapValues)).trans
      (snapProfile_sameCore link.snapValues))
  obtain ⟨w, hw⟩ := snapWarmup_fst count link.nextSlot
    (snapCorrelation (snapMatrix (snapProfile link.snapValues)))
  unfold snap
  rw [hw]
  refine SameCore.trans ?_ hblocks
  constructor <;> rfl

/-! What no snap changes. -/

/-- Every snap counts one slot. -/
@[simp] theorem snap_nextSlot : (link.snap count).1.nextSlot = link.nextSlot + 1 :=
  (link.snap_sameCore count).nextSlot

/-- No snap writes the sequence number of the control block. -/
@[simp] theorem snap_seqno : (link.snap count).1.control.seqno = link.control.seqno := by
  rw [(link.snap_sameCore count).seqno, snapValues_control]

/-- No snap writes the gate. -/
@[simp] theorem snap_takeEffectAtSlot :
    (link.snap count).1.control.takeEffectAtSlot = link.control.takeEffectAtSlot := by
  rw [(link.snap_sameCore count).takeEffectAtSlot, snapValues_control]

/-- No snap changes the shape of the chain. -/
@[simp] theorem snap_chainHasLeadingTdl :
    (link.snap count).1.chainHasLeadingTdl = link.chainHasLeadingTdl :=
  (link.snap_sameCore count).chainHasLeadingTdl

/-- **A snap that is not due** only counts the slot (and may close a warm-up window). -/
theorem snap_of_not_due (h : link.due = false) :
    ∃ w, (link.snap count).1 =
      { link with
        control := { link.control with currentSlot := link.nextSlot }
        nextSlot := link.nextSlot + 1
        warmupUntilSlot := w } := by
  have hchanged := link.snapValues_valuesChanged
  rw [h] at hchanged
  unfold snap
  rw [snapProfile_of_unchanged _ hchanged, snapMatrix_of_unchanged _ hchanged,
    snapCorrelation_of_unchanged _ hchanged]
  obtain ⟨w, hw⟩ := snapWarmup_fst count link.nextSlot link.snapValues
  refine ⟨w, ?_⟩
  rw [hw, snapValues_of_not_due link h]

/-- **A due snap** makes the view equal to what was staged, and leaves nothing pending. -/
theorem snap_of_due (h : link.due = true) (hp : link.Pending) :
    (link.snap count).1.view = link.staged ∧ (link.snap count).1.staged = link.staged ∧
      (link.snap count).1.Pending ∧ (link.snap count).1.liveSeqno = link.control.seqno := by
  have hchanged := link.snapValues_valuesChanged
  rw [h] at hchanged
  have hvalues := link.snapValues_of_due h
  have hp₀ : link.snapValues.1.Pending := by
    rw [hvalues]
    exact ⟨hp.profile, hp.matrix⟩
  have hst₀ : link.snapValues.1.staged = link.staged := by
    rw [hvalues]
    rfl
  have hlive : link.snapValues.1.live = link.control.shadow := by rw [hvalues]
  have hseqno : link.snapValues.1.liveSeqno = link.control.seqno := by rw [hvalues]
  obtain ⟨hst₁, hp₁, hno₁⟩ := snapProfile_staged hchanged hp₀
  obtain ⟨hst₂, hno₂, hnom₂⟩ := snapMatrix_staged ((snapProfile_valuesChanged _).trans hchanged) hp₁ hno₁
  obtain ⟨hst₃, hlay, hmix, hno₃, hnom₃⟩ := snapCorrelation_staged
    (by rw [snapMatrix_valuesChanged, snapProfile_valuesChanged, hchanged]) hno₂ hnom₂
  have hcore := link.snap_sameCore count
  have hall : (snapCorrelation (snapMatrix (snapProfile link.snapValues))).1.staged = link.staged := by
    rw [hst₃, hst₂, hst₁, hst₀]
  refine ⟨?_, hall, ⟨?_, ?_⟩, hcore.liveSeqno.trans hseqno⟩
  · -- the view and what is staged agree once nothing is pending
    rw [← hall]
    unfold view staged
    congr 1
    · exact hcore.live.trans (hlive.trans (congrArg LiveView.params hall).symm)
    · exact hlay.symm
    · exact hmix.symm
  · intro hf
    exact absurd (hno₃.symm.trans hf) Bool.false_ne_true
  · intro hf
    exact absurd (hnom₃.symm.trans hf) Bool.false_ne_true

end Snap

end PhysicalLinkRuntime
