/-
# The warm-up window

A swap that resets the history of a link opens a window of slots in which the rings are still
filling.  The window is sized in slots, from the sample count of the slot that opens it and from
the ring length that `prepare` recorded or the delays of a new matrix.  The handlers refuse a
swap whose window would exceed the cap.
-/
import GpuChannel.AcceptedUpdates
import GpuChannel.RationalScalars

/-! ## The window that a snap opens -/

/-- The taps that a layout puts in place; the declared taps are the model's. -/
def MatrixProfileShadow.tapList {K : Type} (m : MatrixProfileShadow K) : List (TapSpec K) :=
  ((List.finRange kMaxCorrelatedLanes).take m.laneCount).flatMap fun l => (m.lanes l).tapList

def Layout.tapList {K : Type} : Layout K → List (TapSpec K)
  | .declared => []
  | .profile live => live.tapList
  | .matrix live => live.tapList

section Spans

variable {K : Type} [Field K] [LinearOrder K] [FloorRing K]

/-- The samples that the filters of these taps reach over. -/
def tapSpan (taps : List (TapSpec K)) : ℕ :=
  taps.foldl (fun size tap => max size (⌈tap.delaySamples⌉.toNat + kTdlFracFilterTaps)) 0

/-- What a window has to outlast: the longest delay and the part of the filter behind it. -/
def historyNeeded (layout : Layout K) : ℕ := tapSpan layout.tapList - 4

/-- The slots that a window of `samples` takes when the first has `count` samples. -/
def windowSlots (samples count : ℕ) : ℕ :=
  if count = 0 then 1 else max 1 ((samples + count - 1) / count)

/-- The loop over the taps is a maximum of spans. -/
theorem foldl_tapSpan (taps : List (TapSpec K)) (size : ℕ) :
    taps.foldl (fun size tap => max size (⌈tap.delaySamples⌉.toNat + kTdlFracFilterTaps)) size
      = max size (tapSpan taps) := by
  unfold tapSpan
  induction taps generalizing size with
  | nil => simp
  | cons tap taps ih =>
      rw [List.foldl_cons, List.foldl_cons, ih, ih (max 0 _), Nat.zero_max, Nat.max_assoc]

/-- The span of two lists of taps is the larger one. -/
theorem tapSpan_append (s t : List (TapSpec K)) : tapSpan (s ++ t) = max (tapSpan s) (tapSpan t) := by
  rw [tapSpan, List.foldl_append, foldl_tapSpan]
  rfl

/-- The ring that a profile needs is the span of its taps. -/
theorem profileDelaySize_eq (size : ℕ) (p : ProfileShadow K) :
    PhysicalLinkRuntime.profileDelaySize size p = max size (tapSpan p.tapList) :=
  foldl_tapSpan p.tapList size

/-- The size that the snap gives a matrix: the recorded ring or the longest lane. -/
theorem foldl_profileDelaySize (m : MatrixProfileShadow K) (size : ℕ) :
    ((List.finRange kMaxCorrelatedLanes).take m.laneCount).foldl
        (fun size l => PhysicalLinkRuntime.profileDelaySize size (m.lanes l)) size
      = max size (tapSpan m.tapList) := by
  unfold MatrixProfileShadow.tapList
  induction (List.finRange kMaxCorrelatedLanes).take m.laneCount generalizing size with
  | nil => simp [tapSpan]
  | cons l ls ih =>
      rw [List.foldl_cons, ih, profileDelaySize_eq, List.flatMap_cons, tapSpan_append,
        Nat.max_assoc]

/-- Every tap fits the span. -/
theorem tapSpan_of_mem {taps : List (TapSpec K)} {tap : TapSpec K} (h : tap ∈ taps) :
    ⌈tap.delaySamples⌉.toNat + kTdlFracFilterTaps ≤ tapSpan taps := by
  obtain ⟨pre, post, rfl⟩ := List.append_of_mem h
  rw [tapSpan_append]
  apply le_max_of_le_right
  rw [tapSpan, List.foldl_cons, foldl_tapSpan]
  exact le_max_of_le_left (le_max_right _ _)

end Spans

namespace PhysicalLinkRuntime

variable {K : Type} [Field K] [LinearOrder K] [FloorRing K] (link : PhysicalLinkRuntime K)

/-- The next due snap takes the pending profile. -/
def takesProfile : Bool := link.control.profilePending && link.profileEligible

def takesMatrix : Bool := link.control.matrixProfilePending && link.matrixEligible

/-- The next snap takes a swap that resets the history. -/
def opens : Bool :=
  link.due && (link.takesProfile || (link.takesMatrix && !(link.liveMatrixProfileActive &&
    matrixHistoryCompatible link.liveMatrixProfile link.control.shadowMatrixProfile)))

/-- The samples from which the window is sized. -/
def windowSamples : ℕ :=
  if link.takesMatrix then
    max link.control.dlSizeSamplesHint (tapSpan link.control.shadowMatrixProfile.tapList)
  else link.control.dlSizeSamplesHint

/-- The slot at which the window closes, after the snap of slot `link.nextSlot`. -/
def windowEnd (count : ℕ) : ℕ :=
  if link.opens then link.nextSlot + windowSlots link.windowSamples count
  else if link.warmupUntilSlot ≤ link.nextSlot then 0 else link.warmupUntilSlot

/-- A window of samples takes at least one slot. -/
theorem windowSlots_pos (samples count : ℕ) : 0 < windowSlots samples count := by
  unfold windowSlots
  split_ifs
  · exact Nat.one_pos
  · exact Nat.lt_of_lt_of_le Nat.one_pos (le_max_left _ _)

/-- What the blocks of the snap leave for the window. -/
structure BlocksDone (s : PhysicalLinkRuntime K × LinkSnapOutcome) : Prop where
  reset : s.2.historyResetRequired = link.opens
  matrix : s.2.matrixProfileActivated = (link.due && link.takesMatrix)
  liveMatrix : s.2.matrixProfileActivated = true →
    s.1.liveMatrixProfile = link.control.shadowMatrixProfile
  hint : s.1.control.dlSizeSamplesHint = link.control.dlSizeSamplesHint
  window : s.1.warmupUntilSlot = link.warmupUntilSlot

variable {link}

omit [Field K] [FloorRing K] in
/-- The correlation block keeps what the blocks before it did. -/
theorem snapCorrelation_blocksDone {s : PhysicalLinkRuntime K × LinkSnapOutcome}
    (h : link.BlocksDone s) : link.BlocksDone (snapCorrelation s) := by
  unfold snapCorrelation
  dsimp only
  split_ifs
  · exact ⟨h.reset, h.matrix, h.liveMatrix, h.hint, h.window⟩
  · exact h

omit [Field K] [LinearOrder K] [FloorRing K] in
/-- What the profile block does to the window. -/
theorem snapProfile_window {s : PhysicalLinkRuntime K × LinkSnapOutcome}
    (h : s.2.valuesChanged = true) (hreset : s.2.historyResetRequired = false) :
    (snapProfile s).2.historyResetRequired = s.1.takesProfile
      ∧ (snapProfile s).2.matrixProfileActivated = s.2.matrixProfileActivated
      ∧ (snapProfile s).1.takesMatrix = s.1.takesMatrix
      ∧ (snapProfile s).1.liveMatrixProfileActive
        = (s.1.liveMatrixProfileActive && !s.1.takesProfile)
      ∧ (snapProfile s).1.liveMatrixProfile = s.1.liveMatrixProfile
      ∧ (snapProfile s).1.warmupUntilSlot = s.1.warmupUntilSlot := by
  cases ht : s.1.takesProfile
  · have hno : ¬ (s.2.valuesChanged ∧ s.1.control.profilePending ∧ s.1.profileEligible) := by
      rintro ⟨-, hp, he⟩
      rw [takesProfile, hp, he] at ht
      cases ht
    unfold snapProfile
    dsimp only
    rw [if_neg hno]
    simp [hreset]
  · obtain ⟨hp, he⟩ := Bool.and_eq_true_iff.mp ht
    unfold snapProfile
    dsimp only
    rw [if_pos ⟨h, hp, he⟩]
    simp [takesMatrix, matrixEligible]

omit [Field K] [FloorRing K] in
/-- What the matrix block does to the window. -/
theorem snapMatrix_window {s : PhysicalLinkRuntime K × LinkSnapOutcome}
    (h : s.2.valuesChanged = true) :
    (snapMatrix s).2.historyResetRequired =
        (if s.1.takesMatrix then !(s.1.liveMatrixProfileActive &&
          matrixHistoryCompatible s.1.liveMatrixProfile s.1.control.shadowMatrixProfile)
        else s.2.historyResetRequired)
      ∧ (snapMatrix s).2.matrixProfileActivated
        = (s.2.matrixProfileActivated || s.1.takesMatrix)
      ∧ (s.1.takesMatrix = true →
        (snapMatrix s).1.liveMatrixProfile = s.1.control.shadowMatrixProfile)
      ∧ (snapMatrix s).1.warmupUntilSlot = s.1.warmupUntilSlot := by
  cases ht : s.1.takesMatrix
  · have hno : ¬ (s.2.valuesChanged ∧ s.1.control.matrixProfilePending ∧ s.1.matrixEligible) := by
      rintro ⟨-, hp, he⟩
      rw [takesMatrix, hp, he] at ht
      cases ht
    unfold snapMatrix
    dsimp only
    rw [if_neg hno]
    simp
  · obtain ⟨hp, he⟩ := Bool.and_eq_true_iff.mp ht
    unfold snapMatrix
    dsimp only
    rw [if_pos ⟨h, hp, he⟩]
    simp

omit [Field K] [FloorRing K] in
/-- **What the blocks of a snap do**, in their order. -/
theorem blocksDone (link : PhysicalLinkRuntime K) :
    link.BlocksDone (snapCorrelation (snapMatrix (snapProfile link.snapValues))) := by
  apply snapCorrelation_blocksDone
  have hchanged := link.snapValues_valuesChanged
  have hcore := (snapMatrix_sameCore (snapProfile link.snapValues)).trans
    (snapProfile_sameCore link.snapValues)
  have hhint : (snapMatrix (snapProfile link.snapValues)).1.control.dlSizeSamplesHint
      = link.control.dlSizeSamplesHint := by
    rw [hcore.dlSizeSamplesHint, snapValues_control]
  -- while the gate is closed no block runs
  cases hdue : link.due
  · rw [hdue] at hchanged
    rw [snapProfile_of_unchanged _ hchanged, snapMatrix_of_unchanged _ hchanged] at hhint ⊢
    rw [snapValues_of_not_due link hdue] at hhint ⊢
    exact ⟨by simp [opens, hdue], by simp [hdue], by simp, hhint, rfl⟩
  · rw [hdue] at hchanged
    have hvalues := snapValues_of_due link hdue
    have hreset : link.snapValues.2.historyResetRequired = false := by rw [hvalues]
    obtain ⟨preset, pmatrix, ptakes, pactive, plive, pwindow⟩ :=
      snapProfile_window hchanged hreset
    obtain ⟨mreset, mmatrix, mlive, mwindow⟩ :=
      snapMatrix_window ((snapProfile_valuesChanged _).trans hchanged)
    have hprofile : link.snapValues.1.takesProfile = link.takesProfile := by rw [hvalues]; rfl
    have hmatrix : (snapProfile link.snapValues).1.takesMatrix = link.takesMatrix := by
      rw [ptakes, hvalues]
      rfl
    have hshadow : (snapProfile link.snapValues).1.control.shadowMatrixProfile
        = link.control.shadowMatrixProfile := by
      rw [(snapProfile_sameCore _).shadowMatrixProfile, snapValues_control]
    have hactive : link.snapValues.1.liveMatrixProfileActive = link.liveMatrixProfileActive := by
      rw [hvalues]
    have hlive : link.snapValues.1.liveMatrixProfile = link.liveMatrixProfile := by rw [hvalues]
    have hnone : link.snapValues.2.matrixProfileActivated = false := by rw [hvalues]
    rw [hmatrix, pactive, plive, hactive, hlive, hprofile, hshadow, preset, hprofile] at mreset
    rw [hmatrix, pmatrix, hnone, Bool.false_or] at mmatrix
    constructor
    · rw [mreset, opens, hdue, Bool.true_and]
      cases link.takesProfile <;> cases link.takesMatrix <;> simp
    · rw [mmatrix, hdue, Bool.true_and]
    · intro htaken
      rw [mlive (hmatrix.trans (mmatrix.symm.trans htaken)), hshadow]
    · exact hhint
    · rw [mwindow, pwindow, hvalues]

/-- **The window of a snap.** -/
theorem snap_window (link : PhysicalLinkRuntime K) (count : ℕ) :
    (link.snap count).2.historyResetRequired = link.opens
      ∧ (link.snap count).1.warmupUntilSlot = link.windowEnd count := by
  have hdone := blocksDone link
  refine ⟨hdone.reset, ?_⟩
  have hpos := windowSlots_pos link.windowSamples count
  unfold snap snapWarmup windowEnd
  dsimp only
  rw [hdone.reset, hdone.hint, hdone.window, foldl_profileDelaySize]
  -- no reset: the window only closes; a reset opens it anew
  cases hopens : link.opens
  · simp only [Bool.false_eq_true, if_false]
    split_ifs with hboth hle hle
    · rfl
    · exact absurd hboth.2 hle
    · by_contra hne
      exact hboth ⟨hne, hle⟩
    · rfl
  -- the reset came with a due gate, so the matrix was applied in this snap
  · have hdue : link.due = true := by
      unfold opens at hopens
      exact (Bool.and_eq_true _ _ ▸ hopens).1
    have hsamples : (if (snapCorrelation (snapMatrix (snapProfile link.snapValues))).2.matrixProfileActivated
          = true then max link.control.dlSizeSamplesHint (tapSpan
            (snapCorrelation (snapMatrix (snapProfile link.snapValues))).1.liveMatrixProfile.tapList)
        else link.control.dlSizeSamplesHint) = link.windowSamples := by
      have hmatrix := hdone.matrix
      rw [hdue, Bool.true_and] at hmatrix
      unfold windowSamples
      rw [hmatrix]
      split_ifs with hpending
      · rw [hdone.liveMatrix (hmatrix.trans hpending)]
      · rfl
    rw [hsamples]
    simp only [if_true]
    rw [if_neg]
    · rfl
    · rintro ⟨-, hle⟩
      change link.nextSlot + windowSlots link.windowSamples count ≤ link.nextSlot at hle
      omega

/-- No snap sets a pending flag. -/
theorem snap_pending_le (link : PhysicalLinkRuntime K) (count : ℕ) :
    ((link.snap count).1.control.profilePending = true → link.control.profilePending = true)
      ∧ ((link.snap count).1.control.matrixProfilePending = true →
        link.control.matrixProfilePending = true) := by
  -- each block can only clear its own flag
  have hprofile : ∀ s : PhysicalLinkRuntime K × LinkSnapOutcome,
      ((snapProfile s).1.control.profilePending = true → s.1.control.profilePending = true)
        ∧ (snapProfile s).1.control.matrixProfilePending = s.1.control.matrixProfilePending := by
    intro s
    unfold snapProfile
    dsimp only
    split_ifs <;> simp
  have hmatrix : ∀ s : PhysicalLinkRuntime K × LinkSnapOutcome,
      (snapMatrix s).1.control.profilePending = s.1.control.profilePending
        ∧ ((snapMatrix s).1.control.matrixProfilePending = true →
          s.1.control.matrixProfilePending = true) := by
    intro s
    unfold snapMatrix
    dsimp only
    split_ifs <;> simp
  have hcorrelation : ∀ s : PhysicalLinkRuntime K × LinkSnapOutcome,
      (snapCorrelation s).1.control.profilePending = s.1.control.profilePending
        ∧ (snapCorrelation s).1.control.matrixProfilePending
          = s.1.control.matrixProfilePending := by
    intro s
    unfold snapCorrelation
    dsimp only
    split_ifs <;> simp
  have hvalues : link.snapValues.1.control.profilePending = link.control.profilePending
      ∧ link.snapValues.1.control.matrixProfilePending = link.control.matrixProfilePending := by
    rw [snapValues_control]
    exact ⟨rfl, rfl⟩
  obtain ⟨w, hw⟩ := snapWarmup_fst count link.nextSlot
    (snapCorrelation (snapMatrix (snapProfile link.snapValues)))
  unfold snap
  rw [hw]
  dsimp only
  rw [(hcorrelation _).1, (hcorrelation _).2, (hmatrix _).1]
  refine ⟨?_, ?_⟩
  · intro hp
    rw [← hvalues.1]
    exact (hprofile _).1 hp
  · intro hm
    have hbefore := (hmatrix _).2 hm
    rw [(hprofile _).2, hvalues.2] at hbefore
    exact hbefore

end PhysicalLinkRuntime

/-! ## The cap -/

section Cap

variable {K : Type} [Field K] [LinearOrder K] [FloorRing K]

/-- What the cap checks of the two handlers let through to a link with these hints. -/
def WithinCap (cap : ℤ) (dlSizeSamplesHint slotCountHint : ℕ) : Update K → Prop
  | .profile _ => 0 < dlSizeSamplesHint → 0 < slotCountHint →
      (((dlSizeSamplesHint + slotCountHint - 1) / slotCountHint : ℕ) : ℤ) ≤ cap
  | .matrix staged => 0 < slotCountHint →
      (((tapSpan staged.tapList + slotCountHint - 1) / slotCountHint : ℕ) : ℤ) ≤ cap
  | _ => True

/-- A profile that passes the check stays within the cap. -/
theorem profileWarmupCheck_eq_ok {srv : ControlServer K} {ctl : BrokerLinkControl K}
    (hcap : 0 < srv.warmupCapSlots) {u : Unit} (h : profileWarmupCheck srv ctl = .ok u)
    (staged : ProfileShadow K) :
    WithinCap srv.warmupCapSlots ctl.dlSizeSamplesHint ctl.slotCountHint (.profile staged) := by
  intro hdl hcount
  by_contra hover
  unfold profileWarmupCheck at h
  rw [if_pos ⟨hcap, hdl, hcount⟩] at h
  dsimp only at h
  rw [if_pos (not_le.mp hover)] at h
  cases h

/-- A matrix that passes the check stays within the cap. -/
theorem matrixWarmupCheck_eq_ok {srv : ControlServer K} {ctl : BrokerLinkControl K}
    (hcap : 0 < srv.warmupCapSlots) {staged : MatrixProfileShadow K} {u : Unit}
    (h : matrixWarmupCheck srv ctl staged = .ok u) :
    WithinCap srv.warmupCapSlots ctl.dlSizeSamplesHint ctl.slotCountHint (.matrix staged) := by
  intro hcount
  by_contra hover
  have hsize := foldl_profileDelaySize staged 0
  rw [Nat.zero_max] at hsize
  unfold matrixWarmupCheck at h
  rw [if_pos ⟨hcap, hcount⟩] at h
  dsimp only at h
  rw [← hsize] at hover
  unfold PhysicalLinkRuntime.profileDelaySize at hover
  rw [if_pos (not_le.mp hover)] at h
  cases h

/-- An admitted profile request passed the check. -/
theorem profileRequest_warmupCheck [Libm K] {srv : ControlServer K} {links : LinkMap K}
    {fields : JsonObject K} {r : SwapRequest K (ProfileShadow K)}
    (h : profileRequest srv links fields = .ok r) :
    ∃ u, profileWarmupCheck srv r.control = .ok u := by
  unfold profileRequest at h
  obtain ⟨⟨linkId, ctl⟩, -, h⟩ := bind_eq_ok h
  obtain ⟨_, -, h⟩ := bind_eq_ok h
  obtain ⟨u, hcheck, h⟩ := bind_eq_ok h
  obtain ⟨items, -, h⟩ := bind_eq_ok h
  obtain ⟨_, -, h⟩ := bind_eq_ok h
  obtain ⟨_, -, h⟩ := bind_eq_ok h
  obtain ⟨taps, -, h⟩ := bind_eq_ok h
  obtain ⟨staged, -, h⟩ := bind_eq_ok h
  obtain ⟨gate, -, h⟩ := bind_eq_ok h
  obtain ⟨force, -, h⟩ := bind_eq_ok h
  obtain ⟨batch, -, h⟩ := bind_eq_ok h
  cases h
  exact ⟨u, hcheck⟩

/-- An admitted matrix request passed the check. -/
theorem matrixRequest_warmupCheck [Libm K] {srv : ControlServer K} {links : LinkMap K}
    {fields : JsonObject K} {r : SwapRequest K (MatrixProfileShadow K)}
    (h : matrixRequest srv links fields = .ok r) :
    ∃ u, matrixWarmupCheck srv r.control r.staged = .ok u := by
  unfold matrixRequest at h
  obtain ⟨⟨linkId, ctl⟩, -, h⟩ := bind_eq_ok h
  obtain ⟨_, -, h⟩ := bind_eq_ok h
  obtain ⟨_, -, h⟩ := bind_eq_ok h
  obtain ⟨_, -, h⟩ := bind_eq_ok h
  obtain ⟨items, -, h⟩ := bind_eq_ok h
  obtain ⟨_, -, h⟩ := bind_eq_ok h
  obtain ⟨force, -, h⟩ := bind_eq_ok h
  obtain ⟨gate, -, h⟩ := bind_eq_ok h
  obtain ⟨staged, -, h⟩ := bind_eq_ok h
  obtain ⟨u, hcheck, h⟩ := bind_eq_ok h
  obtain ⟨batch, -, h⟩ := bind_eq_ok h
  cases h
  exact ⟨u, hcheck⟩

/-- A window of `samples` stays within the cap when both the samples and one slot do. -/
theorem windowSlots_le_iff {cap : ℤ} (hcap : 0 < cap) (samples : ℕ) {count : ℕ}
    (hcount : 0 < count) :
    (windowSlots samples count : ℤ) ≤ cap ↔ (samples : ℤ) ≤ cap * count := by
  obtain ⟨c, rfl⟩ := Int.eq_ofNat_of_zero_le hcap.le
  have hc : 1 ≤ c := by omega
  have hdiv : (samples + count - 1) / count ≤ c ↔ samples ≤ c * count := by
    rw [Nat.div_le_iff_le_mul_add_pred hcount, Nat.mul_comm count c]
    omega
  unfold windowSlots
  rw [if_neg hcount.ne', Int.ofNat_le, Nat.max_le]
  constructor
  · rintro ⟨-, hle⟩
    exact_mod_cast hdiv.mp hle
  · intro hle
    exact ⟨hc, hdiv.mpr (by exact_mod_cast hle)⟩

/-- A link that was prepared with this setup and holds only swaps within the cap. -/
structure LinkCapped (cap : ℤ) (setup : LinkSetup K) (link : PhysicalLinkRuntime K) : Prop where
  dlSizeSamplesHint : link.control.dlSizeSamplesHint = setup.dlSizeSamplesHint
  slotCountHint : link.control.slotCountHint = setup.slotCountHint
  profile : link.control.profilePending = true →
    WithinCap cap setup.dlSizeSamplesHint setup.slotCountHint (.profile link.control.shadowProfile)
  matrix : link.control.matrixProfilePending = true →
    WithinCap cap setup.dlSizeSamplesHint setup.slotCountHint
      (.matrix link.control.shadowMatrixProfile)
  single : ¬ (link.control.profilePending = true ∧ link.control.matrixProfilePending = true)

namespace LinkCapped

variable {cap : ℤ} {setup : LinkSetup K} {link : PhysicalLinkRuntime K}

/-- Publishing an update within the cap keeps the link within it. -/
theorem publish (h : LinkCapped cap setup link) (gate : ℕ) {u : Update K}
    (hu : WithinCap cap setup.dlSizeSamplesHint setup.slotCountHint u) :
    LinkCapped cap setup (link.publish gate u) := by
  have hdl : (link.publish gate u).control.dlSizeSamplesHint = setup.dlSizeSamplesHint := by
    rw [PhysicalLinkRuntime.publish_control, BrokerLinkControl.publish_dlSizeSamplesHint,
      h.dlSizeSamplesHint]
  have hcount : (link.publish gate u).control.slotCountHint = setup.slotCountHint := by
    rw [PhysicalLinkRuntime.publish_control, BrokerLinkControl.publish_slotCountHint,
      h.slotCountHint]
  cases u with
  | scalar field value => exact ⟨hdl, hcount, h.profile, h.matrix, h.single⟩
  | correlation staged => exact ⟨hdl, hcount, h.profile, h.matrix, h.single⟩
  | profile staged =>
      exact ⟨hdl, hcount, fun _ => hu, fun hp => absurd hp Bool.false_ne_true,
        fun hboth => absurd hboth.2 Bool.false_ne_true⟩
  | matrix staged =>
      exact ⟨hdl, hcount, fun hp => absurd hp Bool.false_ne_true, fun _ => hu,
        fun hboth => absurd hboth.1 Bool.false_ne_true⟩

/-- A snap only ever takes what is pending. -/
theorem snap (h : LinkCapped cap setup link) (count : ℕ) :
    LinkCapped cap setup (link.snap count).1 := by
  have hcore := link.snap_sameCore count
  have hpending := link.snap_pending_le count
  have hshadow : (link.snap count).1.control.shadowProfile = link.control.shadowProfile := by
    rw [hcore.shadowProfile, PhysicalLinkRuntime.snapValues_control]
  have hmatrix : (link.snap count).1.control.shadowMatrixProfile
      = link.control.shadowMatrixProfile := by
    rw [hcore.shadowMatrixProfile, PhysicalLinkRuntime.snapValues_control]
  constructor
  · rw [hcore.dlSizeSamplesHint, PhysicalLinkRuntime.snapValues_control, ← h.dlSizeSamplesHint]
  · rw [hcore.slotCountHint, PhysicalLinkRuntime.snapValues_control, ← h.slotCountHint]
  · intro hp
    rw [hshadow]
    exact h.profile (hpending.1 hp)
  · intro hp
    rw [hmatrix]
    exact h.matrix (hpending.2 hp)
  · rintro ⟨hp, hm⟩
    exact h.single ⟨hpending.1 hp, hpending.2 hm⟩

/-- **The window that a snap opens** on a link within the cap, in a slot of the expected size. -/
theorem window_le_iff (h : LinkCapped cap setup link) (hcap : 0 < cap)
    (hopens : (link.snap setup.slotCountHint).2.historyResetRequired = true) :
    ((link.snap setup.slotCountHint).1.warmupUntilSlot : ℤ) - link.nextSlot ≤ cap ↔
      (link.control.matrixProfilePending = true →
        (setup.dlSizeSamplesHint : ℤ) ≤ cap * setup.slotCountHint ∨ setup.slotCountHint = 0) := by
  obtain ⟨hreset, hwindow⟩ := link.snap_window setup.slotCountHint
  rw [hreset] at hopens
  have hlength : ((link.snap setup.slotCountHint).1.warmupUntilSlot : ℤ) - link.nextSlot
      = windowSlots link.windowSamples setup.slotCountHint := by
    rw [hwindow, PhysicalLinkRuntime.windowEnd, if_pos hopens]
    push_cast
    ring
  rw [hlength]
  rcases Nat.eq_zero_or_pos setup.slotCountHint with hzero | hpos
  · rw [hzero]
    constructor
    · exact fun _ _ => Or.inr rfl
    · intro _
      unfold windowSlots
      rw [if_pos rfl]
      exact_mod_cast hcap
  · have hne : ¬ setup.slotCountHint = 0 := hpos.ne'
    rw [windowSlots_le_iff hcap _ hpos]
    simp only [hne, or_false]
    -- the slots of a check that passed are within the cap
    have hchecked : ∀ samples : ℕ,
        (((samples + setup.slotCountHint - 1) / setup.slotCountHint : ℕ) : ℤ) ≤ cap →
          (samples : ℤ) ≤ cap * setup.slotCountHint := by
      intro samples hle
      apply (windowSlots_le_iff hcap samples hpos).mp
      unfold windowSlots
      rw [if_neg hne]
      push_cast at hle ⊢
      exact max_le hcap hle
    cases hm : link.takesMatrix
    · have hp : link.takesProfile = true := by
        unfold PhysicalLinkRuntime.opens at hopens
        rw [hm, Bool.false_and, Bool.or_false] at hopens
        exact (Bool.and_eq_true_iff.mp hopens).2
      have hpending := (Bool.and_eq_true_iff.mp hp).1
      have hnone : link.control.matrixProfilePending = false := by
        by_contra hboth
        exact h.single ⟨hpending, Bool.not_eq_false _ ▸ hboth⟩
      have hsamples : link.windowSamples = setup.dlSizeSamplesHint := by
        unfold PhysicalLinkRuntime.windowSamples
        rw [hm, h.dlSizeSamplesHint]
        rfl
      rw [hsamples, hnone]
      refine ⟨fun _ hfalse => absurd hfalse Bool.false_ne_true, fun _ => ?_⟩
      rcases Nat.eq_zero_or_pos setup.dlSizeSamplesHint with hdl | hdl
      · rw [hdl]
        positivity
      · exact hchecked _ (h.profile hpending hdl hpos)
    · have hpending := (Bool.and_eq_true_iff.mp hm).1
      have hsamples : link.windowSamples = max setup.dlSizeSamplesHint
          (tapSpan link.control.shadowMatrixProfile.tapList) := by
        unfold PhysicalLinkRuntime.windowSamples
        rw [hm, h.dlSizeSamplesHint]
        rfl
      have hspan := hchecked _ (h.matrix hpending hpos)
      rw [hsamples, hpending]
      push_cast
      rw [max_le_iff]
      exact ⟨fun hle _ => hle.1, fun hle => ⟨hle rfl, hspan⟩⟩

end LinkCapped

/-! ### Runs -/

variable [Libm K]

/-- What every run keeps: the cap of the server, and links and batches within it. -/
structure PlaneCapped (cap : ℤ) (setup : String → Option (LinkSetup K)) (plane : ControlPlane K) :
    Prop where
  warmupCapSlots : plane.server.warmupCapSlots = cap
  batches : BatchesHold plane.server fun id u => ∀ s, setup id = some s →
    WithinCap cap s.dlSizeSamplesHint s.slotCountHint u
  links : ∀ id link, plane.links id = some link →
    ∃ s, setup id = some s ∧ LinkCapped cap s link

namespace PlaneCapped

variable {cap : ℤ} {setup : String → Option (LinkSetup K)} {plane : ControlPlane K}

/-- The checks of the handlers keep an accepted swap within the cap. -/
theorem vouches (h : PlaneCapped cap setup plane) (hcap : 0 < cap) :
    Vouches { plane.server with msgsReceived := plane.server.msgsReceived + 1 } plane.links.linkMap
      fun id u => ∀ s, setup id = some s →
        WithinCap cap s.dlSizeSamplesHint s.slotCountHint u := by
  have hhints : ∀ id ctl s, plane.links.linkMap id = some ctl → setup id = some s →
      ctl.dlSizeSamplesHint = s.dlSizeSamplesHint ∧ ctl.slotCountHint = s.slotCountHint := by
    intro id ctl s hctl hs
    obtain ⟨link, hlink, rfl⟩ := Option.map_eq_some_iff.mp hctl
    obtain ⟨s', hs', hcapped⟩ := h.links id link hlink
    obtain rfl := Option.some.inj (hs.symm.trans hs')
    exact ⟨hcapped.dlSizeSamplesHint, hcapped.slotCountHint⟩
  constructor
  · intro fields r _ s _
    trivial
  · intro fields r hr s hs
    have hlink := (profileRequest_admitted hr).1
    obtain ⟨hdl, hcount⟩ := hhints _ _ s hlink hs
    obtain ⟨u, hcheck⟩ := profileRequest_warmupCheck hr
    have hwithin := profileWarmupCheck_eq_ok (by rw [h.warmupCapSlots]; exact hcap) hcheck r.staged
    rw [hdl, hcount] at hwithin
    exact h.warmupCapSlots ▸ hwithin
  · intro fields r hr s hs
    have hlink := (matrixRequest_admitted hr).1
    obtain ⟨hdl, hcount⟩ := hhints _ _ s hlink hs
    obtain ⟨u, hcheck⟩ := matrixRequest_warmupCheck hr
    have hwithin := matrixWarmupCheck_eq_ok (by rw [h.warmupCapSlots]; exact hcap) hcheck
    rw [hdl, hcount] at hwithin
    exact h.warmupCapSlots ▸ hwithin
  · intro fields r _ s _
    trivial

/-- Every event keeps the plane within the cap. -/
theorem step (h : PlaneCapped cap setup plane) (hcap : 0 < cap) (e : ControlEvent K) :
    PlaneCapped cap setup (plane.step e) := by
  cases e with
  | message fields =>
      have hkeeps := (h.vouches hcap).handleMessage_keeps h.batches fields
      refine ⟨hkeeps.warmupCapSlots.trans h.warmupCapSlots, hkeeps.batches, ?_⟩
      intro id link' hlink'
      rw [ControlPlane.step_message_links] at hlink'
      obtain ⟨link, hlink, rfl⟩ := Option.map_eq_some_iff.mp hlink'
      obtain ⟨s, hs, hcapped⟩ := h.links id link hlink
      refine ⟨s, hs, ?_⟩
      have hall : ∀ p ∈ (plane.handled fields).published.filter (·.linkId = id),
          WithinCap cap s.dlSizeSamplesHint s.slotCountHint p.update := by
        intro p hp
        obtain ⟨hmem, hid⟩ := List.mem_filter.mp hp
        exact hkeeps.published p hmem s (by rw [of_decide_eq_true hid, hs])
      unfold LinkTable.publishTo
      revert hall hcapped
      generalize (plane.handled fields).published.filter (·.linkId = id) = ps
      clear hlink hlink'
      induction ps generalizing link with
      | nil => exact fun hcapped _ => hcapped
      | cons p ps ih =>
          intro hcapped hall
          exact ih _ (hcapped.publish p.gate (hall p List.mem_cons_self))
            fun q hq => hall q (List.mem_cons_of_mem p hq)
  | slot linkId count =>
      refine ⟨h.warmupCapSlots, h.batches, ?_⟩
      intro id link' hlink'
      by_cases hid : id = linkId
      · subst hid
        rw [ControlPlane.step_slot_links] at hlink'
        obtain ⟨link, hlink, rfl⟩ := Option.map_eq_some_iff.mp hlink'
        obtain ⟨s, hs, hcapped⟩ := h.links id link hlink
        exact ⟨s, hs, hcapped.snap count⟩
      · rw [ControlPlane.step_slot_links_of_ne plane hid] at hlink'
        exact h.links id link' hlink'

omit [Libm K] in
/-- A plane that was just prepared is within the cap. -/
theorem prepared (cap : ℤ) (backendName : String) (setup : String → Option (LinkSetup K)) :
    PlaneCapped cap setup (ControlPlane.prepared cap backendName setup) := by
  refine ⟨rfl, fun _ hbatch => absurd hbatch List.not_mem_nil, ?_⟩
  intro id link hlink
  obtain ⟨s, hs, rfl⟩ := Option.map_eq_some_iff.mp hlink
  exact ⟨s, hs, rfl, rfl, fun hp => absurd hp Bool.false_ne_true,
    fun hp => absurd hp Bool.false_ne_true, fun hp => absurd hp.1 Bool.false_ne_true⟩

end PlaneCapped

/-- **The cap bounds what is opened, up to the declared ring of a matrix swap.** In every run of
the control plane, a snap in a slot of the expected size opens a window of at most `cap` slots
exactly when the swap it takes is no matrix swap or the declared ring alone stays within the
cap. -/
theorem warmup_within_cap (cap : ℤ) (hcap : 0 < cap) (backendName : String)
    (setup : String → Option (LinkSetup K)) (events : List (ControlEvent K)) (id : String)
    (s : LinkSetup K) (hs : setup id = some s) (link : PhysicalLinkRuntime K)
    (hlink : (events.foldl ControlPlane.step
      (ControlPlane.prepared cap backendName setup)).links id = some link)
    (hopens : (link.snap s.slotCountHint).2.historyResetRequired = true) :
    ((link.snap s.slotCountHint).1.warmupUntilSlot : ℤ) - link.nextSlot ≤ cap ↔
      (link.control.matrixProfilePending = true →
        (s.dlSizeSamplesHint : ℤ) ≤ cap * s.slotCountHint ∨ s.slotCountHint = 0) := by
  have hrun : PlaneCapped cap setup
      (events.foldl ControlPlane.step (ControlPlane.prepared cap backendName setup)) :=
    Run.invariant (I := PlaneCapped cap setup) (fun _ e h => h.step hcap e)
      (PlaneCapped.prepared cap backendName setup) events
  obtain ⟨s', hs', hcapped⟩ := hrun.links id link hlink
  obtain rfl := Option.some.inj (hs.symm.trans hs')
  exact hcapped.window_le_iff hcap hopens

end Cap

/-! ## Concrete links -/

/-- A link whose declared ring takes ten slots to fill. -/
def slowLink : LinkSetup ℚ :=
  { yamlInitial := MutableParams.default, mixing := [], chainHasLeadingTdl := true
    ntHint := 1, nrHint := 1, fixedMimoDeclared := false, correlationDeclared := false
    matrixProfileSupported := true, dlSizeSamplesHint := 100, slotCountHint := 10 }

def slowSetup (id : String) : Option (LinkSetup ℚ) := if id = "l" then some slowLink else none

/-- A swap to a single tap without delay. -/
def directPath : JsonObject ℚ :=
  [("type", .string "matrix_profile_swap"), ("link_id", .string "l"), ("nt", .number 1),
    ("nr", .number 1), ("lanes", .array [.object [("rx_port", .number 0), ("tx_port", .number 0),
      ("taps", .array [.object [("delay_samples", .number 0)]])]])]

/-- The plane with the swap pending, on a server with this cap. -/
def slowPlane (cap : ℤ) : ControlPlane ℚ :=
  (ControlPlane.prepared cap "cpu" slowSetup).step (.message directPath)

theorem warmup_within_cap_slowLink : ∃ link : PhysicalLinkRuntime ℚ,
    (slowPlane 10).links "l" = some link ∧
      (((link.snap slowLink.slotCountHint).1.warmupUntilSlot : ℤ) - link.nextSlot ≤ 10 ↔
        (link.control.matrixProfilePending = true →
          (slowLink.dlSizeSamplesHint : ℤ) ≤ 10 * slowLink.slotCountHint
            ∨ slowLink.slotCountHint = 0)) := by
  have hopens : ((slowPlane 10).links "l").any
      (fun link => (link.snap slowLink.slotCountHint).2.historyResetRequired) = true := by
    decide +kernel
  cases hlink : (slowPlane 10).links "l" with
  | none =>
      rw [hlink] at hopens
      cases hopens
  | some link =>
      rw [hlink] at hopens
      exact ⟨link, rfl, warmup_within_cap 10 (by decide) "cpu" slowSetup [.message directPath] "l"
        slowLink rfl link hlink hopens⟩

/-- With a cap of three slots the swap is accepted, and its window is ten slots long. -/
theorem warmup_exceeds_cap :
    ((ControlPlane.prepared 3 "cpu" slowSetup).handled directPath).reply.ok = true ∧
      ((slowPlane 3).links "l").any (fun link =>
        (link.snap slowLink.slotCountHint).2.historyResetRequired &&
          !decide (((link.snap slowLink.slotCountHint).1.warmupUntilSlot : ℤ) - link.nextSlot ≤ 3))
        = true := by
  decide +kernel
