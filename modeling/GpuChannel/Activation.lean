/-
# The activation of swaps

A profile or matrix swap waits in the shadow of its link until a slot takes it.  The run here keeps
a link, one of its lanes on the device, and a journal: the accepted updates, and which of them the
activations took.

Whatever the order of updates and slots, a swap is activated at most once, other updates activate
nothing and clear nothing, and the history is kept from one matrix to a compatible one only.
-/
import GpuChannel.DeviceChannel
import GpuChannel.CpuBackend

/-! ## What a snap does with the swaps -/

namespace PhysicalLinkRuntime

variable {K : Type} [Field K] [LinearOrder K] [FloorRing K]

/-- The snap takes no swap. -/
structure SnapsNothing (link : PhysicalLinkRuntime K)
    (s : PhysicalLinkRuntime K × LinkSnapOutcome) : Prop where
  profileActivated : s.2.profileActivated = false
  matrixActivated : s.2.matrixProfileActivated = false
  reset : s.2.historyResetRequired = false
  liveProfile : s.1.liveProfile = link.liveProfile
  profileActive : s.1.liveProfileActive = link.liveProfileActive
  liveMatrix : s.1.liveMatrixProfile = link.liveMatrixProfile
  matrixActive : s.1.liveMatrixProfileActive = link.liveMatrixProfileActive
  profilePending : s.1.control.profilePending = link.control.profilePending
  matrixPending : s.1.control.matrixProfilePending = link.control.matrixProfilePending

/-- The snap takes the pending profile. -/
structure SnapsProfile (link : PhysicalLinkRuntime K)
    (s : PhysicalLinkRuntime K × LinkSnapOutcome) : Prop where
  pending : link.control.profilePending = true
  valuesChanged : s.2.valuesChanged = true
  profileActivated : s.2.profileActivated = true
  matrixActivated : s.2.matrixProfileActivated = false
  reset : s.2.historyResetRequired = true
  liveProfile : s.1.liveProfile = link.control.shadowProfile
  profileActive : s.1.liveProfileActive = true
  matrixActive : s.1.liveMatrixProfileActive = false
  profilePending : s.1.control.profilePending = false
  matrixPending : s.1.control.matrixProfilePending = false

/-- The snap takes the pending matrix. -/
structure SnapsMatrix (link : PhysicalLinkRuntime K)
    (s : PhysicalLinkRuntime K × LinkSnapOutcome) : Prop where
  pending : link.control.matrixProfilePending = true
  valuesChanged : s.2.valuesChanged = true
  profileActivated : s.2.profileActivated = false
  matrixActivated : s.2.matrixProfileActivated = true
  reset : s.2.historyResetRequired = !(link.liveMatrixProfileActive &&
    matrixHistoryCompatible link.liveMatrixProfile link.control.shadowMatrixProfile)
  liveMatrix : s.1.liveMatrixProfile = link.control.shadowMatrixProfile
  profileActive : s.1.liveProfileActive = false
  matrixActive : s.1.liveMatrixProfileActive = true
  profilePending : s.1.control.profilePending = false
  matrixPending : s.1.control.matrixProfilePending = false

omit [Field K] [LinearOrder K] [FloorRing K] in
/-- The profile block where it takes the pending profile. -/
theorem snapProfile_of_takes {s : PhysicalLinkRuntime K × LinkSnapOutcome}
    (hchanged : s.2.valuesChanged = true) (h : s.1.takesProfile = true) : snapProfile s =
      ({ s.1 with
          liveProfile := s.1.control.shadowProfile
          control := { s.1.control with
            profilePending := false
            forceInertWarnings :=
              if s.1.chainHasLeadingTdl then s.1.control.forceInertWarnings
              else s.1.control.forceInertWarnings + 1 }
          liveProfileActive := true
          liveMatrixProfileActive := false },
        { s.2 with profileActivated := true, historyResetRequired := true }) := by
  obtain ⟨hpending, heligible⟩ := Bool.and_eq_true_iff.mp h
  unfold snapProfile
  exact if_pos ⟨hchanged, hpending, heligible⟩

omit [Field K] [FloorRing K] in
/-- The matrix block where it takes the pending matrix. -/
theorem snapMatrix_of_takes {s : PhysicalLinkRuntime K × LinkSnapOutcome}
    (hchanged : s.2.valuesChanged = true) (h : s.1.takesMatrix = true) : snapMatrix s =
      ({ s.1 with
          liveMatrixProfile := s.1.control.shadowMatrixProfile
          control := { s.1.control with matrixProfilePending := false }
          liveMatrixProfileActive := true
          liveProfileActive := false },
        { s.2 with
          matrixProfileActivated := true
          historyResetRequired := !(s.1.liveMatrixProfileActive &&
            matrixHistoryCompatible s.1.liveMatrixProfile s.1.control.shadowMatrixProfile) }) := by
  obtain ⟨hpending, heligible⟩ := Bool.and_eq_true_iff.mp h
  unfold snapMatrix
  exact if_pos ⟨hchanged, hpending, heligible⟩

/-- The blocks behind the matrix block leave the swaps alone. -/
theorem snap_eq (link : PhysicalLinkRuntime K) (count : ℕ) :
    ∃ mixing pending w changed, link.snap count =
      ({ (snapMatrix (snapProfile link.snapValues)).1 with
          fading := { (snapMatrix (snapProfile link.snapValues)).1.fading with mixing := mixing }
          control := { (snapMatrix (snapProfile link.snapValues)).1.control with
            correlationPending := pending }
          warmupUntilSlot := w },
        { (snapMatrix (snapProfile link.snapValues)).2 with correlationChanged := changed }) := by
  unfold snap snapWarmup snapCorrelation
  dsimp only
  split_ifs <;> exact ⟨_, _, _, _, rfl⟩

/-- A snap that takes no swap. -/
theorem snap_nothing (link : PhysicalLinkRuntime K) (count : ℕ)
    (hno : link.due = false ∨ (link.takesProfile = false ∧ link.takesMatrix = false)) :
    link.SnapsNothing (link.snap count) := by
  obtain ⟨mixing, pending, w, changed, hsnap⟩ := link.snap_eq count
  rw [hsnap]
  cases hdue : link.due with
  | false =>
      have hchanged := link.snapValues_valuesChanged
      rw [hdue] at hchanged
      rw [snapProfile_of_unchanged _ hchanged, snapMatrix_of_unchanged _ hchanged,
        snapValues_of_not_due link hdue]
      constructor <;> rfl
  | true =>
      obtain ⟨hprofile, hmatrix⟩ := hno.resolve_left (by rw [hdue]; decide)
      have hvalues := snapValues_of_due link hdue
      rw [snapProfile_of_not_takes (by rw [hvalues]; exact hprofile),
        snapMatrix_of_not_takes (by rw [hvalues]; exact hmatrix), hvalues]
      constructor <;> rfl

/-- A due snap takes a pending profile that nothing competes with. -/
theorem snap_profile (link : PhysicalLinkRuntime K) (count : ℕ) (hdue : link.due = true)
    (htakes : link.takesProfile = true) (hone : link.control.matrixProfilePending = false) :
    link.SnapsProfile (link.snap count) := by
  obtain ⟨mixing, pending, w, changed, hsnap⟩ := link.snap_eq count
  rw [hsnap]
  have hpending := (Bool.and_eq_true_iff.mp htakes).1
  rw [snapValues_of_due link hdue, snapProfile_of_takes rfl htakes]
  rw [snapMatrix_of_not_takes (by
    unfold takesMatrix
    dsimp only
    rw [hone, Bool.false_and])]
  constructor <;> first | rfl | exact hpending | exact hone

/-- A due snap takes a pending matrix that nothing competes with. -/
theorem snap_matrix (link : PhysicalLinkRuntime K) (count : ℕ) (hdue : link.due = true)
    (htakes : link.takesMatrix = true) (hone : link.control.profilePending = false) :
    link.SnapsMatrix (link.snap count) := by
  obtain ⟨mixing, pending, w, changed, hsnap⟩ := link.snap_eq count
  rw [hsnap]
  have hpending := (Bool.and_eq_true_iff.mp htakes).1
  rw [snapValues_of_due link hdue]
  rw [snapProfile_of_not_takes (by
    unfold takesProfile
    dsimp only
    rw [hone, Bool.false_and]), snapMatrix_of_takes rfl htakes]
  constructor <;> first | rfl | exact hpending | exact hone

/-- **What a snap can do with the swaps**, when at most one is pending. -/
theorem snap_swaps (link : PhysicalLinkRuntime K) (count : ℕ)
    (hone : link.control.profilePending = false ∨ link.control.matrixProfilePending = false) :
    link.SnapsNothing (link.snap count) ∨ link.SnapsProfile (link.snap count)
      ∨ link.SnapsMatrix (link.snap count) := by
  cases hdue : link.due with
  | false => exact Or.inl (link.snap_nothing count (Or.inl hdue))
  | true =>
      cases hprofile : link.takesProfile with
      | true =>
          have hpending := (Bool.and_eq_true_iff.mp hprofile).1
          have hno := hone.resolve_left (by rw [hpending]; decide)
          exact Or.inr (Or.inl (link.snap_profile count hdue hprofile hno))
      | false =>
          cases hmatrix : link.takesMatrix with
          | true =>
              have hpending := (Bool.and_eq_true_iff.mp hmatrix).1
              have hno := hone.resolve_right (by rw [hpending]; decide)
              exact Or.inr (Or.inr (link.snap_matrix count hdue hmatrix hno))
          | false => exact Or.inl (link.snap_nothing count (Or.inr ⟨hprofile, hmatrix⟩))

end PhysicalLinkRuntime

/-! ## What a refresh does with the layout and the ring -/

section Device

variable {K : Type} [Field K] [LinearOrder K] [FloorRing K] [Libm K]

omit [Field K] [FloorRing K] [Libm K] in
/-- Every profile is compatible with its own history. -/
theorem ProfileShadow.historyCompatible_refl (p : ProfileShadow K) :
    p.historyCompatible p = true := by
  refine decide_eq_true ⟨rfl, rfl, rfl, rfl, rfl, rfl, ?_⟩
  rw [List.all_eq_true]
  intro xy hxy
  rw [← List.map_id p.tapList, List.zip_map'] at hxy
  obtain ⟨tap, -, rfl⟩ := List.mem_map.mp hxy
  exact decide_eq_true ⟨rfl, rfl, rfl, rfl⟩

namespace DeviceLinkState

/-- **The device state carries the live layout of its link.** -/
structure Mirrors (s : DeviceLinkState K) (link : PhysicalLinkRuntime K) (laneIndex : ℕ) : Prop where
  matrix : link.liveMatrixProfileActive = true →
    laneIndex < link.liveMatrixProfile.laneCount ∧
      s.Carries (link.liveMatrixProfile.laneProfile laneIndex)
  profile : link.liveMatrixProfileActive = false → link.liveProfileActive = true →
    s.Carries link.liveProfile

/-- The branches of the refresh after a snap. -/
inductive Refreshed (link : PhysicalLinkRuntime K) (outcome : LinkSnapOutcome) (laneIndex : ℕ)
    (s : DeviceLinkState K) : DeviceLinkState K → Prop
  | unchanged (hchanged : outcome.valuesChanged = false) : Refreshed link outcome laneIndex s s
  | matrix {t : DeviceLinkState K} (hmatrix : link.liveMatrixProfileActive = true)
      (hlane : laneIndex < link.liveMatrixProfile.laneCount)
      (hreset : outcome.historyResetRequired = true)
      (ht : { s with live := link.live }.refreshAllTapsFromLive
        (link.liveMatrixProfile.laneProfile laneIndex) = .ok t) :
      Refreshed link outcome laneIndex s t.clearRing
  | gains (hmatrix : link.liveMatrixProfileActive = true)
      (hlane : laneIndex < link.liveMatrixProfile.laneCount)
      (hreset : outcome.historyResetRequired = false) :
      Refreshed link outcome laneIndex s ({ s with live := link.live }.refreshGains
        (link.liveMatrixProfile.laneProfile laneIndex))
  | profile {t : DeviceLinkState K} (hmatrix : link.liveMatrixProfileActive = false)
      (hprofile : link.liveProfileActive = true)
      (ht : { s with live := link.live }.refreshAllTapsFromLive link.liveProfile = .ok t) :
      Refreshed link outcome laneIndex s (if outcome.profileActivated then t.clearRing else t)
  | tap0 (hmatrix : link.liveMatrixProfileActive = false)
      (hprofile : link.liveProfileActive = false) :
      Refreshed link outcome laneIndex s { s with live := link.live }.refreshTap0FromLive

/-- **What a refresh can do** to a device state with a leading TDL. -/
theorem snapRefresh_cases {link : PhysicalLinkRuntime K} {outcome : LinkSnapOutcome}
    {laneIndex : ℕ} {s s' : DeviceLinkState K} (htdl : s.hasTdl = true)
    (h : snapRefresh link outcome laneIndex s = .ok s') :
    Refreshed link outcome laneIndex s s' := by
  unfold snapRefresh at h
  cases hchanged : outcome.valuesChanged with
  | false =>
      rw [if_neg (by simp [hchanged])] at h
      obtain rfl := Except.ok.inj h
      exact .unchanged hchanged
  | true =>
      rw [if_pos ⟨hchanged, htdl⟩] at h
      dsimp only at h
      cases hmatrix : link.liveMatrixProfileActive with
      | true =>
          rw [if_pos hmatrix] at h
          split_ifs at h with hlane hreset
          · obtain ⟨t, ht, h⟩ := bind_eq_ok h
            obtain rfl := Except.ok.inj h
            exact .matrix hmatrix (not_le.mp hlane) hreset ht
          · obtain rfl := Except.ok.inj h
            exact .gains hmatrix (not_le.mp hlane) (Bool.eq_false_of_not_eq_true hreset)
      | false =>
          rw [if_neg (by rw [hmatrix]; decide)] at h
          cases hprofile : link.liveProfileActive with
          | true =>
              rw [if_pos hprofile] at h
              obtain ⟨t, ht, h⟩ := bind_eq_ok h
              obtain rfl := Except.ok.inj h
              exact .profile hmatrix hprofile ht
          | false =>
              rw [if_neg (by rw [hprofile]; decide)] at h
              obtain rfl := Except.ok.inj h
              exact .tap0 hmatrix hprofile

/-- The two refreshes of taps do not touch the ring. -/
theorem refreshAllTapsFromLive_ring {s t : DeviceLinkState K} {profile : ProfileShadow K}
    (h : s.refreshAllTapsFromLive profile = .ok t) :
    t.delayLine = s.delayLine ∧ t.hasTdl = s.hasTdl := by
  cases htdl : s.hasTdl with
  | false =>
      have hcarries := carries_of_no_tdl htdl profile
      obtain rfl := Except.ok.inj (h.symm.trans hcarries)
      exact ⟨rfl, htdl⟩
  | true =>
      obtain ⟨-, -, rfl⟩ := refreshAllTapsFromLive_eq_ok htdl h
      exact ⟨rfl, htdl⟩

/-- The refresh of the first tap leaves the ring alone. -/
theorem refreshTap0FromLive_ring (s : DeviceLinkState K) :
    s.refreshTap0FromLive.delayLine = s.delayLine ∧ s.refreshTap0FromLive.hasTdl = s.hasTdl := by
  unfold refreshTap0FromLive
  split_ifs
  · exact ⟨rfl, rfl⟩
  · exact ⟨rfl, rfl⟩

/-- A new live layout is mirrored as soon as it is carried. -/
theorem mirrors_of_matrix {s : DeviceLinkState K} {link : PhysicalLinkRuntime K} {laneIndex : ℕ}
    (hmatrix : link.liveMatrixProfileActive = true)
    (hlane : laneIndex < link.liveMatrixProfile.laneCount)
    (h : s.Carries (link.liveMatrixProfile.laneProfile laneIndex)) : s.Mirrors link laneIndex := by
  refine ⟨fun _ => ⟨hlane, h⟩, fun hno => ?_⟩
  rw [hmatrix] at hno
  cases hno

/-- A device that carries the live profile mirrors a link without a matrix. -/
theorem mirrors_of_profile {s : DeviceLinkState K} {link : PhysicalLinkRuntime K} {laneIndex : ℕ}
    (hmatrix : link.liveMatrixProfileActive = false) (h : s.Carries link.liveProfile) :
    s.Mirrors link laneIndex := by
  refine ⟨fun hyes => ?_, fun _ _ => h⟩
  rw [hmatrix] at hyes
  cases hyes

/-- A device at its declared taps mirrors a link without swaps. -/
theorem mirrors_of_declared {s : DeviceLinkState K} {link : PhysicalLinkRuntime K}
    {laneIndex : ℕ} (hmatrix : link.liveMatrixProfileActive = false)
    (hprofile : link.liveProfileActive = false) : s.Mirrors link laneIndex := by
  refine ⟨fun hyes => ?_, fun _ hyes => ?_⟩
  · rw [hmatrix] at hyes
    cases hyes
  · rw [hprofile] at hyes
    cases hyes

/-- What the refresh of a slot makes of the device state: the new layout is mirrored, and the ring
is cleared when the history is reset and kept when it is not. -/
structure SlotRefreshed (link : PhysicalLinkRuntime K) (outcome : LinkSnapOutcome) (laneIndex : ℕ)
    (s s' : DeviceLinkState K) : Prop where
  hasTdl : s'.hasTdl = true
  mirrors : s'.Mirrors link laneIndex
  ring : s'.delayLine =
    if outcome.historyResetRequired then s.delayLine.map fun _ => 0 else s.delayLine

section Slot

variable {link : PhysicalLinkRuntime K} {after : PhysicalLinkRuntime K × LinkSnapOutcome}
  {laneIndex : ℕ} {s s' : DeviceLinkState K}

/-- A snap that takes no swap. -/
theorem Mirrors.snapsNothing (h : s.Mirrors link laneIndex) (htdl : s.hasTdl = true)
    (hsnap : link.SnapsNothing after) (hok : snapRefresh after.1 after.2 laneIndex s = .ok s') :
    SlotRefreshed after.1 after.2 laneIndex s s' := by
  have hmirrors : s.Mirrors after.1 laneIndex := by
    refine ⟨fun hm => ?_, fun hm hp => ?_⟩
    · rw [hsnap.liveMatrix]
      exact h.matrix (hsnap.matrixActive ▸ hm)
    · rw [hsnap.liveProfile]
      exact h.profile (hsnap.matrixActive ▸ hm) (hsnap.profileActive ▸ hp)
  cases snapRefresh_cases htdl hok with
  | unchanged => exact ⟨htdl, hmirrors, by rw [hsnap.reset]; rfl⟩
  | matrix _ _ hreset =>
      rw [hsnap.reset] at hreset
      cases hreset
  | gains hmatrix hlane =>
      have hcarries := (hmirrors.matrix hmatrix).2.withLive after.1.live
      exact ⟨htdl, mirrors_of_matrix hmatrix hlane
          (hcarries.of_refreshGains htdl (ProfileShadow.historyCompatible_refl _)),
        by rw [hsnap.reset]; rfl⟩
  | profile hmatrix _ ht =>
      obtain ⟨hring, htdl'⟩ := refreshAllTapsFromLive_ring ht
      rw [hsnap.profileActivated]
      exact ⟨htdl'.trans htdl, mirrors_of_profile hmatrix (carries_of_refresh ht),
        by rw [hsnap.reset]; exact hring⟩
  | tap0 hmatrix hprofile =>
      obtain ⟨hring, htdl'⟩ := refreshTap0FromLive_ring { s with live := after.1.live }
      exact ⟨htdl'.trans htdl, mirrors_of_declared hmatrix hprofile,
        by rw [hsnap.reset]; exact hring⟩

/-- A snap that takes a profile. -/
theorem snapsProfile_refreshed (htdl : s.hasTdl = true) (hsnap : link.SnapsProfile after)
    (hok : snapRefresh after.1 after.2 laneIndex s = .ok s') :
    SlotRefreshed after.1 after.2 laneIndex s s' := by
  have hactive := hsnap.profileActive
  have hno := hsnap.matrixActive
  cases snapRefresh_cases htdl hok with
  | unchanged hchanged =>
      rw [hsnap.valuesChanged] at hchanged
      cases hchanged
  | matrix hmatrix =>
      rw [hno] at hmatrix
      cases hmatrix
  | gains hmatrix =>
      rw [hno] at hmatrix
      cases hmatrix
  | profile hmatrix _ ht =>
      obtain ⟨hring, htdl'⟩ := refreshAllTapsFromLive_ring ht
      rw [hsnap.profileActivated]
      refine ⟨htdl'.trans htdl, mirrors_of_profile hmatrix (carries_of_refresh ht).clearRing, ?_⟩
      rw [hsnap.reset]
      exact congrArg (List.map fun _ => 0) hring
  | tap0 _ hprofile =>
      rw [hactive] at hprofile
      cases hprofile

/-- A snap that takes a matrix. -/
theorem Mirrors.snapsMatrix (h : s.Mirrors link laneIndex) (htdl : s.hasTdl = true)
    (hsnap : link.SnapsMatrix after) (hok : snapRefresh after.1 after.2 laneIndex s = .ok s') :
    SlotRefreshed after.1 after.2 laneIndex s s' := by
  have hactive := hsnap.matrixActive
  cases snapRefresh_cases htdl hok with
  | unchanged hchanged =>
      rw [hsnap.valuesChanged] at hchanged
      cases hchanged
  | matrix hmatrix hlane hreset ht =>
      obtain ⟨hring, htdl'⟩ := refreshAllTapsFromLive_ring ht
      refine ⟨htdl'.trans htdl,
        mirrors_of_matrix hmatrix hlane (carries_of_refresh ht).clearRing, ?_⟩
      rw [hreset]
      exact congrArg (List.map fun _ => 0) hring
  | gains hmatrix hlane hreset =>
      -- the history is kept: the matrix before was carried, and the new one is compatible with it
      have hkept := hsnap.reset.symm.trans hreset
      rw [Bool.not_eq_false', Bool.and_eq_true] at hkept
      obtain ⟨hlaneOld, hcarriesOld⟩ := h.matrix hkept.1
      have hcompat := laneProfile_historyCompatible hkept.2 hlaneOld (hcarriesOld.lane_lt htdl)
      rw [← hsnap.liveMatrix] at hcompat
      have hcarries := hcarriesOld.withLive after.1.live
      exact ⟨htdl, mirrors_of_matrix hmatrix hlane (hcarries.of_refreshGains htdl hcompat),
        by rw [hreset]; rfl⟩
  | profile hmatrix =>
      rw [hactive] at hmatrix
      cases hmatrix
  | tap0 hmatrix =>
      rw [hactive] at hmatrix
      cases hmatrix

/-- **The partial refresh of a kept history is the full one.** -/
theorem Mirrors.partial_refresh (h : s.Mirrors link laneIndex) (htdl : s.hasTdl = true)
    (hsnap : link.SnapsMatrix after) (hkept : after.2.historyResetRequired = false) :
    ∃ t, snapRefresh after.1 after.2 laneIndex s = .ok t ∧
      { s with live := after.1.live }.refreshAllTapsFromLive
        (after.1.liveMatrixProfile.laneProfile laneIndex) = .ok t := by
  have hcompatible := hsnap.reset.symm.trans hkept
  rw [Bool.not_eq_false', Bool.and_eq_true] at hcompatible
  obtain ⟨hlane, hcarries⟩ := h.matrix hcompatible.1
  have hcompat := laneProfile_historyCompatible hcompatible.2 hlane (hcarries.lane_lt htdl)
  have hcount : after.1.liveMatrixProfile.laneCount = link.liveMatrixProfile.laneCount := by
    rw [hsnap.liveMatrix]
    exact (of_decide_eq_true hcompatible.2).2.2.1.symm
  rw [← hsnap.liveMatrix] at hcompat
  refine ⟨_, ?_, (hcarries.withLive after.1.live).refreshGains htdl hcompat⟩
  unfold snapRefresh
  rw [if_pos ⟨hsnap.valuesChanged, htdl⟩]
  dsimp only
  rw [if_pos hsnap.matrixActive, if_neg (by rw [hcount]; omega), if_neg (by rw [hkept]; decide)]
  rfl

end Slot

end DeviceLinkState

end Device

/-! ## The rings on the CPU -/

section Cpu

variable {K : Type} [Field K] [LinearOrder K] [FloorRing K] [Libm K]

/-- Without a reset a lane keeps its steps; with one, every ring of the lane is zero. -/
theorem refreshLane_rings [Rng K] (link : PhysicalLinkRuntime K) (outcome : LinkSnapOutcome)
    (st : LinkState K) :
    (outcome.historyResetRequired = false →
        (CpuChannelProcessor.refreshLane link outcome st).steps = st.steps)
      ∧ (outcome.historyResetRequired = true →
        ∀ step ∈ (CpuChannelProcessor.refreshLane link outcome st).steps,
          ∀ x ∈ step.delayLine, x = 0) := by
  unfold CpuChannelProcessor.refreshLane
  constructor
  · intro hreset
    dsimp only
    rw [if_neg (by rw [hreset]; decide)]
    split_ifs <;> rfl
  · intro hreset step hstep x hx
    dsimp only at hstep
    rw [if_pos hreset] at hstep
    obtain ⟨before, -, rfl⟩ := List.mem_map.mp hstep
    obtain ⟨y, -, rfl⟩ := List.mem_map.mp hx
    rfl

end Cpu

/-! ## Runs -/

/-- One event on a link: an accepted update behind its gate, or a slot with the samples that the
lane reads. -/
inductive LinkEvent (K : Type)
  | update (gate : ℕ) (u : Update K)
  | slot (samples : List (Iq K))

def Update.isSwap {K : Type} : Update K → Bool
  | .profile _ => true
  | .matrix _ => true
  | _ => false

/-- No swap is accepted: scalar and correlation updates, and slots. -/
def LinkEvent.Quiet {K : Type} : LinkEvent K → Prop
  | .update _ u => u.isSwap = false
  | .slot _ => True

/-- **A link, one of its lanes on the device, and the journal of its swaps.** `lastProfile` and
`lastMatrix` are the places in `accepted` of the newest swap of each kind, and `activated` those of
the swaps that were activated. -/
structure ActivationRun (K : Type) where
  link : PhysicalLinkRuntime K
  laneIndex : ℕ
  device : Except String (DeviceLinkState K)
  accepted : List (Update K)
  lastProfile : ℕ
  lastMatrix : ℕ
  activated : List ℕ

/-- No swap of the link is live or pending. -/
structure PhysicalLinkRuntime.Fresh {K : Type} (link : PhysicalLinkRuntime K) : Prop where
  profileActive : link.liveProfileActive = false
  matrixActive : link.liveMatrixProfileActive = false
  profilePending : link.control.profilePending = false
  matrixPending : link.control.matrixProfilePending = false

/-- Nothing waits that a slot could take. -/
def PhysicalLinkRuntime.Idle {K : Type} (link : PhysicalLinkRuntime K) : Prop :=
  link.takesProfile = false ∧ link.takesMatrix = false

namespace ActivationRun

variable {K : Type} [Field K] [LinearOrder K] [FloorRing K] [Libm K]

def start (link : PhysicalLinkRuntime K) (laneIndex : ℕ) (device : DeviceLinkState K) :
    ActivationRun K :=
  { link := link, laneIndex := laneIndex, device := .ok device, accepted := [], lastProfile := 0
    lastMatrix := 0, activated := [] }

def accept (r : ActivationRun K) (gate : ℕ) (u : Update K) : ActivationRun K :=
  { r with
    link := r.link.publish gate u
    accepted := r.accepted ++ [u]
    lastProfile :=
      match u with
      | .profile _ => r.accepted.length
      | _ => r.lastProfile
    lastMatrix :=
      match u with
      | .matrix _ => r.accepted.length
      | _ => r.lastMatrix }

/-- The snap of the link's next slot. -/
def nextSnap (r : ActivationRun K) (samples : List (Iq K)) :
    PhysicalLinkRuntime K × LinkSnapOutcome :=
  r.link.snap samples.length

/-- A slot: the snap, the refresh of the lane, the ring update and the clock of the link. -/
def slot (r : ActivationRun K) (samples : List (Iq K)) : ActivationRun K :=
  let s := r.nextSnap samples
  let nextSlotStart := r.link.slotStartSamples + samples.length
  { r with
    link := { s.1 with slotStartSamples := nextSlotStart }
    device := do
      let d ← r.device
      let d ← DeviceLinkState.snapRefresh s.1 s.2 r.laneIndex d
      pure (d.updateDelayLineKernel samples nextSlotStart)
    activated := r.activated ++ (if s.2.profileActivated then [r.lastProfile] else [])
      ++ if s.2.matrixProfileActivated then [r.lastMatrix] else [] }

def step (r : ActivationRun K) : LinkEvent K → ActivationRun K
  | .update gate u => r.accept gate u
  | .slot samples => r.slot samples

/-! ## The invariant -/

/-- **What holds in every state of a run.** -/
structure Sound (r : ActivationRun K) : Prop where
  exclusive : r.link.liveProfileActive = false ∨ r.link.liveMatrixProfileActive = false
  onePending : r.link.control.profilePending = false ∨ r.link.control.matrixProfilePending = false
  profileStaged : r.link.control.profilePending = true →
    r.accepted[r.lastProfile]? = some (.profile r.link.control.shadowProfile)
  matrixStaged : r.link.control.matrixProfilePending = true →
    r.accepted[r.lastMatrix]? = some (.matrix r.link.control.shadowMatrixProfile)
  profileNew : r.link.control.profilePending = true → ∀ i ∈ r.activated, i < r.lastProfile
  matrixNew : r.link.control.matrixProfilePending = true → ∀ i ∈ r.activated, i < r.lastMatrix
  known : ∀ i ∈ r.activated, i < r.accepted.length
  increasing : r.activated.Pairwise (· < ·)
  mirrored : ∀ d, r.device = .ok d → d.hasTdl = true → d.Mirrors r.link r.laneIndex

/-- A run starts sound. -/
theorem start_sound {link : PhysicalLinkRuntime K} (hfresh : link.Fresh) (laneIndex : ℕ)
    (device : DeviceLinkState K) : (start link laneIndex device).Sound where
  exclusive := Or.inl hfresh.profileActive
  onePending := Or.inl hfresh.profilePending
  profileStaged := fun h => absurd (hfresh.profilePending.symm.trans h) Bool.false_ne_true
  matrixStaged := fun h => absurd (hfresh.matrixPending.symm.trans h) Bool.false_ne_true
  profileNew := fun _ _ hi => absurd hi List.not_mem_nil
  matrixNew := fun _ _ hi => absurd hi List.not_mem_nil
  known := fun _ hi => absurd hi List.not_mem_nil
  increasing := List.Pairwise.nil
  mirrored := fun _ _ _ =>
    DeviceLinkState.mirrors_of_declared hfresh.matrixActive hfresh.profileActive

omit [Field K] [LinearOrder K] [FloorRing K] [Libm K] in
/-- A place in the journal keeps its update. -/
theorem getElem?_accepted {accepted : List (Update K)} {i : ℕ} {v : Update K} (u : Update K)
    (h : accepted[i]? = some v) : (accepted ++ [u])[i]? = some v := by
  rw [List.getElem?_append_left (List.getElem?_eq_some_iff.mp h).1]
  exact h

/-- An accepted update keeps the invariant: a swap comes after all that were activated, and clears
the pending flag of the other kind. -/
theorem Sound.accept {r : ActivationRun K} (h : r.Sound) (gate : ℕ) (u : Update K) :
    (r.accept gate u).Sound := by
  have hknown : ∀ i ∈ r.activated, i < (r.accepted ++ [u]).length := by
    intro i hi
    rw [List.length_append]
    exact (h.known i hi).trans (Nat.lt_succ_self _)
  have hlast : (r.accepted ++ [u])[r.accepted.length]? = some u := List.getElem?_concat_length
  have hmirrored : ∀ d, (r.accept gate u).device = .ok d → d.hasTdl = true →
      d.Mirrors (r.accept gate u).link (r.accept gate u).laneIndex := fun d hd htdl =>
    ⟨(h.mirrored d hd htdl).matrix, (h.mirrored d hd htdl).profile⟩
  cases u with
  | scalar field value =>
      exact ⟨h.exclusive, h.onePending, fun hp => getElem?_accepted _ (h.profileStaged hp),
        fun hp => getElem?_accepted _ (h.matrixStaged hp), h.profileNew, h.matrixNew, hknown,
        h.increasing, hmirrored⟩
  | correlation staged =>
      exact ⟨h.exclusive, h.onePending, fun hp => getElem?_accepted _ (h.profileStaged hp),
        fun hp => getElem?_accepted _ (h.matrixStaged hp), h.profileNew, h.matrixNew, hknown,
        h.increasing, hmirrored⟩
  | profile staged =>
      exact ⟨h.exclusive, Or.inr rfl, fun _ => hlast, fun hp => absurd hp Bool.false_ne_true,
        fun _ => h.known, fun hp => absurd hp Bool.false_ne_true, hknown, h.increasing, hmirrored⟩
  | matrix staged =>
      exact ⟨h.exclusive, Or.inl rfl, fun hp => absurd hp Bool.false_ne_true, fun _ => hlast,
        fun hp => absurd hp Bool.false_ne_true, fun _ => h.known, hknown, h.increasing, hmirrored⟩

omit [Field K] [LinearOrder K] [FloorRing K] [Libm K] in
/-- The ring kernel keeps the chain of the device. -/
@[simp] theorem updateDelayLineKernel_hasTdl (d : DeviceLinkState K) (source : List (Iq K))
    (nextSlotStart : ℕ) : (d.updateDelayLineKernel source nextSlotStart).hasTdl = d.hasTdl := by
  unfold DeviceLinkState.updateDelayLineKernel
  dsimp only
  split_ifs <;> rfl

/-- What the snap of the next slot can do, in a sound state. -/
theorem Sound.snap_swaps {r : ActivationRun K} (h : r.Sound) (samples : List (Iq K)) :
    r.link.SnapsNothing (r.nextSnap samples) ∨ r.link.SnapsProfile (r.nextSnap samples)
      ∨ r.link.SnapsMatrix (r.nextSnap samples) :=
  r.link.snap_swaps samples.length h.onePending

/-- The refresh of the next slot, in a sound state. -/
theorem Sound.refreshed {r : ActivationRun K} (h : r.Sound) {samples : List (Iq K)}
    {d t : DeviceLinkState K} (hd : r.device = .ok d) (htdl : d.hasTdl = true)
    (hok : DeviceLinkState.snapRefresh (r.nextSnap samples).1 (r.nextSnap samples).2 r.laneIndex d
      = .ok t) :
    DeviceLinkState.SlotRefreshed (r.nextSnap samples).1 (r.nextSnap samples).2 r.laneIndex d t := by
  have hmirrors := h.mirrored d hd htdl
  rcases h.snap_swaps samples with hsnap | hsnap | hsnap
  · exact hmirrors.snapsNothing htdl hsnap hok
  · exact DeviceLinkState.snapsProfile_refreshed htdl hsnap hok
  · exact hmirrors.snapsMatrix htdl hsnap hok

/-- The device state after a slot. -/
theorem Sound.slot_mirrored {r : ActivationRun K} (h : r.Sound) (samples : List (Iq K))
    (d' : DeviceLinkState K) (hd' : (r.slot samples).device = .ok d') (htdl' : d'.hasTdl = true) :
    d'.Mirrors (r.slot samples).link r.laneIndex := by
  obtain ⟨d, hd, hrest⟩ := bind_eq_ok hd'
  obtain ⟨t, ht, hrest⟩ := bind_eq_ok hrest
  obtain rfl := Except.ok.inj hrest
  rw [updateDelayLineKernel_hasTdl] at htdl'
  have htdl : d.hasTdl = true := by
    -- an edge without a tdl is never refreshed
    by_contra hno
    unfold DeviceLinkState.snapRefresh at ht
    rw [if_neg fun hboth => hno hboth.2] at ht
    obtain rfl := Except.ok.inj ht
    exact hno htdl'
  have hafter := (h.refreshed hd htdl ht).mirrors
  refine ⟨fun hm => ?_, fun hm hp => ?_⟩
  · exact ⟨(hafter.matrix hm).1, (hafter.matrix hm).2.updateDelayLine _ _⟩
  · exact (hafter.profile hm hp).updateDelayLine _ _

/-- A larger index is put behind an increasing list. -/
theorem pairwise_concat {l : List ℕ} {n : ℕ} (h : l.Pairwise (· < ·)) (hn : ∀ i ∈ l, i < n) :
    (l ++ [n]).Pairwise (· < ·) := by
  rw [List.pairwise_append]
  refine ⟨h, List.pairwise_singleton _ _, ?_⟩
  intro i hi j hj
  rw [List.mem_singleton.mp hj]
  exact hn i hi

/-- The journal after a slot that takes no swap, a profile, or a matrix. -/
theorem slot_activated_nothing {r : ActivationRun K} {samples : List (Iq K)}
    (hsnap : r.link.SnapsNothing (r.nextSnap samples)) :
    (r.slot samples).activated = r.activated := by
  unfold slot
  dsimp only
  rw [hsnap.profileActivated, hsnap.matrixActivated]
  simp

/-- A slot that takes the profile activates the last one that was accepted. -/
theorem slot_activated_profile {r : ActivationRun K} {samples : List (Iq K)}
    (hsnap : r.link.SnapsProfile (r.nextSnap samples)) :
    (r.slot samples).activated = r.activated ++ [r.lastProfile] := by
  unfold slot
  dsimp only
  rw [hsnap.profileActivated, hsnap.matrixActivated]
  simp

/-- A slot that takes the matrix activates the last one that was accepted. -/
theorem slot_activated_matrix {r : ActivationRun K} {samples : List (Iq K)}
    (hsnap : r.link.SnapsMatrix (r.nextSnap samples)) :
    (r.slot samples).activated = r.activated ++ [r.lastMatrix] := by
  unfold slot
  dsimp only
  rw [hsnap.profileActivated, hsnap.matrixActivated]
  simp

/-- A slot keeps the invariant: what it activates was staged after all that were activated before,
and nothing is pending behind it. -/
theorem Sound.slot {r : ActivationRun K} (h : r.Sound) (samples : List (Iq K)) :
    (r.slot samples).Sound := by
  have hcore := r.link.snap_sameCore samples.length
  have hshadowProfile : (r.slot samples).link.control.shadowProfile
      = r.link.control.shadowProfile := by
    refine hcore.shadowProfile.trans ?_
    rw [r.link.snapValues_control]
  have hshadowMatrix : (r.slot samples).link.control.shadowMatrixProfile
      = r.link.control.shadowMatrixProfile := by
    refine hcore.shadowMatrixProfile.trans ?_
    rw [r.link.snapValues_control]
  have hmirrored := h.slot_mirrored samples
  rcases h.snap_swaps samples with hsnap | hsnap | hsnap
  -- nothing is taken: flags, pending swaps and the list of activations are as they were
  · have hactivated := slot_activated_nothing hsnap
    constructor
    case mirrored => exact hmirrored
    case exclusive =>
      have hexclusive := h.exclusive
      rw [← hsnap.profileActive, ← hsnap.matrixActive] at hexclusive
      exact hexclusive
    case onePending =>
      have hone := h.onePending
      rw [← hsnap.profilePending, ← hsnap.matrixPending] at hone
      exact hone
    case profileStaged =>
      intro hp
      rw [hshadowProfile]
      exact h.profileStaged (hsnap.profilePending.symm.trans hp)
    case matrixStaged =>
      intro hp
      rw [hshadowMatrix]
      exact h.matrixStaged (hsnap.matrixPending.symm.trans hp)
    case profileNew =>
      intro hp
      rw [hactivated]
      exact h.profileNew (hsnap.profilePending.symm.trans hp)
    case matrixNew =>
      intro hp
      rw [hactivated]
      exact h.matrixNew (hsnap.matrixPending.symm.trans hp)
    case known =>
      rw [hactivated]
      exact h.known
    case increasing =>
      rw [hactivated]
      exact h.increasing
  -- the pending profile is taken, the last one that was accepted
  · have hactivated := slot_activated_profile hsnap
    have hstaged := h.profileStaged hsnap.pending
    constructor
    case mirrored => exact hmirrored
    case exclusive => exact Or.inr hsnap.matrixActive
    case onePending => exact Or.inl hsnap.profilePending
    case profileStaged =>
      exact fun hp => absurd (hsnap.profilePending.symm.trans hp) Bool.false_ne_true
    case matrixStaged =>
      exact fun hp => absurd (hsnap.matrixPending.symm.trans hp) Bool.false_ne_true
    case profileNew =>
      exact fun hp => absurd (hsnap.profilePending.symm.trans hp) Bool.false_ne_true
    case matrixNew =>
      exact fun hp => absurd (hsnap.matrixPending.symm.trans hp) Bool.false_ne_true
    case known =>
      rw [hactivated]
      intro i hi
      rcases List.mem_append.mp hi with hi | hi
      · exact h.known i hi
      · rw [List.mem_singleton.mp hi]
        exact (List.getElem?_eq_some_iff.mp hstaged).1
    case increasing =>
      rw [hactivated]
      exact pairwise_concat h.increasing (h.profileNew hsnap.pending)
  -- the pending matrix is taken, the last one that was accepted
  · have hactivated := slot_activated_matrix hsnap
    have hstaged := h.matrixStaged hsnap.pending
    constructor
    case mirrored => exact hmirrored
    case exclusive => exact Or.inl hsnap.profileActive
    case onePending => exact Or.inl hsnap.profilePending
    case profileStaged =>
      exact fun hp => absurd (hsnap.profilePending.symm.trans hp) Bool.false_ne_true
    case matrixStaged =>
      exact fun hp => absurd (hsnap.matrixPending.symm.trans hp) Bool.false_ne_true
    case profileNew =>
      exact fun hp => absurd (hsnap.profilePending.symm.trans hp) Bool.false_ne_true
    case matrixNew =>
      exact fun hp => absurd (hsnap.matrixPending.symm.trans hp) Bool.false_ne_true
    case known =>
      rw [hactivated]
      intro i hi
      rcases List.mem_append.mp hi with hi | hi
      · exact h.known i hi
      · rw [List.mem_singleton.mp hi]
        exact (List.getElem?_eq_some_iff.mp hstaged).1
    case increasing =>
      rw [hactivated]
      exact pairwise_concat h.increasing (h.matrixNew hsnap.pending)

/-- The invariant holds after every run from a fresh link. -/
theorem run_sound {link : PhysicalLinkRuntime K} (hfresh : link.Fresh) (laneIndex : ℕ)
    (device : DeviceLinkState K) (events : List (LinkEvent K)) :
    (events.foldl step (start link laneIndex device)).Sound := by
  apply Run.invariant (I := Sound) _ (start_sound hfresh laneIndex device)
  intro r e h
  cases e with
  | update gate u => exact h.accept gate u
  | slot samples => exact h.slot samples

/-! ## Quiet runs -/

/-- A quiet step from an idle link takes no swap. -/
structure QuietStep (r r' : ActivationRun K) : Prop where
  activated : r'.activated = r.activated
  layout : r'.link.layout = r.link.layout
  window : r'.link.warmupUntilSlot = r.link.warmupUntilSlot ∨ r'.link.warmupUntilSlot = 0
  idle : r'.link.Idle

/-- A slot of an idle link activates nothing and resets nothing. -/
theorem slot_quiet {r : ActivationRun K} (hidle : r.link.Idle) (samples : List (Iq K)) :
    QuietStep r (r.slot samples) := by
  have hsnap := r.link.snap_nothing samples.length (Or.inr hidle)
  have hcore := r.link.snap_sameCore samples.length
  have hctl := r.link.snapValues_control
  refine ⟨slot_activated_nothing hsnap, ?_, ?_, ?_⟩
  · show (r.nextSnap samples).1.layout = r.link.layout
    unfold PhysicalLinkRuntime.layout nextSnap
    rw [hsnap.liveMatrix, hsnap.matrixActive, hsnap.liveProfile, hsnap.profileActive]
  · obtain ⟨hopens, hwindow⟩ := r.link.snap_window samples.length
    have hkept : r.link.opens = false := hopens.symm.trans hsnap.reset
    show (r.nextSnap samples).1.warmupUntilSlot = _ ∨ (r.nextSnap samples).1.warmupUntilSlot = 0
    unfold nextSnap
    rw [hwindow, PhysicalLinkRuntime.windowEnd, hkept, if_neg (by decide)]
    split_ifs
    · exact Or.inr rfl
    · exact Or.inl rfl
  · -- pending flags, shadows and chain are those before the slot
    have htakes : (r.nextSnap samples).1.takesProfile = r.link.takesProfile
        ∧ (r.nextSnap samples).1.takesMatrix = r.link.takesMatrix := by
      unfold PhysicalLinkRuntime.takesProfile PhysicalLinkRuntime.takesMatrix
        PhysicalLinkRuntime.profileEligible PhysicalLinkRuntime.matrixEligible nextSnap
      rw [hsnap.profilePending, hsnap.matrixPending, r.link.snap_chainHasLeadingTdl,
        hcore.shadowProfile, hcore.shadowMatrixProfile, hctl]
      exact ⟨rfl, rfl⟩
    exact ⟨htakes.1.trans hidle.1, htakes.2.trans hidle.2⟩

omit [Field K] [LinearOrder K] [FloorRing K] [Libm K] in
/-- An update that is no swap leaves an idle link idle. -/
theorem accept_quiet {r : ActivationRun K} (hidle : r.link.Idle) (gate : ℕ) {u : Update K}
    (hu : u.isSwap = false) : QuietStep r (r.accept gate u) := by
  cases u with
  | scalar field value => exact ⟨rfl, rfl, Or.inl rfl, hidle⟩
  | correlation staged => exact ⟨rfl, rfl, Or.inl rfl, hidle⟩
  | profile staged => cases hu
  | matrix staged => cases hu

/-- Scalar and correlation updates and slots, in any order, activate nothing and restart no
warm-up. -/
theorem quiet_run {r : ActivationRun K} (hidle : r.link.Idle) {events : List (LinkEvent K)}
    (hquiet : ∀ e ∈ events, e.Quiet) : QuietStep r (events.foldl step r) := by
  induction events generalizing r with
  | nil => exact ⟨rfl, rfl, Or.inl rfl, hidle⟩
  | cons e events ih =>
      have hfirst : QuietStep r (r.step e) := by
        cases e with
        | update gate u => exact accept_quiet hidle gate (hquiet _ List.mem_cons_self)
        | slot samples => exact slot_quiet hidle samples
      have hrest := ih hfirst.idle fun e he => hquiet e (List.mem_cons_of_mem _ he)
      refine ⟨hrest.activated.trans hfirst.activated, hrest.layout.trans hfirst.layout, ?_,
        hrest.idle⟩
      rcases hrest.window with hsame | hclosed
      · rw [List.foldl_cons, hsame]
        exact hfirst.window
      · exact Or.inr hclosed

/-! ## The discipline -/

variable [Rng K]

/-- **The next slot of a run.** -/
structure SlotDiscipline (r : ActivationRun K) (samples : List (Iq K)) : Prop where
  /-- what is activated is the newest accepted swap of its kind -/
  profileTaken : (r.nextSnap samples).2.profileActivated = true →
    r.accepted[r.lastProfile]? = some (.profile (r.nextSnap samples).1.liveProfile) ∧
      (r.nextSnap samples).1.layout = .profile (r.nextSnap samples).1.liveProfile
  matrixTaken : (r.nextSnap samples).2.matrixProfileActivated = true →
    r.accepted[r.lastMatrix]? = some (.matrix (r.nextSnap samples).1.liveMatrixProfile) ∧
      (r.nextSnap samples).1.layout = .matrix (r.nextSnap samples).1.liveMatrixProfile
  settled : (r.nextSnap samples).2.profileActivated = true ∨
    (r.nextSnap samples).2.matrixProfileActivated = true → (r.nextSnap samples).1.Idle
  /-- nothing but an activation resets the history -/
  onlySwaps : (r.nextSnap samples).2.historyResetRequired = true →
    (r.nextSnap samples).2.profileActivated = true ∨
      (r.nextSnap samples).2.matrixProfileActivated = true
  idle : r.link.Idle → (r.nextSnap samples).2.profileActivated = false ∧
    (r.nextSnap samples).2.matrixProfileActivated = false ∧
      (r.nextSnap samples).2.historyResetRequired = false
  /-- an activation keeps the history exactly from a matrix to a compatible one -/
  kept : (r.nextSnap samples).2.profileActivated = true ∨
    (r.nextSnap samples).2.matrixProfileActivated = true →
      ((r.nextSnap samples).2.historyResetRequired = false ↔
        (r.nextSnap samples).2.matrixProfileActivated = true ∧
          r.link.liveMatrixProfileActive = true ∧
            matrixHistoryCompatible r.link.liveMatrixProfile
              (r.nextSnap samples).1.liveMatrixProfile = true)
  cpuRings : ∀ st : LinkState K,
    ((r.nextSnap samples).2.historyResetRequired = false → (CpuChannelProcessor.refreshLane
        (r.nextSnap samples).1 (r.nextSnap samples).2 st).steps = st.steps)
      ∧ ((r.nextSnap samples).2.historyResetRequired = true →
        ∀ step ∈ (CpuChannelProcessor.refreshLane (r.nextSnap samples).1 (r.nextSnap samples).2
          st).steps, ∀ x ∈ step.delayLine, x = 0)
  deviceRing : ∀ d t : DeviceLinkState K, r.device = .ok d → d.hasTdl = true →
    DeviceLinkState.snapRefresh (r.nextSnap samples).1 (r.nextSnap samples).2 r.laneIndex d = .ok t →
      t.delayLine = if (r.nextSnap samples).2.historyResetRequired then d.delayLine.map fun _ => 0
        else d.delayLine
  /-- the partial refresh is the full one, in every field -/
  partialIsFull : ∀ d : DeviceLinkState K, r.device = .ok d → d.hasTdl = true →
    (r.nextSnap samples).2.matrixProfileActivated = true →
      (r.nextSnap samples).2.historyResetRequired = false →
        ∃ t, DeviceLinkState.snapRefresh (r.nextSnap samples).1 (r.nextSnap samples).2 r.laneIndex d
            = .ok t ∧
          { d with live := (r.nextSnap samples).1.live }.refreshAllTapsFromLive
            ((r.nextSnap samples).1.liveMatrixProfile.laneProfile r.laneIndex) = .ok t

/-- **The activation discipline** in one state of a run. -/
structure Discipline (r : ActivationRun K) : Prop where
  once : r.activated.Nodup
  exclusive : ¬ (r.link.liveProfileActive = true ∧ r.link.liveMatrixProfileActive = true)
  slot : ∀ samples, r.SlotDiscipline samples
  quiet : r.link.Idle → ∀ events : List (LinkEvent K), (∀ e ∈ events, e.Quiet) →
    QuietStep r (events.foldl step r)

/-- Every slot of a sound run keeps the discipline. -/
theorem Sound.slotDiscipline {r : ActivationRun K} (h : r.Sound) (samples : List (Iq K)) :
    r.SlotDiscipline samples := by
  have hcpu := refreshLane_rings (r.nextSnap samples).1 (r.nextSnap samples).2
  have hring : ∀ d t : DeviceLinkState K, r.device = .ok d → d.hasTdl = true →
      DeviceLinkState.snapRefresh (r.nextSnap samples).1 (r.nextSnap samples).2 r.laneIndex d
        = .ok t →
      t.delayLine = if (r.nextSnap samples).2.historyResetRequired then d.delayLine.map fun _ => 0
        else d.delayLine :=
    fun _ _ hd htdl hok => (h.refreshed hd htdl hok).ring
  have hidle : r.link.Idle → (r.nextSnap samples).2.profileActivated = false ∧
      (r.nextSnap samples).2.matrixProfileActivated = false ∧
        (r.nextSnap samples).2.historyResetRequired = false := by
    intro hidle
    have hsnap := r.link.snap_nothing samples.length (Or.inr hidle)
    exact ⟨hsnap.profileActivated, hsnap.matrixActivated, hsnap.reset⟩
  rcases h.snap_swaps samples with hsnap | hsnap | hsnap
  · have hnone : ¬ ((r.nextSnap samples).2.profileActivated = true ∨
        (r.nextSnap samples).2.matrixProfileActivated = true) := by
      rw [hsnap.profileActivated, hsnap.matrixActivated]
      decide
    constructor
    case profileTaken => exact fun hp => absurd (Or.inl hp) hnone
    case matrixTaken => exact fun hm => absurd (Or.inr hm) hnone
    case settled => exact fun hany => absurd hany hnone
    case onlySwaps => exact fun hr => absurd (hsnap.reset.symm.trans hr) Bool.false_ne_true
    case idle => exact hidle
    case kept => exact fun hany => absurd hany hnone
    case cpuRings => exact hcpu
    case deviceRing => exact hring
    case partialIsFull => exact fun _ _ _ hm => absurd (Or.inr hm) hnone
  · constructor
    case profileTaken =>
      intro _
      refine ⟨?_, ?_⟩
      · rw [hsnap.liveProfile]
        exact h.profileStaged hsnap.pending
      · unfold PhysicalLinkRuntime.layout
        rw [if_neg (by rw [hsnap.matrixActive]; decide), if_pos hsnap.profileActive]
    case matrixTaken =>
      exact fun hm => absurd (hsnap.matrixActivated.symm.trans hm) Bool.false_ne_true
    case settled =>
      intro _
      unfold PhysicalLinkRuntime.Idle PhysicalLinkRuntime.takesProfile
        PhysicalLinkRuntime.takesMatrix
      rw [hsnap.profilePending, hsnap.matrixPending]
      exact ⟨rfl, rfl⟩
    case onlySwaps => exact fun _ => Or.inl hsnap.profileActivated
    case idle => exact hidle
    case kept =>
      -- a profile always resets
      intro _
      rw [hsnap.reset, hsnap.matrixActivated]
      simp
    case cpuRings => exact hcpu
    case deviceRing => exact hring
    case partialIsFull =>
      exact fun _ _ _ hm => absurd (hsnap.matrixActivated.symm.trans hm) Bool.false_ne_true
  · constructor
    case profileTaken =>
      exact fun hp => absurd (hsnap.profileActivated.symm.trans hp) Bool.false_ne_true
    case matrixTaken =>
      intro _
      refine ⟨?_, if_pos hsnap.matrixActive⟩
      rw [hsnap.liveMatrix]
      exact h.matrixStaged hsnap.pending
    case settled =>
      intro _
      unfold PhysicalLinkRuntime.Idle PhysicalLinkRuntime.takesProfile
        PhysicalLinkRuntime.takesMatrix
      rw [hsnap.profilePending, hsnap.matrixPending]
      exact ⟨rfl, rfl⟩
    case onlySwaps => exact fun _ => Or.inr hsnap.matrixActivated
    case idle => exact hidle
    case kept =>
      intro _
      rw [hsnap.reset, hsnap.liveMatrix, Bool.not_eq_false', Bool.and_eq_true]
      exact ⟨fun hboth => ⟨hsnap.matrixActivated, hboth⟩, fun hall => hall.2⟩
    case cpuRings => exact hcpu
    case deviceRing => exact hring
    case partialIsFull =>
      intro d hd htdl _ hkept
      exact (h.mirrored d hd htdl).partial_refresh htdl hsnap hkept

/-- **Every run keeps the activation discipline**, whatever the updates, their gates and the
slots, from a link on which no swap is live or pending. -/
theorem activation_discipline {link : PhysicalLinkRuntime K} (hfresh : link.Fresh)
    (laneIndex : ℕ) (device : DeviceLinkState K) (events : List (LinkEvent K)) :
    (events.foldl step (start link laneIndex device)).Discipline := by
  have hsound := run_sound hfresh laneIndex device events
  refine ⟨?_, ?_, hsound.slotDiscipline, fun hidle _ hquiet => quiet_run hidle hquiet⟩
  · exact hsound.increasing.imp fun hlt => Nat.ne_of_lt hlt
  · rintro ⟨hp, hm⟩
    rcases hsound.exclusive with hno | hno
    · exact Bool.false_ne_true (hno.symm.trans hp)
    · exact Bool.false_ne_true (hno.symm.trans hm)

end ActivationRun

/-! ## A concrete run -/

/-- One lane, one tap of this gain. -/
def oneTapMatrix (gainDb : ℚ) : MatrixProfileShadow ℚ :=
  { nt := 1, nr := 1, laneCount := 1
    lanes := fun _ => { (ProfileShadow.default : ProfileShadow ℚ) with
      nTaps := 1, taps := fun _ => ⟨2, gainDb, 0, false, 0, 0⟩ } }

/-- A link whose chain leads with a tdl. -/
def tdlLink : PhysicalLinkRuntime ℚ :=
  { PhysicalLinkRuntime.default with chainHasLeadingTdl := true }

/-- A device state with a ring of zeros. -/
def zeroDevice : DeviceLinkState ℚ :=
  { nTaps := 1, hasTdl := true, delayLineSize := 8, srcIndex := 0
    taps := fun _ => ⟨0, 0, 0, 0, 0, fun _ => 0, false, 0, 0, 0, fun _ => 0, fun _ => 0⟩
    fadingEnabled := false, fDMaxHz := 0, gridUs := 100, losCoeff := 1
    delayLine := List.replicate kDeviceMaxDelayLine 0, slotStartSamples := 0
    live := MutableParams.default }

/-- A matrix, a scalar update, and a compatible matrix, with slots between them. -/
def twoMatrices : List (LinkEvent ℚ) :=
  [.update 0 (.matrix (oneTapMatrix 0)), .slot [0], .update 0 (.scalar .awgnSnrDb 20), .slot [0],
    .update 0 (.matrix (oneTapMatrix (-3))), .slot [0], .slot [0]]

theorem activation_discipline_two_matrices :
    let _ : Rng ℚ := ⟨fun _ => 0, fun _ _ => 0, fun _ _ => 0⟩
    (twoMatrices.foldl ActivationRun.step (ActivationRun.start tdlLink 0 zeroDevice)).activated
        = [0, 2]
      ∧ (twoMatrices.foldl ActivationRun.step
          (ActivationRun.start tdlLink 0 zeroDevice)).Discipline := by
  intro _
  exact ⟨by decide +kernel,
    ActivationRun.activation_discipline ⟨rfl, rfl, rfl, rfl⟩ 0 zeroDevice twoMatrices⟩
