/-
# A lane on both backends

The state of the leading tdl on the CPU against the device state of the lane's edge.  The two keep
different rings, refresh different fields on each kind of update, and clear their history under
different tests; `TdlParallel` is what they have in common between two slots, whatever swaps were
taken before.  The snap of a slot and the slot itself keep it, and in every slot both convolve with
the same taps over rings that no tap can tell apart.
-/
import GpuChannel.ChainParity
import GpuChannel.CudaCalls
import GpuChannel.DeviceBounds

section Fits

variable {K : Type} [Field K] [LinearOrder K] [FloorRing K] [Libm K]

/-! ## The size of a ring on the device -/

namespace DeviceLinkState

variable {s : DeviceLinkState K}

/-- A carried layout sets the size of the ring. -/
theorem Carries.size {p : ProfileShadow K} (h : s.Carries p) (htdl : s.hasTdl = true) :
    s.delayLineSize = ringSize p.tapList :=
  ((carries_iff htdl).mp h).2.2.2.2

omit [Libm K] in
/-- A ring for delays within the bounds has room in the cells. -/
theorem ringSize_le_cells [IsStrictOrderedRing K] {taps : List (TapSpec K)}
    (h : ¬ ∃ tap ∈ taps, tap.exceedsDevice) : ringSize taps ≤ kDeviceMaxDelayLine := by
  have hmax : ∀ (l : List (TapSpec K)) (m : K), m ≤ kMaxProfileDelaySamples →
      (∀ tap ∈ l, tap.delaySamples ≤ kMaxProfileDelaySamples) →
      l.foldl (fun m tap => max m tap.delaySamples) m ≤ kMaxProfileDelaySamples := by
    intro l
    induction l with
    | nil => exact fun m hm _ => hm
    | cons tap l ih =>
        intro m hm hl
        rw [List.forall_mem_cons] at hl
        exact ih _ (max_le hm hl.1) hl.2
  have hle : taps.foldl (fun m tap => max m tap.delaySamples) 0 ≤ (kMaxProfileDelaySamples : K) := by
    apply hmax _ _ (Nat.cast_nonneg _)
    intro tap htap
    by_contra hfar
    exact h ⟨tap, htap, Or.inr (not_le.mp hfar)⟩
  have hceil : ⌈taps.foldl (fun m tap => max m tap.delaySamples) 0⌉ ≤
      (kMaxProfileDelaySamples : ℤ) := by
    rw [Int.ceil_le, Int.cast_natCast]
    exact hle
  unfold ringSize kDeviceMaxDelayLine
  omega

theorem Carries.size_le [IsStrictOrderedRing K] {p : ProfileShadow K} (h : s.Carries p)
    (htdl : s.hasTdl = true) : s.delayLineSize ≤ kDeviceMaxDelayLine := by
  rw [h.size htdl]
  exact ringSize_le_cells ((carries_iff htdl).mp h).2.1

end DeviceLinkState

end Fits

/-! ## The leading tdl -/

section Tdl

variable {K : Type} [Field K] [LinearOrder K] [FloorRing K] [Libm K]

open DeviceLinkState

/-- **The leading tdl of a lane, on the CPU and on the device**, between two slots. -/
structure TdlParallel (first : ModelStep K) (link : PhysicalLinkRuntime K) (live : MutableParams K)
    (laneIndex : ℕ) (tdl : StepState K) (d : DeviceLinkState K) : Prop where
  hasTdl : d.hasTdl = true
  still : d.fadingEnabled = false
  cells : d.delayLine.length = kDeviceMaxDelayLine
  size : d.delayLineSize ≤ kDeviceMaxDelayLine
  mirrors : d.Mirrors link laneIndex
  suffix : d.ring <:+ tdl.delayLine
  declared : link.liveMatrixProfileActive = false → link.liveProfileActive = false →
    d.Shows (effectiveTaps live first.taps) ∧ tdl.tdlPolyphase = first.taps.map tapPolyphase ∧
      tdl.delayLine.length = d.delayLineSize

variable {first : ModelStep K} {link : PhysicalLinkRuntime K} {live : MutableParams K}
  {laneIndex : ℕ} {tdl : StepState K} {d d' : DeviceLinkState K}
  {after : PhysicalLinkRuntime K × LinkSnapOutcome}

theorem TdlParallel.inside (h : TdlParallel first link live laneIndex tdl d) : d.RingInside := by
  unfold RingInside
  rw [h.cells]
  exact h.size

/-- A lane within an active matrix. -/
def LaneInside (link : PhysicalLinkRuntime K) (laneIndex : ℕ) : Prop :=
  link.liveMatrixProfileActive = true → laneIndex < link.liveMatrixProfile.laneCount

/-- **What both sides convolve with**: the taps of the layout, shown on the device, over rings that
these taps cannot tell apart. -/
theorem TdlParallel.use [IsStrictOrderedRing K] (h : TdlParallel first link live laneIndex tdl d) :
    let taps := usedTaps live link.layout laneIndex first.taps
    tdlUse live link laneIndex first tdl.tdlPolyphase = .ok (.tdl taps (taps.map tapPolyphase)) ∧
      d.Shows taps ∧ RingsMatch taps tdl.delayLine d.ring := by
  intro taps
  -- a profile that the device carries fits the device's ring
  have hroom : ∀ {profile : ProfileShadow K}, d.Carries profile →
      RingsMatch profile.tapList tdl.delayLine d.ring := by
    intro profile hcarries
    refine ⟨h.suffix, Or.inr ?_⟩
    rw [length_ring h.inside, hcarries.size h.hasTdl]
    exact ringFits_ringSize _
  -- a matrix profile comes before a profile, a profile before the declared taps
  cases hmatrix : link.liveMatrixProfileActive with
  | true =>
      obtain ⟨hlane, hcarries⟩ := h.mirrors.matrix hmatrix
      have hlt := hcarries.lane_lt h.hasTdl
      have hprofile : (link.liveMatrixProfile.lane? laneIndex).map (·.tapList) =
          some (link.liveMatrixProfile.laneProfile laneIndex).tapList := by
        unfold MatrixProfileShadow.laneProfile MatrixProfileShadow.lane?
        rw [dif_pos hlt]
        rfl
      have htaps : taps = (link.liveMatrixProfile.laneProfile laneIndex).tapList := by
        simp only [taps, usedTaps, PhysicalLinkRuntime.layout, if_pos hmatrix, if_pos hlane]
        rw [hprofile]
        rfl
      rw [htaps]
      refine ⟨?_, hcarries.shows h.hasTdl, hroom hcarries⟩
      unfold tdlUse
      rw [if_pos hmatrix, if_neg (by omega), hprofile]
      rfl
  | false =>
      have hno : ¬ link.liveMatrixProfileActive = true := by
        rw [hmatrix]
        decide
      cases hprofile : link.liveProfileActive with
      | true =>
          have hcarries := h.mirrors.profile hmatrix hprofile
          have htaps : taps = link.liveProfile.tapList := by
            simp only [taps, usedTaps, PhysicalLinkRuntime.layout, if_neg hno, if_pos hprofile]
          rw [htaps]
          refine ⟨?_, hcarries.shows h.hasTdl, hroom hcarries⟩
          unfold tdlUse
          rw [if_neg hno, if_pos hprofile]
          rfl
      | false =>
          obtain ⟨hshows, hpoly, hlen⟩ := h.declared hmatrix hprofile
          have hno' : ¬ link.liveProfileActive = true := by
            rw [hprofile]
            decide
          have htaps : taps = effectiveTaps live first.taps := by
            simp only [taps, usedTaps, PhysicalLinkRuntime.layout, if_neg hno, if_neg hno']
          rw [htaps]
          refine ⟨?_, hshows, h.suffix, Or.inl ?_⟩
          · unfold tdlUse
            rw [if_neg hno, if_neg hno', hpoly, effectivePolyphase_prepared]
            rfl
          · rw [length_ring h.inside, hlen]

/-! ## The snap of a slot -/

/-- What a slot's snap makes of the tdl state of a lane on the CPU. -/
def resetTdl (after : PhysicalLinkRuntime K × LinkSnapOutcome) (laneIndex : ℕ)
    (tdl : StepState K) : StepState K :=
  if after.2.historyResetRequired then
    let resized := match after.1.laneProfile laneIndex with
      | none => tdl
      | some profile => resizeRing profile tdl
    { resized with delayLine := resized.delayLine.map fun _ => 0 }
  else tdl

/-- The refresh of a device state does not throw. -/
theorem TdlParallel.refreshes (h : TdlParallel first link live laneIndex tdl d)
    (hfit : link.SwapsFit)
    (hsnap : link.SnapsNothing after ∨ link.SnapsProfile after ∨ link.SnapsMatrix after)
    (hlane : LaneInside after.1 laneIndex) : ∃ d', d.snapRefresh after.1 after.2 laneIndex = .ok d' := by
  unfold snapRefresh
  by_cases hchanged : after.2.valuesChanged = true
  · rw [if_pos ⟨hchanged, h.hasTdl⟩]
    dsimp only
    by_cases hmatrix : after.1.liveMatrixProfileActive = true
    · have hlt := hlane hmatrix
      rw [if_pos hmatrix, if_neg (by omega)]
      by_cases hreset : after.2.historyResetRequired = true
      · -- only a new matrix resets here, and it fits
        rcases hsnap with hsnap | hsnap | hsnap
        · rw [hsnap.reset] at hreset
          cases hreset
        · rw [hsnap.matrixActive] at hmatrix
          cases hmatrix
        · rw [hsnap.liveMatrix] at hlt ⊢
          obtain ⟨t, ht⟩ := refresh_of_fits { d with live := after.1.live }
            (hfit.matrix hsnap.pending laneIndex hlt)
          rw [if_pos hreset, ht]
          exact ⟨_, rfl⟩
      · rw [if_neg hreset]
        exact ⟨_, rfl⟩
    · rw [if_neg hmatrix]
      by_cases hprofile : after.1.liveProfileActive = true
      · rw [if_pos hprofile]
        have hok : ∃ t, { d with live := after.1.live }.refreshAllTapsFromLive after.1.liveProfile
            = .ok t := by
          rcases hsnap with hsnap | hsnap | hsnap
          · -- the layout is live already, and carried
            have hcarries := h.mirrors.profile
              (Bool.eq_false_of_not_eq_true (hsnap.matrixActive ▸ hmatrix))
              (hsnap.profileActive ▸ hprofile)
            rw [hsnap.liveProfile]
            exact ⟨_, hcarries.withLive after.1.live⟩
          · rw [hsnap.liveProfile]
            exact refresh_of_fits _ (hfit.profile hsnap.pending)
          · exact absurd hsnap.matrixActive hmatrix
        obtain ⟨t, ht⟩ := hok
        rw [ht]
        exact ⟨_, rfl⟩
      · rw [if_neg hprofile]
        exact ⟨_, rfl⟩
  · rw [if_neg (fun hboth => hchanged hboth.1)]
    exact ⟨d, rfl⟩

omit [LinearOrder K] [FloorRing K] [Libm K] in
/-- The two kinds of rings that a reset leaves. -/
theorem zeros_suffix {m n : ℕ} (h : m ≤ n) :
    List.replicate m (0 : Iq K) <:+ List.replicate n 0 := by
  refine ⟨List.replicate (n - m) 0, ?_⟩
  rw [List.replicate_append_replicate, Nat.sub_add_cancel h]

omit [LinearOrder K] [FloorRing K] [Libm K] in
theorem map_zero_eq {α : Type} (l : List α) :
    (l.map fun _ => (0 : Iq K)) = List.replicate l.length 0 := by
  exact List.map_const' ..

/-- A ring that is not shorter than the profile asks for, all zero. -/
theorem resetTdl_ring (tdl : StepState K) {laneIndex : ℕ} {profile : ProfileShadow K}
    (hreset : after.2.historyResetRequired = true)
    (hprofile : after.1.laneProfile laneIndex = some profile) :
    ∃ n, ringSize profile.tapList ≤ n ∧ (resetTdl after laneIndex tdl).delayLine =
      List.replicate n 0 := by
  unfold resetTdl
  rw [if_pos hreset, hprofile]
  dsimp only
  refine ⟨_, ?_, map_zero_eq _⟩
  unfold resizeRing prepareTdlState
  dsimp only
  split_ifs with hshort
  · rw [List.length_replicate]
  · exact not_lt.mp hshort

/-- The layout of a swap, as the sweep of the siblings reads it. -/
theorem laneProfile_of_matrix (hmatrix : after.1.liveMatrixProfileActive = true)
    (hcarries : d'.Carries (after.1.liveMatrixProfile.laneProfile laneIndex))
    (htdl : d'.hasTdl = true) :
    after.1.laneProfile laneIndex = some (after.1.liveMatrixProfile.laneProfile laneIndex) := by
  have hlt := hcarries.lane_lt htdl
  unfold PhysicalLinkRuntime.laneProfile MatrixProfileShadow.laneProfile MatrixProfileShadow.lane?
  rw [if_pos hmatrix, dif_pos hlt]
  rfl

omit [Field K] [LinearOrder K] [FloorRing K] [Libm K] in
theorem laneProfile_of_profile (hmatrix : after.1.liveMatrixProfileActive = false)
    (hprofile : after.1.liveProfileActive = true) :
    after.1.laneProfile laneIndex = some after.1.liveProfile := by
  unfold PhysicalLinkRuntime.laneProfile
  rw [if_neg (by rw [hmatrix]; decide), if_pos hprofile]

/-- A new layout empties both rings. -/
theorem TdlParallel.ofReset [IsStrictOrderedRing K] (h : TdlParallel first link live laneIndex tdl d)
    (hrefreshed : SlotRefreshed after.1 after.2 laneIndex d d')
    (hreset : after.2.historyResetRequired = true) (hstill : d'.fadingEnabled = false)
    {profile : ProfileShadow K} (hprofile : after.1.laneProfile laneIndex = some profile)
    (hcarries : d'.Carries profile)
    (hswapped : after.1.liveMatrixProfileActive = true ∨ after.1.liveProfileActive = true)
    (live' : MutableParams K) :
    TdlParallel first after.1 live' laneIndex (resetTdl after laneIndex tdl) d' := by
  have hring := hrefreshed.ring
  rw [if_pos hreset] at hring
  have hcells : d'.delayLine.length = kDeviceMaxDelayLine := by
    rw [hring, List.length_map, h.cells]
  obtain ⟨n, hn, hhost⟩ := resetTdl_ring tdl hreset hprofile
  refine ⟨hrefreshed.hasTdl, hstill, hcells, hcarries.size_le hrefreshed.hasTdl,
    hrefreshed.mirrors, ?_, ?_⟩
  · have hdevice : d'.ring = List.replicate (ringSize profile.tapList) 0 := by
      unfold ring
      rw [hring, map_zero_eq, List.take_replicate, h.cells, ← hcarries.size hrefreshed.hasTdl,
        min_eq_left (hcarries.size_le hrefreshed.hasTdl)]
    rw [hdevice, hhost]
    exact zeros_suffix hn
  · intro hmatrix hdeclared
    rcases hswapped with hactive | hactive
    · rw [hmatrix] at hactive
      cases hactive
    · rw [hdeclared] at hactive
      cases hactive

/-- A refresh leaves the fading alone. -/
theorem snapRefresh_fadingEnabled (htdl : d.hasTdl = true)
    (hok : d.snapRefresh after.1 after.2 laneIndex = .ok d') :
    d'.fadingEnabled = d.fadingEnabled := by
  have hload : ∀ {t : DeviceLinkState K} {profile : ProfileShadow K},
      { d with live := after.1.live }.refreshAllTapsFromLive profile = .ok t →
      t.fadingEnabled = d.fadingEnabled := by
    intro t profile ht
    have hlive : ({ d with live := after.1.live } : DeviceLinkState K).hasTdl = true := htdl
    obtain ⟨-, -, rfl⟩ := refreshAllTapsFromLive_eq_ok hlive ht
    rfl
  cases snapRefresh_cases htdl hok with
  | unchanged => rfl
  | matrix _ _ _ ht =>
      have hstill := hload ht
      exact hstill
  | gains => rfl
  | profile _ _ ht =>
      rw [apply_ite fadingEnabled]
      have hstill := hload ht
      split_ifs
      · exact hstill
      · exact hstill
  | tap0 =>
      unfold refreshTap0FromLive
      split_ifs <;> rfl

/-- Without a reset the ring in use stays. -/
theorem TdlParallel.keepsRing (h : TdlParallel first link live laneIndex tdl d)
    (hsnap : link.SnapsNothing after ∨ link.SnapsMatrix after)
    (hreset : after.2.historyResetRequired = false)
    (hrefreshed : SlotRefreshed after.1 after.2 laneIndex d d')
    (hok : d.snapRefresh after.1 after.2 laneIndex = .ok d') :
    d'.delayLineSize = d.delayLineSize ∧ d'.ring = d.ring := by
  have hline : d'.delayLine = d.delayLine := by
    have hring := hrefreshed.ring
    rwa [if_neg (by rw [hreset]; decide)] at hring
  have hsize : d'.delayLineSize = d.delayLineSize := by
    cases snapRefresh_cases h.hasTdl hok with
    | unchanged => rfl
    | matrix _ _ hyes =>
        rw [hreset] at hyes
        cases hyes
    | gains => rfl
    | profile hmatrix hprofile ht =>
        rcases hsnap with hsnap | hsnap
        · -- the profile was live before, and its ring has its size
          have hcarries := h.mirrors.profile (hsnap.matrixActive ▸ hmatrix)
            (hsnap.profileActive ▸ hprofile)
          rw [← hsnap.liveProfile] at hcarries
          have hsame := (hcarries.withLive after.1.live).symm.trans ht
          rw [← Except.ok.inj hsame]
          split_ifs <;> rfl
        · rw [hsnap.matrixActive] at hmatrix
          cases hmatrix
    | tap0 =>
        unfold refreshTap0FromLive
        split_ifs <;> rfl
  refine ⟨hsize, ?_⟩
  unfold ring
  rw [hsize, hline]

/-- A snap of the declared taps: tap 0 is refreshed. -/
theorem TdlParallel.declaredTaps (h : TdlParallel first link live laneIndex tdl d)
    (htaps : first.taps ≠ []) (hsnap : link.SnapsNothing after)
    (hok : d.snapRefresh after.1 after.2 laneIndex = .ok d')
    (hmatrix : after.1.liveMatrixProfileActive = false)
    (hprofile : after.1.liveProfileActive = false) :
    d'.Shows (effectiveTaps (if after.2.valuesChanged then after.1.live else live) first.taps) := by
  obtain ⟨hshows, -, -⟩ := h.declared (hsnap.matrixActive ▸ hmatrix) (hsnap.profileActive ▸ hprofile)
  have hno : ∀ {flag : Bool}, flag = false → ¬ flag = true := by
    intro flag hflag
    rw [hflag]
    decide
  unfold snapRefresh at hok
  by_cases hchanged : after.2.valuesChanged = true
  · rw [if_pos ⟨hchanged, h.hasTdl⟩] at hok
    dsimp only at hok
    rw [if_neg (hno hmatrix), if_neg (hno hprofile)] at hok
    obtain rfl := Except.ok.inj hok
    rw [if_pos hchanged]
    have hsame : { d with live := after.1.live }.Shows (effectiveTaps live first.taps) :=
      hshows.congr rfl rfl
    exact hsame.refreshTap0 h.hasTdl htaps
  · rw [if_neg (fun hboth => hchanged hboth.1)] at hok
    obtain rfl := Except.ok.inj hok
    rw [if_neg hchanged]
    exact hshows

/-- **The snap of a slot keeps the tdl parallel.** -/
theorem TdlParallel.snap [IsStrictOrderedRing K] (h : TdlParallel first link live laneIndex tdl d)
    (htaps : first.taps ≠ [])
    (hsnap : link.SnapsNothing after ∨ link.SnapsProfile after ∨ link.SnapsMatrix after)
    (hok : d.snapRefresh after.1 after.2 laneIndex = .ok d') :
    TdlParallel first after.1 (if after.2.valuesChanged then after.1.live else live) laneIndex
      (resetTdl after laneIndex tdl) d' := by
  have hstill : d'.fadingEnabled = false := (snapRefresh_fadingEnabled h.hasTdl hok).trans h.still
  -- without a reset: the rings stay, and so do the filters of the declared taps
  have hkeep : (link.SnapsNothing after ∨ link.SnapsMatrix after) →
      after.2.historyResetRequired = false → SlotRefreshed after.1 after.2 laneIndex d d' →
      TdlParallel first after.1 (if after.2.valuesChanged then after.1.live else live) laneIndex
        (resetTdl after laneIndex tdl) d' := by
    intro hsnap hreset hrefreshed
    obtain ⟨hsize, hring⟩ := h.keepsRing hsnap hreset hrefreshed hok
    have htdl : resetTdl after laneIndex tdl = tdl := if_neg (by rw [hreset]; decide)
    have hline := hrefreshed.ring
    rw [if_neg (by rw [hreset]; decide)] at hline
    rw [htdl]
    refine ⟨hrefreshed.hasTdl, hstill, hline ▸ h.cells, hsize ▸ h.size, hrefreshed.mirrors,
      hring ▸ h.suffix, ?_⟩
    intro hmatrix hprofile
    rcases hsnap with hsnap | hsnap
    · obtain ⟨-, hpoly, hlen⟩ :=
        h.declared (hsnap.matrixActive ▸ hmatrix) (hsnap.profileActive ▸ hprofile)
      exact ⟨h.declaredTaps htaps hsnap hok hmatrix hprofile, hpoly, hlen.trans hsize.symm⟩
    · rw [hsnap.matrixActive] at hmatrix
      cases hmatrix
  rcases hsnap with hsnap | hsnap | hsnap
  · exact hkeep (Or.inl hsnap) hsnap.reset (h.mirrors.snapsNothing h.hasTdl hsnap hok)
  · have hrefreshed := snapsProfile_refreshed h.hasTdl hsnap hok
    exact h.ofReset hrefreshed hsnap.reset hstill
      (laneProfile_of_profile hsnap.matrixActive hsnap.profileActive)
      (hrefreshed.mirrors.profile hsnap.matrixActive hsnap.profileActive)
      (Or.inr hsnap.profileActive) _
  · have hrefreshed := h.mirrors.snapsMatrix h.hasTdl hsnap hok
    cases hreset : after.2.historyResetRequired with
    | false => exact hkeep (Or.inr hsnap) hreset hrefreshed
    | true =>
        have hcarries := (hrefreshed.mirrors.matrix hsnap.matrixActive).2
        exact h.ofReset hrefreshed hreset hstill
          (laneProfile_of_matrix hsnap.matrixActive hcarries hrefreshed.hasTdl) hcarries
          (Or.inl hsnap.matrixActive) _

/-- **The ring update keeps the tdl parallel.** -/
theorem TdlParallel.roll (h : TdlParallel first link live laneIndex tdl d) (xs : List (Iq K))
    (next : ℕ) :
    TdlParallel first link live laneIndex
      { tdl with delayLine := rollDelayLine xs tdl.delayLine } (d.updateDelayLineKernel xs next) := by
  obtain ⟨hring, hinside⟩ := updateDelayLineKernel_ring h.inside h.hasTdl xs next
  have hframe : (d.updateDelayLineKernel xs next).hasTdl = d.hasTdl ∧
      (d.updateDelayLineKernel xs next).fadingEnabled = d.fadingEnabled ∧
      (d.updateDelayLineKernel xs next).delayLineSize = d.delayLineSize ∧
      (d.updateDelayLineKernel xs next).nTaps = d.nTaps ∧
      (d.updateDelayLineKernel xs next).taps = d.taps := by
    unfold updateDelayLineKernel
    dsimp only
    split_ifs <;> exact ⟨rfl, rfl, rfl, rfl, rfl⟩
  obtain ⟨htdl, hfading, hsize, hcount, htaps⟩ := hframe
  refine ⟨htdl.trans h.hasTdl, hfading.trans h.still, ?_, hsize ▸ h.size, ?_, ?_, ?_⟩
  · unfold updateDelayLineKernel
    dsimp only
    rw [if_neg (by rw [h.hasTdl]; decide)]
    dsimp only
    rw [List.length_append, length_rollDelayLine, List.length_take, List.length_drop, h.cells]
    have hle := h.size
    omega
  · refine ⟨fun hm => ?_, fun hm hp => ?_⟩
    · exact ⟨(h.mirrors.matrix hm).1, (h.mirrors.matrix hm).2.updateDelayLine _ _⟩
    · exact (h.mirrors.profile hm hp).updateDelayLine _ _
  · rw [hring]
    have hmatch : RingsMatch [] tdl.delayLine d.ring :=
      ⟨h.suffix, Or.inr fun tap htap => absurd htap List.not_mem_nil⟩
    exact (hmatch.roll xs).suffix
  · intro hm hp
    obtain ⟨hshows, hpoly, hlen⟩ := h.declared hm hp
    refine ⟨hshows.congr hcount htaps, hpoly, ?_⟩
    dsimp only
    rw [length_rollDelayLine, hlen, hsize]

end Tdl

/-! ## A lane -/

noncomputable section

section Lane

/-- **A static model**: a leading tdl without fading, and no noise behind it. -/
structure StaticModel (model : ModelConfig ℝ) (first : ModelStep ℝ) (rest : List (ModelStep ℝ)) :
    Prop where
  chain : model.chain = first :: rest
  leads : first.type = .tdl
  still : first.fadingEnabled = false
  taps : first.taps ≠ []
  plain : ∀ step ∈ rest, step.IsPlain

/-- **A lane on both backends**, between two slots. -/
structure LaneParallel (model : ModelConfig ℝ) (first : ModelStep ℝ) (link : PhysicalLinkRuntime ℝ)
    (st : LinkState ℝ) (slot : LinkModelState ℝ) (d : DeviceLinkState ℝ) : Prop where
  live : slot.live = st.live
  laneIndex : slot.laneIndex = st.laneIndex
  sized : Sized model slot
  steps : ∃ tdl others φ phases, st.steps = tdl :: others ∧ slot.phaseRad = φ :: phases ∧
    TdlParallel first link st.live st.laneIndex tdl d ∧ PhasesAgree others phases

variable {model : ModelConfig ℝ} {first : ModelStep ℝ} {rest : List (ModelStep ℝ)}
  {link : PhysicalLinkRuntime ℝ} {st : LinkState ℝ} {ms : LinkModelState ℝ}
  {d d' : DeviceLinkState ℝ} {after : PhysicalLinkRuntime ℝ × LinkSnapOutcome}

/-- The parts of the link that a tdl reads. -/
theorem TdlParallel.relink {live : MutableParams ℝ} {laneIndex : ℕ} {tdl : StepState ℝ}
    (h : TdlParallel first link live laneIndex tdl d) (fading : PhysicalLinkFading ℝ) (clock : ℕ) :
    TdlParallel first { link with fading := fading, slotStartSamples := clock } live laneIndex tdl
      d :=
  ⟨h.hasTdl, h.still, h.cells, h.size, ⟨h.mirrors.matrix, h.mirrors.profile⟩, h.suffix, h.declared⟩

/-- The phases behind a sweep. -/
theorem PhasesAgree.cleared {states : List (StepState ℝ)} {phases : List ℝ}
    (h : PhasesAgree states phases) :
    PhasesAgree (states.map fun s => { s with delayLine := s.delayLine.map fun _ => 0 }) phases :=
  List.forall₂_map_left_iff.mpr h

/-- **The snap of a lane.** -/
theorem LaneParallel.snap (h : LaneParallel model first link st ms d) (htaps : first.taps ≠ [])
    (hsnap : link.SnapsNothing after ∨ link.SnapsProfile after ∨ link.SnapsMatrix after)
    (hok : d.snapRefresh after.1 after.2 ms.laneIndex = .ok d') :
    LaneParallel model first after.1 (CpuChannelProcessor.refreshLane after.1 after.2 st)
      (snapSlot after ms) d' := by
  obtain ⟨tdl, others, φ, phases, hsteps, hphase, htdl, hagree⟩ := h.steps
  rw [h.laneIndex] at hok
  have htdl' := htdl.snap htaps hsnap hok
  have hlive : (snapSlot after ms).live = if after.2.valuesChanged then after.1.live else st.live := by
    unfold snapSlot
    rw [apply_ite LinkModelState.live, h.live]
  have hkept : (snapSlot after ms).laneIndex = ms.laneIndex ∧
      (snapSlot after ms).phaseRad = ms.phaseRad ∧ Sized model (snapSlot after ms) := by
    unfold snapSlot
    split_ifs
    · exact ⟨rfl, rfl, ⟨h.sized.hostSteps, h.sized.phases, h.sized.seeds, h.sized.counters⟩⟩
    · exact ⟨rfl, rfl, h.sized⟩
  rw [refreshLane_eq]
  refine ⟨hlive, hkept.1.trans h.laneIndex, hkept.2.2, ?_⟩
  dsimp only
  by_cases hreset : after.2.historyResetRequired = true
  · refine ⟨resetTdl after st.laneIndex tdl,
      others.map fun s => { s with delayLine := s.delayLine.map fun _ => 0 }, φ, phases, ?_,
      hkept.2.1.trans hphase, htdl', hagree.cleared⟩
    rw [if_pos hreset, hsteps]
    unfold resetSteps resetTdl
    rw [if_pos hreset]
    cases after.1.laneProfile st.laneIndex with
    | none => rfl
    | some profile => rfl
  · refine ⟨tdl, others, φ, phases, ?_, hkept.2.1.trans hphase, ?_, hagree⟩
    · rw [if_neg hreset, hsteps]
    · have hkeep : resetTdl after st.laneIndex tdl = tdl := if_neg hreset
      rwa [hkeep] at htdl'

/-- Multiplying a sample by one. -/
theorem applyGpuStep_one [Curand ℝ] (idx : ℕ) (x : Iq ℝ) : applyGpuStep idx (makeStep .scale 1 0) x = x := by
  show x.scale 1 = x
  unfold Iq.scale
  rw [mul_one, mul_one]

/-- What the steps of a static model come to. -/
theorem buildSteps_static (hstatic : StaticModel model first rest) (hsized : Sized model ms)
    {φ : ℝ} {phases : List ℝ} (hphase : ms.phaseRad = φ :: phases)
    (input : Option (List (Iq ℝ))) (count rate : ℕ) :
    ∃ seeds counters power, seeds.length = rest.length ∧ counters.length = rest.length ∧
      let built := buildChain ms.live count rate rest phases seeds counters power
      (buildSteps ms model input count rate).hostSteps.take model.chain.length =
        makeStep .scale 1 0 :: built.map (·.step) ∧
      (buildSteps ms model input count rate).phaseRad = φ :: built.map (·.phaseRad) := by
  have hlen : model.chain.length = rest.length + 1 := by rw [hstatic.chain, List.length_cons]
  obtain ⟨seed, seeds, hseeds⟩ :=
    List.exists_cons_of_length_eq_add_one (hsized.seeds.trans hlen)
  obtain ⟨counter, counters, hcounters⟩ :=
    List.exists_cons_of_length_eq_add_one (hsized.counters.trans hlen)
  have hseeds' : seeds.length = rest.length := by
    have := hsized.seeds.trans hlen
    rw [hseeds] at this
    exact Nat.succ.inj this
  have hcounters' : counters.length = rest.length := by
    have := hsized.counters.trans hlen
    rw [hcounters] at this
    exact Nat.succ.inj this
  have hphases' : phases.length = rest.length := by
    have := hsized.phases.trans hlen
    rw [hphase] at this
    exact Nat.succ.inj this
  obtain ⟨power, hbuilt⟩ : ∃ power, buildSteps ms model input count rate =
      (let built := buildChain ms.live count rate model.chain ms.phaseRad ms.noiseSeed
        ms.noiseCounter power
      { ms with
        hostSteps := built.map (·.step) ++ ms.hostSteps.drop built.length
        phaseRad := built.map (·.phaseRad) ++ ms.phaseRad.drop built.length
        noiseCounter := built.map (·.noiseCounter) ++ ms.noiseCounter.drop built.length }) :=
    ⟨_, rfl⟩
  have hchain : buildChain ms.live count rate model.chain ms.phaseRad ms.noiseSeed
      ms.noiseCounter power =
        ⟨makeStep .scale 1 0, φ, counter, power⟩ ::
          buildChain ms.live count rate rest phases seeds counters power := by
    -- the leading TDL has no step of its own on the device: it scales by one
    rw [hstatic.chain, hphase, hseeds, hcounters, buildChain]
    have hhead : buildStep ms.live count rate first φ seed counter power =
        ⟨makeStep .scale 1 0, φ, counter, power⟩ := by
      unfold buildStep
      rw [hstatic.leads]
    rw [hhead]
  have htail := (buildChain_at ms.live count rate rest phases seeds counters power hphases'
    hseeds' hcounters').1
  refine ⟨seeds, counters, power, hseeds', hcounters', ?_⟩
  dsimp only
  rw [hbuilt]
  dsimp only
  rw [hchain]
  constructor
  · rw [List.map_cons, List.take_append_of_le_length]
    · rw [List.take_of_length_le]
      rw [List.length_cons, List.length_map, htail, hlen]
    · rw [List.length_cons, List.length_map, htail, hlen]
  · rw [List.map_cons, List.drop_eq_nil_of_le, List.append_nil]
    rw [List.length_cons, htail, hsized.phases, hlen]

/-- **The slot of a lane**: both backends make the same samples of it, and stay parallel. -/
theorem LaneParallel.slot [Curand ℝ] [Rng ℝ] (hstatic : StaticModel model first rest)
    (h : LaneParallel model first link st ms d) (xs : List (Iq ℝ)) (rate next clock : ℕ)
    (fading : PhysicalLinkFading ℝ) (rows : ℕ → ℕ → Cplx ℝ) (input : Option (List (Iq ℝ))) :
    let built := buildSteps ms model input xs.length rate
    ∃ run, runChain (laneContext st { link with fading := fading } rate) 0 model.chain st.steps xs =
        .ok run ∧
      run.out = applyStepsKernel (built.hostSteps.take model.chain.length)
        (applyChannelKernel d xs rows rate) ∧
      LaneParallel model first { link with fading := fading, slotStartSamples := clock }
        { st with steps := run.states } built (d.updateDelayLineKernel xs next) := by
  obtain ⟨tdl, others, φ, phases, hsteps, hphase, htdl, hagree⟩ := h.steps
  obtain ⟨seeds, counters, power, hseeds, hcounters, hbuilt, hphases⟩ :=
    buildSteps_static hstatic h.sized hphase input xs.length rate
  have hcount : phases.length = rest.length := by
    have hlen := h.sized.phases
    rw [hphase, hstatic.chain] at hlen
    exact Nat.succ.inj hlen
  obtain ⟨huse, hshows, hrings⟩ := htdl.use
  set taps := usedTaps st.live link.layout st.laneIndex first.taps with htaps
  set shaped := (applyTdlStep xs taps (taps.map tapPolyphase) tdl.delayLine).1 with hshaped
  have hlength : shaped.length = xs.length := by
    rw [hshaped]
    unfold applyTdlStep
    rw [List.length_map, List.length_range]
  -- the device convolves with the same taps over its own ring
  have hkernel : applyChannelKernel d xs rows rate = shaped := by
    rw [DeviceLinkState.applyChannelKernel_static hshows htdl.inside htdl.hasTdl htdl.still]
    exact hrings.sameOutput xs
  obtain ⟨run, hrun, hout, hsame, hagree'⟩ :=
    plain_chain (laneContext st { link with fading := fading } rate) hstatic.plain 1 power shaped
      hagree hcount hseeds hcounters
  rw [hlength] at hout hagree'
  have hfirst : stepUse (laneContext st { link with fading := fading } rate).live
      (laneContext st { link with fading := fading } rate).link
      (laneContext st { link with fading := fading } rate).laneIndex first tdl =
        .ok (.tdl taps (taps.map tapPolyphase)) := by
    unfold stepUse
    rw [hstatic.leads]
    exact huse
  have hshape : runStep (laneContext st { link with fading := fading } rate) 0 first
      (.tdl taps (taps.map tapPolyphase)) tdl xs =
        .ok (shaped, { tdl with delayLine := rollDelayLine xs tdl.delayLine }) := by
    unfold runStep shapeTdl
    dsimp only
    rw [if_neg (by rw [hstatic.still]; decide)]
    rfl
  refine ⟨⟨run.out, { tdl with delayLine := rollDelayLine xs tdl.delayLine } :: run.states,
    .tdl taps (taps.map tapPolyphase) :: run.uses⟩, ?_, ?_, ?_⟩
  · rw [hstatic.chain, hsteps, runChain, hfirst, ok_bind, hshape, ok_bind]
    dsimp only
    rw [hrun]
    rfl
  · dsimp only
    rw [hbuilt, hkernel, hout, h.live]
    unfold applyStepsKernel
    rw [← mapIdx_applyChain]
    congr 1
    simp only [applyGpuStep_one]
    exact (List.map_id' shaped).symm.trans (map_eq_mapIdx shaped fun x => x)
  · refine ⟨h.live, h.laneIndex, ?_, ?_⟩
    · exact (buildSteps_at h.sized input xs.length rate).1
    · refine ⟨_, _, _, _, rfl, hphases, (htdl.roll xs next).relink fading clock, ?_⟩
      rw [h.live]
      exact hagree'

end Lane

end
