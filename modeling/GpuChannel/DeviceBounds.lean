/-
# What the control server lets through fits the device

The device refuses a profile with no tap, with too many taps, or with a delay beyond its ring, in the
middle of a slot.  The checks of the swap handlers come before: a profile swap has taps within the
bounds, and a matrix swap has such a profile for every lane of the matrix, since its entries are as
many as the lanes and no lane is named twice.  So no run of messages and slots makes the device
refuse the swap that a slot takes.
-/
import GpuChannel.AcceptedUpdates
import GpuChannel.Activation

section DeviceBounds

variable {K : Type} [Field K] [LinearOrder K] [FloorRing K] [Libm K]

/-! ## Swaps that fit the device -/

/-- **A profile within the bounds of the device**: its tap count and its delays. -/
structure ProfileShadow.FitsDevice (p : ProfileShadow K) : Prop where
  some : p.nTaps ≠ 0
  count : p.nTaps ≤ kDeviceMaxTaps
  delays : ∀ tap ∈ p.tapList, ¬ tap.exceedsDevice

/-- The swaps that wait at a link: one at most, and within the bounds of the device. -/
structure PhysicalLinkRuntime.SwapsFit (link : PhysicalLinkRuntime K) : Prop where
  onePending : link.control.profilePending = false ∨ link.control.matrixProfilePending = false
  profile : link.control.profilePending = true → link.control.shadowProfile.FitsDevice
  matrix : link.control.matrixProfilePending = true → ∀ l < link.control.shadowMatrixProfile.laneCount,
    (link.control.shadowMatrixProfile.laneProfile l).FitsDevice

namespace DeviceLinkState

/-- A full refresh with a profile within the bounds succeeds. -/
theorem refresh_of_fits (s : DeviceLinkState K) {p : ProfileShadow K} (h : p.FitsDevice) :
    ∃ t, s.refreshAllTapsFromLive p = .ok t := by
  unfold refreshAllTapsFromLive
  by_cases htdl : s.hasTdl = false
  · rw [if_pos htdl]
    exact ⟨s, rfl⟩
  · have hcount : ¬ (p.nTaps = 0 ∨ kDeviceMaxTaps < p.nTaps) := by
      rw [not_or, not_lt]
      exact ⟨h.some, h.count⟩
    have hdelays : ¬ ∃ tap ∈ p.tapList, tap.exceedsDevice := by
      rintro ⟨tap, htap, hfar⟩
      exact h.delays tap htap hfar
    rw [if_neg htdl, if_neg hcount, if_neg hdelays]
    exact ⟨_, rfl⟩

end DeviceLinkState

/-! ## Swaps that fit a lane -/

namespace PhysicalLinkRuntime

/-- **The swaps of a link fit the device and this lane**, whether they wait or are live. -/
structure FitsLane (laneIndex : ℕ) (link : PhysicalLinkRuntime K) : Prop where
  swaps : link.SwapsFit
  pending : link.control.matrixProfilePending = true →
    laneIndex < link.control.shadowMatrixProfile.laneCount
  live : link.liveMatrixProfileActive = true → laneIndex < link.liveMatrixProfile.laneCount

end PhysicalLinkRuntime

/-- **An update within the bounds of the device**, with a profile for this lane. -/
def Update.Fits (laneIndex : ℕ) : Update K → Prop
  | .profile staged => staged.FitsDevice
  | .matrix staged => laneIndex < staged.laneCount ∧
      ∀ l < staged.laneCount, (staged.laneProfile l).FitsDevice
  | _ => True

namespace PhysicalLinkRuntime

variable {link : PhysicalLinkRuntime K} {laneIndex : ℕ}

omit [FloorRing K] [Libm K] in
theorem FitsLane.publish (h : link.FitsLane laneIndex) (gate : ℕ) {u : Update K}
    (hu : u.Fits laneIndex) : (link.publish gate u).FitsLane laneIndex := by
  cases u with
  | scalar field value => exact ⟨⟨h.swaps.onePending, h.swaps.profile, h.swaps.matrix⟩, h.pending, h.live⟩
  | correlation staged =>
      exact ⟨⟨h.swaps.onePending, h.swaps.profile, h.swaps.matrix⟩, h.pending, h.live⟩
  | profile staged =>
      exact ⟨⟨Or.inr rfl, fun _ => hu, fun hp => absurd hp Bool.false_ne_true⟩,
        fun hp => absurd hp Bool.false_ne_true, h.live⟩
  | matrix staged =>
      exact ⟨⟨Or.inl rfl, fun hp => absurd hp Bool.false_ne_true, fun _ => hu.2⟩, fun _ => hu.1, h.live⟩

omit [Libm K] in
/-- What a snap leaves fits as well. -/
theorem FitsLane.snap (h : link.FitsLane laneIndex) (count : ℕ) :
    (link.snap count).1.FitsLane laneIndex := by
  have hcore := link.snap_sameCore count
  have hcontrol := link.snapValues_control
  have hshadowProfile : (link.snap count).1.control.shadowProfile = link.control.shadowProfile := by
    rw [hcore.shadowProfile, hcontrol]
  have hshadowMatrix : (link.snap count).1.control.shadowMatrixProfile =
      link.control.shadowMatrixProfile := by
    rw [hcore.shadowMatrixProfile, hcontrol]
  rcases link.snap_swaps count h.swaps.onePending with hsnap | hsnap | hsnap
  · refine ⟨⟨?_, ?_, ?_⟩, ?_, ?_⟩
    · rw [hsnap.profilePending, hsnap.matrixPending]
      exact h.swaps.onePending
    · rw [hsnap.profilePending, hshadowProfile]
      exact h.swaps.profile
    · rw [hsnap.matrixPending, hshadowMatrix]
      exact h.swaps.matrix
    · rw [hsnap.matrixPending, hshadowMatrix]
      exact h.pending
    · rw [hsnap.matrixActive, hsnap.liveMatrix]
      exact h.live
  · have hno := hsnap.profilePending
    have hno' := hsnap.matrixPending
    refine ⟨⟨Or.inl hno, ?_, ?_⟩, ?_, ?_⟩
    · exact fun hp => absurd (hno.symm.trans hp) Bool.false_ne_true
    · exact fun hp => absurd (hno'.symm.trans hp) Bool.false_ne_true
    · exact fun hp => absurd (hno'.symm.trans hp) Bool.false_ne_true
    · exact fun hp => absurd (hsnap.matrixActive.symm.trans hp) Bool.false_ne_true
  · have hno := hsnap.profilePending
    have hno' := hsnap.matrixPending
    refine ⟨⟨Or.inl hno, ?_, ?_⟩, ?_, ?_⟩
    · exact fun hp => absurd (hno.symm.trans hp) Bool.false_ne_true
    · exact fun hp => absurd (hno'.symm.trans hp) Bool.false_ne_true
    · exact fun hp => absurd (hno'.symm.trans hp) Bool.false_ne_true
    · rw [hsnap.liveMatrix]
      exact fun _ => h.pending hsnap.pending

omit [FloorRing K] [Libm K] in
/-- Grids and clock do not matter for it. -/
theorem FitsLane.reclock (h : link.FitsLane laneIndex) (fading : PhysicalLinkFading K) (clock : ℕ) :
    ({ link with fading := fading, slotStartSamples := clock } : PhysicalLinkRuntime K).FitsLane
      laneIndex :=
  ⟨⟨h.swaps.onePending, h.swaps.profile, h.swaps.matrix⟩, h.pending, h.live⟩

omit [FloorRing K] [Libm K] in
/-- Publications that fit leave a link whose swaps fit. -/
theorem FitsLane.publishTo
    (h : link.FitsLane laneIndex) {k : String} {ps : List (Publication K)}
    (hfit : ∀ pub ∈ ps, pub.linkId = k → pub.update.Fits laneIndex) :
    (LinkTable.publishTo k ps link).FitsLane laneIndex := by
  unfold LinkTable.publishTo
  refine List.foldlRecOn _ _ h fun l hl pub hpub => ?_
  obtain ⟨hmem, hid⟩ := List.mem_filter.mp hpub
  exact hl.publish pub.gate (hfit pub hmem (of_decide_eq_true hid))

end PhysicalLinkRuntime

/-! ## Taps -/

omit [LinearOrder K] [FloorRing K] [Libm K] in
/-- The tap list of a padded array is the list that was padded. -/
theorem tapList_padTaps (taps : List (TapSpec K)) (h : taps.length ≤ kDeviceMaxTaps)
    (p : ProfileShadow K) :
    ({ p with nTaps := taps.length, taps := padTaps taps } : ProfileShadow K).tapList = taps := by
  unfold ProfileShadow.tapList
  apply List.ext_getElem
  · rw [List.length_map, List.length_take, List.length_finRange]
    exact min_eq_left h
  · intro k hk hk'
    simp only [List.getElem_map, List.getElem_take, List.getElem_finRange, padTaps]
    rw [List.getD_eq_getElem?_getD]
    simp [hk']

omit [FloorRing K] [Libm K] in
theorem not_exceedsDevice {tap : TapSpec K} {reason : String} {u : Unit}
    (h : rejectIf (delayOutOfRange tap) reason = .ok u) : ¬ tap.exceedsDevice := rejectIf_eq_ok h

omit [FloorRing K] [Libm K] in
/-- The tap loop of a profile swap keeps one tap for each item, and checks its delay. -/
theorem profileTaps_eq_ok {items : List (JsonValue K)} :
    ∀ {k : ℕ} {taps : List (TapSpec K)}, profileTaps k items = .ok taps →
      taps.length = items.length ∧ ∀ tap ∈ taps, ¬ tap.exceedsDevice := by
  induction items with
  | nil =>
      intro k taps h
      cases h
      exact ⟨rfl, fun tap htap => absurd htap List.not_mem_nil⟩
  | cons item items ih =>
      intro k taps h
      cases item with
      | object o =>
          unfold profileTaps at h
          obtain ⟨tap, -, h⟩ := bind_eq_ok h
          obtain ⟨_, hdelay, h⟩ := bind_eq_ok h
          obtain ⟨_, -, h⟩ := bind_eq_ok h
          obtain ⟨rest, hrest, h⟩ := bind_eq_ok h
          cases h
          obtain ⟨hlen, hall⟩ := ih hrest
          refine ⟨congrArg (· + 1) hlen, ?_⟩
          rw [List.forall_mem_cons]
          exact ⟨not_exceedsDevice hdelay, hall⟩
      | string _ => cases h
      | number _ => cases h
      | bool _ => cases h
      | array _ => cases h

omit [FloorRing K] [Libm K] in
/-- So does the tap loop of a lane. -/
theorem laneTaps_eq_ok {items : List (JsonValue K)} :
    ∀ {taps : List (TapSpec K)}, laneTaps items = .ok taps →
      taps.length = items.length ∧ ∀ tap ∈ taps, ¬ tap.exceedsDevice := by
  induction items with
  | nil =>
      intro taps h
      cases h
      exact ⟨rfl, fun tap htap => absurd htap List.not_mem_nil⟩
  | cons item items ih =>
      intro taps h
      cases item with
      | object o =>
          unfold laneTaps at h
          obtain ⟨tap, -, h⟩ := bind_eq_ok h
          obtain ⟨_, hdelay, h⟩ := bind_eq_ok h
          obtain ⟨_, -, h⟩ := bind_eq_ok h
          obtain ⟨rest, hrest, h⟩ := bind_eq_ok h
          cases h
          obtain ⟨hlen, hall⟩ := ih hrest
          refine ⟨congrArg (· + 1) hlen, ?_⟩
          rw [List.forall_mem_cons]
          exact ⟨not_exceedsDevice hdelay, hall⟩
      | string _ => cases h
      | number _ => cases h
      | bool _ => cases h
      | array _ => cases h

omit [FloorRing K] [Libm K] in
/-- A staged profile fits when its items passed the checks. -/
theorem fitsDevice_padTaps {items : List (JsonValue K)} {taps : List (TapSpec K)}
    (hlen : taps.length = items.length) (hsome : ¬ items.isEmpty = true)
    (hcount : ¬ kDeviceMaxTaps < items.length) (hall : ∀ tap ∈ taps, ¬ tap.exceedsDevice)
    (p : ProfileShadow K) :
    ({ p with nTaps := items.length, taps := padTaps taps } : ProfileShadow K).FitsDevice := by
  rw [← hlen] at hcount ⊢
  refine ⟨?_, Nat.le_of_not_lt hcount, ?_⟩
  · intro hzero
    dsimp only at hzero
    rw [hlen, List.length_eq_zero_iff] at hzero
    exact hsome (by rw [hzero]; rfl)
  · rw [tapList_padTaps taps (Nat.le_of_not_lt hcount)]
    exact hall

omit [FloorRing K] [Libm K] in
/-- Neither the fading block nor the force flag matters for the device. -/
theorem ProfileShadow.FitsDevice.congr {p q : ProfileShadow K} (h : p.FitsDevice)
    (hn : q.nTaps = p.nTaps) (htaps : q.taps = p.taps) : q.FitsDevice := by
  have hlist : q.tapList = p.tapList := by
    unfold ProfileShadow.tapList
    rw [hn, htaps]
  exact ⟨hn ▸ h.some, hn ▸ h.count, hlist ▸ h.delays⟩

omit [LinearOrder K] [FloorRing K] [Libm K] in
theorem stageFading_eq_ok {fields : JsonObject K} {p staged : ProfileShadow K}
    (h : stageFading fields p = .ok staged) :
    staged.nTaps = p.nTaps ∧ staged.taps = p.taps := by
  unfold stageFading at h
  split at h
  · cases h
    exact ⟨rfl, rfl⟩
  · obtain ⟨enabled, -, h⟩ := bind_eq_ok h
    obtain ⟨fDMaxHz, -, h⟩ := bind_eq_ok h
    obtain ⟨gridUs, -, h⟩ := bind_eq_ok h
    obtain ⟨spectrum, -, h⟩ := bind_eq_ok h
    obtain ⟨_, -, h⟩ := bind_eq_ok h
    cases h
    exact ⟨rfl, rfl⟩
  · cases h

/-! ## Requests -/

variable {srv : ControlServer K} {links : LinkMap K} {fields : JsonObject K}

omit [Libm K] in
/-- **An accepted profile swap fits the device.** -/
theorem profileRequest_fits {r : SwapRequest K (ProfileShadow K)}
    (h : profileRequest srv links fields = .ok r) : r.staged.FitsDevice := by
  unfold profileRequest at h
  obtain ⟨⟨linkId, ctl⟩, -, h⟩ := bind_eq_ok h
  obtain ⟨_, -, h⟩ := bind_eq_ok h
  obtain ⟨_, -, h⟩ := bind_eq_ok h
  obtain ⟨items, -, h⟩ := bind_eq_ok h
  obtain ⟨_, hsome, h⟩ := bind_eq_ok h
  obtain ⟨_, hcount, h⟩ := bind_eq_ok h
  obtain ⟨taps, htaps, h⟩ := bind_eq_ok h
  obtain ⟨staged, hstaged, h⟩ := bind_eq_ok h
  obtain ⟨gate, -, h⟩ := bind_eq_ok h
  obtain ⟨force, -, h⟩ := bind_eq_ok h
  obtain ⟨batch, -, h⟩ := bind_eq_ok h
  cases h
  obtain ⟨hlen, hall⟩ := profileTaps_eq_ok htaps
  obtain ⟨hn, hsame⟩ := stageFading_eq_ok hstaged
  exact (fitsDevice_padTaps hlen (rejectIf_eq_ok hsome) (rejectIf_eq_ok hcount) hall _).congr hn hsame

omit [Libm K] in
/-- One entry of a matrix swap: a lane of the matrix that was not named before, and its profile. -/
theorem matrixLane_eq_ok {nt nr : ℕ} {force : Bool} {seen : List ℕ} {o : JsonObject K}
    {entry : ℕ × ProfileShadow K} (h : matrixLane nt nr force seen o = .ok entry) :
    entry.1 < nt * nr ∧ entry.1 ∉ seen ∧ entry.2.FitsDevice := by
  unfold matrixLane at h
  obtain ⟨rxValue, -, h⟩ := bind_eq_ok h
  obtain ⟨txValue, -, h⟩ := bind_eq_ok h
  obtain ⟨_, hports, h⟩ := bind_eq_ok h
  obtain ⟨_, hseen, h⟩ := bind_eq_ok h
  obtain ⟨items, -, h⟩ := bind_eq_ok h
  obtain ⟨_, hsome, h⟩ := bind_eq_ok h
  obtain ⟨_, hcount, h⟩ := bind_eq_ok h
  obtain ⟨taps, htaps, h⟩ := bind_eq_ok h
  cases h
  have hinside := rejectIf_eq_ok hports
  simp only [not_or, not_le, not_lt] at hinside
  obtain ⟨-, -, hrx, hrx', htx, htx'⟩ := hinside
  obtain ⟨hlen, hall⟩ := laneTaps_eq_ok htaps
  refine ⟨?_, rejectIf_eq_ok hseen, ?_⟩
  · have hr : (truncInt rxValue).toNat < nr := by omega
    have ht : (truncInt txValue).toNat < nt := by omega
    calc (truncInt rxValue).toNat * nt + (truncInt txValue).toNat
        < (truncInt rxValue).toNat * nt + nt := by omega
      _ = ((truncInt rxValue).toNat + 1) * nt := (Nat.succ_mul _ _).symm
      _ ≤ nr * nt := Nat.mul_le_mul_right nt hr
      _ = nt * nr := Nat.mul_comm _ _
  · have hpadded := fitsDevice_padTaps hlen (rejectIf_eq_ok hsome) (rejectIf_eq_ok hcount) hall
      ProfileShadow.default
    exact hpadded.congr rfl rfl

omit [Libm K] in
/-- **The lane loop names distinct lanes**, and every lane that was named has a profile that fits. -/
theorem matrixLanes_named {nt nr : ℕ} {force : Bool} (hcap : nt * nr ≤ kMaxCorrelatedLanes)
    {items : List (JsonValue K)} :
    ∀ {entry : ℕ} {seen : List ℕ} {m m' : MatrixProfileShadow K},
      matrixLanes nt nr force entry seen m items = .ok m' → seen.Nodup → (∀ l ∈ seen, l < nt * nr) →
      (∀ l ∈ seen, (m.laneProfile l).FitsDevice) →
      ∃ named : List ℕ, named.length = seen.length + items.length ∧ named.Nodup ∧
        (∀ l ∈ named, l < nt * nr) ∧ ∀ l ∈ named, (m'.laneProfile l).FitsDevice := by
  induction items with
  | nil =>
      intro entry seen m m' h hnodup hlt hfits
      cases h
      exact ⟨seen, rfl, hnodup, hlt, hfits⟩
  | cons item items ih =>
      intro entry seen m m' h hnodup hlt hfits
      cases item with
      | object o =>
          unfold matrixLanes at h
          obtain ⟨⟨laneIndex, profile⟩, hlane, h⟩ := bind_eq_ok h
          obtain ⟨hinside, hnew, hprofile⟩ := matrixLane_eq_ok hlane
          dsimp only at hinside hnew hprofile
          -- an entry writes its own lane
          have hwritten : ∀ l < nt * nr, ({ m with lanes := fun i =>
              if i.val = laneIndex then profile else m.lanes i } :
              MatrixProfileShadow K).laneProfile l =
                if l = laneIndex then profile else m.laneProfile l := by
            intro l hl
            unfold MatrixProfileShadow.laneProfile MatrixProfileShadow.lane?
            have hl' : l < kMaxCorrelatedLanes := lt_of_lt_of_le hl hcap
            rw [dif_pos hl', dif_pos hl', Option.getD_some, Option.getD_some]
          obtain ⟨named, hlen, hrest⟩ := ih h (List.nodup_cons.mpr ⟨hnew, hnodup⟩)
            (List.forall_mem_cons.mpr ⟨hinside, hlt⟩) (by
              intro l hl
              rcases List.mem_cons.mp hl with rfl | hold
              · rw [hwritten _ hinside, if_pos rfl]
                exact hprofile
              · have hne : l ≠ laneIndex := by
                  rintro rfl
                  exact hnew hold
                rw [hwritten _ (hlt l hold), if_neg hne]
                exact hfits l hold)
          refine ⟨named, ?_, hrest⟩
          rw [hlen, List.length_cons, List.length_cons]
          omega
      | string _ => cases h
      | number _ => cases h
      | bool _ => cases h
      | array _ => cases h

/-- As many distinct numbers below `n` as there are: all of them. -/
theorem mem_of_nodup_of_length {n : ℕ} {named : List ℕ} (hnodup : named.Nodup)
    (hlt : ∀ l ∈ named, l < n) (hlen : named.length = n) {l : ℕ} (hl : l < n) : l ∈ named := by
  by_contra hnot
  have hsub : l :: named ⊆ List.range n := by
    intro k hk
    rw [List.mem_range]
    rcases List.mem_cons.mp hk with rfl | hk
    · exact hl
    · exact hlt k hk
  have hle := (List.nodup_cons.mpr ⟨hnot, hnodup⟩).length_le_of_subset hsub
  rw [List.length_cons, List.length_range, hlen] at hle
  omega

omit [Libm K] in
/-- **An accepted matrix swap fits the device**, on every lane of the prepared matrix. -/
theorem matrixRequest_fits {r : SwapRequest K (MatrixProfileShadow K)}
    (h : matrixRequest srv links fields = .ok r) :
    links r.linkId = some r.control ∧ r.staged.laneCount = r.control.ntHint * r.control.nrHint ∧
      ∀ l < r.staged.laneCount, (r.staged.laneProfile l).FitsDevice := by
  obtain ⟨hlink, -, -, hlanes, hcap⟩ := matrixRequest_admitted h
  refine ⟨hlink, hlanes, ?_⟩
  unfold matrixRequest at h
  obtain ⟨⟨linkId, ctl⟩, -, h⟩ := bind_eq_ok h
  obtain ⟨_, -, h⟩ := bind_eq_ok h
  obtain ⟨_, -, h⟩ := bind_eq_ok h
  obtain ⟨_, -, h⟩ := bind_eq_ok h
  obtain ⟨items, -, h⟩ := bind_eq_ok h
  obtain ⟨_, hcount, h⟩ := bind_eq_ok h
  obtain ⟨force, -, h⟩ := bind_eq_ok h
  obtain ⟨gate, -, h⟩ := bind_eq_ok h
  obtain ⟨staged, hstaged, h⟩ := bind_eq_ok h
  obtain ⟨_, -, h⟩ := bind_eq_ok h
  obtain ⟨batch, -, h⟩ := bind_eq_ok h
  cases h
  have hitems := rejectIf_eq_ok hcount
  rw [not_not] at hitems
  obtain ⟨named, hlen, hnodup, hlt, hfits⟩ := matrixLanes_named hcap hstaged List.nodup_nil
    (fun l hl => absurd hl List.not_mem_nil) (fun l hl => absurd hl List.not_mem_nil)
  rw [List.length_nil, Nat.zero_add, hitems] at hlen
  intro l hl
  dsimp only at hlanes
  rw [hlanes] at hl
  exact hfits l (mem_of_nodup_of_length hnodup hlt hlen hl)

/-! ## Runs of the control plane -/

/-- **A link whose swaps never make the device refuse**: those that wait fit, and so do the live ones. -/
structure PhysicalLinkRuntime.DeviceSafe (laneIndex : ℕ) (link : PhysicalLinkRuntime K) : Prop where
  fits : link.FitsLane laneIndex
  profile : link.liveProfileActive = true → link.liveProfile.FitsDevice
  matrix : link.liveMatrixProfileActive = true →
    (link.liveMatrixProfile.laneProfile laneIndex).FitsDevice

namespace PhysicalLinkRuntime.DeviceSafe

variable {link : PhysicalLinkRuntime K} {laneIndex : ℕ}

omit [FloorRing K] [Libm K] in
/-- A publication does not reach the live profiles. -/
theorem publish (h : link.DeviceSafe laneIndex) (gate : ℕ) {u : Update K} (hu : u.Fits laneIndex) :
    (link.publish gate u).DeviceSafe laneIndex :=
  ⟨h.fits.publish gate hu, h.profile, h.matrix⟩

omit [Libm K] in
/-- A snap makes live what waited. -/
theorem snap (h : link.DeviceSafe laneIndex) (count : ℕ) :
    (link.snap count).1.DeviceSafe laneIndex := by
  refine ⟨h.fits.snap count, ?_, ?_⟩
  · rcases link.snap_swaps count h.fits.swaps.onePending with hsnap | hsnap | hsnap
    · rw [hsnap.profileActive, hsnap.liveProfile]
      exact h.profile
    · rw [hsnap.liveProfile]
      exact fun _ => h.fits.swaps.profile hsnap.pending
    · exact fun hp => absurd (hsnap.profileActive.symm.trans hp) Bool.false_ne_true
  · rcases link.snap_swaps count h.fits.swaps.onePending with hsnap | hsnap | hsnap
    · rw [hsnap.matrixActive, hsnap.liveMatrix]
      exact h.matrix
    · exact fun hp => absurd (hsnap.matrixActive.symm.trans hp) Bool.false_ne_true
    · rw [hsnap.liveMatrix]
      exact fun _ => h.fits.swaps.matrix hsnap.pending laneIndex (h.fits.pending hsnap.pending)

/-- **The refresh behind a safe snap succeeds**, whatever the device state was. -/
theorem refreshes (h : link.DeviceSafe laneIndex) (outcome : LinkSnapOutcome)
    (d : DeviceLinkState K) : ∃ d', d.snapRefresh link outcome laneIndex = .ok d' := by
  unfold DeviceLinkState.snapRefresh
  by_cases hchanged : outcome.valuesChanged = true ∧ d.hasTdl = true
  · rw [if_pos hchanged]
    dsimp only
    by_cases hmatrix : link.liveMatrixProfileActive = true
    · have hlane := h.fits.live hmatrix
      obtain ⟨t, ht⟩ := DeviceLinkState.refresh_of_fits { d with live := link.live } (h.matrix hmatrix)
      rw [if_pos hmatrix, if_neg (by omega), ht]
      split_ifs
      · exact ⟨_, rfl⟩
      · exact ⟨_, rfl⟩
    · rw [if_neg hmatrix]
      by_cases hprofile : link.liveProfileActive = true
      · obtain ⟨t, ht⟩ :=
          DeviceLinkState.refresh_of_fits { d with live := link.live } (h.profile hprofile)
        rw [if_pos hprofile, ht]
        exact ⟨_, rfl⟩
      · rw [if_neg hprofile]
        exact ⟨_, rfl⟩
  · rw [if_neg hchanged]
    exact ⟨_, rfl⟩

end PhysicalLinkRuntime.DeviceSafe

/-- An update that fits every lane of the matrix that the link was prepared for. -/
def FitsSetup (setup : String → Option (LinkSetup K)) (linkId : String) (u : Update K) : Prop :=
  ∀ s, setup linkId = some s → ∀ laneIndex < s.ntHint * s.nrHint, u.Fits laneIndex

/-- **The invariant of the control plane**: nothing that waits in a batch or at a link, and nothing
live, is beyond the bounds of the device. -/
structure PlaneSafe (setup : String → Option (LinkSetup K)) (plane : ControlPlane K) : Prop where
  batches : BatchesHold plane.server (FitsSetup setup)
  links : ∀ id link, plane.links id = some link → ∃ s, setup id = some s ∧
    link.control.ntHint = s.ntHint ∧ link.control.nrHint = s.nrHint ∧
      ∀ laneIndex < s.ntHint * s.nrHint, link.DeviceSafe laneIndex

namespace PlaneSafe

variable {setup : String → Option (LinkSetup K)} {plane : ControlPlane K}

theorem vouches (h : PlaneSafe setup plane) (srv : ControlServer K) :
    Vouches srv plane.links.linkMap (FitsSetup setup) := by
  constructor
  · exact fun _ _ _ _ _ _ _ => trivial
  · exact fun _ r hr _ _ _ _ => profileRequest_fits hr
  · intro fields r hr s hs laneIndex hlane
    obtain ⟨hlink, hcount, hfits⟩ := matrixRequest_fits hr
    obtain ⟨link, hthere, hcontrol⟩ := Option.map_eq_some_iff.mp hlink
    obtain ⟨s', hs', hnt, hnr, -⟩ := h.links r.linkId link hthere
    obtain rfl := Option.some.inj (hs.symm.trans hs')
    refine ⟨?_, hfits⟩
    rw [hcount, ← hcontrol, hnt, hnr]
    exact hlane
  · exact fun _ _ _ _ _ _ _ => trivial

/-- **Every step of the control plane keeps it**, a message as well as a slot. -/
theorem step (h : PlaneSafe setup plane) (e : ControlEvent K) : PlaneSafe setup (plane.step e) := by
  cases e with
  | message fields =>
      have hkeeps := (h.vouches _).handleMessage_keeps h.batches fields
      refine ⟨hkeeps.batches, ?_⟩
      intro id link' hlink'
      rw [ControlPlane.step_message_links] at hlink'
      obtain ⟨link, hlink, rfl⟩ := Option.map_eq_some_iff.mp hlink'
      obtain ⟨s, hs, hnt, hnr, hsafe⟩ := h.links id link hlink
      have hsame := LinkTable.sameHints_publishTo id (plane.handled fields).published link
      refine ⟨s, hs, hsame.ntHint.trans hnt, hsame.nrHint.trans hnr, fun laneIndex hlane => ?_⟩
      unfold LinkTable.publishTo
      refine List.foldlRecOn _ _ (hsafe laneIndex hlane) fun l hl pub hpub => ?_
      obtain ⟨hmem, hid⟩ := List.mem_filter.mp hpub
      have hs' : setup pub.linkId = some s := by
        rw [of_decide_eq_true hid]
        exact hs
      exact hl.publish pub.gate (hkeeps.published pub hmem s hs' laneIndex hlane)
  | slot linkId count =>
      refine ⟨h.batches, ?_⟩
      intro id link' hlink'
      by_cases hid : id = linkId
      · subst hid
        rw [ControlPlane.step_slot_links] at hlink'
        obtain ⟨link, hlink, rfl⟩ := Option.map_eq_some_iff.mp hlink'
        obtain ⟨s, hs, hnt, hnr, hsafe⟩ := h.links id link hlink
        have hsame := sameHints_snap link count
        exact ⟨s, hs, hsame.ntHint.trans hnt, hsame.nrHint.trans hnr,
          fun laneIndex hlane => (hsafe laneIndex hlane).snap count⟩
      · rw [ControlPlane.step_slot_links_of_ne plane hid] at hlink'
        exact h.links id link' hlink'

omit [FloorRing K] [Libm K] in
theorem prepared (cap : ℤ) (backendName : String) (setup : String → Option (LinkSetup K)) :
    PlaneSafe setup (ControlPlane.prepared cap backendName setup) := by
  refine ⟨fun _ hbatch => absurd hbatch List.not_mem_nil, ?_⟩
  intro id link hlink
  obtain ⟨s, hs, rfl⟩ := Option.map_eq_some_iff.mp hlink
  refine ⟨s, hs, rfl, rfl, fun laneIndex _ => ⟨⟨⟨Or.inl rfl, ?_, ?_⟩, ?_, ?_⟩, ?_, ?_⟩⟩ <;>
    exact fun hp => absurd hp Bool.false_ne_true

end PlaneSafe

/-- **No run of messages and slots makes the device refuse a swap.** Whatever clients send, in batches
or not, the refresh of a device state in the next slot of a link succeeds on every lane. -/
theorem device_never_refuses (cap : ℤ) (backendName : String)
    (setup : String → Option (LinkSetup K)) (events : List (ControlEvent K)) (id : String)
    (s : LinkSetup K) (hs : setup id = some s) (link : PhysicalLinkRuntime K)
    (hlink : (events.foldl ControlPlane.step
      (ControlPlane.prepared cap backendName setup)).links id = some link)
    (laneIndex : ℕ) (hlane : laneIndex < s.ntHint * s.nrHint) (count : ℕ) (d : DeviceLinkState K) :
    ∃ d', d.snapRefresh (link.snap count).1 (link.snap count).2 laneIndex = .ok d' := by
  have hrun : PlaneSafe setup
      (events.foldl ControlPlane.step (ControlPlane.prepared cap backendName setup)) :=
    Run.invariant (fun _ e h => h.step e) (PlaneSafe.prepared cap backendName setup) events
  obtain ⟨s', hs', -, -, hsafe⟩ := hrun.links id link hlink
  obtain rfl := Option.some.inj (hs.symm.trans hs')
  exact ((hsafe laneIndex hlane).snap count).refreshes _ d

end DeviceBounds

/-! ## A link with two lanes -/

def wideLink : LinkSetup ℚ :=
  { yamlInitial := MutableParams.default, mixing := [], chainHasLeadingTdl := true
    ntHint := 2, nrHint := 1, fixedMimoDeclared := false, correlationDeclared := false
    matrixProfileSupported := true, dlSizeSamplesHint := 8, slotCountHint := 10 }

def wideSetup (id : String) : Option (LinkSetup ℚ) := if id = "l" then some wideLink else none

/-- A swap that names the lanes from the last to the first. -/
def backwards : JsonObject ℚ :=
  [("type", .string "matrix_profile_swap"), ("link_id", .string "l"), ("nt", .number 2),
    ("nr", .number 1), ("lanes", .array [
      .object [("rx_port", .number 0), ("tx_port", .number 1),
        ("taps", .array [.object [("delay_samples", .number 7)]])],
      .object [("rx_port", .number 0), ("tx_port", .number 0),
        ("taps", .array [.object [("delay_samples", .number 0)]])]])]

/-- The plane with the swap accepted, behind one slot. -/
def widePlane : ControlPlane ℚ :=
  [.message backwards, .slot "l" 10].foldl ControlPlane.step
    (ControlPlane.prepared 0 "cuda" wideSetup)

theorem device_never_refuses_backwards : ∃ link : PhysicalLinkRuntime ℚ,
    widePlane.links "l" = some link ∧ link.liveMatrixProfileActive = true ∧
      ∃ d', zeroDevice.snapRefresh (link.snap 10).1 (link.snap 10).2 1 = .ok d' := by
  have hactive : (widePlane.links "l").any (fun link => link.liveMatrixProfileActive) = true := by
    decide +kernel
  cases hlink : widePlane.links "l" with
  | none =>
      rw [hlink] at hactive
      cases hactive
  | some link =>
      rw [hlink] at hactive
      exact ⟨link, rfl, hactive, device_never_refuses 0 "cuda" wideSetup
        [.message backwards, .slot "l" 10] "l" wideLink rfl link hlink 1 (by decide) 10 zeroDevice⟩
