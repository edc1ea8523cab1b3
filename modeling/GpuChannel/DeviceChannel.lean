/-
# The device copy of a lane

`DeviceLinkState` (device_channel.h), its refreshes in device_channel.cu, the refresh that
follows a snap in cuda_backend.cu, and the ring update after a slot.

A refresh is partial when a new matrix keeps the history: gain and phase of each tap.  It is enough
because a state that carries a layout, that is a fixed point of the full refresh with it, has
everything else already.
-/
import GpuChannel.DelayLine
import GpuChannel.WarmupHistory

/-- `kDeviceMaxDelayLine`. -/
def kDeviceMaxDelayLine : ℕ := kMaxProfileDelaySamples + kTdlFracFilterTaps

/-- The fields of one tap.  The LOS phase of the source is never read. -/
structure DeviceTap (K : Type) where
  delayInt : ℤ
  frac : K
  gainAmp : K
  cosPhi : K
  sinPhi : K
  polyphase : Polyphase K
  isLos : Bool
  losFactor : K
  rayleighFactor : K
  losAngleRad : K
  alpha : Fin kTdlFadingSinusoids → K
  phi : Fin kTdlFadingSinusoids → K

/-- **`DeviceLinkState`.** `delayLine` has `kDeviceMaxDelayLine` cells, the first `delayLineSize`
of them in use. -/
structure DeviceLinkState (K : Type) where
  nTaps : ℕ
  hasTdl : Bool
  delayLineSize : ℕ
  srcIndex : ℕ
  taps : Fin kDeviceMaxTaps → DeviceTap K
  fadingEnabled : Bool
  fDMaxHz : K
  gridUs : K
  losCoeff : Cplx K
  delayLine : List (Iq K)
  slotStartSamples : ℕ
  live : MutableParams K

section Refresh

variable {K : Type} [Field K] [LinearOrder K] [FloorRing K] [Libm K]

namespace DeviceTap

/-- The gain and the phase of a tap, the whole of a partial refresh. -/
def loadGain (t : DeviceTap K) (tap : TapSpec K) : DeviceTap K :=
  { t with
    gainAmp := Libm.pow10 (tap.gainDb / 20)
    cosPhi := Libm.cos tap.phaseRad
    sinPhi := Libm.sin tap.phaseRad }

/-- What a full refresh writes of a tap in use.  The draws of the rays stay. -/
def load (t : DeviceTap K) (tap : TapSpec K) : DeviceTap K :=
  let frac := tap.delaySamples - (⌊tap.delaySamples⌋ : K)
  let kLin := Libm.pow10 (tap.losKDb / 10)
  { t.loadGain tap with
    delayInt := ⌊tap.delaySamples⌋
    frac := frac
    polyphase := computeWindowedSincTaps frac
    isLos := tap.isLos
    losAngleRad := tap.losAngleRad
    losFactor := if tap.isLos then Libm.sqrt (kLin / (kLin + 1)) else 0
    rayleighFactor := if tap.isLos then Libm.sqrt (1 / (kLin + 1)) else 1 }

/-- What a full refresh writes of a tap behind the last. -/
def clear (t : DeviceTap K) : DeviceTap K := { t with gainAmp := 0, isLos := false }

theorem load_load (t : DeviceTap K) (tap : TapSpec K) : (t.load tap).load tap = t.load tap := rfl

omit [LinearOrder K] [FloorRing K] [Libm K] in
theorem clear_clear (t : DeviceTap K) : t.clear.clear = t.clear := rfl

/-- After a full load, a tap that differs in gain and phase needs nothing but these. -/
theorem load_of_compatible (t : DeviceTap K) {x y : TapSpec K} (h : x.historyCompatible y = true) :
    (t.load x).load y = (t.load x).loadGain y := by
  obtain ⟨hdelay, hlos, hk, hangle⟩ := of_decide_eq_true h
  unfold load
  rw [hdelay, hlos, hk, hangle]
  rfl

end DeviceTap

/-- `lanes[lane_index]`; a lane outside the array has no taps. -/
def MatrixProfileShadow.laneProfile (m : MatrixProfileShadow K) (laneIndex : ℕ) : ProfileShadow K :=
  (m.lane? laneIndex).getD ProfileShadow.default

/-- The delay of a tap lies outside the device ring. -/
def TapSpec.exceedsDevice (tap : TapSpec K) : Prop :=
  tap.delaySamples < 0 ∨ (kMaxProfileDelaySamples : K) < tap.delaySamples

instance (tap : TapSpec K) : Decidable tap.exceedsDevice := inferInstanceAs (Decidable (_ ∨ _))

namespace DeviceLinkState

/-- **`refresh_tap0_from_live`.** -/
def refreshTap0FromLive (s : DeviceLinkState K) : DeviceLinkState K :=
  if s.hasTdl = false ∨ s.nTaps = 0 then s
  else
    let first : Fin kDeviceMaxTaps := ⟨0, Nat.succ_pos 31⟩
    let tap := s.taps first
    let frac := s.live.tap0DelaySamples - (⌊s.live.tap0DelaySamples⌋ : K)
    let kLin := Libm.pow10 (s.live.losKDb / 10)
    let loaded : DeviceTap K :=
      { tap with
        delayInt := ⌊s.live.tap0DelaySamples⌋
        frac := frac
        polyphase := computeWindowedSincTaps frac
        gainAmp := Libm.pow10 (s.live.tap0GainDb / 20)
        cosPhi := Libm.cos s.live.tap0PhaseRad
        sinPhi := Libm.sin s.live.tap0PhaseRad
        losFactor := if tap.isLos then Libm.sqrt (kLin / (kLin + 1)) else tap.losFactor
        rayleighFactor := if tap.isLos then Libm.sqrt (1 / (kLin + 1)) else tap.rayleighFactor }
    { s with taps := Function.update s.taps first loaded }

/-- **`refresh_all_taps_from_live`.** -/
def refreshAllTapsFromLive (s : DeviceLinkState K) (profile : ProfileShadow K) :
    Except String (DeviceLinkState K) :=
  if s.hasTdl = false then pure s
  else if profile.nTaps = 0 ∨ kDeviceMaxTaps < profile.nTaps then
    throw "CUDA profile exceeds device tap capacity"
  else if ∃ tap ∈ profile.tapList, tap.exceedsDevice then
    throw "CUDA profile exceeds device delay capacity"
  else
    pure { s with
      nTaps := profile.nTaps
      taps := fun k =>
        if k.val < profile.nTaps then (s.taps k).load (profile.taps k) else (s.taps k).clear
      delayLineSize := ringSize profile.tapList }

/-- The refresh after a matrix that keeps the history. -/
def refreshGains (s : DeviceLinkState K) (profile : ProfileShadow K) : DeviceLinkState K :=
  { s with taps := fun k =>
      if k.val < profile.nTaps then (s.taps k).loadGain (profile.taps k) else s.taps k }

def clearRing (s : DeviceLinkState K) : DeviceLinkState K :=
  { s with delayLine := s.delayLine.map fun _ => 0 }

/-- What `process_superposition` does to the device state of one staged edge after the snap of
its link. -/
def snapRefresh (link : PhysicalLinkRuntime K) (outcome : LinkSnapOutcome) (laneIndex : ℕ)
    (s : DeviceLinkState K) : Except String (DeviceLinkState K) :=
  if outcome.valuesChanged ∧ s.hasTdl then
    let s := { s with live := link.live }
    if link.liveMatrixProfileActive then
      if link.liveMatrixProfile.laneCount ≤ laneIndex then
        throw "matrix profile lane index is outside the active matrix"
      else
        let profile := link.liveMatrixProfile.laneProfile laneIndex
        if outcome.historyResetRequired then do
          let s ← s.refreshAllTapsFromLive profile
          pure s.clearRing
        else pure (s.refreshGains profile)
    else if link.liveProfileActive then do
      let s ← s.refreshAllTapsFromLive link.liveProfile
      pure (if outcome.profileActivated then s.clearRing else s)
    else pure s.refreshTap0FromLive
  else pure s

/-- **`update_delay_line_kernel`**: the slot start of the next slot, and the ring in use rolled. -/
def updateDelayLineKernel (s : DeviceLinkState K) (source : List (Iq K)) (nextSlotStart : ℕ) :
    DeviceLinkState K :=
  let s := { s with slotStartSamples := nextSlotStart }
  if s.hasTdl = false then s
  else { s with delayLine :=
      rollDelayLine source (s.delayLine.take s.delayLineSize) ++ s.delayLine.drop s.delayLineSize }

/-! ## Carrying a layout -/

/-- **The state carries the layout**: a full refresh with it would change nothing. -/
def Carries (s : DeviceLinkState K) (profile : ProfileShadow K) : Prop :=
  s.refreshAllTapsFromLive profile = .ok s

/-- What a full refresh that succeeds has checked, and what it leaves. -/
theorem refreshAllTapsFromLive_eq_ok {s s' : DeviceLinkState K} {profile : ProfileShadow K}
    (htdl : s.hasTdl = true) (h : s.refreshAllTapsFromLive profile = .ok s') :
    (¬ (profile.nTaps = 0 ∨ kDeviceMaxTaps < profile.nTaps))
      ∧ (¬ ∃ tap ∈ profile.tapList, tap.exceedsDevice)
      ∧ s' = { s with
          nTaps := profile.nTaps
          taps := fun k =>
            if k.val < profile.nTaps then (s.taps k).load (profile.taps k) else (s.taps k).clear
          delayLineSize := ringSize profile.tapList } := by
  unfold refreshAllTapsFromLive at h
  rw [if_neg (by rw [htdl]; decide)] at h
  split_ifs at h with hcount hdelay
  · exact ⟨hcount, hdelay, (Except.ok.inj h).symm⟩

/-- The fields of a state that carries a layout. -/
theorem carries_iff {s : DeviceLinkState K} {profile : ProfileShadow K} (htdl : s.hasTdl = true) :
    s.Carries profile ↔ (¬ (profile.nTaps = 0 ∨ kDeviceMaxTaps < profile.nTaps))
      ∧ (¬ ∃ tap ∈ profile.tapList, tap.exceedsDevice)
      ∧ s.nTaps = profile.nTaps
      ∧ (s.taps = fun k =>
          if k.val < profile.nTaps then (s.taps k).load (profile.taps k) else (s.taps k).clear)
      ∧ s.delayLineSize = ringSize profile.tapList := by
  constructor
  · intro h
    obtain ⟨hcount, hdelay, hs⟩ := refreshAllTapsFromLive_eq_ok htdl h
    exact ⟨hcount, hdelay, congrArg nTaps hs, congrArg taps hs, congrArg delayLineSize hs⟩
  · rintro ⟨hcount, hdelay, hn, htaps, hsize⟩
    unfold Carries refreshAllTapsFromLive
    rw [if_neg (by rw [htdl]; decide), if_neg hcount, if_neg hdelay, ← htaps, ← hsize, ← hn]
    rfl

/-- Every state carries every layout when it has no tdl. -/
theorem carries_of_no_tdl {s : DeviceLinkState K} (htdl : s.hasTdl = false)
    (profile : ProfileShadow K) : s.Carries profile := by
  unfold Carries refreshAllTapsFromLive
  rw [if_pos htdl]
  rfl

/-- A full refresh leaves a state that carries its layout. -/
theorem carries_of_refresh {s s' : DeviceLinkState K} {profile : ProfileShadow K}
    (h : s.refreshAllTapsFromLive profile = .ok s') : s'.Carries profile := by
  cases htdl : s.hasTdl with
  | false =>
      have hcarries := carries_of_no_tdl htdl profile
      obtain rfl := Except.ok.inj (h.symm.trans hcarries)
      exact hcarries
  | true =>
      obtain ⟨hcount, hdelay, rfl⟩ := refreshAllTapsFromLive_eq_ok htdl h
      refine (carries_iff ?_).mpr ⟨hcount, hdelay, rfl, ?_, rfl⟩
      · exact htdl
      funext k
      dsimp only
      split_ifs
      · rw [DeviceTap.load_load]
      · rw [DeviceTap.clear_clear]

/-- Ring, slot start and live values do not matter for it. -/
theorem Carries.frame {s s' : DeviceLinkState K} {profile : ProfileShadow K}
    (h : s.Carries profile) (htdl : s'.hasTdl = s.hasTdl) (hn : s'.nTaps = s.nTaps)
    (htaps : s'.taps = s.taps) (hsize : s'.delayLineSize = s.delayLineSize) :
    s'.Carries profile := by
  cases hs : s.hasTdl with
  | false => exact carries_of_no_tdl (htdl.trans hs) profile
  | true =>
      refine (carries_iff (htdl.trans hs)).mpr ?_
      rw [hn, htaps, hsize]
      exact (carries_iff hs).mp h

theorem Carries.withLive {s : DeviceLinkState K} {profile : ProfileShadow K} (h : s.Carries profile)
    (live : MutableParams K) : { s with live := live }.Carries profile :=
  h.frame rfl rfl rfl rfl

theorem Carries.clearRing {s : DeviceLinkState K} {profile : ProfileShadow K}
    (h : s.Carries profile) : s.clearRing.Carries profile :=
  h.frame rfl rfl rfl rfl

theorem Carries.updateDelayLine {s : DeviceLinkState K} {profile : ProfileShadow K}
    (h : s.Carries profile) (source : List (Iq K)) (nextSlotStart : ℕ) :
    (s.updateDelayLineKernel source nextSlotStart).Carries profile := by
  unfold updateDelayLineKernel
  dsimp only
  split_ifs
  · exact h.frame rfl rfl rfl rfl
  · exact h.frame rfl rfl rfl rfl

/-! ## The partial refresh -/

omit [Field K] [FloorRing K] [Libm K] in
/-- The compatible taps of two profiles, one by one. -/
theorem historyCompatible_taps {a b : ProfileShadow K} (h : a.historyCompatible b = true)
    (k : Fin kDeviceMaxTaps) (hk : k.val < a.nTaps) :
    (a.taps k).historyCompatible (b.taps k) = true := by
  obtain ⟨hn, -, -, -, -, -, hall⟩ := of_decide_eq_true h
  refine List.all_eq_true.mp hall (a.taps k, b.taps k) ?_
  unfold ProfileShadow.tapList
  rw [← hn, List.zip_map']
  refine List.mem_map.mpr ⟨k, ?_, rfl⟩
  rw [List.mem_take_iff_getElem]
  exact ⟨k.val, by rw [List.length_finRange]; exact lt_min hk k.isLt, by simp⟩

omit [Libm K] in
/-- The device ring of a layout depends on its delays only. -/
theorem ringSize_congr {s t : List (TapSpec K)}
    (h : s.map (·.delaySamples) = t.map (·.delaySamples)) : ringSize s = ringSize t := by
  have hmap : ∀ taps : List (TapSpec K), taps.foldl (fun m tap => max m tap.delaySamples) 0
      = (taps.map (·.delaySamples)).foldl max 0 := by
    intro taps
    rw [List.foldl_map]
  unfold ringSize
  rw [hmap, hmap, h]

omit [FloorRing K] [Libm K] in
/-- The checks of a full refresh depend on the delays only. -/
theorem exceedsDevice_congr {s t : List (TapSpec K)}
    (h : s.map (·.delaySamples) = t.map (·.delaySamples)) :
    (∃ tap ∈ s, tap.exceedsDevice) ↔ ∃ tap ∈ t, tap.exceedsDevice := by
  have hmap : ∀ taps : List (TapSpec K), (∃ tap ∈ taps, tap.exceedsDevice) ↔
      ∃ delay ∈ taps.map (·.delaySamples), delay < 0 ∨ (kMaxProfileDelaySamples : K) < delay := by
    intro taps
    constructor
    · rintro ⟨tap, hmem, hfar⟩
      exact ⟨tap.delaySamples, List.mem_map_of_mem hmem, hfar⟩
    · rintro ⟨delay, hmem, hfar⟩
      obtain ⟨tap, htap, rfl⟩ := List.mem_map.mp hmem
      exact ⟨tap, htap, hfar⟩
  rw [hmap, hmap, h]

/-- **The partial refresh is the full one**, on a state that carries a layout the new one is
compatible with. -/
theorem Carries.refreshGains {s : DeviceLinkState K} {old new : ProfileShadow K}
    (h : s.Carries old) (htdl : s.hasTdl = true) (hcompat : old.historyCompatible new = true) :
    s.refreshAllTapsFromLive new = .ok (s.refreshGains new) := by
  obtain ⟨hcount, hdelay, hn, htaps, hsize⟩ := (carries_iff htdl).mp h
  have hsame : old.nTaps = new.nTaps := (of_decide_eq_true hcompat).1
  have hdelays := ProfileShadow.historyCompatible_delays hcompat
  rw [hsame] at hcount
  rw [exceedsDevice_congr hdelays] at hdelay
  rw [ringSize_congr hdelays] at hsize
  have hloaded : (fun k : Fin kDeviceMaxTaps =>
        if k.val < new.nTaps then (s.taps k).load (new.taps k) else (s.taps k).clear)
      = fun k : Fin kDeviceMaxTaps =>
        if k.val < new.nTaps then (s.taps k).loadGain (new.taps k) else s.taps k := by
    funext k
    have hk := congrFun htaps k
    rw [hsame] at hk
    split_ifs at hk ⊢ with hlt
    · -- what the full refresh loads besides gain and phase is already there
      rw [hk, DeviceTap.load_of_compatible _ (historyCompatible_taps hcompat k (hsame ▸ hlt))]
    · exact hk.symm
  unfold refreshAllTapsFromLive DeviceLinkState.refreshGains
  rw [if_neg (by rw [htdl]; decide), if_neg hcount, if_neg hdelay, hloaded, ← hsize, ← hsame, ← hn]
  rfl

/-- It leaves a state that carries the new layout. -/
theorem Carries.of_refreshGains {s : DeviceLinkState K} {old new : ProfileShadow K}
    (h : s.Carries old) (htdl : s.hasTdl = true) (hcompat : old.historyCompatible new = true) :
    (s.refreshGains new).Carries new :=
  carries_of_refresh (h.refreshGains htdl hcompat)

omit [FloorRing K] [Libm K] in
/-- The lanes of compatible matrices are compatible. -/
theorem laneProfile_historyCompatible {a b : MatrixProfileShadow K}
    (h : matrixHistoryCompatible a b = true) {l : ℕ} (hcount : l < a.laneCount)
    (hl : l < kMaxCorrelatedLanes) :
    (a.laneProfile l).historyCompatible (b.laneProfile l) = true := by
  obtain ⟨-, -, -, hall⟩ := of_decide_eq_true h
  have hmem : (⟨l, hl⟩ : Fin kMaxCorrelatedLanes)
      ∈ (List.finRange kMaxCorrelatedLanes).take a.laneCount := by
    rw [List.mem_take_iff_getElem]
    exact ⟨l, by rw [List.length_finRange]; exact lt_min hcount hl, by simp⟩
  have hlane := List.all_eq_true.mp hall ⟨l, hl⟩ hmem
  unfold MatrixProfileShadow.laneProfile MatrixProfileShadow.lane?
  rw [dif_pos hl, dif_pos hl]
  exact hlane

/-- A state with a tdl carries no lane outside the array. -/
theorem Carries.lane_lt {s : DeviceLinkState K} {m : MatrixProfileShadow K} {l : ℕ}
    (h : s.Carries (m.laneProfile l)) (htdl : s.hasTdl = true) : l < kMaxCorrelatedLanes := by
  by_contra hl
  obtain ⟨hcount, -⟩ := (carries_iff htdl).mp h
  apply hcount
  left
  unfold MatrixProfileShadow.laneProfile MatrixProfileShadow.lane?
  rw [dif_neg hl]
  rfl

end DeviceLinkState

end Refresh
