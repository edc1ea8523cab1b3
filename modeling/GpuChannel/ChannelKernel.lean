/-
# The tdl step on the device

`apply_channel_kernel` and `update_delay_line_kernel` against `apply_tdl_step` of delay.h.  A device
state `Shows` a list of taps when the kernel finds the delay, the filter, the gain and the phase of
each of them, wherever they came from: the configuration, a refresh of tap 0, a live profile or one
lane of a live matrix.

The device ring may be shorter than the host's, since a swap sizes it anew while the host's only
grows.  The kernel then computes what the host does as long as every tap fits the shorter ring.
-/
import GpuChannel.CudaBackend
import GpuChannel.Activation
import GpuChannel.ExactChains
import GpuChannel.RingRoom

section ChannelKernel

variable {K : Type} [Field K] [LinearOrder K] [FloorRing K] [Libm K]

/-! ## The ring in use -/

namespace DeviceLinkState

/-- The cells of the ring that are in use. -/
def ring (s : DeviceLinkState K) : List (Iq K) := s.delayLine.take s.delayLineSize

/-- The ring in use lies within the cells. -/
def RingInside (s : DeviceLinkState K) : Prop := s.delayLineSize ≤ s.delayLine.length

variable {s : DeviceLinkState K}

omit [Field K] [LinearOrder K] [FloorRing K] [Libm K] in
theorem length_ring (h : s.RingInside) : s.ring.length = s.delayLineSize := by
  unfold ring
  rw [List.length_take]
  exact min_eq_left h

omit [LinearOrder K] [FloorRing K] [Libm K] in
/-- The kernel reads the slot and the ring in use like the lambda `read` of the host. -/
theorem kernelRead_eq (h : s.RingInside) (source : List (Iq K)) :
    s.kernelRead source = readSample source s.ring := by
  funext idx
  unfold kernelRead readSample
  rw [length_ring h]
  dsimp only
  by_cases hfuture : (source.length : ℤ) ≤ idx
  · rw [if_pos hfuture, if_pos hfuture]
  · rw [if_neg hfuture, if_neg hfuture]
    by_cases hslot : 0 ≤ idx
    · rw [if_pos hslot, if_pos hslot]
    · rw [if_neg hslot, if_neg hslot]
      by_cases hbehind : (s.delayLineSize : ℤ) + idx < 0
      · rw [if_pos hbehind, if_neg (by omega)]
      · rw [if_neg hbehind, if_pos (by omega)]
        unfold ring
        rw [List.getD_eq_getElem?_getD, List.getD_eq_getElem?_getD, List.getElem?_take_of_lt]
        omega

omit [Field K] [LinearOrder K] [FloorRing K] [Libm K] in
/-- The ring update rolls the ring in use. -/
theorem updateDelayLineKernel_ring (h : s.RingInside) (htdl : s.hasTdl = true)
    (source : List (Iq K)) (next : ℕ) :
    (s.updateDelayLineKernel source next).ring = rollDelayLine source s.ring
      ∧ (s.updateDelayLineKernel source next).RingInside := by
  have hlen : (rollDelayLine source s.ring).length = s.delayLineSize := by
    rw [length_rollDelayLine, length_ring h]
  unfold updateDelayLineKernel
  dsimp only
  rw [if_neg (by rw [htdl]; decide)]
  constructor
  · show (rollDelayLine source s.ring ++ s.delayLine.drop s.delayLineSize).take s.delayLineSize = _
    rw [List.take_append_of_le_length (le_of_eq hlen.symm), ← hlen, List.take_length]
  · show s.delayLineSize ≤ (rollDelayLine source s.ring ++ s.delayLine.drop s.delayLineSize).length
    rw [List.length_append, hlen]
    exact Nat.le_add_right _ _

end DeviceLinkState

/-! ## The taps that a state shows -/

/-- The kernel finds this tap here. -/
structure DeviceTap.Shows (t : DeviceTap K) (tap : TapSpec K) : Prop where
  delay : t.delayInt = ⌊tap.delaySamples⌋
  polyphase : t.polyphase = tapPolyphase tap
  gain : t.gainAmp = Libm.pow10 (tap.gainDb / 20)
  cos : t.cosPhi = Libm.cos tap.phaseRad
  sin : t.sinPhi = Libm.sin tap.phaseRad

namespace DeviceTap

theorem load_shows (t : DeviceTap K) (tap : TapSpec K) : (t.load tap).Shows tap := by
  constructor <;> rfl

/-- The filter of a tap that is shown. -/
theorem Shows.filter {t : DeviceTap K} {tap : TapSpec K} (h : t.Shows tap) (read : ℤ → Iq K)
    (idx : ℕ) : t.filter read idx = filterTap read idx tap (tapPolyphase tap) := by
  unfold DeviceTap.filter filterTap
  rw [h.delay, h.polyphase]

/-- Without fading, a tap that is shown weighs its sample as the host does. -/
theorem Shows.weigh {t : DeviceTap K} {tap : TapSpec K} (h : t.Shows tap) (x : Iq K) :
    t.weigh 1 x = weightTap tap x := by
  have hre : (1 : Cplx K).re = 1 := rfl
  have him : (1 : Cplx K).im = 0 := rfl
  unfold DeviceTap.weigh weightTap Iq.rotate
  rw [h.gain, h.cos, h.sin, hre, him]
  simp only [mul_one, mul_zero, sub_zero, zero_add]

end DeviceTap

namespace DeviceLinkState

/-- **The state shows these taps**, in this order and no others. -/
structure Shows (s : DeviceLinkState K) (taps : List (TapSpec K)) : Prop where
  count : s.nTaps = taps.length
  bound : taps.length ≤ kDeviceMaxTaps
  tap : ∀ (k : Fin kDeviceMaxTaps) (tap : TapSpec K), taps[k.val]? = some tap →
    (s.taps k).Shows tap

variable {s : DeviceLinkState K} {taps : List (TapSpec K)}

/-- A state that shows taps loops over them. -/
theorem Shows.forall₂ (h : s.Shows taps) :
    List.Forall₂ (fun kt tap => kt.2.Shows tap) s.tapsInUse taps := by
  unfold tapsInUse
  rw [h.count, List.forall₂_iff_get]
  constructor
  · rw [List.length_map, List.length_take, List.length_finRange]
    exact min_eq_left h.bound
  · intro i hi hi'
    have hk : i < kDeviceMaxTaps := lt_of_lt_of_le hi' h.bound
    simp only [List.get_eq_getElem, List.getElem_map, List.getElem_take, List.getElem_finRange]
    exact h.tap ⟨i, hk⟩ _ (List.getElem?_eq_getElem hi')

/-- A state that carries a layout shows its taps. -/
theorem Carries.shows {profile : ProfileShadow K} (h : s.Carries profile) (htdl : s.hasTdl = true) :
    s.Shows profile.tapList := by
  obtain ⟨hcount, -, hn, htaps, -⟩ := (carries_iff htdl).mp h
  rw [not_or, not_lt] at hcount
  have hlen : profile.tapList.length = profile.nTaps := by
    unfold ProfileShadow.tapList
    rw [List.length_map, List.length_take, List.length_finRange]
    exact min_eq_left hcount.2
  refine ⟨hn.trans hlen.symm, hlen ▸ hcount.2, ?_⟩
  intro k tap hk
  have hlt : k.val < profile.nTaps := hlen ▸ (List.getElem?_eq_some_iff.mp hk).1
  have htap : profile.taps k = tap := by
    obtain ⟨hk', hget⟩ := List.getElem?_eq_some_iff.mp hk
    rw [← hget]
    unfold ProfileShadow.tapList
    simp
  rw [htaps]
  dsimp only
  rw [if_pos hlt, htap]
  exact DeviceTap.load_shows _ _

/-- Ring, slot start and live values do not matter for it. -/
theorem Shows.congr {s' : DeviceLinkState K} (h : s.Shows taps) (hn : s'.nTaps = s.nTaps)
    (htaps : s'.taps = s.taps) : s'.Shows taps :=
  ⟨hn.trans h.count, h.bound, fun k tap hk => htaps ▸ h.tap k tap hk⟩

/-- **A refresh of tap 0** turns the taps with an older live tap 0 into those with the new one. -/
theorem Shows.refreshTap0 {old : MutableParams K} (htdl : s.hasTdl = true) (hsome : taps ≠ [])
    (h : s.Shows (effectiveTaps old taps)) :
    s.refreshTap0FromLive.Shows (effectiveTaps s.live taps) := by
  obtain ⟨first, rest, rfl⟩ := List.exists_cons_of_ne_nil hsome
  have hcons : ∀ live : MutableParams K,
      effectiveTaps live (first :: rest) = overrideTap0 live first :: rest := fun _ => rfl
  rw [hcons] at h ⊢
  have hn : s.nTaps ≠ 0 := by
    rw [h.count, List.length_cons]
    exact Nat.succ_ne_zero _
  unfold refreshTap0FromLive
  rw [if_neg (by rw [htdl, not_or]; exact ⟨by decide, hn⟩)]
  refine ⟨h.count, h.bound, ?_⟩
  intro k tap hk
  dsimp only
  by_cases hzero : k.val = 0
  · have hk0 : k = ⟨0, Nat.succ_pos 31⟩ := Fin.ext hzero
    rw [hzero, List.getElem?_cons_zero, Option.some.injEq] at hk
    subst hk
    rw [hk0, Function.update_self]
    constructor <;> rfl
  · have hne : k ≠ ⟨0, Nat.succ_pos 31⟩ := fun heq => hzero (congrArg Fin.val heq)
    rw [Function.update_of_ne hne]
    apply h.tap k tap
    obtain ⟨j, hj⟩ := Nat.exists_eq_succ_of_ne_zero hzero
    rw [hj, List.getElem?_cons_succ] at hk ⊢
    exact hk

/-! ## The kernel and the host -/

/-- Two folds over lists in a relation that the step respects. -/
theorem foldl_forall₂ {α β γ : Type} {R : α → β → Prop} {f : γ → α → γ} {g : γ → β → γ}
    (hstep : ∀ c a b, R a b → f c a = g c b) {as : List α} {bs : List β}
    (h : List.Forall₂ R as bs) (c : γ) : as.foldl f c = bs.foldl g c := by
  induction h generalizing c with
  | nil => rfl
  | cons hab _ ih =>
      rw [List.foldl_cons, List.foldl_cons, hstep c _ _ hab]
      exact ih _

theorem zip_map_self {α β : Type} (l : List α) (f : α → β) :
    l.zip (l.map f) = l.map fun a => (a, f a) := by
  induction l with
  | nil => rfl
  | cons a l ih => rw [List.map_cons, List.zip_cons_cons, ih, List.map_cons]

/-- **The static kernel is `apply_tdl_step`** over the ring in use. -/
theorem applyChannelKernel_static (h : s.Shows taps) (hring : s.RingInside) (htdl : s.hasTdl = true)
    (hstatic : s.fadingEnabled = false) (source : List (Iq K)) (rows : ℕ → ℕ → Cplx K) (rate : ℕ) :
    applyChannelKernel s source rows rate =
      (applyTdlStep source taps (taps.map tapPolyphase) s.ring).1 := by
  unfold applyChannelKernel applyTdlStep
  rw [if_neg (by rw [htdl]; decide), kernelRead_eq hring, zip_map_self]
  dsimp only
  apply List.map_congr_left
  intro n _
  rw [List.foldl_map]
  refine foldl_forall₂ ?_ h.forall₂ 0
  intro acc kt tap hkt
  have hgain : deviceGain s (fadingGridShape s.fading source.length rate) rows rate kt.1 n = 1 := by
    unfold deviceGain
    rw [if_neg (by rw [hstatic]; decide)]
  rw [hgain, hkt.weigh, hkt.filter]

end DeviceLinkState

/-! ## Rings of different length -/

/-- **The device ring holds the end of the host's**, and all of it unless every tap fits. -/
structure RingsMatch (taps : List (TapSpec K)) (host device : List (Iq K)) : Prop where
  suffix : device <:+ host
  room : device.length = host.length ∨ RingFits taps device.length

/-- Taps that fit the shorter ring do not see the difference. -/
theorem RingsMatch.sameOutput {taps : List (TapSpec K)} {host device : List (Iq K)}
    (h : RingsMatch taps host device) (source : List (Iq K)) :
    (applyTdlStep source taps (taps.map tapPolyphase) device).1 =
      (applyTdlStep source taps (taps.map tapPolyphase) host).1 := by
  obtain ⟨older, hhost⟩ := h.suffix
  rcases h.room with hlen | hfits
  · rw [h.suffix.eq_of_length hlen]
  · unfold applyTdlStep
    dsimp only
    rw [← hhost, DeviceLinkState.zip_map_self]
    apply List.map_congr_left
    intro n _
    rw [List.foldl_map, List.foldl_map]
    refine List.foldl_ext _ _ _ ?_
    intro acc tap htap
    rw [filterTap_append older (hfits tap htap)]

omit [Libm K] in
/-- Both rings roll. -/
theorem RingsMatch.roll {taps : List (TapSpec K)} {host device : List (Iq K)}
    (h : RingsMatch taps host device) (source : List (Iq K)) :
    RingsMatch taps (rollDelayLine source host) (rollDelayLine source device) := by
  obtain ⟨older, rfl⟩ := h.suffix
  constructor
  · have hsplit : ∀ n, (older ++ (device ++ source)).drop n =
        older.drop n ++ (device ++ source).drop (n - older.length) := fun n => List.drop_append
    rw [rollDelayLine_eq, rollDelayLine_eq, List.append_assoc, hsplit]
    refine List.IsSuffix.trans ?_ (List.suffix_append _ _)
    apply List.drop_suffix_drop_left
    exact Nat.sub_le _ _
  · rw [length_rollDelayLine, length_rollDelayLine]
    exact h.room

end ChannelKernel
