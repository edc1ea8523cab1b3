/-
# Rays to taps

`rays_to_taps` (apps/sionna_bridge/channel_adapter.py) turns the rays of a scene into the taps
of a profile swap: rays that fall into one bin of a sixteenth of a sample are summed, bins that
cancel or are too weak are dropped, the strongest are kept and put in order of delay.  The
rounding of the fields of a tap to nine decimals is left out.
-/
import GpuChannel.ControlServer
import GpuChannel.RealScalars
import GpuChannel.Library.Checked
import GpuChannel.Library.Rounding
import GpuChannel.Library.Selection

/-! ## The conversion -/

/-- **`Ray`.** An infinity or a NaN, in either part of a coefficient, is `none`; the Doppler shift
is not read here. -/
structure Ray (K : Type) where
  delaySeconds : Option K
  coefficient : Option (Cplx K)

/-- **`Tap`.** -/
structure Tap (K : Type) where
  delaySamples : K
  gainDb : K
  phaseRad : K
  deriving DecidableEq

/-- The keyword arguments of `rays_to_taps`. -/
structure RayOptions (K : Type) where
  sampleRateHz : K
  gainOffsetDb : K
  maxTaps : ℤ
  maxDelaySamples : K
  minGainDb : K
  maxGainDb : K
  delayQuantumSamples : K
  outageGainDb : K

/-- An entry of `candidates`. -/
structure TapCandidate (K : Type) where
  bin : ℤ
  coeff : Cplx K
  gainDb : K

section Conversion

variable {K : Type} [Field K] [LinearOrder K] [FloorRing K] [Libm K]

/-- The defaults of the keyword arguments. -/
def RayOptions.defaults (sampleRateHz gainOffsetDb : K) : RayOptions K :=
  { sampleRateHz := sampleRateHz, gainOffsetDb := gainOffsetDb, maxTaps := 32
    maxDelaySamples := 1023, minGainDb := -100, maxGainDb := 20, delayQuantumSamples := 1 / 16
    outageGainDb := -100 }

instance : AddCommMonoid (Cplx K) where
  add_assoc a b c := congrArg₂ Cplx.mk (add_assoc a.re b.re c.re) (add_assoc a.im b.im c.im)
  zero_add a := congrArg₂ Cplx.mk (zero_add a.re) (zero_add a.im)
  add_zero a := congrArg₂ Cplx.mk (add_zero a.re) (add_zero a.im)
  add_comm a b := congrArg₂ Cplx.mk (add_comm a.re b.re) (add_comm a.im b.im)
  nsmul := nsmulRec

/-- `abs` of a complex number. -/
def Cplx.magnitude (c : Cplx K) : K := Libm.hypot c.re c.im

/-- `cmath.phase`. -/
def Cplx.phase (c : Cplx K) : K := Libm.atan2 c.im c.re

/-- The loop body for one ray: its bin and its coefficient, or `continue`. -/
def rayBin (opts : RayOptions K) (ray : Ray K) : Option (ℤ × Cplx K) :=
  match ray.delaySeconds, ray.coefficient with
  | some seconds, some coeff =>
      let delay := seconds * opts.sampleRateHz
      if delay < 0 ∨ opts.maxDelaySamples < delay then none
      else if coeff.magnitude = 0 then none
      else
        let bin := roundHalfEven (delay / opts.delayQuantumSamples)  -- Python's `round`
        if opts.maxDelaySamples < bin * opts.delayQuantumSamples then none
        else some (bin, coeff)
  | _, _ => none

/-- The gain of a coefficient before it is capped. -/
def rayGain (opts : RayOptions K) (coeff : Cplx K) : K :=
  20 * Libm.log10 coeff.magnitude + opts.gainOffsetDb

/-- The loop body for one bin. -/
def tapCandidate (opts : RayOptions K) (e : ℤ × Cplx K) : Option (TapCandidate K) :=
  if e.2.magnitude = 0 then none
  else if rayGain opts e.2 < opts.minGainDb then none
  else some ⟨e.1, e.2, min (rayGain opts e.2) opts.maxGainDb⟩

/-- The two loops: the sums of the bins, and what is left of them. -/
def candidates (opts : RayOptions K) (rays : List (Ray K)) : List (TapCandidate K) :=
  ((rays.filterMap (rayBin opts)).foldl Selection.addTo []).filterMap (tapCandidate opts)

/-- The strongest candidates, by rising delay. -/
def keptCandidates (opts : RayOptions K) (cs : List (TapCandidate K)) : List (TapCandidate K) :=
  (Selection.top (fun c => c.coeff.magnitude) opts.maxTaps.toNat cs).mergeSort
    fun a b => decide (a.bin ≤ b.bin)

/-- Their taps. -/
def strongestTaps (opts : RayOptions K) (cs : List (TapCandidate K)) : List (Tap K) :=
  (keptCandidates opts cs).map fun c =>
    ⟨c.bin * opts.delayQuantumSamples, c.gainDb, c.coeff.phase⟩

/-- **`rays_to_taps`.** -/
def raysToTaps (opts : RayOptions K) (rays : List (Ray K)) : Except String (List (Tap K)) :=
  if opts.sampleRateHz ≤ 0 then .error "sample_rate_hz must be positive"
  else if opts.maxTaps ≤ 0 then .error "max_taps must be positive"
  else if opts.delayQuantumSamples ≤ 0 then .error "delay_quantum_samples must be positive"
  else if ¬ (opts.minGainDb ≤ opts.outageGainDb ∧ opts.outageGainDb ≤ opts.maxGainDb) then
    .error "outage_gain_db must be inside the accepted gain range"
  else
    let taps := strongestTaps opts (candidates opts rays)
    .ok (if taps.isEmpty then [⟨0, opts.outageGainDb, 0⟩] else taps)

/-- The object of a tap in a swap message (`asdict`). -/
def Tap.toJson (tap : Tap K) : JsonValue K :=
  .object [("delay_samples", .number tap.delaySamples), ("gain_db", .number tap.gainDb),
    ("phase_rad", .number tap.phaseRad)]

/-- The tap that the server reads from it. -/
def Tap.spec (tap : Tap K) : TapSpec K :=
  ⟨tap.delaySamples, tap.gainDb, tap.phaseRad, false, 0, 0⟩

/-- **The coefficient of a bin.** The sum over all the rays that the loop admits to it. -/
def binSum (opts : RayOptions K) (rays : List (Ray K)) (bin : ℤ) : Cplx K :=
  Selection.sumAt (rays.filterMap (rayBin opts)) bin

end Conversion

/-! ## What the server accepts -/

section Accepted

variable {K : Type} [Field K] [LinearOrder K]

/-- The ranges of the checks of `handle_matrix_profile_swap`. -/
def Tap.InRange (tap : Tap K) : Prop :=
  0 ≤ tap.delaySamples ∧ tap.delaySamples ≤ (kMaxProfileDelaySamples : K) ∧ -100 ≤ tap.gainDb ∧
    tap.gainDb ≤ 20

/-- Taps in range pass the tap loop of a lane and are read back as they are. -/
theorem laneTaps_toJson (taps : List (Tap K)) (h : ∀ tap ∈ taps, tap.InRange) :
    laneTaps (taps.map Tap.toJson) = .ok (taps.map Tap.spec) := by
  induction taps with
  | nil => rfl
  | cons tap taps ih =>
    obtain ⟨hlo, hhi, hquiet, hloud⟩ := h tap List.mem_cons_self
    have hdelay : ¬ delayOutOfRange tap.spec := not_or.mpr ⟨not_lt.mpr hlo, not_lt.mpr hhi⟩
    have hgain : ¬ gainOutOfRange tap.spec := not_or.mpr ⟨not_lt.mpr hquiet, not_lt.mpr hloud⟩
    have hread : tapOfJson [("delay_samples", .number tap.delaySamples),
        ("gain_db", .number tap.gainDb), ("phase_rad", .number tap.phaseRad)]
        = .ok tap.spec := rfl
    rw [List.map_cons, Tap.toJson, laneTaps, hread,
      ih fun tap' htap => h tap' (List.mem_cons_of_mem tap htap)]
    simp only [Except.mapError, rejectIf, if_neg hdelay, if_neg hgain, ok_bind]
    rfl

end Accepted

/-! ## Bins -/

section Bins

variable {K : Type} [Field K] [LinearOrder K] [FloorRing K] [Libm K]

/-- The loop admits a ray only to a bin of the ring. -/
theorem rayBin_bounds [IsStrictOrderedRing K] {opts : RayOptions K} (hquantum : 0 < opts.delayQuantumSamples)
    {ray : Ray K} {e : ℤ × Cplx K} (h : rayBin opts ray = some e) :
    0 ≤ e.1 ∧ (e.1 : K) * opts.delayQuantumSamples ≤ opts.maxDelaySamples := by
  unfold rayBin at h
  split at h
  case h_1 seconds coeff _ _ =>
    dsimp only at h
    by_cases hdelay : seconds * opts.sampleRateHz < 0 ∨
        opts.maxDelaySamples < seconds * opts.sampleRateHz
    · rw [if_pos hdelay] at h
      cases h
    · rw [if_neg hdelay] at h
      split at h
      · cases h
      · split at h
        · cases h
        · rename_i hbin
          obtain rfl := Option.some.inj h
          exact ⟨roundHalfEven_nonneg (div_nonneg (not_lt.mp (not_or.mp hdelay).1) hquantum.le),
            not_lt.mp hbin⟩
  case h_2 => cases h

variable {opts : RayOptions K} {rays : List (Ray K)}

/-- The bin is neither cancelled nor too weak. -/
def Qualifies (opts : RayOptions K) (rays : List (Ray K)) (b : ℤ) : Prop :=
  (binSum opts rays b).magnitude ≠ 0 ∧ opts.minGainDb ≤ rayGain opts (binSum opts rays b)

/-- The candidate of a bin. -/
def candidateAt (opts : RayOptions K) (rays : List (Ray K)) (b : ℤ) : TapCandidate K :=
  ⟨b, binSum opts rays b, min (rayGain opts (binSum opts rays b)) opts.maxGainDb⟩

omit [FloorRing K] in
/-- A bin is a candidate exactly if its gain is no less than the smallest. -/
theorem tapCandidate_eq_some {e : ℤ × Cplx K} {c : TapCandidate K} :
    tapCandidate opts e = some c ↔ (e.2.magnitude ≠ 0 ∧ opts.minGainDb ≤ rayGain opts e.2) ∧
      c = ⟨e.1, e.2, min (rayGain opts e.2) opts.maxGainDb⟩ := by
  unfold tapCandidate
  by_cases hzero : e.2.magnitude = 0
  · simp [hzero]
  · by_cases hweak : rayGain opts e.2 < opts.minGainDb
    · simp [hzero, hweak, not_le.mpr hweak]
    · simp only [hzero, hweak, if_false, Option.some.injEq, ne_eq, not_false_eq_true, true_and,
        not_lt.mp hweak]
      exact eq_comm

/-- The candidates are those of the bins that qualify. -/
theorem mem_candidates (hzero : (0 : Cplx K).magnitude = 0) (c : TapCandidate K) :
    c ∈ candidates opts rays ↔ Qualifies opts rays c.bin ∧ c = candidateAt opts rays c.bin := by
  have hcollected := Selection.collected (rays.filterMap (rayBin opts))
  unfold candidates
  rw [List.mem_filterMap]
  constructor
  · rintro ⟨e, he, hc⟩
    obtain ⟨hqualifies, rfl⟩ := tapCandidate_eq_some.mp hc
    have hsum : e.2 = binSum opts rays e.1 := hcollected.sums e he
    unfold Qualifies candidateAt
    rw [← hsum]
    exact ⟨hqualifies, rfl⟩
  · rintro ⟨hqualifies, hc⟩
    refine ⟨(c.bin, binSum opts rays c.bin), (hcollected.mem_iff _).mpr ⟨?_, rfl⟩, ?_⟩
    · by_contra hnone
      apply hqualifies.1
      rw [show binSum opts rays c.bin = 0 from Selection.sumAt_eq_zero hnone]
      exact hzero
    · exact tapCandidate_eq_some.mpr ⟨hqualifies, hc⟩

omit [FloorRing K] in
/-- The candidates keep the order of the bins. -/
theorem map_bin_sublist (bins : List (ℤ × Cplx K)) :
    ((bins.filterMap (tapCandidate opts)).map TapCandidate.bin).Sublist (bins.map Prod.fst) := by
  induction bins with
  | nil => exact List.Sublist.refl _
  | cons e bins ih =>
    rw [List.map_cons]
    cases hc : tapCandidate opts e with
    | none =>
      rw [List.filterMap_cons_none hc]
      exact ih.cons _
    | some c =>
      rw [List.filterMap_cons_some hc, List.map_cons, (tapCandidate_eq_some.mp hc).2]
      exact ih.cons_cons _

/-- Each bin has at most one candidate. -/
theorem nodup_candidates : ((candidates opts rays).map TapCandidate.bin).Nodup :=
  (Selection.collected (rays.filterMap (rayBin opts))).nodup.sublist (map_bin_sublist _)

omit [Field K] [FloorRing K] in
/-- The kept candidates are the strongest ones. -/
theorem keptCandidates_perm (cs : List (TapCandidate K)) :
    (keptCandidates opts cs).Perm
      (Selection.top (fun c => c.coeff.magnitude) opts.maxTaps.toNat cs) :=
  List.mergeSort_perm _ _

omit [Field K] [FloorRing K] in
/-- By rising bin, each once. -/
theorem pairwise_keptCandidates {cs : List (TapCandidate K)}
    (h : (cs.map TapCandidate.bin).Nodup) :
    ((keptCandidates opts cs).map TapCandidate.bin).Pairwise (· < ·) := by
  have hsorted : (keptCandidates opts cs).Pairwise fun a b => decide (a.bin ≤ b.bin) = true := by
    apply List.pairwise_mergeSort
    · intro a b c hab hbc
      exact decide_eq_true (le_trans (of_decide_eq_true hab) (of_decide_eq_true hbc))
    · intro a b
      simpa using le_total a.bin b.bin
  have hnodup : ((keptCandidates opts cs).map TapCandidate.bin).Nodup :=
    ((keptCandidates_perm cs).map TapCandidate.bin).nodup_iff.mpr (Selection.nodup_map_top h _)
  have hle : ((keptCandidates opts cs).map TapCandidate.bin).Pairwise (· ≤ ·) := by
    rw [List.pairwise_map]
    exact hsorted.imp fun h => of_decide_eq_true h
  exact (hle.and hnodup).imp fun h => lt_of_le_of_ne h.1 h.2

/-- The bins that are emitted. -/
def keptBins (opts : RayOptions K) (rays : List (Ray K)) : List ℤ :=
  (keptCandidates opts (candidates opts rays)).map TapCandidate.bin

/-- The tap of a bin. -/
def tapAt (opts : RayOptions K) (rays : List (Ray K)) (b : ℤ) : Tap K :=
  ⟨b * opts.delayQuantumSamples, min (rayGain opts (binSum opts rays b)) opts.maxGainDb,
    (binSum opts rays b).phase⟩

omit [Field K] [FloorRing K] in
/-- A kept candidate is a candidate. -/
theorem mem_keptCandidates {cs : List (TapCandidate K)} {c : TapCandidate K}
    (h : c ∈ keptCandidates opts cs) : c ∈ cs :=
  Selection.mem_of_mem_top ((keptCandidates_perm cs).mem_iff.mp h)

/-- What is emitted for the rays. -/
theorem strongestTaps_eq (hzero : (0 : Cplx K).magnitude = 0) :
    strongestTaps opts (candidates opts rays) = (keptBins opts rays).map (tapAt opts rays) := by
  unfold strongestTaps keptBins
  rw [List.map_map]
  apply List.map_congr_left
  intro c hc
  have hat := ((mem_candidates hzero c).mp (mem_keptCandidates hc)).2
  rw [hat]
  rfl

/-- A kept bin has a gain that qualifies. -/
theorem qualifies_of_mem_keptBins (hzero : (0 : Cplx K).magnitude = 0) {b : ℤ}
    (h : b ∈ keptBins opts rays) : Qualifies opts rays b := by
  obtain ⟨c, hc, rfl⟩ := List.mem_map.mp h
  exact ((mem_candidates hzero c).mp (mem_keptCandidates hc)).1

/-- As many bins are kept as there is room for. -/
theorem length_keptBins :
    (keptBins opts rays).length = min opts.maxTaps.toNat (candidates opts rays).length := by
  unfold keptBins
  rw [List.length_map, (keptCandidates_perm _).length_eq, Selection.length_top]

/-- A bin that qualifies is left out only for stronger ones that fill the profile. -/
theorem strongest_of_not_mem_keptBins (hzero : (0 : Cplx K).magnitude = 0) {b : ℤ}
    (hb : Qualifies opts rays b) (hnot : b ∉ keptBins opts rays) :
    opts.maxTaps.toNat ≤ (keptBins opts rays).length ∧
      ∀ b' ∈ keptBins opts rays,
        (binSum opts rays b).magnitude ≤ (binSum opts rays b').magnitude := by
  have hmem : candidateAt opts rays b ∈ candidates opts rays :=
    (mem_candidates hzero _).mpr ⟨hb, rfl⟩
  have hout : candidateAt opts rays b ∉ Selection.top (fun c => c.coeff.magnitude)
      opts.maxTaps.toNat (candidates opts rays) := by
    intro htop
    exact hnot (List.mem_map.mpr ⟨_, (keptCandidates_perm _).mem_iff.mpr htop, rfl⟩)
  constructor
  · rw [length_keptBins]
    by_contra hshort
    apply hout
    have hall : Selection.top (fun c : TapCandidate K => c.coeff.magnitude) opts.maxTaps.toNat
        (candidates opts rays) = Selection.sortDown (fun c => c.coeff.magnitude)
          (candidates opts rays) := by
      apply List.take_of_length_le
      rw [(Selection.sortDown_perm _).length_eq]
      omega
    rw [hall]
    exact (Selection.sortDown_perm _).mem_iff.mpr hmem
  · intro b' hb'
    obtain ⟨c, hc, rfl⟩ := List.mem_map.mp hb'
    have hat := ((mem_candidates hzero c).mp (mem_keptCandidates hc)).2
    have hle := (Selection.le_of_not_mem_top ((keptCandidates_perm _).mem_iff.mp hc) hmem hout).1
    rw [hat] at hle
    exact hle

/-- When the magnitudes that qualify are distinct, the order of the rays does not matter. -/
theorem keptCandidates_of_perm (hzero : (0 : Cplx K).magnitude = 0) {rays' : List (Ray K)}
    (hperm : rays.Perm rays')
    (hdistinct : ∀ b b', Qualifies opts rays b → Qualifies opts rays b' →
      (binSum opts rays b).magnitude = (binSum opts rays b').magnitude → b = b') :
    keptCandidates opts (candidates opts rays) = keptCandidates opts (candidates opts rays') := by
  have hcandidates : (candidates opts rays).Perm (candidates opts rays') := by
    apply List.Perm.filterMap
    exact (Selection.collected _).perm (Selection.collected _) (hperm.filterMap _)
  unfold keptCandidates
  rw [Selection.top_perm hcandidates]
  intro a ha b hb hkey
  obtain ⟨hqa, hata⟩ := (mem_candidates hzero a).mp ha
  obtain ⟨hqb, hatb⟩ := (mem_candidates hzero b).mp hb
  rw [hata, hatb] at hkey
  have hbin := hdistinct a.bin b.bin hqa hqb hkey
  rw [hata, hatb, hbin]

end Bins

/-! ## The profile of a scene -/

/-- Only zero has no magnitude. -/
theorem magnitude_eq_zero_iff (c : Cplx ℝ) : c.magnitude = 0 ↔ c = 0 := by
  show √(c.re * c.re + c.im * c.im) = 0 ↔ c = 0
  rw [Real.sqrt_eq_zero (add_nonneg (mul_self_nonneg c.re) (mul_self_nonneg c.im))]
  constructor
  · intro h
    have hre : c.re = 0 := by nlinarith [mul_self_nonneg c.re, mul_self_nonneg c.im]
    have him : c.im = 0 := by nlinarith [mul_self_nonneg c.re, mul_self_nonneg c.im]
    exact congrArg₂ Cplx.mk hre him
  · rintro rfl
    show (0 : ℝ) * 0 + 0 * 0 = 0
    ring

section Default

variable {rate offset : ℝ} {rays : List (Ray ℝ)}

/-- With the default limits the function never raises. -/
theorem raysToTaps_defaults (hrate : 0 < rate) :
    raysToTaps (.defaults rate offset) rays = .ok
      (if (strongestTaps (.defaults rate offset) (candidates (.defaults rate offset) rays)).isEmpty
        then [⟨0, -100, 0⟩]
        else strongestTaps (.defaults rate offset)
          (candidates (.defaults rate offset) rays)) := by
  unfold raysToTaps
  have hquantum : ¬ (RayOptions.defaults rate offset).delayQuantumSamples ≤ 0 := by
    show ¬ (1 / 16 : ℝ) ≤ 0
    norm_num
  have houtage : ¬ ¬ ((RayOptions.defaults rate offset).minGainDb
      ≤ (RayOptions.defaults rate offset).outageGainDb ∧
      (RayOptions.defaults rate offset).outageGainDb
        ≤ (RayOptions.defaults rate offset).maxGainDb) := by
    show ¬ ¬ ((-100 : ℝ) ≤ -100 ∧ (-100 : ℝ) ≤ 20)
    norm_num
  have hpositive : ¬ (RayOptions.defaults rate offset).sampleRateHz ≤ 0 := not_le.mpr hrate
  have hmax : ¬ (RayOptions.defaults rate offset).maxTaps ≤ 0 := by
    show ¬ (32 : ℤ) ≤ 0
    decide
  rw [if_neg hpositive, if_neg hmax, if_neg hquantum, if_neg houtage]
  rfl

/-- The bins that qualify lie in the ring. -/
theorem qualifies_bounds {b : ℤ} (h : Qualifies (.defaults rate offset) rays b) :
    0 ≤ b ∧ (b : ℝ) * (1 / 16) ≤ 1023 := by
  have hkey : b ∈ (rays.filterMap (rayBin (.defaults rate offset))).map Prod.fst := by
    by_contra hnone
    exact h.1 ((magnitude_eq_zero_iff _).mpr (Selection.sumAt_eq_zero hnone))
  obtain ⟨e, he, rfl⟩ := List.mem_map.mp hkey
  obtain ⟨ray, -, hray⟩ := List.mem_filterMap.mp he
  exact rayBin_bounds (by show (0 : ℝ) < 1 / 16; norm_num) hray

/-- **Every tap is one that the server takes**, on the grid of sixteenths. -/
theorem tapAt_inRange {b : ℤ} (h : Qualifies (.defaults rate offset) rays b) :
    (tapAt (.defaults rate offset) rays b).InRange ∧
      ∃ m : ℕ, (tapAt (.defaults rate offset) rays b).delaySamples = m / 16 := by
  obtain ⟨hlo, hhi⟩ := qualifies_bounds h
  have hdelay : (tapAt (.defaults rate offset) rays b).delaySamples = b * (1 / 16) := rfl
  have hb : (0 : ℝ) ≤ b := by exact_mod_cast hlo
  refine ⟨⟨?_, ?_, ?_, ?_⟩, b.toNat, ?_⟩
  · rw [hdelay]
    positivity
  · rw [hdelay]
    exact hhi.trans (by norm_num [kMaxProfileDelaySamples])
  · exact le_min h.2 (by show (-100 : ℝ) ≤ 20; norm_num)
  · exact min_le_right _ _
  · rw [hdelay]
    have hcast : ((b.toNat : ℕ) : ℝ) = b := by exact_mod_cast Int.toNat_of_nonneg hlo
    rw [hcast]
    ring

end Default

/-- The bins that are emitted decide the result. -/
theorem raysToTaps_keptBins {rate offset : ℝ} (hrate : 0 < rate) (rays : List (Ray ℝ)) :
    raysToTaps (.defaults rate offset) rays = .ok
      (if keptBins (.defaults rate offset) rays = [] then [⟨0, -100, 0⟩]
        else (keptBins (.defaults rate offset) rays).map (tapAt (.defaults rate offset) rays)) := by
  rw [raysToTaps_defaults hrate, strongestTaps_eq ((magnitude_eq_zero_iff 0).mpr rfl)]
  by_cases hempty : keptBins (.defaults rate offset) rays = []
  · rw [if_pos hempty, hempty]
    rfl
  · rw [if_neg hempty, if_neg]
    rw [List.isEmpty_iff, List.map_eq_nil_iff]
    exact hempty

/-- No bin is emitted exactly when none qualifies. -/
theorem keptBins_eq_nil_iff {rate offset : ℝ} (rays : List (Ray ℝ)) :
    keptBins (.defaults rate offset) rays = [] ↔ ∀ b, ¬ Qualifies (.defaults rate offset) rays b := by
  have hzero : (0 : Cplx ℝ).magnitude = 0 := (magnitude_eq_zero_iff 0).mpr rfl
  constructor
  · intro hempty b hb
    have hfull := (strongest_of_not_mem_keptBins hzero hb (by rw [hempty]; exact List.not_mem_nil)).1
    rw [hempty] at hfull
    exact absurd hfull (show ¬ 32 ≤ 0 by decide)
  · intro hnone
    rw [List.eq_nil_iff_forall_not_mem]
    intro b hb
    exact hnone b (qualifies_of_mem_keptBins hzero hb)

/-- The profile is one that the server takes. -/
def Acceptable (taps : List (Tap ℝ)) : Prop :=
  1 ≤ taps.length ∧ taps.length ≤ 32 ∧ (taps.map Tap.delaySamples).Pairwise (· < ·) ∧
    (∀ tap ∈ taps, (∃ m : ℕ, tap.delaySamples = m / 16) ∧ 0 ≤ tap.delaySamples ∧
      tap.delaySamples ≤ 1023 ∧ -100 ≤ tap.gainDb ∧ tap.gainDb ≤ 20) ∧
    (taps.map Tap.toJson ≠ [] ∧ (taps.map Tap.toJson).length ≤ kDeviceMaxTaps ∧
      laneTaps (taps.map Tap.toJson) = .ok (taps.map Tap.spec))

/-- Taps in number, order and range are acceptable. -/
theorem acceptable_of {taps : List (Tap ℝ)} (hone : 1 ≤ taps.length) (hmany : taps.length ≤ 32)
    (horder : (taps.map Tap.delaySamples).Pairwise (· < ·))
    (hrange : ∀ tap ∈ taps, tap.InRange ∧ ∃ m : ℕ, tap.delaySamples = m / 16) :
    Acceptable taps := by
  refine ⟨hone, hmany, horder, ?_, ?_, ?_, ?_⟩
  · intro tap htap
    obtain ⟨⟨hlo, hhi, hquiet, hloud⟩, hgrid⟩ := hrange tap htap
    exact ⟨hgrid, hlo, hhi.trans (by norm_num [kMaxProfileDelaySamples]), hquiet, hloud⟩
  · intro hnil
    rw [List.map_eq_nil_iff] at hnil
    rw [hnil] at hone
    exact absurd hone (by decide)
  · rw [List.length_map]
    exact hmany
  · exact laneTaps_toJson taps fun tap htap => (hrange tap htap).1

/-- The tap of an outage is acceptable. -/
theorem acceptable_outage : Acceptable [⟨0, -100, 0⟩] := by
  apply acceptable_of (by decide) (by decide) (List.pairwise_singleton _ _)
  intro tap htap
  obtain rfl := List.mem_singleton.mp htap
  refine ⟨⟨le_refl 0, ?_, le_refl _, ?_⟩, 0, ?_⟩
  · show (0 : ℝ) ≤ (kMaxProfileDelaySamples : ℝ)
    positivity
  · show (-100 : ℝ) ≤ 20
    norm_num
  · show (0 : ℝ) = (0 : ℕ) / 16
    norm_num

/-- The taps of the kept bins are acceptable. -/
theorem acceptable_keptBins {rate offset : ℝ} {rays : List (Ray ℝ)}
    (hsome : keptBins (.defaults rate offset) rays ≠ []) :
    Acceptable ((keptBins (.defaults rate offset) rays).map (tapAt (.defaults rate offset) rays)) := by
  have hzero : (0 : Cplx ℝ).magnitude = 0 := (magnitude_eq_zero_iff 0).mpr rfl
  apply acceptable_of
  · rw [List.length_map]
    exact List.length_pos_iff.mpr hsome
  · rw [List.length_map, length_keptBins]
    exact min_le_left _ _
  · rw [List.map_map, List.pairwise_map]
    apply (pairwise_keptCandidates nodup_candidates).imp
    intro b b' hlt
    show (b : ℝ) * (1 / 16) < b' * (1 / 16)
    have hcast : (b : ℝ) < b' := by exact_mod_cast hlt
    linarith
  · intro tap htap
    obtain ⟨b, hb, rfl⟩ := List.mem_map.mp htap
    exact tapAt_inRange (qualifies_of_mem_keptBins hzero hb)

/-- **Rays to taps.** For every list of rays and every positive rate the profile has one to 32
taps, at rising delays on the grid of sixteenths, which the server's checks of taps accept and
read back.  Without a bin that qualifies it is the outage tap.  Otherwise the taps are those of
bins that qualify, a bin that qualifies is left out only when the profile is full and no tap in
it is weaker, and with distinct magnitudes the order of the rays does not matter. -/
theorem raysToTaps_faithful (rate offset : ℝ) (hrate : 0 < rate) (rays : List (Ray ℝ)) :
    ∃ taps, raysToTaps (.defaults rate offset) rays = .ok taps ∧ Acceptable taps ∧
      ((∀ b, ¬ Qualifies (.defaults rate offset) rays b) → taps = [⟨0, -100, 0⟩]) ∧
      ((∃ b, Qualifies (.defaults rate offset) rays b) → ∃ kept : List ℤ,
        taps = kept.map (fun b => ⟨b * (1 / 16),
          min (20 * Libm.log10 (binSum (.defaults rate offset) rays b).magnitude + offset) 20,
          (binSum (.defaults rate offset) rays b).phase⟩) ∧
        (∀ b ∈ kept, binSum (.defaults rate offset) rays b ≠ 0 ∧
          -100 ≤ 20 * Libm.log10 (binSum (.defaults rate offset) rays b).magnitude + offset) ∧
        ∀ b, Qualifies (.defaults rate offset) rays b → b ∉ kept → kept.length = 32 ∧
          ∀ b' ∈ kept, (binSum (.defaults rate offset) rays b).magnitude
            ≤ (binSum (.defaults rate offset) rays b').magnitude) ∧
      ∀ rays', rays.Perm rays' →
        (∀ b b', Qualifies (.defaults rate offset) rays b →
          Qualifies (.defaults rate offset) rays b' →
          (binSum (.defaults rate offset) rays b).magnitude
            = (binSum (.defaults rate offset) rays b').magnitude → b = b') →
        raysToTaps (.defaults rate offset) rays' = .ok taps := by
  have hzero : (0 : Cplx ℝ).magnitude = 0 := (magnitude_eq_zero_iff 0).mpr rfl
  -- without ties the order of the rays does not matter
  have horder : ∀ rays', rays.Perm rays' →
      (∀ b b', Qualifies (.defaults rate offset) rays b →
        Qualifies (.defaults rate offset) rays b' →
        (binSum (.defaults rate offset) rays b).magnitude
          = (binSum (.defaults rate offset) rays b').magnitude → b = b') →
      raysToTaps (.defaults rate offset) rays' = raysToTaps (.defaults rate offset) rays := by
    intro rays' hperm hdistinct
    have hkept := keptCandidates_of_perm hzero hperm hdistinct
    rw [raysToTaps_defaults hrate, raysToTaps_defaults hrate, strongestTaps, strongestTaps, hkept]
  rw [raysToTaps_keptBins hrate rays] at horder ⊢
  -- an outage, or taps for the kept bins
  by_cases hempty : keptBins (.defaults rate offset) rays = []
  · rw [if_pos hempty] at horder ⊢
    refine ⟨_, rfl, acceptable_outage, fun _ => rfl, ?_, horder⟩
    rintro ⟨b, hb⟩
    exact absurd hb ((keptBins_eq_nil_iff rays).mp hempty b)
  · rw [if_neg hempty] at horder ⊢
    refine ⟨_, rfl, acceptable_keptBins hempty, ?_, ?_, horder⟩
    · intro hnone
      exact absurd ((keptBins_eq_nil_iff rays).mpr hnone) hempty
    · intro _
      refine ⟨keptBins (.defaults rate offset) rays, rfl, ?_, ?_⟩
      · intro b hb
        obtain ⟨hne, hgain⟩ := qualifies_of_mem_keptBins hzero hb
        exact ⟨fun h => hne ((magnitude_eq_zero_iff _).mpr h), hgain⟩
      · intro b hb hnot
        obtain ⟨hfull, hstrong⟩ := strongest_of_not_mem_keptBins hzero hb hnot
        refine ⟨le_antisymm ?_ hfull, hstrong⟩
        rw [length_keptBins]
        exact min_le_left _ _

/-- A direct ray, and two that arrive one sample later and fall into one bin. -/
def echoRays : List (Ray ℝ) :=
  [⟨some 0, some ⟨1, 0⟩⟩, ⟨some 1, some ⟨4, 0⟩⟩, ⟨some 1, some ⟨6, 0⟩⟩]

/-- A number that is not negative is its own magnitude. -/
theorem magnitude_ofReal {x : ℝ} (hx : 0 ≤ x) : (⟨x, 0⟩ : Cplx ℝ).magnitude = x := by
  show √(x * x + 0 * 0) = x
  rw [mul_zero, add_zero, Real.sqrt_mul_self hx]

/-- Its phase is zero. -/
theorem phase_ofReal {x : ℝ} (hx : 0 ≤ x) : (⟨x, 0⟩ : Cplx ℝ).phase = 0 :=
  Complex.arg_ofReal_of_nonneg hx

/-- A ray within the ring and not of zero falls into the bin of its delay. -/
theorem rayBin_whole (k : ℕ) {x : ℝ} (hx : 0 < x) (hk : k ≤ 1023) :
    rayBin (.defaults 1 0) ⟨some (k : ℝ), some ⟨x, 0⟩⟩ = some ((16 * k : ℤ), ⟨x, 0⟩) := by
  have hbin : roundHalfEven ((k : ℝ) * 1 / (1 / 16)) = 16 * k := by
    rw [show (k : ℝ) * 1 / (1 / 16) = ((16 * k : ℤ) : ℝ) by push_cast; ring,
      roundHalfEven_intCast]
  have hreal : (k : ℝ) ≤ 1023 := by exact_mod_cast hk
  have hinside : ¬ ((k : ℝ) * 1 < 0 ∨ (1023 : ℝ) < k * 1) := by
    rw [mul_one, not_or, not_lt, not_lt]
    exact ⟨Nat.cast_nonneg k, hreal⟩
  have hring : ¬ (1023 : ℝ) < ((16 * k : ℤ) : ℝ) * (1 / 16) := by
    push_cast
    linarith
  show (if (k : ℝ) * 1 < 0 ∨ (1023 : ℝ) < k * 1 then none
    else if (⟨x, 0⟩ : Cplx ℝ).magnitude = 0 then none
    else if (1023 : ℝ) < (roundHalfEven ((k : ℝ) * 1 / (1 / 16)) : ℝ) * (1 / 16) then none
    else some (roundHalfEven ((k : ℝ) * 1 / (1 / 16)), (⟨x, 0⟩ : Cplx ℝ))) = _
  rw [hbin, if_neg hinside, if_neg hring, magnitude_ofReal hx.le, if_neg hx.ne']

/-- The sums of the two bins; every other bin is empty. -/
theorem binSum_echoRays (b : ℤ) : binSum (.defaults 1 0) echoRays b =
    if b = 0 then ⟨1, 0⟩ else if b = 16 then ⟨10, 0⟩ else 0 := by
  have hrays : echoRays.filterMap (rayBin (.defaults 1 0)) =
      [(0, ⟨1, 0⟩), (16, ⟨4, 0⟩), (16, ⟨6, 0⟩)] := by
    have hfirst := rayBin_whole 0 (x := 1) one_pos (by decide)
    have hsecond := rayBin_whole 1 (x := 4) (by norm_num) (by decide)
    have hthird := rayBin_whole 1 (x := 6) (by norm_num) (by decide)
    rw [Nat.cast_zero] at hfirst
    rw [Nat.cast_one] at hsecond hthird
    simp [echoRays, hfirst, hsecond, hthird]
  unfold binSum
  rw [hrays]
  by_cases hzero : b = 0
  · subst hzero
    rw [if_pos rfl]
    show (⟨1, 0⟩ : Cplx ℝ) + 0 = ⟨1, 0⟩
    exact add_zero _
  · rw [if_neg hzero]
    by_cases hecho : b = 16
    · subst hecho
      rw [if_pos rfl]
      show (⟨4, 0⟩ : Cplx ℝ) + (⟨6, 0⟩ + 0) = ⟨10, 0⟩
      rw [add_zero]
      show (⟨4 + 6, 0 + 0⟩ : Cplx ℝ) = ⟨10, 0⟩
      norm_num
    · rw [if_neg hecho]
      apply Selection.sumAt_eq_zero
      simp [hzero, hecho]

/-- Both bins qualify, at 0 and 20 dB. -/
theorem rayGain_echoRays : rayGain (.defaults 1 0) (binSum (.defaults 1 0) echoRays 0) = 0 ∧
    rayGain (.defaults 1 0) (binSum (.defaults 1 0) echoRays 16) = 20 := by
  rw [binSum_echoRays, binSum_echoRays, if_pos rfl, if_neg (by decide), if_pos rfl]
  unfold rayGain
  rw [magnitude_ofReal zero_le_one, magnitude_ofReal (by norm_num)]
  show 20 * Real.logb 10 1 + 0 = 0 ∧ 20 * Real.logb 10 10 + 0 = 20
  rw [Real.logb_one, Real.logb_self_eq_one (by norm_num)]
  norm_num

/-- The taps of the two bins. -/
theorem tapAt_echoRays : tapAt (.defaults 1 0) echoRays 0 = ⟨0, 0, 0⟩ ∧
    tapAt (.defaults 1 0) echoRays 16 = ⟨1, 20, 0⟩ := by
  unfold tapAt
  rw [rayGain_echoRays.1, rayGain_echoRays.2, binSum_echoRays, binSum_echoRays, if_pos rfl,
    if_neg (by decide), if_pos rfl, phase_ofReal zero_le_one, phase_ofReal (by norm_num)]
  show (⟨((0 : ℤ) : ℝ) * (1 / 16), min 0 20, 0⟩ : Tap ℝ) = _ ∧
    (⟨((16 : ℤ) : ℝ) * (1 / 16), min 20 20, 0⟩ : Tap ℝ) = _
  norm_num

/-- A rising list of two bins at most that holds both is that list. -/
theorem eq_pair_of_rising {kept : List ℤ} (hrising : kept.Pairwise (· < ·))
    (hbins : ∀ b, b ∈ kept ↔ b = 0 ∨ b = 16) : kept = [0, 16] := by
  refine List.Perm.eq_of_pairwise (fun a b _ _ hab hba => absurd hab (not_lt_of_gt hba)) hrising
    (by decide) ?_
  apply (List.perm_ext_iff_of_nodup (hrising.imp fun h => h.ne) (by decide)).mpr
  intro b
  rw [hbins]
  simp

/-- Three rays give two taps: the echo carries the sum of its two rays. -/
theorem raysToTaps_faithful_echo :
    raysToTaps (.defaults 1 0) echoRays = .ok [⟨0, 0, 0⟩, ⟨1, 20, 0⟩] := by
  obtain ⟨taps, htaps, haccept, -, hkept, -⟩ := raysToTaps_faithful 1 0 one_pos echoRays
  have hqualifies : ∀ b : ℤ, b = 0 ∨ b = 16 → Qualifies (.defaults 1 0) echoRays b := by
    rintro b (rfl | rfl)
    · refine ⟨?_, rayGain_echoRays.1.symm ▸ (by show (-100 : ℝ) ≤ 0; norm_num)⟩
      rw [binSum_echoRays, if_pos rfl, magnitude_ofReal zero_le_one]
      exact one_ne_zero
    · refine ⟨?_, rayGain_echoRays.2.symm ▸ (by show (-100 : ℝ) ≤ 20; norm_num)⟩
      rw [binSum_echoRays, if_neg (by decide), if_pos rfl, magnitude_ofReal (by norm_num)]
      norm_num
  obtain ⟨kept, rfl, hsums, hleft⟩ := hkept ⟨0, hqualifies 0 (.inl rfl)⟩
  obtain ⟨-, -, hrising, -⟩ := haccept
  have hsorted : kept.Pairwise (· < ·) := by
    rw [List.map_map, List.pairwise_map] at hrising
    apply hrising.imp
    intro b b' hlt
    have hscaled : (b : ℝ) * (1 / 16) < b' * (1 / 16) := hlt
    have hcast : (b : ℝ) < b' := by linarith
    exact_mod_cast hcast
  -- a bin that carries nothing is not kept, and two bins do not fill the profile
  have honly : ∀ b ∈ kept, b = 0 ∨ b = 16 := by
    intro b hb
    by_contra hother
    rw [not_or] at hother
    apply (hsums b hb).1
    rw [binSum_echoRays, if_neg hother.1, if_neg hother.2]
  have hshort : kept.length ≤ 2 := by
    have hnodup : kept.Nodup := hsorted.imp fun h => h.ne
    calc kept.length ≤ [(0 : ℤ), 16].length :=
          (List.subperm_of_subset hnodup fun b hb => by simpa using honly b hb).length_le
      _ = 2 := rfl
  have hpair : kept = [0, 16] := by
    apply eq_pair_of_rising hsorted
    intro b
    refine ⟨honly b, fun hb => ?_⟩
    by_contra hnot
    have hfull := (hleft b (hqualifies b hb) hnot).1
    omega
  rw [htaps, hpair]
  show Except.ok [tapAt (.defaults 1 0) echoRays 0, tapAt (.defaults 1 0) echoRays 16] = _
  rw [tapAt_echoRays.1, tapAt_echoRays.2]
