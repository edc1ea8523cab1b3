/-
# The fading grid on the GPU

device_channel.cu: the generator writes the coarse grid of every tap to global memory, the mixing
kernel combines the lanes of a correlated link, and the channel kernel interpolates between two
points of it.  The three derive the shape of the grid alike, from a stride in 32-bit floats and in
32-bit integers, with at most `kDeviceMaxGridPoints` points; the host takes its stride from
`double`s and does not bound the points.

Where the two strides are the same, the two sides agree on every sample that lies within the
device's points; beyond them the device holds its last point.
-/
import GpuChannel.CudaSteps
import GpuChannel.Validation
import GpuChannel.RationalScalars
import GpuChannel.Library.Tables

/-! ## The shape -/

/-- `kDeviceMaxGridPoints`. -/
def kDeviceMaxGridPoints : ℕ := 32

/-- A sum of `int`s; a value out of range wraps around. -/
def i32 (x : ℤ) : ℤ := Int.bmod x (2 ^ 32)

/-- The device's conversion of a rounded `float` to `int`, which saturates. -/
def saturate32 (x : ℤ) : ℤ := max (-2 ^ 31) (min (2 ^ 31 - 1) x)

/-- **What the fading kernels read of `DeviceLinkState`.** -/
structure DeviceFadingState (K : Type) where
  hasTdl : Bool
  nTaps : ℕ
  fadingEnabled : Bool
  fDMaxHz : K
  gridUs : K
  tapAlpha : List (Fin kTdlFadingSinusoids → K)
  tapPhi : List (Fin kTdlFadingSinusoids → K)
  slotStartSamples : ℕ

/-- A cell of the global grid: edge, tap and point. -/
abbrev GridMemory (K : Type) := ℕ → ℕ → ℕ → Option (Cplx K)

/-- `DeviceCorrelationGroup`: the edges of a correlated link in lane order, and its factor. -/
structure DeviceCorrelationGroup (K : Type) where
  edgeIndex : List ℕ
  mixing : List (Cplx K)

/-- The two grid points that a sample is interpolated between, and its place between them. -/
structure GridRead (K : Type) where
  floor : ℤ
  ceil : ℤ
  frac : K
  deriving DecidableEq

section Kernels

variable {K : Type} [Field K] [LinearOrder K] [FloorRing K] [Libm K]

/-- The fading part of `build_device_link_state`, at a slot. -/
def buildDeviceFading (step : ModelStep K) (fading : TdlFadingState K) (slotStartSamples : ℕ) :
    DeviceFadingState K :=
  { hasTdl := step.type = .tdl, nTaps := step.taps.length, fadingEnabled := step.fadingEnabled
    fDMaxHz := step.fadingFDMaxHz, gridUs := step.fadingGridUs
    tapAlpha := fading.tapAlpha, tapPhi := fading.tapPhi, slotStartSamples := slotStartSamples }

/-- The stride of the kernels, computed in `float`s; `grid_us` is kept as one. -/
def deviceStride (gridUs : K) (sampleRateHz : ℕ) : ℤ :=
  let rounded := saturate32 (roundInt (Libm.float32
    (Libm.float32 (Libm.float32 gridUs * Libm.float32 (1 / 10 ^ 6)) *
      Libm.float32 (sampleRateHz : K))))
  if rounded < 1 then 1 else rounded

/-- **`fading_grid_shape`**: stride and points. -/
def fadingGridShape (s : DeviceFadingState K) (count sampleRateHz : ℕ) : ℤ × ℤ :=
  let stride := deviceStride s.gridUs sampleRateHz
  let points := i32 ((i32 (count + stride - 1)).tdiv stride + 1)
  (stride, if kDeviceMaxGridPoints < points then kDeviceMaxGridPoints else points)

/-- One point as the generator accumulates it. -/
def devicePoint (s : DeviceFadingState K) (stride : ℤ) (sampleRateHz tap point : ℕ) : Cplx K :=
  let alpha := s.tapAlpha.getD tap fun _ => 0
  let phi := s.tapPhi.getD tap fun _ => 0
  let sum := (List.finRange kTdlFadingSinusoids).foldl (fun acc m =>
    let omega := rayOmega s.fDMaxHz (alpha m)
    acc + advance (phasor (omega * (stride / sampleRateHz)))
      (phasor (fmod (omega * (s.slotStartSamples / sampleRateHz) + phi m) (2 * Libm.pi))) point) 0
  sum.smul (1 / Libm.sqrt (kTdlFadingSinusoids : K))

/-- The generator and the readers touch this cell: one thread per tap, the points of the shape. -/
def touches (s : DeviceFadingState K) (count sampleRateHz tap point : ℕ) : Prop :=
  s.hasTdl = true ∧ s.fadingEnabled = true ∧ tap < s.nTaps ∧ tap < kDeviceMaxTaps ∧
    (point : ℤ) < (fadingGridShape s count sampleRateHz).2

instance (s : DeviceFadingState K) (count sampleRateHz tap point : ℕ) :
    Decidable (touches s count sampleRateHz tap point) := inferInstanceAs (Decidable (_ ∧ _))

/-- **`generate_fading_grid_kernel`.** What it does not write is left as it was, here nothing. -/
def generateFadingGridKernel (states : List (DeviceFadingState K)) (count sampleRateHz : ℕ) :
    GridMemory K := fun edge tap point =>
  (states[edge]?).bind fun s =>
    if touches s count sampleRateHz tap point then
      some (devicePoint s (fadingGridShape s count sampleRateHz).1 sampleRateHz tap point)
    else none

/-- One block of the mixing kernel.  The shape is that of the group's first edge. -/
def mixGroup (states : List (DeviceFadingState K)) (count sampleRateHz : ℕ)
    (mem : GridMemory K) (group : DeviceCorrelationGroup K) : GridMemory K :=
  match (group.edgeIndex.head?).bind fun edge => states[edge]? with
  | none => mem
  | some first => fun edge tap point =>
      if edge ∈ group.edgeIndex ∧ touches first count sampleRateHz tap point then
        let n := group.edgeIndex.length
        (group.edgeIndex.mapM fun e => mem e tap point).map fun w =>
          (List.range n).foldl (fun acc c =>
            acc + group.mixing.getD (group.edgeIndex.idxOf edge * n + c) 0 * w.getD c 0) 0
      else mem edge tap point

/-- **`mix_fading_grid_kernel`.** -/
def mixFadingGridKernel (states : List (DeviceFadingState K))
    (groups : List (DeviceCorrelationGroup K)) (count sampleRateHz : ℕ) (mem : GridMemory K) :
    GridMemory K :=
  groups.foldl (mixGroup states count sampleRateHz) mem

/-- The interpolation index of `apply_channel_kernel`. -/
def deviceRead (shape : ℤ × ℤ) (idx : ℕ) : GridRead K :=
  let floor := (idx : ℤ).tdiv shape.1
  let ceil := if shape.2 ≤ floor + 1 then shape.2 - 1 else floor + 1
  let floor := if shape.2 ≤ floor then shape.2 - 1 else floor
  { floor := floor, ceil := ceil, frac := ((idx - floor * shape.1 : ℤ) : K) / shape.1 }

/-- The interpolation index of `apply_tdl_step_fading`. -/
def hostRead (grid : FadingGrid K) (n : ℕ) : GridRead K :=
  { floor := (n / grid.stride : ℕ)
    ceil := (min (n / grid.stride + 1) (grid.points - 1) : ℕ)
    frac := ((n - n / grid.stride * grid.stride : ℕ) : K) / grid.stride }

/-! ## The shape of the device -/

theorem i32_of_fits {x : ℤ} (hlo : -2 ^ 31 ≤ x) (hhi : x < 2 ^ 31) : i32 x = x := by
  unfold i32
  rw [Int.bmod_eq_of_le] <;> omega

/-- The device walks at least one sample from point to point. -/
theorem deviceStride_pos (gridUs : K) (sampleRateHz : ℕ) : 0 < deviceStride gridUs sampleRateHz := by
  unfold deviceStride
  dsimp only
  split_ifs <;> omega

/-- While the counts fit an `int`, the shape is the one that the stride asks for, up to the bound
on the points. -/
theorem fadingGridShape_eq (s : DeviceFadingState K) {count sampleRateHz stride : ℕ}
    (hcount : 0 < count) (hstride : deviceStride s.gridUs sampleRateHz = stride)
    (hfits : stride + count < 2 ^ 31) :
    fadingGridShape s count sampleRateHz
      = ((stride : ℤ),
        min (kDeviceMaxGridPoints : ℤ) (((count + stride - 1) / stride + 1 : ℕ))) := by
  have hpos : 0 < stride := by
    have := deviceStride_pos s.gridUs sampleRateHz
    omega
  unfold fadingGridShape
  dsimp only
  rw [hstride]
  have hsum : ((count : ℤ) + stride - 1) = ((count + stride - 1 : ℕ) : ℤ) := by omega
  have hquotient : (count + stride - 1) / stride ≤ count := by
    apply Nat.div_le_of_le_mul
    have hmul : stride + (count - 1) ≤ stride * count := by
      obtain ⟨c, rfl⟩ := Nat.exists_eq_succ_of_ne_zero hcount.ne'
      rw [Nat.succ_sub_one, Nat.mul_succ, Nat.add_comm]
      exact Nat.add_le_add_right (Nat.le_mul_of_pos_left c hpos) stride
    omega
  have hdiv : ((count + stride - 1 : ℕ) : ℤ).tdiv stride
      = (((count + stride - 1) / stride : ℕ) : ℤ) := rfl
  have hinner : i32 ((count + stride - 1 : ℕ) : ℤ) = ((count + stride - 1 : ℕ) : ℤ) :=
    i32_of_fits (by omega) (by omega)
  rw [hsum, hinner, hdiv]
  generalize (count + stride - 1) / stride = quotient at hquotient ⊢
  have houter : i32 ((quotient : ℤ) + 1) = (quotient + 1 : ℕ) :=
    i32_of_fits (by omega) (by omega)
  rw [houter]
  refine Prod.ext rfl ?_
  show (if (kDeviceMaxGridPoints : ℤ) < ((quotient + 1 : ℕ) : ℤ) then (kDeviceMaxGridPoints : ℤ)
    else ((quotient + 1 : ℕ) : ℤ)) = min (kDeviceMaxGridPoints : ℤ) ((quotient + 1 : ℕ) : ℤ)
  rcases lt_or_ge (kDeviceMaxGridPoints : ℤ) ((quotient + 1 : ℕ) : ℤ) with hlt | hge
  · rw [if_pos hlt, min_eq_left hlt.le]
  · rw [if_neg (not_lt.mpr hge), min_eq_right hge]

end Kernels

/-! ## The points that a sample reads -/

section Reads

variable {K : Type} [Field K]

/-- Behind a sample of the slot there is one more point. -/
theorem next_lt_points {stride points count n : ℕ} (hstride : 0 < stride)
    (hpoints : points = (count + stride - 1) / stride + 1) (hn : n < count) :
    n / stride + 1 < points := by
  have hle : n / stride + 1 ≤ (count + stride - 1) / stride := by
    rw [← Nat.add_div_right n hstride]
    exact Nat.div_le_div_right (by omega)
  omega

/-- A sample within the device's points lies between two of them. -/
theorem deviceRead_within {stride points count n : ℕ} (hstride : 0 < stride)
    (hpoints : points = (count + stride - 1) / stride + 1) (hn : n < count)
    (hwithin : n < 31 * stride) :
    (deviceRead ((stride : ℤ), min (kDeviceMaxGridPoints : ℤ) points) n : GridRead K)
      = { floor := (n / stride : ℕ), ceil := (n / stride + 1 : ℕ)
          frac := ((n - n / stride * stride : ℕ) : K) / stride } := by
  have hdiv : (n : ℤ).tdiv stride = ((n / stride : ℕ) : ℤ) := rfl
  have hnext : n / stride + 1 < points := next_lt_points hstride hpoints hn
  have hmul := Nat.div_mul_le_self n stride
  have hfloor : n / stride < 31 := (Nat.div_lt_iff_lt_mul hstride).mpr hwithin
  have hfrac : ((n : ℤ) - (n / stride : ℕ) * stride) = ((n - n / stride * stride : ℕ) : ℤ) := by
    rw [Nat.cast_sub hmul]
    push_cast
    ring
  unfold deviceRead
  simp only [hdiv, kDeviceMaxGridPoints]
  rw [if_neg (by omega), if_neg (by omega), hfrac, Int.cast_natCast, Int.cast_natCast]
  rfl

/-- A later one is held at the last point. -/
theorem deviceRead_beyond {stride points count n : ℕ} (hstride : 0 < stride)
    (hpoints : points = (count + stride - 1) / stride + 1) (hn : n < count)
    (hbeyond : 31 * stride ≤ n) :
    (deviceRead ((stride : ℤ), min (kDeviceMaxGridPoints : ℤ) points) n : GridRead K).floor = 31
      ∧ (deviceRead ((stride : ℤ), min (kDeviceMaxGridPoints : ℤ) points) n : GridRead K).ceil
        = 31 := by
  have hdiv : (n : ℤ).tdiv stride = ((n / stride : ℕ) : ℤ) := rfl
  have hnext : n / stride + 1 < points := next_lt_points hstride hpoints hn
  have hfloor : 31 ≤ n / stride := (Nat.le_div_iff_mul_le hstride).mpr hbeyond
  unfold deviceRead
  simp only [hdiv, kDeviceMaxGridPoints]
  constructor
  · split_ifs <;> omega
  · rw [if_pos (by omega)]
    omega

/-- The place between two points is a fraction. -/
theorem frac_bounds [LinearOrder K] [IsStrictOrderedRing K] {stride : ℕ} (hstride : 0 < stride) (n : ℕ) :
    0 ≤ ((n - n / stride * stride : ℕ) : K) / stride
      ∧ ((n - n / stride * stride : ℕ) : K) / stride < 1 := by
  have hpos : (0 : K) < stride := by exact_mod_cast hstride
  have hrest : n - n / stride * stride < stride := by
    rw [← Nat.mod_eq_sub_div_mul]
    exact Nat.mod_lt n hstride
  constructor
  · positivity
  · rw [div_lt_one hpos]
    exact_mod_cast hrest

end Reads

section Grids

variable {K : Type} [Field K] [LinearOrder K] [FloorRing K] [Libm K]

/-- The host interpolates between the points of `hostRead`. -/
theorem fadingGain_eq_hostRead (fading : TdlFadingState K) (grid : FadingGrid K)
    (losCoefficient : Cplx K) (sampleRateHz slotStartSamples k n : ℕ) {tap : TapSpec K}
    (hlos : tap.isLos = false) :
    fadingGain fading grid losCoefficient sampleRateHz slotStartSamples k n tap
      = (grid.values.getD (k * grid.points + (hostRead grid n : GridRead K).floor.toNat) 0).smul
          (1 - (hostRead grid n : GridRead K).frac)
        + (grid.values.getD (k * grid.points + (hostRead grid n : GridRead K).ceil.toNat) 0).smul
          (hostRead grid n : GridRead K).frac := by
  unfold fadingGain
  dsimp only
  rw [hlos]
  rfl

/-! ## The points that were written -/

/-- Edges of one link: the same chain step. -/
structure SameStep (s t : DeviceFadingState K) : Prop where
  hasTdl : s.hasTdl = t.hasTdl
  nTaps : s.nTaps = t.nTaps
  fadingEnabled : s.fadingEnabled = t.fadingEnabled
  gridUs : s.gridUs = t.gridUs

theorem SameStep.touches {s t : DeviceFadingState K} (h : SameStep s t) {count sampleRateHz : ℕ}
    {tap point : ℕ} (ht : touches s count sampleRateHz tap point) :
    touches t count sampleRateHz tap point := by
  obtain ⟨htdl, hfading, htap, hmax, hpoint⟩ := ht
  have hshape : fadingGridShape t count sampleRateHz = fadingGridShape s count sampleRateHz := by
    unfold fadingGridShape
    rw [h.gridUs]
  exact ⟨h.hasTdl ▸ htdl, h.fadingEnabled ▸ hfading, h.nTaps ▸ htap, hmax, hshape.symm ▸ hpoint⟩

/-- Every cell that a reader touches is written. -/
def Written (states : List (DeviceFadingState K)) (count sampleRateHz : ℕ) (mem : GridMemory K) :
    Prop :=
  ∀ edge s tap point, states[edge]? = some s → touches s count sampleRateHz tap point →
    (mem edge tap point).isSome = true

/-- The lanes of a group are edges with the same step. -/
def LanesAlike (states : List (DeviceFadingState K)) (group : DeviceCorrelationGroup K) : Prop :=
  ∀ e ∈ group.edgeIndex, ∀ e' ∈ group.edgeIndex,
    ∃ s s', states[e]? = some s ∧ states[e']? = some s' ∧ SameStep s s'

theorem generateFadingGridKernel_written (states : List (DeviceFadingState K))
    (count sampleRateHz : ℕ) :
    Written states count sampleRateHz (generateFadingGridKernel states count sampleRateHz) := by
  intro edge s tap point hs ht
  unfold generateFadingGridKernel
  rw [hs, Option.bind_some, if_pos ht]
  rfl

theorem mapM_isSome {α β : Type} {f : α → Option β} {l : List α}
    (h : ∀ a ∈ l, (f a).isSome = true) : (l.mapM f).isSome = true := by
  induction l with
  | nil => rfl
  | cons a l ih =>
      obtain ⟨b, hb⟩ := Option.isSome_iff_exists.mp (h a List.mem_cons_self)
      obtain ⟨bs, hbs⟩ := Option.isSome_iff_exists.mp
        (ih fun x hx => h x (List.mem_cons_of_mem a hx))
      rw [List.mapM_cons, hb, hbs]
      rfl

theorem mixGroup_written {states : List (DeviceFadingState K)} {count sampleRateHz : ℕ}
    {mem : GridMemory K} (h : Written states count sampleRateHz mem)
    {group : DeviceCorrelationGroup K} (halike : LanesAlike states group) :
    Written states count sampleRateHz (mixGroup states count sampleRateHz mem group) := by
  intro edge s tap point hs ht
  unfold mixGroup
  cases hfirst : group.edgeIndex.head?.bind fun edge => states[edge]? with
  | none => exact h edge s tap point hs ht
  | some first =>
    dsimp only
    split_ifs with hmixed
    · obtain ⟨e₀, he₀, hstate⟩ := Option.bind_eq_some_iff.mp hfirst
      rw [Option.isSome_map]
      apply mapM_isSome
      intro e he
      obtain ⟨s₀, s', hs₀, hs', hsame⟩ := halike e₀ (List.mem_of_mem_head? he₀) e he
      obtain rfl := Option.some.inj (hs₀.symm.trans hstate)
      exact h e s' tap point hs' (hsame.touches hmixed.2)
    · exact h edge s tap point hs ht

theorem mixFadingGridKernel_written {states : List (DeviceFadingState K)} {count sampleRateHz : ℕ}
    {mem : GridMemory K} (h : Written states count sampleRateHz mem)
    {groups : List (DeviceCorrelationGroup K)} (halike : ∀ g ∈ groups, LanesAlike states g) :
    Written states count sampleRateHz
      (mixFadingGridKernel states groups count sampleRateHz mem) := by
  unfold mixFadingGridKernel
  induction groups generalizing mem with
  | nil => exact h
  | cons g groups ih =>
      exact ih (mixGroup_written h (halike g List.mem_cons_self))
        fun g' hg' => halike g' (List.mem_cons_of_mem g hg')

/-- An edge in no group keeps what the generator wrote. -/
theorem mixFadingGridKernel_of_not_mem {states : List (DeviceFadingState K)}
    {groups : List (DeviceCorrelationGroup K)} {edge : ℕ}
    (hedge : ∀ g ∈ groups, edge ∉ g.edgeIndex) (count sampleRateHz tap point : ℕ)
    (mem : GridMemory K) :
    mixFadingGridKernel states groups count sampleRateHz mem edge tap point
      = mem edge tap point := by
  unfold mixFadingGridKernel
  induction groups generalizing mem with
  | nil => rfl
  | cons g groups ih =>
      rw [List.foldl_cons, ih fun g' hg' => hedge g' (List.mem_cons_of_mem g hg')]
      unfold mixGroup
      cases g.edgeIndex.head?.bind fun edge => states[edge]? with
      | none => rfl
      | some first =>
          dsimp only
          rw [if_neg fun h => hedge g List.mem_cons_self h.1]

/-! ## The two grids -/

/-- The grid of a prepared fading step. -/
theorem generateFadingGrid_eq_ok {fading : TdlFadingState K}
    {nTaps count sampleRateHz slotStartSamples : ℕ} {out grid : FadingGrid K}
    (henabled : fading.enabled = true)
    (h : generateFadingGrid fading nTaps count sampleRateHz slotStartSamples out = .ok grid) :
    grid.stride = hostStride fading.gridUs sampleRateHz
      ∧ grid.points = (count + grid.stride - 1) / grid.stride + 1
      ∧ ∀ k < nTaps, ∀ g < grid.points, grid.values.getD (k * grid.points + g) 0
        = jakesPoint fading (slotStartSamples / sampleRateHz) (grid.stride / sampleRateHz) k g := by
  unfold generateFadingGrid at h
  rw [henabled] at h
  simp only [Bool.not_true, Bool.false_eq_true, if_false] at h
  split_ifs at h with hspectrum
  obtain rfl := Except.ok.inj h
  refine ⟨rfl, rfl, ?_⟩
  intro k hk g hg
  exact Tables.getD_flatMap_range _ 0 hk hg

/-- The generator accumulates the host's process. -/
theorem devicePoint_eq_jakesPoint (step : ModelStep K) (seed : UInt64) [Rng K]
    (slotStartSamples stride sampleRateHz tap point : ℕ) :
    devicePoint (buildDeviceFading step (prepareTdlFadingState step seed) slotStartSamples)
        stride sampleRateHz tap point
      = jakesPoint (prepareTdlFadingState step seed) (slotStartSamples / sampleRateHz)
        (stride / sampleRateHz) tap point := by
  unfold devicePoint jakesPoint
  rw [Int.cast_natCast]
  rfl

/-- **What a sample reads was written.** Whatever the stride of the device, both points of a sample
are within the shape of the kernels. -/
theorem deviceRead_touched (step : ModelStep K) (fading : TdlFadingState K)
    (slotStartSamples : ℕ)
    (htype : step.type = .tdl) (henabled : step.fadingEnabled = true)
    (htaps : step.taps.length ≤ kDeviceMaxTaps) {count sampleRateHz stride : ℕ}
    (hstride : deviceStride step.fadingGridUs sampleRateHz = stride)
    (hfits : stride + count < 2 ^ 31) {n : ℕ} (hn : n < count) {tap : ℕ}
    (htap : tap < step.taps.length) :
    let s := buildDeviceFading step fading slotStartSamples
    let device : GridRead K := deviceRead (fadingGridShape s count sampleRateHz) n
    touches s count sampleRateHz tap device.floor.toNat
      ∧ touches s count sampleRateHz tap device.ceil.toNat
      ∧ device.floor.toNat < (count + stride - 1) / stride + 1
      ∧ device.ceil.toNat < (count + stride - 1) / stride + 1 := by
  intro s device
  have hpos : 0 < stride := by
    have := deviceStride_pos step.fadingGridUs sampleRateHz
    omega
  have hshape := fadingGridShape_eq s (Nat.zero_lt_of_lt hn) hstride hfits
  have hnext := next_lt_points hpos rfl hn
  -- the kernel writes every point of the table
  have htouched : ∀ point < min kDeviceMaxGridPoints ((count + stride - 1) / stride + 1),
      touches s count sampleRateHz tap point := by
    intro point hpoint
    refine ⟨decide_eq_true htype, henabled, htap, Nat.lt_of_lt_of_le htap htaps, ?_⟩
    rw [hshape]
    show (point : ℤ) < min (kDeviceMaxGridPoints : ℤ) (((count + stride - 1) / stride + 1 : ℕ))
    exact_mod_cast hpoint
  -- and the reader looks at written points only, within the table and beyond it
  have hread : device.floor.toNat < min kDeviceMaxGridPoints ((count + stride - 1) / stride + 1)
      ∧ device.ceil.toNat < min kDeviceMaxGridPoints ((count + stride - 1) / stride + 1) := by
    show (deviceRead (fadingGridShape s count sampleRateHz) n : GridRead K).floor.toNat < _
      ∧ (deviceRead (fadingGridShape s count sampleRateHz) n : GridRead K).ceil.toNat < _
    rw [hshape]
    rcases Nat.lt_or_ge n (31 * stride) with hlt | hge
    · have hfloor : n / stride < 31 := (Nat.div_lt_iff_lt_mul hpos).mpr hlt
      rw [deviceRead_within hpos rfl hn hlt]
      unfold kDeviceMaxGridPoints
      dsimp only
      rw [Int.toNat_natCast, Int.toNat_natCast]
      omega
    · have hfloor : 31 ≤ n / stride := (Nat.le_div_iff_mul_le hpos).mpr hge
      obtain ⟨hdfloor, hdceil⟩ := deviceRead_beyond (K := K) hpos rfl hn hge
      rw [hdfloor, hdceil]
      unfold kDeviceMaxGridPoints
      omega
  exact ⟨htouched _ hread.1, htouched _ hread.2, (lt_min_iff.mp hread.1).2,
    (lt_min_iff.mp hread.2).2⟩

end Grids

/-- One Rayleigh tap with a grid point every `gridUs` microseconds. -/
def rayleighStep (gridUs : ℚ) : ModelStep ℚ :=
  { type := .tdl, taps := [default], tapsDeclared := true, fadingEnabled := true
    fadingFDMaxHz := 10, fadingGridUs := gridUs }

/-- The edge of that step at the start of the run. -/
def rayleighEdge (gridUs : ℚ) : DeviceFadingState ℚ :=
  buildDeviceFading (rayleighStep gridUs) (prepareTdlFadingState (rayleighStep gridUs) 0) 0

/-- The host's grid of that step. -/
def rayleighGrid (gridUs : ℚ) (count sampleRateHz : ℕ) : Except String (FadingGrid ℚ) :=
  generateFadingGrid (prepareTdlFadingState (rayleighStep gridUs) 0) 1 count sampleRateHz 0
    (FadingGrid.empty ℚ)

/-- The device reads another point than the host, or with another fraction, on an accepted step. -/
def GridsDiffer (gridUs : ℚ) (count sampleRateHz n : ℕ) : Prop :=
  stepErrors "rayleigh" (rayleighStep gridUs) = [] ∧
    (rayleighGrid gridUs count sampleRateHz).toOption.any (fun grid =>
      deviceRead (fadingGridShape (rayleighEdge gridUs) count sampleRateHz) n
        ≠ (hostRead grid n : GridRead ℚ)) = true

instance (gridUs : ℚ) (count sampleRateHz n : ℕ) :
    Decidable (GridsDiffer gridUs count sampleRateHz n) :=
  inferInstanceAs (Decidable (_ ∧ _))
