/-
# Fading seeds along a coordinate

`lane_fading_seed` (config.cpp) chains three rounds of one mixer, one for each coordinate of
a lane's step.  A round is a bijection of the 64-bit words in the value carried so far and,
the multiplier being odd, in its coordinate, so the seed is injective in each of its four
arguments.
-/
import GpuChannel.CpuBackend
import GpuChannel.Library.Words

/-! ## The seed of the source's argument types -/

/-- `static_cast<std::uint64_t>` of an `int`: sign extension. -/
def intToWord (i : Int32) : UInt64 := i.toInt64.toUInt64

/-- `lane_fading_seed` with the `int` arguments of its signature. -/
def laneFadingSeedInt (linkSeed : UInt64) (rxPort txPort stepIndex : Int32) : UInt64 :=
  let v := seedMix (linkSeed ^^^ (0x9e3779b97f4a7c15 * (intToWord rxPort + 1)))
  let v := seedMix (v ^^^ (0xc2b2ae3d27d4eb4f * (intToWord txPort + 1)))
  seedMix (v ^^^ (0x165667b19e3779f9 * (intToWord stepIndex + 1)))

theorem intToWord_ofNat {n : ℕ} (hn : n < 2 ^ 31) : intToWord (Int32.ofNat n) = n.toUInt64 := by
  have hwide : (Int32.ofNat n).toInt64 = Int64.ofNat n := by
    apply Int64.toInt_inj.mp
    rw [Int32.toInt_toInt64, Int32.toInt_ofNat_of_lt hn, Int64.toInt_ofNat_of_lt (by omega)]
  unfold intToWord
  rw [hwide]
  rfl

/-- On the ports and step indices of a configuration the two forms of the seed agree. -/
theorem laneFadingSeedInt_ofNat (linkSeed : UInt64) {rxPort txPort stepIndex : ℕ}
    (hr : rxPort < 2 ^ 31) (ht : txPort < 2 ^ 31) (hs : stepIndex < 2 ^ 31) :
    laneFadingSeedInt linkSeed (Int32.ofNat rxPort) (Int32.ofNat txPort) (Int32.ofNat stepIndex)
      = laneFadingSeed linkSeed rxPort txPort stepIndex := by
  unfold laneFadingSeedInt laneFadingSeed
  rw [intToWord_ofNat hr, intToWord_ofNat ht, intToWord_ofNat hs]

/-! ## One round -/

theorem intToWord_injective : Function.Injective intToWord := by
  intro i j h
  apply Int32.toInt_inj.mp
  have hint := congrArg (fun w : UInt64 => w.toInt64.toInt) h
  simp only [intToWord, Int64.toInt64_toUInt64] at hint
  rwa [Int32.toInt_toInt64, Int32.toInt_toInt64] at hint

/-- The splitmix64 finaliser is injective: an addition, two folded shifts each followed by an
odd multiplication, and a last folded shift. -/
theorem seedMix_injective : Function.Injective seedMix := by
  have hadd := Words.add_left_injective 0x9e3779b97f4a7c15
  have hfold30 : Function.Injective fun x : UInt64 => x ^^^ (x >>> 30) :=
    Words.xorShift_injective (by decide)
  have hfold27 : Function.Injective fun x : UInt64 => x ^^^ (x >>> 27) :=
    Words.xorShift_injective (by decide)
  have hfold31 : Function.Injective fun x : UInt64 => x ^^^ (x >>> 31) :=
    Words.xorShift_injective (by decide)
  have hmul1 := Words.mul_left_injective
    (show (0xbf58476d1ce4e5b9 : UInt64) * 0x96de1b173f119089 = 1 by decide)
  have hmul2 := Words.mul_left_injective
    (show (0x94d049bb133111eb : UInt64) * 0x319642b2d24d8ec3 = 1 by decide)
  exact hfold31.comp (hmul2.comp (hfold27.comp (hmul1.comp (hfold30.comp hadd))))

/-- One round of `lane_fading_seed`: `c` is the multiplier of the coordinate `i`. -/
def seedRound (c v : UInt64) (i : Int32) : UInt64 := seedMix (v ^^^ (c * (intToWord i + 1)))

theorem laneFadingSeedInt_eq (linkSeed : UInt64) (rxPort txPort stepIndex : Int32) :
    laneFadingSeedInt linkSeed rxPort txPort stepIndex
      = seedRound 0x165667b19e3779f9 (seedRound 0xc2b2ae3d27d4eb4f
          (seedRound 0x9e3779b97f4a7c15 linkSeed rxPort) txPort) stepIndex := rfl

/-- A round forgets nothing of the value carried so far. -/
theorem seedRound_injective_carried (c : UInt64) (i : Int32) :
    Function.Injective fun v => seedRound c v i := by
  exact seedMix_injective.comp (Words.xor_left_injective _)

/-- A round whose multiplier has an inverse forgets nothing of its coordinate. -/
theorem seedRound_injective_coordinate {c d : UInt64} (hcd : c * d = 1) (v : UInt64) :
    Function.Injective fun i => seedRound c v i := by
  intro i j h
  have hxor : v ^^^ (c * (intToWord i + 1)) = v ^^^ (c * (intToWord j + 1)) :=
    seedMix_injective h
  have hmul : (intToWord i + 1) * c = (intToWord j + 1) * c := by
    rw [UInt64.xor_comm v, UInt64.xor_comm v] at hxor
    rw [UInt64.mul_comm _ c, UInt64.mul_comm _ c]
    exact Words.xor_left_injective v hxor
  apply intToWord_injective
  apply Words.add_left_injective 1
  exact Words.mul_left_injective hcd hmul

/-! ## The seed -/

/-- **The seed of a lane's step is injective in each of its coordinates.**  With the other
three arguments fixed, two link seeds, two receive ports, two transmit ports or two steps
never give one seed. -/
theorem laneFadingSeedInt_injective :
    (∀ rxPort txPort stepIndex,
      Function.Injective fun linkSeed => laneFadingSeedInt linkSeed rxPort txPort stepIndex) ∧
    (∀ linkSeed txPort stepIndex,
      Function.Injective fun rxPort => laneFadingSeedInt linkSeed rxPort txPort stepIndex) ∧
    (∀ linkSeed rxPort stepIndex,
      Function.Injective fun txPort => laneFadingSeedInt linkSeed rxPort txPort stepIndex) ∧
    (∀ linkSeed rxPort txPort,
      Function.Injective fun stepIndex => laneFadingSeedInt linkSeed rxPort txPort stepIndex) := by
  have hrx (v : UInt64) : Function.Injective (seedRound 0x9e3779b97f4a7c15 v) :=
    seedRound_injective_coordinate
      (show (0x9e3779b97f4a7c15 : UInt64) * 0xf1de83e19937733d = 1 by decide) v
  have htx (v : UInt64) : Function.Injective (seedRound 0xc2b2ae3d27d4eb4f v) :=
    seedRound_injective_coordinate
      (show (0xc2b2ae3d27d4eb4f : UInt64) * 0xba79078168d4baf = 1 by decide) v
  have hstep (v : UInt64) : Function.Injective (seedRound 0x165667b19e3779f9 v) :=
    seedRound_injective_coordinate
      (show (0x165667b19e3779f9 : UInt64) * 0xe9e9f4c41d6df849 = 1 by decide) v
  simp only [laneFadingSeedInt_eq]
  refine ⟨?_, ?_, ?_, ?_⟩
  case refine_1 =>
    intro r t s
    exact (seedRound_injective_carried _ s).comp
      ((seedRound_injective_carried _ t).comp (seedRound_injective_carried _ r))
  case refine_2 =>
    intro link t s
    exact (seedRound_injective_carried _ s).comp
      ((seedRound_injective_carried _ t).comp (hrx link))
  case refine_3 =>
    intro link r s
    exact (seedRound_injective_carried _ s).comp (htx _)
  case refine_4 =>
    intro link r t
    exact hstep _
