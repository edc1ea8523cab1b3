/-
# The real-time pacer

`RealTimePacer` keeps two clocks in 64-bit nanoseconds.  The nominal one advances by the
duration of the samples that are charged and never rebases.  The limiter advances by the same
duration at the recovery rate and drops the credit that an idle period leaves beyond one burst.
A window is published at the later of the two.
-/
import GpuChannel.Library.CarriedDivision
import GpuChannel.Library.Run

/-! ## The two clocks -/

/-- An unsigned 64-bit result. -/
def u64 (x : ℕ) : ℕ := x % 2 ^ 64

/-- A signed 64-bit result; a value out of range wraps around. -/
def i64 (x : ℤ) : ℤ := Int.bmod x (2 ^ 64)

/-- The values of a signed 64-bit integer. -/
def FitsI64 (x : ℤ) : Prop := -2 ^ 63 ≤ x ∧ x < 2 ^ 63

instance (x : ℤ) : Decidable (FitsI64 x) := inferInstanceAs (Decidable (_ ∧ _))

/-- Time points and durations are counts of nanoseconds. -/
structure RealTimePacer where
  rateHz : ℕ
  burstBudget : ℤ
  recoveryDenominator : ℕ
  nominalRemainder : ℕ := 0
  recoveryRemainder : ℕ := 0
  nominalDeadline : ℤ := 0
  limiterDeadline : ℤ := 0
  chargedRecoveryDuration : ℤ := 0
  lag : ℤ := 0
  maxLag : ℤ := 0
  anchored : Bool := false
  publicationPending : Bool := false
  deriving DecidableEq

namespace RealTimePacer

/-- The constructor: the budget is expressed in limiter time.  A negative one would be read as
unsigned, as the division by an unsigned denominator does. -/
def make (sampleRateHz : ℕ) (burstBudget : ℤ) (recoveryPpm : UInt32) : RealTimePacer :=
  let denominator := 1000000 + recoveryPpm.toNat
  let ns := (burstBudget % 2 ^ 64).toNat
  { rateHz := if sampleRateHz = 0 then 1 else sampleRateHz
    burstBudget :=
      i64 (u64 (ns / denominator * 1000000 + ns % denominator * 1000000 / denominator))
    recoveryDenominator := denominator }

/-- The first call anchors both clocks. -/
def anchorAt (p : RealTimePacer) (now : ℤ) : RealTimePacer :=
  if p.anchored then p
  else { p with nominalDeadline := now, limiterDeadline := now, anchored := true }

def fraction (p : RealTimePacer) (count : ℕ) : ℕ :=
  u64 (count % p.rateHz * 1000000000 + p.nominalRemainder)

def nominalNs (p : RealTimePacer) (count : ℕ) : ℕ :=
  u64 (count / p.rateHz * 1000000000 + p.fraction count / p.rateHz)

def recoveryFraction (p : RealTimePacer) (nominal : ℕ) : ℕ :=
  u64 (nominal % p.recoveryDenominator * 1000000 + p.recoveryRemainder)

def recoveryNs (p : RealTimePacer) (nominal : ℕ) : ℕ :=
  u64 (nominal / p.recoveryDenominator * 1000000
    + p.recoveryFraction nominal / p.recoveryDenominator)

/-- The instant to wait for, and the pacer with the samples charged. -/
def charge (p : RealTimePacer) (now : ℤ) (count : ℕ) : ℤ × RealTimePacer :=
  let p := p.anchorAt now
  let limiter := max p.limiterDeadline (i64 (now - p.burstBudget))
  let nominal := p.nominalNs count
  let recovery := p.recoveryNs nominal
  (max p.nominalDeadline limiter,
    { p with
      nominalRemainder := p.fraction count % p.rateHz
      nominalDeadline := i64 (p.nominalDeadline + i64 nominal)
      recoveryRemainder := p.recoveryFraction nominal % p.recoveryDenominator
      chargedRecoveryDuration := i64 recovery
      limiterDeadline := i64 (limiter + i64 recovery)
      publicationPending := true })

def published (p : RealTimePacer) (now : ℤ) : RealTimePacer :=
  let lag := max 0 (i64 (now - p.nominalDeadline))
  { p with
    limiterDeadline :=
      max p.limiterDeadline (i64 (i64 (now - p.burstBudget) + p.chargedRecoveryDuration))
    lag := lag
    maxLag := max p.maxLag lag
    publicationPending := false }

/-- Wall time that `count` samples occupy at the paced rate. -/
def durationFor (p : RealTimePacer) (count : ℕ) : ℤ :=
  i64 (u64 (count / p.rateHz * 1000000000 + u64 (count % p.rateHz * 1000000000) / p.rateHz))

end RealTimePacer

/-- The signed 64-bit value of an integer in range is itself. -/
theorem i64_of_fits {x : ℤ} (hx : FitsI64 x) : i64 x = x := by
  unfold FitsI64 at hx
  unfold i64
  rw [Int.bmod_eq_of_le] <;> omega

/-- The unsigned 64-bit value of a number in range is itself. -/
theorem u64_of_lt {x : ℕ} (hx : x < 2 ^ 64) : u64 x = x :=
  Nat.mod_eq_of_lt hx

/-- An unsigned 64-bit value is below `2 ^ 64`. -/
theorem u64_lt (x : ℕ) : u64 x < 2 ^ 64 :=
  Nat.mod_lt x (by norm_num)

/-- Two signed results in a row wrap once. -/
theorem i64_add_i64 (x y : ℤ) : i64 (x + i64 y) = i64 (x + y) := by
  unfold i64
  exact Int.add_bmod_bmod

/-! ## One charge -/

namespace RealTimePacer

/-- What every pacer keeps: its two divisors and the range of the recovery remainder. -/
structure Sound (rate denominator : ℕ) (p : RealTimePacer) : Prop where
  rateHz : p.rateHz = rate
  recoveryDenominator : p.recoveryDenominator = denominator
  recoveryRemainder : p.recoveryRemainder < denominator

/-- No 64-bit product or sum of the charge wraps. -/
structure ProductsFit (p : RealTimePacer) (count : ℕ) : Prop where
  fraction : count % p.rateHz * 1000000000 + p.nominalRemainder < 2 ^ 64
  nominal : count / p.rateHz * 1000000000 + p.fraction count / p.rateHz < 2 ^ 64
  recoveryFraction :
    p.nominalNs count % p.recoveryDenominator * 1000000 + p.recoveryRemainder < 2 ^ 64
  recovery : p.nominalNs count / p.recoveryDenominator * 1000000
    + p.recoveryFraction (p.nominalNs count) / p.recoveryDenominator < 2 ^ 64

variable {p : RealTimePacer} {rate denominator : ℕ}

/-- Anchoring keeps the rate. -/
@[simp] theorem anchorAt_rateHz (now : ℤ) : (p.anchorAt now).rateHz = p.rateHz := by
  unfold anchorAt
  split_ifs <;> rfl

/-- Anchoring keeps the burst budget. -/
@[simp] theorem anchorAt_burstBudget (now : ℤ) :
    (p.anchorAt now).burstBudget = p.burstBudget := by
  unfold anchorAt
  split_ifs <;> rfl

/-- Anchoring keeps the denominator of the recovery rate. -/
@[simp] theorem anchorAt_recoveryDenominator (now : ℤ) :
    (p.anchorAt now).recoveryDenominator = p.recoveryDenominator := by
  unfold anchorAt
  split_ifs <;> rfl

/-- Anchoring keeps the remainder of the nominal clock. -/
@[simp] theorem anchorAt_nominalRemainder (now : ℤ) :
    (p.anchorAt now).nominalRemainder = p.nominalRemainder := by
  unfold anchorAt
  split_ifs <;> rfl

/-- Anchoring keeps the remainder of the recovery clock. -/
@[simp] theorem anchorAt_recoveryRemainder (now : ℤ) :
    (p.anchorAt now).recoveryRemainder = p.recoveryRemainder := by
  unfold anchorAt
  split_ifs <;> rfl

/-- Behind the first charge the pacer is anchored. -/
@[simp] theorem anchorAt_anchored (now : ℤ) : (p.anchorAt now).anchored = true := by
  unfold anchorAt
  split_ifs with h
  · exact h
  · rfl

/-- Anchoring changes no nominal duration. -/
@[simp] theorem anchorAt_nominalNs (now : ℤ) (count : ℕ) :
    (p.anchorAt now).nominalNs count = p.nominalNs count := by
  simp only [nominalNs, fraction, anchorAt_rateHz, anchorAt_nominalRemainder]

/-- Anchoring changes no recovery duration. -/
@[simp] theorem anchorAt_recoveryNs (now : ℤ) (nominal : ℕ) :
    (p.anchorAt now).recoveryNs nominal = p.recoveryNs nominal := by
  simp only [recoveryNs, recoveryFraction, anchorAt_recoveryDenominator,
    anchorAt_recoveryRemainder]

/-- A pacer is anchored once. -/
theorem anchorAt_of_anchored (h : p.anchored = true) (now : ℤ) : p.anchorAt now = p := by
  unfold anchorAt
  rw [if_pos h]

/-- Every 64-bit duration has an exact recovery duration, which is no longer than it. -/
theorem recoveryNs_spec (hsound : p.Sound rate denominator) (hlo : 1000000 ≤ denominator)
    (hhi : denominator < 2 ^ 33) {nominal : ℕ} (hnominal : nominal < 2 ^ 64) :
    nominal % denominator * 1000000 + p.recoveryRemainder < 2 ^ 64
      ∧ nominal / denominator * 1000000 + p.recoveryFraction nominal / denominator < 2 ^ 64
      ∧ p.recoveryNs nominal = (nominal * 1000000 + p.recoveryRemainder) / denominator
      ∧ p.recoveryFraction nominal % denominator
        = (nominal * 1000000 + p.recoveryRemainder) % denominator
      ∧ p.recoveryNs nominal ≤ nominal := by
  have hpos : 0 < denominator := by omega
  have hmod := Nat.mod_lt nominal hpos
  have hrest := hsound.recoveryRemainder
  have hfits : nominal % denominator * 1000000 + p.recoveryRemainder < 2 ^ 64 := by omega
  have hfraction : p.recoveryFraction nominal
      = nominal % denominator * 1000000 + p.recoveryRemainder := by
    unfold recoveryFraction
    rw [hsound.recoveryDenominator, u64_of_lt hfits]
  have hsplit := Carried.split_div 1000000 p.recoveryRemainder nominal hpos
  have hle : (nominal * 1000000 + p.recoveryRemainder) / denominator ≤ nominal := by
    apply Nat.lt_succ_iff.mp
    apply (Nat.div_lt_iff_lt_mul hpos).mpr
    have hmul : nominal * 1000000 ≤ nominal * denominator := Nat.mul_le_mul_left nominal hlo
    rw [Nat.succ_mul]
    exact Nat.add_lt_add_of_le_of_lt hmul hrest
  have hns : p.recoveryNs nominal
      = (nominal * 1000000 + p.recoveryRemainder) / denominator := by
    unfold recoveryNs
    rw [hsound.recoveryDenominator, hfraction, hsplit, u64_of_lt (by omega)]
  refine ⟨hfits, ?_, hns, ?_, ?_⟩
  · rw [hfraction, hsplit]
    omega
  · rw [hfraction, Carried.split_mod]
  · rw [hns]
    exact hle

/-- A nominal duration is a 64-bit value. -/
theorem nominalNs_lt (p : RealTimePacer) (count : ℕ) : p.nominalNs count < 2 ^ 64 :=
  u64_lt _

/-- A charge keeps the rate. -/
theorem charge_rateHz (now : ℤ) (count : ℕ) :
    (p.charge now count).2.rateHz = p.rateHz := by
  simp only [charge, anchorAt_rateHz]

/-- A charge keeps the denominator of the recovery rate. -/
theorem charge_recoveryDenominator (now : ℤ) (count : ℕ) :
    (p.charge now count).2.recoveryDenominator = p.recoveryDenominator := by
  simp only [charge, anchorAt_recoveryDenominator]

/-- A charge keeps the burst budget. -/
theorem charge_burstBudget (now : ℤ) (count : ℕ) :
    (p.charge now count).2.burstBudget = p.burstBudget := by
  simp only [charge, anchorAt_burstBudget]

/-- A charged pacer is anchored. -/
theorem charge_anchored (now : ℤ) (count : ℕ) :
    (p.charge now count).2.anchored = true := by
  simp only [charge, anchorAt_anchored]

/-- A charge carries the remainder of the recovery division on. -/
theorem charge_recoveryRemainder (now : ℤ) (count : ℕ) :
    (p.charge now count).2.recoveryRemainder
      = p.recoveryFraction (p.nominalNs count) % p.recoveryDenominator := by
  simp only [charge, recoveryFraction, anchorAt_recoveryDenominator, anchorAt_recoveryRemainder,
    anchorAt_nominalNs]

/-- A charge carries the remainder of the nominal division on. -/
theorem charge_nominalRemainder (now : ℤ) (count : ℕ) :
    (p.charge now count).2.nominalRemainder = p.fraction count % p.rateHz := by
  simp only [charge, fraction, anchorAt_rateHz, anchorAt_nominalRemainder]

/-- A charge moves the nominal deadline on by the nominal duration. -/
theorem charge_nominalDeadline (now : ℤ) (count : ℕ) :
    (p.charge now count).2.nominalDeadline
      = i64 ((p.anchorAt now).nominalDeadline + p.nominalNs count) := by
  simp only [charge, anchorAt_nominalNs, i64_add_i64]

/-- A charge moves the limiter on, from no earlier than a burst before now. -/
theorem charge_limiterDeadline (now : ℤ) (count : ℕ) :
    (p.charge now count).2.limiterDeadline
      = i64 (max (p.anchorAt now).limiterDeadline (i64 (now - p.burstBudget))
          + p.recoveryNs (p.nominalNs count)) := by
  simp only [charge, anchorAt_burstBudget, anchorAt_nominalNs, anchorAt_recoveryNs, i64_add_i64]

/-- A charge keeps the recovery duration that it charged. -/
theorem charge_chargedRecoveryDuration (now : ℤ) (count : ℕ) :
    (p.charge now count).2.chargedRecoveryDuration
      = i64 (p.recoveryNs (p.nominalNs count)) := by
  simp only [charge, anchorAt_nominalNs, anchorAt_recoveryNs]

/-- A charge is due at the later of the two clocks. -/
theorem charge_due (now : ℤ) (count : ℕ) :
    (p.charge now count).1 = max (p.anchorAt now).nominalDeadline
      (max (p.anchorAt now).limiterDeadline (i64 (now - p.burstBudget))) := by
  simp only [charge, anchorAt_burstBudget]

/-- Publishing keeps the burst budget. -/
theorem published_burstBudget (now : ℤ) :
    (p.published now).burstBudget = p.burstBudget := rfl

/-- Publishing neither anchors nor unanchors. -/
theorem published_anchored (now : ℤ) :
    (p.published now).anchored = p.anchored := rfl

/-- Publishing keeps the remainder of the recovery clock. -/
theorem published_recoveryRemainder (now : ℤ) :
    (p.published now).recoveryRemainder = p.recoveryRemainder := rfl

/-- Publishing leaves the nominal clock alone. -/
theorem published_nominalDeadline (now : ℤ) :
    (p.published now).nominalDeadline = p.nominalDeadline := rfl

/-- Publishing lifts the limiter to a burst before now, behind the charge. -/
theorem published_limiterDeadline (now : ℤ) :
    (p.published now).limiterDeadline = max p.limiterDeadline
      (i64 (i64 (now - p.burstBudget) + p.chargedRecoveryDuration)) := by
  simp only [published]

/-- A charge keeps the divisors and leaves a remainder in range. -/
theorem Sound.charge (hsound : p.Sound rate denominator) (hpos : 0 < denominator) (now : ℤ)
    (count : ℕ) : (p.charge now count).2.Sound rate denominator where
  rateHz := by
    rw [charge_rateHz, hsound.rateHz]
  recoveryDenominator := by
    rw [charge_recoveryDenominator, hsound.recoveryDenominator]
  recoveryRemainder := by
    rw [charge_recoveryRemainder, hsound.recoveryDenominator]
    exact Nat.mod_lt _ hpos

/-- Publishing keeps the pacer sound. -/
theorem Sound.published (hsound : p.Sound rate denominator) (now : ℤ) :
    (p.published now).Sound rate denominator :=
  ⟨hsound.rateHz, hsound.recoveryDenominator, hsound.recoveryRemainder⟩

end RealTimePacer

/-! ## The nominal clock -/

/-- The two calls of a producer. -/
inductive PacerCall
  | charge (now : ℤ) (count : ℕ)
  | published (now : ℤ)

namespace PacerCall

def apply (p : RealTimePacer) : PacerCall → RealTimePacer
  | charge now count => (p.charge now count).2
  | published now => p.published now

def samples : PacerCall → ℕ
  | charge _ count => count
  | published _ => 0

/-- The reading that a charge would anchor the clocks to. -/
def reading : PacerCall → Option ℤ
  | charge now _ => some now
  | published _ => none

/-- The samples charged over these calls. -/
def charged (calls : List PacerCall) : ℕ :=
  (calls.map samples).sum

/-- The reading of the first charge. -/
def anchor (calls : List PacerCall) : Option ℤ :=
  calls.findSome? reading

/-- What a sequence of calls charges is what its parts charge. -/
theorem charged_append (pre post : List PacerCall) :
    charged (pre ++ post) = charged pre + charged post := by
  unfold charged
  rw [List.map_append, List.sum_append]

end PacerCall

namespace RealTimePacer

/-- The nominal clock is where the samples charged since the anchor put it. -/
structure OnNominal (rate : ℕ) (anchor : Option ℤ) (total : ℕ) (p : RealTimePacer) : Prop where
  anchored : p.anchored = anchor.isSome
  nominalRemainder : p.nominalRemainder = total * 1000000000 % rate
  nominalDeadline : ∀ a ∈ anchor, p.nominalDeadline = a + (total * 1000000000 / rate : ℕ)
  total_eq_zero : anchor = none → total = 0

variable {p : RealTimePacer} {rate denominator total : ℕ} {anchor : Option ℤ}

/-- The nominal clock of an anchored pacer stands at the samples charged so far. -/
theorem anchorAt_nominalDeadline (hclock : p.OnNominal rate anchor total) (now : ℤ) :
    (p.anchorAt now).nominalDeadline
      = anchor.getD now + (total * 1000000000 / rate : ℕ) := by
  cases anchor with
  | none =>
      have hanchored : p.anchored = false := hclock.anchored
      unfold anchorAt
      rw [hanchored, hclock.total_eq_zero rfl]
      simp
  | some a =>
      rw [anchorAt_of_anchored hclock.anchored, hclock.nominalDeadline a rfl]
      rfl

/-- The fraction does not wrap: its product is below one second of samples. -/
theorem fraction_eq (hsound : p.Sound rate denominator) (hrate : 0 < rate)
    (hfits : rate * 1000000000 + rate < 2 ^ 64)
    (hremainder : p.nominalRemainder = total * 1000000000 % rate) (count : ℕ) :
    count % rate * 1000000000 + p.nominalRemainder < 2 ^ 64
      ∧ p.fraction count = count % rate * 1000000000 + total * 1000000000 % rate := by
  have hmod : count % rate * 1000000000 ≤ rate * 1000000000 :=
    Nat.mul_le_mul_right _ (Nat.mod_lt count hrate).le
  have hrest := Nat.mod_lt (total * 1000000000) hrate
  have hlt : count % rate * 1000000000 + p.nominalRemainder < 2 ^ 64 := by
    rw [hremainder]
    exact lt_of_le_of_lt (Nat.add_le_add hmod hrest.le) hfits
  refine ⟨hlt, ?_⟩
  unfold fraction
  rw [hsound.rateHz, u64_of_lt hlt, hremainder]

/-- A charge within the range advances the nominal clock exactly and wraps nowhere. -/
theorem charge_onNominal (hsound : p.Sound rate denominator)
    (hclock : p.OnNominal rate anchor total) (hrate : 0 < rate)
    (hfits : rate * 1000000000 + rate < 2 ^ 64) (hlo : 1000000 ≤ denominator)
    (hhi : denominator < 2 ^ 33) {now : ℤ} {count : ℕ} (hnow : -2 ^ 63 ≤ anchor.getD now)
    (hspan : (total + count) * 1000000000 / rate < 2 ^ 63)
    (hend : anchor.getD now + ((total + count) * 1000000000 / rate : ℕ) < 2 ^ 63) :
    p.ProductsFit count
      ∧ (p.charge now count).2.OnNominal rate (some (anchor.getD now)) (total + count) := by
  -- the remainder carried from charge to charge is that of the total
  obtain ⟨hlt, hfraction⟩ := fraction_eq hsound hrate hfits hclock.nominalRemainder count
  have hadvance := Carried.advance_div 1000000000 total count hrate
  have hnominal : count / rate * 1000000000 + p.fraction count / rate
      = (count * 1000000000 + total * 1000000000 % rate) / rate := by
    rw [hfraction, Carried.split_div _ _ _ hrate]
  have hsmall : count / rate * 1000000000 + p.fraction count / rate < 2 ^ 64 := by
    rw [hnominal]
    have hle := (Nat.le_add_left _ _).trans hadvance.le
    exact lt_of_le_of_lt hle (hspan.trans (by norm_num))
  -- what the nominal clock advances by
  have hns : total * 1000000000 / rate + p.nominalNs count
      = (total + count) * 1000000000 / rate := by
    unfold nominalNs
    rw [hsound.rateHz, u64_of_lt hsmall, hnominal, hadvance]
  obtain ⟨hrecoveryFraction, hrecovery, -, -, -⟩ :=
    recoveryNs_spec hsound hlo hhi (p.nominalNs_lt count)
  constructor
  · constructor
    · rw [hsound.rateHz]
      exact hlt
    · rw [hsound.rateHz]
      exact hsmall
    · rw [hsound.recoveryDenominator]
      exact hrecoveryFraction
    · rw [hsound.recoveryDenominator]
      exact hrecovery
  · constructor
    · exact charge_anchored now count
    · rw [charge_nominalRemainder, hsound.rateHz, hfraction, Carried.split_mod,
        Carried.advance_mod]
    · rintro a ha
      obtain rfl := Option.some.inj ha
      have hsum : (total * 1000000000 / rate : ℕ) + (p.nominalNs count : ℤ)
          = ((total + count) * 1000000000 / rate : ℕ) := by
        exact_mod_cast hns
      -- the deadline is the anchor and the total, in nanoseconds
      rw [charge_nominalDeadline, anchorAt_nominalDeadline hclock, Int.add_assoc, hsum]
      apply i64_of_fits
      constructor
      · exact hnow.trans (Int.le_add_of_nonneg_right (Int.natCast_nonneg _))
      · exact hend
    · exact fun h => absurd h (by simp)

/-- Publishing keeps the pacer on its nominal clock. -/
theorem published_onNominal (hclock : p.OnNominal rate anchor total) (now : ℤ) :
    (p.published now).OnNominal rate anchor total :=
  ⟨hclock.anchored, hclock.nominalRemainder, hclock.nominalDeadline, hclock.total_eq_zero⟩

end RealTimePacer

/-! ## Runs of the nominal clock -/

namespace PacerCall

/-- A charge anchors at its own time, if nothing was charged before. -/
theorem anchor_append_charge (pre : List PacerCall) (now : ℤ) (count : ℕ)
    (post : List PacerCall) :
    anchor (pre ++ charge now count :: post) = some ((anchor pre).getD now) := by
  unfold anchor
  rw [List.findSome?_append]
  cases pre.findSome? reading <;> rfl

/-- Publishing anchors nothing. -/
theorem anchor_append_published (pre : List PacerCall) (now : ℤ) :
    anchor (pre ++ [published now]) = anchor pre := by
  unfold anchor
  rw [List.findSome?_append]
  cases pre.findSome? reading <;> rfl

/-- A charge in the middle adds its samples to the total. -/
theorem charged_append_charge (pre : List PacerCall) (now : ℤ) (count : ℕ)
    (post : List PacerCall) :
    charged (pre ++ charge now count :: post) = charged pre + count + charged post := by
  rw [charged_append, Nat.add_assoc]
  rfl

/-- The time charged over these calls, and the instant it ends at, are within the range of the
clock. -/
structure WithinClock (rate : ℕ) (calls : List PacerCall) : Prop where
  span : charged calls * 1000000000 / rate < 2 ^ 63
  reading : ∀ a ∈ anchor calls, FitsI64 a
  finish : ∀ a ∈ anchor calls, a + (charged calls * 1000000000 / rate : ℕ) < 2 ^ 63

/-- What comes first is within the range as well, up to any charge. -/
theorem WithinClock.upto {rate : ℕ} {pre post : List PacerCall} {now : ℤ} {count : ℕ}
    (h : WithinClock rate (pre ++ charge now count :: post)) :
    WithinClock rate pre ∧ -2 ^ 63 ≤ (anchor pre).getD now
      ∧ (charged pre + count) * 1000000000 / rate < 2 ^ 63
      ∧ (anchor pre).getD now + ((charged pre + count) * 1000000000 / rate : ℕ) < 2 ^ 63 := by
  have hspan := h.span
  have hreading := h.reading _ (anchor_append_charge pre now count post)
  have hfinish := h.finish _ (anchor_append_charge pre now count post)
  rw [charged_append_charge] at hspan hfinish
  have hall : (charged pre + count) * 1000000000 / rate
      ≤ (charged pre + count + charged post) * 1000000000 / rate :=
    Nat.div_le_div_right (Nat.mul_le_mul_right _ (Nat.le_add_right _ _))
  have hpre : charged pre * 1000000000 / rate
      ≤ (charged pre + count) * 1000000000 / rate :=
    Nat.div_le_div_right (Nat.mul_le_mul_right _ (Nat.le_add_right _ _))
  refine ⟨⟨lt_of_le_of_lt (hpre.trans hall) hspan, ?_, ?_⟩, hreading.1,
    lt_of_le_of_lt hall hspan, ?_⟩
  · intro a ha
    rw [Option.mem_def.mp ha] at hreading
    exact hreading
  · intro a ha
    rw [Option.mem_def.mp ha] at hfinish
    have hcast : ((charged pre * 1000000000 / rate : ℕ) : ℤ)
        ≤ ((charged pre + count + charged post) * 1000000000 / rate : ℕ) := by
      exact_mod_cast hpre.trans hall
    exact lt_of_le_of_lt (Int.add_le_add_left hcast a) hfinish
  · have hcast : (((charged pre + count) * 1000000000 / rate : ℕ) : ℤ)
        ≤ ((charged pre + count + charged post) * 1000000000 / rate : ℕ) := by
      exact_mod_cast hall
    exact lt_of_le_of_lt (Int.add_le_add_left hcast _) hfinish

end PacerCall

namespace RealTimePacer

open PacerCall (charged anchor)

variable {p : RealTimePacer} {rate denominator : ℕ}

/-- Every sequence of calls keeps the pacer sound. -/
theorem Sound.run (hsound : p.Sound rate denominator) (hpos : 0 < denominator)
    (calls : List PacerCall) : (calls.foldl PacerCall.apply p).Sound rate denominator := by
  refine Run.invariant (I := Sound rate denominator) ?_ hsound calls
  intro s call hs
  cases call with
  | charge now count => exact hs.charge hpos now count
  | published now => exact hs.published now

/-- A run within the range of the clock keeps the nominal clock exact. -/
theorem run_onNominal (hsound : p.Sound rate denominator) (hstart : p.OnNominal rate none 0)
    (hrate : 0 < rate) (hfits : rate * 1000000000 + rate < 2 ^ 64) (hlo : 1000000 ≤ denominator)
    (hhi : denominator < 2 ^ 33) (calls : List PacerCall)
    (hwithin : PacerCall.WithinClock rate calls) :
    (calls.foldl PacerCall.apply p).OnNominal rate (anchor calls) (charged calls) := by
  induction calls using List.reverseRecOn with
  | nil => exact hstart
  | append_singleton pre call ih =>
      rw [List.foldl_append]
      cases call with
      | charge now count =>
          obtain ⟨hpre, hnow, hspan, hend⟩ := hwithin.upto
          rw [PacerCall.anchor_append_charge, PacerCall.charged_append_charge]
          exact (charge_onNominal (hsound.run (by omega) pre) (ih hpre) hrate hfits hlo hhi
            hnow hspan hend).2
      | published now =>
          have hcharged : charged (pre ++ [.published now]) = charged pre := by
            rw [PacerCall.charged_append]
            rfl
          have hanchor := PacerCall.anchor_append_published pre now
          have hpre : PacerCall.WithinClock rate pre := by
            refine ⟨?_, ?_, ?_⟩
            · rw [← hcharged]
              exact hwithin.span
            · rw [← hanchor]
              exact hwithin.reading
            · rw [← hcharged, ← hanchor]
              exact hwithin.finish
          rw [hcharged, hanchor]
          exact published_onNominal (ih hpre) now

/-- A pacer that was just made is sound. -/
theorem make_sound (sampleRateHz : ℕ) (burst : ℤ) (ppm : UInt32) :
    (make sampleRateHz burst ppm).Sound (make sampleRateHz burst ppm).rateHz
      (1000000 + ppm.toNat) where
  rateHz := rfl
  recoveryDenominator := rfl
  recoveryRemainder := by
    show 0 < 1000000 + ppm.toNat
    omega

/-- A pacer that was just made is on its nominal clock, with nothing charged. -/
theorem make_onNominal (sampleRateHz : ℕ) (burst : ℤ) (ppm : UInt32) :
    (make sampleRateHz burst ppm).OnNominal (make sampleRateHz burst ppm).rateHz none 0 where
  anchored := rfl
  nominalRemainder := by
    rw [Nat.zero_mul, Nat.zero_mod]
    rfl
  nominalDeadline := by
    rintro a ⟨⟩
  total_eq_zero _ := rfl

/-- The constructor never stores a rate of zero. -/
theorem rateHz_pos (sampleRateHz : ℕ) (burst : ℤ) (ppm : UInt32) :
    0 < (make sampleRateHz burst ppm).rateHz := by
  unfold make
  dsimp only
  split_ifs with h
  · exact Nat.one_pos
  · exact Nat.pos_of_ne_zero h

/-- A sample rate whose products fit gives a pacer whose products fit. -/
theorem rateHz_fits {sampleRateHz : ℕ} (h : sampleRateHz * 1000000000 + sampleRateHz < 2 ^ 64)
    (burst : ℤ) (ppm : UInt32) :
    (make sampleRateHz burst ppm).rateHz * 1000000000 + (make sampleRateHz burst ppm).rateHz
      < 2 ^ 64 := by
  unfold make
  dsimp only
  split_ifs
  · norm_num
  · exact h

/-- The recovery denominator is a 33-bit number. -/
theorem denominator_lt (ppm : UInt32) : 1000000 + ppm.toNat < 2 ^ 33 := by
  have h := ppm.toNat_lt
  omega

/-- **The nominal clock is exact** while the time charged stays within the range of the 64-bit
clock: it lies where the total of the samples puts it, whatever the fragments, the readings, the
lateness, the budget and the recovery, and nothing wraps on the way. -/
theorem nominal_clock_exact (sampleRateHz : ℕ)
    (hrate : sampleRateHz * 1000000000 + sampleRateHz < 2 ^ 64) (burst : ℤ) (ppm : UInt32)
    (calls : List PacerCall) (a : ℤ) (hanchor : anchor calls = some a)
    (hwithin : PacerCall.WithinClock (make sampleRateHz burst ppm).rateHz calls) :
    (calls.foldl PacerCall.apply (make sampleRateHz burst ppm)).nominalDeadline - a
        = (charged calls * 1000000000 / (make sampleRateHz burst ppm).rateHz : ℕ)
      ∧ (calls.foldl PacerCall.apply (make sampleRateHz burst ppm)).nominalRemainder
        = charged calls * 1000000000 % (make sampleRateHz burst ppm).rateHz
      ∧ (∀ pre now count post, calls = pre ++ .charge now count :: post →
        (pre.foldl PacerCall.apply (make sampleRateHz burst ppm)).ProductsFit count)
      ∧ ∀ burst' ppm' calls', anchor calls' = some a → charged calls' = charged calls →
        (calls'.foldl PacerCall.apply (make sampleRateHz burst' ppm')).nominalDeadline
            = (calls.foldl PacerCall.apply (make sampleRateHz burst ppm)).nominalDeadline
          ∧ (calls'.foldl PacerCall.apply (make sampleRateHz burst' ppm')).nominalRemainder
            = (calls.foldl PacerCall.apply (make sampleRateHz burst ppm)).nominalRemainder := by
  -- the nominal clock after any calls, whatever the burst and the recovery are
  have hrun : ∀ burst' ppm' calls',
      PacerCall.WithinClock (make sampleRateHz burst' ppm').rateHz calls' →
      (calls'.foldl PacerCall.apply (make sampleRateHz burst' ppm')).OnNominal
        (make sampleRateHz burst' ppm').rateHz (anchor calls') (charged calls') := by
    intro burst' ppm' calls' hwithin'
    exact run_onNominal (make_sound _ _ _) (make_onNominal _ _ _) (rateHz_pos _ _ _)
      (rateHz_fits hrate _ _) (Nat.le_add_right _ _) (denominator_lt ppm') calls' hwithin'
  have hclock := hrun burst ppm calls hwithin
  have hdeadline := hclock.nominalDeadline a hanchor
  refine ⟨?_, hclock.nominalRemainder, ?_, ?_⟩
  · rw [hdeadline]
    ring
  · rintro pre now count post rfl
    obtain ⟨hpre, hnow, hspan, hend⟩ := hwithin.upto
    exact (charge_onNominal ((make_sound _ _ _).run (Nat.lt_of_lt_of_le (by norm_num)
      (Nat.le_add_right _ _)) pre) (hrun burst ppm pre hpre) (rateHz_pos _ _ _)
      (rateHz_fits hrate _ _) (Nat.le_add_right _ _) (denominator_lt ppm) hnow hspan hend).1
  -- the clock depends on the anchor and the charged samples only
  · intro burst' ppm' calls' hanchor' hcharged
    have hwithin' : PacerCall.WithinClock (make sampleRateHz burst' ppm').rateHz calls' := by
      refine ⟨?_, ?_, ?_⟩
      · rw [hcharged]
        exact hwithin.span
      · rw [hanchor', ← hanchor]
        exact hwithin.reading
      · rw [hanchor', ← hanchor, hcharged]
        exact hwithin.finish
    have hclock' := hrun burst' ppm' calls' hwithin'
    constructor
    · rw [hclock'.nominalDeadline a hanchor', hdeadline, hcharged]
      rfl
    · rw [hclock'.nominalRemainder, hclock.nominalRemainder, hcharged]
      rfl

/-- Two publications, one of them late, at a rate that does not divide a second. -/
def lateCalls : List PacerCall :=
  [.charge 5 10000, .published 900000, .charge 900001 13040, .published 900002]

theorem nominal_clock_exact_late :
    (lateCalls.foldl PacerCall.apply (make 30720000 1000 10000)).nominalDeadline - 5
      = (charged lateCalls * 1000000000 / (make 30720000 1000 10000).rateHz : ℕ) :=
  (nominal_clock_exact 30720000 (by norm_num) 1000 10000 lateCalls 5 rfl
    ⟨by decide +kernel, by decide +kernel, by decide +kernel⟩).1

/-- A count whose duration is beyond the clock: the 64-bit product is a multiple of `2 ^ 64`. -/
theorem nominal_clock_wraps :
    1 * 1000000000 + 1 < 2 ^ 64 ∧ 2 ^ 63 < 2 ^ 64
      ∧ anchor [.charge 0 (2 ^ 63)] = some 0
      ∧ (PacerCall.apply (make 1 0 10000) (.charge 0 (2 ^ 63))).nominalDeadline - 0
        ≠ (charged [.charge 0 (2 ^ 63)] * 1000000000 / (make 1 0 10000).rateHz : ℕ) := by
  decide +kernel

/-! ## Released windows -/

/-- A window as the producer serves it: charged at `now`, published after the wait. -/
structure PacedWindow where
  now : ℤ
  count : ℕ
  publishedAt : ℤ

def serve (p : RealTimePacer) (w : PacedWindow) : RealTimePacer :=
  (p.charge w.now w.count).2.published w.publishedAt

/-- The pacer before window `k`. -/
def before (p : RealTimePacer) (w : ℕ → PacedWindow) : ℕ → RealTimePacer
  | 0 => p
  | k + 1 => (before p w k).serve (w k)

/-- The instant that window `k` has to wait for. -/
def due (p : RealTimePacer) (w : ℕ → PacedWindow) (k : ℕ) : ℤ :=
  ((before p w k).charge (w k).now (w k).count).1

/-- The nominal duration that is charged for window `k`. -/
def chargedNs (p : RealTimePacer) (w : ℕ → PacedWindow) (k : ℕ) : ℕ :=
  (before p w k).nominalNs (w k).count

/-- The instants that window `k` makes the limiter form are within the range of the clock. -/
structure InRange (p : RealTimePacer) (w : ℕ → PacedWindow) (k : ℕ) : Prop where
  now : FitsI64 (w k).now
  idle : FitsI64 ((w k).now - p.burstBudget)
  late : FitsI64 ((w k).publishedAt - p.burstBudget)
  charged : (w k).publishedAt + chargedNs p w k < 2 ^ 63
  limited : (w k).publishedAt - p.burstBudget + chargedNs p w k < 2 ^ 63

section Released

variable {w : ℕ → PacedWindow}

/-- The pacer before window `k` is sound. -/
theorem Sound.before (hsound : p.Sound rate denominator) (hpos : 0 < denominator) (k : ℕ) :
    (RealTimePacer.before p w k).Sound rate denominator := by
  induction k with
  | zero => exact hsound
  | succ k ih =>
      rw [RealTimePacer.before, serve]
      exact (ih.charge hpos (w k).now (w k).count).published (w k).publishedAt

/-- The burst budget is the same before every window. -/
theorem before_burstBudget (k : ℕ) : (before p w k).burstBudget = p.burstBudget := by
  induction k with
  | zero => rfl
  | succ k ih =>
      rw [before, serve, published_burstBudget, charge_burstBudget, ih]

/-- Behind the first window the pacer is anchored. -/
theorem before_succ_anchored (k : ℕ) : (before p w (k + 1)).anchored = true := by
  rw [before, serve, published_anchored, charge_anchored]

/-- The limiter of window `k`, anchored. -/
def limiterAt (p : RealTimePacer) (w : ℕ → PacedWindow) (k : ℕ) : ℤ :=
  ((before p w k).anchorAt (w k).now).limiterDeadline

/-- The recovery time that is granted for window `k`. -/
def grantedNs (p : RealTimePacer) (w : ℕ → PacedWindow) (k : ℕ) : ℕ :=
  (before p w k).recoveryNs (chargedNs p w k)

/-- The limiter of a later window is the one that the windows before it left. -/
theorem limiterAt_succ (k : ℕ) :
    limiterAt p w (k + 1) = (before p w (k + 1)).limiterDeadline := by
  unfold limiterAt
  rw [anchorAt_of_anchored (before_succ_anchored k)]

/-- No window is due before its limiter. -/
theorem limiterAt_le_due (k : ℕ) : limiterAt p w k ≤ due p w k := by
  unfold limiterAt due
  rw [charge_due]
  exact (le_max_left _ _).trans (le_max_right _ _)

/-- The limiter of the next window lies after both what the charge and what the publication
make of it. -/
theorem limiterAt_step (hsound : p.Sound rate denominator) (hlo : 1000000 ≤ denominator)
    (hhi : denominator < 2 ^ 33) {k : ℕ} (hdue : due p w k ≤ (w k).publishedAt)
    (hrange : InRange p w k) :
    limiterAt p w k + grantedNs p w k ≤ limiterAt p w (k + 1)
      ∧ (w k).publishedAt - p.burstBudget + grantedNs p w k ≤ limiterAt p w (k + 1) := by
  have hgranted : (grantedNs p w k : ℤ) ≤ chargedNs p w k := by
    exact_mod_cast (recoveryNs_spec (hsound.before (by omega) k) hlo hhi
      (nominalNs_lt _ _)).2.2.2.2
  have hidle : i64 ((w k).now - p.burstBudget) = (w k).now - p.burstBudget :=
    i64_of_fits hrange.idle
  have hlate : i64 ((w k).publishedAt - p.burstBudget) = (w k).publishedAt - p.burstBudget :=
    i64_of_fits hrange.late
  have hnext : limiterAt p w (k + 1)
      = max (i64 (max (limiterAt p w k) ((w k).now - p.burstBudget) + grantedNs p w k))
          (i64 ((w k).publishedAt - p.burstBudget + grantedNs p w k)) := by
    rw [limiterAt_succ, before, serve, published_limiterDeadline, charge_limiterDeadline,
      charge_chargedRecoveryDuration, charge_burstBudget, before_burstBudget, hidle, hlate,
      i64_add_i64]
    rfl
  -- The wait covers the credit that is left, so the grant starts no later than the publication.
  have hstart : max (limiterAt p w k) ((w k).now - p.burstBudget) ≤ (w k).publishedAt := by
    have hle : max (limiterAt p w k) (i64 ((w k).now - p.burstBudget)) ≤ due p w k := by
      unfold due
      rw [charge_due, before_burstBudget]
      exact le_max_right _ _
    rw [hidle] at hle
    exact hle.trans hdue
  have hcharge : i64 (max (limiterAt p w k) ((w k).now - p.burstBudget) + grantedNs p w k)
      = max (limiterAt p w k) ((w k).now - p.burstBudget) + grantedNs p w k := by
    apply i64_of_fits
    constructor
    · have hlow := hrange.idle.1
      have hmax := le_max_right (limiterAt p w k) ((w k).now - p.burstBudget)
      linarith [Int.natCast_nonneg (grantedNs p w k)]
    · linarith [hrange.charged]
  have hpublished : i64 ((w k).publishedAt - p.burstBudget + grantedNs p w k)
      = (w k).publishedAt - p.burstBudget + grantedNs p w k := by
    apply i64_of_fits
    constructor
    · linarith [hrange.late.1, Int.natCast_nonneg (grantedNs p w k)]
    · linarith [hrange.limited]
  rw [hnext, hcharge, hpublished]
  constructor
  · have hmax := le_max_left (limiterAt p w k) ((w k).now - p.burstBudget)
    exact le_trans (by linarith) (le_max_left _ _)
  · exact le_max_right _ _

/-- The recovery clock carries its remainder from window to window. -/
theorem grantedNs_step (hsound : p.Sound rate denominator) (hlo : 1000000 ≤ denominator)
    (hhi : denominator < 2 ^ 33) (k : ℕ) :
    chargedNs p w k * 1000000 + (before p w k).recoveryRemainder
      = denominator * grantedNs p w k + (before p w (k + 1)).recoveryRemainder := by
  have hbefore := hsound.before (w := w) (by omega) k
  obtain ⟨-, -, hgranted, hrest, -⟩ :=
    recoveryNs_spec hbefore hlo hhi ((before p w k).nominalNs_lt (w k).count)
  have hnext : (before p w (k + 1)).recoveryRemainder
      = (chargedNs p w k * 1000000 + (before p w k).recoveryRemainder) % denominator := by
    rw [before, serve, published_recoveryRemainder, charge_recoveryRemainder, hbefore.recoveryDenominator, hrest]
    rfl
  have hquotient : grantedNs p w k
      = (chargedNs p w k * 1000000 + (before p w k).recoveryRemainder) / denominator := hgranted
  rw [hnext, hquotient, Nat.div_add_mod]

/-- The nominal deadline of a window is the anchor and all that was charged before it. -/
theorem nominalAt_eq (hfresh : p.anchored = false) {j : ℕ}
    (hdue : ∀ k ≤ j, due p w k ≤ (w k).publishedAt) (hrange : ∀ k < j, InRange p w k) :
    ∀ k ≤ j, ((before p w k).anchorAt (w k).now).nominalDeadline
      = (w 0).now + ∑ l ∈ Finset.range k, (chargedNs p w l : ℤ) := by
  intro k
  induction k with
  | zero =>
      intro _
      rw [Finset.sum_range_zero, add_zero]
      unfold anchorAt
      rw [show before p w 0 = p from rfl, hfresh]
      rfl
  | succ k ih =>
      intro hk
      have hprev := ih (by omega)
      have hin := hrange k (by omega)
      have hle : ((before p w k).anchorAt (w k).now).nominalDeadline ≤ (w k).publishedAt :=
        le_trans (le_max_left _ _) (hdue k (by omega))
      have hnonneg : 0 ≤ ∑ l ∈ Finset.range k, (chargedNs p w l : ℤ) :=
        Finset.sum_nonneg fun l _ => Int.natCast_nonneg _
      have hfirst := (hrange 0 (by omega)).now.1
      rw [anchorAt_of_anchored (before_succ_anchored k)]
      rw [before, serve, published_nominalDeadline, charge_nominalDeadline, i64_of_fits, hprev, Finset.sum_range_succ, add_assoc]
      · rfl
      · constructor
        · rw [hprev]
          linarith [Int.natCast_nonneg ((before p w k).nominalNs (w k).count)]
        · have hcharged : (w k).publishedAt + ((before p w k).nominalNs (w k).count : ℤ)
              < 2 ^ 63 := hin.charged
          linarith

end Released

/-- **The release envelope.** While the instants formed stay within the range of the 64-bit
clock, the signal time that is released from window `i` to window `j` is within the time between
their publications and one burst, at the recovery rate; and no window is due before its nominal
deadline. -/
theorem release_envelope (sampleRateHz : ℕ) (burst : ℤ) (ppm : UInt32) (w : ℕ → PacedWindow)
    (i j : ℕ) (hij : i < j)
    (hdue : ∀ k ≤ j, due (make sampleRateHz burst ppm) w k ≤ (w k).publishedAt)
    (hrange : ∀ k < j, InRange (make sampleRateHz burst ppm) w k) :
    10 ^ 6 * ∑ k ∈ Finset.Ico i j, (chargedNs (make sampleRateHz burst ppm) w k : ℤ)
        < (10 ^ 6 + ppm.toNat) * ((w j).publishedAt - (w i).publishedAt
            + (make sampleRateHz burst ppm).burstBudget + 1)
      ∧ ∀ k ≤ j, (w 0).now + ∑ l ∈ Finset.range k, (chargedNs (make sampleRateHz burst ppm) w l : ℤ)
          ≤ due (make sampleRateHz burst ppm) w k := by
  have hsound := make_sound sampleRateHz burst ppm
  have hlo : 1000000 ≤ 1000000 + ppm.toNat := Nat.le_add_right _ _
  have hhi := denominator_lt ppm
  constructor
  -- what the limiter grants between two windows
  · have hgranted : ∑ k ∈ Finset.Ico i j, (grantedNs (make sampleRateHz burst ppm) w k : ℤ)
        ≤ (w j).publishedAt - (w i).publishedAt + (make sampleRateHz burst ppm).burstBudget :=
      Limiter.granted_le (limiterAt (make sampleRateHz burst ppm) w)
        (fun k => (w k).publishedAt) (fun k => grantedNs (make sampleRateHz burst ppm) w k) hij
        (fun k _ hk => (limiterAt_step hsound hlo hhi (hdue k (by omega)) (hrange k hk)).1)
        (limiterAt_step hsound hlo hhi (hdue i (by omega)) (hrange i hij)).2
        ((limiterAt_le_due j).trans (hdue j le_rfl))
    -- the charges differ from it by the ppm and a remainder
    have hamounts : 1000000 * ∑ k ∈ Finset.Ico i j, chargedNs (make sampleRateHz burst ppm) w k
        < (1000000 + ppm.toNat)
          * (∑ k ∈ Finset.Ico i j, grantedNs (make sampleRateHz burst ppm) w k + 1) :=
      Carried.amounts_lt hij.le (fun k _ _ => grantedNs_step hsound hlo hhi k)
        (hsound.before (by omega) j).recoveryRemainder
    zify at hamounts
    calc 10 ^ 6 * ∑ k ∈ Finset.Ico i j, (chargedNs (make sampleRateHz burst ppm) w k : ℤ)
        < (1000000 + ppm.toNat)
            * (∑ k ∈ Finset.Ico i j, (grantedNs (make sampleRateHz burst ppm) w k : ℤ) + 1) := by
          norm_num at hamounts ⊢
          exact hamounts
      _ ≤ (10 ^ 6 + ppm.toNat) * ((w j).publishedAt - (w i).publishedAt
            + (make sampleRateHz burst ppm).burstBudget + 1) := by
          norm_num
          apply mul_le_mul_of_nonneg_left
          · linarith
          · positivity
  · intro k hk
    rw [← nominalAt_eq rfl hdue hrange k hk]
    exact le_max_left _ _

/-- A millisecond of samples each time; the second window oversleeps by most of a second. -/
def oversleeping : ℕ → PacedWindow
  | 0 => ⟨0, 23040, 0⟩
  | 1 => ⟨1000, 23040, 900000000⟩
  | k + 2 => ⟨900000001, 23040, 1000000000 + 1000000 * k⟩

theorem release_envelope_oversleeping :
    10 ^ 6 * ∑ k ∈ Finset.Ico 1 3,
        (chargedNs (make 23040000 1000000 10000) oversleeping k : ℤ)
      < (10 ^ 6 + (10000 : UInt32).toNat)
        * ((oversleeping 3).publishedAt - (oversleeping 1).publishedAt
          + (make 23040000 1000000 10000).burstBudget + 1) :=
  (release_envelope 23040000 1000000 10000 oversleeping 1 3 (by decide)
    (by decide +kernel) (by
      intro k hk
      interval_cases k <;> exact ⟨by decide +kernel, by decide +kernel, by decide +kernel,
        by decide +kernel, by decide +kernel⟩)).1

/-- One charge of more than the range of the clock, and then one nanosecond's worth. -/
def beyondClock : ℕ → PacedWindow
  | 0 => ⟨0, 10000000000, 0⟩
  | _ + 1 => ⟨0, 1, 0⟩

/-- The nominal duration of the first window is a negative count of nanoseconds, so the next
window is due at once. -/
theorem release_envelope_wraps :
    (∀ k ≤ 1, due (make 1 0 10000) beyondClock k ≤ (beyondClock k).publishedAt)
      ∧ (∀ k < 1, (beyondClock k).publishedAt ≤ (beyondClock (k + 1)).now)
      ∧ (∀ k ≤ 1, 0 < (beyondClock k).count)
      ∧ ¬ 10 ^ 6 * ∑ k ∈ Finset.Ico 0 1, (chargedNs (make 1 0 10000) beyondClock k : ℤ)
        < (10 ^ 6 + (10000 : UInt32).toNat)
          * ((beyondClock 1).publishedAt - (beyondClock 0).publishedAt
            + (make 1 0 10000).burstBudget + 1) := by
  decide +kernel

end RealTimePacer
