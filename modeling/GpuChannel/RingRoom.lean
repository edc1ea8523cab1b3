/-
# Room in the history rings

A tap of delay `τ` reads back to `⌊τ⌋ + 4` samples before its output, so its ring has to hold that
many.  The rings are sized when a lane is prepared and may grow when a swap resets the history; a
scalar update never resizes them.  So the taps of a lane keep fitting as long as every tap-0 delay
that takes effect does, and every swap fits the rings behind the first.
-/
import GpuChannel.NodeSlots
import GpuChannel.WarmupHistory

/-! ## What a tap reads of its ring -/

section Filters

variable {K : Type} [Field K] [LinearOrder K] [FloorRing K]

omit [LinearOrder K] [FloorRing K] in
/-- A read that stays in the ring does not see how far the history goes back. -/
theorem readSample_append {input ring : List (Iq K)} {idx : ℤ} (older : List (Iq K))
    (h : 0 ≤ (ring.length : ℤ) + idx) :
    readSample input (older ++ ring) idx = readSample input ring idx := by
  unfold readSample
  by_cases hfuture : (input.length : ℤ) ≤ idx
  · rw [if_pos hfuture, if_pos hfuture]
  · rw [if_neg hfuture, if_neg hfuture]
    by_cases hslot : 0 ≤ idx
    · rw [if_pos hslot, if_pos hslot]
    · have hlong : ¬ ((older ++ ring).length : ℤ) + idx < 0 := by
        rw [List.length_append]
        push_cast
        omega
      have hshort : ¬ (ring.length : ℤ) + idx < 0 := by omega
      have hindex : (((older ++ ring).length : ℤ) + idx).toNat =
          older.length + ((ring.length : ℤ) + idx).toNat := by
        rw [List.length_append]
        push_cast
        omega
      rw [if_neg hslot, if_neg hslot, if_neg hlong, if_neg hshort, hindex,
        List.getD_append_right _ _ _ _ (by omega), Nat.add_sub_cancel_left]

/-- **No sample that the filter needs is lost**: a tap that fits gives what it would give with any
longer history. -/
theorem filterTap_append {input ring : List (Iq K)} (older : List (Iq K)) {tap : TapSpec K}
    (hfit : ⌊tap.delaySamples⌋ + 4 ≤ (ring.length : ℤ)) (n : ℕ) (h : Polyphase K) :
    filterTap (readSample input (older ++ ring)) n tap h =
      filterTap (readSample input ring) n tap h := by
  have hread : ∀ i : Fin kTdlFracFilterTaps,
      readSample input (older ++ ring) (n - ⌊tap.delaySamples⌋ + 3 - i.val) =
        readSample input ring (n - ⌊tap.delaySamples⌋ + 3 - i.val) := by
    intro i
    apply readSample_append
    have hi : i.val < 8 := i.isLt
    omega
  unfold filterTap
  congr 1
  funext x i
  dsimp only
  rw [hread i]

end Filters

section Rooms

variable {K : Type} [Field K] [LinearOrder K] [FloorRing K]

/-! ## The taps that a lane uses -/

/-- The taps of a tdl step under a layout. -/
def usedTaps (live : MutableParams K) (layout : Layout K) (laneIndex : ℕ)
    (taps : List (TapSpec K)) : List (TapSpec K) :=
  match layout with
  | .declared => effectiveTaps live taps
  | .profile profile => profile.tapList
  | .matrix matrix =>
      if laneIndex < matrix.laneCount then ((matrix.lane? laneIndex).map (·.tapList)).getD [] else []

/-- Every delay of the taps leaves the filter inside a ring of this size. -/
def RingFits (taps : List (TapSpec K)) (ring : ℕ) : Prop :=
  ∀ tap ∈ taps, ⌊tap.delaySamples⌋ + 4 ≤ (ring : ℤ)

/-- A ring of the size that `prepare_tdl_state` asks for fits. -/
theorem ringFits_ringSize [IsStrictOrderedRing K] (taps : List (TapSpec K)) : RingFits taps (ringSize taps) := by
  have hmax : ∀ (l : List (TapSpec K)) (m : K), m ≤ l.foldl (fun m tap => max m tap.delaySamples) m ∧
      ∀ tap ∈ l, tap.delaySamples ≤ l.foldl (fun m tap => max m tap.delaySamples) m := by
    intro l
    induction l with
    | nil => exact fun m => ⟨le_refl m, fun tap htap => absurd htap List.not_mem_nil⟩
    | cons first l ih =>
        intro m
        obtain ⟨hle, hall⟩ := ih (max m first.delaySamples)
        rw [List.foldl_cons]
        refine ⟨(le_max_left _ _).trans hle, ?_⟩
        intro tap htap
        rcases List.mem_cons.mp htap with rfl | htap
        · exact (le_max_right _ _).trans hle
        · exact hall tap htap
  intro tap htap
  have hfloor : ⌊tap.delaySamples⌋ ≤ ⌈taps.foldl (fun m tap => max m tap.delaySamples) 0⌉ :=
    (Int.floor_le_ceil _).trans (Int.ceil_le_ceil ((hmax taps 0).2 tap htap))
  unfold ringSize kTdlFracFilterTaps
  omega

end Rooms
