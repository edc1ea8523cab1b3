/-
# What the warm-up window covers

After a reset the rings hold zeros, and a tap of delay `τ` reads back to `⌊τ⌋ + 4` samples
before its output.  The window is a number of slots; whether it outlasts the history depends on
the samples that its slots bring.  A window in which every slot brings its share of the history
covers it.
-/
import GpuChannel.Warmup

/-! ## What a snap without a reset keeps -/

section Compatible

variable {K : Type} [Field K] [LinearOrder K] [FloorRing K]

/-- The span of the taps depends on their delays only. -/
theorem tapSpan_congr {s t : List (TapSpec K)}
    (h : s.map (·.delaySamples) = t.map (·.delaySamples)) : tapSpan s = tapSpan t := by
  have hmap : ∀ taps : List (TapSpec K), tapSpan taps
      = (taps.map (·.delaySamples)).foldl
        (fun size delay => max size (⌈delay⌉.toNat + kTdlFracFilterTaps)) 0 := by
    intro taps
    rw [List.foldl_map]
    rfl
  rw [hmap, hmap, h]

/-- A map that agrees on the pairs agrees on the lists. -/
theorem map_eq_map_of_zip {α β : Type} (f : α → β) {s t : List α} (hlen : s.length = t.length)
    (h : ∀ xy ∈ s.zip t, f xy.1 = f xy.2) : s.map f = t.map f := by
  induction s generalizing t with
  | nil =>
      cases t with
      | nil => rfl
      | cons y t => cases hlen
  | cons x s ih =>
      cases t with
      | nil => cases hlen
      | cons y t =>
          rw [List.map_cons, List.map_cons, h (x, y) List.mem_cons_self,
            ih (Nat.succ.inj hlen) fun xy hxy => h xy (List.mem_cons_of_mem _ hxy)]

omit [Field K] [LinearOrder K] [FloorRing K] in
/-- A profile has its declared number of taps, up to the device's maximum. -/
theorem ProfileShadow.tapList_length (p : ProfileShadow K) :
    p.tapList.length = min p.nTaps kDeviceMaxTaps := by
  unfold tapList
  rw [List.length_map, List.length_take, List.length_finRange]

omit [Field K] [FloorRing K] in
/-- Profiles of one history have the same delays. -/
theorem ProfileShadow.historyCompatible_delays {a b : ProfileShadow K}
    (h : a.historyCompatible b = true) :
    a.tapList.map (·.delaySamples) = b.tapList.map (·.delaySamples) := by
  obtain ⟨hn, -, -, -, -, -, hall⟩ := of_decide_eq_true h
  apply map_eq_map_of_zip
  · rw [a.tapList_length, b.tapList_length, hn]
  · intro xy hxy
    exact (of_decide_eq_true (List.all_eq_true.mp hall xy hxy)).1

/-- Matrices that keep the history have the same delays. -/
theorem matrixHistoryCompatible_span {a b : MatrixProfileShadow K}
    (h : matrixHistoryCompatible a b = true) : tapSpan a.tapList = tapSpan b.tapList := by
  obtain ⟨-, -, hcount, hall⟩ := of_decide_eq_true h
  apply tapSpan_congr
  unfold MatrixProfileShadow.tapList
  rw [← hcount, List.map_flatMap, List.map_flatMap]
  rw [List.all_eq_true] at hall
  revert hall
  induction (List.finRange kMaxCorrelatedLanes).take a.laneCount with
  | nil => exact fun _ => rfl
  | cons l ls ih =>
      intro hall
      rw [List.flatMap_cons, List.flatMap_cons, ih fun x hx => hall x (List.mem_cons_of_mem l hx),
        ProfileShadow.historyCompatible_delays (hall l List.mem_cons_self)]

end Compatible

namespace PhysicalLinkRuntime

variable {K : Type} [Field K] [LinearOrder K] [FloorRing K] {link : PhysicalLinkRuntime K}

omit [Field K] [LinearOrder K] [FloorRing K] in
/-- Without a profile to take the profile block does nothing. -/
theorem snapProfile_of_not_takes {s : PhysicalLinkRuntime K × LinkSnapOutcome}
    (h : s.1.takesProfile = false) : snapProfile s = s := by
  have hno : ¬ (s.2.valuesChanged ∧ s.1.control.profilePending ∧ s.1.profileEligible) := by
    rintro ⟨-, hp, he⟩
    rw [takesProfile, hp, he] at h
    cases h
  unfold snapProfile
  dsimp only
  rw [if_neg hno]

omit [Field K] [FloorRing K] in
/-- Without a matrix to take the matrix block does nothing. -/
theorem snapMatrix_of_not_takes {s : PhysicalLinkRuntime K × LinkSnapOutcome}
    (h : s.1.takesMatrix = false) : snapMatrix s = s := by
  have hno : ¬ (s.2.valuesChanged ∧ s.1.control.matrixProfilePending ∧ s.1.matrixEligible) := by
    rintro ⟨-, hp, he⟩
    rw [takesMatrix, hp, he] at h
    cases h
  unfold snapMatrix
  dsimp only
  rw [if_neg hno]

omit [Field K] [FloorRing K] in
/-- A taken matrix becomes the layout. -/
theorem snapMatrix_layout {s : PhysicalLinkRuntime K × LinkSnapOutcome}
    (hchanged : s.2.valuesChanged = true) (h : s.1.takesMatrix = true) :
    (snapMatrix s).1.layout = .matrix s.1.control.shadowMatrixProfile := by
  obtain ⟨hp, he⟩ := Bool.and_eq_true_iff.mp h
  unfold snapMatrix
  dsimp only
  rw [if_pos ⟨hchanged, hp, he⟩]
  rfl

omit [Field K] [LinearOrder K] [FloorRing K] in
/-- The correlation block leaves the layout alone. -/
theorem snapCorrelation_layout (s : PhysicalLinkRuntime K × LinkSnapOutcome) :
    (snapCorrelation s).1.layout = s.1.layout := by
  unfold snapCorrelation
  dsimp only
  split_ifs <;> rfl

/-- A snap that resets nothing leaves the layout, or exchanges a matrix for a compatible one. -/
theorem snap_layout_of_not_opens (h : link.opens = false) (count : ℕ) :
    (link.snap count).1.layout = link.layout ∨ ∃ live shadow, link.layout = .matrix live ∧
      (link.snap count).1.layout = .matrix shadow ∧ matrixHistoryCompatible live shadow = true := by
  cases hdue : link.due
  · obtain ⟨w, hw⟩ := link.snap_of_not_due count hdue
    rw [hw]
    exact Or.inl rfl
  · have hchanged := link.snapValues_valuesChanged
    rw [hdue] at hchanged
    have hvalues := snapValues_of_due link hdue
    unfold opens at h
    rw [hdue, Bool.true_and, Bool.or_eq_false_iff] at h
    obtain ⟨hprofile, hmatrix⟩ := h
    have hlayout : (link.snap count).1.layout = (snapMatrix link.snapValues).1.layout := by
      have hskip : snapProfile link.snapValues = link.snapValues := by
        apply snapProfile_of_not_takes
        rw [hvalues]
        exact hprofile
      have hblocks : (link.snap count).1.layout
          = (snapCorrelation (snapMatrix (snapProfile link.snapValues))).1.layout := rfl
      rw [hblocks, snapCorrelation_layout, hskip]
    rw [hlayout]
    cases ht : link.takesMatrix
    · rw [snapMatrix_of_not_takes (by rw [hvalues]; exact ht), hvalues]
      exact Or.inl rfl
    · rw [ht, Bool.true_and, Bool.not_eq_false', Bool.and_eq_true] at hmatrix
      rw [snapMatrix_layout hchanged (by rw [hvalues]; exact ht), snapValues_control]
      refine Or.inr ⟨link.liveMatrixProfile, _, ?_, rfl, hmatrix.2⟩
      unfold layout
      rw [if_pos hmatrix.1]

/-- A snap that resets nothing leaves the span of the layout. -/
theorem snap_historyNeeded (h : link.opens = false) (count : ℕ) :
    historyNeeded (link.snap count).1.layout = historyNeeded link.layout := by
  rcases snap_layout_of_not_opens h count with hsame | ⟨live, shadow, hlive, hshadow, hcompatible⟩
  · rw [hsame]
  · rw [hlive, hshadow]
    exact congrArg (· - 4) (matrixHistoryCompatible_span hcompatible).symm

/-- A snap that resets the history puts the staged layout in place. -/
theorem snap_layout_of_opens (h : link.opens = true) (hp : link.Pending) (count : ℕ) :
    (link.snap count).1.layout = link.stagedLayout := by
  have hdue : link.due = true := by
    unfold opens at h
    exact (Bool.and_eq_true_iff.mp h).1
  exact congrArg LiveView.layout (link.snap_of_due count hdue hp).1

end PhysicalLinkRuntime

/-! ## The samples of a window -/

section Windows

variable {K : Type} [Field K] [LinearOrder K] [FloorRing K] [Libm K]

/-- The control plane, and of one link the slot that opened its last window and the samples that
were processed from that slot on. -/
structure WindowWatch (K : Type) where
  plane : ControlPlane K
  begun : ℕ
  processed : ℕ

/-- One step of the plane; a slot of the link counts its samples. -/
def watchWindow (linkId : String) (w : WindowWatch K) (e : ControlEvent K) : WindowWatch K :=
  match e with
  | .message _ => { w with plane := w.plane.step e }
  | .slot id count =>
      match w.plane.links linkId with
      | some link =>
          if id = linkId then
            if (link.snap count).2.historyResetRequired then
              { plane := w.plane.step e, begun := link.nextSlot, processed := count }
            else { w with plane := w.plane.step e, processed := w.processed + count }
          else { w with plane := w.plane.step e }
      | none => { w with plane := w.plane.step e }

/-- **A slot brings its share** of the history that its window has to outlast. -/
def BringsShare (linkId : String) (w : WindowWatch K) (e : ControlEvent K) : Prop :=
  match e with
  | .message _ => True
  | .slot id count =>
      id = linkId → ∀ link, w.plane.links linkId = some link →
        if link.opens then
          historyNeeded link.stagedLayout ≤ count * windowSlots link.windowSamples count
        else link.nextSlot < link.warmupUntilSlot →
          historyNeeded link.layout ≤ count * (link.warmupUntilSlot - w.begun)

/-- Inside a window, the samples so far are the share of the slots so far. -/
structure Filling (link : PhysicalLinkRuntime K) (begun processed : ℕ) : Prop where
  chainHasLeadingTdl : link.chainHasLeadingTdl = true
  inside : link.warmupUntilSlot ≠ 0 → begun < link.nextSlot ∧ link.nextSlot ≤ link.warmupUntilSlot
  share : link.warmupUntilSlot ≠ 0 →
    historyNeeded link.layout * (link.nextSlot - begun)
      ≤ processed * (link.warmupUntilSlot - begun)

namespace Filling

variable {link : PhysicalLinkRuntime K} {begun processed : ℕ}

omit [Libm K] in
/-- A publication leaves the window filling. -/
theorem publish (h : Filling link begun processed) (gate : ℕ) (u : Update K) :
    Filling (link.publish gate u) begun processed :=
  ⟨h.chainHasLeadingTdl, h.inside, h.share⟩

omit [Libm K] in
/-- While the window fills, what is pending is in order. -/
theorem pending (h : Filling link begun processed) : link.Pending := by
  constructor
  · intro _
    unfold PhysicalLinkRuntime.profileEligible
    rw [h.chainHasLeadingTdl, Bool.true_or]
  · intro _
    unfold PhysicalLinkRuntime.matrixEligible
    rw [h.chainHasLeadingTdl, Bool.true_or]

omit [Libm K] in
/-- The slot that opens a window. -/
theorem snap_opens (h : Filling link begun processed) (hopens : link.opens = true) {count : ℕ}
    (hshare : historyNeeded link.stagedLayout ≤ count * windowSlots link.windowSamples count) :
    Filling (link.snap count).1 link.nextSlot count := by
  have hwindow := (link.snap_window count).2
  rw [PhysicalLinkRuntime.windowEnd, if_pos hopens] at hwindow
  have hpos := PhysicalLinkRuntime.windowSlots_pos link.windowSamples count
  constructor
  · rw [PhysicalLinkRuntime.snap_chainHasLeadingTdl, h.chainHasLeadingTdl]
  · intro _
    rw [hwindow, PhysicalLinkRuntime.snap_nextSlot]
    omega
  · intro _
    rw [hwindow, PhysicalLinkRuntime.snap_nextSlot,
      PhysicalLinkRuntime.snap_layout_of_opens hopens h.pending, Nat.add_sub_cancel_left,
      Nat.add_sub_cancel_left, Nat.mul_one]
    exact hshare

omit [Libm K] in
/-- A later slot. -/
theorem snap_continues (h : Filling link begun processed) (hopens : link.opens = false)
    {count : ℕ} (hshare : link.nextSlot < link.warmupUntilSlot →
      historyNeeded link.layout ≤ count * (link.warmupUntilSlot - begun)) :
    Filling (link.snap count).1 begun (processed + count) := by
  have hwindow := (link.snap_window count).2
  rw [PhysicalLinkRuntime.windowEnd, hopens] at hwindow
  simp only [Bool.false_eq_true, if_false] at hwindow
  constructor
  · rw [PhysicalLinkRuntime.snap_chainHasLeadingTdl, h.chainHasLeadingTdl]
  · intro hne
    rw [hwindow] at hne ⊢
    split_ifs at hne ⊢ with hle
    · exact absurd rfl hne
    · have hbegun := (h.inside hne).1
      rw [PhysicalLinkRuntime.snap_nextSlot]
      omega
  · intro hne
    rw [hwindow] at hne ⊢
    split_ifs at hne ⊢ with hle
    · exact absurd rfl hne
    · have hbegun := (h.inside hne).1
      have hnext : link.nextSlot + 1 - begun = (link.nextSlot - begun) + 1 := by omega
      rw [PhysicalLinkRuntime.snap_nextSlot, PhysicalLinkRuntime.snap_historyNeeded hopens, hnext,
        Nat.mul_add, Nat.mul_one, Nat.add_mul]
      exact Nat.add_le_add (h.share hne) (hshare (not_le.mp hle))

omit [Libm K] in
/-- **The slot that closes a window** finds the history filled. -/
theorem closes (h : Filling link begun processed) {count : ℕ} (hopen : link.warmupUntilSlot ≠ 0)
    (hclosed : (link.snap count).1.warmupUntilSlot = 0) :
    historyNeeded (link.snap count).1.layout ≤ processed := by
  have hwindow := (link.snap_window count).2
  rw [hclosed] at hwindow
  unfold PhysicalLinkRuntime.windowEnd at hwindow
  cases hopens : link.opens
  · rw [hopens] at hwindow
    simp only [Bool.false_eq_true, if_false] at hwindow
    have hle : link.warmupUntilSlot ≤ link.nextSlot := by
      by_contra hlt
      rw [if_neg hlt] at hwindow
      exact hopen hwindow.symm
    obtain ⟨hbegun, hnext⟩ := h.inside hopen
    have hshare := h.share hopen
    have hend : link.warmupUntilSlot - begun = link.nextSlot - begun := by omega
    rw [PhysicalLinkRuntime.snap_historyNeeded hopens]
    rw [hend] at hshare
    exact Nat.le_of_mul_le_mul_right hshare (by omega)
  · rw [hopens, if_pos rfl] at hwindow
    have hpos := PhysicalLinkRuntime.windowSlots_pos link.windowSamples count
    omega

end Filling

/-- The watched link, if it exists, fills its window. -/
def Watches (linkId : String) (w : WindowWatch K) : Prop :=
  ∀ link, w.plane.links linkId = some link → Filling link w.begun w.processed

/-- Links that lead with a tdl, before the first message. -/
def watchedStart (cap : ℤ) (backendName : String) (setup : String → Option (LinkSetup K)) :
    WindowWatch K :=
  { plane := ControlPlane.prepared cap backendName setup, begun := 0, processed := 0 }

omit [Libm K] in
/-- The watched link is watched from the start. -/
theorem watchedStart_watches (cap : ℤ) (backendName : String)
    (setup : String → Option (LinkSetup K)) {linkId : String}
    (htdl : ∀ s, setup linkId = some s → s.chainHasLeadingTdl = true) :
    Watches linkId (watchedStart cap backendName setup) := by
  intro link hlink
  obtain ⟨s, hs, rfl⟩ := Option.map_eq_some_iff.mp hlink
  exact ⟨htdl s hs, fun hne => absurd rfl hne, fun hne => absurd rfl hne⟩

/-- A step whose slot brings its share keeps the window filling. -/
theorem watchWindow_watches {linkId : String} (w : WindowWatch K) (e : ControlEvent K)
    (h : Watches linkId w) (hshare : BringsShare linkId w e) :
    Watches linkId (watchWindow linkId w e) := by
  intro link' hlink'
  cases e with
  | message fields =>
      -- publications do not move the window
      change (w.plane.step (.message fields)).links linkId = some link' at hlink'
      rw [ControlPlane.step_message_links] at hlink'
      obtain ⟨link, hlink, rfl⟩ := Option.map_eq_some_iff.mp hlink'
      change Filling (LinkTable.publishTo linkId _ link) w.begun w.processed
      unfold LinkTable.publishTo
      exact Run.invariant (I := fun l => Filling l w.begun w.processed)
        (fun l p hl => hl.publish p.gate p.update) (h link hlink) _
  | slot id count =>
      unfold watchWindow at hlink' ⊢
      cases hlink : w.plane.links linkId with
      | none =>
          rw [hlink] at hlink'
          by_cases hid : linkId = id
          · subst hid
            change (w.plane.step (.slot linkId count)).links linkId = some link' at hlink'
            rw [ControlPlane.step_slot_links, hlink] at hlink'
            cases hlink'
          · change (w.plane.step (.slot id count)).links linkId = some link' at hlink'
            rw [ControlPlane.step_slot_links_of_ne _ hid, hlink] at hlink'
            cases hlink'
      | some link =>
          rw [hlink] at hlink'
          dsimp only at hlink' ⊢
          -- a slot of another link leaves the watched one alone
          by_cases hid : id = linkId
          · subst hid
            have hstep := hshare rfl link hlink
            have hfilling := h link hlink
            simp only [if_true] at hlink' ⊢
            rw [(link.snap_window count).1] at hlink' ⊢
            -- the window goes on, or opens anew with the first samples of this slot
            cases hopens : link.opens
            · rw [hopens] at hlink' hstep
              simp only [Bool.false_eq_true, if_false] at hlink' hstep ⊢
              rw [ControlPlane.step_slot_links, hlink] at hlink'
              obtain rfl := Option.some.inj hlink'
              exact hfilling.snap_continues hopens hstep
            · rw [hopens] at hlink' hstep
              simp only [if_true] at hlink' hstep ⊢
              rw [ControlPlane.step_slot_links, hlink] at hlink'
              obtain rfl := Option.some.inj hlink'
              exact hfilling.snap_opens hopens hstep
          · rw [if_neg hid] at hlink' ⊢
            rw [ControlPlane.step_slot_links_of_ne _ (Ne.symm hid), hlink] at hlink'
            obtain rfl := Option.some.inj hlink'
            exact h link hlink

/-- **The window covers the history** in every run whose slots bring their share: the slot that
closes a window of the link comes after as many samples as its taps reach back, and no output
from there on reads what came before the window. -/
theorem window_covers_history [IsStrictOrderedRing K] (cap : ℤ) (backendName : String)
    (setup : String → Option (LinkSetup K)) (linkId : String)
    (htdl : ∀ s, setup linkId = some s → s.chainHasLeadingTdl = true)
    (events : List (ControlEvent K))
    (hshare : Run.Meets (watchWindow linkId) (BringsShare linkId)
      (watchedStart cap backendName setup) events)
    (link : PhysicalLinkRuntime K) (count : ℕ)
    (hlink : (events.foldl (watchWindow linkId)
      (watchedStart cap backendName setup)).plane.links linkId = some link)
    (hopen : link.warmupUntilSlot ≠ 0) (hclosed : (link.snap count).1.warmupUntilSlot = 0) :
    let w := events.foldl (watchWindow linkId) (watchedStart cap backendName setup)
    (∀ tap ∈ (link.snap count).1.layout.tapList,
        ⌈tap.delaySamples⌉.toNat + kTdlFracFilterTaps - 4 ≤ w.processed)
      ∧ ∀ tap ∈ (link.snap count).1.layout.tapList, ∀ n ≥ w.processed,
        ∀ i : Fin kTdlFracFilterTaps, 0 ≤ (n : ℤ) - ⌊tap.delaySamples⌋ + 3 - i.val := by
  intro w
  have hw : Watches linkId w :=
    hshare.invariant watchWindow_watches (watchedStart_watches cap backendName setup htdl)
  have hcovered := (hw link hlink).closes hopen hclosed
  have hlong : ∀ tap ∈ (link.snap count).1.layout.tapList,
      ⌈tap.delaySamples⌉.toNat + kTdlFracFilterTaps - 4 ≤ w.processed := by
    intro tap htap
    exact (Nat.sub_le_sub_right (tapSpan_of_mem htap) 4).trans hcovered
  refine ⟨hlong, ?_⟩
  intro tap htap n hn i
  have hreach := hlong tap htap
  have hfloor : ⌊tap.delaySamples⌋ ≤ ⌈tap.delaySamples⌉ := Int.floor_le_ceil _
  have hceil := Int.self_le_toNat ⌈tap.delaySamples⌉
  have hi := i.isLt
  simp only [kTdlFracFilterTaps] at hreach hi
  omega

end Windows

/-! ## Concrete runs -/

/-- A swap to one tap of this delay. -/
def farPath (delay : ℚ) : JsonObject ℚ :=
  [("type", .string "profile_swap"), ("link_id", .string "l"),
    ("taps", .array [.object [("delay_samples", .number delay)]])]

/-- A swap, and then slots of these sizes. -/
def swapRun (delay : ℚ) (sizes : List ℕ) : WindowWatch ℚ :=
  (.message (farPath delay) :: sizes.map (.slot "l")).foldl (watchWindow "l")
    (watchedStart 0 "cpu" slowSetup)

instance (linkId : String) (w : WindowWatch ℚ) (e : ControlEvent ℚ) :
    Decidable (BringsShare linkId w e) := by
  cases e with
  | message fields => exact .isTrue trivial
  | slot id count =>
      refine decidable_of_iff (id = linkId → ((w.plane.links linkId).all fun link =>
        decide (if link.opens then
            historyNeeded link.stagedLayout ≤ count * windowSlots link.windowSamples count
          else link.nextSlot < link.warmupUntilSlot →
            historyNeeded link.layout ≤ count * (link.warmupUntilSlot - w.begun))) = true) ?_
      unfold BringsShare
      refine imp_congr_right fun _ => ?_
      cases w.plane.links linkId with
      | none => simp
      | some link => simp only [Option.all_some, decide_eq_true_eq, Option.some.injEq, forall_eq']

theorem window_covers_history_uneven : ∃ link : PhysicalLinkRuntime ℚ,
    (swapRun 50 [40, 30, 90]).plane.links "l" = some link ∧
      ∀ tap ∈ (link.snap 40).1.layout.tapList,
        ⌈tap.delaySamples⌉.toNat + kTdlFracFilterTaps - 4 ≤ (swapRun 50 [40, 30, 90]).processed := by
  have hclosing : ((swapRun 50 [40, 30, 90]).plane.links "l").any (fun link =>
      decide (link.warmupUntilSlot ≠ 0) && decide ((link.snap 40).1.warmupUntilSlot = 0)) = true := by
    decide +kernel
  cases hlink : (swapRun 50 [40, 30, 90]).plane.links "l" with
  | none =>
      rw [hlink] at hclosing
      cases hclosing
  | some link =>
      rw [hlink] at hclosing
      obtain ⟨hopen, hclosed⟩ := Bool.and_eq_true_iff.mp hclosing
      exact ⟨link, rfl, (window_covers_history 0 "cpu" slowSetup "l" (by decide +kernel)
        (.message (farPath 50) :: [40, 30, 90].map (.slot "l")) (by decide +kernel) link 40 hlink
        (of_decide_eq_true hopen) (of_decide_eq_true hclosed)).1⟩

/-- A profile longer than the declared ring: ten slots of ten samples, and the window closes
900 samples too early.  A shorter profile: the first slot has ten samples, the others one. -/
theorem window_misses_history :
    ((swapRun 1000 (List.replicate 10 10)).plane.links "l").any (fun link =>
        decide (link.warmupUntilSlot ≠ 0) && decide ((link.snap 10).1.warmupUntilSlot = 0) &&
          decide ((swapRun 1000 (List.replicate 10 10)).processed
            < historyNeeded (link.snap 10).1.layout)) = true
      ∧ ((swapRun 50 (10 :: List.replicate 9 1)).plane.links "l").any (fun link =>
        decide (link.warmupUntilSlot ≠ 0) && decide ((link.snap 1).1.warmupUntilSlot = 0) &&
          decide ((swapRun 50 (10 :: List.replicate 9 1)).processed
            < historyNeeded (link.snap 1).1.layout)) = true := by
  decide +kernel
