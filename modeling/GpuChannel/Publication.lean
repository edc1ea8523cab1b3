/-
# No lost and no torn update

What the interleaving of commits and snaps owes the control plane: whenever a snap has
finished, the live view is what some whole prefix of the accepted messages produces, and
the prefix holds every message whose sequence-number bump the last due snap had seen.

The code has no lock between the two threads.  In every run whose accesses are undisturbed
the promise holds; a commit that overlaps a copying snap breaks it.
-/
import GpuChannel.SharedSnap
import GpuChannel.Scheduling

namespace SharedLink

variable {K : Type}

/-! ## The promise -/

section Promise

variable {v₀ : LiveView K} {s : SharedLink K}

theorem start_coherent [Field K] {link : PhysicalLinkRuntime K} (hlive : link.liveSeqno = 0)
    (hseqno : link.control.seqno = 0) (hp : link.Pending) (hst : link.staged = link.view) :
    Coherent link.view (start link) := by
  constructor
  · rfl
  · exact hseqno
  · exact le_rfl
  · exact hlive
  · exact fun _ hany => absurd hany Bool.false_ne_true
  · exact ⟨hst, hp⟩
  · exact fun _ => ⟨hst, hp⟩
  · exact fun hc => absurd hc Bool.false_ne_true
  · trivial
  · exact fun hc => absurd hc Bool.false_ne_true
  · exact ⟨0, le_rfl, le_rfl, rfl⟩

/-- With every message stored, the accesses of a slot behind an open gate make all of them live. -/
theorem Coherent.all_live (h : Coherent v₀ s) (hpc : s.pc = .idle) (hstores : s.stores = [])
    (hopen : s.link.control.takeEffectAtSlot ≤ s.link.nextSlot)
    (hwrap : s.bumps < s.seen + 2 ^ 32) : ∃ n,
    ((List.replicate n Access.snap).foldl step s).pc = .idle ∧
      ((List.replicate n Access.snap).foldl step s).link.view = v₀.after s.accepted := by
  have hsync : s.link.liveSeqno = s.seen % 2 ^ 32 := by
    have := h.synced
    rwa [hpc] at this
  have hbumps := h.bumps
  rw [hstores, List.countP_nil] at hbumps
  cases hdue : s.link.due
  · -- nothing is new: the last due snap has seen every bump
    have heq : s.link.control.seqno = s.link.liveSeqno := by
      by_contra hne
      exact absurd (hdue.symm.trans (s.link.due_iff.mpr ⟨hne, hopen⟩)) Bool.noConfusion
    have hall : s.bumps = s.seen := by
      have := h.seen
      rw [h.seqno, hsync] at heq
      omega
    obtain ⟨n, -, hseen, hout⟩ := h.prefixed
    refine ⟨0, hpc, ?_⟩
    have hview : s.link.view = v₀.after (s.accepted.take n) := by
      rw [← hout, outcome, hpc]
    have hflat := congrArg List.flatten (List.take_append_drop n s.accepted)
    have hdrop : (s.accepted.drop n).flatten = [] := by
      apply List.eq_nil_of_length_eq_zero
      have := congrArg List.length hflat
      rw [List.flatten_append, List.length_append] at this
      omega
    rw [List.flatten_append, hdrop, List.append_nil] at hflat
    rw [List.replicate_zero, List.foldl_nil, hview, LiveView.after, LiveView.after, hflat]
  · have hmid : s.midway = false := by simp [midway, hstores]
    obtain ⟨hst, hp⟩ := h.settled hmid
    obtain ⟨n, hn, hview⟩ := snap_alone hpc hp hdue hsync h.seen h.seqno
    refine ⟨n, hn, ?_⟩
    rw [hview, hst, target, hstores]
    rfl

end Promise

end SharedLink

section Runs

variable {K : Type} [Field K]

/-- **No lost and no torn update.** In every run whose accesses are undisturbed, the live view
between two snaps is that of some whole prefix of the accepted messages, which holds every
message that the last due snap had seen; and once every accepted message is stored behind an open
gate, the accesses of one slot make all of them live. -/
theorem whole_messages_live (setup : LinkSetup K) (accesses : List (Access K))
    (h : Run.Meets SharedLink.step SharedLink.Undisturbed
      (SharedLink.start (ControlPlane.preparedLink setup)) accesses) :
    let v₀ := (ControlPlane.preparedLink setup).view
    let s := accesses.foldl SharedLink.step (SharedLink.start (ControlPlane.preparedLink setup))
    s.pc = .idle →
      (∃ n ≤ s.accepted.length, s.seen ≤ (s.accepted.take n).flatten.length ∧
        s.link.view = v₀.after (s.accepted.take n)) ∧
      (s.stores = [] → s.link.control.takeEffectAtSlot ≤ s.link.nextSlot →
        s.bumps < s.seen + 2 ^ 32 → ∃ n,
          ((List.replicate n Access.snap).foldl SharedLink.step s).pc = .idle ∧
          ((List.replicate n Access.snap).foldl SharedLink.step s).link.view =
            v₀.after s.accepted) := by
  intro v₀ s hpc
  have hs : SharedLink.Coherent v₀ s := h.invariant SharedLink.step_coherent
    (SharedLink.start_coherent rfl rfl
      ⟨fun h => absurd h Bool.false_ne_true, fun h => absurd h Bool.false_ne_true⟩ rfl)
  refine ⟨?_, hs.all_live hpc⟩
  obtain ⟨n, hn, hseen, hout⟩ := hs.prefixed
  refine ⟨n, hn, hseen, ?_⟩
  rw [← hout, SharedLink.outcome, hpc]

end Runs

/-! ## Concrete runs -/

/-- A tap layout for the link `l`. -/
def profileMessage (gains : List ℚ) : JsonObject ℚ :=
  [("type", .string "profile_swap"), ("link_id", .string "l"),
    ("taps", .array (gains.map fun g => .object [("gain_db", .number g)]))]

/-- What the message commits to the link. -/
def committed (fields : JsonObject ℚ) : List (Commit ℚ) :=
  (scheduledPlane.1.handled fields).published.map fun p => .single p.gate p.update

/-- A commit that nothing interrupts. -/
def storeAll (c : Commit ℚ) : List (Access ℚ) :=
  .accept c :: List.replicate c.stores.length .store

def sharedStart : SharedLink ℚ := .start (ControlPlane.preparedLink scheduledLink)

/-- Two swaps, each snapped before the next message. -/
def undisturbedRun : List (Access ℚ) :=
  (committed (profileMessage [-3, -6])).flatMap storeAll ++ List.replicate 54 .snap ++
    (committed (scalarMessage "cfo_hz" 5 0)).flatMap storeAll ++ List.replicate 14 .snap

/-- A second swap is stored when the snap has copied the first member of the first. -/
def tornRun : List (Access ℚ) :=
  (committed (profileMessage [-3, -6])).flatMap storeAll ++ List.replicate 14 .snap ++
    (committed (profileMessage [-9])).flatMap storeAll ++ List.replicate 40 .snap


def undisturbedEnd : SharedLink ℚ := undisturbedRun.foldl SharedLink.step sharedStart

def tornEnd : SharedLink ℚ := tornRun.foldl SharedLink.step sharedStart

/-- One more slot. -/
def tornNextSlot : SharedLink ℚ := (List.replicate 14 Access.snap).foldl SharedLink.step tornEnd

theorem whole_messages_live_undisturbedRun : undisturbedEnd.pc = .idle ∧
    ∃ n ≤ undisturbedEnd.accepted.length,
      2 ≤ (undisturbedEnd.accepted.take n).flatten.length ∧
      undisturbedEnd.link.view = sharedStart.link.view.after (undisturbedEnd.accepted.take n) := by
  have hidle : undisturbedEnd.pc = .idle := by decide +kernel
  have hseen : undisturbedEnd.seen = 2 := by decide +kernel
  have hmeets : Run.Meets SharedLink.step SharedLink.Undisturbed sharedStart undisturbedRun := by
    decide +kernel
  obtain ⟨n, hn, hle, hview⟩ := (whole_messages_live scheduledLink undisturbedRun hmeets hidle).1
  exact ⟨hidle, n, hn, hseen ▸ hle, hview⟩

/-- Both swaps are accepted, but no prefix of them is live when the snap has finished, nor
after the snap of the next slot: the first swap is torn and the second is lost. -/
theorem overlapping_swap_is_torn :
    (scheduledPlane.1.handled (profileMessage [-3, -6])).reply.ok = true ∧
      (scheduledPlane.1.handled (profileMessage [-9])).reply.ok = true ∧
      tornEnd.pc = .idle ∧ tornEnd.accepted.length = 2 ∧
      (∀ n ≤ 2, tornEnd.link.view ≠ sharedStart.link.view.after (tornEnd.accepted.take n)) ∧
      tornNextSlot.pc = .idle ∧ tornNextSlot.seen = 2 ∧
      ∀ n ≤ 2, tornNextSlot.link.view ≠ sharedStart.link.view.after (tornEnd.accepted.take n) := by
  decide +kernel
