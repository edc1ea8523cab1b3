/-
# The accesses of a snap

One access of a copying snap changes neither what is staged nor what the snap will come to.
With the tests before the copies this gives the data plane's half of the invariant, and, for a
snap that runs on its own, that it finishes with what was staged.
-/
import GpuChannel.SharedInvariant

namespace SharedLink

variable {K : Type}

/-! ### Snaps -/

/-- What a copying snap leaves alone. -/
def history (s : SharedLink K) : List (Store K) × List (List (Update K)) × Bool × Bool × ℕ × ℕ :=
  (s.stores, s.accepted, s.touched, s.raced, s.bumps, s.seen)

/-- **One access of a copying snap** keeps what is staged and what the snap will come to. -/
structure Copies (s t : SharedLink K) : Prop where
  history : t.history = s.history
  seqno : t.link.control.seqno = s.link.control.seqno
  lead : t.link.chainHasLeadingTdl = s.link.chainHasLeadingTdl
  synced : t.Synced t.pc
  staged : t.link.staged = s.link.staged
  pending : t.link.Pending
  phase : t.Phase t.pc
  outcome : t.outcome = s.outcome

section CopyingSnap

variable {s : SharedLink K}

/-- An access that only moves on to another test or another copy. -/
theorem copies_jump {pc' : SnapPc} (hsync : s.Synced pc') (hp : s.link.Pending)
    (hphase : s.Phase pc') (hout : ({ s with pc := pc' } : SharedLink K).outcome = s.outcome) :
    Copies s { s with pc := pc' } := by
  constructor
  · rfl
  · rfl
  · rfl
  · cases pc' <;> exact hsync
  · rfl
  · exact hp
  · cases pc' <;> exact hphase
  · exact hout

theorem copyParams_copies {observed : ℕ} {rest : List ParamField}
    (hpc : s.pc = .copyParams observed rest) (hp : s.link.Pending) (hsync : s.Synced s.pc) :
    Copies s s.snapStep := by
  obtain ⟨link, stores, pc, scratch, accepted, touched, raced, bumps, seen⟩ := s
  subst hpc
  cases rest with
  | nil => exact ⟨rfl, rfl, rfl, hsync, rfl, ⟨hp.profile, hp.matrix⟩, trivial, rfl⟩
  | cons f rest => exact ⟨rfl, rfl, rfl, hsync, rfl, ⟨hp.profile, hp.matrix⟩, trivial, rfl⟩

theorem profileTests_copies (hpc : s.pc = .loadProfilePending ∨ s.pc = .loadProfileForce ∨
      s.pc = .retestProfilePending) (hp : s.link.Pending) (hsync : s.Synced s.pc)
    (hphase : s.Phase s.pc) : Copies s s.snapStep := by
  obtain ⟨link, stores, pc, scratch, accepted, touched, raced, bumps, seen⟩ := s
  rcases hpc with hpc | hpc | hpc <;> subst hpc
  · cases hpend : link.control.profilePending
    · simp only [snapStep, hpend]
      exact copies_jump hsync hp hpend rfl
    · cases hlead : link.chainHasLeadingTdl
      · simp only [snapStep, hpend, hlead]
        exact copies_jump hsync hp ⟨hpend, hlead⟩ rfl
      · simp only [snapStep, hpend, hlead]
        exact copies_jump hsync hp trivial rfl
  · -- a swap without force on a chain without a leading tdl is not among the accepted ones
    obtain ⟨hpend, (hlead : link.chainHasLeadingTdl = false)⟩ := hphase
    have hforce : link.control.shadowProfile.force = true := by
      simpa [PhysicalLinkRuntime.profileEligible, hlead] using hp.profile hpend
    simp only [snapStep, hforce]
    exact copies_jump hsync hp trivial rfl
  · cases hpend : link.control.profilePending
    · simp only [snapStep, hpend]
      exact copies_jump hsync hp hpend rfl
    · simp only [snapStep, hpend]
      exact copies_jump hsync hp ⟨hpend, Cells.Copying.start _ _⟩ rfl

theorem copyProfile_copies {rest : List ProfileCell} (hpc : s.pc = .copyProfile rest)
    (hp : s.link.Pending) (hsync : s.Synced s.pc) (hphase : s.Phase s.pc) :
    Copies s s.snapStep := by
  obtain ⟨link, stores, pc, scratch, accepted, touched, raced, bumps, seen⟩ := s
  subst hpc
  obtain ⟨(hpend : link.control.profilePending = true), hcopy⟩ := hphase
  cases rest with
  | nil =>
      have hlive : link.liveProfile = link.control.shadowProfile := hcopy.done
      have hlayout : (snapStep ⟨link, stores, .copyProfile [], scratch, accepted, touched, raced,
          bumps, seen⟩).link.stagedLayout = link.stagedLayout := by
        simp [snapStep, PhysicalLinkRuntime.stagedLayout, PhysicalLinkRuntime.layout, hpend, hlive]
      refine ⟨rfl, rfl, rfl, hsync, ?_, ⟨fun h => absurd h Bool.false_ne_true, hp.matrix⟩, rfl, ?_⟩
      · exact congrArg (LiveView.mk link.control.shadow · link.stagedMixing) hlayout
      · exact congrArg (LiveView.mk link.live · link.stagedMixing) hlayout
  | cons c rest =>
      have hlayout : (snapStep ⟨link, stores, .copyProfile (c :: rest), scratch, accepted, touched,
          raced, bumps, seen⟩).link.stagedLayout = link.stagedLayout := by
        simp [snapStep, PhysicalLinkRuntime.stagedLayout, hpend]
      refine ⟨rfl, rfl, rfl, hsync, ?_, ⟨hp.profile, hp.matrix⟩, ⟨hpend, hcopy.next⟩, ?_⟩
      · exact congrArg (LiveView.mk link.control.shadow · link.stagedMixing) hlayout
      · exact congrArg (LiveView.mk link.live · link.stagedMixing) hlayout

theorem matrixTests_copies (hpc : s.pc = .loadMatrixPending ∨ s.pc = .loadMatrixForce ∨
      s.pc = .retestMatrixPending) (hp : s.link.Pending) (hsync : s.Synced s.pc)
    (hphase : s.Phase s.pc) : Copies s s.snapStep := by
  obtain ⟨link, stores, pc, scratch, accepted, touched, raced, bumps, seen⟩ := s
  rcases hpc with hpc | hpc | hpc <;> subst hpc
  · have hno : link.control.profilePending = false := hphase
    cases hpend : link.control.matrixProfilePending
    · simp only [snapStep, hpend]
      exact copies_jump hsync hp ⟨hno, hpend⟩ rfl
    · cases hlead : link.chainHasLeadingTdl
      · simp only [snapStep, hpend, hlead]
        exact copies_jump hsync hp ⟨hno, hpend, hlead⟩ rfl
      · simp only [snapStep, hpend, hlead]
        exact copies_jump hsync hp hno rfl
  · obtain ⟨hno, hpend, (hlead : link.chainHasLeadingTdl = false)⟩ := hphase
    have hforce : (link.control.shadowMatrixProfile.lanes 0).force = true := by
      simpa [PhysicalLinkRuntime.matrixEligible, hlead] using hp.matrix hpend
    simp only [snapStep, hforce]
    exact copies_jump hsync hp hno rfl
  · have hno : link.control.profilePending = false := hphase
    cases hpend : link.control.matrixProfilePending
    · simp only [snapStep, hpend]
      exact copies_jump hsync hp ⟨hno, hpend⟩ rfl
    · simp only [snapStep, hpend]
      exact copies_jump hsync hp ⟨hno, hpend, Cells.Copying.start _ _⟩ rfl

theorem copyMatrix_copies {rest : List MatrixCell} (hpc : s.pc = .copyMatrix rest)
    (hp : s.link.Pending) (hsync : s.Synced s.pc) (hphase : s.Phase s.pc) :
    Copies s s.snapStep := by
  obtain ⟨link, stores, pc, scratch, accepted, touched, raced, bumps, seen⟩ := s
  subst hpc
  obtain ⟨(hno : link.control.profilePending = false),
    (hpend : link.control.matrixProfilePending = true), hcopy⟩ := hphase
  cases rest with
  | nil =>
      have hlive : link.liveMatrixProfile = link.control.shadowMatrixProfile := hcopy.done
      have hlayout : (snapStep ⟨link, stores, .copyMatrix [], scratch, accepted, touched, raced,
          bumps, seen⟩).link.stagedLayout = link.stagedLayout := by
        simp [snapStep, PhysicalLinkRuntime.stagedLayout, PhysicalLinkRuntime.layout, hno, hpend,
          hlive]
      refine ⟨rfl, rfl, rfl, hsync, ?_, ⟨hp.profile, fun h => absurd h Bool.false_ne_true⟩,
        ⟨hno, rfl⟩, ?_⟩
      · exact congrArg (LiveView.mk link.control.shadow · link.stagedMixing) hlayout
      · exact congrArg (LiveView.mk link.live · link.stagedMixing) hlayout
  | cons c rest =>
      have hlayout : (snapStep ⟨link, stores, .copyMatrix (c :: rest), scratch, accepted, touched,
          raced, bumps, seen⟩).link.stagedLayout = link.stagedLayout := by
        simp [snapStep, PhysicalLinkRuntime.stagedLayout, hpend]
      refine ⟨rfl, rfl, rfl, hsync, ?_, ⟨hp.profile, hp.matrix⟩, ⟨hno, hpend, hcopy.next⟩, ?_⟩
      · exact congrArg (LiveView.mk link.control.shadow · link.stagedMixing) hlayout
      · exact congrArg (LiveView.mk link.live · link.stagedMixing) hlayout

/-- With nothing pending, what is staged is what is live. -/
theorem view_eq_of_no_pending (link : PhysicalLinkRuntime K)
    (hno : link.control.profilePending = false) (hnom : link.control.matrixProfilePending = false)
    (hnoc : link.control.correlationPending = false) :
    link.view = ⟨link.live, link.stagedLayout, link.stagedMixing⟩ := by
  simp [PhysicalLinkRuntime.view, PhysicalLinkRuntime.stagedLayout,
    PhysicalLinkRuntime.stagedMixing, hno, hnom, hnoc]

theorem correlation_copies (hpc : s.pc = .loadCorrelationPending ∨
      ∃ rest, s.pc = .copyCorrelation rest) (hp : s.link.Pending) (hsync : s.Synced s.pc)
    (hphase : s.Phase s.pc) : Copies s s.snapStep := by
  obtain ⟨link, stores, pc, scratch, accepted, touched, raced, bumps, seen⟩ := s
  rcases hpc with hpc | ⟨rest, hpc⟩ <;> subst hpc
  · obtain ⟨hno, hnom⟩ := hphase
    cases hpend : link.control.correlationPending
    · simp only [snapStep, hpend]
      exact copies_jump hsync hp trivial (view_eq_of_no_pending _ hno hnom hpend)
    · simp only [snapStep, hpend]
      exact copies_jump hsync hp ⟨hno, hnom, hpend, Cells.Copying.start _ _⟩ rfl
  · obtain ⟨hno, hnom, (hpend : link.control.correlationPending = true), hcopy⟩ := hphase
    cases rest with
    | nil =>
        have hscratch : scratch = link.control.shadowCorrelation := hcopy.done
        have hmixing : (snapStep ⟨link, stores, .copyCorrelation [], scratch, accepted, touched,
            raced, bumps, seen⟩).link.stagedMixing = link.stagedMixing := by
          simp [snapStep, PhysicalLinkRuntime.stagedMixing, hpend, hscratch]
        refine ⟨rfl, rfl, rfl, hsync, ?_, ⟨hp.profile, hp.matrix⟩, trivial, ?_⟩
        · exact congrArg (LiveView.mk link.control.shadow link.stagedLayout) hmixing
        · have hview := view_eq_of_no_pending (snapStep ⟨link, stores, .copyCorrelation [],
            scratch, accepted, touched, raced, bumps, seen⟩).link hno hnom rfl
          exact hview.trans (congrArg (LiveView.mk link.live link.stagedLayout) hmixing)
    | cons c rest =>
        exact ⟨rfl, rfl, rfl, hsync, rfl, ⟨hp.profile, hp.matrix⟩, ⟨hno, hnom, hpend, hcopy.next⟩,
          rfl⟩

/-- Every access of a copying snap. -/
theorem copying_copies (hcopy : s.pc.copying = true) (hp : s.link.Pending)
    (hsync : s.Synced s.pc) (hphase : s.Phase s.pc) : Copies s s.snapStep := by
  cases hpc : s.pc with
  | idle => rw [hpc] at hcopy; exact absurd hcopy Bool.noConfusion
  | loadSeqno => rw [hpc] at hcopy; exact absurd hcopy Bool.noConfusion
  | loadGate observed atBumps => rw [hpc] at hcopy; exact absurd hcopy Bool.noConfusion
  | copyParams observed rest => exact copyParams_copies hpc hp hsync
  | loadProfilePending => exact profileTests_copies (Or.inl hpc) hp hsync hphase
  | loadProfileForce => exact profileTests_copies (Or.inr (Or.inl hpc)) hp hsync hphase
  | retestProfilePending => exact profileTests_copies (Or.inr (Or.inr hpc)) hp hsync hphase
  | copyProfile rest => exact copyProfile_copies hpc hp hsync hphase
  | loadMatrixPending => exact matrixTests_copies (Or.inl hpc) hp hsync hphase
  | loadMatrixForce => exact matrixTests_copies (Or.inr (Or.inl hpc)) hp hsync hphase
  | retestMatrixPending => exact matrixTests_copies (Or.inr (Or.inr hpc)) hp hsync hphase
  | copyMatrix rest => exact copyMatrix_copies hpc hp hsync hphase
  | loadCorrelationPending => exact correlation_copies (Or.inl hpc) hp hsync hphase
  | copyCorrelation rest => exact correlation_copies (Or.inr ⟨rest, hpc⟩) hp hsync hphase

end CopyingSnap

section Snap

variable {v₀ : LiveView K} {s : SharedLink K}

theorem accepts_congr {a b : PhysicalLinkRuntime K} (h : a.chainHasLeadingTdl = b.chainHasLeadingTdl)
    {u : Update K} (hu : a.Accepts u) : b.Accepts u := by
  cases u with
  | scalar field value => trivial
  | correlation staged => trivial
  | profile staged => exact hu.imp_left (h.symm.trans ·)
  | matrix staged => exact hu.imp_left (h.symm.trans ·)

/-- A snap that is copying. -/
theorem copying_coherent (h : Coherent v₀ s) (hcopy : s.pc.copying = true) :
    Coherent v₀ s.snapStep := by
  have hmid := h.quiet hcopy
  obtain ⟨hst, hp⟩ := h.settled hmid
  obtain ⟨hhist, hseqno, hlead, hsync, hstaged, hpending, hphase, hout⟩ :=
    copying_copies hcopy hp h.synced h.phase
  generalize s.snapStep = t at *
  simp only [history, Prod.mk.injEq] at hhist
  obtain ⟨hstores, haccepted, htouched, hraced, hbumps, hseen⟩ := hhist
  have hmid' : t.midway = false := by rwa [midway, hstores, htouched]
  -- the copy leaves the writer's record as it was
  have hfresh : t.touched = false → t.stores.any Store.payload = true → t.Fresh := by
    intro ht hany
    rw [htouched] at ht
    rw [hstores] at hany
    obtain ⟨earlier, us, hacc, hfilter, hcount, hfind, haccepts⟩ := h.fresh ht hany
    refine ⟨earlier, us, haccepted.trans hacc, ?_, ?_, ?_, ?_⟩
    · rwa [hstores]
    · rwa [hstores]
    · rwa [hstores]
    · exact fun u hu => accepts_congr hlead.symm (haccepts u hu)
  have hsettled : t.link.staged = v₀.after t.target ∧ t.link.Pending := by
    refine ⟨?_, hpending⟩
    rw [hstaged, hst, target, target, hstores, haccepted]
  constructor
  · rw [hbumps, hstores, haccepted]
    exact h.bumps
  · rw [hseqno, hbumps]
    exact h.seqno
  · rw [hseen, hbumps]
    exact h.seen
  · exact hsync
  · exact hfresh
  · exact completed_of_settled hmid' hfresh hsettled
  · exact fun _ => hsettled
  · exact fun _ => hmid'
  · exact hphase
  · intro _ hr
    rw [hout, hstaged]
    exact h.tracked hcopy (hraced ▸ hr)
  · rw [haccepted, hseen, hout]
    exact h.prefixed

/-- A snap that has not reached the copies leaves content and live view alone. -/
theorem waiting_coherent (h : Coherent v₀ s) {link' : PhysicalLinkRuntime K} {pc' : SnapPc}
    (hcontent : link'.control.content = s.link.control.content)
    (hseqno : link'.control.seqno = s.link.control.seqno) (hview : link'.view = s.link.view)
    (hlead : link'.chainHasLeadingTdl = s.link.chainHasLeadingTdl)
    (hpc : s.pc.copying = false) (hpc' : pc'.copying = false)
    (hsync : ({ s with link := link', pc := pc' } : SharedLink K).Synced pc') :
    Coherent v₀ { s with link := link', pc := pc' } := by
  obtain ⟨-, hlayout, hmixing⟩ := LiveView.mk.injEq .. ▸ hview
  have hout : ({ s with link := link', pc := pc' } : SharedLink K).outcome = s.outcome := by
    -- while it waits, the outcome is what is live
    have hwait : ∀ t : SharedLink K, t.pc.copying = false → t.outcome = t.link.view := by
      intro t ht
      unfold outcome
      cases htpc : t.pc <;> rw [htpc] at ht <;> first | rfl | exact absurd ht Bool.noConfusion
    rw [hwait s hpc, hwait _ hpc']
    exact hview
  constructor
  · exact h.bumps
  · exact hseqno.trans h.seqno
  · exact h.seen
  · exact hsync
  · intro ht hany
    obtain ⟨earlier, us, hacc, hfilter, hcount, hfind, haccepts⟩ := h.fresh ht hany
    exact ⟨earlier, us, hacc, hfilter, hcount, hfind,
      fun u hu => accepts_congr hlead.symm (haccepts u hu)⟩
  · have hcomp := Store.content_foldl_congr s.stores hcontent
    obtain ⟨hst, hp⟩ := h.completed
    have hstaged : (completed { s with link := link', pc := pc' }).staged = s.completed.staged :=
      PhysicalLinkRuntime.staged_congr hcomp hlayout hmixing
    exact ⟨hstaged.trans hst, hp.congr hcomp.symm hlead.symm⟩
  · intro hmid
    obtain ⟨hst, hp⟩ := h.settled hmid
    exact ⟨(PhysicalLinkRuntime.staged_congr hcontent hlayout hmixing).trans hst,
      hp.congr hcontent.symm hlead.symm⟩
  · exact fun hc => absurd (hc.symm.trans hpc') Bool.noConfusion
  · cases pc' <;> trivial
  · exact fun hc => absurd (hc.symm.trans hpc') Bool.noConfusion
  · obtain ⟨n, hn, hseen, hpre⟩ := h.prefixed
    exact ⟨n, hn, hseen, hout.trans hpre⟩

/-- An open gate: the snap begins to copy what is stored, which is whole messages. -/
theorem openGate_coherent (h : Coherent v₀ s) {observed atBumps : ℕ}
    (hpc : s.pc = .loadGate observed atBumps) (hmid : s.midway = false) :
    Coherent v₀ { s with
      pc := .copyParams observed (Cells.cells (MutableParams K)), raced := false, seen := atBumps } := by
  have hsync := h.synced
  rw [hpc] at hsync
  obtain ⟨hobs, hseen, hat, -⟩ := hsync
  have hout : LiveView.mk ((Cells.cells (MutableParams K)).foldl
      (fun live f => Cells.copy f s.link.control.shadow live) s.link.live)
      s.link.stagedLayout s.link.stagedMixing = s.link.staged := by
    rw [Cells.copy_cells]
    rfl
  constructor
  · exact h.bumps
  · exact h.seqno
  · exact hat
  · exact hobs
  · exact h.fresh
  · exact h.completed
  · exact h.settled
  · exact fun _ => hmid
  · trivial
  · exact fun _ _ => hout
  · obtain ⟨n, hn, htarget, hbumps⟩ := h.target_prefix hmid
    refine ⟨n, hn, hat.trans hbumps, ?_⟩
    rw [← htarget, ← (h.settled hmid).1]
    exact hout

theorem snap_coherent (h : Coherent v₀ s) (hu : s.Undisturbed .snap) :
    Coherent v₀ (s.step .snap) := by
  change Coherent v₀ s.snapStep
  change s.snapUndisturbed s.pc at hu
  have hsync := h.synced
  cases hcopy : s.pc.copying
  · cases hpc : s.pc <;> rw [hpc] at hcopy <;> try exact absurd hcopy Bool.noConfusion
    case idle =>
      rw [hpc] at hsync
      unfold snapStep
      rw [hpc]
      exact waiting_coherent h rfl rfl rfl rfl (by rw [hpc]; rfl) rfl hsync
    case loadSeqno =>
      rw [hpc] at hsync hu
      have hlive : s.link.liveSeqno = s.seen % 2 ^ 32 := hsync
      have hwrap : s.bumps < s.seen + 2 ^ 32 := hu
      have hseen := h.seen
      unfold snapStep
      rw [hpc]
      dsimp only
      by_cases hnew : s.link.control.seqno = s.link.liveSeqno
      · -- fewer than `2 ^ 32` bumps: an unchanged number means that none is new
        have hbumps : s.bumps = s.seen := by
          rw [h.seqno, hlive] at hnew
          omega
        have hstate : ({ s with
            link := { s.link with nextSlot := s.link.nextSlot + 1 }
            pc := .idle, seen := s.bumps } : SharedLink K) =
            { s with link := { s.link with nextSlot := s.link.nextSlot + 1 }, pc := .idle } := by
          rw [hbumps]
        rw [if_pos hnew, hstate]
        exact waiting_coherent h rfl rfl rfl rfl (by rw [hpc]; rfl) rfl hlive
      · rw [if_neg hnew]
        exact waiting_coherent h rfl rfl rfl rfl (by rw [hpc]; rfl) rfl
          ⟨h.seqno, hseen, le_rfl, hlive⟩
    case loadGate observed atBumps =>
      rw [hpc] at hsync hu
      obtain ⟨hobs, hseen, hat, hlive⟩ := hsync
      unfold snapStep
      rw [hpc]
      dsimp only
      by_cases hopen : s.link.control.takeEffectAtSlot ≤ s.link.nextSlot
      · rw [if_pos hopen]
        exact openGate_coherent h hpc (hu hopen)
      · rw [if_neg hopen]
        exact waiting_coherent h rfl rfl rfl rfl (by rw [hpc]; rfl) rfl hlive
  · exact copying_coherent h hcopy

/-- One undisturbed access keeps the invariant. -/
theorem step_coherent (s : SharedLink K) (a : Access K) (h : Coherent v₀ s)
    (hu : s.Undisturbed a) : Coherent v₀ (s.step a) := by
  cases a with
  | accept c => exact accept_coherent h c hu
  | store => exact store_coherent h hu
  | snap => exact snap_coherent h hu

end Snap

/-! ### A snap on its own -/

section Alone

variable {v₀ : LiveView K} {s : SharedLink K}

/-- The accesses that a copying snap still makes, at most. -/
def left (K : Type) : SnapPc → ℕ :=
  let afterCorrelation := (Cells.cells (CorrelationShadow K)).length + 2
  let afterMatrix := afterCorrelation + (Cells.cells (MatrixProfileShadow K)).length + 4
  let afterProfile := afterMatrix + (Cells.cells (ProfileShadow K)).length + 4
  fun
  | .idle | .loadSeqno | .loadGate _ _ => 0
  | .copyParams _ rest => afterProfile + rest.length + 1
  | .loadProfilePending => afterProfile
  | .loadProfileForce => afterProfile - 1
  | .retestProfilePending => afterProfile - 2
  | .copyProfile rest => afterMatrix + rest.length + 1
  | .loadMatrixPending => afterMatrix
  | .loadMatrixForce => afterMatrix - 1
  | .retestMatrixPending => afterMatrix - 2
  | .copyMatrix rest => afterCorrelation + rest.length + 1
  | .loadCorrelationPending => afterCorrelation
  | .copyCorrelation rest => rest.length + 1

theorem snapStep_left (hcopy : s.pc.copying = true) :
    left K s.snapStep.pc < left K s.pc ∧
      (s.snapStep.pc.copying = true ∨ s.snapStep.pc = .idle) := by
  obtain ⟨link, stores, pc, scratch, accepted, touched, raced, bumps, seen⟩ := s
  cases pc with
  | idle => exact absurd hcopy Bool.noConfusion
  | loadSeqno => exact absurd hcopy Bool.noConfusion
  | loadGate observed atBumps => exact absurd hcopy Bool.noConfusion
  | copyParams observed rest =>
      cases rest <;> simp [snapStep, left, SnapPc.copying]
  | loadProfilePending =>
      simp only [snapStep, left]
      split_ifs <;> simp [SnapPc.copying] <;> omega
  | loadProfileForce =>
      simp only [snapStep, left]
      split_ifs <;> simp [SnapPc.copying] <;> omega
  | retestProfilePending =>
      simp only [snapStep, left]
      split_ifs <;> simp [SnapPc.copying] <;> omega
  | copyProfile rest => cases rest <;> simp [snapStep, left, SnapPc.copying]
  | loadMatrixPending =>
      simp only [snapStep, left]
      split_ifs <;> simp [SnapPc.copying] <;> omega
  | loadMatrixForce =>
      simp only [snapStep, left]
      split_ifs <;> simp [SnapPc.copying] <;> omega
  | retestMatrixPending =>
      simp only [snapStep, left]
      split_ifs <;> simp [SnapPc.copying] <;> omega
  | copyMatrix rest => cases rest <;> simp [snapStep, left, SnapPc.copying]
  | loadCorrelationPending =>
      simp only [snapStep, left]
      split_ifs <;> simp [SnapPc.copying]
  | copyCorrelation rest => cases rest <;> simp [snapStep, left, SnapPc.copying]

/-- A copying snap finishes, and what it comes to is live then. -/
theorem copying_finishes (hcopy : s.pc.copying = true) (hp : s.link.Pending)
    (hsync : s.Synced s.pc) (hphase : s.Phase s.pc) : ∃ n,
    ((List.replicate n Access.snap).foldl step s).pc = .idle ∧
      ((List.replicate n Access.snap).foldl step s).link.view = s.outcome := by
  induction hm : left K s.pc using Nat.strong_induction_on generalizing s with
  | _ m ih =>
      subst hm
      obtain ⟨hless, hnext⟩ := snapStep_left hcopy
      have hstep := copying_copies hcopy hp hsync hphase
      rcases hnext with hnext | hidle
      · obtain ⟨n, hn, hview⟩ := ih _ hless hnext hstep.pending hstep.synced hstep.phase rfl
        exact ⟨n + 1, hn, hview.trans hstep.outcome⟩
      · refine ⟨1, hidle, ?_⟩
        rw [← hstep.outcome, outcome, hidle]
        rfl

/-- **A snap on its own.** Without interference the accesses of one slot make live what was
staged, as `snap` does. -/
theorem snap_alone (hpc : s.pc = .idle) (hp : s.link.Pending) (hdue : s.link.due = true)
    (hsync : s.link.liveSeqno = s.seen % 2 ^ 32) (hseen : s.seen ≤ s.bumps)
    (hseqno : s.link.control.seqno = s.bumps % 2 ^ 32) : ∃ n,
    ((List.replicate n Access.snap).foldl step s).pc = .idle ∧
      ((List.replicate n Access.snap).foldl step s).link.view = s.link.staged := by
  obtain ⟨hnew, hopen⟩ := s.link.due_iff.mp hdue
  obtain ⟨link, stores, pc, scratch, accepted, touched, raced, bumps, seen⟩ := s
  subst hpc
  let copying : SharedLink K :=
    { link := { link with control := { link.control with currentSlot := link.nextSlot } }
      stores := stores
      pc := .copyParams link.control.seqno (Cells.cells (MutableParams K))
      scratch := scratch, accepted := accepted, touched := touched, raced := false
      bumps := bumps, seen := bumps }
  have hthree : (List.replicate 3 Access.snap).foldl step
      ⟨link, stores, .idle, scratch, accepted, touched, raced, bumps, seen⟩ = copying := by
    simp only [List.replicate, List.foldl_cons, List.foldl_nil, step, snapStep]
    rw [if_neg hnew]
    dsimp only
    rw [if_pos hopen]
  have hout : copying.outcome = link.staged := by
    have : copying.outcome = ⟨(Cells.cells (MutableParams K)).foldl
      (fun live f => Cells.copy f link.control.shadow live) link.live,
      link.stagedLayout, link.stagedMixing⟩ := rfl
    rw [this, Cells.copy_cells]
    rfl
  obtain ⟨n, hn, hview⟩ := copying_finishes (s := copying) rfl ⟨hp.profile, hp.matrix⟩ hseqno trivial
  refine ⟨3 + n, ?_, ?_⟩
  · rw [List.replicate_add, List.foldl_append, hthree]
    exact hn
  · rw [List.replicate_add, List.foldl_append, hthree, hview, hout]

/-- The accesses of a due slot, run without interference, refine `snap`. -/
theorem snap_alone_eq_snap [Field K] [LinearOrder K] [FloorRing K] (count : ℕ)
    (hpc : s.pc = .idle) (hp : s.link.Pending) (hdue : s.link.due = true)
    (hsync : s.link.liveSeqno = s.seen % 2 ^ 32) (hseen : s.seen ≤ s.bumps)
    (hseqno : s.link.control.seqno = s.bumps % 2 ^ 32) : ∃ n,
    ((List.replicate n Access.snap).foldl step s).pc = .idle ∧
      ((List.replicate n Access.snap).foldl step s).link.view = (s.link.snap count).1.view := by
  rw [(s.link.snap_of_due count hdue hp).1]
  exact snap_alone hpc hp hdue hsync hseen hseqno

end Alone

end SharedLink
