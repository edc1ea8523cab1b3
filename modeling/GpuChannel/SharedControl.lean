/-
# The control block as shared memory

The control thread and the data plane share one `BrokerLinkControl`.  Here a commit is the
list of its stores and a snap the sequence of its accesses, one cell at a time, and a
step of the system is one access of either thread.  A commit that is not interrupted is
`publish`.

An array element is one cell.  The reads of `matrix_history_compatible` decide only
whether the input history is kept, and telemetry is not shared with the control thread;
both are left out.
-/
import GpuChannel.Library.Run
import GpuChannel.Library.Cells
import GpuChannel.PhysicalLink

/-! ## Cells -/

inductive ProfileCell
  | nTaps
  | tap (k : Fin kDeviceMaxTaps)
  | fadingEnabled
  | fadingFDMaxHz
  | fadingSpectrum
  | fadingGridUs
  | force
  deriving DecidableEq

inductive MatrixCell
  | nt
  | nr
  | laneCount
  | lane (c : Fin kMaxCorrelatedLanes × ProfileCell)
  deriving DecidableEq

inductive CorrelationCell
  | lanes
  | re (k : Fin (kMaxCorrelatedLanes * kMaxCorrelatedLanes))
  | im (k : Fin (kMaxCorrelatedLanes * kMaxCorrelatedLanes))
  deriving DecidableEq

section Instances

variable {K : Type}

instance : Cells (MutableParams K) ParamField where
  copy f src dst := dst.set f (src.get f)
  cells := [.pathLossDb, .awgnSnrDb, .cfoHz, .tap0DelaySamples, .tap0GainDb, .tap0PhaseRad, .losKDb]
  copy_cells := fun _ _ => rfl

def ProfileShadow.copyCell (src dst : ProfileShadow K) : ProfileCell → ProfileShadow K
  | .nTaps => { dst with nTaps := src.nTaps }
  | .tap k => { dst with taps := Function.update dst.taps k (src.taps k) }
  | .fadingEnabled => { dst with fadingEnabled := src.fadingEnabled }
  | .fadingFDMaxHz => { dst with fadingFDMaxHz := src.fadingFDMaxHz }
  | .fadingSpectrum => { dst with fadingSpectrum := src.fadingSpectrum }
  | .fadingGridUs => { dst with fadingGridUs := src.fadingGridUs }
  | .force => { dst with force := src.force }

instance : Cells (ProfileShadow K) ProfileCell where
  copy c src dst := src.copyCell dst c
  cells := .nTaps :: (List.finRange kDeviceMaxTaps).map .tap ++
    [.fadingEnabled, .fadingFDMaxHz, .fadingSpectrum, .fadingGridUs, .force]
  copy_cells := by
    intro src dst
    have htaps := Cells.foldl_part (fun (p : ProfileShadow K) taps => { p with taps := taps })
      (·.taps) (fun taps k => Function.update taps k (src.taps k)) (fun _ _ => rfl)
      (fun _ _ _ => rfl) (fun _ => rfl) (List.finRange kDeviceMaxTaps)
      { dst with nTaps := src.nTaps }
    rw [Cells.foldl_finRange] at htaps
    have hfirst : (.nTaps :: (List.finRange kDeviceMaxTaps).map .tap).foldl
        (fun dst c => src.copyCell dst c) dst =
        { dst with nTaps := src.nTaps, taps := src.taps } := by
      rw [List.foldl_cons, List.foldl_map]
      exact htaps
    rw [List.foldl_append, hfirst]
    rfl

def MatrixProfileShadow.copyCell (src dst : MatrixProfileShadow K) :
    MatrixCell → MatrixProfileShadow K
  | .nt => { dst with nt := src.nt }
  | .nr => { dst with nr := src.nr }
  | .laneCount => { dst with laneCount := src.laneCount }
  | .lane c => { dst with lanes := Cells.copyElement c src.lanes dst.lanes }

instance : Cells (MatrixProfileShadow K) MatrixCell where
  copy c src dst := src.copyCell dst c
  cells := [.nt, .nr, .laneCount] ++
    (Cells.elementCells kMaxCorrelatedLanes (Cells.cells (ProfileShadow K))).map .lane
  copy_cells := by
    intro src dst
    rw [List.foldl_append, List.foldl_map]
    have hlanes := Cells.foldl_part
      (fun (m : MatrixProfileShadow K) lanes => { m with lanes := lanes }) (·.lanes)
      (fun lanes c => Cells.copyElement c src.lanes lanes) (fun _ _ => rfl) (fun _ _ _ => rfl)
      (fun _ => rfl) (Cells.elementCells kMaxCorrelatedLanes (Cells.cells (ProfileShadow K)))
      { dst with nt := src.nt, nr := src.nr, laneCount := src.laneCount }
    rw [Cells.foldl_elementCells] at hlanes
    exact hlanes

def CorrelationShadow.copyCell (src dst : CorrelationShadow K) :
    CorrelationCell → CorrelationShadow K
  | .lanes => { dst with lanes := src.lanes }
  | .re k => { dst with mixingRe := Function.update dst.mixingRe k (src.mixingRe k) }
  | .im k => { dst with mixingIm := Function.update dst.mixingIm k (src.mixingIm k) }

instance : Cells (CorrelationShadow K) CorrelationCell where
  copy c src dst := src.copyCell dst c
  cells := .lanes :: (List.finRange _).map .re ++ (List.finRange _).map .im
  copy_cells := by
    intro src dst
    rw [List.foldl_append, List.foldl_cons, List.foldl_map, List.foldl_map]
    have hre := Cells.foldl_part (fun (c : CorrelationShadow K) re => { c with mixingRe := re })
      (·.mixingRe) (fun re k => Function.update re k (src.mixingRe k)) (fun _ _ => rfl)
      (fun _ _ _ => rfl) (fun _ => rfl) (List.finRange _) { dst with lanes := src.lanes }
    have him := Cells.foldl_part (fun (c : CorrelationShadow K) im => { c with mixingIm := im })
      (·.mixingIm) (fun im k => Function.update im k (src.mixingIm k)) (fun _ _ => rfl)
      (fun _ _ _ => rfl) (fun _ => rfl) (List.finRange _)
      { dst with lanes := src.lanes, mixingRe := src.mixingRe }
    rw [Cells.foldl_finRange] at hre him
    exact (congrArg (fun c => (List.finRange _).foldl (fun dst k => src.copyCell dst (.im k)) c)
      hre).trans him

end Instances

/-! ## The stores of a commit -/

/-- One store of the control thread to the control block. -/
inductive Store (K : Type)
  | gate (slot : ℕ)
  | param (field : ParamField) (value : K)
  | profile (cell : ProfileCell) (staged : ProfileShadow K)
  | matrix (cell : MatrixCell) (staged : MatrixProfileShadow K)
  | correlation (cell : CorrelationCell) (staged : CorrelationShadow K)
  | profilePending (flag : Bool)
  | matrixPending (flag : Bool)
  | correlationPending (flag : Bool)
  | bumpSeqno

namespace Store

variable {K : Type}

def exec (ctl : BrokerLinkControl K) : Store K → BrokerLinkControl K
  | .gate slot => { ctl with takeEffectAtSlot := slot }
  | .param field value => { ctl with shadow := ctl.shadow.set field value }
  | .profile cell staged => { ctl with shadowProfile := Cells.copy cell staged ctl.shadowProfile }
  | .matrix cell staged =>
      { ctl with shadowMatrixProfile := Cells.copy cell staged ctl.shadowMatrixProfile }
  | .correlation cell staged =>
      { ctl with shadowCorrelation := Cells.copy cell staged ctl.shadowCorrelation }
  | .profilePending flag => { ctl with profilePending := flag }
  | .matrixPending flag => { ctl with matrixProfilePending := flag }
  | .correlationPending flag => { ctl with correlationPending := flag }
  | .bumpSeqno => { ctl with seqno := (ctl.seqno + 1) % 2 ^ 32 }

/-- A store that carries part of the message's content: a shadow cell or a flag. -/
def payload : Store K → Bool
  | .gate _ => false
  | .bumpSeqno => false
  | _ => true

def bump : Store K → Bool
  | .bumpSeqno => true
  | _ => false

end Store

section Commit

variable {K : Type}

/-- The content stores of a commit, in the handlers' order. -/
def payloadStores : Update K → List (Store K)
  | .scalar field value => [.param field value]
  | .profile staged =>
      (Cells.cells (ProfileShadow K)).map (Store.profile · staged) ++
        [.profilePending true, .matrixPending false]
  | .matrix staged =>
      (Cells.cells (MatrixProfileShadow K)).map (Store.matrix · staged) ++
        [.matrixPending true, .profilePending false]
  | .correlation staged =>
      (Cells.cells (CorrelationShadow K)).map (Store.correlation · staged) ++
        [.correlationPending true]

/-- What one accepted message commits to the link: one update, or the ops of a batch, all
behind one gate. -/
inductive Commit (K : Type)
  | single (gate : ℕ) (u : Update K)
  | batch (gate : ℕ) (us : List (Update K))

namespace Commit

def updates : Commit K → List (Update K)
  | .single _ u => [u]
  | .batch _ us => us

def gate : Commit K → ℕ
  | .single gate _ => gate
  | .batch gate _ => gate

/-- The gate first: a scalar update, and every op of a batch. -/
def gatedStores (gate : ℕ) (u : Update K) : List (Store K) :=
  .gate gate :: payloadStores u ++ [.bumpSeqno]

/-- The stores of a commit.  A swap of its own stores the gate after the flags; the sequence
number is always last. -/
def stores : Commit K → List (Store K)
  | .single gate (.scalar field value) => gatedStores gate (.scalar field value)
  | .single gate u => payloadStores u ++ [.gate gate, .bumpSeqno]
  | .batch gate us => us.flatMap (gatedStores gate)

end Commit

theorem foldl_profile (staged : ProfileShadow K) (l : List ProfileCell) (ctl : BrokerLinkControl K) :
    (l.map (Store.profile · staged)).foldl Store.exec ctl =
      { ctl with shadowProfile := l.foldl (fun p c => Cells.copy c staged p) ctl.shadowProfile } := by
  rw [List.foldl_map]
  exact Cells.foldl_part (fun (c : BrokerLinkControl K) p => { c with shadowProfile := p })
    (·.shadowProfile) (fun p c => Cells.copy c staged p) (fun _ _ => rfl) (fun _ _ _ => rfl)
    (fun _ => rfl) l ctl

theorem foldl_matrix (staged : MatrixProfileShadow K) (l : List MatrixCell)
    (ctl : BrokerLinkControl K) :
    (l.map (Store.matrix · staged)).foldl Store.exec ctl =
      { ctl with shadowMatrixProfile :=
          l.foldl (fun p c => Cells.copy c staged p) ctl.shadowMatrixProfile } := by
  rw [List.foldl_map]
  exact Cells.foldl_part (fun (c : BrokerLinkControl K) p => { c with shadowMatrixProfile := p })
    (·.shadowMatrixProfile) (fun p c => Cells.copy c staged p) (fun _ _ => rfl)
    (fun _ _ _ => rfl) (fun _ => rfl) l ctl

theorem foldl_correlation (staged : CorrelationShadow K) (l : List CorrelationCell)
    (ctl : BrokerLinkControl K) :
    (l.map (Store.correlation · staged)).foldl Store.exec ctl =
      { ctl with shadowCorrelation :=
          l.foldl (fun p c => Cells.copy c staged p) ctl.shadowCorrelation } := by
  rw [List.foldl_map]
  exact Cells.foldl_part (fun (c : BrokerLinkControl K) p => { c with shadowCorrelation := p })
    (·.shadowCorrelation) (fun p c => Cells.copy c staged p) (fun _ _ => rfl) (fun _ _ _ => rfl)
    (fun _ => rfl) l ctl

/-- The content stores together write the shadow and the flags. -/
theorem payloadStores_exec (u : Update K) (ctl : BrokerLinkControl K) :
    (payloadStores u).foldl Store.exec ctl = ctl.stage u := by
  cases u with
  | scalar field value => rfl
  | profile staged =>
      rw [payloadStores, List.foldl_append, foldl_profile, Cells.copy_cells]
      rfl
  | matrix staged =>
      rw [payloadStores, List.foldl_append, foldl_matrix, Cells.copy_cells]
      rfl
  | correlation staged =>
      rw [payloadStores, List.foldl_append, foldl_correlation, Cells.copy_cells]
      rfl

theorem gatedStores_exec (gate : ℕ) (u : Update K) (ctl : BrokerLinkControl K) :
    (Commit.gatedStores gate u).foldl Store.exec ctl = ctl.publish gate u := by
  have hpayload := payloadStores_exec u { ctl with takeEffectAtSlot := gate }
  rw [Commit.gatedStores, List.foldl_append]
  change Store.exec ((payloadStores u).foldl Store.exec
    { ctl with takeEffectAtSlot := gate }) .bumpSeqno = _
  rw [hpayload]
  cases u <;> rfl

/-- **A commit is a publication.** Run without interruption, the stores of a commit publish
its updates in order. -/
theorem Commit.stores_exec (c : Commit K) (ctl : BrokerLinkControl K) :
    c.stores.foldl Store.exec ctl = c.updates.foldl (fun ctl u => ctl.publish c.gate u) ctl := by
  cases c with
  | single gate u =>
      have hlast : (payloadStores u ++ [Store.gate gate, Store.bumpSeqno]).foldl Store.exec ctl =
          ctl.publish gate u := by
        rw [List.foldl_append, payloadStores_exec]
        cases u <;> rfl
      cases u with
      | scalar field value => exact gatedStores_exec gate _ ctl
      | profile staged => exact hlast
      | matrix staged => exact hlast
      | correlation staged => exact hlast
  | batch gate us =>
      simp only [stores, updates, Commit.gate]
      induction us generalizing ctl with
      | nil => rfl
      | cons u us ih =>
          rw [List.flatMap_cons, List.foldl_append, gatedStores_exec, ih]
          rfl

end Commit

/-! ## The accesses of a snap -/

/-- Where the data plane stands in `snap_physical_link`. -/
inductive SnapPc
  | idle
  | loadSeqno
  | loadGate (observed atBumps : ℕ)
  | copyParams (observed : ℕ) (rest : List ParamField)
  | loadProfilePending
  | loadProfileForce
  | retestProfilePending
  | copyProfile (rest : List ProfileCell)
  | loadMatrixPending
  | loadMatrixForce
  | retestMatrixPending
  | copyMatrix (rest : List MatrixCell)
  | loadCorrelationPending
  | copyCorrelation (rest : List CorrelationCell)
  deriving DecidableEq

/-- The snap is past its gate and copies. -/
def SnapPc.copying : SnapPc → Bool
  | .idle => false
  | .loadSeqno => false
  | .loadGate _ _ => false
  | _ => true

/-- **The two threads on one link.** `stores` is what is left of the commit in progress and
`scratch` the factor that a snap is collecting.  The last five fields only record the history:
the updates of every accepted message, whether the commit has stored content, whether content
was stored since the snap began to copy, the number of sequence-number bumps, and how many of
them the last snap that was not deferred had seen. -/
structure SharedLink (K : Type) where
  link : PhysicalLinkRuntime K
  stores : List (Store K)
  pc : SnapPc
  scratch : CorrelationShadow K
  accepted : List (List (Update K))
  touched : Bool
  raced : Bool
  bumps : ℕ
  seen : ℕ

/-- One access of one thread; `accept` is the control thread taking up its next message. -/
inductive Access (K : Type)
  | accept (c : Commit K)
  | store
  | snap

namespace SharedLink

variable {K : Type}

def start [Field K] (link : PhysicalLinkRuntime K) : SharedLink K :=
  { link := link, stores := [], pc := .idle, scratch := CorrelationShadow.default
    accepted := [], touched := false, raced := false, bumps := 0, seen := 0 }

/-- The next store of the commit in progress. -/
def storeStep (s : SharedLink K) : SharedLink K :=
  match s.stores with
  | [] => s
  | st :: rest =>
      { s with
        link := { s.link with control := st.exec s.link.control }
        stores := rest
        touched := s.touched || st.payload
        raced := s.raced || (s.pc.copying && st.payload)
        bumps := if st.bump then s.bumps + 1 else s.bumps }

/-- The next access of the snap. -/
def snapStep (s : SharedLink K) : SharedLink K :=
  match s.pc with
  | .idle =>
      { s with
        link := { s.link with control := { s.link.control with currentSlot := s.link.nextSlot } }
        pc := .loadSeqno }
  | .loadSeqno =>
      if s.link.control.seqno = s.link.liveSeqno then
        { s with
          link := { s.link with nextSlot := s.link.nextSlot + 1 }
          pc := .idle, seen := s.bumps }
      else { s with pc := .loadGate s.link.control.seqno s.bumps }
  | .loadGate observed atBumps =>
      if s.link.control.takeEffectAtSlot ≤ s.link.nextSlot then
        { s with
          pc := .copyParams observed (Cells.cells (MutableParams K))
          raced := false, seen := atBumps }
      else
        { s with link := { s.link with nextSlot := s.link.nextSlot + 1 }, pc := .idle }
  | .copyParams observed (f :: rest) =>
      { s with
        link := { s.link with live := Cells.copy f s.link.control.shadow s.link.live }
        pc := .copyParams observed rest }
  | .copyParams observed [] =>
      { s with
        link := { s.link with liveSeqno := observed, nextSlot := s.link.nextSlot + 1 }
        pc := .loadProfilePending }
  | .loadProfilePending =>
      { s with pc :=
          if !s.link.control.profilePending then .loadMatrixPending
          else if s.link.chainHasLeadingTdl then .retestProfilePending
          else .loadProfileForce }
  | .loadProfileForce =>
      { s with pc :=
          if s.link.control.shadowProfile.force then .retestProfilePending else .loadMatrixPending }
  | .retestProfilePending =>
      { s with pc :=
          if s.link.control.profilePending then .copyProfile (Cells.cells (ProfileShadow K))
          else .loadMatrixPending }
  | .copyProfile (c :: rest) =>
      { s with
        link := { s.link with
          liveProfile := Cells.copy c s.link.control.shadowProfile s.link.liveProfile }
        pc := .copyProfile rest }
  | .copyProfile [] =>
      { s with
        link := { s.link with
          control := { s.link.control with
            profilePending := false
            forceInertWarnings :=
              if s.link.chainHasLeadingTdl then s.link.control.forceInertWarnings
              else s.link.control.forceInertWarnings + 1 }
          liveProfileActive := true, liveMatrixProfileActive := false }
        pc := .loadMatrixPending }
  | .loadMatrixPending =>
      { s with pc :=
          if !s.link.control.matrixProfilePending then .loadCorrelationPending
          else if s.link.chainHasLeadingTdl then .retestMatrixPending
          else .loadMatrixForce }
  | .loadMatrixForce =>
      { s with pc :=
          if (s.link.control.shadowMatrixProfile.lanes 0).force then .retestMatrixPending
          else .loadCorrelationPending }
  | .retestMatrixPending =>
      { s with pc :=
          if s.link.control.matrixProfilePending then
            .copyMatrix (Cells.cells (MatrixProfileShadow K))
          else .loadCorrelationPending }
  | .copyMatrix (c :: rest) =>
      { s with
        link := { s.link with
          liveMatrixProfile :=
            Cells.copy c s.link.control.shadowMatrixProfile s.link.liveMatrixProfile }
        pc := .copyMatrix rest }
  | .copyMatrix [] =>
      { s with
        link := { s.link with
          control := { s.link.control with matrixProfilePending := false }
          liveMatrixProfileActive := true, liveProfileActive := false }
        pc := .loadCorrelationPending }
  | .loadCorrelationPending =>
      { s with pc :=
          if s.link.control.correlationPending then
            .copyCorrelation (Cells.cells (CorrelationShadow K))
          else .idle }
  | .copyCorrelation (c :: rest) =>
      { s with
        scratch := Cells.copy c s.link.control.shadowCorrelation s.scratch
        pc := .copyCorrelation rest }
  | .copyCorrelation [] =>
      { s with
        link := { s.link with
          fading := { s.link.fading with mixing := s.scratch.mixing }
          control := { s.link.control with correlationPending := false } }
        pc := .idle }

def step (s : SharedLink K) : Access K → SharedLink K
  | .accept c =>
      if s.stores.isEmpty then
        { s with stores := c.stores, accepted := s.accepted ++ [c.updates], touched := false }
      else s
  | .store => s.storeStep
  | .snap => s.snapStep

/-- The commit in progress has stored part of its content. -/
def midway (s : SharedLink K) : Bool := s.touched && s.stores.any Store.payload

/-- The next store is all the content of a scalar message. -/
def loneScalar (s : SharedLink K) : Bool :=
  match s.stores with
  | .param _ _ :: rest => !s.touched && !rest.any Store.payload
  | _ => false

/-- The snap's own part of `Undisturbed`. -/
def snapUndisturbed (s : SharedLink K) : SnapPc → Prop
  | .loadSeqno => s.bumps < s.seen + 2 ^ 32
  | .loadGate _ _ => s.link.control.takeEffectAtSlot ≤ s.link.nextSlot → s.midway = false
  | _ => True

instance (s : SharedLink K) : DecidablePred s.snapUndisturbed := fun pc => by
  cases pc <;> unfold snapUndisturbed <;> infer_instance

/-- **An undisturbed access.** While a snap copies, no content is stored but that of one scalar
message; no snap passes the gate while a commit is midway through its content; the link
takes the accepted swaps; and fewer than `2^32` bumps lie between two snaps. -/
def Undisturbed (s : SharedLink K) : Access K → Prop
  | .accept c => ∀ u ∈ c.updates, s.link.Accepts u
  | .store => s.pc.copying = true → s.stores.head?.any Store.payload = true →
      s.loneScalar = true ∧ s.raced = false
  | .snap => s.snapUndisturbed s.pc

instance (s : SharedLink K) : DecidablePred s.Undisturbed := fun a => by
  cases a <;> unfold Undisturbed <;> infer_instance

end SharedLink
