/-
# Runtime-mutable parameters and the per-link control block

`MutableParams` (mutable_params.h) and `BrokerLinkControl` (runtime_control.h): the
shadow that the control thread writes, the pending flags and the sequence number that
publish it, and the snap helpers of the data plane.  Telemetry is left out.

Every accepted control message reaches a link as one of four kinds of `Update`;
`publish` is the common commit block of the handlers: write the shadow, set the
flags and the gate, bump the sequence number.
-/
import GpuChannel.Config

/-- `kMaxProfileDelaySamples`. -/
def kMaxProfileDelaySamples : ℕ := 1023

/-- `kDeviceMaxTaps`. -/
def kDeviceMaxTaps : ℕ := 32

/-- `kMaxCorrelatedLanes`. -/
def kMaxCorrelatedLanes : ℕ := 16

instance : NeZero kMaxCorrelatedLanes := ⟨by decide⟩

/-- `kTdlFracFilterTaps`. -/
def kTdlFracFilterTaps : ℕ := 8

/-! ## Mutable parameters -/

/-- **`MutableParams`.** -/
structure MutableParams (K : Type) where
  pathLossDb : K
  awgnSnrDb : K
  cfoHz : K
  tap0DelaySamples : K
  tap0GainDb : K
  tap0PhaseRad : K
  losKDb : K
  deriving DecidableEq, Repr

/-- The members of `MutableParams`, one for each entry of `kParamSpecs`. -/
inductive ParamField
  | pathLossDb
  | awgnSnrDb
  | losKDb
  | cfoHz
  | tap0DelaySamples
  | tap0GainDb
  | tap0PhaseRad
  deriving DecidableEq, Repr

namespace MutableParams

variable {K : Type}

/-- The member initialisers of the struct. -/
def default [Field K] : MutableParams K := ⟨0, 60, 0, 0, 0, 0, 0⟩

/-- The assignment of `apply_update`. -/
def set (p : MutableParams K) (field : ParamField) (value : K) : MutableParams K :=
  match field with
  | .pathLossDb => { p with pathLossDb := value }
  | .awgnSnrDb => { p with awgnSnrDb := value }
  | .losKDb => { p with losKDb := value }
  | .cfoHz => { p with cfoHz := value }
  | .tap0DelaySamples => { p with tap0DelaySamples := value }
  | .tap0GainDb => { p with tap0GainDb := value }
  | .tap0PhaseRad => { p with tap0PhaseRad := value }

def get (p : MutableParams K) (field : ParamField) : K :=
  match field with
  | .pathLossDb => p.pathLossDb
  | .awgnSnrDb => p.awgnSnrDb
  | .losKDb => p.losKDb
  | .cfoHz => p.cfoHz
  | .tap0DelaySamples => p.tap0DelaySamples
  | .tap0GainDb => p.tap0GainDb
  | .tap0PhaseRad => p.tap0PhaseRad

/-- A field that is set is read, and no other. -/
theorem get_set (p : MutableParams K) (f g : ParamField) (v : K) :
    (p.set f v).get g = if g = f then v else p.get g := by
  cases f <;> cases g <;> rfl

/-- A record is determined by its members. -/
theorem ext_get {p q : MutableParams K} (h : ∀ f, p.get f = q.get f) : p = q := by
  cases p; cases q
  have h₁ := h .pathLossDb
  have h₂ := h .awgnSnrDb
  have h₃ := h .losKDb
  have h₄ := h .cfoHz
  have h₅ := h .tap0DelaySamples
  have h₆ := h .tap0GainDb
  have h₇ := h .tap0PhaseRad
  simp only [get] at h₁ h₂ h₃ h₄ h₅ h₆ h₇
  subst h₁ h₂ h₃ h₄ h₅ h₆ h₇
  rfl

end MutableParams

/-! ## Shadows -/

/-- **`ProfileShadow`.** Only the first `nTaps` taps are meaningful. -/
structure ProfileShadow (K : Type) where
  nTaps : ℕ
  taps : Fin kDeviceMaxTaps → TapSpec K
  fadingEnabled : Bool
  fadingFDMaxHz : K
  fadingSpectrum : ℕ
  fadingGridUs : K
  force : Bool
  deriving DecidableEq

/-- **`MatrixProfileShadow`.** Lane `rx * nt + tx` of the link. -/
structure MatrixProfileShadow (K : Type) where
  nt : ℕ
  nr : ℕ
  laneCount : ℕ
  lanes : Fin kMaxCorrelatedLanes → ProfileShadow K
  deriving DecidableEq

/-- **`CorrelationShadow`.** No lanes means independent lanes. -/
structure CorrelationShadow (K : Type) where
  lanes : ℕ
  mixingRe : Fin (kMaxCorrelatedLanes * kMaxCorrelatedLanes) → K
  mixingIm : Fin (kMaxCorrelatedLanes * kMaxCorrelatedLanes) → K
  deriving DecidableEq

section Defaults

variable {K : Type} [Field K]

def ProfileShadow.default : ProfileShadow K :=
  { nTaps := 0, taps := fun _ => Inhabited.default, fadingEnabled := false, fadingFDMaxHz := 0
    fadingSpectrum := 0, fadingGridUs := 100, force := false }

def MatrixProfileShadow.default : MatrixProfileShadow K :=
  { nt := 0, nr := 0, laneCount := 0, lanes := fun _ => ProfileShadow.default }

def CorrelationShadow.default : CorrelationShadow K :=
  { lanes := 0, mixingRe := fun _ => 0, mixingIm := fun _ => 0 }

end Defaults

/-- The meaningful taps of a profile. -/
def ProfileShadow.tapList {K : Type} (p : ProfileShadow K) : List (TapSpec K) :=
  ((List.finRange kDeviceMaxTaps).take p.nTaps).map p.taps

/-- `lanes[l]`; a lane outside the array has no profile. -/
def MatrixProfileShadow.lane? {K : Type} (m : MatrixProfileShadow K) (l : ℕ) :
    Option (ProfileShadow K) :=
  if h : l < kMaxCorrelatedLanes then some (m.lanes ⟨l, h⟩) else none

/-- The mixing factor that a staged correlation puts in place, row by row. -/
def CorrelationShadow.mixing {K : Type} (c : CorrelationShadow K) : List (Cplx K) :=
  ((List.finRange (kMaxCorrelatedLanes * kMaxCorrelatedLanes)).take (c.lanes * c.lanes)).map
    fun k => ⟨c.mixingRe k, c.mixingIm k⟩

/-- Taps that agree in everything but gain and phase. -/
def TapSpec.historyCompatible {K : Type} [DecidableEq K] (x y : TapSpec K) : Bool :=
  x.delaySamples = y.delaySamples ∧ x.isLos = y.isLos ∧ x.losKDb = y.losKDb ∧
    x.losAngleRad = y.losAngleRad

def ProfileShadow.historyCompatible {K : Type} [DecidableEq K] (a b : ProfileShadow K) : Bool :=
  a.nTaps = b.nTaps ∧ a.fadingEnabled = b.fadingEnabled ∧ a.fadingFDMaxHz = b.fadingFDMaxHz ∧
    a.fadingSpectrum = b.fadingSpectrum ∧ a.fadingGridUs = b.fadingGridUs ∧ a.force = b.force ∧
    (a.tapList.zip b.tapList).all fun xy => xy.1.historyCompatible xy.2

/-- `matrix_history_compatible`: only gains and phases differ. -/
def matrixHistoryCompatible {K : Type} [DecidableEq K] (before after : MatrixProfileShadow K) : Bool :=
  before.nt = after.nt ∧ before.nr = after.nr ∧ before.laneCount = after.laneCount ∧
    ((List.finRange kMaxCorrelatedLanes).take before.laneCount).all
      fun l => (before.lanes l).historyCompatible (after.lanes l)

/-! ## The control block -/

/-- **`BrokerLinkControl`.** -/
structure BrokerLinkControl (K : Type) where
  shadow : MutableParams K
  shadowProfile : ProfileShadow K
  profilePending : Bool
  shadowMatrixProfile : MatrixProfileShadow K
  matrixProfilePending : Bool
  matrixProfileSupported : Bool
  shadowCorrelation : CorrelationShadow K
  correlationPending : Bool
  ntHint : ℕ
  nrHint : ℕ
  fixedMimoDeclared : Bool
  correlationDeclared : Bool
  takeEffectAtSlot : ℕ
  currentSlot : ℕ
  /-- `std::uint32_t`, bumped after every shadow write -/
  seqno : ℕ
  forceInertWarnings : ℕ
  dlSizeSamplesHint : ℕ
  slotCountHint : ℕ
  deriving DecidableEq

/-- What one accepted control message asks of a link. -/
inductive Update (K : Type)
  | scalar (field : ParamField) (value : K)
  | profile (staged : ProfileShadow K)
  | matrix (staged : MatrixProfileShadow K)
  | correlation (staged : CorrelationShadow K)
  deriving DecidableEq

namespace BrokerLinkControl

variable {K : Type}

/-- The default-constructed control block. -/
def default [Field K] : BrokerLinkControl K :=
  { shadow := MutableParams.default
    shadowProfile := ProfileShadow.default, profilePending := false
    shadowMatrixProfile := MatrixProfileShadow.default, matrixProfilePending := false
    matrixProfileSupported := true
    shadowCorrelation := CorrelationShadow.default, correlationPending := false
    ntHint := 1, nrHint := 1, fixedMimoDeclared := false, correlationDeclared := false
    takeEffectAtSlot := 0, currentSlot := 0, seqno := 0
    forceInertWarnings := 0, dlSizeSamplesHint := 0, slotCountHint := 0 }

/-- The shadow and flag writes of a handler's commit. -/
def stage (ctl : BrokerLinkControl K) : Update K → BrokerLinkControl K
  | .scalar field value => { ctl with shadow := ctl.shadow.set field value }
  | .profile staged =>
      { ctl with shadowProfile := staged, profilePending := true, matrixProfilePending := false }
  | .matrix staged =>
      { ctl with shadowMatrixProfile := staged, matrixProfilePending := true, profilePending := false }
  | .correlation staged => { ctl with shadowCorrelation := staged, correlationPending := true }

/-- The commit block of the handlers: shadow, flags, gate, `seqno.fetch_add(1)`. -/
def publish (ctl : BrokerLinkControl K) (gate : ℕ) (u : Update K) : BrokerLinkControl K :=
  { ctl.stage u with takeEffectAtSlot := gate, seqno := (ctl.seqno + 1) % 2 ^ 32 }

/-- `init_broker_link_control`. -/
def init [Field K] (ctl : BrokerLinkControl K) (yamlInitial : MutableParams K) : BrokerLinkControl K :=
  { ctl with
    shadow := yamlInitial
    shadowProfile := ProfileShadow.default, profilePending := false
    shadowMatrixProfile := MatrixProfileShadow.default, matrixProfilePending := false
    takeEffectAtSlot := 0, currentSlot := 0, seqno := 0 }

/-- The test of `snap_mutable_params`: an unseen sequence number behind an open gate. -/
def due (ctl : BrokerLinkControl K) (liveSeqno slotIdx : ℕ) : Bool :=
  ctl.seqno ≠ liveSeqno ∧ ctl.takeEffectAtSlot ≤ slotIdx

end BrokerLinkControl

/-- The outcome of `snap_mutable_params`: the three objects it writes and its result. -/
structure ParamSnap (K : Type) where
  live : MutableParams K
  liveSeqno : ℕ
  control : BrokerLinkControl K
  changed : Bool

/-- **`snap_mutable_params`.** -/
def snapMutableParams {K : Type} (live : MutableParams K) (liveSeqno : ℕ)
    (ctl : BrokerLinkControl K) (slotIdx : ℕ) : ParamSnap K :=
  let ctl := { ctl with currentSlot := slotIdx }
  if ctl.due liveSeqno slotIdx then
    { live := ctl.shadow, liveSeqno := ctl.seqno, control := ctl, changed := true }
  else
    { live := live, liveSeqno := liveSeqno, control := ctl, changed := false }

/-! ## What a publication leaves alone -/

namespace BrokerLinkControl

variable {K : Type} (ctl : BrokerLinkControl K) (gate : ℕ) (u : Update K)

/-- A publication sets the gate. -/
@[simp] theorem publish_takeEffectAtSlot : (ctl.publish gate u).takeEffectAtSlot = gate := rfl

/-- A publication raises the sequence number by one. -/
@[simp] theorem publish_seqno : (ctl.publish gate u).seqno = (ctl.seqno + 1) % 2 ^ 32 := rfl

/-- A publication leaves the slot counter alone. -/
@[simp] theorem publish_currentSlot : (ctl.publish gate u).currentSlot = ctl.currentSlot := by
  cases u <;> rfl

/-- A publication leaves the support of matrices alone. -/
@[simp] theorem publish_matrixProfileSupported :
    (ctl.publish gate u).matrixProfileSupported = ctl.matrixProfileSupported := by
  cases u <;> rfl

/-- A publication leaves the columns of the matrix alone. -/
@[simp] theorem publish_ntHint : (ctl.publish gate u).ntHint = ctl.ntHint := by cases u <;> rfl

/-- A publication leaves the rows of the matrix alone. -/
@[simp] theorem publish_nrHint : (ctl.publish gate u).nrHint = ctl.nrHint := by cases u <;> rfl

/-- A publication leaves the declared matrix alone. -/
@[simp] theorem publish_fixedMimoDeclared :
    (ctl.publish gate u).fixedMimoDeclared = ctl.fixedMimoDeclared := by
  cases u <;> rfl

/-- A publication leaves the declared correlation alone. -/
@[simp] theorem publish_correlationDeclared :
    (ctl.publish gate u).correlationDeclared = ctl.correlationDeclared := by
  cases u <;> rfl

/-- A publication leaves the length of the ring alone. -/
@[simp] theorem publish_dlSizeSamplesHint :
    (ctl.publish gate u).dlSizeSamplesHint = ctl.dlSizeSamplesHint := by
  cases u <;> rfl

/-- A publication leaves the length of a slot alone. -/
@[simp] theorem publish_slotCountHint :
    (ctl.publish gate u).slotCountHint = ctl.slotCountHint := by
  cases u <;> rfl

end BrokerLinkControl
