/-
# The control plane of a set of links

The control server together with the physical links it addresses.  A run interleaves
messages, each handled whole, with the slots of single links.

The handlers' checks matter to the data plane through what they admit: every update
that reaches a link is `Admitted` by the hints of that link, whether it was committed
at once or waited in a batch.
-/
import GpuChannel.Library.Run
import GpuChannel.PhysicalLink
import GpuChannel.ControlServer
import GpuChannel.Library.Checked

/-! ## What a handler publishes -/

/-- `param.rfind("tap0_", 0) == 0`: the parameters that a fixed matrix forbids. -/
def ParamField.tapScope : ParamField → Bool
  | .tap0DelaySamples => true
  | .tap0GainDb => true
  | .tap0PhaseRad => true
  | _ => false

/-- **What the checks of the handlers let through** to a link with these hints. -/
def Admitted {K : Type} (ctl : BrokerLinkControl K) : Update K → Prop
  | .scalar field _ => ctl.fixedMimoDeclared → field.tapScope = false
  | .profile _ => ctl.fixedMimoDeclared = false
  | .matrix staged =>
      ctl.fixedMimoDeclared = false ∧ ctl.matrixProfileSupported = true ∧
        staged.laneCount = ctl.ntHint * ctl.nrHint ∧ ctl.ntHint * ctl.nrHint ≤ kMaxCorrelatedLanes
  | .correlation staged =>
      ctl.correlationDeclared = true ∧
        (staged.lanes = 0 ∨
          staged.lanes = ctl.ntHint * ctl.nrHint ∧ 0 < ctl.ntHint * ctl.nrHint ∧
            ctl.ntHint * ctl.nrHint ≤ kMaxCorrelatedLanes)

/-- Two control blocks of one link: the same hints. -/
structure SameHints {K : Type} (a b : BrokerLinkControl K) : Prop where
  fixedMimoDeclared : a.fixedMimoDeclared = b.fixedMimoDeclared
  matrixProfileSupported : a.matrixProfileSupported = b.matrixProfileSupported
  correlationDeclared : a.correlationDeclared = b.correlationDeclared
  ntHint : a.ntHint = b.ntHint
  nrHint : a.nrHint = b.nrHint

/-- A publication keeps the dimensions of the link. -/
theorem SameHints.publish {K : Type} {a b : BrokerLinkControl K} (h : SameHints a b) (gate : ℕ)
    (u : Update K) : SameHints (a.publish gate u) b := by
  constructor
  · rw [BrokerLinkControl.publish_fixedMimoDeclared, h.fixedMimoDeclared]
  · rw [BrokerLinkControl.publish_matrixProfileSupported, h.matrixProfileSupported]
  · rw [BrokerLinkControl.publish_correlationDeclared, h.correlationDeclared]
  · rw [BrokerLinkControl.publish_ntHint, h.ntHint]
  · rw [BrokerLinkControl.publish_nrHint, h.nrHint]

/-- What is admitted depends on the hints only. -/
theorem SameHints.admitted {K : Type} {a b : BrokerLinkControl K} (h : SameHints a b)
    (u : Update K) : Admitted a u ↔ Admitted b u := by
  cases u <;> simp [Admitted, h.fixedMimoDeclared, h.matrixProfileSupported,
    h.correlationDeclared, h.ntHint, h.nrHint]

/-- Every op waiting in a batch is admitted by its link. -/
def BatchesAdmitted {K : Type} (srv : ControlServer K) (links : LinkMap K) : Prop :=
  ∀ batch ∈ srv.openBatches, ∀ op ∈ batch.2, ∀ ctl, links op.linkId = some ctl →
    Admitted ctl op.update

/-- **What one handled message may do**: publish to known links, behind one gate, what
they admit, and leave only admitted ops in the batches. -/
structure Disciplined {K : Type} (h : Handled K) (links : LinkMap K) : Prop where
  known : ∀ p ∈ h.published, ∃ ctl, links p.linkId = some ctl
  gate : ∀ p ∈ h.published, ∀ q ∈ h.published, p.gate = q.gate
  admitted : ∀ p ∈ h.published, ∀ ctl, links p.linkId = some ctl → Admitted ctl p.update
  batches : BatchesAdmitted h.server links
  rejected : h.reply.ok = false → h.published = []

namespace ControlServer

variable {K : Type} {srv : ControlServer K} {links : LinkMap K}

/-- A message that publishes nothing and adds no op is disciplined. -/
theorem disciplined_of_published_nil {h : Handled K} (hpub : h.published = [])
    (hb : BatchesAdmitted h.server links) : Disciplined h links := by
  constructor
  · intro p hp
    rw [hpub] at hp
    exact absurd hp List.not_mem_nil
  · intro p hp
    rw [hpub] at hp
    exact absurd hp List.not_mem_nil
  · intro p hp
    rw [hpub] at hp
    exact absurd hp List.not_mem_nil
  · exact hb
  · intro _
    exact hpub

/-- A rejection keeps the discipline. -/
theorem emitRejection_disciplined (hb : BatchesAdmitted srv links) (reason : String) :
    Disciplined (srv.emitRejection reason) links :=
  disciplined_of_published_nil rfl hb

/-- Staging an admitted op keeps the discipline. -/
theorem stageOp_disciplined (hb : BatchesAdmitted srv links) (bid : String) {op : StagedOp K}
    (hop : ∀ ctl, links op.linkId = some ctl → Admitted ctl op.update) :
    Disciplined (srv.stageOp bid op) links := by
  refine disciplined_of_published_nil rfl ?_
  intro batch hbatch
  obtain ⟨old, hold, rfl⟩ := List.mem_map.mp hbatch
  intro x hx
  split_ifs at hx with hid
  · rcases List.mem_append.mp hx with hx | hx
    · exact hb old hold x hx
    · rw [List.mem_singleton.mp hx]
      exact hop
  · exact hb old hold x hx

/-- Publishing an admitted update keeps the discipline. -/
theorem commit_disciplined (hb : BatchesAdmitted srv links) {ctl : BrokerLinkControl K}
    {linkId : String} (gate : ℕ) {u : Update K} {reply : BrokerLinkControl K → Reply}
    (hlink : links linkId = some ctl) (hu : Admitted ctl u)
    (hok : (reply (ctl.publish gate u)).ok = true) :
    Disciplined (srv.commit ctl linkId gate u reply) links := by
  constructor
  · intro p hp
    rw [List.mem_singleton.mp hp]
    exact ⟨ctl, hlink⟩
  · intro p hp q hq
    rw [List.mem_singleton.mp hp, List.mem_singleton.mp hq]
  · intro p hp c hc
    rw [List.mem_singleton.mp hp] at hc ⊢
    rw [Option.some.inj (hc.symm.trans hlink)]
    exact hu
  · exact hb
  · intro hno
    exact absurd (hok.symm.trans hno) Bool.false_ne_true.symm

end ControlServer

/-! ## What the checks establish -/

section Requests

variable {K : Type}

/-- A link that is found is in the map. -/
theorem findLink_eq_ok {links : LinkMap K} {linkId : String} {ctl : BrokerLinkControl K}
    (h : findLink links linkId = .ok ctl) : links linkId = some ctl := by
  unfold findLink at h
  split at h
  · cases h
  · cases h
    assumption

/-- The link of a swap is in the map. -/
theorem swapLink_eq_ok {kind : String} {links : LinkMap K} {fields : JsonObject K}
    {r : String × BrokerLinkControl K} (h : swapLink kind links fields = .ok r) :
    links r.1 = some r.2 := by
  unfold swapLink at h
  split at h
  · rename_i linkId _
    cases hf : findLink links linkId with
    | error e => rw [hf] at h; cases h
    | ok ctl =>
        rw [hf] at h
        cases h
        exact findLink_eq_ok hf
  · cases h

/-- A check that passes has found nothing. -/
theorem rejectIf_eq_ok {c : Prop} [Decidable c] {reason : String} {u : Unit}
    (h : rejectIf c reason = .ok u) : ¬ c := by
  intro hc
  rw [rejectIf, if_pos hc] at h
  cases h

variable [Field K] [LinearOrder K] [FloorRing K] [Libm K] {srv : ControlServer K}
  {links : LinkMap K} {fields : JsonObject K}

omit [LinearOrder K] [FloorRing K] [Libm K] in
/-- The parameters with a `tap0_` name are those in tap scope. -/
theorem findParamSpec_tapScope {param : String} {spec : ParamSpec K}
    (h : findParamSpec param = some spec) : spec.field.tapScope = param.startsWith "tap0_" := by
  have hname : spec.name = param := by simpa using List.find?_some h
  have hmem := List.mem_of_find?_eq_some h
  rw [← hname]
  simp only [kParamSpecs, List.mem_cons, List.not_mem_nil, or_false] at hmem
  rcases hmem with rfl | rfl | rfl | rfl | rfl | rfl | rfl <;> (dsimp only; decide +kernel)

/-- An admitted scalar request carries a value that its link accepts. -/
theorem scalarRequest_admitted {r : ScalarRequest K} (h : scalarRequest srv links fields = .ok r) :
    links r.linkId = some r.control ∧ Admitted r.control (.scalar r.field r.value) := by
  unfold scalarRequest at h
  obtain ⟨⟨linkId, param, value⟩, -, h⟩ := bind_eq_ok h
  obtain ⟨ctl, hctl, h⟩ := bind_eq_ok h
  obtain ⟨_, htap, h⟩ := bind_eq_ok h
  obtain ⟨spec, hspec, h⟩ := bind_eq_ok h
  obtain ⟨_, -, h⟩ := bind_eq_ok h
  obtain ⟨_, -, h⟩ := bind_eq_ok h
  obtain ⟨gate, -, h⟩ := bind_eq_ok h
  obtain ⟨batch, -, h⟩ := bind_eq_ok h
  cases h
  refine ⟨findLink_eq_ok hctl, ?_⟩
  intro hfixed
  have hfind : findParamSpec param = some spec := by
    unfold paramSpec at hspec
    split at hspec
    · cases hspec
    · cases hspec
      assumption
  rw [findParamSpec_tapScope hfind]
  have hno := rejectIf_eq_ok htap
  by_contra hyes
  exact hno ⟨hfixed, by simpa using hyes⟩

omit [FloorRing K] in
/-- Staged correlation fits the lanes of the link, or clears the matrix. -/
theorem stageCorrelation_eq_ok {ctl : BrokerLinkControl K} {kind : String}
    {rx tx : List (CorrelationEntry K)} {staged : CorrelationShadow K}
    (h : stageCorrelation ctl kind rx tx = .ok staged) :
    staged.lanes = 0 ∨ staged.lanes = ctl.ntHint * ctl.nrHint ∧ 0 < ctl.ntHint * ctl.nrHint ∧
      ctl.ntHint * ctl.nrHint ≤ kMaxCorrelatedLanes := by
  unfold stageCorrelation at h
  split_ifs at h with hkind
  · obtain ⟨_, -, h⟩ := bind_eq_ok h
    cases h
    exact Or.inl rfl
  · obtain ⟨mixing, hmix, h⟩ := bind_eq_ok h
    obtain ⟨_, hcap, h⟩ := bind_eq_ok h
    cases h
    refine Or.inr ⟨rfl, ?_, Nat.le_of_not_lt (rejectIf_eq_ok hcap)⟩
    -- the factorisation refuses a link without lanes
    by_contra hzero
    have hdim : ctl.ntHint = 0 ∨ ctl.nrHint = 0 := by
      rcases Nat.eq_zero_or_pos ctl.ntHint with h0 | hnt
      · exact Or.inl h0
      · rcases Nat.eq_zero_or_pos ctl.nrHint with h0 | hnr
        · exact Or.inr h0
        · exact absurd (Nat.mul_pos hnt hnr) hzero
    rw [laneMixingMatrix, laneMixingMatrixWith, if_pos hdim] at hmix
    cases hmix

/-- An admitted correlation request carries a matrix that its link accepts. -/
theorem correlationRequest_admitted {r : CorrelationRequest K}
    (h : correlationRequest links fields = .ok r) :
    links r.linkId = some r.control ∧ Admitted r.control (.correlation r.staged) := by
  unfold correlationRequest at h
  obtain ⟨⟨linkId, ctl⟩, hctl, h⟩ := bind_eq_ok h
  obtain ⟨_, hdecl, h⟩ := bind_eq_ok h
  obtain ⟨kind, -, h⟩ := bind_eq_ok h
  obtain ⟨_, -, h⟩ := bind_eq_ok h
  obtain ⟨rx, -, h⟩ := bind_eq_ok h
  obtain ⟨tx, -, h⟩ := bind_eq_ok h
  obtain ⟨staged, hstaged, h⟩ := bind_eq_ok h
  obtain ⟨gate, -, h⟩ := bind_eq_ok h
  cases h
  exact ⟨swapLink_eq_ok hctl, by simpa using rejectIf_eq_ok hdecl, stageCorrelation_eq_ok hstaged⟩

omit [Libm K] in
/-- An admitted profile request carries a profile that its link accepts. -/
theorem profileRequest_admitted {r : SwapRequest K (ProfileShadow K)}
    (h : profileRequest srv links fields = .ok r) :
    links r.linkId = some r.control ∧ Admitted r.control (.profile r.staged) := by
  unfold profileRequest at h
  obtain ⟨⟨linkId, ctl⟩, hctl, h⟩ := bind_eq_ok h
  obtain ⟨_, hfixed, h⟩ := bind_eq_ok h
  obtain ⟨_, -, h⟩ := bind_eq_ok h
  obtain ⟨items, -, h⟩ := bind_eq_ok h
  obtain ⟨_, -, h⟩ := bind_eq_ok h
  obtain ⟨_, -, h⟩ := bind_eq_ok h
  obtain ⟨taps, -, h⟩ := bind_eq_ok h
  obtain ⟨staged, -, h⟩ := bind_eq_ok h
  obtain ⟨gate, -, h⟩ := bind_eq_ok h
  obtain ⟨force, -, h⟩ := bind_eq_ok h
  obtain ⟨batch, -, h⟩ := bind_eq_ok h
  cases h
  exact ⟨swapLink_eq_ok hctl, by simpa [Admitted] using rejectIf_eq_ok hfixed⟩

omit [Libm K] in
/-- Filling in lanes leaves the dimensions of a matrix alone. -/
theorem matrixLanes_laneCount {nt nr : ℕ} {force : Bool} {items : List (JsonValue K)} :
    ∀ {entry : ℕ} {seen : List ℕ} {m m' : MatrixProfileShadow K},
      matrixLanes nt nr force entry seen m items = .ok m' → m'.laneCount = m.laneCount := by
  induction items with
  | nil =>
      intro entry seen m m' h
      cases h
      rfl
  | cons item items ih =>
      intro entry seen m m' h
      cases item with
      | object o =>
          unfold matrixLanes at h
          obtain ⟨⟨laneIndex, profile⟩, -, h⟩ := bind_eq_ok h
          exact (ih h).trans rfl
      | string _ => cases h
      | number _ => cases h
      | bool _ => cases h
      | array _ => cases h

omit [Libm K] in
/-- A link whose dimensions pass has at most as many lanes as a matrix can take. -/
theorem matrixDimensions_eq_ok {ctl : BrokerLinkControl K} {u : Unit}
    (h : matrixDimensions ctl fields = .ok u) :
    ctl.ntHint * ctl.nrHint ≤ kMaxCorrelatedLanes := by
  unfold matrixDimensions at h
  obtain ⟨ntValue, -, h⟩ := bind_eq_ok h
  obtain ⟨nrValue, -, h⟩ := bind_eq_ok h
  obtain ⟨_, -, h⟩ := bind_eq_ok h
  obtain ⟨_, -, h⟩ := bind_eq_ok h
  exact Nat.le_of_not_lt (rejectIf_eq_ok h)

omit [Libm K] in
/-- An admitted matrix request carries a matrix profile that its link accepts. -/
theorem matrixRequest_admitted {r : SwapRequest K (MatrixProfileShadow K)}
    (h : matrixRequest srv links fields = .ok r) :
    links r.linkId = some r.control ∧ Admitted r.control (.matrix r.staged) := by
  unfold matrixRequest at h
  obtain ⟨⟨linkId, ctl⟩, hctl, h⟩ := bind_eq_ok h
  obtain ⟨_, hsupported, h⟩ := bind_eq_ok h
  obtain ⟨_, hfixed, h⟩ := bind_eq_ok h
  obtain ⟨_, hdim, h⟩ := bind_eq_ok h
  obtain ⟨items, -, h⟩ := bind_eq_ok h
  obtain ⟨_, -, h⟩ := bind_eq_ok h
  obtain ⟨force, -, h⟩ := bind_eq_ok h
  obtain ⟨gate, -, h⟩ := bind_eq_ok h
  obtain ⟨staged, hstaged, h⟩ := bind_eq_ok h
  obtain ⟨_, -, h⟩ := bind_eq_ok h
  obtain ⟨batch, -, h⟩ := bind_eq_ok h
  cases h
  refine ⟨swapLink_eq_ok hctl, ?_, ?_, matrixLanes_laneCount hstaged, matrixDimensions_eq_ok hdim⟩
  · simpa using rejectIf_eq_ok hfixed
  · simpa using rejectIf_eq_ok hsupported

end Requests

/-! ## Every message is disciplined -/

section Messages

variable {K : Type} [Field K] [LinearOrder K] [FloorRing K] {srv : ControlServer K}
  {links : LinkMap K}

open ControlServer

/-- A scalar update publishes or stages what was admitted, or nothing. -/
theorem handleScalarUpdate_disciplined [Libm K] (hb : BatchesAdmitted srv links) (fields : JsonObject K) :
    Disciplined (handleScalarUpdate srv links fields) links := by
  unfold handleScalarUpdate
  split
  · exact emitRejection_disciplined hb _
  · rename_i r hr
    obtain ⟨hlink, hadm⟩ := scalarRequest_admitted hr
    split
    · refine stageOp_disciplined hb _ fun ctl hctl => ?_
      rw [Option.some.inj (hctl.symm.trans hlink)]
      exact hadm
    · exact commit_disciplined hb _ hlink hadm rfl

/-- A profile swap publishes or stages what was admitted, or nothing. -/
theorem handleProfileSwap_disciplined (hb : BatchesAdmitted srv links) (fields : JsonObject K) :
    Disciplined (handleProfileSwap srv links fields) links := by
  unfold handleProfileSwap
  split
  · exact emitRejection_disciplined hb _
  · rename_i r hr
    obtain ⟨hlink, hadm⟩ := profileRequest_admitted hr
    split
    · refine stageOp_disciplined hb _ fun ctl hctl => ?_
      rw [Option.some.inj (hctl.symm.trans hlink)]
      exact hadm
    · exact commit_disciplined hb _ hlink hadm rfl

/-- A matrix profile swap publishes or stages what was admitted, or nothing. -/
theorem handleMatrixProfileSwap_disciplined (hb : BatchesAdmitted srv links)
    (fields : JsonObject K) : Disciplined (handleMatrixProfileSwap srv links fields) links := by
  unfold handleMatrixProfileSwap
  split
  · exact emitRejection_disciplined hb _
  · rename_i r hr
    obtain ⟨hlink, hadm⟩ := matrixRequest_admitted hr
    split
    · refine stageOp_disciplined hb _ fun ctl hctl => ?_
      rw [Option.some.inj (hctl.symm.trans hlink)]
      exact hadm
    · exact commit_disciplined hb _ hlink hadm rfl

/-- A correlation swap publishes or stages what was admitted, or nothing. -/
theorem handleCorrelationSwap_disciplined [Libm K] (hb : BatchesAdmitted srv links)
    (fields : JsonObject K) : Disciplined (handleCorrelationSwap srv links fields) links := by
  unfold handleCorrelationSwap
  split
  · exact emitRejection_disciplined hb _
  · rename_i r hr
    obtain ⟨hlink, hadm⟩ := correlationRequest_admitted hr
    exact commit_disciplined hb _ hlink hadm rfl

omit [Field K] [LinearOrder K] [FloorRing K] in
/-- Opening a batch publishes nothing. -/
theorem handleBatchBegin_disciplined (hb : BatchesAdmitted srv links) (fields : JsonObject K) :
    Disciplined (handleBatchBegin srv fields) links := by
  unfold handleBatchBegin
  split
  · exact emitRejection_disciplined hb _
  · split_ifs
    · exact emitRejection_disciplined hb _
    · exact emitRejection_disciplined hb _
    · refine disciplined_of_published_nil rfl ?_
      intro batch hbatch
      rcases List.mem_append.mp hbatch with hbatch | hbatch
      · exact hb batch hbatch
      · rw [List.mem_singleton.mp hbatch]
        intro op hop
        exact absurd hop List.not_mem_nil

omit [Field K] [LinearOrder K] [FloorRing K] in
/-- Dropping a batch leaves admitted batches. -/
theorem BatchesAdmitted.filter (hb : BatchesAdmitted srv links) (bid : String) :
    BatchesAdmitted { srv with openBatches := srv.openBatches.filter (·.1 ≠ bid) } links :=
  fun batch hbatch => hb batch (List.mem_of_mem_filter hbatch)

omit [Field K] [LinearOrder K] [FloorRing K] in
/-- The open batch of an id is one of the server's. -/
theorem openBatch_mem {kind bid : String} {ops : List (StagedOp K)}
    (h : openBatch srv kind bid = .ok ops) : (bid, ops) ∈ srv.openBatches := by
  unfold openBatch at h
  split at h
  · cases h
  · rename_i ops' hlookup
    cases h
    obtain ⟨l₁, l₂, hsplit, -⟩ := List.lookup_eq_some_iff.mp hlookup
    rw [hsplit]
    exact List.mem_append_right _ List.mem_cons_self

/-- A commit publishes what was admitted when it was staged. -/
theorem handleBatchCommit_disciplined (hb : BatchesAdmitted srv links) (fields : JsonObject K) :
    Disciplined (handleBatchCommit srv links fields) links := by
  unfold handleBatchCommit
  split
  · exact emitRejection_disciplined hb _
  · rename_i bid ops applyAt hreq
    have hmem : (bid, ops) ∈ srv.openBatches := by
      unfold commitRequest at hreq
      obtain ⟨b, -, hreq⟩ := bind_eq_ok hreq
      obtain ⟨o, ho, hreq⟩ := bind_eq_ok hreq
      obtain ⟨g, -, hreq⟩ := bind_eq_ok hreq
      cases hreq
      exact openBatch_mem ho
    dsimp only
    constructor
    · intro p hp
      obtain ⟨op, hop, rfl⟩ := List.mem_map.mp hp
      exact Option.isSome_iff_exists.mp (List.mem_filter.mp hop).2
    · intro p hp q hq
      obtain ⟨_, _, rfl⟩ := List.mem_map.mp hp
      obtain ⟨_, _, rfl⟩ := List.mem_map.mp hq
      rfl
    · intro p hp ctl hctl
      obtain ⟨op, hop, rfl⟩ := List.mem_map.mp hp
      exact hb _ hmem op (List.mem_filter.mp hop).1 ctl hctl
    · exact hb.filter bid
    · intro hno
      exact absurd hno Bool.false_ne_true.symm

omit [Field K] [LinearOrder K] [FloorRing K] in
/-- An abort publishes nothing. -/
theorem handleBatchAbort_disciplined (hb : BatchesAdmitted srv links) (fields : JsonObject K) :
    Disciplined (handleBatchAbort srv fields) links := by
  unfold handleBatchAbort
  split
  · exact emitRejection_disciplined hb _
  · exact disciplined_of_published_nil rfl (hb.filter _)

/-- **Discipline of the control server.** Whatever the message, it publishes only to known
links, all behind one gate, and only updates that the links' hints admit; a rejected
message publishes nothing. -/
theorem handleMessage_disciplined [Libm K] (hb : BatchesAdmitted srv links) (fields : JsonObject K) :
    Disciplined (handleMessage srv links fields) links := by
  have hb' : BatchesAdmitted { srv with msgsReceived := srv.msgsReceived + 1 } links := hb
  unfold handleMessage dispatch
  split
  · exact emitRejection_disciplined hb' _
  · split_ifs
    · exact handleScalarUpdate_disciplined hb' fields
    · exact handleProfileSwap_disciplined hb' fields
    · exact handleMatrixProfileSwap_disciplined hb' fields
    · exact handleCorrelationSwap_disciplined hb' fields
    · exact handleBatchBegin_disciplined hb' fields
    · exact handleBatchCommit_disciplined hb' fields
    · exact handleBatchAbort_disciplined hb' fields
    · exact emitRejection_disciplined hb' _

end Messages

/-! ## The control plane -/

/-- The physical links by key. -/
abbrev LinkTable (K : Type) := String → Option (PhysicalLinkRuntime K)

namespace LinkTable

variable {K : Type}

/-- The map that the broker hands to the control server. -/
def linkMap (links : LinkTable K) : LinkMap K := fun linkId => (links linkId).map (·.control)

/-- The commit blocks of a message performed on the links. -/
def publishAll (links : LinkTable K) (ps : List (Publication K)) : LinkTable K :=
  ps.foldl (fun links p =>
    Function.update links p.linkId ((links p.linkId).map (·.publish p.gate p.update))) links

/-- The publications to one link, on that link alone. -/
def publishTo (linkId : String) (ps : List (Publication K)) (link : PhysicalLinkRuntime K) :
    PhysicalLinkRuntime K :=
  (ps.filter (·.linkId = linkId)).foldl (fun link p => link.publish p.gate p.update) link

/-- A message reaches a link through its own publications only. -/
theorem publishAll_apply (links : LinkTable K) (ps : List (Publication K)) (linkId : String) :
    links.publishAll ps linkId = (links linkId).map (publishTo linkId ps) := by
  induction ps generalizing links with
  | nil =>
      have hid : publishTo linkId ([] : List (Publication K)) = id := rfl
      rw [hid, Option.map_id]
      rfl
  | cons p ps ih =>
      have hcons : links.publishAll (p :: ps) =
          publishAll (Function.update links p.linkId
            ((links p.linkId).map (·.publish p.gate p.update))) ps := rfl
      rw [hcons, ih]
      by_cases hid : p.linkId = linkId
      · subst hid
        rw [Function.update_self, Option.map_map]
        congr 1
        funext link
        simp [publishTo]
      · rw [Function.update_of_ne (Ne.symm hid)]
        congr 1
        funext link
        simp [publishTo, hid]

/-- Publications keep the hints of every link. -/
theorem sameHints_publishTo (linkId : String) (ps : List (Publication K))
    (link : PhysicalLinkRuntime K) :
    SameHints (publishTo linkId ps link).control link.control := by
  unfold publishTo
  generalize ps.filter (·.linkId = linkId) = qs
  suffices h : ∀ (l : PhysicalLinkRuntime K), SameHints l.control link.control →
      SameHints (qs.foldl (fun l p => l.publish p.gate p.update) l).control link.control from
    h link ⟨rfl, rfl, rfl, rfl, rfl⟩
  induction qs with
  | nil => exact fun l hl => hl
  | cons q qs ih => exact fun l hl => ih _ (hl.publish q.gate q.update)

end LinkTable

/-- Batches stay admitted while no link changes its hints. -/
theorem BatchesAdmitted.of_sameHints {K : Type} {srv : ControlServer K} {links links' : LinkTable K}
    (hb : BatchesAdmitted srv links.linkMap)
    (hsame : ∀ id link', links' id = some link' →
      ∃ link, links id = some link ∧ SameHints link'.control link.control) :
    BatchesAdmitted srv links'.linkMap := by
  intro batch hbatch op hop ctl hctl
  obtain ⟨link', hlink', rfl⟩ := Option.map_eq_some_iff.mp hctl
  obtain ⟨link, hlink, hints⟩ := hsame op.linkId link' hlink'
  rw [hints.admitted]
  exact hb batch hbatch op hop link.control (by rw [LinkTable.linkMap, hlink]; rfl)

/-- A snap keeps the hints. -/
theorem sameHints_snap {K : Type} [Field K] [LinearOrder K] [FloorRing K]
    (link : PhysicalLinkRuntime K) (count : ℕ) :
    SameHints (link.snap count).1.control link.control := by
  have h := link.snap_sameCore count
  have hctl := link.snapValues_control
  constructor
  · rw [h.fixedMimoDeclared, hctl]
  · rw [h.matrixProfileSupported, hctl]
  · rw [h.correlationDeclared, hctl]
  · rw [h.ntHint, hctl]
  · rw [h.nrHint, hctl]

/-- **The control plane.** -/
structure ControlPlane (K : Type) where
  server : ControlServer K
  links : LinkTable K

/-- One step: a message handled whole, or the next slot of one link. -/
inductive ControlEvent (K : Type)
  | message (fields : JsonObject K)
  | slot (linkId : String) (count : ℕ)

/-- What `prepare` fixes of a link before the first slot. -/
structure LinkSetup (K : Type) where
  yamlInitial : MutableParams K
  mixing : List (Cplx K)
  chainHasLeadingTdl : Bool
  ntHint : ℕ
  nrHint : ℕ
  fixedMimoDeclared : Bool
  correlationDeclared : Bool
  matrixProfileSupported : Bool
  dlSizeSamplesHint : ℕ
  slotCountHint : ℕ

namespace ControlPlane

variable {K : Type} [Field K] [LinearOrder K] [FloorRing K] [Libm K]

/-- The runtime of a link after `prepare`: `init_broker_link_control` and the hints. -/
def preparedLink (setup : LinkSetup K) : PhysicalLinkRuntime K :=
  { PhysicalLinkRuntime.default with
    fading :=
      { laneGrids := [], mixing := setup.mixing, lanes := setup.ntHint * setup.nrHint
        laneReady := [] }
    control :=
      { BrokerLinkControl.default.init setup.yamlInitial with
        ntHint := setup.ntHint, nrHint := setup.nrHint
        fixedMimoDeclared := setup.fixedMimoDeclared
        correlationDeclared := setup.correlationDeclared
        matrixProfileSupported := setup.matrixProfileSupported
        dlSizeSamplesHint := setup.dlSizeSamplesHint, slotCountHint := setup.slotCountHint }
    live := setup.yamlInitial
    chainHasLeadingTdl := setup.chainHasLeadingTdl }

/-- The control plane of prepared links, before the first message. -/
def prepared (warmupCapSlots : ℤ) (backendName : String) (setup : String → Option (LinkSetup K)) :
    ControlPlane K :=
  { server := ControlServer.start K warmupCapSlots backendName
    links := fun linkId => (setup linkId).map preparedLink }

/-- What the server makes of a message in this state. -/
def handled (plane : ControlPlane K) (fields : JsonObject K) : Handled K :=
  handleMessage plane.server plane.links.linkMap fields

def step (plane : ControlPlane K) : ControlEvent K → ControlPlane K
  | .message fields =>
      { server := (plane.handled fields).server
        links := plane.links.publishAll (plane.handled fields).published }
  | .slot linkId count =>
      { plane with links :=
          Function.update plane.links linkId ((plane.links linkId).map fun link => (link.snap count).1) }

/-- A message publishes to a link what the handler publishes to it. -/
theorem step_message_links (plane : ControlPlane K) (fields : JsonObject K) (id : String) :
    (plane.step (.message fields)).links id =
      (plane.links id).map (LinkTable.publishTo id (plane.handled fields).published) :=
  LinkTable.publishAll_apply _ _ id

/-- A slot snaps its own link. -/
theorem step_slot_links (plane : ControlPlane K) (id : String) (count : ℕ) :
    (plane.step (.slot id count)).links id =
      (plane.links id).map fun link => (link.snap count).1 :=
  Function.update_self ..

/-- A slot snaps no other link. -/
theorem step_slot_links_of_ne (plane : ControlPlane K) {id linkId : String} (h : id ≠ linkId)
    (count : ℕ) : (plane.step (.slot linkId count)).links id = plane.links id :=
  Function.update_of_ne h ..

omit [LinearOrder K] [FloorRing K] [Libm K] in
/-- Nothing waits in a batch before the first message. -/
theorem prepared_batchesAdmitted (warmupCapSlots : ℤ) (backendName : String)
    (setup : String → Option (LinkSetup K)) :
    BatchesAdmitted (prepared warmupCapSlots backendName setup).server
      (prepared warmupCapSlots backendName setup).links.linkMap :=
  fun _ hbatch => absurd hbatch List.not_mem_nil

/-- The batches stay admitted in every step. -/
theorem step_batchesAdmitted {plane : ControlPlane K}
    (hb : BatchesAdmitted plane.server plane.links.linkMap) (e : ControlEvent K) :
    BatchesAdmitted (plane.step e).server (plane.step e).links.linkMap := by
  cases e with
  | message fields =>
      refine (handleMessage_disciplined hb fields).batches.of_sameHints ?_
      intro id link' hlink'
      rw [step_message_links] at hlink'
      obtain ⟨link, hlink, rfl⟩ := Option.map_eq_some_iff.mp hlink'
      exact ⟨link, hlink, LinkTable.sameHints_publishTo id _ link⟩
  | slot linkId count =>
      refine hb.of_sameHints ?_
      intro id link' hlink'
      by_cases hid : id = linkId
      · subst hid
        rw [step_slot_links] at hlink'
        obtain ⟨link, hlink, rfl⟩ := Option.map_eq_some_iff.mp hlink'
        exact ⟨link, hlink, sameHints_snap link count⟩
      · rw [step_slot_links_of_ne plane hid] at hlink'
        exact ⟨link', hlink', rfl, rfl, rfl, rfl, rfl⟩

end ControlPlane
