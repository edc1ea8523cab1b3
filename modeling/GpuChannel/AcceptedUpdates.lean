/-
# What every accepted update satisfies

A property that the checks of each handler establish holds of every update that reaches a link,
whether it was committed at once or waited in a batch.  The property may name the link.
-/
import GpuChannel.ControlPlane

variable {K : Type} [Field K] [LinearOrder K] [FloorRing K] [Libm K]

/-- The checks of each handler establish the property. -/
structure Vouches (srv : ControlServer K) (links : LinkMap K) (P : String → Update K → Prop) :
    Prop where
  scalar : ∀ fields r, scalarRequest srv links fields = .ok r →
    P r.linkId (.scalar r.field r.value)
  profile : ∀ fields r, profileRequest srv links fields = .ok r → P r.linkId (.profile r.staged)
  matrix : ∀ fields r, matrixRequest srv links fields = .ok r → P r.linkId (.matrix r.staged)
  correlation : ∀ fields r, correlationRequest links fields = .ok r →
    P r.linkId (.correlation r.staged)

/-- Every op that waits in a batch has the property. -/
def BatchesHold (srv : ControlServer K) (P : String → Update K → Prop) : Prop :=
  ∀ batch ∈ srv.openBatches, ∀ op ∈ batch.2, P op.linkId op.update

/-- What one handled message publishes and leaves waiting has the property; the cap of the server
stays. -/
structure Handled.Keeps (h : Handled K) (srv : ControlServer K) (P : String → Update K → Prop) :
    Prop where
  published : ∀ p ∈ h.published, P p.linkId p.update
  batches : BatchesHold h.server P
  warmupCapSlots : h.server.warmupCapSlots = srv.warmupCapSlots

namespace Vouches

variable {srv : ControlServer K} {links : LinkMap K} {P : String → Update K → Prop}

omit [Field K] [LinearOrder K] [FloorRing K] [Libm K] in
/-- A handler that publishes nothing keeps what is vouched for. -/
theorem keeps_of_published_nil {h : Handled K} (hpub : h.published = []) (hb : BatchesHold h.server P)
    (hcap : h.server.warmupCapSlots = srv.warmupCapSlots) : h.Keeps srv P := by
  refine ⟨?_, hb, hcap⟩
  intro p hp
  rw [hpub] at hp
  exact absurd hp List.not_mem_nil

omit [Field K] [LinearOrder K] [FloorRing K] [Libm K] in
/-- A rejection keeps what is vouched for. -/
theorem emitRejection_keeps (hb : BatchesHold srv P) (reason : String) :
    (srv.emitRejection reason).Keeps srv P :=
  keeps_of_published_nil rfl hb rfl

omit [Field K] [LinearOrder K] [FloorRing K] [Libm K] in
/-- Staging a vouched op keeps what is vouched for. -/
theorem stageOp_keeps (hb : BatchesHold srv P) (bid : String) {op : StagedOp K}
    (hop : P op.linkId op.update) : (srv.stageOp bid op).Keeps srv P := by
  refine keeps_of_published_nil rfl ?_ rfl
  intro batch hbatch x hx
  obtain ⟨old, hold, rfl⟩ := List.mem_map.mp hbatch
  split_ifs at hx with hid
  · rcases List.mem_append.mp hx with hx | hx
    · exact hb old hold x hx
    · rw [List.mem_singleton.mp hx]
      exact hop
  · exact hb old hold x hx

omit [Field K] [LinearOrder K] [FloorRing K] [Libm K] in
/-- Publishing a vouched update keeps what is vouched for. -/
theorem commit_keeps (hb : BatchesHold srv P) (ctl : BrokerLinkControl K) (linkId : String)
    (gate : ℕ) {u : Update K} (reply : BrokerLinkControl K → Reply) (hu : P linkId u) :
    (srv.commit ctl linkId gate u reply).Keeps srv P := by
  refine ⟨?_, hb, rfl⟩
  intro p hp
  rw [List.mem_singleton.mp hp]
  exact hu

/-- A scalar update keeps what is vouched for. -/
theorem handleScalarUpdate_keeps (h : Vouches srv links P) (hb : BatchesHold srv P)
    (fields : JsonObject K) : (handleScalarUpdate srv links fields).Keeps srv P := by
  unfold handleScalarUpdate
  split
  · exact emitRejection_keeps hb _
  · rename_i r hr
    split
    · exact stageOp_keeps hb _ (h.scalar fields r hr)
    · exact commit_keeps hb _ _ _ _ (h.scalar fields r hr)

/-- A profile swap keeps what is vouched for. -/
theorem handleProfileSwap_keeps (h : Vouches srv links P) (hb : BatchesHold srv P)
    (fields : JsonObject K) : (handleProfileSwap srv links fields).Keeps srv P := by
  unfold handleProfileSwap
  split
  · exact emitRejection_keeps hb _
  · rename_i r hr
    split
    · exact stageOp_keeps hb _ (h.profile fields r hr)
    · exact commit_keeps hb _ _ _ _ (h.profile fields r hr)

/-- A matrix profile swap keeps what is vouched for. -/
theorem handleMatrixProfileSwap_keeps (h : Vouches srv links P) (hb : BatchesHold srv P)
    (fields : JsonObject K) : (handleMatrixProfileSwap srv links fields).Keeps srv P := by
  unfold handleMatrixProfileSwap
  split
  · exact emitRejection_keeps hb _
  · rename_i r hr
    split
    · exact stageOp_keeps hb _ (h.matrix fields r hr)
    · exact commit_keeps hb _ _ _ _ (h.matrix fields r hr)

/-- A correlation swap keeps what is vouched for. -/
theorem handleCorrelationSwap_keeps (h : Vouches srv links P) (hb : BatchesHold srv P)
    (fields : JsonObject K) : (handleCorrelationSwap srv links fields).Keeps srv P := by
  unfold handleCorrelationSwap
  split
  · exact emitRejection_keeps hb _
  · rename_i r hr
    exact commit_keeps hb _ _ _ _ (h.correlation fields r hr)

omit [Field K] [LinearOrder K] [FloorRing K] [Libm K] in
/-- Opening a batch keeps what is vouched for. -/
theorem handleBatchBegin_keeps (hb : BatchesHold srv P) (fields : JsonObject K) :
    (handleBatchBegin srv fields).Keeps srv P := by
  unfold handleBatchBegin
  split
  · exact emitRejection_keeps hb _
  · split_ifs
    · exact emitRejection_keeps hb _
    · exact emitRejection_keeps hb _
    · refine keeps_of_published_nil rfl ?_ rfl
      intro batch hbatch
      rcases List.mem_append.mp hbatch with hbatch | hbatch
      · exact hb batch hbatch
      · rw [List.mem_singleton.mp hbatch]
        intro op hop
        exact absurd hop List.not_mem_nil

omit [Libm K] in
/-- A commit publishes what was vouched for when it was staged. -/
theorem handleBatchCommit_keeps (hb : BatchesHold srv P) (fields : JsonObject K) :
    (handleBatchCommit srv links fields).Keeps srv P := by
  unfold handleBatchCommit
  split
  · exact emitRejection_keeps hb _
  · rename_i bid ops applyAt hreq
    have hmem : (bid, ops) ∈ srv.openBatches := by
      unfold commitRequest at hreq
      obtain ⟨b, -, hreq⟩ := bind_eq_ok hreq
      obtain ⟨o, ho, hreq⟩ := bind_eq_ok hreq
      obtain ⟨g, -, hreq⟩ := bind_eq_ok hreq
      cases hreq
      exact openBatch_mem ho
    refine ⟨?_, ?_, rfl⟩
    · intro p hp
      obtain ⟨op, hop, rfl⟩ := List.mem_map.mp hp
      exact hb _ hmem op (List.mem_filter.mp hop).1
    · exact fun batch hbatch => hb batch (List.mem_of_mem_filter hbatch)

omit [Field K] [LinearOrder K] [FloorRing K] [Libm K] in
/-- An abort keeps what is vouched for. -/
theorem handleBatchAbort_keeps (hb : BatchesHold srv P) (fields : JsonObject K) :
    (handleBatchAbort srv fields).Keeps srv P := by
  unfold handleBatchAbort
  split
  · exact emitRejection_keeps hb _
  · exact keeps_of_published_nil rfl (fun batch hbatch => hb batch (List.mem_of_mem_filter hbatch))
      rfl

/-- **Whatever the message**, what it publishes and what it leaves waiting has the property. -/
theorem handleMessage_keeps
    (h : Vouches { srv with msgsReceived := srv.msgsReceived + 1 } links P)
    (hb : BatchesHold srv P) (fields : JsonObject K) :
    (handleMessage srv links fields).Keeps srv P := by
  have hb' : BatchesHold { srv with msgsReceived := srv.msgsReceived + 1 } P := hb
  suffices hkeeps : (handleMessage srv links fields).Keeps
      { srv with msgsReceived := srv.msgsReceived + 1 } P from
    ⟨hkeeps.published, hkeeps.batches, hkeeps.warmupCapSlots⟩
  unfold handleMessage dispatch
  split
  · exact emitRejection_keeps hb' _
  · split_ifs
    · exact h.handleScalarUpdate_keeps hb' fields
    · exact h.handleProfileSwap_keeps hb' fields
    · exact h.handleMatrixProfileSwap_keeps hb' fields
    · exact h.handleCorrelationSwap_keeps hb' fields
    · exact handleBatchBegin_keeps hb' fields
    · exact handleBatchCommit_keeps hb' fields
    · exact handleBatchAbort_keeps hb' fields
    · exact emitRejection_keeps hb' _

end Vouches
