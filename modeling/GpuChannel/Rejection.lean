/-
# Rejections

A handler writes nothing before its last check: whatever it answers with an error is the
work of `emit_rejection` alone, so a rejected request leaves the links and the open
batches as they were.
-/
import GpuChannel.JsonReader
import GpuChannel.Scheduling

variable {K : Type}

/-- A handler that answers with an error has only called `emit_rejection`. -/
def OnlyRejects (srv : ControlServer K) (h : Handled K) : Prop :=
  h.reply.ok = false → ∃ reason, h = srv.emitRejection reason

/-- A rejection only rejects. -/
theorem OnlyRejects.emitRejection (srv : ControlServer K) (reason : String) :
    OnlyRejects srv (srv.emitRejection reason) :=
  fun _ => ⟨reason, rfl⟩

/-- An accepted message has nothing to show. -/
theorem OnlyRejects.of_ok (srv : ControlServer K) {h : Handled K} (hok : h.reply.ok = true) :
    OnlyRejects srv h :=
  fun hno => absurd (hok.symm.trans hno) Bool.noConfusion

section Handlers

variable [Field K] [LinearOrder K] [FloorRing K] [Libm K] (srv : ControlServer K)
  (links : LinkMap K) (fields : JsonObject K)

/-- A scalar update that is rejected changes the counters only. -/
theorem handleScalarUpdate_onlyRejects :
    OnlyRejects srv (handleScalarUpdate srv links fields) := by
  unfold handleScalarUpdate
  split
  · exact .emitRejection srv _
  · split
    · exact .of_ok srv rfl
    · exact .of_ok srv rfl

/-- A correlation swap that is rejected changes the counters only. -/
theorem handleCorrelationSwap_onlyRejects :
    OnlyRejects srv (handleCorrelationSwap srv links fields) := by
  unfold handleCorrelationSwap
  split
  · exact .emitRejection srv _
  · exact .of_ok srv rfl

omit [Libm K] in
/-- A profile swap that is rejected changes the counters only. -/
theorem handleProfileSwap_onlyRejects :
    OnlyRejects srv (handleProfileSwap srv links fields) := by
  unfold handleProfileSwap
  split
  · exact .emitRejection srv _
  · split
    · exact .of_ok srv rfl
    · exact .of_ok srv rfl

omit [Libm K] in
/-- A matrix profile swap that is rejected changes the counters only. -/
theorem handleMatrixProfileSwap_onlyRejects :
    OnlyRejects srv (handleMatrixProfileSwap srv links fields) := by
  unfold handleMatrixProfileSwap
  split
  · exact .emitRejection srv _
  · split
    · exact .of_ok srv rfl
    · exact .of_ok srv rfl

omit [Field K] [LinearOrder K] [FloorRing K] [Libm K] in
/-- Opening a batch in vain changes the counters only. -/
theorem handleBatchBegin_onlyRejects : OnlyRejects srv (handleBatchBegin srv fields) := by
  unfold handleBatchBegin
  split
  · exact .emitRejection srv _
  · split_ifs
    · exact .emitRejection srv _
    · exact .emitRejection srv _
    · exact .of_ok srv rfl

omit [Libm K] in
/-- A commit in vain changes the counters only. -/
theorem handleBatchCommit_onlyRejects : OnlyRejects srv (handleBatchCommit srv links fields) := by
  unfold handleBatchCommit
  split
  · exact .emitRejection srv _
  · exact .of_ok srv rfl

omit [Field K] [LinearOrder K] [FloorRing K] [Libm K] in
/-- An abort in vain changes the counters only. -/
theorem handleBatchAbort_onlyRejects : OnlyRejects srv (handleBatchAbort srv fields) := by
  unfold handleBatchAbort
  split
  · exact .emitRejection srv _
  · exact .of_ok srv rfl

/-- Whatever is dispatched, a rejection changes the counters only. -/
theorem dispatch_onlyRejects : OnlyRejects srv (dispatch srv links fields) := by
  unfold dispatch
  split
  · exact .emitRejection srv _
  · split_ifs
    · exact handleScalarUpdate_onlyRejects srv links fields
    · exact handleProfileSwap_onlyRejects srv links fields
    · exact handleMatrixProfileSwap_onlyRejects srv links fields
    · exact handleCorrelationSwap_onlyRejects srv links fields
    · exact handleBatchBegin_onlyRejects srv fields
    · exact handleBatchCommit_onlyRejects srv links fields
    · exact handleBatchAbort_onlyRejects srv fields
    · exact .emitRejection srv _

/-- Whatever the body, a rejected request has counted itself and been rejected. -/
theorem handleRequest_onlyRejects (body : List Char) :
    OnlyRejects { srv with msgsReceived := srv.msgsReceived + 1 }
      (handleRequest srv links body) := by
  unfold handleRequest
  split
  · exact .emitRejection _ _
  · exact dispatch_onlyRejects _ links _

end Handlers

namespace ControlPlane

variable [Field K] [LinearOrder K] [FloorRing K] [Libm K]

/-- The control plane after `handle_message` on a request body. -/
def receive (plane : ControlPlane K) (body : List Char) : ControlPlane K :=
  let h := handleRequest plane.server plane.links.linkMap body
  { server := h.server, links := plane.links.publishAll h.published }

/-- **Rejection is side-effect free.** A request that is answered with an error leaves every
link and every open batch as it was; only the received and rejected counters move. -/
theorem rejected_request_changes_counters (plane : ControlPlane K) (body : List Char)
    (hrejected : (handleRequest plane.server plane.links.linkMap body).reply.ok = false) :
    (plane.receive body).links = plane.links ∧
      (plane.receive body).server =
        { plane.server with
          msgsReceived := plane.server.msgsReceived + 1
          updatesRejected := plane.server.updatesRejected + 1 } := by
  obtain ⟨reason, h⟩ :=
    handleRequest_onlyRejects plane.server plane.links.linkMap body hrejected
  unfold receive
  rw [h]
  exact ⟨rfl, rfl⟩

/-- A carrier offset outside its range, asked of the link `l` by text. -/
def outOfRangeBody : List Char :=
  "\x7b\"link_id\": \"l\", \"param\": \"cfo_hz\", \"value\": 6e4\x7d".toList

theorem rejected_request_changes_counters_outOfRange :
    (scheduledPlane.1.receive outOfRangeBody).links = scheduledPlane.1.links ∧
      (scheduledPlane.1.receive outOfRangeBody).server =
        { scheduledPlane.1.server with
          msgsReceived := scheduledPlane.1.server.msgsReceived + 1
          updatesRejected := scheduledPlane.1.server.updatesRejected + 1 } :=
  rejected_request_changes_counters scheduledPlane.1 outOfRangeBody (by decide +kernel)

end ControlPlane
