/-
# Batch isolation

The run lemmas over `Batches`: the control plane with an open batch against the one that never
saw a message of the batch, step by step and over a whole run, and what an abort or a
commit makes of it.
-/
import GpuChannel.Batches

variable {K : Type}

/-! ## Runs with and without the batch -/

section Runs

variable [Field K] [LinearOrder K] [FloorRing K] [Libm K] {bid : String}
  {ops : Option (List (StagedOp K))} {p q : ControlPlane K}

/-- `q` is the control plane `p` without the batch, which holds `ops`. -/
structure ControlPlane.Without (bid : String) (ops : Option (List (StagedOp K)))
    (p q : ControlPlane K) : Prop where
  server : p.server.Without bid ops q.server
  links : q.links = p.links

/-- A message of this type about the batch of this id. -/
structure NamesBatch (type bid : String) (fields : JsonObject K) : Prop where
  type : getString fields "type" "scalar" = .ok type
  id : stringField fields "id" = some bid

/-- **The ops that a run stages in the batch**: what each message that addresses it would
publish at once if it named no batch. -/
def stagedOps (bid : String) : ControlPlane K → List (ControlEvent K) → List (StagedOp K)
  | _, [] => []
  | p, .message fields :: es =>
      (if addressedBatch fields = some bid then opsOf (p.handled (withoutBatch fields)) else []) ++
        stagedOps bid (p.step (.message fields)) es
  | p, .slot linkId count :: es => stagedOps bid (p.step (.slot linkId count)) es

namespace ControlPlane

omit [Field K] [LinearOrder K] [FloorRing K] [Libm K] in
theorem Without.counted (h : Without bid ops p q) :
    ControlServer.Without bid ops
      { p.server with msgsReceived := p.server.msgsReceived + 1 }
      { q.server with msgsReceived := q.server.msgsReceived + 1 } :=
  ⟨h.server.holds, h.server.openBatches, h.server.warmupCapSlots⟩

theorem Without.step_other (h : Without bid ops p q) {e : ControlEvent K}
    (he : e.addresses bid = false) : Without bid ops (p.step e) (q.step e) := by
  cases e with
  | message fields =>
      have hne : addressedBatch fields ≠ some bid := by simpa [ControlEvent.addresses] using he
      have hboth := dispatch_without p.links.linkMap h.counted hne
      have hmap : q.links.linkMap = p.links.linkMap := by rw [h.links]
      refine ⟨?_, ?_⟩
      · change ControlServer.Without bid ops (dispatch _ p.links.linkMap fields).server
          (dispatch _ q.links.linkMap fields).server
        rw [hmap]
        exact hboth.server
      · change q.links.publishAll (dispatch _ q.links.linkMap fields).published =
          p.links.publishAll (dispatch _ p.links.linkMap fields).published
        rw [hmap, hboth.published, h.links]
  | slot linkId count =>
      refine ⟨h.server, ?_⟩
      change Function.update q.links _ _ = Function.update p.links _ _
      rw [h.links]

theorem Without.step_addressed {held : List (StagedOp K)} (h : Without bid (some held) p q)
    (hbid : bid ≠ "") {fields : JsonObject K} (haddr : addressedBatch fields = some bid)
    (hends : endsBatch bid fields = false) :
    Without bid (some (held ++ opsOf (p.handled (withoutBatch fields))))
      (p.step (.message fields)) q := by
  have hcounted : ControlServer.Without bid (some held)
      { p.server with msgsReceived := p.server.msgsReceived + 1 } q.server :=
    ⟨h.server.holds, h.server.openBatches, h.server.warmupCapSlots⟩
  have habsorbed := dispatch_absorbed p.links.linkMap hcounted hbid haddr hends
  refine ⟨habsorbed.server, ?_⟩
  change q.links = p.links.publishAll (dispatch _ p.links.linkMap fields).published
  rw [habsorbed.published]
  exact h.links

/-- While the batch is open, the run goes on as if its messages had not been sent, and the
batch collects what they ask for. -/
theorem Without.run {held : List (StagedOp K)} (h : Without bid (some held) p q)
    (hbid : bid ≠ "") (es : List (ControlEvent K)) (hes : ∀ e ∈ es, e.ends bid = false) :
    Without bid (some (held ++ stagedOps bid p es)) (es.foldl step p)
      ((es.filter fun e => !e.addresses bid).foldl step q) := by
  induction es generalizing p q held with
  | nil =>
      rw [stagedOps, List.append_nil]
      exact h
  | cons e es ih =>
      have hrest : ∀ x ∈ es, x.ends bid = false := fun x hx => hes x (List.mem_cons_of_mem e hx)
      cases haddr : e.addresses bid with
      | false =>
          rw [List.filter_cons_of_pos (by simp [haddr]), List.foldl_cons, List.foldl_cons]
          have hops : stagedOps bid p (e :: es) = stagedOps bid (p.step e) es := by
            cases e with
            | message fields =>
                have hne : addressedBatch fields ≠ some bid := by
                  simpa [ControlEvent.addresses] using haddr
                rw [stagedOps, if_neg hne, List.nil_append]
            | slot linkId count => rfl
          rw [hops]
          exact ih (h.step_other haddr) hrest
      | true =>
          rw [List.filter_cons_of_neg (by simp [haddr]), List.foldl_cons]
          cases e with
          | message fields =>
              have hname : addressedBatch fields = some bid := by
                simpa [ControlEvent.addresses] using haddr
              rw [stagedOps, if_pos hname, ← List.append_assoc]
              exact ih (h.step_addressed hbid hname (hes _ List.mem_cons_self)) hrest
          | slot linkId count => cases haddr

theorem filter_of_lookup_none {β : Type*} {bid : String} {l : List (String × β)}
    (h : l.lookup bid = none) : l.filter (·.1 ≠ bid) = l := by
  rw [List.filter_eq_self]
  intro x hx
  have hne := List.lookup_eq_none_iff.mp h x hx
  refine decide_eq_true fun heq => ?_
  rw [heq] at hne
  simp at hne

/-- Opening a batch of a fresh id adds the empty batch. -/
theorem step_batchBegin {opening : JsonObject K} (hbid : bid ≠ "")
    (hfresh : p.server.openBatches.lookup bid = none)
    (hopening : NamesBatch "batch_begin" bid opening) :
    Without bid (some []) (p.step (.message opening)) p := by
  have hhandled : p.handled opening =
      { server := { p.server with
          openBatches := p.server.openBatches ++ [(bid, [])]
          msgsReceived := p.server.msgsReceived + 1 }
        published := [], reply := .batchBegun bid } := by
    have hempty : bid.isEmpty = false := by simpa using hbid
    unfold handled handleMessage dispatch
    rw [hopening.type]
    change handleBatchBegin _ opening = _
    unfold handleBatchBegin
    rw [batchId_eq, hopening.id]
    dsimp only
    rw [hempty, hfresh]
    rfl
  have hself : (bid == bid) = true := beq_self_eq_true bid
  refine ⟨⟨?_, ?_, ?_⟩, ?_⟩
  · change (p.handled opening).server.openBatches.lookup bid = some []
    rw [hhandled]
    dsimp only
    rw [List.lookup_append, hfresh]
    simp
  · change p.server.openBatches = (p.handled opening).server.openBatches.filter _
    rw [hhandled]
    dsimp only
    rw [List.filter_append, filter_of_lookup_none hfresh]
    simp
  · change p.server.warmupCapSlots = (p.handled opening).server.warmupCapSlots
    rw [hhandled]
  · change p.links = p.links.publishAll (p.handled opening).published
    rw [hhandled]
    rfl

/-- Aborting the open batch. -/
theorem handled_batchAbort {held : List (StagedOp K)}
    (hopen : p.server.openBatches.lookup bid = some held) {fields : JsonObject K}
    (habort : NamesBatch "batch_abort" bid fields) :
    (p.handled fields).published = [] ∧
      (p.handled fields).server.openBatches = p.server.openBatches.filter (·.1 ≠ bid) := by
  unfold handled handleMessage dispatch
  rw [habort.type]
  change (handleBatchAbort _ fields).published = [] ∧
    (handleBatchAbort _ fields).server.openBatches = _
  unfold handleBatchAbort openBatch
  rw [batchId_eq, habort.id]
  simp only [Except.bind, bind, hopen]
  exact ⟨rfl, rfl⟩

/-- Committing the open batch. -/
theorem handled_batchCommit {held : List (StagedOp K)}
    (hopen : p.server.openBatches.lookup bid = some held) {fields : JsonObject K} {gate : ℕ}
    (hcommit : NamesBatch "batch_commit" bid fields)
    (hgate : takeEffectAtSlot "batch_commit: " fields = .ok gate) :
    (p.handled fields).published =
        (held.filter fun op => (p.links.linkMap op.linkId).isSome).map
          (fun op => ⟨op.linkId, gate, op.update⟩) ∧
      (p.handled fields).server.openBatches = p.server.openBatches.filter (·.1 ≠ bid) := by
  unfold handled handleMessage dispatch
  rw [hcommit.type]
  change (handleBatchCommit _ _ fields).published = _ ∧
    (handleBatchCommit _ _ fields).server.openBatches = _
  unfold handleBatchCommit commitRequest openBatch
  rw [batchId_eq, hcommit.id]
  simp only [Except.bind, bind, hopen, hgate]
  exact ⟨rfl, rfl⟩

omit [Field K] [LinearOrder K] [FloorRing K] [Libm K] in
/-- Ops for unknown links publish nothing. -/
theorem publishAll_known (links : LinkTable K) (held : List (StagedOp K)) (gate : ℕ) :
    links.publishAll ((held.filter fun op => (links.linkMap op.linkId).isSome).map
        fun op => ⟨op.linkId, gate, op.update⟩) =
      links.publishAll (held.map fun op => ⟨op.linkId, gate, op.update⟩) := by
  funext id
  rw [LinkTable.publishAll_apply, LinkTable.publishAll_apply]
  cases hlink : links id with
  | none => rfl
  | some link =>
      have hknown : (links.linkMap id).isSome = true := by
        rw [LinkTable.linkMap, hlink]
        rfl
      have hsame : ∀ l, LinkTable.publishTo id ((held.filter fun op =>
            (links.linkMap op.linkId).isSome).map fun op => ⟨op.linkId, gate, op.update⟩) l =
          LinkTable.publishTo id (held.map fun op => ⟨op.linkId, gate, op.update⟩) l := by
        intro l
        unfold LinkTable.publishTo
        rw [List.filter_map, List.filter_map, List.filter_filter]
        refine congrArg (fun ps => List.foldl _ l (List.map _ ps)) ?_
        apply List.filter_congr
        intro op _
        by_cases hid : op.linkId = id
        · simp [hid, hknown]
        · simp [hid]
      rw [Option.map_some, Option.map_some, hsame]

end ControlPlane

open ControlPlane

/-- **Batch isolation.** From the opening of a batch on, whatever messages and slots follow,
the links are those of the run without the messages that address the batch; an abort leaves
it at that, and a commit publishes the staged ops in order behind its own gate. -/
theorem batch_isolation (p : ControlPlane K) (bid : String) (opening : JsonObject K)
    (hbid : bid ≠ "") (hfresh : p.server.openBatches.lookup bid = none)
    (hopening : NamesBatch "batch_begin" bid opening) (es : List (ControlEvent K))
    (hes : ∀ e ∈ es, e.ends bid = false) :
    let opened := es.foldl step (p.step (.message opening))
    let without := (es.filter fun e => !e.addresses bid).foldl step p
    opened.links = without.links ∧
      (∀ fields, NamesBatch "batch_abort" bid fields →
        (opened.step (.message fields)).links = without.links ∧
          (opened.step (.message fields)).server.openBatches = without.server.openBatches) ∧
      (∀ fields gate, NamesBatch "batch_commit" bid fields →
        takeEffectAtSlot "batch_commit: " fields = .ok gate →
        (opened.step (.message fields)).links =
            without.links.publishAll ((stagedOps bid (p.step (.message opening)) es).map
              fun op => ⟨op.linkId, gate, op.update⟩) ∧
          (opened.step (.message fields)).server.openBatches = without.server.openBatches) := by
  intro opened without
  have hopened : ControlPlane.Without bid (some (stagedOps bid (p.step (.message opening)) es))
      opened without := (step_batchBegin hbid hfresh hopening).run hbid es hes
  refine ⟨hopened.links.symm, ?_, ?_⟩
  · intro fields habort
    obtain ⟨hpublished, hbatches⟩ := handled_batchAbort hopened.server.holds habort
    constructor
    · change opened.links.publishAll (opened.handled fields).published = without.links
      rw [hpublished]
      exact hopened.links.symm
    · exact hbatches.trans hopened.server.openBatches.symm
  · intro fields gate hcommit hgate
    obtain ⟨hpublished, hbatches⟩ := handled_batchCommit hopened.server.holds hcommit hgate
    constructor
    · change opened.links.publishAll (opened.handled fields).published = _
      rw [hpublished, publishAll_known, hopened.links]
    · exact hbatches.trans hopened.server.openBatches.symm

end Runs

/-! ## Concrete batches -/

/-- A message that opens, commits or aborts the batch `x`. -/
def batchMessage (type : String) : JsonObject ℚ :=
  [("type", .string type), ("id", .string "x"), ("take_effect_at_slot", .number 5)]

/-- A staged and a direct update with a slot in between. -/
def batchRun : List (ControlEvent ℚ) :=
  [.message (("batch_id", .string "x") :: scalarMessage "path_loss_db" 10 0), .slot "l" 100,
    .message (scalarMessage "cfo_hz" 5 0)]

theorem batch_isolation_batchRun :
    let opened := batchRun.foldl ControlPlane.step
      (scheduledPlane.1.step (.message (batchMessage "batch_begin")))
    let without := (batchRun.filter fun e => !e.addresses "x").foldl ControlPlane.step scheduledPlane.1
    opened.links = without.links ∧
      (opened.step (.message (batchMessage "batch_abort"))).links = without.links ∧
      (opened.step (.message (batchMessage "batch_commit"))).links =
        without.links.publishAll [⟨"l", 5, .scalar .pathLossDb 10⟩] := by
  intro opened without
  obtain ⟨hlinks, habort, hcommit⟩ := batch_isolation scheduledPlane.1 "x" (batchMessage "batch_begin")
    (by decide) (by decide +kernel) ⟨by decide +kernel, by decide +kernel⟩ batchRun (by decide +kernel)
  have hops : (stagedOps "x" (scheduledPlane.1.step (.message (batchMessage "batch_begin")))
      batchRun).map (fun op => (⟨op.linkId, 5, op.update⟩ : Publication ℚ)) =
        [⟨"l", 5, .scalar .pathLossDb 10⟩] := by
    decide +kernel
  refine ⟨hlinks, (habort _ ⟨by decide +kernel, by decide +kernel⟩).1, ?_⟩
  rw [← hops]
  exact (hcommit _ 5 ⟨by decide +kernel, by decide +kernel⟩ (by decide +kernel)).1

/-- A link that opted in to runtime correlation, alone on its server. -/
def correlatedPlane : ControlPlane ℚ :=
  ControlPlane.prepared 0 "cpu" fun id =>
    if id = "l" then some { scheduledLink with correlationDeclared := true } else none

/-- A switch back to independent lanes that names the batch `x`. -/
def namedCorrelationSwap : JsonObject ℚ :=
  [("type", .string "correlation_swap"), ("link_id", .string "l"), ("kind", .string "iid"),
    ("batch_id", .string "x")]

/-- A `correlation_swap` that names an open batch is accepted and published at once. -/
theorem correlation_swap_is_not_staged :
    let opened := correlatedPlane.step (.message (batchMessage "batch_begin"))
    opened.server.openBatches.map (·.1) = ["x"] ∧
      (opened.handled namedCorrelationSwap).reply.ok = true ∧
      (opened.links "l").map (fun link => (link.control.seqno, link.control.correlationPending)) =
        some (0, false) ∧
      ((opened.step (.message namedCorrelationSwap)).links "l").map
        (fun link => (link.control.seqno, link.control.correlationPending)) = some (1, true) := by
  decide +kernel
