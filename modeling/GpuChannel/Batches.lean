/-
# Batches in isolation

A batch lives on the control thread alone.  Here a run with a batch is compared with the
same run from which every message that addresses the batch has been taken out: until the
commit both runs leave the same control blocks, an abort leaves it at that, and a commit
adds the staged ops in order.

A `correlation_swap` is a direct update and addresses no batch, whatever its `batch_id`.
-/
import GpuChannel.Scheduling

variable {K : Type}

/-! ## Which batch a message addresses -/

/-- A field with a string value. -/
def stringField (fields : JsonObject K) (key : String) : Option String :=
  match fields.lookup key with
  | some (.string s) => some s
  | _ => none

/-- The types whose handlers look at `batch_id`. -/
def StagesOps (type : String) : Prop :=
  type = "scalar" ∨ type = "profile_swap" ∨ type = "matrix_profile_swap"

/-- The types that end a batch. -/
def EndsBatch (type : String) : Prop := type = "batch_commit" ∨ type = "batch_abort"

instance : DecidablePred StagesOps := fun _ => inferInstanceAs (Decidable (_ ∨ _))

instance : DecidablePred EndsBatch := fun _ => inferInstanceAs (Decidable (_ ∨ _))

/-- The batch that a message addresses: by `batch_id` to stage an op, by `id` otherwise. -/
def addressedBatch (fields : JsonObject K) : Option String :=
  match getString fields "type" "scalar" with
  | .error _ => none
  | .ok type =>
      if StagesOps type then stringField fields "batch_id"
      else if type = "batch_begin" ∨ EndsBatch type then stringField fields "id"
      else none

/-- The message ends the batch. -/
def endsBatch (bid : String) (fields : JsonObject K) : Bool :=
  match getString fields "type" "scalar" with
  | .error _ => false
  | .ok type => EndsBatch type ∧ stringField fields "id" = some bid

namespace ControlEvent

/-- The event is a message that addresses the batch. -/
def addresses (bid : String) : ControlEvent K → Bool
  | .message fields => addressedBatch fields = some bid
  | .slot _ _ => false

/-- The event is a message that ends the batch. -/
def ends (bid : String) : ControlEvent K → Bool
  | .message fields => endsBatch bid fields
  | .slot _ _ => false

end ControlEvent

/-! ## Taking a batch out of the server -/

/-- `s'` is the server `s` without the batch, which holds `ops`; the counters may differ. -/
structure ControlServer.Without (bid : String) (ops : Option (List (StagedOp K)))
    (s s' : ControlServer K) : Prop where
  holds : s.openBatches.lookup bid = ops
  openBatches : s'.openBatches = s.openBatches.filter (·.1 ≠ bid)
  warmupCapSlots : s'.warmupCapSlots = s.warmupCapSlots

/-- What the two servers make of one message: the same publications. -/
structure Handled.Without (bid : String) (ops : Option (List (StagedOp K))) (h h' : Handled K) :
    Prop where
  published : h'.published = h.published
  server : h.server.Without bid ops h'.server

/-- A message that the batch swallows: nothing is published, and no other batch moves. -/
structure Handled.Absorbed (bid : String) (ops : Option (List (StagedOp K))) (h : Handled K)
    (s' : ControlServer K) : Prop where
  published : h.published = []
  server : h.server.Without bid ops s'

/-- Dropping one batch leaves the others. -/
theorem lookup_filter_of_ne {β : Type*} {bid b : String} (h : b ≠ bid) (l : List (String × β)) :
    (l.filter (·.1 ≠ bid)).lookup b = l.lookup b := by
  induction l with
  | nil => rfl
  | cons x l ih =>
      obtain ⟨k, v⟩ := x
      by_cases hk : k = bid
      · have hbk : (b == k) = false := by
          rw [hk]
          exact beq_false_of_ne h
        rw [List.filter_cons_of_neg (by simp [hk]), ih, List.lookup_cons, hbk]
      · rw [List.filter_cons_of_pos (by simp [hk]), List.lookup_cons, List.lookup_cons, ih]

/-- A batch that was dropped is gone. -/
theorem lookup_filter_self {β : Type*} (bid : String) (l : List (String × β)) :
    (l.filter (·.1 ≠ bid)).lookup bid = none := by
  induction l with
  | nil => rfl
  | cons x l ih =>
      obtain ⟨k, v⟩ := x
      by_cases hk : k = bid
      · rw [List.filter_cons_of_neg (by simp [hk])]
        exact ih
      · have hbk : (bid == k) = false := beq_false_of_ne (Ne.symm hk)
        rw [List.filter_cons_of_pos (by simp [hk]), List.lookup_cons, hbk]
        exact ih

/-- The batches after an op joins the batch `b`. -/
theorem lookup_map_append (b bid : String) (op : StagedOp K) (l : List (String × List (StagedOp K))) :
    (l.map fun x => if x.1 = b then (x.1, x.2 ++ [op]) else x).lookup bid =
      (l.lookup bid).map fun ops => if bid = b then ops ++ [op] else ops := by
  induction l with
  | nil => rfl
  | cons x l ih =>
      obtain ⟨k, v⟩ := x
      rw [List.map_cons, List.lookup_cons, List.lookup_cons]
      by_cases hk : bid = k
      · subst hk
        by_cases hb : bid = b <;> simp [hb]
      · have hbk : (bid == k) = false := beq_false_of_ne hk
        have hkey : (if k = b then (k, v ++ [op]) else (k, v)).1 = k := by split_ifs <;> rfl
        dsimp only
        rw [hkey, hbk, ih]

namespace ControlServer

variable {bid : String} {ops : Option (List (StagedOp K))} {s s' : ControlServer K}

/-- Without the batch, every other batch is the same. -/
theorem Without.lookup (h : s.Without bid ops s') {b : String} (hb : b ≠ bid) :
    s'.openBatches.lookup b = s.openBatches.lookup b := by
  rw [h.openBatches, lookup_filter_of_ne hb]

/-- A rejection is the same without the batch. -/
theorem Without.emitRejection (h : s.Without bid ops s') (reason : String) :
    Handled.Without bid ops (s.emitRejection reason) (s'.emitRejection reason) :=
  ⟨rfl, h.holds, h.openBatches, h.warmupCapSlots⟩

/-- A rejection of what was addressed to the batch stages nothing. -/
theorem Without.absorbRejection (h : s.Without bid ops s') (reason : String) :
    Handled.Absorbed bid ops (s.emitRejection reason) s' :=
  ⟨rfl, h.holds, h.openBatches, h.warmupCapSlots⟩

/-- Staging into a batch keeps the other batches apart from this one. -/
theorem filter_stageOp (b : String) (op : StagedOp K) (l : List (String × List (StagedOp K))) :
    (l.map fun x => if x.1 = b then (x.1, x.2 ++ [op]) else x).filter (·.1 ≠ bid) =
      (l.filter (·.1 ≠ bid)).map fun x => if x.1 = b then (x.1, x.2 ++ [op]) else x := by
  rw [List.filter_map]
  congr 1
  apply List.filter_congr
  intro x _
  dsimp only [Function.comp]
  split_ifs <;> rfl

/-- An op for another batch is staged alike. -/
theorem Without.stageOp (h : s.Without bid ops s') {b : String} (hb : b ≠ bid) (op : StagedOp K) :
    Handled.Without bid ops (s.stageOp b op) (s'.stageOp b op) := by
  refine ⟨rfl, ?_, ?_, h.warmupCapSlots⟩
  · simp only [ControlServer.stageOp]
    rw [lookup_map_append, h.holds]
    simp [Ne.symm hb]
  · simp only [ControlServer.stageOp]
    rw [filter_stageOp, h.openBatches]

/-- An op for the batch is the one difference. -/
theorem Without.absorbOp (h : s.Without bid ops s') (op : StagedOp K) :
    Handled.Absorbed bid (ops.map (· ++ [op])) (s.stageOp bid op) s' := by
  refine ⟨rfl, ?_, ?_, h.warmupCapSlots⟩
  · simp only [ControlServer.stageOp]
    rw [lookup_map_append, h.holds]
    simp
  · simp only [ControlServer.stageOp]
    rw [filter_stageOp, h.openBatches]
    symm
    refine (List.map_congr_left fun x hx => ?_).trans (List.map_id _)
    exact if_neg (by simpa using (List.mem_filter.mp hx).2)

/-- A direct commit is the same without the batch. -/
theorem Without.commit (h : s.Without bid ops s') (ctl : BrokerLinkControl K) (linkId : String)
    (gate : ℕ) (u : Update K) (reply : BrokerLinkControl K → Reply) :
    Handled.Without bid ops (s.commit ctl linkId gate u reply)
      (s'.commit ctl linkId gate u reply) :=
  ⟨rfl, h.holds, h.openBatches, h.warmupCapSlots⟩

/-- A message that names another batch, or none, resolves the same. -/
theorem Without.resolveOptionalBatch (h : s.Without bid ops s') {fields : JsonObject K}
    (hne : stringField fields "batch_id" ≠ some bid) :
    s'.resolveOptionalBatch fields = s.resolveOptionalBatch fields := by
  unfold ControlServer.resolveOptionalBatch
  unfold stringField at hne
  cases hl : fields.lookup "batch_id" with
  | none => rfl
  | some v =>
      cases v with
      | string b =>
          rw [hl] at hne
          have hb : b ≠ bid := fun hb => hne (by rw [hb])
          dsimp only
          rw [h.lookup hb]
      | number _ => rfl
      | bool _ => rfl
      | object _ => rfl
      | array _ => rfl

/-- A message stages into the batch that it names, or is rejected. -/
theorem resolveOptionalBatch_eq {fields : JsonObject K} {batch : Option String}
    (h : s.resolveOptionalBatch fields = .ok batch) : batch = stringField fields "batch_id" := by
  unfold ControlServer.resolveOptionalBatch at h
  unfold stringField
  split at h
  · rename_i hl
    rw [hl]
    exact (Except.ok.inj h).symm
  · rename_i b hl
    rw [hl]
    split_ifs at h
    exact (Except.ok.inj h).symm
  · cases h

/-- A message that names the open batch finds it. -/
theorem resolveOptionalBatch_of_open {fields : JsonObject K} (hbid : bid ≠ "")
    (hname : stringField fields "batch_id" = some bid)
    (hopen : (s.openBatches.lookup bid).isSome = true) :
    s.resolveOptionalBatch fields = .ok (some bid) := by
  unfold ControlServer.resolveOptionalBatch
  unfold stringField at hname
  split at hname
  · rename_i b hl
    cases hname
    rw [hl]
    dsimp only
    have hempty : bid.isEmpty = false := by
      simpa using hbid
    have hsome : (s.openBatches.lookup bid).isNone = false := by
      rw [Option.isNone_eq_false_iff]
      exact hopen
    rw [hempty, hsome]
    rfl
  · cases hname

end ControlServer

/-! ## The message without its batch -/

/-- The same request, naming no batch. -/
def withoutBatch (fields : JsonObject K) : JsonObject K := fields.filter (·.1 ≠ "batch_id")

/-- Without its `batch_id` a message has the same other fields. -/
theorem lookup_withoutBatch {key : String} (h : key ≠ "batch_id") (fields : JsonObject K) :
    (withoutBatch fields).lookup key = fields.lookup key :=
  lookup_filter_of_ne h fields

/-- A message without `batch_id` is addressed to no batch. -/
theorem resolveOptionalBatch_withoutBatch (s : ControlServer K) (fields : JsonObject K) :
    s.resolveOptionalBatch (withoutBatch fields) = .ok none := by
  unfold ControlServer.resolveOptionalBatch withoutBatch
  rw [lookup_filter_self]

section Requests

variable [Field K] [LinearOrder K] [FloorRing K] [Libm K] (s : ControlServer K)
  (links : LinkMap K) (fields : JsonObject K)

omit [Field K] [LinearOrder K] [FloorRing K] [Libm K] in
/-- A number of a message does not depend on its `batch_id`. -/
theorem getNumber_withoutBatch {key : String} (h : key ≠ "batch_id") (fallback : K) :
    getNumber (withoutBatch fields) key fallback = getNumber fields key fallback := by
  unfold getNumber
  rw [lookup_withoutBatch h]

omit [Field K] [LinearOrder K] [FloorRing K] [Libm K] in
/-- A flag of a message does not depend on its `batch_id`. -/
theorem getBool_withoutBatch {key : String} (h : key ≠ "batch_id") (fallback : Bool) :
    getBool (withoutBatch fields) key fallback = getBool fields key fallback := by
  unfold getBool
  rw [lookup_withoutBatch h]

omit [Field K] [LinearOrder K] [FloorRing K] [Libm K] in
/-- A text of a message does not depend on its `batch_id`. -/
theorem getString_withoutBatch {key : String} (h : key ≠ "batch_id") (fallback : String) :
    getString (withoutBatch fields) key fallback = getString fields key fallback := by
  unfold getString
  rw [lookup_withoutBatch h]

omit [Libm K] in
/-- The gate of a message does not depend on its `batch_id`. -/
theorem takeEffectAtSlot_withoutBatch (text : String) :
    takeEffectAtSlot text (withoutBatch fields) = takeEffectAtSlot text fields := by
  unfold takeEffectAtSlot
  rw [getNumber_withoutBatch fields (by decide)]

omit [Field K] [LinearOrder K] [FloorRing K] [Libm K] in
/-- The link of a swap does not depend on its `batch_id`. -/
theorem swapLink_withoutBatch (kind : String) :
    swapLink kind links (withoutBatch fields) = swapLink kind links fields := by
  unfold swapLink
  rw [lookup_withoutBatch (by decide)]

omit [Field K] [LinearOrder K] [FloorRing K] [Libm K] in
/-- A list of a message does not depend on its `batch_id`. -/
theorem arrayField_withoutBatch {key : String} (h : key ≠ "batch_id") (reason : String) :
    arrayField (withoutBatch fields) key reason = arrayField fields key reason := by
  unfold arrayField
  rw [lookup_withoutBatch h]

/-- The batch is the last thing that a scalar update checks. -/
theorem scalarRequest_eq : scalarRequest s links fields = (do
    let r ← scalarRequest s links (withoutBatch fields)
    let batch ← s.resolveOptionalBatch fields
    pure { r with batch := batch }) := by
  unfold scalarRequest scalarFields
  rw [lookup_withoutBatch (by decide), lookup_withoutBatch (by decide),
    lookup_withoutBatch (by decide), takeEffectAtSlot_withoutBatch,
    resolveOptionalBatch_withoutBatch]
  simp only [bind_assoc]
  rfl

omit [Libm K] in
/-- The batch is the last thing that a profile swap checks. -/
theorem profileRequest_eq : profileRequest s links fields = (do
    let r ← profileRequest s links (withoutBatch fields)
    let batch ← s.resolveOptionalBatch fields
    pure { r with batch := batch }) := by
  unfold profileRequest stageFading
  rw [swapLink_withoutBatch, arrayField_withoutBatch fields (by decide),
    lookup_withoutBatch (by decide), takeEffectAtSlot_withoutBatch,
    getBool_withoutBatch fields (by decide), resolveOptionalBatch_withoutBatch]
  simp only [bind_assoc]
  rfl

omit [Libm K] in
/-- The batch is the last thing that a matrix swap checks. -/
theorem matrixRequest_eq : matrixRequest s links fields = (do
    let r ← matrixRequest s links (withoutBatch fields)
    let batch ← s.resolveOptionalBatch fields
    pure { r with batch := batch }) := by
  unfold matrixRequest matrixDimensions
  rw [swapLink_withoutBatch, arrayField_withoutBatch fields (by decide),
    getNumber_withoutBatch fields (by decide), getNumber_withoutBatch fields (by decide),
    takeEffectAtSlot_withoutBatch, getBool_withoutBatch fields (by decide),
    resolveOptionalBatch_withoutBatch]
  simp only [bind_assoc]
  rfl

/-! ## One view of the three staging handlers -/

/-- What an accepted staging message asks for. -/
structure Asked (K : Type) where
  linkId : String
  control : BrokerLinkControl K
  gate : ℕ
  update : Update K
  batch : Option String
  reply : BrokerLinkControl K → Reply

def ScalarRequest.asked (r : ScalarRequest K) : Asked K :=
  ⟨r.linkId, r.control, r.gate, .scalar r.field r.value, r.batch,
    fun ctl => .applied ctl.seqno (ControlServer.appliedAtSlot ctl)⟩

/-- A swap request, with the update that it stages. -/
def SwapRequest.asked {P : Type} (update : P → Update K) (r : SwapRequest K P) : Asked K :=
  ⟨r.linkId, r.control, r.gate, update r.staged, r.batch, profileSwapReply⟩

/-- The checks of the handler for this type. -/
def asked (type : String) : Except String (Asked K) :=
  if type = "scalar" then (scalarRequest s links fields).map ScalarRequest.asked
  else if type = "profile_swap" then (profileRequest s links fields).map (SwapRequest.asked .profile)
  else (matrixRequest s links fields).map (SwapRequest.asked .matrix)

/-- The end of the handlers: stage the op, commit it, or reject. -/
def settle : Except String (Asked K) → Handled K
  | .error reason => s.emitRejection reason
  | .ok r =>
      match r.batch with
      | some bid => s.stageOp bid ⟨r.linkId, r.update⟩
      | none => s.commit r.control r.linkId r.gate r.update r.reply

/-- The four messages that stage ops are dispatched alike. -/
theorem dispatch_of_stagesOps {type : String} (htype : getString fields "type" "scalar" = .ok type)
    (hstages : StagesOps type) : dispatch s links fields = settle s (asked s links fields type) := by
  unfold dispatch
  rw [htype]
  rcases hstages with rfl | rfl | rfl
  · dsimp only [asked]
    rw [if_pos rfl, if_pos rfl]
    unfold handleScalarUpdate
    cases scalarRequest s links fields <;> rfl
  · dsimp only [asked]
    rw [if_neg (by decide), if_pos rfl, if_neg (by decide), if_pos rfl]
    unfold handleProfileSwap
    cases profileRequest s links fields <;> rfl
  · dsimp only [asked]
    rw [if_neg (by decide), if_neg (by decide), if_pos rfl, if_neg (by decide),
      if_neg (by decide)]
    unfold handleMatrixProfileSwap
    cases matrixRequest s links fields <;> rfl

/-- The batch is the last thing that a staging message is checked for. -/
theorem asked_eq (type : String) : asked s links fields type = (do
    let r ← asked s links (withoutBatch fields) type
    let batch ← s.resolveOptionalBatch fields
    pure { r with batch := batch }) := by
  have hmap : ∀ {R : Type} (request : Except String R) (f : R → Asked K)
      (g : R → Option String → R), (∀ r b, f (g r b) = { f r with batch := b }) →
      (request >>= fun r => s.resolveOptionalBatch fields >>= fun b =>
          (pure (g r b) : Except String R)).map f =
        (request.map f >>= fun r => s.resolveOptionalBatch fields >>= fun b =>
          (pure { r with batch := b } : Except String (Asked K))) := by
    intro R request f g hfg
    cases request with
    | error e => rfl
    | ok r =>
        cases s.resolveOptionalBatch fields with
        | error e => rfl
        | ok b => exact congrArg Except.ok (hfg r b)
  unfold asked
  split_ifs
  · rw [scalarRequest_eq s links fields]
    exact hmap _ ScalarRequest.asked (fun r b => { r with batch := b }) fun _ _ => rfl
  · rw [profileRequest_eq s links fields]
    exact hmap _ (SwapRequest.asked .profile) (fun r b => { r with batch := b }) fun _ _ => rfl
  · rw [matrixRequest_eq s links fields]
    exact hmap _ (SwapRequest.asked .matrix) (fun r b => { r with batch := b }) fun _ _ => rfl

/-- A request that names no batch resolves to none. -/
theorem asked_withoutBatch {type : String} {r : Asked K}
    (h : asked s links (withoutBatch fields) type = .ok r) : r.batch = none := by
  have hidem : withoutBatch (withoutBatch fields) = withoutBatch fields := by
    unfold withoutBatch
    rw [List.filter_filter]
    congr 1
    funext x
    exact Bool.and_self _
  rw [asked_eq, resolveOptionalBatch_withoutBatch, hidem] at h
  obtain ⟨r', -, h⟩ := bind_eq_ok h
  obtain ⟨batch, hbatch, h⟩ := bind_eq_ok h
  cases hbatch
  cases h
  rfl

end Requests

/-! ## A message in both servers -/

section Handlers

variable [Field K] [LinearOrder K] [FloorRing K] [Libm K] {bid : String}
  {ops : Option (List (StagedOp K))} {s s' : ControlServer K} (links : LinkMap K)
  {fields : JsonObject K}

/-- The ops that a message publishes. -/
def opsOf (h : Handled K) : List (StagedOp K) := h.published.map fun p => ⟨p.linkId, p.update⟩

/-- The checks before the batch do not look at the batches. -/
theorem ControlServer.Without.asked_withoutBatch (h : s.Without bid ops s') (type : String) :
    asked s' links (withoutBatch fields) type = asked s links (withoutBatch fields) type := by
  have hcap : ∀ ctl, profileWarmupCheck s' ctl = profileWarmupCheck s ctl := by
    intro ctl
    unfold profileWarmupCheck
    rw [h.warmupCapSlots]
  have hmatrix : ∀ ctl staged, matrixWarmupCheck s' ctl staged = matrixWarmupCheck s ctl staged := by
    intro ctl staged
    unfold matrixWarmupCheck
    rw [h.warmupCapSlots]
  unfold asked scalarRequest profileRequest matrixRequest
  simp only [hcap, hmatrix, resolveOptionalBatch_withoutBatch]

/-- The two servers settle alike a request that does not name the batch. -/
theorem settle_without (h : s.Without bid ops s')
    (hne : stringField fields "batch_id" ≠ some bid) (type : String) :
    Handled.Without bid ops (settle s (asked s links fields type))
      (settle s' (asked s' links fields type)) := by
  rw [asked_eq s, asked_eq s', h.asked_withoutBatch, h.resolveOptionalBatch hne]
  cases asked s links (withoutBatch fields) type with
  | error reason => exact h.emitRejection reason
  | ok r =>
      cases hbatch : s.resolveOptionalBatch fields with
      | error reason => exact h.emitRejection reason
      | ok batch =>
          rw [ControlServer.resolveOptionalBatch_eq hbatch]
          cases hfield : stringField fields "batch_id" with
          | none => exact h.commit _ _ _ _ _
          | some b => exact h.stageOp (fun hb => hne (by rw [hfield, hb])) _

/-- A request that names the batch is staged there or rejected. -/
theorem settle_absorbed {held : List (StagedOp K)} (h : s.Without bid (some held) s')
    (hbid : bid ≠ "") (hname : stringField fields "batch_id" = some bid) (type : String) :
    Handled.Absorbed bid
      (some (held ++ opsOf (settle s (asked s links (withoutBatch fields) type))))
      (settle s (asked s links fields type)) s' := by
  have hopen : (s.openBatches.lookup bid).isSome = true := by
    rw [h.holds]
    rfl
  rw [asked_eq s links fields, ControlServer.resolveOptionalBatch_of_open hbid hname hopen]
  cases hasked : asked s links (withoutBatch fields) type with
  | error reason =>
      have hnil : held ++ opsOf (settle s (.error reason)) = held := List.append_nil _
      rw [hnil]
      exact h.absorbRejection reason
  | ok r =>
      have hnone := asked_withoutBatch s links fields hasked
      obtain ⟨linkId, control, gate, update, batch, reply⟩ := r
      subst hnone
      exact h.absorbOp _

/-! ## The batch messages -/

omit [Field K] [LinearOrder K] [FloorRing K] [Libm K] in
/-- The id of a batch message is its text `id`. -/
theorem batchId_eq (kind : String) (fields : JsonObject K) : batchId kind fields =
    match stringField fields "id" with
    | some bid => .ok bid
    | none => .error (kind ++ ": missing or non-string 'id'") := by
  unfold batchId stringField
  cases fields.lookup "id" with
  | none => rfl
  | some v => cases v <;> rfl

omit [Field K] [LinearOrder K] [FloorRing K] [Libm K] in
/-- The id of a batch message that passes this far. -/
theorem batchId_eq_ok {kind b : String} (h : batchId kind fields = .ok b) :
    stringField fields "id" = some b := by
  rw [batchId_eq] at h
  cases hid : stringField fields "id" with
  | none =>
      rw [hid] at h
      cases h
  | some b' =>
      rw [hid] at h
      rw [Except.ok.inj h]

omit [Field K] [LinearOrder K] [FloorRing K] [Libm K] in
/-- Both servers look up another batch alike. -/
theorem openedBatch_without (h : s.Without bid ops s') (hne : stringField fields "id" ≠ some bid)
    {R : Type} (kind : String) (next : String → List (StagedOp K) → Except String R) :
    (batchId kind fields >>= fun b => openBatch s' kind b >>= next b) =
      batchId kind fields >>= fun b => openBatch s kind b >>= next b := by
  cases hid : batchId kind fields with
  | error reason => rfl
  | ok b =>
      have hb : b ≠ bid := by
        rintro rfl
        exact hne (batchId_eq_ok hid)
      change (openBatch s' kind b >>= next b) = openBatch s kind b >>= next b
      unfold openBatch
      rw [h.lookup hb]

omit [Field K] [LinearOrder K] [FloorRing K] [Libm K] in
/-- Opening another batch goes alike. -/
theorem handleBatchBegin_without (h : s.Without bid ops s')
    (hne : stringField fields "id" ≠ some bid) :
    Handled.Without bid ops (handleBatchBegin s fields) (handleBatchBegin s' fields) := by
  unfold handleBatchBegin
  rw [batchId_eq]
  cases hid : stringField fields "id" with
  | none => exact h.emitRejection _
  | some b =>
      have hb : b ≠ bid := fun hb => hne (by rw [hid, hb])
      dsimp only
      rw [h.lookup hb]
      split_ifs with hempty hopen
      · exact h.emitRejection _
      · exact h.emitRejection _
      · refine ⟨rfl, ?_, ?_, h.warmupCapSlots⟩
        · dsimp only
          rw [List.lookup_append, h.holds]
          have hbb : (bid == b) = false := beq_false_of_ne (Ne.symm hb)
          simp [List.lookup_cons, hbb]
        · dsimp only
          rw [List.filter_append, h.openBatches]
          simp [hb]

omit [Libm K] in
/-- Committing another batch goes alike. -/
theorem handleBatchCommit_without (h : s.Without bid ops s')
    (hne : stringField fields "id" ≠ some bid) :
    Handled.Without bid ops (handleBatchCommit s links fields) (handleBatchCommit s' links fields) := by
  have hreq : commitRequest s' fields = commitRequest s fields :=
    openedBatch_without h hne "batch_commit" _
  unfold handleBatchCommit
  rw [hreq]
  cases hok : commitRequest s fields with
  | error reason => exact h.emitRejection reason
  | ok r =>
      obtain ⟨b, held, gate⟩ := r
      have hb : b ≠ bid := by
        rintro rfl
        unfold commitRequest at hok
        obtain ⟨b', hb', hok⟩ := bind_eq_ok hok
        obtain ⟨_, -, hok⟩ := bind_eq_ok hok
        obtain ⟨_, -, hok⟩ := bind_eq_ok hok
        cases hok
        exact hne (batchId_eq_ok hb')
      refine ⟨rfl, ?_, ?_, h.warmupCapSlots⟩
      · exact (lookup_filter_of_ne (Ne.symm hb) _).trans h.holds
      · simp only [h.openBatches, List.filter_filter, Bool.and_comm]

omit [Field K] [LinearOrder K] [FloorRing K] [Libm K] in
/-- Aborting another batch goes alike. -/
theorem handleBatchAbort_without (h : s.Without bid ops s')
    (hne : stringField fields "id" ≠ some bid) :
    Handled.Without bid ops (handleBatchAbort s fields) (handleBatchAbort s' fields) := by
  unfold handleBatchAbort
  rw [openedBatch_without h hne "batch_abort"]
  split
  · exact h.emitRejection _
  · rename_i b held hok
    have hb : b ≠ bid := by
      rintro rfl
      obtain ⟨b', hb', hok⟩ := bind_eq_ok hok
      obtain ⟨_, -, hok⟩ := bind_eq_ok hok
      cases hok
      exact hne (batchId_eq_ok hb')
    refine ⟨rfl, ?_, ?_, h.warmupCapSlots⟩
    · exact (lookup_filter_of_ne (Ne.symm hb) _).trans h.holds
    · simp only [h.openBatches, List.filter_filter, Bool.and_comm]

omit [Field K] [LinearOrder K] [FloorRing K] [Libm K] in
/-- Opening the batch once more is rejected. -/
theorem handleBatchBegin_of_open {held : List (StagedOp K)} (h : s.Without bid (some held) s')
    (hid : stringField fields "id" = some bid) :
    ∃ reason, handleBatchBegin s fields = s.emitRejection reason := by
  unfold handleBatchBegin
  rw [batchId_eq, hid]
  dsimp only
  rw [h.holds]
  split_ifs with hempty hopen
  · exact ⟨_, rfl⟩
  · exact ⟨_, rfl⟩
  · exact absurd rfl hopen

/-! ## Every message in both servers -/

/-- A message that does not address the batch does the same in both servers. -/
theorem dispatch_without (h : s.Without bid ops s') (hne : addressedBatch fields ≠ some bid) :
    Handled.Without bid ops (dispatch s links fields) (dispatch s' links fields) := by
  unfold addressedBatch at hne
  cases htype : getString fields "type" "scalar" with
  | error reason =>
      unfold dispatch
      rw [htype]
      exact h.emitRejection reason
  | ok type =>
      rw [htype] at hne
      dsimp only at hne
      by_cases hstages : StagesOps type
      · rw [if_pos hstages] at hne
        rw [dispatch_of_stagesOps s links fields htype hstages,
          dispatch_of_stagesOps s' links fields htype hstages]
        exact settle_without links h hne type
      · rw [if_neg hstages] at hne
        unfold StagesOps at hstages
        unfold EndsBatch at hne
        unfold dispatch
        rw [htype]
        dsimp only
        split_ifs with h₁ h₂ h₃ h₄ h₅ h₆ h₇
        · exact absurd (Or.inl h₁) hstages
        · exact absurd (Or.inr (Or.inl h₂)) hstages
        · exact absurd (Or.inr (Or.inr h₃)) hstages
        · unfold handleCorrelationSwap
          cases correlationRequest links fields with
          | error reason => exact h.emitRejection reason
          | ok r => exact h.commit _ _ _ _ _
        · rw [if_pos (Or.inl h₅)] at hne
          exact handleBatchBegin_without h hne
        · rw [if_pos (Or.inr (Or.inl h₆))] at hne
          exact handleBatchCommit_without links h hne
        · rw [if_pos (Or.inr (Or.inr h₇))] at hne
          exact handleBatchAbort_without h hne
        · exact h.emitRejection _

/-- A message that addresses the open batch without ending it stays inside the batch. -/
theorem dispatch_absorbed {held : List (StagedOp K)} (h : s.Without bid (some held) s')
    (hbid : bid ≠ "") (haddr : addressedBatch fields = some bid)
    (hends : endsBatch bid fields = false) :
    Handled.Absorbed bid (some (held ++ opsOf (dispatch s links (withoutBatch fields))))
      (dispatch s links fields) s' := by
  unfold addressedBatch at haddr
  unfold endsBatch at hends
  cases htype : getString fields "type" "scalar" with
  | error reason =>
      rw [htype] at haddr
      cases haddr
  | ok type =>
      have htype' : getString (withoutBatch fields) "type" "scalar" = .ok type := by
        rw [getString_withoutBatch fields (by decide), htype]
      rw [htype] at haddr hends
      dsimp only at haddr hends
      -- an operation is staged in its batch, and only `batch_begin` names a new one
      by_cases hstages : StagesOps type
      · rw [if_pos hstages] at haddr
        rw [dispatch_of_stagesOps s links fields htype hstages,
          dispatch_of_stagesOps s links (withoutBatch fields) htype' hstages]
        exact settle_absorbed links h hbid haddr type
      · rw [if_neg hstages] at haddr
        split_ifs at haddr with hbatch
        have hbegin : type = "batch_begin" := by
          rcases hbatch with hbegin | hend
          · exact hbegin
          · simp [hend, haddr] at hends
        subst hbegin
        have hdispatch : ∀ fs : JsonObject K, getString fs "type" "scalar" = .ok "batch_begin" →
            dispatch s links fs = handleBatchBegin s fs := by
          intro fs hfs
          unfold dispatch
          rw [hfs]
          rfl
        have haddr' : stringField (withoutBatch fields) "id" = some bid := by
          unfold stringField
          rw [lookup_withoutBatch (by decide)]
          exact haddr
        obtain ⟨reason, hreason⟩ := handleBatchBegin_of_open h haddr
        obtain ⟨reason', hreason'⟩ := handleBatchBegin_of_open h haddr'
        rw [hdispatch fields htype, hdispatch _ htype', hreason, hreason']
        have hnil : held ++ opsOf (s.emitRejection reason') = held := List.append_nil _
        rw [hnil]
        exact h.absorbRejection reason

end Handlers
