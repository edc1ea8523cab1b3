/-
# Correlations at load time and at run time

A spatial correlation is checked twice: by `validate_config` when a model declares it, and by
`handle_correlation_swap` when a message asks for it.  Both refuse what does not fit an
`Nt` by `Nr` link.  The validator also looks at the chain, and refuses repeated and missing
entries; the handler asks that the link opted in.
-/
import GpuChannel.CpuBackend
import GpuChannel.Library.Tables
import GpuChannel.Validation
import GpuChannel.RationalScalars

/-! ## A correlation that fits -/

section Fits

variable {K : Type} [Field K] [LinearOrder K] [Libm K]

/-- An entry above the diagonal of a `dim` by `dim` correlation, of magnitude at most one. -/
structure CorrelationEntry.Fits (e : CorrelationEntry K) (dim : ℕ) : Prop where
  nonneg : 0 ≤ e.i
  upper : e.i < e.j
  range : e.j < dim
  unit : ¬ 1 + 1 / 10 ^ 12 < Libm.sqrt (e.re * e.re + e.im * e.im)

namespace SpatialCorrelationConfig

variable (c : SpatialCorrelationConfig K)

/-- The block is a covariance of the lanes of an `nt` by `nr` link. -/
def Fits (nt nr : ℕ) : Prop :=
  match c.kind with
  | .iid => c.rx = [] ∧ c.tx = []
  | .kronecker => (∀ e ∈ c.rx, e.Fits nr) ∧ (∀ e ∈ c.tx, e.Fits nt) ∧
      nt * nr ≤ kMaxCorrelatedLanes ∧ ∃ mixing, laneMixingMatrix c nt nr = .ok mixing

/-- What only the validator asks: no entry is repeated, and a kronecker block has entries and
belongs to a model that leads with fading and states no fixed matrix. -/
structure LoadsWith (model : ModelConfig K) : Prop where
  rx : (c.rx.map fun e => (e.i, e.j)).Nodup
  tx : (c.tx.map fun e => (e.i, e.j)).Nodup
  entries : c.kind = .kronecker → c.rx ≠ [] ∨ c.tx ≠ []
  fading : c.kind = .kronecker → model.chain.head?.any ModelStep.fades
  noMatrix : c.kind = .kronecker → model.fixedMimoDeclared = false

end SpatialCorrelationConfig

end Fits

/-! ## Load time -/

section Load

variable {K : Type} [Field K] [LinearOrder K] [Libm K]

/-- The model with another correlation block. -/
def ModelConfig.declare (model : ModelConfig K) (block : SpatialCorrelationConfig K) :
    ModelConfig K := { model with spatialCorrelation := block }

/-- The configuration in which a model declares the block. -/
def TopologyConfig.declare (config : TopologyConfig K) (id : String)
    (block : SpatialCorrelationConfig K) : TopologyConfig K :=
  { config with models := config.models.map fun entry =>
      if entry.1 = id then (id, entry.2.declare block) else entry }

omit [Field K] [LinearOrder K] [Libm K] in
/-- Declaring a block changes the one model only. -/
theorem TopologyConfig.findModel_declare (config : TopologyConfig K) (id key : String)
    (block : SpatialCorrelationConfig K) :
    (config.declare id block).findModel key =
      if key = id then (config.findModel id).map (·.declare block) else config.findModel key :=
  lookup_map_update config.models id key (·.declare block)

/-- The model and the shape of a link between radio nodes. -/
structure LinkShape (config : TopologyConfig K) (link : LinkConfig K) (model : ModelConfig K)
    (nt nr : ℕ) : Prop where
  model : config.findModel link.model = some model
  source : ∃ node, config.findRadioNode link.fromNode = some node ∧ node.txPorts.length = nt
  destination : ∃ node, config.findRadioNode link.toNode = some node ∧ node.rxPorts.length = nr

/-- **What `validate_config` says of the block for one link**: of its model, and of the shape. -/
def AcceptedFor (config : TopologyConfig K) (link : LinkConfig K) (model : ModelConfig K)
    (block : SpatialCorrelationConfig K) : Prop :=
  modelMatrixErrors link.model (model.declare block) = [] ∧
    linkMatrixErrors (config.declare link.model block) link = []

/-- A check of every element that refuses repeated values of `f`. -/
theorem withEarlier_eq_nil_iff {α β : Type} {check : List α → α → List String} {f : α → β}
    {P : α → Prop} (hcheck : ∀ earlier x, check earlier x = [] ↔ P x ∧ f x ∉ earlier.map f)
    (l earlier : List α) :
    withEarlier check earlier l = [] ↔
      (∀ x ∈ l, P x) ∧ (l.map f).Nodup ∧ ∀ x ∈ l, f x ∉ earlier.map f := by
  induction l generalizing earlier with
  | nil => simp [withEarlier]
  | cons a l ih =>
      rw [withEarlier, List.append_eq_nil_iff, hcheck, ih, List.map_cons, List.nodup_cons,
        List.forall_mem_cons, List.forall_mem_cons]
      simp only [List.map_append, List.map_cons, List.map_nil, List.mem_append,
        List.mem_singleton, List.mem_map, not_or]
      constructor
      · rintro ⟨⟨hP, hnew⟩, hall, hnodup, hlater⟩
        refine ⟨⟨hP, hall⟩, ⟨?_, hnodup⟩, hnew, fun x hx => (hlater x hx).1⟩
        rintro ⟨x, hx, hxa⟩
        exact (hlater x hx).2 hxa
      · rintro ⟨⟨hP, hall⟩, ⟨hfresh, hnodup⟩, hnew, hlater⟩
        exact ⟨⟨hP, hnew⟩, hall, hnodup, fun x hx =>
          ⟨hlater x hx, fun hxa => hfresh ⟨x, hx, hxa⟩⟩⟩

/-- **A side passes the loader** exactly if its entries are ordered pairs of the unit disc,
without repeats. -/
theorem sideErrors_eq_nil_iff {modelId side : String} {entries : List (CorrelationEntry K)} :
    sideErrors modelId side entries = [] ↔
      (∀ e ∈ entries, 0 ≤ e.i ∧ e.i < e.j ∧
        ¬ 1 + 1 / 10 ^ 12 < Libm.sqrt (e.re * e.re + e.im * e.im)) ∧
      (entries.map fun e => (e.i, e.j)).Nodup := by
  unfold sideErrors
  rw [withEarlier_eq_nil_iff (f := fun e => (e.i, e.j)) (P := fun e => 0 ≤ e.i ∧ e.i < e.j ∧
    ¬ 1 + 1 / 10 ^ 12 < Libm.sqrt (e.re * e.re + e.im * e.im))]
  · simp
  · intro earlier e
    by_cases hneg : e.i < 0 ∨ e.j < 0
    · rw [if_pos hneg]
      refine ⟨nofun, fun h => ?_⟩
      rcases hneg with hi | hj <;> omega
    · rw [if_neg hneg]
      simp only [List.append_eq_nil_iff, errorIf_eq_nil]
      constructor
      · rintro ⟨⟨hupper, hnew⟩, hunit⟩
        exact ⟨⟨by omega, by omega, hunit⟩, hnew⟩
      · rintro ⟨⟨hi, hupper, hunit⟩, hnew⟩
        exact ⟨⟨by omega, hnew⟩, hunit⟩

omit [Field K] [LinearOrder K] [Libm K] in
/-- The entries of a side are inside exactly if both places are below the dimension. -/
theorem outsideErrors_eq_nil_iff {place side sort : String} {dim : ℕ}
    {entries : List (CorrelationEntry K)} :
    outsideErrors place side sort dim entries = [] ↔
      ∀ e ∈ entries, e.i < (dim : ℤ) ∧ e.j < (dim : ℤ) := by
  unfold outsideErrors
  simp only [List.flatMap_eq_nil_iff, errorIf_eq_nil, not_or, not_le]

/-- What the validator says of a model's block, beside the LOS matrix that it accepts. -/
theorem modelMatrixErrors_declare {id : String} {model : ModelConfig K}
    (hold : modelMatrixErrors id model = []) {block : SpatialCorrelationConfig K}
    (hdeclared : block.declared = true) :
    modelMatrixErrors id (model.declare block) = [] ↔
      (block.kind = .iid → block.rx = [] ∧ block.tx = []) ∧
      (block.kind = .kronecker → (block.rx ≠ [] ∨ block.tx ≠ []) ∧
        model.chain.head?.any ModelStep.fades ∧ model.fixedMimoDeclared = false) ∧
      sideErrors id "rx" block.rx = [] ∧ sideErrors id "tx" block.tx = [] := by
  unfold modelMatrixErrors at hold ⊢
  rw [List.append_eq_nil_iff] at hold ⊢
  -- the LOS part reads nothing of the correlation
  refine (and_iff_left hold.2).trans ?_
  simp only [ModelConfig.declare, List.append_eq_nil_iff, errorIf_eq_nil,
    SpatialCorrelationConfig.correlated, hdeclared, if_true, true_and]
  cases block.kind with
  | iid => simp
  | kronecker => simp [and_assoc, imp_iff_not_or]

/-- A list of errors in two stages is empty if both are. -/
theorem ite_isEmpty_eq_nil_iff {α : Type} {l m : List α} :
    (if l.isEmpty then m else l) = [] ↔ l = [] ∧ m = [] := by
  cases l <;> simp

/-- What the validator says of the block for a link, beside the LOS matrix that it accepts. -/
theorem linkMatrixErrors_declare {config : TopologyConfig K} {link : LinkConfig K}
    (hold : linkMatrixErrors config link = []) {model : ModelConfig K} {nt nr : ℕ}
    (hshape : LinkShape config link model nt nr) {block : SpatialCorrelationConfig K}
    (hdeclared : block.declared = true) :
    linkMatrixErrors (config.declare link.model block) link = [] ↔
      (block.kind = .kronecker → (∀ e ∈ block.rx, e.i < nr ∧ e.j < nr) ∧
        (∀ e ∈ block.tx, e.i < nt ∧ e.j < nt) ∧ nt * nr ≤ kMaxCorrelatedLanes ∧
          ∃ mixing, laneMixingMatrix block nt nr = .ok mixing) := by
  obtain ⟨source, hsource, rfl⟩ := hshape.source
  obtain ⟨destination, hdestination, rfl⟩ := hshape.destination
  have hsource' : (config.declare link.model block).findRadioNode link.fromNode = some source :=
    hsource
  have hdestination' :
      (config.declare link.model block).findRadioNode link.toNode = some destination := hdestination
  unfold linkMatrixErrors at hold ⊢
  rw [hshape.model, hsource, hdestination] at hold
  rw [config.findModel_declare, if_pos rfl, hshape.model, hsource', hdestination',
    Option.map_some]
  simp only at hold ⊢
  rw [List.append_eq_nil_iff] at hold ⊢
  refine (and_iff_left hold.2).trans ?_
  clear hold
  rw [show (model.declare block).spatialCorrelation = block from rfl]
  cases hkind : block.kind with
  | iid => simp [SpatialCorrelationConfig.correlated, hkind]
  | kronecker =>
      rw [if_pos (by simp [SpatialCorrelationConfig.correlated, hkind, hdeclared]),
        ite_isEmpty_eq_nil_iff, List.append_eq_nil_iff, List.append_eq_nil_iff,
        outsideErrors_eq_nil_iff, outsideErrors_eq_nil_iff, errorIf_eq_nil, not_lt]
      cases laneMixingMatrix block source.txPorts.length destination.rxPorts.length with
      | error reason => simp
      | ok mixing => simp [and_assoc]

/-- A block on another model adds no errors to a link. -/
theorem linkMatrixErrors_declare_of_ne {config : TopologyConfig K} {link : LinkConfig K}
    {id : String} {block : SpatialCorrelationConfig K} (hid : link.model ≠ id) :
    linkMatrixErrors (config.declare id block) link = linkMatrixErrors config link := by
  unfold linkMatrixErrors
  rw [show (config.declare id block).findRadioNode = config.findRadioNode from rfl,
    config.findModel_declare, if_neg hid]

/-- **The validator accepts a block for a link when it fits and loads with the model.** -/
theorem acceptedFor_iff {config : TopologyConfig K} {link : LinkConfig K}
    {model : ModelConfig K} {nt nr : ℕ} (hshape : LinkShape config link model nt nr)
    (hmodel : modelMatrixErrors link.model model = [])
    (hlink : linkMatrixErrors config link = []) {block : SpatialCorrelationConfig K}
    (hdeclared : block.declared = true) :
    AcceptedFor config link model block ↔ block.Fits nt nr ∧ block.LoadsWith model := by
  unfold AcceptedFor
  rw [modelMatrixErrors_declare hmodel hdeclared, linkMatrixErrors_declare hlink hshape hdeclared,
    sideErrors_eq_nil_iff, sideErrors_eq_nil_iff]
  unfold SpatialCorrelationConfig.Fits
  cases hkind : block.kind with
  | iid =>
      constructor
      · rintro ⟨⟨hempty, -, hrx, htx⟩, -⟩
        refine ⟨hempty rfl, hrx.2, htx.2, ?_, ?_, ?_⟩ <;> rw [hkind] <;> exact nofun
      · rintro ⟨⟨hrx, htx⟩, -⟩
        rw [hrx, htx]
        exact ⟨⟨fun _ => ⟨rfl, rfl⟩, nofun, by simp, by simp⟩, nofun⟩
  | kronecker =>
      constructor
      · rintro ⟨⟨-, hchain, hrx, htx⟩, hfits⟩
        obtain ⟨hentries, hfading, hmatrix⟩ := hchain rfl
        obtain ⟨hrange, htrange, hlanes, hmixing⟩ := hfits rfl
        refine ⟨⟨fun e he => ?_, fun e he => ?_, hlanes, hmixing⟩, hrx.2, htx.2,
          fun _ => hentries, fun _ => hfading, fun _ => hmatrix⟩
        · exact ⟨(hrx.1 e he).1, (hrx.1 e he).2.1, (hrange e he).2, (hrx.1 e he).2.2⟩
        · exact ⟨(htx.1 e he).1, (htx.1 e he).2.1, (htrange e he).2, (htx.1 e he).2.2⟩
      · rintro ⟨⟨hrx, htx, hlanes, hmixing⟩, hload⟩
        refine ⟨⟨nofun, fun _ => ⟨hload.entries hkind, hload.fading hkind, hload.noMatrix hkind⟩,
          ⟨fun e he => ?_, hload.rx⟩, ⟨fun e he => ?_, hload.tx⟩⟩,
          fun _ => ⟨fun e he => ?_, fun e he => ?_, hlanes, hmixing⟩⟩
        · exact ⟨(hrx e he).nonneg, (hrx e he).upper, (hrx e he).unit⟩
        · exact ⟨(htx e he).nonneg, (htx e he).upper, (htx e he).unit⟩
        · exact ⟨(hrx e he).upper.trans (hrx e he).range, (hrx e he).range⟩
        · exact ⟨(htx e he).upper.trans (htx e he).range, (htx e he).range⟩

omit [Field K] [LinearOrder K] [Libm K] in
/-- Declaring a block declares no model. -/
theorem TopologyConfig.findModel_declare_eq_none (config : TopologyConfig K) (id key : String)
    (block : SpatialCorrelationConfig K) :
    (config.declare id block).findModel key = none ↔ config.findModel key = none := by
  rw [config.findModel_declare]
  by_cases hkey : key = id
  · rw [if_pos hkey, hkey, Option.map_eq_none_iff]
  · rw [if_neg hkey]

omit [Field K] [LinearOrder K] [Libm K] in
/-- The entries of the models, after a model declares the block. -/
theorem TopologyConfig.forall_declare {config : TopologyConfig K} {id : String}
    {block : SpatialCorrelationConfig K} {P : String × ModelConfig K → Prop} :
    (∀ entry ∈ (config.declare id block).models, P entry) ↔
      ∀ entry ∈ config.models,
        P (if entry.1 = id then (id, entry.2.declare block) else entry) := by
  simp only [declare, List.forall_mem_map]

omit [Field K] [LinearOrder K] [Libm K] in
/-- The checks of a model that do not read its correlation. -/
theorem TopologyConfig.forall_declare_same {config : TopologyConfig K} {id : String}
    {block : SpatialCorrelationConfig K} {errors : String → ModelConfig K → List String}
    (hsame : ∀ (key : String) (model : ModelConfig K),
      errors key (model.declare block) = errors key model)
    (hold : ∀ entry ∈ config.models, errors entry.1 entry.2 = []) :
    ∀ entry ∈ (config.declare id block).models, errors entry.1 entry.2 = [] := by
  refine TopologyConfig.forall_declare.mpr fun entry hentry => ?_
  by_cases hkey : entry.1 = id
  · rw [if_pos hkey, hsame, ← hkey]
    exact hold entry hentry
  · rw [if_neg hkey]
    exact hold entry hentry

/-- **The validator reads a correlation in these two places only.** -/
theorem validateConfig_declare {config : TopologyConfig K} (hvalid : validateConfig config = [])
    (hnodes : config.radioNodes ≠ []) (hkeys : (config.models.map Prod.fst).Nodup) {id : String}
    {model : ModelConfig K} (hmodel : config.findModel id = some model)
    (block : SpatialCorrelationConfig K) :
    validateConfig (config.declare id block) = [] ↔
      modelMatrixErrors id (model.declare block) = [] ∧
        ∀ link ∈ config.links, linkMatrixErrors (config.declare id block) link = [] := by
  have hfound : ∀ key, (config.declare id block).findModel key = none ↔
      config.findModel key = none := fun key => config.findModel_declare_eq_none id key block
  have hempty : ¬ (config.declare id block).radioNodes.isEmpty = true := by
    simpa [TopologyConfig.declare] using hnodes
  -- these checks ask only which models there are, and declaring a block declares none
  have hdevices : deviceErrors (config.declare id block) = deviceErrors config := by
    funext earlier device
    unfold deviceErrors
    simp only [hfound]
    rfl
  have hlinks : linkErrors (config.declare id block) = linkErrors config := by
    funext link
    unfold linkErrors
    simp only [hfound]
    rfl
  have hrange : laneRangeErrors (config.declare id block) = laneRangeErrors config := by
    funext link
    unfold laneRangeErrors
    rw [show (config.declare id block).findRadioNode = config.findRadioNode from rfl,
      config.findModel_declare]
    by_cases hid : link.model = id
    · rw [if_pos hid, hid, hmodel]
      cases config.findRadioNode link.fromNode <;> cases config.findRadioNode link.toNode <;> rfl
    · rw [if_neg hid]
  simp only [validateConfig, List.append_eq_nil_iff, List.flatMap_eq_nil_iff] at hvalid
  obtain ⟨⟨⟨⟨⟨⟨⟨⟨⟨⟨hruntime, hsome⟩, hdev⟩, hradio⟩, hlink⟩, hreach⟩, hmimo⟩, hlane⟩, hmatrix⟩, -⟩,
    hchains⟩ := hvalid
  -- the checks of the models: every other model passed them before
  have hblock : (∀ entry ∈ (config.declare id block).models,
      modelMatrixErrors entry.1 entry.2 = []) ↔
        modelMatrixErrors id (model.declare block) = [] := by
    rw [TopologyConfig.forall_declare]
    constructor
    · intro h
      obtain ⟨before, after, hsplit, -⟩ := List.lookup_eq_some_iff.mp hmodel
      have hentry := h (id, model) (by rw [hsplit]; simp)
      rwa [if_pos rfl] at hentry
    · intro h entry hentry
      by_cases hid : entry.1 = id
      · have hvalue : entry.2 = model := by
          have hlookup := lookup_of_mem hkeys hentry
          rw [hid] at hlookup
          exact Option.some.inj (hlookup.symm.trans hmodel)
        rw [if_pos hid, hvalue]
        exact h
      · rw [if_neg hid]
        exact hmatrix entry hentry
  unfold validateConfig
  rw [hdevices, hlinks, hrange]
  simp only [List.append_eq_nil_iff, List.flatMap_eq_nil_iff]
  rw [hblock]
  constructor
  · rintro ⟨⟨⟨-, hmodelErrors⟩, hlinkErrors⟩, -⟩
    refine ⟨hmodelErrors, ?_⟩
    rw [if_neg hempty, List.flatMap_eq_nil_iff] at hlinkErrors
    exact hlinkErrors
  -- the remaining checks do not look at the block
  · rintro ⟨hmodelErrors, hlinkErrors⟩
    refine ⟨⟨⟨⟨⟨⟨⟨⟨⟨⟨hruntime, hsome⟩, hdev⟩, hradio⟩, hlink⟩, hreach⟩, ?_⟩, hlane⟩, hmodelErrors⟩, ?_⟩, ?_⟩
    · exact config.forall_declare_same (fun _ _ => rfl) hmimo
    · rw [if_neg hempty, List.flatMap_eq_nil_iff]
      exact hlinkErrors
    · exact config.forall_declare_same (fun _ _ => rfl) hchains

end Load

/-! ## Run time -/

section Run

variable {K : Type} [Field K] [LinearOrder K] [IsStrictOrderedRing K] [FloorRing K] [Libm K]

/-- The JSON object states the entry: its indices are integers. -/
def EntryStates (item : JsonValue K) (e : CorrelationEntry K) : Prop :=
  ∃ o, item = .object o ∧ getNumber o "i" (-1) = .ok (e.i : K) ∧
    getNumber o "j" (-1) = .ok (e.j : K) ∧ getNumber o "re" 0 = .ok e.re ∧
    getNumber o "im" 0 = .ok e.im

/-- The field states a side of a correlation; an omitted side has no entries. -/
def SideStates (fields : JsonObject K) (name : String) (entries : List (CorrelationEntry K)) :
    Prop :=
  match fields.lookup name with
  | none => entries = []
  | some (.array items) => List.Forall₂ EntryStates items entries
  | some _ => False

/-- **The block that a `correlation_swap` states.** -/
structure States (fields : JsonObject K) (block : SpatialCorrelationConfig K) : Prop where
  declared : block.declared = true
  kind : getString fields "kind" "kronecker" =
    .ok (match block.kind with | .iid => "iid" | .kronecker => "kronecker")
  rx : SideStates fields "rx" block.rx
  tx : SideStates fields "tx" block.tx

omit [Libm K] in
/-- Truncating a whole number leaves it. -/
theorem truncInt_intCast (n : ℤ) : truncInt (n : K) = n := by
  unfold truncInt
  split_ifs
  · exact Int.floor_intCast n
  · exact Int.ceil_intCast n

/-- A check that finds nothing passes. -/
theorem rejectIf_of_not {c : Prop} [Decidable c] (h : ¬ c) (reason : String) :
    rejectIf c reason = .ok () := if_neg h

/-- A check that finds something rejects. -/
theorem rejectIf_of {c : Prop} [Decidable c] (h : c) (reason : String) :
    rejectIf c reason = .error reason := if_pos h

/-- `read_side` keeps an entry exactly when it fits. -/
theorem EntryStates.read {item : JsonValue K} {e : CorrelationEntry K} (h : EntryStates item e)
    (name : String) (dim : ℕ) :
    (e.Fits dim → correlationEntry name dim item = .ok e) ∧
      (¬ e.Fits dim → ∃ reason, correlationEntry name dim item = .error reason) := by
  obtain ⟨o, rfl, hi, hj, hre, him⟩ := h
  unfold correlationEntry
  simp only [hi, hj, hre, him, Except.mapError, ok_bind, truncInt_intCast]
  by_cases hshape : e.i < 0 ∨ e.j ≤ e.i ∨ (dim : ℤ) ≤ e.j
  · refine ⟨fun hfits => ?_, fun _ => by rw [rejectIf_of hshape]; exact ⟨_, rfl⟩⟩
    have hnonneg := hfits.nonneg
    have hupper := hfits.upper
    have hrange := hfits.range
    omega
  · by_cases hunit : 1 + 1 / 10 ^ 12 < Libm.sqrt (e.re * e.re + e.im * e.im)
    · refine ⟨fun hfits => absurd hunit hfits.unit, fun _ => ?_⟩
      rw [rejectIf_of_not hshape, rejectIf_of hunit]
      exact ⟨_, rfl⟩
    · refine ⟨fun _ => ?_, fun hfits => absurd ⟨?_, ?_, ?_, hunit⟩ hfits⟩
      · rw [rejectIf_of_not hshape, rejectIf_of_not hunit]
        rfl
      · omega
      · omega
      · omega

/-- The entries that are stated are read, unless one does not fit. -/
theorem entries_read {items : List (JsonValue K)} {entries : List (CorrelationEntry K)}
    (h : List.Forall₂ EntryStates items entries) (name : String) (dim : ℕ) :
    ((∀ e ∈ entries, e.Fits dim) → items.mapM (correlationEntry name dim) = .ok entries) ∧
      (¬ (∀ e ∈ entries, e.Fits dim) →
        ∃ reason, items.mapM (correlationEntry name dim) = .error reason) := by
  induction h with
  | nil => exact ⟨fun _ => rfl, fun hbad => absurd (fun _ he => absurd he List.not_mem_nil) hbad⟩
  | @cons item e items entries hitem _ ih =>
      have hread := hitem.read name dim
      rw [List.mapM_cons, List.forall_mem_cons]
      refine ⟨fun hall => ?_, fun hbad => ?_⟩
      · rw [hread.1 hall.1, ih.1 hall.2]
        rfl
      · by_cases hfits : e.Fits dim
        · obtain ⟨reason, hreason⟩ := ih.2 fun hall => hbad ⟨hfits, hall⟩
          rw [hread.1 hfits, hreason]
          exact ⟨reason, rfl⟩
        · obtain ⟨reason, hreason⟩ := hread.2 hfits
          rw [hreason]
          exact ⟨reason, rfl⟩

/-- Reading a side whose entries are stated gives them, or a reason if one is outside. -/
theorem SideStates.read {fields : JsonObject K} {name : String}
    {entries : List (CorrelationEntry K)} (h : SideStates fields name entries) (dim : ℕ) :
    ((∀ e ∈ entries, e.Fits dim) → readSide fields name dim = .ok entries) ∧
      (¬ (∀ e ∈ entries, e.Fits dim) → ∃ reason, readSide fields name dim = .error reason) := by
  unfold SideStates at h
  unfold readSide
  cases hfield : fields.lookup name with
  | none =>
      rw [hfield] at h
      obtain rfl : entries = [] := h
      exact ⟨fun _ => rfl, fun hbad => absurd (fun _ he => absurd he List.not_mem_nil) hbad⟩
  | some value =>
      rw [hfield] at h
      cases value with
      | array items => exact entries_read h name dim
      | _ => exact h.elim

/-- An error is no value. -/
theorem not_exists_error_eq_ok {ε α : Type} (e : ε) : ¬ ∃ a, (Except.error e : Except ε α) = .ok a := by
  rintro ⟨_, ⟨⟩⟩

omit [IsStrictOrderedRing K] [FloorRing K] in
/-- A kronecker block is staged exactly when its factor exists and its lanes are within the cap. -/
theorem stageCorrelation_iff (ctl : BrokerLinkControl K) {block : SpatialCorrelationConfig K}
    (hdeclared : block.declared = true) :
    (∃ staged, stageCorrelation ctl
      (match block.kind with | .iid => "iid" | .kronecker => "kronecker") block.rx block.tx =
        .ok staged) ↔
      match block.kind with
      | .iid => block.rx = [] ∧ block.tx = []
      | .kronecker => ctl.ntHint * ctl.nrHint ≤ kMaxCorrelatedLanes ∧
          ∃ mixing, laneMixingMatrix block ctl.ntHint ctl.nrHint = .ok mixing := by
  unfold stageCorrelation
  cases hkind : block.kind with
  | iid =>
      simp only [if_true]
      by_cases hempty : block.rx = [] ∧ block.tx = []
      · rw [hempty.1, hempty.2]
        exact ⟨fun _ => ⟨rfl, rfl⟩, fun _ => ⟨_, rfl⟩⟩
      · rw [rejectIf_of (by simpa [imp_iff_not_or] using hempty)]
        exact iff_of_false (not_exists_error_eq_ok _) hempty
  | kronecker =>
      rw [if_neg (by decide)]
      have hblock : block = { declared := true, kind := .kronecker, rx := block.rx
                              tx := block.tx } := by
        rw [← hdeclared, ← hkind]
      rw [← hblock]
      cases laneMixingMatrix block ctl.ntHint ctl.nrHint with
      | error reason =>
          exact iff_of_false (not_exists_error_eq_ok _) fun h => not_exists_error_eq_ok _ h.2
      | ok mixing =>
          simp only [Except.mapError, ok_bind]
          by_cases hcap : kMaxCorrelatedLanes < ctl.ntHint * ctl.nrHint
          · rw [rejectIf_of hcap]
            exact iff_of_false (not_exists_error_eq_ok _) fun h => absurd h.1 (by omega)
          · rw [rejectIf_of_not hcap]
            exact ⟨fun _ => ⟨by omega, mixing, rfl⟩, fun _ => ⟨_, rfl⟩⟩

/-- Behind a check a computation succeeds if the check does. -/
theorem exists_bind_pure_iff {ε α β : Type} (x : Except ε α) (f : α → β) :
    (∃ b, (x >>= fun a => pure (f a)) = .ok b) ↔ ∃ a, x = .ok a := by
  cases x with
  | error e => exact iff_of_false (not_exists_error_eq_ok e) (not_exists_error_eq_ok e)
  | ok a => exact ⟨fun _ => ⟨a, rfl⟩, fun _ => ⟨f a, rfl⟩⟩

omit [IsStrictOrderedRing K] [FloorRing K] in
/-- Both sides of a block that fits are read. -/
theorem SpatialCorrelationConfig.Fits.sides {block : SpatialCorrelationConfig K} {nt nr : ℕ}
    (h : block.Fits nt nr) : (∀ e ∈ block.rx, e.Fits nr) ∧ ∀ e ∈ block.tx, e.Fits nt := by
  unfold SpatialCorrelationConfig.Fits at h
  cases hkind : block.kind with
  | iid =>
      rw [hkind] at h
      rw [h.1, h.2]
      exact ⟨fun _ he => absurd he List.not_mem_nil, fun _ he => absurd he List.not_mem_nil⟩
  | kronecker =>
      rw [hkind] at h
      exact ⟨h.1, h.2.1⟩

/-- **The handler accepts a stated block when the link opted in and the block fits.** -/
theorem correlationRequest_iff {links : LinkMap K} {fields : JsonObject K} {linkId : String}
    {ctl : BrokerLinkControl K}
    (hctl : swapLink "correlation_swap" links fields = .ok (linkId, ctl)) {gate : K}
    (hgate : getNumber fields "take_effect_at_slot" 0 = .ok gate)
    {block : SpatialCorrelationConfig K} (hstates : States fields block) :
    (∃ r, correlationRequest links fields = .ok r) ↔
      ctl.correlationDeclared = true ∧ block.Fits ctl.ntHint ctl.nrHint := by
  have hstaged := stageCorrelation_iff ctl hstates.declared
  obtain ⟨hrx, hnorx⟩ := hstates.rx.read ctl.nrHint
  obtain ⟨htx, hnotx⟩ := hstates.tx.read ctl.ntHint
  unfold correlationRequest
  rw [hctl, hstates.kind, hgate]
  simp only [ok_bind]
  by_cases hopted : ctl.correlationDeclared = true
  · rw [rejectIf_of_not (by simp [hopted]), rejectIf_of_not (by cases block.kind <;> decide)]
    simp only [ok_bind, hopted, true_and]
    by_cases hfitrx : ∀ e ∈ block.rx, e.Fits ctl.nrHint
    · by_cases hfittx : ∀ e ∈ block.tx, e.Fits ctl.ntHint
      · rw [hrx hfitrx, htx hfittx]
        simp only [ok_bind]
        rw [exists_bind_pure_iff, hstaged]
        unfold SpatialCorrelationConfig.Fits
        cases block.kind with
        | iid => exact Iff.rfl
        | kronecker => exact ⟨fun h => ⟨hfitrx, hfittx, h⟩, fun h => h.2.2⟩
      · obtain ⟨reason, hreason⟩ := hnotx hfittx
        rw [hrx hfitrx, hreason]
        exact iff_of_false (not_exists_error_eq_ok _) fun h => hfittx h.sides.2
    · obtain ⟨reason, hreason⟩ := hnorx hfitrx
      rw [hreason]
      exact iff_of_false (not_exists_error_eq_ok _) fun h => hfitrx h.sides.1
  · rw [rejectIf_of (by simpa using hopted)]
    exact iff_of_false (not_exists_error_eq_ok _) fun h => hopted h.1

omit [IsStrictOrderedRing K] in
/-- A swap is answered `ok` exactly if its request is admitted. -/
theorem handleCorrelationSwap_ok_iff {srv : ControlServer K} {links : LinkMap K}
    {fields : JsonObject K} :
    (handleCorrelationSwap srv links fields).reply.ok = true ↔
      ∃ r, correlationRequest links fields = .ok r := by
  unfold handleCorrelationSwap
  cases correlationRequest links fields with
  | error reason => exact ⟨fun h => (nomatch h), fun ⟨_, h⟩ => (nomatch h)⟩
  | ok r => exact ⟨fun _ => ⟨r, rfl⟩, fun _ => rfl⟩

/-! ## The two agree -/

/-- What preparing the link left in its control block. -/
structure BrokerLinkControl.PreparedFrom (ctl : BrokerLinkControl K) (model : ModelConfig K)
    (nt nr : ℕ) : Prop where
  ntHint : ctl.ntHint = nt
  nrHint : ctl.nrHint = nr
  declared : ctl.correlationDeclared = model.spatialCorrelation.declared

omit [LinearOrder K] [IsStrictOrderedRing K] [FloorRing K] [Libm K] in
/-- Preparing a link writes the dimensions and the opt-in of its model. -/
theorem prepareLink_preparedFrom (model : ModelConfig K) (live : MutableParams K)
    (steps : List (StepState K)) (sampleCount : ℕ) (identity : LaneIdentity)
    (link : PhysicalLinkRuntime K) :
    (prepareLink model live steps sampleCount identity link).control.PreparedFrom model
      identity.nt identity.nr := ⟨rfl, rfl, rfl⟩

omit [Field K] [LinearOrder K] [IsStrictOrderedRing K] [FloorRing K] [Libm K] in
/-- A publication keeps what preparing wrote. -/
theorem BrokerLinkControl.PreparedFrom.publish {ctl : BrokerLinkControl K}
    {model : ModelConfig K} {nt nr : ℕ} (h : ctl.PreparedFrom model nt nr) (gate : ℕ)
    (u : Update K) : (ctl.publish gate u).PreparedFrom model nt nr :=
  ⟨by rw [publish_ntHint, h.ntHint], by rw [publish_nrHint, h.nrHint],
    by rw [publish_correlationDeclared, h.declared]⟩

/-- **A swap is accepted as the validator would accept the declaration**, up to what only the
validator asks, for a link that opted in. -/
theorem correlation_swap_matches_load {config : TopologyConfig K}
    (hvalid : validateConfig config = []) (hnodes : config.radioNodes ≠ [])
    {link : LinkConfig K} (hlink : link ∈ config.links) {model : ModelConfig K} {nt nr : ℕ}
    (hshape : LinkShape config link model nt nr) (srv : ControlServer K) {links : LinkMap K}
    {fields : JsonObject K} {linkId : String} {ctl : BrokerLinkControl K}
    (hctl : swapLink "correlation_swap" links fields = .ok (linkId, ctl))
    (hprepared : ctl.PreparedFrom model nt nr)
    (hopted : model.spatialCorrelation.declared = true) {gate : K}
    (hgate : getNumber fields "take_effect_at_slot" 0 = .ok gate)
    {block : SpatialCorrelationConfig K} (hstates : States fields block) :
    ((handleCorrelationSwap srv links fields).reply.ok = true ∧ block.LoadsWith model ↔
      AcceptedFor config link model block) ∧
    ((config.models.map Prod.fst).Nodup →
      (∀ other ∈ config.links, other.model = link.model → LinkShape config other model nt nr) →
      ((handleCorrelationSwap srv links fields).reply.ok = true ∧ block.LoadsWith model ↔
        validateConfig (config.declare link.model block) = [])) := by
  -- the loaded configuration has passed both matrix checks
  have hmatrix : modelMatrixErrors link.model model = [] ∧
      ∀ other ∈ config.links, linkMatrixErrors config other = [] := by
    simp only [validateConfig, List.append_eq_nil_iff, List.flatMap_eq_nil_iff] at hvalid
    obtain ⟨⟨⟨-, hmodels⟩, hlinks⟩, -⟩ := hvalid
    rw [if_neg (by simpa using hnodes), List.flatMap_eq_nil_iff] at hlinks
    obtain ⟨before, after, hsplit, -⟩ := List.lookup_eq_some_iff.mp hshape.model
    exact ⟨hmodels (link.model, model) (by rw [hsplit]; simp), hlinks⟩
  have haccepted := acceptedFor_iff hshape hmatrix.1 (hmatrix.2 link hlink) hstates.declared
  have hswap : (handleCorrelationSwap srv links fields).reply.ok = true ↔ block.Fits nt nr := by
    rw [handleCorrelationSwap_ok_iff, correlationRequest_iff hctl hgate hstates,
      hprepared.ntHint, hprepared.nrHint, hprepared.declared]
    exact and_iff_right hopted
  have hsame : (handleCorrelationSwap srv links fields).reply.ok = true ∧ block.LoadsWith model ↔
      AcceptedFor config link model block := by rw [hswap, haccepted]
  refine ⟨hsame, fun hkeys hothers => ?_⟩
  rw [hsame, validateConfig_declare hvalid hnodes hkeys hshape.model]
  constructor
  · rintro ⟨hmodelErrors, hlinkErrors⟩
    refine ⟨hmodelErrors, fun other hother => ?_⟩
    -- a link of the same model has the same shape, one of another model is untouched
    by_cases hid : other.model = link.model
    · have hfits := (linkMatrixErrors_declare (hmatrix.2 link hlink) hshape hstates.declared).mp
        hlinkErrors
      have hothershape := hothers other hother hid
      rw [← hid]
      exact (linkMatrixErrors_declare (hmatrix.2 other hother) hothershape hstates.declared).mpr
        hfits
    · rw [linkMatrixErrors_declare_of_ne hid]
      exact hmatrix.2 other hother
  · rintro ⟨hmodelErrors, hlinkErrors⟩
    exact ⟨hmodelErrors, hlinkErrors link hlink⟩

end Run

/-! ## A two by two link -/

instance {config : TopologyConfig ℚ} {link : LinkConfig ℚ} {model : ModelConfig ℚ}
    {block : SpatialCorrelationConfig ℚ} : Decidable (AcceptedFor config link model block) :=
  inferInstanceAs (Decidable (_ ∧ _))

/-- A fading model with the given correlation. -/
def fadingModel (block : SpatialCorrelationConfig ℚ) : ModelConfig ℚ :=
  { id := "fading"
    chain := [{ type := .tdl, taps := [⟨0, 0, 0, false, 0, 0⟩], tapsDeclared := true
                fadingEnabled := true, fadingFDMaxHz := 10, fadingGridUs := 100 }]
    spatialCorrelation := block }

def optedIn : SpatialCorrelationConfig ℚ := { declared := true, kind := .iid }

/-- A model without fading that opted in. -/
def flatModel : ModelConfig ℚ :=
  { id := "flat"
    chain := [{ type := .gain, params := [("gain_db", 0)], fadingFDMaxHz := 0
                fadingGridUs := 100 }]
    spatialCorrelation := optedIn }

/-- A fading model that opted in and states the identity of each tap. -/
def matrixModel : ModelConfig ℚ :=
  { fadingModel optedIn with fixedMimo := [⟨0, 0, 0, 1, 0⟩], fixedMimoDeclared := true }

def fadingLink : LinkConfig ℚ := plainLink "ue" "gnb" "fading"

def squareConfig (model : ModelConfig ℚ) : TopologyConfig ℚ :=
  { devices := [plainDevice "u0", plainDevice "u1", plainDevice "g0", plainDevice "g1"]
    radioNodes := [⟨"ue", ["u0", "u1"], ["u0", "u1"]⟩, ⟨"gnb", ["g0", "g1"], ["g0", "g1"]⟩]
    links := [fadingLink, plainLink "gnb" "ue" "flat"]
    models := [("fading", model), ("flat", flatModel)] }

/-- Two devices without radio nodes. -/
def deviceConfig (model : ModelConfig ℚ) : TopologyConfig ℚ :=
  { devices := [plainDevice "ue", plainDevice "gnb"]
    links := [fadingLink, plainLink "gnb" "ue" "flat"]
    models := [("fading", model), ("flat", flatModel)] }

/-- The control block of a square link, which opted in or not. -/
def squareLink (opted : Bool) (ports : ℕ) : BrokerLinkControl ℚ :=
  { BrokerLinkControl.default with
    ntHint := ports, nrHint := ports, correlationDeclared := opted }

def squareLinks (opted : Bool) (ports : ℕ) : LinkMap ℚ := fun id =>
  if id = "l" then some (squareLink opted ports) else none

def entryObject (i j re : ℚ) : JsonObject ℚ :=
  [("i", .number i), ("j", .number j), ("re", .number re)]

def swapMessage (rx : List (JsonObject ℚ)) : JsonObject ℚ :=
  [("type", .string "correlation_swap"), ("link_id", .string "l"),
    ("rx", .array (rx.map .object))]

/-- The answer to a swap of the receive side. -/
def swapAnswer (opted : Bool) (ports : ℕ) (rx : List (JsonObject ℚ)) : Bool :=
  (handleCorrelationSwap (ControlServer.start ℚ 0 "cpu") (squareLinks opted ports)
    (swapMessage rx)).reply.ok

def rxBlock (rx : List (CorrelationEntry ℚ)) : SpatialCorrelationConfig ℚ :=
  { declared := true, kind := .kronecker, rx := rx }

theorem correlation_swap_matches_load_half :
    swapAnswer true 2 [entryObject 0 1 (1 / 2)] = true ∧
      AcceptedFor (squareConfig (fadingModel optedIn)) fadingLink (fadingModel optedIn)
        (rxBlock [⟨0, 1, 1 / 2, 0⟩]) := by
  have hvalid : validateConfig (squareConfig (fadingModel optedIn)) = [] := by decide +kernel
  have hshape : LinkShape (squareConfig (fadingModel optedIn)) fadingLink (fadingModel optedIn) 2 2 :=
    ⟨rfl, ⟨_, rfl, rfl⟩, ⟨_, rfl, rfl⟩⟩
  have hctl : swapLink "correlation_swap" (squareLinks true 2)
      (swapMessage [entryObject 0 1 (1 / 2)]) = .ok ("l", squareLink true 2) := rfl
  have hprepared : (squareLink true 2).PreparedFrom (fadingModel optedIn) 2 2 := ⟨rfl, rfl, rfl⟩
  have hgate : getNumber (swapMessage [entryObject 0 1 (1 / 2)]) "take_effect_at_slot" 0 =
      .ok 0 := rfl
  have hstates : States (swapMessage [entryObject 0 1 (1 / 2)])
      (rxBlock [⟨0, 1, 1 / 2, 0⟩]) := by
    refine ⟨rfl, rfl, List.Forall₂.cons ⟨_, rfl, ?_, ?_, rfl, rfl⟩ List.Forall₂.nil, rfl⟩
    · decide +kernel
    · decide +kernel
  have hload : (rxBlock [⟨0, 1, 1 / 2, 0⟩]).LoadsWith (fadingModel optedIn) :=
    ⟨by decide, by decide, fun _ => Or.inl (by decide), fun _ => by decide, fun _ => rfl⟩
  have hsame := correlation_swap_matches_load hvalid (by decide) (List.mem_cons_self) hshape
    (ControlServer.start ℚ 0 "cpu") hctl hprepared rfl hgate hstates
  have hanswer : swapAnswer true 2 [entryObject 0 1 (1 / 2)] = true := by decide +kernel
  exact ⟨hanswer, hsame.1.mp ⟨hanswer, hload⟩⟩

/-- What one of the two accepts and the other refuses: a link that did not opt in; an index that is
truncated, a repeated entry, a kronecker block without entries, a chain without fading and a fixed
matrix; and an entry outside a link between devices. -/
theorem correlation_checks_differ :
    (swapAnswer false 2 [entryObject 0 1 (1 / 2)] = false ∧
      AcceptedFor (squareConfig (fadingModel {})) fadingLink (fadingModel {})
        (rxBlock [⟨0, 1, 1 / 2, 0⟩])) ∧
    swapAnswer true 2 [entryObject (1 / 2) 1 (1 / 2)] = true ∧
    (swapAnswer true 2 [entryObject 0 1 (1 / 2), entryObject 0 1 (1 / 4)] = true ∧
      ¬ AcceptedFor (squareConfig (fadingModel optedIn)) fadingLink (fadingModel optedIn)
        (rxBlock [⟨0, 1, 1 / 2, 0⟩, ⟨0, 1, 1 / 4, 0⟩])) ∧
    (swapAnswer true 2 [] = true ∧
      ¬ AcceptedFor (squareConfig (fadingModel optedIn)) fadingLink (fadingModel optedIn)
        (rxBlock [])) ∧
    (swapAnswer true 2 [entryObject 0 1 (1 / 2)] = true ∧
      ¬ AcceptedFor (squareConfig (fadingModel optedIn)) (plainLink "gnb" "ue" "flat") flatModel
        (rxBlock [⟨0, 1, 1 / 2, 0⟩]) ∧
      ¬ AcceptedFor (squareConfig matrixModel) fadingLink matrixModel
        (rxBlock [⟨0, 1, 1 / 2, 0⟩])) ∧
    (swapAnswer true 1 [entryObject 0 1 (1 / 2)] = false ∧
      validateConfig (deviceConfig (fadingModel (rxBlock [⟨0, 1, 1 / 2, 0⟩]))) = []) := by
  decide +kernel
