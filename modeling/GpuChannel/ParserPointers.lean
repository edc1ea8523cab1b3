/-
# The pointers of the topology reader

A branch of the models section writes through one pointer.  While a model is open, every pointer
that is not null refers to an element of it; a key at indent 0 closes the model and all of its
blocks but two, so that a later section can reach a branch of these without a model.
-/
import GpuChannel.ConfigParser
import GpuChannel.Library.Checked
import GpuChannel.Library.Tables

/-! ## Elements -/

/-- An element of a model, by the id of its model. -/
inductive ElementRef
  | model (id : String)
  | step (id : String) (i : ℕ)
  | tap (id : String) (i k : ℕ)
  | coefficient (id : String) (i : ℕ)
  | entry (id : String) (side : CorrelationSide) (i : ℕ)
  | losCoefficient (id : String) (i : ℕ)

namespace ElementRef

variable {K : Type}

def owner : ElementRef → String
  | model id => id
  | step id _ => id
  | tap id _ _ => id
  | coefficient id _ => id
  | entry id _ _ => id
  | losCoefficient id _ => id

/-- The model has the element. -/
def In (m : ModelConfig K) : ElementRef → Prop
  | model _ => True
  | step _ i => i < m.chain.length
  | tap _ i k => ∃ step, m.chain[i]? = some step ∧ k < step.taps.length
  | coefficient _ i => i < m.fixedMimo.length
  | entry _ side i => i < (m.spatialCorrelation.entries side).length
  | losCoefficient _ i => i < m.losMatrix.coefficients.length

end ElementRef

/-- Every element of the first model is an element of the second. -/
structure ModelGrows {K : Type} (m m' : ModelConfig K) : Prop where
  chain : ∀ (i : ℕ) (step : ModelStep K), m.chain[i]? = some step →
    ∃ step', m'.chain[i]? = some step' ∧ step.taps.length ≤ step'.taps.length
  fixedMimo : m.fixedMimo.length ≤ m'.fixedMimo.length
  entries : ∀ side, (m.spatialCorrelation.entries side).length ≤
    (m'.spatialCorrelation.entries side).length
  coefficients : m.losMatrix.coefficients.length ≤ m'.losMatrix.coefficients.length

namespace ModelGrows

variable {K : Type} {m m' : ModelConfig K}

/-- An element of a model is in every model that grew from it. -/
theorem mem (h : ModelGrows m m') {r : ElementRef} (hr : r.In m) : r.In m' := by
  cases r with
  | model id => trivial
  | step id i =>
      obtain ⟨step', hstep', -⟩ := h.chain i _ (List.getElem?_eq_getElem hr)
      exact (List.getElem?_eq_some_iff.mp hstep').1
  | tap id i k =>
      obtain ⟨step, hstep, hk⟩ := hr
      obtain ⟨step', hstep', hlen⟩ := h.chain i step hstep
      exact ⟨step', hstep', by omega⟩
  | coefficient id i => exact lt_of_lt_of_le hr h.fixedMimo
  | entry id side i => exact lt_of_lt_of_le hr (h.entries side)
  | losCoefficient id i => exact lt_of_lt_of_le hr h.coefficients

/-- A step is replaced by one with at least its taps. -/
theorem setStep {i : ℕ} {step step' : ModelStep K} (hstep : m.chain[i]? = some step)
    (hlen : step.taps.length ≤ step'.taps.length) :
    ModelGrows m { m with chain := m.chain.set i step' } := by
  refine ⟨fun j other hj => ?_, le_rfl, fun _ => le_rfl, le_rfl⟩
  by_cases hji : i = j
  · subst hji
    obtain ⟨hlt, -⟩ := List.getElem?_eq_some_iff.mp hj
    rw [hstep] at hj
    cases hj
    exact ⟨step', List.getElem?_set_self hlt, hlen⟩
  · exact ⟨other, by rw [← hj]; exact List.getElem?_set_ne hji, le_rfl⟩

/-- A step is added behind the others. -/
theorem addStep (step : ModelStep K) : ModelGrows m { m with chain := m.chain ++ [step] } := by
  refine ⟨fun i other hi => ⟨other, ?_, le_rfl⟩, le_rfl, fun _ => le_rfl, le_rfl⟩
  obtain ⟨hlt, -⟩ := List.getElem?_eq_some_iff.mp hi
  rw [← hi]
  exact List.getElem?_append_left hlt

/-- The chain stays. -/
theorem of_chain (hchain : m'.chain = m.chain) (hfixed : m.fixedMimo.length ≤ m'.fixedMimo.length)
    (hentries : ∀ side, (m.spatialCorrelation.entries side).length ≤
      (m'.spatialCorrelation.entries side).length)
    (hlos : m.losMatrix.coefficients.length ≤ m'.losMatrix.coefficients.length) : ModelGrows m m' :=
  ⟨fun i step hi => ⟨step, by rw [hchain]; exact hi, le_rfl⟩, hfixed, hentries, hlos⟩

end ModelGrows

/-! ## The entries of a correlation -/

namespace SpatialCorrelationConfig

variable {K : Type} (c : SpatialCorrelationConfig K)

/-- The entries of a side are the ones that were set. -/
@[simp] theorem entries_setEntries_self (side : CorrelationSide)
    (entries : List (CorrelationEntry K)) : (c.setEntries side entries).entries side = entries := by
  cases side <;> rfl

/-- Setting longer entries on one side shortens neither. -/
theorem length_entries_setEntries {side : CorrelationSide} {entries : List (CorrelationEntry K)}
    (h : (c.entries side).length ≤ entries.length) (other : CorrelationSide) :
    (c.entries other).length ≤ ((c.setEntries side entries).entries other).length := by
  cases side <;> cases other
  · exact h
  · exact le_rfl
  · exact le_rfl
  · exact h

end SpatialCorrelationConfig

/-! ## The state -/

namespace ConfigReader

variable {K : Type}

def modelRef (s : ConfigReader K) : Option ElementRef := s.currentModel.map .model

def stepRef (s : ConfigReader K) : Option ElementRef := s.currentStep.map fun r => .step r.1 r.2

def tapRef (s : ConfigReader K) : Option ElementRef :=
  s.currentTap.map fun r => .tap r.1 r.2.1 r.2.2

def coefficientRef (s : ConfigReader K) : Option ElementRef :=
  s.currentCoefficient.map fun r => .coefficient r.1 r.2

def entryRef (s : ConfigReader K) : Option ElementRef :=
  s.currentEntry.map fun r => .entry r.1 r.2.1 r.2.2

def losCoefficientRef (s : ConfigReader K) : Option ElementRef :=
  s.currentLosCoefficient.map fun r => .losCoefficient r.1 r.2

def pointers (s : ConfigReader K) : List (Option ElementRef) :=
  [s.modelRef, s.stepRef, s.tapRef, s.coefficientRef, s.entryRef, s.losCoefficientRef]

/-- The element belongs to the model that is open. -/
def Refers (s : ConfigReader K) (r : ElementRef) : Prop :=
  s.currentModel = some r.owner ∧ ∃ m, s.config.models.lookup r.owner = some m ∧ r.In m

/-- The pointer that a branch writes through when it is reached. -/
def writesThrough (s : ConfigReader K) : ModelsBranch → List (Option ElementRef)
  | .fixedMimo | .coefficient | .spatialCorrelation | .kind | .entry | .losMatrix
  | .losCoefficient | .step => [s.modelRef]
  | .coefficientKey => [s.coefficientRef]
  | .entryKey => [s.entryRef]
  | .losCoefficientKey => [s.losCoefficientRef]
  | .taps | .fading | .tap | .fadingKey | .stepKey => [s.stepRef]
  | .tapKey => [s.tapRef]
  | .model | .chain | .coefficients | .rx | .tx | .losCoefficients | .malformed => []

/-- The branch that takes the line writes through a pointer to an element of the open model. -/
def Live (s : ConfigReader K) (line : SourceLine) : Prop :=
  line.indent ≠ 0 → s.currentSection = .models →
    ∀ p ∈ s.writesThrough (s.modelsBranch line), ∃ r, p = some r ∧ s.Refers r

/-- Before the first model of a section, the line is taken by the block of a correlation or a LOS
matrix that an earlier section left open. -/
def Stale (s : ConfigReader K) (line : SourceLine) : Prop :=
  line.indent ≠ 0 ∧ s.currentSection = .models ∧ s.currentModel = none ∧
    s.modelsBranch line ∈ [ModelsBranch.kind, .entry, .entryKey, .losCoefficient,
      .losCoefficientKey]

/-- The line is one that the loop reaches in the state `s`. -/
def Reaches [Zero K] [One K] [NatCast K] [TextNumbers K] (lines : List (List Char))
    (s : ConfigReader K) (line : SourceLine) : Prop :=
  ∃ pre raw post, lines = pre ++ raw :: post ∧ readLines pre = .ok s ∧
    readLine (s.lineNumber + 1) raw = .ok (some line)

/-! ## The invariant -/

/-- What a key at indent 0 closes. -/
structure Closed (s : ConfigReader K) : Prop where
  step : s.currentStep = none
  tap : s.currentTap = none
  mimo : s.inFixedMimo = false
  coefficients : s.inCoefficients = false
  coefficient : s.currentCoefficient = none

structure PointersOk (s : ConfigReader K) : Prop where
  refers : s.currentModel.isSome → ∀ r, some r ∈ s.pointers → s.Refers r
  closed : s.currentModel = none → s.Closed

/-- The reader starts with no pointer at all. -/
theorem pointersOk_start : (start : ConfigReader K).PointersOk :=
  ⟨fun h => absurd h (by simp [start]), fun _ => ⟨rfl, rfl, rfl, rfl, rfl⟩⟩

/-- The flag that the test of a branch asks for first. -/
def Guard (s : ConfigReader K) : ModelsBranch → Prop
  | .chain | .fixedMimo | .spatialCorrelation | .losMatrix | .step => s.currentModel.isSome
  | .coefficients => s.inFixedMimo
  | .coefficient => s.inCoefficients
  | .coefficientKey => s.currentCoefficient.isSome
  | .rx | .tx | .kind => s.inSpatial
  | .entry => s.correlationSide.isSome
  | .entryKey => s.currentEntry.isSome
  | .losCoefficients => s.inLos
  | .losCoefficient => s.inLosCoefficients
  | .losCoefficientKey => s.currentLosCoefficient.isSome
  | .taps | .fading | .tap | .fadingKey | .stepKey => s.currentStep.isSome
  | .tapKey => s.currentTap.isSome
  | .model | .malformed => True

/-- The branch that is taken passed its own test. -/
theorem modelsBranch_guard (s : ConfigReader K) (line : SourceLine) :
    s.Guard (s.modelsBranch line) := by
  unfold modelsBranch
  refine iteInduction (fun _ => trivial) fun _ => ?_
  iterate 22 refine iteInduction (fun h => h.1) fun _ => ?_
  trivial

/-- Without a model, only the blocks that a key at indent 0 leaves open reach a pointer. -/
theorem Closed.branch {s : ConfigReader K} (h : s.Closed) (hmodel : s.currentModel = none)
    {b : ModelsBranch} (hguard : s.Guard b) :
    s.writesThrough b = [] ∨
      b ∈ [ModelsBranch.kind, .entry, .entryKey, .losCoefficient, .losCoefficientKey] := by
  obtain ⟨hstep, htap, hmimo, hcoefficients, hcoefficient⟩ := h
  cases b <;> simp_all [Guard, writesThrough]

/-- With a model, the pointer that a branch writes through is one of the reader and not null. -/
theorem writesThrough_subset {s : ConfigReader K} (hmodel : s.currentModel.isSome)
    {b : ModelsBranch} (hguard : s.Guard b) :
    ∀ p ∈ s.writesThrough b, ∃ r, p = some r ∧ some r ∈ s.pointers := by
  have hany : ∀ p ∈ s.pointers, p.isSome → ∃ r, p = some r ∧ some r ∈ s.pointers := by
    intro p hp hsome
    obtain ⟨r, rfl⟩ := Option.isSome_iff_exists.mp hsome
    exact ⟨r, rfl, hp⟩
  intro p hp
  refine hany p ?_ ?_
  · cases b <;> simp_all [writesThrough, pointers]
  · cases b <;> simp_all [writesThrough, Guard, modelRef, stepRef, tapRef, coefficientRef,
      entryRef, losCoefficientRef]

/-- **A branch is reached with a live pointer unless its block was left open.** -/
theorem PointersOk.live_iff {s : ConfigReader K} (h : s.PointersOk) (line : SourceLine) :
    s.Live line ↔ ¬ s.Stale line := by
  have hguard := s.modelsBranch_guard line
  constructor
  · rintro hlive ⟨hindent, hsection, hmodel, hbranch⟩
    have hdead : ∀ p ∈ s.writesThrough (s.modelsBranch line), False := by
      intro p hp
      obtain ⟨r, -, hopen, -⟩ := hlive hindent hsection p hp
      rw [hmodel] at hopen
      cases hopen
    revert hdead hbranch
    cases s.modelsBranch line <;> simp [writesThrough]
  · intro hstale hindent hsection
    cases hmodel : s.currentModel with
    | none =>
        rcases (h.closed hmodel).branch hmodel hguard with hnil | hblock
        · rw [hnil]
          exact fun p hp => absurd hp List.not_mem_nil
        · exact absurd ⟨hindent, hsection, hmodel, hblock⟩ hstale
    | some id =>
        have hsome : s.currentModel.isSome := by rw [hmodel]; rfl
        intro p hp
        obtain ⟨r, rfl, hr⟩ := writesThrough_subset hsome hguard p hp
        exact ⟨r, rfl, h.refers hsome r hr⟩

/-! ## Writes -/

/-- The reader is in the model `m`, which is called `id`. -/
structure InModel (s : ConfigReader K) (id : String) (m : ModelConfig K) : Prop where
  current : s.currentModel = some id
  lookup : s.config.models.lookup id = some m

/-- Inside a model the model is there. -/
theorem PointersOk.inModel {s : ConfigReader K} (h : s.PointersOk)
    (hmodel : s.currentModel.isSome) : ∃ id m, s.InModel id m := by
  obtain ⟨id, hid⟩ := Option.isSome_iff_exists.mp hmodel
  obtain ⟨-, m, hm, -⟩ := h.refers hmodel (.model id) (by simp [pointers, modelRef, hid])
  exact ⟨id, m, hid, hm⟩

/-- Setting the model that is read leaves the reader inside it. -/
theorem InModel.setModel {s : ConfigReader K} {id : String} {m : ModelConfig K}
    (h : s.InModel id m) (m' : ModelConfig K) : (s.setModel id m').InModel id m' := by
  refine ⟨h.current, (lookup_map_update s.config.models id id fun _ => m').trans ?_⟩
  rw [if_pos rfl, h.lookup, Option.map_some]

/-- The open model is the one that is read. -/
theorem InModel.openModel_eq {s : ConfigReader K} {id : String} {m : ModelConfig K}
    (h : s.InModel id m) : s.openModel = pure (id, m) := by
  simp only [openModel, h.current, h.lookup]

/-- In a model, the invariant is about the elements of that model. -/
theorem InModel.pointersOk_iff {s : ConfigReader K} {id : String} {m : ModelConfig K}
    (h : s.InModel id m) : s.PointersOk ↔ ∀ r, some r ∈ s.pointers → r.owner = id ∧ r.In m := by
  constructor
  · intro hs r hr
    obtain ⟨hcurrent, m', hm', hin⟩ := hs.refers (by rw [h.current]; rfl) r hr
    rw [h.current] at hcurrent
    obtain rfl : id = r.owner := Option.some.inj hcurrent
    rw [h.lookup] at hm'
    cases hm'
    exact ⟨rfl, hin⟩
  · intro hs
    refine ⟨fun _ r hr => ?_, fun hnone => ?_⟩
    · obtain ⟨howner, hin⟩ := hs r hr
      rw [← howner] at h
      exact ⟨h.current, m, h.lookup, hin⟩
    · rw [h.current] at hnone
      cases hnone

/-- The model grows, and what the pointers refer to is kept or new. -/
theorem PointersOk.grow {s t : ConfigReader K} {id : String} {m m' : ModelConfig K}
    (h : s.PointersOk) (hs : s.InModel id m) (ht : t.InModel id m') (hgrows : ModelGrows m m')
    (hpointers : ∀ r, some r ∈ t.pointers → some r ∈ s.pointers ∨ r.owner = id ∧ r.In m') :
    t.PointersOk := by
  refine ht.pointersOk_iff.mpr fun r hr => ?_
  rcases hpointers r hr with hold | hnew
  · obtain ⟨howner, hin⟩ := hs.pointersOk_iff.mp h r hold
    exact ⟨howner, hgrows.mem hin⟩
  · exact hnew

/-- Pointers may become null. -/
theorem PointersOk.forget {s t : ConfigReader K} (h : s.PointersOk)
    (hcurrent : t.currentModel = s.currentModel) (hmodels : t.config.models = s.config.models)
    (hpointers : ∀ r, some r ∈ t.pointers → some r ∈ s.pointers) (hclosed : s.Closed → t.Closed) :
    t.PointersOk := by
  refine ⟨fun hmodel r hr => ?_, fun hnone => hclosed (h.closed (hcurrent.symm.trans hnone))⟩
  rw [hcurrent] at hmodel
  obtain ⟨howner, hm⟩ := h.refers hmodel r (hpointers r hr)
  exact ⟨hcurrent.trans howner, by rw [hmodels]; exact hm⟩

/-- Clearing one pointer adds none. -/
theorem mem_of_mem_set_none {α : Type} {l : List (Option α)} {k : ℕ} {a : α}
    (h : some a ∈ l.set k none) : some a ∈ l := by
  rcases List.mem_or_eq_of_mem_set h with hl | hnone
  · exact hl
  · cases hnone

/-- The model grows by the element that one pointer moves to. -/
theorem PointersOk.point {s t : ConfigReader K} {id : String} {m m' : ModelConfig K}
    (h : s.PointersOk) (hs : s.InModel id m) (ht : t.InModel id m') (hgrows : ModelGrows m m')
    (new : ElementRef) (howner : new.owner = id) (hin : new.In m') (k : ℕ)
    (hset : t.pointers = s.pointers.set k (some new)) : t.PointersOk := by
  refine h.grow hs ht hgrows fun r hr => ?_
  rw [hset] at hr
  rcases List.mem_or_eq_of_mem_set hr with hold | hnew
  · exact .inl hold
  · cases hnew
    exact .inr ⟨howner, hin⟩

/-! ### Through one pointer -/

/-- The reader does not follow a dead pointer. -/
def Alive (e : ReadFailure) : Prop := e ≠ .deadPointer

/-- What was thrown is no dead pointer. -/
theorem settles_thrown {α : Type} (x : Except String α) :
    Settles Alive (fun a => x = .ok a) (thrown x) :=
  Settles.mapError (fun _ h => ReadFailure.noConfusion h) fun _ h => h

/-- A throw is no dead pointer. -/
theorem settles_throw {α : Type} {P : α → Prop} (what : String) :
    Settles Alive P (throw (.thrown what)) := fun h => ReadFailure.noConfusion h

/-- A write into the model that is read sets it, or throws what the write throws. -/
theorem InModel.writeIn_settles {s : ConfigReader K} {id : String} {m : ModelConfig K}
    (hs : s.InModel id m) {write : ModelConfig K → Option (Except String (ModelConfig K))}
    {x : Except String (ModelConfig K)} (hw : write m = some x) :
    Settles Alive (fun t => ∃ m', x = .ok m' ∧ t = s.setModel id m') (s.writeIn id write) := by
  unfold writeIn
  rw [if_pos hs.current, hs.lookup, Option.bind_some, hw]
  exact (settles_thrown x).bind fun m' hm' => ⟨m', hm', rfl⟩

/-- What a write through one pointer gives, when the model only grows by it. -/
theorem PointersOk.writeIn_settles {s : ConfigReader K} {id : String} {m : ModelConfig K}
    (h : s.PointersOk) (hs : s.InModel id m)
    {write : ModelConfig K → Option (Except String (ModelConfig K))}
    {x : Except String (ModelConfig K)} (hw : write m = some x)
    (hgrows : ∀ m', x = .ok m' → ModelGrows m m') :
    Settles Alive PointersOk (s.writeIn id write) := by
  refine (hs.writeIn_settles hw).mono ?_
  rintro _ ⟨m', hm', rfl⟩
  exact h.grow hs (hs.setModel m') (hgrows m' hm') fun r hr => .inl hr

/-- A write through a live step pointer sets that step. -/
theorem InModel.writeStep_settles {s : ConfigReader K} {id : String} {m : ModelConfig K}
    (hs : s.InModel id m) {i : ℕ} {step : ModelStep K} (hcurrent : s.currentStep = some (id, i))
    (hstep : m.chain[i]? = some step) (f : ModelStep K → Except String (ModelStep K)) :
    Settles Alive (fun t => ∃ step', f step = .ok step' ∧
      t = s.setModel id { m with chain := m.chain.set i step' }) (s.writeStep f) := by
  unfold writeStep
  rw [hcurrent]
  refine (hs.writeIn_settles (by rw [hstep]; rfl)).mono ?_
  rintro _ ⟨m', hm', rfl⟩
  obtain ⟨step', hstep', hm'⟩ := bind_eq_ok hm'
  cases hm'
  exact ⟨step', hstep', rfl⟩

/-- The step that the step pointer refers to. -/
theorem PointersOk.step {s : ConfigReader K} (h : s.PointersOk) {id : String} {m : ModelConfig K}
    (hs : s.InModel id m) (hsome : s.currentStep.isSome) :
    ∃ i step, s.currentStep = some (id, i) ∧ m.chain[i]? = some step := by
  obtain ⟨⟨owner, i⟩, hstep⟩ := Option.isSome_iff_exists.mp hsome
  obtain ⟨howner, hin⟩ := hs.pointersOk_iff.mp h (.step owner i)
    (by simp [pointers, stepRef, hstep])
  obtain rfl : owner = id := howner
  exact ⟨i, m.chain[i], hstep, List.getElem?_eq_getElem hin⟩

/-- A write that keeps the taps of the step keeps every pointer alive. -/
theorem PointersOk.writeStep_settles {s : ConfigReader K} (h : s.PointersOk)
    (hmodel : s.currentModel.isSome) (hsome : s.currentStep.isSome)
    {f : ModelStep K → Except String (ModelStep K)}
    (hf : ∀ step step', f step = .ok step' → step'.taps = step.taps) :
    Settles Alive (fun t => t.PointersOk ∧ t.currentModel.isSome) (s.writeStep f) := by
  obtain ⟨id, m, hs⟩ := h.inModel hmodel
  obtain ⟨i, step, hcurrent, hstep⟩ := h.step hs hsome
  refine (hs.writeStep_settles hcurrent hstep f).mono ?_
  rintro _ ⟨step', hstep', rfl⟩
  refine ⟨h.grow hs (hs.setModel _) (ModelGrows.setStep hstep ?_) fun r hr => .inl hr, hmodel⟩
  rw [hf step step' hstep']

/-- A write through the tap pointer keeps every pointer alive. -/
theorem PointersOk.writeTap_settles {s : ConfigReader K} (h : s.PointersOk)
    (hmodel : s.currentModel.isSome) (hsome : s.currentTap.isSome)
    (f : TapSpec K → Except String (TapSpec K)) : Settles Alive PointersOk (s.writeTap f) := by
  obtain ⟨id, m, hs⟩ := h.inModel hmodel
  obtain ⟨⟨owner, i, k⟩, htap⟩ := Option.isSome_iff_exists.mp hsome
  obtain ⟨howner, step, hstep, hk⟩ := hs.pointersOk_iff.mp h (.tap owner i k)
    (by simp [pointers, tapRef, htap])
  obtain rfl : owner = id := howner
  unfold writeTap
  rw [htap]
  refine h.writeIn_settles hs (by rw [hstep, Option.bind_some, List.getElem?_eq_getElem hk]; rfl)
    fun m' hm' => ?_
  obtain ⟨tap, -, hm'⟩ := bind_eq_ok hm'
  cases hm'
  exact ModelGrows.setStep hstep (by rw [List.length_set])

/-- A write through the coefficient pointer keeps every pointer alive. -/
theorem PointersOk.writeCoefficient_settles {s : ConfigReader K} (h : s.PointersOk)
    (hmodel : s.currentModel.isSome) (hsome : s.currentCoefficient.isSome)
    (f : MimoCoefficient K → Except String (MimoCoefficient K)) :
    Settles Alive PointersOk (s.writeCoefficient f) := by
  obtain ⟨id, m, hs⟩ := h.inModel hmodel
  obtain ⟨⟨owner, i⟩, hcurrent⟩ := Option.isSome_iff_exists.mp hsome
  obtain ⟨howner, hi⟩ := hs.pointersOk_iff.mp h (.coefficient owner i)
    (by simp [pointers, coefficientRef, hcurrent])
  obtain rfl : owner = id := howner
  unfold writeCoefficient
  rw [hcurrent]
  refine h.writeIn_settles hs (by rw [List.getElem?_eq_getElem hi]; rfl) fun m' hm' => ?_
  obtain ⟨c, -, hm'⟩ := bind_eq_ok hm'
  cases hm'
  exact ModelGrows.of_chain rfl (by rw [List.length_set]) (fun _ => le_rfl) le_rfl

/-- A write through the entry pointer keeps every pointer alive. -/
theorem PointersOk.writeEntry_settles {s : ConfigReader K} (h : s.PointersOk)
    (hmodel : s.currentModel.isSome) (hsome : s.currentEntry.isSome)
    (f : CorrelationEntry K → Except String (CorrelationEntry K)) :
    Settles Alive PointersOk (s.writeEntry f) := by
  obtain ⟨id, m, hs⟩ := h.inModel hmodel
  obtain ⟨⟨owner, side, i⟩, hcurrent⟩ := Option.isSome_iff_exists.mp hsome
  obtain ⟨howner, hi⟩ := hs.pointersOk_iff.mp h (.entry owner side i)
    (by simp [pointers, entryRef, hcurrent])
  obtain rfl : owner = id := howner
  unfold writeEntry
  rw [hcurrent]
  refine h.writeIn_settles hs (by rw [List.getElem?_eq_getElem hi]; rfl) fun m' hm' => ?_
  obtain ⟨entry, -, hm'⟩ := bind_eq_ok hm'
  cases hm'
  refine ModelGrows.of_chain rfl le_rfl ?_ le_rfl
  exact SpatialCorrelationConfig.length_entries_setEntries _ (by rw [List.length_set])

/-- A write through the LOS coefficient pointer keeps every pointer alive. -/
theorem PointersOk.writeLosCoefficient_settles {s : ConfigReader K} (h : s.PointersOk)
    (hmodel : s.currentModel.isSome) (hsome : s.currentLosCoefficient.isSome)
    (f : LosCoefficient K → Except String (LosCoefficient K)) :
    Settles Alive PointersOk (s.writeLosCoefficient f) := by
  obtain ⟨id, m, hs⟩ := h.inModel hmodel
  obtain ⟨⟨owner, i⟩, hcurrent⟩ := Option.isSome_iff_exists.mp hsome
  obtain ⟨howner, hi⟩ := hs.pointersOk_iff.mp h (.losCoefficient owner i)
    (by simp [pointers, losCoefficientRef, hcurrent])
  obtain rfl : owner = id := howner
  unfold writeLosCoefficient
  rw [hcurrent]
  refine h.writeIn_settles hs (by rw [List.getElem?_eq_getElem hi]; rfl) fun m' hm' => ?_
  obtain ⟨c, -, hm'⟩ := bind_eq_ok hm'
  cases hm'
  exact ModelGrows.of_chain rfl le_rfl (fun _ => le_rfl) (by rw [List.length_set])

/-! ## The sections -/

/-- What the other sections change. -/
theorem PointersOk.elsewhere {s : ConfigReader K} (h : s.PointersOk) {config : TopologyConfig K}
    (hmodels : config.models = s.config.models) (n : ℕ) (device node indent link : Option ℕ)
    (ports : PortList) : PointersOk { s with
      config := config, lineNumber := n, currentDevice := device, currentNode := node
      radioNodeIndent := indent, currentLink := link, currentPortList := ports } := by
  refine ⟨fun hmodel r hr => ?_, fun hnone => ?_⟩
  · obtain ⟨hcurrent, m, hm, hin⟩ := h.refers hmodel r hr
    exact ⟨hcurrent, m, by rw [← hm, ← hmodels], hin⟩
  · have hclosed := h.closed hnone
    exact ⟨hclosed.step, hclosed.tap, hclosed.mimo, hclosed.coefficients, hclosed.coefficient⟩

/-- A section header clears the pointers. -/
theorem openSection_settles (s : ConfigReader K) (line : SourceLine) :
    Settles Alive PointersOk (s.openSection line) := by
  have hclosed : ∀ t : ConfigReader K, t.currentModel = none → t.Closed → t.PointersOk :=
    fun t hnone ht => ⟨fun hsome => absurd hnone (Option.isSome_iff_ne_none.mp hsome), fun _ => ht⟩
  unfold openSection
  iterate 5 refine iteInduction (fun _ => hclosed _ rfl ⟨rfl, rfl, rfl, rfl, rfl⟩) fun _ => ?_
  exact settles_throw _

variable [Zero K] [One K] [NatCast K] [TextNumbers K]

omit [Zero K] [One K] [NatCast K] in
/-- The lines of `runtime` touch no pointer. -/
theorem PointersOk.runtimeLine {s : ConfigReader K} (h : s.PointersOk) (line : SourceLine) :
    Settles Alive PointersOk (s.runtimeLine line) :=
  (settles_thrown _).bind fun _ _ => h.elsewhere (by rfl) _ _ _ _ _ _

omit [One K] [NatCast K] in
/-- The lines of `devices` touch no pointer. -/
theorem PointersOk.devicesLine {s : ConfigReader K} (h : s.PointersOk) (line : SourceLine) :
    Settles Alive PointersOk (s.devicesLine line) := by
  unfold ConfigReader.devicesLine
  refine iteInduction (fun _ => ?_) fun _ => ?_
  · exact (settles_thrown _).bind fun _ _ => h.elsewhere (by rfl) _ _ _ _ _ _
  · cases s.currentDevice with
    | none => exact settles_throw _
    | some i => exact (settles_thrown _).bind fun _ _ => h.elsewhere (by rfl) _ _ _ _ _ _

omit [One K] [NatCast K] in
/-- The lines of `links` touch no pointer. -/
theorem PointersOk.linksLine {s : ConfigReader K} (h : s.PointersOk) (line : SourceLine) :
    Settles Alive PointersOk (s.linksLine line) := by
  unfold ConfigReader.linksLine
  refine iteInduction (fun _ => ?_) fun _ => ?_
  · exact (settles_thrown _).bind fun _ _ => h.elsewhere (by rfl) _ _ _ _ _ _
  · cases s.currentLink with
    | none => exact settles_throw _
    | some i => exact (settles_thrown _).bind fun _ _ => h.elsewhere (by rfl) _ _ _ _ _ _

omit [Zero K] [One K] [NatCast K] [TextNumbers K] in
/-- The port lists of a node touch no pointer. -/
theorem PointersOk.portItem {s : ConfigReader K} (h : s.PointersOk) (line : SourceLine) :
    Settles Alive PointersOk (s.portItem line) := by
  unfold ConfigReader.portItem
  cases s.currentNode with
  | none => exact settles_throw _
  | some i =>
      refine iteInduction (fun _ => settles_throw _) fun _ => ?_
      refine iteInduction (fun _ => settles_throw _) fun _ => ?_
      exact h.elsewhere (by rfl) _ _ _ _ _ _

omit [Zero K] [One K] [NatCast K] [TextNumbers K] in
/-- The lines of `radio_nodes` touch no pointer. -/
theorem PointersOk.radioNodesLine {s : ConfigReader K} (h : s.PointersOk) (line : SourceLine) :
    Settles Alive PointersOk (s.radioNodesLine line) := by
  unfold ConfigReader.radioNodesLine
  refine iteInduction (fun _ => ?_) fun _ => iteInduction (fun _ => h.portItem line) fun _ => ?_
  · exact (settles_thrown _).bind fun _ _ => h.elsewhere (by rfl) _ _ _ _ _ _
  · cases s.currentNode with
    | none => exact settles_throw _
    | some i =>
        refine iteInduction (fun _ => ?_) fun _ => ?_
        · exact iteInduction (fun _ => settles_throw _) fun _ => h.elsewhere (by rfl) _ _ _ _ _ _
        · exact (settles_thrown _).bind fun _ _ => h.elsewhere (by rfl) _ _ _ _ _ _

/-! ## The models section -/

omit [Zero K] [One K] [NatCast K] in
/-- A key of a step other than its list of taps keeps the taps. -/
theorem applyStep_taps {step step' : ModelStep K} {key : String} {value : List Char}
    (h : applyStep step key value = .ok step') : step'.taps = step.taps := by
  unfold applyStep at h
  split_ifs at h
  · obtain ⟨t, -, h⟩ := bind_eq_ok h
    cases h
    rfl
  · obtain ⟨x, -, h⟩ := bind_eq_ok h
    cases h
    rfl

omit [Zero K] [One K] [NatCast K] in
/-- A fading key keeps the taps. -/
theorem applyFadingKey_taps {step step' : ModelStep K} {key : String} {value : List Char}
    (h : applyFadingKey step key value = .ok step') : step'.taps = step.taps := by
  unfold applyFadingKey at h
  split_ifs at h
  · obtain ⟨x, -, h⟩ := bind_eq_ok h
    cases h
    rfl
  · obtain ⟨spectrum, -, h⟩ := bind_eq_ok h
    cases h
    rfl
  · obtain ⟨x, -, h⟩ := bind_eq_ok h
    cases h
    rfl

omit [Zero K] [One K] [NatCast K] [TextNumbers K] in
/-- A model that is opened again is found again. -/
theorem lookup_emplace (models : List (String × ModelConfig K)) (id : String)
    (model : ModelConfig K) : ∃ m, (emplaceModel models id model).lookup id = some m := by
  cases h : models.lookup id with
  | none => exact ⟨model, lookup_emplace_self h⟩
  | some m => exact ⟨m, lookup_emplace_of_some h⟩

omit [Zero K] [One K] [NatCast K] [TextNumbers K] in
/-- Closing a list leaves fewer pointers. -/
theorem closeList_pointers {s : ConfigReader K} {r : ElementRef}
    (h : some r ∈ s.closeList.pointers) : some r ∈ s.pointers := by
  have hnulls : s.closeList.pointers =
      (((s.pointers.set 1 none).set 3 none).set 4 none).set 5 none := rfl
  rw [hnulls] at h
  exact mem_of_mem_set_none (mem_of_mem_set_none (mem_of_mem_set_none (mem_of_mem_set_none h)))

omit [Zero K] [One K] [NatCast K] [TextNumbers K] in
/-- The header of a block closes the others and marks it as declared. -/
theorem PointersOk.openBlock {s : ConfigReader K} (h : s.PointersOk) {id : String}
    {m : ModelConfig K} (hs : s.InModel id m) (m' : ModelConfig K) (hgrows : ModelGrows m m')
    (mimo spatial los : Bool) :
    PointersOk { (s.setModel id m').closeList with
      inFixedMimo := mimo, inSpatial := spatial, inLos := los } := by
  have hm' := hs.setModel m'
  exact h.grow hs ⟨hm'.current, hm'.lookup⟩ hgrows fun r hr => .inl (closeList_pointers hr)

omit [Zero K] [One K] [NatCast K] [TextNumbers K] in
/-- Without its model, a block does not take a line. -/
theorem Refers.isSome {s : ConfigReader K} {p : Option ElementRef}
    (h : ∃ r, p = some r ∧ s.Refers r) : s.currentModel.isSome := by
  obtain ⟨r, -, hopen, -⟩ := h
  rw [hopen]
  rfl

/-- **A branch that is reached with a live pointer follows no dead one.** -/
theorem PointersOk.takeBranch {s : ConfigReader K} (h : s.PointersOk) (line : SourceLine)
    {b : ModelsBranch} (hguard : s.Guard b)
    (hlive : ∀ p ∈ s.writesThrough b, ∃ r, p = some r ∧ s.Refers r) :
    Settles Alive PointersOk (s.takeBranch line b) := by
  cases b with
  | model =>
      obtain ⟨m, hm⟩ := lookup_emplace s.config.models (String.ofList line.text.dropLast)
        { id := String.ofList line.text.dropLast, chain := [] }
      refine (InModel.pointersOk_iff (m := m) ⟨rfl, hm⟩).mpr fun r hr => ?_
      -- of the six pointers only the one to the model is left
      obtain rfl : r = .model (String.ofList line.text.dropLast) := by
        simpa [pointers, modelRef, stepRef, tapRef, coefficientRef, entryRef, losCoefficientRef,
          closeBlocks, closeList, closeMimo, closeStep, closeSpatial, closeLos] using hr
      exact ⟨rfl, trivial⟩
  | chain =>
      refine h.forget rfl rfl (fun r hr => closeList_pointers (mem_of_mem_set_none (k := 2) hr))
        fun _ => ⟨rfl, rfl, rfl, rfl, rfl⟩
  | fixedMimo =>
      obtain ⟨id, m, hs⟩ := h.inModel hguard
      simp only [ConfigReader.takeBranch, hs.openModel_eq, pure_bind]
      exact h.openBlock hs { m with fixedMimoDeclared := true }
        (ModelGrows.of_chain rfl le_rfl (fun _ => le_rfl) le_rfl) _ _ _
  | coefficients =>
      refine h.forget rfl rfl (fun r hr => mem_of_mem_set_none (k := 3) hr) fun hclosed => ?_
      exact absurd hguard (by simp [Guard, hclosed.mimo])
  | coefficient =>
      have hmodel := Refers.isSome (hlive _ List.mem_cons_self)
      obtain ⟨id, m, hs⟩ := h.inModel hmodel
      simp only [ConfigReader.takeBranch, hs.openModel_eq, pure_bind]
      refine PointersOk.writeCoefficient_settles ?_ (by exact hmodel) (by rfl) _
      have ht := hs.setModel { m with fixedMimo := m.fixedMimo ++ [newCoefficient] }
      exact h.point hs ⟨ht.current, ht.lookup⟩
        (ModelGrows.of_chain rfl (by simp) (fun _ => le_rfl) le_rfl)
        (.coefficient id m.fixedMimo.length) rfl (by simp [ElementRef.In]) 3 rfl
  | coefficientKey =>
      exact h.writeCoefficient_settles (Refers.isSome (hlive _ List.mem_cons_self)) hguard _
  | spatialCorrelation =>
      obtain ⟨id, m, hs⟩ := h.inModel hguard
      simp only [ConfigReader.takeBranch, hs.openModel_eq, pure_bind]
      let declared := { m.spatialCorrelation with declared := true }
      -- declaring the block changes no list of entries
      refine h.openBlock hs { m with spatialCorrelation := declared }
        (ModelGrows.of_chain rfl le_rfl (fun side => ?_) le_rfl) _ _ _
      cases side <;> exact le_rfl
  | rx =>
      exact h.forget rfl rfl (fun r hr => mem_of_mem_set_none (k := 4) hr)
        fun hc => ⟨hc.step, hc.tap, hc.mimo, hc.coefficients, hc.coefficient⟩
  | tx =>
      exact h.forget rfl rfl (fun r hr => mem_of_mem_set_none (k := 4) hr)
        fun hc => ⟨hc.step, hc.tap, hc.mimo, hc.coefficients, hc.coefficient⟩
  | kind =>
      obtain ⟨id, m, hs⟩ := h.inModel (Refers.isSome (hlive _ List.mem_cons_self))
      simp only [ConfigReader.takeBranch, hs.openModel_eq, pure_bind]
      split_ifs
      · exact settles_throw _
      · refine (settles_thrown _).bind fun kind _ => ?_
        have ht := hs.setModel { m with
          spatialCorrelation := { m.spatialCorrelation with kind := kind } }
        refine h.grow hs ⟨ht.current, ht.lookup⟩ (ModelGrows.of_chain rfl le_rfl (fun side => ?_) le_rfl)
          fun r hr => .inl (mem_of_mem_set_none (k := 4) hr)
        cases side <;> exact le_rfl
  | entry =>
      have hmodel := Refers.isSome (hlive _ List.mem_cons_self)
      obtain ⟨id, m, hs⟩ := h.inModel hmodel
      simp only [ConfigReader.takeBranch, hs.openModel_eq, pure_bind]
      refine PointersOk.writeEntry_settles ?_ (by exact hmodel) (by rfl) _
      -- the entry goes to the open side, which may be either
      generalize s.correlationSide.getD .tx = side
      let correlation :=
        m.spatialCorrelation.setEntries side (m.spatialCorrelation.entries side ++ [newEntry])
      have ht := hs.setModel { m with spatialCorrelation := correlation }
      refine h.point hs ⟨ht.current, ht.lookup⟩ (ModelGrows.of_chain rfl le_rfl ?_ le_rfl)
        (.entry id side (m.spatialCorrelation.entries side).length) rfl ?_ 4 rfl
      · exact SpatialCorrelationConfig.length_entries_setEntries _ (by simp)
      · show _ < (correlation.entries side).length
        rw [SpatialCorrelationConfig.entries_setEntries_self, List.length_append]
        exact Nat.lt_succ_self _
  | entryKey => exact h.writeEntry_settles (Refers.isSome (hlive _ List.mem_cons_self)) hguard _
  | losMatrix =>
      obtain ⟨id, m, hs⟩ := h.inModel hguard
      simp only [ConfigReader.takeBranch, hs.openModel_eq, pure_bind]
      exact h.openBlock hs { m with losMatrix := { m.losMatrix with declared := true } }
        (ModelGrows.of_chain rfl le_rfl (fun _ => le_rfl) le_rfl) _ _ _
  | losCoefficients =>
      exact h.forget rfl rfl (fun r hr => mem_of_mem_set_none (k := 5) hr)
        fun hc => ⟨hc.step, hc.tap, hc.mimo, hc.coefficients, hc.coefficient⟩
  | losCoefficient =>
      have hmodel := Refers.isSome (hlive _ List.mem_cons_self)
      obtain ⟨id, m, hs⟩ := h.inModel hmodel
      simp only [ConfigReader.takeBranch, hs.openModel_eq, pure_bind]
      refine PointersOk.writeLosCoefficient_settles ?_ (by exact hmodel) (by rfl) _
      have ht := hs.setModel { m with losMatrix := { m.losMatrix with
        coefficients := m.losMatrix.coefficients ++ [newLosCoefficient] } }
      exact h.point hs ⟨ht.current, ht.lookup⟩
        (ModelGrows.of_chain rfl le_rfl (fun _ => le_rfl) (by simp))
        (.losCoefficient id m.losMatrix.coefficients.length) rfl (by simp [ElementRef.In]) 5 rfl
  | losCoefficientKey =>
      exact h.writeLosCoefficient_settles (Refers.isSome (hlive _ List.mem_cons_self)) hguard _
  | step =>
      have hmodel := Refers.isSome (hlive _ List.mem_cons_self)
      obtain ⟨id, m, hs⟩ := h.inModel hmodel
      simp only [ConfigReader.takeBranch, hs.openModel_eq, pure_bind]
      have ht := hs.setModel { m with chain := m.chain ++ [newStep] }
      have hnew : PointersOk _ := h.grow (t := { s.setModel id
          { m with chain := m.chain ++ [newStep] } with
          currentStep := some (id, m.chain.length), inTaps := false, currentTap := none
          inFading := false }) hs ⟨ht.current, ht.lookup⟩ (ModelGrows.addStep newStep) fun r hr => by
        -- the pointers are the old ones, and the one to the new step
        rcases List.mem_or_eq_of_mem_set (i := 1) (l := s.pointers.set 2 none) hr with hold | hnew
        · exact .inl (mem_of_mem_set_none hold)
        · cases hnew
          exact .inr ⟨rfl, by simp [ElementRef.In]⟩
      exact (hnew.writeStep_settles hmodel rfl fun _ _ => applyStep_taps).mono fun _ ht => ht.1
  | taps =>
      refine (h.writeStep_settles (Refers.isSome (hlive _ List.mem_cons_self)) hguard ?_).bind ?_
      · rintro step _ ⟨⟩
        rfl
      · rintro t ⟨ht, -⟩
        exact ht.forget rfl rfl (fun r hr => mem_of_mem_set_none (k := 2) hr)
          fun hc => ⟨hc.step, rfl, hc.mimo, hc.coefficients, hc.coefficient⟩
  | fading =>
      refine (h.writeStep_settles (Refers.isSome (hlive _ List.mem_cons_self)) hguard ?_).bind ?_
      · rintro step _ ⟨⟩
        rfl
      · rintro t ⟨ht, -⟩
        exact ht.forget rfl rfl (fun r hr => mem_of_mem_set_none (k := 2) hr)
          fun hc => ⟨hc.step, rfl, hc.mimo, hc.coefficients, hc.coefficient⟩
  | tap =>
      have hmodel := Refers.isSome (hlive _ List.mem_cons_self)
      obtain ⟨id, m, hs⟩ := h.inModel hmodel
      obtain ⟨i, step, hcurrent, hstep⟩ := h.step hs hguard
      -- the step is written first, then the tap behind it
      refine (hs.writeStep_settles hcurrent hstep _).bind ?_
      rintro _ ⟨step', hstep', rfl⟩
      cases hstep'
      have hcount : s.tapCount id i = step.taps.length := by
        simp [tapCount, hs.lookup, hstep]
      simp only [hcurrent, Option.map_some, hcount]
      refine PointersOk.writeTap_settles ?_ (by exact hmodel) (by rfl) _
      obtain ⟨hlt, -⟩ := List.getElem?_eq_some_iff.mp hstep
      have ht := hs.setModel { m with
        chain := m.chain.set i { step with taps := step.taps ++ [newTap] } }
      exact h.point hs ⟨ht.current, ht.lookup⟩ (ModelGrows.setStep hstep (by simp))
        (.tap id i step.taps.length) rfl ⟨_, List.getElem?_set_self hlt, by simp⟩ 2 rfl
  | tapKey => exact h.writeTap_settles (Refers.isSome (hlive _ List.mem_cons_self)) hguard _
  | fadingKey =>
      exact (h.writeStep_settles (Refers.isSome (hlive _ List.mem_cons_self)) hguard
        fun _ _ => applyFadingKey_taps).mono fun _ ht => ht.1
  | stepKey =>
      exact (h.writeStep_settles (Refers.isSome (hlive _ List.mem_cons_self)) hguard
        fun _ _ => applyStep_taps).mono fun _ ht => ht.1
  | malformed => exact settles_throw _

/-! ## The line loop -/

/-- **A line keeps the invariant, and follows no dead pointer unless it is stale.** -/
theorem PointersOk.takeLine {s : ConfigReader K} (h : s.PointersOk) {line : SourceLine}
    (hstale : ¬ s.Stale line) : Settles Alive PointersOk (s.takeLine line) := by
  unfold ConfigReader.takeLine
  by_cases hindent : line.indent = 0
  · rw [if_pos hindent]
    exact s.openSection_settles line
  · rw [if_neg hindent]
    cases hsection : s.currentSection with
    | none => exact h
    | runtime => exact h.runtimeLine line
    | devices => exact h.devicesLine line
    | radioNodes => exact h.radioNodesLine line
    | links => exact h.linksLine line
    | models =>
        have hlive := (h.live_iff line).mpr hstale hindent hsection
        exact h.takeBranch line (s.modelsBranch_guard line) hlive

/-- A raw line keeps the invariant, unless it is stale. -/
theorem PointersOk.readNext {s : ConfigReader K} (h : s.PointersOk) {raw : List Char}
    (hstale : ∀ line, readLine (s.lineNumber + 1) raw = .ok (some line) → ¬ s.Stale line) :
    Settles Alive PointersOk (s.readNext raw) := by
  have hnext := h.elsewhere rfl (s.lineNumber + 1) s.currentDevice s.currentNode s.radioNodeIndent
    s.currentLink s.currentPortList
  refine (settles_thrown _).bind fun read hread => ?_
  cases read with
  | none => exact hnext
  | some line => exact hnext.takeLine (hstale line hread)

/-- A line that is reached is reached with more lines behind it. -/
theorem Reaches.append {lines : List (List Char)} {s : ConfigReader K} {line : SourceLine}
    (h : Reaches lines s line) (rest : List (List Char)) : Reaches (lines ++ rest) s line := by
  obtain ⟨pre, raw, post, rfl, hs, hline⟩ := h
  exact ⟨pre, raw, post ++ rest, by rw [List.append_assoc, List.cons_append], hs, hline⟩

/-- A file without a stale line is read without a dead pointer. -/
theorem readLines_settles {lines : List (List Char)}
    (hstale : ∀ (s : ConfigReader K) line, Reaches lines s line → s.PointersOk → ¬ s.Stale line) :
    Settles Alive PointersOk (readLines (K := K) lines) := by
  refine Settles.foldlM pointersOk_start fun pre raw post s hlines hs hok => ?_
  exact hok.readNext fun line hline => hstale s line ⟨pre, raw, post, hlines, hs, hline⟩ hok

/-- The invariant holds at every line that the loop reaches without a stale one before it. -/
theorem Reaches.pointersOk {lines : List (List Char)} {s : ConfigReader K} {line : SourceLine}
    (h : Reaches lines s line)
    (hstale : ∀ (s : ConfigReader K) line, Reaches lines s line → s.PointersOk → ¬ s.Stale line) :
    s.PointersOk := by
  obtain ⟨pre, raw, post, rfl, hs, -⟩ := h
  have hpre : Settles Alive PointersOk (readLines (K := K) pre) :=
    readLines_settles fun s line hreach => hstale s line (hreach.append (raw :: post))
  rw [hs] at hpre
  exact hpre

/-- **The reader follows no dead pointer exactly when no line is stale.** -/
theorem readLines_live_iff (lines : List (List Char)) :
    (readLines (K := K) lines ≠ .error .deadPointer ∧
      ∀ (s : ConfigReader K) line, Reaches lines s line → s.Live line) ↔
    ∀ (s : ConfigReader K) line, Reaches lines s line → ¬ s.Stale line := by
  constructor
  · rintro ⟨-, hlive⟩ s line hreach
    have hstale : ∀ (s : ConfigReader K) line, Reaches lines s line → s.PointersOk →
        ¬ s.Stale line := fun s line hreach hok => (hok.live_iff line).mp (hlive s line hreach)
    exact hstale s line hreach (hreach.pointersOk hstale)
  · intro hstale
    have hstale' : ∀ (s : ConfigReader K) line, Reaches lines s line → s.PointersOk →
        ¬ s.Stale line := fun s line hreach _ => hstale s line hreach
    refine ⟨fun hdead => ?_, fun s line hreach => ?_⟩
    · have hsettles := readLines_settles hstale'
      rw [hdead] at hsettles
      exact hsettles rfl
    · exact ((hreach.pointersOk hstale').live_iff line).mpr (hstale s line hreach)

/-- The reader stopped at a dead pointer. -/
def stopsDead {α : Type} : Except ReadFailure α → Bool
  | .error .deadPointer => true
  | _ => false

/-- The test for a dead pointer finds nothing else. -/
theorem eq_of_stopsDead {α : Type} {x : Except ReadFailure α} (h : stopsDead x = true) :
    x = .error .deadPointer := by
  rcases x with (what | _) | a
  · cases h
  · rfl
  · cases h

/-- A correlation that the first section leaves open takes the first line of the second. -/
theorem spatial_block_left_open :
    let _ : TextNumbers ℚ := ⟨fun _ => none, fun _ => none⟩
    let lines := ["models:", "  m:", "    spatial_correlation:", "models:", "      kind: iid"]
    readLines (K := ℚ) (lines.map String.toList) = .error .deadPointer :=
  eq_of_stopsDead (by decide +kernel)

end ConfigReader
