/-
# What a call depends on

`process_superposition` reads and writes the lane states of its inputs, the receiver states of its
rows and the physical links of both, and nothing else.  A call is compared with the same call on
another processor that agrees on its keys: both outcomes are the same (`Together`), and calls whose
keys are apart commute.
-/
import GpuChannel.CpuInvariant

section CallFrame

variable {K : Type} [Field K] [LinearOrder K] [FloorRing K] [Libm K] [Rng K]

/-! ## Two processors that agree on some keys -/

/-- `q` is `p` beside the states `S` and the links `L`. -/
structure Beside (S L : Set String) (p q : CpuChannelProcessor K) : Prop where
  states : ∀ key, key ∉ S → q.states key = p.states key
  links : ∀ k, k ∉ L → q.links k = p.links k
  rows : q.rxModelKeys = p.rxModelKeys

/-- The states `S` exist, and so do their links, which are in `L`. -/
structure Owned (S L : Set String) (p : CpuChannelProcessor K) : Prop where
  states : ∀ key ∈ S, ∃ st, p.states key = some st ∧ st.link ∈ L
  links : ∀ k ∈ L, ∃ link, p.links k = some link

/-- **Two processors that agree on `S` and `L`**, which they own, and are what they were beside. -/
structure Together (S L : Set String) (a₀ c₀ a c : CpuChannelProcessor K) : Prop where
  states : ∀ key ∈ S, a.states key = c.states key
  links : ∀ k ∈ L, a.links k = c.links k
  owned : Owned S L a
  left : Beside S L a₀ a
  right : Beside S L c₀ c

omit [Field K] [LinearOrder K] [FloorRing K] [Libm K] [Rng K] in
/-- Nothing is beside itself changed. -/
theorem Beside.refl (S L : Set String) (p : CpuChannelProcessor K) : Beside S L p p :=
  ⟨fun _ _ => rfl, fun _ _ => rfl, rfl⟩

omit [Field K] [LinearOrder K] [FloorRing K] [Libm K] [Rng K] in
/-- Who owns its keys owns them in every processor that agrees there. -/
theorem Owned.congr {S L : Set String} {p q : CpuChannelProcessor K} (h : Owned S L p)
    (hstates : ∀ key ∈ S, q.states key = p.states key) (hlinks : ∀ k ∈ L, q.links k = p.links k) :
    Owned S L q where
  states key hkey := by
    rw [hstates key hkey]
    exact h.states key hkey
  links k hk := by
    rw [hlinks k hk]
    exact h.links k hk

section Operations

variable {S L : Set String} {a₀ c₀ a c : CpuChannelProcessor K}

namespace Together

omit [Field K] [LinearOrder K] [FloorRing K] [Libm K] [Rng K] in
/-- A lane state that is set in both keeps them together. -/
theorem setState (h : Together S L a₀ c₀ a c) {key : String} (hkey : key ∈ S) {st : LinkState K}
    (hst : st.link ∈ L) :
    Together S L a₀ c₀ { a with states := Function.update a.states key (some st) }
      { c with states := Function.update c.states key (some st) } := by
  have hbeside : ∀ {p₀ p : CpuChannelProcessor K}, Beside S L p₀ p →
      Beside S L p₀ { p with states := Function.update p.states key (some st) } := by
    intro p₀ p hp
    refine ⟨?_, hp.links, hp.rows⟩
    intro key' hkey'
    have hne : key' ≠ key := by
      rintro rfl
      exact hkey' hkey
    dsimp only
    rw [Function.update_of_ne hne]
    exact hp.states key' hkey'
  refine ⟨?_, h.links, ⟨?_, h.owned.links⟩, hbeside h.left, hbeside h.right⟩
  · intro key' hkey'
    dsimp only
    by_cases heq : key' = key
    · subst heq
      rw [Function.update_self, Function.update_self]
    · rw [Function.update_of_ne heq, Function.update_of_ne heq]
      exact h.states key' hkey'
  · intro key' hkey'
    dsimp only
    by_cases heq : key' = key
    · subst heq
      exact ⟨st, Function.update_self .., hst⟩
    · rw [Function.update_of_ne heq]
      exact h.owned.states key' hkey'

omit [Field K] [LinearOrder K] [FloorRing K] [Libm K] [Rng K] in
/-- A link that is set in both keeps them together. -/
theorem setLink (h : Together S L a₀ c₀ a c) {k : String} (hk : k ∈ L)
    (link : PhysicalLinkRuntime K) :
    Together S L a₀ c₀ { a with links := Function.update a.links k (some link) }
      { c with links := Function.update c.links k (some link) } := by
  have hbeside : ∀ {p₀ p : CpuChannelProcessor K}, Beside S L p₀ p →
      Beside S L p₀ { p with links := Function.update p.links k (some link) } := by
    intro p₀ p hp
    refine ⟨hp.states, ?_, hp.rows⟩
    intro k' hk'
    have hne : k' ≠ k := by
      rintro rfl
      exact hk' hk
    dsimp only
    rw [Function.update_of_ne hne]
    exact hp.links k' hk'
  refine ⟨h.states, ?_, ⟨h.owned.states, ?_⟩, hbeside h.left, hbeside h.right⟩
  · intro k' hk'
    dsimp only
    by_cases heq : k' = k
    · subst heq
      rw [Function.update_self, Function.update_self]
    · rw [Function.update_of_ne heq, Function.update_of_ne heq]
      exact h.links k' hk'
  · intro k' hk'
    dsimp only
    by_cases heq : k' = k
    · subst heq
      exact ⟨link, Function.update_self ..⟩
    · rw [Function.update_of_ne heq]
      exact h.owned.links k' hk'

omit [Field K] [LinearOrder K] [FloorRing K] [Libm K] [Rng K] in
/-- What the chains ran with is recorded, and never read. -/
theorem record (h : Together S L a₀ c₀ a c) (x y : List (Execution K)) :
    Together S L a₀ c₀ { a with executed := x } { c with executed := y } :=
  ⟨h.states, h.links, ⟨h.owned.states, h.owned.links⟩, ⟨h.left.states, h.left.links, h.left.rows⟩,
    ⟨h.right.states, h.right.links, h.right.rows⟩⟩

omit [Field K] [LinearOrder K] [FloorRing K] [Libm K] [Rng K] in
/-- A link that is changed in both keeps them together. -/
theorem modifyLink (h : Together S L a₀ c₀ a c) {k : String} (hk : k ∈ L)
    (f : PhysicalLinkRuntime K → PhysicalLinkRuntime K) :
    Together S L a₀ c₀ (a.modifyLink k f) (c.modifyLink k f) := by
  obtain ⟨link, hlink⟩ := h.owned.links k hk
  unfold CpuChannelProcessor.modifyLink
  rw [← h.links k hk, hlink]
  exact h.setLink hk (f link)

/-! ## One operation -/

/-- A lane that is entered in both keeps them together. -/
theorem ensureLinkState (h : Together S L a₀ c₀ a c) {key : String} (hkey : key ∈ S)
    (model : ModelConfig K) (count : ℕ) (identity : LaneIdentity) :
    Together S L a₀ c₀ (a.ensureLinkState key model count identity)
      (c.ensureLinkState key model count identity) := by
  obtain ⟨st, hst, hlink⟩ := h.owned.states key hkey
  have hst' : c.states key = some st := (h.states key hkey) ▸ hst
  unfold CpuChannelProcessor.ensureLinkState CpuChannelProcessor.bindState
  rw [hst, hst']
  dsimp only
  rw [hst, hst']
  dsimp only
  split_ifs
  · exact h
  · exact (h.modifyLink hlink _).setState hkey hlink

omit [Rng K] in
/-- The refresh of a lane's grids keeps them together. -/
theorem refreshLaneGrids (h : Together S L a₀ c₀ a c) {st : LinkState K} (hst : st.link ∈ L)
    (model : ModelConfig K) (count rate : ℕ) :
    Matches (Together S L a₀ c₀) (a.refreshLaneGrids st model count rate)
      (c.refreshLaneGrids st model count rate) := by
  obtain ⟨link, hlink⟩ := h.owned.links _ hst
  unfold CpuChannelProcessor.refreshLaneGrids
  rw [← h.links _ hst, hlink]
  refine Matches.bind (R := Eq) (fun grids hgrids => ⟨grids, hgrids, rfl⟩) ?_
  rintro grids _ rfl
  exact Matches.pure (h.setLink hst _)

omit [Rng K] in
/-- The snap of a link keeps them together. -/
theorem snapLink (h : Together S L a₀ c₀ a c) {inputs : List (SuperpositionInput K)}
    (hinputs : ∀ input ∈ inputs, input.linkKey ∈ S) {k : String} (hk : k ∈ L) (count : ℕ) :
    Together S L a₀ c₀ (a.snapLink inputs k count) (c.snapLink inputs k count) := by
  obtain ⟨link, hlink⟩ := h.owned.links k hk
  unfold CpuChannelProcessor.snapLink
  rw [← h.links k hk, hlink]
  dsimp only
  have hset := h.setLink hk (({ link with fading := link.fading.beginSlot }).snap count).1
  generalize (({ link with fading := link.fading.beginSlot }).snap count) = snapped at hset ⊢
  split_ifs
  · -- the sweep over the siblings, one state after the other
    clear h
    generalize Function.update a.links k (some snapped.1) = linksA at hset ⊢
    generalize Function.update c.links k (some snapped.1) = linksC at hset ⊢
    generalize a.states = statesA at hset ⊢
    generalize c.states = statesC at hset ⊢
    induction inputs generalizing statesA statesC with
    | nil => exact hset
    | cons sibling inputs ih =>
        have hkey : sibling.linkKey ∈ S := hinputs sibling List.mem_cons_self
        obtain ⟨st, hst, hlinkL⟩ := hset.owned.states _ hkey
        have hst' := (hset.states _ hkey).symm.trans hst
        dsimp only at hst hst'
        rw [List.foldl_cons, List.foldl_cons, hst, hst']
        dsimp only
        split_ifs with hsame
        · refine ih (fun input hinput => hinputs input (List.mem_cons_of_mem _ hinput)) _ _ ?_
          refine hset.setState hkey ?_
          rw [show (CpuChannelProcessor.refreshLane snapped.1 snapped.2 st).link = st.link by
            unfold CpuChannelProcessor.refreshLane
            split_ifs <;> rfl]
          exact hlinkL
        · exact ih (fun input hinput => hinputs input (List.mem_cons_of_mem _ hinput)) _ _ hset
  · exact hset

omit [LinearOrder K] [FloorRing K] [Libm K] [Rng K] in
/-- Mixing a link's grids keeps them together. -/
theorem mixLink (h : Together S L a₀ c₀ a c) {k : String} (hk : k ∈ L) :
    Matches (Together S L a₀ c₀) (a.mixLink k) (c.mixLink k) := by
  obtain ⟨link, hlink⟩ := h.owned.links k hk
  unfold CpuChannelProcessor.mixLink
  rw [← h.links k hk, hlink]
  refine Matches.bind (R := Eq) (fun fading hfading => ⟨fading, hfading, rfl⟩) ?_
  rintro fading _ rfl
  exact Matches.pure (h.setLink hk _)

/-- The chain of a lane keeps them together, with the same samples. -/
theorem applyChainToLink (h : Together S L a₀ c₀ a c) {key : String} (hkey : key ∈ S)
    (model : ModelConfig K) (input : List (Iq K)) (rate : ℕ) :
    Matches (fun r r' => Together S L a₀ c₀ r.1 r'.1 ∧ r.2 = r'.2 ∧ ∀ k ∈ r.2.2, k ∈ L)
      (a.applyChainToLink key model input rate) (c.applyChainToLink key model input rate) := by
  unfold CpuChannelProcessor.applyChainToLink
  split_ifs
  · exact Matches.pure ⟨h, rfl, fun _ hk => absurd hk (by simp)⟩
  · have hens := h.ensureLinkState hkey model input.length { physicalLinkKey := key }
    dsimp only
    generalize a.ensureLinkState key model input.length { physicalLinkKey := key } = p at hens ⊢
    generalize c.ensureLinkState key model input.length { physicalLinkKey := key } = q at hens ⊢
    obtain ⟨st, hst, hlink⟩ := hens.owned.states key hkey
    rw [← hens.states key hkey, hst]
    dsimp only
    rw [← hens.links _ hlink]
    refine Matches.bind (R := Eq) (fun run hrun => ⟨run, hrun, rfl⟩) ?_
    rintro run _ rfl
    refine Matches.pure ⟨(hens.setState hkey ?_).record _ _, rfl, ?_⟩
    · exact hlink
    · intro k hk
      rw [← Option.mem_some_iff.mp hk]
      exact hlink

omit [Field K] [LinearOrder K] [FloorRing K] [Libm K] [Rng K] in
/-- Moving the clocks keeps them together. -/
theorem advanceClocks (h : Together S L a₀ c₀ a c) {touched : List String}
    (htouched : ∀ k ∈ touched, k ∈ L) (count : ℕ) :
    Together S L a₀ c₀ (a.advanceClocks touched count) (c.advanceClocks touched count) := by
  unfold CpuChannelProcessor.advanceClocks
  induction touched generalizing a c with
  | nil => exact h
  | cons k touched ih =>
      exact ih (h.modifyLink (htouched k List.mem_cons_self) _)
        fun k' hk' => htouched k' (List.mem_cons_of_mem k hk')

end Together

/-! ## The passes of a call -/

/-- Two outcomes of a pass with the same links touched so far. -/
def TogetherTouched (S L : Set String) (a₀ c₀ : CpuChannelProcessor K)
    (x y : CpuChannelProcessor K × List String) : Prop :=
  Together S L a₀ c₀ x.1 y.1 ∧ x.2 = y.2 ∧ ∀ k ∈ x.2, k ∈ L

/-- Two slots with the same rows, `nr` of them. -/
structure TogetherSlots (S L : Set String) (a₀ c₀ : CpuChannelProcessor K) (nr : ℕ)
    (x y : CpuChannelProcessor.Slot K) : Prop where
  proc : Together S L a₀ c₀ x.proc y.proc
  touched : x.touched = y.touched
  inside : ∀ k ∈ x.touched, k ∈ L
  rows : x.rows = y.rows
  length : x.rows.length = nr

open CpuChannelProcessor

/-- A link that is listed after a touch was listed or is the one touched. -/
theorem mem_touch {touched : List String} {link : Option String} {k : String}
    (h : k ∈ touch touched link) : k ∈ touched ∨ k ∈ link := by
  unfold touch at h
  cases link with
  | none => exact .inl h
  | some l =>
      dsimp only at h
      split_ifs at h
      · exact .inl h
      · exact (List.mem_append.mp h).imp id fun hk => by rw [List.mem_singleton.mp hk]; rfl

/-- The generating pass over one lane keeps them together. -/
theorem generateLane_together {x y : CpuChannelProcessor K × List String}
    (h : TogetherTouched S L a₀ c₀ x y) {inputs : List (SuperpositionInput K)}
    (hinputs : ∀ input ∈ inputs, input.linkKey ∈ S) {lane : SuperpositionInput K}
    (hlane : lane ∈ inputs) (count rate : ℕ) :
    Matches (TogetherTouched S L a₀ c₀) (generateLane inputs count rate x lane)
      (generateLane inputs count rate y lane) := by
  obtain ⟨p, touched⟩ := x
  obtain ⟨q, touched'⟩ := y
  obtain ⟨hpq, htouched, hinside⟩ := h
  dsimp only at hpq htouched hinside
  subst htouched
  have hkey : lane.linkKey ∈ S := hinputs lane hlane
  unfold generateLane
  cases lane.model with
  | none => exact Matches.throw
  | some model =>
      dsimp only
      -- both runs enter the same state
      have hens := hpq.ensureLinkState hkey model count { physicalLinkKey := lane.linkKey }
      generalize p.ensureLinkState lane.linkKey model count { physicalLinkKey := lane.linkKey }
        = p' at hens ⊢
      generalize q.ensureLinkState lane.linkKey model count { physicalLinkKey := lane.linkKey }
        = q' at hens ⊢
      obtain ⟨st, hst, hlink⟩ := hens.owned.states _ hkey
      rw [← hens.states _ hkey, hst]
      dsimp only
      -- the first lane of a link takes its snap, the others find it taken
      by_cases hfresh : st.link ∉ touched
      · rw [if_pos hfresh, if_pos hfresh, if_pos hfresh]
        have hsnap := hens.snapLink hinputs hlink count
        obtain ⟨st', hst', hlink'⟩ := hsnap.owned.states _ hkey
        rw [← hsnap.states _ hkey, hst', Option.getD_some]
        refine (hsnap.refreshLaneGrids hlink' model count rate).bind fun p'' q'' hgrids => ?_
        refine Matches.pure ⟨hgrids, rfl, ?_⟩
        intro k hk
        rcases List.mem_append.mp hk with hold | hnew
        · exact hinside k hold
        · rw [List.mem_singleton.mp hnew]
          exact hlink
      · rw [if_neg hfresh, if_neg hfresh, if_neg hfresh, hst, ← hens.states _ hkey, hst,
          Option.getD_some]
        exact (hens.refreshLaneGrids hlink model count rate).bind fun p'' q'' hgrids =>
          Matches.pure ⟨hgrids, rfl, hinside⟩

/-- The shaping pass over one lane keeps them together. -/
theorem shapeLane_together {nr : ℕ} {x y : Slot K} (h : TogetherSlots S L a₀ c₀ nr x y)
    {lane : SuperpositionInput K} (hkey : lane.linkKey ∈ S) (count rate : ℕ) :
    Matches (TogetherSlots S L a₀ c₀ nr) (shapeLane count rate x lane)
      (shapeLane count rate y lane) := by
  unfold shapeLane
  cases lane.model with
  | none => exact Matches.throw
  | some model =>
      dsimp only
      rw [← h.rows]
      split_ifs
      · exact Matches.throw
      · exact Matches.throw
      · refine (h.proc.applyChainToLink hkey model lane.samples rate).bind ?_
        rintro ⟨p, shaped, link⟩ ⟨q, shaped', link'⟩ ⟨hpq, hsame, hlink⟩
        obtain ⟨rfl, rfl⟩ := Prod.mk.inj hsame
        refine Matches.pure ⟨hpq, by rw [h.touched], ?_, rfl, ?_⟩
        · intro k hk
          exact (mem_touch hk).elim (h.inside k) (hlink k)
        · dsimp only
          rw [List.length_modify]
          exact h.length

/-- The receiver pass over one row keeps them together. -/
theorem receiveRow_together {nr : ℕ} {x y : Slot K} (h : TogetherSlots S L a₀ c₀ nr x y)
    {dstKey : String} {r : ℕ} (hkey : rxStateKey dstKey r nr ∈ S) (model : ModelConfig K)
    (count rate : ℕ) :
    Matches (TogetherSlots S L a₀ c₀ nr) (receiveRow dstKey model count rate x r)
      (receiveRow dstKey model count rate y r) := by
  unfold receiveRow
  rw [← h.rows, h.length]
  dsimp only
  generalize rxStateKey dstKey r nr = key at hkey ⊢
  have hens := h.proc.ensureLinkState hkey model count { physicalLinkKey := key }
  generalize x.proc.ensureLinkState key model count { physicalLinkKey := key } = p at hens ⊢
  generalize y.proc.ensureLinkState key model count { physicalLinkKey := key } = q at hens ⊢
  obtain ⟨st, hst, hlink⟩ := hens.owned.states _ hkey
  obtain ⟨link, hlinkEq⟩ := hens.owned.links _ hlink
  rw [← hens.states _ hkey, hst]
  dsimp only
  rw [← hens.links _ hlink, hlinkEq]
  dsimp only
  generalize (({ link with fading := link.fading.beginSlot }).snap count) = snapped
  have hst' : (if snapped.2.valuesChanged then { st with live := snapped.1.live } else st).link
      = st.link := by
    split_ifs <;> rfl
  generalize (if snapped.2.valuesChanged then { st with live := snapped.1.live } else st) = st'
    at hst' ⊢
  have hupdated := (hens.setState hkey (hst'.symm ▸ hlink)).setLink (hst'.symm ▸ hlink) snapped.1
  refine (hupdated.refreshLaneGrids (hst'.symm ▸ hlink) model count rate).bind ?_
  intro p' q' hgrids
  refine (hgrids.applyChainToLink hkey model (x.rows.getD r []) rate).bind ?_
  rintro ⟨p'', row, link'⟩ ⟨q'', row', link''⟩ ⟨hpq, hsame, hinside⟩
  obtain ⟨rfl, rfl⟩ := Prod.mk.inj hsame
  refine Matches.pure ⟨hpq, by rw [h.touched], ?_, rfl, ?_⟩
  · intro k hk
    exact (mem_touch hk).elim (h.inside k) (hinside k)
  · dsimp only
    rw [List.length_set]
    exact h.length

/-- The keys of a call are in `S`. -/
structure SuperpositionCall.Within (S : Set String) (call : SuperpositionCall K) : Prop where
  lanes : ∀ input ∈ call.inputs, input.linkKey ∈ S
  rows : call.rxModel.isSome = true → ∀ r < call.rowSizes.length,
    rxStateKey call.dstKey r call.rowSizes.length ∈ S

/-- The call, with the rows it produces. -/
def CpuChannelProcessor.serve (p : CpuChannelProcessor K) (call : SuperpositionCall K) :
    Except String (CpuChannelProcessor K × List (List (Iq K))) :=
  p.processSuperposition call.dstKey call.inputs call.rxModel call.sampleRateHz call.rowSizes

/-- **A call only depends on its keys**, and changes nothing beside them. -/
theorem serve_together (h : Together S L a₀ c₀ a c) {call : SuperpositionCall K}
    (hcall : call.Within S) :
    Matches (fun r r' => Together S L a₀ c₀ r.1 r'.1 ∧ r.2 = r'.2) (a.serve call)
      (c.serve call) := by
  unfold CpuChannelProcessor.serve processSuperposition
  cases hsizes : call.rowSizes with
  | nil => exact Matches.pure ⟨h, rfl⟩
  | cons count sizes =>
      dsimp only
      split_ifs
      · exact Matches.throw
      · exact Matches.pure ⟨h, rfl⟩
      -- each pass of the call runs in lock step
      · have hgenerated : Matches (TogetherTouched S L a₀ c₀)
            (call.inputs.foldlM (generateLane call.inputs count call.sampleRateHz) (a, []))
            (call.inputs.foldlM (generateLane call.inputs count call.sampleRateHz) (c, [])) :=
          Matches.foldlM ⟨h, rfl, fun _ hk => absurd hk List.not_mem_nil⟩
            fun lane hlane x y hxy => generateLane_together hxy hcall.lanes hlane count _
        refine hgenerated.bind ?_
        rintro ⟨p, touched⟩ ⟨q, touched'⟩ ⟨hpq, htouched, hinside⟩
        dsimp only at hpq htouched hinside ⊢
        subst htouched
        have hmixed : Matches (Together S L a₀ c₀) (touched.foldlM mixLink p)
            (touched.foldlM mixLink q) :=
          Matches.foldlM hpq fun k hk x y hxy => hxy.mixLink (hinside k hk)
        refine hmixed.bind fun p' q' hpq' => ?_
        have hshaped : Matches (TogetherSlots S L a₀ c₀ (count :: sizes).length)
            (call.inputs.foldlM (shapeLane count call.sampleRateHz)
              ⟨p', [], (count :: sizes).map fun size => List.replicate size (0 : Iq K)⟩)
            (call.inputs.foldlM (shapeLane count call.sampleRateHz)
              ⟨q', [], (count :: sizes).map fun size => List.replicate size (0 : Iq K)⟩) :=
          Matches.foldlM
            ⟨hpq', rfl, fun _ hk => absurd hk List.not_mem_nil, rfl, List.length_map ..⟩
            fun lane hlane x y hxy => shapeLane_together hxy (hcall.lanes lane hlane) count _
        refine hshaped.bind fun x y hxy => ?_
        -- the clocks move by the same links
        have hend : ∀ x' y', TogetherSlots S L a₀ c₀ (count :: sizes).length x' y' →
            Together S L a₀ c₀ (x'.proc.advanceClocks x'.touched count)
              (y'.proc.advanceClocks y'.touched count) ∧ x'.rows = y'.rows := by
          intro x' y' hxy'
          rw [← hxy'.touched]
          exact ⟨hxy'.proc.advanceClocks hxy'.inside count, hxy'.rows⟩
        cases hmodel : call.rxModel with
        | none => exact Matches.pure (hend x y hxy)
        | some model =>
            refine (Matches.foldlM hxy fun r hr x' y' hxy' => ?_).bind
              fun x' y' hxy' => Matches.pure (hend x' y' hxy')
            rw [List.mem_range, List.length_map] at hr
            have hkey := hcall.rows (by rw [hmodel]; rfl) r (by rw [hsizes]; exact hr)
            rw [hsizes] at hkey
            exact receiveRow_together hxy' hkey model count _

/-- A call leaves everything beside its keys. -/
theorem serve_frame (h : Owned S L a) {call : SuperpositionCall K} (hcall : call.Within S)
    {a' : CpuChannelProcessor K} {rows : List (List (Iq K))} (hserve : a.serve call = .ok (a', rows)) :
    Owned S L a' ∧ Beside S L a a' := by
  have hself : Together S L a a a a :=
    ⟨fun _ _ => rfl, fun _ _ => rfl, h, Beside.refl S L a, Beside.refl S L a⟩
  obtain ⟨_, -, htogether, -⟩ := serve_together hself hcall _ hserve
  exact ⟨htogether.owned, htogether.left⟩

/-- A call has the outcome that it has on any processor with the same keys. -/
theorem serve_local (h : Owned S L a) (hstates : ∀ key ∈ S, c.states key = a.states key)
    (hlinks : ∀ k ∈ L, c.links k = a.links k) {call : SuperpositionCall K} (hcall : call.Within S)
    {a' : CpuChannelProcessor K} {rows : List (List (Iq K))} (hserve : a.serve call = .ok (a', rows)) :
    ∃ c', c.serve call = .ok (c', rows) ∧ Together S L a c a' c' := by
  have htogether : Together S L a c a c :=
    ⟨fun key hkey => (hstates key hkey).symm, fun k hk => (hlinks k hk).symm, h,
      Beside.refl S L a, Beside.refl S L c⟩
  obtain ⟨⟨c', rows'⟩, hserve', hafter, hrows⟩ := serve_together htogether hcall _ hserve
  obtain rfl : rows = rows' := hrows
  exact ⟨c', hserve', hafter⟩

end Operations

/-! ## Two calls with keys apart -/

/-- The same lane states, links and receiver keys. -/
structure SameState (p q : CpuChannelProcessor K) : Prop where
  states : p.states = q.states
  links : p.links = q.links
  rows : p.rxModelKeys = q.rxModelKeys

section Commute

variable {S L S' L' : Set String} {p : CpuChannelProcessor K}

omit [Field K] [LinearOrder K] [FloorRing K] [Libm K] [Rng K] in
/-- What is beside other keys leaves these alone. -/
theorem Owned.beside (h : Owned S' L' p) (hS : Disjoint S S') (hL : Disjoint L L')
    {q : CpuChannelProcessor K} (hq : Beside S L p q) :
    Owned S' L' q ∧ (∀ key ∈ S', q.states key = p.states key) ∧
      ∀ k ∈ L', q.links k = p.links k := by
  have hstates : ∀ key ∈ S', q.states key = p.states key :=
    fun key hkey => hq.states key fun hmem => Set.disjoint_left.mp hS hmem hkey
  have hlinks : ∀ k ∈ L', q.links k = p.links k :=
    fun k hk => hq.links k fun hmem => Set.disjoint_left.mp hL hmem hk
  exact ⟨h.congr hstates hlinks, hstates, hlinks⟩

/-- **Calls with keys apart commute.** -/
theorem serve_commute (h : Owned S L p) (h' : Owned S' L' p) (hS : Disjoint S S')
    (hL : Disjoint L L') {A B : SuperpositionCall K} (hA : A.Within S) (hB : B.Within S')
    {pA pAB : CpuChannelProcessor K} {rowsA rowsB : List (List (Iq K))}
    (hserveA : p.serve A = .ok (pA, rowsA)) (hserveB : pA.serve B = .ok (pAB, rowsB)) :
    ∃ pB pBA, p.serve B = .ok (pB, rowsB) ∧ pB.serve A = .ok (pBA, rowsA) ∧ SameState pAB pBA := by
  obtain ⟨-, hframeA⟩ := serve_frame h hA hserveA
  obtain ⟨hownA, hstatesA, hlinksA⟩ := h'.beside hS hL hframeA
  obtain ⟨pB, hpB, hBB⟩ := serve_local hownA (fun key hkey => (hstatesA key hkey).symm)
    (fun k hk => (hlinksA k hk).symm) hB hserveB
  obtain ⟨-, hframeB⟩ := serve_frame h' hB hpB
  obtain ⟨hownB, hstatesB, hlinksB⟩ := h.beside hS.symm hL.symm hframeB
  obtain ⟨pBA, hpBA, hAA⟩ := serve_local h hstatesB hlinksB hA hserveA
  refine ⟨pB, pBA, hpB, hpBA, ?_, ?_, ?_⟩
  · funext key
    by_cases hkey : key ∈ S
    · have hkey' : key ∉ S' := fun hmem => Set.disjoint_left.mp hS hkey hmem
      rw [hBB.left.states key hkey', hAA.states key hkey]
    · rw [hAA.right.states key hkey]
      by_cases hkey' : key ∈ S'
      · exact hBB.states key hkey'
      · rw [hBB.left.states key hkey', hframeA.states key hkey, hframeB.states key hkey']
  · funext k
    by_cases hk : k ∈ L
    · have hk' : k ∉ L' := fun hmem => Set.disjoint_left.mp hL hk hmem
      rw [hBB.left.links k hk', hAA.links k hk]
    · rw [hAA.right.links k hk]
      by_cases hk' : k ∈ L'
      · exact hBB.links k hk'
      · rw [hBB.left.links k hk', hframeA.links k hk, hframeB.links k hk']
  · rw [hBB.left.rows, hframeA.rows, hAA.right.rows, hframeB.rows]

end Commute

end CallFrame
