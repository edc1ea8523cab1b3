/-
# Every link gets its own delay and scale

The two folds in sequence.  They keep every model and rename links only, and where the ids of
the clones are free, the model a link ends at is its own, delayed and scaled by its amounts.
-/
import GpuChannel.ModelFolds
import GpuChannel.Library.Tables
import GpuChannel.RationalScalars

open FoldPass

section Amounts

variable {K : Type} [Field K] [LinearOrder K] [Libm K] {config : TopologyConfig K}
  {model base : ModelConfig K} {link link' : LinkConfig K}

/-! ## The expected models -/

/-- A link without delay keeps its model. -/
def ModelConfig.delayedBy (model : ModelConfig K) (delay : K) : ModelConfig K :=
  if delay = 0 then model else model.delayed delay

/-- 0 dB and amounts that the validator refuses leave the model as it is. -/
def ModelConfig.scaledBy (model : ModelConfig K) (db : K) : ModelConfig K :=
  if db = 0 ∨ kMaxTxScaleDb < |db| then model else model.scaled db

/-- The same model under another id. -/
def SameUpToId (a b : ModelConfig K) : Prop := a = { b with id := a.id }

omit [Libm K] in
/-- The id does not matter to a scale. -/
theorem scaledBy_sameUpToId {a b : ModelConfig K} (h : SameUpToId a b) (db : K) :
    SameUpToId (a.scaledBy db) (b.scaledBy db) := by
  unfold SameUpToId ModelConfig.scaledBy at *
  split_ifs
  · exact h
  · rw [h]
    rfl

/-! ## The two passes -/

/-- Two links are delayed alike exactly when they have one total delay. -/
theorem delay_effect_eq_iff (a b : LinkConfig K) :
    (delayPass config).effect a = (delayPass config).effect b ↔
      totalDelay config a = totalDelay config b := by
  simp only [effect, delayPass, decide_eq_true_eq]
  split_ifs with ha hb hb
  · simp [ha, hb]
  · simp only [ha, false_iff]
    exact fun h => hb h.symm
  · simp only [hb, false_iff]
    exact ha
  · exact Option.some_inj

/-- The scale of a link does not depend on the models. -/
theorem txScaleDb_renamed (config : TopologyConfig K) (h : Renamed link link') :
    txScaleDb (foldLinkLeadingDelays config) link' = txScaleDb config link := by
  rw [h]
  rfl

/-- **Free ids** for the clones of both folds. -/
structure IdsFree (config : TopologyConfig K) : Prop where
  delays : FreshIds (delayPass config) config.models config.links
  scales : FreshIds (scalePass (foldLinkLeadingDelays config)) (foldLinkLeadingDelays config).models
    (foldLinkLeadingDelays config).links

/-- **What the folds are for**: every link whose model exists ends at that model, delayed and
scaled by the link's own amounts; two links end at one model exactly when they start at one and
have the same amounts. -/
structure FoldedExactly (config folded : TopologyConfig K) : Prop where
  models : ∀ (i : ℕ) (link : LinkConfig K) (base : ModelConfig K), config.links[i]? = some link →
    config.findModel link.model = some base → ∃ link' model, folded.links[i]? = some link' ∧
      folded.findModel link'.model = some model ∧
      SameUpToId model ((base.delayedBy (totalDelay config link)).scaledBy (txScaleDb config link))
  sharing : ∀ (i j : ℕ) (a b a' b' : LinkConfig K), config.links[i]? = some a →
    config.links[j]? = some b → config.findModel a.model ≠ none →
      config.findModel b.model ≠ none → folded.links[i]? = some a' → folded.links[j]? = some b' →
        (a'.model = b'.model ↔ a.model = b.model ∧ totalDelay config a = totalDelay config b ∧
          (scalePass config).effect a = (scalePass config).effect b)

omit [Field K] [LinearOrder K] [Libm K] in
/-- Up to the id, equality is transitive. -/
theorem SameUpToId.trans {a b c : ModelConfig K} (hab : SameUpToId a b) (hbc : SameUpToId b c) :
    SameUpToId a c := by
  unfold SameUpToId at *
  rw [hab, hbc]

omit [Field K] [Libm K] in
/-- One fold, read off at one link. -/
theorem cloned_findModel {pass : FoldPass K} (h : Cloned pass config link link' base)
    (hbase : config.findModel link.model = some base) :
    ∃ model, (pass.run config).findModel link'.model = some model ∧ SameUpToId model
      (if pass.skips (pass.amount link) then base else pass.change (pass.amount link) base) := by
  by_cases hskip : pass.skips (pass.amount link) = true
  · rw [if_pos hskip]
    refine ⟨base, ?_, rfl⟩
    rw [h.skipped (if_pos hskip)]
    exact run_kept pass hbase
  · rw [if_neg hskip]
    exact ⟨_, h.model (pass.amount link) (if_neg hskip), rfl⟩

/-- The links after both folds, with those between. -/
theorem links_between {i : ℕ} (hlink : config.links[i]? = some link) :
    ∃ mid link', (foldLinkLeadingDelays config).links[i]? = some mid ∧
      (foldDeviceTxScales (foldLinkLeadingDelays config)).links[i]? = some link' ∧
      Renamed link mid ∧ Renamed mid link' := by
  obtain ⟨mid, hmid, hrenamed⟩ :=
    Tables.forall₂_getElem? (run_renamed (delayPass config) config) hlink
  obtain ⟨link', hlink', hrenamed'⟩ := Tables.forall₂_getElem?
    (run_renamed (scalePass (foldLinkLeadingDelays config)) (foldLinkLeadingDelays config)) hmid
  exact ⟨mid, link', hmid, hlink', hrenamed, hrenamed'⟩

omit [Field K] [Libm K] in
/-- Each fold, at the links of one index. -/
theorem target_at {pass : FoldPass K} {st : FoldState K} {links : List (LinkConfig K)}
    (h : List.Forall₂ (pass.Target config.models st) config.links links) {i : ℕ}
    (hlink : config.links[i]? = some link) (hlink' : links[i]? = some link') :
    pass.Target config.models st link link' := by
  obtain ⟨found, hfound, htarget⟩ := Tables.forall₂_getElem? h hlink
  rwa [Option.some.inj (hfound.symm.trans hlink')] at htarget

/-- **Every clone of a `wanted` model is entered**, by both folds. -/
structure FoldsEnter (config : TopologyConfig K) (wanted : ModelConfig K → Bool) : Prop where
  delays : (delayPass config).ClonesEnter wanted { models := config.models } config.links
  scales : (scalePass (foldLinkLeadingDelays config)).ClonesEnter wanted
    { models := (foldLinkLeadingDelays config).models } (foldLinkLeadingDelays config).links

/-- Free ids are never taken. -/
theorem IdsFree.foldsEnter (hfree : IdsFree config) (wanted : ModelConfig K → Bool) :
    FoldsEnter config wanted :=
  ⟨(run_owned hfree.delays wanted).2, (run_owned hfree.scales wanted).2⟩

/-- **The model of a link behind both folds**, where the clones of models like its own are
entered. -/
theorem folded_model {wanted : ModelConfig K → Bool} (henter : FoldsEnter config wanted) {i : ℕ}
    (hlink : config.links[i]? = some link) (hbase : config.findModel link.model = some base)
    (hwanted : wanted base = true)
    (hdelayed : ∀ model, SameUpToId model (base.delayedBy (totalDelay config link)) →
      wanted model = true) :
    ∃ link' model, (foldDeviceTxScales (foldLinkLeadingDelays config)).links[i]? = some link' ∧
      (foldDeviceTxScales (foldLinkLeadingDelays config)).findModel link'.model = some model ∧
      SameUpToId model
        ((base.delayedBy (totalDelay config link)).scaledBy (txScaleDb config link)) := by
  obtain ⟨mid, link', hmid, hlink', hrenamed, -⟩ := links_between hlink
  have htarget := target_at (run_target (delayPass config) config) hlink hmid
  obtain ⟨model, hmodel, hsame⟩ :=
    cloned_findModel (cloned_of_target henter.delays htarget hbase hwanted) hbase
  have hdelay : SameUpToId model (base.delayedBy (totalDelay config link)) := by
    simpa only [delayPass, decide_eq_true_eq, ModelConfig.delayedBy] using hsame
  have htarget' := target_at (run_target (scalePass (foldLinkLeadingDelays config))
    (foldLinkLeadingDelays config)) hmid hlink'
  obtain ⟨model', hmodel', hsame'⟩ := cloned_findModel
    (cloned_of_target henter.scales htarget' hmodel (hdelayed model hdelay)) hmodel
  refine ⟨link', model', hlink', hmodel', ?_⟩
  have hscale : SameUpToId model' (model.scaledBy (txScaleDb config link)) := by
    rw [← txScaleDb_renamed config hrenamed]
    simpa only [scalePass, decide_eq_true_eq, ModelConfig.scaledBy] using hsame'
  exact hscale.trans (scaledBy_sameUpToId hdelay _)

/-- The scale of a link, behind the first fold. -/
theorem scale_effect_renamed (config : TopologyConfig K) (h : Renamed link link') :
    (scalePass (foldLinkLeadingDelays config)).effect link' = (scalePass config).effect link := by
  have hamount : (scalePass (foldLinkLeadingDelays config)).amount link' =
      (scalePass config).amount link := txScaleDb_renamed config h
  show (if (scalePass config).skips ((scalePass (foldLinkLeadingDelays config)).amount link') then
    none else some ((scalePass (foldLinkLeadingDelays config)).amount link')) = _
  rw [hamount]
  rfl

/-- Where all ids are free, both folds do what they are for. -/
theorem folded_exactly (hfree : IdsFree config) :
    FoldedExactly config (foldDeviceTxScales (foldLinkLeadingDelays config)) := by
  have henter := hfree.foldsEnter fun _ => true
  have htargets := run_target (delayPass config) config
  have htargets' := run_target (scalePass (foldLinkLeadingDelays config)) (foldLinkLeadingDelays config)
  constructor
  · intro i link base hlink hbase
    exact folded_model henter hlink hbase rfl fun _ _ => rfl
  · intro i j a b a' b' ha hb hbase hbase' ha' hb'
    obtain ⟨base, hbase⟩ := Option.ne_none_iff_exists'.mp hbase
    obtain ⟨base', hbase'⟩ := Option.ne_none_iff_exists'.mp hbase'
    obtain ⟨amid, -, hamid, -, harenamed, -⟩ := links_between ha
    obtain ⟨bmid, -, hbmid, -, hbrenamed, -⟩ := links_between hb
    have hta := target_at htargets ha hamid
    have htb := target_at htargets hb hbmid
    obtain ⟨amodel, hamodel, -⟩ :=
      cloned_findModel (cloned_of_target henter.delays hta hbase rfl) hbase
    obtain ⟨bmodel, hbmodel, -⟩ :=
      cloned_findModel (cloned_of_target henter.delays htb hbase' rfl) hbase'
    rw [model_eq_iff hfree.scales (run_owned hfree.scales fun _ => true).1
      (target_at htargets' hamid ha') (target_at htargets' hbmid hb') hamodel hbmodel,
      model_eq_iff hfree.delays (run_owned hfree.delays fun _ => true).1 hta htb hbase hbase',
      delay_effect_eq_iff, and_assoc, scale_effect_renamed config harenamed,
      scale_effect_renamed config hbrenamed]

/-- **Every link gets its own delay and scale.** -/
theorem load_folds_exact (config : TopologyConfig K) :
    (∀ id model, config.findModel id = some model →
      (foldDeviceTxScales (foldLinkLeadingDelays config)).findModel id = some model) ∧
    List.Forall₂ (fun link link' => Renamed link link' ∧
        (link.declaredModel ≠ "" → linkKey link' = linkKey link))
      config.links (foldDeviceTxScales (foldLinkLeadingDelays config)).links ∧
    (IdsFree config →
      FoldedExactly config (foldDeviceTxScales (foldLinkLeadingDelays config))) := by
  refine ⟨?_, ?_, folded_exactly⟩
  · intro id model hmodel
    exact run_kept _ (run_kept _ hmodel)
  · have hrenamed : List.Forall₂ Renamed config.links
        (foldDeviceTxScales (foldLinkLeadingDelays config)).links := by
      refine List.forall₂_iff_get.mpr ⟨?_, ?_⟩
      · exact (run_renamed (delayPass config) config).length_eq.trans
          (run_renamed (scalePass (foldLinkLeadingDelays config)) _).length_eq
      · intro i hi hi'
        obtain ⟨mid, link', -, hlink', hmid, hlink''⟩ :=
          links_between (List.getElem?_eq_getElem hi)
        rw [List.getElem?_eq_getElem hi'] at hlink'
        simp only [List.get_eq_getElem]
        rw [Option.some.inj hlink', hlink'', hmid]
        rfl
    refine hrenamed.imp ?_
    intro link link' h
    refine ⟨h, ?_⟩
    intro hdeclared
    have hne : link.declaredModel.isEmpty = false := by
      simpa using hdeclared
    rw [h]
    simp only [linkKey, hne]
    rfl

end Amounts

/-- Three links of one model, with three delays and two scales. -/
def delayedPair : TopologyConfig ℚ :=
  { devices :=
      [{ plainDevice "a" with
         txTimingOffsetSamples := 2
         txScaleDb := 3 },
       plainDevice "b"]
    links :=
      [{ plainLink "a" "b" "cable" with propagationDelaySamples := 1 },
       { plainLink "b" "a" "cable" with propagationDelaySamples := 1 / 2 },
       plainLink "a" "a" "cable"]
    models := [("cable", { id := "cable", chain := [] })] }

/-- Three clones of one model, all entered. -/
theorem load_folds_exact_delayedPair : IdsFree delayedPair ∧
    FoldedExactly delayedPair (foldDeviceTxScales (foldLinkLeadingDelays delayedPair)) := by
  have hfree : IdsFree delayedPair := by
    constructor
    · exact ⟨by decide +kernel, by decide +kernel⟩
    · exact ⟨by decide +kernel, by decide +kernel⟩
  exact ⟨hfree, (load_folds_exact delayedPair).2.2 hfree⟩

/-! ## What the folds skip -/

/-- Two devices without delay or scale. -/
def plainPair : TopologyConfig ℚ :=
  { devices := [plainDevice "a", plainDevice "b"]
    links := [plainLink "a" "b" "cable", plainLink "b" "a" "cable"]
    models := [("cable", { id := "cable", chain := [] })] }

/-- A scale of 0 dB is not a gain step. -/
theorem zero_scale_adds_no_step : ¬ ∀ (config : TopologyConfig ℚ) (i : ℕ) (link : LinkConfig ℚ)
    (base : ModelConfig ℚ), config.links[i]? = some link →
      config.findModel link.model = some base → ∃ link' model,
        (foldDeviceTxScales (foldLinkLeadingDelays config)).links[i]? = some link' ∧
        (foldDeviceTxScales (foldLinkLeadingDelays config)).findModel link'.model = some model ∧
        SameUpToId model ((base.delayed (totalDelay config link)).scaled (txScaleDb config link)) := by
  intro h
  obtain ⟨link', model, hlink', hmodel, hsame⟩ :=
    h plainPair 0 (plainLink "a" "b" "cable") { id := "cable", chain := [] } (by decide +kernel)
      (by decide +kernel)
  have hlinks : (foldDeviceTxScales (foldLinkLeadingDelays plainPair)).links[0]? =
      some (plainLink "a" "b" "cable") := by
    decide +kernel
  have hkept : (foldDeviceTxScales (foldLinkLeadingDelays plainPair)).findModel "cable" =
      some { id := "cable", chain := [] } := by
    decide +kernel
  obtain rfl : plainLink "a" "b" "cable" = link' := Option.some.inj (hlinks.symm.trans hlink')
  obtain rfl : { id := "cable", chain := [] } = model := Option.some.inj (hkept.symm.trans hmodel)
  have hchain := congrArg (fun m : ModelConfig ℚ => m.chain.length) hsame
  revert hchain
  decide +kernel
