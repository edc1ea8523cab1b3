/-
# The load-time folds

`fold_link_leading_delays` and `fold_device_tx_scales` rewrite the models that links name: a
link with a delay or a scale ends up at a clone of its model, cached by the pair of the amount
and the model, and stored under a printed id.
-/
import GpuChannel.Validation

/-! ## One pass -/

/-- What the two folds differ in. -/
structure FoldPass (K : Type) where
  amount : LinkConfig K → K
  skips : K → Bool
  cloneId : LinkConfig K → String
  change : K → ModelConfig K → ModelConfig K

/-- The models and the cache of a running fold. -/
structure FoldState (K : Type) where
  models : List (String × ModelConfig K)
  synthesized : List ((K × String) × String) := []

/-- `std::map::emplace`: the first entry of a key stays. -/
def emplaceModel {K : Type} (models : List (String × ModelConfig K)) (id : String)
    (model : ModelConfig K) : List (String × ModelConfig K) :=
  if (models.lookup id).isSome then models else models ++ [(id, model)]

section Pass

variable {K : Type} [DecidableEq K]

namespace FoldPass

/-- The loop body of a fold. -/
def foldLink (pass : FoldPass K) (st : FoldState K) (link : LinkConfig K) :
    FoldState K × LinkConfig K :=
  let amount := pass.amount link
  if pass.skips amount then (st, link)
  else
    match st.synthesized.lookup (amount, link.model) with
    | some id => (st, { link with model := id })
    | none =>
        match st.models.lookup link.model with
        | none => (st, link)
        | some base =>
            let id := pass.cloneId link
            ({ models := emplaceModel st.models id { pass.change amount base with id := id }
               synthesized := st.synthesized ++ [((amount, link.model), id)] },
              { link with model := id })

/-- The loop of a fold. -/
def foldLinks (pass : FoldPass K) : FoldState K → List (LinkConfig K) →
    FoldState K × List (LinkConfig K)
  | st, [] => (st, [])
  | st, link :: links =>
      let (st, link) := pass.foldLink st link
      let (st, links) := pass.foldLinks st links
      (st, link :: links)

def run (pass : FoldPass K) (config : TopologyConfig K) : TopologyConfig K :=
  let (st, links) := pass.foldLinks { models := config.models } config.links
  { config with models := st.models, links := links }

end FoldPass

end Pass

/-! ## The two folds -/

section Folds

variable {K : Type} [Field K] [LinearOrder K] [Libm K]

/-- A port of the source node of a link, or the source device. -/
def sourceDeviceId (config : TopologyConfig K) (fromNode : String) : String :=
  match config.findRadioNode fromNode with
  | some node => (node.txPorts.head?.or node.rxPorts.head?).getD fromNode
  | none => fromNode

def sourceDevice (config : TopologyConfig K) (link : LinkConfig K) : Option (DeviceConfig K) :=
  config.findDevice (sourceDeviceId config link.fromNode)

def txTimingOffset (config : TopologyConfig K) (link : LinkConfig K) : K :=
  ((sourceDevice config link).map (·.txTimingOffsetSamples)).getD 0

def totalDelay (config : TopologyConfig K) (link : LinkConfig K) : K :=
  txTimingOffset config link + link.propagationDelaySamples

def txScaleDb (config : TopologyConfig K) (link : LinkConfig K) : K :=
  ((sourceDevice config link).map (·.txScaleDb)).getD 0

/-- The id of a delayed clone names the effects that it composes. -/
def leadDelayId (config : TopologyConfig K) (link : LinkConfig K) : String :=
  let offset := txTimingOffset config link
  let propagation := link.propagationDelaySamples
  "__ocg_lead_delay__" ++ link.model ++
    (if offset ≠ 0 ∧ propagation ≠ 0 then
      "__txoff_" ++ Libm.formatStream offset ++ "__prop_" ++ Libm.formatStream propagation
    else if offset ≠ 0 then "__txoff_" ++ Libm.formatStream offset
    else "__prop_" ++ Libm.formatStream propagation)

def txScaleId (config : TopologyConfig K) (link : LinkConfig K) : String :=
  "__ocg_tx_scale__" ++ link.model ++ "__db_" ++ Libm.formatStream (txScaleDb config link)

/-- The chain begins with a tdl step. -/
def ModelConfig.leadsWithTdl (model : ModelConfig K) : Bool :=
  model.chain.head?.any (·.type = .tdl)

def TapSpec.shifted (tap : TapSpec K) (delay : K) : TapSpec K :=
  { tap with delaySamples := tap.delaySamples + delay }

/-- A tdl step with one tap. -/
def delayStep (delay : K) : ModelStep K :=
  { type := .tdl, taps := [⟨delay, 0, 0, false, 0, 0⟩], tapsDeclared := true
    fadingFDMaxHz := 0, fadingGridUs := 100 }

def gainStep (db : K) : ModelStep K :=
  { type := .gain, params := [("gain_db", db)], fadingFDMaxHz := 0, fadingGridUs := 100 }

/-- Every tap of the leading tdl shifted, or a single-tap tdl put in front. -/
def ModelConfig.delayed (model : ModelConfig K) (delay : K) : ModelConfig K :=
  if model.leadsWithTdl then
    { model with
      chain := model.chain.modifyHead fun step =>
        { step with
          taps := step.taps.map (·.shifted delay)
          tapsDeclared := true } }
  else { model with chain := delayStep delay :: model.chain }

/-- A gain step behind the leading tdl, or at the head. -/
def ModelConfig.scaled (model : ModelConfig K) (db : K) : ModelConfig K :=
  { model with
    chain := model.chain.insertIdx (if model.leadsWithTdl then 1 else 0) (gainStep db) }

def delayPass (config : TopologyConfig K) : FoldPass K :=
  { amount := totalDelay config
    skips := fun delay => delay = 0
    cloneId := leadDelayId config
    change := fun delay model => model.delayed delay }

def scalePass (config : TopologyConfig K) : FoldPass K :=
  { amount := txScaleDb config
    skips := fun db => db = 0 ∨ kMaxTxScaleDb < |db|
    cloneId := txScaleId config
    change := fun db model => model.scaled db }

/-- **`fold_link_leading_delays`.** -/
def foldLinkLeadingDelays (config : TopologyConfig K) : TopologyConfig K :=
  (delayPass config).run config

/-- **`fold_device_tx_scales`.** -/
def foldDeviceTxScales (config : TopologyConfig K) : TopologyConfig K :=
  (scalePass config).run config

end Folds

/-! ## What a pass leaves alone -/

section Emplace

variable {K : Type} {models : List (String × ModelConfig K)} {id key : String}
  {model : ModelConfig K}

/-- An entry stays. -/
theorem lookup_emplace_of_some {found : ModelConfig K} (h : models.lookup key = some found) :
    (emplaceModel models id model).lookup key = some found := by
  unfold emplaceModel
  split_ifs
  · exact h
  · rw [List.lookup_append, h, Option.some_or]

/-- Other keys are not touched. -/
theorem lookup_emplace_of_ne (h : key ≠ id) :
    (emplaceModel models id model).lookup key = models.lookup key := by
  have hbeq : (key == id) = false := beq_eq_false_iff_ne.mpr h
  unfold emplaceModel
  split_ifs
  · rfl
  · rw [List.lookup_append, List.lookup_cons, hbeq, List.lookup_nil, Option.or_none]

/-- A free key gets the model. -/
theorem lookup_emplace_self (h : models.lookup id = none) :
    (emplaceModel models id model).lookup id = some model := by
  unfold emplaceModel
  rw [h, if_neg (by simp), List.lookup_append, h, Option.none_or, List.lookup_cons, beq_self_eq_true]

end Emplace

namespace FoldPass

section Run

variable {K : Type} [DecidableEq K] {pass : FoldPass K} {st : FoldState K} {link : LinkConfig K}
  {links : List (LinkConfig K)} {models : List (String × ModelConfig K)}

/-- The link with another model. -/
def Renamed (link link' : LinkConfig K) : Prop := link' = { link with model := link'.model }

/-- The loop body changes the model of the link only. -/
theorem foldLink_renamed (pass : FoldPass K) (st : FoldState K) (link : LinkConfig K) :
    Renamed link (pass.foldLink st link).2 := by
  unfold foldLink
  dsimp only
  split_ifs
  · rfl
  · split
    · rfl
    · split <;> rfl

/-- No entry of the models is replaced. -/
theorem foldLink_kept (pass : FoldPass K) (link : LinkConfig K) {id : String}
    {model : ModelConfig K} (h : st.models.lookup id = some model) :
    (pass.foldLink st link).1.models.lookup id = some model := by
  unfold foldLink
  dsimp only
  split_ifs
  · exact h
  · split
    · exact h
    · split
      · exact h
      · exact lookup_emplace_of_some h

/-- One turn of the loop. -/
theorem foldLinks_cons (pass : FoldPass K) (st : FoldState K) (link : LinkConfig K)
    (links : List (LinkConfig K)) : pass.foldLinks st (link :: links) =
      ((pass.foldLinks (pass.foldLink st link).1 links).1,
        (pass.foldLink st link).2 :: (pass.foldLinks (pass.foldLink st link).1 links).2) := rfl

/-- The loop changes the models of the links only. -/
theorem foldLinks_renamed (pass : FoldPass K) (st : FoldState K) (links : List (LinkConfig K)) :
    List.Forall₂ Renamed links (pass.foldLinks st links).2 := by
  induction links generalizing st with
  | nil => exact List.Forall₂.nil
  | cons link links ih =>
      rw [foldLinks_cons]
      exact List.Forall₂.cons (foldLink_renamed pass st link) (ih _)

/-- The loop keeps every entry of the models. -/
theorem foldLinks_kept (pass : FoldPass K) (st : FoldState K) (links : List (LinkConfig K)) {id : String}
    {model : ModelConfig K} (h : st.models.lookup id = some model) :
    (pass.foldLinks st links).1.models.lookup id = some model := by
  induction links generalizing st with
  | nil => exact h
  | cons link links ih =>
      rw [foldLinks_cons]
      exact ih _ (foldLink_kept pass link h)

/-! ## What a pass does -/

/-- The link is folded: its amount is not skipped. -/
def Folds (pass : FoldPass K) (link : LinkConfig K) : Prop := pass.skips (pass.amount link) = false

instance (pass : FoldPass K) (link : LinkConfig K) : Decidable (pass.Folds link) :=
  inferInstanceAs (Decidable (_ = _))

/-- **Clone ids that are free**: no model has one yet, and two folded links print one id only
for one amount and one model. -/
structure FreshIds (pass : FoldPass K) (models : List (String × ModelConfig K))
    (links : List (LinkConfig K)) : Prop where
  user : ∀ link ∈ links, pass.Folds link → models.lookup (pass.cloneId link) = none
  pairs : ∀ a ∈ links, ∀ b ∈ links, pass.Folds a → pass.Folds b →
    pass.cloneId a = pass.cloneId b → pass.amount a = pass.amount b ∧ a.model = b.model

/-- A new pair of an amount and a model, whose clone finds its id taken. -/
def Taken (pass : FoldPass K) (st : FoldState K) (link : LinkConfig K) : Prop :=
  pass.Folds link ∧ st.synthesized.lookup (pass.amount link, link.model) = none ∧
    st.models.lookup (pass.cloneId link) ≠ none

instance (pass : FoldPass K) (st : FoldState K) (link : LinkConfig K) :
    Decidable (pass.Taken st link) :=
  inferInstanceAs (Decidable (_ ∧ _ ∧ ¬ _))

/-- **Every clone is entered**: no link of a `wanted` model finds the id of its clone taken when
the loop comes to it. -/
def ClonesEnter (pass : FoldPass K) (wanted : ModelConfig K → Bool) :
    FoldState K → List (LinkConfig K) → Prop
  | _, [] => True
  | st, link :: links =>
      ((st.models.lookup link.model).any wanted = true → ¬ pass.Taken st link) ∧
        pass.ClonesEnter wanted (pass.foldLink st link).1 links

instance decidableClonesEnter (pass : FoldPass K) (wanted : ModelConfig K → Bool) :
    ∀ (st : FoldState K) (links : List (LinkConfig K)), Decidable (pass.ClonesEnter wanted st links)
  | _, [] => isTrue trivial
  | st, link :: links =>
      have := decidableClonesEnter pass wanted (pass.foldLink st link).1 links
      inferInstanceAs (Decidable (_ ∧ _))

/-- The state with a clone for a new key. -/
def entered (pass : FoldPass K) (st : FoldState K) (link : LinkConfig K) (base : ModelConfig K) :
    FoldState K :=
  { models := emplaceModel st.models (pass.cloneId link)
      { pass.change (pass.amount link) base with id := pass.cloneId link }
    synthesized := st.synthesized ++ [((pass.amount link, link.model), pass.cloneId link)] }

/-- What the loop body does: nothing, a hit in the cache, or a new clone. -/
theorem foldLink_cases (pass : FoldPass K) (st : FoldState K) (link : LinkConfig K) :
    (¬ pass.Folds link ∧ pass.foldLink st link = (st, link)) ∨
    (pass.Folds link ∧ ∃ id, st.synthesized.lookup (pass.amount link, link.model) = some id ∧
      pass.foldLink st link = (st, { link with model := id })) ∨
    (pass.Folds link ∧ st.models.lookup link.model = none ∧ pass.foldLink st link = (st, link)) ∨
    (pass.Folds link ∧ st.synthesized.lookup (pass.amount link, link.model) = none ∧
      ∃ base, st.models.lookup link.model = some base ∧
        pass.foldLink st link =
          (pass.entered st link base, { link with model := pass.cloneId link })) := by
  unfold foldLink Folds
  dsimp only
  cases hskip : pass.skips (pass.amount link) with
  | true => exact Or.inl ⟨by decide, rfl⟩
  | false =>
      rw [if_neg Bool.false_ne_true]
      cases hcached : st.synthesized.lookup (pass.amount link, link.model) with
      | some id => exact Or.inr (Or.inl ⟨rfl, id, rfl, rfl⟩)
      | none =>
          cases hbase : st.models.lookup link.model with
          | none => exact Or.inr (Or.inr (Or.inl ⟨rfl, rfl, rfl⟩))
          | some base => exact Or.inr (Or.inr (Or.inr ⟨rfl, rfl, base, rfl, rfl⟩))

/-- The cache behind a new clone. -/
theorem lookup_entered (pass : FoldPass K) {base : ModelConfig K}
    (hnew : st.synthesized.lookup (pass.amount link, link.model) = none) (key : K × String) :
    (pass.entered st link base).synthesized.lookup key =
      if key = (pass.amount link, link.model) then some (pass.cloneId link)
      else st.synthesized.lookup key := by
  unfold entered
  dsimp only
  rw [List.lookup_append]
  by_cases hkey : key = (pass.amount link, link.model)
  · subst hkey
    simp [hnew]
  · have hbeq : (key == (pass.amount link, link.model)) = false := beq_eq_false_iff_ne.mpr hkey
    simp [List.lookup_cons, hkey, hbeq]

/-! ### The links and the cache -/

/-- The model that the cache names for the link. -/
def Target (pass : FoldPass K) (models : List (String × ModelConfig K)) (st : FoldState K)
    (link link' : LinkConfig K) : Prop :=
  (¬ pass.Folds link → link' = link) ∧
    (pass.Folds link → models.lookup link.model ≠ none →
      st.synthesized.lookup (pass.amount link, link.model) = some link'.model)

/-- A cache that holds at least the entries of another. -/
def Extends (st st' : FoldState K) : Prop :=
  ∀ key id, st.synthesized.lookup key = some id → st'.synthesized.lookup key = some id

/-- The models of the configuration are all still there. -/
def Keeps (models : List (String × ModelConfig K)) (st : FoldState K) : Prop :=
  ∀ id model, models.lookup id = some model → st.models.lookup id = some model

/-- A larger cache names the same models. -/
theorem Target.mono {st' : FoldState K} {link' : LinkConfig K} (h : pass.Target models st link link')
    (hext : Extends st st') : pass.Target models st' link link' :=
  ⟨h.1, fun hfolds hbase => hext _ _ (h.2 hfolds hbase)⟩

/-- The link ends at the model that the cache then names for it. -/
theorem foldLink_target (hkeeps : Keeps models st) (link : LinkConfig K) :
    Extends st (pass.foldLink st link).1 ∧
      pass.Target models (pass.foldLink st link).1 link (pass.foldLink st link).2 := by
  rcases foldLink_cases pass st link with
    ⟨hskip, heq⟩ | ⟨hfolds, id, hcached, heq⟩ | ⟨hfolds, hbase, heq⟩ | ⟨hfolds, hnew, base, -, heq⟩
  · rw [heq]
    exact ⟨fun _ _ hkey => hkey, fun _ => rfl, fun hfolds => absurd hfolds hskip⟩
  · rw [heq]
    exact ⟨fun _ _ hkey => hkey, fun hskip => absurd hfolds hskip, fun _ _ => hcached⟩
  · rw [heq]
    refine ⟨fun _ _ hkey => hkey, fun hskip => absurd hfolds hskip, ?_⟩
    intro _ hmodel
    obtain ⟨model, hmodel⟩ := Option.ne_none_iff_exists'.mp hmodel
    rw [hkeeps _ _ hmodel] at hbase
    cases hbase
  · rw [heq]
    refine ⟨?_, fun hskip => absurd hfolds hskip, fun _ _ => ?_⟩
    · intro key id hkey
      rw [lookup_entered pass hnew, if_neg ?_]
      · exact hkey
      · rintro rfl
        rw [hnew] at hkey
        cases hkey
    · rw [lookup_entered pass hnew, if_pos rfl]

/-- One turn keeps the models of the configuration. -/
theorem foldLink_keeps (hkeeps : Keeps models st) (link : LinkConfig K) :
    Keeps models (pass.foldLink st link).1 :=
  fun id model hmodel => foldLink_kept pass link (hkeeps id model hmodel)

/-- Every link ends at the model that the final cache names for it. -/
theorem foldLinks_target (hkeeps : Keeps models st) (rest : List (LinkConfig K)) :
    Extends st (pass.foldLinks st rest).1 ∧
      List.Forall₂ (pass.Target models (pass.foldLinks st rest).1) rest
        (pass.foldLinks st rest).2 := by
  induction rest generalizing st with
  | nil => exact ⟨fun _ _ hkey => hkey, List.Forall₂.nil⟩
  | cons link rest ih =>
      obtain ⟨hext, htarget⟩ := foldLink_target hkeeps link
      obtain ⟨hext', htargets⟩ := ih (foldLink_keeps hkeeps link)
      rw [foldLinks_cons]
      exact ⟨fun key id hkey => hext' key id (hext key id hkey),
        List.Forall₂.cons (htarget.mono hext') htargets⟩

/-! ### The clones -/

/-- The cache names the clones of the `wanted` models. -/
structure Entered (pass : FoldPass K) (models : List (String × ModelConfig K))
    (wanted : ModelConfig K → Bool) (st : FoldState K) : Prop where
  kept : Keeps models st
  clones : ∀ amount base id, st.synthesized.lookup (amount, base) = some id →
    ∀ model, models.lookup base = some model → wanted model = true →
      st.models.lookup id = some { pass.change amount model with id := id }

/-- The empty cache names nothing. -/
theorem entered_start (pass : FoldPass K) (models : List (String × ModelConfig K))
    (wanted : ModelConfig K → Bool) : Entered pass models wanted { models := models } := by
  constructor
  · exact fun id model h => h
  · intro amount base id h
    cases h

/-- A turn that finds no id taken enters the clone. -/
theorem foldLink_entered {wanted : ModelConfig K → Bool} (h : Entered pass models wanted st)
    (hfree : (st.models.lookup link.model).any wanted = true → ¬ pass.Taken st link) :
    Entered pass models wanted (pass.foldLink st link).1 := by
  rcases foldLink_cases pass st link with
    ⟨-, heq⟩ | ⟨-, id, -, heq⟩ | ⟨-, -, heq⟩ | ⟨hfolds, hnew, base, hbase, heq⟩
  · rwa [heq]
  · rwa [heq]
  · rwa [heq]
  · refine ⟨foldLink_keeps h.kept link, ?_⟩
    rw [heq]
    intro amount name id hid model hmodel hwanted
    rw [lookup_entered pass hnew] at hid
    split_ifs at hid with hkey
    · -- the new clone: nothing stood under its id
      obtain ⟨rfl, rfl⟩ := Prod.mk.inj hkey
      obtain rfl := Option.some.inj hid
      obtain rfl : base = model := Option.some.inj (hbase.symm.trans (h.kept _ _ hmodel))
      have hnot := hfree (by rw [hbase]; exact hwanted)
      exact lookup_emplace_self (by_contra fun htaken => hnot ⟨hfolds, hnew, htaken⟩)
    · exact lookup_emplace_of_some (h.clones amount name id hid model hmodel hwanted)

/-- The loop enters the clones of all wanted models. -/
theorem foldLinks_entered {wanted : ModelConfig K → Bool} {rest : List (LinkConfig K)}
    (h : Entered pass models wanted st) (hfree : pass.ClonesEnter wanted st rest) :
    Entered pass models wanted (pass.foldLinks st rest).1 := by
  induction rest generalizing st with
  | nil => exact h
  | cons link rest ih =>
      rw [foldLinks_cons]
      exact ih (foldLink_entered h hfree.1) hfree.2

/-! ### Free ids -/

/-- The state of a fold over links whose clone ids are free. -/
structure Owned (pass : FoldPass K) (models : List (String × ModelConfig K))
    (links : List (LinkConfig K)) (st : FoldState K) : Prop where
  cached : ∀ amount base id, st.synthesized.lookup (amount, base) = some id →
    ∃ link ∈ links, pass.Folds link ∧ pass.amount link = amount ∧ link.model = base ∧
      pass.cloneId link = id
  owned : ∀ id, st.models.lookup id ≠ none → models.lookup id = none →
    ∃ key, st.synthesized.lookup key = some id

/-- The fold starts from the models of the configuration. -/
theorem owned_start (pass : FoldPass K) (models : List (String × ModelConfig K))
    (links : List (LinkConfig K)) : Owned pass models links { models := models } := by
  constructor
  · intro amount base id h
    cases h
  · exact fun id h hnone => absurd hnone h

/-- Where ids are free, an entry under the id of a link belongs to the link's own key. -/
theorem Owned.not_taken (hfresh : FreshIds pass models links) (h : Owned pass models links st)
    (hlink : link ∈ links) : ¬ pass.Taken st link := by
  rintro ⟨hfolds, hnew, hsome⟩
  obtain ⟨⟨amount, id⟩, hkey⟩ := h.owned _ hsome (hfresh.user link hlink hfolds)
  obtain ⟨other, hother, hofolds, rfl, rfl, hid⟩ := h.cached _ _ _ hkey
  obtain ⟨hamount, hmodel⟩ := hfresh.pairs other hother link hlink hofolds hfolds hid
  rw [hamount, hmodel, hnew] at hkey
  cases hkey

/-- A new entry of the models belongs to a key of the cache. -/
theorem foldLink_owned (h : Owned pass models links st) (hlink : link ∈ links) :
    Owned pass models links (pass.foldLink st link).1 := by
  rcases foldLink_cases pass st link with
    ⟨-, heq⟩ | ⟨-, id, -, heq⟩ | ⟨-, -, heq⟩ | ⟨hfolds, hnew, base, hbase, heq⟩
  · rwa [heq]
  · rwa [heq]
  · rwa [heq]
  · rw [heq]
    constructor
    · intro amount name id hid
      rw [lookup_entered pass hnew] at hid
      split_ifs at hid with hkey
      · obtain ⟨rfl, rfl⟩ := Prod.mk.inj hkey
        exact ⟨link, hlink, hfolds, rfl, rfl, Option.some.inj hid⟩
      · exact h.cached amount name id hid
    · intro id hid hnone
      by_cases hself : id = pass.cloneId link
      · subst hself
        exact ⟨(pass.amount link, link.model), by rw [lookup_entered pass hnew, if_pos rfl]⟩
      · have hold : st.models.lookup id ≠ none := by
          rwa [entered, lookup_emplace_of_ne hself] at hid
        obtain ⟨key, hkey⟩ := h.owned id hold hnone
        refine ⟨key, ?_⟩
        rw [lookup_entered pass hnew, if_neg ?_]
        · exact hkey
        · rintro rfl
          rw [hnew] at hkey
          cases hkey

/-- **Free ids are never taken.** -/
theorem foldLinks_owned (hfresh : FreshIds pass models links) {rest : List (LinkConfig K)}
    (hrest : ∀ link ∈ rest, link ∈ links) (h : Owned pass models links st)
    (wanted : ModelConfig K → Bool) :
    Owned pass models links (pass.foldLinks st rest).1 ∧ pass.ClonesEnter wanted st rest := by
  induction rest generalizing st with
  | nil => exact ⟨h, trivial⟩
  | cons link rest ih =>
      have hlink := hrest link List.mem_cons_self
      obtain ⟨howned, henter⟩ :=
        ih (fun l hl => hrest l (List.mem_cons_of_mem link hl)) (foldLink_owned h hlink)
      rw [foldLinks_cons]
      exact ⟨howned, fun _ => h.not_taken hfresh hlink, henter⟩

end Run

end FoldPass

/-! ## One pass over a configuration -/

namespace FoldPass

section Config

variable {K : Type} [DecidableEq K] {pass : FoldPass K} {config : TopologyConfig K}

/-- The amount that a link is folded by, if it is. -/
def effect (pass : FoldPass K) (link : LinkConfig K) : Option K :=
  if pass.skips (pass.amount link) then none else some (pass.amount link)

omit [DecidableEq K] in
/-- A link is folded when it has an effect. -/
theorem folds_iff (pass : FoldPass K) (link : LinkConfig K) :
    pass.Folds link ↔ pass.effect link = some (pass.amount link) := by
  unfold Folds effect
  cases pass.skips (pass.amount link) <;> simp

/-- A fold changes the models of the links only. -/
theorem run_renamed (pass : FoldPass K) (config : TopologyConfig K) :
    List.Forall₂ Renamed config.links (pass.run config).links :=
  foldLinks_renamed pass _ config.links

/-- A fold keeps every model. -/
theorem run_kept (pass : FoldPass K) {id : String} {model : ModelConfig K}
    (h : config.findModel id = some model) : (pass.run config).findModel id = some model :=
  foldLinks_kept pass { models := config.models } config.links h

/-- What a fold makes of a link whose model exists. -/
structure Cloned (pass : FoldPass K) (config : TopologyConfig K) (link link' : LinkConfig K)
    (base : ModelConfig K) : Prop where
  skipped : pass.effect link = none → link' = link
  model : ∀ amount, pass.effect link = some amount → (pass.run config).findModel link'.model =
    some { pass.change amount base with id := link'.model }

/-- The state that a fold of the configuration ends with. -/
def final (pass : FoldPass K) (config : TopologyConfig K) : FoldState K :=
  (pass.foldLinks { models := config.models } config.links).1

/-- Every link ends at the model that the final cache names. -/
theorem run_target (pass : FoldPass K) (config : TopologyConfig K) :
    List.Forall₂ (pass.Target config.models (pass.final config)) config.links
      (pass.run config).links :=
  (foldLinks_target (entered_start pass config.models fun _ => true).kept config.links).2

/-- Free ids are owned by keys of the cache and are never taken. -/
theorem run_owned (hfresh : FreshIds pass config.models config.links)
    (wanted : ModelConfig K → Bool) :
    Owned pass config.models config.links (pass.final config) ∧
      pass.ClonesEnter wanted { models := config.models } config.links :=
  foldLinks_owned hfresh (fun _ h => h) (owned_start pass config.models config.links) wanted

omit [DecidableEq K] in
/-- The effect of a link is its amount. -/
theorem effect_eq_some {link : LinkConfig K} {amount : K} (h : pass.effect link = some amount) :
    pass.Folds link ∧ pass.amount link = amount := by
  unfold effect at h
  split_ifs at h with hskip
  exact ⟨Bool.eq_false_of_not_eq_true hskip, Option.some.inj h⟩

/-- A link without effect stays. -/
theorem skipped_of_target {st : FoldState K} {link link' : LinkConfig K}
    (htarget : pass.Target config.models st link link') (h : pass.effect link = none) :
    link' = link := by
  refine htarget.1 ?_
  rw [folds_iff, h]
  exact fun h => Option.some_ne_none _ h.symm

/-- The cache names the model of a folded link. -/
theorem cached_of_target {st : FoldState K} {link link' : LinkConfig K} {base : ModelConfig K}
    (htarget : pass.Target config.models st link link')
    (hbase : config.findModel link.model = some base) (hfolds : pass.Folds link) :
    st.synthesized.lookup (pass.amount link, link.model) = some link'.model := by
  refine htarget.2 hfolds ?_
  rw [show config.models.lookup link.model = some base from hbase]
  exact Option.some_ne_none base

/-- A link of a wanted model, where every clone is entered. -/
theorem cloned_of_target {wanted : ModelConfig K → Bool}
    (henter : pass.ClonesEnter wanted { models := config.models } config.links)
    {link link' : LinkConfig K} (htarget : pass.Target config.models (pass.final config) link link')
    {base : ModelConfig K} (hbase : config.findModel link.model = some base)
    (hwanted : wanted base = true) : Cloned pass config link link' base := by
  have hentered := foldLinks_entered (entered_start pass config.models wanted) henter
  refine ⟨skipped_of_target htarget, ?_⟩
  intro amount heffect
  obtain ⟨hfolds, rfl⟩ := effect_eq_some heffect
  exact hentered.clones _ _ _ (cached_of_target htarget hbase hfolds) base hbase hwanted

/-- A folded link leaves the models of the configuration. -/
theorem fresh_of_target {st : FoldState K} (hfresh : FreshIds pass config.models config.links)
    (howned : Owned pass config.models config.links st) {link link' : LinkConfig K}
    (htarget : pass.Target config.models st link link') {base : ModelConfig K}
    (hbase : config.findModel link.model = some base) {amount : K}
    (heffect : pass.effect link = some amount) : config.findModel link'.model = none := by
  obtain ⟨hfolds, rfl⟩ := effect_eq_some heffect
  obtain ⟨owner, howner, hofolds, -, -, hid⟩ :=
    howned.cached _ _ _ (cached_of_target htarget hbase hfolds)
  rw [← hid]
  exact hfresh.user owner howner hofolds

/-- Two links end at one model exactly when they start at one model and are folded alike. -/
theorem model_eq_iff {st : FoldState K} (hfresh : FreshIds pass config.models config.links)
    (howned : Owned pass config.models config.links st) {a b a' b' : LinkConfig K}
    (ha : pass.Target config.models st a a') (hb : pass.Target config.models st b b')
    {base base' : ModelConfig K} (hbase : config.findModel a.model = some base)
    (hbase' : config.findModel b.model = some base') :
    a'.model = b'.model ↔ a.model = b.model ∧ pass.effect a = pass.effect b := by
  cases hea : pass.effect a with
  | none =>
      rw [skipped_of_target ha hea]
      cases heb : pass.effect b with
      -- a skipped link keeps its model, a folded one gets an id that no model had
      | none =>
          rw [skipped_of_target hb heb]
          simp
      | some amount =>
          have hnone := fresh_of_target hfresh howned hb hbase' heb
          constructor
          · intro heq
            rw [← heq, hbase] at hnone
            cases hnone
          · rintro ⟨-, hcontra⟩
            cases hcontra
  | some amount =>
      have hnone := fresh_of_target hfresh howned ha hbase hea
      cases heb : pass.effect b with
      | none =>
          rw [skipped_of_target hb heb]
          constructor
          · intro heq
            rw [heq, hbase'] at hnone
            cases hnone
          · rintro ⟨-, hcontra⟩
            cases hcontra
      | some amount' =>
          obtain ⟨hafolds, rfl⟩ := effect_eq_some hea
          obtain ⟨hbfolds, rfl⟩ := effect_eq_some heb
          have hca := cached_of_target ha hbase hafolds
          have hcb := cached_of_target hb hbase' hbfolds
          constructor
          -- one id for both: the pair printed is the same
          · intro heq
            obtain ⟨x, hx, hxfolds, hxa, hxm, hxid⟩ := howned.cached _ _ _ hca
            obtain ⟨y, hy, hyfolds, hya, hym, hyid⟩ := howned.cached _ _ _ hcb
            obtain ⟨hamount, hmodel⟩ := hfresh.pairs x hx y hy hxfolds hyfolds
              ((hxid.trans heq).trans hyid.symm)
            rw [← hxm, ← hym, ← hxa, ← hya, hamount, hmodel]
            exact ⟨rfl, rfl⟩
          -- one pair for both: the cache answers with the same clone
          · rintro ⟨hmodel, hamount⟩
            rw [hmodel, Option.some.inj hamount, hcb] at hca
            exact (Option.some.inj hca).symm

end Config

end FoldPass
