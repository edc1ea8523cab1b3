/-
# A batch commit against the slots of its links

`handle_batch_commit` stores its ops one after the other, each with a sequence-number bump
of its own, while the data plane goes on with its slots.  A step of the system is here one
store of the commit or one whole snap of one link.

The ops of a link are live from one slot on when no snap of the link falls due between two
of them, and always when they stand behind a gate that the link has not reached by then.
A snap that falls due in between takes the first ops and leaves the rest to the next slot.
-/
import GpuChannel.SharedInvariant
import GpuChannel.BatchIsolation

/-! ## The commit and the slots -/

/-- **A commit in progress.** `writes` is what it has still to store.  `finished` only records
the history: the next slot of a link when the last store of its ops was made. -/
structure Committing (K : Type) where
  links : LinkTable K
  writes : List (String × Store K)
  finished : String → Option ℕ

/-- One store of the control thread, or one snap of one link. -/
inductive CommitStep
  | write
  | slot (linkId : String) (count : ℕ)
  deriving DecidableEq, Repr

/-- The apply loop of `handle_batch_commit`; an op whose link is not in the map is skipped. -/
def commitWrites {K : Type} (links : LinkTable K) (gate : ℕ) (ops : List (StagedOp K)) :
    List (String × Store K) :=
  (ops.filter fun op => (links op.linkId).isSome).flatMap fun op =>
    (Commit.gatedStores gate op.update).map fun st => (op.linkId, st)

/-- What is stored to one link. -/
def storesTo {K : Type} (linkId : String) (writes : List (String × Store K)) : List (Store K) :=
  (writes.filter (·.1 = linkId)).map (·.2)

/-- The updates that a batch has for one link. -/
def updatesFor {K : Type} (linkId : String) (ops : List (StagedOp K)) : List (Update K) :=
  (ops.filter (·.linkId = linkId)).map (·.update)

namespace Committing

variable {K : Type}

def start (links : LinkTable K) (gate : ℕ) (ops : List (StagedOp K)) : Committing K :=
  { links := links, writes := commitWrites links gate ops, finished := fun _ => none }

/-- The next store of the commit. -/
def writeStep (s : Committing K) : Committing K :=
  match s.writes with
  | [] => s
  | (linkId, st) :: rest =>
      { links := Function.update s.links linkId
          ((s.links linkId).map fun link => { link with control := st.exec link.control })
        writes := rest
        finished :=
          if (storesTo linkId rest).isEmpty then
            Function.update s.finished linkId ((s.links linkId).map (·.nextSlot))
          else s.finished }

def step [Field K] [LinearOrder K] [FloorRing K] (s : Committing K) : CommitStep → Committing K
  | .write => s.writeStep
  | .slot linkId count =>
      { s with links :=
          Function.update s.links linkId ((s.links linkId).map fun link => (link.snap count).1) }

/-- **A whole step** for a link: a snap of it that falls due finds all its ops stored. -/
def Whole (linkId : String) (s : Committing K) : CommitStep → Prop
  | .write => True
  | .slot id _ => id = linkId →
      ((s.links linkId).any (·.due)) = true → (storesTo linkId s.writes).isEmpty = true

instance (linkId : String) (s : Committing K) : DecidablePred (s.Whole linkId) := fun a => by
  cases a <;> unfold Whole <;> infer_instance

end Committing

/-- The view of a link that takes `us` whole in the first slot from `gate` on after the last
of them was stored, at slot `finished`. -/
def wholeView {K : Type} (v : LiveView K) (us : List (Update K)) (gate : ℕ)
    (finished : Option ℕ) (nextSlot : ℕ) : LiveView K :=
  match finished with
  | none => v
  | some n => if nextSlot ≤ max gate n then v else us.foldl LiveView.apply v

/-! ## What is stored to one link -/

section Stores

variable {K : Type}

/-- A store to the link is one of its stores. -/
theorem storesTo_cons_self (linkId : String) (st : Store K) (rest : List (String × Store K)) :
    storesTo linkId ((linkId, st) :: rest) = st :: storesTo linkId rest := by
  rw [storesTo, List.filter_cons_of_pos (by simp)]
  rfl

/-- A store to another link is not. -/
theorem storesTo_cons_of_ne {id linkId : String} (h : id ≠ linkId) (st : Store K)
    (rest : List (String × Store K)) : storesTo linkId ((id, st) :: rest) = storesTo linkId rest := by
  rw [storesTo, List.filter_cons_of_neg (by simpa using h)]
  rfl

/-- The stores to a link of two runs of stores. -/
theorem storesTo_append (linkId : String) (a b : List (String × Store K)) :
    storesTo linkId (a ++ b) = storesTo linkId a ++ storesTo linkId b := by
  rw [storesTo, List.filter_append, List.map_append]
  rfl

/-- The stores of one op, seen from one link. -/
theorem storesTo_op (id linkId : String) (stores : List (Store K)) :
    storesTo linkId (stores.map fun st => (id, st)) = if id = linkId then stores else [] := by
  induction stores with
  | nil => simp [storesTo]
  | cons st stores ih =>
      rw [List.map_cons]
      by_cases h : id = linkId
      · subst h
        rw [storesTo_cons_self, ih, if_pos rfl, if_pos rfl]
      · rw [storesTo_cons_of_ne h, ih, if_neg h, if_neg h]

/-- The writes of a commit are the writes of its ops, where the link is there. -/
theorem commitWrites_cons (links : LinkTable K) (gate : ℕ) (op : StagedOp K)
    (ops : List (StagedOp K)) : commitWrites links gate (op :: ops) =
      (if (links op.linkId).isSome then
        (Commit.gatedStores gate op.update).map fun st => (op.linkId, st) else []) ++
        commitWrites links gate ops := by
  cases hknown : (links op.linkId).isSome
  · rw [commitWrites, List.filter_cons_of_neg (by simp [hknown])]
    rfl
  · rw [commitWrites, List.filter_cons_of_pos (by simpa using hknown)]
    rfl

/-- To a link that exists, the commit is a batch of the updates for it. -/
theorem storesTo_commitWrites {links : LinkTable K} {linkId : String}
    (h : (links linkId).isSome = true) (gate : ℕ) (ops : List (StagedOp K)) :
    storesTo linkId (commitWrites links gate ops) =
      (Commit.batch gate (updatesFor linkId ops)).stores := by
  induction ops with
  | nil => rfl
  | cons op ops ih =>
      rw [commitWrites_cons, storesTo_append, ih]
      by_cases hid : op.linkId = linkId
      · have hu : updatesFor linkId (op :: ops) = op.update :: updatesFor linkId ops := by
          rw [updatesFor, List.filter_cons_of_pos (by simpa using hid)]
          rfl
        rw [hid, if_pos h, storesTo_op, if_pos rfl, hu]
        rfl
      · have hu : updatesFor linkId (op :: ops) = updatesFor linkId ops := by
          rw [updatesFor, List.filter_cons_of_neg (by simpa using hid)]
          rfl
        have hnone : storesTo linkId (if (links op.linkId).isSome then
            (Commit.gatedStores gate op.update).map fun st => (op.linkId, st) else []) = [] := by
          split_ifs
          · rw [storesTo_op, if_neg hid]
          · rfl
        rw [hnone, hu, List.nil_append]

/-- Where a store leaves the gate: at `gate`, or where it was. -/
def Store.gates (gate : ℕ) : Store K → Bool
  | .gate slot => slot = gate
  | _ => true

/-- No payload store touches the gate. -/
theorem gates_payloadStores (gate : ℕ) (u : Update K) :
    ∀ st ∈ payloadStores u, Store.gates gate st = true := by
  intro st hst
  have hpay : st.payload = true := by
    rw [← filter_payloadStores] at hst
    exact (List.mem_filter.mp hst).2
  cases st <;> first | rfl | exact absurd hpay Bool.noConfusion

/-- No store of a batch sets another gate than the batch's. -/
theorem gates_batch (gate : ℕ) (us : List (Update K)) :
    ∀ st ∈ (Commit.batch gate us).stores, Store.gates gate st = true := by
  intro st hst
  obtain ⟨u, -, hst⟩ := List.mem_flatMap.mp hst
  rcases List.mem_append.mp hst with hst | hst
  · rcases List.mem_cons.mp hst with rfl | hst
    · exact decide_eq_true rfl
    · exact gates_payloadStores gate u st hst
  · rw [List.mem_singleton.mp hst]
    rfl

/-- Stores of one gate leave the gate in place. -/
theorem takeEffectAtSlot_foldl {gate : ℕ} {stores : List (Store K)}
    (h : ∀ st ∈ stores, Store.gates gate st = true) {ctl : BrokerLinkControl K}
    (hctl : ctl.takeEffectAtSlot = gate) :
    (stores.foldl Store.exec ctl).takeEffectAtSlot = gate := by
  induction stores generalizing ctl with
  | nil => exact hctl
  | cons st stores ih =>
      refine ih (fun x hx => h x (List.mem_cons_of_mem st hx)) ?_
      have hst := h st List.mem_cons_self
      cases st <;> first | exact of_decide_eq_true hst | exact hctl

/-- From its first store on, a batch has its gate in place. -/
theorem takeEffectAtSlot_of_started {gate : ℕ} {us : List (Update K)} {done rest : List (Store K)}
    (hsplit : done ++ rest = (Commit.batch gate us).stores) (hne : done ≠ [])
    (ctl : BrokerLinkControl K) : (done.foldl Store.exec ctl).takeEffectAtSlot = gate := by
  have hall : ∀ st ∈ done, Store.gates gate st = true := fun st hst =>
    gates_batch gate us st (hsplit ▸ List.mem_append_left rest hst)
  cases us with
  | nil => exact absurd (List.append_eq_nil_iff.mp hsplit).1 hne
  | cons u us =>
      cases done with
      | nil => exact absurd rfl hne
      | cons st done =>
          obtain ⟨rfl, -⟩ := List.cons.inj hsplit
          exact takeEffectAtSlot_foldl (fun x hx => hall x (List.mem_cons_of_mem _ hx)) rfl

/-- Every op of a commit raises the sequence number by one. -/
theorem seqno_foldl_publish (gate : ℕ) (us : List (Update K)) {ctl : BrokerLinkControl K}
    (h : ctl.seqno < 2 ^ 32) :
    (us.foldl (fun ctl u => ctl.publish gate u) ctl).seqno = (ctl.seqno + us.length) % 2 ^ 32 := by
  induction us generalizing ctl with
  | nil => exact (Nat.mod_eq_of_lt h).symm
  | cons u us ih =>
      rw [List.foldl_cons, ih (Nat.mod_lt _ (Nat.two_pow_pos 32)),
        BrokerLinkControl.publish_seqno, Nat.mod_add_mod, List.length_cons, Nat.add_assoc,
        Nat.add_comm 1]

/-- A store and the broker's slot counter do not touch. -/
theorem exec_currentSlot (st : Store K) (ctl : BrokerLinkControl K) (c : ℕ) :
    st.exec { ctl with currentSlot := c } = { st.exec ctl with currentSlot := c } := by
  cases st <;> rfl

end Stores

/-! ## One link through a commit -/

section Link

variable {K : Type}

/-- Nothing is outstanding: all accepted content is live. -/
structure PhysicalLinkRuntime.Settled (link : PhysicalLinkRuntime K) : Prop where
  seqno : link.control.seqno = link.liveSeqno
  small : link.liveSeqno < 2 ^ 32
  staged : link.staged = link.view
  pending : link.Pending

/-- `link` is `link₀` after the stores `done` and slots that took none of them. -/
def Untaken (link₀ link : PhysicalLinkRuntime K) (done : List (Store K)) : Prop :=
  ∃ currentSlot nextSlot warmup, link =
    { link₀ with
      control := { done.foldl Store.exec link₀.control with currentSlot := currentSlot }
      nextSlot := nextSlot
      warmupUntilSlot := warmup }

/-- **How far a commit has come with one link.** `rest` is what is still to store to it; the
last case is possible only where `torn` allows it. -/
inductive CommitPhase (torn : Prop) (link₀ : PhysicalLinkRuntime K) (gate : ℕ)
    (us : List (Update K)) (link : PhysicalLinkRuntime K) (rest : List (Store K)) :
    Option ℕ → Prop
  /-- Some ops may be stored and none is taken. -/
  | storing {done : List (Store K)} (hsplit : done ++ rest = (Commit.batch gate us).stores)
      (huntaken : Untaken link₀ link done) (hrest : rest ≠ [] ∨ us = []) :
      CommitPhase torn link₀ gate us link rest none
  /-- All ops are stored and wait for the gate. -/
  | held {n : ℕ} (hrest : rest = []) (hne : us ≠ [])
      (huntaken : Untaken link₀ link (Commit.batch gate us).stores)
      (hfrom : n ≤ link.nextSlot) (hto : link.nextSlot ≤ max gate n) :
      CommitPhase torn link₀ gate us link rest (some n)
  /-- All ops were taken in one slot. -/
  | taken {n : ℕ} (hrest : rest = []) (hafter : max gate n < link.nextSlot)
      (hview : link.view = us.foldl LiveView.apply link₀.view)
      (hseqno : link.control.seqno = link.liveSeqno) :
      CommitPhase torn link₀ gate us link rest (some n)
  /-- A snap fell due between two ops. -/
  | torn {finished : Option ℕ} (htorn : torn) (hgate : gate < link.nextSlot)
      (hlate : ∀ n, finished = some n → gate < n) :
      CommitPhase torn link₀ gate us link rest finished

variable {torn : Prop} {link₀ link : PhysicalLinkRuntime K} {gate : ℕ} {us : List (Update K)}
  {done rest : List (Store K)} {finished : Option ℕ}

/-- A link that has not taken the commit shows the view from before. -/
theorem Untaken.view (h : Untaken link₀ link done) : link.view = link₀.view := by
  obtain ⟨c, n, w, rfl⟩ := h
  rfl

/-- A link that has not taken the commit is at the sequence number from before. -/
theorem Untaken.liveSeqno (h : Untaken link₀ link done) : link.liveSeqno = link₀.liveSeqno := by
  obtain ⟨c, n, w, rfl⟩ := h
  rfl

/-- The sequence number is what the stores done so far made of it. -/
theorem Untaken.seqno (h : Untaken link₀ link done) :
    link.control.seqno = (done.foldl Store.exec link₀.control).seqno := by
  obtain ⟨c, n, w, rfl⟩ := h
  rfl

/-- The gate is what the stores done so far made of it. -/
theorem Untaken.takeEffectAtSlot (h : Untaken link₀ link done) :
    link.control.takeEffectAtSlot = (done.foldl Store.exec link₀.control).takeEffectAtSlot := by
  obtain ⟨c, n, w, rfl⟩ := h
  rfl

/-- The content is what the stores done so far made of it. -/
theorem Untaken.content (h : Untaken link₀ link done) :
    link.control.content = (done.foldl Store.exec link₀.control).content := by
  obtain ⟨c, n, w, rfl⟩ := h
  rfl

/-- One more store, and the link has still not taken the commit. -/
theorem Untaken.store (h : Untaken link₀ link done) (st : Store K) :
    Untaken link₀ { link with control := st.exec link.control } (done ++ [st]) := by
  obtain ⟨c, n, w, rfl⟩ := h
  refine ⟨c, n, w, ?_⟩
  rw [List.foldl_append]
  dsimp only
  rw [exec_currentSlot]
  rfl

/-- A snap that is not due does not take the commit. -/
theorem Untaken.snap_of_not_due [LinearOrder K] [Field K] [FloorRing K] (h : Untaken link₀ link done) (count : ℕ)
    (hdue : link.due = false) : Untaken link₀ (link.snap count).1 done := by
  obtain ⟨w, hw⟩ := link.snap_of_not_due count hdue
  obtain ⟨c, n, w', rfl⟩ := h
  exact ⟨_, _, w, hw⟩

/-- Before the first store there is nothing to take. -/
theorem Untaken.not_due_of_nil (h : Untaken link₀ link []) (hs : link₀.Settled) :
    link.due = false := by
  by_contra hdue
  rw [Bool.not_eq_false, PhysicalLinkRuntime.due_iff, h.seqno, h.liveSeqno] at hdue
  exact hdue.1 hs.seqno

/-- A due snap found the gate of the batch open. -/
theorem Untaken.gate_of_due (h : Untaken link₀ link done) (hs : link₀.Settled)
    (hsplit : done ++ rest = (Commit.batch gate us).stores) (hdue : link.due = true) :
    gate ≤ link.nextSlot := by
  have hne : done ≠ [] := by
    rintro rfl
    rw [h.not_due_of_nil hs] at hdue
    exact Bool.false_ne_true hdue
  have hopen := (link.due_iff.mp hdue).2
  rwa [h.takeEffectAtSlot, takeEffectAtSlot_of_started hsplit hne] at hopen

/-- With all ops stored, the next due snap takes them all. -/
theorem Untaken.staged (h : Untaken link₀ link (Commit.batch gate us).stores)
    (hs : link₀.Settled) (hacc : ∀ u ∈ us, link₀.Accepts u) :
    link.staged = us.foldl LiveView.apply link₀.view ∧ link.Pending := by
  obtain ⟨hst, hpending⟩ := link₀.foldl_publish gate us hs.pending hacc
  have hcontent : link.control.content =
      (us.foldl (fun ctl u => ctl.publish gate u) link₀.control).content :=
    h.content.trans (congrArg BrokerLinkControl.content (Commit.stores_exec (.batch gate us) _))
  obtain ⟨c, n, w, rfl⟩ := h
  constructor
  · rw [← hs.staged, ← hst]
    exact PhysicalLinkRuntime.staged_congr hcontent rfl rfl
  · exact hpending.congr hcontent.symm rfl

/-- With all ops stored, a snap that is not due stands before the gate. -/
theorem Untaken.gate_of_not_due (h : Untaken link₀ link (Commit.batch gate us).stores)
    (hs : link₀.Settled) (hne : us ≠ []) (hfew : us.length < 2 ^ 32) (hdue : link.due = false) :
    link.nextSlot < gate := by
  have hseqno : link.control.seqno ≠ link.liveSeqno := by
    have hall : link.control.seqno =
        (us.foldl (fun ctl u => ctl.publish gate u) link₀.control).seqno :=
      h.seqno.trans (congrArg BrokerLinkControl.seqno (Commit.stores_exec (.batch gate us) _))
    have hpos := List.length_pos_iff.mpr hne
    have hsmall := hs.small
    rw [hall, h.liveSeqno, seqno_foldl_publish gate us (hs.seqno ▸ hsmall), hs.seqno]
    omega
  have hstarted : (Commit.batch gate us).stores ≠ [] := by
    intro hnil
    rw [hnil] at h
    exact hseqno (h.seqno.trans (hs.seqno.trans h.liveSeqno.symm))
  have hgate := takeEffectAtSlot_of_started (List.append_nil _) hstarted link₀.control
  by_contra hlt
  refine Bool.false_ne_true (hdue.symm.trans (link.due_iff.mpr ⟨hseqno, ?_⟩))
  rw [h.takeEffectAtSlot, hgate]
  exact not_lt.mp hlt

/-- A commit starts with all of its stores to do. -/
theorem CommitPhase.start : CommitPhase torn link₀ gate us link₀
    (Commit.batch gate us).stores none := by
  refine .storing (List.nil_append _) ⟨_, _, _, rfl⟩ ?_
  cases us with
  | nil => exact Or.inr rfl
  | cons u us => exact Or.inl (List.cons_ne_nil _ _)

/-- One store to the link. -/
theorem CommitPhase.store {st : Store K}
    (h : CommitPhase torn link₀ gate us link (st :: rest) finished) :
    CommitPhase torn link₀ gate us { link with control := st.exec link.control } rest
      (if rest.isEmpty then some link.nextSlot else finished) := by
  cases h with
  | storing hsplit huntaken hrest =>
      have hne : us ≠ [] := by
        rintro rfl
        exact absurd (List.append_eq_nil_iff.mp hsplit).2 (List.cons_ne_nil st rest)
      rw [List.append_cons] at hsplit
      cases hrest' : rest with
      | nil =>
          rw [hrest', List.append_nil] at hsplit
          have hall := huntaken.store st
          rw [hsplit] at hall
          exact .held rfl hne hall le_rfl (le_max_right gate link.nextSlot)
      | cons st' rest' =>
          rw [hrest'] at hsplit
          exact .storing hsplit (huntaken.store st) (Or.inl (List.cons_ne_nil st' rest'))
  | held hrest => exact absurd hrest (List.cons_ne_nil st rest)
  | taken hrest => exact absurd hrest (List.cons_ne_nil st rest)
  | torn htorn hgate hlate =>
      refine .torn htorn hgate ?_
      intro n hn
      split_ifs at hn
      · rw [← Option.some.inj hn]
        exact hgate
      · exact hlate n hn

/-- One snap of the link.  A snap that takes some ops and not all of them tears the batch. -/
theorem CommitPhase.snap [LinearOrder K] [Field K] [FloorRing K] (hs : link₀.Settled) (hacc : ∀ u ∈ us, link₀.Accepts u)
    (hfew : us.length < 2 ^ 32) (h : CommitPhase torn link₀ gate us link rest finished) (count : ℕ)
    (hwhole : link.due = true → rest ≠ [] → torn) :
    CommitPhase torn link₀ gate us (link.snap count).1 rest finished := by
  cases h with
  | storing hsplit huntaken hrest =>
      cases hdue : link.due
      · exact .storing hsplit (huntaken.snap_of_not_due count hdue) hrest
      · have hgate := huntaken.gate_of_due hs hsplit hdue
        have hne : rest ≠ [] := by
          rcases hrest with hrest | rfl
          · exact hrest
          · -- a batch without ops for the link stores nothing to it
            rw [(List.append_eq_nil_iff.mp hsplit).1] at huntaken
            rw [huntaken.not_due_of_nil hs] at hdue
            exact absurd hdue Bool.false_ne_true
        refine .torn (hwhole hdue hne) ?_ (fun n hn => absurd hn (Option.some_ne_none n).symm)
        rw [PhysicalLinkRuntime.snap_nextSlot]
        omega
  | held hrest hne huntaken hfrom hto =>
      cases hdue : link.due
      · have hlt := huntaken.gate_of_not_due hs hne hfew hdue
        refine .held hrest hne (huntaken.snap_of_not_due count hdue) ?_ ?_
        · rw [PhysicalLinkRuntime.snap_nextSlot]
          omega
        · rw [PhysicalLinkRuntime.snap_nextSlot]
          omega
      · have hgate := huntaken.gate_of_due hs (List.append_nil _) hdue
        obtain ⟨hst, hpending⟩ := huntaken.staged hs hacc
        obtain ⟨hview, -, -, hlive⟩ := link.snap_of_due count hdue hpending
        refine .taken hrest ?_ (hview.trans hst) ?_
        · rw [PhysicalLinkRuntime.snap_nextSlot]
          omega
        · rw [PhysicalLinkRuntime.snap_seqno, hlive]
  | taken hrest hafter hview hseqno =>
      have hdue : link.due = false := by
        by_contra hdue
        rw [Bool.not_eq_false, PhysicalLinkRuntime.due_iff] at hdue
        exact hdue.1 hseqno
      obtain ⟨w, hw⟩ := link.snap_of_not_due count hdue
      rw [hw]
      exact .taken hrest (hafter.trans (Nat.lt_succ_self _)) hview hseqno
  | torn htorn hgate hlate =>
      refine .torn htorn ?_ hlate
      rw [PhysicalLinkRuntime.snap_nextSlot]
      omega

/-- A batch that is not torn is live whole. -/
theorem CommitPhase.view_of_whole (h : CommitPhase False link₀ gate us link rest finished) :
    link.view = wholeView link₀.view us gate finished link.nextSlot := by
  cases h with
  | storing _ huntaken => exact huntaken.view
  | held _ _ huntaken _ hto => rw [wholeView, if_pos hto, huntaken.view]
  | taken _ hafter hview => rw [wholeView, if_neg (by omega), hview]
  | torn htorn => exact htorn.elim

/-- Behind a gate that the link has not reached when its last op is stored, a batch is never
torn. -/
theorem CommitPhase.view_of_gate {n : ℕ}
    (h : CommitPhase torn link₀ gate us link rest (some n)) (hn : n ≤ gate) :
    link.view = wholeView link₀.view us gate (some n) link.nextSlot := by
  cases h with
  | held _ _ huntaken _ hto => rw [wholeView, if_pos hto, huntaken.view]
  | taken _ hafter hview => rw [wholeView, if_neg (by omega), hview]
  | torn _ _ hlate => exact absurd (hlate n rfl) (by omega)

end Link

/-! ## Runs -/

section Runs

variable {K : Type} [Field K] [LinearOrder K] [FloorRing K]

/-- The commit has come as far with the link as its phase says. -/
def Committing.Tracks (torn : Prop) (linkId : String) (link₀ : PhysicalLinkRuntime K) (gate : ℕ)
    (us : List (Update K)) (s : Committing K) : Prop :=
  ∃ link, s.links linkId = some link ∧
    CommitPhase torn link₀ gate us link (storesTo linkId s.writes) (s.finished linkId)

namespace Committing

variable {torn : Prop} {linkId : String} {link₀ : PhysicalLinkRuntime K} {gate : ℕ}
  {us : List (Update K)} {s : Committing K}

omit [Field K] [LinearOrder K] [FloorRing K] in
/-- A run that starts tracks the commit of its link. -/
theorem start_tracks {links : LinkTable K} (hlink : links linkId = some link₀) (gate : ℕ)
    (ops : List (StagedOp K)) :
    Tracks torn linkId link₀ gate (updatesFor linkId ops) (start links gate ops) := by
  refine ⟨link₀, hlink, ?_⟩
  change CommitPhase torn link₀ gate _ link₀ (storesTo linkId (commitWrites links gate ops)) none
  rw [storesTo_commitWrites (by rw [hlink]; rfl)]
  exact CommitPhase.start

omit [Field K] [LinearOrder K] [FloorRing K] in
/-- A store of the commit keeps track of it. -/
theorem write_tracks (h : Tracks torn linkId link₀ gate us s) :
    Tracks torn linkId link₀ gate us s.writeStep := by
  obtain ⟨link, hlink, hphase⟩ := h
  unfold writeStep
  cases hw : s.writes with
  | nil => exact ⟨link, hlink, hphase⟩
  | cons w rest =>
      obtain ⟨id, st⟩ := w
      rw [hw] at hphase
      by_cases hid : id = linkId
      · subst hid
        rw [storesTo_cons_self] at hphase
        refine ⟨{ link with control := st.exec link.control }, ?_, ?_⟩
        · simp [hlink]
        · have hstored := hphase.store
          cases hempty : (storesTo id rest).isEmpty
          · rw [hempty] at hstored
            simpa [hempty] using hstored
          · rw [hempty] at hstored
            simpa [hempty, hlink] using hstored
      · rw [storesTo_cons_of_ne hid] at hphase
        refine ⟨link, ?_, ?_⟩
        · simp [Ne.symm hid, hlink]
        · have hfin : (if (storesTo id rest).isEmpty then
              Function.update s.finished id ((s.links id).map (·.nextSlot))
              else s.finished) linkId = s.finished linkId := by
            split_ifs
            · exact Function.update_of_ne (Ne.symm hid) _ _
            · rfl
          dsimp only
          rwa [hfin]

/-- **Every step keeps track of the commit**: a store, or a snap that finds it whole. -/
theorem step_tracks (hs : link₀.Settled) (hacc : ∀ u ∈ us, link₀.Accepts u)
    (hfew : us.length < 2 ^ 32) (h : Tracks torn linkId link₀ gate us s) (a : CommitStep)
    (hwhole : s.Whole linkId a ∨ torn) : Tracks torn linkId link₀ gate us (s.step a) := by
  cases a with
  | write => exact write_tracks h
  | slot id count =>
      obtain ⟨link, hlink, hphase⟩ := h
      by_cases hid : id = linkId
      · subst hid
        refine ⟨(link.snap count).1, ?_, hphase.snap hs hacc hfew count ?_⟩
        · simp [step, hlink]
        · intro hdue hne
          refine hwhole.resolve_left ?_
          intro hw
          have hempty := hw rfl (by rw [hlink]; exact hdue)
          exact hne (List.isEmpty_iff.mp hempty)
      · refine ⟨link, ?_, hphase⟩
        simp [step, Ne.symm hid, hlink]

end Committing

/-- Without a slot in between, each link gets its own stores. -/
theorem Committing.links_of_writes (linkId : String) (writes : List (String × Store K))
    (s : Committing K) (h : s.writes = writes) :
    ((List.replicate writes.length CommitStep.write).foldl Committing.step s).links linkId =
      (s.links linkId).map fun link =>
        { link with control := (storesTo linkId writes).foldl Store.exec link.control } := by
  induction writes generalizing s with
  | nil =>
      cases hl : s.links linkId with
      | none => simp [hl]
      | some link => simp [hl, storesTo]
  | cons w rest ih =>
      obtain ⟨id, st⟩ := w
      rw [List.length_cons, List.replicate_succ, List.foldl_cons]
      have hstep : s.step .write = s.writeStep := rfl
      have hrest : s.writeStep.writes = rest := by
        unfold writeStep
        rw [h]
      have hlinks : s.writeStep.links = Function.update s.links id
          ((s.links id).map fun link => { link with control := st.exec link.control }) := by
        unfold writeStep
        rw [h]
      rw [hstep, ih s.writeStep hrest, hlinks]
      by_cases hid : id = linkId
      · subst hid
        rw [Function.update_self, storesTo_cons_self, Option.map_map]
        rfl
      · rw [Function.update_of_ne (Ne.symm hid), storesTo_cons_of_ne hid]

omit [Field K] [LinearOrder K] [FloorRing K] in
/-- What a handled commit publishes to a link that exists. -/
theorem publishTo_known {links : LinkMap K} {linkId : String}
    (h : (links linkId).isSome = true) (gate : ℕ) (ops : List (StagedOp K))
    (link : PhysicalLinkRuntime K) :
    LinkTable.publishTo linkId ((ops.filter fun op => (links op.linkId).isSome).map fun op =>
        (⟨op.linkId, gate, op.update⟩ : Publication K)) link =
      { link with
        control := (updatesFor linkId ops).foldl (fun ctl u => ctl.publish gate u) link.control } := by
  have hfilter : (((ops.filter fun op => (links op.linkId).isSome).map fun op =>
      (⟨op.linkId, gate, op.update⟩ : Publication K)).filter (·.linkId = linkId)) =
        (updatesFor linkId ops).map fun u => ⟨linkId, gate, u⟩ := by
    induction ops with
    | nil => rfl
    | cons op ops ih =>
        by_cases hid : op.linkId = linkId
        · simpa [updatesFor, List.filter_cons, h, hid] using ih
        · cases hop : (links op.linkId).isSome <;>
            simpa [updatesFor, List.filter_cons, hop, hid] using ih
  rw [LinkTable.publishTo, hfilter]
  generalize updatesFor linkId ops = us
  induction us generalizing link with
  | nil => rfl
  | cons u us ih => exact ih (link.publish gate u)

/-- **A commit that no slot interrupts** leaves the links as the handled message does. -/
theorem commit_uninterrupted [Libm K] (plane : ControlPlane K) (fields : JsonObject K)
    {bid : String} {ops : List (StagedOp K)} {gate : ℕ}
    (htype : getString fields "type" "scalar" = .ok "batch_commit")
    (hreq : commitRequest plane.server fields = .ok (bid, ops, gate)) (linkId : String) :
    ((List.replicate (commitWrites plane.links gate ops).length CommitStep.write).foldl
      Committing.step (Committing.start plane.links gate ops)).links linkId =
        (plane.step (.message fields)).links linkId := by
  have hpublished : (plane.handled fields).published =
      (ops.filter fun op => (plane.links.linkMap op.linkId).isSome).map fun op =>
        ⟨op.linkId, gate, op.update⟩ := by
    have hreq' : commitRequest { plane.server with msgsReceived := plane.server.msgsReceived + 1 }
        fields = .ok (bid, ops, gate) := hreq
    simp [ControlPlane.handled, handleMessage, dispatch, htype, handleBatchCommit, hreq']
  have hrun := Committing.links_of_writes linkId (commitWrites plane.links gate ops)
    (Committing.start plane.links gate ops) rfl
  rw [hrun, ControlPlane.step_message_links, hpublished]
  change (plane.links linkId).map _ = _
  cases hlink : plane.links linkId with
  | none => rfl
  | some link =>
      have hknown : (plane.links.linkMap linkId).isSome = true := by
        rw [LinkTable.linkMap, hlink]
        rfl
      rw [storesTo_commitWrites (by rw [hlink]; rfl), Option.map_some, Option.map_some,
        Commit.stores_exec, publishTo_known hknown]
      rfl

/-- **A commit against the slots of a link.** In a run in which every snap of the link that falls
due finds all the ops of the link stored, they are live from one slot on: the first from the
gate that starts once the last of them is stored.  In every run, when the link has not
reached the gate by then, they are live from the gate's slot on. -/
theorem batch_commit_atomic (links : LinkTable K) (gate : ℕ) (ops : List (StagedOp K))
    (linkId : String) (link₀ : PhysicalLinkRuntime K) (hlink : links linkId = some link₀)
    (hs : link₀.Settled) (hacc : ∀ u ∈ updatesFor linkId ops, link₀.Accepts u)
    (hfew : (updatesFor linkId ops).length < 2 ^ 32) (steps : List CommitStep) :
    let s := steps.foldl Committing.step (Committing.start links gate ops)
    ∃ link, s.links linkId = some link ∧
      (Run.Meets Committing.step (Committing.Whole linkId) (Committing.start links gate ops) steps →
        link.view = wholeView link₀.view (updatesFor linkId ops) gate (s.finished linkId)
          link.nextSlot) ∧
      (∀ n, s.finished linkId = some n → n ≤ gate →
        link.view = if link.nextSlot ≤ gate then link₀.view
          else (updatesFor linkId ops).foldl LiveView.apply link₀.view) := by
  intro s
  have hstep : ∀ (t : Committing K) (a : CommitStep),
      t.Tracks True linkId link₀ gate (updatesFor linkId ops) →
        (t.step a).Tracks True linkId link₀ gate (updatesFor linkId ops) :=
    fun t a ht => Committing.step_tracks hs hacc hfew ht a (Or.inr trivial)
  have htorn : s.Tracks True linkId link₀ gate (updatesFor linkId ops) :=
    Run.invariant hstep (Committing.start_tracks hlink gate ops) steps
  obtain ⟨link, hfinal, hphase⟩ := htorn
  refine ⟨link, hfinal, ?_, ?_⟩
  · intro hmeets
    have hwhole : s.Tracks False linkId link₀ gate (updatesFor linkId ops) :=
      hmeets.invariant (fun t a ht hw => Committing.step_tracks hs hacc hfew ht a (Or.inl hw))
        (Committing.start_tracks hlink gate ops)
    obtain ⟨link', hfinal', hphase'⟩ := hwhole
    rw [Option.some.inj (hfinal.symm.trans hfinal')]
    exact hphase'.view_of_whole
  · intro n hn hle
    rw [hn] at hphase
    have hview := hphase.view_of_gate hle
    rwa [wholeView, max_eq_left hle] at hview

end Runs

/-! ## A batch of two ops -/

/-- The server of the link `l` with a batch of two updates staged. -/
def stagedPlane : ControlPlane ℚ :=
  [batchMessage "batch_begin", ("batch_id", .string "x") :: scalarMessage "path_loss_db" 10 0,
    ("batch_id", .string "x") :: scalarMessage "cfo_hz" 5 0].foldl
    (fun plane fields => plane.step (.message fields)) scheduledPlane.1

/-- The ops that `batch_commit` finds. -/
def twoOps : List (StagedOp ℚ) := (stagedPlane.server.openBatches.lookup "x").getD []

def commitRun (gate : ℕ) (steps : List CommitStep) : Committing ℚ :=
  steps.foldl Committing.step (Committing.start stagedPlane.links gate twoOps)

/-- Two slots around a commit whose gate is slot 2. -/
def gatedSteps : List CommitStep :=
  [.write, .write, .slot "l" 100, .write, .write, .write, .slot "l" 100, .write, .slot "l" 100]

theorem batch_commit_atomic_gatedSteps :
    ∃ link, (commitRun 2 gatedSteps).links "l" = some link ∧ link.nextSlot = 3 ∧
      link.view.params.pathLossDb = 10 ∧ link.view.params.cfoHz = 5 := by
  have hstart : stagedPlane.links "l" = some (ControlPlane.preparedLink scheduledLink) := by
    decide +kernel
  have hs : (ControlPlane.preparedLink scheduledLink).Settled :=
    ⟨by decide +kernel, by decide +kernel, by decide +kernel,
      ⟨fun h => absurd h (by decide +kernel), fun h => absurd h (by decide +kernel)⟩⟩
  obtain ⟨link, hfinal, hwhole, -⟩ := batch_commit_atomic stagedPlane.links 2 twoOps "l" _ hstart hs
    (by decide +kernel) (by decide +kernel) gatedSteps
  have hnext : ((commitRun 2 gatedSteps).links "l").map (·.nextSlot) = some 3 := by
    decide +kernel
  have hfinished : (commitRun 2 gatedSteps).finished "l" = some 2 := by
    decide +kernel
  change (commitRun 2 gatedSteps).links "l" = some link at hfinal
  rw [hfinal] at hnext
  have hview := hwhole (by decide +kernel)
  change link.view = wholeView _ _ 2 ((commitRun 2 gatedSteps).finished "l") link.nextSlot at hview
  have hslot : link.nextSlot = 3 := Option.some.inj hnext
  rw [hslot, hfinished] at hview
  refine ⟨link, hfinal, hslot, ?_, ?_⟩
  · rw [hview]
    decide +kernel
  · rw [hview]
    decide +kernel

/-- **A slot between two ops.** The commit is accepted without a gate.  The slot boundary after
its first op takes the path loss alone, and the next one the frequency offset. -/
theorem slot_tears_batch :
    (stagedPlane.handled [("type", .string "batch_commit"), ("id", .string "x")]).reply.ok = true ∧
      ((commitRun 0 [.write, .write, .write, .slot "l" 100]).links "l").map
        (fun link => (link.nextSlot, link.view.params.pathLossDb, link.view.params.cfoHz)) =
          some (1, 10, 0) ∧
      ((commitRun 0 [.write, .write, .write, .slot "l" 100, .write, .write, .write,
        .slot "l" 100]).links "l").map
        (fun link => (link.nextSlot, link.view.params.pathLossDb, link.view.params.cfoHz)) =
          some (2, 10, 5) := by
  decide +kernel
