/-
# The content of a control block

Which stores of a commit carry the content of its message, and what the link makes of that
content.  Gates and sequence numbers only decide when it is looked at.
-/
import GpuChannel.SharedControl

/-! ## The content of the control block -/

/-- The part of the control block that carries the content of messages. -/
structure Content (K : Type) where
  shadow : MutableParams K
  shadowProfile : ProfileShadow K
  profilePending : Bool
  shadowMatrixProfile : MatrixProfileShadow K
  matrixProfilePending : Bool
  shadowCorrelation : CorrelationShadow K
  correlationPending : Bool

section Content

variable {K : Type}

def BrokerLinkControl.content (ctl : BrokerLinkControl K) : Content K :=
  ⟨ctl.shadow, ctl.shadowProfile, ctl.profilePending, ctl.shadowMatrixProfile,
    ctl.matrixProfilePending, ctl.shadowCorrelation, ctl.correlationPending⟩

/-- A store of a gate or a counter leaves the content alone. -/
theorem Store.content_exec_of_not_payload {st : Store K} (h : st.payload = false)
    (ctl : BrokerLinkControl K) : (Store.exec ctl st).content = ctl.content := by
  cases st with
  | gate slot => rfl
  | bumpSeqno => rfl
  | param field value => exact absurd h Bool.noConfusion
  | profile cell staged => exact absurd h Bool.noConfusion
  | matrix cell staged => exact absurd h Bool.noConfusion
  | correlation cell staged => exact absurd h Bool.noConfusion
  | profilePending flag => exact absurd h Bool.noConfusion
  | matrixPending flag => exact absurd h Bool.noConfusion
  | correlationPending flag => exact absurd h Bool.noConfusion

/-- What a store makes of the content depends on the content only. -/
theorem Store.content_exec_congr {a b : BrokerLinkControl K} (h : a.content = b.content)
    (st : Store K) : (Store.exec a st).content = (Store.exec b st).content := by
  simp only [BrokerLinkControl.content, Content.mk.injEq] at h
  obtain ⟨h₁, h₂, h₃, h₄, h₅, h₆, h₇⟩ := h
  cases st <;> simp [Store.exec, BrokerLinkControl.content, h₁, h₂, h₃, h₄, h₅, h₆, h₇]

/-- What stores make of the content depends on the content only. -/
theorem Store.content_foldl_congr (stores : List (Store K)) {a b : BrokerLinkControl K}
    (h : a.content = b.content) :
    (stores.foldl Store.exec a).content = (stores.foldl Store.exec b).content := by
  induction stores generalizing a b with
  | nil => exact h
  | cons st stores ih => exact ih (content_exec_congr h st)

/-- Only the content stores change the content. -/
theorem Store.content_foldl_filter (stores : List (Store K)) (ctl : BrokerLinkControl K) :
    (stores.foldl Store.exec ctl).content =
      ((stores.filter Store.payload).foldl Store.exec ctl).content := by
  induction stores generalizing ctl with
  | nil => rfl
  | cons st stores ih =>
      cases hst : st.payload
      · rw [List.filter_cons_of_neg (by simp [hst]), List.foldl_cons, ← ih]
        exact content_foldl_congr stores (content_exec_of_not_payload hst ctl)
      · rw [List.filter_cons_of_pos hst, List.foldl_cons, ih, List.foldl_cons]

/-- Stores of gates and counters leave the content alone. -/
theorem Store.content_foldl_of_not_payload {stores : List (Store K)}
    (h : stores.any Store.payload = false) (ctl : BrokerLinkControl K) :
    (stores.foldl Store.exec ctl).content = ctl.content := by
  have hnil : stores.filter Store.payload = [] := by
    rw [List.filter_eq_nil_iff]
    intro st hst
    rw [List.any_eq_false] at h
    exact h st hst
  rw [content_foldl_filter, hnil]
  rfl

/-- A publication writes the content that the update stages. -/
theorem BrokerLinkControl.content_publish (ctl : BrokerLinkControl K) (gate : ℕ) (u : Update K) :
    (ctl.publish gate u).content = (ctl.stage u).content := by
  cases u <;> rfl

/-- What an update stages depends on the content only. -/
theorem BrokerLinkControl.content_stage_congr {a b : BrokerLinkControl K}
    (h : a.content = b.content) (u : Update K) : (a.stage u).content = (b.stage u).content := by
  rw [← payloadStores_exec, ← payloadStores_exec]
  exact Store.content_foldl_congr _ h

/-- The content stores of several updates publish them. -/
theorem content_foldl_payloadStores (gate : ℕ) (us : List (Update K)) (ctl : BrokerLinkControl K) :
    ((us.flatMap payloadStores).foldl Store.exec ctl).content =
      (us.foldl (fun ctl u => ctl.publish gate u) ctl).content := by
  suffices h : ∀ a b : BrokerLinkControl K, a.content = b.content →
      ((us.flatMap payloadStores).foldl Store.exec a).content =
        (us.foldl (fun ctl u => ctl.publish gate u) b).content from h ctl ctl rfl
  induction us with
  | nil => exact fun a b h => h
  | cons u us ih =>
      intro a b h
      rw [List.flatMap_cons, List.foldl_append, payloadStores_exec, List.foldl_cons]
      apply ih
      rw [BrokerLinkControl.content_publish]
      exact BrokerLinkControl.content_stage_congr h u

end Content

/-! ## What a commit stores -/

section Commit

variable {K : Type}

/-- The payload stores of an update are all payload. -/
theorem filter_payloadStores (u : Update K) :
    (payloadStores u).filter Store.payload = payloadStores u := by
  rw [List.filter_eq_self]
  intro st hst
  cases u with
  | scalar field value =>
      rw [List.mem_singleton.mp hst]
      rfl
  | profile staged =>
      rcases List.mem_append.mp hst with h | h
      · obtain ⟨c, -, rfl⟩ := List.mem_map.mp h
        rfl
      · rcases List.mem_pair.mp h with rfl | rfl <;> rfl
  | matrix staged =>
      rcases List.mem_append.mp hst with h | h
      · obtain ⟨c, -, rfl⟩ := List.mem_map.mp h
        rfl
      · rcases List.mem_pair.mp h with rfl | rfl <;> rfl
  | correlation staged =>
      rcases List.mem_append.mp hst with h | h
      · obtain ⟨c, -, rfl⟩ := List.mem_map.mp h
        rfl
      · rw [List.mem_singleton.mp h]
        rfl

/-- Content stores are not bumps. -/
theorem countP_bump_payloadStores (u : Update K) : (payloadStores u).countP Store.bump = 0 := by
  rw [List.countP_eq_zero]
  intro st hst
  have hpay : st.payload = true := by
    rw [← filter_payloadStores] at hst
    exact (List.mem_filter.mp hst).2
  cases st <;> first | exact absurd hpay Bool.noConfusion | exact Bool.false_ne_true

/-- Behind its gate an update stores its payload. -/
theorem filter_gatedStores (gate : ℕ) (u : Update K) :
    (Commit.gatedStores gate u).filter Store.payload = payloadStores u := by
  rw [Commit.gatedStores, List.filter_append, List.filter_cons_of_neg (by exact Bool.false_ne_true),
    filter_payloadStores, List.filter_cons_of_neg (by exact Bool.false_ne_true)]
  exact List.append_nil _

/-- An update raises the sequence number once. -/
theorem countP_bump_gatedStores (gate : ℕ) (u : Update K) :
    (Commit.gatedStores gate u).countP Store.bump = 1 := by
  rw [Commit.gatedStores, List.countP_append, List.countP_cons_of_neg (by exact Bool.false_ne_true),
    countP_bump_payloadStores]
  rfl

/-- The payload of a commit is the payload of its updates. -/
theorem Commit.filter_stores (c : Commit K) :
    c.stores.filter Store.payload = c.updates.flatMap payloadStores := by
  cases c with
  | single gate u =>
      have hlast : (payloadStores u ++ [Store.gate gate, Store.bumpSeqno]).filter Store.payload =
          [u].flatMap payloadStores := by
        rw [List.filter_append, filter_payloadStores, List.flatMap_singleton]
        exact List.append_nil _
      cases u with
      | scalar field value => rfl
      | profile staged => exact hlast
      | matrix staged => exact hlast
      | correlation staged => exact hlast
  | batch gate us =>
      simp only [stores, updates]
      induction us with
      | nil => rfl
      | cons u us ih =>
          rw [List.flatMap_cons, List.filter_append, filter_gatedStores, ih, List.flatMap_cons]

/-- A commit raises the sequence number once for each update. -/
theorem Commit.countP_stores (c : Commit K) : c.stores.countP Store.bump = c.updates.length := by
  cases c with
  | single gate u =>
      have hlast : (payloadStores u ++ [Store.gate gate, Store.bumpSeqno]).countP Store.bump = 1 := by
        rw [List.countP_append, countP_bump_payloadStores]
        rfl
      cases u with
      | scalar field value => rfl
      | profile staged => exact hlast
      | matrix staged => exact hlast
      | correlation staged => exact hlast
  | batch gate us =>
      simp only [stores, updates]
      induction us with
      | nil => rfl
      | cons u us ih =>
          rw [List.flatMap_cons, List.countP_append, countP_bump_gatedStores, ih, List.length_cons,
            Nat.add_comm]

/-- The store is not a gate. -/
def Store.marks (st : Store K) : Bool := st.payload || st.bump

/-- The payload of an update is marked before its flag is set. -/
theorem find_payloadStores (u : Update K) (rest : List (Store K)) :
    ((payloadStores u ++ rest).find? Store.marks).all Store.payload = true := by
  cases u <;> rfl

/-- A commit stores content before it bumps. -/
theorem Commit.find_stores (c : Commit K) :
    (c.stores.find? Store.marks).all Store.payload = true := by
  cases c with
  | single gate u =>
      cases u with
      | scalar field value => rfl
      | profile staged => exact find_payloadStores _ _
      | matrix staged => exact find_payloadStores _ _
      | correlation staged => exact find_payloadStores _ _
  | batch gate us =>
      cases us with
      | nil => rfl
      | cons u us =>
          simp only [stores, List.flatMap_cons, gatedStores, List.cons_append, List.append_assoc]
          rw [List.find?_cons_of_neg (by exact Bool.false_ne_true)]
          exact find_payloadStores u _

end Commit

/-! ## What the link makes of the content -/

namespace PhysicalLinkRuntime

variable {K : Type}

/-- What a snap would stage depends on content, layout and mixing only. -/
theorem staged_congr {a b : PhysicalLinkRuntime K} (hc : a.control.content = b.control.content)
    (hl : a.layout = b.layout) (hm : a.fading.mixing = b.fading.mixing) : a.staged = b.staged := by
  simp only [BrokerLinkControl.content, Content.mk.injEq] at hc
  obtain ⟨h₁, h₂, h₃, h₄, h₅, h₆, h₇⟩ := hc
  simp [staged, stagedLayout, stagedMixing, h₁, h₂, h₃, h₄, h₅, h₆, h₇, hl, hm]

/-- What is pending depends on the content and the shape of the chain only. -/
theorem Pending.congr {a b : PhysicalLinkRuntime K} (h : a.Pending)
    (hc : a.control.content = b.control.content)
    (hlead : a.chainHasLeadingTdl = b.chainHasLeadingTdl) : b.Pending := by
  simp only [BrokerLinkControl.content, Content.mk.injEq] at hc
  obtain ⟨h₁, h₂, h₃, h₄, h₅, h₆, h₇⟩ := hc
  constructor
  · have := h.profile
    rwa [profileEligible, h₂, h₃, hlead] at this
  · have := h.matrix
    rwa [matrixEligible, h₄, h₅, hlead] at this

/-- Publications in a row apply their updates in a row. -/
theorem foldl_publish (gate : ℕ) (us : List (Update K)) (link : PhysicalLinkRuntime K)
    (h : link.Pending) (hu : ∀ u ∈ us, link.Accepts u) :
    let link' := { link with control := us.foldl (fun ctl u => ctl.publish gate u) link.control }
    link'.staged = us.foldl LiveView.apply link.staged ∧ link'.Pending := by
  induction us generalizing link with
  | nil => exact ⟨rfl, h⟩
  | cons u us ih =>
      have hacc : ∀ v ∈ us, (link.publish gate u).Accepts v := by
        intro v hv
        have := hu v (List.mem_cons_of_mem u hv)
        cases v <;> exact this
      have := ih (link.publish gate u) (h.publish gate (hu u List.mem_cons_self)) hacc
      rwa [staged_publish] at this

end PhysicalLinkRuntime
