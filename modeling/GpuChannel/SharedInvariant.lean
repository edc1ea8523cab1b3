/-
# The invariant of undisturbed runs

Between whole messages the control block stages a prefix of the accepted messages, and a
snap that copies comes to such a prefix.  This file states the invariant and shows that
the control thread keeps it: taking up a message, and every single store.
-/
import GpuChannel.SharedContent

/-- The view after some messages, each with its updates. -/
def LiveView.after {K : Type} (v : LiveView K) (messages : List (List (Update K))) : LiveView K :=
  messages.flatten.foldl LiveView.apply v

/-- One more message is applied behind the others. -/
theorem LiveView.after_concat {K : Type} (v : LiveView K) (messages : List (List (Update K)))
    (us : List (Update K)) :
    v.after (messages ++ [us]) = us.foldl LiveView.apply (v.after messages) := by
  simp [after, List.flatten_append, List.foldl_append]

/-! ## The invariant -/

namespace SharedLink

variable {K : Type}

/-- The link once the commit in progress is complete. -/
def completed (s : SharedLink K) : PhysicalLinkRuntime K :=
  { s.link with control := s.stores.foldl Store.exec s.link.control }

/-- The messages whose content is stored, when no commit is midway. -/
def target (s : SharedLink K) : List (List (Update K)) :=
  if s.stores.any Store.payload then s.accepted.dropLast else s.accepted

/-- What the snap in progress makes of the live view if nothing interferes any more. -/
def outcome (s : SharedLink K) : LiveView K :=
  match s.pc with
  | .idle | .loadSeqno | .loadGate _ _ => s.link.view
  | .copyParams _ rest =>
      ⟨rest.foldl (fun live f => Cells.copy f s.link.control.shadow live) s.link.live,
        s.link.stagedLayout, s.link.stagedMixing⟩
  | _ => ⟨s.link.live, s.link.stagedLayout, s.link.stagedMixing⟩

/-- What a copying snap has established where it stands. -/
def Phase (s : SharedLink K) : SnapPc → Prop
  | .loadProfileForce =>
      s.link.control.profilePending = true ∧ s.link.chainHasLeadingTdl = false
  | .copyProfile rest =>
      s.link.control.profilePending = true ∧
        Cells.Copying rest s.link.control.shadowProfile s.link.liveProfile
  | .loadMatrixPending => s.link.control.profilePending = false
  | .loadMatrixForce =>
      s.link.control.profilePending = false ∧ s.link.control.matrixProfilePending = true ∧
        s.link.chainHasLeadingTdl = false
  | .retestMatrixPending => s.link.control.profilePending = false
  | .copyMatrix rest =>
      s.link.control.profilePending = false ∧ s.link.control.matrixProfilePending = true ∧
        Cells.Copying rest s.link.control.shadowMatrixProfile s.link.liveMatrixProfile
  | .loadCorrelationPending =>
      s.link.control.profilePending = false ∧ s.link.control.matrixProfilePending = false
  | .copyCorrelation rest =>
      s.link.control.profilePending = false ∧ s.link.control.matrixProfilePending = false ∧
        s.link.control.correlationPending = true ∧
        Cells.Copying rest s.link.control.shadowCorrelation s.scratch
  | _ => True

/-- Where the sequence number of the last due snap is kept. -/
def Synced (s : SharedLink K) : SnapPc → Prop
  | .copyParams observed _ => observed = s.seen % 2 ^ 32
  | .loadGate observed atBumps =>
      observed = atBumps % 2 ^ 32 ∧ s.seen ≤ atBumps ∧ atBumps ≤ s.bumps ∧
        s.link.liveSeqno = s.seen % 2 ^ 32
  | _ => s.link.liveSeqno = s.seen % 2 ^ 32

/-- The commit in progress has stored nothing of its message yet. -/
def Fresh (s : SharedLink K) : Prop :=
  ∃ earlier us, s.accepted = earlier ++ [us] ∧
    s.stores.filter Store.payload = us.flatMap payloadStores ∧
    s.stores.countP Store.bump = us.length ∧
    (s.stores.find? Store.marks).all Store.payload = true ∧ ∀ u ∈ us, s.link.Accepts u

/-- **The invariant of undisturbed runs.** -/
structure Coherent (v₀ : LiveView K) (s : SharedLink K) : Prop where
  bumps : s.bumps + s.stores.countP Store.bump = s.accepted.flatten.length
  seqno : s.link.control.seqno = s.bumps % 2 ^ 32
  seen : s.seen ≤ s.bumps
  synced : s.Synced s.pc
  fresh : s.touched = false → s.stores.any Store.payload = true → s.Fresh
  completed : s.completed.staged = v₀.after s.accepted ∧ s.completed.Pending
  settled : s.midway = false → s.link.staged = v₀.after s.target ∧ s.link.Pending
  quiet : s.pc.copying = true → s.midway = false
  phase : s.Phase s.pc
  tracked : s.pc.copying = true → s.raced = false → s.outcome = s.link.staged
  prefixed : ∃ n ≤ s.accepted.length, s.seen ≤ (s.accepted.take n).flatten.length ∧
    s.outcome = v₀.after (s.accepted.take n)

/-! ### Messages taken up and stored -/

/-- Without content left to store, the commit in progress changes nothing more. -/
theorem completed_staged {s : SharedLink K} (h : s.stores.any Store.payload = false) :
    s.completed.staged = s.link.staged :=
  PhysicalLinkRuntime.staged_congr (Store.content_foldl_of_not_payload h _) rfl rfl

/-- If only gates and counters are left to store, what is pending is in order. -/
theorem completed_pending {s : SharedLink K} (h : s.stores.any Store.payload = false)
    (hp : s.completed.Pending) : s.link.Pending :=
  hp.congr (Store.content_foldl_of_not_payload h _) rfl

/-- A link is between two messages if no payload is under way. -/
theorem midway_eq_false_iff (s : SharedLink K) :
    s.midway = false ↔ s.stores.any Store.payload = false ∨ s.touched = false := by
  unfold midway
  cases s.touched <;> cases s.stores.any Store.payload <;> simp

/-- Between messages and before its first content store, a commit is complete as far as the
link can tell: what is left of it stores whole messages. -/
theorem completed_of_settled {v₀ : LiveView K} {s : SharedLink K} (hmid : s.midway = false)
    (hfresh : s.touched = false → s.stores.any Store.payload = true → s.Fresh)
    (h : s.link.staged = v₀.after s.target ∧ s.link.Pending) :
    s.completed.staged = v₀.after s.accepted ∧ s.completed.Pending := by
  obtain ⟨hst, hp⟩ := h
  cases hany : s.stores.any Store.payload
  · rw [target, hany] at hst
    exact ⟨(completed_staged hany).trans hst,
      hp.congr (Store.content_foldl_of_not_payload hany _).symm rfl⟩
  · have htouched : s.touched = false := by
      rcases (midway_eq_false_iff s).mp hmid with hno | htouched
      · exact absurd (hany.symm.trans hno) Bool.noConfusion
      · exact htouched
    obtain ⟨earlier, us, hacc, hfilter, -, -, haccepts⟩ := hfresh htouched hany
    rw [target, if_pos hany, hacc, List.dropLast_concat] at hst
    have hpub := s.link.foldl_publish 0 us hp haccepts
    have hcontent : s.completed.control.content =
        (us.foldl (fun ctl u => ctl.publish 0 u) s.link.control).content := by
      rw [← content_foldl_payloadStores, ← hfilter]
      exact Store.content_foldl_filter _ _
    constructor
    · rw [hacc, LiveView.after_concat, ← hst, ← hpub.1]
      exact PhysicalLinkRuntime.staged_congr hcontent rfl rfl
    · exact hpub.2.congr hcontent.symm rfl

/-- The stored messages are a prefix of the accepted ones, and hold every bumped update. -/
theorem Coherent.target_prefix {v₀ : LiveView K} {s : SharedLink K} (h : Coherent v₀ s)
    (hmid : s.midway = false) : ∃ n ≤ s.accepted.length,
      s.target = s.accepted.take n ∧ s.bumps ≤ (s.accepted.take n).flatten.length := by
  have hbumps := h.bumps
  cases hany : s.stores.any Store.payload
  · refine ⟨s.accepted.length, le_rfl, ?_, ?_⟩
    · rw [target, hany, List.take_length]
      rfl
    · rw [List.take_length]
      omega
  · have htouched : s.touched = false := by
      rcases (midway_eq_false_iff s).mp hmid with hno | htouched
      · exact absurd (hany.symm.trans hno) Bool.noConfusion
      · exact htouched
    obtain ⟨earlier, us, hacc, -, hcount, -, -⟩ := h.fresh htouched hany
    refine ⟨earlier.length, ?_, ?_, ?_⟩
    · rw [hacc, List.length_append]
      omega
    · rw [target, if_pos hany, hacc, List.dropLast_concat, List.take_left]
    · rw [hacc, List.flatten_append, List.length_append, hcount] at hbumps
      rw [hacc, List.take_left]
      simp only [List.flatten_cons, List.flatten_nil, List.append_nil] at hbumps
      omega

/-- An accepted commit queues its stores. -/
theorem accept_coherent {v₀ : LiveView K} {s : SharedLink K} (h : Coherent v₀ s) (c : Commit K)
    (hacc : ∀ u ∈ c.updates, s.link.Accepts u) : Coherent v₀ (s.step (.accept c)) := by
  cases hempty : s.stores.isEmpty
  · rw [step, hempty]
    exact h
  have hnil : s.stores = [] := List.isEmpty_iff.mp hempty
  obtain ⟨hst, hp⟩ := h.completed
  have hst' : s.link.staged = v₀.after s.accepted := by
    rw [← hst, completed, hnil]
    rfl
  have hp' : s.link.Pending := by
    rw [completed, hnil] at hp
    exact hp
  rw [step, hempty, if_pos rfl]
  have hfresh : c.stores.any Store.payload = true →
      Fresh { s with stores := c.stores, accepted := s.accepted ++ [c.updates], touched := false } :=
    fun _ => ⟨s.accepted, c.updates, rfl, c.filter_stores, c.countP_stores, c.find_stores, hacc⟩
  have hsettled : s.link.staged = v₀.after (target
      { s with stores := c.stores, accepted := s.accepted ++ [c.updates], touched := false }) := by
    rw [target]
    dsimp only
    cases hany : c.stores.any Store.payload
    · -- a message without content for this link
      have hups : c.updates = [] := by
        have hfilter := c.filter_stores
        rw [List.filter_eq_nil_iff.mpr (List.any_eq_false.mp hany)] at hfilter
        cases hu : c.updates with
        | nil => rfl
        | cons u us =>
            rw [hu, List.flatMap_cons] at hfilter
            have := (List.append_eq_nil_iff.mp hfilter.symm).1
            cases u <;> exact absurd this (by simp [payloadStores])
      rw [if_neg Bool.false_ne_true, hups, LiveView.after_concat]
      exact hst'
    · rw [if_pos rfl, List.dropLast_concat]
      exact hst'
  constructor
  · have := h.bumps
    rw [hnil, List.countP_nil] at this
    rw [c.countP_stores, List.flatten_append, List.length_append]
    simp only [List.flatten_cons, List.flatten_nil, List.append_nil]
    omega
  · exact h.seqno
  · exact h.seen
  · exact h.synced
  · exact fun _ => hfresh
  · exact completed_of_settled rfl (fun _ => hfresh) ⟨hsettled, hp'⟩
  · exact fun _ => ⟨hsettled, hp'⟩
  · exact fun _ => rfl
  · exact h.phase
  · exact h.tracked
  · obtain ⟨n, hn, hseen, hout⟩ := h.prefixed
    refine ⟨n, ?_, ?_, ?_⟩
    · rw [List.length_append]
      omega
    · rwa [List.take_append_of_le_length hn]
    · rw [List.take_append_of_le_length hn]
      exact hout

/-! ### Stores -/

/-- The state after the store `st`, of which `rest` is left. -/
def stored (s : SharedLink K) (st : Store K) (rest : List (Store K)) : SharedLink K :=
  { s with
    link := { s.link with control := st.exec s.link.control }
    stores := rest
    touched := s.touched || st.payload
    raced := s.raced || (s.pc.copying && st.payload)
    bumps := if st.bump then s.bumps + 1 else s.bumps }

/-- A store step does the next store. -/
theorem storeStep_cons {s : SharedLink K} {st : Store K} {rest : List (Store K)}
    (h : s.stores = st :: rest) : s.storeStep = s.stored st rest := by
  unfold storeStep
  rw [h]
  rfl

section Stored

variable {v₀ : LiveView K} {s : SharedLink K} {st : Store K} {rest : List (Store K)}

/-- One more store, and the bumps so far and to come are those of the accepted updates. -/
theorem stored_bumps (h : Coherent v₀ s) (hs : s.stores = st :: rest) :
    (s.stored st rest).bumps + rest.countP Store.bump = s.accepted.flatten.length := by
  have := h.bumps
  rw [hs, List.countP_cons] at this
  rw [stored]
  cases hb : st.bump <;> simp only [hb] at this ⊢ <;> simp at this ⊢ <;> omega

/-- The sequence number counts the bumps. -/
theorem stored_seqno (h : Coherent v₀ s) :
    (st.exec s.link.control).seqno = (s.stored st rest).bumps % 2 ^ 32 := by
  have := h.seqno
  cases st with
  | bumpSeqno =>
      simp only [stored, Store.exec, Store.bump, if_true, this]
      omega
  | gate slot => exact this
  | param field value => exact this
  | profile cell staged => exact this
  | matrix cell staged => exact this
  | correlation cell staged => exact this
  | profilePending flag => exact this
  | matrixPending flag => exact this
  | correlationPending flag => exact this

/-- A store never takes a bump back. -/
theorem bumps_le_stored : s.bumps ≤ (s.stored st rest).bumps := by
  unfold stored
  dsimp only
  split_ifs <;> omega

/-- A store keeps a snap in step with what it has read. -/
theorem stored_synced (h : Coherent v₀ s) : (s.stored st rest).Synced s.pc := by
  have hle : s.bumps ≤ (s.stored st rest).bumps := bumps_le_stored
  have hsync := h.synced
  cases hpc : s.pc <;> rw [hpc] at hsync <;> try exact hsync
  obtain ⟨hobs, hseen, hat, hlive⟩ := hsync
  exact ⟨hobs, hseen, hat.trans hle, hlive⟩

/-- Only a gate leaves a commit fresh. -/
theorem stored_fresh (h : Coherent v₀ s) (hs : s.stores = st :: rest)
    (htouched : (s.touched || st.payload) = false) (hany : rest.any Store.payload = true) :
    (s.stored st rest).Fresh := by
  obtain ⟨hbefore, hst⟩ := Bool.or_eq_false_iff.mp htouched
  obtain ⟨earlier, us, hacc, hfilter, hcount, hfind, haccepts⟩ := h.fresh hbefore
    (by rw [hs, List.any_cons, hany, Bool.or_true])
  have hbump : st.bump = false := by
    cases hb : st.bump
    · rfl
    · rw [hs, List.find?_cons_of_pos (by simp [Store.marks, hb])] at hfind
      exact absurd (hst.symm.trans hfind) Bool.noConfusion
  refine ⟨earlier, us, hacc, ?_, ?_, ?_, haccepts⟩
  · rwa [hs, List.filter_cons_of_neg (by simp [hst])] at hfilter
  · rwa [hs, List.countP_cons_of_neg (by simp [hbump])] at hcount
  · rwa [hs, List.find?_cons_of_neg (by simp [Store.marks, hst, hbump])] at hfind

/-- Once a store leaves no commit midway, what is stored is whole messages. -/
theorem stored_settled (h : Coherent v₀ s) (hs : s.stores = st :: rest)
    (hmid : (s.stored st rest).midway = false) :
    (s.stored st rest).link.staged = v₀.after (s.stored st rest).target ∧
      (s.stored st rest).link.Pending := by
  have hcompleted : (s.stored st rest).completed = s.completed := by
    rw [completed, completed, hs]
    rfl
  rcases (midway_eq_false_iff _).mp hmid with hno | htouched
  · have hst := h.completed
    rw [← hcompleted] at hst
    refine ⟨?_, completed_pending hno hst.2⟩
    rw [target, if_neg (by simp [hno]), ← completed_staged hno]
    exact hst.1
  · -- nothing was stored, and nothing is stored now
    obtain ⟨hbefore, hst⟩ := Bool.or_eq_false_iff.mp htouched
    have hset := h.settled ((midway_eq_false_iff s).mpr (Or.inr hbefore))
    have hcontent := Store.content_exec_of_not_payload hst s.link.control
    have htarget : (s.stored st rest).target = s.target := by
      rw [target, target, hs, List.any_cons, hst, Bool.false_or]
      rfl
    rw [htarget, ← hset.1]
    exact ⟨PhysicalLinkRuntime.staged_congr hcontent rfl rfl, hset.2.congr hcontent.symm rfl⟩

/-- A store that leaves the content leaves what the snap takes. -/
theorem stored_outcome_of_content (hc : (st.exec s.link.control).content = s.link.control.content) :
    (s.stored st rest).outcome = s.outcome := by
  simp only [BrokerLinkControl.content, Content.mk.injEq] at hc
  obtain ⟨h₁, h₂, h₃, h₄, h₅, h₆, h₇⟩ := hc
  unfold outcome
  cases hpc : s.pc <;>
    simp [stored, hpc, PhysicalLinkRuntime.view, PhysicalLinkRuntime.stagedLayout,
      PhysicalLinkRuntime.stagedMixing, PhysicalLinkRuntime.layout, h₁, h₂, h₃, h₄, h₅, h₆, h₇]

/-- A store that leaves the content leaves the snap where it is. -/
theorem stored_phase_of_content (hc : (st.exec s.link.control).content = s.link.control.content)
    (h : s.Phase s.pc) : (s.stored st rest).Phase s.pc := by
  simp only [BrokerLinkControl.content, Content.mk.injEq] at hc
  obtain ⟨-, h₂, h₃, h₄, h₅, h₆, h₇⟩ := hc
  cases hpc : s.pc <;> rw [hpc] at h <;>
    first | exact trivial | simpa [Phase, stored, h₂, h₃, h₄, h₅, h₆, h₇] using h

/-- What holds after every store: all of the invariant but what concerns the snap. -/
theorem stored_coherent (h : Coherent v₀ s) (hs : s.stores = st :: rest)
    (hquiet : s.pc.copying = true → (s.stored st rest).midway = false)
    (hphase : (s.stored st rest).Phase s.pc)
    (htracked : s.pc.copying = true → (s.raced || (s.pc.copying && st.payload)) = false →
      (s.stored st rest).outcome = (s.stored st rest).link.staged)
    (hprefixed : ∃ n ≤ s.accepted.length, s.seen ≤ (s.accepted.take n).flatten.length ∧
      (s.stored st rest).outcome = v₀.after (s.accepted.take n)) :
    Coherent v₀ (s.stored st rest) := by
  constructor
  · exact stored_bumps h hs
  · exact stored_seqno h
  · exact h.seen.trans bumps_le_stored
  · exact stored_synced h
  · exact stored_fresh h hs
  · have hcompleted : (s.stored st rest).completed = s.completed := by
      rw [completed, completed, hs]
      rfl
    rw [hcompleted]
    exact h.completed
  · exact stored_settled h hs
  · exact hquiet
  · exact hphase
  · exact htracked
  · exact hprefixed

/-- A store without content. -/
theorem stored_coherent_of_not_payload (h : Coherent v₀ s) (hs : s.stores = st :: rest)
    (hst : st.payload = false) : Coherent v₀ (s.stored st rest) := by
  have hcontent := Store.content_exec_of_not_payload hst s.link.control
  have hout : (s.stored st rest).outcome = s.outcome := stored_outcome_of_content hcontent
  have hstaged : (s.stored st rest).link.staged = s.link.staged :=
    PhysicalLinkRuntime.staged_congr hcontent rfl rfl
  apply stored_coherent h hs
  · intro hcopy
    have := h.quiet hcopy
    rw [midway, hs, List.any_cons, hst, Bool.false_or] at this
    rw [midway, stored]
    simpa [hst] using this
  · exact stored_phase_of_content hcontent h.phase
  · intro hcopy hraced
    rw [hout, hstaged]
    exact h.tracked hcopy (Bool.or_eq_false_iff.mp hraced).1
  · rw [hout]
    exact h.prefixed

/-- Content that is stored while no snap copies leaves the live view alone. -/
theorem stored_coherent_of_not_copying (h : Coherent v₀ s) (hs : s.stores = st :: rest)
    (hcopy : s.pc.copying = false) : Coherent v₀ (s.stored st rest) := by
  have hno : ¬ s.pc.copying = true := by rw [hcopy]; exact Bool.false_ne_true
  have hout : (s.stored st rest).outcome = s.outcome := by
    unfold outcome
    cases hpc : s.pc <;> rw [hpc] at hcopy <;>
      first | exact absurd hcopy Bool.noConfusion | (simp only [stored, hpc]; rfl)
  apply stored_coherent h hs
  · exact fun hc => absurd hc hno
  · cases hpc : s.pc <;> rw [hpc] at hcopy <;>
      first | exact absurd hcopy Bool.noConfusion | exact trivial
  · exact fun hc => absurd hc hno
  · rw [hout]
    exact h.prefixed

/-- Copying the cells that are left gives those of the source; the rest stay. -/
theorem get_foldl_copy (src dst : MutableParams K) (l : List ParamField) (g : ParamField) :
    (l.foldl (fun dst f => Cells.copy f src dst) dst).get g =
      if g ∈ l then src.get g else dst.get g := by
  induction l generalizing dst with
  | nil => rfl
  | cons f l ih =>
      rw [List.foldl_cons, ih]
      change (if g ∈ l then src.get g else (dst.set f (src.get f)).get g) = _
      rw [MutableParams.get_set]
      by_cases hl : g ∈ l
      · rw [if_pos hl, if_pos (List.mem_cons_of_mem f hl)]
      · rw [if_neg hl]
        by_cases hg : g = f
        · subst hg
          rw [if_pos rfl, if_pos List.mem_cons_self]
        · rw [if_neg hg, if_neg (by simp [hl, hg])]

/-- A member that is stored while the record is copied is seen or missed as a whole. -/
theorem copy_set_cases {shadow live : MutableParams K} {l : List ParamField}
    (h : Cells.Copying l shadow live) (f : ParamField) (v : K) :
    l.foldl (fun dst g => Cells.copy g (shadow.set f v) dst) live = shadow ∨
      l.foldl (fun dst g => Cells.copy g (shadow.set f v) dst) live = shadow.set f v := by
  have hget : ∀ g, (if g ∈ l then shadow.get g else live.get g) = shadow.get g := fun g => by
    rw [← get_foldl_copy]
    exact congrArg (·.get g) h
  by_cases hf : f ∈ l
  · right
    apply MutableParams.ext_get
    intro g
    rw [get_foldl_copy]
    by_cases hg : g ∈ l
    · rw [if_pos hg]
    · have hne : g ≠ f := fun he => hg (he ▸ hf)
      have := hget g
      rw [if_neg hg] at this ⊢
      rw [MutableParams.get_set, if_neg hne, this]
  · left
    apply MutableParams.ext_get
    intro g
    rw [get_foldl_copy, ← hget g]
    by_cases hg : g ∈ l
    · have hne : g ≠ f := fun he => hf (he ▸ hg)
      rw [if_pos hg, if_pos hg, MutableParams.get_set, if_neg hne]
    · rw [if_neg hg, if_neg hg]

/-- **A lone scalar.** The copying snap sees it or misses it, and everything else it copies
is there already. -/
theorem stored_coherent_of_loneScalar (h : Coherent v₀ s) (hs : s.stores = st :: rest)
    (hcopy : s.pc.copying = true) (hlone : s.loneScalar = true) (hraced : s.raced = false) :
    Coherent v₀ (s.stored st rest) := by
  have hmid := h.quiet hcopy
  have htracked := h.tracked hcopy hraced
  rw [loneScalar, hs] at hlone
  cases st with
  | param f v =>
      obtain ⟨htouched, hrest⟩ : s.touched = false ∧ rest.any Store.payload = false := by
        simpa using hlone
      have hmid' : (s.stored (.param f v) rest).midway = false :=
        (midway_eq_false_iff _).mpr (Or.inl hrest)
      have hany : s.stores.any Store.payload = true := by rw [hs]; rfl
      -- what is stored after the store, and before it
      have hafter := (stored_settled h hs hmid').1
      have hbefore := (h.settled hmid).1
      rw [target, if_neg (by simp [stored, hrest])] at hafter
      rw [target, if_pos hany] at hbefore
      obtain ⟨earlier, us, hacc, -, hcount, -, -⟩ := h.fresh htouched hany
      have hearlier : s.bumps = earlier.flatten.length := by
        have := h.bumps
        rw [hacc, List.flatten_append, List.length_append, hcount] at this
        simp only [List.flatten_cons, List.flatten_nil, List.append_nil] at this
        omega
      -- the copy sees the store or misses it
      have hcases : (s.stored (.param f v) rest).outcome = s.outcome ∨
          (s.stored (.param f v) rest).outcome = (s.stored (.param f v) rest).link.staged := by
        cases hpc : s.pc <;> rw [hpc] at hcopy <;> try exact absurd hcopy Bool.noConfusion
        case copyParams observed l =>
          have hcopying : Cells.Copying l s.link.control.shadow s.link.live := by
            have := congrArg LiveView.params htracked
            rw [outcome, hpc] at this
            exact this
          rcases copy_set_cases hcopying f v with hmiss | hsee
          · left
            rw [htracked, outcome]
            simp only [stored, hpc]
            exact congrArg (LiveView.mk · s.link.stagedLayout s.link.stagedMixing) hmiss
          · right
            rw [outcome]
            simp only [stored, hpc]
            exact congrArg (LiveView.mk · s.link.stagedLayout s.link.stagedMixing) hsee
        all_goals
          left
          unfold outcome
          simp only [stored, hpc]
          rfl
      apply stored_coherent h hs
      · exact fun _ => hmid'
      · have hphase := h.phase
        cases hpc : s.pc <;> rw [hpc] at hphase <;> exact hphase
      · intro _ hr
        rw [hcopy] at hr
        exact absurd (Bool.or_eq_false_iff.mp hr).2 Bool.noConfusion
      · rcases hcases with hmiss | hsee
        · refine ⟨earlier.length, by simp [hacc], ?_, ?_⟩
          · rw [hacc, List.take_left, ← hearlier]
            exact h.seen
          · rw [hmiss, htracked, hbefore, hacc, List.dropLast_concat, List.take_left]
        · refine ⟨s.accepted.length, le_rfl, ?_, ?_⟩
          · have := h.bumps
            have := h.seen
            rw [List.take_length]
            omega
          · rw [hsee, hafter, List.take_length]
            rfl
  | gate slot => exact absurd hlone Bool.noConfusion
  | profile cell staged => exact absurd hlone Bool.noConfusion
  | matrix cell staged => exact absurd hlone Bool.noConfusion
  | correlation cell staged => exact absurd hlone Bool.noConfusion
  | profilePending flag => exact absurd hlone Bool.noConfusion
  | matrixPending flag => exact absurd hlone Bool.noConfusion
  | correlationPending flag => exact absurd hlone Bool.noConfusion
  | bumpSeqno => exact absurd hlone Bool.noConfusion

end Stored

/-- A store that disturbs no snap keeps the link coherent. -/
theorem store_coherent {v₀ : LiveView K} {s : SharedLink K} (h : Coherent v₀ s)
    (hu : s.Undisturbed .store) : Coherent v₀ (s.step .store) := by
  change Coherent v₀ s.storeStep
  cases hs : s.stores with
  | nil =>
      unfold storeStep
      rw [hs]
      exact h
  | cons st rest =>
      rw [storeStep_cons hs]
      cases hst : st.payload
      · exact stored_coherent_of_not_payload h hs hst
      cases hcopy : s.pc.copying
      · exact stored_coherent_of_not_copying h hs hcopy
      have hhead : s.stores.head?.any Store.payload = true := by
        rw [hs]
        exact hst
      obtain ⟨hlone, hraced⟩ := hu hcopy hhead
      exact stored_coherent_of_loneScalar h hs hcopy hlone hraced

end SharedLink
