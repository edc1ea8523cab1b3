/-
# Deterministic scheduling

What the control plane promises for one link: an update accepted with
`take_effect_at_slot = s` becomes visible in the first slot from `s` on that starts after
the message, and in none before it.  `Schedule` is that promise as a machine of its own:
it keeps every accepted update until its slot and applies what is due in the order of
acceptance.  The slot is taken from the message, not from what its handler makes of it.

The code has one gate per link, so a later message moves the gate of every update that
still waits, and it casts the requested slot to an integer.  The code follows the schedule in
every run in which the cast keeps the slot and a message that finds an update waiting asks for
the same effective slot.
-/
import GpuChannel.ControlPlane
import GpuChannel.RationalScalars

/-! ## The promise -/

/-- **The schedule of a link**: the updates whose slot has not come, in the order of
acceptance, and the view that those whose slot has come produce. -/
structure Schedule (K : Type) where
  nextSlot : ℕ
  waiting : List (ℕ × Update K)
  view : LiveView K

namespace Schedule

variable {K : Type}

def start (view : LiveView K) : Schedule K := { nextSlot := 0, waiting := [], view := view }

/-- An accepted update waits for its slot. -/
def accept (s : Schedule K) (slot : ℕ) (u : Update K) : Schedule K :=
  { s with waiting := s.waiting ++ [(slot, u)] }

/-- The start of a slot applies what is due and nothing else. -/
def slot (s : Schedule K) : Schedule K :=
  { nextSlot := s.nextSlot + 1
    waiting := s.waiting.filter fun w => s.nextSlot < w.1
    view := (s.waiting.filter fun w => w.1 ≤ s.nextSlot).foldl (fun v w => v.apply w.2) s.view }

@[simp] theorem accept_nextSlot (s : Schedule K) (slot : ℕ) (u : Update K) :
    (s.accept slot u).nextSlot = s.nextSlot := rfl

@[simp] theorem accept_waiting (s : Schedule K) (slot : ℕ) (u : Update K) :
    (s.accept slot u).waiting = s.waiting ++ [(slot, u)] := rfl

@[simp] theorem accept_view (s : Schedule K) (slot : ℕ) (u : Update K) :
    (s.accept slot u).view = s.view := rfl

/-- When everything is due, nothing waits any more. -/
theorem slot_of_all_due {s : Schedule K} (h : ∀ w ∈ s.waiting, w.1 ≤ s.nextSlot) :
    s.slot = { nextSlot := s.nextSlot + 1, waiting := []
               view := s.waiting.foldl (fun v w => v.apply w.2) s.view } := by
  have hdue : (s.waiting.filter fun w => decide (w.1 ≤ s.nextSlot)) = s.waiting :=
    List.filter_eq_self.mpr fun w hw => decide_eq_true (h w hw)
  have hrest : (s.waiting.filter fun w => decide (s.nextSlot < w.1)) = [] :=
    List.filter_eq_nil_iff.mpr fun w hw => by simpa using h w hw
  simp [slot, hdue, hrest]

/-- When nothing is due, nothing changes. -/
theorem slot_of_none_due {s : Schedule K} (h : ∀ w ∈ s.waiting, s.nextSlot < w.1) :
    s.slot = { s with nextSlot := s.nextSlot + 1 } := by
  have hdue : (s.waiting.filter fun w => decide (w.1 ≤ s.nextSlot)) = [] :=
    List.filter_eq_nil_iff.mpr fun w hw => by simpa using h w hw
  have hrest : (s.waiting.filter fun w => decide (s.nextSlot < w.1)) = s.waiting :=
    List.filter_eq_self.mpr fun w hw => decide_eq_true (h w hw)
  simp [slot, hdue, hrest]

end Schedule

/-! ## The code against the schedule -/

/-- The slot in which an update with this gate is due, seen before slot `next`. -/
def effectiveSlot (gate next : ℕ) : ℕ := max gate next

section Link

variable {K : Type}

/-- **The link follows its schedule.** The shadow holds every waiting update, the one gate
is the gate of each of them, and the sequence numbers differ by their number. -/
structure Follows (link : PhysicalLinkRuntime K) (s : Schedule K) : Prop where
  nextSlot : link.nextSlot = s.nextSlot
  view : link.view = s.view
  staged : link.staged = s.waiting.foldl (fun v w => v.apply w.2) s.view
  pending : link.Pending
  gate : ∀ w ∈ s.waiting, effectiveSlot w.1 s.nextSlot =
    effectiveSlot link.control.takeEffectAtSlot s.nextSlot
  seqno : link.control.seqno = (link.liveSeqno + s.waiting.length) % 2 ^ 32
  outstanding : s.waiting.length < 2 ^ 32
  liveSeqno : link.liveSeqno < 2 ^ 32

namespace Follows

variable {link : PhysicalLinkRuntime K} {s : Schedule K}

/-- A publication whose gate stands for the slot that the waiting updates share. -/
theorem publish (h : Follows link s) {gate slot : ℕ} {u : Update K} (hu : link.Accepts u)
    (hslot : effectiveSlot gate s.nextSlot = effectiveSlot slot s.nextSlot)
    (hwaiting : ∀ w ∈ s.waiting, effectiveSlot w.1 s.nextSlot = effectiveSlot slot s.nextSlot)
    (hroom : s.waiting.length + 1 < 2 ^ 32) :
    Follows (link.publish gate u) (s.accept slot u) := by
  constructor
  · exact h.nextSlot
  · exact h.view
  · rw [PhysicalLinkRuntime.staged_publish, h.staged, Schedule.accept_waiting, List.foldl_append]
    rfl
  · exact h.pending.publish gate hu
  · intro w hw
    rcases List.mem_append.mp hw with hw | hw
    · exact (hwaiting w hw).trans hslot.symm
    · rw [List.mem_singleton.mp hw]
      exact hslot.symm
  · rw [PhysicalLinkRuntime.publish_control, BrokerLinkControl.publish_seqno, h.seqno,
      PhysicalLinkRuntime.publish_liveSeqno, Schedule.accept_waiting, List.length_append,
      Nat.mod_add_mod, Nat.add_assoc]
    rfl
  · simpa using hroom
  · exact h.liveSeqno

/-- The link has an unseen sequence number exactly when an update waits. -/
theorem seqno_ne_iff (h : Follows link s) :
    link.control.seqno ≠ link.liveSeqno ↔ s.waiting ≠ [] := by
  have hlive := h.liveSeqno
  have hout := h.outstanding
  rw [h.seqno]
  constructor
  · intro hne hnil
    apply hne
    rw [hnil, List.length_nil, Nat.add_zero, Nat.mod_eq_of_lt hlive]
  · intro hne heq
    have hpos := List.length_pos_iff.mpr hne
    omega

/-- Publications behind one gate, each of which the link takes, keep link and schedule together
when the gate stands for the promised slot. -/
theorem publishAll (h : Follows link s) (gate : ℕ) {slot : ℕ} (ps : List (Publication K))
    (hps : ∀ p ∈ ps, p.gate = gate)
    (hslot : ps ≠ [] → effectiveSlot gate s.nextSlot = effectiveSlot slot s.nextSlot)
    (hwaiting : ps ≠ [] → ∀ o ∈ s.waiting,
      effectiveSlot o.1 s.nextSlot = effectiveSlot slot s.nextSlot)
    (hacc : ∀ p ∈ ps, link.Accepts p.update)
    (hroom : s.waiting.length + ps.length < 2 ^ 32) :
    Follows (ps.foldl (fun link p => link.publish p.gate p.update) link)
      (ps.foldl (fun s p => s.accept slot p.update) s) := by
  induction ps generalizing link s with
  | nil => exact h
  | cons p ps ih =>
      have hp : p.gate = gate := hps p List.mem_cons_self
      have hkept := hslot (List.cons_ne_nil p ps)
      have hshared := hwaiting (List.cons_ne_nil p ps)
      rw [List.length_cons] at hroom
      apply ih
      · refine h.publish (hacc p List.mem_cons_self) ?_ hshared (by omega)
        rw [hp]
        exact hkept
      · exact fun q hq => hps q (List.mem_cons_of_mem p hq)
      · exact fun _ => hkept
      · intro _ o ho
        rcases List.mem_append.mp ho with ho | ho
        · exact hshared o ho
        · rw [List.mem_singleton.mp ho]
      · intro q hq
        have := hacc q (List.mem_cons_of_mem p hq)
        cases hu : q.update <;> rw [hu] at this <;> exact this
      · rw [Schedule.accept_waiting, List.length_append, List.length_singleton]
        omega

variable [Field K] [LinearOrder K] [FloorRing K]

/-- A slot of the link and of its schedule. -/
theorem slot (h : Follows link s) (count : ℕ) : Follows (link.snap count).1 s.slot := by
  have hgates : ∀ w ∈ s.waiting, max w.1 s.nextSlot =
      max link.control.takeEffectAtSlot s.nextSlot := h.gate
  cases hdue : link.due
  · -- nothing waits, or the gate is shut for all that wait
    have hnone : ∀ w ∈ s.waiting, s.nextSlot < w.1 := by
      intro w hw
      have hne : link.control.seqno ≠ link.liveSeqno :=
        h.seqno_ne_iff.mpr (List.ne_nil_of_mem hw)
      have hshut : ¬ link.control.takeEffectAtSlot ≤ link.nextSlot := by
        intro hopen
        rw [link.due_iff.mpr ⟨hne, hopen⟩] at hdue
        exact Bool.false_ne_true hdue.symm
      have := hgates w hw
      have := h.nextSlot
      omega
    obtain ⟨w, hw⟩ := link.snap_of_not_due count hdue
    rw [hw, Schedule.slot_of_none_due hnone]
    constructor
    · exact congrArg (· + 1) h.nextSlot
    · exact h.view
    · exact h.staged
    · exact ⟨h.pending.profile, h.pending.matrix⟩
    · intro w hw
      have := hgates w hw
      have := hnone w hw
      unfold effectiveSlot
      dsimp only
      omega
    · exact h.seqno
    · exact h.outstanding
    · exact h.liveSeqno
  · -- an open gate: every waiting update shares it, so all of them are due
    obtain ⟨-, hopen⟩ := link.due_iff.mp hdue
    have hall : ∀ w ∈ s.waiting, w.1 ≤ s.nextSlot := by
      intro w hw
      have := hgates w hw
      have := h.nextSlot
      omega
    obtain ⟨hview, hstaged, hpending, hseqno⟩ := link.snap_of_due count hdue h.pending
    rw [Schedule.slot_of_all_due hall]
    constructor
    · rw [PhysicalLinkRuntime.snap_nextSlot, h.nextSlot]
    · rw [hview, h.staged]
    · rw [hstaged, h.staged]
      rfl
    · exact hpending
    · intro w hw
      exact absurd hw List.not_mem_nil
    · rw [PhysicalLinkRuntime.snap_seqno, hseqno, h.seqno]
      simp
    · exact Nat.two_pow_pos 32
    · rw [hseqno, h.seqno]
      exact Nat.mod_lt _ (Nat.two_pow_pos 32)

end Follows

end Link

/-! ## What a message asks for -/

section Requests

variable {K : Type} [Field K] [LinearOrder K] [FloorRing K]

/-- The `take_effect_at_slot` of a message; for the members of a batch it is that of the
commit. -/
def requestedSlot (fields : JsonObject K) : K :=
  match getNumber fields "take_effect_at_slot" 0 with
  | .ok t => t
  | .error _ => 0

/-- The first slot that is not before the requested one. -/
def promisedSlot (fields : JsonObject K) : ℕ := ⌈requestedSlot fields⌉.toNat

/-- **The cast keeps the slot**: the value is in the range of the 64-bit cast, and it is a whole
number or not ahead of the next slot. -/
def CastKeepsSlot (t : K) (next : ℕ) : Prop :=
  -1 < t ∧ t < 2 ^ 64 ∧ (t = ⌊t⌋ ∨ t ≤ next)

instance (t : K) (next : ℕ) : Decidable (CastKeepsSlot t next) :=
  inferInstanceAs (Decidable (_ ∧ _ ∧ _))

/-- The cast value and the promised slot are the same seen from the next slot. -/
theorem effectiveSlot_castU64 [IsStrictOrderedRing K] {t : K} {next : ℕ}
    (h : CastKeepsSlot t next) :
    effectiveSlot (castU64 t) next = effectiveSlot ⌈t⌉.toNat next := by
  obtain ⟨hlow, hhigh, hkept⟩ := h
  unfold effectiveSlot castU64 truncInt
  by_cases hsign : 0 ≤ t
  · rw [if_pos hsign]
    have hfloor : 0 ≤ ⌊t⌋ := Int.floor_nonneg.mpr hsign
    have hrange : ⌊t⌋ < 2 ^ 64 := Int.floor_lt.mpr (by exact_mod_cast hhigh)
    rw [Int.emod_eq_of_lt hfloor hrange]
    rcases hkept with hwhole | hpast
    · rw [show ⌈t⌉ = ⌊t⌋ by rw [hwhole, Int.ceil_intCast, Int.floor_intCast]]
    · -- a fraction is cut off, but the slot has come
      have hceil : ⌈t⌉ ≤ next := Int.ceil_le.mpr (by exact_mod_cast hpast)
      have hle := Int.floor_le_ceil t
      omega
  · rw [if_neg hsign]
    have hceil : ⌈t⌉ = 0 := by
      rw [Int.ceil_eq_iff]
      constructor
      · rw [Int.cast_zero, zero_sub]
        exact hlow
      · rw [Int.cast_zero]
        exact (not_le.mp hsign).le
    rw [hceil]
    rfl

/-- The checked gate of a handler is the cast of the requested slot. -/
theorem takeEffectAtSlot_eq_ok {text : String} {fields : JsonObject K} {gate : ℕ}
    (h : takeEffectAtSlot text fields = .ok gate) : gate = castU64 (requestedSlot fields) := by
  unfold takeEffectAtSlot at h
  obtain ⟨tea, htea, h⟩ := bind_eq_ok h
  obtain ⟨_, -, h⟩ := bind_eq_ok h
  cases h
  rw [requestedSlot, htea]

variable {srv : ControlServer K} {links : LinkMap K} {fields : JsonObject K}

/-- The gate of an accepted profile swap. -/
theorem profileRequest_gate {r : SwapRequest K (ProfileShadow K)}
    (h : profileRequest srv links fields = .ok r) : r.gate = castU64 (requestedSlot fields) := by
  unfold profileRequest at h
  obtain ⟨⟨linkId, ctl⟩, -, h⟩ := bind_eq_ok h
  obtain ⟨_, -, h⟩ := bind_eq_ok h
  obtain ⟨_, -, h⟩ := bind_eq_ok h
  obtain ⟨items, -, h⟩ := bind_eq_ok h
  obtain ⟨_, -, h⟩ := bind_eq_ok h
  obtain ⟨_, -, h⟩ := bind_eq_ok h
  obtain ⟨taps, -, h⟩ := bind_eq_ok h
  obtain ⟨staged, -, h⟩ := bind_eq_ok h
  obtain ⟨gate, hgate, h⟩ := bind_eq_ok h
  obtain ⟨force, -, h⟩ := bind_eq_ok h
  obtain ⟨batch, -, h⟩ := bind_eq_ok h
  cases h
  exact takeEffectAtSlot_eq_ok hgate

/-- The gate of an accepted matrix profile swap. -/
theorem matrixRequest_gate {r : SwapRequest K (MatrixProfileShadow K)}
    (h : matrixRequest srv links fields = .ok r) : r.gate = castU64 (requestedSlot fields) := by
  unfold matrixRequest at h
  obtain ⟨⟨linkId, ctl⟩, -, h⟩ := bind_eq_ok h
  obtain ⟨_, -, h⟩ := bind_eq_ok h
  obtain ⟨_, -, h⟩ := bind_eq_ok h
  obtain ⟨_, -, h⟩ := bind_eq_ok h
  obtain ⟨items, -, h⟩ := bind_eq_ok h
  obtain ⟨_, -, h⟩ := bind_eq_ok h
  obtain ⟨force, -, h⟩ := bind_eq_ok h
  obtain ⟨gate, hgate, h⟩ := bind_eq_ok h
  obtain ⟨staged, -, h⟩ := bind_eq_ok h
  obtain ⟨_, -, h⟩ := bind_eq_ok h
  obtain ⟨batch, -, h⟩ := bind_eq_ok h
  cases h
  exact takeEffectAtSlot_eq_ok hgate

/-- The gate of a batch that is committed. -/
theorem commitRequest_gate {r : String × List (StagedOp K) × ℕ}
    (h : commitRequest srv fields = .ok r) : r.2.2 = castU64 (requestedSlot fields) := by
  unfold commitRequest at h
  obtain ⟨bid, -, h⟩ := bind_eq_ok h
  obtain ⟨ops, -, h⟩ := bind_eq_ok h
  obtain ⟨gate, hgate, h⟩ := bind_eq_ok h
  cases h
  exact takeEffectAtSlot_eq_ok hgate

variable [Libm K]

/-- The gate of an accepted scalar update. -/
theorem scalarRequest_gate {r : ScalarRequest K} (h : scalarRequest srv links fields = .ok r) :
    r.gate = castU64 (requestedSlot fields) := by
  unfold scalarRequest at h
  obtain ⟨⟨linkId, param, value⟩, -, h⟩ := bind_eq_ok h
  obtain ⟨ctl, -, h⟩ := bind_eq_ok h
  obtain ⟨_, -, h⟩ := bind_eq_ok h
  obtain ⟨spec, -, h⟩ := bind_eq_ok h
  obtain ⟨_, -, h⟩ := bind_eq_ok h
  obtain ⟨_, -, h⟩ := bind_eq_ok h
  obtain ⟨gate, hgate, h⟩ := bind_eq_ok h
  obtain ⟨batch, -, h⟩ := bind_eq_ok h
  cases h
  exact takeEffectAtSlot_eq_ok hgate

/-- A correlation swap casts whatever it is given. -/
theorem correlationRequest_gate {r : CorrelationRequest K}
    (h : correlationRequest links fields = .ok r) : r.gate = castU64 (requestedSlot fields) := by
  unfold correlationRequest at h
  obtain ⟨⟨linkId, ctl⟩, -, h⟩ := bind_eq_ok h
  obtain ⟨_, -, h⟩ := bind_eq_ok h
  obtain ⟨kind, -, h⟩ := bind_eq_ok h
  obtain ⟨_, -, h⟩ := bind_eq_ok h
  obtain ⟨rx, -, h⟩ := bind_eq_ok h
  obtain ⟨tx, -, h⟩ := bind_eq_ok h
  obtain ⟨staged, -, h⟩ := bind_eq_ok h
  obtain ⟨t, ht, h⟩ := bind_eq_ok h
  cases h
  rw [requestedSlot, ht]

/-- **The gate of a message.** Whatever a message publishes is behind the cast of the slot that it
asks for. -/
theorem handleMessage_gate (srv : ControlServer K) (links : LinkMap K) (fields : JsonObject K) :
    ∀ p ∈ (handleMessage srv links fields).published, p.gate = castU64 (requestedSlot fields) := by
  unfold handleMessage dispatch
  split
  · exact fun p hp => absurd hp List.not_mem_nil
  · split_ifs
    -- an operation outside a batch publishes once, with the slot that its request carries
    · unfold handleScalarUpdate
      split
      · exact fun p hp => absurd hp List.not_mem_nil
      · rename_i r hr
        split
        · exact fun p hp => absurd hp List.not_mem_nil
        · intro p hp
          rw [List.mem_singleton.mp hp]
          exact scalarRequest_gate hr
    · unfold handleProfileSwap
      split
      · exact fun p hp => absurd hp List.not_mem_nil
      · rename_i r hr
        split
        · exact fun p hp => absurd hp List.not_mem_nil
        · intro p hp
          rw [List.mem_singleton.mp hp]
          exact profileRequest_gate hr
    · unfold handleMatrixProfileSwap
      split
      · exact fun p hp => absurd hp List.not_mem_nil
      · rename_i r hr
        split
        · exact fun p hp => absurd hp List.not_mem_nil
        · intro p hp
          rw [List.mem_singleton.mp hp]
          exact matrixRequest_gate hr
    · unfold handleCorrelationSwap
      split
      · exact fun p hp => absurd hp List.not_mem_nil
      · rename_i r hr
        intro p hp
        rw [List.mem_singleton.mp hp]
        exact correlationRequest_gate hr
    -- opening or aborting a batch publishes nothing
    · unfold handleBatchBegin
      split
      · exact fun p hp => absurd hp List.not_mem_nil
      · split_ifs <;> exact fun p hp => absurd hp List.not_mem_nil
    · unfold handleBatchCommit
      split
      · exact fun p hp => absurd hp List.not_mem_nil
      -- a commit publishes the operations of its batch, all with the slot of the commit
      · rename_i bid ops gate hr
        intro p hp
        obtain ⟨op, -, rfl⟩ := List.mem_map.mp hp
        exact commitRequest_gate hr
    · unfold handleBatchAbort
      split <;> exact fun p hp => absurd hp List.not_mem_nil
    · exact fun p hp => absurd hp List.not_mem_nil

end Requests

/-! ## Runs -/

section Runs

variable {K : Type} [Field K] [LinearOrder K] [FloorRing K] [Libm K]

/-- The control plane and the schedule of the link `linkId`, side by side.  What the plane
accepts for the link is promised for the slot that the message asks for. -/
def watchStep (linkId : String) (w : ControlPlane K × Schedule K) (e : ControlEvent K) :
    ControlPlane K × Schedule K :=
  match e with
  | .message fields =>
      (w.1.step e, ((w.1.handled fields).published.filter (·.linkId = linkId)).foldl
        (fun s p => s.accept (promisedSlot fields) p.update) w.2)
  | .slot id _ => (w.1.step e, if id = linkId then w.2.slot else w.2)

/-- The link takes the update: no swap without `force` on a chain that does not lead with a tdl. -/
def ControlPlane.accepts (plane : ControlPlane K) (linkId : String) (u : Update K) : Prop :=
  match plane.links linkId with
  | none => True
  | some link => link.Accepts u

instance (plane : ControlPlane K) (linkId : String) : DecidablePred (plane.accepts linkId) :=
  fun u => by unfold ControlPlane.accepts; split <;> infer_instance

/-- **A timely message** for the link asks for a slot that the cast keeps, and for the effective
slot of every update of the link that still waits; its swaps are ones that the link takes, and
sequence numbers do not wrap around. -/
def Timely (linkId : String) (w : ControlPlane K × Schedule K) (e : ControlEvent K) : Prop :=
  match e with
  | .message fields =>
      let ps := (w.1.handled fields).published.filter (·.linkId = linkId)
      (ps ≠ [] → CastKeepsSlot (requestedSlot fields) w.2.nextSlot) ∧
        (ps ≠ [] → ∀ o ∈ w.2.waiting, effectiveSlot o.1 w.2.nextSlot =
          effectiveSlot (promisedSlot fields) w.2.nextSlot) ∧
        (∀ p ∈ ps, w.1.accepts linkId p.update) ∧
        w.2.waiting.length + ps.length < 2 ^ 32
  | .slot _ _ => True

instance (linkId : String) (w : ControlPlane K × Schedule K) (e : ControlEvent K) :
    Decidable (Timely linkId w e) := by
  cases e <;> unfold Timely <;> infer_instance

/-- Before the first message: prepared links, and an empty schedule. -/
def watchStart (warmupCapSlots : ℤ) (backendName : String) (setup : String → Option (LinkSetup K))
    (linkId : String) : ControlPlane K × Schedule K :=
  let plane := ControlPlane.prepared warmupCapSlots backendName setup
  (plane, .start (((plane.links linkId).map (·.view)).getD
    ⟨MutableParams.default, .declared, []⟩))

/-- The link exists and follows the schedule, or does not exist. -/
def Watched (linkId : String) (w : ControlPlane K × Schedule K) : Prop :=
  BatchesAdmitted w.1.server w.1.links.linkMap ∧
    ∀ link, w.1.links linkId = some link → Follows link w.2

omit [LinearOrder K] [FloorRing K] [Libm K] in
/-- Before the first message the link follows the empty schedule. -/
theorem watchStart_watched (warmupCapSlots : ℤ) (backendName : String)
    (setup : String → Option (LinkSetup K)) (linkId : String) :
    Watched linkId (watchStart warmupCapSlots backendName setup linkId) := by
  refine ⟨ControlPlane.prepared_batchesAdmitted warmupCapSlots backendName setup, ?_⟩
  intro link hlink
  have hplane : (ControlPlane.prepared warmupCapSlots backendName setup).links linkId =
      some link := hlink
  have hstart : (watchStart warmupCapSlots backendName setup linkId).2 = .start link.view := by
    simp only [watchStart, hplane, Option.map_some, Option.getD_some]
  rw [hstart]
  obtain ⟨s, -, rfl⟩ := Option.map_eq_some_iff.mp hplane
  constructor
  · rfl
  · rfl
  · rfl
  · exact ⟨fun h => absurd h Bool.false_ne_true, fun h => absurd h Bool.false_ne_true⟩
  · intro w hw
    exact absurd hw List.not_mem_nil
  · rfl
  · exact Nat.two_pow_pos 32
  · exact Nat.two_pow_pos 32

/-- One timely step keeps link and schedule together. -/
theorem watchStep_watched [IsStrictOrderedRing K] {linkId : String} (w : ControlPlane K × Schedule K) (e : ControlEvent K)
    (h : Watched linkId w) (ht : Timely linkId w e) : Watched linkId (watchStep linkId w e) := by
  obtain ⟨hb, hfollows⟩ := h
  cases e with
  | message fields =>
      refine ⟨ControlPlane.step_batchesAdmitted hb (.message fields), ?_⟩
      intro link' hlink'
      change (w.1.step (.message fields)).links linkId = some link' at hlink'
      rw [ControlPlane.step_message_links] at hlink'
      obtain ⟨link, hlink, rfl⟩ := Option.map_eq_some_iff.mp hlink'
      obtain ⟨hcast, hwaiting, haccepts, hroom⟩ := ht
      simp only [watchStep, LinkTable.publishTo]
      refine (hfollows link hlink).publishAll (castU64 (requestedSlot fields)) _ ?_ ?_
        hwaiting ?_ hroom
      · exact fun p hp => handleMessage_gate _ _ fields p (List.mem_of_mem_filter hp)
      · exact fun hsome => effectiveSlot_castU64 (hcast hsome)
      · intro p hp
        have := haccepts p hp
        rwa [ControlPlane.accepts, hlink] at this
  | slot id count =>
      refine ⟨ControlPlane.step_batchesAdmitted hb (.slot id count), ?_⟩
      intro link' hlink'
      change (w.1.step (.slot id count)).links linkId = some link' at hlink'
      by_cases hid : id = linkId
      · subst hid
        rw [ControlPlane.step_slot_links] at hlink'
        obtain ⟨link, hlink, rfl⟩ := Option.map_eq_some_iff.mp hlink'
        simp only [watchStep, if_true]
        exact (hfollows link hlink).slot count
      · rw [ControlPlane.step_slot_links_of_ne _ (Ne.symm hid)] at hlink'
        simp only [watchStep, if_neg hid]
        exact hfollows link' hlink'

/-- **Deterministic scheduling.** In every run whose messages are timely, the live
parameters, tap layout and mixing factor of the link are at every point those of its
schedule: every accepted update shows from the first slot at or after the one that its message
asks for on, and in no slot before. -/
theorem deterministic_scheduling [IsStrictOrderedRing K] (warmupCapSlots : ℤ) (backendName : String)
    (setup : String → Option (LinkSetup K)) (linkId : String) (events : List (ControlEvent K))
    (h : Run.Meets (watchStep linkId) (Timely linkId)
      (watchStart warmupCapSlots backendName setup linkId) events) :
    let w := events.foldl (watchStep linkId) (watchStart warmupCapSlots backendName setup linkId)
    ∀ link, w.1.links linkId = some link →
      link.view = w.2.view ∧ link.nextSlot = w.2.nextSlot := by
  intro w link hlink
  have hw : Watched linkId w :=
    h.invariant watchStep_watched (watchStart_watched warmupCapSlots backendName setup linkId)
  exact ⟨(hw.2 link hlink).view, (hw.2 link hlink).nextSlot⟩

end Runs

/-! ## Concrete runs -/

/-- A link that leads with a tdl, on a server without a warm-up cap. -/
def scheduledLink : LinkSetup ℚ :=
  { yamlInitial := MutableParams.default, mixing := [], chainHasLeadingTdl := true
    ntHint := 1, nrHint := 1, fixedMimoDeclared := false, correlationDeclared := false
    matrixProfileSupported := true, dlSizeSamplesHint := 8, slotCountHint := 100 }

/-- A scalar update of the link `l`. -/
def scalarMessage (param : String) (value gate : ℚ) : JsonObject ℚ :=
  [("link_id", .string "l"), ("param", .string param), ("value", .number value),
    ("take_effect_at_slot", .number gate)]

def scheduledPlane : ControlPlane ℚ × Schedule ℚ :=
  watchStart 0 "cpu" (fun id => if id = "l" then some scheduledLink else none) "l"

/-- Two updates for slot 2 and a third once they are visible. -/
def timelyRun : List (ControlEvent ℚ) :=
  [.message (scalarMessage "path_loss_db" 10 2), .slot "l" 100,
    .message (scalarMessage "cfo_hz" 5 2), .slot "l" 100, .slot "l" 100,
    .message (scalarMessage "path_loss_db" 3 0), .slot "l" 100]

def timelyEnd : ControlPlane ℚ × Schedule ℚ := timelyRun.foldl (watchStep "l") scheduledPlane

theorem deterministic_scheduling_timelyRun : ∃ link, timelyEnd.1.links "l" = some link ∧
    link.view = timelyEnd.2.view ∧ link.nextSlot = timelyEnd.2.nextSlot := by
  obtain ⟨link, hlink⟩ := Option.isSome_iff_exists.mp
    (show (timelyEnd.1.links "l").isSome = true by decide +kernel)
  exact ⟨link, hlink, deterministic_scheduling 0 "cpu"
    (fun id => if id = "l" then some scheduledLink else none) "l" timelyRun (by decide +kernel)
    link hlink⟩

/-- An update for slot 10, then one for the next slot. -/
def overtakingRun : List (ControlEvent ℚ) :=
  [.message (scalarMessage "path_loss_db" 10 10), .message (scalarMessage "cfo_hz" 5 0),
    .slot "l" 100]

/-- Both messages are accepted, and the first is visible in slot 0 although it was
scheduled for slot 10: the second moved its gate. -/
theorem overtaken_update_is_early :
    (scheduledPlane.1.handled (scalarMessage "path_loss_db" 10 10)).reply.ok = true ∧
      ((scheduledPlane.1.step (.message (scalarMessage "path_loss_db" 10 10))).handled
        (scalarMessage "cfo_hz" 5 0)).reply.ok = true ∧
      ((overtakingRun.foldl (watchStep "l") scheduledPlane).1.links "l").map
        (·.view.params.pathLossDb) = some 10 ∧
      (overtakingRun.foldl (watchStep "l") scheduledPlane).2.view.params.pathLossDb = 0 := by
  decide +kernel
