/-
# The IQ ring

`IqRing` of `ring.cpp`: a fixed buffer, the sequence number of the next sample, and
the start and size of the buffered window.  `Carries r l` relates a ring to the
stream `l` of all samples ever published through it; each operation gets one
specification lemma in terms of it, and callers use nothing else about the ring.
-/
import GpuChannel.Library.CyclicBuffer

open CyclicBuffer

/-- **`IqRing` (ring.h).** Sequence numbers are `uint64` in the source and never wrap. -/
structure IqRing (α : Type*) where
  buffer : List α
  nextSequence : ℕ
  start : ℕ
  size : ℕ
  deriving Repr

namespace IqRing

variable {α : Type*}

/-! ## Operations -/

def capacity (r : IqRing α) : ℕ := r.buffer.length

def freeCapacity (r : IqRing α) : ℕ := r.capacity - r.size

def earliestSequence (r : IqRing α) : ℕ := r.nextSequence - r.size

/-- `IqRing::reset`: an empty ring of the given capacity. -/
def reset [Zero α] (capacity_samples : ℕ) : IqRing α where
  buffer := List.replicate capacity_samples 0
  nextSequence := 0
  start := 0
  size := 0

/-- `IqRing::push`; `none` is the `false` that leaves the ring as it was. -/
def push (r : IqRing α) (samples : List α) : Option (IqRing α) :=
  if samples.isEmpty then some r
  else if samples.length > r.buffer.length ∨ r.size + samples.length > r.buffer.length then none
  else
    let tail := (r.start + r.size) % r.buffer.length
    some { r with
      buffer := writeCyclic r.buffer tail samples
      size := r.size + samples.length
      nextSequence := r.nextSequence + samples.length }

/-- `IqRing::read` of `count` samples from `sequence`; `none` is `false`. -/
def read (r : IqRing α) (sequence count : ℕ) : Option (List α) :=
  if count = 0 then some []
  else if sequence < r.earliestSequence ∨ sequence + count > r.nextSequence ∨ r.buffer = [] then none
  else
    let offset := sequence - r.earliestSequence
    let head := (r.start + offset) % r.buffer.length
    some (readCyclic r.buffer head count)

/-- `IqRing::discard_before`. -/
def discardBefore (r : IqRing α) (sequence : ℕ) : IqRing α :=
  let earliest := r.earliestSequence
  if sequence ≤ earliest ∨ r.size = 0 then r
  else if sequence ≥ r.nextSequence then
    -- everything is consumed: the tail stays where it is
    { r with start := (r.start + r.size) % r.buffer.length, size := 0 }
  else
    let discard_count := sequence - earliest
    { r with
      start := (r.start + discard_count) % r.buffer.length
      size := r.size - discard_count }

/-- `IqRing::view`: the cell where `count` samples from `sequence` lie contiguously,
or `none` for the empty span. -/
def view (r : IqRing α) (sequence count : ℕ) : Option ℕ :=
  if count = 0 ∨ r.buffer = [] ∨ sequence < r.earliestSequence ∨
      sequence + count > r.nextSequence then none
  else
    let offset := sequence - r.earliestSequence
    let head := (r.start + offset) % r.buffer.length
    if head + count > r.buffer.length then none else some head

/-- `IqRing::reserve`: the cell from which `count` free cells are contiguous,
or `none` for the empty span. -/
def reserve (r : IqRing α) (count : ℕ) : Option ℕ :=
  if count = 0 ∨ r.buffer = [] ∨ r.size + count > r.buffer.length then none
  else
    let tail := (r.start + r.size) % r.buffer.length
    if tail + count > r.buffer.length then none else some tail

/-- The producer filling a reserved span in place; nothing is published. -/
def fill (r : IqRing α) (tail : ℕ) (samples : List α) : IqRing α :=
  { r with buffer := blit r.buffer tail samples }

/-- `IqRing::commit`. -/
def commit (r : IqRing α) (count : ℕ) : IqRing α :=
  { r with size := r.size + count, nextSequence := r.nextSequence + count }

/-! ## The published stream -/

/-- The ring carries the stream `l`: everything ever published is `l`, the sample
with sequence number `q` lives in cell `q % capacity`, and the buffered window is
the last `size` samples of `l`. -/
structure Carries (r : IqRing α) (l : List α) : Prop where
  next : r.nextSequence = l.length
  size_le : r.size ≤ r.capacity
  size_le_next : r.size ≤ r.nextSequence
  start_eq : r.start = r.earliestSequence % r.capacity
  holds : Holds r.buffer l r.earliestSequence l.length

namespace Carries

variable {r : IqRing α} {l : List α}

theorem earliest_le (h : r.Carries l) : r.earliestSequence ≤ l.length := by
  have := h.next
  unfold earliestSequence; omega

theorem length_eq (h : r.Carries l) : l.length = r.earliestSequence + r.size := by
  have := h.next
  have := h.size_le_next
  unfold earliestSequence; omega

/-- The tail of the window sits in the cell of the next sequence number. -/
theorem tail_eq (h : r.Carries l) : (r.start + r.size) % r.buffer.length =
    l.length % r.buffer.length := by
  rw [h.start_eq, h.length_eq]
  exact Nat.mod_add_mod _ _ _

/-- The head of a range inside the window sits in the cell of its first sequence number. -/
theorem head_eq (h : r.Carries l) {q : ℕ} (hq : r.earliestSequence ≤ q) :
    (r.start + (q - r.earliestSequence)) % r.buffer.length = q % r.buffer.length := by
  rw [h.start_eq]
  calc (r.earliestSequence % r.capacity + (q - r.earliestSequence)) % r.buffer.length
      = (r.earliestSequence + (q - r.earliestSequence)) % r.buffer.length := Nat.mod_add_mod _ _ _
    _ = q % r.buffer.length := by rw [Nat.add_sub_cancel' hq]

end Carries

theorem carries_reset [Zero α] (c : ℕ) : (reset c : IqRing α).Carries [] where
  next := rfl
  size_le := Nat.zero_le _
  size_le_next := le_refl _
  start_eq := (Nat.zero_mod _).symm
  holds := Holds.of_le (Nat.zero_le _)

/-! ### `push` -/

/-- A push that fits publishes the samples and moves nothing else. -/
theorem Carries.push {r r' : IqRing α} {l samples : List α} (h : r.Carries l)
    (hp : r.push samples = some r') :
    r'.Carries (l ++ samples) ∧ r'.capacity = r.capacity ∧ r'.size = r.size + samples.length ∧
      r'.earliestSequence = r.earliestSequence := by
  unfold IqRing.push at hp
  split_ifs at hp with h₁ h₂
  · obtain rfl := Option.some.inj hp
    have hnil : samples = [] := List.isEmpty_iff.mp h₁
    subst hnil
    exact ⟨by rw [List.append_nil]; exact h, rfl, rfl, rfl⟩
  · obtain rfl := Option.some.inj hp
    push Not at h₂
    have hnext := h.next
    have hsn := h.size_le_next
    have hcap : 0 < r.buffer.length := by
      have : samples ≠ [] := fun hn => h₁ (by simp [hn])
      have := List.length_pos_iff.mpr this
      omega
    have he : r.nextSequence + samples.length - (r.size + samples.length) =
        r.earliestSequence := by unfold earliestSequence; omega
    have hlen : (writeCyclic r.buffer ((r.start + r.size) % r.buffer.length) samples).length =
        r.buffer.length := length_writeCyclic _ _ _ (Nat.mod_lt _ hcap).le h₂.1
    refine ⟨⟨?_, ?_, ?_, ?_, ?_⟩, hlen, rfl, he⟩
    · simp only [List.length_append]; omega
    · simp only [capacity, hlen]; exact h₂.2
    · simp only; omega
    · simp only [earliestSequence, capacity, hlen] at he ⊢
      rw [he]; exact h.start_eq
    · show Holds _ _ (r.nextSequence + samples.length - (r.size + samples.length)) _
      rw [he, h.tail_eq, List.length_append]
      refine h.holds.writeCyclic h.earliest_le samples ?_
      have := h.length_eq
      omega

/-- A push that finds room succeeds. -/
theorem exists_push (r : IqRing α) (samples : List α)
    (h : r.size + samples.length ≤ r.capacity) : ∃ r', r.push samples = some r' := by
  unfold push
  split_ifs with h₁ h₂
  · exact ⟨_, rfl⟩
  · unfold capacity at h; omega
  · exact ⟨_, rfl⟩

/-! ### `read` and `view` -/

/-- A read inside the window returns that range of the stream. -/
theorem Carries.read {r : IqRing α} {l : List α} (h : r.Carries l) {q n : ℕ}
    (hlo : r.earliestSequence ≤ q) (hhi : q + n ≤ l.length) :
    r.read q n = some (slice l q n) := by
  unfold IqRing.read
  dsimp only
  have hnext := h.next
  have hlen := h.length_eq
  have hcap := h.size_le
  unfold capacity at hcap
  split_ifs with h₁ h₂
  · simp [slice, h₁]
  · rcases h₂ with h₂ | h₂ | h₂
    · omega
    · omega
    · rw [h₂, List.length_nil] at hcap; omega
  · rw [h.head_eq hlo, h.holds.readCyclic hlo hhi (by omega)]

/-- A view lies inside the window, in the cells of its sequence numbers. -/
theorem Carries.view {r : IqRing α} {l : List α} (h : r.Carries l) {q n head : ℕ}
    (hv : r.view q n = some head) :
    0 < n ∧ r.earliestSequence ≤ q ∧ q + n ≤ l.length ∧ head = q % r.capacity ∧
      head + n ≤ r.capacity := by
  have hnext := h.next
  unfold IqRing.view at hv
  dsimp only at hv
  split_ifs at hv with h₁ h₂
  push Not at h₁
  obtain ⟨h₃, -, h₄, h₅⟩ := h₁
  rw [h.head_eq h₄] at h₂
  have hhead := Option.some.inj hv
  rw [h.head_eq h₄] at hhead
  subst hhead
  exact ⟨by omega, h₄, by omega, rfl, by unfold capacity; omega⟩

/-- What a held view reads, as long as its range has not been discarded. -/
theorem Carries.slice_view {r : IqRing α} {l : List α} (h : r.Carries l) {q n : ℕ}
    (hlo : r.earliestSequence ≤ q) (hhi : q + n ≤ l.length)
    (hfit : q % r.capacity + n ≤ r.capacity) :
    slice r.buffer (q % r.capacity) n = slice l q n :=
  h.holds.slice hlo hhi hfit

/-! ### `discard_before` -/

@[simp] theorem buffer_discardBefore (r : IqRing α) (q : ℕ) :
    (r.discardBefore q).buffer = r.buffer := by
  unfold discardBefore; dsimp only; split_ifs <;> rfl

@[simp] theorem capacity_discardBefore (r : IqRing α) (q : ℕ) :
    (r.discardBefore q).capacity = r.capacity := by
  rw [capacity, capacity, buffer_discardBefore]

@[simp] theorem nextSequence_discardBefore (r : IqRing α) (q : ℕ) :
    (r.discardBefore q).nextSequence = r.nextSequence := by
  unfold discardBefore; dsimp only; split_ifs <;> rfl

theorem size_discardBefore_le (r : IqRing α) (q : ℕ) : (r.discardBefore q).size ≤ r.size := by
  unfold discardBefore; dsimp only; split_ifs
  · exact le_refl _
  · exact Nat.zero_le _
  · exact Nat.sub_le _ _

/-- Discarding moves the start of the window to `q`, and never past its end. -/
theorem Carries.discardBefore {r : IqRing α} {l : List α} (h : r.Carries l) (q : ℕ) :
    (r.discardBefore q).Carries l ∧
      (r.discardBefore q).earliestSequence = max r.earliestSequence (min q l.length) := by
  have hnext := h.next
  have hlen := h.length_eq
  have hsn := h.size_le_next
  have hsc := h.size_le
  unfold IqRing.discardBefore
  dsimp only
  split_ifs with h₁ h₂
  · exact ⟨h, by omega⟩
  · have he : r.nextSequence - 0 = r.earliestSequence + r.size := by omega
    refine ⟨⟨hnext, Nat.zero_le _, Nat.zero_le _, ?_, ?_⟩, ?_⟩
    · show (r.start + r.size) % r.buffer.length = (r.nextSequence - 0) % r.buffer.length
      rw [h.tail_eq, Nat.sub_zero, hnext]
    · exact Holds.of_le (by simp only [earliestSequence]; omega)
    · simp only [earliestSequence] at he h₁ ⊢; omega
  · push Not at h₁ h₂
    have he : r.nextSequence - (r.size - (q - r.earliestSequence)) = q := by omega
    refine ⟨⟨hnext, ?_, ?_, ?_, ?_⟩, ?_⟩
    · show r.size - (q - r.earliestSequence) ≤ r.capacity
      omega
    · show r.size - (q - r.earliestSequence) ≤ r.nextSequence
      omega
    · show (r.start + (q - r.earliestSequence)) % r.buffer.length =
        (r.nextSequence - (r.size - (q - r.earliestSequence))) % r.buffer.length
      rw [he, h.head_eq h₁.1.le]
    · show Holds _ _ (r.nextSequence - (r.size - (q - r.earliestSequence))) _
      rw [he]; exact h.holds.mono h₁.1.le le_rfl
    · show r.nextSequence - (r.size - (q - r.earliestSequence)) = _
      omega

/-! ### `reserve`, `fill` and `commit` -/

/-- A reservation is the contiguous free space at the cell of the next sequence number. -/
theorem Carries.reserve {r : IqRing α} {l : List α} (h : r.Carries l) {n tail : ℕ}
    (hr : r.reserve n = some tail) :
    0 < n ∧ r.size + n ≤ r.capacity ∧ tail = l.length % r.capacity ∧ tail + n ≤ r.capacity := by
  unfold IqRing.reserve at hr
  dsimp only at hr
  split_ifs at hr with h₁ h₂
  push Not at h₁
  rw [h.tail_eq] at h₂
  have htail := Option.some.inj hr
  rw [h.tail_eq] at htail
  subst htail
  exact ⟨by omega, by unfold capacity; omega, rfl, by unfold capacity; omega⟩

/-- Contiguous free cells at the tail can be reserved. -/
theorem Carries.reserve_eq {r : IqRing α} {l : List α} (h : r.Carries l) {n tail : ℕ}
    (hn : 0 < n) (hfree : r.size + n ≤ r.capacity) (htail : tail = l.length % r.capacity)
    (hcontig : tail + n ≤ r.capacity) : r.reserve n = some tail := by
  unfold capacity at *
  unfold IqRing.reserve
  dsimp only
  rw [h.tail_eq, ← htail, if_neg, if_neg (by omega)]
  rintro (h | h | h)
  · omega
  · rw [h, List.length_nil] at hfree; omega
  · omega

/-- The cells of the next `row.length` samples already hold `row`. -/
def Staged (r : IqRing α) (row : List α) : Prop :=
  ∀ j < row.length, r.buffer[(r.nextSequence + j) % r.capacity]? = row[j]?

/-- Filling a reservation keeps the published window and stages the row. -/
theorem Carries.fill {r : IqRing α} {l : List α} (h : r.Carries l) {row : List α}
    (hfree : r.size + row.length ≤ r.capacity)
    (hcontig : l.length % r.capacity + row.length ≤ r.capacity) :
    (r.fill (l.length % r.capacity) row).Carries l ∧
      (r.fill (l.length % r.capacity) row).capacity = r.capacity ∧
      (r.fill (l.length % r.capacity) row).Staged row := by
  have hlen : (blit r.buffer (l.length % r.capacity) row).length = r.buffer.length :=
    length_blit _ _ _ hcontig
  have hL := h.length_eq
  refine ⟨⟨h.next, ?_, h.size_le_next, ?_, ?_⟩, hlen, ?_⟩
  · show r.size ≤ (blit _ _ _).length
    rw [hlen]; exact h.size_le
  · show r.start = r.earliestSequence % (blit _ _ _).length
    rw [hlen]; exact h.start_eq
  · exact h.holds.blit_free row (by unfold capacity at *; omega) hcontig
  · intro j hj
    show (blit _ _ _)[(r.nextSequence + j) % (blit _ _ _).length]? = _
    have hc : 0 < r.buffer.length := by unfold capacity at *; omega
    have hmod : (r.nextSequence + j) % r.buffer.length = l.length % r.capacity + j := by
      rw [h.next]
      have hd : j ≤ r.buffer.length := by unfold capacity at *; omega
      rcases mod_add_cases (q := l.length) hc hd with ⟨hm, -⟩ | hm
      · exact hm
      · unfold capacity at *; omega
    rw [hlen, hmod, getElem?_blit _ _ _ hcontig, if_pos (by omega), Nat.add_sub_cancel_left]

/-- Committing a staged row publishes exactly that row. -/
theorem Carries.commit {r : IqRing α} {l row : List α} (h : r.Carries l)
    (hs : r.Staged row) (hfree : r.size + row.length ≤ r.capacity) :
    (r.commit row.length).Carries (l ++ row) ∧
      (r.commit row.length).earliestSequence = r.earliestSequence := by
  have hnext := h.next
  have hsn := h.size_le_next
  have he : r.nextSequence + row.length - (r.size + row.length) = r.earliestSequence := by
    unfold earliestSequence; omega
  refine ⟨⟨?_, hfree, ?_, ?_, ?_⟩, he⟩
  · simp only [IqRing.commit, List.length_append]; omega
  · show r.size + row.length ≤ r.nextSequence + row.length
    omega
  · show r.start = (r.nextSequence + row.length - (r.size + row.length)) % r.capacity
    rw [he]; exact h.start_eq
  · show Holds r.buffer (l ++ row) (r.nextSequence + row.length - (r.size + row.length)) _
    rw [he, List.length_append]
    refine h.holds.extend_blit row fun j hj => ?_
    rw [← hs j hj, hnext]
    rfl

end IqRing
