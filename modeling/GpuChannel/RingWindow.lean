/-
# The ring as a window of its stream

The abstract ring keeps no buffer: it is the next sequence number and the list of the
retained samples.  A client pushes, reads, views, discards, and fills a reserved span cell
by cell before it commits it.  Every run of the ring gives the client the answers of the
abstract ring and holds at all times what the abstract ring holds.
-/
import GpuChannel.Library.Run
import GpuChannel.Ring

open CyclicBuffer

variable {α : Type*}

/-- One call of a client; `write` stores a sample in a cell of the reserved span. -/
inductive RingCall (α : Type*)
  | push (samples : List α)
  | read (sequence count : ℕ)
  | view (sequence count : ℕ)
  | discardBefore (sequence : ℕ)
  | reserve (count : ℕ)
  | write (index : ℕ) (sample : α)
  | commit

/-- What a call answers; a view answers with the samples that its span shows. -/
inductive RingAnswer (α : Type*)
  | pushed (ok : Bool)
  | samples (range : Option (List α))
  | reserved (ok : Bool)
  | done
  deriving DecidableEq

/-! ## The client of the ring -/

/-- The ring with the span that its client holds: first cell and length. -/
structure RingClient (α : Type*) where
  ring : IqRing α
  span : Option (ℕ × ℕ)
  answers : List (RingAnswer α)

namespace RingClient

def start [Zero α] (capacity : ℕ) : RingClient α :=
  { ring := IqRing.reset capacity, span := none, answers := [] }

/-- A sample stored through the reserved span. -/
def store (r : IqRing α) (cell : ℕ) (sample : α) : IqRing α :=
  { r with buffer := r.buffer.set cell sample }

def step (c : RingClient α) : RingCall α → RingClient α
  | .push samples =>
      match c.ring.push samples with
      | some ring => { ring := ring, span := none, answers := c.answers ++ [.pushed true] }
      | none => { c with span := none, answers := c.answers ++ [.pushed false] }
  | .read sequence count =>
      { c with answers := c.answers ++ [.samples (c.ring.read sequence count)] }
  | .view sequence count =>
      { c with answers := c.answers ++
          [.samples ((c.ring.view sequence count).map fun head => slice c.ring.buffer head count)] }
  | .discardBefore sequence =>
      { c with ring := c.ring.discardBefore sequence, answers := c.answers ++ [.done] }
  | .reserve count =>
      match c.ring.reserve count with
      | some tail => { c with span := some (tail, count), answers := c.answers ++ [.reserved true] }
      | none => { c with span := none, answers := c.answers ++ [.reserved false] }
  | .write index sample =>
      match c.span with
      | some (tail, _) =>
          { c with ring := store c.ring (tail + index) sample, answers := c.answers ++ [.done] }
      | none => { c with answers := c.answers ++ [.done] }
  | .commit =>
      match c.span with
      | some (_, count) =>
          { ring := c.ring.commit count, span := none, answers := c.answers ++ [.done] }
      | none => { c with answers := c.answers ++ [.done] }

end RingClient

/-! ## The abstract ring -/

/-- **The abstract ring.** `held` is the reserved row: `none` where nothing is written yet. -/
structure RingWindow (α : Type*) where
  capacity : ℕ
  next : ℕ
  samples : List α
  held : Option (List (Option α))
  answers : List (RingAnswer α)

namespace RingWindow

def start (capacity : ℕ) : RingWindow α :=
  { capacity := capacity, next := 0, samples := [], held := none, answers := [] }

def earliest (w : RingWindow α) : ℕ := w.next - w.samples.length

/-- The range is retained as a whole. -/
def Retains (w : RingWindow α) (sequence count : ℕ) : Prop :=
  w.earliest ≤ sequence ∧ sequence + count ≤ w.next

/-- The samples of a range. -/
def range (w : RingWindow α) (sequence count : ℕ) : List α :=
  slice w.samples (sequence - w.earliest) count

/-- The cells of `count` samples from `sequence` on do not wrap. -/
def Contiguous (w : RingWindow α) (sequence count : ℕ) : Prop :=
  sequence % w.capacity + count ≤ w.capacity

instance (w : RingWindow α) (sequence count : ℕ) : Decidable (w.Retains sequence count) :=
  inferInstanceAs (Decidable (_ ∧ _))

instance (w : RingWindow α) (sequence count : ℕ) : Decidable (w.Contiguous sequence count) :=
  inferInstanceAs (Decidable (_ ≤ _))

def step (w : RingWindow α) : RingCall α → RingWindow α
  | .push samples =>
      if w.samples.length + samples.length ≤ w.capacity then
        { w with
          next := w.next + samples.length, samples := w.samples ++ samples, held := none
          answers := w.answers ++ [.pushed true] }
      else { w with held := none, answers := w.answers ++ [.pushed false] }
  | .read sequence count =>
      { w with answers := w.answers ++ [.samples
          (if count = 0 ∨ w.Retains sequence count then some (w.range sequence count) else none)] }
  | .view sequence count =>
      { w with answers := w.answers ++ [.samples
          (if count ≠ 0 ∧ w.Retains sequence count ∧ w.Contiguous sequence count then
            some (w.range sequence count) else none)] }
  | .discardBefore sequence =>
      { w with samples := w.samples.drop (sequence - w.earliest), answers := w.answers ++ [.done] }
  | .reserve count =>
      if count ≠ 0 ∧ w.samples.length + count ≤ w.capacity ∧ w.Contiguous w.next count then
        { w with
          held := some (List.replicate count none), answers := w.answers ++ [.reserved true] }
      else { w with held := none, answers := w.answers ++ [.reserved false] }
  | .write index sample =>
      { w with held := w.held.map (·.set index (some sample)), answers := w.answers ++ [.done] }
  | .commit =>
      match w.held.map List.reduceOption with
      | some row =>
          { w with
            next := w.next + row.length, samples := w.samples ++ row, held := none
            answers := w.answers ++ [.done] }
      | none => { w with answers := w.answers ++ [.done] }

/-- **The discipline of a client**: it writes inside its span and commits what it has filled. -/
def Allows (w : RingWindow α) : RingCall α → Prop
  | .write index _ => ∀ row ∈ w.held, index < row.length
  | .commit => ∀ row ∈ w.held, none ∉ row
  | _ => True

instance [DecidableEq α] (w : RingWindow α) (call : RingCall α) : Decidable (w.Allows call) := by
  cases call <;> unfold Allows <;> infer_instance

end RingWindow

/-! ## The simulation -/

/-- The retained samples of a ring, read out of its buffer. -/
def IqRing.contents (r : IqRing α) : List α := readCyclic r.buffer r.start r.size

/-- The span that the client holds is the one that the abstract ring has reserved, and it
shows what has been written. -/
structure SpanSim (r : IqRing α) (l : List α) (tail count : ℕ) (row : List (Option α)) :
    Prop where
  length : row.length = count
  pos : 0 < count
  cell : tail = l.length % r.capacity
  free : r.size + count ≤ r.capacity
  fits : tail + count ≤ r.capacity
  shows : ∀ j x, row[j]? = some (some x) → r.buffer[tail + j]? = some x

/-- **The simulation.** The ring carries a stream whose last samples are the abstract window. -/
structure RingSim (c : RingClient α) (w : RingWindow α) (l : List α) : Prop where
  carries : c.ring.Carries l
  capacity : w.capacity = c.ring.capacity
  next : w.next = l.length
  samples : w.samples = l.drop c.ring.earliestSequence
  answers : w.answers = c.answers
  span : match c.span, w.held with
    | some (tail, count), some row => SpanSim c.ring l tail count row
    | none, none => True
    | _, _ => False

namespace RingSim

variable {c : RingClient α} {w : RingWindow α} {l : List α}

theorem length_samples (h : RingSim c w l) : w.samples.length = c.ring.size := by
  have hlen := h.carries.length_eq
  rw [h.samples, List.length_drop]
  omega

theorem earliest (h : RingSim c w l) : w.earliest = c.ring.earliestSequence := by
  have hlen := h.carries.length_eq
  rw [RingWindow.earliest, h.length_samples, h.next]
  omega

/-- A retained range of the window is that range of the stream. -/
theorem range (h : RingSim c w l) {sequence count : ℕ} (hr : w.Retains sequence count) :
    w.range sequence count = slice l sequence count := by
  unfold RingWindow.Retains at hr
  rw [h.earliest] at hr
  unfold RingWindow.range slice
  rw [h.earliest, h.samples, List.drop_drop, Nat.add_sub_cancel' hr.1]

/-- What the ring holds is what the abstract ring holds. -/
theorem contents (h : RingSim c w l) : c.ring.contents = w.samples := by
  have hlen := h.carries.length_eq
  unfold IqRing.contents
  rw [h.carries.start_eq]
  have hread := h.carries.holds.readCyclic (q := c.ring.earliestSequence) (n := c.ring.size)
    le_rfl (by omega) h.carries.size_le
  refine hread.trans ?_
  rw [h.samples, slice, List.take_of_length_le]
  rw [List.length_drop]
  omega

/-! ### One step -/

theorem push (h : RingSim c w l) (samples : List α) :
    ∃ l', RingSim (c.step (.push samples)) (w.step (.push samples)) l' := by
  by_cases hfit : c.ring.size + samples.length ≤ c.ring.capacity
  · obtain ⟨r', hr'⟩ := c.ring.exists_push samples hfit
    obtain ⟨hcarries, hcap, -, hearliest⟩ := h.carries.push hr'
    refine ⟨l ++ samples, ?_⟩
    have hw : w.samples.length + samples.length ≤ w.capacity := by
      rw [h.length_samples, h.capacity]
      exact hfit
    simp only [RingClient.step, hr', RingWindow.step, if_pos hw]
    refine ⟨hcarries, h.capacity.trans hcap.symm, ?_, ?_, ?_, trivial⟩
    · simp only [List.length_append, h.next]
    · simp only [hearliest, h.samples]
      rw [List.drop_append_of_le_length h.carries.earliest_le]
    · simp only [h.answers]
  · have hnone : c.ring.push samples = none := by
      unfold IqRing.push
      unfold IqRing.capacity at hfit
      have hsize := h.carries.size_le
      unfold IqRing.capacity at hsize
      have hne : ¬ samples.isEmpty = true := by
        intro hempty
        rw [List.isEmpty_iff.mp hempty, List.length_nil] at hfit
        omega
      rw [if_neg hne, if_pos (Or.inr (by omega))]
    have hw : ¬ w.samples.length + samples.length ≤ w.capacity := by
      rw [h.length_samples, h.capacity]
      exact hfit
    refine ⟨l, ?_⟩
    simp only [RingClient.step, hnone, RingWindow.step, if_neg hw]
    exact ⟨h.carries, h.capacity, h.next, h.samples, by simp only [h.answers], trivial⟩

/-- A read answers exactly with what is retained. -/
theorem read_eq (h : RingSim c w l) (sequence count : ℕ) :
    c.ring.read sequence count =
      if count = 0 ∨ w.Retains sequence count then some (w.range sequence count) else none := by
  by_cases hzero : count = 0
  · subst hzero
    rw [if_pos (Or.inl rfl)]
    simp [IqRing.read, RingWindow.range, slice]
  · by_cases hr : w.Retains sequence count
    · rw [if_pos (Or.inr hr), h.range hr]
      unfold RingWindow.Retains at hr
      rw [h.earliest, h.next] at hr
      exact h.carries.read hr.1 hr.2
    · have hno : ¬ (count = 0 ∨ w.Retains sequence count) := by
        rintro (h0 | hr')
        · exact hzero h0
        · exact hr hr'
      rw [if_neg hno]
      unfold RingWindow.Retains at hr
      rw [h.earliest, h.next] at hr
      unfold IqRing.read
      rw [if_neg hzero, if_pos]
      have hnext := h.carries.next
      omega

/-- A view shows exactly the retained ranges that do not wrap. -/
theorem view_eq (h : RingSim c w l) (sequence count : ℕ) :
    (c.ring.view sequence count).map (fun head => slice c.ring.buffer head count) =
      if count ≠ 0 ∧ w.Retains sequence count ∧ w.Contiguous sequence count then
        some (w.range sequence count) else none := by
  have hnext := h.carries.next
  cases hv : c.ring.view sequence count with
  | some head =>
      obtain ⟨hpos, hlo, hhi, hhead, hfit⟩ := h.carries.view hv
      have hr : w.Retains sequence count := by
        unfold RingWindow.Retains
        rw [h.earliest, h.next]
        exact ⟨hlo, hhi⟩
      have hc : w.Contiguous sequence count := by
        unfold RingWindow.Contiguous
        rw [h.capacity, ← hhead]
        exact hfit
      rw [if_pos ⟨by omega, hr, hc⟩, h.range hr, Option.map_some, hhead]
      rw [hhead] at hfit
      exact congrArg some (h.carries.slice_view hlo hhi hfit)
  | none =>
      -- no view: the range is empty, not retained, or it wraps
      rw [if_neg, Option.map_none]
      rintro ⟨hpos, hr, hc⟩
      unfold RingWindow.Retains at hr
      unfold RingWindow.Contiguous at hc
      rw [h.earliest, h.next] at hr
      rw [h.capacity] at hc
      have hbuf : c.ring.buffer ≠ [] := by
        intro hnil
        have hsize := h.carries.size_le
        have hlen := h.carries.length_eq
        unfold IqRing.capacity at hsize
        rw [hnil, List.length_nil] at hsize
        omega
      unfold IqRing.view at hv
      rw [if_neg (by
        rintro (h₁ | h₁ | h₁ | h₁)
        · exact hpos h₁
        · exact hbuf h₁
        · omega
        · omega)] at hv
      dsimp only at hv
      rw [h.carries.head_eq hr.1] at hv
      unfold IqRing.capacity at hc
      rw [if_neg (by omega)] at hv
      cases hv

theorem discardBefore (h : RingSim c w l) (sequence : ℕ) :
    RingSim (c.step (.discardBefore sequence)) (w.step (.discardBefore sequence)) l := by
  obtain ⟨hcarries, hearliest⟩ := h.carries.discardBefore sequence
  simp only [RingClient.step, RingWindow.step]
  refine ⟨hcarries, ?_, h.next, ?_, by simp only [h.answers], ?_⟩
  · simp only [IqRing.capacity_discardBefore]
    exact h.capacity
  -- the sequence lies before the retained ones, among them, or beyond them
  · simp only [h.earliest, h.samples, hearliest, List.drop_drop]
    rcases le_total sequence c.ring.earliestSequence with hle | hle
    · congr 1
      omega
    · rcases le_total sequence l.length with hl | hl
      · congr 1
        omega
      · rw [List.drop_eq_nil_of_le (by omega), List.drop_eq_nil_of_le (by omega)]
  · have hspan := h.span
    cases hs : c.span with
    | none =>
        cases hh : w.held with
        | none => trivial
        | some row =>
            rw [hs, hh] at hspan
            exact hspan
    | some span =>
        obtain ⟨tail, count⟩ := span
        cases hh : w.held with
        | none =>
            rw [hs, hh] at hspan
            exact hspan
        | some row =>
            rw [hs, hh] at hspan
            have hsize := c.ring.size_discardBefore_le sequence
            refine ⟨hspan.length, hspan.pos, ?_, ?_, ?_, ?_⟩
            · simp only [IqRing.capacity_discardBefore]
              exact hspan.cell
            · simp only [IqRing.capacity_discardBefore]
              have := hspan.free
              omega
            · simp only [IqRing.capacity_discardBefore]
              exact hspan.fits
            · simp only [IqRing.buffer_discardBefore]
              exact hspan.shows

/-- A reservation succeeds exactly when the cells are free and contiguous. -/
theorem reserve (h : RingSim c w l) (count : ℕ) :
    RingSim (c.step (.reserve count)) (w.step (.reserve count)) l := by
  have hw : w.samples.length = c.ring.size := h.length_samples
  cases hr : c.ring.reserve count with
  | some tail =>
      obtain ⟨hpos, hfree, htail, hfits⟩ := h.carries.reserve hr
      have hyes : count ≠ 0 ∧ w.samples.length + count ≤ w.capacity ∧
          w.Contiguous w.next count := by
        refine ⟨by omega, by rw [hw, h.capacity]; exact hfree, ?_⟩
        unfold RingWindow.Contiguous
        rw [h.next, h.capacity, ← htail]
        exact hfits
      simp only [RingClient.step, hr, RingWindow.step, if_pos hyes]
      refine ⟨h.carries, h.capacity, h.next, h.samples, by simp only [h.answers],
        ⟨List.length_replicate, hpos, htail, hfree, hfits, ?_⟩⟩
      intro j x hj
      have hrep := List.mem_of_getElem? hj
      rw [List.mem_replicate] at hrep
      cases hrep.2
  | none =>
      have hno : ¬ (count ≠ 0 ∧ w.samples.length + count ≤ w.capacity ∧
          w.Contiguous w.next count) := by
        rintro ⟨hpos, hfree, hcontig⟩
        rw [hw, h.capacity] at hfree
        unfold RingWindow.Contiguous at hcontig
        rw [h.next, h.capacity] at hcontig
        rw [h.carries.reserve_eq (by omega) hfree rfl hcontig] at hr
        cases hr
      simp only [RingClient.step, hr, RingWindow.step, if_neg hno]
      exact ⟨h.carries, h.capacity, h.next, h.samples, by simp only [h.answers], trivial⟩

/-- A sample stored in a reserved cell stays out of the retained window. -/
theorem carries_store (h : c.ring.Carries l) {tail count : ℕ} {row : List (Option α)}
    (hspan : SpanSim c.ring l tail count row) {index : ℕ} (hindex : index < count) (sample : α) :
    (RingClient.store c.ring (tail + index) sample).Carries l := by
  have hlen := h.length_eq
  have hfree := hspan.free
  have hfits := hspan.fits
  have hbuf : (c.ring.buffer.set (tail + index) sample).length = c.ring.buffer.length :=
    List.length_set
  refine ⟨h.next, ?_, h.size_le_next, ?_, ?_⟩
  · simp only [IqRing.capacity, RingClient.store, List.length_set]
    exact h.size_le
  · simp only [IqRing.capacity, RingClient.store, List.length_set]
    exact h.start_eq
  · intro q hlo hhi
    -- a cell of the window is no cell of the span
    have hne : tail + index ≠ q % c.ring.buffer.length := by
      intro heq
      have hcell : (l.length + index) % c.ring.buffer.length = tail + index := by
        have hcap : 0 < c.ring.buffer.length := by
          unfold IqRing.capacity at hfits
          omega
        unfold IqRing.capacity at hfits hfree
        have htail : tail = l.length % c.ring.buffer.length := hspan.cell
        rcases mod_add_cases (q := l.length) hcap (by omega : index ≤ c.ring.buffer.length)
          with ⟨hm, -⟩ | hm
        · omega
        · omega
      have hsame : q = l.length + index := by
        unfold IqRing.capacity at hfree
        have hlo' : c.ring.earliestSequence ≤ q := hlo
        refine eq_of_mod_eq (c := c.ring.buffer.length) ?_ ?_ ?_
        · omega
        · omega
        · omega
      omega
    change (c.ring.buffer.set (tail + index) sample)[q % (c.ring.buffer.set _ sample).length]? = _
    rw [hbuf, List.getElem?_set_ne hne]
    exact h.holds q hlo hhi

theorem write (h : RingSim c w l) {index : ℕ} {sample : α} (hallows : w.Allows (.write index sample)) :
    RingSim (c.step (.write index sample)) (w.step (.write index sample)) l := by
  have hspan := h.span
  cases hs : c.span with
  | none =>
      cases hh : w.held with
      | none =>
          simp only [RingClient.step, hs, RingWindow.step, hh, Option.map_none]
          exact ⟨h.carries, h.capacity, h.next, h.samples, by simp only [h.answers],
            by simp only⟩
      | some row =>
          rw [hs, hh] at hspan
          exact hspan.elim
  | some span =>
      obtain ⟨tail, count⟩ := span
      cases hh : w.held with
      | none =>
          rw [hs, hh] at hspan
          exact hspan.elim
      | some row =>
          rw [hs, hh] at hspan
          have hindex : index < count := by
            have := hallows row (by rw [hh]; rfl)
            rwa [hspan.length] at this
          -- a store keeps the capacity
          have hcap : (RingClient.store c.ring (tail + index) sample).capacity = c.ring.capacity :=
            List.length_set
          simp only [RingClient.step, hs, RingWindow.step, hh, Option.map_some]
          refine ⟨carries_store h.carries hspan hindex sample, h.capacity.trans hcap.symm, h.next,
            h.samples, by simp only [h.answers], ?_⟩
          simp only
          refine ⟨by rw [List.length_set, hspan.length], hspan.pos, ?_, ?_, ?_, ?_⟩
          · rw [hcap]
            exact hspan.cell
          · rw [hcap]
            exact hspan.free
          · rw [hcap]
            exact hspan.fits
          -- the written cell shows the sample, the others what they did
          · intro j x hj
            change (c.ring.buffer.set (tail + index) sample)[tail + j]? = some x
            by_cases heq : index = j
            · subst heq
              rw [List.getElem?_set_self (by rw [hspan.length]; exact hindex)] at hj
              have hlt : tail + index < c.ring.buffer.length := by
                have := hspan.fits
                unfold IqRing.capacity at this
                omega
              rw [List.getElem?_set_self hlt]
              exact Option.some.inj hj
            · rw [List.getElem?_set_ne heq] at hj
              rw [List.getElem?_set_ne (by omega)]
              exact hspan.shows j x hj

/-- A row without an unwritten cell is the list of its samples. -/
theorem map_some_reduceOption {row : List (Option α)} (h : none ∉ row) :
    row.reduceOption.map some = row := by
  induction row with
  | nil => rfl
  | cons x row ih =>
      rw [List.mem_cons, not_or] at h
      cases x with
      | none => exact absurd rfl h.1
      | some x => rw [List.reduceOption_cons_of_some, List.map_cons, ih h.2]

/-- A commit publishes what was written. -/
theorem commit (h : RingSim c w l) (hallows : w.Allows .commit) :
    ∃ l', RingSim (c.step .commit) (w.step .commit) l' := by
  have hspan := h.span
  cases hs : c.span with
  | none =>
      cases hh : w.held with
      | none =>
          -- nothing is held on either side
          refine ⟨l, ?_⟩
          simp only [RingClient.step, hs, RingWindow.step, hh, Option.map_none]
          exact ⟨h.carries, h.capacity, h.next, h.samples, by simp only [h.answers],
            by simp only⟩
      | some row =>
          rw [hs, hh] at hspan
          exact hspan.elim
  | some span =>
      obtain ⟨tail, count⟩ := span
      cases hh : w.held with
      | none =>
          rw [hs, hh] at hspan
          exact hspan.elim
      | some row =>
          rw [hs, hh] at hspan
          have hrow := map_some_reduceOption (hallows row (by rw [hh]; rfl))
          have hcount : row.reduceOption.length = count := by
            rw [← hspan.length, ← List.length_map (f := some), hrow]
          have hfree := hspan.free
          -- the cells behind the end hold the row that was written, because the reserve is contiguous
          have hstaged : c.ring.Staged row.reduceOption := by
            intro j hj
            have hfits := hspan.fits
            have hcell : (c.ring.nextSequence + j) % c.ring.capacity = tail + j := by
              have hcap : 0 < c.ring.capacity := by omega
              have htail := hspan.cell
              rw [h.carries.next]
              rcases mod_add_cases (q := l.length) hcap (by omega : j ≤ c.ring.capacity)
                with ⟨hm, -⟩ | hm
              · omega
              · omega
            rw [hcell]
            have hcellj : row[j]? = some (some row.reduceOption[j]) := by
              have hmap : (row.reduceOption.map some)[j]? = some (some row.reduceOption[j]) := by
                rw [List.getElem?_map, List.getElem?_eq_getElem hj, Option.map_some]
              rwa [hrow] at hmap
            rw [List.getElem?_eq_getElem hj]
            exact hspan.shows j _ hcellj
          obtain ⟨hcarries, hearliest⟩ := h.carries.commit hstaged (by omega)
          refine ⟨l ++ row.reduceOption, ?_⟩
          simp only [RingClient.step, hs, RingWindow.step, hh, Option.map_some]
          rw [hcount] at hcarries hearliest
          refine ⟨hcarries, h.capacity, ?_, ?_, by simp only [h.answers], trivial⟩
          · simp only [List.length_append, h.next]
          · simp only [hearliest, h.samples]
            rw [List.drop_append_of_le_length h.carries.earliest_le]

/-- The simulation goes through every call that the discipline allows. -/
theorem step (h : RingSim c w l) {call : RingCall α} (hallows : w.Allows call) :
    ∃ l', RingSim (c.step call) (w.step call) l' := by
  cases call with
  | push samples => exact h.push samples
  | read sequence count =>
      refine ⟨l, ?_⟩
      simp only [RingClient.step, RingWindow.step, h.read_eq]
      exact ⟨h.carries, h.capacity, h.next, h.samples, by simp only [h.answers], h.span⟩
  | view sequence count =>
      refine ⟨l, ?_⟩
      simp only [RingClient.step, RingWindow.step, h.view_eq]
      exact ⟨h.carries, h.capacity, h.next, h.samples, by simp only [h.answers], h.span⟩
  | discardBefore sequence => exact ⟨l, h.discardBefore sequence⟩
  | reserve count => exact ⟨l, h.reserve count⟩
  | write index sample => exact ⟨l, h.write hallows⟩
  | commit => exact h.commit hallows

end RingSim

theorem ringSim_start [Zero α] (capacity : ℕ) :
    RingSim (RingClient.start capacity : RingClient α) (RingWindow.start capacity) [] where
  carries := IqRing.carries_reset capacity
  capacity := (List.length_replicate ..).symm
  next := rfl
  samples := List.drop_nil.symm
  answers := rfl
  span := trivial

theorem RingWindow.capacity_step (w : RingWindow α) (call : RingCall α) :
    (w.step call).capacity = w.capacity := by
  cases call with
  | push samples =>
      simp only [RingWindow.step]
      split_ifs <;> rfl
  | read sequence count => rfl
  | view sequence count => rfl
  | discardBefore sequence => rfl
  | reserve count =>
      simp only [RingWindow.step]
      split_ifs <;> rfl
  | write index sample => rfl
  | commit =>
      simp only [RingWindow.step]
      split <;> rfl

/-- The simulation along a run. -/
theorem ringSim_run {c : RingClient α} {w : RingWindow α} {l : List α} (h : RingSim c w l)
    (calls : List (RingCall α)) (hallows : Run.Meets RingWindow.step RingWindow.Allows w calls) :
    ∃ l', RingSim (calls.foldl RingClient.step c) (calls.foldl RingWindow.step w) l' := by
  induction calls generalizing c w l with
  | nil => exact ⟨l, h⟩
  | cons call calls ih =>
      obtain ⟨l', h'⟩ := h.step hallows.1
      exact ih h' hallows.2

/-- **The ring refines its window.** Whatever the calls of a client that writes inside its span
and commits what it has filled, the ring answers as the abstract ring does and holds
exactly its sequence number and samples. -/
theorem ring_refines_window [Zero α] (capacity : ℕ) (calls : List (RingCall α))
    (hallows : Run.Meets RingWindow.step RingWindow.Allows (RingWindow.start capacity) calls) :
    let ring := (calls.foldl RingClient.step (RingClient.start capacity)).ring
    let w := calls.foldl RingWindow.step (RingWindow.start capacity)
    (calls.foldl RingClient.step (RingClient.start capacity)).answers = w.answers ∧
      ring.nextSequence = w.next ∧ ring.contents = w.samples ∧ ring.size = w.samples.length ∧
      ring.capacity = capacity ∧ ring.size + ring.freeCapacity = ring.capacity ∧
      ring.earliestSequence = w.next - w.samples.length := by
  intro ring w
  obtain ⟨l, h⟩ := ringSim_run (ringSim_start capacity) calls hallows
  have hcap : w.capacity = capacity :=
    Run.invariant (I := fun w : RingWindow α => w.capacity = capacity)
      (fun w call hw => (w.capacity_step call).trans hw) rfl calls
  have hsize : ring.size ≤ ring.capacity := h.carries.size_le
  refine ⟨h.answers.symm, ?_, h.contents, h.length_samples.symm, ?_, ?_, ?_⟩
  · exact h.carries.next.trans h.next.symm
  · exact h.capacity.symm.trans hcap
  · unfold IqRing.freeCapacity
    omega
  · exact h.earliest.symm

/-- A push, a reservation that wraps no cell and is drained under way, and a read across the wrap. -/
def ringCalls : List (RingCall ℕ) :=
  [.push [1, 2], .reserve 1, .discardBefore 2, .write 0 3, .commit, .push [4, 5], .push [6],
    .view 2 2, .read 2 3, .view 3 2]

theorem ring_refines_window_ringCalls :
    let ring := (ringCalls.foldl RingClient.step (RingClient.start 3)).ring
    let w := ringCalls.foldl RingWindow.step (RingWindow.start 3)
    (ringCalls.foldl RingClient.step (RingClient.start 3)).answers = w.answers ∧
      ring.nextSequence = w.next ∧ ring.contents = w.samples ∧ ring.size = w.samples.length ∧
      ring.capacity = 3 ∧ ring.size + ring.freeCapacity = ring.capacity ∧
      ring.earliestSequence = w.next - w.samples.length :=
  ring_refines_window 3 ringCalls (by decide)

example : (ringCalls.foldl RingClient.step (RingClient.start 3)).answers =
    [.pushed true, .reserved true, .done, .done, .done, .pushed true, .pushed false,
      .samples none, .samples (some [3, 4, 5]), .samples (some [4, 5])] := by decide
