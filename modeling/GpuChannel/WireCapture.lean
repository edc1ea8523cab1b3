/-
# The wire capture window

`append_capture` (broker.cpp) keeps a bounded window of each port's sample stream.  A chunk
may end before, straddle or start after the skip point, and may meet the limit midway, so the
invariant speaks of the stream and never of its chunks: the capture is the stream without its
first `skip` samples, cut at `limit`.  The 64-bit sample counter is a natural number: a port
does not carry `2 ^ 64` samples.
-/
import GpuChannel.Library.Run

namespace WireCapture

variable {α : Type*}

/-- One direction of a port: the capture buffer and the absolute sample count of the wire. -/
structure Capture (α : Type*) where
  samples : List α := []
  seen : ℕ := 0

/-- The offset and the length of the copy that a call takes from its chunk of `count` samples,
with `captured` samples in the buffer and `start` samples seen before it; `none` where
`append_capture` returns without a copy. -/
def copyRange (limit skip captured start count : ℕ) : Option (ℕ × ℕ) :=
  if limit = 0 ∨ limit ≤ captured ∨ start + count ≤ skip then none
  else
    let offset := if skip ≤ start then 0 else skip - start
    some (offset, min (count - offset) (limit - captured))

/-- `append_capture`. -/
def appendCapture (limit skip : ℕ) (c : Capture α) (data : List α) : Capture α :=
  match copyRange limit skip c.samples.length c.seen data.length with
  | none => { c with seen := c.seen + data.length }
  | some (offset, take) =>
      { samples := c.samples ++ (data.drop offset).take take, seen := c.seen + data.length }

/-! ## One call -/

/-- A call that copies has room left in the buffer, starts inside its chunk and ends inside
it: neither unsigned difference wraps and nothing past the chunk is read. -/
theorem copyRange_inside {limit skip captured start count offset take : ℕ}
    (h : copyRange limit skip captured start count = some (offset, take)) :
    captured < limit ∧ offset ≤ count ∧ offset + take ≤ count := by
  unfold copyRange at h
  split at h
  case isTrue => cases h
  case isFalse hcopy =>
    obtain ⟨rfl, rfl⟩ := Prod.mk.inj (Option.some.inj h)
    push Not at hcopy
    have hroom := hcopy.2.1
    have hpast := hcopy.2.2
    refine ⟨hroom, ?_, ?_⟩ <;> split <;> omega

/-- **The window.** The capture of a stream: its samples from `skip` on, at most `limit`. -/
def Covers (limit skip : ℕ) (stream : List α) (c : Capture α) : Prop :=
  c.samples = (stream.drop skip).take limit ∧ c.seen = stream.length

theorem covers_nil (limit skip : ℕ) : Covers limit skip ([] : List α) {} := by
  constructor <;> simp

/-- A chunk that ends at or before the skip point leaves the window empty. -/
theorem window_before_skip {limit skip : ℕ} {stream data : List α}
    (h : stream.length + data.length ≤ skip) :
    ((stream ++ data).drop skip).take limit = (stream.drop skip).take limit := by
  have hall : (stream ++ data).drop skip = [] := by
    apply List.drop_eq_nil_of_le
    rw [List.length_append]
    exact h
  have hold : stream.drop skip = [] := List.drop_eq_nil_of_le (by omega)
  rw [hall, hold]

/-- A full window does not change. -/
theorem window_full {limit skip : ℕ} {stream data : List α}
    (h : limit ≤ ((stream.drop skip).take limit).length) :
    ((stream ++ data).drop skip).take limit = (stream.drop skip).take limit := by
  rw [List.length_take, List.length_drop] at h
  rcases Nat.eq_zero_or_pos limit with rfl | hpos
  · rw [List.take_zero, List.take_zero]
  · rw [List.drop_append_of_le_length (by omega)]
    apply List.take_append_of_le_length
    rw [List.length_drop]
    omega

/-- **Step lemma.** A call takes the window of the stream to the window of the stream with
its chunk. -/
theorem Covers.append {limit skip : ℕ} {stream data : List α} {c : Capture α}
    (h : Covers limit skip stream c) :
    Covers limit skip (stream ++ data) (appendCapture limit skip c data) := by
  obtain ⟨hsamples, hseen⟩ := h
  unfold appendCapture
  cases hrange : copyRange limit skip c.samples.length c.seen data.length with
  | none =>
    refine ⟨?_, by rw [List.length_append, ← hseen]⟩
    show c.samples = _
    -- the three early returns: nothing to keep, nothing left to keep, not yet at the window
    have hreturn : limit = 0 ∨ limit ≤ c.samples.length ∨ c.seen + data.length ≤ skip := by
      by_contra hcopy
      rw [copyRange, if_neg hcopy] at hrange
      cases hrange
    rcases hreturn with rfl | hfull | hbefore
    · rw [hsamples, List.take_zero, List.take_zero]
    · rw [hsamples] at hfull ⊢
      exact (window_full hfull).symm
    · rw [hseen] at hbefore
      rw [hsamples, window_before_skip hbefore]
  | some range =>
    obtain ⟨offset, take⟩ := range
    refine ⟨?_, by rw [List.length_append, ← hseen]⟩
    show c.samples ++ (data.drop offset).take take = _
    unfold copyRange at hrange
    split at hrange
    case isTrue => cases hrange
    case isFalse hcopy =>
      obtain ⟨hoffset, htake⟩ := Prod.mk.inj (Option.some.inj hrange)
      push Not at hcopy
      have hlen : c.samples.length = min limit (stream.length - skip) := by
        rw [hsamples, List.length_take, List.length_drop]
      -- everything past the skip point so far is in the buffer, as it has room left
      have hwhole : (stream.drop skip).take limit = stream.drop skip := by
        apply List.take_of_length_le
        rw [List.length_drop]
        omega
      rw [List.drop_append, hsamples, List.take_append, List.length_drop, hwhole]
      have hoff : offset = skip - stream.length := by
        rw [← hoffset, hseen]
        split <;> omega
      rw [hoff]
      congr 1
      rw [← htake, hlen, hoffset, hoff, List.take_eq_take_iff, List.length_drop]
      omega

/-! ## The ports of a run -/

variable {P : Type*} [DecidableEq P]

/-- One recorded chunk: of the port and direction `e.1`, the samples `e.2`.  `set_wire_capture`
gives every port the same limit and skip. -/
def record (limit skip : ℕ) (caps : P → Capture α) (e : P × List α) : P → Capture α :=
  Function.update caps e.1 (appendCapture limit skip (caps e.1) e.2)

/-- The captures after the chunks `events`, in any interleaving of the ports. -/
def captures (limit skip : ℕ) (events : List (P × List α)) : P → Capture α :=
  events.foldl (record limit skip) fun _ => {}

/-- What went over the wire at `p`. -/
def wire (p : P) (events : List (P × List α)) : List α :=
  ((events.filter fun e => e.1 = p).map Prod.snd).flatten

theorem captures_append (limit skip : ℕ) (events : List (P × List α)) (e : P × List α) :
    captures limit skip (events ++ [e]) = record limit skip (captures limit skip events) e := by
  unfold captures
  rw [List.foldl_append]
  rfl

theorem wire_append (p : P) (events : List (P × List α)) (e : P × List α) :
    wire p (events ++ [e]) = wire p events ++ if e.1 = p then e.2 else [] := by
  unfold wire
  rw [List.filter_append, List.map_append, List.flatten_append]
  by_cases h : e.1 = p <;> simp [h]

/-- **Run lemma.** After any chunks every port's capture is the window of its own stream. -/
theorem captures_covers (limit skip : ℕ) (events : List (P × List α)) (p : P) :
    Covers limit skip (wire p events) (captures limit skip events p) := by
  induction events using List.reverseRecOn with
  | nil => exact covers_nil limit skip
  | append_singleton events e ih =>
    rw [captures_append, wire_append]
    unfold record
    by_cases h : e.1 = p
    · subst h
      rw [if_pos rfl, Function.update_self]
      exact ih.append
    · rw [if_neg h, List.append_nil, Function.update_of_ne (Ne.symm h)]
      exact ih

/-- **The wire capture window.** For every limit and skip and every way in which the streams
of the ports are cut into chunks and interleaved, each port's capture is its stream without
the first `skip` samples, cut at `limit`; sample `i` of every port's capture is the sample of
absolute index `skip + i`; the counter is the length of the stream; and no call reads outside
its chunk. -/
theorem captures_window (limit skip : ℕ) (events : List (P × List α)) (p : P) :
    (captures limit skip events p).samples = ((wire p events).drop skip).take limit ∧
    (captures limit skip events p).samples.length = min limit ((wire p events).length - skip) ∧
    (captures limit skip events p).seen = (wire p events).length ∧
    (∀ i < limit, (captures limit skip events p).samples[i]? = (wire p events)[skip + i]?) ∧
    ∀ before data after, events = before ++ (p, data) :: after → ∀ offset take,
      copyRange limit skip (captures limit skip before p).samples.length
          (captures limit skip before p).seen data.length = some (offset, take) →
        offset ≤ data.length ∧ offset + take ≤ data.length := by
  obtain ⟨hsamples, hseen⟩ := captures_covers limit skip events p
  refine ⟨hsamples, ?_, hseen, ?_, ?_⟩
  · rw [hsamples, List.length_take, List.length_drop]
  · intro i hi
    rw [hsamples, List.getElem?_take_of_lt hi, List.getElem?_drop]
  · intro before data after _ offset take hrange
    exact (copyRange_inside hrange).2

/-- The counter starts inside the second chunk and the limit is met inside the third. -/
example :
    (captures 3 2 [((), [0]), ((), [1, 2]), ((), []), ((), [3, 4, 5])] ()).samples = [2, 3, 4] := by
  decide

end WireCapture
