/-
# Delay lines on several workers

The convolutions of delay.h with an executor.  The lambda `calculate` shapes one range of samples;
on the fading path it carries the phase of the line-of-sight ray from sample to sample and replays
it from sample 0 when it enters a range.  The operations on `float` and `double` are arbitrary
functions here, so nothing is reassociated: what the workers write is what one pass writes.
-/
import GpuChannel.SampleExecutor
import GpuChannel.DelayLine
import GpuChannel.RationalScalars

open SampleExecutor

/-! ## Loops over samples -/

/-- **A loop over samples with a carried state.**  `calculate` enters a range by replaying the
carried state up to it; a loop that does not replay carries a constant. -/
structure SampleLoop (L V : Type) where
  start : L
  replays : Bool
  advance : L → L
  sample : ℕ → L → V
  still : replays = false → ∀ l, advance l = l

/-- A range in execution: sample `n` is next, or the replay is at `n`. -/
structure RangePos (L : Type) where
  first : ℕ
  stop : ℕ
  n : ℕ
  carried : L

namespace SampleLoop

variable {L V E : Type} (loop : SampleLoop L V)

/-- The carried state at sample `n` of one pass. -/
def stateAt : ℕ → L
  | 0 => loop.start
  | n + 1 => loop.advance (stateAt n)

/-- Sample `n` of one pass. -/
def value (n : ℕ) : V := loop.sample n (loop.stateAt n)

/-- The carried state with which a range is entered. -/
def enter (first : ℕ) : L :=
  if loop.replays then (List.range first).foldl (fun l _ => loop.advance l) loop.start
  else loop.start

/-- **`calculate`.** -/
def calculate (first stop : ℕ) (out : ℕ → V) : ℕ → V :=
  ((List.range' first (stop - first)).foldl (fun (acc : L × (ℕ → V)) n =>
    (loop.advance acc.1, Function.update acc.2 n (loop.sample n acc.1))) (loop.enter first, out)).2

/-- `calculate` pass by pass, as the function of a call. -/
def rangeFn : RangeFn (ℕ → V) (RangePos L) E where
  enter first stop := ⟨first, stop, if loop.replays then 0 else first, loop.start⟩
  step pos out :=
    if pos.n < pos.first then
      .inl ({ pos with n := pos.n + 1, carried := loop.advance pos.carried }, out)
    else if pos.n < pos.stop then
      .inl ({ pos with n := pos.n + 1, carried := loop.advance pos.carried },
        Function.update out pos.n (loop.sample pos.n pos.carried))
    else .inr none

theorem stateAt_of_still (h : loop.replays = false) (n : ℕ) : loop.stateAt n = loop.start := by
  induction n with
  | zero => rfl
  | succ n ih =>
      show loop.advance (loop.stateAt n) = _
      rw [loop.still h, ih]

/-- **The replay reaches the state of one pass.** -/
theorem enter_eq (first : ℕ) : loop.enter first = loop.stateAt first := by
  unfold enter
  cases hreplays : loop.replays with
  | false => exact (loop.stateAt_of_still hreplays first).symm
  | true =>
      rw [if_pos rfl]
      induction first with
      | zero => rfl
      | succ n ih =>
          rw [List.range_succ, List.foldl_append, ih]
          rfl

theorem calculate_fold (first k : ℕ) (out : ℕ → V) :
    (List.range' first k).foldl (fun (acc : L × (ℕ → V)) n =>
        (loop.advance acc.1, Function.update acc.2 n (loop.sample n acc.1)))
        (loop.stateAt first, out) =
      (loop.stateAt (first + k), fun n =>
        if first ≤ n ∧ n < first + k then loop.value n else out n) := by
  induction k with
  | zero =>
      apply Prod.ext
      · rfl
      · funext n
        show out n = if first ≤ n ∧ n < first + 0 then _ else _
        rw [if_neg (by omega)]
  | succ k ih =>
      rw [List.range'_concat, List.foldl_append, ih, one_mul]
      apply Prod.ext
      · rfl
      · funext n
        show Function.update (fun m => if first ≤ m ∧ m < first + k then loop.value m else out m)
          (first + k) (loop.value (first + k)) n =
            if first ≤ n ∧ n < first + (k + 1) then loop.value n else out n
        by_cases hn : n = first + k
        · subst hn
          rw [Function.update_self, if_pos (by omega)]
        · rw [Function.update_of_ne hn]
          by_cases hin : first ≤ n ∧ n < first + k
          · rw [if_pos hin, if_pos (by omega)]
          · rw [if_neg hin, if_neg (by omega)]

/-- **A range writes its own samples of one pass, and no others.** -/
theorem calculate_apply (first stop : ℕ) (out : ℕ → V) (n : ℕ) :
    loop.calculate first stop out n = if first ≤ n ∧ n < stop then loop.value n else out n := by
  unfold calculate
  rw [enter_eq, calculate_fold]
  dsimp only
  by_cases hin : first ≤ n ∧ n < stop
  · rw [if_pos hin, if_pos (by omega)]
  · rw [if_neg hin, if_neg (by omega)]

/-- **Any cut, in any order.** -/
theorem calculate_cuts {count : ℕ} {ranges : List (ℕ × ℕ)} (h : Cuts count ranges) (out : ℕ → V) :
    ranges.foldl (fun out r => loop.calculate r.1 r.2 out) out = loop.calculate 0 count out := by
  have hfold : ∀ (rs : List (ℕ × ℕ)) (out : ℕ → V) (n : ℕ),
      rs.foldl (fun out r => loop.calculate r.1 r.2 out) out n =
        if ∃ r ∈ rs, r.1 ≤ n ∧ n < r.2 then loop.value n else out n := by
    intro rs
    induction rs with
    | nil => simp
    | cons r rs ih =>
        intro out n
        rw [List.foldl_cons, ih, calculate_apply]
        by_cases hrs : ∃ r ∈ rs, r.1 ≤ n ∧ n < r.2
        · rw [if_pos hrs, if_pos]
          obtain ⟨r', hr', hin⟩ := hrs
          exact ⟨r', List.mem_cons_of_mem r hr', hin⟩
        · rw [if_neg hrs]
          by_cases hr : r.1 ≤ n ∧ n < r.2
          · rw [if_pos hr, if_pos ⟨r, List.mem_cons_self, hr⟩]
          · rw [if_neg hr, if_neg]
            rintro ⟨r', hr', hin⟩
            rcases List.mem_cons.mp hr' with rfl | hold
            · exact hr hin
            · exact hrs ⟨r', hold, hin⟩
  funext n
  rw [hfold, calculate_apply]
  by_cases hn : n < count
  · rw [if_pos ((h.cover n).mp hn), if_pos ⟨Nat.zero_le n, hn⟩]
  · rw [if_neg fun hin => hn ((h.cover n).mpr hin), if_neg fun hin => hn hin.2]

/-! ## The loop in a pool -/

/-- What a range of the loop has written so far. -/
def HeldOk (out : ℕ → V) (held : Held (RangePos L) E) : Prop :=
  match held.place with
  | .running pos =>
      pos.first = held.task.start ∧ pos.stop = held.task.stop ∧
        pos.carried = loop.stateAt pos.n ∧
        ∀ m, held.task.start ≤ m → m < pos.n → out m = loop.value m
  | .ended outcome =>
      outcome = none ∧ ∀ m, held.task.start ≤ m → m < held.task.stop → out m = loop.value m

/-- **A call of the loop**: no range throws, and what is written is what one pass writes. -/
structure Shaped (busy : List (Held (RangePos L) E)) (j : ℕ) (job : Job (ℕ → V) (RangePos L) E) :
    Prop where
  held : ∀ h ∈ busy, h.task.job = j → loop.HeldOk job.state h
  finished : ∀ f ∈ job.finished, f.2 = none ∧
    ∀ m, f.1.1 ≤ m → m < f.1.2 → job.state m = loop.value m
  outside : ∀ m, job.count ≤ m → job.state m = job.before m

variable {loop}

theorem HeldOk.mono {out out' : ℕ → V} {held : Held (RangePos L) E} (h : loop.HeldOk out held)
    (hout : ∀ m, out m = loop.value m → out' m = loop.value m) : loop.HeldOk out' held := by
  obtain ⟨t, place⟩ := held
  cases place with
  | running pos => exact ⟨h.1, h.2.1, h.2.2.1, fun m hle hlt => hout m (h.2.2.2 m hle hlt)⟩
  | ended outcome => exact ⟨h.1, fun m hle hlt => hout m (h.2 m hle hlt)⟩

/-- A range that has just been entered. -/
theorem heldOk_enter (loop : SampleLoop L V) (out : ℕ → V) (t : Task) :
    loop.HeldOk out (⟨t, .running ((loop.rangeFn (E := E)).enter t.start t.stop)⟩ :
      Held (RangePos L) E) := by
  refine ⟨rfl, rfl, ?_, ?_⟩
  · show loop.start = loop.stateAt (if loop.replays then 0 else t.start)
    cases hreplays : loop.replays with
    | false => exact (loop.stateAt_of_still hreplays _).symm
    | true => rfl
  · intro m hle hlt
    have hle' : t.start ≤ m := hle
    have hn : m < if loop.replays then 0 else t.start := hlt
    split_ifs at hn with hreplays
    · omega
    · omega

/-- One action of a range: it writes the next sample of one pass, or nothing. -/
theorem HeldOk.act {out out' : ℕ → V} {t : Task} {pos pos' : RangePos L}
    (h : loop.HeldOk out (⟨t, .running pos⟩ : Held (RangePos L) E))
    (hact : (loop.rangeFn (E := E)).step pos out = .inl (pos', out')) :
    (∀ m, out m = loop.value m → out' m = loop.value m) ∧
      (∀ m, t.stop ≤ m → out' m = out m) ∧
      loop.HeldOk out' (⟨t, .running pos'⟩ : Held (RangePos L) E) := by
  obtain ⟨hfirst, hstop, hcarried, hdone⟩ := h
  dsimp only at hfirst hstop hdone
  -- the position carries the state of its sample
  have hnext : loop.advance pos.carried = loop.stateAt (pos.n + 1) := by
    rw [hcarried]
    rfl
  have hvalue : loop.sample pos.n pos.carried = loop.value pos.n := by
    rw [hcarried]
    rfl
  unfold rangeFn at hact
  dsimp only at hact
  -- a replayed sample is not written, an own one is
  split_ifs at hact with hreplay hloop
  · cases hact
    refine ⟨fun m hm => hm, fun m _ => rfl, hfirst, hstop, hnext, ?_⟩
    intro m hle hlt
    dsimp only at hle hlt
    omega
  · cases hact
    rw [hvalue]
    refine ⟨?_, ?_, hfirst, hstop, hnext, ?_⟩
    · intro m hm
      by_cases hmn : m = pos.n
      · subst hmn
        rw [Function.update_self]
      · rw [Function.update_of_ne hmn]
        exact hm
    · intro m hm
      rw [Function.update_of_ne (by omega)]
    · intro m hle hlt
      by_cases hmn : m = pos.n
      · subst hmn
        rw [Function.update_self]
      · rw [Function.update_of_ne hmn]
        exact hdone m hle (by dsimp only at hlt; omega)

/-- A range that leaves its function has written all of its samples. -/
theorem HeldOk.leave {out : ℕ → V} {t : Task} {pos : RangePos L} {outcome : Option E}
    (h : loop.HeldOk out (⟨t, .running pos⟩ : Held (RangePos L) E))
    (hleave : loop.rangeFn.step pos out = .inr outcome) :
    loop.HeldOk out (⟨t, .ended outcome⟩ : Held (RangePos L) E) := by
  obtain ⟨-, hstop, -, hdone⟩ := h
  dsimp only at hstop hdone
  unfold rangeFn at hleave
  dsimp only at hleave
  split_ifs at hleave with hreplay hloop
  cases hleave
  refine ⟨rfl, ?_⟩
  intro m hle hlt
  dsimp only at hle hlt
  exact hdone m hle (by omega)

/-- Every call of the loop is shaped. -/
def AllShaped (loop : SampleLoop L V) (p : Pool (ℕ → V) (RangePos L) E) : Prop :=
  ∀ j job, p.jobs[j]? = some job → job.fn = loop.rangeFn → loop.Shaped p.busy j job

/-- The calls that a step does not touch. -/
theorem Shaped.frame {busy busy' : List (Held (RangePos L) E)} {j : ℕ}
    {job : Job (ℕ → V) (RangePos L) E} (h : loop.Shaped busy j job)
    (hbusy : ∀ held ∈ busy', held.task.job = j → held ∈ busy) : loop.Shaped busy' j job :=
  ⟨fun held hmem hj => h.held held (hbusy held hmem hj) hj, h.finished, h.outside⟩

/-- A call that has just been made. -/
theorem shaped_new {busy : List (Held (RangePos L) E)} {j count : ℕ}
    {fn : RangeFn (ℕ → V) (RangePos L) E} {ranges : List (ℕ × ℕ)} {state : ℕ → V}
    (hheld : ∀ h ∈ busy, h.task.job = j → loop.HeldOk state h) :
    loop.Shaped busy j (Job.new fn count ranges state) :=
  ⟨hheld, fun _ hf => absurd hf List.not_mem_nil, fun _ _ => rfl⟩

/-- The calls of a pool with one more call, whose ranges in execution are all `entered`. -/
theorem AllShaped.call {p p' : Pool (ℕ → V) (RangePos L) E} {fn : RangeFn (ℕ → V) (RangePos L) E}
    {count : ℕ} {ranges : List (ℕ × ℕ)} {state : ℕ → V} (h : loop.AllShaped p)
    (hjobs : p'.jobs = p.jobs ++ [Job.new fn count ranges state])
    (hold : ∀ held ∈ p'.busy, held.task.job < p.jobs.length → held ∈ p.busy)
    (hnew : fn = loop.rangeFn → ∀ held ∈ p'.busy, held.task.job = p.jobs.length →
      loop.HeldOk state held) : loop.AllShaped p' := by
  intro j job hj hfn
  rw [hjobs] at hj
  rcases Nat.lt_or_ge j p.jobs.length with hlt | hge
  · rw [List.getElem?_append_left hlt] at hj
    refine (h j job hj hfn).frame ?_
    rintro held hmem rfl
    exact hold held hmem hlt
  · obtain ⟨hlt, -⟩ := List.getElem?_eq_some_iff.mp hj
    rw [List.length_append, List.length_singleton] at hlt
    obtain rfl : j = p.jobs.length := by omega
    rw [List.getElem?_concat_length] at hj
    cases hj
    exact shaped_new (hnew hfn)

/-- The calls of a pool in which call `j` changed. -/
theorem AllShaped.set {p p' : Pool (ℕ → V) (RangePos L) E} {j : ℕ}
    {job' : Job (ℕ → V) (RangePos L) E} (h : loop.AllShaped p)
    (hjobs : p'.jobs = p.jobs.set j job')
    (hbusy : ∀ held ∈ p'.busy, held.task.job ≠ j → held ∈ p.busy)
    (hjob : job'.fn = loop.rangeFn → loop.Shaped p'.busy j job') : loop.AllShaped p' := by
  intro i job hi hfn
  rw [hjobs, List.getElem?_set] at hi
  split_ifs at hi with hij hlt
  · subst hij
    cases hi
    exact hjob hfn
  · refine (h i job hi hfn).frame ?_
    rintro held hmem rfl
    exact hbusy held hmem (Ne.symm hij)

/-- One range in execution moved on; the others are where they were. -/
theorem mem_of_replaced {before after : List (Held L E)} {old new held : Held L E}
    (hmem : held ∈ before ++ new :: after) : held = new ∨ held ∈ before ++ old :: after := by
  rcases List.mem_append.mp hmem with hb | ha
  · exact .inr (List.mem_append_left _ hb)
  · rcases List.mem_cons.mp ha with hnew | ha
    · exact .inl hnew
    · exact .inr (List.mem_append_right _ (List.mem_cons_of_mem _ ha))

section Passes

variable {before after : List (Held (RangePos L) E)} {j : ℕ} {job : Job (ℕ → V) (RangePos L) E}
  {t : Task} {pos pos' : RangePos L} {outcome : Option E}

/-- A range of the call acts: it writes its own sample, within the samples of the call. -/
theorem Shaped.act {out' : ℕ → V}
    (h : loop.Shaped (before ++ ⟨t, .running pos⟩ :: after) j job) (ht : t.job = j)
    (hact : (loop.rangeFn (E := E)).step pos job.state = .inl (pos', out')) (hstop : t.stop ≤ job.count) :
    loop.Shaped (before ++ ⟨t, .running pos'⟩ :: after) j { job with state := out' } := by
  have hrange := h.held _ (List.mem_append_right _ List.mem_cons_self) ht
  obtain ⟨hkeep, hframe, hnext⟩ := hrange.act hact
  refine ⟨?_, ?_, ?_⟩
  · intro held hmem hj
    rcases mem_of_replaced hmem with rfl | hold
    · exact hnext
    · exact (h.held held hold hj).mono hkeep
  · intro f hf
    obtain ⟨hnone, hdone⟩ := h.finished f hf
    exact ⟨hnone, fun m hle hlt => hkeep m (hdone m hle hlt)⟩
  · intro m hm
    show out' m = job.before m
    rw [hframe m (le_trans hstop hm)]
    exact h.outside m hm

/-- A range leaves its function; it is of this call only if the call is of the loop. -/
theorem Shaped.leave (h : loop.Shaped (before ++ ⟨t, .running pos⟩ :: after) j job)
    (hleave : t.job = j → loop.rangeFn.step pos job.state = .inr outcome) :
    loop.Shaped (before ++ ⟨t, .ended outcome⟩ :: after) j job := by
  refine ⟨?_, h.finished, h.outside⟩
  intro held hmem hj
  rcases mem_of_replaced hmem with rfl | hold
  · have hrange := h.held _ (List.mem_append_right _ List.mem_cons_self) hj
    exact hrange.leave (hleave hj)
  · exact h.held held hold hj

/-- A range that ended is booked as finished. -/
theorem Shaped.finish (h : loop.Shaped (before ++ ⟨t, .ended outcome⟩ :: after) j job)
    (ht : t.job = j) :
    loop.Shaped (before ++ after) j
      { job with
        remaining := job.remaining - 1
        error := job.error <|> outcome
        finished := job.finished ++ [(t.range, outcome)] } := by
  refine ⟨?_, ?_, h.outside⟩
  · intro held hmem hj
    refine h.held held ?_ hj
    rcases List.mem_append.mp hmem with hb | ha
    · exact List.mem_append_left _ hb
    · exact List.mem_append_right _ (List.mem_cons_of_mem _ ha)
  · intro f hf
    rcases List.mem_append.mp hf with hold | hlast
    · exact h.finished f hold
    · rw [List.mem_singleton.mp hlast]
      exact h.held ⟨t, .ended outcome⟩ (List.mem_append_right _ List.mem_cons_self) ht

end Passes

/-- A range in execution is one of its call's, so it ends within the samples of the call. -/
theorem stop_le_count {x : SampleExecutor} {split : ℕ → List (ℕ × ℕ)}
    (hsplit : ∀ count, Cuts count (x.ranges split count)) {p : Pool (ℕ → V) (RangePos L) E}
    (hsound : Sound x split p) {held : Held (RangePos L) E} (hmem : held ∈ p.busy)
    {job : Job (ℕ → V) (RangePos L) E} (hjob : p.jobs[held.task.job]? = some job) :
    held.task.stop ≤ job.count := by
  have hrange : held.task.range ∈ x.ranges split job.count := by
    apply (hsound.booked held.task.job job hjob).ranges.mem_iff.mp
    apply List.mem_append_left
    refine List.mem_map_of_mem (List.mem_filter.mpr ⟨?_, by simp⟩)
    exact List.mem_append_right _ (List.mem_map_of_mem hmem)
  have hcuts := hsplit job.count
  have hlt : held.task.start < held.task.stop := hcuts.nonempty _ hrange
  have hlast := (hcuts.cover (held.task.stop - 1)).mpr
    ⟨_, hrange, (show held.task.start ≤ held.task.stop - 1 by omega),
      (show held.task.stop - 1 < held.task.stop by omega)⟩
  omega

/-- **Every step of a caller or a worker keeps the calls of the loop shaped.** -/
theorem AllShaped.step {x : SampleExecutor} {split : ℕ → List (ℕ × ℕ)}
    (hsplit : ∀ count, Cuts count (x.ranges split count)) {p p' : Pool (ℕ → V) (RangePos L) E}
    (hsound : Sound x split p) (h : loop.AllShaped p) (hstep : x.Step split p p') :
    loop.AllShaped p' := by
  have hfresh : ∀ held ∈ p.busy, held.task.job < p.jobs.length := by
    intro held hmem
    exact hsound.known _ (List.mem_append_right _ (List.mem_map_of_mem hmem))
  cases hstep with
  | direct fn count state hcount hone =>
      refine h.call rfl ?_ ?_
      · intro held hmem hlt
        rcases List.mem_cons.mp hmem with rfl | hold
        · exact absurd hlt (lt_irrefl _)
        · exact hold
      · rintro rfl held hmem hj
        rcases List.mem_cons.mp hmem with rfl | hold
        · exact heldOk_enter loop state _
        · exact absurd hj (hfresh held hold).ne
  | queued fn count state hmany =>
      refine h.call rfl (fun held hmem _ => hmem) ?_
      intro _ held hmem hj
      exact absurd hj (hfresh held hmem).ne
  | take t rest job hqueue hfree hjob =>
      intro j job' hj hfn
      have hshaped := h j job' hj hfn
      refine ⟨?_, hshaped.finished, hshaped.outside⟩
      intro held hmem hheld
      rcases List.mem_cons.mp hmem with rfl | hold
      · obtain rfl : t.job = j := hheld
        obtain rfl := Option.some.inj (hjob.symm.trans hj)
        rw [hfn]
        exact heldOk_enter loop _ t
      · exact hshaped.held held hold hheld
  | act before after t pos pos' out' job hbusy hjob hact =>
      refine h.set rfl ?_ ?_
      · intro held hmem hne
        rw [hbusy]
        rcases mem_of_replaced hmem with rfl | hold
        · exact absurd rfl hne
        · exact hold
      · intro hfn
        have hmem : (⟨t, .running pos⟩ : Held (RangePos L) E) ∈ p.busy := by
          rw [hbusy]
          exact List.mem_append_right _ List.mem_cons_self
        rw [show job.fn = loop.rangeFn from hfn] at hact
        have hshaped := h t.job job hjob hfn
        rw [hbusy] at hshaped
        exact hshaped.act rfl hact (stop_le_count hsplit hsound hmem hjob)
  | leave before after t pos outcome job hbusy hjob hleave =>
      intro j job' hj hfn
      have hshaped := h j job' hj hfn
      rw [hbusy] at hshaped
      apply hshaped.leave
      rintro rfl
      obtain rfl := Option.some.inj (hjob.symm.trans hj)
      rwa [← hfn]
  | finish before after t outcome job hbusy hjob =>
      refine h.set rfl ?_ ?_
      · intro held hmem _
        rw [hbusy]
        rcases List.mem_append.mp hmem with hb | ha
        · exact List.mem_append_left _ hb
        · exact List.mem_append_right _ (List.mem_cons_of_mem _ ha)
      · intro hfn
        have hshaped := h t.job job hjob hfn
        rw [hbusy] at hshaped
        exact hshaped.finish rfl
  | back j job hjob hwaiting hdone =>
      refine h.set rfl (fun held hmem _ => hmem) ?_
      intro hfn
      have hshaped := h j job hjob hfn
      exact ⟨hshaped.held, hshaped.finished, hshaped.outside⟩

/-- The calls of the loop are shaped in every pool that is reached. -/
theorem allShaped {x : SampleExecutor} {split : ℕ → List (ℕ × ℕ)}
    (hsplit : ∀ count, Cuts count (x.ranges split count)) {p : Pool (ℕ → V) (RangePos L) E}
    (h : x.Reachable split p) : loop.AllShaped p := by
  induction h with
  | start =>
      intro j job hj
      cases hj
  | step hreach hstep ih => exact ih.step hsplit hreach.sound hstep

/-- **A call of the loop on any workers is one pass of the loop.** -/
theorem returned_eq {x : SampleExecutor} {split : ℕ → List (ℕ × ℕ)}
    (hsplit : ∀ count, Cuts count (x.ranges split count)) {p : Pool (ℕ → V) (RangePos L) E}
    (h : x.Reachable split p) {j : ℕ} {job : Job (ℕ → V) (RangePos L) E} {result : Option E}
    (hjob : p.jobs[j]? = some job) (hfn : job.fn = loop.rangeFn)
    (hresult : job.returned = some result) :
    result = none ∧ job.state = loop.calculate 0 job.count job.before := by
  obtain ⟨hperm, -, hnone, -⟩ := h.returned hjob hresult
  have hshaped := allShaped hsplit h j job hjob hfn
  refine ⟨hnone.mpr fun f hf => (hshaped.finished f hf).1, ?_⟩
  funext m
  rw [calculate_apply]
  by_cases hm : m < job.count
  · rw [if_pos ⟨Nat.zero_le m, hm⟩]
    obtain ⟨r, hr, hle, hlt⟩ := ((hsplit job.count).cover m).mp hm
    obtain ⟨f, hf, rfl⟩ := List.mem_map.mp (hperm.mem_iff.mpr hr)
    exact (hshaped.finished f hf).2 m hle hlt
  · rw [if_neg fun hin => hm hin.2]
    exact hshaped.outside m (not_lt.mp hm)

/-! ## A run of the loop -/

/-- A range in execution can run to its end. -/
theorem reach_ended {x : SampleExecutor} {split : ℕ → List (ℕ × ℕ)} {queue : List Task} {t : Task}
    (ht : t.job = 0) (k : ℕ) :
    ∀ (pos : RangePos L) (job : Job (ℕ → V) (RangePos L) E), job.fn = loop.rangeFn →
      max pos.first pos.stop - pos.n = k →
      x.Reachable split ⟨queue, [⟨t, .running pos⟩], [job]⟩ →
      ∃ out, x.Reachable split ⟨queue, [⟨t, .ended none⟩], [{ job with state := out }]⟩ := by
  induction k with
  | zero =>
      intro pos job hfn hk hreach
      refine ⟨job.state, hreach.step (.leave _ [] [] t pos none job rfl ?_ ?_)⟩
      · rw [ht]
        rfl
      · rw [hfn]
        unfold rangeFn
        dsimp only
        rw [if_neg (by omega), if_neg (by omega)]
  | succ k ih =>
      intro pos job hfn hk hreach
      have hact : ∃ out', job.fn.step pos job.state =
          .inl ({ pos with n := pos.n + 1, carried := loop.advance pos.carried }, out') := by
        rw [hfn]
        unfold rangeFn
        dsimp only
        by_cases hreplay : pos.n < pos.first
        · rw [if_pos hreplay]
          exact ⟨_, rfl⟩
        · rw [if_neg hreplay, if_pos (by omega)]
          exact ⟨_, rfl⟩
      obtain ⟨out', hact⟩ := hact
      have hnext := hreach.step (.act _ [] [] t pos _ out' job rfl (by rw [ht]; rfl) hact)
      rw [ht] at hnext
      exact ih _ { job with state := out' } hfn (by dsimp only; omega) hnext

/-- A queue of ranges of one call can be worked off. -/
theorem reach_worked_off {x : SampleExecutor} {split : ℕ → List (ℕ × ℕ)} (queue : List Task) :
    ∀ job : Job (ℕ → V) (RangePos L) E, job.fn = loop.rangeFn → job.returned = none →
      (∀ t ∈ queue, t.job = 0) → x.Reachable split ⟨queue, [], [job]⟩ →
      ∃ job' : Job (ℕ → V) (RangePos L) E, job'.fn = loop.rangeFn ∧ job'.count = job.count ∧
        job'.before = job.before ∧ job'.returned = none ∧ x.Reachable split ⟨[], [], [job']⟩ := by
  induction queue with
  | nil => exact fun job hfn hret _ hreach => ⟨job, hfn, rfl, rfl, hret, hreach⟩
  | cons t queue ih =>
      intro job hfn hret hqueue hreach
      have ht : t.job = 0 := hqueue t List.mem_cons_self
      have hjob : [job][t.job]? = some job := by
        rw [ht]
        rfl
      have htake := hreach.step (.take _ t queue job rfl (Nat.pos_of_ne_zero x.positive) hjob)
      rw [hfn] at htake
      obtain ⟨out, hended⟩ := reach_ended ht _ _ job hfn rfl htake
      have hdone := hended.step (.finish _ [] [] t none { job with state := out } rfl
        (by rw [ht]; rfl))
      rw [ht] at hdone
      obtain ⟨job', hfn', hcount, hbefore, hret', hreach'⟩ :=
        ih
          { job with
            state := out
            remaining := job.remaining - 1
            error := job.error <|> none
            finished := job.finished ++ [(t.range, none)] }
          hfn hret (fun t' ht' => hqueue t' (List.mem_cons_of_mem t ht')) hdone
      exact ⟨job', hfn', hcount, hbefore, hret', hreach'⟩

/-- **A call of the loop can come back.** -/
theorem exists_returned (loop : SampleLoop L V) (x : SampleExecutor) (split : ℕ → List (ℕ × ℕ))
    (count : ℕ) (out : ℕ → V) :
    ∃ (job : Job (ℕ → V) (RangePos L) E) (result : Option E),
      x.Reachable split ⟨[], [], [job]⟩ ∧ job.fn = loop.rangeFn ∧ job.count = count ∧
        job.before = out ∧ job.returned = some result := by
  have hwork : ∃ job : Job (ℕ → V) (RangePos L) E, x.Reachable split ⟨[], [], [job]⟩ ∧
      job.fn = loop.rangeFn ∧ job.count = count ∧ job.before = out ∧ job.returned = none := by
    by_cases hmany : count = 0 ∨ x.threads ≠ 1
    · obtain ⟨job, hfn, hcount, hbefore, hret, hreach⟩ := reach_worked_off _ _ rfl rfl
        (by
          intro t ht
          obtain ⟨r, -, rfl⟩ := List.mem_map.mp ht
          rfl)
        (Reachable.start.step (.queued (E := E) .empty loop.rangeFn count out hmany))
      exact ⟨job, hreach, hfn, hcount, hbefore, hret⟩
    · push Not at hmany
      have hdirect : x.Reachable split _ := Reachable.start.step
        (.direct (E := E) .empty loop.rangeFn count out hmany.1 hmany.2)
      obtain ⟨out', hended⟩ := reach_ended rfl _ _ _ rfl rfl hdirect
      have hdone := hended.step (.finish _ [] [] _ none _ rfl rfl)
      exact ⟨_, hdone, rfl, rfl, rfl, rfl⟩
  obtain ⟨job, hreach, hfn, hcount, hbefore, hret⟩ := hwork
  have hdone : job.remaining = 0 := (hreach.sound.booked 0 job rfl).remaining
  exact ⟨_, _, hreach.step (.back _ 0 job rfl hret hdone), hfn, hcount, hbefore, rfl⟩

end SampleLoop

/-! ## The operations -/

/-- What delay.h computes with: `F` is `float` and `D` is `double`.  Nothing is assumed of the
operations. -/
class FloatOps (F D : Type) where
  zero : F
  one : F
  add : F → F → F
  sub : F → F → F
  mul : F → F → F
  div : F → F → F
  /-- `static_cast<float>` of a count -/
  ofNat : ℕ → F
  cos : F → F
  sin : F → F
  /-- the product of two `std::complex<float>` -/
  cmul : Cplx F → Cplx F → Cplx F
  /-- `static_cast<float>` of a double -/
  narrow : D → F
  dOne : D
  /-- `static_cast<double>` of a count, and the other literals -/
  dofNat : ℕ → D
  /-- `2.0 * std::numbers::pi` -/
  twoPi : D
  dadd : D → D → D
  dmul : D → D → D
  ddiv : D → D → D
  dcos : D → D
  dsin : D → D
  dsqrt : D → D
  /-- `std::pow(10.0, x)` -/
  dpow10 : D → D
  dfmod : D → D → D
  /-- `std::floor` as a `ptrdiff_t` -/
  dfloor : D → ℤ

open FloatOps

section Float

variable {F D : Type} [o : FloatOps F D]

/-- `std::complex<float>` times `float`. -/
def scaleF (D : Type) [FloatOps F D] (c : Cplx F) (x : F) : Cplx F :=
  ⟨mul D c.re x, mul D c.im x⟩

def addF (D : Type) [FloatOps F D] (a b : Cplx F) : Cplx F := ⟨add D a.re b.re, add D a.im b.im⟩

/-- A zero sample. -/
def zeroF (F D : Type) [FloatOps F D] : Iq F := ⟨zero D, zero D⟩

/-- What one call of `apply_tdl_step` is given. -/
structure TdlCall (F D : Type) where
  input : List (Iq F)
  taps : List (TapSpec D)
  polyphase : List (Polyphase F)
  delayLine : List (Iq F)

/-- The lambda `read`. -/
def TdlCall.read (c : TdlCall F D) (idx : ℤ) : Iq F :=
  if (c.input.length : ℤ) ≤ idx then zeroF F D
  else if 0 ≤ idx then c.input.getD idx.toNat (zeroF F D)
  else if (c.delayLine.length : ℤ) + idx < 0 then zeroF F D
  else c.delayLine.getD (c.delayLine.length + idx).toNat (zeroF F D)

/-- The filtered input of one tap at sample `n`. -/
def TdlCall.filter (c : TdlCall F D) (n : ℕ) (tap : TapSpec D) (h : Polyphase F) : Iq F :=
  (List.finRange kTdlFracFilterTaps).foldl (fun x i =>
    let s := c.read (n - dfloor F tap.delaySamples + 3 - i.val)
    ⟨add D x.i (mul D (h i) s.i), add D x.q (mul D (h i) s.q)⟩) (zeroF F D)

/-- The static phase of a tap. -/
def rotateF (tap : TapSpec D) (x : Iq F) : Iq F :=
  let cosPhi := narrow (dcos F tap.phaseRad)
  let sinPhi := narrow (dsin F tap.phaseRad)
  ⟨sub D (mul D x.i cosPhi) (mul D x.q sinPhi), add D (mul D x.i sinPhi) (mul D x.q cosPhi)⟩

/-- The static gain of a tap. -/
def gainF (F : Type) {D : Type} [FloatOps F D] (tap : TapSpec D) : F :=
  narrow (dpow10 F (ddiv F tap.gainDb (dofNat F 20)))

/-- One sample of the static step. -/
def TdlCall.staticSample (c : TdlCall F D) (n : ℕ) : Iq F :=
  (c.taps.zip c.polyphase).foldl (fun acc p =>
    let rotated := rotateF p.1 (c.filter n p.1 p.2)
    let gain := gainF F p.1
    ⟨add D acc.i (mul D gain rotated.i), add D acc.q (mul D gain rotated.q)⟩) (zeroF F D)

/-- **The loop of `apply_tdl_step`.** It carries nothing. -/
def TdlCall.staticLoop (c : TdlCall F D) : SampleLoop (List (Cplx F)) (Iq F) where
  start := []
  replays := false
  advance := id
  sample n _ := c.staticSample n
  still _ _ := rfl

/-- What a fading call is given besides. -/
structure FadingCall (F D : Type) extends TdlCall F D where
  fading : TdlFadingState D
  sampleRateHz : ℕ
  slotStartSamples : ℕ
  grid : FadingGrid F
  losCoefficient : Cplx F

namespace FadingCall

variable (c : FadingCall F D)

/-- `omega_los`. -/
def omegaLos (tap : TapSpec D) : D :=
  dmul F (dmul F (twoPi F) c.fading.fDMaxHz) (dcos F tap.losAngleRad)

/-- `los_current`. -/
def losCurrent (tap : TapSpec D) : Cplx F :=
  if tap.isLos then
    let slotStartT := ddiv F (dofNat F c.slotStartSamples) (dofNat F c.sampleRateHz)
    let angle0 : F := narrow (dfmod F (dmul F (c.omegaLos tap) slotStartT) (twoPi F))
    ⟨cos D angle0, sin D angle0⟩
  else ⟨zero D, zero D⟩

/-- `los_step`. -/
def losStep (tap : TapSpec D) : Cplx F :=
  if tap.isLos then
    let stepAngle := ddiv F (c.omegaLos tap) (dofNat F c.sampleRateHz)
    ⟨narrow (dcos F stepAngle), narrow (dsin F stepAngle)⟩
  else ⟨one D, zero D⟩

/-- `range_los[k] *= los_step[k]` for the LOS taps. -/
def advanceLos (los : List (Cplx F)) : List (Cplx F) :=
  los.mapIdx fun k z =>
    match c.taps[k]? with
    | some tap => if tap.isLos then cmul D z (c.losStep tap) else z
    | none => z

/-- `g_k` at sample `n`. -/
def gain (n k : ℕ) (tap : TapSpec D) (los : Cplx F) : Cplx F :=
  let floor := n / c.grid.stride
  let ceil := min (floor + 1) (c.grid.points - 1)
  let frac := div D (ofNat D (n - floor * c.grid.stride)) (ofNat D c.grid.stride)
  let row := fun g => c.grid.values.getD (k * c.grid.points + g) ⟨zero D, zero D⟩
  let rayleigh := addF D (scaleF D (row floor) (sub D (one D) frac)) (scaleF D (row ceil) frac)
  if tap.isLos then
    let kLin := dpow10 F (ddiv F tap.losKDb (dofNat F 10))
    let losFactor := narrow (dsqrt F (ddiv F kLin (dadd F kLin (dOne F))))
    let rayleighFactor := narrow (dsqrt F (ddiv F (dOne F) (dadd F kLin (dOne F))))
    addF D (scaleF D (cmul D c.losCoefficient los) losFactor) (scaleF D rayleigh rayleighFactor)
  else rayleigh

/-- One sample of the fading step, with the rays at `los`. -/
def sample (n : ℕ) (los : List (Cplx F)) : Iq F :=
  (c.taps.zip c.polyphase).zipIdx.foldl (fun acc p =>
    let g := c.gain n p.2 p.1.1 (los.getD p.2 ⟨zero D, zero D⟩)
    let x := rotateF p.1.1 (c.filter n p.1.1 p.1.2)
    let xi := sub D (mul D x.i g.re) (mul D x.q g.im)
    let xq := add D (mul D x.i g.im) (mul D x.q g.re)
    let gain := gainF F p.1.1
    ⟨add D acc.i (mul D gain xi), add D acc.q (mul D gain xq)⟩) (zeroF F D)

/-- `has_los`. -/
def hasLos : Bool := c.taps.any (·.isLos)

theorem advanceLos_of_not_hasLos (h : c.hasLos = false) (los : List (Cplx F)) :
    c.advanceLos los = los := by
  apply List.ext_getElem?
  intro k
  rw [advanceLos, List.getElem?_mapIdx]
  cases hz : los[k]? with
  | none => rfl
  | some z =>
      rw [Option.map_some]
      cases htap : c.taps[k]? with
      | none => rfl
      | some tap =>
          have hnot : tap.isLos = false := by
            have hall := List.any_eq_false.mp h tap (List.mem_of_getElem? htap)
            simpa using hall
          dsimp only
          rw [hnot]
          rfl

/-- **The loop of `apply_tdl_step_fading`.** It carries the rays. -/
def fadingLoop : SampleLoop (List (Cplx F)) (Iq F) where
  start := c.taps.map c.losCurrent
  replays := c.hasLos
  advance := c.advanceLos
  sample := c.sample
  still := c.advanceLos_of_not_hasLos

/-- The loop that a call runs. -/
def loop : Except String (SampleLoop (List (Cplx F)) (Iq F)) :=
  if !c.fading.enabled then pure c.toTdlCall.staticLoop
  else if c.grid.taps ≠ c.taps.length ∨ c.grid.points = 0 then
    throw "tdl fading grid does not match the step's tap count"
  else pure c.fadingLoop

end FadingCall

/-! ## With and without an executor -/

/-- The samples in the buffer `out`, and the ring rolled over the input. -/
def TdlCall.outcome (c : TdlCall F D) (out : ℕ → Iq F) : List (Iq F) × List (Iq F) :=
  ((List.range c.input.length).map out, rollDelayLine c.input c.delayLine)

/-- **`apply_tdl_step` without an executor**, into the buffer `out`. -/
def applyTdlStepSerial (c : TdlCall F D) (out : ℕ → Iq F) : List (Iq F) × List (Iq F) :=
  c.outcome (c.staticLoop.calculate 0 c.input.length out)

/-- **`apply_tdl_step_fading` without an executor.** -/
def applyTdlStepFadingSerial (c : FadingCall F D) (out : ℕ → Iq F) :
    Except String (List (Iq F) × List (Iq F)) := do
  let loop ← c.loop
  pure (c.outcome (loop.calculate 0 c.input.length out))

/-- What a call of `loop` may leave when its ranges run on the workers of `x`: some interleaving of
all calls and workers lets it come back so. -/
def LeftBy (x : SampleExecutor) (split : ℕ → List (ℕ × ℕ))
    (loop : SampleLoop (List (Cplx F)) (Iq F)) (c : TdlCall F D) (out : ℕ → Iq F)
    (result : Except String (List (Iq F) × List (Iq F))) : Prop :=
  ∃ p : Pool (ℕ → Iq F) (RangePos (List (Cplx F))) String, x.Reachable split p ∧
    ∃ (j : ℕ) (job : Job (ℕ → Iq F) (RangePos (List (Cplx F))) String) (thrown : Option String),
      p.jobs[j]? = some job ∧ job.fn = loop.rangeFn ∧ job.count = c.input.length ∧
      job.before = out ∧ job.returned = some thrown ∧
      result = match thrown with
        | none => .ok (c.outcome job.state)
        | some e => .error e

/-- **`apply_tdl_step_fading` with an executor.** -/
def FadingLeftBy (x : SampleExecutor) (split : ℕ → List (ℕ × ℕ)) (c : FadingCall F D)
    (out : ℕ → Iq F) (result : Except String (List (Iq F) × List (Iq F))) : Prop :=
  match c.loop with
  | .error e => result = .error e
  | .ok loop => LeftBy x split loop c.toTdlCall out result

/-- A worker count cuts what its `split` cuts. -/
theorem ranges_cuts (x : SampleExecutor) {split : ℕ → List (ℕ × ℕ)}
    (hsplit : ∀ count, count ≠ 0 → Cuts count (split count)) (count : ℕ) :
    Cuts count (x.ranges split count) := by
  unfold ranges
  split_ifs with hzero hone
  · subst hzero
    exact ⟨by simp, by simp, by simp⟩
  · exact ⟨by simpa using Nat.pos_of_ne_zero hzero, by simp, by simp⟩
  · exact hsplit count hzero

omit o in
theorem LeftBy.eq_serial {x : SampleExecutor} {split : ℕ → List (ℕ × ℕ)}
    (hsplit : ∀ count, count ≠ 0 → Cuts count (split count))
    {loop : SampleLoop (List (Cplx F)) (Iq F)} {c : TdlCall F D} {out : ℕ → Iq F}
    {result : Except String (List (Iq F) × List (Iq F))} (h : LeftBy x split loop c out result) :
    result = .ok (c.outcome (loop.calculate 0 c.input.length out)) := by
  obtain ⟨p, hreach, j, job, thrown, hjob, hfn, hcount, hbefore, hreturned, rfl⟩ := h
  obtain ⟨rfl, hstate⟩ := SampleLoop.returned_eq (ranges_cuts x hsplit) hreach hjob hfn hreturned
  rw [hstate, hcount, hbefore]

omit o in
/-- Every call on workers comes back in some interleaving. -/
theorem exists_leftBy (x : SampleExecutor) (split : ℕ → List (ℕ × ℕ))
    (loop : SampleLoop (List (Cplx F)) (Iq F)) (c : TdlCall F D) (out : ℕ → Iq F) :
    ∃ result, LeftBy x split loop c out result := by
  obtain ⟨job, thrown, hreach, hfn, hcount, hbefore, hret⟩ :=
    loop.exists_returned x split c.input.length out
  exact ⟨_, _, hreach, 0, job, thrown, rfl, hfn, hcount, hbefore, hret, rfl⟩

end Float

/-! ## Exact operations -/

section Exact

variable {K : Type} [Field K] [LinearOrder K] [FloorRing K] [Libm K]

/-- The operations of a field, without rounding. -/
instance exactOps : FloatOps K K where
  zero := 0
  one := 1
  add := (· + ·)
  sub := (· - ·)
  mul := (· * ·)
  div := (· / ·)
  ofNat n := n
  cos := Libm.cos
  sin := Libm.sin
  cmul := (· * ·)
  narrow := id
  dOne := 1
  dofNat n := n
  twoPi := 2 * Libm.pi
  dadd := (· + ·)
  dmul := (· * ·)
  ddiv := (· / ·)
  dcos := Libm.cos
  dsin := Libm.sin
  dsqrt := Libm.sqrt
  dpow10 := Libm.pow10
  dfmod := fmod
  dfloor x := ⌊x⌋

/-- **Without rounding the static step is the convolution of the model.** -/
theorem applyTdlStepSerial_exact (c : TdlCall K K) (out : ℕ → Iq K) :
    applyTdlStepSerial c out = applyTdlStep c.input c.taps c.polyphase c.delayLine := by
  apply Prod.ext
  · apply List.map_congr_left
    intro n hn
    rw [SampleLoop.calculate_apply, if_pos ⟨Nat.zero_le n, List.mem_range.mp hn⟩]
    rfl
  · rfl

/-- The ray of tap `k` at sample `n` of one pass. -/
theorem fadingLoop_stateAt (c : FadingCall K K) {k : ℕ} {tap : TapSpec K}
    (htap : c.taps[k]? = some tap) (n : ℕ) :
    (c.fadingLoop.stateAt n)[k]? = some (if tap.isLos then
      advance (c.losStep tap) (c.losCurrent tap) n else c.losCurrent tap) := by
  induction n with
  | zero =>
      show (c.taps.map c.losCurrent)[k]? = _
      rw [List.getElem?_map, htap]
      cases tap.isLos with
      | false => rfl
      | true => rfl
  | succ n ih =>
      show (c.advanceLos (c.fadingLoop.stateAt n))[k]? = _
      rw [FadingCall.advanceLos, List.getElem?_mapIdx, ih, Option.map_some, htap]
      dsimp only
      cases tap.isLos with
      | false => rfl
      | true => rfl

/-- **Without rounding the fading step is the one of the model.** -/
theorem applyTdlStepFadingSerial_exact (c : FadingCall K K) (out : ℕ → Iq K) :
    applyTdlStepFadingSerial c out = applyTdlStepFading c.input c.taps c.polyphase c.delayLine
      c.fading c.sampleRateHz c.slotStartSamples c.grid c.losCoefficient := by
  unfold applyTdlStepFadingSerial applyTdlStepFading FadingCall.loop
  cases henabled : c.fading.enabled with
  | false =>
      simp only [Bool.not_false, if_true]
      exact congrArg Except.ok (applyTdlStepSerial_exact c.toTdlCall out)
  | true =>
      simp only [Bool.not_true, Bool.false_eq_true, if_false]
      by_cases hgrid : c.grid.taps ≠ c.taps.length ∨ c.grid.points = 0
      · rw [if_pos hgrid, if_pos hgrid]
        rfl
      · rw [if_neg hgrid, if_neg hgrid]
        apply congrArg Except.ok
        apply Prod.ext
        · apply List.map_congr_left
          intro n hn
          rw [SampleLoop.calculate_apply, if_pos ⟨Nat.zero_le n, List.mem_range.mp hn⟩]
          apply List.foldl_ext
          rintro acc ⟨⟨tap, h⟩, k⟩ hp
          have htap : c.taps[k]? = some tap := by
            have hz := List.mem_zipIdx_iff_getElem?.mp hp
            rw [List.getElem?_zip_eq_some] at hz
            exact hz.1
          have hgain : c.gain n k tap ((c.fadingLoop.stateAt n).getD k 0) = fadingGain c.fading
              c.grid c.losCoefficient c.sampleRateHz c.slotStartSamples k n tap := by
            rw [List.getD_eq_getElem?_getD, fadingLoop_stateAt c htap n]
            unfold FadingCall.gain fadingGain FadingCall.losStep FadingCall.losCurrent
            cases tap.isLos with
            | false => rfl
            | true => rfl
          rw [← hgain]
          rfl
        · rfl

end Exact

/-! ## Any number of workers -/

/-- **Parallel execution is the serial one.**  The ranges of a call cut its samples; a call comes
back after each of its ranges is done once, and throws what one of them threw if any did; ranges in
any cut and any order give one pass of a loop; and the two delay lines leave the same samples and
the same ring with an executor as without one, for arbitrary operations. -/
theorem parallel_is_serial :
    (∀ (x : SampleExecutor) (count : ℕ), count ≠ 0 →
      Cuts count (x.ranges (splitRanges x.threads) count)) ∧
    (∀ (S L E : Type) (x : SampleExecutor) (p : Pool S L E),
      x.Reachable (splitRanges x.threads) p → ∀ (j : ℕ) (job : Job S L E) (result : Option E),
      p.jobs[j]? = some job → job.returned = some result →
        (job.finished.map (·.1)).Perm (x.ranges (splitRanges x.threads) job.count) ∧
        rangesOf j p.tasks = [] ∧ (result = none ↔ ∀ f ∈ job.finished, f.2 = none) ∧
        ∀ e, result = some e → ∃ f ∈ job.finished, f.2 = some e) ∧
    (∀ (L V : Type) (loop : SampleLoop L V) (count : ℕ) (ranges : List (ℕ × ℕ)) (out : ℕ → V),
      Cuts count ranges →
        ranges.foldl (fun out r => loop.calculate r.1 r.2 out) out =
          loop.calculate 0 count out) ∧
    (∀ (F D : Type) [FloatOps F D] (x : SampleExecutor) (split : ℕ → List (ℕ × ℕ)),
      (∀ count, count ≠ 0 → Cuts count (split count)) →
      (∀ (c : TdlCall F D) (out : ℕ → Iq F) result, LeftBy x split c.staticLoop c out result →
        result = .ok (applyTdlStepSerial c out)) ∧
      ∀ (c : FadingCall F D) (out : ℕ → Iq F) result, FadingLeftBy x split c out result →
        result = applyTdlStepFadingSerial c out) := by
  refine ⟨?_, ?_, ?_, ?_⟩
  · intro x count _
    exact ranges_cuts x (fun c hc => (splitRanges_cuts x.positive hc).1) count
  · intro S L E x p hreach j job result hjob hresult
    exact hreach.returned hjob hresult
  · intro L V loop count ranges out hcuts
    exact loop.calculate_cuts hcuts out
  · intro F D _ x split hsplit
    refine ⟨fun c out result h => h.eq_serial hsplit, ?_⟩
    intro c out result h
    unfold FadingLeftBy at h
    unfold applyTdlStepFadingSerial
    cases hloop : c.loop with
    | error e =>
        rw [hloop] at h
        exact h
    | ok loop =>
        rw [hloop] at h
        exact h.eq_serial hsplit

/-- Two samples through one tap with a line-of-sight ray. -/
def twoSamples : FadingCall ℚ ℚ :=
  { input := [⟨1, 0⟩, ⟨0, 1⟩]
    taps := [⟨0, 0, 0, true, 0, 0⟩]
    polyphase := [fun i => if i.val = 3 then 1 else 0]
    delayLine := [0, 0, 0, 0, 0, 0, 0, 0]
    fading := { TdlFadingState.default with enabled := true }
    sampleRateHz := 1
    slotStartSamples := 0
    grid := { stride := 1, points := 1, taps := 1, values := [1] }
    losCoefficient := 1 }

/-- Three samples are cut in two for two workers, a call for three samples comes back with both
ranges done, and both delay lines shape two samples on two workers as in one pass. -/
theorem parallel_is_serial_two_workers :
    Cuts 3 (ranges ⟨2, by decide⟩ (splitRanges 2) 3) ∧
    (∃ job : Job (ℕ → Iq ℚ) (RangePos (List (Cplx ℚ))) String,
      (job.finished.map (·.1)).Perm [(0, 2), (2, 3)]) ∧
    [(2, 3), (0, 2)].foldl (fun out r => twoSamples.fadingLoop.calculate r.1 r.2 out) 0 =
      twoSamples.fadingLoop.calculate 0 3 0 ∧
    LeftBy ⟨2, by decide⟩ (splitRanges 2) twoSamples.staticLoop twoSamples.toTdlCall 0
      (.ok (applyTdlStepSerial twoSamples.toTdlCall 0)) ∧
    FadingLeftBy ⟨2, by decide⟩ (splitRanges 2) twoSamples 0
      (applyTdlStepFadingSerial twoSamples 0) := by
  obtain ⟨hcuts, hreturned, hany, hlines⟩ := parallel_is_serial
  have hsplit : ∀ count, count ≠ 0 → Cuts count (splitRanges 2 count) :=
    fun count hcount => (splitRanges_cuts (by decide) hcount).1
  obtain ⟨hstatic, hfading⟩ := hlines ℚ ℚ ⟨2, by decide⟩ (splitRanges 2) hsplit
  refine ⟨hcuts ⟨2, by decide⟩ 3 (by decide), ?_, ?_, ?_, ?_⟩
  · obtain ⟨job, thrown, hreach, -, hcount, -, hret⟩ :=
      twoSamples.fadingLoop.exists_returned (E := String) ⟨2, by decide⟩ (splitRanges 2) 3 0
    obtain ⟨hperm, -⟩ := hreturned _ _ _ _ _ hreach 0 job thrown rfl hret
    rw [hcount] at hperm
    exact ⟨job, hperm⟩
  · apply hany
    exact ⟨by decide, by simp; omega, by simp; omega⟩
  · obtain ⟨result, h⟩ := exists_leftBy ⟨2, by decide⟩ (splitRanges 2) twoSamples.staticLoop
      twoSamples.toTdlCall 0
    rw [hstatic _ _ _ h] at h
    exact h
  · obtain ⟨result, h⟩ := exists_leftBy ⟨2, by decide⟩ (splitRanges 2) twoSamples.fadingLoop
      twoSamples.toTdlCall 0
    have hloop : twoSamples.loop = .ok twoSamples.fadingLoop := rfl
    have hleft : FadingLeftBy ⟨2, by decide⟩ (splitRanges 2) twoSamples 0 result := by
      unfold FadingLeftBy
      rw [hloop]
      exact h
    rw [hfading _ _ _ hleft] at hleft
    exact hleft
