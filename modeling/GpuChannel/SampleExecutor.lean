/-
# The sample executor

`SampleExecutor` (sample_executor.cpp): callers cut the samples of a call into ranges and put them
into one queue, workers take them from its front, and a caller waits until none of its ranges
remains.  One step is one section under a lock, or one action of a range on the state that its call
captured, so the ranges of one call and of several calls interleave in any way.

With one worker there is no worker thread: the caller runs the only range itself.
-/
import Mathlib

/-! ## Ranges -/

/-- Ranges that cut `[0, count)` into pieces, in any order. -/
structure Cuts (count : ℕ) (ranges : List (ℕ × ℕ)) : Prop where
  nonempty : ∀ r ∈ ranges, r.1 < r.2
  disjoint : ranges.Pairwise fun r r' => ∀ n, ¬(r.1 ≤ n ∧ n < r.2 ∧ r'.1 ≤ n ∧ n < r'.2)
  cover : ∀ n, n < count ↔ ∃ r ∈ ranges, r.1 ≤ n ∧ n < r.2

/-- The ranges of `for_each_range`: each gets `count / ranges` samples, and the first ones get one
more. -/
def splitRanges (threads count : ℕ) : List (ℕ × ℕ) :=
  let ranges := min count threads
  let chunk := count / ranges
  let extra := count % ranges
  ((List.range ranges).foldl (fun (acc : List (ℕ × ℕ) × ℕ) i =>
    let stop := acc.2 + chunk + (if i < extra then 1 else 0)
    (acc.1 ++ [(acc.2, stop)], stop)) ([], 0)).1

/-- One more range behind the others. -/
theorem Cuts.snoc {count stop : ℕ} {ranges : List (ℕ × ℕ)} (h : Cuts count ranges)
    (hlt : count < stop) : Cuts stop (ranges ++ [(count, stop)]) := by
  have hbelow : ∀ r ∈ ranges, ∀ n, r.1 ≤ n → n < r.2 → n < count :=
    fun r hr n hle hn => (h.cover n).mpr ⟨r, hr, hle, hn⟩
  refine ⟨?_, ?_, ?_⟩
  · intro r hr
    rcases List.mem_append.mp hr with hold | hlast
    · exact h.nonempty r hold
    · rw [List.mem_singleton.mp hlast]
      exact hlt
  · rw [List.pairwise_append]
    refine ⟨h.disjoint, List.pairwise_singleton _ _, ?_⟩
    intro r hr r' hr' n hn
    rw [List.mem_singleton.mp hr'] at hn
    exact absurd (hbelow r hr n hn.1 hn.2.1) (not_lt.mpr hn.2.2.1)
  · intro n
    constructor
    · intro hn
      by_cases hold : n < count
      · obtain ⟨r, hr, hin⟩ := (h.cover n).mp hold
        exact ⟨r, List.mem_append_left _ hr, hin⟩
      · exact ⟨_, List.mem_append_right _ (List.mem_singleton_self _), not_lt.mp hold, hn⟩
    · rintro ⟨r, hr, hle, hn⟩
      rcases List.mem_append.mp hr with hold | hlast
      · exact lt_trans (hbelow r hold n hle hn) hlt
      · rw [List.mem_singleton.mp hlast] at hn
        exact hn

/-- **The ranges of a call are non-empty, disjoint, and cover its samples.** -/
theorem splitRanges_cuts {threads count : ℕ} (ht : threads ≠ 0) (hc : count ≠ 0) :
    Cuts count (splitRanges threads count) ∧
      (splitRanges threads count).length = min count threads := by
  have hranges : 0 < min count threads := by omega
  have hchunk : 0 < count / min count threads := Nat.div_pos (min_le_left _ _) hranges
  -- after `k` ranges, `k * chunk` samples and one more for each of the first are given out
  have hfold : ∀ k ≤ min count threads,
      let acc := (List.range k).foldl (fun (acc : List (ℕ × ℕ) × ℕ) i =>
        let stop := acc.2 + count / min count threads +
          (if i < count % min count threads then 1 else 0)
        (acc.1 ++ [(acc.2, stop)], stop)) ([], 0)
      Cuts acc.2 acc.1 ∧ acc.1.length = k ∧
        acc.2 = k * (count / min count threads) + min k (count % min count threads) := by
    intro k
    induction k with
    | zero =>
        intro _
        refine ⟨⟨by simp, by simp, by simp⟩, rfl, by simp⟩
    | succ k ih =>
        intro hk
        obtain ⟨hcuts, hlen, hstop⟩ := ih (by omega)
        rw [List.range_succ, List.foldl_append, List.foldl_cons, List.foldl_nil]
        dsimp only at hcuts hlen hstop ⊢
        refine ⟨hcuts.snoc (by omega), by simp [hlen], ?_⟩
        rw [hstop, Nat.succ_mul]
        split_ifs with hextra
        · omega
        · omega
  obtain ⟨hcuts, hlen, hstop⟩ := hfold _ le_rfl
  have hall : min count threads * (count / min count threads) +
      min (min count threads) (count % min count threads) = count := by
    rw [min_eq_right (Nat.mod_lt count hranges).le]
    exact Nat.div_add_mod count (min count threads)
  rw [hall] at hstop
  rw [hstop] at hcuts
  exact ⟨hcuts, hlen⟩

/-! ## The pool -/

/-- **`SampleExecutor`.** A worker count of zero cannot be constructed. -/
structure SampleExecutor where
  threads : ℕ
  positive : threads ≠ 0

namespace SampleExecutor

/-- The constructor. -/
def new (threads : ℕ) : Except String SampleExecutor :=
  if h : threads = 0 then throw "CPU worker count must be positive" else pure ⟨threads, h⟩

/-- The ranges that a call of `for_each_range` has executed; `split` cuts the samples for the
workers. -/
def ranges (x : SampleExecutor) (split : ℕ → List (ℕ × ℕ)) (count : ℕ) :
    List (ℕ × ℕ) :=
  if count = 0 then []
  else if x.threads = 1 then [(0, count)]
  else split count

/-- **The function of a call.** Entered with a range, it acts on the state that the call captured
until it returns (`none`) or throws. -/
structure RangeFn (S L E : Type) where
  enter : ℕ → ℕ → L
  step : L → S → (L × S) ⊕ Option E

/-- `Task`. -/
structure Task where
  job : ℕ
  start : ℕ
  stop : ℕ

def Task.range (t : Task) : ℕ × ℕ := (t.start, t.stop)

/-- Where a range in execution stands: inside the function, or before the lock of its job. -/
inductive Place (L E : Type)
  | running (l : L)
  | ended (outcome : Option E)

structure Held (L E : Type) where
  task : Task
  place : Place L E

/-- **`Job`**, with the call it belongs to.  `finished` records the ranges that are done and how they
ended; `returned` is what the call gave back to its caller. -/
structure Job (S L E : Type) where
  fn : RangeFn S L E
  count : ℕ
  before : S
  state : S
  remaining : ℕ
  error : Option E
  finished : List ((ℕ × ℕ) × Option E)
  returned : Option (Option E)

/-- **The queue, the ranges in execution, and the calls.** -/
structure Pool (S L E : Type) where
  queue : List Task
  busy : List (Held L E)
  jobs : List (Job S L E)

section Pool

variable {S L E : Type}

def Pool.empty : Pool S L E := ⟨[], [], []⟩

/-- A call that has put its ranges into the queue. -/
def Job.new (fn : RangeFn S L E) (count : ℕ) (ranges : List (ℕ × ℕ)) (state : S) : Job S L E :=
  { fn := fn, count := count, before := state, state := state, remaining := ranges.length
    error := none, finished := [], returned := none }

/-- The tasks of call `j`. -/
def tasksOf (j : ℕ) (ranges : List (ℕ × ℕ)) : List Task := ranges.map fun r => ⟨j, r.1, r.2⟩

/-- **One step of a caller or a worker.** -/
inductive Step (x : SampleExecutor) (split : ℕ → List (ℕ × ℕ)) :
    Pool S L E → Pool S L E → Prop
  /-- `for_each_range` with one worker: the caller enters its function. -/
  | direct (p : Pool S L E) (fn : RangeFn S L E) (count : ℕ) (state : S) (hcount : count ≠ 0)
      (hone : x.threads = 1) :
      x.Step split p
        { p with
          busy := ⟨⟨p.jobs.length, 0, count⟩, .running (fn.enter 0 count)⟩ :: p.busy
          jobs := p.jobs ++ [Job.new fn count [(0, count)] state] }
  /-- `for_each_range` otherwise: the caller queues its ranges, none for an empty call. -/
  | queued (p : Pool S L E) (fn : RangeFn S L E) (count : ℕ) (state : S)
      (hmany : count = 0 ∨ x.threads ≠ 1) :
      x.Step split p
        { p with
          queue := p.queue ++ tasksOf p.jobs.length (x.ranges split count)
          jobs := p.jobs ++ [Job.new fn count (x.ranges split count) state] }
  /-- A free worker takes the front of the queue. -/
  | take (p : Pool S L E) (t : Task) (rest : List Task) (job : Job S L E)
      (hqueue : p.queue = t :: rest) (hfree : p.busy.length < x.threads)
      (hjob : p.jobs[t.job]? = some job) :
      x.Step split p
        { p with queue := rest, busy := ⟨t, .running (job.fn.enter t.start t.stop)⟩ :: p.busy }
  /-- A range in execution acts. -/
  | act (p : Pool S L E) (before after : List (Held L E)) (t : Task) (l l' : L) (s' : S)
      (job : Job S L E) (hbusy : p.busy = before ++ ⟨t, .running l⟩ :: after)
      (hjob : p.jobs[t.job]? = some job) (hact : job.fn.step l job.state = .inl (l', s')) :
      x.Step split p
        { p with
          busy := before ++ ⟨t, .running l'⟩ :: after
          jobs := p.jobs.set t.job { job with state := s' } }
  /-- A range in execution returns or throws. -/
  | leave (p : Pool S L E) (before after : List (Held L E)) (t : Task) (l : L)
      (outcome : Option E) (job : Job S L E)
      (hbusy : p.busy = before ++ ⟨t, .running l⟩ :: after)
      (hjob : p.jobs[t.job]? = some job) (hleave : job.fn.step l job.state = .inr outcome) :
      x.Step split p { p with busy := before ++ ⟨t, .ended outcome⟩ :: after }
  /-- Under the lock of the job: keep the first exception and count down. -/
  | finish (p : Pool S L E) (before after : List (Held L E)) (t : Task) (outcome : Option E)
      (job : Job S L E) (hbusy : p.busy = before ++ ⟨t, .ended outcome⟩ :: after)
      (hjob : p.jobs[t.job]? = some job) :
      x.Step split p
        { p with
          busy := before ++ after
          jobs := p.jobs.set t.job
            { job with
              remaining := job.remaining - 1
              error := job.error <|> outcome
              finished := job.finished ++ [(t.range, outcome)] } }
  /-- The caller finds that nothing remains, and returns or rethrows. -/
  | back (p : Pool S L E) (j : ℕ) (job : Job S L E) (hjob : p.jobs[j]? = some job)
      (hwaiting : job.returned = none) (hdone : job.remaining = 0) :
      x.Step split p { p with jobs := p.jobs.set j { job with returned := some job.error } }

/-- The pools that any interleaving reaches. -/
inductive Reachable (x : SampleExecutor) (split : ℕ → List (ℕ × ℕ)) :
    Pool S L E → Prop
  | start : x.Reachable split Pool.empty
  | step {p p' : Pool S L E} (h : x.Reachable split p) (hstep : x.Step split p p') :
      x.Reachable split p'

/-! ## What the locks keep -/

/-- The tasks that are queued or in execution. -/
def Pool.tasks (p : Pool S L E) : List Task := p.queue ++ p.busy.map (·.task)

/-- The ranges of call `j` among some tasks. -/
def rangesOf (j : ℕ) (tasks : List Task) : List (ℕ × ℕ) :=
  (tasks.filter (·.job = j)).map (·.range)

/-- **The bookkeeping of one call.** -/
structure Booked (x : SampleExecutor) (split : ℕ → List (ℕ × ℕ)) (pending : List (ℕ × ℕ))
    (job : Job S L E) : Prop where
  ranges : (pending ++ job.finished.map (·.1)).Perm (x.ranges split job.count)
  remaining : job.remaining = pending.length
  error : job.error = job.finished.findSome? (·.2)
  returned : ∀ r, job.returned = some r → pending = [] ∧ r = job.error

/-- Every call is booked, and every task belongs to a call. -/
structure Sound (x : SampleExecutor) (split : ℕ → List (ℕ × ℕ)) (p : Pool S L E) : Prop where
  booked : ∀ j job, p.jobs[j]? = some job → Booked x split (rangesOf j p.tasks) job
  known : ∀ t ∈ p.tasks, t.job < p.jobs.length

theorem rangesOf_perm {j : ℕ} {ts ts' : List Task} (h : ts.Perm ts') :
    (rangesOf j ts).Perm (rangesOf j ts') := (h.filter _).map _

theorem rangesOf_append (j : ℕ) (ts ts' : List Task) :
    rangesOf j (ts ++ ts') = rangesOf j ts ++ rangesOf j ts' := by
  rw [rangesOf, List.filter_append, List.map_append]
  rfl

theorem rangesOf_tasksOf (j k : ℕ) (ranges : List (ℕ × ℕ)) :
    rangesOf j (tasksOf k ranges) = if j = k then ranges else [] := by
  unfold rangesOf tasksOf
  split_ifs with hjk
  · subst hjk
    rw [List.filter_eq_self.mpr, List.map_map]
    · exact List.map_id ranges
    · intro t ht
      obtain ⟨r, -, rfl⟩ := List.mem_map.mp ht
      exact decide_eq_true rfl
  · rw [List.filter_eq_nil_iff.mpr]
    · rfl
    · intro t ht
      obtain ⟨r, -, rfl⟩ := List.mem_map.mp ht
      simpa using fun h : k = j => hjk h.symm

/-- A number that no task has. -/
theorem rangesOf_of_lt {j : ℕ} {ts : List Task} (h : ∀ t ∈ ts, t.job < j) : rangesOf j ts = [] := by
  rw [rangesOf, List.filter_eq_nil_iff.mpr]
  · rfl
  · intro t ht
    simpa using (h t ht).ne

theorem Booked.perm {x : SampleExecutor} {split : ℕ → List (ℕ × ℕ)} {ps ps' : List (ℕ × ℕ)}
    {job : Job S L E} (h : Booked x split ps job) (hp : ps.Perm ps') : Booked x split ps' job where
  ranges := (hp.symm.append_right _).trans h.ranges
  remaining := h.remaining.trans hp.length_eq
  error := h.error
  returned := by
    intro r hr
    obtain ⟨hnil, heq⟩ := h.returned r hr
    subst hnil
    exact ⟨List.nil_perm.mp hp, heq⟩

/-- A call that has just been queued. -/
theorem booked_new (x : SampleExecutor) (split : ℕ → List (ℕ × ℕ)) (fn : RangeFn S L E)
    (count : ℕ) (state : S) : Booked x split (x.ranges split count)
      (Job.new fn count (x.ranges split count) state) where
  ranges := by
    rw [show (Job.new fn count (x.ranges split count) state).finished = [] from rfl,
      List.map_nil, List.append_nil]
    exact List.Perm.refl _
  remaining := rfl
  error := rfl
  returned := by
    intro r hr
    cases hr

/-- One of the ranges of a call is done. -/
theorem Booked.finish {x : SampleExecutor} {split : ℕ → List (ℕ × ℕ)} {ps : List (ℕ × ℕ)}
    {r : ℕ × ℕ} {job : Job S L E} (h : Booked x split (r :: ps) job) (outcome : Option E) :
    Booked x split ps
      { job with
        remaining := job.remaining - 1
        error := job.error <|> outcome
        finished := job.finished ++ [(r, outcome)] } where
  ranges := by
    refine List.Perm.trans ?_ h.ranges
    rw [List.map_append, List.map_singleton, ← List.append_assoc]
    exact List.perm_append_comm
  remaining := by
    dsimp only
    rw [h.remaining, List.length_cons, Nat.add_sub_cancel]
  error := by
    dsimp only
    rw [List.findSome?_append, ← h.error, List.findSome?_singleton]
    cases job.error with
    | none => rfl
    | some e => rfl
  returned := by
    intro r' hr'
    exact absurd (h.returned r' hr').1 (List.cons_ne_nil _ _)

/-- A change of one call that does not touch the tasks. -/
theorem Sound.set {x : SampleExecutor} {split : ℕ → List (ℕ × ℕ)} {p p' : Pool S L E} {j : ℕ}
    {job' : Job S L E} (h : Sound x split p) (hjobs : p'.jobs = p.jobs.set j job')
    (hsame : ∀ i job, i ≠ j → p.jobs[i]? = some job →
      (rangesOf i p.tasks).Perm (rangesOf i p'.tasks))
    (hjob : j < p.jobs.length → Booked x split (rangesOf j p'.tasks) job')
    (hknown : ∀ t ∈ p'.tasks, t ∈ p.tasks) : Sound x split p' where
  booked := by
    intro i job hi
    rw [hjobs, List.getElem?_set] at hi
    split_ifs at hi with hij hlt
    · subst hij
      cases hi
      exact hjob hlt
    · exact (h.booked i job hi).perm (hsame i job (Ne.symm hij) hi)
  known := by
    intro t ht
    rw [hjobs, List.length_set]
    exact h.known t (hknown t ht)

/-- A new call behind the others. -/
theorem Sound.call {x : SampleExecutor} {split : ℕ → List (ℕ × ℕ)} {p p' : Pool S L E}
    {fn : RangeFn S L E} {count : ℕ} {state : S} (h : Sound x split p)
    (hjobs : p'.jobs = p.jobs ++ [Job.new fn count (x.ranges split count) state])
    (htasks : p'.tasks.Perm (p.tasks ++ tasksOf p.jobs.length (x.ranges split count))) :
    Sound x split p' where
  booked := by
    intro i job hi
    have hpending : (rangesOf i p.tasks ++
        (if i = p.jobs.length then x.ranges split count else [])).Perm (rangesOf i p'.tasks) := by
      rw [← rangesOf_tasksOf, ← rangesOf_append]
      exact rangesOf_perm htasks.symm
    rw [hjobs] at hi
    rcases Nat.lt_or_ge i p.jobs.length with hlt | hge
    · rw [List.getElem?_append_left hlt] at hi
      rw [if_neg hlt.ne, List.append_nil] at hpending
      exact (h.booked i job hi).perm hpending
    · have hi' := List.getElem?_eq_some_iff.mp hi
      obtain ⟨hlt, -⟩ := hi'
      rw [List.length_append, List.length_singleton] at hlt
      obtain rfl : i = p.jobs.length := by omega
      rw [List.getElem?_concat_length] at hi
      cases hi
      rw [if_pos rfl, rangesOf_of_lt h.known, List.nil_append] at hpending
      exact (booked_new x split fn count state).perm hpending
  known := by
    intro t ht
    rw [hjobs, List.length_append, List.length_singleton]
    rcases List.mem_append.mp (htasks.mem_iff.mp ht) with hold | hnew
    · exact Nat.lt_succ_of_lt (h.known t hold)
    · obtain ⟨r, -, rfl⟩ := List.mem_map.mp hnew
      exact Nat.lt_succ_self _

/-- **Every step keeps the books.** -/
theorem Sound.step {x : SampleExecutor} {split : ℕ → List (ℕ × ℕ)} {p p' : Pool S L E}
    (h : Sound x split p) (hstep : x.Step split p p') : Sound x split p' := by
  cases hstep with
  | direct fn count state hcount hone =>
      have hranges : x.ranges split count = [(0, count)] := by
        -- the caller itself enters the one range
        rw [ranges, if_neg hcount, if_pos hone]
      refine @Sound.call _ _ _ x split p _ fn count state h ?_ ?_
      · rw [hranges]
      · rw [hranges]
        show (p.queue ++ ⟨p.jobs.length, 0, count⟩ :: p.busy.map (·.task)).Perm _
        refine List.perm_middle.trans ?_
        exact (List.perm_append_singleton _ _).symm
  | queued fn count state hmany =>
      refine @Sound.call _ _ _ x split p _ fn count state h rfl ?_
      -- only the front of the queue moves on
      show (p.queue ++ _ ++ p.busy.map (·.task)).Perm (p.queue ++ p.busy.map (·.task) ++ _)
      rw [List.append_assoc, List.append_assoc]
      exact List.perm_append_comm.append_left _
  | take t rest job hqueue hfree hjob =>
      -- the task goes from the queue to the worker
      have htasks : p.tasks.Perm (rest ++ t :: p.busy.map (·.task)) := by
        rw [Pool.tasks, hqueue]
        exact List.perm_middle.symm
      refine ⟨?_, ?_⟩
      · intro j job' hj
        exact (h.booked j job' hj).perm (rangesOf_perm htasks)
      · intro t' ht'
        exact h.known t' (htasks.mem_iff.mpr ht')
  | act before after t l l' s' job hbusy hjob hact =>
      -- the tasks are the same, only the place of one range moves
      have htasks : p.tasks = p.queue ++ (before ++ ⟨t, .running l'⟩ :: after).map
          (Held.task (L := L) (E := E)) := by
        rw [Pool.tasks, hbusy]
        simp
      have hbooked := h.booked t.job job hjob
      rw [htasks] at hbooked
      refine h.set rfl ?_ ?_ ?_
      · intro i _ _ _
        rw [htasks]
        exact List.Perm.refl _
      · intro _
        exact ⟨hbooked.ranges, hbooked.remaining, hbooked.error, hbooked.returned⟩
      · intro t' ht'
        rw [htasks]
        exact ht'
  | leave before after t l outcome job hbusy hjob hleave =>
      -- a range that ended still belongs to its worker
      have htasks : p.tasks = p.queue ++ (before ++ ⟨t, .ended outcome⟩ :: after).map
          (Held.task (L := L) (E := E)) := by
        rw [Pool.tasks, hbusy]
        simp
      refine ⟨?_, ?_⟩
      · intro j job' hj
        have hbooked := h.booked j job' hj
        rw [htasks] at hbooked
        exact hbooked
      · intro t' ht'
        apply h.known t'
        rw [htasks]
        exact ht'
  | finish before after t outcome job hbusy hjob =>
      -- the range leaves the worker and is booked as finished
      have htasks : p.tasks.Perm (t :: (p.queue ++ (before ++ after).map
          (Held.task (L := L) (E := E)))) := by
        rw [Pool.tasks, hbusy, List.map_append, List.map_append, List.map_cons,
          ← List.append_assoc, ← List.append_assoc]
        exact List.perm_middle
      refine h.set rfl ?_ ?_ ?_
      · intro i _ hi _
        refine (rangesOf_perm htasks).trans ?_
        rw [rangesOf, List.filter_cons_of_neg (by simpa using Ne.symm hi)]
        exact List.Perm.refl _
      · intro _
        apply Booked.finish
        refine (h.booked t.job job hjob).perm ((rangesOf_perm htasks).trans ?_)
        rw [rangesOf, List.filter_cons_of_pos (by simp)]
        exact List.Perm.refl _
      · intro t' ht'
        exact htasks.mem_iff.mpr (List.mem_cons_of_mem t ht')
  | back j job hjob hwaiting hdone =>
      -- nothing remains, so no task of the call is left
      have hbooked := h.booked j job hjob
      refine h.set rfl (fun _ _ _ _ => List.Perm.refl _) ?_ fun _ ht => ht
      intro _
      refine ⟨hbooked.ranges, hbooked.remaining, hbooked.error, ?_⟩
      intro r hr
      cases hr
      refine ⟨?_, rfl⟩
      apply List.eq_nil_of_length_eq_zero
      exact hbooked.remaining.symm.trans hdone

theorem Reachable.sound {x : SampleExecutor} {split : ℕ → List (ℕ × ℕ)} {p : Pool S L E}
    (h : x.Reachable split p) : Sound x split p := by
  induction h with
  | start =>
      refine ⟨?_, ?_⟩
      · intro j job hj
        cases hj
      · intro t ht
        cases ht
  | step _ hstep ih => exact ih.step hstep

/-! ## What a caller sees -/

/-- **A call comes back when each of its ranges is done, once**, and it throws exactly when one of
them did, what that one threw. -/
theorem Reachable.returned {x : SampleExecutor} {split : ℕ → List (ℕ × ℕ)} {p : Pool S L E}
    (h : x.Reachable split p) {j : ℕ} {job : Job S L E} {result : Option E}
    (hjob : p.jobs[j]? = some job) (hresult : job.returned = some result) :
    (job.finished.map (·.1)).Perm (x.ranges split job.count) ∧ rangesOf j p.tasks = [] ∧
      (result = none ↔ ∀ f ∈ job.finished, f.2 = none) ∧
      ∀ e, result = some e → ∃ f ∈ job.finished, f.2 = some e := by
  have hbooked := h.sound.booked j job hjob
  obtain ⟨hnil, hr⟩ := hbooked.returned result hresult
  have hperm := hbooked.ranges
  rw [hnil, List.nil_append] at hperm
  refine ⟨hperm, hnil, ?_, ?_⟩
  · rw [hr, hbooked.error, List.findSome?_eq_none_iff]
  · intro e he
    rw [hr, hbooked.error] at he
    exact List.exists_of_findSome?_eq_some he

/-- With one worker nothing is ever queued. -/
theorem Reachable.queue_of_one {x : SampleExecutor} {split : ℕ → List (ℕ × ℕ)} {p : Pool S L E}
    (h : x.Reachable split p) (hone : x.threads = 1) : p.queue = [] := by
  induction h with
  | start => rfl
  | step _ hstep ih =>
      cases hstep with
      | queued fn count state hmany =>
          rcases hmany with hzero | hmany
          · show _ ++ tasksOf _ (x.ranges split count) = []
            rw [ih, ranges, if_pos hzero]
            rfl
          · exact absurd hone hmany
      | take t rest job hqueue =>
          rw [ih] at hqueue
          cases hqueue
      | _ => exact ih

/-- **No call is stuck**: while a caller waits, some step is possible. -/
theorem Reachable.progress {x : SampleExecutor} {split : ℕ → List (ℕ × ℕ)} {p : Pool S L E}
    (h : x.Reachable split p) {j : ℕ} {job : Job S L E} (hjob : p.jobs[j]? = some job)
    (hwaiting : job.returned = none) : ∃ p', x.Step split p p' := by
  have hknown : ∀ t ∈ p.tasks, ∃ job, p.jobs[t.job]? = some job := fun t ht =>
    ⟨_, List.getElem?_eq_getElem (h.sound.known t ht)⟩
  cases hbusy : p.busy with
  | cons held rest =>
      have hmem : held.task ∈ p.tasks := by
        rw [Pool.tasks, hbusy]
        simp
      obtain ⟨job', hjob'⟩ := hknown held.task hmem
      obtain ⟨t, place⟩ := held
      cases place with
      | running l =>
          cases hact : job'.fn.step l job'.state with
          | inl out => exact ⟨_, .act p [] rest t l out.1 out.2 job' hbusy hjob' hact⟩
          | inr outcome => exact ⟨_, .leave p [] rest t l outcome job' hbusy hjob' hact⟩
      | ended outcome => exact ⟨_, .finish p [] rest t outcome job' hbusy hjob'⟩
  | nil =>
      cases hqueue : p.queue with
      | cons t rest =>
          have hmem : t ∈ p.tasks := by
            rw [Pool.tasks, hqueue]
            simp
          obtain ⟨job', hjob'⟩ := hknown t hmem
          have hfree : p.busy.length < x.threads := by
            rw [hbusy]
            exact Nat.pos_of_ne_zero x.positive
          exact ⟨_, .take p t rest job' hqueue hfree hjob'⟩
      | nil =>
          refine ⟨_, .back p j job hjob hwaiting ?_⟩
          rw [(h.sound.booked j job hjob).remaining, Pool.tasks, hqueue, hbusy]
          rfl

end Pool

end SampleExecutor
