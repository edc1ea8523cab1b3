/-
# Sequence locks

One writer publishes records of type `S` into a shared block whose cells it stores one at a
time, and brackets the stores by two increments of a sequence number.  A reader loads the
number, copies the block cell by cell, loads the number again, and accepts the copy when the
two loads agree and are even.  The writer's own jobs read the block through the same loop
before they publish.

A step is one access of shared memory, under sequential consistency; the sequence number is
unbounded.  `history` records the publications that have completed, the initial record first,
`jobs` what was published, and `since r` how many had completed when reader `r` was called.
-/
import GpuChannel.Library.Run
import GpuChannel.Library.Cells

namespace SeqLock

variable {S ι U R : Type*}

/-! ## The system -/

/-- A call of the reader: at the head of the loop with `left` attempts to go, inside an
attempt, or returned.  `checked` says that the return was through the comparison. -/
inductive Reader (S ι : Type*)
  | attempt (left : ℕ) (copy : S)
  | copying (left pre : ℕ) (rest : List ι) (copy : S)
  | returned (checked : Bool) (copy : S)

/-- One access of a reader. -/
def Reader.step [Cells S ι] (seq : ℕ) (mem : S) : Reader S ι → Reader S ι
  | .attempt 0 copy => .returned false copy
  | .attempt (left + 1) copy =>
      -- an odd number: a write is in progress, and the attempt is used up
      if seq % 2 = 1 then .attempt left copy else .copying left seq (Cells.cells S) copy
  | .copying left pre (i :: rest) copy => .copying left pre rest (Cells.copy i mem copy)
  | .copying left pre [] copy => if pre = seq then .returned true copy else .attempt left copy
  | .returned checked copy => .returned checked copy

/-- A job of the writer's thread: publish a given record, or read the block, change the copy
and publish it. -/
inductive Job (S U : Type*)
  | publish (snap : S)
  | modify (u : U)

/-- The changes, the record that the block and every copy start from, and the attempts of the
writer's own reads. -/
structure Protocol (S U : Type*) where
  apply : U → S → S
  initial : S
  tries : ℕ
  tries_pos : 0 < tries

/-- The record that a job publishes over `prev`. -/
def Protocol.result (P : Protocol S U) (prev : S) : Job S U → S
  | .publish snap => snap
  | .modify u => P.apply u prev

/-- Where the writer's thread stands. -/
inductive Writer (S ι U : Type*)
  | idle
  | reading (u : U) (reader : Reader S ι)
  | loading (job : Job S U) (snap : S)
  | storing (job : Job S U) (snap : S) (pre : ℕ)
  | writing (job : Job S U) (snap : S) (pre : ℕ) (rest : List ι)

structure System (S ι U R : Type*) where
  seq : ℕ
  mem : S
  writer : Writer S ι U
  readers : R → Reader S ι
  since : R → ℕ
  history : List S
  jobs : List (Job S U)

/-- `start` and `call` enter a function and are ignored while one is running; `write` and
`read` are one access. -/
inductive Action (S U R : Type*)
  | start (job : Job S U)
  | write
  | call (r : R) (tries : ℕ)
  | read (r : R)

namespace Protocol

variable (P : Protocol S U)

def init : System S ι U R where
  seq := 0
  mem := P.initial
  writer := .idle
  readers := fun _ => .returned false P.initial
  since := fun _ => 0
  history := [P.initial]
  jobs := []

def start (s : System S ι U R) (job : Job S U) : System S ι U R :=
  match s.writer with
  | .idle =>
      match job with
      | .publish snap => { s with writer := .loading (.publish snap) snap }
      | .modify u => { s with writer := .reading u (.attempt P.tries P.initial) }
  | _ => s

/-- One access of the writer's thread. -/
def write [Cells S ι] (s : System S ι U R) : System S ι U R :=
  match s.writer with
  | .idle => s
  | .reading u reader =>
      match reader.step s.seq s.mem with
      | .returned _ copy => { s with writer := .loading (.modify u) (P.apply u copy) }
      | reader => { s with writer := .reading u reader }
  | .loading job snap => { s with writer := .storing job snap s.seq }
  | .storing job snap pre =>
      { s with seq := pre + 1, writer := .writing job snap pre (Cells.cells S) }
  | .writing job snap pre (i :: rest) =>
      { s with mem := Cells.copy i snap s.mem, writer := .writing job snap pre rest }
  | .writing job snap pre [] =>
      { s with
        seq := pre + 2, writer := .idle, history := s.history ++ [snap], jobs := s.jobs ++ [job] }

variable [DecidableEq R]

def call (s : System S ι U R) (r : R) (tries : ℕ) : System S ι U R :=
  match s.readers r with
  | .returned _ _ =>
      { s with
        readers := Function.update s.readers r (.attempt tries P.initial)
        since := Function.update s.since r s.jobs.length }
  | _ => s

def step [Cells S ι] (s : System S ι U R) : Action S U R → System S ι U R
  | .start job => P.start s job
  | .write => P.write s
  | .call r tries => P.call s r tries
  | .read r => { s with readers := Function.update s.readers r ((s.readers r).step s.seq s.mem) }

def run [Cells S ι] (actions : List (Action S U R)) : System S ι U R :=
  actions.foldl P.step P.init

end Protocol

/-! ## What a reader knows -/

section Readers

variable [Cells S ι]

/-- **A read in progress.** The number it loaded counts at least the publications completed
before the call, and while the number has not moved the rest of the copy would complete the
block.  A checked result is one of the completed publications, and none before the call's. -/
def Fresh (seq : ℕ) (mem : S) (history : List S) (since : ℕ) : Reader S ι → Prop
  | .attempt _ _ => since ≤ seq / 2
  | .copying _ pre rest copy =>
      since ≤ pre / 2 ∧ pre % 2 = 0 ∧ pre ≤ seq ∧ (seq = pre → Cells.Copying rest mem copy)
  | .returned true copy => ∃ i, since ≤ i ∧ history[i]? = some copy
  | .returned false _ => True

variable {seq seq' : ℕ} {mem mem' : S} {history history' : List S} {since : ℕ}
  {reader : Reader S ι}

/-- An access of the reader itself. -/
theorem Fresh.step (h : Fresh seq mem history since reader)
    (hquiet : seq % 2 = 0 → history[seq / 2]? = some mem) :
    Fresh seq mem history since (reader.step seq mem) := by
  match reader, h with
  | .attempt 0 copy, _ => exact trivial
  | .attempt (left + 1) copy, h =>
    by_cases hodd : seq % 2 = 1
    · rw [Reader.step, if_pos hodd]
      exact h
    · rw [Reader.step, if_neg hodd]
      exact ⟨h, by omega, le_refl seq, fun _ => Cells.Copying.start mem copy⟩
  | .copying left pre (i :: rest) copy, h =>
    obtain ⟨hsince, heven, hle, hcopy⟩ := h
    exact ⟨hsince, heven, hle, fun hseq => (hcopy hseq).next⟩
  | .copying left pre [] copy, h =>
    obtain ⟨hsince, heven, hle, hcopy⟩ := h
    by_cases heq : pre = seq
    · rw [Reader.step, if_pos heq]
      subst heq
      have hdone : copy = mem := (hcopy rfl).done
      exact ⟨pre / 2, hsince, by rw [hdone]; exact hquiet heven⟩
    · rw [Reader.step, if_neg heq]
      exact le_trans hsince (Nat.div_le_div_right hle)
  | .returned checked copy, h => exact h

/-- An access of the writer: the number does not fall, the block does not change under an
even number, and publications are only added. -/
theorem Fresh.mono (h : Fresh seq mem history since reader) (hseq : seq ≤ seq')
    (hmem : seq' = seq → seq % 2 = 0 → mem' = mem)
    (hhistory : ∀ (i : ℕ) (snap : S), history[i]? = some snap → history'[i]? = some snap) :
    Fresh seq' mem' history' since reader := by
  match reader, h with
  | .attempt _ _, h => exact le_trans h (Nat.div_le_div_right hseq)
  | .copying _ pre rest copy, h =>
    obtain ⟨hsince, heven, hle, hcopy⟩ := h
    refine ⟨hsince, heven, le_trans hle hseq, ?_⟩
    intro hpre
    have hold : seq = pre := by omega
    rw [hmem (by omega) (by omega)]
    exact hcopy hold
  | .returned true copy, h =>
    obtain ⟨i, hi, hcopy⟩ := h
    exact ⟨i, hi, hhistory i copy hcopy⟩
  | .returned false _, _ => exact trivial

/-- **A read of the writer's own thread** is alone with the block and succeeds at once. -/
def Own (seq : ℕ) (mem : S) : Reader S ι → Prop
  | .attempt left _ => 0 < left
  | .copying _ pre rest copy => pre = seq ∧ Cells.Copying rest mem copy
  | .returned _ copy => copy = mem

theorem Own.step (h : Own seq mem reader) (heven : seq % 2 = 0) :
    Own seq mem (reader.step seq mem) := by
  match reader, h with
  | .attempt (left + 1) copy, _ =>
    rw [Reader.step, if_neg (by omega)]
    exact ⟨rfl, Cells.Copying.start mem copy⟩
  | .copying left pre (i :: rest) copy, h => exact ⟨h.1, h.2.next⟩
  | .copying left pre [] copy, h =>
    rw [Reader.step, if_pos h.1]
    exact h.2.done
  | .returned checked copy, h => exact h

end Readers

/-! ## The invariant -/

section Invariant

variable [Cells S ι] (P : Protocol S U)

/-- No write is in progress: the block holds the last publication. -/
def Quiet (s : System S ι U R) : Prop :=
  s.seq = 2 * s.jobs.length ∧ s.history[s.jobs.length]? = some s.mem

/-- What holds of the writer where it stands. -/
def WriterAt (s : System S ι U R) : Writer S ι U → Prop
  | .idle => Quiet s
  | .reading _ reader => Quiet s ∧ Own s.seq s.mem reader
  | .loading job snap => Quiet s ∧ snap = P.result s.mem job
  | .storing job snap pre => Quiet s ∧ snap = P.result s.mem job ∧ pre = s.seq
  | .writing job snap pre rest =>
      pre = 2 * s.jobs.length ∧ s.seq = pre + 1 ∧ Cells.Copying rest snap s.mem ∧
        ∃ prev, s.history[s.jobs.length]? = some prev ∧ snap = P.result prev job

structure Inv (s : System S ι U R) : Prop where
  count : s.seq / 2 = s.jobs.length
  first : s.history[0]? = some P.initial
  length : s.history.length = s.jobs.length + 1
  chain : ∀ (k : ℕ) (job : Job S U), s.jobs[k]? = some job →
    ∃ prev, s.history[k]? = some prev ∧ s.history[k + 1]? = some (P.result prev job)
  writer : WriterAt P s s.writer
  readers : ∀ r, Fresh s.seq s.mem s.history (s.since r) (s.readers r)

variable {P} {s : System S ι U R}

/-- Under an even number the block holds the last publication. -/
theorem Inv.settled (h : Inv P s) (heven : s.seq % 2 = 0) :
    s.history[s.seq / 2]? = some s.mem := by
  have hquiet : Quiet s := by
    have hw := h.writer
    cases hs : s.writer with
    | idle => rw [hs] at hw; exact hw
    | reading u reader => rw [hs] at hw; exact hw.1
    | loading job snap => rw [hs] at hw; exact hw.1
    | storing job snap pre => rw [hs] at hw; exact hw.1
    | writing job snap pre rest =>
      rw [hs] at hw
      obtain ⟨hpre, hseq, -⟩ := hw
      omega
  rw [h.count]
  exact hquiet.2

theorem Inv.init : Inv P (P.init : System S ι U R) where
  count := Nat.zero_div 2
  first := rfl
  length := rfl
  chain := by
    intro k job hjob
    cases hjob
  writer := ⟨rfl, rfl⟩
  readers := fun _ => trivial

/-- A step that moves the writer's thread alone. -/
theorem Inv.withWriter (h : Inv P s) {w : Writer S ι U} (hw : WriterAt P s w) :
    Inv P { s with writer := w } where
  count := h.count
  first := h.first
  length := h.length
  chain := h.chain
  writer := by
    cases w <;> exact hw
  readers := h.readers

theorem Inv.start (h : Inv P s) (job : Job S U) : Inv P (P.start s job) := by
  unfold Protocol.start
  split
  case h_1 hidle =>
    have hquiet : Quiet s := by
      have hw := h.writer
      rwa [hidle] at hw
    cases job with
    | publish snap => exact h.withWriter ⟨hquiet, rfl⟩
    | modify u => exact h.withWriter ⟨hquiet, P.tries_pos⟩
  case h_2 => exact h

/-- The last store: the record joins the history. -/
theorem Inv.publish (h : Inv P s) {job : Job S U} {snap : S} {pre : ℕ}
    (hs : s.writer = .writing job snap pre []) :
    Inv P { s with
      seq := pre + 2, writer := .idle, history := s.history ++ [snap],
      jobs := s.jobs ++ [job] } := by
  have hw := h.writer
  rw [hs] at hw
  obtain ⟨hpre, hseq, hcopy, prev, hprev, hsnap⟩ := hw
  -- all words were copied, so the memory is the new snapshot
  have hmem : s.mem = snap := hcopy.done
  have hnew : (s.history ++ [snap])[s.jobs.length + 1]? = some snap := by
    rw [List.getElem?_append_right (by rw [h.length]), h.length, Nat.sub_self]
    rfl
  have hold : ∀ (i : ℕ) (x : S), s.history[i]? = some x → (s.history ++ [snap])[i]? = some x := by
    intro i x hx
    have hi : i < s.history.length := (List.getElem?_eq_some_iff.mp hx).1
    rw [List.getElem?_append_left hi, hx]
  refine ⟨?_, hold 0 _ h.first, ?_, ?_, ?_, ?_⟩
  case refine_1 =>
    show (pre + 2) / 2 = (s.jobs ++ [job]).length
    rw [List.length_append, List.length_singleton]
    omega
  case refine_2 =>
    show (s.history ++ [snap]).length = (s.jobs ++ [job]).length + 1
    rw [List.length_append, List.length_append, h.length]
    rfl
  case refine_3 =>
    intro k job' hjob
    -- an earlier job, the one that just ended, or none
    rcases lt_trichotomy k s.jobs.length with hk | rfl | hk
    · rw [List.getElem?_append_left hk] at hjob
      obtain ⟨prev', hprev', hresult⟩ := h.chain k job' hjob
      exact ⟨prev', hold _ _ hprev', hold _ _ hresult⟩
    · rw [List.getElem?_append_right (le_refl _), Nat.sub_self] at hjob
      cases hjob
      exact ⟨prev, hold _ _ hprev, by rw [← hsnap]; exact hnew⟩
    · rw [List.getElem?_eq_none (by rw [List.length_append, List.length_singleton]; omega)] at hjob
      cases hjob
  case refine_4 =>
    refine ⟨?_, ?_⟩
    · show pre + 2 = 2 * (s.jobs ++ [job]).length
      rw [List.length_append, List.length_singleton]
      omega
    · show (s.history ++ [snap])[(s.jobs ++ [job]).length]? = some s.mem
      rw [List.length_append, List.length_singleton, hmem]
      exact hnew
  case refine_5 =>
    intro r
    exact Fresh.mono (h.readers r) (by show s.seq ≤ pre + 2; omega) (fun _ _ => rfl) hold

theorem Inv.write (h : Inv P s) : Inv P (P.write s) := by
  have hw := h.writer
  unfold Protocol.write
  split
  case h_1 => exact h
  case h_2 u reader hs =>
    rw [hs] at hw
    obtain ⟨hquiet, hown⟩ := hw
    have hown' := hown.step (by rw [hquiet.1]; omega)
    split
    case h_1 checked copy hstep =>
      rw [hstep] at hown'
      have hcopy : copy = s.mem := hown'
      exact h.withWriter ⟨hquiet, by rw [hcopy]; rfl⟩
    case h_2 => exact h.withWriter ⟨hquiet, hown'⟩
  case h_3 job snap hs =>
    rw [hs] at hw
    exact h.withWriter ⟨hw.1, hw.2, rfl⟩
  case h_4 job snap pre hs =>
    rw [hs] at hw
    obtain ⟨hquiet, hsnap, hpre⟩ := hw
    refine ⟨?_, h.first, h.length, h.chain, ?_, ?_⟩
    · show (pre + 1) / 2 = s.jobs.length
      have hseq := hquiet.1
      omega
    · refine ⟨by rw [hpre]; exact hquiet.1, rfl, Cells.Copying.start snap s.mem, s.mem,
        hquiet.2, hsnap⟩
    · intro r
      exact Fresh.mono (h.readers r) (by show s.seq ≤ pre + 1; omega) (fun _ _ => rfl)
        fun _ _ hx => hx
  case h_5 job snap pre i rest hs =>
    rw [hs] at hw
    obtain ⟨hpre, hseq, hcopy, hprev⟩ := hw
    refine ⟨h.count, h.first, h.length, h.chain, ⟨hpre, hseq, hcopy.next, hprev⟩, ?_⟩
    -- the number is odd, so no read in progress can still be accepted
    intro r
    refine Fresh.mono (h.readers r) (le_refl _) ?_ fun _ _ hx => hx
    intro _ heven
    omega
  case h_6 job snap pre hs => exact h.publish hs

variable [DecidableEq R]

theorem Inv.call (h : Inv P s) (r : R) (tries : ℕ) : Inv P (P.call s r tries) := by
  unfold Protocol.call
  split
  case h_1 =>
    refine ⟨h.count, h.first, h.length, h.chain, h.writer, ?_⟩
    intro r'
    by_cases hr : r' = r
    · subst hr
      simp only [Function.update_self]
      exact h.count.ge
    · simp only [Function.update_of_ne hr]
      exact h.readers r'
  case h_2 => exact h

theorem Inv.read (h : Inv P s) (r : R) :
    Inv P { s with
      readers := Function.update s.readers r ((s.readers r).step s.seq s.mem) } := by
  refine ⟨h.count, h.first, h.length, h.chain, h.writer, ?_⟩
  intro r'
  by_cases hr : r' = r
  · subst hr
    simp only [Function.update_self]
    exact (h.readers r').step h.settled
  · simp only [Function.update_of_ne hr]
    exact h.readers r'

/-- **Step lemma.** Every access of every thread keeps the invariant. -/
theorem Inv.step (h : Inv P s) (a : Action S U R) : Inv P (P.step s a) := by
  cases a with
  | start job => exact h.start job
  | write => exact h.write
  | call r tries => exact h.call r tries
  | read r => exact h.read r

/-- **Run lemma.** -/
theorem Inv.run (P : Protocol S U) (actions : List (Action S U R)) :
    Inv P (P.run actions : System S ι U R) := by
  apply Run.invariant (I := Inv P)
  · intro s a h
    exact h.step a
  · exact Inv.init

end Invariant

/-! ## Whole reads and kept parts -/

section Results

variable [Cells S ι] (P : Protocol S U)

/-- What no publication of a stretch of jobs touches is the same at both of its ends. -/
theorem Inv.part_kept {P : Protocol S U} {s : System S ι U R} (h : Inv P s) {β : Type*}
    (part : S → β) {j k : ℕ} (hjk : j ≤ k) (hk : k ≤ s.jobs.length)
    (hkept : ∀ i job, j ≤ i → i < k → s.jobs[i]? = some job →
      ∀ prev, part (P.result prev job) = part prev) :
    ∃ a b, s.history[j]? = some a ∧ s.history[k]? = some b ∧ part b = part a := by
  induction k, hjk using Nat.le_induction with
  | base =>
    have hj : j < s.history.length := by rw [h.length]; omega
    exact ⟨_, _, List.getElem?_eq_getElem hj, List.getElem?_eq_getElem hj, rfl⟩
  | succ k hjk ih =>
    obtain ⟨a, b, ha, hb, hpart⟩ := ih (by omega) fun i job hi hik => hkept i job hi (by omega)
    have hjob : s.jobs[k]? = some _ := List.getElem?_eq_getElem (show k < s.jobs.length by omega)
    obtain ⟨prev, hprev, hnext⟩ := h.chain k _ hjob
    rw [hb] at hprev
    cases hprev
    refine ⟨a, _, ha, hnext, ?_⟩
    rw [hkept k _ hjk (by omega) hjob b, hpart]

theorem write_since (s : System S ι U R) : (P.write s).since = s.since := by
  unfold Protocol.write
  split
  case h_2 => split <;> rfl
  all_goals rfl

omit [Cells S ι] in
theorem start_since (s : System S ι U R) (job : Job S U) : (P.start s job).since = s.since := by
  unfold Protocol.start
  split
  case h_1 => cases job <;> rfl
  case h_2 => rfl

variable [DecidableEq R]

/-- Only a call of `r` moves its mark. -/
theorem foldl_since (r : R) (actions : List (Action S U R)) (s : System S ι U R)
    (h : ∀ tries, Action.call r tries ∉ actions) :
    (actions.foldl P.step s).since r = s.since r := by
  induction actions generalizing s with
  | nil => rfl
  | cons a actions ih =>
    rw [List.foldl_cons, ih _ fun tries hmem => h tries (List.mem_cons_of_mem a hmem)]
    cases a with
    | start job => exact congrFun (start_since P s job) r
    | write => exact congrFun (write_since P s) r
    | call r' tries =>
      have hne : r ≠ r' := by
        rintro rfl
        exact h tries List.mem_cons_self
      show (P.call s r' tries).since r = s.since r
      unfold Protocol.call
      split
      case h_1 => exact Function.update_of_ne hne _ _
      case h_2 => rfl
    | read r' => rfl

/-- **Reads are whole.** In every interleaving, what a call of the reader accepts is one of the
completed publications, and none before the last one completed when it was called. -/
theorem read_whole (before after : List (Action S U R)) (r : R) (tries : ℕ) {checked : Bool}
    {old copy : S}
    (hidle : (P.run before : System S ι U R).readers r = .returned checked old)
    (hafter : ∀ tries, Action.call r tries ∉ after)
    (hreturn : (P.run (before ++ .call r tries :: after) : System S ι U R).readers r
      = .returned true copy) :
    ∃ i, (P.run before : System S ι U R).jobs.length ≤ i ∧
      (P.run (before ++ .call r tries :: after) : System S ι U R).history[i]? = some copy := by
  have hfresh := (Inv.run P (before ++ .call r tries :: after) : Inv P (_ : System S ι U R)).readers r
  rw [hreturn] at hfresh
  have hsince : (P.run (before ++ .call r tries :: after) : System S ι U R).since r
      = (P.run before : System S ι U R).jobs.length := by
    unfold Protocol.run
    rw [List.foldl_append, List.foldl_cons, foldl_since P r after _ hafter]
    show (P.call (P.run before) r tries).since r = _
    unfold Protocol.call
    rw [hidle]
    exact Function.update_self r _ _
  obtain ⟨i, hi, hcopy⟩ := hfresh
  exact ⟨i, hsince ▸ hi, hcopy⟩

end Results

end SeqLock
