/-
# Tables: stable sorting, row boundaries, first occurrences

Facts about tables that are kept as lists.  A stable sort by a coarse order keeps
the finer order that its input already has.  In a column sorted by row number the rows are
contiguous, and counting finds where they begin.  Row-major storage puts a place where its row
and column say.  Numbering the distinct entries of a column
in the order of their first occurrence loses nothing.
-/
import Mathlib

/-! ## Association lists -/

/-- In a list with distinct keys, membership determines the lookup. -/
theorem lookup_of_mem {κ β : Type*} [DecidableEq κ] {l : List (κ × β)}
    (hnd : (l.map Prod.fst).Nodup) {k : κ} {b : β} (h : (k, b) ∈ l) : l.lookup k = some b := by
  induction l with
  | nil => exact absurd h List.not_mem_nil
  | cons kb l ih =>
      obtain ⟨k', b'⟩ := kb
      rw [List.map_cons, List.nodup_cons] at hnd
      rcases List.mem_cons.mp h with heq | hmem
      · obtain ⟨rfl, rfl⟩ := Prod.mk.inj heq
        exact List.lookup_cons_self
      · have hne : k ≠ k' := by
          rintro rfl
          exact hnd.1 (List.mem_map.mpr ⟨(k, b), hmem, rfl⟩)
        rw [List.lookup_cons, beq_eq_false_iff_ne.mpr hne]
        exact ih hnd.2 hmem

/-- The value of a key is changed in place. -/
theorem lookup_map_update {κ β : Type*} [DecidableEq κ] (l : List (κ × β)) (id key : κ)
    (f : β → β) :
    (l.map fun entry => if entry.1 = id then (id, f entry.2) else entry).lookup key =
      if key = id then (l.lookup id).map f else l.lookup key := by
  induction l with
  | nil => simp
  | cons entry l ih =>
      obtain ⟨name, value⟩ := entry
      rw [List.map_cons]
      by_cases hname : name = id
      · rw [if_pos hname, List.lookup_cons, List.lookup_cons, List.lookup_cons, ih, hname]
        by_cases hkey : key = id
        · simp [hkey]
        · simp [hkey, beq_eq_false_iff_ne.mpr hkey]
      · rw [if_neg hname, List.lookup_cons, List.lookup_cons, List.lookup_cons, ih,
          beq_eq_false_iff_ne.mpr (Ne.symm hname)]
        by_cases hkey : key = id
        · simp [hkey, beq_eq_false_iff_ne.mpr (Ne.symm hname)]
        · simp [hkey]

namespace Tables

variable {α : Type*}

/-- Entries at two places of a pairwise list are related. -/
theorem pairwise_at {R : α → α → Prop} {l : List α} (h : l.Pairwise R) {j k : ℕ} {a b : α}
    (ha : l[j]? = some a) (hb : l[k]? = some b) (hlt : j < k) : R a b := by
  obtain ⟨hj, rfl⟩ := List.getElem?_eq_some_iff.mp ha
  obtain ⟨hk, rfl⟩ := List.getElem?_eq_some_iff.mp hb
  exact List.pairwise_iff_getElem.mp h j k hj hk hlt

/-- Related lists have related entries. -/
theorem forall₂_getElem? {β : Type*} {R : α → β → Prop} {as : List α} {bs : List β}
    (h : List.Forall₂ R as bs) {k : ℕ} {a : α} (ha : as[k]? = some a) :
    ∃ b, bs[k]? = some b ∧ R a b := by
  induction h generalizing k with
  | nil => cases ha
  | cons hab _ ih =>
      cases k with
      | zero =>
          cases ha
          exact ⟨_, rfl, hab⟩
      | succ k => exact ih ha

/-! ## Stable sorting -/

section Stable

variable (r : α → α → Prop) [DecidableRel r] (S : α → α → Prop)

/-- `r`, and `S` among elements that `r` does not tell apart. -/
def Refined (a b : α) : Prop := r a b ∧ (r b a → S a b)

variable {r S}

/-- An entry is inserted behind the equal ones that were there. -/
theorem pairwise_orderedInsert [Std.Total r] [IsTrans α r] {a : α} {l : List α}
    (hl : l.Pairwise (Refined r S)) (ha : ∀ b ∈ l, S a b) :
    (l.orderedInsert r a).Pairwise (Refined r S) := by
  induction l with
  | nil => exact List.pairwise_singleton _ _
  | cons b l ih =>
      obtain ⟨hb, hl⟩ := List.pairwise_cons.mp hl
      by_cases hab : r a b
      · rw [List.orderedInsert_cons_of_le r l hab]
        refine List.pairwise_cons.mpr ⟨?_, List.pairwise_cons.mpr ⟨hb, hl⟩⟩
        intro c hc
        rcases List.mem_cons.mp hc with rfl | hc'
        · exact ⟨hab, fun _ => ha c List.mem_cons_self⟩
        · exact ⟨trans_of r hab (hb c hc').1, fun _ => ha c hc⟩
      · rw [List.orderedInsert_of_not_le r l hab]
        refine List.pairwise_cons.mpr ⟨?_, ih hl fun c hc => ha c (List.mem_cons_of_mem b hc)⟩
        intro c hc
        rcases (List.mem_orderedInsert r).mp hc with rfl | hc
        · exact ⟨(Std.Total.total b c).resolve_right hab, fun h => absurd h hab⟩
        · exact hb c hc

/-- **Stability.** Sorting by `r` a list in which `S` holds throughout refines `r` by `S`. -/
theorem pairwise_insertionSort [Std.Total r] [IsTrans α r] {l : List α} (hl : l.Pairwise S) :
    (l.insertionSort r).Pairwise (Refined r S) := by
  induction l with
  | nil => exact List.Pairwise.nil
  | cons a l ih =>
      obtain ⟨ha, hl⟩ := List.pairwise_cons.mp hl
      refine pairwise_orderedInsert (ih hl) ?_
      intro b hb
      exact ha b ((List.mem_insertionSort r).mp hb)

end Stable

/-! ## Row boundaries -/

section Rows

/-- In a sorted column, the entries below `r` come first. -/
theorem getElem_lt_iff {l : List ℕ} (hl : l.Pairwise (· ≤ ·)) (r : ℕ) {k : ℕ} (hk : k < l.length) :
    l[k] < r ↔ k < l.countP (· < r) := by
  induction l generalizing k with
  | nil => exact absurd hk (Nat.not_lt_zero k)
  | cons a l ih =>
      obtain ⟨ha, hl⟩ := List.pairwise_cons.mp hl
      by_cases har : a < r
      · rw [List.countP_cons_of_pos (by simpa using har)]
        cases k with
        | zero => simp [har]
        | succ k =>
            have hk' : k < l.length := Nat.lt_of_succ_lt_succ hk
            rw [List.getElem_cons_succ, ih hl hk']
            omega
      · have hnone : (a :: l).countP (· < r) = 0 := by
          rw [List.countP_eq_zero]
          intro b hb
          rcases List.mem_cons.mp hb with rfl | hb
          · simpa using har
          · have := ha b hb
            simp only [decide_eq_true_eq]
            omega
        rw [hnone]
        have hge : a ≤ (a :: l)[k] := by
          cases k with
          | zero => exact le_rfl
          | succ k => exact ha _ (List.getElem_mem _)
        omega

/-- **Contiguous rows.** In a sorted column the entries of row `r` are those from the number of
entries below `r` up to the number of entries up to `r`. -/
theorem getElem_eq_iff {l : List ℕ} (hl : l.Pairwise (· ≤ ·)) (r : ℕ) {k : ℕ}
    (hk : k < l.length) :
    l[k] = r ↔ l.countP (· < r) ≤ k ∧ k < l.countP (· < r + 1) := by
  have hbelow := getElem_lt_iff hl r hk
  have hupto := getElem_lt_iff hl (r + 1) hk
  omega

/-- Counting below the next number counts the number as well. -/
theorem countP_lt_succ (l : List ℕ) (r : ℕ) :
    l.countP (· < r + 1) = l.countP (· < r) + l.count r := by
  induction l with
  | nil => rfl
  | cons a l ih =>
      rw [List.countP_cons, List.countP_cons, List.count_cons, ih]
      rcases lt_trichotomy a r with h | h | h
      · simp [h, Nat.lt_succ_of_lt h, h.ne, Nat.add_right_comm]
      · simp [h, Nat.add_assoc]
      · simp [Nat.not_lt.mpr h.le, Nat.not_lt.mpr (Nat.succ_le_of_lt h), h.ne']

/-- Below a bound of all entries everything is counted. -/
theorem countP_lt_of_bound {l : List ℕ} {n : ℕ} (h : ∀ a ∈ l, a < n) :
    l.countP (· < n) = l.length := by
  rw [List.countP_eq_length]
  intro a ha
  exact decide_eq_true (h a ha)

/-- **Boundaries by counting.** The running sums of the row counts are the numbers of entries
below each row. -/
theorem scanl_count (l : List ℕ) (n : ℕ) :
    ((List.range n).map (l.count ·)).scanl (· + ·) 0 =
      (List.range (n + 1)).map fun r => l.countP (· < r) := by
  induction n with
  | zero => simp
  | succ n ih =>
      have hlast : ((List.range n).map (l.count ·)).foldl (· + ·) 0 = l.countP (· < n) := by
        have h := congrArg List.getLast? ih
        rw [List.getLast?_scanl, List.range_succ, List.map_append, List.map_singleton,
          List.getLast?_concat] at h
        exact Option.some.inj h
      rw [List.range_succ, List.map_append, List.map_singleton, List.scanl_append, ih, hlast,
        List.scanl_singleton, List.tail_cons, ← countP_lt_succ, List.range_succ (n := n + 1),
        List.map_append, List.map_singleton]

end Rows

/-! ## Positions -/

/-- Collecting the positions of the entries that satisfy `q` and reading them filters by `q`. -/
theorem filterMap_positions (l : List α) (q : α → Bool) :
    ((List.range l.length).filter fun i => (l[i]?).any q).filterMap (l[·]?) = l.filter q := by
  induction l using List.reverseRecOn with
  | nil => rfl
  | append_singleton l a ih =>
      have hold : ∀ i ∈ List.range l.length, (l ++ [a])[i]? = l[i]? := by
        intro i hi
        exact List.getElem?_append_left (List.mem_range.mp hi)
      have hfilter : (List.range l.length).filter (fun i => ((l ++ [a])[i]?).any q) =
          (List.range l.length).filter fun i => (l[i]?).any q := by
        refine List.filter_congr ?_
        intro i hi
        rw [hold i hi]
      rw [List.length_append, List.length_singleton, List.range_succ, List.filter_append,
        List.filterMap_append, hfilter, List.filter_append, ← ih]
      congr 1
      · refine List.filterMap_congr ?_
        intro i hi
        exact hold i (List.mem_of_mem_filter hi)
      · rw [List.filter_singleton, List.getElem?_concat_length, Option.any_some,
          List.filter_singleton]
        cases q a with
        | false => rfl
        | true => simp

/-- One row after another: the entry of row `k` at place `g`. -/
theorem getD_flatMap_range (f : ℕ → ℕ → α) (d : α) {m p k g : ℕ} (hk : k < m)
    (hg : g < p) :
    ((List.range m).flatMap fun k => (List.range p).map (f k)).getD (k * p + g) d = f k g := by
  induction m with
  | zero => omega
  | succ m ih =>
      have hlen : ((List.range m).flatMap fun k => (List.range p).map (f k)).length = m * p := by
        rw [List.length_flatMap]
        simp
      rw [List.range_succ, List.flatMap_append, List.flatMap_singleton, List.getD_eq_getElem?_getD]
      rcases Nat.lt_or_ge k m with hlt | hge
      · have hin : k * p + g < m * p := by
          calc k * p + g < k * p + p := by omega
            _ = (k + 1) * p := by ring
            _ ≤ m * p := Nat.mul_le_mul_right p hlt
        rw [List.getElem?_append_left (by rw [hlen]; exact hin), ← List.getD_eq_getElem?_getD]
        exact ih hlt
      · obtain rfl : k = m := by omega
        rw [List.getElem?_append_right (by rw [hlen]; omega), hlen, Nat.add_sub_cancel_left,
          List.getElem?_map, List.getElem?_range hg]
        rfl

/-! ## First occurrences -/

/-- An entry of a longer list is an old one or the new one. -/
theorem getElem?_concat {l : List α} {a b : α} {k : ℕ} (h : (l ++ [a])[k]? = some b) :
    k < l.length ∧ l[k]? = some b ∨ k = l.length ∧ b = a := by
  rcases Nat.lt_trichotomy k l.length with hlt | rfl | hgt
  · rw [List.getElem?_append_left hlt] at h
    exact Or.inl ⟨hlt, h⟩
  · rw [List.getElem?_concat_length] at h
    exact Or.inr ⟨rfl, (Option.some.inj h).symm⟩
  · rw [List.getElem?_eq_none (by simpa using hgt)] at h
    cases h

/-- The walk that numbers distinct entries: the number of each, the position at which it was
first met, and the number of every position. -/
structure Numbering (α : Type*) where
  number : List (α × ℕ)
  first : List ℕ
  numbers : List ℕ

namespace Numbering

variable [DecidableEq α]

def empty (α : Type*) : Numbering α := ⟨[], [], []⟩

/-- The next position holds `a`. -/
def visit (w : Numbering α) (a : α) : Numbering α :=
  match w.number.lookup a with
  | some s => { w with numbers := w.numbers ++ [s] }
  | none =>
      { number := w.number ++ [(a, w.first.length)]
        first := w.first ++ [w.numbers.length]
        numbers := w.numbers ++ [w.first.length] }

/-- What the walk over `l` has found. -/
structure Correct (l : List α) (w : Numbering α) : Prop where
  length : w.numbers.length = l.length
  known : ∀ a, (w.number.lookup a).isSome ↔ a ∈ l
  numbers : ∀ (k : ℕ) (a : α), l[k]? = some a → w.numbers[k]? = w.number.lookup a
  first : ∀ a s, w.number.lookup a = some s →
    ∃ k, w.first[s]? = some k ∧ l[k]? = some a ∧ ∀ j < k, l[j]? ≠ some a
  injective : ∀ a b s, w.number.lookup a = some s → w.number.lookup b = some s → a = b

/-- The numbering of nothing. -/
theorem correct_empty : Correct ([] : List α) (empty α) := by
  constructor
  · rfl
  · intro a
    simp [empty]
  · intro k a h
    cases h
  · intro a s h
    cases h
  · intro a b s h
    cases h

/-- A number that was given is below their count. -/
theorem Correct.lt_first {l : List α} {w : Numbering α} (h : Correct l w) {a : α} {s : ℕ}
    (hs : w.number.lookup a = some s) : s < w.first.length := by
  obtain ⟨k, hk, -, -⟩ := h.first a s hs
  exact (List.getElem?_eq_some_iff.mp hk).1

/-- A position whose entry is known already. -/
theorem Correct.visit_known {l : List α} {w : Numbering α} (h : Correct l w) {a : α} {s : ℕ}
    (hs : w.number.lookup a = some s) : Correct (l ++ [a]) (w.visit a) := by
  have ha : a ∈ l := (h.known a).mp (by rw [hs]; rfl)
  unfold visit
  rw [hs]
  constructor
  · simp [h.length]
  · intro b
    rw [h.known b, List.mem_append, List.mem_singleton]
    constructor
    · exact Or.inl
    · rintro (hb | rfl)
      · exact hb
      · exact ha
  · intro k b hb
    rcases getElem?_concat hb with ⟨hlt, hold⟩ | ⟨rfl, rfl⟩
    · rw [List.getElem?_append_left (by rw [h.length]; exact hlt)]
      exact h.numbers k b hold
    · rw [← h.length, List.getElem?_concat_length, hs]
  · intro b n hn
    obtain ⟨k, hfirst, hat, hbefore⟩ := h.first b n hn
    have hk : k < l.length := (List.getElem?_eq_some_iff.mp hat).1
    refine ⟨k, hfirst, ?_, ?_⟩
    · rwa [List.getElem?_append_left hk]
    · intro j hj
      rw [List.getElem?_append_left (hj.trans hk)]
      exact hbefore j hj
  · exact h.injective

/-- A position whose entry is new. -/
theorem Correct.visit_new {l : List α} {w : Numbering α} (h : Correct l w) {a : α}
    (hs : w.number.lookup a = none) : Correct (l ++ [a]) (w.visit a) := by
  have ha : a ∉ l := by
    intro hmem
    have := (h.known a).mpr hmem
    rw [hs] at this
    exact absurd this Bool.false_ne_true
  -- only the new entry has the new number
  have hlookup : ∀ b, (w.number ++ [(a, w.first.length)]).lookup b =
      if b = a then some w.first.length else w.number.lookup b := by
    intro b
    rw [List.lookup_append]
    by_cases hb : b = a
    · subst hb
      simp [hs]
    · have hbeq : (b == a) = false := beq_eq_false_iff_ne.mpr hb
      simp [List.lookup_cons, hb, hbeq]
  unfold visit
  rw [hs]
  constructor
  · simp [h.length]
  · intro b
    rw [hlookup, List.mem_append, List.mem_singleton]
    by_cases hb : b = a
    · simp [hb]
    · simp [hb, h.known b]
  · intro k b hb
    rw [hlookup]
    rcases getElem?_concat hb with ⟨hlt, hold⟩ | ⟨rfl, rfl⟩
    · have hne : b ≠ a := by
        rintro rfl
        exact ha (List.mem_of_getElem? hold)
      rw [List.getElem?_append_left (by rw [h.length]; exact hlt), if_neg hne]
      exact h.numbers k b hold
    · rw [← h.length, List.getElem?_concat_length, if_pos rfl]
  · intro b n hn
    rw [hlookup] at hn
    split_ifs at hn with hb
    · subst hb
      refine ⟨l.length, ?_, ?_, ?_⟩
      · rw [← Option.some.inj hn, List.getElem?_concat_length, h.length]
      · exact List.getElem?_concat_length
      · intro j hj
        rw [List.getElem?_append_left hj]
        intro heq
        exact ha (List.mem_of_getElem? heq)
    · obtain ⟨k, hfirst, hat, hbefore⟩ := h.first b n hn
      have hk : k < l.length := (List.getElem?_eq_some_iff.mp hat).1
      refine ⟨k, ?_, ?_, ?_⟩
      · rwa [List.getElem?_append_left (h.lt_first hn)]
      · rwa [List.getElem?_append_left hk]
      · intro j hj
        rw [List.getElem?_append_left (hj.trans hk)]
        exact hbefore j hj
  · intro b c n hb hc
    rw [hlookup] at hb hc
    split_ifs at hb hc with hba hca hca
    · exact hba.trans hca.symm
    · rw [← Option.some.inj hb] at hc
      exact absurd (h.lt_first hc) (lt_irrefl _)
    · rw [← Option.some.inj hc] at hb
      exact absurd (h.lt_first hb) (lt_irrefl _)
    · exact h.injective b c n hb hc

/-- One more entry keeps the numbering correct. -/
theorem Correct.visit {l : List α} {w : Numbering α} (h : Correct l w) (a : α) :
    Correct (l ++ [a]) (w.visit a) := by
  cases hs : w.number.lookup a with
  | none => exact h.visit_new hs
  | some s => exact h.visit_known hs

/-- **The walk over a column is correct.** -/
theorem correct_walk (l : List α) : Correct l (l.foldl Numbering.visit (empty α)) := by
  induction l using List.reverseRecOn with
  | nil => exact correct_empty
  | append_singleton l a ih =>
      rw [List.foldl_append]
      exact ih.visit a

/-- A visit gives a new number or none. -/
theorem visit_first (w : Numbering α) (a : α) :
    (w.visit a).first = w.first ∨ (w.visit a).first = w.first ++ [w.numbers.length] := by
  unfold visit
  split
  · exact Or.inl rfl
  · exact Or.inr rfl

/-- Every number was given at some place of the list. -/
theorem first_lt_length (l : List α) :
    ∀ k ∈ (l.foldl Numbering.visit (empty α)).first, k < l.length := by
  induction l using List.reverseRecOn with
  | nil =>
      intro k hk
      cases hk
  | append_singleton l a ih =>
      intro k hk
      rw [List.foldl_append, List.foldl_cons, List.foldl_nil] at hk
      rw [List.length_append, List.length_singleton]
      rcases visit_first (l.foldl Numbering.visit (empty α)) a with heq | heq
      · rw [heq] at hk
        exact Nat.lt_succ_of_lt (ih k hk)
      · rw [heq, List.mem_append, List.mem_singleton, (correct_walk l).length] at hk
        rcases hk with hk | rfl
        · exact Nat.lt_succ_of_lt (ih k hk)
        · exact Nat.lt_succ_self _

/-- Two positions have one number exactly when they hold one entry. -/
theorem Correct.numbers_eq_iff {l : List α} {w : Numbering α} (h : Correct l w) {j k : ℕ} {a b : α}
    (ha : l[j]? = some a) (hb : l[k]? = some b) : w.numbers[j]? = w.numbers[k]? ↔ a = b := by
  rw [h.numbers j a ha, h.numbers k b hb]
  constructor
  · intro heq
    obtain ⟨s, hs⟩ := Option.isSome_iff_exists.mp ((h.known a).mpr (List.mem_of_getElem? ha))
    exact h.injective a b s hs (heq ▸ hs)
  · intro heq
    rw [heq]

end Numbering

end Tables
