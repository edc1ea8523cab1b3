/-
# Sums by key and the largest elements of a list

A table in insertion order collects values under keys by adding them up; as a set of entries it
does not depend on the order of the values.  `top key n l` are the `n` elements of `l` with the
largest keys, ties in the order of `l`.
-/
import Mathlib

namespace Selection

/-! ## Sums by key -/

section Sums

variable {κ M : Type*} [DecidableEq κ] [AddMonoid M]

/-- Add a value under its key; a new key comes last. -/
def addTo (bins : List (κ × M)) (e : κ × M) : List (κ × M) :=
  if e.1 ∈ bins.map Prod.fst then
    bins.map fun b => if b.1 = e.1 then (b.1, b.2 + e.2) else b
  else bins ++ [(e.1, 0 + e.2)]

/-- The sum of the values under a key. -/
def sumAt (es : List (κ × M)) (k : κ) : M :=
  ((es.filter fun e => e.1 = k).map Prod.snd).sum

/-- The table holds every key once, with the sum of its values. -/
structure Collected (es bins : List (κ × M)) : Prop where
  nodup : (bins.map Prod.fst).Nodup
  keys : ∀ k, k ∈ bins.map Prod.fst ↔ k ∈ es.map Prod.fst
  sums : ∀ b ∈ bins, b.2 = sumAt es b.1

/-- The sum of a key with one more entry. -/
theorem sumAt_append (es : List (κ × M)) (e : κ × M) (k : κ) :
    sumAt (es ++ [e]) k = sumAt es k + if e.1 = k then e.2 else 0 := by
  unfold sumAt
  rw [List.filter_append, List.map_append, List.sum_append]
  by_cases h : e.1 = k <;> simp [h]

/-- A key without entries sums to zero. -/
theorem sumAt_eq_zero {es : List (κ × M)} {k : κ} (h : k ∉ es.map Prod.fst) : sumAt es k = 0 := by
  have hnone : (es.filter fun e => e.1 = k) = [] := by
    rw [List.filter_eq_nil_iff]
    intro e he hk
    exact h (List.mem_map.mpr ⟨e, he, of_decide_eq_true hk⟩)
  rw [sumAt, hnone]
  rfl

/-- One more entry keeps the bins collected. -/
theorem Collected.addTo {es bins : List (κ × M)} (h : Collected es bins) (e : κ × M) :
    Collected (es ++ [e]) (addTo bins e) := by
  unfold Selection.addTo
  -- the key has a bin, or opens one
  by_cases hmem : e.1 ∈ bins.map Prod.fst
  · rw [if_pos hmem]
    have hkeys : (bins.map fun b => if b.1 = e.1 then (b.1, b.2 + e.2) else b).map Prod.fst
        = bins.map Prod.fst := by
      rw [List.map_map]
      apply List.map_congr_left
      intro b _
      simp only [Function.comp]
      split <;> rfl
    refine ⟨by rw [hkeys]; exact h.nodup, ?_, ?_⟩
    · intro k
      rw [hkeys, h.keys, List.map_append, List.mem_append]
      refine ⟨Or.inl, ?_⟩
      rintro (hk | hk)
      · exact hk
      · obtain rfl := List.mem_singleton.mp hk
        exact (h.keys e.1).mp hmem
    · intro b hb
      obtain ⟨old, hold, rfl⟩ := List.mem_map.mp hb
      rw [sumAt_append]
      by_cases hk : old.1 = e.1
      · rw [if_pos hk, if_pos hk.symm, h.sums old hold]
      · rw [if_neg hk, if_neg (Ne.symm hk), add_zero, h.sums old hold]
  · rw [if_neg hmem]
    refine ⟨?_, ?_, ?_⟩
    · rw [List.map_append, List.nodup_append]
      refine ⟨h.nodup, List.nodup_singleton _, ?_⟩
      rintro a ha b hb rfl
      exact hmem (List.mem_singleton.mp hb ▸ ha)
    · intro k
      rw [List.map_append, List.mem_append, h.keys, List.map_append, List.mem_append]
      rfl
    · intro b hb
      rw [sumAt_append]
      rcases List.mem_append.mp hb with hold | hnew
      · have hne : e.1 ≠ b.1 := by
          rintro heq
          exact hmem (heq ▸ List.mem_map_of_mem hold)
        rw [if_neg hne, add_zero, h.sums b hold]
      · obtain rfl := List.mem_singleton.mp hnew
        rw [if_pos rfl, sumAt_eq_zero fun hk => hmem ((h.keys e.1).mpr hk)]

/-- The bins of a list are collected. -/
theorem collected (es : List (κ × M)) : Collected es (es.foldl addTo []) := by
  induction es using List.reverseRecOn with
  | nil =>
    refine ⟨List.nodup_nil, fun k => Iff.rfl, ?_⟩
    intro b hb
    cases hb
  | append_singleton es e ih =>
    rw [List.foldl_append]
    exact ih.addTo e

/-- A bin is a key of the list with its sum. -/
theorem Collected.mem_iff {es bins : List (κ × M)} (h : Collected es bins) (b : κ × M) :
    b ∈ bins ↔ b.1 ∈ es.map Prod.fst ∧ b.2 = sumAt es b.1 := by
  constructor
  · intro hb
    exact ⟨(h.keys b.1).mp (List.mem_map_of_mem hb), h.sums b hb⟩
  · rintro ⟨hkey, hsum⟩
    obtain ⟨b', hb', hk⟩ := List.mem_map.mp ((h.keys b.1).mpr hkey)
    have heq : b' = b := Prod.ext hk (by rw [h.sums b' hb', hsum, hk])
    exact heq ▸ hb'

/-- The order of the values decides at most the order of the table. -/
theorem Collected.perm {N : Type*} [AddCommMonoid N] {es es' bins bins' : List (κ × N)}
    (h : Collected es bins) (h' : Collected es' bins') (hes : es.Perm es') : bins.Perm bins' := by
  rw [List.perm_ext_iff_of_nodup h.nodup.of_map h'.nodup.of_map]
  intro b
  rw [h.mem_iff, h'.mem_iff, (hes.map Prod.fst).mem_iff]
  have hsum : sumAt es b.1 = sumAt es' b.1 := ((hes.filter _).map Prod.snd).sum_eq
  rw [hsum]

end Sums

/-! ## The largest elements -/

section Top

variable {α β : Type*} [LinearOrder β] (key : α → β)

/-- By falling keys, ties in the order of the list. -/
def sortDown (l : List α) : List α := l.mergeSort fun a b => decide (key b ≤ key a)

/-- The `n` elements with the largest keys. -/
def top (n : ℕ) (l : List α) : List α := (sortDown key l).take n

variable {key}

/-- A sorted list is in falling order. -/
theorem pairwise_sortDown (l : List α) : (sortDown key l).Pairwise fun a b => key b ≤ key a := by
  have hsorted : (sortDown key l).Pairwise fun a b => decide (key b ≤ key a) = true := by
    apply List.pairwise_mergeSort
    · intro a b c hab hbc
      exact decide_eq_true (le_trans (of_decide_eq_true hbc) (of_decide_eq_true hab))
    · intro a b
      simpa using le_total (key b) (key a)
  exact hsorted.imp fun h => of_decide_eq_true h

/-- Sorting keeps the entries. -/
theorem sortDown_perm (l : List α) : (sortDown key l).Perm l := List.mergeSort_perm l _

/-- A top entry is an entry. -/
theorem mem_of_mem_top {n : ℕ} {l : List α} {a : α} (h : a ∈ top key n l) : a ∈ l :=
  (sortDown_perm l).mem_iff.mp (List.mem_of_mem_take h)

/-- The top is as long as the list, up to its bound. -/
theorem length_top (n : ℕ) (l : List α) : (top key n l).length = min n l.length := by
  rw [top, List.length_take, (sortDown_perm l).length_eq]

/-- The top of a list without repeats has none. -/
theorem nodup_map_top {γ : Type*} {f : α → γ} {l : List α} (h : (l.map f).Nodup) (n : ℕ) :
    ((top key n l).map f).Nodup := by
  have hsort : ((sortDown key l).map f).Nodup := ((sortDown_perm l).map f).nodup_iff.mpr h
  exact hsort.sublist ((List.take_sublist n _).map f)

/-- What is left out has no larger key than what is taken, and the selection is full. -/
theorem le_of_not_mem_top {n : ℕ} {l : List α} {a b : α} (ha : a ∈ top key n l) (hb : b ∈ l)
    (hnot : b ∉ top key n l) : key b ≤ key a ∧ (top key n l).length = n := by
  have hsplit : top key n l ++ (sortDown key l).drop n = sortDown key l := List.take_append_drop _ _
  have hrest : b ∈ (sortDown key l).drop n := by
    have hmem : b ∈ sortDown key l := (sortDown_perm l).mem_iff.mpr hb
    rw [← hsplit] at hmem
    exact (List.mem_append.mp hmem).resolve_left hnot
  have hsorted : (sortDown key l).Pairwise fun a b => key b ≤ key a := pairwise_sortDown l
  rw [← hsplit, List.pairwise_append] at hsorted
  refine ⟨hsorted.2.2 a ha b hrest, ?_⟩
  have hlong : n < (sortDown key l).length := by
    by_contra hshort
    rw [List.drop_eq_nil_of_le (by omega)] at hrest
    cases hrest
  rw [top, List.length_take]
  omega

/-- With distinct keys the selection does not depend on the order of the list. -/
theorem top_perm {l l' : List α} (hperm : l.Perm l')
    (hdistinct : ∀ a ∈ l, ∀ b ∈ l, key a = key b → a = b) (n : ℕ) :
    top key n l = top key n l' := by
  have heq : sortDown key l = sortDown key l' := by
    refine List.Perm.eq_of_pairwise ?_ (pairwise_sortDown l) (pairwise_sortDown l') ?_
    · intro a b ha hb hba hab
      exact hdistinct a ((sortDown_perm l).mem_iff.mp ha) b
        (hperm.mem_iff.mpr ((sortDown_perm l').mem_iff.mp hb)) (le_antisymm hab hba)
    · exact (sortDown_perm l).trans (hperm.trans (sortDown_perm l').symm)
  rw [top, top, heq]

end Top

end Selection
