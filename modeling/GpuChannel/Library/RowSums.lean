/-
# Rows that items are added to

Items, each with the number of a row, are added one after the other to the rows of a table.  Each
row is then the sum of its own items, in their order.  When the items are sorted by row, these are
the items of one range.
-/
import GpuChannel.Library.Tables

namespace RowSums

variable {M : Type*} [Add M] [Zero M]

/-- One item added to its row. -/
def add (rows : List (List M)) (item : ℕ × List M) : List (List M) :=
  rows.modify item.1 fun row => List.zipWith (· + ·) row item.2

/-- The sum of the items of one row, at one column. -/
def sumAt (items : List (ℕ × List M)) (r c : ℕ) : M :=
  (items.filter (·.1 = r)).foldl (fun acc item => acc + item.2.getD c 0) 0

/-- A table whose rows have the sums `f`. -/
def table (m n : ℕ) (f : ℕ → ℕ → M) : List (List M) :=
  (List.range m).map fun r => (List.range n).map (f r)

theorem sumAt_concat (items : List (ℕ × List M)) (item : ℕ × List M) (r c : ℕ) :
    sumAt (items ++ [item]) r c =
      if item.1 = r then sumAt items r c + item.2.getD c 0 else sumAt items r c := by
  unfold sumAt
  rw [List.filter_append, List.foldl_append]
  split_ifs with hr
  · rw [List.filter_cons_of_pos (by simpa using hr)]
    rfl
  · rw [List.filter_cons_of_neg (by simpa using hr)]
    rfl

/-- A row of the length of an item, with the item added. -/
theorem zipWith_add_range (n : ℕ) (f : ℕ → M) {out : List M} (h : out.length = n) :
    List.zipWith (· + ·) ((List.range n).map f) out = (List.range n).map fun c => f c + out.getD c 0 := by
  apply List.ext_getElem
  · simp [h]
  · intro c hc hc'
    have hlt : c < out.length := by
      rw [List.length_map, List.length_range] at hc'
      exact h ▸ hc'
    rw [List.getElem_zipWith, List.getElem_map, List.getElem_map, List.getElem_range,
      List.getD_eq_getElem?_getD, List.getElem?_eq_getElem hlt, Option.getD_some]

/-- **Each row is the sum of its own items.** -/
theorem foldl_add (m n : ℕ) (items : List (ℕ × List M)) (h : ∀ item ∈ items, item.2.length = n) :
    items.foldl add (List.replicate m (List.replicate n 0)) = table m n (sumAt items) := by
  induction items using List.reverseRecOn with
  | nil =>
      unfold table sumAt
      simp [List.map_const']
  | append_singleton items item ih =>
      rw [List.foldl_append, ih fun a ha => h a (List.mem_append_left _ ha)]
      have hlen := h item (List.mem_append_right _ List.mem_cons_self)
      show (table m n (sumAt items)).modify item.1 _ = _
      unfold table
      apply List.ext_getElem?
      intro r
      rw [List.getElem?_modify, List.getElem?_map, List.getElem?_map]
      by_cases hr : r < m
      · rw [List.getElem?_range hr, Option.map_some, Option.map_some]
        have hsum : (fun c => sumAt (items ++ [item]) r c) = fun c =>
            if item.1 = r then sumAt items r c + item.2.getD c 0 else sumAt items r c := by
          funext c
          exact sumAt_concat items item r c
        rw [show sumAt (items ++ [item]) r = _ from hsum]
        by_cases heq : item.1 = r
        · simp only [heq, if_true]
          exact congrArg some (zipWith_add_range n _ hlen)
        · simp only [heq, if_false]
          rfl
      · rw [List.getElem?_eq_none (by rw [List.length_range]; omega)]
        rfl

/-! ## Sorted items -/

theorem filter_range (n b e : ℕ) (he : e ≤ n) :
    ((List.range n).filter fun k => decide (b ≤ k ∧ k < e)) = List.range' b (e - b) := by
  have hperm : ((List.range n).filter fun k => decide (b ≤ k ∧ k < e)).Perm
      (List.range' b (e - b)) := by
    rw [List.perm_ext_iff_of_nodup (List.nodup_range.filter _) List.nodup_range']
    intro k
    simp only [List.mem_filter, List.mem_range, decide_eq_true_eq, List.mem_range'_1]
    omega
  exact hperm.eq_of_pairwise' (List.pairwise_lt_range.filter _) List.pairwise_lt_range'

/-- **A row of sorted items** is the sum over a range of places. -/
theorem sumAt_range {items : List (ℕ × List M)} {r b e : ℕ} (he : e ≤ items.length)
    (h : ∀ (k : ℕ) item, items[k]? = some item → (item.1 = r ↔ b ≤ k ∧ k < e)) (c : ℕ) :
    sumAt items r c = (List.range' b (e - b)).foldl
      (fun acc k => acc + (((items[k]?).map (·.2)).getD []).getD c 0) 0 := by
  have hfilter : ((List.range items.length).filter fun k => (items[k]?).any fun item =>
      decide (item.1 = r)) = List.range' b (e - b) := by
    rw [← filter_range items.length b e he]
    apply List.filter_congr
    intro k hk
    rw [List.mem_range] at hk
    have hitem := List.getElem?_eq_getElem hk
    rw [hitem, Option.any_some]
    exact decide_eq_decide.mpr (h k _ hitem)
  unfold sumAt
  rw [← Tables.filterMap_positions items fun item => decide (item.1 = r), hfilter,
    List.foldl_filterMap]
  apply List.foldl_ext
  intro acc k hk
  rw [List.mem_range'_1] at hk
  have hlt : k < items.length := by omega
  rw [List.getElem?_eq_getElem hlt]
  rfl

end RowSums
