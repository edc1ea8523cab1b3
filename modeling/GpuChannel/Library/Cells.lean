/-
# Records stored in cells

A record that two threads share is read and written one cell at a time.  `Cells S ι`
names the cells of `S` and the copy of a single one; its law says that copying every
cell copies the record.  A copy in progress is then described by what finishing it would
give, which is all that an interleaving argument needs.
-/
import Mathlib

/-- **Cells.** `copy i src dst` is `dst` with cell `i` taken from `src`. -/
class Cells (S : Type*) (ι : outParam (Type*)) where
  copy : ι → S → S → S
  cells : List ι
  copy_cells : ∀ src dst, cells.foldl (fun dst i => copy i src dst) dst = src

namespace Cells

/-- Copying some cells of an array one after the other. -/
theorem foldl_update {n : ℕ} {α : Type*} (src dst : Fin n → α) (l : List (Fin n)) (k : Fin n) :
    l.foldl (fun dst i => Function.update dst i (src i)) dst k =
      if k ∈ l then src k else dst k := by
  induction l generalizing dst with
  | nil => simp
  | cons i l ih =>
      rw [List.foldl_cons, ih]
      by_cases hk : k ∈ l
      · simp [hk]
      · by_cases hik : k = i
        · subst hik
          simp [hk]
        · simp [hk, hik]

/-- **Arrays.** Copying every element copies the array. -/
theorem foldl_finRange {n : ℕ} {α : Type*} (src dst : Fin n → α) :
    (List.finRange n).foldl (fun dst i => Function.update dst i (src i)) dst = src := by
  funext k
  rw [foldl_update, if_pos (List.mem_finRange k)]

/-- The cells of an array of records. -/
def elementCells (n : ℕ) {ι : Type*} (cells : List ι) : List (Fin n × ι) :=
  (List.finRange n).flatMap fun k => cells.map fun c => (k, c)

/-- One cell of one element of an array of records. -/
def copyElement {n : ℕ} {S ι : Type*} [Cells S ι] (i : Fin n × ι) (src dst : Fin n → S) :
    Fin n → S :=
  Function.update dst i.1 (copy i.2 (src i.1) (dst i.1))

/-- Copying cells of one element changes that element alone. -/
theorem foldl_copyElement_map {n : ℕ} {S ι : Type*} [Cells S ι] (k : Fin n)
    (src dst : Fin n → S) (l : List ι) :
    (l.map fun c => (k, c)).foldl (fun dst i => copyElement i src dst) dst =
      Function.update dst k (l.foldl (fun d c => copy c (src k) d) (dst k)) := by
  induction l generalizing dst with
  | nil => simp
  | cons c l ih =>
      rw [List.map_cons, List.foldl_cons, ih, List.foldl_cons]
      simp [copyElement]

/-- **Arrays of records.** Copying every cell of every element copies the array. -/
theorem foldl_elementCells {n : ℕ} {S ι : Type*} [Cells S ι] (src dst : Fin n → S) :
    (elementCells n (cells S)).foldl (fun dst i => copyElement i src dst) dst = src := by
  have helement : ∀ (l : List (Fin n)) (dst : Fin n → S),
      (l.flatMap fun k => (cells S).map fun c => (k, c)).foldl
        (fun dst i => copyElement i src dst) dst =
      l.foldl (fun dst k => Function.update dst k (src k)) dst := by
    intro l
    induction l with
    | nil => intro dst; rfl
    | cons k l ih =>
        intro dst
        rw [List.flatMap_cons, List.foldl_append, foldl_copyElement_map, copy_cells, ih]
        rfl
  rw [elementCells, helement, foldl_finRange]

/-- A fold that only touches one part of a record. -/
theorem foldl_part {S P ι : Type*} (set : S → P → S) (get : S → P) (f : P → ι → P)
    (hget : ∀ s p, get (set s p) = p) (hset : ∀ s p q, set (set s p) q = set s q)
    (hself : ∀ s, set s (get s) = s) (l : List ι) (s : S) :
    l.foldl (fun s i => set s (f (get s) i)) s = set s (l.foldl f (get s)) := by
  induction l generalizing s with
  | nil => exact (hself s).symm
  | cons i l ih => rw [List.foldl_cons, ih, hget, hset, List.foldl_cons]

/-- A copy in progress: what is left of it would complete it. -/
def Copying {S ι : Type*} [Cells S ι] (rest : List ι) (src dst : S) : Prop :=
  rest.foldl (fun dst i => copy i src dst) dst = src

variable {S ι : Type*} [Cells S ι] {src dst : S}

theorem Copying.start (src dst : S) : Copying (cells S) src dst := copy_cells src dst

theorem Copying.next {i : ι} {rest : List ι} (h : Copying (i :: rest) src dst) :
    Copying rest src (copy i src dst) := h

theorem Copying.done (h : Copying (ι := ι) [] src dst) : dst = src := h

end Cells
