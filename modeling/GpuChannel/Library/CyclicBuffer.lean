/-
# Cyclic storage of a stream

A stream `l` is stored in a fixed buffer so that the element with sequence number
`q` lives in cell `q % capacity`.  Block writes and block reads happen in at most
two contiguous pieces.  `Holds buf l lo hi` says that the window `[lo, hi)` of the
stream is present; the lemmas say which writes keep a window and what reads return.
-/
import Mathlib

namespace CyclicBuffer

variable {α : Type*}

/-! ## Block copies -/

/-- Overwrite the cells starting at `i` by the block `xs`. -/
def blit (buf : List α) (i : ℕ) (xs : List α) : List α :=
  buf.take i ++ xs ++ buf.drop (i + xs.length)

/-- The contiguous block of `n` cells starting at `i`. -/
def slice (buf : List α) (i n : ℕ) : List α := (buf.drop i).take n

/-- Write a block at `i`, continuing at cell `0` past the end of the buffer. -/
def writeCyclic (buf : List α) (i : ℕ) (xs : List α) : List α :=
  let first := min xs.length (buf.length - i)
  blit (blit buf i (xs.take first)) 0 (xs.drop first)

/-- Read `n` cells from `i`, continuing at cell `0` past the end of the buffer. -/
def readCyclic (buf : List α) (i n : ℕ) : List α :=
  let first := min n (buf.length - i)
  slice buf i first ++ slice buf 0 (n - first)

theorem length_blit (buf : List α) (i : ℕ) (xs : List α) (h : i + xs.length ≤ buf.length) :
    (blit buf i xs).length = buf.length := by
  simp only [blit, List.length_append, List.length_take, List.length_drop]
  omega

/-- A block copy changes exactly the cells of the block. -/
theorem getElem?_blit (buf : List α) (i : ℕ) (xs : List α) (h : i + xs.length ≤ buf.length)
    (j : ℕ) :
    (blit buf i xs)[j]? = if i ≤ j ∧ j < i + xs.length then xs[j - i]? else buf[j]? := by
  have hlen : (buf.take i).length = i := by rw [List.length_take]; omega
  unfold blit
  rcases lt_trichotomy j i with hj | rfl | hj
  · rw [if_neg (by omega), List.append_assoc, List.getElem?_append_left (by omega),
      List.getElem?_take_of_lt hj]
  · rw [List.append_assoc, List.getElem?_append_right (by omega), hlen]
    by_cases hx : 0 < xs.length
    · rw [if_pos (by omega), List.getElem?_append_left (by omega)]
    · rw [if_neg (by omega), List.getElem?_append_right (by omega), List.getElem?_drop]
      congr 1; omega
  · rw [List.append_assoc, List.getElem?_append_right (by omega), hlen]
    by_cases hx : j < i + xs.length
    · rw [if_pos (by omega), List.getElem?_append_left (by omega)]
    · rw [if_neg (by omega), List.getElem?_append_right (by omega), List.getElem?_drop]
      congr 1; omega

theorem length_writeCyclic (buf : List α) (i : ℕ) (xs : List α) (hi : i ≤ buf.length)
    (hx : xs.length ≤ buf.length) : (writeCyclic buf i xs).length = buf.length := by
  have h₁ : (blit buf i (xs.take (min xs.length (buf.length - i)))).length = buf.length :=
    length_blit _ _ _ (by rw [List.length_take]; omega)
  unfold writeCyclic
  rw [length_blit _ _ _ (by rw [h₁, List.length_drop]; omega), h₁]

/-- Which cell a cyclic write leaves where: cell `j` holds the element at its
cyclic distance from the start of the block, or its old content. -/
theorem getElem?_writeCyclic (buf : List α) (i : ℕ) (xs : List α) (hi : i ≤ buf.length)
    (hx : xs.length ≤ buf.length) (j : ℕ) :
    (writeCyclic buf i xs)[j]? =
      if i ≤ j ∧ j < i + xs.length ∧ j < buf.length then xs[j - i]?
      else if j + buf.length < i + xs.length then xs[j + buf.length - i]? else buf[j]? := by
  have h₁ : (blit buf i (xs.take (min xs.length (buf.length - i)))).length = buf.length :=
    length_blit _ _ _ (by rw [List.length_take]; omega)
  unfold writeCyclic
  rw [getElem?_blit _ _ _ (by rw [h₁, List.length_drop]; omega),
    getElem?_blit _ _ _ (by rw [List.length_take]; omega)]
  simp only [List.length_drop, List.length_take, List.getElem?_drop, Nat.zero_add, Nat.sub_zero,
    Nat.zero_le, true_and]
  split_ifs <;> first
    | omega
    | rfl
    | (congr 1; omega)
    | (rw [List.getElem?_take_of_lt (by omega)])

/-! ## Windows of a stream -/

/-- The buffer holds the elements `lo ≤ q < hi` of the stream `l`, element `q` in
cell `q % capacity`. -/
def Holds (buf : List α) (l : List α) (lo hi : ℕ) : Prop :=
  ∀ q, lo ≤ q → q < hi → buf[q % buf.length]? = l[q]?

theorem Holds.mono {buf l : List α} {lo hi lo' hi' : ℕ} (h : Holds buf l lo hi)
    (hlo : lo ≤ lo') (hhi : hi' ≤ hi) : Holds buf l lo' hi' :=
  fun q h₁ h₂ => h q (by omega) (by omega)

theorem Holds.of_le {buf l : List α} {lo hi : ℕ} (h : hi ≤ lo) : Holds buf l lo hi :=
  fun q h₁ h₂ => by omega

/-- Two sequence numbers less than one revolution apart share a cell only if equal. -/
theorem eq_of_mod_eq {q r c : ℕ} (h : q % c = r % c) (h₁ : q < r + c) (h₂ : r < q + c) :
    q = r := by
  have hq := Nat.div_add_mod q c
  have hr := Nat.div_add_mod r c
  rcases lt_trichotomy (q / c) (r / c) with hlt | heq | hgt
  · have : c * (q / c + 1) ≤ c * (r / c) := Nat.mul_le_mul_left c hlt
    rw [Nat.mul_add, Nat.mul_one] at this; omega
  · rw [heq] at hq; omega
  · have : c * (r / c + 1) ≤ c * (q / c) := Nat.mul_le_mul_left c hgt
    rw [Nat.mul_add, Nat.mul_one] at this; omega

/-- The cell of the element `d` places after `q`, in terms of the cell of `q`. -/
theorem mod_add_cases {q d c : ℕ} (hc : 0 < c) (hd : d ≤ c) :
    (q + d) % c = q % c + d ∧ q % c + d < c ∨
      (q + d) % c + c = q % c + d := by
  have h := Nat.mod_lt q hc
  rw [Nat.add_mod]
  rcases eq_or_lt_of_le hd with rfl | hd
  · right; rw [Nat.mod_self, Nat.add_zero, Nat.mod_mod]
  · rw [Nat.mod_eq_of_lt hd]
    by_cases hlt : q % c + d < c
    · left; exact ⟨Nat.mod_eq_of_lt hlt, hlt⟩
    · right
      rw [Nat.mod_eq_sub_mod (by omega), Nat.mod_eq_of_lt (by omega)]
      omega

/-- The cells of a block written at the cell of `next` are those of
`next, …, next + xs.length - 1`. -/
theorem getElem?_writeCyclic_mod (buf xs : List α) (next q : ℕ) (hx : xs.length ≤ buf.length)
    (h₁ : next ≤ q) (h₂ : q < next + xs.length) :
    (writeCyclic buf (next % buf.length) xs)[q % buf.length]? = xs[q - next]? := by
  have hc : 0 < buf.length := by omega
  have hn := Nat.mod_lt next hc
  obtain ⟨d, rfl⟩ := Nat.exists_eq_add_of_le h₁
  rw [getElem?_writeCyclic _ _ _ hn.le hx, Nat.add_sub_cancel_left]
  rcases mod_add_cases (q := next) hc (by omega : d ≤ buf.length) with ⟨h, hlt⟩ | h
  · rw [h, if_pos (by omega)]
    congr 1; omega
  · rw [if_neg (by omega), if_pos (by omega)]
    congr 1; omega

/-- A block written at the cell of `next` leaves the last revolution before it alone. -/
theorem getElem?_writeCyclic_of_lt (buf xs : List α) (next q : ℕ)
    (hx : xs.length ≤ buf.length) (h₁ : q < next) (h₂ : next + xs.length ≤ q + buf.length) :
    (writeCyclic buf (next % buf.length) xs)[q % buf.length]? = buf[q % buf.length]? := by
  rcases Nat.eq_zero_or_pos buf.length with hc | hc
  · have hnil : xs = [] := List.length_eq_zero_iff.mp (by omega)
    simp [hnil, writeCyclic, blit]
  · have hn := Nat.mod_lt next hc
    have hq := Nat.mod_lt q hc
    -- the cell of `q` lies at distance `next - q` behind the cell of `next`
    have hcases := mod_add_cases (q := q) hc (by omega : next - q ≤ buf.length)
    rw [show q + (next - q) = next by omega] at hcases
    rw [getElem?_writeCyclic _ _ _ hn.le hx]
    rcases hcases with ⟨h, hlt⟩ | h
    · rw [if_neg (by omega), if_neg (by omega)]
    · rw [if_neg (by omega), if_neg (by omega)]

/-- Appending a block to the stream by a cyclic write extends the window, as long
as the window stays within one revolution. -/
theorem Holds.writeCyclic {buf l : List α} {lo : ℕ} (h : Holds buf l lo l.length)
    (hlo : lo ≤ l.length) (xs : List α) (hfit : l.length + xs.length ≤ lo + buf.length) :
    Holds (writeCyclic buf (l.length % buf.length) xs) (l ++ xs) lo (l.length + xs.length) := by
  have hx : xs.length ≤ buf.length := by omega
  have hlen : (CyclicBuffer.writeCyclic buf (l.length % buf.length) xs).length = buf.length := by
    rcases Nat.eq_zero_or_pos buf.length with hc | hc
    · have hnil : xs = [] := List.length_eq_zero_iff.mp (by omega)
      simp [hnil, CyclicBuffer.writeCyclic, blit]
    · exact length_writeCyclic _ _ _ (Nat.mod_lt _ hc).le hx
  intro q h₁ h₂
  rw [hlen]
  by_cases hq : q < l.length
  · rw [getElem?_writeCyclic_of_lt _ _ _ _ hx hq (by omega), h q h₁ hq,
      List.getElem?_append_left hq]
  · rw [getElem?_writeCyclic_mod _ _ _ _ hx (by omega) h₂,
      List.getElem?_append_right (by omega)]

/-- Any block write that stays inside the next revolution keeps the window. -/
theorem Holds.blit_free {buf l : List α} {lo hi : ℕ} (h : Holds buf l lo hi)
    (xs : List α) (hfit : hi + xs.length ≤ lo + buf.length)
    (hcontig : hi % buf.length + xs.length ≤ buf.length) :
    Holds (blit buf (hi % buf.length) xs) l lo hi := by
  have hlen := length_blit buf _ xs hcontig
  intro q h₁ h₂
  rw [hlen, getElem?_blit _ _ _ hcontig, if_neg, h q h₁ h₂]
  rintro ⟨h₃, h₄⟩
  have hc : 0 < buf.length := by
    rcases Nat.eq_zero_or_pos buf.length with hc | hc
    · simp only [hc, Nat.mod_zero] at h₃ h₄ hcontig; omega
    · exact hc
  have hcases := mod_add_cases (q := q) hc (by omega : hi - q ≤ buf.length)
  rw [show q + (hi - q) = hi by omega] at hcases
  omega

/-- A cyclic read of a range inside the window returns that range of the stream. -/
theorem Holds.readCyclic {buf l : List α} {lo hi : ℕ} (h : Holds buf l lo hi) {q n : ℕ}
    (hlo : lo ≤ q) (hhi : q + n ≤ hi) (hn : n ≤ buf.length) :
    readCyclic buf (q % buf.length) n = slice l q n := by
  rcases Nat.eq_zero_or_pos n with rfl | hn0
  · simp [CyclicBuffer.readCyclic, slice]
  have hc : 0 < buf.length := by omega
  have hq := Nat.mod_lt q hc
  apply List.ext_getElem?
  intro i
  unfold CyclicBuffer.readCyclic slice
  have hlen : ((buf.drop (q % buf.length)).take (min n (buf.length - q % buf.length))).length
      = min n (buf.length - q % buf.length) := by
    rw [List.length_take, List.length_drop]; omega
  by_cases hi' : i < n
  · have hstream : ((l.drop q).take n)[i]? = buf[(q + i) % buf.length]? := by
      rw [List.getElem?_take_of_lt hi', List.getElem?_drop, h (q + i) (by omega) (by omega)]
    rw [hstream]
    rcases mod_add_cases (q := q) hc (by omega : i ≤ buf.length) with ⟨hm, hlt⟩ | hm
    · rw [List.getElem?_append_left (by omega), List.getElem?_take_of_lt (by omega),
        List.getElem?_drop, hm]
    · rw [List.getElem?_append_right (by omega), hlen, List.getElem?_take_of_lt (by omega),
        List.drop_zero]
      congr 1; omega
  · rw [List.getElem?_eq_none, List.getElem?_eq_none]
    · rw [List.length_take]; omega
    · rw [List.length_append, hlen, List.length_take]; omega

/-- A contiguous range inside the window can be read where it lies. -/
theorem Holds.slice {buf l : List α} {lo hi : ℕ} (h : Holds buf l lo hi) {q n : ℕ}
    (hlo : lo ≤ q) (hhi : q + n ≤ hi) (hcontig : q % buf.length + n ≤ buf.length) :
    slice buf (q % buf.length) n = CyclicBuffer.slice l q n := by
  rw [← h.readCyclic hlo hhi (by omega)]
  unfold CyclicBuffer.readCyclic
  simp only [Nat.min_eq_left (by omega : n ≤ buf.length - q % buf.length), Nat.sub_self]
  simp [CyclicBuffer.slice]

/-- A contiguous block written at the cell of the stream's end is found there
when the stream is extended by it. -/
theorem Holds.extend_blit {buf l : List α} {lo : ℕ} (h : Holds buf l lo l.length) (xs : List α)
    (hxs : ∀ j < xs.length, buf[(l.length + j) % buf.length]? = xs[j]?) :
    Holds buf (l ++ xs) lo (l.length + xs.length) := by
  intro q h₁ h₂
  by_cases hq : q < l.length
  · rw [h q h₁ hq, List.getElem?_append_left hq]
  · have := hxs (q - l.length) (by omega)
    rw [show l.length + (q - l.length) = q by omega] at this
    rw [this, List.getElem?_append_right (by omega)]

/-! ## Slices -/

/-- Reading on from a prefix extends the prefix. -/
theorem take_append_slice (l : List α) (q n : ℕ) : l.take q ++ slice l q n = l.take (q + n) := by
  rw [slice, List.take_add]

theorem slice_append_of_le (l xs : List α) (q n : ℕ) (h : q + n ≤ l.length) :
    slice (l ++ xs) q n = slice l q n := by
  rw [slice, slice, List.drop_append_of_le_length (by omega),
    List.take_append_of_le_length (by rw [List.length_drop]; omega)]

/-! ## Stores one element at a time -/

/-- Store the element `w.1` with sequence number `w.2` in its cell. -/
def store (buf : List α) (w : α × ℕ) : List α := buf.set (w.2 % buf.length) w.1

theorem length_foldl_store (ws : List (α × ℕ)) (buf : List α) :
    (ws.foldl store buf).length = buf.length := by
  induction ws generalizing buf with
  | nil => rfl
  | cons w ws ih =>
    rw [List.foldl_cons, ih]
    exact List.length_set

/-- Stores leave the cells of other sequence numbers alone. -/
theorem getElem?_foldl_store_of_ne (ws : List (α × ℕ)) (buf : List α) (j : ℕ)
    (h : ∀ w ∈ ws, w.2 % buf.length ≠ j) : (ws.foldl store buf)[j]? = buf[j]? := by
  induction ws generalizing buf with
  | nil => rfl
  | cons w ws ih =>
    have hlen : (store buf w).length = buf.length := List.length_set
    rw [List.foldl_cons, ih]
    · exact List.getElem?_set_ne (h w List.mem_cons_self)
    · intro w' hw'
      rw [hlen]
      exact h w' (List.mem_cons_of_mem w hw')

/-- After stores of one value, a cell that one of them reached holds it. -/
theorem getElem?_foldl_store_const {ws : List (α × ℕ)} {buf : List α} {x : α} {q : ℕ}
    (hbuf : 0 < buf.length) (hx : ∀ w ∈ ws, w.1 = x)
    (hit : ∃ w ∈ ws, w.2 % buf.length = q % buf.length) :
    (ws.foldl store buf)[q % buf.length]? = some x := by
  induction ws generalizing buf with
  | nil =>
    obtain ⟨w, hw, -⟩ := hit
    cases hw
  | cons w ws ih =>
    have hlen : (store buf w).length = buf.length := List.length_set
    rw [List.foldl_cons]
    by_cases hrest : ∃ w' ∈ ws, w'.2 % buf.length = q % buf.length
    · rw [← hlen] at hrest hbuf ⊢
      exact ih hbuf (fun w' hw' => hx w' (List.mem_cons_of_mem w hw')) hrest
    · push Not at hrest
      rw [getElem?_foldl_store_of_ne ws _ _ (by rwa [hlen])]
      obtain ⟨w', hw', hcell⟩ := hit
      rcases List.mem_cons.mp hw' with rfl | hmem
      · rw [store, hcell, List.getElem?_set_self (Nat.mod_lt q hbuf), hx w' hw']
      · exact absurd hcell (hrest w' hmem)

/-- After the stores of consecutive elements, at most one revolution of them, each is in its
cell. -/
theorem getElem?_foldl_store_zipIdx (xs buf : List α) {start q : ℕ}
    (hlen : xs.length ≤ buf.length) (hlo : start ≤ q) (hhi : q < start + xs.length) :
    ((xs.zipIdx start).foldl store buf)[q % buf.length]? = xs[q - start]? := by
  induction xs generalizing start buf with
  | nil => exact absurd hhi (by simp; omega)
  | cons x xs ih =>
    rw [List.length_cons] at hlen hhi
    have hset : (store buf (x, start)).length = buf.length := List.length_set
    rw [List.zipIdx_cons, List.foldl_cons]
    rcases Nat.eq_or_lt_of_le hlo with rfl | hlt
    · -- the later stores are less than a revolution ahead
      rw [getElem?_foldl_store_of_ne, store, Nat.sub_self,
        List.getElem?_set_self (Nat.mod_lt start (by omega))]
      · rfl
      · rintro ⟨y, r⟩ hmem hcell
        have hr := List.mem_zipIdx hmem
        rw [hset] at hcell
        have heq := eq_of_mod_eq hcell (by omega) (by omega)
        omega
    · have hrest := ih (store buf (x, start)) (by rw [hset]; omega) hlt (by omega)
      rw [hset] at hrest
      rw [hrest, show q - start = (q - (start + 1)) + 1 by omega]
      rfl

end CyclicBuffer
