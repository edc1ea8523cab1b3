/-
# Filters that run slot by slot

A stream reaches a machine in slots, and the machine keeps a state in between.  What it makes of
the stream is compared with a signal, a function of the sample position.  A filter with a bounded
memory sees, in a slot, that slot and the `memory` samples before it, so its output depends on
where the slots begin unless its response ends within the memory.  For a cascade of such filters
and of pointwise factors this is exact: `cuts_agree` and `cuts_differ`.
-/
import Mathlib

namespace Slots

/-! ## Machines -/

section Machines

variable {α β σ ι : Type*}

/-- Where the slot of sample `n` begins, for slots of these sizes. -/
def start : List ℕ → ℕ → ℕ
  | [], _ => 0
  | size :: sizes, n => if n < size then 0 else size + start sizes (n - size)

/-- What a machine makes of each slot. -/
def outputs (f : σ → List α → List β × σ) : σ → List (List α) → List (List β)
  | _, [] => []
  | s, slot :: slots => (f s slot).1 :: outputs f (f s slot).2 slots

/-- Machines in a row, each with its own state. -/
def pipe (f : ι → σ → List α → List α × σ) : List ι → List σ → List α → List α × List σ
  | i :: is, s :: ss, slot =>
      let rest := pipe f is ss (f i s slot).1
      (rest.1, (f i s slot).2 :: rest.2)
  | _, ss, slot => (slot, ss)

/-- A slot starts no later than its samples. -/
theorem start_le (sizes : List ℕ) (n : ℕ) : start sizes n ≤ n := by
  induction sizes generalizing n with
  | nil => exact Nat.zero_le n
  | cons size sizes ih =>
      unfold start
      split_ifs with h
      · exact Nat.zero_le n
      · have hrest := ih (n - size)
        omega

/-- Every machine of the row may run over all slots before the next one starts. -/
theorem outputs_pipe_cons (f : ι → σ → List α → List α × σ) (i : ι) (is : List ι) (s : σ)
    (ss : List σ) (slots : List (List α)) :
    outputs (pipe f (i :: is)) (s :: ss) slots = outputs (pipe f is) ss (outputs (f i) s slots) := by
  induction slots generalizing s ss with
  | nil => rfl
  | cons slot slots ih =>
      exact congrArg ((pipe f is ss (f i s slot).1).1 :: ·) (ih _ _)

/-- A pipe without filters passes the slots. -/
theorem outputs_pipe_nil (f : ι → σ → List α → List α × σ) (ss : List σ) (slots : List (List α)) :
    outputs (pipe f []) ss slots = slots := by
  induction slots generalizing ss with
  | nil => rfl
  | cons slot slots ih => exact congrArg (slot :: ·) (ih ss)

end Machines

/-! ## Stages -/

variable {R : Type*} [CommRing R]

/-- **A stage of a cascade**: a factor for each position, or a filter with a memory. -/
inductive Stage (R : Type*)
  | factor (u : ℕ → R)
  | filter (memory : ℕ) (h : ℕ → R)

namespace Stage

/-- The output at `n` when the slot of `n` begins at `b`. -/
def value (b : ℕ) : Stage R → (ℕ → R) → ℕ → R
  | factor u, x, n => u n * x n
  | filter memory h, x, n =>
      ∑ l ∈ Finset.range (n + 1), if b ≤ n - l + memory then h l * x (n - l) else 0

/-- The output signal, for slots that begin where `b` says. -/
def run (b : ℕ → ℕ) (stage : Stage R) (x : ℕ → R) (n : ℕ) : R := stage.value (b n) x n

/-- The response ends within the memory. -/
def Fits : Stage R → Prop
  | factor _ => True
  | filter memory h => ∀ l, memory < l → h l = 0

/-- The response is zero. -/
def Silent : Stage R → Prop
  | factor _ => False
  | filter _ h => ∀ l, h l = 0

/-- No factor vanishes, and the response ends somewhere. -/
def Proper : Stage R → Prop
  | factor u => ∀ n, u n ≠ 0
  | filter _ h => ∃ last, ∀ l, last < l → h l = 0

/-- An output depends on the input up to its position. -/
theorem value_congr (stage : Stage R) (b n : ℕ) {x y : ℕ → R} (h : ∀ m ≤ n, x m = y m) :
    stage.value b x n = stage.value b y n := by
  cases stage with
  | factor u =>
      show u n * x n = u n * y n
      rw [h n le_rfl]
  | filter memory h' =>
      refine Finset.sum_congr rfl fun l _ => ?_
      rw [h (n - l) (Nat.sub_le n l)]

/-- A stage that fits does not see where the slots begin. -/
theorem value_of_fits {stage : Stage R} (h : stage.Fits) {b n : ℕ} (hb : b ≤ n) (x : ℕ → R) :
    stage.value b x n = stage.value 0 x n := by
  cases stage with
  | factor u => rfl
  | filter memory c =>
      refine Finset.sum_congr rfl fun l hl => ?_
      rw [Finset.mem_range] at hl
      rw [if_pos (Nat.zero_le _)]
      split_ifs with hreach
      · rfl
      · -- what the slot does not see has no weight
        rw [h l (by omega), zero_mul]

/-- A silent stage has no value. -/
theorem value_of_silent {stage : Stage R} (h : stage.Silent) (b : ℕ) (x : ℕ → R) (n : ℕ) :
    stage.value b x n = 0 := by
  cases stage with
  | factor u => exact absurd h id
  | filter memory c =>
      refine Finset.sum_eq_zero fun l _ => ?_
      rw [h l, zero_mul, ite_self]

/-- A stage keeps silence. -/
theorem value_zero (stage : Stage R) (b n : ℕ) : stage.value b (fun _ => 0) n = 0 := by
  cases stage with
  | factor u => exact mul_zero (u n)
  | filter memory h =>
      refine Finset.sum_eq_zero fun l _ => ?_
      rw [mul_zero, ite_self]

end Stage

/-! ## Cascades -/

/-- The stages one after the other. -/
def cascade (b : ℕ → ℕ) (stages : List (Stage R)) (x : ℕ → R) : ℕ → R :=
  stages.foldl (fun x stage => stage.run b x) x

/-- A cascade runs its first stage first. -/
theorem cascade_cons (b : ℕ → ℕ) (stage : Stage R) (stages : List (Stage R)) (x : ℕ → R) :
    cascade b (stage :: stages) x = cascade b stages (stage.run b x) := rfl

/-- A cascade runs its front before its back. -/
theorem cascade_append (b : ℕ → ℕ) (first second : List (Stage R)) (x : ℕ → R) :
    cascade b (first ++ second) x = cascade b second (cascade b first x) := List.foldl_append

/-- Two runs over inputs that agree below `limit` agree there. -/
theorem cascade_congr (b : ℕ → ℕ) (stages : List (Stage R)) (limit : ℕ) {x y : ℕ → R}
    (h : ∀ n < limit, x n = y n) : ∀ n < limit, cascade b stages x n = cascade b stages y n := by
  induction stages generalizing x y with
  | nil => exact h
  | cons stage stages ih =>
      apply ih
      intro n hn
      exact stage.value_congr (b n) n fun m hm => h m (by omega)

/-- The run depends on the slots below `limit` only through where they begin. -/
theorem cascade_start_congr {b b' : ℕ → ℕ} (stages : List (Stage R)) (limit : ℕ) (x : ℕ → R)
    (h : ∀ n < limit, b n = b' n) :
    ∀ n < limit, cascade b stages x n = cascade b' stages x n := by
  induction stages generalizing x with
  | nil => exact fun n _ => rfl
  | cons stage stages ih =>
      intro n hn
      rw [cascade_cons, cascade_cons, ih _ n hn]
      refine cascade_congr b' stages limit (fun m hm => ?_) n hn
      show stage.value (b m) x m = stage.value (b' m) x m
      rw [h m hm]

/-- A cascade keeps silence. -/
theorem cascade_zero (b : ℕ → ℕ) (stages : List (Stage R)) :
    cascade b stages (fun _ => 0) = fun _ => 0 := by
  induction stages with
  | nil => rfl
  | cons stage stages ih =>
      rw [cascade_cons, show stage.run b (fun _ => 0) = fun _ => 0 from
        funext fun n => stage.value_zero (b n) n]
      exact ih

/-- A cascade with a silent stage is silent. -/
theorem cascade_of_silent (b : ℕ → ℕ) {stages : List (Stage R)} (h : ∃ s ∈ stages, s.Silent)
    (x : ℕ → R) : cascade b stages x = fun _ => 0 := by
  obtain ⟨stage, hmem, hsilent⟩ := h
  obtain ⟨first, second, rfl⟩ := List.append_of_mem hmem
  rw [cascade_append, cascade_cons]
  have hzero : ∀ y : ℕ → R, stage.run b y = fun _ => 0 :=
    fun y => funext fun n => Stage.value_of_silent hsilent (b n) y n
  rw [hzero, cascade_zero]

/-- A cascade whose stages fit forgets nothing. -/
theorem cascade_of_fits {b : ℕ → ℕ} (hb : ∀ n, b n ≤ n) {stages : List (Stage R)}
    (h : ∀ s ∈ stages, s.Fits) (x : ℕ → R) :
    cascade b stages x = cascade (fun _ => 0) stages x := by
  induction stages generalizing x with
  | nil => rfl
  | cons stage stages ih =>
      rw [List.forall_mem_cons] at h
      have hstage : stage.run b x = stage.run (fun _ => 0) x :=
        funext fun n => Stage.value_of_fits h.1 (hb n) x
      rw [cascade_cons, cascade_cons, ih h.2, hstage]

/-- **The cuts agree** when every response ends within its memory, or one is zero. -/
theorem cuts_agree {b b' : ℕ → ℕ} (hb : ∀ n, b n ≤ n) (hb' : ∀ n, b' n ≤ n)
    {stages : List (Stage R)} (h : (∃ s ∈ stages, s.Silent) ∨ ∀ s ∈ stages, s.Fits)
    (x : ℕ → R) : cascade b stages x = cascade b' stages x := by
  rcases h with h | h
  · rw [cascade_of_silent b h, cascade_of_silent b' h]
  · rw [cascade_of_fits hb h, cascade_of_fits hb' h]

/-! ## Machines that realise stages -/

section Realises

variable {α σ ι : Type*}

/-- The signal of a list, zero behind its end. -/
def signal (val : α → R) (xs : List α) (n : ℕ) : R := (xs.map val).getD n 0

/-- The signal of a list at a place of its front. -/
theorem signal_append_left (val : α → R) (xs ys : List α) {n : ℕ} (h : n < xs.length) :
    signal val (xs ++ ys) n = signal val xs n := by
  unfold signal
  rw [List.map_append, List.getD_append _ _ _ _ (by rwa [List.length_map])]

/-- The signal of a list at a place of its back. -/
theorem signal_append_right (val : α → R) (xs ys : List α) {n : ℕ} (h : xs.length ≤ n) :
    signal val (xs ++ ys) n = signal val ys (n - xs.length) := by
  unfold signal
  rw [List.map_append, List.getD_append_right _ _ _ _ (by rwa [List.length_map]), List.length_map]

/-- **The machine realises the stage.** `I pre s`: in state `s` it has been given the samples
`pre`. -/
structure Realises (val : α → R) (f : σ → List α → List α × σ) (I : List α → σ → Prop)
    (stage : Stage R) : Prop where
  next : ∀ pre s xs, I pre s → I (pre ++ xs) (f s xs).2
  length : ∀ s xs, (f s xs).1.length = xs.length
  value : ∀ pre s xs n, I pre s → n < xs.length → signal val (f s xs).1 n =
    stage.value pre.length (signal val (pre ++ xs)) (pre.length + n)

variable {val : α → R}

/-- A filter that realises a stage keeps the lengths of the slots. -/
theorem Realises.length_outputs {f : σ → List α → List α × σ} {I : List α → σ → Prop}
    {stage : Stage R} (h : Realises val f I stage) (s : σ) (slots : List (List α)) :
    (outputs f s slots).map List.length = slots.map List.length := by
  induction slots generalizing s with
  | nil => rfl
  | cons slot slots ih =>
      unfold outputs
      rw [List.map_cons, List.map_cons, h.length, ih]

/-- What a machine makes of the slots is what its stage makes of the stream. -/
theorem Realises.value_outputs {f : σ → List α → List α × σ} {I : List α → σ → Prop}
    {stage : Stage R} (h : Realises val f I stage) {pre : List α} {s : σ} (hs : I pre s)
    (slots : List (List α)) {n : ℕ} (hn : n < slots.flatten.length) :
    signal val (outputs f s slots).flatten n =
      stage.value (pre.length + start (slots.map List.length) n)
        (signal val (pre ++ slots.flatten)) (pre.length + n) := by
  induction slots generalizing pre s n with
  | nil => exact absurd hn (Nat.not_lt_zero n)
  | cons slot slots ih =>
      unfold outputs start
      rw [List.flatten_cons, List.flatten_cons, List.map_cons]
      dsimp only
      by_cases hslot : n < slot.length
      · -- within the first slot
        rw [if_pos hslot, signal_append_left val _ _ (by rwa [h.length]), h.value pre s slot n hs hslot]
        refine stage.value_congr _ _ fun m hm => ?_
        rw [← List.append_assoc]
        exact (signal_append_left val _ _ (by rw [List.length_append]; omega)).symm
      · rw [List.flatten_cons, List.length_append] at hn
        have hrest := ih (h.next pre s slot hs) (n := n - slot.length) (by omega)
        rw [if_neg hslot, signal_append_right val _ _ (by rw [h.length]; omega), h.length, hrest,
          List.length_append, List.append_assoc, Nat.add_assoc, Nat.add_assoc,
          Nat.add_sub_cancel' (by omega : slot.length ≤ n)]

/-- **A row of machines realises the cascade of its stages.** -/
theorem outputs_pipe (f : ι → σ → List α → List α × σ) (I : ι → List α → σ → Prop)
    (stage : ι → Stage R) {is : List ι} {ss : List σ}
    (h : ∀ i ∈ is, Realises val (f i) (I i) (stage i)) (hs : List.Forall₂ (fun i s => I i [] s) is ss)
    (slots : List (List α)) :
    (outputs (pipe f is) ss slots).map List.length = slots.map List.length ∧
      ∀ n < slots.flatten.length, signal val (outputs (pipe f is) ss slots).flatten n =
        cascade (start (slots.map List.length)) (is.map stage) (signal val slots.flatten) n := by
  induction hs generalizing slots with
  | nil =>
      rw [outputs_pipe_nil]
      exact ⟨rfl, fun n _ => rfl⟩
  | @cons i s is ss hi hss ih =>
      rw [List.forall_mem_cons] at h
      obtain ⟨hsizes, hvalue⟩ := ih h.2 (outputs (f i) s slots)
      have hfirst := h.1.length_outputs s slots
      have htotal : (outputs (f i) s slots).flatten.length = slots.flatten.length := by
        rw [List.length_flatten, List.length_flatten, hfirst]
      rw [outputs_pipe_cons, hsizes, hfirst]
      refine ⟨rfl, fun n hn => ?_⟩
      rw [hvalue n (by rwa [htotal]), hfirst, List.map_cons, cascade_cons]
      refine cascade_congr _ _ slots.flatten.length (fun m hm => ?_) n hn
      have hm := h.1.value_outputs hi slots hm
      rwa [List.length_nil, Nat.zero_add, Nat.zero_add, List.nil_append] at hm

end Realises

/-! ## What a cut destroys -/

/-- The last position at which a signal is not zero. -/
def EndsAt (x : ℕ → R) (t : ℕ) : Prop := x t ≠ 0 ∧ ∀ n, t < n → x n = 0

/-- Two slots, the second one beginning at `p`. -/
def cutAt (p n : ℕ) : ℕ := if n < p then 0 else p

/-- A cut before a sample is no later than it. -/
theorem cutAt_le (p n : ℕ) : cutAt p n ≤ n := by
  unfold cutAt
  split_ifs with h
  · exact Nat.zero_le n
  · omega

/-- A signal with a last position that bounds it, and a value that is not zero, ends somewhere. -/
theorem exists_endsAt {x : ℕ → R} {n last : ℕ} (hn : x n ≠ 0) (hlast : ∀ l, last < l → x l = 0) :
    ∃ t, n ≤ t ∧ EndsAt x t := by
  classical
  have hle : n ≤ last := by
    by_contra h
    exact hn (hlast n (by omega))
  refine ⟨Nat.findGreatest (fun k => x k ≠ 0) last, Nat.le_findGreatest hle hn,
    Nat.findGreatest_spec (P := fun k => x k ≠ 0) hle hn, fun m hm => ?_⟩
  by_cases hml : m ≤ last
  · exact not_not.mp (Nat.findGreatest_is_greatest (P := fun k => x k ≠ 0) hm hml)
  · exact hlast m (by omega)

/-- Two outputs of a filter, the second one cut at `p`: the difference of the inputs passes, and
what lies further back than the memory is lost. -/
theorem value_sub_cut (memory : ℕ) (h x y : ℕ → R) {p n : ℕ} (hn : p ≤ n) :
    (Stage.filter memory h).run (fun _ => 0) x n - (Stage.filter memory h).run (cutAt p) y n =
      ∑ l ∈ Finset.range (n + 1), (h l * (x (n - l) - y (n - l)) +
        if n - l + memory < p then h l * y (n - l) else 0) := by
  show (∑ l ∈ Finset.range (n + 1), if 0 ≤ n - l + memory then h l * x (n - l) else 0) -
    (∑ l ∈ Finset.range (n + 1), if cutAt p n ≤ n - l + memory then h l * y (n - l) else 0) = _
  have hcut : cutAt p n = p := if_neg (by omega)
  rw [← Finset.sum_sub_distrib, hcut]
  refine Finset.sum_congr rfl fun l _ => ?_
  rw [if_pos (Nat.zero_le _)]
  by_cases hl : n - l + memory < p
  · rw [if_neg (by omega), if_pos hl]
    ring
  · rw [if_pos (by omega), if_neg hl]
    ring

/-- The response of a proper filter that is not silent ends somewhere. -/
theorem Stage.Proper.endsAt {memory : ℕ} {h : ℕ → R} (hproper : (Stage.filter memory h).Proper)
    (hloud : ¬ (Stage.filter memory h).Silent) : ∃ d, EndsAt h d := by
  obtain ⟨last, hlast⟩ := hproper
  obtain ⟨l, hl⟩ := not_forall.mp hloud
  obtain ⟨d, -, hd⟩ := exists_endsAt hl hlast
  exact ⟨d, hd⟩

variable [NoZeroDivisors R]

/-- The output of a filter ends where input and response end. -/
theorem EndsAt.filter {h x : ℕ → R} {t d : ℕ} (hx : EndsAt x t) (hh : EndsAt h d) (memory : ℕ) :
    EndsAt ((Stage.filter memory h).run (fun _ => 0) x) (t + d) := by
  have hvalue : ∀ n, (Stage.filter memory h).run (fun _ => 0) x n =
      ∑ l ∈ Finset.range (n + 1), h l * x (n - l) := by
    intro n
    show (∑ l ∈ Finset.range (n + 1), if 0 ≤ n - l + memory then h l * x (n - l) else 0) = _
    exact Finset.sum_congr rfl fun l _ => if_pos (Nat.zero_le _)
  constructor
  · rw [hvalue, Finset.sum_eq_single d]
    · rw [show t + d - d = t by omega]
      exact mul_ne_zero hh.1 hx.1
    · intro l _ hl
      rcases Nat.lt_or_gt_of_ne hl with hlt | hgt
      · rw [hx.2 _ (by omega), mul_zero]
      · rw [hh.2 l hgt, zero_mul]
    · intro hout
      exact absurd (Finset.mem_range.mpr (by omega)) hout
  · intro n hn
    rw [hvalue]
    refine Finset.sum_eq_zero fun l _ => ?_
    by_cases hl : d < l
    · rw [hh.2 l hl, zero_mul]
    · rw [hx.2 _ (by omega), mul_zero]

/-- A difference behind the cut survives a filter. -/
theorem EndsAt.sub_filter {h x y : ℕ → R} {p t d : ℕ} (hp : p ≤ t)
    (hxy : EndsAt (fun n => x n - y n) t) (hh : EndsAt h d) (memory : ℕ) :
    EndsAt (fun n => (Stage.filter memory h).run (fun _ => 0) x n -
      (Stage.filter memory h).run (cutAt p) y n) (t + d) := by
  constructor
  · dsimp only
    rw [value_sub_cut memory h x y (by omega), Finset.sum_eq_single d]
    · rw [show t + d - d = t by omega, if_neg (by omega), add_zero]
      exact mul_ne_zero hh.1 hxy.1
    · intro l _ hl
      rcases Nat.lt_or_gt_of_ne hl with hlt | hgt
      · rw [show x (t + d - l) - y (t + d - l) = 0 from hxy.2 _ (by omega), if_neg (by omega),
          mul_zero, add_zero]
      · rw [hh.2 l hgt, zero_mul, zero_mul, ite_self, add_zero]
    · intro hout
      exact absurd (Finset.mem_range.mpr (by omega)) hout
  · intro n hn
    dsimp only
    rw [value_sub_cut memory h x y (by omega)]
    refine Finset.sum_eq_zero fun l _ => ?_
    by_cases hl : d < l
    · rw [hh.2 l hl, zero_mul, zero_mul, ite_self, add_zero]
    · rw [show x (n - l) - y (n - l) = 0 from hxy.2 _ (by omega), if_neg (by omega), mul_zero,
        add_zero]

/-- A filter that does not fit loses the end of its input when the cut is late enough. -/
theorem EndsAt.lost {h x : ℕ → R} {t d memory : ℕ} (hx : EndsAt x t) (hh : EndsAt h d)
    (hd : memory < d) :
    EndsAt (fun n => (Stage.filter memory h).run (fun _ => 0) x n -
      (Stage.filter memory h).run (cutAt (t + memory + 1)) x n) (t + d) := by
  constructor
  · dsimp only
    rw [value_sub_cut memory h x x (by omega), Finset.sum_eq_single d]
    · rw [show t + d - d = t by omega, if_pos (by omega), sub_self, mul_zero, zero_add]
      exact mul_ne_zero hh.1 hx.1
    · intro l _ hl
      rw [sub_self, mul_zero, zero_add]
      rcases Nat.lt_or_gt_of_ne hl with hlt | hgt
      · rw [hx.2 _ (by omega), mul_zero, ite_self]
      · rw [hh.2 l hgt, zero_mul, ite_self]
    · intro hout
      exact absurd (Finset.mem_range.mpr (by omega)) hout
  · intro n hn
    dsimp only
    rw [value_sub_cut memory h x x (by omega)]
    refine Finset.sum_eq_zero fun l _ => ?_
    rw [sub_self, mul_zero, zero_add]
    by_cases hl : d < l
    · rw [hh.2 l hl, zero_mul, ite_self]
    · rw [hx.2 _ (by omega), mul_zero, ite_self]

/-- A signal that ends somewhere still does behind proper stages that are not silent. -/
theorem EndsAt.cascade {stages : List (Stage R)} (hproper : ∀ s ∈ stages, s.Proper)
    (hloud : ∀ s ∈ stages, ¬ s.Silent) {x : ℕ → R} {t : ℕ} (hx : EndsAt x t) :
    ∃ t', EndsAt (Slots.cascade (fun _ => 0) stages x) t' := by
  induction stages generalizing x t with
  | nil => exact ⟨t, hx⟩
  | cons stage stages ih =>
      rw [List.forall_mem_cons] at hproper hloud
      rw [cascade_cons]
      cases stage with
      | factor u =>
          refine ih hproper.2 hloud.2 (t := t) ⟨mul_ne_zero (hproper.1 t) hx.1, fun n hn => ?_⟩
          show u n * x n = 0
          rw [hx.2 n hn, mul_zero]
      | filter memory h =>
          obtain ⟨d, hd⟩ := hproper.1.endsAt hloud.1
          exact ih hproper.2 hloud.2 (hx.filter hd memory)

/-- A difference behind the cut survives proper stages that are not silent. -/
theorem EndsAt.sub_cascade {stages : List (Stage R)} (hproper : ∀ s ∈ stages, s.Proper)
    (hloud : ∀ s ∈ stages, ¬ s.Silent) {x y : ℕ → R} {p t : ℕ} (hp : p ≤ t)
    (hxy : EndsAt (fun n => x n - y n) t) :
    ∃ t', EndsAt (fun n => Slots.cascade (fun _ => 0) stages x n -
      Slots.cascade (cutAt p) stages y n) t' := by
  induction stages generalizing x y t with
  | nil => exact ⟨t, hxy⟩
  | cons stage stages ih =>
      rw [List.forall_mem_cons] at hproper hloud
      simp only [cascade_cons]
      cases stage with
      | factor u =>
          refine ih hproper.2 hloud.2 hp ⟨?_, fun n hn => ?_⟩
          · show u t * x t - u t * y t ≠ 0
            rw [← mul_sub]
            exact mul_ne_zero (hproper.1 t) hxy.1
          · show u n * x n - u n * y n = 0
            rw [← mul_sub, show x n - y n = 0 from hxy.2 n hn, mul_zero]
      | filter memory h =>
          obtain ⟨d, hd⟩ := hproper.1.endsAt hloud.1
          exact ih hproper.2 hloud.2 (Nat.le_add_right_of_le hp) (hxy.sub_filter hp hd memory)

/-- A list with an element that fails `P` has a first one. -/
theorem split_at_first {α : Type*} {P : α → Prop} {l : List α} (h : ¬ ∀ a ∈ l, P a) :
    ∃ first a second, l = first ++ a :: second ∧ (∀ b ∈ first, P b) ∧ ¬ P a := by
  induction l with
  | nil => exact absurd (fun a ha => absurd ha List.not_mem_nil) h
  | cons a l ih =>
      by_cases ha : P a
      · have hrest : ¬ ∀ b ∈ l, P b := fun hl => h (List.forall_mem_cons.mpr ⟨ha, hl⟩)
        obtain ⟨first, b, second, rfl, hfirst, hb⟩ := ih hrest
        exact ⟨a :: first, b, second, rfl, List.forall_mem_cons.mpr ⟨ha, hfirst⟩, hb⟩
      · exact ⟨[], a, l, rfl, fun b hb => absurd hb List.not_mem_nil, ha⟩

/-- **Two cuts differ** when no response is zero and some response outlasts its memory: one slot,
and two slots cut behind the last sample that reaches the first such filter. -/
theorem cuts_differ [Nontrivial R] {stages : List (Stage R)} (hproper : ∀ s ∈ stages, s.Proper)
    (hloud : ∀ s ∈ stages, ¬ s.Silent) (hfit : ¬ ∀ s ∈ stages, s.Fits) :
    ∃ (p : ℕ) (x : ℕ → R) (n : ℕ), cascade (fun _ => 0) stages x n ≠ cascade (cutAt p) stages x n := by
  obtain ⟨first, stage, second, rfl, hfirst, hstage⟩ := split_at_first hfit
  have himpulse : EndsAt (fun n => if n = 0 then (1 : R) else 0) 0 := by
    refine ⟨?_, fun n hn => if_neg (by omega)⟩
    show (if (0 : ℕ) = 0 then (1 : R) else 0) ≠ 0
    rw [if_pos rfl]
    exact one_ne_zero
  have hmem : stage ∈ first ++ stage :: second := List.mem_append_right _ List.mem_cons_self
  have hsecond : ∀ s ∈ second, s ∈ first ++ stage :: second := fun s hs =>
    List.mem_append_right _ (List.mem_cons_of_mem _ hs)
  obtain ⟨t, ht⟩ := himpulse.cascade (fun s hs => hproper s (List.mem_append_left _ hs))
    (fun s hs => hloud s (List.mem_append_left _ hs))
  cases stage with
  | factor u => exact absurd trivial hstage
  | filter memory h =>
      obtain ⟨l, hl⟩ := not_forall.mp hstage
      obtain ⟨hreach, hl⟩ := Classical.not_imp.mp hl
      obtain ⟨last, hlast⟩ := hproper _ hmem
      obtain ⟨d, hld, hd⟩ := exists_endsAt hl hlast
      obtain ⟨n, hn⟩ := (ht.lost hd (by omega : memory < d)).sub_cascade (p := t + memory + 1)
        (fun s hs => hproper s (hsecond s hs)) (fun s hs => hloud s (hsecond s hs)) (by omega)
      refine ⟨t + memory + 1, fun n => if n = 0 then 1 else 0, n, ?_⟩
      rw [cascade_append, cascade_append, cascade_cons, cascade_cons,
        cascade_of_fits (cutAt_le _) hfirst]
      exact fun heq => hn.1 (sub_eq_zero.mpr heq)

end Slots
