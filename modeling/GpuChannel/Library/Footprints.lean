/-
# Footprints

A footprint is the part of a state that a step reads and writes, given by the operation that carries
this part over from one state to another.  Steps whose footprints are apart commute, and in every
interleaving of the steps of several owners each owner sees what it would see alone.
-/
import GpuChannel.Library.Run

/-- **A part of a state**: `put a b` is `a` with this part as `b` has it. -/
structure Footprint (σ : Type) where
  put : σ → σ → σ
  put_self : ∀ a, put a a = a
  put_put : ∀ a b c, put (put a b) c = put a c
  put_of_put : ∀ a b c, put a (put b c) = put a c

namespace Footprint

variable {σ α β ε : Type} (P Q : Footprint σ)

/-- The two parts have nothing in common. -/
def Apart : Prop := ∀ a b c, Q.put (P.put a b) c = P.put (Q.put a c) b

/-- The condition is one on this part alone. -/
def Concerns (I : σ → Prop) : Prop := ∀ a b, I (P.put a b) ↔ I b

/-- **A step that works on its part**, in the states of `I`. -/
structure Local (I : σ → Prop) (f : σ → Except ε (σ × α)) : Prop where
  frame : ∀ a b, I b → f (P.put a b) = (f b).map fun r => (P.put a r.1, r.2)
  keeps : ∀ b r, I b → f b = .ok r → I r.1

variable {P Q} {I J : σ → Prop} {f : σ → Except ε (σ × α)} {g : σ → Except ε (σ × β)}

theorem Apart.symm (h : P.Apart Q) : Q.Apart P := fun a b c => (h a c b).symm

/-- A change of one part is not seen in the other. -/
theorem Apart.put_other (h : P.Apart Q) (t s b : σ) : P.put t (Q.put s b) = P.put t s := by
  have hback : Q.put s b = P.put (Q.put s b) s := by
    rw [← h s s b, P.put_self]
  rw [hback, P.put_of_put]

namespace Local

/-- What is beside the part stays as it is. -/
theorem outside (h : P.Local I f) {s t : σ} {x : α} (hs : I s) (hf : f s = .ok (t, x)) :
    P.put s t = t := by
  have hframe := h.frame s s hs
  rw [P.put_self, hf] at hframe
  exact (Prod.ext_iff.mp (Except.ok.inj hframe)).1.symm

/-- A state that agrees on the part takes the same step. -/
theorem carried (h : P.Local I f) {a b t : σ} {x : α} (hb : I b) (hagree : P.put a b = a)
    (hf : f b = .ok (t, x)) : f a = .ok (P.put a t, x) := by
  have hframe := h.frame a b hb
  rw [hagree, hf] at hframe
  exact hframe

/-- **Steps on parts that are apart commute.** -/
theorem commute (hP : P.Local I f) (hQ : Q.Local J g) (hapart : P.Apart Q) {s s₁ s₂ : σ} {x : α}
    {y : β} (hI : I s) (hJ : J s) (hf : f s = .ok (s₁, x)) (hg : g s₁ = .ok (s₂, y)) :
    ∃ t, g s = .ok (t, y) ∧ f t = .ok (s₂, x) := by
  have hs₁ : P.put s s₁ = s₁ := hP.outside hI hf
  have hagree : Q.put s₁ s = s₁ := by
    calc Q.put s₁ s = Q.put (P.put s s₁) s := by rw [hs₁]
      _ = P.put (Q.put s s) s₁ := hapart s s₁ s
      _ = s₁ := by rw [Q.put_self, hs₁]
  -- the first step left the part of the second alone, which therefore goes through from `s`
  have hframe := hQ.frame s₁ s hJ
  rw [hagree, hg] at hframe
  cases hgs : g s with
  | error e =>
      rw [hgs] at hframe
      cases hframe
  | ok r =>
      obtain ⟨t, y'⟩ := r
      rw [hgs] at hframe
      obtain ⟨hs₂, rfl⟩ := Prod.ext_iff.mp (Except.ok.inj hframe)
      dsimp only at hs₂
      refine ⟨t, rfl, ?_⟩
      have ht : Q.put s t = t := hQ.outside hJ hgs
      have hback : P.put t s = t := by
        calc P.put t s = P.put (Q.put s t) s := by rw [ht]
          _ = Q.put (P.put s s) t := (hapart s s t).symm
          _ = t := by rw [P.put_self, ht]
      rw [hP.carried hI hback hf]
      -- both orders end with the two parts as each step left its own
      have hlast : P.put t s₁ = s₂ := by
        calc P.put t s₁ = P.put (Q.put s t) s₁ := by rw [ht]
          _ = Q.put (P.put s s₁) t := (hapart s s₁ t).symm
          _ = s₂ := by rw [hs₁, hs₂]
      rw [hlast]

end Local

/-! ## Parts of a table -/

section Tables

variable {κ : Type}

open scoped Classical in
/-- The keys `S` from `g`, the others from `f`. -/
noncomputable def carry (S : Set κ) (f g : κ → α) : κ → α := S.piecewise g f

variable {S T : Set κ} {f g h : κ → α} {k : κ}

open scoped Classical in
theorem carry_of_mem (hk : k ∈ S) : carry S f g k = g k := by
  unfold carry
  exact Set.piecewise_eq_of_mem _ _ _ hk

open scoped Classical in
theorem carry_of_notMem (hk : k ∉ S) : carry S f g k = f k := by
  unfold carry
  exact Set.piecewise_eq_of_notMem _ _ _ hk

theorem carry_self (S : Set κ) (f : κ → α) : carry S f f = f := by
  funext k
  by_cases hk : k ∈ S
  · exact carry_of_mem hk
  · exact carry_of_notMem hk

theorem carry_carry (S : Set κ) (f g h : κ → α) : carry S (carry S f g) h = carry S f h := by
  funext k
  by_cases hk : k ∈ S
  · rw [carry_of_mem hk, carry_of_mem hk]
  · rw [carry_of_notMem hk, carry_of_notMem hk, carry_of_notMem hk]

theorem carry_of_carry (S : Set κ) (f g h : κ → α) : carry S f (carry S g h) = carry S f h := by
  funext k
  by_cases hk : k ∈ S
  · rw [carry_of_mem hk, carry_of_mem hk, carry_of_mem hk]
  · rw [carry_of_notMem hk, carry_of_notMem hk]

theorem carry_comm (hdisjoint : Disjoint S T) (f g h : κ → α) :
    carry T (carry S f g) h = carry S (carry T f h) g := by
  funext k
  by_cases hS : k ∈ S
  · have hT : k ∉ T := Set.disjoint_left.mp hdisjoint hS
    rw [carry_of_notMem hT, carry_of_mem hS, carry_of_mem hS]
  · by_cases hT : k ∈ T
    · rw [carry_of_mem hT, carry_of_notMem hS, carry_of_mem hT]
    · rw [carry_of_notMem hT, carry_of_notMem hS, carry_of_notMem hS, carry_of_notMem hT]

/-- A write inside the part is carried along. -/
theorem update_carry [DecidableEq κ] (hk : k ∈ S) (f g : κ → α) (v : α) :
    Function.update (carry S f g) k v = carry S f (Function.update g k v) := by
  funext k'
  by_cases hk' : k' = k
  · subst hk'
    rw [Function.update_self, carry_of_mem hk, Function.update_self]
  · rw [Function.update_of_ne hk']
    by_cases hS : k' ∈ S
    · rw [carry_of_mem hS, carry_of_mem hS, Function.update_of_ne hk']
    · rw [carry_of_notMem hS, carry_of_notMem hS]

end Tables

/-! ## Interleavings -/

section Owners

variable {ι E : Type} [DecidableEq ι]

/-- **Owners**: every event works on the part of its owner, and no two owners share anything. -/
structure Owners (share : ι → Footprint σ) (I : ι → σ → Prop) (owner : E → ι)
    (step : σ → E → Except ε (σ × α)) (C : E → Prop) : Prop where
  apart : ∀ i j, i ≠ j → (share i).Apart (share j)
  concerns : ∀ i, (share i).Concerns (I i)
  isLocal : ∀ e, C e → (share (owner e)).Local (I (owner e)) fun s => step s e

/-- The events of one owner. -/
def own (owner : E → ι) (i : ι) (es : List E) : List E := es.filter fun e => owner e = i

/-- What one owner saw. -/
def ownSeen (owner : E → ι) (i : ι) (es : List E) (seen : List α) : List α :=
  ((es.zip seen).filter fun e => owner e.1 = i).map (·.2)

variable {share : ι → Footprint σ} {I : ι → σ → Prop} {owner : E → ι}
  {step : σ → E → Except ε (σ × α)} {C : E → Prop}

/-- No step disturbs the conditions of any owner. -/
theorem Owners.keeps (h : Owners share I owner step C) {s t : σ} {e : E} {x : α} (hC : C e)
    (hinit : ∀ i, I i s) (hstep : step s e = .ok (t, x)) (i : ι) : I i t := by
  by_cases hi : owner e = i
  · subst hi
    exact (h.isLocal e hC).keeps s (t, x) (hinit _) hstep
  · have hlocal := h.isLocal e hC
    rw [← hlocal.outside (hinit _) hstep]
    have hapart := h.apart _ _ hi
    rw [show (share (owner e)).put s t = (share i).put ((share (owner e)).put s t) s by
      rw [hapart s t s, (share i).put_self]]
    exact (h.concerns i _ _).mpr (hinit i)

/-- **An owner sees what it would see alone**, wherever its part is as in the run. -/
theorem Owners.trace_alone (h : Owners share I owner step C) {es : List E} (hC : ∀ e ∈ es, C e)
    {s s' : σ} {seen : List α} (hinit : ∀ i, I i s) (hrun : Run.trace step s es = .ok (s', seen))
    (i : ι) {t : σ} (hagree : (share i).put t s = t) :
    ∃ t', Run.trace step t (own owner i es) = .ok (t', ownSeen owner i es seen) ∧
      (share i).put t' s' = t' := by
  induction es generalizing s t seen with
  | nil =>
      cases hrun
      exact ⟨t, rfl, hagree⟩
  | cons e es ih =>
      rw [List.forall_mem_cons] at hC
      obtain ⟨mid, x, seen', hstep, hrest, rfl⟩ := Run.trace_cons_eq_ok.mp hrun
      have hlocal := h.isLocal e hC.1
      have hmid := h.keeps hC.1 hinit hstep
      unfold own ownSeen
      rw [List.zip_cons_cons]
      by_cases hi : owner e = i
      · subst hi
        rw [List.filter_cons_of_pos (by simp), List.filter_cons_of_pos (by simp), List.map_cons]
        have hsame : (share (owner e)).put ((share (owner e)).put t mid) mid =
            (share (owner e)).put t mid := (share (owner e)).put_put t mid mid
        obtain ⟨t', htrace, hlast⟩ := ih hC.2 hmid hrest hsame
        refine ⟨t', Run.trace_cons_eq_ok.mpr ⟨_, x, _, ?_, htrace, rfl⟩, hlast⟩
        exact hlocal.carried (hinit _) hagree hstep
      · rw [List.filter_cons_of_neg (by simpa using hi), List.filter_cons_of_neg (by simpa using hi)]
        refine ih hC.2 hmid hrest ?_
        rw [← hlocal.outside (hinit _) hstep, (h.apart _ _ hi).symm.put_other, hagree]

/-- **Owners that get through alone get through together.** -/
theorem Owners.trace_of_alone (h : Owners share I owner step C) {es : List E} (hC : ∀ e ∈ es, C e)
    {s : σ} (hinit : ∀ i, I i s) (halone : ∀ i, ∃ t t' seen, (share i).put t s = t ∧ I i t ∧
      Run.trace step t (own owner i es) = .ok (t', seen)) :
    ∃ s' seen, Run.trace step s es = .ok (s', seen) := by
  induction es generalizing s with
  | nil => exact ⟨s, [], rfl⟩
  | cons e es ih =>
      rw [List.forall_mem_cons] at hC
      have hlocal := h.isLocal e hC.1
      -- the first event is also the first one of its owner
      obtain ⟨t, t', seen, hagree, ht, htrace⟩ := halone (owner e)
      unfold own at htrace
      rw [List.filter_cons_of_pos (by simp)] at htrace
      obtain ⟨mid, x, seen', hstep, hrest, rfl⟩ := Run.trace_cons_eq_ok.mp htrace
      have hback : (share (owner e)).put s t = s := by
        rw [← hagree, (share (owner e)).put_of_put, (share (owner e)).put_self]
      have hstep' := hlocal.carried ht hback hstep
      have hnext : ∀ i, ∃ t t' seen, (share i).put t ((share (owner e)).put s mid) = t ∧ I i t ∧
          Run.trace step t (own owner i es) = .ok (t', seen) := by
        intro i
        by_cases hi : owner e = i
        · subst hi
          refine ⟨mid, t', seen', ?_, hlocal.keeps t (mid, x) ht hstep, hrest⟩
          rw [(share (owner e)).put_of_put, (share (owner e)).put_self]
        · obtain ⟨u, u', seenU, hagreeU, hu, htraceU⟩ := halone i
          unfold own at htraceU
          rw [List.filter_cons_of_neg (by simpa using hi)] at htraceU
          refine ⟨u, u', seenU, ?_, hu, htraceU⟩
          rw [(h.apart _ _ hi).symm.put_other, hagreeU]
      obtain ⟨s', seen, hrun⟩ := ih hC.2 (h.keeps hC.1 hinit hstep') hnext
      exact ⟨s', x :: seen, Run.trace_cons_eq_ok.mpr ⟨_, x, seen, hstep', hrun, rfl⟩⟩

end Owners

end Footprint
