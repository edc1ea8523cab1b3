/-
# Computations that may throw

Rules for `Except`: `Ensures P x` says that `x` satisfies `P` when it succeeds, `Settles E P x`
that it throws only what `E` allows besides, and `Matches R x y` that `y` succeeds whenever `x`
does, with related results.  All come with the rules for `pure`, `bind` and the folds, so that a proof about a program follows its text.
-/
import Mathlib

/-- A successful `bind` has a successful first half. -/
theorem bind_eq_ok {ε α β : Type} {x : Except ε α} {f : α → Except ε β} {b : β}
    (h : x >>= f = .ok b) : ∃ a, x = .ok a ∧ f a = .ok b := by
  cases x with
  | error e => cases h
  | ok a => exact ⟨a, rfl, h⟩

/-- Behind a value a computation goes on with it. -/
@[simp] theorem ok_bind {ε α β : Type} (a : α) (f : α → Except ε β) :
    (Except.ok a >>= f) = f a := rfl

/-- Behind an error a computation stops. -/
@[simp] theorem error_bind {ε α β : Type} (e : ε) (f : α → Except ε β) :
    ((Except.error e : Except ε α) >>= f) = .error e := rfl

/-- A computation that returned passed its check. -/
theorem passed_check {ε α : Type} {c : Prop} [Decidable c] {e : ε} {x : Except ε α} {a : α}
    (h : (if c then throw e else x) = .ok a) : ¬c ∧ x = .ok a := by
  by_cases hc : c
  · rw [if_pos hc] at h
    cases h
  · rw [if_neg hc] at h
    exact ⟨hc, h⟩

/-- A map over a sequence is a map over its second part. -/
theorem map_bind_ok {ε α β γ : Type} (f : β → γ) (x : Except ε α) (g : α → Except ε β) :
    (x >>= g).map f = x >>= fun a => (g a).map f := by
  cases x <;> rfl

/-- A check made on both sides: only its branches are to be compared. -/
theorem ite_eq_map {ε α β : Type} {c : Prop} [Decidable c] {f : α → β} {x y : Except ε β}
    {x' y' : Except ε α} (hpos : x = x'.map f) (hneg : y = y'.map f) :
    (if c then x else y) = (if c then x' else y').map f := by
  by_cases hc : c
  · rw [if_pos hc, if_pos hc, hpos]
  · rw [if_neg hc, if_neg hc, hneg]

/-- A successful `mapM` succeeds at every element. -/
theorem mapM_eq_ok {ε α β : Type} {f : α → Except ε β} {l : List α} {bs : List β}
    (h : l.mapM f = .ok bs) : List.Forall₂ (fun b a => f a = .ok b) bs l := by
  induction l generalizing bs with
  | nil =>
      cases h
      exact List.Forall₂.nil
  | cons a l ih =>
      rw [List.mapM_cons] at h
      obtain ⟨b, hb, h⟩ := bind_eq_ok h
      obtain ⟨bs', hbs, h⟩ := bind_eq_ok h
      cases h
      exact List.Forall₂.cons hb (ih hbs)

/-- A loop succeeds when its body succeeds at every element. -/
theorem forM_eq_ok {ε α : Type} {f : α → Except ε PUnit} {l : List α}
    (h : ∀ a ∈ l, f a = .ok ⟨⟩) : l.forM f = .ok ⟨⟩ := by
  induction l with
  | nil => rfl
  | cons a l ih =>
      rw [List.forM, h a List.mem_cons_self]
      exact ih fun b hb => h b (List.mem_cons_of_mem a hb)

/-! ## One computation -/

/-- The result satisfies `P`, if there is one. -/
def Ensures {ε α : Type} (P : α → Prop) (x : Except ε α) : Prop := ∀ a, x = .ok a → P a

namespace Ensures

variable {ε α β : Type} {P : α → Prop} {Q : β → Prop}

/-- A value ensures what it has. -/
theorem pure {a : α} (h : P a) : Ensures P (Pure.pure a : Except ε α) := by
  rintro _ ⟨⟩
  exact h

/-- A throw ensures everything. -/
theorem throw {e : ε} : Ensures P (MonadExcept.throw e : Except ε α) := by
  rintro _ ⟨⟩

/-- What a computation ensures is what the next one may rely on. -/
theorem bind {x : Except ε α} {f : α → Except ε β} (hx : Ensures P x)
    (hf : ∀ a, P a → Ensures Q (f a)) : Ensures Q (x >>= f) := by
  intro b hb
  obtain ⟨a, ha, hfa⟩ := bind_eq_ok hb
  exact hf a (hx a ha) b hfa

/-- A computation ensures what is weaker. -/
theorem mono {P' : α → Prop} {x : Except ε α} (h : Ensures P x) (hP : ∀ a, P a → P' a) :
    Ensures P' x := fun a ha => hP a (h a ha)

/-- An invariant of the step is an invariant of the fold. -/
theorem foldlM {γ : Type} {f : α → γ → Except ε α} {l : List γ} {a : α} (ha : P a)
    (hstep : ∀ c ∈ l, ∀ a, P a → Ensures P (f a c)) : Ensures P (l.foldlM f a) := by
  induction l generalizing a with
  | nil => exact Ensures.pure ha
  | cons c l ih =>
      rw [List.foldlM_cons]
      exact (hstep c List.mem_cons_self a ha).bind fun a' ha' =>
        ih ha' fun c' hc' => hstep c' (List.mem_cons_of_mem c hc')

/-- An invariant that knows the elements that are done. -/
theorem foldlM_done {γ : Type} {f : α → γ → Except ε α} {P : List γ → α → Prop} {l : List γ} {a : α}
    (ha : P [] a)
    (hstep : ∀ done, ∀ c ∈ l, ∀ a, P done a → Ensures (P (done ++ [c])) (f a c)) :
    Ensures (P l) (l.foldlM f a) := by
  suffices hfrom : ∀ done a, P done a → Ensures (P (done ++ l)) (l.foldlM f a) from hfrom [] a ha
  clear ha
  induction l with
  | nil =>
      intro done a ha
      rw [List.append_nil]
      exact Ensures.pure ha
  | cons c l ih =>
      intro done a ha
      rw [List.foldlM_cons, List.append_cons]
      exact (hstep done c List.mem_cons_self a ha).bind fun a' ha' =>
        ih (fun done' c' hc' => hstep done' c' (List.mem_cons_of_mem c hc')) (done ++ [c]) a' ha'

end Ensures

/-- What is thrown satisfies `E`, and a result satisfies `P`. -/
def Settles {ε α : Type} (E : ε → Prop) (P : α → Prop) : Except ε α → Prop
  | .error e => E e
  | .ok a => P a

namespace Settles

variable {ε α β : Type} {E : ε → Prop} {P : α → Prop} {Q : β → Prop}

/-- A sequence settles if its first part does, and the second behind it. -/
theorem bind {x : Except ε α} {f : α → Except ε β} (hx : Settles E P x)
    (hf : ∀ a, P a → Settles E Q (f a)) : Settles E Q (x >>= f) := by
  cases x with
  | error e => exact hx
  | ok a => exact hf a hx

/-- A computation settles to what is weaker. -/
theorem mono {P' : α → Prop} {x : Except ε α} (h : Settles E P x) (hP : ∀ a, P a → P' a) :
    Settles E P' x := by
  cases x with
  | error e => exact h
  | ok a => exact hP a h

/-- Renaming the errors settles on the renamed ones. -/
theorem mapError {ε' : Type} {g : ε' → ε} (hg : ∀ e, E (g e)) {x : Except ε' α}
    (h : ∀ a, x = .ok a → P a) : Settles E P (x.mapError g) := by
  cases x with
  | error e => exact hg e
  | ok a => exact h a rfl

/-- An invariant of the steps that the fold reaches is an invariant of the fold. -/
theorem foldlM {γ : Type} {f : α → γ → Except ε α} {l : List γ} {a : α} (ha : P a)
    (hstep : ∀ pre c post b, l = pre ++ c :: post → pre.foldlM f a = .ok b → P b →
      Settles E P (f b c)) : Settles E P (l.foldlM f a) := by
  induction l generalizing a with
  | nil => exact ha
  | cons c l ih =>
      have hfirst := hstep [] c l a rfl rfl ha
      rw [List.foldlM_cons]
      cases hc : f a c with
      | error e =>
          rw [hc] at hfirst
          exact hfirst
      | ok a' =>
          rw [hc] at hfirst
          refine ih hfirst fun pre d post b hl hb hPb => ?_
          refine hstep (c :: pre) d post b (by rw [hl, List.cons_append]) ?_ hPb
          rw [List.foldlM_cons, hc]
          exact hb

end Settles

/-! ## Two computations -/

/-- Whenever the first succeeds so does the second, with a related result. -/
def Matches {ε α β : Type} (R : α → β → Prop) (x : Except ε α) (y : Except ε β) : Prop :=
  ∀ a, x = .ok a → ∃ b, y = .ok b ∧ R a b

namespace Matches

variable {ε α β α' β' : Type} {R : α → β → Prop} {S : α' → β' → Prop}

/-- Related values match. -/
theorem pure {a : α} {b : β} (h : R a b) :
    Matches R (Pure.pure a : Except ε α) (Pure.pure b) := by
  rintro _ ⟨⟩
  exact ⟨b, rfl, h⟩

/-- A throw matches everything. -/
theorem throw {e : ε} {y : Except ε β} : Matches R (MonadExcept.throw e : Except ε α) y := by
  rintro _ ⟨⟩

/-- Sequences match if their parts do. -/
theorem bind {x : Except ε α} {y : Except ε β} {f : α → Except ε α'} {g : β → Except ε β'}
    (hxy : Matches R x y) (hfg : ∀ a b, R a b → Matches S (f a) (g b)) :
    Matches S (x >>= f) (y >>= g) := by
  intro a' ha'
  obtain ⟨a, ha, hfa⟩ := bind_eq_ok ha'
  obtain ⟨b, hb, hR⟩ := hxy a ha
  obtain ⟨b', hb', hS⟩ := hfg a b hR a' hfa
  exact ⟨b', by rw [hb]; exact hb', hS⟩

/-- Computations match in what is weaker. -/
theorem mono {R' : α → β → Prop} {x : Except ε α} {y : Except ε β} (h : Matches R x y)
    (hR : ∀ a b, R a b → R' a b) : Matches R' x y := by
  intro a ha
  obtain ⟨b, hb, hab⟩ := h a ha
  exact ⟨b, hb, hR a b hab⟩

/-- A relation kept by every pair of steps is kept by the folds over one list. -/
theorem foldlM {γ : Type} {f : α → γ → Except ε α} {g : β → γ → Except ε β} {l : List γ} {a : α}
    {b : β} (hab : R a b) (hstep : ∀ c ∈ l, ∀ a b, R a b → Matches R (f a c) (g b c)) :
    Matches R (l.foldlM f a) (l.foldlM g b) := by
  induction l generalizing a b with
  | nil => exact Matches.pure hab
  | cons c l ih =>
      rw [List.foldlM_cons, List.foldlM_cons]
      exact (hstep c List.mem_cons_self a b hab).bind fun a' b' hab' =>
        ih hab' fun c' hc' => hstep c' (List.mem_cons_of_mem c hc')

end Matches
