/-
# Runs of a deterministic step function

A system is given by `step : S → A → S`, where an action carries everything the
environment decides, and a run is a left fold of `step` over a list of actions.
This file holds the induction rules the rest of the development uses by name:
invariants, invariants under a condition met by every step, and simulations.
-/
import GpuChannel.Library.Checked

namespace Run

variable {S A S' A' : Type*}

/-! ## Invariants -/

/-- A property that holds initially and is kept by every step holds after every run. -/
theorem invariant {step : S → A → S} {I : S → Prop} (hstep : ∀ s a, I s → I (step s a))
    {s : S} (hinit : I s) (as : List A) : I (as.foldl step s) := by
  induction as generalizing s with
  | nil => exact hinit
  | cons a as ih => exact ih (hstep s a hinit)

/-- **Conditional runs.** Every step of the run meets `C` in the state it is taken from. -/
def Meets (step : S → A → S) (C : S → A → Prop) : S → List A → Prop
  | _, [] => True
  | s, a :: as => C s a ∧ Meets step C (step s a) as

instance Meets.decidable (step : S → A → S) (C : S → A → Prop) [∀ s a, Decidable (C s a)] :
    ∀ s as, Decidable (Meets step C s as)
  | _, [] => .isTrue trivial
  | s, a :: as =>
      have := Meets.decidable step C (step s a) as
      inferInstanceAs (Decidable (_ ∧ _))

@[simp] theorem meets_nil (step : S → A → S) (C : S → A → Prop) (s : S) :
    Meets step C s [] := trivial

@[simp] theorem meets_cons (step : S → A → S) (C : S → A → Prop) (s : S) (a : A)
    (as : List A) : Meets step C s (a :: as) ↔ C s a ∧ Meets step C (step s a) as := Iff.rfl

/-- A property kept by every step that meets the condition holds after every
run whose steps all meet it. -/
theorem Meets.invariant {step : S → A → S} {C : S → A → Prop} {I : S → Prop}
    (hstep : ∀ s a, I s → C s a → I (step s a)) {s : S} {as : List A}
    (hC : Meets step C s as) (hinit : I s) : I (as.foldl step s) := by
  induction as generalizing s with
  | nil => exact hinit
  | cons a as ih => exact ih hC.2 (hstep s a hinit hC.1)

/-- **Exact conditions.** When a step from a state of the invariant keeps `P` exactly if it meets
the condition, a run keeps `P` exactly if all its steps do. -/
theorem Meets.iff {step : S → A → S} {C : S → A → Prop} {I P : S → Prop}
    (hinv : ∀ s a, I s → I (step s a)) (hstep : ∀ s a, I s → (P (step s a) ↔ P s ∧ C s a)) {s : S}
    (hinit : I s) (as : List A) : P (as.foldl step s) ↔ P s ∧ Meets step C s as := by
  induction as generalizing s with
  | nil => exact ⟨fun h => ⟨h, trivial⟩, fun h => h.1⟩
  | cons a as ih =>
      rw [List.foldl_cons, ih (hinv s a hinit), hstep s a hinit, meets_cons, and_assoc]

/-! ## Simulations -/

/-- **Forward simulation.** When every step of the first system is answered by
some run of the second that restores `R`, every run is. -/
theorem simulation {step : S → A → S} {step' : S' → A' → S'} {R : S → S' → Prop}
    (hstep : ∀ s s' a, R s s' → ∃ bs : List A', R (step s a) (bs.foldl step' s'))
    {s : S} {s' : S'} (hinit : R s s') (as : List A) :
    ∃ bs : List A', R (as.foldl step s) (bs.foldl step' s') := by
  induction as generalizing s s' with
  | nil => exact ⟨[], hinit⟩
  | cons a as ih =>
      obtain ⟨bs, hbs⟩ := hstep s s' a hinit
      obtain ⟨cs, hcs⟩ := ih hbs
      exact ⟨bs ++ cs, by rw [List.foldl_append]; exact hcs⟩

/-! ## Runs that may fail -/

section Traces

variable {S A S' ε O O' : Type}

/-- **The run of a step that may fail**, with what each step shows. -/
def trace (step : S → A → Except ε (S × O)) : S → List A → Except ε (S × List O)
  | s, [] => .ok (s, [])
  | s, a :: as => do
      let taken ← step s a
      let rest ← trace step taken.1 as
      pure (rest.1, taken.2 :: rest.2)

theorem trace_cons_eq_ok {step : S → A → Except ε (S × O)} {s t : S} {a : A} {as : List A}
    {os : List O} : trace step s (a :: as) = .ok (t, os) ↔
      ∃ mid o os', step s a = .ok (mid, o) ∧ trace step mid as = .ok (t, os') ∧ os = o :: os' := by
  constructor
  · intro h
    obtain ⟨⟨mid, o⟩, htaken, h⟩ := bind_eq_ok h
    obtain ⟨⟨last, os'⟩, hrest, h⟩ := bind_eq_ok h
    cases h
    exact ⟨mid, o, os', htaken, hrest, rfl⟩
  · rintro ⟨mid, o, os', htaken, hrest, rfl⟩
    rw [trace, htaken, ok_bind, hrest, ok_bind]
    rfl

/-- **Simulation with observations.** When every step of the first system that succeeds is answered
by a step of the second, which shows the same up to `f` and restores `R`, so is every run. -/
theorem trace_simulation {step : S → A → Except ε (S × O)} {step' : S' → A → Except ε (S' × O')}
    {R : S → S' → Prop} {C : A → Prop} {f : O → O'}
    (hstep : ∀ s s' a t o, R s s' → C a → step s a = .ok (t, o) →
      ∃ t', step' s' a = .ok (t', f o) ∧ R t t')
    {s t : S} {s' : S'} {as : List A} {os : List O} (hinit : R s s') (hC : ∀ a ∈ as, C a)
    (hrun : trace step s as = .ok (t, os)) :
    ∃ t', trace step' s' as = .ok (t', os.map f) ∧ R t t' := by
  induction as generalizing s s' os with
  | nil =>
      cases hrun
      exact ⟨s', rfl, hinit⟩
  | cons a as ih =>
      rw [List.forall_mem_cons] at hC
      obtain ⟨mid, o, os', htaken, hrest, rfl⟩ := trace_cons_eq_ok.mp hrun
      obtain ⟨mid', htaken', hmid⟩ := hstep s s' a mid o hinit hC.1 htaken
      obtain ⟨t', hrest', hlast⟩ := ih hmid hC.2 hrest
      exact ⟨t', trace_cons_eq_ok.mpr ⟨mid', f o, os'.map f, htaken', hrest', rfl⟩, hlast⟩

/-- **Invariants of runs that may fail.** -/
theorem trace_invariant {step : S → A → Except ε (S × O)} {I : S → Prop} {C : A → Prop}
    (hstep : ∀ s a t o, I s → C a → step s a = .ok (t, o) → I t) {s t : S} {as : List A}
    {os : List O} (hinit : I s) (hC : ∀ a ∈ as, C a) (hrun : trace step s as = .ok (t, os)) :
    I t := by
  induction as generalizing s os with
  | nil =>
      cases hrun
      exact hinit
  | cons a as ih =>
      rw [List.forall_mem_cons] at hC
      obtain ⟨mid, o, os', htaken, hrest, rfl⟩ := trace_cons_eq_ok.mp hrun
      exact ih (hstep s a mid o hinit hC.1 htaken) hC.2 hrest

end Traces

end Run
