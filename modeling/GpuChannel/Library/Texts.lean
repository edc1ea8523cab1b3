/-
# Texts joined from parts

When two joined texts read the same: at a separator that the parts may contain, before a
decimal number, and before a suffix without the separator.
-/
import Mathlib

namespace Texts

/-! ## Lists of characters -/

/-- A separator can only move into a part that contains it. -/
theorem append_cons_eq_iff {α : Type*} {s : α} {a b a' b' : List α} :
    a ++ s :: b = a' ++ s :: b' ↔ (a = a' ∧ b = b') ∨
      (∃ x, a' = a ++ s :: x ∧ b = x ++ s :: b') ∨ ∃ x, a = a' ++ s :: x ∧ b' = x ++ s :: b := by
  constructor
  · intro h
    rcases List.append_eq_append_iff.mp h with ⟨as, ha, hb⟩ | ⟨as, ha, hb⟩
    · cases as with
      | nil =>
          rw [List.append_nil] at ha
          exact Or.inl ⟨ha.symm, (List.cons.inj hb).2⟩
      | cons c x =>
          obtain ⟨rfl, htail⟩ := List.cons.inj hb
          exact Or.inr (Or.inl ⟨x, ha, htail⟩)
    · cases as with
      | nil =>
          rw [List.append_nil] at ha
          exact Or.inl ⟨ha, (List.cons.inj hb).2.symm⟩
      | cons c x =>
          obtain ⟨rfl, htail⟩ := List.cons.inj hb
          exact Or.inr (Or.inr ⟨x, ha, htail⟩)
  · rintro (⟨rfl, rfl⟩ | ⟨x, rfl, rfl⟩ | ⟨x, rfl, rfl⟩)
    · rfl
    · simp
    · simp

/-- The part after the last entry outside `p` is determined by the whole. -/
theorem append_cons_inj {α : Type*} {p : α → Prop} {s s' : α} {a b a' b' : List α} (hs : ¬ p s)
    (hs' : ¬ p s') (hb : ∀ c ∈ b, p c) (hb' : ∀ c ∈ b', p c) (h : a ++ s :: b = a' ++ s' :: b') :
    a = a' ∧ s = s' ∧ b = b' := by
  rcases List.append_eq_append_iff.mp h with ⟨as, ha, htail⟩ | ⟨as, ha, htail⟩
  · cases as with
    | nil =>
        rw [List.append_nil] at ha
        exact ⟨ha.symm, List.cons.inj htail⟩
    | cons c x =>
        obtain ⟨-, rfl⟩ := List.cons.inj htail
        exact absurd (hb s' (List.mem_append_right x List.mem_cons_self)) hs'
  · cases as with
    | nil =>
        rw [List.append_nil] at ha
        obtain ⟨rfl, rfl⟩ := List.cons.inj htail
        exact ⟨ha, rfl, rfl⟩
    | cons c x =>
        obtain ⟨-, rfl⟩ := List.cons.inj htail
        exact absurd (hb' s (List.mem_append_right x List.mem_cons_self)) hs

/-! ## Separators -/

/-- **Two readings** of one text at a separator: the halves agree, or the separator occurs
inside one of them. -/
def Resplit (sep a b a' b' : String) : Prop :=
  (a = a' ∧ b = b') ∨ (∃ x, a' = a ++ sep ++ x ∧ b = x ++ sep ++ b') ∨
    ∃ x, a = a' ++ sep ++ x ∧ b' = x ++ sep ++ b

theorem append_eq_append_iff_resplit {sep : String} {c : Char} (hsep : sep.toList = [c])
    {a b a' b' : String} : a ++ sep ++ b = a' ++ sep ++ b' ↔ Resplit sep a b a' b' := by
  have hlist : ∀ x y z : String, x = y ++ sep ++ z ↔ x.toList = y.toList ++ c :: z.toList := by
    intro x y z
    rw [← String.toList_inj, String.toList_append, String.toList_append, hsep,
      List.append_assoc, List.singleton_append]
  rw [hlist, String.toList_append, String.toList_append, hsep, List.append_assoc,
    List.singleton_append, append_cons_eq_iff, String.toList_inj, String.toList_inj]
  unfold Resplit
  simp only [hlist]
  constructor
  · rintro (h | ⟨x, h⟩ | ⟨x, h⟩)
    · exact Or.inl h
    · exact Or.inr (Or.inl ⟨String.ofList x, by simpa using h⟩)
    · exact Or.inr (Or.inr ⟨String.ofList x, by simpa using h⟩)
  · rintro (h | ⟨x, h⟩ | ⟨x, h⟩)
    · exact Or.inl h
    · exact Or.inr (Or.inl ⟨x.toList, h⟩)
    · exact Or.inr (Or.inr ⟨x.toList, h⟩)

/-- A suffix without the separator lies behind the separator. -/
theorem append_eq_append_suffix_iff {sep : String} {c : Char} (hsep : sep.toList = [c])
    {a b n suffix : String} (hsuffix : c ∉ suffix.toList) :
    a ++ sep ++ b = n ++ suffix ↔ ∃ y, b = y ++ suffix ∧ n = a ++ sep ++ y := by
  constructor
  · intro h
    have hlist : a.toList ++ c :: b.toList = n.toList ++ suffix.toList := by
      have := congrArg String.toList h
      rwa [String.toList_append, String.toList_append, String.toList_append, hsep,
        List.append_assoc, List.singleton_append] at this
    rcases List.append_eq_append_iff.mp hlist with ⟨as, hn, htail⟩ | ⟨as, -, htail⟩
    · cases as with
      | nil => exact absurd (by rw [← List.nil_append suffix.toList, ← htail]; simp) hsuffix
      | cons d y =>
          obtain ⟨rfl, hb⟩ := List.cons.inj htail
          refine ⟨String.ofList y, ?_, ?_⟩
          · rw [← String.toList_inj, String.toList_append, String.toList_ofList, hb]
            rfl
          · rw [← String.toList_inj, String.toList_append, String.toList_append,
              String.toList_ofList, hsep, hn, List.append_assoc, List.singleton_append]
    · exact absurd (by rw [htail]; simp) hsuffix
  · rintro ⟨y, rfl, rfl⟩
    simp only [String.append_assoc]

/-! ## Numbers at the end -/

theorem toString_nat_inj {m n : ℕ} (h : toString m = toString n) : m = n := by
  have hdigits := congrArg (fun s : String => Nat.ofDigitChars 10 s.toList 0) h
  simpa [Nat.toString_eq_ofList_toDigits] using hdigits

theorem isDigit_of_mem_toString {n : ℕ} {c : Char} (h : c ∈ (toString n).toList) :
    c.isDigit = true := by
  rw [Nat.toString_eq_ofList_toDigits, String.toList_ofList] at h
  exact Nat.isDigit_of_mem_toDigits (by decide) (by decide) h

/-- **A number at the end** of a text, behind a character that is no digit, can be read off. -/
theorem append_number_inj {a a' sep sep' : String} {c d : Char} {m n : ℕ}
    (hsep : sep.toList = [c]) (hsep' : sep'.toList = [d]) (hc : c.isDigit = false)
    (hd : d.isDigit = false) (h : a ++ sep ++ toString m = a' ++ sep' ++ toString n) :
    a = a' ∧ c = d ∧ m = n := by
  have hlist := congrArg String.toList h
  rw [String.toList_append, String.toList_append, String.toList_append, String.toList_append, hsep,
    hsep', List.append_assoc, List.append_assoc, List.singleton_append,
    List.singleton_append] at hlist
  obtain ⟨ha, hcd, hmn⟩ := append_cons_inj (p := fun c => c.isDigit = true) (by simp [hc])
    (by simp [hd]) (fun _ hmem => isDigit_of_mem_toString hmem)
    (fun _ hmem => isDigit_of_mem_toString hmem) hlist
  exact ⟨String.toList_inj.mp ha, hcd, toString_nat_inj (String.toList_inj.mp hmn)⟩

/-- A text that ends with a number does not end with a character that is no digit. -/
theorem append_ne_number {a b sep : String} {c : Char} {n : ℕ} (hsep : sep.toList = [c])
    (hc : c.isDigit = false) : a ++ sep ≠ b ++ toString n := by
  intro h
  have hlast := congrArg (fun s : String => s.toList.getLast?) h
  simp only [String.toList_append, hsep, List.getLast?_append, List.getLast?_singleton,
    Option.some_or] at hlast
  cases hdigit : (toString n).toList.getLast? with
  | none =>
      rw [List.getLast?_eq_none_iff, Nat.toString_eq_ofList_toDigits, String.toList_ofList] at hdigit
      exact absurd hdigit (List.length_pos_iff.mp Nat.length_toDigits_pos)
  | some d =>
      rw [hdigit, Option.some_or, Option.some.injEq] at hlast
      have := isDigit_of_mem_toString (List.mem_of_getLast? hdigit)
      rw [← hlast, hc] at this
      exact absurd this Bool.false_ne_true

end Texts
