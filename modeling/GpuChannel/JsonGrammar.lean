/-
# The grammar of requests

The JSON objects that the control server supports, as a grammar over characters: strings with the
escapes of the quote, the backslash and `n`, numbers, `true` and `false`, nested objects and arrays.

A text is first cut into its shape, in which a number is any run of number characters and a string
any characters up to the closing quote; the lexemes of the shape are then JSON, or readable, or
both.  The shape of a text is unique, and the reader follows it.
-/
import GpuChannel.JsonReader
import GpuChannel.Library.Checked

open JsonReader

/-! ## Numbers -/

/-- **A JSON number**: `-? int frac? exp?`. -/
structure JsonNumber where
  minus : Bool
  whole : List Char
  fraction : Option (List Char)
  /-- the letter, the sign and the digits -/
  exponent : Option (Char × List Char × List Char)
  whole_digits : whole ≠ [] ∧ ∀ c ∈ whole, c.isDigit = true
  no_leading_zero : whole.head? = some '0' → whole = ['0']
  fraction_digits : ∀ f ∈ fraction, f ≠ [] ∧ ∀ c ∈ f, c.isDigit = true
  exponent_ok : ∀ e ∈ exponent, (e.1 = 'e' ∨ e.1 = 'E') ∧
    (e.2.1 = [] ∨ e.2.1 = ['+'] ∨ e.2.1 = ['-']) ∧ e.2.2 ≠ [] ∧ ∀ c ∈ e.2.2, c.isDigit = true

namespace JsonNumber

/-- Fraction and exponent as written. -/
def exponentText (n : JsonNumber) : List Char :=
  n.exponent.elim [] fun e => e.1 :: (e.2.1 ++ e.2.2)

def text (n : JsonNumber) : List Char :=
  (if n.minus then ['-'] else []) ++ (n.whole ++ (n.fraction.elim [] ('.' :: ·) ++ n.exponentText))

def exponentValue (n : JsonNumber) : ℤ :=
  n.exponent.elim 0 fun e => if e.2.1 = ['-'] then -decimalValue e.2.2 else decimalValue e.2.2

/-- Digits and exponent without the sign. -/
def magnitude {K : Type} [Field K] (n : JsonNumber) : K :=
  decimalValue (n.whole ++ n.fraction.getD []) *
    10 ^ (n.exponentValue - (n.fraction.getD []).length)

/-- The number that is denoted. -/
def value {K : Type} [Field K] (n : JsonNumber) : K :=
  if n.minus then -n.magnitude else n.magnitude

end JsonNumber

section Grammar

variable {K : Type} [Field K]

/-- The complete token denotes the value. -/
def Denotes (token : List Char) (v : K) : Prop := ∃ n : JsonNumber, n.text = token ∧ n.value = v

/-! ## Shapes -/

def IsWs (cs : List Char) : Prop := ∀ c ∈ cs, c = ' ' ∨ c = '\t' ∨ c = '\n' ∨ c = '\r'

/-- The inside of a string: its text, what it stands for and its unescaped characters. -/
inductive IsChars : List Char → List Char → List Char → Prop
  | nil : IsChars [] [] []
  | bare {c : Char} {t s b : List Char} (hquote : c ≠ quote) (hback : c ≠ backslash)
      (h : IsChars t s b) : IsChars (c :: t) (c :: s) (c :: b)
  | escaped {e d : Char} {t s b : List Char}
      (hpair : (e, d) ∈ [(quote, quote), (backslash, backslash), ('n', '\n')])
      (h : IsChars t s b) : IsChars (backslash :: e :: t) (d :: s) b

/-- What the shape leaves open: a number with the value given to it, a string with its unescaped
characters. -/
inductive Lexeme (K : Type)
  | number (token : List Char) (v : K)
  | string (bare : List Char)

mutual

/-- **A value**, without the white space around it. -/
inductive IsValue : List Char → JsonValue K → List (Lexeme K) → Prop
  | string {t s b : List Char} (h : IsChars t s b) :
      IsValue (quote :: (t ++ [quote])) (.string (String.ofList s)) [.string b]
  | number {t : List Char} {v : K} (hne : t ≠ []) (h : ∀ c ∈ t, isNum c = true) :
      IsValue t (.number v) [.number t v]
  | true : IsValue "true".toList (.bool true) []
  | false : IsValue "false".toList (.bool false) []
  | object {t : List Char} {fields : JsonObject K} {l : List (Lexeme K)}
      (h : IsMembers false t fields l) : IsValue ('{' :: (t ++ ['}'])) (.object fields) l
  | array {t : List Char} {items : List (JsonValue K)} {l : List (Lexeme K)}
      (h : IsItems false t items l) : IsValue ('[' :: (t ++ [']'])) (.array items) l

/-- The members of an object; `more` behind a comma. -/
inductive IsMembers : Bool → List Char → JsonObject K → List (Lexeme K) → Prop
  | none {w : List Char} (hw : IsWs w) : IsMembers false w [] []
  | last {more : Bool} {t : List Char} {key : String} {v : JsonValue K} {l : List (Lexeme K)}
      (h : IsMember t key v l) : IsMembers more t [(key, v)] l
  | cons {more : Bool} {t r : List Char} {key : String} {v : JsonValue K} {l l' : List (Lexeme K)}
      {fields : JsonObject K} (h : IsMember t key v l) (hr : IsMembers true r fields l') :
      IsMembers more (t ++ ',' :: r) ((key, v) :: fields) (l ++ l')

/-- A key and its value, with the white space around them. -/
inductive IsMember : List Char → String → JsonValue K → List (Lexeme K) → Prop
  | mk {w₁ k s b w₂ w₃ t w₄ : List Char} {v : JsonValue K} {l : List (Lexeme K)}
      (hw₁ : IsWs w₁) (hk : IsChars k s b) (hw₂ : IsWs w₂) (hw₃ : IsWs w₃) (hv : IsValue t v l)
      (hw₄ : IsWs w₄) :
      IsMember (w₁ ++ quote :: (k ++ quote :: (w₂ ++ ':' :: (w₃ ++ (t ++ w₄))))) (String.ofList s) v
        (.string b :: l)

/-- The items of an array; `more` behind a comma. -/
inductive IsItems : Bool → List Char → List (JsonValue K) → List (Lexeme K) → Prop
  | none {w : List Char} (hw : IsWs w) : IsItems false w [] []
  | last {more : Bool} {w₁ t w₂ : List Char} {v : JsonValue K} {l : List (Lexeme K)}
      (hw₁ : IsWs w₁) (hv : IsValue t v l) (hw₂ : IsWs w₂) :
      IsItems more (w₁ ++ (t ++ w₂)) [v] l
  | cons {more : Bool} {w₁ t w₂ r : List Char} {v : JsonValue K} {items : List (JsonValue K)}
      {l l' : List (Lexeme K)} (hw₁ : IsWs w₁) (hv : IsValue t v l) (hw₂ : IsWs w₂)
      (hr : IsItems true r items l') :
      IsItems more (w₁ ++ (t ++ (w₂ ++ ',' :: r))) (v :: items) (l ++ l')

end

/-- **A body of this shape**, up to `rest` behind the closing brace. -/
def ShapeOf (body : List Char) (fields : JsonObject K) (l : List (Lexeme K)) (rest : List Char) :
    Prop :=
  ∃ w t, IsWs w ∧ IsMembers false t fields l ∧ body = w ++ '{' :: (t ++ '}' :: rest)

namespace Lexeme

variable [LinearOrder K] [FloorRing K]

/-- A number of the grammar with the `double` next to it; a string without control characters. -/
def Json : Lexeme K → Prop
  | .number t v => ∃ d, Denotes t d ∧ v = FloatFormat.double.round d
  | .string b => ∀ c ∈ b, 32 ≤ c.toNat

/-- The value that the reader gives it. -/
def Reads : Lexeme K → Prop
  | .number t v => stod t = some v
  | .string _ => True

/-- `std::stod` takes it, whatever its value. -/
def Readable : Lexeme K → Prop
  | .number t _ => (stod t : Option K).isSome = true
  | .string _ => True

/-- Of the grammar, whatever its value. -/
def WellFormed : Lexeme K → Prop
  | .number t _ => ∃ v : K, Denotes t v
  | .string b => ∀ c ∈ b, 32 ≤ c.toNat

/-- Without the value. -/
def token : Lexeme K → Sum (List Char) (List Char)
  | .number t _ => .inl t
  | .string b => .inr b

end Lexeme

/-- **The whole body is one JSON object** of the supported subset, up to white space. -/
def JsonBody [LinearOrder K] [FloorRing K] (body : List Char) (fields : JsonObject K) : Prop :=
  ∃ l rest, ShapeOf body fields l rest ∧ IsWs rest ∧ ∀ x ∈ l, x.Json

end Grammar

/-! ## White space -/

theorem skipWs_append {w cs : List Char} (hw : IsWs w) : skipWs (w ++ cs) = skipWs cs := by
  unfold skipWs
  rw [List.dropWhile_append_of_pos fun c hc => decide_eq_true (hw c hc)]

/-- The text does not start with white space. -/
def NoWs (cs : List Char) : Prop := ∀ c ∈ cs.head?, ¬ (c = ' ' ∨ c = '\t' ∨ c = '\n' ∨ c = '\r')

theorem skipWs_of_noWs {cs : List Char} (h : NoWs cs) : skipWs cs = cs := by
  cases cs with
  | nil => rfl
  | cons c cs =>
      unfold skipWs
      rw [List.dropWhile_cons_of_neg]
      exact fun hc => h c rfl (of_decide_eq_true hc)

theorem skipWs_ws {w cs : List Char} (hw : IsWs w) (h : NoWs cs) : skipWs (w ++ cs) = cs := by
  rw [skipWs_append hw, skipWs_of_noWs h]

theorem skipWs_split (cs : List Char) : ∃ w, IsWs w ∧ cs = w ++ skipWs cs := by
  refine ⟨cs.takeWhile fun c => c = ' ' ∨ c = '\t' ∨ c = '\n' ∨ c = '\r', ?_, ?_⟩
  · intro c hc
    have hp := List.mem_takeWhile_imp hc
    exact of_decide_eq_true hp
  · exact List.takeWhile_append_dropWhile.symm

/-- White space in front is read off in one way. -/
theorem ws_cancel {w w' a b : List Char} (hw : IsWs w) (hw' : IsWs w') (ha : NoWs a) (hb : NoWs b)
    (h : w ++ a = w' ++ b) : w = w' ∧ a = b := by
  have heq : a = b := by
    rw [← skipWs_ws hw ha, h, skipWs_ws hw' hb]
  exact ⟨List.append_cancel_right (heq ▸ h), heq⟩

/-! ## Strings -/

theorem readChars_complete {t s b : List Char} (h : IsChars t s b) (rest : List Char) :
    readChars (t ++ quote :: rest) = .ok (s, rest) := by
  induction h with
  | nil =>
      rw [List.nil_append, readChars.eq_def]
      exact if_pos rfl
  | bare hquote hback _ ih =>
      rw [List.cons_append, readChars.eq_def]
      dsimp only
      rw [if_neg hquote, if_neg hback, ih]
      rfl
  | escaped hpair _ ih =>
      have hback : backslash ≠ quote := by decide
      rw [List.cons_append, readChars.eq_def]
      dsimp only [List.cons_append]
      rw [if_neg hback, if_pos rfl, ih]
      rcases List.mem_cons.mp hpair with h | hpair
      · obtain ⟨rfl, rfl⟩ := Prod.mk.inj h
        rfl
      · rcases List.mem_cons.mp hpair with h | hpair
        · obtain ⟨rfl, rfl⟩ := Prod.mk.inj h
          rfl
        · obtain ⟨rfl, rfl⟩ := Prod.mk.inj (List.mem_singleton.mp hpair)
          rfl

theorem unescape_eq_ok {e d : Char} (h : unescape e = .ok d) :
    (e, d) ∈ [(quote, quote), (backslash, backslash), ('n', '\n')] := by
  unfold unescape at h
  split_ifs at h with hquote hback hn
  · cases h
    rw [hquote]
    exact List.mem_cons_self
  · cases h
    rw [hback]
    exact List.mem_cons_of_mem _ List.mem_cons_self
  · cases h
    rw [hn]
    exact List.mem_cons_of_mem _ (List.mem_cons_of_mem _ List.mem_cons_self)

theorem readChars_sound {cs : List Char} : ∀ {s rest : List Char},
    readChars cs = .ok (s, rest) → ∃ t b, IsChars t s b ∧ cs = t ++ quote :: rest := by
  fun_induction readChars cs with
  | case1 =>
      intro s rest h
      cases h
  | case2 cs =>
      intro s rest h
      cases h
      exact ⟨[], [], .nil, rfl⟩
  | case3 =>
      intro s rest h
      cases h
  | case4 _ e cs ih =>
      intro s rest h
      obtain ⟨d, hd, h⟩ := bind_eq_ok h
      obtain ⟨⟨s', rest'⟩, hs, h⟩ := bind_eq_ok h
      cases h
      obtain ⟨t, b, ht, rfl⟩ := ih hs
      exact ⟨_, b, .escaped (unescape_eq_ok hd) ht, rfl⟩
  | case5 c cs hquote hback ih =>
      intro s rest h
      obtain ⟨⟨s', rest'⟩, hs, h⟩ := bind_eq_ok h
      cases h
      obtain ⟨t, b, ht, rfl⟩ := ih hs
      exact ⟨_, _, .bare hquote hback ht, rfl⟩

/-- The inside of a string ends in one way. -/
theorem isChars_cancel {t s b : List Char} (h : IsChars t s b) : ∀ {t' s' b' r r' : List Char},
    IsChars t' s' b' → t ++ quote :: r = t' ++ quote :: r' → t = t' ∧ s = s' ∧ b = b' ∧ r = r' := by
  have hback : backslash ≠ quote := by decide
  -- each character is bare or an escape pair, and neither begins with the closing quote
  induction h with
  | nil =>
      intro t' s' b' r r' h' heq
      cases h' with
      | nil => exact ⟨rfl, rfl, rfl, (List.cons.inj heq).2⟩
      | bare hquote _ _ => exact absurd (List.cons.inj heq).1.symm hquote
      | escaped _ _ => exact absurd (List.cons.inj heq).1.symm hback
  | bare hquote hne _ ih =>
      intro t' s' b' r r' h' heq
      cases h' with
      | nil => exact absurd (List.cons.inj heq).1 hquote
      | bare _ _ h' =>
          obtain ⟨rfl, htail⟩ := List.cons.inj heq
          obtain ⟨rfl, rfl, rfl, rfl⟩ := ih h' htail
          exact ⟨rfl, rfl, rfl, rfl⟩
      | escaped _ _ => exact absurd (List.cons.inj heq).1 hne
  | escaped hpair _ ih =>
      intro t' s' b' r r' h' heq
      cases h' with
      | nil => exact absurd (List.cons.inj heq).1 hback
      | bare _ hne _ => exact absurd (List.cons.inj heq).1.symm hne
      | escaped hpair' h' =>
          have hcut := List.cons.inj (List.cons.inj heq).2
          obtain ⟨rfl, htail⟩ := hcut
          obtain ⟨rfl, rfl, rfl, rfl⟩ := ih h' htail
          -- the letter behind the backslash tells the character
          have hd : ∀ {e d d' : Char},
              (e, d) ∈ [(quote, quote), (backslash, backslash), ('n', '\n')] →
              (e, d') ∈ [(quote, quote), (backslash, backslash), ('n', '\n')] → d = d' := by
            intro e d d' hd hd'
            have hnq : ('n' : Char) ≠ quote := by decide
            have hnb : ('n' : Char) ≠ backslash := by decide
            simp only [List.mem_cons, Prod.mk.injEq, List.not_mem_nil, or_false] at hd hd'
            rcases hd with ⟨rfl, rfl⟩ | ⟨rfl, rfl⟩ | ⟨rfl, rfl⟩ <;>
              rcases hd' with ⟨h, rfl⟩ | ⟨h, rfl⟩ | ⟨h, rfl⟩ <;>
              first | rfl | exact absurd h (by decide)
          rw [hd hpair hpair']
          exact ⟨rfl, rfl, rfl, rfl⟩

/-! ## Number tokens -/

/-- The text does not start with a number character. -/
def NoNum (cs : List Char) : Prop := ∀ c ∈ cs.head?, ¬ isNum c = true

/-- A run of characters with the property is taken whole. -/
theorem span_run {p : Char → Bool} {t rest : List Char} (ht : ∀ c ∈ t, p c = true)
    (hrest : ∀ c ∈ rest.head?, ¬ p c = true) :
    (t ++ rest).takeWhile p = t ∧ (t ++ rest).dropWhile p = rest := by
  rw [List.takeWhile_append_of_pos ht, List.dropWhile_append_of_pos ht]
  cases rest with
  | nil => exact ⟨List.append_nil t, rfl⟩
  | cons c rest =>
      have hc := hrest c rfl
      rw [List.takeWhile_cons_of_neg hc, List.dropWhile_cons_of_neg hc]
      exact ⟨List.append_nil t, rfl⟩

theorem run_cancel {t t' r r' : List Char} (ht : ∀ c ∈ t, isNum c = true)
    (ht' : ∀ c ∈ t', isNum c = true) (hr : NoNum r) (hr' : NoNum r') (h : t ++ r = t' ++ r') :
    t = t' ∧ r = r' := by
  constructor
  · rw [← (span_run ht hr).1, h, (span_run ht' hr').1]
  · rw [← (span_run ht hr).2, h, (span_run ht' hr').2]

section Tokens

/-- The exponent is read back from its text. -/
theorem JsonNumber.exponentOf_text (n : JsonNumber) : exponentOf n.exponentText = n.exponentValue := by
  unfold JsonNumber.exponentText JsonNumber.exponentValue
  cases he : n.exponent with
  | none => rfl
  | some e =>
      obtain ⟨c, sign, digits⟩ := e
      obtain ⟨hletter, hsign, hne, hdigits⟩ := n.exponent_ok _ he
      have hwhole : digits.takeWhile Char.isDigit = digits := by
        rw [← List.append_nil digits]
        exact (span_run hdigits fun c hc => by cases hc).1.trans (List.append_nil digits).symm
      dsimp only at hletter hsign hne hdigits ⊢
      rw [Option.elim_some, Option.elim_some]
      unfold exponentOf
      dsimp only
      rw [if_pos hletter]
      rcases hsign with rfl | rfl | rfl
      · obtain ⟨d, ds, rfl⟩ := List.exists_cons_of_ne_nil hne
        have hd := hdigits d List.mem_cons_self
        have hminus : ¬ d = '-' := by
          rintro rfl
          exact absurd hd (by decide)
        have hplus : ¬ d = '+' := by
          rintro rfl
          exact absurd hd (by decide)
        rw [List.nil_append, if_neg (fun h => by cases h)]
        split
        · rename_i heq
          exact absurd (List.cons.inj heq).1 hminus
        · rename_i heq
          exact absurd (List.cons.inj heq).1 hplus
        · rw [hwhole]
      · rw [if_neg (by decide)]
        show ((decimalValue (digits.takeWhile Char.isDigit) : ℕ) : ℤ) = _
        rw [hwhole]
      · rw [if_pos rfl]
        show -((decimalValue (digits.takeWhile Char.isDigit) : ℕ) : ℤ) = _
        rw [hwhole]

/-- The characters of the exponent are no digits. -/
theorem JsonNumber.exponentText_head (n : JsonNumber) :
    ∀ c ∈ n.exponentText.head?, c = 'e' ∨ c = 'E' := by
  intro c hc
  unfold JsonNumber.exponentText at hc
  cases he : n.exponent with
  | none =>
      rw [he] at hc
      cases hc
  | some e =>
      rw [he] at hc
      obtain rfl := Option.some.inj hc
      exact (n.exponent_ok e he).1

theorem not_digit_of_letter {c : Char} (h : c = 'e' ∨ c = 'E') : ¬ c.isDigit = true := by
  rcases h with rfl | rfl <;> decide

variable {K : Type} [Field K]

/-- The unsigned part as `std::stod` cuts it. -/
theorem JsonNumber.magnitudeOf_text (n : JsonNumber) :
    magnitudeOf (K := K) (n.whole ++ (n.fraction.elim [] ('.' :: ·) ++ n.exponentText))
      = some n.magnitude := by
  have hexp : ∀ c ∈ n.exponentText.head?, ¬ c.isDigit = true :=
    fun c hc => not_digit_of_letter (n.exponentText_head c hc)
  have hwhole := n.whole_digits
  unfold magnitudeOf magnitude
  cases hf : n.fraction with
  | none =>
      have hspan := span_run hwhole.2 hexp
      have hpoint : ¬ n.exponentText.head? = some '.' := by
        intro h
        rcases n.exponentText_head '.' h with h | h <;> exact absurd h (by decide)
      rw [Option.elim_none, List.nil_append, hspan.1, hspan.2]
      dsimp only
      rw [if_neg hpoint, if_neg hpoint, if_neg (fun h => hwhole.1 h.1), n.exponentOf_text]
      rfl
  | some f =>
      obtain ⟨-, hdigits⟩ := n.fraction_digits f hf
      have hpoint : ∀ c ∈ ('.' :: (f ++ n.exponentText)).head?, ¬ c.isDigit = true := by
        intro c hc
        obtain rfl := Option.some.inj hc
        decide
      have hspan := span_run hwhole.2 hpoint
      have hspan' := span_run hdigits hexp
      rw [Option.elim_some, List.cons_append, hspan.1, hspan.2]
      dsimp only
      rw [List.head?_cons, if_pos rfl, List.tail_cons, hspan'.1, if_pos rfl, hspan'.2,
        if_neg (fun h => hwhole.1 h.1), n.exponentOf_text]
      rfl

/-- Digits have no sign in front. -/
theorem splitSign_of_digit {cs : List Char} (h : ∀ c ∈ cs.head?, c.isDigit = true) :
    splitSign cs = (false, cs) := by
  unfold splitSign
  split
  · exact absurd (h '-' rfl) (by decide)
  · exact absurd (h '+' rfl) (by decide)
  · rfl

/-- The sign of a number of the grammar. -/
theorem JsonNumber.splitSign_text (n : JsonNumber) : splitSign n.text =
    (n.minus, n.whole ++ (n.fraction.elim [] ('.' :: ·) ++ n.exponentText)) := by
  unfold JsonNumber.text
  cases n.minus with
  | true => rfl
  | false =>
      apply splitSign_of_digit
      obtain ⟨d, ds, hd⟩ := List.exists_cons_of_ne_nil n.whole_digits.1
      rw [hd]
      intro c hc
      obtain rfl := Option.some.inj hc
      exact n.whole_digits.2 d (hd ▸ List.mem_cons_self)

/-- What `std::stod` sees of it. -/
theorem JsonNumber.leadingMagnitude_text (n : JsonNumber) :
    leadingMagnitude (K := K) n.text = some n.magnitude := by
  rw [leadingMagnitude, n.splitSign_text, n.magnitudeOf_text]

variable [LinearOrder K] [FloorRing K]

/-- **A number of the grammar is read whole**, unless it is out of range. -/
theorem JsonNumber.stod_text (n : JsonNumber) : stod (K := K) n.text =
    if RangeError (n.magnitude : K) then none else some (FloatFormat.double.round n.value) := by
  rw [stod, n.leadingMagnitude_text, n.splitSign_text]
  rfl

/-- The number is the `double` next to the one that is denoted. -/
theorem stod_of_denotes {t : List Char} {d v : K} (h : Denotes t d) (hread : stod t = some v) :
    v = FloatFormat.double.round d := by
  obtain ⟨n, rfl, rfl⟩ := h
  rw [n.stod_text] at hread
  split_ifs at hread with hrange
  exact (Option.some.inj hread).symm

/-- Which tokens `std::stod` takes. -/
theorem isSome_stod_iff (t : List Char) : (stod t : Option K).isSome = true ↔
    ∃ m : K, leadingMagnitude t = some m ∧ ¬ RangeError m := by
  unfold stod
  cases leadingMagnitude (K := K) t with
  | none => simp
  | some m => by_cases hrange : RangeError m <;> simp [hrange]

end Tokens
