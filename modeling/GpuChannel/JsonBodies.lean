/-
# What the request reader accepts

The reader follows the shape of a body: it accepts a body exactly when the body starts with an object
shape whose number tokens `std::stod` takes, and it ignores what stands behind the closing brace
and behind the number that a token begins with.  It deviates from the grammar in four ways: it
takes tokens that only begin with a number, raw control characters and trailing bytes, and it
refuses numbers that are out of range.  So it is right about a body exactly when the body has no
deviation, or when both sides refuse it.
-/
import GpuChannel.JsonGrammar
import GpuChannel.ControlPlane

open JsonReader

/-! ## Characters and strings -/

/-- What `take` hands out is the first character. -/
theorem take_eq_ok {cs : List Char} {r : Char × List Char} (h : take cs = .ok r) :
    cs = r.1 :: r.2 := by
  cases cs with
  | nil => cases h
  | cons c cs =>
      cases h
      rfl

/-- `expect` consumes the character that it expects. -/
theorem expect_eq_ok {c : Char} {cs rest : List Char} (h : expect c cs = .ok rest) :
    cs = c :: rest := by
  obtain ⟨⟨d, ds⟩, htake, h⟩ := bind_eq_ok h
  obtain ⟨_, hreject, h⟩ := bind_eq_ok h
  cases h
  have hc := rejectIf_eq_ok hreject
  rw [take_eq_ok htake, not_not.mp hc]

/-- What `read_string` reads is a string of the grammar. -/
theorem readString_eq_ok {cs rest : List Char} {s : String} (h : readString cs = .ok (s, rest)) :
    ∃ t d b, IsChars t d b ∧ s = String.ofList d ∧ cs = quote :: (t ++ quote :: rest) := by
  obtain ⟨cs', hexpect, h⟩ := bind_eq_ok h
  obtain ⟨⟨d, rest'⟩, hchars, h⟩ := bind_eq_ok h
  cases h
  obtain ⟨t, b, ht, rfl⟩ := readChars_sound hchars
  exact ⟨t, d, b, ht, rfl, expect_eq_ok hexpect⟩

/-- A number character is no white space. -/
theorem noWs_of_isNum {c : Char} (h : isNum c = true) :
    ¬ (c = ' ' ∨ c = '\t' ∨ c = '\n' ∨ c = '\r') := by
  rintro (rfl | rfl | rfl | rfl) <;> exact absurd h (by decide)

/-- A text that starts with another character has no white space in front. -/
theorem noWs_cons {c : Char} (h : ¬ (c = ' ' ∨ c = '\t' ∨ c = '\n' ∨ c = '\r'))
    (cs : List Char) : NoWs (c :: cs) := by
  intro d hd
  obtain rfl := Option.some.inj hd
  exact h

/-- Behind a value stands white space or a separator. -/
theorem noNum_behind {w : List Char} (hw : IsWs w) {c : Char} (hc : ¬ isNum c = true)
    (r : List Char) : NoNum (w ++ c :: r) := by
  cases w with
  | nil =>
      intro d hd
      obtain rfl := Option.some.inj hd
      exact hc
  | cons a w =>
      intro d hd
      obtain rfl := Option.some.inj hd
      intro hnum
      exact noWs_of_isNum hnum (hw a List.mem_cons_self)

/-- A string of the grammar is read whole. -/
theorem readString_complete {t d b : List Char} (h : IsChars t d b) (rest : List Char) :
    readString (quote :: (t ++ quote :: rest)) = .ok (String.ofList d, rest) := by
  unfold readString expect take
  change (readChars (t ++ quote :: rest) >>= _) = _
  rw [readChars_complete h]
  rfl

section Shapes

variable {K : Type}

/-! ## Values -/

/-- What a value starts with tells its kind. -/
def leadKind (c : Char) : ℕ :=
  if c = quote then 0 else if isNum c then 1 else if c = 't' then 2 else if c = 'f' then 3
  else if c = '{' then 4 else if c = '[' then 5 else 6

/-- The kind of a value. -/
def valueKind : JsonValue K → ℕ
  | .string _ => 0
  | .number _ => 1
  | .bool true => 2
  | .bool false => 3
  | .object _ => 4
  | .array _ => 5

/-- There are six kinds. -/
theorem valueKind_lt (v : JsonValue K) : valueKind v < 6 := by
  cases v with
  | bool b =>
      cases b
      · exact (by decide : 3 < 6)
      · exact (by decide : 2 < 6)
  | string _ => exact (by decide : 0 < 6)
  | number _ => exact (by decide : 1 < 6)
  | object _ => exact (by decide : 4 < 6)
  | array _ => exact (by decide : 5 < 6)

/-- The first character of a value. -/
theorem IsValue.lead {t : List Char} {v : JsonValue K} {l : List (Lexeme K)} (h : IsValue t v l) :
    ∃ c cs, t = c :: cs ∧ leadKind c = valueKind v ∧
      ¬ (c = ' ' ∨ c = '\t' ∨ c = '\n' ∨ c = '\r') := by
  cases h with
  | string _ => exact ⟨quote, _, rfl, (by decide : leadKind quote = 0), by decide⟩
  | number hne hnum =>
      obtain ⟨c, cs, rfl⟩ := List.exists_cons_of_ne_nil hne
      have hc := hnum c List.mem_cons_self
      have hquote : ¬ c = quote := by
        rintro rfl
        exact absurd hc (by decide)
      refine ⟨c, cs, rfl, ?_, noWs_of_isNum hc⟩
      unfold leadKind
      rw [if_neg hquote, if_pos hc]
      rfl
  | true => exact ⟨'t', ['r', 'u', 'e'], rfl, (by decide : leadKind 't' = 2), by decide⟩
  | false => exact ⟨'f', ['a', 'l', 's', 'e'], rfl, (by decide : leadKind 'f' = 3), by decide⟩
  | object _ => exact ⟨'{', _, rfl, (by decide : leadKind '{' = 4), by decide⟩
  | array _ => exact ⟨'[', _, rfl, (by decide : leadKind '[' = 5), by decide⟩

/-- A value does not start with white space. -/
theorem IsValue.noWs {t : List Char} {v : JsonValue K} {l : List (Lexeme K)} (h : IsValue t v l)
    (r : List Char) : NoWs (t ++ r) := by
  obtain ⟨c, cs, rfl, -, hc⟩ := h.lead
  intro d hd
  obtain rfl := Option.some.inj hd
  exact hc

/-! ## The shape is unique -/

/-- The texts up to this length are cut in one way. -/
def UniqueAt (K : Type) (m : ℕ) : Prop :=
  (∀ t (v : JsonValue K) l, IsValue t v l → t.length ≤ m →
    ∀ t' (v' : JsonValue K) l' r r', IsValue t' v' l' → NoNum r → NoNum r' → t ++ r = t' ++ r' →
      t = t' ∧ l.map Lexeme.token = l'.map Lexeme.token ∧ r = r') ∧
  (∀ more t (fields : JsonObject K) l, IsMembers more t fields l → t.length ≤ m →
    ∀ more' t' (fields' : JsonObject K) l' r r', IsMembers more' t' fields' l' →
      t ++ '}' :: r = t' ++ '}' :: r' →
      t = t' ∧ l.map Lexeme.token = l'.map Lexeme.token ∧ r = r') ∧
  (∀ more t (items : List (JsonValue K)) l, IsItems more t items l → t.length ≤ m →
    ∀ more' t' (items' : List (JsonValue K)) l' r r', IsItems more' t' items' l' →
      t ++ ']' :: r = t' ++ ']' :: r' →
      t = t' ∧ l.map Lexeme.token = l'.map Lexeme.token ∧ r = r')

/-- Two readings of a value in one text end at the same place, with the same lexemes. -/
theorem IsValue.unique {m : ℕ} (hm : ∀ k < m, UniqueAt K k) {t t' : List Char}
    {v v' : JsonValue K} {l l' : List (Lexeme K)} (h : IsValue t v l) (ht : t.length ≤ m)
    {r r' : List Char} (h' : IsValue t' v' l') (hr : NoNum r) (hr' : NoNum r')
    (heq : t ++ r = t' ++ r') :
    t = t' ∧ l.map Lexeme.token = l'.map Lexeme.token ∧ r = r' := by
  -- the first character decides the kind
  have hkind : valueKind v = valueKind v' := by
    obtain ⟨c, cs, rfl, hc, -⟩ := h.lead
    obtain ⟨c', cs', rfl, hc', -⟩ := h'.lead
    obtain rfl := (List.cons.inj heq).1
    exact hc.symm.trans hc'
  cases h with
  | string hs =>
      cases h' with
      | string hs' =>
          rw [List.cons_append, List.cons_append, List.append_assoc, List.append_assoc] at heq
          obtain ⟨rfl, rfl, rfl, rfl⟩ := isChars_cancel hs hs' (List.cons.inj heq).2
          exact ⟨rfl, rfl, rfl⟩
      | _ => cases hkind
  | number hne hnum =>
      cases h' with
      | number hne' hnum' =>
          obtain ⟨rfl, rfl⟩ := run_cancel hnum hnum' hr hr' heq
          exact ⟨rfl, rfl, rfl⟩
      | _ => cases hkind
  | true =>
      cases h' with
      | true => exact ⟨rfl, rfl, List.append_cancel_left heq⟩
      | _ => cases hkind
  | false =>
      cases h' with
      | false => exact ⟨rfl, rfl, List.append_cancel_left heq⟩
      | _ => cases hkind
  | object hbody =>
      cases h' with
      | object hbody' =>
          rw [List.length_cons, List.length_append] at ht
          rw [List.cons_append, List.cons_append, List.append_assoc, List.append_assoc] at heq
          obtain ⟨rfl, hl, rfl⟩ := (hm (m - 1) (by omega)).2.1 _ _ _ _ hbody (by omega) _ _ _ _ _ _
            hbody' (List.cons.inj heq).2
          exact ⟨rfl, hl, rfl⟩
      | _ => cases hkind
  | array hbody =>
      cases h' with
      | array hbody' =>
          rw [List.length_cons, List.length_append] at ht
          rw [List.cons_append, List.cons_append, List.append_assoc, List.append_assoc] at heq
          obtain ⟨rfl, hl, rfl⟩ := (hm (m - 1) (by omega)).2.2 _ _ _ _ hbody (by omega) _ _ _ _ _ _
            hbody' (List.cons.inj heq).2
          exact ⟨rfl, hl, rfl⟩
      | _ => cases hkind

/-- A member is cut in one way, up to its separator. -/
theorem IsMember.unique {m : ℕ}
    (hvalue : ∀ t (v : JsonValue K) l, IsValue t v l → t.length ≤ m →
      ∀ t' (v' : JsonValue K) l' r r', IsValue t' v' l' → NoNum r → NoNum r' → t ++ r = t' ++ r' →
        t = t' ∧ l.map Lexeme.token = l'.map Lexeme.token ∧ r = r') {t t' : List Char} {key key' : String}
    {v v' : JsonValue K} {l l' : List (Lexeme K)} (h : IsMember t key v l) (ht : t.length ≤ m)
    (h' : IsMember t' key' v' l') {c c' : Char} (hc : c = ',' ∨ c = '}') (hc' : c' = ',' ∨ c' = '}')
    {r r' : List Char} (heq : t ++ c :: r = t' ++ c' :: r') :
    t = t' ∧ l.map Lexeme.token = l'.map Lexeme.token ∧ c = c' ∧ r = r' := by
  have hsep : ∀ {c : Char}, c = ',' ∨ c = '}' →
      ¬ (c = ' ' ∨ c = '\t' ∨ c = '\n' ∨ c = '\r') ∧ ¬ isNum c = true := by
    rintro c (rfl | rfl) <;> decide
  obtain ⟨hw₁, hk, hw₂, hw₃, hv, hw₄⟩ := h
  obtain ⟨hw₁', hk', hw₂', hw₃', hv', hw₄'⟩ := h'
  simp only [List.length_append, List.length_cons] at ht
  simp only [List.append_assoc, List.cons_append] at heq
  have e₁ := ws_cancel hw₁ hw₁' (noWs_cons (by decide) _) (noWs_cons (by decide) _) heq
  have e₂ := isChars_cancel hk hk' (List.cons.inj e₁.2).2
  have e₃ := ws_cancel hw₂ hw₂' (noWs_cons (by decide) _) (noWs_cons (by decide) _) e₂.2.2.2
  have e₄ := ws_cancel hw₃ hw₃' (hv.noWs _) (hv'.noWs _) (List.cons.inj e₃.2).2
  have e₅ := hvalue _ _ _ hv (by omega) _ _ _ _ _ hv'
    (noNum_behind hw₄ (hsep hc).2 _) (noNum_behind hw₄' (hsep hc').2 _) e₄.2
  have e₆ := ws_cancel hw₄ hw₄' (noWs_cons (hsep hc).1 _) (noWs_cons (hsep hc').1 _) e₅.2.2
  have e₇ := List.cons.inj e₆.2
  refine ⟨?_, ?_, e₇.1, e₇.2⟩
  · rw [e₁.1, e₂.1, e₃.1, e₄.1, e₅.1, e₆.1]
  · rw [List.map_cons, List.map_cons, e₅.2.1, e₂.2.2.1]

/-- A member does not start like the end of its object. -/
theorem IsMember.ne_end {t : List Char} {key : String} {v : JsonValue K} {l : List (Lexeme K)}
    (h : IsMember t key v l) {w : List Char} (hw : IsWs w) {r r' : List Char} :
    t ++ r ≠ w ++ '}' :: r' := by
  intro heq
  obtain ⟨hw₁, -, -, -, -, -⟩ := h
  simp only [List.append_assoc, List.cons_append] at heq
  have hcut := ws_cancel hw₁ hw (noWs_cons (by decide) _) (noWs_cons (by decide) _) heq
  exact absurd (List.cons.inj hcut.2).1 (by decide)

/-- Two readings of members in one text end at the same brace. -/
theorem IsMembers.unique {m : ℕ} (hm : ∀ k < m, UniqueAt K k)
    (hmember : ∀ {t t' : List Char} {key key' : String} {v v' : JsonValue K}
      {l l' : List (Lexeme K)}, IsMember t key v l → t.length ≤ m → IsMember t' key' v' l' →
      ∀ {c c' : Char}, c = ',' ∨ c = '}' → c' = ',' ∨ c' = '}' → ∀ {r r' : List Char},
        t ++ c :: r = t' ++ c' :: r' →
        t = t' ∧ l.map Lexeme.token = l'.map Lexeme.token ∧ c = c' ∧ r = r')
    {more more' : Bool} {t t' : List Char} {fields fields' : JsonObject K} {l l' : List (Lexeme K)}
    (h : IsMembers more t fields l) (ht : t.length ≤ m) (h' : IsMembers more' t' fields' l')
    {r r' : List Char} (heq : t ++ '}' :: r = t' ++ '}' :: r') :
    t = t' ∧ l.map Lexeme.token = l'.map Lexeme.token ∧ r = r' := by
  have hne : ¬ ('}' : Char) = ',' := by decide
  cases h with
  -- two bodies of one text end in the same way
  | none hw =>
      cases h' with
      | none hw' =>
          have hcut := ws_cancel hw hw' (noWs_cons (by decide) _) (noWs_cons (by decide) _) heq
          exact ⟨hcut.1, rfl, (List.cons.inj hcut.2).2⟩
      | last hb => exact absurd heq.symm (hb.ne_end hw)
      | cons hb hr =>
          rw [List.append_assoc] at heq
          exact absurd heq.symm (hb.ne_end hw)
  | last ha =>
      cases h' with
      | none hw' => exact absurd heq (ha.ne_end hw')
      | last hb =>
          -- behind both last members stands the closing brace
          obtain ⟨rfl, hl, -, rfl⟩ := hmember ha ht hb (.inr rfl) (.inr rfl) heq
          exact ⟨rfl, hl, rfl⟩
      | cons hb hr =>
          rw [List.append_assoc, List.cons_append] at heq
          exact absurd (hmember ha ht hb (.inr rfl) (.inl rfl) heq).2.2.1 hne
  | cons ha har =>
      rw [List.length_append, List.length_cons] at ht
      cases h' with
      | none hw' =>
          rw [List.append_assoc] at heq
          exact absurd heq (ha.ne_end hw')
      | last hb =>
          rw [List.append_assoc, List.cons_append] at heq
          exact absurd (hmember ha (by omega) hb (.inl rfl) (.inr rfl) heq).2.2.1.symm hne
      -- behind both members stands a comma, and the rest is shorter
      | cons hb hbr =>
          rw [List.append_assoc, List.append_assoc, List.cons_append, List.cons_append] at heq
          obtain ⟨rfl, hl, -, htail⟩ := hmember ha (by omega) hb (.inl rfl) (.inl rfl) heq
          obtain ⟨rfl, hlr, rfl⟩ :=
            (hm (m - 1) (by omega)).2.1 _ _ _ _ har (by omega) _ _ _ _ _ _ hbr htail
          refine ⟨rfl, ?_, rfl⟩
          rw [List.map_append, List.map_append, hl, hlr]

/-- Two readings of items in one text end at the same bracket. -/
theorem IsItems.unique {m : ℕ} (hm : ∀ k < m, UniqueAt K k)
    (hvalue : ∀ t (v : JsonValue K) l, IsValue t v l → t.length ≤ m →
      ∀ t' (v' : JsonValue K) l' r r', IsValue t' v' l' → NoNum r → NoNum r' → t ++ r = t' ++ r' →
        t = t' ∧ l.map Lexeme.token = l'.map Lexeme.token ∧ r = r')
    {more more' : Bool} {t t' : List Char} {items items' : List (JsonValue K)}
    {l l' : List (Lexeme K)} (h : IsItems more t items l) (ht : t.length ≤ m)
    (h' : IsItems more' t' items' l') {r r' : List Char} (heq : t ++ ']' :: r = t' ++ ']' :: r') :
    t = t' ∧ l.map Lexeme.token = l'.map Lexeme.token ∧ r = r' := by
  have hne : ¬ (']' : Char) = ',' := by decide
  -- an item up to its separator
  have hitem : ∀ {w₁ u w₂ w₁' u' w₂' : List Char} {v v' : JsonValue K} {k k' : List (Lexeme K)},
      IsWs w₁ → IsValue u v k → IsWs w₂ → u.length ≤ m → IsWs w₁' → IsValue u' v' k' → IsWs w₂' →
      ∀ {c c' : Char}, c = ',' ∨ c = ']' → c' = ',' ∨ c' = ']' → ∀ {r r' : List Char},
        w₁ ++ (u ++ (w₂ ++ c :: r)) = w₁' ++ (u' ++ (w₂' ++ c' :: r')) →
        w₁ = w₁' ∧ u = u' ∧ w₂ = w₂' ∧ k.map Lexeme.token = k'.map Lexeme.token ∧ c = c' ∧
          r = r' := by
    intro w₁ u w₂ w₁' u' w₂' v v' k k' hw₁ hv hw₂ hu hw₁' hv' hw₂' c c' hc hc' r r' heq
    have hsep : ∀ {c : Char}, c = ',' ∨ c = ']' →
        ¬ (c = ' ' ∨ c = '\t' ∨ c = '\n' ∨ c = '\r') ∧ ¬ isNum c = true := by
      rintro c (rfl | rfl) <;> decide
    have e₁ := ws_cancel hw₁ hw₁' (hv.noWs _) (hv'.noWs _) heq
    have e₂ := hvalue _ _ _ hv hu _ _ _ _ _ hv' (noNum_behind hw₂ (hsep hc).2 _)
      (noNum_behind hw₂' (hsep hc').2 _) e₁.2
    have e₃ := ws_cancel hw₂ hw₂' (noWs_cons (hsep hc).1 _) (noWs_cons (hsep hc').1 _) e₂.2.2
    have e₄ := List.cons.inj e₃.2
    exact ⟨e₁.1, e₂.1, e₃.1, e₂.2.1, e₄.1, e₄.2⟩
  -- a value does not start like the end of its array
  have hend : ∀ {w₁ u w : List Char} {v : JsonValue K} {k : List (Lexeme K)}, IsWs w₁ →
      IsValue u v k → IsWs w → ∀ {r r' : List Char}, w₁ ++ (u ++ r) ≠ w ++ ']' :: r' := by
    intro w₁ u w v k hw₁ hv hw r r' heq
    obtain ⟨c, cs, hc, hkind, -⟩ := hv.lead
    have hcut := ws_cancel hw₁ hw (hv.noWs _) (noWs_cons (by decide) _) heq
    rw [hc] at hcut
    obtain rfl := (List.cons.inj hcut.2).1
    have hlt := hkind ▸ valueKind_lt v
    exact absurd hlt (by decide)
  cases h with
  | none hw =>
      cases h' with
      | none hw' =>
          have hcut := ws_cancel hw hw' (noWs_cons (by decide) _) (noWs_cons (by decide) _) heq
          exact ⟨hcut.1, rfl, (List.cons.inj hcut.2).2⟩
      | last hw₁' hv' hw₂' =>
          simp only [List.append_assoc] at heq
          exact absurd heq.symm (hend hw₁' hv' hw)
      | cons hw₁' hv' hw₂' hr' =>
          simp only [List.append_assoc] at heq
          exact absurd heq.symm (hend hw₁' hv' hw)
  | last hw₁ hv hw₂ =>
      simp only [List.length_append] at ht
      simp only [List.append_assoc] at heq
      cases h' with
      | none hw' => exact absurd heq (hend hw₁ hv hw')
      | last hw₁' hv' hw₂' =>
          simp only [List.append_assoc] at heq
          obtain ⟨rfl, rfl, rfl, hl, -, rfl⟩ :=
            hitem hw₁ hv hw₂ (by omega) hw₁' hv' hw₂' (.inr rfl) (.inr rfl) heq
          exact ⟨rfl, hl, rfl⟩
      | cons hw₁' hv' hw₂' hr' =>
          simp only [List.append_assoc, List.cons_append] at heq
          have hcut := hitem hw₁ hv hw₂ (by omega) hw₁' hv' hw₂' (.inr rfl) (.inl rfl) heq
          exact absurd hcut.2.2.2.2.1 hne
  | cons hw₁ hv hw₂ hr =>
      simp only [List.length_append, List.length_cons] at ht
      simp only [List.append_assoc, List.cons_append] at heq
      cases h' with
      | none hw' => exact absurd heq (hend hw₁ hv hw')
      | last hw₁' hv' hw₂' =>
          simp only [List.append_assoc] at heq
          have hcut := hitem hw₁ hv hw₂ (by omega) hw₁' hv' hw₂' (.inl rfl) (.inr rfl) heq
          exact absurd hcut.2.2.2.2.1.symm hne
      | cons hw₁' hv' hw₂' hr' =>
          simp only [List.append_assoc, List.cons_append] at heq
          obtain ⟨rfl, rfl, rfl, hl, -, htail⟩ :=
            hitem hw₁ hv hw₂ (by omega) hw₁' hv' hw₂' (.inl rfl) (.inl rfl) heq
          obtain ⟨rfl, hlr, rfl⟩ :=
            (hm (m - 1) (by omega)).2.2 _ _ _ _ hr (by omega) _ _ _ _ _ _ hr' htail
          refine ⟨rfl, ?_, rfl⟩
          rw [List.map_append, List.map_append, hl, hlr]

/-- **The grammar reads a text in one way**, by induction on its length. -/
theorem uniqueAt (m : ℕ) : UniqueAt K m := by
  induction m using Nat.strongRecOn with
  | ind m ih =>
    have hvalue : ∀ t (v : JsonValue K) l, IsValue t v l → t.length ≤ m →
        ∀ t' (v' : JsonValue K) l' r r', IsValue t' v' l' → NoNum r → NoNum r' →
          t ++ r = t' ++ r' → t = t' ∧ l.map Lexeme.token = l'.map Lexeme.token ∧ r = r' :=
      fun _ _ _ h ht _ _ _ _ _ h' hr hr' heq => h.unique ih ht h' hr hr' heq
    refine ⟨hvalue, ?_, ?_⟩
    · intro _ _ _ _ h ht _ _ _ _ _ _ h' heq
      exact h.unique ih (fun ha hlen hb _ _ hc hc' _ _ heq => ha.unique hvalue hlen hb hc hc' heq)
        ht h' heq
    · exact fun _ _ _ _ h ht _ _ _ _ _ _ h' heq => h.unique ih hvalue ht h' heq

/-- **The shape of a body is unique**, up to the values given to its numbers. -/
theorem ShapeOf.unique {body : List Char} {fields fields' : JsonObject K} {l l' : List (Lexeme K)}
    {rest rest' : List Char} (h : ShapeOf body fields l rest) (h' : ShapeOf body fields' l' rest') :
    l.map Lexeme.token = l'.map Lexeme.token ∧ rest = rest' := by
  obtain ⟨w, t, hw, ht, hbody⟩ := h
  obtain ⟨w', t', hw', ht', hbody'⟩ := h'
  have hcut := ws_cancel hw hw' (noWs_cons (by decide) _) (noWs_cons (by decide) _)
    (hbody.symm.trans hbody')
  exact ((uniqueAt t.length).2.1 _ _ _ _ ht (le_refl _) _ _ _ _ _ _ ht'
    (List.cons.inj hcut.2).2).2

/-! ## Other values -/

/-- The number of a lexeme is given another value. -/
def Lexeme.relabel (g : List Char → K) : Lexeme K → Lexeme K
  | .number t _ => .number t (g t)
  | .string b => .string b

mutual

/-- A value with other numbers is a value of the same text. -/
theorem IsValue.relabel (g : List Char → K) : ∀ {t : List Char} {v : JsonValue K}
    {l : List (Lexeme K)}, IsValue t v l → ∃ v', IsValue t v' (l.map (Lexeme.relabel g))
  | _, _, _, .string h => ⟨_, .string h⟩
  | _, _, _, .number hne h => ⟨_, .number hne h⟩
  | _, _, _, .true => ⟨_, .true⟩
  | _, _, _, .false => ⟨_, .false⟩
  | _, _, _, .object h => (IsMembers.relabel g h).elim fun _ h => ⟨_, .object h⟩
  | _, _, _, .array h => (IsItems.relabel g h).elim fun _ h => ⟨_, .array h⟩

/-- Members with other numbers are members of the same text. -/
theorem IsMembers.relabel (g : List Char → K) : ∀ {more : Bool} {t : List Char}
    {fields : JsonObject K} {l : List (Lexeme K)}, IsMembers more t fields l →
      ∃ fields', IsMembers more t fields' (l.map (Lexeme.relabel g))
  | _, _, _, _, .none hw => ⟨_, .none hw⟩
  | _, _, _, _, .last h => (IsMember.relabel g h).elim fun _ h => ⟨_, .last h⟩
  | _, _, _, _, .cons h hr => by
      obtain ⟨_, h⟩ := IsMember.relabel g h
      obtain ⟨_, hr⟩ := IsMembers.relabel g hr
      rw [List.map_append]
      exact ⟨_, .cons h hr⟩

/-- A member with other numbers is a member of the same text. -/
theorem IsMember.relabel (g : List Char → K) : ∀ {t : List Char} {key : String}
    {v : JsonValue K} {l : List (Lexeme K)}, IsMember t key v l →
      ∃ v', IsMember t key v' (l.map (Lexeme.relabel g))
  | _, _, _, _, .mk hw₁ hk hw₂ hw₃ hv hw₄ =>
      (IsValue.relabel g hv).elim fun _ hv => ⟨_, .mk hw₁ hk hw₂ hw₃ hv hw₄⟩

/-- Items with other numbers are items of the same text. -/
theorem IsItems.relabel (g : List Char → K) : ∀ {more : Bool} {t : List Char}
    {items : List (JsonValue K)} {l : List (Lexeme K)}, IsItems more t items l →
      ∃ items', IsItems more t items' (l.map (Lexeme.relabel g))
  | _, _, _, _, .none hw => ⟨_, .none hw⟩
  | _, _, _, _, .last hw₁ hv hw₂ =>
      (IsValue.relabel g hv).elim fun _ hv => ⟨_, .last hw₁ hv hw₂⟩
  | _, _, _, _, .cons hw₁ hv hw₂ hr => by
      obtain ⟨_, hv⟩ := IsValue.relabel g hv
      obtain ⟨_, hr⟩ := IsItems.relabel g hr
      rw [List.map_append]
      exact ⟨_, .cons hw₁ hv hw₂ hr⟩

end

/-- A body with other numbers has the same shape. -/
theorem ShapeOf.relabel {body : List Char} {fields : JsonObject K} {l : List (Lexeme K)}
    {rest : List Char} (h : ShapeOf body fields l rest) (g : List Char → K) :
    ∃ fields', ShapeOf body fields' (l.map (Lexeme.relabel g)) rest := by
  obtain ⟨w, t, hw, ht, hbody⟩ := h
  obtain ⟨fields', ht'⟩ := IsMembers.relabel g ht
  exact ⟨fields', w, t, hw, ht', hbody⟩

/-- Being readable, and being JSON, are matters of the token. -/
theorem forall_congr_token {P : Lexeme K → Prop} (hP : ∀ x y, Lexeme.token x = Lexeme.token y → P x → P y)
    {l l' : List (Lexeme K)} (h : l.map Lexeme.token = l'.map Lexeme.token) (hl : ∀ x ∈ l, P x) :
    ∀ x ∈ l', P x := by
  intro y hy
  have hmem : y.token ∈ l.map Lexeme.token := h ▸ List.mem_map_of_mem hy
  obtain ⟨x, hx, hxy⟩ := List.mem_map.mp hmem
  exact hP x y hxy (hl x hx)

variable [Field K] in
/-- Being of the grammar is a matter of the token. -/
theorem Lexeme.wellFormed_congr (x y : Lexeme K) (h : x.token = y.token) (hx : x.WellFormed) :
    y.WellFormed := by
  cases x <;> cases y <;> cases h <;> exact hx

end Shapes

section Bodies

variable {K : Type} [Field K] [LinearOrder K] [FloorRing K]

/-! ## What is read has a shape -/

/-- A scalar that is read is a value of the grammar. -/
theorem readScalar_sound {cs rest : List Char} {v : JsonValue K}
    (h : readScalar cs = .ok (v, rest)) :
    ∃ t l, IsValue t v l ∧ (∀ x ∈ l, x.Reads) ∧ cs = t ++ rest := by
  unfold readScalar at h
  split_ifs at h with hquote htrue hfalse
  · cases hs : readString cs with
    | error e =>
        rw [hs] at h
        cases h
    | ok r =>
        rw [hs] at h
        obtain ⟨s, rest'⟩ := r
        cases h
        obtain ⟨t, d, b, ht, rfl, rfl⟩ := readString_eq_ok hs
        refine ⟨_, _, .string ht, ?_, ?_⟩
        · intro x hx
          rw [List.mem_singleton.mp hx]
          exact trivial
        · rw [List.cons_append, List.append_assoc]
          rfl
  · cases h
    obtain ⟨r, rfl⟩ := List.isPrefixOf_iff_prefix.mp htrue
    exact ⟨_, _, .true, fun x hx => absurd hx List.not_mem_nil, rfl⟩
  · cases h
    obtain ⟨r, rfl⟩ := List.isPrefixOf_iff_prefix.mp hfalse
    exact ⟨_, _, .false, fun x hx => absurd hx List.not_mem_nil, rfl⟩
  · unfold readNumber at h
    dsimp only at h
    split_ifs at h with hnil
    split at h
    · cases h
    · rename_i n hn
      cases h
      refine ⟨_, _, .number hnil fun c hc => List.mem_takeWhile_imp hc, ?_,
        List.takeWhile_append_dropWhile.symm⟩
      intro x hx
      rw [List.mem_singleton.mp hx]
      exact hn

/-- The reader's three functions with this fuel. -/
def SoundAt (K : Type) [Field K] [LinearOrder K] [FloorRing K] (n : ℕ) : Prop :=
  (∀ cs (v : JsonValue K) rest, readValue n cs = .ok (v, rest) →
    ∃ w t l, IsWs w ∧ IsValue t v l ∧ (∀ x ∈ l, x.Reads) ∧ cs = w ++ (t ++ rest)) ∧
  (∀ more cs (fields : JsonObject K) rest, readFields n more cs = .ok (fields, rest) →
    ∃ t l, IsMembers more t fields l ∧ (∀ x ∈ l, x.Reads) ∧ cs = t ++ '}' :: rest) ∧
  (∀ more cs (items : List (JsonValue K)) rest, readItems n more cs = .ok (items, rest) →
    ∃ t l, IsItems more t items l ∧ (∀ x ∈ l, x.Reads) ∧ cs = t ++ ']' :: rest)

/-- A value that is read is a value of the grammar, behind white space. -/
theorem readValue_sound {n : ℕ} (hn : SoundAt K n) {cs rest : List Char} {v : JsonValue K}
    (h : readValue (n + 1) cs = .ok (v, rest)) :
    ∃ w t l, IsWs w ∧ IsValue t v l ∧ (∀ x ∈ l, x.Reads) ∧ cs = w ++ (t ++ rest) := by
  obtain ⟨w, hw, hcs⟩ := skipWs_split cs
  unfold readValue at h
  split at h
  · cases h
  · rename_i cs' hskip
    obtain ⟨⟨fields, r⟩, hfields, h⟩ := bind_eq_ok h
    cases h
    obtain ⟨t, l, ht, hl, rfl⟩ := hn.2.1 _ _ _ _ hfields
    refine ⟨w, _, l, hw, .object ht, hl, ?_⟩
    rw [hcs, hskip, List.cons_append, List.append_assoc]
    rfl
  · rename_i cs' hskip
    obtain ⟨⟨items, r⟩, hitems, h⟩ := bind_eq_ok h
    cases h
    obtain ⟨t, l, ht, hl, rfl⟩ := hn.2.2 _ _ _ _ hitems
    refine ⟨w, _, l, hw, .array ht, hl, ?_⟩
    rw [hcs, hskip, List.cons_append, List.append_assoc]
    rfl
  · obtain ⟨t, l, ht, hl, hsplit⟩ := readScalar_sound h
    exact ⟨w, t, l, hw, ht, hl, hcs.trans (congrArg (w ++ ·) hsplit)⟩

/-- Fields that are read are members of the grammar. -/
theorem readFields_sound {n : ℕ} (hn : SoundAt K n) {more : Bool} {cs rest : List Char}
    {fields : JsonObject K} (h : readFields (n + 1) more cs = .ok (fields, rest)) :
    ∃ t l, IsMembers more t fields l ∧ (∀ x ∈ l, x.Reads) ∧ cs = t ++ '}' :: rest := by
  obtain ⟨w, hw, hcs⟩ := skipWs_split cs
  unfold readFields at h
  split_ifs at h with hempty
  -- no member at all: the closing brace comes first
  · rw [Bool.and_eq_true, Bool.not_eq_true', decide_eq_true_eq] at hempty
    obtain ⟨rfl, hhead⟩ := hempty
    cases h
    refine ⟨w, [], .none hw, fun x hx => absurd hx List.not_mem_nil, ?_⟩
    cases hskip : skipWs cs with
    | nil =>
        rw [hskip] at hhead
        cases hhead
    | cons c r =>
        rw [hskip] at hhead hcs
        obtain rfl := Option.some.inj hhead
        exact hcs
  -- a member: the key, the colon, the value, and the character behind it
  · obtain ⟨⟨key, r₁⟩, hkey, h⟩ := bind_eq_ok h
    obtain ⟨r₂, hcolon, h⟩ := bind_eq_ok h
    obtain ⟨⟨v, r₃⟩, hvalue, h⟩ := bind_eq_ok h
    obtain ⟨⟨c, r₄⟩, htake, h⟩ := bind_eq_ok h
    obtain ⟨k, s, b, hk, rfl, hskip⟩ := readString_eq_ok hkey
    obtain ⟨w₂, hw₂, hr₁⟩ := skipWs_split r₁
    rw [expect_eq_ok hcolon] at hr₁
    obtain ⟨w₃, t, l, hw₃, ht, hl, hr₂⟩ := hn.1 _ _ _ hvalue
    obtain ⟨w₄, hw₄, hr₃⟩ := skipWs_split r₃
    rw [take_eq_ok htake] at hr₃
    have hmember : IsMember _ _ v _ := .mk hw hk hw₂ hw₃ ht hw₄
    have htext : cs = (w ++ quote :: (k ++ quote :: (w₂ ++ ':' :: (w₃ ++ (t ++ w₄))))) ++ c :: r₄ := by
      rw [hcs, hskip, hr₁, hr₂, hr₃]
      simp only [List.append_assoc, List.cons_append]
    have hreads : ∀ x ∈ Lexeme.string b :: l, x.Reads := by
      intro x hx
      rcases List.mem_cons.mp hx with rfl | hx
      · exact trivial
      · exact hl x hx
    dsimp only at h
    -- behind a comma come the other members, behind a brace nothing
    split_ifs at h with hcomma hbrace
    · obtain ⟨⟨fields', r₅⟩, hrest, h⟩ := bind_eq_ok h
      cases h
      obtain ⟨t', l', ht', hl', rfl⟩ := hn.2.1 _ _ _ _ hrest
      refine ⟨_, _, .cons hmember ht', ?_, ?_⟩
      · intro x hx
        rcases List.mem_append.mp hx with hx | hx
        · exact hreads x hx
        · exact hl' x hx
      · rw [htext, hcomma, List.append_assoc _ (',' :: t')]
        rfl
    · cases h
      exact ⟨_, _, .last hmember, hreads, htext.trans (by rw [hbrace])⟩

/-- Items that are read are items of the grammar. -/
theorem readItems_sound {n : ℕ} (hn : SoundAt K n) {more : Bool} {cs rest : List Char}
    {items : List (JsonValue K)} (h : readItems (n + 1) more cs = .ok (items, rest)) :
    ∃ t l, IsItems more t items l ∧ (∀ x ∈ l, x.Reads) ∧ cs = t ++ ']' :: rest := by
  obtain ⟨w, hw, hcs⟩ := skipWs_split cs
  unfold readItems at h
  split_ifs at h with hempty
  -- an empty array
  · rw [Bool.and_eq_true, Bool.not_eq_true', decide_eq_true_eq] at hempty
    obtain ⟨rfl, hhead⟩ := hempty
    cases h
    refine ⟨w, [], .none hw, fun x hx => absurd hx List.not_mem_nil, ?_⟩
    cases hskip : skipWs cs with
    | nil =>
        rw [hskip] at hhead
        cases hhead
    | cons c r =>
        rw [hskip] at hhead hcs
        obtain rfl := Option.some.inj hhead
        exact hcs
  · obtain ⟨⟨v, r₁⟩, hvalue, h⟩ := bind_eq_ok h
    dsimp only at h
    obtain ⟨⟨c, r₂⟩, htake, h⟩ := bind_eq_ok h
    obtain ⟨w₁, t, l, hw₁, ht, hl, htext⟩ := hn.1 _ _ _ hvalue
    obtain ⟨w₂, hw₂, hr₁⟩ := skipWs_split r₁
    rw [take_eq_ok htake] at hr₁
    dsimp only at h
    split_ifs at h with hcomma hbracket
    -- a comma: the items behind it are sound by the induction
    · obtain ⟨⟨items', r₃⟩, hrest, h⟩ := bind_eq_ok h
      cases h
      obtain ⟨t', l', ht', hl', rfl⟩ := hn.2.2 _ _ _ _ hrest
      refine ⟨_, _, .cons hw₁ ht hw₂ ht', ?_, ?_⟩
      · intro x hx
        rcases List.mem_append.mp hx with hx | hx
        · exact hl x hx
        · exact hl' x hx
      · rw [htext, hr₁, hcomma]
        simp only [List.append_assoc, List.cons_append]
    -- a bracket: this was the last item
    · cases h
      refine ⟨_, _, .last hw₁ ht hw₂, hl, ?_⟩
      rw [htext, hr₁, hbracket]
      simp only [List.append_assoc]

/-- **What is read is of the grammar**, by induction on the fuel. -/
theorem soundAt (n : ℕ) : SoundAt K n := by
  induction n with
  | zero =>
      refine ⟨?_, ?_, ?_⟩
      · intro cs v rest h
        unfold readValue at h
        cases h
      · intro more cs fields rest h
        unfold readFields at h
        cases h
      · intro more cs items rest h
        unfold readItems at h
        cases h
  | succ n ih =>
      exact ⟨fun _ _ _ => readValue_sound ih, fun _ _ _ _ => readFields_sound ih,
        fun _ _ _ _ => readItems_sound ih⟩

/-- **What is read has a shape**, with the values that `std::stod` gives. -/
theorem readFlatObject_sound {body rest : List Char} {fields : JsonObject K}
    (h : readFlatObject body = .ok (fields, rest)) :
    ∃ l, ShapeOf body fields l rest ∧ ∀ x ∈ l, x.Reads := by
  obtain ⟨cs, hexpect, h⟩ := bind_eq_ok h
  obtain ⟨w, hw, hbody⟩ := skipWs_split body
  obtain ⟨t, l, ht, hl, rfl⟩ := (soundAt _).2.1 _ _ _ _ h
  rw [expect_eq_ok hexpect] at hbody
  exact ⟨l, ⟨w, t, hw, ht, hbody⟩, hl⟩

/-! ## What has a shape is read -/

/-- A text that starts with a number character is read as a number. -/
theorem readScalar_number {cs : List Char} (h : ∃ c ∈ cs.head?, isNum c = true) :
    (readScalar cs : Except String (JsonValue K × List Char)) = readNumber cs := by
  obtain ⟨c, hc, hnum⟩ := h
  cases cs with
  | nil => cases hc
  | cons d cs =>
      obtain rfl := Option.some.inj hc
      unfold readScalar
      rw [if_neg, if_neg, if_neg]
      · intro hprefix
        obtain ⟨r, hr⟩ := List.isPrefixOf_iff_prefix.mp hprefix
        obtain rfl := (List.cons.inj hr).1
        exact absurd hnum (by decide)
      · intro hprefix
        obtain ⟨r, hr⟩ := List.isPrefixOf_iff_prefix.mp hprefix
        obtain rfl := (List.cons.inj hr).1
        exact absurd hnum (by decide)
      · intro hquote
        obtain rfl := Option.some.inj hquote
        exact absurd hnum (by decide)

/-- The texts up to this length are read. -/
def CompleteAt (K : Type) [Field K] [LinearOrder K] [FloorRing K] (m : ℕ) : Prop :=
  (∀ t (v : JsonValue K) l, IsValue t v l → t.length ≤ m → (∀ x ∈ l, x.Reads) →
    ∀ n w rest, IsWs w → NoNum rest → 2 * t.length ≤ n →
      readValue n (w ++ (t ++ rest)) = .ok (v, rest)) ∧
  (∀ more t (fields : JsonObject K) l, IsMembers more t fields l → t.length ≤ m →
    (∀ x ∈ l, x.Reads) → ∀ n rest, 2 * (t.length + 1) ≤ n →
      readFields n more (t ++ '}' :: rest) = .ok (fields, rest)) ∧
  (∀ more t (items : List (JsonValue K)) l, IsItems more t items l → t.length ≤ m →
    (∀ x ∈ l, x.Reads) → ∀ n rest, 2 * (t.length + 1) ≤ n →
      readItems n more (t ++ ']' :: rest) = .ok (items, rest))

/-- A value of the grammar is read, with fuel for twice its length. -/
theorem readValue_complete {m : ℕ} (hm : ∀ k < m, CompleteAt K k) {t : List Char}
    {v : JsonValue K} {l : List (Lexeme K)} (h : IsValue t v l) (ht : t.length ≤ m)
    (hl : ∀ x ∈ l, x.Reads) {n : ℕ} {w rest : List Char} (hw : IsWs w) (hrest : NoNum rest)
    (hn : 2 * t.length ≤ n) : readValue n (w ++ (t ++ rest)) = .ok (v, rest) := by
  obtain ⟨c, cs, hcons, hkind, hc⟩ := h.lead
  obtain ⟨n, rfl⟩ : ∃ k, n = k + 1 := ⟨n - 1, by rw [hcons, List.length_cons] at hn; omega⟩
  have hskip : skipWs (w ++ (t ++ rest)) = t ++ rest := skipWs_ws hw (h.noWs rest)
  rw [readValue.eq_def]
  dsimp only
  rw [hskip]
  -- one case for each form of a value; the numbers are the lexemes that the reader takes
  cases h with
  | string hs =>
      rw [List.cons_append, List.append_assoc]
      show readScalar _ = _
      unfold readScalar
      rw [List.head?_cons, if_pos rfl]
      show (readString (quote :: (_ ++ quote :: rest))).map _ = _
      rw [readString_complete hs]
      rfl
  | number hne hnum =>
      have hread := hl _ List.mem_cons_self
      have hspan := span_run hnum hrest
      rw [hcons] at hnum hspan hread
      have hcnum := hnum c List.mem_cons_self
      have hnot : ∀ d, ¬ isNum d = true → ¬ c = d := by
        rintro d hd rfl
        exact hd hcnum
      rw [hcons, List.cons_append]
      rw [List.cons_append] at hspan
      split
      · rename_i heq
        cases heq
      · rename_i heq
        exact absurd (List.cons.inj heq).1 (hnot _ (by decide))
      · rename_i heq
        exact absurd (List.cons.inj heq).1 (hnot _ (by decide))
      · rw [readScalar_number ⟨c, rfl, hcnum⟩]
        unfold readNumber
        rw [hspan.1, hspan.2, if_neg (List.cons_ne_nil c cs), show stod (c :: cs) = some _ from hread]
  | true => rfl
  | false => rfl
  | object hmembers =>
      rw [List.length_cons, List.length_append] at ht hn
      have hbody := (hm (m - 1) (by omega)).2.1 _ _ _ _ hmembers (by omega) hl n rest
        (by simp only [List.length_cons, List.length_nil] at hn; omega)
      rw [List.cons_append, List.append_assoc]
      change (readFields n false (_ ++ '}' :: rest) >>= _) = _
      rw [hbody]
      rfl
  | array hitems =>
      rw [List.length_cons, List.length_append] at ht hn
      have hbody := (hm (m - 1) (by omega)).2.2 _ _ _ _ hitems (by omega) hl n rest
        (by simp only [List.length_cons, List.length_nil] at hn; omega)
      rw [List.cons_append, List.append_assoc]
      change (readItems n false (_ ++ ']' :: rest) >>= _) = _
      rw [hbody]
      rfl

/-- One member of an object, up to its separator. -/
theorem readFields_member {n : ℕ} {more : Bool} {w₁ k s b w₂ w₃ t w₄ : List Char} {v : JsonValue K}
    (hw₁ : IsWs w₁) (hk : IsChars k s b) (hw₂ : IsWs w₂) (hw₄ : IsWs w₄) {c : Char}
    (hc : ¬ (c = ' ' ∨ c = '\t' ∨ c = '\n' ∨ c = '\r')) {r : List Char}
    (hread : readValue n (w₃ ++ (t ++ (w₄ ++ c :: r))) = .ok (v, w₄ ++ c :: r)) :
    readFields (n + 1) more
        (w₁ ++ quote :: (k ++ quote :: (w₂ ++ ':' :: (w₃ ++ (t ++ w₄)))) ++ c :: r)
      = if c = ',' then do
          let (fields, rest) ← readFields n true r
          pure ((String.ofList s, v) :: fields, rest)
        else if c = '}' then .ok ([(String.ofList s, v)], r)
        else throw "expected ',' or '\x7d' between fields" := by
  have htext : w₁ ++ quote :: (k ++ quote :: (w₂ ++ ':' :: (w₃ ++ (t ++ w₄)))) ++ c :: r
      = w₁ ++ quote :: (k ++ quote :: (w₂ ++ ':' :: (w₃ ++ (t ++ (w₄ ++ c :: r))))) := by
    simp only [List.append_assoc, List.cons_append]
  have hkey := readString_complete hk (w₂ ++ ':' :: (w₃ ++ (t ++ (w₄ ++ c :: r))))
  have hcolon : expect ':' (skipWs (w₂ ++ ':' :: (w₃ ++ (t ++ (w₄ ++ c :: r)))))
      = .ok (w₃ ++ (t ++ (w₄ ++ c :: r))) := by
    rw [skipWs_ws hw₂ (noWs_cons (by decide) _)]
    rfl
  have htake : take (skipWs (w₄ ++ c :: r)) = .ok (c, r) := by
    rw [skipWs_ws hw₄ (noWs_cons hc _)]
    rfl
  have hskip : skipWs (w₁ ++ quote :: (k ++ quote :: (w₂ ++ ':' :: (w₃ ++ (t ++ (w₄ ++ c :: r))))))
      = quote :: (k ++ quote :: (w₂ ++ ':' :: (w₃ ++ (t ++ (w₄ ++ c :: r))))) :=
    skipWs_ws hw₁ (noWs_cons (by decide) _)
  have hfirst : ¬ (!more && decide (some quote = some '}')) = true := by
    rw [decide_eq_false (by decide), Bool.and_false]
    exact Bool.false_ne_true
  rw [htext, readFields.eq_def]
  dsimp only
  rw [hskip, List.head?_cons, if_neg hfirst, hkey]
  simp only [bind, Except.bind, hcolon, hread, htake]
  rfl

/-- An item of the grammar is read up to the comma or the bracket behind it. -/
theorem readItems_item {n : ℕ} {more : Bool} {w₁ t w₂ : List Char} {v : JsonValue K}
    {l : List (Lexeme K)} (hw₁ : IsWs w₁) (ht : IsValue t v l) (hw₂ : IsWs w₂) {c : Char}
    (hc : ¬ (c = ' ' ∨ c = '\t' ∨ c = '\n' ∨ c = '\r')) {r : List Char}
    (hread : readValue n (w₁ ++ (t ++ (w₂ ++ c :: r))) = .ok (v, w₂ ++ c :: r)) :
    readItems (n + 1) more (w₁ ++ (t ++ (w₂ ++ c :: r)))
      = if c = ',' then do
          let (items, rest) ← readItems n true r
          pure (v :: items, rest)
        else if c = ']' then .ok ([v], r)
        else throw "expected ',' or ']' in array" := by
  have htake : take (skipWs (w₂ ++ c :: r)) = .ok (c, r) := by
    rw [skipWs_ws hw₂ (noWs_cons hc _)]
    rfl
  have hfirst : ¬ (!more && decide ((skipWs (w₁ ++ (t ++ (w₂ ++ c :: r)))).head? = some ']'))
      = true := by
    obtain ⟨d, ds, hd, hkind, -⟩ := ht.lead
    have hne : ¬ some d = some ']' := by
      intro h
      obtain rfl := Option.some.inj h
      have hlt := hkind ▸ valueKind_lt v
      exact absurd hlt (by decide)
    rw [skipWs_ws hw₁ (ht.noWs _), hd, List.cons_append, List.head?_cons, decide_eq_false hne,
      Bool.and_false]
    exact Bool.false_ne_true
  rw [readItems.eq_def]
  dsimp only
  rw [if_neg hfirst]
  simp only [bind, Except.bind, hread, htake]
  rfl

/-- Members of the grammar are read up to their brace. -/
theorem readFields_complete {m : ℕ} (hm : ∀ k < m, CompleteAt K k) {more : Bool} {t : List Char}
    {fields : JsonObject K} {l : List (Lexeme K)} (h : IsMembers more t fields l)
    (ht : t.length ≤ m) (hl : ∀ x ∈ l, x.Reads) {n : ℕ} {rest : List Char}
    (hn : 2 * (t.length + 1) ≤ n) : readFields n more (t ++ '}' :: rest) = .ok (fields, rest) := by
  obtain ⟨n, rfl⟩ : ∃ k, n = k + 1 := ⟨n - 1, by omega⟩
  cases h with
  | none hw =>
      rw [readFields.eq_def]
      dsimp only
      rw [skipWs_ws hw (noWs_cons (by decide) _)]
      exact if_pos rfl
  | last hmember =>
      obtain ⟨hw₁, hk, hw₂, hw₃, hv, hw₄⟩ := hmember
      simp only [List.length_append, List.length_cons] at ht hn
      rw [readFields_member hw₁ hk hw₂ hw₄ (by decide), if_neg (by decide), if_pos rfl]
      exact (hm (m - 1) (by omega)).1 _ _ _ hv (by omega) (fun x hx => hl x (List.mem_cons_of_mem _ hx))
        n _ _ hw₃ (noNum_behind hw₄ (by decide) _) (by omega)
  | cons hmember hr =>
      obtain ⟨hw₁, hk, hw₂, hw₃, hv, hw₄⟩ := hmember
      simp only [List.length_append, List.length_cons] at ht hn
      have hrest := (hm (m - 1) (by omega)).2.1 _ _ _ _ hr (by omega)
        (fun x hx => hl x (List.mem_append_right _ hx)) n rest (by omega)
      rw [List.append_assoc, List.cons_append, readFields_member hw₁ hk hw₂ hw₄ (by decide),
        if_pos rfl, hrest]
      · rfl
      · exact (hm (m - 1) (by omega)).1 _ _ _ hv (by omega)
          (fun x hx => hl x (List.mem_append_left _ (List.mem_cons_of_mem _ hx)))
          n _ _ hw₃ (noNum_behind hw₄ (by decide) _) (by omega)

/-- Items of the grammar are read up to their bracket. -/
theorem readItems_complete {m : ℕ} (hm : ∀ k < m, CompleteAt K k)
    (hvalue : ∀ t (v : JsonValue K) l, IsValue t v l → t.length ≤ m → (∀ x ∈ l, x.Reads) →
      ∀ n w rest, IsWs w → NoNum rest → 2 * t.length ≤ n →
        readValue n (w ++ (t ++ rest)) = .ok (v, rest)) {more : Bool} {t : List Char}
    {items : List (JsonValue K)} {l : List (Lexeme K)} (h : IsItems more t items l)
    (ht : t.length ≤ m) (hl : ∀ x ∈ l, x.Reads) {n : ℕ} {rest : List Char}
    (hn : 2 * (t.length + 1) ≤ n) : readItems n more (t ++ ']' :: rest) = .ok (items, rest) := by
  obtain ⟨n, rfl⟩ : ∃ k, n = k + 1 := ⟨n - 1, by omega⟩
  cases h with
  | none hw =>
      rw [readItems.eq_def]
      dsimp only
      rw [skipWs_ws hw (noWs_cons (by decide) _)]
      exact if_pos rfl
  | last hw₁ hv hw₂ =>
      simp only [List.length_append] at ht hn
      rw [List.append_assoc, List.append_assoc, readItems_item hw₁ hv hw₂ (by decide),
        if_neg (by decide), if_pos rfl]
      exact hvalue _ _ _ hv (by omega) hl n _ _ hw₁ (noNum_behind hw₂ (by decide) _) (by omega)
  | cons hw₁ hv hw₂ hr =>
      simp only [List.length_append, List.length_cons] at ht hn
      have hrest := (hm (m - 1) (by omega)).2.2 _ _ _ _ hr (by omega)
        (fun x hx => hl x (List.mem_append_right _ hx)) n rest (by omega)
      rw [List.append_assoc, List.append_assoc, List.append_assoc, List.cons_append,
        readItems_item hw₁ hv hw₂ (by decide), if_pos rfl, hrest]
      · rfl
      · exact hvalue _ _ _ hv (by omega) (fun x hx => hl x (List.mem_append_left _ hx)) n _ _ hw₁
          (noNum_behind hw₂ (by decide) _) (by omega)

/-- **What is of the grammar is read**, by induction on the length of the text. -/
theorem completeAt (m : ℕ) : CompleteAt K m := by
  induction m using Nat.strongRecOn with
  | ind m ih =>
    have hvalue : ∀ t (v : JsonValue K) l, IsValue t v l → t.length ≤ m → (∀ x ∈ l, x.Reads) →
        ∀ n w rest, IsWs w → NoNum rest → 2 * t.length ≤ n →
          readValue n (w ++ (t ++ rest)) = .ok (v, rest) :=
      fun _ _ _ h ht hl _ _ _ => readValue_complete ih h ht hl
    exact ⟨hvalue, fun _ _ _ _ h ht hl _ _ => readFields_complete ih h ht hl,
      fun _ _ _ _ h ht hl _ _ => readItems_complete ih hvalue h ht hl⟩

/-- **What has a shape is read**, when the reader knows its values. -/
theorem readFlatObject_complete {body rest : List Char} {fields : JsonObject K}
    {l : List (Lexeme K)} (h : ShapeOf body fields l rest) (hl : ∀ x ∈ l, x.Reads) :
    readFlatObject body = .ok (fields, rest) := by
  obtain ⟨w, t, hw, ht, rfl⟩ := h
  have hbody := (completeAt t.length).2.1 _ _ _ _ ht (le_refl _) hl
    (2 * (w ++ '{' :: (t ++ '}' :: rest)).length) rest (by
      simp only [List.length_append, List.length_cons]
      omega)
  unfold readFlatObject
  rw [skipWs_ws hw (noWs_cons (by decide) _)]
  exact hbody

/-! ## The values of the numbers -/

/-- The values that `std::stod` gives. -/
theorem reads_relabel {l : List (Lexeme K)} (h : ∀ x ∈ l, x.Readable) :
    ∀ x ∈ l.map (Lexeme.relabel fun t => (stod t).getD 0), x.Reads := by
  intro x hx
  obtain ⟨y, hy, rfl⟩ := List.mem_map.mp hx
  cases y with
  | string b => exact trivial
  | number t v =>
      obtain ⟨u, hu⟩ := Option.isSome_iff_exists.mp (h _ hy)
      show stod t = some ((stod t).getD 0)
      rw [hu, Option.getD_some]

open Classical in
/-- The values that the grammar gives. -/
theorem exists_json_relabel {l : List (Lexeme K)} (h : ∀ x ∈ l, x.WellFormed) :
    ∃ g : List Char → K, ∀ x ∈ l.map (Lexeme.relabel g), x.Json := by
  refine ⟨fun t => if hv : ∃ v : K, Denotes t v then FloatFormat.double.round hv.choose else 0, ?_⟩
  intro x hx
  obtain ⟨y, hy, rfl⟩ := List.mem_map.mp hx
  cases y with
  | string b => exact h _ hy
  | number t v =>
      have hv : ∃ v : K, Denotes t v := h _ hy
      exact ⟨hv.choose, hv.choose_spec, dif_pos hv⟩

/-- Being readable is a matter of the token. -/
theorem Lexeme.readable_congr (x y : Lexeme K) (h : x.token = y.token) (hx : x.Readable) :
    y.Readable := by
  cases x <;> cases y <;> cases h <;> exact hx

/-- What is read is readable. -/
theorem Lexeme.Reads.readable {x : Lexeme K} (h : x.Reads) : x.Readable := by
  cases x with
  | string b => exact trivial
  | number t v => exact Option.isSome_iff_exists.mpr ⟨v, h⟩

/-- What is JSON is of the grammar. -/
theorem Lexeme.Json.wellFormed {x : Lexeme K} (h : x.Json) : x.WellFormed := by
  cases x with
  | string b => exact h
  | number t v => exact h.imp fun d hd => hd.1

/-- A well-formed lexeme that is read is read right. -/
theorem Lexeme.Reads.json {x : Lexeme K} (h : x.Reads) (hwell : x.WellFormed) : x.Json := by
  cases x with
  | string b => exact hwell
  | number t v => exact hwell.imp fun d hd => ⟨hd, stod_of_denotes hd h⟩

/-! ## The deviations -/

namespace Lexeme

/-- A token that only begins with a number: `+1`, `01`, `.5`, `1.`, `1-2`. -/
def Loose : Lexeme K → Prop
  | .number t _ => (∀ d : K, ¬ Denotes t d) ∧
      ∃ m : K, leadingMagnitude t = some m ∧ ¬ RangeError m
  | .string _ => False

/-- A number of the grammar that no `double` stands for: `1e999`, `1e-999`. -/
def OutOfRange : Lexeme K → Prop
  | .number t _ => ∃ n : JsonNumber, n.text = t ∧ RangeError (n.magnitude : K)
  | .string _ => False

/-- A token that is no number for the grammar and none for `std::stod`: `-`, `e5`, `+1e999`. -/
def Dead : Lexeme K → Prop
  | .number t _ => (∀ d : K, ¬ Denotes t d) ∧
      ∀ m : K, leadingMagnitude t = some m → RangeError m
  | .string _ => False

/-- A string with a control character. -/
def Raw : Lexeme K → Prop
  | .number _ _ => False
  | .string b => ∃ c ∈ b, c.toNat < 32

/-- `std::stod` takes every token but the dead ones and those out of range. -/
theorem readable_iff (x : Lexeme K) : x.Readable ↔ ¬ x.Dead ∧ ¬ x.OutOfRange := by
  cases x with
  | string b => exact ⟨fun _ => ⟨id, id⟩, fun _ => trivial⟩
  | number t v =>
      show (stod t : Option K).isSome = true ↔ _
      rw [isSome_stod_iff]
      constructor
      · rintro ⟨m, hm, hrange⟩
        refine ⟨fun hdead => hrange (hdead.2 m hm), ?_⟩
        rintro ⟨n, rfl, hout⟩
        rw [n.leadingMagnitude_text] at hm
        exact hrange (Option.some.inj hm ▸ hout)
      · rintro ⟨hdead, hout⟩
        by_cases hjson : ∃ d : K, Denotes t d
        · obtain ⟨-, n, rfl, -⟩ := hjson
          exact ⟨_, n.leadingMagnitude_text, fun hrange => hout ⟨n, rfl, hrange⟩⟩
        · by_contra hnone
          push Not at hjson hnone
          exact hdead ⟨hjson, hnone⟩

/-- The grammar takes every lexeme but the dead ones, the loose ones and raw control characters. -/
theorem wellFormed_iff (x : Lexeme K) : x.WellFormed ↔ ¬ x.Dead ∧ ¬ (x.Loose ∨ x.Raw) := by
  cases x with
  | string b =>
      show (∀ c ∈ b, 32 ≤ c.toNat) ↔ ¬ False ∧ ¬ (False ∨ ∃ c ∈ b, c.toNat < 32)
      simp only [not_false_eq_true, true_and, false_or, not_exists, not_and, not_lt]
  | number t v =>
      show (∃ d : K, Denotes t d) ↔ _
      constructor
      · rintro ⟨d, hd⟩
        refine ⟨fun hdead => hdead.1 d hd, ?_⟩
        rintro (hloose | hraw)
        · exact hloose.1 d hd
        · exact hraw
      · rintro ⟨hdead, hloose⟩
        by_contra hnone
        rw [not_exists] at hnone
        -- what is not JSON is loose or dead
        by_cases htaken : ∃ m : K, leadingMagnitude t = some m ∧ ¬ RangeError m
        · exact hloose (.inl ⟨hnone, htaken⟩)
        · push Not at htaken
          exact hdead ⟨hnone, htaken⟩

end Lexeme

/-! ## The bodies that are taken right -/

/-- **The reader takes the body exactly when it is one JSON object**, and then reads its fields. -/
def TakesObject (K : Type) [Field K] [LinearOrder K] [FloorRing K] (body : List Char) : Prop :=
  ((∃ r, readFlatObject (K := K) body = .ok r) ↔ ∃ fields : JsonObject K, JsonBody body fields) ∧
    ∀ (fields : JsonObject K) rest, readFlatObject body = .ok (fields, rest) → JsonBody body fields

/-- The reader takes a body by its tokens, the grammar by its lexemes and what follows. -/
theorem takesObject_iff_lexemes (body : List Char) : TakesObject K body ↔
    ∀ (fields : JsonObject K) l rest, ShapeOf body fields l rest →
      ((∀ x ∈ l, x.Readable) ↔ IsWs rest ∧ ∀ x ∈ l, x.WellFormed) := by
  constructor
  · rintro ⟨haccept, hfields⟩ fields l rest hshape
    constructor
    · intro hreadable
      obtain ⟨read, hread⟩ := hshape.relabel fun t => (stod t).getD 0
      obtain ⟨l', rest', hshape', hws, hjson⟩ := hfields read rest
        (readFlatObject_complete hread (reads_relabel hreadable))
      obtain ⟨htokens, rfl⟩ := hshape'.unique hshape
      exact ⟨hws, forall_congr_token Lexeme.wellFormed_congr htokens
        fun x hx => (hjson x hx).wellFormed⟩
    · rintro ⟨hws, hwell⟩
      obtain ⟨g, hjson⟩ := exists_json_relabel hwell
      obtain ⟨denoted, hdenoted⟩ := hshape.relabel g
      obtain ⟨⟨read, rest'⟩, hread⟩ := haccept.mpr ⟨denoted, _, rest, hdenoted, hws, hjson⟩
      obtain ⟨l', hshape', hreads⟩ := readFlatObject_sound hread
      exact forall_congr_token Lexeme.readable_congr (hshape'.unique hshape).1
        fun x hx => (hreads x hx).readable
  · intro hsame
    have hright : ∀ (fields : JsonObject K) rest, readFlatObject body = .ok (fields, rest) →
        JsonBody body fields := by
      intro fields rest hread
      obtain ⟨l, hshape, hreads⟩ := readFlatObject_sound hread
      obtain ⟨hws, hwell⟩ := (hsame fields l rest hshape).mp fun x hx => (hreads x hx).readable
      exact ⟨l, rest, hshape, hws, fun x hx => (hreads x hx).json (hwell x hx)⟩
    refine ⟨⟨?_, ?_⟩, hright⟩
    · rintro ⟨⟨fields, rest⟩, hread⟩
      exact ⟨fields, hright fields rest hread⟩
    · rintro ⟨fields, l, rest, hshape, hws, hjson⟩
      have hreadable := (hsame fields l rest hshape).mpr ⟨hws, fun x hx => (hjson x hx).wellFormed⟩
      obtain ⟨read, hread⟩ := hshape.relabel fun t => (stod t).getD 0
      exact ⟨_, readFlatObject_complete hread (reads_relabel hreadable)⟩

/-- **A plain body**, judged by the object shape that it starts with: a token is dead, or a number is
out of range exactly if some token is loose, some control character is raw, or more than white space
follows. -/
def PlainBody (K : Type) [Field K] [LinearOrder K] [FloorRing K] (body : List Char) : Prop :=
  ∀ (fields : JsonObject K) l rest, ShapeOf body fields l rest →
    (∃ x ∈ l, x.Dead) ∨
      ((∃ x ∈ l, x.OutOfRange) ↔ (∃ x ∈ l, x.Loose ∨ x.Raw) ∨ ¬ IsWs rest)

variable (K) in
/-- **What the request reader gets right.** For every body, the reader takes it exactly when it is
one JSON object, with the values of its numbers, if and only if it is plain. -/
theorem takes_object_iff (body : List Char) : TakesObject K body ↔ PlainBody K body := by
  rw [takesObject_iff_lexemes]
  refine forall_congr' fun fields => forall_congr' fun l => forall_congr' fun rest =>
    forall_congr' fun _ => ?_
  by_cases hdead : ∃ x ∈ l, x.Dead
  · -- both sides refuse the body
    obtain ⟨x, hx, hxdead⟩ := hdead
    refine ⟨fun _ => .inl ⟨x, hx, hxdead⟩, fun _ => ⟨fun h => ?_, fun h => ?_⟩⟩
    · exact absurd hxdead ((Lexeme.readable_iff x).mp (h x hx)).1
    · exact absurd hxdead ((Lexeme.wellFormed_iff x).mp (h.2 x hx)).1
  · have hreadable : (∀ x ∈ l, x.Readable) ↔ ¬ ∃ x ∈ l, x.OutOfRange := by
      constructor
      · rintro h ⟨x, hx, hout⟩
        exact ((Lexeme.readable_iff x).mp (h x hx)).2 hout
      · exact fun h x hx => (Lexeme.readable_iff x).mpr
          ⟨fun hd => hdead ⟨x, hx, hd⟩, fun hout => h ⟨x, hx, hout⟩⟩
    have hwell : (∀ x ∈ l, x.WellFormed) ↔ ¬ ∃ x ∈ l, x.Loose ∨ x.Raw := by
      constructor
      · rintro h ⟨x, hx, hout⟩
        exact ((Lexeme.wellFormed_iff x).mp (h x hx)).2 hout
      · exact fun h x hx => (Lexeme.wellFormed_iff x).mpr
          ⟨fun hd => hdead ⟨x, hx, hd⟩, fun hout => h ⟨x, hx, hout⟩⟩
    rw [hreadable, hwell, or_iff_right hdead]
    generalize (∃ x ∈ l, x.OutOfRange) = out
    generalize (∃ x ∈ l, x.Loose ∨ x.Raw) = bad
    generalize IsWs rest = ws
    tauto

end Bodies

/-- What stands behind the object is not looked at. -/
theorem trailing_bytes_are_dropped : ¬ TakesObject ℚ "{}x".toList := by
  intro h
  have hread : readFlatObject (K := ℚ) "{}x".toList = .ok ([], ['x']) := rfl
  have hshape : ShapeOf "{}x".toList ([] : JsonObject ℚ) [] ['x'] :=
    ⟨[], [], fun _ hc => absurd hc List.not_mem_nil, .none fun _ hc => absurd hc List.not_mem_nil,
      rfl⟩
  obtain ⟨l, rest, hshape', hws, -⟩ := h.2 [] ['x'] hread
  obtain ⟨-, rfl⟩ := hshape'.unique hshape
  exact absurd (hws 'x' List.mem_cons_self) (by decide)
