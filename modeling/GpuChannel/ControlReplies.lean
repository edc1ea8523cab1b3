/-
# The text of a reply

The reply builders of control_server.cpp: `json_escape`, `make_error_reply`,
`make_success_reply_v2`, `make_profile_swap_reply` and the texts that the batch and swap handlers
put together themselves.  A reply is written member by member; each text written is a value of the
grammar with known contents, so the server's own reader takes the whole of it and finds every
echoed text as it was.

`handle_batch_begin` alone writes the client's id without the escape.  Its reply is read back
exactly for the ids that need none.
-/
import GpuChannel.JsonBodies
import GpuChannel.RationalScalars

open JsonReader

/-! ## Writing -/

/-- `json_escape`. -/
def jsonEscape : List Char → List Char
  | [] => []
  | c :: cs =>
      if c = quote ∨ c = backslash then backslash :: c :: jsonEscape cs
      else if c = '\n' then backslash :: 'n' :: jsonEscape cs
      else c :: jsonEscape cs

/-- A text between quotes. -/
def stringText (s : List Char) : List Char := quote :: (s ++ [quote])

/-- `std::to_string` of a 64-bit counter. -/
def counterText (n : ℕ) : List Char := Nat.toDigits 10 (n % 2 ^ 64)

/-- The texts with a comma between each two. -/
def joinCommas : List (List Char) → List Char
  | [] => []
  | [t] => t
  | t :: ts => t ++ ',' :: joinCommas ts

/-- A key and the text of its value. -/
def memberText (m : String × List Char) : List Char := stringText m.1.toList ++ ':' :: m.2

def objectText (members : List (String × List Char)) : List Char :=
  '{' :: (joinCommas (members.map memberText) ++ ['}'])

def arrayText (items : List (List Char)) : List Char := '[' :: (joinCommas items ++ [']'])

/-- One entry of `links` in the reply of `handle_batch_commit`. -/
def committedLinkText (link : String × ℕ × Option ℕ) : List Char :=
  objectText ([("link_id", stringText (jsonEscape link.1.toList)),
      ("seqno", counterText link.2.1)] ++
    link.2.2.toList.map fun w => ("warmup_until_slot", counterText w))

/-- The members of a reply, as its builder writes them. -/
def Reply.members : Reply → List (String × List Char)
  | .error reason =>
      [("ok", "false".toList), ("error", stringText (jsonEscape reason.toList))]
  | .staged => [("ok", "true".toList), ("staged", "true".toList)]
  | .applied seqno appliedAtSlot =>
      [("ok", "true".toList), ("seqno", counterText seqno),
       ("applied_at_slot", counterText appliedAtSlot)]
  | .profileApplied seqno appliedAtSlot warmupUntilSlot =>
      [("ok", "true".toList), ("seqno", counterText seqno),
       ("applied_at_slot", counterText appliedAtSlot),
       ("warmup_until_slot", counterText warmupUntilSlot)]
  | .correlationApplied seqno => [("ok", "true".toList), ("seqno", counterText seqno)]
  -- `handle_batch_begin` concatenates the id as it is
  | .batchBegun batchId => [("ok", "true".toList), ("batch_id", stringText batchId.toList)]
  | .batchCommitted batchId backend linkCount applyAtSlot links =>
      [("ok", "true".toList), ("batch_id", stringText (jsonEscape batchId.toList)),
       ("backend", stringText (jsonEscape backend.toList)), ("link_count", counterText linkCount),
       ("apply_at_slot", counterText applyAtSlot),
       ("links", arrayText (links.map committedLinkText))]
  | .batchAborted droppedOps =>
      [("ok", "true".toList), ("dropped_ops", counterText droppedOps)]

/-- **The reply body.** -/
def Reply.render (r : Reply) : List Char := objectText r.members

example : (Reply.batchCommitted "b" "cpu" 1 9 [("l", 4, some 10)]).render =
    ("\x7b\"ok\":true,\"batch_id\":\"b\",\"backend\":\"cpu\",\"link_count\":1," ++
      "\"apply_at_slot\":9,\"links\":[\x7b\"link_id\":\"l\",\"seqno\":4," ++
      "\"warmup_until_slot\":10\x7d]\x7d").toList := by
  decide +kernel

/-! ## What the texts are values of -/

section Replies

variable {K : Type} [Field K] [LinearOrder K] [FloorRing K]

/-- **The text is a value of the grammar** and the reader knows its numbers. -/
def Writes (t : List Char) (v : JsonValue K) : Prop := ∃ l, IsValue t v l ∧ ∀ x ∈ l, x.Reads

/-- No character needs an escape to be read. -/
def IsPlain (s : List Char) : Prop := ∀ c ∈ s, c ≠ quote ∧ c ≠ backslash

/-- A plain text is the characters that it stands for. -/
theorem IsPlain.isChars {s : List Char} (h : IsPlain s) : IsChars s s s := by
  induction s with
  | nil => exact .nil
  | cons c cs ih =>
      obtain ⟨hquote, hback⟩ := h c List.mem_cons_self
      exact .bare hquote hback (ih fun d hd => h d (List.mem_cons_of_mem c hd))

/-- **The escape stands for the text**, whatever its characters. -/
theorem isChars_jsonEscape (s : List Char) : ∃ b, IsChars (jsonEscape s) s b := by
  induction s with
  | nil => exact ⟨[], .nil⟩
  | cons c cs ih =>
      obtain ⟨b, hb⟩ := ih
      unfold jsonEscape
      split_ifs with hspecial hline
      · have hpair : (c, c) ∈ [(quote, quote), (backslash, backslash), ('n', '\n')] := by
          rcases hspecial with rfl | rfl
          · exact List.mem_cons_self
          · exact List.mem_cons_of_mem _ List.mem_cons_self
        exact ⟨b, .escaped hpair hb⟩
      · subst hline
        exact ⟨b, .escaped (List.mem_cons_of_mem _ (List.mem_cons_of_mem _ List.mem_cons_self)) hb⟩
      · rw [not_or] at hspecial
        exact ⟨c :: b, .bare hspecial.1 hspecial.2 hb⟩

/-- A quoted text of characters is read as a string. -/
theorem writes_chars {t s b : List Char} (h : IsChars t s b) :
    Writes (K := K) (stringText t) (.string (String.ofList s)) := by
  refine ⟨_, .string h, ?_⟩
  intro x hx
  rw [List.mem_singleton.mp hx]
  exact trivial

/-- An escaped text is read as the text before the escapes. -/
theorem writes_escaped (s : String) :
    Writes (K := K) (stringText (jsonEscape s.toList)) (.string s) := by
  obtain ⟨b, hb⟩ := isChars_jsonEscape s.toList
  have h := writes_chars (K := K) hb
  rwa [String.ofList_toList] at h

/-- The flag `true` is read back. -/
theorem writes_true : Writes (K := K) "true".toList (.bool true) :=
  ⟨[], .true, fun _ hx => absurd hx List.not_mem_nil⟩

/-- The flag `false` is read back. -/
theorem writes_false : Writes (K := K) "false".toList (.bool false) :=
  ⟨[], .false, fun _ hx => absurd hx List.not_mem_nil⟩

/-! ### Counters -/

omit [LinearOrder K] [FloorRing K] in
/-- A run of digits is a magnitude without fraction and exponent. -/
theorem magnitudeOf_digits {t : List Char} (hne : t ≠ []) (ht : ∀ c ∈ t, c.isDigit = true) :
    magnitudeOf (K := K) t = some (decimalValue t : K) := by
  have hspan : (t ++ []).takeWhile Char.isDigit = t ∧ (t ++ []).dropWhile Char.isDigit = [] :=
    span_run ht fun c hc => by cases hc
  rw [List.append_nil] at hspan
  have hpoint : ¬ ([] : List Char).head? = some '.' := nofun
  unfold magnitudeOf
  rw [hspan.1, hspan.2]
  dsimp only
  rw [if_neg hpoint, if_neg hpoint, if_neg fun h => hne h.1, List.append_nil, exponentOf,
    List.length_nil, Nat.cast_zero, sub_zero, zpow_zero, mul_one]

/-- The digits of a number have its value. -/
theorem decimalValue_toDigits (n : ℕ) : decimalValue (Nat.toDigits 10 n) = n :=
  Nat.ofDigitChars_ten_toDigits

/-- The counters are in the range of `std::stod`. -/
theorem counter_in_range [IsStrictOrderedRing K] {n : ℕ} (hn : n < 2 ^ 64) :
    ¬ RangeError (n : K) := by
  rintro (hlarge | ⟨hsmall, hinexact⟩)
  · have hlt : (n : K) < 2 ^ (1024 : ℤ) - 2 ^ (970 : ℤ) := by
      rw [show (1024 : ℤ) = (1024 : ℕ) from rfl, show (970 : ℤ) = (970 : ℕ) from rfl, zpow_natCast,
        zpow_natCast]
      calc (n : K) < 2 ^ 64 := by exact_mod_cast hn
        _ ≤ 2 ^ 970 := pow_le_pow_right₀ one_le_two (by norm_num)
        _ = 2 ^ 971 - 2 ^ 970 := by rw [pow_succ (2 : K) 970, mul_two, add_sub_cancel_right]
        _ ≤ 2 ^ 1024 - 2 ^ 970 :=
          sub_le_sub_right (pow_le_pow_right₀ one_le_two (by norm_num)) _
    exact absurd hlarge (not_le.mpr hlt)
  · -- below the normal numbers there is no counter but zero, which is exact
    have htiny : (2 : K) ^ (-1022 : ℤ) ≤ 1 := zpow_le_one_of_nonpos₀ one_le_two (by norm_num)
    have hpos : (0 : K) < 2 ^ (-1076 : ℤ) := zpow_pos two_pos _
    have hlt : (n : K) < 1 := by linarith
    have hzero : n = 0 := by
      have : n < 1 := by exact_mod_cast hlt
      omega
    apply hinexact
    rw [hzero, Nat.cast_zero, FloatFormat.round_zero]

/-- A counter is read as the `double` next to it. -/
theorem stod_counterText [IsStrictOrderedRing K] (n : ℕ) : stod (K := K) (counterText n) =
    some (FloatFormat.double.round ((n % 2 ^ 64 : ℕ) : K)) := by
  have hdigits : ∀ c ∈ counterText n, c.isDigit = true :=
    fun c hc => Nat.isDigit_of_mem_toDigits (by decide) (by decide) hc
  have hsign : splitSign (counterText n) = (false, counterText n) :=
    splitSign_of_digit fun c hc => hdigits c (List.mem_of_mem_head? hc)
  have hmagnitude : leadingMagnitude (K := K) (counterText n) = some ((n % 2 ^ 64 : ℕ) : K) := by
    rw [leadingMagnitude, hsign,
      magnitudeOf_digits (t := counterText n) Nat.toDigits_ne_nil hdigits, counterText,
      decimalValue_toDigits]
  have hrange := counter_in_range (K := K) (Nat.mod_lt n (by positivity : 0 < 2 ^ 64))
  rw [stod, hmagnitude, hsign]
  dsimp only
  rw [if_neg hrange, if_neg Bool.false_ne_true]

/-- A counter is read as its number. -/
theorem writes_counter [IsStrictOrderedRing K] (n : ℕ) :
    Writes (K := K) (counterText n)
      (.number (FloatFormat.double.round ((n % 2 ^ 64 : ℕ) : K))) := by
  refine ⟨_, .number Nat.toDigits_ne_nil ?_, ?_⟩
  · intro c hc
    have hdigit : c.isDigit = true := Nat.isDigit_of_mem_toDigits (by decide) (by decide) hc
    unfold isNum
    rw [hdigit]
    rfl
  · intro x hx
    rw [List.mem_singleton.mp hx]
    exact stod_counterText n

/-! ### Objects and arrays -/

/-- A key without escapes, and a text for its value. -/
def WritesMember (m : String × List Char) (f : String × JsonValue K) : Prop :=
  m.1 = f.1 ∧ IsPlain m.1.toList ∧ Writes m.2 f.2

/-- A member that is written is a member of the grammar, whose numbers are read. -/
theorem WritesMember.isMember {m : String × List Char} {f : String × JsonValue K}
    (h : WritesMember m f) : ∃ l, IsMember (memberText m) f.1 f.2 l ∧ ∀ x ∈ l, x.Reads := by
  obtain ⟨hkey, hplain, l, hv, hl⟩ := h
  have hws : IsWs [] := fun _ hc => absurd hc List.not_mem_nil
  have hmember := IsMember.mk hws hplain.isChars hws hws hv hws
  rw [String.ofList_toList, hkey] at hmember
  refine ⟨.string f.1.toList :: l, ?_, ?_⟩
  · have htext : memberText m = [] ++ quote :: (m.1.toList ++ quote :: ([] ++ ':' ::
        ([] ++ (m.2 ++ [])))) := by
      simp only [memberText, stringText, List.append_assoc, List.cons_append, List.nil_append,
        List.append_nil]
    rw [htext, hkey]
    exact hmember
  · intro x hx
    rcases List.mem_cons.mp hx with rfl | hx
    · exact trivial
    · exact hl x hx

/-- A plain key and a text that is read make a member. -/
theorem Writes.member {key : String} {t : List Char} {v : JsonValue K} (h : Writes t v)
    (hkey : IsPlain key.toList := by simp [IsPlain, quote, backslash]) :
    WritesMember (key, t) (key, v) :=
  ⟨rfl, hkey, h⟩

/-- Members behind commas are the members of the grammar. -/
theorem isMembers_joinCommas {members : List (String × List Char)} {fields : JsonObject K}
    (h : List.Forall₂ WritesMember members fields) (hne : members ≠ []) : ∀ more : Bool,
    ∃ l, IsMembers more (joinCommas (members.map memberText)) fields l ∧ ∀ x ∈ l, x.Reads := by
  induction h with
  | nil => exact absurd rfl hne
  | cons hm hrest ih =>
      intro more
      obtain ⟨l, hmember, hl⟩ := hm.isMember
      cases hrest with
      | nil => exact ⟨l, .last hmember, hl⟩
      | cons hm' hrest' =>
          obtain ⟨l', hmembers, hl'⟩ := ih (List.cons_ne_nil _ _) true
          refine ⟨l ++ l', .cons hmember hmembers, ?_⟩
          intro x hx
          rcases List.mem_append.mp hx with hx | hx
          · exact hl x hx
          · exact hl' x hx

/-- An object text is read as its fields. -/
theorem writes_object {members : List (String × List Char)} {fields : JsonObject K}
    (h : List.Forall₂ WritesMember members fields) (hne : members ≠ []) :
    Writes (objectText members) (.object fields) := by
  obtain ⟨l, hmembers, hl⟩ := isMembers_joinCommas h hne false
  exact ⟨l, .object hmembers, hl⟩

/-- Items behind commas are the items of the grammar. -/
theorem isItems_joinCommas {items : List (List Char)} {values : List (JsonValue K)}
    (h : List.Forall₂ Writes items values) : ∀ more : Bool, (items = [] → more = false) →
    ∃ l, IsItems more (joinCommas items) values l ∧ ∀ x ∈ l, x.Reads := by
  have hws : IsWs [] := fun _ hc => absurd hc List.not_mem_nil
  induction h with
  | nil =>
      intro more hmore
      rw [hmore rfl]
      exact ⟨[], .none hws, fun _ hx => absurd hx List.not_mem_nil⟩
  | @cons t v ts vs hv hrest ih =>
      intro more _
      obtain ⟨l, hvalue, hl⟩ := hv
      cases hrest with
      | nil =>
          have hitem : IsItems more ([] ++ (t ++ [])) [v] l := .last hws hvalue hws
          rw [List.append_nil, List.nil_append] at hitem
          exact ⟨l, hitem, hl⟩
      | cons hv' hrest' =>
          obtain ⟨l', hitems, hl'⟩ := ih true fun h => absurd h (List.cons_ne_nil _ _)
          refine ⟨l ++ l', .cons hws hvalue hws hitems, ?_⟩
          intro x hx
          rcases List.mem_append.mp hx with hx | hx
          · exact hl x hx
          · exact hl' x hx

/-- An array text is read as its values. -/
theorem writes_array {items : List (List Char)} {values : List (JsonValue K)}
    (h : List.Forall₂ Writes items values) : Writes (arrayText items) (.array values) := by
  obtain ⟨l, hitems, hl⟩ := isItems_joinCommas h false fun _ => rfl
  exact ⟨l, .array hitems, hl⟩

/-- **A written object is read whole.** -/
theorem readFlatObject_objectText {members : List (String × List Char)} {fields : JsonObject K}
    (h : List.Forall₂ WritesMember members fields) (hne : members ≠ []) :
    readFlatObject (objectText members) = .ok (fields, []) := by
  obtain ⟨l, hmembers, hl⟩ := isMembers_joinCommas h hne false
  exact readFlatObject_complete
    ⟨[], _, fun _ hc => absurd hc List.not_mem_nil, hmembers, rfl⟩ hl

/-! ## Reading a reply back -/

/-- A counter as the reader knows it. -/
def counterValue (K : Type) [Field K] [LinearOrder K] [FloorRing K] (n : ℕ) : JsonValue K :=
  .number (FloatFormat.double.round ((n % 2 ^ 64 : ℕ) : K))

/-- What a client reads of an entry of `links`. -/
def committedLink (K : Type) [Field K] [LinearOrder K] [FloorRing K] (link : String × ℕ × Option ℕ) : JsonObject K :=
  [("link_id", .string link.1), ("seqno", counterValue K link.2.1)] ++
    link.2.2.toList.map fun w => ("warmup_until_slot", counterValue K w)

/-- **What a client reads**: every text as it was, every counter as a number. -/
def Reply.fields (K : Type) [Field K] [LinearOrder K] [FloorRing K] : Reply → JsonObject K
  | .error reason => [("ok", .bool false), ("error", .string reason)]
  | .staged => [("ok", .bool true), ("staged", .bool true)]
  | .applied seqno appliedAtSlot =>
      [("ok", .bool true), ("seqno", counterValue K seqno),
       ("applied_at_slot", counterValue K appliedAtSlot)]
  | .profileApplied seqno appliedAtSlot warmupUntilSlot =>
      [("ok", .bool true), ("seqno", counterValue K seqno),
       ("applied_at_slot", counterValue K appliedAtSlot),
       ("warmup_until_slot", counterValue K warmupUntilSlot)]
  | .correlationApplied seqno => [("ok", .bool true), ("seqno", counterValue K seqno)]
  | .batchBegun batchId => [("ok", .bool true), ("batch_id", .string batchId)]
  | .batchCommitted batchId backend linkCount applyAtSlot links =>
      [("ok", .bool true), ("batch_id", .string batchId), ("backend", .string backend),
       ("link_count", counterValue K linkCount), ("apply_at_slot", counterValue K applyAtSlot),
       ("links", .array (links.map fun link => .object (committedLink K link)))]
  | .batchAborted droppedOps => [("ok", .bool true), ("dropped_ops", counterValue K droppedOps)]

/-- The entry of a committed link is read back. -/
theorem writes_committedLink [IsStrictOrderedRing K] (link : String × ℕ × Option ℕ) :
    Writes (committedLinkText link) (.object (committedLink K link)) := by
  refine writes_object (.cons (writes_escaped _).member
    (.cons (writes_counter _).member ?_)) (List.cons_ne_nil _ _)
  cases link.2.2 with
  | none => exact .nil
  | some w => exact .cons (writes_counter w).member .nil

/-- **A reply is read back whole**, when the id of a begun batch needs no escape. -/
theorem Reply.readFlatObject_render [IsStrictOrderedRing K] (r : Reply)
    (hbegun : ∀ bid, r = .batchBegun bid → IsPlain bid.toList) :
    readFlatObject r.render = .ok (r.fields K, []) := by
  refine readFlatObject_objectText ?_ (by cases r <;> exact List.cons_ne_nil _ _)
  cases r with
  | error reason =>
      exact .cons writes_false.member (.cons (writes_escaped reason).member .nil)
  | staged =>
      exact .cons writes_true.member (.cons writes_true.member .nil)
  | applied seqno slot =>
      exact .cons writes_true.member (.cons (writes_counter seqno).member
        (.cons (writes_counter slot).member .nil))
  | profileApplied seqno slot warmup =>
      exact .cons writes_true.member (.cons (writes_counter seqno).member
        (.cons (writes_counter slot).member (.cons (writes_counter warmup).member .nil)))
  | correlationApplied seqno =>
      exact .cons writes_true.member (.cons (writes_counter seqno).member .nil)
  | batchBegun bid =>
      have hid := writes_chars (K := K) (hbegun bid rfl).isChars
      rw [String.ofList_toList] at hid
      exact .cons writes_true.member (.cons hid.member .nil)
  | batchCommitted bid backend count slot links =>
      have hlinks : Writes (K := K) (arrayText (links.map committedLinkText))
          (.array (links.map fun link => .object (committedLink K link))) := by
        refine writes_array ?_
        rw [List.forall₂_map_left_iff, List.forall₂_map_right_iff, List.forall₂_same]
        exact fun link _ => writes_committedLink link
      exact .cons writes_true.member (.cons (writes_escaped bid).member
        (.cons (writes_escaped backend).member (.cons (writes_counter count).member
          (.cons (writes_counter slot).member (.cons hlinks.member .nil)))))
  | batchAborted dropped =>
      exact .cons writes_true.member (.cons (writes_counter dropped).member .nil)

/-! ## The echoed texts -/

/-- A text of a value under its key. -/
def textAt (key : String) : JsonValue K → Option String
  | .object fields =>
      match fields.lookup key with
      | some (.string s) => some s
      | _ => none
  | _ => none

/-- **The texts that the reply echoes** are found under their keys, as they were. -/
def Reply.Echoes (fields : JsonObject K) : Reply → Prop
  | .error reason => fields.lookup "error" = some (.string reason)
  | .batchBegun batchId => fields.lookup "batch_id" = some (.string batchId)
  | .batchCommitted batchId backend _ _ links =>
      fields.lookup "batch_id" = some (.string batchId) ∧
      fields.lookup "backend" = some (.string backend) ∧
      ∃ items, fields.lookup "links" = some (.array items) ∧
        items.map (textAt "link_id") = links.map fun link => some link.1
  | _ => True

variable (K) in
/-- **The reply is readable by the server's own reader**: it is an object and nothing else, with the
outcome under `ok` and every echoed text as it was. -/
def Reply.ReadsBack (r : Reply) : Prop :=
  ∃ fields : JsonObject K, readFlatObject r.render = .ok (fields, []) ∧
    fields.lookup "ok" = some (.bool r.ok) ∧ r.Echoes fields

/-- A reply whose begun id is plain is read back. -/
theorem Reply.readsBack_of_plain [IsStrictOrderedRing K] {r : Reply}
    (hbegun : ∀ bid, r = .batchBegun bid → IsPlain bid.toList) : r.ReadsBack K := by
  refine ⟨r.fields K, r.readFlatObject_render hbegun, ?_, ?_⟩
  · cases r <;> rfl
  · cases r with
    | error reason => rfl
    | staged => exact trivial
    | applied _ _ => exact trivial
    | profileApplied _ _ _ => exact trivial
    | correlationApplied _ => exact trivial
    | batchBegun bid => rfl
    | batchCommitted bid backend count slot links =>
        refine ⟨rfl, rfl, _, rfl, ?_⟩
        rw [List.map_map]
        exact List.map_congr_left fun link _ => rfl
    | batchAborted _ => exact trivial

/-! ## An unescaped id -/

/-- What stands for a text is not shorter than it, and as long only without an escape. -/
theorem isChars_length {t s b : List Char} (h : IsChars t s b) :
    s.length ≤ t.length ∧ (t.length ≤ s.length → t = s ∧ IsPlain t) := by
  induction h with
  | nil => exact ⟨le_refl _, fun _ => ⟨rfl, fun c hc => absurd hc List.not_mem_nil⟩⟩
  | bare hquote hback _ ih =>
      obtain ⟨hle, heq⟩ := ih
      simp only [List.length_cons]
      refine ⟨by omega, fun hlen => ?_⟩
      obtain ⟨rfl, hplain⟩ := heq (by omega)
      refine ⟨rfl, fun c hc => ?_⟩
      rcases List.mem_cons.mp hc with rfl | hc
      · exact ⟨hquote, hback⟩
      · exact hplain c hc
  | escaped _ _ ih =>
      simp only [List.length_cons]
      exact ⟨by omega, fun hlen => by omega⟩

/-- **Between quotes, a text stands for itself only if it is plain**: otherwise the reader stops
early or reads something shorter. -/
theorem isPlain_of_readString {bid after rest : List Char} {s : String}
    (h : readString (quote :: (bid ++ quote :: after)) = .ok (s, rest)) (hs : s.toList = bid)
    (hrest : after.length ≤ rest.length) : IsPlain bid := by
  obtain ⟨t, d, b, ht, rfl, hcut⟩ := readString_eq_ok h
  obtain ⟨hle, hplain⟩ := isChars_length ht
  rw [String.toList_ofList] at hs
  subst hs
  have htext := (List.cons.inj hcut).2
  have hlen := congrArg List.length htext
  simp only [List.length_append, List.length_cons] at hlen
  obtain ⟨rfl, hp⟩ := hplain (by omega)
  exact hp

/-- The first member of what the fields loop reads. -/
theorem readFields_first {n : ℕ} {more : Bool} {key : String} (hkey : IsPlain key.toList)
    {cs rest : List Char} {fields : JsonObject K}
    (h : readFields (n + 1) more (quote :: (key.toList ++ quote :: ':' :: cs))
      = .ok (fields, rest)) :
    ∃ v r c r' fields', readValue n cs = .ok (v, r) ∧ take (skipWs r) = .ok (c, r') ∧
      fields = (key, v) :: fields' ∧ (c = ',' → readFields n true r' = .ok (fields', rest)) := by
  have hskip : skipWs (quote :: (key.toList ++ quote :: ':' :: cs))
      = quote :: (key.toList ++ quote :: ':' :: cs) := skipWs_of_noWs (noWs_cons (by decide) _)
  have hopen : ¬ (!more && decide ((skipWs (quote :: (key.toList ++ quote :: ':' :: cs))).head?
      = some '}')) = true := by
    rw [hskip, List.head?_cons, decide_eq_false (by decide), Bool.and_false]
    exact Bool.false_ne_true
  unfold readFields at h
  rw [if_neg hopen] at h
  obtain ⟨⟨key', r₁⟩, hname, h⟩ := bind_eq_ok h
  rw [hskip, readString_complete hkey.isChars] at hname
  cases hname
  obtain ⟨r₂, hcolon, h⟩ := bind_eq_ok h
  cases hcolon
  obtain ⟨⟨v, r₃⟩, hvalue, h⟩ := bind_eq_ok h
  obtain ⟨⟨c, r₄⟩, htake, h⟩ := bind_eq_ok h
  dsimp only at h
  rw [String.ofList_toList] at h
  split_ifs at h with hcomma hbrace
  · obtain ⟨⟨fields', r₅⟩, hmore, h⟩ := bind_eq_ok h
    cases h
    exact ⟨v, r₃, c, r₄, fields', hvalue, htake, rfl, fun _ => hmore⟩
  · cases h
    exact ⟨v, r₃, c, rest, [], hvalue, htake, rfl, fun hc => absurd hc hcomma⟩

/-- **The reply of `batch_begin` is read back exactly when the id is plain.** -/
theorem batchBegun_readsBack_iff [IsStrictOrderedRing K] (bid : String) :
    (Reply.batchBegun bid).ReadsBack K ↔ IsPlain bid.toList := by
  constructor
  · rintro ⟨fields, hread, -, hecho⟩
    obtain ⟨cs, hexpect, hfields⟩ := bind_eq_ok hread
    cases hexpect
    have hok : IsPlain "ok".toList := by simp [IsPlain, quote, backslash]
    have hkey : IsPlain "batch_id".toList := by simp [IsPlain, quote, backslash]
    have htext : joinCommas ((Reply.batchBegun bid).members.map memberText) ++ ['}']
        = quote :: ("ok".toList ++ quote :: ':' :: ("true".toList ++ ',' ::
            quote :: ("batch_id".toList ++ quote :: ':' ::
              quote :: (bid.toList ++ quote :: ['}'])))) := by
      simp only [Reply.members, List.map_cons, List.map_nil, joinCommas, memberText, stringText,
        List.append_assoc, List.cons_append, List.nil_append]
    rw [htext] at hfields
    obtain ⟨n, hn⟩ : ∃ n, 2 * (Reply.batchBegun bid).render.length = n + 3 := by
      refine ⟨2 * (Reply.batchBegun bid).render.length - 3, ?_⟩
      have hlen : (Reply.batchBegun bid).render.length
          = (joinCommas ((Reply.batchBegun bid).members.map memberText) ++ ['}']).length + 1 := rfl
      rw [htext, List.length_cons] at hlen
      omega
    rw [hn] at hfields
    obtain ⟨v, r, c, r', fields', htrue, htake, rfl, hmore⟩ := readFields_first hok hfields
    cases htrue
    cases htake
    obtain ⟨v', r₁, c', r₁', fields₁, hvalue, htake', rfl, -⟩ := readFields_first hkey (hmore rfl)
    have hid : v' = .string bid := Option.some.inj hecho
    subst hid
    change readScalar (quote :: (bid.toList ++ quote :: ['}'])) = _ at hvalue
    unfold readScalar at hvalue
    rw [List.head?_cons, if_pos rfl] at hvalue
    cases hs : readString (quote :: (bid.toList ++ quote :: ['}'])) with
    | error e =>
        rw [hs] at hvalue
        cases hvalue
    | ok read =>
        rw [hs] at hvalue
        cases hvalue
        refine isPlain_of_readString hs rfl ?_
        -- the closing brace is still there
        cases hrest : read.2 with
        | nil =>
            rw [hrest] at htake'
            cases htake'
        | cons d ds => exact Nat.succ_le_succ (Nat.zero_le _)
  · intro hplain
    exact Reply.readsBack_of_plain fun bid' h => by
      cases h
      exact hplain

end Replies

/-! ## The replies of the server -/

section Server

variable {K : Type} [Field K] [LinearOrder K] [FloorRing K] [Libm K]

/-- The body opens a new batch under this id. -/
def OpensBatch (srv : ControlServer K) (body : List Char) (bid : String) : Prop :=
  ∃ (fields : JsonObject K) (l : List (Lexeme K)) (rest : List Char),
    ShapeOf body fields l rest ∧ (∀ x ∈ l, x.Reads) ∧
    fields.lookup "type" = some (.string "batch_begin") ∧ fields.lookup "id" = some (.string bid) ∧
    bid ≠ "" ∧ srv.openBatches.lookup bid = none

/-- The reply opens no batch. -/
def Reply.Elsewhere (r : Reply) : Prop := ∀ bid, r ≠ .batchBegun bid

omit [Field K] [LinearOrder K] [FloorRing K] [Libm K] in
/-- A rejection begins no batch. -/
theorem emitRejection_elsewhere (srv : ControlServer K) (reason : String) :
    (srv.emitRejection reason).reply.Elsewhere := nofun

/-- A scalar update begins no batch. -/
theorem handleScalarUpdate_elsewhere (srv : ControlServer K) (links : LinkMap K)
    (fields : JsonObject K) : (handleScalarUpdate srv links fields).reply.Elsewhere := by
  unfold handleScalarUpdate
  split
  · exact emitRejection_elsewhere srv _
  · split <;> exact nofun

omit [Libm K] in
/-- A profile swap begins no batch. -/
theorem handleProfileSwap_elsewhere (srv : ControlServer K) (links : LinkMap K)
    (fields : JsonObject K) : (handleProfileSwap srv links fields).reply.Elsewhere := by
  unfold handleProfileSwap
  split
  · exact emitRejection_elsewhere srv _
  · split <;> exact nofun

omit [Libm K] in
/-- A matrix profile swap begins no batch. -/
theorem handleMatrixProfileSwap_elsewhere (srv : ControlServer K) (links : LinkMap K)
    (fields : JsonObject K) : (handleMatrixProfileSwap srv links fields).reply.Elsewhere := by
  unfold handleMatrixProfileSwap
  split
  · exact emitRejection_elsewhere srv _
  · split <;> exact nofun

/-- A correlation swap begins no batch. -/
theorem handleCorrelationSwap_elsewhere (srv : ControlServer K) (links : LinkMap K)
    (fields : JsonObject K) : (handleCorrelationSwap srv links fields).reply.Elsewhere := by
  unfold handleCorrelationSwap
  split
  · exact emitRejection_elsewhere srv _
  · exact nofun

omit [Libm K] in
/-- A commit begins no batch. -/
theorem handleBatchCommit_elsewhere (srv : ControlServer K) (links : LinkMap K)
    (fields : JsonObject K) : (handleBatchCommit srv links fields).reply.Elsewhere := by
  unfold handleBatchCommit
  split
  · exact emitRejection_elsewhere srv _
  · exact nofun

omit [Field K] [LinearOrder K] [FloorRing K] [Libm K] in
/-- An abort begins no batch. -/
theorem handleBatchAbort_elsewhere (srv : ControlServer K) (fields : JsonObject K) :
    (handleBatchAbort srv fields).reply.Elsewhere := by
  unfold handleBatchAbort
  split
  · exact emitRejection_elsewhere srv _
  · exact nofun

omit [Field K] [LinearOrder K] [FloorRing K] [Libm K] in
/-- A batch is begun for a text that is not empty and not open yet. -/
theorem handleBatchBegin_begun_iff (srv : ControlServer K) (fields : JsonObject K) (bid : String) :
    (handleBatchBegin srv fields).reply = .batchBegun bid ↔
      fields.lookup "id" = some (.string bid) ∧ bid ≠ "" ∧ srv.openBatches.lookup bid = none := by
  unfold handleBatchBegin
  cases hid : batchId "batch_begin" fields with
  | error reason =>
      refine ⟨fun h => absurd h (emitRejection_elsewhere srv _ bid), ?_⟩
      rintro ⟨hlookup, -, -⟩
      rw [batchId, hlookup] at hid
      cases hid
  | ok id =>
      -- the id is the string of the field
      have hlookup : fields.lookup "id" = some (.string id) := by
        unfold batchId at hid
        split at hid
        · rename_i s hs
          cases hid
          exact hs
        · cases hid
      dsimp only
      split_ifs with hempty hopen
      · refine ⟨fun h => absurd h (emitRejection_elsewhere srv _ bid), ?_⟩
        rintro ⟨hbid, hne, -⟩
        rw [hlookup] at hbid
        cases hbid
        exact absurd (String.isEmpty_iff.mp hempty) hne
      · refine ⟨fun h => absurd h (emitRejection_elsewhere srv _ bid), ?_⟩
        rintro ⟨hbid, -, hclosed⟩
        rw [hlookup] at hbid
        cases hbid
        rw [hclosed] at hopen
        cases hopen
      · constructor
        · intro h
          cases h
          refine ⟨hlookup, fun h => hempty (String.isEmpty_iff.mpr h), ?_⟩
          exact Option.not_isSome_iff_eq_none.mp hopen
        · rintro ⟨hbid, -, -⟩
          rw [hlookup] at hbid
          cases hbid
          rfl

/-- Only `batch_begin` begins a batch. -/
theorem dispatch_begun_iff (srv : ControlServer K) (links : LinkMap K) (fields : JsonObject K)
    (bid : String) : (dispatch srv links fields).reply = .batchBegun bid ↔
      fields.lookup "type" = some (.string "batch_begin") ∧
      fields.lookup "id" = some (.string bid) ∧ bid ≠ "" ∧ srv.openBatches.lookup bid = none := by
  unfold dispatch
  cases htype : getString fields "type" "scalar" with
  | error reason =>
      refine ⟨fun h => absurd h (emitRejection_elsewhere srv _ bid), ?_⟩
      rintro ⟨hlookup, -⟩
      rw [getString, hlookup] at htype
      cases htype
  | ok type =>
      -- the type is the field itself, since the default is another message
      have hbegin : type = "batch_begin" ↔
          fields.lookup "type" = some (.string "batch_begin") := by
        unfold getString at htype
        split at htype
        · rename_i hnone
          cases htype
          rw [hnone]
          exact ⟨fun h => absurd h (by decide), nofun⟩
        · rename_i s hs
          cases htype
          rw [hs]
          exact ⟨fun h => by rw [h], fun h => by cases h; rfl⟩
        · cases htype
      rw [← hbegin]
      dsimp only
      -- only one of the handlers replies that a batch was begun
      split_ifs with h₁ h₂ h₃ h₄ h₅ h₆ h₇
      · exact ⟨fun h => absurd h (handleScalarUpdate_elsewhere srv links fields bid),
          fun h => absurd (h₁.symm.trans h.1) (by decide)⟩
      · exact ⟨fun h => absurd h (handleProfileSwap_elsewhere srv links fields bid),
          fun h => absurd (h₂.symm.trans h.1) (by decide)⟩
      · exact ⟨fun h => absurd h (handleMatrixProfileSwap_elsewhere srv links fields bid),
          fun h => absurd (h₃.symm.trans h.1) (by decide)⟩
      · exact ⟨fun h => absurd h (handleCorrelationSwap_elsewhere srv links fields bid),
          fun h => absurd (h₄.symm.trans h.1) (by decide)⟩
      · rw [handleBatchBegin_begun_iff]
        exact ⟨fun h => ⟨h₅, h⟩, fun h => h.2⟩
      · exact ⟨fun h => absurd h (handleBatchCommit_elsewhere srv links fields bid),
          fun h => absurd h.1 h₅⟩
      · exact ⟨fun h => absurd h (handleBatchAbort_elsewhere srv fields bid),
          fun h => absurd h.1 h₅⟩
      · exact ⟨fun h => absurd h (emitRejection_elsewhere srv _ bid), fun h => absurd h.1 h₅⟩

/-- **Which bodies are answered with a begun batch.** -/
theorem handleRequest_begun_iff (srv : ControlServer K) (links : LinkMap K) (body : List Char)
    (bid : String) :
    (handleRequest srv links body).reply = .batchBegun bid ↔ OpensBatch srv body bid := by
  unfold handleRequest
  cases hread : readFlatObject (K := K) body with
  | error reason =>
      refine ⟨fun h => absurd h (emitRejection_elsewhere _ _ bid), ?_⟩
      rintro ⟨fields, l, rest, hshape, hl, -⟩
      rw [readFlatObject_complete hshape hl] at hread
      cases hread
  | ok r =>
      obtain ⟨fields, rest⟩ := r
      show (handleMessage srv links fields).reply = _ ↔ _
      rw [handleMessage, dispatch_begun_iff]
      constructor
      · intro h
        obtain ⟨l, hshape, hl⟩ := readFlatObject_sound hread
        exact ⟨fields, l, rest, hshape, hl, h⟩
      · rintro ⟨fields', l, rest', hshape, hl, h⟩
        rw [readFlatObject_complete hshape hl] at hread
        cases hread
        exact h

/-- **Replies are readable by their own reader**, for every server state and every body but those
that open a batch under an id with a quote or a backslash: the escape is undone by `read_string`
on every text, and `batch_begin` alone does without it. -/
theorem replies_read_back_iff [IsStrictOrderedRing K] :
    (∀ (s : String) (rest : List Char),
      readString (stringText (jsonEscape s.toList) ++ rest) = .ok (s, rest)) ∧
    ∀ (srv : ControlServer K) (links : LinkMap K) (body : List Char),
      (handleRequest srv links body).reply.ReadsBack K ↔
        ∀ bid, OpensBatch srv body bid → IsPlain bid.toList := by
  constructor
  · intro s rest
    obtain ⟨b, hb⟩ := isChars_jsonEscape s.toList
    rw [stringText, List.cons_append, List.append_assoc, List.cons_append, List.nil_append,
      readString_complete hb rest, String.ofList_toList]
  · intro srv links body
    constructor
    · intro h bid hopens
      rw [(handleRequest_begun_iff srv links body bid).mpr hopens] at h
      exact (batchBegun_readsBack_iff bid).mp h
    · intro hplain
      refine Reply.readsBack_of_plain fun bid hbid => hplain bid ?_
      exact (handleRequest_begun_iff srv links body bid).mp hbid

end Server

/-- The server, the links and the requests of the two runs below. -/
def freshServer : ControlServer ℚ := ControlServer.start ℚ 0 "cpu"

def beginRequest (id : List Char) : List Char :=
  objectText [("type", stringText "batch_begin".toList), ("id", stringText id)]

theorem replies_read_back_iff_plain_id :
    (handleRequest freshServer (fun _ => none) (beginRequest ['a'])).reply.ReadsBack ℚ := by
  refine ((replies_read_back_iff (K := ℚ)).2 freshServer (fun _ => none) _).mpr ?_
  intro bid hopens
  have hreply := (handleRequest_begun_iff freshServer (fun _ => none) _ bid).mpr hopens
  have hbegun : (handleRequest freshServer (fun _ => none) (beginRequest ['a'])).reply
      = .batchBegun "a" := by decide +kernel
  rw [hbegun] at hreply
  cases hreply
  simp [IsPlain, quote, backslash]

/-- The id `a"b` of `batch_begin` comes back as `a`, and the object does not end behind it. -/
theorem begun_id_unescaped : ¬ ∀ (srv : ControlServer ℚ) (links : LinkMap ℚ) (body : List Char),
    (handleRequest srv links body).reply.ReadsBack ℚ := by
  intro h
  have hread := h freshServer (fun _ => none) (beginRequest (jsonEscape ['a', quote, 'b']))
  have hbegun : (handleRequest freshServer (fun _ => none)
      (beginRequest (jsonEscape ['a', quote, 'b']))).reply
        = .batchBegun (String.ofList ['a', quote, 'b']) := by decide +kernel
  rw [hbegun, batchBegun_readsBack_iff, String.toList_ofList] at hread
  exact (hread quote (List.mem_cons_of_mem _ List.mem_cons_self)).1 rfl
