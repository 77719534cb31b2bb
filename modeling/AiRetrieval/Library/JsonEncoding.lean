import AiRetrieval.Library.Json

/-! The encoding of a JSON value determines the value. A text read from the front up to its
first structural code point is one token, and no value is a proper prefix of another. -/

section Codes

variable {α β : Type}

/-- A code read from the left: no word begins as the mark that ends a text, and no word is the
beginning of another. -/
structure PrefixCode (mark : β) (word : α → List β) : Prop where
  marked : ∀ a s t, mark :: s ≠ word a ++ t
  unique : ∀ {a b s t}, word a ++ s = word b ++ t → a = b ∧ s = t

theorem PrefixCode.flatMap_unique {mark : β} {word : α → List β} (h : PrefixCode mark word)
    {t u : List α} {s s' : List β}
    (heq : t.flatMap word ++ mark :: s = u.flatMap word ++ mark :: s') : t = u ∧ s = s' := by
  induction t generalizing u with
  | nil =>
    cases u with
    | nil => exact ⟨rfl, (List.cons.inj heq).2⟩
    | cons q rest =>
      rw [List.flatMap_cons, List.append_assoc] at heq
      exact absurd heq (h.marked q _ _)
  | cons p rest ih =>
    cases u with
    | nil =>
      rw [List.flatMap_cons, List.append_assoc] at heq
      exact absurd heq.symm (h.marked p _ _)
    | cons q others =>
      rw [List.flatMap_cons, List.flatMap_cons, List.append_assoc, List.append_assoc] at heq
      obtain ⟨rfl, hrest⟩ := h.unique heq
      obtain ⟨rfl, hs⟩ := ih hrest
      exact ⟨rfl, hs⟩

end Codes

variable {φ : Type}

namespace JsonValue

/-- Quotes, the comma, brackets and braces. -/
def structural : List CodePoint := [0x22, 0x2C, 0x5B, 0x5D, 0x7B, 0x7D]

/-- A comma or a closing bracket or brace. -/
def closing : List CodePoint := [0x2C, 0x5D, 0x7D]

/-- What can follow a value in an encoding. -/
def Ended (t : CodeText) : Prop := ∀ p, t.head? = some p → p ∈ closing

theorem ended_nil : Ended [] := fun _ h => (by cases h)

theorem ended_cons {p : CodePoint} (h : p ∈ closing) (t : CodeText) : Ended (p :: t) := by
  intro q hq
  rw [List.head?_cons, Option.some.injEq] at hq
  exact hq ▸ h

def Token (t : CodeText) : Prop := ∀ p ∈ t, p ∉ structural

theorem not_closing_of_not_structural {p : CodePoint} (h : p ∉ structural) : p ∉ closing := by
  intro hp
  apply h
  simp only [closing, List.mem_cons, List.not_mem_nil, or_false] at hp
  rcases hp with rfl | rfl | rfl
  · decide
  · decide
  · decide

theorem Token.append_unique {a b s t : CodeText} (ha : Token a) (hb : Token b) (hs : Ended s)
    (ht : Ended t) (h : a ++ s = b ++ t) : a = b ∧ s = t := by
  induction a generalizing b with
  | nil =>
    cases b with
    | nil => exact ⟨rfl, h⟩
    | cons q rest =>
      have hq := hs q (by rw [List.nil_append] at h; rw [h]; rfl)
      exact absurd hq (not_closing_of_not_structural (hb q (List.mem_cons_self ..)))
  | cons p rest ih =>
    cases b with
    | nil =>
      have hp := ht p (by rw [List.nil_append] at h; rw [← h]; rfl)
      exact absurd hp (not_closing_of_not_structural (ha p (List.mem_cons_self ..)))
    | cons q others =>
      rw [List.cons_append, List.cons_append, List.cons.injEq] at h
      obtain ⟨rfl, h⟩ := h
      obtain ⟨rfl, hst⟩ := ih (fun p hp => ha p (List.mem_cons_of_mem _ hp))
        (fun p hp => hb p (List.mem_cons_of_mem _ hp)) h
      exact ⟨rfl, hst⟩

section Quoting

def escaped : List CodePoint := [0x22, 0x5C] ++ (List.range 0x20).map (Fin.ofNat 0x110000)

theorem escape_of_not_escaped {p : CodePoint} (h : p ∉ escaped) : escape p = [p] := by
  have hlow : ¬p.val < 0x20 := by
    intro hlow
    refine h (List.mem_append_right _ (List.mem_map.2 ⟨p.val, List.mem_range.2 hlow, ?_⟩))
    exact Fin.ext (Nat.mod_eq_of_lt p.isLt)
  have hne : ∀ q ∈ escaped, p ≠ q := fun q hq hpq => h (hpq ▸ hq)
  unfold escape
  rw [if_neg (hne _ (by decide)), if_neg (hne _ (by decide)), if_neg (hne _ (by decide)),
    if_neg (hne _ (by decide)), if_neg (hne _ (by decide)), if_neg (hne _ (by decide)),
    if_neg (hne _ (by decide)), if_neg hlow]

theorem escape_head_of_escaped : ∀ p ∈ escaped, (escape p).head? = some 0x5C := by
  have h : (escaped.all fun p => (escape p).head? = some 0x5C) = true := by decide +kernel
  simpa only [List.all_eq_true, decide_eq_true_eq] using h

theorem escape_eq_of_begins : ∀ p ∈ escaped, ∀ q ∈ escaped, escape p <+: escape q → p = q := by
  have h : (escaped.all fun p => escaped.all fun q => !(escape p).isPrefixOf (escape q) || p = q) =
      true := by
    decide +kernel
  intro p hp q hq hbegins
  have hpq := List.all_eq_true.1 (List.all_eq_true.1 h p hp) q hq
  rw [List.isPrefixOf_iff_prefix.2 hbegins] at hpq
  exact of_decide_eq_true hpq

theorem escape_ne_nil (p : CodePoint) : escape p ≠ [] := by
  by_cases hp : p ∈ escaped
  · intro h
    have := escape_head_of_escaped p hp
    rw [h] at this
    cases this
  · rw [escape_of_not_escaped hp]
    exact List.cons_ne_nil _ _

theorem escape_head (p : CodePoint) : (escape p).head? ≠ some 0x22 := by
  by_cases hp : p ∈ escaped
  · rw [escape_head_of_escaped p hp]
    decide
  · rw [escape_of_not_escaped hp, List.head?_cons]
    rintro h
    exact hp (Option.some.inj h ▸ by decide)

theorem escape_append_unique {p q : CodePoint} {s t : CodeText}
    (h : escape p ++ s = escape q ++ t) : p = q ∧ s = t := by
  have hpq : p = q := by
    by_cases hp : p ∈ escaped
    · by_cases hq : q ∈ escaped
      · rcases List.prefix_or_prefix_of_prefix (List.prefix_append (escape p) s)
          (h ▸ List.prefix_append (escape q) t) with hbegins | hbegins
        · exact escape_eq_of_begins p hp q hq hbegins
        · exact (escape_eq_of_begins q hq p hp hbegins).symm
      · have hhead := congrArg List.head? h
        rw [List.head?_append_of_ne_nil _ (escape_ne_nil p),
          List.head?_append_of_ne_nil _ (escape_ne_nil q), escape_head_of_escaped p hp,
          escape_of_not_escaped hq, List.head?_cons] at hhead
        exact absurd (Option.some.inj hhead ▸ by decide) hq
    · by_cases hq : q ∈ escaped
      · have hhead := congrArg List.head? h
        rw [List.head?_append_of_ne_nil _ (escape_ne_nil p),
          List.head?_append_of_ne_nil _ (escape_ne_nil q), escape_head_of_escaped q hq,
          escape_of_not_escaped hp, List.head?_cons] at hhead
        exact absurd (Option.some.inj hhead ▸ by decide) hp
      · rw [escape_of_not_escaped hp, escape_of_not_escaped hq] at h
        exact (List.cons.inj h).1
  subst hpq
  exact ⟨rfl, List.append_cancel_left h⟩

theorem quoted_eq (t : CodeText) : quoted t = 0x22 :: (t.flatMap escape ++ [0x22]) := rfl

theorem escape_code : PrefixCode 0x22 escape where
  marked p r r' := by
    intro h
    have hhead := congrArg List.head? h
    rw [List.head?_append_of_ne_nil _ (escape_ne_nil p), List.head?_cons] at hhead
    exact escape_head p hhead.symm
  unique := escape_append_unique

theorem quoted_append_unique {t u s s' : CodeText} (h : quoted t ++ s = quoted u ++ s') :
    t = u ∧ s = s' := by
  rw [quoted_eq, quoted_eq, List.cons_append, List.cons_append] at h
  replace h := (List.cons.inj h).2
  rw [List.append_assoc, List.append_assoc, List.singleton_append, List.singleton_append] at h
  exact escape_code.flatMap_unique h

end Quoting

section Integers

def integral : List CodePoint := 0x2D :: (List.range 10).map fun n => Fin.ofNat 0x110000 (0x30 + n)

theorem ofChar_digit_mem {c : Char} (h : c.isDigit = true) : CodePoint.ofChar c ∈ integral := by
  have hrange : 0x30 ≤ c.toNat ∧ c.toNat ≤ 0x39 := by
    simpa [Char.isDigit, UInt32.le_iff_toNat_le] using h
  refine List.mem_cons_of_mem _ (List.mem_map.2 ⟨c.toNat - 0x30, ?_, ?_⟩)
  · exact List.mem_range.2 (by omega)
  · apply Fin.ext
    change (0x30 + (c.toNat - 0x30)) % 0x110000 = c.toNat
    omega

theorem digits_integral (n : Nat) : ∀ c ∈ Nat.toDigits 10 n, CodePoint.ofChar c ∈ integral :=
  fun _ hc => ofChar_digit_mem (Nat.isDigit_of_mem_toDigits (by omega) (by omega) hc)

theorem toList_repr (n : Nat) : (toString n).toList = Nat.toDigits 10 n := by
  change (Nat.repr n).toList = _
  rw [Nat.repr, String.toList_ofList]

theorem toList_toString (n : Int) : (toString n).toList = match n with
    | .ofNat m => Nat.toDigits 10 m
    | .negSucc m => '-' :: Nat.toDigits 10 (m + 1) := by
  cases n with
  | ofNat m => exact toList_repr m
  | negSucc m =>
    change ("-" ++ toString (m + 1)).toList = _
    rw [String.toList_append, toList_repr]
    rfl

theorem toDigits_injective {m n : Nat} (h : Nat.toDigits 10 m = Nat.toDigits 10 n) : m = n := by
  have hm := Nat.ofDigitChars_toDigits (b := 10) (n := m) (by omega) (by omega)
  have hn := Nat.ofDigitChars_toDigits (b := 10) (n := n) (by omega) (by omega)
  rw [← hm, ← hn, h]

theorem toString_int_injective {m n : Int} (h : toString m = toString n) : m = n := by
  have hlist := congrArg String.toList h
  rw [toList_toString, toList_toString] at hlist
  have hsign (m n : Nat) : Nat.toDigits 10 m ≠ '-' :: Nat.toDigits 10 n := by
    intro h
    have hdigit := Nat.isDigit_of_mem_toDigits (b := 10) (n := m) (c := '-') (by omega) (by omega)
      (h ▸ List.mem_cons_self ..)
    cases hdigit
  cases m with
  | ofNat m =>
    cases n with
    | ofNat n => exact congrArg Int.ofNat (toDigits_injective hlist)
    | negSucc n => exact absurd hlist (hsign _ _)
  | negSucc m =>
    cases n with
    | ofNat n => exact absurd hlist.symm (hsign _ _)
    | negSucc n =>
      have := toDigits_injective (List.cons.inj hlist).2
      rw [Nat.add_right_cancel this]

theorem integer_integral (n : Int) : ∀ p ∈ CodeText.ofString (toString n), p ∈ integral := by
  intro p hp
  unfold CodeText.ofString at hp
  rw [toList_toString] at hp
  obtain ⟨c, hc, rfl⟩ := List.mem_map.1 hp
  cases n with
  | ofNat m => exact digits_integral m c hc
  | negSucc m =>
    rcases List.mem_cons.1 hc with rfl | hc
    · exact List.mem_cons_self ..
    · exact digits_integral _ c hc

end Integers

section Values

def numeric : List CodePoint := integral ++ [0x2B, 0x2E, 0x65]

/-- The texts of floats as an encoding relies on them: numeric, with a point or an exponent
where an integer has none, and different for different floats. -/
structure FloatTexts (valid : φ → Prop) (floatText : φ → CodeText) : Prop where
  numeric : ∀ x, valid x → ∀ p ∈ floatText x, p ∈ numeric
  marked : ∀ x, valid x → ∃ p ∈ floatText x, p ∉ integral
  injective : ∀ x y, valid x → valid y → floatText x = floatText y → x = y

mutual

/-- Every float of a value is of a kind. -/
def Floats (valid : φ → Prop) : JsonValue φ → Prop
  | .float value => valid value
  | .array items => FloatsItems valid items
  | .object entries => FloatsEntries valid entries
  | _ => True

def FloatsItems (valid : φ → Prop) : List (JsonValue φ) → Prop
  | [] => True
  | item :: rest => item.Floats valid ∧ FloatsItems valid rest

def FloatsEntries (valid : φ → Prop) : List (CodeText × JsonValue φ) → Prop
  | [] => True
  | (_, item) :: rest => item.Floats valid ∧ FloatsEntries valid rest

end

theorem floatsItems_iff {valid : φ → Prop} {items : List (JsonValue φ)} :
    FloatsItems valid items ↔ ∀ item ∈ items, item.Floats valid := by
  induction items with
  | nil => exact iff_of_true trivial fun _ h => (by cases h)
  | cons item rest ih => rw [FloatsItems, ih, List.forall_mem_cons]

theorem floatsEntries_iff {valid : φ → Prop} {entries : List (CodeText × JsonValue φ)} :
    FloatsEntries valid entries ↔ ∀ entry ∈ entries, entry.2.Floats valid := by
  induction entries with
  | nil => exact iff_of_true trivial fun _ h => (by cases h)
  | cons entry rest ih => rw [FloatsEntries, ih, List.forall_mem_cons]

mutual

theorem floats_sorted {valid : φ → Prop} : ∀ {v : JsonValue φ}, v.Floats valid →
    v.sorted.Floats valid
  | .null, h | .bool _, h | .int _, h | .float _, h | .text _, h => by
    rw [sorted]
    · exact h
    all_goals intros; contradiction
  | .array items, h => by
    rw [sorted]
    exact floatsItems_sorted h
  | .object entries, h => by
    rw [sorted, Floats, floatsEntries_iff]
    intro entry hentry
    exact floatsEntries_iff.1 (floatsEntries_sorted h) entry
      ((sortEntries_perm _).mem_iff.1 hentry)

theorem floatsItems_sorted {valid : φ → Prop} : ∀ {items : List (JsonValue φ)},
    FloatsItems valid items → FloatsItems valid (sortedItems items)
  | [], h => h
  | _ :: _, h => ⟨floats_sorted h.1, floatsItems_sorted h.2⟩

theorem floatsEntries_sorted {valid : φ → Prop} : ∀ {entries : List (CodeText × JsonValue φ)},
    FloatsEntries valid entries → FloatsEntries valid (sortedEntries entries)
  | [], h => h
  | (_, _) :: _, h => ⟨floats_sorted h.1, floatsEntries_sorted h.2⟩

end

/-- A value written as one token: a word, an integer or a float. -/
def atom : JsonValue φ → Bool
  | .null | .bool _ | .int _ | .float _ => true
  | _ => false

def word : JsonValue φ → Option String
  | .null => some "null"
  | .bool value => some (if value then "true" else "false")
  | _ => none

theorem token_of_all {t : CodeText} (h : (t.all fun p => !structural.contains p) = true) :
    Token t := by
  intro p hp hmem
  have := List.all_eq_true.1 h p hp
  rw [List.contains_iff_mem.2 hmem] at this
  cases this

theorem token_of_numeric {t : CodeText} (h : ∀ p ∈ t, p ∈ numeric) : Token t := fun p hp =>
  token_of_all (t := numeric) (by decide +kernel) p (h p hp)

/-- The words are tokens that begin like no number. -/
theorem word_token : ∀ w ∈ ["null", "true", "false"],
    Token (CodeText.ofString w) ∧ ∃ p ∈ CodeText.ofString w, p ∉ numeric := by
  have h : (["null", "true", "false"].all fun w =>
      ((CodeText.ofString w).all fun p => !structural.contains p) &&
        (CodeText.ofString w).any fun p => !numeric.contains p) = true := by
    decide +kernel
  intro w hw
  have hword := List.all_eq_true.1 h w hw
  rw [Bool.and_eq_true] at hword
  obtain ⟨p, hp, hno⟩ := List.any_eq_true.1 hword.2
  refine ⟨token_of_all hword.1, p, hp, fun hmem => ?_⟩
  rw [List.contains_iff_mem.2 hmem] at hno
  cases hno

theorem mem_words {v : JsonValue φ} {w : String} (h : v.word = some w) :
    w ∈ ["null", "true", "false"] := by
  cases v with
  | null =>
    cases h
    exact List.mem_cons_self ..
  | bool value =>
    cases h
    cases value with
    | false => exact List.mem_cons_of_mem _ (List.mem_cons_of_mem _ (List.mem_cons_self ..))
    | true => exact List.mem_cons_of_mem _ (List.mem_cons_self ..)
  | int | float | text | array | object => cases h

theorem word_injective {v w : JsonValue φ} {t : String} (hv : v.word = some t)
    (hw : w.word = some t) : v = w := by
  have h := hv.trans hw.symm
  have hsome : v.word ≠ none := by simp [hv]
  clear hv hw
  rcases v with _ | ⟨_ | _⟩ | _ | _ | _ | _ | _ <;>
    rcases w with _ | ⟨_ | _⟩ | _ | _ | _ | _ | _ <;> simp_all [word]

variable {valid : φ → Prop} {floatText : φ → CodeText}

theorem render_of_word {v : JsonValue φ} {t : String} (h : v.word = some t) :
    v.render floatText = CodeText.ofString t := by
  cases v with
  | null =>
    cases h
    rw [render]
  | bool value =>
    cases h
    rw [render]
  | int | float | text | array | object => cases h

theorem render_numeric (hf : FloatTexts valid floatText) {v : JsonValue φ} (ha : v.atom = true)
    (hv : v.Floats valid) (hword : v.word = none) : ∀ p ∈ v.render floatText, p ∈ numeric := by
  cases v with
  | int value =>
    rw [render]
    exact fun p hp => List.mem_append_left _ (integer_integral value p hp)
  | float value =>
    rw [render]
    exact hf.numeric value hv
  | null | bool => cases hword
  | text | array | object => cases ha

theorem render_atom_token (hf : FloatTexts valid floatText) {v : JsonValue φ}
    (ha : v.atom = true) (hv : v.Floats valid) : Token (v.render floatText) := by
  cases hword : v.word with
  | none => exact token_of_numeric (render_numeric hf ha hv hword)
  | some t =>
    rw [render_of_word hword]
    exact (word_token t (mem_words hword)).1

theorem render_atom_ne_nil (hf : FloatTexts valid floatText) {v : JsonValue φ}
    (ha : v.atom = true) (hv : v.Floats valid) : v.render floatText ≠ [] := by
  cases hword : v.word with
  | some t =>
    rw [render_of_word hword]
    obtain ⟨p, hp, -⟩ := (word_token t (mem_words hword)).2
    exact List.ne_nil_of_mem hp
  | none =>
    cases v with
    | int value =>
      rw [render]
      intro h
      have hlist : (toString value).toList = [] := List.map_eq_nil_iff.1 h
      rw [toList_toString] at hlist
      cases value with
      | ofNat m => exact Nat.toDigits_ne_nil hlist
      | negSucc m => cases hlist
    | float value =>
      rw [render]
      obtain ⟨p, hp, -⟩ := hf.marked value hv
      exact List.ne_nil_of_mem hp
    | null | bool => cases hword
    | text | array | object => cases ha

theorem render_atom_injective (hf : FloatTexts valid floatText) {v w : JsonValue φ}
    (hva : v.atom = true) (hwa : w.atom = true) (hv : v.Floats valid) (hw : w.Floats valid)
    (h : v.render floatText = w.render floatText) : v = w := by
  have hmixed {v w : JsonValue φ} {t : String} (hword : v.word = some t)
      (hw : ∀ p ∈ w.render floatText, p ∈ numeric) :
      v.render floatText ≠ w.render floatText := by
    intro h
    obtain ⟨p, hp, hno⟩ := (word_token t (mem_words hword)).2
    rw [render_of_word hword] at h
    exact hno (hw p (h ▸ hp))
  cases hvw : v.word with
  | some t =>
    cases hww : w.word with
    | some u =>
      rw [render_of_word hvw, render_of_word hww] at h
      rw [CodeText.ofString_injective h] at hvw
      exact word_injective hvw hww
    | none => exact absurd h (hmixed hvw (render_numeric hf hwa hw hww))
  | none =>
    cases hww : w.word with
    | some u => exact absurd h.symm (hmixed hww (render_numeric hf hva hv hvw))
    | none =>
      have hfloat {n : Int} {x : φ} (hx : valid x) :
          CodeText.ofString (toString n) ≠ floatText x := by
        intro h
        obtain ⟨p, hp, hno⟩ := hf.marked x hx
        exact hno (integer_integral n p (h ▸ hp))
      cases v with
      | int m =>
        cases w with
        | int n =>
          rw [render, render] at h
          rw [toString_int_injective (CodeText.ofString_injective h)]
        | float x =>
          rw [render, render] at h
          exact absurd h (hfloat hw)
        | null | bool => cases hww
        | text | array | object => cases hwa
      | float x =>
        cases w with
        | int n =>
          rw [render, render] at h
          exact absurd h.symm (hfloat hv)
        | float y =>
          rw [render, render] at h
          rw [hf.injective x y hv hw h]
        | null | bool => cases hww
        | text | array | object => cases hwa
      | null | bool => cases hvw
      | text | array | object => cases hva

/-- What stands between the first part and the end. -/
def afterPart (parts : List CodeText) : CodeText :=
  match parts with
  | [] => []
  | part :: rest => 0x2C :: commaSeparated (part :: rest)

theorem commaSeparated_cons (part : CodeText) (rest : List CodeText) :
    commaSeparated (part :: rest) = part ++ afterPart rest := by
  cases rest with
  | nil =>
    unfold commaSeparated afterPart
    rw [List.intersperse_singleton, List.flatten_singleton, List.append_nil]
  | cons second rest =>
    unfold afterPart commaSeparated
    rw [List.intersperse_cons_cons, List.flatten_cons, List.flatten_cons]
    rfl

theorem ended_afterPart {p : CodePoint} (hp : p ∈ closing) (parts : List CodeText) (t : CodeText) :
    Ended (afterPart parts ++ p :: t) := by
  cases parts with
  | nil => exact ended_cons hp t
  | cons part rest => exact ended_cons (by decide) _

/-- What follows the first part shows whether there is a second. -/
theorem afterPart_append {parts others : List CodeText} {p : CodePoint} {s t : CodeText}
    (hp : p ≠ 0x2C) (h : afterPart parts ++ p :: s = afterPart others ++ p :: t) :
    commaSeparated parts ++ p :: s = commaSeparated others ++ p :: t := by
  cases parts with
  | nil =>
    cases others with
    | nil => exact h
    | cons other others => exact absurd (List.cons.inj h).1 hp
  | cons part rest =>
    cases others with
    | nil => exact absurd (List.cons.inj h).1.symm hp
    | cons other others => exact (List.cons.inj h).2

/-- A style whose texts can be read back: they begin with a quote, and none is the beginning of
another. -/
structure Style.Readable (style : Style) : Prop where
  comma : style.comma = CodeText.ofString ","
  opened : ∀ t, ∃ rest, style.quote t = 0x22 :: rest
  unique : ∀ {t u s s'}, style.quote t ++ s = style.quote u ++ s' → t = u ∧ s = s'

variable {style : Style}

theorem Style.Readable.parts (h : style.Readable) (parts : List CodeText) :
    (parts.intersperse style.comma).flatten = commaSeparated parts := by
  rw [h.comma, commaSeparated]

theorem write_atom {v : JsonValue φ} (ha : v.atom = true) :
    v.write style floatText = v.render floatText := by
  cases v with
  | null | bool | int | float => rfl
  | text | array | object => cases ha

/-- The code point a value that is no atom begins with. -/
def opening : JsonValue φ → Option CodePoint
  | .text _ => some 0x22
  | .array _ => some 0x5B
  | .object _ => some 0x7B
  | _ => none

theorem write_head (hs : style.Readable) (hf : FloatTexts valid floatText) {v : JsonValue φ}
    (hv : v.Floats valid) :
    ∃ p rest, v.write style floatText = p :: rest ∧
      (v.atom = true ∧ v.opening = none ∧ p ∉ structural ∨
        v.atom = false ∧ v.opening = some p) := by
  cases ha : v.atom with
  | true =>
    rw [write_atom ha]
    cases hr : v.render floatText with
    | nil => exact absurd hr (render_atom_ne_nil hf ha hv)
    | cons p rest =>
      refine ⟨p, rest, rfl, Or.inl ⟨rfl, ?_, ?_⟩⟩
      · cases v with
        | null | bool | int | float => rfl
        | text | array | object => cases ha
      · exact render_atom_token hf ha hv p (hr ▸ List.mem_cons_self ..)
  | false =>
    cases v with
    | null | bool | int | float => cases ha
    | text value =>
      rw [write]
      obtain ⟨rest, hrest⟩ := hs.opened value
      exact ⟨_, rest, hrest, Or.inr ⟨rfl, rfl⟩⟩
    | array items =>
      rw [write]
      exact ⟨0x5B, _, rfl, Or.inr ⟨rfl, rfl⟩⟩
    | object entries =>
      rw [write]
      exact ⟨0x7B, _, rfl, Or.inr ⟨rfl, rfl⟩⟩

/-- No value begins as what follows a value. -/
theorem write_not_ended (hs : style.Readable) (hf : FloatTexts valid floatText)
    {v : JsonValue φ} (hv : v.Floats valid) (s : CodeText) :
    ¬Ended (v.write style floatText ++ s) := by
  obtain ⟨p, rest, hr, h⟩ := write_head hs hf hv
  intro hended
  have hp := hended p (by rw [hr]; rfl)
  rcases h with ⟨-, -, hp'⟩ | ⟨-, hopening⟩
  · exact not_closing_of_not_structural hp' hp
  · cases v with
    | null | bool | int | float => cases hopening
    | text | array | object =>
      cases hopening
      revert hp
      decide

theorem opening_eq (hs : style.Readable) (hf : FloatTexts valid floatText) {v w : JsonValue φ}
    (hv : v.Floats valid) (hw : w.Floats valid) {s t : CodeText}
    (h : v.write style floatText ++ s = w.write style floatText ++ t) :
    v.atom = w.atom ∧ v.opening = w.opening := by
  obtain ⟨p, rest, hr, hp⟩ := write_head hs hf hv
  obtain ⟨q, others, hr', hq⟩ := write_head hs hf hw
  rw [hr, hr', List.cons_append, List.cons_append, List.cons.injEq] at h
  obtain ⟨rfl, -⟩ := h
  have hopening {v : JsonValue φ} (h : v.opening = some p) : p ∈ structural := by
    cases v with
    | null | bool | int | float => cases h
    | text | array | object =>
      cases h
      decide
  rcases hp with ⟨ha, ho, hp⟩ | ⟨ha, ho⟩ <;> rcases hq with ⟨ha', ho', hq⟩ | ⟨ha', ho'⟩
  · exact ⟨ha.trans ha'.symm, ho.trans ho'.symm⟩
  · exact absurd (hopening ho') hp
  · exact absurd (hopening ho) hq
  · exact ⟨ha.trans ha'.symm, ho.trans ho'.symm⟩

mutual

/-- No value is a proper prefix of another, up to what can follow it. -/
theorem write_append_unique (hs : style.Readable) (hf : FloatTexts valid floatText) :
    ∀ {v w : JsonValue φ} {s t : CodeText}, v.Floats valid → w.Floats valid → Ended s → Ended t →
      v.write style floatText ++ s = w.write style floatText ++ t → v = w ∧ s = t
  | .null, w, s, t, hv, hw, hends, hendt, h | .bool _, w, s, t, hv, hw, hends, hendt, h
  | .int _, w, s, t, hv, hw, hends, hendt, h | .float _, w, s, t, hv, hw, hends, hendt, h => by
    have ha := (opening_eq hs hf hv hw h).1.symm
    rw [write_atom rfl, write_atom ha] at h
    obtain ⟨htext, hst⟩ := Token.append_unique (render_atom_token hf rfl hv)
      (render_atom_token hf ha hw) hends hendt h
    exact ⟨render_atom_injective hf rfl ha hv hw htext, hst⟩
  | .text value, w, s, t, hv, hw, _, _, h => by
    have ho := (opening_eq hs hf hv hw h).2
    cases w with
    | text other =>
      rw [write, write] at h
      obtain ⟨rfl, hst⟩ := hs.unique h
      exact ⟨rfl, hst⟩
    | null | bool | int | float | array | object => cases ho
  | .array items, w, s, t, hv, hw, _, _, h => by
    have ho := (opening_eq hs hf hv hw h).2
    cases w with
    | array others =>
      rw [write, write, hs.parts, hs.parts, List.append_assoc, List.append_assoc,
        List.append_assoc, List.append_assoc] at h
      obtain ⟨rfl, hst⟩ := writeItems_append_unique hs hf hv hw (List.append_cancel_left h)
      exact ⟨rfl, hst⟩
    | null | bool | int | float | text | object => cases ho
  | .object entries, w, s, t, hv, hw, _, _, h => by
    have ho := (opening_eq hs hf hv hw h).2
    cases w with
    | object others =>
      rw [write, write, hs.parts, hs.parts, List.append_assoc, List.append_assoc,
        List.append_assoc, List.append_assoc] at h
      obtain ⟨rfl, hst⟩ := writeEntries_append_unique hs hf hv hw (List.append_cancel_left h)
      exact ⟨rfl, hst⟩
    | null | bool | int | float | text | array => cases ho

theorem writeItems_append_unique (hs : style.Readable) (hf : FloatTexts valid floatText) :
    ∀ {items others : List (JsonValue φ)} {s t : CodeText}, FloatsItems valid items →
      FloatsItems valid others →
      commaSeparated (writeItems style floatText items) ++ 0x5D :: s =
        commaSeparated (writeItems style floatText others) ++ 0x5D :: t →
      items = others ∧ s = t
  | [], [], s, t, _, _, h => ⟨rfl, (List.cons.inj h).2⟩
  | [], other :: others, s, t, _, hw, h => by
    have hended : Ended (commaSeparated (writeItems style floatText []) ++ 0x5D :: s) :=
      ended_cons (by decide) s
    rw [h, writeItems, commaSeparated_cons, List.append_assoc] at hended
    exact absurd hended (write_not_ended hs hf hw.1 _)
  | item :: items, [], s, t, hv, _, h => by
    have hended : Ended (commaSeparated (writeItems style floatText []) ++ 0x5D :: t) :=
      ended_cons (by decide) t
    rw [← h, writeItems, commaSeparated_cons, List.append_assoc] at hended
    exact absurd hended (write_not_ended hs hf hv.1 _)
  | item :: items, other :: others, s, t, hv, hw, h => by
    rw [writeItems, writeItems, commaSeparated_cons, commaSeparated_cons, List.append_assoc,
      List.append_assoc] at h
    obtain ⟨rfl, hrest⟩ := write_append_unique hs hf hv.1 hw.1 (ended_afterPart (by decide) _ s)
      (ended_afterPart (by decide) _ t) h
    obtain ⟨rfl, hst⟩ := writeItems_append_unique hs hf hv.2 hw.2
      (afterPart_append (by decide) hrest)
    exact ⟨rfl, hst⟩

theorem writeEntries_append_unique (hs : style.Readable) (hf : FloatTexts valid floatText) :
    ∀ {entries others : List (CodeText × JsonValue φ)} {s t : CodeText},
      FloatsEntries valid entries → FloatsEntries valid others →
      commaSeparated (writeEntries style floatText entries) ++ 0x7D :: s =
        commaSeparated (writeEntries style floatText others) ++ 0x7D :: t →
      entries = others ∧ s = t
  | [], [], s, t, _, _, h => ⟨rfl, (List.cons.inj h).2⟩
  | [], (other, value) :: others, s, t, _, hw, h => by
    obtain ⟨rest, hrest⟩ := hs.opened other
    rw [writeEntries, writeEntries, commaSeparated_cons, hrest] at h
    cases h
  | (key, item) :: entries, [], s, t, hv, _, h => by
    obtain ⟨rest, hrest⟩ := hs.opened key
    rw [writeEntries, writeEntries, commaSeparated_cons, hrest] at h
    cases h
  | (key, item) :: entries, (other, value) :: others, s, t, hv, hw, h => by
    rw [writeEntries, writeEntries, commaSeparated_cons, commaSeparated_cons] at h
    simp only [List.append_assoc] at h
    obtain ⟨rfl, hitem⟩ := hs.unique h
    obtain ⟨rfl, hrest⟩ := write_append_unique hs hf hv.1 hw.1 (ended_afterPart (by decide) _ s)
      (ended_afterPart (by decide) _ t) (List.append_cancel_left hitem)
    obtain ⟨rfl, hst⟩ := writeEntries_append_unique hs hf hv.2 hw.2
      (afterPart_append (by decide) hrest)
    exact ⟨rfl, hst⟩

end

theorem write_injective (hs : style.Readable) (hf : FloatTexts valid floatText)
    {v w : JsonValue φ} (hv : v.Floats valid) (hw : w.Floats valid)
    (h : v.write style floatText = w.write style floatText) : v = w :=
  (write_append_unique hs hf hv hw ended_nil ended_nil (by rw [h])).1

/-- The style of the encoding without white space. -/
def compact : Style := ⟨quoted, CodeText.ofString ",", CodeText.ofString ":"⟩

theorem compact_readable : compact.Readable :=
  ⟨rfl, fun t => ⟨_, quoted_eq t⟩, quoted_append_unique⟩

mutual

theorem render_eq_write : ∀ v : JsonValue φ, v.render floatText = v.write compact floatText
  | .null | .bool _ | .int _ | .float _ | .text _ => rfl
  | .array items => by
    rw [render, write, compact_readable.parts, renderItems_eq_writeItems]
  | .object entries => by
    rw [render, write, compact_readable.parts, renderEntries_eq_writeEntries]

theorem renderItems_eq_writeItems : ∀ items : List (JsonValue φ),
    renderItems floatText items = writeItems compact floatText items
  | [] => rfl
  | item :: rest => by
    rw [renderItems, writeItems, render_eq_write item, renderItems_eq_writeItems rest]

theorem renderEntries_eq_writeEntries : ∀ entries : List (CodeText × JsonValue φ),
    renderEntries floatText entries = writeEntries compact floatText entries
  | [] => rfl
  | (key, item) :: rest => by
    rw [renderEntries, writeEntries, render_eq_write item, renderEntries_eq_writeEntries rest]
    rfl

end

theorem render_injective (hf : FloatTexts valid floatText) {v w : JsonValue φ}
    (hv : v.Floats valid) (hw : w.Floats valid) (h : v.render floatText = w.render floatText) :
    v = w := by
  rw [render_eq_write, render_eq_write] at h
  exact write_injective compact_readable hf hv hw h

end Values

section Sorting

variable {α : Type} {entries others : List (CodeText × α)}

theorem sortEntries_eq_iff (h : (entries.map Prod.fst).Nodup) (h' : (others.map Prod.fst).Nodup) :
    sortEntries entries = sortEntries others ↔ ∀ key, entries.lookup key = others.lookup key := by
  constructor
  · intro heq key
    rw [← lookup_sortEntries h, heq, lookup_sortEntries h']
  · intro hlookup
    have hperm : entries.Perm others := by
      rw [List.perm_ext_iff_of_nodup h.of_map h'.of_map]
      rintro ⟨key, value⟩
      rw [← lookup_eq_some_iff h, ← lookup_eq_some_iff h', hlookup]
    refine sortEntries_eq (hperm.trans (sortEntries_perm others).symm) ?_
      (sortEntries_pairwise others)
    exact ((sortEntries_perm others).map Prod.fst).nodup_iff.2 h'

/-- Objects with distinct keys are the same up to the order of keys when they have the same keys,
with the same values up to the order of keys. -/
theorem sorted_object_eq_iff {entries others : List (CodeText × JsonValue φ)}
    (h : (entries.map Prod.fst).Nodup) (h' : (others.map Prod.fst).Nodup) :
    (object entries).sorted = (object others).sorted ↔
      (∀ key, key ∈ entries.map Prod.fst ↔ key ∈ others.map Prod.fst) ∧
      ∀ key v w, (key, v) ∈ entries → (key, w) ∈ others → v.sorted = w.sorted := by
  have hkeys (entries : List (CodeText × JsonValue φ)) (key : CodeText) :
      key ∈ entries.map Prod.fst ↔ (entries.lookup key).isSome = true := by
    rw [List.lookup_isSome_iff, List.mem_map]
    constructor
    · rintro ⟨entry, hentry, rfl⟩
      exact ⟨entry, hentry, BEq.rfl⟩
    · rintro ⟨entry, hentry, hkey⟩
      exact ⟨entry, hentry, (eq_of_beq hkey).symm⟩
  rw [sorted, sorted, object.injEq, sortEntries_eq_iff (by rwa [sortedEntries_keys])
    (by rwa [sortedEntries_keys])]
  simp only [lookup_sortedEntries, hkeys]
  constructor
  · intro hlookup
    refine ⟨fun key => ?_, fun key v w hv hw => ?_⟩
    · rw [← Option.isSome_map (f := sorted), hlookup key, Option.isSome_map]
    · have hkey := hlookup key
      rw [(lookup_eq_some_iff h).2 hv, (lookup_eq_some_iff h').2 hw] at hkey
      exact Option.some.inj hkey
  · rintro ⟨hsome, hvalues⟩ key
    have hkey := hsome key
    rcases hv : entries.lookup key with _ | v <;> rcases hw : others.lookup key with _ | w
    · rfl
    · rw [hv, hw] at hkey
      simp at hkey
    · rw [hv, hw] at hkey
      simp at hkey
    · rw [Option.map_some, Option.map_some, hvalues key v w (mem_of_lookup hv) (mem_of_lookup hw)]

theorem sorted_object_eq_iff_forall₂ {entries others : List (CodeText × JsonValue φ)}
    (hkeys : entries.map Prod.fst = others.map Prod.fst) (h : (entries.map Prod.fst).Nodup) :
    (object entries).sorted = (object others).sorted ↔
      List.Forall₂ (fun x y => x.2.sorted = y.2.sorted) entries others := by
  have heach : ∀ {entries others : List (CodeText × JsonValue φ)},
      entries.map Prod.fst = others.map Prod.fst →
      (∀ key v w, (key, v) ∈ entries → (key, w) ∈ others → v.sorted = w.sorted) →
      List.Forall₂ (fun x y => x.2.sorted = y.2.sorted) entries others := by
    intro entries
    induction entries with
    | nil =>
      intro others hkeys _
      rw [List.map_nil, eq_comm, List.map_eq_nil_iff] at hkeys
      rw [hkeys]
      exact .nil
    | cons x rest ih =>
      intro others hkeys hvalues
      cases others with
      | nil => cases hkeys
      | cons y others =>
        rw [List.map_cons, List.map_cons, List.cons.injEq] at hkeys
        refine .cons (hvalues x.1 x.2 y.2 (List.mem_cons_self ..) ?_) (ih hkeys.2 ?_)
        · rw [hkeys.1]
          exact List.mem_cons_self ..
        · intro key v w hv hw
          exact hvalues key v w (List.mem_cons_of_mem _ hv) (List.mem_cons_of_mem _ hw)
  constructor
  · intro hsorted
    rw [sorted_object_eq_iff h (hkeys ▸ h)] at hsorted
    exact heach hkeys hsorted.2
  · intro hvalues
    have hentries : sortedEntries entries = sortedEntries others := by
      clear h heach
      induction hvalues with
      | nil => rfl
      | @cons x y _ _ hvalue _ ih =>
        rw [List.map_cons, List.map_cons, List.cons.injEq] at hkeys
        rw [sortedEntries, sortedEntries, ih hkeys.2, hkeys.1, hvalue]
    rw [sorted, sorted, hentries]

theorem sortedItems_eq_map (items : List (JsonValue φ)) :
    sortedItems items = items.map sorted := by
  induction items with
  | nil => rfl
  | cons item rest ih => rw [sortedItems, List.map_cons, ih]

end Sorting

section Encodables

theorem encodableItems_iff {items : List (JsonValue φ)} :
    EncodableItems items ↔ ∀ item ∈ items, item.Encodable := by
  induction items with
  | nil => exact iff_of_true trivial fun _ h => (by cases h)
  | cons item rest ih => rw [EncodableItems, ih, List.forall_mem_cons]

theorem encodableEntries_iff {entries : List (CodeText × JsonValue φ)} :
    EncodableEntries entries ↔
      ∀ entry ∈ entries, (entry.1.string?).isSome = true ∧ entry.2.Encodable := by
  induction entries with
  | nil => exact iff_of_true trivial fun _ h => (by cases h)
  | cons entry rest ih => rw [EncodableEntries, ih, List.forall_mem_cons]

mutual

theorem encodable_sorted : ∀ {v : JsonValue φ}, v.Encodable → v.sorted.Encodable
  | .null, h | .bool _, h | .int _, h | .float _, h | .text _, h => by
    rw [sorted]
    · exact h
    all_goals intros; contradiction
  | .array items, h => by
    rw [sorted]
    exact encodableItems_sorted h
  | .object entries, h => by
    rw [sorted, Encodable, encodableEntries_iff]
    intro entry hentry
    exact encodableEntries_iff.1 (encodableEntries_sorted h) entry
      ((sortEntries_perm _).mem_iff.1 hentry)

theorem encodableItems_sorted : ∀ {items : List (JsonValue φ)},
    EncodableItems items → EncodableItems (sortedItems items)
  | [], h => h
  | _ :: _, h => ⟨encodable_sorted h.1, encodableItems_sorted h.2⟩

theorem encodableEntries_sorted : ∀ {entries : List (CodeText × JsonValue φ)},
    EncodableEntries entries → EncodableEntries (sortedEntries entries)
  | [], h => h
  | (_, _) :: _, h => ⟨⟨h.1.1, encodable_sorted h.1.2⟩, encodableEntries_sorted h.2⟩

end

end Encodables

end JsonValue
