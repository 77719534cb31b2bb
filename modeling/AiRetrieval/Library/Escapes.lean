import AiRetrieval.Library.JsonEncoding
import Mathlib.Data.Nat.Digits.Lemmas

/-! Texts written with escapes: the UTF-16 units of a text, JSON texts in ASCII, which show these
units and no more, and `repr` of a text. -/

namespace CodeText

/-- The low hexadecimal digits of a number. -/
def hex : Nat → Nat → CodeText
  | 0, _ => []
  | width + 1, n => CodePoint.ofChar (Nat.digitChar (n / 16 ^ width % 16)) :: hex width n

theorem digit_injective {a b : Nat} (ha : a < 16) (hb : b < 16)
    (h : CodePoint.ofChar (Nat.digitChar a) = CodePoint.ofChar (Nat.digitChar b)) : a = b := by
  have hall : ∀ a b : Fin 16, CodePoint.ofChar (Nat.digitChar a) =
      CodePoint.ofChar (Nat.digitChar b) → a = b := by
    decide +kernel
  exact congrArg Fin.val (hall ⟨a, ha⟩ ⟨b, hb⟩ h)

theorem hex_unique {width m n : Nat} {s t : CodeText} (h : hex width m ++ s = hex width n ++ t) :
    m % 16 ^ width = n % 16 ^ width ∧ s = t := by
  induction width with
  | zero => exact ⟨by rw [Nat.pow_zero, Nat.mod_one, Nat.mod_one], h⟩
  | succ width ih =>
    rw [hex, hex, List.cons_append, List.cons_append, List.cons.injEq] at h
    have hdigit := digit_injective (Nat.mod_lt _ (by omega)) (Nat.mod_lt _ (by omega)) h.1
    obtain ⟨hlow, hst⟩ := ih h.2
    refine ⟨?_, hst⟩
    rw [Nat.mod_pow_succ, Nat.mod_pow_succ (x := n), hlow, hdigit]

def pointUnits (p : CodePoint) : CodeText :=
  if p.val < 0x10000 then [p]
  else [Fin.ofNat 0x110000 (0xD800 + (p.val - 0x10000) / 0x400),
    Fin.ofNat 0x110000 (0xDC00 + (p.val - 0x10000) % 0x400)]

def units (t : CodeText) : CodeText := t.flatMap pointUnits

theorem ofNat_val {n : Nat} (h : n < 0x110000) : (Fin.ofNat 0x110000 n).val = n :=
  Nat.mod_eq_of_lt h

theorem validChar_of_isSome {p : CodePoint} (h : (p.char?).isSome = true) :
    p.val < 0xD800 ∨ 0xDFFF < p.val := by
  unfold CodePoint.char? at h
  by_cases hvalid : Nat.isValidChar p.val
  · exact hvalid.imp id And.left
  · rw [dif_neg hvalid] at h
    cases h

theorem pointUnits_unique {p q : CodePoint} {s t : CodeText} (hp : (p.char?).isSome = true)
    (hq : (q.char?).isSome = true) (h : pointUnits p ++ s = pointUnits q ++ t) :
    p = q ∧ s = t := by
  have hp := validChar_of_isSome hp
  have hq := validChar_of_isSome hq
  have hhigh {p q : CodePoint} {s t : CodeText} (hp : p.val < 0xD800 ∨ 0xDFFF < p.val)
      (hlow : ¬q.val < 0x10000) :
      p :: s ≠ Fin.ofNat 0x110000 (0xD800 + (q.val - 0x10000) / 0x400) :: t := by
    intro h
    have hval := congrArg Fin.val (List.cons.inj h).1
    rw [ofNat_val (by omega)] at hval
    omega
  unfold pointUnits at h
  split_ifs at h with hps hqs hqs
  · exact List.cons.inj h
  · exact absurd h (hhigh hp hqs)
  · exact absurd h.symm (hhigh hq hps)
  · simp only [List.cons_append, List.nil_append, List.cons.injEq] at h
    obtain ⟨hfirst, hsecond, hst⟩ := h
    have hfirst := congrArg Fin.val hfirst
    have hsecond := congrArg Fin.val hsecond
    rw [ofNat_val (by omega), ofNat_val (by omega)] at hfirst hsecond
    exact ⟨Fin.ext (by omega), hst⟩

theorem pointUnits_ne_nil (p : CodePoint) : pointUnits p ≠ [] := by
  unfold pointUnits
  split <;> exact List.cons_ne_nil _ _

theorem units_injective {t u : CodeText} (ht : ∀ p ∈ t, (p.char?).isSome = true)
    (hu : ∀ p ∈ u, (p.char?).isSome = true) (h : units t = units u) : t = u := by
  induction t generalizing u with
  | nil =>
    cases u with
    | nil => rfl
    | cons q others =>
      exact absurd (List.append_eq_nil_iff.1 h.symm).1 (pointUnits_ne_nil q)
  | cons p rest ih =>
    cases u with
    | nil => exact absurd (List.append_eq_nil_iff.1 h).1 (pointUnits_ne_nil p)
    | cons q others =>
      rw [List.forall_mem_cons] at ht hu
      rw [units, units, List.flatMap_cons, List.flatMap_cons] at h
      obtain ⟨rfl, hrest⟩ := pointUnits_unique ht.1 hu.1 h
      rw [ih ht.2 hu.2 hrest]

end CodeText

namespace JsonValue

open CodeText

def escapeUnit (p : CodePoint) : CodeText :=
  if p.val < 0x7F then escape p else if p.val < 0x10000 then unicodeEscape p.val else [p]

def quotedUnits (t : CodeText) : CodeText :=
  CodeText.ofString "\"" ++ t.flatMap escapeUnit ++ CodeText.ofString "\""

theorem unicodeEscape_eq (n : Nat) : unicodeEscape n = 0x5C :: 0x75 :: hex 4 n := by
  unfold unicodeEscape CodeText.ofString
  simp only [String.toList_append, String.toList_ofList, hex, Nat.pow_zero, Nat.div_one]
  rfl

theorem escapeAscii_eq (p : CodePoint) : escapeAscii p = (pointUnits p).flatMap escapeUnit := by
  unfold escapeAscii pointUnits
  by_cases hlow : p.val < 0x7F
  · rw [if_pos hlow, if_pos (by omega), List.flatMap_singleton, escapeUnit, if_pos hlow]
  by_cases hplane : p.val < 0x10000
  · rw [if_neg hlow, if_pos hplane, if_pos hplane, List.flatMap_singleton, escapeUnit,
      if_neg hlow, if_pos hplane]
  · have hlt := p.isLt
    have hfirst : (Fin.ofNat 0x110000 (0xD800 + (p.val - 0x10000) / 0x400)).val =
        0xD800 + (p.val - 0x10000) / 0x400 := ofNat_val (by omega)
    have hsecond : (Fin.ofNat 0x110000 (0xDC00 + (p.val - 0x10000) % 0x400)).val =
        0xDC00 + (p.val - 0x10000) % 0x400 := ofNat_val (by omega)
    have hunit {q : CodePoint} (hq : 0x7F ≤ q.val ∧ q.val < 0x10000) :
        escapeUnit q = unicodeEscape q.val := by
      rw [escapeUnit, if_neg (by omega), if_pos hq.2]
    rw [if_neg hlow, if_neg hplane, if_neg hplane, List.flatMap_cons, List.flatMap_singleton,
      hunit (by omega), hunit (by omega), hfirst, hsecond]

theorem quotedAscii_eq (t : CodeText) : quotedAscii t = quotedUnits (units t) := by
  unfold quotedAscii quotedUnits units
  rw [List.flatMap_assoc]
  simp only [← escapeAscii_eq]

theorem escape_forms : ∀ p ∈ escaped, escape p = 0x5C :: 0x75 :: hex 4 p.val ∨
    ((escape p).length = 2 ∧ (escape p)[1]? ≠ some 0x75) := by
  have h : (escaped.all fun p => escape p = 0x5C :: 0x75 :: hex 4 p.val ∨
      ((escape p).length = 2 ∧ (escape p)[1]? ≠ some 0x75)) = true := by
    decide +kernel
  simpa only [List.all_eq_true, decide_eq_true_eq] using h

theorem escape_ne_unicode {p q : CodePoint} {s t : CodeText} (hp : p.val < 0x7F)
    (hq : 0x7F ≤ q.val) (hplane : q.val < 0x10000) :
    escape p ++ s ≠ unicodeEscape q.val ++ t := by
  intro h
  rw [unicodeEscape_eq] at h
  by_cases hescaped : p ∈ escaped
  · rcases escape_forms p hescaped with hform | ⟨hlength, hsecond⟩
    · rw [hform] at h
      simp only [List.cons_append, List.cons.injEq, true_and] at h
      have hmod := (hex_unique h).1
      omega
    · have hget := congrArg (·[1]?) h
      simp only [List.getElem?_append_left (show 1 < (escape p).length by omega)] at hget
      exact hsecond hget
  · rw [escape_of_not_escaped hescaped] at h
    have hhead : p = 0x5C := (List.cons.inj h).1
    exact hescaped (hhead ▸ by decide)

theorem escapeUnit_code : PrefixCode 0x22 escapeUnit where
  marked p s t := by
    unfold escapeUnit
    split_ifs with hlow hplane
    · exact escape_code.marked p s t
    · rw [unicodeEscape_eq]
      intro h
      exact absurd (List.cons.inj h).1 (by decide)
    · intro h
      have hp : (0x22 : CodePoint) = p := (List.cons.inj h).1
      exact hlow (hp ▸ by decide)
  unique {p q s t} h := by
    have hraw {p q : CodePoint} {s t : CodeText} (hp : p.val < 0x10000) (hq : ¬q.val < 0x10000) :
        escapeUnit p ++ s ≠ q :: t := by
      intro h
      have hhead : ∃ c rest, escapeUnit p = c :: rest ∧ c.val < 0x10000 := by
        unfold escapeUnit
        split_ifs with hlow
        · by_cases hescaped : p ∈ escaped
          · rcases escape_forms p hescaped with hform | ⟨hlength, -⟩
            · exact ⟨_, _, hform, by decide⟩
            · have hfirst := escape_head_of_escaped p hescaped
              rcases hp' : escape p with _ | ⟨c, rest⟩
              · rw [hp'] at hfirst
                cases hfirst
              · rw [hp'] at hfirst
                cases hfirst
                exact ⟨_, _, rfl, by decide⟩
          · exact ⟨p, [], escape_of_not_escaped hescaped, hp⟩
        · exact ⟨_, _, unicodeEscape_eq _, by decide⟩
      obtain ⟨c, rest, hc, hlt⟩ := hhead
      rw [hc] at h
      exact hq ((List.cons.inj h).1 ▸ hlt)
    by_cases hp : p.val < 0x10000 <;> by_cases hq : q.val < 0x10000
    · unfold escapeUnit at h
      rw [if_pos hp, if_pos hq] at h
      split_ifs at h with hplow hqlow hqlow
      · exact escape_append_unique h
      · exact absurd h (escape_ne_unicode hplow (by omega) hq)
      · exact absurd h.symm (escape_ne_unicode hqlow (by omega) hp)
      · rw [unicodeEscape_eq, unicodeEscape_eq] at h
        simp only [List.cons_append, List.cons.injEq, true_and] at h
        obtain ⟨hmod, hst⟩ := hex_unique h
        exact ⟨Fin.ext (by omega), hst⟩
    · have hqraw : escapeUnit q = [q] := by rw [escapeUnit, if_neg (by omega), if_neg hq]
      rw [hqraw] at h
      exact absurd h (hraw hp hq)
    · have hpraw : escapeUnit p = [p] := by rw [escapeUnit, if_neg (by omega), if_neg hp]
      rw [hpraw] at h
      exact absurd h.symm (hraw hq hp)
    · have hpraw : escapeUnit p = [p] := by rw [escapeUnit, if_neg (by omega), if_neg hp]
      have hqraw : escapeUnit q = [q] := by rw [escapeUnit, if_neg (by omega), if_neg hq]
      rw [hpraw, hqraw] at h
      exact List.cons.inj h

/-- The style of JSON in ASCII without white space, over units. -/
def unitStyle : Style := ⟨quotedUnits, CodeText.ofString ",", CodeText.ofString ":"⟩

theorem unitStyle_readable : unitStyle.Readable := by
  refine ⟨rfl, fun t => ⟨_, rfl⟩, fun {t u s s'} h => ?_⟩
  have heq (t : CodeText) : quotedUnits t = 0x22 :: (t.flatMap escapeUnit ++ [0x22]) := rfl
  change quotedUnits t ++ s = quotedUnits u ++ s' at h
  rw [heq, heq, List.cons_append, List.cons_append] at h
  replace h := (List.cons.inj h).2
  rw [List.append_assoc, List.append_assoc, List.singleton_append, List.singleton_append] at h
  exact escapeUnit_code.flatMap_unique h

section Ascii

variable {φ : Type}

def asciiStyle : Style := ⟨quotedAscii, CodeText.ofString ",", CodeText.ofString ":"⟩

mutual

def mapTexts (f : CodeText → CodeText) : JsonValue φ → JsonValue φ
  | .text value => .text (f value)
  | .array items => .array (mapItems f items)
  | .object entries => .object (mapEntries f entries)
  | value => value

def mapItems (f : CodeText → CodeText) : List (JsonValue φ) → List (JsonValue φ)
  | [] => []
  | item :: rest => item.mapTexts f :: mapItems f rest

def mapEntries (f : CodeText → CodeText) :
    List (CodeText × JsonValue φ) → List (CodeText × JsonValue φ)
  | [] => []
  | (key, item) :: rest => (f key, item.mapTexts f) :: mapEntries f rest

end

theorem mapItems_eq_map (f : CodeText → CodeText) (items : List (JsonValue φ)) :
    mapItems f items = items.map (·.mapTexts f) := by
  induction items with
  | nil => rfl
  | cons item rest ih => rw [mapItems, List.map_cons, ih]

variable {floatText : φ → CodeText}

theorem asciiStyle_comma : asciiStyle.comma = unitStyle.comma := rfl

theorem asciiStyle_colon : asciiStyle.colon = unitStyle.colon := rfl

theorem asciiStyle_quote (t : CodeText) : asciiStyle.quote t = unitStyle.quote (units t) :=
  quotedAscii_eq t

mutual

theorem write_ascii : ∀ v : JsonValue φ,
    v.write asciiStyle floatText = (v.mapTexts units).write unitStyle floatText
  | .null | .bool _ | .int _ | .float _ => by
    rw [write_atom rfl, mapTexts]
    · rw [write_atom rfl]
    all_goals intros; contradiction
  | .text value => by
    rw [write, mapTexts, write, asciiStyle_quote]
  | .array items => by
    rw [write, mapTexts, write, writeItems_ascii items, asciiStyle_comma]
  | .object entries => by
    rw [write, mapTexts, write, writeEntries_ascii entries, asciiStyle_comma]

theorem writeItems_ascii : ∀ items : List (JsonValue φ),
    writeItems asciiStyle floatText items = writeItems unitStyle floatText (mapItems units items)
  | [] => by rw [writeItems, mapItems, writeItems]
  | item :: rest => by
    rw [writeItems, mapItems, writeItems, write_ascii item, writeItems_ascii rest]

theorem writeEntries_ascii : ∀ entries : List (CodeText × JsonValue φ),
    writeEntries asciiStyle floatText entries =
      writeEntries unitStyle floatText (mapEntries units entries)
  | [] => by rw [writeEntries, mapEntries, writeEntries]
  | (key, item) :: rest => by
    rw [writeEntries, mapEntries, writeEntries, write_ascii item, writeEntries_ascii rest,
      asciiStyle_quote, asciiStyle_colon]

end

theorem quotedAscii_clean (t : CodeText) : Clean (quotedAscii t) := by
  have hpoint (p : CodePoint) : Clean (escapeAscii p) := by
    unfold escapeAscii
    split_ifs with hlow hplane
    · refine (escape_encodable_iff p).2 ?_
      unfold CodePoint.char?
      rw [dif_pos (Or.inl (by omega))]
      rfl
    · exact clean_ofString _
    · exact clean_append.2 ⟨clean_ofString _, clean_ofString _⟩
  refine clean_append.2 ⟨clean_append.2 ⟨clean_ofString _, fun p hp => ?_⟩, clean_ofString _⟩
  obtain ⟨q, -, hmem⟩ := List.mem_flatMap.1 hp
  exact hpoint q p hmem

theorem clean_parts {parts : List CodeText} (h : ∀ part ∈ parts, Clean part) :
    Clean (parts.intersperse asciiStyle.comma).flatten :=
  clean_commaSeparated.2 h

mutual

/-- JSON in ASCII has no lone surrogate. -/
theorem write_clean (hfloat : ∀ value, Clean (floatText value)) : ∀ v : JsonValue φ,
    Clean (v.write asciiStyle floatText)
  | .null | .bool _ | .int _ => clean_ofString _
  | .float value => hfloat value
  | .text value => quotedAscii_clean value
  | .array items => by
    rw [write, clean_append, clean_append]
    exact ⟨⟨clean_ofString _, clean_parts (writeItems_clean hfloat items)⟩, clean_ofString _⟩
  | .object entries => by
    have hbraces : Clean [0x7B] ∧ Clean [0x7D] := by
      constructor <;> exact List.forall_mem_singleton.2 rfl
    rw [write, clean_append, clean_append]
    exact ⟨⟨hbraces.1, clean_parts (writeEntries_clean hfloat entries)⟩, hbraces.2⟩

theorem writeItems_clean (hfloat : ∀ value, Clean (floatText value)) :
    ∀ items : List (JsonValue φ), ∀ part ∈ writeItems asciiStyle floatText items, Clean part
  | [] => fun _ h => (by cases h)
  | item :: rest => by
    rw [writeItems, List.forall_mem_cons]
    exact ⟨write_clean hfloat item, writeItems_clean hfloat rest⟩

theorem writeEntries_clean (hfloat : ∀ value, Clean (floatText value)) :
    ∀ entries : List (CodeText × JsonValue φ),
      ∀ part ∈ writeEntries asciiStyle floatText entries, Clean part
  | [] => fun _ h => (by cases h)
  | (key, item) :: rest => by
    rw [writeEntries, List.forall_mem_cons]
    refine ⟨clean_append.2 ⟨clean_append.2 ⟨quotedAscii_clean key, clean_ofString _⟩,
      write_clean hfloat item⟩, writeEntries_clean hfloat rest⟩

end

end Ascii

end JsonValue

namespace CodeText

section Repr

variable (isPrintable : Char → Bool) (quote : CodePoint)

/-- The letter of the escape of a code point, and how many digits follow. -/
def reprEscape (p : CodePoint) : Option (CodePoint × Nat) :=
  if p = quote ∨ p = 0x5C then some (p, 0)
  else if p = 0x09 then some (0x74, 0)
  else if p = 0x0A then some (0x6E, 0)
  else if p = 0x0D then some (0x72, 0)
  else if p.val < 0x20 ∨ p.val = 0x7F then some (0x78, 2)
  else if p.val < 0x7F then none
  else if p.char?.any isPrintable then none
  else if p.val ≤ 0xFF then some (0x78, 2)
  else if p.val ≤ 0xFFFF then some (0x75, 4)
  else some (0x55, 8)

def reprPoint (p : CodePoint) : CodeText :=
  match reprEscape isPrintable quote p with
  | none => [p]
  | some (letter, width) => 0x5C :: letter :: hex width p.val

def reprQuote (t : CodeText) : CodePoint := if 0x27 ∈ t ∧ 0x22 ∉ t then 0x22 else 0x27

def repr (t : CodeText) : CodeText :=
  reprQuote t :: (t.flatMap (reprPoint isPrintable (reprQuote t)) ++ [reprQuote t])

variable {isPrintable} {quote}

/-- The point an escape without digits stands for. -/
def letterPoint (letter : CodePoint) : CodePoint :=
  if letter = 0x74 then 0x09 else if letter = 0x6E then 0x0A else if letter = 0x72 then 0x0D
  else letter

/-- How many digits follow a letter. -/
def letterWidth (letter : CodePoint) : Nat :=
  if letter = 0x78 then 2 else if letter = 0x75 then 4 else if letter = 0x55 then 8 else 0

theorem reprEscape_letter (hquote : quote = 0x27 ∨ quote = 0x22) {p letter : CodePoint}
    {width : Nat}
    (h : reprEscape isPrintable quote p = some (letter, width)) :
    width = letterWidth letter ∧
      (width = 0 ∧ p = letterPoint letter ∨ 0 < width ∧ p.val < 16 ^ width) := by
  have hlt := p.isLt
  unfold reprEscape at h
  split_ifs at h with h1 h2 h3 h4 h5 h6 h7 h8 h9
  · cases h
    rcases h1 with rfl | rfl
    · rcases hquote with rfl | rfl <;> decide
    · decide
  · cases h
    exact ⟨rfl, Or.inl ⟨rfl, h2⟩⟩
  · cases h
    exact ⟨rfl, Or.inl ⟨rfl, h3⟩⟩
  · cases h
    exact ⟨rfl, Or.inl ⟨rfl, h4⟩⟩
  · cases h
    exact ⟨rfl, Or.inr ⟨by decide, by omega⟩⟩
  · cases h
    exact ⟨rfl, Or.inr ⟨by decide, by omega⟩⟩
  · cases h
    exact ⟨rfl, Or.inr ⟨by decide, by omega⟩⟩
  · cases h
    exact ⟨rfl, Or.inr ⟨by decide, by omega⟩⟩

theorem reprEscape_raw {p : CodePoint} (h : reprEscape isPrintable quote p = none) :
    p ≠ quote ∧ p ≠ 0x5C := by
  unfold reprEscape at h
  split_ifs at h with h1
  all_goals exact not_or.1 h1

theorem reprPoint_raw {p : CodePoint} (h : reprEscape isPrintable quote p = none) :
    reprPoint isPrintable quote p = [p] := by
  rw [reprPoint, h]

theorem reprPoint_escaped {p letter : CodePoint} {width : Nat}
    (h : reprEscape isPrintable quote p = some (letter, width)) :
    reprPoint isPrintable quote p = 0x5C :: letter :: hex width p.val := by
  rw [reprPoint, h]

theorem reprPoint_code (hquote : quote = 0x27 ∨ quote = 0x22) :
    PrefixCode quote (reprPoint isPrintable quote) where
  marked p s t := by
    intro h
    rcases hp : reprEscape isPrintable quote p with _ | ⟨letter, width⟩
    · rw [reprPoint_raw hp] at h
      exact (reprEscape_raw hp).1 (List.cons.inj h).1.symm
    · rw [reprPoint_escaped hp] at h
      have hhead : quote = 0x5C := (List.cons.inj h).1
      rw [hhead] at hquote
      revert hquote
      decide
  unique {p q s t} h := by
    rcases hp : reprEscape isPrintable quote p with _ | ⟨letter, width⟩ <;>
      rcases hq : reprEscape isPrintable quote q with _ | ⟨letter', width'⟩
    · rw [reprPoint_raw hp, reprPoint_raw hq] at h
      exact List.cons.inj h
    · rw [reprPoint_raw hp, reprPoint_escaped hq] at h
      exact absurd (List.cons.inj h).1 (reprEscape_raw hp).2
    · rw [reprPoint_escaped hp, reprPoint_raw hq] at h
      exact absurd (List.cons.inj h).1.symm (reprEscape_raw hq).2
    · rw [reprPoint_escaped hp, reprPoint_escaped hq] at h
      simp only [List.cons_append, List.cons.injEq, true_and] at h
      obtain ⟨rfl, h⟩ := h
      obtain ⟨hwidth, hpoint⟩ := reprEscape_letter hquote hp
      obtain ⟨hwidth', hpoint'⟩ := reprEscape_letter hquote hq
      have hsame : width = width' := hwidth.trans hwidth'.symm
      subst hsame
      obtain ⟨hmod, hst⟩ := hex_unique h
      refine ⟨?_, hst⟩
      rcases hpoint with ⟨hzero, hp⟩ | ⟨hpos, hp⟩ <;> rcases hpoint' with ⟨hzero', hq⟩ | ⟨hpos', hq⟩
      · exact hp.trans hq.symm
      · omega
      · omega
      · rw [Nat.mod_eq_of_lt hp, Nat.mod_eq_of_lt hq] at hmod
        exact Fin.ext hmod

theorem reprQuote_eq (t : CodeText) : reprQuote t = 0x27 ∨ reprQuote t = 0x22 := by
  unfold reprQuote
  split
  · exact Or.inr rfl
  · exact Or.inl rfl

theorem repr_injective : Function.Injective (repr isPrintable) := by
  intro t u h
  obtain ⟨hquote, h⟩ := List.cons.inj h
  rw [← hquote] at h
  exact ((reprPoint_code (reprQuote_eq t)).flatMap_unique h).1

/-- `repr` has no lone surrogate. -/
theorem repr_clean (t : CodeText) : ∀ p ∈ repr isPrintable t, (p.char?).isSome = true := by
  have hascii {p : CodePoint} (h : p.val < 0xD800) : (p.char?).isSome = true := by
    unfold CodePoint.char?
    rw [dif_pos (Or.inl h)]
    rfl
  have hquote : (reprQuote t).val < 0xD800 := by
    rcases reprQuote_eq t with h | h <;> rw [h] <;> decide
  have hhex (width n : Nat) : ∀ p ∈ hex width n, (p.char?).isSome = true := by
    induction width with
    | zero => exact fun _ h => (by cases h)
    | succ width ih =>
      rw [hex, List.forall_mem_cons]
      exact ⟨by rw [CodePoint.char?_ofChar]; rfl, ih⟩
  have hpoint (q : CodePoint) : ∀ p ∈ reprPoint isPrintable (reprQuote t) q,
      (p.char?).isSome = true := by
    rcases hq : reprEscape isPrintable (reprQuote t) q with _ | ⟨letter, width⟩
    · rw [reprPoint_raw hq, List.forall_mem_singleton]
      unfold reprEscape at hq
      split_ifs at hq with h1 h2 h3 h4 h5 h6 h7 h8 h9
      · exact hascii (by omega)
      · rcases hchar : q.char? with _ | c
        · rw [hchar] at h7
          cases h7
        · rfl
    · rw [reprPoint_escaped hq, List.forall_mem_cons, List.forall_mem_cons]
      refine ⟨hascii (by decide), ?_, hhex width q.val⟩
      unfold reprEscape at hq
      split_ifs at hq with h1 <;> cases hq
      · rcases h1 with rfl | rfl
        · exact hascii hquote
        · exact hascii (by decide)
      all_goals exact hascii (by decide)
  intro p hp
  rw [repr, List.mem_cons, List.mem_append, List.mem_singleton] at hp
  rcases hp with rfl | hp | rfl
  · exact hascii hquote
  · obtain ⟨q, -, hmem⟩ := List.mem_flatMap.1 hp
    exact hpoint q p hmem
  · exact hascii hquote

end Repr

end CodeText
