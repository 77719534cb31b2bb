import AiRetrieval.Library.Dictionaries
import AiRetrieval.Library.Texts
import Mathlib.Data.List.Nodup
import Mathlib.Data.List.Sort
import Mathlib.Data.List.Perm.Basic

/-! JSON values over any kind of float, what a decoder reads of a text, and how an encoder
writes a value. A decoder builds objects and the constants that are no JSON through hooks. -/

/-- A decoded value; the keys of an object are distinct where a dictionary holds them. -/
inductive JsonValue (φ : Type) where
  | null
  | bool (value : Bool)
  | int (value : Int)
  | float (value : φ)
  | text (value : CodeText)
  | array (items : List (JsonValue φ))
  | object (entries : List (CodeText × JsonValue φ))

/-- What a decoder reads: objects are pairs still, and `NaN` and the infinities are named. -/
inductive JsonText (φ : Type) where
  | null
  | bool (value : Bool)
  | int (value : Int)
  | float (value : φ)
  | text (value : CodeText)
  | constant (name : String)
  | array (items : List (JsonText φ))
  | object (pairs : List (CodeText × JsonText φ))

/-- Why reading stops: the text is no JSON, it nests too deeply, or it has an integer of too
many digits. -/
inductive JsonStop where
  | malformed
  | nesting
  | integer (digits : Nat)

/-- A text read to its end, or up to where reading stops after the hooks of some parts ran. -/
inductive JsonScan (φ : Type) where
  | document (text : JsonText φ)
  | stopped (parsed : List (JsonText φ)) (stop : JsonStop)

/-- How decoding fails: in a hook, or where reading stops. -/
inductive JsonLoadError (ε : Type) where
  | hook (error : ε)
  | stopped (stop : JsonStop)

variable {φ ε : Type}

namespace JsonText

mutual

/-- Decode what was read. Parts come before the whole, in the order of the text. -/
def load (object : List (CodeText × JsonValue φ) → Except ε (List (CodeText × JsonValue φ)))
    (constant : String → Except ε (JsonValue φ)) : JsonText φ → Except ε (JsonValue φ)
  | .null => .ok .null
  | .bool value => .ok (.bool value)
  | .int value => .ok (.int value)
  | .float value => .ok (.float value)
  | .text value => .ok (.text value)
  | .constant name => constant name
  | .array items => .array <$> loadItems object constant items
  | .object pairs => do
    let entries ← loadPairs object constant pairs
    .object <$> object entries

def loadItems (object : List (CodeText × JsonValue φ) → Except ε (List (CodeText × JsonValue φ)))
    (constant : String → Except ε (JsonValue φ)) :
    List (JsonText φ) → Except ε (List (JsonValue φ))
  | [] => .ok []
  | item :: rest => do
    return (← load object constant item) :: (← loadItems object constant rest)

def loadPairs (object : List (CodeText × JsonValue φ) → Except ε (List (CodeText × JsonValue φ)))
    (constant : String → Except ε (JsonValue φ)) :
    List (CodeText × JsonText φ) → Except ε (List (CodeText × JsonValue φ))
  | [] => .ok []
  | (key, item) :: rest => do
    return (key, ← load object constant item) :: (← loadPairs object constant rest)

end

mutual

/-- Every object has distinct keys and there is no constant. -/
def Strict : JsonText φ → Prop
  | .constant _ => False
  | .array items => StrictItems items
  | .object pairs => (pairs.map Prod.fst).Nodup ∧ StrictPairs pairs
  | _ => True

def StrictItems : List (JsonText φ) → Prop
  | [] => True
  | item :: rest => item.Strict ∧ StrictItems rest

def StrictPairs : List (CodeText × JsonText φ) → Prop
  | [] => True
  | (_, item) :: rest => item.Strict ∧ StrictPairs rest

end

mutual

def value : JsonText φ → JsonValue φ
  | .null => .null
  | .bool value => .bool value
  | .int value => .int value
  | .float value => .float value
  | .text value => .text value
  | .constant _ => .null
  | .array items => .array (values items)
  | .object pairs => .object (entries pairs)

def values : List (JsonText φ) → List (JsonValue φ)
  | [] => []
  | item :: rest => item.value :: values rest

def entries : List (CodeText × JsonText φ) → List (CodeText × JsonValue φ)
  | [] => []
  | (key, item) :: rest => (key, item.value) :: entries rest

end

theorem entries_keys (pairs : List (CodeText × JsonText φ)) :
    (entries pairs).map Prod.fst = pairs.map Prod.fst := by
  induction pairs with
  | nil => rfl
  | cons pair rest ih =>
    rw [entries, List.map_cons, List.map_cons, ih]

end JsonText

/-- The entries of a dictionary built from pairs: a repeated key keeps its place and takes the
later value. -/
def dictEntries {α : Type} (pairs : List (CodeText × α)) : List (CodeText × α) :=
  pairs.foldl (fun entries pair =>
    if pair.1 ∈ entries.map Prod.fst then
      entries.map fun entry => if entry.1 = pair.1 then pair else entry
    else entries ++ [pair]) []

theorem dictEntries_of_nodup {α : Type} {pairs : List (CodeText × α)}
    (h : (pairs.map Prod.fst).Nodup) : dictEntries pairs = pairs := by
  unfold dictEntries
  suffices hfold : ∀ entries : List (CodeText × α), ((entries ++ pairs).map Prod.fst).Nodup →
      pairs.foldl (fun entries pair =>
        if pair.1 ∈ entries.map Prod.fst then
          entries.map fun entry => if entry.1 = pair.1 then pair else entry
        else entries ++ [pair]) entries = entries ++ pairs from hfold [] h
  clear h
  induction pairs with
  | nil =>
    intro entries _
    rw [List.foldl_nil, List.append_nil]
  | cons pair rest ih =>
    intro entries hnodup
    have hnew : pair.1 ∉ entries.map Prod.fst := by
      rw [List.map_append, List.map_cons, List.nodup_append] at hnodup
      intro hmem
      exact hnodup.2.2 _ hmem _ (List.mem_cons_self ..) rfl
    rw [List.foldl_cons, if_neg hnew, ih _ (by rwa [List.append_assoc, List.singleton_append]),
      List.append_assoc, List.singleton_append]

def JsonScan.load
    (object : List (CodeText × JsonValue φ) → Except ε (List (CodeText × JsonValue φ)))
    (constant : String → Except ε (JsonValue φ)) :
    JsonScan φ → Except (JsonLoadError ε) (JsonValue φ)
  | .document text => (text.load object constant).mapError .hook
  | .stopped parsed stop => do
    let _ ← (JsonText.loadItems object constant parsed).mapError .hook
    .error (.stopped stop)

namespace JsonValue

/-- Entries in the order of their keys. -/
def sortEntries {α : Type} (entries : List (CodeText × α)) : List (CodeText × α) :=
  entries.insertionSort fun a b => a.1 ≤ b.1

mutual

def sorted : JsonValue φ → JsonValue φ
  | .array items => .array (sortedItems items)
  | .object entries => .object (sortEntries (sortedEntries entries))
  | value => value

def sortedItems : List (JsonValue φ) → List (JsonValue φ)
  | [] => []
  | item :: rest => item.sorted :: sortedItems rest

def sortedEntries : List (CodeText × JsonValue φ) → List (CodeText × JsonValue φ)
  | [] => []
  | (key, item) :: rest => (key, item.sorted) :: sortedEntries rest

end

section Encoding

/-- The escape of a code point in a JSON string; what is not ASCII stands for itself. -/
def escape (p : CodePoint) : CodeText :=
  let text := CodeText.ofString
  if p = 0x22 then text "\\\""
  else if p = 0x5C then text "\\\\"
  else if p = 0x08 then text "\\b"
  else if p = 0x09 then text "\\t"
  else if p = 0x0A then text "\\n"
  else if p = 0x0C then text "\\f"
  else if p = 0x0D then text "\\r"
  else if p.val < 0x20 then
    text ("\\u00" ++ (if p.val < 0x10 then "0" else "1") ++
      String.ofList [Nat.digitChar (p.val % 16)])
  else [p]

def quoted (t : CodeText) : CodeText :=
  CodeText.ofString "\"" ++ t.flatMap escape ++ CodeText.ofString "\""

def commaSeparated (parts : List CodeText) : CodeText :=
  (parts.intersperse (CodeText.ofString ",")).flatten

mutual

/-- The encoding without white space, given that of floats. -/
def render (floatText : φ → CodeText) : JsonValue φ → CodeText
  | .null => CodeText.ofString "null"
  | .bool value => CodeText.ofString (if value then "true" else "false")
  | .int value => CodeText.ofString (toString value)
  | .float value => floatText value
  | .text value => quoted value
  | .array items =>
    CodeText.ofString "[" ++ commaSeparated (renderItems floatText items) ++ CodeText.ofString "]"
  | .object entries =>
    -- braces by their code points
    [0x7B] ++ commaSeparated (renderEntries floatText entries) ++ [0x7D]

def renderItems (floatText : φ → CodeText) : List (JsonValue φ) → List CodeText
  | [] => []
  | item :: rest => item.render floatText :: renderItems floatText rest

def renderEntries (floatText : φ → CodeText) : List (CodeText × JsonValue φ) → List CodeText
  | [] => []
  | (key, item) :: rest =>
    (quoted key ++ CodeText.ofString ":" ++ item.render floatText) ::
      renderEntries floatText rest

end

/-- How an encoder writes texts and what it puts between parts. -/
structure Style where
  quote : CodeText → CodeText
  comma : CodeText
  colon : CodeText

/-- `\uXXXX`. -/
def unicodeEscape (n : Nat) : CodeText :=
  CodeText.ofString ("\\u" ++ String.ofList [Nat.digitChar (n / 0x1000 % 16),
    Nat.digitChar (n / 0x100 % 16), Nat.digitChar (n / 0x10 % 16), Nat.digitChar (n % 16)])

def escapeAscii (p : CodePoint) : CodeText :=
  if p.val < 0x7F then escape p
  else if p.val < 0x10000 then unicodeEscape p.val
  else unicodeEscape (0xD800 + (p.val - 0x10000) / 0x400) ++
    unicodeEscape (0xDC00 + (p.val - 0x10000) % 0x400)

def quotedAscii (t : CodeText) : CodeText :=
  CodeText.ofString "\"" ++ t.flatMap escapeAscii ++ CodeText.ofString "\""

mutual

/-- The encoding in a style, given that of floats. -/
def write (style : Style) (floatText : φ → CodeText) : JsonValue φ → CodeText
  | .null => CodeText.ofString "null"
  | .bool value => CodeText.ofString (if value then "true" else "false")
  | .int value => CodeText.ofString (toString value)
  | .float value => floatText value
  | .text value => style.quote value
  | .array items =>
    CodeText.ofString "[" ++ ((writeItems style floatText items).intersperse style.comma).flatten ++
      CodeText.ofString "]"
  | .object entries =>
    [0x7B] ++ ((writeEntries style floatText entries).intersperse style.comma).flatten ++ [0x7D]

def writeItems (style : Style) (floatText : φ → CodeText) : List (JsonValue φ) → List CodeText
  | [] => []
  | item :: rest => item.write style floatText :: writeItems style floatText rest

def writeEntries (style : Style) (floatText : φ → CodeText) :
    List (CodeText × JsonValue φ) → List CodeText
  | [] => []
  | (key, item) :: rest =>
    (style.quote key ++ style.colon ++ item.write style floatText) ::
      writeEntries style floatText rest

end

end Encoding

end JsonValue

section Loading

variable {object : List (CodeText × JsonValue φ) → Except ε (List (CodeText × JsonValue φ))}
  {constant : String → Except ε (JsonValue φ)}

namespace JsonText

mutual

/-- A strict text decodes to its value through any hook that keeps distinct keys. -/
theorem load_of_strict (h : ∀ entries, (entries.map Prod.fst).Nodup →
    object entries = .ok entries) :
    ∀ {t : JsonText φ}, t.Strict → t.load object constant = .ok t.value
  | .null, _ | .bool _, _ | .int _, _ | .float _, _ | .text _, _ => by rw [load, value]
  | .array items, hstrict => by
    rw [load, loadItems_of_strict h hstrict, value]
    rfl
  | .object pairs, hstrict => by
    have hkeys : ((entries pairs).map Prod.fst).Nodup := (entries_keys pairs).symm ▸ hstrict.1
    rw [load, loadPairs_of_strict h hstrict.2, value]
    change (object (entries pairs)).map _ = _
    rw [h _ hkeys]
    rfl

theorem loadItems_of_strict
    (h : ∀ entries, (entries.map Prod.fst).Nodup → object entries = .ok entries) :
    ∀ {items : List (JsonText φ)}, StrictItems items →
      loadItems object constant items = .ok (values items)
  | [], _ => rfl
  | item :: rest, hstrict => by
    rw [loadItems, load_of_strict h hstrict.1, loadItems_of_strict h hstrict.2, values]
    rfl

theorem loadPairs_of_strict
    (h : ∀ entries, (entries.map Prod.fst).Nodup → object entries = .ok entries) :
    ∀ {pairs : List (CodeText × JsonText φ)}, StrictPairs pairs →
      loadPairs object constant pairs = .ok (entries pairs)
  | [], _ => rfl
  | (key, item) :: rest, hstrict => by
    rw [loadPairs, load_of_strict h hstrict.1, loadPairs_of_strict h hstrict.2, entries]
    rfl

end

mutual

/-- Through hooks that refuse repeated keys and constants only a strict text decodes. -/
theorem strict_of_load
    (h : ∀ entries decoded, object entries = .ok decoded →
      (entries.map Prod.fst).Nodup ∧ decoded = entries)
    (hconstant : ∀ name v, constant name ≠ .ok v) :
    ∀ {t : JsonText φ} {v : JsonValue φ}, t.load object constant = .ok v → t.Strict ∧ v = t.value
  | .null, v, hload | .bool _, v, hload | .int _, v, hload | .float _, v, hload
  | .text _, v, hload => by
    rw [load] at hload
    cases hload
    exact ⟨trivial, by rw [value]⟩
  | .constant name, v, hload => by
    rw [load] at hload
    exact absurd hload (hconstant name v)
  | .array items, v, hload => by
    rw [load] at hload
    cases hitems : loadItems object constant items with
    | error e =>
      rw [hitems] at hload
      cases hload
    | ok loaded =>
      rw [hitems] at hload
      cases hload
      obtain ⟨hstrict, rfl⟩ := strictItems_of_load h hconstant hitems
      exact ⟨hstrict, by rw [value]⟩
  | .object pairs, v, hload => by
    rw [load] at hload
    cases hpairs : loadPairs object constant pairs with
    | error e =>
      rw [hpairs] at hload
      cases hload
    | ok loaded =>
      obtain ⟨hstrict, rfl⟩ := strictPairs_of_load h hconstant hpairs
      rw [hpairs] at hload
      change (object (entries pairs)).map _ = _ at hload
      cases hobject : object (entries pairs) with
      | error e =>
        rw [hobject] at hload
        cases hload
      | ok decoded =>
        rw [hobject] at hload
        cases hload
        obtain ⟨hkeys, rfl⟩ := h _ _ hobject
        rw [entries_keys] at hkeys
        exact ⟨⟨hkeys, hstrict⟩, by rw [value]⟩

theorem strictItems_of_load
    (h : ∀ entries decoded, object entries = .ok decoded →
      (entries.map Prod.fst).Nodup ∧ decoded = entries)
    (hconstant : ∀ name v, constant name ≠ .ok v) :
    ∀ {items : List (JsonText φ)} {loaded : List (JsonValue φ)},
      loadItems object constant items = .ok loaded → StrictItems items ∧ loaded = values items
  | [], loaded, hload => by
    cases hload
    exact ⟨trivial, rfl⟩
  | item :: rest, loaded, hload => by
    rw [loadItems] at hload
    cases hitem : item.load object constant with
    | error e =>
      rw [hitem] at hload
      cases hload
    | ok v =>
      cases hrest : loadItems object constant rest with
      | error e =>
        rw [hitem, hrest] at hload
        cases hload
      | ok others =>
        rw [hitem, hrest] at hload
        cases hload
        obtain ⟨hfirst, rfl⟩ := strict_of_load h hconstant hitem
        obtain ⟨hothers, rfl⟩ := strictItems_of_load h hconstant hrest
        exact ⟨⟨hfirst, hothers⟩, by rw [values]⟩

theorem strictPairs_of_load
    (h : ∀ entries decoded, object entries = .ok decoded →
      (entries.map Prod.fst).Nodup ∧ decoded = entries)
    (hconstant : ∀ name v, constant name ≠ .ok v) :
    ∀ {pairs : List (CodeText × JsonText φ)} {loaded : List (CodeText × JsonValue φ)},
      loadPairs object constant pairs = .ok loaded → StrictPairs pairs ∧ loaded = entries pairs
  | [], loaded, hload => by
    cases hload
    exact ⟨trivial, rfl⟩
  | (key, item) :: rest, loaded, hload => by
    rw [loadPairs] at hload
    cases hitem : item.load object constant with
    | error e =>
      rw [hitem] at hload
      cases hload
    | ok v =>
      cases hrest : loadPairs object constant rest with
      | error e =>
        rw [hitem, hrest] at hload
        cases hload
      | ok others =>
        rw [hitem, hrest] at hload
        cases hload
        obtain ⟨hfirst, rfl⟩ := strict_of_load h hconstant hitem
        obtain ⟨hothers, rfl⟩ := strictPairs_of_load h hconstant hrest
        exact ⟨⟨hfirst, hothers⟩, by rw [entries]⟩

end

end JsonText

end Loading

namespace JsonValue

mutual

def Distinct : JsonValue φ → Prop
  | .array items => DistinctItems items
  | .object entries => (entries.map Prod.fst).Nodup ∧ DistinctEntries entries
  | _ => True

def DistinctItems : List (JsonValue φ) → Prop
  | [] => True
  | item :: rest => item.Distinct ∧ DistinctItems rest

def DistinctEntries : List (CodeText × JsonValue φ) → Prop
  | [] => True
  | (_, item) :: rest => item.Distinct ∧ DistinctEntries rest

end

end JsonValue

section Entries

variable {α : Type} {entries others : List (CodeText × α)} {key : CodeText}

namespace JsonValue

theorem sortEntries_perm (entries : List (CodeText × α)) : (sortEntries entries).Perm entries :=
  List.perm_insertionSort _ _

theorem lookup_sortEntries (h : (entries.map Prod.fst).Nodup) :
    (sortEntries entries).lookup key = entries.lookup key :=
  lookup_of_perm h (sortEntries_perm entries)

theorem sortEntries_pairwise (entries : List (CodeText × α)) :
    (sortEntries entries).Pairwise fun a b => a.1 ≤ b.1 := by
  have : Std.Total fun a b : CodeText × α => a.1 ≤ b.1 := ⟨fun a b => List.le_total a.1 b.1⟩
  have : IsTrans (CodeText × α) fun a b => a.1 ≤ b.1 := ⟨fun _ _ _ => List.le_trans⟩
  exact List.pairwise_insertionSort _ entries

theorem sortEntries_eq {ordered : List (CodeText × α)} (hperm : entries.Perm ordered)
    (hnodup : (ordered.map Prod.fst).Nodup) (hordered : ordered.Pairwise fun a b => a.1 ≤ b.1) :
    sortEntries entries = ordered := by
  have hperm' := (sortEntries_perm entries).trans hperm
  refine hperm'.eq_of_pairwise ?_ (sortEntries_pairwise entries) hordered
  intro a b ha hb hle hge
  exact List.inj_on_of_nodup_map hnodup (hperm'.mem_iff.1 ha) hb (List.le_antisymm hle hge)

theorem sortedEntries_eq_map (entries : List (CodeText × JsonValue φ)) :
    sortedEntries entries = entries.map fun entry => (entry.1, entry.2.sorted) := by
  induction entries with
  | nil => rfl
  | cons entry rest ih =>
    rw [sortedEntries, List.map_cons, ih]

theorem lookup_sortedEntries (entries : List (CodeText × JsonValue φ)) :
    (sortedEntries entries).lookup key = (entries.lookup key).map sorted := by
  induction entries with
  | nil => rfl
  | cons entry rest ih =>
    obtain ⟨first, item⟩ := entry
    rw [sortedEntries, List.lookup_cons, List.lookup_cons]
    cases key == first with
    | true => rfl
    | false => exact ih

theorem sortedEntries_keys (entries : List (CodeText × JsonValue φ)) :
    (sortedEntries entries).map Prod.fst = entries.map Prod.fst := by
  induction entries with
  | nil => rfl
  | cons entry rest ih =>
    rw [sortedEntries, List.map_cons, List.map_cons, ih]

end JsonValue

end Entries

namespace JsonText

mutual

theorem value_distinct : ∀ {t : JsonText φ}, t.Strict → t.value.Distinct
  | .null, _ | .bool _, _ | .int _, _ | .float _, _ | .text _, _ => by
    rw [value]
    trivial
  | .array items, h => by
    rw [value]
    exact values_distinct h
  | .object pairs, h => by
    rw [value]
    exact ⟨(entries_keys pairs).symm ▸ h.1, entries_distinct h.2⟩

theorem values_distinct : ∀ {items : List (JsonText φ)}, StrictItems items →
    JsonValue.DistinctItems (values items)
  | [], _ => trivial
  | _ :: _, h => ⟨value_distinct h.1, values_distinct h.2⟩

theorem entries_distinct : ∀ {pairs : List (CodeText × JsonText φ)}, StrictPairs pairs →
    JsonValue.DistinctEntries (entries pairs)
  | [], _ => trivial
  | (_, _) :: _, h => ⟨value_distinct h.1, entries_distinct h.2⟩

end

end JsonText

namespace JsonValue

theorem DistinctItems.forall {items : List (JsonValue φ)} (h : DistinctItems items) :
    ∀ item ∈ items, item.Distinct := by
  induction items with
  | nil => exact fun _ hmem => (by cases hmem)
  | cons item rest ih =>
    rw [List.forall_mem_cons]
    exact ⟨h.1, ih h.2⟩

section Rendering

variable {floatText : φ → CodeText}

/-- What a code point is written as holds a lone surrogate only where it is one. -/
theorem escape_encodable_iff (p : CodePoint) :
    (∀ q ∈ escape p, (q.char?).isSome = true) ↔ (p.char?).isSome = true := by
  have hspecial (h : p.val < 0xD800) {s : String} :
      (∀ q ∈ CodeText.ofString s, (q.char?).isSome = true) ↔ (p.char?).isSome = true := by
    refine ⟨fun _ => ?_, fun _ _ hq => CodeText.char?_of_mem_ofString hq⟩
    unfold CodePoint.char?
    rw [dif_pos (Or.inl h)]
    rfl
  unfold escape
  dsimp only
  split_ifs with h1 h2 h3 h4 h5 h6 h7 h8
  · exact hspecial (by rw [h1]; decide)
  · exact hspecial (by rw [h2]; decide)
  · exact hspecial (by rw [h3]; decide)
  · exact hspecial (by rw [h4]; decide)
  · exact hspecial (by rw [h5]; decide)
  · exact hspecial (by rw [h6]; decide)
  · exact hspecial (by rw [h7]; decide)
  · exact hspecial (by omega)
  · exact hspecial (by omega)
  · simp

theorem quoted_encodable_iff (t : CodeText) :
    (∀ p ∈ quoted t, (p.char?).isSome = true) ↔ (t.string?).isSome = true := by
  rw [CodeText.string?_isSome_iff]
  unfold quoted
  constructor
  · intro h p hp
    rw [← escape_encodable_iff]
    intro q hq
    apply h q
    rw [List.mem_append, List.mem_append]
    exact Or.inl (Or.inr (List.mem_flatMap.2 ⟨p, hp, hq⟩))
  · intro h q hq
    rw [List.mem_append, List.mem_append] at hq
    rcases hq with (hq | hq) | hq
    · exact CodeText.char?_of_mem_ofString hq
    · obtain ⟨p, hp, hmem⟩ := List.mem_flatMap.1 hq
      exact (escape_encodable_iff p).2 (h p hp) q hmem
    · exact CodeText.char?_of_mem_ofString hq

theorem mem_commaSeparated {parts : List CodeText} {p : CodePoint}
    (h : p ∈ commaSeparated parts) : p ∈ CodeText.ofString "," ∨ ∃ part ∈ parts, p ∈ part := by
  unfold commaSeparated at h
  rw [List.mem_flatten] at h
  obtain ⟨part, hpart, hp⟩ := h
  induction parts with
  | nil => cases hpart
  | cons first rest ih =>
    cases rest with
    | nil =>
      rw [List.intersperse_singleton, List.mem_singleton] at hpart
      subst hpart
      exact Or.inr ⟨_, List.mem_cons_self .., hp⟩
    | cons second rest =>
      rw [List.intersperse_cons_cons, List.mem_cons, List.mem_cons] at hpart
      rcases hpart with rfl | rfl | hpart
      · exact Or.inr ⟨_, List.mem_cons_self .., hp⟩
      · exact Or.inl hp
      · rcases ih hpart with h | ⟨other, hother, h⟩
        · exact Or.inl h
        · exact Or.inr ⟨other, List.mem_cons_of_mem _ hother, h⟩

theorem mem_commaSeparated_of_mem {parts : List CodeText} {part : CodeText} (h : part ∈ parts)
    {p : CodePoint} (hp : p ∈ part) : p ∈ commaSeparated parts := by
  unfold commaSeparated
  rw [List.mem_flatten]
  refine ⟨part, ?_, hp⟩
  induction parts with
  | nil => cases h
  | cons first rest ih =>
    cases rest with
    | nil => rwa [List.intersperse_singleton]
    | cons second rest =>
      rw [List.intersperse_cons_cons, List.mem_cons, List.mem_cons]
      rcases List.mem_cons.1 h with rfl | h
      · exact Or.inl rfl
      · exact Or.inr (Or.inr (ih h))

mutual

/-- No text in a value, and no key, has a lone surrogate. -/
def Encodable : JsonValue φ → Prop
  | .text value => (value.string?).isSome = true
  | .array items => EncodableItems items
  | .object entries => EncodableEntries entries
  | _ => True

def EncodableItems : List (JsonValue φ) → Prop
  | [] => True
  | item :: rest => item.Encodable ∧ EncodableItems rest

def EncodableEntries : List (CodeText × JsonValue φ) → Prop
  | [] => True
  | (key, item) :: rest => ((key.string?).isSome = true ∧ item.Encodable) ∧ EncodableEntries rest

end

/-- A text in which every code point is a character. -/
def Clean (t : CodeText) : Prop := ∀ p ∈ t, (p.char?).isSome = true

theorem clean_ofString (s : String) : Clean (CodeText.ofString s) :=
  fun _ hp => CodeText.char?_of_mem_ofString hp

theorem clean_append {s t : CodeText} : Clean (s ++ t) ↔ Clean s ∧ Clean t :=
  List.forall_mem_append

theorem clean_commaSeparated {parts : List CodeText} :
    Clean (commaSeparated parts) ↔ ∀ part ∈ parts, Clean part := by
  constructor
  · intro h part hpart p hp
    exact h p (mem_commaSeparated_of_mem hpart hp)
  · intro h p hp
    rcases mem_commaSeparated hp with hp | ⟨part, hpart, hp⟩
    · exact clean_ofString _ p hp
    · exact h part hpart p hp

mutual

theorem render_clean_iff (hfloat : ∀ value, Clean (floatText value)) : ∀ v : JsonValue φ,
    Clean (v.render floatText) ↔ v.Encodable
  | .null => by
    rw [render]
    exact iff_of_true (clean_ofString _) trivial
  | .bool value => by
    rw [render]
    exact iff_of_true (clean_ofString _) trivial
  | .int value => by
    rw [render]
    exact iff_of_true (clean_ofString _) trivial
  | .float value => by
    rw [render]
    exact iff_of_true (hfloat value) trivial
  | .text value => by
    rw [render]
    exact quoted_encodable_iff value
  | .array items => by
    rw [render, clean_append, clean_append, clean_commaSeparated,
      renderItems_clean_iff hfloat items]
    exact ⟨fun h => h.1.2, fun h => ⟨⟨clean_ofString _, h⟩, clean_ofString _⟩⟩
  | .object entries => by
    have hbraces : Clean [0x7B] ∧ Clean [0x7D] := by
      constructor <;> exact List.forall_mem_singleton.2 rfl
    rw [render, clean_append, clean_append, clean_commaSeparated,
      renderEntries_clean_iff hfloat entries]
    exact ⟨fun h => h.1.2, fun h => ⟨⟨hbraces.1, h⟩, hbraces.2⟩⟩

theorem renderItems_clean_iff (hfloat : ∀ value, Clean (floatText value)) :
    ∀ items : List (JsonValue φ), (∀ part ∈ renderItems floatText items, Clean part) ↔
      EncodableItems items
  | [] => by
    rw [renderItems]
    exact iff_of_true (fun _ h => (by cases h)) trivial
  | item :: rest => by
    rw [renderItems, List.forall_mem_cons, render_clean_iff hfloat item,
      renderItems_clean_iff hfloat rest, EncodableItems]

theorem renderEntries_clean_iff (hfloat : ∀ value, Clean (floatText value)) :
    ∀ entries : List (CodeText × JsonValue φ),
      (∀ part ∈ renderEntries floatText entries, Clean part) ↔ EncodableEntries entries
  | [] => by
    rw [renderEntries]
    exact iff_of_true (fun _ h => (by cases h)) trivial
  | (key, item) :: rest => by
    rw [renderEntries, List.forall_mem_cons, clean_append, clean_append,
      render_clean_iff hfloat item, renderEntries_clean_iff hfloat rest, EncodableEntries]
    refine and_congr_left fun _ => and_congr_left fun _ => ?_
    exact ⟨fun h => (quoted_encodable_iff key).1 h.1,
      fun h => ⟨(quoted_encodable_iff key).2 h, clean_ofString _⟩⟩

end

theorem render_encodable_iff (hfloat : ∀ value, Clean (floatText value)) (v : JsonValue φ) :
    ((v.render floatText).string?).isSome = true ↔ v.Encodable := by
  rw [CodeText.string?_isSome_iff]
  exact render_clean_iff hfloat v

theorem encodableItems_texts (texts : List CodeText) :
    EncodableItems (texts.map (JsonValue.text : CodeText → JsonValue φ)) ↔
      ∀ text ∈ texts, (text.string?).isSome = true := by
  induction texts with
  | nil => exact iff_of_true trivial fun _ h => (by cases h)
  | cons text rest ih =>
    rw [List.map_cons, EncodableItems, ih, List.forall_mem_cons, Encodable]

end Rendering

end JsonValue
