import Mathlib.Data.List.Basic
import Mathlib.Data.List.TakeWhile
import Mathlib.Data.Option.Basic

/-! Texts over all code points. A text of a language whose strings may hold lone surrogates is
a list of code points; the texts that UTF-8 encodes are those of a `String`. -/

/-- A code point, a lone surrogate included. -/
abbrev CodePoint := Fin 0x110000

instance codePointBound : @NeZero Nat (@Zero.ofOfNat0 Nat (instOfNatNat 0)) 0x110000 :=
  @NeZero.mk Nat (@Zero.ofOfNat0 Nat (instOfNatNat 0)) 0x110000 (Nat.succ_ne_zero 0x10FFFF)

abbrev CodeText := List CodePoint

/-- Texts are ordered code point by code point. -/
instance : LE CodeText := List.instLE

instance : LawfulBEq CodeText := inferInstance

namespace CodePoint

def ofChar (c : Char) : CodePoint := ⟨c.toNat, by
  rcases c.valid with h | h
  · exact lt_trans h (by decide)
  · exact h.2⟩

/-- The character of a code point that is no lone surrogate. -/
def char? (p : CodePoint) : Option Char :=
  if h : Nat.isValidChar p.val then some (Char.ofNatAux p.val h) else none

theorem char?_ofChar (c : Char) : (ofChar c).char? = some c := by
  unfold char? ofChar
  rw [dif_pos (show Nat.isValidChar c.toNat from c.valid)]
  rfl

theorem ofChar_of_char? {p : CodePoint} {c : Char} (h : p.char? = some c) : p = ofChar c := by
  unfold char? at h
  by_cases hvalid : Nat.isValidChar p.val
  · rw [dif_pos hvalid] at h
    cases h
    rfl
  · rw [dif_neg hvalid] at h
    cases h

end CodePoint

namespace CodeText

def ofString (s : String) : CodeText := s.toList.map CodePoint.ofChar

theorem bytes_loop (bytes : ByteArray) (i : Nat) (read : List UInt8) :
    ByteArray.toList.loop bytes i read = read.reverse ++ bytes.data.toList.drop i := by
  fun_induction ByteArray.toList.loop bytes i read with
  | case1 i read hi ih =>
    have hlength : i < bytes.data.toList.length := hi
    have hbyte : bytes.get! i = bytes.data.toList[i] := by
      obtain ⟨data⟩ := bytes
      exact getElem!_pos data i hi
    rw [ih, List.reverse_cons, List.append_assoc, List.singleton_append, hbyte,
      List.drop_eq_getElem_cons hlength]
  | case2 i read hi =>
    rw [List.drop_eq_nil_of_le (Nat.le_of_not_lt hi), List.append_nil]

theorem utf8_injective {a b : String} (h : a.toUTF8.toList = b.toUTF8.toList) : a = b := by
  unfold ByteArray.toList at h
  rw [bytes_loop, bytes_loop] at h
  exact String.toByteArray_inj.1 (ByteArray.ext (Array.toList_inj.1 h))

def string? (t : CodeText) : Option String := (t.mapM CodePoint.char?).map String.ofList

theorem string?_ofString (s : String) : (ofString s).string? = some s := by
  have h (l : List Char) : (l.map CodePoint.ofChar).mapM CodePoint.char? = some l := by
    induction l with
    | nil => rfl
    | cons c rest ih =>
      rw [List.map_cons, List.mapM_cons, CodePoint.char?_ofChar, ih]
      rfl
  unfold string? ofString
  rw [h, Option.map_some, String.ofList_toList]

theorem ofString_of_string? {t : CodeText} {s : String} (h : t.string? = some s) :
    t = ofString s := by
  unfold string? at h
  obtain ⟨chars, hchars, rfl⟩ := Option.map_eq_some_iff.1 h
  unfold ofString
  rw [String.toList_ofList]
  clear h
  induction t generalizing chars with
  | nil =>
    cases hchars
    rfl
  | cons p rest ih =>
    rw [List.mapM_cons] at hchars
    obtain ⟨c, hc, hrest⟩ := Option.bind_eq_some_iff.1 hchars
    obtain ⟨tail, htail, he⟩ := Option.bind_eq_some_iff.1 hrest
    cases he
    rw [List.map_cons, ← ih tail htail, CodePoint.ofChar_of_char? hc]

theorem string?_eq_some {t : CodeText} {s : String} : t.string? = some s ↔ t = ofString s :=
  ⟨ofString_of_string?, fun h => h ▸ string?_ofString s⟩

theorem ofString_injective : Function.Injective ofString := by
  intro a b h
  exact Option.some.inj ((string?_ofString a).symm.trans (h ▸ string?_ofString b))

theorem string?_isSome_iff {t : CodeText} :
    (t.string?).isSome = true ↔ ∀ p ∈ t, (p.char?).isSome = true := by
  unfold string?
  rw [Option.isSome_map]
  induction t with
  | nil => exact ⟨fun _ p hp => (by cases hp), fun _ => rfl⟩
  | cons p rest ih =>
    rw [List.mapM_cons, List.forall_mem_cons, ← ih]
    cases p.char? with
    | none => simp
    | some c => cases rest.mapM CodePoint.char? <;> simp

theorem char?_of_mem_ofString {s : String} {p : CodePoint} (h : p ∈ ofString s) :
    (p.char?).isSome = true :=
  string?_isSome_iff.1 (by rw [string?_ofString]; rfl) p h

/-- The words between runs of separators. -/
def words (space : CodePoint → Bool) (t : CodeText) : List CodeText :=
  (t.splitOnP space).filter fun word => !word.isEmpty

end CodeText
