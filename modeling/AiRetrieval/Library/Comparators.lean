import Mathlib.Data.List.Sort
import Mathlib.Order.Defs.LinearOrder

/-! Three-way comparators, and the stable sort by one. A comparator answers with the sign of
its first argument against its second; its laws are asked only of the elements it is for. The
sort asks whether one element is less than another, and nothing else. -/

/-- `(a > b) - (a < b)`, of two truth values. -/
def threeWay (greater less : Bool) : Int :=
  (if greater then 1 else 0) - (if less then 1 else 0)

/-- The stable sort by a comparator. -/
def sortBy {α : Type} (cmp : α → α → Int) (l : List α) : List α :=
  l.insertionSort fun a b => ¬cmp b a < 0

/-- The comparators one after another, until one tells the elements apart. -/
def inOrder {α : Type} : List (α → α → Int) → α → α → Int
  | [], _, _ => 0
  | cmp :: rest, a, b => if cmp a b ≠ 0 then cmp a b else inOrder rest a b

/-- A comparator orders the elements of a kind: a total preorder, with the signs that say so. -/
structure Comparator {α : Type} (P : α → Prop) (cmp : α → α → Int) : Prop where
  swap : ∀ a b, P a → P b → cmp b a = -cmp a b
  trans : ∀ a b c, P a → P b → P c → cmp a b ≤ 0 → cmp b c ≤ 0 → cmp a c ≤ 0

namespace Comparator

variable {α β : Type} {P : α → Prop} {cmp : α → α → Int}

theorem refl (h : Comparator P cmp) {a : α} (ha : P a) : cmp a a = 0 := by
  have hswap := h.swap a a ha ha
  omega

/-- What ties with one of two elements compares with a third as the other does. -/
theorem congr_left (h : Comparator P cmp) {a b c : α} (ha : P a) (hb : P b) (hc : P c)
    (htie : cmp a b = 0) (hac : cmp a c ≤ 0) : cmp b c ≤ 0 := by
  have hswap := h.swap a b ha hb
  exact h.trans b a c hb ha hc (by omega) hac

theorem tie_trans (h : Comparator P cmp) {a b c : α} (ha : P a) (hb : P b) (hc : P c)
    (hab : cmp a b = 0) (hac : cmp a c = 0) : cmp b c = 0 := by
  have hle := h.congr_left ha hb hc hab (by omega)
  have hcb := h.congr_left ha hc hb hac (by omega)
  have hswap := h.swap b c hb hc
  omega

theorem mono {Q : α → Prop} (h : Comparator P cmp) (hQ : ∀ a, Q a → P a) : Comparator Q cmp :=
  ⟨fun a b ha hb => h.swap a b (hQ a ha) (hQ b hb),
    fun a b c ha hb hc => h.trans a b c (hQ a ha) (hQ b hb) (hQ c hc)⟩

/-- Elements are compared by what is read of them. -/
theorem comap {Q : β → Prop} {f : β → α} (h : Comparator P cmp) (hf : ∀ b, Q b → P (f b)) :
    Comparator Q fun a b => cmp (f a) (f b) :=
  ⟨fun a b ha hb => h.swap _ _ (hf a ha) (hf b hb),
    fun a b c ha hb hc => h.trans _ _ _ (hf a ha) (hf b hb) (hf c hc)⟩

theorem neg (h : Comparator P cmp) : Comparator P fun a b => -cmp a b := by
  refine ⟨fun a b ha hb => ?_, fun a b c ha hb hc hab hbc => ?_⟩
  · rw [h.swap a b ha hb]
  · have hba := h.swap a b ha hb
    have hcb := h.swap b c hb hc
    have hca := h.swap a c ha hc
    have hle := h.trans c b a hc hb ha (by omega) (by omega)
    omega

/-- What is less, where of two elements at most one is and not being less passes on, is compared
by `(a > b) - (a < b)`. -/
theorem of_less {less : α → α → Bool}
    (hasymm : ∀ a b, P a → P b → less a b = true → less b a = false)
    (htrans : ∀ a b c, P a → P b → P c → less b a = false → less c b = false →
      less c a = false) :
    Comparator P fun a b => threeWay (less b a) (less a b) := by
  have hsign (a b : α) (ha : P a) (hb : P b) :
      threeWay (less b a) (less a b) ≤ 0 ↔ less b a = false := by
    have hab := hasymm b a hb ha
    cases h1 : less b a with
    | true =>
      have h2 := hab h1
      simp [threeWay, h2]
    | false => cases h2 : less a b <;> simp [threeWay]
  refine ⟨fun a b _ _ => ?_, fun a b c ha hb hc hab hbc => ?_⟩
  · unfold threeWay
    omega
  · rw [hsign _ _ ha hb] at hab
    rw [hsign _ _ hb hc] at hbc
    rw [hsign _ _ ha hc]
    exact htrans a b c ha hb hc hab hbc

/-- Comparators one after another compare as pairs are compared, first part first. -/
theorem ofEach {cmps : List (α → α → Int)} (h : ∀ cmp ∈ cmps, Comparator P cmp) :
    Comparator P (inOrder cmps) := by
  induction cmps with
  | nil => exact ⟨fun _ _ _ _ => rfl, fun _ _ _ _ _ _ _ _ => Int.le_refl 0⟩
  | cons cmp rest ih =>
    have hcmp := h cmp (List.mem_cons_self ..)
    have hrest := ih fun other hother => h other (List.mem_cons_of_mem _ hother)
    have hcons (a b : α) : inOrder (cmp :: rest) a b =
        if cmp a b ≠ 0 then cmp a b else inOrder rest a b := rfl
    refine ⟨fun a b ha hb => ?_, fun a b c ha hb hc hab hbc => ?_⟩
    · have hswap := hcmp.swap a b ha hb
      have hswap' := hrest.swap a b ha hb
      rw [hcons, hcons]
      split <;> split <;> omega
    · rw [hcons] at hab hbc ⊢
      have hle : cmp a b ≤ 0 := by split at hab <;> omega
      have hle' : cmp b c ≤ 0 := by split at hbc <;> omega
      have hac := hcmp.trans a b c ha hb hc hle hle'
      by_cases htie : cmp a c = 0
      · -- where the first comparator does not tell the ends apart, it tells none of them apart
        have hca := hcmp.swap a c ha hc
        have hcb := hcmp.trans c a b hc ha hb (by omega) hle
        have hba := hcmp.trans b c a hb hc ha hle' (by omega)
        have hswap := hcmp.swap b c hb hc
        have hswap' := hcmp.swap a b ha hb
        rw [if_neg (by omega)] at hab hbc ⊢
        exact hrest.trans a b c ha hb hc hab hbc
      · rw [if_pos htie]
        exact hac

section Sorted

variable {l : List α}

theorem sortBy_perm (cmp : α → α → Int) (l : List α) : (sortBy cmp l).Perm l :=
  List.perm_insertionSort _ l

theorem map_sortBy (f : α → β) (cmp : β → β → Int) (l : List α) :
    (sortBy (fun a b => cmp (f a) (f b)) l).map f = sortBy cmp (l.map f) :=
  List.map_insertionSort (fun a b => ¬cmp (f b) (f a) < 0) (fun a b => ¬cmp b a < 0) f l
    fun _ _ _ _ => Iff.rfl

theorem sortBy_sorted (h : Comparator P cmp) (hl : ∀ a ∈ l, P a) :
    (sortBy cmp l).Pairwise fun a b => cmp a b ≤ 0 := by
  have hsub : Comparator (fun _ : {a // P a} => True) fun a b => cmp a.val b.val :=
    h.comap fun a _ => a.property
  have htotal : Std.Total fun a b : {a // P a} => ¬cmp b.val a.val < 0 := by
    refine ⟨fun a b => ?_⟩
    have hswap := h.swap a.val b.val a.property b.property
    omega
  have htrans : IsTrans {a // P a} fun a b => ¬cmp b.val a.val < 0 := by
    refine ⟨fun a b c hab hbc => ?_⟩
    have hswap := h.swap a.val b.val a.property b.property
    have hswap' := h.swap b.val c.val b.property c.property
    have hswap'' := h.swap a.val c.val a.property c.property
    have hle := hsub.trans a b c trivial trivial trivial (by omega) (by omega)
    omega
  have hsorted := List.pairwise_insertionSort (fun a b : {a // P a} => ¬cmp b.val a.val < 0)
    (l.attachWith P hl)
  have hmap := map_sortBy (Subtype.val : {a // P a} → α) cmp (l.attachWith P hl)
  rw [List.attachWith_map_subtype_val] at hmap
  rw [← hmap, List.pairwise_map]
  refine hsorted.imp fun {a b} hab => ?_
  have hswap := h.swap a.val b.val a.property b.property
  omega

/-- Elements that tie keep the order they had. -/
theorem sortBy_stable (h : Comparator P cmp) (hl : ∀ a ∈ l, P a) {r : α} (hr : P r) :
    ((sortBy cmp l).filter fun a => cmp r a = 0) = l.filter fun a => cmp r a = 0 := by
  have htied : (l.filter fun a => cmp r a = 0).Pairwise fun a b => ¬cmp b a < 0 := by
    refine List.pairwise_of_forall_mem_list fun a ha b hb => ?_
    obtain ⟨ha, hra⟩ := List.mem_filter.1 ha
    obtain ⟨hb, hrb⟩ := List.mem_filter.1 hb
    have htie := h.tie_trans hr (hl b hb) (hl a ha) (of_decide_eq_true hrb) (of_decide_eq_true hra)
    omega
  have hsub := (List.sublist_insertionSort (r := fun a b => ¬cmp b a < 0) htied
    List.filter_sublist).filter fun a => cmp r a = 0
  rw [List.filter_filter] at hsub
  simp only [Bool.and_self] at hsub
  exact (hsub.eq_of_length ((sortBy_perm cmp l).filter _).length_eq.symm).symm

theorem sorted_eq (h : Comparator P cmp) {S T : List α} (hS : ∀ a ∈ S, P a) (hT : ∀ a ∈ T, P a)
    (hsortS : S.Pairwise fun a b => cmp a b ≤ 0) (hsortT : T.Pairwise fun a b => cmp a b ≤ 0)
    (hties : ∀ r, P r → (S.filter fun a => cmp r a = 0) = T.filter fun a => cmp r a = 0) :
    S = T := by
  induction S generalizing T with
  | nil =>
    cases T with
    | nil => rfl
    | cons b T =>
      have hb := hties b (hT b (List.mem_cons_self ..))
      have hrefl := h.refl (hT b (List.mem_cons_self ..))
      rw [List.filter_nil, List.filter_cons_of_pos (by simpa using hrefl)] at hb
      cases hb
  | cons a S ih =>
    have ha := hS a (List.mem_cons_self ..)
    have hrefl := h.refl ha
    have htiesA := hties a ha
    rw [List.filter_cons_of_pos (by simpa using hrefl)] at htiesA
    cases T with
    | nil => cases htiesA
    | cons b T =>
      have hb := hT b (List.mem_cons_self ..)
      -- the heads tie: each is least, and each has a tie in the other list
      have hba : cmp b a ≤ 0 := by
        have hmem : a ∈ (b :: T).filter fun c => cmp a c = 0 := by
          rw [← htiesA]
          exact List.mem_cons_self ..
        rcases List.mem_cons.1 (List.mem_filter.1 hmem).1 with hsame | hlater
        · rw [← hsame]
          exact Int.le_of_eq hrefl
        · exact (List.pairwise_cons.1 hsortT).1 a hlater
      have hab : cmp a b ≤ 0 := by
        have hmem : b ∈ (a :: S).filter fun c => cmp b c = 0 := by
          rw [hties b hb]
          exact List.mem_filter.2 ⟨List.mem_cons_self .., decide_eq_true (h.refl hb)⟩
        rcases List.mem_cons.1 (List.mem_filter.1 hmem).1 with hsame | hlater
        · rw [hsame]
          exact Int.le_of_eq hrefl
        · exact (List.pairwise_cons.1 hsortS).1 b hlater
      have hswap := h.swap a b ha hb
      rw [List.filter_cons_of_pos (by rw [decide_eq_true_eq]; omega)] at htiesA
      obtain rfl := (List.cons.inj htiesA).1
      rw [List.cons.injEq]
      refine ⟨rfl, ih (fun c hc => hS c (List.mem_cons_of_mem _ hc))
        (fun c hc => hT c (List.mem_cons_of_mem _ hc)) (List.pairwise_cons.1 hsortS).2
        (List.pairwise_cons.1 hsortT).2 fun r hr => ?_⟩
      have hr := hties r hr
      by_cases htie : cmp r a = 0
      · rw [List.filter_cons_of_pos (by simpa using htie),
          List.filter_cons_of_pos (by simpa using htie)] at hr
        exact (List.cons.inj hr).2
      · rw [List.filter_cons_of_neg (by simpa using htie),
          List.filter_cons_of_neg (by simpa using htie)] at hr
        exact hr

/-- Two orders of the same elements are sorted alike exactly where they order ties alike. -/
theorem sortBy_eq_iff (h : Comparator P cmp) {l' : List α} (hl : ∀ a ∈ l, P a) (hperm : l.Perm l') :
    sortBy cmp l = sortBy cmp l' ↔
      ∀ r ∈ l, (l.filter fun a => cmp r a = 0) = l'.filter fun a => cmp r a = 0 := by
  have hl' : ∀ a ∈ l', P a := fun a ha => hl a (hperm.mem_iff.2 ha)
  constructor
  · intro hsame r hr
    rw [← h.sortBy_stable hl (hl r hr), hsame, h.sortBy_stable hl' (hl r hr)]
  · intro hties
    refine h.sorted_eq (fun a ha => hl a ((sortBy_perm cmp l).mem_iff.1 ha))
      (fun a ha => hl' a ((sortBy_perm cmp l').mem_iff.1 ha)) (h.sortBy_sorted hl)
      (h.sortBy_sorted hl') fun r hr => ?_
    rw [h.sortBy_stable hl hr, h.sortBy_stable hl' hr]
    by_cases htied : ∃ b ∈ l, cmp r b = 0
    · obtain ⟨b, hb, hrb⟩ := htied
      have hsame (a : α) (ha : a ∈ l) : cmp r a = 0 ↔ cmp b a = 0 := by
        have hbr := h.swap r b hr (hl b hb)
        refine ⟨fun hra => h.tie_trans hr (hl b hb) (hl a ha) hrb hra, fun hba => ?_⟩
        exact h.tie_trans (hl b hb) hr (hl a ha) (by omega) hba
      have hb := hties b hb
      rw [List.filter_congr fun a ha => decide_eq_decide.2 (hsame a ha),
        List.filter_congr fun a ha => decide_eq_decide.2 (hsame a (hperm.mem_iff.2 ha))]
      exact hb
    · have hnone (m : List α) (hm : ∀ a ∈ m, a ∈ l) : (m.filter fun a => cmp r a = 0) = [] := by
        refine List.filter_eq_nil_iff.2 fun a ha hra => htied ⟨a, hm a ha, of_decide_eq_true hra⟩
      rw [hnone l fun a ha => ha, hnone l' fun a ha => hperm.mem_iff.2 ha]

end Sorted

end Comparator
