import Mathlib.Data.List.Chain
import Mathlib.Data.List.Infix

/-! Cutting a list into contiguous runs that fit. A cut where no run takes the first item of the
next is the shortest there is, when the parts of what fits fit. -/

variable {α : Type} {Fits : List α → Prop} {runs others : List (List α)} {items : List α}

structure Packing (Fits : List α → Prop) (items : List α) (runs : List (List α)) : Prop where
  joined : runs.flatten = items
  nonempty : ∀ run ∈ runs, run ≠ []
  fits : ∀ run ∈ runs, Fits run

/-- No run fits with the first item of the next. -/
def Packed (Fits : List α → Prop) (runs : List (List α)) : Prop :=
  runs.IsChain fun run next => ∀ a, next.head? = some a → ¬Fits (run ++ [a])

def PartsFit (Fits : List α → Prop) (items : List α) : Prop :=
  ∀ run part, run <:+: items → Fits run → part <:+: run → part ≠ [] → Fits part

theorem PartsFit.within {part : List α} (h : PartsFit Fits items) (hpart : part <:+: items) :
    PartsFit Fits part :=
  fun run other hrun => h run other (hrun.trans hpart)

namespace Packing

theorem nil : Packing Fits [] [] :=
  ⟨rfl, fun _ h => absurd h List.not_mem_nil, fun _ h => absurd h List.not_mem_nil⟩

theorem cons {run : List α} (hnonempty : run ≠ []) (hfits : Fits run)
    (h : Packing Fits items runs) :
    Packing Fits (run ++ items) (run :: runs) :=
  ⟨by rw [List.flatten_cons, h.joined], List.forall_mem_cons.2 ⟨hnonempty, h.nonempty⟩,
    List.forall_mem_cons.2 ⟨hfits, h.fits⟩⟩

theorem tail {run : List α} (h : Packing Fits items (run :: runs)) :
    Packing Fits runs.flatten runs :=
  ⟨rfl, (List.forall_mem_cons.1 h.nonempty).2, (List.forall_mem_cons.1 h.fits).2⟩

theorem runs_eq_nil_iff (h : Packing Fits items runs) : runs = [] ↔ items = [] := by
  rw [← h.joined, List.flatten_eq_nil_iff]
  constructor
  · rintro rfl
    exact fun _ hrun => absurd hrun List.not_mem_nil
  · intro hempty
    rw [List.eq_nil_iff_forall_not_mem]
    exact fun run hrun => h.nonempty run hrun (hempty run hrun)

theorem exists_run (h : Packing Fits items runs) {a : α} (ha : a ∈ items) :
    ∃ run ∈ runs, a ∈ run := by
  rw [← h.joined, List.mem_flatten] at ha
  exact ha

theorem isInfix (h : Packing Fits items runs) {run : List α} (hrun : run ∈ runs) :
    run <:+: items := by
  rw [← h.joined]
  exact List.infix_of_mem_flatten hrun

theorem fits_alone (h : Packing Fits items runs) (hparts : PartsFit Fits items) {a : α}
    (ha : a ∈ items) : Fits [a] := by
  obtain ⟨run, hrun, hmem⟩ := h.exists_run ha
  have hinfix := h.isInfix hrun
  obtain ⟨before, after, rfl⟩ := List.append_of_mem hmem
  exact hparts _ [a] hinfix (h.fits _ hrun) ⟨before, after, by simp⟩ (List.cons_ne_nil _ _)

theorem length_le_of_suffix (h : Packing Fits items runs) (hpacked : Packed Fits runs)
    {whole : List α} (hparts : PartsFit Fits whole) (hothers : Packing Fits whole others)
    (hsuffix : items <:+ whole) : runs.length ≤ others.length := by
  induction others generalizing runs items whole with
  | nil =>
    have hwhole : whole = [] := hothers.runs_eq_nil_iff.1 rfl
    rw [hwhole, List.suffix_nil] at hsuffix
    rw [h.runs_eq_nil_iff.2 hsuffix]
  | cons other others ih =>
    cases runs with
    | nil => exact Nat.zero_le _
    | cons run runs =>
      obtain ⟨missing, hwhole⟩ := hsuffix
      have hcut : missing ++ (run ++ runs.flatten) = other ++ others.flatten := by
        rw [← List.flatten_cons, h.joined, ← List.flatten_cons, hothers.joined, hwhole]
      -- the first run of the others ends no later than the first packed run
      have hends : other.length ≤ missing.length + run.length := by
        by_contra hlate
        rw [Nat.not_le] at hlate
        have hbegins : missing ++ run <+: other := by
          have hwholly : missing ++ run <+: other ++ others.flatten := by
            rw [← hcut, ← List.append_assoc]
            exact List.prefix_append _ _
          refine List.prefix_of_prefix_length_le hwholly (List.prefix_append _ _) ?_
          rw [List.length_append]
          omega
        obtain ⟨rest, rfl⟩ := hbegins
        rw [List.append_assoc, List.append_assoc, List.append_cancel_left_eq,
          List.append_cancel_left_eq] at hcut
        cases rest with
        | nil => simp at hlate
        | cons a rest =>
          cases runs with
          | nil => cases hcut
          | cons next runs =>
            have hnext : next.head? = some a := by
              have hhead := congrArg List.head? hcut
              cases next with
              | nil => exact absurd rfl (h.nonempty [] (by simp))
              | cons b next => exact hhead
            have hfull := (List.isChain_cons_cons.1 hpacked).1 a hnext
            have hmem := List.mem_cons_self (a := missing ++ run ++ a :: rest) (l := others)
            refine hfull (hparts _ _ (hothers.isInfix hmem) (hothers.fits _ hmem) ?_ (by simp))
            exact ⟨missing, rest, by simp⟩
      have hrest : runs.flatten <:+ others.flatten := by
        have hwholly : runs.flatten <:+ other ++ others.flatten := by
          rw [← hcut, ← List.append_assoc]
          exact List.suffix_append _ _
        refine List.suffix_of_suffix_length_le hwholly (List.suffix_append _ _) ?_
        have hlength := congrArg List.length hcut
        simp only [List.length_append] at hlength
        omega
      rw [List.length_cons, List.length_cons]
      have hlater : others.flatten <:+: whole := by
        rw [← hothers.joined, List.flatten_cons]
        exact (List.suffix_append _ _).isInfix
      exact Nat.succ_le_succ (ih h.tail hpacked.tail (hparts.within hlater) hothers.tail hrest)

theorem length_le (hparts : PartsFit Fits items) (h : Packing Fits items runs)
    (hpacked : Packed Fits runs) (hothers : Packing Fits items others) :
    runs.length ≤ others.length :=
  length_le_of_suffix h hpacked hparts hothers List.suffix_rfl

end Packing
