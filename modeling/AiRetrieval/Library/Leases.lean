import Mathlib.Order.Basic

/-! Leases on one resource: who may act on it at which time. A lease is granted when
none is live, extended or given up only by its holder while it is live, and ends by
itself when its expiry is reached. -/

structure Lease (Owner Time : Type) where
  owner : Owner
  expiry : Time

namespace Lease

variable {Owner Time : Type} [Preorder Time]

/-- One step at time `now`, made by an actor, or by nobody when nothing changes. -/
inductive Step (now : Time) :
    Option (Lease Owner Time) → Option Owner → Option (Lease Owner Time) → Prop where
  | idle (l : Option (Lease Owner Time)) : Step now l none l
  | grant {l : Option (Lease Owner Time)} (free : ∀ h, l = some h → ¬now < h.expiry)
      (owner : Owner) (expiry : Time) : Step now l (some owner) (some ⟨owner, expiry⟩)
  | extend (h : Lease Owner Time) (live : now < h.expiry) (expiry : Time) :
      Step now (some h) (some h.owner) (some ⟨h.owner, expiry⟩)
  | release (h : Lease Owner Time) (live : now < h.expiry) : Step now (some h) (some h.owner) none

variable {now : Time} {l l' : Option (Lease Owner Time)} {w actor : Owner} {e : Time}

theorem Step.actor_eq_holder (h : Step now (some ⟨w, e⟩) (some actor) l') (live : now < e) :
    actor = w := by
  cases h with
  | grant free _ expiry => exact absurd live (free _ rfl)
  | extend _ _ expiry => rfl
  | release _ _ => rfl

theorem Step.holder_kept {a : Option Owner} {h' : Lease Owner Time}
    (h : Step now (some ⟨w, e⟩) a (some h')) (live : now < e) : h'.owner = w := by
  cases h with
  | idle _ => rfl
  | grant free _ expiry => exact absurd live (free _ rfl)
  | extend _ _ expiry => rfl

/-- `Period w e l`: the lease was granted to `w`, has been kept since through steps each
before the expiry of that moment, and now is `l`, running to `e`. -/
inductive Period (w : Owner) : Time → Option (Lease Owner Time) → Prop where
  | granted {l : Option (Lease Owner Time)} {now e : Time}
      (h : Step now l (some w) (some ⟨w, e⟩)) : Period w e (some ⟨w, e⟩)
  | step {l : Option (Lease Owner Time)} {a : Option Owner} {h' : Lease Owner Time}
      {now e : Time} (period : Period w e l) (live : now < e)
      (h : Step now l a (some h')) : Period w h'.expiry (some h')

theorem Period.lease_eq (h : Period w e l) : l = some ⟨w, e⟩ := by
  induction h with
  | granted h => rfl
  | step period live h ih =>
    subst ih
    have howner := h.holder_kept live
    subst howner
    rfl

theorem Period.exclusive (h : Period w e l) (live : now < e)
    (hs : Step now l (some actor) l') : actor = w := by
  obtain rfl := h.lease_eq
  exact hs.actor_eq_holder live

end Lease
