import AiRetrieval.Library.Grouping
import AiRetrieval.Sanity.StoreInvariant
import AiRetrieval.Spec.Execution

/-! What the store lists of one job: its items and its terminal records, by key and by
item identifier. -/

namespace AiRetrieval

theorem TerminalWorkItemRecord.texts (r : TerminalWorkItemRecord) :
    blank r.val.jobId = false ∧ blank r.val.itemId = false := by
  have h := r.passed
  simp only [TerminalWorkItemRecord.postInit, except_seq_eq_ok, requireTexts_eq_ok,
    List.forall_mem_cons] at h
  exact ⟨h.1.1, h.1.2.1⟩

namespace WorkRepository

def itemKey (item : WorkItemRecord) : Key := (item.val.jobId, item.val.idempotencyKey)

def terminalKey (r : TerminalWorkItemRecord) : Key := (r.val.jobId, r.val.idempotencyKey)

section Listings

variable {ν : Type} {d : Dict Key ν} {f : ν → Key} {g : ν → String} {jobId : String}

theorem listing_keys (h : ∀ k v, d.get? k = some v → f v = k) :
    ((sortedBy g (d.values.filter fun v => (f v).1 = jobId)).map f).Perm
      (d.keys.filter fun k => k.1 = jobId) := by
  refine ((List.perm_insertionSort _ _).map f).trans (List.Perm.of_eq ?_)
  exact Dict.values_filter_map_of_keyed h fun k => decide (k.1 = jobId)

theorem mem_listing (h : ∀ k v, d.get? k = some v → f v = k) {v : ν} :
    v ∈ sortedBy g (d.values.filter fun v => (f v).1 = jobId) ↔
      d.get? (f v) = some v ∧ (f v).1 = jobId := by
  unfold sortedBy
  rw [List.mem_insertionSort, List.mem_filter, Dict.mem_values_iff, decide_eq_true_eq]
  constructor
  · rintro ⟨⟨k, hk⟩, hj⟩
    exact ⟨h k v hk ▸ hk, hj⟩
  · rintro ⟨hk, hj⟩
    exact ⟨⟨_, hk⟩, hj⟩

/-- Where the item identifier determines the key, no identifier is listed twice. -/
theorem listing_names_nodup (h : ∀ k v, d.get? k = some v → f v = k)
    (find : String → Option String)
    (hfind : ∀ v, d.get? (f v) = some v → (f v).1 = jobId → find (g v) = some (f v).2) :
    ((sortedBy g (d.values.filter fun v => (f v).1 = jobId)).map g).Nodup := by
  have hkeys : ((sortedBy g (d.values.filter fun v => (f v).1 = jobId)).map f).Nodup :=
    (listing_keys h).nodup_iff.2 (d.nodup.filter _)
  refine List.Nodup.map_on (fun v hv v' hv' hg => ?_) (List.Nodup.of_map f hkeys)
  refine List.inj_on_of_nodup_map hkeys hv hv' ?_
  rw [mem_listing h] at hv hv'
  have h1 := hfind v hv.1 hv.2
  rw [hg, hfind v' hv'.1 hv'.2] at h1
  exact Prod.ext (hv.2.trans hv'.2.symm) (Option.some.inj h1).symm

end Listings

section Jobs

variable {s : WorkRepository} {jobId : String}

theorem StoreInvariant.item_keyed (hs : s.StoreInvariant) (k : Key) (item : WorkItemRecord)
    (h : s.items.get? k = some item) : itemKey item = k :=
  (hs.announced.keyed k _ (work?_of_get? h)).symm

theorem StoreInvariant.terminal_keyed (hs : s.StoreInvariant) (k : Key)
    (r : TerminalWorkItemRecord) (h : s.terminal.get? k = some r) : terminalKey r = k := by
  obtain ⟨w, hw, hr⟩ := hs.recorded.terminal k r h
  exact hr.key.trans (hs.announced.keyed k w hw).symm

theorem StoreInvariant.mem_itemsOf (hs : s.StoreInvariant) {item : WorkItemRecord} :
    item ∈ s.itemsOf jobId ↔ s.items.get? (itemKey item) = some item ∧ item.val.jobId = jobId :=
  mem_listing hs.item_keyed

theorem StoreInvariant.mem_terminalItems (hs : s.StoreInvariant) {r : TerminalWorkItemRecord} :
    r ∈ s.terminalItems jobId ↔
      s.terminal.get? (terminalKey r) = some r ∧ r.val.jobId = jobId :=
  mem_listing hs.terminal_keyed

theorem StoreInvariant.itemId_finds (hs : s.StoreInvariant) {k : Key} {w : Work}
    (h : s.work? k = some w) : s.itemIds.get? (k.1, w.itemId) = some k.2 :=
  (hs.announced.itemIds k.1 w.itemId k.2).2 ⟨w, h, rfl⟩

theorem StoreInvariant.itemsOf_nodup (hs : s.StoreInvariant) :
    ((s.itemsOf jobId).map (·.val.itemId)).Nodup := by
  refine listing_names_nodup hs.item_keyed (fun i => s.itemIds.get? (jobId, i)) ?_
  rintro item hi rfl
  exact hs.itemId_finds (work?_of_get? hi)

theorem StoreInvariant.terminal_itemId (hs : s.StoreInvariant) {r : TerminalWorkItemRecord}
    {item : WorkItemRecord} (hr : s.terminal.get? (itemKey item) = some r)
    (hi : s.items.get? (itemKey item) = some item) : r.val.itemId = item.val.itemId := by
  obtain ⟨w, hw, ho⟩ := hs.recorded.terminal _ r hr
  rw [work?_of_get? hi, Option.some.injEq] at hw
  rw [ho.itemId, ← hw]
  rfl

theorem StoreInvariant.terminalItems_nodup (hs : s.StoreInvariant) :
    ((s.terminalItems jobId).map (·.val.itemId)).Nodup := by
  refine listing_names_nodup hs.terminal_keyed (fun i => s.itemIds.get? (jobId, i)) ?_
  rintro r hr rfl
  obtain ⟨w, hw, ho⟩ := hs.recorded.terminal _ r hr
  rw [ho.itemId]
  exact hs.itemId_finds hw

theorem StoreInvariant.terminalItems_complete_iff (hs : s.StoreInvariant) :
    (s.terminalItems jobId).length = (s.itemsOf jobId).length ↔
      ∀ item ∈ s.itemsOf jobId, ∃ r, s.terminal.get? (itemKey item) = some r := by
  have hitems : ((s.itemsOf jobId).map itemKey).Perm _ := listing_keys hs.item_keyed
  have hterminal : ((s.terminalItems jobId).map terminalKey).Perm _ :=
    listing_keys hs.terminal_keyed
  have hitemsNodup : ((s.itemsOf jobId).map itemKey).Nodup :=
    hitems.nodup_iff.2 (s.items.nodup.filter _)
  have hterminalNodup : ((s.terminalItems jobId).map terminalKey).Nodup :=
    hterminal.nodup_iff.2 (s.terminal.nodup.filter _)
  have hsub : (s.terminalItems jobId).map terminalKey ⊆ (s.itemsOf jobId).map itemKey := by
    intro k hk
    obtain ⟨r, hr, rfl⟩ := List.mem_map.1 hk
    obtain ⟨hfound, hjob⟩ := hs.mem_terminalItems.1 hr
    obtain ⟨w, hw, -⟩ := hs.recorded.terminal _ r hfound
    obtain ⟨item, hi, -⟩ := work?_eq_some.1 hw
    have hkey := hs.item_keyed _ item hi
    exact List.mem_map.2 ⟨item, hs.mem_itemsOf.2 ⟨hkey ▸ hi, (congrArg Prod.fst hkey).trans hjob⟩,
      hkey⟩
  constructor
  · intro hlen item hitem
    have hperm := (List.subperm_of_subset hterminalNodup hsub).perm_of_length_le (by simp [hlen])
    obtain ⟨r, hr, hkey⟩ := List.mem_map.1 (hperm.symm.subset (List.mem_map_of_mem hitem))
    exact ⟨r, hkey ▸ (hs.mem_terminalItems.1 hr).1⟩
  · intro hall
    have hsub' : (s.itemsOf jobId).map itemKey ⊆ (s.terminalItems jobId).map terminalKey := by
      intro k hk
      obtain ⟨item, hi, rfl⟩ := List.mem_map.1 hk
      obtain ⟨r, hr⟩ := hall item hi
      have hkey := hs.terminal_keyed _ r hr
      exact List.mem_map.2 ⟨r, hs.mem_terminalItems.2 ⟨hkey ▸ hr,
        (congrArg Prod.fst hkey).trans (hs.mem_itemsOf.1 hi).2⟩, hkey⟩
    have h1 := (List.subperm_of_subset hterminalNodup hsub).length_le
    have h2 := (List.subperm_of_subset hitemsNodup hsub').length_le
    simp only [List.length_map] at h1 h2
    omega

theorem StoreInvariant.terminalItems_names (hs : s.StoreInvariant)
    (hall : ∀ item ∈ s.itemsOf jobId, ∃ r, s.terminal.get? (itemKey item) = some r) :
    ((s.terminalItems jobId).map (·.val.itemId)).Perm ((s.itemsOf jobId).map (·.val.itemId)) := by
  have hsub : (s.itemsOf jobId).map (·.val.itemId) ⊆
      (s.terminalItems jobId).map (·.val.itemId) := by
    intro i hi
    obtain ⟨item, hitem, rfl⟩ := List.mem_map.1 hi
    obtain ⟨r, hr⟩ := hall item hitem
    obtain ⟨hfound, hjob⟩ := hs.mem_itemsOf.1 hitem
    have hkey := hs.terminal_keyed _ r hr
    exact List.mem_map.2 ⟨r, hs.mem_terminalItems.2 ⟨hkey ▸ hr,
      (congrArg Prod.fst hkey).trans hjob⟩, hs.terminal_itemId hr hfound⟩
  have hlen := hs.terminalItems_complete_iff.2 hall
  exact ((List.subperm_of_subset hs.itemsOf_nodup hsub).perm_of_length_le (by simp [hlen])).symm

end Jobs

end WorkRepository

end AiRetrieval
