import Mathlib.Data.Finset.Basic
import Mathlib.Data.List.Perm.Subperm

/-! Ordered finite maps over a key order whose equal keys are equal: the standard library's
lemmas restated once without the comparison, and the bulk operations on top of them. -/
namespace OrderedTables
open Std (TreeMap TransOrd LawfulEqOrd)

variable {α : Type*} {β : Type*} [Ord α] [TransOrd α]

theorem mem_iff_lookup {t : TreeMap α β} {a : α} : a ∈ t ↔ ∃ v, t[a]? = some v := by
  rw [TreeMap.mem_iff_isSome_getElem?, Option.isSome_iff_exists]

theorem not_mem_iff_lookup {t : TreeMap α β} {a : α} : a ∉ t ↔ t[a]? = none := by
  rw [TreeMap.mem_iff_isSome_getElem?, Option.not_isSome_iff_eq_none]

omit [TransOrd α] in
theorem values_eq {t : TreeMap α β} : t.values = t.toList.map Prod.snd := by
  have h : t.values = t.foldr (fun _ v vs => v :: vs) [] := rfl
  rw [h, TreeMap.foldr_eq_foldr_toList]
  simp

variable [LawfulEqOrd α]

theorem mem_insert {t : TreeMap α β} {k a : α} {v : β} :
    a ∈ t.insert k v ↔ a = k ∨ a ∈ t := by
  rw [TreeMap.mem_insert, Std.compare_eq_iff_eq, eq_comm]

theorem mem_erase {t : TreeMap α β} {k a : α} : a ∈ t.erase k ↔ a ≠ k ∧ a ∈ t := by
  rw [TreeMap.mem_erase, ne_eq, Std.compare_eq_iff_eq, eq_comm]

omit [LawfulEqOrd α] in
theorem mem_modify {t : TreeMap α β} {k a : α} {f : β → β} : a ∈ t.modify k f ↔ a ∈ t :=
  TreeMap.mem_modify

theorem lookup_insert [DecidableEq α] {t : TreeMap α β} {k a : α} {v : β} :
    (t.insert k v)[a]? = if a = k then some v else t[a]? := by
  simp only [TreeMap.getElem?_insert, Std.compare_eq_iff_eq, eq_comm (a := k)]

theorem lookup_erase [DecidableEq α] {t : TreeMap α β} {k a : α} :
    (t.erase k)[a]? = if a = k then none else t[a]? := by
  simp only [TreeMap.getElem?_erase, Std.compare_eq_iff_eq, eq_comm (a := k)]

theorem lookup_modify [DecidableEq α] {t : TreeMap α β} {k a : α} {f : β → β} :
    (t.modify k f)[a]? = if a = k then t[a]?.map f else t[a]? := by
  simp only [TreeMap.getElem?_modify, Std.compare_eq_iff_eq]
  by_cases h : k = a
  · simp [h]
  · simp [h, Ne.symm h]

theorem mem_scan {t : TreeMap α β} {p : α × β → Bool} {a : α} :
    a ∈ (t.toList.filter p).map Prod.fst ↔ ∃ v, t[a]? = some v ∧ p (a, v) = true := by
  simp [TreeMap.mem_toList_iff_getElem?_eq_some]

theorem scan_nodup {t : TreeMap α β} (p : α × β → Bool) :
    ((t.toList.filter p).map Prod.fst).Nodup := by
  have h : t.toList.Pairwise fun a b => a.1 ≠ b.1 :=
    TreeMap.distinct_keys_toList.imp fun hab he => hab (Std.compare_eq_iff_eq.mpr he)
  exact List.pairwise_map.mpr (h.filter p)

theorem mem_foldl_erase {t : TreeMap α β} {ks : List α} {a : α} :
    a ∈ ks.foldl (fun t k => t.erase k) t ↔ a ∉ ks ∧ a ∈ t := by
  induction ks generalizing t with
  | nil => simp
  | cons k ks ih =>
    rw [List.foldl_cons, ih, mem_erase, List.mem_cons, not_or]
    tauto

theorem lookup_foldl_insert [DecidableEq α] {t : TreeMap α β} {ks : List α} {v : β} {a : α} :
    (ks.foldl (fun t k => t.insert k v) t)[a]? = if a ∈ ks then some v else t[a]? := by
  induction ks generalizing t with
  | nil => simp
  | cons k ks ih =>
    rw [List.foldl_cons, ih, lookup_insert]
    by_cases hk : a = k <;> by_cases hks : a ∈ ks <;> simp [hk, hks]

theorem lookup_insertIfNew [DecidableEq α] {t : TreeMap α β} {k a : α} {v : β} :
    (t.insertIfNew k v)[a]? = if a = k then (t[a]?).or (some v) else t[a]? := by
  simp only [TreeMap.getElem?_insertIfNew, Std.compare_eq_iff_eq]
  by_cases h : a = k
  · subst h
    cases ha : t[a]? with
    | none => simp [not_mem_iff_lookup.mpr ha]
    | some u => simp [mem_iff_lookup.mpr ⟨u, ha⟩]
  · simp [h, Ne.symm h]

theorem lookup_foldl_insertIfNew [DecidableEq α] {t : TreeMap α β} {l : List (α × β)} {a : α} :
    (l.foldl (fun t e => t.insertIfNew e.1 e.2) t)[a]? =
      (t[a]?).or (l.findSome? fun e => if e.1 = a then some e.2 else none) := by
  induction l generalizing t with
  | nil => simp
  | cons e l ih =>
    rw [List.foldl_cons, ih, lookup_insertIfNew, List.findSome?_cons]
    by_cases h : a = e.1
    · simp [h]
    · simp [h, Ne.symm h]

theorem findSome_toList [DecidableEq α] {t : TreeMap α β} {a : α} :
    (t.toList.findSome? fun e => if e.1 = a then some e.2 else none) = t[a]? := by
  cases h : t[a]? with
  | none =>
    refine List.findSome?_eq_none_iff.mpr fun e he => ?_
    have hne : e.1 ≠ a := by
      rintro rfl
      cases h.symm.trans (TreeMap.mem_toList_iff_getElem?_eq_some.mp he)
    rw [if_neg hne]
  | some v =>
    obtain ⟨u, hu⟩ := Option.isSome_iff_exists.mp (List.findSome?_isSome_iff.mpr
      ⟨(a, v), TreeMap.mem_toList_iff_getElem?_eq_some.mpr h, by simp⟩ :
        (t.toList.findSome? fun e => if e.1 = a then some e.2 else none).isSome = true)
    obtain ⟨e, he, hif⟩ := List.exists_of_findSome?_eq_some hu
    by_cases hea : e.1 = a
    · rw [if_pos hea] at hif
      have hlookup := TreeMap.mem_toList_iff_getElem?_eq_some.mp he
      rw [hea, h] at hlookup
      rw [hu, ← hif, hlookup]
    · rw [if_neg hea] at hif
      cases hif

/-- If as many values pass as there are keys allowed, every value passes. -/
theorem forall_values {t : TreeMap α β} {ks : List α} {p : β → Bool}
    (hkeys : ∀ a ∈ t, a ∈ ks) (hp : (t.values.filter p).length = ks.length) {a : α} {v : β}
    (hv : t[a]? = some v) : p v = true := by
  have hsize : t.keys.length ≤ ks.length :=
    (List.subperm_of_subset TreeMap.nodup_keys fun k hk =>
      hkeys k (TreeMap.mem_keys.mp hk)).length_le
  have hlen : t.values.length = t.keys.length := by
    rw [values_eq, List.length_map, TreeMap.length_toList, TreeMap.length_keys]
  have hall : (t.values.filter p).length = t.values.length :=
    le_antisymm (List.length_filter_le ..) (by omega)
  refine List.length_filter_eq_length_iff.mp hall v ?_
  rw [values_eq]
  exact List.mem_map.mpr ⟨(a, v), TreeMap.mem_toList_iff_getElem?_eq_some.mpr hv, rfl⟩

omit [LawfulEqOrd α] in
theorem size_foldl_erase_le {t : TreeMap α β} {ks : List α} :
    (ks.foldl (fun t k => t.erase k) t).size ≤ t.size := by
  induction ks generalizing t with
  | nil => exact le_rfl
  | cons k ks ih => exact ih.trans TreeMap.size_erase_le

end OrderedTables
