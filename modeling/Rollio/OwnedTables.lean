import Mathlib.Data.List.Basic
import Mathlib.Data.List.Perm.Basic
import Mathlib.Data.List.Range

/-! Tables whose entries own resources that have to be released by hand: insertion-ordered maps, and
a ledger of what was created, what was released and what is still held. -/
namespace OwnedTables

section Tables
variable {κ α β : Type*} [DecidableEq κ]

/-- Insertion-ordered maps: a new key goes to the end, a known one keeps its place. -/
def put (k : κ) (a : α) : List (κ × α) → List (κ × α)
  | [] => [(k, a)]
  | e :: l => if e.1 = k then (k, a) :: l else e :: put k a l

theorem lookup_cons_self (k : κ) (a : α) (l : List (κ × α)) : ((k, a) :: l).lookup k = some a := by
  simp

theorem lookup_cons_of_ne {k k' : κ} (h : k' ≠ k) (a : α) (l : List (κ × α)) :
    ((k, a) :: l).lookup k' = l.lookup k' := by
  have hk : (k' == k) = false := by simpa using h
  rw [List.lookup_cons, hk]

theorem put_of_lookup_none {k : κ} {l : List (κ × α)} (h : l.lookup k = none) (a : α) :
    put k a l = l ++ [(k, a)] := by
  induction l with
  | nil => rfl
  | cons e l ih =>
    obtain ⟨k₀, a₀⟩ := e
    by_cases hk : k₀ = k
    · rw [hk, lookup_cons_self] at h
      cases h
    · rw [lookup_cons_of_ne (Ne.symm hk)] at h
      rw [put, if_neg hk, ih h]
      rfl

/-- What a known key had is given up for what it has now. -/
theorem values_put {k : κ} {b : α} {l : List (κ × α)} (h : l.lookup k = some b) (a : α) (f : α → β) :
    (f b :: (put k a l).map fun e => f e.2).Perm (f a :: l.map fun e => f e.2) := by
  induction l with
  | nil => cases h
  | cons e l ih =>
    obtain ⟨k₀, a₀⟩ := e
    by_cases hk : k₀ = k
    · rw [hk, lookup_cons_self] at h
      cases h
      rw [put, if_pos hk, List.map_cons, List.map_cons]
      exact List.Perm.swap _ _ _
    · rw [lookup_cons_of_ne (Ne.symm hk)] at h
      rw [put, if_neg hk, List.map_cons, List.map_cons]
      exact (List.Perm.swap _ _ _).trans (((ih h).cons _).trans (List.Perm.swap _ _ _))

theorem mem_keys_put {k k' : κ} {a : α} {l : List (κ × α)} :
    k' ∈ (put k a l).map Prod.fst ↔ k' = k ∨ k' ∈ l.map Prod.fst := by
  induction l with
  | nil => simp [put]
  | cons e l ih =>
    by_cases h : e.1 = k
    · simp [put, h]
    · simp only [put, if_neg h, List.map_cons, List.mem_cons, ih]
      tauto

theorem nodup_keys_put {k : κ} {a : α} {l : List (κ × α)} (h : (l.map Prod.fst).Nodup) :
    ((put k a l).map Prod.fst).Nodup := by
  induction l with
  | nil => simp [put]
  | cons e l ih =>
    rw [List.map_cons, List.nodup_cons] at h
    by_cases he : e.1 = k
    · simp only [put, if_pos he, List.map_cons, List.nodup_cons]
      exact ⟨he ▸ h.1, h.2⟩
    · simp only [put, if_neg he, List.map_cons, List.nodup_cons]
      refine ⟨fun hmem => ?_, ih h.2⟩
      exact (mem_keys_put.mp hmem).elim he h.1

end Tables

section Ledgers

/-- Of the resources numbered below `created`, each was released once, or is held in one place. -/
def Balanced (created : ℕ) (released held : List ℕ) : Prop :=
  (List.range created).Perm (released ++ held)

variable {created : ℕ} {released held held' : List ℕ} {b : ℕ}

theorem Balanced.of_perm (h : Balanced created released held) (hp : held'.Perm held) :
    Balanced created released held' :=
  h.trans (hp.symm.append_left released)

theorem Balanced.add (h : Balanced created released held) (hp : held'.Perm (created :: held)) :
    Balanced (created + 1) released held' := by
  unfold Balanced
  rw [List.range_succ]
  refine ((h.append_right [created]).trans ?_).trans (hp.symm.append_left released)
  rw [List.append_assoc]
  exact (List.perm_append_singleton created held).append_left released

theorem Balanced.replace (h : Balanced created released held)
    (hp : (b :: held').Perm (created :: held)) :
    Balanced (created + 1) (released ++ [b]) held' := by
  have hadd := h.add hp
  unfold Balanced at hadd ⊢
  rwa [List.append_assoc, List.singleton_append]

theorem Balanced.pass (h : Balanced created released held) :
    Balanced (created + 1) (released ++ [created]) held :=
  h.replace (List.Perm.refl _)

theorem Balanced.clear (h : Balanced created released held) :
    Balanced created (released ++ held) [] := by
  unfold Balanced at h ⊢
  rwa [List.append_nil]

theorem Balanced.nodup (h : Balanced created released held) : (released ++ held).Nodup :=
  h.nodup_iff.mp List.nodup_range

theorem Balanced.released_once (h : Balanced created released held) : released.Nodup :=
  (List.nodup_append.mp h.nodup).1

theorem Balanced.not_released (h : Balanced created released held) {n : ℕ} (hn : n ∈ held) :
    n ∉ released := by
  intro hr
  exact (List.nodup_append.mp h.nodup).2.2 n hr n hn rfl

theorem Balanced.accounted (h : Balanced created released held) {n : ℕ} :
    n < created ↔ n ∈ released ∨ n ∈ held := by
  rw [← List.mem_range, h.mem_iff, List.mem_append]

end Ledgers

end OwnedTables
