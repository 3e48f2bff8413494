import Mathlib.Data.Finset.Basic

/-! Runs of a step function that may refuse a step: a fold that can fail, and a path whose
steps are enabled and satisfy a side condition. Each gets its induction rule once. -/
namespace PartialRuns

variable {σ α ε : Type*}

section Folds

theorem foldlM_cons_ok {f : σ → α → Except ε σ} {a : α} {l : List α} {s t : σ}
    (h : f s a = .ok t) : (a :: l).foldlM f s = l.foldlM f t := by
  rw [List.foldlM_cons, h]
  rfl

theorem foldlM_append_ok {f : σ → α → Except ε σ} {l m : List α} {s t : σ}
    (h : l.foldlM f s = .ok t) : (l ++ m).foldlM f s = m.foldlM f t := by
  rw [List.foldlM_append, h]
  rfl

theorem foldlM_fixed {f : σ → α → Except ε σ} {l : List α} {s : σ} (h : ∀ a ∈ l, f s a = .ok s) :
    l.foldlM f s = .ok s := by
  induction l with
  | nil => rfl
  | cons a l ih =>
    rw [foldlM_cons_ok (h a List.mem_cons_self)]
    exact ih fun b hb => h b (List.mem_cons_of_mem a hb)

theorem foldlM_preserves {P : σ → Prop} {f : σ → α → Except ε σ} {l : List α} {s t : σ}
    (step : ∀ a ∈ l, ∀ s t, P s → f s a = .ok t → P t) (hs : P s)
    (h : l.foldlM f s = .ok t) : P t := by
  induction l generalizing s with
  | nil => cases h; exact hs
  | cons a l ih =>
    rw [List.foldlM_cons] at h
    cases ha : f s a with
    | error e => rw [ha] at h; cases h
    | ok u =>
      rw [ha] at h
      exact ih (fun b hb => step b (by simp [hb])) (step a (by simp) s u hs ha) h

theorem foldlM_total {P : σ → Prop} {f : σ → α → Except ε σ} {l : List α} {s : σ}
    (step : ∀ a ∈ l, ∀ s, P s → ∃ t, f s a = .ok t ∧ P t) (hs : P s) :
    ∃ t, l.foldlM f s = .ok t ∧ P t := by
  induction l generalizing s with
  | nil => exact ⟨s, rfl, hs⟩
  | cons a l ih =>
    obtain ⟨u, ha, hu⟩ := step a (by simp) s hs
    obtain ⟨t, ht, hP⟩ := ih (fun b hb => step b (by simp [hb])) hu
    exact ⟨t, by rw [List.foldlM_cons, ha]; exact ht, hP⟩

theorem foldl_preserves {P : σ → Prop} {f : σ → α → σ} {l : List α} {s : σ}
    (step : ∀ a ∈ l, ∀ s, P s → P (f s a)) (hs : P s) : P (l.foldl f s) := by
  induction l generalizing s with
  | nil => exact hs
  | cons a l ih => exact ih (fun b hb => step b (by simp [hb])) (step a (by simp) s hs)

end Folds

section Paths
variable {enabled : σ → α → Prop} {next : σ → α → σ} {ok : σ → α → Prop}

/-- Enabled steps that all satisfy `ok`. -/
inductive Path (enabled : σ → α → Prop) (next : σ → α → σ) (ok : σ → α → Prop) (s : σ) :
    σ → Prop where
  | refl : Path enabled next ok s s
  | tail {u : σ} {a : α} (h : Path enabled next ok s u) (ha : enabled u a) (hok : ok u a) :
    Path enabled next ok s (next u a)

/-- An invariant is carried back along a path as long as `bound` holds at its end. -/
theorem Path.invariant_of_bound {bound P : σ → Prop} {s t : σ}
    (antitone : ∀ u a, enabled u a → bound (next u a) → bound u) (start : P s)
    (step : ∀ u a, enabled u a → ok u a → bound (next u a) → P u → P (next u a))
    (h : Path enabled next ok s t) (hb : bound t) : P t := by
  induction h with
  | refl => exact start
  | tail _ ha hok ih => exact step _ _ ha hok hb (ih (antitone _ _ ha hb))

theorem Path.invariant {P : σ → Prop} {s t : σ} (start : P s)
    (step : ∀ u a, enabled u a → ok u a → P u → P (next u a))
    (h : Path enabled next ok s t) : P t := by
  induction h with
  | refl => exact start
  | tail _ ha hok ih => exact step _ _ ha hok ih

/-- The listed steps can be taken one after the other. -/
def Follows (enabled : σ → α → Prop) (next : σ → α → σ) (ok : σ → α → Prop) :
    σ → List α → Prop
  | _, [] => True
  | s, a :: as => enabled s a ∧ ok s a ∧ Follows enabled next ok (next s a) as

instance decidableFollows [∀ s a, Decidable (enabled s a)] [∀ s a, Decidable (ok s a)] :
    (s : σ) → (l : List α) → Decidable (Follows enabled next ok s l)
  | _, [] => isTrue trivial
  | s, a :: as =>
    have : Decidable (Follows enabled next ok (next s a) as) := decidableFollows (next s a) as
    inferInstanceAs (Decidable (enabled s a ∧ ok s a ∧ Follows enabled next ok (next s a) as))

theorem Path.trans {s t u : σ} (h : Path enabled next ok s t) (k : Path enabled next ok t u) :
    Path enabled next ok s u := by
  induction k with
  | refl => exact h
  | tail _ ha hok ih => exact .tail ih ha hok

theorem path_of_follows {s : σ} {l : List α} (h : Follows enabled next ok s l) :
    Path enabled next ok s (l.foldl next s) := by
  induction l generalizing s with
  | nil => exact .refl
  | cons a l ih =>
    obtain ⟨ha, hok, hrest⟩ := h
    exact (Path.tail .refl ha hok).trans (ih hrest)

theorem follows_append {s : σ} {l m : List α} : Follows enabled next ok s (l ++ m) ↔
    Follows enabled next ok s l ∧ Follows enabled next ok (l.foldl next s) m := by
  induction l generalizing s with
  | nil => simp [Follows]
  | cons a l ih => simp [Follows, ih, and_assoc]

end Paths

end PartialRuns
