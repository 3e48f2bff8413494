import Mathlib.Order.Basic
import Mathlib.Logic.Basic

/-! Runs of a step relation that come to an end whichever step is taken: a measure bounds their
length, and what holds where no step is left is what every run leads to. -/
namespace TerminatingRuns

variable {σ : Type*}

inductive Steps (step : σ → σ → Prop) (s : σ) : ℕ → σ → Prop where
  | refl : Steps step s 0 s
  | tail {n : ℕ} {t u : σ} (h : Steps step s n t) (hstep : step t u) : Steps step s (n + 1) u

/-- Every run from a state ends, and where it ends `Q` holds. -/
structure Leads (step : σ → σ → Prop) (s : σ) (Q : σ → Prop) : Prop where
  ends : ∃ bound, ∀ n t, Steps step s n t → n ≤ bound
  outcome : ∀ n t, Steps step s n t → (∀ u, ¬step t u) → Q t

variable {step : σ → σ → Prop} {P Q : σ → Prop} {s t : σ} {n : ℕ}

theorem Steps.preserves (hstep : ∀ t u, P t → step t u → P u) (hs : P s)
    (h : Steps step s n t) : P t := by
  induction h with
  | refl => exact hs
  | tail _ hlast ih => exact hstep _ _ ih hlast

theorem Steps.trans {m : ℕ} {u : σ} (h : Steps step s n t) (k : Steps step t m u) :
    Steps step s (n + m) u := by
  induction k with
  | refl => exact h
  | tail _ hlast ih => exact ih.tail hlast

/-- Steps that lower a measure are as many as the measure allows. -/
theorem Steps.bounded {μ : σ → ℕ} (hstep : ∀ t u, P t → step t u → P u)
    (hlower : ∀ t u, P t → step t u → μ u < μ t) (hs : P s) (h : Steps step s n t) :
    n + μ t ≤ μ s := by
  induction h with
  | refl => exact Nat.le_of_eq (Nat.zero_add _)
  | tail hrun hlast ih =>
    have hdown := hlower _ _ (hrun.preserves hstep hs) hlast
    omega

theorem Leads.of_measure {μ : σ → ℕ} (hstep : ∀ t u, P t → step t u → P u)
    (hlower : ∀ t u, P t → step t u → μ u < μ t) (hs : P s)
    (hend : ∀ t, P t → (∀ u, ¬step t u) → Q t) : Leads step s Q := by
  refine ⟨⟨μ s, fun n t h => ?_⟩, fun n t h => hend t (h.preserves hstep hs)⟩
  have hbound := h.bounded hstep hlower hs
  omega

/-- Runs that all end have one that has ended. -/
theorem Leads.exists_end (h : Leads step s Q) :
    ∃ n t, Steps step s n t ∧ ∀ u, ¬step t u := by
  by_contra hnone
  have hlong (n : ℕ) : ∃ t, Steps step s n t := by
    induction n with
    | zero => exact ⟨s, .refl⟩
    | succ n ih =>
      obtain ⟨t, ht⟩ := ih
      by_contra hstuck
      exact hnone ⟨n, t, ht, fun u hu => hstuck ⟨u, ht.tail hu⟩⟩
  obtain ⟨bound, hbound⟩ := h.ends
  obtain ⟨t, ht⟩ := hlong (bound + 1)
  exact Nat.not_succ_le_self bound (hbound _ t ht)

/-- Runs lead to one end. -/
theorem Leads.exists_both {Q' : σ → Prop} (h : Leads step s Q) (h' : Leads step s Q') :
    ∃ t, Q t ∧ Q' t := by
  obtain ⟨n, t, ht, hend⟩ := h.exists_end
  exact ⟨t, h.outcome n t ht hend, h'.outcome n t ht hend⟩

end TerminatingRuns
