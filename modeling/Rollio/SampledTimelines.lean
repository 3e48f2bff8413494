import Mathlib.Data.List.Pairwise
import Mathlib.Data.Rat.Floor
import Mathlib.Tactic.Linarith

/-! Samples at the points of a regular grid: when the points are once they are rounded, how many of
them a duration has room for, and which sample each of them shows. -/
namespace SampledTimelines

section Grid
variable {K : Type} [Field K] [LinearOrder K] [IsStrictOrderedRing K] [FloorSemiring K]

/-- To the nearest number, upwards from the middle. -/
def nearest (x : K) : ℕ := ⌊x + 1 / (2 : ℕ)⌋₊

omit [IsStrictOrderedRing K] in
theorem nearest_eq (x : K) : nearest x = ⌊x + 1 / 2⌋₊ := by
  rw [nearest, Nat.cast_ofNat]

theorem nearest_zero : nearest (0 : K) = 0 := by
  rw [nearest_eq, zero_add, Nat.floor_eq_zero]
  exact one_half_lt_one

theorem nearest_lt_nearest {x y : K} (hx : 0 ≤ x) (h : x + 1 ≤ y) : nearest x < nearest y := by
  have hmiddle : 0 ≤ x + 1 / 2 := by linarith
  have hnext : x + 1 / 2 + 1 ≤ y + 1 / 2 := by linarith
  have hfloor := Nat.floor_le_floor hnext
  rw [Nat.floor_add_one hmiddle, ← nearest_eq, ← nearest_eq] at hfloor
  exact Nat.lt_of_succ_le hfloor

theorem grid_strictMono {step : K} (hstep : 1 ≤ step) :
    StrictMono fun i : ℕ => nearest ((i : K) * step) := by
  apply strictMono_nat_of_lt_succ
  intro i
  apply nearest_lt_nearest
  · exact mul_nonneg (Nat.cast_nonneg i) (by linarith)
  · rw [Nat.cast_succ, add_mul, one_mul]
    linarith

theorem grid_le {step : K} (hstep : 1 ≤ step) {duration i : ℕ}
    (hi : i < nearest ((duration : K) / step)) : nearest ((i : K) * step) ≤ duration := by
  have hpos : 0 < step := by linarith
  have hcount : ((i + 1 : ℕ) : K) ≤ (duration : K) / step + 1 / 2 :=
    (Nat.le_floor_iff (by positivity)).mp (by rwa [← nearest_eq])
  rw [Nat.cast_succ] at hcount
  have hsteps : ((i : K) + 1 / 2) * step ≤ duration := by
    rw [← le_div_iff₀ hpos]
    linarith
  rw [nearest_eq]
  apply Nat.floor_le_of_le
  linarith

end Grid

section Holding
variable {σ τ : Type} [LinearOrder τ]

/-- What is shown at a time: of samples in order of time the latest one that is not later, or else
the earliest one. -/
inductive Held (time : σ → τ) (t : τ) : List σ → Option σ → Prop
  | nothing : Held time t [] none
  | latest {before after : List σ} {s : σ} (notLater : time s ≤ t)
      (later : ∀ r ∈ after, t < time r) : Held time t (before ++ s :: after) (some s)
  | earliest {s : σ} {rest : List σ} (later : ∀ r ∈ s :: rest, t < time r) :
      Held time t (s :: rest) (some s)

/-- The samples are looked through up to the first one that is later. -/
def scan (time : σ → τ) (t : τ) : σ → List σ → σ
  | selected, [] => selected
  | selected, s :: rest => if time s ≤ t then scan time t s rest else selected

variable {time : σ → τ} {t : τ}

/-- The scan stops at the sample it started from or at one of the others, and all that are behind
are later. -/
theorem scan_cases {samples : List σ} (hsorted : samples.Pairwise fun a b => time a ≤ time b)
    (selected : σ) :
    (scan time t selected samples = selected ∧ ∀ r ∈ samples, t < time r) ∨
      ∃ before after, samples = before ++ scan time t selected samples :: after ∧
        time (scan time t selected samples) ≤ t ∧ ∀ r ∈ after, t < time r := by
  induction samples generalizing selected with
  | nil => exact Or.inl ⟨rfl, fun r hr => absurd hr List.not_mem_nil⟩
  | cons s rest ih =>
    obtain ⟨hs, hrest⟩ := List.pairwise_cons.mp hsorted
    by_cases hle : time s ≤ t
    · simp only [scan, if_pos hle]
      rcases ih hrest s with ⟨hstop, hlater⟩ | ⟨before, after, hsplit, htime, hlater⟩
      · rw [hstop]
        exact Or.inr ⟨[], rest, rfl, hle, hlater⟩
      · exact Or.inr ⟨s :: before, after, congrArg (List.cons s) hsplit, htime, hlater⟩
    · simp only [scan, if_neg hle]
      have hlt := lt_of_not_ge hle
      refine Or.inl ⟨trivial, List.forall_mem_cons.mpr ⟨hlt, fun r hr => ?_⟩⟩
      exact lt_of_lt_of_le hlt (hs r hr)

theorem held_scan {s : σ} {rest : List σ}
    (hsorted : (s :: rest).Pairwise fun a b => time a ≤ time b) :
    Held time t (s :: rest) (some (scan time t s (s :: rest))) := by
  rcases scan_cases (t := t) hsorted s with ⟨hstop, hlater⟩ | ⟨before, after, hsplit, htime, hlater⟩
  · rw [hstop]
    exact .earliest hlater
  · have hlatest : Held time t (before ++ scan time t s (s :: rest) :: after) _ :=
      .latest htime hlater
    rwa [← hsplit] at hlatest

end Holding

end SampledTimelines
