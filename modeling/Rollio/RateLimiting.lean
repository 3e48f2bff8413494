import Mathlib.Algebra.Order.Group.Abs
import Mathlib.Tactic.Abel

/-! Steps of bounded size toward a target, for one value and position by position along
two lists. -/
namespace RateLimiting

variable {α : Type*} [AddCommGroup α] [LinearOrder α]

def clamp (lo hi x : α) : α := if x < lo then lo else if hi < x then hi else x

def toward (step anchor target : α) : α := anchor + clamp (-step) step (target - anchor)

/-- What has no anchor stays as it is. -/
def limited (step : α) : List α → List α → List α
  | target :: targets, anchor :: anchors =>
    toward step anchor target :: limited step targets anchors
  | targets, _ => targets

/-- The largest distance between the values at one position; `0` where there are none. -/
def maxGap : List α → List α → α
  | target :: targets, anchor :: anchors => max |target - anchor| (maxGap targets anchors)
  | _, _ => 0

/-- Every value has an anchor at its position and is at most `bound` away from it. -/
def Within (bound : α) (values anchors : List α) : Prop :=
  ∀ (i : ℕ) (value : α), values[i]? = some value →
    ∃ anchor, anchors[i]? = some anchor ∧ |value - anchor| ≤ bound

theorem Within.nil {bound : α} {anchors : List α} : Within bound [] anchors := by
  intro i value hi
  cases hi

theorem within_cons {bound value anchor : α} {values anchors : List α} :
    Within bound (value :: values) (anchor :: anchors) ↔
      |value - anchor| ≤ bound ∧ Within bound values anchors := by
  constructor
  · intro h
    constructor
    · obtain ⟨a, ha, hle⟩ := h 0 value rfl
      cases ha
      exact hle
    · intro i v hv
      exact h (i + 1) v hv
  · intro h i v hv
    cases i with
    | zero =>
      cases hv
      exact ⟨anchor, rfl, h.1⟩
    | succ i => exact h.2 i v hv

theorem Within.length_le {bound : α} {values anchors : List α}
    (h : Within bound values anchors) : values.length ≤ anchors.length := by
  by_contra hlt
  have hlt := not_le.mp hlt
  obtain ⟨a, ha, -⟩ := h anchors.length _ (List.getElem?_eq_getElem hlt)
  rw [List.getElem?_eq_none (Nat.le_refl _)] at ha
  cases ha

theorem Within.mono {b c : α} {values anchors : List α} (h : Within b values anchors)
    (hle : b ≤ c) : Within c values anchors := by
  intro i value hv
  obtain ⟨anchor, ha, hd⟩ := h i value hv
  exact ⟨anchor, ha, hd.trans hle⟩

@[simp] theorem length_limited (step : α) (targets anchors : List α) :
    (limited step targets anchors).length = targets.length := by
  induction targets, anchors using limited.induct with
  | case1 target targets anchor anchors ih => simp [limited, ih]
  | case2 targets anchors h => rw [limited]; exact h

theorem maxGap_nonneg (targets anchors : List α) : 0 ≤ maxGap targets anchors := by
  induction targets, anchors using maxGap.induct with
  | case1 target targets anchor anchors ih => exact le_max_of_le_right ih
  | case2 targets anchors h => rw [maxGap]; exact h

/-- The largest gap bounds every value's distance exactly when every value has an anchor. -/
theorem within_iff_maxGap {bound : α} {targets anchors : List α} (h : 0 ≤ bound)
    (hl : targets.length ≤ anchors.length) :
    Within bound targets anchors ↔ maxGap targets anchors ≤ bound := by
  induction targets, anchors using maxGap.induct with
  | case1 target targets anchor anchors ih =>
    rw [within_cons, maxGap, max_le_iff, ih (Nat.le_of_succ_le_succ hl)]
  | case2 targets anchors hne =>
    cases targets with
    | nil => exact ⟨fun _ => h, fun _ => Within.nil⟩
    | cons target targets =>
      cases anchors with
      | nil => cases hl
      | cons anchor anchors => exact absurd rfl (hne _ _ _ _ rfl)

section Ordered
variable [IsOrderedAddMonoid α] {step bound x anchor target : α} {targets anchors : List α}

theorem abs_clamp_le (h : 0 ≤ step) : |clamp (-step) step x| ≤ step := by
  have hs : -step ≤ step := (neg_nonpos.mpr h).trans h
  unfold clamp
  split
  · exact abs_le.mpr ⟨le_rfl, hs⟩
  · next hlo =>
    split
    · exact abs_le.mpr ⟨hs, le_rfl⟩
    · next hhi => exact abs_le.mpr ⟨not_lt.mp hlo, not_lt.mp hhi⟩

theorem abs_clamp_le_abs (h : 0 ≤ step) : |clamp (-step) step x| ≤ |x| := by
  unfold clamp
  split
  · next hlo =>
    rw [abs_neg, abs_of_nonneg h]
    exact (lt_neg.mp hlo).le.trans (neg_le_abs x)
  · split
    · next hhi =>
      rw [abs_of_nonneg h]
      exact hhi.le.trans (le_abs_self x)
    · exact le_rfl

theorem abs_toward_sub_le (h : 0 ≤ step) : |toward step anchor target - anchor| ≤ step := by
  rw [toward, add_sub_cancel_left]
  exact abs_clamp_le h

/-- A limited step never leads further from the anchor than the target is. -/
theorem abs_toward_sub_le_gap (h : 0 ≤ step) :
    |toward step anchor target - anchor| ≤ |target - anchor| := by
  rw [toward, add_sub_cancel_left]
  exact abs_clamp_le_abs h

/-- A limited value, and what it leaves: exactly the step, or all of a smaller value. -/
theorem abs_clamp (h : 0 ≤ step) :
    |clamp (-step) step x| = min |x| step ∧
      |x - clamp (-step) step x| = |x| - min |x| step := by
  simp only [clamp]
  by_cases hlo : x < -step
  · have hx : x ≤ 0 := hlo.le.trans (neg_nonpos.mpr h)
    have hle : step ≤ |x| := by
      rw [abs_of_nonpos hx]
      exact (lt_neg.mp hlo).le
    have hrest : x - -step ≤ 0 := sub_nonpos.mpr hlo.le
    rw [if_pos hlo, min_eq_right hle, abs_neg, abs_of_nonneg h, abs_of_nonpos hrest,
      abs_of_nonpos hx]
    exact ⟨rfl, by abel⟩
  · rw [if_neg hlo]
    by_cases hhi : step < x
    · have hx : 0 ≤ x := h.trans hhi.le
      have hle : step ≤ |x| := by
        rw [abs_of_nonneg hx]
        exact hhi.le
      rw [if_pos hhi, min_eq_right hle, abs_of_nonneg h, abs_of_nonneg (sub_nonneg.mpr hhi.le),
        abs_of_nonneg hx]
      exact ⟨rfl, rfl⟩
    · have hle : |x| ≤ step := abs_le.mpr ⟨not_lt.mp hlo, not_lt.mp hhi⟩
      rw [if_neg hhi, min_eq_left hle, sub_self, sub_self, abs_zero]
      exact ⟨rfl, rfl⟩

theorem abs_toward_sub (h : 0 ≤ step) :
    |toward step anchor target - anchor| = min |target - anchor| step := by
  rw [toward, add_sub_cancel_left]
  exact (abs_clamp h).1

/-- All of the step is spent on the distance to the target. -/
theorem abs_sub_toward (h : 0 ≤ step) :
    |target - toward step anchor target| = |target - anchor| - min |target - anchor| step := by
  rw [toward, ← sub_sub]
  exact (abs_clamp h).2

/-- Limiting keeps every value within the step exactly when every value has an anchor. -/
theorem within_limited_iff (h : 0 ≤ step) :
    Within step (limited step targets anchors) anchors ↔ targets.length ≤ anchors.length := by
  constructor
  · intro hw
    rw [← length_limited step targets anchors]
    exact hw.length_le
  · induction targets, anchors using limited.induct with
    | case1 target targets anchor anchors ih =>
      intro hl
      rw [limited, within_cons]
      exact ⟨abs_toward_sub_le h, ih (Nat.le_of_succ_le_succ hl)⟩
    | case2 targets anchors hne =>
      intro hl
      cases targets with
      | nil => exact Within.nil
      | cons target targets =>
        cases anchors with
        | nil => cases hl
        | cons anchor anchors => exact absurd rfl (hne _ _ _ _ rfl)

theorem Within.limited (hs : 0 ≤ step) (h : Within bound targets anchors) :
    Within bound (limited step targets anchors) anchors := by
  induction targets, anchors using limited.induct with
  | case1 target targets anchor anchors ih =>
    obtain ⟨hd, hw⟩ := within_cons.mp h
    rw [RateLimiting.limited, within_cons]
    exact ⟨(abs_toward_sub_le_gap hs).trans hd, ih hw⟩
  | case2 targets anchors hne => rw [RateLimiting.limited] <;> assumption

end Ordered

end RateLimiting
