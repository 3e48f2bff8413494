import Mathlib.Algebra.Group.Nat.Defs
import Mathlib.Data.Finset.Basic

/-! Clock readings and the saturating arithmetic the sources use on fixed-width counters. -/
namespace Clocks

/-- Monotonic clock readings and durations, in nanoseconds. -/
abbrev Instant := ℕ
abbrev Duration := ℕ

def u64Max : ℕ := 2 ^ 64 - 1

/-- `u64::saturating_mul` with the result read as a number. -/
def saturatingMul (a : UInt64) (b : ℕ) : ℕ := min (a.toNat * b) u64Max

/-- `as_millis() as u64`: the cast drops the high bits. -/
def asMillis (d : Duration) : UInt64 := UInt64.ofNat (d / 1000000)

def u32Max : UInt32 := 4294967295

def saturatingSucc (a : UInt32) : UInt32 := if a = u32Max then u32Max else a + 1

theorem toNat_saturatingSucc (a : UInt32) :
    (saturatingSucc a).toNat = min (a.toNat + 1) u32Max.toNat := by
  have hlt := a.toNat_lt
  unfold saturatingSucc
  split
  · next h => simp [h, u32Max]
  · next h =>
    have hne : a.toNat ≠ u32Max.toNat := fun he => h (UInt32.toNat_inj.mp he)
    simp only [u32Max, UInt32.reduceToNat, UInt32.toNat_add, UInt32.reduceToNat] at hne ⊢
    omega

theorem toNat_saturatingSucc_of_lt {a : UInt32} (h : saturatingSucc a < u32Max) :
    (saturatingSucc a).toNat = a.toNat + 1 := by
  have hs := toNat_saturatingSucc a
  rw [UInt32.lt_iff_toNat_lt] at h
  omega

theorem le_saturatingSucc (a : UInt32) : a ≤ saturatingSucc a := by
  have hlt := a.toNat_lt
  rw [UInt32.le_iff_toNat_le, toNat_saturatingSucc]
  simp [u32Max]
  omega

end Clocks
