import Mathlib.Algebra.Group.Nat.Defs
import Mathlib.Data.Nat.Basic

/-! Numbers in groups of seven bits, the lowest first; the top bit of a byte tells that more follow.
A number has many encodings, since groups of zeros may stand at the end. -/
namespace Leb128

inductive Encodes : List UInt8 → ℕ → Prop where
  | last {byte : UInt8} (h : byte < 0x80) : Encodes [byte] byte.toNat
  | more {byte : UInt8} {bytes : List UInt8} {n : ℕ} (h : 0x80 ≤ byte) (rest : Encodes bytes n) :
    Encodes (byte :: bytes) (byte.toNat - 0x80 + 0x80 * n)

variable {byte : UInt8} {bytes : List UInt8} {n : ℕ}

theorem toNat_and_group (byte : UInt8) : (byte &&& 0x7F).toNat = byte.toNat % 128 := by
  rw [UInt8.toNat_and]
  exact Nat.and_two_pow_sub_one_eq_mod byte.toNat 7

theorem and_top_eq_zero_iff (byte : UInt8) : byte &&& 0x80 = 0 ↔ byte < 0x80 := by
  have hall : ∀ n : Fin 256, UInt8.ofNat n &&& 0x80 = 0 ↔ UInt8.ofNat n < 0x80 := by decide +kernel
  simpa using hall byte.toFin

/-- A further group lies above the bits that are there. -/
theorem toNat_or_group {value : UInt64} {shift : ℕ} (hshift : shift ≤ 56)
    (hvalue : value.toNat < 2 ^ shift) (byte : UInt8) :
    (value ||| ((byte &&& 0x7F).toUInt64 <<< UInt64.ofNat shift)).toNat =
      value.toNat + byte.toNat % 128 * 2 ^ shift := by
  have hgroup : byte.toNat % 128 < 128 := Nat.mod_lt _ (by decide)
  have hpow : 2 ^ shift ≤ 2 ^ 56 := Nat.pow_le_pow_right (by decide) hshift
  have hsmall : byte.toNat % 128 * 2 ^ shift < 2 ^ 64 := by
    calc byte.toNat % 128 * 2 ^ shift
      _ ≤ byte.toNat % 128 * 2 ^ 56 := Nat.mul_le_mul_left _ hpow
      _ < 2 ^ 64 := by omega
  have hmod : shift % 2 ^ 64 % 64 = shift := by omega
  rw [UInt64.toNat_or, UInt64.toNat_shiftLeft, UInt8.toNat_toUInt64, toNat_and_group,
    UInt64.toNat_ofNat', hmod, Nat.shiftLeft_eq, Nat.mod_eq_of_lt hsmall, Nat.or_comm,
    ← Nat.shiftLeft_eq, ← Nat.shiftLeft_add_eq_or_of_lt hvalue, Nat.add_comm, Nat.shiftLeft_eq]

end Leb128
