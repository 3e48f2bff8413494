import Mathlib.Algebra.Group.Nat.Defs
import Mathlib.Data.List.Basic

/-! Numbers as bytes, the lowest first, and how they are read back out of a message. -/
namespace LittleEndian

def toBytes : ℕ → ℕ → List UInt8
  | 0, _ => []
  | size + 1, n => UInt8.ofNat n :: toBytes size (n / 256)

def ofBytes : List UInt8 → ℕ
  | [] => 0
  | byte :: bytes => byte.toNat + 256 * ofBytes bytes

/-- A part of a message; one that reaches beyond it throws. -/
def viewAt (data : List UInt8) (offset size : ℕ) : Except String (List UInt8) :=
  if offset + size ≤ data.length then .ok ((data.drop offset).take size)
  else .error "RangeError"

def readAt (data : List UInt8) (offset size : ℕ) : Except String ℕ :=
  ofBytes <$> viewAt data offset size

@[simp] theorem length_toBytes (size n : ℕ) : (toBytes size n).length = size := by
  induction size generalizing n with
  | zero => rfl
  | succ size ih => rw [toBytes, List.length_cons, ih]

/-- The bytes of a number, place by place. -/
theorem map_range_eq_toBytes {f : ℕ → UInt8} {size n : ℕ}
    (h : ∀ i < size, (f i).toNat = n / 256 ^ i % 256) : (List.range size).map f = toBytes size n := by
  induction size generalizing f n with
  | zero => rfl
  | succ size ih =>
    have hfirst : f 0 = UInt8.ofNat n := by
      rw [← UInt8.toNat_inj, h 0 (Nat.zero_lt_succ size), pow_zero, Nat.div_one]
      exact UInt8.toNat_ofNat'.symm
    have hrest : ∀ i < size, (f (i + 1)).toNat = n / 256 / 256 ^ i % 256 := by
      intro i hi
      rw [h (i + 1) (Nat.succ_lt_succ hi), Nat.div_div_eq_div_mul, pow_succ']
    rw [List.range_succ_eq_map, List.map_cons, List.map_map, toBytes, hfirst]
    exact congrArg _ (ih hrest)

theorem ofBytes_toBytes (size n : ℕ) : ofBytes (toBytes size n) = n % 256 ^ size := by
  induction size generalizing n with
  | zero => rw [pow_zero, Nat.mod_one, toBytes, ofBytes]
  | succ size ih =>
    have hbyte : (UInt8.ofNat n).toNat = n % 256 := UInt8.toNat_ofNat'
    rw [toBytes, ofBytes, ih, hbyte, pow_succ', Nat.mod_mul]

structure GoesOn (data : List UInt8) (offset : ℕ) (rest : List UInt8) : Prop where
  within : offset ≤ data.length
  drop : data.drop offset = rest

theorem GoesOn.length {data rest : List UInt8} {offset : ℕ} (h : GoesOn data offset rest) :
    data.length = offset + rest.length := by
  have hlen := congrArg List.length h.drop
  rw [List.length_drop] at hlen
  have := h.within
  omega

theorem GoesOn.view {data field rest : List UInt8} {offset : ℕ}
    (h : GoesOn data offset (field ++ rest)) :
    viewAt data offset field.length = .ok field ∧ GoesOn data (offset + field.length) rest := by
  have hlen := h.length
  rw [List.length_append] at hlen
  have htake : (data.drop offset).take field.length = field := by
    rw [h.drop, List.take_append_of_le_length (Nat.le_refl _), List.take_length]
  refine ⟨?_, by omega, ?_⟩
  · rw [viewAt, if_pos (by omega), htake]
  · rw [← List.drop_drop, h.drop, List.drop_left]

theorem GoesOn.read {data rest : List UInt8} {offset size n : ℕ}
    (h : GoesOn data offset (toBytes size n ++ rest)) (hn : n < 256 ^ size) :
    readAt data offset size = .ok n ∧ GoesOn data (offset + size) rest := by
  obtain ⟨hview, hrest⟩ := h.view
  rw [length_toBytes] at hview hrest
  refine ⟨?_, hrest⟩
  rw [readAt, hview]
  exact congrArg Except.ok ((ofBytes_toBytes size n).trans (Nat.mod_eq_of_lt hn))

theorem exists_readAt {data : List UInt8} {offset size : ℕ} (h : offset + size ≤ data.length) :
    ∃ n, readAt data offset size = .ok n := by
  rw [readAt, viewAt, if_pos h]
  exact ⟨_, rfl⟩

/-- What is read from the front of a message is read from every part that holds it. -/
theorem viewAt_take {data : List UInt8} {offset size len : ℕ} (hlen : len ≤ data.length)
    (h : offset + size ≤ len) : viewAt (data.take len) offset size = viewAt data offset size := by
  have hfront : ((data.take len).drop offset).take size = (data.drop offset).take size := by
    rw [List.drop_take, List.take_take, Nat.min_eq_left (by omega)]
  rw [viewAt, viewAt, List.length_take_of_le hlen, if_pos h, if_pos (Nat.le_trans h hlen), hfront]

theorem readAt_take {data : List UInt8} {offset size len : ℕ} (hlen : len ≤ data.length)
    (h : offset + size ≤ len) : readAt (data.take len) offset size = readAt data offset size := by
  rw [readAt, readAt, viewAt_take hlen h]

end LittleEndian
