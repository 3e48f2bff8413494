import Mathlib.Data.List.TakeDrop

/-! Rows of equal length in one buffer, each at its multiple of a stride, with whatever lies between
them: writing the rows one after the other, and reading them back. -/
namespace StridedRows
variable {α : Type}

def slice (src : List α) (offset len : ℕ) : Option (List α) :=
  if offset + len ≤ src.length then some ((src.drop offset).take len) else none

def overwrite (dst : List α) (offset : ℕ) (items : List α) : Option (List α) :=
  if offset + items.length ≤ dst.length then
    some (dst.take offset ++ items ++ dst.drop (offset + items.length))
  else none

def writeRows (rowAt : ℕ → Option (List α)) (stride : ℕ) : ℕ → List α → Option (List α)
  | 0, dst => some dst
  | rows + 1, dst => do
    let written ← writeRows rowAt stride rows dst
    let row ← rowAt rows
    overwrite written (rows * stride) row

def rowOf (cell : ℕ → Option α) : ℕ → Option (List α)
  | 0 => some []
  | len + 1 => do
    let row ← rowOf cell len
    let item ← cell len
    return row ++ [item]

section Parts
variable {src dst items part : List α} {offset len i : ℕ}

theorem slice_of_le (h : offset + len ≤ src.length) :
    slice src offset len = some ((src.drop offset).take len) := if_pos h

theorem slice_length (h : slice src offset len = some part) : part.length = len := by
  simp only [slice] at h
  split at h
  · next hle =>
    cases h
    simp only [List.length_take, List.length_drop]
    omega
  · cases h

theorem slice_getElem? (h : slice src offset len = some part) (hi : i < len) :
    part[i]? = src[offset + i]? := by
  simp only [slice] at h
  split at h
  · cases h
    rw [List.getElem?_take_of_lt hi, List.getElem?_drop]
  · cases h

theorem overwrite_of_le (dst : List α) (offset : ℕ) (items : List α)
    (h : offset + items.length ≤ dst.length) :
    ∃ written, overwrite dst offset items = some written ∧ written.length = dst.length ∧
      ∀ i, written[i]? =
        if offset ≤ i ∧ i < offset + items.length then items[i - offset]? else dst[i]? := by
  refine ⟨_, if_pos h, ?_, fun i => ?_⟩
  · simp only [List.length_append, List.length_take, List.length_drop]
    omega
  · have htake : (dst.take offset).length = offset := by
      rw [List.length_take]
      omega
    rcases Nat.lt_or_ge i offset with hbefore | hfrom
    · rw [List.append_assoc, List.getElem?_append_left (by omega),
        List.getElem?_take_of_lt hbefore, if_neg (by omega)]
    · rw [List.append_assoc, List.getElem?_append_right (by omega), htake]
      rcases Nat.lt_or_ge i (offset + items.length) with hwithin | hafter
      · rw [List.getElem?_append_left (by omega), if_pos ⟨hfrom, hwithin⟩]
      · rw [List.getElem?_append_right (by omega), List.getElem?_drop, if_neg (by omega)]
        congr 1
        omega

theorem rowOf_cells {cell : ℕ → Option α} (h : ∀ c < len, (cell c).isSome) :
    ∃ row, rowOf cell len = some row ∧ row.length = len ∧ ∀ c < len, row[c]? = cell c := by
  induction len with
  | zero => exact ⟨[], rfl, rfl, fun c hc => absurd hc (Nat.not_lt_zero c)⟩
  | succ len ih =>
    obtain ⟨row, hrow, hlen, hget⟩ := ih fun c hc => h c (by omega)
    obtain ⟨item, hitem⟩ := Option.isSome_iff_exists.mp (h len (by omega))
    refine ⟨row ++ [item], ?_, ?_, fun c hc => ?_⟩
    · simp only [rowOf, hrow, hitem, Option.bind_eq_bind, Option.bind_some, Option.pure_def]
    · rw [List.length_append, hlen, List.length_singleton]
    · rcases Nat.lt_succ_iff_lt_or_eq.mp hc with hc | rfl
      · rw [List.getElem?_append_left (by omega)]
        exact hget c hc
      · rw [List.getElem?_append_right (by omega), hlen, hitem, Nat.sub_self]
        rfl

end Parts

section Written

/-- What the rows leave in a buffer: each is at its place, and what lies between them is as before. -/
structure RowsWritten (rowAt : ℕ → Option (List α)) (rowLen stride rows : ℕ)
    (dst written : List α) : Prop where
  length : written.length = dst.length
  shown : ∀ r < rows, ∀ row, rowAt r = some row → ∀ c < rowLen,
    written[r * stride + c]? = row[c]?
  kept : ∀ i, (∀ r < rows, ∀ c < rowLen, i ≠ r * stride + c) → written[i]? = dst[i]?

variable {rowAt : ℕ → Option (List α)} {rowLen stride rows : ℕ} {dst written : List α}

/-- One more row takes nothing from the rows before it, which end before it begins. -/
theorem RowsWritten.overwrite (h : RowsWritten rowAt rowLen stride rows dst written)
    (hstride : rowLen ≤ stride) {row : List α} (hrow : rowAt rows = some row)
    (hlen : row.length = rowLen) (hfit : rows * stride + rowLen ≤ dst.length) :
    ∃ next, StridedRows.overwrite written (rows * stride) row = some next ∧
      RowsWritten rowAt rowLen stride (rows + 1) dst next := by
  obtain ⟨next, hnext, hlength, hget⟩ :=
    overwrite_of_le written (rows * stride) row (by rw [hlen, h.length]; exact hfit)
  refine ⟨next, hnext, ?_, ?_, ?_⟩
  · exact hlength.trans h.length
  · intro r hr row' hrow' c hc
    rw [hget, hlen]
    rcases Nat.lt_succ_iff_lt_or_eq.mp hr with hr | rfl
    · have hends : r * stride + stride ≤ rows * stride := by
        rw [← Nat.succ_mul]
        exact Nat.mul_le_mul_right _ hr
      rw [if_neg (by omega)]
      exact h.shown r hr row' hrow' c hc
    · cases hrow.symm.trans hrow'
      rw [if_pos ⟨by omega, by omega⟩]
      congr 1
      omega
  · intro i hi
    rw [hget, hlen, if_neg]
    · exact h.kept i fun r hr c hc => hi r (by omega) c hc
    · rintro ⟨hfrom, hto⟩
      exact hi rows (by omega) (i - rows * stride) (by omega) (by omega)

theorem writeRows_written (dst : List α) (stride : ℕ) (hstride : rowLen ≤ stride)
    (hrows : ∀ r < rows, ∃ row, rowAt r = some row ∧ row.length = rowLen)
    (hfit : ∀ r < rows, r * stride + rowLen ≤ dst.length) :
    ∃ written, writeRows rowAt stride rows dst = some written ∧
      RowsWritten rowAt rowLen stride rows dst written := by
  induction rows with
  | zero => exact ⟨dst, rfl, rfl, fun r hr => absurd hr (by omega), fun _ _ => rfl⟩
  | succ rows ih =>
    obtain ⟨written, hwritten, h⟩ :=
      ih (fun r hr => hrows r (by omega)) (fun r hr => hfit r (by omega))
    obtain ⟨row, hrow, hlen⟩ := hrows rows (by omega)
    obtain ⟨next, hnext, hnextWritten⟩ := h.overwrite hstride hrow hlen (hfit rows (by omega))
    exact ⟨next, by simp only [writeRows, hwritten, hrow, hnext, Option.bind_eq_bind,
      Option.bind_some], hnextWritten⟩

end Written

section Packed
variable {rowAt : ℕ → Option (List α)} {src dst : List α} {rowLen stride rows : ℕ}

theorem row_fits (rowLen : ℕ) {r : ℕ} (hr : r < rows) : r * rowLen + rowLen ≤ rowLen * rows := by
  rw [← Nat.succ_mul, Nat.mul_comm rowLen]
  exact Nat.mul_le_mul_right _ hr

theorem RowsWritten.packed_eq (h : RowsWritten rowAt rowLen rowLen rows dst written)
    (hdst : dst.length = rowLen * rows) {items : List α} (hitems : items.length = rowLen * rows)
    (hrows : ∀ r < rows, ∃ row, rowAt r = some row ∧
      ∀ c < rowLen, row[c]? = items[r * rowLen + c]?) : written = items := by
  refine List.ext_getElem? fun i => ?_
  rcases Nat.lt_or_ge i (rowLen * rows) with hi | hi
  · have hpos : 0 < rowLen := Nat.pos_of_ne_zero (by rintro rfl; simp at hi)
    have hsplit : i / rowLen * rowLen + i % rowLen = i := Nat.div_add_mod' i rowLen
    obtain ⟨row, hrow, hget⟩ := hrows (i / rowLen) (Nat.div_lt_of_lt_mul hi)
    have hshown := h.shown _ (Nat.div_lt_of_lt_mul hi) row hrow _ (Nat.mod_lt i hpos)
    rw [hget _ (Nat.mod_lt i hpos), hsplit] at hshown
    exact hshown
  · rw [List.getElem?_eq_none (by rw [h.length, hdst]; exact hi),
      List.getElem?_eq_none (by rw [hitems]; exact hi)]

/-- Rows that were copied from a packed buffer, at any stride, are read back as they were there. -/
theorem compact_copied {plane : List α}
    (h : RowsWritten (fun r => slice src (r * rowLen) rowLen) rowLen stride rows dst plane)
    (hsrc : rowLen * rows ≤ src.length) (hfit : ∀ r < rows, r * stride + rowLen ≤ dst.length)
    {blank : List α} (hblank : blank.length = rowLen * rows) :
    writeRows (fun r => slice plane (r * stride) rowLen) rowLen rows blank
      = some (src.take (rowLen * rows)) := by
  have hrow : ∀ r < rows, ∃ row, slice plane (r * stride) rowLen = some row ∧
      row.length = rowLen := by
    intro r hr
    have hle : r * stride + rowLen ≤ plane.length := by
      rw [h.length]
      exact hfit r hr
    exact ⟨_, slice_of_le hle, slice_length (slice_of_le hle)⟩
  obtain ⟨written, hwritten, hpacked⟩ :=
    writeRows_written blank rowLen (Nat.le_refl rowLen) hrow
      (fun r hr => hblank ▸ row_fits rowLen hr)
  rw [hwritten]
  congr 1
  refine hpacked.packed_eq hblank (by rw [List.length_take]; omega) fun r hr => ?_
  obtain ⟨row, hr', -⟩ := hrow r hr
  refine ⟨row, hr', fun c hc => ?_⟩
  have hle : r * rowLen + rowLen ≤ src.length := Nat.le_trans (row_fits rowLen hr) hsrc
  have hfits := row_fits rowLen hr
  rw [slice_getElem? hr' hc, h.shown r hr _ (slice_of_le hle) c hc,
    slice_getElem? (slice_of_le hle) hc, List.getElem?_take_of_lt (by omega)]

end Packed

end StridedRows
