import Rollio.AnnexBFraming
import Rollio.CodecSessions
import Rollio.PreviewDecoders

/-! The units that the encoder and the browser find in Annex B bytes. -/
namespace NaluUnits
open AnnexBFraming CodecSessions PreviewDecoders

def OfType (typeOf : UInt8 → UInt8) (wanted : UInt8) : List UInt8 → Prop
  | [] => False
  | header :: _ => typeOf header = wanted

instance (typeOf : UInt8 → UInt8) (wanted : UInt8) (unit : List UInt8) :
    Decidable (OfType typeOf wanted unit) :=
  match unit with
  | [] => inferInstanceAs (Decidable False)
  | _ :: _ => inferInstanceAs (Decidable (_ = _))

@[simp] theorem ofType_nil (typeOf : UInt8 → UInt8) (wanted : UInt8) :
    ¬ OfType typeOf wanted [] := id

@[simp] theorem ofType_cons (typeOf : UInt8 → UInt8) (wanted header : UInt8) (body : List UInt8) :
    OfType typeOf wanted (header :: body) ↔ typeOf header = wanted := Iff.rfl

theorem OfType.unique {typeOf : UInt8 → UInt8} {t t' : UInt8} {unit : List UInt8}
    (h : OfType typeOf t unit) (h' : OfType typeOf t' unit) : t = t' := by
  match unit with
  | header :: body => exact h.symm.trans h'

def unitEnd (bytes : List UInt8) (starts : List (ℕ × ℕ)) : ℕ :=
  (starts.head?.map Prod.fst).getD bytes.length

variable {bytes front rest : List UInt8} {wanted : UInt8}

@[simp] theorem unitEnd_nil (bytes : List UInt8) : unitEnd bytes [] = bytes.length := rfl

@[simp] theorem unitEnd_cons (bytes : List UInt8) (offset size : ℕ) (starts : List (ℕ × ℕ)) :
    unitEnd bytes ((offset, size) :: starts) = offset := rfl

theorem naluBodies_cons (bytes : List UInt8) (offset size : ℕ) (starts : List (ℕ × ℕ)) :
    naluBodies bytes ((offset, size) :: starts) =
      (bytes.take (unitEnd bytes starts)).drop (offset + size) :: naluBodies bytes starts := by
  match starts with
  | [] => simp [naluBodies]
  | (next, size') :: starts => rfl

theorem startCodes_byte {byte : UInt8} (h : ¬ Coded (byte :: rest)) (i : ℕ) :
    startCodes i (byte :: rest) = startCodes (i + 1) rest := by
  rw [startCodes]
  · rintro tail rfl rfl
    exact h (.inl (by simp))
  · rintro tail rfl rfl
    exact h (.inr (by simp))

theorem startCodes_code (i : ℕ) (code : StartCode) (rest : List UInt8) :
    startCodes i (code.bytes ++ rest) =
      (i, code.bytes.length) :: startCodes (i + code.bytes.length) rest := by
  cases code with
  | short => simp [StartCode.bytes, startCodes]
  | long => simp [StartCode.bytes, startCodes]

/-- How bytes are scanned: a start code, or a byte that is none's first. -/
theorem scan_induction {P : List UInt8 → Prop} (bytes : List UInt8) (nil : P [])
    (code : ∀ (code : StartCode) (rest : List UInt8), P rest → P (code.bytes ++ rest))
    (byte : ∀ (byte : UInt8) (rest : List UInt8), ¬ Coded (byte :: rest) → P rest →
      P (byte :: rest)) : P bytes := by
  fun_induction cut bytes with
  | case1 rest ih => exact code .short rest ih
  | case2 rest ih => exact code .long rest ih
  | case3 head rest hshort hlong ih =>
    refine byte head rest ?_ ih
    rintro (⟨tail, htail⟩ | ⟨tail, htail⟩)
    · simp only [List.cons_append, List.nil_append, List.cons.injEq] at htail
      exact hshort tail htail.1.symm htail.2.symm
    · simp only [List.cons_append, List.nil_append, List.cons.injEq] at htail
      exact hlong tail htail.1.symm htail.2.symm
  | case4 => exact nil

theorem unitEnd_startCodes (rest : List UInt8) : ∀ front : List UInt8,
    unitEnd (front ++ rest) (startCodes front.length rest) =
      front.length + (cut rest).1.length := by
  induction rest using scan_induction with
  | nil => simp [startCodes, cut]
  | code code rest ih =>
    intro front
    rw [startCodes_code, unitEnd_cons, cut_code]
    rfl
  | byte byte rest hbyte ih =>
    intro front
    have hstep := ih (front ++ [byte])
    rw [List.append_assoc, List.length_append] at hstep
    rw [startCodes_byte hbyte, cut_byte hbyte, List.length_cons, ← Nat.add_assoc,
      Nat.add_right_comm]
    exact hstep

theorem take_unitEnd (front rest : List UInt8) :
    ((front ++ rest).take (unitEnd (front ++ rest) (startCodes front.length rest))).drop
      front.length = (cut rest).1 := by
  rw [unitEnd_startCodes, List.take_length_add_append, List.drop_left]
  exact (List.prefix_iff_eq_take.mp (cut_fst_isFront rest)).symm

theorem naluBodies_startCodes (rest : List UInt8) : ∀ front : List UInt8,
    naluBodies (front ++ rest) (startCodes front.length rest) = (cut rest).2 := by
  induction rest using scan_induction with
  | nil => simp [startCodes, naluBodies, cut]
  | code code rest ih =>
    intro front
    have hbody := take_unitEnd (front ++ code.bytes) rest
    have hrest := ih (front ++ code.bytes)
    rw [List.append_assoc, List.length_append] at hbody hrest
    rw [startCodes_code, naluBodies_cons, hbody, hrest, cut_code]
  | byte byte rest hbyte ih =>
    intro front
    have hstep := ih (front ++ [byte])
    rw [List.append_assoc, List.length_append] at hstep
    rw [startCodes_byte hbyte, cut_byte hbyte]
    exact hstep

/-- What the encoder splits off are the units behind the start codes. -/
theorem splitAnnexBNalus_eq (bytes : List UInt8) : splitAnnexBNalus bytes = (cut bytes).2 :=
  naluBodies_startCodes bytes []

theorem naluStarts_code (i : ℕ) (code : StartCode) (rest : List UInt8) :
    naluStarts i 0 (code.bytes ++ rest) = (i + code.bytes.length, code.bytes.length) ::
      naluStarts (i + code.bytes.length) 0 rest := by
  cases code with
  | short => simp [StartCode.bytes, naluStarts, Nat.add_assoc]
  | long => simp [StartCode.bytes, naluStarts, Nat.add_assoc]

theorem naluStarts_byte {byte : UInt8} (h : ¬ Coded (byte :: rest)) (i : ℕ) :
    naluStarts i 0 (byte :: rest) = naluStarts (i + 1) 0 rest := by
  rw [naluStarts, if_neg, if_neg]
  · intro hlong
    exact h (.inr (List.prefix_iff_eq_take.mpr hlong.symm))
  · intro hshort
    exact h (.inl (List.prefix_iff_eq_take.mpr hshort.symm))

/-- Both scanners find the same start codes; the browser's notes the offset behind the code. -/
theorem naluStarts_eq (rest : List UInt8) : ∀ i : ℕ,
    naluStarts i 0 rest = (startCodes i rest).map fun start => (start.1 + start.2, start.2) := by
  induction rest using scan_induction with
  | nil => exact fun i => rfl
  | code code rest ih =>
    intro i
    rw [naluStarts_code, startCodes_code, ih, List.map_cons]
  | byte byte rest hbyte ih =>
    intro i
    rw [naluStarts_byte hbyte, startCodes_byte hbyte, ih]

theorem firstNalu_eq_find (bytes : List UInt8) (wanted : UInt8) (starts : List (ℕ × ℕ)) :
    firstNalu bytes wanted (starts.map fun start => (start.1 + start.2, start.2)) =
      (naluBodies bytes starts).find? (OfType (· &&& 0x1F) wanted ·) := by
  induction starts with
  | nil => rfl
  | cons start starts ih =>
    obtain ⟨offset, size⟩ := start
    have hend : (((starts.map fun start => (start.1 + start.2, start.2)).head?.map
        fun next => next.1 - next.2).getD bytes.length) = unitEnd bytes starts := by
      cases starts with
      | nil => rfl
      | cons next starts => simp [unitEnd]
    rw [naluBodies_cons, List.map_cons, firstNalu, hend, ih, List.find?_cons]
    cases hunit : (bytes.take (unitEnd bytes starts)).drop (offset + size) with
    | nil => simp
    | cons header body =>
      by_cases htype : header &&& 0x1F = wanted
      · simp [htype]
      · simp [htype]

/-- The browser finds the first unit of a type among those that the encoder splits off, and none
exactly if there is none. -/
theorem findAnnexBNalu_eq_find (bytes : List UInt8) (wanted : UInt8) :
    findAnnexBNalu bytes wanted =
        (splitAnnexBNalus bytes).find? (OfType (· &&& 0x1F) wanted ·) ∧
      (findAnnexBNalu bytes wanted = none ↔
        ∀ unit ∈ splitAnnexBNalus bytes, ¬ OfType (· &&& 0x1F) wanted unit) := by
  have hfind : findAnnexBNalu bytes wanted =
      (splitAnnexBNalus bytes).find? (OfType (· &&& 0x1F) wanted ·) := by
    rw [findAnnexBNalu, naluStarts_eq, firstNalu_eq_find, splitAnnexBNalus]
  refine ⟨hfind, ?_⟩
  rw [hfind, List.find?_eq_none]
  simp

/-- Splitting gives the units back that were framed, unless a zero in front of a short start code
makes it a long one, or a unit hides a start code. -/
theorem split_framed {units : List (StartCode × List UInt8)}
    (hsolid : ∀ unit ∈ units, Solid unit.2) (hapart : units.IsChain Apart) :
    splitAnnexBNalus (framed units) = units.map Prod.snd := by
  rw [splitAnnexBNalus_eq, cut_framed hsolid hapart]

/-- Units of zeros, and an empty one, in front of long start codes. -/
theorem split_framed_zeros :
    splitAnnexBNalus (framed [(.short, [7, 0, 0]), (.long, []), (.short, [8]), (.long, [0])]) =
      [[7, 0, 0], [], [8], [0]] :=
  split_framed (by decide) (by simp [Apart])

end NaluUnits
