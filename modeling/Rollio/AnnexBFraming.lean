import Mathlib.Data.List.Basic
import Mathlib.Data.List.Infix

/-! Units of bytes behind start codes: `00 00 01` or `00 00 00 01` announces a unit, which ends where
the next code begins. -/
namespace AnnexBFraming

inductive StartCode where
  | short | long
  deriving DecidableEq, Repr

def StartCode.bytes : StartCode → List UInt8
  | .short => [0, 0, 1]
  | .long => [0, 0, 0, 1]

/-- The bytes in front of the first start code, and the units behind the codes. -/
def cut : List UInt8 → List UInt8 × List (List UInt8)
  | 0 :: 0 :: 1 :: rest => ([], (cut rest).1 :: (cut rest).2)
  | 0 :: 0 :: 0 :: 1 :: rest => ([], (cut rest).1 :: (cut rest).2)
  | byte :: rest => (byte :: (cut rest).1, (cut rest).2)
  | [] => ([], [])

def framed (units : List (StartCode × List UInt8)) : List UInt8 :=
  units.flatMap fun unit => unit.1.bytes ++ unit.2

/-- A unit that no start code is hidden in. -/
def Solid (unit : List UInt8) : Prop := ¬ [0, 0, 1] <:+: unit

instance (unit : List UInt8) : Decidable (Solid unit) :=
  inferInstanceAs (Decidable (¬ _))

/-- A unit's last zero would make a long code of the short one behind it. -/
def Apart (unit next : StartCode × List UInt8) : Prop :=
  next.1 = .short → unit.2.getLast? ≠ some 0

instance (unit next : StartCode × List UInt8) : Decidable (Apart unit next) :=
  inferInstanceAs (Decidable (_ → _))

/-- Bytes that begin with a start code. -/
def Coded (bytes : List UInt8) : Prop := [0, 0, 1] <+: bytes ∨ [0, 0, 0, 1] <+: bytes

variable {unit bytes rest : List UInt8} {code : StartCode} {units : List (StartCode × List UInt8)}

@[simp] theorem framed_nil : framed [] = [] := rfl

@[simp] theorem framed_cons (code : StartCode) (unit : List UInt8) :
    framed ((code, unit) :: units) = code.bytes ++ (unit ++ framed units) := by
  simp [framed]

theorem Solid.nil : Solid [] := by
  simp [Solid]

theorem Solid.tail {byte : UInt8} (h : Solid (byte :: unit)) : Solid unit := by
  intro hinside
  exact h (hinside.trans (List.suffix_cons byte unit).isInfix)

theorem cut_code (code : StartCode) (rest : List UInt8) :
    cut (code.bytes ++ rest) = ([], (cut rest).1 :: (cut rest).2) := by
  cases code with
  | short => simp [StartCode.bytes, cut]
  | long => simp [StartCode.bytes, cut]

theorem cut_byte {byte : UInt8} (h : ¬ Coded (byte :: rest)) :
    cut (byte :: rest) = (byte :: (cut rest).1, (cut rest).2) := by
  rw [cut]
  · rintro tail rfl rfl
    exact h (.inl (by simp))
  · rintro tail rfl rfl
    exact h (.inr (by simp))

theorem cut_fst_isFront (bytes : List UInt8) : (cut bytes).1 <+: bytes := by
  fun_induction cut bytes with
  | case1 rest ih => exact List.nil_prefix
  | case2 rest ih => exact List.nil_prefix
  | case3 byte rest hshort hlong ih => exact List.prefix_cons_inj byte |>.mpr ih
  | case4 => exact List.nil_prefix

theorem cut_solid (bytes : List UInt8) :
    Solid (cut bytes).1 ∧ ∀ unit ∈ (cut bytes).2, Solid unit := by
  fun_induction cut bytes with
  | case1 rest ih => exact ⟨Solid.nil, List.forall_mem_cons.mpr ih⟩
  | case2 rest ih => exact ⟨Solid.nil, List.forall_mem_cons.mpr ih⟩
  | case3 byte rest hshort hlong ih =>
    refine ⟨?_, ih.2⟩
    intro hinside
    obtain hfront | hinside := List.infix_cons_iff.mp hinside
    · obtain ⟨tail, htail⟩ :=
        hfront.trans ((List.prefix_cons_inj byte).mpr (cut_fst_isFront rest))
      simp only [List.cons_append, List.nil_append, List.cons.injEq] at htail
      obtain ⟨rfl, rfl⟩ := htail
      exact hshort tail rfl rfl
    · exact ih.1 hinside
  | case4 => exact ⟨Solid.nil, by simp⟩

theorem Coded.zeros (h : Coded bytes) : ∃ tail, bytes = 0 :: 0 :: tail := by
  obtain ⟨tail, rfl⟩ | ⟨tail, rfl⟩ := h
  · exact ⟨1 :: tail, rfl⟩
  · exact ⟨0 :: 1 :: tail, rfl⟩

/-- No start code begins inside a unit, not even one that ends in the code behind it. -/
theorem Solid.not_coded (h : Solid unit) (hne : unit ≠ []) (hrest : rest = [] ∨ Coded rest)
    (hapart : [0, 0, 1] <+: rest → unit.getLast? ≠ some 0) : ¬ Coded (unit ++ rest) := by
  have hzeros : rest = [] ∨ ∃ tail, rest = 0 :: 0 :: tail := hrest.imp_right Coded.zeros
  match unit, hne with
  | [byte], _ =>
    obtain rfl | ⟨tail, rfl⟩ := hzeros
    · simp [Coded]
    · rintro (hshort | hlong)
      · simp at hshort
      · -- the unit's zero in front of a short code
        simp only [List.cons_append, List.nil_append, List.cons_prefix_cons] at hlong
        exact hapart (by simpa using hlong.2.2.2) (by simp [hlong.1])
  | [byte, next], _ =>
    obtain rfl | ⟨tail, rfl⟩ := hzeros
    · simp [Coded]
    · simp [Coded]
  | [byte, next, third], _ =>
    rintro (hshort | hlong)
    · simp only [List.cons_append, List.cons_prefix_cons] at hshort
      obtain ⟨rfl, rfl, rfl, -⟩ := hshort
      exact h (List.infix_refl _)
    · obtain rfl | ⟨tail, rfl⟩ := hzeros
      · simp at hlong
      · simp at hlong
  | byte :: next :: third :: fourth :: unit, _ =>
    rintro (hshort | hlong)
    · simp only [List.cons_append, List.cons_prefix_cons] at hshort
      obtain ⟨rfl, rfl, rfl, -⟩ := hshort
      exact h (List.IsPrefix.isInfix (by simp))
    · simp only [List.cons_append, List.cons_prefix_cons] at hlong
      obtain ⟨rfl, rfl, rfl, rfl, -⟩ := hlong
      exact h.tail (List.IsPrefix.isInfix (by simp))

theorem cut_unit (h : Solid unit) (hrest : rest = [] ∨ Coded rest)
    (hapart : [0, 0, 1] <+: rest → unit.getLast? ≠ some 0) :
    cut (unit ++ rest) = (unit ++ (cut rest).1, (cut rest).2) := by
  induction unit with
  | nil => rfl
  | cons byte unit ih =>
    have hlast : [0, 0, 1] <+: rest → unit.getLast? ≠ some 0 := by
      intro hshort hzero
      apply hapart hshort
      rw [List.getLast?_cons, hzero]
      rfl
    have hbyte : ¬ Coded (byte :: (unit ++ rest)) := h.not_coded (by simp) hrest hapart
    rw [List.cons_append, cut_byte hbyte, ih h.tail hlast]
    rfl

theorem coded_framed (code : StartCode) (unit : List UInt8) :
    Coded (framed ((code, unit) :: units)) := by
  rw [framed_cons]
  cases code with
  | short => exact .inl (List.prefix_append ..)
  | long => exact .inr (List.prefix_append ..)

theorem coded_framed_or_nil (units : List (StartCode × List UInt8)) :
    framed units = [] ∨ Coded (framed units) := by
  match units with
  | [] => exact .inl rfl
  | (code, unit) :: units => exact .inr (coded_framed code unit)

/-- Cutting undoes framing. -/
theorem cut_framed (hsolid : ∀ unit ∈ units, Solid unit.2) (hapart : units.IsChain Apart) :
    cut (framed units) = ([], units.map Prod.snd) := by
  induction units with
  | nil => rfl
  | cons unit units ih =>
    obtain ⟨code, unit⟩ := unit
    have hrest := ih (List.forall_mem_cons.mp hsolid).2 hapart.of_cons
    have hcoded := coded_framed_or_nil units
    have hlast : [0, 0, 1] <+: framed units → unit.getLast? ≠ some 0 := by
      intro hshort
      match units with
      | [] => simp at hshort
      | (.short, next) :: units => exact hapart.rel rfl
      | (.long, next) :: units => simp [StartCode.bytes] at hshort
    rw [framed_cons, cut_code, cut_unit (List.forall_mem_cons.mp hsolid).1 hcoded hlast, hrest]
    simp

end AnnexBFraming
