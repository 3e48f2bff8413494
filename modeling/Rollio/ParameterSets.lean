import Mathlib.Data.List.Chain
import Mathlib.Data.List.Nodup
import Rollio.NaluUnits

/-! The parameter sets of a stream: the first unit of each type that a decoder needs, framed anew. -/
namespace ParameterSets
open AnnexBFraming CodecSessions NaluUnits

/-- The first unit of a slot's type takes the slot. -/
def keepFirst (typeOf : UInt8 → UInt8) (slots : List (UInt8 × Option (List UInt8)))
    (nalu : List UInt8) : List (UInt8 × Option (List UInt8)) :=
  match nalu with
  | [] => slots
  | header :: body => slots.map fun slot =>
    (slot.1, if typeOf header = slot.1 then slot.2 <|> some (header :: body) else slot.2)

def extractParameterSets (typeOf : UInt8 → UInt8) (types annexB : List UInt8) :
    Option (List UInt8) := do
  let slots := (splitAnnexBNalus annexB).foldl (keepFirst typeOf) (types.map fun t => (t, none))
  let units ← slots.mapM Prod.snd
  return units.flatMap fun nalu => [0, 0, 0, 1] ++ nalu

def extractH264ParameterSets (annexB : List UInt8) : Option (List UInt8) :=
  extractParameterSets (fun header => header &&& 0x1F) [7, 8] annexB

def extractH265ParameterSets (annexB : List UInt8) : Option (List UInt8) :=
  extractParameterSets (fun header => (header >>> 1) &&& 0x3F) [32, 33, 34] annexB

/-- There is a result exactly if there is a unit of each type; it splits into the first units of the
types, and gives itself when it is extracted from. -/
structure ExtractionLaw (typeOf : UInt8 → UInt8) (types : List UInt8)
    (extract : List UInt8 → Option (List UInt8)) (annexB : List UInt8) : Prop where
  present : (extract annexB).isSome ↔
    ∀ t ∈ types, ∃ unit ∈ splitAnnexBNalus annexB, OfType typeOf t unit
  units : ∀ out, extract annexB = some out →
    (splitAnnexBNalus out).map some =
      types.map fun t => (splitAnnexBNalus annexB).find? (OfType typeOf t ·)
  stable : ∀ out, extract annexB = some out → extract out = some out

variable {typeOf : UInt8 → UInt8} {types annexB out : List UInt8} {units : List (List UInt8)}

theorem keepFirst_eq (slots : List (UInt8 × Option (List UInt8))) (nalu : List UInt8) :
    keepFirst typeOf slots nalu = slots.map fun slot =>
      (slot.1, slot.2 <|> if OfType typeOf slot.1 nalu then some nalu else none) := by
  match nalu with
  | [] => simp [keepFirst]
  | header :: body =>
    apply List.map_congr_left
    rintro ⟨t, held⟩ -
    by_cases htype : typeOf header = t
    · simp [htype]
    · simp [htype]

theorem foldl_keepFirst (nalus : List (List UInt8)) (slots : List (UInt8 × Option (List UInt8))) :
    nalus.foldl (keepFirst typeOf) slots =
      slots.map fun slot => (slot.1, slot.2 <|> nalus.find? (OfType typeOf slot.1 ·)) := by
  induction nalus generalizing slots with
  | nil => simp
  | cons nalu nalus ih =>
    rw [List.foldl_cons, ih, keepFirst_eq, List.map_map]
    apply List.map_congr_left
    rintro ⟨t, held⟩ -
    by_cases htype : OfType typeOf t nalu
    · cases held <;> simp [htype]
    · cases held <;> simp [htype]

theorem mapM_eq_some_iff {α β : Type} {f : α → Option β} {xs : List α} {ys : List β} :
    xs.mapM f = some ys ↔ xs.map f = ys.map some := by
  induction xs generalizing ys with
  | nil => cases ys <;> simp
  | cons x xs ih =>
    cases hx : f x with
    | none => cases ys <;> simp [hx]
    | some y =>
      cases ys with
      | nil => simp [hx, Option.bind_eq_some_iff]
      | cons y' ys => simp [hx, Option.bind_eq_some_iff, ← ih, and_comm]

theorem exists_map_some_iff {α β : Type} {f : α → Option β} {xs : List α} :
    (∃ ys : List β, xs.map f = ys.map some) ↔ ∀ x ∈ xs, (f x).isSome := by
  induction xs with
  | nil => exact ⟨fun _ => by simp, fun _ => ⟨[], rfl⟩⟩
  | cons x xs ih =>
    rw [List.forall_mem_cons, ← ih, Option.isSome_iff_exists]
    constructor
    · rintro ⟨ys, hys⟩
      match ys with
      | y :: ys => exact ⟨⟨y, (List.cons.inj hys).1⟩, ys, (List.cons.inj hys).2⟩
    · rintro ⟨⟨y, hy⟩, ys, hys⟩
      exact ⟨y :: ys, by rw [List.map_cons, hy, hys, List.map_cons]⟩

theorem extractParameterSets_eq_some_iff : extractParameterSets typeOf types annexB = some out ↔
    ∃ units : List (List UInt8),
      (types.map fun t => (splitAnnexBNalus annexB).find? (OfType typeOf t ·)) = units.map some ∧
        out = framed (units.map fun unit => (.long, unit)) := by
  simp only [extractParameterSets, foldl_keepFirst, List.map_map, Option.bind_eq_bind,
    Option.bind_eq_some_iff, mapM_eq_some_iff, Option.pure_def, Option.some.injEq, framed,
    List.flatMap_map, StartCode.bytes]
  apply exists_congr
  intro units
  rw [eq_comm (a := out)]
  simp [Function.comp_def]

theorem split_long (hsolid : ∀ unit ∈ units, Solid unit) :
    splitAnnexBNalus (framed (units.map fun unit => (.long, unit))) = units := by
  rw [splitAnnexBNalus_eq, cut_framed]
  · simp [Function.comp_def]
  · simpa using hsolid
  · rw [List.isChain_map]
    apply List.Pairwise.isChain
    apply List.pairwise_of_forall
    rintro _ _ ⟨⟩

theorem find_own {found : UInt8 → Option (List UInt8)}
    (htype : ∀ t unit, found t = some unit → OfType typeOf t unit)
    (hmap : types.map found = units.map some) (hnodup : types.Nodup) :
    (types.map fun t => units.find? (OfType typeOf t ·)) = units.map some := by
  induction types generalizing units with
  | nil => exact hmap
  | cons t types ih =>
    match units with
    | [] => cases hmap
    | unit :: units =>
      obtain ⟨hfresh, hnodup⟩ := List.nodup_cons.mp hnodup
      obtain ⟨hunit, hmap⟩ := List.cons.inj hmap
      have hown := htype t unit hunit
      rw [List.map_cons, List.map_cons, ← ih hmap hnodup,
        List.find?_cons_of_pos (by simpa using hown)]
      congr 1
      apply List.map_congr_left
      intro t' ht'
      apply List.find?_cons_of_neg
      intro hother
      apply hfresh
      rw [hown.unique (of_decide_eq_true hother)]
      exact ht'

/-- What holds of distinct types, whatever they are and wherever the header has them. -/
theorem extractParameterSets_law (hnodup : types.Nodup) (annexB : List UInt8) :
    ExtractionLaw typeOf types (extractParameterSets typeOf types) annexB := by
  have htype : ∀ t unit, (splitAnnexBNalus annexB).find? (OfType typeOf t ·) = some unit →
      OfType typeOf t unit := by
    intro t unit hfind
    simpa using List.find?_some hfind
  have hsplit : ∀ units : List (List UInt8),
      (types.map fun t => (splitAnnexBNalus annexB).find? (OfType typeOf t ·)) = units.map some →
      splitAnnexBNalus (framed (units.map fun unit => (.long, unit))) = units := by
    intro units hmap
    apply split_long
    intro unit hunit
    have hmem : some unit ∈ types.map fun t =>
        (splitAnnexBNalus annexB).find? (OfType typeOf t ·) := by
      rw [hmap]
      exact List.mem_map_of_mem hunit
    obtain ⟨t, -, hfind⟩ := List.mem_map.mp hmem
    apply (cut_solid annexB).2
    rw [← splitAnnexBNalus_eq]
    exact List.mem_of_find?_eq_some hfind
  constructor
  · simp only [Option.isSome_iff_exists, extractParameterSets_eq_some_iff]
    rw [exists_comm]
    simp only [exists_and_left, exists_eq, and_true, exists_map_some_iff, List.find?_isSome,
      decide_eq_true_eq]
  · intro out hout
    obtain ⟨units, hmap, rfl⟩ := extractParameterSets_eq_some_iff.mp hout
    rw [hsplit units hmap, hmap]
  · intro out hout
    obtain ⟨units, hmap, rfl⟩ := extractParameterSets_eq_some_iff.mp hout
    rw [extractParameterSets_eq_some_iff, hsplit units hmap]
    exact ⟨units, find_own htype hmap hnodup, rfl⟩

/-- The H.264 sets are those of types 7 and 8, the H.265 sets those of types 32, 33 and 34. -/
theorem extraction_lawful (annexB : List UInt8) :
    ExtractionLaw (fun header => header &&& 0x1F) [7, 8] extractH264ParameterSets annexB ∧
      ExtractionLaw (fun header => (header >>> 1) &&& 0x3F) [32, 33, 34]
        extractH265ParameterSets annexB :=
  ⟨extractParameterSets_law (by decide) annexB, extractParameterSets_law (by decide) annexB⟩

end ParameterSets
