import Mathlib.Data.List.Basic
import Mathlib.Data.Int.Notation

/-! Reading a record out of a JSON text, as derived deserializers do: a member that the record
does not name is skipped, one that it names twice is an error. -/
namespace JsonFields

/-- A value, as far as a record of scalars looks into it. -/
inductive JsonValue where
  | null
  /-- `none` where an escape spells no character. -/
  | string (text : Option String)
  /-- `none` where the number is not written as an integer of 64 bits. -/
  | number (integer : Option ℤ)
  | other
  deriving DecidableEq, Repr

inductive JsonText where
  | object (members : List (String × JsonValue))
  | array (items : List JsonValue)
  | other
  deriving DecidableEq, Repr

def JsonValue.asString : JsonValue → Option String
  | .string text => text
  | _ => none

def JsonValue.asInteger (least greatest : ℤ) : JsonValue → Option ℤ
  | .number (some z) => if least ≤ z ∧ z ≤ greatest then some z else none
  | _ => none

variable {β : Type*}

/-- An `Option` reads `null` as `None`. -/
def JsonValue.asOption (read : JsonValue → Option β) : JsonValue → Option (Option β)
  | .null => some none
  | v => (read v).map some

/-- The member of a name, and `none` where there are several. -/
def member (members : List (String × JsonValue)) (name : String) : Option (Option JsonValue) :=
  match members.filter fun m => m.1 = name with
  | [] => some none
  | [m] => some (some m.2)
  | _ => none

def requiredMember (read : JsonValue → Option β) (members : List (String × JsonValue))
    (name : String) : Option β :=
  match member members name with
  | some (some v) => read v
  | _ => none

/-- A member whose type is an `Option` may be missing. -/
def optionalMember (read : JsonValue → Option β) (members : List (String × JsonValue))
    (name : String) : Option (Option β) :=
  match member members name with
  | some (some v) => v.asOption read
  | some none => some none
  | none => none

/-- The member stands at most once, and what stands there is `null` or of its type. -/
structure Fits (read : JsonValue → Option β) (members : List (String × JsonValue))
    (name : String) : Prop where
  once : (members.filter fun m => m.1 = name).length ≤ 1
  typed : ∀ v, (name, v) ∈ members → v = .null ∨ (read v).isSome

variable {read : JsonValue → Option β} {members : List (String × JsonValue)} {name : String}

theorem asOption_isSome_iff (v : JsonValue) :
    (v.asOption read).isSome ↔ v = .null ∨ (read v).isSome := by
  cases v <;> simp [JsonValue.asOption]

theorem mem_named_iff (v : JsonValue) :
    (name, v) ∈ members ↔ (name, v) ∈ members.filter fun m => m.1 = name := by
  simp

theorem optionalMember_isSome_iff :
    (optionalMember read members name).isSome ↔ Fits read members name := by
  simp only [optionalMember, member]
  split
  · next v hv =>
    split at hv
    · cases hv
    · next m hm =>
      cases hv
      have hmem : m ∈ members.filter fun m => m.1 = name := hm ▸ List.mem_singleton_self m
      have hname : m.1 = name := of_decide_eq_true (List.mem_filter.mp hmem).2
      rw [asOption_isSome_iff]
      constructor
      · intro h
        constructor
        · rw [hm]; exact Nat.le_refl 1
        · intro v hv
          rw [mem_named_iff, hm, List.mem_singleton] at hv
          subst m
          exact h
      · intro h
        apply h.typed
        rw [mem_named_iff, hm, List.mem_singleton, ← hname]
    · cases hv
  · next hv =>
    split at hv
    · next hm =>
      simp only [Option.isSome_some, true_iff]
      constructor
      · rw [hm]; exact Nat.zero_le 1
      · intro v hv
        rw [mem_named_iff, hm] at hv
        cases hv
    · cases hv
    · cases hv
  · next hv =>
    split at hv
    · cases hv
    · cases hv
    · next hnil hone =>
      simp only [Option.isSome_none, Bool.false_eq_true, false_iff]
      intro h
      have hlen := h.once
      cases hl : members.filter fun m => m.1 = name with
      | nil => exact hnil hl
      | cons m rest =>
        rw [hl] at hlen
        cases rest with
        | nil => exact hone m hl
        | cons m' rest => simp at hlen

end JsonFields
