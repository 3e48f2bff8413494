import Mathlib.Data.List.Basic

/-! Words joined by a separator, and when the parts can be read back. -/
namespace SeparatedNames

variable {α : Type} {x : α} {a b s t : List α}

/-- Words that do not hold the separator can be read back after the last one. -/
theorem last_separator (hs : x ∉ s) (ht : x ∉ t) :
    a ++ x :: s = b ++ x :: t ↔ a = b ∧ s = t := by
  constructor
  · intro h
    rcases List.append_eq_append_iff.mp h with ⟨c, hb, hc⟩ | ⟨c, ha, hc⟩
    · rcases List.cons_eq_append_iff.mp hc with ⟨rfl, hc⟩ | ⟨d, rfl, hc⟩
      · rw [List.append_nil] at hb
        exact ⟨hb.symm, (List.cons.inj hc).2⟩
      · exact absurd ((List.cons.inj hc).2 ▸ List.mem_append_right d List.mem_cons_self) hs
    · rcases List.cons_eq_append_iff.mp hc with ⟨rfl, hc⟩ | ⟨d, rfl, hc⟩
      · rw [List.append_nil] at ha
        exact ⟨ha, (List.cons.inj hc).2.symm⟩
      · exact absurd ((List.cons.inj hc).2 ▸ List.mem_append_right d List.mem_cons_self) ht
  · rintro ⟨rfl, rfl⟩
    rfl

/-- A first word goes on where another ends, and the other's second word with it. -/
def Continues (sep a b a' b' : List α) : Prop := ∃ w, a' = a ++ w ∧ sep ++ b = w ++ (sep ++ b')

theorem joined_eq_iff {sep a b a' b' : List α} :
    a ++ (sep ++ b) = a' ++ (sep ++ b') ↔ Continues sep a b a' b' ∨ Continues sep a' b' a b :=
  List.append_eq_append_iff

end SeparatedNames
