import Mathlib.Data.List.Chain
import Mathlib.Data.List.Nodup

/-! Consecutively numbered streams. A receiver that only compares each number with its
predecessor certifies the whole run; nothing here refers to what the numbers label. -/
namespace NumberedStreams

/-- Each number is one more than the number before it. -/
def Consecutive (l : List ℕ) : Prop := l.IsChain fun a b => b = a + 1

instance (l : List ℕ) : Decidable (Consecutive l) :=
  inferInstanceAs (Decidable (l.IsChain fun a b => b = a + 1))

@[simp] theorem consecutive_nil : Consecutive [] := List.isChain_nil

@[simp] theorem consecutive_singleton (a : ℕ) : Consecutive [a] := List.isChain_singleton a

theorem consecutive_append {l m : List ℕ} : Consecutive (l ++ m) ↔
    Consecutive l ∧ Consecutive m ∧ ∀ a ∈ l.getLast?, ∀ b ∈ m.head?, b = a + 1 :=
  List.isChain_append

theorem consecutive_concat {l : List ℕ} {b : ℕ} :
    Consecutive (l ++ [b]) ↔ Consecutive l ∧ ∀ a ∈ l.getLast?, b = a + 1 := by
  simp [consecutive_append]

end NumberedStreams
