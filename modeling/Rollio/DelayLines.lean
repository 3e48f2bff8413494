import Mathlib.Data.List.Basic

/-! First-in first-out lines with delay. An item leaves on some later arrival, or at the end;
which items stay how long is the line's affair, and no item is lost or overtaken. -/
namespace DelayLines

structure DelayLine (α : Type) where
  held : List α := []
  taken : ℕ := 0
  deriving DecidableEq

variable {α β : Type}

namespace DelayLine

def push (releases : ℕ → ℕ) (line : DelayLine α) (a : α) : List α × DelayLine α :=
  ((line.held ++ [a]).take (releases line.taken),
    ⟨(line.held ++ [a]).drop (releases line.taken), line.taken + 1⟩)

def run (releases : ℕ → ℕ) (line : DelayLine α) : List α → List (α × Option α)
  | [] => line.held.map fun a => (a, none)
  | a :: l => (line.push releases a).1.map (fun b => (b, some a)) ++
      (line.push releases a).2.run releases l

def map (f : α → β) (line : DelayLine α) : DelayLine β := ⟨line.held.map f, line.taken⟩

end DelayLine

def heldAfter (releases : ℕ → ℕ) : ℕ → ℕ
  | 0 => 0
  | n + 1 => heldAfter releases n + 1 - releases n

/-- The line holds as many items as a line that started out empty. -/
def Counted (releases : ℕ → ℕ) (line : DelayLine α) : Prop :=
  line.held.length = heldAfter releases line.taken

open DelayLine

variable {releases : ℕ → ℕ}

theorem push_conserves (line : DelayLine α) (a : α) :
    (line.push releases a).1 ++ (line.push releases a).2.held = line.held ++ [a] :=
  List.take_append_drop ..

theorem push_counted {line : DelayLine α} (h : Counted releases line) (a : α) :
    Counted releases (line.push releases a).2 := by
  simp only [Counted, push, heldAfter, List.length_drop, List.length_append, List.length_singleton,
    h.symm]

end DelayLines
