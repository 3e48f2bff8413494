import Mathlib.Data.List.Basic

/-! Ordered, lossless queues that remember what was taken from them: one subscriber's view of a topic
that does not overflow, or a channel between two threads. -/
namespace Queues

structure Queue (α : Type*) where
  received : List α := []
  pending : List α := []

namespace Queue
variable {α : Type*}

/-- Everything ever published, in order. -/
def log (q : Queue α) : List α := q.received ++ q.pending

def publish (q : Queue α) (as : List α) : Queue α := { q with pending := q.pending ++ as }

/-- Take the next `n` elements, or all of them if there are fewer. -/
def take (q : Queue α) (n : ℕ) : Queue α :=
  ⟨q.received ++ q.pending.take n, q.pending.drop n⟩

def pop (q : Queue α) : Option (α × Queue α) :=
  match q.pending with
  | [] => none
  | a :: rest => some (a, ⟨q.received ++ [a], rest⟩)

@[simp] theorem log_publish (q : Queue α) (as : List α) : (q.publish as).log = q.log ++ as :=
  (List.append_assoc ..).symm

@[simp] theorem publish_nil (q : Queue α) : q.publish [] = q := by
  simp [publish]

@[simp] theorem received_publish (q : Queue α) (as : List α) :
    (q.publish as).received = q.received := rfl

@[simp] theorem pending_publish (q : Queue α) (as : List α) :
    (q.publish as).pending = q.pending ++ as := rfl

@[simp] theorem log_take (q : Queue α) (n : ℕ) : (q.take n).log = q.log := by
  simp [log, take]

theorem pop_spec {q q' : Queue α} {a : α} (h : q.pop = some (a, q')) :
    q.pending = a :: q'.pending ∧ q'.received = q.received ++ [a] := by
  unfold pop at h
  split at h
  · cases h
  · next hp =>
    cases h
    exact ⟨hp, rfl⟩

theorem pop_of_pending {q : Queue α} (h : q.pending ≠ []) : ∃ a q', q.pop = some (a, q') := by
  obtain ⟨a, rest, hp⟩ := List.exists_cons_of_ne_nil h
  exact ⟨a, ⟨q.received ++ [a], rest⟩, by simp [pop, hp]⟩

theorem log_pop {q q' : Queue α} {a : α} (h : q.pop = some (a, q')) : q'.log = q.log := by
  obtain ⟨hp, hr⟩ := pop_spec h
  simp [log, hp, hr]

theorem mem_log_of_pop {q q' : Queue α} {a : α} (h : q.pop = some (a, q')) : a ∈ q.log := by
  simp [log, (pop_spec h).1]

end Queue

end Queues
