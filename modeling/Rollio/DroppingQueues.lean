import Mathlib.Data.List.Basic

/-! Bounded queues that make room by dropping their oldest entry, and readers that start from a
snapshot of an ordered history. -/
namespace DroppingQueues

variable {α β : Type*}

def enqueue (capacity : ℕ) (q : List α) (a : α) : List α :=
  if q.length < capacity then q ++ [a] else q.tail ++ [a]

variable {f : α → Option β} {n : ℕ} {q : List α} {a : α}

theorem filterMap_enqueue_some {b : β} (h : f a = some b) :
    ∃ rest, rest.Sublist (q.filterMap f) ∧ (enqueue n q a).filterMap f = rest ++ [b] := by
  simp only [enqueue]
  split
  · exact ⟨_, List.Sublist.refl _, by simp [h]⟩
  · exact ⟨_, (List.tail_sublist q).filterMap f, by simp [h]⟩

/-- An entry of no interest can drop one of interest, and only if that is the oldest of a full
queue. -/
theorem filterMap_enqueue_none (h : f a = none) :
    (enqueue n q a).filterMap f = q.filterMap f ∨
      ∃ a' rest b, q = a' :: rest ∧ n ≤ q.length ∧ f a' = some b ∧
        q.filterMap f = b :: rest.filterMap f ∧
        (enqueue n q a).filterMap f = rest.filterMap f := by
  simp only [enqueue]
  split
  · exact .inl (by simp [h])
  · next hfull =>
    cases q with
    | nil => exact .inl (by simp [h])
    | cons a' rest =>
      cases hb : f a' with
      | none => exact .inl (by simp [h, hb])
      | some b => exact .inr ⟨a', rest, b, rfl, Nat.le_of_not_lt hfull, hb, by simp [hb], by simp [h]⟩

/-- A reader that has started from an entry and goes on with newer ones sees them in order. -/
theorem cons_filter_sublist {r : β → β → Prop} [DecidableRel r] (hirrefl : ∀ b, ¬ r b b)
    (hasymm : ∀ b c, r b c → ¬ r c b) {history : List β} (hsorted : history.Pairwise r) {b : β}
    (hb : b ∈ history) {later : List β} (hlater : later.Sublist history) :
    (b :: later.filter fun c => r b c).Sublist history := by
  obtain ⟨before, after, rfl⟩ := List.append_of_mem hb
  have hfiltered : (before ++ b :: after).filter (fun c => r b c) =
      after.filter fun c => r b c := by
    rw [List.filter_append, List.filter_cons_of_neg (by simpa using hirrefl b)]
    have hbefore : before.filter (fun c => decide (r b c)) = [] := by
      rw [List.filter_eq_nil_iff]
      intro c hc
      have hcb := (List.pairwise_append.mp hsorted).2.2 c hc b List.mem_cons_self
      simpa using hasymm c b hcb
    rw [hbefore, List.nil_append]
  have hkept := hlater.filter fun c => decide (r b c)
  rw [hfiltered] at hkept
  exact ((hkept.trans List.filter_sublist).cons_cons b).trans (List.sublist_append_right before _)

end DroppingQueues
