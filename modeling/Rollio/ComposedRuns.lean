import Rollio.PartialRuns

/-! Runs of a system that is composed of parts: what each part does in a run of the whole is a run of
the part alone. -/
namespace ComposedRuns
open PartialRuns

variable {σ τ α β : Type*}

def brings (next : σ → α → σ) (part : σ → α → List β) : σ → List α → List β
  | _, [] => []
  | s, a :: rest => part s a ++ brings next part (next s a) rest

section Parts
variable {enabled : σ → α → Prop} {next : σ → α → σ} {ok : σ → α → Prop}
  {enabled' : τ → β → Prop} {next' : τ → β → τ} {ok' : τ → β → Prop}
  {view : σ → τ} {part : σ → α → List β}

theorem view_foldl (moves : ∀ s a, view (next s a) = (part s a).foldl next' (view s)) (s : σ)
    (l : List α) : view (l.foldl next s) = (brings next part s l).foldl next' (view s) := by
  induction l generalizing s with
  | nil => rfl
  | cons a l ih => rw [List.foldl_cons, ih, moves, brings, List.foldl_append]

theorem follows_part (moves : ∀ s a, view (next s a) = (part s a).foldl next' (view s))
    (allowed : ∀ s a, enabled s a → ok s a → Follows enabled' next' ok' (view s) (part s a))
    {s : σ} {l : List α} (h : Follows enabled next ok s l) :
    Follows enabled' next' ok' (view s) (brings next part s l) := by
  induction l generalizing s with
  | nil => trivial
  | cons a l ih =>
    obtain ⟨ha, hok, hrest⟩ := h
    refine follows_append.mpr ⟨allowed s a ha hok, ?_⟩
    rw [← moves]
    exact ih hrest

end Parts

end ComposedRuns
