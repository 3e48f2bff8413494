import Mathlib.Data.List.Basic

/-! Programs over a state that may fail. A failed step keeps what the steps before it did, so a
program is judged by the outcomes it can have and the states it leaves. -/
namespace FallibleRuns

/-- A program with errors `ε` over the state `σ`; an error does not undo the state. -/
abbrev Prog (ε σ α : Type) := ExceptT ε (StateM σ) α

variable {ε σ α β : Type}

/-- From `s` the program returns `a` and leaves `t`. -/
def Runs (m : Prog ε σ α) (s : σ) (a : α) (t : σ) : Prop := m.run.run s = (.ok a, t)

/-- From `s` the program stops with an error and leaves `t`. -/
def Fails (m : Prog ε σ α) (s : σ) (e : ε) (t : σ) : Prop := m.run.run s = (.error e, t)

theorem runs_or_fails (m : Prog ε σ α) (s : σ) : (∃ a t, Runs m s a t) ∨ ∃ e t, Fails m s e t := by
  cases h : m.run.run s with
  | mk r t =>
    cases r with
    | ok a => exact Or.inl ⟨a, t, h⟩
    | error e => exact Or.inr ⟨e, t, h⟩

@[simp] theorem runs_pure {a b : α} {s t : σ} :
    Runs (pure a : Prog ε σ α) s b t ↔ b = a ∧ t = s := by
  constructor
  · intro h
    cases h
    exact ⟨rfl, rfl⟩
  · rintro ⟨rfl, rfl⟩
    rfl

@[simp] theorem runs_throw {e : ε} {a : α} {s t : σ} :
    ¬ Runs (throw e : Prog ε σ α) s a t := by
  intro h
  cases h

@[simp] theorem runs_get {a s t : σ} : Runs (get : Prog ε σ σ) s a t ↔ a = s ∧ t = s := by
  constructor
  · intro h
    cases h
    exact ⟨rfl, rfl⟩
  · rintro ⟨rfl, rfl⟩
    rfl

@[simp] theorem runs_modify {f : σ → σ} {a : PUnit} {s t : σ} :
    Runs (modify f : Prog ε σ PUnit) s a t ↔ t = f s := by
  constructor
  · intro h
    cases h
    rfl
  · rintro rfl
    rfl

@[simp] theorem fails_pure {a : α} {e : ε} {s t : σ} :
    ¬ Fails (pure a : Prog ε σ α) s e t := by
  intro h
  cases h

@[simp] theorem fails_throw {e e' : ε} {s t : σ} :
    Fails (throw e : Prog ε σ α) s e' t ↔ e' = e ∧ t = s := by
  constructor
  · intro h
    cases h
    exact ⟨rfl, rfl⟩
  · rintro ⟨rfl, rfl⟩
    rfl

@[simp] theorem fails_get {e : ε} {s t : σ} : ¬ Fails (get : Prog ε σ σ) s e t := by
  intro h
  cases h

@[simp] theorem fails_modify {f : σ → σ} {e : ε} {s t : σ} :
    ¬ Fails (modify f : Prog ε σ PUnit) s e t := by
  intro h
  cases h

theorem run_bind (m : Prog ε σ α) (f : α → Prog ε σ β) (s : σ) :
    (m >>= f).run.run s = match m.run.run s with
      | (.ok a, u) => (f a).run.run u
      | (.error e, u) => (.error e, u) := by
  simp only [ExceptT.run_bind, StateT.run_bind]
  cases m.run.run s with
  | mk r u => cases r <;> rfl

theorem runs_bind {m : Prog ε σ α} {f : α → Prog ε σ β} {s t : σ} {b : β} :
    Runs (m >>= f) s b t ↔ ∃ a u, Runs m s a u ∧ Runs (f a) u b t := by
  unfold Runs
  rw [run_bind]
  constructor
  · intro h
    cases hm : m.run.run s with
    | mk r u =>
      rw [hm] at h
      cases r with
      | ok a => exact ⟨a, u, rfl, h⟩
      | error e => cases h
  · rintro ⟨a, u, hm, hf⟩
    rw [hm]
    exact hf

theorem fails_bind {m : Prog ε σ α} {f : α → Prog ε σ β} {s t : σ} {e : ε} :
    Fails (m >>= f) s e t ↔ Fails m s e t ∨ ∃ a u, Runs m s a u ∧ Fails (f a) u e t := by
  unfold Runs Fails
  rw [run_bind]
  constructor
  · intro h
    cases hm : m.run.run s with
    | mk r u =>
      rw [hm] at h
      cases r with
      | ok a => exact Or.inr ⟨a, u, rfl, h⟩
      | error e' =>
        cases h
        exact Or.inl rfl
  · rintro (hm | ⟨a, u, hm, hf⟩)
    · rw [hm]
    · rw [hm]
      exact hf

theorem run_tryCatch (m : Prog ε σ α) (f : ε → Prog ε σ α) (s : σ) :
    (tryCatch m f).run.run s = match m.run.run s with
      | (.ok a, u) => (.ok a, u)
      | (.error e, u) => (f e).run.run u := by
  change (StateT.run (ExceptT.run m >>= fun r => match r with
    | .ok a => pure (.ok a)
    | .error e => ExceptT.run (f e)) s) = _
  rw [StateT.run_bind]
  cases m.run.run s with
  | mk r u => cases r <;> rfl

/-- A guarded program returns as the first attempt or as the handler after its failure. -/
theorem runs_tryCatch {m : Prog ε σ α} {f : ε → Prog ε σ α} {s t : σ} {a : α} :
    Runs (tryCatch m f) s a t ↔ Runs m s a t ∨ ∃ e u, Fails m s e u ∧ Runs (f e) u a t := by
  unfold Runs Fails
  rw [run_tryCatch]
  cases hm : m.run.run s with
  | mk r u =>
    cases r with
    | ok a =>
      constructor
      · exact Or.inl
      · rintro (h | ⟨e, v, he, -⟩)
        · exact h
        · cases he
    | error e =>
      constructor
      · intro h
        exact Or.inr ⟨e, u, rfl, h⟩
      · rintro (h | ⟨e', v, he, h⟩)
        · cases h
        · cases he
          exact h

/-- A guarded program fails only if the handler does. -/
theorem fails_tryCatch {m : Prog ε σ α} {f : ε → Prog ε σ α} {s t : σ} {e : ε} :
    Fails (tryCatch m f) s e t ↔ ∃ e' u, Fails m s e' u ∧ Fails (f e') u e t := by
  unfold Fails
  rw [run_tryCatch]
  cases hm : m.run.run s with
  | mk r u =>
    cases r with
    | ok a =>
      constructor
      · intro h
        cases h
      · rintro ⟨e', v, he, -⟩
        cases he
    | error e' =>
      constructor
      · intro h
        exact ⟨e', u, rfl, h⟩
      · rintro ⟨e'', v, he, h⟩
        cases he
        exact h

theorem runs_forM_cons {f : α → Prog ε σ PUnit} {a : α} {l : List α} {s t : σ} {u : PUnit} :
    Runs ((a :: l).forM f) s u t ↔ ∃ v, Runs (f a) s ⟨⟩ v ∧ Runs (l.forM f) v u t := by
  have hcons : (a :: l).forM f = f a >>= fun _ => l.forM f := rfl
  rw [hcons, runs_bind]
  constructor
  · rintro ⟨x, v, ha, hl⟩
    exact ⟨v, ha, hl⟩
  · rintro ⟨v, ha, hl⟩
    exact ⟨_, v, ha, hl⟩

/-- What every round of a loop that returns keeps, the loop keeps. -/
theorem runs_forM_keeps {R : σ → σ → Prop} {f : α → Prog ε σ PUnit} {l : List α} {s t : σ}
    {u : PUnit} (refl : ∀ s, R s s) (trans : ∀ {s t v}, R s t → R t v → R s v)
    (step : ∀ a ∈ l, ∀ s t, Runs (f a) s ⟨⟩ t → R s t) (h : Runs (l.forM f) s u t) : R s t := by
  induction l generalizing s with
  | nil =>
    obtain ⟨-, rfl⟩ := runs_pure.mp h
    exact refl _
  | cons a l ih =>
    obtain ⟨v, ha, hl⟩ := runs_forM_cons.mp h
    exact trans (step a List.mem_cons_self s v ha)
      (ih (fun b hb => step b (List.mem_cons_of_mem _ hb)) hl)

section Meets
variable {P P' : σ → Prop} {Q Q' : α → σ → Prop} {R : β → σ → Prop} {E E' : σ → Prop}

/-- From a state with `P` the program returns with `Q` or stops with `E`. -/
def Meets (P : σ → Prop) (m : Prog ε σ α) (Q : α → σ → Prop) (E : σ → Prop) : Prop :=
  ∀ s, P s → (∀ a t, Runs m s a t → Q a t) ∧ ∀ e t, Fails m s e t → E t

theorem Meets.weaken {m : Prog ε σ α} (h : Meets P m Q E) (hp : ∀ s, P' s → P s)
    (hq : ∀ a s, Q a s → Q' a s) (he : ∀ s, E s → E' s) : Meets P' m Q' E' := by
  intro s hs
  obtain ⟨hr, hf⟩ := h s (hp s hs)
  exact ⟨fun a t ht => hq a t (hr a t ht), fun e t ht => he t (hf e t ht)⟩

theorem meets_pure {a : α} (h : ∀ s, P s → Q a s) : Meets P (pure a : Prog ε σ α) Q E := by
  intro s hs
  constructor
  · intro b t hr
    obtain ⟨rfl, rfl⟩ := runs_pure.mp hr
    exact h t hs
  · intro e t hf
    exact absurd hf fails_pure

theorem meets_throw {e : ε} (h : ∀ s, P s → E s) : Meets P (throw e : Prog ε σ α) Q E := by
  intro s hs
  constructor
  · intro a t hr
    exact absurd hr runs_throw
  · intro e' t hf
    obtain ⟨-, rfl⟩ := fails_throw.mp hf
    exact h t hs

theorem meets_modify {f : σ → σ} {Q : PUnit → σ → Prop} (h : ∀ s, P s → Q ⟨⟩ (f s)) :
    Meets P (modify f : Prog ε σ PUnit) Q E := by
  intro s hs
  constructor
  · intro a t hr
    obtain rfl := runs_modify.mp hr
    exact h s hs
  · intro e t hf
    exact absurd hf fails_modify

theorem meets_bind {m : Prog ε σ α} {f : α → Prog ε σ β} (hm : Meets P m Q E)
    (hf : ∀ a, Meets (Q a) (f a) R E) : Meets P (m >>= f) R E := by
  intro s hs
  obtain ⟨hreturn, hstop⟩ := hm s hs
  constructor
  · intro b t hr
    obtain ⟨a, u, hma, hfa⟩ := runs_bind.mp hr
    exact (hf a u (hreturn a u hma)).1 b t hfa
  · intro e t hr
    rcases fails_bind.mp hr with hme | ⟨a, u, hma, hfa⟩
    · exact hstop e t hme
    · exact (hf a u (hreturn a u hma)).2 e t hfa

/-- A composition whose first result is not used. -/
theorem meets_then {m : Prog ε σ α} {k : Prog ε σ β} (between : σ → Prop)
    (hm : Meets P m (fun _ => between) E) (hk : Meets between k R E) :
    Meets P (m >>= fun _ => k) R E := meets_bind hm fun _ => hk

/-- What follows a read may use all that is known of the state. -/
theorem meets_get_bind {f : σ → Prog ε σ β}
    (h : ∀ s, P s → Meets (· = s) (f s) R E) : Meets P (get >>= f) R E := by
  intro s hs
  constructor
  · intro b t hr
    obtain ⟨a, u, hg, hf⟩ := runs_bind.mp hr
    obtain ⟨rfl, rfl⟩ := runs_get.mp hg
    exact (h u hs u rfl).1 b t hf
  · intro e t hr
    rcases fails_bind.mp hr with hg | ⟨a, u, hg, hf⟩
    · exact absurd hg fails_get
    · obtain ⟨rfl, rfl⟩ := runs_get.mp hg
      exact (h u hs u rfl).2 e t hf

theorem meets_tryCatch {m : Prog ε σ α} {f : ε → Prog ε σ α} (hm : Meets P m Q E')
    (hf : ∀ e, Meets E' (f e) Q E) : Meets P (tryCatch m f) Q E := by
  intro s hs
  obtain ⟨hreturn, hstop⟩ := hm s hs
  constructor
  · intro a t hr
    rcases runs_tryCatch.mp hr with hma | ⟨e, u, hme, hfa⟩
    · exact hreturn a t hma
    · exact (hf e u (hstop e u hme)).1 a t hfa
  · intro e t hr
    obtain ⟨e', u, hme, hfe⟩ := fails_tryCatch.mp hr
    exact (hf e' u (hstop e' u hme)).2 e t hfe

/-- A loop whose rounds move an invariant on by one element. -/
theorem meets_forM {f : α → Prog ε σ PUnit} {l : List α} (I : List α → σ → Prop)
    (h : ∀ before a after, l = before ++ a :: after →
      Meets (I before) (f a) (fun _ => I (before ++ [a])) E) :
    Meets (I []) (l.forM f) (fun _ => I l) E := by
  suffices aux : ∀ before after, l = before ++ after →
      Meets (I before) (after.forM f) (fun _ => I l) E from aux [] l rfl
  intro before after
  induction after generalizing before with
  | nil =>
    intro hl
    rw [List.append_nil] at hl
    subst hl
    exact meets_pure fun _ hs => hs
  | cons a after ih =>
    intro hl
    refine meets_bind (h before a after hl) fun _ => ih (before ++ [a]) ?_
    rw [hl, List.append_assoc, List.singleton_append]

end Meets

end FallibleRuns
