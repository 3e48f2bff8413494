import Mathlib.Data.List.Nodup
import Mathlib.Logic.Function.Basic

/-! Names given out one after the other. The first request for a base gets the base itself, the
later ones get numbered names, which may be bases of others. -/
namespace Namesakes

variable {κ ρ : Type} (base : ρ → κ) (number : κ → ℕ → κ)

/-- The numbering starts with two. -/
def nameOf : ρ × ℕ → κ
  | (r, 0) => base r
  | (r, n + 1) => number (base r) (n + 2)

/-- No base that is asked for the first time is the numbered name of another request. -/
def Clear (rs : List (ρ × ℕ)) : Prop :=
  ∀ first ∈ rs, ∀ later ∈ rs, first.2 = 0 → later.2 ≠ 0 →
    base first.1 ≠ number (base later.1) (later.2 + 1)

instance [DecidableEq κ] (rs : List (ρ × ℕ)) : Decidable (Clear base number rs) :=
  inferInstanceAs (Decidable (∀ first ∈ rs, ∀ later ∈ rs, _ → _ → _))

variable {base number}

theorem nameOf_ne (hnumber : ∀ b n b' n', number b n = number b' n' → b = b' ∧ n = n')
    {r r' : ρ × ℕ} (hrank : base r.1 = base r'.1 → r.2 ≠ r'.2)
    (hclear : r.2 = 0 → r'.2 ≠ 0 → base r.1 ≠ number (base r'.1) (r'.2 + 1))
    (hclear' : r'.2 = 0 → r.2 ≠ 0 → base r'.1 ≠ number (base r.1) (r.2 + 1)) :
    nameOf base number r ≠ nameOf base number r' := by
  obtain ⟨r, n⟩ := r
  obtain ⟨r', n'⟩ := r'
  cases n with
  | zero =>
    cases n' with
    | zero => exact fun heq => hrank heq rfl
    | succ n' => exact hclear rfl (Nat.succ_ne_zero n')
  | succ n =>
    cases n' with
    | zero => exact fun heq => hclear' rfl (Nat.succ_ne_zero n) heq.symm
    | succ n' =>
      intro heq
      obtain ⟨hbase, hn⟩ := hnumber _ _ _ _ heq
      exact hrank hbase (Nat.succ.inj hn)

section Ranks
variable [DecidableEq κ]

def counted (counts : κ → ℕ) (b : κ) : κ → ℕ := Function.update counts b (counts b + 1)

variable (base) in
def ranked : (κ → ℕ) → List ρ → List (ρ × ℕ)
  | _, [] => []
  | counts, r :: rs => (r, counts (base r)) :: ranked (counted counts (base r)) rs

variable {counts : κ → ℕ} {rs : List ρ}

theorem ranked_append (counts : κ → ℕ) (rs more : List ρ) :
    ranked base counts (rs ++ more) =
      ranked base counts rs ++
        ranked base (rs.foldl (fun counts r => counted counts (base r)) counts) more := by
  induction rs generalizing counts with
  | nil => rfl
  | cons r rs ih =>
    rw [List.cons_append, ranked, ih]
    rfl

theorem mem_of_mem_ranked {r : ρ × ℕ} (h : r ∈ ranked base counts rs) : r.1 ∈ rs := by
  induction rs generalizing counts with
  | nil => cases h
  | cons first rs ih =>
    cases List.mem_cons.mp h with
    | inl heq =>
      rw [heq]
      exact List.mem_cons_self
    | inr hrest => exact List.mem_cons_of_mem _ (ih hrest)

theorem le_rank {r : ρ × ℕ} (h : r ∈ ranked base counts rs) : counts (base r.1) ≤ r.2 := by
  induction rs generalizing counts with
  | nil => cases h
  | cons first rs ih =>
    cases List.mem_cons.mp h with
    | inl heq =>
      obtain rfl := heq
      exact Nat.le_refl _
    | inr hrest =>
      have hle := ih hrest
      by_cases hbase : base r.1 = base first
      · rw [counted, hbase, Function.update_self, ← hbase] at hle
        omega
      · rwa [counted, Function.update_of_ne hbase] at hle

theorem ranked_pairwise (counts : κ → ℕ) (rs : List ρ) :
    (ranked base counts rs).Pairwise fun before after =>
      base before.1 = base after.1 → before.2 < after.2 := by
  induction rs generalizing counts with
  | nil => exact List.Pairwise.nil
  | cons r rs ih =>
    rw [ranked, List.pairwise_cons]
    refine ⟨?_, ih _⟩
    intro after hafter hbase
    have hle := le_rank hafter
    rw [← hbase, counted, Function.update_self] at hle
    exact hle

/-- The names of some of the requests are pairwise distinct exactly if these are clear. -/
theorem names_nodup_iff (hnumber : ∀ b n b' n', number b n = number b' n' → b = b' ∧ n = n')
    (counts : κ → ℕ) (rs : List ρ) (chosen : ρ → Bool) :
    (((ranked base counts rs).filter fun r => chosen r.1).map (nameOf base number)).Nodup ↔
      Clear base number ((ranked base counts rs).filter fun r => chosen r.1) := by
  have hpairwise := (@ranked_pairwise _ _ base _ counts rs).filter fun r => chosen r.1
  constructor
  · intro hnodup first hfirst later hlater hzero hrank heq
    have hname : nameOf base number first = nameOf base number later := by
      obtain ⟨first, n⟩ := first
      obtain ⟨later, n'⟩ := later
      obtain ⟨n', rfl⟩ := Nat.exists_eq_succ_of_ne_zero hrank
      cases (hzero : n = 0)
      exact heq
    have hsame := List.inj_on_of_nodup_map hnodup hfirst hlater hname
    rw [hsame] at hzero
    exact hrank hzero
  · intro hclear
    rw [List.Nodup, List.pairwise_map]
    apply hpairwise.imp_of_mem
    intro r r' hr hr' hrank
    exact nameOf_ne hnumber (fun hbase => Nat.ne_of_lt (hrank hbase)) (hclear r hr r' hr')
      (hclear r' hr' r hr)

end Ranks

end Namesakes
