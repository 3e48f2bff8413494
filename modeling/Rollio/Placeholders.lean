import Mathlib.Data.List.Basic

/-! Substitution of placeholders in a text. The leftmost placeholder is replaced first, and
what replaced it is not looked at again. -/
namespace Placeholders

variable {α : Type} [DecidableEq α]

def markAt : List (List α × List α) → List α → Option (List α × List α)
  | [], _ => none
  | mark :: marks, text => if mark.1.isPrefixOf text then some mark else markAt marks text

/-- `skip` symbols belong to the placeholder that has just been replaced. -/
def substituteFrom (marks : List (List α × List α)) : ℕ → List α → List α
  | _, [] => []
  | skip + 1, _ :: rest => substituteFrom marks skip rest
  | 0, a :: rest =>
    match markAt marks (a :: rest) with
    | some mark => mark.2 ++ substituteFrom marks (mark.1.length - 1) rest
    | none => a :: substituteFrom marks 0 rest

def substitute (marks : List (List α × List α)) (text : List α) : List α :=
  substituteFrom marks 0 text

def OpenWith (opening : α) (marks : List (List α × List α)) : Prop :=
  ∀ mark ∈ marks, mark.1.head? = some opening

variable {marks : List (List α × List α)} {opening separator : α} {text a b : List α}

theorem markAt_some {mark : List α × List α} (h : markAt marks text = some mark) :
    mark ∈ marks ∧ mark.1 <+: text := by
  induction marks with
  | nil => cases h
  | cons first marks ih =>
    rw [markAt] at h
    split at h
    · next hp =>
      obtain rfl := Option.some.inj h
      exact ⟨List.mem_cons_self, List.isPrefixOf_iff_prefix.mp hp⟩
    · obtain ⟨hm, hp⟩ := ih h
      exact ⟨List.mem_cons_of_mem _ hm, hp⟩

theorem markAt_other {c : α} (ho : OpenWith opening marks) (hc : c ≠ opening) :
    markAt marks (c :: text) = none := by
  cases hm : markAt marks (c :: text) with
  | none => rfl
  | some mark =>
    obtain ⟨hmem, tail, htail⟩ := markAt_some hm
    have hhead := congrArg List.head? htail
    rw [List.head?_append, ho mark hmem] at hhead
    exact absurd (Option.some.inj hhead).symm hc

theorem markAt_congr {text' : List α}
    (h : ∀ mark ∈ marks, (mark.1 <+: text ↔ mark.1 <+: text')) :
    markAt marks text = markAt marks text' := by
  induction marks with
  | nil => rfl
  | cons first marks ih =>
    have hfirst : first.1.isPrefixOf text = first.1.isPrefixOf text' := by
      rw [Bool.eq_iff_iff, List.isPrefixOf_iff_prefix, List.isPrefixOf_iff_prefix]
      exact h first List.mem_cons_self
    rw [markAt, markAt, hfirst, ih fun mark hm => h mark (List.mem_cons_of_mem _ hm)]

/-- A text without the opening symbol has no placeholder. -/
theorem substitute_plain (ho : OpenWith opening marks) (h : opening ∉ text) :
    substitute marks text = text := by
  induction text with
  | nil => rfl
  | cons c rest ih =>
    rw [List.mem_cons, not_or] at h
    rw [substitute, substituteFrom, markAt_other ho (Ne.symm h.1)]
    exact congrArg (c :: ·) (ih h.2)

omit [DecidableEq α] in
/-- A word without the separator ends before it. -/
theorem prefix_before_separator {l : List α} (hs : separator ∉ l) :
    l <+: a ++ separator :: b ↔ l <+: a := by
  constructor
  · intro h
    have hhead : a ++ [separator] <+: a ++ separator :: b := ⟨b, by simp⟩
    rcases List.prefix_or_prefix_of_prefix h hhead with h' | h'
    · rcases List.prefix_concat_iff.mp h' with rfl | h'
      · exact absurd (by simp) hs
      · exact h'
    · exact absurd (h'.subset (by simp)) hs
  · intro h
    exact h.trans (List.prefix_append _ _)

/-- No placeholder reaches across a separator that occurs in none. -/
theorem substituteFrom_separator (ho : OpenWith opening marks) (hne : separator ≠ opening)
    (hs : ∀ mark ∈ marks, separator ∉ mark.1) {skip : ℕ} (hk : skip ≤ a.length) :
    substituteFrom marks skip (a ++ separator :: b) =
      substituteFrom marks skip a ++ separator :: substitute marks b := by
  induction a generalizing skip with
  | nil =>
    obtain rfl := Nat.le_zero.mp hk
    simp only [List.nil_append, substituteFrom, markAt_other ho hne]
    rfl
  | cons c rest ih =>
    cases skip with
    | succ skip =>
      simp only [List.cons_append, substituteFrom]
      exact ih (by simpa using hk)
    | zero =>
      have hmark : markAt marks (c :: (rest ++ separator :: b)) = markAt marks (c :: rest) := by
        apply markAt_congr
        intro mark hm
        rw [← List.cons_append]
        exact prefix_before_separator (hs mark hm)
      simp only [List.cons_append, substituteFrom, hmark]
      cases hm : markAt marks (c :: rest) with
      | none => exact congrArg (c :: ·) (ih (Nat.zero_le _))
      | some mark =>
        have hlen := (markAt_some hm).2.length_le
        rw [List.length_cons] at hlen
        simp only [ih (show mark.1.length - 1 ≤ rest.length by omega), List.append_assoc]

theorem substitute_separator (ho : OpenWith opening marks) (hne : separator ≠ opening)
    (hs : ∀ mark ∈ marks, separator ∉ mark.1) :
    substitute marks (a ++ separator :: b) =
      substitute marks a ++ separator :: substitute marks b :=
  substituteFrom_separator ho hne hs (Nat.zero_le _)

end Placeholders
