import Mathlib.Data.List.Nodup

/-! The first item of a list that meets a condition, changed in place. -/
namespace FirstMatch

variable {β γ : Type}

def modifyFirst (p : β → Bool) (f : β → β) : List β → List β
  | [] => []
  | b :: l => if p b then f b :: l else b :: modifyFirst p f l

theorem map_modifyFirst {p : β → Bool} {f : β → β} {g : β → γ} (hg : ∀ b, g (f b) = g b)
    (l : List β) : (modifyFirst p f l).map g = l.map g := by
  induction l with
  | nil => rfl
  | cons b l ih =>
    by_cases hb : p b
    · simp only [modifyFirst, hb, if_true, List.map_cons, hg]
    · simp only [modifyFirst, hb, if_false, List.map_cons, ih, Bool.false_eq_true]

/-- A change that leaves the first match as it is leaves the list as it is. -/
theorem modifyFirst_of_find? {p : β → Bool} {f : β → β} {l : List β}
    (h : ∀ b, l.find? p = some b → f b = b) : modifyFirst p f l = l := by
  induction l with
  | nil => rfl
  | cons b l ih =>
    by_cases hb : p b
    · rw [modifyFirst, if_pos hb, h b (List.find?_cons_of_pos hb)]
    · rw [modifyFirst, if_neg hb, ih fun c hc => h c ((List.find?_cons_of_neg hb).trans hc)]

theorem map_modifyFirst_eq {p : β → Bool} {f : β → β} {g : β → γ} {l : List β}
    (h : (modifyFirst p f l).map g = l.map g) :
    ∀ b, l.find? p = some b → g (f b) = g b := by
  intro b hb
  induction l with
  | nil => cases hb
  | cons c l ih =>
    by_cases hc : p c
    · rw [List.find?_cons_of_pos hc] at hb
      obtain rfl := Option.some.inj hb
      rw [modifyFirst, if_pos hc, List.map_cons, List.map_cons] at h
      exact (List.cons.inj h).1
    · rw [List.find?_cons_of_neg hc] at hb
      rw [modifyFirst, if_neg hc, List.map_cons, List.map_cons] at h
      exact ih (List.cons.inj h).2 hb

theorem modifyFirst_of_fixed {p : β → Bool} {f : β → β} {l : List β}
    (h : ∀ b ∈ l, p b → f b = b) : modifyFirst p f l = l :=
  modifyFirst_of_find? fun b hb => h b (List.mem_of_find?_eq_some hb) (List.find?_some hb)

theorem modifyFirst_modifyFirst {p : β → Bool} {f g : β → β} (hp : ∀ b, p (f b) = p b)
    (l : List β) : modifyFirst p g (modifyFirst p f l) = modifyFirst p (fun b => g (f b)) l := by
  induction l with
  | nil => rfl
  | cons b l ih =>
    by_cases hb : p b
    · simp only [modifyFirst, hb, if_true, hp]
    · simp only [modifyFirst, hb, Bool.false_eq_true, if_false, ih]

theorem modifyFirst_keyed [DecidableEq γ] {key : β → γ} {k : γ} {f : β → β} {l : List β}
    (hn : (l.map key).Nodup) :
    modifyFirst (fun b => key b == k) f l = l.map fun b => if key b = k then f b else b := by
  induction l with
  | nil => rfl
  | cons b l ih =>
    rw [List.map_cons, List.nodup_cons] at hn
    by_cases hb : key b = k
    · have hrest : l.map (fun b => if key b = k then f b else b) = l := by
        conv_rhs => rw [← List.map_id l]
        apply List.map_congr_left
        intro c hc
        have hne : key c ≠ k := fun he => hn.1 (hb ▸ he ▸ List.mem_map_of_mem hc)
        rw [if_neg hne]
        rfl
      rw [modifyFirst, if_pos (by simpa using hb), List.map_cons, if_pos hb, hrest]
    · rw [modifyFirst, if_neg (by simpa using hb), List.map_cons, if_neg hb, ih hn.2]

/-- Items of a list whose keys are distinct have different keys at different places. -/
theorem key_ne {key : β → γ} {l : List β} {i j : ℕ} {a b : β}
    (hn : (l.map key).Nodup) (ha : l[i]? = some a) (hb : l[j]? = some b) (hij : i ≠ j) :
    key a ≠ key b := by
  intro h
  apply hij
  have hlt : i < (l.map key).length := by
    rw [List.length_map]
    exact (List.getElem?_eq_some_iff.mp ha).1
  apply (List.getElem?_inj hlt hn).mp
  rw [List.getElem?_map, List.getElem?_map, ha, hb, Option.map_some, Option.map_some, h]

theorem modify_keyed [DecidableEq γ] {key : β → γ} {l : List β} {i : ℕ} {a : β}
    (hn : (l.map key).Nodup) (ha : l[i]? = some a) (f : β → β) :
    l.modify i f = l.map fun b => if key b = key a then f b else b := by
  apply List.ext_getElem?
  intro j
  rw [List.getElem?_modify, List.getElem?_map]
  by_cases hij : i = j
  · subst hij
    simp [ha]
  · cases hb : l[j]? with
    | none => rfl
    | some b => simp [hij, (key_ne hn ha hb hij).symm]

theorem any_keyed [BEq γ] [LawfulBEq γ] {key : β → γ} {l : List β} {a : β}
    (hn : (l.map key).Nodup) (ha : a ∈ l) (q : β → Bool) :
    (l.any fun b => key b == key a && q b) = q a := by
  rw [Bool.eq_iff_iff, List.any_eq_true]
  constructor
  · rintro ⟨b, hb, hq⟩
    rw [Bool.and_eq_true, beq_iff_eq] at hq
    obtain rfl := List.inj_on_of_nodup_map hn hb ha hq.1
    exact hq.2
  · intro hq
    exact ⟨a, ha, by rw [beq_self_eq_true, Bool.true_and, hq]⟩

theorem findIdx?_modifyFirst {p q : β → Bool} {f : β → β} (hp : ∀ b, p (f b) = p b) (l : List β) :
    (modifyFirst q f l).findIdx? p = l.findIdx? p := by
  induction l with
  | nil => rfl
  | cons b l ih =>
    by_cases hb : q b
    · simp only [modifyFirst, hb, if_true, List.findIdx?_cons, hp]
    · simp only [modifyFirst, hb, Bool.false_eq_true, if_false, List.findIdx?_cons, ih]

theorem find?_modifyFirst {p : β → Bool} {f : β → β} (hp : ∀ b, p (f b) = p b) (l : List β) :
    (modifyFirst p f l).find? p = (l.find? p).map f := by
  induction l with
  | nil => rfl
  | cons b l ih =>
    by_cases hb : p b
    · rw [modifyFirst, if_pos hb, List.find?_cons_of_pos ((hp b).trans hb),
        List.find?_cons_of_pos hb, Option.map_some]
    · rw [modifyFirst, if_neg hb, List.find?_cons_of_neg hb, List.find?_cons_of_neg hb, ih]

/-- A change of what another condition does not match is not seen by that condition. -/
theorem find?_modifyFirst_of_unmatched {p q : β → Bool} {f : β → β}
    (h : ∀ b, p b → q b = false ∧ q (f b) = false) (l : List β) :
    (modifyFirst p f l).find? q = l.find? q := by
  induction l with
  | nil => rfl
  | cons b l ih =>
    by_cases hb : p b
    · rw [modifyFirst, if_pos hb, List.find?_cons_of_neg (by simp [(h b hb).2]),
        List.find?_cons_of_neg (by simp [(h b hb).1])]
    · rw [modifyFirst, if_neg hb]
      by_cases hq : q b
      · rw [List.find?_cons_of_pos hq, List.find?_cons_of_pos hq]
      · rw [List.find?_cons_of_neg hq, List.find?_cons_of_neg hq, ih]

theorem getElem?_modifyFirst {p : β → Bool} {f : β → β} (l : List β) (i : ℕ) :
    (modifyFirst p f l)[i]? = if l.findIdx? p = some i then l[i]?.map f else l[i]? := by
  induction l generalizing i with
  | nil => simp [modifyFirst]
  | cons b l ih =>
    by_cases hb : p b
    · cases i with
      | zero => simp [modifyFirst, hb, List.findIdx?_cons]
      | succ i => simp [modifyFirst, hb, List.findIdx?_cons]
    · cases i with
      | zero => simp [modifyFirst, hb, List.findIdx?_cons]
      | succ i => simp [modifyFirst, hb, List.findIdx?_cons, ih]

end FirstMatch
