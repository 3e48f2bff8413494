import Mathlib.Logic.Function.Basic
import Mathlib.Data.List.Basic

/-! Topics that keep their latest unread message, and what a reader of several topics executes
while it stays in one mode: messages published since, in the order of their publication. -/
namespace Mailboxes

variable {τ γ : Type*} [DecidableEq τ]

structure Post (γ : Type*) where
  stamp : ℕ
  message : γ
  deriving DecidableEq

structure Boxes (τ γ : Type*) where
  clock : ℕ := 0
  unread : τ → Option (Post γ) := fun _ => none

/-- A new message takes the place of an unread one of its topic. -/
def Boxes.publish (topic : γ → τ) (b : Boxes τ γ) (m : γ) : Boxes τ γ :=
  { clock := b.clock + 1
    unread := Function.update b.unread (topic m) (some { stamp := b.clock, message := m }) }

def Boxes.publishAll (topic : γ → τ) (b : Boxes τ γ) (ms : List γ) : Boxes τ γ :=
  ms.foldl (Boxes.publish topic) b

def Boxes.poll (b : Boxes τ γ) (t : τ) : Boxes τ γ :=
  { b with unread := Function.update b.unread t none }

/-- Topics are polled in turn until one has a wanted message; what is published before a poll is
listed with its topic. -/
def Boxes.readFirst (topic : γ → τ) (wanted : γ → Bool) :
    Boxes τ γ → List (τ × List γ) → Boxes τ γ × Option (Post γ)
  | b, [] => (b, none)
  | b, (t, arrivals) :: rest =>
    let b := b.publishAll topic arrivals
    match b.unread t with
    | none => (b.poll t).readFirst topic wanted rest
    | some p =>
      if wanted p.message then (b.poll t, some p) else (b.poll t).readFirst topic wanted rest

/-- A stay in a mode: when it began, and the stamps of what was executed in it, newest first. -/
structure Stay where
  since : ℕ := 0
  executed : List ℕ := []
  deriving DecidableEq

def Stay.execute (s : Stay) (p : Option (Post γ)) : Stay :=
  match p with
  | some p => { s with executed := p.stamp :: s.executed }
  | none => s

/-- What a stay should be: nothing from before it is executed, and nothing after something newer. -/
def Stay.Lawful (s : Stay) : Prop :=
  (∀ n ∈ s.executed, s.since ≤ n) ∧ s.executed.Pairwise (· > ·)

/-- When a message is read, none published before it is left unread. -/
def NothingOlder (b : Boxes τ γ) (p : Option (Post γ)) : Prop :=
  ∀ q ∈ p, ∀ t older, b.unread t = some older → q.stamp < older.stamp

/-- A message that may still be executed. -/
def Admissible (clock : ℕ) (s : Stay) (p : Post γ) : Prop :=
  s.since ≤ p.stamp ∧ p.stamp < clock ∧ ∀ n ∈ s.executed, n < p.stamp

/-- Whatever is unread may still be executed. -/
structure Fresh (b : Boxes τ γ) (s : Stay) : Prop where
  begun : s.since ≤ b.clock
  executed : ∀ n ∈ s.executed, s.since ≤ n ∧ n < b.clock
  ordered : s.executed.Pairwise (· > ·)
  unread : ∀ t p, b.unread t = some p → Admissible b.clock s p

variable {topic : γ → τ} {wanted : γ → Bool} {b : Boxes τ γ} {s : Stay}

@[simp] theorem publish_self (b : Boxes τ γ) (m : γ) :
    (b.publish topic m).unread (topic m) = some { stamp := b.clock, message := m } :=
  Function.update_self ..

theorem publish_of_ne (b : Boxes τ γ) {m : γ} {t : τ} (h : t ≠ topic m) :
    (b.publish topic m).unread t = b.unread t := Function.update_of_ne h ..

@[simp] theorem poll_self (b : Boxes τ γ) (t : τ) : (b.poll t).unread t = none :=
  Function.update_self ..

theorem poll_of_ne (b : Boxes τ γ) {t u : τ} (h : u ≠ t) : (b.poll t).unread u = b.unread u :=
  Function.update_of_ne h ..

omit [DecidableEq τ] in
theorem fresh_begin (h : ∀ t, b.unread t = none) : Fresh b { since := b.clock } := by
  constructor
  · exact Nat.le_refl _
  · intro n hn
    cases hn
  · exact List.Pairwise.nil
  · intro t p hp
    rw [h t] at hp
    cases hp

omit [DecidableEq τ] in
theorem Fresh.lawful (h : Fresh b s) : s.Lawful :=
  ⟨fun n hn => (h.executed n hn).1, h.ordered⟩

theorem Fresh.publish (h : Fresh b s) (m : γ) : Fresh (b.publish topic m) s := by
  constructor
  · exact Nat.le_succ_of_le h.begun
  · intro n hn
    exact ⟨(h.executed n hn).1, Nat.lt_succ_of_lt (h.executed n hn).2⟩
  · exact h.ordered
  · intro t p hp
    by_cases ht : t = topic m
    · rw [ht, publish_self] at hp
      cases hp
      exact ⟨h.begun, Nat.lt_succ_self _, fun n hn => (h.executed n hn).2⟩
    · rw [publish_of_ne b ht] at hp
      obtain ⟨hsince, hclock, hnewer⟩ := h.unread t p hp
      exact ⟨hsince, Nat.lt_succ_of_lt hclock, hnewer⟩

theorem Fresh.publishAll (h : Fresh b s) (ms : List γ) : Fresh (b.publishAll topic ms) s := by
  induction ms generalizing b with
  | nil => exact h
  | cons m ms ih => exact ih (h.publish m)

theorem Fresh.poll (h : Fresh b s) (t : τ) : Fresh (b.poll t) s := by
  refine ⟨h.begun, h.executed, h.ordered, ?_⟩
  intro u p hp
  by_cases hu : u = t
  · rw [hu, poll_self] at hp
    cases hp
  · rw [poll_of_ne b hu] at hp
    exact h.unread u p hp

theorem Fresh.readFirst (h : Fresh b s) (polls : List (τ × List γ)) :
    Fresh (b.readFirst topic wanted polls).1 s ∧
      ∀ p ∈ (b.readFirst topic wanted polls).2,
        Admissible (b.readFirst topic wanted polls).1.clock s p := by
  induction polls generalizing b with
  | nil => exact ⟨h, by rintro p ⟨⟩⟩
  | cons poll polls ih =>
    obtain ⟨t, arrivals⟩ := poll
    have harrived : Fresh (b.publishAll topic arrivals) s := h.publishAll arrivals
    simp only [Boxes.readFirst]
    cases hp : (b.publishAll topic arrivals).unread t with
    | none => exact ih (harrived.poll t)
    | some p =>
      by_cases hw : wanted p.message = true
      · simp only [hw, if_true]
        refine ⟨harrived.poll t, ?_⟩
        intro q hq
        cases hq
        exact harrived.unread t p hp
      · simp only [hw]
        exact ih (harrived.poll t)

theorem readFirst_wanted {polls : List (τ × List γ)} {p : Post γ}
    (hp : p ∈ (b.readFirst topic wanted polls).2) : wanted p.message = true := by
  induction polls generalizing b with
  | nil => cases hp
  | cons poll polls ih =>
    obtain ⟨t, arrivals⟩ := poll
    simp only [Boxes.readFirst] at hp
    cases hq : (b.publishAll topic arrivals).unread t with
    | none =>
      rw [hq] at hp
      exact ih hp
    | some q =>
      simp only [hq] at hp
      by_cases hw : wanted q.message = true
      · rw [if_pos hw] at hp
        cases hp
        exact hw
      · rw [if_neg hw] at hp
        exact ih hp

omit [DecidableEq τ] in
/-- To execute a message keeps the boxes fresh when nothing older is left behind. -/
theorem Fresh.execute (h : Fresh b s) {p : Option (Post γ)}
    (hp : ∀ q ∈ p, Admissible b.clock s q) (holder : NothingOlder b p) :
    Fresh b (s.execute p) := by
  cases p with
  | none => exact h
  | some p =>
    obtain ⟨hsince, hclock, hnewer⟩ := hp p rfl
    constructor
    · exact h.begun
    · intro n hn
      rcases List.mem_cons.mp hn with rfl | hn
      · exact ⟨hsince, hclock⟩
      · exact h.executed n hn
    · exact List.pairwise_cons.mpr ⟨hnewer, h.ordered⟩
    · intro t q hq
      obtain ⟨hqsince, hqclock, hqnewer⟩ := h.unread t q hq
      refine ⟨hqsince, hqclock, ?_⟩
      intro n hn
      rcases List.mem_cons.mp hn with rfl | hn
      · exact holder p rfl t q hq
      · exact hqnewer n hn

end Mailboxes
