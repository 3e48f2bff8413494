import Rollio.TerminatingRuns
import Mathlib.Algebra.Order.Group.Nat

/-! How the controller brings its children down: it waits, asks with SIGTERM, waits again and kills.
The children run beside it and may exit between any two of its steps. Times are nanoseconds. -/
namespace ChildProcesses
open TerminatingRuns

inductive Signal where
  | sigterm
  | sigkill
  deriving DecidableEq, Repr

structure Child where
  exitedAt : Option ℕ := none
  reaped : Bool := false
  signals : List (Signal × ℕ) := []
  deriving DecidableEq, Repr

inductive Stage where
  | untilDeadline
  | untilGrace
  deriving DecidableEq, Repr

inductive Phase where
  | looking (stage : Stage) (deadline : ℕ) (i remainingChildren : ℕ)
  | pausing (stage : Stage) (deadline wake : ℕ)
  | requesting (i : ℕ)
  | terminating (i : ℕ)
  | killing (i : ℕ)
  | striking (i : ℕ)
  | waiting (i : ℕ)
  | returned (ok : Bool)
  deriving DecidableEq, Repr

/-- `due` is when the parent takes its next step at the latest. -/
structure State where
  now : ℕ
  due : ℕ
  children : ℕ → Child
  phase : Phase

/-- The seconds of a duration are a `u64`. -/
def checkedMul (d : ℕ) (k : ℕ) : Option ℕ :=
  if d * k / 1000000000 < 2 ^ 64 then some (d * k) else none

def terminateGrace (pollInterval : ℕ) : ℕ :=
  max ((checkedMul pollInterval 5).getD pollInterval) 2000000000

def Child.tryWait (c : Child) : Child := { c with reaped := c.reaped || c.exitedAt.isSome }

def Child.signal (c : Child) (signal : Signal) (now : ℕ) : Child :=
  { c with signals := c.signals ++ [(signal, now)] }

def State.exit (s : State) (i : ℕ) : State :=
  { s with children := Function.update s.children i { s.children i with exitedAt := some s.now } }

section Terminate
variable (n : ℕ) (pollInterval slack : ℕ)

def endRound (s : State) (stage : Stage) (deadline : ℕ) (remainingChildren : ℕ) : State :=
  if remainingChildren = 0 then { s with due := s.now, phase := .returned true }
  else if deadline ≤ s.now then
    { s with
      due := s.now + slack
      phase := match stage with
        | .untilDeadline => .requesting 0
        | .untilGrace => .killing 0 }
  else
    { s with
      due := s.now + pollInterval + slack
      phase := .pausing stage deadline (s.now + pollInterval) }

def look (s : State) (i : ℕ) (exited running : Phase) : State :=
  { s with
    due := s.now + slack
    children := Function.update s.children i (s.children i).tryWait
    phase := if (s.children i).exitedAt.isSome then exited else running }

def parentStep (s : State) : State :=
  match s.phase with
  | .looking stage deadline i remaining =>
    if i < n then
      look slack s i (.looking stage deadline (i + 1) remaining)
        (.looking stage deadline (i + 1) (remaining + 1))
    else endRound pollInterval slack s stage deadline remaining
  | .pausing stage deadline _ =>
    { s with due := s.now + slack, phase := .looking stage deadline 0 0 }
  | .requesting i =>
    if i < n then look slack s i (.requesting (i + 1)) (.terminating i)
    else { s with
      due := s.now + slack
      phase := .looking .untilGrace (s.now + terminateGrace pollInterval) 0 0 }
  | .terminating i =>
    { s with
      due := s.now + slack
      children := Function.update s.children i ((s.children i).signal .sigterm s.now)
      phase := .requesting (i + 1) }
  | .killing i =>
    if i < n then look slack s i (.killing (i + 1)) (.striking i)
    else { s with due := s.now, phase := .returned true }
  | .striking i =>
    { s with
      due := s.now + slack
      children := Function.update s.children i ((s.children i).signal .sigkill s.now)
      phase := .waiting i }
  | .waiting i =>
    look slack s i (.killing (i + 1)) (.waiting i)
  | .returned _ => s

def Ready (s : State) : Prop :=
  match s.phase with
  | .pausing _ _ wake => wake ≤ s.now
  | .waiting i => (s.children i).exitedAt.isSome = true
  | .returned _ => False
  | _ => True

instance (s : State) : Decidable (Ready s) := by
  unfold Ready
  split <;> infer_instance

def Phase.asks? : Phase → Option ℕ
  | .looking _ _ i _ | .requesting i | .killing i => if i < n then some i else none
  | _ => none

def Phase.over : Phase → Bool
  | .returned _ => true
  | _ => false

/-- One step of the parent, of a child or of the clock. The parent is late by `slack` at most, and
a child that was killed is gone within that time. -/
inductive Step : State → State → Prop where
  | parent {s : State} (h : Ready s) : Step s (parentStep n pollInterval slack s)
  | tryWaitFails {s : State} {i : ℕ} (h : s.phase.asks? n = some i)
      (hreaped : (s.children i).reaped = false) :
      Step s { s with due := s.now, phase := .returned false }
  | exit {s : State} {i : ℕ} (hrun : s.phase.over = false) (hi : i < n)
      (h : (s.children i).exitedAt = none) : Step s (s.exit i)
  | tick {s : State} (hrun : s.phase.over = false) (h : s.now < s.due) :
      Step s { s with now := s.now + 1 }

end Terminate

def start (slack timeout : ℕ) (now : ℕ) (children : ℕ → Child) : State where
  now := now
  due := now + slack
  children := children
  phase := .looking .untilDeadline (now + timeout) 0 0

def State.reap (s : State) (i : ℕ) : State :=
  { s with children := Function.update s.children i { s.children i with reaped := true } }

def State.send (s : State) (i : ℕ) (signal : Signal) : State :=
  { s with children := Function.update s.children i ((s.children i).signal signal s.now) }

def State.enter (s : State) (slack : ℕ) (phase : Phase) : State :=
  { s with due := s.now + slack, phase := phase }

section Moves
variable {n : ℕ} {pollInterval slack : ℕ} {s s' : State}

inductive Move (n : ℕ) (pollInterval slack : ℕ) (s : State) : State → Prop where
  | lookExited {stage : Stage} {deadline i remaining : ℕ}
      (hphase : s.phase = .looking stage deadline i remaining) (hi : i < n)
      (h : (s.children i).exitedAt.isSome = true) :
      Move n pollInterval slack s
        ((s.reap i).enter slack (.looking stage deadline (i + 1) remaining))
  | lookRunning {stage : Stage} {deadline i remaining : ℕ}
      (hphase : s.phase = .looking stage deadline i remaining) (hi : i < n)
      (h : (s.children i).exitedAt = none) :
      Move n pollInterval slack s
        (s.enter slack (.looking stage deadline (i + 1) (remaining + 1)))
  | allExited {stage : Stage} {deadline i : ℕ} (hphase : s.phase = .looking stage deadline i 0)
      (hi : n ≤ i) :
      Move n pollInterval slack s { s with due := s.now, phase := .returned true }
  | late {deadline i remaining : ℕ}
      (hphase : s.phase = .looking .untilDeadline deadline i remaining)
      (hi : n ≤ i) (h : deadline ≤ s.now) :
      Move n pollInterval slack s (s.enter slack (.requesting 0))
  | tooLate {deadline i remaining : ℕ}
      (hphase : s.phase = .looking .untilGrace deadline i remaining)
      (hi : n ≤ i) (h : deadline ≤ s.now) :
      Move n pollInterval slack s (s.enter slack (.killing 0))
  | pause {stage : Stage} {deadline i remaining : ℕ}
      (hphase : s.phase = .looking stage deadline i remaining) (hi : n ≤ i)
      (h : s.now < deadline) :
      Move n pollInterval slack s { s with
        due := s.now + pollInterval + slack
        phase := .pausing stage deadline (s.now + pollInterval) }
  | wake {stage : Stage} {deadline wake : ℕ} (hphase : s.phase = .pausing stage deadline wake)
      (h : wake ≤ s.now) :
      Move n pollInterval slack s (s.enter slack (.looking stage deadline 0 0))
  | requestExited {i : ℕ} (hphase : s.phase = .requesting i) (hi : i < n)
      (h : (s.children i).exitedAt.isSome = true) :
      Move n pollInterval slack s ((s.reap i).enter slack (.requesting (i + 1)))
  | requestRunning {i : ℕ} (hphase : s.phase = .requesting i) (hi : i < n)
      (h : (s.children i).exitedAt = none) :
      Move n pollInterval slack s (s.enter slack (.terminating i))
  | grant {i : ℕ} (hphase : s.phase = .requesting i) (hi : n ≤ i) :
      Move n pollInterval slack s
        (s.enter slack (.looking .untilGrace (s.now + terminateGrace pollInterval) 0 0))
  | terminate {i : ℕ} (hphase : s.phase = .terminating i) :
      Move n pollInterval slack s ((s.send i .sigterm).enter slack (.requesting (i + 1)))
  | killExited {i : ℕ} (hphase : s.phase = .killing i) (hi : i < n)
      (h : (s.children i).exitedAt.isSome = true) :
      Move n pollInterval slack s ((s.reap i).enter slack (.killing (i + 1)))
  | killRunning {i : ℕ} (hphase : s.phase = .killing i) (hi : i < n)
      (h : (s.children i).exitedAt = none) :
      Move n pollInterval slack s (s.enter slack (.striking i))
  | done {i : ℕ} (hphase : s.phase = .killing i) (hi : n ≤ i) :
      Move n pollInterval slack s { s with due := s.now, phase := .returned true }
  | strike {i : ℕ} (hphase : s.phase = .striking i) :
      Move n pollInterval slack s ((s.send i .sigkill).enter slack (.waiting i))
  | reaped {i : ℕ} (hphase : s.phase = .waiting i)
      (h : (s.children i).exitedAt.isSome = true) :
      Move n pollInterval slack s ((s.reap i).enter slack (.killing (i + 1)))

theorem look_exited {i : ℕ} {exited running : Phase}
    (h : (s.children i).exitedAt.isSome = true) :
    look slack s i exited running = (s.reap i).enter slack exited := by
  simp [look, State.reap, State.enter, Child.tryWait, h]

theorem look_running {i : ℕ} {exited running : Phase} (h : (s.children i).exitedAt = none) :
    look slack s i exited running = s.enter slack running := by
  have hsame : (s.children i).tryWait = s.children i := by
    cases hc : s.children i
    simp_all [Child.tryWait]
  simp [look, State.enter, h, hsame]

theorem exited_or_running (s : State) (i : ℕ) :
    (s.children i).exitedAt.isSome = true ∨ (s.children i).exitedAt = none := by
  cases (s.children i).exitedAt with
  | none => exact .inr rfl
  | some t => exact .inl rfl

theorem parentStep_move (h : Ready s) :
    Move n pollInterval slack s (parentStep n pollInterval slack s) := by
  unfold Ready at h
  unfold parentStep
  cases hphase : s.phase with
  | looking stage deadline i remaining =>
    dsimp only
    by_cases hi : i < n
    · rw [if_pos hi]
      rcases exited_or_running s i with hexited | hrunning
      · rw [look_exited hexited]
        exact .lookExited hphase hi hexited
      · rw [look_running hrunning]
        exact .lookRunning hphase hi hrunning
    · rw [if_neg hi]
      have hi := Nat.le_of_not_lt hi
      unfold endRound
      by_cases hzero : remaining = 0
      · subst hzero
        rw [if_pos rfl]
        exact .allExited hphase hi
      · rw [if_neg hzero]
        by_cases hlate : deadline ≤ s.now
        · rw [if_pos hlate]
          cases stage with
          | untilDeadline => exact .late hphase hi hlate
          | untilGrace => exact .tooLate hphase hi hlate
        · rw [if_neg hlate]
          exact .pause hphase hi (Nat.lt_of_not_le hlate)
  | pausing stage deadline wake =>
    rw [hphase] at h
    exact .wake hphase h
  | requesting i =>
    dsimp only
    by_cases hi : i < n
    · rw [if_pos hi]
      rcases exited_or_running s i with hexited | hrunning
      · rw [look_exited hexited]
        exact .requestExited hphase hi hexited
      · rw [look_running hrunning]
        exact .requestRunning hphase hi hrunning
    · rw [if_neg hi]
      exact .grant hphase (Nat.le_of_not_lt hi)
  | terminating i => exact .terminate hphase
  | killing i =>
    dsimp only
    by_cases hi : i < n
    · rw [if_pos hi]
      rcases exited_or_running s i with hexited | hrunning
      · rw [look_exited hexited]
        exact .killExited hphase hi hexited
      · rw [look_running hrunning]
        exact .killRunning hphase hi hrunning
    · rw [if_neg hi]
      exact .done hphase (Nat.le_of_not_lt hi)
  | striking i => exact .strike hphase
  | waiting i =>
    rw [hphase] at h
    dsimp only
    rw [look_exited h]
    exact .reaped hphase h
  | returned ok =>
    rw [hphase] at h
    exact h.elim

end Moves

section Signals
variable {n : ℕ} {pollInterval slack deadline grace now now' limit limit' : ℕ} {s s' : State}
  {c : Child} {children : ℕ → Child}

inductive Escalates (deadline grace : ℕ) : List (Signal × ℕ) → Prop where
  | spared : Escalates deadline grace []
  | asked {t : ℕ} (h : deadline ≤ t) : Escalates deadline grace [(.sigterm, t)]
  | killed {t t' : ℕ} (h : deadline ≤ t) (hgrace : t + grace ≤ t') :
      Escalates deadline grace [(.sigterm, t), (.sigkill, t')]

/-- A child's signals; one that exits before the deadline gets none, and one that exits within the
grace period is not killed. -/
structure Treated (deadline grace now : ℕ) (c : Child) : Prop where
  reaped : c.reaped = true → c.exitedAt.isSome = true
  escalates : Escalates deadline grace c.signals
  past : ∀ sent ∈ c.signals, sent.2 ≤ now
  inTime : ∀ e, c.exitedAt = some e → e < deadline → c.signals = []
  inGrace : ∀ e t t', c.exitedAt = some e → (.sigterm, t) ∈ c.signals →
    (.sigkill, t') ∈ c.signals → t + grace ≤ e

def Asked (grace limit : ℕ) (c : Child) : Prop :=
  c.signals = [] ∧ c.exitedAt.isSome = true ∨
    ∃ t, c.signals = [(.sigterm, t)] ∧ t + grace ≤ limit

theorem Asked.mono (h : Asked grace limit c) (hle : limit ≤ limit') : Asked grace limit' c := by
  rcases h with hgone | ⟨t, ht, hlimit⟩
  · exact .inl hgone
  · exact .inr ⟨t, ht, hlimit.trans hle⟩

theorem Asked.exit (h : Asked grace limit c) (e : ℕ) :
    Asked grace limit { c with exitedAt := some e } := by
  rcases h with ⟨hnone, -⟩ | hasked
  · exact .inl ⟨hnone, rfl⟩
  · exact .inr hasked

def Standing (deadline grace now : ℕ) (phase : Phase) (j : ℕ) (c : Child) : Prop :=
  match phase with
  | .looking .untilDeadline _ _ _ | .pausing .untilDeadline _ _ => c.signals = []
  | .requesting i => (j < i → Asked grace (now + grace) c) ∧ (i ≤ j → c.signals = [])
  | .terminating i =>
    (j < i → Asked grace (now + grace) c) ∧ (i ≤ j → c.signals = []) ∧
      (j = i → c.reaped = false ∧ ∀ e, c.exitedAt = some e → deadline ≤ e)
  | .looking .untilGrace limit _ _ | .pausing .untilGrace limit _ => Asked grace limit c
  | .killing i => i ≤ j → Asked grace now c
  | .striking i =>
    (i < j → Asked grace now c) ∧
      (j = i → c.reaped = false ∧ ∃ t, c.signals = [(.sigterm, t)] ∧ t + grace ≤ now ∧
        ∀ e, c.exitedAt = some e → t + grace ≤ e)
  | .waiting i => i < j → Asked grace now c
  | .returned _ => True

def OnTime (deadline now : ℕ) : Phase → Prop
  | .looking .untilDeadline limit _ _ | .pausing .untilDeadline limit _ => limit = deadline
  | .returned _ => True
  | _ => deadline ≤ now

structure Orderly (n deadline grace : ℕ) (s : State) : Prop where
  treated : ∀ j < n, Treated deadline grace s.now (s.children j)
  standing : ∀ j < n, Standing deadline grace s.now s.phase j (s.children j)
  onTime : OnTime deadline s.now s.phase

section Child

theorem Treated.mono (h : Treated deadline grace now c) (hle : now ≤ now') :
    Treated deadline grace now' c :=
  { h with past := fun sent hsent => (h.past sent hsent).trans hle }

theorem Treated.reap (h : Treated deadline grace now c) (hexited : c.exitedAt.isSome = true) :
    Treated deadline grace now { c with reaped := true } :=
  { h with reaped := fun _ => hexited }

/-- What was sent is sent after the deadline, and a kill a grace period after the request. -/
theorem Escalates.late {signals : List (Signal × ℕ)} (h : Escalates deadline grace signals)
    {sent : Signal × ℕ} (hsent : sent ∈ signals) : deadline ≤ sent.2 := by
  cases h with
  | spared => cases hsent
  | asked h =>
    rw [List.mem_singleton] at hsent
    rw [hsent]
    exact h
  | killed h hgrace =>
    rcases List.mem_cons.mp hsent with rfl | hsent
    · exact h
    · rw [List.mem_singleton] at hsent
      rw [hsent]
      exact h.trans (by omega)

theorem Escalates.grace_le {signals : List (Signal × ℕ)}
    (h : Escalates deadline grace signals) {t t' : ℕ} (hterm : (.sigterm, t) ∈ signals)
    (hkill : (.sigkill, t') ∈ signals) : t + grace ≤ t' := by
  cases h with
  | spared => cases hterm
  | asked h => simp at hkill
  | killed h hgrace =>
    simp only [List.mem_cons, Prod.mk.injEq, reduceCtorEq, false_and, true_and, List.not_mem_nil,
      or_false, false_or] at hterm hkill
    omega

theorem Treated.exit (h : Treated deadline grace now c) :
    Treated deadline grace now { c with exitedAt := some now } where
  reaped := fun _ => rfl
  escalates := h.escalates
  past := h.past
  inTime := by
    rintro e ⟨⟩ hearly
    by_contra hsignals
    obtain ⟨sent, hsent⟩ := List.exists_mem_of_ne_nil _ hsignals
    have hlate := h.escalates.late hsent
    have hpast := h.past sent hsent
    omega
  inGrace := by
    rintro e t t' ⟨⟩ hterm hkill
    have hgrace := h.escalates.grace_le hterm hkill
    have hpast := h.past _ hkill
    exact hgrace.trans hpast

theorem Treated.sigterm (h : Treated deadline grace now c) (hnone : c.signals = [])
    (hexit : ∀ e, c.exitedAt = some e → deadline ≤ e) (hlate : deadline ≤ now) :
    Treated deadline grace now (c.signal .sigterm now) where
  reaped := h.reaped
  escalates := by
    rw [Child.signal, hnone]
    exact .asked hlate
  past := by
    intro sent hsent
    rw [Child.signal, hnone, List.nil_append, List.mem_singleton] at hsent
    exact hsent ▸ Nat.le_refl now
  inTime := fun e he hearly => absurd (hexit e he) (Nat.not_le_of_lt hearly)
  inGrace := by
    intro e t t' _ _ hkill
    simp [Child.signal, hnone] at hkill

theorem Treated.sigkill {t : ℕ} (h : Treated deadline grace now c)
    (hasked : c.signals = [(.sigterm, t)]) (hlate : t + grace ≤ now)
    (hexit : ∀ e, c.exitedAt = some e → t + grace ≤ e) :
    Treated deadline grace now (c.signal .sigkill now) where
  reaped := h.reaped
  escalates := by
    have hsent : ((.sigterm, t) : Signal × ℕ) ∈ c.signals := by
      rw [hasked]
      exact List.mem_singleton_self _
    have ht : deadline ≤ t := h.escalates.late hsent
    rw [Child.signal, hasked]
    exact .killed ht hlate
  past := by
    intro sent hsent
    rw [Child.signal, List.mem_append, List.mem_singleton] at hsent
    rcases hsent with hsent | rfl
    · exact h.past sent hsent
    · exact Nat.le_refl now
  inTime := by
    intro e he hearly
    have hnone := h.inTime e he hearly
    rw [hasked] at hnone
    cases hnone
  inGrace := by
    intro e t₁ t' he hterm _
    simp only [Child.signal, hasked, List.cons_append, List.nil_append, List.mem_cons,
      Prod.mk.injEq, reduceCtorEq, true_and, false_and, List.not_mem_nil, or_false] at hterm
    exact hterm ▸ hexit e he

end Child

theorem update_all {P : ℕ → Child → Prop} {i : ℕ} {c : Child}
    (hrest : ∀ j < n, j ≠ i → P j (children j)) (hc : i < n → P i c) :
    ∀ j < n, P j (Function.update children i c j) := by
  intro j hj
  by_cases hji : j = i
  · subst hji
    rw [Function.update_self]
    exact hc hj
  · rw [Function.update_of_ne hji]
    exact hrest j hj hji

theorem Standing.tick {phase : Phase} {j : ℕ} (h : Standing deadline grace now phase j c) :
    Standing deadline grace (now + 1) phase j c := by
  cases phase with
  | looking stage limit i remaining => cases stage <;> exact h
  | pausing stage limit wake => cases stage <;> exact h
  | requesting i => exact ⟨fun hj => (h.1 hj).mono (by omega), h.2⟩
  | terminating i => exact ⟨fun hj => (h.1 hj).mono (by omega), h.2⟩
  | killing i => exact fun hj => (h hj).mono (Nat.le_succ now)
  | striking i =>
    refine ⟨fun hj => (h.1 hj).mono (Nat.le_succ now), fun hj => ?_⟩
    obtain ⟨hreaped, t, ht, hlate, hexit⟩ := h.2 hj
    exact ⟨hreaped, t, ht, hlate.trans (Nat.le_succ now), hexit⟩
  | waiting i => exact fun hj => (h hj).mono (Nat.le_succ now)
  | returned ok => trivial

theorem OnTime.tick {phase : Phase} (h : OnTime deadline now phase) :
    OnTime deadline (now + 1) phase := by
  cases phase with
  | looking stage limit i remaining =>
    cases stage with
    | untilDeadline => exact h
    | untilGrace => exact Nat.le_succ_of_le h
  | pausing stage limit wake =>
    cases stage with
    | untilDeadline => exact h
    | untilGrace => exact Nat.le_succ_of_le h
  | returned ok => trivial
  | _ => exact Nat.le_succ_of_le h

theorem Standing.exit {phase : Phase} {j : ℕ} (h : Standing deadline grace now phase j c)
    (htime : OnTime deadline now phase) :
    Standing deadline grace now phase j { c with exitedAt := some now } := by
  cases phase with
  | looking stage limit i remaining =>
    cases stage with
    | untilDeadline => exact h
    | untilGrace => exact Asked.exit h now
  | pausing stage limit wake =>
    cases stage with
    | untilDeadline => exact h
    | untilGrace => exact Asked.exit h now
  | requesting i => exact ⟨fun hj => (h.1 hj).exit now, h.2⟩
  | terminating i =>
    refine ⟨fun hj => (h.1 hj).exit now, h.2.1, fun hj => ⟨(h.2.2 hj).1, ?_⟩⟩
    rintro e ⟨⟩
    exact htime
  | killing i => exact fun hj => (h hj).exit now
  | striking i =>
    refine ⟨fun hj => (h.1 hj).exit now, fun hj => ?_⟩
    obtain ⟨hreaped, t, ht, hlate, -⟩ := h.2 hj
    refine ⟨hreaped, t, ht, hlate, ?_⟩
    rintro e ⟨⟩
    exact hlate
  | waiting i => exact fun hj => (h hj).exit now
  | returned ok => trivial

end Signals

section Orderly
variable {n pollInterval slack deadline : ℕ} {s s' : State}

theorem Orderly.reap {grace i : ℕ} {phase : Phase} (h : Orderly n deadline grace s)
    (hexited : (s.children i).exitedAt.isSome = true)
    (hstanding : ∀ j < n, Standing deadline grace s.now phase j (s.children j))
    (hi : Standing deadline grace s.now phase i (s.children i) →
      Standing deadline grace s.now phase i { s.children i with reaped := true })
    (htime : OnTime deadline s.now phase) :
    Orderly n deadline grace ((s.reap i).enter slack phase) where
  treated := update_all (fun j hj _ => h.treated j hj) fun hin => (h.treated i hin).reap hexited
  standing := update_all (fun j hj _ => hstanding j hj) fun hin => hi (hstanding i hin)
  onTime := htime

theorem Orderly.enter {grace : ℕ} {phase : Phase} (h : Orderly n deadline grace s)
    (hstanding : ∀ j < n, Standing deadline grace s.now phase j (s.children j))
    (htime : OnTime deadline s.now phase) : Orderly n deadline grace (s.enter slack phase) where
  treated := h.treated
  standing := hstanding
  onTime := htime

theorem Orderly.returned {grace : ℕ} {due : ℕ} {ok : Bool} (h : Orderly n deadline grace s) :
    Orderly n deadline grace { s with due := due, phase := .returned ok } where
  treated := h.treated
  standing := fun _ _ => trivial
  onTime := trivial

theorem Orderly.move (h : Orderly n deadline (terminateGrace pollInterval) s)
    (hmove : Move n pollInterval slack s s') :
    Orderly n deadline (terminateGrace pollInterval) s' := by
  have hstanding := h.standing
  have htime := h.onTime
  cases hmove with
  | @lookExited stage limit i remaining hphase hi hexited =>
    rw [hphase] at hstanding htime
    cases stage with
    | untilDeadline => exact h.reap hexited hstanding (fun hs => hs) htime
    | untilGrace => exact h.reap hexited hstanding (fun hs => hs) htime
  | @lookRunning stage limit i remaining hphase hi hrunning =>
    rw [hphase] at hstanding htime
    cases stage with
    | untilDeadline => exact h.enter hstanding htime
    | untilGrace => exact h.enter hstanding htime
  | allExited => exact h.returned
  | late hphase hi hlate =>
    rw [hphase] at hstanding htime
    refine h.enter (fun j hj => ⟨fun hlt => absurd hlt (Nat.not_lt_zero j), fun _ => ?_⟩) ?_
    · exact hstanding j hj
    · exact htime ▸ hlate
  | tooLate hphase hi hlate =>
    rw [hphase] at hstanding htime
    exact h.enter (fun j hj _ => Asked.mono (hstanding j hj) hlate) htime
  | @pause stage limit i remaining hphase hi hearly =>
    rw [hphase] at hstanding htime
    cases stage with
    | untilDeadline => exact ⟨h.treated, hstanding, htime⟩
    | untilGrace => exact ⟨h.treated, hstanding, htime⟩
  | @wake stage limit wake hphase hwake =>
    rw [hphase] at hstanding htime
    cases stage with
    | untilDeadline => exact h.enter hstanding htime
    | untilGrace => exact h.enter hstanding htime
  | @requestExited i hphase hi hexited =>
    rw [hphase] at hstanding htime
    refine h.reap hexited (fun j hj => ⟨fun hlt => ?_, fun hle => ?_⟩) (fun hs => hs) htime
    · rcases Nat.lt_succ_iff_lt_or_eq.mp hlt with hlt | rfl
      · exact (hstanding j hj).1 hlt
      · exact .inl ⟨(hstanding j hj).2 (Nat.le_refl j), hexited⟩
    · exact (hstanding j hj).2 (Nat.le_of_succ_le hle)
  | @requestRunning i hphase hi hrunning =>
    rw [hphase] at hstanding htime
    refine h.enter (fun j hj => ⟨(hstanding j hj).1, (hstanding j hj).2, ?_⟩) htime
    rintro rfl
    refine ⟨?_, fun e he => absurd (hrunning.symm.trans he) nofun⟩
    -- a child that still runs was not reaped
    by_contra hreaped
    have hgone := (h.treated j hj).reaped (Bool.eq_true_of_not_eq_false hreaped)
    rw [hrunning] at hgone
    cases hgone
  | @grant i hphase hi =>
    rw [hphase] at hstanding htime
    exact h.enter (fun j hj => (hstanding j hj).1 (by omega)) htime
  | @terminate i hphase =>
    rw [hphase] at hstanding htime
    refine ⟨update_all (fun j hj _ => h.treated j hj) fun hi => ?_,
      update_all (fun j hj hne => ⟨fun hlt => ?_, fun hle => ?_⟩) fun hi => ⟨fun _ => ?_, fun hle => ?_⟩,
      htime⟩
    · obtain ⟨-, hexit⟩ := (hstanding i hi).2.2 rfl
      exact (h.treated i hi).sigterm ((hstanding i hi).2.1 (Nat.le_refl i)) hexit htime
    · exact (hstanding j hj).1 (by omega)
    · exact (hstanding j hj).2.1 (by omega)
    · refine .inr ⟨s.now, ?_, Nat.le_refl _⟩
      rw [Child.signal, (hstanding i hi).2.1 (Nat.le_refl i)]
      rfl
    · exact absurd hle (Nat.not_succ_le_self i)
  | @killExited i hphase hi hexited =>
    rw [hphase] at hstanding htime
    exact h.reap hexited (fun j hj hle => hstanding j hj (Nat.le_of_succ_le hle))
      (fun hs => hs) htime
  | @killRunning i hphase hi hrunning =>
    rw [hphase] at hstanding htime
    refine h.enter (fun j hj => ⟨fun hlt => hstanding j hj hlt.le, ?_⟩) htime
    rintro rfl
    obtain ⟨-, hgone⟩ | ⟨t, ht, hlate⟩ := hstanding j hj (Nat.le_refl j)
    · rw [hrunning] at hgone
      cases hgone
    · refine ⟨?_, t, ht, hlate, fun e he => absurd (hrunning.symm.trans he) nofun⟩
      by_contra hreaped
      have hgone := (h.treated j hj).reaped (Bool.eq_true_of_not_eq_false hreaped)
      rw [hrunning] at hgone
      cases hgone
  | done => exact h.returned
  | @strike i hphase =>
    rw [hphase] at hstanding htime
    refine ⟨update_all (fun j hj _ => h.treated j hj) fun hi => ?_,
      update_all (fun j hj _ => (hstanding j hj).1) fun _ hlt => absurd hlt (Nat.lt_irrefl i),
      htime⟩
    obtain ⟨-, t, ht, hlate, hexit⟩ := (hstanding i hi).2 rfl
    exact (h.treated i hi).sigkill ht hlate hexit
  | @reaped i hphase hexited =>
    rw [hphase] at hstanding htime
    exact h.reap hexited (fun j hj hle => hstanding j hj hle) (fun hs => hs) htime

theorem Orderly.step (h : Orderly n deadline (terminateGrace pollInterval) s)
    (hstep : Step n pollInterval slack s s') :
    Orderly n deadline (terminateGrace pollInterval) s' := by
  cases hstep with
  | parent hready => exact h.move (parentStep_move hready)
  | tryWaitFails _ _ => exact h.returned
  | exit hrun hi hrunning =>
    refine ⟨update_all (fun j hj _ => h.treated j hj) fun hi => (h.treated _ hi).exit,
      update_all (fun j hj _ => h.standing j hj) fun hi => (h.standing _ hi).exit h.onTime,
      h.onTime⟩
  | tick hrun hdue =>
    exact ⟨fun j hj => (h.treated j hj).mono (Nat.le_succ s.now),
      fun j hj => (h.standing j hj).tick, h.onTime.tick⟩

def Untouched (n : ℕ) (children : ℕ → Child) : Prop :=
  ∀ i < n, (children i).signals = [] ∧
    ((children i).reaped = true → (children i).exitedAt.isSome = true)

theorem orderly_start {timeout now : ℕ} {children : ℕ → Child} (grace : ℕ)
    (h : Untouched n children) :
    Orderly n (now + timeout) grace (start slack timeout now children) where
  treated := by
    intro i hi
    obtain ⟨hnone, hreaped⟩ := h i hi
    change Treated _ _ _ (children i)
    refine ⟨hreaped, ?_, ?_, fun _ _ _ => hnone, ?_⟩
    · rw [hnone]
      exact .spared
    · rw [hnone]
      nofun
    · rw [hnone]
      nofun
  standing := fun i hi => (h i hi).1
  onTime := rfl

/-- A signal is never for a child that was reaped. -/
theorem Orderly.spares {grace i : ℕ} (h : Orderly n deadline grace s) (hi : i < n)
    (hphase : s.phase = .terminating i ∨ s.phase = .striking i) :
    (s.children i).reaped = false := by
  have hstanding := h.standing i hi
  rcases hphase with hphase | hphase <;> rw [hphase] at hstanding
  · exact (hstanding.2.2 rfl).1
  · exact (hstanding.2 rfl).1

def Spared (i : ℕ) (s s' : State) : Prop :=
  (s.children i).reaped = true →
    (s'.children i).reaped = true ∧ (s'.children i).signals = (s.children i).signals

theorem spared_reap (i j : ℕ) : Spared i s (s.reap j) := by
  intro hreaped
  by_cases hij : i = j
  · subst hij
    simp [State.reap]
  · simp [State.reap, Function.update_of_ne hij, hreaped]

theorem spared_exit (i j : ℕ) : Spared i s (s.exit j) := by
  intro hreaped
  by_cases hij : i = j
  · subst hij
    simp [State.exit, hreaped]
  · simp [State.exit, Function.update_of_ne hij, hreaped]

theorem Orderly.spared_send {grace i j : ℕ} (h : Orderly n deadline grace s) (hi : i < n)
    (hphase : s.phase = .terminating j ∨ s.phase = .striking j) (signal : Signal) :
    Spared i s (s.send j signal) := by
  intro hreaped
  have hij : i ≠ j := by
    rintro rfl
    rw [h.spares hi hphase] at hreaped
    cases hreaped
  simp [State.send, Function.update_of_ne hij, hreaped]

theorem Orderly.spared_move {grace i : ℕ} (h : Orderly n deadline grace s) (hi : i < n)
    (hmove : Move n pollInterval slack s s') : Spared i s s' := by
  cases hmove with
  | lookExited | requestExited | killExited | reaped => exact spared_reap (s := s) i _
  | terminate hphase => exact h.spared_send hi (.inl hphase) .sigterm
  | strike hphase => exact h.spared_send hi (.inr hphase) .sigkill
  | _ => exact fun hreaped => ⟨hreaped, rfl⟩

theorem Orderly.spared_step {grace i : ℕ} (h : Orderly n deadline grace s) (hi : i < n)
    (hstep : Step n pollInterval slack s s') : Spared i s s' := by
  cases hstep with
  | parent hready => exact h.spared_move hi (parentStep_move hready)
  | exit => exact spared_exit i _
  | tryWaitFails | tick => exact fun hreaped => ⟨hreaped, rfl⟩

end Orderly

end ChildProcesses
