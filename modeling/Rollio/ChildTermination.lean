import Rollio.ChildProcesses
import Mathlib.Data.Finset.Card
import Mathlib.Tactic.Ring

/-! How long the children's end takes, and that it is one: every run of `terminate_children` comes
back within a bound, with every child reaped. -/
namespace ChildTermination
open TerminatingRuns ChildProcesses

section Ending
variable {n pollInterval slack : ℕ} {s s' : State}

def ReapedBelow (i : ℕ) (s : State) : Prop := ∀ j < i, (s.children j).reaped = true

def Counted (n : ℕ) (s : State) : Prop :=
  match s.phase with
  | .looking _ _ i remaining => remaining = 0 → ReapedBelow i s
  | .killing i | .striking i | .waiting i => ReapedBelow i s
  | .returned ok => ok = true → ReapedBelow n s
  | _ => True

theorem ReapedBelow.reap {i : ℕ} (h : ReapedBelow i s) : ReapedBelow (i + 1) (s.reap i) := by
  intro j hj
  by_cases hji : j = i
  · subst hji
    simp [State.reap]
  · simp only [State.reap, Function.update_of_ne hji]
    exact h j (by omega)

theorem ReapedBelow.update {i k : ℕ} {c : Child} {children : ℕ → Child}
    (h : ∀ j < i, (children j).reaped = true)
    (hc : (children k).reaped = true → c.reaped = true) :
    ∀ j < i, (Function.update children k c j).reaped = true := by
  intro j hj
  by_cases hjk : j = k
  · subst hjk
    rw [Function.update_self]
    exact hc (h j hj)
  · rw [Function.update_of_ne hjk]
    exact h j hj

theorem Counted.move (h : Counted n s) (hmove : Move n pollInterval slack s s') :
    Counted n s' := by
  unfold Counted at h
  cases hmove with
  | lookExited hphase hi hexited =>
    rw [hphase] at h
    exact fun hzero => (h hzero).reap
  | lookRunning hphase hi hrunning => exact nofun
  | allExited hphase hi =>
    rw [hphase] at h
    exact fun _ j hj => h rfl j (by omega)
  | late => trivial
  | tooLate => exact nofun
  | pause => trivial
  | wake => exact fun _ => nofun
  | requestExited => trivial
  | requestRunning => trivial
  | grant => exact fun _ => nofun
  | terminate => trivial
  | killExited hphase hi hexited =>
    rw [hphase] at h
    exact ReapedBelow.reap h
  | killRunning hphase hi hrunning =>
    rw [hphase] at h
    exact h
  | done hphase hi =>
    rw [hphase] at h
    exact fun _ j hj => h j (by omega)
  | strike hphase =>
    rw [hphase] at h
    exact ReapedBelow.update h fun hr => hr
  | reaped hphase hexited =>
    rw [hphase] at h
    exact ReapedBelow.reap h

theorem Counted.step (h : Counted n s) (hstep : Step n pollInterval slack s s') :
    Counted n s' := by
  cases hstep with
  | parent hready => exact h.move (parentStep_move hready)
  | tryWaitFails _ _ => exact nofun
  | exit hrun hi hrunning =>
    unfold Counted at h
    unfold Counted State.exit
    dsimp only
    cases hphase : s.phase with
    | looking stage limit i remaining =>
      rw [hphase] at h
      exact fun hzero => ReapedBelow.update (h hzero) fun hr => hr
    | killing i | striking i | waiting i =>
      rw [hphase] at h
      exact ReapedBelow.update h fun hr => hr
    | returned ok =>
      rw [hphase] at h
      exact fun hok => ReapedBelow.update (h hok) fun hr => hr
    | _ => trivial
  | tick hrun hdue => exact h

theorem counted_start {timeout now : ℕ} {children : ℕ → Child} :
    Counted n (start slack timeout now children) :=
  fun _ j hj => absurd hj (Nat.not_lt_zero j)

end Ending

section Bounds
variable (n pollInterval slack : ℕ)

def roundTime : ℕ := pollInterval + (n + 2) * slack

def requestTime : ℕ := (2 * n + 1) * slack

def graceTime : ℕ := terminateGrace pollInterval + roundTime n pollInterval slack

def killTime : ℕ := (3 * n + 1) * slack

def latest (s : State) : ℕ :=
  match s.phase with
  | .looking .untilDeadline deadline i _ =>
    max (s.due + (n - i) * slack) (deadline + roundTime n pollInterval slack) +
      requestTime n slack + graceTime n pollInterval slack + killTime n slack
  | .pausing .untilDeadline deadline _ =>
    max (s.due + (n + 1) * slack) (deadline + roundTime n pollInterval slack) +
      requestTime n slack + graceTime n pollInterval slack + killTime n slack
  | .requesting i =>
    s.due + 2 * ((n - i) * slack) + graceTime n pollInterval slack + killTime n slack
  | .terminating i =>
    s.due + 2 * ((n - (i + 1)) * slack) + slack + graceTime n pollInterval slack + killTime n slack
  | .looking .untilGrace deadline i _ =>
    max (s.due + (n - i) * slack) (deadline + roundTime n pollInterval slack) + killTime n slack
  | .pausing .untilGrace deadline _ =>
    max (s.due + (n + 1) * slack) (deadline + roundTime n pollInterval slack) + killTime n slack
  | .killing i => s.due + 3 * ((n - i) * slack)
  | .striking i => s.due + 3 * ((n - (i + 1)) * slack) + 2 * slack
  | .waiting i => s.due + 3 * ((n - (i + 1)) * slack) + slack
  | .returned _ => s.due

def requestSteps : ℕ := 2 * n + 1

def graceSteps : ℕ := n + 1 + terminateGrace pollInterval * (n + 2)

def killSteps : ℕ := 3 * n + 1

def stepsLeft (s : State) : ℕ :=
  match s.phase with
  | .looking .untilDeadline deadline i _ =>
    n - i + 1 + (deadline - s.now) * (n + 2) + requestSteps n + graceSteps n pollInterval +
      killSteps n
  | .pausing .untilDeadline deadline wake =>
    n + 2 + (deadline - wake) * (n + 2) + requestSteps n + graceSteps n pollInterval + killSteps n
  | .requesting i => 2 * (n - i) + 1 + graceSteps n pollInterval + killSteps n
  | .terminating i => 2 * (n - (i + 1)) + 2 + graceSteps n pollInterval + killSteps n
  | .looking .untilGrace deadline i _ => n - i + 1 + (deadline - s.now) * (n + 2) + killSteps n
  | .pausing .untilGrace deadline wake => n + 2 + (deadline - wake) * (n + 2) + killSteps n
  | .killing i => 3 * (n - i) + 1
  | .striking i => 3 * (n - (i + 1)) + 3
  | .waiting i => 3 * (n - (i + 1)) + 2
  | .returned _ => 0

def running (s : State) : ℕ :=
  ((Finset.range n).filter fun i => (s.children i).exitedAt = none).card

def remaining (s : State) : ℕ :=
  running n s + (latest n pollInterval slack s - s.now) + stepsLeft n pollInterval s

end Bounds

section Time
variable {n pollInterval slack : ℕ} {s s' : State}

structure Punctual (n : ℕ) (s : State) : Prop where
  due : s.now ≤ s.due
  wake : ∀ stage deadline wake, s.phase = .pausing stage deadline wake → wake ≤ s.due
  child : ∀ i, s.phase = .striking i ∨ s.phase = .waiting i → i < n

theorem succ_rest {i : ℕ} (hi : i < n) (k : ℕ) : (n - i) * k = (n - (i + 1)) * k + k := by
  have hsucc : n - i = n - (i + 1) + 1 := by omega
  rw [hsucc, Nat.succ_mul]

theorem latest_move (hs : s.now ≤ s.due) (hmove : Move n pollInterval slack s s') :
    latest n pollInterval slack s' ≤ latest n pollInterval slack s := by
  have hround : (n + 2) * slack = n * slack + 2 * slack := Nat.add_mul n 2 slack
  have hrequest : (2 * n + 1) * slack = 2 * (n * slack) + slack := by ring
  have hkill : (3 * n + 1) * slack = 3 * (n * slack) + slack := by ring
  have hwake : (n + 1) * slack = n * slack + slack := Nat.succ_mul n slack
  cases hmove with
  | @lookExited stage limit i remaining hphase hi hexited =>
    have hrest := succ_rest hi slack
    cases stage <;> simp only [latest, hphase, State.enter, State.reap] <;> omega
  | @lookRunning stage limit i remaining hphase hi hrunning =>
    have hrest := succ_rest hi slack
    cases stage <;> simp only [latest, hphase, State.enter] <;> omega
  | @allExited stage limit i hphase hi =>
    cases stage <;> simp only [latest, hphase] <;> omega
  | late hphase hi hlate =>
    simp only [latest, hphase, State.enter, requestTime, Nat.sub_zero]
    omega
  | tooLate hphase hi hlate =>
    simp only [latest, hphase, State.enter, killTime, Nat.sub_zero]
    omega
  | @pause stage limit i remaining hphase hi hearly =>
    cases stage <;> simp only [latest, hphase, roundTime] <;> omega
  | @wake stage limit wake hphase hready =>
    cases stage <;> simp only [latest, hphase, State.enter, Nat.sub_zero] <;> omega
  | requestExited hphase hi hexited =>
    have hrest := succ_rest hi slack
    simp only [latest, hphase, State.enter, State.reap]
    omega
  | requestRunning hphase hi hrunning =>
    have hrest := succ_rest hi slack
    simp only [latest, hphase, State.enter]
    omega
  | grant hphase hi =>
    simp only [latest, hphase, State.enter, graceTime, roundTime, Nat.sub_zero]
    omega
  | terminate hphase =>
    simp only [latest, hphase, State.enter, State.send]
    omega
  | killExited hphase hi hexited =>
    have hrest := succ_rest hi slack
    simp only [latest, hphase, State.enter, State.reap]
    omega
  | killRunning hphase hi hrunning =>
    have hrest := succ_rest hi slack
    simp only [latest, hphase, State.enter]
    omega
  | done hphase hi =>
    simp only [latest, hphase]
    omega
  | strike hphase =>
    simp only [latest, hphase, State.enter, State.send]
    omega
  | reaped hphase hexited =>
    simp only [latest, hphase, State.enter, State.reap]
    omega

theorem stepsLeft_move (hpoll : 0 < pollInterval) (hmove : Move n pollInterval slack s s') :
    stepsLeft n pollInterval s' < stepsLeft n pollInterval s := by
  cases hmove with
  | @lookExited stage limit i remaining hphase hi hexited =>
    cases stage <;> simp only [stepsLeft, hphase, State.enter, State.reap] <;> omega
  | @lookRunning stage limit i remaining hphase hi hrunning =>
    cases stage <;> simp only [stepsLeft, hphase, State.enter] <;> omega
  | @allExited stage limit i hphase hi =>
    cases stage <;> simp only [stepsLeft, hphase] <;> omega
  | late hphase hi hlate =>
    simp only [stepsLeft, hphase, State.enter, requestSteps]
    omega
  | tooLate hphase hi hlate =>
    simp only [stepsLeft, hphase, State.enter, killSteps]
    omega
  | @pause stage limit i remaining hphase hi hearly =>
    -- the pause takes time, so one round less fits before the deadline
    have hless : limit - (s.now + pollInterval) + 1 ≤ limit - s.now := by omega
    have hrounds := Nat.mul_le_mul_right (n + 2) hless
    rw [Nat.succ_mul] at hrounds
    cases stage <;> simp only [stepsLeft, hphase] <;> omega
  | @wake stage limit wake hphase hready =>
    have hless : limit - s.now ≤ limit - wake := by omega
    have hrounds := Nat.mul_le_mul_right (n + 2) hless
    cases stage <;> simp only [stepsLeft, hphase, State.enter] <;> omega
  | requestExited hphase hi hexited =>
    simp only [stepsLeft, hphase, State.enter, State.reap]
    omega
  | requestRunning hphase hi hrunning =>
    simp only [stepsLeft, hphase, State.enter]
    omega
  | grant hphase hi =>
    simp only [stepsLeft, hphase, State.enter, graceSteps, Nat.add_sub_cancel_left]
    omega
  | terminate hphase =>
    simp only [stepsLeft, hphase, State.enter, State.send]
    omega
  | killExited hphase hi hexited =>
    simp only [stepsLeft, hphase, State.enter, State.reap]
    omega
  | killRunning hphase hi hrunning =>
    simp only [stepsLeft, hphase, State.enter]
    omega
  | done hphase hi =>
    simp only [stepsLeft, hphase]
    omega
  | strike hphase =>
    simp only [stepsLeft, hphase, State.enter, State.send]
    omega
  | reaped hphase hexited =>
    simp only [stepsLeft, hphase, State.enter, State.reap]
    omega

theorem running_update {i : ℕ} {c : Child} (h : c.exitedAt = (s.children i).exitedAt) :
    ((Finset.range n).filter fun j => (Function.update s.children i c j).exitedAt = none).card =
      running n s := by
  unfold running
  refine congrArg Finset.card (Finset.filter_congr fun j _ => ?_)
  by_cases hji : j = i
  · subst hji
    rw [Function.update_self, h]
  · rw [Function.update_of_ne hji]

theorem running_move (hmove : Move n pollInterval slack s s') : running n s' = running n s := by
  cases hmove with
  | lookExited | requestExited | killExited | reaped => exact running_update rfl
  | terminate | strike => exact running_update rfl
  | _ => rfl

theorem running_exit {i : ℕ} (hi : i < n) (h : (s.children i).exitedAt = none) :
    running n (s.exit i) < running n s := by
  refine Finset.card_lt_card ⟨fun j hj => ?_, fun hsub => ?_⟩
  · rw [Finset.mem_filter] at hj ⊢
    refine ⟨hj.1, ?_⟩
    by_cases hji : j = i
    · exact hji ▸ h
    · simpa only [State.exit, Function.update_of_ne hji] using hj.2
  · have hmem := (Finset.mem_filter.mp
      (hsub (Finset.mem_filter.mpr ⟨Finset.mem_range.mpr hi, h⟩))).2
    simp only [State.exit, Function.update_self] at hmem
    cases hmem

theorem now_move (hmove : Move n pollInterval slack s s') : s'.now = s.now := by
  cases hmove <;> rfl

theorem Punctual.move (h : Punctual n s) (hmove : Move n pollInterval slack s s') :
    Punctual n s' := by
  cases hmove with
  | pause hphase hi hearly =>
    refine ⟨?_, ?_, nofun⟩
    · exact (Nat.le_add_right _ _).trans (Nat.le_add_right _ _)
    · rintro stage limit wake ⟨⟩
      exact Nat.le_add_right _ _
  | allExited | done => exact ⟨Nat.le_refl _, nofun, nofun⟩
  | killRunning hphase hi hrunning =>
    refine ⟨Nat.le_add_right _ _, nofun, fun j hj => ?_⟩
    rcases hj with hj | hj <;> cases hj
    exact hi
  | strike hphase =>
    refine ⟨Nat.le_add_right _ _, nofun, fun j hj => ?_⟩
    rcases hj with hj | hj <;> cases hj
    exact h.child _ (.inl hphase)
  | _ => exact ⟨Nat.le_add_right _ _, nofun, nofun⟩

theorem Punctual.step (h : Punctual n s) (hstep : Step n pollInterval slack s s') :
    Punctual n s' := by
  cases hstep with
  | parent hready => exact h.move (parentStep_move hready)
  | tryWaitFails _ _ => exact ⟨Nat.le_refl _, nofun, nofun⟩
  | exit hrun hi hrunning => exact ⟨h.due, h.wake, h.child⟩
  | tick hrun hdue => exact ⟨hdue, h.wake, h.child⟩

theorem latest_step (h : Punctual n s) (hstep : Step n pollInterval slack s s') :
    latest n pollInterval slack s' ≤ latest n pollInterval slack s := by
  cases hstep with
  | parent hready => exact latest_move h.due (parentStep_move hready)
  | tryWaitFails hasks _ =>
    have hdue := h.due
    cases hphase : s.phase with
    | looking stage limit i remaining => cases stage <;> simp only [latest, hphase] <;> omega
    | pausing stage limit wake => cases stage <;> simp only [latest, hphase] <;> omega
    | _ =>
      simp only [latest, hphase]
      omega
  | exit hrun hi hrunning => exact Nat.le_refl _
  | tick hrun hdue => exact Nat.le_refl _

theorem now_le_latest (h : Punctual n s) : s.now ≤ latest n pollInterval slack s := by
  have hdue := h.due
  cases hphase : s.phase with
  | looking stage limit i remaining => cases stage <;> simp only [latest, hphase] <;> omega
  | pausing stage limit wake => cases stage <;> simp only [latest, hphase] <;> omega
  | _ =>
    simp only [latest, hphase]
    omega

theorem stepsLeft_tick : stepsLeft n pollInterval { s with now := s.now + 1 } ≤
    stepsLeft n pollInterval s := by
  have hrounds (limit : ℕ) : (limit - (s.now + 1)) * (n + 2) ≤ (limit - s.now) * (n + 2) :=
    Nat.mul_le_mul_right (n + 2) (by omega)
  cases hphase : s.phase with
  | looking stage limit i remaining =>
    have hless := hrounds limit
    cases stage <;> simp only [stepsLeft, hphase] <;> omega
  | pausing stage limit wake => cases stage <;> simp only [stepsLeft, hphase] <;> omega
  | _ =>
    simp only [stepsLeft, hphase]
    omega

theorem stepsLeft_asks {i : ℕ} (h : s.phase.asks? n = some i) : 0 < stepsLeft n pollInterval s := by
  cases hphase : s.phase with
  | looking stage limit i remaining => cases stage <;> simp only [stepsLeft, hphase] <;> omega
  | pausing stage limit wake =>
    rw [hphase] at h
    cases h
  | returned ok =>
    rw [hphase] at h
    cases h
  | _ =>
    simp only [stepsLeft, hphase]
    omega

theorem remaining_lt (hpoll : 0 < pollInterval) (h : Punctual n s)
    (hstep : Step n pollInterval slack s s') :
    remaining n pollInterval slack s' < remaining n pollInterval slack s := by
  have hlatest := latest_step h hstep
  have hnow : s.now ≤ latest n pollInterval slack s := now_le_latest h
  unfold remaining
  cases hstep with
  | parent hready =>
    have hmove : Move n pollInterval slack s (parentStep n pollInterval slack s) :=
      parentStep_move hready
    have hsteps := stepsLeft_move hpoll hmove
    have hrunning := running_move hmove
    have hclock := now_move hmove
    omega
  | tryWaitFails hasks _ =>
    have hpos : 0 < stepsLeft n pollInterval s := stepsLeft_asks hasks
    have hsame : running n { s with due := s.now, phase := .returned false } = running n s := rfl
    have hnone : stepsLeft n pollInterval { s with due := s.now, phase := .returned false } = 0 :=
      rfl
    dsimp only at hlatest hsame hnone ⊢
    omega
  | exit hrun hi hrunning =>
    have hless := running_exit hi hrunning
    exact Nat.add_lt_add_right (Nat.add_lt_add_right hless _) _
  | tick hrun hdue =>
    have hsteps : stepsLeft n pollInterval { s with now := s.now + 1 } ≤
        stepsLeft n pollInterval s := stepsLeft_tick
    have hsame : running n { s with now := s.now + 1 } = running n s := rfl
    have hlate : s.now < latest n pollInterval slack s := by
      have hnext : Punctual n { s with now := s.now + 1 } := ⟨hdue, h.wake, h.child⟩
      exact now_le_latest hnext
    dsimp only at hlatest ⊢
    omega

/-- Someone has a step left until the call returns. -/
theorem returned_of_end (h : Punctual n s) (hend : ∀ s', ¬Step n pollInterval slack s s') :
    ∃ ok, s.phase = .returned ok := by
  by_contra hnone
  have hrun : s.phase.over = false := by
    cases hphase : s.phase with
    | returned ok => exact absurd ⟨ok, hphase⟩ hnone
    | _ => rfl
  have hdue : s.due ≤ s.now := Nat.le_of_not_lt fun hlt => hend _ (.tick hrun hlt)
  refine hend _ (.parent ?_)
  unfold Ready
  cases hphase : s.phase with
  | returned ok => exact absurd ⟨ok, hphase⟩ hnone
  | pausing stage limit wake => exact (h.wake stage limit wake hphase).trans hdue
  | waiting i =>
    -- a child that is not gone has its exit left
    rcases exited_or_running s i with hexited | hrunning
    · exact hexited
    · exact absurd (.exit hrun (h.child i (.inr hphase)) hrunning) (hend _)
  | _ => trivial

end Time

/-- Whatever the children do, the call returns within its time, and when it reports success every
child has exited and is reaped. -/
theorem terminate_children_returns {n pollInterval slack timeout now : ℕ} (children : ℕ → Child)
    (hpoll : 0 < pollInterval) :
    Leads (Step n pollInterval slack) (start slack timeout now children) fun s =>
      ∃ ok, s.phase = .returned ok ∧
        s.now ≤ now + timeout + terminateGrace pollInterval + 2 * pollInterval +
          (7 * n + 6) * slack ∧
        (ok = true → ∀ i < n, (s.children i).reaped = true) := by
  refine Leads.of_measure
    (P := fun s => Punctual n s ∧ Counted n s ∧ latest n pollInterval slack s ≤
      latest n pollInterval slack (start slack timeout now children))
    (μ := remaining n pollInterval slack)
    (fun s s' hs h => ⟨hs.1.step h, hs.2.1.step h, (latest_step hs.1 h).trans hs.2.2⟩)
    (fun s s' hs h => remaining_lt hpoll hs.1 h) ?_ ?_
  · exact ⟨⟨Nat.le_add_right _ _, nofun, nofun⟩, counted_start, Nat.le_refl _⟩
  · rintro s ⟨hpunctual, hcounted, hlatest⟩ hend
    obtain ⟨ok, hok⟩ := returned_of_end hpunctual hend
    refine ⟨ok, hok, ?_, ?_⟩
    · have hnow : s.now ≤ latest n pollInterval slack s := now_le_latest hpunctual
      have hstart : latest n pollInterval slack (start slack timeout now children) ≤
          now + timeout + terminateGrace pollInterval + 2 * pollInterval + (7 * n + 6) * slack := by
        have hsum : (7 * n + 6) * slack = 7 * (n * slack) + 6 * slack := by ring
        have hround : (n + 2) * slack = n * slack + 2 * slack := Nat.add_mul n 2 slack
        have hrequest : (2 * n + 1) * slack = 2 * (n * slack) + slack := by ring
        have hkill : (3 * n + 1) * slack = 3 * (n * slack) + slack := by ring
        simp only [latest, start, requestTime, graceTime, killTime, roundTime, Nat.sub_zero]
        omega
      exact (hnow.trans hlatest).trans hstart
    · unfold Counted at hcounted
      rw [hok] at hcounted
      exact hcounted

end ChildTermination
