import Mathlib.Algebra.Order.Archimedean.Basic
import Mathlib.Data.Finset.Lattice.Fold
import Mathlib.Data.Fintype.Basic
import Mathlib.Tactic.Ring
import Rollio.NeroArm

/-! How far apart the targets are that the Nero arm is sent while it follows commands, and how a
held target is reached. -/
namespace NeroSlew
open Outcomes RateLimiting NeroArm

variable {model : NeroModel} {c next : ArmController} {t : Tick} {last : Option Joints}

/-- Every joint of one pose is within the slew bound of the other's. -/
def Near (p q : Joints) : Prop := ∀ i : Fin 7, |p.get i - q.get i| ≤ maxCommandJointDeltaRad

/-- Every joint goes toward the goal by the slew bound, or by all that remains. -/
def MovesToward (goal p q : Joints) : Prop :=
  ∀ i : Fin 7,
    |q.get i - p.get i| = min |goal.get i - p.get i| maxCommandJointDeltaRad ∧
      |goal.get i - q.get i| =
        |goal.get i - p.get i| - min |goal.get i - p.get i| maxCommandJointDeltaRad

/-- What was last sent in the present stay in command following, if anything. -/
def lastInStay (next : ArmController) (last : Option Joints) (sent : Option Sent) :
    Option Joints :=
  if next.modeValue = .commandFollowing then (sent.map (·.target.pDes)).or last else none

/-- The mode messages name only the modes that a configuration can name. -/
def NamedModes (t : Tick) : Prop := t.modeMessage ≠ .ok (some .enabled)

instance (t : Tick) : Decidable (NamedModes t) := inferInstanceAs (Decidable (_ ≠ _))

inductive Reached (model : NeroModel) : ArmController → Option Joints → Prop where
  | start (mode : DeviceChannelMode) (h : mode ≠ .enabled) :
    Reached model { modeValue := mode } none
  | tick {c next : ArmController} {last : Option Joints} (h : Reached model c last) (t : Tick)
    (hn : NamedModes t) (hnext : (c.step model true t).next = .ok next) :
    Reached model next (lastInStay next last (c.step model true t).sent)

inductive Quiet (model : NeroModel) (c : ArmController) (last : Option Joints) :
    ℕ → ArmController → Option Joints → Prop where
  | refl : Quiet model c last 0 c last
  | tick {n : ℕ} {u next : ArmController} {p : Option Joints} (h : Quiet model c last n u p)
    (t : Tick) (hn : NamedModes t) (hquiet : t.command = .ok none)
    (hnext : (u.step model true t).next = .ok next)
    (hstay : next.modeValue = .commandFollowing) :
    Quiet model c last (n + (u.step model true t).sent.toList.length) next
      (lastInStay next p (u.step model true t).sent)

theorem maxCommandJointDeltaRad_pos : 0 < maxCommandJointDeltaRad := by decide +kernel

theorem clamp_get (p q : Joints) (i : Fin 7) :
    (clampPDesToMaxJointDelta p q).get i =
      toward maxCommandJointDeltaRad (q.get i) (p.get i) :=
  Vector.getElem_zipWith i.isLt

theorem clamp_near (p q : Joints) : Near (clampPDesToMaxJointDelta p q) q := by
  intro i
  rw [clamp_get]
  exact abs_toward_sub_le maxCommandJointDeltaRad_pos.le

theorem clamp_movesToward (goal p : Joints) :
    MovesToward goal p (clampPDesToMaxJointDelta goal p) := by
  intro i
  rw [clamp_get]
  exact ⟨abs_toward_sub maxCommandJointDeltaRad_pos.le,
    abs_sub_toward maxCommandJointDeltaRad_pos.le⟩

section Following

/-- A command changes the held target and the seed of the solver; without one nothing changes. -/
theorem followCommand_ok {command : Option ArmCommand} {qMeas : Joints} {d : Desired}
    (h : c.followCommand model command qMeas = .ok (next, d)) :
    next.modeValue = c.modeValue ∧ next.lastSentPDes = c.lastSentPDes ∧
      (command = none → next = c ∧ d.pDes = c.latestJointTarget.getD qMeas) := by
  cases command with
  | none =>
    cases h
    exact ⟨rfl, rfl, fun _ => ⟨rfl, rfl⟩⟩
  | some command =>
    cases command with
    | endPose pose =>
      simp only [ArmController.followCommand, bind_eq_ok] at h
      obtain ⟨qTarget, -, h⟩ := h
      cases h
      exact ⟨rfl, rfl, by rintro ⟨⟩⟩
    | jointMit mit =>
      cases h
      exact ⟨rfl, rfl, by rintro ⟨⟩⟩
    | jointPosition position =>
      cases h
      exact ⟨rfl, rfl, by rintro ⟨⟩⟩

theorem desired_following {qMeas : Joints} {d : Desired}
    (hm : c.modeValue = .commandFollowing) (h : c.desired model t qMeas = .ok (next, d)) :
    ∃ command followed wanted, t.command = .ok command ∧
      c.followCommand model command qMeas = .ok (followed, wanted) ∧
      d.pDes = clampPDesToMaxJointDelta wanted.pDes (c.lastSentPDes.getD qMeas) ∧
      next = { followed with lastSentPDes := some d.pDes } := by
  simp only [ArmController.desired, hm, bind_eq_ok, ask_eq_ok, Prod.exists] at h
  obtain ⟨command, hcommand, followed, wanted, hfollow, h⟩ := h
  cases h
  refine ⟨command, followed, wanted, hcommand, hfollow, ?_, rfl⟩
  simp only [(followCommand_ok hfollow).2.1]

theorem desired_modeValue {qMeas : Joints} {d : Desired}
    (h : c.desired model t qMeas = .ok (next, d)) : next.modeValue = c.modeValue := by
  simp only [ArmController.desired] at h
  split at h
  · cases h
  · simp only [bind_eq_ok, Prod.exists] at h
    obtain ⟨p, v, -, h⟩ := h
    cases h
    rfl
  · cases h
    rfl
  · cases h
    rfl
  · simp only [bind_eq_ok, ask_eq_ok, Prod.exists] at h
    obtain ⟨command, -, followed, wanted, hfollow, h⟩ := h
    cases h
    exact (followCommand_ok hfollow).1

end Following

structure Tied (c : ArmController) (last : Option Joints) : Prop where
  named : c.modeValue ≠ .enabled
  sent : c.modeValue = .commandFollowing → c.lastSentPDes = last
  outside : c.modeValue ≠ .commandFollowing → last = none
  held : c.modeValue = .commandFollowing → c.latestJointTarget ≠ none → last ≠ none

theorem tied_start {mode : DeviceChannelMode} (h : mode ≠ .enabled) :
    Tied { modeValue := mode } none :=
  ⟨h, fun _ => rfl, fun _ => rfl, fun _ h => absurd rfl h⟩

theorem Tied.polled (h : Tied c last) (hn : NamedModes t)
    (hpoll : c.pollMode true t = .ok next) :
    Tied next (if next.modeValue = .commandFollowing then last else none) := by
  obtain rfl | ⟨-, newMode, hmessage, hne, hchanged⟩ := pollMode_ok hpoll
  · by_cases hc : next.modeValue = .commandFollowing
    · rw [if_pos hc]
      exact h
    · rw [if_neg hc]
      exact ⟨h.named, fun hm => absurd hm hc, fun _ => rfl, fun hm => absurd hm hc⟩
  · have hmode := hchanged.mode
    subst hmode
    constructor
    · intro hm
      rw [hm] at hmessage
      exact hn hmessage
    · intro hm
      rw [if_pos hm, h.outside fun hold => hne (hm.trans hold.symm)]
      exact (hchanged.cleared hm).2.1
    · intro hm
      rw [if_neg hm]
    · intro hm hheld
      exact absurd (hchanged.cleared hm).1 hheld

theorem Tied.prepared (h : Tied c last) (hn : NamedModes t) {target : MitTarget}
    (hp : c.prepare model true t = .ok (next, some target))
    (hm : next.modeValue = .commandFollowing) :
    ∃ feedback qMeas command followed wanted, t.feedback = .ok feedback ∧
      measured feedback = some qMeas ∧ t.command = .ok command ∧
      ∃ polled, c.pollMode true t = .ok polled ∧ polled.modeValue = .commandFollowing ∧
        polled.followCommand model command qMeas = .ok (followed, wanted) ∧
        target.pDes = clampPDesToMaxJointDelta wanted.pDes (last.getD qMeas) ∧
        next = { followed with lastSentPDes := some target.pDes } := by
  obtain ⟨polled, feedback, hpolled, hfeedback, hcase⟩ := prepare_ok hp
  obtain ⟨-, -, h⟩ | ⟨qMeas, ff, d, hq, hd, htarget⟩ := hcase
  · cases h
  · cases htarget
    have hpm : polled.modeValue = .commandFollowing := by
      rw [← hm, desired_modeValue hd, ensureRamp_modeValue]
    rw [ensureRamp_of_ne (by rw [hpm]; decide)] at hd
    obtain ⟨command, followed, wanted, hcommand, hfollow, hclamp, hnext⟩ :=
      desired_following hpm hd
    have hsent := (h.polled hn hpolled).sent hpm
    rw [if_pos hpm] at hsent
    rw [hsent] at hclamp
    exact ⟨feedback, qMeas, command, followed, wanted, hfeedback, hq, hcommand, polled, hpolled,
      hpm, hfollow, hclamp, hnext⟩

theorem Tied.tick (h : Tied c last) (hn : NamedModes t)
    (hnext : (c.step model true t).next = .ok next) :
    Tied next (lastInStay next last (c.step model true t).sent) := by
  obtain ⟨target, hp, hsent⟩ := step_ok hnext
  rw [hsent]
  simp only [lastInStay]
  cases target with
  | none =>
    obtain ⟨polled, feedback, hpolled, -, hcase⟩ := prepare_ok hp
    obtain ⟨-, rfl, -⟩ | ⟨qMeas, ff, d, -, -, htarget⟩ := hcase
    · exact h.polled hn hpolled
    · cases htarget
  | some target =>
    by_cases hm : next.modeValue = .commandFollowing
    · obtain ⟨-, -, -, followed, -, -, -, -, polled, -, -, -, -, hres⟩ := h.prepared hn hp hm
      rw [if_pos hm]
      constructor
      · rw [hm]
        decide
      · intro _
        rw [hres]
        rfl
      · intro hne
        exact absurd hm hne
      · intro _ _ hnone
        cases hnone
    · rw [if_neg hm]
      obtain ⟨polled, feedback, hpolled, -, hcase⟩ := prepare_ok hp
      obtain ⟨-, -, htarget⟩ | ⟨qMeas, ff, d, -, hd, -⟩ := hcase
      · cases htarget
      · have hmode : next.modeValue = polled.modeValue := by
          rw [desired_modeValue hd, ensureRamp_modeValue]
        refine ⟨?_, fun h => absurd h hm, fun _ => rfl, fun h => absurd h hm⟩
        rw [hmode]
        exact (h.polled hn hpolled).named

theorem Reached.tied (h : Reached model c last) : Tied c last := by
  induction h with
  | start mode h => exact tied_start h
  | tick h t hn hnext ih => exact ih.tick hn hnext

section Held
variable {goal : Joints}

theorem pollMode_stay (hc : c.modeValue = .commandFollowing)
    (hpoll : c.pollMode true t = .ok next) (hm : next.modeValue = .commandFollowing) :
    next = c := by
  obtain h | ⟨-, newMode, -, hne, hchanged⟩ := pollMode_ok hpoll
  · exact h
  · rw [← hchanged.mode, hm, hc] at hne
    exact absurd rfl hne

theorem held_moves (h : Tied c last) (hn : NamedModes t) (hc : c.modeValue = .commandFollowing)
    (hgoal : c.latestJointTarget = some goal) (hquiet : t.command = .ok none)
    {target : MitTarget} (hp : c.prepare model true t = .ok (next, some target))
    (hm : next.modeValue = .commandFollowing) {p : Joints} (hlast : last = some p) :
    MovesToward goal p target.pDes ∧ next.latestJointTarget = some goal := by
  obtain ⟨feedback, qMeas, command, followed, wanted, -, -, hcommand, polled, hpolled, hpm,
    hfollow, hclamp, hnext⟩ := h.prepared hn hp hm
  cases pollMode_stay hc hpolled hpm
  cases hquiet.symm.trans hcommand
  obtain ⟨rfl, hwanted⟩ := (followCommand_ok hfollow).2.2 rfl
  rw [hgoal, Option.getD_some] at hwanted
  rw [hclamp, hwanted, hlast, hnext]
  exact ⟨clamp_movesToward goal p, hgoal⟩

/-- In a quiet run every target takes the slew bound off what remains. -/
theorem quiet_remaining (h : Tied c last) (hc : c.modeValue = .commandFollowing)
    (hgoal : c.latestJointTarget = some goal) {p : Joints} (hlast : last = some p) {n : ℕ}
    {q : Option Joints} (hrun : Quiet model c last n next q) :
    Tied next q ∧ next.modeValue = .commandFollowing ∧ next.latestJointTarget = some goal ∧
      ∃ r, q = some r ∧ ∀ i : Fin 7,
        |goal.get i - r.get i| ≤
          max 0 (|goal.get i - p.get i| - n * maxCommandJointDeltaRad) := by
  induction hrun with
  | refl =>
    refine ⟨h, hc, hgoal, p, hlast, ?_⟩
    intro i
    rw [Nat.cast_zero, zero_mul, sub_zero]
    exact le_max_right _ _
  | @tick n u next q hrun t hn hquiet hnext hstay ih =>
    obtain ⟨htied, hu, hugoal, r, rfl, hrem⟩ := ih
    obtain ⟨target, hp, hsent⟩ := step_ok hnext
    have htied' := htied.tick hn hnext
    rw [hsent, lastInStay, if_pos hstay] at htied' ⊢
    cases target with
    | none =>
      obtain ⟨polled, feedback, hpolled, -, hcase⟩ := prepare_ok hp
      obtain ⟨-, rfl, -⟩ | ⟨qMeas, ff, d, -, -, htarget⟩ := hcase
      · cases pollMode_stay hu hpolled hstay
        exact ⟨htied', hstay, hugoal, r, rfl, hrem⟩
      · cases htarget
    | some target =>
      obtain ⟨hmoves, hheld⟩ := held_moves htied hn hu hugoal hquiet hp hstay rfl
      refine ⟨htied', hstay, hheld, target.pDes, rfl, ?_⟩
      intro i
      have hcast : ((n + 1 : ℕ) : ℚ) = n + 1 := Nat.cast_succ n
      have hsplit : |goal.get i - r.get i| - min |goal.get i - r.get i| maxCommandJointDeltaRad ≤
          max 0 (|goal.get i - r.get i| - maxCommandJointDeltaRad) := by
        rcases min_choice |goal.get i - r.get i| maxCommandJointDeltaRad with hmin | hmin
        · rw [hmin, sub_self]
          exact le_max_left _ _
        · rw [hmin]
          exact le_max_right _ _
      calc |goal.get i - target.pDes.get i|
          = |goal.get i - r.get i| - min |goal.get i - r.get i| maxCommandJointDeltaRad :=
            (hmoves i).2
        _ ≤ max 0 (|goal.get i - r.get i| - maxCommandJointDeltaRad) := hsplit
        _ ≤ max 0 (max 0 (|goal.get i - p.get i| - n * maxCommandJointDeltaRad) -
              maxCommandJointDeltaRad) :=
            max_le_max le_rfl (sub_le_sub_right (hrem i) _)
        _ ≤ max 0 (|goal.get i - p.get i| - (n + 1 : ℕ) * maxCommandJointDeltaRad) := by
            rw [hcast]
            have hpos := maxCommandJointDeltaRad_pos
            apply max_le (le_max_left _ _)
            rw [sub_le_iff_le_add]
            apply max_le
            · exact add_nonneg (le_max_left _ _) hpos.le
            · rw [← sub_le_iff_le_add]
              refine le_trans (le_of_eq ?_) (le_max_right _ _)
              ring

/-- After so many targets nothing remains. -/
theorem exists_enough (goal p : Joints) :
    ∃ N : ℕ, ∀ n, N ≤ n → ∀ i : Fin 7,
      |goal.get i - p.get i| - n * maxCommandJointDeltaRad ≤ 0 := by
  have henough : ∀ i : Fin 7, ∃ N : ℕ,
      |goal.get i - p.get i| / maxCommandJointDeltaRad ≤ N := fun i => exists_nat_ge _
  choose enough hle using henough
  refine ⟨Finset.univ.sup enough, ?_⟩
  intro n hn i
  have hbig : (enough i : ℚ) ≤ n :=
    Nat.cast_le.mpr ((Finset.le_sup (Finset.mem_univ i)).trans hn)
  have hpos := maxCommandJointDeltaRad_pos
  rw [sub_nonpos]
  exact (div_le_iff₀ hpos).mp ((hle i).trans hbig)

theorem quiet_reaches (h : Tied c last) (hc : c.modeValue = .commandFollowing)
    (hgoal : c.latestJointTarget = some goal) {p : Joints} (hlast : last = some p) :
    ∃ N, ∀ n next q, N ≤ n → Quiet model c last n next q →
      q = some goal ∧ next.latestJointTarget = some goal := by
  obtain ⟨N, henough⟩ := exists_enough goal p
  refine ⟨N, ?_⟩
  intro n next q hn hrun
  obtain ⟨-, -, hheld, r, rfl, hrem⟩ := quiet_remaining h hc hgoal hlast hrun
  refine ⟨congrArg some ?_, hheld⟩
  apply Vector.ext
  intro i hi
  have hzero := (hrem ⟨i, hi⟩).trans (max_le le_rfl (henough n hn ⟨i, hi⟩))
  exact (sub_eq_zero.mp (abs_nonpos_iff.mp hzero)).symm

end Held

/-- In every state of a run, in any named modes: a target sent in command following is within the
slew bound of the one before it in the stay, the first of the measured joints of its tick; without
a command every target moves toward the held one; after enough of them it is reached and kept. -/
theorem command_slew {c : ArmController} {last : Option Joints} (h : Reached model c last) :
    (∀ t next target, NamedModes t → c.prepare model true t = .ok (next, some target) →
      next.modeValue = .commandFollowing →
      ∃ feedback qMeas, t.feedback = .ok feedback ∧ measured feedback = some qMeas ∧
        Near target.pDes (last.getD qMeas)) ∧
    ∀ goal, c.modeValue = .commandFollowing → c.latestJointTarget = some goal →
      ∃ p, last = some p ∧
        (∀ t next target, NamedModes t → t.command = .ok none →
          c.prepare model true t = .ok (next, some target) →
          next.modeValue = .commandFollowing →
          MovesToward goal p target.pDes ∧ next.latestJointTarget = some goal) ∧
        ∃ N, ∀ n next q, N ≤ n → Quiet model c last n next q →
          q = some goal ∧ next.latestJointTarget = some goal := by
  have htied := h.tied
  constructor
  · intro t next target hn hp hm
    obtain ⟨feedback, qMeas, -, -, wanted, hfeedback, hq, -, -, -, -, -, hclamp, -⟩ :=
      htied.prepared hn hp hm
    refine ⟨feedback, qMeas, hfeedback, hq, ?_⟩
    rw [hclamp]
    exact clamp_near _ _
  · intro goal hc hgoal
    have hsome : last ≠ none := by
      apply htied.held hc
      rw [hgoal]
      exact Option.some_ne_none _
    obtain ⟨p, hlast⟩ := Option.ne_none_iff_exists'.mp hsome
    refine ⟨p, hlast, ?_, quiet_reaches htied hc hgoal hlast⟩
    intro t next target hn hquiet hp hm
    exact held_moves htied hn hc hgoal hquiet hp hm hlast

def commandTick : Tick :=
  { idleTick with jointPosition := .ok (some { len := 7, values := Vector.replicate 15 1 }) }

def heldController : ArmController :=
  { modeValue := .commandFollowing
    latestJointTarget := some (Vector.replicate 7 1)
    lastSentPDes := some (Vector.replicate 7 (pi / 12)) }

/-- The command is answered with one bounded step, and the next tick goes on by another. -/
theorem command_slew_held :
    Reached stillModel heldController (some (Vector.replicate 7 (pi / 12))) ∧
      MovesToward (Vector.replicate 7 1) (Vector.replicate 7 (pi / 12))
        (Vector.replicate 7 (pi / 6)) := by
  have hreached : Reached stillModel heldController (some (Vector.replicate 7 (pi / 12))) := by
    have hstart : Reached stillModel { modeValue := .commandFollowing } none :=
      .start .commandFollowing (by decide)
    have hnext : (ArmController.step stillModel { modeValue := .commandFollowing } true
        commandTick).next = .ok heldController := by decide +kernel
    have hfirst := hstart.tick commandTick (by decide) hnext
    have hsent : lastInStay heldController none (ArmController.step stillModel
        { modeValue := .commandFollowing } true commandTick).sent =
          some (Vector.replicate 7 (pi / 12)) := by decide +kernel
    rw [hsent] at hfirst
    exact hfirst
  refine ⟨hreached, ?_⟩
  obtain ⟨p, hp, hmoves, -⟩ := (command_slew hreached).2 (Vector.replicate 7 1) rfl rfl
  cases hp
  have hprepared : heldController.prepare stillModel true idleTick =
      .ok ({ heldController with lastSentPDes := some (Vector.replicate 7 (pi / 6)) },
        some
          { pDes := Vector.replicate 7 (pi / 6)
            vDes := noMotion
            kp := trackingKp
            kd := trackingKd
            ff := noMotion }) := by decide +kernel
  exact (hmoves idleTick _ _ (by decide) (by decide) hprepared rfl).1

end NeroSlew
