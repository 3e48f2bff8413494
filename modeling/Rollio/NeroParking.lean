import Mathlib.Tactic.Ring
import Rollio.NeroSlew

/-! The way of the Nero arm to its parking pose: what a ramp starts from, and where the arm is
when the control loop has been left. -/
namespace NeroParking
open Outcomes NeroArm

variable {model : NeroModel} {c next : ArmController} {t : Tick} {acceptModeChanges : Bool}
  {reports : List (List ℚ)} {now : ℚ}

def segment (qStart : Joints) (fraction : ℚ) : Joints :=
  qStart.zipWith (fun s e => s + (e - s) * fraction) disabledHoldQ

def reported (feedback : Except Part (Option (List ℚ))) : List (List ℚ) :=
  match feedback with
  | .ok (some q) => [q.take 7]
  | _ => []

def Enters (c : ArmController) (acceptModeChanges : Bool) (t : Tick) : Prop :=
  acceptModeChanges = true ∧ t.modeMessage = .ok (some .disabled) ∧ c.modeValue ≠ .disabled

instance (c : ArmController) (acceptModeChanges : Bool) (t : Tick) :
    Decidable (Enters c acceptModeChanges t) := inferInstanceAs (Decidable (_ ∧ _ ∧ _))

def reportsAfter (c : ArmController) (acceptModeChanges : Bool) (t : Tick)
    (reports : List (List ℚ)) : List (List ℚ) :=
  (if Enters c acceptModeChanges t then reported t.entryFeedback else reports) ++
    reported t.feedback

def Full (feedback : Except Part (Option (List ℚ))) : Prop :=
  ∀ q, feedback = .ok q → ∃ qMeas, measured q = some qMeas

/-- The readings of the clock in a tick follow each other. -/
structure InOrder (now : ℚ) (t : Tick) : Prop where
  entry : now ≤ t.entryClock
  ramp : t.entryClock ≤ t.rampClock
  asked : t.rampClock ≤ t.clock

/-- A run of ticks and of entries into the homing, in any order, with the joints reported since
the last entry into the disabled mode and the last reading of the clock. Where the mode changes to
disabled, the change reads a full feedback. -/
inductive MeasuredRun (model : NeroModel) : ArmController → List (List ℚ) → ℚ → Prop where
  | start (mode : DeviceChannelMode) (now : ℚ) : MeasuredRun model { modeValue := mode } [] now
  | tick {c next : ArmController} {reports : List (List ℚ)} {now : ℚ}
    (h : MeasuredRun model c reports now) (acceptModeChanges : Bool) (t : Tick)
    (horder : InOrder now t) (hfull : Enters c acceptModeChanges t → Full t.entryFeedback)
    (hnext : (c.step model acceptModeChanges t).next = .ok next) :
    MeasuredRun model next (reportsAfter c acceptModeChanges t reports) t.clock
  | home {c next : ArmController} {reports : List (List ℚ)} {now : ℚ}
    (h : MeasuredRun model c reports now) (feedback : Except Part (Option (List ℚ))) (clock : ℚ)
    (horder : now ≤ clock) (hfull : c.modeValue ≠ .disabled → Full feedback)
    (hnext : c.enterHold feedback clock = .ok next) :
    MeasuredRun model next (if c.modeValue = .disabled then reports else reported feedback) clock

/-- A disabled tick sends a point of the way from a pose that was reported since the entry. -/
def RampLaw (reports : List (List ℚ)) (t : Tick) (next : ArmController) (target : MitTarget) :
    Prop :=
  ∃ ramp qStart, next.disabledRamp = some ramp ∧ ramp.qStart ∈ reports ∧
    toJoints ramp.qStart = some qStart ∧ ramp.startedAt ≤ t.clock ∧
    target.pDes = segment qStart (min 1 ((t.clock - ramp.startedAt) / rampDurationS))

structure FromReport (reports : List (List ℚ)) (now : ℚ) (ramp : DisabledRamp) : Prop where
  start : ramp.qStart ∈ reports
  full : ramp.qStart.length = 7
  clock : ramp.startedAt ≤ now
  duration : ramp.durationS = rampDurationS
  goal : ramp.qEnd = disabledHoldQ

/-- A disabled controller has no ramp yet, or one from a reported pose. -/
def RampOk (c : ArmController) (reports : List (List ℚ)) (now : ℚ) : Prop :=
  c.modeValue = .disabled → ∀ ramp, c.disabledRamp = some ramp → FromReport reports now ramp

section Poses

theorem toJoints_eq {values : List ℚ} {q : Joints} :
    toJoints values = some q ↔ values = q.toList := by
  simp only [toJoints]
  constructor
  · intro h
    split at h
    · cases h
      rfl
    · cases h
  · rintro rfl
    exact dif_pos q.length_toList

theorem exists_toJoints {values : List ℚ} (h : values.length = 7) :
    ∃ q, toJoints values = some q := ⟨_, dif_pos h⟩

theorem measured_eq {feedback : Option (List ℚ)} {q : Joints} (h : measured feedback = some q) :
    ∃ values, feedback = some values ∧ values.take 7 = q.toList := by
  obtain ⟨values, rfl, hq⟩ := Option.bind_eq_some_iff.mp h
  exact ⟨values, rfl, toJoints_eq.mp hq⟩

theorem broadcast_full {values : List ℚ} {q : Joints} (h : toJoints values = some q) :
    broadcast values = .ok q := by
  have hlen : values.length = 7 := by rw [toJoints_eq.mp h, q.length_toList]
  unfold broadcast
  split
  · cases hlen
  · rw [h]

theorem segment_one (q : Joints) : segment q 1 = disabledHoldQ := by
  apply Vector.ext
  intro i hi
  rw [segment, Vector.getElem_zipWith]
  ring

end Poses

theorem FromReport.desired {ramp : DisabledRamp} {clock : ℚ} (h : FromReport reports now ramp)
    (hclock : now ≤ clock) : ∃ qStart vDes, toJoints ramp.qStart = some qStart ∧
      ramp.desired clock =
        .ok (segment qStart (min 1 ((clock - ramp.startedAt) / rampDurationS)), vDes) := by
  obtain ⟨qStart, hq⟩ := exists_toJoints h.full
  have hpos : (0 : ℚ) < rampDurationS := by decide +kernel
  have helapsed : max 0 (clock - ramp.startedAt) = clock - ramp.startedAt :=
    max_eq_right (sub_nonneg.mpr (h.clock.trans hclock))
  simp only [DisabledRamp.desired, helapsed, h.duration, h.goal, broadcast_full hq]
  by_cases hdone : rampDurationS ≤ clock - ramp.startedAt
  · refine ⟨qStart, noMotion, hq, ?_⟩
    rw [if_pos (Or.inr hdone), min_eq_left ((one_le_div hpos).mpr hdone), segment_one]
  · have hcond : ¬ (rampDurationS ≤ 0 ∨ rampDurationS ≤ clock - ramp.startedAt) := by
      rintro (hneg | hle)
      · exact absurd hpos (not_lt.mpr hneg)
      · exact hdone hle
    rw [if_neg hcond, min_eq_right ((div_le_one hpos).mpr (not_le.mp hdone).le)]
    exact ⟨qStart, _, hq, rfl⟩

theorem FromReport.mono {ramp : DisabledRamp} {later : List (List ℚ)} {clock : ℚ}
    (h : FromReport reports now ramp) (hsub : ∀ q ∈ reports, q ∈ later) (hclock : now ≤ clock) :
    FromReport later clock ramp :=
  ⟨hsub _ h.start, h.full, h.clock.trans hclock, h.duration, h.goal⟩

section Ticks

theorem reported_full {feedback : Except Part (Option (List ℚ))} {q : Option (List ℚ)}
    (hfeedback : feedback = .ok q) {qMeas : Joints} (hq : measured q = some qMeas) :
    startPose q = qMeas.toList ∧ qMeas.toList ∈ reported feedback := by
  obtain ⟨values, rfl, htake⟩ := measured_eq hq
  subst hfeedback
  exact ⟨htake, by rw [reported, htake]; exact List.mem_singleton_self _⟩

theorem fromReport_of_change {feedback : Except Part (Option (List ℚ))} {clock : ℚ}
    {nextMode : DeviceChannelMode} (h : Changed c feedback clock nextMode next)
    (hd : nextMode = .disabled) (hfull : Full feedback) :
    RampOk next (reported feedback) clock := by
  intro _ ramp hramp
  obtain ⟨q, hq, hnew⟩ := h.ramp hd
  obtain ⟨qMeas, hmeasured⟩ := hfull q hq
  obtain ⟨hstart, hmem⟩ := reported_full hq hmeasured
  cases hramp.symm.trans hnew
  exact ⟨by rw [hstart]; exact hmem, by rw [hstart]; exact qMeas.length_toList, le_rfl, rfl, rfl⟩

theorem RampOk.polled {polled : ArmController} (h : RampOk c reports now) (horder : InOrder now t)
    (hfull : Enters c acceptModeChanges t → Full t.entryFeedback)
    (hpoll : c.pollMode acceptModeChanges t = .ok polled) :
    RampOk polled (if Enters c acceptModeChanges t then reported t.entryFeedback else reports)
      t.entryClock := by
  obtain rfl | ⟨haccept, newMode, hmessage, hne, hchanged⟩ := pollMode_ok hpoll
  · intro hm ramp hramp
    rw [if_neg fun henters => henters.2.2 hm]
    exact (h hm ramp hramp).mono (fun _ => id) horder.entry
  · by_cases hd : newMode = .disabled
    · have henters : Enters c acceptModeChanges t :=
        ⟨haccept, hd ▸ hmessage, fun hm => hne (hd.trans hm.symm)⟩
      rw [if_pos henters]
      exact fromReport_of_change hchanged hd (hfull henters)
    · intro hm
      exact absurd (hchanged.mode.symm.trans hm) hd

theorem RampOk.ensured {feedback : Option (List ℚ)} {qMeas : Joints} {entry : ℚ}
    (h : RampOk c reports entry) (hfeedback : t.feedback = .ok feedback)
    (hq : measured feedback = some qMeas) (hclock : entry ≤ t.rampClock) :
    RampOk (c.ensureRamp qMeas t.rampClock) (reports ++ reported t.feedback) t.rampClock := by
  intro hm ramp hramp
  rw [ensureRamp_modeValue] at hm
  by_cases hnone : c.disabledRamp = none
  · rw [ArmController.ensureRamp, if_pos ⟨hm, hnone⟩] at hramp
    cases hramp
    obtain ⟨-, hmem⟩ := reported_full hfeedback hq
    exact ⟨List.mem_append_right _ hmem, qMeas.length_toList, le_rfl, rfl, rfl⟩
  · rw [ArmController.ensureRamp, if_neg fun hd => hnone hd.2] at hramp
    exact (h hm ramp hramp).mono (fun q hq => List.mem_append_left _ hq) hclock

/-- A disabled controller with a ramp sends the point of the ramp and is kept as it is. -/
theorem desired_disabled {ramp : DisabledRamp} {qMeas : Joints}
    (hm : c.modeValue = .disabled) (hramp : c.disabledRamp = some ramp) :
    c.desired model t qMeas = (ramp.desired t.clock).map fun p =>
      (c, { pDes := p.1, vDes := p.2, kp := rampKp, kd := rampKd }) := by
  simp only [ArmController.desired, hm, hramp]
  cases ramp.desired t.clock <;> rfl

theorem ensureRamp_some (hm : c.modeValue = .disabled) (q : Joints) (clock : ℚ) :
    ∃ ramp, (c.ensureRamp q clock).disabledRamp = some ramp := by
  by_cases hnone : c.disabledRamp = none
  · rw [ArmController.ensureRamp, if_pos ⟨hm, hnone⟩]
    exact ⟨_, rfl⟩
  · rw [ArmController.ensureRamp, if_neg fun hd => hnone hd.2]
    exact Option.ne_none_iff_exists'.mp hnone

theorem RampOk.prepared {target : Option MitTarget} (h : RampOk c reports now)
    (horder : InOrder now t) (hfull : Enters c acceptModeChanges t → Full t.entryFeedback)
    (hp : c.prepare model acceptModeChanges t = .ok (next, target)) :
    RampOk next (reportsAfter c acceptModeChanges t reports) t.clock ∧
      (next.modeValue = .disabled → ∀ sent, target = some sent →
        RampLaw (reportsAfter c acceptModeChanges t reports) t next sent) := by
  obtain ⟨polled, feedback, hpolled, hfeedback, hcase⟩ := prepare_ok hp
  have hok := h.polled horder hfull hpolled
  obtain ⟨-, rfl, rfl⟩ | ⟨qMeas, ff, d, hq, hd, rfl⟩ := hcase
  · constructor
    · intro hm ramp hramp
      exact (hok hm ramp hramp).mono (fun q hq => List.mem_append_left _ hq)
        (horder.ramp.trans horder.asked)
    · intro _ sent hsent
      cases hsent
  · have hensured := hok.ensured hfeedback hq horder.ramp
    have hmode : next.modeValue = polled.modeValue := by
      rw [NeroSlew.desired_modeValue hd, ensureRamp_modeValue]
    by_cases hm : polled.modeValue = .disabled
    · obtain ⟨ramp, hramp⟩ := ensureRamp_some hm qMeas t.rampClock
      have hem : (polled.ensureRamp qMeas t.rampClock).modeValue = .disabled := by
        rw [ensureRamp_modeValue, hm]
      have hfrom := hensured hem ramp hramp
      obtain ⟨qStart, vDes, hstart, hdesired⟩ := hfrom.desired horder.asked
      rw [desired_disabled hem hramp, hdesired] at hd
      cases hd
      constructor
      · intro _ r hr
        cases hramp.symm.trans hr
        exact hfrom.mono (fun _ => id) horder.asked
      · intro _ sent hsent
        cases hsent
        exact ⟨ramp, qStart, hramp, hfrom.start, hstart, hfrom.clock.trans horder.asked, rfl⟩
    · have hne : next.modeValue ≠ .disabled := by rw [hmode]; exact hm
      exact ⟨fun h => absurd h hne, fun h => absurd h hne⟩

theorem desired_ne_rampShape {qMeas : Joints} (hm : c.modeValue ≠ .disabled) :
    c.desired model t qMeas ≠ .error .rampShape := by
  intro h
  simp only [ArmController.desired] at h
  split at h
  · next hd _ => exact hm hd
  · next hd _ => exact hm hd
  · cases h
  · cases h
  · simp only [bind_eq_error, ask_ne_rampShape, false_or] at h
    obtain ⟨command, -, followed, -, h⟩ := h
    cases h

theorem onModeChange_ne_rampShape {feedback : Except Part (Option (List ℚ))} {clock : ℚ}
    {nextMode : DeviceChannelMode} :
    c.onModeChange feedback clock nextMode ≠ .error .rampShape := by
  intro h
  simp only [ArmController.onModeChange] at h
  by_cases hd : nextMode = .disabled
  · rw [if_pos hd] at h
    cases feedback <;> cases h
  · rw [if_neg hd] at h
    cases h

theorem pollMode_ne_rampShape : c.pollMode acceptModeChanges t ≠ .error .rampShape := by
  intro h
  cases acceptModeChanges with
  | false => cases h
  | true =>
    simp only [ArmController.pollMode, if_true, bind_eq_error, ask_ne_rampShape, false_or] at h
    obtain ⟨message, -, h⟩ := h
    split at h
    · split at h
      · exact onModeChange_ne_rampShape h
      · cases h
    · cases h

/-- No tick raises on account of the shape of a ramp from a reported pose. -/
theorem RampOk.no_shape_error (h : RampOk c reports now) (horder : InOrder now t)
    (hfull : Enters c acceptModeChanges t → Full t.entryFeedback) :
    c.prepare model acceptModeChanges t ≠ .error .rampShape := by
  intro hp
  simp only [ArmController.prepare, bind_eq_error, pollMode_ne_rampShape, ask_ne_rampShape,
    ask_eq_ok, false_or] at hp
  obtain ⟨polled, hpolled, -, -, feedback, hfeedback, hp⟩ := hp
  cases hq : measured feedback with
  | none =>
    rw [hq] at hp
    cases hp
  | some qMeas =>
    rw [hq] at hp
    simp only [bind_eq_error, ask_ne_rampShape, false_or] at hp
    obtain ⟨ff, -, hd | ⟨d, -, hp⟩⟩ := hp
    · have hensured := (h.polled horder hfull hpolled).ensured hfeedback hq horder.ramp
      by_cases hm : polled.modeValue = .disabled
      · obtain ⟨ramp, hramp⟩ := ensureRamp_some hm qMeas t.rampClock
        have hem : (polled.ensureRamp qMeas t.rampClock).modeValue = .disabled := by
          rw [ensureRamp_modeValue, hm]
        obtain ⟨qStart, vDes, -, hdesired⟩ := (hensured hem ramp hramp).desired horder.asked
        rw [desired_disabled hem hramp, hdesired] at hd
        cases hd
      · have hem : (polled.ensureRamp qMeas t.rampClock).modeValue ≠ .disabled := by
          rw [ensureRamp_modeValue]
          exact hm
        exact desired_ne_rampShape hem hd
    · cases hp

theorem step_rampShape
    (h : (c.step model acceptModeChanges t).next = .error .rampShape) :
    c.prepare model acceptModeChanges t = .error .rampShape := by
  simp only [ArmController.step] at h
  split at h
  · next hp =>
    cases h
    exact hp
  · cases h
  · split at h
    · cases h
    · cases hs : t.publishStates <;> rw [hs] at h <;> cases h

theorem MeasuredRun.rampOk (h : MeasuredRun model c reports now) : RampOk c reports now := by
  induction h with
  | start mode now =>
    intro _ ramp hramp
    cases hramp
  | tick h acceptModeChanges t horder hfull hnext ih =>
    obtain ⟨target, hp, -⟩ := step_ok hnext
    exact (ih.prepared horder hfull hp).1
  | @home c next reports now h feedback clock horder hfull hnext ih =>
    simp only [ArmController.enterHold] at hnext
    by_cases hd : c.modeValue = .disabled
    · rw [if_neg fun hne => hne hd] at hnext
      cases hnext
      intro _ ramp hramp
      cases hramp
    · rw [if_pos hd] at hnext
      rw [if_neg hd]
      exact fromReport_of_change (onModeChange_ok hnext) rfl (hfull hd)

end Ticks

/-- In every run whose changes to the disabled mode read a full feedback: no tick raises on account
of the ramp's shape, and a disabled tick sends the point of the way from a pose that was reported
since the entry. -/
theorem ramp_from_reported {c : ArmController} {reports : List (List ℚ)} {now : ℚ}
    (h : MeasuredRun model c reports now) {acceptModeChanges : Bool} {t : Tick}
    (horder : InOrder now t) (hfull : Enters c acceptModeChanges t → Full t.entryFeedback) :
    (c.step model acceptModeChanges t).next ≠ .error .rampShape ∧
      ∀ sent, (c.step model acceptModeChanges t).sent = some sent →
        ∃ next, c.prepare model acceptModeChanges t = .ok (next, some sent.target) ∧
          (next.modeValue = .disabled →
            RampLaw (reportsAfter c acceptModeChanges t reports) t next sent.target) := by
  constructor
  · intro hnext
    exact h.rampOk.no_shape_error horder hfull (step_rampShape hnext)
  · intro sent hsent
    obtain ⟨next, hp⟩ := step_sent hsent
    exact ⟨next, hp, fun hm => (h.rampOk.prepared horder hfull hp).2 hm _ rfl⟩

def disablingTick : Tick := { idleTick with modeMessage := .ok (some .disabled) }

def disabledController : ArmController :=
  { modeValue := .disabled
    disabledRamp := some { qStart := List.replicate 7 0, startedAt := 0 } }

def rampTarget : MitTarget :=
  { pDes := noMotion
    vDes := disabledHoldQ.map (· / 3)
    kp := rampKp
    kd := rampKd
    ff := noMotion }

theorem ramp_from_reported_disabling :
    RampLaw [List.replicate 7 0, List.replicate 7 0] disablingTick disabledController
      rampTarget := by
  have hfull : Full disablingTick.entryFeedback := by
    intro q hq
    cases hq
    exact ⟨noMotion, by decide +kernel⟩
  have hrun : MeasuredRun stillModel { modeValue := .freeDrive } [] 0 := .start .freeDrive 0
  have horder : InOrder 0 disablingTick := ⟨le_rfl, le_rfl, le_rfl⟩
  have hentry : Enters { modeValue := .freeDrive } true disablingTick →
      Full disablingTick.entryFeedback := fun _ => hfull
  obtain ⟨-, hsent⟩ := ramp_from_reported hrun horder hentry
  obtain ⟨next, hp, hlaw⟩ := hsent { target := rampTarget, joints := 7 } (by decide +kernel)
  have hprepared : ArmController.prepare stillModel { modeValue := .freeDrive } true
      disablingTick = .ok (disabledController, some rampTarget) := by decide +kernel
  cases hprepared.symm.trans hp
  exact hlaw rfl

def blindTick : Tick :=
  { disablingTick with
    entryFeedback := .ok none
    feedback := .ok (some (List.replicate 7 1)) }

/-- Without feedback the change of mode starts the ramp from zeros, wherever the joints are, and
with three joints its tick raises. -/
theorem unmeasured_ramp :
    (ArmController.prepare stillModel { modeValue := .freeDrive } true blindTick =
        .ok (disabledController, some rampTarget) ∧
      ¬ RampLaw (reportsAfter { modeValue := .freeDrive } true blindTick []) blindTick
        disabledController rampTarget) ∧
    (ArmController.step stillModel { modeValue := .freeDrive } true
      { disablingTick with entryFeedback := .ok (some [1, 1, 1]) }).next =
        .error .rampShape := by
  refine ⟨⟨by decide +kernel, ?_⟩, by decide +kernel⟩
  rintro ⟨ramp, qStart, hramp, hstart, -⟩
  cases hramp
  exact absurd hstart (by decide +kernel)

section Homing
variable {deadline gap last bound settleS : ℚ} {turns : List HomingTurn}

/-- What was last sent holds the parking pose with the gains of the ramp. -/
def AtHold (sent : List Sent) : Prop :=
  ∃ s ∈ sent.getLast?,
    s.target.pDes = disabledHoldQ ∧ s.target.kp = rampKp ∧ s.target.kd = rampKd

/-- The turns up to the deadline follow each other at most `gap` apart. -/
def Paced (gap deadline : ℚ) : ℚ → List HomingTurn → Prop
  | _, [] => True
  | last, turn :: turns =>
    last ≤ turn.check ∧ turn.check ≤ last + gap ∧
      (turn.check < deadline →
        turn.check ≤ turn.tick.rampClock ∧ turn.tick.rampClock ≤ turn.tick.clock ∧
          turn.tick.clock ≤ last + gap ∧ Paced gap deadline turn.tick.clock turns)

def Measured (deadline : ℚ) : List HomingTurn → Prop
  | [] => True
  | turn :: turns =>
    turn.check < deadline → Full turn.tick.feedback ∧ Measured deadline turns

/-- A homing that comes to its end, measured and paced. -/
structure GoodHoming (model : NeroModel) (left : ArmController) (settleS : ℚ) (h : Homing) :
    Prop where
  returned : (left.homeToDisabledHold model settleS h).exit = .returned
  clock : h.entryClock ≤ h.startClock
  paced : Paced (settleS / 2) (h.startClock + rampDurationS + max 0 settleS) h.startClock h.turns
  measured : Measured (h.startClock + rampDurationS + max 0 settleS) h.turns

structure Started (c : ArmController) (bound : ℚ) : Prop where
  mode : c.modeValue = .disabled
  ramp : ∀ ramp, c.disabledRamp = some ramp →
    ramp.startedAt ≤ bound ∧ ramp.durationS = rampDurationS ∧ ramp.qEnd = disabledHoldQ

theorem Started.ensured (h : Started c bound) {q : Joints} {clock : ℚ}
    (hclock : c.disabledRamp = none → clock ≤ bound) : Started (c.ensureRamp q clock) bound := by
  constructor
  · rw [ensureRamp_modeValue]
    exact h.mode
  · intro ramp hramp
    by_cases hnone : c.disabledRamp = none
    · rw [ArmController.ensureRamp, if_pos ⟨h.mode, hnone⟩] at hramp
      cases hramp
      exact ⟨hclock hnone, rfl, rfl⟩
    · rw [ArmController.ensureRamp, if_neg fun hd => hnone hd.2] at hramp
      exact h.ramp ramp hramp

theorem Started.done {ramp : DisabledRamp} {clock : ℚ} (h : Started c bound)
    (hramp : c.disabledRamp = some ramp) (hlate : bound + rampDurationS ≤ clock) :
    ramp.desired clock = .ok (disabledHoldQ, noMotion) := by
  obtain ⟨hstart, hduration, hgoal⟩ := h.ramp ramp hramp
  have helapsed : rampDurationS ≤ max 0 (clock - ramp.startedAt) := by
    apply le_max_of_le_right
    rw [le_sub_iff_add_le, add_comm]
    exact (add_le_add_left hstart _).trans hlate
  simp only [DisabledRamp.desired, hduration, hgoal, helapsed, or_true, if_true]

theorem Started.step (h : Started c bound)
    (hclock : c.disabledRamp = none → t.rampClock ≤ bound) (hfull : Full t.feedback)
    (hnext : (c.step model false t).next = .ok next) :
    Started next bound ∧ next.disabledRamp ≠ none ∧
      ∃ s, (c.step model false t).sent = some s ∧ s.target.kp = rampKp ∧ s.target.kd = rampKd ∧
        (bound + rampDurationS ≤ t.clock → s.target.pDes = disabledHoldQ) := by
  obtain ⟨target, hp, hsent⟩ := step_ok hnext
  obtain ⟨polled, feedback, hpolled, hfeedback, hcase⟩ := prepare_ok hp
  cases hpolled
  obtain ⟨q, hq⟩ := hfull feedback hfeedback
  obtain ⟨hnone, -, -⟩ | ⟨qMeas, ff, d, -, hd, rfl⟩ := hcase
  · rw [hq] at hnone
    cases hnone
  · obtain ⟨ramp, hramp⟩ := ensureRamp_some h.mode qMeas t.rampClock
    have hensured := h.ensured (q := qMeas) hclock
    rw [desired_disabled hensured.mode hramp] at hd
    obtain ⟨⟨p, v⟩, hdesired, hd⟩ := map_eq_ok.mp hd
    cases hd
    refine ⟨hensured, ?_, _, hsent, rfl, rfl, ?_⟩
    · rw [hramp]
      exact Option.some_ne_none _
    · intro hlate
      rw [hensured.done hramp hlate] at hdesired
      cases hdesired
      rfl

theorem AtHold.append {first rest : List Sent} (h : AtHold rest) : AtHold (first ++ rest) := by
  obtain ⟨s, hs, hhold⟩ := h
  refine ⟨s, ?_, hhold⟩
  rw [List.getLast?_append, Option.mem_def.mp hs]
  rfl

/-- The homing loop, from a tick on: it ends at the parking pose, unless that tick was the last. -/
theorem homingLoop_atHold (h : Started c bound) (hlast : c.disabledRamp = none → last + gap ≤ bound)
    (hbound : bound + rampDurationS + gap ≤ deadline) (hpaced : Paced gap deadline last turns)
    (hmeasured : Measured deadline turns)
    (hreturned : (c.homingLoop model deadline turns).exit = .returned) :
    AtHold (c.homingLoop model deadline turns).sent ∨
      (c.homingLoop model deadline turns).sent = [] ∧ deadline ≤ last + gap := by
  induction turns generalizing c last with
  | nil => cases hreturned
  | cons turn turns ih =>
    obtain ⟨-, hcheck, hnext⟩ := hpaced
    simp only [ArmController.homingLoop] at hreturned ⊢
    by_cases hdone : deadline ≤ turn.check
    · rw [if_pos hdone]
      exact Or.inr ⟨rfl, hdone.trans hcheck⟩
    · rw [if_neg hdone] at hreturned ⊢
      obtain ⟨-, hramp, hclock, hrest⟩ := hnext (not_le.mp hdone)
      obtain ⟨hfull, hmeasured⟩ := hmeasured (not_le.mp hdone)
      cases hstep : (c.step model false turn.tick).next with
      | error e =>
        rw [hstep] at hreturned
        cases hreturned
      | ok u =>
        rw [hstep] at hreturned
        obtain ⟨hu, hsome, s, hs, hkp, hkd, hhold⟩ :=
          h.step (fun hnone => (hramp.trans hclock).trans (hlast hnone)) hfull hstep
        simp only [hs, Option.toList_some]
        obtain hat | ⟨hempty, hlate⟩ :=
          ih hu (fun hnone => absurd hnone hsome) hrest hmeasured hreturned
        · exact Or.inl hat.append
        · rw [hempty]
          refine Or.inl ⟨s, rfl, hhold ?_, hkp, hkd⟩
          exact le_of_add_le_add_right (hbound.trans hlate)

theorem Started.entered {feedback : Except Part (Option (List ℚ))} {clock : ℚ}
    (hclock : clock ≤ bound) (h : c.enterHold feedback clock = .ok next) :
    Started next bound := by
  simp only [ArmController.enterHold] at h
  by_cases hd : c.modeValue = .disabled
  · rw [if_neg fun hne => hne hd] at h
    cases h
    exact ⟨hd, by rintro ramp ⟨⟩⟩
  · rw [if_pos hd] at h
    have hchanged := onModeChange_ok h
    obtain ⟨q, -, hramp⟩ := hchanged.ramp rfl
    refine ⟨hchanged.mode, ?_⟩
    intro ramp hr
    cases hramp.symm.trans hr
    exact ⟨hclock, rfl, rfl⟩

theorem homeToDisabledHold_atHold {left : ArmController} {h : Homing} (hpos : 0 < settleS)
    (hgood : GoodHoming model left settleS h) :
    AtHold (left.homeToDisabledHold model settleS h).sent := by
  have hreturned := hgood.returned
  have hhalf : 0 < settleS / 2 := half_pos hpos
  simp only [ArmController.homeToDisabledHold] at hreturned ⊢
  cases hwait : h.awaited with
  | error part =>
    rw [hwait] at hreturned
    cases hreturned
  | ok u =>
    rw [hwait] at hreturned
    cases hentered : left.enterHold h.entryFeedback h.entryClock with
    | error e =>
      simp only [hentered] at hreturned
      cases hreturned
    | ok entered =>
      simp only [hentered] at hreturned ⊢
      have hstarted : Started entered (h.startClock + settleS / 2) :=
        Started.entered (hgood.clock.trans (le_add_of_nonneg_right hhalf.le)) hentered
      have hdeadline : h.startClock + settleS / 2 + rampDurationS + settleS / 2 =
          h.startClock + rampDurationS + max 0 settleS := by
        rw [max_eq_right hpos.le]
        ring
      obtain hat | ⟨-, hlate⟩ := homingLoop_atHold hstarted (fun _ => le_rfl) hdeadline.le
        hgood.paced hgood.measured hreturned
      · exact hat
      · rw [← hdeadline] at hlate
        have hramp : (0 : ℚ) < rampDurationS := by decide +kernel
        have hlong : h.startClock + settleS / 2 <
            h.startClock + settleS / 2 + rampDurationS + settleS / 2 :=
          (lt_add_of_pos_right _ hramp).trans (lt_add_of_pos_right _ hhalf)
        exact absurd hlate (not_le.mpr hlong)

/-- Every run whose control loop is left by a stop ends at the parking pose. -/
theorem run_atHold {c left : ArmController} {loop : List LoopTurn} {h : Homing} {settleS : ℚ}
    (hpos : 0 < settleS) (hstopped : (c.controlLoop model loop).2 = some left)
    (hgood : GoodHoming model left settleS h) : AtHold (c.run model true settleS loop h).sent := by
  have hrun : c.run model true settleS loop h =
      { left.homeToDisabledHold model settleS h with
        sent := (c.controlLoop model loop).1.sent ++
          (left.homeToDisabledHold model settleS h).sent } := by
    simp only [ArmController.run]
    split
    · next looped u heq =>
      rw [heq] at hstopped
      cases hstopped
      rw [if_pos trivial, heq]
    · next looped heq =>
      rw [heq] at hstopped
      cases hstopped
  rw [hrun]
  exact (homeToDisabledHold_atHold hpos hgood).append

def turnAt (seconds : ℚ) : HomingTurn :=
  { check := seconds
    tick := { idleTick with rampClock := seconds, clock := seconds } }

def slowHoming : Homing :=
  { awaited := .ok ()
    entryFeedback := .ok (some (List.replicate 7 0))
    entryClock := 0
    startClock := 0
    turns := [turnAt 5, turnAt 10, turnAt 15] }

theorem run_atHold_stopped :
    AtHold (ArmController.run stillModel { modeValue := .commandFollowing } true 12
      [{ stop := .ok true, tick := idleTick }] slowHoming).sent := by
  have hleft : (ArmController.controlLoop stillModel { modeValue := .commandFollowing }
      [{ stop := .ok true, tick := idleTick }]).2 = some { modeValue := .commandFollowing } := rfl
  apply run_atHold (by decide +kernel) hleft
  constructor
  · decide +kernel
  · exact le_rfl
  · simp only [slowHoming, turnAt, Paced]
    refine ⟨by decide +kernel, by decide +kernel, fun _ => ⟨le_rfl, le_rfl, by decide +kernel, ?_⟩⟩
    refine ⟨by decide +kernel, by decide +kernel, fun _ => ⟨le_rfl, le_rfl, by decide +kernel, ?_⟩⟩
    exact ⟨by decide +kernel, by decide +kernel, fun _ => ⟨le_rfl, le_rfl, by decide +kernel,
      True.intro⟩⟩
  · have hfull : ∀ seconds, Full (turnAt seconds).tick.feedback := by
      intro seconds q hq
      cases hq
      exact ⟨noMotion, by decide +kernel⟩
    exact fun _ => ⟨hfull 5, fun _ => ⟨hfull 10, fun _ => ⟨hfull 15, True.intro⟩⟩⟩

/-- When the solver raises, the arm is left where the last command has sent it. -/
theorem solver_error_not_homed :
    (ArmController.run { stillModel with ik := fun _ _ _ => .error .ikSolver }
      { modeValue := .commandFollowing } true 12
      [{ stop := .ok false, tick := NeroSlew.commandTick },
        { stop := .ok false, tick := { idleTick with endPose := .ok (some noMotion) } }]
      slowHoming).exit = .raised (.raised .ikSolver) ∧
    ¬ AtHold (ArmController.run { stillModel with ik := fun _ _ _ => .error .ikSolver }
      { modeValue := .commandFollowing } true 12
      [{ stop := .ok false, tick := NeroSlew.commandTick },
        { stop := .ok false, tick := { idleTick with endPose := .ok (some noMotion) } }]
      slowHoming).sent := by
  refine ⟨by decide +kernel, ?_⟩
  rintro ⟨s, hs, hhold, -⟩
  have hsent : (ArmController.run { stillModel with ik := fun _ _ _ => .error .ikSolver }
      { modeValue := .commandFollowing } true 12
      [{ stop := .ok false, tick := NeroSlew.commandTick },
        { stop := .ok false, tick := { idleTick with endPose := .ok (some noMotion) } }]
      slowHoming).sent.getLast?.map (·.target.pDes) = some (Vector.replicate 7 (pi / 12)) := by
    decide +kernel
  rw [Option.mem_def.mp hs] at hsent
  exact absurd (hhold.symm.trans (Option.some.inj hsent)) (by decide +kernel)

end Homing

end NeroParking
