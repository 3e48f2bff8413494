import Mathlib.Algebra.Field.Rat
import Mathlib.Algebra.Order.Field.Basic
import Mathlib.Algebra.Order.Ring.Rat
import Rollio.Outcomes
import Rollio.RateLimiting

/-! The arm channel of the Nero device: one tick of its control loop in every mode, the ramp to
the parking pose, and the loop with the homing behind it. Numbers are exact. -/
namespace NeroArm
open RateLimiting (toward)
open Outcomes

section Values

abbrev Joints := Vector ℚ 7

/-- `math.pi`, as the double it is. -/
def pi : ℚ := 884279719003555 / 281474976710656

def rampDurationS : ℚ := 3
def homingSettleS : ℚ := 1
def trackingKp : ℚ := 20
def trackingKd : ℚ := 1
def rampKp : ℚ := trackingKp
def rampKd : ℚ := trackingKd
def freeDriveKd : ℚ := 0
def identifyingKd : ℚ := 0
def maxCommandJointDeltaRad : ℚ := pi / 12

def disabledHoldQ : Joints := #v[0, 0, 0, pi / 2, 0, 0, pi / 2]

def noMotion : Joints := Vector.replicate 7 0

inductive DeviceChannelMode where
  | disabled | enabled | freeDrive | commandFollowing | identifying
  deriving DecidableEq, Repr

inductive Part where
  | backend | ipc | model | ikSolver | stopCheck
  deriving DecidableEq, Repr

inductive ArmError where
  | raised (part : Part)
  | rampShape
  deriving DecidableEq, Repr

def ask {α : Type} (answer : Except Part α) : Except ArmError α := answer.mapError .raised

@[simp] theorem ask_eq_ok {α : Type} {answer : Except Part α} {a : α} :
    ask answer = .ok a ↔ answer = .ok a := mapError_eq_ok

@[simp] theorem ask_ne_rampShape {α : Type} {answer : Except Part α} :
    ask answer ≠ .error .rampShape := by
  cases answer <;> rintro ⟨⟩

/-- The message of a joint vector; of the declared length only the first values are read. -/
structure JointVector15 where
  len : UInt32
  values : Vector ℚ 15
  deriving DecidableEq

structure JointMitCommand15 where
  len : UInt32
  position : Vector ℚ 15
  velocity : Vector ℚ 15
  kp : Vector ℚ 15
  kd : Vector ℚ 15
  deriving DecidableEq

/-- `[x, y, z, qx, qy, qz, qw]`. -/
abbrev Pose7 := Vector ℚ 7

inductive ArmCommand where
  | endPose (pose : Pose7)
  | jointMit (mit : JointMitCommand15)
  | jointPosition (position : JointVector15)
  deriving DecidableEq

def toJoints (values : List ℚ) : Option Joints :=
  if h : values.length = 7 then some ⟨values.toArray, h⟩ else none

/-- The feedback of a tick, unless it is missing or too short. -/
def measured (feedback : Option (List ℚ)) : Option Joints :=
  feedback.bind fun q => toJoints (q.take 7)

end Values

section PoseFix

def invSqrt2 : ℚ := 1592262918131443 / 2251799813685248

structure Quaternion where
  x : ℚ
  y : ℚ
  z : ℚ
  w : ℚ
  deriving DecidableEq

def qBaseFix : Quaternion := { x := 0, y := 0, z := 1, w := 0 }

def qTcpFix : Quaternion := { x := invSqrt2, y := 0, z := invSqrt2, w := 0 }

def quatMul (a b : Quaternion) : Quaternion :=
  { x := a.w * b.x + a.x * b.w + a.y * b.z - a.z * b.y
    y := a.w * b.y - a.x * b.z + a.y * b.w + a.z * b.x
    z := a.w * b.z + a.x * b.y - a.y * b.x + a.z * b.w
    w := a.w * b.w - a.x * b.x - a.y * b.y - a.z * b.z }

def quatInv (q : Quaternion) : Quaternion := { x := -q.x, y := -q.y, z := -q.z, w := q.w }

def rotateVecByQuat (q : Quaternion) (vx vy vz : ℚ) : ℚ × ℚ × ℚ :=
  let ux := q.y * vz - q.z * vy + q.w * vx
  let uy := q.z * vx - q.x * vz + q.w * vy
  let uz := q.x * vy - q.y * vx + q.w * vz
  (vx + 2 * (q.y * uz - q.z * uy), vy + 2 * (q.z * ux - q.x * uz),
    vz + 2 * (q.x * uy - q.y * ux))

/-- A command of the aligned frame in the native frame of the arm. -/
def applyCommandPoseFix (pose : Pose7) : Pose7 :=
  let (tx, ty, tz) := rotateVecByQuat (quatInv qBaseFix) (pose.get 0) (pose.get 1) (pose.get 2)
  let aligned : Quaternion :=
    { x := pose.get 3, y := pose.get 4, z := pose.get 5, w := pose.get 6 }
  let q := quatMul (quatMul (quatInv qBaseFix) aligned) qTcpFix
  #v[tx, ty, tz, q.x, q.y, q.z, q.w]

end PoseFix

section Ramp

structure DisabledRamp where
  qStart : List ℚ
  startedAt : ℚ
  durationS : ℚ := rampDurationS
  qEnd : Joints := disabledHoldQ
  deriving DecidableEq

/-- A start pose of one value stands for all joints; of any other wrong length it raises. -/
def broadcast : List ℚ → Except ArmError Joints
  | [q] => .ok (Vector.replicate 7 q)
  | values =>
    match toJoints values with
    | some q => .ok q
    | none => .error .rampShape

def DisabledRamp.desired (r : DisabledRamp) (now : ℚ) : Except ArmError (Joints × Joints) :=
  let elapsed := max 0 (now - r.startedAt)
  if r.durationS ≤ 0 ∨ r.durationS ≤ elapsed then .ok (r.qEnd, noMotion)
  else do
    let qStart ← broadcast r.qStart
    let alpha := elapsed / r.durationS
    pure (qStart.zipWith (fun s e => s + (e - s) * alpha) r.qEnd,
      qStart.zipWith (fun s e => (e - s) / r.durationS) r.qEnd)

end Ramp

section Controller

structure NeroModel where
  gravityTorquesClipped : Joints → Except Part Joints
  /-- The joints that reach a pose, from a seed and near an anchor. -/
  ik : Pose7 → Joints → Joints → Except Part Joints

structure ArmController where
  modeValue : DeviceChannelMode
  disabledRamp : Option DisabledRamp := none
  latestJointTarget : Option Joints := none
  lastSentPDes : Option Joints := none
  latestIkTarget : Option Joints := none
  deriving DecidableEq

/-- What the backend, the bus and the clock answer in one tick; what a tick does not ask for does
not matter. -/
structure Tick where
  modeMessage : Except Part (Option DeviceChannelMode)
  /-- The feedback and the time that a change of mode reads for itself. -/
  entryFeedback : Except Part (Option (List ℚ))
  entryClock : ℚ
  publishMode : Except Part Unit
  feedback : Except Part (Option (List ℚ))
  /-- The time at which a missing ramp is made up for. -/
  rampClock : ℚ
  /-- The time for which the ramp is asked. -/
  clock : ℚ
  endPose : Except Part (Option Pose7)
  jointMit : Except Part (Option JointMitCommand15)
  jointPosition : Except Part (Option JointVector15)
  /-- The joint whose `move_mit` raises, if one does. -/
  moveFailure : Option (Fin 7 × Part)
  publishStates : Except Part Unit

/-- What the motors are given: per joint a position, a velocity and a torque, and the gains. -/
structure MitTarget where
  pDes : Joints
  vDes : Joints
  kp : ℚ
  kd : ℚ
  ff : Joints
  deriving DecidableEq

structure Sent where
  target : MitTarget
  joints : ℕ
  deriving DecidableEq

structure Outcome where
  sent : Option Sent
  next : Except ArmError ArmController

/-- What a change of mode starts the ramp from: the feedback, however short, or zeros. -/
def startPose (feedback : Option (List ℚ)) : List ℚ :=
  match feedback with
  | some q => q.take 7
  | none => List.replicate 7 0

def ArmController.onModeChange (c : ArmController)
    (feedback : Except Part (Option (List ℚ))) (clock : ℚ) (nextMode : DeviceChannelMode) :
    Except ArmError ArmController := do
  let left := if c.modeValue = .disabled then { c with disabledRamp := none } else c
  let ramped ←
    if nextMode = .disabled then do
      let qMeas ← ask feedback
      pure { left with
        disabledRamp := some { qStart := startPose qMeas, startedAt := clock } }
    else pure left
  let cleared :=
    if nextMode = .commandFollowing then
      { ramped with
        latestJointTarget := none
        latestIkTarget := none
        lastSentPDes := none }
    else ramped
  pure { cleared with modeValue := nextMode }

def ArmController.pollMode (c : ArmController) (acceptModeChanges : Bool) (t : Tick) :
    Except ArmError ArmController :=
  if acceptModeChanges then do
    match ← ask t.modeMessage with
    | some newMode =>
      if newMode ≠ c.modeValue then c.onModeChange t.entryFeedback t.entryClock newMode
      else pure c
    | none => pure c
  else pure c

/-- A disabled tick without a ramp starts one at the measured joints. -/
def ArmController.ensureRamp (c : ArmController) (qMeas : Joints) (clock : ℚ) : ArmController :=
  if c.modeValue = .disabled ∧ c.disabledRamp = none then
    { c with disabledRamp := some { qStart := qMeas.toList, startedAt := clock } }
  else c

def Tick.command (t : Tick) : Except Part (Option ArmCommand) := do
  match ← t.endPose with
  | some pose => pure (some (.endPose pose))
  | none =>
    match ← t.jointMit with
    | some mit => pure (some (.jointMit mit))
    | none =>
      match ← t.jointPosition with
      | some position => pure (some (.jointPosition position))
      | none => pure none

def firstValues (values : Vector ℚ 15) (len : UInt32) (rest : Joints) : Joints :=
  Vector.ofFn fun i =>
    if (i : ℕ) < min len.toNat 7 then values.get (Fin.castLE (by decide) i) else rest.get i

/-- The gain that a message carries in its first place, unless it is not positive. -/
def messageGain (gains : Vector ℚ 15) (len : UInt32) (fallback : ℚ) : ℚ :=
  if 0 < len.toNat ∧ 0 < gains.get 0 then gains.get 0 else fallback

structure Desired where
  pDes : Joints
  vDes : Joints
  kp : ℚ
  kd : ℚ
  deriving DecidableEq

def ArmController.followCommand (model : NeroModel) (c : ArmController)
    (command : Option ArmCommand) (qMeas : Joints) : Except Part (ArmController × Desired) :=
  match command with
  | some (.endPose pose) => do
    let qTarget ← model.ik (applyCommandPoseFix pose) (c.latestIkTarget.getD qMeas) qMeas
    pure ({ c with
        latestIkTarget := some qTarget
        latestJointTarget := some qTarget },
      { pDes := qTarget, vDes := noMotion, kp := trackingKp, kd := trackingKd })
  | some (.jointMit mit) =>
    let pDes := firstValues mit.position mit.len qMeas
    .ok ({ c with latestJointTarget := some pDes },
      { pDes
        vDes := firstValues mit.velocity mit.len noMotion
        kp := messageGain mit.kp mit.len trackingKp
        kd := messageGain mit.kd mit.len trackingKd })
  | some (.jointPosition position) =>
    let pDes := firstValues position.values position.len qMeas
    .ok ({ c with latestJointTarget := some pDes },
      { pDes, vDes := noMotion, kp := trackingKp, kd := trackingKd })
  | none =>
    .ok (c, { pDes := c.latestJointTarget.getD qMeas, vDes := noMotion, kp := trackingKp,
              kd := trackingKd })

def clampPDesToMaxJointDelta (pDes reference : Joints) : Joints :=
  reference.zipWith (toward maxCommandJointDeltaRad) pDes

/-- Every mode but the first three follows commands; without a ramp an assertion fails. -/
def ArmController.desired (model : NeroModel) (c : ArmController) (t : Tick) (qMeas : Joints) :
    Except ArmError (ArmController × Desired) :=
  match c.modeValue, c.disabledRamp with
  | .disabled, none => .error .rampShape
  | .disabled, some ramp => do
    let (pDes, vDes) ← ramp.desired t.clock
    pure (c, { pDes, vDes, kp := rampKp, kd := rampKd })
  | .freeDrive, _ => .ok (c, { pDes := noMotion, vDes := noMotion, kp := 0, kd := freeDriveKd })
  | .identifying, _ =>
    .ok (c, { pDes := noMotion, vDes := noMotion, kp := 0, kd := identifyingKd })
  | _, _ => do
    let (followed, d) ← ask (c.followCommand model (← ask t.command) qMeas)
    let pDes := clampPDesToMaxJointDelta d.pDes (followed.lastSentPDes.getD qMeas)
    pure ({ followed with lastSentPDes := some pDes }, { d with pDes })

/-- A tick up to its motor commands; without feedback for all joints there are none. -/
def ArmController.prepare (model : NeroModel) (c : ArmController) (acceptModeChanges : Bool)
    (t : Tick) : Except ArmError (ArmController × Option MitTarget) := do
  let c ← c.pollMode acceptModeChanges t
  ask t.publishMode
  match measured (← ask t.feedback) with
  | none => pure (c, none)
  | some qMeas =>
    let ramped := c.ensureRamp qMeas t.rampClock
    let ff ← ask (model.gravityTorquesClipped qMeas)
    let (next, d) ← ramped.desired model t qMeas
    pure (next, some { pDes := d.pDes, vDes := d.vDes, kp := d.kp, kd := d.kd, ff })

def ArmController.step (model : NeroModel) (c : ArmController) (acceptModeChanges : Bool)
    (t : Tick) : Outcome :=
  match c.prepare model acceptModeChanges t with
  | .error e => { sent := none, next := .error e }
  | .ok (next, none) => { sent := none, next := .ok next }
  | .ok (next, some target) =>
    match t.moveFailure with
    | some (joint, part) =>
      { sent := some { target, joints := joint }, next := .error (.raised part) }
    | none =>
      { sent := some { target, joints := 7 }, next := (ask t.publishStates).map fun _ => next }

end Controller

section Loops

inductive Exit where
  | returned
  | raised (e : ArmError)
  | running
  deriving DecidableEq

structure Result where
  sent : List Sent
  exit : Exit
  deriving DecidableEq

structure HomingTurn where
  check : ℚ
  tick : Tick

def ArmController.homingLoop (model : NeroModel) (deadline : ℚ) (c : ArmController) :
    List HomingTurn → Result
  | [] => { sent := [], exit := .running }
  | turn :: turns =>
    if deadline ≤ turn.check then { sent := [], exit := .returned }
    else
      let outcome := c.step model false turn.tick
      match outcome.next with
      | .error e => { sent := outcome.sent.toList, exit := .raised e }
      | .ok next =>
        let rest := next.homingLoop model deadline turns
        { rest with sent := outcome.sent.toList ++ rest.sent }

structure Homing where
  awaited : Except Part Unit
  entryFeedback : Except Part (Option (List ℚ))
  entryClock : ℚ
  /-- The time that the deadline is counted from. -/
  startClock : ℚ
  turns : List HomingTurn

/-- A controller that is already disabled drops its ramp, for a new one at the first tick. -/
def ArmController.enterHold (c : ArmController)
    (feedback : Except Part (Option (List ℚ))) (clock : ℚ) : Except ArmError ArmController :=
  if c.modeValue ≠ .disabled then c.onModeChange feedback clock .disabled
  else .ok { c with disabledRamp := none }

def ArmController.homeToDisabledHold (model : NeroModel) (c : ArmController) (settleS : ℚ)
    (h : Homing) : Result :=
  match h.awaited with
  | .error part => { sent := [], exit := .raised (.raised part) }
  | .ok () =>
    match c.enterHold h.entryFeedback h.entryClock with
    | .error e => { sent := [], exit := .raised e }
    | .ok entered =>
      entered.homingLoop model (h.startClock + rampDurationS + max 0 settleS) h.turns

structure LoopTurn where
  stop : Except Part Bool
  tick : Tick

def ArmController.controlLoop (model : NeroModel) (c : ArmController) :
    List LoopTurn → Result × Option ArmController
  | [] => ({ sent := [], exit := .running }, none)
  | turn :: turns =>
    match turn.stop with
    | .error part => ({ sent := [], exit := .raised (.raised part) }, none)
    | .ok true => ({ sent := [], exit := .returned }, some c)
    | .ok false =>
      let outcome := c.step model true turn.tick
      match outcome.next with
      | .error e => ({ sent := outcome.sent.toList, exit := .raised e }, none)
      | .ok next =>
        let (rest, left) := next.controlLoop model turns
        ({ rest with sent := outcome.sent.toList ++ rest.sent }, left)

/-- Only a loop that was stopped is followed by the homing. -/
def ArmController.run (model : NeroModel) (c : ArmController) (homeOnExit : Bool)
    (homingSettleS : ℚ) (turns : List LoopTurn) (h : Homing) : Result :=
  match c.controlLoop model turns with
  | (looped, some left) =>
    if homeOnExit then
      let homed := left.homeToDisabledHold model homingSettleS h
      { homed with sent := looped.sent ++ homed.sent }
    else looped
  | (looped, none) => looped

end Loops

section Specs
variable {model : NeroModel} {c next : ArmController} {t : Tick} {acceptModeChanges : Bool}

structure Changed (c : ArmController) (feedback : Except Part (Option (List ℚ))) (clock : ℚ)
    (nextMode : DeviceChannelMode) (next : ArmController) : Prop where
  mode : next.modeValue = nextMode
  ramp : nextMode = .disabled → ∃ qMeas, feedback = .ok qMeas ∧
    next.disabledRamp = some { qStart := startPose qMeas, startedAt := clock }
  cleared : nextMode = .commandFollowing →
    next.latestJointTarget = none ∧ next.lastSentPDes = none ∧ next.latestIkTarget = none

theorem onModeChange_ok {feedback : Except Part (Option (List ℚ))} {clock : ℚ}
    {nextMode : DeviceChannelMode} (h : c.onModeChange feedback clock nextMode = .ok next) :
    Changed c feedback clock nextMode next := by
  simp only [ArmController.onModeChange] at h
  by_cases hd : nextMode = .disabled
  · subst hd
    simp only [if_true, bind_eq_ok, ask_eq_ok, pure_eq_ok, reduceCtorEq,
      if_false] at h
    obtain ⟨qMeas, hq, -, rfl, rfl⟩ := h
    exact ⟨rfl, fun _ => ⟨qMeas, hq, rfl⟩, by rintro ⟨⟩⟩
  · simp only [if_neg hd, bind_eq_ok, pure_eq_ok, exists_eq_left'] at h
    subst h
    refine ⟨rfl, fun h => absurd h hd, fun hc => ?_⟩
    simp only [if_pos hc]
    exact ⟨trivial, trivial, trivial⟩

/-- A poll keeps the controller, or changes its mode to another that a message named. -/
theorem pollMode_ok (h : c.pollMode acceptModeChanges t = .ok next) :
    next = c ∨ acceptModeChanges = true ∧ ∃ newMode, t.modeMessage = .ok (some newMode) ∧
      newMode ≠ c.modeValue ∧ Changed c t.entryFeedback t.entryClock newMode next := by
  simp only [ArmController.pollMode] at h
  cases acceptModeChanges with
  | false => exact Or.inl (Except.ok.inj h).symm
  | true =>
    simp only [if_true, bind_eq_ok, ask_eq_ok] at h
    obtain ⟨message, hmessage, h⟩ := h
    cases message with
    | none => exact Or.inl (Except.ok.inj h).symm
    | some newMode =>
      by_cases hn : newMode = c.modeValue
      · simp only [hn, ne_eq, not_true_eq_false, if_false, pure_eq_ok] at h
        exact Or.inl h.symm
      · simp only [ne_eq, hn, not_false_eq_true, if_true] at h
        exact Or.inr ⟨rfl, newMode, hmessage, hn, onModeChange_ok h⟩

/-- A prepared tick has no target, for want of feedback, or the one that its mode desires. -/
theorem prepare_ok {target : Option MitTarget}
    (h : c.prepare model acceptModeChanges t = .ok (next, target)) :
    ∃ polled feedback, c.pollMode acceptModeChanges t = .ok polled ∧ t.feedback = .ok feedback ∧
      (measured feedback = none ∧ next = polled ∧ target = none ∨
        ∃ qMeas ff d, measured feedback = some qMeas ∧
          (polled.ensureRamp qMeas t.rampClock).desired model t qMeas = .ok (next, d) ∧
          target = some { pDes := d.pDes, vDes := d.vDes, kp := d.kp, kd := d.kd, ff }) := by
  simp only [ArmController.prepare, bind_eq_ok, ask_eq_ok, exists_unit] at h
  obtain ⟨polled, hpolled, -, feedback, hfeedback, h⟩ := h
  refine ⟨polled, feedback, hpolled, hfeedback, ?_⟩
  cases hm : measured feedback with
  | none =>
    rw [hm] at h
    cases h
    exact Or.inl ⟨rfl, rfl, rfl⟩
  | some qMeas =>
    rw [hm] at h
    simp only [bind_eq_ok, ask_eq_ok] at h
    obtain ⟨ff, -, ⟨u, d⟩, hd, h⟩ := h
    cases h
    exact Or.inr ⟨qMeas, ff, d, rfl, hd, rfl⟩

/-- A tick goes on only from a prepared one, and then has sent all of its target. -/
theorem step_ok (h : (c.step model acceptModeChanges t).next = .ok next) :
    ∃ target, c.prepare model acceptModeChanges t = .ok (next, target) ∧
      (c.step model acceptModeChanges t).sent = target.map fun target =>
        { target, joints := 7 } := by
  simp only [ArmController.step] at h ⊢
  cases hp : c.prepare model acceptModeChanges t with
  | error e =>
    rw [hp] at h
    cases h
  | ok prepared =>
    obtain ⟨u, target⟩ := prepared
    rw [hp] at h
    cases target with
    | none =>
      cases h
      exact ⟨none, rfl, rfl⟩
    | some target =>
      cases hf : t.moveFailure with
      | some failure =>
        rw [hf] at h
        cases h
      | none =>
        rw [hf] at h
        obtain ⟨-, -, rfl⟩ := map_eq_ok.mp h
        exact ⟨some target, rfl, rfl⟩

/-- What a tick sends, if only to some joints, is what it has prepared. -/
theorem step_sent {s : Sent} (h : (c.step model acceptModeChanges t).sent = some s) :
    ∃ next, c.prepare model acceptModeChanges t = .ok (next, some s.target) := by
  simp only [ArmController.step] at h
  cases hp : c.prepare model acceptModeChanges t with
  | error e =>
    rw [hp] at h
    cases h
  | ok prepared =>
    obtain ⟨u, target⟩ := prepared
    rw [hp] at h
    cases target with
    | none => cases h
    | some target =>
      cases hf : t.moveFailure with
      | some failure =>
        rw [hf] at h
        cases h
        exact ⟨u, rfl⟩
      | none =>
        rw [hf] at h
        cases h
        exact ⟨u, rfl⟩

@[simp] theorem ensureRamp_modeValue (c : ArmController) (q : Joints) (clock : ℚ) :
    (c.ensureRamp q clock).modeValue = c.modeValue := by
  simp only [ArmController.ensureRamp]
  split <;> rfl

theorem ensureRamp_of_ne (h : c.modeValue ≠ .disabled) (q : Joints) (clock : ℚ) :
    c.ensureRamp q clock = c := if_neg fun hd => h hd.1

end Specs

section Still

def stillModel : NeroModel :=
  { gravityTorquesClipped := fun _ => .ok noMotion
    ik := fun _ _ _ => .ok noMotion }

def idleTick : Tick :=
  { modeMessage := .ok none
    entryFeedback := .ok (some (List.replicate 7 0))
    entryClock := 0
    publishMode := .ok ()
    feedback := .ok (some (List.replicate 7 0))
    rampClock := 0
    clock := 0
    endPose := .ok none
    jointMit := .ok none
    jointPosition := .ok none
    moveFailure := none
    publishStates := .ok () }

end Still

end NeroArm
