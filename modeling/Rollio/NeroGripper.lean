import Rollio.NeroArm

/-! The gripper channel of the Nero device: one tick of its control loop in every mode. -/
namespace NeroGripper
open Outcomes NeroArm

def maxWidthM : ℚ := 1 / 10
def identifyPeriodS : ℚ := 2

structure ParallelVector2 where
  len : UInt32
  values : Vector ℚ 2
  deriving DecidableEq

structure ParallelMitCommand2 where
  len : UInt32
  position : Vector ℚ 2
  kp : Vector ℚ 2
  deriving DecidableEq

inductive GripperCommand where
  | parallelMit (mit : ParallelMitCommand2)
  | parallelPosition (position : ParallelVector2)
  deriving DecidableEq

/-- A message without values is read, but not followed. -/
def GripperCommand.hasValue : GripperCommand → Bool
  | .parallelMit mit => 1 ≤ mit.len
  | .parallelPosition position => 1 ≤ position.len

inductive GripperError where
  | raised (part : Part)
  | notIdentifying
  deriving DecidableEq, Repr

structure GripperController where
  modeValue : DeviceChannelMode
  identifyStartedAt : Option ℚ := none
  defaultForceN : ℚ
  deriving DecidableEq

structure GripperTick where
  modeMessage : Except Part (Option DeviceChannelMode)
  /-- The time that a change of mode reads for itself. -/
  entryClock : ℚ
  publishMode : Except Part Unit
  clock : ℚ
  parallelMit : Except Part (Option ParallelMitCommand2)
  parallelPosition : Except Part (Option ParallelVector2)
  moveGripper : Except Part Unit
  publishStates : Except Part Unit

structure GripperTarget where
  widthM : ℚ
  forceN : ℚ
  deriving DecidableEq

structure GripperOutcome where
  sent : Option GripperTarget
  next : Except GripperError GripperController

def floorMod (a b : ℚ) : ℚ := a - b * (a / b).floor

/-- A triangle wave between closed and open. -/
def identifyTarget (elapsedS : ℚ) : ℚ :=
  let halfPeriod := identifyPeriodS / 2
  if halfPeriod ≤ 0 then 0
  else
    let phase := floorMod elapsedS identifyPeriodS / halfPeriod
    if phase < 1 then maxWidthM * phase else maxWidthM * (2 - phase)

def clipWidth (value : ℚ) : ℚ :=
  if value < 0 then 0 else if maxWidthM < value then maxWidthM else value

def GripperCommand.target (defaultForceN : ℚ) : GripperCommand → GripperTarget
  | .parallelMit mit =>
    { widthM := clipWidth (mit.position.get 0)
      forceN := if 0 < mit.kp.get 0 then mit.kp.get 0 else defaultForceN }
  | .parallelPosition position =>
    { widthM := clipWidth (position.values.get 0), forceN := defaultForceN }

def GripperController.onModeChange (c : GripperController) (clock : ℚ)
    (nextMode : DeviceChannelMode) : GripperController :=
  { c with
    modeValue := nextMode
    identifyStartedAt :=
      if nextMode = .identifying then some clock
      else if c.modeValue = .identifying then none
      else c.identifyStartedAt }

def GripperController.pollMode (c : GripperController) (t : GripperTick) :
    Except Part GripperController := do
  match ← t.modeMessage with
  | some newMode =>
    if newMode ≠ c.modeValue then pure (c.onModeChange t.entryClock newMode) else pure c
  | none => pure c

def GripperTick.command (t : GripperTick) : Except Part (Option GripperCommand) := do
  let mit := (← t.parallelMit).map GripperCommand.parallelMit
  match mit.filter GripperCommand.hasValue with
  | some command => pure (some command)
  | none =>
    let position := (← t.parallelPosition).map GripperCommand.parallelPosition
    pure (position.filter GripperCommand.hasValue)

/-- A tick up to its motor command. Disabled, free and enabled, the commands are only drained. -/
def GripperController.prepare (c : GripperController) (t : GripperTick) :
    Except GripperError (GripperController × Option GripperTarget) := do
  let c ← (c.pollMode t).mapError .raised
  t.publishMode.mapError .raised
  match c.modeValue with
  | .identifying =>
    match c.identifyStartedAt with
    | none => throw .notIdentifying
    | some startedAt =>
      pure (c, some
        { widthM := identifyTarget (max 0 (t.clock - startedAt)), forceN := c.defaultForceN })
  | .commandFollowing =>
    let command ← t.command.mapError .raised
    pure (c, command.map (·.target c.defaultForceN))
  | _ =>
    let _ ← t.parallelMit.mapError .raised
    let _ ← t.parallelPosition.mapError .raised
    pure (c, none)

def GripperController.step (c : GripperController) (t : GripperTick) : GripperOutcome :=
  match c.prepare t with
  | .error e => { sent := none, next := .error e }
  | .ok (next, none) =>
    { sent := none, next := (t.publishStates.mapError .raised).map fun _ => next }
  | .ok (next, some target) =>
    match t.moveGripper with
    | .error part => { sent := none, next := .error (.raised part) }
    | .ok () =>
      { sent := some target, next := (t.publishStates.mapError .raised).map fun _ => next }

end NeroGripper
