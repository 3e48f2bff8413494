import Rollio.TeleopConfig
import Mathlib.Algebra.Field.Defs

/-! The payloads on the state and command topics of a teleop pairing, and how one leader
state becomes a follower command. `K` stands for the numbers of the payloads. -/
namespace TeleopMapping
open RuntimeConfig TeleopConfig

def maxDof : ℕ := 15

def maxParallel : ℕ := 2

/-- The live prefix of a payload's array; the array behind `len` is never read. -/
structure Values (K : Type) (capacity : ℕ) where
  toList : List K
  len_le : toList.length ≤ capacity
  deriving DecidableEq

/-- What fits of a slice. -/
def Values.ofSlice {K : Type} (capacity : ℕ) (values : List K) : Values K capacity :=
  ⟨values.take capacity, List.length_take_le _ _⟩

theorem Values.ofSlice_toList {K : Type} {capacity : ℕ} {values : List K}
    (h : values.length ≤ capacity) : (Values.ofSlice capacity values).toList = values :=
  List.take_of_length_le h

structure VectorPayload (K : Type) (capacity : ℕ) where
  timestampUs : UInt64
  values : Values K capacity
  deriving DecidableEq

def VectorPayload.fromSlice {K : Type} {capacity : ℕ} (timestampUs : UInt64)
    (values : List K) : VectorPayload K capacity :=
  ⟨timestampUs, .ofSlice capacity values⟩

abbrev JointVector15 (K : Type) := VectorPayload K maxDof

abbrev ParallelVector2 (K : Type) := VectorPayload K maxParallel

structure MitPayload (K : Type) (capacity : ℕ) where
  timestampUs : UInt64
  position : Values K capacity
  velocity : Values K capacity
  effort : Values K capacity
  kp : Values K capacity
  kd : Values K capacity
  deriving DecidableEq

abbrev JointMitCommand15 (K : Type) := MitPayload K maxDof

abbrev ParallelMitCommand2 (K : Type) := MitPayload K maxParallel

/-- The values are `[x, y, z, qx, qy, qz, qw]`. -/
structure Pose7 (K : Type) where
  timestampUs : UInt64
  values : Vector K 7
  deriving DecidableEq

inductive LeaderState (K : Type) where
  | vector (timestampUs : UInt64) (values : List K)
  | pose (payload : Pose7 K)
  deriving DecidableEq

def stateTimestampUs {K : Type} : LeaderState K → UInt64
  | .vector timestampUs _ => timestampUs
  | .pose payload => payload.timestampUs

inductive ForwardedCommand (K : Type) where
  | jointPosition (payload : JointVector15 K)
  | jointMit (payload : JointMitCommand15 K)
  | parallelPosition (payload : ParallelVector2 K)
  | parallelMit (payload : ParallelMitCommand2 K)
  | endPose (payload : Pose7 K)
  deriving DecidableEq

def ForwardedCommand.kind {K : Type} : ForwardedCommand K → RobotCommandKind
  | .jointPosition _ => .jointPosition
  | .jointMit _ => .jointMit
  | .parallelPosition _ => .parallelPosition
  | .parallelMit _ => .parallelMit
  | .endPose _ => .endPose

/-- The joint targets of a command; a pose has none. -/
def commandJointTarget {K : Type} : ForwardedCommand K → Option (List K)
  | .jointPosition payload => some payload.values.toList
  | .jointMit payload => some payload.position.toList
  | .parallelPosition payload => some payload.values.toList
  | .parallelMit payload => some payload.position.toList
  | .endPose _ => none

/-- Writing through `command_joint_target_mut`. -/
def setJointTarget {K : Type} (target : List K) : ForwardedCommand K → ForwardedCommand K
  | .jointPosition payload => .jointPosition { payload with values := .ofSlice _ target }
  | .jointMit payload => .jointMit { payload with position := .ofSlice _ target }
  | .parallelPosition payload => .parallelPosition { payload with values := .ofSlice _ target }
  | .parallelMit payload => .parallelMit { payload with position := .ofSlice _ target }
  | .endPose payload => .endPose payload

def commandPose {K : Type} : ForwardedCommand K → Option (Pose7 K)
  | .endPose payload => some payload
  | _ => none

@[simp] theorem setJointTarget_kind {K : Type} (target : List K) (command : ForwardedCommand K) :
    (setJointTarget target command).kind = command.kind := by cases command <;> rfl

theorem commandJointTarget_set {K : Type} {command : ForwardedCommand K} {old target : List K}
    (h : commandJointTarget command = some old) (hl : target.length = old.length) :
    commandJointTarget (setJointTarget target command) = some target := by
  cases command with
  | endPose payload => cases h
  | jointPosition payload | parallelPosition payload =>
    cases h
    exact congrArg some (Values.ofSlice_toList (hl ▸ payload.values.len_le))
  | jointMit payload | parallelMit payload =>
    cases h
    exact congrArg some (Values.ofSlice_toList (hl ▸ payload.position.len_le))

inductive TeleopRouterError where
  | leaderValueOutOfRange (requested available : ℕ)
  | invalidCartesianRoute
  deriving DecidableEq, Repr

def TeleopRouterError.message : TeleopRouterError → String
  | .leaderValueOutOfRange requested available => "leader state only exposes " ++
      toString available ++ " values, required source index " ++ toString requested
  | .invalidCartesianRoute => "cartesian forwarding requires pose payloads on both sides"

section Mapping
variable {K : Type} [Field K]

def applyJointMapping (values : List K) (jointIndexMap : List UInt32) (jointScales : List K) :
    Except TeleopRouterError (List K) :=
  let outputLen :=
    if !jointIndexMap.isEmpty then jointIndexMap.length
    else if !jointScales.isEmpty then jointScales.length
    else values.length
  (List.range outputLen).mapM fun outputIndex =>
    let sourceIndex := (jointIndexMap[outputIndex]?.getD (UInt32.ofNat outputIndex)).toNat
    match values[sourceIndex]? with
    | none => .error (.leaderValueOutOfRange sourceIndex values.length)
    | some value => .ok (value * jointScales[outputIndex]?.getD 1)

/-- Gains the configuration does not name are `0`. -/
def mitCommand (capacity : ℕ) (timestampUs : UInt64) (values kp kd : List K) :
    MitPayload K capacity :=
  let position := Values.ofSlice capacity values
  let len := position.toList.length
  { timestampUs := timestampUs
    position := position
    velocity := .ofSlice capacity (List.replicate len 0)
    effort := .ofSlice capacity (List.replicate len 0)
    kp := .ofSlice capacity ((List.range len).map fun index => kp[index]?.getD 0)
    kd := .ofSlice capacity ((List.range len).map fun index => kd[index]?.getD 0) }

def jointMitCommand (timestampUs : UInt64) (values kp kd : List K) : JointMitCommand15 K :=
  mitCommand maxDof timestampUs values kp kd

def parallelMitCommand (timestampUs : UInt64) (values kp kd : List K) :
    ParallelMitCommand2 K :=
  mitCommand maxParallel timestampUs values kp kd

def mapLeaderState (config : TeleopRuntimeConfigV2 K) (state : LeaderState K) :
    Except TeleopRouterError (Option (ForwardedCommand K)) :=
  match config.mapping with
  | .cartesian =>
    match state, config.followerCommandKind with
    | .pose pose, .endPose => .ok (some (.endPose pose))
    | _, _ => .error .invalidCartesianRoute
  | .directJoint =>
    match state with
    | .pose _ => .error .invalidCartesianRoute
    | .vector timestampUs values =>
      match applyJointMapping values config.jointIndexMap config.jointScales with
      | .error e => .error e
      | .ok mapped =>
        match config.followerCommandKind with
        | .jointPosition => .ok (some (.jointPosition (.fromSlice timestampUs mapped)))
        | .jointMit => .ok (some (.jointMit (jointMitCommand timestampUs mapped
            config.commandDefaults.jointMitKp config.commandDefaults.jointMitKd)))
        | .parallelPosition | .parallelMit | .endPose => .error .invalidCartesianRoute
  | .parallel =>
    match state with
    | .pose _ => .error .invalidCartesianRoute
    | .vector timestampUs values =>
      let ratio := config.jointScales.head?.getD 1
      let mapped := values.map (· * ratio)
      match config.followerCommandKind with
      | .parallelPosition => .ok (some (.parallelPosition (.fromSlice timestampUs mapped)))
      | .parallelMit => .ok (some (.parallelMit (parallelMitCommand timestampUs mapped
          config.commandDefaults.parallelMitKp config.commandDefaults.parallelMitKd)))
      | .jointPosition | .jointMit | .endPose => .error .invalidCartesianRoute

/-- A state that maps gives a command of the configured kind, a pose exactly for the
cartesian mapping. -/
theorem mapLeaderState_ok {config : TeleopRuntimeConfigV2 K} {state : LeaderState K}
    {mapped : Option (ForwardedCommand K)} (h : mapLeaderState config state = .ok mapped) :
    ∃ command, mapped = some command ∧ command.kind = config.followerCommandKind ∧
      (commandJointTarget command = none ↔ config.mapping = .cartesian) := by
  unfold mapLeaderState at h
  split at h
  · next hm =>
    split at h
    · next hk =>
      cases h
      exact ⟨_, rfl, hk.symm, by simp [commandJointTarget, hm]⟩
    · cases h
  · next hm =>
    split at h
    · cases h
    · split at h
      · cases h
      · split at h
        all_goals cases h
        all_goals next hk => exact ⟨_, rfl, hk.symm, by simp [commandJointTarget, hm]⟩
  · next hm =>
    split at h
    · cases h
    · simp only at h
      split at h
      all_goals cases h
      all_goals next hk => exact ⟨_, rfl, hk.symm, by simp [commandJointTarget, hm]⟩

end Mapping

inductive FollowerCommandPublisher where
  | jointVector15 | jointMitCommand15 | parallelVector2 | parallelMitCommand2 | pose7
  deriving DecidableEq, Repr

def createCommandPublisher : RobotCommandKind → FollowerCommandPublisher
  | .jointPosition => .jointVector15
  | .jointMit => .jointMitCommand15
  | .parallelPosition => .parallelVector2
  | .parallelMit => .parallelMitCommand2
  | .endPose => .pose7

def publishCommand {K : Type} (publisher : FollowerCommandPublisher)
    (command : ForwardedCommand K) : Except String Unit :=
  match publisher, command with
  | .jointVector15, .jointPosition _ => .ok ()
  | .jointMitCommand15, .jointMit _ => .ok ()
  | .parallelVector2, .parallelPosition _ => .ok ()
  | .parallelMitCommand2, .parallelMit _ => .ok ()
  | .pose7, .endPose _ => .ok ()
  | _, _ => .error ("teleop router produced a command type that does not match " ++
      "the configured publisher")

theorem publishCommand_ok {K : Type} (command : ForwardedCommand K) :
    publishCommand (createCommandPublisher command.kind) command = .ok () := by
  cases command <;> rfl

end TeleopMapping
