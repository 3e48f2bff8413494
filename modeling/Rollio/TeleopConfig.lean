import Rollio.RuntimeConfig

/-! The configuration of one teleop router, over any type of numbers. -/
namespace TeleopConfig
open RuntimeConfig
open Text (blank)

inductive MappingStrategy where
  | directJoint | cartesian | parallel
  deriving DecidableEq, Repr

structure ChannelCommandDefaults (α : Type) where
  jointMitKp : List α := []
  jointMitKd : List α := []
  parallelMitKp : List α := []
  parallelMitKd : List α := []
  deriving DecidableEq, Repr

structure TeleopRuntimeConfigV2 (α : Type) where
  processId : String
  leaderChannelId : String
  followerChannelId : String
  leaderStateKind : RobotStateKind
  leaderStateTopic : String
  followerCommandKind : RobotCommandKind
  followerCommandTopic : String
  followerStateKind : Option RobotStateKind := none
  followerStateTopic : Option String := none
  syncMaxStepRad : Option α := none
  syncCompleteThresholdRad : Option α := none
  mapping : MappingStrategy := .directJoint
  jointIndexMap : List UInt32 := []
  jointScales : List α := []
  commandDefaults : ChannelCommandDefaults α := {}
  deriving DecidableEq, Repr

def TeleopRuntimeConfigV2.validate {α : Type} (isFinite : α → Bool)
    (c : TeleopRuntimeConfigV2 α) : Except String Unit :=
  if blank c.processId then
    .error "teleop runtime v2: process_id must not be empty"
  else if blank c.leaderChannelId || blank c.followerChannelId then
    .error ("teleop runtime v2: leader_channel_id and follower_channel_id " ++
      "must not be empty")
  else if blank c.leaderStateTopic || blank c.followerCommandTopic then
    .error "teleop runtime v2: state and command topics must not be empty"
  else if c.jointScales.any fun scale => !isFinite scale then
    .error "teleop runtime v2: joint_scales must be finite"
  else .ok ()

end TeleopConfig
