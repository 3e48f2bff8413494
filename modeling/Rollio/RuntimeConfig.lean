import Rollio.BusMessages
import Rollio.Text

/-! The assembler's share of the runtime configuration, and the codec and robot kinds
it mentions. -/
namespace RuntimeConfig
open BusMessages (PixelFormat)
open Text (blank)

inductive EpisodeFormat where
  | leRobotV21 | leRobotV30 | mcap
  deriving DecidableEq, Repr

inductive EncoderCodec where
  | h264 | h265 | av1 | mjpg | rvl
  deriving DecidableEq, Repr

/-- The derived `Debug` rendering, which one stream error message prints. -/
def EncoderCodec.debugName : EncoderCodec → String
  | .h264 => "H264"
  | .h265 => "H265"
  | .av1 => "Av1"
  | .mjpg => "Mjpg"
  | .rvl => "Rvl"

def EncoderCodec.asStr : EncoderCodec → String
  | .h264 => "h264"
  | .h265 => "h265"
  | .av1 => "av1"
  | .mjpg => "mjpg"
  | .rvl => "rvl"

inductive ContainerKind where
  | mp4 | mkv | rvlNative
  deriving DecidableEq, Repr

def ContainerKind.extension : ContainerKind → String
  | .mp4 => "mp4"
  | .mkv => "mkv"
  | .rvlNative => "rvl"

def containerFor : EncoderCodec → ContainerKind
  | .h264 | .h265 | .mjpg => .mp4
  | .av1 => .mkv
  | .rvl => .rvlNative

inductive RobotStateKind where
  | jointPosition | jointVelocity | jointEffort
  | endEffectorPose | endEffectorTwist | endEffectorWrench
  | parallelPosition | parallelVelocity | parallelEffort
  deriving DecidableEq, Repr

def RobotStateKind.topicSuffix : RobotStateKind → String
  | .jointPosition => "joint_position"
  | .jointVelocity => "joint_velocity"
  | .jointEffort => "joint_effort"
  | .endEffectorPose => "end_effector_pose"
  | .endEffectorTwist => "end_effector_twist"
  | .endEffectorWrench => "end_effector_wrench"
  | .parallelPosition => "parallel_position"
  | .parallelVelocity => "parallel_velocity"
  | .parallelEffort => "parallel_effort"

inductive RobotCommandKind where
  | jointPosition | jointMit | endPose | parallelPosition | parallelMit
  deriving DecidableEq, Repr

def RobotCommandKind.topicSuffix : RobotCommandKind → String
  | .jointPosition => "joint_position"
  | .jointMit => "joint_mit"
  | .endPose => "end_pose"
  | .parallelPosition => "parallel_position"
  | .parallelMit => "parallel_mit"

structure AssemblerCameraRuntimeConfigV2 where
  channelId : String
  width : UInt32
  height : UInt32
  fps : UInt32
  pixelFormat : PixelFormat
  codec : EncoderCodec
  recordingPacketTopic : String
  deriving DecidableEq, Repr

structure AssemblerObservationRuntimeConfigV2 where
  channelId : String
  stateKind : RobotStateKind
  stateTopic : String
  valueLen : UInt32
  deriving DecidableEq, Repr

structure AssemblerActionRuntimeConfigV2 where
  channelId : String
  commandKind : RobotCommandKind
  commandTopic : String
  valueLen : UInt32
  deriving DecidableEq, Repr

structure AssemblerRuntimeConfigV2 where
  processId : String
  format : EpisodeFormat
  fps : UInt32
  chunkSize : UInt32
  missingEosTimeoutMs : UInt64
  stagingDir : String
  stagingSlots : UInt32
  cameras : List AssemblerCameraRuntimeConfigV2
  observations : List AssemblerObservationRuntimeConfigV2
  actions : List AssemblerActionRuntimeConfigV2
  embeddedConfigToml : String
  deriving DecidableEq, Repr

/-- The checks run in this order and the first one that fails names itself. -/
def AssemblerRuntimeConfigV2.validate (c : AssemblerRuntimeConfigV2) : Except String Unit :=
  if blank c.processId || blank c.stagingDir then
    .error "assembler runtime v2: process_id and staging_dir must not be empty"
  else if c.fps == 0 || c.fps > 1000 || c.chunkSize == 0 then
    .error "assembler runtime v2: fps must be 1..1000 and chunk_size must be > 0"
  else if c.missingEosTimeoutMs == 0 then
    .error "assembler runtime v2: missing_eos_timeout_ms must be > 0"
  else if c.stagingSlots == 0 || c.stagingSlots > 64 then
    .error "assembler runtime v2: staging_slots must be in 1..=64"
  else if c.cameras.isEmpty then
    .error "assembler runtime v2: at least one camera is required"
  else match c.cameras.find? fun camera => blank camera.recordingPacketTopic with
    | some camera => .error ("assembler runtime v2: camera \"" ++ camera.channelId ++
        "\" requires non-empty recording_packet_topic")
    | none =>
      if blank c.embeddedConfigToml then
        .error "assembler runtime v2: embedded_config_toml must not be empty"
      else .ok ()

end RuntimeConfig
