import Rollio.EncoderConfigs
import Rollio.TeleopMapping

/-! The devices of a project and their channels. -/
namespace DeviceConfigs
open BusMessages RuntimeConfig TeleopConfig EncoderConfigs Outcomes
open Text (blank)
open TeleopMapping (maxDof maxParallel)

structure Platform (α : Type) where
  isFinite : α → Bool
  /-- `x <= 0.0`. -/
  nonPositive : α → Bool
  /-- `x == 0.0`. -/
  isZero : α → Bool
  display : α → String
  debugStr : String → String
  /-- `60.0`. -/
  sixty : α
  /-- `DEFAULT_TELEOP_SYNC_MAX_STEP_RAD`, 0.005. -/
  teleopSyncMaxStepRad : α
  /-- `DEFAULT_TELEOP_SYNC_COMPLETE_THRESHOLD_RAD`, 0.05. -/
  teleopSyncCompleteThresholdRad : α

inductive DeviceType where
  | camera | robot
  deriving DecidableEq, Repr

inductive RobotMode where
  | freeDrive | commandFollowing | identifying | disabled
  deriving DecidableEq, Repr

def debugOption {β : Type} (debug : β → String) : Option β → String
  | none => "None"
  | some b => "Some(" ++ debug b ++ ")"

structure CameraChannelProfile where
  width : UInt32
  height : UInt32
  fps : UInt32
  pixelFormat : PixelFormat
  nativePixelFormat : Option String := none
  mjpegQuality : Option UInt32 := none
  h264BitrateBps : Option UInt32 := none
  h264Gop : Option UInt32 := none
  h264Preset : Option String := none
  h264Tune : Option String := none
  h264Profile : Option String := none
  deriving DecidableEq, Repr

def CameraChannelProfile.debug (debugStr : String → String) (p : CameraChannelProfile) : String :=
  "CameraChannelProfile \x7b width: " ++ toString p.width ++ ", height: " ++ toString p.height ++
    ", fps: " ++ toString p.fps ++ ", pixel_format: " ++ p.pixelFormat.debugName ++
    ", native_pixel_format: " ++ debugOption debugStr p.nativePixelFormat ++
    ", mjpeg_quality: " ++ debugOption toString p.mjpegQuality ++
    ", h264_bitrate_bps: " ++ debugOption toString p.h264BitrateBps ++
    ", h264_gop: " ++ debugOption toString p.h264Gop ++
    ", h264_preset: " ++ debugOption debugStr p.h264Preset ++
    ", h264_tune: " ++ debugOption debugStr p.h264Tune ++
    ", h264_profile: " ++ debugOption debugStr p.h264Profile ++ " \x7d"

structure StateValueLimitsEntry (α : Type) where
  stateKind : RobotStateKind
  min : List α := []
  max : List α := []
  deriving DecidableEq, Repr

structure DirectJointCompatibilityPeer where
  driver : String
  channelType : String
  deriving DecidableEq, Repr

structure DirectJointCompatibility where
  canLead : List DirectJointCompatibilityPeer := []
  canFollow : List DirectJointCompatibilityPeer := []
  deriving DecidableEq, Repr

structure DeviceChannelConfigV2 (α : Type) where
  channelType : String
  kind : DeviceType
  enabled : Bool := true
  name : Option String := none
  channelLabel : Option String := none
  mode : Option RobotMode := none
  dof : Option UInt32 := none
  publishStates : List RobotStateKind := []
  recordedStates : List RobotStateKind := []
  controlFrequencyHz : Option α := none
  profile : Option CameraChannelProfile := none
  previewEnabled : Bool := true
  recordEnabled : Bool := true
  record : Option ChannelRecordConfig := none
  previewSettings : Option ChannelPreviewConfig := none
  commandDefaults : ChannelCommandDefaults α := {}
  valueLimits : List (StateValueLimitsEntry α) := []
  directJointCompatibility : DirectJointCompatibility := {}
  supportedCommands : List RobotCommandKind := []
  deriving DecidableEq, Repr

structure BinaryDeviceConfig (α : Type) where
  name : String
  executable : Option String := none
  driver : String
  id : String
  busRoot : String
  channels : List (DeviceChannelConfigV2 α)
  deriving DecidableEq, Repr

variable {α : Type} (platform : Platform α)

def channelLabelText (deviceName channelType : String) : String :=
  "device \"" ++ deviceName ++ "\" channel \"" ++ channelType ++ "\": "

def CameraChannelProfile.validate (profile : CameraChannelProfile) (deviceName channelType : String) :
    Except String Unit := do
  if profile.width = 0 ∨ profile.height = 0 then
    throw (channelLabelText deviceName channelType ++
      "camera profile requires non-zero width and height")
  if profile.fps = 0 ∨ profile.fps > 1000 then
    throw (channelLabelText deviceName channelType ++ "camera profile fps must be 1..1000, got " ++
      toString profile.fps)
  if profile.nativePixelFormat.any blank then
    throw (channelLabelText deviceName channelType ++ "native_pixel_format must not be empty")

def validateCommandDefaults (defaults : ChannelCommandDefaults α) (deviceName channelType : String)
    (dof : ℕ) : Except String Unit := do
  [("joint_mit_kp", defaults.jointMitKp, maxDof), ("joint_mit_kd", defaults.jointMitKd, maxDof),
    ("parallel_mit_kp", defaults.parallelMitKp, maxParallel),
    ("parallel_mit_kd", defaults.parallelMitKd, maxParallel)].forM
      fun (label, values, limit) => do
        if values.any fun value => !platform.isFinite value then
          throw (channelLabelText deviceName channelType ++ label ++ " values must be finite")
        if values.length > limit then
          throw (channelLabelText deviceName channelType ++ label ++ " may contain at most " ++
            toString limit ++ " values")
  if defaults.jointMitKp ≠ [] ∧ dof ≠ 0 ∧ defaults.jointMitKp.length ≠ dof then
    throw (channelLabelText deviceName channelType ++ "joint_mit_kp length must match dof " ++
      toString dof)
  if defaults.jointMitKd ≠ [] ∧ dof ≠ 0 ∧ defaults.jointMitKd.length ≠ dof then
    throw (channelLabelText deviceName channelType ++ "joint_mit_kd length must match dof " ++
      toString dof)

def DeviceChannelConfigV2.validate (c : DeviceChannelConfigV2 α) (deviceName : String) :
    Except String Unit := do
  let label := channelLabelText deviceName c.channelType
  if blank c.channelType then
    throw ("device \"" ++ deviceName ++ "\": channel_type must not be empty")
  match c.kind with
  | .camera =>
    if c.mode.isSome then
      throw (label ++ "camera channels do not accept mode")
    if c.dof.isSome then
      throw (label ++ "camera channels do not accept dof")
    if c.publishStates ≠ [] ∨ c.recordedStates ≠ [] then
      throw (label ++ "camera channels do not accept publish_states or recorded_states")
    if c.controlFrequencyHz.isSome then
      throw (label ++ "camera channels do not accept control_frequency_hz")
    let profile ← okOr c.profile (label ++ "enabled camera channels require profile")
    profile.validate deviceName c.channelType
    validateCommandDefaults platform c.commandDefaults deviceName c.channelType 0
  | .robot =>
    if ¬ c.previewEnabled then
      throw (label ++ "robot channels do not accept preview_enabled = false")
    let dof ← okOr c.dof (label ++ "robot channels require dof")
    if dof = 0 ∨ dof.toNat > maxDof then
      throw (label ++ "dof must be 1.." ++ toString maxDof ++ ", got " ++ toString dof)
    if c.enabled ∧ c.mode.isNone then
      throw (label ++ "enabled robot channels require mode")
    if c.enabled ∧ c.publishStates = [] then
      throw (label ++ "enabled robot channels require publish_states")
    if c.recordedStates.any fun state => state ∉ c.publishStates then
      throw (label ++ "recorded_states must be a subset of publish_states")
    c.profile.forM fun profile =>
      throw (label ++ "robot channels do not accept profile (" ++
        profile.debug platform.debugStr ++ ")")
    if c.controlFrequencyHz.any fun freq => !platform.isFinite freq || platform.nonPositive freq then
      throw (label ++ "control_frequency_hz must be a positive finite number")
    validateCommandDefaults platform c.commandDefaults deviceName c.channelType dof.toNat

def checkChannels (deviceName : String) :
    List String → List (DeviceChannelConfigV2 α) → Except String Unit
  | _, [] => pure ()
  | seen, channel :: channels => do
    if channel.channelType ∈ seen then
      throw ("device \"" ++ deviceName ++ "\": duplicate channel_type \"" ++
        channel.channelType ++ "\"")
    channel.validate platform deviceName
    checkChannels deviceName (channel.channelType :: seen) channels

def BinaryDeviceConfig.validate (d : BinaryDeviceConfig α) : Except String Unit := do
  if blank d.name then
    throw "device: name must not be empty"
  if blank d.driver then
    throw ("device \"" ++ d.name ++ "\": driver must not be empty")
  if d.executable.any blank then
    throw ("device \"" ++ d.name ++ "\": executable must not be empty when set")
  if blank d.id then
    throw ("device \"" ++ d.name ++ "\": id must not be empty")
  if blank d.busRoot then
    throw ("device \"" ++ d.name ++ "\": bus_root must not be empty")
  if d.channels = [] then
    throw ("device \"" ++ d.name ++ "\": at least one [[devices.channels]] entry is required")
  checkChannels platform d.name [] d.channels

def BinaryDeviceConfig.channelNamed (d : BinaryDeviceConfig α) (channelType : String) :
    Option (DeviceChannelConfigV2 α) :=
  d.channels.find? fun channel => channel.channelType == channelType

end DeviceConfigs
