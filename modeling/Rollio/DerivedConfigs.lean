import Rollio.ProjectConfigs

/-! The configurations of the child processes that a project derives. -/
namespace DerivedConfigs
open BusMessages RuntimeConfig TeleopConfig EncoderConfigs DeviceConfigs ProjectConfigs
open TeleopMapping (maxParallel)

def RobotStateKind.valueLen (kind : RobotStateKind) (dof : UInt32) : UInt32 :=
  match kind with
  | .jointPosition | .jointVelocity | .jointEffort => dof
  | .parallelPosition | .parallelVelocity | .parallelEffort => min dof (UInt32.ofNat maxParallel)
  | .endEffectorPose => 7
  | .endEffectorTwist | .endEffectorWrench => 6

def deviceChannelId (deviceName channelType : String) : String := deviceName ++ "/" ++ channelType

def channelPrefixV2 (busRoot channelType : String) : String := busRoot ++ "/" ++ channelType

def cameraFramesTopicV2 (busRoot channelType : String) : String :=
  channelPrefixV2 busRoot channelType ++ "/frames"

def robotStateTopicV2 (busRoot channelType : String) (state : RobotStateKind) : String :=
  channelPrefixV2 busRoot channelType ++ "/states/" ++ state.topicSuffix

def robotCommandTopicV2 (busRoot channelType : String) (command : RobotCommandKind) : String :=
  channelPrefixV2 busRoot channelType ++ "/commands/" ++ command.topicSuffix

def recordingPacketServiceName (busRoot channelType : String) : String :=
  busRoot ++ "/" ++ channelType ++ "/recording-packets"

def previewPacketServiceName (busRoot channelType : String) : String :=
  busRoot ++ "/" ++ channelType ++ "/preview-packets"

def previewJpegServiceName (busRoot channelType : String) : String :=
  busRoot ++ "/" ++ channelType ++ "/preview-jpeg"

def previewControlServiceName (busRoot channelType : String) : String :=
  busRoot ++ "/" ++ channelType ++ "/preview-control"

def dotted (channelId : String) : String :=
  String.ofList (channelId.toList.map fun c => if c = '/' then '.' else c)

def recordingEncoderProcessId (channelId : String) : String := "encoder." ++ dotted channelId

def previewEncoderProcessId (channelId : String) : String := "preview-encoder." ++ dotted channelId

def assemblerProcessIdForFormat : EpisodeFormat → String
  | .leRobotV21 => "episode-lerobot"
  | .leRobotV30 => "episode-lerobot"
  | .mcap => "episode-mcap"

def episodeStagingRootV2 (stagingRoot : String) : String :=
  match stagingRoot.toList.getLast? with
  | none => "episodes"
  | some '/' => stagingRoot ++ "episodes"
  | some _ => stagingRoot ++ "/episodes"

structure ResolvedCameraChannel where
  channelId : String
  deviceName : String
  busRoot : String
  channelType : String
  frameTopic : String
  width : UInt32
  height : UInt32
  fps : UInt32
  pixelFormat : PixelFormat
  deriving DecidableEq, Repr

structure ResolvedRobotChannel (α : Type) where
  channelId : String
  deviceName : String
  driver : String
  busRoot : String
  channelType : String
  dof : UInt32
  stateTopics : List (RobotStateKind × String)
  recordedStates : List RobotStateKind
  controlFrequencyHz : α
  commandDefaults : ChannelCommandDefaults α
  valueLimits : List (StateValueLimitsEntry α)
  deriving DecidableEq, Repr

structure VisualizerCameraSourceConfig where
  channelId : String
  busRoot : String
  channelType : String
  previewResizePolicy : PreviewResizePolicy
  sourceWidth : Option UInt32
  sourceHeight : Option UInt32
  deriving DecidableEq, Repr

structure VisualizerRobotSourceConfig (α : Type) where
  channelId : String
  stateKind : RobotStateKind
  stateTopic : String
  valueMin : List α
  valueMax : List α
  deriving DecidableEq, Repr

structure VisualizerRuntimeConfigV2 (α : Type) where
  port : UInt16
  cameraSources : List VisualizerCameraSourceConfig
  robotSources : List (VisualizerRobotSourceConfig α)
  previewOutputMode : PreviewOutputMode
  deriving DecidableEq, Repr

/-- An H.264 camera is previewed as it comes, at its own size. -/
def previewResizePolicy (pixelFormat : PixelFormat) (preview : EncoderPreviewConfig) :
    PreviewResizePolicy :=
  if pixelFormat = .h264AnnexB ∧ preview.outputMode = .encoded ∧ preview.colorCodec = .h264 then
    .fixedSource
  else .dynamic

variable {α : Type} (platform : Platform α)

def resolveCamera (device : BinaryDeviceConfig α) (channel : DeviceChannelConfigV2 α) :
    Option ResolvedCameraChannel :=
  if channel.kind ≠ .camera ∨ !channel.enabled then none
  else channel.profile.map fun profile =>
    { channelId := deviceChannelId device.name channel.channelType
      deviceName := device.name
      busRoot := device.busRoot
      channelType := channel.channelType
      frameTopic := cameraFramesTopicV2 device.busRoot channel.channelType
      width := profile.width
      height := profile.height
      fps := profile.fps
      pixelFormat := profile.pixelFormat }

def resolvedCameraChannels (config : ProjectConfig α) : List ResolvedCameraChannel :=
  config.devices.flatMap fun device => device.channels.filterMap (resolveCamera device)

def resolveRobot (device : BinaryDeviceConfig α) (channel : DeviceChannelConfigV2 α) :
    Option (ResolvedRobotChannel α) :=
  if channel.kind ≠ .robot ∨ !channel.enabled then none
  else some
    { channelId := deviceChannelId device.name channel.channelType
      deviceName := device.name
      driver := device.driver
      busRoot := device.busRoot
      channelType := channel.channelType
      dof := channel.dof.getD 0
      stateTopics := channel.publishStates.map fun state =>
        (state, robotStateTopicV2 device.busRoot channel.channelType state)
      recordedStates :=
        if channel.recordedStates = [] then channel.publishStates else channel.recordedStates
      controlFrequencyHz := channel.controlFrequencyHz.getD platform.sixty
      commandDefaults := channel.commandDefaults
      valueLimits := channel.valueLimits }

def resolvedRobotChannels (config : ProjectConfig α) : List (ResolvedRobotChannel α) :=
  config.devices.flatMap fun device => device.channels.filterMap (resolveRobot platform device)

def cameraChannel (config : ProjectConfig α) (camera : ResolvedCameraChannel) :
    Option (DeviceChannelConfigV2 α) :=
  (config.deviceNamed camera.deviceName).bind fun device => device.channelNamed camera.channelType

def cameraPreviewConfig (config : ProjectConfig α) (camera : ResolvedCameraChannel) :
    EncoderPreviewConfig :=
  (((cameraChannel config camera).bind (·.previewSettings)).map ChannelPreviewConfig.resolve).getD {}

def cameraRecordConfig (config : ProjectConfig α) (camera : ResolvedCameraChannel) :
    EncoderConfig :=
  (((cameraChannel config camera).bind (·.record)).map ChannelRecordConfig.resolve).getD {}

def previewEnabled (config : ProjectConfig α) (camera : ResolvedCameraChannel) : Bool :=
  (cameraChannel config camera).any (·.previewEnabled)

def recordEnabled (config : ProjectConfig α) (camera : ResolvedCameraChannel) : Bool :=
  (cameraChannel config camera).any (·.recordEnabled)

def robotSources (robot : ResolvedRobotChannel α) : List (VisualizerRobotSourceConfig α) :=
  robot.stateTopics.map fun (stateKind, stateTopic) =>
    let entry := robot.valueLimits.find? fun entry => entry.stateKind == stateKind
    { channelId := robot.channelId
      stateKind
      stateTopic
      valueMin := (entry.map (·.min)).getD []
      valueMax := (entry.map (·.max)).getD [] }

def visualizerRuntimeConfigV2 (config : ProjectConfig α) : VisualizerRuntimeConfigV2 α :=
  let cameras := (resolvedCameraChannels config).filter (previewEnabled config)
  { port := config.visualizer.port
    cameraSources := cameras.map fun camera =>
      { channelId := camera.channelId
        busRoot := camera.busRoot
        channelType := camera.channelType
        previewResizePolicy :=
          previewResizePolicy camera.pixelFormat (cameraPreviewConfig config camera)
        sourceWidth := some camera.width
        sourceHeight := some camera.height }
    robotSources := (resolvedRobotChannels platform config).flatMap robotSources
    previewOutputMode :=
      cameras.foldl (fun _ camera => (cameraPreviewConfig config camera).outputMode) .encoded }

def recordingEncoderConfig (config : ProjectConfig α) (camera : ResolvedCameraChannel) :
    EncoderRuntimeConfigV2 :=
  let record := cameraRecordConfig config camera
  { processId := recordingEncoderProcessId camera.channelId
    channelId := camera.channelId
    frameTopic := camera.frameTopic
    role := .recording
    recording := some
      { codec := record.codecForPixelFormat camera.pixelFormat
        backend := record.backendForPixelFormat camera.pixelFormat
        queueSize := record.queueSize
        fps := camera.fps
        packetTopic := recordingPacketServiceName camera.busRoot camera.channelType
        chromaSubsampling := record.chromaSubsampling
        crf := record.crf
        preset := record.preset
        tune := record.tune
        bitDepth := record.bitDepth
        colorSpace := record.colorSpace }
    preview := none }

def previewEncoderConfig (config : ProjectConfig α) (camera : ResolvedCameraChannel) :
    EncoderRuntimeConfigV2 :=
  let preview := cameraPreviewConfig config camera
  let resizePolicy := previewResizePolicy camera.pixelFormat preview
  { processId := previewEncoderProcessId camera.channelId
    channelId := camera.channelId
    frameTopic := camera.frameTopic
    role := .preview
    recording := none
    preview := some
      { outputMode := preview.outputMode
        colorCodec := preview.colorCodec
        depthCodec := preview.depthCodec
        backend := if resizePolicy = .dynamic then preview.backend else .passthrough
        resizePolicy
        width := if resizePolicy = .dynamic then preview.width else camera.width
        height := if resizePolicy = .dynamic then preview.height else camera.height
        fps := preview.fps
        gopSeconds := preview.gopSeconds
        crf := preview.crf
        jpegQuality := preview.jpegQuality
        packetTopic :=
          if preview.outputMode = .encoded then
            some (previewPacketServiceName camera.busRoot camera.channelType)
          else none
        jpegTopic :=
          if preview.outputMode = .jpeg then
            some (previewJpegServiceName camera.busRoot camera.channelType)
          else none
        controlTopic := previewControlServiceName camera.busRoot camera.channelType } }

def encoderRuntimeConfigsV2 (config : ProjectConfig α) : List EncoderRuntimeConfigV2 :=
  (resolvedCameraChannels config).flatMap fun camera =>
    (if recordEnabled config camera then [recordingEncoderConfig config camera] else []) ++
    (if previewEnabled config camera then [previewEncoderConfig config camera] else [])

def assemblerCamera (config : ProjectConfig α) (camera : ResolvedCameraChannel) :
    AssemblerCameraRuntimeConfigV2 :=
  { channelId := camera.channelId
    width := camera.width
    height := camera.height
    fps := camera.fps
    pixelFormat := camera.pixelFormat
    codec := (cameraRecordConfig config camera).codecForPixelFormat camera.pixelFormat
    recordingPacketTopic := recordingPacketServiceName camera.busRoot camera.channelType }

def assemblerObservations (robot : ResolvedRobotChannel α) :
    List AssemblerObservationRuntimeConfigV2 :=
  (robot.stateTopics.filter fun entry => robot.recordedStates.contains entry.1).map
    fun (stateKind, stateTopic) =>
      { channelId := robot.channelId
        stateKind
        stateTopic
        valueLen := RobotStateKind.valueLen stateKind robot.dof }

def commandValueLen (command : RobotCommandKind) (dof : UInt32) : UInt32 :=
  match command with
  | .jointPosition | .jointMit => dof
  | .parallelPosition | .parallelMit => min dof (UInt32.ofNat maxParallel)
  | .endPose => 7

def assemblerActionFor (pairing : ChannelPairingConfig α) (device : BinaryDeviceConfig α)
    (follower : DeviceChannelConfigV2 α) : AssemblerActionRuntimeConfigV2 :=
  { channelId := deviceChannelId pairing.followerDevice pairing.followerChannelType
    commandKind := pairing.followerCommand
    commandTopic :=
      robotCommandTopicV2 device.busRoot pairing.followerChannelType pairing.followerCommand
    valueLen := commandValueLen pairing.followerCommand (follower.dof.getD 0) }

def assemblerAction (config : ProjectConfig α) (pairing : ChannelPairingConfig α) :
    Option AssemblerActionRuntimeConfigV2 := do
  let device ← config.deviceNamed pairing.followerDevice
  let follower ← device.channelNamed pairing.followerChannelType
  return assemblerActionFor pairing device follower

def assemblerRuntimeConfigV2 (config : ProjectConfig α) (embeddedConfigToml : String) :
    AssemblerRuntimeConfigV2 :=
  { processId := assemblerProcessIdForFormat config.episode.format
    format := config.episode.format
    fps := config.episode.fps
    chunkSize := config.episode.chunkSize
    missingEosTimeoutMs := config.assembler.missingEosTimeoutMs
    stagingDir := episodeStagingRootV2 config.assembler.stagingDir
    stagingSlots := config.assembler.stagingSlots
    cameras := ((resolvedCameraChannels config).filter (recordEnabled config)).map
      (assemblerCamera config)
    observations := (resolvedRobotChannels platform config).flatMap assemblerObservations
    actions := config.pairings.filterMap (assemblerAction config)
    embeddedConfigToml }

/-- The state whose values are those a command sets. -/
def feedbackKind : RobotCommandKind → RobotStateKind
  | .jointPosition | .jointMit => .jointPosition
  | .parallelPosition | .parallelMit => .parallelPosition
  | .endPose => .endEffectorPose

def teleopProcessId (pairing : ChannelPairingConfig α) : String :=
  "teleop." ++ pairing.leaderDevice ++ "." ++ pairing.leaderChannelType ++ ".to." ++
    pairing.followerDevice ++ "." ++ pairing.followerChannelType

def teleopConfigFor (pairing : ChannelPairingConfig α) (leaderDevice followerDevice :
    BinaryDeviceConfig α) (follower : DeviceChannelConfigV2 α) : TeleopRuntimeConfigV2 α :=
  let kind := feedbackKind pairing.followerCommand
  let published := follower.publishStates.contains kind
  { processId := teleopProcessId pairing
    leaderChannelId := deviceChannelId pairing.leaderDevice pairing.leaderChannelType
    followerChannelId := deviceChannelId pairing.followerDevice pairing.followerChannelType
    leaderStateKind := pairing.leaderState
    leaderStateTopic :=
      robotStateTopicV2 leaderDevice.busRoot pairing.leaderChannelType pairing.leaderState
    followerCommandKind := pairing.followerCommand
    followerCommandTopic :=
      robotCommandTopicV2 followerDevice.busRoot pairing.followerChannelType
        pairing.followerCommand
    followerStateKind := if published then some kind else none
    followerStateTopic :=
      if published then
        some (robotStateTopicV2 followerDevice.busRoot pairing.followerChannelType kind)
      else none
    syncMaxStepRad := some platform.teleopSyncMaxStepRad
    syncCompleteThresholdRad := some platform.teleopSyncCompleteThresholdRad
    mapping := pairing.mapping
    jointIndexMap := pairing.jointIndexMap
    jointScales := pairing.jointScales
    commandDefaults := follower.commandDefaults }

def teleopRuntimeConfig (config : ProjectConfig α) (pairing : ChannelPairingConfig α) :
    Option (TeleopRuntimeConfigV2 α) := do
  let leaderDevice ← config.deviceNamed pairing.leaderDevice
  let followerDevice ← config.deviceNamed pairing.followerDevice
  let follower ← followerDevice.channelNamed pairing.followerChannelType
  return teleopConfigFor platform pairing leaderDevice followerDevice follower

def teleopRuntimeConfigsV2 (config : ProjectConfig α) : List (TeleopRuntimeConfigV2 α) :=
  config.pairings.filterMap (teleopRuntimeConfig platform config)

end DerivedConfigs
