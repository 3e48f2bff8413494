import Rollio.DeviceConfigs

/-! A project: its devices, its channel pairings, the settings of its processes, and the
checks every project file passes before anything is started. -/
namespace ProjectConfigs
open BusMessages RuntimeConfig TeleopConfig EncoderConfigs DeviceConfigs Outcomes
open Text (blank trim)

inductive CollectionMode where
  | teleop | intervention
  deriving DecidableEq, Repr

structure EpisodeConfig where
  format : EpisodeFormat := .leRobotV21
  fps : UInt32 := 30
  chunkSize : UInt32 := 1000
  deriving DecidableEq, Repr

def EpisodeConfig.validate (c : EpisodeConfig) : Except String Unit := do
  if c.fps = 0 ∨ c.fps > 1000 then
    throw ("episode: fps must be 1..1000, got " ++ toString c.fps)
  if c.chunkSize = 0 then
    throw "episode: chunk_size must be > 0"

structure AssemblerConfig where
  missingEosTimeoutMs : UInt64 := 30000
  stagingDir : String := "/dev/shm/rollio"
  stagingSlots : UInt32 := 4
  deriving DecidableEq, Repr

def AssemblerConfig.validate (c : AssemblerConfig) : Except String Unit := do
  if c.missingEosTimeoutMs = 0 then
    throw "assembler: missing_eos_timeout_ms must be > 0"
  if blank c.stagingDir then
    throw "assembler: staging_dir must not be empty"
  if c.stagingSlots = 0 then
    throw "assembler: staging_slots must be > 0"
  if c.stagingSlots > 64 then
    throw "assembler: staging_slots must be <= 64"

inductive StorageBackend where
  | local | http | dataloop
  deriving DecidableEq, Repr

structure StorageConfig where
  backend : StorageBackend := .local
  outputPath : Option String := some "./output"
  endpoint : Option String := none
  queueSize : UInt32 := 32
  dataloopToken : Option String := none
  dataloopProjectId : Option String := none
  deriving DecidableEq, Repr

def StorageConfig.validate (c : StorageConfig) : Except String Unit := do
  if c.queueSize = 0 then
    throw "storage: queue_size must be > 0"
  match c.backend with
  | .local =>
    if c.outputPath.all blank then
      throw "storage: local backend requires output_path"
  | .http =>
    if c.endpoint.all blank then
      throw "storage: http backend requires endpoint"
  | .dataloop =>
    if c.endpoint.all blank then
      throw "storage: dataloop backend requires endpoint (base_url)"
    if c.dataloopProjectId.all blank then
      throw "storage: dataloop backend requires dataloop_project_id"

structure ThresholdDef (α : Type) where
  explanation : String
  gt : Option α := none
  lt : Option α := none
  gte : Option α := none
  lte : Option α := none
  outside : Option (α × α) := none
  inside : Option (α × α) := none
  occurred : Option Bool := none
  gap : Option α := none
  repeated : Option Bool := none
  deriving DecidableEq, Repr

/-- The threshold groups in the order the map is walked. -/
structure MonitorConfig (α : Type) where
  metricsFrequencyHz : α
  thresholds : List (String × List (String × ThresholdDef α)) := []
  deriving DecidableEq, Repr

structure ControllerConfig where
  shutdownTimeoutMs : UInt64 := 30000
  childPollIntervalMs : UInt64 := 100
  deriving DecidableEq, Repr

def ControllerConfig.validate (c : ControllerConfig) : Except String Unit := do
  if c.shutdownTimeoutMs = 0 then
    throw "controller: shutdown_timeout_ms must be > 0"
  if c.childPollIntervalMs = 0 then
    throw "controller: child_poll_interval_ms must be > 0"

structure VisualizerConfig where
  port : UInt16
  deriving DecidableEq, Repr

def VisualizerConfig.validate (c : VisualizerConfig) : Except String Unit :=
  if c.port = 0 then throw "visualizer: port must be > 0" else pure ()

structure UiRuntimeConfig where
  controlWebsocketUrl : Option String := none
  previewWebsocketUrl : Option String := none
  httpHost : String := "0.0.0.0"
  httpPort : UInt16 := 3000
  startKey : String := "s"
  stopKey : String := "e"
  keepKey : String := "k"
  discardKey : String := "x"
  deriving DecidableEq, Repr

/-- `char::is_control`: the Unicode category `Cc`. -/
def isControl (c : Char) : Bool := c.toNat < 32 || (127 ≤ c.toNat && c.toNat < 160)

/-- A key binding is one printable character, whatever its case. -/
def normalizeUiKey (label raw : String) : Except String String :=
  match (trim raw).toList with
  | [] => throw ("ui: " ++ label ++ " must not be empty")
  | [ch] =>
    if isControl ch then throw ("ui: " ++ label ++ " must be a printable character")
    else pure (String.singleton ch.toLower)
  | _ => throw ("ui: " ++ label ++ " must be a single printable character")

def checkKeys : List String → List (String × String) → Except String Unit
  | _, [] => pure ()
  | seen, (label, key) :: rest => do
    let normalized ← normalizeUiKey label key
    if normalized = "d" ∨ normalized = "r" then
      throw ("ui: " ++ label ++ " conflicts with reserved UI shortcut \"" ++ normalized ++ "\"")
    if normalized ∈ seen then
      throw ("ui: duplicate key binding \"" ++ normalized ++ "\"")
    checkKeys (normalized :: seen) rest

def UiRuntimeConfig.validate (c : UiRuntimeConfig) : Except String Unit := do
  [("control_websocket_url", c.controlWebsocketUrl),
    ("preview_websocket_url", c.previewWebsocketUrl)].forM fun (label, url) =>
      if url.any blank then throw ("ui: " ++ label ++ " must not be empty") else pure ()
  if blank c.httpHost then
    throw "ui: http_host must not be empty"
  if c.httpPort = 0 then
    throw "ui: http_port must be greater than zero"
  checkKeys [] [("start_key", c.startKey), ("stop_key", c.stopKey), ("keep_key", c.keepKey),
    ("discard_key", c.discardKey)]

structure ChannelPairingConfig (α : Type) where
  leaderDevice : String
  leaderChannelType : String
  followerDevice : String
  followerChannelType : String
  mapping : MappingStrategy := .directJoint
  leaderState : RobotStateKind
  followerCommand : RobotCommandKind
  jointIndexMap : List UInt32 := []
  jointScales : List α := []
  deriving DecidableEq, Repr

structure ProjectConfig (α : Type) where
  projectName : String := "default"
  mode : CollectionMode := .teleop
  episode : EpisodeConfig := {}
  devices : List (BinaryDeviceConfig α)
  pairings : List (ChannelPairingConfig α) := []
  assembler : AssemblerConfig := {}
  storage : StorageConfig := {}
  monitor : MonitorConfig α
  controller : ControllerConfig := {}
  visualizer : VisualizerConfig
  ui : UiRuntimeConfig := {}
  deriving DecidableEq, Repr

variable {α : Type} (platform : Platform α)

def ThresholdDef.validate (t : ThresholdDef α) (processId metricName : String) :
    Except String Unit := do
  if blank t.explanation then
    throw ("monitor: threshold \"" ++ processId ++ "." ++ metricName ++
      "\" requires an explanation")
  if t.gt.isNone ∧ t.lt.isNone ∧ t.gte.isNone ∧ t.lte.isNone ∧ t.outside.isNone ∧
      t.inside.isNone ∧ t.occurred.isNone ∧ t.gap.isNone ∧ t.repeated.isNone then
    throw ("monitor: threshold \"" ++ processId ++ "." ++ metricName ++
      "\" must declare at least one condition")

def MonitorConfig.validate (c : MonitorConfig α) : Except String Unit := do
  if !platform.isFinite c.metricsFrequencyHz || platform.nonPositive c.metricsFrequencyHz then
    throw "monitor: metrics_frequency_hz must be a positive finite number"
  c.thresholds.forM fun (processId, thresholds) => do
    if blank processId then
      throw "monitor: threshold group names must not be empty"
    thresholds.forM fun (metricName, threshold) => do
      if blank metricName then
        throw ("monitor: threshold metric name must not be empty in group \"" ++ processId ++ "\"")
      threshold.validate processId metricName

def ProjectConfig.deviceNamed (config : ProjectConfig α) (name : String) :
    Option (BinaryDeviceConfig α) :=
  config.devices.find? fun device => device.name == name

def ChannelPairingConfig.route (p : ChannelPairingConfig α) : String :=
  p.leaderDevice ++ ":" ++ p.leaderChannelType ++ " -> " ++ p.followerDevice ++ ":" ++
    p.followerChannelType

def stateDebugName : RobotStateKind → String
  | .jointPosition => "JointPosition"
  | .jointVelocity => "JointVelocity"
  | .jointEffort => "JointEffort"
  | .endEffectorPose => "EndEffectorPose"
  | .endEffectorTwist => "EndEffectorTwist"
  | .endEffectorWrench => "EndEffectorWrench"
  | .parallelPosition => "ParallelPosition"
  | .parallelVelocity => "ParallelVelocity"
  | .parallelEffort => "ParallelEffort"

def commandDebugName : RobotCommandKind → String
  | .jointPosition => "JointPosition"
  | .jointMit => "JointMit"
  | .endPose => "EndPose"
  | .parallelPosition => "ParallelPosition"
  | .parallelMit => "ParallelMit"

def ChannelPairingConfig.validateDirectJointDofAndIndexMap (p : ChannelPairingConfig α)
    (leader follower : DeviceChannelConfigV2 α) : Except String Unit := do
  let leaderDof := leader.dof.getD 0
  let followerDof := follower.dof.getD 0
  if p.jointIndexMap = [] then
    if leaderDof < followerDof then
      throw ("pairing " ++ p.route ++ ": direct-joint identity mapping requires leader dof (" ++
        toString leaderDof ++ ") >= follower dof (" ++ toString followerDof ++
        "); add a joint_index_map to remap")
  else
    if p.jointIndexMap.length ≠ followerDof.toNat then
      throw ("pairing " ++ p.route ++ ": joint_index_map length (" ++
        toString p.jointIndexMap.length ++ ") must match follower dof (" ++
        toString followerDof ++ ")")
    p.jointIndexMap.zipIdx.forM fun (leaderJoint, index) =>
      if leaderJoint ≥ leaderDof then
        throw ("pairing " ++ p.route ++ ": joint_index_map[" ++ toString index ++ "]=" ++
          toString leaderJoint ++ " exceeds leader dof (" ++ toString leaderDof ++ ")")
      else pure ()
  if p.jointScales ≠ [] then
    let expectedLen :=
      if p.jointIndexMap = [] then followerDof.toNat else p.jointIndexMap.length
    if p.jointScales.length ≠ expectedLen then
      throw ("pairing " ++ p.route ++ ": joint_scales length (" ++
        toString p.jointScales.length ++ ") must match " ++ toString expectedLen ++
        " mapped follower joints")

/-- Both drivers vouch for their peer. -/
def ChannelPairingConfig.requireDirectJointCompatibility (p : ChannelPairingConfig α)
    (leaderDevice : BinaryDeviceConfig α) (leader : DeviceChannelConfigV2 α)
    (followerDevice : BinaryDeviceConfig α) (follower : DeviceChannelConfigV2 α) :
    Except String Unit :=
  let leaderEndorses := leader.directJointCompatibility.canLead.any fun peer =>
    peer.driver == followerDevice.driver && peer.channelType == follower.channelType
  let followerEndorses := follower.directJointCompatibility.canFollow.any fun peer =>
    peer.driver == leaderDevice.driver && peer.channelType == leader.channelType
  if leaderEndorses ∧ followerEndorses then pure ()
  else
    let leaderMissing := if leaderEndorses then [] else
      ["leader driver \"" ++ leaderDevice.driver ++ "\" must list follower peer (driver=\"" ++
        followerDevice.driver ++ "\", channel_type=\"" ++ follower.channelType ++
        "\") in direct_joint_compatibility.can_lead"]
    let followerMissing := if followerEndorses then [] else
      ["follower driver \"" ++ followerDevice.driver ++ "\" must list leader peer (driver=\"" ++
        leaderDevice.driver ++ "\", channel_type=\"" ++ leader.channelType ++
        "\") in direct_joint_compatibility.can_follow"]
    throw ("direct-joint mapping rejects " ++ p.route ++ ": " ++
      "; ".intercalate (leaderMissing ++ followerMissing))

def ChannelPairingConfig.validateMapping (p : ChannelPairingConfig α)
    (leaderDevice : BinaryDeviceConfig α) (leader : DeviceChannelConfigV2 α)
    (followerDevice : BinaryDeviceConfig α) (follower : DeviceChannelConfigV2 α) :
    Except String Unit := do
  match p.mapping with
  | .directJoint =>
    if p.leaderState ≠ .jointPosition then
      throw ("direct-joint mapping requires leader_state=joint_position (got " ++
        stateDebugName p.leaderState ++ ") for " ++ p.route)
    if p.followerCommand ≠ .jointPosition then
      throw ("direct-joint mapping requires follower_command=joint_position (got " ++
        commandDebugName p.followerCommand ++ ") for " ++ p.route)
    -- The supported commands and the compatibility lists are absent from a saved project.
    if follower.supportedCommands ≠ [] ∧ .jointPosition ∉ follower.supportedCommands then
      throw ("direct-joint mapping: follower " ++ p.followerDevice ++ ":" ++
        p.followerChannelType ++ " does not advertise joint_position in supported_commands")
    p.validateDirectJointDofAndIndexMap leader follower
    if leader.directJointCompatibility.canLead ≠ [] ∨
        follower.directJointCompatibility.canFollow ≠ [] then
      p.requireDirectJointCompatibility leaderDevice leader followerDevice follower
  | .cartesian =>
    if p.leaderState ≠ .endEffectorPose ∨ p.followerCommand ≠ .endPose then
      throw ("cartesian mapping requires leader_state=end_effector_pose and " ++
        "follower_command=end_pose")
    if follower.supportedCommands ≠ [] ∧ .endPose ∉ follower.supportedCommands then
      throw ("cartesian mapping: follower " ++ p.followerDevice ++ ":" ++
        p.followerChannelType ++ " does not advertise end_pose in supported_commands")
    if p.jointIndexMap ≠ [] ∨ p.jointScales ≠ [] then
      throw "cartesian mapping does not use joint_index_map or joint_scales"
  | .parallel =>
    if leader.dof ≠ some 1 ∨ follower.dof ≠ some 1 then
      throw ("parallel mapping requires dof=1 on both sides for " ++ p.route ++ " (got leader=" ++
        debugOption toString leader.dof ++ ", follower=" ++ debugOption toString follower.dof ++
        ")")
    if p.leaderState ≠ .parallelPosition then
      throw ("parallel mapping requires leader_state=parallel_position (got " ++
        stateDebugName p.leaderState ++ ") for " ++ p.route)
    if ¬ (p.followerCommand = .parallelPosition ∨ p.followerCommand = .parallelMit) then
      throw ("parallel mapping requires follower_command in " ++
        "\x7bparallel_position, parallel_mit\x7d (got " ++ commandDebugName p.followerCommand ++
        ") for " ++ p.route)
    if follower.supportedCommands ≠ [] ∧ .parallelPosition ∉ follower.supportedCommands ∧
        .parallelMit ∉ follower.supportedCommands then
      throw ("parallel mapping: follower " ++ p.followerDevice ++ ":" ++
        p.followerChannelType ++
        " does not advertise parallel_position or parallel_mit in supported_commands")
    if p.jointIndexMap ≠ [] then
      throw ("parallel mapping does not use joint_index_map " ++
        "(ratio lives in joint_scales[0])")
    match p.jointScales with
    | [ratio] =>
      if !platform.isFinite ratio || platform.isZero ratio then
        throw ("parallel mapping ratio must be finite and non-zero (got " ++
          platform.display ratio ++ ") for " ++ p.route)
    | scales =>
      throw ("parallel mapping requires exactly one joint_scales entry (the ratio); got " ++
        toString scales.length ++ " for " ++ p.route)

def ChannelPairingConfig.validate (p : ChannelPairingConfig α) (config : ProjectConfig α) :
    Except String Unit := do
  let leaderDevice ← okOr (config.deviceNamed p.leaderDevice)
    ("pairing references unknown leader_device \"" ++ p.leaderDevice ++ "\"")
  let followerDevice ← okOr (config.deviceNamed p.followerDevice)
    ("pairing references unknown follower_device \"" ++ p.followerDevice ++ "\"")
  let leader ← okOr (leaderDevice.channelNamed p.leaderChannelType)
    ("pairing references unknown leader channel " ++ p.leaderDevice ++ ":" ++ p.leaderChannelType)
  let follower ← okOr (followerDevice.channelNamed p.followerChannelType)
    ("pairing references unknown follower channel " ++ p.followerDevice ++ ":" ++
      p.followerChannelType)
  if leader.kind ≠ .robot ∨ follower.kind ≠ .robot then
    throw ("pairing " ++ p.route ++ " must target robot channels")
  if p.leaderDevice = p.followerDevice ∧ p.leaderChannelType = p.followerChannelType then
    throw "pairing leader and follower channel must differ"
  if p.leaderState ∉ leader.publishStates then
    throw ("pairing " ++ p.leaderDevice ++ ":" ++ p.leaderChannelType ++ " leader_state " ++
      stateDebugName p.leaderState ++ " is not present in publish_states")
  p.validateMapping platform leaderDevice leader followerDevice follower
  if p.jointScales.any fun value => !platform.isFinite value then
    throw "pairing joint_scales must be finite"

def checkDevices :
    List String → List String → List (BinaryDeviceConfig α) → Except String Unit
  | _, _, [] => pure ()
  | names, busRoots, device :: devices => do
    if device.name ∈ names then
      throw ("duplicate device name: \"" ++ device.name ++ "\"")
    if device.busRoot ∈ busRoots then
      throw ("duplicate bus_root: \"" ++ device.busRoot ++ "\"")
    device.validate platform
    checkDevices (device.name :: names) (device.busRoot :: busRoots) devices

def recordConfigOf (channel : DeviceChannelConfigV2 α) : EncoderConfig :=
  (channel.record.map ChannelRecordConfig.resolve).getD {}

def previewConfigOf (channel : DeviceChannelConfigV2 α) : EncoderPreviewConfig :=
  (channel.previewSettings.map ChannelPreviewConfig.resolve).getD {}

def ProjectConfig.validatePerChannelEncoderConfigs (config : ProjectConfig α) :
    Except String Unit :=
  config.devices.forM fun device => device.channels.forM fun channel =>
    if channel.kind ≠ .camera ∨ !channel.enabled then pure ()
    else (recordConfigOf channel).validate.mapError fun e =>
      channelLabelText device.name channel.channelType ++ "record config: " ++
        "validation error: " ++ e

def ProjectConfig.validatePreviewCompatibility (config : ProjectConfig α) : Except String Unit :=
  config.devices.forM fun device => device.channels.forM fun channel =>
    if channel.kind ≠ .camera ∨ !channel.enabled ∨ !channel.previewEnabled then pure ()
    else if (previewConfigOf channel).outputMode = .encoded then pure ()
    else if channel.profile.any fun profile => profile.pixelFormat = .h264AnnexB then
      throw (channelLabelText device.name channel.channelType ++
        "h264-annex-b previews require preview_config.output_mode = \"encoded\"")
    else pure ()

def ProjectConfig.validate (config : ProjectConfig α) : Except String Unit := do
  if blank config.projectName then
    throw "project_name must not be empty"
  config.episode.validate
  if config.devices = [] then
    throw "at least one [[devices]] entry is required"
  checkDevices platform [] [] config.devices
  config.pairings.forM fun pairing => pairing.validate platform config
  config.validatePerChannelEncoderConfigs
  config.validatePreviewCompatibility
  config.assembler.validate
  config.storage.validate
  config.monitor.validate platform
  config.controller.validate
  config.visualizer.validate
  config.ui.validate

end ProjectConfigs
