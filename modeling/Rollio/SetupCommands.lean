import Rollio.SetupPairings
import Rollio.SetupSettings
import Rollio.SetupSubpanel

/-! The commands of the setup wizard and the sessions they lead to. -/
namespace SetupCommands
open BusMessages RuntimeConfig TeleopConfig DeviceConfigs ProjectConfigs SetupState
open SetupPairings SetupSettings SetupSubpanel SetupDevices
open Text (trim)

/-- A command as it arrives; JSON parsing is the caller's. -/
structure SetupCommandEnvelope where
  msgType : String
  action : String
  name : Option String := none
  index : Option ℕ := none
  delta : Option ℤ := none
  value : Option String := none
  field : Option String := none
  deriving DecidableEq, Repr

inductive SetupAction where
  | getState | prevStep | nextStep | jumpStep | toggleDevice | setDeviceName
  | openSubpanel | closeSubpanel
  | subpanelTogglePreviewEnabled | subpanelToggleRecordEnabled | subpanelCyclePrimary
  | subpanelCycleRecordField | subpanelSetRecordField
  | subpanelCyclePreviewField | subpanelSetPreviewField | subpanelSetControlFrequencyHz
  | openAddPicker | addPseudoCamera | addPseudoRobot | addCommandDevice
  | toggleIdentify | cycleCameraProfile | cycleRobotMode
  | cyclePairMapping | createPairing | removePairing
  | setPairingEndpoint (endpoint : PairingEndpoint) | setPairingRatio
  | togglePublishState | toggleRecordedState
  | cycleEpisodeFormat | cycleStorageBackend | cycleCollectionMode
  | setTyped (setting : TypedSetting) | save | cancel
  deriving DecidableEq, Repr

def actionNames : List (String × SetupAction) :=
  [("setup_get_state", .getState), ("setup_prev_step", .prevStep), ("setup_next_step", .nextStep),
    ("setup_jump_step", .jumpStep), ("setup_toggle_device", .toggleDevice),
    ("setup_set_device_name", .setDeviceName), ("setup_open_subpanel", .openSubpanel),
    ("setup_close_subpanel", .closeSubpanel),
    ("setup_subpanel_toggle_preview_enabled", .subpanelTogglePreviewEnabled),
    ("setup_subpanel_toggle_record_enabled", .subpanelToggleRecordEnabled),
    ("setup_subpanel_cycle_primary", .subpanelCyclePrimary),
    ("setup_subpanel_cycle_record_field", .subpanelCycleRecordField),
    ("setup_subpanel_set_record_field", .subpanelSetRecordField),
    ("setup_subpanel_cycle_preview_field", .subpanelCyclePreviewField),
    ("setup_subpanel_set_preview_field", .subpanelSetPreviewField),
    ("setup_subpanel_set_control_frequency_hz", .subpanelSetControlFrequencyHz),
    ("setup_open_add_picker", .openAddPicker), ("setup_add_pseudo_camera", .addPseudoCamera),
    ("setup_add_pseudo_robot", .addPseudoRobot), ("setup_add_command_device", .addCommandDevice),
    ("setup_toggle_identify", .toggleIdentify),
    ("setup_cycle_camera_profile", .cycleCameraProfile),
    ("setup_cycle_robot_mode", .cycleRobotMode),
    ("setup_cycle_pair_mapping", .cyclePairMapping), ("setup_create_pairing", .createPairing),
    ("setup_remove_pairing", .removePairing),
    ("setup_set_pairing_leader", .setPairingEndpoint .leader),
    ("setup_set_pairing_follower", .setPairingEndpoint .follower),
    ("setup_set_pairing_ratio", .setPairingRatio),
    ("setup_toggle_publish_state", .togglePublishState),
    ("setup_toggle_recorded_state", .toggleRecordedState),
    ("setup_cycle_episode_format", .cycleEpisodeFormat),
    ("setup_cycle_storage_backend", .cycleStorageBackend),
    ("setup_cycle_collection_mode", .cycleCollectionMode),
    ("setup_set_project_name", .setTyped .projectName),
    ("setup_set_storage_output_path", .setTyped .storageOutputPath),
    ("setup_set_storage_endpoint", .setTyped .storageEndpoint),
    ("setup_set_dataloop_project_id", .setTyped .dataloopProjectId),
    ("setup_set_dataloop_token", .setTyped .dataloopToken),
    ("setup_set_ui_http_host", .setTyped .uiHttpHost),
    ("setup_set_episode_fps", .setTyped .episodeFps),
    ("setup_set_episode_chunk_size", .setTyped .episodeChunkSize),
    ("setup_set_controller_shutdown_timeout_ms", .setTyped .controllerShutdownTimeoutMs),
    ("setup_set_controller_child_poll_interval_ms", .setTyped .controllerChildPollIntervalMs),
    ("setup_set_visualizer_port", .setTyped .visualizerPort),
    ("setup_set_ui_http_port", .setTyped .uiHttpPort),
    ("setup_set_ui_start_key", .setTyped .uiStartKey),
    ("setup_set_ui_stop_key", .setTyped .uiStopKey),
    ("setup_set_ui_keep_key", .setTyped .uiKeepKey),
    ("setup_set_ui_discard_key", .setTyped .uiDiscardKey),
    ("setup_set_assembler_missing_eos_timeout_ms", .setTyped .assemblerMissingEosTimeoutMs),
    ("setup_set_assembler_staging_dir", .setTyped .assemblerStagingDir),
    ("setup_set_assembler_staging_slots", .setTyped .assemblerStagingSlots),
    ("setup_set_storage_queue_size", .setTyped .storageQueueSize),
    ("setup_set_monitor_metrics_frequency_hz", .setTyped .monitorMetricsFrequencyHz),
    ("setup_save", .save), ("setup_cancel", .cancel)]

def normalizedDelta (delta : Option ℤ) : ℤ := if delta.getD 1 < 0 then -1 else 1

def parseRobotStateKind (value : String) : Option RobotStateKind :=
  [RobotStateKind.jointPosition, .jointVelocity, .jointEffort, .endEffectorPose,
    .endEffectorTwist, .endEffectorWrench, .parallelPosition, .parallelVelocity,
    .parallelEffort].find? fun kind => kind.topicSuffix == value

def splitOnce (sep : Char) (text : List Char) : Option (List Char × List Char) :=
  match text.span (· ≠ sep) with
  | (before, _ :: after) => some (before, after)
  | (_, []) => none

def mappingNamed : List Char → Option MappingStrategy := fun name =>
  [MappingStrategy.directJoint, .cartesian, .parallel].find? fun policy =>
    (mappingStrategyLabel policy).toList == name

/-- `device|channel_type`, neither of them empty. -/
def parseEndpoint (part : List Char) : Option (String × String) := do
  let (device, channelType) ← splitOnce '|' part
  if device.isEmpty || channelType.isEmpty then none
  else some (String.ofList device, String.ofList channelType)

variable {α : Type} (floats : Floats α)

/-- The last ratio among the segments behind the endpoints. -/
def parseRatio (parts : List (List Char)) : Option α :=
  parts.foldl (fun ratio tail =>
    match "ratio=".toList.isPrefixOf? tail with
    | some rest => (floats.parse (String.ofList rest)).filter fun r =>
        floats.isFinite r && !floats.isZero r
    | none => ratio) none

def parseCreatePairingValue (value : String) : Option (TeleopPairCreate α) :=
  match value.toList.splitOn ';' with
  | policyStr :: leaderPart :: followerPart :: parts => do
    let policy ← mappingNamed policyStr
    let leader ← parseEndpoint leaderPart
    let follower ← parseEndpoint followerPart
    some { policy, leader, follower, ratio := parseRatio floats parts }
  | _ => none

/-- What a command does: the session it leads to, its report, and the project it has written. -/
structure Applied (α : Type) where
  session : SetupSession α
  mutation : SessionMutation := {}
  written : Option (ProjectConfig α) := none

def configResult (r : SetupSession α × Bool) : Applied α :=
  { session := r.1, mutation := .ofConfig r.2 }

def stateResult (r : SetupSession α × Bool) : Applied α :=
  { session := r.1, mutation := .ofState r.2 }

def stepResult (r : SetupSession α × Bool) : Applied α :=
  { session := r.1, mutation := .ofStep r.2 }

def toggleIdentify (s : SetupSession α) (name : String) : Applied α :=
  if s.identifyDeviceName ≠ some name ∧ ¬ s.isDeviceSelected name then { session := s }
  else
    stateResult (setIdentifyDevice s
      (if s.identifyDeviceName = some name then none else some name))

def handler (store : ProjectConfig α → String → Except String Unit) (s : SetupSession α)
    (command : SetupCommandEnvelope) (action : SetupAction) :
    Option (Except String (Applied α)) :=
  let delta := normalizedDelta command.delta
  match action with
  | .getState => some (.ok (stateResult (s, true)))
  | .prevStep => some (.ok (stepResult s.retreatStep))
  | .nextStep => some (.ok (stepResult s.advanceStep))
  | .jumpStep => do
    let value ← command.value
    some (.ok (stepResult (jumpToStep s value)))
  | .toggleDevice => do
    let name ← command.name
    some ((toggleDeviceSelection floats s name).map configResult)
  | .setDeviceName => do
    let name ← command.name
    let value ← command.value
    some ((setDeviceName floats s name value).map configResult)
  | .openSubpanel => do
    let name ← command.name
    some (.ok (stateResult (openSubpanel s name)))
  | .closeSubpanel => some (.ok (stateResult (closeSubpanel s)))
  | .subpanelTogglePreviewEnabled => do
    let name ← command.name
    some (.ok (configResult (subpanelTogglePreviewEnabled floats s name)))
  | .subpanelToggleRecordEnabled => do
    let name ← command.name
    some (.ok (configResult (subpanelToggleRecordEnabled floats s name)))
  | .subpanelCyclePrimary => do
    let name ← command.name
    some (.ok (configResult (subpanelCyclePrimary s name delta)))
  | .subpanelCycleRecordField => do
    let name ← command.name
    let field ← command.field
    some (.ok (configResult (subpanelCycleRecordField floats s name field delta)))
  | .subpanelSetRecordField => do
    let name ← command.name
    let field ← command.field
    let value ← command.value
    some (.ok (configResult (subpanelSetRecordField floats s name field value)))
  | .subpanelCyclePreviewField => do
    let name ← command.name
    let field ← command.field
    some (.ok (configResult (subpanelCyclePreviewField floats s name field delta)))
  | .subpanelSetPreviewField => do
    let name ← command.name
    let field ← command.field
    let value ← command.value
    some (.ok (configResult (subpanelSetPreviewField floats s name field value)))
  | .subpanelSetControlFrequencyHz => do
    let name ← command.name
    let value ← command.value
    some (.ok (configResult (subpanelSetControlFrequencyHz floats s name value)))
  | .openAddPicker => some (.ok (stateResult (openAddPicker floats s)))
  | .addPseudoCamera => some (.ok (configResult (addPseudoCamera floats s)))
  | .addPseudoRobot => some (.ok (configResult (addPseudoRobot floats s)))
  | .addCommandDevice => some (.ok (configResult (addCommandDevice floats s)))
  | .toggleIdentify => do
    let name ← command.name
    some (.ok (toggleIdentify s name))
  | .cycleCameraProfile => do
    let name ← command.name
    some (.ok (configResult (cycleDeviceProfile s name delta)))
  | .cycleRobotMode => do
    let name ← command.name
    some (.ok (configResult (cycleRobotMode s name delta)))
  | .cyclePairMapping => do
    let index ← command.index
    some (.ok (configResult (cyclePairMapping floats s index delta)))
  | .createPairing =>
    let created := createPairing floats s (command.value.bind (parseCreatePairingValue floats))
    some (.ok (configResult (created.1, created.2.isSome)))
  | .removePairing => do
    let index ← command.index
    some ((removePairing floats s index).map configResult)
  | .setPairingEndpoint endpoint => do
    let index ← command.index
    let value ← command.value
    let (device, channelType) ← splitOnce '|' value.toList
    some ((setPairingEndpoint floats s index endpoint (String.ofList device)
      (String.ofList channelType)).map configResult)
  | .setPairingRatio => do
    let index ← command.index
    let value ← command.value
    match floats.parse value with
    | none =>
      some (.ok (stateResult ((s.reject ("Could not parse parallel ratio \"" ++ value ++
        "\": expected a finite, non-zero number.")).1, true)))
    | some ratio => some (.ok (configResult (setPairingRatio floats s index ratio)))
  | .togglePublishState => do
    let name ← command.name
    let kind ← command.value.bind parseRobotStateKind
    some ((togglePublishState floats s name kind).map configResult)
  | .toggleRecordedState => do
    let name ← command.name
    let kind ← command.value.bind parseRobotStateKind
    some ((toggleRecordedState floats s name kind).map configResult)
  | .cycleEpisodeFormat =>
    some ((applyEdit floats s (cycleEpisodeFormat s.config delta)).map configResult)
  | .cycleStorageBackend =>
    some ((applyEdit floats s (cycleStorageBackend s.config delta)).map configResult)
  | .cycleCollectionMode => some ((cycleCollectionMode floats s).map configResult)
  | .setTyped setting => do
    let value ← command.value
    some ((applyEdit floats s (setting.setter floats s.config value)).map configResult)
  | .save =>
    some ((store s.config s.outputPath).map fun _ =>
      { session := s.markSaved, mutation := .ofState true, written := some s.config })
  | .cancel => some (.ok { session := s.markCancelled, mutation := .ofState true })

/-- `store` is the writing of a project file. -/
def applyRawCommand (store : ProjectConfig α → String → Except String Unit) (s : SetupSession α)
    (raw : Except String SetupCommandEnvelope) : Except String (Applied α) :=
  match raw with
  | .error e => .error e
  | .ok command =>
    if command.msgType ≠ "command" then .ok { session := s }
    else
      ((actionNames.lookup command.action).bind (handler floats store s command)).getD
        (.ok { session := s })

/-- What the loop around the commands does to the session: the identify target is no longer
selected, the preview has died, or it has been started. -/
inductive LoopChange : SetupSession α → SetupSession α → Prop where
  | identifyLost (s : SetupSession α) :
      (s.identifyDeviceName.any fun name => !s.isDeviceSelected name) →
      LoopChange s s.clearIdentifyState.1
  | previewDied (s : SetupSession α) (summary : String) :
      LoopChange s { s.clearIdentifyState.1 with
        message := some ("Identify failed: " ++ summary ++ ". Another process may be holding the " ++
          "device (try `lsof /dev/video0` or stop any running `rollio collect`).") }
  | previewStarted (s : SetupSession α) (tempConfigPath : String) : s.currentStep = .preview →
      LoopChange s { s with message := some ("Preview running from " ++ tempConfigPath) }

inductive Reached (store : ProjectConfig α → String → Except String Unit)
    (opened : SetupSession α) : SetupSession α → Prop where
  | opened : Reached store opened opened
  | command {s raw applied} : Reached store opened s →
      applyRawCommand floats store s raw = .ok applied → Reached store opened applied.session
  | loop {s s'} : Reached store opened s → LoopChange s s' → Reached store opened s'

end SetupCommands
