import Rollio.SetupState

/-! The settings of the project that the setup wizard lets an operator type in or cycle. -/
namespace SetupSettings
open RuntimeConfig ProjectConfigs SetupState
open Text (trim blank)

variable {α : Type}

/-- What becomes of a setting: it is refused, it is as it was, or it is written, and then either
put back under a label when the project no longer passes its check, or left to end the wizard. -/
inductive SettingEdit (α : Type) where
  | refused (message : String)
  | unchanged
  | written (config : ProjectConfig α) (label : Option String)

def applyEdit (floats : Floats α) (s : SetupSession α) : SettingEdit α → Handled α
  | .refused message => .ok (s.reject message)
  | .unchanged => .ok (s, false)
  | .written config none => validated floats { s with config }
  | .written config (some label) =>
    .ok (validatedOr floats { s with config } fun error => s.reject (label ++ " rejected: " ++ error))

def textSetting (value emptyMessage : String) (current : Option String)
    (write : String → ProjectConfig α) (label : Option String) : SettingEdit α :=
  let trimmed := trim value
  if trimmed = "" then .refused emptyMessage
  else if current = some trimmed then .unchanged
  else .written (write trimmed) label

def numberSetting {β : Type} (debugStr : String → String) (value : String)
    (parsed : String → Option β) (requirement : String) (isCurrent : β → Bool)
    (write : β → ProjectConfig α) (label : Option String) : SettingEdit α :=
  let trimmed := trim value
  match parsed trimmed with
  | none => .refused (requirement ++ ", got " ++ debugStr trimmed ++ ".")
  | some v => if isCurrent v then .unchanged else .written (write v) label

def parseU16 (text : String) : Option UInt16 := (parseUnsigned 65536 text).map UInt16.ofNat
def parseU32 (text : String) : Option UInt32 := (parseUnsigned 4294967296 text).map UInt32.ofNat
def parseU64 (text : String) : Option UInt64 :=
  (parseUnsigned 18446744073709551616 text).map UInt64.ofNat

section Fields
variable (floats : Floats α) (c : ProjectConfig α) (value : String)

def setProjectName : SettingEdit α :=
  textSetting value "Project name must not be empty." (some c.projectName)
    (fun projectName => { c with projectName }) none

def setStorageOutputPath : SettingEdit α :=
  textSetting value "Local storage output path must not be empty." c.storage.outputPath
    (fun path => { c with storage := { c.storage with outputPath := some path } }) none

def setStorageEndpoint : SettingEdit α :=
  textSetting value "Storage endpoint must not be empty." c.storage.endpoint
    (fun endpoint => { c with storage := { c.storage with endpoint := some endpoint } }) none

def setDataloopProjectId : SettingEdit α :=
  textSetting value "Dataloop project ID must not be empty." c.storage.dataloopProjectId
    (fun id => { c with storage := { c.storage with dataloopProjectId := some id } }) none

def setDataloopToken : SettingEdit α :=
  textSetting value "Dataloop token must not be empty." c.storage.dataloopToken
    (fun token => { c with storage := { c.storage with dataloopToken := some token } }) none

def setUiHttpHost : SettingEdit α :=
  textSetting value "UI host must not be empty." (some c.ui.httpHost)
    (fun httpHost => { c with ui := { c.ui with httpHost } }) (some "UI host")

def setAssemblerStagingDir : SettingEdit α :=
  textSetting value "Assembler staging_dir must not be empty." (some c.assembler.stagingDir)
    (fun stagingDir => { c with assembler := { c.assembler with stagingDir } }) none

def setEpisodeFps : SettingEdit α :=
  let trimmed := trim value
  if trimmed = "" then .refused "Episode fps must not be empty."
  else
    match parseU32 trimmed with
    | none =>
      .refused ("Episode fps must be an integer (1..1000), got " ++ floats.debugStr trimmed ++ ".")
    | some fps =>
      if fps = 0 ∨ fps > 1000 then
        .refused ("Episode fps must be 1..1000, got " ++ toString fps ++ ".")
      else if c.episode.fps = fps then .unchanged
      else .written { c with episode := { c.episode with fps } } none

def setEpisodeChunkSize : SettingEdit α :=
  numberSetting floats.debugStr value (fun text => (parseU32 text).filter (· > 0))
    "Episode chunk_size must be a positive integer" (c.episode.chunkSize = ·)
    (fun chunkSize => { c with episode := { c.episode with chunkSize } }) none

def setControllerShutdownTimeoutMs : SettingEdit α :=
  numberSetting floats.debugStr value parseU64
    "Controller shutdown_timeout_ms must be a non-negative integer"
    (c.controller.shutdownTimeoutMs = ·)
    (fun ms => { c with controller := { c.controller with shutdownTimeoutMs := ms } }) none

def setControllerChildPollIntervalMs : SettingEdit α :=
  numberSetting floats.debugStr value (fun text => (parseU64 text).filter (· > 0))
    "Controller child_poll_interval_ms must be a positive integer"
    (c.controller.childPollIntervalMs = ·)
    (fun ms => { c with controller := { c.controller with childPollIntervalMs := ms } }) none

def setVisualizerPort : SettingEdit α :=
  numberSetting floats.debugStr value (fun text => (parseU16 text).filter (· > 0))
    "Visualizer port must be a positive integer (1..65535)" (c.visualizer.port = ·)
    (fun port => { c with visualizer := { c.visualizer with port } }) none

def setUiHttpPort : SettingEdit α :=
  numberSetting floats.debugStr value (fun text => (parseU16 text).filter (· > 0))
    "UI http_port must be a positive integer (1..65535)" (c.ui.httpPort = ·)
    (fun httpPort => { c with ui := { c.ui with httpPort } }) (some "UI http_port")

def setAssemblerMissingEosTimeoutMs : SettingEdit α :=
  numberSetting floats.debugStr value parseU64
    "Assembler missing_eos_timeout_ms must be a non-negative integer"
    (c.assembler.missingEosTimeoutMs = ·)
    (fun ms => { c with assembler := { c.assembler with missingEosTimeoutMs := ms } }) none

def setAssemblerStagingSlots : SettingEdit α :=
  numberSetting floats.debugStr value
    (fun text => (parseU32 text).filter fun v => 1 ≤ v ∧ v ≤ 64)
    "Assembler staging_slots must be 1..=64" (c.assembler.stagingSlots = ·)
    (fun stagingSlots => { c with assembler := { c.assembler with stagingSlots } })
    (some "staging_slots")

def setStorageQueueSize : SettingEdit α :=
  numberSetting floats.debugStr value (fun text => (parseU32 text).filter (· > 0))
    "Storage queue_size must be a positive integer" (c.storage.queueSize = ·)
    (fun queueSize => { c with storage := { c.storage with queueSize } }) none

def setMonitorMetricsFrequencyHz : SettingEdit α :=
  numberSetting floats.debugStr value
    (fun text => (floats.parse text).filter fun v => floats.isFinite v && !floats.nonPositive v)
    "Monitor metrics_frequency_hz must be a positive finite number"
    (floats.close c.monitor.metricsFrequencyHz)
    (fun hz => { c with monitor := { c.monitor with metricsFrequencyHz := hz } }) none

def setUiSingleCharKey (label current : String) (write : String → UiRuntimeConfig) :
    SettingEdit α :=
  let trimmed := trim value
  if trimmed.toList.length ≠ 1 then
    .refused (label ++ " key must be a single character, got " ++ floats.debugStr trimmed ++ ".")
  else if current = trimmed then .unchanged
  else .written { c with ui := write trimmed } (some (label ++ " key"))

def setUiStartKey : SettingEdit α :=
  setUiSingleCharKey floats c value "Start" c.ui.startKey fun key => { c.ui with startKey := key }

def setUiStopKey : SettingEdit α :=
  setUiSingleCharKey floats c value "Stop" c.ui.stopKey fun key => { c.ui with stopKey := key }

def setUiKeepKey : SettingEdit α :=
  setUiSingleCharKey floats c value "Keep" c.ui.keepKey fun key => { c.ui with keepKey := key }

def setUiDiscardKey : SettingEdit α :=
  setUiSingleCharKey floats c value "Discard" c.ui.discardKey
    fun key => { c.ui with discardKey := key }

def cycleEpisodeFormat (delta : ℤ) : SettingEdit α :=
  let options := [EpisodeFormat.leRobotV21, .leRobotV30, .mcap]
  let currentIndex := (options.idxOf? c.episode.format).getD 0
  let format := options.getD (rotateIndex currentIndex options.length delta) .leRobotV21
  .written { c with episode := { c.episode with format } } none

def containsUpload (text : String) : Bool :=
  text.toList.tails.any fun tail => "/upload".toList.isPrefixOf tail

/-- The storage settings under a backend, with what it needs filled in. -/
def fillStorage (storage : StorageConfig) (backend : StorageBackend) : StorageConfig :=
  match backend with
  | .local =>
    { storage with
      backend
      endpoint := none
      outputPath := if storage.outputPath.all blank then some "./output" else storage.outputPath }
  | .http =>
    { storage with
      backend
      endpoint := storage.endpoint.or (some "http://127.0.0.1:8080/upload") }
  | .dataloop =>
    { storage with
      backend
      endpoint :=
        if storage.endpoint.all fun v => blank v || containsUpload v then some "http://127.0.0.1/"
        else storage.endpoint
      dataloopProjectId :=
        if storage.dataloopProjectId.all blank then some "1" else storage.dataloopProjectId }

def cycleStorageBackend (delta : ℤ) : SettingEdit α :=
  let options := [StorageBackend.local, .http, .dataloop]
  let currentIndex := (options.idxOf? c.storage.backend).getD 0
  let backend := options.getD (rotateIndex currentIndex options.length delta) .local
  .written { c with storage := fillStorage c.storage backend } none

end Fields

def cycleCollectionMode (floats : Floats α) (s : SetupSession α) : Handled α :=
  if s.config.mode = .teleop then .ok (s, false)
  else
    validated floats
      ({ s with config := { s.config with mode := .teleop } } : SetupSession α).ensureVisibleCurrentStep

def jumpTarget : String → Option SetupStep
  | "devices" => some .devices
  | "discovery" => some .devices
  | "selection" => some .devices
  | "parameters" => some .devices
  | "states" => some .states
  | "storage" => some .storage
  | "pairing" => some .pairing
  | "preview" => some .preview
  | _ => none

def jumpToStep (s : SetupSession α) (value : String) : SetupSession α × Bool :=
  match jumpTarget value with
  | none => (s, false)
  | some target => if target ∉ s.visibleSteps then (s, false) else s.goTo target

inductive TypedSetting where
  | projectName | storageOutputPath | storageEndpoint | dataloopProjectId | dataloopToken
  | uiHttpHost | episodeFps | episodeChunkSize | controllerShutdownTimeoutMs
  | controllerChildPollIntervalMs | visualizerPort | uiHttpPort | uiStartKey | uiStopKey
  | uiKeepKey | uiDiscardKey | assemblerMissingEosTimeoutMs | assemblerStagingDir
  | assemblerStagingSlots | storageQueueSize | monitorMetricsFrequencyHz
  deriving DecidableEq, Repr

def TypedSetting.setter (floats : Floats α) (c : ProjectConfig α) (value : String) :
    TypedSetting → SettingEdit α
  | .projectName => setProjectName c value
  | .storageOutputPath => setStorageOutputPath c value
  | .storageEndpoint => setStorageEndpoint c value
  | .dataloopProjectId => setDataloopProjectId c value
  | .dataloopToken => setDataloopToken c value
  | .uiHttpHost => setUiHttpHost c value
  | .episodeFps => setEpisodeFps floats c value
  | .episodeChunkSize => setEpisodeChunkSize floats c value
  | .controllerShutdownTimeoutMs => setControllerShutdownTimeoutMs floats c value
  | .controllerChildPollIntervalMs => setControllerChildPollIntervalMs floats c value
  | .visualizerPort => setVisualizerPort floats c value
  | .uiHttpPort => setUiHttpPort floats c value
  | .uiStartKey => setUiStartKey floats c value
  | .uiStopKey => setUiStopKey floats c value
  | .uiKeepKey => setUiKeepKey floats c value
  | .uiDiscardKey => setUiDiscardKey floats c value
  | .assemblerMissingEosTimeoutMs => setAssemblerMissingEosTimeoutMs floats c value
  | .assemblerStagingDir => setAssemblerStagingDir c value
  | .assemblerStagingSlots => setAssemblerStagingSlots floats c value
  | .storageQueueSize => setStorageQueueSize floats c value
  | .monitorMetricsFrequencyHz => setMonitorMetricsFrequencyHz floats c value

end SetupSettings
