import Rollio.SetupDevices

/-! The channel panel of the setup wizard: the fields of one channel, and the devices an operator
adds by hand. -/
namespace SetupSubpanel
open BusMessages RuntimeConfig TeleopConfig EncoderConfigs DeviceConfigs ProjectConfigs SetupState
open SetupDevices
open Text (trim)

variable {α : Type}

def recordVideoCodecs : List EncoderCodec := [.h264, .h265, .av1, .mjpg]

def recordDepthCodecs : List EncoderCodec := [.rvl]

def recordBackends : List EncoderBackend :=
  [.auto, .cpu, .nvidia, .vaapi, .passthrough, .horizonX5]

def recordChromaSubsamplings : List ChromaSubsampling := [.s422, .s420]

def recordBitDepths : List UInt8 := [8, 10]

def recordPresets : List (Option String) :=
  [none, some "ultrafast", some "veryfast", some "fast", some "medium", some "slow",
    some "slower", some "veryslow"]

def recordColorSpaces : List EncoderColorSpace := [.auto, .bt709Limited, .bt601Limited]

def previewOutputModes : List PreviewOutputMode := [.jpeg, .encoded]

/-- Steps through the options and wraps at both ends. -/
def cycleEnumField {β : Type} [BEq β] (current : Option β) (options : List β) (delta : ℤ) :
    Option β :=
  let currentIndex := (current.bind fun v => options.idxOf? v).getD 0
  options[rotateIndex currentIndex options.length delta]?

def eqIgnoreAsciiCase (a b : String) : Bool :=
  a.toList.map Char.toLower == b.toList.map Char.toLower

def cyclePreset (current : Option String) (delta : ℤ) : Option String :=
  let currentIndex := (recordPresets.findIdx? fun option =>
    match option, current with
    | none, none => true
    | some a, some b => eqIgnoreAsciiCase a b
    | _, _ => false).getD 0
  (recordPresets[rotateIndex currentIndex recordPresets.length delta]?).getD none

def cycleRecord (record : ChannelRecordConfig) (field : String) (delta : ℤ) :
    Option ChannelRecordConfig :=
  match field with
  | "video_codec" =>
    some { record with videoCodec := cycleEnumField record.videoCodec recordVideoCodecs delta }
  | "depth_codec" =>
    some { record with depthCodec := cycleEnumField record.depthCodec recordDepthCodecs delta }
  | "backend" => some { record with backend := cycleEnumField record.backend recordBackends delta }
  | "video_backend" =>
    some { record with videoBackend := cycleEnumField record.videoBackend recordBackends delta }
  | "depth_backend" =>
    some { record with depthBackend := cycleEnumField record.depthBackend recordBackends delta }
  | "chroma_subsampling" =>
    some { record with
      chromaSubsampling := cycleEnumField record.chromaSubsampling recordChromaSubsamplings delta }
  | "bit_depth" =>
    some { record with bitDepth := cycleEnumField record.bitDepth recordBitDepths delta }
  | "color_space" =>
    some { record with colorSpace := cycleEnumField record.colorSpace recordColorSpaces delta }
  | "preset" => some { record with preset := cyclePreset record.preset delta }
  | _ => none

def cyclePreview (preview : ChannelPreviewConfig) (field : String) (delta : ℤ) :
    Option ChannelPreviewConfig :=
  match field with
  | "output_mode" =>
    some { preview with outputMode := cycleEnumField preview.outputMode previewOutputModes delta }
  | "color_codec" =>
    some { preview with colorCodec := cycleEnumField preview.colorCodec recordVideoCodecs delta }
  | "depth_codec" =>
    some { preview with depthCodec := cycleEnumField preview.depthCodec recordDepthCodecs delta }
  | "backend" =>
    some { preview with backend := cycleEnumField preview.backend recordBackends delta }
  | _ => none

def parseField {β : Type} (trimmed : String) (parsed : Option β) (error : String) :
    Except String (Option β) :=
  if trimmed = "" then .ok none
  else
    match parsed with
    | some v => .ok (some v)
    | none => .error error

def setRecord (debugStr : String → String) (record : ChannelRecordConfig) (field value : String) :
    Except String ChannelRecordConfig :=
  let trimmed := trim value
  match field with
  | "crf" => do
    let crf ← parseField trimmed ((parseUnsigned 256 trimmed).filter (· ≤ 51))
      ("crf = " ++ debugStr value ++ " is not in range 0..=51")
    pure { record with crf := crf.map UInt8.ofNat }
  | "preset" => .ok { record with preset := if trimmed = "" then none else some trimmed }
  | "tune" => .ok { record with tune := if trimmed = "" then none else some trimmed }
  | "queue_size" => do
    let queueSize ← parseField trimmed ((parseUnsigned 4294967296 trimmed).filter (· > 0))
      ("queue_size = " ++ debugStr value ++ " must be a positive integer")
    pure { record with queueSize := queueSize.map UInt32.ofNat }
  | _ => .error ("Unknown record field: " ++ field)

def setPreview (debugStr : String → String) (preview : ChannelPreviewConfig)
    (field value : String) : Except String ChannelPreviewConfig :=
  let trimmed := trim value
  let positive := (parseUnsigned 4294967296 trimmed).filter (· > 0)
  match field with
  | "width" => do
    let width ← parseField trimmed positive
      ("width = " ++ debugStr value ++ " must be a positive integer")
    pure { preview with width := width.map UInt32.ofNat }
  | "height" => do
    let height ← parseField trimmed positive
      ("height = " ++ debugStr value ++ " must be a positive integer")
    pure { preview with height := height.map UInt32.ofNat }
  | "fps" => do
    let fps ← parseField trimmed (positive.filter (· ≤ 1000))
      ("fps = " ++ debugStr value ++ " must be in 1..=1000")
    pure { preview with fps := fps.map UInt32.ofNat }
  | "gop_seconds" => do
    let gopSeconds ← parseField trimmed positive
      ("gop_seconds = " ++ debugStr value ++ " must be a positive integer")
    pure { preview with gopSeconds := gopSeconds.map UInt32.ofNat }
  | "crf" => do
    let crf ← parseField trimmed ((parseUnsigned 256 trimmed).filter (· ≤ 51))
      ("crf = " ++ debugStr value ++ " is not in 0..=51")
    pure { preview with crf := crf.map UInt8.ofNat }
  | "jpeg_quality" => do
    let jpegQuality ← parseField trimmed ((parseI32 trimmed).filter fun v => 1 ≤ v ∧ v ≤ 100)
      ("jpeg_quality = " ++ debugStr value ++ " must be in 1..=100")
    pure { preview with jpegQuality := jpegQuality.map Int32.ofInt }
  | _ => .error ("Unknown preview field: " ++ field)

section Panels
variable (floats : Floats α) (s : SetupSession α) (name : String)

def openSubpanel : SetupSession α × Bool :=
  if (s.availableDevice name).isNone then (s, false)
  else if s.subpanelTargetName = some name then (s, false)
  else ({ s with subpanelTargetName := some name }, true)

def closeSubpanel : SetupSession α × Bool :=
  ({ s with subpanelTargetName := none }, s.subpanelTargetName.isSome)

/-- A channel of the project is changed, put back when the project no longer passes its check,
and otherwise copied to the row by `mirror`. -/
def editChannel (slot : ChannelSlot α) (channel : DeviceChannelConfigV2 α)
    (mirror : DeviceChannelConfigV2 α → DeviceChannelConfigV2 α) (label : String) :
    SetupSession α × Bool :=
  let edited := setChannel s.config slot channel
  match edited.validate floats.toPlatform with
  | .ok () => ({ s.modifyAvailableChannel name mirror with config := edited }, true)
  | .error e =>
    ({ s with config := setChannel edited slot slot.channel }).reject
      (label ++ " rejected: validation error: " ++ e)

def subpanelTogglePreviewEnabled : SetupSession α × Bool :=
  match s.configuredDeviceChannelIndex name with
  | none => (s, false)
  | some slot =>
    let previewEnabled := !slot.channel.previewEnabled
    editChannel floats s name slot { slot.channel with previewEnabled }
      (fun channel => { channel with previewEnabled }) "preview_enabled toggle"

def subpanelToggleRecordEnabled : SetupSession α × Bool :=
  match s.configuredDeviceChannelIndex name with
  | none => (s, false)
  | some slot =>
    let recordEnabled := !slot.channel.recordEnabled
    editChannel floats s name slot { slot.channel with recordEnabled }
      (fun channel => { channel with recordEnabled }) "record_enabled toggle"

def subpanelCyclePrimary (delta : ℤ) : SetupSession α × Bool :=
  match s.availableDevice name with
  | none => (s, false)
  | some available =>
    match available.deviceType with
    | .camera => cycleDeviceProfile s name delta
    | .robot => cycleRobotMode s name delta

def editCamera (edit : DeviceChannelConfigV2 α → Except String (DeviceChannelConfigV2 α))
    (label : String) : SetupSession α × Bool :=
  match s.configuredDeviceChannelIndex name with
  | none => (s, false)
  | some slot =>
    if slot.channel.kind ≠ .camera then (s, false)
    else
      match edit slot.channel with
      | .error message => s.reject message
      | .ok channel => editChannel floats s name slot channel (fun _ => channel) label

/-- `ensure_record_block`, before a field of the block is edited. -/
def recordBlock (channel : DeviceChannelConfigV2 α) : ChannelRecordConfig :=
  channel.record.getD {}

def previewBlock (channel : DeviceChannelConfigV2 α) : ChannelPreviewConfig :=
  channel.previewSettings.getD {}

def subpanelCycleRecordField (field : String) (delta : ℤ) : SetupSession α × Bool :=
  editCamera floats s name (fun channel =>
    match cycleRecord (recordBlock channel) field delta with
    | some record => .ok { channel with record := some record }
    | none => .error ("Unknown record field: " ++ field)) ("record." ++ field)

def subpanelSetRecordField (field value : String) : SetupSession α × Bool :=
  editCamera floats s name (fun channel =>
    (setRecord floats.debugStr (recordBlock channel) field value).map fun record =>
      { channel with record := some record }) ("record." ++ field)

def subpanelCyclePreviewField (field : String) (delta : ℤ) : SetupSession α × Bool :=
  editCamera floats s name (fun channel =>
    match cyclePreview (previewBlock channel) field delta with
    | some preview => .ok { channel with previewSettings := some preview }
    | none => .error ("Unknown preview field: " ++ field)) ("preview." ++ field)

def subpanelSetPreviewField (field value : String) : SetupSession α × Bool :=
  editCamera floats s name (fun channel =>
    (setPreview floats.debugStr (previewBlock channel) field value).map fun preview =>
      { channel with previewSettings := some preview }) ("preview." ++ field)

def subpanelSetControlFrequencyHz (value : String) : SetupSession α × Bool :=
  match s.configuredDeviceChannelIndex name with
  | none => (s, false)
  | some slot =>
    if slot.channel.kind ≠ .robot then (s, false)
    else
      match (floats.parse (trim value)).filter fun v =>
          floats.isFinite v && !floats.nonPositive v with
      | none =>
        s.reject ("control_frequency_hz must be a positive finite number, got " ++
          floats.debugStr value ++ ".")
      | some parsed =>
        if slot.channel.controlFrequencyHz.any fun previous => floats.same previous parsed then
          (s, false)
        else
          let channel := { slot.channel with controlFrequencyHz := some parsed }
          editChannel floats s name slot channel (fun _ => channel) "control_frequency_hz"

end Panels

/-- The index behind a prefix in the id of a device. -/
def pseudoIdIndex (prefixWithSep id : String) : Option UInt32 := do
  let rest ← prefixWithSep.toList.isPrefixOf? id.toList
  let head := rest.takeWhile Char.isDigit
  ((parseDigits head).filter (· < 4294967296)).map UInt32.ofNat

/-- `next = next.max(n + 1)` over the ids of the project, in 32 bits. -/
def nextPseudoIdIndex (config : ProjectConfig α) (idPrefix : String) : UInt32 :=
  config.devices.foldl (fun next device =>
    match pseudoIdIndex (idPrefix ++ "_") device.id with
    | some n => max next (n + 1)
    | none => next) 0

def generatedDevice (driver id : String) (channel : DeviceChannelConfigV2 α) :
    BinaryDeviceConfig α :=
  { name := id
    executable := some ("rollio-device-" ++ driver)
    driver, id
    busRoot := id
    channels := [channel] }

def pseudoCameraChannel (id display : String) : DeviceChannelConfigV2 α :=
  { channelType := "color"
    kind := .camera
    name := some id
    channelLabel := some display
    profile := some { width := 640, height := 480, fps := 30, pixelFormat := .rgb24 } }

def jointStates : List RobotStateKind := [.jointPosition, .jointVelocity, .jointEffort]

section Additions
variable (floats : Floats α) (s : SetupSession α)

/-- A generated device and its row are pushed, and taken back when the project no longer passes
its check. -/
def addDevice (row : AvailableDevice α) (device : BinaryDeviceConfig α)
    (rejected added : String) : SetupSession α × Bool :=
  let pushed := { s with
    config := { s.config with devices := s.config.devices ++ [device] }
    availableDevices := s.availableDevices ++ [row] }
  match pushed.config.validate floats.toPlatform with
  | .ok () => ({ pushed with message := some added }, true)
  | .error e =>
    ({ pushed with
        config := { pushed.config with devices := s.config.devices }
        availableDevices := s.availableDevices }).reject (rejected ++ ": validation error: " ++ e)

def pseudoCamera : BinaryDeviceConfig α :=
  let suffix := toString (nextPseudoIdIndex s.config "pseudo_camera")
  generatedDevice "pseudo" ("pseudo_camera_" ++ suffix)
    (pseudoCameraChannel ("pseudo_camera_" ++ suffix) ("Pseudo Camera " ++ suffix))

def pseudoRobot : BinaryDeviceConfig α :=
  let suffix := toString (nextPseudoIdIndex s.config "pseudo_robot")
  let id := "pseudo_robot_" ++ suffix ++ "_dof_6"
  generatedDevice "pseudo" id
    { channelType := "arm"
      kind := .robot
      name := some id
      channelLabel := some ("Pseudo Robot " ++ suffix)
      mode := some .freeDrive
      dof := some 6
      publishStates := jointStates
      recordedStates := jointStates
      controlFrequencyHz := some floats.sixty }

def commandDevice : BinaryDeviceConfig α :=
  let suffix := toString (nextPseudoIdIndex s.config "command")
  let id := "command_" ++ suffix
  generatedDevice "command" id
    { channelType := "arm"
      kind := .robot
      name := some id
      channelLabel := some ("Command Device " ++ suffix ++ " (stub)")
      mode := some .commandFollowing
      dof := some 6
      publishStates := [.jointPosition]
      controlFrequencyHz := some floats.sixty
      recordEnabled := false }

def generatedRow (kind : DeviceType) (channelType display : String) (modes : List RobotMode)
    (states : List RobotStateKind) (device : BinaryDeviceConfig α) : AvailableDevice α :=
  { name := (match kind with | .camera => "camera|" | .robot => "robot|") ++ device.driver ++ "|" ++
      device.id ++ "|" ++ channelType ++ "|-"
    displayName := display
    deviceType := kind
    driver := device.driver
    id := device.id
    supportedModes := modes
    supportedStates := states
    current := { device with channels := [device.channels.headD { channelType, kind }] }
    current_driver := rfl
    current_id := rfl
    current_primary := ⟨_, rfl⟩ }

def pseudoCameraRow : AvailableDevice α :=
  generatedRow .camera "color"
    ("Pseudo Camera " ++ toString (nextPseudoIdIndex s.config "pseudo_camera")) [] []
    (pseudoCamera s)

def pseudoRobotRow : AvailableDevice α :=
  generatedRow .robot "arm"
    ("Pseudo Robot " ++ toString (nextPseudoIdIndex s.config "pseudo_robot"))
    [.freeDrive, .commandFollowing] jointStates (pseudoRobot floats s)

def commandDeviceRow : AvailableDevice α :=
  generatedRow .robot "arm"
    ("Command Device " ++ toString (nextPseudoIdIndex s.config "command") ++ " (stub)")
    [.commandFollowing] [] (commandDevice floats s)

def addPseudoCamera : SetupSession α × Bool :=
  addDevice floats s (pseudoCameraRow s) (pseudoCamera s) "Pseudo camera rejected by validator"
    ("Added pseudo camera " ++ (pseudoCamera s).id ++ ".")

def addPseudoRobot : SetupSession α × Bool :=
  addDevice floats s (pseudoRobotRow floats s) (pseudoRobot floats s)
    "Pseudo robot rejected by validator" ("Added pseudo robot " ++ (pseudoRobot floats s).id ++ ".")

def addCommandDevice : SetupSession α × Bool :=
  addDevice floats s (commandDeviceRow floats s) (commandDevice floats s) "Command device rejected"
    ("Added command device stub " ++ (commandDevice floats s).id ++
      " — the runtime driver doesn't exist yet.")

/-- The picker adds a pseudo camera, the one addition it has. -/
def openAddPicker : SetupSession α × Bool := addPseudoCamera floats s

end Additions
end SetupSubpanel
