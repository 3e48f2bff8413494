import Mathlib.Data.List.Sort
import Mathlib.Data.String.Basic
import Rollio.SetupState

/-! The commands of the setup wizard that select, rename and cycle the rows of the device list. -/
namespace SetupDevices
open BusMessages RuntimeConfig TeleopConfig DeviceConfigs ProjectConfigs SetupState
open Text (trim)

variable {α : Type}

def cameraChannelTypeForProfile (profile : CameraProfile) : String :=
  let base := profile.stream.getD "color"
  match profile.channel with
  | some ch => if ch > 0 then base ++ "_" ++ toString ch else base
  | none => base

/-- The modes the wizard cycles through, in its own order. -/
def wizardSelectableModes (supportedModes : List RobotMode) : List RobotMode :=
  [RobotMode.freeDrive, .commandFollowing].filter (· ∈ supportedModes)

def showsProfile (channel : DeviceChannelConfigV2 α) (profile : CameraProfile) : Bool :=
  (channel.profile.any fun p => p.width = profile.width && p.height = profile.height &&
      p.fps = profile.fps && p.pixelFormat = profile.pixelFormat &&
      p.nativePixelFormat = profile.nativePixelFormat) &&
    cameraChannelTypeForProfile profile = channel.channelType

def withProfile (channel : DeviceChannelConfigV2 α) (profile : CameraProfile) :
    DeviceChannelConfigV2 α :=
  { channel with
    channelType := cameraChannelTypeForProfile profile
    profile := some
      { width := profile.width
        height := profile.height
        fps := profile.fps
        pixelFormat := profile.pixelFormat
        nativePixelFormat := profile.nativePixelFormat } }

def nextProfileChannel (row : AvailableDevice α) (delta : ℤ) : Option (DeviceChannelConfigV2 α) :=
  if row.cameraProfiles = [] ∨ row.channel.kind ≠ .camera then none
  else
    let current := (row.cameraProfiles.findIdx? (showsProfile row.channel)).getD 0
    row.cameraProfiles[rotateIndex current row.cameraProfiles.length delta]?.map
      (withProfile row.channel)

def nextModeChannel (row : AvailableDevice α) (delta : ℤ) : Option (DeviceChannelConfigV2 α) :=
  let selectable := wizardSelectableModes row.supportedModes
  if selectable = [] ∨ row.channel.kind ≠ .robot then none
  else
    let current := (row.channel.mode.bind fun mode => selectable.idxOf? mode).getD 0
    selectable[rotateIndex current selectable.length delta]?.map fun mode =>
      { row.channel with mode := some mode }

def cycleRow (s : SetupSession α) (name : String)
    (next : AvailableDevice α → Option (DeviceChannelConfigV2 α)) : SetupSession α × Bool :=
  match s.selectedDeviceIndex name with
  | none => (s, false)
  | some slot =>
    match (s.availableDevice name).bind next with
    | none => (s, false)
    | some channel =>
      ({ s.modifyAvailableChannel name fun _ => channel with
          config := setChannel s.config slot channel }, true)

def cycleDeviceProfile (s : SetupSession α) (name : String) (delta : ℤ) : SetupSession α × Bool :=
  cycleRow s name fun row => nextProfileChannel row delta

def cycleRobotMode (s : SetupSession α) (name : String) (delta : ℤ) : SetupSession α × Bool :=
  cycleRow s name fun row => nextModeChannel row delta

def setIdentifyDevice (s : SetupSession α) (name : Option String) : SetupSession α × Bool :=
  match name with
  | none => s.clearIdentifyState
  | some target =>
    if s.identifyDeviceName = some target then (s, false)
    else
      let message := match s.availableDevice target with
        | some device =>
          some ("Identify active for " ++ device.displayName ++ " (" ++ device.id ++ ")")
        | none => s.message
      ({ s with identifyDeviceName := some target, message }, true)

def siblingChannels (s : SetupSession α) (target : AvailableDevice α) :
    List (DeviceChannelConfigV2 α) :=
  ((s.availableDevices.filter fun available =>
      available.driver = target.driver && available.id = target.id).map (·.channel)).insertionSort
    fun left right => left.channelType ≤ right.channelType

def buildSelectedDeviceFromAvailable (s : SetupSession α) (name : String) :
    Option (BinaryDeviceConfig α) :=
  (s.availableDevice name).map fun target =>
    { target.current with
      channels := (siblingChannels s target).map fun channel =>
        { channel with enabled := channel.channelType = target.channel.channelType } }

def deselected (config : ProjectConfig α) (slot : ChannelSlot α) : ProjectConfig α :=
  if (slot.device.channels.filter (·.enabled)).length ≤ 1 then
    { config with devices := config.devices.eraseIdx slot.deviceIndex }
  else setChannel config slot { slot.channel with enabled := false }

def reselected (s : SetupSession α) (name : String) : Option (ProjectConfig α) :=
  (s.availableDevice name).bind fun available =>
    match s.configuredDeviceChannelIndex name with
    | some slot => some (setChannel s.config slot { available.channel with enabled := true })
    | none => (buildSelectedDeviceFromAvailable s name).map fun device =>
      { s.config with devices := s.config.devices ++ [device] }

variable (floats : Floats α)

def setDeviceName (s : SetupSession α) (name value : String) : Handled α :=
  match s.selectedDeviceIndex name with
  | none => .ok (s, false)
  | some slot =>
    let trimmed := trim value
    if trimmed = "" then .ok (s.reject "Channel name must not be empty.")
    else if s.availableDevices.any fun device =>
        device.name ≠ name && device.channel.name = some trimmed then
      .ok (s.reject ("Channel name \"" ++ trimmed ++ "\" is already in use."))
    else if slot.channel.name = some trimmed then .ok (s, false)
    else
      validated floats
        { s.modifyAvailableChannel name fun channel => { channel with name := some trimmed } with
          config := setChannel s.config slot { slot.channel with name := some trimmed } }

def toggleDeviceSelection (s : SetupSession α) (name : String) : Handled α :=
  match s.selectedDeviceIndex name with
  | some slot =>
    let off := { s with config := deselected s.config slot }
    let settled := if s.identifyDeviceName = some name then off.clearIdentifyState.1 else off
    validated floats settled.pruneInvalidPairings
  | none =>
    match reselected s name with
    | none => .ok (s, false)
    | some config => validated floats ({ s with config } : SetupSession α).pruneInvalidPairings

def setStateLists (s : SetupSession α) (name : String) (slot : ChannelSlot α)
    (publishStates recordedStates : List RobotStateKind) : Handled α :=
  validated floats
    { s.modifyAvailableChannel name fun channel => { channel with publishStates, recordedStates } with
      config := setChannel s.config slot { slot.channel with publishStates, recordedStates } }

def togglePublishState (s : SetupSession α) (name : String) (stateKind : RobotStateKind) :
    Handled α :=
  match s.selectedDeviceIndex name with
  | none => .ok (s, false)
  | some slot =>
    if slot.channel.kind ≠ .robot then .ok (s, false)
    else
      let supportedStates := ((s.availableDevice name).map (·.supportedStates)).getD []
      if stateKind ∈ slot.channel.publishStates then
        match s.config.pairings.find? fun pair => pair.leaderDevice = slot.device.name &&
            pair.leaderChannelType = slot.channel.channelType && pair.leaderState = stateKind with
        | some pairing =>
          .ok (s.reject (stateDebugName stateKind ++ " is required by pairing " ++
            pairing.leaderDevice ++ ":" ++ pairing.leaderChannelType ++
            " (leader_state); change the pairing first."))
        | none =>
          setStateLists floats s name slot (slot.channel.publishStates.filter (· ≠ stateKind))
            (slot.channel.recordedStates.filter (· ≠ stateKind))
      else if supportedStates ≠ [] ∧ stateKind ∉ supportedStates then
        .ok (s.reject (stateDebugName stateKind ++
          " is not advertised as supported by this device."))
      else
        setStateLists floats s name slot (slot.channel.publishStates ++ [stateKind])
          slot.channel.recordedStates

def toggleRecordedState (s : SetupSession α) (name : String) (stateKind : RobotStateKind) :
    Handled α :=
  match s.selectedDeviceIndex name with
  | none => .ok (s, false)
  | some slot =>
    if slot.channel.kind ≠ .robot then .ok (s, false)
    else if stateKind ∈ slot.channel.recordedStates then
      setStateLists floats s name slot slot.channel.publishStates
        (slot.channel.recordedStates.filter (· ≠ stateKind))
    else if stateKind ∉ slot.channel.publishStates then
      .ok (s.reject (stateDebugName stateKind ++ " must be published before it can be recorded."))
    else
      setStateLists floats s name slot slot.channel.publishStates
        (slot.channel.recordedStates ++ [stateKind])

end SetupDevices
