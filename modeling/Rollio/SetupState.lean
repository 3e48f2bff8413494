import Rollio.FirstMatch
import Rollio.ProjectConfigs

/-! The state of the setup wizard: the project it edits, the rows of its device list, and the
step it shows. -/
namespace SetupState
open BusMessages RuntimeConfig TeleopConfig DeviceConfigs ProjectConfigs
open FirstMatch (modifyFirst)

/-- The floating-point numbers an operator can type in. -/
structure Floats (α : Type) extends Platform α where
  /-- `1.0`. -/
  one : α
  /-- `str::parse::<f64>`. -/
  parse : String → Option α
  /-- `==`. -/
  same : α → α → Bool
  /-- `(a - b).abs() < f64::EPSILON`. -/
  close : α → α → Bool
  one_isFinite : isFinite one = true
  one_isZero : isZero one = false

def parseDigits (digits : List Char) : Option ℕ :=
  if digits.isEmpty || !digits.all Char.isDigit then none
  else some (Nat.ofDigitChars 10 digits 0)

def parseUnsigned (bound : ℕ) (text : String) : Option ℕ :=
  (parseDigits (match text.toList with
    | '+' :: rest => rest
    | digits => digits)).filter (· < bound)

def parseI32 (text : String) : Option ℤ :=
  let value : Option ℤ := match text.toList with
    | '-' :: rest => (parseDigits rest).map fun n => -(n : ℤ)
    | '+' :: rest => (parseDigits rest).map fun n => (n : ℤ)
    | digits => (parseDigits digits).map fun n => (n : ℤ)
  value.filter fun v => decide (-2147483648 ≤ v ∧ v < 2147483648)

structure CameraProfile where
  width : UInt32
  height : UInt32
  fps : UInt32
  pixelFormat : PixelFormat
  nativePixelFormat : Option String := none
  stream : Option String := none
  channel : Option UInt32 := none
  deriving DecidableEq, Repr

/-- A row of the device list. Its snapshot holds the row's one channel. -/
structure AvailableDevice (α : Type) where
  name : String
  displayName : String
  deviceType : DeviceType
  driver : String
  id : String
  cameraProfiles : List CameraProfile := []
  supportedModes : List RobotMode := []
  supportedStates : List RobotStateKind := []
  current : BinaryDeviceConfig α
  current_driver : current.driver = driver
  current_id : current.id = id
  current_primary : ∃ channel, current.channels = [channel]
  deriving DecidableEq

variable {α : Type}

namespace AvailableDevice

def channel (a : AvailableDevice α) : DeviceChannelConfigV2 α :=
  a.current.channels.head (by
    obtain ⟨channel, hc⟩ := a.current_primary
    simp [hc])

def withChannel (a : AvailableDevice α) (channel : DeviceChannelConfigV2 α) : AvailableDevice α :=
  { a with
    current := { a.current with channels := [channel] }
    current_primary := ⟨channel, rfl⟩ }

@[simp] theorem withChannel_channel (a : AvailableDevice α) (c : DeviceChannelConfigV2 α) :
    (a.withChannel c).channel = c := rfl

@[simp] theorem withChannel_name (a : AvailableDevice α) (c : DeviceChannelConfigV2 α) :
    (a.withChannel c).name = a.name := rfl

@[simp] theorem withChannel_driver (a : AvailableDevice α) (c : DeviceChannelConfigV2 α) :
    (a.withChannel c).driver = a.driver := rfl

@[simp] theorem withChannel_id (a : AvailableDevice α) (c : DeviceChannelConfigV2 α) :
    (a.withChannel c).id = a.id := rfl

/-- The row that shows exactly one channel of a device. -/
def ofDevice (name displayName : String) (deviceType : DeviceType) (supportedModes : List RobotMode)
    (supportedStates : List RobotStateKind) (device : BinaryDeviceConfig α)
    (channel : DeviceChannelConfigV2 α) : AvailableDevice α :=
  { name, displayName, deviceType, supportedModes, supportedStates
    driver := device.driver
    id := device.id
    current := { device with channels := [channel] }
    current_driver := rfl
    current_id := rfl
    current_primary := ⟨channel, rfl⟩ }

end AvailableDevice

structure DeviceIdentity where
  deviceType : DeviceType
  driver : String
  id : String
  channelType : String
  deriving DecidableEq, Repr

/-- `device_identity_from_binary` of a row's snapshot. -/
def AvailableDevice.identity (a : AvailableDevice α) : DeviceIdentity :=
  { deviceType := a.channel.kind
    driver := a.current.driver
    id := a.current.id
    channelType := a.channel.channelType }

inductive SetupStep where
  | devices | states | pairing | storage | preview
  deriving DecidableEq, Repr

inductive SetupUiStatus where
  | editing | saved | cancelled
  deriving DecidableEq, Repr

inductive SetupExitKind where
  | saved | cancelled
  deriving DecidableEq, Repr

structure SetupSession (α : Type) where
  config : ProjectConfig α
  availableDevices : List (AvailableDevice α)
  identifyDeviceName : Option String := none
  subpanelTargetName : Option String := none
  currentStep : SetupStep
  outputPath : String
  message : Option String := none
  status : SetupUiStatus := .editing
  exitKind : Option SetupExitKind := none
  deriving DecidableEq

structure SessionMutation where
  stateChanged : Bool := false
  configChanged : Bool := false
  stepChanged : Bool := false
  deriving DecidableEq, Repr

def SessionMutation.ofState (changed : Bool) : SessionMutation := { stateChanged := changed }

def SessionMutation.ofConfig (changed : Bool) : SessionMutation :=
  { stateChanged := changed, configChanged := changed }

def SessionMutation.ofStep (changed : Bool) : SessionMutation :=
  { stateChanged := changed, stepChanged := changed }

structure ChannelSlot (α : Type) where
  deviceIndex : ℕ
  channelIndex : ℕ
  device : BinaryDeviceConfig α
  channel : DeviceChannelConfigV2 α

/-- `config.devices[device_index].channels[channel_index] = channel`. -/
def setChannel (config : ProjectConfig α) (slot : ChannelSlot α)
    (channel : DeviceChannelConfigV2 α) : ProjectConfig α :=
  { config with
    devices := config.devices.modify slot.deviceIndex fun device =>
      { device with channels := device.channels.set slot.channelIndex channel } }

def rotateIndex (currentIndex len : ℕ) (delta : ℤ) : ℕ :=
  if len = 0 then 0 else ((((currentIndex : ℤ) + delta).tmod len) + len).toNat % len

namespace SetupSession

def new (config : ProjectConfig α) (availableDevices : List (AvailableDevice α))
    (outputPath : String) (resumeMode : Bool) : SetupSession α :=
  { config, availableDevices, outputPath
    currentStep := if resumeMode then .preview else .devices }

def markSaved (s : SetupSession α) : SetupSession α :=
  { s with
    status := .saved
    message := some ("Saved " ++ s.outputPath)
    exitKind := some .saved }

def markCancelled (s : SetupSession α) : SetupSession α :=
  { s with
    status := .cancelled
    message := some "Setup cancelled"
    exitKind := some .cancelled }

/-- Whether the message line is the one the identify flow has put there. -/
def identifyMessageShown (s : SetupSession α) : Bool :=
  s.message.any fun message => "Identify active for ".toList.isPrefixOf message.toList

def clearIdentifyMessage (s : SetupSession α) : SetupSession α × Bool :=
  if s.identifyMessageShown then ({ s with message := none }, true) else (s, false)

def clearIdentifyState (s : SetupSession α) : SetupSession α × Bool :=
  let cleared := clearIdentifyMessage { s with identifyDeviceName := none }
  (cleared.1, cleared.2 || s.identifyDeviceName.isSome)

def visibleSteps (s : SetupSession α) : List SetupStep :=
  if s.config.mode = .teleop then [.devices, .pairing, .states, .storage, .preview]
  else [.devices, .states, .storage, .preview]

/-- Away from the device list there is no identify target and no open panel. -/
def leaveDevices (s : SetupSession α) : SetupSession α :=
  if s.currentStep ≠ .devices then { s.clearIdentifyState.1 with subpanelTargetName := none }
  else s

/-- `steps.iter().position(|step| *step == self.current_step).unwrap_or(0)`. -/
def stepIndex (s : SetupSession α) : ℕ := (s.visibleSteps.idxOf? s.currentStep).getD 0

def goTo (s : SetupSession α) (step : SetupStep) : SetupSession α × Bool :=
  (leaveDevices { s with currentStep := step }, s.currentStep ≠ step)

def advanceStep (s : SetupSession α) : SetupSession α × Bool :=
  s.goTo (s.visibleSteps.getD (min (s.stepIndex + 1) (s.visibleSteps.length - 1)) .devices)

def retreatStep (s : SetupSession α) : SetupSession α × Bool :=
  s.goTo (s.visibleSteps.getD (s.stepIndex - 1) .devices)

def ensureVisibleCurrentStep (s : SetupSession α) : SetupSession α :=
  leaveDevices (if s.currentStep = .pairing ∧ s.config.mode ≠ .teleop then
    { s with currentStep := .storage } else s)

def deviceHasEnabledChannel (config : ProjectConfig α) (deviceName channelType : String) : Bool :=
  config.devices.any fun device => device.name == deviceName &&
    device.channels.any fun channel => channel.channelType == channelType && channel.enabled

def pruneInvalidPairings (s : SetupSession α) : SetupSession α :=
  { s with config := { s.config with
      pairings := s.config.pairings.filter fun pair =>
        deviceHasEnabledChannel s.config pair.leaderDevice pair.leaderChannelType &&
          deviceHasEnabledChannel s.config pair.followerDevice pair.followerChannelType } }

def availableDevice (s : SetupSession α) (name : String) : Option (AvailableDevice α) :=
  s.availableDevices.find? fun device => device.name == name

def modifyAvailableChannel (s : SetupSession α) (name : String)
    (f : DeviceChannelConfigV2 α → DeviceChannelConfigV2 α) : SetupSession α :=
  { s with
    availableDevices := modifyFirst (fun device => device.name == name)
      (fun device => device.withChannel (f device.channel)) s.availableDevices }

def configuredDeviceChannelIndex (s : SetupSession α) (name : String) : Option (ChannelSlot α) := do
  let row ← s.availableDevice name
  let identity := row.identity
  s.config.devices.zipIdx.findSome? fun (device, deviceIndex) =>
    if device.driver ≠ identity.driver ∨ device.id ≠ identity.id then none
    else
      (device.channels.zipIdx.find? fun (channel, _) =>
          channel.kind = identity.deviceType && channel.channelType = identity.channelType).map
        fun (channel, channelIndex) => { deviceIndex, channelIndex, device, channel }

def selectedDeviceIndex (s : SetupSession α) (name : String) : Option (ChannelSlot α) :=
  (s.configuredDeviceChannelIndex name).filter fun slot => slot.channel.enabled

def isDeviceSelected (s : SetupSession α) (name : String) : Bool :=
  (s.selectedDeviceIndex name).isSome

/-- A command that is turned down changes the message line only. -/
def reject (s : SetupSession α) (message : String) : SetupSession α × Bool :=
  ({ s with message := some message }, false)

end SetupSession

/-- What a handler returns: the session and whether it has changed, or the error that ends the
wizard. -/
abbrev Handled (α : Type) := Except String (SetupSession α × Bool)

/-- `self.config.validate()?; Ok(true)`. -/
def validated (floats : Floats α) (s : SetupSession α) : Handled α :=
  match s.config.validate floats.toPlatform with
  | .ok () => .ok (s, true)
  | .error e => .error ("validation error: " ++ e)

/-- `if let Err(error) = self.config.validate()`, with what is put back then. -/
def validatedOr (floats : Floats α) (s : SetupSession α)
    (restore : String → SetupSession α × Bool) : SetupSession α × Bool :=
  match s.config.validate floats.toPlatform with
  | .ok () => (s, true)
  | .error e => restore ("validation error: " ++ e)
end SetupState
