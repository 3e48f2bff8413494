import Rollio.Namesakes
import Rollio.PairingPicker
import Rollio.PairingValidity
import Rollio.SeparatedNames
import Rollio.SetupDevices

/-! The project that the setup wizard starts with, built from the devices that it has discovered. -/
namespace DeviceDiscovery
open BusMessages RuntimeConfig TeleopConfig DeviceConfigs ProjectConfigs SetupState SetupDevices
  PairingPicker Namesakes
open AcceptedProjects (rationals)
open PairingValidity (rationalFloats)
open Text (trim)

structure DiscoveredChannelMeta (α : Type) where
  kind : DeviceType := .robot
  channelLabel : Option String := none
  defaultName : Option String := none
  modes : List RobotMode := []
  dof : Option UInt32 := none
  profiles : List CameraProfile := []
  defaultControlFrequencyHz : Option α := none
  defaults : ChannelCommandDefaults α := {}
  valueLimits : List (StateValueLimitsEntry α) := []
  supportedStates : List RobotStateKind := []
  supportedCommands : List RobotCommandKind := []
  directJointCompatibility : DirectJointCompatibility := {}

structure DiscoveredDevice (α : Type) where
  driver : String
  id : String
  displayName : String
  defaultDeviceName : Option String := none
  channelMetaByChannel : List (String × DiscoveredChannelMeta α)

abbrev NameCounts := String → ℕ

def numberedName (base : String) (n : ℕ) : String := base ++ "_" ++ toString n

def nextDefaultDeviceName (base : String) (counts : NameCounts) : String × NameCounts :=
  let nextIndex := counts base
  let resolved := if nextIndex = 0 then base else numberedName base (nextIndex + 1)
  (resolved, Function.update counts base (nextIndex + 1))

def dedupChannelDefaultName (defaultName : Option String) (counts : NameCounts) :
    Option String × NameCounts :=
  match defaultName with
  | none => (none, counts)
  | some name =>
    let base := trim name
    if base = "" then (none, counts)
    else
      let (name, counts) := nextDefaultDeviceName base counts
      (some name, counts)

def groupDefaultMode : ℕ → RobotMode
  | 0 => .freeDrive
  | 1 => .commandFollowing
  | _ => .freeDrive

def selectSupportedMode (supportedModes : List RobotMode) (preferred : RobotMode) : RobotMode :=
  let selectable := wizardSelectableModes supportedModes
  if preferred ∈ selectable then preferred
  else
    match selectable with
    | first :: _ => first
    | [] =>
      if preferred ∈ supportedModes then preferred else supportedModes.head?.getD .freeDrive

/-- The order of `camera_profile_quality_key`: pixels, then frames a second. -/
def qualityLe (p q : CameraProfile) : Bool :=
  let pixels := fun (p : CameraProfile) => p.width.toNat * p.height.toNat
  pixels p < pixels q || (pixels p = pixels q && p.fps ≤ q.fps)

/-- The last of the best profiles. -/
def pickDefaultCameraProfile (profiles : List CameraProfile) : Option CameraChannelProfile :=
  let best := profiles.foldl (fun best profile =>
    match best with
    | none => some profile
    | some held => if qualityLe held profile then some profile else some held) none
  best.map fun profile =>
    { width := profile.width
      height := profile.height
      fps := profile.fps
      pixelFormat := profile.pixelFormat
      nativePixelFormat := profile.nativePixelFormat }

def robotPublishStatesFallback (channelType : String) : List RobotStateKind :=
  let lower := channelType.toLower
  if "gripper".toList <:+: lower.toList ∨ "eef".toList <:+: lower.toList ∨
      lower ∈ ["e2", "g2", "e2b"] then
    [.parallelPosition, .parallelVelocity, .parallelEffort]
  else [.jointPosition, .jointVelocity, .jointEffort]

variable {α : Type}

def defaultPublishStatesForMeta (info : DiscoveredChannelMeta α) (fallback : List RobotStateKind) :
    List RobotStateKind :=
  if info.supportedStates ≠ [] then info.supportedStates.eraseDups
  else
    let fromLimits := info.valueLimits.map (·.stateKind)
    if fromLimits ≠ [] then fromLimits.eraseDups else fallback

def buildChannelConfigFromMeta (channelType : String) (info : DiscoveredChannelMeta α)
    (preferredMode : RobotMode) (channelName : Option String) : DeviceChannelConfigV2 α :=
  match info.kind with
  | .camera =>
    { channelType, kind := .camera, name := channelName
      channelLabel := info.channelLabel
      profile := pickDefaultCameraProfile info.profiles
      commandDefaults := info.defaults
      valueLimits := info.valueLimits
      directJointCompatibility := info.directJointCompatibility
      supportedCommands := info.supportedCommands }
  | .robot =>
    let publishStates := defaultPublishStatesForMeta info (robotPublishStatesFallback channelType)
    { channelType, kind := .robot, name := channelName
      channelLabel := info.channelLabel
      mode := some (selectSupportedMode info.modes preferredMode)
      dof := info.dof
      publishStates
      recordedStates := publishStates
      controlFrequencyHz := info.defaultControlFrequencyHz
      commandDefaults := info.defaults
      valueLimits := info.valueLimits
      directJointCompatibility := info.directJointCompatibility
      supportedCommands := info.supportedCommands }

/-- The channels of a device. The channel of a device with one channel has the device's name. -/
def channelsFromMeta (single : Option String) (preferredMode : RobotMode) :
    NameCounts → List (String × DiscoveredChannelMeta α) →
      List (DeviceChannelConfigV2 α) × NameCounts
  | counts, [] => ([], counts)
  | counts, (channelType, info) :: rest =>
    let (channelName, counts) := match single with
      | some name => (some name, counts)
      | none => dedupChannelDefaultName info.defaultName counts
    let (channels, counts) := channelsFromMeta single preferredMode counts rest
    (buildChannelConfigFromMeta channelType info preferredMode channelName :: channels, counts)

def defaultDeviceExecutableName (driver : String) : String :=
  "rollio-device-" ++ driver.map fun c => if c = '_' then '-' else c

def binaryDeviceFromDiscovery (discovery : DiscoveredDevice α) (name : String)
    (preferredMode : RobotMode) (nameCounts : NameCounts) : BinaryDeviceConfig α × NameCounts :=
  let single := if discovery.channelMetaByChannel.length = 1 then some name else none
  let (channels, nameCounts) :=
    channelsFromMeta single preferredMode nameCounts discovery.channelMetaByChannel
  ({ name
     executable := some (defaultDeviceExecutableName discovery.driver)
     driver := discovery.driver
     id := discovery.id
     busRoot := name
     channels }, nameCounts)

def preferredModeOf (discovery : DiscoveredDevice α) (armIndex eefIndex : ℕ) :
    RobotMode × ℕ × ℕ :=
  let robots := (discovery.channelMetaByChannel.map Prod.snd).filter fun info => info.kind = .robot
  if robots.any fun info => info.dof ≠ some 1 then
    (groupDefaultMode armIndex, armIndex + 1, eefIndex)
  else if robots ≠ [] then (groupDefaultMode eefIndex, armIndex, eefIndex + 1)
  else (.freeDrive, armIndex, eefIndex)

def nameBase (discovery : DiscoveredDevice α) : String :=
  discovery.defaultDeviceName.getD (discovery.driver.map fun c => if c = '-' then '_' else c)

def discoverDevices : NameCounts → ℕ → ℕ → List (DiscoveredDevice α) →
    Except String (List (BinaryDeviceConfig α))
  | _, _, _, [] => .ok []
  | counts, armIndex, eefIndex, discovery :: rest =>
    if discovery.channelMetaByChannel = [] then
      .error ("device \"" ++ discovery.displayName ++ "\" (" ++ discovery.id ++
        ") exposed no channels in its query response")
    else do
      let (preferredMode, armIndex, eefIndex) := preferredModeOf discovery armIndex eefIndex
      let (deviceName, counts) := nextDefaultDeviceName (nameBase discovery) counts
      let (device, counts) := binaryDeviceFromDiscovery discovery deviceName preferredMode counts
      let devices ← discoverDevices counts armIndex eefIndex rest
      return device :: devices

/-- The devices and default pairings of a draft, which must be a valid project. -/
def buildDiscoveryConfig (floats : Floats α) (discoveries : List (DiscoveredDevice α)) :
    Except String (ProjectConfig α) := do
  let devices ← discoverDevices (fun _ => 0) 0 0 discoveries
  let config : ProjectConfig α :=
    { devices
      pairings := buildDefaultChannelPairings floats devices
      monitor := { metricsFrequencyHz := floats.one }
      visualizer := { port := 19090 } }
  (config.validate floats.toPlatform).mapError fun e => "validation error: " ++ e
  return config

structure NameRequest where
  base : String
  device : Bool
  channel : Bool
  deriving DecidableEq, Repr

def channelBase (info : DiscoveredChannelMeta α) : Option String :=
  (info.defaultName.map trim).filter fun base => base ≠ ""

def channelRequests (channels : List (String × DiscoveredChannelMeta α)) : List NameRequest :=
  channels.filterMap fun channel =>
    (channelBase channel.2).map fun base => { base, device := false, channel := true }

def requestsOf (discovery : DiscoveredDevice α) : List NameRequest :=
  if discovery.channelMetaByChannel.length = 1 then
    [{ base := nameBase discovery, device := true, channel := true }]
  else
    { base := nameBase discovery, device := true, channel := false } ::
      channelRequests discovery.channelMetaByChannel

def requests (discoveries : List (DiscoveredDevice α)) : List NameRequest :=
  discoveries.flatMap requestsOf

def rankedRequests (counts : NameCounts) (discoveries : List (DiscoveredDevice α)) :
    List (NameRequest × ℕ) :=
  ranked NameRequest.base counts (requests discoveries)

def channelNames (devices : List (BinaryDeviceConfig α)) : List String :=
  devices.flatMap fun device => device.channels.filterMap fun channel => channel.name

/-- The names are distinct, and so a validation of the devices never meets a duplicate. -/
structure NamedApart (platform : Platform α) (devices : List (BinaryDeviceConfig α)) : Prop where
  names : (devices.map fun device => device.name).Nodup
  channels : (channelNames devices).Nodup
  busRoots : (devices.map fun device => device.busRoot).Nodup
  checks : checkDevices platform [] [] devices =
    devices.forM fun device => device.validate platform

variable {counts : NameCounts} {discoveries : List (DiscoveredDevice α)}
  {devices : List (BinaryDeviceConfig α)}

theorem not_mem_toDigits (n : ℕ) : '_' ∉ Nat.toDigits 10 n := by
  intro h
  have hdigit := Nat.isDigit_of_mem_toDigits (by decide) (by decide) h
  exact absurd hdigit (by decide)

/-- A numbered name tells its base and its number. -/
theorem numberedName_inj (b : String) (n : ℕ) (b' : String) (n' : ℕ)
    (h : numberedName b n = numberedName b' n') : b = b' ∧ n = n' := by
  have hlist : b.toList ++ '_' :: Nat.toDigits 10 n = b'.toList ++ '_' :: Nat.toDigits 10 n' := by
    simpa [numberedName] using congrArg String.toList h
  obtain ⟨hbase, hdigits⟩ :=
    (SeparatedNames.last_separator (not_mem_toDigits n) (not_mem_toDigits n')).mp hlist
  refine ⟨String.toList_inj.mp hbase, ?_⟩
  have hvalue := congrArg (fun digits => Nat.ofDigitChars 10 digits 0) hdigits
  simpa only [Nat.ofDigitChars_ten_toDigits] using hvalue

theorem nextDefaultDeviceName_eq (r : NameRequest) (counts : NameCounts) :
    nextDefaultDeviceName r.base counts =
      (nameOf NameRequest.base numberedName (r, counts r.base), counted counts r.base) := by
  cases hcount : counts r.base with
  | zero => simp [nextDefaultDeviceName, nameOf, counted, hcount]
  | succ n => simp [nextDefaultDeviceName, nameOf, counted, hcount]

theorem buildChannelConfigFromMeta_name (channelType : String) (info : DiscoveredChannelMeta α)
    (preferredMode : RobotMode) (channelName : Option String) :
    (buildChannelConfigFromMeta channelType info preferredMode channelName).name = channelName := by
  simp only [buildChannelConfigFromMeta]
  cases info.kind with
  | camera => rfl
  | robot => rfl

theorem dedupChannelDefaultName_eq (info : DiscoveredChannelMeta α) (counts : NameCounts) :
    dedupChannelDefaultName info.defaultName counts =
      (channelBase info).elim (none, counts) fun base =>
        (some (nameOf NameRequest.base numberedName
          ({ base, device := false, channel := true }, counts base)), counted counts base) := by
  simp only [dedupChannelDefaultName, channelBase]
  cases info.defaultName with
  | none => rfl
  | some name =>
    by_cases hblank : trim name = ""
    · simp [hblank, Option.filter]
    · simp only [Option.map_some, Option.filter, hblank, ne_eq, not_false_eq_true, decide_true,
        if_true, if_false]
      have hnext := nextDefaultDeviceName_eq ⟨trim name, false, true⟩ counts
      rw [hnext]
      rfl

theorem channelsFromMeta_several (preferredMode : RobotMode) (counts : NameCounts)
    (channels : List (String × DiscoveredChannelMeta α)) :
    ((channelsFromMeta none preferredMode counts channels).1.filterMap fun channel =>
        channel.name) =
      (ranked NameRequest.base counts (channelRequests channels)).map
        (nameOf NameRequest.base numberedName) ∧
    (channelsFromMeta none preferredMode counts channels).2 =
      (channelRequests channels).foldl (fun counts r => counted counts r.base) counts := by
  induction channels generalizing counts with
  | nil => exact ⟨rfl, rfl⟩
  | cons channel channels ih =>
    obtain ⟨channelType, info⟩ := channel
    simp only [channelsFromMeta, dedupChannelDefaultName_eq, channelRequests, List.filterMap_cons,
      buildChannelConfigFromMeta_name]
    cases channelBase info with
    | none => exact ih counts
    | some base =>
      obtain ⟨hnames, hcounts⟩ := ih (counted counts base)
      refine ⟨?_, hcounts⟩
      simp only [Option.map_some, ranked, List.map_cons]
      exact congrArg _ hnames

theorem filter_channelRequests (channels : List (String × DiscoveredChannelMeta α))
    (counts : NameCounts) :
    ((ranked NameRequest.base counts (channelRequests channels)).filter fun r => r.1.device) = [] ∧
      ((ranked NameRequest.base counts (channelRequests channels)).filter fun r => r.1.channel) =
        ranked NameRequest.base counts (channelRequests channels) := by
  have hkind : ∀ r ∈ ranked NameRequest.base counts (channelRequests channels),
      r.1.device = false ∧ r.1.channel = true := by
    intro r hr
    obtain ⟨channel, -, hrequest⟩ := List.mem_filterMap.mp (mem_of_mem_ranked hr)
    obtain ⟨base, -, heq⟩ := Option.map_eq_some_iff.mp hrequest
    rw [← heq]
    exact ⟨rfl, rfl⟩
  constructor
  · rw [List.filter_eq_nil_iff]
    intro r hr
    rw [(hkind r hr).1]
    exact Bool.false_ne_true
  · rw [List.filter_eq_self]
    exact fun r hr => (hkind r hr).2

def namedDevice (discovery : DiscoveredDevice α) (preferredMode : RobotMode)
    (counts : NameCounts) : BinaryDeviceConfig α × NameCounts :=
  binaryDeviceFromDiscovery discovery (nextDefaultDeviceName (nameBase discovery) counts).1
    preferredMode (nextDefaultDeviceName (nameBase discovery) counts).2

theorem namedDevice_names (discovery : DiscoveredDevice α) (preferredMode : RobotMode)
    (counts : NameCounts) :
    [(namedDevice discovery preferredMode counts).1.name] =
        ((ranked NameRequest.base counts (requestsOf discovery)).filter fun r => r.1.device).map
          (nameOf NameRequest.base numberedName) ∧
      ((namedDevice discovery preferredMode counts).1.channels.filterMap fun channel =>
          channel.name) =
        ((ranked NameRequest.base counts (requestsOf discovery)).filter fun r => r.1.channel).map
          (nameOf NameRequest.base numberedName) ∧
      (namedDevice discovery preferredMode counts).1.busRoot =
        (namedDevice discovery preferredMode counts).1.name ∧
      (namedDevice discovery preferredMode counts).2 =
        (requestsOf discovery).foldl (fun counts r => counted counts r.base) counts := by
  by_cases hsingle : discovery.channelMetaByChannel.length = 1
  · obtain ⟨⟨channelType, info⟩, hchannel⟩ := List.length_eq_one_iff.mp hsingle
    have hnext := nextDefaultDeviceName_eq ⟨nameBase discovery, true, true⟩ counts
    simp only [namedDevice, hnext, binaryDeviceFromDiscovery, requestsOf, hchannel,
      channelsFromMeta]
    simp [buildChannelConfigFromMeta_name, ranked]
  · have hnext := nextDefaultDeviceName_eq ⟨nameBase discovery, true, false⟩ counts
    obtain ⟨hnames, hcounts⟩ := channelsFromMeta_several preferredMode
      (counted counts (nameBase discovery)) discovery.channelMetaByChannel
    obtain ⟨hdevice, hchannel⟩ := filter_channelRequests discovery.channelMetaByChannel
      (counted counts (nameBase discovery))
    simp only [namedDevice, hnext, binaryDeviceFromDiscovery, requestsOf, hsingle, if_false, ranked]
    refine ⟨?_, ?_, trivial, hcounts⟩
    · simp [hdevice]
    · simp [hchannel, hnames]

/-- The names of the discovered devices, channels and bus roots are those that are asked for. -/
theorem discoverDevices_names (discoveries : List (DiscoveredDevice α))
    (hchannels : ∀ discovery ∈ discoveries, discovery.channelMetaByChannel ≠ [])
    (counts : NameCounts) (armIndex eefIndex : ℕ) :
    ∃ devices, discoverDevices counts armIndex eefIndex discoveries = .ok devices ∧
      (devices.map fun device => device.name) =
        ((rankedRequests counts discoveries).filter fun r => r.1.device).map
          (nameOf NameRequest.base numberedName) ∧
      channelNames devices =
        ((rankedRequests counts discoveries).filter fun r => r.1.channel).map
          (nameOf NameRequest.base numberedName) ∧
      (devices.map fun device => device.busRoot) = devices.map fun device => device.name := by
  induction discoveries generalizing counts armIndex eefIndex with
  | nil => exact ⟨[], rfl, rfl, rfl, rfl⟩
  | cons discovery discoveries ih =>
    obtain ⟨hsome, hrest⟩ := List.forall_mem_cons.mp hchannels
    obtain ⟨mode, armIndex', eefIndex', hmode⟩ : ∃ mode armIndex' eefIndex',
        preferredModeOf discovery armIndex eefIndex = (mode, armIndex', eefIndex') := ⟨_, _, _, rfl⟩
    obtain ⟨hname, hchannel, hroot, hcounts⟩ := namedDevice_names discovery mode counts
    obtain ⟨devices, hok, hnames, hchannelNames, hroots⟩ :=
      ih hrest (namedDevice discovery mode counts).2 armIndex' eefIndex'
    have hranked : rankedRequests counts (discovery :: discoveries) =
        ranked NameRequest.base counts (requestsOf discovery) ++
          rankedRequests (namedDevice discovery mode counts).2 discoveries := by
      rw [hcounts]
      exact ranked_append counts (requestsOf discovery) (requests discoveries)
    refine ⟨(namedDevice discovery mode counts).1 :: devices, ?_, ?_, ?_, ?_⟩
    · simp only [discoverDevices, if_neg hsome, hmode]
      exact congrArg (fun rest => rest >>= fun devices =>
        pure ((namedDevice discovery mode counts).1 :: devices)) hok
    · rw [hranked, List.filter_append, List.map_append, ← hname, ← hnames]
      rfl
    · rw [hranked, List.filter_append, List.map_append, ← hchannel, ← hchannelNames]
      rfl
    · exact congrArg₂ List.cons hroot hroots

theorem checkDevices_apart (platform : Platform α) {names busRoots : List String}
    (hnames : ∀ device ∈ devices, device.name ∉ names)
    (hroots : ∀ device ∈ devices, device.busRoot ∉ busRoots)
    (hname : (devices.map fun device => device.name).Nodup)
    (hroot : (devices.map fun device => device.busRoot).Nodup) :
    checkDevices platform names busRoots devices =
      devices.forM fun device => device.validate platform := by
  induction devices generalizing names busRoots with
  | nil => rfl
  | cons device devices ih =>
    obtain ⟨hfresh, hname⟩ := List.nodup_cons.mp hname
    obtain ⟨hfreshRoot, hroot⟩ := List.nodup_cons.mp hroot
    have hrest := @ih (device.name :: names) (device.busRoot :: busRoots) ?_ ?_ hname hroot
    · rw [checkDevices, if_neg (hnames device List.mem_cons_self),
        if_neg (hroots device List.mem_cons_self), hrest]
      rfl
    · intro other hother hmem
      cases List.mem_cons.mp hmem with
      | inl heq => exact hfresh (List.mem_map.mpr ⟨other, hother, heq⟩)
      | inr hseen => exact hnames other (List.mem_cons_of_mem _ hother) hseen
    · intro other hother hmem
      cases List.mem_cons.mp hmem with
      | inl heq => exact hfreshRoot (List.mem_map.mpr ⟨other, hother, heq⟩)
      | inr hseen => exact hroots other (List.mem_cons_of_mem _ hother) hseen

/-- The devices are named apart exactly if no device's base name, where it is first asked for, is
the numbered name of another device, and no channel's is that of another channel. -/
theorem discovery_named_apart_iff (platform : Platform α)
    (hchannels : ∀ discovery ∈ discoveries, discovery.channelMetaByChannel ≠ []) :
    ∃ devices, discoverDevices (fun _ => 0) 0 0 discoveries = .ok devices ∧
      (NamedApart platform devices ↔
        Clear NameRequest.base numberedName
          ((rankedRequests (fun _ => 0) discoveries).filter fun r => r.1.device) ∧
        Clear NameRequest.base numberedName
          ((rankedRequests (fun _ => 0) discoveries).filter fun r => r.1.channel)) := by
  obtain ⟨devices, hok, hnames, hchannelNames, hroots⟩ :=
    discoverDevices_names discoveries hchannels (fun _ => 0) 0 0
  refine ⟨devices, hok, ?_⟩
  rw [rankedRequests, ← names_nodup_iff numberedName_inj, ← names_nodup_iff numberedName_inj]
  rw [rankedRequests] at hnames hchannelNames
  rw [← hnames, ← hchannelNames]
  constructor
  · exact fun h => ⟨h.names, h.channels⟩
  · rintro ⟨hname, hchannel⟩
    have hroot : (devices.map fun device => device.busRoot).Nodup := by
      rwa [hroots]
    exact ⟨hname, hchannel, hroot,
      checkDevices_apart platform (fun _ _ => by simp) (fun _ _ => by simp) hname hroot⟩

def arm (id name : String) : DiscoveredDevice ℚ :=
  { driver := "airbot-play"
    id
    displayName := "AIRBOT Play"
    defaultDeviceName := some name
    channelMetaByChannel := [("arm",
      { modes := [.freeDrive, .commandFollowing]
        dof := some 6
        defaultControlFrequencyHz := some 250
        supportedStates := [.jointPosition]
        supportedCommands := [.jointPosition] })] }

theorem two_arms_named_apart :
    ∃ devices, discoverDevices (fun _ => 0) 0 0 [arm "can0" "arm", arm "can1" "arm"] = .ok devices ∧
      NamedApart rationals devices := by
  obtain ⟨devices, hok, hiff⟩ :=
    @discovery_named_apart_iff ℚ [arm "can0" "arm", arm "can1" "arm"] rationals (by simp [arm])
  exact ⟨devices, hok, hiff.mpr ⟨by decide +kernel, by decide +kernel⟩⟩

/-- A driver's own `arm_2` meets the second `arm`. -/
theorem third_arm_not_named_apart :
    buildDiscoveryConfig rationalFloats
        [arm "can0" "arm", arm "can1" "arm", arm "can2" "arm_2"] =
      .error "validation error: duplicate device name: \"arm_2\"" ∧
    ∃ devices, discoverDevices (fun _ => 0) 0 0
        [arm "can0" "arm", arm "can1" "arm", arm "can2" "arm_2"] = .ok devices ∧
      ¬ NamedApart rationals devices := by
  refine ⟨by decide +kernel, _, rfl, ?_⟩
  intro h
  exact absurd h.names (by decide +kernel)

end DeviceDiscovery
