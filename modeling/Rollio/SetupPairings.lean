import Rollio.PairingPicker

/-! The commands of the setup wizard that make, change and remove pairings. -/
namespace SetupPairings
open BusMessages RuntimeConfig TeleopConfig DeviceConfigs ProjectConfigs SetupState PairingPicker
open FirstMatch (modifyFirst)

variable {α : Type}

structure TeleopPairCreate (α : Type) where
  policy : MappingStrategy
  leader : String × String
  follower : String × String
  ratio : Option α
  deriving DecidableEq, Repr

inductive PairingEndpoint where
  | leader | follower
  deriving DecidableEq, Repr

def mappingStrategyLabel : MappingStrategy → String
  | .directJoint => "direct-joint"
  | .cartesian => "cartesian"
  | .parallel => "parallel"

def modifyChannel (devices : List (BinaryDeviceConfig α)) (deviceName channelType : String)
    (f : DeviceChannelConfigV2 α → DeviceChannelConfigV2 α) : List (BinaryDeviceConfig α) :=
  modifyFirst (fun device => device.name == deviceName)
    (fun device => { device with
      channels := modifyFirst (fun channel => channel.channelType == channelType) f
        device.channels })
    devices

def ensureChannelPublishesState (devices : List (BinaryDeviceConfig α))
    (deviceName channelType : String) (state : RobotStateKind) : List (BinaryDeviceConfig α) :=
  modifyChannel devices deviceName channelType fun channel =>
    if state ∈ channel.publishStates then channel
    else { channel with publishStates := channel.publishStates ++ [state] }

/-- The row is looked for under the name of the device. -/
def promoteFollowerChannelToCommandFollowing (s : SetupSession α)
    (deviceName channelType : String) : SetupSession α :=
  { s with
    config := { s.config with
      devices := modifyChannel s.config.devices deviceName channelType fun channel =>
        if channel.kind = .robot then { channel with mode := some .commandFollowing }
        else channel }
    availableDevices := modifyFirst (fun available => available.name == deviceName)
      (fun available =>
        if available.channel.kind = .robot ∧ available.channel.channelType = channelType ∧
            .commandFollowing ∈ available.supportedModes then
          available.withChannel { available.channel with mode := some .commandFollowing }
        else available)
      s.availableDevices }

def publishedStates (config : ProjectConfig α) (deviceName channelType : String) :
    Option (List RobotStateKind) :=
  ((config.deviceNamed deviceName).bind fun d => d.channelNamed channelType).map
    (·.publishStates)

def placePairing (s : SetupSession α) (pairings : List (ChannelPairingConfig α))
    (pair : ChannelPairingConfig α) : SetupSession α :=
  { s with config := { s.config with
      pairings
      devices := ensureChannelPublishesState s.config.devices pair.leaderDevice
        pair.leaderChannelType pair.leaderState } }

def restoreStates (before : ProjectConfig α) (devices : List (BinaryDeviceConfig α))
    (deviceName channelType : String) : List (BinaryDeviceConfig α) :=
  match publishedStates before deviceName channelType with
  | some states =>
    modifyChannel devices deviceName channelType fun channel =>
      { channel with publishStates := states }
  | none => devices

def mappingOptions : List MappingStrategy := [.directJoint, .cartesian, .parallel]

def nextMapping (current : MappingStrategy) (delta : ℤ) : MappingStrategy :=
  mappingOptions.getD
    (rotateIndex ((mappingOptions.idxOf? current).getD 0) mappingOptions.length delta) .directJoint

variable (floats : Floats α)

def cyclePairMapping (s : SetupSession α) (index : ℕ) (delta : ℤ) : SetupSession α × Bool :=
  match s.config.pairings[index]? with
  | none => (s, false)
  | some snapshot =>
    let mapping := nextMapping snapshot.mapping delta
    if mapping = snapshot.mapping then (s, false)
    else
      let newPair := pairingFromChannels floats s.config.devices mapping snapshot.leaderDevice
        snapshot.leaderChannelType snapshot.followerDevice snapshot.followerChannelType none
      let placed := placePairing s (s.config.pairings.set index newPair) newPair
      validatedOr floats placed fun error =>
        let restored := { placed with config := { placed.config with
          pairings := placed.config.pairings.set index snapshot
          devices := restoreStates s.config placed.config.devices snapshot.leaderDevice
            snapshot.leaderChannelType } }
        restored.reject ("Cannot switch to " ++ mappingStrategyLabel mapping ++ " mapping: " ++
          error)

def pickDefaultPairEndpoints (s : SetupSession α) : SetupSession α × Option (TeleopPairCreate α) :=
  let picked := [MappingStrategy.parallel, .directJoint, .cartesian].findSome? fun policy =>
    (eligibleLeaderChannelsFor s policy none).findSome? fun leader =>
      (eligibleFollowerChannelsFor s policy (some leader) none).findSome? fun follower =>
        if leader ≠ follower then
          some { policy, leader, follower
                 ratio := if policy = .parallel then some floats.one else none }
        else none
  match picked with
  | some pair => (s, some pair)
  | none =>
    ({ s with message := some ("No eligible leader / follower combination found. Pick a policy " ++
        "whose predicate at least two of the selected robot channels satisfy.") }, none)

def pushPairing (s : SetupSession α) (pair : ChannelPairingConfig α) : SetupSession α :=
  promoteFollowerChannelToCommandFollowing (placePairing s (s.config.pairings ++ [pair]) pair)
    pair.followerDevice pair.followerChannelType

def createPairingOf (s : SetupSession α) (pair : TeleopPairCreate α) : SetupSession α × Option ℕ :=
  if pair.leader ∉ eligibleLeaderChannelsFor s pair.policy none then
    ({ s with message := some ("Leader " ++ pair.leader.1 ++ ":" ++ pair.leader.2 ++
        " is not eligible for the " ++ mappingStrategyLabel pair.policy ++
        " policy (channel may have been disabled in step 1, or no longer satisfies the " ++
        "policy's predicate).") }, none)
  else if pair.follower ∉ eligibleFollowerChannelsFor s pair.policy (some pair.leader) none then
    ({ s with message := some ("Follower " ++ pair.follower.1 ++ ":" ++ pair.follower.2 ++
        " is not eligible for the " ++ mappingStrategyLabel pair.policy ++
        " policy (channel may have been disabled in step 1, already follow another leader, or " ++
        "fail the policy's predicate).") }, none)
  else if pair.leader = pair.follower then
    ({ s with message := some "Leader and follower channel must differ." }, none)
  else
    let pushed := pushPairing s (pairingFromChannels floats s.config.devices pair.policy
      pair.leader.1 pair.leader.2 pair.follower.1 pair.follower.2 pair.ratio)
    match pushed.config.validate floats.toPlatform with
    | .ok () => (pushed, some (pushed.config.pairings.length - 1))
    | .error e =>
      -- Only the pairing is taken back.
      ({ pushed with
          config := { pushed.config with pairings := pushed.config.pairings.dropLast }
          message := some ("Could not create pairing: validation error: " ++ e) }, none)

def createPairing (s : SetupSession α) (explicit : Option (TeleopPairCreate α)) :
    SetupSession α × Option ℕ :=
  match explicit with
  | some pair => createPairingOf floats s pair
  | none =>
    match pickDefaultPairEndpoints floats s with
    | (s, some pair) => createPairingOf floats s pair
    | (s, none) => (s, none)

def removePairing (s : SetupSession α) (index : ℕ) : Handled α :=
  if index ≥ s.config.pairings.length then .ok (s, false)
  else
    validated floats { s with config := { s.config with
      pairings := s.config.pairings.eraseIdx index } }

def eligibleEndpoints (s : SetupSession α) (index : ℕ) (pair : ChannelPairingConfig α) :
    PairingEndpoint → List (String × String)
  | .leader => eligibleLeaderChannelsFor s pair.mapping (some index)
  | .follower =>
    eligibleFollowerChannelsFor s pair.mapping (some (pair.leaderDevice, pair.leaderChannelType))
      (some index)

/-- The pairing rebuilt under its policy with one endpoint replaced. A parallel pairing keeps
its ratio. -/
def rebuiltPairing (devices : List (BinaryDeviceConfig α)) (pair : ChannelPairingConfig α)
    (endpoint : PairingEndpoint) (device channelType : String) : ChannelPairingConfig α :=
  let ratio := if pair.mapping = .parallel then pair.jointScales.head? else none
  match endpoint with
  | .leader =>
    pairingFromChannels floats devices pair.mapping device channelType pair.followerDevice
      pair.followerChannelType ratio
  | .follower =>
    pairingFromChannels floats devices pair.mapping pair.leaderDevice pair.leaderChannelType device
      channelType ratio

def endpointLabel : PairingEndpoint → String
  | .leader => "Leader"
  | .follower => "Follower"

def setPairingEndpoint (s : SetupSession α) (index : ℕ) (endpoint : PairingEndpoint)
    (device channelType : String) : Handled α :=
  match s.config.pairings[index]? with
  | none => .ok (s, false)
  | some pair =>
    if (device, channelType) ∉ eligibleEndpoints s index pair endpoint then
      .ok (s.reject (endpointLabel endpoint ++ " " ++ device ++ ":" ++ channelType ++
        " is not eligible for the " ++ mappingStrategyLabel pair.mapping ++
        " policy (channel may not satisfy the predicate, may collide with this pair's other " ++
        "endpoint, or may already be a follower in another pair)."))
    else
      let rebuilt := rebuiltPairing floats s.config.devices pair endpoint device channelType
      validated floats (promoteFollowerChannelToCommandFollowing
        (placePairing s (s.config.pairings.set index rebuilt) rebuilt)
        rebuilt.followerDevice rebuilt.followerChannelType)

def setPairingRatio (s : SetupSession α) (index : ℕ) (ratio : α) : SetupSession α × Bool :=
  match s.config.pairings[index]? with
  | none => (s, false)
  | some pair =>
    if pair.mapping ≠ .parallel then
      s.reject ("Pair " ++ pair.route ++ " uses " ++ mappingStrategyLabel pair.mapping ++
        " mapping, which has no ratio. Cycle to parallel via h/l first.")
    else if !floats.isFinite ratio || floats.isZero ratio then
      s.reject ("Parallel ratio must be finite and non-zero (got " ++ floats.display ratio ++ ").")
    else
      let placed := { s with config := { s.config with
        pairings := s.config.pairings.set index { pair with jointScales := [ratio] } } }
      validatedOr floats placed fun error =>
        { placed with config := { placed.config with
            pairings := placed.config.pairings.set index pair } }.reject
          ("Cannot apply ratio: " ++ error)

end SetupPairings
