import Rollio.AcceptedProjects
import Rollio.SetupState

/-! The pairing picker of the setup wizard: which channels it offers as leader and follower, and
the pairing it builds of the two picked. -/
namespace PairingPicker
open BusMessages RuntimeConfig TeleopConfig DeviceConfigs ProjectConfigs SetupState

variable {α : Type}

instance endpointsLawfulBEq : LawfulBEq (String × String) := inferInstance

def channelSupportsDirectJointLeader (ch : DeviceChannelConfigV2 α) : Bool :=
  .jointPosition ∈ ch.publishStates ∧ ch.dof.any (0 < ·)

def channelSupportsDirectJointFollower (ch : DeviceChannelConfigV2 α) : Bool :=
  .jointPosition ∈ ch.supportedCommands ∧ ch.dof.any (0 < ·)

def channelSupportsParallelLeader (ch : DeviceChannelConfigV2 α) : Bool :=
  ch.dof = some 1 ∧ .parallelPosition ∈ ch.publishStates

def channelSupportsParallelFollower (ch : DeviceChannelConfigV2 α) : Bool :=
  ch.dof = some 1 ∧
    (.parallelPosition ∈ ch.supportedCommands ∨ .parallelMit ∈ ch.supportedCommands)

def channelSupportsCartesianLeader (ch : DeviceChannelConfigV2 α) : Bool :=
  .endEffectorPose ∈ ch.publishStates

def channelSupportsCartesianFollower (ch : DeviceChannelConfigV2 α) : Bool :=
  .endPose ∈ ch.supportedCommands

def supportsLeader (policy : MappingStrategy) (ch : DeviceChannelConfigV2 α) : Bool :=
  match policy with
  | .directJoint => channelSupportsDirectJointLeader ch
  | .cartesian => channelSupportsCartesianLeader ch
  | .parallel => channelSupportsParallelLeader ch

def supportsFollower (policy : MappingStrategy) (ch : DeviceChannelConfigV2 α) : Bool :=
  match policy with
  | .directJoint => channelSupportsDirectJointFollower ch
  | .cartesian => channelSupportsCartesianFollower ch
  | .parallel => channelSupportsParallelFollower ch

def policyPairCompatible (policy : MappingStrategy) (leaderDevice : BinaryDeviceConfig α)
    (leaderChannel : DeviceChannelConfigV2 α) (followerDevice : BinaryDeviceConfig α)
    (followerChannel : DeviceChannelConfigV2 α) : Bool :=
  match policy with
  | .directJoint =>
    if leaderChannel.dof.isNone ∨ leaderChannel.dof ≠ followerChannel.dof then false
    else
      let leaderEndorses := leaderChannel.directJointCompatibility.canLead.any fun peer =>
        peer.driver == followerDevice.driver && peer.channelType == followerChannel.channelType
      let followerEndorses := followerChannel.directJointCompatibility.canFollow.any fun peer =>
        peer.driver == leaderDevice.driver && peer.channelType == leaderChannel.channelType
      leaderEndorses && followerEndorses
  | .cartesian => true
  | .parallel => true

def defaultMappingStrategyFor (leader follower : DeviceChannelConfigV2 α) :
    Option MappingStrategy :=
  if channelSupportsParallelLeader leader ∧ channelSupportsParallelFollower follower then
    some .parallel
  else if channelSupportsDirectJointLeader leader ∧ channelSupportsDirectJointFollower follower ∧
      leader.dof = follower.dof then
    some .directJoint
  else if channelSupportsCartesianLeader leader ∧ channelSupportsCartesianFollower follower then
    some .cartesian
  else none

def deviceNamed (devices : List (BinaryDeviceConfig α)) (name : String) :
    Option (BinaryDeviceConfig α) :=
  devices.find? fun device => device.name == name

def pairingFromChannels (floats : Floats α) (devices : List (BinaryDeviceConfig α))
    (policy : MappingStrategy) (leaderDevice leaderChannelType followerDevice followerChannelType :
      String) (ratio : Option α) : ChannelPairingConfig α :=
  let followerCh := (deviceNamed devices followerDevice).bind fun d =>
    d.channelNamed followerChannelType
  let followerDof := (followerCh.bind (·.dof)).getD 0
  match policy with
  | .directJoint =>
    { leaderDevice, leaderChannelType, followerDevice, followerChannelType
      mapping := .directJoint
      leaderState := .jointPosition
      followerCommand := .jointPosition
      jointIndexMap := (List.range followerDof.toNat).map UInt32.ofNat
      jointScales := List.replicate followerDof.toNat floats.one }
  | .cartesian =>
    { leaderDevice, leaderChannelType, followerDevice, followerChannelType
      mapping := .cartesian
      leaderState := .endEffectorPose
      followerCommand := .endPose }
  | .parallel =>
    { leaderDevice, leaderChannelType, followerDevice, followerChannelType
      mapping := .parallel
      leaderState := .parallelPosition
      followerCommand :=
        if followerCh.any fun ch => .parallelMit ∈ ch.supportedCommands then .parallelMit
        else .parallelPosition
      jointScales :=
        [(ratio.filter fun r => floats.isFinite r && !floats.isZero r).getD floats.one] }

def primaryRobotChannels (devices : List (BinaryDeviceConfig α)) (endEffectorOnly : Bool) :
    List (BinaryDeviceConfig α × DeviceChannelConfigV2 α) :=
  devices.filterMap fun device =>
    (device.channels.find? fun c =>
      c.kind = .robot && c.enabled && (decide (c.dof = some 1) == endEffectorOnly)).map
      fun ch => (device, ch)

def pairRobotChannelsByOrder :
    List (BinaryDeviceConfig α × DeviceChannelConfigV2 α) →
      Option ((BinaryDeviceConfig α × DeviceChannelConfigV2 α) ×
        (BinaryDeviceConfig α × DeviceChannelConfigV2 α))
  | a :: b :: _ => some (a, b)
  | _ => none

def buildDefaultChannelPairings (floats : Floats α) (devices : List (BinaryDeviceConfig α)) :
    List (ChannelPairingConfig α) :=
  [primaryRobotChannels devices false, primaryRobotChannels devices true].filterMap fun channels =>
    do
      let ((leaderDev, leaderCh), (followerDev, followerCh)) ← pairRobotChannelsByOrder channels
      let policy ← defaultMappingStrategyFor leaderCh followerCh
      if policy = .directJoint ∧
          ¬ policyPairCompatible policy leaderDev leaderCh followerDev followerCh then none
      else
        some (pairingFromChannels floats devices policy leaderDev.name leaderCh.channelType
          followerDev.name followerCh.channelType none)

section Eligibility
variable (s : SetupSession α)

def supportedModesFor (device : BinaryDeviceConfig α) (channel : DeviceChannelConfigV2 α) :
    List RobotMode :=
  ((s.availableDevices.find? fun available =>
    available.driver == device.driver && available.id == device.id &&
      available.channel.channelType == channel.channelType).map (·.supportedModes)).getD []

def eligibleLeaderChannelsFor (policy : MappingStrategy) (exceptPairIndex : Option ℕ) :
    List (String × String) :=
  let blockedSelf := (exceptPairIndex.bind fun index => s.config.pairings[index]?).map fun pair =>
    (pair.followerDevice, pair.followerChannelType)
  s.config.devices.flatMap fun device => device.channels.filterMap fun channel =>
    if ¬ channel.enabled ∨ channel.kind ≠ .robot then none
    else
      let supported := supportedModesFor s device channel
      if ¬ (.freeDrive ∈ supported ∨ .commandFollowing ∈ supported) then none
      else if ¬ supportsLeader policy channel then none
      else if some (device.name, channel.channelType) = blockedSelf then none
      else some (device.name, channel.channelType)

/-- The leader's channel, looked for in every device of its name. -/
def resolveLeader (leader : Option (String × String)) :
    Option (BinaryDeviceConfig α × DeviceChannelConfigV2 α) :=
  leader.bind fun (deviceName, channelType) => s.config.devices.findSome? fun d =>
    if d.name = deviceName then (d.channelNamed channelType).map fun ch => (d, ch) else none

def eligibleFollowerChannelsFor (policy : MappingStrategy) (leader : Option (String × String))
    (exceptPairIndex : Option ℕ) : List (String × String) :=
  let blockedSelf := (exceptPairIndex.bind fun index => s.config.pairings[index]?).map fun pair =>
    (pair.leaderDevice, pair.leaderChannelType)
  let claimedFollowers := s.config.pairings.zipIdx.filterMap fun (pair, index) =>
    if some index = exceptPairIndex then none
    else some (pair.followerDevice, pair.followerChannelType)
  s.config.devices.flatMap fun device => device.channels.filterMap fun channel =>
    if ¬ channel.enabled ∨ channel.kind ≠ .robot then none
    else if .commandFollowing ∉ supportedModesFor s device channel then none
    else if ¬ supportsFollower policy channel then none
    else if (resolveLeader s leader).any fun (leaderDevice, leaderChannel) =>
        !policyPairCompatible policy leaderDevice leaderChannel device channel then none
    else if some (device.name, channel.channelType) = blockedSelf then none
    else if (device.name, channel.channelType) ∈ claimedFollowers then none
    else some (device.name, channel.channelType)

end Eligibility
end PairingPicker
