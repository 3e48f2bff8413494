import Rollio.AcceptedProjects
import Rollio.DerivedConfigs

/-! The cameras and robots an accepted project resolves to, and the settings found again for
them by their names. -/
namespace ResolvedChannels
open BusMessages RuntimeConfig EncoderConfigs DeviceConfigs ProjectConfigs AcceptedProjects
open DerivedConfigs

variable {α : Type} {platform : Platform α} {config : ProjectConfig α}
variable {d : BinaryDeviceConfig α} {c : DeviceChannelConfigV2 α}

structure CameraOf (config : ProjectConfig α) (d : BinaryDeviceConfig α)
    (c : DeviceChannelConfigV2 α) (camera : ResolvedCameraChannel) : Prop where
  device : d ∈ config.devices
  channel : c ∈ d.channels
  kind : c.kind = .camera
  enabled : c.enabled
  channelId : camera.channelId = deviceChannelId d.name c.channelType
  deviceName : camera.deviceName = d.name
  busRoot : camera.busRoot = d.busRoot
  channelType : camera.channelType = c.channelType
  frameTopic : camera.frameTopic = cameraFramesTopicV2 d.busRoot c.channelType
  profile : ∃ profile, c.profile = some profile ∧ camera.width = profile.width ∧
    camera.height = profile.height ∧ camera.fps = profile.fps ∧
    camera.pixelFormat = profile.pixelFormat

theorem resolveCamera_eq_some {camera : ResolvedCameraChannel} (hd : d ∈ config.devices)
    (hc : c ∈ d.channels) (h : resolveCamera d c = some camera) : CameraOf config d c camera := by
  unfold resolveCamera at h
  by_cases hk : c.kind ≠ .camera ∨ (!c.enabled) = true
  · rw [if_pos hk] at h
    cases h
  · rw [if_neg hk] at h
    obtain ⟨profile, hp, rfl⟩ := Option.map_eq_some_iff.mp h
    have hk : c.kind = .camera ∧ c.enabled = true := by simpa using hk
    exact ⟨hd, hc, hk.1, hk.2, rfl, rfl, rfl, rfl, rfl, profile, hp, rfl, rfl, rfl, rfl⟩

theorem camera_of_mem {camera : ResolvedCameraChannel}
    (h : camera ∈ resolvedCameraChannels config) : ∃ d c, CameraOf config d c camera := by
  obtain ⟨d, hd, hm⟩ := List.mem_flatMap.mp h
  obtain ⟨c, hc, hr⟩ := List.mem_filterMap.mp hm
  exact ⟨d, c, resolveCamera_eq_some hd hc hr⟩

theorem resolveCamera_eq_none (d : BinaryDeviceConfig α) (h : ¬ (c.kind = .camera ∧ c.enabled)) :
    resolveCamera d c = none := by
  unfold resolveCamera
  rw [if_pos]
  by_cases hk : c.kind = .camera
  · exact .inr (by simpa using fun he => h ⟨hk, he⟩)
  · exact .inl hk

/-- An accepted camera channel has a profile, so it resolves when it is enabled. -/
theorem resolveCamera_isSome (h : Accepted platform config) (hd : d ∈ config.devices)
    (hc : c ∈ d.channels) (hk : c.kind = .camera) (he : c.enabled) :
    ∃ camera, resolveCamera d c = some camera := by
  obtain ⟨profile, hp, -⟩ := ((camera_validate_iff hk).mp ((h.devices d hd).channels c hc)).profile
  unfold resolveCamera
  rw [if_neg (by simp [hk, he]), hp]
  exact ⟨_, rfl⟩

theorem exists_camera (h : Accepted platform config) (hd : d ∈ config.devices)
    (hc : c ∈ d.channels) (hk : c.kind = .camera) (he : c.enabled) :
    ∃ camera ∈ resolvedCameraChannels config, CameraOf config d c camera := by
  obtain ⟨camera, hr⟩ := resolveCamera_isSome h hd hc hk he
  exact ⟨camera, List.mem_flatMap.mpr ⟨d, hd, List.mem_filterMap.mpr ⟨c, hc, hr⟩⟩,
    resolveCamera_eq_some hd hc hr⟩

section CameraSettings
variable {camera : ResolvedCameraChannel}

theorem CameraOf.cameraChannel (hr : CameraOf config d c camera) (h : Accepted platform config) :
    cameraChannel config camera = some c := by
  rw [DerivedConfigs.cameraChannel, hr.deviceName, h.deviceNamed hr.device, Option.bind_some,
    hr.channelType, (h.devices d hr.device).channelNamed hr.channel]

theorem CameraOf.previewConfig (hr : CameraOf config d c camera)
    (h : Accepted platform config) : cameraPreviewConfig config camera = previewConfigOf c := by
  rw [cameraPreviewConfig, hr.cameraChannel h, Option.bind_some, previewConfigOf]

theorem CameraOf.recordConfig (hr : CameraOf config d c camera) (h : Accepted platform config) :
    cameraRecordConfig config camera = recordConfigOf c := by
  rw [cameraRecordConfig, hr.cameraChannel h, Option.bind_some, recordConfigOf]

theorem CameraOf.previewEnabled (hr : CameraOf config d c camera)
    (h : Accepted platform config) : previewEnabled config camera = c.previewEnabled := by
  rw [DerivedConfigs.previewEnabled, hr.cameraChannel h, Option.any_some]

theorem CameraOf.recordEnabled (hr : CameraOf config d c camera)
    (h : Accepted platform config) : recordEnabled config camera = c.recordEnabled := by
  rw [DerivedConfigs.recordEnabled, hr.cameraChannel h, Option.any_some]

end CameraSettings

structure RobotOf (config : ProjectConfig α) (d : BinaryDeviceConfig α)
    (c : DeviceChannelConfigV2 α) (robot : ResolvedRobotChannel α) : Prop where
  device : d ∈ config.devices
  channel : c ∈ d.channels
  kind : c.kind = .robot
  enabled : c.enabled
  channelId : robot.channelId = deviceChannelId d.name c.channelType
  dof : robot.dof = c.dof.getD 0
  stateTopics : robot.stateTopics = c.publishStates.map fun state =>
    (state, robotStateTopicV2 d.busRoot c.channelType state)
  recordedStates : robot.recordedStates =
    if c.recordedStates = [] then c.publishStates else c.recordedStates

theorem resolveRobot_eq_some {robot : ResolvedRobotChannel α} (hd : d ∈ config.devices)
    (hc : c ∈ d.channels) (h : resolveRobot platform d c = some robot) :
    RobotOf config d c robot := by
  unfold resolveRobot at h
  by_cases hk : c.kind ≠ .robot ∨ (!c.enabled) = true
  · rw [if_pos hk] at h
    cases h
  · rw [if_neg hk] at h
    obtain rfl := Option.some.inj h
    have hk : c.kind = .robot ∧ c.enabled = true := by simpa using hk
    exact ⟨hd, hc, hk.1, hk.2, rfl, rfl, rfl, rfl⟩

theorem robot_of_mem {robot : ResolvedRobotChannel α}
    (h : robot ∈ resolvedRobotChannels platform config) : ∃ d c, RobotOf config d c robot := by
  obtain ⟨d, hd, hm⟩ := List.mem_flatMap.mp h
  obtain ⟨c, hc, hr⟩ := List.mem_filterMap.mp hm
  exact ⟨d, c, resolveRobot_eq_some hd hc hr⟩

variable (platform) in
theorem exists_robot (hd : d ∈ config.devices) (hc : c ∈ d.channels) (hk : c.kind = .robot)
    (he : c.enabled) :
    ∃ robot ∈ resolvedRobotChannels platform config, RobotOf config d c robot := by
  have hr : ∃ robot, resolveRobot platform d c = some robot := by
    unfold resolveRobot
    rw [if_neg (by simp [hk, he])]
    exact ⟨_, rfl⟩
  obtain ⟨robot, hr⟩ := hr
  exact ⟨robot, List.mem_flatMap.mpr ⟨d, hd, List.mem_filterMap.mpr ⟨c, hc, hr⟩⟩,
    resolveRobot_eq_some hd hc hr⟩

section Pairings
variable {p : ChannelPairingConfig α} {leaderDevice followerDevice : BinaryDeviceConfig α}
  {leader follower : DeviceChannelConfigV2 α}

theorem teleop_of_pairing
    (hp : AcceptedPairing platform config p leaderDevice leader followerDevice follower) :
    teleopRuntimeConfig platform config p =
      some (teleopConfigFor platform p leaderDevice followerDevice follower) := by
  simp only [teleopRuntimeConfig, hp.leaderHost, hp.followerHost, hp.followerFound,
    Option.bind_eq_bind, Option.bind_some, Option.pure_def]

theorem action_of_pairing
    (hp : AcceptedPairing platform config p leaderDevice leader followerDevice follower) :
    assemblerAction config p = some (assemblerActionFor p followerDevice follower) := by
  simp only [assemblerAction, hp.followerHost, hp.followerFound, Option.bind_eq_bind,
    Option.bind_some, Option.pure_def]

theorem mem_teleops (h : Accepted platform config) {t : TeleopConfig.TeleopRuntimeConfigV2 α} :
    t ∈ teleopRuntimeConfigsV2 platform config ↔
      ∃ p ∈ config.pairings, ∃ leaderDevice leader followerDevice follower,
        AcceptedPairing platform config p leaderDevice leader followerDevice follower ∧
          t = teleopConfigFor platform p leaderDevice followerDevice follower := by
  rw [teleopRuntimeConfigsV2, List.mem_filterMap]
  apply exists_congr
  intro p
  apply and_congr_right
  intro hp
  constructor
  · intro ht
    obtain ⟨ld, l, fd, f, ha⟩ := pairing_validate_iff.mp (h.pairings p hp)
    rw [teleop_of_pairing ha] at ht
    exact ⟨ld, l, fd, f, ha, (Option.some.inj ht).symm⟩
  · rintro ⟨ld, l, fd, f, ha, rfl⟩
    exact teleop_of_pairing ha

theorem mem_actions (h : Accepted platform config) {a : AssemblerActionRuntimeConfigV2} :
    a ∈ config.pairings.filterMap (assemblerAction config) ↔
      ∃ p ∈ config.pairings, ∃ leaderDevice leader followerDevice follower,
        AcceptedPairing platform config p leaderDevice leader followerDevice follower ∧
          a = assemblerActionFor p followerDevice follower := by
  rw [List.mem_filterMap]
  apply exists_congr
  intro p
  apply and_congr_right
  intro hp
  constructor
  · intro ht
    obtain ⟨ld, l, fd, f, ha⟩ := pairing_validate_iff.mp (h.pairings p hp)
    rw [action_of_pairing ha] at ht
    exact ⟨ld, l, fd, f, ha, (Option.some.inj ht).symm⟩
  · rintro ⟨ld, l, fd, f, ha, rfl⟩
    exact action_of_pairing ha

end Pairings

end ResolvedChannels
