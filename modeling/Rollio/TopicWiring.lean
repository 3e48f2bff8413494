import Rollio.ResolvedChannels
import Rollio.TopicNames

/-! The topics the children of a project listen to, and who publishes them. -/
namespace TopicWiring
open RuntimeConfig EncoderConfigs DeviceConfigs ProjectConfigs AcceptedProjects DerivedConfigs
open ResolvedChannels TopicNames

variable {α : Type} {platform : Platform α} {config : ProjectConfig α}

def channelTopics (d : BinaryDeviceConfig α) (c : DeviceChannelConfigV2 α) : List String :=
  if !c.enabled then []
  else match c.kind with
    | .camera => [cameraFramesTopicV2 d.busRoot c.channelType]
    | .robot => c.publishStates.map (robotStateTopicV2 d.busRoot c.channelType)

def encoderTopics (e : EncoderRuntimeConfigV2) : List String :=
  (e.recording.map (·.packetTopic)).toList ++ (e.preview.bind (·.packetTopic)).toList ++
    (e.preview.bind (·.jpegTopic)).toList

def producedTopics (platform : Platform α) (config : ProjectConfig α) : List String :=
  (config.devices.flatMap fun d => d.channels.flatMap (channelTopics d)) ++
    (encoderRuntimeConfigsV2 config).flatMap encoderTopics ++
    (teleopRuntimeConfigsV2 platform config).map (·.followerCommandTopic)

def visualizerTopics (v : VisualizerRuntimeConfigV2 α) : List String :=
  (v.cameraSources.map fun source =>
    previewTopic v.previewOutputMode source.busRoot source.channelType) ++
    v.robotSources.map (·.stateTopic)

def assemblerTopics (a : AssemblerRuntimeConfigV2) : List String :=
  a.cameras.map (·.recordingPacketTopic) ++ a.observations.map (·.stateTopic) ++
    a.actions.map (·.commandTopic)

def consumedTopics (platform : Platform α) (config : ProjectConfig α)
    (embeddedConfigToml : String) : List String :=
  (encoderRuntimeConfigsV2 config).map (·.frameTopic) ++
    assemblerTopics (assemblerRuntimeConfigV2 platform config embeddedConfigToml) ++
    (teleopRuntimeConfigsV2 platform config).map (·.leaderStateTopic) ++
    (teleopRuntimeConfigsV2 platform config).filterMap (·.followerStateTopic) ++
    visualizerTopics (visualizerRuntimeConfigV2 platform config)

/-- Every topic that a child listens to has a publisher among the children. -/
def Closed (platform : Platform α) (config : ProjectConfig α) : Prop :=
  ∀ embeddedConfigToml, ∀ t ∈ consumedTopics platform config embeddedConfigToml,
    t ∈ producedTopics platform config

def place (d : BinaryDeviceConfig α) (c : DeviceChannelConfigV2 α) : String :=
  channelPrefixV2 d.busRoot c.channelType

/-- A channel of the project that runs as a device of its kind. -/
structure Runs (config : ProjectConfig α) (kind : DeviceType) (d : BinaryDeviceConfig α)
    (c : DeviceChannelConfigV2 α) : Prop where
  device : d ∈ config.devices
  channel : c ∈ d.channels
  kind : c.kind = kind
  enabled : c.enabled

structure FollowerOf (config : ProjectConfig α) (p : ChannelPairingConfig α)
    (d : BinaryDeviceConfig α) (c : DeviceChannelConfigV2 α) : Prop where
  pairing : p ∈ config.pairings
  device : config.deviceNamed p.followerDevice = some d
  channel : d.channelNamed p.followerChannelType = some c

structure LeaderOf (config : ProjectConfig α) (p : ChannelPairingConfig α)
    (d : BinaryDeviceConfig α) (c : DeviceChannelConfigV2 α) : Prop where
  pairing : p ∈ config.pairings
  device : config.deviceNamed p.leaderDevice = some d
  channel : d.channelNamed p.leaderChannelType = some c

/-- Who publishes which stream at which place. -/
inductive Produces (config : ProjectConfig α) : String → Stream → Prop where
  | frames {d c} (h : Runs config .camera d c) : Produces config (place d c) .frames
  | state {d c kind} (h : Runs config .robot d c) (hs : kind ∈ c.publishStates) :
      Produces config (place d c) (.state kind)
  | recording {d c} (h : Runs config .camera d c) (hr : c.recordEnabled) :
      Produces config (place d c) .recordingPackets
  | preview {d c} (h : Runs config .camera d c) (hp : c.previewEnabled) :
      Produces config (place d c) (.preview (previewConfigOf c).outputMode)
  | command {p d c} (h : FollowerOf config p d c) :
      Produces config (place d c) (.command p.followerCommand)

def previewed (config : ProjectConfig α) : List (DeviceChannelConfigV2 α) :=
  config.devices.flatMap fun d => d.channels.filter fun c =>
    c.kind == .camera && c.enabled && c.previewEnabled

/-- The output mode of the camera that is previewed last. -/
def lastPreviewMode (config : ProjectConfig α) : PreviewOutputMode :=
  (((previewed config).map fun c => (previewConfigOf c).outputMode).getLast?).getD .encoded

/-- Who listens to which stream at which place. -/
inductive Consumes (config : ProjectConfig α) : String → Stream → Prop where
  | frames {d c} (h : Runs config .camera d c) (he : c.recordEnabled ∨ c.previewEnabled) :
      Consumes config (place d c) .frames
  | recording {d c} (h : Runs config .camera d c) (hr : c.recordEnabled) :
      Consumes config (place d c) .recordingPackets
  | state {d c kind} (h : Runs config .robot d c) (hs : kind ∈ c.publishStates) :
      Consumes config (place d c) (.state kind)
  | action {p d c} (h : FollowerOf config p d c) :
      Consumes config (place d c) (.command p.followerCommand)
  | leader {p d c} (h : LeaderOf config p d c) : Consumes config (place d c) (.state p.leaderState)
  | follower {p d c} (h : FollowerOf config p d c)
      (hs : feedbackKind p.followerCommand ∈ c.publishStates) :
      Consumes config (place d c) (.state (feedbackKind p.followerCommand))
  | preview {d c} (h : Runs config .camera d c) (hp : c.previewEnabled) :
      Consumes config (place d c) (.preview (lastPreviewMode config))

section Cameras
variable {d : BinaryDeviceConfig α} {c : DeviceChannelConfigV2 α} {camera : ResolvedCameraChannel}

theorem runs_of_camera (h : CameraOf config d c camera) : Runs config .camera d c :=
  ⟨h.device, h.channel, h.kind, h.enabled⟩

theorem mem_encoderConfigs {e : EncoderRuntimeConfigV2} :
    e ∈ encoderRuntimeConfigsV2 config ↔ ∃ camera ∈ resolvedCameraChannels config,
      (recordEnabled config camera ∧ e = recordingEncoderConfig config camera) ∨
        (previewEnabled config camera ∧ e = previewEncoderConfig config camera) := by
  simp only [encoderRuntimeConfigsV2, List.mem_flatMap, List.mem_append]
  apply exists_congr
  intro camera
  apply and_congr_right
  intro _
  apply or_congr
  · by_cases hr : recordEnabled config camera <;> simp [hr]
  · by_cases hp : previewEnabled config camera <;> simp [hp]

theorem recording_topics (config : ProjectConfig α) (camera : ResolvedCameraChannel) :
    encoderTopics (recordingEncoderConfig config camera) =
      [recordingPacketServiceName camera.busRoot camera.channelType] := rfl

theorem preview_topics (config : ProjectConfig α) (camera : ResolvedCameraChannel) :
    encoderTopics (previewEncoderConfig config camera) =
      [previewTopic (cameraPreviewConfig config camera).outputMode camera.busRoot
        camera.channelType] := by
  simp only [encoderTopics, previewEncoderConfig, previewTopic]
  cases (cameraPreviewConfig config camera).outputMode <;> rfl

/-- A statement about every resolved camera is one about every running camera channel. -/
theorem exists_camera_iff (h : Accepted platform config) {P : ResolvedCameraChannel → Prop}
    {Q : BinaryDeviceConfig α → DeviceChannelConfigV2 α → Prop}
    (hPQ : ∀ {d c camera}, CameraOf config d c camera → (P camera ↔ Q d c)) :
    (∃ camera ∈ resolvedCameraChannels config, P camera) ↔
      ∃ d c, Runs config .camera d c ∧ Q d c := by
  constructor
  · rintro ⟨camera, hm, hp⟩
    obtain ⟨d, c, hr⟩ := camera_of_mem hm
    exact ⟨d, c, runs_of_camera hr, (hPQ hr).mp hp⟩
  · rintro ⟨d, c, hr, hq⟩
    obtain ⟨camera, hm, hc⟩ := exists_camera h hr.device hr.channel hr.kind hr.enabled
    exact ⟨camera, hm, (hPQ hc).mpr hq⟩

theorem mem_frameTopics (h : Accepted platform config) {t : String} :
    t ∈ (encoderRuntimeConfigsV2 config).map (·.frameTopic) ↔
      ∃ d c, Runs config .camera d c ∧
        ((c.recordEnabled ∨ c.previewEnabled) ∧ t = topic (place d c) .frames) := by
  rw [← exists_camera_iff h (P := fun camera =>
    (recordEnabled config camera ∨ previewEnabled config camera) ∧ t = camera.frameTopic)]
  · simp only [List.mem_map, mem_encoderConfigs]
    constructor
    · rintro ⟨e, ⟨camera, hm, ⟨hr, rfl⟩ | ⟨hp, rfl⟩⟩, rfl⟩
      · exact ⟨camera, hm, .inl hr, rfl⟩
      · exact ⟨camera, hm, .inr hp, rfl⟩
    · rintro ⟨camera, hm, hr | hp, rfl⟩
      · exact ⟨_, ⟨camera, hm, .inl ⟨hr, rfl⟩⟩, rfl⟩
      · exact ⟨_, ⟨camera, hm, .inr ⟨hp, rfl⟩⟩, rfl⟩
  · intro d c camera hc
    rw [hc.recordEnabled h, hc.previewEnabled h, hc.frameTopic, framesTopic_eq, place]

theorem mem_encoderTopics (h : Accepted platform config) {t : String} :
    t ∈ (encoderRuntimeConfigsV2 config).flatMap encoderTopics ↔
      ∃ d c, Runs config .camera d c ∧
        ((c.recordEnabled ∧ t = topic (place d c) .recordingPackets) ∨
          (c.previewEnabled ∧
            t = topic (place d c) (.preview (previewConfigOf c).outputMode))) := by
  rw [← exists_camera_iff h (P := fun camera =>
    (recordEnabled config camera ∧
      t = recordingPacketServiceName camera.busRoot camera.channelType) ∨
    (previewEnabled config camera ∧ t = previewTopic (cameraPreviewConfig config camera).outputMode
      camera.busRoot camera.channelType))]
  · simp only [List.mem_flatMap, mem_encoderConfigs]
    constructor
    · rintro ⟨e, ⟨camera, hm, ⟨hr, rfl⟩ | ⟨hp, rfl⟩⟩, ht⟩
      · rw [recording_topics, List.mem_singleton] at ht
        exact ⟨camera, hm, .inl ⟨hr, ht⟩⟩
      · rw [preview_topics, List.mem_singleton] at ht
        exact ⟨camera, hm, .inr ⟨hp, ht⟩⟩
    · rintro ⟨camera, hm, ⟨hr, rfl⟩ | ⟨hp, rfl⟩⟩
      · refine ⟨_, ⟨camera, hm, .inl ⟨hr, rfl⟩⟩, ?_⟩
        rw [recording_topics]
        exact List.mem_singleton_self _
      · refine ⟨_, ⟨camera, hm, .inr ⟨hp, rfl⟩⟩, ?_⟩
        rw [preview_topics]
        exact List.mem_singleton_self _
  · intro d c camera hc
    rw [hc.recordEnabled h, hc.previewEnabled h, hc.previewConfig h, hc.busRoot, hc.channelType,
      recordingTopic_eq, previewTopic_eq, place]

end Cameras

section Pairings

theorem place_of_channel {d : BinaryDeviceConfig α} {c : DeviceChannelConfigV2 α}
    {channelType : String} (h : d.channelNamed channelType = some c) :
    channelPrefixV2 d.busRoot channelType = place d c := by
  rw [place, (channelNamed_eq_some h).2]

theorem exists_follower_iff (h : Accepted platform config)
    {P : ChannelPairingConfig α → BinaryDeviceConfig α → DeviceChannelConfigV2 α → Prop} :
    (∃ p ∈ config.pairings, ∃ leaderDevice leader followerDevice follower,
      AcceptedPairing platform config p leaderDevice leader followerDevice follower ∧
        P p followerDevice follower) ↔ ∃ p d c, FollowerOf config p d c ∧ P p d c := by
  constructor
  · rintro ⟨p, hp, ld, l, fd, f, ha, hP⟩
    exact ⟨p, fd, f, ⟨hp, ha.followerHost, ha.followerFound⟩, hP⟩
  · rintro ⟨p, d, c, hf, hP⟩
    obtain ⟨ld, l, fd, f, ha⟩ := pairing_validate_iff.mp (h.pairings p hf.pairing)
    obtain rfl := Option.some.inj (hf.device.symm.trans ha.followerHost)
    obtain rfl := Option.some.inj (hf.channel.symm.trans ha.followerFound)
    exact ⟨p, hf.pairing, ld, l, d, c, ha, hP⟩

theorem exists_leader_iff (h : Accepted platform config)
    {P : ChannelPairingConfig α → BinaryDeviceConfig α → DeviceChannelConfigV2 α → Prop} :
    (∃ p ∈ config.pairings, ∃ leaderDevice leader followerDevice follower,
      AcceptedPairing platform config p leaderDevice leader followerDevice follower ∧
        P p leaderDevice leader) ↔ ∃ p d c, LeaderOf config p d c ∧ P p d c := by
  constructor
  · rintro ⟨p, hp, ld, l, fd, f, ha, hP⟩
    exact ⟨p, ld, l, ⟨hp, ha.leaderHost, ha.leaderFound⟩, hP⟩
  · rintro ⟨p, d, c, hl, hP⟩
    obtain ⟨ld, l, fd, f, ha⟩ := pairing_validate_iff.mp (h.pairings p hl.pairing)
    obtain rfl := Option.some.inj (hl.device.symm.trans ha.leaderHost)
    obtain rfl := Option.some.inj (hl.channel.symm.trans ha.leaderFound)
    exact ⟨p, hl.pairing, d, c, fd, f, ha, hP⟩

theorem mem_commandTopics (h : Accepted platform config) {t : String} :
    t ∈ (teleopRuntimeConfigsV2 platform config).map (·.followerCommandTopic) ↔
      ∃ p d c, FollowerOf config p d c ∧ t = topic (place d c) (.command p.followerCommand) := by
  rw [← exists_follower_iff h]
  simp only [List.mem_map, mem_teleops h]
  constructor
  · rintro ⟨_, ⟨p, hp, ld, l, fd, f, ha, rfl⟩, rfl⟩
    refine ⟨p, hp, ld, l, fd, f, ha, ?_⟩
    rw [← place_of_channel ha.followerFound]
    exact commandTopic_eq _ _ _
  · rintro ⟨p, hp, ld, l, fd, f, ha, rfl⟩
    refine ⟨_, ⟨p, hp, ld, l, fd, f, ha, rfl⟩, ?_⟩
    rw [← place_of_channel ha.followerFound]
    exact commandTopic_eq _ _ _

theorem mem_actionTopics (h : Accepted platform config) {t : String} :
    t ∈ (config.pairings.filterMap (assemblerAction config)).map (·.commandTopic) ↔
      ∃ p d c, FollowerOf config p d c ∧ t = topic (place d c) (.command p.followerCommand) := by
  rw [← exists_follower_iff h]
  simp only [List.mem_map, mem_actions h]
  constructor
  · rintro ⟨_, ⟨p, hp, ld, l, fd, f, ha, rfl⟩, rfl⟩
    refine ⟨p, hp, ld, l, fd, f, ha, ?_⟩
    rw [← place_of_channel ha.followerFound]
    exact commandTopic_eq _ _ _
  · rintro ⟨p, hp, ld, l, fd, f, ha, rfl⟩
    refine ⟨_, ⟨p, hp, ld, l, fd, f, ha, rfl⟩, ?_⟩
    rw [← place_of_channel ha.followerFound]
    exact commandTopic_eq _ _ _

theorem mem_leaderTopics (h : Accepted platform config) {t : String} :
    t ∈ (teleopRuntimeConfigsV2 platform config).map (·.leaderStateTopic) ↔
      ∃ p d c, LeaderOf config p d c ∧ t = topic (place d c) (.state p.leaderState) := by
  rw [← exists_leader_iff h]
  simp only [List.mem_map, mem_teleops h]
  constructor
  · rintro ⟨_, ⟨p, hp, ld, l, fd, f, ha, rfl⟩, rfl⟩
    refine ⟨p, hp, ld, l, fd, f, ha, ?_⟩
    rw [← place_of_channel ha.leaderFound]
    exact stateTopic_eq _ _ _
  · rintro ⟨p, hp, ld, l, fd, f, ha, rfl⟩
    refine ⟨_, ⟨p, hp, ld, l, fd, f, ha, rfl⟩, ?_⟩
    rw [← place_of_channel ha.leaderFound]
    exact stateTopic_eq _ _ _

theorem followerStateTopic_eq_some {p : ChannelPairingConfig α}
    {leaderDevice followerDevice : BinaryDeviceConfig α} {follower : DeviceChannelConfigV2 α}
    {t : String} (hf : followerDevice.channelNamed p.followerChannelType = some follower) :
    (teleopConfigFor platform p leaderDevice followerDevice follower).followerStateTopic = some t ↔
      feedbackKind p.followerCommand ∈ follower.publishStates ∧
        t = topic (place followerDevice follower) (.state (feedbackKind p.followerCommand)) := by
  rw [← place_of_channel hf, ← stateTopic_eq]
  by_cases hk : feedbackKind p.followerCommand ∈ follower.publishStates
  · have hc : follower.publishStates.contains (feedbackKind p.followerCommand) = true := by
      simpa using hk
    simp only [teleopConfigFor, hc, if_true, Option.some.injEq, hk, true_and, eq_comm]
  · simp [teleopConfigFor, hk]

theorem mem_followerTopics (h : Accepted platform config) {t : String} :
    t ∈ (teleopRuntimeConfigsV2 platform config).filterMap (·.followerStateTopic) ↔
      ∃ p d c, FollowerOf config p d c ∧ (feedbackKind p.followerCommand ∈ c.publishStates ∧
        t = topic (place d c) (.state (feedbackKind p.followerCommand))) := by
  rw [← exists_follower_iff h]
  simp only [List.mem_filterMap, mem_teleops h]
  constructor
  · rintro ⟨_, ⟨p, hp, ld, l, fd, f, ha, rfl⟩, ht⟩
    exact ⟨p, hp, ld, l, fd, f, ha, (followerStateTopic_eq_some ha.followerFound).mp ht⟩
  · rintro ⟨p, hp, ld, l, fd, f, ha, ht⟩
    exact ⟨_, ⟨p, hp, ld, l, fd, f, ha, rfl⟩, (followerStateTopic_eq_some ha.followerFound).mpr ht⟩

end Pairings

section Robots
variable {d : BinaryDeviceConfig α} {c : DeviceChannelConfigV2 α}

theorem mem_robotTopics {t : String} :
    t ∈ ((resolvedRobotChannels platform config).flatMap robotSources).map (·.stateTopic) ↔
      ∃ d c kind, Runs config .robot d c ∧ kind ∈ c.publishStates ∧
        t = topic (place d c) (.state kind) := by
  constructor
  · intro ht
    obtain ⟨source, hs, rfl⟩ := List.mem_map.mp ht
    obtain ⟨robot, hr, hs⟩ := List.mem_flatMap.mp hs
    obtain ⟨d, c, hr⟩ := robot_of_mem hr
    obtain ⟨entry, he, rfl⟩ := List.mem_map.mp hs
    rw [hr.stateTopics] at he
    obtain ⟨kind, hk, rfl⟩ := List.mem_map.mp he
    exact ⟨d, c, kind, ⟨hr.device, hr.channel, hr.kind, hr.enabled⟩, hk, stateTopic_eq _ _ _⟩
  · rintro ⟨d, c, kind, hr, hk, rfl⟩
    obtain ⟨robot, hm, hc⟩ :=
      exists_robot platform hr.device hr.channel hr.kind hr.enabled
    have he : (kind, robotStateTopicV2 d.busRoot c.channelType kind) ∈ robot.stateTopics := by
      rw [hc.stateTopics]
      exact List.mem_map_of_mem hk
    refine List.mem_map.mpr ⟨_, List.mem_flatMap.mpr ⟨robot, hm, List.mem_map_of_mem he⟩, ?_⟩
    exact stateTopic_eq _ _ _

theorem observationTopics_subset :
    ((resolvedRobotChannels platform config).flatMap assemblerObservations).map (·.stateTopic) ⊆
      ((resolvedRobotChannels platform config).flatMap robotSources).map (·.stateTopic) := by
  intro t ht
  obtain ⟨observation, ho, rfl⟩ := List.mem_map.mp ht
  obtain ⟨robot, hr, ho⟩ := List.mem_flatMap.mp ho
  obtain ⟨entry, he, rfl⟩ := List.mem_map.mp ho
  refine List.mem_map.mpr ⟨_, List.mem_flatMap.mpr ⟨robot, hr,
    List.mem_map_of_mem (List.mem_filter.mp he).1⟩, rfl⟩

end Robots

section Previews

theorem mem_recordingTopics (h : Accepted platform config) {t : String} :
    t ∈ (((resolvedCameraChannels config).filter (recordEnabled config)).map
        (assemblerCamera config)).map (·.recordingPacketTopic) ↔
      ∃ d c, Runs config .camera d c ∧
        (c.recordEnabled ∧ t = topic (place d c) .recordingPackets) := by
  rw [← exists_camera_iff h (P := fun camera => recordEnabled config camera ∧
    t = recordingPacketServiceName camera.busRoot camera.channelType)]
  · simp only [List.map_map, List.mem_map, List.mem_filter, Function.comp_apply, assemblerCamera,
      and_assoc, eq_comm]
  · intro d c camera hc
    rw [hc.recordEnabled h, hc.busRoot, hc.channelType, recordingTopic_eq, place]

theorem mem_previewTopics (h : Accepted platform config) {t : String} :
    t ∈ (visualizerRuntimeConfigV2 platform config).cameraSources.map (fun source =>
        previewTopic (visualizerRuntimeConfigV2 platform config).previewOutputMode source.busRoot
          source.channelType) ↔
      ∃ d c, Runs config .camera d c ∧ (c.previewEnabled ∧ t = topic (place d c)
        (.preview (visualizerRuntimeConfigV2 platform config).previewOutputMode)) := by
  rw [← exists_camera_iff h (P := fun camera => previewEnabled config camera ∧
    t = previewTopic (visualizerRuntimeConfigV2 platform config).previewOutputMode camera.busRoot
      camera.channelType)]
  · simp only [visualizerRuntimeConfigV2, List.map_map, List.mem_map, List.mem_filter,
      Function.comp_apply, and_assoc, eq_comm]
  · intro d c camera hc
    rw [hc.previewEnabled h, hc.busRoot, hc.channelType, previewTopic_eq, place]

/-- A loop that overwrites one value keeps the last. -/
theorem foldl_last {β γ : Type} (f : β → γ) (g : γ) (l : List β) :
    l.foldl (fun _ b => f b) g = (l.map f).getLast?.getD g := by
  induction l generalizing g with
  | nil => rfl
  | cons b l ih =>
    rw [List.foldl_cons, ih, List.map_cons]
    cases l with
    | nil => rfl
    | cons b' l => simp only [List.map_cons, List.getLast?_cons, Option.getD_some]

theorem previewModes_eq (h : Accepted platform config) :
    ((resolvedCameraChannels config).filter (previewEnabled config)).map (fun camera =>
      (cameraPreviewConfig config camera).outputMode) =
      (previewed config).map fun c => (previewConfigOf c).outputMode := by
  rw [resolvedCameraChannels, previewed, List.filter_flatMap, List.map_flatMap, List.map_flatMap]
  apply List.flatMap_congr
  intro d hd
  have hall : ∀ channels, channels ⊆ d.channels →
      ((channels.filterMap (resolveCamera d)).filter (previewEnabled config)).map (fun camera =>
        (cameraPreviewConfig config camera).outputMode) =
      (channels.filter fun c => c.kind == .camera && c.enabled && c.previewEnabled).map fun c =>
        (previewConfigOf c).outputMode := by
    intro channels
    induction channels with
    | nil => exact fun _ => rfl
    | cons c channels ih =>
      intro hs
      have hc := hs List.mem_cons_self
      have ih := ih fun _ hm => hs (List.mem_cons_of_mem c hm)
      by_cases hk : c.kind = .camera ∧ c.enabled
      · obtain ⟨camera, hr⟩ := resolveCamera_isSome h hd hc hk.1 hk.2
        have hcam := resolveCamera_eq_some hd hc hr
        rw [List.filterMap_cons_some hr]
        by_cases hp : c.previewEnabled
        · rw [List.filter_cons_of_pos (by rw [hcam.previewEnabled h, hp]),
            List.filter_cons_of_pos (by simp [hk.1, hk.2, hp]), List.map_cons, List.map_cons, ih,
            hcam.previewConfig h]
        · rw [List.filter_cons_of_neg (by rw [hcam.previewEnabled h]; exact hp),
            List.filter_cons_of_neg (by simp [hp]), ih]
      · rw [List.filterMap_cons_none (resolveCamera_eq_none d hk),
          List.filter_cons_of_neg (by simpa using fun h₁ h₂ => absurd ⟨h₁, h₂⟩ hk), ih]
  exact hall d.channels (List.Subset.refl _)

theorem previewOutputMode_eq (h : Accepted platform config) :
    (visualizerRuntimeConfigV2 platform config).previewOutputMode = lastPreviewMode config := by
  simp only [visualizerRuntimeConfigV2, foldl_last, previewModes_eq h, lastPreviewMode]

end Previews

theorem mem_produced (h : Accepted platform config) {t : String} :
    t ∈ producedTopics platform config ↔
      ∃ place s, Produces config place s ∧ t = topic place s := by
  simp only [producedTopics, List.mem_append, mem_encoderTopics h, mem_commandTopics h]
  constructor
  · rintro ((ht | ⟨d, c, hr, ⟨he, rfl⟩ | ⟨he, rfl⟩⟩) | ⟨p, d, c, hf, rfl⟩)
    · obtain ⟨d, hd, ht⟩ := List.mem_flatMap.mp ht
      obtain ⟨c, hc, ht⟩ := List.mem_flatMap.mp ht
      by_cases he : c.enabled
      · simp only [channelTopics, he, Bool.not_true, Bool.false_eq_true, if_false] at ht
        cases hk : c.kind with
        | camera =>
          rw [hk, List.mem_singleton, framesTopic_eq] at ht
          exact ⟨_, _, .frames ⟨hd, hc, hk, he⟩, ht⟩
        | robot =>
          rw [hk] at ht
          obtain ⟨kind, hm, rfl⟩ := List.mem_map.mp ht
          exact ⟨_, _, .state ⟨hd, hc, hk, he⟩ hm, stateTopic_eq _ _ _⟩
      · simp [channelTopics, he] at ht
    · exact ⟨_, _, .recording hr he, rfl⟩
    · exact ⟨_, _, .preview hr he, rfl⟩
    · exact ⟨_, _, .command hf, rfl⟩
  · rintro ⟨place, s, hp, rfl⟩
    cases hp with
    | @frames d c hr =>
      refine .inl (.inl (List.mem_flatMap.mpr ⟨d, hr.device, List.mem_flatMap.mpr
        ⟨c, hr.channel, ?_⟩⟩))
      simp only [channelTopics, hr.enabled, hr.kind, Bool.not_true, Bool.false_eq_true, if_false]
      exact List.mem_singleton.mpr (framesTopic_eq _ _).symm
    | @state d c kind hr hs =>
      refine .inl (.inl (List.mem_flatMap.mpr ⟨d, hr.device, List.mem_flatMap.mpr
        ⟨c, hr.channel, ?_⟩⟩))
      simp only [channelTopics, hr.enabled, hr.kind, Bool.not_true, Bool.false_eq_true, if_false]
      exact List.mem_map.mpr ⟨kind, hs, stateTopic_eq _ _ _⟩
    | recording hr he => exact .inl (.inr ⟨_, _, hr, .inl ⟨he, rfl⟩⟩)
    | preview hr he => exact .inl (.inr ⟨_, _, hr, .inr ⟨he, rfl⟩⟩)
    | command hf => exact .inr ⟨_, _, _, hf, rfl⟩

theorem mem_consumed (h : Accepted platform config) {embeddedConfigToml t : String} :
    t ∈ consumedTopics platform config embeddedConfigToml ↔
      ∃ place s, Consumes config place s ∧ t = topic place s := by
  have hpreview := mem_previewTopics h (t := t)
  rw [previewOutputMode_eq h] at hpreview
  simp only [consumedTopics, assemblerTopics, visualizerTopics, assemblerRuntimeConfigV2,
    List.mem_append, mem_frameTopics h, mem_recordingTopics h, mem_actionTopics h,
    mem_leaderTopics h, mem_followerTopics h, previewOutputMode_eq h, hpreview]
  constructor
  · rintro ((((⟨d, c, hr, he, rfl⟩ | ((⟨d, c, hr, he, rfl⟩ | ht) | ⟨p, d, c, hf, rfl⟩)) |
      ⟨p, d, c, hl, rfl⟩) | ⟨p, d, c, hf, hs, rfl⟩) | (⟨d, c, hr, he, rfl⟩ | ht))
    · exact ⟨_, _, .frames hr he, rfl⟩
    · exact ⟨_, _, .recording hr he, rfl⟩
    · obtain ⟨d, c, kind, hr, hk, rfl⟩ := mem_robotTopics.mp (observationTopics_subset ht)
      exact ⟨_, _, .state hr hk, rfl⟩
    · exact ⟨_, _, .action hf, rfl⟩
    · exact ⟨_, _, .leader hl, rfl⟩
    · exact ⟨_, _, .follower hf hs, rfl⟩
    · exact ⟨_, _, .preview hr he, rfl⟩
    · obtain ⟨d, c, kind, hr, hk, rfl⟩ := mem_robotTopics.mp ht
      exact ⟨_, _, .state hr hk, rfl⟩
  · rintro ⟨place, s, hc, rfl⟩
    cases hc with
    | frames hr he => exact .inl (.inl (.inl (.inl ⟨_, _, hr, he, rfl⟩)))
    | recording hr he => exact .inl (.inl (.inl (.inr (.inl (.inl ⟨_, _, hr, he, rfl⟩)))))
    | state hr hs => exact .inr (.inr (mem_robotTopics.mpr ⟨_, _, _, hr, hs, rfl⟩))
    | action hf => exact .inl (.inl (.inl (.inr (.inr ⟨_, _, _, hf, rfl⟩))))
    | leader hl => exact .inl (.inl (.inr ⟨_, _, _, hl, rfl⟩))
    | follower hf hs => exact .inl (.inr ⟨_, _, _, hf, hs, rfl⟩)
    | preview hr he => exact .inr (.inl ⟨_, _, hr, he, rfl⟩)

/-- Some enabled robot channel at a place publishes a state. -/
def Live (config : ProjectConfig α) (at' : String) (kind : RobotStateKind) : Prop :=
  ∃ d c, Runs config .robot d c ∧ place d c = at' ∧ kind ∈ c.publishStates

def PreviewedIn (config : ProjectConfig α) (at' : String) (mode : PreviewOutputMode) : Prop :=
  ∃ d c, Runs config .camera d c ∧ c.previewEnabled ∧ place d c = at' ∧
    (previewConfigOf c).outputMode = mode

/-- What the checks of a project leave open. -/
structure Wired (config : ProjectConfig α) : Prop where
  leaders : ∀ p d c, LeaderOf config p d c → Live config (place d c) p.leaderState
  followers : ∀ p d c, FollowerOf config p d c → feedbackKind p.followerCommand ∈ c.publishStates →
    Live config (place d c) (feedbackKind p.followerCommand)
  previews : ∀ d c, Runs config .camera d c → c.previewEnabled →
    PreviewedIn config (place d c) (lastPreviewMode config)

theorem produces_state {at' : String} {kind : RobotStateKind} :
    Produces config at' (.state kind) ↔ Live config at' kind := by
  constructor
  · intro hp
    cases hp with
    | state hr hs => exact ⟨_, _, hr, rfl, hs⟩
  · rintro ⟨d, c, hr, rfl, hs⟩
    exact .state hr hs

theorem produces_preview {at' : String} {mode : PreviewOutputMode} :
    Produces config at' (.preview mode) ↔ PreviewedIn config at' mode := by
  constructor
  · intro hp
    cases hp with
    | preview hr he => exact ⟨_, _, hr, he, rfl, rfl⟩
  · rintro ⟨d, c, hr, he, rfl, rfl⟩
    exact .preview hr he

/-- The wiring is closed exactly when every stream that somebody listens to is produced. -/
theorem closed_iff_streams (h : Accepted platform config) : Closed platform config ↔
    ∀ place s, Consumes config place s → Produces config place s := by
  constructor
  · intro hc place s hs
    have ht := hc "" (topic place s) ((mem_consumed h).mpr ⟨place, s, hs, rfl⟩)
    obtain ⟨place', s', hp, he⟩ := (mem_produced h).mp ht
    obtain ⟨rfl, rfl⟩ := topic_injective he
    exact hp
  · intro hall embeddedConfigToml t ht
    obtain ⟨place, s, hs, rfl⟩ := (mem_consumed h).mp ht
    exact (mem_produced h).mpr ⟨place, s, hall place s hs, rfl⟩

theorem closed_iff (hv : config.validate platform = .ok ()) :
    Closed platform config ↔ Wired config := by
  have h := validate_iff.mp hv
  rw [closed_iff_streams h]
  constructor
  · intro hall
    constructor
    · intro p d c hl
      exact produces_state.mp (hall _ _ (.leader hl))
    · intro p d c hf hs
      exact produces_state.mp (hall _ _ (.follower hf hs))
    · intro d c hr he
      exact produces_preview.mp (hall _ _ (.preview hr he))
  · intro hw place s hs
    cases hs with
    | frames hr he => exact .frames hr
    | recording hr he => exact .recording hr he
    | state hr hs => exact .state hr hs
    | action hf => exact .command hf
    | leader hl => exact produces_state.mpr (hw.leaders _ _ _ hl)
    | follower hf hs => exact produces_state.mpr (hw.followers _ _ _ hf hs)
    | preview hr he => exact produces_preview.mpr (hw.previews _ _ hr he)

/-- Enough for it: the paired channels are enabled, and the previews agree on one mode. -/
theorem wired_of_enabled (hv : config.validate platform = .ok ())
    (hp : ∀ p ∈ config.pairings, ∀ d ∈ config.devices, ∀ c ∈ d.channels,
      (d.name = p.leaderDevice ∧ c.channelType = p.leaderChannelType) ∨
        (d.name = p.followerDevice ∧ c.channelType = p.followerChannelType) → c.enabled)
    (hm : ∀ c ∈ previewed config, (previewConfigOf c).outputMode = lastPreviewMode config) :
    Wired config where
  leaders := by
    intro p d c hl
    obtain ⟨ld, l, fd, f, ha⟩ := pairing_validate_iff.mp ((validate_iff.mp hv).pairings p hl.pairing)
    obtain rfl := Option.some.inj (hl.device.symm.trans ha.leaderHost)
    obtain rfl := Option.some.inj (hl.channel.symm.trans ha.leaderFound)
    obtain ⟨hd, hdn⟩ := deviceNamed_eq_some hl.device
    obtain ⟨hc, hcn⟩ := channelNamed_eq_some hl.channel
    exact ⟨d, c, ⟨hd, hc, ha.leaderKind, hp p hl.pairing d hd c hc (.inl ⟨hdn, hcn⟩)⟩, rfl,
      ha.leaderState⟩
  followers := by
    intro p d c hf hs
    obtain ⟨ld, l, fd, f, ha⟩ := pairing_validate_iff.mp ((validate_iff.mp hv).pairings p hf.pairing)
    obtain rfl := Option.some.inj (hf.device.symm.trans ha.followerHost)
    obtain rfl := Option.some.inj (hf.channel.symm.trans ha.followerFound)
    obtain ⟨hd, hdn⟩ := deviceNamed_eq_some hf.device
    obtain ⟨hc, hcn⟩ := channelNamed_eq_some hf.channel
    exact ⟨d, c, ⟨hd, hc, ha.followerKind, hp p hf.pairing d hd c hc (.inr ⟨hdn, hcn⟩)⟩, rfl, hs⟩
  previews := by
    intro d c hr he
    refine ⟨d, c, hr, he, rfl, hm c ?_⟩
    refine List.mem_flatMap.mpr ⟨d, hr.device, List.mem_filter.mpr ⟨hr.channel, ?_⟩⟩
    simp [hr.kind, hr.enabled, he]

theorem closed_sample : Closed rationals sampleTeleop :=
  (closed_iff sampleTeleop_valid).mpr
    (wired_of_enabled sampleTeleop_valid (by decide +kernel) (by decide +kernel))

def silentLeader : ProjectConfig ℚ :=
  sampleProject
    [{ sampleArm "leader" "bus-l" with
        channels := (sampleArm "leader" "bus-l").channels.map fun c => { c with enabled := false } },
      sampleArm "follower" "bus-f"]
    [samplePairing "leader" "follower"]

/-- It is accepted, and its router waits for states that nobody publishes. -/
theorem silent_leader_unheard : ¬ ∀ config : ProjectConfig ℚ,
    config.validate rationals = .ok () → Closed rationals config := by
  intro hall
  have hc := hall silentLeader (by decide +kernel) "" "bus-l/arm/states/joint_position"
    (by decide +kernel)
  have hn : "bus-l/arm/states/joint_position" ∉ producedTopics rationals silentLeader := by
    decide +kernel
  exact hn hc

end TopicWiring
