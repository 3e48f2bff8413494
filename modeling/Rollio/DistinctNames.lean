import Rollio.TopicWiring
import Rollio.EpisodeMetadata

/-! The names that a project's channels get: channel ids, process ids, topics, and the files that
an episode is staged in. -/
namespace DistinctNames
open RuntimeConfig EncoderConfigs DeviceConfigs ProjectConfigs AcceptedProjects DerivedConfigs
open ResolvedChannels TopicNames TopicWiring LerobotDataset EpisodeMetadata SeparatedNames
open FileTrees (Path)

def channelStatusServiceName (busRoot channelType : String) : String :=
  busRoot ++ "/" ++ channelType ++ "/status"

def channelModeInfoServiceName (busRoot channelType : String) : String :=
  busRoot ++ "/" ++ channelType ++ "/info/mode"

def channelModeControlServiceName (busRoot channelType : String) : String :=
  busRoot ++ "/" ++ channelType ++ "/control/mode"

def channelProfileInfoServiceName (busRoot channelType : String) : String :=
  busRoot ++ "/" ++ channelType ++ "/info/profile"

def channelProfileControlServiceName (busRoot channelType : String) : String :=
  busRoot ++ "/" ++ channelType ++ "/control/profile"

def channelCameraControlServiceName (busRoot channelType : String) : String :=
  busRoot ++ "/" ++ channelType ++ "/control/camera"

def stateKinds : List RobotStateKind :=
  [.jointPosition, .jointVelocity, .jointEffort, .endEffectorPose, .endEffectorTwist,
    .endEffectorWrench, .parallelPosition, .parallelVelocity, .parallelEffort]

def commandKinds : List RobotCommandKind :=
  [.jointPosition, .jointMit, .endPose, .parallelPosition, .parallelMit]

def channelServices (busRoot channelType : String) : List String :=
  [channelStatusServiceName busRoot channelType, channelModeInfoServiceName busRoot channelType,
    channelModeControlServiceName busRoot channelType,
    channelProfileInfoServiceName busRoot channelType,
    channelProfileControlServiceName busRoot channelType,
    cameraFramesTopicV2 busRoot channelType, recordingPacketServiceName busRoot channelType,
    previewPacketServiceName busRoot channelType, previewJpegServiceName busRoot channelType,
    previewControlServiceName busRoot channelType,
    channelCameraControlServiceName busRoot channelType] ++
  (stateKinds.map fun kind => robotStateTopicV2 busRoot channelType kind) ++
  (commandKinds.map fun kind => robotCommandTopicV2 busRoot channelType kind)

def tails : List String :=
  ["/status", "/info/mode", "/control/mode", "/info/profile", "/control/profile", "/frames",
    "/recording-packets", "/preview-packets", "/preview-jpeg", "/preview-control",
    "/control/camera"] ++
  stateKinds.map (fun kind => "/states/" ++ kind.topicSuffix) ++
  commandKinds.map (fun kind => "/commands/" ++ kind.topicSuffix)

theorem channelServices_eq (busRoot channelType : String) :
    channelServices busRoot channelType =
      tails.map fun tail => channelPrefixV2 busRoot channelType ++ tail := by
  simp only [channelServices, tails, List.map_append, List.map_cons, List.map_nil, List.map_map,
    Function.comp_def, channelStatusServiceName, channelModeInfoServiceName,
    channelModeControlServiceName, channelProfileInfoServiceName,
    channelProfileControlServiceName, cameraFramesTopicV2, recordingPacketServiceName,
    previewPacketServiceName, previewJpegServiceName, previewControlServiceName,
    channelCameraControlServiceName, robotStateTopicV2, robotCommandTopicV2, channelPrefixV2,
    String.append_assoc]

/-- No topic of a channel ends like another one. -/
theorem tails_unmixed : ∀ t ∈ tails, ∀ t' ∈ tails, t.toList <:+ t'.toList → t = t' := by
  decide +kernel

/-- Names that end in words of which none ends like another can be taken apart. -/
theorem unmixed_endings {endings : List String}
    (hunmixed : ∀ t ∈ endings, ∀ t' ∈ endings, t.toList <:+ t'.toList → t = t') {s s' t t' : String}
    (ht : t ∈ endings) (ht' : t' ∈ endings) : s ++ t = s' ++ t' ↔ s = s' ∧ t = t' := by
  constructor
  · intro h
    have hl : s.toList ++ t.toList = s'.toList ++ t'.toList := by
      rw [← String.toList_append, h, String.toList_append]
    have heq : t = t' := by
      rcases List.suffix_or_suffix_of_suffix (List.suffix_append s.toList t.toList)
        (hl ▸ List.suffix_append s'.toList t'.toList) with hs | hs
      · exact hunmixed t ht t' ht' hs
      · exact (hunmixed t' ht' t ht hs).symm
    subst heq
    exact ⟨String.toList_inj.1 (List.append_cancel_right hl), rfl⟩
  · rintro ⟨rfl, rfl⟩
    rfl

theorem services_meet_iff {busRoot channelType busRoot' channelType' : String} :
    (∃ t ∈ channelServices busRoot channelType, t ∈ channelServices busRoot' channelType') ↔
      channelPrefixV2 busRoot channelType = channelPrefixV2 busRoot' channelType' := by
  simp only [channelServices_eq, List.mem_map]
  constructor
  · rintro ⟨_, ⟨tail, ht, rfl⟩, tail', ht', h⟩
    exact ((unmixed_endings tails_unmixed ht' ht).mp h).1.symm
  · intro h
    exact ⟨_, ⟨"/status", by decide, rfl⟩, "/status", by decide, by rw [h]⟩

section Joined
variable {name channelType name' channelType' : String}

def dots (s : String) : List Char := s.toList.map fun c => if c = '/' then '.' else c

def underscored (s : String) : List Char :=
  s.toList.flatMap fun c => if c = '/' then ['_', '_'] else [c]

/-- Two names that become one where their words are joined by a separator. -/
def RunTogether (sep a b a' b' : List Char) : Prop :=
  Continues sep a b a' b' ∨ Continues sep a' b' a b

theorem dotted_channelId (name channelType : String) :
    (dotted (deviceChannelId name channelType)).toList =
      dots name ++ (['.'] ++ dots channelType) := by
  have hslash : "/".toList = ['/'] := by decide
  simp only [dotted, deviceChannelId, dots, String.toList_ofList, String.toList_append,
    List.map_append, hslash, List.append_assoc]
  rfl

theorem sanitized_channelId (name channelType : String) :
    (sanitizeComponent (deviceChannelId name channelType)).toList =
      underscored name ++ (['_', '_'] ++ underscored channelType) := by
  have hslash : "/".toList = ['/'] := by decide
  simp only [sanitizeComponent, deviceChannelId, underscored, String.toList_ofList,
    String.toList_append, List.flatMap_append, hslash, List.append_assoc]
  rfl

theorem prefix_toList (busRoot channelType : String) :
    (channelPrefixV2 busRoot channelType).toList =
      busRoot.toList ++ (['/'] ++ channelType.toList) := by
  have hslash : "/".toList = ['/'] := by decide
  simp only [channelPrefixV2, String.toList_append, hslash, List.append_assoc]

theorem dotted_eq_iff :
    dotted (deviceChannelId name channelType) = dotted (deviceChannelId name' channelType') ↔
      RunTogether ['.'] (dots name) (dots channelType) (dots name') (dots channelType') := by
  rw [← String.toList_inj, dotted_channelId, dotted_channelId, joined_eq_iff, RunTogether]

theorem sanitized_eq_iff :
    sanitizeComponent (deviceChannelId name channelType) =
        sanitizeComponent (deviceChannelId name' channelType') ↔
      RunTogether ['_', '_'] (underscored name) (underscored channelType) (underscored name')
        (underscored channelType') := by
  rw [← String.toList_inj, sanitized_channelId, sanitized_channelId, joined_eq_iff, RunTogether]

theorem prefix_eq_iff :
    channelPrefixV2 name channelType = channelPrefixV2 name' channelType' ↔
      RunTogether ['/'] name.toList channelType.toList name'.toList channelType'.toList := by
  rw [← String.toList_inj, prefix_toList, prefix_toList, joined_eq_iff, RunTogether]

end Joined

section Processes
variable {α : Type} {platform : Platform α} {config : ProjectConfig α}
variable {d d' : BinaryDeviceConfig α} {c c' : DeviceChannelConfigV2 α}

def idOf (d : BinaryDeviceConfig α) (c : DeviceChannelConfigV2 α) : String :=
  deviceChannelId d.name c.channelType

/-- The encoders of a channel, by their process ids. -/
def channelProcesses (d : BinaryDeviceConfig α) (c : DeviceChannelConfigV2 α) : List String :=
  if c.kind = .camera ∧ c.enabled then
    (if c.recordEnabled then [recordingEncoderProcessId (idOf d c)] else []) ++
      (if c.previewEnabled then [previewEncoderProcessId (idOf d c)] else [])
  else []

/-- Both channels are cameras that have an encoder of the same role. -/
def ShareRole (c c' : DeviceChannelConfigV2 α) : Prop :=
  c.kind = .camera ∧ c'.kind = .camera ∧
    ((c.recordEnabled ∧ c'.recordEnabled) ∨ (c.previewEnabled ∧ c'.previewEnabled))

theorem mem_channelProcesses {id : String} : id ∈ channelProcesses d c ↔
    (c.kind = .camera ∧ c.enabled) ∧
      ((c.recordEnabled ∧ id = recordingEncoderProcessId (idOf d c)) ∨
        (c.previewEnabled ∧ id = previewEncoderProcessId (idOf d c))) := by
  unfold channelProcesses
  by_cases hk : c.kind = .camera ∧ c.enabled
  · rw [if_pos hk, List.mem_append]
    apply Iff.trans _ (and_iff_right hk).symm
    apply or_congr
    · by_cases hr : c.recordEnabled <;> simp [hr]
    · by_cases hp : c.previewEnabled <;> simp [hp]
  · rw [if_neg hk]
    simp [hk]

theorem roles_apart (s s' : String) :
    recordingEncoderProcessId s ≠ previewEncoderProcessId s' := by
  intro h
  change "encoder." ++ dotted s = "preview-encoder." ++ dotted s' at h
  have hl := congrArg (fun t : String => t.toList.head?) h
  simp [String.toList_append] at hl

theorem processes_meet_iff (he : c.enabled) (he' : c'.enabled) :
    (∃ id ∈ channelProcesses d c, id ∈ channelProcesses d' c') ↔
      ShareRole c c' ∧ dotted (idOf d c) = dotted (idOf d' c') := by
  simp only [mem_channelProcesses, ShareRole]
  constructor
  · rintro ⟨id, ⟨⟨hk, -⟩, h⟩, ⟨hk', -⟩, h'⟩
    rcases h with ⟨hr, rfl⟩ | ⟨hp, rfl⟩
    · rcases h' with ⟨hr', h'⟩ | ⟨-, h'⟩
      · exact ⟨⟨hk, hk', .inl ⟨hr, hr'⟩⟩, String.append_right_inj _ |>.1 h'⟩
      · exact absurd h' (roles_apart _ _)
    · rcases h' with ⟨-, h'⟩ | ⟨hp', h'⟩
      · exact absurd h'.symm (roles_apart _ _)
      · exact ⟨⟨hk, hk', .inr ⟨hp, hp'⟩⟩, String.append_right_inj _ |>.1 h'⟩
  · rintro ⟨⟨hk, hk', ⟨hr, hr'⟩ | ⟨hp, hp'⟩⟩, hd⟩
    · refine ⟨_, ⟨⟨hk, he⟩, .inl ⟨hr, rfl⟩⟩, ⟨hk', he'⟩, .inl ⟨hr', ?_⟩⟩
      exact congrArg ("encoder." ++ ·) hd
    · refine ⟨_, ⟨⟨hk, he⟩, .inr ⟨hp, rfl⟩⟩, ⟨hk', he'⟩, .inr ⟨hp', ?_⟩⟩
      exact congrArg ("preview-encoder." ++ ·) hd

end Processes

section Staged
variable {α : Type} {platform : Platform α} {config : ProjectConfig α}

def cameraFile (episodeIndex chunkSize : UInt32) (channelId extension : String) : Path :=
  ["videos", chunkDir episodeIndex chunkSize, sanitizeComponent channelId,
    episodeDirName episodeIndex ++ "." ++ extension]

def rawFile (episodeIndex chunkSize : UInt32) (channelId suffix : String) : Path :=
  rawDir episodeIndex chunkSize ++ [sanitizeComponent channelId ++ "__" ++ suffix ++ ".parquet"]

def stagedFiles (config : AssemblerRuntimeConfigV2) (episodeIndex : UInt32) : List Path :=
  (config.cameras.map fun camera => cameraFile episodeIndex config.chunkSize camera.channelId
    (containerFor camera.codec).extension) ++
  (config.observations.map fun observation => rawFile episodeIndex config.chunkSize
    observation.channelId observation.stateKind.topicSuffix) ++
  (config.actions.map fun action => rawFile episodeIndex config.chunkSize action.channelId
    action.commandKind.topicSuffix)

/-- What is recorded of a channel. -/
inductive Part where
  | video
  | state (kind : RobotStateKind)
  | command (kind : RobotCommandKind)
  deriving DecidableEq

def channelExtension (c : DeviceChannelConfigV2 α) : String :=
  match c.profile with
  | some profile =>
    (containerFor ((recordConfigOf c).codecForPixelFormat profile.pixelFormat)).extension
  | none => ""

def recordedStatesOf (c : DeviceChannelConfigV2 α) : List RobotStateKind :=
  if c.recordedStates = [] then c.publishStates else c.recordedStates

def Records (config : ProjectConfig α) (d : BinaryDeviceConfig α) (c : DeviceChannelConfigV2 α) :
    Part → Prop
  | .video => Runs config .camera d c ∧ c.recordEnabled
  | .state kind => Runs config .robot d c ∧ kind ∈ c.publishStates ∧ kind ∈ recordedStatesOf c
  | .command kind => ∃ p, FollowerOf config p d c ∧ p.followerCommand = kind

/-- What the file of a part ends with. -/
inductive Ending where
  | video (extension : String)
  | raw (suffix : String)
  deriving DecidableEq

def ending (c : DeviceChannelConfigV2 α) : Part → Ending
  | .video => .video (channelExtension c)
  | .state kind => .raw kind.topicSuffix
  | .command kind => .raw kind.topicSuffix

def fileOf (episodeIndex chunkSize : UInt32) (channelId : String) : Ending → Path
  | .video extension => cameraFile episodeIndex chunkSize channelId extension
  | .raw suffix => rawFile episodeIndex chunkSize channelId suffix

def stageFile (config : ProjectConfig α) (episodeIndex : UInt32) (d : BinaryDeviceConfig α)
    (c : DeviceChannelConfigV2 α) (part : Part) : Path :=
  fileOf episodeIndex config.episode.chunkSize (idOf d c) (ending c part)

theorem CameraOf.extension {d : BinaryDeviceConfig α} {c : DeviceChannelConfigV2 α}
    {camera : ResolvedCameraChannel} (hc : CameraOf config d c camera)
    (h : Accepted platform config) :
    (containerFor (assemblerCamera config camera).codec).extension = channelExtension c := by
  obtain ⟨profile, hp, -, -, -, hf⟩ := hc.profile
  simp only [assemblerCamera, hc.recordConfig h, hf, channelExtension, hp]

theorem mem_cameraFiles (h : Accepted platform config) {episodeIndex : UInt32} {path : Path} :
    path ∈ (((resolvedCameraChannels config).filter (recordEnabled config)).map
        (assemblerCamera config)).map (fun camera => cameraFile episodeIndex
          config.episode.chunkSize camera.channelId (containerFor camera.codec).extension) ↔
      ∃ d c, Records config d c .video ∧ path = stageFile config episodeIndex d c .video := by
  have hcameras := exists_camera_iff h (P := fun camera => recordEnabled config camera ∧
    path = cameraFile episodeIndex config.episode.chunkSize camera.channelId
      (containerFor (assemblerCamera config camera).codec).extension)
    (Q := fun d c => c.recordEnabled ∧ path = stageFile config episodeIndex d c .video) (by
      intro d c camera hc
      rw [hc.recordEnabled h, hc.channelId, CameraOf.extension hc h]
      rfl)
  simp only [Records, and_assoc]
  rw [← hcameras]
  simp only [List.map_map, List.mem_map, List.mem_filter, Function.comp_apply, and_assoc, eq_comm]
  rfl

theorem mem_observationFiles {episodeIndex : UInt32} {path : Path} :
    path ∈ ((resolvedRobotChannels platform config).flatMap assemblerObservations).map
        (fun observation => rawFile episodeIndex config.episode.chunkSize observation.channelId
          observation.stateKind.topicSuffix) ↔
      ∃ d c kind, Records config d c (.state kind) ∧
        path = stageFile config episodeIndex d c (.state kind) := by
  constructor
  · intro hp
    obtain ⟨observation, ho, rfl⟩ := List.mem_map.mp hp
    obtain ⟨robot, hr, ho⟩ := List.mem_flatMap.mp ho
    obtain ⟨d, c, hr⟩ := robot_of_mem hr
    obtain ⟨entry, he, rfl⟩ := List.mem_map.mp ho
    obtain ⟨he, hk⟩ := List.mem_filter.mp he
    rw [hr.stateTopics] at he
    obtain ⟨kind, hs, rfl⟩ := List.mem_map.mp he
    refine ⟨d, c, kind, ⟨⟨hr.device, hr.channel, hr.kind, hr.enabled⟩, hs, ?_⟩, ?_⟩
    · rw [recordedStatesOf, ← hr.recordedStates]
      simpa using hk
    · simp only [stageFile, fileOf, ending, idOf, ← hr.channelId]
  · rintro ⟨d, c, kind, ⟨hr, hs, hk⟩, rfl⟩
    obtain ⟨robot, hm, hc⟩ := exists_robot platform hr.device hr.channel hr.kind hr.enabled
    have he : (kind, robotStateTopicV2 d.busRoot c.channelType kind) ∈
        robot.stateTopics.filter fun entry => robot.recordedStates.contains entry.1 := by
      rw [hc.stateTopics, hc.recordedStates]
      exact List.mem_filter.mpr ⟨List.mem_map_of_mem hs, by simpa [recordedStatesOf] using hk⟩
    refine List.mem_map.mpr ⟨_, List.mem_flatMap.mpr ⟨robot, hm, List.mem_map_of_mem he⟩, ?_⟩
    simp only [stageFile, fileOf, ending, idOf, ← hc.channelId]

theorem mem_actionFiles (h : Accepted platform config) {episodeIndex : UInt32} {path : Path} :
    path ∈ (config.pairings.filterMap (assemblerAction config)).map
        (fun action => rawFile episodeIndex config.episode.chunkSize action.channelId
          action.commandKind.topicSuffix) ↔
      ∃ d c kind, Records config d c (.command kind) ∧
        path = stageFile config episodeIndex d c (.command kind) := by
  have hfile {p : ChannelPairingConfig α} {d : BinaryDeviceConfig α}
      {c : DeviceChannelConfigV2 α} (hf : FollowerOf config p d c) :
      rawFile episodeIndex config.episode.chunkSize (assemblerActionFor p d c).channelId
        (assemblerActionFor p d c).commandKind.topicSuffix =
      stageFile config episodeIndex d c (.command p.followerCommand) := by
    simp only [assemblerActionFor, stageFile, fileOf, ending, idOf,
      (deviceNamed_eq_some hf.device).2, (channelNamed_eq_some hf.channel).2]
  have hfollowers := exists_follower_iff h (P := fun p d c => path = rawFile episodeIndex
    config.episode.chunkSize (assemblerActionFor p d c).channelId
    (assemblerActionFor p d c).commandKind.topicSuffix)
  simp only [List.mem_map, mem_actions h]
  constructor
  · rintro ⟨_, ⟨p, hp, ld, l, fd, f, ha, rfl⟩, rfl⟩
    obtain ⟨q, d, c, hf, hq⟩ := hfollowers.mp ⟨p, hp, ld, l, fd, f, ha, rfl⟩
    exact ⟨d, c, q.followerCommand, ⟨q, hf, rfl⟩, hq.trans (hfile hf)⟩
  · rintro ⟨d, c, kind, ⟨p, hf, rfl⟩, rfl⟩
    obtain ⟨q, hq, ld, l, fd, f, ha, hp⟩ := hfollowers.mpr ⟨p, d, c, hf, (hfile hf).symm⟩
    exact ⟨_, ⟨q, hq, ld, l, fd, f, ha, rfl⟩, hp.symm⟩

/-- The files of an episode are those of the parts that are recorded. -/
theorem mem_stagedFiles (h : Accepted platform config) {embeddedConfigToml : String}
    {episodeIndex : UInt32} {path : Path} :
    path ∈ stagedFiles (assemblerRuntimeConfigV2 platform config embeddedConfigToml)
        episodeIndex ↔
      ∃ d c part, Records config d c part ∧ path = stageFile config episodeIndex d c part := by
  simp only [stagedFiles, assemblerRuntimeConfigV2, List.mem_append, mem_cameraFiles h,
    mem_observationFiles, mem_actionFiles h]
  constructor
  · rintro ((⟨d, c, hr, hp⟩ | ⟨d, c, kind, hr, hp⟩) | ⟨d, c, kind, hr, hp⟩)
    · exact ⟨d, c, .video, hr, hp⟩
    · exact ⟨d, c, .state kind, hr, hp⟩
    · exact ⟨d, c, .command kind, hr, hp⟩
  · rintro ⟨d, c, part, hr, hp⟩
    cases part with
    | video => exact .inl (.inl ⟨d, c, hr, hp⟩)
    | state kind => exact .inl (.inr ⟨d, c, kind, hr, hp⟩)
    | command kind => exact .inr ⟨d, c, kind, hr, hp⟩

def rawEndings : List String :=
  (stateKinds.map (·.topicSuffix) ++ commandKinds.map (·.topicSuffix)).map fun suffix =>
    "__" ++ suffix ++ ".parquet"

theorem rawEndings_unmixed :
    ∀ t ∈ rawEndings, ∀ t' ∈ rawEndings, t.toList <:+ t'.toList → t = t' := by
  decide +kernel

theorem state_mem_stateKinds (kind : RobotStateKind) : kind ∈ stateKinds := by
  cases kind <;> decide

theorem command_mem_commandKinds (kind : RobotCommandKind) : kind ∈ commandKinds := by
  cases kind <;> decide

theorem raw_ending_mem {c : DeviceChannelConfigV2 α} {part : Part} {suffix : String}
    (h : ending c part = .raw suffix) : "__" ++ suffix ++ ".parquet" ∈ rawEndings := by
  apply List.mem_map_of_mem (f := fun suffix => "__" ++ suffix ++ ".parquet")
  rw [List.mem_append]
  cases part with
  | video => cases h
  | state kind =>
    cases h
    exact .inl (List.mem_map_of_mem (state_mem_stateKinds kind))
  | command kind =>
    cases h
    exact .inr (List.mem_map_of_mem (command_mem_commandKinds kind))

theorem suffix_of_rawEnding {suffix suffix' : String} :
    "__" ++ suffix ++ ".parquet" = "__" ++ suffix' ++ ".parquet" ↔ suffix = suffix' := by
  rw [String.append_left_inj, String.append_right_inj]

/-- Parts are staged in one file when their files end alike and their channel ids become one. -/
theorem fileOf_eq_iff {episodeIndex chunkSize : UInt32} {id id' : String}
    {c c' : DeviceChannelConfigV2 α} {part part' : Part} :
    fileOf episodeIndex chunkSize id (ending c part) =
        fileOf episodeIndex chunkSize id' (ending c' part') ↔
      ending c part = ending c' part' ∧ sanitizeComponent id = sanitizeComponent id' := by
  cases hw : ending c part with
  | video extension =>
    cases hw' : ending c' part' with
    | video extension' =>
      simp only [fileOf, cameraFile, List.cons.injEq, true_and, Ending.video.injEq,
        String.append_right_inj, and_comm]
    | raw suffix' => simp [fileOf, cameraFile, rawFile, rawDir]
  | raw suffix =>
    cases hw' : ending c' part' with
    | video extension' => simp [fileOf, cameraFile, rawFile, rawDir]
    | raw suffix' =>
      have hmem := raw_ending_mem hw
      have hmem' := raw_ending_mem hw'
      simp only [fileOf, rawFile, List.append_cancel_left_eq, List.cons.injEq, and_true,
        Ending.raw.injEq, String.append_assoc] at hmem hmem' ⊢
      rw [unmixed_endings rawEndings_unmixed hmem hmem', and_comm]
      simp only [← String.append_assoc, suffix_of_rawEnding]

end Staged

section Apart
variable {α : Type} {platform : Platform α} {config : ProjectConfig α}

def nameOf (d : BinaryDeviceConfig α) (c : DeviceChannelConfigV2 α) : String × String :=
  (d.name, c.channelType)

structure TwoRun (config : ProjectConfig α) (d : BinaryDeviceConfig α)
    (c : DeviceChannelConfigV2 α) (d' : BinaryDeviceConfig α) (c' : DeviceChannelConfigV2 α) :
    Prop where
  runs : Runs config c.kind d c
  runs' : Runs config c'.kind d' c'
  differ : nameOf d c ≠ nameOf d' c'

/-- No two channels share a channel id, the id of a process or a topic, and no file of an episode
holds two of its parts. -/
structure NamesApart (platform : Platform α) (config : ProjectConfig α) : Prop where
  ids : ∀ d c d' c', TwoRun config d c d' c' → idOf d c ≠ idOf d' c'
  processes : ∀ d c d' c', TwoRun config d c d' c' →
    ∀ id ∈ channelProcesses d c, id ∉ channelProcesses d' c'
  topics : ∀ d c d' c', TwoRun config d c d' c' →
    ∀ t ∈ channelServices d.busRoot c.channelType,
      t ∉ channelServices d'.busRoot c'.channelType
  files : ∀ embeddedConfigToml episodeIndex,
    ∀ path ∈ stagedFiles (assemblerRuntimeConfigV2 platform config embeddedConfigToml)
      episodeIndex,
    ∀ d c part d' c' part', Records config d c part → Records config d' c' part' →
      path = stageFile config episodeIndex d c part →
      path = stageFile config episodeIndex d' c' part' →
      nameOf d c = nameOf d' c' ∧ part = part'

/-- What the names of a project have to keep apart themselves. -/
structure Separable (config : ProjectConfig α) : Prop where
  ids : ∀ d c d' c', TwoRun config d c d' c' →
    ¬ RunTogether ['/'] d.name.toList c.channelType.toList d'.name.toList c'.channelType.toList
  processes : ∀ d c d' c', TwoRun config d c d' c' → ShareRole c c' →
    ¬ RunTogether ['.'] (dots d.name) (dots c.channelType) (dots d'.name) (dots c'.channelType)
  topics : ∀ d c d' c', TwoRun config d c d' c' →
    ¬ RunTogether ['/'] d.busRoot.toList c.channelType.toList d'.busRoot.toList
      c'.channelType.toList
  files : ∀ d c part d' c' part', Records config d c part → Records config d' c' part' →
    nameOf d c ≠ nameOf d' c' → ending c part = ending c' part' →
    ¬ RunTogether ['_', '_'] (underscored d.name) (underscored c.channelType)
      (underscored d'.name) (underscored c'.channelType)
  commands : ∀ d c kind command, Records config d c (.state kind) →
    Records config d c (.command command) → kind.topicSuffix ≠ command.topicSuffix

theorem records_mem {d : BinaryDeviceConfig α} {c : DeviceChannelConfigV2 α} {part : Part}
    (h : Records config d c part) : d ∈ config.devices ∧ c ∈ d.channels := by
  cases part with
  | video => exact ⟨h.1.device, h.1.channel⟩
  | state kind => exact ⟨h.1.device, h.1.channel⟩
  | command kind =>
    obtain ⟨p, hf, -⟩ := h
    exact ⟨(deviceNamed_eq_some hf.device).1, (channelNamed_eq_some hf.channel).1⟩

variable {d d' : BinaryDeviceConfig α} {c c' : DeviceChannelConfigV2 α}

theorem same_channel (h : Accepted platform config) (hd : d ∈ config.devices) (hc : c ∈ d.channels)
    (hd' : d' ∈ config.devices) (hc' : c' ∈ d'.channels) (hn : nameOf d c = nameOf d' c') :
    d = d' ∧ c = c' := by
  obtain ⟨hname, htype⟩ := Prod.mk.inj hn
  have hdevice := h.deviceNamed hd
  rw [hname, h.deviceNamed hd'] at hdevice
  obtain rfl := Option.some.inj hdevice
  have hchannel := (h.devices d' hd').channelNamed hc
  rw [htype, (h.devices d' hd').channelNamed hc'] at hchannel
  exact ⟨rfl, (Option.some.inj hchannel).symm⟩

theorem ids_eq_iff : idOf d c = idOf d' c' ↔
    RunTogether ['/'] d.name.toList c.channelType.toList d'.name.toList c'.channelType.toList :=
  prefix_eq_iff

theorem processes_shared_iff (htwo : TwoRun config d c d' c') :
    (∀ id ∈ channelProcesses d c, id ∉ channelProcesses d' c') ↔
      (ShareRole c c' → ¬ RunTogether ['.'] (dots d.name) (dots c.channelType) (dots d'.name)
        (dots c'.channelType)) := by
  have hmeet := @processes_meet_iff α d d' c c' htwo.runs.enabled htwo.runs'.enabled
  rw [idOf, idOf, dotted_eq_iff] at hmeet
  rw [← not_and, ← hmeet]
  simp only [not_exists, not_and]

theorem topics_shared_iff :
    (∀ t ∈ channelServices d.busRoot c.channelType, t ∉ channelServices d'.busRoot c'.channelType) ↔
      ¬ RunTogether ['/'] d.busRoot.toList c.channelType.toList d'.busRoot.toList
        c'.channelType.toList := by
  rw [← prefix_eq_iff, ← services_meet_iff]
  simp only [not_exists, not_and]

/-- The parts of one channel are told apart by their endings, but for the states and the commands. -/
theorem ending_injective (hs : Separable config) {part part' : Part}
    (hr : Records config d c part) (hr' : Records config d c part')
    (h : ending c part = ending c part') : part = part' := by
  cases part with
  | video =>
    cases part' with
    | video => rfl
    | state _ => cases h
    | command _ => cases h
  | state kind =>
    cases part' with
    | video => cases h
    | state kind' => rw [stateSuffix_injective (Ending.raw.inj h)]
    | command command => exact absurd (Ending.raw.inj h) (hs.commands d c kind command hr hr')
  | command command =>
    cases part' with
    | video => cases h
    | state kind => exact absurd (Ending.raw.inj h).symm (hs.commands d c kind command hr' hr)
    | command command' => rw [commandSuffix_injective (Ending.raw.inj h)]

/-- Where no two parts share a file, parts whose files would be one are one. -/
theorem NamesApart.same_part (hn : NamesApart platform config) (h : Accepted platform config)
    {part part' : Part} (hr : Records config d c part) (hr' : Records config d' c' part')
    (he : ending c part = ending c' part')
    (hid : sanitizeComponent (idOf d c) = sanitizeComponent (idOf d' c')) :
    nameOf d c = nameOf d' c' ∧ part = part' :=
  hn.files "" 0 (stageFile config 0 d c part) ((mem_stagedFiles h).mpr ⟨d, c, part, hr, rfl⟩)
    d c part d' c' part' hr hr' rfl (fileOf_eq_iff.mpr ⟨he, hid⟩)

theorem names_apart_iff (h : config.validate platform = .ok ()) :
    NamesApart platform config ↔ Separable config := by
  have h := validate_iff.mp h
  constructor
  · intro hn
    refine ⟨?_, ?_, ?_, ?_, ?_⟩
    · intro d c d' c' htwo hrun
      exact hn.ids d c d' c' htwo (ids_eq_iff.mpr hrun)
    · intro d c d' c' htwo
      exact (processes_shared_iff htwo).mp (hn.processes d c d' c' htwo)
    · intro d c d' c' htwo
      exact topics_shared_iff.mp (hn.topics d c d' c' htwo)
    · intro d c part d' c' part' hr hr' hne he hrun
      exact hne (hn.same_part h hr hr' he (sanitized_eq_iff.mpr hrun)).1
    · intro d c kind command hr hr' heq
      have hpart := (hn.same_part h hr hr' (congrArg Ending.raw heq) rfl).2
      cases hpart
  · intro hs
    refine ⟨?_, ?_, ?_, ?_⟩
    · intro d c d' c' htwo heq
      exact hs.ids d c d' c' htwo (ids_eq_iff.mp heq)
    · intro d c d' c' htwo
      exact (processes_shared_iff htwo).mpr (hs.processes d c d' c' htwo)
    · intro d c d' c' htwo
      exact topics_shared_iff.mpr (hs.topics d c d' c' htwo)
    · intro _ _ path _ d c part d' c' part' hr hr' hp hp'
      obtain ⟨he, hid⟩ := fileOf_eq_iff.mp (hp.symm.trans hp')
      by_cases hname : nameOf d c = nameOf d' c'
      · obtain ⟨hd, hc⟩ := records_mem hr
        obtain ⟨hd', hc'⟩ := records_mem hr'
        obtain ⟨rfl, rfl⟩ := same_channel h hd hc hd' hc' hname
        exact ⟨rfl, ending_injective hs hr hr' he⟩
      · exact absurd (sanitized_eq_iff.mp hid) (hs.files d c part d' c' part' hr hr' hname he)

theorem follower_records : ∃ d c, Records sampleTeleop d c (.state .jointPosition) ∧
    Records sampleTeleop d c (.command .jointPosition) := by
  have hdevice : sampleArm "follower" "bus-f" ∈ sampleTeleop.devices :=
    List.mem_cons_of_mem _ (List.mem_cons_of_mem _ List.mem_cons_self)
  refine ⟨sampleArm "follower" "bus-f", _, ⟨⟨hdevice, List.mem_cons_self, rfl, rfl⟩, ?_, ?_⟩,
    samplePairing "leader" "follower", ⟨List.mem_cons_self, ?_, ?_⟩, rfl⟩
  · exact List.mem_cons_self
  · decide
  · decide +kernel
  · decide +kernel

/-- A follower whose positions are recorded loses them: its actions are written over them. -/
theorem teleop_overwritten : sampleTeleop.validate rationals = .ok () ∧
    ¬ NamesApart rationals sampleTeleop := by
  refine ⟨sampleTeleop_valid, ?_⟩
  intro hn
  obtain ⟨d, c, hstate, hcommand⟩ := follower_records
  have hpart := (hn.same_part (validate_iff.mp sampleTeleop_valid) hstate hcommand rfl rfl).2
  cases hpart

def sampleApart : ProjectConfig ℚ :=
  sampleProject [sampleCamera, sampleArm "leader" "bus-l",
    { name := "follower", driver := "play", id := "can1", busRoot := "bus-f"
      channels := [{ channelType := "arm", kind := .robot, mode := some .freeDrive, dof := some 2
                     publishStates := [.jointPosition, .jointVelocity]
                     recordedStates := [.jointVelocity] }] }]
    [samplePairing "leader" "follower"]

theorem sampleApart_names : ∀ d ∈ sampleApart.devices, ∀ c ∈ d.channels,
    ∀ d' ∈ sampleApart.devices, ∀ c' ∈ d'.channels, nameOf d c ≠ nameOf d' c' →
      idOf d c ≠ idOf d' c' ∧ dotted (idOf d c) ≠ dotted (idOf d' c') ∧
        channelPrefixV2 d.busRoot c.channelType ≠ channelPrefixV2 d'.busRoot c'.channelType ∧
        sanitizeComponent (idOf d c) ≠ sanitizeComponent (idOf d' c') := by
  decide +kernel

theorem sampleApart_commands : ∀ d ∈ sampleApart.devices, ∀ c ∈ d.channels,
    ∀ kind ∈ c.publishStates, kind ∈ recordedStatesOf c → ∀ p ∈ sampleApart.pairings,
      p.followerDevice = d.name → kind.topicSuffix ≠ p.followerCommand.topicSuffix := by
  decide +kernel

theorem velocities_kept : NamesApart rationals sampleApart := by
  have hnames {d d' : BinaryDeviceConfig ℚ} {c c' : DeviceChannelConfigV2 ℚ}
      (h : TwoRun sampleApart d c d' c') :=
    sampleApart_names d h.runs.device c h.runs.channel d' h.runs'.device c' h.runs'.channel
      h.differ
  refine (names_apart_iff (by decide +kernel)).mpr ⟨?_, ?_, ?_, ?_, ?_⟩
  · intro d c d' c' h hrun
    exact (hnames h).1 (ids_eq_iff.mpr hrun)
  · intro d c d' c' h _ hrun
    exact (hnames h).2.1 (dotted_eq_iff.mpr hrun)
  · intro d c d' c' h hrun
    exact (hnames h).2.2.1 (prefix_eq_iff.mpr hrun)
  · intro d c part d' c' part' hr hr' hne _ hrun
    obtain ⟨hd, hc⟩ := records_mem hr
    obtain ⟨hd', hc'⟩ := records_mem hr'
    exact (sampleApart_names d hd c hc d' hd' c' hc' hne).2.2.2 (sanitized_eq_iff.mpr hrun)
  · rintro d c kind _ ⟨hr, hs, hk⟩ ⟨p, hf, rfl⟩
    exact sampleApart_commands d hr.device c hr.channel kind hs hk p hf.pairing
      (deviceNamed_eq_some hf.device).2.symm

end Apart

end DistinctNames
