import Rollio.ResolvedChannels

/-! Which accepted projects derive configurations that their child processes accept. -/
namespace StartableProjects
open BusMessages RuntimeConfig TeleopConfig EncoderConfigs DeviceConfigs ProjectConfigs Outcomes
open AcceptedProjects DerivedConfigs ResolvedChannels
open Text (blank isWhitespace)

variable {α : Type} {platform : Platform α} {config : ProjectConfig α}
variable {d : BinaryDeviceConfig α} {c : DeviceChannelConfigV2 α}

/-- What the preview encoder of a camera channel checks of its preview settings. -/
structure Previewable (c : DeviceChannelConfigV2 α) : Prop where
  size : ∀ profile, c.profile = some profile →
    previewResizePolicy profile.pixelFormat (previewConfigOf c) = .dynamic →
      (previewConfigOf c).width ≠ 0 ∧ (previewConfigOf c).height ≠ 0
  fps : (previewConfigOf c).fps ≠ 0 ∧ ¬ (previewConfigOf c).fps > 1000
  gopSeconds : (previewConfigOf c).gopSeconds ≠ 0
  jpegQuality : 1 ≤ (previewConfigOf c).jpegQuality ∧ (previewConfigOf c).jpegQuality ≤ 100
  codecs : (previewConfigOf c).outputMode = .encoded →
    (previewConfigOf c).colorCodec = .h264 ∧ (previewConfigOf c).depthCodec = .rvl

/-- A camera is recorded, and every camera that is previewed has proper preview settings. -/
structure Startable (config : ProjectConfig α) : Prop where
  camera : ∃ d ∈ config.devices, ∃ c ∈ d.channels, c.kind = .camera ∧ c.enabled ∧ c.recordEnabled
  previews : ∀ d ∈ config.devices, ∀ c ∈ d.channels, c.kind = .camera → c.enabled →
    c.previewEnabled → Previewable c

section Names

theorem not_blank_append_left {s : String} (t : String) (h : blank s = false) :
    blank (s ++ t) = false := by
  simp only [blank, String.toList_append, List.all_append, Bool.and_eq_false_iff]
  exact .inl h

theorem not_blank_append {t : String} (s : String) (h : blank t = false) :
    blank (s ++ t) = false := by
  simp only [blank, String.toList_append, List.all_append, Bool.and_eq_false_iff]
  exact .inr h

/-- An id of a channel has a separator in it. -/
theorem deviceChannelId_not_blank (deviceName channelType : String) :
    blank (deviceChannelId deviceName channelType) = false :=
  not_blank_append_left _ (not_blank_append _ (by decide))

theorem robotStateTopic_not_blank (busRoot channelType : String) (state : RobotStateKind) :
    blank (robotStateTopicV2 busRoot channelType state) = false :=
  not_blank_append_left _ (not_blank_append _ (by decide))

theorem robotCommandTopic_not_blank (busRoot channelType : String) (command : RobotCommandKind) :
    blank (robotCommandTopicV2 busRoot channelType command) = false :=
  not_blank_append_left _ (not_blank_append _ (by decide))

theorem stagingRoot_not_blank (stagingRoot : String) :
    blank (episodeStagingRootV2 stagingRoot) = false := by
  unfold episodeStagingRootV2
  split
  · decide
  · exact not_blank_append _ (by decide)
  · exact not_blank_append _ (by decide)

theorem assemblerProcessId_not_blank (format : EpisodeFormat) :
    blank (assemblerProcessIdForFormat format) = false := by
  cases format <;> decide

theorem teleopProcessId_not_blank (p : ChannelPairingConfig α) :
    blank (teleopProcessId p) = false := by
  unfold teleopProcessId
  repeat apply not_blank_append_left
  decide

end Names

section Checks

theorem previewConfig_validate_iff {p : PreviewEncoderConfig} :
    p.validate = .ok () ↔ blank p.controlTopic = false ∧ (p.width ≠ 0 ∧ p.height ≠ 0) ∧
      (p.fps ≠ 0 ∧ ¬ p.fps > 1000) ∧ p.gopSeconds ≠ 0 ∧
      (1 ≤ p.jpegQuality ∧ p.jpegQuality ≤ 100) ∧
      (p.outputMode = .encoded →
        p.colorCodec = .h264 ∧ p.depthCodec = .rvl ∧ p.packetTopic.all blank = false) ∧
      (p.outputMode = .jpeg → p.resizePolicy ≠ .fixedSource ∧ p.jpegTopic.all blank = false) := by
  cases hmode : p.outputMode with
  | encoded =>
    simp only [PreviewEncoderConfig.validate, hmode, check_eq_ok, last_check_eq_ok, not_or,
      not_not, Bool.not_eq_true, ne_eq, reduceCtorEq, true_imp_iff, false_imp_iff, and_true]
  | jpeg =>
    simp only [PreviewEncoderConfig.validate, hmode, check_eq_ok, last_check_eq_ok, not_or,
      not_not, Bool.not_eq_true, ne_eq, reduceCtorEq, true_imp_iff, false_imp_iff, true_and]

structure Labelled (e : EncoderRuntimeConfigV2) : Prop where
  processId : blank e.processId = false
  channelId : blank e.channelId = false
  frameTopic : blank e.frameTopic = false

theorem recordingRole_validate_iff {e : EncoderRuntimeConfigV2} {r : RecordingEncoderConfig}
    (hnames : Labelled e) (hrole : e.role = .recording) (hr : e.recording = some r)
    (hp : e.preview = none) : e.validate = .ok () ↔ r.validate = .ok () := by
  simp [EncoderRuntimeConfigV2.validate, hrole, hr, hp, hnames.processId, hnames.channelId,
    hnames.frameTopic, okOr]

theorem previewRole_validate_iff {e : EncoderRuntimeConfigV2} {p : PreviewEncoderConfig}
    (hnames : Labelled e) (hrole : e.role = .preview) (hp : e.preview = some p)
    (hr : e.recording = none) : e.validate = .ok () ↔ p.validate = .ok () := by
  simp [EncoderRuntimeConfigV2.validate, hrole, hr, hp, hnames.processId, hnames.channelId,
    hnames.frameTopic, okOr]

theorem error_else_eq_ok {p : Prop} [Decidable p] {e : String} {x : Except String Unit} :
    (if p then .error e else x) = .ok () ↔ ¬ p ∧ x = .ok () := by
  by_cases hp : p
  · rw [if_pos hp]
    exact ⟨fun h => (by cases h), fun h => absurd hp h.1⟩
  · rw [if_neg hp]
    exact ⟨fun h => ⟨hp, h⟩, And.right⟩

structure Counted (a : AssemblerRuntimeConfigV2) : Prop where
  fps : a.fps ≠ 0 ∧ ¬ a.fps > 1000
  chunkSize : a.chunkSize ≠ 0
  missingEosTimeoutMs : a.missingEosTimeoutMs ≠ 0
  stagingSlots : a.stagingSlots ≠ 0 ∧ ¬ a.stagingSlots > 64

theorem assemblerConfig_validate_iff {a : AssemblerRuntimeConfigV2}
    (hprocess : blank a.processId = false) (hstaging : blank a.stagingDir = false)
    (hcounted : Counted a)
    (htopics : ∀ camera ∈ a.cameras, blank camera.recordingPacketTopic = false)
    (hembedded : blank a.embeddedConfigToml = false) : a.validate = .ok () ↔ a.cameras ≠ [] := by
  have hfound : a.cameras.find? (fun camera => blank camera.recordingPacketTopic) = none := by
    apply List.find?_eq_none.mpr
    intro camera hcamera
    rw [htopics camera hcamera]
    exact Bool.false_ne_true
  simp only [AssemblerRuntimeConfigV2.validate, error_else_eq_ok, hfound, hprocess, hstaging,
    hembedded]
  simp [hcounted.fps, hcounted.chunkSize, hcounted.missingEosTimeoutMs, hcounted.stagingSlots]

end Checks

section Recording
variable {camera : ResolvedCameraChannel}

theorem CameraOf.checkedProfile (hr : CameraOf config d c camera) (h : Accepted platform config) :
    camera.width ≠ 0 ∧ camera.height ≠ 0 ∧ camera.fps ≠ 0 ∧ ¬ camera.fps > 1000 ∧
      ∃ profile, c.profile = some profile ∧ camera.pixelFormat = profile.pixelFormat := by
  obtain ⟨profile, hp, hw, hh, hf, hformat⟩ := hr.profile
  obtain ⟨checked, hp', hchecked⟩ :=
    ((camera_validate_iff hr.kind).mp ((h.devices d hr.device).channels c hr.channel)).profile
  obtain rfl := Option.some.inj (hp.symm.trans hp')
  simp only [CameraChannelProfile.validate, check_eq_ok] at hchecked
  obtain ⟨hsize, hfps, -⟩ := hchecked
  rw [not_or] at hsize hfps
  exact ⟨hw ▸ hsize.1, hh ▸ hsize.2, hf ▸ hfps.1, hf ▸ hfps.2, profile, hp, hformat⟩

theorem CameraOf.channelId_not_blank (hr : CameraOf config d c camera) :
    blank camera.channelId = false := by
  rw [hr.channelId]
  exact deviceChannelId_not_blank _ _

theorem CameraOf.frameTopic_not_blank (hr : CameraOf config d c camera) :
    blank camera.frameTopic = false := by
  rw [hr.frameTopic]
  exact not_blank_append _ (by decide)

/-- The recording encoder of an accepted project's camera accepts its configuration. -/
theorem recordingEncoder_valid (hr : CameraOf config d c camera) (h : Accepted platform config) :
    (recordingEncoderConfig config camera).validate = .ok () := by
  obtain ⟨-, -, hf, hf', -⟩ := CameraOf.checkedProfile hr h
  have hrecord := h.records d hr.device c hr.channel hr.kind hr.enabled
  rw [← hr.recordConfig h, encoderConfig_validate_iff] at hrecord
  obtain ⟨hqueue, hcrf, hdepth, hpreset, htune, -⟩ := hrecord
  have hnames : Labelled (recordingEncoderConfig config camera) :=
    ⟨not_blank_append_left _ (by decide), CameraOf.channelId_not_blank hr,
      CameraOf.frameTopic_not_blank hr⟩
  apply (recordingRole_validate_iff hnames rfl rfl rfl).mpr
  simp only [RecordingEncoderConfig.validate, check_eq_ok, encoderConfig_validate_iff]
  refine ⟨?_, not_or.mpr ⟨hf, hf'⟩, hqueue, hcrf, hdepth, hpreset, htune, preview_defaults_valid⟩
  rw [Bool.not_eq_true]
  exact not_blank_append _ (by decide)

/-- The preview encoder of an accepted project's camera accepts its configuration exactly if its
preview settings are proper. -/
theorem previewEncoder_valid_iff (hr : CameraOf config d c camera)
    (h : Accepted platform config) :
    (previewEncoderConfig config camera).validate = .ok () ↔ Previewable c := by
  obtain ⟨hw, hh, -, -, profile, hprofile, hformat⟩ := CameraOf.checkedProfile hr h
  have hnames : Labelled (previewEncoderConfig config camera) :=
    ⟨not_blank_append_left _ (by decide), CameraOf.channelId_not_blank hr,
      CameraOf.frameTopic_not_blank hr⟩
  have hcontrol : blank (previewControlServiceName camera.busRoot camera.channelType) = false :=
    not_blank_append _ (by decide)
  have hpackets : blank (previewPacketServiceName camera.busRoot camera.channelType) = false :=
    not_blank_append _ (by decide)
  have hjpeg : blank (previewJpegServiceName camera.busRoot camera.channelType) = false :=
    not_blank_append _ (by decide)
  rw [previewRole_validate_iff hnames rfl rfl rfl, previewConfig_validate_iff]
  simp only [hr.previewConfig h, hformat, hcontrol, true_and]
  constructor
  · intro ⟨hsize, hfps, hgop, hquality, hencoded, _⟩
    refine ⟨?_, hfps, hgop, hquality, fun hmode => ?_⟩
    · intro checked hchecked hdynamic
      obtain rfl := Option.some.inj (hprofile.symm.trans hchecked)
      rw [if_pos hdynamic, if_pos hdynamic] at hsize
      exact hsize
    · exact ⟨(hencoded hmode).1, (hencoded hmode).2.1⟩
  · intro hpreviewable
    refine ⟨?_, hpreviewable.fps, hpreviewable.gopSeconds, hpreviewable.jpegQuality, ?_, ?_⟩
    · by_cases hdynamic : previewResizePolicy profile.pixelFormat (previewConfigOf c) = .dynamic
      · rw [if_pos hdynamic, if_pos hdynamic]
        exact hpreviewable.size profile hprofile hdynamic
      · rw [if_neg hdynamic, if_neg hdynamic]
        exact ⟨hw, hh⟩
    · intro hmode
      refine ⟨(hpreviewable.codecs hmode).1, (hpreviewable.codecs hmode).2, ?_⟩
      rw [if_pos hmode]
      exact hpackets
    · intro hmode
      constructor
      · -- The source's size is kept of an encoded preview only.
        unfold previewResizePolicy
        split
        · next hfixed =>
          rw [hmode] at hfixed
          cases hfixed.2.1
        · decide
      · rw [if_pos hmode]
        exact hjpeg

end Recording

theorem encoders_valid_iff (h : Accepted platform config) :
    (∀ e ∈ encoderRuntimeConfigsV2 config, e.validate = .ok ()) ↔
      ∀ d ∈ config.devices, ∀ c ∈ d.channels, c.kind = .camera → c.enabled → c.previewEnabled →
        Previewable c := by
  constructor
  · intro hall d hd c hc hk he hp
    obtain ⟨camera, hmem, hr⟩ := exists_camera h hd hc hk he
    apply (previewEncoder_valid_iff hr h).mp
    apply hall
    apply List.mem_flatMap.mpr
    refine ⟨camera, hmem, List.mem_append_right _ ?_⟩
    rw [if_pos ((hr.previewEnabled h).trans hp)]
    exact List.mem_singleton_self _
  · intro hall e he
    obtain ⟨camera, hmem, he⟩ := List.mem_flatMap.mp he
    obtain ⟨d, c, hr⟩ := camera_of_mem hmem
    rcases List.mem_append.mp he with he | he
    · split at he
      · obtain rfl := List.mem_singleton.mp he
        exact recordingEncoder_valid hr h
      · cases he
    · split at he
      · next hp =>
        obtain rfl := List.mem_singleton.mp he
        have hp := (hr.previewEnabled h).symm.trans hp
        exact (previewEncoder_valid_iff hr h).mpr
          (hall d hr.device c hr.channel hr.kind hr.enabled hp)
      · cases he

theorem assembler_valid_iff (h : Accepted platform config) {embeddedConfigToml : String}
    (hembedded : blank embeddedConfigToml = false) :
    (assemblerRuntimeConfigV2 platform config embeddedConfigToml).validate = .ok () ↔
      ∃ d ∈ config.devices, ∃ c ∈ d.channels, c.kind = .camera ∧ c.enabled ∧ c.recordEnabled := by
  have hepisode := h.episode
  have hassembler := h.assembler
  simp only [EpisodeConfig.validate, AssemblerConfig.validate, check_eq_ok, last_check_eq_ok]
    at hepisode hassembler
  have hcounted : Counted (assemblerRuntimeConfigV2 platform config embeddedConfigToml) :=
    ⟨not_or.mp hepisode.1, hepisode.2, hassembler.1, hassembler.2.2⟩
  rw [@assemblerConfig_validate_iff (assemblerRuntimeConfigV2 platform config embeddedConfigToml)
    (assemblerProcessId_not_blank _) (stagingRoot_not_blank _) hcounted ?_ hembedded]
  · constructor
    · intro hne
      obtain ⟨entry, hentry⟩ := List.exists_mem_of_ne_nil _ hne
      obtain ⟨camera, hcamera, -⟩ := List.mem_map.mp hentry
      obtain ⟨hmem, hrecord⟩ := List.mem_filter.mp hcamera
      obtain ⟨d, c, hr⟩ := camera_of_mem hmem
      exact ⟨d, hr.device, c, hr.channel, hr.kind, hr.enabled,
        (hr.recordEnabled h).symm.trans hrecord⟩
    · rintro ⟨d, hd, c, hc, hk, he, hrecord⟩
      obtain ⟨camera, hmem, hr⟩ := exists_camera h hd hc hk he
      apply List.ne_nil_of_mem
      apply List.mem_map_of_mem
      exact List.mem_filter.mpr ⟨hmem, (hr.recordEnabled h).trans hrecord⟩
  · intro entry hentry
    obtain ⟨camera, -, rfl⟩ := List.mem_map.mp hentry
    exact not_blank_append _ (by decide)

theorem teleops_valid (h : Accepted platform config) :
    ∀ t ∈ teleopRuntimeConfigsV2 platform config, t.validate platform.isFinite = .ok () := by
  intro t ht
  obtain ⟨p, -, ld, l, fd, f, ha, rfl⟩ := (mem_teleops h).mp ht
  have hscales : (p.jointScales.any fun scale => !platform.isFinite scale) = false := by
    simpa using ha.jointScales
  simp only [TeleopRuntimeConfigV2.validate, teleopConfigFor, teleopProcessId_not_blank,
    deviceChannelId_not_blank, robotStateTopic_not_blank, robotCommandTopic_not_blank, hscales,
    Bool.or_self, Bool.false_eq_true, if_false]

/-- The child processes of an accepted project accept what is derived for them exactly if a camera
is recorded and the previewed cameras have proper preview settings. -/
theorem derived_configs_valid_iff (hvalid : config.validate platform = .ok ())
    {embeddedConfigToml : String} (hembedded : blank embeddedConfigToml = false) :
    ((∀ e ∈ encoderRuntimeConfigsV2 config, e.validate = .ok ()) ∧
      (assemblerRuntimeConfigV2 platform config embeddedConfigToml).validate = .ok () ∧
      ∀ t ∈ teleopRuntimeConfigsV2 platform config, t.validate platform.isFinite = .ok ()) ↔
        Startable config := by
  have h := validate_iff.mp hvalid
  rw [encoders_valid_iff h, assembler_valid_iff h hembedded]
  constructor
  · intro ⟨hpreviews, hcamera, _⟩
    exact ⟨hcamera, hpreviews⟩
  · intro hs
    exact ⟨hs.previews, hs.camera, teleops_valid h⟩

theorem teleop_starts :
    (∀ e ∈ encoderRuntimeConfigsV2 sampleTeleop, e.validate = .ok ()) ∧
      (assemblerRuntimeConfigV2 rationals sampleTeleop "project_name = \"default\"").validate =
        .ok () ∧
      ∀ t ∈ teleopRuntimeConfigsV2 rationals sampleTeleop,
        t.validate rationals.isFinite = .ok () := by
  apply (@derived_configs_valid_iff ℚ rationals sampleTeleop (by decide +kernel) _ (by decide)).mpr
  have hcamera : ∀ d ∈ sampleTeleop.devices, ∀ c ∈ d.channels, c.kind = .camera →
      previewConfigOf c = {} := by decide +kernel
  constructor
  · decide +kernel
  · intro d hd c hc hk _ _
    have hdefault := hcamera d hd c hc hk
    refine ⟨?_, ?_, ?_, ?_, ?_⟩
    all_goals rw [hdefault]
    · intro _ _ _
      decide
    all_goals decide

def stoppedPreview : BinaryDeviceConfig ℚ :=
  { sampleCamera with channels := sampleCamera.channels.map fun c =>
      { c with previewSettings := some { fps := some 0 } } }

/-- Two arms make a valid project, but without a camera its assembler refuses to start. So does the
preview encoder of a camera whose preview settings the checks of the project have not looked at. -/
theorem children_refuse :
    ((sampleProject [sampleArm "leader" "bus-l", sampleArm "follower" "bus-f"] []).validate
        rationals = .ok () ∧
      (assemblerRuntimeConfigV2 rationals
        (sampleProject [sampleArm "leader" "bus-l", sampleArm "follower" "bus-f"] [])
        "project_name = \"default\"").validate =
          .error "assembler runtime v2: at least one camera is required") ∧
    (sampleProject [stoppedPreview] []).validate rationals = .ok () ∧
      (encoderRuntimeConfigsV2 (sampleProject [stoppedPreview] [])).map (·.validate) =
        [.ok (), .error "encoder runtime v2: preview.fps must be 1..1000, got 0"] := by
  decide +kernel

end StartableProjects
