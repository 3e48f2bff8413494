import Mathlib.Data.List.Nodup
import Mathlib.Data.Rat.Defs
import Rollio.ProjectConfigs

/-! What the checks of a project say, check by check. -/
namespace AcceptedProjects
open BusMessages RuntimeConfig TeleopConfig EncoderConfigs DeviceConfigs ProjectConfigs Outcomes
open Text (blank)
open TeleopMapping (maxDof)

variable {α : Type} {platform : Platform α}

structure AcceptedCamera (platform : Platform α) (deviceName : String)
    (c : DeviceChannelConfigV2 α) : Prop where
  channelType : ¬ blank c.channelType
  mode : c.mode = none
  dof : c.dof = none
  publishStates : c.publishStates = []
  recordedStates : c.recordedStates = []
  controlFrequencyHz : c.controlFrequencyHz = none
  profile : ∃ profile, c.profile = some profile ∧
    profile.validate deviceName c.channelType = .ok ()
  commandDefaults :
    validateCommandDefaults platform c.commandDefaults deviceName c.channelType 0 = .ok ()

structure AcceptedRobot (platform : Platform α) (deviceName : String)
    (c : DeviceChannelConfigV2 α) : Prop where
  channelType : ¬ blank c.channelType
  previewEnabled : c.previewEnabled
  dof : ∃ dof, c.dof = some dof ∧ dof ≠ 0 ∧ dof.toNat ≤ maxDof ∧
    validateCommandDefaults platform c.commandDefaults deviceName c.channelType dof.toNat = .ok ()
  mode : c.enabled → c.mode ≠ none
  publishStates : c.enabled → c.publishStates ≠ []
  recordedStates : c.recordedStates ⊆ c.publishStates
  profile : c.profile = none
  controlFrequencyHz : ∀ freq, c.controlFrequencyHz = some freq →
    platform.isFinite freq ∧ ¬ platform.nonPositive freq

theorem camera_validate_iff {deviceName : String} {c : DeviceChannelConfigV2 α}
    (hk : c.kind = .camera) :
    c.validate platform deviceName = .ok () ↔ AcceptedCamera platform deviceName c := by
  simp only [DeviceChannelConfigV2.validate, hk, bind_eq_ok, exists_unit, check_eq_ok,
    okOr_eq_ok, not_or, not_not, ne_eq, Bool.not_eq_true, Option.isSome_eq_false_iff, Option.isNone_iff_eq_none]
  constructor
  · rintro ⟨h₁, h₂, h₃, ⟨h₄, h₅⟩, h₆, profile, h₇, h₈, h₉⟩
    exact ⟨by simp [h₁], h₂, h₃, h₄, h₅, h₆, ⟨profile, h₇, h₈⟩, h₉⟩
  · rintro ⟨h₁, h₂, h₃, h₄, h₅, h₆, ⟨profile, h₇, h₈⟩, h₉⟩
    exact ⟨by simpa using h₁, h₂, h₃, ⟨h₄, h₅⟩, h₆, profile, h₇, h₈, h₉⟩

theorem robot_validate_iff {deviceName : String} {c : DeviceChannelConfigV2 α}
    (hk : c.kind = .robot) :
    c.validate platform deviceName = .ok () ↔ AcceptedRobot platform deviceName c := by
  simp only [DeviceChannelConfigV2.validate, hk, bind_eq_ok, exists_unit,
    check_eq_ok, okOr_eq_ok,
    option_forM_eq_ok, throw_eq_ok]
  constructor
  · rintro ⟨h₁, h₂, dof, h₃, h₄, h₅, h₆, h₇, h₈, h₉, h₁₀⟩
    refine ⟨h₁, not_not.mp h₂, ⟨dof, h₃, fun h => h₄ (.inl h), ?_, h₁₀⟩, ?_, ?_, ?_, ?_, ?_⟩
    · exact Nat.not_lt.mp fun h => h₄ (.inr h)
    · intro he hm
      exact h₅ ⟨he, by rw [hm]; rfl⟩
    · intro he hp
      exact h₆ ⟨he, hp⟩
    · intro state hs
      by_contra hn
      exact h₇ (List.any_eq_true.mpr ⟨state, hs, decide_eq_true hn⟩)
    · exact Option.eq_none_iff_forall_ne_some.mpr h₈
    · intro freq hf
      simpa [hf] using h₉
  · rintro ⟨h₁, h₂, ⟨dof, h₃, h₄, h₅, h₁₀⟩, hm, hp, hr, h₈, h₉⟩
    refine ⟨h₁, not_not.mpr h₂, dof, h₃, ?_, ?_, ?_, ?_, ?_, ?_, h₁₀⟩
    · rintro (h | h)
      · exact h₄ h
      · omega
    · rintro ⟨he, hn⟩
      exact hm he (Option.isNone_iff_eq_none.mp hn)
    · rintro ⟨he, hn⟩
      exact hp he hn
    · intro h
      obtain ⟨state, hs, hn⟩ := List.any_eq_true.mp h
      exact of_decide_eq_true hn (hr hs)
    · intro profile hf
      rw [h₈] at hf
      cases hf
    · cases hf : c.controlFrequencyHz with
      | none => simp
      | some freq => simpa using h₉ freq hf

theorem checkChannels_iff {deviceName : String} {seen : List String}
    {channels : List (DeviceChannelConfigV2 α)} :
    checkChannels platform deviceName seen channels = .ok () ↔
      (channels.map (·.channelType)).Nodup ∧
        ∀ c ∈ channels, c.channelType ∉ seen ∧ c.validate platform deviceName = .ok () := by
  induction channels generalizing seen with
  | nil => simp [checkChannels]
  | cons c channels ih =>
    rw [List.forall_mem_cons]
    simp only [checkChannels, bind_eq_ok, exists_unit, check_eq_ok, ih, List.map_cons, List.nodup_cons,
      List.mem_map, List.mem_cons, not_or, not_exists, not_and]
    constructor
    · rintro ⟨hc, hv, hn, hs⟩
      exact ⟨⟨fun d hd => (hs d hd).1.1, hn⟩, ⟨hc, hv⟩, fun d hd => ⟨(hs d hd).1.2, (hs d hd).2⟩⟩
    · rintro ⟨⟨hd, hn⟩, ⟨hc, hv⟩, hs⟩
      exact ⟨hc, hv, hn, fun d hd' => ⟨⟨hd d hd', (hs d hd').1⟩, (hs d hd').2⟩⟩

structure AcceptedDevice (platform : Platform α) (d : BinaryDeviceConfig α) : Prop where
  name : ¬ blank d.name
  driver : ¬ blank d.driver
  executable : ¬ d.executable.any blank
  id : ¬ blank d.id
  busRoot : ¬ blank d.busRoot
  nonempty : d.channels ≠ []
  channelTypes : (d.channels.map (·.channelType)).Nodup
  channels : ∀ c ∈ d.channels, c.validate platform d.name = .ok ()

theorem device_validate_iff {d : BinaryDeviceConfig α} :
    d.validate platform = .ok () ↔ AcceptedDevice platform d := by
  simp only [BinaryDeviceConfig.validate, check_eq_ok, checkChannels_iff]
  constructor
  · rintro ⟨h₁, h₂, h₃, h₄, h₅, h₆, h₇, h₈⟩
    exact ⟨h₁, h₂, h₃, h₄, h₅, h₆, h₇, fun c hc => (h₈ c hc).2⟩
  · rintro ⟨h₁, h₂, h₃, h₄, h₅, h₆, h₇, h₈⟩
    exact ⟨h₁, h₂, h₃, h₄, h₅, h₆, h₇, fun c hc => ⟨List.not_mem_nil, h₈ c hc⟩⟩

theorem checkDevices_iff {names busRoots : List String} {devices : List (BinaryDeviceConfig α)} :
    checkDevices platform names busRoots devices = .ok () ↔
      ((devices.map (·.name)).Nodup ∧ (devices.map (·.busRoot)).Nodup) ∧
        ∀ d ∈ devices, (d.name ∉ names ∧ d.busRoot ∉ busRoots) ∧ AcceptedDevice platform d := by
  induction devices generalizing names busRoots with
  | nil => simp [checkDevices]
  | cons d devices ih =>
    rw [List.forall_mem_cons]
    simp only [checkDevices, bind_eq_ok, exists_unit, check_eq_ok, ih, device_validate_iff,
      List.map_cons, List.nodup_cons, List.mem_map, List.mem_cons, not_or, not_exists, not_and]
    constructor
    · rintro ⟨hn, hb, hd, ⟨hns, hbs⟩, hs⟩
      exact ⟨⟨⟨fun e he => (hs e he).1.1.1, hns⟩, ⟨fun e he => (hs e he).1.2.1, hbs⟩⟩,
        ⟨⟨hn, hb⟩, hd⟩, fun e he => ⟨⟨(hs e he).1.1.2, (hs e he).1.2.2⟩, (hs e he).2⟩⟩
    · rintro ⟨⟨⟨hne, hns⟩, ⟨hbe, hbs⟩⟩, ⟨⟨hn, hb⟩, hd⟩, hs⟩
      exact ⟨hn, hb, hd, ⟨hns, hbs⟩, fun e he =>
        ⟨⟨⟨hne e he, (hs e he).1.1⟩, hbe e he, (hs e he).1.2⟩, (hs e he).2⟩⟩

/-- What the check of one pairing finds before it turns to the mapping policy. -/
structure AcceptedPairing (platform : Platform α) (config : ProjectConfig α)
    (p : ChannelPairingConfig α) (leaderDevice : BinaryDeviceConfig α)
    (leader : DeviceChannelConfigV2 α) (followerDevice : BinaryDeviceConfig α)
    (follower : DeviceChannelConfigV2 α) : Prop where
  leaderHost : config.deviceNamed p.leaderDevice = some leaderDevice
  followerHost : config.deviceNamed p.followerDevice = some followerDevice
  leaderFound : leaderDevice.channelNamed p.leaderChannelType = some leader
  followerFound : followerDevice.channelNamed p.followerChannelType = some follower
  leaderKind : leader.kind = .robot
  followerKind : follower.kind = .robot
  differ : ¬ (p.leaderDevice = p.followerDevice ∧ p.leaderChannelType = p.followerChannelType)
  leaderState : p.leaderState ∈ leader.publishStates
  mapping : p.validateMapping platform leaderDevice leader followerDevice follower = .ok ()
  jointScales : ∀ scale ∈ p.jointScales, platform.isFinite scale

theorem pairing_validate_iff {config : ProjectConfig α} {p : ChannelPairingConfig α} :
    p.validate platform config = .ok () ↔ ∃ leaderDevice leader followerDevice follower,
      AcceptedPairing platform config p leaderDevice leader followerDevice follower := by
  simp only [ChannelPairingConfig.validate, bind_eq_ok, exists_unit, check_eq_ok,
    okOr_eq_ok, last_check_eq_ok]
  constructor
  · rintro ⟨ld, h₁, fd, h₂, l, h₃, f, h₄, h₅, h₆, h₇, h₈, h₉⟩
    refine ⟨ld, l, fd, f, h₁, h₂, h₃, h₄, ?_, ?_, h₆, not_not.mp h₇, h₈, ?_⟩
    · exact not_not.mp fun h => h₅ (.inl h)
    · exact not_not.mp fun h => h₅ (.inr h)
    · simpa using h₉
  · rintro ⟨ld, l, fd, f, h₁, h₂, h₃, h₄, hl, hf, h₆, h₇, h₈, h₉⟩
    refine ⟨ld, h₁, fd, h₂, l, h₃, f, h₄, ?_, h₆, not_not.mpr h₇, h₈, ?_⟩
    · rintro (h | h)
      · exact h hl
      · exact h hf
    · simpa using h₉

section Mappings
variable {config : ProjectConfig α} {p : ChannelPairingConfig α}
  {leaderDevice followerDevice : BinaryDeviceConfig α} {leader follower : DeviceChannelConfigV2 α}

/-- The joints of a direct-joint pairing: one entry of the map and one scale for each joint of
the follower, or else at least as many leader joints. -/
structure JointsFit (p : ChannelPairingConfig α) (leader follower : DeviceChannelConfigV2 α) :
    Prop where
  identity : p.jointIndexMap = [] → follower.dof.getD 0 ≤ leader.dof.getD 0
  indexMap : p.jointIndexMap ≠ [] → p.jointIndexMap.length = (follower.dof.getD 0).toNat ∧
    ∀ joint ∈ p.jointIndexMap, joint < leader.dof.getD 0
  scales : p.jointScales ≠ [] → p.jointScales.length = (follower.dof.getD 0).toNat

theorem jointsFit_of_valid
    (h : p.validateDirectJointDofAndIndexMap leader follower = .ok ()) :
    JointsFit p leader follower := by
  unfold ChannelPairingConfig.validateDirectJointDofAndIndexMap at h
  by_cases hm : p.jointIndexMap = []
  · simp only [hm, if_true, check_eq_ok, UInt32.not_lt] at h
    obtain ⟨hdof, h⟩ := h
    refine ⟨fun _ => hdof, fun hne => absurd hm hne, fun hs => ?_⟩
    simpa only [hs, ne_eq, not_false_eq_true, if_true, last_check_eq_ok, not_not] using h
  · simp only [hm, if_false, check_eq_ok, bind_eq_ok, exists_unit, list_forM_eq_ok,
      last_check_eq_ok, UInt32.not_le, ne_eq, not_not, ge_iff_le] at h
    obtain ⟨hlen, hjoints, h⟩ := h
    refine ⟨fun he => absurd he hm, fun _ => ⟨hlen, fun joint hj => ?_⟩, fun hs => ?_⟩
    · obtain ⟨i, hi, rfl⟩ := List.mem_iff_getElem.mp hj
      exact hjoints (p.jointIndexMap[i], i) (List.mk_mem_zipIdx_iff_getElem?.mpr (by simp [hi]))
    · simp only [hs, not_false_eq_true, if_true, last_check_eq_ok, not_not] at h
      exact h.trans hlen

theorem AcceptedPairing.directJoint
    (h : AcceptedPairing platform config p leaderDevice leader followerDevice follower)
    (hm : p.mapping = .directJoint) : p.leaderState = .jointPosition ∧
      p.followerCommand = .jointPosition ∧ JointsFit p leader follower := by
  have hv := h.mapping
  simp only [ChannelPairingConfig.validateMapping, hm, check_eq_ok, bind_eq_ok, exists_unit,
    not_not, ne_eq] at hv
  exact ⟨hv.1, hv.2.1, jointsFit_of_valid hv.2.2.2.1⟩

theorem AcceptedPairing.parallel
    (h : AcceptedPairing platform config p leaderDevice leader followerDevice follower)
    (hm : p.mapping = .parallel) : leader.dof = some 1 ∧ follower.dof = some 1 ∧
      p.leaderState = .parallelPosition ∧
      (p.followerCommand = .parallelPosition ∨ p.followerCommand = .parallelMit) := by
  have hv := h.mapping
  simp only [ChannelPairingConfig.validateMapping, hm, check_eq_ok, not_or, not_not, ne_eq] at hv
  exact ⟨hv.1.1, hv.1.2, hv.2.1, or_iff_not_and_not.mpr hv.2.2.1⟩

end Mappings

/-- Everything the checks of a project establish, in their order. -/
structure Accepted (platform : Platform α) (config : ProjectConfig α) : Prop where
  projectName : ¬ blank config.projectName
  episode : config.episode.validate = .ok ()
  nonempty : config.devices ≠ []
  names : (config.devices.map (·.name)).Nodup
  busRoots : (config.devices.map (·.busRoot)).Nodup
  devices : ∀ d ∈ config.devices, AcceptedDevice platform d
  pairings : ∀ p ∈ config.pairings, p.validate platform config = .ok ()
  records : ∀ d ∈ config.devices, ∀ c ∈ d.channels, c.kind = .camera → c.enabled →
    (recordConfigOf c).validate = .ok ()
  previews : ∀ d ∈ config.devices, ∀ c ∈ d.channels, c.kind = .camera → c.enabled →
    c.previewEnabled → (previewConfigOf c).outputMode ≠ .encoded →
    ∀ profile, c.profile = some profile → profile.pixelFormat ≠ .h264AnnexB
  assembler : config.assembler.validate = .ok ()
  storage : config.storage.validate = .ok ()
  monitor : config.monitor.validate platform = .ok ()
  controller : config.controller.validate = .ok ()
  visualizer : config.visualizer.validate = .ok ()
  ui : config.ui.validate = .ok ()

theorem records_iff {config : ProjectConfig α} :
    config.validatePerChannelEncoderConfigs = .ok () ↔
      ∀ d ∈ config.devices, ∀ c ∈ d.channels, c.kind = .camera → c.enabled →
        (recordConfigOf c).validate = .ok () := by
  simp only [ProjectConfig.validatePerChannelEncoderConfigs, list_forM_eq_ok]
  apply forall₄_congr
  intro d _ c _
  by_cases hs : c.kind ≠ .camera ∨ (!c.enabled) = true
  · rw [if_pos hs]
    simp only [pure_eq_ok, true_iff]
    intro hk he
    rcases hs with h | h
    · exact absurd hk h
    · simp [he] at h
  · rw [if_neg hs, mapError_eq_ok]
    have hs : c.kind = .camera ∧ c.enabled = true := by simpa using hs
    exact ⟨fun h _ _ => h, fun h => h hs.1 hs.2⟩

theorem previews_iff {config : ProjectConfig α} :
    config.validatePreviewCompatibility = .ok () ↔
      ∀ d ∈ config.devices, ∀ c ∈ d.channels, c.kind = .camera → c.enabled →
        c.previewEnabled → (previewConfigOf c).outputMode ≠ .encoded →
        ∀ profile, c.profile = some profile → profile.pixelFormat ≠ .h264AnnexB := by
  simp only [ProjectConfig.validatePreviewCompatibility, list_forM_eq_ok]
  apply forall₄_congr
  intro d _ c _
  by_cases hs : c.kind ≠ .camera ∨ (!c.enabled) = true ∨ (!c.previewEnabled) = true
  · rw [if_pos hs]
    simp only [pure_eq_ok, true_iff]
    intro hk he hp
    rcases hs with h | h | h
    · exact absurd hk h
    · simp [he] at h
    · simp [hp] at h
  · rw [if_neg hs]
    have hs : c.kind = .camera ∧ c.enabled = true ∧ c.previewEnabled = true := by simpa using hs
    by_cases ho : (previewConfigOf c).outputMode = .encoded
    · rw [if_pos ho]
      exact ⟨fun _ _ _ _ h => absurd ho h, fun _ => rfl⟩
    · rw [if_neg ho, last_check_eq_ok]
      cases hc : c.profile with
      | none => simp
      | some profile => simp [hs, ho]

theorem validate_iff {config : ProjectConfig α} :
    config.validate platform = .ok () ↔ Accepted platform config := by
  simp only [ProjectConfig.validate, bind_eq_ok, exists_unit, check_eq_ok, list_forM_eq_ok,
    checkDevices_iff, records_iff, previews_iff]
  constructor
  · rintro ⟨h₁, h₂, h₃, ⟨⟨h₄, h₅⟩, h₆⟩, h₇, h₈, h₉, h₁₀, h₁₁, h₁₂, h₁₃, h₁₄, h₁₅⟩
    exact ⟨h₁, h₂, h₃, h₄, h₅, fun d hd => (h₆ d hd).2, h₇, h₈, h₉, h₁₀, h₁₁, h₁₂, h₁₃, h₁₄, h₁₅⟩
  · rintro ⟨h₁, h₂, h₃, h₄, h₅, h₆, h₇, h₈, h₉, h₁₀, h₁₁, h₁₂, h₁₃, h₁₄, h₁₅⟩
    exact ⟨h₁, h₂, h₃, ⟨⟨h₄, h₅⟩, fun d hd => ⟨⟨List.not_mem_nil, List.not_mem_nil⟩, h₆ d hd⟩⟩,
      h₇, h₈, h₉, h₁₀, h₁₁, h₁₂, h₁₃, h₁₄, h₁₅⟩

theorem find?_keyed {β : Type} {key : β → String} {l : List β} {a : β}
    (hn : (l.map key).Nodup) (ha : a ∈ l) : (l.find? fun b => key b == key a) = some a := by
  induction l with
  | nil => exact absurd ha List.not_mem_nil
  | cons b l ih =>
    rw [List.map_cons, List.nodup_cons] at hn
    rcases List.mem_cons.mp ha with rfl | ha
    · rw [List.find?_cons_of_pos (by simp)]
    · have hb : key b ≠ key a := fun he => hn.1 (he ▸ List.mem_map_of_mem ha)
      rw [List.find?_cons_of_neg (by simpa using hb)]
      exact ih hn.2 ha

theorem deviceNamed_eq_some {config : ProjectConfig α} {name : String} {d : BinaryDeviceConfig α}
    (h : config.deviceNamed name = some d) : d ∈ config.devices ∧ d.name = name :=
  ⟨List.mem_of_find?_eq_some h, by simpa using List.find?_some h⟩

theorem channelNamed_eq_some {d : BinaryDeviceConfig α} {channelType : String}
    {c : DeviceChannelConfigV2 α} (h : d.channelNamed channelType = some c) :
    c ∈ d.channels ∧ c.channelType = channelType :=
  ⟨List.mem_of_find?_eq_some h, by simpa using List.find?_some h⟩

theorem Accepted.deviceNamed {config : ProjectConfig α} (h : Accepted platform config)
    {d : BinaryDeviceConfig α} (hd : d ∈ config.devices) : config.deviceNamed d.name = some d :=
  find?_keyed h.names hd

theorem AcceptedDevice.channelNamed {d : BinaryDeviceConfig α} (h : AcceptedDevice platform d)
    {c : DeviceChannelConfigV2 α} (hc : c ∈ d.channels) :
    d.channelNamed c.channelType = some c :=
  find?_keyed h.channelTypes hc

def rationals : Platform ℚ :=
  { isFinite := fun _ => true
    nonPositive := fun x => x ≤ 0
    isZero := fun x => x = 0
    display := fun x => toString x
    debugStr := fun s => "\"" ++ s ++ "\""
    sixty := 60
    teleopSyncMaxStepRad := 1 / 200
    teleopSyncCompleteThresholdRad := 1 / 20 }

def sampleArm (name busRoot : String) : BinaryDeviceConfig ℚ :=
  { name, driver := "play", id := "can0", busRoot
    channels := [{ channelType := "arm", kind := .robot, mode := some .freeDrive, dof := some 2
                   publishStates := [.jointPosition] }] }

def sampleCamera : BinaryDeviceConfig ℚ :=
  { name := "cam", driver := "v4l2", id := "video0", busRoot := "cam"
    channels := [{ channelType := "color", kind := .camera
                   profile := some ⟨640, 480, 30, .yuyv, none, none, none, none, none, none, none⟩ }] }

def samplePairing (leader follower : String) : ChannelPairingConfig ℚ :=
  { leaderDevice := leader, leaderChannelType := "arm", followerDevice := follower
    followerChannelType := "arm", leaderState := .jointPosition
    followerCommand := .jointPosition }

def sampleProject (devices : List (BinaryDeviceConfig ℚ))
    (pairings : List (ChannelPairingConfig ℚ)) : ProjectConfig ℚ :=
  { devices, pairings, monitor := { metricsFrequencyHz := 1 }, visualizer := { port := 19090 } }

def sampleTeleop : ProjectConfig ℚ :=
  sampleProject [sampleCamera, sampleArm "leader" "bus-l", sampleArm "follower" "bus-f"]
    [samplePairing "leader" "follower"]

theorem sampleTeleop_valid : sampleTeleop.validate rationals = .ok () := by decide +kernel

end AcceptedProjects
