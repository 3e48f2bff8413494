import Mathlib.Data.List.Find
import Rollio.AcceptedProjects
import Rollio.SetupPairings

/-! Accepted projects some of whose channels are edited in place. -/
namespace EditedProjects
open BusMessages RuntimeConfig TeleopConfig DeviceConfigs ProjectConfigs Outcomes AcceptedProjects
open SetupState SetupPairings
open FirstMatch (modifyFirst modifyFirst_keyed modifyFirst_of_fixed)

variable {α : Type} {platform : Platform α}

def editDevice (edit : String → DeviceChannelConfigV2 α → DeviceChannelConfigV2 α)
    (d : BinaryDeviceConfig α) : BinaryDeviceConfig α :=
  { d with channels := d.channels.map (edit d.name) }

def editChannels (config : ProjectConfig α)
    (edit : String → DeviceChannelConfigV2 α → DeviceChannelConfigV2 α) : ProjectConfig α :=
  { config with devices := config.devices.map (editDevice edit) }

/-- What the check of a pairing reads of a channel is as before, or more is published. -/
structure SameShape (c c' : DeviceChannelConfigV2 α) : Prop where
  kind : c'.kind = c.kind
  channelType : c'.channelType = c.channelType
  dof : c'.dof = c.dof
  supportedCommands : c'.supportedCommands = c.supportedCommands
  directJointCompatibility : c'.directJointCompatibility = c.directJointCompatibility
  publishStates : c.publishStates ⊆ c'.publishStates

theorem SameShape.refl (c : DeviceChannelConfigV2 α) : SameShape c c :=
  ⟨rfl, rfl, rfl, rfl, rfl, List.Subset.refl _⟩

theorem validateMapping_shape {p : ChannelPairingConfig α} {ld ld' fd fd' : BinaryDeviceConfig α}
    {l l' f f' : DeviceChannelConfigV2 α} (hld : ld'.driver = ld.driver)
    (hfd : fd'.driver = fd.driver) (hl : SameShape l l') (hf : SameShape f f') :
    p.validateMapping platform ld' l' fd' f' = p.validateMapping platform ld l fd f := by
  simp only [ChannelPairingConfig.validateMapping,
    ChannelPairingConfig.validateDirectJointDofAndIndexMap,
    ChannelPairingConfig.requireDirectJointCompatibility, hld, hfd, hl.dof, hf.dof,
    hf.supportedCommands, hl.directJointCompatibility, hf.directJointCompatibility,
    hl.channelType, hf.channelType]

section Edits
variable {config : ProjectConfig α}
  {edit : String → DeviceChannelConfigV2 α → DeviceChannelConfigV2 α}

theorem deviceNamed_edit (name : String) :
    (editChannels config edit).deviceNamed name = (config.deviceNamed name).map (editDevice edit) := by
  simp only [editChannels, ProjectConfig.deviceNamed, List.find?_map]
  rfl

theorem channelNamed_edit {d : BinaryDeviceConfig α} {channelType : String}
    (hs : ∀ c ∈ d.channels, SameShape c (edit d.name c)) :
    (editDevice edit d).channelNamed channelType =
      (d.channelNamed channelType).map (edit d.name) := by
  simp only [editDevice, BinaryDeviceConfig.channelNamed, List.find?_map]
  congr 1
  apply List.find?_congr
  intro c hc
  simp only [Function.comp, (hs c hc).channelType]

/-- A pairing that passes its check passes it after the edit. -/
theorem pairing_edit (hs : ∀ d ∈ config.devices, ∀ c ∈ d.channels, SameShape c (edit d.name c))
    {p : ChannelPairingConfig α} (hp : p.validate platform config = .ok ()) :
    p.validate platform (editChannels config edit) = .ok () := by
  obtain ⟨ld, l, fd, f, h⟩ := pairing_validate_iff.mp hp
  have hld := (deviceNamed_eq_some h.leaderHost).1
  have hfd := (deviceNamed_eq_some h.followerHost).1
  have hl := hs ld hld l (channelNamed_eq_some h.leaderFound).1
  have hf := hs fd hfd f (channelNamed_eq_some h.followerFound).1
  refine pairing_validate_iff.mpr ⟨editDevice edit ld, edit ld.name l, editDevice edit fd,
    edit fd.name f, ?_, ?_, ?_, ?_, hl.kind.trans h.leaderKind, hf.kind.trans h.followerKind,
    h.differ, hl.publishStates h.leaderState, ?_, h.jointScales⟩
  · rw [deviceNamed_edit, h.leaderHost]
    rfl
  · rw [deviceNamed_edit, h.followerHost]
    rfl
  · rw [channelNamed_edit (hs ld hld), h.leaderFound]
    rfl
  · rw [channelNamed_edit (hs fd hfd), h.followerFound]
    rfl
  · rw [validateMapping_shape rfl rfl hl hf]
    exact h.mapping

/-- An edit that keeps every channel valid, and the cameras as they are, keeps the project
accepted. -/
theorem accepted_edit (h : Accepted platform config)
    (hs : ∀ d ∈ config.devices, ∀ c ∈ d.channels, SameShape c (edit d.name c))
    (hv : ∀ d ∈ config.devices, ∀ c ∈ d.channels, (edit d.name c).validate platform d.name = .ok ())
    (hcamera : ∀ d ∈ config.devices, ∀ c ∈ d.channels, c.kind = .camera → edit d.name c = c) :
    Accepted platform (editChannels config edit) := by
  have hnames : (editChannels config edit).devices.map (·.name) = config.devices.map (·.name) := by
    simp [editChannels, editDevice, Function.comp_def]
  have hroots : (editChannels config edit).devices.map (·.busRoot) =
      config.devices.map (·.busRoot) := by
    simp [editChannels, editDevice, Function.comp_def]
  -- A camera of the edited project is one of the project.
  have hback : ∀ d' ∈ (editChannels config edit).devices, ∀ c' ∈ d'.channels, c'.kind = .camera →
      ∃ d ∈ config.devices, c' ∈ d.channels := by
    intro d' hd' c' hc' hk
    obtain ⟨d, hd, rfl⟩ := List.mem_map.mp hd'
    obtain ⟨c, hc, rfl⟩ := List.mem_map.mp hc'
    rw [hcamera d hd c hc ((hs d hd c hc).kind ▸ hk)]
    exact ⟨d, hd, hc⟩
  refine
    { h with
      nonempty := fun hn => h.nonempty (List.map_eq_nil_iff.mp hn)
      names := hnames ▸ h.names
      busRoots := hroots ▸ h.busRoots
      devices := ?_
      pairings := fun p hp => pairing_edit hs (h.pairings p hp)
      records := ?_
      previews := ?_ }
  · intro d' hd'
    obtain ⟨d, hd, rfl⟩ := List.mem_map.mp hd'
    have ha := h.devices d hd
    refine { ha with nonempty := ?_, channelTypes := ?_, channels := ?_ }
    · exact fun hn => ha.nonempty (List.map_eq_nil_iff.mp hn)
    · have htypes : (editDevice edit d).channels.map (·.channelType) =
          d.channels.map (·.channelType) := by
        rw [editDevice, List.map_map]
        exact List.map_congr_left fun c hc => (hs d hd c hc).channelType
      exact htypes ▸ ha.channelTypes
    · intro c' hc'
      obtain ⟨c, hc, rfl⟩ := List.mem_map.mp hc'
      exact hv d hd c hc
  · intro d' hd' c' hc' hk
    obtain ⟨d, hd, hc⟩ := hback d' hd' c' hc' hk
    exact h.records d hd c' hc hk
  · intro d' hd' c' hc' hk
    obtain ⟨d, hd, hc⟩ := hback d' hd' c' hc' hk
    exact h.previews d hd c' hc hk

theorem modifyChannel_eq (h : Accepted platform config) (deviceName channelType : String)
    (f : DeviceChannelConfigV2 α → DeviceChannelConfigV2 α) :
    modifyChannel config.devices deviceName channelType f =
      (editChannels config fun n c =>
        if n = deviceName ∧ c.channelType = channelType then f c else c).devices := by
  rw [modifyChannel, modifyFirst_keyed h.names]
  apply List.map_congr_left
  intro d hd
  by_cases hn : d.name = deviceName
  · rw [if_pos hn, modifyFirst_keyed (h.devices d hd).channelTypes]
    simp only [editDevice, hn, true_and]
  · rw [if_neg hn]
    simp only [editDevice, hn, false_and, if_false, List.map_id']

end Edits
end EditedProjects
