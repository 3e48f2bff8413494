import Rollio.CheckedSettings
import Rollio.WizardReports

/-! Which commands of the setup wizard end it, or leave it with an invalid project. -/
namespace HarmlessCommands
open BusMessages RuntimeConfig TeleopConfig DeviceConfigs ProjectConfigs Outcomes AcceptedProjects
open SetupState PairingPicker SetupPairings SetupSettings SetupSubpanel SetupDevices SetupCommands
open SetupEffects EditedProjects PairingValidity SavedProjects CheckedEdits CheckedSettings
open WizardReports
open FirstMatch (key_ne)

variable {α : Type} {floats : Floats α} {s : SetupSession α}

section Devices
variable {slot : ChannelSlot α} {c : DeviceChannelConfigV2 α} {name : String}

/-- A channel of the same type fits when it is checked, what a camera records and shows is as it
was, and so are the pairings. -/
theorem fits_of (h : Accepted floats.toPlatform s.config) (hl : Located s.config slot)
    (hchecked : c.validate floats.toPlatform slot.device.name = .ok ())
    (htype : c.channelType = slot.channel.channelType)
    (hcamera : c.kind = .camera → c.enabled → slot.channel.kind = .camera ∧ slot.channel.enabled ∧
      c.previewEnabled = slot.channel.previewEnabled ∧ c.record = slot.channel.record ∧
      c.previewSettings = slot.channel.previewSettings ∧ c.profile = slot.channel.profile)
    (hpairings : ∀ p ∈ s.config.pairings,
      p.validate floats.toPlatform (setChannel s.config slot c) = .ok ()) :
    Fits floats.toPlatform s.config slot c := by
  have hmem : slot.device ∈ s.config.devices := List.mem_of_getElem? hl.device
  have hcmem : slot.channel ∈ slot.device.channels := List.mem_of_getElem? hl.channel
  refine ⟨hchecked, ?_, ?_, ?_, hpairings⟩
  · intro j c' hj hne
    rw [htype]
    exact key_ne (h.devices _ hmem).channelTypes hj hl.channel hne
  · intro hk he
    obtain ⟨hk, he, -, hr, -⟩ := hcamera hk he
    simp only [recordConfigOf, hr]
    exact h.records _ hmem _ hcmem hk he
  · intro hk he hp ho profile hprofile
    obtain ⟨hk, he, hpe, -, hs, hf⟩ := hcamera hk he
    rw [hpe] at hp
    rw [hf] at hprofile
    simp only [previewConfigOf, hs] at ho
    exact h.previews _ hmem _ hcmem hk he hp ho profile hprofile

theorem selected_located (hslot : s.selectedDeviceIndex name = some slot) :
    Located s.config slot ∧ slot.channel.enabled := by
  obtain ⟨hconfigured, he⟩ := selected_spec hslot
  obtain ⟨-, -, hl, -⟩ := configured_spec hconfigured
  exact ⟨hl, he⟩

theorem slot_checked (h : Accepted floats.toPlatform s.config) (hl : Located s.config slot) :
    slot.channel.validate floats.toPlatform slot.device.name = .ok () :=
  (h.devices _ (List.mem_of_getElem? hl.device)).channels _ (List.mem_of_getElem? hl.channel)

/-- What a pairing leads with is published by its leader. -/
theorem leads_from (h : Accepted floats.toPlatform s.config) (hl : Located s.config slot)
    {p : ChannelPairingConfig α} (hp : p ∈ s.config.pairings)
    (hdevice : p.leaderDevice = slot.device.name)
    (htype : p.leaderChannelType = slot.channel.channelType) :
    p.leaderState ∈ slot.channel.publishStates := by
  obtain ⟨d, l, e, f, ha⟩ := pairing_validate_iff.mp (h.pairings p hp)
  have hmem : slot.device ∈ s.config.devices := List.mem_of_getElem? hl.device
  have hcmem : slot.channel ∈ slot.device.channels := List.mem_of_getElem? hl.channel
  have hhost := ha.leaderHost
  rw [hdevice, h.deviceNamed hmem] at hhost
  obtain rfl := Option.some.inj hhost
  have hfound := ha.leaderFound
  rw [htype, (h.devices _ hmem).channelNamed hcmem] at hfound
  obtain rfl := Option.some.inj hfound
  exact ha.leaderState

theorem setDeviceName_returns (h : Accepted floats.toPlatform s.config) (name value : String) :
    Returns (setDeviceName floats s name value) := by
  unfold setDeviceName
  split
  · exact returns_ok _
  · next slot hslot =>
    obtain ⟨hl, -⟩ := selected_located hslot
    dsimp only
    split
    · exact returns_ok _
    split
    · exact returns_ok _
    split
    · exact returns_ok _
    · rw [validated_returns_iff]
      apply accepted_setChannel h hl
      refine fits_of h hl ?_ rfl ?_ ?_
      · exact slot_checked h hl
      · intro hk he
        exact ⟨hk, he, rfl, rfl, rfl, rfl⟩
      · intro p hp
        refine pairing_setChannel h hl ?_ hp ?_
        · exact ⟨rfl, rfl, rfl, rfl, rfl, List.Subset.refl _⟩
        · exact leads_from h hl hp

section States
variable {publishStates recordedStates : List RobotStateKind}

/-- The state lists of a robot channel can be any that go together, but for the empty one. -/
theorem setStateLists_returns_iff (h : Accepted floats.toPlatform s.config)
    (hslot : s.selectedDeviceIndex name = some slot) (hk : slot.channel.kind = .robot)
    (hrecorded : recordedStates ⊆ publishStates)
    (hlead : ∀ p ∈ s.config.pairings, p.leaderDevice = slot.device.name →
      p.leaderChannelType = slot.channel.channelType → p.leaderState ∈ publishStates) :
    Returns (setStateLists floats s name slot publishStates recordedStates) ↔
      publishStates ≠ [] := by
  obtain ⟨hl, he⟩ := selected_located hslot
  have hold := (robot_validate_iff hk).mp (slot_checked h hl)
  have hrobot := @robot_validate_iff α floats.toPlatform slot.device.name
    { slot.channel with publishStates, recordedStates } hk
  rw [setStateLists, validated_returns_iff]
  show Accepted floats.toPlatform (setChannel s.config slot
    { slot.channel with publishStates, recordedStates }) ↔ _
  rw [fits_iff h hl]
  constructor
  · intro hfits
    exact (hrobot.mp hfits.checked).publishStates he
  · intro hne
    refine fits_of h hl ?_ rfl ?_ ?_
    · exact hrobot.mpr ⟨hold.channelType, hold.previewEnabled, hold.dof, hold.mode, fun _ => hne,
        hrecorded, hold.profile, hold.controlFrequencyHz⟩
    · intro hcamera
      exact absurd (hk.symm.trans hcamera) (by decide)
    · intro p hp
      refine pairing_setChannel h hl ?_ hp ?_
      · exact ⟨rfl, rfl, rfl, rfl, rfl, List.Subset.refl _⟩
      · exact hlead p hp

/-- It is not the only state that the selected channel publishes, or a pairing leads with it. -/
def StateStays (s : SetupSession α) (name : String) (stateKind : RobotStateKind) : Prop :=
  ∀ slot, s.selectedDeviceIndex name = some slot → slot.channel.kind = .robot →
    (∀ state ∈ slot.channel.publishStates, state = stateKind) →
    ∃ p ∈ s.config.pairings, p.leaderDevice = slot.device.name ∧
      p.leaderChannelType = slot.channel.channelType ∧ p.leaderState = stateKind

theorem togglePublishState_returns_iff (h : Accepted floats.toPlatform s.config)
    {stateKind : RobotStateKind} :
    Returns (togglePublishState floats s name stateKind) ↔ StateStays s name stateKind := by
  unfold togglePublishState
  split
  · next hnone =>
    refine iff_of_true (returns_ok _) ?_
    intro slot hslot
    rw [hnone] at hslot
    cases hslot
  · next slot hslot =>
    obtain ⟨hl, he⟩ := selected_located hslot
    have hunique {P : ChannelSlot α → Prop} :
        (∀ slot', s.selectedDeviceIndex name = some slot' → P slot') ↔ P slot := by
      simp only [hslot, Option.some.injEq, forall_eq']
    rw [StateStays, hunique]
    dsimp only
    split
    · next hk => exact iff_of_true (returns_ok _) fun hrobot => absurd hrobot hk
    · next hk =>
      have hk := not_not.mp hk
      have hold := (robot_validate_iff hk).mp (slot_checked h hl)
      split
      · next hmem =>
        split
        · next p hp =>
          have hfound := List.find?_some hp
          simp only [Bool.and_eq_true, decide_eq_true_eq] at hfound
          exact iff_of_true (returns_ok _) fun _ _ =>
            ⟨p, List.mem_of_find?_eq_some hp, hfound.1.1, hfound.1.2, hfound.2⟩
        · next hnone =>
          have hlead : ∀ p ∈ s.config.pairings, p.leaderDevice = slot.device.name →
              p.leaderChannelType = slot.channel.channelType → p.leaderState ≠ stateKind := by
            intro p hp hdevice htype hstate
            have hno := List.find?_eq_none.mp hnone p hp
            simp [hdevice, htype, hstate] at hno
          rw [setStateLists_returns_iff h hslot hk]
          · rw [ne_eq, List.filter_eq_nil_iff]
            constructor
            · intro hsome _ hall
              exact absurd (fun state hstate => by simp [hall state hstate]) hsome
            · intro hstays hall
              obtain ⟨p, hp, hdevice, htype, hstate⟩ :=
                hstays hk fun state hstate => by simpa using hall state hstate
              exact hlead p hp hdevice htype hstate
          · intro state hstate
            obtain ⟨hstate, hne⟩ := List.mem_filter.mp hstate
            exact List.mem_filter.mpr ⟨hold.recordedStates hstate, hne⟩
          · intro p hp hdevice htype
            exact List.mem_filter.mpr ⟨leads_from h hl hp hdevice htype,
              decide_eq_true (hlead p hp hdevice htype)⟩
      · next hmem =>
        have hother : ¬ ∀ state ∈ slot.channel.publishStates, state = stateKind := by
          intro hall
          obtain ⟨state, hstate⟩ := List.exists_mem_of_ne_nil _ (hold.publishStates he)
          exact hmem (hall state hstate ▸ hstate)
        split
        · exact iff_of_true (returns_ok _) fun _ hall => absurd hall hother
        · rw [setStateLists_returns_iff h hslot hk]
          · exact iff_of_true (by simp) fun _ hall => absurd hall hother
          · exact fun state hstate => List.mem_append_left _ (hold.recordedStates hstate)
          · exact fun p hp hdevice htype => List.mem_append_left _ (leads_from h hl hp hdevice htype)

theorem toggleRecordedState_returns (h : Accepted floats.toPlatform s.config)
    (stateKind : RobotStateKind) : Returns (toggleRecordedState floats s name stateKind) := by
  unfold toggleRecordedState
  split
  · exact returns_ok _
  · next slot hslot =>
    obtain ⟨hl, he⟩ := selected_located hslot
    split
    · exact returns_ok _
    · next hk =>
      have hk := not_not.mp hk
      have hold := (robot_validate_iff hk).mp (slot_checked h hl)
      split
      · rw [setStateLists_returns_iff h hslot hk _ fun p hp => leads_from h hl hp]
        · exact hold.publishStates he
        · exact fun state hstate => hold.recordedStates (List.mem_filter.mp hstate).1
      split
      · exact returns_ok _
      · next hpublished =>
        rw [setStateLists_returns_iff h hslot hk _ fun p hp => leads_from h hl hp]
        · exact hold.publishStates he
        · intro state hstate
          rcases List.mem_append.mp hstate with hstate | hstate
          · exact hold.recordedStates hstate
          · rw [List.mem_singleton.mp hstate]
            exact not_not.mp hpublished

end States

section Selection

theorem disabled_checked (h : Accepted floats.toPlatform s.config) (hl : Located s.config slot) :
    { slot.channel with enabled := false }.validate floats.toPlatform slot.device.name = .ok () := by
  have hold := slot_checked h hl
  cases hk : slot.channel.kind with
  | camera =>
    have hcamera := (camera_validate_iff hk).mp hold
    exact (@camera_validate_iff α floats.toPlatform slot.device.name
      { slot.channel with enabled := false } hk).mpr ⟨hcamera.channelType, hcamera.mode,
        hcamera.dof, hcamera.publishStates, hcamera.recordedStates, hcamera.controlFrequencyHz,
        hcamera.profile, hcamera.commandDefaults⟩
  | robot =>
    have hrobot := (robot_validate_iff hk).mp hold
    exact (@robot_validate_iff α floats.toPlatform slot.device.name
      { slot.channel with enabled := false } hk).mpr ⟨hrobot.channelType, hrobot.previewEnabled,
        hrobot.dof, (by intro he; cases he), (by intro he; cases he), hrobot.recordedStates,
        hrobot.profile, hrobot.controlFrequencyHz⟩

/-- A selected channel can be taken out where another one of its device, or another device, is
left. -/
theorem deselected_accepted_iff (h : Accepted floats.toPlatform s.config)
    (hl : Located s.config slot) : Accepted floats.toPlatform (pruned (deselected s.config slot)) ↔
      1 < (slot.device.channels.filter (·.enabled)).length ∨ 1 < s.config.devices.length := by
  unfold deselected
  split
  · next hone =>
    rw [accepted_eraseIdx_iff h (List.getElem?_eq_some_iff.mp hl.device).1]
    exact ⟨.inr, fun hor => hor.resolve_left (by omega)⟩
  · next hmany =>
    refine iff_of_true (accepted_pruned (accepted_setChannel h hl ?_)) (.inl (by omega))
    refine fits_of h hl (disabled_checked h hl) rfl ?_ ?_
    · intro _ he
      cases he
    · intro p hp
      refine pairing_setChannel h hl ?_ hp ?_
      · exact ⟨rfl, rfl, rfl, rfl, rfl, List.Subset.refl _⟩
      · exact leads_from h hl hp

def selectedChannel (row : AvailableDevice α) : DeviceChannelConfigV2 α :=
  { row.channel with enabled := true }

structure Toggles (floats : Floats α) (s : SetupSession α) (name : String) : Prop where
  off : ∀ slot, s.selectedDeviceIndex name = some slot →
    1 < (slot.device.channels.filter (·.enabled)).length ∨ 1 < s.config.devices.length
  on : ∀ row slot, s.selectedDeviceIndex name = none → s.availableDevice name = some row →
    s.configuredDeviceChannelIndex name = some slot →
    Takes floats.toPlatform s.config slot (selectedChannel row) (woken s.config slot)
  joins : ∀ device, s.selectedDeviceIndex name = none → s.configuredDeviceChannelIndex name = none →
    buildSelectedDeviceFromAvailable s name = some device → Joins floats s.config device

theorem row_succeeds {row : AvailableDevice α}
    (hid : row.identity = channelIdentity slot.device slot.channel) :
    row.channel.kind = slot.channel.kind ∧ row.channel.channelType = slot.channel.channelType :=
  ⟨congrArg DeviceIdentity.deviceType hid, congrArg DeviceIdentity.channelType hid⟩

theorem typeFree_same (h : Accepted floats.toPlatform s.config) (hl : Located s.config slot)
    (htype : c.channelType = slot.channel.channelType) : TypeFree slot c := by
  intro j c' hj hne
  rw [htype]
  exact key_ne (h.devices _ (List.mem_of_getElem? hl.device)).channelTypes hj hl.channel hne

theorem selected_takes_iff (h : Accepted floats.toPlatform s.config) (hl : Located s.config slot)
    {row : AvailableDevice α} (hid : row.identity = channelIdentity slot.device slot.channel) :
    Accepted floats.toPlatform (pruned (setChannel s.config slot (selectedChannel row))) ↔
      Takes floats.toPlatform s.config slot (selectedChannel row) (woken s.config slot) := by
  obtain ⟨hkind, htype⟩ := row_succeeds hid
  have hc : Succeeds slot (selectedChannel row) := ⟨hkind, fun _ => htype⟩
  rw [pruned, kept_eq_woken h hl hc (typeFree_same h hl htype) rfl]
  exact takes_iff h hl hc (List.filter_subset_self _)

theorem toggleDeviceSelection_returns_iff (h : Accepted floats.toPlatform s.config) :
    Returns (toggleDeviceSelection floats s name) ↔ Toggles floats s name := by
  cases hslot : s.selectedDeviceIndex name with
  | some slot =>
    obtain ⟨hl, -⟩ := selected_located hslot
    have hreturns : Returns (toggleDeviceSelection floats s name) ↔
        Accepted floats.toPlatform (pruned (deselected s.config slot)) := by
      simp only [toggleDeviceSelection, hslot, validated_returns_iff, prune_config]
      split
      · rw [clearIdentifyState_config]
      · rfl
    rw [hreturns, deselected_accepted_iff h hl]
    constructor
    · intro hleft
      refine ⟨?_, ?_, ?_⟩
      · intro slot' hslot'
        obtain rfl := Option.some.inj (hslot.symm.trans hslot')
        exact hleft
      · intro _ _ hnone
        exact absurd (hslot.symm.trans hnone) (Option.some_ne_none slot)
      · intro _ hnone
        exact absurd (hslot.symm.trans hnone) (Option.some_ne_none slot)
    · intro htoggles
      exact htoggles.off slot hslot
  | none =>
    have hoff : ∀ slot, s.selectedDeviceIndex name = some slot →
        1 < (slot.device.channels.filter (·.enabled)).length ∨ 1 < s.config.devices.length :=
      fun slot hsome => absurd (hsome.symm.trans hslot) (Option.some_ne_none slot)
    cases hconfigured : s.configuredDeviceChannelIndex name with
    | some slot =>
      obtain ⟨row, hrow, hl, hid⟩ := configured_spec hconfigured
      have hreturns : Returns (toggleDeviceSelection floats s name) ↔ Accepted floats.toPlatform
          (pruned (setChannel s.config slot (selectedChannel row))) := by
        simp only [toggleDeviceSelection, hslot, reselected, hrow, hconfigured, Option.bind_some,
          validated_returns_iff]
        rfl
      rw [hreturns, selected_takes_iff h hl hid]
      constructor
      · intro hfits
        refine ⟨hoff, ?_, ?_⟩
        · intro row' slot' _ hrow' hslot'
          obtain rfl := Option.some.inj (hrow.symm.trans hrow')
          obtain rfl := Option.some.inj (hconfigured.symm.trans hslot')
          exact hfits
        · intro _ _ hnone
          exact absurd (hconfigured.symm.trans hnone) (Option.some_ne_none slot)
      · intro htoggles
        exact htoggles.on row slot hslot hrow hconfigured
    | none =>
      have hon : ∀ slot, s.configuredDeviceChannelIndex name ≠ some slot := by
        intro slot hsome
        exact absurd (hsome.symm.trans hconfigured) (Option.some_ne_none slot)
      cases hbuilt : buildSelectedDeviceFromAvailable s name with
      | none =>
        have hrow : s.availableDevice name = none := Option.map_eq_none_iff.mp hbuilt
        refine iff_of_true ?_ ⟨hoff, fun _ slot _ _ hsome => absurd hsome (hon slot), ?_⟩
        · simp only [toggleDeviceSelection, hslot, reselected, hrow, Option.bind_none]
          exact returns_ok _
        · intro device _ _ hsome
          exact absurd (hsome.symm.trans hbuilt) (Option.some_ne_none device)
      | some device =>
        obtain ⟨row, hrow, -⟩ := Option.map_eq_some_iff.mp hbuilt
        have hreturns : Returns (toggleDeviceSelection floats s name) ↔ Accepted floats.toPlatform
            (pruned { s.config with devices := s.config.devices ++ [device] }) := by
          simp only [toggleDeviceSelection, hslot, reselected, hrow, hconfigured, hbuilt,
            Option.bind_some, Option.map_some, validated_returns_iff]
          rfl
        rw [hreturns, accepted_joined_iff h]
        constructor
        · intro hjoins
          refine ⟨hoff, fun _ slot _ _ hsome => absurd hsome (hon slot), ?_⟩
          intro device' _ _ hsome
          obtain rfl := Option.some.inj (hbuilt.symm.trans hsome)
          exact hjoins
        · intro htoggles
          exact htoggles.joins device hslot hconfigured hbuilt

end Selection

end Devices

section Pairings
variable {index : ℕ} {endpoint : PairingEndpoint} {device channelType : String}

theorem removePairing_returns (h : Accepted floats.toPlatform s.config) (index : ℕ) :
    Returns (removePairing floats s index) := by
  unfold removePairing
  split
  · exact returns_ok _
  · rw [validated_returns_iff]
    exact accepted_fewer h fun p hp => List.mem_of_mem_eraseIdx hp

theorem built_leaderState (devices : List (BinaryDeviceConfig α)) {policy : MappingStrategy}
    {l : DeviceChannelConfigV2 α} (hs : supportsLeader policy l) (ld lc fd fc : String)
    (ratio : Option α) :
    (pairingFromChannels floats devices policy ld lc fd fc ratio).leaderState ∈ l.publishStates := by
  cases policy with
  | directJoint =>
    simp only [supportsLeader, channelSupportsDirectJointLeader, decide_eq_true_eq] at hs
    exact hs.1
  | cartesian =>
    simp only [supportsLeader, channelSupportsCartesianLeader, decide_eq_true_eq] at hs
    exact hs
  | parallel =>
    simp only [supportsLeader, channelSupportsParallelLeader, decide_eq_true_eq] at hs
    exact hs.2

/-- A leader that is offered publishes what the rebuilt pairing leads with. -/
theorem leader_publishes (h : Accepted floats.toPlatform s.config) {pair : ChannelPairingConfig α}
    (heligible : (device, channelType) ∈ eligibleLeaderChannelsFor s pair.mapping (some index)) :
    Publishes s.config
      (rebuiltPairing floats s.config.devices pair .leader device channelType).leaderDevice
      (rebuiltPairing floats s.config.devices pair .leader device channelType).leaderChannelType
      (rebuiltPairing floats s.config.devices pair .leader device channelType).leaderState := by
  have hends := @built_endpoints α floats s.config.devices pair.mapping device channelType
    pair.followerDevice pair.followerChannelType
    (if pair.mapping = .parallel then pair.jointScales.head? else none)
  rw [rebuilt_leader, hends.1, hends.2.1]
  obtain ⟨d, hd, l, hl, heq, -, hs⟩ := mem_eligibleLeader heligible
  obtain ⟨rfl, rfl⟩ := Prod.mk.inj heq
  intro states hstates
  rw [publishedStates_found (h.deviceNamed hd) ((h.devices d hd).channelNamed hl)] at hstates
  obtain rfl := Option.some.inj hstates
  exact built_leaderState _ hs _ _ _ _ _

theorem valid_publishes {p : ChannelPairingConfig α}
    (hp : p.validate floats.toPlatform s.config = .ok ()) :
    Publishes s.config p.leaderDevice p.leaderChannelType p.leaderState := by
  obtain ⟨ld, l, fd, f, ha⟩ := pairing_validate_iff.mp hp
  intro states hstates
  rw [publishedStates_found ha.leaderHost ha.leaderFound] at hstates
  obtain rfl := Option.some.inj hstates
  exact ha.leaderState

/-- A new leader of a direct-joint pairing has to fit the follower that stays. -/
def EndpointFits (s : SetupSession α) (index : ℕ) (endpoint : PairingEndpoint)
    (device channelType : String) : Prop :=
  ∀ pair, s.config.pairings[index]? = some pair → endpoint = .leader →
    pair.mapping = .directJoint →
    (device, channelType) ∈ eligibleLeaderChannelsFor s .directJoint (some index) →
    LeaderFits s.config pair device channelType

theorem setPairingEndpoint_returns_iff (h : Accepted floats.toPlatform s.config) :
    Returns (setPairingEndpoint floats s index endpoint device channelType) ↔
      EndpointFits s index endpoint device channelType := by
  unfold setPairingEndpoint
  cases hpair : s.config.pairings[index]? with
  | none =>
    refine iff_of_true (returns_ok _) ?_
    intro pair hsome
    exact absurd (hsome.symm.trans hpair) (Option.some_ne_none pair)
  | some pair =>
    have hindex := (List.getElem?_eq_some_iff.mp hpair).1
    have hunique {P : ChannelPairingConfig α → Prop} :
        (∀ pair', s.config.pairings[index]? = some pair' → P pair') ↔ P pair := by
      simp only [hpair, Option.some.injEq, forall_eq']
    rw [EndpointFits, hunique]
    dsimp only
    cases endpoint with
    | leader =>
      by_cases heligible : (device, channelType) ∈ eligibleEndpoints s index pair .leader
      · rw [if_neg (not_not.mpr heligible), validated_returns_iff]
        have hoffered : (device, channelType) ∈
            eligibleLeaderChannelsFor s pair.mapping (some index) := heligible
        refine (accepted_placed_iff h hindex (leader_publishes h hoffered)).trans ?_
        rw [rebuilt_leader_valid_iff h hpair hoffered]
        constructor
        · intro hfits _ hm _
          exact hfits hm
        · intro hfits hm
          exact hfits rfl hm (hm ▸ hoffered)
      · rw [if_pos heligible]
        refine iff_of_true (returns_ok _) ?_
        intro _ hm hoffered
        rw [← hm] at hoffered
        exact absurd hoffered heligible
    | follower =>
      refine iff_of_true ?_ fun hendpoint => by cases hendpoint
      by_cases heligible : (device, channelType) ∈ eligibleEndpoints s index pair .follower
      · rw [if_neg (not_not.mpr heligible), validated_returns_iff]
        have hvalid := rebuilt_follower_valid h hpair heligible
        exact (accepted_placed_iff h hindex (valid_publishes hvalid)).mpr hvalid
      · rw [if_pos heligible]
        exact returns_ok _

end Pairings

section Commands
variable {command : SetupCommandEnvelope} {action : SetupAction}
  {store : ProjectConfig α → String → Except String Unit}

def CycleTakes (floats : Floats α) (s : SetupSession α) (command : SetupCommandEnvelope)
    (action : SetupAction) : Prop :=
  ∀ name slot row c, command.name = some name → s.selectedDeviceIndex name = some slot →
    s.availableDevice name = some row →
    cycledChannel row (normalizedDelta command.delta) action = some c →
    Takes floats.toPlatform s.config slot c s.config.pairings

/-- What a command finds so that the wizard goes on, and with a valid project. -/
def Harmless (floats : Floats α) (s : SetupSession α) (command : SetupCommandEnvelope)
    (action : SetupAction) : Prop :=
  match action with
  | .toggleDevice => ∀ name, command.name = some name → Toggles floats s name
  | .cycleCameraProfile => CycleTakes floats s command action
  | .cycleRobotMode => CycleTakes floats s command action
  | .subpanelCyclePrimary => CycleTakes floats s command action
  | .setPairingEndpoint endpoint =>
    ∀ index value ends, command.index = some index → command.value = some value →
      splitOnce '|' value.toList = some ends →
      EndpointFits s index endpoint (String.ofList ends.1) (String.ofList ends.2)
  | .togglePublishState =>
    ∀ name stateKind, command.name = some name →
      command.value.bind parseRobotStateKind = some stateKind → StateStays s name stateKind
  | .cycleStorageBackend => BackendFits s (normalizedDelta command.delta)
  | .setTyped setting => ∀ value, command.value = some value → SettingFits value setting
  | _ => True

def Goes (o : Option (Except String (Applied α))) : Prop := ∀ e, o ≠ some (.error e)

theorem goes_ok (applied : Applied α) : Goes (some (.ok applied)) := by
  intro e he
  cases he

theorem goes_map_iff {x : Handled α} : Goes (some (x.map configResult)) ↔ Returns x := by
  cases x with
  | error e =>
    constructor
    · intro h
      exact absurd rfl (h e)
    · rintro ⟨r, hr⟩
      cases hr
  | ok r => exact iff_of_true (goes_ok _) (returns_ok r)

theorem goes_bind_iff {β : Type} {o : Option β} {f : β → Option (Except String (Applied α))} :
    Goes (o >>= f) ↔ ∀ b, o = some b → Goes (f b) := by
  cases o with
  | none =>
    refine iff_of_true ?_ fun b hb => by cases hb
    intro e he
    cases he
  | some b =>
    constructor
    · rintro h _ hb
      cases hb
      exact h
    · intro h
      exact h b rfl

theorem goes_bind {β : Type} {o : Option β} {f : β → Option (Except String (Applied α))}
    (h : ∀ b, Goes (f b)) : Goes (o >>= f) :=
  goes_bind_iff.mpr fun b _ => h b

theorem normalizedDelta_cases (delta : Option ℤ) :
    normalizedDelta delta = 1 ∨ normalizedDelta delta = -1 := by
  unfold normalizedDelta
  split
  · exact .inr rfl
  · exact .inl rfl

theorem handler_goes_iff (h : Accepted floats.toPlatform s.config)
    (hstore : store s.config s.outputPath = .ok ()) (ha : ¬ Cycles action) :
    Goes (handler floats store s command action) ↔ Harmless floats s command action := by
  cases action with
  | cycleCameraProfile => exact absurd trivial ha
  | cycleRobotMode => exact absurd trivial ha
  | subpanelCyclePrimary => exact absurd trivial ha
  | toggleDevice =>
    refine goes_bind_iff.trans (forall₂_congr fun name _ => ?_)
    rw [goes_map_iff, toggleDeviceSelection_returns_iff h]
  | setPairingEndpoint endpoint =>
    have hgoes (index : ℕ) (ends : List Char × List Char) :
        Goes (some ((setPairingEndpoint floats s index endpoint (String.ofList ends.1)
          (String.ofList ends.2)).map configResult)) ↔
        EndpointFits s index endpoint (String.ofList ends.1) (String.ofList ends.2) := by
      rw [goes_map_iff, setPairingEndpoint_returns_iff h]
    constructor
    · intro hg index value ends hindex hvalue hends
      have hg := goes_bind_iff.mp hg index hindex
      have hg := goes_bind_iff.mp hg value hvalue
      exact (hgoes index ends).mp (goes_bind_iff.mp hg ends hends)
    · intro hfits
      refine goes_bind_iff.mpr fun index hindex => ?_
      refine goes_bind_iff.mpr fun value hvalue => ?_
      refine goes_bind_iff.mpr fun ends hends => ?_
      exact (hgoes index ends).mpr (hfits index value ends hindex hvalue hends)
  | togglePublishState =>
    have hgoes (name : String) (stateKind : RobotStateKind) :
        Goes (some ((togglePublishState floats s name stateKind).map configResult)) ↔
        StateStays s name stateKind := by
      rw [goes_map_iff, togglePublishState_returns_iff h]
    constructor
    · intro hg name stateKind hname hkind
      have hg := goes_bind_iff.mp hg name hname
      exact (hgoes name stateKind).mp (goes_bind_iff.mp hg stateKind hkind)
    · intro hstays
      refine goes_bind_iff.mpr fun name hname => ?_
      refine goes_bind_iff.mpr fun stateKind hkind => ?_
      exact (hgoes name stateKind).mpr (hstays name stateKind hname hkind)
  | cycleStorageBackend =>
    exact goes_map_iff.trans (cycleStorageBackend_returns_iff h (normalizedDelta_cases _))
  | setTyped setting =>
    refine goes_bind_iff.trans (forall₂_congr fun value _ => ?_)
    rw [goes_map_iff, setter_returns_iff h]
  | save =>
    refine iff_of_true ?_ trivial
    show Goes (some ((store s.config s.outputPath).map _))
    rw [hstore]
    exact goes_ok _
  | setDeviceName =>
    exact iff_of_true (goes_bind fun name => goes_bind fun value =>
      goes_map_iff.mpr (setDeviceName_returns h name value)) trivial
  | removePairing =>
    exact iff_of_true (goes_bind fun index => goes_map_iff.mpr (removePairing_returns h index)) trivial
  | toggleRecordedState =>
    exact iff_of_true (goes_bind fun name => goes_bind fun stateKind =>
      goes_map_iff.mpr (toggleRecordedState_returns h stateKind)) trivial
  | cycleEpisodeFormat =>
    exact iff_of_true (goes_map_iff.mpr (cycleEpisodeFormat_returns h _)) trivial
  | cycleCollectionMode =>
    exact iff_of_true (goes_map_iff.mpr (cycleCollectionMode_returns h)) trivial
  | setPairingRatio =>
    refine iff_of_true (goes_bind fun index => goes_bind fun value => ?_) trivial
    split
    · exact goes_ok _
    · exact goes_ok _
  | _ =>
    refine iff_of_true ?_ trivial
    first
    | exact goes_ok _
    | exact goes_bind fun _ => goes_ok _
    | exact goes_bind fun _ => goes_bind fun _ => goes_ok _
    | exact goes_bind fun _ => goes_bind fun _ => goes_bind fun _ => goes_ok _

theorem cycles_of_cycled {row : AvailableDevice α} {delta : ℤ} {c : DeviceChannelConfigV2 α}
    (hc : cycledChannel row delta action = some c) : Cycles action := by
  cases action with
  | cycleCameraProfile => trivial
  | cycleRobotMode => trivial
  | subpanelCyclePrimary => trivial
  | _ => cases hc

/-- The next profile of a camera is a camera's, and the next mode of a robot leaves its type. -/
theorem cycled_succeeds {row : AvailableDevice α} {slot : ChannelSlot α}
    {c : DeviceChannelConfigV2 α} {delta : ℤ}
    (hid : row.identity = channelIdentity slot.device slot.channel)
    (hc : cycledChannel row delta action = some c) : Succeeds slot c := by
  obtain ⟨hkind, htype⟩ := row_succeeds hid
  have hprofile (hc : nextProfileChannel row delta = some c) : Succeeds slot c := by
    unfold nextProfileChannel at hc
    split at hc
    · cases hc
    · next hcamera =>
      have hcamera := not_not.mp (not_or.mp hcamera).2
      obtain ⟨profile, -, rfl⟩ := Option.map_eq_some_iff.mp hc
      exact ⟨hkind, fun hrobot => absurd (hcamera.symm.trans hrobot) (by decide)⟩
  have hmode (hc : nextModeChannel row delta = some c) : Succeeds slot c := by
    unfold nextModeChannel at hc
    dsimp only at hc
    split at hc
    · cases hc
    · obtain ⟨mode, -, rfl⟩ := Option.map_eq_some_iff.mp hc
      exact ⟨hkind, fun _ => htype⟩
  cases action with
  | cycleCameraProfile => exact hprofile hc
  | cycleRobotMode => exact hmode hc
  | subpanelCyclePrimary =>
    simp only [cycledChannel] at hc
    split at hc
    · exact hprofile hc
    · exact hmode hc
  | _ => cases hc

theorem cycleRow_accepted_iff (h : Accepted floats.toPlatform s.config) (action : SetupAction)
    (name : String) (delta : ℤ) :
    Accepted floats.toPlatform
        (cycleRow s name fun row => cycledChannel row delta action).1.config ↔
      ∀ slot row c, s.selectedDeviceIndex name = some slot → s.availableDevice name = some row →
        cycledChannel row delta action = some c →
        Takes floats.toPlatform s.config slot c s.config.pairings := by
  unfold cycleRow
  cases hslot : s.selectedDeviceIndex name with
  | none => exact iff_of_true h fun slot _ _ hsome => by cases hsome
  | some slot =>
    obtain ⟨row, hrow, hl, hid⟩ := configured_spec (selected_spec hslot).1
    rw [hrow, Option.bind_some]
    cases hc : cycledChannel row delta action with
    | none =>
      refine iff_of_true h ?_
      intro _ row' c _ hrow' hc'
      obtain rfl := Option.some.inj hrow'
      exact absurd (hc.symm.trans hc') (Option.some_ne_none c).symm
    | some c =>
      refine (takes_iff h hl (cycled_succeeds hid hc) (List.Subset.refl _)).trans ?_
      constructor
      · intro ht slot' row' c' hslot' hrow' hc'
        obtain rfl := Option.some.inj hslot'
        obtain rfl := Option.some.inj hrow'
        obtain rfl := Option.some.inj (hc.symm.trans hc')
        exact ht
      · intro ht
        exact ht slot row c rfl rfl hc

theorem subpanelCyclePrimary_eq (name : String) (delta : ℤ) :
    subpanelCyclePrimary s name delta =
      cycleRow s name fun row => cycledChannel row delta .subpanelCyclePrimary := by
  unfold subpanelCyclePrimary
  cases hrow : s.availableDevice name with
  | none =>
    have hslot : s.selectedDeviceIndex name = none := by
      simp [SetupSession.selectedDeviceIndex, SetupSession.configuredDeviceChannelIndex, hrow]
    simp only [cycleRow, hslot]
  | some row =>
    cases htype : row.deviceType with
    | camera => simp only [cycleDeviceProfile, cycleRow, hrow, Option.bind_some, cycledChannel, htype]
    | robot => simp only [cycleRobotMode, cycleRow, hrow, Option.bind_some, cycledChannel, htype]

theorem cycle_handler (ha : Cycles action) : handler floats store s command action =
    command.name.map fun name => .ok (configResult
      (cycleRow s name fun row => cycledChannel row (normalizedDelta command.delta) action)) := by
  have hbind (f : String → Applied α) :
      (command.name >>= fun name => some (.ok (f name) : Except String (Applied α))) =
        command.name.map fun name => .ok (f name) := by
    cases command.name <;> rfl
  cases action with
  | cycleCameraProfile => exact hbind _
  | cycleRobotMode => exact hbind _
  | subpanelCyclePrimary =>
    refine (hbind _).trans (congrArg command.name.map (funext fun name => ?_))
    rw [subpanelCyclePrimary_eq]
  | _ => cases ha

theorem applyRawCommand_other (hno : ∀ action, ¬ IsCommand (.ok command) command action) :
    applyRawCommand floats store s (.ok command) = .ok { session := s } := by
  unfold applyRawCommand
  dsimp only
  split
  · rfl
  · next htype =>
    have hlookup : actionNames.lookup command.action = none := by
      cases haction : actionNames.lookup command.action with
      | none => rfl
      | some action => exact absurd ⟨rfl, not_not.mp htype, haction⟩ (hno action)
    rw [hlookup]
    rfl

/-- The wizard goes on after a command, and with a valid project again. -/
def GoesOn (floats : Floats α) (store : ProjectConfig α → String → Except String Unit)
    (s : SetupSession α) (command : SetupCommandEnvelope) : Prop :=
  ∃ applied, applyRawCommand floats store s (.ok command) = .ok applied ∧
    applied.session.config.validate floats.toPlatform = .ok ()

theorem cycles_goes_on_iff (h : Accepted floats.toPlatform s.config)
    (hc : IsCommand (.ok command) command action) (ha : Cycles action) :
    GoesOn floats store s command ↔ CycleTakes floats s command action := by
  rw [GoesOn, applyRawCommand_command hc, cycle_handler ha]
  cases hname : command.name with
  | none =>
    refine iff_of_true ⟨_, rfl, validate_iff.mpr h⟩ ?_
    intro name _ _ _ hsome
    exact absurd (hsome.symm.trans hname) (Option.some_ne_none name)
  | some name =>
    have hcycled := cycleRow_accepted_iff h action name (normalizedDelta command.delta)
    constructor
    · rintro ⟨applied, happlied, hvalid⟩
      cases happlied
      intro name' slot row c hname' hslot hrow hnext
      obtain rfl := Option.some.inj (hname.symm.trans hname')
      exact hcycled.mp (validate_iff.mp hvalid) slot row c hslot hrow hnext
    · intro htakes
      refine ⟨_, rfl, validate_iff.mpr (hcycled.mpr ?_)⟩
      intro slot row c hslot hrow hnext
      exact htakes name slot row c hname hslot hrow hnext

theorem other_goes_on_iff (hs : s.config.validate floats.toPlatform = .ok ())
    (hc : IsCommand (.ok command) command action) (ha : ¬ Cycles action) :
    GoesOn floats store s command ↔ Goes (handler floats store s command action) := by
  have hfits : CycleFits floats s (.ok command) := by
    intro command' action' _ _ _ _ hc' _ _ _ hcycled
    obtain ⟨rfl, rfl⟩ := isCommand_eq hc hc'
    exact absurd (cycles_of_cycled hcycled) ha
  rw [GoesOn, applyRawCommand_command hc]
  cases hh : handler floats store s command action with
  | none =>
    refine iff_of_true ⟨_, rfl, hs⟩ ?_
    intro e he
    cases he
  | some x =>
    cases x with
    | error e =>
      constructor
      · rintro ⟨applied, happlied, -⟩
        cases happlied
      · intro hgoes
        exact absurd rfl (hgoes e)
    | ok applied =>
      exact iff_of_true ⟨applied, rfl, valid_step hc hfits hs (handler_effect hh)⟩ (goes_ok applied)

/-- From a valid project a command leads on to a valid project just when what it finds is harmless.
Any other one ends the wizard, or leaves it with an invalid project. -/
theorem goes_on_iff (hs : s.config.validate floats.toPlatform = .ok ())
    (hstore : store s.config s.outputPath = .ok ()) (command : SetupCommandEnvelope) :
    GoesOn floats store s command ↔
      ∀ action, IsCommand (.ok command) command action → Harmless floats s command action := by
  have h := validate_iff.mp hs
  by_cases hcommand : ∃ action, IsCommand (.ok command) command action
  · obtain ⟨action, hc⟩ := hcommand
    have hunique : (∀ action', IsCommand (.ok command) command action' →
        Harmless floats s command action') ↔ Harmless floats s command action := by
      constructor
      · intro hall
        exact hall action hc
      · intro hharmless action' hc'
        obtain rfl := (isCommand_eq hc hc').2
        exact hharmless
    rw [hunique]
    by_cases ha : Cycles action
    · rw [cycles_goes_on_iff h hc ha]
      cases action with
      | cycleCameraProfile => rfl
      | cycleRobotMode => rfl
      | subpanelCyclePrimary => rfl
      | _ => cases ha
    · rw [other_goes_on_iff hs hc ha, handler_goes_iff h hstore ha]
  · have hno : ∀ action, ¬ IsCommand (.ok command) command action := not_exists.mp hcommand
    exact iff_of_true ⟨_, applyRawCommand_other hno, hs⟩ fun action hc => absurd hc (hno action)

def backendCommand : SetupCommandEnvelope :=
  { msgType := "command", action := "setup_cycle_storage_backend" }

/-- The storage of the camera's project goes from the local disk to HTTP, with no endpoint so far. -/
theorem backend_goes_on : GoesOn rationalFloats anyStore jpegSession backendCommand := by
  refine (goes_on_iff (by decide +kernel) rfl backendCommand).mpr ?_
  intro action hc
  have haction : actionNames.lookup backendCommand.action = some .cycleStorageBackend := by decide
  obtain rfl := Option.some.inj (haction.symm.trans hc.action)
  intro _ _
  decide

def deselectCommand : SetupCommandEnvelope :=
  { msgType := "command", action := "setup_toggle_device"
    name := some "camera|v4l2|video0|color|-" }

def noTimeoutCommand : SetupCommandEnvelope :=
  { msgType := "command", action := "setup_set_controller_shutdown_timeout_ms", value := some "0" }

/-- The wizard ends when the only device is deselected or the timeout is set to zero, and goes on
with an invalid project when the camera is cycled to its second profile. -/
theorem valid_project_lost :
    jpegSession.config.validate rationals = .ok () ∧
    (∃ e, applyRawCommand rationalFloats anyStore jpegSession (.ok deselectCommand) = .error e) ∧
    (∃ e, applyRawCommand rationalFloats anyStore jpegSession (.ok noTimeoutCommand) = .error e) ∧
    ∃ applied, applyRawCommand rationalFloats anyStore jpegSession (.ok cycleCommand) = .ok applied ∧
      applied.session.config.validate rationals ≠ .ok () := by
  refine ⟨by decide +kernel, ⟨_, rfl⟩, ⟨_, rfl⟩, ⟨_, rfl, by decide +kernel⟩⟩

end Commands

end HarmlessCommands
