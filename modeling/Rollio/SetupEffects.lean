import Rollio.SetupCommands

/-! What a command of the setup wizard can do to the project and to the rows of the device list. -/
namespace SetupEffects
open BusMessages RuntimeConfig TeleopConfig DeviceConfigs ProjectConfigs SetupState
open SetupPairings SetupSettings SetupSubpanel SetupDevices SetupCommands PairingPicker
open FirstMatch (modifyFirst modifyFirst_of_find? modifyFirst_modifyFirst)

variable {α : Type} {floats : Floats α} {s : SetupSession α}

def channelIdentity (d : BinaryDeviceConfig α) (c : DeviceChannelConfigV2 α) : DeviceIdentity :=
  { deviceType := c.kind, driver := d.driver, id := d.id, channelType := c.channelType }

/-- The slot holds what stands at its indices. -/
structure Located (config : ProjectConfig α) (slot : ChannelSlot α) : Prop where
  device : config.devices[slot.deviceIndex]? = some slot.device
  channel : slot.device.channels[slot.channelIndex]? = some slot.channel

theorem configured_spec {name : String} {slot : ChannelSlot α}
    (h : s.configuredDeviceChannelIndex name = some slot) :
    ∃ row, s.availableDevice name = some row ∧ Located s.config slot ∧
      row.identity = channelIdentity slot.device slot.channel := by
  obtain ⟨row, hrow, h⟩ := Option.bind_eq_some_iff.mp h
  obtain ⟨⟨device, i⟩, hd, h⟩ := List.exists_of_findSome?_eq_some h
  rw [Option.ite_none_left_eq_some, not_or, not_not, not_not] at h
  obtain ⟨⟨hdriver, hid⟩, h⟩ := h
  obtain ⟨⟨channel, j⟩, hc, rfl⟩ := Option.map_eq_some_iff.mp h
  have hfound := List.find?_some hc
  simp only [Bool.and_eq_true, decide_eq_true_eq] at hfound
  refine ⟨row, hrow, ⟨?_, ?_⟩, ?_⟩
  · exact List.mk_mem_zipIdx_iff_getElem?.mp hd
  · exact List.mk_mem_zipIdx_iff_getElem?.mp (List.mem_of_find?_eq_some hc)
  · show row.identity = ⟨channel.kind, device.driver, device.id, channel.channelType⟩
    rw [hdriver, hid, hfound.1, hfound.2]

theorem selected_spec {name : String} {slot : ChannelSlot α}
    (h : s.selectedDeviceIndex name = some slot) :
    s.configuredDeviceChannelIndex name = some slot ∧ slot.channel.enabled := by
  simpa [SetupSession.selectedDeviceIndex] using h

theorem unconfigured_spec {name : String} {row : AvailableDevice α}
    (hrow : s.availableDevice name = some row)
    (h : s.configuredDeviceChannelIndex name = none) {d : BinaryDeviceConfig α}
    (hd : d ∈ s.config.devices) {c : DeviceChannelConfigV2 α} (hc : c ∈ d.channels) :
    row.identity ≠ channelIdentity d c := by
  intro he
  obtain ⟨i, hi⟩ := List.getElem?_of_mem hd
  obtain ⟨j, hj⟩ := List.getElem?_of_mem hc
  have hdriver : d.driver = row.identity.driver := (congrArg DeviceIdentity.driver he).symm
  have hid : d.id = row.identity.id := (congrArg DeviceIdentity.id he).symm
  have hkind : c.kind = row.identity.deviceType := (congrArg DeviceIdentity.deviceType he).symm
  have htype : c.channelType = row.identity.channelType :=
    (congrArg DeviceIdentity.channelType he).symm
  simp only [SetupSession.configuredDeviceChannelIndex, hrow, Option.bind_some,
    bind, List.findSome?_eq_none_iff] at h
  have hnone := h (d, i) (List.mk_mem_zipIdx_iff_getElem?.mpr hi)
  simp only [hdriver, hid, ne_eq, not_true_eq_false, or_self, if_false, Option.map_eq_none_iff,
    List.find?_eq_none] at hnone
  exact hnone (c, j) (List.mk_mem_zipIdx_iff_getElem?.mpr hj) (by simp [hkind, htype])

theorem setChannel_restore {config : ProjectConfig α} {slot : ChannelSlot α}
    (h : Located config slot) (c : DeviceChannelConfigV2 α) :
    setChannel (setChannel config slot c) slot slot.channel = config := by
  have hdevices : ((config.devices.modify slot.deviceIndex fun device =>
      { device with channels := device.channels.set slot.channelIndex c }).modify slot.deviceIndex
        fun device => { device with
          channels := device.channels.set slot.channelIndex slot.channel }) = config.devices := by
    apply List.ext_getElem?
    intro i
    rw [List.getElem?_modify, List.getElem?_modify]
    by_cases hi : slot.deviceIndex = i
    · subst hi
      obtain ⟨hlt, hc⟩ := List.getElem?_eq_some_iff.mp h.channel
      have hset : (slot.device.channels.set slot.channelIndex c).set slot.channelIndex
          slot.channel = slot.device.channels := by
        rw [List.set_set, ← hc, List.set_getElem_self]
      simp only [if_true, h.device, Option.map_eq_map, Option.map_some, hset]
    · simp [hi]
  exact congrArg (fun devices => { config with devices }) hdevices

theorem validated_eq_ok {t : SetupSession α} {r : SetupSession α × Bool}
    (h : validated floats t = .ok r) : t.config.validate floats.toPlatform = .ok () ∧ r = (t, true) := by
  unfold validated at h
  split at h
  · next hv => exact ⟨hv, (Except.ok.inj h).symm⟩
  · cases h

def cycledChannel (row : AvailableDevice α) (delta : ℤ) :
    SetupAction → Option (DeviceChannelConfigV2 α)
  | .cycleCameraProfile => nextProfileChannel row delta
  | .cycleRobotMode => nextModeChannel row delta
  | .subpanelCyclePrimary =>
    match row.deviceType with
    | .camera => nextProfileChannel row delta
    | .robot => nextModeChannel row delta
  | _ => none

def generated (floats : Floats α) (s : SetupSession α) :
    SetupAction → Option (AvailableDevice α × BinaryDeviceConfig α)
  | .openAddPicker => some (pseudoCameraRow s, pseudoCamera s)
  | .addPseudoCamera => some (pseudoCameraRow s, pseudoCamera s)
  | .addPseudoRobot => some (pseudoRobotRow floats s, pseudoRobot floats s)
  | .addCommandDevice => some (commandDeviceRow floats s, commandDevice floats s)
  | _ => none

def Offered (s : SetupSession α) (pair : TeleopPairCreate α) : Prop :=
  pair.leader ∈ eligibleLeaderChannelsFor s pair.policy none ∧
    pair.follower ∈ eligibleFollowerChannelsFor s pair.policy (some pair.leader) none ∧
    pair.leader ≠ pair.follower

instance (s : SetupSession α) (pair : TeleopPairCreate α) : Decidable (Offered s pair) :=
  inferInstanceAs (Decidable (_ ∧ _ ∧ _))

def requestedPairing (floats : Floats α) (s : SetupSession α) (pair : TeleopPairCreate α) :
    ChannelPairingConfig α :=
  pairingFromChannels floats s.config.devices pair.policy pair.leader.1 pair.leader.2
    pair.follower.1 pair.follower.2 pair.ratio

def preparedPairing (floats : Floats α) (s : SetupSession α) (command : SetupCommandEnvelope) :
    SetupAction → Option (ChannelPairingConfig α)
  | .createPairing => do
    let pair ← (command.value.bind (parseCreatePairingValue floats)).or
      (pickDefaultPairEndpoints floats s).2
    if Offered s pair then some (requestedPairing floats s pair) else none
  | .setPairingEndpoint endpoint => do
    let index ← command.index
    let value ← command.value
    let (device, channelType) ← splitOnce '|' value.toList
    let pair ← s.config.pairings[index]?
    if (String.ofList device, String.ofList channelType) ∈ eligibleEndpoints s index pair endpoint
    then
      some (rebuiltPairing floats s.config.devices pair endpoint (String.ofList device)
        (String.ofList channelType))
    else none
  | .cyclePairMapping => do
    let index ← command.index
    let snapshot ← s.config.pairings[index]?
    let mapping := nextMapping snapshot.mapping (normalizedDelta command.delta)
    if mapping = snapshot.mapping then none
    else
      some (pairingFromChannels floats s.config.devices mapping snapshot.leaderDevice
        snapshot.leaderChannelType snapshot.followerDevice snapshot.followerChannelType none)
  | _ => none

def promoted (s : SetupSession α) (pairings : List (ChannelPairingConfig α))
    (p : ChannelPairingConfig α) : SetupSession α :=
  promoteFollowerChannelToCommandFollowing (placePairing s pairings p) p.followerDevice
    p.followerChannelType

/-- The commands that edit a channel and copy the edit to its row. -/
def Edits : SetupAction → Prop
  | .setDeviceName => True
  | .subpanelTogglePreviewEnabled => True
  | .subpanelToggleRecordEnabled => True
  | .subpanelCycleRecordField => True
  | .subpanelSetRecordField => True
  | .subpanelCyclePreviewField => True
  | .subpanelSetPreviewField => True
  | .subpanelSetControlFrequencyHz => True
  | .togglePublishState => True
  | .toggleRecordedState => True
  | _ => False

structure EditOf (command : SetupCommandEnvelope) (action : SetupAction) (name : String) : Prop where
  edits : Edits action
  named : command.name = some name

/-- A mirror changes the row's channel the way the project's was changed, and neither its kind nor
its type. -/
structure Mirrors (old new : DeviceChannelConfigV2 α)
    (mirror : DeviceChannelConfigV2 α → DeviceChannelConfigV2 α) : Prop where
  same : mirror old = new
  keeps : ∀ c, c.kind = old.kind → c.channelType = old.channelType →
    (mirror c).kind = old.kind ∧ (mirror c).channelType = old.channelType
  enabled : new.enabled = old.enabled
  mode : new.mode = old.mode

def endpoints (p : ChannelPairingConfig α) : (String × String) × (String × String) :=
  ((p.leaderDevice, p.leaderChannelType), (p.followerDevice, p.followerChannelType))

def placedPairings (s : SetupSession α) (command : SetupCommandEnvelope)
    (p : ChannelPairingConfig α) : SetupAction → List (ChannelPairingConfig α)
  | .createPairing => s.config.pairings ++ [p]
  | _ => (command.index.map fun index => s.config.pairings.set index p).getD s.config.pairings

/-- What a command does to the project and the rows, and whether it reports a change. -/
inductive Effect (floats : Floats α) (s : SetupSession α) (command : SetupCommandEnvelope)
    (action : SetupAction) (r : SetupSession α × Bool) : Prop where
  | same : r.1.config = s.config → r.1.availableDevices = s.availableDevices → r.2 = false →
      Effect floats s command action r
  /-- A setting, or the list of pairings, which gets no new ones. -/
  | settings : r.1.config.validate floats.toPlatform = .ok () →
      r.1.config.devices = s.config.devices →
      (r.1.config.pairings.map endpoints).Sublist (s.config.pairings.map endpoints) →
      r.1.availableDevices = s.availableDevices → r.2 = true → Effect floats s command action r
  /-- A channel and its row. -/
  | channel (name : String) (slot : ChannelSlot α) (c : DeviceChannelConfigV2 α)
      (mirror : DeviceChannelConfigV2 α → DeviceChannelConfigV2 α) :
      EditOf command action name → r.1.config.validate floats.toPlatform = .ok () →
      s.configuredDeviceChannelIndex name = some slot → Mirrors slot.channel c mirror →
      r.1.config = setChannel s.config slot c →
      r.1.availableDevices = (s.modifyAvailableChannel name mirror).availableDevices →
      r.2 = true → Effect floats s command action r
  /-- A row's channel, which the project takes over without a check. -/
  | cycled (name : String) (slot : ChannelSlot α) (row : AvailableDevice α)
      (c : DeviceChannelConfigV2 α) :
      command.name = some name → s.selectedDeviceIndex name = some slot →
      s.availableDevice name = some row →
      cycledChannel row (normalizedDelta command.delta) action = some c →
      r.1.config = setChannel s.config slot c →
      r.1.availableDevices = (s.modifyAvailableChannel name fun _ => c).availableDevices →
      r.2 = true → Effect floats s command action r
  | deselected (name : String) (slot : ChannelSlot α) :
      r.1.config.validate floats.toPlatform = .ok () → s.selectedDeviceIndex name = some slot →
      r.1.config = ({ s with config := deselected s.config slot } :
        SetupSession α).pruneInvalidPairings.config →
      r.1.availableDevices = s.availableDevices → r.2 = true → Effect floats s command action r
  | reselected (name : String) (config : ProjectConfig α) :
      action = .toggleDevice → command.name = some name →
      r.1.config.validate floats.toPlatform = .ok () → s.selectedDeviceIndex name = none →
      reselected s name = some config →
      r.1.config = ({ s with config } : SetupSession α).pruneInvalidPairings.config →
      r.1.availableDevices = s.availableDevices → r.2 = true → Effect floats s command action r
  | added (row : AvailableDevice α) (device : BinaryDeviceConfig α) :
      generated floats s action = some (row, device) →
      r.1.config.validate floats.toPlatform = .ok () →
      r.1.config = { s.config with devices := s.config.devices ++ [device] } →
      r.1.availableDevices = s.availableDevices ++ [row] →
      (r.2 = true ∨ action = .openAddPicker) → Effect floats s command action r
  | mapped (p : ChannelPairingConfig α) (index : ℕ) :
      preparedPairing floats s command action = some p → action = .cyclePairMapping →
      command.index = some index → r.1.config.validate floats.toPlatform = .ok () →
      r.1.config = (placePairing s (s.config.pairings.set index p) p).config →
      r.1.availableDevices = s.availableDevices → r.2 = true → Effect floats s command action r
  | paired (p : ChannelPairingConfig α) (pairings : List (ChannelPairingConfig α)) :
      preparedPairing floats s command action = some p → action ≠ .cyclePairMapping →
      r.1.config.validate floats.toPlatform = .ok () →
      r.1.config = (promoted s pairings p).config →
      r.1.availableDevices = (promoted s pairings p).availableDevices →
      r.2 = true → pairings = placedPairings s command p action → Effect floats s command action r
  /-- A new pairing is taken back, but what was done for it is not. -/
  | takenBack (pair : TeleopPairCreate α) :
      preparedPairing floats s command action = some (requestedPairing floats s pair) →
      action = .createPairing → Offered s pair →
      (pushPairing s (requestedPairing floats s pair)).config.validate floats.toPlatform ≠ .ok () →
      r.1.config = { s.config with
        devices := (pushPairing s (requestedPairing floats s pair)).config.devices } →
      r.1.availableDevices = (pushPairing s (requestedPairing floats s pair)).availableDevices →
      r.2 = false → Effect floats s command action r

section Frames

@[simp] theorem clearIdentifyMessage_config (s : SetupSession α) :
    s.clearIdentifyMessage.1.config = s.config := by
  unfold SetupSession.clearIdentifyMessage
  split
  · rfl
  · rfl

@[simp] theorem clearIdentifyMessage_availableDevices (s : SetupSession α) :
    s.clearIdentifyMessage.1.availableDevices = s.availableDevices := by
  unfold SetupSession.clearIdentifyMessage
  split
  · rfl
  · rfl

@[simp] theorem clearIdentifyState_config (s : SetupSession α) :
    s.clearIdentifyState.1.config = s.config := by
  simp [SetupSession.clearIdentifyState]

@[simp] theorem clearIdentifyState_availableDevices (s : SetupSession α) :
    s.clearIdentifyState.1.availableDevices = s.availableDevices := by
  simp [SetupSession.clearIdentifyState]

@[simp] theorem leaveDevices_config (s : SetupSession α) : s.leaveDevices.config = s.config := by
  unfold SetupSession.leaveDevices
  split
  · simp
  · rfl

@[simp] theorem leaveDevices_availableDevices (s : SetupSession α) :
    s.leaveDevices.availableDevices = s.availableDevices := by
  unfold SetupSession.leaveDevices
  split
  · simp
  · rfl

@[simp] theorem goTo_config (s : SetupSession α) (step : SetupStep) :
    (s.goTo step).1.config = s.config := by
  simp [SetupSession.goTo]

@[simp] theorem goTo_availableDevices (s : SetupSession α) (step : SetupStep) :
    (s.goTo step).1.availableDevices = s.availableDevices := by
  simp [SetupSession.goTo]

@[simp] theorem ensureVisibleCurrentStep_config (s : SetupSession α) :
    s.ensureVisibleCurrentStep.config = s.config := by
  simp only [SetupSession.ensureVisibleCurrentStep, leaveDevices_config]
  split
  · rfl
  · rfl

@[simp] theorem ensureVisibleCurrentStep_availableDevices (s : SetupSession α) :
    s.ensureVisibleCurrentStep.availableDevices = s.availableDevices := by
  simp only [SetupSession.ensureVisibleCurrentStep, leaveDevices_availableDevices]
  split
  · rfl
  · rfl

theorem setIdentifyDevice_same (s : SetupSession α) (name : Option String) :
    (setIdentifyDevice s name).1.config = s.config ∧
      (setIdentifyDevice s name).1.availableDevices = s.availableDevices := by
  cases name with
  | none => exact ⟨by simp [setIdentifyDevice], by simp [setIdentifyDevice]⟩
  | some target =>
    simp only [setIdentifyDevice]
    split
    · exact ⟨rfl, rfl⟩
    · exact ⟨rfl, rfl⟩

theorem jumpToStep_same (s : SetupSession α) (value : String) :
    (jumpToStep s value).1.config = s.config ∧
      (jumpToStep s value).1.availableDevices = s.availableDevices := by
  simp only [jumpToStep]
  split
  · exact ⟨rfl, rfl⟩
  · split
    · exact ⟨rfl, rfl⟩
    · exact ⟨by simp, by simp⟩

theorem toggleIdentify_same (s : SetupSession α) (name : String) :
    ((toggleIdentify s name).session.config = s.config ∧
      (toggleIdentify s name).session.availableDevices = s.availableDevices) ∧
      (toggleIdentify s name).mutation.configChanged = false := by
  simp only [toggleIdentify]
  split
  · exact ⟨⟨rfl, rfl⟩, rfl⟩
  · exact ⟨setIdentifyDevice_same s _, rfl⟩

theorem openSubpanel_same (s : SetupSession α) (name : String) :
    (openSubpanel s name).1.config = s.config ∧
      (openSubpanel s name).1.availableDevices = s.availableDevices := by
  simp only [openSubpanel]
  split
  · exact ⟨rfl, rfl⟩
  · split
    · exact ⟨rfl, rfl⟩
    · exact ⟨rfl, rfl⟩

theorem loopChange_same {s' : SetupSession α} (h : LoopChange s s') :
    s'.config = s.config ∧ s'.availableDevices = s.availableDevices := by
  cases h with
  | identifyLost => exact ⟨by simp, by simp⟩
  | previewDied => exact ⟨by simp, by simp⟩
  | previewStarted => exact ⟨rfl, rfl⟩

end Frames

section Placing

theorem modifyChannel_of_found {config : ProjectConfig α} {deviceName channelType : String}
    {f : DeviceChannelConfigV2 α → DeviceChannelConfigV2 α}
    (h : ∀ d c, config.deviceNamed deviceName = some d → d.channelNamed channelType = some c →
      f c = c) : modifyChannel config.devices deviceName channelType f = config.devices := by
  apply modifyFirst_of_find?
  intro d hd
  rw [modifyFirst_of_find? fun c hc => h d c hd hc]

theorem modifyChannel_modifyChannel {devices : List (BinaryDeviceConfig α)}
    {deviceName channelType : String} {f g : DeviceChannelConfigV2 α → DeviceChannelConfigV2 α}
    (hf : ∀ c, (f c).channelType = c.channelType) :
    modifyChannel (modifyChannel devices deviceName channelType f) deviceName channelType g =
      modifyChannel devices deviceName channelType fun c => g (f c) := by
  unfold modifyChannel
  rw [modifyFirst_modifyFirst]
  · congr 1
    funext d
    rw [modifyFirst_modifyFirst]
    intro c
    rw [hf c]
  · intro d
    rfl

def Publishes (config : ProjectConfig α) (deviceName channelType : String)
    (state : RobotStateKind) : Prop :=
  ∀ states, publishedStates config deviceName channelType = some states → state ∈ states

theorem publishedStates_found {config : ProjectConfig α} {deviceName channelType : String}
    {d : BinaryDeviceConfig α} {c : DeviceChannelConfigV2 α}
    (hd : config.deviceNamed deviceName = some d) (hc : d.channelNamed channelType = some c) :
    publishedStates config deviceName channelType = some c.publishStates := by
  simp [publishedStates, hd, hc]

theorem ensure_of_publishes {config : ProjectConfig α} {deviceName channelType : String}
    {state : RobotStateKind} (h : Publishes config deviceName channelType state) :
    ensureChannelPublishesState config.devices deviceName channelType state = config.devices := by
  apply modifyChannel_of_found
  intro d c hd hc
  rw [if_pos (h _ (publishedStates_found hd hc))]

theorem ensure_restored {config : ProjectConfig α} {deviceName channelType : String}
    {state : RobotStateKind} :
    restoreStates config (ensureChannelPublishesState config.devices deviceName channelType state)
      deviceName channelType = config.devices := by
  unfold restoreStates
  split
  · next states hstates =>
    rw [ensureChannelPublishesState, modifyChannel_modifyChannel]
    · apply modifyChannel_of_found
      intro d c hd hc
      rw [publishedStates_found hd hc] at hstates
      obtain rfl := Option.some.inj hstates
      split
      · rfl
      · rfl
    · intro c
      split
      · rfl
      · rfl
  · next hnone =>
    apply ensure_of_publishes
    intro states hstates
    rw [hnone] at hstates
    cases hstates

theorem built_endpoints (devices : List (BinaryDeviceConfig α)) (policy : MappingStrategy)
    (ld lc fd fc : String) (ratio : Option α) :
    (pairingFromChannels floats devices policy ld lc fd fc ratio).leaderDevice = ld ∧
      (pairingFromChannels floats devices policy ld lc fd fc ratio).leaderChannelType = lc ∧
      (pairingFromChannels floats devices policy ld lc fd fc ratio).followerDevice = fd ∧
      (pairingFromChannels floats devices policy ld lc fd fc ratio).followerChannelType = fc := by
  cases policy with
  | directJoint => exact ⟨rfl, rfl, rfl, rfl⟩
  | cartesian => exact ⟨rfl, rfl, rfl, rfl⟩
  | parallel => exact ⟨rfl, rfl, rfl, rfl⟩

end Placing

section Handlers
variable {command : SetupCommandEnvelope} {action : SetupAction}

theorem effect_same {r : SetupSession α × Bool}
    (h : r.1.config = s.config ∧ r.1.availableDevices = s.availableDevices) (hr : r.2 = false) :
    Effect floats s command action r := .same h.1 h.2 hr

theorem cycleRow_effect {name : String}
    {next : AvailableDevice α → Option (DeviceChannelConfigV2 α)} (hname : command.name = some name)
    (hnext : ∀ row, s.availableDevice name = some row →
      cycledChannel row (normalizedDelta command.delta) action = next row) :
    Effect floats s command action (cycleRow s name next) := by
  unfold cycleRow
  split
  · exact effect_same ⟨rfl, rfl⟩ rfl
  · next slot hslot =>
    split
    · exact effect_same ⟨rfl, rfl⟩ rfl
    · next c hc =>
      obtain ⟨row, hrow, hc⟩ := Option.bind_eq_some_iff.mp hc
      exact .cycled name slot row c hname hslot hrow ((hnext row hrow).trans hc) rfl rfl rfl

theorem subpanelCyclePrimary_effect {name : String} (hname : command.name = some name)
    (haction : action = .subpanelCyclePrimary) :
    Effect floats s command action
      (subpanelCyclePrimary s name (normalizedDelta command.delta)) := by
  subst haction
  unfold subpanelCyclePrimary
  split
  · exact effect_same ⟨rfl, rfl⟩ rfl
  · next available havailable =>
    split
    · next htype =>
      apply cycleRow_effect hname
      intro row hrow
      obtain rfl := Option.some.inj (havailable.symm.trans hrow)
      simp only [cycledChannel, htype]
    · next htype =>
      apply cycleRow_effect hname
      intro row hrow
      obtain rfl := Option.some.inj (havailable.symm.trans hrow)
      simp only [cycledChannel, htype]

theorem setDeviceName_effect {name value : String} {r : SetupSession α × Bool}
    (he : EditOf command action name) (h : setDeviceName floats s name value = .ok r) : Effect floats s command action r := by
  unfold setDeviceName at h
  split at h
  · cases h
    exact effect_same ⟨rfl, rfl⟩ rfl
  · next slot hslot =>
    dsimp only at h
    split at h
    · cases h
      exact effect_same ⟨rfl, rfl⟩ rfl
    split at h
    · cases h
      exact effect_same ⟨rfl, rfl⟩ rfl
    split at h
    · cases h
      exact effect_same ⟨rfl, rfl⟩ rfl
    · obtain ⟨hv, rfl⟩ := validated_eq_ok h
      exact .channel name slot { slot.channel with name := some (Text.trim value) }
        (fun channel => { channel with name := some (Text.trim value) }) he hv
        (selected_spec hslot).1 ⟨rfl, fun c hk ht => ⟨hk, ht⟩, rfl, rfl⟩ rfl rfl rfl

theorem setStateLists_effect {name : String} {slot : ChannelSlot α}
    {publishStates recordedStates : List RobotStateKind} {r : SetupSession α × Bool}
    (he : EditOf command action name) (hslot : s.selectedDeviceIndex name = some slot)
    (h : setStateLists floats s name slot publishStates recordedStates = .ok r) :
    Effect floats s command action r := by
  obtain ⟨hv, rfl⟩ := validated_eq_ok h
  exact .channel name slot { slot.channel with publishStates, recordedStates }
    (fun channel => { channel with publishStates, recordedStates }) he hv (selected_spec hslot).1
    ⟨rfl, fun c hk ht => ⟨hk, ht⟩, rfl, rfl⟩ rfl rfl rfl

theorem togglePublishState_effect {name : String} {kind : RobotStateKind}
    {r : SetupSession α × Bool} (he : EditOf command action name)
    (h : togglePublishState floats s name kind = .ok r) :
    Effect floats s command action r := by
  unfold togglePublishState at h
  split at h
  · cases h
    exact effect_same ⟨rfl, rfl⟩ rfl
  · next slot hslot =>
    dsimp only at h
    split at h
    · cases h
      exact effect_same ⟨rfl, rfl⟩ rfl
    split at h
    · split at h
      · cases h
        exact effect_same ⟨rfl, rfl⟩ rfl
      · exact setStateLists_effect he hslot h
    split at h
    · cases h
      exact effect_same ⟨rfl, rfl⟩ rfl
    · exact setStateLists_effect he hslot h

theorem toggleRecordedState_effect {name : String} {kind : RobotStateKind}
    {r : SetupSession α × Bool} (he : EditOf command action name)
    (h : toggleRecordedState floats s name kind = .ok r) :
    Effect floats s command action r := by
  unfold toggleRecordedState at h
  split at h
  · cases h
    exact effect_same ⟨rfl, rfl⟩ rfl
  · next slot hslot =>
    split at h
    · cases h
      exact effect_same ⟨rfl, rfl⟩ rfl
    split at h
    · exact setStateLists_effect he hslot h
    split at h
    · cases h
      exact effect_same ⟨rfl, rfl⟩ rfl
    · exact setStateLists_effect he hslot h

theorem toggled_off {name : String} {slot : ChannelSlot α} {r : SetupSession α × Bool}
    (hslot : s.selectedDeviceIndex name = some slot)
    (h : toggleDeviceSelection floats s name = .ok r) :
    r.1.config.validate floats.toPlatform = .ok () ∧
      r.1.config = ({ s with config := deselected s.config slot } :
        SetupSession α).pruneInvalidPairings.config ∧
      r.1.availableDevices = s.availableDevices ∧ r.2 = true := by
  simp only [toggleDeviceSelection, hslot] at h
  obtain ⟨hv, rfl⟩ := validated_eq_ok h
  refine ⟨hv, ?_, ?_, rfl⟩
  · dsimp only [SetupSession.pruneInvalidPairings]
    split
    · simp
    · rfl
  · dsimp only [SetupSession.pruneInvalidPairings]
    split
    · simp
    · rfl

theorem toggled_on {name : String} {r : SetupSession α × Bool}
    (hslot : s.selectedDeviceIndex name = none)
    (h : toggleDeviceSelection floats s name = .ok r) :
    (reselected s name = none ∧ r = (s, false)) ∨
      ∃ config, reselected s name = some config ∧
        r.1.config.validate floats.toPlatform = .ok () ∧
        r.1.config = ({ s with config } : SetupSession α).pruneInvalidPairings.config ∧
        r.1.availableDevices = s.availableDevices ∧ r.2 = true := by
  simp only [toggleDeviceSelection, hslot] at h
  split at h
  · next hnone => exact .inl ⟨hnone, (Except.ok.inj h).symm⟩
  · next config hconfig =>
    obtain ⟨hv, rfl⟩ := validated_eq_ok h
    exact .inr ⟨config, hconfig, hv, rfl, rfl, rfl⟩

theorem toggleDeviceSelection_effect {name : String} {r : SetupSession α × Bool}
    (haction : action = .toggleDevice) (hname : command.name = some name)
    (h : toggleDeviceSelection floats s name = .ok r) : Effect floats s command action r := by
  cases hslot : s.selectedDeviceIndex name with
  | some slot =>
    obtain ⟨hv, hconfig, hrows, hr⟩ := toggled_off hslot h
    exact .deselected name slot hv hslot hconfig hrows hr
  | none =>
    rcases toggled_on hslot h with ⟨-, rfl⟩ | ⟨config, hre, hv, hconfig, hrows, hr⟩
    · exact effect_same ⟨rfl, rfl⟩ rfl
    · exact .reselected name config haction hname hv hslot hre hconfig hrows hr

theorem editChannel_effect {name : String} {slot : ChannelSlot α} {c : DeviceChannelConfigV2 α}
    {mirror : DeviceChannelConfigV2 α → DeviceChannelConfigV2 α} {label : String}
    (he : EditOf command action name) (hslot : s.configuredDeviceChannelIndex name = some slot)
    (hm : Mirrors slot.channel c mirror) :
    Effect floats s command action (editChannel floats s name slot c mirror label) := by
  simp only [editChannel]
  split
  · next hv => exact .channel name slot c mirror he hv hslot hm rfl rfl rfl
  · obtain ⟨-, -, hlocated, -⟩ := configured_spec hslot
    exact .same (setChannel_restore hlocated c) rfl rfl

theorem subpanelTogglePreviewEnabled_effect {name : String}
    (he : EditOf command action name) :
    Effect floats s command action (subpanelTogglePreviewEnabled floats s name) := by
  unfold subpanelTogglePreviewEnabled
  split
  · exact effect_same ⟨rfl, rfl⟩ rfl
  · next slot hslot => exact editChannel_effect he hslot ⟨rfl, fun c hk ht => ⟨hk, ht⟩, rfl, rfl⟩

theorem subpanelToggleRecordEnabled_effect {name : String}
    (he : EditOf command action name) :
    Effect floats s command action (subpanelToggleRecordEnabled floats s name) := by
  unfold subpanelToggleRecordEnabled
  split
  · exact effect_same ⟨rfl, rfl⟩ rfl
  · next slot hslot => exact editChannel_effect he hslot ⟨rfl, fun c hk ht => ⟨hk, ht⟩, rfl, rfl⟩

theorem editCamera_effect {name label : String}
    {edit : DeviceChannelConfigV2 α → Except String (DeviceChannelConfigV2 α)}
    (heditOf : EditOf command action name)
    (hedit : ∀ c c', edit c = .ok c' → c'.kind = c.kind ∧ c'.channelType = c.channelType ∧
      c'.enabled = c.enabled ∧ c'.mode = c.mode) :
    Effect floats s command action (editCamera floats s name edit label) := by
  unfold editCamera
  split
  · exact effect_same ⟨rfl, rfl⟩ rfl
  · next slot hslot =>
    split
    · exact effect_same ⟨rfl, rfl⟩ rfl
    · split
      · exact effect_same ⟨rfl, rfl⟩ rfl
      · next c hc =>
        obtain ⟨hk, ht, he, hm⟩ := hedit _ _ hc
        exact editChannel_effect heditOf hslot ⟨rfl, fun _ _ _ => ⟨hk, ht⟩, he, hm⟩

theorem subpanelCycleRecordField_effect {name field : String} {delta : ℤ}
    (he : EditOf command action name) :
    Effect floats s command action (subpanelCycleRecordField floats s name field delta) := by
  apply editCamera_effect he
  intro c c' h
  split at h
  · cases h
    exact ⟨rfl, rfl, rfl, rfl⟩
  · cases h

theorem subpanelCyclePreviewField_effect {name field : String} {delta : ℤ}
    (he : EditOf command action name) :
    Effect floats s command action (subpanelCyclePreviewField floats s name field delta) := by
  apply editCamera_effect he
  intro c c' h
  split at h
  · cases h
    exact ⟨rfl, rfl, rfl, rfl⟩
  · cases h

theorem subpanelSetRecordField_effect {name field value : String}
    (he : EditOf command action name) :
    Effect floats s command action (subpanelSetRecordField floats s name field value) := by
  apply editCamera_effect he
  intro c c' h
  cases hr : setRecord floats.debugStr (recordBlock c) field value with
  | error e =>
    rw [hr] at h
    cases h
  | ok record =>
    rw [hr] at h
    cases h
    exact ⟨rfl, rfl, rfl, rfl⟩

theorem subpanelSetPreviewField_effect {name field value : String}
    (he : EditOf command action name) :
    Effect floats s command action (subpanelSetPreviewField floats s name field value) := by
  apply editCamera_effect he
  intro c c' h
  cases hp : setPreview floats.debugStr (previewBlock c) field value with
  | error e =>
    rw [hp] at h
    cases h
  | ok preview =>
    rw [hp] at h
    cases h
    exact ⟨rfl, rfl, rfl, rfl⟩

theorem subpanelSetControlFrequencyHz_effect {name value : String}
    (he : EditOf command action name) :
    Effect floats s command action (subpanelSetControlFrequencyHz floats s name value) := by
  unfold subpanelSetControlFrequencyHz
  split
  · exact effect_same ⟨rfl, rfl⟩ rfl
  · next slot hslot =>
    split
    · exact effect_same ⟨rfl, rfl⟩ rfl
    split
    · exact effect_same ⟨rfl, rfl⟩ rfl
    split
    · exact effect_same ⟨rfl, rfl⟩ rfl
    · exact editChannel_effect he hslot ⟨rfl, fun _ _ _ => ⟨rfl, rfl⟩, rfl, rfl⟩

theorem addDevice_effect {row : AvailableDevice α} {device : BinaryDeviceConfig α}
    {rejected added : String} (hg : generated floats s action = some (row, device)) :
    Effect floats s command action (addDevice floats s row device rejected added) := by
  simp only [addDevice]
  split
  · next hv => exact .added row device hg hv rfl rfl (.inl rfl)
  · exact .same rfl rfl rfl

/-- The picker reports a change of the state, whatever it has added. -/
theorem openAddPicker_effect :
    Effect floats s command .openAddPicker ((openAddPicker floats s).1, false) := by
  simp only [openAddPicker, addPseudoCamera, addDevice]
  split
  · next hv => exact .added (pseudoCameraRow s) (pseudoCamera s) rfl hv rfl rfl (.inr rfl)
  · exact .same rfl rfl rfl

theorem cyclePairMapping_effect {index : ℕ} (haction : action = .cyclePairMapping)
    (hindex : command.index = some index) :
    Effect floats s command action
      (cyclePairMapping floats s index (normalizedDelta command.delta)) := by
  subst haction
  unfold cyclePairMapping
  split
  · exact effect_same ⟨rfl, rfl⟩ rfl
  · next snapshot hsnapshot =>
    dsimp only
    split
    · exact effect_same ⟨rfl, rfl⟩ rfl
    · next hmapping =>
      unfold validatedOr
      split
      · next hv =>
        refine .mapped _ index ?_ rfl hindex hv rfl rfl rfl
        simp only [preparedPairing, hindex, hsnapshot, bind, Option.bind_some, hmapping, if_false]
      · refine effect_same ⟨?_, rfl⟩ rfl
        have hpairings : ∀ p, (s.config.pairings.set index p).set index snapshot =
            s.config.pairings := by
          intro p
          obtain ⟨hlt, hs⟩ := List.getElem?_eq_some_iff.mp hsnapshot
          rw [List.set_set, ← hs, List.set_getElem_self]
        generalize hp : pairingFromChannels floats s.config.devices
          (nextMapping snapshot.mapping (normalizedDelta command.delta)) snapshot.leaderDevice
          snapshot.leaderChannelType snapshot.followerDevice snapshot.followerChannelType none = p
        obtain ⟨hld, hlc, -⟩ := hp ▸ built_endpoints s.config.devices
          (nextMapping snapshot.mapping (normalizedDelta command.delta)) snapshot.leaderDevice
          snapshot.leaderChannelType snapshot.followerDevice snapshot.followerChannelType none
        have hdevices : restoreStates s.config (placePairing s (s.config.pairings.set index p)
            p).config.devices snapshot.leaderDevice snapshot.leaderChannelType =
            s.config.devices := by
          rw [← hld, ← hlc]
          exact ensure_restored
        show ({ s.config with pairings := _, devices := _ } : ProjectConfig α) = s.config
        rw [hdevices]
        show ({ s.config with pairings := _ } : ProjectConfig α) = s.config
        rw [show (placePairing s (s.config.pairings.set index p) p).config.pairings =
          s.config.pairings.set index p from rfl, hpairings]

theorem createPairingOf_effect {pair : TeleopPairCreate α} (haction : action = .createPairing)
    (hpair : (command.value.bind (parseCreatePairingValue floats)).or
      (pickDefaultPairEndpoints floats s).2 = some pair) :
    Effect floats s command action
      ((createPairingOf floats s pair).1, (createPairingOf floats s pair).2.isSome) := by
  subst haction
  unfold createPairingOf
  by_cases hl : pair.leader ∉ eligibleLeaderChannelsFor s pair.policy none
  · rw [if_pos hl]
    exact effect_same ⟨rfl, rfl⟩ rfl
  rw [if_neg hl]
  by_cases hf : pair.follower ∉ eligibleFollowerChannelsFor s pair.policy (some pair.leader) none
  · rw [if_pos hf]
    exact effect_same ⟨rfl, rfl⟩ rfl
  rw [if_neg hf]
  by_cases he : pair.leader = pair.follower
  · rw [if_pos he]
    exact effect_same ⟨rfl, rfl⟩ rfl
  rw [if_neg he]
  have hoffered : Offered s pair := ⟨not_not.mp hl, not_not.mp hf, he⟩
  have hprepared : preparedPairing floats s command .createPairing =
      some (requestedPairing floats s pair) := by
    simp only [preparedPairing, hpair, bind, Option.bind_some, hoffered, if_true]
  dsimp only
  split
  · next hv => exact .paired _ _ hprepared (fun h => by cases h) hv rfl rfl rfl rfl
  · next e hv =>
    refine .takenBack pair hprepared rfl hoffered ?_ ?_ rfl rfl
    · intro hok
      rw [requestedPairing, hv] at hok
      cases hok
    · exact congrArg (fun pairings => ({ s.config with
        pairings
        devices := (pushPairing s (requestedPairing floats s pair)).config.devices } :
          ProjectConfig α)) List.dropLast_concat

theorem createPairing_effect (haction : action = .createPairing) :
    Effect floats s command action
      ((createPairing floats s (command.value.bind (parseCreatePairingValue floats))).1,
        (createPairing floats s (command.value.bind (parseCreatePairingValue floats))).2.isSome) := by
  unfold createPairing
  split
  · next pair hpair =>
    apply createPairingOf_effect haction
    rw [hpair]
    rfl
  · next hnone =>
    have hor : ∀ picked, (none : Option (TeleopPairCreate α)).or picked = picked := fun _ => rfl
    cases hpick : pickDefaultPairEndpoints floats s with
    | mk s' picked =>
      have hsame : s'.config = s.config ∧ s'.availableDevices = s.availableDevices ∧
          (picked.isSome → s' = s) := by
        simp only [pickDefaultPairEndpoints] at hpick
        split at hpick
        · cases hpick
          exact ⟨rfl, rfl, fun _ => rfl⟩
        · cases hpick
          exact ⟨rfl, rfl, fun h => by cases h⟩
      cases picked with
      | none => exact .same hsame.1 hsame.2.1 rfl
      | some pair =>
        obtain rfl := hsame.2.2 rfl
        apply createPairingOf_effect haction
        rw [hnone, hor, hpick]

theorem removePairing_effect {index : ℕ} {r : SetupSession α × Bool}
    (h : removePairing floats s index = .ok r) : Effect floats s command action r := by
  unfold removePairing at h
  split at h
  · cases h
    exact effect_same ⟨rfl, rfl⟩ rfl
  · obtain ⟨hv, rfl⟩ := validated_eq_ok h
    exact .settings hv rfl ((List.eraseIdx_sublist _ _).map endpoints) rfl rfl

theorem setPairingEndpoint_effect {index : ℕ} {endpoint : PairingEndpoint}
    {value : String} {device channelType : List Char} {r : SetupSession α × Bool}
    (haction : action = .setPairingEndpoint endpoint) (hindex : command.index = some index)
    (hvalue : command.value = some value)
    (hsplit : splitOnce '|' value.toList = some (device, channelType))
    (h : setPairingEndpoint floats s index endpoint (String.ofList device)
      (String.ofList channelType) = .ok r) : Effect floats s command action r := by
  subst haction
  unfold setPairingEndpoint at h
  split at h
  · cases h
    exact effect_same ⟨rfl, rfl⟩ rfl
  · next pair hpair =>
    split at h
    · cases h
      exact effect_same ⟨rfl, rfl⟩ rfl
    · next heligible =>
      obtain ⟨hv, rfl⟩ := validated_eq_ok h
      refine .paired _ _ ?_ (fun h => by cases h) hv rfl rfl rfl
        (by simp [placedPairings, hindex])
      simp only [preparedPairing, hindex, hvalue, hsplit, hpair, bind, Option.bind_some,
        not_not.mp heligible, if_true]

theorem setPairingRatio_effect {index : ℕ} {ratio : α} :
    Effect floats s command action (setPairingRatio floats s index ratio) := by
  unfold setPairingRatio
  split
  · exact effect_same ⟨rfl, rfl⟩ rfl
  · next pair hpair =>
    split
    · exact effect_same ⟨rfl, rfl⟩ rfl
    split
    · exact effect_same ⟨rfl, rfl⟩ rfl
    obtain ⟨hlt, hp⟩ := List.getElem?_eq_some_iff.mp hpair
    simp only [validatedOr]
    split
    · next hv =>
      refine .settings hv rfl ?_ rfl rfl
      have hlt' : index < (s.config.pairings.map endpoints).length := by simpa using hlt
      have hsame : endpoints { pair with jointScales := [ratio] } =
          (s.config.pairings.map endpoints)[index] := by simp [hp, endpoints]
      rw [List.map_set, hsame, List.set_getElem_self]
    · refine effect_same ⟨?_, rfl⟩ rfl
      show ({ s.config with pairings := _ } : ProjectConfig α) = s.config
      rw [List.set_set, ← hp, List.set_getElem_self]

/-- The setters write the settings only. -/
def KeepsDevices (c : ProjectConfig α) (edit : SettingEdit α) : Prop :=
  ∀ config label, edit = .written config label →
    config.devices = c.devices ∧ config.pairings = c.pairings

theorem textSetting_keeps {c : ProjectConfig α} {value emptyMessage : String}
    {current label : Option String} {write : String → ProjectConfig α}
    (hw : ∀ v, (write v).devices = c.devices ∧ (write v).pairings = c.pairings) :
    KeepsDevices c (textSetting value emptyMessage current write label) := by
  intro config label' h
  simp only [textSetting] at h
  split at h
  · cases h
  split at h
  · cases h
  · cases h
    exact hw _

theorem numberSetting_keeps {β : Type} {c : ProjectConfig α} {debugStr : String → String}
    {value requirement : String} {parsed : String → Option β} {isCurrent : β → Bool}
    {label : Option String} {write : β → ProjectConfig α}
    (hw : ∀ v, (write v).devices = c.devices ∧ (write v).pairings = c.pairings) :
    KeepsDevices c (numberSetting debugStr value parsed requirement isCurrent write label) := by
  intro config label' h
  simp only [numberSetting] at h
  split at h
  · cases h
  · split at h
    · cases h
    · cases h
      exact hw _

theorem setUiSingleCharKey_keeps {c : ProjectConfig α} {value label current : String}
    {write : String → UiRuntimeConfig} :
    KeepsDevices c (setUiSingleCharKey floats c value label current write) := by
  intro config label' h
  simp only [setUiSingleCharKey] at h
  split at h
  · cases h
  split at h
  · cases h
  · cases h
    exact ⟨rfl, rfl⟩

theorem setEpisodeFps_keeps {c : ProjectConfig α} {value : String} :
    KeepsDevices c (setEpisodeFps floats c value) := by
  intro config label h
  simp only [setEpisodeFps] at h
  split at h
  · cases h
  split at h
  · cases h
  split at h
  · cases h
  split at h
  · cases h
  · cases h
    exact ⟨rfl, rfl⟩

theorem setter_keeps (c : ProjectConfig α) (value : String) (setting : TypedSetting) :
    KeepsDevices c (setting.setter floats c value) := by
  cases setting with
  | projectName =>
    unfold TypedSetting.setter setProjectName
    exact textSetting_keeps fun _ => ⟨rfl, rfl⟩
  | storageOutputPath =>
    unfold TypedSetting.setter setStorageOutputPath
    exact textSetting_keeps fun _ => ⟨rfl, rfl⟩
  | storageEndpoint =>
    unfold TypedSetting.setter setStorageEndpoint
    exact textSetting_keeps fun _ => ⟨rfl, rfl⟩
  | dataloopProjectId =>
    unfold TypedSetting.setter setDataloopProjectId
    exact textSetting_keeps fun _ => ⟨rfl, rfl⟩
  | dataloopToken =>
    unfold TypedSetting.setter setDataloopToken
    exact textSetting_keeps fun _ => ⟨rfl, rfl⟩
  | uiHttpHost =>
    unfold TypedSetting.setter setUiHttpHost
    exact textSetting_keeps fun _ => ⟨rfl, rfl⟩
  | assemblerStagingDir =>
    unfold TypedSetting.setter setAssemblerStagingDir
    exact textSetting_keeps fun _ => ⟨rfl, rfl⟩
  | episodeFps => exact setEpisodeFps_keeps
  | episodeChunkSize =>
    unfold TypedSetting.setter setEpisodeChunkSize
    exact numberSetting_keeps fun _ => ⟨rfl, rfl⟩
  | controllerShutdownTimeoutMs =>
    unfold TypedSetting.setter setControllerShutdownTimeoutMs
    exact numberSetting_keeps fun _ => ⟨rfl, rfl⟩
  | controllerChildPollIntervalMs =>
    unfold TypedSetting.setter setControllerChildPollIntervalMs
    exact numberSetting_keeps fun _ => ⟨rfl, rfl⟩
  | visualizerPort =>
    unfold TypedSetting.setter setVisualizerPort
    exact numberSetting_keeps fun _ => ⟨rfl, rfl⟩
  | uiHttpPort =>
    unfold TypedSetting.setter setUiHttpPort
    exact numberSetting_keeps fun _ => ⟨rfl, rfl⟩
  | uiStartKey =>
    unfold TypedSetting.setter setUiStartKey
    exact setUiSingleCharKey_keeps
  | uiStopKey =>
    unfold TypedSetting.setter setUiStopKey
    exact setUiSingleCharKey_keeps
  | uiKeepKey =>
    unfold TypedSetting.setter setUiKeepKey
    exact setUiSingleCharKey_keeps
  | uiDiscardKey =>
    unfold TypedSetting.setter setUiDiscardKey
    exact setUiSingleCharKey_keeps
  | assemblerMissingEosTimeoutMs =>
    unfold TypedSetting.setter setAssemblerMissingEosTimeoutMs
    exact numberSetting_keeps fun _ => ⟨rfl, rfl⟩
  | assemblerStagingSlots =>
    unfold TypedSetting.setter setAssemblerStagingSlots
    exact numberSetting_keeps fun _ => ⟨rfl, rfl⟩
  | storageQueueSize =>
    unfold TypedSetting.setter setStorageQueueSize
    exact numberSetting_keeps fun _ => ⟨rfl, rfl⟩
  | monitorMetricsFrequencyHz =>
    unfold TypedSetting.setter setMonitorMetricsFrequencyHz
    exact numberSetting_keeps fun _ => ⟨rfl, rfl⟩

theorem applyEdit_effect {edit : SettingEdit α} {r : SetupSession α × Bool}
    (hedit : KeepsDevices s.config edit) (h : applyEdit floats s edit = .ok r) :
    Effect floats s command action r := by
  cases edit with
  | refused message =>
    cases h
    exact effect_same ⟨rfl, rfl⟩ rfl
  | unchanged =>
    cases h
    exact effect_same ⟨rfl, rfl⟩ rfl
  | written config label =>
    obtain ⟨hd, hp⟩ := hedit config label rfl
    have hsub : (config.pairings.map endpoints).Sublist (s.config.pairings.map endpoints) := by
      rw [hp]
    cases label with
    | none =>
      obtain ⟨hv, rfl⟩ := validated_eq_ok h
      exact .settings hv hd hsub rfl rfl
    | some label =>
      obtain rfl := Except.ok.inj h
      simp only [validatedOr]
      split
      · next hv => exact .settings hv hd hsub rfl rfl
      · exact effect_same ⟨rfl, rfl⟩ rfl

theorem cycleCollectionMode_effect {r : SetupSession α × Bool}
    (h : cycleCollectionMode floats s = .ok r) : Effect floats s command action r := by
  unfold cycleCollectionMode at h
  split at h
  · cases h
    exact effect_same ⟨rfl, rfl⟩ rfl
  · obtain ⟨hv, rfl⟩ := validated_eq_ok h
    refine .settings hv ?_ ?_ ?_ rfl
    · rw [ensureVisibleCurrentStep_config]
    · rw [ensureVisibleCurrentStep_config]
    · rw [ensureVisibleCurrentStep_availableDevices]

theorem map_config_eq_ok {x : Handled α} {applied : Applied α}
    (h : some (x.map configResult) = some (.ok applied)) :
    ∃ r, x = .ok r ∧ applied = configResult r := by
  cases x with
  | error e => cases h
  | ok r => exact ⟨r, rfl, (Except.ok.inj (Option.some.inj h)).symm⟩

theorem needed {β γ : Type} {o : Option β} {f : β → Option γ} {c : γ} (h : (o >>= f) = some c) :
    ∃ b, o = some b ∧ f b = some c := Option.bind_eq_some_iff.mp h

/-- What the handlers of an action work on. -/
inductive Family where
  | aside | subpanel | device | pairing | settings

def family : SetupAction → Family
  | .getState | .prevStep | .nextStep | .jumpStep | .openSubpanel | .closeSubpanel
  | .openAddPicker | .toggleIdentify | .save | .cancel => .aside
  | .subpanelTogglePreviewEnabled | .subpanelToggleRecordEnabled | .subpanelCyclePrimary
  | .subpanelCycleRecordField | .subpanelSetRecordField | .subpanelCyclePreviewField
  | .subpanelSetPreviewField | .subpanelSetControlFrequencyHz => .subpanel
  | .toggleDevice | .setDeviceName | .addPseudoCamera | .addPseudoRobot | .addCommandDevice
  | .cycleCameraProfile | .cycleRobotMode | .togglePublishState | .toggleRecordedState => .device
  | .cyclePairMapping | .createPairing | .removePairing | .setPairingEndpoint _
  | .setPairingRatio => .pairing
  | .cycleEpisodeFormat | .cycleStorageBackend | .cycleCollectionMode | .setTyped _ => .settings

variable {store : ProjectConfig α → String → Except String Unit} {applied : Applied α}

theorem aside_effect (hfamily : family action = .aside)
    (h : handler floats store s command action = some (.ok applied)) :
    Effect floats s command action (applied.session, applied.mutation.configChanged) := by
  cases action with
  | getState =>
    cases h
    exact effect_same ⟨rfl, rfl⟩ rfl
  | prevStep =>
    cases h
    exact effect_same ⟨goTo_config s _, goTo_availableDevices s _⟩ rfl
  | nextStep =>
    cases h
    exact effect_same ⟨goTo_config s _, goTo_availableDevices s _⟩ rfl
  | jumpStep =>
    obtain ⟨value, -, h⟩ := needed h
    cases h
    exact effect_same (jumpToStep_same s value) rfl
  | openSubpanel =>
    obtain ⟨name, -, h⟩ := needed h
    cases h
    exact effect_same (openSubpanel_same s name) rfl
  | closeSubpanel =>
    cases h
    exact effect_same ⟨rfl, rfl⟩ rfl
  | openAddPicker =>
    cases h
    exact openAddPicker_effect
  | toggleIdentify =>
    obtain ⟨name, -, h⟩ := needed h
    cases h
    exact effect_same (toggleIdentify_same s name).1 (toggleIdentify_same s name).2
  | save =>
    have h := Option.some.inj h
    cases hstore : store s.config s.outputPath with
    | error e =>
      rw [hstore] at h
      cases h
    | ok u =>
      rw [hstore] at h
      cases h
      exact effect_same ⟨rfl, rfl⟩ rfl
  | cancel =>
    cases h
    exact effect_same ⟨rfl, rfl⟩ rfl
  | _ => cases hfamily

theorem subpanel_effect (hfamily : family action = .subpanel)
    (h : handler floats store s command action = some (.ok applied)) :
    Effect floats s command action (applied.session, applied.mutation.configChanged) := by
  cases action with
  | subpanelTogglePreviewEnabled =>
    obtain ⟨name, hname, h⟩ := needed h
    cases h
    exact subpanelTogglePreviewEnabled_effect ⟨trivial, hname⟩
  | subpanelToggleRecordEnabled =>
    obtain ⟨name, hname, h⟩ := needed h
    cases h
    exact subpanelToggleRecordEnabled_effect ⟨trivial, hname⟩
  | subpanelCyclePrimary =>
    obtain ⟨name, hname, h⟩ := needed h
    cases h
    exact subpanelCyclePrimary_effect hname rfl
  | subpanelCycleRecordField =>
    obtain ⟨name, hname, h⟩ := needed h
    obtain ⟨field, -, h⟩ := needed h
    cases h
    exact subpanelCycleRecordField_effect ⟨trivial, hname⟩
  | subpanelSetRecordField =>
    obtain ⟨name, hname, h⟩ := needed h
    obtain ⟨field, -, h⟩ := needed h
    obtain ⟨value, -, h⟩ := needed h
    cases h
    exact subpanelSetRecordField_effect ⟨trivial, hname⟩
  | subpanelCyclePreviewField =>
    obtain ⟨name, hname, h⟩ := needed h
    obtain ⟨field, -, h⟩ := needed h
    cases h
    exact subpanelCyclePreviewField_effect ⟨trivial, hname⟩
  | subpanelSetPreviewField =>
    obtain ⟨name, hname, h⟩ := needed h
    obtain ⟨field, -, h⟩ := needed h
    obtain ⟨value, -, h⟩ := needed h
    cases h
    exact subpanelSetPreviewField_effect ⟨trivial, hname⟩
  | subpanelSetControlFrequencyHz =>
    obtain ⟨name, hname, h⟩ := needed h
    obtain ⟨value, -, h⟩ := needed h
    cases h
    exact subpanelSetControlFrequencyHz_effect ⟨trivial, hname⟩
  | _ => cases hfamily

theorem device_effect (hfamily : family action = .device)
    (h : handler floats store s command action = some (.ok applied)) :
    Effect floats s command action (applied.session, applied.mutation.configChanged) := by
  cases action with
  | toggleDevice =>
    obtain ⟨name, hname, h⟩ := needed h
    obtain ⟨r, hr, rfl⟩ := map_config_eq_ok h
    exact toggleDeviceSelection_effect rfl hname hr
  | setDeviceName =>
    obtain ⟨name, hname, h⟩ := needed h
    obtain ⟨value, -, h⟩ := needed h
    obtain ⟨r, hr, rfl⟩ := map_config_eq_ok h
    exact setDeviceName_effect ⟨trivial, hname⟩ hr
  | addPseudoCamera =>
    cases h
    exact addDevice_effect rfl
  | addPseudoRobot =>
    cases h
    exact addDevice_effect rfl
  | addCommandDevice =>
    cases h
    exact addDevice_effect rfl
  | cycleCameraProfile =>
    obtain ⟨name, hname, h⟩ := needed h
    cases h
    exact cycleRow_effect hname fun _ _ => rfl
  | cycleRobotMode =>
    obtain ⟨name, hname, h⟩ := needed h
    cases h
    exact cycleRow_effect hname fun _ _ => rfl
  | togglePublishState =>
    obtain ⟨name, hname, h⟩ := needed h
    obtain ⟨kind, -, h⟩ := needed h
    obtain ⟨r, hr, rfl⟩ := map_config_eq_ok h
    exact togglePublishState_effect ⟨trivial, hname⟩ hr
  | toggleRecordedState =>
    obtain ⟨name, hname, h⟩ := needed h
    obtain ⟨kind, -, h⟩ := needed h
    obtain ⟨r, hr, rfl⟩ := map_config_eq_ok h
    exact toggleRecordedState_effect ⟨trivial, hname⟩ hr
  | _ => cases hfamily

theorem pairing_effect (hfamily : family action = .pairing)
    (h : handler floats store s command action = some (.ok applied)) :
    Effect floats s command action (applied.session, applied.mutation.configChanged) := by
  cases action with
  | cyclePairMapping =>
    obtain ⟨index, hindex, h⟩ := needed h
    cases h
    exact cyclePairMapping_effect rfl hindex
  | createPairing =>
    cases h
    exact createPairing_effect rfl
  | removePairing =>
    obtain ⟨index, -, h⟩ := needed h
    obtain ⟨r, hr, rfl⟩ := map_config_eq_ok h
    exact removePairing_effect hr
  | setPairingEndpoint endpoint =>
    obtain ⟨index, hindex, h⟩ := needed h
    obtain ⟨value, hvalue, h⟩ := needed h
    obtain ⟨⟨device, channelType⟩, hsplit, h⟩ := needed h
    obtain ⟨r, hr, rfl⟩ := map_config_eq_ok h
    exact setPairingEndpoint_effect rfl hindex hvalue hsplit hr
  | setPairingRatio =>
    obtain ⟨index, -, h⟩ := needed h
    obtain ⟨value, -, h⟩ := needed h
    split at h
    · cases h
      exact effect_same ⟨rfl, rfl⟩ rfl
    · cases h
      exact setPairingRatio_effect
  | _ => cases hfamily

theorem settings_effect (hfamily : family action = .settings)
    (h : handler floats store s command action = some (.ok applied)) :
    Effect floats s command action (applied.session, applied.mutation.configChanged) := by
  cases action with
  | cycleEpisodeFormat =>
    obtain ⟨r, hr, rfl⟩ := map_config_eq_ok h
    refine applyEdit_effect (fun config label hw => ?_) hr
    cases hw
    exact ⟨rfl, rfl⟩
  | cycleStorageBackend =>
    obtain ⟨r, hr, rfl⟩ := map_config_eq_ok h
    refine applyEdit_effect (fun config label hw => ?_) hr
    cases hw
    exact ⟨rfl, rfl⟩
  | cycleCollectionMode =>
    obtain ⟨r, hr, rfl⟩ := map_config_eq_ok h
    exact cycleCollectionMode_effect hr
  | setTyped setting =>
    obtain ⟨value, -, h⟩ := needed h
    obtain ⟨r, hr, rfl⟩ := map_config_eq_ok h
    exact applyEdit_effect (setter_keeps s.config value setting) hr
  | _ => cases hfamily

theorem handler_effect (h : handler floats store s command action = some (.ok applied)) :
    Effect floats s command action (applied.session, applied.mutation.configChanged) := by
  cases hfamily : family action with
  | aside => exact aside_effect hfamily h
  | subpanel => exact subpanel_effect hfamily h
  | device => exact device_effect hfamily h
  | pairing => exact pairing_effect hfamily h
  | settings => exact settings_effect hfamily h

def Silent (o : Option (Except String (Applied α))) : Prop :=
  ∀ applied, o = some (.ok applied) → applied.written = none

theorem silent_ok {applied : Applied α} (h : applied.written = none) :
    Silent (some (.ok applied)) := by
  intro a ha
  cases ha
  exact h

theorem silent_map {x : Handled α} : Silent (some (x.map configResult)) := by
  intro a ha
  obtain ⟨r, -, rfl⟩ := map_config_eq_ok ha
  rfl

theorem silent_bind {β : Type} {o : Option β} {f : β → Option (Except String (Applied α))}
    (h : ∀ b, Silent (f b)) : Silent (o >>= f) := by
  intro a ha
  obtain ⟨b, -, hb⟩ := needed ha
  exact h b a hb

theorem handler_silent {store : ProjectConfig α → String → Except String Unit}
    (ha : action ≠ .save) : Silent (handler floats store s command action) := by
  cases action with
  | save => exact absurd rfl ha
  | setPairingEndpoint endpoint =>
    exact silent_bind fun _ => silent_bind fun _ => silent_bind fun _ => silent_map
  | setPairingRatio =>
    refine silent_bind fun _ => silent_bind fun value => ?_
    split
    · exact silent_ok rfl
    · exact silent_ok rfl
  | toggleIdentify =>
    refine silent_bind fun name => silent_ok ?_
    unfold toggleIdentify
    split
    · rfl
    · rfl
  | _ =>
    first
    | exact silent_ok rfl
    | exact silent_map
    | exact silent_bind fun _ => silent_ok rfl
    | exact silent_bind fun _ => silent_map
    | exact silent_bind fun _ => silent_bind fun _ => silent_ok rfl
    | exact silent_bind fun _ => silent_bind fun _ => silent_map
    | exact silent_bind fun _ => silent_bind fun _ => silent_bind fun _ => silent_ok rfl

end Handlers

structure IsCommand (raw : Except String SetupCommandEnvelope) (command : SetupCommandEnvelope)
    (action : SetupAction) : Prop where
  parsed : raw = .ok command
  msgType : command.msgType = "command"
  action : actionNames.lookup command.action = some action

/-- What a message does to the wizard: nothing, or what its command's handler does. -/
theorem applied_handler {store : ProjectConfig α → String → Except String Unit}
    {raw : Except String SetupCommandEnvelope} {applied : Applied α}
    (h : applyRawCommand floats store s raw = .ok applied) :
    applied = { session := s } ∨ ∃ command action, IsCommand raw command action ∧
      handler floats store s command action = some (.ok applied) := by
  unfold applyRawCommand at h
  split at h
  · cases h
  · next command =>
    split at h
    · cases h
      exact .inl rfl
    · next htype =>
      cases haction : actionNames.lookup command.action with
      | none =>
        rw [haction] at h
        cases h
        exact .inl rfl
      | some action =>
        rw [haction, Option.bind_some] at h
        cases hhandler : handler floats store s command action with
        | none =>
          rw [hhandler] at h
          cases h
          exact .inl rfl
        | some r =>
          rw [hhandler] at h
          exact .inr ⟨command, action, ⟨rfl, not_not.mp htype, haction⟩,
            by rw [hhandler, show r = .ok applied from h]⟩

theorem applied_effect {store : ProjectConfig α → String → Except String Unit}
    {raw : Except String SetupCommandEnvelope} {applied : Applied α}
    (h : applyRawCommand floats store s raw = .ok applied) :
    applied.session = s ∨ ∃ command action, IsCommand raw command action ∧
      Effect floats s command action (applied.session, applied.mutation.configChanged) := by
  rcases applied_handler h with rfl | ⟨command, action, hc, hh⟩
  · exact .inl rfl
  · exact .inr ⟨command, action, hc, handler_effect hh⟩

/-- Only a save writes a project, and it writes the one of the session. -/
theorem written_eq {store : ProjectConfig α → String → Except String Unit}
    {raw : Except String SetupCommandEnvelope} {applied : Applied α} {p : ProjectConfig α}
    (h : applyRawCommand floats store s raw = .ok applied) (hp : applied.written = some p) :
    p = s.config := by
  rcases applied_handler h with rfl | ⟨command, action, -, hh⟩
  · cases hp
  by_cases ha : action = .save
  · subst ha
    have hh := Option.some.inj hh
    cases hstore : store s.config s.outputPath with
    | error e =>
      rw [hstore] at hh
      cases hh
    | ok u =>
      rw [hstore] at hh
      cases hh
      exact (Option.some.inj hp).symm
  · rw [handler_silent ha applied hh] at hp
    cases hp

end SetupEffects
