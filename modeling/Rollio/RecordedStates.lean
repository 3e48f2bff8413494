import Rollio.DerivedConfigs
import Rollio.MirroredRows

/-! What the episode assembler records of the channels whose recorded states are toggled in the
setup wizard. -/
namespace RecordedStates
open BusMessages RuntimeConfig DeviceConfigs ProjectConfigs DerivedConfigs SetupState SetupDevices
open SetupEffects EditedProjects AcceptedProjects PairingValidity ProjectSlots MirroredRows
open SavedProjects (replacedDevice setChannel_getElem?)
open FirstMatch (key_ne)

variable {α : Type} {floats : Floats α} {s : SetupSession α}

section Observations
variable (platform : Platform α) {config : ProjectConfig α} {slot : ChannelSlot α}

def observationsOf (d : BinaryDeviceConfig α) (c : DeviceChannelConfigV2 α) :
    List AssemblerObservationRuntimeConfigV2 :=
  (resolveRobot platform d c).toList.flatMap assemblerObservations

def deviceObservations (d : BinaryDeviceConfig α) : List AssemblerObservationRuntimeConfigV2 :=
  d.channels.flatMap (observationsOf platform d)

def observationsWithout (config : ProjectConfig α) (slot : ChannelSlot α) (kind : RobotStateKind) :
    List AssemblerObservationRuntimeConfigV2 :=
  (config.devices.take slot.deviceIndex).flatMap (deviceObservations platform) ++
    ((slot.device.channels.take slot.channelIndex).flatMap (observationsOf platform slot.device) ++
      (observationsOf platform slot.device slot.channel).filter (·.stateKind ≠ kind) ++
      (slot.device.channels.drop (slot.channelIndex + 1)).flatMap
        (observationsOf platform slot.device)) ++
    (config.devices.drop (slot.deviceIndex + 1)).flatMap (deviceObservations platform)

theorem observations_eq (config : ProjectConfig α) (embeddedConfigToml : String) :
    (assemblerRuntimeConfigV2 platform config embeddedConfigToml).observations =
      config.devices.flatMap (deviceObservations platform) := by
  simp only [assemblerRuntimeConfigV2, resolvedRobotChannels, List.flatMap_assoc]
  congr 1
  funext d
  rw [deviceObservations, List.filterMap_eq_flatMap_toList, List.flatMap_assoc]
  rfl

theorem flatMap_at {β γ : Type} {f : β → List γ} {l : List β} {i : ℕ} {b : β}
    (h : l[i]? = some b) :
    l.flatMap f = (l.take i).flatMap f ++ f b ++ (l.drop (i + 1)).flatMap f := by
  obtain ⟨hi, hb⟩ := List.getElem?_eq_some_iff.mp h
  conv_lhs => rw [← List.take_append_drop i l, List.drop_eq_getElem_cons hi, hb]
  rw [List.flatMap_append, List.flatMap_cons, List.append_assoc]

theorem observations_setChannel (hl : Located config slot) (c : DeviceChannelConfigV2 α) :
    (setChannel config slot c).devices.flatMap (deviceObservations platform) =
      (config.devices.take slot.deviceIndex).flatMap (deviceObservations platform) ++
        ((slot.device.channels.take slot.channelIndex).flatMap
            (observationsOf platform slot.device) ++
          observationsOf platform slot.device c ++
          (slot.device.channels.drop (slot.channelIndex + 1)).flatMap
            (observationsOf platform slot.device)) ++
        (config.devices.drop (slot.deviceIndex + 1)).flatMap (deviceObservations platform) := by
  have hdevice : (setChannel config slot c).devices[slot.deviceIndex]? =
      some (replacedDevice slot c) := by
    rw [setChannel_getElem? hl, if_pos rfl]
  have hbefore : (setChannel config slot c).devices.take slot.deviceIndex =
      config.devices.take slot.deviceIndex := by
    apply List.ext_getElem?
    intro i
    rw [List.getElem?_take, List.getElem?_take, setChannel_getElem? hl]
    by_cases hi : i < slot.deviceIndex
    · rw [if_pos hi, if_pos hi, if_neg (by omega)]
    · rw [if_neg hi, if_neg hi]
  have hbehind : (setChannel config slot c).devices.drop (slot.deviceIndex + 1) =
      config.devices.drop (slot.deviceIndex + 1) := by
    apply List.ext_getElem?
    intro i
    rw [List.getElem?_drop, List.getElem?_drop, setChannel_getElem? hl, if_neg (by omega)]
  have hchannel : (replacedDevice slot c).channels[slot.channelIndex]? = some c := by
    have hlt := (List.getElem?_eq_some_iff.mp hl.channel).1
    simp [replacedDevice, hlt]
  rw [flatMap_at hdevice, hbefore, hbehind]
  congr 2
  rw [deviceObservations, flatMap_at hchannel]
  simp only [replacedDevice, List.take_set_of_le (Nat.le_refl _),
    List.drop_set_of_lt (Nat.lt_succ_self _)]
  rfl

/-- The states of a channel that are recorded: where none is listed, all that are published. -/
def shownStates (c : DeviceChannelConfigV2 α) : List RobotStateKind :=
  if c.recordedStates = [] then c.publishStates else c.recordedStates

def observation (d : BinaryDeviceConfig α) (c : DeviceChannelConfigV2 α) (kind : RobotStateKind) :
    AssemblerObservationRuntimeConfigV2 :=
  { channelId := deviceChannelId d.name c.channelType
    stateKind := kind
    stateTopic := robotStateTopicV2 d.busRoot c.channelType kind
    valueLen := RobotStateKind.valueLen kind (c.dof.getD 0) }

theorem observationsOf_robot {c : DeviceChannelConfigV2 α} (d : BinaryDeviceConfig α)
    (hk : c.kind = .robot) (he : c.enabled) :
    observationsOf platform d c =
      (c.publishStates.filter fun kind => (shownStates c).contains kind).map (observation d c) := by
  have hneither : ¬ (c.kind ≠ .robot ∨ (!c.enabled) = true) := by simp [hk, he]
  simp only [observationsOf, resolveRobot, if_neg hneither, Option.toList_some,
    List.flatMap_singleton, assemblerObservations, List.filter_map, List.map_map]
  rfl

section Lists
variable {d : BinaryDeviceConfig α} {c : DeviceChannelConfigV2 α} {kind : RobotStateKind}

def withRecorded (c : DeviceChannelConfigV2 α) (recordedStates : List RobotStateKind) :
    DeviceChannelConfigV2 α :=
  { c with publishStates := c.publishStates, recordedStates }

theorem filter_observations (hk : c.kind = .robot) (he : c.enabled) (hr : c.recordedStates ≠ []) :
    (observationsOf platform d c).filter (·.stateKind ≠ kind) =
      (c.publishStates.filter fun k => (c.recordedStates.filter (· ≠ kind)).contains k).map
        (observation d c) := by
  rw [observationsOf_robot platform d hk he, shownStates, if_neg hr, List.filter_map,
    List.filter_filter]
  congr 1
  apply List.filter_congr
  intro k _
  rw [Bool.eq_iff_iff]
  by_cases hsame : k = kind
  · simp [observation, hsame]
  · simp [observation, hsame]

theorem observationsOf_withRecorded (hk : c.kind = .robot) (he : c.enabled)
    {l : List RobotStateKind} (hl : l ≠ []) :
    observationsOf platform d (withRecorded c l) =
      (c.publishStates.filter fun k => l.contains k).map (observation d c) := by
  have hshown : shownStates (withRecorded c l) = l := if_neg hl
  have hrobot : observationsOf platform d (withRecorded c l) = _ :=
    @observationsOf_robot α platform (withRecorded c l) d hk he
  rw [hshown] at hrobot
  exact hrobot

theorem observationsOf_unrecorded (hk : c.kind = .robot) (he : c.enabled) :
    observationsOf platform d (withRecorded c []) = c.publishStates.map (observation d c) := by
  have hrobot : observationsOf platform d (withRecorded c []) = _ :=
    @observationsOf_robot α platform (withRecorded c []) d hk he
  have hall : c.publishStates.filter (fun k => c.publishStates.contains k) = c.publishStates := by
    apply List.filter_eq_self.mpr
    intro k hmem
    exact List.contains_iff_mem.mpr hmem
  exact hrobot.trans (congrArg (List.map (observation d c)) hall)

/-- Without one of its recorded kinds a channel is observed as before but for that kind, if it
still has another. -/
theorem turned_off_iff (hk : c.kind = .robot) (he : c.enabled) (hp : c.publishStates ≠ [])
    (hkind : kind ∈ c.recordedStates) :
    observationsOf platform d (withRecorded c (c.recordedStates.filter (· ≠ kind))) =
        (observationsOf platform d c).filter (·.stateKind ≠ kind) ↔
      ∃ other ∈ c.recordedStates, other ≠ kind := by
  rw [filter_observations platform hk he (List.ne_nil_of_mem hkind)]
  by_cases hleft : c.recordedStates.filter (· ≠ kind) = []
  · rw [hleft, observationsOf_unrecorded platform hk he]
    constructor
    · intro h
      have hlength := congrArg List.length h
      simp [hp] at hlength
    · intro ⟨other, hmem, hother⟩
      have hothers := List.filter_eq_nil_iff.mp hleft other hmem
      simp [hother] at hothers
  · rw [observationsOf_withRecorded platform hk he hleft]
    constructor
    · intro _
      obtain ⟨other, hmem⟩ := List.exists_mem_of_ne_nil _ hleft
      obtain ⟨hmem, hother⟩ := List.mem_filter.mp hmem
      exact ⟨other, hmem, by simpa using hother⟩
    · intro _
      rfl

theorem turned_on (hk : c.kind = .robot) (he : c.enabled) (hkind : kind ∈ c.recordedStates) :
    observationsOf platform d (withRecorded c (c.recordedStates.filter (· ≠ kind) ++ [kind])) =
      observationsOf platform d c := by
  have hnew : c.recordedStates.filter (· ≠ kind) ++ [kind] ≠ [] := by simp
  rw [observationsOf_withRecorded platform hk he hnew, observationsOf_robot platform d hk he,
    shownStates, if_neg (List.ne_nil_of_mem hkind)]
  congr 1
  apply List.filter_congr
  intro k _
  rw [Bool.eq_iff_iff]
  by_cases hsame : k = kind
  · subst hsame
    simp [hkind]
  · simp [hsame]

end Lists

end Observations

section Edits
variable {platform : Platform α} {config : ProjectConfig α} {slot : ChannelSlot α}

def recordEdit (slot : ChannelSlot α) (l : List RobotStateKind) (deviceName : String)
    (c : DeviceChannelConfigV2 α) : DeviceChannelConfigV2 α :=
  if deviceName = slot.device.name ∧ c.channelType = slot.channel.channelType then withRecorded c l
  else c

theorem setChannel_eq_edit (h : Accepted platform config) (hl : Located config slot)
    (l : List RobotStateKind) :
    setChannel config slot (withRecorded slot.channel l) = editChannels config (recordEdit slot l) := by
  have hdevices : (setChannel config slot (withRecorded slot.channel l)).devices =
      (editChannels config (recordEdit slot l)).devices := by
    apply List.ext_getElem?
    intro i
    rw [setChannel_getElem? hl, editChannels, List.getElem?_map]
    by_cases hi : slot.deviceIndex = i
    · subst hi
      rw [if_pos rfl, hl.device, Option.map_some, Option.some.injEq]
      have hchannels : slot.device.channels.set slot.channelIndex (withRecorded slot.channel l) =
          slot.device.channels.map (recordEdit slot l slot.device.name) := by
        apply List.ext_getElem?
        intro j
        rw [List.getElem?_map]
        by_cases hj : slot.channelIndex = j
        · subst hj
          have hlt := (List.getElem?_eq_some_iff.mp hl.channel).1
          rw [List.getElem?_set_self hlt, hl.channel, Option.map_some, recordEdit,
            if_pos ⟨rfl, rfl⟩]
        · rw [List.getElem?_set_ne hj]
          cases hc : slot.device.channels[j]? with
          | none => rfl
          | some c =>
            have htypes := (h.devices _ (List.mem_of_getElem? hl.device)).channelTypes
            rw [Option.map_some, recordEdit,
              if_neg fun hboth => key_ne htypes hl.channel hc hj hboth.2.symm]
      rw [replacedDevice, editDevice, hchannels]
    · rw [if_neg hi]
      cases hd : config.devices[i]? with
      | none => rfl
      | some d =>
        have hother : recordEdit slot l d.name = id := by
          funext c
          exact if_neg fun hboth => key_ne h.names hl.device hd hi hboth.1.symm
        rw [Option.map_some, editDevice, hother, List.map_id]
  exact congrArg (fun devices => ({ config with devices } : ProjectConfig α)) hdevices

theorem accepted_recorded (h : Accepted platform config) (hl : Located config slot)
    (hk : slot.channel.kind = .robot) {l : List RobotStateKind}
    (hsub : l ⊆ slot.channel.publishStates) :
    (setChannel config slot (withRecorded slot.channel l)).validate platform = .ok () := by
  apply validate_iff.mpr
  rw [setChannel_eq_edit h hl]
  have hdevice := h.devices _ (List.mem_of_getElem? hl.device)
  -- The one channel that is edited.
  have hslot : ∀ d ∈ config.devices, ∀ c ∈ d.channels,
      recordEdit slot l d.name c = c ∨ (d = slot.device ∧ c = slot.channel) := by
    intro d hd c hc
    by_cases hboth : d.name = slot.device.name ∧ c.channelType = slot.channel.channelType
    · obtain rfl : d = slot.device :=
        List.inj_on_of_nodup_map h.names hd (List.mem_of_getElem? hl.device) hboth.1
      exact .inr ⟨rfl, List.inj_on_of_nodup_map hdevice.channelTypes hc
        (List.mem_of_getElem? hl.channel) hboth.2⟩
    · exact .inl (if_neg hboth)
  apply accepted_edit h
  · intro d hd c hc
    unfold recordEdit
    split
    · exact ⟨rfl, rfl, rfl, rfl, rfl, List.Subset.refl _⟩
    · exact SameShape.refl c
  · intro d hd c hc
    rcases hslot d hd c hc with hsame | ⟨rfl, rfl⟩
    · rw [hsame]
      exact (h.devices d hd).channels c hc
    · rw [recordEdit, if_pos ⟨rfl, rfl⟩]
      have ha := (robot_validate_iff hk).mp (hdevice.channels _ hc)
      exact (@robot_validate_iff α platform _ (withRecorded slot.channel l) hk).mpr
        { ha with recordedStates := hsub }
  · intro d hd c hc hcamera
    rcases hslot d hd c hc with hsame | ⟨rfl, rfl⟩
    · exact hsame
    · exact absurd (hk.symm.trans hcamera) (by decide)

end Edits

section Toggles
variable {name : String} {slot : ChannelSlot α} {kind : RobotStateKind}

def rowRecorded (slot : ChannelSlot α) (l : List RobotStateKind)
    (channel : DeviceChannelConfigV2 α) : DeviceChannelConfigV2 α :=
  { channel with publishStates := slot.channel.publishStates, recordedStates := l }

def recorded (s : SetupSession α) (name : String) (slot : ChannelSlot α)
    (l : List RobotStateKind) : SetupSession α :=
  { s.modifyAvailableChannel name (rowRecorded slot l) with
    config := setChannel s.config slot (withRecorded slot.channel l) }

theorem selected_recorded (hslot : s.selectedDeviceIndex name = some slot)
    (l : List RobotStateKind) :
    (recorded s name slot l).selectedDeviceIndex name =
      some { slot with
        device := replacedDevice slot (withRecorded slot.channel l)
        channel := withRecorded slot.channel l } := by
  obtain ⟨hconfigured, henabled⟩ := selected_spec hslot
  obtain ⟨row, hrow, hl, hid⟩ := configured_spec hconfigured
  have hrow' : (recorded s name slot l).availableDevice name =
      some (row.withChannel (rowRecorded slot l row.channel)) := by
    have hfound : (recorded s name slot l).availableDevice name =
        (s.availableDevice name).map fun row => row.withChannel (rowRecorded slot l row.channel) := by
      apply FirstMatch.find?_modifyFirst
      intro row
      rfl
    rw [hfound, hrow, Option.map_some]
  have hset := @located_set α s.config slot (withRecorded slot.channel l) hl
  have hi : (row.withChannel (rowRecorded slot l row.channel)).identity =
        slotIdentity { slot with
          device := replacedDevice slot (withRecorded slot.channel l)
          channel := withRecorded slot.channel l } := hid
  have hnew : Located (recorded s name slot l).config _ := hset
  obtain ⟨slot', hslot'⟩ := configured_exists hrow' hnew hi
  obtain ⟨row'', hrow'', hl', hid'⟩ := configured_spec hslot'
  obtain rfl := Option.some.inj (hrow'.symm.trans hrow'')
  have hfirst' := configured_first hslot' hrow' hnew hi
  have hplace : SamePlace slot' slot := by
    rcases located_setChannel hl hl' with ⟨hplace, -, -⟩ | ⟨old, hold, hplace, hd, hc, hne⟩
    · exact hplace
    · -- The first of its identity was the first before.
      have hfirst := configured_first hconfigured hrow hold
        (hid'.trans (slotIdentity_congr hd (hc ▸ rfl) (hc ▸ rfl)))
      have hdevice := hplace.device
      have hchannel := hplace.channel
      dsimp only at hfirst'
      exact absurd ⟨by omega, by omega⟩ hne
  obtain ⟨hdevice, hchannel⟩ := located_inj hl' hset ⟨hplace.device, hplace.channel⟩
  rw [selected_of hslot' (by rw [hchannel]; exact henabled)]
  obtain ⟨i, j, d, c⟩ := slot'
  obtain ⟨rfl, rfl⟩ := hplace
  cases hdevice
  cases hchannel
  rfl

theorem setChannel_setChannel (config : ProjectConfig α) (slot : ChannelSlot α)
    (c c' : DeviceChannelConfigV2 α) :
    setChannel (setChannel config slot c)
        { slot with device := replacedDevice slot c, channel := c } c' =
      setChannel config slot c' := by
  simp only [setChannel, List.modify_modify_eq, Function.comp_def, List.set_set]

theorem setChannel_self {config : ProjectConfig α} (hl : Located config slot) :
    setChannel config slot slot.channel = config :=
  (setChannel_setChannel config slot slot.channel slot.channel).symm.trans
    (setChannel_restore hl slot.channel)

theorem setStateLists_recorded (h : Accepted floats.toPlatform s.config)
    (hslot : s.selectedDeviceIndex name = some slot) (hk : slot.channel.kind = .robot)
    {l : List RobotStateKind} (hsub : l ⊆ slot.channel.publishStates) :
    setStateLists floats s name slot slot.channel.publishStates l =
      .ok (recorded s name slot l, true) := by
  obtain ⟨-, -, hl, -⟩ := configured_spec (selected_spec hslot).1
  have hvalid : (recorded s name slot l).config.validate floats.toPlatform = .ok () :=
    accepted_recorded h hl hk hsub
  unfold setStateLists validated
  split
  · rfl
  · next e he => cases hvalid.symm.trans he

theorem toggle_of_recorded (hslot : s.selectedDeviceIndex name = some slot)
    (hk : slot.channel.kind = .robot) (hkind : kind ∈ slot.channel.recordedStates) :
    toggleRecordedState floats s name kind =
      setStateLists floats s name slot slot.channel.publishStates
        (slot.channel.recordedStates.filter (· ≠ kind)) := by
  have hrobot : ¬ slot.channel.kind ≠ .robot := not_not.mpr hk
  simp only [toggleRecordedState, hslot, if_neg hrobot, if_pos hkind]

theorem toggle_of_unrecorded (hslot : s.selectedDeviceIndex name = some slot)
    (hk : slot.channel.kind = .robot) (hkind : kind ∉ slot.channel.recordedStates)
    (hpublished : kind ∈ slot.channel.publishStates) :
    toggleRecordedState floats s name kind =
      setStateLists floats s name slot slot.channel.publishStates
        (slot.channel.recordedStates ++ [kind]) := by
  have hrobot : ¬ slot.channel.kind ≠ .robot := not_not.mpr hk
  have hknown : ¬ kind ∉ slot.channel.publishStates := not_not.mpr hpublished
  simp only [toggleRecordedState, hslot, if_neg hrobot, if_neg hkind, if_neg hknown]

/-- A recorded kind that is turned off is no longer observed, and nothing else changes, exactly if
the channel records another kind too; turned on again, everything is observed as before. -/
theorem toggle_recorded_state_shows {embeddedConfigToml : String}
    (hvalid : s.config.validate floats.toPlatform = .ok ())
    (hslot : s.selectedDeviceIndex name = some slot) (hrobot : slot.channel.kind = .robot)
    (hkind : kind ∈ slot.channel.recordedStates) :
    ∃ off on, toggleRecordedState floats s name kind = .ok (off, true) ∧
      toggleRecordedState floats off name kind = .ok (on, true) ∧
      (((assemblerRuntimeConfigV2 floats.toPlatform off.config embeddedConfigToml).observations =
          observationsWithout floats.toPlatform s.config slot kind ∧
        (assemblerRuntimeConfigV2 floats.toPlatform on.config embeddedConfigToml).observations =
          (assemblerRuntimeConfigV2 floats.toPlatform s.config embeddedConfigToml).observations) ↔
        ∃ other ∈ slot.channel.recordedStates, other ≠ kind) := by
  have h := validate_iff.mp hvalid
  obtain ⟨hconfigured, henabled⟩ := selected_spec hslot
  obtain ⟨-, -, hl, -⟩ := configured_spec hconfigured
  have ha : AcceptedRobot floats.toPlatform slot.device.name slot.channel :=
    (robot_validate_iff hrobot).mp ((h.devices _ (List.mem_of_getElem? hl.device)).channels _
      (List.mem_of_getElem? hl.channel))
  have hsub : slot.channel.recordedStates.filter (· ≠ kind) ⊆ slot.channel.publishStates :=
    fun k hk => ha.recordedStates (List.mem_of_mem_filter hk)
  have hsub' : slot.channel.recordedStates.filter (· ≠ kind) ++ [kind] ⊆
      slot.channel.publishStates := by
    intro k hk
    rcases List.mem_append.mp hk with hk | hk
    · exact hsub hk
    · rw [List.mem_singleton.mp hk]
      exact ha.recordedStates hkind
  have hoff := setStateLists_recorded h hslot hrobot hsub
  have hoffAccepted : Accepted floats.toPlatform (recorded s name slot
      (slot.channel.recordedStates.filter (· ≠ kind))).config :=
    validate_iff.mp (accepted_recorded h hl hrobot hsub)
  have hslot' := selected_recorded hslot (slot.channel.recordedStates.filter (· ≠ kind))
  have hon := setStateLists_recorded hoffAccepted hslot' hrobot hsub'
  have hnot : kind ∉ slot.channel.recordedStates.filter (· ≠ kind) := by simp
  refine ⟨_, _, (toggle_of_recorded hslot hrobot hkind).trans hoff,
    (toggle_of_unrecorded hslot' hrobot hnot (ha.recordedStates hkind)).trans hon, ?_⟩
  have hrestored : (recorded (recorded s name slot (slot.channel.recordedStates.filter (· ≠ kind)))
      name { slot with
        device := replacedDevice slot
          (withRecorded slot.channel (slot.channel.recordedStates.filter (· ≠ kind)))
        channel := withRecorded slot.channel (slot.channel.recordedStates.filter (· ≠ kind)) }
      (slot.channel.recordedStates.filter (· ≠ kind) ++ [kind])).config =
        setChannel s.config slot (withRecorded slot.channel
          (slot.channel.recordedStates.filter (· ≠ kind) ++ [kind])) :=
    setChannel_setChannel s.config slot _ _
  have hsame : (setChannel s.config slot (withRecorded slot.channel
      (slot.channel.recordedStates.filter (· ≠ kind) ++ [kind]))).devices.flatMap
        (deviceObservations floats.toPlatform) =
      s.config.devices.flatMap (deviceObservations floats.toPlatform) := by
    rw [observations_setChannel _ hl, turned_on _ hrobot henabled hkind,
      ← observations_setChannel _ hl, setChannel_self hl]
  rw [hrestored, observations_eq, observations_eq, observations_eq, hsame, and_iff_left rfl]
  show (setChannel s.config slot _).devices.flatMap _ = _ ↔ _
  rw [observations_setChannel _ hl, observationsWithout, List.append_left_inj, List.append_right_inj,
    List.append_left_inj, List.append_right_inj]
  exact turned_off_iff _ hrobot henabled (ha.publishStates henabled) hkind

end Toggles

section Arms

def recordedArm (name : String) (recordedStates : List RobotStateKind) : BinaryDeviceConfig ℚ :=
  { name, driver := "play", id := name, busRoot := name
    channels := [{ channelType := "arm", kind := .robot, mode := some .freeDrive, dof := some 2
                   publishStates := [.jointPosition, .jointVelocity], recordedStates }] }

def recordingSession (recordedStates : List RobotStateKind) : SetupSession ℚ :=
  .new (sampleProject [recordedArm "left" recordedStates] [])
    [pickedRow (recordedArm "left" recordedStates)] "project.toml" false

def recordedSlot (recordedStates : List RobotStateKind) : ChannelSlot ℚ where
  deviceIndex := 0
  channelIndex := 0
  device := recordedArm "left" recordedStates
  channel := { channelType := "arm", kind := .robot, mode := some .freeDrive, dof := some 2
               publishStates := [.jointPosition, .jointVelocity], recordedStates }

theorem velocity_unrecorded :
    ∃ off on, toggleRecordedState rationalFloats
        (recordingSession [.jointPosition, .jointVelocity]) "robot|play|left|arm|-"
        .jointVelocity = .ok (off, true) ∧
      toggleRecordedState rationalFloats off "robot|play|left|arm|-" .jointVelocity =
        .ok (on, true) ∧
      ((assemblerRuntimeConfigV2 rationals off.config "").observations =
          observationsWithout rationals (recordingSession [.jointPosition, .jointVelocity]).config
            (recordedSlot [.jointPosition, .jointVelocity]) .jointVelocity ∧
        (assemblerRuntimeConfigV2 rationals on.config "").observations =
          (assemblerRuntimeConfigV2 rationals
            (recordingSession [.jointPosition, .jointVelocity]).config "").observations) := by
  obtain ⟨off, on, hoff, hon, hiff⟩ := @toggle_recorded_state_shows ℚ rationalFloats
    (recordingSession [.jointPosition, .jointVelocity]) "robot|play|left|arm|-"
    (recordedSlot [.jointPosition, .jointVelocity]) .jointVelocity "" (by decide +kernel) rfl rfl
    (by decide)
  exact ⟨off, on, hoff, hon, hiff.mpr ⟨.jointPosition, by decide, by decide⟩⟩

/-- The only recorded kind: with nothing listed any more, both kinds are recorded. -/
theorem last_kind_unrecorded :
    (recordingSession [.jointPosition]).config.validate rationals = .ok () ∧
    (recordingSession [.jointPosition]).selectedDeviceIndex "robot|play|left|arm|-" =
      some (recordedSlot [.jointPosition]) ∧
    ∃ off, toggleRecordedState rationalFloats (recordingSession [.jointPosition])
        "robot|play|left|arm|-" .jointPosition = .ok (off, true) ∧
      ((assemblerRuntimeConfigV2 rationals (recordingSession [.jointPosition]).config
        "").observations.map (·.stateKind)) = [.jointPosition] ∧
      ((assemblerRuntimeConfigV2 rationals off.config "").observations.map (·.stateKind)) =
        [.jointPosition, .jointVelocity] ∧
      observationsWithout rationals (recordingSession [.jointPosition]).config
        (recordedSlot [.jointPosition]) .jointPosition = [] :=
  ⟨by decide +kernel, rfl, _, rfl, by decide +kernel, by decide +kernel, by decide +kernel⟩

end Arms

end RecordedStates
