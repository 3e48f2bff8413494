import Rollio.PairingValidity
import Rollio.SetupEffects

/-! Which projects the setup wizard saves. -/
namespace SavedProjects
open BusMessages RuntimeConfig TeleopConfig DeviceConfigs ProjectConfigs Outcomes AcceptedProjects
open SetupState SetupPairings SetupDevices SetupCommands SetupEffects EditedProjects PairingValidity

variable {α : Type} {floats : Floats α} {platform : Platform α}

/-- A channel that can stand in the place of another one. -/
structure Fits (platform : Platform α) (config : ProjectConfig α) (slot : ChannelSlot α)
    (c : DeviceChannelConfigV2 α) : Prop where
  checked : c.validate platform slot.device.name = .ok ()
  typeFree : ∀ (j : ℕ) (c' : DeviceChannelConfigV2 α), slot.device.channels[j]? = some c' →
    j ≠ slot.channelIndex → c'.channelType ≠ c.channelType
  record : c.kind = .camera → c.enabled → (recordConfigOf c).validate = .ok ()
  preview : c.kind = .camera → c.enabled → c.previewEnabled →
    (previewConfigOf c).outputMode ≠ .encoded →
    ∀ profile, c.profile = some profile → profile.pixelFormat ≠ .h264AnnexB
  pairings : ∀ p ∈ config.pairings, p.validate platform (setChannel config slot c) = .ok ()

section Replaced
variable {config : ProjectConfig α} {slot : ChannelSlot α} {c : DeviceChannelConfigV2 α}

def replacedDevice (slot : ChannelSlot α) (c : DeviceChannelConfigV2 α) : BinaryDeviceConfig α :=
  { slot.device with channels := slot.device.channels.set slot.channelIndex c }

theorem setChannel_getElem? (hl : Located config slot) (i : ℕ) :
    (setChannel config slot c).devices[i]? =
      if slot.deviceIndex = i then some (replacedDevice slot c) else config.devices[i]? := by
  show (config.devices.modify _ _)[i]? = _
  rw [List.getElem?_modify]
  by_cases hi : slot.deviceIndex = i
  · subst hi
    simp only [if_true, hl.device, Option.map_eq_map, Option.map_some]
    rfl
  · simp [hi]

/-- The devices afterwards are those before, but for the one whose channel was replaced. -/
theorem mem_setChannel (hl : Located config slot) {d : BinaryDeviceConfig α}
    (hd : d ∈ (setChannel config slot c).devices) :
    d = replacedDevice slot c ∨ d ∈ config.devices := by
  obtain ⟨i, hi⟩ := List.getElem?_of_mem hd
  rw [setChannel_getElem? hl] at hi
  split at hi
  · exact .inl (Option.some.inj hi).symm
  · exact .inr (List.mem_of_getElem? hi)

theorem map_setChannel {β : Type} {g : BinaryDeviceConfig α → β} (hl : Located config slot)
    (hg : g (replacedDevice slot c) = g slot.device) :
    (setChannel config slot c).devices.map g = config.devices.map g := by
  apply List.ext_getElem?
  intro i
  rw [List.getElem?_map, List.getElem?_map, setChannel_getElem? hl]
  split
  · next hi =>
    subst hi
    rw [hl.device, Option.map_some, Option.map_some, hg]
  · rfl

theorem mem_replacedDevice {c' : DeviceChannelConfigV2 α}
    (h : c' ∈ (replacedDevice slot c).channels) : c' ∈ slot.device.channels ∨ c' = c :=
  List.mem_or_eq_of_mem_set h

theorem replaced_types (hl : Located config slot)
    (hn : (slot.device.channels.map (·.channelType)).Nodup)
    (hfree : ∀ (j : ℕ) (c' : DeviceChannelConfigV2 α), slot.device.channels[j]? = some c' →
      j ≠ slot.channelIndex → c'.channelType ≠ c.channelType) :
    ((replacedDevice slot c).channels.map (·.channelType)).Nodup := by
  have hlt : slot.channelIndex < slot.device.channels.length :=
    (List.getElem?_eq_some_iff.mp hl.channel).1
  rw [List.nodup_iff_getElem?_ne_getElem?] at hn ⊢
  intro i j hij hj
  simp only [replacedDevice, List.length_map, List.length_set] at hj
  have hi : i < slot.device.channels.length := by omega
  have hold := hn i j hij (by simpa using hj)
  simp only [replacedDevice, List.getElem?_map, List.getElem?_set] at hold ⊢
  split
  · next hsi =>
    subst hsi
    rw [if_neg (by omega), List.getElem?_eq_getElem hj]
    simpa using (hfree j _ (List.getElem?_eq_getElem hj) (by omega)).symm
  · split
    · next hsj =>
      subst hsj
      rw [List.getElem?_eq_getElem hi]
      simpa using hfree i _ (List.getElem?_eq_getElem hi) (by omega)
    · exact hold

/-- An accepted project stays accepted when a channel that fits replaces one of its own. -/
theorem accepted_setChannel (h : Accepted platform config) (hl : Located config slot)
    (hf : Fits platform config slot c) : Accepted platform (setChannel config slot c) := by
  have hmem : slot.device ∈ config.devices := List.mem_of_getElem? hl.device
  have hdevice := h.devices slot.device hmem
  have hname : (replacedDevice slot c).name = slot.device.name := rfl
  have hne : (setChannel config slot c).devices ≠ [] := by
    intro hn
    have hlen := congrArg List.length (map_setChannel (c := c) hl (g := fun d => d.name) rfl)
    rw [hn] at hlen
    exact h.nonempty (List.length_eq_zero_iff.mp (by simpa using hlen.symm))
  refine
    { h with
      nonempty := hne
      names := (map_setChannel hl (g := fun d => d.name) rfl).symm ▸ h.names
      busRoots := (map_setChannel hl (g := fun d => d.busRoot) rfl).symm ▸ h.busRoots
      devices := ?_
      pairings := hf.pairings
      records := ?_
      previews := ?_ }
  · intro d hd
    rcases mem_setChannel hl hd with rfl | hd
    · refine { hdevice with nonempty := ?_, channelTypes := ?_, channels := ?_ }
      · intro hn
        exact hdevice.nonempty (by simpa [replacedDevice] using hn)
      · exact replaced_types hl hdevice.channelTypes hf.typeFree
      · intro c' hc'
        rcases mem_replacedDevice hc' with hc' | rfl
        · exact hdevice.channels c' hc'
        · exact hf.checked
    · exact h.devices d hd
  · intro d hd c' hc' hk he
    rcases mem_setChannel hl hd with rfl | hd
    · rcases mem_replacedDevice hc' with hc' | rfl
      · exact h.records slot.device hmem c' hc' hk he
      · exact hf.record hk he
    · exact h.records d hd c' hc' hk he
  · intro d hd c' hc' hk he hp ho profile hprofile
    rcases mem_setChannel hl hd with rfl | hd
    · rcases mem_replacedDevice hc' with hc' | rfl
      · exact h.previews slot.device hmem c' hc' hk he hp ho profile hprofile
      · exact hf.preview hk he hp ho profile hprofile
    · exact h.previews d hd c' hc' hk he hp ho profile hprofile

end Replaced

/-- A cycling command writes a channel that fits. -/
def CycleFits (floats : Floats α) (s : SetupSession α) (raw : Except String SetupCommandEnvelope) :
    Prop :=
  ∀ command action name slot row c, IsCommand raw command action → command.name = some name →
    s.selectedDeviceIndex name = some slot → s.availableDevice name = some row →
    cycledChannel row (normalizedDelta command.delta) action = some c →
    Fits floats.toPlatform s.config slot c

/-- The commands whose handlers write a row's channel over the project's without a check. -/
def Cycles : SetupAction → Prop
  | .cycleCameraProfile => True
  | .cycleRobotMode => True
  | .subpanelCyclePrimary => True
  | _ => False

/-- The sessions whose project has been checked: it was opened on a valid one, or a command has
checked what it changed, and whatever was cycled since then fits. -/
inductive Checked (floats : Floats α) (store : ProjectConfig α → String → Except String Unit)
    (opened : SetupSession α) : SetupSession α → Prop where
  | opened : opened.config.validate floats.toPlatform = .ok () → Checked floats store opened opened
  | checked {s raw command action applied} : Reached floats store opened s →
      applyRawCommand floats store s raw = .ok applied → IsCommand raw command action →
      ¬ Cycles action → applied.mutation.configChanged → Checked floats store opened applied.session
  | command {s raw applied} : Checked floats store opened s →
      applyRawCommand floats store s raw = .ok applied → CycleFits floats s raw →
      Checked floats store opened applied.session
  | loop {s s'} : Checked floats store opened s → LoopChange s s' → Checked floats store opened s'

theorem valid_of_reported {s : SetupSession α} {command : SetupCommandEnvelope}
    {action : SetupAction} {r : SetupSession α × Bool} (h : Effect floats s command action r)
    (ha : ¬ Cycles action) (hr : r.2 = true) : r.1.config.validate floats.toPlatform = .ok () := by
  cases h with
  | same _ _ hno => exact absurd (hr.symm.trans hno) (by decide)
  | settings hv => exact hv
  | channel _ _ _ _ _ hv => exact hv
  | cycled _ _ row c _ _ _ hc =>
    cases action with
    | cycleCameraProfile => exact absurd trivial ha
    | cycleRobotMode => exact absurd trivial ha
    | subpanelCyclePrimary => exact absurd trivial ha
    | _ => cases hc
  | deselected _ _ hv => exact hv
  | reselected _ _ _ _ hv => exact hv
  | added _ _ _ hv => exact hv
  | mapped _ _ _ _ _ hv => exact hv
  | paired _ _ _ _ hv => exact hv
  | takenBack _ _ _ _ _ _ _ hno => exact absurd (hr.symm.trans hno) (by decide)

/-- From a valid project every command leads to a valid one, where what it cycles fits. -/
theorem valid_step {s : SetupSession α} {raw : Except String SetupCommandEnvelope}
    {command : SetupCommandEnvelope} {action : SetupAction} {r : SetupSession α × Bool}
    (hc : IsCommand raw command action) (hfits : CycleFits floats s raw)
    (hs : s.config.validate floats.toPlatform = .ok ()) (h : Effect floats s command action r) :
    r.1.config.validate floats.toPlatform = .ok () := by
  cases h with
  | same heq => exact heq ▸ hs
  | settings hv => exact hv
  | channel _ _ _ _ _ hv => exact hv
  | cycled name slot row c hname hslot hrow hcycled hconfig =>
    obtain ⟨-, -, hlocated, -⟩ := configured_spec (selected_spec hslot).1
    rw [hconfig]
    exact validate_iff.mpr (accepted_setChannel (validate_iff.mp hs) hlocated
      (hfits command action name slot row c hc hname hslot hrow hcycled))
  | deselected _ _ hv => exact hv
  | reselected _ _ _ _ hv => exact hv
  | added _ _ _ hv => exact hv
  | mapped _ _ _ _ _ hv => exact hv
  | paired _ _ _ _ hv => exact hv
  | takenBack pair _ _ hoffered hinvalid =>
    obtain ⟨hl, hf, hne⟩ := hoffered
    exact absurd (validate_iff.mpr (createPairingOf_valid (validate_iff.mp hs) hl hf hne)) hinvalid

theorem checked_valid {store : ProjectConfig α → String → Except String Unit}
    {opened s : SetupSession α} (h : Checked floats store opened s) :
    s.config.validate floats.toPlatform = .ok () := by
  induction h with
  | opened hv => exact hv
  | checked _ happlied hc ha hr =>
    rcases applied_handler happlied with rfl | ⟨command, action, hc', hh⟩
    · cases hr
    · obtain rfl := Except.ok.inj (hc.parsed.symm.trans hc'.parsed)
      obtain rfl := Option.some.inj (hc.action.symm.trans hc'.action)
      exact valid_of_reported (handler_effect hh) ha hr
  | command _ happlied hfits ih =>
    rcases applied_effect happlied with rfl | ⟨command, action, hc, he⟩
    · exact ih
    · exact valid_step hc hfits ih he
  | loop _ hl ih => exact (loopChange_same hl).1 ▸ ih

/-- Whatever a save writes in such a session passes the check. -/
theorem saved_valid {store : ProjectConfig α → String → Except String Unit}
    {opened s : SetupSession α} (h : Checked floats store opened s)
    {raw : Except String SetupCommandEnvelope} {applied : Applied α}
    (happlied : applyRawCommand floats store s raw = .ok applied) {written : ProjectConfig α}
    (hw : applied.written = some written) : written.validate floats.toPlatform = .ok () := by
  rw [written_eq happlied hw]
  exact checked_valid h

def anyStore : ProjectConfig ℚ → String → Except String Unit := fun _ _ => .ok ()

def saveCommand : SetupCommandEnvelope := { msgType := "command", action := "setup_save" }

theorem picked_arms_saved : pickedSession.config.validate rationals = .ok () :=
  @saved_valid ℚ rationalFloats anyStore pickedSession pickedSession
    (.opened (by decide +kernel)) (.ok saveCommand) _ rfl _ rfl

def jpegCamera : BinaryDeviceConfig ℚ :=
  { sampleCamera with channels :=
      [{ channelType := "color", kind := .camera
         previewSettings := some { outputMode := some .jpeg }
         profile := some { width := 640, height := 480, fps := 30, pixelFormat := .yuyv } }] }

def jpegRow : AvailableDevice ℚ :=
  { AvailableDevice.ofDevice "camera|v4l2|video0|color|-" "Camera" .camera [] [] jpegCamera
      (jpegCamera.channels.headD { channelType := "color", kind := .camera }) with
    cameraProfiles :=
      [{ width := 640, height := 480, fps := 30, pixelFormat := .yuyv },
        { width := 640, height := 480, fps := 30, pixelFormat := .h264AnnexB }] }

def jpegSession : SetupSession ℚ := .new (sampleProject [jpegCamera] []) [jpegRow] "project.toml" true

def cycleCommand : SetupCommandEnvelope :=
  { msgType := "command", action := "setup_cycle_camera_profile"
    name := some "camera|v4l2|video0|color|-" }

/-- A valid project that a camera's next profile has made invalid is saved as it is. -/
theorem unchecked_saves :
    ∃ cycled applied written, jpegSession.config.validate rationals = .ok () ∧
      applyRawCommand rationalFloats anyStore jpegSession (.ok cycleCommand) = .ok cycled ∧
      Reached rationalFloats anyStore jpegSession cycled.session ∧
      applyRawCommand rationalFloats anyStore cycled.session (.ok saveCommand) = .ok applied ∧
      applied.written = some written ∧ written.validate rationals ≠ .ok () :=
  ⟨_, _, _, by decide +kernel, rfl,
    @Reached.command ℚ rationalFloats anyStore jpegSession jpegSession (.ok cycleCommand) _
      .opened rfl, rfl, rfl, by decide +kernel⟩

end SavedProjects
