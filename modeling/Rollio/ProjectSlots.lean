import Rollio.SavedProjects

/-! Where the channels of an edited project stand, and where they stood before. -/
namespace ProjectSlots
open RuntimeConfig DeviceConfigs ProjectConfigs SetupState SetupPairings SetupDevices SetupEffects
open SavedProjects (setChannel_getElem?)
open FirstMatch (findIdx?_modifyFirst getElem?_modifyFirst)

variable {α : Type}

def slotIdentity (slot : ChannelSlot α) : DeviceIdentity := channelIdentity slot.device slot.channel

structure SamePlace (a b : ChannelSlot α) : Prop where
  device : a.deviceIndex = b.deviceIndex
  channel : a.channelIndex = b.channelIndex

structure SameDevice (a b : ChannelSlot α) : Prop where
  driver : a.device.driver = b.device.driver
  id : a.device.id = b.device.id

theorem located_iff {config : ProjectConfig α} {d : BinaryDeviceConfig α}
    {c : DeviceChannelConfigV2 α} :
    (d ∈ config.devices ∧ c ∈ d.channels) ↔
      ∃ slot, Located config slot ∧ slot.device = d ∧ slot.channel = c := by
  constructor
  · intro ⟨hd, hc⟩
    obtain ⟨i, hi⟩ := List.getElem?_of_mem hd
    obtain ⟨j, hj⟩ := List.getElem?_of_mem hc
    exact ⟨⟨i, j, d, c⟩, ⟨hi, hj⟩, rfl, rfl⟩
  · rintro ⟨slot, hl, rfl, rfl⟩
    exact ⟨List.mem_of_getElem? hl.device, List.mem_of_getElem? hl.channel⟩

theorem located_inj {config : ProjectConfig α} {a b : ChannelSlot α} (ha : Located config a)
    (hb : Located config b) (h : SamePlace a b) : a.device = b.device ∧ a.channel = b.channel := by
  have hd : a.device = b.device :=
    Option.some.inj (ha.device.symm.trans ((congrArg (config.devices[·]?) h.device).trans hb.device))
  refine ⟨hd, ?_⟩
  have hc := ha.channel
  rw [hd, h.channel, hb.channel] at hc
  exact (Option.some.inj hc).symm

section Edits
variable {config : ProjectConfig α} {slot slot' : ChannelSlot α} {c : DeviceChannelConfigV2 α}

/-- A channel of the project with one of them overwritten is the new one, or stood elsewhere. -/
theorem located_setChannel (hl : Located config slot) (h : Located (setChannel config slot c) slot') :
    (SamePlace slot' slot ∧ SameDevice slot' slot ∧ slot'.channel = c) ∨
      ∃ old, Located config old ∧ SamePlace slot' old ∧ SameDevice slot' old ∧
        slot'.channel = old.channel ∧ ¬ SamePlace old slot := by
  have hd := h.device
  have hc := h.channel
  rw [setChannel_getElem? hl] at hd
  split at hd
  · next hi =>
    have hdevice := Option.some.inj hd
    rw [← hdevice] at hc
    simp only [SavedProjects.replacedDevice, List.getElem?_set] at hc
    split at hc
    · next hj =>
      split at hc
      · exact .inl ⟨⟨hi.symm, hj.symm⟩, ⟨hdevice ▸ rfl, hdevice ▸ rfl⟩, (Option.some.inj hc).symm⟩
      · cases hc
    · next hj =>
      exact .inr ⟨⟨slot.deviceIndex, slot'.channelIndex, slot.device, slot'.channel⟩,
        ⟨hl.device, hc⟩, ⟨hi.symm, rfl⟩, ⟨hdevice ▸ rfl, hdevice ▸ rfl⟩, rfl,
        fun hsame => hj hsame.channel.symm⟩
  · next hi =>
    exact .inr ⟨slot', ⟨hd, hc⟩, ⟨rfl, rfl⟩, ⟨rfl, rfl⟩, rfl, fun hsame => hi hsame.device.symm⟩

theorem located_set (hl : Located config slot) :
    Located (setChannel config slot c)
      { slot with device := SavedProjects.replacedDevice slot c, channel := c } := by
  refine ⟨?_, ?_⟩
  · rw [setChannel_getElem? hl, if_pos rfl]
  · have hlt := (List.getElem?_eq_some_iff.mp hl.channel).1
    simp [SavedProjects.replacedDevice, hlt]

theorem located_eraseIdx {i : ℕ}
    (h : Located { config with devices := config.devices.eraseIdx i } slot') :
    ∃ old, Located config old ∧ SameDevice slot' old ∧ slot'.channel = old.channel := by
  have hd := (located_iff.mpr ⟨slot', h, rfl, rfl⟩).1
  obtain ⟨old, hold, hdevice, hchannel⟩ := located_iff.mp
    ⟨List.mem_of_mem_eraseIdx hd, List.mem_of_getElem? h.channel⟩
  exact ⟨old, hold, ⟨hdevice ▸ rfl, hdevice ▸ rfl⟩, hchannel.symm⟩

/-- A channel of the project with one more device is one of the project or of that device. -/
theorem located_append {device : BinaryDeviceConfig α}
    (h : Located { config with devices := config.devices ++ [device] } slot') :
    Located config slot' ∨ (slot'.device = device ∧ slot'.channel ∈ device.channels) := by
  have hd : (config.devices ++ [device])[slot'.deviceIndex]? = some slot'.device := h.device
  rcases Nat.lt_or_ge slot'.deviceIndex config.devices.length with hlt | hge
  · rw [List.getElem?_append_left hlt] at hd
    exact .inl ⟨hd, h.channel⟩
  · rw [List.getElem?_append_right hge, List.getElem?_singleton] at hd
    split at hd
    · have hdevice := Option.some.inj hd
      exact .inr ⟨hdevice.symm, hdevice ▸ List.mem_of_getElem? h.channel⟩
    · cases hd

structure Named (config : ProjectConfig α) (deviceName channelType : String)
    (slot : ChannelSlot α) : Prop where
  device : config.devices.findIdx? (fun d => d.name == deviceName) = some slot.deviceIndex
  channel : slot.device.channels.findIdx? (fun c => c.channelType == channelType) =
    some slot.channelIndex

instance (config : ProjectConfig α) (deviceName channelType : String) (slot : ChannelSlot α) :
    Decidable (Named config deviceName channelType slot) :=
  decidable_of_iff
    (config.devices.findIdx? (fun d => d.name == deviceName) = some slot.deviceIndex ∧
      slot.device.channels.findIdx? (fun c => c.channelType == channelType) =
        some slot.channelIndex)
    ⟨fun h => ⟨h.1, h.2⟩, fun h => ⟨h.device, h.channel⟩⟩

variable {deviceName channelType : String}
  {f : DeviceChannelConfigV2 α → DeviceChannelConfigV2 α}

def namedEdit (config : ProjectConfig α) (deviceName channelType : String)
    (f : DeviceChannelConfigV2 α → DeviceChannelConfigV2 α) : ProjectConfig α :=
  { config with devices := modifyChannel config.devices deviceName channelType f }

theorem located_namedEdit (hf : ∀ c, (f c).channelType = c.channelType)
    (h : Located (namedEdit config deviceName channelType f) slot') :
    ∃ old, Located config old ∧ SamePlace slot' old ∧ SameDevice slot' old ∧
      slot'.channel =
        (if Named config deviceName channelType old then f old.channel else old.channel) ∧
      ∀ deviceName' channelType',
        Named (namedEdit config deviceName channelType f) deviceName' channelType' slot' ↔
          Named config deviceName' channelType' old := by
  have hnames : ∀ deviceName', (namedEdit config deviceName channelType f).devices.findIdx?
      (fun d => d.name == deviceName') = config.devices.findIdx? fun d => d.name == deviceName' := by
    intro deviceName'
    rw [namedEdit, modifyChannel, findIdx?_modifyFirst]
    intro d
    rfl
  have hd : (modifyChannel config.devices deviceName channelType f)[slot'.deviceIndex]? =
      some slot'.device := h.device
  rw [modifyChannel, getElem?_modifyFirst] at hd
  split at hd
  · next hfirst =>
    obtain ⟨device, hold, hdevice⟩ := Option.map_eq_some_iff.mp hd
    have hchannels : slot'.device.channels = FirstMatch.modifyFirst
        (fun channel => channel.channelType == channelType) f device.channels := hdevice ▸ rfl
    have htypes : ∀ channelType', slot'.device.channels.findIdx?
        (fun c => c.channelType == channelType') =
          device.channels.findIdx? fun c => c.channelType == channelType' := by
      intro channelType'
      rw [hchannels]
      exact findIdx?_modifyFirst (fun c => by rw [hf c]) _
    have hc := h.channel
    rw [hchannels, getElem?_modifyFirst] at hc
    split at hc
    · next hplace =>
      obtain ⟨channel, hcold, hcnew⟩ := Option.map_eq_some_iff.mp hc
      refine ⟨⟨slot'.deviceIndex, slot'.channelIndex, device, channel⟩, ⟨hold, hcold⟩, ⟨rfl, rfl⟩,
        ⟨hdevice ▸ rfl, hdevice ▸ rfl⟩, ?_, fun _ _ => ?_⟩
      · rw [if_pos ⟨hfirst, hplace⟩, hcnew]
      · exact ⟨fun hn => ⟨hnames _ ▸ hn.device, htypes _ ▸ hn.channel⟩,
          fun hn => ⟨(hnames _).trans hn.device, (htypes _).trans hn.channel⟩⟩
    · next hplace =>
      refine ⟨⟨slot'.deviceIndex, slot'.channelIndex, device, slot'.channel⟩, ⟨hold, hc⟩, ⟨rfl, rfl⟩,
        ⟨hdevice ▸ rfl, hdevice ▸ rfl⟩, ?_, fun _ _ => ?_⟩
      · rw [if_neg fun hn => hplace hn.channel]
      · exact ⟨fun hn => ⟨hnames _ ▸ hn.device, htypes _ ▸ hn.channel⟩,
          fun hn => ⟨(hnames _).trans hn.device, (htypes _).trans hn.channel⟩⟩
  · next hfirst =>
    refine ⟨slot', ⟨hd, h.channel⟩, ⟨rfl, rfl⟩, ⟨rfl, rfl⟩, ?_, fun _ _ => ?_⟩
    · rw [if_neg fun hn => hfirst hn.device]
    · exact ⟨fun hn => ⟨hnames _ ▸ hn.device, hn.channel⟩,
        fun hn => ⟨(hnames _).trans hn.device, hn.channel⟩⟩

end Edits

section FirstOfIdentity

theorem findSome?_zipIdx_first {β γ : Type} {l : List β} {f : β × ℕ → Option γ} {c : γ}
    (h : l.zipIdx.findSome? f = some c) :
    ∃ (b : β) (i : ℕ), l[i]? = some b ∧ f (b, i) = some c ∧
      ∀ (j : ℕ) (b' : β), j < i → l[j]? = some b' → f (b', j) = none := by
  obtain ⟨l₁, ⟨b, i⟩, l₂, hl, hb, hnone⟩ := List.findSome?_eq_some_iff.mp h
  have hat : l.zipIdx[l₁.length]? = some (b, i) := by simp [hl]
  rw [List.getElem?_zipIdx] at hat
  obtain ⟨b', hb', he⟩ := Option.map_eq_some_iff.mp hat
  obtain ⟨rfl, hi⟩ := Prod.mk.inj he
  rw [Nat.zero_add] at hi
  subst hi
  refine ⟨b', l₁.length, hb', hb, ?_⟩
  intro j b'' hj hb''
  apply hnone
  have hz : l.zipIdx[j]? = some (b'', j) := by
    rw [List.getElem?_zipIdx, hb'', Nat.zero_add]
    rfl
  rw [hl, List.getElem?_append_left hj] at hz
  exact List.mem_of_getElem? hz

variable {s : SetupSession α} {name : String} {row : AvailableDevice α}
  {slot other : ChannelSlot α}

theorem configured_first (h : s.configuredDeviceChannelIndex name = some slot)
    (hrow : s.availableDevice name = some row) (ho : Located s.config other)
    (hid : row.identity = slotIdentity other) :
    slot.deviceIndex < other.deviceIndex ∨
      (slot.deviceIndex = other.deviceIndex ∧ slot.channelIndex ≤ other.channelIndex) := by
  have hdriver : other.device.driver = row.identity.driver :=
    (congrArg DeviceIdentity.driver hid).symm
  have hidentity : other.device.id = row.identity.id := (congrArg DeviceIdentity.id hid).symm
  have hkind : other.channel.kind = row.identity.deviceType :=
    (congrArg DeviceIdentity.deviceType hid).symm
  have htype : other.channel.channelType = row.identity.channelType :=
    (congrArg DeviceIdentity.channelType hid).symm
  simp only [SetupSession.configuredDeviceChannelIndex, hrow, bind, Option.bind_some] at h
  obtain ⟨device, i, hdevice, hfound, hfirst⟩ := findSome?_zipIdx_first h
  rw [Option.ite_none_left_eq_some] at hfound
  obtain ⟨-, hfound⟩ := hfound
  obtain ⟨⟨channel, j⟩, hc, rfl⟩ := Option.map_eq_some_iff.mp hfound
  by_contra hnot
  rw [not_or, not_and, Nat.not_lt, Nat.not_le] at hnot
  obtain ⟨hle, himp⟩ := hnot
  dsimp only at hle himp
  rcases Nat.lt_or_ge other.deviceIndex i with hlt | hge
  · have hnone := hfirst other.deviceIndex other.device hlt ho.device
    simp only [hdriver, hidentity, ne_eq, not_true_eq_false, or_self, if_false,
      Option.map_eq_none_iff, List.find?_eq_none] at hnone
    exact hnone (other.channel, other.channelIndex)
      (List.mk_mem_zipIdx_iff_getElem?.mpr ho.channel) (by simp [hkind, htype])
  · obtain rfl : i = other.deviceIndex := by omega
    obtain rfl := Option.some.inj (hdevice.symm.trans ho.device)
    have hlt := himp rfl
    rw [List.find?_eq_some_iff_getElem] at hc
    obtain ⟨-, k, hk, hat, hbefore⟩ := hc
    have hkj : k = j := by
      rw [List.getElem_zipIdx, Nat.zero_add] at hat
      exact (Prod.mk.inj hat).2
    subst hkj
    have hno := hbefore other.channelIndex hlt
    obtain ⟨hlt', hat'⟩ := List.getElem?_eq_some_iff.mp ho.channel
    rw [List.getElem_zipIdx, hat'] at hno
    simp [hkind, htype] at hno

end FirstOfIdentity

end ProjectSlots
