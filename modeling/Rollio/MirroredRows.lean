import Rollio.ProjectSlots

/-! How the rows of the device list follow the channels of the project. -/
namespace MirroredRows
open BusMessages RuntimeConfig TeleopConfig DeviceConfigs ProjectConfigs SetupState SetupPairings
open SetupDevices SetupSubpanel SetupCommands SetupEffects ProjectSlots
open Outcomes AcceptedProjects PairingValidity SavedProjects
open FirstMatch (modifyFirst modifyFirst_keyed)

variable {α : Type} {floats : Floats α} {s s' : SetupSession α}

/-- Every channel of the project has one row, which shows it as it is while it is enabled. -/
structure Mirrored (s : SetupSession α) : Prop where
  names : (s.availableDevices.map (·.name)).Nodup
  row : ∀ d ∈ s.config.devices, ∀ c ∈ d.channels, ∃ row ∈ s.availableDevices,
    row.identity = channelIdentity d c ∧
      ∀ row' ∈ s.availableDevices, row'.identity = channelIdentity d c → row' = row
  current : ∀ d ∈ s.config.devices, ∀ c ∈ d.channels, c.enabled →
    ∀ row ∈ s.availableDevices, row.identity = channelIdentity d c → row.channel = c

section Slots

theorem Mirrored.row_of (h : Mirrored s) {slot : ChannelSlot α} (hl : Located s.config slot) :
    ∃ row ∈ s.availableDevices, row.identity = slotIdentity slot ∧
      ∀ row' ∈ s.availableDevices, row'.identity = slotIdentity slot → row' = row := by
  obtain ⟨hd, hc⟩ := located_iff.mpr ⟨slot, hl, rfl, rfl⟩
  exact h.row slot.device hd slot.channel hc

theorem Mirrored.current_of (h : Mirrored s) {slot : ChannelSlot α} (hl : Located s.config slot)
    (he : slot.channel.enabled) {row : AvailableDevice α} (hr : row ∈ s.availableDevices)
    (hi : row.identity = slotIdentity slot) : row.channel = slot.channel := by
  obtain ⟨hd, hc⟩ := located_iff.mpr ⟨slot, hl, rfl, rfl⟩
  exact h.current slot.device hd slot.channel hc he row hr hi

theorem Mirrored.unique (h : Mirrored s) {slot : ChannelSlot α} (hl : Located s.config slot)
    {a b : AvailableDevice α} (ha : a ∈ s.availableDevices) (hb : b ∈ s.availableDevices)
    (hia : a.identity = slotIdentity slot) (hib : b.identity = slotIdentity slot) : a = b := by
  obtain ⟨row, -, -, hu⟩ := h.row_of hl
  exact (hu a ha hia).trans (hu b hb hib).symm

theorem Mirrored.named (h : Mirrored s) {a b : AvailableDevice α} (ha : a ∈ s.availableDevices)
    (hb : b ∈ s.availableDevices) (hn : a.name = b.name) : a = b :=
  List.inj_on_of_nodup_map h.names ha hb hn

theorem mirrored_of_slots (hn : (s.availableDevices.map (·.name)).Nodup)
    (hrow : ∀ slot, Located s.config slot → ∃ row ∈ s.availableDevices,
      row.identity = slotIdentity slot ∧
        (∀ row' ∈ s.availableDevices, row'.identity = slotIdentity slot → row' = row) ∧
        (slot.channel.enabled → row.channel = slot.channel)) : Mirrored s := by
  refine ⟨hn, ?_, ?_⟩
  · intro d hd c hc
    obtain ⟨slot, hl, rfl, rfl⟩ := located_iff.mp ⟨hd, hc⟩
    obtain ⟨row, hr, hi, hu, -⟩ := hrow slot hl
    exact ⟨row, hr, hi, hu⟩
  · intro d hd c hc he row' hr' hi'
    obtain ⟨slot, hl, rfl, rfl⟩ := located_iff.mp ⟨hd, hc⟩
    obtain ⟨row, -, -, hu, hcur⟩ := hrow slot hl
    rw [hu row' hr' hi']
    exact hcur he

theorem availableDevice_mem {name : String} {row : AvailableDevice α}
    (h : s.availableDevice name = some row) : row ∈ s.availableDevices ∧ row.name = name :=
  ⟨List.mem_of_find?_eq_some h, by simpa using List.find?_some h⟩

end Slots

section Steps

/-- The rows keep their identities, and so do the channels: each was one of the project before,
and is shown as it is now. -/
theorem mirrored_of_kept (h : Mirrored s) {g : AvailableDevice α → AvailableDevice α}
    (hrows : s'.availableDevices = s.availableDevices.map g)
    (hname : ∀ row ∈ s.availableDevices, (g row).name = row.name)
    (hid : ∀ row ∈ s.availableDevices, (g row).identity = row.identity)
    (hslots : ∀ slot', Located s'.config slot' → ∃ old, Located s.config old ∧
      slotIdentity slot' = slotIdentity old ∧ (slot'.channel.enabled →
        ∀ row ∈ s.availableDevices, row.identity = slotIdentity old → (g row).channel = slot'.channel)) :
    Mirrored s' := by
  apply mirrored_of_slots
  · have hnames : (s.availableDevices.map g).map (·.name) = s.availableDevices.map (·.name) := by
      rw [List.map_map]
      exact List.map_congr_left hname
    rw [hrows, hnames]
    exact h.names
  · intro slot' hl'
    obtain ⟨old, hl, hi, hcur⟩ := hslots slot' hl'
    obtain ⟨row, hr, hri, hu⟩ := h.row_of hl
    refine ⟨g row, hrows ▸ List.mem_map_of_mem hr, ?_, ?_, fun he => hcur he row hr hri⟩
    · rw [hid row hr, hri, hi]
    · intro row' hr' hi'
      rw [hrows] at hr'
      obtain ⟨row₀, hr₀, rfl⟩ := List.mem_map.mp hr'
      rw [hid row₀ hr₀, hi] at hi'
      rw [hu row₀ hr₀ hi']

theorem mirrored_of_rows (h : Mirrored s) (hrows : s'.availableDevices = s.availableDevices)
    (hslots : ∀ slot', Located s'.config slot' → ∃ old, Located s.config old ∧
      slotIdentity slot' = slotIdentity old ∧ (slot'.channel.enabled →
        ∀ row ∈ s.availableDevices, row.identity = slotIdentity old → row.channel = slot'.channel)) :
    Mirrored s' :=
  mirrored_of_kept h (g := id) (by rw [hrows, List.map_id]) (fun _ _ => rfl) (fun _ _ => rfl) hslots

theorem mirrored_same (h : Mirrored s) (hdevices : s'.config.devices = s.config.devices)
    (hrows : s'.availableDevices = s.availableDevices) : Mirrored s' := by
  apply mirrored_of_rows h hrows
  intro slot' hl'
  have hl : Located s.config slot' := ⟨hdevices ▸ hl'.device, hl'.channel⟩
  exact ⟨slot', hl, rfl, fun he row hr hi => h.current_of hl he hr hi⟩

def changedRow (name : String) (f : DeviceChannelConfigV2 α → DeviceChannelConfigV2 α)
    (row : AvailableDevice α) : AvailableDevice α :=
  if row.name = name then row.withChannel (f row.channel) else row

theorem modifyAvailableChannel_eq (h : Mirrored s) (name : String)
    (f : DeviceChannelConfigV2 α → DeviceChannelConfigV2 α) :
    (s.modifyAvailableChannel name f).availableDevices =
      s.availableDevices.map (changedRow name f) :=
  modifyFirst_keyed h.names

theorem slotIdentity_congr {a b : ChannelSlot α} (hd : SameDevice a b)
    (hk : a.channel.kind = b.channel.kind)
    (ht : a.channel.channelType = b.channel.channelType) : slotIdentity a = slotIdentity b := by
  simp only [slotIdentity, channelIdentity, hd.driver, hd.id, hk, ht]

theorem changedRow_identity {name : String}
    {f : DeviceChannelConfigV2 α → DeviceChannelConfigV2 α} {row : AvailableDevice α}
    (hf : row.name = name → (f row.channel).kind = row.channel.kind ∧
      (f row.channel).channelType = row.channel.channelType) :
    (changedRow name f row).identity = row.identity := by
  unfold changedRow
  split
  · next hn =>
    obtain ⟨hk, ht⟩ := hf hn
    simp only [AvailableDevice.identity, AvailableDevice.withChannel_channel, hk, ht]
    rfl
  · rfl

theorem changedRow_name {name : String} {f : DeviceChannelConfigV2 α → DeviceChannelConfigV2 α}
    {row : AvailableDevice α} : (changedRow name f row).name = row.name := by
  unfold changedRow
  split
  · rfl
  · rfl

theorem changedRows_names {name : String}
    {f : DeviceChannelConfigV2 α → DeviceChannelConfigV2 α} (rows : List (AvailableDevice α)) :
    (rows.map (changedRow name f)).map (·.name) = rows.map (·.name) := by
  rw [List.map_map]
  exact List.map_congr_left fun _ _ => changedRow_name

theorem changedRow_other {name : String} {f : DeviceChannelConfigV2 α → DeviceChannelConfigV2 α}
    {row : AvailableDevice α} (hn : row.name ≠ name) : changedRow name f row = row := if_neg hn

theorem changedRow_named {name : String} {f : DeviceChannelConfigV2 α → DeviceChannelConfigV2 α}
    {row : AvailableDevice α} (hn : row.name = name) :
    changedRow name f row = row.withChannel (f row.channel) := if_pos hn

/-- A channel and its row are edited alike, where no other enabled channel has that row. -/
theorem mirrored_channel (h : Mirrored s) {name : String} {slot : ChannelSlot α}
    {c : DeviceChannelConfigV2 α} {mirror : DeviceChannelConfigV2 α → DeviceChannelConfigV2 α}
    (hslot : s.configuredDeviceChannelIndex name = some slot) (hm : Mirrors slot.channel c mirror)
    (hsole : ∀ other, Located s.config other → other.channel.enabled →
      slotIdentity other = slotIdentity slot → SamePlace other slot)
    (hconfig : s'.config = setChannel s.config slot c)
    (hrows : s'.availableDevices = (s.modifyAvailableChannel name mirror).availableDevices) :
    Mirrored s' := by
  obtain ⟨row, hrow, hl, hid⟩ := configured_spec hslot
  obtain ⟨hmem, hname⟩ := availableDevice_mem hrow
  have hkeeps := hm.keeps slot.channel rfl rfl
  rw [hm.same] at hkeeps
  apply mirrored_of_kept h (hrows.trans (modifyAvailableChannel_eq h name mirror))
    (fun _ _ => changedRow_name)
  · intro row' hmem'
    apply changedRow_identity
    intro hname'
    obtain rfl := h.named hmem' hmem (hname'.trans hname.symm)
    have hk : row'.channel.kind = slot.channel.kind := congrArg DeviceIdentity.deviceType hid
    have ht : row'.channel.channelType = slot.channel.channelType :=
      congrArg DeviceIdentity.channelType hid
    rw [hk, ht]
    exact hm.keeps row'.channel hk ht
  · intro slot' hl'
    rw [hconfig] at hl'
    rcases located_setChannel hl hl' with ⟨-, hd, hc⟩ | ⟨old, hold, -, hd, hc, hne⟩
    · refine ⟨slot, hl, slotIdentity_congr hd (hc ▸ hkeeps.1) (hc ▸ hkeeps.2), ?_⟩
      intro he row' hmem' hid'
      obtain rfl := h.unique hl hmem' hmem hid' hid
      have henabled : slot.channel.enabled := by rw [← hm.enabled, ← hc, he]
      rw [changedRow_named hname, AvailableDevice.withChannel_channel,
        h.current_of hl henabled hmem hid, hm.same, hc]
    · refine ⟨old, hold, slotIdentity_congr hd (hc ▸ rfl) (hc ▸ rfl), ?_⟩
      intro he row' hmem' hid'
      rw [hc] at he
      have hother : row'.name ≠ name := by
        intro hname'
        obtain rfl := h.named hmem' hmem (hname'.trans hname.symm)
        exact hne (hsole old hold he (hid'.symm.trans hid))
      rw [changedRow_other hother, hc]
      exact h.current_of hold he hmem' hid'

/-- A row is given a channel whose identity no other row has, and the project takes it over in the
one place where the row's channel stood. -/
theorem mirrored_cycled (h : Mirrored s) {name : String} {slot : ChannelSlot α}
    {row : AvailableDevice α} {c : DeviceChannelConfigV2 α}
    (hslot : s.configuredDeviceChannelIndex name = some slot)
    (hrow : s.availableDevice name = some row)
    (hsole : ∀ other, Located s.config other → slotIdentity other = slotIdentity slot →
      SamePlace other slot)
    (hfresh : ∀ row' ∈ s.availableDevices, row'.identity = channelIdentity slot.device c → row' = row)
    (hconfig : s'.config = setChannel s.config slot c)
    (hrows : s'.availableDevices = (s.modifyAvailableChannel name fun _ => c).availableDevices) :
    Mirrored s' := by
  obtain ⟨row', hrow', hl, hid⟩ := configured_spec hslot
  obtain rfl := Option.some.inj (hrow.symm.trans hrow')
  obtain ⟨hmem, hname⟩ := availableDevice_mem hrow
  rw [modifyAvailableChannel_eq h] at hrows
  have hidentity : (row.withChannel c).identity = channelIdentity slot.device c := by
    have hdriver : row.current.driver = slot.device.driver := congrArg DeviceIdentity.driver hid
    have hdid : row.current.id = slot.device.id := congrArg DeviceIdentity.id hid
    simp only [AvailableDevice.identity, AvailableDevice.withChannel_channel, channelIdentity,
      ← hdriver, ← hdid]
    rfl
  apply mirrored_of_slots
  · rw [hrows, changedRows_names]
    exact h.names
  · intro slot' hl'
    rw [hconfig] at hl'
    rw [hrows]
    rcases located_setChannel hl hl' with ⟨-, hd, hc⟩ | ⟨old, hold, -, hd, hc, hne⟩
    · have hi : slotIdentity slot' = channelIdentity slot.device c := by
        simp only [slotIdentity, channelIdentity, hd.driver, hd.id, hc]
      refine ⟨row.withChannel c, ?_, hidentity.trans hi.symm, ?_, fun _ => hc.symm⟩
      · exact List.mem_map.mpr ⟨row, hmem, changedRow_named hname⟩
      · intro row'' hmem'' hi''
        obtain ⟨row₀, hmem₀, rfl⟩ := List.mem_map.mp hmem''
        by_cases hname₀ : row₀.name = name
        · rw [changedRow_named hname₀, h.named hmem₀ hmem (hname₀.trans hname.symm)]
        · rw [changedRow_other hname₀] at hi''
          exact absurd (hfresh row₀ hmem₀ (hi''.trans hi) ▸ hname) hname₀
    · have hi : slotIdentity slot' = slotIdentity old :=
        slotIdentity_congr hd (hc ▸ rfl) (hc ▸ rfl)
      obtain ⟨row₀, hmem₀, hid₀, hu⟩ := h.row_of hold
      have hother : row₀ ≠ row := by
        rintro rfl
        exact hne (hsole old hold (hid₀.symm.trans hid))
      have hname₀ : row₀.name ≠ name := fun hn => hother (h.named hmem₀ hmem (hn.trans hname.symm))
      refine ⟨row₀, ?_, hid₀.trans hi.symm, ?_, ?_⟩
      · exact List.mem_map.mpr ⟨row₀, hmem₀, changedRow_other hname₀⟩
      · intro row'' hmem'' hi''
        obtain ⟨row₁, hmem₁, rfl⟩ := List.mem_map.mp hmem''
        by_cases hname₁ : row₁.name = name
        · have hrow₁ := h.named hmem₁ hmem (hname₁.trans hname.symm)
          rw [changedRow_named hname₁, hrow₁, hidentity, hi] at hi''
          exact absurd (hfresh row₀ hmem₀ (hid₀.trans hi''.symm)) hother
        · rw [changedRow_other hname₁] at hi'' ⊢
          exact hu row₁ hmem₁ (hi''.trans hi)
      · intro he
        rw [hc] at he ⊢
        exact h.current_of hold he hmem₀ hid₀

theorem mirrored_deselected (h : Mirrored s) {slot : ChannelSlot α} (hl : Located s.config slot)
    (hdevices : s'.config.devices = (deselected s.config slot).devices)
    (hrows : s'.availableDevices = s.availableDevices) : Mirrored s' := by
  apply mirrored_of_rows h hrows
  intro slot' hl'
  have hl' : Located (deselected s.config slot) slot' := ⟨hdevices ▸ hl'.device, hl'.channel⟩
  unfold deselected at hl'
  split at hl'
  · obtain ⟨old, hold, hd, hc⟩ := located_eraseIdx hl'
    refine ⟨old, hold, slotIdentity_congr hd (hc ▸ rfl) (hc ▸ rfl), ?_⟩
    intro he row hr hi
    rw [hc] at he ⊢
    exact h.current_of hold he hr hi
  · rcases located_setChannel hl hl' with ⟨-, hd, hc⟩ | ⟨old, hold, -, hd, hc, -⟩
    · refine ⟨slot, hl, slotIdentity_congr hd (hc ▸ rfl) (hc ▸ rfl), ?_⟩
      intro he
      rw [hc] at he
      cases he
    · refine ⟨old, hold, slotIdentity_congr hd (hc ▸ rfl) (hc ▸ rfl), ?_⟩
      intro he row hr hi
      rw [hc] at he ⊢
      exact h.current_of hold he hr hi

theorem built_channel {name : String} {target : AvailableDevice α} {d : BinaryDeviceConfig α}
    (hrow : s.availableDevice name = some target)
    (h : buildSelectedDeviceFromAvailable s name = some d) {c : DeviceChannelConfigV2 α}
    (hc : c ∈ d.channels) : ∃ row ∈ s.availableDevices, row.current.driver = d.driver ∧
      row.current.id = d.id ∧ c = { row.channel with
        enabled := row.channel.channelType = target.channel.channelType } := by
  simp only [buildSelectedDeviceFromAvailable, hrow, Option.map_some, Option.some.injEq] at h
  subst h
  obtain ⟨channel, hchannel, rfl⟩ := List.mem_map.mp hc
  simp only [siblingChannels, List.mem_insertionSort, List.mem_map, List.mem_filter,
    Bool.and_eq_true, decide_eq_true_eq] at hchannel
  obtain ⟨row, ⟨hr, hdriver, hid⟩, rfl⟩ := hchannel
  refine ⟨row, hr, ?_, ?_, rfl⟩
  · rw [row.current_driver, hdriver, ← target.current_driver]
  · rw [row.current_id, hid, ← target.current_id]

/-- Where the types of the built device are distinct, so are those of the rows of its hardware. -/
theorem built_rows {name : String} {target : AvailableDevice α} {d : BinaryDeviceConfig α}
    (hrow : s.availableDevice name = some target)
    (h : buildSelectedDeviceFromAvailable s name = some d)
    (hn : (d.channels.map (·.channelType)).Nodup) {a b : AvailableDevice α}
    (ha : a ∈ s.availableDevices) (hb : b ∈ s.availableDevices)
    (hda : a.current.driver = d.driver) (hdb : b.current.driver = d.driver)
    (hia : a.current.id = d.id) (hib : b.current.id = d.id)
    (ht : a.channel.channelType = b.channel.channelType) : a = b := by
  simp only [buildSelectedDeviceFromAvailable, hrow, Option.map_some, Option.some.injEq] at h
  subst h
  let rows := s.availableDevices.filter fun available =>
    available.driver = target.driver && available.id = target.id
  have htypes : (rows.map fun row => row.channel.channelType).Nodup := by
    have hperm := (List.perm_insertionSort
      (fun left right : DeviceChannelConfigV2 α => left.channelType ≤ right.channelType)
      (rows.map (·.channel))).map (·.channelType)
    rw [List.map_map] at hperm
    apply hperm.nodup_iff.mp
    rw [List.map_map] at hn
    exact hn
  have hmem : ∀ row ∈ s.availableDevices, row.current.driver = target.current.driver →
      row.current.id = target.current.id → row ∈ rows := by
    intro row hr hd hi
    apply List.mem_filter.mpr
    rw [row.current_driver, target.current_driver] at hd
    rw [row.current_id, target.current_id] at hi
    exact ⟨hr, by simp [hd, hi]⟩
  exact List.inj_on_of_nodup_map htypes (hmem a ha hda hia) (hmem b hb hdb hib) ht

theorem mirrored_built (h : Mirrored s) {name : String} {target : AvailableDevice α}
    {d : BinaryDeviceConfig α} (hrow : s.availableDevice name = some target)
    (hd : buildSelectedDeviceFromAvailable s name = some d)
    (hn : (d.channels.map (·.channelType)).Nodup) (he : target.channel.enabled)
    (hdevices : s'.config.devices = s.config.devices ++ [d])
    (hrows : s'.availableDevices = s.availableDevices) : Mirrored s' := by
  have htarget : target.current.driver = d.driver ∧ target.current.id = d.id := by
    simp only [buildSelectedDeviceFromAvailable, hrow, Option.map_some, Option.some.injEq] at hd
    subst hd
    exact ⟨rfl, rfl⟩
  apply mirrored_of_slots
  · rw [hrows]
    exact h.names
  · intro slot' hl'
    rw [hrows]
    have hl' : Located { s.config with devices := s.config.devices ++ [d] } slot' :=
      ⟨hdevices ▸ hl'.device, hl'.channel⟩
    rcases located_append hl' with hold | ⟨hdevice, hc⟩
    · obtain ⟨row, hr, hi, hu⟩ := h.row_of hold
      exact ⟨row, hr, hi, hu, fun he' => h.current_of hold he' hr hi⟩
    · obtain ⟨row, hr, hdriver, hid, hchannel⟩ := built_channel hrow hd hc
      have hi : row.identity = slotIdentity slot' := by
        simp only [AvailableDevice.identity, slotIdentity, channelIdentity, hdevice, hchannel,
          hdriver, hid]
      refine ⟨row, hr, hi, ?_, ?_⟩
      · intro row' hr' hi'
        have hsame := hi'.trans hi.symm
        have hdriver' : row'.current.driver = row.current.driver :=
          congrArg DeviceIdentity.driver hsame
        have hid' : row'.current.id = row.current.id := congrArg DeviceIdentity.id hsame
        exact built_rows hrow hd hn hr' hr (hdriver'.trans hdriver) hdriver (hid'.trans hid) hid
          (congrArg DeviceIdentity.channelType hsame)
      · intro he'
        rw [hchannel] at he' ⊢
        have ht : row.channel.channelType = target.channel.channelType := by simpa using he'
        obtain rfl := built_rows hrow hd hn hr (availableDevice_mem hrow).1 hdriver htarget.1 hid
          htarget.2 ht
        have hset : row.channel = { row.channel with enabled := true } :=
          congrArg (fun enabled => { row.channel with enabled }) he
        simpa using hset

theorem mirrored_reselected (h : Mirrored s) {name : String} {row : AvailableDevice α}
    (hrow : s.availableDevice name = some row) (he : row.channel.enabled)
    {config : ProjectConfig α} (hc : reselected s name = some config)
    (hv : s'.config.validate floats.toPlatform = .ok ())
    (hdevices : s'.config.devices = config.devices)
    (hrows : s'.availableDevices = s.availableDevices) : Mirrored s' := by
  simp only [reselected, hrow, Option.bind_some] at hc
  split at hc
  · next slot hslot =>
    obtain rfl := Option.some.inj hc
    obtain ⟨row', hrow', hl, hid⟩ := configured_spec hslot
    obtain rfl := Option.some.inj (hrow.symm.trans hrow')
    apply mirrored_of_rows h hrows
    intro slot' hl'
    rcases located_setChannel hl ⟨hdevices ▸ hl'.device, hl'.channel⟩ with
      ⟨-, hd, hc⟩ | ⟨old, hold, -, hd, hc, -⟩
    · have hk : row.channel.kind = slot.channel.kind := congrArg DeviceIdentity.deviceType hid
      have ht : row.channel.channelType = slot.channel.channelType :=
        congrArg DeviceIdentity.channelType hid
      refine ⟨slot, hl, slotIdentity_congr hd (hc ▸ hk) (hc ▸ ht), ?_⟩
      intro _ row' hr' hi'
      obtain rfl := h.unique hl hr' (availableDevice_mem hrow).1 hi' hid
      rw [hc]
      exact congrArg (fun enabled => { row'.channel with enabled }) he
    · refine ⟨old, hold, slotIdentity_congr hd (hc ▸ rfl) (hc ▸ rfl), ?_⟩
      intro he' row' hr' hi'
      rw [hc] at he' ⊢
      exact h.current_of hold he' hr' hi'
  · obtain ⟨d, hd, rfl⟩ := Option.map_eq_some_iff.mp hc
    have ha := validate_iff.mp hv
    have hmem : d ∈ s'.config.devices := by simp [hdevices]
    exact mirrored_built h hrow hd (ha.devices d hmem).channelTypes he hdevices hrows

theorem generated_spec {action : SetupAction} {row : AvailableDevice α}
    {device : BinaryDeviceConfig α} (h : generated floats s action = some (row, device)) :
    device.channels = [row.channel] ∧ row.identity = channelIdentity device row.channel := by
  cases action with
  | openAddPicker =>
    cases h
    exact ⟨rfl, rfl⟩
  | addPseudoCamera =>
    cases h
    exact ⟨rfl, rfl⟩
  | addPseudoRobot =>
    cases h
    exact ⟨rfl, rfl⟩
  | addCommandDevice =>
    cases h
    exact ⟨rfl, rfl⟩
  | _ => cases h

/-- A device joins the project, and its row the list, where name and identity are new. -/
theorem mirrored_added (h : Mirrored s) {row : AvailableDevice α} {device : BinaryDeviceConfig α}
    (hchannels : device.channels = [row.channel])
    (hid : row.identity = channelIdentity device row.channel)
    (hfresh : ∀ row' ∈ s.availableDevices, row'.name ≠ row.name ∧ row'.identity ≠ row.identity)
    (hdevices : s'.config.devices = s.config.devices ++ [device])
    (hrows : s'.availableDevices = s.availableDevices ++ [row]) : Mirrored s' := by
  apply mirrored_of_slots
  · rw [hrows, List.map_append, List.map_singleton, ← List.concat_eq_append]
    apply h.names.concat
    intro hmem
    obtain ⟨row', hr', hn⟩ := List.mem_map.mp hmem
    exact (hfresh row' hr').1 hn
  · intro slot' hl'
    rw [hrows]
    have hl' : Located { s.config with devices := s.config.devices ++ [device] } slot' :=
      ⟨hdevices ▸ hl'.device, hl'.channel⟩
    rcases located_append hl' with hold | ⟨hdevice, hc⟩
    · obtain ⟨row', hr', hi', hu⟩ := h.row_of hold
      refine ⟨row', List.mem_append_left _ hr', hi', ?_, fun he => h.current_of hold he hr' hi'⟩
      intro row'' hr'' hi''
      rcases List.mem_append.mp hr'' with hr'' | hr''
      · exact hu row'' hr'' hi''
      · rw [List.mem_singleton.mp hr''] at hi''
        exact absurd (hi'.trans hi''.symm) (hfresh row' hr').2
    · rw [hchannels, List.mem_singleton] at hc
      have hi : row.identity = slotIdentity slot' := by rw [hid, slotIdentity, hdevice, hc]
      refine ⟨row, by simp, hi, ?_, fun _ => hc.symm⟩
      intro row'' hr'' hi''
      rcases List.mem_append.mp hr'' with hr'' | hr''
      · exact absurd (hi''.trans hi.symm) (hfresh row'' hr'').2
      · exact List.mem_singleton.mp hr''

end Steps

section Pairings
variable {p : ChannelPairingConfig α}

/-- The leader publishes already what it leads with, where it is enabled. -/
def LeaderPublishes (s : SetupSession α) (p : ChannelPairingConfig α) : Prop :=
  ∀ slot, Located s.config slot → Named s.config p.leaderDevice p.leaderChannelType slot →
    slot.channel.enabled → p.leaderState ∈ slot.channel.publishStates

/-- A promotion makes the row follow commands, and not only the follower. -/
def Promotes (p : ChannelPairingConfig α) (row : AvailableDevice α) : Prop :=
  row.name = p.followerDevice ∧ row.channel.kind = .robot ∧
    row.channel.channelType = p.followerChannelType ∧ .commandFollowing ∈ row.supportedModes

instance (p : ChannelPairingConfig α) (row : AvailableDevice α) : Decidable (Promotes p row) :=
  inferInstanceAs (Decidable (_ ∧ _ ∧ _ ∧ _))

/-- The row that a promotion changes and the follower are one. -/
structure FollowerMirrored (s : SetupSession α) (p : ChannelPairingConfig α) : Prop where
  row : ∀ slot, Located s.config slot →
    Named s.config p.followerDevice p.followerChannelType slot → slot.channel.enabled →
    slot.channel.kind = .robot → slot.channel.mode ≠ some .commandFollowing →
    ∃ row ∈ s.availableDevices, Promotes p row ∧ row.identity = slotIdentity slot
  follower : ∀ row ∈ s.availableDevices, Promotes p row →
    row.channel.mode ≠ some .commandFollowing → ∀ slot, Located s.config slot →
    slot.channel.enabled → row.identity = slotIdentity slot →
    Named s.config p.followerDevice p.followerChannelType slot

def publishing (p : ChannelPairingConfig α) (c : DeviceChannelConfigV2 α) :
    DeviceChannelConfigV2 α :=
  if p.leaderState ∈ c.publishStates then c
  else { c with publishStates := c.publishStates ++ [p.leaderState] }

def following (c : DeviceChannelConfigV2 α) : DeviceChannelConfigV2 α :=
  if c.kind = .robot then { c with mode := some .commandFollowing } else c

def promotedRow (p : ChannelPairingConfig α) (row : AvailableDevice α) : AvailableDevice α :=
  if Promotes p row then row.withChannel { row.channel with mode := some .commandFollowing }
  else row

theorem publishing_kept (c : DeviceChannelConfigV2 α) :
    (publishing p c).kind = c.kind ∧ (publishing p c).channelType = c.channelType ∧
      (publishing p c).enabled = c.enabled := by
  unfold publishing
  split
  · exact ⟨rfl, rfl, rfl⟩
  · exact ⟨rfl, rfl, rfl⟩

theorem following_kept (c : DeviceChannelConfigV2 α) :
    (following c).kind = c.kind ∧ (following c).channelType = c.channelType ∧
      (following c).enabled = c.enabled := by
  unfold following
  split
  · exact ⟨rfl, rfl, rfl⟩
  · exact ⟨rfl, rfl, rfl⟩

theorem following_of_mode {c : DeviceChannelConfigV2 α} (h : c.mode = some .commandFollowing) :
    ({ c with mode := some .commandFollowing } : DeviceChannelConfigV2 α) = c :=
  congrArg (fun mode => { c with mode }) h.symm

/-- The placed pairing leaves an enabled channel as it is. -/
theorem located_placed (hl : LeaderPublishes s p) {mid : ChannelSlot α}
    (h : Located (namedEdit s.config p.leaderDevice p.leaderChannelType (publishing p)) mid) :
    ∃ old, Located s.config old ∧ slotIdentity mid = slotIdentity old ∧ SameDevice mid old ∧
      (mid.channel.enabled → mid.channel = old.channel) ∧
      ∀ deviceName channelType,
        Named (namedEdit s.config p.leaderDevice p.leaderChannelType (publishing p)) deviceName
          channelType mid ↔ Named s.config deviceName channelType old := by
  obtain ⟨old, hold, -, hd, hc, hn⟩ := located_namedEdit (fun c => (publishing_kept c).2.1) h
  obtain ⟨hk, ht, he⟩ := @publishing_kept α p old.channel
  refine ⟨old, hold, ?_, hd, ?_, hn⟩
  · split at hc
    · exact slotIdentity_congr hd (hc ▸ hk) (hc ▸ ht)
    · exact slotIdentity_congr hd (hc ▸ rfl) (hc ▸ rfl)
  · intro henabled
    split at hc
    · next hnamed =>
      rw [hc, he] at henabled
      rw [hc, publishing, if_pos (hl old hold hnamed henabled)]
    · exact hc

theorem mirrored_mapped (h : Mirrored s) (hl : LeaderPublishes s p)
    {pairings : List (ChannelPairingConfig α)}
    (hdevices : s'.config.devices = (placePairing s pairings p).config.devices)
    (hrows : s'.availableDevices = s.availableDevices) : Mirrored s' := by
  apply mirrored_of_rows h hrows
  intro slot' hl'
  obtain ⟨old, hold, hi, -, hc, -⟩ := located_placed hl ⟨hdevices ▸ hl'.device, hl'.channel⟩
  refine ⟨old, hold, hi, ?_⟩
  intro he row hr hri
  have hchannel := hc he
  rw [hchannel] at he ⊢
  exact h.current_of hold he hr hri

theorem promoted_rows (h : Mirrored s) (pairings : List (ChannelPairingConfig α)) :
    (promoted s pairings p).availableDevices = s.availableDevices.map (promotedRow p) := by
  refine (modifyFirst_keyed h.names).trans (List.map_congr_left fun row _ => ?_)
  unfold promotedRow Promotes
  by_cases hn : row.name = p.followerDevice
  · simp only [hn, if_true, true_and]
  · simp only [hn, if_false, false_and]

theorem mirrored_paired (h : Mirrored s) (hl : LeaderPublishes s p) (hf : FollowerMirrored s p)
    {pairings : List (ChannelPairingConfig α)}
    (hdevices : s'.config.devices = (promoted s pairings p).config.devices)
    (hrows : s'.availableDevices = (promoted s pairings p).availableDevices) : Mirrored s' := by
  apply mirrored_of_kept h (hrows.trans (promoted_rows h pairings))
  · intro row _
    unfold promotedRow
    split
    · rfl
    · rfl
  · intro row _
    unfold promotedRow
    split
    · rfl
    · rfl
  · intro slot' hl'
    obtain ⟨mid, hmid, -, hd, hc, -⟩ := @located_namedEdit α
      (namedEdit s.config p.leaderDevice p.leaderChannelType (publishing p)) slot' p.followerDevice
      p.followerChannelType following (fun c => (following_kept c).2.1)
      ⟨hdevices ▸ hl'.device, hl'.channel⟩
    obtain ⟨old, hold, hi, -, hsame, hnamed⟩ := located_placed hl hmid
    rw [if_congr (hnamed _ _) rfl rfl] at hc
    obtain ⟨hk, ht, he⟩ := following_kept mid.channel
    refine ⟨old, hold, Eq.trans ?_ hi, ?_⟩
    · split at hc
      · exact slotIdentity_congr hd (hc ▸ hk) (hc ▸ ht)
      · exact slotIdentity_congr hd (hc ▸ rfl) (hc ▸ rfl)
    intro henabled row hr hri
    have hmidEnabled : mid.channel.enabled := by
      split at hc
      · rw [← he, ← hc, henabled]
      · rw [← hc, henabled]
    have hmidChannel := hsame hmidEnabled
    rw [hmidChannel] at hc hmidEnabled
    have hrow := h.current_of hold hmidEnabled hr hri
    by_cases hmode : old.channel.mode = some .commandFollowing
    · -- Who follows commands already is left as it is, and so is its row.
      have hslot : slot'.channel = old.channel := by
        rw [hc]
        split
        · unfold following
          split
          · exact following_of_mode hmode
          · rfl
        · rfl
      rw [hslot, ← hrow]
      unfold promotedRow
      split
      · rw [AvailableDevice.withChannel_channel, hrow, following_of_mode hmode]
      · rfl
    by_cases hpromotes : Promotes p row
    · rw [promotedRow, if_pos hpromotes, AvailableDevice.withChannel_channel, hc,
        if_pos (hf.follower row hr hpromotes (hrow ▸ hmode) old hold hmidEnabled hri), following,
        if_pos (hrow ▸ hpromotes.2.1), hrow]
    · rw [promotedRow, if_neg hpromotes, hrow, hc]
      split
      · next hfollower =>
        unfold following
        split
        · next hrobot =>
          obtain ⟨row', hr', hpromotes', hri'⟩ :=
            hf.row old hold hfollower hmidEnabled hrobot hmode
          exact absurd (h.unique hold hr' hr hri' hri ▸ hpromotes') hpromotes
        · rfl
      · rfl

end Pairings

section Toggled
variable {name : String}

theorem availableDevice_congr (h : s'.availableDevices = s.availableDevices) (name : String) :
    s'.availableDevice name = s.availableDevice name := by
  simp only [SetupSession.availableDevice, h]

theorem configured_exists {row : AvailableDevice α} (hrow : s.availableDevice name = some row)
    {other : ChannelSlot α} (hl : Located s.config other) (hi : row.identity = slotIdentity other) :
    ∃ slot, s.configuredDeviceChannelIndex name = some slot := by
  cases hslot : s.configuredDeviceChannelIndex name with
  | some slot => exact ⟨slot, rfl⟩
  | none =>
    obtain ⟨hd, hc⟩ := located_iff.mpr ⟨other, hl, rfl, rfl⟩
    exact absurd hi (unconfigured_spec hrow hslot hd hc)

theorem selected_of {slot : ChannelSlot α} (h : s.configuredDeviceChannelIndex name = some slot)
    (he : slot.channel.enabled) : s.selectedDeviceIndex name = some slot := by
  simp [SetupSession.selectedDeviceIndex, h, he]

theorem built_target {target : AvailableDevice α} {d : BinaryDeviceConfig α}
    (hrow : s.availableDevice name = some target)
    (h : buildSelectedDeviceFromAvailable s name = some d) :
    d.driver = target.current.driver ∧ d.id = target.current.id ∧
      ({ target.channel with enabled := true } : DeviceChannelConfigV2 α) ∈ d.channels := by
  simp only [buildSelectedDeviceFromAvailable, hrow, Option.map_some, Option.some.injEq] at h
  subst h
  refine ⟨rfl, rfl, List.mem_map.mpr ⟨target.channel, ?_, by simp⟩⟩
  simp only [siblingChannels, List.mem_insertionSort]
  exact List.mem_map_of_mem (List.mem_filter.mpr ⟨(availableDevice_mem hrow).1, by simp⟩)

theorem reselected_channel {row : AvailableDevice α} (hrow : s.availableDevice name = some row)
    {config : ProjectConfig α} (hc : reselected s name = some config) (hv : s'.config.validate floats.toPlatform = .ok ())
    (hdevices : s'.config.devices = config.devices)
    (hrows : s'.availableDevices = s.availableDevices) :
    ∃ slot', s'.selectedDeviceIndex name = some slot' ∧
      slot'.channel = { row.channel with enabled := true } := by
  have hrow' : s'.availableDevice name = some row := (availableDevice_congr hrows name).trans hrow
  simp only [reselected, hrow, Option.bind_some] at hc
  split at hc
  · next slot hslot =>
    obtain rfl := Option.some.inj hc
    obtain ⟨row', hrow'', hl, hid⟩ := configured_spec hslot
    obtain rfl := Option.some.inj (hrow.symm.trans hrow'')
    have hset := @located_set α s.config slot { row.channel with enabled := true } hl
    have hnew : Located s'.config _ := ⟨hdevices ▸ hset.device, hset.channel⟩
    have hi : row.identity = slotIdentity { slot with
        device := replacedDevice slot { row.channel with enabled := true }
        channel := { row.channel with enabled := true } } := by
      rw [hid]
      exact slotIdentity_congr ⟨rfl, rfl⟩ (congrArg DeviceIdentity.deviceType hid).symm
        (congrArg DeviceIdentity.channelType hid).symm
    obtain ⟨slot', hslot'⟩ := configured_exists hrow' hnew hi
    obtain ⟨row'', hrow'', hl', hid'⟩ := configured_spec hslot'
    obtain rfl := Option.some.inj (hrow'.symm.trans hrow'')
    have hfirst' := configured_first hslot' hrow' hnew hi
    rcases located_setChannel hl ⟨hdevices ▸ hl'.device, hl'.channel⟩ with
      ⟨-, -, hc⟩ | ⟨old, hold, hplace, hd, hc, hne⟩
    · exact ⟨slot', selected_of hslot' (by rw [hc]), hc⟩
    · -- The first of its identity was the first before.
      have hfirst := configured_first hslot hrow hold
        (hid'.trans (slotIdentity_congr hd (hc ▸ rfl) (hc ▸ rfl)))
      have hdevice := hplace.device
      have hchannel := hplace.channel
      dsimp only at hfirst'
      exact absurd ⟨by omega, by omega⟩ hne
  · next hnone =>
    obtain ⟨d, hd, rfl⟩ := Option.map_eq_some_iff.mp hc
    obtain ⟨hdriver, hid, htarget⟩ := built_target hrow hd
    have hmem : d ∈ s'.config.devices := by simp [hdevices]
    have htypes := ((validate_iff.mp hv).devices d hmem).channelTypes
    obtain ⟨new, hnew, rfl, hchannel⟩ := located_iff.mp ⟨hmem, htarget⟩
    have hi : row.identity = slotIdentity new := by
      simp only [AvailableDevice.identity, slotIdentity, channelIdentity, hchannel, hdriver, hid]
    obtain ⟨slot', hslot'⟩ := configured_exists hrow' hnew hi
    obtain ⟨row'', hrow'', hl', hid'⟩ := configured_spec hslot'
    obtain rfl := Option.some.inj (hrow'.symm.trans hrow'')
    have hl'' : Located { s.config with devices := s.config.devices ++ [new.device] } slot' :=
      ⟨hdevices ▸ hl'.device, hl'.channel⟩
    rcases located_append hl'' with hold | ⟨hdevice, hc⟩
    · obtain ⟨hd', hc'⟩ := located_iff.mpr ⟨slot', hold, rfl, rfl⟩
      exact absurd hid' (unconfigured_spec hrow hnone hd' hc')
    · obtain ⟨row₁, hr₁, hdriver₁, hid₁, hchannel₁⟩ := built_channel hrow hd hc
      have ht : row.channel.channelType = slot'.channel.channelType :=
        congrArg DeviceIdentity.channelType hid'
      rw [hchannel₁] at ht
      obtain rfl := built_rows hrow hd htypes hr₁ (availableDevice_mem hrow).1 hdriver₁ hdriver.symm
        hid₁ hid.symm ht.symm
      have hset : slot'.channel = { row₁.channel with enabled := true } := by
        rw [hchannel₁]
        simp
      exact ⟨slot', selected_of hslot' (by rw [hset]), hset⟩

/-- A channel that is turned off and on again is what it was. -/
theorem toggle_restores (h : Mirrored s) {slot : ChannelSlot α} {off on : SetupSession α × Bool}
    (hslot : s.selectedDeviceIndex name = some slot)
    (hoff : toggleDeviceSelection floats s name = .ok off)
    (hno : off.1.selectedDeviceIndex name = none)
    (hon : toggleDeviceSelection floats off.1 name = .ok on) :
    ∃ slot', on.1.selectedDeviceIndex name = some slot' ∧ slot'.channel = slot.channel := by
  obtain ⟨hconfigured, he⟩ := selected_spec hslot
  obtain ⟨row, hrow, hl, hid⟩ := configured_spec hconfigured
  have hchannel := h.current_of hl he (availableDevice_mem hrow).1 hid
  obtain ⟨-, -, hrows, -⟩ := toggled_off hslot hoff
  have hrow' : off.1.availableDevice name = some row :=
    (availableDevice_congr hrows name).trans hrow
  rcases toggled_on hno hon with ⟨hnone, -⟩ | ⟨config, hsome, hv, hconfig, hrows', -⟩
  · simp only [reselected, hrow', Option.bind_some] at hnone
    split at hnone
    · cases hnone
    · simp [buildSelectedDeviceFromAvailable, hrow'] at hnone
  · obtain ⟨slot', hslot', hc⟩ :=
      reselected_channel hrow' hsome hv (by rw [hconfig]; rfl) hrows'
    refine ⟨slot', hslot', hc.trans ?_⟩
    rw [hchannel]
    exact congrArg (fun enabled => { slot.channel with enabled }) he.symm

end Toggled

section Runs

/-- The command changes the project and the list of rows alike. -/
structure KeepsMirror (floats : Floats α) (s : SetupSession α)
    (raw : Except String SetupCommandEnvelope) : Prop where
  /-- No second enabled channel has the row of the edited one. -/
  edited : ∀ command action name slot, IsCommand raw command action →
    EditOf command action name → s.configuredDeviceChannelIndex name = some slot →
    ∀ other, Located s.config other → other.channel.enabled →
      slotIdentity other = slotIdentity slot → SamePlace other slot
  /-- No second channel has the row that is cycled, and no second row what it is cycled to. -/
  cycled : ∀ command action name slot row c, IsCommand raw command action →
    command.name = some name → s.selectedDeviceIndex name = some slot →
    s.availableDevice name = some row →
    cycledChannel row (normalizedDelta command.delta) action = some c →
    (∀ other, Located s.config other → slotIdentity other = slotIdentity slot →
      SamePlace other slot) ∧
    ∀ row' ∈ s.availableDevices, row'.identity = channelIdentity slot.device c → row' = row
  /-- The row that is turned on shows an enabled channel. -/
  enabled : ∀ command name row, IsCommand raw command .toggleDevice →
    command.name = some name → s.selectedDeviceIndex name = none →
    s.availableDevice name = some row → row.channel.enabled
  /-- The row that is generated has a name and an identity of its own. -/
  added : ∀ command action row device, IsCommand raw command action →
    generated floats s action = some (row, device) →
    ∀ row' ∈ s.availableDevices, row'.name ≠ row.name ∧ row'.identity ≠ row.identity
  /-- The leader needs no new state, where the mapping of a pairing is not refused. -/
  mapped : ∀ command index p, IsCommand raw command .cyclePairMapping →
    command.index = some index → preparedPairing floats s command .cyclePairMapping = some p →
    (placePairing s (s.config.pairings.set index p) p).config.validate floats.toPlatform = .ok () →
    LeaderPublishes s p
  /-- The leader needs no new state, and the follower is promoted with its row. -/
  paired : ∀ command action p, IsCommand raw command action → action ≠ .cyclePairMapping →
    preparedPairing floats s command action = some p → LeaderPublishes s p ∧ FollowerMirrored s p

/-- What one command leaves of a project and its rows. -/
theorem mirrored_step {raw : Except String SetupCommandEnvelope} {command : SetupCommandEnvelope}
    {action : SetupAction} {r : SetupSession α × Bool} (hc : IsCommand raw command action)
    (hk : KeepsMirror floats s raw) (h : Mirrored s) (he : Effect floats s command action r) :
    Mirrored r.1 := by
  cases he with
  | same hconfig hrows => exact mirrored_same h (congrArg (·.devices) hconfig) hrows
  | settings _ hdevices _ hrows => exact mirrored_same h hdevices hrows
  | channel name slot c mirror hedit _ hslot hm hconfig hrows =>
    exact mirrored_channel h hslot hm (hk.edited command action name slot hc hedit hslot) hconfig
      hrows
  | cycled name slot row c hname hslot hrow hcycled hconfig hrows =>
    obtain ⟨hsole, hfresh⟩ := hk.cycled command action name slot row c hc hname hslot hrow hcycled
    exact mirrored_cycled h (selected_spec hslot).1 hrow hsole hfresh hconfig hrows
  | deselected name slot _ hslot hconfig hrows =>
    obtain ⟨-, -, hl, -⟩ := configured_spec (selected_spec hslot).1
    exact mirrored_deselected h hl (by rw [hconfig]; rfl) hrows
  | reselected name config haction hname hv hslot hre hconfig hrows =>
    subst haction
    obtain ⟨row, hrow, -⟩ := Option.bind_eq_some_iff.mp hre
    exact mirrored_reselected h hrow (hk.enabled command name row hc hname hslot hrow) hre hv
      (by rw [hconfig]; rfl) hrows
  | added row device hg _ hconfig hrows =>
    obtain ⟨hchannels, hid⟩ := generated_spec hg
    exact mirrored_added h hchannels hid (hk.added command action row device hc hg)
      (by rw [hconfig]) hrows
  | mapped p index hp haction hindex hv hconfig hrows =>
    subst haction
    exact mirrored_mapped h (hk.mapped command index p hc hindex hp (hconfig ▸ hv))
      (by rw [hconfig]) hrows
  | paired p pairings hp hne _ hconfig hrows =>
    obtain ⟨hl, hf⟩ := hk.paired command action p hc hne hp
    exact mirrored_paired h hl hf (by rw [hconfig]) hrows
  | takenBack pair hp haction _ _ hconfig hrows =>
    obtain ⟨hl, hf⟩ := hk.paired command action _ hc (haction ▸ by decide) hp
    exact mirrored_paired h hl hf (by rw [hconfig]; rfl) hrows

inductive MirroredRun (floats : Floats α) (store : ProjectConfig α → String → Except String Unit)
    (opened : SetupSession α) : SetupSession α → Prop where
  | opened : Mirrored opened → MirroredRun floats store opened opened
  | command {t : SetupSession α} {raw applied} : MirroredRun floats store opened t →
      KeepsMirror floats t raw → applyRawCommand floats store t raw = .ok applied →
      MirroredRun floats store opened applied.session
  | loop {t t' : SetupSession α} : MirroredRun floats store opened t → LoopChange t t' →
      MirroredRun floats store opened t'

variable {store : ProjectConfig α → String → Except String Unit} {opened : SetupSession α}

theorem mirrored_run (h : MirroredRun floats store opened s) : Mirrored s := by
  induction h with
  | opened h => exact h
  | command _ hk happlied ih =>
    rcases applied_effect happlied with heq | ⟨command, action, hc, he⟩
    · exact heq ▸ ih
    · exact mirrored_step hc hk ih he
  | loop _ hl ih =>
    obtain ⟨hconfig, hrows⟩ := loopChange_same hl
    exact mirrored_same ih (congrArg (·.devices) hconfig) hrows

/-- In such a session the rows mirror the project, and a channel that is turned off and on again
is what it was. -/
theorem rows_mirror_project (h : MirroredRun floats store opened s) :
    Mirrored s ∧ ∀ (name : String) (slot : ChannelSlot α) (off on : SetupSession α × Bool),
      s.selectedDeviceIndex name = some slot → toggleDeviceSelection floats s name = .ok off →
      off.1.selectedDeviceIndex name = none → toggleDeviceSelection floats off.1 name = .ok on →
      ∃ slot', on.1.selectedDeviceIndex name = some slot' ∧ slot'.channel = slot.channel :=
  ⟨mirrored_run h, fun _ _ _ _ hslot hoff hno hon =>
    toggle_restores (mirrored_run h) hslot hoff hno hon⟩

end Runs

def toggleCommand : SetupCommandEnvelope :=
  { msgType := "command", action := "setup_toggle_device", name := some "robot|play|left|arm|-" }

theorem picked_arms_listed : Mirrored pickedSession :=
  ⟨by decide +kernel, by decide +kernel, by decide +kernel⟩

/-- Turning an arm off takes no care. -/
theorem toggle_keeps : KeepsMirror rationalFloats pickedSession (.ok toggleCommand) := by
  have haction : ∀ command action, IsCommand (.ok toggleCommand) command action →
      command = toggleCommand ∧ action = .toggleDevice := by
    intro command action h
    obtain rfl := Except.ok.inj h.parsed
    exact ⟨rfl, (Option.some.inj h.action).symm⟩
  constructor
  · intro command action name slot hc he
    obtain ⟨rfl, rfl⟩ := haction command action hc
    cases he.edits
  · intro command action name slot row c hc _ _ _ hcycled
    obtain ⟨rfl, rfl⟩ := haction command action hc
    cases hcycled
  · intro command name row hc hname hslot _
    obtain ⟨rfl, -⟩ := haction command _ hc
    obtain rfl := Option.some.inj hname
    exact absurd (congrArg Option.isSome hslot) (by decide +kernel)
  · intro command action row device hc hg
    obtain ⟨rfl, rfl⟩ := haction command action hc
    cases hg
  · intro command index p hc
    cases (haction command _ hc).2
  · intro command action p hc _ hp
    obtain ⟨rfl, rfl⟩ := haction command action hc
    cases hp

/-- One of the two arms has been turned off. -/
theorem picked_arms_mirrored : ∃ applied,
    applyRawCommand rationalFloats anyStore pickedSession (.ok toggleCommand) = .ok applied ∧
      Mirrored applied.session :=
  ⟨_, rfl, (@rows_mirror_project ℚ rationalFloats _ anyStore pickedSession
    (.command (.opened picked_arms_listed) toggle_keeps rfl)).1⟩

def createCommand : SetupCommandEnvelope :=
  { msgType := "command", action := "setup_create_pairing" }

/-- A new pairing makes its follower follow commands, but its row, whose name is not the one of
the device, does not; turned off and on again, the follower is back in free drive. -/
theorem follower_forgotten : Mirrored pickedSession ∧ ∃ applied slot off on slot',
    applyRawCommand rationalFloats anyStore pickedSession (.ok createCommand) = .ok applied ∧
      Reached rationalFloats anyStore pickedSession applied.session ∧ ¬ Mirrored applied.session ∧
      applied.session.selectedDeviceIndex "robot|play|right|arm|-" = some slot ∧
      toggleDeviceSelection rationalFloats applied.session "robot|play|right|arm|-" = .ok off ∧
      off.1.selectedDeviceIndex "robot|play|right|arm|-" = none ∧
      toggleDeviceSelection rationalFloats off.1 "robot|play|right|arm|-" = .ok on ∧
      on.1.selectedDeviceIndex "robot|play|right|arm|-" = some slot' ∧
      slot'.channel ≠ slot.channel := by
  refine ⟨picked_arms_listed, _, _, _, _, _, rfl,
    @Reached.command ℚ rationalFloats anyStore pickedSession pickedSession (.ok createCommand) _
      .opened rfl, ?_, rfl, rfl, rfl, rfl, rfl, by decide +kernel⟩
  intro h
  exact absurd h.current (by decide +kernel)

end MirroredRows
