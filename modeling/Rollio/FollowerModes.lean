import Rollio.MirroredRows

/-! The followers of the pairings in the setup wizard: what keeps them enabled, in the mode that
follows commands, and with one leader each. -/
namespace FollowerModes
open BusMessages RuntimeConfig TeleopConfig DeviceConfigs ProjectConfigs AcceptedProjects
open SetupState SetupPairings SetupDevices SetupCommands PairingPicker SetupEffects PairingValidity
open ProjectSlots MirroredRows FirstMatch
open SavedProjects (replacedDevice setChannel_getElem? map_setChannel anyStore)

variable {α : Type} {floats : Floats α} {s : SetupSession α} {config : ProjectConfig α}

section Lookup

def channelAt (config : ProjectConfig α) (deviceName channelType : String) :
    Option (DeviceChannelConfigV2 α) :=
  (config.deviceNamed deviceName).bind fun device => device.channelNamed channelType

def deviceNames (config : ProjectConfig α) : List String := config.devices.map (·.name)

def channelTypes (config : ProjectConfig α) : List (List String) :=
  config.devices.map fun device => device.channels.map (·.channelType)

structure Keyed (config : ProjectConfig α) : Prop where
  names : (deviceNames config).Nodup
  types : ∀ types ∈ channelTypes config, types.Nodup

theorem Keyed.congr {config' : ProjectConfig α} (h : Keyed config)
    (hnames : deviceNames config' = deviceNames config)
    (htypes : channelTypes config' = channelTypes config) : Keyed config' :=
  ⟨hnames ▸ h.names, htypes ▸ h.types⟩

theorem keyed_of_accepted {platform : Platform α} (h : Accepted platform config) :
    Keyed config := by
  refine ⟨h.names, ?_⟩
  intro types htypes
  obtain ⟨d, hd, rfl⟩ := List.mem_map.mp htypes
  exact (h.devices d hd).channelTypes

theorem Keyed.channels (h : Keyed config) {d : BinaryDeviceConfig α} (hd : d ∈ config.devices) :
    (d.channels.map (·.channelType)).Nodup :=
  h.types _ (List.mem_map_of_mem hd)

theorem channelAt_located (h : Keyed config) {slot : ChannelSlot α} (hl : Located config slot) :
    channelAt config slot.device.name slot.channel.channelType = some slot.channel := by
  have hd := List.mem_of_getElem? hl.device
  have hdevice : config.deviceNamed slot.device.name = some slot.device := find?_keyed h.names hd
  have hchannel : slot.device.channelNamed slot.channel.channelType = some slot.channel :=
    find?_keyed (h.channels hd) (List.mem_of_getElem? hl.channel)
  rw [channelAt, hdevice, Option.bind_some, hchannel]

theorem located_of_channelAt {deviceName channelType : String} {c : DeviceChannelConfigV2 α}
    (h : channelAt config deviceName channelType = some c) :
    ∃ slot, Located config slot ∧ slot.device.name = deviceName ∧ slot.channel = c ∧
      c.channelType = channelType := by
  obtain ⟨d, hd, hc⟩ := Option.bind_eq_some_iff.mp h
  obtain ⟨slot, hl, rfl, rfl⟩ := located_iff.mp
    ⟨List.mem_of_find?_eq_some hd, List.mem_of_find?_eq_some hc⟩
  exact ⟨slot, hl, by simpa using List.find?_some hd, rfl, by simpa using List.find?_some hc⟩

end Lookup

section Overwritten
variable {slot : ChannelSlot α} {c : DeviceChannelConfigV2 α}

def TypeFree (slot : ChannelSlot α) (c : DeviceChannelConfigV2 α) : Prop :=
  ∀ (j : ℕ) (c' : DeviceChannelConfigV2 α), slot.device.channels[j]? = some c' →
    j ≠ slot.channelIndex → c'.channelType ≠ c.channelType

theorem keyed_setChannel (h : Keyed config) (hl : Located config slot) (hfree : TypeFree slot c) :
    Keyed (setChannel config slot c) := by
  have hd := List.mem_of_getElem? hl.device
  refine ⟨?_, ?_⟩
  · have hnames : deviceNames (setChannel config slot c) = deviceNames config :=
      map_setChannel hl (g := fun d => d.name) rfl
    rw [hnames]
    exact h.names
  · intro types htypes
    obtain ⟨d, hd', rfl⟩ := List.mem_map.mp htypes
    rcases SavedProjects.mem_setChannel hl hd' with rfl | hd'
    · exact SavedProjects.replaced_types hl (h.channels hd) hfree
    · exact h.channels hd'

theorem located_kept (hl : Located config slot) {other : ChannelSlot α}
    (ho : Located config other) (hne : ¬ SamePlace other slot) :
    ∃ kept, Located (setChannel config slot c) kept ∧ kept.device.name = other.device.name ∧
      kept.channel = other.channel := by
  by_cases hi : slot.deviceIndex = other.deviceIndex
  · have hdevice : other.device = slot.device := by
      have hat := ho.device
      rw [← hi, hl.device] at hat
      exact (Option.some.inj hat).symm
    have hj : slot.channelIndex ≠ other.channelIndex := fun hj => hne ⟨hi.symm, hj.symm⟩
    refine ⟨{ other with device := replacedDevice slot c }, ⟨?_, ?_⟩, ?_, rfl⟩
    · rw [setChannel_getElem? hl, if_pos hi]
    · have hat := ho.channel
      rw [hdevice] at hat
      show (slot.device.channels.set slot.channelIndex c)[other.channelIndex]? = _
      rw [List.getElem?_set_ne hj, hat]
    · rw [hdevice]
      rfl
  · refine ⟨other, ⟨?_, ho.channel⟩, rfl, rfl⟩
    rw [setChannel_getElem? hl, if_neg hi, ho.device]

theorem channelAt_setChannel_self (h : Keyed config) (hl : Located config slot)
    (hfree : TypeFree slot c) :
    channelAt (setChannel config slot c) slot.device.name c.channelType = some c :=
  channelAt_located (keyed_setChannel h hl hfree) (located_set hl)

theorem channelAt_setChannel_other (h : Keyed config) (hl : Located config slot)
    (hfree : TypeFree slot c) {deviceName channelType : String} {f : DeviceChannelConfigV2 α}
    (hf : channelAt config deviceName channelType = some f)
    (hne : ¬ (deviceName = slot.device.name ∧ channelType = slot.channel.channelType)) :
    channelAt (setChannel config slot c) deviceName channelType = some f := by
  obtain ⟨other, ho, rfl, rfl, rfl⟩ := located_of_channelAt hf
  have hplace : ¬ SamePlace other slot := by
    intro hsame
    obtain ⟨hd, hc⟩ := located_inj ho hl hsame
    exact hne ⟨hd ▸ rfl, hc ▸ rfl⟩
  obtain ⟨kept, hk, hname, hchannel⟩ := located_kept hl ho hplace
  have hat := channelAt_located (keyed_setChannel h hl hfree) hk
  rw [hname, hchannel] at hat
  exact hat

end Overwritten

section Renamed
variable {deviceName channelType : String} {f : DeviceChannelConfigV2 α → DeviceChannelConfigV2 α}

/-- A channel changed by its names is found, changed, under them, and every other one as before. -/
theorem channelAt_namedEdit (hf : ∀ c, (f c).channelType = c.channelType)
    (deviceName' channelType' : String) :
    channelAt (namedEdit config deviceName channelType f) deviceName' channelType' =
      if deviceName' = deviceName ∧ channelType' = channelType then
        (channelAt config deviceName' channelType').map f
      else channelAt config deviceName' channelType' := by
  by_cases hd : deviceName' = deviceName
  · subst hd
    have hdevice : (namedEdit config deviceName' channelType f).deviceNamed deviceName' =
        (config.deviceNamed deviceName').map fun device => { device with
          channels := modifyFirst (fun channel => channel.channelType == channelType) f
            device.channels } := by
      apply find?_modifyFirst
      intro device
      rfl
    rw [channelAt, hdevice, channelAt]
    cases config.deviceNamed deviceName' with
    | none => simp
    | some device =>
      rw [Option.map_some, Option.bind_some, Option.bind_some]
      by_cases hc : channelType' = channelType
      · subst hc
        rw [if_pos ⟨rfl, rfl⟩]
        apply find?_modifyFirst
        intro channel
        rw [hf]
      · rw [if_neg fun hboth => hc hboth.2]
        apply find?_modifyFirst_of_unmatched
        intro channel hchannel
        have htype : channel.channelType = channelType := by simpa using hchannel
        have hother : (channelType == channelType') = false := by simpa using Ne.symm hc
        exact ⟨by rw [htype, hother], by rw [hf, htype, hother]⟩
  · have hdevice : (namedEdit config deviceName channelType f).deviceNamed deviceName' =
        config.deviceNamed deviceName' := by
      apply find?_modifyFirst_of_unmatched
      intro device hdevice
      have hname : device.name = deviceName := by simpa using hdevice
      have hother : (deviceName == deviceName') = false := by simpa using Ne.symm hd
      exact ⟨by rw [hname, hother], by rw [hname, hother]⟩
    rw [channelAt, hdevice, if_neg fun hboth => hd hboth.1, channelAt]

theorem keyed_namedEdit (h : Keyed config) (hf : ∀ c, (f c).channelType = c.channelType) :
    Keyed (namedEdit config deviceName channelType f) := by
  apply h.congr
  · apply map_modifyFirst
    intro device
    rfl
  · apply map_modifyFirst
    intro device
    exact map_modifyFirst hf device.channels

end Renamed

section Invariant

def FollowsAt (config : ProjectConfig α) (names : String × String) : Prop :=
  ∃ c, channelAt config names.1 names.2 = some c ∧ c.enabled ∧ c.mode = some .commandFollowing

def follower (p : ChannelPairingConfig α) : String × String :=
  (p.followerDevice, p.followerChannelType)

/-- Every pairing's follower is enabled and follows commands, it is not the leader, and no two
pairings share it. -/
structure Following (config : ProjectConfig α) : Prop where
  follows : ∀ p ∈ config.pairings, FollowsAt config (follower p)
  differ : ∀ p ∈ config.pairings, (p.leaderDevice, p.leaderChannelType) ≠ follower p
  unshared : (config.pairings.map follower).Nodup

/-- The pairings of a project are some of another's, and their followers still follow. -/
theorem Following.of_sublist {config' : ProjectConfig α} (h : Following config)
    (hsub : (config'.pairings.map endpoints).Sublist (config.pairings.map endpoints))
    (hkept : ∀ p ∈ config'.pairings, FollowsAt config (follower p) →
      FollowsAt config' (follower p)) : Following config' := by
  have hold : ∀ p ∈ config'.pairings, ∃ q ∈ config.pairings, endpoints q = endpoints p := by
    intro p hp
    obtain ⟨q, hq, he⟩ := List.mem_map.mp (hsub.subset (List.mem_map_of_mem hp))
    exact ⟨q, hq, he⟩
  refine ⟨?_, ?_, ?_⟩
  · intro p hp
    obtain ⟨q, hq, he⟩ := hold p hp
    have hfollower : follower q = follower p := congrArg Prod.snd he
    exact hkept p hp (hfollower ▸ h.follows q hq)
  · intro p hp
    obtain ⟨q, hq, he⟩ := hold p hp
    have hdiffer := h.differ q hq
    have hleader : (q.leaderDevice, q.leaderChannelType) =
        (p.leaderDevice, p.leaderChannelType) := congrArg Prod.fst he
    have hfollower : follower q = follower p := congrArg Prod.snd he
    rw [hleader, hfollower] at hdiffer
    exact hdiffer
  · have hmap := hsub.map Prod.snd
    rw [List.map_map, List.map_map] at hmap
    exact hmap.nodup h.unshared

theorem Following.kept {config' : ProjectConfig α} (h : Following config)
    (hpairings : config'.pairings = config.pairings)
    (hkept : ∀ p ∈ config.pairings, FollowsAt config (follower p) →
      FollowsAt config' (follower p)) : Following config' := by
  apply h.of_sublist
  · rw [hpairings]
  · rw [hpairings]
    exact hkept

theorem FollowsAt.congr {config' : ProjectConfig α} {names : String × String}
    (h : FollowsAt config names) (hdevices : config'.devices = config.devices) :
    FollowsAt config' names := by
  obtain ⟨c, hc, he, hm⟩ := h
  refine ⟨c, ?_, he, hm⟩
  rw [← hc, channelAt, channelAt, ProjectConfig.deviceNamed, ProjectConfig.deviceNamed, hdevices]

/-- A channel in another slot goes on following commands, and so does one that is overwritten with a
channel that does. -/
theorem FollowsAt.overwritten (hk : Keyed config) {slot : ChannelSlot α}
    {c : DeviceChannelConfigV2 α} (hl : Located config slot) (hfree : TypeFree slot c)
    {names : String × String} (h : FollowsAt config names)
    (hslot : names = (slot.device.name, slot.channel.channelType) →
      c.channelType = slot.channel.channelType ∧ c.enabled ∧ c.mode = some .commandFollowing) :
    FollowsAt (setChannel config slot c) names := by
  obtain ⟨f, hf, he, hm⟩ := h
  by_cases hnames : names.1 = slot.device.name ∧ names.2 = slot.channel.channelType
  · obtain ⟨htype, he', hm'⟩ := hslot (Prod.ext hnames.1 hnames.2)
    refine ⟨c, ?_, he', hm'⟩
    rw [hnames.1, hnames.2, ← htype]
    exact channelAt_setChannel_self hk hl hfree
  · exact ⟨f, channelAt_setChannel_other hk hl hfree hf hnames, he, hm⟩

/-- A change by names that keeps what is enabled and what follows commands. -/
theorem FollowsAt.changed {deviceName channelType : String}
    {f : DeviceChannelConfigV2 α → DeviceChannelConfigV2 α}
    (hf : ∀ c, (f c).channelType = c.channelType) (hkeeps : ∀ c, c.enabled →
      c.mode = some .commandFollowing → (f c).enabled ∧ (f c).mode = some .commandFollowing)
    {names : String × String} (h : FollowsAt config names) :
    FollowsAt (namedEdit config deviceName channelType f) names := by
  obtain ⟨c, hc, he, hm⟩ := h
  by_cases hnames : names.1 = deviceName ∧ names.2 = channelType
  · refine ⟨f c, ?_, (hkeeps c he hm).1, (hkeeps c he hm).2⟩
    rw [channelAt_namedEdit hf, if_pos hnames, hc, Option.map_some]
  · refine ⟨c, ?_, he, hm⟩
    rw [channelAt_namedEdit hf, if_neg hnames, hc]

theorem FollowsAt.append {device : BinaryDeviceConfig α} {names : String × String}
    (h : FollowsAt config names) :
    FollowsAt { config with devices := config.devices ++ [device] } names := by
  obtain ⟨c, hc, he, hm⟩ := h
  obtain ⟨d, hd, hc⟩ := Option.bind_eq_some_iff.mp hc
  refine ⟨c, ?_, he, hm⟩
  have hfound : ({ config with devices := config.devices ++ [device] } :
      ProjectConfig α).deviceNamed names.1 = some d := by
    rw [ProjectConfig.deviceNamed] at hd ⊢
    rw [List.find?_append, hd]
    rfl
  rw [channelAt, hfound, Option.bind_some, hc]

end Invariant

section Pairing
variable {p : ChannelPairingConfig α}

theorem publishing_mode (c : DeviceChannelConfigV2 α) : (publishing p c).mode = c.mode := by
  unfold publishing
  split
  · rfl
  · rfl

def published (config : ProjectConfig α) (p : ChannelPairingConfig α) : ProjectConfig α :=
  namedEdit config p.leaderDevice p.leaderChannelType (publishing p)

theorem FollowsAt.published {names : String × String} (h : FollowsAt config names) :
    FollowsAt (published config p) names := by
  apply FollowsAt.changed (fun c => (publishing_kept c).2.1) _ h
  intro c he hm
  exact ⟨(publishing_kept c).2.2.trans he, (publishing_mode c).trans hm⟩

def promotedConfig (config : ProjectConfig α) (p : ChannelPairingConfig α) : ProjectConfig α :=
  namedEdit (published config p) p.followerDevice p.followerChannelType following

theorem FollowsAt.promoted {names : String × String} (h : FollowsAt config names) :
    FollowsAt (promotedConfig config p) names := by
  apply FollowsAt.changed (fun c => (following_kept c).2.1) _ h.published
  intro c he hm
  refine ⟨(following_kept c).2.2.trans he, ?_⟩
  unfold following
  split
  · rfl
  · exact hm

theorem followsAt_promoted {c : DeviceChannelConfigV2 α}
    (hc : channelAt config p.followerDevice p.followerChannelType = some c) (he : c.enabled)
    (hrobot : c.kind = .robot) : FollowsAt (promotedConfig config p) (follower p) := by
  have hpublished : ∃ c', channelAt (published config p) p.followerDevice p.followerChannelType =
      some c' ∧ c'.enabled ∧ c'.kind = .robot := by
    rw [published, channelAt_namedEdit fun c => (publishing_kept c).2.1, hc]
    split
    · exact ⟨_, rfl, (publishing_kept c).2.2.trans he, (publishing_kept c).1.trans hrobot⟩
    · exact ⟨c, rfl, he, hrobot⟩
  obtain ⟨c', hc', he', hrobot'⟩ := hpublished
  refine ⟨following c', ?_, (following_kept c').2.2.trans he', ?_⟩
  · rw [promotedConfig, follower, channelAt_namedEdit fun c => (following_kept c).2.1,
      if_pos ⟨rfl, rfl⟩, hc', Option.map_some]
  · rw [following, if_pos hrobot']

/-- What is found at the names that the picker offers for a follower of a pairing, or of a new one
where there is no index. -/
theorem offered_follower (hk : Keyed s.config) {policy : MappingStrategy}
    {leader : Option (String × String)} {except : Option ℕ} {names : String × String}
    (h : names ∈ eligibleFollowerChannelsFor s policy leader except) :
    (∃ c, channelAt s.config names.1 names.2 = some c ∧ c.enabled ∧ c.kind = .robot) ∧
      (∀ i q, except = some i → s.config.pairings[i]? = some q →
        names ≠ (q.leaderDevice, q.leaderChannelType)) ∧
      ∀ i q, s.config.pairings[i]? = some q → except ≠ some i → names ≠ follower q := by
  simp only [eligibleFollowerChannelsFor, List.mem_flatMap, List.mem_filterMap,
    Option.ite_none_left_eq_some, not_or, not_not, Option.some.injEq] at h
  obtain ⟨d, hd, c, hc, ⟨he, hrobot⟩, -, -, -, hself, hclaimed, rfl⟩ := h
  obtain ⟨slot, hl, rfl, rfl⟩ := located_iff.mp ⟨hd, hc⟩
  refine ⟨⟨slot.channel, channelAt_located hk hl, he, hrobot⟩, ?_, ?_⟩
  · rintro i q rfl hq hsame
    apply hself
    rw [Option.bind_some, hq, Option.map_some, hsame]
  · intro i q hq hi hsame
    apply hclaimed
    refine ⟨(q, i), List.mk_mem_zipIdx_iff_getElem?.mpr hq, Ne.symm hi, ?_⟩
    exact hsame.symm

theorem offered_leader {policy : MappingStrategy} {i : ℕ} {q : ChannelPairingConfig α}
    {names : String × String} (h : names ∈ eligibleLeaderChannelsFor s policy (some i))
    (hq : s.config.pairings[i]? = some q) : names ≠ follower q := by
  simp only [eligibleLeaderChannelsFor, List.mem_flatMap, List.mem_filterMap,
    Option.ite_none_left_eq_some, not_or, not_not, Option.some.injEq] at h
  obtain ⟨d, hd, c, hc, -, -, -, hself, rfl⟩ := h
  intro hsame
  apply hself
  rw [Option.bind_some, hq, Option.map_some, hsame]
  rfl

theorem nodup_set {β : Type} {l : List β} {i : ℕ} {b : β} (h : l.Nodup)
    (hb : ∀ j, j ≠ i → l[j]? ≠ some b) : (l.set i b).Nodup := by
  rw [List.nodup_iff_getElem?_ne_getElem?] at h ⊢
  intro j k hjk hk
  rw [List.length_set] at hk
  have hold := h j k hjk hk
  rw [List.getElem?_set, List.getElem?_set]
  by_cases hj : i = j
  · subst hj
    rw [if_pos rfl, if_pos (by omega), if_neg (by omega)]
    exact Ne.symm (hb k (by omega))
  · rw [if_neg hj]
    by_cases hk' : i = k
    · subst hk'
      rw [if_pos rfl, if_pos hk]
      exact hb j (by omega)
    · rw [if_neg hk']
      exact hold

theorem Following.set {config' : ProjectConfig α} {i : ℕ} (h : Following config)
    (hpairings : config'.pairings = config.pairings.set i p)
    (hkept : ∀ names, FollowsAt config names → FollowsAt config' names)
    (hp : FollowsAt config' (follower p))
    (hdiffer : (p.leaderDevice, p.leaderChannelType) ≠ follower p)
    (hfree : ∀ j q, j ≠ i → config.pairings[j]? = some q → follower p ≠ follower q) :
    Following config' := by
  have hmem : ∀ q ∈ config'.pairings, q ∈ config.pairings ∨ q = p := by
    intro q hq
    rw [hpairings] at hq
    exact List.mem_or_eq_of_mem_set hq
  refine ⟨?_, ?_, ?_⟩
  · intro q hq
    rcases hmem q hq with hq | rfl
    · exact hkept _ (h.follows q hq)
    · exact hp
  · intro q hq
    rcases hmem q hq with hq | rfl
    · exact h.differ q hq
    · exact hdiffer
  · rw [hpairings, List.map_set]
    apply nodup_set h.unshared
    intro j hj
    rw [List.getElem?_map]
    cases hq : config.pairings[j]? with
    | none => exact Option.some_ne_none _ |>.symm
    | some q => exact fun hsame => hfree j q hj hq (Option.some.inj hsame).symm

theorem Following.append {config' : ProjectConfig α} (h : Following config)
    (hpairings : config'.pairings = config.pairings ++ [p])
    (hkept : ∀ names, FollowsAt config names → FollowsAt config' names)
    (hp : FollowsAt config' (follower p))
    (hdiffer : (p.leaderDevice, p.leaderChannelType) ≠ follower p)
    (hfree : ∀ q ∈ config.pairings, follower p ≠ follower q) : Following config' := by
  have hmem : ∀ q ∈ config'.pairings, q ∈ config.pairings ∨ q = p := by
    intro q hq
    rw [hpairings] at hq
    simpa using hq
  refine ⟨?_, ?_, ?_⟩
  · intro q hq
    rcases hmem q hq with hq | rfl
    · exact hkept _ (h.follows q hq)
    · exact hp
  · intro q hq
    rcases hmem q hq with hq | rfl
    · exact h.differ q hq
    · exact hdiffer
  · rw [hpairings, List.map_append, List.map_singleton]
    apply h.unshared.append (List.nodup_singleton _)
    intro names hnames hsingle
    obtain ⟨q, hq, rfl⟩ := List.mem_map.mp hnames
    exact hfree q hq (List.mem_singleton.mp hsingle).symm

theorem following_created (hk : Keyed s.config) (h : Following s.config)
    {pair : TeleopPairCreate α} (hoffered : Offered s pair)
    {config' : ProjectConfig α}
    (hconfig : config' = (promoted s (s.config.pairings ++ [requestedPairing floats s pair])
      (requestedPairing floats s pair)).config) : Following config' := by
  obtain ⟨-, heligible, hne⟩ := hoffered
  obtain ⟨⟨c, hc, he, hrobot⟩, -, hfree⟩ := offered_follower hk heligible
  obtain ⟨hld, hlc, hfd, hfc⟩ := @built_endpoints α floats s.config.devices pair.policy
    pair.leader.1 pair.leader.2 pair.follower.1 pair.follower.2 pair.ratio
  have hfollower : follower (requestedPairing floats s pair) = pair.follower := Prod.ext hfd hfc
  have hdevices : config'.devices =
      (promotedConfig s.config (requestedPairing floats s pair)).devices := hconfig ▸ rfl
  have hpairings : config'.pairings =
      s.config.pairings ++ [requestedPairing floats s pair] := hconfig ▸ rfl
  apply h.append hpairings fun names hnames => hnames.promoted.congr hdevices
  · refine FollowsAt.congr ?_ hdevices
    refine followsAt_promoted ?_ he hrobot
    rw [requestedPairing, hfd, hfc, hc]
  · rw [hfollower, requestedPairing, hld, hlc]
    exact hne
  · intro q hq
    obtain ⟨i, hi⟩ := List.getElem?_of_mem hq
    rw [hfollower]
    exact hfree i q hi (by simp)

theorem following_rebuilt (hk : Keyed s.config) (h : Following s.config) {index : ℕ}
    {pair : ChannelPairingConfig α} {endpoint : PairingEndpoint} {device channelType : String}
    (hpair : s.config.pairings[index]? = some pair)
    (heligible : (device, channelType) ∈ eligibleEndpoints s index pair endpoint)
    {config' : ProjectConfig α}
    (hconfig : config' = (promoted s (s.config.pairings.set index
        (rebuiltPairing floats s.config.devices pair endpoint device channelType))
      (rebuiltPairing floats s.config.devices pair endpoint device channelType)).config) :
    Following config' := by
  have hmem := List.mem_of_getElem? hpair
  have hdevices : config'.devices = (promotedConfig s.config
      (rebuiltPairing floats s.config.devices pair endpoint device channelType)).devices :=
    hconfig ▸ rfl
  have hpairings : config'.pairings = s.config.pairings.set index
      (rebuiltPairing floats s.config.devices pair endpoint device channelType) := hconfig ▸ rfl
  have hkept : ∀ names, FollowsAt s.config names → FollowsAt config' names :=
    fun names hnames => hnames.promoted.congr hdevices
  cases endpoint with
  | leader =>
    obtain ⟨hld, hlc, hfd, hfc⟩ := @built_endpoints α floats s.config.devices pair.mapping device
      channelType pair.followerDevice pair.followerChannelType
      (if pair.mapping = .parallel then pair.jointScales.head? else none)
    have hfollower : follower (rebuiltPairing floats s.config.devices pair .leader device
      channelType) = follower pair := Prod.ext hfd hfc
    apply h.set hpairings hkept
    · rw [hfollower]
      exact hkept _ (h.follows pair hmem)
    · rw [hfollower, rebuiltPairing, hld, hlc]
      exact offered_leader heligible hpair
    · intro j q hj hq
      rw [hfollower]
      exact key_ne h.unshared hpair hq (Ne.symm hj)
  | follower =>
    obtain ⟨hld, hlc, hfd, hfc⟩ := @built_endpoints α floats s.config.devices pair.mapping
      pair.leaderDevice pair.leaderChannelType device channelType
      (if pair.mapping = .parallel then pair.jointScales.head? else none)
    have hfollower : follower (rebuiltPairing floats s.config.devices pair .follower device
      channelType) = (device, channelType) := Prod.ext hfd hfc
    obtain ⟨⟨c, hc, he, hrobot⟩, hself, hfree⟩ := offered_follower hk heligible
    apply h.set hpairings hkept
    · refine FollowsAt.congr ?_ hdevices
      refine followsAt_promoted ?_ he hrobot
      rw [rebuiltPairing, hfd, hfc, hc]
    · rw [hfollower, rebuiltPairing, hld, hlc]
      exact Ne.symm (hself index pair rfl hpair)
    · intro j q hj hq
      rw [hfollower]
      exact hfree j q hq fun hsame => hj (Option.some.inj hsame).symm

end Pairing

section Steps

/-- A cycled channel does not take the type of another one of its device, and one that follows in a
pairing stays enabled and in its mode. -/
def KeepsFollowers (s : SetupSession α) (raw : Except String SetupCommandEnvelope) : Prop :=
  ∀ command action name slot row c, IsCommand raw command action → command.name = some name →
    s.selectedDeviceIndex name = some slot → s.availableDevice name = some row →
    cycledChannel row (normalizedDelta command.delta) action = some c →
    TypeFree slot c ∧ ∀ p ∈ s.config.pairings,
      follower p = (slot.device.name, slot.channel.channelType) →
        c.channelType = slot.channel.channelType ∧ c.enabled ∧ c.mode = some .commandFollowing

variable {slot : ChannelSlot α} {c : DeviceChannelConfigV2 α}

theorem typeFree_of_type (hk : Keyed config) (hl : Located config slot)
    (ht : c.channelType = slot.channel.channelType) : TypeFree slot c := by
  intro j c' hc' hj
  rw [ht]
  exact key_ne (hk.channels (List.mem_of_getElem? hl.device)) hc' hl.channel hj

theorem followsAt_slot (hk : Keyed config) (hl : Located config slot)
    (h : FollowsAt config (slot.device.name, slot.channel.channelType)) :
    slot.channel.enabled ∧ slot.channel.mode = some .commandFollowing := by
  obtain ⟨f, hf, he, hm⟩ := h
  obtain rfl := Option.some.inj ((channelAt_located hk hl).symm.trans hf)
  exact ⟨he, hm⟩

theorem following_setChannel (hk : Keyed config) (h : Following config) (hl : Located config slot)
    (hfree : TypeFree slot c)
    (hslot : ∀ p ∈ config.pairings, follower p = (slot.device.name, slot.channel.channelType) →
      c.channelType = slot.channel.channelType ∧ c.enabled ∧ c.mode = some .commandFollowing) :
    Following (setChannel config slot c) := by
  apply h.kept
  · rfl
  intro p hp hfollows
  exact hfollows.overwritten hk hl hfree (hslot p hp)

/-- An edit keeps the mode of its channel. -/
theorem following_edited (hk : Keyed config) (h : Following config) (hl : Located config slot)
    {mirror : DeviceChannelConfigV2 α → DeviceChannelConfigV2 α}
    (hm : Mirrors slot.channel c mirror) : Following (setChannel config slot c) := by
  have htype : c.channelType = slot.channel.channelType := hm.same ▸ (hm.keeps _ rfl rfl).2
  apply following_setChannel hk h hl (typeFree_of_type hk hl htype)
  intro p hp hnames
  obtain ⟨he, hmode⟩ := followsAt_slot hk hl (hnames ▸ h.follows p hp)
  exact ⟨htype, hm.enabled.trans he, hm.mode.trans hmode⟩

/-- Pairings that have lost an endpoint are pruned, and the followers of the rest still follow. -/
theorem Following.pruned {config' : ProjectConfig α} (h : Following s.config)
    (hpairings : config'.pairings = s.config.pairings)
    (hkept : ∀ p ∈ ({ s with config := config' } :
        SetupSession α).pruneInvalidPairings.config.pairings,
      FollowsAt s.config (follower p) → FollowsAt config' (follower p)) :
    Following ({ s with config := config' } : SetupSession α).pruneInvalidPairings.config := by
  apply h.of_sublist
  · rw [← hpairings]
    exact List.filter_sublist.map endpoints
  · intro p hp hfollows
    exact (hkept p hp hfollows).congr rfl

/-- A pairing that is not pruned has an enabled follower. -/
theorem pruned_follower (hk : Keyed s.config) {p : ChannelPairingConfig α}
    (hp : p ∈ s.pruneInvalidPairings.config.pairings) :
    ∃ c, channelAt s.config p.followerDevice p.followerChannelType = some c ∧ c.enabled := by
  obtain ⟨-, hboth⟩ := List.mem_filter.mp hp
  have hfollower := (Bool.and_eq_true_iff.mp hboth).2
  obtain ⟨d, hd, hnamed⟩ := List.any_eq_true.mp hfollower
  obtain ⟨hname, hchannel⟩ := Bool.and_eq_true_iff.mp hnamed
  obtain ⟨c, hc, htyped⟩ := List.any_eq_true.mp hchannel
  obtain ⟨htype, he⟩ := Bool.and_eq_true_iff.mp htyped
  obtain ⟨slot, hl, rfl, rfl⟩ := located_iff.mp ⟨hd, hc⟩
  have hname : slot.device.name = p.followerDevice := by simpa using hname
  have htype : slot.channel.channelType = p.followerChannelType := by simpa using htype
  refine ⟨slot.channel, ?_, he⟩
  rw [← hname, ← htype]
  exact channelAt_located hk hl

/-- Who follows and is still found enabled when a channel is disabled is not that channel. -/
theorem FollowsAt.disabled (hk : Keyed config) (hl : Located config slot)
    (hoff : c.channelType = slot.channel.channelType ∧ ¬ c.enabled) {names : String × String}
    (h : FollowsAt config names) (hfound : ∃ found, channelAt (setChannel config slot c) names.1
      names.2 = some found ∧ found.enabled) : FollowsAt (setChannel config slot c) names := by
  have hfree : TypeFree slot c := typeFree_of_type hk hl hoff.1
  apply h.overwritten hk hl hfree
  rintro rfl
  obtain ⟨found, hat, he⟩ := hfound
  have hself := channelAt_setChannel_self hk hl hfree
  rw [hoff.1] at hself
  obtain rfl := Option.some.inj (hself.symm.trans hat)
  exact absurd he hoff.2

/-- Who follows and is still found when a device is removed is of another device. -/
theorem FollowsAt.erased {i : ℕ} (hk : Keyed config)
    (hk' : Keyed { config with devices := config.devices.eraseIdx i }) {names : String × String}
    (h : FollowsAt config names) (hfound : ∃ found, channelAt { config with
      devices := config.devices.eraseIdx i } names.1 names.2 = some found) :
    FollowsAt { config with devices := config.devices.eraseIdx i } names := by
  obtain ⟨f, hf, he, hm⟩ := h
  obtain ⟨other, ho, hname, rfl, htype⟩ := located_of_channelAt hf
  obtain ⟨found, hat⟩ := hfound
  obtain ⟨left, hleft, hname', -, -⟩ := located_of_channelAt hat
  obtain ⟨j, hj, hdevice⟩ := List.mem_eraseIdx_iff_getElem?.mp (List.mem_of_getElem? hleft.device)
  -- A device of that name is left, and there is only one.
  have hkept : other.deviceIndex ≠ i := by
    rintro rfl
    exact key_ne hk.names ho.device hdevice (Ne.symm hj) (hname.trans hname'.symm)
  have hmem : other.device ∈ config.devices.eraseIdx i :=
    List.mem_eraseIdx_iff_getElem?.mpr ⟨other.deviceIndex, hkept, ho.device⟩
  obtain ⟨slot, hl, hd, hc⟩ := (@located_iff α
    { config with devices := config.devices.eraseIdx i } _ _).mp
      ⟨hmem, List.mem_of_getElem? ho.channel⟩
  refine ⟨other.channel, ?_, he, hm⟩
  have hself := channelAt_located hk' hl
  rw [hd, hc, hname, htype] at hself
  exact hself

/-- A channel is turned off, and the pairings that have lost an endpoint go with it. -/
theorem following_deselected (hk : Keyed s.config) (h : Following s.config)
    (hl : Located s.config slot) (hk' : Keyed (deselected s.config slot)) :
    Following ({ s with config := deselected s.config slot } :
      SetupSession α).pruneInvalidPairings.config := by
  have hpairings : (deselected s.config slot).pairings = s.config.pairings := by
    unfold deselected
    split
    · rfl
    · rfl
  apply h.pruned hpairings
  intro p hp hfollows
  obtain ⟨found, hfound, he⟩ := pruned_follower hk' hp
  dsimp only at hfound
  unfold deselected at hfound hk' ⊢
  split at hfound
  · next hsole =>
    rw [if_pos hsole] at hk' ⊢
    exact hfollows.erased hk hk' ⟨found, hfound⟩
  · next hothers =>
    rw [if_neg hothers]
    exact @FollowsAt.disabled α s.config slot { slot.channel with enabled := false } hk hl
      ⟨rfl, Bool.false_ne_true⟩ _ hfollows ⟨found, hfound, he⟩

/-- A channel that was off is turned on, or a device is added. -/
theorem following_reselected (hk : Keyed s.config) (h : Following s.config) {name : String}
    (hoff : s.selectedDeviceIndex name = none) (hre : reselected s name = some config) :
    Following ({ s with config } : SetupSession α).pruneInvalidPairings.config := by
  obtain ⟨row, hrow, hre⟩ := Option.bind_eq_some_iff.mp hre
  cases hslot : s.configuredDeviceChannelIndex name with
  | none =>
    rw [hslot] at hre
    obtain ⟨device, -, rfl⟩ := Option.map_eq_some_iff.mp hre
    exact h.pruned rfl fun _ _ hfollows => hfollows.append
  | some slot =>
    rw [hslot] at hre
    obtain rfl := Option.some.inj hre
    obtain ⟨row', hrow', hl, hidentity⟩ := configured_spec hslot
    obtain rfl := Option.some.inj (hrow.symm.trans hrow')
    have hfree : TypeFree slot { row.channel with enabled := true } :=
      typeFree_of_type hk hl (congrArg DeviceIdentity.channelType hidentity)
    have hdisabled : ¬ slot.channel.enabled := by
      intro he
      rw [SetupSession.selectedDeviceIndex, hslot, Option.filter_some, if_pos he] at hoff
      cases hoff
    apply h.pruned
    · rfl
    · intro p hp hfollows
      apply hfollows.overwritten hk hl hfree
      -- A follower is enabled, so it is not the channel that was off.
      intro hnames
      exact absurd (followsAt_slot hk hl (hnames ▸ hfollows)).1 hdisabled

theorem following_paired (hk : Keyed s.config) (h : Following s.config)
    {command : SetupCommandEnvelope} {action : SetupAction} {p : ChannelPairingConfig α}
    (hp : preparedPairing floats s command action = some p) (hne : action ≠ .cyclePairMapping) :
    Following (promoted s (placedPairings s command p action) p).config := by
  cases action with
  | createPairing =>
    obtain ⟨pair, -, hp⟩ := Option.bind_eq_some_iff.mp hp
    obtain ⟨hoffered, hp⟩ := Option.ite_none_right_eq_some.mp hp
    obtain rfl := Option.some.inj hp
    exact following_created hk h hoffered rfl
  | setPairingEndpoint endpoint =>
    obtain ⟨index, hindex, hp⟩ := Option.bind_eq_some_iff.mp hp
    obtain ⟨value, -, hp⟩ := Option.bind_eq_some_iff.mp hp
    obtain ⟨⟨device, channelType⟩, -, hp⟩ := Option.bind_eq_some_iff.mp hp
    obtain ⟨pair, hpair, hp⟩ := Option.bind_eq_some_iff.mp hp
    obtain ⟨heligible, hp⟩ := Option.ite_none_right_eq_some.mp hp
    obtain rfl := Option.some.inj hp
    have hplaced : placedPairings s command (rebuiltPairing floats s.config.devices pair endpoint
        (String.ofList device) (String.ofList channelType)) (.setPairingEndpoint endpoint) =
        s.config.pairings.set index (rebuiltPairing floats s.config.devices pair endpoint
          (String.ofList device) (String.ofList channelType)) := by
      rw [placedPairings, hindex]
      · rfl
      · exact SetupAction.noConfusion
    rw [hplaced]
    exact following_rebuilt hk h hpair heligible rfl
  | cyclePairMapping => exact absurd rfl hne
  | _ => cases hp

theorem set_of_getElem? {β : Type} {l : List β} {i : ℕ} {b : β} (h : l[i]? = some b) :
    l.set i b = l := by
  obtain ⟨hlt, rfl⟩ := List.getElem?_eq_some_iff.mp h
  exact List.set_getElem_self hlt

theorem following_mapped (h : Following s.config) {command : SetupCommandEnvelope}
    {p : ChannelPairingConfig α} {index : ℕ} (hindex : command.index = some index)
    (hp : preparedPairing floats s command .cyclePairMapping = some p) :
    Following (placePairing s (s.config.pairings.set index p) p).config := by
  obtain ⟨index', hindex', hp⟩ := Option.bind_eq_some_iff.mp hp
  obtain rfl := Option.some.inj (hindex.symm.trans hindex')
  obtain ⟨q, hq, hp⟩ := Option.bind_eq_some_iff.mp hp
  obtain ⟨-, hp⟩ := Option.ite_none_left_eq_some.mp hp
  obtain rfl := Option.some.inj hp
  obtain ⟨hld, hlc, hfd, hfc⟩ := @built_endpoints α floats s.config.devices
    (nextMapping q.mapping (normalizedDelta command.delta)) q.leaderDevice q.leaderChannelType
    q.followerDevice q.followerChannelType none
  have hsame : (s.config.pairings.set index (pairingFromChannels floats s.config.devices
      (nextMapping q.mapping (normalizedDelta command.delta)) q.leaderDevice q.leaderChannelType
      q.followerDevice q.followerChannelType none)).map endpoints =
      s.config.pairings.map endpoints := by
    rw [List.map_set, endpoints, hld, hlc, hfd, hfc]
    exact set_of_getElem? (by rw [List.getElem?_map, hq]; rfl)
  apply h.of_sublist (hsame ▸ List.Sublist.refl _)
  intro p hp hfollows
  exact hfollows.published.congr rfl

theorem following_step {raw : Except String SetupCommandEnvelope} {command : SetupCommandEnvelope}
    {action : SetupAction} {r : SetupSession α × Bool} (hc : IsCommand raw command action)
    (hkeeps : KeepsFollowers s raw) (hk : Keyed s.config) (h : Following s.config)
    (he : Effect floats s command action r) : Keyed r.1.config ∧ Following r.1.config := by
  cases he with
  | same hconfig => exact hconfig ▸ ⟨hk, h⟩
  | settings hv hdevices hpairings =>
    exact ⟨keyed_of_accepted (validate_iff.mp hv),
      h.of_sublist hpairings fun _ _ hfollows => hfollows.congr hdevices⟩
  | channel name slot c mirror hedit hv hslot hm hconfig =>
    obtain ⟨-, -, hl, -⟩ := configured_spec hslot
    exact ⟨keyed_of_accepted (validate_iff.mp hv), hconfig ▸ following_edited hk h hl hm⟩
  | cycled name slot row c hname hslot hrow hcycled hconfig =>
    obtain ⟨-, -, hl, -⟩ := configured_spec (selected_spec hslot).1
    obtain ⟨hfree, hfollower⟩ := hkeeps command action name slot row c hc hname hslot hrow hcycled
    exact hconfig ▸ ⟨keyed_setChannel hk hl hfree, following_setChannel hk h hl hfree hfollower⟩
  | deselected name slot hv hslot hconfig =>
    obtain ⟨-, -, hl, -⟩ := configured_spec (selected_spec hslot).1
    have hk' := keyed_of_accepted (validate_iff.mp hv)
    refine ⟨hk', hconfig ▸ following_deselected hk h hl ?_⟩
    rw [hconfig] at hk'
    exact hk'.congr rfl rfl
  | reselected name config _ _ hv hslot hre hconfig =>
    exact ⟨keyed_of_accepted (validate_iff.mp hv), hconfig ▸ following_reselected hk h hslot hre⟩
  | added row device _ hv hconfig =>
    refine ⟨keyed_of_accepted (validate_iff.mp hv), hconfig ▸ ?_⟩
    exact h.kept rfl fun _ _ hfollows => hfollows.append
  | mapped p index hp haction hindex hv hconfig =>
    subst haction
    exact ⟨keyed_of_accepted (validate_iff.mp hv), hconfig ▸ following_mapped h hindex hp⟩
  | paired p pairings hp hne hv hconfig _ _ hplaced =>
    subst hplaced
    exact ⟨keyed_of_accepted (validate_iff.mp hv), hconfig ▸ following_paired hk h hp hne⟩
  | takenBack pair _ _ _ _ hconfig =>
    have hk' : Keyed (promotedConfig s.config (requestedPairing floats s pair)) :=
      keyed_namedEdit (keyed_namedEdit hk fun c => (publishing_kept c).2.1)
        fun c => (following_kept c).2.1
    refine hconfig ▸ ⟨hk'.congr rfl rfl, ?_⟩
    apply h.kept
    · rfl
    intro p hp hfollows
    exact hfollows.promoted.congr rfl

end Steps

section Defaults

theorem primary_spec {devices : List (BinaryDeviceConfig α)} {eef : Bool}
    {d : BinaryDeviceConfig α} {c : DeviceChannelConfigV2 α}
    (h : (d, c) ∈ primaryRobotChannels devices eef) :
    d ∈ devices ∧ c ∈ d.channels ∧ c.enabled ∧ decide (c.dof = some 1) = eef := by
  obtain ⟨hd, hc, -⟩ := mem_primaryRobotChannels h
  obtain ⟨e, he, hfound⟩ := List.mem_filterMap.mp h
  obtain ⟨f, hf, heq⟩ := Option.map_eq_some_iff.mp hfound
  obtain ⟨rfl, rfl⟩ := Prod.mk.inj heq
  have hspec := List.find?_some hf
  simp only [Bool.and_eq_true, decide_eq_true_eq, beq_iff_eq] at hspec
  exact ⟨hd, hc, hspec.1.2, hspec.2⟩

/-- A default pairing is one of the first two channels of a list. -/
theorem default_pairings (floats : Floats α) (devices : List (BinaryDeviceConfig α)) :
    ∃ build : List (BinaryDeviceConfig α × DeviceChannelConfigV2 α) →
        Option (ChannelPairingConfig α),
      buildDefaultChannelPairings floats devices =
        [primaryRobotChannels devices false, primaryRobotChannels devices true].filterMap build ∧
      ∀ channels p, build channels = some p → ∃ d l e f,
        pairRobotChannelsByOrder channels = some ((d, l), (e, f)) ∧
        (p.leaderDevice, p.leaderChannelType) = (d.name, l.channelType) ∧
        follower p = (e.name, f.channelType) := by
  refine ⟨_, rfl, ?_⟩
  intro channels p hp
  obtain ⟨⟨⟨d, l⟩, ⟨e, f⟩⟩, hpair, hp⟩ := Option.bind_eq_some_iff.mp hp
  obtain ⟨policy, -, hp⟩ := Option.bind_eq_some_iff.mp hp
  obtain ⟨-, hp⟩ := Option.ite_none_left_eq_some.mp hp
  obtain rfl := Option.some.inj hp
  obtain ⟨hld, hlc, hfd, hfc⟩ := @built_endpoints α floats devices policy d.name l.channelType
    e.name f.channelType none
  exact ⟨d, l, e, f, hpair, Prod.ext hld hlc, Prod.ext hfd hfc⟩

/-- The follower is found in the mode that follows commands. -/
def InMode (config : ProjectConfig α) (p : ChannelPairingConfig α) : Prop :=
  ∀ c, channelAt config p.followerDevice p.followerChannelType = some c →
    c.mode = some .commandFollowing

/-- A project with the default pairings lacks nothing but the mode of their followers. -/
theorem following_default_iff (ha : Accepted floats.toPlatform config)
    (hdefault : config.pairings = buildDefaultChannelPairings floats config.devices) :
    Following config ↔ ∀ p ∈ config.pairings, InMode config p := by
  obtain ⟨build, hbuild, hspec⟩ := default_pairings floats config.devices
  have hk := keyed_of_accepted ha
  have hfollower : ∀ eef p, build (primaryRobotChannels config.devices eef) = some p →
      (p.leaderDevice, p.leaderChannelType) ≠ follower p ∧
      ∃ f, channelAt config p.followerDevice p.followerChannelType = some f ∧ f.enabled ∧
        decide (f.dof = some 1) = eef := by
    intro eef p hp
    obtain ⟨d, l, e, f, hpair, hleader, hfollower⟩ := hspec _ p hp
    obtain ⟨-, hb, hne⟩ := paired_by_order ha.names hpair
    obtain ⟨he, hf, henabled, hdof⟩ := primary_spec hb
    obtain ⟨slot, hl, rfl, rfl⟩ := located_iff.mp ⟨he, hf⟩
    refine ⟨?_, slot.channel, ?_, henabled, hdof⟩
    · rw [hleader, hfollower]
      exact fun hsame => hne (congrArg Prod.fst hsame)
    · obtain ⟨hname, htype⟩ := Prod.mk.inj hfollower
      rw [hname, htype]
      exact channelAt_located hk hl
  constructor
  · intro h p hp c hc
    obtain ⟨c', hc', -, hm⟩ := h.follows p hp
    obtain rfl := Option.some.inj (hc.symm.trans hc')
    exact hm
  · intro h
    have hmem : ∀ p ∈ config.pairings, ∃ eef,
        build (primaryRobotChannels config.devices eef) = some p := by
      intro p hp
      rw [hdefault, hbuild] at hp
      obtain ⟨channels, hchannels, hp⟩ := List.mem_filterMap.mp hp
      rcases List.mem_pair.mp hchannels with rfl | rfl
      · exact ⟨false, hp⟩
      · exact ⟨true, hp⟩
    refine ⟨?_, ?_, ?_⟩
    · intro p hp
      obtain ⟨eef, hbuilt⟩ := hmem p hp
      obtain ⟨-, f, hf, he, -⟩ := hfollower eef p hbuilt
      exact ⟨f, hf, he, h p hp f hf⟩
    · intro p hp
      obtain ⟨eef, hbuilt⟩ := hmem p hp
      exact (hfollower eef p hbuilt).1
    · rw [hdefault, hbuild, List.Nodup, List.pairwise_map, List.pairwise_filterMap]
      simp only [List.pairwise_cons, List.mem_singleton, forall_eq, List.not_mem_nil,
        false_imp_iff, implies_true, List.Pairwise.nil, and_true]
      intro p hp q hq hsame
      obtain ⟨-, f, hf, -, hnot⟩ := hfollower false p hp
      obtain ⟨-, g, hg, -, hone⟩ := hfollower true q hq
      -- The arm that follows has not one joint, and the end effector has.
      have hnames := Prod.mk.inj hsame
      rw [hnames.1, hnames.2, hg] at hf
      obtain rfl := Option.some.inj hf
      rw [hone] at hnot
      cases hnot

end Defaults

section Runs

/-- The sessions reached from a valid project whose followers follow, by commands that keep them
so. -/
inductive FollowingRun (floats : Floats α) (store : ProjectConfig α → String → Except String Unit)
    (opened : SetupSession α) : SetupSession α → Prop where
  | opened : opened.config.validate floats.toPlatform = .ok () → Following opened.config →
      FollowingRun floats store opened opened
  | command {t : SetupSession α} {raw applied} : FollowingRun floats store opened t →
      KeepsFollowers t raw → applyRawCommand floats store t raw = .ok applied →
      FollowingRun floats store opened applied.session
  | loop {t t' : SetupSession α} : FollowingRun floats store opened t → LoopChange t t' →
      FollowingRun floats store opened t'

variable {store : ProjectConfig α → String → Except String Unit} {opened : SetupSession α}

theorem following_run (h : FollowingRun floats store opened s) :
    Keyed s.config ∧ Following s.config := by
  induction h with
  | opened hv h => exact ⟨keyed_of_accepted (validate_iff.mp hv), h⟩
  | command _ hkeeps happlied ih =>
    rcases applied_effect happlied with heq | ⟨command, action, hc, he⟩
    · exact heq ▸ ih
    · exact following_step hc hkeeps ih.1 ih.2 he
  | loop _ hl ih => exact (loopChange_same hl).1 ▸ ih

/-- The wizard opens a discovered project with its followers following exactly if those of the
default pairings have that mode, and in a session that such commands reach they all follow. -/
theorem followers_follow (floats : Floats α)
    (store : ProjectConfig α → String → Except String Unit) (opened : SetupSession α) :
    (opened.config.validate floats.toPlatform = .ok () →
      opened.config.pairings = buildDefaultChannelPairings floats opened.config.devices →
      (Following opened.config ↔ ∀ p ∈ opened.config.pairings, InMode opened.config p)) ∧
    ∀ s, FollowingRun floats store opened s → Following s.config :=
  ⟨fun hv hdefault => following_default_iff (validate_iff.mp hv) hdefault,
    fun _ h => (following_run h).2⟩

end Runs

def discoveredArms : List (BinaryDeviceConfig ℚ) :=
  [pickedArm "left", { pickedArm "right" with
    channels := (pickedArm "right").channels.map fun c =>
      { c with mode := some .commandFollowing } }]

def discoveredSession : SetupSession ℚ :=
  .new (sampleProject discoveredArms (buildDefaultChannelPairings rationalFloats discoveredArms))
    (discoveredArms.map pickedRow) "project.toml" false

def cycleModeCommand (arm : String) : SetupCommandEnvelope :=
  { msgType := "command", action := "setup_cycle_robot_mode"
    name := some ("robot|play|" ++ arm ++ "|arm|-") }

/-- The arm that leads may be in any mode. -/
theorem cycled_leader_keeps : KeepsFollowers discoveredSession (.ok (cycleModeCommand "left")) := by
  intro command action name slot row c hc hname hslot _ _
  obtain rfl := Except.ok.inj hc.parsed
  obtain rfl := Option.some.inj hname
  obtain rfl := Option.some.inj hslot
  refine ⟨?_, ?_⟩
  · intro j c' hc' hj
    cases j with
    | zero => exact absurd rfl hj
    | succ j => cases hc'
  · intro p hp hnames
    obtain rfl := List.mem_singleton.mp hp
    exact absurd hnames (by decide +kernel)

/-- The leader of the two arms is cycled. -/
theorem discovered_arms_follow : ∃ applied,
    applyRawCommand rationalFloats anyStore discoveredSession (.ok (cycleModeCommand "left")) =
      .ok applied ∧ Following applied.session.config := by
  have hfollows := followers_follow rationalFloats anyStore discoveredSession
  have hopened : Following discoveredSession.config := by
    refine (hfollows.1 (by decide +kernel) rfl).mpr ?_
    intro p hp c hc
    obtain rfl := List.mem_singleton.mp hp
    obtain rfl := Option.some.inj hc
    rfl
  exact ⟨_, rfl, hfollows.2 _
    (.command (.opened (by decide +kernel) hopened) cycled_leader_keeps rfl)⟩

/-- The follower's mode is cycled: it is in free drive, and still paired. -/
theorem follower_set_free : ∃ applied p c,
    applyRawCommand rationalFloats anyStore discoveredSession (.ok (cycleModeCommand "right")) =
      .ok applied ∧
      Reached rationalFloats anyStore discoveredSession applied.session ∧
      p ∈ applied.session.config.pairings ∧
      channelAt applied.session.config p.followerDevice p.followerChannelType = some c ∧
      c.mode = some .freeDrive ∧ ¬ Following applied.session.config := by
  refine ⟨_, _, _, rfl, @Reached.command ℚ rationalFloats anyStore discoveredSession
    discoveredSession (.ok (cycleModeCommand "right")) _ .opened rfl,
    List.mem_singleton_self _, rfl, rfl, ?_⟩
  intro h
  obtain ⟨c, hc, -, hm⟩ := h.follows _ (List.mem_singleton_self _)
  obtain rfl := Option.some.inj hc
  cases hm

end FollowerModes
