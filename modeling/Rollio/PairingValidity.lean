import Rollio.EditedProjects

/-! What the pairing picker lets through passes the check of pairings. -/
namespace PairingValidity
open BusMessages RuntimeConfig TeleopConfig DeviceConfigs ProjectConfigs Outcomes AcceptedProjects
open SetupState PairingPicker SetupPairings EditedProjects
open FirstMatch (modifyFirst_of_fixed)

variable {α : Type} {floats : Floats α}

theorem mem_eligibleLeader {s : SetupSession α} {policy : MappingStrategy}
    {exceptPairIndex : Option ℕ} {leader : String × String}
    (h : leader ∈ eligibleLeaderChannelsFor s policy exceptPairIndex) :
    ∃ d ∈ s.config.devices, ∃ c ∈ d.channels, leader = (d.name, c.channelType) ∧ c.kind = .robot ∧
      supportsLeader policy c := by
  simp only [eligibleLeaderChannelsFor, List.mem_flatMap, List.mem_filterMap,
    Option.ite_none_left_eq_some, not_or, not_not, Option.some.injEq] at h
  obtain ⟨d, hd, c, hc, ⟨-, hk⟩, -, hs, -, rfl⟩ := h
  exact ⟨d, hd, c, hc, rfl, hk, hs⟩

theorem mem_eligibleFollower {s : SetupSession α} {policy : MappingStrategy}
    {leader : Option (String × String)} {exceptPairIndex : Option ℕ} {follower : String × String}
    (h : follower ∈ eligibleFollowerChannelsFor s policy leader exceptPairIndex) :
    ∃ e ∈ s.config.devices, ∃ f ∈ e.channels, follower = (e.name, f.channelType) ∧
      f.kind = .robot ∧ supportsFollower policy f ∧
      ∀ d c, resolveLeader s leader = some (d, c) → policyPairCompatible policy d c e f := by
  simp only [eligibleFollowerChannelsFor, List.mem_flatMap, List.mem_filterMap,
    Option.ite_none_left_eq_some, not_or, not_not, Option.some.injEq] at h
  obtain ⟨e, he, f, hf, ⟨-, hk⟩, -, hs, hp, -, -, rfl⟩ := h
  refine ⟨e, he, f, hf, rfl, hk, hs, fun d c hr => ?_⟩
  simpa [hr] using hp

/-- In an accepted project the leader resolves to the channel it was picked from. -/
theorem resolveLeader_mem {s : SetupSession α} (h : Accepted floats.toPlatform s.config)
    {d : BinaryDeviceConfig α} (hd : d ∈ s.config.devices) {c : DeviceChannelConfigV2 α}
    (hc : c ∈ d.channels) : resolveLeader s (some (d.name, c.channelType)) = some (d, c) := by
  have hfind := h.deviceNamed hd
  have hchannel := (h.devices d hd).channelNamed hc
  obtain ⟨pre, post, hsplit, hpre⟩ := (List.find?_eq_some_iff_append.mp hfind).2
  show s.config.devices.findSome? _ = _
  rw [hsplit, List.findSome?_append, List.findSome?_eq_none_iff.mpr, Option.none_or,
    List.findSome?_cons]
  · rw [if_pos rfl, hchannel]
    rfl
  · intro e he
    rw [if_neg]
    simpa using hpre e he

section Built
variable {config : ProjectConfig α} {d e : BinaryDeviceConfig α} {l f : DeviceChannelConfigV2 α}

/-- The joints of a direct-joint pairing with one entry for each joint of the follower. -/
theorem valid_of_joints {p : ChannelPairingConfig α} {dof : UInt32} (hl : l.dof = some dof)
    (hf : f.dof = some dof) (hmap : p.jointIndexMap = (List.range dof.toNat).map UInt32.ofNat)
    (hscales : p.jointScales.length = dof.toNat) :
    p.validateDirectJointDofAndIndexMap l f = .ok () := by
  have hlen : p.jointIndexMap.length = dof.toNat := by
    rw [hmap, List.length_map, List.length_range]
  by_cases hm : p.jointIndexMap = []
  · simp [ChannelPairingConfig.validateDirectJointDofAndIndexMap, hl, hf, hm, hscales]
  · simp only [ChannelPairingConfig.validateDirectJointDofAndIndexMap, hl, hf, hm, if_false,
      Option.getD_some, bind_eq_ok, exists_unit, list_forM_eq_ok, last_check_eq_ok, hlen, hscales,
      ne_eq, not_true_eq_false, ite_self]
    constructor
    · rintro ⟨joint, index⟩ hj
      obtain ⟨i, hi, rfl⟩ := List.mem_map.mp (hmap ▸ List.fst_mem_of_mem_zipIdx hj)
      have hlt : i < dof.toNat := List.mem_range.mp hi
      show ¬ dof ≤ UInt32.ofNat i
      rw [UInt32.le_iff_toNat_le, UInt32.toNat_ofNat_of_lt' (hlt.trans dof.toNat_lt)]
      omega
    · rfl

theorem compatible_directJoint (h : policyPairCompatible .directJoint d l e f) :
    ∃ dof, l.dof = some dof ∧ f.dof = some dof ∧
      (l.directJointCompatibility.canLead.any fun peer =>
        peer.driver == e.driver && peer.channelType == f.channelType) ∧
      f.directJointCompatibility.canFollow.any fun peer =>
        peer.driver == d.driver && peer.channelType == l.channelType := by
  simp only [policyPairCompatible, Bool.if_false_left, Bool.and_eq_true, Bool.not_eq_true',
    decide_eq_false_iff_not, not_or, not_not] at h
  obtain ⟨⟨hsome, heq⟩, hlead, hfollow⟩ := h
  obtain ⟨dof, hdof⟩ := Option.isSome_iff_exists.mp (Option.isSome_iff_ne_none.mpr fun hn =>
    hsome (Option.isNone_iff_eq_none.mpr hn))
  exact ⟨dof, hdof, heq ▸ hdof, hlead, hfollow⟩

/-- The ratio of a parallel pairing is the one asked for where that is usable. -/
theorem ratio_usable (ratio : Option α) :
    floats.isFinite ((ratio.filter fun r => floats.isFinite r && !floats.isZero r).getD floats.one) ∧
      ¬ floats.isZero
        ((ratio.filter fun r => floats.isFinite r && !floats.isZero r).getD floats.one) := by
  cases hr : ratio.filter fun r => floats.isFinite r && !floats.isZero r with
  | none => exact ⟨floats.one_isFinite, by simp [floats.one_isZero]⟩
  | some r => simpa using (Option.filter_eq_some_iff.mp hr).2

theorem mapping_directJoint {p : ChannelPairingConfig α} (hm : p.mapping = .directJoint)
    (hs : p.leaderState = .jointPosition) (hc : p.followerCommand = .jointPosition)
    (hf : .jointPosition ∈ f.supportedCommands)
    (hjoints : p.validateDirectJointDofAndIndexMap l f = .ok ())
    (hlead : l.directJointCompatibility.canLead.any fun peer =>
      peer.driver == e.driver && peer.channelType == f.channelType)
    (hfollow : f.directJointCompatibility.canFollow.any fun peer =>
      peer.driver == d.driver && peer.channelType == l.channelType) :
    p.validateMapping floats.toPlatform d l e f = .ok () := by
  have hcompatible : p.requireDirectJointCompatibility d l e f = .ok () := by
    simp only [ChannelPairingConfig.requireDirectJointCompatibility, hlead, hfollow, and_self,
      if_true]
    rfl
  simp only [ChannelPairingConfig.validateMapping, hm, hs, hc, hf, check_eq_ok, bind_eq_ok,
    exists_unit, hjoints, hcompatible, ne_eq, not_true_eq_false, and_false, not_false_eq_true,
    true_and]
  split
  · rfl
  · rfl

theorem mapping_parallel {p : ChannelPairingConfig α} {ratio : α} (hm : p.mapping = .parallel)
    (hs : p.leaderState = .parallelPosition)
    (hc : p.followerCommand = .parallelPosition ∨ p.followerCommand = .parallelMit)
    (hmap : p.jointIndexMap = []) (hscales : p.jointScales = [ratio])
    (hratio : floats.isFinite ratio ∧ ¬ floats.isZero ratio) (hl : l.dof = some 1)
    (hf : f.dof = some 1) (hadvertised : ¬ (f.supportedCommands ≠ [] ∧
      .parallelPosition ∉ f.supportedCommands ∧ .parallelMit ∉ f.supportedCommands)) :
    p.validateMapping floats.toPlatform d l e f = .ok () := by
  simp only [ChannelPairingConfig.validateMapping, hm, hs, hc, hmap, hscales, hl, hf, check_eq_ok,
    hadvertised, ne_eq, not_true_eq_false, or_self, not_false_eq_true, true_and,
    last_check_eq_ok]
  simp [hratio.1, hratio.2]

/-- A pairing of two channels that the picker puts together passes the check. -/
theorem built_valid (h : Accepted floats.toPlatform config) (hd : d ∈ config.devices)
    (hl : l ∈ d.channels) (he : e ∈ config.devices) (hf : f ∈ e.channels)
    (hlk : l.kind = .robot) (hfk : f.kind = .robot)
    (hne : (d.name, l.channelType) ≠ (e.name, f.channelType)) {policy : MappingStrategy}
    (hls : supportsLeader policy l) (hfs : supportsFollower policy f)
    (hpc : policyPairCompatible policy d l e f) (ratio : Option α) :
    (pairingFromChannels floats config.devices policy d.name l.channelType e.name f.channelType
      ratio).validate floats.toPlatform config = .ok () := by
  have hch : ((deviceNamed config.devices e.name).bind fun d => d.channelNamed f.channelType) =
      some f := by
    rw [show deviceNamed config.devices e.name = some e from h.deviceNamed he]
    exact (h.devices e he).channelNamed hf
  have hdiffer : ¬ (d.name = e.name ∧ l.channelType = f.channelType) := by
    rintro ⟨h₁, h₂⟩
    exact hne (by rw [h₁, h₂])
  rw [pairing_validate_iff]
  refine ⟨d, l, e, f, ?_⟩
  cases policy with
  | directJoint =>
    simp only [supportsLeader, channelSupportsDirectJointLeader, decide_eq_true_eq] at hls
    simp only [supportsFollower, channelSupportsDirectJointFollower, decide_eq_true_eq] at hfs
    obtain ⟨dof, hldof, hfdof, hlead, hfollow⟩ := compatible_directJoint hpc
    refine ⟨h.deviceNamed hd, h.deviceNamed he, (h.devices d hd).channelNamed hl,
      (h.devices e he).channelNamed hf, hlk, hfk, hdiffer, hls.1, ?_, ?_⟩
    · apply mapping_directJoint rfl rfl rfl hfs.1 _ hlead hfollow
      apply valid_of_joints hldof hfdof
      · simp [pairingFromChannels, hch, hfdof]
      · simp [pairingFromChannels, hch, hfdof]
    · intro scale hs
      rw [List.eq_of_mem_replicate hs]
      exact floats.one_isFinite
  | cartesian =>
    simp only [supportsLeader, channelSupportsCartesianLeader, decide_eq_true_eq] at hls
    simp only [supportsFollower, channelSupportsCartesianFollower, decide_eq_true_eq] at hfs
    refine ⟨h.deviceNamed hd, h.deviceNamed he, (h.devices d hd).channelNamed hl,
      (h.devices e he).channelNamed hf, hlk, hfk, hdiffer, hls, ?_, ?_⟩
    · simp [pairingFromChannels, ChannelPairingConfig.validateMapping, hfs]
    · intro scale hs
      cases hs
  | parallel =>
    simp only [supportsLeader, channelSupportsParallelLeader, decide_eq_true_eq] at hls
    simp only [supportsFollower, channelSupportsParallelFollower, decide_eq_true_eq] at hfs
    refine ⟨h.deviceNamed hd, h.deviceNamed he, (h.devices d hd).channelNamed hl,
      (h.devices e he).channelNamed hf, hlk, hfk, hdiffer, hls.2, ?_, ?_⟩
    · refine mapping_parallel rfl rfl ?_ rfl rfl (ratio_usable ratio) hls.1 hfs.1 ?_
      · simp only [pairingFromChannels]
        split
        · exact .inr rfl
        · exact .inl rfl
      · rintro ⟨-, hposition, hmit⟩
        exact hfs.2.elim hposition hmit
    · intro scale hs
      rw [List.mem_singleton.mp hs]
      exact (ratio_usable ratio).1

end Built

theorem validate_devices {config other : ProjectConfig α} (h : other.devices = config.devices)
    (p : ChannelPairingConfig α) :
    p.validate floats.toPlatform other = p.validate floats.toPlatform config := by
  simp only [ChannelPairingConfig.validate, ProjectConfig.deviceNamed, h]

theorem picked_valid {s : SetupSession α} (h : Accepted floats.toPlatform s.config)
    {policy : MappingStrategy} {exceptPairIndex : Option ℕ} {leader follower : String × String}
    (hl : leader ∈ eligibleLeaderChannelsFor s policy exceptPairIndex)
    (hf : follower ∈ eligibleFollowerChannelsFor s policy (some leader) exceptPairIndex)
    (hne : leader ≠ follower) (ratio : Option α) :
    (pairingFromChannels floats s.config.devices policy leader.1 leader.2 follower.1 follower.2
      ratio).validate floats.toPlatform s.config = .ok () := by
  obtain ⟨d, hd, c, hc, rfl, hck, hcs⟩ := mem_eligibleLeader hl
  obtain ⟨e, he, f, hfm, rfl, hfk, hfs, hpair⟩ := mem_eligibleFollower hf
  exact built_valid h hd hc he hfm hck hfk hne hcs hfs
    (hpair d c (resolveLeader_mem h hd hc)) ratio

theorem mem_primaryRobotChannels {devices : List (BinaryDeviceConfig α)} {eef : Bool}
    {d : BinaryDeviceConfig α} {c : DeviceChannelConfigV2 α}
    (h : (d, c) ∈ primaryRobotChannels devices eef) :
    d ∈ devices ∧ c ∈ d.channels ∧ c.kind = .robot := by
  simp only [primaryRobotChannels, List.mem_filterMap, Option.map_eq_some_iff, Prod.mk.injEq] at h
  obtain ⟨e, he, f, hf, rfl, rfl⟩ := h
  have hk := List.find?_some hf
  simp only [Bool.and_eq_true, decide_eq_true_eq] at hk
  exact ⟨he, List.mem_of_find?_eq_some hf, hk.1.1⟩

theorem paired_by_order {devices : List (BinaryDeviceConfig α)} {eef : Bool}
    (hn : (devices.map (·.name)).Nodup) {a b : BinaryDeviceConfig α × DeviceChannelConfigV2 α}
    (h : pairRobotChannelsByOrder (primaryRobotChannels devices eef) = some (a, b)) :
    a ∈ primaryRobotChannels devices eef ∧ b ∈ primaryRobotChannels devices eef ∧
      a.1.name ≠ b.1.name := by
  have hnames : (primaryRobotChannels devices eef).Pairwise fun x y => x.1.name ≠ y.1.name := by
    rw [primaryRobotChannels, List.pairwise_filterMap]
    apply (List.pairwise_map.mp hn).imp
    intro d e hne x hx y hy
    obtain ⟨_, -, rfl⟩ := Option.map_eq_some_iff.mp hx
    obtain ⟨_, -, rfl⟩ := Option.map_eq_some_iff.mp hy
    exact hne
  cases hl : primaryRobotChannels devices eef with
  | nil =>
    rw [hl] at h
    cases h
  | cons x rest =>
    cases rest with
    | nil =>
      rw [hl] at h
      cases h
    | cons y rest =>
      rw [hl] at h hnames
      cases h
      exact ⟨by simp, by simp, List.rel_of_pairwise_cons hnames List.mem_cons_self⟩

/-- The policy a new pairing gets by default is one that both its channels support. -/
theorem defaultMapping_supported {l f : DeviceChannelConfigV2 α} {policy : MappingStrategy}
    (h : defaultMappingStrategyFor l f = some policy) :
    supportsLeader policy l ∧ supportsFollower policy f := by
  unfold defaultMappingStrategyFor at h
  split at h
  · next hp =>
    cases h
    exact hp
  split at h
  · next hd =>
    cases h
    exact ⟨hd.1, hd.2.1⟩
  split at h
  · next hc =>
    cases h
    exact hc
  · cases h

theorem default_valid {config : ProjectConfig α} (h : Accepted floats.toPlatform config)
    {p : ChannelPairingConfig α} (hp : p ∈ buildDefaultChannelPairings floats config.devices) :
    p.validate floats.toPlatform config = .ok () := by
  obtain ⟨channels, hchannels, hp⟩ := List.mem_filterMap.mp hp
  obtain ⟨eef, rfl⟩ : ∃ eef, channels = primaryRobotChannels config.devices eef := by
    rcases List.mem_pair.mp hchannels with rfl | rfl
    · exact ⟨false, rfl⟩
    · exact ⟨true, rfl⟩
  obtain ⟨⟨⟨d, l⟩, ⟨e, f⟩⟩, hpair, hp⟩ := Option.bind_eq_some_iff.mp hp
  obtain ⟨policy, hpolicy, hp⟩ := Option.bind_eq_some_iff.mp hp
  obtain ⟨ha, hb, hne⟩ := paired_by_order h.names hpair
  obtain ⟨hd, hl, hlk⟩ := mem_primaryRobotChannels ha
  obtain ⟨he, hf, hfk⟩ := mem_primaryRobotChannels hb
  obtain ⟨hls, hfs⟩ := defaultMapping_supported hpolicy
  rw [Option.ite_none_left_eq_some] at hp
  obtain ⟨hcompatible, hp⟩ := hp
  have hpc : policyPairCompatible policy d l e f := by
    cases policy with
    | directJoint => exact not_not.mp fun hn => hcompatible ⟨rfl, hn⟩
    | cartesian => rfl
    | parallel => rfl
  rw [← Option.some.inj hp]
  exact built_valid h hd hl he hf hlk hfk (fun hx => hne (congrArg Prod.fst hx)) hls hfs hpc none

theorem ensure_published {config : ProjectConfig α} (h : Accepted floats.toPlatform config)
    {d : BinaryDeviceConfig α} (hd : d ∈ config.devices) {c : DeviceChannelConfigV2 α}
    (hc : c ∈ d.channels) {state : RobotStateKind} (hs : state ∈ c.publishStates) :
    ensureChannelPublishesState config.devices d.name c.channelType state = config.devices := by
  apply modifyFirst_of_fixed
  intro e he hname
  have hname : e.name = d.name := by simpa using hname
  have hde : e = d := by
    have hfound := h.deviceNamed he
    rw [hname, h.deviceNamed hd] at hfound
    exact (Option.some.inj hfound).symm
  subst hde
  congr 1
  apply modifyFirst_of_fixed
  intro c' hc' htype
  have htype : c'.channelType = c.channelType := by simpa using htype
  have hcc : c' = c := by
    have hfound := (h.devices e he).channelNamed hc'
    rw [htype, (h.devices e he).channelNamed hc] at hfound
    exact (Option.some.inj hfound).symm
  rw [hcc, if_pos hs]

/-- Putting a follower into command following keeps a project accepted. -/
theorem accepted_promote {s : SetupSession α} (h : Accepted floats.toPlatform s.config)
    (deviceName channelType : String) : Accepted floats.toPlatform
      (promoteFollowerChannelToCommandFollowing s deviceName channelType).config := by
  have heq := modifyChannel_eq h deviceName channelType fun channel =>
    if channel.kind = .robot then { channel with mode := some .commandFollowing } else channel
  suffices hedit : Accepted floats.toPlatform (editChannels s.config fun n c =>
      if n = deviceName ∧ c.channelType = channelType then
        if c.kind = .robot then { c with mode := some .commandFollowing } else c
      else c) from
    (congrArg (fun devices => Accepted floats.toPlatform { s.config with devices }) heq).mpr hedit
  apply accepted_edit h
  · intro d hd c hc
    split
    · split
      · exact ⟨rfl, rfl, rfl, rfl, rfl, List.Subset.refl _⟩
      · exact .refl c
    · exact .refl c
  · intro d hd c hc
    have hv := (h.devices d hd).channels c hc
    split
    · split
      · next hk =>
        have ha := (robot_validate_iff hk).mp hv
        exact (@robot_validate_iff α floats.toPlatform d.name
          { c with mode := some .commandFollowing } hk).mpr ⟨ha.channelType, ha.previewEnabled, ha.dof,
          fun _ => Option.some_ne_none _, ha.publishStates, ha.recordedStates, ha.profile,
          ha.controlFrequencyHz⟩
      · exact hv
    · exact hv
  · intro d hd c hc hk
    simp [hk]

theorem accepted_push {config : ProjectConfig α} (h : Accepted floats.toPlatform config)
    {p : ChannelPairingConfig α} (hp : p.validate floats.toPlatform config = .ok ()) :
    Accepted floats.toPlatform { config with pairings := config.pairings ++ [p] } := by
  refine { h with pairings := fun q hq => ?_ }
  refine (@validate_devices α floats config _ rfl q).trans ?_
  rcases List.mem_append.mp hq with hq | hq
  · exact h.pairings q hq
  · rw [List.mem_singleton.mp hq]
    exact hp

/-- A pairing of eligible channels is pushed without a failing check. -/
theorem createPairingOf_valid {s : SetupSession α} (h : Accepted floats.toPlatform s.config)
    {pair : TeleopPairCreate α}
    (hl : pair.leader ∈ eligibleLeaderChannelsFor s pair.policy none)
    (hf : pair.follower ∈ eligibleFollowerChannelsFor s pair.policy (some pair.leader) none)
    (hne : pair.leader ≠ pair.follower) :
    Accepted floats.toPlatform (pushPairing s (pairingFromChannels floats s.config.devices
      pair.policy pair.leader.1 pair.leader.2 pair.follower.1 pair.follower.2 pair.ratio)).config := by
  apply accepted_promote
  have hp := picked_valid h hl hf hne pair.ratio
  obtain ⟨ld, l, fd, f, ha⟩ := pairing_validate_iff.mp hp
  obtain ⟨hld, hldn⟩ := deviceNamed_eq_some ha.leaderHost
  obtain ⟨hlm, hlt⟩ := channelNamed_eq_some ha.leaderFound
  have hdevices := ensure_published h hld hlm ha.leaderState
  rw [hldn, hlt] at hdevices
  have hpush := accepted_push h hp
  exact (congrArg (fun devices => Accepted floats.toPlatform { s.config with
    devices, pairings := s.config.pairings ++ [_] }) hdevices).mpr hpush

/-- With no endpoints given, an eligible leader and an eligible follower of it are picked. -/
theorem pickDefault_eligible {s s' : SetupSession α} {pair : TeleopPairCreate α}
    (h : pickDefaultPairEndpoints floats s = (s', some pair)) :
    s' = s ∧ pair.leader ∈ eligibleLeaderChannelsFor s pair.policy none ∧
      pair.follower ∈ eligibleFollowerChannelsFor s pair.policy (some pair.leader) none ∧
      pair.leader ≠ pair.follower := by
  simp only [pickDefaultPairEndpoints] at h
  split at h
  · next picked hpicked =>
    cases h
    obtain ⟨policy, -, hpicked⟩ := List.exists_of_findSome?_eq_some hpicked
    obtain ⟨leader, hl, hpicked⟩ := List.exists_of_findSome?_eq_some hpicked
    obtain ⟨follower, hf, hpicked⟩ := List.exists_of_findSome?_eq_some hpicked
    rw [Option.ite_none_right_eq_some] at hpicked
    obtain ⟨hne, hpicked⟩ := hpicked
    cases hpicked
    exact ⟨rfl, hl, hf, hne⟩
  · cases h

theorem createPairingOf_none {s : SetupSession α} (h : Accepted floats.toPlatform s.config)
    {pair : TeleopPairCreate α} (hn : (createPairingOf floats s pair).2 = none) :
    (createPairingOf floats s pair).1.config = s.config := by
  unfold createPairingOf at hn ⊢
  by_cases hl : pair.leader ∉ eligibleLeaderChannelsFor s pair.policy none
  · rw [if_pos hl]
  by_cases hf : pair.follower ∉ eligibleFollowerChannelsFor s pair.policy (some pair.leader) none
  · rw [if_neg hl, if_pos hf]
  by_cases he : pair.leader = pair.follower
  · rw [if_neg hl, if_neg hf, if_pos he]
  · have hvalid := validate_iff.mpr
      (createPairingOf_valid h (not_not.mp hl) (not_not.mp hf) he)
    rw [if_neg hl, if_neg hf, if_neg he] at hn
    simp only [hvalid] at hn
    cases hn

/-- A pairing of a leader and a follower that the picker offers passes the check, and so does
every pairing made by default, in any project of the same devices; no new pairing is taken back. -/
theorem picker_pairing_valid {s : SetupSession α}
    (h : s.config.validate floats.toPlatform = .ok ()) :
    (∀ (policy : MappingStrategy) (exceptPairIndex : Option ℕ) (leader follower : String × String)
      (ratio : Option α), leader ∈ eligibleLeaderChannelsFor s policy exceptPairIndex →
      follower ∈ eligibleFollowerChannelsFor s policy (some leader) exceptPairIndex →
      leader ≠ follower →
      (pairingFromChannels floats s.config.devices policy leader.1 leader.2 follower.1 follower.2
        ratio).validate floats.toPlatform s.config = .ok ()) ∧
    (∀ p ∈ buildDefaultChannelPairings floats s.config.devices, ∀ config : ProjectConfig α,
      config.devices = s.config.devices → p.validate floats.toPlatform config = .ok ()) ∧
    ∀ explicit : Option (TeleopPairCreate α), (createPairing floats s explicit).2 = none →
      (createPairing floats s explicit).1.config = s.config := by
  have ha := validate_iff.mp h
  refine ⟨fun policy except leader follower ratio hl hf hne => picked_valid ha hl hf hne ratio,
    fun p hp config hd => (validate_devices hd p).trans (default_valid ha hp), ?_⟩
  intro explicit hn
  cases explicit with
  | some pair => exact createPairingOf_none ha hn
  | none =>
    cases hpick : pickDefaultPairEndpoints floats s with
    | mk s' picked =>
      cases picked with
      | some pair =>
        obtain ⟨rfl, -⟩ := pickDefault_eligible hpick
        simp only [createPairing, hpick] at hn ⊢
        exact createPairingOf_none ha hn
      | none =>
        simp only [createPairing, hpick]
        simp only [pickDefaultPairEndpoints] at hpick
        split at hpick
        · cases hpick
        · cases hpick
          rfl

/-- The rational numbers of an operator who types whole numbers. -/
def rationalFloats : Floats ℚ :=
  { rationals with
    one := 1
    parse := fun text => text.toNat?.map fun n => (n : ℚ)
    same := fun a b => a = b
    close := fun a b => a = b
    one_isFinite := rfl
    one_isZero := by decide }

def pickedArm (name : String) : BinaryDeviceConfig ℚ :=
  { name, driver := "play", id := name, busRoot := name
    channels := [{ channelType := "arm", kind := .robot, mode := some .freeDrive, dof := some 2
                   publishStates := [.jointPosition], supportedCommands := [.jointPosition]
                   directJointCompatibility := ⟨[⟨"play", "arm"⟩], [⟨"play", "arm"⟩]⟩ }] }

def pickedRow (d : BinaryDeviceConfig ℚ) : AvailableDevice ℚ :=
  .ofDevice ("robot|" ++ d.driver ++ "|" ++ d.id ++ "|arm|-") d.name .robot
    [.freeDrive, .commandFollowing] [.jointPosition] d
    (d.channels.headD { channelType := "arm", kind := .robot })

def pickedSession : SetupSession ℚ :=
  .new (sampleProject [pickedArm "left", pickedArm "right"] [])
    [pickedRow (pickedArm "left"), pickedRow (pickedArm "right")] "project.toml" false

theorem picked_arms_valid :
    (pairingFromChannels rationalFloats pickedSession.config.devices .directJoint "left" "arm"
      "right" "arm" none).validate rationals pickedSession.config = .ok () :=
  (@picker_pairing_valid ℚ rationalFloats pickedSession (by decide +kernel)).1 .directJoint none
    ("left", "arm") ("right", "arm") none (by decide +kernel) (by decide +kernel) (by decide)

end PairingValidity
