import Rollio.TeleopStartup

/-! The joints of a direct-joint command, against the map and the scales of its pairing. -/
namespace MappedJoints
open TeleopConfig TeleopMapping TeleopStartup Outcomes
open DeviceConfigs ProjectConfigs AcceptedProjects

variable {K : Type} [Field K]

section Pairings
variable {p : ChannelPairingConfig K} {leader follower : DeviceChannelConfigV2 K}
  {values mapped : List K}

def sourceJoint (p : ChannelPairingConfig K) (i : ℕ) : Option ℕ :=
  if p.jointIndexMap = [] then some i else p.jointIndexMap[i]?.map UInt32.toNat

def jointScale (p : ChannelPairingConfig K) (i : ℕ) : Option K :=
  if p.jointScales = [] then some 1 else p.jointScales[i]?

/-- One value for each joint of the follower: its leader joint times its scale. -/
structure MapsOnto (p : ChannelPairingConfig K) (followerDof : ℕ) (values mapped : List K) :
    Prop where
  length : mapped.length = followerDof
  value : ∀ i < followerDof, ∃ source scale value, sourceJoint p i = some source ∧
    jointScale p i = some scale ∧ values[source]? = some value ∧
    mapped[i]? = some (scale * value)

omit [Field K] in
/-- A loop over this many joints reads no leader value that is not there. -/
theorem source_in_range (hf : JointsFit p leader follower)
    (hv : values.length = (leader.dof.getD 0).toNat) {i : ℕ}
    (hi : i < mappedLength p.jointIndexMap p.jointScales values.length) :
    ∃ source, sourceJoint p i = some source ∧ source < values.length ∧
      (p.jointIndexMap[i]?.getD (UInt32.ofNat i)).toNat = source := by
  rw [mappedLength_of_fit hf] at hi
  by_cases hm : p.jointIndexMap = []
  · have hlt : i < values.length := by
      split at hi
      · have := UInt32.le_iff_toNat_le.mp (hf.identity hm)
        omega
      · exact hi
    refine ⟨i, if_pos hm, hlt, ?_⟩
    have hdof := (leader.dof.getD 0).toNat_lt
    rw [hm, List.getElem?_nil, Option.getD_none, UInt32.toNat_ofNat']
    exact Nat.mod_eq_of_lt (by omega)
  · obtain ⟨hlen, hjoints⟩ := hf.indexMap hm
    rw [if_pos (.inl hm), ← hlen] at hi
    refine ⟨p.jointIndexMap[i].toNat, ?_, ?_, ?_⟩
    · rw [sourceJoint, if_neg hm, List.getElem?_eq_getElem hi, Option.map_some]
    · rw [hv]
      exact UInt32.lt_iff_toNat_lt.mp (hjoints _ (List.getElem_mem hi))
    · rw [List.getElem?_eq_getElem hi, Option.getD_some]

/-- An accepted pairing maps every vector of its leader without an error. -/
theorem applyJointMapping_ok (hf : JointsFit p leader follower)
    (hv : values.length = (leader.dof.getD 0).toNat) :
    ∃ mapped, applyJointMapping values p.jointIndexMap p.jointScales = .ok mapped := by
  apply mapM_of_forall
  intro i hi
  obtain ⟨source, -, hlt, hs⟩ := source_in_range hf hv (List.mem_range.mp hi)
  simp only [hs, List.getElem?_eq_getElem hlt]
  exact ⟨_, rfl⟩

/-- Every value it returns is the scaled value of its leader joint. -/
theorem mapped_value (hf : JointsFit p leader follower)
    (hv : values.length = (leader.dof.getD 0).toNat)
    (ha : applyJointMapping values p.jointIndexMap p.jointScales = .ok mapped) {i : ℕ}
    (hi : i < mapped.length) (hfollower : i < (follower.dof.getD 0).toNat) :
    ∃ source scale value, sourceJoint p i = some source ∧ jointScale p i = some scale ∧
      values[source]? = some value ∧ mapped[i]? = some (scale * value) := by
  have hlen := length_applyJointMapping ha
  obtain ⟨source, hsource, hlt, hs⟩ := source_in_range hf hv (hlen ▸ hi)
  obtain ⟨b, hb, he⟩ := getElem?_of_mapM ha (List.getElem?_range (hlen ▸ hi))
  simp only [hs, List.getElem?_eq_getElem hlt] at he
  obtain rfl := Except.ok.inj he
  obtain ⟨scale, hscale, hget⟩ : ∃ scale, jointScale p i = some scale ∧
      p.jointScales[i]?.getD 1 = scale := by
    by_cases hne : p.jointScales = []
    · exact ⟨1, if_pos hne, by rw [hne]; rfl⟩
    · have hbound : i < p.jointScales.length := hf.scales hne ▸ hfollower
      exact ⟨p.jointScales[i], (if_neg hne).trans (List.getElem?_eq_getElem hbound),
        by rw [List.getElem?_eq_getElem hbound, Option.getD_some]⟩
  refine ⟨source, scale, values[source], hsource, hscale, List.getElem?_eq_getElem hlt, ?_⟩
  rw [hb, hget, mul_comm]

end Pairings

variable [LinearOrder K] {platform : Platform K} {config : ProjectConfig K}
  {p : ChannelPairingConfig K} {leaderDevice followerDevice : BinaryDeviceConfig K}
  {leader follower : DeviceChannelConfigV2 K} {leaderDof followerDof : UInt32} {values : List K}

omit [LinearOrder K] in
/-- An accepted direct-joint pairing yields a value for each joint of its follower, unless it
has neither map nor scales and its leader has more joints. -/
theorem joint_mapping_iff (hp : p.validate platform config = .ok ())
    (hm : p.mapping = .directJoint)
    (hl : (config.deviceNamed p.leaderDevice).bind (·.channelNamed p.leaderChannelType) =
      some leader) (hld : leader.dof = some leaderDof)
    (hf : (config.deviceNamed p.followerDevice).bind (·.channelNamed p.followerChannelType) =
      some follower) (hfd : follower.dof = some followerDof)
    (hv : values.length = leaderDof.toNat) :
    (∃ mapped, applyJointMapping values p.jointIndexMap p.jointScales = .ok mapped ∧
      MapsOnto p followerDof.toNat values mapped) ↔
      p.jointIndexMap ≠ [] ∨ p.jointScales ≠ [] ∨ leaderDof = followerDof := by
  obtain ⟨ld, l, fd, fo, ha⟩ := pairing_validate_iff.mp hp
  rw [ha.leaderHost, Option.bind_some, ha.leaderFound] at hl
  rw [ha.followerHost, Option.bind_some, ha.followerFound] at hf
  obtain rfl := Option.some.inj hl
  obtain rfl := Option.some.inj hf
  obtain ⟨-, -, hfit⟩ := ha.directJoint hm
  have hv' : values.length = (l.dof.getD 0).toNat := by rw [hld, Option.getD_some, hv]
  obtain ⟨mapped, hok⟩ := applyJointMapping_ok hfit hv'
  have hlen := length_applyJointMapping hok
  rw [mappedLength_of_fit hfit, hfd, Option.getD_some] at hlen
  constructor
  · rintro ⟨mapped', hok', hmaps⟩
    obtain rfl := Except.ok.inj (hok.symm.trans hok')
    by_cases hm' : p.jointIndexMap = []
    · by_cases hs : p.jointScales = []
      · rw [if_neg (by simp [hm', hs]), hmaps.length, hv] at hlen
        exact .inr (.inr (UInt32.toNat_inj.mp hlen.symm))
      · exact .inr (.inl hs)
    · exact .inl hm'
  · intro hcond
    have hfollower : mapped.length = followerDof.toNat := by
      split at hlen
      · exact hlen
      · next hne =>
        rw [not_or] at hne
        obtain h | h | rfl := hcond
        · exact absurd h hne.1
        · exact absurd h hne.2
        · exact hlen.trans hv
    refine ⟨mapped, hok, hfollower, ?_⟩
    intro i hi
    exact mapped_value hfit hv' hok (hfollower ▸ hi) (by rwa [hfd, Option.getD_some])

theorem sample_joint_mapping : ∃ mapped,
    applyJointMapping [(1 : ℚ), 2] [] [] = .ok mapped ∧
      MapsOnto (samplePairing "leader" "follower") 2 [1, 2] mapped := by
  have hp : (samplePairing "leader" "follower").validate rationals sampleTeleop = .ok () := by
    decide +kernel
  exact (joint_mapping_iff hp rfl rfl (rfl : _ = some (2 : UInt32)) rfl
    (rfl : _ = some (2 : UInt32)) rfl).mpr (.inr (.inr rfl))

def longArm : BinaryDeviceConfig ℚ :=
  { name := "leader", driver := "play", id := "can0", busRoot := "bus-l"
    channels := [{ channelType := "arm", kind := .robot, mode := some .freeDrive, dof := some 3
                   publishStates := [.jointPosition] }] }

def longTeleop : ProjectConfig ℚ :=
  sampleProject [longArm, sampleArm "follower" "bus-f"] [samplePairing "leader" "follower"]

theorem joint_mapping_surplus : longTeleop.validate rationals = .ok () ∧
    samplePairing "leader" "follower" ∈ longTeleop.pairings ∧
    (samplePairing "leader" "follower").validate rationals longTeleop = .ok () ∧
    dofOf longTeleop "leader" "arm" = 3 ∧ dofOf longTeleop "follower" "arm" = 2 ∧
    applyJointMapping [(1 : ℚ), 2, 3] [] [] = .ok [1, 2, 3] ∧
    ¬ ∃ mapped, applyJointMapping [(1 : ℚ), 2, 3] (samplePairing "leader" "follower").jointIndexMap
      (samplePairing "leader" "follower").jointScales = .ok mapped ∧
      MapsOnto (samplePairing "leader" "follower") 2 [1, 2, 3] mapped := by
  have hmap : applyJointMapping [(1 : ℚ), 2, 3] [] [] = .ok [1, 2, 3] := by decide +kernel
  refine ⟨by decide +kernel, List.mem_singleton_self _, by decide +kernel, rfl, rfl, hmap, ?_⟩
  rintro ⟨mapped, hok, hmaps⟩
  obtain rfl := Except.ok.inj (hmap.symm.trans hok)
  exact absurd hmaps.length (by decide)

end MappedJoints
