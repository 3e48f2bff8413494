import Rollio.ResolvedChannels

/-! Who writes the commands of a follower: every pairing derives a router and a recorded
action, and nothing but the pairings themselves keeps two of them off one follower. -/
namespace FollowerWriters
open RuntimeConfig TeleopConfig DeviceConfigs ProjectConfigs AcceptedProjects DerivedConfigs
open ResolvedChannels

variable {α : Type} {platform : Platform α} {config : ProjectConfig α}

def followerId (p : ChannelPairingConfig α) : String :=
  deviceChannelId p.followerDevice p.followerChannelType

theorem teleop_followers (h : Accepted platform config) :
    (teleopRuntimeConfigsV2 platform config).map (·.followerChannelId) =
      config.pairings.map followerId := by
  rw [teleopRuntimeConfigsV2, List.map_filterMap, ← List.filterMap_eq_map]
  apply List.filterMap_congr
  intro p hp
  obtain ⟨ld, l, fd, f, hp⟩ := pairing_validate_iff.mp (h.pairings p hp)
  rw [teleop_of_pairing hp]
  rfl

/-- Every pairing of an accepted project derives an action entry for its follower. -/
theorem action_keys (h : Accepted platform config) (embeddedConfigToml : String) :
    ((assemblerRuntimeConfigV2 platform config embeddedConfigToml).actions.map fun action =>
      (action.channelId, action.commandKind)) =
      config.pairings.map fun p => (followerId p, p.followerCommand) := by
  simp only [assemblerRuntimeConfigV2]
  rw [List.map_filterMap, ← List.filterMap_eq_map]
  apply List.filterMap_congr
  intro p hp
  obtain ⟨ld, l, fd, f, hp⟩ := pairing_validate_iff.mp (h.pairings p hp)
  rw [action_of_pairing hp]
  rfl

/-- No two routers drive one follower, and no two recorded actions share their key. -/
def OneWriter (platform : Platform α) (config : ProjectConfig α) : Prop :=
  ((teleopRuntimeConfigsV2 platform config).map (·.followerChannelId)).Nodup ∧
    ∀ embeddedConfigToml,
      ((assemblerRuntimeConfigV2 platform config embeddedConfigToml).actions.map fun action =>
        (action.channelId, action.commandKind)).Nodup

theorem one_writer_iff (h : config.validate platform = .ok ()) :
    OneWriter platform config ↔ (config.pairings.map followerId).Nodup := by
  rw [OneWriter, teleop_followers (validate_iff.mp h)]
  simp only [action_keys (validate_iff.mp h)]
  constructor
  · intro hn
    exact hn.1
  · intro hn
    refine ⟨hn, fun _ => List.Nodup.of_map Prod.fst ?_⟩
    rw [List.map_map]
    exact hn

theorem one_writer_sample : OneWriter rationals sampleTeleop :=
  (one_writer_iff sampleTeleop_valid).mpr (by decide +kernel)

/-- Two leaders paired with one follower are accepted. -/
theorem two_leaders_accepted : ¬ ∀ config : ProjectConfig ℚ,
    config.validate rationals = .ok () → OneWriter rationals config := by
  intro hall
  have h := hall (sampleProject [sampleArm "a" "bus-a", sampleArm "b" "bus-b",
    sampleArm "f" "bus-f"] [samplePairing "a" "f", samplePairing "b" "f"]) (by decide +kernel)
  have ht : ¬ (List.map (·.followerChannelId) (teleopRuntimeConfigsV2 rationals (sampleProject
      [sampleArm "a" "bus-a", sampleArm "b" "bus-b", sampleArm "f" "bus-f"]
      [samplePairing "a" "f", samplePairing "b" "f"]))).Nodup := by
    decide +kernel
  exact ht h.1

end FollowerWriters
