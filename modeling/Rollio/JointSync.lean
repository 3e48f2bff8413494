import Rollio.RateLimiting
import Rollio.TeleopMapping
import Mathlib.Algebra.Order.Field.Basic

/-! The initial-syncing ramp of joint teleop: one zipped loop limits the step of every
target and measures how far the arms are apart. -/
namespace JointSync
open RateLimiting TeleopMapping

variable {K : Type} [Field K] [LinearOrder K]

def syncMaxStepRad : K := 1 / 40

def syncCompleteThresholdRad : K := 1 / 4

inductive SyncOutcome where
  | publish | hold
  deriving DecidableEq, Repr

structure Applied (σ K : Type) where
  state : σ
  command : ForwardedCommand K
  outcome : SyncOutcome

structure JointSyncState (K : Type) where
  synced : Bool
  maxStep : K
  completeThreshold : K
  deriving DecidableEq

def followerPositionSlice {K : Type} : Option (LeaderState K) → Option (List K)
  | some (.vector _ values) => some values
  | some (.pose _) | none => none

def rampJoints (maxStep : K) : K → List K → List K → K × List K
  | maxDiff, target :: targets, followerValue :: followerValues =>
    let diff := target - followerValue
    let (maxDiff, targets) := rampJoints maxStep (max maxDiff |diff|) targets followerValues
    (maxDiff, (followerValue + clamp (-maxStep) maxStep diff) :: targets)
  | maxDiff, targets, _ => (maxDiff, targets)

def JointSyncState.apply (state : JointSyncState K) (command : ForwardedCommand K)
    (follower : Option (LeaderState K)) : Applied (JointSyncState K) K :=
  match followerPositionSlice follower with
  | none => ⟨state, command, .hold⟩
  | some followerValues =>
    match commandJointTarget command with
    | none => ⟨state, command, .publish⟩
    | some target =>
      let (maxDiff, target) := rampJoints state.maxStep 0 target followerValues
      let synced := if maxDiff ≤ state.completeThreshold then true else state.synced
      ⟨{ state with synced }, setJointTarget target command, .publish⟩

theorem rampJoints_eq (maxStep m : K) (hm : 0 ≤ m) (targets followerValues : List K) :
    rampJoints maxStep m targets followerValues =
      (max m (maxGap targets followerValues), limited maxStep targets followerValues) := by
  induction targets, followerValues using limited.induct generalizing m with
  | case1 target targets followerValue followerValues ih =>
    rw [rampJoints, ih _ (le_max_of_le_left hm), maxGap, limited, toward, max_assoc]
  | case2 targets followerValues h =>
    rw [rampJoints, maxGap, limited, max_eq_left hm] <;> assumption

theorem apply_joint {state : JointSyncState K} {command : ForwardedCommand K}
    {follower : Option (LeaderState K)} {target followerValues : List K}
    (ht : commandJointTarget command = some target)
    (hf : followerPositionSlice follower = some followerValues) :
    state.apply command follower =
      ⟨{ state with
          synced := if maxGap target followerValues ≤ state.completeThreshold then true
            else state.synced },
        setJointTarget (limited state.maxStep target followerValues) command, .publish⟩ := by
  unfold JointSyncState.apply
  simp only [hf, ht, rampJoints_eq _ _ le_rfl, max_eq_right (maxGap_nonneg _ _)]

theorem apply_hold_iff {state : JointSyncState K} {command : ForwardedCommand K}
    {follower : Option (LeaderState K)} :
    (state.apply command follower).outcome = .hold ↔ followerPositionSlice follower = none := by
  unfold JointSyncState.apply
  cases followerPositionSlice follower with
  | none => simp
  | some followerValues =>
    cases commandJointTarget command <;> simp

/-- A held command is left as it was, and so is the ramp. -/
theorem apply_of_no_feedback {state : JointSyncState K} {command : ForwardedCommand K}
    {follower : Option (LeaderState K)} (h : followerPositionSlice follower = none) :
    state.apply command follower = ⟨state, command, .hold⟩ := by
  unfold JointSyncState.apply
  rw [h]

theorem apply_limits (state : JointSyncState K) (command : ForwardedCommand K)
    (follower : Option (LeaderState K)) :
    (state.apply command follower).state.maxStep = state.maxStep ∧
      (state.apply command follower).state.completeThreshold = state.completeThreshold := by
  unfold JointSyncState.apply
  split
  · exact ⟨rfl, rfl⟩
  · split <;> exact ⟨rfl, rfl⟩

theorem apply_kind (state : JointSyncState K) (command : ForwardedCommand K)
    (follower : Option (LeaderState K)) :
    (state.apply command follower).command.kind = command.kind := by
  unfold JointSyncState.apply
  split
  · rfl
  · split
    · rfl
    · exact setJointTarget_kind _ _

end JointSync
