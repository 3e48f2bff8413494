import Rollio.Clocks
import Rollio.JointSync

/-! The initial-syncing ramp of cartesian teleop. The square root and the trigonometric
functions of the numbers `K` are parameters. -/
namespace CartesianSync
open Clocks TeleopMapping JointSync
open RateLimiting (clamp)

structure Elementary (K : Type) where
  sqrt : K → K
  sin : K → K
  acos : K → K

variable {K : Type} [Field K] [LinearOrder K]

def syncMaxStepM : K := 5 / 10000

def syncMaxStepRotRad : K := 1 / 1000

def syncCompleteThresholdM : K := 25 / 1000

def syncCompleteThresholdRotRad : K := 1 / 10

def syncHoldDuration : Duration := 1000000000

def epsilon : K := 1 / 2 ^ 52

section Helpers

def posePosition (p : Pose7 K) : Vector K 3 := #v[p.values[0], p.values[1], p.values[2]]

def poseQuat (p : Pose7 K) : Vector K 4 :=
  #v[p.values[3], p.values[4], p.values[5], p.values[6]]

/-- The timestamp of the pose stays. -/
def writePose (p : Pose7 K) (position : Vector K 3) (quat : Vector K 4) : Pose7 K :=
  { p with values := #v[position[0], position[1], position[2],
      quat[0], quat[1], quat[2], quat[3]] }

def vec3Distance (f : Elementary K) (a b : Vector K 3) : K :=
  let dx := a[0] - b[0]
  let dy := a[1] - b[1]
  let dz := a[2] - b[2]
  f.sqrt (dx * dx + dy * dy + dz * dz)

def quatDot (a b : Vector K 4) : K := a[0] * b[0] + a[1] * b[1] + a[2] * b[2] + a[3] * b[3]

def quatAlignShortest (target reference : Vector K 4) : Vector K 4 :=
  if quatDot target reference < 0 then target.map (- ·) else target

def quatAngleBetween (f : Elementary K) (a b : Vector K 4) : K :=
  let cosHalf := clamp (-1) 1 (quatDot a b)
  2 * f.acos (min |cosHalf| 1)

def normaliseQuat (f : Elementary K) (q : Vector K 4) : Vector K 4 :=
  let normSq := q[0] * q[0] + q[1] * q[1] + q[2] * q[2] + q[3] * q[3]
  if 0 < normSq then q.map (· * (1 / f.sqrt normSq)) else q

/-- Nearly parallel quaternions fall back to the normalised linear interpolation. -/
def quatSlerp (f : Elementary K) (start target : Vector K 4) (t : K) : Vector K 4 :=
  let t := clamp 0 1 t
  let dot := clamp (-1) 1 (quatDot start target)
  if 9995 / 10000 < |dot| then
    normaliseQuat f (start.zipWith (fun a b => a + t * (b - a)) target)
  else
    let theta := f.acos dot
    let sinTheta := f.sin theta
    let sFrom := f.sin ((1 - t) * theta) / sinTheta
    let sTo := f.sin (t * theta) / sinTheta
    normaliseQuat f (start.zipWith (fun a b => sFrom * a + sTo * b) target)

def clampTranslation (f : Elementary K) (target anchor : Vector K 3) (maxStep : K) :
    Vector K 3 :=
  let dx := target[0] - anchor[0]
  let dy := target[1] - anchor[1]
  let dz := target[2] - anchor[2]
  let dist := f.sqrt (dx * dx + dy * dy + dz * dz)
  if maxStep < dist then
    let scale := maxStep / dist
    #v[anchor[0] + dx * scale, anchor[1] + dy * scale, anchor[2] + dz * scale]
  else target

def clampRotation (f : Elementary K) (targetQ anchorQ : Vector K 4) (maxStep : K) :
    Vector K 4 :=
  let angle := quatAngleBetween f anchorQ targetQ
  if maxStep < angle ∧ epsilon < angle then quatSlerp f anchorQ targetQ (maxStep / angle)
  else targetQ

end Helpers

structure CartesianSyncState (K : Type) where
  synced : Bool
  maxStepM : K
  maxStepRotRad : K
  completeThresholdM : K
  completeThresholdRotRad : K
  rampPose : Option (Pose7 K)
  closenessStartedAt : Option Instant
  deriving DecidableEq

def followerPose {K : Type} : Option (LeaderState K) → Option (Pose7 K)
  | some (.pose pose) => some pose
  | some (.vector _ _) | none => none

/-- One tick with a pose target and a follower pose. Close to the follower the leader is
published as it is and the streak of closeness counts; else the anchor moves one step. -/
def CartesianSyncState.rampPoses (f : Elementary K) (state : CartesianSyncState K)
    (target follower : Pose7 K) (now : Instant) : CartesianSyncState K × Pose7 K :=
  let ramp := state.rampPose.getD follower
  let anchorP := posePosition ramp
  let anchorQ := poseQuat ramp
  let leaderP := posePosition target
  let leaderQ := quatAlignShortest (poseQuat target) anchorQ
  let followerQ := quatAlignShortest (poseQuat follower) anchorQ
  let transGap := vec3Distance f leaderP (posePosition follower)
  let rotGap := quatAngleBetween f leaderQ followerQ
  if transGap ≤ state.completeThresholdM ∧ rotGap ≤ state.completeThresholdRotRad then
    let startedAt := state.closenessStartedAt.getD now
    ({ state with
        rampPose := some (writePose ramp leaderP leaderQ)
        closenessStartedAt := some startedAt
        synced := if syncHoldDuration ≤ now - startedAt then true else state.synced },
      writePose target leaderP leaderQ)
  else
    let nextP := clampTranslation f leaderP anchorP state.maxStepM
    let nextQ := clampRotation f leaderQ anchorQ state.maxStepRotRad
    ({ state with
        rampPose := some (writePose ramp nextP nextQ)
        closenessStartedAt := none },
      writePose target nextP nextQ)

/-- `apply_with_clock`; `apply` reads the clock and calls it. -/
def CartesianSyncState.apply (f : Elementary K) (state : CartesianSyncState K)
    (command : ForwardedCommand K) (follower : Option (LeaderState K)) (now : Instant) :
    Applied (CartesianSyncState K) K :=
  match commandPose command with
  | none => ⟨state, command, .publish⟩
  | some target =>
    match followerPose follower with
    | none => ⟨state, command, .hold⟩
    | some follower =>
      let (state, target) := state.rampPoses f target follower now
      ⟨state, .endPose target, .publish⟩

section Apply
variable {f : Elementary K} {state : CartesianSyncState K} {command : ForwardedCommand K}
  {follower : Option (LeaderState K)} {now : Instant}

theorem apply_hold_iff : (state.apply f command follower now).outcome = .hold ↔
    command.kind = .endPose ∧ followerPose follower = none := by
  unfold CartesianSyncState.apply
  cases command with
  | endPose payload => cases followerPose follower <;> simp [commandPose, ForwardedCommand.kind]
  | _ => simp [commandPose, ForwardedCommand.kind]

theorem apply_of_no_feedback (hk : command.kind = .endPose) (h : followerPose follower = none) :
    state.apply f command follower now = ⟨state, command, .hold⟩ := by
  cases command with
  | endPose payload =>
    unfold CartesianSyncState.apply
    simp only [commandPose, h]
  | _ => cases hk

theorem apply_kind : (state.apply f command follower now).command.kind = command.kind := by
  unfold CartesianSyncState.apply
  cases command with
  | endPose payload => cases followerPose follower <;> rfl
  | _ => rfl

end Apply

end CartesianSync
