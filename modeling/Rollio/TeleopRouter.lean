import Rollio.BusMessages
import Rollio.CartesianSync

/-! The loop of the teleop router: one iteration drains its subscribers, maps the newest
leader state, and lets the ramp decide whether the command goes out. -/
namespace TeleopRouter
open BusMessages Clocks RuntimeConfig TeleopConfig TeleopMapping JointSync CartesianSync

variable {K : Type} [Field K] [LinearOrder K]

inductive SyncState (K : Type) where
  | disabled
  | joint (state : JointSyncState K)
  | cartesian (state : CartesianSyncState K)
  deriving DecidableEq

def jointRamp : JointSyncState K :=
  { synced := false
    maxStep := syncMaxStepRad
    completeThreshold := syncCompleteThresholdRad }

def cartesianRamp : CartesianSyncState K :=
  { synced := false
    maxStepM := syncMaxStepM
    maxStepRotRad := syncMaxStepRotRad
    completeThresholdM := syncCompleteThresholdM
    completeThresholdRotRad := syncCompleteThresholdRotRad
    rampPose := none
    closenessStartedAt := none }

def SyncState.new (config : TeleopRuntimeConfigV2 K) : SyncState K :=
  if config.followerStateTopic.isNone then .disabled
  else match config.mapping, config.followerStateKind, config.followerCommandKind with
  | .cartesian, some .endEffectorPose, .endPose => .cartesian cartesianRamp
  | .directJoint, some .jointPosition, .jointPosition
  | .directJoint, some .jointPosition, .jointMit
  | .directJoint, some .jointPosition, .parallelPosition
  | .directJoint, some .jointPosition, .parallelMit
  | .directJoint, some .parallelPosition, .jointPosition
  | .directJoint, some .parallelPosition, .jointMit
  | .directJoint, some .parallelPosition, .parallelPosition
  | .directJoint, some .parallelPosition, .parallelMit => .joint jointRamp
  | _, _, _ => .disabled

def SyncState.enabled : SyncState K → Bool
  | .disabled => false
  | .joint s => !s.synced
  | .cartesian s => !s.synced

def SyncState.apply (f : Elementary K) (sync : SyncState K) (command : ForwardedCommand K)
    (follower : Option (LeaderState K)) (now : Instant) : Applied (SyncState K) K :=
  match sync with
  | .disabled => ⟨.disabled, command, .publish⟩
  | .joint s =>
    let applied := s.apply command follower
    ⟨.joint applied.state, applied.command, applied.outcome⟩
  | .cartesian s =>
    let applied := s.apply f command follower now
    ⟨.cartesian applied.state, applied.command, applied.outcome⟩

inductive LeaderStateSubscriber where
  | jointVector15 | parallelVector2 | pose7
  deriving DecidableEq, Repr

def createStateSubscriber : RobotStateKind → LeaderStateSubscriber
  | .endEffectorPose => .pose7
  | .parallelPosition | .parallelVelocity | .parallelEffort => .parallelVector2
  | .jointPosition | .jointVelocity | .jointEffort
  | .endEffectorTwist | .endEffectorWrench => .jointVector15

/-- The follower subscriber, when the configuration names both its kind and its topic. -/
def followerSubscriber (config : TeleopRuntimeConfigV2 K) : Option LeaderStateSubscriber :=
  match config.followerStateKind, config.followerStateTopic with
  | some kind, some _ => some (createStateSubscriber kind)
  | _, _ => none

/-- The samples a subscriber hands out before it runs dry. -/
inductive Received (K : Type) where
  | jointVector15 (samples : List (JointVector15 K))
  | parallelVector2 (samples : List (ParallelVector2 K))
  | pose7 (samples : List (Pose7 K))
  deriving DecidableEq

def Received.subscriber : Received K → LeaderStateSubscriber
  | .jointVector15 _ => .jointVector15
  | .parallelVector2 _ => .parallelVector2
  | .pose7 _ => .pose7

def drainLatestState : Received K → Option (LeaderState K)
  | .jointVector15 samples => samples.getLast?.map fun payload =>
      .vector payload.timestampUs payload.values.toList
  | .parallelVector2 samples => samples.getLast?.map fun payload =>
      .vector payload.timestampUs payload.values.toList
  | .pose7 samples => samples.getLast?.map .pose

/-- The drain stops at the first shutdown. -/
def drainControlEvents : List ControlEvent → Bool
  | [] => false
  | .shutdown :: _ => true
  | _ :: events => drainControlEvents events

/-- What one iteration of the loop finds at its subscribers and on its clock. -/
structure Poll (config : TeleopRuntimeConfigV2 K) where
  control : List ControlEvent
  follower : Option (Received K)
  leader : Received K
  now : Instant
  follower_subscriber : follower.map Received.subscriber = followerSubscriber config
  leader_subscriber : leader.subscriber = createStateSubscriber config.leaderStateKind

structure Router (K : Type) where
  lastForwardedTimestampUs : Option UInt64
  syncState : SyncState K
  followerState : Option (LeaderState K)
  deriving DecidableEq

def Router.new (config : TeleopRuntimeConfigV2 K) : Router K :=
  { lastForwardedTimestampUs := none
    syncState := .new config
    followerState := none }

inductive Turn (K : Type) where
  | stopped
  | failed (message : String)
  | waited (router : Router K)
  | skipped (router : Router K)
  | held (router : Router K)
  | published (router : Router K) (command : ForwardedCommand K)
  deriving DecidableEq

def Turn.router? : Turn K → Option (Router K)
  | .stopped | .failed _ => none
  | .waited r | .skipped r | .held r | .published r _ => some r

variable {config : TeleopRuntimeConfigV2 K}

/-- The follower drain: an empty one keeps the last state. -/
def Router.observe (r : Router K) (poll : Poll config) : Router K :=
  match poll.follower.bind drainLatestState with
  | some state => { r with followerState := some state }
  | none => r

/-- The command a leader state has mapped to, through the ramp and out. -/
def Router.forward (f : Elementary K) (config : TeleopRuntimeConfigV2 K) (r : Router K)
    (timestampUs : UInt64) (forwarded : ForwardedCommand K) (now : Instant) : Turn K :=
  let applied :=
    if r.syncState.enabled then r.syncState.apply f forwarded r.followerState now
    else ⟨r.syncState, forwarded, .publish⟩
  match applied.outcome with
  | .publish =>
    match publishCommand (createCommandPublisher config.followerCommandKind)
      applied.command with
    | .error message => .failed message
    | .ok () => .published { r with
        syncState := applied.state
        lastForwardedTimestampUs := some timestampUs } applied.command
  -- the sample is already drained: nothing of it is left for the next iteration
  | .hold => .held { r with syncState := applied.state }

def Router.iterate (f : Elementary K) (r : Router K) (poll : Poll config) : Turn K :=
  if drainControlEvents poll.control then .stopped
  else
    let r := r.observe poll
    match drainLatestState poll.leader with
    | none => .waited r
    | some state =>
      let timestampUs := stateTimestampUs state
      if r.lastForwardedTimestampUs = some timestampUs then .skipped r
      else match mapLeaderState config state with
        | .error e => .failed e.message
        | .ok none => .waited r
        | .ok (some forwarded) => r.forward f config timestampUs forwarded poll.now

structure Tick (config : TeleopRuntimeConfigV2 K) where
  before : Router K
  poll : Poll config
  turn : Turn K

def Router.ticks (f : Elementary K) (r : Router K) : List (Poll config) → List (Tick config)
  | [] => []
  | poll :: polls =>
    let turn := r.iterate f poll
    ⟨r, poll, turn⟩ :: match turn.router? with
      | some r => r.ticks f polls
      | none => []

def runRouter (f : Elementary K) (polls : List (Poll config)) : List (Tick config) :=
  (Router.new config).ticks f polls

section Forward
variable {f : Elementary K} {r : Router K} {timestampUs : UInt64}
  {forwarded : ForwardedCommand K} {now : Instant}

theorem SyncState.apply_kind (sync : SyncState K) (follower : Option (LeaderState K)) :
    (sync.apply f forwarded follower now).command.kind = forwarded.kind := by
  cases sync with
  | disabled => rfl
  | joint s => exact JointSync.apply_kind s forwarded follower
  | cartesian s => exact CartesianSync.apply_kind

theorem forward_disabled (hk : forwarded.kind = config.followerCommandKind)
    (he : r.syncState.enabled = false) :
    r.forward f config timestampUs forwarded now =
      .published { r with lastForwardedTimestampUs := some timestampUs } forwarded := by
  unfold Router.forward
  simp only [he, Bool.false_eq_true, ↓reduceIte, ← hk, publishCommand_ok]

theorem forward_publish (hk : forwarded.kind = config.followerCommandKind)
    (he : r.syncState.enabled = true) {applied : Applied (SyncState K) K}
    (ha : r.syncState.apply f forwarded r.followerState now = applied)
    (ho : applied.outcome = .publish) :
    r.forward f config timestampUs forwarded now =
      .published { r with
        syncState := applied.state
        lastForwardedTimestampUs := some timestampUs } applied.command := by
  have hkind : applied.command.kind = config.followerCommandKind := by
    rw [← ha, SyncState.apply_kind, hk]
  unfold Router.forward
  simp only [he, ↓reduceIte, ha, ho, ← hkind, publishCommand_ok]

theorem forward_hold (he : r.syncState.enabled = true) {applied : Applied (SyncState K) K}
    (ha : r.syncState.apply f forwarded r.followerState now = applied)
    (ho : applied.outcome = .hold) :
    r.forward f config timestampUs forwarded now =
      .held { r with syncState := applied.state } := by
  unfold Router.forward
  simp only [he, ↓reduceIte, ha, ho]

end Forward

section Iterate
variable {f : Elementary K} {r : Router K} {poll : Poll config}

omit [Field K] [LinearOrder K] in
@[simp] theorem observe_syncState : (r.observe poll).syncState = r.syncState := by
  unfold Router.observe
  split <;> rfl

omit [Field K] [LinearOrder K] in
@[simp] theorem observe_lastForwardedTimestampUs :
    (r.observe poll).lastForwardedTimestampUs = r.lastForwardedTimestampUs := by
  unfold Router.observe
  split <;> rfl

theorem iterate_mapped {state : LeaderState K} {forwarded : ForwardedCommand K}
    (hc : drainControlEvents poll.control = false)
    (hs : drainLatestState poll.leader = some state)
    (hn : r.lastForwardedTimestampUs ≠ some (stateTimestampUs state))
    (hm : mapLeaderState config state = .ok (some forwarded)) :
    r.iterate f poll =
      (r.observe poll).forward f config (stateTimestampUs state) forwarded poll.now := by
  unfold Router.iterate
  simp only [hc, Bool.false_eq_true, ↓reduceIte, hs, observe_lastForwardedTimestampUs, hn, hm]

/-- Every way an iteration can end. -/
theorem iterate_cases (f : Elementary K) (r : Router K) (poll : Poll config) :
    (drainControlEvents poll.control = true ∧ r.iterate f poll = .stopped) ∨
    (drainLatestState poll.leader = none ∧ r.iterate f poll = .waited (r.observe poll)) ∨
    ∃ state, drainLatestState poll.leader = some state ∧
      ((r.lastForwardedTimestampUs = some (stateTimestampUs state) ∧
          r.iterate f poll = .skipped (r.observe poll)) ∨
        (∃ e, mapLeaderState config state = .error e ∧ r.iterate f poll = .failed e.message) ∨
        ∃ forwarded, drainControlEvents poll.control = false ∧
          r.lastForwardedTimestampUs ≠ some (stateTimestampUs state) ∧
          mapLeaderState config state = .ok (some forwarded) ∧
          forwarded.kind = config.followerCommandKind ∧
          r.iterate f poll =
            (r.observe poll).forward f config (stateTimestampUs state) forwarded poll.now) := by
  by_cases hc : drainControlEvents poll.control = true
  · left
    refine ⟨hc, ?_⟩
    unfold Router.iterate
    simp only [hc, ↓reduceIte]
  · right
    have hc := Bool.not_eq_true _ ▸ hc
    cases hs : drainLatestState poll.leader with
    | none =>
      left
      refine ⟨rfl, ?_⟩
      unfold Router.iterate
      simp only [hc, Bool.false_eq_true, ↓reduceIte, hs]
    | some state =>
      right
      refine ⟨state, rfl, ?_⟩
      by_cases hn : r.lastForwardedTimestampUs = some (stateTimestampUs state)
      · left
        refine ⟨hn, ?_⟩
        unfold Router.iterate
        simp only [hc, Bool.false_eq_true, ↓reduceIte, hs, observe_lastForwardedTimestampUs, hn]
      · right
        cases hm : mapLeaderState config state with
        | error e =>
          left
          refine ⟨e, rfl, ?_⟩
          unfold Router.iterate
          simp only [hc, Bool.false_eq_true, ↓reduceIte, hs, observe_lastForwardedTimestampUs,
            hn, hm]
        | ok mapped =>
          right
          obtain ⟨forwarded, rfl, hk, -⟩ := mapLeaderState_ok hm
          exact ⟨forwarded, hc, hn, rfl, hk, iterate_mapped hc hs hn hm⟩

end Iterate

section Ticks
variable {f : Elementary K} {r : Router K} {polls : List (Poll config)}

theorem ticks_invariant {P : Router K → Prop}
    (step : ∀ r (poll : Poll config) r', P r → (r.iterate f poll).router? = some r' → P r')
    (hr : P r) : ∀ t ∈ r.ticks f polls, P t.before := by
  induction polls generalizing r with
  | nil =>
    intro t ht
    cases ht
  | cons poll polls ih =>
    intro t ht
    rcases List.mem_cons.mp ht with rfl | ht
    · exact hr
    · cases hn : (r.iterate f poll).router? with
      | none =>
        rw [hn] at ht
        cases ht
      | some r' =>
        rw [hn] at ht
        exact ih (step r poll r' hr hn) t ht

theorem tick_turn : ∀ t ∈ r.ticks f polls, t.turn = t.before.iterate f t.poll := by
  induction polls generalizing r with
  | nil =>
    intro t ht
    cases ht
  | cons poll polls ih =>
    intro t ht
    rcases List.mem_cons.mp ht with rfl | ht
    · rfl
    · cases hn : (r.iterate f poll).router? with
      | none =>
        rw [hn] at ht
        cases ht
      | some r' =>
        rw [hn] at ht
        exact ih t ht

theorem ticks_behind {earlier later : List (Tick config)} {t : Tick config}
    (h : r.ticks f polls = earlier ++ t :: later) : later = [] ∨
      ∃ r' polls', t.turn.router? = some r' ∧ later = r'.ticks f polls' := by
  induction earlier generalizing r polls with
  | nil =>
    cases polls with
    | nil => cases h
    | cons poll polls =>
      obtain ⟨rfl, rfl⟩ := List.cons_eq_cons.mp h
      cases hn : (r.iterate f poll).router? with
      | none => exact Or.inl rfl
      | some r' => exact Or.inr ⟨r', polls, rfl, rfl⟩
  | cons first earlier ih =>
    cases polls with
    | nil => cases h
    | cons poll polls =>
      obtain ⟨rfl, hrest⟩ := List.cons_eq_cons.mp h
      cases hn : (r.iterate f poll).router? with
      | none =>
        rw [hn] at hrest
        exact absurd hrest (List.append_ne_nil_of_right_ne_nil _ (List.cons_ne_nil _ _)).symm
      | some r' =>
        rw [hn] at hrest
        exact ih hrest

end Ticks

end TeleopRouter
