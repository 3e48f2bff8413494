import Rollio.RampedRuns
import Mathlib.Data.Nat.Cast.Order.Ring
import Mathlib.Algebra.Order.Ring.Rat
import Mathlib.Algebra.Field.Rat

/-! The safety of the joint ramp over whole runs: it stands exactly as long as the follower
reports a value for every joint that is commanded. -/
namespace RampSafety
open RuntimeConfig TeleopConfig TeleopMapping JointSync CartesianSync TeleopRouter RampedRuns
open RateLimiting

variable {K : Type} [Field K] [LinearOrder K] {config : TeleopRuntimeConfigV2 K}

def lastReport (t : Tick config) : Option (LeaderState K) := (t.before.observe t.poll).followerState

/-- The unsynced joint ramp decides about a command at this iteration: the leader's joint
targets are `goal`, the follower last reported `values`. -/
structure Decides (t : Tick config) (s : JointSyncState K) (forwarded : ForwardedCommand K)
    (goal values : List K) : Prop where
  ramp : t.before.syncState = .joint s
  unsynced : s.synced = false
  running : drainControlEvents t.poll.control = false
  sample : ∃ state, drainLatestState t.poll.leader = some state ∧
    t.before.lastForwardedTimestampUs ≠ some (stateTimestampUs state) ∧
    mapLeaderState config state = .ok (some forwarded)
  goal : commandJointTarget forwarded = some goal
  values : followerPositionSlice (lastReport t) = some values

/-- A command that goes out while the ramp is not synced keeps every joint within one step of
the follower's last value for it. -/
def SafeTick (t : Tick config) : Prop :=
  ∀ s after command, t.before.syncState = .joint s → s.synced = false →
    t.turn = .published after command →
    ∃ target values, commandJointTarget command = some target ∧
      followerPositionSlice (lastReport t) = some values ∧ Within syncMaxStepRad target values

/-- The ramp becomes synced only with a command whose joints, as the leader wants them and as
they go out, are all within the threshold of a value the follower reported. -/
def CompletesClose (t : Tick config) : Prop :=
  ∀ s after s', t.before.syncState = .joint s → s.synced = false →
    t.turn.router? = some after → after.syncState = .joint s' → s'.synced = true →
    ∃ forwarded goal command target values, Decides t s forwarded goal values ∧
      t.turn = .published after command ∧ commandJointTarget command = some target ∧
      Within syncCompleteThresholdRad goal values ∧ Within syncCompleteThresholdRad target values

def RampSafe (ticks : List (Tick config)) : Prop := ∀ t ∈ ticks, SafeTick t ∧ CompletesClose t

/-- Wherever the ramp decides, the follower's last vector has a value for every joint. -/
def FollowerCovers (ticks : List (Tick config)) : Prop :=
  ∀ t ∈ ticks, ∀ s forwarded goal values, Decides t s forwarded goal values →
    goal.length ≤ values.length

section Tick
variable {f : Elementary K} {t : Tick config} {s : JointSyncState K}

theorem Decides.turn {forwarded : ForwardedCommand K} {goal values : List K}
    (h : Decides t s forwarded goal values) (ht : t.turn = t.before.iterate f t.poll) :
    ∃ after, t.turn =
        .published after (setJointTarget (limited s.maxStep goal values) forwarded) ∧
      after.syncState = .joint { s with
        synced := if maxGap goal values ≤ s.completeThreshold then true else s.synced } := by
  obtain ⟨state, hd, hn, hm⟩ := h.sample
  have hk : forwarded.kind = config.followerCommandKind := by
    obtain ⟨command, hc, hk, -⟩ := mapLeaderState_ok hm
    exact Option.some.inj hc ▸ hk
  have he : (t.before.observe t.poll).syncState.enabled = true := by
    rw [observe_syncState, h.ramp, SyncState.enabled, h.unsynced, Bool.not_false]
  have ha : (t.before.observe t.poll).syncState.apply f forwarded
      (t.before.observe t.poll).followerState t.poll.now =
      ⟨.joint { s with
          synced := if maxGap goal values ≤ s.completeThreshold then true else s.synced },
        setJointTarget (limited s.maxStep goal values) forwarded, .publish⟩ := by
    have hjoint : s.apply forwarded (t.before.observe t.poll).followerState = _ :=
      apply_joint h.goal h.values
    rw [observe_syncState, h.ramp]
    unfold SyncState.apply
    simp only [hjoint]
  exact ⟨_, ht.trans ((iterate_mapped h.running hd hn hm).trans (forward_publish hk he ha rfl)),
    rfl⟩

/-- Where the unsynced ramp does not decide, it stays as it is and nothing goes out. -/
theorem decides_or_idle (hs : Sound config t.before) (hr : t.before.syncState = .joint s)
    (hu : s.synced = false) (ht : t.turn = t.before.iterate f t.poll) :
    (∃ forwarded goal values, Decides t s forwarded goal values) ∨
      (∀ after command, t.turn ≠ .published after command) ∧
        ∀ after ∈ t.turn.router?, after.syncState = .joint s := by
  have hobs : (t.before.observe t.poll).syncState = .joint s := by rw [observe_syncState, hr]
  obtain ⟨-, he⟩ | ⟨-, he⟩ | ⟨state, hd, ⟨-, he⟩ | ⟨e, -, he⟩ |
    ⟨forwarded, hc, hn, hm, hk, he⟩⟩ := iterate_cases f t.before t.poll
  · right
    simp [ht, he, Turn.router?]
  · right
    simp [ht, he, Turn.router?, hr]
  · right
    simp [ht, he, Turn.router?, hr]
  · right
    simp [ht, he, Turn.router?]
  · cases hv : followerPositionSlice (lastReport t) with
    | some values =>
      left
      obtain ⟨goal, hg⟩ : ∃ goal, commandJointTarget forwarded = some goal := by
        apply Option.ne_none_iff_exists'.mp
        intro hnone
        obtain ⟨command, hcmd, -, hcart⟩ := mapLeaderState_ok hm
        obtain rfl := Option.some.inj hcmd
        have hmap := hs.ramped
        rw [hr] at hmap
        cases hmap with
        | joint _ _ mapping _ => cases mapping.symm.trans (hcart.mp hnone)
      exact ⟨forwarded, goal, values, hr, hu, hc, ⟨state, hd, hn, hm⟩, hg, hv⟩
    | none =>
      right
      have hen : (t.before.observe t.poll).syncState.enabled = true := by
        rw [hobs, SyncState.enabled, hu, Bool.not_false]
      have ha : (t.before.observe t.poll).syncState.apply f forwarded
          (t.before.observe t.poll).followerState t.poll.now =
          ⟨.joint s, forwarded, .hold⟩ := by
        have hhold : s.apply forwarded (t.before.observe t.poll).followerState = _ :=
          JointSync.apply_of_no_feedback hv
        rw [hobs]
        unfold SyncState.apply
        simp only [hhold]
      have he := ht.trans (he.trans (forward_hold hen ha rfl))
      simp [he, Turn.router?]

end Tick

section Ordered
variable [IsStrictOrderedRing K]

theorem syncMaxStepRad_nonneg : (0 : K) ≤ syncMaxStepRad :=
  div_nonneg zero_le_one (Nat.ofNat_nonneg 40)

theorem syncCompleteThresholdRad_nonneg : (0 : K) ≤ syncCompleteThresholdRad :=
  div_nonneg zero_le_one (Nat.ofNat_nonneg 4)

variable {f : Elementary K} {t : Tick config} {s : JointSyncState K}
  {forwarded : ForwardedCommand K} {goal values : List K}

/-- A decision is safe exactly when the follower has reported every joint. -/
theorem Decides.safe_iff (h : Decides t s forwarded goal values) (hs : Sound config t.before)
    (ht : t.turn = t.before.iterate f t.poll) :
    SafeTick t ↔ goal.length ≤ values.length := by
  obtain ⟨after, hturn, -⟩ := h.turn ht
  have hstep : s.maxStep = syncMaxStepRad := by
    have hr := hs.ramped
    rw [h.ramp] at hr
    cases hr with
    | joint maxStep _ _ _ => exact maxStep
  have hout : commandJointTarget (setJointTarget (limited s.maxStep goal values) forwarded) =
      some (limited s.maxStep goal values) :=
    commandJointTarget_set h.goal (length_limited _ _ _)
  constructor
  · intro hsafe
    obtain ⟨target, values', htarget, hvalues, hw⟩ := hsafe s after _ h.ramp h.unsynced hturn
    obtain rfl := Option.some.inj (hout.symm.trans htarget)
    obtain rfl := Option.some.inj (h.values.symm.trans hvalues)
    rw [← length_limited s.maxStep goal values]
    exact hw.length_le
  · intro hl s' after' command hr hu hp
    obtain rfl := SyncState.joint.inj (h.ramp.symm.trans hr)
    obtain ⟨-, rfl⟩ := Turn.published.inj (hturn.symm.trans hp)
    refine ⟨_, values, hout, h.values, ?_⟩
    rw [hstep]
    exact (within_limited_iff syncMaxStepRad_nonneg).mpr hl

theorem Decides.completesClose (h : Decides t s forwarded goal values)
    (hs : Sound config t.before) (ht : t.turn = t.before.iterate f t.poll)
    (hl : goal.length ≤ values.length) : CompletesClose t := by
  intro s₀ after s' hr hu ha hj hsync
  obtain rfl := SyncState.joint.inj (h.ramp.symm.trans hr)
  obtain ⟨after', hturn, hjoint⟩ := h.turn ht
  rw [hturn] at ha
  obtain rfl := Option.some.inj ha
  obtain rfl := SyncState.joint.inj (hjoint.symm.trans hj)
  have hlimits := hs.ramped
  rw [h.ramp] at hlimits
  cases hlimits with
  | joint maxStep threshold _ _ =>
    have hgap : maxGap goal values ≤ syncCompleteThresholdRad := by
      by_contra hlt
      simp only [threshold, hlt, ↓reduceIte, hu] at hsync
      cases hsync
    have hgoal : Within syncCompleteThresholdRad goal values :=
      (within_iff_maxGap syncCompleteThresholdRad_nonneg hl).mpr hgap
    refine ⟨forwarded, goal, _, _, values, h, hturn,
      commandJointTarget_set h.goal (length_limited _ _ _), hgoal, ?_⟩
    exact hgoal.limited (maxStep ▸ syncMaxStepRad_nonneg)

/-- Joint ramp safety of a run: every command of the unsynced ramp is within one step of the
follower's last report, and the ramp completes close to it, if and only if the follower's last
vector has a value for every joint at each of the ramp's decisions. -/
theorem joint_ramp_safe_iff (f : Elementary K) (polls : List (Poll config)) :
    RampSafe (runRouter f polls) ↔ FollowerCovers (runRouter f polls) := by
  constructor
  · intro h t ht s forwarded goal values hd
    exact (hd.safe_iff (run_sound f polls t ht) (tick_turn t ht)).mp (h t ht).1
  · intro h t ht
    have hs := run_sound f polls t ht
    have hturn : t.turn = t.before.iterate f t.poll := tick_turn t ht
    constructor
    · intro s after command hr hu hp
      obtain ⟨forwarded, goal, values, hd⟩ | ⟨hidle, -⟩ := decides_or_idle hs hr hu hturn
      · have hl := h t ht s forwarded goal values hd
        exact (hd.safe_iff hs hturn).mpr hl s after command hr hu hp
      · exact absurd hp (hidle after command)
    · intro s after s' hr hu ha hj hsync
      obtain ⟨forwarded, goal, values, hd⟩ | ⟨-, hidle⟩ := decides_or_idle hs hr hu hturn
      · have hl := h t ht s forwarded goal values hd
        exact hd.completesClose hs hturn hl s after s' hr hu ha hj hsync
      · obtain rfl := SyncState.joint.inj ((hidle after ha).symm.trans hj)
        rw [hu] at hsync
        cases hsync

end Ordered

def syncConfig : TeleopRuntimeConfigV2 ℚ :=
  { processId := "teleop.leader.arm.to.follower.arm"
    leaderChannelId := "leader/arm"
    followerChannelId := "follower/arm"
    leaderStateKind := .jointPosition
    leaderStateTopic := "leader/arm/states/joint_position"
    followerCommandKind := .jointPosition
    followerCommandTopic := "follower/arm/commands/joint_position"
    followerStateKind := some .jointPosition
    followerStateTopic := some "follower/arm/states/joint_position" }

def syncPoll (follower leader : List (List ℚ)) : Poll syncConfig :=
  { control := []
    follower := some (.jointVector15 (follower.map (.fromSlice 100)))
    leader := .jointVector15 (leader.map (.fromSlice 123))
    now := 0
    follower_subscriber := rfl
    leader_subscriber := rfl }

def noFunctions : Elementary ℚ := ⟨id, id, id⟩

/-- The follower reports one of its two joints: the other is commanded a jump of `9`, and the
ramp calls itself synced. -/
theorem joint_ramp_short_report :
    ¬ RampSafe (runRouter noFunctions [syncPoll [[0]] [[0, 9]]]) := by
  intro h
  have hd : Decides ⟨Router.new syncConfig, syncPoll [[0]] [[0, 9]],
      (Router.new syncConfig).iterate noFunctions (syncPoll [[0]] [[0, 9]])⟩ jointRamp
      (.jointPosition (.fromSlice 123 [0 * 1, 9 * 1])) [0 * 1, 9 * 1] [0] :=
    { ramp := rfl
      unsynced := rfl
      running := rfl
      sample := ⟨.vector 123 [0, 9], rfl, by simp [Router.new], rfl⟩
      goal := rfl
      values := rfl }
  have hl := (hd.safe_iff (new_sound syncConfig) rfl).mp (h _ List.mem_cons_self).1
  exact absurd hl (by decide)

theorem joint_ramp_full_report :
    RampSafe (runRouter noFunctions [syncPoll [[0, 0]] [[0, 9]]]) := by
  refine (joint_ramp_safe_iff noFunctions [syncPoll [[0, 0]] [[0, 9]]]).mpr ?_
  intro t ht s forwarded goal values hd
  obtain ⟨state, hstate, -, hmap⟩ := hd.sample
  have hgoal := hd.goal
  have hvalues := hd.values
  obtain rfl := List.mem_singleton.mp ht
  cases hstate
  cases hmap
  cases hgoal
  cases hvalues
  decide

end RampSafety
