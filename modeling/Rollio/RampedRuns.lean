import Rollio.TeleopRouter

/-! What every state of a router's run knows about its ramp and its follower feedback. -/
namespace RampedRuns
open RuntimeConfig TeleopConfig TeleopMapping JointSync CartesianSync TeleopRouter

variable {K : Type}

/-- The states a subscriber can hand out. -/
def Carries : LeaderStateSubscriber → LeaderState K → Prop
  | .jointVector15, .vector _ values => values.length ≤ maxDof
  | .parallelVector2, .vector _ values => values.length ≤ maxParallel
  | .pose7, .pose _ => True
  | _, _ => False

theorem drainLatestState_carries {received : Received K} {state : LeaderState K}
    (h : drainLatestState received = some state) : Carries received.subscriber state := by
  cases received with
  | jointVector15 samples | parallelVector2 samples =>
    obtain ⟨payload, -, rfl⟩ := Option.map_eq_some_iff.mp h
    exact payload.values.len_le
  | pose7 samples =>
    obtain ⟨payload, -, rfl⟩ := Option.map_eq_some_iff.mp h
    exact True.intro

theorem Carries.vector {subscriber : LeaderStateSubscriber} {state : LeaderState K}
    (h : Carries subscriber state) (hs : subscriber ≠ .pose7) :
    ∃ timestampUs values, state = .vector timestampUs values := by
  cases state with
  | vector timestampUs values => exact ⟨timestampUs, values, rfl⟩
  | pose payload =>
    cases subscriber with
    | pose7 => exact absurd rfl hs
    | jointVector15 | parallelVector2 => cases h

theorem Carries.pose {state : LeaderState K} (h : Carries .pose7 state) :
    ∃ payload, state = .pose payload := by
  cases state with
  | vector timestampUs values => cases h
  | pose payload => exact ⟨payload, rfl⟩

variable [Field K] [LinearOrder K] {config : TeleopRuntimeConfigV2 K}

/-- What the configuration fixes about the ramp for a whole run. -/
inductive Ramped (config : TeleopRuntimeConfigV2 K) : SyncState K → Prop where
  | disabled : Ramped config .disabled
  | joint {s : JointSyncState K} (maxStep : s.maxStep = syncMaxStepRad)
    (threshold : s.completeThreshold = syncCompleteThresholdRad)
    (mapping : config.mapping = .directJoint)
    (follower : ∃ subscriber, followerSubscriber config = some subscriber ∧ subscriber ≠ .pose7) :
    Ramped config (.joint s)
  | cartesian {s : CartesianSyncState K} (command : config.followerCommandKind = .endPose)
    (follower : followerSubscriber config = some .pose7) : Ramped config (.cartesian s)

omit [LinearOrder K] in
theorem new_ramped (config : TeleopRuntimeConfigV2 K) : Ramped config (.new config) := by
  unfold SyncState.new
  cases ht : config.followerStateTopic with
  | none => exact .disabled
  | some topic =>
    have subscriber : ∀ kind, config.followerStateKind = some kind →
        followerSubscriber config = some (createStateSubscriber kind) := by
      intro kind hk
      simp only [followerSubscriber, hk, ht]
    simp only [Option.isNone_some, Bool.false_eq_true, ↓reduceIte]
    split
    · next hm hs hk => exact .cartesian hk (subscriber _ hs)
    all_goals first
      | exact .disabled
      | next hm hs hk => exact .joint rfl rfl hm ⟨_, subscriber _ hs, by decide⟩

theorem Ramped.apply {sync : SyncState K} (h : Ramped config sync) (f : Elementary K)
    (command : ForwardedCommand K) (follower : Option (LeaderState K)) (now : Clocks.Instant) :
    Ramped config (sync.apply f command follower now).state := by
  cases h with
  | disabled => exact .disabled
  | @joint s maxStep threshold mapping subscriber =>
    obtain ⟨hm, hc⟩ := apply_limits s command follower
    exact .joint (hm.trans maxStep) (hc.trans threshold) mapping subscriber
  | cartesian kind subscriber => exact .cartesian kind subscriber

/-- An enabled ramp answers hold exactly as long as no follower feedback has arrived. -/
theorem Ramped.hold {sync : SyncState K} (h : Ramped config sync) (he : sync.enabled = true)
    {f : Elementary K} {command : ForwardedCommand K}
    (hk : command.kind = config.followerCommandKind) {now : Clocks.Instant} :
    sync.apply f command none now = ⟨sync, command, .hold⟩ := by
  cases h with
  | disabled => cases he
  | @joint s maxStep threshold mapping subscriber =>
    have hhold : s.apply command none = ⟨s, command, .hold⟩ := JointSync.apply_of_no_feedback rfl
    unfold SyncState.apply
    simp only [hhold]
  | @cartesian s kind subscriber =>
    have hhold : s.apply f command none now = ⟨s, command, .hold⟩ :=
      CartesianSync.apply_of_no_feedback (hk.trans kind) rfl
    unfold SyncState.apply
    simp only [hhold]

theorem Ramped.publish {sync : SyncState K} (h : Ramped config sync)
    {subscriber : LeaderStateSubscriber} (hs : followerSubscriber config = some subscriber)
    {state : LeaderState K} (hc : Carries subscriber state)
    (f : Elementary K) (command : ForwardedCommand K) (now : Clocks.Instant) :
    (sync.apply f command (some state) now).outcome = .publish := by
  have hold : ∀ {outcome : SyncOutcome}, outcome ≠ .hold → outcome = .publish := by
    intro outcome
    cases outcome <;> simp
  cases h with
  | disabled => rfl
  | @joint s maxStep threshold mapping follower =>
    obtain ⟨subscriber', hs', hne⟩ := follower
    obtain rfl := Option.some.inj (hs.symm.trans hs')
    obtain ⟨timestampUs, values, rfl⟩ := hc.vector hne
    refine hold fun ho => ?_
    cases JointSync.apply_hold_iff.mp ho
  | @cartesian s kind follower =>
    obtain rfl := Option.some.inj (hs.symm.trans follower)
    obtain ⟨payload, rfl⟩ := hc.pose
    refine hold fun ho => ?_
    cases (CartesianSync.apply_hold_iff.mp ho).2

structure Sound (config : TeleopRuntimeConfigV2 K) (r : Router K) : Prop where
  ramped : Ramped config r.syncState
  carried : ∀ state, r.followerState = some state →
    ∃ subscriber, followerSubscriber config = some subscriber ∧ Carries subscriber state
  unfed : r.followerState = none →
    r.syncState = .new config ∧ (r.syncState.enabled → r.lastForwardedTimestampUs = none)

omit [LinearOrder K] in
theorem new_sound (config : TeleopRuntimeConfigV2 K) : Sound config (Router.new config) where
  ramped := new_ramped config
  carried := by
    intro state hs
    cases hs
  unfed := fun _ => ⟨rfl, fun _ => rfl⟩

section Step
variable {r : Router K} {poll : Poll config}

omit [Field K] [LinearOrder K] in
theorem observe_none (h : (r.observe poll).followerState = none) :
    r.followerState = none ∧ r.observe poll = r := by
  unfold Router.observe at h ⊢
  split at h
  · cases h
  · exact ⟨h, rfl⟩

omit [LinearOrder K] in
theorem Sound.observe (h : Sound config r) (poll : Poll config) :
    Sound config (r.observe poll) where
  ramped := by
    rw [observe_syncState]
    exact h.ramped
  carried := by
    intro state hs
    unfold Router.observe at hs
    split at hs
    · next latest hd =>
      obtain ⟨received, hr, hd⟩ := Option.bind_eq_some_iff.mp hd
      cases hs
      refine ⟨received.subscriber, ?_, drainLatestState_carries hd⟩
      rw [← poll.follower_subscriber, hr, Option.map_some]
    · exact h.carried state hs
  unfed := by
    intro hn
    obtain ⟨hf, he⟩ := observe_none hn
    rw [he]
    exact h.unfed hf

theorem Sound.forward (h : Sound config r) {f : Elementary K} {timestampUs : UInt64}
    {forwarded : ForwardedCommand K} {now : Clocks.Instant} {r' : Router K}
    (hk : forwarded.kind = config.followerCommandKind)
    (hr : (r.forward f config timestampUs forwarded now).router? = some r') : Sound config r' := by
  cases he : r.syncState.enabled with
  | false =>
    rw [forward_disabled hk he] at hr
    cases hr
    exact { h with
      unfed := fun hn => ⟨(h.unfed hn).1, fun hs => absurd (he.symm.trans hs) (by simp)⟩ }
  | true =>
    cases hf : r.followerState with
    | none =>
      have ha : r.syncState.apply f forwarded r.followerState now =
          ⟨r.syncState, forwarded, .hold⟩ := by
        rw [hf]
        exact h.ramped.hold he hk
      rw [forward_hold he ha rfl] at hr
      cases hr
      exact h
    | some state =>
      obtain ⟨subscriber, hs, hc⟩ := h.carried state hf
      have ho := h.ramped.publish hs hc f forwarded now
      rw [forward_publish hk he (congrArg (r.syncState.apply f forwarded · now) hf) ho] at hr
      cases hr
      exact
        { ramped := h.ramped.apply f forwarded (some state) now
          carried := h.carried
          unfed := fun hn => absurd (hf.symm.trans hn) (by simp) }

theorem Sound.iterate (h : Sound config r) {f : Elementary K} {r' : Router K}
    (hr : (r.iterate f poll).router? = some r') : Sound config r' := by
  obtain ⟨-, ht⟩ | ⟨-, ht⟩ | ⟨state, -, ⟨-, ht⟩ | ⟨e, -, ht⟩ | ⟨forwarded, -, -, -, hk, ht⟩⟩ :=
    iterate_cases f r poll
  · rw [ht] at hr
    cases hr
  · rw [ht] at hr
    cases hr
    exact h.observe poll
  · rw [ht] at hr
    cases hr
    exact h.observe poll
  · rw [ht] at hr
    cases hr
  · rw [ht] at hr
    exact (h.observe poll).forward hk hr

end Step

theorem run_sound (f : Elementary K) (polls : List (Poll config)) :
    ∀ t ∈ runRouter f polls, Sound config t.before :=
  ticks_invariant (fun _ _ _ h hr => h.iterate hr) (new_sound config)

end RampedRuns
