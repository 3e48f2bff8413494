import Rollio.Outcomes
import Rollio.RampSafety
import Rollio.ResolvedChannels

/-! The start of a teleop pairing, from the project to the first command on the bus. -/
namespace TeleopStartup
open RuntimeConfig TeleopConfig TeleopMapping JointSync CartesianSync TeleopRouter RampedRuns
open RateLimiting RampSafety Outcomes
open DeviceConfigs ProjectConfigs AcceptedProjects DerivedConfigs ResolvedChannels

variable {K : Type} [Field K] [LinearOrder K]

section Runs
variable {config : TeleopRuntimeConfigV2 K} {f : Elementary K} {r : Router K}
  {polls : List (Poll config)}

/-- Nothing is published before the follower has reported, and the first command is within
one step of its last report in every joint. -/
structure StartSafe (ticks : List (Tick config)) : Prop where
  feedback : ∀ t ∈ ticks, ∀ after command, t.turn = .published after command →
    lastReport t ≠ none
  first : ∀ earlier t later, ticks = earlier ++ t :: later →
    (∀ q ∈ earlier, ∀ after command, q.turn ≠ .published after command) →
    ∀ after command, t.turn = .published after command →
      ∃ target values, commandJointTarget command = some target ∧
        followerPositionSlice (lastReport t) = some values ∧ Within syncMaxStepRad target values

theorem before_ramp {earlier later : List (Tick config)} {t : Tick config} {s : JointSyncState K}
    (h : r.ticks f polls = earlier ++ t :: later) (hs : Sound config r)
    (hr : r.syncState = .joint s) (hu : s.synced = false)
    (hq : ∀ q ∈ earlier, ∀ after command, q.turn ≠ .published after command) :
    t.before.syncState = .joint s := by
  induction earlier generalizing r polls with
  | nil =>
    cases polls with
    | nil => cases h
    | cons poll polls =>
      obtain ⟨rfl, -⟩ := List.cons_eq_cons.mp h
      exact hr
  | cons first earlier ih =>
    cases polls with
    | nil => cases h
    | cons poll polls =>
      obtain ⟨rfl, hrest⟩ := List.cons_eq_cons.mp h
      cases hn : (r.iterate f poll).router? with
      | none =>
        rw [hn] at hrest
        exact absurd hrest (List.append_ne_nil_of_right_ne_nil _ (List.cons_ne_nil _ _)).symm
      | some r' =>
        rw [hn] at hrest
        refine ih hrest (hs.iterate hn) ?_ fun q hm => hq q (List.mem_cons_of_mem _ hm)
        obtain ⟨forwarded, goal, values, hd⟩ | ⟨-, hidle⟩ :=
          decides_or_idle (t := ⟨r, poll, r.iterate f poll⟩) hs hr hu rfl
        · obtain ⟨after, hturn, -⟩ := hd.turn rfl
          exact absurd hturn (hq _ List.mem_cons_self _ _)
        · exact hidle r' hn

/-- Without feedback the joint ramp holds. -/
theorem published_reported {t : Tick config} (hs : Sound config t.before)
    (ht : t.turn = t.before.iterate f t.poll) (hnew : SyncState.new config = .joint jointRamp)
    {after : Router K} {command : ForwardedCommand K} (hp : t.turn = .published after command) :
    lastReport t ≠ none := by
  intro hn
  obtain ⟨hb, -⟩ := observe_none hn
  have hr : t.before.syncState = .joint jointRamp := by rw [(hs.unfed hb).1, hnew]
  obtain ⟨forwarded, goal, values, hd⟩ | ⟨hidle, -⟩ := decides_or_idle hs hr rfl ht
  · have hv := hd.values
    rw [hn] at hv
    cases hv
  · exact hidle _ _ hp

theorem startSafe_of_covers [IsStrictOrderedRing K]
    (hnew : SyncState.new config = .joint jointRamp) (hc : FollowerCovers (runRouter f polls)) :
    StartSafe (runRouter f polls) where
  feedback := by
    intro t ht after command hp
    exact published_reported (run_sound f polls t ht) (tick_turn t ht) hnew hp
  first := by
    intro earlier t later h hq after command hp
    have ht : t ∈ runRouter f polls := by
      rw [h]
      exact List.mem_append_right earlier List.mem_cons_self
    have hr := before_ramp h (new_sound config) hnew rfl hq
    exact ((joint_ramp_safe_iff f polls).mpr hc t ht).1 _ _ _ hr rfl hp

def vectorLengths : Received K → List ℕ
  | .jointVector15 samples => samples.map (·.values.toList.length)
  | .parallelVector2 samples => samples.map (·.values.toList.length)
  | .pose7 _ => []

/-- The follower reports `n` values at a time, and the leader vectors of the listed lengths. -/
structure Speaks (n : ℕ) (lengths : Set ℕ) (poll : Poll config) : Prop where
  follower : ∀ received, poll.follower = some received → ∀ m ∈ vectorLengths received, m = n
  leader : ∀ m ∈ vectorLengths poll.leader, m ∈ lengths

omit [Field K] [LinearOrder K] in
theorem drained_length {received : Received K} {timestampUs : UInt64} {values : List K}
    (h : drainLatestState received = some (.vector timestampUs values)) :
    values.length ∈ vectorLengths received := by
  cases received with
  | jointVector15 samples | parallelVector2 samples =>
    obtain ⟨payload, hl, he⟩ := Option.map_eq_some_iff.mp h
    obtain ⟨-, rfl⟩ := LeaderState.vector.inj he
    exact List.mem_map.mpr ⟨payload, List.mem_of_getLast? hl, rfl⟩
  | pose7 samples =>
    obtain ⟨payload, -, he⟩ := Option.map_eq_some_iff.mp h
    cases he

omit [Field K] [LinearOrder K] in
theorem vectorLengths_le {received : Received K} {m : ℕ} (h : m ∈ vectorLengths received) :
    m ≤ maxDof := by
  cases received with
  | jointVector15 samples =>
    obtain ⟨payload, -, rfl⟩ := List.mem_map.mp h
    exact payload.values.len_le
  | parallelVector2 samples =>
    obtain ⟨payload, -, rfl⟩ := List.mem_map.mp h
    exact payload.values.len_le.trans (by decide)
  | pose7 samples => cases h

/-- Every report the router holds has `n` values. -/
def Reported (n : ℕ) (r : Router K) : Prop :=
  ∀ timestampUs values, r.followerState = some (.vector timestampUs values) → values.length = n

omit [Field K] [LinearOrder K] in
theorem Reported.observe {n : ℕ} {lengths : Set ℕ} {poll : Poll config} (h : Reported n r)
    (hp : Speaks n lengths poll) : Reported n (r.observe poll) := by
  intro timestampUs values hv
  unfold Router.observe at hv
  split at hv
  · next state hd =>
    obtain ⟨received, hr, hd⟩ := Option.bind_eq_some_iff.mp hd
    obtain rfl := Option.some.inj hv
    exact hp.follower received hr _ (drained_length hd)
  · exact h timestampUs values hv

theorem forward_followerState {forwarded : ForwardedCommand K} {timestampUs : UInt64}
    {now : Clocks.Instant} {r' : Router K} (hk : forwarded.kind = config.followerCommandKind)
    (h : (r.forward f config timestampUs forwarded now).router? = some r') :
    r'.followerState = r.followerState := by
  cases he : r.syncState.enabled with
  | false =>
    rw [forward_disabled hk he] at h
    cases h
    rfl
  | true =>
    cases ho : (r.syncState.apply f forwarded r.followerState now).outcome with
    | publish =>
      rw [forward_publish hk he rfl ho] at h
      cases h
      rfl
    | hold =>
      rw [forward_hold he rfl ho] at h
      cases h
      rfl

theorem iterate_followerState {poll : Poll config} {r' : Router K}
    (h : (r.iterate f poll).router? = some r') :
    r'.followerState = (r.observe poll).followerState := by
  obtain ⟨-, ht⟩ | ⟨-, ht⟩ | ⟨state, -, ⟨-, ht⟩ | ⟨e, -, ht⟩ | ⟨forwarded, -, -, -, hk, ht⟩⟩ :=
    iterate_cases f r poll
  · rw [ht] at h
    cases h
  · rw [ht] at h
    cases h
    rfl
  · rw [ht] at h
    cases h
    rfl
  · rw [ht] at h
    cases h
  · rw [ht] at h
    exact forward_followerState hk h

theorem run_reported {n : ℕ} {lengths : Set ℕ} (hr : Reported n r)
    (hp : ∀ poll ∈ polls, Speaks n lengths poll) :
    ∀ t ∈ r.ticks f polls, Reported n t.before ∧ Speaks n lengths t.poll := by
  induction polls generalizing r with
  | nil =>
    intro t ht
    cases ht
  | cons poll polls ih =>
    intro t ht
    have hpoll := hp poll List.mem_cons_self
    rcases List.mem_cons.mp ht with rfl | ht
    · exact ⟨hr, hpoll⟩
    · cases hn : (r.iterate f poll).router? with
      | none =>
        rw [hn] at ht
        cases ht
      | some r' =>
        rw [hn] at ht
        refine ih ?_ (fun q hm => hp q (List.mem_cons_of_mem poll hm)) t ht
        intro timestampUs values hv
        rw [iterate_followerState hn] at hv
        exact hr.observe hpoll timestampUs values hv

def mappedLength (jointIndexMap : List UInt32) (jointScales : List K) (m : ℕ) : ℕ :=
  if !jointIndexMap.isEmpty then jointIndexMap.length
  else if !jointScales.isEmpty then jointScales.length
  else m

omit [LinearOrder K] in
theorem length_applyJointMapping {values mapped jointScales : List K}
    {jointIndexMap : List UInt32}
    (h : applyJointMapping values jointIndexMap jointScales = .ok mapped) :
    mapped.length = mappedLength jointIndexMap jointScales values.length := by
  rw [length_of_mapM h, List.length_range]
  rfl

omit [LinearOrder K] in
/-- A direct-joint command has at most as many joints as its leader vector maps to. -/
theorem goal_length {t : Tick config} {s : JointSyncState K} {forwarded : ForwardedCommand K}
    {goal values : List K} (hd : Decides t s forwarded goal values)
    (hm : config.mapping = .directJoint) (hk : config.followerCommandKind = .jointPosition) :
    ∃ m ∈ vectorLengths t.poll.leader,
      goal.length ≤ mappedLength config.jointIndexMap config.jointScales m := by
  obtain ⟨state, hs, -, hmap⟩ := hd.sample
  cases state with
  | pose pose =>
    simp only [mapLeaderState, hm] at hmap
    cases hmap
  | vector timestampUs vector =>
    refine ⟨vector.length, drained_length hs, ?_⟩
    simp only [mapLeaderState, hm, hk] at hmap
    cases ha : applyJointMapping vector config.jointIndexMap config.jointScales with
    | error e =>
      rw [ha] at hmap
      cases hmap
    | ok mapped =>
      rw [ha] at hmap
      obtain rfl := Option.some.inj (Except.ok.inj hmap)
      obtain rfl := Option.some.inj hd.goal
      rw [← length_applyJointMapping ha]
      exact List.length_take_le' _ _

/-- A run in which no leader vector maps to more joints than the follower reports starts
safely. -/
theorem startSafe_of_lengths [IsStrictOrderedRing K] {n : ℕ} {lengths : Set ℕ}
    (hnew : SyncState.new config = .joint jointRamp) (hm : config.mapping = .directJoint)
    (hk : config.followerCommandKind = .jointPosition)
    (hp : ∀ poll ∈ polls, Speaks n lengths poll)
    (hl : ∀ m ∈ lengths, m ≤ maxDof →
      mappedLength config.jointIndexMap config.jointScales m ≤ n) :
    StartSafe (runRouter f polls) := by
  apply startSafe_of_covers hnew
  intro t ht s forwarded goal values hd
  have hnone : Reported n (Router.new config) := by
    intro _ _ h
    cases h
  obtain ⟨hr, hpoll⟩ := run_reported hnone hp t ht
  obtain ⟨m, hmem, hgoal⟩ := goal_length hd hm hk
  have hvalues : values.length = n := by
    cases hs : lastReport t with
    | none =>
      have hv := hd.values
      rw [hs] at hv
      cases hv
    | some state =>
      cases state with
      | vector timestampUs vector =>
        have hv := hd.values
        rw [hs] at hv
        obtain rfl := Option.some.inj hv
        exact hr.observe hpoll timestampUs vector hs
      | pose pose =>
        have hv := hd.values
        rw [hs] at hv
        cases hv
  rw [hvalues]
  exact hgoal.trans (hl m (hpoll.leader m hmem) (vectorLengths_le hmem))

variable (config) in
/-- A parallel pairing has no ramp: it forwards a sample before the follower has reported. -/
theorem parallel_unsafe (f : Elementary K) (hm : config.mapping = .parallel)
    (hl : config.leaderStateKind = .parallelPosition)
    (hk : config.followerCommandKind = .parallelPosition ∨
      config.followerCommandKind = .parallelMit)
    (hf : followerSubscriber config = some .parallelVector2) (n : ℕ) {lengths : Set ℕ}
    (hone : 1 ∈ lengths) :
    ∃ poll : Poll config, Speaks n lengths poll ∧ ¬ StartSafe (runRouter f [poll]) := by
  let poll : Poll config :=
    { control := []
      follower := some (.parallelVector2 [])
      leader := .parallelVector2 [.fromSlice 1 [0]]
      now := 0
      follower_subscriber := hf.symm
      leader_subscriber := by rw [hl]; rfl }
  refine ⟨poll, ⟨?_, ?_⟩, fun hs => ?_⟩
  · intro received hr m hm
    obtain rfl := Option.some.inj hr
    cases hm
  · intro m hm
    obtain rfl := List.mem_singleton.mp hm
    exact hone
  · have hnew : SyncState.new config = .disabled := by
      simp only [SyncState.new, hm, ite_self]
    obtain ⟨forwarded, hmap⟩ : ∃ forwarded,
        mapLeaderState config (.vector 1 [(0 : K)]) = .ok (some forwarded) := by
      rcases hk with hk | hk
      · exact ⟨_, by simp only [mapLeaderState, hm, hk]; rfl⟩
      · exact ⟨_, by simp only [mapLeaderState, hm, hk]; rfl⟩
    obtain ⟨command, he, hkind, -⟩ := mapLeaderState_ok hmap
    obtain rfl := Option.some.inj he
    have hleader : drainLatestState poll.leader = some (.vector 1 [(0 : K)]) := rfl
    have hturn : (Router.new config).iterate f poll = _ :=
      (iterate_mapped rfl hleader (by simp [Router.new]) hmap).trans
        (forward_disabled hkind (by rw [observe_syncState, Router.new, hnew]; rfl))
    exact hs.feedback _ List.mem_cons_self _ _ hturn rfl

omit [LinearOrder K] in
/-- Without a map and scales every joint of a leader vector is taken over. -/
theorem applyJointMapping_identity (values : List K) (hl : values.length ≤ maxDof) :
    ∃ mapped, applyJointMapping values [] [] = .ok mapped ∧ mapped.length = values.length := by
  obtain ⟨mapped, hm⟩ : ∃ mapped, applyJointMapping values [] [] = .ok mapped := by
    apply mapM_of_forall
    intro i hi
    have hi : i < values.length := List.mem_range.mp hi
    have hlen : values.length ≤ 15 := hl
    have hsource : (UInt32.ofNat i).toNat = i := by
      rw [UInt32.toNat_ofNat']
      exact Nat.mod_eq_of_lt (by omega)
    simp only [List.getElem?_nil, Option.getD_none, hsource, List.getElem?_eq_getElem hi]
    exact ⟨_, rfl⟩
  exact ⟨mapped, hm, (length_applyJointMapping hm).trans rfl⟩

/-- A leader with more joints than the follower jumps in those that nobody reported. -/
theorem surplus_unsafe [IsStrictOrderedRing K] (f : Elementary K)
    (hnew : SyncState.new config = .joint jointRamp) (hm : config.mapping = .directJoint)
    (hl : config.leaderStateKind = .jointPosition)
    (hk : config.followerCommandKind = .jointPosition) (hi : config.jointIndexMap = [])
    (hc : config.jointScales = []) (hf : followerSubscriber config = some .jointVector15)
    {n m : ℕ} (hnm : n < m) (hmax : m ≤ maxDof) {lengths : Set ℕ} (hmem : m ∈ lengths) :
    ∃ poll : Poll config, Speaks n lengths poll ∧ ¬ StartSafe (runRouter f [poll]) := by
  have hvector : ∀ k ≤ maxDof,
      (Values.ofSlice maxDof (List.replicate k (0 : K))).toList = List.replicate k 0 :=
    fun k hk => Values.ofSlice_toList (by rw [List.length_replicate]; exact hk)
  have hlength : ∀ k ≤ maxDof,
      (Values.ofSlice maxDof (List.replicate k (0 : K))).toList.length = k :=
    fun k hk => by rw [hvector k hk, List.length_replicate]
  let poll : Poll config :=
    { control := []
      follower := some (.jointVector15 [.fromSlice 1 (List.replicate n 0)])
      leader := .jointVector15 [.fromSlice 1 (List.replicate m 0)]
      now := 0
      follower_subscriber := hf.symm
      leader_subscriber := by rw [hl]; rfl }
  have hn : n ≤ maxDof := hnm.le.trans hmax
  refine ⟨poll, ⟨?_, ?_⟩, fun hs => ?_⟩
  · intro received hr k hk
    obtain rfl := Option.some.inj hr
    obtain rfl := List.mem_singleton.mp hk
    exact hlength n hn
  · intro k hk
    obtain rfl := List.mem_singleton.mp hk
    exact Set.mem_of_eq_of_mem (hlength m hmax) hmem
  · obtain ⟨mapped, hmapped, hlen⟩ :=
      applyJointMapping_identity (List.replicate m (0 : K))
        (by rw [List.length_replicate]; exact hmax)
    rw [List.length_replicate] at hlen
    have hleader : drainLatestState poll.leader = some (.vector 1 (List.replicate m 0)) :=
      congrArg (fun values => some (LeaderState.vector 1 values)) (hvector m hmax)
    have hfollower : drainLatestState (.jointVector15 [.fromSlice 1 (List.replicate n (0 : K))]) =
        some (.vector 1 (List.replicate n 0)) :=
      congrArg (fun values => some (LeaderState.vector 1 values)) (hvector n hn)
    let t : Tick config := ⟨Router.new config, poll, (Router.new config).iterate f poll⟩
    have hd : Decides t jointRamp (.jointPosition (.fromSlice 1 mapped)) (mapped.take maxDof)
        (List.replicate n 0) :=
      { ramp := hnew
        unsynced := rfl
        running := rfl
        sample := by
          refine ⟨_, hleader, by simp [t, Router.new], ?_⟩
          simp only [mapLeaderState, hm, hk, hi, hc, hmapped]
        goal := rfl
        values := by
          have hreport : lastReport t = some (.vector 1 (List.replicate n 0)) := by
            simp only [lastReport, Router.observe, t, poll, Option.bind_some, hfollower]
          rw [hreport]
          rfl }
    have hsafe : SafeTick t := by
      intro s after command hr _ hp
      exact hs.first [] t _ rfl (fun q hq => absurd hq List.not_mem_nil) after command hp
    have hle := (hd.safe_iff (new_sound config) rfl).mp hsafe
    rw [List.length_take, hlen, List.length_replicate] at hle
    omega

end Runs

section Projects
variable {platform : Platform K} {config : ProjectConfig K} {p : ChannelPairingConfig K}
  {t : TeleopRuntimeConfigV2 K}

def dofOf (config : ProjectConfig K) (device channelType : String) : ℕ :=
  (((config.deviceNamed device).bind (·.channelNamed channelType)).bind (·.dof)).elim 0 UInt32.toNat

/-- The follower of a pairing publishes the positions that its commands set. -/
def FollowerPublishes (config : ProjectConfig K) (p : ChannelPairingConfig K) : Prop :=
  ∃ d c, config.deviceNamed p.followerDevice = some d ∧
    d.channelNamed p.followerChannelType = some c ∧ feedbackKind p.followerCommand ∈ c.publishStates

/-- Every run of a router starts safely, whatever its leader says in vectors of the listed
lengths, and whatever positions its follower reports. -/
def StartsSafely (t : TeleopRuntimeConfigV2 K) (followerDof : ℕ) (lengths : Set ℕ) : Prop :=
  ∀ (f : Elementary K) (polls : List (Poll t)), (∀ poll ∈ polls, Speaks followerDof lengths poll) →
    StartSafe (runRouter f polls)

omit [Field K] [LinearOrder K] in
/-- The router of such a pairing subscribes to the feedback of its follower. -/
theorem teleop_feedback (platform : Platform K) (ld fd : BinaryDeviceConfig K) {c : DeviceChannelConfigV2 K}
    (hk : c.publishStates.contains (feedbackKind p.followerCommand) = true) :
    (teleopConfigFor platform p ld fd c).followerStateKind =
        some (feedbackKind p.followerCommand) ∧
      (teleopConfigFor platform p ld fd c).followerStateTopic.isSome ∧
      followerSubscriber (teleopConfigFor platform p ld fd c) =
        some (createStateSubscriber (feedbackKind p.followerCommand)) := by
  simp only [followerSubscriber, teleopConfigFor, hk, if_true, Option.isSome_some, and_self]

omit [LinearOrder K] in
theorem new_direct {c : TeleopRuntimeConfigV2 K} (ht : c.followerStateTopic.isSome)
    (hm : c.mapping = .directJoint) (hs : c.followerStateKind = some .jointPosition)
    (hk : c.followerCommandKind = .jointPosition) : SyncState.new c = .joint jointRamp := by
  obtain ⟨topic, ht⟩ := Option.isSome_iff_exists.mp ht
  simp only [SyncState.new, ht, Option.isNone_some, Bool.false_eq_true, if_false, hm, hs, hk]

omit [Field K] [LinearOrder K] in
/-- An accepted direct-joint pairing maps every leader vector to the joints of its follower,
or takes it as it is. -/
theorem mappedLength_of_fit {leader follower : DeviceChannelConfigV2 K}
    (hf : JointsFit p leader follower) (m : ℕ) :
    mappedLength p.jointIndexMap p.jointScales m =
      if p.jointIndexMap ≠ [] ∨ p.jointScales ≠ [] then (follower.dof.getD 0).toNat else m := by
  unfold mappedLength
  by_cases hi : p.jointIndexMap = []
  · by_cases hs : p.jointScales = []
    · simp [hi, hs]
    · simpa [hi, hs] using hf.scales hs
  · simpa [hi] using (hf.indexMap hi).1

theorem starts_safely_iff [IsStrictOrderedRing K] (hv : config.validate platform = .ok ())
    (hp : p ∈ config.pairings) (ht : teleopRuntimeConfig platform config p = some t)
    (hj : p.mapping ≠ .cartesian) (hpub : FollowerPublishes config p) {lengths : Set ℕ}
    (hl : dofOf config p.leaderDevice p.leaderChannelType ∈ lengths) :
    StartsSafely t (dofOf config p.followerDevice p.followerChannelType) lengths ↔
      p.mapping = .directJoint ∧ (p.jointIndexMap ≠ [] ∨ p.jointScales ≠ [] ∨
        ∀ m ∈ lengths, m ≤ maxDof → m ≤ dofOf config p.followerDevice p.followerChannelType) := by
  have h := validate_iff.mp hv
  obtain ⟨ld, l, fd, f, ha⟩ := pairing_validate_iff.mp (h.pairings p hp)
  rw [teleop_of_pairing ha] at ht
  obtain rfl := Option.some.inj ht
  have hkind : f.publishStates.contains (feedbackKind p.followerCommand) = true := by
    obtain ⟨d, c, hd, hc, hk⟩ := hpub
    obtain rfl := Option.some.inj (hd.symm.trans ha.followerHost)
    obtain rfl := Option.some.inj (hc.symm.trans ha.followerFound)
    simpa using hk
  have hfollower : dofOf config p.followerDevice p.followerChannelType = f.dof.elim 0 UInt32.toNat := by
    rw [dofOf, ha.followerHost, Option.bind_some, ha.followerFound, Option.bind_some]
  have hleader : dofOf config p.leaderDevice p.leaderChannelType = l.dof.elim 0 UInt32.toNat := by
    rw [dofOf, ha.leaderHost, Option.bind_some, ha.leaderFound, Option.bind_some]
  cases hm : p.mapping with
  | cartesian => exact absurd hm hj
  | parallel =>
    obtain ⟨hld, hfd, hls, hfc⟩ := ha.parallel hm
    have hfeedback : feedbackKind p.followerCommand = .parallelPosition := by
      rcases hfc with hfc | hfc <;> rw [hfc] <;> rfl
    have hone : 1 ∈ lengths := by
      rw [hleader, hld] at hl
      exact hl
    constructor
    · intro hs
      obtain ⟨poll, hspeaks, hunsafe⟩ := parallel_unsafe
        (teleopConfigFor platform p ld fd f) ⟨id, id, id⟩ hm hls hfc
        ((teleop_feedback platform ld fd hkind).2.2.trans (by rw [hfeedback]; rfl)) _ hone
      exact absurd (hs _ [poll] fun q hq => List.mem_singleton.mp hq ▸ hspeaks) hunsafe
    · rintro ⟨hd, -⟩
      cases hd
  | directJoint =>
    obtain ⟨hls, hfc, hfit⟩ := ha.directJoint hm
    obtain ⟨hkind', htopic, hsub⟩ := teleop_feedback platform ld fd hkind
    have hfeedback : feedbackKind p.followerCommand = .jointPosition := by rw [hfc]; rfl
    have hnew := new_direct htopic hm (hkind'.trans (congrArg some hfeedback)) hfc
    have hdof : (f.dof.getD 0).toNat = f.dof.elim 0 UInt32.toNat := by
      cases f.dof <;> rfl
    rw [hfollower]
    constructor
    · intro hs
      refine ⟨rfl, ?_⟩
      by_contra hne
      rw [not_or, not_or, not_not, not_not] at hne
      obtain ⟨hi, hc, hlong⟩ := hne
      push Not at hlong
      obtain ⟨m, hmem, hmax, hnm⟩ := hlong
      obtain ⟨poll, hspeaks, hunsafe⟩ := surplus_unsafe ⟨id, id, id⟩ hnew hm hls hfc hi hc
        (hsub.trans (by rw [hfeedback]; rfl)) hnm hmax hmem
      exact hunsafe (hs _ [poll] fun q hq => List.mem_singleton.mp hq ▸ hspeaks)
    · rintro ⟨-, hcond⟩ f' polls hpolls
      refine startSafe_of_lengths hnew hm hfc hpolls fun m hmem hmax => ?_
      rw [← hdof]
      refine (mappedLength_of_fit hfit m).trans_le ?_
      by_cases hcase : p.jointIndexMap ≠ [] ∨ p.jointScales ≠ []
      · rw [if_pos hcase]
      · rw [if_neg hcase]
        rw [not_or] at hcase
        rcases hcond with hi | hc | hall
        · exact absurd hi hcase.1
        · exact absurd hc hcase.2
        · exact hdof ▸ hall m hmem hmax

end Projects

theorem sample_starts_safely : ∃ t,
    teleopRuntimeConfig rationals sampleTeleop (samplePairing "leader" "follower") = some t ∧
      StartsSafely t (dofOf sampleTeleop "follower" "arm") {dofOf sampleTeleop "leader" "arm"} := by
  have hp : samplePairing "leader" "follower" ∈ sampleTeleop.pairings := List.mem_singleton_self _
  have hpub : FollowerPublishes sampleTeleop (samplePairing "leader" "follower") :=
    ⟨_, _, rfl, rfl, by decide⟩
  have hdof : dofOf sampleTeleop "leader" "arm" ≤ dofOf sampleTeleop "follower" "arm" := by
    decide +kernel
  exact ⟨_, rfl, (starts_safely_iff sampleTeleop_valid hp rfl (by decide) hpub
    (Set.mem_singleton _)).mpr ⟨rfl, .inr (.inr fun m hm _ =>
      (Set.mem_singleton_iff.mp hm).trans_le hdof)⟩⟩

def sampleGripperChannel : DeviceChannelConfigV2 ℚ :=
  { channelType := "gripper", kind := .robot, mode := some .freeDrive, dof := some 1
    publishStates := [.parallelPosition] }

def sampleGripper (name busRoot : String) : BinaryDeviceConfig ℚ :=
  { name, driver := "e2", id := "can0", busRoot, channels := [sampleGripperChannel] }

def gripperPairing : ChannelPairingConfig ℚ :=
  { leaderDevice := "l", leaderChannelType := "gripper", followerDevice := "f"
    followerChannelType := "gripper", mapping := .parallel, leaderState := .parallelPosition
    followerCommand := .parallelPosition, jointScales := [1] }

def sampleGrippers : ProjectConfig ℚ :=
  sampleProject [sampleGripper "l" "bus-l", sampleGripper "f" "bus-f"] [gripperPairing]

/-- An accepted parallel pairing starts without a ramp. -/
theorem parallel_start_unsafe : ¬ ∀ (config : ProjectConfig ℚ) (p : ChannelPairingConfig ℚ)
    (t : TeleopRuntimeConfigV2 ℚ), config.validate rationals = .ok () → p ∈ config.pairings →
    teleopRuntimeConfig rationals config p = some t → p.mapping ≠ .cartesian →
    FollowerPublishes config p →
    StartsSafely t (dofOf config p.followerDevice p.followerChannelType)
      {dofOf config p.leaderDevice p.leaderChannelType} := by
  intro hall
  have hv : sampleGrippers.validate rationals = .ok () := by decide +kernel
  have hs := hall sampleGrippers gripperPairing _ hv (List.mem_singleton_self _) rfl (by decide)
    ⟨_, _, rfl, rfl, by decide⟩
  obtain ⟨poll, hspeaks, hunsafe⟩ := parallel_unsafe (teleopConfigFor rationals gripperPairing
    (sampleGripper "l" "bus-l") (sampleGripper "f" "bus-f") sampleGripperChannel) noFunctions
    rfl rfl (.inl rfl) rfl 1 (Set.mem_singleton 1)
  exact hunsafe (hs noFunctions [poll] fun q hq => List.mem_singleton.mp hq ▸ hspeaks)

end TeleopStartup
