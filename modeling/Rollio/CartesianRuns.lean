import Rollio.TeleopRouter
import Mathlib.Algebra.Order.Field.Basic
import Mathlib.Tactic.FieldSimp
import Mathlib.Tactic.Ring
import Mathlib.Tactic.Linarith

/-! Runs of the cartesian ramp: what completes the sync, and how far apart the positions are
that a run publishes. -/
namespace CartesianRuns
open Clocks TeleopMapping JointSync CartesianSync TeleopRouter

variable {K : Type} [Field K] [LinearOrder K]

structure Call (K : Type) where
  target : Pose7 K
  follower : Option (LeaderState K)
  now : Instant
  deriving DecidableEq

def freshRamp (maxStepM maxStepRotRad completeThresholdM completeThresholdRotRad : K) :
    CartesianSyncState K :=
  { synced := false
    maxStepM, maxStepRotRad, completeThresholdM, completeThresholdRotRad
    rampPose := none
    closenessStartedAt := none }

omit [LinearOrder K] in
def step (f : Elementary K) (s : CartesianSyncState K) (c : Call K) : CartesianSyncState K :=
  (s.apply f (.endPose c.target) c.follower c.now).state

def after (f : Elementary K) (s : CartesianSyncState K) (calls : List (Call K)) :
    CartesianSyncState K :=
  calls.foldl (step f) s

def Close (f : Elementary K) (s : CartesianSyncState K) (target follower : Pose7 K) : Prop :=
  vec3Distance f (posePosition target) (posePosition follower) ≤ s.completeThresholdM ∧
    quatAngleBetween f (poseQuat target) (poseQuat follower) ≤ s.completeThresholdRotRad

instance (f : Elementary K) (s : CartesianSyncState K) (target follower : Pose7 K) :
    Decidable (Close f s target follower) :=
  inferInstanceAs (Decidable (_ ∧ _))

def publishedPosition (f : Elementary K) (s : CartesianSyncState K) (c : Call K) :
    Option (Vector K 3) :=
  let applied := s.apply f (.endPose c.target) c.follower c.now
  match applied.outcome with
  | .publish => (commandPose applied.command).map posePosition
  | .hold => none

omit [Field K] [LinearOrder K] in
@[simp] theorem posePosition_writePose (p : Pose7 K) (position : Vector K 3)
    (quat : Vector K 4) : posePosition (writePose p position quat) = position := by
  ext i hi
  match i, hi with
  | 0, _ | 1, _ | 2, _ => rfl

section Alignment
variable [IsStrictOrderedRing K]

omit [LinearOrder K] [IsStrictOrderedRing K] in
theorem quatDot_neg_left (a b : Vector K 4) : quatDot (a.map (- ·)) b = - quatDot a b := by
  simp only [quatDot, Vector.getElem_map]
  ring

omit [LinearOrder K] [IsStrictOrderedRing K] in
theorem quatDot_neg_right (a b : Vector K 4) : quatDot a (b.map (- ·)) = - quatDot a b := by
  simp only [quatDot, Vector.getElem_map]
  ring

theorem clamp_neg (x : K) : RateLimiting.clamp (-1) 1 (-x) = - RateLimiting.clamp (-1) 1 x := by
  unfold RateLimiting.clamp
  split_ifs <;> linarith

theorem angle_of_opposite (f : Elementary K) {a b c d : Vector K 4}
    (h : quatDot a b = quatDot c d ∨ quatDot a b = - quatDot c d) :
    quatAngleBetween f a b = quatAngleBetween f c d := by
  have hclamp : |RateLimiting.clamp (-1) 1 (quatDot a b)| =
      |RateLimiting.clamp (-1) 1 (quatDot c d)| := by
    rcases h with h | h
    · rw [h]
    · rw [h, clamp_neg, abs_neg]
  simp only [quatAngleBetween, hclamp]

/-- Turning quaternions to the hemisphere of the anchor leaves the angle between them. -/
theorem angle_aligned (f : Elementary K) (a b anchor : Vector K 4) :
    quatAngleBetween f (quatAlignShortest a anchor) (quatAlignShortest b anchor) =
      quatAngleBetween f a b := by
  apply angle_of_opposite
  unfold quatAlignShortest
  split <;> split
  · rw [quatDot_neg_left, quatDot_neg_right, neg_neg]
    exact .inl rfl
  · exact .inr (quatDot_neg_left a b)
  · exact .inr (quatDot_neg_right a b)
  · exact .inl rfl

end Alignment

section Steps
variable {f : Elementary K} {s : CartesianSyncState K} {c : Call K} {follower : Pose7 K}

theorem apply_fed (h : followerPose c.follower = some follower) :
    s.apply f (.endPose c.target) c.follower c.now =
      ⟨(s.rampPoses f c.target follower c.now).1,
        .endPose (s.rampPoses f c.target follower c.now).2, .publish⟩ := by
  unfold CartesianSyncState.apply
  simp only [commandPose, h]

theorem step_unfed (h : followerPose c.follower = none) : step f s c = s := by
  unfold step
  rw [apply_of_no_feedback rfl h]

theorem published_unfed (h : followerPose c.follower = none) : publishedPosition f s c = none := by
  unfold publishedPosition
  rw [apply_of_no_feedback rfl h]

variable [IsStrictOrderedRing K]

/-- A close call publishes its leader, moves the anchor there, and keeps the streak. -/
theorem step_close (h : followerPose c.follower = some follower)
    (hc : Close f s c.target follower) :
    ∃ ramp, posePosition ramp = posePosition c.target ∧
      publishedPosition f s c = some (posePosition c.target) ∧
      step f s c = { s with
        rampPose := some ramp
        closenessStartedAt := some (s.closenessStartedAt.getD c.now)
        synced := if syncHoldDuration ≤ c.now - s.closenessStartedAt.getD c.now then true
          else s.synced } := by
  have hgate : vec3Distance f (posePosition c.target) (posePosition follower) ≤
        s.completeThresholdM ∧
      quatAngleBetween f (quatAlignShortest (poseQuat c.target)
          (poseQuat (s.rampPose.getD follower)))
        (quatAlignShortest (poseQuat follower) (poseQuat (s.rampPose.getD follower))) ≤
        s.completeThresholdRotRad := ⟨hc.1, (angle_aligned f _ _ _).trans_le hc.2⟩
  unfold publishedPosition step
  rw [apply_fed h]
  unfold CartesianSyncState.rampPoses
  simp only [if_pos hgate, commandPose, Option.map_some, posePosition_writePose]
  exact ⟨_, posePosition_writePose _ _ _, True.intro, rfl⟩

/-- Any other call with feedback publishes its anchor after one step toward the leader, and
ends the streak. -/
theorem step_far (h : followerPose c.follower = some follower)
    (hc : ¬ Close f s c.target follower) :
    ∃ ramp, posePosition ramp = clampTranslation f (posePosition c.target)
        (posePosition (s.rampPose.getD follower)) s.maxStepM ∧
      publishedPosition f s c = some (posePosition ramp) ∧
      step f s c = { s with
        rampPose := some ramp
        closenessStartedAt := none } := by
  have hgate : ¬ (vec3Distance f (posePosition c.target) (posePosition follower) ≤
        s.completeThresholdM ∧
      quatAngleBetween f (quatAlignShortest (poseQuat c.target)
          (poseQuat (s.rampPose.getD follower)))
        (quatAlignShortest (poseQuat follower) (poseQuat (s.rampPose.getD follower))) ≤
        s.completeThresholdRotRad) :=
    fun hg => hc ⟨hg.1, (angle_aligned f _ _ _).symm.trans_le hg.2⟩
  unfold publishedPosition step
  rw [apply_fed h]
  unfold CartesianSyncState.rampPoses
  simp only [if_neg hgate, commandPose, Option.map_some, posePosition_writePose]
  exact ⟨_, posePosition_writePose _ _ _, by rw [posePosition_writePose], rfl⟩

end Steps

section Sync
variable {f : Elementary K} {s : CartesianSyncState K} {calls : List (Call K)}

def CloseCall (f : Elementary K) (s : CartesianSyncState K) (c : Call K) : Prop :=
  ∃ follower, followerPose c.follower = some follower ∧ Close f s c.target follower

instance (f : Elementary K) (s : CartesianSyncState K) (c : Call K) :
    Decidable (CloseCall f s c) :=
  match hf : followerPose c.follower with
  | none => isFalse fun ⟨_, h, _⟩ => nomatch hf.symm.trans h
  | some follower => decidable_of_iff (Close f s c.target follower)
      ⟨fun h => ⟨follower, hf, h⟩, fun ⟨_, h, hc⟩ => Option.some.inj (hf.symm.trans h) ▸ hc⟩

def NoneExceeds (f : Elementary K) (s : CartesianSyncState K) (calls : List (Call K)) : Prop :=
  ∀ c ∈ calls, ∀ follower, followerPose c.follower = some follower →
    Close f s c.target follower

/-- Closeness from a call at this instant on, up to the last call. -/
def StreakSince (f : Elementary K) (s : CartesianSyncState K) (calls : List (Call K))
    (startedAt : Instant) : Prop :=
  ∃ earlier first later, calls = earlier ++ first :: later ∧ first.now = startedAt ∧
    CloseCall f s first ∧ NoneExceeds f s later

/-- The last calls were close for the whole hold duration. -/
def SustainedCloseness (f : Elementary K) (s : CartesianSyncState K) (calls : List (Call K)) :
    Prop :=
  ∃ earlier first between last, calls = earlier ++ first :: between ++ [last] ∧
    CloseCall f s first ∧ NoneExceeds f s between ∧ CloseCall f s last ∧
    syncHoldDuration ≤ last.now - first.now

theorem StreakSince.extend {startedAt : Instant} (h : StreakSince f s calls startedAt)
    {more : List (Call K)} (hm : NoneExceeds f s more) :
    StreakSince f s (calls ++ more) startedAt := by
  obtain ⟨earlier, first, later, rfl, hn, hc, hl⟩ := h
  refine ⟨earlier, first, later ++ more, by simp, hn, hc, ?_⟩
  intro c hmem
  rcases List.mem_append.mp hmem with hmem | hmem
  · exact hl c hmem
  · exact hm c hmem

theorem after_append (more : List (Call K)) :
    after f s (calls ++ more) = after f (after f s calls) more :=
  List.foldl_append

theorem after_concat (c : Call K) : after f s (calls ++ [c]) = step f (after f s calls) c :=
  after_append [c]

structure Tracks (f : Elementary K) (s : CartesianSyncState K) (calls : List (Call K))
    (now : CartesianSyncState K) : Prop where
  thresholdM : now.completeThresholdM = s.completeThresholdM
  thresholdRotRad : now.completeThresholdRotRad = s.completeThresholdRotRad
  streak : ∀ startedAt, now.closenessStartedAt = some startedAt → StreakSince f s calls startedAt

theorem Tracks.close_iff {now : CartesianSyncState K} (h : Tracks f s calls now)
    {target follower : Pose7 K} : Close f now target follower ↔ Close f s target follower := by
  unfold Close
  rw [h.thresholdM, h.thresholdRotRad]

variable [IsStrictOrderedRing K]

theorem Tracks.step {now : CartesianSyncState K} (h : Tracks f s calls now) (c : Call K) :
    Tracks f s (calls ++ [c]) (step f now c) := by
  cases hf : followerPose c.follower with
  | none =>
    rw [step_unfed hf]
    refine ⟨h.thresholdM, h.thresholdRotRad, fun startedAt hs => (h.streak _ hs).extend ?_⟩
    intro c' hm follower hf'
    rw [List.mem_singleton.mp hm, hf] at hf'
    cases hf'
  | some follower =>
    by_cases hc : Close f now c.target follower
    · obtain ⟨ramp, -, -, hstep⟩ := step_close hf hc
      have hclose : Close f s c.target follower := h.close_iff.mp hc
      rw [hstep]
      refine ⟨h.thresholdM, h.thresholdRotRad, ?_⟩
      rintro startedAt ⟨⟩
      cases hs : now.closenessStartedAt with
      | none =>
        exact ⟨calls, c, [], rfl, rfl, ⟨follower, hf, hclose⟩,
          fun _ hm => absurd hm List.not_mem_nil⟩
      | some startedAt =>
        refine (h.streak _ hs).extend ?_
        intro c' hm follower' hf'
        rw [List.mem_singleton.mp hm, hf] at hf'
        rw [List.mem_singleton.mp hm, ← Option.some.inj hf']
        exact hclose
    · obtain ⟨ramp, -, -, hstep⟩ := step_far hf hc
      rw [hstep]
      exact ⟨h.thresholdM, h.thresholdRotRad, fun startedAt hs => by cases hs⟩

theorem after_tracks (hn : s.closenessStartedAt = none) (calls : List (Call K)) :
    Tracks f s calls (after f s calls) := by
  induction calls using List.reverseRecOn with
  | nil => exact ⟨rfl, rfl, fun startedAt hs => by cases hn.symm.trans hs⟩
  | append_singleton calls c ih =>
    rw [after_concat]
    exact ih.step c

theorem Tracks.completes {now : CartesianSyncState K} (h : Tracks f s calls now) {c : Call K}
    (hb : now.synced = false) (ha : (CartesianRuns.step f now c).synced = true) :
    SustainedCloseness f s (calls ++ [c]) := by
  cases hf : followerPose c.follower with
  | none =>
    rw [step_unfed hf, hb] at ha
    cases ha
  | some follower =>
    by_cases hc : Close f now c.target follower
    · obtain ⟨ramp, -, -, hstep⟩ := step_close hf hc
      have hclose : CloseCall f s c := ⟨follower, hf, h.close_iff.mp hc⟩
      have hheld : syncHoldDuration ≤ c.now - now.closenessStartedAt.getD c.now := by
        by_contra hne
        simp only [hstep, if_neg hne, hb, Bool.false_eq_true] at ha
      cases hs : now.closenessStartedAt with
      | none =>
        rw [hs, Option.getD_none, Nat.sub_self] at hheld
        exact absurd hheld (by decide)
      | some startedAt =>
        rw [hs, Option.getD_some] at hheld
        obtain ⟨earlier, first, later, rfl, rfl, hfirst, hlater⟩ := h.streak _ hs
        exact ⟨earlier, first, later, c, rfl, hfirst, hlater, hclose, hheld⟩
    · obtain ⟨ramp, -, -, hstep⟩ := step_far hf hc
      simp only [hstep, hb, Bool.false_eq_true] at ha

theorem step_synced (h : s.synced = true) (c : Call K) : (step f s c).synced = true := by
  cases hf : followerPose c.follower with
  | none => rw [step_unfed hf, h]
  | some follower =>
    by_cases hc : Close f s c.target follower
    · obtain ⟨ramp, -, -, hstep⟩ := step_close hf hc
      simp only [hstep, h, ite_self]
    · obtain ⟨ramp, -, -, hstep⟩ := step_far hf hc
      rw [hstep, h]

theorem after_synced (h : s.synced = true) (calls : List (Call K)) :
    (after f s calls).synced = true := by
  induction calls generalizing s with
  | nil => exact h
  | cons c calls ih => exact ih (step_synced h c)

structure SyncsAfterHold (f : Elementary K) (s : CartesianSyncState K) : Prop where
  sustained : ∀ calls (c : Call K), (after f s calls).synced = false →
    (after f s (calls ++ [c])).synced = true → SustainedCloseness f s (calls ++ [c])
  unfed : ∀ calls (c : Call K), followerPose c.follower = none →
    (after f s calls).apply f (.endPose c.target) c.follower c.now =
      ⟨after f s calls, .endPose c.target, .hold⟩
  stays : ∀ calls more, (after f s calls).synced = true →
    (after f s (calls ++ more)).synced = true

theorem fresh_syncs_after_hold (f : Elementary K)
    (maxStepM maxStepRotRad completeThresholdM completeThresholdRotRad : K) :
    SyncsAfterHold f
      (freshRamp maxStepM maxStepRotRad completeThresholdM completeThresholdRotRad) where
  sustained := by
    intro calls c hb ha
    rw [after_concat] at ha
    exact (after_tracks rfl calls).completes hb ha
  unfed := by
    intro calls c hf
    exact apply_of_no_feedback rfl hf
  stays := by
    intro calls more h
    rw [after_append]
    exact after_synced h more

theorem Tracks.kept {now : CartesianSyncState K} {between : List (Call K)}
    (h : Tracks f s calls now) {startedAt : Instant} (hs : now.closenessStartedAt = some startedAt)
    (hb : NoneExceeds f s between) : (after f now between).closenessStartedAt = some startedAt := by
  induction between generalizing now calls with
  | nil => exact hs
  | cons c between ih =>
    refine ih (h.step c) ?_ fun c' hm => hb c' (List.mem_cons_of_mem c hm)
    cases hf : followerPose c.follower with
    | none => rw [step_unfed hf, hs]
    | some follower =>
      have hc := h.close_iff.mpr (hb c List.mem_cons_self follower hf)
      obtain ⟨ramp, -, -, hstep⟩ := step_close hf hc
      simp only [hstep, hs, Option.getD_some]

end Sync

section Bounds

def distSq (a b : Vector K 3) : K :=
  (a.get 0 - b.get 0) * (a.get 0 - b.get 0) + (a.get 1 - b.get 1) * (a.get 1 - b.get 1) +
    (a.get 2 - b.get 2) * (a.get 2 - b.get 2)

/-- What a square root must satisfy: it is not below the root. -/
def CoversRoots (f : Elementary K) : Prop := ∀ x, 0 ≤ x → 0 ≤ f.sqrt x ∧ x ≤ f.sqrt x * f.sqrt x

def rampBound (s : CartesianSyncState K) : K := max s.maxStepM s.completeThresholdM

def ticks (f : Elementary K) (s : CartesianSyncState K) :
    List (Call K) → List (CartesianSyncState K × Call K)
  | [] => []
  | c :: calls => if s.synced then [] else (s, c) :: ticks f (step f s c) calls

def positions (f : Elementary K) (s : CartesianSyncState K) (calls : List (Call K)) :
    List (Vector K 3) :=
  (ticks f s calls).filterMap fun t => publishedPosition f t.1 t.2

def firstReport (calls : List (Call K)) : Option (Pose7 K) :=
  calls.findSome? fun c => followerPose c.follower

structure RampBounded (f : Elementary K) (s : CartesianSyncState K) (calls : List (Call K)) :
    Prop where
  consecutive : (positions f s calls).IsChain fun previous next =>
    distSq next previous ≤ rampBound s * rampBound s
  first : ∀ position, (positions f s calls).head? = some position →
    ∃ report, firstReport calls = some report ∧
      distSq position (posePosition report) ≤ rampBound s * rampBound s

def SnapsWithin (f : Elementary K) (s : CartesianSyncState K) (calls : List (Call K)) : Prop :=
  ∀ t ∈ ticks f s calls, ∀ ramp, t.1.rampPose = some ramp → CloseCall f t.1 t.2 →
    distSq (posePosition t.2.target) (posePosition ramp) ≤ rampBound s * rampBound s

instance (f : Elementary K) (s : CartesianSyncState K) (calls : List (Call K)) :
    Decidable (SnapsWithin f s calls) :=
  inferInstanceAs (Decidable (∀ t ∈ ticks f s calls, ∀ ramp ∈ t.1.rampPose,
    CloseCall f t.1 t.2 →
      distSq (posePosition t.2.target) (posePosition ramp) ≤ rampBound s * rampBound s))

variable {f : Elementary K} {s : CartesianSyncState K} {c : Call K} [IsStrictOrderedRing K]

omit [LinearOrder K] [IsStrictOrderedRing K] in
theorem vec3Distance_eq (a b : Vector K 3) : vec3Distance f a b = f.sqrt (distSq a b) := rfl

omit [LinearOrder K] [IsStrictOrderedRing K] in
theorem distSq_mk (x y z : K) (b : Vector K 3) : distSq #v[x, y, z] b =
    (x - b.get 0) * (x - b.get 0) + (y - b.get 1) * (y - b.get 1) +
      (z - b.get 2) * (z - b.get 2) := rfl

theorem distSq_nonneg (a b : Vector K 3) : 0 ≤ distSq a b := by
  exact add_nonneg (add_nonneg (mul_self_nonneg _) (mul_self_nonneg _)) (mul_self_nonneg _)

theorem distSq_le_of_close (hf : CoversRoots f) {a b : Vector K 3} {threshold : K}
    (h : vec3Distance f a b ≤ threshold) : distSq a b ≤ threshold * threshold := by
  obtain ⟨hnonneg, hroot⟩ := hf _ (distSq_nonneg a b)
  rw [vec3Distance_eq] at h
  exact hroot.trans (mul_self_le_mul_self hnonneg h)

theorem clampTranslation_distSq (hf : CoversRoots f) {maxStep : K} (hm : 0 ≤ maxStep)
    (target anchor : Vector K 3) :
    distSq (clampTranslation f target anchor maxStep) anchor ≤ maxStep * maxStep := by
  obtain ⟨hnonneg, hroot⟩ := hf _ (distSq_nonneg target anchor)
  have hdist : f.sqrt (distSq target anchor) = vec3Distance f target anchor := rfl
  by_cases h : maxStep < vec3Distance f target anchor
  · have hpos : 0 < vec3Distance f target anchor := hm.trans_lt h
    have hclamp : clampTranslation f target anchor maxStep =
        #v[anchor.get 0 + (target.get 0 - anchor.get 0) * (maxStep / vec3Distance f target anchor),
          anchor.get 1 + (target.get 1 - anchor.get 1) * (maxStep / vec3Distance f target anchor),
          anchor.get 2 + (target.get 2 - anchor.get 2) * (maxStep / vec3Distance f target anchor)] :=
      if_pos h
    have hscaled : distSq (clampTranslation f target anchor maxStep) anchor =
        distSq target anchor *
          (maxStep / vec3Distance f target anchor * (maxStep / vec3Distance f target anchor)) := by
      rw [hclamp, distSq_mk, distSq]
      ring
    rw [hdist] at hroot
    calc distSq (clampTranslation f target anchor maxStep) anchor
        = distSq target anchor * (maxStep / vec3Distance f target anchor *
            (maxStep / vec3Distance f target anchor)) := hscaled
      _ ≤ vec3Distance f target anchor * vec3Distance f target anchor *
            (maxStep / vec3Distance f target anchor *
              (maxStep / vec3Distance f target anchor)) := by
          apply mul_le_mul_of_nonneg_right hroot
          positivity
      _ = maxStep * maxStep := by
          field_simp
  · have hclamp : clampTranslation f target anchor maxStep = target := if_neg h
    rw [hclamp]
    exact distSq_le_of_close hf (not_lt.mp h)

theorem step_limits (s : CartesianSyncState K) (c : Call K) :
    (step f s c).maxStepM = s.maxStepM ∧ rampBound (step f s c) = rampBound s := by
  cases hf : followerPose c.follower with
  | none =>
    rw [step_unfed hf]
    exact ⟨rfl, rfl⟩
  | some follower =>
    by_cases hc : Close f s c.target follower
    · obtain ⟨ramp, -, -, hstep⟩ := step_close hf hc
      rw [hstep]
      exact ⟨rfl, rfl⟩
    · obtain ⟨ramp, -, -, hstep⟩ := step_far hf hc
      rw [hstep]
      exact ⟨rfl, rfl⟩

theorem far_within (hf : CoversRoots f) (hm : 0 ≤ s.maxStepM) (target anchor : Vector K 3) :
    distSq (clampTranslation f target anchor s.maxStepM) anchor ≤ rampBound s * rampBound s :=
  (clampTranslation_distSq hf hm target anchor).trans
    (mul_self_le_mul_self hm (le_max_left s.maxStepM s.completeThresholdM))

theorem close_within (hf : CoversRoots f) {target follower : Pose7 K}
    (h : Close f s target follower) :
    distSq (posePosition target) (posePosition follower) ≤ rampBound s * rampBound s := by
  have hnonneg := (hf _ (distSq_nonneg (posePosition target) (posePosition follower))).1
  exact (distSq_le_of_close hf h.1).trans
    (mul_self_le_mul_self (hnonneg.trans h.1) (le_max_right s.maxStepM s.completeThresholdM))

omit [IsStrictOrderedRing K] in
theorem positions_cons (hs : s.synced = false) (calls : List (Call K)) :
    positions f s (c :: calls) =
      (publishedPosition f s c).toList ++ positions f (step f s c) calls := by
  unfold positions
  rw [ticks, if_neg (by simp [hs])]
  cases hp : publishedPosition f s c with
  | none | some position =>
    simp only [List.filterMap_cons, hp]
    rfl

theorem snapsWithin_cons (hs : s.synced = false) (calls : List (Call K)) :
    SnapsWithin f s (c :: calls) ↔
      (∀ ramp, s.rampPose = some ramp → CloseCall f s c →
        distSq (posePosition c.target) (posePosition ramp) ≤ rampBound s * rampBound s) ∧
      SnapsWithin f (step f s c) calls := by
  unfold SnapsWithin
  rw [ticks, if_neg (by simp [hs]), List.forall_mem_cons, (step_limits s c).2]

/-- From an anchor on, a run stays within the bound exactly when no close call leaves it. -/
theorem chain_iff (hf : CoversRoots f) (hm : 0 ≤ s.maxStepM) {ramp : Pose7 K}
    (hr : s.rampPose = some ramp) (calls : List (Call K)) :
    ((posePosition ramp :: positions f s calls).IsChain fun previous next =>
      distSq next previous ≤ rampBound s * rampBound s) ↔ SnapsWithin f s calls := by
  induction calls generalizing s ramp with
  | nil => exact ⟨fun _ t ht => absurd ht List.not_mem_nil, fun _ => List.IsChain.singleton _⟩
  | cons c calls ih =>
    cases hs : s.synced with
    | true =>
      have hticks : ticks f s (c :: calls) = [] := if_pos hs
      unfold positions SnapsWithin
      rw [hticks]
      exact ⟨fun _ t ht => absurd ht List.not_mem_nil, fun _ => List.IsChain.singleton _⟩
    | false =>
      obtain ⟨hmax, hbound⟩ := step_limits (f := f) s c
      rw [positions_cons hs, snapsWithin_cons hs, ← hbound]
      cases hfed : followerPose c.follower with
      | none =>
        have hidle : ¬ CloseCall f s c := by
          rintro ⟨follower, h, -⟩
          cases hfed.symm.trans h
        rw [published_unfed hfed, Option.toList_none, List.nil_append,
          ih (hmax ▸ hm) (by rw [step_unfed hfed, hr])]
        exact (and_iff_right fun _ _ hc => absurd hc hidle).symm
      | some follower =>
        by_cases hc : Close f s c.target follower
        · obtain ⟨next, hpos, hpub, hstep⟩ := step_close hfed hc
          have hnext : (step f s c).rampPose = some next := by rw [hstep]
          rw [hpub, Option.toList_some, List.singleton_append, List.isChain_cons_cons, ← hpos,
            ih (hmax ▸ hm) hnext]
          refine and_congr_left fun _ => ⟨?_, fun h => h ramp hr ⟨follower, hfed, hc⟩⟩
          rintro h ramp' hr' -
          obtain rfl := Option.some.inj (hr.symm.trans hr')
          exact h
        · obtain ⟨next, hpos, hpub, hstep⟩ := step_far hfed hc
          have hnext : (step f s c).rampPose = some next := by rw [hstep]
          have hidle : ¬ CloseCall f s c := by
            rintro ⟨follower', h, hclose⟩
            obtain rfl := Option.some.inj (hfed.symm.trans h)
            exact hc hclose
          rw [hpub, Option.toList_some, List.singleton_append, List.isChain_cons_cons,
            ih (hmax ▸ hm) hnext, hpos, hr, Option.getD_some, hbound]
          exact and_congr_left fun _ => ⟨fun _ _ _ hclose => absurd hclose hidle,
            fun _ => far_within hf hm _ _⟩

/-- Before the first feedback nothing is published, and the first position is bounded by the
feedback that comes with it. -/
theorem rampBounded_iff (hf : CoversRoots f) (hm : 0 ≤ s.maxStepM) (hs : s.synced = false)
    (hr : s.rampPose = none) (calls : List (Call K)) :
    RampBounded f s calls ↔ SnapsWithin f s calls := by
  induction calls with
  | nil =>
    refine ⟨fun _ t ht => absurd ht List.not_mem_nil, fun _ => ⟨List.IsChain.nil, ?_⟩⟩
    rintro position ⟨⟩
  | cons c calls ih =>
    rw [snapsWithin_cons hs]
    have hfresh : ∀ ramp, s.rampPose = some ramp → CloseCall f s c →
        distSq (posePosition c.target) (posePosition ramp) ≤ rampBound s * rampBound s := by
      intro ramp hramp
      cases hr.symm.trans hramp
    rw [and_iff_right hfresh]
    cases hfed : followerPose c.follower with
    | none =>
      have hreport : firstReport (c :: calls) = firstReport calls := by
        simp only [firstReport, List.findSome?_cons, hfed]
      rw [step_unfed hfed, ← ih]
      have hpos : positions f s (c :: calls) = positions f s calls := by
        rw [positions_cons hs, published_unfed hfed, step_unfed hfed]
        rfl
      constructor
      · rintro ⟨hchain, hfirst⟩
        rw [hpos] at hchain hfirst
        exact ⟨hchain, hreport ▸ hfirst⟩
      · rintro ⟨hchain, hfirst⟩
        refine ⟨?_, ?_⟩
        · rw [hpos]
          exact hchain
        · rw [hpos, hreport]
          exact hfirst
    | some follower =>
      have hreport : firstReport (c :: calls) = some follower := by
        simp only [firstReport, List.findSome?_cons, hfed]
      obtain ⟨next, hnext, hpub, hwithin⟩ : ∃ next, (step f s c).rampPose = some next ∧
          publishedPosition f s c = some (posePosition next) ∧
          distSq (posePosition next) (posePosition follower) ≤ rampBound s * rampBound s := by
        by_cases hc : Close f s c.target follower
        · obtain ⟨next, hpos, hpub, hstep⟩ := step_close hfed hc
          exact ⟨next, by rw [hstep], hpos ▸ hpub, hpos ▸ close_within hf hc⟩
        · obtain ⟨next, hpos, hpub, hstep⟩ := step_far hfed hc
          rw [hr, Option.getD_none] at hpos
          exact ⟨next, by rw [hstep], hpub, hpos ▸ far_within hf hm _ _⟩
      have hpos : positions f s (c :: calls) =
          posePosition next :: positions f (step f s c) calls := by
        rw [positions_cons hs, hpub]
        rfl
      obtain ⟨hmax, hbound⟩ := step_limits (f := f) s c
      rw [← chain_iff hf (hmax ▸ hm) hnext calls, hbound]
      constructor
      · rintro ⟨hchain, -⟩
        rwa [hpos] at hchain
      · intro hchain
        refine ⟨hpos ▸ hchain, ?_⟩
        intro position hp
        rw [hpos, List.head?_cons] at hp
        obtain rfl := Option.some.inj hp
        exact ⟨follower, hreport, hwithin⟩

/-- A run of a fresh ramp stays within the bound exactly when it only snaps within it. -/
theorem fresh_bounded_iff (hf : CoversRoots f) {maxStepM : K} (hm : 0 ≤ maxStepM)
    (maxStepRotRad completeThresholdM completeThresholdRotRad : K) (calls : List (Call K)) :
    RampBounded f
        (freshRamp maxStepM maxStepRotRad completeThresholdM completeThresholdRotRad) calls ↔
      SnapsWithin f
        (freshRamp maxStepM maxStepRotRad completeThresholdM completeThresholdRotRad) calls :=
  rampBounded_iff hf hm rfl rfl calls

end Bounds

/-- The root of a rational square, and more than the root of any other number. -/
def rationalSqrt (x : ℚ) : ℚ :=
  let root : ℚ := mkRat x.num.toNat.sqrt x.den.sqrt
  if 0 ≤ root ∧ root * root = x then root else x + 1

def rationalFunctions : Elementary ℚ :=
  { sqrt := rationalSqrt, sin := fun x => x, acos := fun x => 1 - x }

theorem rationalFunctions_covers : CoversRoots rationalFunctions := by
  intro x hx
  change 0 ≤ rationalSqrt x ∧ x ≤ rationalSqrt x * rationalSqrt x
  unfold rationalSqrt
  dsimp only
  split
  · next h => exact ⟨h.1, h.2.ge⟩
  · exact ⟨by linarith, by nlinarith⟩

theorem rational_syncs_after_hold : SyncsAfterHold rationalFunctions
    (freshRamp syncMaxStepM syncMaxStepRotRad syncCompleteThresholdM syncCompleteThresholdRotRad) :=
  fresh_syncs_after_hold rationalFunctions syncMaxStepM syncMaxStepRotRad syncCompleteThresholdM
    syncCompleteThresholdRotRad

def poseAt (x : ℚ) : Pose7 ℚ := ⟨0, #v[x, 0, 0, 0, 0, 0, 1]⟩

def trackedRun : List (Call ℚ) :=
  [⟨poseAt (1 / 100), some (.pose (poseAt 0)), 0⟩,
    ⟨poseAt (2 / 100), some (.pose (poseAt (1 / 100))), 10000000⟩]

theorem tracked_bounded : RampBounded rationalFunctions
    (freshRamp syncMaxStepM syncMaxStepRotRad syncCompleteThresholdM syncCompleteThresholdRotRad)
    trackedRun :=
  (fresh_bounded_iff rationalFunctions_covers (by decide +kernel) _ _ _ _).mpr (by decide +kernel)

def overtakenRun : List (Call ℚ) :=
  [⟨poseAt 1, some (.pose (poseAt 0)), 0⟩, ⟨poseAt 1, some (.pose (poseAt 1)), 10000000⟩]

theorem overtaken_unbounded : ¬ RampBounded rationalFunctions cartesianRamp overtakenRun := by
  rintro ⟨hchain, -⟩
  have hpos : positions rationalFunctions cartesianRamp overtakenRun =
      [#v[1 / 2000, 0, 0], #v[1, 0, 0]] := by decide +kernel
  rw [hpos, List.isChain_cons_cons] at hchain
  exact absurd hchain.1 (by decide +kernel)

end CartesianRuns
