import Rollio.RampSafety

/-! What becomes of a leader sample the ramp answered with hold: the drain has consumed it, so
only a newer sample can move the follower. -/
namespace HeldSamples
open RuntimeConfig TeleopConfig TeleopMapping JointSync CartesianSync TeleopRouter RampedRuns
open RampSafety (syncConfig syncPoll noFunctions)

variable {K : Type} [Field K] [LinearOrder K] {config : TeleopRuntimeConfigV2 K}

def leaderSample (t : Tick config) : Option (LeaderState K) := drainLatestState t.poll.leader

/-- An iteration that went through with follower feedback at hand. -/
def HasFeedback (t : Tick config) : Prop := ∃ r, t.turn.router? = some r ∧ r.followerState ≠ none

/-- The answer to this iteration's leader sample was hold, no feedback having arrived. -/
def HeldUnfed (t : Tick config) : Prop := ∃ r, t.turn = .held r ∧ r.followerState = none

/-- The last leader sample was drained at `held` and answered with hold, and `feedback` is the
first iteration behind it with follower feedback. -/
def HeldUntil (ticks : List (Tick config)) (held feedback : Tick config) : Prop :=
  ∃ earlier quiet later, ticks = earlier ++ held :: (quiet ++ feedback :: later) ∧
    HeldUnfed held ∧ HasFeedback feedback ∧
    ∀ t ∈ quiet, leaderSample t = none ∧ ¬ HasFeedback t

def PublishesFor (f : Elementary K) (t : Tick config) (state : LeaderState K) : Prop :=
  ∃ forwarded after command, mapLeaderState config state = .ok (some forwarded) ∧
    t.turn = .published after command ∧
    command = (t.before.syncState.apply f forwarded after.followerState t.poll.now).command

/-- At the first iteration with feedback the router publishes a command for the last leader
sample: the one it held, or a newer one drained there. -/
def HeldSamplesForwarded (f : Elementary K) (ticks : List (Tick config)) : Prop :=
  ∀ held feedback, HeldUntil ticks held feedback →
    ∃ state, (leaderSample feedback).or (leaderSample held) = some state ∧
      PublishesFor f feedback state

def NewerWithFeedback (ticks : List (Tick config)) : Prop :=
  ∀ held feedback, HeldUntil ticks held feedback → (leaderSample feedback).isSome

section Ticks
variable {f : Elementary K} {r : Router K} {polls : List (Poll config)} {t : Tick config}

/-- Without feedback in between, an iteration starts as unfed as the run did. -/
theorem before_unfed {quiet later : List (Tick config)}
    (h : r.ticks f polls = quiet ++ t :: later) (hr : r.followerState = none)
    (hq : ∀ q ∈ quiet, ¬ HasFeedback q) : t.before.followerState = none := by
  induction quiet generalizing r polls with
  | nil =>
    cases polls with
    | nil => cases h
    | cons poll polls =>
      obtain ⟨rfl, -⟩ := List.cons_eq_cons.mp h
      exact hr
  | cons first quiet ih =>
    obtain hnil | ⟨r', polls', hr', hrest⟩ :=
      ticks_behind (show r.ticks f polls = [] ++ first :: (quiet ++ t :: later) from h)
    · cases quiet <;> cases hnil
    · refine ih hrest.symm ?_ fun q hq' => hq q (List.mem_cons_of_mem _ hq')
      by_contra hne
      exact hq first List.mem_cons_self ⟨r', hr', hne⟩

omit [Field K] [LinearOrder K] in
theorem HeldUntil.held {ticks : List (Tick config)} {held feedback : Tick config}
    (h : HeldUntil ticks held feedback) : held ∈ ticks ∧ HeldUnfed held := by
  obtain ⟨earlier, quiet, later, rfl, hheld, -⟩ := h
  exact ⟨by simp, hheld⟩

omit [Field K] [LinearOrder K] in
theorem HeldUntil.feedback {ticks : List (Tick config)} {held feedback : Tick config}
    (h : HeldUntil ticks held feedback) : feedback ∈ ticks ∧ HasFeedback feedback := by
  obtain ⟨earlier, quiet, later, rfl, -, hfeedback, -⟩ := h
  exact ⟨by simp, hfeedback⟩

/-- The first iteration with feedback behind a hold starts without any. -/
theorem HeldUntil.feedback_unfed {held feedback : Tick config}
    (h : HeldUntil (r.ticks f polls) held feedback) : feedback.before.followerState = none := by
  obtain ⟨earlier, quiet, later, hticks, ⟨r₀, hheld, hnone⟩, -, hquiet⟩ := h
  obtain hnil | ⟨r', polls', hr', hrest⟩ := ticks_behind hticks
  · cases quiet <;> cases hnil
  · rw [hheld] at hr'
    obtain rfl := Option.some.inj hr'
    exact before_unfed hrest.symm hnone fun q hq => (hquiet q hq).2

/-- Without a leader sample nothing goes out. -/
theorem not_published_of_no_sample (ht : t.turn = t.before.iterate f t.poll)
    (hn : leaderSample t = none) : ∀ after command, t.turn ≠ .published after command := by
  intro after command
  obtain ⟨-, he⟩ | ⟨-, he⟩ | ⟨state, hd, -⟩ := iterate_cases f t.before t.poll
  · simp [ht, he]
  · simp [ht, he]
  · cases hn.symm.trans hd

/-- A hold for want of feedback is the answer of an enabled ramp. -/
theorem HeldUnfed.enabled (h : HeldUnfed t) (hs : Sound config t.before)
    (ht : t.turn = t.before.iterate f t.poll) : (SyncState.new config).enabled = true := by
  obtain ⟨r₀, hheld, hnone⟩ := h
  obtain ⟨-, he⟩ | ⟨-, he⟩ | ⟨state, -, ⟨-, he⟩ | ⟨e, -, he⟩ |
    ⟨forwarded, -, -, -, hk, he⟩⟩ := iterate_cases f t.before t.poll
  all_goals rw [hheld, he] at ht
  · cases ht
  · cases ht
  · cases ht
  · cases ht
  · have hobs := hs.observe t.poll
    cases hen : (t.before.observe t.poll).syncState.enabled with
    | false =>
      rw [forward_disabled hk hen] at ht
      cases ht
    | true =>
      cases hf : (t.before.observe t.poll).followerState with
      | none =>
        rw [← (hobs.unfed hf).1]
        exact hen
      | some state =>
        obtain ⟨subscriber, hsub, hc⟩ := hobs.carried state hf
        have ho := hobs.ramped.publish hsub hc f forwarded t.poll.now
        rw [← hf] at ho
        rw [forward_publish hk hen rfl ho] at ht
        cases ht

/-- With feedback at hand, an unfed router publishes for a leader sample it drains. -/
theorem publishesFor_of_sample {state : LeaderState K} (hs : Sound config t.before)
    (ht : t.turn = t.before.iterate f t.poll) (hen : (SyncState.new config).enabled = true)
    (hnone : t.before.followerState = none) (hfb : HasFeedback t)
    (hsample : leaderSample t = some state) : PublishesFor f t state := by
  obtain ⟨hnew, hlast⟩ := hs.unfed hnone
  rw [hnew] at hlast
  obtain ⟨r, hr, hsome⟩ := hfb
  obtain ⟨-, he⟩ | ⟨hd, -⟩ | ⟨state', hd, ⟨hdup, -⟩ | ⟨e, -, he⟩ |
    ⟨forwarded, -, -, hm, hk, he⟩⟩ := iterate_cases f t.before t.poll
  · rw [ht, he] at hr
    cases hr
  · cases hd.symm.trans hsample
  · cases (hlast hen).symm.trans hdup
  · rw [ht, he] at hr
    cases hr
  · obtain rfl := Option.some.inj (hd.symm.trans hsample)
    have hobs := hs.observe t.poll
    have hen' : (t.before.observe t.poll).syncState.enabled = true := by
      rw [observe_syncState, hnew]
      exact hen
    cases hf : (t.before.observe t.poll).followerState with
    | none =>
      have ha : (t.before.observe t.poll).syncState.apply f forwarded
          (t.before.observe t.poll).followerState t.poll.now =
          ⟨(t.before.observe t.poll).syncState, forwarded, .hold⟩ := by
        rw [hf]
        exact hobs.ramped.hold hen' hk
      rw [ht, he, forward_hold hen' ha rfl] at hr
      cases hr
      exact absurd hf hsome
    | some report =>
      obtain ⟨subscriber, hsub, hc⟩ := hobs.carried report hf
      have ho := hobs.ramped.publish hsub hc f forwarded t.poll.now
      rw [← hf] at ho
      refine ⟨forwarded, _, _, hm, ht.trans (he.trans (forward_publish hk hen' rfl ho)), ?_⟩
      rw [observe_syncState]

end Ticks

/-- A held sample is answered for exactly where a newer one comes in with the feedback. -/
theorem held_samples_forwarded_iff (f : Elementary K) (polls : List (Poll config)) :
    HeldSamplesForwarded f (runRouter f polls) ↔ NewerWithFeedback (runRouter f polls) := by
  constructor
  · intro h held feedback hu
    obtain ⟨state, -, forwarded, after, command, -, hp, -⟩ := h held feedback hu
    by_contra hn
    have hn := Option.not_isSome_iff_eq_none.mp hn
    exact not_published_of_no_sample (tick_turn feedback hu.feedback.1) hn after command hp
  · intro h held feedback hu
    obtain ⟨state, hstate⟩ := Option.isSome_iff_exists.mp (h held feedback hu)
    refine ⟨state, by rw [hstate, Option.some_or], ?_⟩
    obtain ⟨hheld, hunfed⟩ := hu.held
    obtain ⟨hmem, hfeedback⟩ := hu.feedback
    have hen : (SyncState.new config).enabled = true :=
      hunfed.enabled (run_sound f polls held hheld) (tick_turn held hheld)
    exact publishesFor_of_sample (run_sound f polls feedback hmem) (tick_turn feedback hmem) hen
      hu.feedback_unfed hfeedback hstate

/-- The leader rests, the follower reports one iteration later: nothing is ever published. -/
theorem held_sample_lost :
    ¬ HeldSamplesForwarded noFunctions
      (runRouter noFunctions [syncPoll [] [[1]], syncPoll [[0]] []]) := by
  intro h
  obtain ⟨state, -, forwarded, after, command, -, hp, -⟩ := h _ _
    ⟨[], [], [], rfl, ⟨_, rfl, rfl⟩, ⟨_, rfl, Option.some_ne_none _⟩, by simp⟩
  exact not_published_of_no_sample (f := noFunctions) rfl rfl after command hp

end HeldSamples
