import Rollio.Mailboxes
import Rollio.NeroGripper
import Rollio.NeroSlew

/-! The commands that the arm and the gripper of the Nero device execute: in which mode, since when,
and in which order. -/
namespace NeroCommands
open Outcomes NeroArm NeroGripper Mailboxes

section Arm

inductive ArmTopic where
  | endPose | jointMit | jointPosition
  deriving DecidableEq, Repr

def armTopic : ArmCommand → ArmTopic
  | .endPose _ => .endPose
  | .jointMit _ => .jointMit
  | .jointPosition _ => .jointPosition

def armPolls (arrivals : ArmTopic → List ArmCommand) : List (ArmTopic × List ArmCommand) :=
  [(.endPose, arrivals .endPose), (.jointMit, arrivals .jointMit),
    (.jointPosition, arrivals .jointPosition)]

def answering (t : Tick) (command : Option ArmCommand) : Tick :=
  { t with
    endPose := .ok (match command with
      | some (.endPose pose) => some pose
      | _ => none)
    jointMit := .ok (match command with
      | some (.jointMit mit) => some mit
      | _ => none)
    jointPosition := .ok (match command with
      | some (.jointPosition position) => some position
      | _ => none) }

def polls : DeviceChannelMode → Bool
  | .enabled | .commandFollowing => true
  | _ => false

def comesToPolls (model : NeroModel) (c : ArmController) (t : Tick) : Bool :=
  match c.pollMode true t, t.publishMode, t.feedback with
  | .ok polled, .ok (), .ok feedback =>
    match measured feedback with
    | some qMeas => (model.gravityTorquesClipped qMeas).isOk && polls polled.modeValue
    | none => false
  | _, _, _ => false

def entersFollowing (c : ArmController) (t : Tick) : Bool :=
  match c.pollMode true t with
  | .ok polled => c.modeValue ≠ .commandFollowing && polled.modeValue = .commandFollowing
  | .error _ => false

/-- The controller of the arm, its command topics, and the record of its stay: the controller that
entered it, unless the process began in it, and the ticks since, each with the command it has read. -/
structure ArmSystem where
  controller : ArmController
  boxes : Boxes ArmTopic ArmCommand := {}
  stay : Stay := {}
  entered : Option ArmController := none
  turns : List (Tick × Option (Post ArmCommand)) := []

def ArmSystem.read (model : NeroModel) (s : ArmSystem) (t : Tick)
    (arrivals : ArmTopic → List ArmCommand) : Boxes ArmTopic ArmCommand × Option (Post ArmCommand) :=
  if comesToPolls model s.controller t then
    s.boxes.readFirst armTopic (fun _ => true) (armPolls arrivals)
  else (s.boxes, none)

def ArmSystem.answered (model : NeroModel) (s : ArmSystem) (t : Tick)
    (arrivals : ArmTopic → List ArmCommand) : Tick :=
  answering t ((s.read model t arrivals).2.map (·.message))

/-- A stay begins with the tick that changes the mode to command following. -/
def ArmSystem.begun (s : ArmSystem) (t : Tick) : ArmSystem :=
  if entersFollowing s.controller t then
    { s with
      stay := { since := s.boxes.clock }
      entered := some s.controller
      turns := [] }
  else s

def ArmSystem.after (model : NeroModel) (s : ArmSystem) (t : Tick)
    (arrivals : ArmTopic → List ArmCommand) (next : ArmController) : ArmSystem :=
  { controller := next
    boxes := (s.read model t arrivals).1
    stay := (s.begun t).stay.execute (s.read model t arrivals).2
    entered := (s.begun t).entered
    turns := (s.begun t).turns ++ [(t, (s.read model t arrivals).2)] }

/-- The mode enabled is not asked for; a stay is entered with nothing unread; and when a command is
read, none published before it is left unread. -/
structure ArmTickOk (model : NeroModel) (s : ArmSystem) (t : Tick)
    (arrivals : ArmTopic → List ArmCommand) : Prop where
  named : NeroSlew.NamedModes t
  empty : entersFollowing s.controller t = true → ∀ topic, s.boxes.unread topic = none
  ordered : NothingOlder (s.read model t arrivals).1 (s.read model t arrivals).2

/-- A run of the arm with commands published at any time, all of whose ticks meet the condition. -/
inductive ArmRun (model : NeroModel) : ArmSystem → Prop where
  | start (mode : DeviceChannelMode) (h : mode ≠ .enabled) :
    ArmRun model { controller := { modeValue := mode } }
  | publish {s : ArmSystem} (h : ArmRun model s) (command : ArmCommand) :
    ArmRun model { s with boxes := s.boxes.publish armTopic command }
  | tick {s : ArmSystem} (h : ArmRun model s) (t : Tick) (arrivals : ArmTopic → List ArmCommand)
    (hok : ArmTickOk model s t arrivals) {next : ArmController}
    (hnext : (s.controller.step model true (s.answered model t arrivals)).next = .ok next) :
    ArmRun model (s.after model t arrivals next)

end Arm

section Gripper

inductive GripperTopic where
  | parallelMit | parallelPosition
  deriving DecidableEq, Repr

def gripperTopic : GripperCommand → GripperTopic
  | .parallelMit _ => .parallelMit
  | .parallelPosition _ => .parallelPosition

def gripperPolls (arrivals : GripperTopic → List GripperCommand) :
    List (GripperTopic × List GripperCommand) :=
  [(.parallelMit, arrivals .parallelMit), (.parallelPosition, arrivals .parallelPosition)]

def gripperAnswering (t : GripperTick) (command : Option GripperCommand) : GripperTick :=
  { t with
    parallelMit := .ok (match command with
      | some (.parallelMit mit) => some mit
      | _ => none)
    parallelPosition := .ok (match command with
      | some (.parallelPosition position) => some position
      | _ => none) }

structure GripperSystem where
  controller : GripperController
  boxes : Boxes GripperTopic GripperCommand := {}
  stay : Stay := {}

def pollingMode (c : GripperController) (t : GripperTick) : Option DeviceChannelMode :=
  match c.pollMode t, t.publishMode with
  | .ok polled, .ok () => some polled.modeValue
  | _, _ => none

/-- Following, the first command with a value is read; disabled, free and enabled, all are read
and none is wanted. -/
def GripperSystem.read (s : GripperSystem) (t : GripperTick)
    (arrivals : GripperTopic → List GripperCommand) :
    Boxes GripperTopic GripperCommand × Option (Post GripperCommand) :=
  match pollingMode s.controller t with
  | none | some .identifying => (s.boxes, none)
  | some .commandFollowing =>
    s.boxes.readFirst gripperTopic GripperCommand.hasValue (gripperPolls arrivals)
  | _ => s.boxes.readFirst gripperTopic (fun _ => false) (gripperPolls arrivals)

def GripperSystem.answered (s : GripperSystem) (t : GripperTick)
    (arrivals : GripperTopic → List GripperCommand) : GripperTick :=
  gripperAnswering t ((s.read t arrivals).2.map (·.message))

def gripperEnters (c : GripperController) (t : GripperTick) : Bool :=
  match c.pollMode t with
  | .ok polled => c.modeValue ≠ .commandFollowing && polled.modeValue = .commandFollowing
  | .error _ => false

def GripperSystem.begun (s : GripperSystem) (t : GripperTick) : Stay :=
  if gripperEnters s.controller t then { since := s.boxes.clock } else s.stay

def GripperSystem.after (s : GripperSystem) (t : GripperTick)
    (arrivals : GripperTopic → List GripperCommand) (next : GripperController) : GripperSystem :=
  { controller := next
    boxes := (s.read t arrivals).1
    stay := (s.begun t).execute (s.read t arrivals).2 }

/-- A stay is entered with nothing unread, and when a command is read, none published before it is
left unread. -/
structure GripperTickOk (s : GripperSystem) (t : GripperTick)
    (arrivals : GripperTopic → List GripperCommand) : Prop where
  empty : gripperEnters s.controller t = true → ∀ topic, s.boxes.unread topic = none
  ordered : NothingOlder (s.read t arrivals).1 (s.read t arrivals).2

inductive GripperRun : GripperSystem → Prop where
  | start (c : GripperController) : GripperRun { controller := c }
  | publish {s : GripperSystem} (h : GripperRun s) (command : GripperCommand) :
    GripperRun { s with boxes := s.boxes.publish gripperTopic command }
  | tick {s : GripperSystem} (h : GripperRun s) (t : GripperTick)
    (arrivals : GripperTopic → List GripperCommand) (hok : GripperTickOk s t arrivals)
    {next : GripperController} (hnext : (s.controller.step (s.answered t arrivals)).next = .ok next) :
    GripperRun (s.after t arrivals next)

end Gripper

section Independence
variable {model : NeroModel} {c c' next : ArmController} {t : Tick}

@[simp] theorem answering_command (t : Tick) (command : Option ArmCommand) :
    (answering t command).command = .ok command := by
  cases command with
  | none => rfl
  | some command => cases command <;> rfl

/-- The polls come behind the change of mode. -/
@[simp] theorem answering_pollMode (c : ArmController) (t : Tick) (command : Option ArmCommand) :
    c.pollMode true (answering t command) = c.pollMode true t := rfl

/-- Controllers that differ at most in what they hold of commands. -/
def SameBut (c c' : ArmController) : Prop :=
  c.modeValue = c'.modeValue ∧ c.disabledRamp = c'.disabledRamp

theorem SameBut.onModeChange (h : SameBut c c') {feedback : Except Part (Option (List ℚ))}
    {clock : ℚ} {nextMode : DeviceChannelMode}
    (hchange : c.onModeChange feedback clock nextMode = .ok next) :
    ∃ next', c'.onModeChange feedback clock nextMode = .ok next' ∧ SameBut next next' := by
  obtain ⟨mode, ramp, held, sent, ik⟩ := c
  obtain ⟨mode', ramp', held', sent', ik'⟩ := c'
  obtain ⟨rfl, rfl⟩ := h
  simp only [ArmController.onModeChange] at hchange ⊢
  by_cases hd : nextMode = .disabled
  · subst hd
    simp only [if_true, bind_eq_ok, ask_eq_ok, pure_eq_ok, reduceCtorEq, if_false] at hchange ⊢
    obtain ⟨q, hq, u, rfl, rfl⟩ := hchange
    refine ⟨_, ⟨q, hq, _, rfl, rfl⟩, ?_⟩
    exact ⟨rfl, rfl⟩
  · simp only [if_neg hd, bind_eq_ok, pure_eq_ok, exists_eq_left'] at hchange ⊢
    subst hchange
    refine ⟨rfl, ?_⟩
    by_cases hc : nextMode = .commandFollowing <;> by_cases hm : mode = .disabled <;>
      simp only [hc, hm, if_true, if_false]

theorem SameBut.pollMode (h : SameBut c c') (hpoll : c.pollMode true t = .ok next) :
    ∃ next', c'.pollMode true t = .ok next' ∧ SameBut next next' := by
  simp only [ArmController.pollMode, if_true, bind_eq_ok, ask_eq_ok] at hpoll ⊢
  obtain ⟨message, hmessage, hpoll⟩ := hpoll
  cases message with
  | none =>
    cases hpoll
    exact ⟨c', ⟨none, hmessage, rfl⟩, h⟩
  | some newMode =>
    by_cases hn : newMode ≠ c.modeValue
    · simp only [if_pos hn] at hpoll
      obtain ⟨next', hchange, hsame⟩ := h.onModeChange hpoll
      refine ⟨next', ⟨some newMode, hmessage, ?_⟩, hsame⟩
      rw [h.1] at hn
      simp only [if_pos hn]
      exact hchange
    · simp only [if_neg hn] at hpoll
      cases hpoll
      refine ⟨c', ⟨some newMode, hmessage, ?_⟩, h⟩
      rw [h.1] at hn
      simp only [if_neg hn]
      rfl

theorem SameBut.ensureRamp (h : SameBut c c') (q : Joints) (clock : ℚ) :
    SameBut (c.ensureRamp q clock) (c'.ensureRamp q clock) := by
  obtain ⟨hm, hr⟩ := h
  simp only [ArmController.ensureRamp, ← hm, ← hr]
  by_cases hc : c.modeValue = .disabled ∧ c.disabledRamp = none
  · rw [if_pos hc, if_pos hc]
    exact ⟨rfl, rfl⟩
  · rw [if_neg hc, if_neg hc]
    exact ⟨hm, hr⟩

/-- Where commands are not polled, what is desired does not depend on any. -/
theorem SameBut.desired (h : SameBut c c') {qMeas : Joints} {d : Desired}
    (hm : polls c.modeValue = false) (command : Option ArmCommand)
    (hd : c.desired model t qMeas = .ok (next, d)) :
    ∃ next', c'.desired model (answering t command) qMeas = .ok (next', d) := by
  obtain ⟨hmode, hramp⟩ := h
  simp only [ArmController.desired, ← hmode, ← hramp] at hd ⊢
  cases hv : c.modeValue with
  | disabled =>
    rw [hv] at hd
    cases hr : c.disabledRamp with
    | none =>
      rw [hr] at hd
      cases hd
    | some ramp =>
      rw [hr] at hd
      simp only [bind_eq_ok, Prod.exists] at hd ⊢
      obtain ⟨p, v, hp, hd⟩ := hd
      cases hd
      exact ⟨c', p, v, hp, rfl⟩
  | freeDrive =>
    rw [hv] at hd
    cases hd
    exact ⟨c', rfl⟩
  | identifying =>
    rw [hv] at hd
    cases hd
    exact ⟨c', rfl⟩
  | enabled =>
    rw [hv] at hm
    cases hm
  | commandFollowing =>
    rw [hv] at hm
    cases hm

/-- A target of a mode that does not poll is the same whatever was commanded, before or now. -/
theorem SameBut.prepared (h : SameBut c c') (command : Option ArmCommand) {target : MitTarget}
    (hp : c.prepare model true t = .ok (next, some target)) (hm : polls next.modeValue = false) :
    ∃ next', c'.prepare model true (answering t command) = .ok (next', some target) := by
  simp only [ArmController.prepare, bind_eq_ok, ask_eq_ok, exists_unit] at hp
  obtain ⟨polled, hpolled, hmode, feedback, hfeedback, hp⟩ := hp
  obtain ⟨polled', hpolled', hsame⟩ := h.pollMode hpolled
  cases hq : measured feedback with
  | none =>
    rw [hq] at hp
    cases hp
  | some qMeas =>
    rw [hq] at hp
    simp only [bind_eq_ok, ask_eq_ok] at hp
    obtain ⟨ff, hff, ⟨u, d⟩, hd, hp⟩ := hp
    cases hp
    have hpolls : polls (polled.ensureRamp qMeas t.rampClock).modeValue = false := by
      rw [← NeroSlew.desired_modeValue hd]
      exact hm
    obtain ⟨next', hd'⟩ := (hsame.ensureRamp qMeas t.rampClock).desired hpolls command hd
    refine ⟨next', ?_⟩
    simp only [ArmController.prepare, bind_eq_ok, ask_eq_ok, exists_unit]
    refine ⟨polled', hpolled', hmode, feedback, hfeedback, ?_⟩
    rw [hq]
    simp only [bind_eq_ok, ask_eq_ok]
    exact ⟨ff, hff, (next', d), hd', rfl⟩

end Independence

section ArmRuns
variable {model : NeroModel} {s : ArmSystem} {t : Tick} {arrivals : ArmTopic → List ArmCommand}
  {next : ArmController}

/-- A controller with which the stay may have begun: whatever the one that entered it held of
commands. -/
def ArmSystem.Began (s : ArmSystem) (c : ArmController) : Prop :=
  match s.entered with
  | none => c = { modeValue := .commandFollowing }
  | some entered => SameBut entered c

/-- The ticks of a stay once more, on what they have read: the controller and the target of the last. -/
def replay (model : NeroModel) (c : ArmController) (turns : List (Tick × Option (Post ArmCommand))) :
    Except ArmError (ArmController × Option MitTarget) :=
  turns.foldlM (fun p turn => p.1.prepare model true (answering turn.1 (turn.2.map (·.message))))
    (c, none)

/-- What is sent while commands are followed: the commands executed since the entry determine it,
none of them is from before the entry or older than one executed before, and without any none is
held. -/
structure Following (model : NeroModel) (s : ArmSystem) (target : Option MitTarget) : Prop where
  lawful : s.stay.Lawful
  executed : s.stay.executed = (s.turns.filterMap fun turn => turn.2.map (·.stamp)).reverse
  determined : ∀ c, s.Began c → replay model c s.turns = .ok (s.controller, target)
  idle : s.stay.executed = [] →
    s.controller.latestJointTarget = none ∧ s.controller.latestIkTarget = none

/-- What ties the record of the stay to the topics and to what the controller holds. -/
structure ArmInvariant (model : NeroModel) (s : ArmSystem) : Prop where
  named : s.controller.modeValue ≠ .enabled
  fresh : s.controller.modeValue = .commandFollowing → Fresh s.boxes s.stay
  following : s.controller.modeValue = .commandFollowing → ∃ target, Following model s target

/-- The mode changes to command following, or the poll leaves a following controller alone. -/
theorem polled_following {c polled : ArmController} (hpoll : c.pollMode true t = .ok polled)
    (hm : polled.modeValue = .commandFollowing) :
    (entersFollowing c t = true ∧ polled.latestJointTarget = none ∧
      polled.lastSentPDes = none ∧ polled.latestIkTarget = none) ∨
      (entersFollowing c t = false ∧ polled = c) := by
  simp only [entersFollowing, hpoll]
  obtain rfl | ⟨-, newMode, -, hne, hchanged⟩ := pollMode_ok hpoll
  · exact Or.inr ⟨by simp [hm], rfl⟩
  · have hmode := hchanged.mode.symm.trans hm
    subst hmode
    exact Or.inl ⟨by simp [hm, hne.symm], hchanged.cleared rfl⟩

/-- What a controller holds of commands makes no difference to how it enters. -/
theorem SameBut.enters {c c' polled : ArmController} (h : SameBut c c')
    (hpoll : c.pollMode true t = .ok polled) (hm : polled.modeValue = .commandFollowing)
    (henters : entersFollowing c t = true) : c'.pollMode true t = .ok polled := by
  obtain ⟨polled', hpoll', hmode, hramp⟩ := h.pollMode hpoll
  have henters' : entersFollowing c' t = true := by
    simp only [entersFollowing, hpoll, hpoll', h.1, hmode] at henters ⊢
    exact henters
  obtain ⟨-, htarget, hsent, hik⟩ | ⟨hstays, -⟩ := polled_following hpoll hm
  · obtain ⟨-, htarget', hsent', hik'⟩ | ⟨hstays, -⟩ := polled_following hpoll' (hmode.symm.trans hm)
    · have hsame : polled' = polled := by
        cases polled
        cases polled'
        simp_all
      exact hsame ▸ hpoll'
    · rw [hstays] at henters'
      cases henters'
  · rw [hstays] at henters
    cases henters

theorem prepare_of_pollMode {c c' polled : ArmController} (hpoll : c.pollMode true t = .ok polled)
    (hpoll' : c'.pollMode true t = .ok polled) (model : NeroModel) :
    c.prepare model true t = c'.prepare model true t := by
  simp only [ArmController.prepare, hpoll, hpoll']

/-- A stay as a tick finds it that follows commands: just begun, or going on. -/
theorem begun_following (h : ArmInvariant model s) (hok : ArmTickOk model s t arrivals)
    {polled : ArmController} (hpoll : s.controller.pollMode true t = .ok polled)
    (hm : polled.modeValue = .commandFollowing) :
    Fresh s.boxes (s.begun t).stay ∧
      (s.begun t).stay.executed =
        ((s.begun t).turns.filterMap fun turn => turn.2.map (·.stamp)).reverse ∧
      ((s.begun t).stay.executed = [] →
        polled.latestJointTarget = none ∧ polled.latestIkTarget = none) ∧
      ∀ c, (s.begun t).Began c → ∃ last target,
        replay model c (s.begun t).turns = .ok (last, target) ∧
          last.pollMode true t = .ok polled := by
  obtain ⟨henters, htarget, -, hik⟩ | ⟨hstays, rfl⟩ := polled_following hpoll hm
  · rw [ArmSystem.begun, if_pos henters]
    refine ⟨fresh_begin (hok.empty henters), rfl, fun _ => ⟨htarget, hik⟩, fun c hc => ?_⟩
    exact ⟨c, none, rfl, SameBut.enters hc hpoll hm henters⟩
  · rw [ArmSystem.begun, hstays, if_neg Bool.false_ne_true]
    obtain ⟨target, hfollowing⟩ := h.following hm
    exact ⟨h.fresh hm, hfollowing.executed, hfollowing.idle,
      fun c hc => ⟨_, target, hfollowing.determined c hc, hpoll⟩⟩

theorem fresh_after (h : ArmInvariant model s) (hok : ArmTickOk model s t arrivals)
    {polled : ArmController} (hpoll : s.controller.pollMode true t = .ok polled)
    (hm : polled.modeValue = .commandFollowing) (next : ArmController) :
    Fresh (s.after model t arrivals next).boxes (s.after model t arrivals next).stay := by
  obtain ⟨hfresh, -⟩ := begun_following h hok hpoll hm
  have hordered := hok.ordered
  simp only [ArmSystem.after]
  simp only [ArmSystem.read] at hordered ⊢
  by_cases hc : comesToPolls model s.controller t = true
  · rw [if_pos hc] at hordered ⊢
    obtain ⟨hread, hadmissible⟩ := hfresh.readFirst (armPolls arrivals)
    exact hread.execute hadmissible hordered
  · rw [if_neg hc]
    exact hfresh

theorem prepared_mode {polled : ArmController} {target : Option MitTarget}
    (hpoll : s.controller.pollMode true t = .ok polled)
    (hp : s.controller.prepare model true (s.answered model t arrivals) = .ok (next, target)) :
    next.modeValue = polled.modeValue := by
  obtain ⟨polled', feedback, hpolled, -, hcase⟩ := prepare_ok hp
  rw [ArmSystem.answered, answering_pollMode, hpoll] at hpolled
  obtain rfl := Except.ok.inj hpolled
  obtain ⟨-, rfl, -⟩ | ⟨qMeas, ff, d, -, hd, -⟩ := hcase
  · rfl
  · rw [NeroSlew.desired_modeValue hd, ensureRamp_modeValue]

theorem held_of_unread {polled : ArmController} {target : Option MitTarget}
    (hpoll : s.controller.pollMode true t = .ok polled)
    (hp : s.controller.prepare model true (s.answered model t arrivals) = .ok (next, target))
    (hm : next.modeValue = .commandFollowing) (hread : (s.read model t arrivals).2 = none) :
    next.latestJointTarget = polled.latestJointTarget ∧
      next.latestIkTarget = polled.latestIkTarget := by
  have hmode := prepared_mode hpoll hp
  obtain ⟨polled', feedback, hpolled, -, hcase⟩ := prepare_ok hp
  rw [ArmSystem.answered, answering_pollMode, hpoll] at hpolled
  obtain rfl := Except.ok.inj hpolled
  obtain ⟨-, rfl, -⟩ | ⟨qMeas, ff, d, -, hd, -⟩ := hcase
  · exact ⟨rfl, rfl⟩
  · have hne : polled.modeValue ≠ .disabled := by
      rw [← hmode, hm]
      decide
    rw [ensureRamp_of_ne hne] at hd
    obtain ⟨command, followed, wanted, hcommand, hfollow, -, rfl⟩ :=
      NeroSlew.desired_following (hmode.symm.trans hm) hd
    rw [ArmSystem.answered, hread, Option.map_none, answering_command] at hcommand
    cases hcommand
    obtain ⟨rfl, -⟩ := (NeroSlew.followCommand_ok hfollow).2.2 rfl
    exact ⟨rfl, rfl⟩

theorem ArmInvariant.followed (h : ArmInvariant model s) (hok : ArmTickOk model s t arrivals)
    {target : Option MitTarget}
    (hp : s.controller.prepare model true (s.answered model t arrivals) = .ok (next, target))
    (hm : next.modeValue = .commandFollowing) :
    Following model (s.after model t arrivals next) target := by
  obtain ⟨polled, feedback, hpolled, -, -⟩ := prepare_ok hp
  rw [ArmSystem.answered, answering_pollMode] at hpolled
  have hmode := prepared_mode hpolled hp
  obtain ⟨-, hexecuted, hidle, hbegan⟩ := begun_following h hok hpolled (hmode.symm.trans hm)
  constructor
  · exact (fresh_after h hok hpolled (hmode.symm.trans hm) next).lawful
  · simp only [ArmSystem.after, List.filterMap_append, List.reverse_append]
    cases hr : (s.read model t arrivals).2 with
    | none => simpa [Stay.execute, List.filterMap_cons] using hexecuted
    | some p => simpa [Stay.execute, List.filterMap_cons] using hexecuted
  · intro c hc
    obtain ⟨last, before, hreplay, hpoll⟩ := hbegan c hc
    have hreplay : (s.begun t).turns.foldlM (fun p turn =>
        ArmController.prepare model p.1 true (answering turn.1 (turn.2.map (·.message))))
          (c, none) = .ok (last, before) := hreplay
    simp only [ArmSystem.after, replay, List.foldlM_append, hreplay, List.foldlM_cons,
      List.foldlM_nil]
    have hsame := prepare_of_pollMode (t := s.answered model t arrivals) hpoll hpolled model
    rw [ArmSystem.answered] at hsame hp
    simp only [bind, Except.bind, hsame, hp]
    rfl
  · intro hempty
    simp only [ArmSystem.after] at hempty ⊢
    cases hr : (s.read model t arrivals).2 with
    | none =>
      rw [hr] at hempty
      obtain ⟨htarget, hik⟩ := held_of_unread hpolled hp hm hr
      rw [htarget, hik]
      exact hidle hempty
    | some p =>
      rw [hr] at hempty
      cases hempty

theorem ArmInvariant.after (h : ArmInvariant model s) (hok : ArmTickOk model s t arrivals)
    {target : Option MitTarget}
    (hp : s.controller.prepare model true (s.answered model t arrivals) = .ok (next, target)) :
    ArmInvariant model (s.after model t arrivals next) := by
  obtain ⟨polled, feedback, hpolled, -, -⟩ := prepare_ok hp
  rw [ArmSystem.answered, answering_pollMode] at hpolled
  have hmode := prepared_mode hpolled hp
  refine ⟨fun hm => ?_, fun hm => ?_, fun hm => ⟨target, h.followed hok hp hm⟩⟩
  · have hm : next.modeValue = .enabled := hm
    obtain rfl | ⟨-, newMode, hmessage, -, hchanged⟩ := pollMode_ok hpolled
    · exact h.named (hmode.symm.trans hm)
    · rw [← hchanged.mode, ← hmode, hm] at hmessage
      exact hok.named hmessage
  · exact fresh_after h hok hpolled (hmode.symm.trans hm) next

theorem ArmInvariant.publish (h : ArmInvariant model s) (command : ArmCommand) :
    ArmInvariant model { s with boxes := s.boxes.publish armTopic command } := by
  refine ⟨h.named, fun hm => (h.fresh hm).publish command, fun hm => ?_⟩
  obtain ⟨target, hfollowing⟩ := h.following hm
  exact ⟨target, hfollowing.lawful, hfollowing.executed, hfollowing.determined, hfollowing.idle⟩

theorem ArmRun.invariant (h : ArmRun model s) : ArmInvariant model s := by
  induction h with
  | start mode h =>
    have hfresh : Fresh (τ := ArmTopic) (γ := ArmCommand) {} {} := fresh_begin fun _ => rfl
    refine ⟨h, fun _ => hfresh, fun hm => ⟨none, hfresh.lawful, rfl, fun c hc => ?_, fun _ => ?_⟩⟩
    · obtain rfl : c = { modeValue := .commandFollowing } := hc
      obtain rfl : mode = .commandFollowing := hm
      rfl
    · exact ⟨rfl, rfl⟩
  | publish h command ih => exact ih.publish command
  | tick h t arrivals hok hnext ih =>
    obtain ⟨target, hp, -⟩ := step_ok hnext
    exact ih.after hok hp

end ArmRuns

section GripperRuns
variable {s : GripperSystem} {t : GripperTick} {arrivals : GripperTopic → List GripperCommand}
  {next polled : GripperController}

/-- A following gripper has fresh topics. -/
def GripperInvariant (s : GripperSystem) : Prop :=
  s.controller.modeValue = .commandFollowing → Fresh s.boxes s.stay

theorem gripperPollMode_ok {c : GripperController} (h : c.pollMode t = .ok polled) :
    polled = c ∨ polled.modeValue ≠ c.modeValue := by
  simp only [GripperController.pollMode, bind_eq_ok] at h
  obtain ⟨message, -, h⟩ := h
  cases message with
  | none => exact Or.inl (pure_eq_ok.mp h).symm
  | some newMode =>
    by_cases hn : newMode ≠ c.modeValue
    · simp only [if_pos hn] at h
      cases h
      exact Or.inr hn
    · simp only [if_neg hn] at h
      exact Or.inl (pure_eq_ok.mp h).symm

theorem gripperPrepare_ok {target : Option GripperTarget} {c : GripperController}
    (h : c.prepare t = .ok (next, target)) :
    c.pollMode t = .ok next ∧ t.publishMode = .ok () ∧
      (next.modeValue = .commandFollowing → ∃ command, t.command = .ok command ∧
        target = command.map (·.target next.defaultForceN)) := by
  simp only [GripperController.prepare, bind_eq_ok, exists_unit, mapError_eq_ok] at h
  obtain ⟨polled, hpolled, hmode, h⟩ := h
  cases hm : polled.modeValue with
  | identifying =>
    simp only [hm] at h
    cases hs : polled.identifyStartedAt with
    | none =>
      rw [hs] at h
      cases h
    | some startedAt =>
      rw [hs] at h
      cases h
      exact ⟨hpolled, hmode, fun hc => absurd (hm.symm.trans hc) (by decide)⟩
  | commandFollowing =>
    simp only [hm, bind_eq_ok, mapError_eq_ok] at h
    obtain ⟨command, hcommand, h⟩ := h
    cases h
    exact ⟨hpolled, hmode, fun _ => ⟨command, hcommand, rfl⟩⟩
  | disabled | enabled | freeDrive =>
    simp only [hm, bind_eq_ok, mapError_eq_ok] at h
    obtain ⟨mit, -, position, -, h⟩ := h
    cases h
    exact ⟨hpolled, hmode, fun hc => absurd (hm.symm.trans hc) (by decide)⟩

theorem GripperInvariant.after (h : GripperInvariant s) (hok : GripperTickOk s t arrivals)
    (hpoll : s.controller.pollMode t = .ok next) (hmode : t.publishMode = .ok ()) :
    GripperInvariant (s.after t arrivals next) := by
  intro hm
  have hm : next.modeValue = .commandFollowing := hm
  have hbegun : Fresh s.boxes (s.begun t) := by
    simp only [GripperSystem.begun]
    by_cases he : gripperEnters s.controller t = true
    · rw [if_pos he]
      exact fresh_begin (hok.empty he)
    · rw [if_neg he]
      obtain rfl | hne := gripperPollMode_ok hpoll
      · exact h hm
      · refine absurd ?_ he
        rw [hm] at hne
        simp [gripperEnters, hpoll, hm, hne.symm]
  have hordered := hok.ordered
  simp only [GripperSystem.after]
  simp only [GripperSystem.read, pollingMode, hpoll, hmode, hm] at hordered ⊢
  obtain ⟨hread, hadmissible⟩ := hbegun.readFirst (gripperPolls arrivals)
  exact hread.execute hadmissible hordered

theorem GripperRun.invariant (h : GripperRun s) : GripperInvariant s := by
  induction h with
  | start c => exact fun _ => fresh_begin (b := {}) fun _ => rfl
  | publish h command ih => exact fun hm => (ih hm).publish command
  | @tick s h t arrivals hok next hnext ih =>
    have hprepared : ∃ target, s.controller.prepare (s.answered t arrivals) = .ok (next, target) := by
      simp only [GripperController.step] at hnext
      split at hnext
      · cases hnext
      · next u hp =>
        obtain ⟨-, -, rfl⟩ := map_eq_ok.mp hnext
        exact ⟨_, hp⟩
      · next u target hp =>
        split at hnext
        · cases hnext
        · obtain ⟨-, -, rfl⟩ := map_eq_ok.mp hnext
          exact ⟨_, hp⟩
    obtain ⟨target, hp⟩ := hprepared
    obtain ⟨hpoll, hmode, -⟩ := gripperPrepare_ok hp
    exact ih.after hok hpoll hmode

/-- Outside command following, what the gripper does is the same whatever was commanded. -/
theorem gripper_independent {c : GripperController} {target : Option GripperTarget}
    (command command' : Option GripperCommand)
    (hp : c.prepare (gripperAnswering t command) = .ok (next, target))
    (hm : next.modeValue ≠ .commandFollowing) :
    c.prepare (gripperAnswering t command') = .ok (next, target) := by
  obtain ⟨hpoll, hmode, -⟩ := gripperPrepare_ok hp
  have hpoll' : c.pollMode (gripperAnswering t command') = .ok next := hpoll
  have hmode' : (gripperAnswering t command').publishMode = .ok () := hmode
  simp only [GripperController.prepare, hpoll, hmode, hpoll', hmode'] at hp ⊢
  cases hv : next.modeValue with
  | commandFollowing => exact absurd hv hm
  | identifying | disabled | enabled | freeDrive =>
    rw [← hp]
    simp only [Except.mapError, bind, Except.bind, hv]
    rfl

end GripperRuns

theorem gripperAnswering_command (t : GripperTick) {command : Option GripperCommand}
    (h : ∀ c ∈ command, c.hasValue = true) :
    (gripperAnswering t command).command = .ok command := by
  cases command with
  | none => rfl
  | some command =>
    have hvalue := h command rfl
    cases command with
    | parallelMit mit =>
      have hmit : (some (GripperCommand.parallelMit mit)).filter GripperCommand.hasValue =
          some (.parallelMit mit) := Option.filter_eq_some_iff.mpr ⟨rfl, hvalue⟩
      rw [GripperTick.command, bind_eq_ok]
      refine ⟨some mit, rfl, ?_⟩
      simp only [Option.map_some, hmit, pure_eq_ok]
    | parallelPosition position =>
      exact congrArg Except.ok (Option.filter_eq_some_iff.mpr ⟨rfl, hvalue⟩)

/-- In every run of the arm and of the gripper whose ticks meet the condition: a target of another
mode is the same whatever was commanded; in command following it is determined by the commands
executed since the entry, which were published since the entry and are executed in the order of
publication; and the gripper is sent nothing but the command that it reads. -/
theorem commands_in_stay {model : NeroModel} {arm : ArmSystem} {gripper : GripperSystem}
    (harm : ArmRun model arm) (hgripper : GripperRun gripper) :
    (∀ t arrivals, ArmTickOk model arm t arrivals → ∀ next target,
      arm.controller.prepare model true (arm.answered model t arrivals) =
          .ok (next, some target) →
      (next.modeValue ≠ .commandFollowing → ∀ c' command, SameBut arm.controller c' →
        ∃ next', c'.prepare model true (answering t command) = .ok (next', some target)) ∧
      (next.modeValue = .commandFollowing →
        Following model (arm.after model t arrivals next) (some target))) ∧
    ∀ t arrivals, GripperTickOk gripper t arrivals → ∀ next target,
      gripper.controller.prepare (gripper.answered t arrivals) = .ok (next, target) →
      (next.modeValue ≠ .commandFollowing → ∀ command,
        gripper.controller.prepare (gripperAnswering t command) = .ok (next, target)) ∧
      (next.modeValue = .commandFollowing → (gripper.after t arrivals next).stay.Lawful ∧
        target = (gripper.read t arrivals).2.map (·.message.target next.defaultForceN)) := by
  constructor
  · intro t arrivals hok next target hp
    have hafter := harm.invariant.after hok hp
    constructor
    · intro hm c' command hsame
      have hpolls : polls next.modeValue = false := by
        have hnamed : next.modeValue ≠ .enabled := hafter.named
        cases hv : next.modeValue with
        | enabled => exact absurd hv hnamed
        | commandFollowing => exact absurd hv hm
        | disabled | freeDrive | identifying => rfl
      have hprepared := hsame.prepared command hp hpolls
      exact hprepared
    · intro hm
      exact harm.invariant.followed hok hp hm
  · intro t arrivals hok next target hp
    obtain ⟨hpoll, hmode, htarget⟩ := gripperPrepare_ok hp
    constructor
    · intro hm command
      exact gripper_independent _ command hp hm
    · intro hm
      refine ⟨(hgripper.invariant.after hok hpoll hmode hm).lawful, ?_⟩
      obtain ⟨command, hcommand, rfl⟩ := htarget hm
      have hvalue : ∀ c ∈ (gripper.read t arrivals).2.map (·.message), c.hasValue = true := by
        intro c hc
        obtain ⟨p, hread, rfl⟩ := Option.map_eq_some_iff.mp hc
        have hpoll : gripper.controller.pollMode t = .ok next := hpoll
        have hmode : t.publishMode = .ok () := hmode
        simp only [GripperSystem.read, pollingMode, hpoll, hmode, hm] at hread
        exact readFirst_wanted hread
      rw [GripperSystem.answered, gripperAnswering_command t hvalue] at hcommand
      cases hcommand
      rw [Option.map_map]
      rfl

def oneRadian : ArmCommand := .jointPosition { len := 7, values := Vector.replicate 15 1 }

def followTick : Tick := { idleTick with modeMessage := .ok (some .commandFollowing) }

/-- A free arm is made to follow, and the command that comes then is executed. -/
theorem commands_in_stay_following :
    Following stillModel
      (ArmSystem.after stillModel { controller := { modeValue := .freeDrive } } followTick
        (fun _ => [oneRadian]) NeroSlew.heldController)
      (some
        { pDes := Vector.replicate 7 (pi / 12)
          vDes := noMotion
          kp := trackingKp
          kd := trackingKd
          ff := noMotion }) := by
  have hok : ArmTickOk stillModel { controller := { modeValue := .freeDrive } } followTick
      (fun _ => [oneRadian]) := by
    constructor
    · decide
    · intro _ topic
      rfl
    · have hread : ∀ topic, (ArmSystem.read stillModel
          { controller := { modeValue := .freeDrive } } followTick
          fun _ => [oneRadian]).1.unread topic = none := by
        intro topic
        cases topic <;> decide +kernel
      intro q hq topic older holder
      rw [hread topic] at holder
      cases holder
  have hgripper : GripperRun { controller := { modeValue := .freeDrive, defaultForceN := 1 } } :=
    .start _
  refine ((commands_in_stay (.start .freeDrive (by decide)) hgripper).1 _ _ hok _ _ ?_).2 rfl
  decide +kernel

def freeWithCommand : ArmSystem :=
  { controller := { modeValue := .freeDrive }
    boxes := Boxes.publish armTopic {} oneRadian }

/-- A command that was published while the arm was free is executed when it follows again. -/
theorem stale_command_executed :
    ∃ next target,
      freeWithCommand.controller.prepare stillModel true
        (freeWithCommand.answered stillModel followTick fun _ => []) = .ok (next, some target) ∧
      next.modeValue = .commandFollowing ∧
      ¬ (freeWithCommand.after stillModel followTick (fun _ => []) next).stay.Lawful := by
  refine ⟨NeroSlew.heldController,
    { pDes := Vector.replicate 7 (pi / 12)
      vDes := noMotion
      kp := trackingKp
      kd := trackingKd
      ff := noMotion }, by decide +kernel, rfl, ?_⟩
  rintro ⟨hsince, -⟩
  exact absurd (hsince 0 (by decide +kernel)) (by decide +kernel)

end NeroCommands
