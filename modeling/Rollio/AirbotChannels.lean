import Mathlib.Data.List.Basic
import Rollio.DeviceConfigs
import Rollio.Outcomes

/-! The channels of the AIRBOT Play driver: which states they ask the client to set, whatever the
bus and the client answer. -/
namespace AirbotChannels
open DeviceConfigs Outcomes

abbrev Call := Except String

inductive ArmState where
  | disabled | freeDrive | commandFollowing
  deriving DecidableEq, Repr

inductive EefState where
  | disabled | enabled
  deriving DecidableEq, Repr

inductive MountedEefType where
  | none | e2b | g2 | other
  deriving DecidableEq, Repr

def armStateForMode : RobotMode → ArmState
  | .disabled => .disabled
  | .freeDrive | .identifying => .freeDrive
  | .commandFollowing => .commandFollowing

def eefStateForMode : RobotMode → EefState
  | .disabled => .disabled
  | .freeDrive | .commandFollowing | .identifying => .enabled

section Led

/-- What the gate of the identify LED holds when a channel synchronizes it: whether the other
channel identifies, whether the LED is on, and how the client answers. -/
structure LedAnswer where
  otherIdentifying : Bool
  ledOn : Bool
  setIdentifyLed : Call Unit

def setIdentifying (identifying : Bool) (a : LedAnswer) : Call Unit :=
  if (identifying || a.otherIdentifying) = a.ledOn then .ok () else a.setIdentifyLed

end Led

section Channel
variable {S W : Type} [DecidableEq S]

/-- A channel: the state for each mode, and what a turn does with its commands in a mode. -/
structure Channel (S W : Type) where
  stateForMode : RobotMode → S
  disabled : S
  work : RobotMode → W → Call Unit

structure Turn (W : Type) where
  stop : Bool
  shutdown : Call Bool
  mode : Call (Option RobotMode)
  /-- The LED when the mode identifying is left, and when it is entered. -/
  ledOff : LedAnswer
  setState : Call Unit
  ledOn : LedAnswer
  modeInfo : Call Unit
  work : W
  hasFeedback : Bool
  publishStates : Call Unit

def pollMode (current : RobotMode) (t : Turn W) : Call (Option RobotMode) := do
  if t.stop then pure none
  else if ← t.shutdown then pure none
  else
    match ← t.mode with
    | none => pure (some current)
    | some next =>
      if next ≠ current ∧ current = .identifying then setIdentifying false t.ledOff
      pure (some next)

def Channel.serve (ch : Channel S W) (current next : RobotMode) (t : Turn W) : Call Unit := do
  if next ≠ current then
    t.setState
    if next = .identifying then setIdentifying true t.ledOn
  t.modeInfo
  ch.work next t.work
  if t.hasFeedback then t.publishStates

inductive Exit where
  | returned (result : Call Unit)
  /-- The answers end before the function does. -/
  | running

/-- The states that the client was asked to set, and how the function ended. -/
structure Report (S : Type) where
  asked : List S
  exit : Exit

def Channel.cleanUp (ch : Channel S W) (ledLast : LedAnswer) (setLast : Call Unit) : Report S :=
  match setIdentifying false ledLast with
  | .error e => { asked := [], exit := .returned (.error e) }
  | .ok () => { asked := [ch.disabled], exit := .returned setLast }

def Channel.loop (ch : Channel S W) (ledLast : LedAnswer) (setLast : Call Unit) :
    RobotMode → List (Turn W) → Report S
  | _, [] => { asked := [], exit := .running }
  | current, t :: turns =>
    match pollMode current t with
    | .error e => { asked := [], exit := .returned (.error e) }
    | .ok none => ch.cleanUp ledLast setLast
    | .ok (some next) =>
      let asked := if next ≠ current then [ch.stateForMode next] else []
      match ch.serve current next t with
      | .error e => { asked, exit := .returned (.error e) }
      | .ok () =>
        let rest := ch.loop ledLast setLast next turns
        { rest with asked := asked ++ rest.asked }

structure Run (W : Type) where
  mode : RobotMode
  /-- The runtime, the node and its topics. -/
  opened : Call Unit
  setFirst : Call Unit
  ledFirst : LedAnswer
  turns : List (Turn W)
  ledLast : LedAnswer
  setLast : Call Unit

/-- The first state is set, and the LED for a channel that starts identifying. -/
def Run.enter (r : Run W) : Call Unit := do
  r.setFirst
  if r.mode = .identifying then setIdentifying true r.ledFirst

def Channel.run (ch : Channel S W) (r : Run W) : Report S :=
  match r.opened with
  | .error e => { asked := [], exit := .returned (.error e) }
  | .ok () =>
    match r.enter with
    | .error e => { asked := [ch.stateForMode r.mode], exit := .returned (.error e) }
    | .ok () =>
      let rest := ch.loop r.ledLast r.setLast r.mode r.turns
      { rest with asked := ch.stateForMode r.mode :: rest.asked }

end Channel

section Work

structure CommandAnswer where
  hasCommand : Call Bool
  submit : Call Unit

def drain (submits : Bool) (a : CommandAnswer) : Call Unit := do
  let has ← a.hasCommand
  if has && submits then a.submit

structure ArmWork where
  jointPosition : CommandAnswer
  jointMit : CommandAnswer
  endPose : CommandAnswer

def armWork (mode : RobotMode) (w : ArmWork) : Call Unit := do
  let follows : Bool := mode = .commandFollowing
  drain follows w.jointPosition
  drain follows w.jointMit
  drain follows w.endPose

/-- The commands of the gripper, and the submission of the pattern it identifies with. -/
structure EefWork where
  command : CommandAnswer
  submitPattern : Call Unit

def submitsTo (mounted : MountedEefType) (submit : Call Unit) : Call Unit :=
  match mounted with
  | .e2b | .g2 => submit
  | .none | .other => .ok ()

def eefWork (mounted : MountedEefType) (mode : RobotMode) (w : EefWork) : Call Unit :=
  match mode with
  | .commandFollowing =>
    drain true { w.command with submit := submitsTo mounted w.command.submit }
  | .identifying => do
    drain false w.command
    if mounted = .g2 then submitsTo mounted w.submitPattern
  | .freeDrive | .disabled => drain false w.command

def armChannel : Channel ArmState ArmWork :=
  { stateForMode := armStateForMode
    disabled := .disabled
    work := armWork }

def eefChannel (mounted : MountedEefType) : Channel EefState EefWork :=
  { stateForMode := eefStateForMode
    disabled := .disabled
    work := eefWork mounted }

end Work

section Law
variable {S W : Type} {ch : Channel S W}

/-- Once another state was asked for, the last one asked for is disabled when the function ends. -/
def Disables (ch : Channel S W) (report : Report S) : Prop :=
  ∀ result, report.exit = .returned result → (∃ s ∈ report.asked, s ≠ ch.disabled) →
    report.asked.getLast? = some ch.disabled

def Succeeds {α : Type} (call : Call α) : Prop := ∃ a, call = .ok a

/-- The calls of the loop that come while the channel is in another mode than disabled succeed:
those before a change of mode in the mode that is left, those from it on in the new one, and the LED
behind the loop. -/
def LoopOk (ch : Channel S W) (ledLast : LedAnswer) : RobotMode → List (Turn W) → Prop
  | _, [] => True
  | current, t :: turns =>
    (current ≠ .disabled → Succeeds (pollMode current t)) ∧
      (pollMode current t = .ok none → current ≠ .disabled →
        Succeeds (setIdentifying false ledLast)) ∧
      ∀ next, pollMode current t = .ok (some next) →
        (next ≠ .disabled → Succeeds (ch.serve current next t)) ∧
          (ch.serve current next t = .ok () → LoopOk ch ledLast next turns)

/-- The calls of a run that come while the channel is in another mode than disabled succeed, from
the one that first asks for its state on and up to the one that asks for the last. -/
def RunOk (ch : Channel S W) (r : Run W) : Prop :=
  r.opened = .ok () →
    (r.mode ≠ .disabled → Succeeds r.enter) ∧
      (r.enter = .ok () → LoopOk ch r.ledLast r.mode r.turns)

/-- The state for a mode is disabled for the mode disabled only. -/
def Faithful (ch : Channel S W) : Prop :=
  ∀ mode, ch.stateForMode mode = ch.disabled ↔ mode = .disabled

theorem armChannel_faithful : Faithful armChannel := by
  intro mode
  cases mode <;> decide

theorem eefChannel_faithful (mounted : MountedEefType) : Faithful (eefChannel mounted) := by
  intro mode
  cases mode <;> simp [eefChannel, eefStateForMode]

theorem succeeds_error {α : Type} {e : String} : ¬ Succeeds (.error e : Call α) := by
  rintro ⟨a, h⟩
  cases h

theorem succeeds_ok {α : Type} {a : α} : Succeeds (.ok a : Call α) := ⟨a, rfl⟩

/-- A function that ends after a failing call has disabled the motors only in the mode disabled. -/
theorem single_iff (hch : Faithful ch) {α : Type} {mode : RobotMode} {e : String} :
    [ch.stateForMode mode].getLast? = some ch.disabled ↔
      (mode ≠ .disabled → Succeeds (.error e : Call α)) := by
  rw [List.getLast?_singleton, Option.some_inj, hch mode]
  constructor
  · intro h hne
    exact absurd h hne
  · intro h
    by_contra hne
    exact succeeds_error (h hne)

theorem getLast?_turn (ch : Channel S W) (current next : RobotMode) (rest : List S) :
    (ch.stateForMode current ::
        ((if next ≠ current then [ch.stateForMode next] else []) ++ rest)).getLast? =
      (ch.stateForMode next :: rest).getLast? := by
  by_cases h : next ≠ current
  · rw [if_pos h]
    exact List.getLast?_cons_cons
  · rw [if_neg h, List.nil_append, not_ne_iff.mp h]

/-- From a state that was asked for, the loop and its clean-up end disabled exactly when the calls
of the other modes succeed. -/
theorem loop_disables_iff (hch : Faithful ch) (ledLast : LedAnswer) (setLast : Call Unit)
    (current : RobotMode) (turns : List (Turn W)) :
    (∀ result, (ch.loop ledLast setLast current turns).exit = .returned result →
      (ch.stateForMode current :: (ch.loop ledLast setLast current turns).asked).getLast? =
        some ch.disabled) ↔ LoopOk ch ledLast current turns := by
  induction turns generalizing current with
  | nil => exact ⟨fun _ => True.intro, by rintro _ _ ⟨⟩⟩
  | cons t turns ih =>
    simp only [Channel.loop, LoopOk]
    cases hpoll : pollMode current t with
    | error e =>
      simp only [Exit.returned.injEq, forall_eq', reduceCtorEq, false_implies, implies_true,
        and_true]
      exact single_iff hch
    | ok polled =>
      cases polled with
      | none =>
        simp only [succeeds_ok, implies_true, true_and, forall_const, Except.ok.injEq,
          reduceCtorEq, false_implies, and_true, Channel.cleanUp]
        cases hled : setIdentifying false ledLast with
        | error e =>
          simp only [Exit.returned.injEq, forall_eq']
          exact single_iff hch
        | ok u =>
          refine ⟨fun _ _ => succeeds_ok, fun _ result _ => ?_⟩
          exact List.getLast?_cons_cons
      | some next =>
        simp only [succeeds_ok, implies_true, true_and, Except.ok.injEq, reduceCtorEq,
          false_implies, Option.some.injEq, forall_eq']
        cases hserve : ch.serve current next t with
        | error e =>
          simp only [Exit.returned.injEq, forall_eq', reduceCtorEq, false_implies, and_true]
          rw [← List.append_nil (if next ≠ current then [ch.stateForMode next] else []),
            getLast?_turn]
          exact single_iff hch
        | ok u =>
          simp only [succeeds_ok, implies_true, true_and, forall_const, getLast?_turn]
          exact ih next

/-- Where a state was asked for, the law is about the last one. -/
theorem disables_iff {first : S} {report : Report S} (h : report.asked.head? = some first) :
    Disables ch report ↔
      ∀ result, report.exit = .returned result → report.asked.getLast? = some ch.disabled := by
  constructor
  · intro hlaw result hexit
    by_cases hother : ∃ s ∈ report.asked, s ≠ ch.disabled
    · exact hlaw result hexit hother
    · cases hlast : report.asked.getLast? with
      | none =>
        rw [List.getLast?_eq_none_iff.mp hlast] at h
        cases h
      | some s =>
        by_contra hne
        exact hother ⟨s, List.mem_of_getLast? hlast, fun heq => hne (congrArg some heq)⟩
  · intro hlast result hexit _
    exact hlast result hexit

/-- A channel ends disabled exactly when the calls of its other modes succeed. -/
theorem run_disables_iff (hch : Faithful ch) (r : Run W) :
    Disables ch (ch.run r) ↔ RunOk ch r := by
  simp only [Channel.run, RunOk]
  cases r.opened with
  | error e =>
    simp only [reduceCtorEq, false_implies, iff_true]
    rintro result - ⟨s, hs, -⟩
    cases hs
  | ok u =>
    cases henter : r.enter with
    | error e =>
      rw [disables_iff rfl]
      simp only [Exit.returned.injEq, forall_eq', forall_const, reduceCtorEq, false_implies,
        and_true]
      exact single_iff hch
    | ok u =>
      rw [disables_iff rfl]
      simp only [succeeds_ok, implies_true, true_and, forall_const]
      exact loop_disables_iff hch r.ledLast r.setLast r.mode r.turns

end Law

/-- Both channels of the driver. -/
theorem channels_disable_iff (armRun : Run ArmWork) (mounted : MountedEefType)
    (eefRun : Run EefWork) :
    (Disables armChannel (armChannel.run armRun) ↔ RunOk armChannel armRun) ∧
      (Disables (eefChannel mounted) ((eefChannel mounted).run eefRun) ↔
        RunOk (eefChannel mounted) eefRun) :=
  ⟨run_disables_iff armChannel_faithful armRun,
    run_disables_iff (eefChannel_faithful mounted) eefRun⟩

def ledOff : LedAnswer := { otherIdentifying := false, ledOn := false, setIdentifyLed := .ok () }

/-- A free arm whose shutdown events cannot be read is left free. -/
theorem failed_receive_not_disabled :
    ¬ Disables armChannel (armChannel.run
      { mode := .freeDrive
        opened := .ok ()
        setFirst := .ok ()
        ledFirst := ledOff
        turns := [{ stop := false
                    shutdown := .error "receive"
                    mode := .ok none
                    ledOff := ledOff
                    setState := .ok ()
                    ledOn := ledOff
                    modeInfo := .ok ()
                    work := ⟨⟨.ok false, .ok ()⟩, ⟨.ok false, .ok ()⟩, ⟨.ok false, .ok ()⟩⟩
                    hasFeedback := false
                    publishStates := .ok () }]
        ledLast := ledOff
        setLast := .ok () }) := by
  intro h
  exact absurd (h (.error "receive") rfl ⟨.freeDrive, by decide, by decide⟩) (by decide)

end AirbotChannels
