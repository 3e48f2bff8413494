import Rollio.ControlEvents
import Rollio.PartialRuns
import Rollio.Queues

/-! The controller's collect loop. One poll drains three topics in a fixed order and then the
operator's commands; back-pressure blocks new starts until an outcome or a discard. -/
namespace CollectLoop
open BusMessages Clocks ControllerEpisode ControlEvents Queues

def applyBackpressureEvents (startBlocked : Bool) (events : List BackpressureEvent) : Bool :=
  events.foldl (fun _ _ => true) startBlocked

structure Gate where
  lifecycle : EpisodeLifecycle
  startBlocked : Bool

def applyEpisodeStored (r : Bool × Gate) (event : EpisodeStored) : Bool × Gate :=
  match r.2.lifecycle.recordEpisodeStored event.episodeIndex with
  | (true, lifecycle) => (true, ⟨lifecycle, false⟩)
  | (false, lifecycle) => (r.1, { r.2 with lifecycle := lifecycle })

/-- The flag is the returned "status changed", here and below. -/
def applyEpisodeStoredEvents (gate : Gate) (events : List EpisodeStored) : Bool × Gate :=
  events.foldl applyEpisodeStored (false, gate)

def applyEpisodeDroppedEvents (startBlocked : Bool) (events : List EpisodeDropped) :
    Bool × Bool :=
  events.foldl (fun _ _ => (true, false)) (false, startBlocked)

structure Collected where
  gate : Gate
  events : List ControlEvent := []
  statusChanged : Bool := false

def isDiscard : ControlEvent → Bool
  | .episodeDiscard _ => true
  | _ => false

/-- Each command comes with the wall-clock reading its event is stamped with. -/
def collectControlEvent (now : Instant) (c : Collected) (command : EpisodeCommand × UInt64) :
    Collected :=
  if command.1 = .start ∧ c.gate.startBlocked = true then c
  else match c.gate.lifecycle.handleCommand command.1 now command.2 with
    | (.ok event, lifecycle) =>
      { gate := ⟨lifecycle, if isDiscard event then false else c.gate.startBlocked⟩
        events := c.events ++ [event]
        statusChanged := true }
    | (.error _, lifecycle) => { c with gate := { c.gate with lifecycle := lifecycle } }

def collectControlEvents (gate : Gate) (commands : List (EpisodeCommand × UInt64))
    (now : Instant) : Collected :=
  commands.foldl (collectControlEvent now) { gate := gate }

inductive LoopPhase where
  | backpressure | stored | dropped | commands | exited
  deriving DecidableEq, Repr

/-- The loop's locals and topics; `emitted` is the history of the published control events
and `statuses` that of the status topic. -/
structure Controller where
  gate : Gate
  statusChanged : Bool := false
  phase : LoopPhase := .backpressure
  backpressure : Queue BackpressureEvent := {}
  stored : Queue EpisodeStored := {}
  dropped : Queue EpisodeDropped := {}
  emitted : List ControlEvent := []
  statuses : List EpisodeStatus := []

inductive ControllerAction where
  | drainBackpressure (n : ℕ)
  | drainStored (n : ℕ)
  | drainDropped (n : ℕ)
  | drainCommands (commands : List (EpisodeCommand × UInt64)) (now statusNow : Instant)
  | exit

def Enabled (c : Controller) : ControllerAction → Prop
  | .drainBackpressure _ | .exit => c.phase = .backpressure
  | .drainStored _ => c.phase = .stored
  | .drainDropped _ => c.phase = .dropped
  | .drainCommands .. => c.phase = .commands

instance (c : Controller) (a : ControllerAction) : Decidable (Enabled c a) := by
  cases a <;> simp only [Enabled] <;> infer_instance

namespace Controller

def initial (lifecycle : EpisodeLifecycle) : Controller where
  gate := ⟨lifecycle, false⟩

def drainBackpressure (c : Controller) (n : ℕ) : Controller :=
  { c with
    phase := .stored
    backpressure := c.backpressure.take n
    gate := { c.gate with startBlocked :=
      applyBackpressureEvents c.gate.startBlocked (c.backpressure.pending.take n) } }

def drainStored (c : Controller) (n : ℕ) : Controller :=
  let (changed, gate) := applyEpisodeStoredEvents c.gate (c.stored.pending.take n)
  { c with phase := .dropped, stored := c.stored.take n, gate := gate, statusChanged := changed }

def drainDropped (c : Controller) (n : ℕ) : Controller :=
  let (changed, startBlocked) :=
    applyEpisodeDroppedEvents c.gate.startBlocked (c.dropped.pending.take n)
  { c with
    phase := .commands
    dropped := c.dropped.take n
    gate := { c.gate with startBlocked := startBlocked }
    statusChanged := c.statusChanged || changed }

def drainCommands (c : Controller) (commands : List (EpisodeCommand × UInt64))
    (now statusNow : Instant) : Controller :=
  let r := collectControlEvents c.gate commands now
  let statusChanged := c.statusChanged || r.statusChanged
  { c with
    phase := .backpressure
    gate := r.gate
    statusChanged := false
    emitted := c.emitted ++ r.events
    statuses := c.statuses ++
      if statusChanged || r.gate.lifecycle.state = .recording then
        [r.gate.lifecycle.status statusNow] else [] }

def topic (c : Controller) : List ControlEvent :=
  c.emitted ++ if c.phase = .exited then [.shutdown] else []

end Controller

/-- A drain takes the next `n` messages, however many more are on their way. -/
def next (c : Controller) : ControllerAction → Controller × List ControlEvent
  | .drainBackpressure n => (c.drainBackpressure n, [])
  | .drainStored n => (c.drainStored n, [])
  | .drainDropped n => (c.drainDropped n, [])
  | .drainCommands commands now statusNow =>
    (c.drainCommands commands now statusNow,
      (collectControlEvents c.gate commands now).events)
  | .exit => ({ c with phase := .exited }, [.shutdown])

section Functions

theorem applyBackpressureEvents_eq (startBlocked : Bool) (events : List BackpressureEvent) :
    applyBackpressureEvents startBlocked events = (startBlocked || !events.isEmpty) := by
  unfold applyBackpressureEvents
  induction events generalizing startBlocked with
  | nil => simp
  | cons event events ih => simp [ih]

theorem applyEpisodeDroppedEvents_eq (startBlocked : Bool) (events : List EpisodeDropped) :
    applyEpisodeDroppedEvents startBlocked events =
      (!events.isEmpty, startBlocked && events.isEmpty) := by
  have fold (r : Bool × Bool) : events.foldl (fun _ _ => (true, false)) r =
      if events.isEmpty then r else (true, false) := by
    induction events generalizing r with
    | nil => rfl
    | cons event events ih => simp [ih]
  unfold applyEpisodeDroppedEvents
  rw [fold]
  cases events <;> simp

/-- What a stored notice can do to the gate. -/
theorem applyEpisodeStored_cases (r : Bool × Gate) (event : EpisodeStored) :
    (event.episodeIndex < r.2.lifecycle.nextEpisodeIndex ∧
      event.episodeIndex ∉ r.2.lifecycle.storedEpisodeIndices ∧
      (applyEpisodeStored r event).2.startBlocked = false) ∨
    ((r.2.lifecycle.nextEpisodeIndex ≤ event.episodeIndex ∨
        event.episodeIndex ∈ r.2.lifecycle.storedEpisodeIndices) ∧
      applyEpisodeStored r event = r) := by
  unfold applyEpisodeStored EpisodeLifecycle.recordEpisodeStored
  by_cases hn : r.2.lifecycle.nextEpisodeIndex ≤ event.episodeIndex
  · exact Or.inr ⟨Or.inl hn, by simp [hn]⟩
  · by_cases hm : event.episodeIndex ∈ r.2.lifecycle.storedEpisodeIndices
    · exact Or.inr ⟨Or.inr hm, by simp [hn, hm]⟩
    · exact Or.inl ⟨UInt32.not_le.mp hn, hm, by simp [hn, hm]⟩

theorem applyEpisodeStored_lifecycle (r : Bool × Gate) (event : EpisodeStored) :
    (applyEpisodeStored r event).2.lifecycle =
      (r.2.lifecycle.recordEpisodeStored event.episodeIndex).2 := by
  unfold applyEpisodeStored
  split <;> next h => rw [h]

theorem collectControlEvent_cases (now : Instant) (c : Collected)
    (command : EpisodeCommand × UInt64) :
    collectControlEvent now c command = c ∨
    ∃ event, ¬ (command.1 = .start ∧ c.gate.startBlocked = true) ∧
      (c.gate.lifecycle.handleCommand command.1 now command.2).1 = .ok event ∧
      collectControlEvent now c command =
        { gate := ⟨(c.gate.lifecycle.handleCommand command.1 now command.2).2,
            if isDiscard event then false else c.gate.startBlocked⟩
          events := c.events ++ [event]
          statusChanged := true } := by
  unfold collectControlEvent
  by_cases hb : command.1 = .start ∧ c.gate.startBlocked = true
  · exact Or.inl (if_pos hb)
  · rw [if_neg hb]
    cases h : c.gate.lifecycle.handleCommand command.1 now command.2 with
    | mk result lifecycle =>
      cases result with
      | ok event => exact Or.inr ⟨event, hb, rfl, rfl⟩
      | error text =>
        have hl := rejected_command_unchanged (congrArg Prod.fst h)
        rw [h] at hl
        obtain rfl : lifecycle = c.gate.lifecycle := hl
        exact Or.inl rfl

end Functions

section Collect
variable (now : Instant)

theorem collectControlEvents_concat (gate : Gate) (commands : List (EpisodeCommand × UInt64))
    (command : EpisodeCommand × UInt64) :
    collectControlEvents gate (commands ++ [command]) now =
      collectControlEvent now (collectControlEvents gate commands now) command := by
  simp [collectControlEvents]

theorem collectControlEvent_next_le (c : Collected) (command : EpisodeCommand × UInt64) :
    c.gate.lifecycle.nextEpisodeIndex ≤
      (collectControlEvent now c command).gate.lifecycle.nextEpisodeIndex := by
  obtain he | ⟨event, -, -, he⟩ := collectControlEvent_cases now c command <;> rw [he]
  · exact UInt32.le_refl _
  · exact handleCommand_next_le

theorem collectControlEvents_next_le (gate : Gate)
    (commands : List (EpisodeCommand × UInt64)) : gate.lifecycle.nextEpisodeIndex ≤
      (collectControlEvents gate commands now).gate.lifecycle.nextEpisodeIndex := by
  induction commands using List.reverseRecOn with
  | nil => exact UInt32.le_refl _
  | append_singleton commands command ih =>
    rw [collectControlEvents_concat]
    exact UInt32.le_trans ih (collectControlEvent_next_le now _ command)

/-- A batch of commands continues the protocol unless it exhausts the counter. -/
theorem collectControlEvents_protocol {n₀ : ℕ} {gate : Gate} {emitted : List ControlEvent}
    (h : Protocol n₀ gate.lifecycle emitted) (commands : List (EpisodeCommand × UInt64))
    (hmax : (collectControlEvents gate commands now).gate.lifecycle.nextEpisodeIndex < u32Max) :
    Protocol n₀ (collectControlEvents gate commands now).gate.lifecycle
      (emitted ++ (collectControlEvents gate commands now).events) := by
  induction commands using List.reverseRecOn with
  | nil => simpa [collectControlEvents] using h
  | append_singleton commands command ih =>
    rw [collectControlEvents_concat] at hmax ⊢
    have hprev := ih (UInt32.lt_of_le_of_lt (collectControlEvent_next_le now _ command) hmax)
    obtain he | ⟨event, -, hok, he⟩ := collectControlEvent_cases now
      (collectControlEvents gate commands now) command <;> rw [he] at hmax ⊢
    · exact hprev
    · rw [← List.append_assoc]
      exact hprev.handleCommand hok hmax

theorem collectControlEvents_stored (gate : Gate)
    (commands : List (EpisodeCommand × UInt64)) :
    (collectControlEvents gate commands now).gate.lifecycle.storedEpisodeIndices =
      gate.lifecycle.storedEpisodeIndices := by
  induction commands using List.reverseRecOn with
  | nil => rfl
  | append_singleton commands command ih =>
    rw [collectControlEvents_concat]
    obtain he | ⟨event, -, -, he⟩ := collectControlEvent_cases now
      (collectControlEvents gate commands now) command <;> rw [he]
    · exact ih
    · exact (handleCommand_stored _ _ _ _).1.trans ih

/-- A block that outlives the commands was there before them, and nothing was started or
discarded meanwhile. -/
theorem collectControlEvents_blocked {gate : Gate}
    {commands : List (EpisodeCommand × UInt64)}
    (h : (collectControlEvents gate commands now).gate.startBlocked = true) :
    gate.startBlocked = true ∧ ∀ event ∈ (collectControlEvents gate commands now).events,
      startIndex? event = none ∧ isDiscard event = false := by
  induction commands using List.reverseRecOn with
  | nil => exact ⟨h, by simp [collectControlEvents]⟩
  | append_singleton commands command ih =>
    rw [collectControlEvents_concat] at h ⊢
    obtain he | ⟨event, hpass, hok, he⟩ := collectControlEvent_cases now
      (collectControlEvents gate commands now) command <;> rw [he] at h ⊢
    · exact ih h
    · cases hd : isDiscard event with
      | true => simp [hd] at h
      | false =>
        simp only [hd, Bool.false_eq_true, ↓reduceIte] at h
        obtain ⟨hb, hquiet⟩ := ih h
        refine ⟨hb, fun e hmem => ?_⟩
        rcases List.mem_append.mp hmem with hmem | hmem
        · exact hquiet e hmem
        · rw [List.mem_singleton.mp hmem]
          refine ⟨?_, hd⟩
          obtain ⟨-, hc, -⟩ | ⟨-, -, rfl, -⟩ | ⟨-, -, rfl, -⟩ | ⟨-, -, rfl, -⟩ :=
            handleCommand_cases hok
          · exact absurd ⟨hc, h⟩ hpass
          · rfl
          · rfl
          · rfl

end Collect

section Steps
variable {c : Controller} {a : ControllerAction}

theorem next_topic (h : Enabled c a) : (next c a).1.topic = c.topic ++ (next c a).2 := by
  cases a <;> simp only [Enabled] at h <;>
    simp [next, Controller.topic, Controller.drainBackpressure, Controller.drainStored,
      Controller.drainDropped, Controller.drainCommands, h]

theorem next_emitted (c : Controller) (a : ControllerAction) :
    ∃ events, (next c a).1.emitted = c.emitted ++ events := by
  cases a with
  | drainCommands commands now statusNow => exact ⟨_, rfl⟩
  | _ => exact ⟨[], (List.append_nil _).symm⟩

theorem enabled_phase (h : Enabled c a) : c.phase ≠ .exited := by
  cases a <;> simp only [Enabled] at h <;> simp [h]

theorem next_stored_log (c : Controller) (a : ControllerAction) :
    (next c a).1.stored.log = c.stored.log := by
  cases a with
  | drainStored n => exact Queue.log_take c.stored n
  | _ => rfl

theorem next_dropped_log (c : Controller) (a : ControllerAction) :
    (next c a).1.dropped.log = c.dropped.log := by
  cases a with
  | drainDropped n => exact Queue.log_take c.dropped n
  | _ => rfl

end Steps

section Stored
variable (gate : Gate) (events : List EpisodeStored)

theorem applyEpisodeStoredEvents_induction {P : Gate → Prop} (start : P gate)
    (step : ∀ r : Bool × Gate, ∀ event ∈ events, P r.2 → P (applyEpisodeStored r event).2) :
    P (applyEpisodeStoredEvents gate events).2 :=
  PartialRuns.foldl_preserves (P := fun r : Bool × Gate => P r.2)
    (fun event he r hr => step r event he hr) start

theorem applyEpisodeStoredEvents_frame :
    (applyEpisodeStoredEvents gate events).2.lifecycle.state = gate.lifecycle.state ∧
      (applyEpisodeStoredEvents gate events).2.lifecycle.nextEpisodeIndex =
        gate.lifecycle.nextEpisodeIndex := by
  refine applyEpisodeStoredEvents_induction (P := fun g =>
    g.lifecycle.state = gate.lifecycle.state ∧
      g.lifecycle.nextEpisodeIndex = gate.lifecycle.nextEpisodeIndex) gate events ⟨rfl, rfl⟩ ?_
  rintro r event - ⟨hs, hn⟩
  obtain ⟨hs', hn'⟩ := recordEpisodeStored_frame r.2.lifecycle event.episodeIndex
  rw [applyEpisodeStored_lifecycle]
  exact ⟨hs'.trans hs, hn'.trans hn⟩

theorem applyEpisodeStoredEvents_protocol {n₀ : ℕ} {emitted : List ControlEvent}
    (h : Protocol n₀ gate.lifecycle emitted) :
    Protocol n₀ (applyEpisodeStoredEvents gate events).2.lifecycle emitted := by
  refine applyEpisodeStoredEvents_induction (P := fun g => Protocol n₀ g.lifecycle emitted)
    gate events h ?_
  intro r event _ hr
  rw [applyEpisodeStored_lifecycle]
  exact hr.recordEpisodeStored event.episodeIndex

/-- A block that outlives the stored notices: none of them reported a new episode. -/
theorem applyEpisodeStoredEvents_blocked
    (h : (applyEpisodeStoredEvents gate events).2.startBlocked = true) :
    (applyEpisodeStoredEvents gate events).2 = gate ∧ ∀ event ∈ events,
      gate.lifecycle.nextEpisodeIndex ≤ event.episodeIndex ∨
        event.episodeIndex ∈ gate.lifecycle.storedEpisodeIndices := by
  induction events using List.reverseRecOn with
  | nil => exact ⟨rfl, by simp⟩
  | append_singleton events event ih =>
    have hlast : applyEpisodeStoredEvents gate (events ++ [event]) =
        applyEpisodeStored (applyEpisodeStoredEvents gate events) event := by
      simp [applyEpisodeStoredEvents]
    rw [hlast] at h ⊢
    obtain ⟨-, -, hb⟩ | ⟨hold, he⟩ :=
      applyEpisodeStored_cases (applyEpisodeStoredEvents gate events) event
    · rw [hb] at h
      cases h
    · rw [he] at h ⊢
      obtain ⟨hg, hevents⟩ := ih h
      refine ⟨hg, fun e hmem => ?_⟩
      rcases List.mem_append.mp hmem with hmem | hmem
      · exact hevents e hmem
      · rw [List.mem_singleton.mp hmem, ← hg]
        exact hold

theorem applyEpisodeStored_subset (r : Bool × Gate) (event : EpisodeStored) :
    r.2.lifecycle.storedEpisodeIndices ⊆
      (applyEpisodeStored r event).2.lifecycle.storedEpisodeIndices := by
  rw [applyEpisodeStored_lifecycle, recordEpisodeStored_stored]
  split
  · exact Finset.subset_insert ..
  · exact Finset.Subset.refl _

theorem applyEpisodeStoredEvents_records
    (h : ∀ event ∈ events, event.episodeIndex < gate.lifecycle.nextEpisodeIndex) :
    gate.lifecycle.storedEpisodeIndices ⊆
        (applyEpisodeStoredEvents gate events).2.lifecycle.storedEpisodeIndices ∧
      ∀ event ∈ events, event.episodeIndex ∈
        (applyEpisodeStoredEvents gate events).2.lifecycle.storedEpisodeIndices := by
  induction events using List.reverseRecOn with
  | nil => exact ⟨Finset.Subset.refl _, by simp⟩
  | append_singleton events event ih =>
    have hlast : applyEpisodeStoredEvents gate (events ++ [event]) =
        applyEpisodeStored (applyEpisodeStoredEvents gate events) event := by
      simp [applyEpisodeStoredEvents]
    obtain ⟨hsub, hmem⟩ := ih fun e he => h e (List.mem_append_left _ he)
    have hgrow := applyEpisodeStored_subset (applyEpisodeStoredEvents gate events) event
    rw [hlast]
    refine ⟨hsub.trans hgrow, fun e he => ?_⟩
    rcases List.mem_append.mp he with he | he
    · exact hgrow (hmem e he)
    · obtain rfl := List.mem_singleton.mp he
      rw [applyEpisodeStored_lifecycle, recordEpisodeStored_stored,
        (applyEpisodeStoredEvents_frame gate events).2, if_pos (h e (by simp))]
      exact Finset.mem_insert_self ..

end Stored

section Steps
variable {c : Controller} {a : ControllerAction}

theorem next_index_le (c : Controller) (a : ControllerAction) :
    c.gate.lifecycle.nextEpisodeIndex ≤ (next c a).1.gate.lifecycle.nextEpisodeIndex := by
  cases a with
  | drainStored n =>
    exact (applyEpisodeStoredEvents_frame c.gate _).2 ▸ UInt32.le_refl _
  | drainCommands commands now statusNow => exact collectControlEvents_next_le now c.gate commands
  | _ => exact UInt32.le_refl _

theorem next_protocol {n₀ : ℕ} (h : Protocol n₀ c.gate.lifecycle c.emitted)
    (hmax : (next c a).1.gate.lifecycle.nextEpisodeIndex < u32Max) :
    Protocol n₀ (next c a).1.gate.lifecycle (next c a).1.emitted := by
  cases a with
  | drainStored n => exact applyEpisodeStoredEvents_protocol c.gate _ h
  | drainCommands commands now statusNow =>
    exact collectControlEvents_protocol now h commands hmax
  | _ => exact h

end Steps

end CollectLoop
