import Rollio.LerobotDispatch
import Rollio.Queues

/-! The LeRobot assembler process: its main loop, one receive at a time, and its staging
worker. Whether an episode can be staged is left to the worker's step. -/
namespace AssemblerProcess
open BusMessages RuntimeConfig Clocks LerobotDataset LerobotEpisodeManager LerobotDispatch Queues

inductive WorkerEvent where
  | staged (episode : StagedEpisode)
  | error (message : String)
  | shutdownComplete
  deriving DecidableEq, Repr

/-- The loops of one iteration in order; the packet loop visits the subscribers in turn. -/
inductive LoopPhase where
  | control
  | packets (subscribers : List String)
  | observations | actions | dispatch | stored | sweep | events | exited
  deriving DecidableEq, Repr

/-- The subscribers the packet loop has not finished with. -/
def LoopPhase.subscribers? : LoopPhase → Option (List String)
  | .packets subscribers => some subscribers
  | _ => none

structure Assembler where
  manager : EpisodeManager
  phase : LoopPhase := .control
  shutdownRequested : Bool := false
  control : Queue ControlEvent := {}
  stored : Queue EpisodeStored := {}
  commands : Queue WorkerCommand := {}
  events : Queue WorkerEvent := {}
  workerRunning : Bool := true

structure Outbox where
  backpressure : List BackpressureEvent := []
  dropped : List EpisodeDropped := []
  ready : List EpisodeReady := []

def publishDrop (processId : String) (notice : DropNotice) : Outbox where
  backpressure :=
    if notice.backpressure then [⟨.new 64 processId, .new 64 notice.reason⟩] else []
  dropped := [⟨notice.episodeIndex, .new 64 notice.reason⟩]

def publishDrops (processId : String) (notices : List DropNotice) : Outbox where
  backpressure := notices.flatMap fun notice => (publishDrop processId notice).backpressure
  dropped := notices.flatMap fun notice => (publishDrop processId notice).dropped

def stageEvent (input : EpisodeAssemblyInput) : Except String String → WorkerEvent
  | .ok stagingDir => .staged ⟨input.episodeIndex, stagingDir⟩
  | .error message => .error message

def readyOf : WorkerEvent → List EpisodeReady
  | .staged episode => [⟨episode.episodeIndex, .new 256 episode.stagingDir⟩]
  | .error _ | .shutdownComplete => []

namespace Assembler

def initial (config : AssemblerRuntimeConfigV2) : Assembler where
  manager := .new config

def subscribers (a : Assembler) : List String :=
  a.manager.config.cameras.map (·.channelId)

/-- A shutdown ends the drain at once. -/
def takeControl (a : Assembler) (nowUs : UInt64) : Assembler :=
  match a.control.pop with
  | none => a
  | some (event, control) =>
    let (shutdown, manager) := a.manager.onControlEvent event nowUs
    let a := { a with control := control, manager := manager }
    if shutdown then { a with shutdownRequested := true, phase := .packets a.subscribers } else a

def nextSubscriber (a : Assembler) : Assembler :=
  match a.phase.subscribers? with
  | some (_ :: rest) => { a with phase := .packets rest }
  | _ => { a with phase := .observations }

/-- Notices are published once the dispatch is through. Its error ends the process, and the
manager with it. -/
def dispatch (a : Assembler) (nowUs : UInt64) (now : UInt32 → Instant) : Assembler × Outbox :=
  match dispatchReadyEpisodes a.manager ⟨a.workerRunning, []⟩ nowUs now with
  | .ok d =>
    ({ a with
      manager := d.manager
      commands := a.commands.publish d.worker.sent
      phase := .stored }, publishDrops a.manager.config.processId d.outcome.dropped)
  | .error _ => ({ a with phase := .exited }, {})

def takeStored (a : Assembler) : Assembler :=
  match a.stored.pop with
  | none => a
  | some (event, stored) =>
    { a with stored := stored, manager := (a.manager.releaseSlot event.episodeIndex).2 }

def sweep (a : Assembler) (now : Instant) : Assembler × Outbox :=
  let (leaked, manager) := a.manager.sweepStaleSlots now
  ({ a with manager := manager, phase := .events },
    publishDrops a.manager.config.processId
      (leaked.map fun i => ⟨i, "staging_slot_leak", true⟩))

def takeEvent (a : Assembler) : Assembler × Outbox :=
  match a.events.pop with
  | none => (a, {})
  | some (event, events) =>
    ({ a with
      events := events
      phase := if event = .shutdownComplete then .exited else a.phase }, { ready := readyOf event })

/-- The end of an iteration: the worker is told to shut down once nothing is left to do. -/
def endIteration (a : Assembler) : Assembler :=
  if a.shutdownRequested && a.manager.episodes.isEmpty && a.manager.inFlight.isEmpty then
    { a with
      phase := .control
      commands := a.commands.publish [.shutdown]
      shutdownRequested := false }
  else { a with phase := .control }

def stage (a : Assembler) (result : Except String String) : Assembler :=
  match a.commands.pop with
  | none => a
  | some (.stage input, commands) =>
    { a with commands := commands, events := a.events.publish [stageEvent input result] }
  | some (.shutdown, commands) =>
    { a with
      commands := commands
      events := a.events.publish [.shutdownComplete]
      workerRunning := false }

end Assembler

inductive AssemblerAction where
  | takeControl (nowUs : UInt64) | controlDrained
  | nextSubscriber
  | observation (channelId : String) (stateKind : RobotStateKind) (timestampUs : UInt64)
      (values : List Float)
  | observationsDrained
  | action (channelId : String) (commandKind : RobotCommandKind) (timestampUs : UInt64)
      (values : List Float)
  | actionsDrained
  | dispatch (nowUs : UInt64) (now : UInt32 → Instant)
  | takeStored | storedDrained
  | sweep (now : Instant)
  | takeEvent | eventsDrained
  | stage (result : Except String String)

def Enabled (a : Assembler) : AssemblerAction → Prop
  | .takeControl _ => a.phase = .control ∧ a.control.pending ≠ []
  | .controlDrained => a.phase = .control
  | .nextSubscriber => a.phase.subscribers?.isSome = true
  | .observation .. | .observationsDrained => a.phase = .observations
  | .action .. | .actionsDrained => a.phase = .actions
  | .dispatch .. => a.phase = .dispatch
  | .takeStored => a.phase = .stored ∧ a.stored.pending ≠ []
  | .storedDrained => a.phase = .stored
  | .sweep _ => a.phase = .sweep
  | .takeEvent => a.phase = .events ∧ a.events.pending ≠ []
  | .eventsDrained => a.phase = .events ∧ a.events.pending = []
  | .stage _ => a.workerRunning = true ∧ a.commands.pending ≠ []

instance (a : Assembler) (action : AssemblerAction) : Decidable (Enabled a action) := by
  cases action <;> simp only [Enabled] <;> infer_instance

def next (a : Assembler) : AssemblerAction → Assembler × Outbox
  | .takeControl nowUs => (a.takeControl nowUs, {})
  | .controlDrained => ({ a with phase := .packets a.subscribers }, {})
  | .nextSubscriber => (a.nextSubscriber, {})
  | .observation channelId stateKind timestampUs values =>
    ({ a with manager := a.manager.onObservation channelId stateKind timestampUs values }, {})
  | .observationsDrained => ({ a with phase := .actions }, {})
  | .action channelId commandKind timestampUs values =>
    ({ a with manager := a.manager.onAction channelId commandKind timestampUs values }, {})
  | .actionsDrained => ({ a with phase := .dispatch }, {})
  | .dispatch nowUs now => a.dispatch nowUs now
  | .takeStored => (a.takeStored, {})
  | .storedDrained => ({ a with phase := .sweep }, {})
  | .sweep now => a.sweep now
  | .takeEvent => a.takeEvent
  | .eventsDrained => (a.endIteration, {})
  | .stage result => (a.stage result, {})

/-- Everything one step can do. -/
inductive Step (a : Assembler) : AssemblerAction → Assembler → Outbox → Prop where
  | move {action : AssemblerAction} (phase : LoopPhase)
      (hexit : phase = .exited → a.workerRunning = false) :
    Step a action { a with phase := phase } {}
  | control {event : ControlEvent} {control : Queue ControlEvent} (nowUs : UInt64)
      (phase : LoopPhase) (hphase : phase ≠ .exited) (h : a.control.pop = some (event, control)) :
    Step a (.takeControl nowUs) { a with
      control := control
      manager := (a.manager.onControlEvent event nowUs).2
      shutdownRequested := a.shutdownRequested || (a.manager.onControlEvent event nowUs).1
      phase := phase } {}
  | samples {action : AssemblerAction} {manager : EpisodeManager}
      (hframe : a.manager.Frame manager)
      (hlookup : ∀ (i : UInt32) (e' : PendingEpisode), manager.episodes[i]? = some e' →
        ∃ e, a.manager.episodes[i]? = some e ∧ EpisodeManager.SameRecording e e')
      (hmem : ∀ i, i ∈ manager.episodes ↔ i ∈ a.manager.episodes) :
    Step a action { a with manager := manager } {}
  | dispatch (nowUs : UInt64) (now : UInt32 → Instant) {d : Dispatch}
      (h : dispatchReadyEpisodes a.manager ⟨a.workerRunning, []⟩ nowUs now = .ok d) :
    Step a (.dispatch nowUs now) { a with
      manager := d.manager
      commands := a.commands.publish d.worker.sent
      phase := .stored } (publishDrops a.manager.config.processId d.outcome.dropped)
  | release {event : EpisodeStored} {stored : Queue EpisodeStored}
      (h : a.stored.pop = some (event, stored)) :
    Step a .takeStored { a with
      stored := stored
      manager := (a.manager.releaseSlot event.episodeIndex).2 } {}
  | sweep (now : Instant) : Step a (.sweep now) (a.sweep now).1 (a.sweep now).2
  | event {event : WorkerEvent} {events : Queue WorkerEvent}
      (h : a.events.pop = some (event, events)) :
    Step a .takeEvent { a with
      events := events
      phase := if event = .shutdownComplete then .exited else a.phase } { ready := readyOf event }
  | askShutdown (hr : a.shutdownRequested = true) (he : a.manager.episodes.isEmpty = true)
      (hf : a.manager.inFlight.isEmpty = true) :
    Step a .eventsDrained { a with
      phase := .control
      commands := a.commands.publish [.shutdown]
      shutdownRequested := false } {}
  | stage (result : Except String String) {input : EpisodeAssemblyInput}
      {commands : Queue WorkerCommand} (h : a.commands.pop = some (.stage input, commands)) :
    Step a (.stage result) { a with
      commands := commands
      events := a.events.publish [stageEvent input result] } {}
  | endWorker (result : Except String String) {commands : Queue WorkerCommand}
      (h : a.commands.pop = some (.shutdown, commands)) :
    Step a (.stage result) { a with
      commands := commands
      events := a.events.publish [.shutdownComplete]
      workerRunning := false } {}

section Step
variable {a : Assembler}

theorem step_takeControl {nowUs : UInt64} (hp : a.phase = .control)
    (h : a.control.pending ≠ []) : Step a (.takeControl nowUs) (a.takeControl nowUs) {} := by
  obtain ⟨event, control, hpop⟩ := Queue.pop_of_pending h
  have hs (phase : LoopPhase) (hphase : phase ≠ .exited) := Step.control nowUs phase hphase hpop
  unfold Assembler.takeControl
  rw [hpop]
  cases hf : (a.manager.onControlEvent event nowUs).1 with
  | true => simpa [hf] using hs (.packets _) (by simp)
  | false => simpa [hf] using hs a.phase (by simp [hp])

theorem step_nextSubscriber : Step a .nextSubscriber a.nextSubscriber {} := by
  unfold Assembler.nextSubscriber
  split
  · exact .move (.packets _) (by simp)
  · exact .move .observations (by simp)

theorem step_dispatch {nowUs : UInt64} {now : UInt32 → Instant} :
    Step a (.dispatch nowUs now) (a.dispatch nowUs now).1 (a.dispatch nowUs now).2 := by
  unfold Assembler.dispatch
  split
  · next d h => exact .dispatch nowUs now h
  · next e h =>
    refine .move .exited fun _ => ?_
    cases hr : a.workerRunning with
    | false => rfl
    | true =>
      have hc : (⟨a.workerRunning, []⟩ : Sender).connected = true := hr
      obtain ⟨d, hd⟩ := dispatch_connected (m := a.manager) hc nowUs now
      rw [hd] at h
      cases h

theorem step_endIteration : Step a .eventsDrained a.endIteration {} := by
  unfold Assembler.endIteration
  split
  · next h =>
    simp only [Bool.and_eq_true] at h
    exact .askShutdown h.1.1 h.1.2 h.2
  · exact .move .control (by simp)

theorem step_stage {result : Except String String} (h : a.commands.pending ≠ []) :
    Step a (.stage result) (a.stage result) {} := by
  obtain ⟨command, commands, hpop⟩ := Queue.pop_of_pending h
  unfold Assembler.stage
  rw [hpop]
  cases command with
  | stage input => exact .stage result hpop
  | shutdown => exact .endWorker result hpop

theorem next_step {action : AssemblerAction} (h : Enabled a action) :
    Step a action (next a action).1 (next a action).2 := by
  cases action with
  | takeControl nowUs => exact step_takeControl h.1 h.2
  | controlDrained => exact .move (.packets a.subscribers) (by simp)
  | nextSubscriber => exact step_nextSubscriber
  | observation channelId stateKind timestampUs values =>
    exact .samples (EpisodeManager.frame_onObservation ..)
      (fun i e' => EpisodeManager.onObservation_lookup)
      (EpisodeManager.mem_onObservation a.manager channelId stateKind timestampUs values)
  | observationsDrained => exact .move .actions (by simp)
  | action channelId commandKind timestampUs values =>
    exact .samples (EpisodeManager.frame_onAction ..)
      (fun i e' => EpisodeManager.onAction_lookup)
      (EpisodeManager.mem_onAction a.manager channelId commandKind timestampUs values)
  | actionsDrained => exact .move .dispatch (by simp)
  | dispatch nowUs now => exact step_dispatch
  | takeStored =>
    obtain ⟨event, stored, hpop⟩ := Queue.pop_of_pending h.2
    simp only [next, Assembler.takeStored, hpop]
    exact .release hpop
  | storedDrained => exact .move .sweep (by simp)
  | sweep now => exact .sweep now
  | takeEvent =>
    obtain ⟨event, events, hpop⟩ := Queue.pop_of_pending h.2
    simp only [next, Assembler.takeEvent, hpop]
    exact .event hpop
  | eventsDrained => exact step_endIteration
  | stage result => exact step_stage h.2

variable {a' : Assembler} {action : AssemblerAction} {out : Outbox}

theorem step_control_log (h : Step a action a' out) : a'.control.log = a.control.log := by
  cases h with
  | control nowUs phase hphase h => exact Queue.log_pop h
  | _ => rfl

theorem step_stored_log (h : Step a action a' out) : a'.stored.log = a.stored.log := by
  cases h with
  | release h => exact Queue.log_pop h
  | _ => rfl

theorem step_keyed (h : Step a action a' out) (hk : Keyed a.manager) : Keyed a'.manager := by
  cases h with
  | control nowUs phase hphase h => exact hk.onControlEvent _ nowUs
  | samples hframe hlookup hmem =>
    refine hk.of_entries fun i e' he' => ?_
    obtain ⟨e, he, hs⟩ := hlookup i e' he'
    exact ⟨e, he, hs.episodeIndex⟩
  | dispatch nowUs now h =>
    exact hk.of_entries fun i e he => ⟨e, (dispatched hk h).survives i e he, rfl⟩
  | _ => exact hk

theorem step_config (h : Step a action a' out) (hk : Keyed a.manager) :
    a'.manager.config = a.manager.config ∧
      a'.manager.cameraChannelIds = a.manager.cameraChannelIds := by
  cases h with
  | control nowUs phase hphase h =>
    exact ⟨(EpisodeManager.frame_onControlEvent ..).config,
      (EpisodeManager.frame_onControlEvent ..).cameraChannelIds⟩
  | samples hframe hlookup hmem => exact ⟨hframe.config, hframe.cameraChannelIds⟩
  | dispatch nowUs now h => exact ⟨(dispatched hk h).config, (dispatched hk h).cameraChannelIds⟩
  | _ => exact ⟨rfl, rfl⟩

end Step

end AssemblerProcess
