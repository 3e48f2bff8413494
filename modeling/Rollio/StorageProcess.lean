import Rollio.BusMessages
import Rollio.Queues

/-! The local LeRobot storage process: its main loop, one receive at a time, and the worker
that stores one episode after the other. The outcome of storing is left to the worker's step. -/
namespace StorageProcess
open BusMessages Queues

structure EpisodeReadyRequest where
  episodeIndex : UInt32
  stagingDir : String
  deriving DecidableEq, Repr

inductive WorkerCommand where
  | store (request : EpisodeReadyRequest)
  | shutdown
  deriving DecidableEq, Repr

inductive WorkerEvent where
  | stored (episodeIndex : UInt32) (outputPath : String)
  | error (message : String)
  | shutdownComplete
  deriving DecidableEq, Repr

inductive LoopPhase where
  | events | control | ready | exited
  deriving DecidableEq, Repr

structure Storage where
  phase : LoopPhase := .events
  shutdownSent : Bool := false
  shutdownComplete : Bool := false
  control : Queue ControlEvent := {}
  ready : Queue EpisodeReady := {}
  commands : Queue WorkerCommand := {}
  events : Queue WorkerEvent := {}
  workerRunning : Bool := true

namespace Storage

/-- A worker that has ended has closed its receiver, and the failing send ends the process. -/
def send (s : Storage) (command : WorkerCommand) : Storage :=
  if s.workerRunning then { s with commands := s.commands.publish [command] }
  else { s with phase := .exited }

def takeEvent (s : Storage) : Storage × List EpisodeStored :=
  match s.events.pop with
  | none => (s, [])
  | some (.stored i outputPath, events) =>
    ({ s with events := events }, [⟨i, .new 256 outputPath⟩])
  | some (.error _, events) =>
    ({ s with events := events, commands := s.commands.publish [.shutdown], phase := .exited }, [])
  | some (.shutdownComplete, events) => ({ s with events := events, shutdownComplete := true }, [])

def takeControl (s : Storage) : Storage :=
  match s.control.pop with
  | none => s
  | some (event, control) =>
    let s := { s with control := control }
    if event = .shutdown ∧ s.shutdownSent = false then
      { s with shutdownSent := true }.send .shutdown
    else s

def takeReady (s : Storage) : Storage :=
  match s.ready.pop with
  | none => s
  | some (event, ready) =>
    { s with ready := ready }.send (.store ⟨event.episodeIndex, event.stagingDir.asStr⟩)

def work (s : Storage) (result : Except String String) : Storage :=
  match s.commands.pop with
  | none => s
  | some (.store request, commands) =>
    let s := { s with commands := commands }
    match result with
    | .ok outputPath =>
      { s with events := s.events.publish [.stored request.episodeIndex outputPath] }
    | .error message =>
      { s with events := s.events.publish [.error message], workerRunning := false }
  | some (.shutdown, commands) =>
    { s with
      commands := commands
      events := s.events.publish [.shutdownComplete]
      workerRunning := false }

end Storage

inductive StorageAction where
  | takeEvent | eventsDrained
  | takeControl | controlDrained
  | takeReady | readyDrained
  | work (result : Except String String)

def Enabled (s : Storage) : StorageAction → Prop
  | .takeEvent => s.phase = .events ∧ s.events.pending ≠ []
  | .eventsDrained => s.phase = .events ∧ s.events.pending = []
  | .takeControl => s.phase = .control ∧ s.control.pending ≠ []
  | .controlDrained => s.phase = .control
  | .takeReady => s.phase = .ready ∧ s.ready.pending ≠ []
  | .readyDrained => s.phase = .ready
  | .work _ => s.workerRunning = true ∧ s.commands.pending ≠ []

instance (s : Storage) (a : StorageAction) : Decidable (Enabled s a) := by
  cases a <;> simp only [Enabled] <;> infer_instance

/-- The next state, and what goes out on the stored topic. -/
def next (s : Storage) : StorageAction → Storage × List EpisodeStored
  | .takeEvent => s.takeEvent
  | .eventsDrained => ({ s with phase := .control }, [])
  | .takeControl => (s.takeControl, [])
  | .controlDrained => ({ s with phase := .ready }, [])
  | .takeReady => (s.takeReady, [])
  | .readyDrained => ({ s with phase := if s.shutdownComplete then .exited else .events }, [])
  | .work result => (s.work result, [])

end StorageProcess
