import Rollio.BusMessages

/-! The main loop of a recording encoder. One poll drains the control topic, then the frame
topic, and only then forwards a stop or a shutdown. -/
namespace RecordingEncoder
open BusMessages

structure OwnedFrame where
  header : CameraFrameHeader
  payload : List UInt8
  deriving DecidableEq

inductive WorkerControl where
  | recordingStart (episodeIndex : UInt32) (controllerTsUs : UInt64)
  | recordingStop
  | droppedFrame
  | shutdown
  deriving DecidableEq, Repr

/-- A received frame, and whether the bounded frame channel is full when it is offered. -/
structure FrameArrival where
  frame : OwnedFrame
  full : Bool

structure Poll where
  recordingActive : Bool
  requestStop : Bool := false
  requestShutdown : Bool := false
  commands : List WorkerControl := []
  queued : List OwnedFrame := []
  backpressure : List BackpressureEvent := []

namespace Poll

def onControl (p : Poll) : ControlEvent → Poll
  | .recordingStart i controllerTsUs => { p with
      commands := p.commands ++ [.recordingStart i controllerTsUs]
      recordingActive := true }
  | .recordingStop _ _ => { p with requestStop := true }
  | .shutdown => { p with requestShutdown := true }
  | .episodeKeep _ | .episodeDiscard _ | .modeSwitch _ => p

def frameBackpressure (processId : String) : BackpressureEvent :=
  ⟨.new 64 processId, .new 64 "frame_queue"⟩

def onFrame (processId : String) (p : Poll) (arrival : FrameArrival) : Poll :=
  if !p.recordingActive then p
  else if arrival.full then { p with
    backpressure := p.backpressure ++ [frameBackpressure processId]
    commands := p.commands ++ [.droppedFrame] }
  else { p with queued := p.queued ++ [arrival.frame] }

def forwardStop (p : Poll) : Poll :=
  if p.requestStop then { p with
    commands := p.commands ++ [.recordingStop]
    recordingActive := false }
  else p

def forwardShutdown (p : Poll) : Poll :=
  if p.requestShutdown then { p with
    commands := p.commands ++ [.shutdown]
    recordingActive := false }
  else p

end Poll

def isStart : ControlEvent → Bool
  | .recordingStart _ _ => true
  | _ => false

def isStop : ControlEvent → Bool
  | .recordingStop _ _ => true
  | _ => false

def isShutdown : ControlEvent → Bool
  | .shutdown => true
  | _ => false

def isBoundary (event : ControlEvent) : Bool := isStart event || isStop event

def boundary? : ControlEvent → Option WorkerControl
  | .recordingStart i ts => some (.recordingStart i ts)
  | .recordingStop _ _ => some .recordingStop
  | _ => none

def start? : ControlEvent → Option WorkerControl
  | .recordingStart i ts => some (.recordingStart i ts)
  | _ => none

def isBoundaryCommand : WorkerControl → Bool
  | .recordingStart _ _ | .recordingStop => true
  | .droppedFrame | .shutdown => false

/-- The start and stop commands among everything sent to the worker. -/
def boundaries (commands : List WorkerControl) : List WorkerControl :=
  commands.filter isBoundaryCommand

/-- The start and stop commands one poll forwards for a batch. -/
def batchBoundaries (events : List ControlEvent) : List WorkerControl :=
  events.filterMap start? ++ if events.any isStop then [.recordingStop] else []

def batchFlag (recordingActive : Bool) (events : List ControlEvent) : Bool :=
  !(events.any isStop || events.any isShutdown) && (recordingActive || events.any isStart)

theorem onFrame_frame (processId : String) (p : Poll) (arrival : FrameArrival) :
    (p.onFrame processId arrival).recordingActive = p.recordingActive ∧
      (p.onFrame processId arrival).requestStop = p.requestStop ∧
      (p.onFrame processId arrival).requestShutdown = p.requestShutdown ∧
      boundaries (p.onFrame processId arrival).commands = boundaries p.commands := by
  unfold Poll.onFrame
  split
  · exact ⟨rfl, rfl, rfl, rfl⟩
  · split
    · exact ⟨rfl, rfl, rfl, by simp [boundaries, isBoundaryCommand]⟩
    · exact ⟨rfl, rfl, rfl, rfl⟩

end RecordingEncoder
