import Rollio.Queues
import Rollio.RecordingEncoder

/-! A recording encoder process: its main loop and its worker thread, one receive at a time.
The main loop's topics are delayed at will; the channels between the two threads are not, so
a loop over one of them ends only when it is empty. -/
namespace EncoderProcess
open BusMessages RecordingEncoder Queues

abbrev Packet := EncodedPacketHeader × List UInt8

/-- What the codec makes of one call. The sessions of all codecs number their packets and
stamp the episode alike and choose the other header fields themselves. -/
structure CodecCall where
  opens : Bool := true
  outputs : List Packet := []
  succeeds : Bool := true
  eos : EncodedPacketHeader := {}
  message : String := ""

structure EncoderSession where
  episodeIndex : UInt32
  nextSequence : UInt64 := 0

namespace EncoderSession

def stamp (s : EncoderSession) (kind : EncodedPacketKind) (header : EncodedPacketHeader) :
    EncodedPacketHeader :=
  { header with kind := kind, sequenceNumber := s.nextSequence, episodeIndex := s.episodeIndex }

def drainPackets (s : EncoderSession) : List Packet → List Packet × EncoderSession
  | [] => ([], s)
  | (header, payload) :: rest =>
    let (packets, s') := { s with nextSequence := s.nextSequence + 1 }.drainPackets rest
    ((s.stamp .packet header, payload) :: packets, s')

def finish (s : EncoderSession) (codec : CodecCall) : List Packet :=
  let (packets, s) := s.drainPackets codec.outputs
  if codec.succeeds then packets ++ [(s.stamp .endOfStream codec.eos, [])] else packets

end EncoderSession

structure PendingEpisode where
  episodeIndex : UInt32
  controllerTsUs : UInt64

inductive WorkerEvent where
  | error (message : String)
  | shutdownComplete
  deriving DecidableEq, Repr

inductive WorkerPhase where
  | controls | frames | wait | check | ended
  deriving DecidableEq, Repr

structure Worker where
  phase : WorkerPhase := .controls
  pendingEpisode : Option PendingEpisode := none
  activeSession : Option EncoderSession := none
  stopAfterDrain : Bool := false
  processedAnyFrame : Bool := false

inductive LoopPhase where
  | events | controls | frames | stop | shutdown | exited
  deriving DecidableEq, Repr

structure Encoder where
  processId : String
  queueSize : ℕ
  phase : LoopPhase := .events
  recordingActive : Bool := false
  requestStop : Bool := false
  requestShutdown : Bool := false
  shutdownRequested : Bool := false
  control : Queue ControlEvent := {}
  commands : Queue WorkerControl := {}
  frames : Queue OwnedFrame := {}
  events : Queue WorkerEvent := {}
  packets : Queue Packet := {}
  worker : Worker := {}

namespace Encoder

section MainLoop

def locals (e : Encoder) : Poll :=
  { recordingActive := e.recordingActive
    requestStop := e.requestStop
    requestShutdown := e.requestShutdown }

/-- Send what one step of the iteration has produced, and go on at `phase`. A worker that has
ended has closed its receivers, and the failing send ends the process. -/
def send (e : Encoder) (phase : LoopPhase) (p : Poll) : Encoder × List BackpressureEvent :=
  if e.worker.phase = .ended ∧ (p.commands ≠ [] ∨ p.queued ≠ []) then
    ({ e with phase := .exited }, [])
  else ({ e with
    phase := phase
    recordingActive := p.recordingActive
    requestStop := p.requestStop
    requestShutdown := p.requestShutdown
    commands := e.commands.publish p.commands
    frames := e.frames.publish p.queued }, p.backpressure)

/-- An error of the worker is answered with a shutdown, and the process ends. -/
def takeEvent (e : Encoder) : Encoder :=
  match e.events.pop with
  | none => e
  | some (.error _, events) => { e with
      events := events
      commands := e.commands.publish [.shutdown]
      phase := .exited }
  | some (.shutdownComplete, events) => { e with events := events, shutdownRequested := true }

def takeControl (e : Encoder) : Encoder × List BackpressureEvent :=
  match e.control.pop with
  | none => (e, [])
  | some (event, control) =>
    { e with control := control }.send .controls (e.locals.onControl event)

/-- The bounded frame channel is full once it holds `queueSize` frames. -/
def takeFrame (e : Encoder) (frame : OwnedFrame) : Encoder × List BackpressureEvent :=
  e.send .frames (e.locals.onFrame e.processId ⟨frame, e.queueSize ≤ e.frames.pending.length⟩)

def forwardStop (e : Encoder) : Encoder × List BackpressureEvent :=
  e.send .shutdown e.locals.forwardStop

/-- The end of an iteration; both requests are fresh locals of the next one. -/
def forwardShutdown (e : Encoder) : Encoder × List BackpressureEvent :=
  e.send (if e.shutdownRequested then .exited else .events)
    { e.locals.forwardShutdown with requestStop := false, requestShutdown := false }

end MainLoop

section Worker

/-- The thread returns; an unfinished session goes with it. -/
def endWorker (e : Encoder) (events : List WorkerEvent) : Encoder :=
  { e with worker := { phase := .ended }, events := e.events.publish events }

def finishSession (e : Encoder) (codec : CodecCall) (worker : Worker)
    (events : List WorkerEvent) : Encoder :=
  match e.worker.activeSession with
  | none => { e with worker := worker, events := e.events.publish events }
  | some session =>
    let e := { e with packets := e.packets.publish (session.finish codec) }
    if codec.succeeds then { e with worker := worker, events := e.events.publish events }
    else e.endWorker [.error codec.message]

def workerControl (e : Encoder) (codec : CodecCall) : Encoder :=
  match e.commands.pop with
  | none => e
  | some (.recordingStart i controllerTsUs, commands) =>
    { e with commands := commands }.finishSession codec
      { phase := .controls, pendingEpisode := some ⟨i, controllerTsUs⟩ } []
  | some (.recordingStop, commands) =>
    { e with commands := commands, worker := { e.worker with stopAfterDrain := true } }
  | some (.droppedFrame, commands) => { e with commands := commands }
  | some (.shutdown, commands) =>
    { e with commands := commands }.finishSession codec { phase := .ended } [.shutdownComplete]

def frameSession (w : Worker) : Option EncoderSession :=
  w.activeSession.or (w.pendingEpisode.map fun episode => ⟨episode.episodeIndex, 0⟩)

/-- A failure here ends the thread without a word to the main loop. -/
def handleFrame (e : Encoder) (codec : CodecCall) : Encoder :=
  match frameSession e.worker with
  | none => e
  | some session =>
    if e.worker.activeSession.isNone && !codec.opens then e.endWorker []
    else
      let (packets, session) := session.drainPackets codec.outputs
      let e := { e with packets := e.packets.publish packets }
      if codec.succeeds then { e with worker := { e.worker with activeSession := some session } }
      else e.endWorker []

def workerFrame (e : Encoder) (codec : CodecCall) : Encoder :=
  match e.frames.pop with
  | none => e
  | some (_, frames) =>
    let phase := if e.worker.phase = .wait then .check else .frames
    let worker := { e.worker with phase := phase, processedAnyFrame := true }
    { e with frames := frames, worker := worker }.handleFrame codec

/-- A stop takes effect in the first round that finds no frame. -/
def workerCheck (e : Encoder) (codec : CodecCall) : Encoder :=
  if e.worker.stopAfterDrain && !e.worker.processedAnyFrame then
    e.finishSession codec { phase := .controls } []
  else { e with worker := { e.worker with phase := .controls } }

end Worker

end Encoder

inductive EncoderAction where
  | takeEvent | eventsDrained | takeControl | controlsDrained
  | takeFrame (frame : OwnedFrame) | framesDrained | forwardStop | forwardShutdown
  | workerControl (codec : CodecCall) | workerControlsDrained
  | workerFrame (codec : CodecCall) | workerFramesDrained | workerTimeout
  | workerCheck (codec : CodecCall)

def Enabled (e : Encoder) : EncoderAction → Prop
  | .takeEvent => e.phase = .events ∧ e.events.pending ≠ []
  | .eventsDrained => e.phase = .events ∧ e.events.pending = []
  | .takeControl => e.phase = .controls ∧ e.control.pending ≠ []
  | .controlsDrained => e.phase = .controls
  | .takeFrame _ => e.phase = .frames
  | .framesDrained => e.phase = .frames
  | .forwardStop => e.phase = .stop
  | .forwardShutdown => e.phase = .shutdown
  | .workerControl _ => e.worker.phase = .controls ∧ e.commands.pending ≠ []
  | .workerControlsDrained => e.worker.phase = .controls ∧ e.commands.pending = []
  | .workerFrame _ =>
    (e.worker.phase = .frames ∨ e.worker.phase = .wait) ∧ e.frames.pending ≠ []
  | .workerFramesDrained => e.worker.phase = .frames ∧ e.frames.pending = []
  | .workerTimeout => e.worker.phase = .wait ∧ e.frames.pending = []
  | .workerCheck _ => e.worker.phase = .check

instance (e : Encoder) (a : EncoderAction) : Decidable (Enabled e a) := by
  cases a <;> simp only [Enabled] <;> infer_instance

/-- The next state, and what goes out on the back-pressure topic. -/
def next (e : Encoder) : EncoderAction → Encoder × List BackpressureEvent
  | .takeEvent => (e.takeEvent, [])
  | .eventsDrained => ({ e with phase := .controls }, [])
  | .takeControl => e.takeControl
  | .controlsDrained => ({ e with phase := .frames }, [])
  | .takeFrame frame => e.takeFrame frame
  | .framesDrained => ({ e with phase := .stop }, [])
  | .forwardStop => e.forwardStop
  | .forwardShutdown => e.forwardShutdown
  | .workerControl codec => (e.workerControl codec, [])
  | .workerControlsDrained =>
    ({ e with worker := { e.worker with phase := .frames, processedAnyFrame := false } }, [])
  | .workerFrame codec => (e.workerFrame codec, [])
  | .workerFramesDrained => ({ e with worker := { e.worker with
      phase := if e.worker.processedAnyFrame then .check else .wait } }, [])
  | .workerTimeout => ({ e with worker := { e.worker with phase := .check } }, [])
  | .workerCheck codec => (e.workerCheck codec, [])

section Topic
variable {e : Encoder}

theorem send_control (e : Encoder) (phase : LoopPhase) (p : Poll) :
    (e.send phase p).1.control = e.control := by
  unfold Encoder.send
  split <;> rfl

theorem finishSession_frame (codec : CodecCall) (w : Worker) (events : List WorkerEvent) :
    (e.finishSession codec w events).commands = e.commands ∧
      (e.finishSession codec w events).control = e.control := by
  unfold Encoder.finishSession
  split
  · exact ⟨rfl, rfl⟩
  · simp only
    split <;> exact ⟨rfl, rfl⟩

theorem handleFrame_control (e : Encoder) (codec : CodecCall) :
    (e.handleFrame codec).control = e.control := by
  unfold Encoder.handleFrame
  split
  · rfl
  · split
    · rfl
    · simp only
      split <;> rfl

theorem takeControl_log (e : Encoder) : e.takeControl.1.control.log = e.control.log := by
  unfold Encoder.takeControl
  split
  · rfl
  · next event control hpop =>
    rw [send_control]
    exact Queue.log_pop hpop

theorem workerControl_control (e : Encoder) (codec : CodecCall) :
    (e.workerControl codec).control = e.control := by
  unfold Encoder.workerControl
  split
  · rfl
  · exact (finishSession_frame codec _ _).2
  · rfl
  · rfl
  · exact (finishSession_frame codec _ _).2

theorem next_control_log (e : Encoder) (a : EncoderAction) :
    (next e a).1.control.log = e.control.log := by
  cases a with
  | takeEvent =>
    simp only [next, Encoder.takeEvent]
    split <;> rfl
  | takeControl => exact takeControl_log e
  | takeFrame frame => exact congrArg Queue.log (send_control e _ _)
  | forwardStop => exact congrArg Queue.log (send_control e _ _)
  | forwardShutdown => exact congrArg Queue.log (send_control e _ _)
  | workerControl codec => exact congrArg Queue.log (workerControl_control e codec)
  | workerFrame codec =>
    simp only [next, Encoder.workerFrame]
    split
    · rfl
    · exact congrArg Queue.log (handleFrame_control _ codec)
  | workerCheck codec =>
    simp only [next, Encoder.workerCheck]
    split
    · exact congrArg Queue.log (finishSession_frame codec _ _).2
    · rfl
  | _ => rfl

theorem send_packets (e : Encoder) (phase : LoopPhase) (p : Poll) :
    (e.send phase p).1.packets = e.packets := by
  unfold Encoder.send
  split <;> rfl

theorem finishSession_packets (codec : CodecCall) (w : Worker) (events : List WorkerEvent) :
    ∃ new, (e.finishSession codec w events).packets = e.packets.publish new := by
  unfold Encoder.finishSession
  split
  · exact ⟨[], (Queue.publish_nil _).symm⟩
  · next session hs =>
    refine ⟨session.finish codec, ?_⟩
    simp only
    split <;> rfl

theorem handleFrame_packets (e : Encoder) (codec : CodecCall) :
    ∃ new, (e.handleFrame codec).packets = e.packets.publish new := by
  unfold Encoder.handleFrame
  split
  · exact ⟨[], (Queue.publish_nil _).symm⟩
  · next session hs =>
    split
    · exact ⟨[], (Queue.publish_nil _).symm⟩
    · refine ⟨(session.drainPackets codec.outputs).1, ?_⟩
      simp only
      split <;> rfl

theorem workerControl_packets (e : Encoder) (codec : CodecCall) :
    ∃ new, (e.workerControl codec).packets = e.packets.publish new := by
  unfold Encoder.workerControl
  split
  · exact ⟨[], (Queue.publish_nil _).symm⟩
  · next i ts commands hpop =>
    exact finishSession_packets (e := { e with commands := commands }) codec _ _
  · exact ⟨[], (Queue.publish_nil _).symm⟩
  · exact ⟨[], (Queue.publish_nil _).symm⟩
  · next commands hpop =>
    exact finishSession_packets (e := { e with commands := commands }) codec _ _

theorem next_packets (e : Encoder) (a : EncoderAction) :
    ∃ new, (next e a).1.packets = e.packets.publish new := by
  cases a with
  | takeEvent =>
    refine ⟨[], ?_⟩
    simp only [next, Encoder.takeEvent, Queue.publish_nil]
    split <;> rfl
  | takeControl =>
    refine ⟨[], ?_⟩
    simp only [next, Encoder.takeControl, Queue.publish_nil]
    split
    · rfl
    · exact send_packets _ _ _
  | takeFrame frame => exact ⟨[], (send_packets e _ _).trans (Queue.publish_nil _).symm⟩
  | forwardStop => exact ⟨[], (send_packets e _ _).trans (Queue.publish_nil _).symm⟩
  | forwardShutdown => exact ⟨[], (send_packets e _ _).trans (Queue.publish_nil _).symm⟩
  | workerControl codec => exact workerControl_packets e codec
  | workerFrame codec =>
    simp only [next, Encoder.workerFrame]
    split
    · exact ⟨[], (Queue.publish_nil _).symm⟩
    · exact handleFrame_packets _ codec
  | workerCheck codec =>
    simp only [next, Encoder.workerCheck]
    split
    · exact finishSession_packets codec _ _
    · exact ⟨[], (Queue.publish_nil _).symm⟩
  | _ => exact ⟨[], (Queue.publish_nil _).symm⟩

end Topic

end EncoderProcess
