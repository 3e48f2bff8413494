import Rollio.AssemblerProcess
import Rollio.CollectLoop
import Rollio.EncoderProcess
import Rollio.StorageProcess

/-! One collect session: the controller, the LeRobot assembler, the local storage and one
recording encoder for each channel, every process taking its steps in any interleaving.
Topics keep their order, and a message may wait for as long as it likes. That none overflows is
assumed: a full packet topic blocks its publisher, but the topics of control, status and back-pressure
have the default buffer of two messages, and who lags behind it loses the oldest. -/
namespace CollectPipeline
open BusMessages RuntimeConfig ControllerEpisode LerobotEpisodeManager
open Queues PartialRuns
open EncoderProcess (Encoder EncoderAction Packet)
open CollectLoop (Controller ControllerAction)
open AssemblerProcess (Assembler AssemblerAction)
open StorageProcess (Storage StorageAction)

structure State where
  controller : Controller
  assembler : Assembler
  storage : Storage
  encoders : String → Encoder

/-- `packet` is the assembler's next receive in its packet loop. -/
inductive Action where
  | controller (a : ControllerAction)
  | assembler (a : AssemblerAction)
  | packet
  | storage (a : StorageAction)
  | encoder (channelId : String) (a : EncoderAction)

namespace State

def visited (s : State) : Option String :=
  s.assembler.phase.subscribers?.bind List.head?

def head? (s : State) (channelId : String) : Option Packet :=
  (s.encoders channelId).packets.pending.head?

def publishControl (s : State) (events : List ControlEvent) : State :=
  { s with
    assembler := { s.assembler with control := s.assembler.control.publish events }
    storage := { s.storage with control := s.storage.control.publish events }
    encoders := fun channelId => { s.encoders channelId with
      control := (s.encoders channelId).control.publish events } }

def publishBackpressure (s : State) (events : List BackpressureEvent) : State :=
  { s with controller := { s.controller with
    backpressure := s.controller.backpressure.publish events } }

def publishDropped (s : State) (events : List EpisodeDropped) : State :=
  { s with controller := { s.controller with dropped := s.controller.dropped.publish events } }

def publishReady (s : State) (events : List EpisodeReady) : State :=
  { s with storage := { s.storage with ready := s.storage.ready.publish events } }

def publishStored (s : State) (events : List EpisodeStored) : State :=
  { s with
    controller := { s.controller with stored := s.controller.stored.publish events }
    assembler := { s.assembler with stored := s.assembler.stored.publish events } }

def takePacket (s : State) : State :=
  match s.visited with
  | none => s
  | some channelId =>
    let encoder := s.encoders channelId
    match encoder.packets.pop with
    | none => s
    | some ((header, payload), packets) => { s with
      assembler := { s.assembler with
        manager := s.assembler.manager.onPacket channelId header payload }
      encoders := Function.update s.encoders channelId { encoder with packets := packets } }

end State

def Enabled (s : State) : Action → Prop
  | .controller a => CollectLoop.Enabled s.controller a
  | .assembler a => AssemblerProcess.Enabled s.assembler a
  | .packet => (s.visited.bind s.head?).isSome = true
  | .storage a => StorageProcess.Enabled s.storage a
  | .encoder channelId a =>
    channelId ∈ s.assembler.subscribers ∧ EncoderProcess.Enabled (s.encoders channelId) a

instance (s : State) (a : Action) : Decidable (Enabled s a) := by
  cases a <;> simp only [Enabled] <;> infer_instance

def next (s : State) : Action → State
  | .controller a =>
    let (controller, events) := CollectLoop.next s.controller a
    { s with controller := controller }.publishControl events
  | .assembler a =>
    let (assembler, out) := AssemblerProcess.next s.assembler a
    { s with assembler := assembler }.publishBackpressure out.backpressure
      |>.publishDropped out.dropped |>.publishReady out.ready
  | .packet => s.takePacket
  | .storage a =>
    let (storage, events) := StorageProcess.next s.storage a
    { s with storage := storage }.publishStored events
  | .encoder channelId a =>
    let (encoder, events) := EncoderProcess.next (s.encoders channelId) a
    { s with encoders := Function.update s.encoders channelId encoder }.publishBackpressure events

def recordingEncoderProcessId (channelId : String) : String :=
  "encoder." ++ channelId.replace "/" "."

def initial (config : AssemblerRuntimeConfigV2) (nextIndex prior : UInt32)
    (queueSize : String → ℕ) : State where
  controller := .initial (EpisodeLifecycle.resumeFromPriorRecordings {} nextIndex prior)
  assembler := .initial config
  storage := {}
  encoders := fun channelId =>
    { processId := recordingEncoderProcessId channelId, queueSize := queueSize channelId }

/-- A run of the session in which every step satisfies `ok`. -/
def Run (ok : State → Action → Prop) : State → State → Prop := Path Enabled next ok

section Scripts

def collectPoll (commands : List EpisodeCommand) : List Action :=
  [.controller (.drainBackpressure 8), .controller (.drainStored 8), .controller (.drainDropped 8),
    .controller (.drainCommands (commands.map (·, 0)) 0 0)]

def encoderPoll (controls : ℕ) (frames : List RecordingEncoder.OwnedFrame) :
    List EncoderAction :=
  .eventsDrained :: List.replicate controls .takeControl ++ .controlsDrained ::
    frames.map .takeFrame ++ [.framesDrained, .forwardStop, .forwardShutdown]

def keyframe : EncoderProcess.CodecCall := { outputs := [({ flags := 1 }, [1])] }

def encodeFirst : List EncoderAction :=
  encoderPoll 1 [⟨{}, []⟩] ++ [.workerControl {}, .workerControlsDrained, .workerFrame keyframe,
    .workerFramesDrained, .workerCheck {}]

def encodeStop : List EncoderAction :=
  encoderPoll 1 [] ++ [.workerControl {}, .workerControlsDrained, .workerFramesDrained,
    .workerTimeout, .workerCheck {}]

def onChannel (channelId : String) (as : List EncoderAction) : List Action :=
  as.map (.encoder channelId)

def assemblerPoll (controls packets : ℕ) (nowUs : UInt64) (sweepAt : Clocks.Instant) :
    List Action :=
  List.replicate controls (.assembler (.takeControl nowUs)) ++ .assembler .controlDrained ::
    List.replicate packets .packet ++ [.assembler .nextSubscriber, .assembler .nextSubscriber,
      .assembler .observationsDrained, .assembler .actionsDrained,
      .assembler (.dispatch nowUs fun _ => 0), .assembler .storedDrained,
      .assembler (.sweep sweepAt)]

def storeOne : List Action :=
  [.storage .eventsDrained, .storage .controlDrained, .storage .takeReady,
    .storage .readyDrained, .storage (.work (.ok "dataset")), .storage .takeEvent]

end Scripts

end CollectPipeline
