import Rollio.CodecSessions
import Rollio.EncoderConfigs

/-! The preview encoder. One pass of its loop drains the controls, resizes the producer, and
hands over the newest of the frames that have arrived. -/
namespace PreviewRuntime
open BusMessages RecordingEncoder CodecSessions RuntimeConfig EncoderConfigs

inductive PreviewControl where
  | setSize (width height : UInt32)
  | requestKeyframe
  deriving DecidableEq, Repr

def minPreviewDim : UInt32 := 160

def previewDimAlignment : UInt32 := 16

def isValidPreviewDim (value : UInt32) : Bool :=
  minPreviewDim ≤ value && value % previewDimAlignment == 0

/-- What the loop rests on: the codecs, the choice of a backend for a color codec on this host,
and the rendering and compression of jpeg previews. -/
structure PreviewHost where
  codecs : Codecs
  colorBackend : EncoderCodec → EncoderBackend → PixelFormat → Except String SessionKind
  render : OwnedFrame → UInt32 → UInt32 → Except String (List UInt8)
  compress : List UInt8 → UInt32 → UInt32 → Except String (List UInt8)
  sink : EncodedPacketSink

/-- `open_session`: depth frames and the depth codec go to the depth registry. The passthrough
backend is there on every host, for one codec and one input. -/
def sessionKind (host : PreviewHost) (codec : EncoderCodec) (backend : EncoderBackend)
    (input : PixelFormat) : Except String SessionKind :=
  if codec = .rvl ∨ input = .depth16 then
    if codec = .rvl then .ok .rvl
    else .error (codec.asStr ++ " is a color codec; not routable to a depth backend")
  else if backend = .passthrough then
    if codec = .h264 ∧ input = .h264AnnexB then .ok .passthrough
    else .error ("color backend passthrough does not support codec=" ++ codec.asStr ++
      " input=" ++ input.debugName)
  else host.colorBackend codec backend input

structure PreviewBuilder where
  outputWidth : UInt32
  outputHeight : UInt32
  minIntervalUs : UInt64
  lastEmitUs : Option UInt64 := none
  deriving DecidableEq

def PreviewBuilder.new (outputWidth outputHeight previewFps : UInt32) : PreviewBuilder :=
  { outputWidth, outputHeight
    minIntervalUs := if previewFps = 0 then 0 else 1000000 / previewFps.toUInt64 }

def PreviewBuilder.isEmitDue (builder : PreviewBuilder) (timestampUs : UInt64) : Bool :=
  match builder.lastEmitUs with
  | none => true
  | some last =>
    if builder.minIntervalUs = 0 then last ≤ timestampUs
    else timestampUs == 0 || timestampUs < last || builder.minIntervalUs ≤ timestampUs - last

inductive PreviewState where
  | jpeg (builder : PreviewBuilder)
  | encoded (session : Option CodecSession) (preview : PreviewEncoderConfig)

namespace PreviewState

def openState (preview : PreviewEncoderConfig) : Except String PreviewState :=
  match preview.outputMode with
  | .jpeg =>
    if preview.jpegTopic.isNone then .error "preview jpeg mode requires jpeg_topic"
    else .ok (.jpeg (.new preview.width preview.height preview.fps))
  | .encoded =>
    if preview.packetTopic.isNone then .error "preview encoded mode requires packet_topic"
    else .ok (.encoded none preview)

def currentDims : PreviewState → UInt32 × UInt32
  | .jpeg builder => (builder.outputWidth, builder.outputHeight)
  | .encoded _ preview => (preview.width, preview.height)

/-- The session of a frame, opened at the preview's size if there is none. -/
def sessionFor (host : PreviewHost) (session : Option CodecSession)
    (preview : PreviewEncoderConfig) (frame : OwnedFrame) : Except String CodecSession :=
  match session with
  | some session => .ok session
  | none => do
    let codec := if frame.header.pixelFormat = .depth16 then preview.depthCodec
      else preview.colorCodec
    let kind ← sessionKind host codec preview.backend frame.header.pixelFormat
    CodecSession.openSession host.codecs kind
      { codec := codec
        fps := preview.fps
        episodeIndex := 0
        recordingStartUs := frame.header.timestampUs
        outputWidth := preview.width
        outputHeight := preview.height
        allowRescale := codec ≠ .rvl } frame

/-- A failed call leaves the session open as it was. -/
def handleFrame (host : PreviewHost) (frame : OwnedFrame) :
    PreviewState → PreviewState × Except String (List EncodedPacket)
  | .jpeg builder =>
    if !builder.isEmitDue frame.header.timestampUs then (.jpeg builder, .ok [])
    else
      match host.render frame builder.outputWidth builder.outputHeight with
      | .error e => (.jpeg builder, .error e)
      | .ok rgb =>
        (.jpeg { builder with lastEmitUs := some frame.header.timestampUs }, do
          let data ← host.compress rgb builder.outputWidth builder.outputHeight
          let packet ← host.sink.writePacket
            { encodes := frame
              header :=
                { kind := .packet
                  codec := .mjpg
                  flags := encodedPacketFlagKeyframe
                  width := builder.outputWidth
                  height := builder.outputHeight
                  pixelFormat := .mjpeg
                  sourceTimestampUs := frame.header.timestampUs
                  sourceFrameIndex := frame.header.frameIndex
                  payloadLen := UInt32.ofNat data.length }
              payload := data }
          return [packet])
  | .encoded session preview =>
    match sessionFor host session preview frame with
    | .error e => (.encoded session preview, .error e)
    | .ok opened =>
      match opened.encode host.codecs host.sink frame with
      | .error e => (.encoded (some opened) preview, .error e)
      | .ok (session, packets) => (.encoded (some session) preview, .ok packets)

def resize (host : PreviewHost) (width height : UInt32) :
    PreviewState → PreviewState × List EncodedPacket
  | .jpeg builder => (.jpeg { builder with outputWidth := width, outputHeight := height }, [])
  | .encoded session preview =>
    if preview.resizePolicy = .fixedSource then (.encoded session preview, [])
    else
      let flushed := match session with
        | none => []
        | some session =>
          match session.finish host.codecs host.sink with
          | .error _ => []
          | .ok (packets, _) => packets
      (.encoded none { preview with width, height }, flushed)

end PreviewState

def newDims (policy : PreviewResizePolicy) (dims : UInt32 × UInt32)
    (controls : List PreviewControl) : Option (UInt32 × UInt32) :=
  controls.foldl (fun pending control =>
    match control with
    | .requestKeyframe => pending
    | .setSize width height =>
      if policy = .fixedSource then pending
      else if !isValidPreviewDim width || !isValidPreviewDim height then pending
      else if (width, height) = dims then pending
      else some (width, height)) none

structure Poll where
  controls : List PreviewControl := []
  frames : List OwnedFrame := []

def applyControls (host : PreviewHost) (policy : PreviewResizePolicy) (state : PreviewState)
    (controls : List PreviewControl) : PreviewState × List EncodedPacket :=
  match newDims policy state.currentDims controls with
  | none => (state, [])
  | some (width, height) => state.resize host width height

/-- One pass. Of its frames the newest is handed over; an error is only logged. -/
def pass (host : PreviewHost) (policy : PreviewResizePolicy) (state : PreviewState)
    (poll : Poll) : PreviewState × List EncodedPacket :=
  let (state, flushed) := applyControls host policy state poll.controls
  match poll.frames.getLast? with
  | none => (state, flushed)
  | some frame =>
    match state.handleFrame host frame with
    | (state, .ok packets) => (state, flushed ++ packets)
    | (state, .error _) => (state, flushed)

def run (host : PreviewHost) (policy : PreviewResizePolicy) :
    PreviewState → ℕ → List Poll → List (EncodedPacket × ℕ)
  | _, _, [] => []
  | state, seen, poll :: polls =>
    (pass host policy state poll).2.map (fun packet => (packet, seen + poll.frames.length - 1)) ++
      run host policy (pass host policy state poll).1 (seen + poll.frames.length) polls

end PreviewRuntime
