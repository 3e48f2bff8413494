import Rollio.CodecSessions

/-! The codec sessions of the graphics cards: a decoder or an upload, a filter graph and an
encoder in a row. The two files of the source share all but the choice of the input stage. -/
namespace HardwareSessions
open BusMessages RecordingEncoder DelayLines CodecSessions
open RuntimeConfig (EncoderCodec)

/-- What the sessions rest on. `opens`, `sends`, `releases` and `body` are those of the encoder,
and `decode` is software decoding, which holds nothing back, or copying a raw picture. -/
structure Hardware extends Libav where
  createHwDevice : Except String Unit := .ok ()
  openDecoder : Except String Unit := .ok ()
  buildScaleGraph : Except String Unit := .ok ()
  /-- Creating the bitstream filter in front of `mjpeg_cuvid`. -/
  newBsf : Except String Unit := .ok ()
  bsf : OwnedFrame → Except String Unit
  /-- `send_packet` of the decoder on the card. -/
  sendPacket : OwnedFrame → Except String Unit
  /-- `send_frame` of the filter graph. -/
  sendFilter : OwnedFrame → Except String Unit
  decoderReleases : ℕ → ℕ
  filterReleases : ℕ → ℕ

inductive InputStrategy where
  | cuvid | cuvidWithMjpegBsf | cpuDecode | raw
  deriving DecidableEq, Repr

/-- `input_strategy` of `libav_vaapi.rs`. -/
def VaapiHwSession.inputStrategy : PixelFormat → InputStrategy
  | .mjpeg => .cpuDecode
  | .rgb24 | .bgr24 | .yuyv | .gray8 | .h264AnnexB | .depth16 | .nv12 => .raw

/-- `input_strategy` of `libav_nvidia.rs`. -/
def NvidiaCudaSession.inputStrategy : PixelFormat → InputStrategy
  | .mjpeg => .cuvidWithMjpegBsf
  | .h264AnnexB => .cuvid
  | .rgb24 | .bgr24 | .yuyv | .gray8 | .depth16 | .nv12 => .raw

inductive HwBackend where
  | vaapi | nvidia
  deriving DecidableEq, Repr

def HwBackend.inputStrategy : HwBackend → PixelFormat → InputStrategy
  | .vaapi => VaapiHwSession.inputStrategy
  | .nvidia => NvidiaCudaSession.inputStrategy

inductive InputStage where
  | cuvid (decoder : DelayLine OwnedFrame) (bsf : Bool)
  | cpuDecode
  | raw

structure OutputStage where
  filter : DelayLine AvFrame := {}
  /-- Scaled and not yet received. -/
  scaled : List AvFrame := []
  encoder : AvEncoder := {}

def OutputStage.sendFrame (output : OutputStage) (hw : Hardware) (frame : AvFrame) : OutputStage :=
  let (out, filter) := output.filter.push hw.filterReleases frame
  { output with filter := filter, scaled := output.scaled ++ out }

/-- Until the decoder on the card has put out its first picture there is no output stage. -/
structure HwSession where
  codec : EncoderCodec
  width : UInt32
  height : UInt32
  episodeIndex : UInt32
  recordingStartUs : UInt64
  input : InputStage
  output : Option OutputStage
  nextSequence : UInt64 := 0
  lastPtsUs : Option Int64 := none

namespace HwSession

def buildCuvidPipeline (hw : Hardware) (bsf : Bool) :
    Except String (InputStage × Option OutputStage) := do
  hw.openDecoder
  return (.cuvid {} bsf, none)

/-- The filter graph is seeded with the first picture. -/
def buildCpuDecodePipeline (hw : Hardware) (firstFrame : OwnedFrame) :
    Except String (InputStage × Option OutputStage) := do
  hw.openDecoder
  let _ ← hw.decode firstFrame
  hw.buildScaleGraph
  hw.opens
  hw.sendFilter firstFrame
  return (.cpuDecode, some (({} : OutputStage).sendFrame hw ⟨firstFrame, 0⟩))

def buildRawPipeline (hw : Hardware) : Except String (InputStage × Option OutputStage) := do
  hw.buildScaleGraph
  hw.opens
  return (.raw, some {})

def buildPipeline (hw : Hardware) (firstFrame : OwnedFrame) :
    InputStrategy → Except String (InputStage × Option OutputStage)
  | .cuvid => buildCuvidPipeline hw false
  | .cuvidWithMjpegBsf => do
    hw.newBsf
    buildCuvidPipeline hw true
  | .cpuDecode => buildCpuDecodePipeline hw firstFrame
  | .raw => buildRawPipeline hw

def new (backend : HwBackend) (hw : Hardware) (params : CodecSessionParams)
    (firstFrame : OwnedFrame) : Except String HwSession := do
  hw.createHwDevice
  let (input, output) ← buildPipeline hw firstFrame
    (backend.inputStrategy firstFrame.header.pixelFormat)
  return { codec := params.codec
           width := params.outputWidth
           height := params.outputHeight
           episodeIndex := params.episodeIndex
           recordingStartUs := params.recordingStartUs
           input := input
           output := output }

/-- The pictures that come out of the input stage on this call; all carry its `pts`. -/
def pushInputAndCollect (hw : Hardware) (frame : OwnedFrame) (pts : Int64) :
    InputStage → Except String (List AvFrame × InputStage)
  | .cuvid decoder bsf => do
    if bsf then
      hw.bsf frame
    hw.sendPacket frame
    let (out, decoder) := decoder.push hw.decoderReleases frame
    return (out.map fun picture => ⟨picture, pts⟩, .cuvid decoder bsf)
  | .cpuDecode => do
    let _ ← hw.decode frame
    return ([⟨frame, pts⟩], .cpuDecode)
  | .raw => do
    let _ ← hw.decode frame
    return ([⟨frame, pts⟩], .raw)

def buildCuvidOutputForFrame (hw : Hardware) : Except String OutputStage := do
  hw.buildScaleGraph
  hw.opens
  return {}

/-- Send the decoded pictures into the filter graph, which the first one may have to build. -/
def sendDecoded (hw : Hardware) :
    List AvFrame → Option OutputStage → Except String (Option OutputStage)
  | [], output => .ok output
  | decoded :: rest, output => do
    let output ← match output with
      | none => buildCuvidOutputForFrame hw
      | some output => pure output
    hw.sendFilter decoded.picture
    sendDecoded hw rest (some (output.sendFrame hw decoded))

def sendScaled (hw : Hardware) : List AvFrame → AvEncoder → Except String AvEncoder
  | [], encoder => .ok encoder
  | frame :: scaled, encoder => do
    hw.sends frame.picture
    sendScaled hw scaled (encoder.sendFrame hw.toLibav frame)

def packetHeader (s : HwSession) (frame : CameraFrameHeader) (sequence : UInt64) (pts : Int64)
    (body : PacketBody) : EncodedPacketHeader :=
  { kind := .packet
    codec := encodedCodecId s.codec
    width := s.width
    height := s.height
    pixelFormat := frame.pixelFormat
    ptsUs := pts
    dtsUs := body.dts.getD pts
    durationUs := body.duration
    sequenceNumber := sequence
    sourceTimestampUs := frame.timestampUs
    sourceFrameIndex := frame.frameIndex
    episodeIndex := s.episodeIndex
    payloadLen := UInt32.ofNat body.data.length : EncodedPacketHeader }.setKeyframe body.isKey

/-- Receive the packets that are ready, with the numbers of the next one. -/
def drainEncoderPackets (hw : Hardware) (sink : EncodedPacketSink) (s : HwSession)
    (frame : CameraFrameHeader) :
    List AvFrame → ℕ → UInt64 → Except String (ℕ × UInt64 × List EncodedPacket)
  | [], received, sequence => .ok (received, sequence, [])
  | av :: ready, received, sequence => do
    let body := hw.body received
    let packet ← sink.writePacket
      ⟨av.picture, s.packetHeader frame sequence av.pts body, body.data⟩
    let (received, sequence, packets) ← drainEncoderPackets hw sink s frame ready (received + 1)
      (sequence + 1)
    return (received, sequence, packet :: packets)

def drainFilterAndEncode (hw : Hardware) (sink : EncodedPacketSink) (s : HwSession)
    (frame : CameraFrameHeader) : Except String (HwSession × List EncodedPacket) := do
  match s.output with
  | none => return (s, [])
  | some output =>
    let encoder ← sendScaled hw output.scaled output.encoder
    let (received, sequence, packets) ← s.drainEncoderPackets hw sink frame encoder.ready
      encoder.received s.nextSequence
    let encoder := { encoder with ready := [], received := received }
    return ({ s with
      output := some { output with scaled := [], encoder := encoder }
      nextSequence := sequence }, packets)

def encode (hw : Hardware) (sink : EncodedPacketSink) (s : HwSession) (frame : OwnedFrame) :
    Except String (HwSession × List EncodedPacket) := do
  match computePtsUs frame.header.timestampUs s.recordingStartUs s.lastPtsUs with
  | none => return (s, [])
  | some pts =>
    let (decoded, input) ← pushInputAndCollect hw frame pts s.input
    let output ← sendDecoded hw decoded s.output
    { s with
      lastPtsUs := some pts
      input := input
      output := output }.drainFilterAndEncode hw sink frame.header

/-- Only the encoder is flushed. -/
def finish (hw : Hardware) (sink : EncodedPacketSink) (s : HwSession) :
    Except String (List EncodedPacket × EncodedPacketHeader) := do
  let (sequence, packets) ← match s.output with
    | none => pure (s.nextSequence, [])
    | some output => do
      let encoder := output.encoder.sendEof
      let synth : CameraFrameHeader :=
        { timestampUs := s.recordingStartUs, width := s.width, height := s.height }
      let (_, sequence, packets) ← s.drainEncoderPackets hw sink synth encoder.ready
        encoder.received s.nextSequence
      pure (sequence, packets)
  let eos ← sink.writeEos
    { kind := .endOfStream
      codec := encodedCodecId s.codec
      width := s.width
      height := s.height
      sequenceNumber := sequence
      sourceTimestampUs := s.recordingStartUs
      episodeIndex := s.episodeIndex }
  return (packets, eos)

def encodeAll (hw : Hardware) (sink : EncodedPacketSink) (s : HwSession) :
    List OwnedFrame → Except String (HwSession × List EncodedPacket)
  | [] => .ok (s, [])
  | frame :: frames => do
    let (s, packets) ← s.encode hw sink frame
    let (s, rest) ← s.encodeAll hw sink frames
    return (s, packets ++ rest)

def record (backend : HwBackend) (hw : Hardware) (sink : EncodedPacketSink)
    (params : CodecSessionParams) (firstFrame : OwnedFrame) (frames : List OwnedFrame) :
    Except String (List EncodedPacket) := do
  let s ← new backend hw params firstFrame
  let (s, packets) ← s.encodeAll hw sink (firstFrame :: frames)
  let (rest, _) ← s.finish hw sink
  return packets ++ rest

end HwSession

end HardwareSessions
