import Mathlib.Algebra.Group.Nat.Defs
import Rollio.DelayLines
import Rollio.RecordingEncoder
import Rollio.RuntimeConfig

/-! The codec sessions of the encoders. The codecs themselves are parameters: a video encoder
is a delay line of pictures, and the depth and hardware encoders answer each frame at once. -/
namespace CodecSessions
open BusMessages RecordingEncoder DelayLines
open RuntimeConfig (EncoderCodec)

def encodedCodecId : EncoderCodec → EncodedCodecId
  | .h264 => .h264
  | .h265 => .h265
  | .av1 => .av1
  | .mjpg => .mjpg
  | .rvl => .rvl

structure CodecSessionParams where
  codec : EncoderCodec
  fps : UInt32
  episodeIndex : UInt32
  recordingStartUs : UInt64
  outputWidth : UInt32
  outputHeight : UInt32
  allowRescale : Bool

structure EncodedPacket where
  encodes : OwnedFrame
  header : EncodedPacketHeader
  payload : List UInt8

abbrev EncodedPacketSink := EncodedPacketHeader → List UInt8 → Except String Unit

def EncodedPacketSink.writePacket (sink : EncodedPacketSink) (packet : EncodedPacket) :
    Except String EncodedPacket := do
  sink packet.header packet.payload
  return packet

def EncodedPacketSink.writeEos (sink : EncodedPacketSink) (header : EncodedPacketHeader) :
    Except String EncodedPacketHeader := do
  sink header []
  return header

def ensureFrameCompatibility (header : CameraFrameHeader) (width height : UInt32)
    (allowRescale : Bool) : Except String Unit :=
  if !allowRescale && (header.width != width || header.height != height) then
    .error ("frame dimensions changed during recording: expected " ++ toString width ++ "x" ++
      toString height ++ ", got " ++ toString header.width ++ "x" ++ toString header.height)
  else .ok ()

section Libav

def toI64? (n : UInt64) : Option Int64 := if n.toNat < 2 ^ 63 then some n.toInt64 else none

/-- The result is also the new `last_pts_us`. `last + 1` wraps, as a release build does. -/
def computePtsUs (frameTimestampUs recordingStartUs : UInt64) (lastPtsUs : Option Int64) :
    Option Int64 := do
  let frame ← toI64? frameTimestampUs
  let start ← toI64? recordingStartUs
  if frame - start < 0 then none
  else match lastPtsUs with
    | some last => if frame - start ≤ last then some (last + 1) else some (frame - start)
    | none => some (frame - start)

structure AvFrame where
  picture : OwnedFrame
  pts : Int64

structure PacketBody where
  dts : Option Int64 := none
  duration : Int64 := 0
  isKey : Bool := false
  data : List UInt8 := []

structure Libav where
  /-- Selecting and opening the encoder. -/
  opens : Except String Unit := .ok ()
  /-- The dimensions of the decoded or copied picture. -/
  decode : OwnedFrame → Except String (UInt32 × UInt32)
  /-- Scaling, uploading and `send_frame`. -/
  sends : OwnedFrame → Except String Unit
  /-- How many packets the `n`th picture makes available. -/
  releases : ℕ → ℕ
  body : ℕ → PacketBody

structure AvEncoder where
  line : DelayLine AvFrame := {}
  /-- Encoded and not yet received. -/
  ready : List AvFrame := []
  received : ℕ := 0

def AvEncoder.sendFrame (encoder : AvEncoder) (av : Libav) (frame : AvFrame) : AvEncoder :=
  let (out, line) := encoder.line.push av.releases frame
  { encoder with line := line, ready := encoder.ready ++ out }

/-- At the end of its input the encoder makes all it holds available. -/
def AvEncoder.sendEof (encoder : AvEncoder) : AvEncoder :=
  { encoder with line := {}, ready := encoder.ready ++ encoder.line.held }

structure LibavCodecSession where
  codec : EncoderCodec
  width : UInt32
  height : UInt32
  episodeIndex : UInt32
  recordingStartUs : UInt64
  allowRescale : Bool
  encoder : AvEncoder := {}
  nextSequence : UInt64 := 0
  lastPtsUs : Option Int64 := none

namespace LibavCodecSession

def new (av : Libav) (params : CodecSessionParams) : Except String LibavCodecSession := do
  av.opens
  return { codec := params.codec
           width := params.outputWidth
           height := params.outputHeight
           episodeIndex := params.episodeIndex
           recordingStartUs := params.recordingStartUs
           allowRescale := params.allowRescale }

def packetHeader (s : LibavCodecSession) (frame : CameraFrameHeader) (pts : Int64)
    (body : PacketBody) : EncodedPacketHeader :=
  { kind := .packet
    codec := encodedCodecId s.codec
    width := s.width
    height := s.height
    pixelFormat := frame.pixelFormat
    ptsUs := pts
    dtsUs := body.dts.getD pts
    durationUs := body.duration
    sequenceNumber := s.nextSequence
    sourceTimestampUs := frame.timestampUs
    sourceFrameIndex := frame.frameIndex
    episodeIndex := s.episodeIndex
    payloadLen := UInt32.ofNat body.data.length : EncodedPacketHeader }.setKeyframe body.isKey

def receivePackets (av : Libav) (sink : EncodedPacketSink) (frame : CameraFrameHeader) :
    List AvFrame → LibavCodecSession → Except String (LibavCodecSession × List EncodedPacket)
  | [], s => .ok (s, [])
  | av' :: ready, s => do
    let body := av.body s.encoder.received
    let packet ← sink.writePacket ⟨av'.picture, s.packetHeader frame av'.pts body, body.data⟩
    let (s, packets) ← receivePackets av sink frame ready
      { s with
        nextSequence := s.nextSequence + 1
        encoder := { s.encoder with ready := ready, received := s.encoder.received + 1 } }
    return (s, packet :: packets)

def drainPackets (av : Libav) (sink : EncodedPacketSink) (s : LibavCodecSession)
    (frame : CameraFrameHeader) : Except String (LibavCodecSession × List EncodedPacket) :=
  receivePackets av sink frame s.encoder.ready s

def encode (av : Libav) (sink : EncodedPacketSink) (s : LibavCodecSession) (frame : OwnedFrame) :
    Except String (LibavCodecSession × List EncodedPacket) := do
  ensureFrameCompatibility frame.header s.width s.height s.allowRescale
  match computePtsUs frame.header.timestampUs s.recordingStartUs s.lastPtsUs with
  | none => return (s, [])
  | some pts =>
    let (width, height) ← av.decode frame
    if !s.allowRescale && (width != s.width || height != s.height) then
      throw ("decoded " ++ frame.header.pixelFormat.debugName ++ " dimensions " ++ toString width ++
        "x" ++ toString height ++ " differ from configured " ++ toString s.width ++ "x" ++ toString s.height)
    av.sends frame
    { s with
      lastPtsUs := some pts
      encoder := s.encoder.sendFrame av ⟨frame, pts⟩ }.drainPackets av sink frame.header

def finish (av : Libav) (sink : EncodedPacketSink) (s : LibavCodecSession) :
    Except String (List EncodedPacket × EncodedPacketHeader) := do
  -- the sentinel frame of the last drain
  let (s, packets) ← { s with encoder := s.encoder.sendEof }.drainPackets av sink {}
  let eos ← sink.writeEos
    { kind := .endOfStream
      codec := encodedCodecId s.codec
      width := s.width
      height := s.height
      ptsUs := s.lastPtsUs.getD 0
      dtsUs := s.lastPtsUs.getD 0
      sequenceNumber := s.nextSequence
      episodeIndex := s.episodeIndex }
  return (packets, eos)

end LibavCodecSession

end Libav

section Rvl

inductive RvlFrameKind where
  | key | delta
  deriving DecidableEq

abbrev DepthEncoder := ℕ → List UInt16 → Except String (RvlFrameKind × List UInt8)

def depth16PayloadToVec : List UInt8 → Option (List UInt16)
  | [] => some []
  | [_] => none
  | low :: high :: rest =>
    (depth16PayloadToVec rest).map fun pixels =>
      (low.toUInt16 ||| high.toUInt16 <<< 8) :: pixels

def u64LeBytes (n : UInt64) : List UInt8 :=
  (List.range 8).map fun i => (n >>> UInt64.ofNat (8 * i)).toUInt8

def u32LeBytes (n : UInt32) : List UInt8 :=
  (List.range 4).map fun i => (n >>> UInt32.ofNat (8 * i)).toUInt8

/-- The nominal duration of a frame; the division panics at zero. -/
def frameDurationUs (fps : UInt32) : Except String Int64 :=
  if fps = 0 then .error "attempt to divide by zero"
  else .ok (1000000 / fps.toUInt64.toInt64)

def saturatingSub (a b : UInt64) : UInt64 := if b ≤ a then a - b else 0

structure RvlCodecSession where
  width : UInt32
  height : UInt32
  fps : UInt32
  episodeIndex : UInt32
  recordingStartUs : UInt64
  encoded : ℕ := 0
  nextSequence : UInt64 := 0

namespace RvlCodecSession

def new (params : CodecSessionParams) (firstFrame : OwnedFrame) :
    Except String RvlCodecSession := do
  if firstFrame.header.pixelFormat ≠ .depth16 then
    throw ("rvl requires depth16 frames, got " ++ firstFrame.header.pixelFormat.debugName)
  return { width := firstFrame.header.width
           height := firstFrame.header.height
           fps := params.fps
           episodeIndex := params.episodeIndex
           recordingStartUs := params.recordingStartUs }

def encode (depth : DepthEncoder) (sink : EncodedPacketSink) (s : RvlCodecSession)
    (frame : OwnedFrame) : Except String (RvlCodecSession × List EncodedPacket) := do
  ensureFrameCompatibility frame.header s.width s.height false
  if frame.header.pixelFormat ≠ .depth16 then
    throw "rvl session received non-depth16 frame"
  let some depthPixels := depth16PayloadToVec frame.payload
    | throw ("depth16 payload must have even length, got " ++ toString frame.payload.length)
  let (kind, payload) ← depth s.encoded depthPixels
  let packetPayload := u64LeBytes frame.header.timestampUs ++ u64LeBytes frame.header.frameIndex ++
    u32LeBytes (UInt32.ofNat payload.length) ++ payload
  let ptsUs := (saturatingSub frame.header.timestampUs s.recordingStartUs).toInt64
  let durationUs ← frameDurationUs s.fps
  let header : EncodedPacketHeader :=
    { kind := .packet
      codec := .rvl
      width := s.width
      height := s.height
      pixelFormat := .depth16
      ptsUs := ptsUs
      dtsUs := ptsUs
      durationUs := durationUs
      sequenceNumber := s.nextSequence
      sourceTimestampUs := frame.header.timestampUs
      sourceFrameIndex := frame.header.frameIndex
      episodeIndex := s.episodeIndex
      payloadLen := UInt32.ofNat packetPayload.length }
  let header := header.setKeyframe (kind == .key)
  -- a delta frame is tagged as a keyframe too
  let header := if kind == .key then header else header.setKeyframe true
  let packet ← sink.writePacket ⟨frame, header, packetPayload⟩
  return ({ s with encoded := s.encoded + 1, nextSequence := s.nextSequence + 1 }, [packet])

def finish (sink : EncodedPacketSink) (s : RvlCodecSession) : Except String EncodedPacketHeader :=
  sink.writeEos
    { kind := .endOfStream
      codec := .rvl
      width := s.width
      height := s.height
      pixelFormat := .depth16
      sequenceNumber := s.nextSequence
      episodeIndex := s.episodeIndex }

end RvlCodecSession

end Rvl

section Passthrough

/-- Where the start codes stand and how long each is; `i` bytes are already behind. -/
def startCodes : ℕ → List UInt8 → List (ℕ × ℕ)
  | i, 0 :: 0 :: 1 :: rest => (i, 3) :: startCodes (i + 3) rest
  | i, 0 :: 0 :: 0 :: 1 :: rest => (i, 4) :: startCodes (i + 4) rest
  | i, _ :: rest => startCodes (i + 1) rest
  | _, [] => []

def naluBodies (bytes : List UInt8) : List (ℕ × ℕ) → List (List UInt8)
  | [] => []
  | [(offset, size)] => [bytes.drop (offset + size)]
  | (offset, size) :: (next, size') :: starts =>
    (bytes.take next).drop (offset + size) :: naluBodies bytes ((next, size') :: starts)

def splitAnnexBNalus (bytes : List UInt8) : List (List UInt8) :=
  naluBodies bytes (startCodes 0 bytes)

def isH264Keyframe (annexB : List UInt8) : Bool :=
  (splitAnnexBNalus annexB).any fun nalu =>
    match nalu with
    | [] => false
    | byte :: _ => [5, 7, 8].contains (byte &&& 0x1F)

structure PassthroughCodecSession where
  width : UInt32
  height : UInt32
  episodeIndex : UInt32
  recordingStartUs : UInt64
  nextSequence : UInt64 := 0

namespace PassthroughCodecSession

def openSession (params : CodecSessionParams) (firstFrame : OwnedFrame) :
    Except String PassthroughCodecSession := do
  if params.codec ≠ .h264 then
    throw ("passthrough backend requires codec=h264, got " ++ params.codec.asStr)
  if firstFrame.header.pixelFormat ≠ .h264AnnexB then
    throw ("passthrough backend requires input pixel_format=h264-annex-b, got " ++
      firstFrame.header.pixelFormat.debugName)
  if params.outputWidth ≠ firstFrame.header.width ∨
      params.outputHeight ≠ firstFrame.header.height then
    throw ("passthrough backend cannot rescale: source dims " ++
      toString firstFrame.header.width ++ "x" ++ toString firstFrame.header.height ++
      " != configured output dims " ++ toString params.outputWidth ++ "x" ++
      toString params.outputHeight ++ ". Set the preview/recording dims equal to the camera's " ++
      "native dims when using a pre-encoded source, or pick a libav backend to transcode.")
  return { width := params.outputWidth
           height := params.outputHeight
           episodeIndex := params.episodeIndex
           recordingStartUs := params.recordingStartUs }

def buildHeader (s : PassthroughCodecSession) (kind : EncodedPacketKind) (frame : OwnedFrame)
    (ptsUs : Int64) (sequence : UInt64) (payloadLen : UInt32) (keyframe : Bool) :
    EncodedPacketHeader :=
  ({ kind := kind
     codec := .h264
     width := s.width
     height := s.height
     pixelFormat := .h264AnnexB
     ptsUs := ptsUs
     dtsUs := ptsUs
     sequenceNumber := sequence
     sourceTimestampUs := frame.header.timestampUs
     sourceFrameIndex := frame.header.frameIndex
     episodeIndex := s.episodeIndex
     payloadLen := payloadLen : EncodedPacketHeader }.setKeyframe keyframe).setScalingLocked true

def encode (sink : EncodedPacketSink) (s : PassthroughCodecSession) (frame : OwnedFrame) :
    Except String (PassthroughCodecSession × List EncodedPacket) := do
  if frame.header.pixelFormat ≠ .h264AnnexB then
    throw ("passthrough session received non-H264AnnexB frame: " ++
      frame.header.pixelFormat.debugName)
  if frame.header.width ≠ s.width ∨ frame.header.height ≠ s.height then
    throw ("passthrough session: source dim drift " ++ toString s.width ++ "x" ++
      toString s.height ++ " -> " ++ toString frame.header.width ++ "x" ++
      toString frame.header.height ++ " (passthrough cannot rescale)")
  let keyframe := isH264Keyframe frame.payload
  let ptsUs := (saturatingSub frame.header.timestampUs s.recordingStartUs).toInt64
  let header := s.buildHeader .packet frame ptsUs s.nextSequence
    (UInt32.ofNat frame.payload.length) keyframe
  let packet ← sink.writePacket ⟨frame, header, frame.payload⟩
  return ({ s with nextSequence := s.nextSequence + 1 }, [packet])

def finish (sink : EncodedPacketSink) (s : PassthroughCodecSession) :
    Except String EncodedPacketHeader :=
  sink.writeEos ({ kind := .endOfStream
                   codec := .h264
                   width := s.width
                   height := s.height
                   pixelFormat := .h264AnnexB
                   sequenceNumber := s.nextSequence
                   sourceTimestampUs := s.recordingStartUs
                   episodeIndex := s.episodeIndex : EncodedPacketHeader }.setScalingLocked true)

end PassthroughCodecSession

end Passthrough

section HorizonX5

structure Vpu where
  opens : Except String Unit := .ok ()
  convert : OwnedFrame → Except String Unit
  encode : ℕ → OwnedFrame → Except Int32 (Bool × List UInt8)

structure HorizonX5Session where
  encodedCodecId : EncodedCodecId
  width : UInt32
  height : UInt32
  fps : UInt32
  encoded : ℕ := 0
  sequence : UInt64 := 0
  episodeIndex : UInt32

namespace HorizonX5Session

def openSession (vpu : Vpu) (params : CodecSessionParams) : Except String HorizonX5Session := do
  match params.codec with
  | .rvl => throw "RVL is a depth codec; not routable to a color backend"
  | .h265 => throw "horizon-x5: codec H265 not supported by VPU"
  | .av1 => throw "horizon-x5: codec Av1 not supported by VPU"
  | .h264 | .mjpg =>
    vpu.opens
    return { encodedCodecId := CodecSessions.encodedCodecId params.codec
             width := params.outputWidth
             height := params.outputHeight
             fps := params.fps
             episodeIndex := params.episodeIndex }

def makeHeader (s : HorizonX5Session) (kind : EncodedPacketKind) (ptsUs : Int64) (isKey : Bool)
    (payloadLen : UInt32) : Except String EncodedPacketHeader := do
  let durationUs ← frameDurationUs s.fps
  return { kind := kind
           codec := s.encodedCodecId
           flags := if isKey then encodedPacketFlagKeyframe else 0
           width := s.width
           height := s.height
           pixelFormat := .nv12
           timeBaseDen := s.fps
           ptsUs := ptsUs
           dtsUs := ptsUs
           durationUs := durationUs
           sequenceNumber := s.sequence
           episodeIndex := s.episodeIndex
           payloadLen := payloadLen }

def encode (vpu : Vpu) (sink : EncodedPacketSink) (s : HorizonX5Session) (frame : OwnedFrame) :
    Except String (HorizonX5Session × List EncodedPacket) := do
  vpu.convert frame
  match vpu.encode s.encoded frame with
  | .error code => throw ("horizon-x5: VPU encode failed with error " ++ toString code)
  | .ok (isKey, data) =>
    let header ← s.makeHeader .packet frame.header.timestampUs.toInt64 isKey
      (UInt32.ofNat data.length)
    let packet ← sink.writePacket ⟨frame, header, data⟩
    return ({ s with encoded := s.encoded + 1, sequence := s.sequence + 1 }, [packet])

def finish (sink : EncodedPacketSink) (s : HorizonX5Session) :
    Except String EncodedPacketHeader := do
  let header ← s.makeHeader .endOfStream 0 false 0
  sink.writeEos header

end HorizonX5Session

end HorizonX5

section Sessions

inductive SessionKind where
  | libav | rvl | passthrough | horizonX5
  deriving DecidableEq

inductive CodecSession where
  | libav (s : LibavCodecSession)
  | rvl (s : RvlCodecSession)
  | passthrough (s : PassthroughCodecSession)
  | horizonX5 (s : HorizonX5Session)

structure Codecs where
  av : Libav
  depth : DepthEncoder
  vpu : Vpu

namespace CodecSession

def openSession (codecs : Codecs) (kind : SessionKind) (params : CodecSessionParams)
    (firstFrame : OwnedFrame) : Except String CodecSession :=
  match kind with
  | .libav => .libav <$> LibavCodecSession.new codecs.av params
  | .rvl => .rvl <$> RvlCodecSession.new params firstFrame
  | .passthrough => .passthrough <$> PassthroughCodecSession.openSession params firstFrame
  | .horizonX5 => .horizonX5 <$> HorizonX5Session.openSession codecs.vpu params

def encode (codecs : Codecs) (sink : EncodedPacketSink) (frame : OwnedFrame) :
    CodecSession → Except String (CodecSession × List EncodedPacket)
  | .libav s => Prod.map .libav id <$> s.encode codecs.av sink frame
  | .rvl s => Prod.map .rvl id <$> s.encode codecs.depth sink frame
  | .passthrough s => Prod.map .passthrough id <$> s.encode sink frame
  | .horizonX5 s => Prod.map .horizonX5 id <$> s.encode codecs.vpu sink frame

def finish (codecs : Codecs) (sink : EncodedPacketSink) :
    CodecSession → Except String (List EncodedPacket × EncodedPacketHeader)
  | .libav s => s.finish codecs.av sink
  | .rvl s => Prod.mk [] <$> s.finish sink
  | .passthrough s => Prod.mk [] <$> s.finish sink
  | .horizonX5 s => Prod.mk [] <$> s.finish sink

def record (codecs : Codecs) (sink : EncodedPacketSink) (s : CodecSession) :
    List OwnedFrame → Except String (List EncodedPacket × EncodedPacketHeader)
  | [] => s.finish codecs sink
  | frame :: frames => do
    let (s, packets) ← s.encode codecs sink frame
    let (rest, eos) ← s.record codecs sink frames
    return (packets ++ rest, eos)

end CodecSession

end Sessions

end CodecSessions
