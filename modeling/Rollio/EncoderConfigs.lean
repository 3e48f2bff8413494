import Rollio.Outcomes
import Rollio.RuntimeConfig

/-! The encoder settings of a camera channel, and the configuration of one encoder process. -/
namespace EncoderConfigs
open BusMessages RuntimeConfig Outcomes
open Text (blank)

inductive EncoderBackend where
  | auto | cpu | nvidia | vaapi | passthrough | horizonX5
  deriving DecidableEq, Repr

inductive ChromaSubsampling where
  | s420 | s422
  deriving DecidableEq, Repr

inductive EncoderColorSpace where
  | auto | bt709Limited | bt601Limited
  deriving DecidableEq, Repr

inductive EncoderRole where
  | recording | preview
  deriving DecidableEq, Repr

inductive PreviewOutputMode where
  | jpeg | encoded
  deriving DecidableEq, Repr

inductive PreviewResizePolicy where
  | dynamic | fixedSource
  deriving DecidableEq, Repr

structure EncoderPreviewConfig where
  outputMode : PreviewOutputMode := .encoded
  colorCodec : EncoderCodec := .h264
  depthCodec : EncoderCodec := .rvl
  backend : EncoderBackend := .auto
  width : UInt32 := 320
  height : UInt32 := 240
  fps : UInt32 := 15
  gopSeconds : UInt32 := 1
  crf : Option UInt8 := some 26
  jpegQuality : Int32 := 50
  deriving DecidableEq, Repr

def EncoderPreviewConfig.validate (c : EncoderPreviewConfig) : Except String Unit := do
  if c.width = 0 ∨ c.height = 0 then
    throw "encoder.preview: width and height must be > 0"
  if c.fps = 0 ∨ c.fps > 1000 then
    throw ("encoder.preview: fps must be 1..1000, got " ++ toString c.fps)
  if c.gopSeconds = 0 then
    throw "encoder.preview: gop_seconds must be > 0"
  c.crf.forM fun crf =>
    if crf > 51 then throw ("encoder.preview: crf must be 0..=51, got " ++ toString crf)
    else pure ()
  if ¬ (1 ≤ c.jpegQuality ∧ c.jpegQuality ≤ 100) then
    throw "encoder.preview: jpeg_quality must be 1..100"
  if c.outputMode = .encoded ∧ c.colorCodec ≠ .h264 then
    throw ("encoder.preview: output_mode=encoded requires color_codec=h264, got " ++
      c.colorCodec.asStr)
  if c.outputMode = .encoded ∧ c.depthCodec ≠ .rvl then
    throw ("encoder.preview: output_mode=encoded requires depth_codec=rvl, got " ++
      c.depthCodec.asStr)

structure EncoderConfig where
  videoCodec : EncoderCodec := .h264
  depthCodec : EncoderCodec := .rvl
  backend : EncoderBackend := .auto
  videoBackend : EncoderBackend := .auto
  depthBackend : EncoderBackend := .auto
  chromaSubsampling : ChromaSubsampling := .s422
  crf : Option UInt8 := none
  preset : Option String := none
  tune : Option String := none
  bitDepth : UInt8 := 8
  colorSpace : EncoderColorSpace := .auto
  queueSize : UInt32 := 32
  preview : EncoderPreviewConfig := {}
  deriving DecidableEq, Repr

/-- Infrared frames are plain pictures, which the depth codec refuses. -/
def EncoderConfig.codecForPixelFormat (c : EncoderConfig) : PixelFormat → EncoderCodec
  | .depth16 => c.depthCodec
  | .gray8 => if c.depthCodec = .rvl then c.videoCodec else c.depthCodec
  | _ => c.videoCodec

def EncoderConfig.backendForPixelFormat (c : EncoderConfig) : PixelFormat → EncoderBackend
  | .depth16 => c.depthBackend
  | .gray8 => if c.depthCodec = .rvl then c.videoBackend else c.depthBackend
  | _ => c.videoBackend

def EncoderConfig.validate (c : EncoderConfig) : Except String Unit := do
  if c.queueSize = 0 then
    throw "encoder: queue_size must be > 0"
  c.crf.forM fun crf =>
    if crf > 51 then throw ("encoder: crf must be in 0..=51, got " ++ toString crf) else pure ()
  if ¬ (c.bitDepth = 8 ∨ c.bitDepth = 10) then
    throw ("encoder: bit_depth must be 8 or 10, got " ++ toString c.bitDepth)
  c.preset.forM fun preset =>
    if blank preset then
      throw ("encoder: preset must not be an empty string " ++
        "(omit the field to use the libavcodec default)")
    else pure ()
  c.tune.forM fun tune =>
    if blank tune then
      throw ("encoder: tune must not be an empty string " ++
        "(omit the field to use the libavcodec default)")
    else pure ()
  c.preview.validate

structure ChannelRecordConfig where
  videoCodec : Option EncoderCodec := none
  depthCodec : Option EncoderCodec := none
  backend : Option EncoderBackend := none
  videoBackend : Option EncoderBackend := none
  depthBackend : Option EncoderBackend := none
  chromaSubsampling : Option ChromaSubsampling := none
  crf : Option UInt8 := none
  preset : Option String := none
  tune : Option String := none
  bitDepth : Option UInt8 := none
  colorSpace : Option EncoderColorSpace := none
  queueSize : Option UInt32 := none
  deriving DecidableEq, Repr

def ChannelRecordConfig.resolve (c : ChannelRecordConfig) : EncoderConfig :=
  { videoCodec := c.videoCodec.getD .h264
    depthCodec := c.depthCodec.getD .rvl
    backend := c.backend.getD .auto
    videoBackend := c.videoBackend.getD (c.backend.getD .auto)
    depthBackend := c.depthBackend.getD (c.backend.getD .auto)
    chromaSubsampling := c.chromaSubsampling.getD .s422
    crf := c.crf
    preset := c.preset
    tune := c.tune
    bitDepth := c.bitDepth.getD 8
    colorSpace := c.colorSpace.getD .auto
    queueSize := c.queueSize.getD 32
    preview := {} }

structure ChannelPreviewConfig where
  outputMode : Option PreviewOutputMode := none
  colorCodec : Option EncoderCodec := none
  depthCodec : Option EncoderCodec := none
  backend : Option EncoderBackend := none
  width : Option UInt32 := none
  height : Option UInt32 := none
  fps : Option UInt32 := none
  gopSeconds : Option UInt32 := none
  crf : Option UInt8 := none
  jpegQuality : Option Int32 := none
  deriving DecidableEq, Repr

def ChannelPreviewConfig.resolve (c : ChannelPreviewConfig) : EncoderPreviewConfig :=
  { outputMode := c.outputMode.getD .encoded
    colorCodec := c.colorCodec.getD .h264
    depthCodec := c.depthCodec.getD .rvl
    backend := c.backend.getD .auto
    width := c.width.getD 320
    height := c.height.getD 240
    fps := c.fps.getD 15
    gopSeconds := c.gopSeconds.getD 1
    crf := c.crf.or (some 26)
    jpegQuality := c.jpegQuality.getD 50 }

structure RecordingEncoderConfig where
  codec : EncoderCodec
  backend : EncoderBackend
  queueSize : UInt32
  fps : UInt32
  packetTopic : String
  chromaSubsampling : ChromaSubsampling
  crf : Option UInt8
  preset : Option String
  tune : Option String
  bitDepth : UInt8
  colorSpace : EncoderColorSpace
  deriving DecidableEq, Repr

def RecordingEncoderConfig.validate (c : RecordingEncoderConfig) : Except String Unit := do
  if blank c.packetTopic then
    throw "encoder runtime v2: recording.packet_topic must not be empty"
  if c.fps = 0 ∨ c.fps > 1000 then
    throw ("encoder runtime v2: recording.fps must be 1..1000, got " ++ toString c.fps)
  EncoderConfig.validate
    { videoCodec := c.codec
      depthCodec := c.codec
      backend := c.backend
      videoBackend := c.backend
      depthBackend := c.backend
      chromaSubsampling := c.chromaSubsampling
      crf := c.crf
      preset := c.preset
      tune := c.tune
      bitDepth := c.bitDepth
      colorSpace := c.colorSpace
      queueSize := c.queueSize
      preview := {} }

structure PreviewEncoderConfig where
  outputMode : PreviewOutputMode
  colorCodec : EncoderCodec
  depthCodec : EncoderCodec
  backend : EncoderBackend
  resizePolicy : PreviewResizePolicy
  width : UInt32
  height : UInt32
  fps : UInt32
  gopSeconds : UInt32
  crf : Option UInt8
  jpegQuality : Int32
  packetTopic : Option String
  jpegTopic : Option String
  controlTopic : String
  deriving DecidableEq, Repr

def PreviewEncoderConfig.validate (c : PreviewEncoderConfig) : Except String Unit := do
  if blank c.controlTopic then
    throw "encoder runtime v2: preview.control_topic must not be empty"
  if c.width = 0 ∨ c.height = 0 then
    throw "encoder runtime v2: preview.width and preview.height must be > 0"
  if c.fps = 0 ∨ c.fps > 1000 then
    throw ("encoder runtime v2: preview.fps must be 1..1000, got " ++ toString c.fps)
  if c.gopSeconds = 0 then
    throw "encoder runtime v2: preview.gop_seconds must be > 0"
  if ¬ (1 ≤ c.jpegQuality ∧ c.jpegQuality ≤ 100) then
    throw "encoder runtime v2: preview.jpeg_quality must be 1..100"
  match c.outputMode with
  | .encoded =>
    if c.colorCodec ≠ .h264 then
      throw ("encoder runtime v2: preview.output_mode=encoded requires color_codec=h264, got " ++
        c.colorCodec.asStr)
    if c.depthCodec ≠ .rvl then
      throw ("encoder runtime v2: preview.output_mode=encoded requires depth_codec=rvl, got " ++
        c.depthCodec.asStr)
    if c.packetTopic.all blank then
      throw "encoder runtime v2: preview.output_mode=encoded requires packet_topic"
  | .jpeg =>
    if c.resizePolicy = .fixedSource then
      throw ("encoder runtime v2: preview.resize_policy=fixed-source requires " ++
        "output_mode=encoded")
    if c.jpegTopic.all blank then
      throw "encoder runtime v2: preview.output_mode=jpeg requires jpeg_topic"

structure EncoderRuntimeConfigV2 where
  processId : String
  channelId : String
  frameTopic : String
  role : EncoderRole
  recording : Option RecordingEncoderConfig
  preview : Option PreviewEncoderConfig
  deriving DecidableEq, Repr

def EncoderRuntimeConfigV2.validate (c : EncoderRuntimeConfigV2) : Except String Unit := do
  if blank c.processId ∨ blank c.channelId ∨ blank c.frameTopic then
    throw "encoder runtime v2: process_id, channel_id, and frame_topic must not be empty"
  match c.role with
  | .recording =>
    let recording ← okOr c.recording "encoder runtime v2: role=recording requires [recording] block"
    if c.preview.isSome then
      throw "encoder runtime v2: role=recording must not include [preview] block"
    recording.validate
  | .preview =>
    let preview ← okOr c.preview "encoder runtime v2: role=preview requires [preview] block"
    if c.recording.isSome then
      throw "encoder runtime v2: role=preview must not include [recording] block"
    preview.validate

theorem preview_defaults_valid : ({} : EncoderPreviewConfig).validate = .ok () := by decide

theorem encoderConfig_validate_iff {c : EncoderConfig} : c.validate = .ok () ↔
    c.queueSize ≠ 0 ∧ (∀ crf, c.crf = some crf → ¬ crf > 51) ∧
      (c.bitDepth = 8 ∨ c.bitDepth = 10) ∧ (∀ preset, c.preset = some preset → ¬ blank preset) ∧
      (∀ tune, c.tune = some tune → ¬ blank tune) ∧ c.preview.validate = .ok () := by
  simp only [EncoderConfig.validate, bind_eq_ok, exists_unit, check_eq_ok, option_forM_eq_ok,
    last_check_eq_ok, not_not, ne_eq]

end EncoderConfigs
