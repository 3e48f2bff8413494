import Mathlib.Data.Finset.Basic

/-! The messages the processes of one collect session exchange. Fixed-width integers
stay fixed-width; a `FixedStringN` keeps its live bytes and its capacity bound. -/
namespace BusMessages

/-- The live prefix of a `FixedStringN`; the zero padding behind `len` is never read. -/
structure FixedString (capacity : ℕ) where
  data : List UInt8
  len_le : data.length ≤ capacity
  deriving DecidableEq

def FixedString.new (capacity : ℕ) (s : String) : FixedString capacity :=
  ⟨s.toUTF8.data.toList.take capacity, List.length_take_le _ _⟩

/-- Bytes that are not UTF-8 (a character cut at the capacity) read back as the empty string. -/
def FixedString.asStr {capacity : ℕ} (f : FixedString capacity) : String :=
  (String.fromUTF8? ⟨f.data.toArray⟩).getD ""

/-- A string within the capacity reads back as it was written. -/
theorem FixedString.asStr_new {capacity : ℕ} {s : String} (h : s.utf8ByteSize ≤ capacity) :
    (FixedString.new capacity s).asStr = s := by
  have hbytes : (⟨(s.toUTF8.data.toList.take capacity).toArray⟩ : ByteArray) = s.toByteArray := by
    rw [List.take_of_length_le (by simpa using h), Array.toArray_toList]
    rfl
  rw [FixedString.asStr, FixedString.new, hbytes, String.fromUTF8?, dif_pos s.isValidUTF8]
  rfl

theorem FixedString.utf8ByteSize_asStr_le {capacity : ℕ} (f : FixedString capacity) :
    f.asStr.utf8ByteSize ≤ capacity := by
  rw [FixedString.asStr, String.fromUTF8?]
  split
  · exact f.len_le
  · exact Nat.zero_le _

inductive ControlEvent where
  | recordingStart (episodeIndex : UInt32) (controllerTsUs : UInt64)
  | recordingStop (episodeIndex : UInt32) (controllerTsUs : UInt64)
  | episodeKeep (episodeIndex : UInt32)
  | episodeDiscard (episodeIndex : UInt32)
  | shutdown
  | modeSwitch (targetMode : UInt32)
  deriving DecidableEq, Repr

inductive EpisodeCommand where
  | start | stop | keep | discard
  deriving DecidableEq, Repr

def EpisodeCommand.asStr : EpisodeCommand → String
  | .start => "episode_start"
  | .stop => "episode_stop"
  | .keep => "episode_keep"
  | .discard => "episode_discard"

inductive EpisodeState where
  | idle | recording | pending
  deriving DecidableEq, Repr

def EpisodeState.asStr : EpisodeState → String
  | .idle => "idle"
  | .recording => "recording"
  | .pending => "pending"

structure EpisodeStatus where
  state : EpisodeState
  episodeCount : UInt32
  elapsedMs : UInt64
  deriving DecidableEq, Repr

structure EpisodeReady where
  episodeIndex : UInt32
  stagingDir : FixedString 256
  deriving DecidableEq

structure EpisodeStored where
  episodeIndex : UInt32
  outputPath : FixedString 256
  deriving DecidableEq

structure EpisodeDropped where
  episodeIndex : UInt32
  reason : FixedString 64
  deriving DecidableEq

structure BackpressureEvent where
  processId : FixedString 64
  queueName : FixedString 64
  deriving DecidableEq

inductive PixelFormat where
  | rgb24 | bgr24 | yuyv | mjpeg | depth16 | gray8 | h264AnnexB | nv12
  deriving DecidableEq, Repr

def PixelFormat.debugName : PixelFormat → String
  | .rgb24 => "Rgb24"
  | .bgr24 => "Bgr24"
  | .yuyv => "Yuyv"
  | .mjpeg => "Mjpeg"
  | .depth16 => "Depth16"
  | .gray8 => "Gray8"
  | .h264AnnexB => "H264AnnexB"
  | .nv12 => "Nv12"

structure CameraFrameHeader where
  timestampUs : UInt64 := 0
  width : UInt32 := 0
  height : UInt32 := 0
  pixelFormat : PixelFormat := .rgb24
  frameIndex : UInt64 := 0
  deriving DecidableEq, Repr

inductive EncodedPacketKind where
  | packet | endOfStream
  deriving DecidableEq, Repr

inductive EncodedCodecId where
  | h264 | h265 | av1 | rvl | mjpg
  deriving DecidableEq, Repr

def encodedPacketFlagKeyframe : UInt32 := 1

def encodedPacketFlagScalingLocked : UInt32 := 4

/-- User header of one encoded packet; the default is the source's `Default` value. -/
structure EncodedPacketHeader where
  kind : EncodedPacketKind := .packet
  codec : EncodedCodecId := .h264
  flags : UInt32 := 0
  width : UInt32 := 0
  height : UInt32 := 0
  pixelFormat : PixelFormat := .rgb24
  timeBaseNum : UInt32 := 1
  timeBaseDen : UInt32 := 1000000
  ptsUs : Int64 := 0
  dtsUs : Int64 := 0
  durationUs : Int64 := 0
  sequenceNumber : UInt64 := 0
  sourceTimestampUs : UInt64 := 0
  sourceFrameIndex : UInt64 := 0
  episodeIndex : UInt32 := 0
  payloadLen : UInt32 := 0
  deriving DecidableEq

def EncodedPacketHeader.isKeyframe (h : EncodedPacketHeader) : Bool :=
  h.flags &&& encodedPacketFlagKeyframe != 0

def EncodedPacketHeader.setKeyframe (h : EncodedPacketHeader) (value : Bool) :
    EncodedPacketHeader :=
  if value then { h with flags := h.flags ||| encodedPacketFlagKeyframe }
  else { h with flags := h.flags &&& ~~~ encodedPacketFlagKeyframe }

def EncodedPacketHeader.setScalingLocked (h : EncodedPacketHeader) (value : Bool) :
    EncodedPacketHeader :=
  if value then { h with flags := h.flags ||| encodedPacketFlagScalingLocked }
  else { h with flags := h.flags &&& ~~~ encodedPacketFlagScalingLocked }

end BusMessages
