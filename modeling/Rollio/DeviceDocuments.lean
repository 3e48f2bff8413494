import Rollio.DeviceConfigs
import Rollio.DeviceReader

/-! The TOML document of a device's configuration, as the controller hands it to the device's
process. -/
namespace DeviceDocuments
open BusMessages RuntimeConfig EncoderConfigs TeleopConfig DeviceConfigs
open DeviceReader (deviceKindName pixelFormatName)
open TomlText (TomlSection TomlStyle TomlTable TomlValue)

def deviceFields : List String := ["name", "executable", "driver", "id", "bus_root", "channels"]

def channelFields : List String :=
  ["channel_type", "kind", "enabled", "name", "channel_label", "mode", "dof", "publish_states",
    "recorded_states", "control_frequency_hz", "profile", "preview_enabled", "record_enabled",
    "record", "preview_config", "command_defaults"]

/-- What a structure's fields leave of its table: each key comes once, and none is that of a
field. -/
structure Flattened (fields : List String) (α β : Type) where
  values : List (String × TomlValue α β)
  sections : List (TomlSection α β)
  nodup : (values.map Prod.fst).Nodup
  fresh : ∀ entry ∈ values, entry.1 ∉ fields
  sections_fresh : ∀ s ∈ sections, ∃ key rest, s.path = key :: rest ∧ key ∉ fields

/-- A device's configuration with what is flattened into it, for the channels by their types. -/
structure DeviceDocument (α β : Type) where
  config : BinaryDeviceConfig α
  extra : Flattened deviceFields α β
  channelExtra : String → Flattened channelFields α β

def robotModeName : RobotMode → String
  | .freeDrive => "free-drive"
  | .commandFollowing => "command-following"
  | .identifying => "identifying"
  | .disabled => "disabled"

def encoderBackendName : EncoderBackend → String
  | .auto => "auto"
  | .cpu => "cpu"
  | .nvidia => "nvidia"
  | .vaapi => "vaapi"
  | .passthrough => "passthrough"
  | .horizonX5 => "horizon-x5"

def chromaSubsamplingName : ChromaSubsampling → String
  | .s420 => "s420"
  | .s422 => "s422"

def encoderColorSpaceName : EncoderColorSpace → String
  | .auto => "auto"
  | .bt709Limited => "bt709-limited"
  | .bt601Limited => "bt601-limited"

def previewOutputModeName : PreviewOutputMode → String
  | .jpeg => "jpeg"
  | .encoded => "encoded"

section Writing
variable {α β : Type}

/-- An entry that is left out where the field is not set. -/
def optional {γ : Type} (key : String) (value : γ → TomlValue α β) (field : Option γ) :
    List (String × TomlValue α β) :=
  (field.map fun x => (key, value x)).toList

def codecValue (codec : EncoderCodec) : TomlValue α β := .string codec.asStr

def backendValue (backend : EncoderBackend) : TomlValue α β := .string (encoderBackendName backend)

def u32Value (n : UInt32) : TomlValue α β := .integer n.toNat

def u8Value (n : UInt8) : TomlValue α β := .integer n.toNat

/-- The fields of a profile that the drivers do not take. -/
def otherProfileValues (p : CameraChannelProfile) : List (String × TomlValue α β) :=
  optional "native_pixel_format" .string p.nativePixelFormat ++
    optional "mjpeg_quality" u32Value p.mjpegQuality ++
    optional "h264_bitrate_bps" u32Value p.h264BitrateBps ++
    optional "h264_gop" u32Value p.h264Gop ++
    optional "h264_preset" .string p.h264Preset ++
    optional "h264_tune" .string p.h264Tune ++
    optional "h264_profile" .string p.h264Profile

def profileValues (p : CameraChannelProfile) : List (String × TomlValue α β) :=
  [("width", u32Value p.width), ("height", u32Value p.height), ("fps", u32Value p.fps),
    ("pixel_format", .string (pixelFormatName p.pixelFormat))] ++ otherProfileValues p

def recordValues (c : ChannelRecordConfig) : List (String × TomlValue α β) :=
  optional "video_codec" codecValue c.videoCodec ++
    optional "depth_codec" codecValue c.depthCodec ++
    optional "backend" backendValue c.backend ++
    optional "video_backend" backendValue c.videoBackend ++
    optional "depth_backend" backendValue c.depthBackend ++
    optional "chroma_subsampling" (fun s => .string (chromaSubsamplingName s))
      c.chromaSubsampling ++
    optional "crf" u8Value c.crf ++
    optional "preset" .string c.preset ++
    optional "tune" .string c.tune ++
    optional "bit_depth" u8Value c.bitDepth ++
    optional "color_space" (fun s => .string (encoderColorSpaceName s)) c.colorSpace ++
    optional "queue_size" u32Value c.queueSize

def previewValues (c : ChannelPreviewConfig) : List (String × TomlValue α β) :=
  optional "output_mode" (fun m => .string (previewOutputModeName m)) c.outputMode ++
    optional "color_codec" codecValue c.colorCodec ++
    optional "depth_codec" codecValue c.depthCodec ++
    optional "backend" backendValue c.backend ++
    optional "width" u32Value c.width ++
    optional "height" u32Value c.height ++
    optional "fps" u32Value c.fps ++
    optional "gop_seconds" u32Value c.gopSeconds ++
    optional "crf" u8Value c.crf ++
    optional "jpeg_quality" (fun q => .integer q.toInt) c.jpegQuality

def commandDefaultsValues (defaults : ChannelCommandDefaults α) : List (String × TomlValue α β) :=
  [("joint_mit_kp", .floats defaults.jointMitKp), ("joint_mit_kd", .floats defaults.jointMitKd),
    ("parallel_mit_kp", .floats defaults.parallelMitKp),
    ("parallel_mit_kd", .floats defaults.parallelMitKd)]

/-- The fields of a channel that the drivers do not take. -/
def otherValues (c : DeviceChannelConfigV2 α) : List (String × TomlValue α β) :=
  optional "name" .string c.name ++
    optional "channel_label" .string c.channelLabel ++
    optional "mode" (fun mode => .string (robotModeName mode)) c.mode ++
    optional "dof" u32Value c.dof ++
    [("publish_states", .strings (c.publishStates.map RobotStateKind.topicSuffix)),
      ("recorded_states", .strings (c.recordedStates.map RobotStateKind.topicSuffix))] ++
    optional "control_frequency_hz" .float c.controlFrequencyHz ++
    [("preview_enabled", .boolean c.previewEnabled), ("record_enabled", .boolean c.recordEnabled)]

def channelValues (c : DeviceChannelConfigV2 α) (extra : Flattened channelFields α β) :
    List (String × TomlValue α β) :=
  [("channel_type", .string c.channelType), ("kind", .string (deviceKindName c.kind)),
    ("enabled", .boolean c.enabled)] ++ (otherValues c ++ extra.values)

def subtable (key : String) (values : List (String × TomlValue α β)) : TomlSection α β :=
  { path := ["channels", key], values }

/-- The tables within a channel but for its profile. -/
def otherSections (c : DeviceChannelConfigV2 α) (extra : Flattened channelFields α β) :
    List (TomlSection α β) :=
  (c.record.map fun record => subtable "record" (recordValues record)).toList ++
    (c.previewSettings.map fun preview =>
      subtable "preview_config" (previewValues preview)).toList ++
    [subtable "command_defaults" (commandDefaultsValues c.commandDefaults)] ++
    extra.sections.map fun s => { s with path := "channels" :: s.path }

/-- The entries of a table come before the tables within it. -/
def channelSections (c : DeviceChannelConfigV2 α) (extra : Flattened channelFields α β) :
    List (TomlSection α β) :=
  [{ array := true, path := ["channels"], values := channelValues c extra }] ++
    (c.profile.map fun p => subtable "profile" (profileValues p)).toList ++ otherSections c extra

def identityValues (config : BinaryDeviceConfig α) : List (String × TomlValue α β) :=
  [("name", .string config.name)] ++ optional "executable" .string config.executable ++
    [("driver", .string config.driver), ("id", .string config.id),
      ("bus_root", .string config.busRoot)]

/-- An empty list of channels is a value. -/
def deviceTable (d : DeviceDocument α β) : TomlTable α β :=
  { values := identityValues d.config ++
      (if d.config.channels.isEmpty then [("channels", .strings [])] else []) ++ d.extra.values
    sections := (d.config.channels.flatMap fun c =>
      channelSections c (d.channelExtra c.channelType)) ++ d.extra.sections }

/-- The inline configuration that `build_device_spec` hands to the device's process. -/
def inlineConfig (style : TomlStyle α β) (d : DeviceDocument α β) : List Char :=
  style.text (deviceTable d)

theorem optional_key {γ : Type} {key : String} {value : γ → TomlValue α β} {field : Option γ}
    {entry : String × TomlValue α β} (h : entry ∈ optional key value field) : entry.1 = key := by
  obtain ⟨x, -, rfl⟩ := Option.map_eq_some_iff.mp (Option.mem_toList.mp h)
  rfl

theorem otherValues_key {c : DeviceChannelConfigV2 α} {entry : String × TomlValue α β}
    (h : entry ∈ otherValues c) : entry.1 ∈ ["name", "channel_label", "mode", "dof",
      "publish_states", "recorded_states", "control_frequency_hz", "preview_enabled",
      "record_enabled"] := by
  simp only [otherValues, List.mem_append, List.mem_cons, List.not_mem_nil, or_false] at h
  obtain (((((h | h) | h) | h) | h | h) | h) | h | h := h
  all_goals first
    | rw [optional_key h]
      decide
    | simp [h]

theorem otherProfileValues_key {p : CameraChannelProfile} {entry : String × TomlValue α β}
    (h : entry ∈ otherProfileValues p) : entry.1 ∈ ["native_pixel_format", "mjpeg_quality",
      "h264_bitrate_bps", "h264_gop", "h264_preset", "h264_tune", "h264_profile"] := by
  simp only [otherProfileValues, List.mem_append] at h
  obtain (((((h | h) | h) | h) | h) | h) | h := h
  all_goals
    rw [optional_key h]
    decide

theorem otherSections_path {c : DeviceChannelConfigV2 α} {extra : Flattened channelFields α β}
    {s : TomlSection α β} (h : s ∈ otherSections c extra) :
    ∃ key rest, s.path = "channels" :: key :: rest ∧ key ≠ "profile" := by
  simp only [otherSections, List.mem_append, List.mem_singleton, List.mem_map, Option.mem_toList,
    Option.map_eq_some_iff] at h
  obtain ((⟨record, -, rfl⟩ | ⟨preview, -, rfl⟩) | rfl) | ⟨s, hs, rfl⟩ := h
  · exact ⟨"record", [], rfl, by decide⟩
  · exact ⟨"preview_config", [], rfl, by decide⟩
  · exact ⟨"command_defaults", [], rfl, by decide⟩
  · obtain ⟨key, rest, hpath, hkey⟩ := extra.sections_fresh s hs
    refine ⟨key, rest, congrArg ("channels" :: ·) hpath, ?_⟩
    rintro rfl
    exact hkey (by decide)

end Writing

end DeviceDocuments
