import Mathlib.Algebra.Group.Nat.Defs
import Rollio.ChannelLogs
import Rollio.LerobotDataset
import Rollio.McapPackets
import Rollio.OrderedTables
import Rollio.Outcomes

/-! Staging of one episode as an MCAP file: a channel for every camera, observation and action,
and behind its declaration the packets or samples of its stream. The files and the libraries that
are written to are a parameter. -/
namespace McapStaging
open BusMessages RuntimeConfig McapPackets ChannelLogs OrderedTables Outcomes Std
open LerobotDataset (episodeDirName)

section Episodes

structure Sample where
  timestampUs : UInt64
  values : List Float

structure PendingEpisode where
  episodeIndex : UInt32
  startTimeUs : UInt64
  stopTimeUs : Option UInt64 := none
  observationSamples : TreeMap String (List Sample) := ∅
  actionSamples : TreeMap String (List Sample) := ∅
  cameraStreams : TreeMap String CameraStreamBuffer
  failedCameras : List String := []

namespace PendingEpisode

def new (episodeIndex : UInt32) (startTimeUs : UInt64) (channelIds : List String) :
    PendingEpisode where
  episodeIndex := episodeIndex
  startTimeUs := startTimeUs
  cameraStreams := channelIds.foldl (fun streams channelId => streams.insert channelId {}) ∅

/-- `entry(key).or_default().push(sample)`. -/
def pushSample (samples : TreeMap String (List Sample)) (key : String) (sample : Sample) :
    TreeMap String (List Sample) :=
  samples.insert key (samples.getD key [] ++ [sample])

def onObservation (e : PendingEpisode) (channelId : String) (stateKind : RobotStateKind)
    (timestampUs : UInt64) (values : List Float) : PendingEpisode :=
  let key := channelId ++ "/" ++ stateKind.topicSuffix
  { e with observationSamples := pushSample e.observationSamples key ⟨timestampUs, values⟩ }

def onAction (e : PendingEpisode) (channelId : String) (commandKind : RobotCommandKind)
    (timestampUs : UInt64) (values : List Float) : PendingEpisode :=
  let key := channelId ++ "/" ++ commandKind.topicSuffix
  { e with actionSamples := pushSample e.actionSamples key ⟨timestampUs, values⟩ }

def onPacket (e : PendingEpisode) (channelId : String) (header : EncodedPacketHeader)
    (payload : List UInt8) : PendingEpisode :=
  match e.cameraStreams[channelId]? with
  | none => e
  | some buffer =>
    let buffer := observe buffer (PacketDeliveries.toDelivery header payload)
    { e with
      cameraStreams := e.cameraStreams.insert channelId buffer
      failedCameras :=
        if buffer.failed.isSome ∧ channelId ∉ e.failedCameras then e.failedCameras ++ [channelId]
        else e.failedCameras }

end PendingEpisode

inductive Arrival where
  | observation (channelId : String) (stateKind : RobotStateKind) (timestampUs : UInt64)
      (values : List Float)
  | action (channelId : String) (commandKind : RobotCommandKind) (timestampUs : UInt64)
      (values : List Float)
  | packet (channelId : String) (header : EncodedPacketHeader) (payload : List UInt8)

def PendingEpisode.onArrival (e : PendingEpisode) : Arrival → PendingEpisode
  | .observation channelId stateKind timestampUs values =>
    e.onObservation channelId stateKind timestampUs values
  | .action channelId commandKind timestampUs values =>
    e.onAction channelId commandKind timestampUs values
  | .packet channelId header payload => e.onPacket channelId header payload

theorem pushSample_lookup (samples : TreeMap String (List Sample)) (key other : String)
    (sample : Sample) : (PendingEpisode.pushSample samples key sample)[other]? =
      if other = key then some (samples[key]?.getD [] ++ [sample]) else samples[other]? := by
  rw [PendingEpisode.pushSample, lookup_insert, TreeMap.getD_eq_getD_getElem?]

/-- The camera streams of an episode are those of the configuration. -/
def StreamsOf (config : AssemblerRuntimeConfigV2) (episode : PendingEpisode) : Prop :=
  ∀ channelId, channelId ∈ episode.cameraStreams ↔
    channelId ∈ config.cameras.map AssemblerCameraRuntimeConfigV2.channelId

theorem streamsOf_new (config : AssemblerRuntimeConfigV2) (episodeIndex : UInt32)
    (startTimeUs : UInt64) : StreamsOf config (PendingEpisode.new episodeIndex startTimeUs
      (config.cameras.map AssemblerCameraRuntimeConfigV2.channelId)) := by
  intro channelId
  rw [PendingEpisode.new, mem_iff_lookup, lookup_foldl_insert]
  by_cases hmem : channelId ∈ config.cameras.map AssemblerCameraRuntimeConfigV2.channelId
  · simp [hmem]
  · simp [hmem]

theorem StreamsOf.onPacket {config : AssemblerRuntimeConfigV2} {episode : PendingEpisode}
    (h : StreamsOf config episode) (channelId : String) (header : EncodedPacketHeader)
    (payload : List UInt8) : StreamsOf config (episode.onPacket channelId header payload) := by
  unfold PendingEpisode.onPacket
  cases hbuffer : episode.cameraStreams[channelId]? with
  | none => exact h
  | some buffer =>
    intro other
    rw [mem_insert]
    refine Iff.trans ⟨?_, Or.inr⟩ (h other)
    rintro (rfl | hother)
    · exact mem_iff_lookup.mpr ⟨buffer, hbuffer⟩
    · exact hother

/-- Whatever arrives, an episode that was started for the configuration's cameras has theirs. -/
theorem streamsOf_arrivals (config : AssemblerRuntimeConfigV2) (episodeIndex : UInt32)
    (startTimeUs : UInt64) (arrivals : List Arrival) :
    StreamsOf config (arrivals.foldl PendingEpisode.onArrival
      (PendingEpisode.new episodeIndex startTimeUs
        (config.cameras.map AssemblerCameraRuntimeConfigV2.channelId))) := by
  induction arrivals using List.reverseRecOn with
  | nil => exact streamsOf_new config episodeIndex startTimeUs
  | append_singleton arrivals arrival ih =>
    rw [List.foldl_append, List.foldl_cons, List.foldl_nil]
    cases arrival with
    | observation => exact ih
    | action => exact ih
    | packet channelId header payload => exact ih.onPacket channelId header payload

end Episodes

section Encoding

structure Time where
  sec : UInt32
  nsec : UInt32
  deriving DecidableEq, Repr

def timeFromUs (timestampUs : UInt64) : Time where
  sec := (timestampUs / 1000000).toUInt32
  nsec := (timestampUs % 1000000 * 1000).toUInt32

structure CompressedVideoArgs where
  timestamp : Time
  frameId : String
  format : String
  data : List UInt8

structure JointStateArgs where
  name : String
  position : Option Float := none
  velocity : Option Float := none
  acceleration : Option Float := none
  effort : Option Float := none

structure JointStatesArgs where
  timestamp : Time
  joints : List JointStateArgs

structure FlatBuffers where
  compressedVideo : CompressedVideoArgs → List UInt8
  jointStates : JointStatesArgs → List UInt8

def encodeCompressedVideo (fbb : FlatBuffers) (timestampUs : UInt64) (frameId format : String)
    (data : List UInt8) : List UInt8 :=
  fbb.compressedVideo ⟨timeFromUs timestampUs, frameId, format, data⟩

/-- Joints without a name are numbered. -/
def encodeJointStates (fbb : FlatBuffers) (timestampUs : UInt64) (values : List Float)
    (jointNames : Option (List String)) : List UInt8 :=
  let joints := values.zipIdx.map fun (val, i) =>
    let name := jointNames.elim "" fun names => names[i]?.getD "?"
    { name := if name = "" then "j" ++ toString i else name, position := some val }
  fbb.jointStates ⟨timeFromUs timestampUs, joints⟩

end Encoding

section Writer

inductive SchemaType where
  | compressedVideo | rawImage | jointStates | imu | tactileData | cameraCalibration
  | frameTransform
  deriving DecidableEq, Repr

def SchemaType.schemaName : SchemaType → String
  | .compressedVideo => "foxglove.CompressedVideo"
  | .rawImage => "foxglove.RawImage"
  | .jointStates => "foxglove.JointStates"
  | .imu => "discover.Imu"
  | .tactileData => "discover.TactileData"
  | .cameraCalibration => "foxglove.CameraCalibration"
  | .frameTransform => "foxglove.FrameTransform"

def SchemaType.bfbsFilename : SchemaType → String
  | .compressedVideo => "CompressedVideo.bfbs"
  | .rawImage => "RawImage.bfbs"
  | .jointStates => "JointStates.bfbs"
  | .imu => "Imu.bfbs"
  | .tactileData => "TactileData.bfbs"
  | .cameraCalibration => "CameraCalibration.bfbs"
  | .frameTransform => "FrameTransform.bfbs"

structure Message where
  sequence : UInt32
  logTime : UInt64
  publishTime : UInt64
  data : List UInt8
  deriving DecidableEq

/-- What the library's writer has been given and has taken. -/
structure Handed where
  log : Log UInt16 String Message := {}
  metadata : List (String × TreeMap String String) := []

structure Backends where
  createDirAll : String → Except String Unit
  createFile : String → Except String Unit
  readFile : String → Except String (List UInt8)
  startFile : Except String Unit
  addSchema : Handed → String → List UInt8 → Except String UInt16
  addChannel : Handed → UInt16 → String → Except String UInt16
  writeToKnownChannel : Handed → UInt16 → Message → Except String Unit
  writeMetadata : Handed → String → TreeMap String String → Except String Unit
  finish : Handed → Except String Unit
  fbb : FlatBuffers

/-- A channel shares its id only with channels of its topic. -/
def Backends.OwnIds (b : Backends) : Prop :=
  ∀ handed schemaId topic id, b.addChannel handed schemaId topic = .ok id →
    ∀ channel ∈ handed.log.channels, channel.2 ≠ topic → channel.1 ≠ id

structure McapChannel where
  channelId : UInt16
  topic : String
  schemaType : SchemaType
  sequence : UInt32

structure McapEpisodeWriter where
  channels : List McapChannel := []
  schemaIds : List (SchemaType × UInt16) := []
  handed : Handed := {}

namespace McapEpisodeWriter
variable (b : Backends)

def new (outputPath : String) : Except String McapEpisodeWriter := do
  b.createFile outputPath
  b.startFile
  return {}

def ensureSchema (w : McapEpisodeWriter) (schemaType : SchemaType) (bfbsDir : String) :
    Except String (McapEpisodeWriter × UInt16) :=
  match w.schemaIds.lookup schemaType with
  | some id => .ok (w, id)
  | none => do
    let bfbsPath := bfbsDir ++ "/" ++ schemaType.bfbsFilename
    let schemaData ← (b.readFile bfbsPath).mapError fun e =>
      "Failed to read schema file " ++ bfbsPath ++ ": " ++ e
    let schemaId ← b.addSchema w.handed schemaType.schemaName schemaData
    return ({ w with schemaIds := w.schemaIds ++ [(schemaType, schemaId)] }, schemaId)

def addChannel (w : McapEpisodeWriter) (topic : String) (schemaType : SchemaType)
    (bfbsDir : String) : Except String (McapEpisodeWriter × ℕ) := do
  let (w, schemaId) ← w.ensureSchema b schemaType bfbsDir
  let channelId ← b.addChannel w.handed schemaId topic
  return ({ w with
    channels := w.channels ++ [⟨channelId, topic, schemaType, 0⟩]
    handed := { w.handed with log := w.handed.log.extend channelId topic [] } }, w.channels.length)

/-- The sequence number is counted up first and wraps as a release build's does. -/
def writeMessage (w : McapEpisodeWriter) (channelIdx : ℕ) (timestampNs : UInt64)
    (data : List UInt8) : Except String McapEpisodeWriter :=
  match w.channels[channelIdx]? with
  | none => throw "index out of bounds"
  | some channel => do
    let channel := { channel with sequence := channel.sequence + 1 }
    let message : Message := ⟨channel.sequence, timestampNs, timestampNs, data⟩
    b.writeToKnownChannel w.handed channel.channelId message
    let log := w.handed.log
    return { w with
      channels := w.channels.set channelIdx channel
      handed := { w.handed with
        log := { log with messages := log.messages ++ [(channel.channelId, message)] } } }

def writeMetadata (w : McapEpisodeWriter) (name : String) (entries : TreeMap String String) :
    Except String McapEpisodeWriter := do
  b.writeMetadata w.handed name entries
  return { w with handed := { w.handed with metadata := w.handed.metadata ++ [(name, entries)] } }

end McapEpisodeWriter

/-- `saturating_mul(1_000)`. -/
def usToNs (timestampUs : UInt64) : UInt64 :=
  if timestampUs.toNat * 1000 < UInt64.size then timestampUs * 1000
  else UInt64.ofNat (UInt64.size - 1)

end Writer

section Staging

structure StagedResult where
  episodeIndex : UInt32
  stagingDir : String

def videoFormat : EncoderCodec → String
  | .h264 => "h264"
  | .h265 => "h265"
  | .av1 => "av1"
  | .mjpg => "mjpeg"
  | .rvl => "rvl"

def videoTopic (channelId : String) : String := "/camera/" ++ channelId ++ "/video"

def videoEntries (fbb : FlatBuffers) (camera : AssemblerCameraRuntimeConfigV2)
    (stream : CameraStreamBuffer) : List (UInt64 × List UInt8) :=
  stream.packets.map fun packet => (packet.timestampUs,
    encodeCompressedVideo fbb packet.timestampUs camera.channelId (videoFormat camera.codec)
      packet.data)

def sampleEntries (fbb : FlatBuffers) (samples : List Sample) : List (UInt64 × List UInt8) :=
  samples.map fun sample =>
    (sample.timestampUs, encodeJointStates fbb sample.timestampUs sample.values none)

def writeEntries (b : Backends) (channelIdx : ℕ) (entries : List (UInt64 × List UInt8))
    (w : McapEpisodeWriter) : Except String McapEpisodeWriter :=
  entries.foldlM (fun w (timestampUs, data) =>
    w.writeMessage b channelIdx (usToNs timestampUs) data) w

/-- A camera has a channel even if it has no stream. -/
def stageCamera (b : Backends) (bfbsDir : String) (episode : PendingEpisode)
    (w : McapEpisodeWriter) (camera : AssemblerCameraRuntimeConfigV2) :
    Except String McapEpisodeWriter := do
  let (w, channelIdx) ← w.addChannel b (videoTopic camera.channelId) .compressedVideo bfbsDir
  match episode.cameraStreams[camera.channelId]? with
  | none => return w
  | some stream => writeEntries b channelIdx (videoEntries b.fbb camera stream) w

def stageSamples (topic : String → String) (b : Backends) (bfbsDir : String)
    (w : McapEpisodeWriter) (entry : String × List Sample) : Except String McapEpisodeWriter := do
  let (w, channelIdx) ← w.addChannel b (topic entry.1) .jointStates bfbsDir
  writeEntries b channelIdx (sampleEntries b.fbb entry.2) w

def observationTopic (key : String) : String := "/observation/" ++ key

def actionTopic (key : String) : String := "/action/" ++ key

def stageObservation : Backends → String → McapEpisodeWriter → String × List Sample →
    Except String McapEpisodeWriter :=
  stageSamples observationTopic

def stageAction : Backends → String → McapEpisodeWriter → String × List Sample →
    Except String McapEpisodeWriter :=
  stageSamples actionTopic

def episodeMetadata (config : AssemblerRuntimeConfigV2) (episode : PendingEpisode) :
    TreeMap String String :=
  let named := (∅ : TreeMap String String).insert "episode_index" (toString episode.episodeIndex)
  let named := named.insert "start_time_us" (toString episode.startTimeUs)
  let named := episode.stopTimeUs.elim named fun stop => named.insert "stop_time_us" (toString stop)
  if config.embeddedConfigToml = "" then named
  else named.insert "config_toml" config.embeddedConfigToml

def stageEpisodeMcap (b : Backends) (config : AssemblerRuntimeConfigV2) (bfbsDir : String)
    (episode : PendingEpisode) : Except String (StagedResult × Handed) := do
  let episodeDir := config.stagingDir ++ "/" ++ episodeDirName episode.episodeIndex
  b.createDirAll episodeDir
  let mcapPath := episodeDir ++ "/episode.mcap"
  let w ← McapEpisodeWriter.new b mcapPath
  let w ← config.cameras.foldlM (stageCamera b bfbsDir episode) w
  let w ← episode.observationSamples.toList.foldlM (stageObservation b bfbsDir) w
  let w ← episode.actionSamples.toList.foldlM (stageAction b bfbsDir) w
  let w ← w.writeMetadata b "episode" (episodeMetadata config episode)
  b.finish w.handed
  return (⟨episode.episodeIndex, episodeDir⟩, w.handed)

end Staging

section Completeness

/-- Message number `n` of a channel has this time and these bytes. -/
structure Carries (n : ℕ) (timestampUs : UInt64) (data : List UInt8) (message : Message) : Prop where
  sequence : message.sequence = UInt32.ofNat (n + 1)
  logTime : timestampUs.toNat * 1000 < 2 ^ 64 → message.logTime.toNat = 1000 * timestampUs.toNat
  publishTime : timestampUs.toNat * 1000 < 2 ^ 64 →
    message.publishTime.toNat = 1000 * timestampUs.toNat
  data : message.data = data

/-- The messages of a camera: its packets, each in a table with its time and its bytes. -/
structure CarriesPackets (fbb : FlatBuffers) (camera : AssemblerCameraRuntimeConfigV2)
    (packets : List CameraPacket) (messages : List Message) : Prop where
  length : messages.length = packets.length
  each : ∀ (n : ℕ) (packet : CameraPacket) (message : Message),
    packets[n]? = some packet → messages[n]? = some message →
      Carries n packet.timestampUs
        (fbb.compressedVideo
          { timestamp := timeFromUs packet.timestampUs
            frameId := camera.channelId
            format := videoFormat camera.codec
            data := packet.data }) message

/-- The messages of a key: its samples, each in a table with its time and its values. -/
structure CarriesSamples (fbb : FlatBuffers) (samples : List Sample) (messages : List Message) :
    Prop where
  length : messages.length = samples.length
  each : ∀ (n : ℕ) (sample : Sample) (message : Message),
    samples[n]? = some sample → messages[n]? = some message →
      ∃ joints : List JointStateArgs,
        joints.map (·.position) = sample.values.map some ∧
        joints.map (·.name) = (List.range sample.values.length).map (fun i => "j" ++ toString i) ∧
        Carries n sample.timestampUs
          (fbb.jointStates { timestamp := timeFromUs sample.timestampUs, joints }) message

/-- What the library has been given of an episode. -/
structure Complete (fbb : FlatBuffers) (config : AssemblerRuntimeConfigV2)
    (episode : PendingEpisode) (handed : Handed) : Prop where
  topics : (handed.log.channels.map Prod.snd).Nodup
  channelIds : (handed.log.channels.map Prod.fst).Nodup
  declared : ∀ message ∈ handed.log.messages, message.1 ∈ handed.log.channels.map Prod.fst
  streams : ∀ channel ∈ handed.log.channels,
    (∃ camera ∈ config.cameras, channel.2 = videoTopic camera.channelId) ∨
      (∃ key ∈ episode.observationSamples, channel.2 = observationTopic key) ∨
      ∃ key ∈ episode.actionSamples, channel.2 = actionTopic key
  packets : ∀ (channelId : String) (stream : CameraStreamBuffer),
    episode.cameraStreams[channelId]? = some stream →
      ∃ camera ∈ config.cameras, camera.channelId = channelId ∧
        CarriesPackets fbb camera stream.packets (handed.log.on (videoTopic channelId))
  observations : ∀ (key : String) (samples : List Sample),
    episode.observationSamples[key]? = some samples →
      CarriesSamples fbb samples (handed.log.on (observationTopic key))
  actions : ∀ (key : String) (samples : List Sample),
    episode.actionSamples[key]? = some samples →
      CarriesSamples fbb samples (handed.log.on (actionTopic key))
  metadata : ∃ entries, handed.metadata = [("episode", entries)] ∧
    entries["episode_index"]? = some (toString episode.episodeIndex) ∧
    entries["start_time_us"]? = some (toString episode.startTimeUs) ∧
    entries["stop_time_us"]? = episode.stopTimeUs.map toString

end Completeness

section Writing
variable {b : Backends} {w w' : McapEpisodeWriter}

def asMessages (n : ℕ) (entries : List (UInt64 × List UInt8)) : List Message :=
  (entries.zipIdx n).map fun (entry, i) =>
    ⟨UInt32.ofNat (i + 1), usToNs entry.1, usToNs entry.1, entry.2⟩

theorem asMessages_cons (n : ℕ) (entry : UInt64 × List UInt8)
    (entries : List (UInt64 × List UInt8)) : asMessages n (entry :: entries) =
      ⟨UInt32.ofNat (n + 1), usToNs entry.1, usToNs entry.1, entry.2⟩ ::
        asMessages (n + 1) entries := by
  rw [asMessages, List.zipIdx_cons, List.map_cons, asMessages]

theorem usToNs_toNat {timestampUs : UInt64} (h : timestampUs.toNat * 1000 < 2 ^ 64) :
    (usToNs timestampUs).toNat = 1000 * timestampUs.toNat := by
  have hsize : timestampUs.toNat * 1000 < UInt64.size := h
  have hfactor : (1000 : UInt64).toNat = 1000 := rfl
  rw [usToNs, if_pos hsize, UInt64.toNat_mul, hfactor, Nat.mod_eq_of_lt h, Nat.mul_comm]

theorem asMessages_length (entries : List (UInt64 × List UInt8)) :
    (asMessages 0 entries).length = entries.length := by
  rw [asMessages, List.length_map, List.length_zipIdx]

theorem asMessages_carries {entries : List (UInt64 × List UInt8)} {n : ℕ} {timestampUs : UInt64}
    {data : List UInt8} {message : Message} (hentry : entries[n]? = some (timestampUs, data))
    (hmessage : (asMessages 0 entries)[n]? = some message) :
    Carries n timestampUs data message := by
  rw [asMessages, List.getElem?_map, List.getElem?_zipIdx, hentry, Option.map_some,
    Option.map_some, Nat.zero_add] at hmessage
  obtain rfl := Option.some.inj hmessage
  exact ⟨rfl, usToNs_toNat, usToNs_toNat, rfl⟩

theorem carriesPackets (fbb : FlatBuffers) (camera : AssemblerCameraRuntimeConfigV2)
    (stream : CameraStreamBuffer) :
    CarriesPackets fbb camera stream.packets (asMessages 0 (videoEntries fbb camera stream)) := by
  constructor
  · rw [asMessages_length, videoEntries, List.length_map]
  · intro n packet message hpacket hmessage
    refine asMessages_carries ?_ hmessage
    rw [videoEntries, List.getElem?_map, hpacket]
    rfl

theorem encodeJointStates_eq (fbb : FlatBuffers) (timestampUs : UInt64) (values : List Float) :
    ∃ joints : List JointStateArgs, joints.map (·.position) = values.map some ∧
      joints.map (·.name) = (List.range values.length).map (fun i => "j" ++ toString i) ∧
      encodeJointStates fbb timestampUs values none =
        fbb.jointStates { timestamp := timeFromUs timestampUs, joints } := by
  refine ⟨_, ?_, ?_, rfl⟩
  · have hvalues := congrArg (List.map some) (List.zipIdx_map_fst 0 values)
    rw [List.map_map] at hvalues ⊢
    exact hvalues
  · rw [List.map_map, List.range_eq_range', ← List.zipIdx_map_snd 0 values, List.map_map]
    rfl

theorem carriesSamples (fbb : FlatBuffers) (samples : List Sample) :
    CarriesSamples fbb samples (asMessages 0 (sampleEntries fbb samples)) := by
  constructor
  · rw [asMessages_length, sampleEntries, List.length_map]
  · intro n sample message hsample hmessage
    obtain ⟨joints, hpositions, hnames, hencoded⟩ :=
      encodeJointStates_eq fbb sample.timestampUs sample.values
    refine ⟨joints, hpositions, hnames, ?_⟩
    rw [← hencoded]
    refine asMessages_carries ?_ hmessage
    rw [sampleEntries, List.getElem?_map, hsample]
    rfl

theorem ensureSchema_ok {schemaType : SchemaType} {bfbsDir : String} {id : UInt16}
    (h : w.ensureSchema b schemaType bfbsDir = .ok (w', id)) :
    w'.channels = w.channels ∧ w'.handed = w.handed := by
  unfold McapEpisodeWriter.ensureSchema at h
  cases hlookup : w.schemaIds.lookup schemaType with
  | some known =>
    rw [hlookup] at h
    obtain ⟨rfl, -⟩ := Prod.mk.inj (Except.ok.inj h)
    exact ⟨rfl, rfl⟩
  | none =>
    simp only [hlookup, bind_eq_ok, pure_eq_ok, Prod.mk.injEq] at h
    obtain ⟨data, -, schemaId, -, rfl, -⟩ := h
    exact ⟨rfl, rfl⟩

theorem addChannel_ok {topic bfbsDir : String} {schemaType : SchemaType} {channelIdx : ℕ}
    (hids : b.OwnIds) (h : w.addChannel b topic schemaType bfbsDir = .ok (w', channelIdx)) :
    ∃ id, (∀ channel ∈ w.handed.log.channels, channel.2 ≠ topic → channel.1 ≠ id) ∧
      w'.channels[channelIdx]? = some ⟨id, topic, schemaType, 0⟩ ∧
      w'.handed = { w.handed with log := w.handed.log.extend id topic [] } := by
  simp only [McapEpisodeWriter.addChannel, bind_eq_ok, Prod.exists, pure_eq_ok,
    Prod.mk.injEq] at h
  obtain ⟨w₁, schemaId, hschema, id, hid, rfl, rfl⟩ := h
  obtain ⟨-, hhanded⟩ := ensureSchema_ok hschema
  rw [hhanded] at hid
  refine ⟨id, fun channel => hids _ _ _ _ hid channel, List.getElem?_concat_length, ?_⟩
  dsimp only
  rw [hhanded]

theorem writeEntries_ok {entries : List (UInt64 × List UInt8)} {channelIdx n : ℕ}
    {channel : McapChannel} (hchannel : w.channels[channelIdx]? = some channel)
    (hn : channel.sequence = UInt32.ofNat n) (h : writeEntries b channelIdx entries w = .ok w') :
    w'.handed = { w.handed with
      log := { w.handed.log with
        messages := w.handed.log.messages ++
          (asMessages n entries).map (Prod.mk channel.channelId) } } := by
  induction entries generalizing w n channel with
  | nil =>
    obtain rfl := Except.ok.inj h
    exact congrArg (fun messages => Handed.mk ⟨w.handed.log.channels, messages⟩ w.handed.metadata)
      (List.append_nil _).symm
  | cons entry entries ih =>
    simp only [writeEntries, List.foldlM_cons, bind_eq_ok] at h
    obtain ⟨w₁, hwrite, hrest⟩ := h
    simp only [McapEpisodeWriter.writeMessage, hchannel, bind_eq_ok, exists_unit,
      pure_eq_ok] at hwrite
    obtain ⟨-, rfl⟩ := hwrite
    have hlt := (List.getElem?_eq_some_iff.mp hchannel).1
    have hnext : channel.sequence + 1 = UInt32.ofNat (n + 1) := by
      rw [hn, UInt32.ofNat_add]
      rfl
    have hbehind := ih (List.getElem?_set_self hlt) hnext hrest
    rw [hbehind]
    simp only [asMessages_cons, List.map_cons, List.append_assoc, List.singleton_append, hnext]

theorem laid_channel {topic bfbsDir : String} {schemaType : SchemaType} {channelIdx : ℕ}
    {w₁ : McapEpisodeWriter} {entries : List (UInt64 × List UInt8)}
    {streams : List (String × List Message)} (hids : b.OwnIds)
    (hlaid : Laid streams w.handed.log) (hnew : topic ∉ streams.map Prod.fst)
    (hadd : w.addChannel b topic schemaType bfbsDir = .ok (w₁, channelIdx))
    (hwrite : writeEntries b channelIdx entries w₁ = .ok w') :
    Laid (streams ++ [(topic, asMessages 0 entries)]) w'.handed.log ∧
      w'.handed.metadata = w.handed.metadata := by
  obtain ⟨id, hown, hchannel, hhanded⟩ := addChannel_ok hids hadd
  have hwritten := writeEntries_ok hchannel rfl hwrite
  have hlog : w'.handed.log = w.handed.log.extend id topic (asMessages 0 entries) := by
    rw [hwritten, hhanded]
    simp only [Log.extend, List.map_nil, List.append_nil]
  refine ⟨?_, by rw [hwritten, hhanded]⟩
  rw [hlog]
  refine hlaid.stream fun channel hmem => hown channel hmem ?_
  intro htopic
  apply hnew
  rw [← hlaid.topics, ← htopic]
  exact List.mem_map_of_mem hmem

theorem laid_loop {α : Type} {step : McapEpisodeWriter → α → Except String McapEpisodeWriter}
    {stream : α → String × List Message}
    (hstep : ∀ {streams w w' item}, Laid streams w.handed.log →
      (stream item).1 ∉ streams.map Prod.fst → step w item = .ok w' →
        Laid (streams ++ [stream item]) w'.handed.log ∧
          w'.handed.metadata = w.handed.metadata)
    {streams : List (String × List Message)} {items : List α} (hlaid : Laid streams w.handed.log)
    (htopics : ((streams ++ items.map stream).map Prod.fst).Nodup)
    (hloop : items.foldlM step w = .ok w') :
    Laid (streams ++ items.map stream) w'.handed.log ∧
      w'.handed.metadata = w.handed.metadata := by
  induction items generalizing streams w with
  | nil =>
    obtain rfl := Except.ok.inj hloop
    rw [List.map_nil, List.append_nil]
    exact ⟨hlaid, rfl⟩
  | cons item items ih =>
    rw [List.foldlM_cons] at hloop
    obtain ⟨w₁, hfirst, hrest⟩ := bind_eq_ok.mp hloop
    have hassoc : streams ++ (item :: items).map stream =
        (streams ++ [stream item]) ++ items.map stream := by
      rw [List.map_cons, List.append_assoc, List.singleton_append]
    rw [hassoc] at htopics ⊢
    have hown : (stream item).1 ∉ streams.map Prod.fst := by
      rw [List.map_append, List.map_append, List.nodup_append, List.nodup_append] at htopics
      intro hmem
      exact htopics.1.2.2 _ hmem _ List.mem_cons_self rfl
    obtain ⟨hlaid₁, hmeta₁⟩ := hstep hlaid hown hfirst
    obtain ⟨hlaid', hmeta'⟩ := ih hlaid₁ htopics hrest
    exact ⟨hlaid', hmeta'.trans hmeta₁⟩

end Writing

section Streams
variable {b : Backends} {config : AssemblerRuntimeConfigV2} {episode : PendingEpisode}

def cameraStream (fbb : FlatBuffers) (episode : PendingEpisode)
    (camera : AssemblerCameraRuntimeConfigV2) : String × List Message :=
  (videoTopic camera.channelId, asMessages 0
    (episode.cameraStreams[camera.channelId]?.elim [] (videoEntries fbb camera)))

def sampleStream (topic : String → String) (fbb : FlatBuffers) (entry : String × List Sample) :
    String × List Message :=
  (topic entry.1, asMessages 0 (sampleEntries fbb entry.2))

def allStreams (fbb : FlatBuffers) (config : AssemblerRuntimeConfigV2) (episode : PendingEpisode) :
    List (String × List Message) :=
  config.cameras.map (cameraStream fbb episode) ++
    episode.observationSamples.toList.map (sampleStream observationTopic fbb) ++
    episode.actionSamples.toList.map (sampleStream actionTopic fbb)

theorem stageCamera_laid {bfbsDir : String} (hids : b.OwnIds)
    {streams : List (String × List Message)} {w w' : McapEpisodeWriter}
    {camera : AssemblerCameraRuntimeConfigV2} (hlaid : Laid streams w.handed.log)
    (hnew : (cameraStream b.fbb episode camera).1 ∉ streams.map Prod.fst)
    (h : stageCamera b bfbsDir episode w camera = .ok w') :
    Laid (streams ++ [cameraStream b.fbb episode camera]) w'.handed.log ∧
      w'.handed.metadata = w.handed.metadata := by
  simp only [stageCamera, bind_eq_ok, Prod.exists] at h
  obtain ⟨w₁, channelIdx, hadd, h⟩ := h
  refine laid_channel hids hlaid hnew hadd ?_
  cases hstream : episode.cameraStreams[camera.channelId]? with
  | none =>
    rw [hstream] at h
    exact h
  | some stream =>
    rw [hstream] at h
    exact h

theorem stageSamples_laid {topic : String → String} {bfbsDir : String} (hids : b.OwnIds)
    {streams : List (String × List Message)} {w w' : McapEpisodeWriter}
    {entry : String × List Sample} (hlaid : Laid streams w.handed.log)
    (hnew : (sampleStream topic b.fbb entry).1 ∉ streams.map Prod.fst)
    (h : stageSamples topic b bfbsDir w entry = .ok w') :
    Laid (streams ++ [sampleStream topic b.fbb entry]) w'.handed.log ∧
      w'.handed.metadata = w.handed.metadata := by
  simp only [stageSamples, bind_eq_ok, Prod.exists] at h
  obtain ⟨w₁, channelIdx, hadd, h⟩ := h
  exact laid_channel hids hlaid hnew hadd h

/-- The log of a staged episode is that of its streams, one after the other. -/
theorem stageEpisodeMcap_laid {bfbsDir : String} {result : StagedResult} {handed : Handed}
    (hids : b.OwnIds) (htopics : ((allStreams b.fbb config episode).map Prod.fst).Nodup)
    (h : stageEpisodeMcap b config bfbsDir episode = .ok (result, handed)) :
    Laid (allStreams b.fbb config episode) handed.log ∧
      handed.metadata = [("episode", episodeMetadata config episode)] := by
  simp only [stageEpisodeMcap, McapEpisodeWriter.new, McapEpisodeWriter.writeMetadata, bind_eq_ok,
    pure_eq_ok, exists_unit, Prod.mk.injEq] at h
  obtain ⟨-, w₀, ⟨-, -, rfl⟩, w₁, hcameras, w₂, hobservations, w₃, hactions, w₄, ⟨-, rfl⟩, -, -,
    rfl⟩ := h
  rw [allStreams, List.map_append] at htopics
  have hfront := htopics.of_append_left
  rw [List.map_append] at hfront
  obtain ⟨hlaid₁, hmeta₁⟩ :=
    laid_loop (stageCamera_laid hids) .empty hfront.of_append_left hcameras
  rw [List.nil_append] at hlaid₁
  rw [← List.map_append] at hfront htopics
  obtain ⟨hlaid₂, hmeta₂⟩ := laid_loop (stageSamples_laid hids) hlaid₁ hfront hobservations
  obtain ⟨hlaid₃, hmeta₃⟩ := laid_loop (stageSamples_laid hids) hlaid₂ htopics hactions
  refine ⟨hlaid₃, ?_⟩
  rw [hmeta₃, hmeta₂, hmeta₁]
  rfl

theorem allStreams_topics (fbb : FlatBuffers) (config : AssemblerRuntimeConfigV2)
    (episode : PendingEpisode) : (allStreams fbb config episode).map Prod.fst =
      (config.cameras.map AssemblerCameraRuntimeConfigV2.channelId).map videoTopic ++
        episode.observationSamples.keys.map observationTopic ++
        episode.actionSamples.keys.map actionTopic := by
  simp only [allStreams, List.map_append, List.map_map, ← TreeMap.map_fst_toList_eq_keys]
  rfl

theorem videoTopic_injective : Function.Injective videoTopic := by
  intro a b h
  exact (String.append_right_inj _).mp ((String.append_left_inj _).mp h)

/-- Topics of different kinds differ in their second character. -/
theorem kinds_apart (a b : String) : videoTopic a ≠ observationTopic b ∧
    videoTopic a ≠ actionTopic b ∧ observationTopic a ≠ actionTopic b := by
  refine ⟨fun h => ?_, fun h => ?_, fun h => ?_⟩ <;>
    have hsecond := congrArg (fun topic : String => topic.toList[1]?) h <;>
    simp [videoTopic, observationTopic, actionTopic, String.toList_append] at hsecond

theorem topics_nodup (fbb : FlatBuffers) (episode : PendingEpisode)
    (hcameras : (config.cameras.map AssemblerCameraRuntimeConfigV2.channelId).Nodup) :
    ((allStreams fbb config episode).map Prod.fst).Nodup := by
  rw [allStreams_topics, List.nodup_append, List.nodup_append]
  refine ⟨⟨hcameras.map videoTopic_injective, ?_, ?_⟩, ?_, ?_⟩
  · exact TreeMap.nodup_keys.map fun a b h => (String.append_right_inj _).mp h
  · intro x hx y hy
    obtain ⟨a, -, rfl⟩ := List.mem_map.mp hx
    obtain ⟨c, -, rfl⟩ := List.mem_map.mp hy
    exact (kinds_apart a c).1
  · exact TreeMap.nodup_keys.map fun a b h => (String.append_right_inj _).mp h
  · intro x hx y hy
    obtain ⟨c, -, rfl⟩ := List.mem_map.mp hy
    rcases List.mem_append.mp hx with hx | hx
    · obtain ⟨a, -, rfl⟩ := List.mem_map.mp hx
      exact (kinds_apart a c).2.1
    · obtain ⟨a, -, rfl⟩ := List.mem_map.mp hx
      exact (kinds_apart a c).2.2

theorem episodeMetadata_lookup (config : AssemblerRuntimeConfigV2) (episode : PendingEpisode) :
    (episodeMetadata config episode)["episode_index"]? = some (toString episode.episodeIndex) ∧
      (episodeMetadata config episode)["start_time_us"]? =
        some (toString episode.startTimeUs) ∧
      (episodeMetadata config episode)["stop_time_us"]? =
        episode.stopTimeUs.map toString := by
  unfold episodeMetadata
  cases episode.stopTimeUs with
  | none =>
    by_cases htoml : config.embeddedConfigToml = "" <;>
      simp only [Option.elim_none, htoml, ↓reduceIte, lookup_insert, String.reduceEq,
        TreeMap.getElem?_emptyc, Option.map_none, and_self]
  | some stop =>
    by_cases htoml : config.embeddedConfigToml = "" <;>
      simp only [Option.elim_some, htoml, ↓reduceIte, lookup_insert, String.reduceEq,
        Option.map_some, and_self]

/-- Every topic has its own stream, whole and in order. -/
theorem stage_episode_mcap_complete {bfbsDir : String} {result : StagedResult} {handed : Handed}
    (hids : b.OwnIds)
    (hcameras : (config.cameras.map AssemblerCameraRuntimeConfigV2.channelId).Nodup)
    (hstreams : StreamsOf config episode)
    (h : stageEpisodeMcap b config bfbsDir episode = .ok (result, handed)) :
    Complete b.fbb config episode handed := by
  have htopics := topics_nodup b.fbb episode hcameras
  obtain ⟨hlaid, hmetadata⟩ := stageEpisodeMcap_laid hids htopics h
  have hread := hlaid.on htopics
  constructor
  · rw [hlaid.topics]
    exact htopics
  · exact hlaid.tags
  · exact hlaid.declared
  · intro channel hchannel
    have htopic : channel.2 ∈ (allStreams b.fbb config episode).map Prod.fst := by
      rw [← hlaid.topics]
      exact List.mem_map_of_mem hchannel
    rw [allStreams_topics, List.mem_append, List.mem_append, List.map_map] at htopic
    rcases htopic with (htopic | htopic) | htopic
    · obtain ⟨camera, hcamera, heq⟩ := List.mem_map.mp htopic
      exact Or.inl ⟨camera, hcamera, heq.symm⟩
    · obtain ⟨key, hkey, heq⟩ := List.mem_map.mp htopic
      exact Or.inr (Or.inl ⟨key, TreeMap.mem_keys.mp hkey, heq.symm⟩)
    · obtain ⟨key, hkey, heq⟩ := List.mem_map.mp htopic
      exact Or.inr (Or.inr ⟨key, TreeMap.mem_keys.mp hkey, heq.symm⟩)
  · intro channelId stream hstream
    obtain ⟨camera, hcamera, rfl⟩ :=
      List.mem_map.mp ((hstreams channelId).mp (mem_iff_lookup.mpr ⟨stream, hstream⟩))
    refine ⟨camera, hcamera, rfl, ?_⟩
    have hmem : cameraStream b.fbb episode camera ∈ allStreams b.fbb config episode :=
      List.mem_append_left _ (List.mem_append_left _ (List.mem_map_of_mem hcamera))
    have hon := hread _ hmem
    rw [cameraStream, hstream] at hon
    rw [hon]
    exact carriesPackets b.fbb camera stream
  · intro key samples hsamples
    have hmem : sampleStream observationTopic b.fbb (key, samples) ∈
        allStreams b.fbb config episode :=
      List.mem_append_left _ (List.mem_append_right _
        (List.mem_map_of_mem (TreeMap.mem_toList_iff_getElem?_eq_some.mpr hsamples)))
    have hon := hread _ hmem
    rw [sampleStream] at hon
    rw [hon]
    exact carriesSamples b.fbb samples
  · intro key samples hsamples
    have hmem : sampleStream actionTopic b.fbb (key, samples) ∈ allStreams b.fbb config episode :=
      List.mem_append_right _
        (List.mem_map_of_mem (TreeMap.mem_toList_iff_getElem?_eq_some.mpr hsamples))
    have hon := hread _ hmem
    rw [sampleStream] at hon
    rw [hon]
    exact carriesSamples b.fbb samples
  · exact ⟨_, hmetadata, episodeMetadata_lookup config episode⟩

end Streams

section Runs

def willing : Backends where
  createDirAll _ := .ok ()
  createFile _ := .ok ()
  readFile _ := .ok [0]
  startFile := .ok ()
  addSchema _ _ _ := .ok 1
  addChannel handed _ _ :=
    let id := UInt16.ofNat handed.log.channels.length
    if id ∈ handed.log.channels.map Prod.fst then .error "too many channels" else .ok id
  writeToKnownChannel _ _ _ := .ok ()
  writeMetadata _ _ _ := .ok ()
  finish _ := .ok ()
  fbb :=
    { compressedVideo := fun args => args.data
      jointStates := fun args => (args.timestamp.nsec / 1000).toUInt8 ::
        args.joints.flatMap fun joint => joint.name.toList.map fun c => c.toNat.toUInt8 }

theorem willing_ownIds : willing.OwnIds := by
  intro handed schemaId topic id h channel hchannel _ heq
  simp only [willing] at h
  split at h
  · cases h
  · next hnew =>
    obtain rfl := Except.ok.inj h
    exact hnew (heq ▸ List.mem_map_of_mem hchannel)

def mcapConfig : AssemblerRuntimeConfigV2 where
  processId := "assembler"
  format := .mcap
  fps := 30
  chunkSize := 1000
  missingEosTimeoutMs := 5000
  stagingDir := "/staging"
  stagingSlots := 1
  cameras := [⟨"top", 64, 48, 30, .rgb24, .h264, "top/packets"⟩]
  observations := []
  actions := []
  embeddedConfigToml := "[project]"

def mcapArrivals : List Arrival :=
  [.packet "top" { flags := 1, sourceTimestampUs := 1000 } [1],
    .observation "arm" .jointPosition 1500 [0], .action "arm" .jointPosition 1600 [0],
    .packet "top" { sequenceNumber := 1, sourceTimestampUs := 2000 } [2]]

def mcapEpisode : PendingEpisode :=
  { mcapArrivals.foldl PendingEpisode.onArrival (PendingEpisode.new 7 1000 ["top"]) with
    stopTimeUs := some 3000 }

theorem mcap_episode_complete : ∃ result handed,
    stageEpisodeMcap willing mcapConfig "bfbs" mcapEpisode = .ok (result, handed) ∧
      ((handed.log.on "/camera/top/video").map fun m => (m.sequence, m.logTime, m.data)) =
        [(1, 1000000, [1]), (2, 2000000, [2])] ∧
      ((handed.log.on "/observation/arm/joint_position").map (·.data)) = [[220, 106, 48]] ∧
      Complete willing.fbb mcapConfig mcapEpisode handed := by
  have hrun : ∃ r, stageEpisodeMcap willing mcapConfig "bfbs" mcapEpisode = .ok r ∧
      ((r.2.log.on "/camera/top/video").map fun m => (m.sequence, m.logTime, m.data)) =
        [(1, 1000000, [1]), (2, 2000000, [2])] ∧
      ((r.2.log.on "/observation/arm/joint_position").map (·.data)) = [[220, 106, 48]] := by
    refine ⟨_, rfl, ?_, ?_⟩ <;> decide +kernel
  obtain ⟨⟨result, handed⟩, hstage, hpackets, hsamples⟩ := hrun
  exact ⟨result, handed, hstage, hpackets, hsamples,
    stage_episode_mcap_complete willing_ownIds (by decide)
      (streamsOf_arrivals mcapConfig 7 1000 mcapArrivals) hstage⟩

end Runs

end McapStaging
