import Rollio.DecimalNames
import Rollio.LerobotPackets

/-! Staging of one assembled episode: the row table, one muxed file per camera, the raw
dump and the metadata, in this order. The file operations and the third-party writers
behind them are a parameter; every check between them is the source's. -/
namespace LerobotDataset
open BusMessages RuntimeConfig LerobotPackets DecimalNames

structure ObservationSample where
  timestampUs : UInt64
  values : List Float

structure ActionSample where
  timestampUs : UInt64
  values : List Float

structure EpisodeAssemblyInput where
  episodeIndex : UInt32
  startTimeUs : UInt64
  stopTimeUs : UInt64
  observationSamples : Std.TreeMap String (List ObservationSample)
  actionSamples : Std.TreeMap String (List ActionSample)
  cameraStreams : Std.TreeMap String RecordingStreamBuffer

structure StagedEpisode where
  episodeIndex : UInt32
  stagingDir : String
  deriving DecidableEq, Repr

inductive StageError where
  | message (text : String)
  | io (cause : String)
  deriving DecidableEq, Repr

def observationKey (channelId : String) (stateKind : RobotStateKind) : String :=
  channelId ++ "/" ++ stateKind.topicSuffix

def actionKey (channelId : String) (commandKind : RobotCommandKind) : String :=
  channelId ++ "/" ++ commandKind.topicSuffix

def sanitizeComponent (value : String) : String :=
  String.ofList (value.toList.flatMap fun c => if c = '/' then ['_', '_'] else [c])

def episodeDirName (episodeIndex : UInt32) : String :=
  "episode_" ++ zeroPad 6 episodeIndex.toNat

def chunkIndex (episodeIndex chunkSize : UInt32) : String :=
  zeroPad 3 (episodeIndex / chunkSize).toNat

def stagedParquetPath (stagingDir : String) (episodeIndex chunkSize : UInt32) : String :=
  stagingDir ++ "/data/chunk-" ++ chunkIndex episodeIndex chunkSize ++ "/" ++
    episodeDirName episodeIndex ++ ".parquet"

def stagedVideoRelativePath (episodeIndex chunkSize : UInt32)
    (channelId extension : String) : String :=
  "videos/chunk-" ++ chunkIndex episodeIndex chunkSize ++ "/" ++ sanitizeComponent channelId ++
    "/" ++ episodeDirName episodeIndex ++ "." ++ extension

structure StageIo where
  resetStagingDir : String → Except String Unit
  writeEpisodeParquet : String → AssemblerRuntimeConfigV2 → EpisodeAssemblyInput →
    Except String ℕ
  createParentDir : String → Except String Unit
  libavMux : String → EncodedStreamConfig → List EncodedPacketRecord → Except String Unit
  writeFile : String → List UInt8 → Except String Unit
  writeEpisodeRawDump : String → AssemblerRuntimeConfigV2 → EpisodeAssemblyInput →
    Except String Unit
  writeStageMetadata : String → AssemblerRuntimeConfigV2 → EpisodeAssemblyInput → ℕ →
    Except String Unit

def StageIo.reliable : StageIo where
  resetStagingDir _ := .ok ()
  writeEpisodeParquet _ _ _ := .ok 1
  createParentDir _ := .ok ()
  libavMux _ _ _ := .ok ()
  writeFile _ _ := .ok ()
  writeEpisodeRawDump _ _ _ := .ok ()
  writeStageMetadata _ _ _ _ := .ok ()

def ofIo {α : Type} : Except String α → Except StageError α := Except.mapError .io

/-- `muxer::ffmpeg_video::write_stream`; RVL never reaches libavformat. -/
def ffmpegVideoWriteStream (io : StageIo) (target : String) (stream : RecordingStreamBuffer) :
    Except StageError Unit :=
  match stream.config with
  | none => .error (.message "video stream missing Config packet")
  | some config =>
    if config.codec = .rvl then
      .error (.message "ffmpeg_video::write_stream cannot mux RVL streams")
    else ofIo (io.libavMux target config stream.packets)

def rvlFrameWriteStream (io : StageIo) (target : String) (stream : RecordingStreamBuffer) :
    Except StageError Unit :=
  match stream.config with
  | none => .error (.message "RVL stream missing Config packet")
  | some config =>
    ofIo (io.writeFile target (config.extradata ++ stream.packets.flatMap (·.payload)))

def muxCameraStream (io : StageIo) (targetDir relativePath : String)
    (stream : RecordingStreamBuffer) : Except StageError String :=
  match stream.config with
  | none => .error (.message "stream is missing Config packet; cannot pick container")
  | some config => do
    let target := targetDir ++ "/" ++ relativePath
    ofIo (io.createParentDir target)
    match containerFor config.codec with
    | .mp4 | .mkv => ffmpegVideoWriteStream io target stream
    | .rvlNative => rvlFrameWriteStream io target stream
    return target

/-- `{:?}` of an optional failure text. The texts the buffer produces need no escaping. -/
def debugOption : Option String → String
  | none => "None"
  | some text => "Some(\"" ++ text ++ "\")"

/-- The body of the camera loop in `stage_episode`. -/
def stageCamera (io : StageIo) (stagingDir : String) (config : AssemblerRuntimeConfigV2)
    (episode : EpisodeAssemblyInput) (camera : AssemblerCameraRuntimeConfigV2) :
    Except StageError Unit :=
  match episode.cameraStreams[camera.channelId]? with
  | none => .error (.message
      ("stage_episode: missing recording stream for camera " ++ camera.channelId))
  | some stream =>
    if !stream.isComplete then
      .error (.message ("stage_episode: camera " ++ camera.channelId ++
        " stream incomplete (failed=" ++ debugOption stream.failed ++ ", eos=" ++
        toString stream.eosReceived ++ ")"))
    else do
      let relative := stagedVideoRelativePath episode.episodeIndex config.chunkSize
        camera.channelId (containerFor camera.codec).extension
      let _ ← muxCameraStream io stagingDir relative stream

def stageEpisode (io : StageIo) (config : AssemblerRuntimeConfigV2)
    (episode : EpisodeAssemblyInput) : Except StageError StagedEpisode := do
  let stagingDir := config.stagingDir ++ "/" ++ episodeDirName episode.episodeIndex
  ofIo (io.resetStagingDir stagingDir)
  let frameCount ← ofIo (io.writeEpisodeParquet
    (stagedParquetPath stagingDir episode.episodeIndex config.chunkSize) config episode)
  config.cameras.forM (stageCamera io stagingDir config episode)
  ofIo (io.writeEpisodeRawDump stagingDir config episode)
  ofIo (io.writeStageMetadata stagingDir config episode frameCount)
  return ⟨episode.episodeIndex, stagingDir⟩

def missingConfig : List StageError :=
  [.message "stream is missing Config packet; cannot pick container",
    .message "video stream missing Config packet", .message "RVL stream missing Config packet"]

end LerobotDataset
