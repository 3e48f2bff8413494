import Rollio.LerobotDataset
import Rollio.MergeEffects

/-! What staging leaves of one episode: the `info.json` made for it, and the paths of its
files below the staging directory. -/
namespace EpisodeMetadata
open BusMessages RuntimeConfig DecimalNames LerobotDataset LerobotMerge MergeEffects FileTrees
open Std (TreeMap)

def codecName : EncoderCodec → String
  | .h264 => "h264"
  | .h265 => "h265"
  | .av1 => "av1"
  | .mjpg => "mjpg"
  | .rvl => "rvl"

section Features

def scalarFeature (dtype : String) : FeatureSpec := ⟨dtype, [], none, none⟩

def indexFeatureNames : List String :=
  ["timestamp", "frame_index", "episode_index", "global_index", "task_index"]

def observationFeatureKey (observation : AssemblerObservationRuntimeConfigV2) : String :=
  "observation.state." ++ sanitizeComponent observation.channelId ++ "." ++
    observation.stateKind.topicSuffix

def observationValueNames (observation : AssemblerObservationRuntimeConfigV2) : List String :=
  let kindPrefix := match observation.stateKind with
    | .endEffectorPose => "pose"
    | .endEffectorTwist => "twist"
    | .endEffectorWrench => "wrench"
    | .parallelPosition | .parallelVelocity | .parallelEffort => "parallel"
    | .jointPosition | .jointVelocity | .jointEffort => "joint"
  (List.range observation.valueLen.toNat).map fun index => kindPrefix ++ "_" ++ toString index

def actionFeatureNames (actions : List AssemblerActionRuntimeConfigV2) : List String :=
  actions.flatMap fun action => (List.range action.valueLen.toNat).map fun index =>
    sanitizeComponent action.channelId ++ "." ++ action.commandKind.topicSuffix ++ "." ++
      toString index

def channelsForPixelFormat : PixelFormat → ℕ
  | .rgb24 | .bgr24 => 3
  | .depth16 => 1
  | .gray8 => 1
  | .yuyv => 2
  | .mjpeg | .h264AnnexB => 3
  | .nv12 => 3

def cameraFeature (camera : AssemblerCameraRuntimeConfigV2) : FeatureSpec where
  dtype := "video"
  shape := [camera.height.toNat, camera.width.toNat, channelsForPixelFormat camera.pixelFormat]
  names := none
  videoInfo := some
    { codec := codecName camera.codec
      container := (containerFor camera.codec).extension
      width := camera.width
      height := camera.height
      fps := camera.fps }

/-- Later columns replace earlier ones of the same key. -/
def buildFeatureMap (config : AssemblerRuntimeConfigV2) : TreeMap String FeatureSpec :=
  let indices := indexFeatureNames.map fun name =>
    (name, scalarFeature (if name = "timestamp" then "float64" else "int64"))
  let actionNames := actionFeatureNames config.actions
  let action : FeatureSpec := ⟨"float64", [actionNames.length], some actionNames, none⟩
  let observations := config.observations.map fun observation =>
    (observationFeatureKey observation, (⟨"float64", [observation.valueLen.toNat],
      some (observationValueNames observation), none⟩ : FeatureSpec))
  let cameras := config.cameras.map fun camera =>
    ("observation.images." ++ sanitizeComponent camera.channelId, cameraFeature camera)
  (indices ++ [("done", scalarFeature "bool"), ("action", action)] ++ observations ++
    cameras).foldl (fun features entry => features.insert entry.1 entry.2) ∅

end Features

section Layout

def dataRelativePath (episodeIndex chunkSize : UInt32) : String :=
  "data/chunk-" ++ chunkIndex episodeIndex chunkSize ++ "/" ++ episodeDirName episodeIndex ++
    ".parquet"

def rawPathTemplate (episodeIndex chunkSize : UInt32) : String :=
  "raw/chunk-" ++ chunkIndex episodeIndex chunkSize ++ "/" ++ episodeDirName episodeIndex

/-- The path the assembler stages a camera's video at, as `stage_episode` computes it. -/
def cameraRelativePath (config : AssemblerRuntimeConfigV2) (episodeIndex : UInt32)
    (camera : AssemblerCameraRuntimeConfigV2) : String :=
  stagedVideoRelativePath episodeIndex config.chunkSize camera.channelId
    (containerFor camera.codec).extension

def crateVersion : String := "1.0.0"

def buildDatasetInfo (config : AssemblerRuntimeConfigV2) (episode : EpisodeAssemblyInput)
    (frameCount : UInt64) : DatasetInfo where
  codebaseVersion := crateVersion
  robotType := none
  totalEpisodes := 1
  totalFrames := frameCount
  totalTasks := 1
  chunksSize := config.chunkSize
  fps := config.fps
  splits := (∅ : TreeMap String String).insert "train" "0:1"
  dataPath := dataRelativePath episode.episodeIndex config.chunkSize
  videoPath := config.cameras.head?.map (cameraRelativePath config episode.episodeIndex)
  rawPath :=
    if config.observations.isEmpty && config.actions.isEmpty then none
    else some (rawPathTemplate episode.episodeIndex config.chunkSize)
  features := buildFeatureMap config
  embeddedConfigToml := config.embeddedConfigToml

def chunkDir (episodeIndex chunkSize : UInt32) : String := "chunk-" ++ chunkIndex episodeIndex chunkSize

def parquetPath (episodeIndex chunkSize : UInt32) : Path :=
  ["data", chunkDir episodeIndex chunkSize, episodeDirName episodeIndex ++ ".parquet"]

def videoPath (config : AssemblerRuntimeConfigV2) (episodeIndex : UInt32)
    (camera : AssemblerCameraRuntimeConfigV2) : Path :=
  ["videos", chunkDir episodeIndex config.chunkSize, sanitizeComponent camera.channelId,
    episodeDirName episodeIndex ++ "." ++ (containerFor camera.codec).extension]

def rawDir (episodeIndex chunkSize : UInt32) : Path :=
  ["raw", chunkDir episodeIndex chunkSize, episodeDirName episodeIndex]

def spelled (path : Path) : String := "/".intercalate path

theorem spelled_cons_cons (a b : String) (path : Path) :
    spelled (a :: b :: path) = a ++ "/" ++ spelled (b :: path) := by
  rw [spelled, String.intercalate_cons_cons]
  rfl

theorem spelled_singleton (a : String) : spelled [a] = a := String.intercalate_singleton

theorem spelled_parquetPath (episodeIndex chunkSize : UInt32) :
    spelled (parquetPath episodeIndex chunkSize) = dataRelativePath episodeIndex chunkSize := by
  have htop : "data" ++ "/" ++ "chunk-" = "data/chunk-" := by decide
  simp only [parquetPath, dataRelativePath, chunkDir, spelled_cons_cons, spelled_singleton, ← htop,
    String.append_assoc]

theorem spelled_videoPath (config : AssemblerRuntimeConfigV2) (episodeIndex : UInt32)
    (camera : AssemblerCameraRuntimeConfigV2) : spelled (videoPath config episodeIndex camera) =
      cameraRelativePath config episodeIndex camera := by
  have htop : "videos" ++ "/" ++ "chunk-" = "videos/chunk-" := by decide
  have hstaged : cameraRelativePath config episodeIndex camera = "videos/chunk-" ++
      chunkIndex episodeIndex config.chunkSize ++ "/" ++ sanitizeComponent camera.channelId ++
      "/" ++ episodeDirName episodeIndex ++ "." ++ (containerFor camera.codec).extension := rfl
  simp only [hstaged, videoPath, chunkDir, spelled_cons_cons, spelled_singleton, ← htop,
    String.append_assoc]

/-- The staging directory of an episode: one row table, one video for each camera, the raw dump
in its own directory, and the `info.json` built last. -/
structure Staged (config : AssemblerRuntimeConfigV2) (episode : EpisodeAssemblyInput)
    (frameCount : UInt64) (staging : Staging) : Prop where
  info : staging.info = .holds (buildDatasetInfo config episode frameCount)
  distinct : ∀ top entries, staging.trees top = some entries → entries.Distinct
  data : (treeFiles staging "data").map Prod.fst =
    [parquetPath episode.episodeIndex config.chunkSize]
  videos : ∀ p, p ∈ (treeFiles staging "videos").map Prod.fst ↔
    ∃ camera ∈ config.cameras, p = videoPath config episode.episodeIndex camera
  raw : ∀ p ∈ (treeFiles staging "raw").map Prod.fst,
    rawDir episode.episodeIndex config.chunkSize <+: p

end Layout

structure StagedRecording where
  config : AssemblerRuntimeConfigV2
  episode : EpisodeAssemblyInput
  frameCount : UInt64
  request : EpisodeReadyRequest
  staged : Staged config episode frameCount request.staging

end EpisodeMetadata
