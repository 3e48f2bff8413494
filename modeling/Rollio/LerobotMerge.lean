import Rollio.FallibleRuns
import Rollio.FileTrees
import Rollio.OrderedTables
import Rollio.LocalStorage
import Rollio.Text
import Mathlib.Algebra.Group.Nat.Defs

/-! The local storage process for LeRobot episodes: a staged directory is merged into the
dataset below `output_path`. Every file operation can fail. The text of an `info.json` is kept
as the value it stands for, beside the tree of the other files. -/
namespace LerobotMerge
open FallibleRuns FileTrees OrderedTables
open LocalStorage (StorageRuntimeConfig)
open Std (TreeMap)

abbrev Bytes := List UInt8

structure VideoInfo where
  codec : String
  container : String
  width : UInt32
  height : UInt32
  fps : UInt32
  deriving DecidableEq, Repr

structure FeatureSpec where
  dtype : String
  shape : List ℕ
  names : Option (List String)
  videoInfo : Option VideoInfo
  deriving DecidableEq, Repr

structure DatasetInfo where
  codebaseVersion : String
  robotType : Option String
  totalEpisodes : UInt32
  totalFrames : UInt64
  totalTasks : UInt32
  chunksSize : UInt32
  fps : UInt32
  splits : TreeMap String String
  dataPath : String
  videoPath : Option String
  rawPath : Option String
  features : TreeMap String FeatureSpec
  embeddedConfigToml : String

inductive JsonFile where
  | missing
  | malformed
  | holds (info : DatasetInfo)

inductive Entry where
  | dir
  | file (content : Bytes)
  deriving DecidableEq

/-- What is below `output_path`; `info` is `meta/info.json`. -/
structure Root where
  disk : Path → Option Entry
  info : JsonFile

/-- A staging directory: the directories next to `meta`, and the files of `meta`. -/
structure Staging where
  trees : String → Option (Forest Bytes)
  jsonl : String → Option Bytes
  info : JsonFile

def Staging.removed : Staging := ⟨fun _ => none, fun _ => none, .missing⟩

def Staging.without (paths : List Path) (staging : Staging) : Staging where
  trees top := if [top] ∈ paths then none else (staging.trees top).map (Forest.without paths [top])
  jsonl name := if ["meta", name] ∈ paths then none else staging.jsonl name
  info := if ["meta", "info.json"] ∈ paths then .missing else staging.info

/-- A file operation fails before it does anything, after it wrote some bytes, or after it
removed some of the paths below a directory. -/
inductive Fault where
  | refused
  | torn (written : ℕ)
  | partly (removed : List Path)
  deriving DecidableEq

/-- `faults` says of each coming operation whether it fails; those past its end go through. -/
structure World where
  root : Root
  staging : Staging
  faults : List (Option Fault)

inductive StoreError where
  | message (text : String)
  | io
  | json
  deriving DecidableEq, Repr

abbrev Io := Prog StoreError World

section Operations

def takeFault : Io (Option Fault) := do
  let w ← get
  modify fun w => { w with faults := w.faults.tail }
  pure (w.faults.head?.getD none)

/-- An operation that changes nothing when it fails. -/
def attempt : Io Unit := do
  match ← takeFault with
  | none => pure ()
  | some _ => throw .io

def putEntry (path : Path) (entry : Entry) : Io Unit :=
  modify fun w => { w with root := { w.root with
    disk := Function.update w.root.disk path (some entry) } }

def createDir (path : Path) : Io Unit := do
  match (← get).root.disk path with
  | some .dir => pure ()
  | some (.file _) => throw .io
  | none =>
    attempt
    putEntry path .dir

/-- `fs::create_dir_all`, from the dataset root down. -/
def createDirAll (path : Path) : Io Unit := path.inits.forM createDir

/-- A file can be made at a path below a directory unless a directory is there. -/
def checkTarget (path : Path) : Io Unit := do
  let w ← get
  match w.root.disk path.dropLast, w.root.disk path with
  | some .dir, some .dir => throw .io
  | some .dir, _ => pure ()
  | _, _ => throw .io

/-- Writing `content` behind what the path keeps of its old content. -/
def writeBehind (path : Path) (kept content : Bytes) : Io Unit := do
  checkTarget path
  match ← takeFault with
  | none => putEntry path (.file (kept ++ content))
  | some (.torn written) =>
    putEntry path (.file (kept ++ content.take written))
    throw .io
  | some .refused | some (.partly _) => throw .io

def writeFile (path : Path) (content : Bytes) : Io Unit := writeBehind path [] content

/-- `create(true).append(true)` and `write_all`. -/
def appendFile (path : Path) (content : Bytes) : Io Unit := do
  match (← get).root.disk path with
  | some (.file old) => writeBehind path old content
  | _ =>
    writeFile path []
    writeBehind path [] content

def removeStaged (top : String) (source : Path) : Io Unit :=
  modify fun w => { w with staging := { w.staging with
    trees := Function.update w.staging.trees top
      ((w.staging.trees top).map (Forest.eraseFile source)) } }

def renameStaged (top : String) (source : Path) (content : Bytes) (destination : Path) :
    Io Unit := do
  attempt
  checkTarget destination
  putEntry destination (.file content)
  removeStaged top source

/-- A rename that fails, for another file system or any other reason, becomes a copy. -/
def moveOrCopyFile (top : String) (source : Path) (content : Bytes) (destination : Path) :
    Io Unit :=
  tryCatch (renameStaged top source content destination) fun _ => do
    writeFile destination content
    attempt
    removeStaged top source

end Operations

section Merge

def mergeEntries (top : String) : Path → Path → Forest Bytes → Io Unit
  | _, _, .nil => pure ()
  | source, destination, .dir name children rest => do
    createDirAll (destination ++ [name])
    attempt
    mergeEntries top (source ++ [name]) (destination ++ [name]) children
    mergeEntries top source destination rest
  | source, destination, .file name content rest => do
    createDirAll destination
    moveOrCopyFile top (source ++ [name]) content (destination ++ [name])
    mergeEntries top source destination rest
  | source, destination, .other _ rest => mergeEntries top source destination rest

def mergeDirectoryContents (top : String) (source destination : Path)
    (entries : Forest Bytes) : Io Unit := do
  attempt
  mergeEntries top source destination entries

def mergeTreeIfPresent (top : String) : Io Unit := do
  match (← get).staging.trees top with
  | none => pure ()
  | some entries =>
    createDirAll [top]
    mergeDirectoryContents top [] [top] entries

def metaPath (name : String) : Path := ["meta", name]

def mergeMetaJsonlIfPresent (name : String) (keepExistingOnly : Bool) : Io Unit := do
  match (← get).staging.jsonl name with
  | none => pure ()
  | some contents =>
    createDirAll ["meta"]
    let w ← get
    if keepExistingOnly && (w.root.disk (metaPath name)).isSome then pure ()
    else
      attempt
      if keepExistingOnly then writeFile (metaPath name) contents
      else appendFile (metaPath name) contents

def readDatasetInfo (file : JsonFile) : Io DatasetInfo := do
  attempt
  match file with
  | .missing => throw .io
  | .malformed => throw .json
  | .holds info => pure info

def saturatingAdd32 (a b : UInt32) : UInt32 :=
  UInt32.ofNat (min (a.toNat + b.toNat) (2 ^ 32 - 1))

def saturatingAdd64 (a b : UInt64) : UInt64 :=
  UInt64.ofNat (min (a.toNat + b.toNat) (2 ^ 64 - 1))

/-- `entry(key).or_insert(spec)` for every staged feature. -/
def unionFeatures (features staged : TreeMap String FeatureSpec) : TreeMap String FeatureSpec :=
  staged.toList.foldl (fun features entry => features.insertIfNew entry.1 entry.2) features

def freshInfo (staged : DatasetInfo) : DatasetInfo :=
  { staged with totalEpisodes := 0, totalFrames := 0 }

def mergeInfo (info staged : DatasetInfo) : DatasetInfo :=
  { info with
    totalEpisodes := saturatingAdd32 info.totalEpisodes staged.totalEpisodes
    totalFrames := saturatingAdd64 info.totalFrames staged.totalFrames
    totalTasks := max info.totalTasks staged.totalTasks
    robotType := info.robotType.or staged.robotType
    features := unionFeatures info.features staged.features
    videoPath := info.videoPath.or staged.videoPath
    rawPath := info.rawPath.or staged.rawPath
    embeddedConfigToml :=
      if Text.blank info.embeddedConfigToml then staged.embeddedConfigToml
      else info.embeddedConfigToml }

def putInfo (file : JsonFile) : Io Unit :=
  modify fun w => { w with root := { w.root with info := file } }

def currentInfo (staged : DatasetInfo) : JsonFile → Io DatasetInfo
  | .missing => pure (freshInfo staged)
  | file => readDatasetInfo file

def updateRootInfo (staged : DatasetInfo) : Io Unit := do
  createDirAll ["meta"]
  let w ← get
  let info ← currentInfo staged w.root.info
  match ← takeFault with
  | none => putInfo (.holds (mergeInfo info staged))
  | some (.torn _) =>
    putInfo .malformed
    throw .io
  | some .refused | some (.partly _) => throw .io

def removeStagingDir : Io Unit := do
  match ← takeFault with
  | none => modify fun w => { w with staging := .removed }
  | some (.partly removed) =>
    modify fun w => { w with staging := w.staging.without removed }
    throw .io
  | some .refused | some (.torn _) => throw .io

def storeEpisodeLocal (config : StorageRuntimeConfig) : Io String := do
  match config.outputPath with
  | none => throw (.message "local storage requires output_path")
  | some outputRoot =>
    createDirAll []
    let w ← get
    let stagedInfo ← readDatasetInfo w.staging.info
    mergeTreeIfPresent "data"
    mergeTreeIfPresent "videos"
    mergeTreeIfPresent "raw"
    mergeMetaJsonlIfPresent "tasks.jsonl" true
    mergeMetaJsonlIfPresent "episodes.jsonl" false
    mergeMetaJsonlIfPresent "episodes_stats.jsonl" false
    updateRootInfo stagedInfo
    removeStagingDir
    pure outputRoot

end Merge

/-- A request, with what its staging directory holds when it is served and the operations that
fail meanwhile. -/
structure EpisodeReadyRequest where
  episodeIndex : UInt32
  staging : Staging
  faults : List (Option Fault)

def storeEpisodes (config : StorageRuntimeConfig) (root : Root) :
    List EpisodeReadyRequest → Option Root
  | [] => some root
  | request :: requests =>
    match (storeEpisodeLocal config).run.run ⟨root, request.staging, request.faults⟩ with
    | (.ok _, w) => storeEpisodes config w.root requests
    | (.error _, _) => none

end LerobotMerge
