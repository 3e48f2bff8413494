import Mathlib.Algebra.Group.Int.Defs
import Rollio.Clocks
import Rollio.RuntimeConfig

/-! The controller's probe of an existing dataset directory. JSON parsing and directory
listing are the caller's: a line arrives parsed, and a chunk as its file names. -/
namespace DatasetResume
open RuntimeConfig Clocks Text

structure ProjectConfig where
  format : EpisodeFormat
  /-- `storage.output_path`. -/
  outputPath : Option String
  deriving DecidableEq, Repr

structure DatasetResumeHint where
  nextEpisodeIndex : UInt32
  priorStoredEpisodeCount : UInt32
  deriving DecidableEq, Repr

inductive JsonlLine where
  | blank
  | invalid
  | record (episodeIndex : Option Int)
  deriving DecidableEq, Repr

structure DatasetDir where
  episodesJsonl : Option (List JsonlLine) := none
  dataChunks : List (List String) := []
  /-- `embedded_config_toml` of `meta/info.json`, when the file and the field exist. -/
  embeddedConfigToml : Option String := none
  deriving DecidableEq, Repr

/-- `as_i64` casts a negative number to a large one, and neither fits `u32`. -/
def clampIndex (n : Int) : UInt32 :=
  if 0 ≤ n ∧ n < 2 ^ 32 then UInt32.ofNat n.toNat else u32Max

def maxIndex (best : Option UInt32) (index : UInt32) : Option UInt32 :=
  some (match best with | none => index | some b => max b index)

def maxEpisodeAndLineCountFromJsonl : Option (List JsonlLine) → Option UInt32 × Option UInt32
  | none => (none, none)
  | some lines => lines.foldl (fun acc line =>
      match line with
      | .record (some n) => (maxIndex acc.1 (clampIndex n), acc.2.map saturatingSucc)
      | _ => acc) (none, some 0)

/-- `str::parse::<u32>`: an optional plus sign and decimal digits. -/
def parseU32 (text : List Char) : Option UInt32 :=
  let digits := match text with
    | '+' :: rest => rest
    | _ => text
  if digits.isEmpty || !digits.all Char.isDigit then none
  else
    let n := Nat.ofDigitChars 10 digits 0
    if n < 2 ^ 32 then some (UInt32.ofNat n) else none

def parseEpisodeParquetName (name : String) : Option UInt32 := do
  let rest ← "episode_".toList.isPrefixOf? name.toList
  let num ← ".parquet".toList.isSuffixOf? rest
  parseU32 num

def scanDataParquetEpisodes (chunks : List (List String)) : Option UInt32 × UInt32 :=
  let seen := (chunks.flatten.filterMap parseEpisodeParquetName).dedup
  (seen.foldl maxIndex none,
    if seen.length < 2 ^ 32 then UInt32.ofNat seen.length else u32Max)

def lerobotResumeHintIfEpisodesExist (root : DatasetDir) : Option DatasetResumeHint :=
  let (jsonlMax, jsonlCount) := maxEpisodeAndLineCountFromJsonl root.episodesJsonl
  let (parquetMax, parquetDistinct) := scanDataParquetEpisodes root.dataChunks
  let max := match parquetMax with
    | some pm => maxIndex jsonlMax pm
    | none => jsonlMax
  max.map fun maxIdx => ⟨saturatingSucc maxIdx, jsonlCount.getD parquetDistinct⟩

def normalizeEmbeddedToml (s : String) : String := (trim s).replace "\r\n" "\n"

def embeddedConfigsMatch (stored current : String) : Bool :=
  normalizeEmbeddedToml stored == normalizeEmbeddedToml current

def resolveStorageRoot (config : ProjectConfig) (invocationCwd : String) : Option String :=
  match config.outputPath with
  | none => none
  | some path =>
    if blank path then none
    else if path.startsWith "/" then some path
    else some (invocationCwd ++ "/" ++ path)

/-- `readDir` is `none` where the root is not a directory. -/
def probeResume (config : ProjectConfig) (invocationCwd currentToml : String)
    (readDir : String → Option DatasetDir) : Except String (Option DatasetResumeHint) :=
  match resolveStorageRoot config invocationCwd with
  | none => .ok none
  | some root =>
    match readDir root with
    | none => .ok none
    | some dataset =>
      match config.format with
      | .leRobotV21 | .leRobotV30 =>
        match lerobotResumeHintIfEpisodesExist dataset with
        | none => .ok none
        | some hint =>
          match dataset.embeddedConfigToml with
          | none => .error ("dataset at " ++ root ++ " contains episodes but meta/info.json is " ++
              "missing; cannot verify embedded_config_toml. Use a new storage.output_path or " ++
              "remove the dataset before collecting.")
          | some storedToml =>
            if blank storedToml then
              .error ("dataset at " ++ root ++ " contains episodes but meta/info.json has no " ++
                "embedded_config_toml; cannot verify the recording config. Use a new " ++
                "storage.output_path or remove the dataset before collecting.")
            else if !embeddedConfigsMatch storedToml currentToml then
              .error ("dataset at " ++ root ++ " was recorded with a different project config " ++
                "(meta/info.json embedded_config_toml does not match the current project). Use " ++
                "a new storage.output_path or remove the dataset before collecting.")
            else .ok (some hint)
      | .mcap => .ok none

/-- Whatever the directory holds, an MCAP project is not resumed. -/
theorem probeResume_mcap {config : ProjectConfig} (h : config.format = .mcap)
    (invocationCwd currentToml : String) (readDir : String → Option DatasetDir) :
    probeResume config invocationCwd currentToml readDir = .ok none := by
  unfold probeResume
  cases resolveStorageRoot config invocationCwd with
  | none => rfl
  | some root =>
    cases hd : readDir root <;> simp [hd, h]

example : lerobotResumeHintIfEpisodesExist
    ⟨some [.record (some 0), .record (some 2)], [["episode_000004.parquet"]], none⟩ =
      some ⟨5, 2⟩ := by decide

end DatasetResume
