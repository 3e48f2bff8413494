import Rollio.DecimalNames
import Rollio.OrderedTables
import Rollio.BusMessages

/-! The local storage process for MCAP episodes: a staged directory becomes one directory of
the output root. The file operations succeed; a failing one ends the process. -/
namespace LocalStorage
open DecimalNames OrderedTables
open Std (TreeMap)

abbrev Directory := List (String × List UInt8)

abbrev OutputRoot := TreeMap String Directory

structure StorageRuntimeConfig where
  outputPath : Option String
  deriving DecidableEq, Repr

structure EpisodeReadyRequest where
  episodeIndex : UInt32
  staged : Directory
  deriving DecidableEq, Repr

def episodeDir (episodeIndex : UInt32) : String := "episode_" ++ zeroPad 6 episodeIndex.toNat

def createDirAll (root : OutputRoot) (dir : String) : OutputRoot :=
  if dir ∈ root then root else root.insert dir []

def movePath (dir : String) (root : OutputRoot) (entry : String × List UInt8) : OutputRoot :=
  root.modify dir fun entries => entries ++ [entry]

/-- An existing episode directory is removed with everything in it. -/
def storeEpisodeLocal (config : StorageRuntimeConfig) (root : OutputRoot)
    (request : EpisodeReadyRequest) : Except String OutputRoot :=
  match config.outputPath with
  | none => .error "local storage requires output_path"
  | some _ =>
    let dir := episodeDir request.episodeIndex
    let root := if dir ∈ root then root.erase dir else root
    let root := createDirAll root dir
    .ok (request.staged.foldl (movePath dir) root)

theorem episodeDir_injective : Function.Injective episodeDir := by
  intro i j h
  have hl := congrArg String.toList h
  simp only [episodeDir, String.toList_append, List.append_cancel_left_eq] at hl
  exact UInt32.toNat_inj.mp (zeroPad_injective 6 (String.toList_inj.mp hl))

theorem movePath_fold (dir : String) (entries : Directory) (root : OutputRoot) (name : String) :
    (entries.foldl (movePath dir) root)[name]? =
      if name = dir then root[name]?.map (· ++ entries) else root[name]? := by
  induction entries generalizing root with
  | nil => simp
  | cons entry entries ih =>
    rw [List.foldl_cons, ih, movePath, lookup_modify]
    by_cases hn : name = dir
    · simp [hn, Function.comp_def]
    · simp [hn]

/-- Storing replaces the request's own directory and touches no other. -/
theorem storeEpisodeLocal_lookup {config : StorageRuntimeConfig} {root root' : OutputRoot}
    {request : EpisodeReadyRequest} (h : storeEpisodeLocal config root request = .ok root')
    (name : String) : root'[name]? =
      if name = episodeDir request.episodeIndex then some request.staged else root[name]? := by
  unfold storeEpisodeLocal at h
  cases hp : config.outputPath with
  | none => simp [hp] at h
  | some path =>
    simp only [hp, Except.ok.injEq] at h
    subst h
    rw [movePath_fold]
    by_cases hn : name = episodeDir request.episodeIndex
    · subst hn
      have hfresh : episodeDir request.episodeIndex ∉
          (if episodeDir request.episodeIndex ∈ root then
            root.erase (episodeDir request.episodeIndex) else root) := by
        split
        · simp
        · assumption
      simp [createDirAll, hfresh]
    · have hcreate (root : OutputRoot) :
          (createDirAll root (episodeDir request.episodeIndex))[name]? = root[name]? := by
        unfold createDirAll
        split
        · rfl
        · rw [lookup_insert, if_neg hn]
      rw [if_neg hn, if_neg hn, hcreate]
      split
      · rw [lookup_erase, if_neg hn]
      · rfl

end LocalStorage
