import Rollio.EpisodeMetadata
import Rollio.MergedDataset
import Rollio.Placeholders

/-! Whether the merged `info.json` says where the episodes of a dataset lie. -/
namespace DatasetDescription
open RuntimeConfig DecimalNames LerobotDataset LerobotMerge MergeEffects MergedDataset FileTrees
open EpisodeMetadata Placeholders
open LocalStorage (StorageRuntimeConfig)

section Templates

def indexMarks (chunk episode : ℕ) : List (List Char × List Char) :=
  [("{chunk_index:03d}".toList, (zeroPad 3 chunk).toList),
    ("{episode_index:06d}".toList, (zeroPad 6 episode).toList)]

def videoMarks (chunk episode : ℕ) (videoKey : String) : List (List Char × List Char) :=
  indexMarks chunk episode ++ [("{video_key}".toList, videoKey.toList)]

def expand (marks : List (List Char × List Char)) (template : String) : String :=
  String.ofList (substitute marks template.toList)

def chunkOf (info : DatasetInfo) (r : StagedRecording) : ℕ :=
  r.episode.episodeIndex.toNat / info.chunksSize.toNat

def dataFile (info : DatasetInfo) (r : StagedRecording) : String :=
  expand (indexMarks (chunkOf info r) r.episode.episodeIndex.toNat) info.dataPath

/-- A camera is addressed by the name of its directory. -/
def videoFile? (info : DatasetInfo) (r : StagedRecording)
    (camera : AssemblerCameraRuntimeConfigV2) : Option String :=
  info.videoPath.map (expand (videoMarks (chunkOf info r) r.episode.episodeIndex.toNat
    (sanitizeComponent camera.channelId)))

end Templates

/-- `info.json` leads to the row table and the videos of every episode, and its train split
counts them all. -/
structure Describes (info : DatasetInfo) (recordings : List StagedRecording) : Prop where
  data : ∀ r ∈ recordings,
    dataFile info r = spelled (parquetPath r.episode.episodeIndex r.config.chunkSize)
  videos : ∀ r ∈ recordings, ∀ camera ∈ r.config.cameras,
    videoFile? info r camera = some (spelled (videoPath r.config r.episode.episodeIndex camera))
  train : ∃ last : ℕ, info.splits["train"]? = some ("0:" ++ toString last) ∧
    recordings.length ≤ last

/-- All cameras of an episode write to the path of the first one, where a channel id that
spells a placeholder counts as one. -/
def OneVideoPath (r : StagedRecording) : Prop :=
  ∀ first ∈ r.config.cameras.head?, ∀ camera ∈ r.config.cameras,
    expand (videoMarks (r.episode.episodeIndex.toNat / r.config.chunkSize.toNat)
        r.episode.episodeIndex.toNat (sanitizeComponent camera.channelId))
      (sanitizeComponent first.channelId) = sanitizeComponent camera.channelId ∧
    containerFor first.codec = containerFor camera.codec

def MergedIn (root : Root) (r : StagedRecording) : Prop :=
  ∀ p content, (p, content) ∈ stagedFiles r.request.staging → fileAt root p = some content

section Expansion
variable {chunk episode : ℕ} {key text : String} {a b : List Char}

theorem indexMarks_open : OpenWith '\x7b' (indexMarks chunk episode) := by
  intro mark hm
  simp only [indexMarks, List.mem_cons, List.not_mem_nil, or_false] at hm
  rcases hm with rfl | rfl <;> rfl

theorem videoMarks_open : OpenWith '\x7b' (videoMarks chunk episode key) := by
  intro mark hm
  rcases List.mem_append.mp hm with hm | hm
  · exact indexMarks_open mark hm
  · obtain rfl := List.mem_singleton.mp hm
    rfl

theorem videoMarks_no_slash : ∀ mark ∈ videoMarks chunk episode key, '/' ∉ mark.1 := by
  intro mark hm
  simp only [videoMarks, indexMarks, List.cons_append, List.nil_append, List.mem_cons,
    List.not_mem_nil, or_false] at hm
  rcases hm with rfl | rfl | rfl <;> exact of_decide_eq_true rfl

theorem expand_plain {marks : List (List Char × List Char)} (ho : OpenWith '\x7b' marks)
    (h : '\x7b' ∉ text.toList) : expand marks text = text := by
  rw [expand, substitute_plain ho h, String.ofList_toList]

end Expansion

section Paths
variable {e e' c c' : UInt32}

theorem episodeDirName_inj (h : episodeDirName e = episodeDirName e') : e = e' := by
  have hpad := (String.append_right_inj "episode_").mp h
  exact UInt32.toNat_inj.mp (zeroPad_injective 6 hpad)

theorem fileName_inj {x x' : String} (hlen : x.toList.length = x'.toList.length)
    (h : episodeDirName e ++ x = episodeDirName e' ++ x') : e = e' := by
  have hl := congrArg String.toList h
  rw [String.toList_append, String.toList_append] at hl
  exact episodeDirName_inj (String.toList_inj.mp (List.append_inj' hl hlen).1)

theorem no_underscore_before (chunk : String) (h : '_' ∉ chunk.toList) :
    '_' ∉ ("data/chunk-" ++ chunk ++ "/episode").toList := by
  rw [String.toList_append, String.toList_append, List.mem_append, List.mem_append]
  rintro ((hm | hm) | hm)
  · exact absurd hm (by decide)
  · exact h hm
  · exact absurd hm (by decide)

theorem dataRelativePath_toList : (dataRelativePath e c).toList =
    ("data/chunk-" ++ chunkIndex e c ++ "/episode").toList ++
      '_' :: ((zeroPad 6 e.toNat).toList ++ ".parquet".toList) := by
  have hfile : "/".toList ++ "episode_".toList = "/episode".toList ++ ['_'] := by decide
  simp only [dataRelativePath, episodeDirName, String.toList_append, List.append_assoc]
  rw [← List.append_assoc "/".toList, hfile, List.append_assoc, List.singleton_append]

theorem no_underscore_behind : '_' ∉ (zeroPad 6 e.toNat).toList ++ ".parquet".toList := by
  rw [List.mem_append]
  rintro (hm | hm)
  · exact not_mem_zeroPad rfl hm
  · exact absurd hm (by decide)

theorem dataRelativePath_inj (h : dataRelativePath e c = dataRelativePath e' c') : e = e' := by
  have hl := congrArg String.toList h
  rw [dataRelativePath_toList, dataRelativePath_toList] at hl
  have hbefore : '_' ∉ ("data/chunk-" ++ chunkIndex e c ++ "/episode").toList :=
    no_underscore_before _ (not_mem_zeroPad rfl)
  obtain ⟨-, -, hbehind⟩ :=
    (List.append_cons_inj_of_notMem hbefore no_underscore_behind).mp hl
  have hpad := List.append_cancel_right hbehind
  exact UInt32.toNat_inj.mp (zeroPad_injective 6 (String.toList_inj.mp hpad))

theorem plain_dataRelativePath : '\x7b' ∉ (dataRelativePath e c).toList := by
  simp only [dataRelativePath, episodeDirName, chunkIndex, String.toList_append, List.mem_append]
  rintro ((((hm | hm) | hm) | hm | hm) | hm)
  · exact absurd hm (by decide)
  · exact not_mem_zeroPad rfl hm
  · exact absurd hm (by decide)
  · exact absurd hm (by decide)
  · exact not_mem_zeroPad rfl hm
  · exact absurd hm (by decide)

theorem expand_dataRelativePath {marks : List (List Char × List Char)}
    (ho : OpenWith '\x7b' marks) : expand marks (dataRelativePath e c) = dataRelativePath e c :=
  expand_plain ho plain_dataRelativePath

end Paths

section Videos
variable {config : AssemblerRuntimeConfigV2} {e : UInt32}
  {camera first : AssemblerCameraRuntimeConfigV2} {chunk episode : ℕ} {key : String}

theorem extension_length (container : ContainerKind) : container.extension.toList.length = 3 := by
  cases container <;> rfl

theorem extension_inj {k k' : ContainerKind} (h : k.extension = k'.extension) : k = k' := by
  cases k <;> cases k' <;> first | rfl | exact absurd h (by decide)

def videosDir (config : AssemblerRuntimeConfigV2) (e : UInt32) : String :=
  "videos/chunk-" ++ chunkIndex e config.chunkSize

theorem cameraRelativePath_toList : (cameraRelativePath config e camera).toList =
    (videosDir config e).toList ++ '/' :: ((sanitizeComponent camera.channelId).toList ++
      '/' :: ((episodeDirName e ++ ".").toList ++ (containerFor camera.codec).extension.toList)) := by
  have hpath : cameraRelativePath config e camera = videosDir config e ++ "/" ++
      sanitizeComponent camera.channelId ++ "/" ++ episodeDirName e ++ "." ++
      (containerFor camera.codec).extension := rfl
  have hslash : "/".toList = ['/'] := by decide
  simp only [hpath, String.toList_append, hslash, List.append_assoc, List.cons_append,
    List.nil_append]

theorem plain_videosDir : '\x7b' ∉ (videosDir config e).toList := by
  simp only [videosDir, chunkIndex, String.toList_append, List.mem_append]
  rintro (hm | hm)
  · exact absurd hm (by decide)
  · exact not_mem_zeroPad rfl hm

theorem plain_fileName (container : ContainerKind) :
    '\x7b' ∉ (episodeDirName e ++ ".").toList ++ container.extension.toList := by
  simp only [episodeDirName, String.toList_append, List.mem_append]
  rintro (((hm | hm) | hm) | hm)
  · exact absurd hm (by decide)
  · exact not_mem_zeroPad rfl hm
  · exact absurd hm (by decide)
  · cases container <;> exact absurd hm (by decide)

/-- Only the camera's directory can hold a placeholder. -/
theorem expand_cameraRelativePath :
    (expand (videoMarks chunk episode key) (cameraRelativePath config e camera)).toList =
      (videosDir config e).toList ++ '/' ::
        ((expand (videoMarks chunk episode key) (sanitizeComponent camera.channelId)).toList ++
          '/' :: ((episodeDirName e ++ ".").toList ++
            (containerFor camera.codec).extension.toList)) := by
  have ho : OpenWith '\x7b' (videoMarks chunk episode key) := videoMarks_open
  rw [expand, expand, String.toList_ofList, String.toList_ofList, cameraRelativePath_toList,
    substitute_separator ho (by decide) videoMarks_no_slash,
    substitute_separator ho (by decide) videoMarks_no_slash, substitute_plain ho plain_videosDir,
    substitute_plain ho (plain_fileName _)]

/-- The first camera's path leads to another camera's video only if their directories and
containers agree. -/
theorem expand_video_iff :
    expand (videoMarks chunk episode key) (cameraRelativePath config e first) =
        spelled (videoPath config e camera) ↔
      expand (videoMarks chunk episode key) (sanitizeComponent first.channelId) =
        sanitizeComponent camera.channelId ∧
      containerFor first.codec = containerFor camera.codec := by
  rw [spelled_videoPath, ← String.toList_inj, expand_cameraRelativePath, cameraRelativePath_toList,
    List.append_cancel_left_eq, List.cons.injEq, ← String.toList_inj]
  constructor
  · rintro ⟨-, h⟩
    have hlen : ('/' :: ((episodeDirName e ++ ".").toList ++
        (containerFor first.codec).extension.toList)).length =
        ('/' :: ((episodeDirName e ++ ".").toList ++
          (containerFor camera.codec).extension.toList)).length := by
      simp only [List.length_cons, List.length_append, extension_length]
    obtain ⟨hdir, hfile⟩ := List.append_inj' h hlen
    have hext := List.append_cancel_left (List.cons.inj hfile).2
    exact ⟨hdir, extension_inj (String.toList_inj.mp hext)⟩
  · rintro ⟨hdir, hext⟩
    rw [hdir, hext]
    exact ⟨rfl, rfl⟩

/-- Without a brace in its channel id, the condition says that the first camera shares its
directory and its container with every other. -/
theorem expand_channel_plain (h : '\x7b' ∉ (sanitizeComponent first.channelId).toList) :
    expand (videoMarks chunk episode key) (sanitizeComponent first.channelId) =
      sanitizeComponent first.channelId :=
  expand_plain videoMarks_open h

end Videos

section Merging
variable {recordings : List StagedRecording} {root root' : Root} {config : StorageRuntimeConfig}

def PathOf (r : StagedRecording) (p : Path) : Prop :=
  p = parquetPath r.episode.episodeIndex r.config.chunkSize ∨
    (∃ camera, p = videoPath r.config r.episode.episodeIndex camera) ∨
    rawDir r.episode.episodeIndex r.config.chunkSize <+: p

theorem pathOf_staged {r : StagedRecording} {p : Path} {content : Bytes}
    (h : (p, content) ∈ stagedFiles r.request.staging) : PathOf r p := by
  have hkey (top : String) (hm : (p, content) ∈ treeFiles r.request.staging top) :
      p ∈ (treeFiles r.request.staging top).map Prod.fst := List.mem_map_of_mem hm
  rcases List.mem_append.mp h with h | h
  · have hdata := hkey "data" h
    rw [r.staged.data, List.mem_singleton] at hdata
    exact Or.inl hdata
  · rcases List.mem_append.mp h with h | h
    · obtain ⟨camera, -, hp⟩ := (r.staged.videos p).mp (hkey "videos" h)
      exact Or.inr (Or.inl ⟨camera, hp⟩)
    · exact Or.inr (Or.inr (r.staged.raw p (hkey "raw" h)))

theorem head_ne {p p' : Path} {a b : String} (hne : a ≠ b) (hp : p.head? = some a)
    (hp' : p'.head? = some b) : p ≠ p' := by
  rintro rfl
  exact hne (Option.some.inj (hp.symm.trans hp'))

theorem PathOf.index {r r' : StagedRecording} {p : Path} (h : PathOf r p) (h' : PathOf r' p) :
    r.episode.episodeIndex = r'.episode.episodeIndex := by
  rcases h with rfl | ⟨camera, rfl⟩ | ⟨tail, rfl⟩
  · rcases h' with h' | ⟨camera', h'⟩ | ⟨tail', h'⟩
    · simp only [parquetPath, List.cons.injEq] at h'
      exact fileName_inj rfl h'.2.2.1
    · exact absurd h' (head_ne (show "data" ≠ "videos" by decide) rfl rfl)
    · exact absurd h' (head_ne (show "raw" ≠ "data" by decide) rfl rfl)
  · rcases h' with h' | ⟨camera', h'⟩ | ⟨tail', h'⟩
    · exact absurd h' (head_ne (show "videos" ≠ "data" by decide) rfl rfl)
    · simp only [videoPath, List.cons.injEq, String.append_assoc] at h'
      refine fileName_inj ?_ h'.2.2.2.1
      simp only [String.toList_append, List.length_append, extension_length]
    · exact absurd h' (head_ne (show "raw" ≠ "videos" by decide) rfl rfl)
  · rcases h' with h' | ⟨camera', h'⟩ | ⟨tail', h'⟩
    · exact absurd h' (head_ne (show "raw" ≠ "data" by decide) rfl rfl)
    · exact absurd h' (head_ne (show "raw" ≠ "videos" by decide) rfl rfl)
    · simp only [rawDir, List.cons_append, List.nil_append, List.cons.injEq] at h'
      exact (episodeDirName_inj h'.2.2.1).symm

theorem disjoint_of_indices
    (hd : (recordings.map (·.episode.episodeIndex)).Nodup) :
    DisjointFiles (recordings.map (·.request.staging)) := by
  rw [DisjointFiles, List.pairwise_map]
  refine (List.pairwise_map.mp hd).imp ?_
  intro r r' hne p content content' h h'
  exact hne ((pathOf_staged h).index (pathOf_staged h'))

theorem stagedInfos_recordings : stagedInfos (recordings.map (·.request.staging)) =
    recordings.map fun r => buildDatasetInfo r.config r.episode r.frameCount := by
  induction recordings with
  | nil => rfl
  | cons r recordings ih =>
    have hvalue : JsonFile.value? r.request.staging.info =
        some (buildDatasetInfo r.config r.episode r.frameCount) := by
      rw [r.staged.info]
      rfl
    rw [List.map_cons, List.map_cons, ← ih, stagedInfos, List.filterMap_cons, hvalue]
    rfl

/-- The fields of the dataset's info that no later merge touches. -/
theorem mergedInfo_keeps {infos : List DatasetInfo} {start info : DatasetInfo}
    (h : mergedInfo infos (some start) = some info) : info.dataPath = start.dataPath ∧
      info.splits = start.splits ∧ info.chunksSize = start.chunksSize := by
  induction infos generalizing start with
  | nil =>
    cases h
    exact ⟨rfl, rfl, rfl⟩
  | cons staged infos ih =>
    rw [mergedInfo_cons] at h
    have hkeeps := ih h
    exact hkeeps

/-- What a sequence of stores makes of an empty root: all files, and the first info's fields. -/
theorem stores_merge (hempty : Empty root)
    (hd : (recordings.map (·.episode.episodeIndex)).Nodup)
    (h : storeEpisodes config root (recordings.map (·.request)) = some root') :
    (∀ r ∈ recordings, MergedIn root' r) ∧ JsonFile.value? root'.info = mergedInfo
      (recordings.map fun r => buildDatasetInfo r.config r.episode r.frameCount) none := by
  obtain ⟨hfiles, hinfo, -⟩ := storeEpisodes_runs hempty.no_dir h
  rw [List.map_map] at hfiles hinfo
  have hstagings : (fun r : EpisodeReadyRequest => r.staging) ∘ (fun r : StagedRecording =>
      r.request) = fun r => r.request.staging := rfl
  rw [hstagings] at hfiles hinfo
  rw [hempty.no_file] at hfiles
  rw [hempty.info, stagedInfos_recordings] at hinfo
  refine ⟨fun r hr p content hp => ?_, hinfo⟩
  have hmeta : p.head? ≠ some "meta" := by
    intro hm
    rcases stagedFiles_head hp with hh | hh | hh
    all_goals exact absurd (hm.symm.trans hh) (by decide)
  have hw : ∀ s ∈ recordings.map (·.request.staging), WellFormed s := by
    intro s hs
    obtain ⟨r', -, rfl⟩ := List.mem_map.mp hs
    exact r'.staged.distinct
  rw [hfiles, storedFiles_tree hmeta,
    puts_eq_some_iff (all_stagedFiles_nodup hw (disjoint_of_indices hd)) rfl, List.mem_flatMap]
  exact ⟨_, List.mem_map_of_mem hr, hp⟩

/-- The info of a single recording describes it, if its cameras share the first one's path. -/
theorem describes_single {r : StagedRecording} {info : DatasetInfo}
    (hinfo : info = nextInfo none (buildDatasetInfo r.config r.episode r.frameCount)) :
    Describes info [r] ↔ OneVideoPath r := by
  have hvideo : info.videoPath = r.config.cameras.head?.map
      (cameraRelativePath r.config r.episode.episodeIndex) := by
    rw [hinfo]
    exact Option.or_self
  have hpath : info.dataPath = dataRelativePath r.episode.episodeIndex r.config.chunkSize := by
    rw [hinfo]
    rfl
  have hsplits : info.splits = (∅ : Std.TreeMap String String).insert "train" "0:1" := by
    rw [hinfo]
    rfl
  have hchunk : chunkOf info r = r.episode.episodeIndex.toNat / r.config.chunkSize.toNat := by
    rw [hinfo]
    rfl
  constructor
  · intro h first hfirst camera hcamera
    have hfile := h.videos r List.mem_cons_self camera hcamera
    rw [videoFile?, hvideo, Option.mem_def.mp hfirst, Option.map_some, Option.map_some,
      Option.some.injEq, expand_video_iff, hchunk] at hfile
    exact hfile
  · intro h
    constructor
    · intro r' hr'
      obtain rfl := List.mem_singleton.mp hr'
      rw [dataFile, hpath, expand_dataRelativePath indexMarks_open, spelled_parquetPath]
    · intro r' hr' camera hcamera
      obtain rfl := List.mem_singleton.mp hr'
      obtain ⟨first, hfirst⟩ : ∃ first, r'.config.cameras.head? = some first := by
        cases hcameras : r'.config.cameras with
        | nil =>
          rw [hcameras] at hcamera
          cases hcamera
        | cons first rest => exact ⟨first, rfl⟩
      rw [videoFile?, hvideo, hfirst, Option.map_some, Option.map_some, Option.some.injEq,
        expand_video_iff, hchunk]
      exact h first hfirst camera hcamera
    · refine ⟨1, ?_, Nat.le_refl 1⟩
      rw [hsplits, Std.TreeMap.getElem?_insert_self]
      rfl

/-- With a second episode the path of the first one's row table is no template for both. -/
theorem not_describes_two {r r' : StagedRecording} {rest : List StagedRecording}
    {info : DatasetInfo} (hne : r.episode.episodeIndex ≠ r'.episode.episodeIndex)
    (hpath : info.dataPath = dataRelativePath r.episode.episodeIndex r.config.chunkSize) :
    ¬ Describes info (r :: r' :: rest) := by
  intro h
  have hfile := h.data r' (List.mem_cons_of_mem _ List.mem_cons_self)
  rw [dataFile, hpath, expand_dataRelativePath indexMarks_open, spelled_parquetPath] at hfile
  exact hne (dataRelativePath_inj hfile)

/-- The merged `info.json` keeps the paths made for the first episode, so it describes the
dataset exactly while there is no second one and one video path. -/
theorem info_describes_iff (hne : recordings ≠ []) (hempty : Empty root)
    (hd : (recordings.map (·.episode.episodeIndex)).Nodup)
    (h : storeEpisodes config root (recordings.map (·.request)) = some root') :
    (∀ r ∈ recordings, MergedIn root' r) ∧ ∃ info, root'.info = .holds info ∧
      (Describes info recordings ↔ recordings.length = 1 ∧ ∀ r ∈ recordings, OneVideoPath r) := by
  obtain ⟨hmerged, hvalue⟩ := stores_merge hempty hd h
  refine ⟨hmerged, ?_⟩
  match recordings, hne, hd with
  | r :: rest, _, hd =>
    rw [List.map_cons, mergedInfo_cons] at hvalue
    obtain ⟨info, hlast⟩ : ∃ info, mergedInfo
        (rest.map fun r => buildDatasetInfo r.config r.episode r.frameCount)
        (some (nextInfo none (buildDatasetInfo r.config r.episode r.frameCount))) = some info :=
      mergedInfo_some _
    have hinfo : root'.info = .holds info := by
      rw [hlast] at hvalue
      cases hr : root'.info with
      | holds info' =>
        rw [hr] at hvalue
        exact congrArg JsonFile.holds (Option.some.inj hvalue)
      | missing | malformed =>
        rw [hr] at hvalue
        cases hvalue
    refine ⟨info, hinfo, ?_⟩
    match rest, hd with
    | [], _ =>
      have hsingle : some (nextInfo none (buildDatasetInfo r.config r.episode r.frameCount)) =
          some info := hlast
      rw [describes_single (Option.some.inj hsingle).symm]
      constructor
      · intro hone
        exact ⟨rfl, fun r' hr' => List.mem_singleton.mp hr' ▸ hone⟩
      · rintro ⟨-, hone⟩
        exact hone r List.mem_cons_self
    | r' :: rest, hd =>
      obtain ⟨hpath, -, -⟩ := mergedInfo_keeps hlast
      rw [List.map_cons, List.nodup_cons] at hd
      have hindex : r.episode.episodeIndex ≠ r'.episode.episodeIndex := fun he =>
        hd.1 (he ▸ List.mem_cons_self)
      constructor
      · intro hdescribes
        exact absurd hdescribes (not_describes_two hindex hpath)
      · rintro ⟨hlen, -⟩
        simp at hlen

end Merging

section Examples

def topCamera : AssemblerCameraRuntimeConfigV2 :=
  ⟨"camera/top", 640, 480, 30, .yuyv, .h264, "camera/top/recording"⟩

def topConfig : AssemblerRuntimeConfigV2 where
  processId := "assembler"
  format := .leRobotV21
  fps := 30
  chunkSize := 1000
  missingEosTimeoutMs := 5000
  stagingDir := "/staging"
  stagingSlots := 4
  cameras := [topCamera]
  observations := []
  actions := []
  embeddedConfigToml := "fps = 30"

def topEpisode (index : UInt32) : EpisodeAssemblyInput := ⟨index, 0, 1000000, ∅, ∅, ∅⟩

def topTrees (index : UInt32) (top : String) : Option (Forest Bytes) :=
  let chunk (children : Forest Bytes) : Forest Bytes := .dir (chunkDir index 1000) children .nil
  if top = "data" then
    some (chunk (.file (episodeDirName index ++ ".parquet") [1] .nil))
  else if top = "videos" then
    some (chunk (.dir (sanitizeComponent "camera/top")
      (.file (episodeDirName index ++ "." ++ ContainerKind.extension .mp4) [2] .nil) .nil))
  else if top = "raw" then some (chunk (.dir (episodeDirName index) .nil .nil))
  else none

def topStaging (index : UInt32) : Staging where
  trees := topTrees index
  jsonl name := if name = "episodes.jsonl" then some [3] else none
  info := .holds (buildDatasetInfo topConfig (topEpisode index) 30)

theorem topStaging_staged (index : UInt32) :
    Staged topConfig (topEpisode index) 30 (topStaging index) where
  info := rfl
  distinct := by
    intro top entries ht
    simp only [topStaging, topTrees] at ht
    split at ht
    · cases ht
      simp [Forest.Distinct, Forest.names]
    · split at ht
      · cases ht
        simp [Forest.Distinct, Forest.names]
      · split at ht
        · cases ht
          simp [Forest.Distinct, Forest.names]
        · cases ht
  data := rfl
  videos := by
    intro p
    have hfiles : (treeFiles (topStaging index) "videos").map Prod.fst =
        [videoPath topConfig index topCamera] := rfl
    rw [hfiles]
    constructor
    · intro hp
      exact ⟨topCamera, List.mem_cons_self, List.mem_singleton.mp hp⟩
    · rintro ⟨camera, hcamera, rfl⟩
      obtain rfl := List.mem_singleton.mp hcamera
      exact List.mem_cons_self
  raw := by
    intro p hp
    cases hp

def topRecording (index : UInt32) (faults : List (Option Fault)) : StagedRecording :=
  ⟨topConfig, topEpisode index, 30, ⟨index, topStaging index, faults⟩, topStaging_staged index⟩

def emptyRoot : Root := ⟨fun _ => none, .missing⟩

theorem emptyRoot_empty : Empty emptyRoot := ⟨fun _ => Or.inl rfl, rfl⟩

/-- A single recording of one camera is described. -/
theorem info_describes_one : ∃ root', storeEpisodes ⟨some "/dataset"⟩ emptyRoot
    [(topRecording 7 []).request] = some root' ∧
      ∃ info, root'.info = .holds info ∧ Describes info [topRecording 7 []] := by
  obtain ⟨root', hroot⟩ := Option.isSome_iff_exists.mp
    (show (storeEpisodes ⟨some "/dataset"⟩ emptyRoot
      [(topRecording 7 []).request]).isSome = true by decide +kernel)
  have hstores : storeEpisodes ⟨some "/dataset"⟩ emptyRoot
      ([topRecording 7 []].map (·.request)) = some root' := hroot
  have hd : ([topRecording 7 []].map (·.episode.episodeIndex)).Nodup := List.nodup_singleton _
  obtain ⟨-, info, hinfo, hiff⟩ :=
    info_describes_iff (List.cons_ne_nil _ _) emptyRoot_empty hd hstores
  refine ⟨root', hroot, info, hinfo, hiff.mpr ⟨rfl, fun r hr first hfirst camera hcamera => ?_⟩⟩
  obtain rfl := List.mem_singleton.mp hr
  obtain rfl := List.mem_singleton.mp hcamera
  obtain rfl := Option.some.inj hfirst
  exact ⟨expand_channel_plain (by decide), rfl⟩

/-- Two recordings of one camera: the info leads both to the first one's files. -/
theorem two_recordings_not_described : ∃ root', storeEpisodes ⟨some "/dataset"⟩ emptyRoot
    [(topRecording 0 []).request, (topRecording 1 []).request] = some root' ∧
      ∀ info, root'.info = .holds info →
        ¬ Describes info [topRecording 0 [], topRecording 1 []] := by
  obtain ⟨root', hroot⟩ := Option.isSome_iff_exists.mp
    (show (storeEpisodes ⟨some "/dataset"⟩ emptyRoot
      [(topRecording 0 []).request, (topRecording 1 []).request]).isSome = true by decide +kernel)
  refine ⟨root', hroot, fun info hinfo => ?_⟩
  have hstores : storeEpisodes ⟨some "/dataset"⟩ emptyRoot
      ([topRecording 0 [], topRecording 1 []].map (·.request)) = some root' := hroot
  have hd : ([topRecording 0 [], topRecording 1 []].map (·.episode.episodeIndex)).Nodup :=
    show ([0, 1] : List UInt32).Nodup by decide
  obtain ⟨-, hvalue⟩ := stores_merge emptyRoot_empty hd hstores
  rw [hinfo, List.map_cons, mergedInfo_cons] at hvalue
  obtain ⟨hpath, -, -⟩ := mergedInfo_keeps hvalue.symm
  exact not_describes_two (show (0 : UInt32) ≠ 1 by decide) hpath

end Examples

end DatasetDescription
