import Rollio.LerobotMerge

/-! What the operations of one store do to the files when they return: a list of writes. -/
namespace MergeEffects
open FallibleRuns FileTrees LerobotMerge

def fileAt (root : Root) (p : Path) : Option Bytes :=
  match root.disk p with
  | some (.file content) => some content
  | _ => none

/-- The step from `w` to `w'` wrote `writes`, in this order, and touched nothing else but the
staged trees named in `tops`; no file of `meta` has become a directory. -/
structure Effect (tops : List String) (writes : List (Path × Bytes)) (w w' : World) : Prop where
  files : fileAt w'.root = puts writes (fileAt w.root)
  dirs : ∀ name, w'.root.disk (metaPath name) = some .dir → w.root.disk (metaPath name) = some .dir
  info : w'.root.info = w.root.info
  trees : ∀ top ∉ tops, w'.staging.trees top = w.staging.trees top
  jsonl : w'.staging.jsonl = w.staging.jsonl
  stagedInfo : w'.staging.info = w.staging.info

variable {w w' v : World} {tops : List String} {writes : List (Path × Bytes)}

theorem Effect.refl (w : World) : Effect tops [] w w :=
  ⟨rfl, fun _ => id, rfl, fun _ _ => rfl, rfl, rfl⟩

theorem Effect.trans {more : List (Path × Bytes)} (h : Effect tops writes w w')
    (h' : Effect tops more w' v) : Effect tops (writes ++ more) w v where
  files := by rw [h'.files, h.files, puts_append]
  dirs := fun name hd => h.dirs name (h'.dirs name hd)
  info := h'.info.trans h.info
  trees := fun top ht => (h'.trees top ht).trans (h.trees top ht)
  jsonl := h'.jsonl.trans h.jsonl
  stagedInfo := h'.stagedInfo.trans h.stagedInfo

theorem Effect.behind (h : Effect tops writes w w') (h' : Effect tops [] w' v) :
    Effect tops writes w v := by
  have hall := h.trans h'
  rwa [List.append_nil] at hall

theorem Effect.widen {more : List String} (h : Effect tops writes w w') (hs : tops ⊆ more) :
    Effect more writes w w' where
  files := h.files
  dirs := h.dirs
  info := h.info
  trees := fun top ht => h.trees top fun hmem => ht (hs hmem)
  jsonl := h.jsonl
  stagedInfo := h.stagedInfo

section Operations
variable {path source destination : Path} {content kept : Bytes} {u : Unit} {e : StoreError}
  {top : String}

theorem takeFault_runs {fault : Option Fault} (h : Runs takeFault w fault w') :
    Effect tops [] w w' := by
  obtain ⟨w₁, v₁, hget, h⟩ := runs_bind.mp h
  obtain ⟨x, v₂, hmod, hpure⟩ := runs_bind.mp h
  obtain ⟨rfl, rfl⟩ := runs_get.mp hget
  obtain rfl := runs_modify.mp hmod
  obtain ⟨-, rfl⟩ := runs_pure.mp hpure
  exact ⟨rfl, fun _ => id, rfl, fun _ _ => rfl, rfl, rfl⟩

theorem not_fails_takeFault : ¬ Fails takeFault w e w' := by
  intro h
  rcases fails_bind.mp h with h | ⟨w₁, v₁, hget, h⟩
  · exact absurd h fails_get
  · rcases fails_bind.mp h with h | ⟨x, v₂, hmod, h⟩
    · exact absurd h fails_modify
    · exact absurd h fails_pure

theorem attempt_runs (h : Runs attempt w u w') : Effect tops [] w w' := by
  obtain ⟨fault, v, hf, h⟩ := runs_bind.mp h
  cases fault with
  | none =>
    obtain ⟨-, rfl⟩ := runs_pure.mp h
    exact takeFault_runs hf
  | some fault => exact absurd h runs_throw

theorem attempt_fails (h : Fails attempt w e w') : Effect tops [] w w' := by
  rcases fails_bind.mp h with h | ⟨fault, v, hf, h⟩
  · exact absurd h not_fails_takeFault
  · cases fault with
    | none => exact absurd h fails_pure
    | some fault =>
      obtain ⟨-, rfl⟩ := fails_throw.mp h
      exact takeFault_runs hf

theorem fileAt_update (root : Root) (path : Path) (entry : Entry) :
    fileAt { root with disk := Function.update root.disk path (some entry) } =
      Function.update (fileAt root) path
        (match entry with
          | .file content => some content
          | .dir => none) := by
  funext p
  unfold fileAt
  by_cases hp : p = path
  · subst hp
    simp only [Function.update_self]
    cases entry <;> rfl
  · simp only [Function.update_of_ne hp]

theorem putEntry_runs (h : Runs (putEntry path (.file content)) w u w') :
    Effect tops [(path, content)] w w' := by
  obtain rfl := runs_modify.mp h
  refine ⟨fileAt_update w.root path (.file content), fun name hd => ?_, rfl, fun _ _ => rfl, rfl,
    rfl⟩
  by_cases hp : metaPath name = path
  · simp only [hp, Function.update_self] at hd
    cases hd
  · simpa only [Function.update_of_ne hp] using hd

/-- Making a directory elsewhere than at a file of `meta` touches no file. -/
theorem createDir_runs (hclear : ∀ name, metaPath name ≠ path)
    (h : Runs (createDir path) w u w') : Effect tops [] w w' := by
  obtain ⟨w₁, v, hget, hr⟩ := runs_bind.mp h
  obtain ⟨rfl, rfl⟩ := runs_get.mp hget
  cases hd : v.root.disk path with
  | some entry =>
    simp only [hd] at hr
    cases entry with
    | dir =>
      obtain ⟨-, rfl⟩ := runs_pure.mp hr
      exact Effect.refl _
    | file content => exact absurd hr runs_throw
  | none =>
    simp only [hd] at hr
    obtain ⟨x, v', ha, hp⟩ := runs_bind.mp hr
    have ha : Effect tops [] v v' := attempt_runs ha
    obtain rfl := runs_modify.mp hp
    refine ha.trans ⟨?_, fun name hd => ?_, rfl, fun _ _ => rfl, rfl, rfl⟩
    · have hnone : fileAt v'.root path = none := by
        rw [ha.files, puts_nil]
        simp only [fileAt, hd]
      rw [fileAt_update, puts_nil]
      exact Function.update_eq_self_iff.mpr hnone.symm
    · simpa only [Function.update_of_ne (hclear name)] using hd

/-- No directory on the way to the path is a file of `meta`. -/
def Clear (path : Path) : Prop := ∀ p ∈ path.inits, ∀ name, metaPath name ≠ p

theorem clear_nil : Clear [] := by
  intro p hp name he
  subst he
  simp [metaPath] at hp

theorem clear_meta : Clear ["meta"] := by
  intro p hp name he
  subst he
  simp [metaPath] at hp

theorem clear_below {top : String} (ht : top ≠ "meta") (tail : Path) : Clear (top :: tail) := by
  intro p hp name he
  subst he
  obtain ⟨rest, hrest⟩ := (List.mem_inits _ _).mp hp
  exact ht (List.cons_eq_cons.mp hrest).1.symm

theorem createDirAll_runs (hp : Clear path) (h : Runs (createDirAll path) w u w') :
    Effect tops [] w w' :=
  runs_forM_keeps Effect.refl (fun h h' => h.trans h')
    (fun p hmem _ _ h => createDir_runs (hp p hmem) h) h

theorem checkTarget_runs (h : Runs (checkTarget path) w u w') : Effect tops [] w w' := by
  obtain ⟨w₁, v, hget, hr⟩ := runs_bind.mp h
  obtain ⟨rfl, rfl⟩ := runs_get.mp hget
  split at hr
  · exact absurd hr runs_throw
  · obtain ⟨-, rfl⟩ := runs_pure.mp hr
    exact Effect.refl _
  · exact absurd hr runs_throw

theorem checkTarget_fails (h : Fails (checkTarget path) w e w') : Effect tops [] w w' := by
  rcases fails_bind.mp h with hg | ⟨w₁, v, hget, hr⟩
  · exact absurd hg fails_get
  · obtain ⟨rfl, rfl⟩ := runs_get.mp hget
    split at hr
    · obtain ⟨-, rfl⟩ := fails_throw.mp hr
      exact Effect.refl _
    · exact absurd hr fails_pure
    · obtain ⟨-, rfl⟩ := fails_throw.mp hr
      exact Effect.refl _

theorem writeBehind_runs (h : Runs (writeBehind path kept content) w u w') :
    Effect tops [(path, kept ++ content)] w w' := by
  obtain ⟨x, v, hc, hr⟩ := runs_bind.mp h
  obtain ⟨fault, v', hf, hr⟩ := runs_bind.mp hr
  refine (checkTarget_runs hc).trans ((takeFault_runs hf).trans ?_)
  cases fault with
  | none => exact putEntry_runs hr
  | some fault =>
    cases fault with
    | refused | partly => exact absurd hr runs_throw
    | torn written =>
      obtain ⟨y, v'', -, hr⟩ := runs_bind.mp hr
      exact absurd hr runs_throw

theorem writeFile_runs (h : Runs (writeFile path content) w u w') :
    Effect tops [(path, content)] w w' := writeBehind_runs h

/-- An append writes what the file holds and the content behind it. -/
theorem appendFile_runs (h : Runs (appendFile path content) w u w') :
    ∃ writes, Effect tops writes w w' ∧
      puts writes (fileAt w.root) =
        puts [(path, (fileAt w.root path).getD [] ++ content)] (fileAt w.root) := by
  obtain ⟨w₁, v, hget, hr⟩ := runs_bind.mp h
  obtain ⟨rfl, rfl⟩ := runs_get.mp hget
  split at hr
  · next old hd =>
    refine ⟨_, writeBehind_runs hr, ?_⟩
    simp only [fileAt, hd, Option.getD_some]
  · next hd =>
    obtain ⟨x, v', hw, hr⟩ := runs_bind.mp hr
    refine ⟨_, (writeFile_runs hw).trans (writeBehind_runs hr), ?_⟩
    have hnone : fileAt v.root path = none := by
      unfold fileAt
      split
      · next content' hc => exact absurd hc (hd content')
      · rfl
    simp only [hnone, Option.getD_none, puts_cons, puts_nil, List.cons_append, List.nil_append,
      Function.update_idem]

theorem removeStaged_runs (h : Runs (removeStaged top source) w u w') : Effect [top] [] w w' := by
  obtain rfl := runs_modify.mp h
  refine ⟨rfl, fun _ => id, rfl, fun top' ht => ?_, rfl, rfl⟩
  exact Function.update_of_ne (List.ne_of_not_mem_cons ht) _ _

theorem renameStaged_runs (h : Runs (renameStaged top source content destination) w u w') :
    Effect [top] [(destination, content)] w w' := by
  obtain ⟨x, v₁, ha, hr⟩ := runs_bind.mp h
  obtain ⟨y, v₂, hc, hr⟩ := runs_bind.mp hr
  obtain ⟨z, v₃, hp, hr⟩ := runs_bind.mp hr
  exact (attempt_runs ha).trans ((checkTarget_runs hc).trans
    ((putEntry_runs hp).behind (removeStaged_runs hr)))

/-- A rename that fails has changed nothing. -/
theorem renameStaged_fails (h : Fails (renameStaged top source content destination) w e w') :
    Effect tops [] w w' := by
  rcases fails_bind.mp h with ha | ⟨x, v₁, ha, hr⟩
  · exact attempt_fails ha
  · rcases fails_bind.mp hr with hc | ⟨y, v₂, hc, hr⟩
    · exact (attempt_runs ha).trans (checkTarget_fails hc)
    · rcases fails_bind.mp hr with hp | ⟨z, v₃, -, hr⟩
      · exact absurd hp fails_modify
      · exact absurd hr fails_modify

theorem moveOrCopyFile_runs (h : Runs (moveOrCopyFile top source content destination) w u w') :
    Effect [top] [(destination, content)] w w' := by
  rcases runs_tryCatch.mp h with h | ⟨e, v, hf, h⟩
  · exact renameStaged_runs h
  · obtain ⟨x, v₁, hw, hr⟩ := runs_bind.mp h
    obtain ⟨y, v₂, ha, hr⟩ := runs_bind.mp hr
    exact (renameStaged_fails hf).trans ((writeFile_runs hw).behind
      ((attempt_runs ha).trans (removeStaged_runs hr)))

end Operations

section Merge
variable {top name : String} {u : Unit} {source destination : Path} {entries : Forest Bytes}

/-- The recursive merge writes exactly the files of the tree, in the order of the walk. -/
theorem mergeEntries_runs (ht : top ≠ "meta") {tail : Path}
    (h : Runs (mergeEntries top source (top :: tail) entries) w u w') :
    Effect [top] (entries.filesFrom (top :: tail)) w w' := by
  induction entries generalizing source tail w w' u with
  | nil =>
    obtain ⟨-, rfl⟩ := runs_pure.mp h
    exact Effect.refl _
  | dir name children rest ihc ihr =>
    obtain ⟨x, v₁, hd, hr⟩ := runs_bind.mp h
    obtain ⟨y, v₂, ha, hr⟩ := runs_bind.mp hr
    obtain ⟨z, v₃, hc, hr⟩ := runs_bind.mp hr
    have hdir : Effect [top] [] w v₂ :=
      (createDirAll_runs (clear_below ht _) hd).trans (attempt_runs ha)
    have hrest := (ihc hc).trans (ihr hr)
    exact hdir.trans hrest
  | file name content rest ih =>
    obtain ⟨x, v₁, hd, hr⟩ := runs_bind.mp h
    obtain ⟨y, v₂, hm, hr⟩ := runs_bind.mp hr
    exact (createDirAll_runs (clear_below ht _) hd).trans ((moveOrCopyFile_runs hm).trans (ih hr))
  | other name rest ih => exact ih h

def treeFiles (staging : Staging) (top : String) : List (Path × Bytes) :=
  match staging.trees top with
  | some entries => entries.filesFrom [top]
  | none => []

theorem mergeTreeIfPresent_runs (ht : top ≠ "meta") (h : Runs (mergeTreeIfPresent top) w u w') :
    Effect [top] (treeFiles w.staging top) w w' := by
  obtain ⟨w₁, v, hget, hr⟩ := runs_bind.mp h
  obtain ⟨rfl, rfl⟩ := runs_get.mp hget
  unfold treeFiles
  split at hr
  · next hn =>
    obtain ⟨-, rfl⟩ := runs_pure.mp hr
    rw [hn]
    exact Effect.refl _
  · next entries hs =>
    obtain ⟨x, v₁, hd, hr⟩ := runs_bind.mp hr
    obtain ⟨y, v₂, ha, hr⟩ := runs_bind.mp hr
    rw [hs]
    exact (createDirAll_runs (clear_below ht []) hd).trans
      ((attempt_runs ha).trans (mergeEntries_runs ht hr))

/-- What one `jsonl` file of `meta` becomes: the first one is kept, or each one is appended. -/
def mergedJsonl (name : String) (keepExistingOnly : Bool) (staging : Staging)
    (files : Path → Option Bytes) : Path → Option Bytes :=
  match staging.jsonl name with
  | none => files
  | some contents =>
    if keepExistingOnly then
      if (files (metaPath name)).isSome then files
      else Function.update files (metaPath name) (some contents)
    else Function.update files (metaPath name)
      (some ((files (metaPath name)).getD [] ++ contents))

theorem isSome_fileAt {root : Root} {p : Path} (h : root.disk p ≠ some .dir) :
    (root.disk p).isSome = (fileAt root p).isSome := by
  unfold fileAt
  cases hd : root.disk p with
  | none => rfl
  | some entry =>
    cases entry with
    | dir => exact absurd hd h
    | file content => rfl

theorem mergeMetaJsonlIfPresent_runs {keepExistingOnly : Bool}
    (hdir : w.root.disk (metaPath name) ≠ some .dir)
    (h : Runs (mergeMetaJsonlIfPresent name keepExistingOnly) w u w') :
    ∃ writes, Effect tops writes w w' ∧ puts writes (fileAt w.root) =
      mergedJsonl name keepExistingOnly w.staging (fileAt w.root) := by
  obtain ⟨w₁, v, hget, hr⟩ := runs_bind.mp h
  obtain ⟨rfl, rfl⟩ := runs_get.mp hget
  unfold mergedJsonl
  cases hs : v.staging.jsonl name with
  | none =>
    simp only [hs] at hr
    obtain ⟨-, rfl⟩ := runs_pure.mp hr
    exact ⟨[], Effect.refl _, rfl⟩
  | some contents =>
    simp only [hs] at hr
    obtain ⟨x, v₁, hd, hg⟩ := runs_bind.mp hr
    obtain ⟨w₂, v₂, hget, hif⟩ := runs_bind.mp hg
    obtain ⟨rfl, rfl⟩ := runs_get.mp hget
    have hd : Effect tops [] v v₂ := createDirAll_runs clear_meta hd
    have hfiles : fileAt v₂.root = fileAt v.root := hd.files
    have hpresent : (v₂.root.disk (metaPath name)).isSome =
        (fileAt v.root (metaPath name)).isSome := by
      rw [isSome_fileAt fun hdir' => hdir (hd.dirs name hdir'), hfiles]
    simp only [hpresent] at hif
    cases keepExistingOnly with
    | true =>
      cases hp : (fileAt v.root (metaPath name)).isSome with
      | true =>
        simp only [hp, Bool.and_self, ↓reduceIte] at hif ⊢
        obtain ⟨-, rfl⟩ := runs_pure.mp hif
        exact ⟨[], hd, rfl⟩
      | false =>
        simp only [hp, Bool.and_false, Bool.false_eq_true, ↓reduceIte] at hif ⊢
        obtain ⟨y, v₃, ha, hw⟩ := runs_bind.mp hif
        exact ⟨_, hd.trans ((attempt_runs ha).trans (writeFile_runs hw)), rfl⟩
    | false =>
      simp only [Bool.false_and, Bool.false_eq_true, ↓reduceIte] at hif ⊢
      obtain ⟨y, v₃, ha, hw⟩ := runs_bind.mp hif
      have ha : Effect tops [] v₂ v₃ := attempt_runs ha
      have hfiles' : fileAt v₃.root = fileAt v.root := ha.files.trans hfiles
      obtain ⟨writes, happ, hputs⟩ := appendFile_runs hw
      rw [hfiles'] at hputs
      exact ⟨_, hd.trans (ha.trans happ), hputs⟩

theorem readDatasetInfo_runs {file : JsonFile} {info : DatasetInfo}
    (h : Runs (readDatasetInfo file) w info w') : file = .holds info ∧ Effect tops [] w w' := by
  obtain ⟨x, v, ha, hr⟩ := runs_bind.mp h
  cases file with
  | missing => exact absurd hr runs_throw
  | malformed => exact absurd hr runs_throw
  | holds info' =>
    obtain ⟨rfl, rfl⟩ := runs_pure.mp hr
    exact ⟨rfl, attempt_runs ha⟩

def JsonFile.value? : JsonFile → Option DatasetInfo
  | .holds info => some info
  | .missing | .malformed => none

def nextInfo (info : Option DatasetInfo) (staged : DatasetInfo) : DatasetInfo :=
  mergeInfo (info.getD (freshInfo staged)) staged

theorem updateRootInfo_runs {staged : DatasetInfo} (h : Runs (updateRootInfo staged) w u w') :
    fileAt w'.root = fileAt w.root ∧
      w'.root.info = .holds (nextInfo (JsonFile.value? w.root.info) staged) ∧
      ∀ name, w'.root.disk (metaPath name) = some .dir →
        w.root.disk (metaPath name) = some .dir := by
  obtain ⟨x, v₁, hd, hg⟩ := runs_bind.mp h
  obtain ⟨w₁, v, hget, hrest⟩ := runs_bind.mp hg
  obtain ⟨rfl, rfl⟩ := runs_get.mp hget
  have hd : Effect [] [] w v := createDirAll_runs clear_meta hd
  obtain ⟨info, v₂, hi, htail⟩ := runs_bind.mp hrest
  have hinfo : info = (JsonFile.value? v.root.info).getD (freshInfo staged) ∧
      Effect [] [] v v₂ := by
    cases hm : v.root.info with
    | missing =>
      rw [hm] at hi
      obtain ⟨rfl, rfl⟩ := runs_pure.mp hi
      exact ⟨rfl, Effect.refl _⟩
    | malformed =>
      rw [hm] at hi
      have hread : Runs (readDatasetInfo .malformed) v info v₂ := hi
      obtain ⟨hf, -⟩ : _ ∧ Effect [] [] v v₂ := readDatasetInfo_runs hread
      cases hf
    | holds info' =>
      rw [hm] at hi
      have hread : Runs (readDatasetInfo (.holds info')) v info v₂ := hi
      obtain ⟨hf, he⟩ := readDatasetInfo_runs hread
      cases hf
      exact ⟨rfl, he⟩
  obtain ⟨rfl, hread⟩ := hinfo
  obtain ⟨fault, v₃, hf, hw⟩ := runs_bind.mp htail
  have hall : Effect [] [] w v₃ := hd.trans (hread.trans (takeFault_runs hf))
  cases fault with
  | none =>
    obtain rfl := runs_modify.mp hw
    refine ⟨hall.files, ?_, hall.dirs⟩
    rw [← hd.info]
    rfl
  | some fault =>
    cases fault with
    | refused | partly => exact absurd hw runs_throw
    | torn written =>
      obtain ⟨y, v₄, -, hthrow⟩ := runs_bind.mp hw
      exact absurd hthrow runs_throw

theorem removeStagingDir_runs (h : Runs removeStagingDir w u w') : w'.root = w.root := by
  obtain ⟨fault, v, hf, hr⟩ := runs_bind.mp h
  have hroot : v.root = w.root := by
    obtain ⟨w₁, v₁, hget, hg⟩ := runs_bind.mp hf
    obtain ⟨x, v₂, hmod, hpure⟩ := runs_bind.mp hg
    obtain ⟨rfl, rfl⟩ := runs_get.mp hget
    obtain rfl := runs_modify.mp hmod
    obtain ⟨-, rfl⟩ := runs_pure.mp hpure
    rfl
  cases fault with
  | none =>
    obtain rfl := runs_modify.mp hr
    exact hroot
  | some fault =>
    cases fault with
    | refused | torn => exact absurd hr runs_throw
    | partly removed =>
      obtain ⟨y, v', -, hthrow⟩ := runs_bind.mp hr
      exact absurd hthrow runs_throw

def stagedFiles (staging : Staging) : List (Path × Bytes) :=
  treeFiles staging "data" ++ (treeFiles staging "videos" ++ treeFiles staging "raw")

def storeFiles (staging : Staging) (files : Path → Option Bytes) : Path → Option Bytes :=
  mergedJsonl "episodes_stats.jsonl" false staging
    (mergedJsonl "episodes.jsonl" false staging
      (mergedJsonl "tasks.jsonl" true staging (puts (stagedFiles staging) files)))

theorem mergedJsonl_congr {staging staging' : Staging} (h : staging'.jsonl = staging.jsonl)
    (name : String) (keepExistingOnly : Bool) :
    mergedJsonl name keepExistingOnly staging' = mergedJsonl name keepExistingOnly staging := by
  unfold mergedJsonl
  rw [h]

theorem treeFiles_congr {staging staging' : Staging} {top : String}
    (h : staging'.trees top = staging.trees top) :
    treeFiles staging' top = treeFiles staging top := by
  unfold treeFiles
  rw [h]

theorem mergeTrees_runs {w₁ w₂ w₃ : World} {x y z : Unit}
    (hdata : Runs (mergeTreeIfPresent "data") w x w₁)
    (hvideos : Runs (mergeTreeIfPresent "videos") w₁ y w₂)
    (hraw : Runs (mergeTreeIfPresent "raw") w₂ z w₃) :
    Effect ["data", "videos", "raw"] (stagedFiles w.staging) w w₃ := by
  have hdata := mergeTreeIfPresent_runs (by decide) hdata
  have hvideos := mergeTreeIfPresent_runs (by decide) hvideos
  have hraw := mergeTreeIfPresent_runs (by decide) hraw
  rw [treeFiles_congr (hdata.trees "videos" (by decide))] at hvideos
  rw [treeFiles_congr ((hvideos.trees "raw" (by decide)).trans
    (hdata.trees "raw" (by decide)))] at hraw
  exact (hdata.widen (by simp)).trans ((hvideos.widen (by simp)).trans (hraw.widen (by simp)))

/-- Since `w` the files have become `files`, and nothing the next steps read has changed. -/
structure Settled (w v : World) (files : Path → Option Bytes) : Prop where
  files : fileAt v.root = files
  dirs : ∀ name, v.root.disk (metaPath name) = some .dir → w.root.disk (metaPath name) = some .dir
  info : v.root.info = w.root.info
  jsonl : v.staging.jsonl = w.staging.jsonl

theorem Effect.settled (h : Effect tops writes w v) :
    Settled w v (puts writes (fileAt w.root)) := ⟨h.files, h.dirs, h.info, h.jsonl⟩

theorem Settled.jsonl_step {files : Path → Option Bytes} {keepExistingOnly : Bool} {v' : World}
    (h : Settled w v files) (hdir : ∀ name, w.root.disk (metaPath name) ≠ some .dir)
    (hr : Runs (mergeMetaJsonlIfPresent name keepExistingOnly) v u v') :
    Settled w v' (mergedJsonl name keepExistingOnly w.staging files) := by
  obtain ⟨writes, he, hputs⟩ := mergeMetaJsonlIfPresent_runs
    (fun hmeta => hdir name (h.dirs name hmeta)) hr
  have he : Effect [] writes v v' := he
  constructor
  · rw [he.files, hputs, mergedJsonl_congr h.jsonl, h.files]
  · exact fun name hd => h.dirs name (he.dirs name hd)
  · exact he.info.trans h.info
  · exact he.jsonl.trans h.jsonl

/-- A store that returns has merged the staged files and the staged `info.json`. -/
theorem storeEpisodeLocal_runs {config : LocalStorage.StorageRuntimeConfig} {output : String}
    (hdir : ∀ name, w.root.disk (metaPath name) ≠ some .dir)
    (h : Runs (storeEpisodeLocal config) w output w') :
    (∀ name, w'.root.disk (metaPath name) ≠ some .dir) ∧
      fileAt w'.root = storeFiles w.staging (fileAt w.root) ∧
      ∃ staged, w.staging.info = .holds staged ∧
        w'.root.info = .holds (nextInfo (JsonFile.value? w.root.info) staged) := by
  unfold storeEpisodeLocal at h
  cases hc : config.outputPath with
  | none =>
    rw [hc] at h
    exact absurd h runs_throw
  | some outputRoot =>
    rw [hc] at h
    obtain ⟨x, v₀, hd, hg⟩ := runs_bind.mp h
    obtain ⟨w₀, v, hget, hrest⟩ := runs_bind.mp hg
    obtain ⟨rfl, rfl⟩ := runs_get.mp hget
    obtain ⟨staged, v₁, hread, hrest₁⟩ := runs_bind.mp hrest
    obtain ⟨x₂, v₂, hdata, hrest₂⟩ := runs_bind.mp hrest₁
    obtain ⟨x₃, v₃, hvideos, hrest₃⟩ := runs_bind.mp hrest₂
    obtain ⟨x₄, v₄, hraw, hrest₄⟩ := runs_bind.mp hrest₃
    obtain ⟨x₅, v₅, htasks, hrest₅⟩ := runs_bind.mp hrest₄
    obtain ⟨x₆, v₆, hepisodes, hrest₆⟩ := runs_bind.mp hrest₅
    obtain ⟨x₇, v₇, hstats, hrest₇⟩ := runs_bind.mp hrest₆
    obtain ⟨x₈, v₈, hinfo, hrest₈⟩ := runs_bind.mp hrest₇
    obtain ⟨x₉, v₉, hremove, hpure⟩ := runs_bind.mp hrest₈
    obtain ⟨-, rfl⟩ := runs_pure.mp hpure
    have hroot : Effect [] [] w v := createDirAll_runs clear_nil hd
    obtain ⟨hstaged, hread⟩ := readDatasetInfo_runs hread
    have hopen : Effect [] [] w v₁ := hroot.trans hread
    have htrees := mergeTrees_runs hdata hvideos hraw
    have htrees := (hopen.widen (List.nil_subset _)).trans htrees
    have hstart : stagedFiles v₁.staging = stagedFiles w.staging := by
      unfold stagedFiles
      rw [treeFiles_congr (hopen.trees "data" (by decide)),
        treeFiles_congr (hopen.trees "videos" (by decide)),
        treeFiles_congr (hopen.trees "raw" (by decide))]
    rw [hstart] at htrees
    have hsettled := ((htrees.settled.jsonl_step hdir htasks).jsonl_step hdir
      hepisodes).jsonl_step hdir hstats
    obtain ⟨hfiles, hinfo, hmeta⟩ := updateRootInfo_runs hinfo
    rw [removeStagingDir_runs hremove]
    refine ⟨fun name hd => ?_, ?_, staged, ?_, ?_⟩
    · exact hdir name (hsettled.dirs name (hmeta name hd))
    · exact hfiles.trans hsettled.files
    · exact hroot.stagedInfo.symm.trans hstaged
    · rwa [hsettled.info] at hinfo

end Merge

end MergeEffects
