import Rollio.MergeEffects
import Mathlib.Algebra.Ring.Nat

/-! The dataset that a sequence of stores makes of an empty root: what every store adds is
found in it, and the order of the stores only shows in the `jsonl` files. -/
namespace MergedDataset
open FileTrees LerobotMerge MergeEffects OrderedTables
open LocalStorage (StorageRuntimeConfig)
open FallibleRuns (Runs)

/-- Nothing below the root, which itself may exist already. -/
structure Empty (root : Root) : Prop where
  disk : ∀ p, root.disk p = none ∨ p = [] ∧ root.disk p = some .dir
  info : root.info = .missing

def WellFormed (staging : Staging) : Prop :=
  ∀ top entries, staging.trees top = some entries → entries.Distinct

/-- No two of the staged episodes bring a file for the same path. -/
def DisjointFiles (stagings : List Staging) : Prop :=
  stagings.Pairwise fun s t => ∀ p content content',
    (p, content) ∈ stagedFiles s → (p, content') ∉ stagedFiles t

def stagedInfos (stagings : List Staging) : List DatasetInfo :=
  stagings.filterMap fun staging => JsonFile.value? staging.info

def totalEpisodes (stagings : List Staging) : ℕ :=
  ((stagedInfos stagings).map fun info => info.totalEpisodes.toNat).sum

def totalFrames (stagings : List Staging) : ℕ :=
  ((stagedInfos stagings).map fun info => info.totalFrames.toNat).sum

def concatenated (name : String) (stagings : List Staging) : Option Bytes :=
  match stagings.filterMap (·.jsonl name) with
  | [] => none
  | contents => some contents.flatten

/-- The dataset of the staged episodes, in storing order. -/
structure Merged (stagings : List Staging) (root : Root) : Prop where
  noInfo : stagings = [] → root.info = .missing
  info : stagings ≠ [] → ∃ info, root.info = .holds info ∧
    info.totalEpisodes.toNat = totalEpisodes stagings ∧
    info.totalFrames.toNat = totalFrames stagings ∧
    ∀ key : String, info.features[key]? =
      (stagedInfos stagings).findSome? fun staged => staged.features[key]?
  trees : ∀ p content, p.head? ≠ some "meta" →
    (fileAt root p = some content ↔ ∃ staging ∈ stagings, (p, content) ∈ stagedFiles staging)
  tasks : fileAt root (metaPath "tasks.jsonl") = stagings.findSome? (·.jsonl "tasks.jsonl")
  episodes : fileAt root (metaPath "episodes.jsonl") = concatenated "episodes.jsonl" stagings
  episodesStats : fileAt root (metaPath "episodes_stats.jsonl") =
    concatenated "episodes_stats.jsonl" stagings
  others : ∀ p, p.head? = some "meta" → p ≠ metaPath "tasks.jsonl" →
    p ≠ metaPath "episodes.jsonl" → p ≠ metaPath "episodes_stats.jsonl" → fileAt root p = none

/-- The same totals, feature keys and files outside `meta`. -/
structure SameDataset (root root' : Root) : Prop where
  totals : ∀ info info', root.info = .holds info → root'.info = .holds info' →
    info.totalEpisodes = info'.totalEpisodes ∧ info.totalFrames = info'.totalFrames ∧
    ∀ key, key ∈ info.features ↔ key ∈ info'.features
  trees : ∀ p, p.head? ≠ some "meta" → fileAt root p = fileAt root' p

section Files
variable {staging : Staging} {stagings : List Staging} {files : Path → Option Bytes}

theorem treeFiles_head {top : String} {p : Path} {content : Bytes}
    (h : (p, content) ∈ treeFiles staging top) : p.head? = some top := by
  unfold treeFiles at h
  split at h
  · obtain ⟨name, -, tail, rfl⟩ := filesFrom_below h
    rfl
  · cases h

theorem stagedFiles_head {p : Path} {content : Bytes} (h : (p, content) ∈ stagedFiles staging) :
    p.head? = some "data" ∨ p.head? = some "videos" ∨ p.head? = some "raw" := by
  rcases List.mem_append.mp h with h | h
  · exact Or.inl (treeFiles_head h)
  · rcases List.mem_append.mp h with h | h
    · exact Or.inr (Or.inl (treeFiles_head h))
    · exact Or.inr (Or.inr (treeFiles_head h))

theorem stagedFiles_not_meta {p : Path} (h : p.head? = some "meta") :
    p ∉ (stagedFiles staging).map Prod.fst := by
  intro hm
  obtain ⟨⟨q, content⟩, hq, rfl⟩ := List.mem_map.mp hm
  rcases stagedFiles_head hq with hh | hh | hh
  all_goals exact absurd (h.symm.trans hh) (by decide)

theorem mergedJsonl_other {name : String} {keepExistingOnly : Bool} {p : Path}
    (h : p ≠ metaPath name) :
    mergedJsonl name keepExistingOnly staging files p = files p := by
  unfold mergedJsonl
  cases staging.jsonl name with
  | none => rfl
  | some contents =>
    cases keepExistingOnly with
    | false => exact Function.update_of_ne h _ _
    | true =>
      simp only [↓reduceIte]
      split
      · rfl
      · exact Function.update_of_ne h _ _

theorem mergedJsonl_first (name : String) :
    mergedJsonl name true staging files (metaPath name) =
      (files (metaPath name)).or (staging.jsonl name) := by
  unfold mergedJsonl
  cases hs : staging.jsonl name with
  | none => simp
  | some contents =>
    cases hf : files (metaPath name) with
    | none => simp
    | some old => simp [hf]

theorem mergedJsonl_appended (name : String) :
    mergedJsonl name false staging files (metaPath name) =
      match staging.jsonl name with
      | none => files (metaPath name)
      | some contents => some ((files (metaPath name)).getD [] ++ contents) := by
  unfold mergedJsonl
  cases staging.jsonl name with
  | none => rfl
  | some contents => simp

theorem storeFiles_tree {p : Path} (h : p.head? ≠ some "meta") :
    storeFiles staging files p = puts (stagedFiles staging) files p := by
  have hne : ∀ name, p ≠ metaPath name := by
    rintro name rfl
    exact h rfl
  unfold storeFiles
  rw [mergedJsonl_other (hne _), mergedJsonl_other (hne _), mergedJsonl_other (hne _)]

theorem puts_meta {p : Path} (h : p.head? = some "meta") :
    puts (stagedFiles staging) files p = files p := puts_of_not_mem (stagedFiles_not_meta h)

theorem storeFiles_tasks : storeFiles staging files (metaPath "tasks.jsonl") =
    (files (metaPath "tasks.jsonl")).or (staging.jsonl "tasks.jsonl") := by
  unfold storeFiles
  rw [mergedJsonl_other (by decide), mergedJsonl_other (by decide), mergedJsonl_first,
    puts_meta rfl]

theorem storeFiles_episodes : storeFiles staging files (metaPath "episodes.jsonl") =
    match staging.jsonl "episodes.jsonl" with
    | none => files (metaPath "episodes.jsonl")
    | some contents => some ((files (metaPath "episodes.jsonl")).getD [] ++ contents) := by
  unfold storeFiles
  rw [mergedJsonl_other (by decide), mergedJsonl_appended, mergedJsonl_other (by decide),
    puts_meta rfl]

theorem storeFiles_episodesStats : storeFiles staging files (metaPath "episodes_stats.jsonl") =
    match staging.jsonl "episodes_stats.jsonl" with
    | none => files (metaPath "episodes_stats.jsonl")
    | some contents => some ((files (metaPath "episodes_stats.jsonl")).getD [] ++ contents) := by
  unfold storeFiles
  rw [mergedJsonl_appended, mergedJsonl_other (by decide), mergedJsonl_other (by decide),
    puts_meta rfl]

theorem storeFiles_other {p : Path} (h : p.head? = some "meta")
    (ht : p ≠ metaPath "tasks.jsonl") (he : p ≠ metaPath "episodes.jsonl")
    (hs : p ≠ metaPath "episodes_stats.jsonl") : storeFiles staging files p = files p := by
  unfold storeFiles
  rw [mergedJsonl_other hs, mergedJsonl_other he, mergedJsonl_other ht, puts_meta h]

def storedFiles (stagings : List Staging) (files : Path → Option Bytes) : Path → Option Bytes :=
  stagings.foldl (fun files staging => storeFiles staging files) files

theorem storedFiles_cons : storedFiles (staging :: stagings) files =
    storedFiles stagings (storeFiles staging files) := rfl

theorem storedFiles_tree {p : Path} (h : p.head? ≠ some "meta") :
    storedFiles stagings files p = puts (stagings.flatMap stagedFiles) files p := by
  induction stagings generalizing files with
  | nil => rfl
  | cons staging stagings ih =>
    rw [storedFiles_cons, ih, List.flatMap_cons, puts_append]
    exact puts_congr (storeFiles_tree h)

theorem storedFiles_tasks : storedFiles stagings files (metaPath "tasks.jsonl") =
    (files (metaPath "tasks.jsonl")).or (stagings.findSome? (·.jsonl "tasks.jsonl")) := by
  induction stagings generalizing files with
  | nil => simp [storedFiles]
  | cons staging stagings ih =>
    rw [storedFiles_cons, ih, storeFiles_tasks, Option.or_assoc, List.findSome?_cons]
    cases staging.jsonl "tasks.jsonl" <;> simp

/-- A file every store appends to holds the staged contents one behind the other. -/
theorem storedFiles_appended {name : String}
    (step : ∀ staging files, storeFiles staging files (metaPath name) =
      match staging.jsonl name with
      | none => files (metaPath name)
      | some contents => some ((files (metaPath name)).getD [] ++ contents)) :
    storedFiles stagings files (metaPath name) =
      match stagings.filterMap (·.jsonl name) with
      | [] => files (metaPath name)
      | contents => some ((files (metaPath name)).getD [] ++ contents.flatten) := by
  induction stagings generalizing files with
  | nil => rfl
  | cons staging stagings ih =>
    rw [storedFiles_cons, ih, step, List.filterMap_cons]
    cases staging.jsonl name with
    | none => rfl
    | some contents =>
      cases stagings.filterMap (·.jsonl name) <;> simp

theorem storedFiles_other {p : Path} (h : p.head? = some "meta")
    (ht : p ≠ metaPath "tasks.jsonl") (he : p ≠ metaPath "episodes.jsonl")
    (hs : p ≠ metaPath "episodes_stats.jsonl") : storedFiles stagings files p = files p := by
  induction stagings generalizing files with
  | nil => rfl
  | cons staging stagings ih => rw [storedFiles_cons, ih, storeFiles_other h ht he hs]

end Files

section Infos
variable {infos : List DatasetInfo} {start : Option DatasetInfo} {info staged : DatasetInfo}

theorem saturatingAdd32_exact {a b : UInt32} (h : a.toNat + b.toNat < 2 ^ 32) :
    (saturatingAdd32 a b).toNat = a.toNat + b.toNat := by
  unfold saturatingAdd32
  rw [Nat.min_eq_left (by omega)]
  exact UInt32.toNat_ofNat_of_lt' h

theorem saturatingAdd64_exact {a b : UInt64} (h : a.toNat + b.toNat < 2 ^ 64) :
    (saturatingAdd64 a b).toNat = a.toNat + b.toNat := by
  unfold saturatingAdd64
  rw [Nat.min_eq_left (by omega)]
  exact UInt64.toNat_ofNat_of_lt' h

def mergedInfo (infos : List DatasetInfo) (start : Option DatasetInfo) : Option DatasetInfo :=
  infos.foldl (fun info staged => some (nextInfo info staged)) start

theorem mergedInfo_cons : mergedInfo (staged :: infos) start =
    mergedInfo infos (some (nextInfo start staged)) := rfl

theorem mergedInfo_some (info : DatasetInfo) : ∃ last, mergedInfo infos (some info) = some last := by
  induction infos generalizing info with
  | nil => exact ⟨info, rfl⟩
  | cons staged infos ih => exact ih _

/-- What a counter of the dataset starts from. -/
def countOf (count : DatasetInfo → ℕ) (start : Option DatasetInfo) : ℕ :=
  (start.map count).getD 0

/-- A counter that a merge adds to exactly, below its limit, ends at the sum. -/
theorem mergedInfo_count {count : DatasetInfo → ℕ} {limit : ℕ}
    (step : ∀ start staged, countOf count start + count staged < limit →
      count (nextInfo start staged) = countOf count start + count staged)
    (hlt : countOf count start + (infos.map count).sum < limit)
    (h : mergedInfo infos start = some info) :
    count info = countOf count start + (infos.map count).sum := by
  induction infos generalizing start with
  | nil =>
    cases h
    rfl
  | cons staged infos ih =>
    rw [List.map_cons, List.sum_cons] at hlt ⊢
    have hstep := step start staged (by omega)
    have hstart : countOf count (some (nextInfo start staged)) =
        countOf count start + count staged := hstep
    rw [mergedInfo_cons] at h
    rw [ih (by rw [hstart]; omega) h, hstart]
    omega

theorem nextInfo_totalEpisodes (start : Option DatasetInfo) (staged : DatasetInfo)
    (h : countOf (fun info => info.totalEpisodes.toNat) start + staged.totalEpisodes.toNat <
      2 ^ 32) : (nextInfo start staged).totalEpisodes.toNat =
      countOf (fun info => info.totalEpisodes.toNat) start + staged.totalEpisodes.toNat := by
  cases start with
  | none => exact saturatingAdd32_exact h
  | some info => exact saturatingAdd32_exact h

theorem nextInfo_totalFrames (start : Option DatasetInfo) (staged : DatasetInfo)
    (h : countOf (fun info => info.totalFrames.toNat) start + staged.totalFrames.toNat <
      2 ^ 64) : (nextInfo start staged).totalFrames.toNat =
      countOf (fun info => info.totalFrames.toNat) start + staged.totalFrames.toNat := by
  cases start with
  | none => exact saturatingAdd64_exact h
  | some info => exact saturatingAdd64_exact h

theorem nextInfo_features (start : Option DatasetInfo) (staged : DatasetInfo) (key : String) :
    (nextInfo start staged).features[key]? =
      (start.bind fun info => info.features[key]?).or staged.features[key]? := by
  have hunion (features : Std.TreeMap String FeatureSpec) :
      (unionFeatures features staged.features)[key]? =
        (features[key]?).or staged.features[key]? := by
    unfold unionFeatures
    rw [lookup_foldl_insertIfNew, findSome_toList]
  cases start with
  | none => exact (hunion staged.features).trans (Option.or_self ..)
  | some info => exact hunion info.features

/-- A key keeps the spec of the first episode that had it. -/
theorem mergedInfo_features {key : String} (h : mergedInfo infos start = some info) :
    info.features[key]? = (start.bind fun info => info.features[key]?).or
      (infos.findSome? fun staged => staged.features[key]?) := by
  induction infos generalizing start with
  | nil =>
    cases h
    simp
  | cons staged infos ih =>
    rw [mergedInfo_cons] at h
    rw [ih h, Option.bind_some, nextInfo_features, Option.or_assoc, List.findSome?_cons]
    cases staged.features[key]? <;> simp

end Infos

section Runs
variable {config : StorageRuntimeConfig} {requests : List EpisodeReadyRequest} {root root' : Root}

/-- A sequence of stores that all succeed merges the files and the infos of its episodes. -/
theorem storeEpisodes_runs (hdir : ∀ name, root.disk (metaPath name) ≠ some .dir)
    (h : storeEpisodes config root requests = some root') :
    fileAt root' = storedFiles (requests.map (·.staging)) (fileAt root) ∧
      JsonFile.value? root'.info = mergedInfo (stagedInfos (requests.map (·.staging)))
        (JsonFile.value? root.info) ∧
      (stagedInfos (requests.map (·.staging))).length = requests.length := by
  induction requests generalizing root with
  | nil =>
    cases h
    exact ⟨rfl, rfl, rfl⟩
  | cons request requests ih =>
    unfold storeEpisodes at h
    split at h
    · next output w hr =>
      obtain ⟨hdir', hfiles, staged, hstaged, hinfo⟩ := storeEpisodeLocal_runs hdir hr
      obtain ⟨hfiles', hinfo', hlength⟩ := ih hdir' h
      have hcons : stagedInfos ((request :: requests).map (·.staging)) =
          staged :: stagedInfos (requests.map (·.staging)) := by
        unfold stagedInfos
        rw [List.map_cons, List.filterMap_cons, hstaged]
        rfl
      refine ⟨?_, ?_, ?_⟩
      · rw [hfiles', hfiles]
        rfl
      · rw [hinfo', hinfo, hcons, mergedInfo_cons]
        rfl
      · rw [hcons, List.length_cons, hlength, List.length_cons]
    · cases h

theorem Empty.no_dir (h : Empty root) (name : String) : root.disk (metaPath name) ≠ some .dir := by
  intro hd
  rcases h.disk (metaPath name) with hn | ⟨he, -⟩
  · cases hn.symm.trans hd
  · cases he

theorem Empty.no_file (h : Empty root) : fileAt root = fun _ => none := by
  funext p
  unfold fileAt
  rcases h.disk p with hn | ⟨-, hd⟩
  · rw [hn]
  · rw [hd]

theorem treeFiles_nodup {staging : Staging} (h : WellFormed staging) (top : String) :
    ((treeFiles staging top).map Prod.fst).Nodup := by
  unfold treeFiles
  split
  · next entries hs => exact filesFrom_nodup (h top entries hs) [top]
  · exact List.nodup_nil

/-- The trees of an episode do not share a path. -/
theorem treeFiles_disjoint {staging : Staging} {top top' : String} (h : top ≠ top') :
    List.Disjoint ((treeFiles staging top).map Prod.fst)
      ((treeFiles staging top').map Prod.fst) := by
  intro p hp hp'
  obtain ⟨⟨q, content⟩, hq, rfl⟩ := List.mem_map.mp hp
  obtain ⟨⟨q', content'⟩, hq', he⟩ := List.mem_map.mp hp'
  have he : q' = q := he
  subst he
  exact h (Option.some.inj ((treeFiles_head hq).symm.trans (treeFiles_head hq')))

theorem stagedFiles_nodup {staging : Staging} (h : WellFormed staging) :
    ((stagedFiles staging).map Prod.fst).Nodup := by
  unfold stagedFiles
  rw [List.map_append, List.nodup_append', List.map_append, List.nodup_append',
    List.disjoint_append_right]
  exact ⟨treeFiles_nodup h "data", ⟨treeFiles_nodup h "videos", treeFiles_nodup h "raw",
    treeFiles_disjoint (by decide)⟩, treeFiles_disjoint (by decide),
    treeFiles_disjoint (by decide)⟩

theorem all_stagedFiles_nodup {stagings : List Staging} (hw : ∀ s ∈ stagings, WellFormed s)
    (hd : DisjointFiles stagings) : ((stagings.flatMap stagedFiles).map Prod.fst).Nodup := by
  induction stagings with
  | nil => exact List.nodup_nil
  | cons staging stagings ih =>
    obtain ⟨hfirst, hd⟩ := List.pairwise_cons.mp hd
    rw [List.flatMap_cons, List.map_append, List.nodup_append']
    refine ⟨stagedFiles_nodup (hw staging List.mem_cons_self),
      ih (fun s hs => hw s (List.mem_cons_of_mem _ hs)) hd, fun p hp hp' => ?_⟩
    obtain ⟨⟨q, content⟩, hq, rfl⟩ := List.mem_map.mp hp
    obtain ⟨⟨q', content'⟩, hq', he⟩ := List.mem_map.mp hp'
    obtain ⟨s, hs, hq'⟩ := List.mem_flatMap.mp hq'
    have he : q' = q := he
    exact hfirst s hs q content content' hq (he ▸ hq')

/-- The dataset of a sequence of successful stores holds the staged episodes. -/
theorem merged_of_stores (hempty : Empty root) (hw : ∀ r ∈ requests, WellFormed r.staging)
    (hd : DisjointFiles (requests.map (·.staging)))
    (he : totalEpisodes (requests.map (·.staging)) < 2 ^ 32)
    (hf : totalFrames (requests.map (·.staging)) < 2 ^ 64)
    (h : storeEpisodes config root requests = some root') :
    Merged (requests.map (·.staging)) root' := by
  obtain ⟨hfiles, hinfo, hlength⟩ := storeEpisodes_runs hempty.no_dir h
  rw [hempty.no_file] at hfiles
  rw [hempty.info] at hinfo
  constructor
  · intro hnil
    obtain rfl := List.map_eq_nil_iff.mp hnil
    cases h
    exact hempty.info
  · intro hne
    obtain ⟨staged, infos, hinfos⟩ : ∃ staged infos,
        stagedInfos (requests.map (·.staging)) = staged :: infos := by
      cases hi : stagedInfos (requests.map (·.staging)) with
      | nil =>
        rw [hi, List.length_nil] at hlength
        exact absurd (List.map_eq_nil_iff.mpr (List.length_eq_zero_iff.mp hlength.symm)) hne
      | cons staged infos => exact ⟨staged, infos, rfl⟩
    obtain ⟨last, hlast⟩ : ∃ last,
        mergedInfo (stagedInfos (requests.map (·.staging))) none = some last := by
      rw [hinfos, mergedInfo_cons]
      exact mergedInfo_some _
    have hvalue : JsonFile.value? root'.info = some last := hinfo.trans hlast
    refine ⟨last, ?_, ?_, ?_, ?_⟩
    · cases hr : root'.info with
      | holds info =>
        rw [hr] at hvalue
        exact congrArg JsonFile.holds (Option.some.inj hvalue)
      | missing | malformed =>
        rw [hr] at hvalue
        cases hvalue
    · have hsum := mergedInfo_count nextInfo_totalEpisodes (by
        rw [show countOf _ none = 0 from rfl, Nat.zero_add]
        exact he) hlast
      rwa [show countOf _ none = 0 from rfl, Nat.zero_add] at hsum
    · have hsum := mergedInfo_count nextInfo_totalFrames (by
        rw [show countOf _ none = 0 from rfl, Nat.zero_add]
        exact hf) hlast
      rwa [show countOf _ none = 0 from rfl, Nat.zero_add] at hsum
    · intro key
      rw [mergedInfo_features hlast, Option.bind_none, Option.none_or]
  · intro p content hp
    rw [hfiles, storedFiles_tree hp, puts_eq_some_iff (all_stagedFiles_nodup (by simpa using hw) hd)
      rfl, List.mem_flatMap]
  · rw [hfiles, storedFiles_tasks, Option.none_or]
  · rw [hfiles, storedFiles_appended fun _ _ => storeFiles_episodes]
    rfl
  · rw [hfiles, storedFiles_appended fun _ _ => storeFiles_episodesStats]
    rfl
  · intro p hp ht he hs
    rw [hfiles, storedFiles_other hp ht he hs]

theorem Merged.mem_features {stagings : List Staging} {info : DatasetInfo} {key : String}
    (h : Merged stagings root) (hi : root.info = .holds info) :
    key ∈ info.features ↔ ∃ staged ∈ stagedInfos stagings, key ∈ staged.features := by
  have hne : stagings ≠ [] := by
    intro hnil
    cases (h.noInfo hnil).symm.trans hi
  obtain ⟨info', hi', -, -, hfeatures⟩ := h.info hne
  obtain rfl := JsonFile.holds.inj (hi.symm.trans hi')
  rw [Std.TreeMap.mem_iff_isSome_getElem?, hfeatures, List.findSome?_isSome_iff]
  simp only [Std.TreeMap.mem_iff_isSome_getElem?]

/-- The totals, the keys and the files outside `meta` are the same for every order. -/
theorem Merged.same {stagings stagings' : List Staging} (h : Merged stagings root)
    (h' : Merged stagings' root') (hp : stagings'.Perm stagings) : SameDataset root root' := by
  have hinfos : (stagedInfos stagings').Perm (stagedInfos stagings) := hp.filterMap _
  constructor
  · intro info info' hi hi'
    have hne : stagings ≠ [] := by
      intro hnil
      cases (h.noInfo hnil).symm.trans hi
    have hne' : stagings' ≠ [] := by
      rintro rfl
      exact hne (List.nil_perm.mp hp)
    obtain ⟨last, hlast, hepisodes, hframes, -⟩ := h.info hne
    obtain ⟨last', hlast', hepisodes', hframes', -⟩ := h'.info hne'
    obtain rfl := JsonFile.holds.inj (hi.symm.trans hlast)
    obtain rfl := JsonFile.holds.inj (hi'.symm.trans hlast')
    refine ⟨UInt32.toNat_inj.mp ?_, UInt64.toNat_inj.mp ?_, fun key => ?_⟩
    · rw [hepisodes, hepisodes']
      exact ((hinfos.map _).sum_nat).symm
    · rw [hframes, hframes']
      exact ((hinfos.map _).sum_nat).symm
    · rw [h.mem_features hi, h'.mem_features hi']
      simp only [hinfos.mem_iff]
  · intro p hmeta
    ext content
    rw [h.trees p content hmeta, h'.trees p content hmeta]
    simp only [hp.mem_iff]

theorem DisjointFiles.perm {stagings stagings' : List Staging} (h : DisjointFiles stagings)
    (hp : stagings'.Perm stagings) : DisjointFiles stagings' := by
  refine (hp.pairwise_iff ?_).mpr h
  intro s t hst p content content' ht hs
  exact hst p content' content hs ht

/-- The law of the dataset merge: whatever the order of the stores, the dataset holds what the
episodes brought, and another order leads to the same totals, feature keys and files. -/
theorem dataset_merge (config : StorageRuntimeConfig) (root root' : Root)
    (requests : List EpisodeReadyRequest) (hempty : Empty root)
    (hw : ∀ r ∈ requests, WellFormed r.staging)
    (hd : DisjointFiles (requests.map (·.staging)))
    (he : totalEpisodes (requests.map (·.staging)) < 2 ^ 32)
    (hf : totalFrames (requests.map (·.staging)) < 2 ^ 64)
    (h : storeEpisodes config root requests = some root') :
    Merged (requests.map (·.staging)) root' ∧
      ∀ reordered other other', (reordered.map (·.staging)).Perm (requests.map (·.staging)) →
        Empty other → storeEpisodes config other reordered = some other' →
        SameDataset root' other' := by
  have hmerged := merged_of_stores hempty hw hd he hf h
  refine ⟨hmerged, ?_⟩
  intro reordered other other' hp hempty' h'
  have hinfos : (stagedInfos (reordered.map (·.staging))).Perm
      (stagedInfos (requests.map (·.staging))) := hp.filterMap _
  have hw' : ∀ r ∈ reordered, WellFormed r.staging := by
    intro r hr
    obtain ⟨r', hr', heq⟩ := List.mem_map.mp (hp.mem_iff.mp (List.mem_map_of_mem hr))
    exact heq ▸ hw r' hr'
  refine hmerged.same (merged_of_stores hempty' hw' (hd.perm hp) ?_ ?_ h') hp
  · unfold totalEpisodes
    rw [(hinfos.map _).sum_nat]
    exact he
  · unfold totalFrames
    rw [(hinfos.map _).sum_nat]
    exact hf

end Runs

def stagedInfo (frames : UInt64) (key : String) : DatasetInfo :=
  { codebaseVersion := "v2.1"
    robotType := none
    totalEpisodes := 1
    totalFrames := frames
    totalTasks := 1
    chunksSize := 1000
    fps := 30
    splits := {}
    dataPath := "data/chunk-{episode_chunk:03d}/episode_{episode_index:06d}.parquet"
    videoPath := none
    rawPath := none
    features := ({} : Std.TreeMap String FeatureSpec).insert key ⟨"float64", [6], none, none⟩
    embeddedConfigToml := "" }

def stagedEpisode (file : String) (frames : UInt64) (key : String) : Staging :=
  { trees := fun top =>
      if top = "data" then some (.dir "chunk-000" (.file file [7] .nil) .nil) else none
    jsonl := fun name => if name = "episodes.jsonl" then some [1, 2] else none
    info := .holds (stagedInfo frames key) }

theorem stagedEpisode_wellFormed (file : String) (frames : UInt64) (key : String) :
    WellFormed (stagedEpisode file frames key) := by
  intro top entries ht
  simp only [stagedEpisode, Option.ite_none_right_eq_some, Option.some.injEq] at ht
  obtain ⟨-, rfl⟩ := ht
  simp [Forest.Distinct, Forest.names]

theorem stagedEpisode_files (file : String) (frames : UInt64) (key : String) :
    stagedFiles (stagedEpisode file frames key) = [(["data", "chunk-000", file], [7])] := rfl

def twoRequests : List EpisodeReadyRequest :=
  [⟨0, stagedEpisode "episode_000000.parquet" 10 "action", List.replicate 6 none ++ [some .refused]⟩,
    ⟨1, stagedEpisode "episode_000001.parquet" 20 "observation", []⟩]

theorem dataset_merge_two : ∃ root', storeEpisodes ⟨some "/dataset"⟩ ⟨fun _ => none, .missing⟩
    twoRequests = some root' ∧ Merged (twoRequests.map (·.staging)) root' := by
  obtain ⟨root', hroot⟩ := Option.isSome_iff_exists.mp
    (show (storeEpisodes ⟨some "/dataset"⟩ ⟨fun _ => none, .missing⟩ twoRequests).isSome = true by
      decide +kernel)
  refine ⟨root', hroot, (dataset_merge ⟨some "/dataset"⟩ _ root' twoRequests ?_ ?_ ?_ ?_ ?_
    hroot).1⟩
  · exact ⟨fun _ => Or.inl rfl, rfl⟩
  · intro r hr
    rcases List.mem_pair.mp hr with rfl | rfl <;> exact stagedEpisode_wellFormed _ _ _
  · refine List.pairwise_pair.mpr fun p content content' h h' => ?_
    rw [stagedEpisode_files, List.mem_singleton] at h h'
    have hp : p = ["data", "chunk-000", "episode_000000.parquet"] := congrArg Prod.fst h
    have hp' : p = ["data", "chunk-000", "episode_000001.parquet"] := congrArg Prod.fst h'
    exact absurd (hp.symm.trans hp') (by decide)
  · decide
  · decide

end MergedDataset
