import Rollio.MergeProgress

/-! A store that failed and is called again: which failures leave no trace in the dataset. -/
namespace StoreRetry
open FallibleRuns FileTrees LerobotMerge MergeEffects MergeProgress
open MergedDataset (WellFormed)
open LocalStorage (StorageRuntimeConfig)

section Jsonl

def bytesOf : Option Entry → Bytes
  | some (.file content) => content
  | _ => []

/-- Since `s` only the path of one `jsonl` file has changed, which now holds `d`; at most the
directories above it have been made. -/
structure Aside (path : Path) (s : World) (d : Option Entry) (v : World) : Prop where
  staging : v.staging = s.staging
  info : v.root.info = s.root.info
  frame : ∀ p, p ≠ path → p ≠ [] → p ≠ ["meta"] → v.root.disk p = s.root.disk p
  dirs : ∀ p, s.root.disk p = some .dir → v.root.disk p = some .dir
  here : v.root.disk path = d

variable {path p : Path} {name : String} {s v : World} {d : Option Entry} {content kept : Bytes}

theorem Aside.refl : Aside path s (s.root.disk path) s :=
  ⟨rfl, rfl, fun _ _ _ _ => rfl, fun _ h => h, rfl⟩

theorem aside_calm : Calm (Aside path s d) := fun _ _ h =>
  ⟨h.staging, h.info, h.frame, h.dirs, h.here⟩

theorem Aside.dir (h : Aside path s d v) (hpath : path ≠ p) (hp : p = [] ∨ p = ["meta"]) :
    Aside path s d (put v p .dir) where
  staging := h.staging
  info := h.info
  frame := by
    intro q hq hroot hmeta
    have hne : q ≠ p := by
      rcases hp with rfl | rfl
      · exact hroot
      · exact hmeta
    exact (put_other hne v _).trans (h.frame q hq hroot hmeta)
  dirs := by
    intro q hq
    by_cases hne : q = p
    · rw [hne, put_self]
    · rw [put_other hne]
      exact h.dirs q hq
  here := (put_other hpath v _).trans h.here

theorem Aside.file (h : Aside path s d v) (hd : d ≠ some .dir) (content : Bytes) :
    Aside path s (some (.file content)) (put v path (.file content)) where
  staging := h.staging
  info := h.info
  frame := fun q hq hroot hmeta => (put_other hq v _).trans (h.frame q hq hroot hmeta)
  dirs := by
    intro q hq
    by_cases hne : q = path
    · subst hne
      exact absurd (h.here.symm.trans (h.dirs q hq)) hd
    · rw [put_other hne]
      exact h.dirs q hq
  here := put_self v path _

theorem metaPath_ne (hp : p = [] ∨ p = ["meta"]) : metaPath name ≠ p := by
  rcases hp with rfl | rfl
  · exact List.cons_ne_nil _ _
  · exact fun h => List.cons_ne_nil _ _ (List.cons.inj h).2

theorem meets_metaDir {made : List Path} (hp : p = [] ∨ p = ["meta"]) (hpath : path ≠ p) :
    Meets (fun v => Aside path s d v ∧ ∀ q ∈ made, v.root.disk q = some .dir) (createDir p)
      (fun _ v => Aside path s d v ∧ ∀ q ∈ made ++ [p], v.root.disk q = some .dir)
      (Aside path s d) := by
  have hmade {v : World} (h : ∀ q ∈ made, v.root.disk q = some .dir)
      (hv : v.root.disk p = some .dir) : ∀ q ∈ made ++ [p], v.root.disk q = some .dir := by
    intro q hq
    rcases List.mem_append.mp hq with hq | hq
    · exact h q hq
    · exact List.mem_singleton.mp hq ▸ hv
  refine meets_get_bind fun t ht => ?_
  split
  · next hd =>
    refine meets_pure ?_
    rintro _ rfl
    exact ⟨ht.1, hmade ht.2 hd⟩
  · refine meets_throw ?_
    rintro _ rfl
    exact ht.1
  · have hcalm : Calm fun v => Aside path s d v ∧ ∀ q ∈ made, v.root.disk q = some .dir :=
      fun v faults h => ⟨aside_calm v faults h.1, h.2⟩
    refine meets_bind ((meets_attempt hcalm fun _ h => h.1).weaken (by rintro _ rfl; exact ht)
      (fun _ _ h => h) fun _ h => h) fun _ => meets_modify fun v hv => ?_
    refine ⟨hv.1.dir hpath hp, hmade (fun q hq => ?_) (put_self v p .dir)⟩
    by_cases hne : q = p
    · rw [hne]
      exact put_self v p .dir
    · exact (put_other hne v _).trans (hv.2 q hq)

theorem meets_metaDirs : Meets (Aside (metaPath name) s d) (createDirAll ["meta"])
    (fun _ v => Aside (metaPath name) s d v ∧ Holds v.root ([], none) ∧
      Holds v.root (["meta"], none)) (Aside (metaPath name) s d) := by
  have hloop : Meets (fun v => Aside (metaPath name) s d v ∧ ∀ q ∈ [], v.root.disk q = some .dir)
      (List.forM (["meta"] : Path).inits createDir) (fun _ v => Aside (metaPath name) s d v ∧
        ∀ q ∈ (["meta"] : Path).inits, v.root.disk q = some .dir) (Aside (metaPath name) s d) := by
    refine meets_forM (fun before v => Aside (metaPath name) s d v ∧
      ∀ q ∈ before, v.root.disk q = some .dir) ?_
    intro before p after hl
    have hmem : p ∈ (["meta"] : Path).inits := hl ▸ List.mem_append_right _ List.mem_cons_self
    have hp : p = [] ∨ p = ["meta"] := List.mem_pair.mp hmem
    exact meets_metaDir hp (metaPath_ne hp)
  refine hloop.weaken (fun v h => ⟨h, fun q hq => nomatch hq⟩) (fun _ v h => ?_) fun _ h => h
  exact ⟨h.1, h.2 [] List.mem_cons_self, h.2 ["meta"] (List.mem_cons_of_mem _ List.mem_cons_self)⟩

theorem meets_writeBehind : Meets (Aside path s d) (writeBehind path kept content)
    (fun _ => Aside path s (some (.file (kept ++ content))))
    (fun v => Aside path s d v ∨
      ∃ written, Aside path s (some (.file (kept ++ content.take written))) v) := by
  have htarget : Meets (Aside path s d) (checkTarget path)
      (fun _ v => Aside path s d v ∧ d ≠ some .dir) (fun v => Aside path s d v ∨
        ∃ written, Aside path s (some (.file (kept ++ content.take written))) v) := by
    refine meets_get_bind fun t ht => ?_
    split
    · refine meets_throw ?_
      rintro _ rfl
      exact Or.inl ht
    · next hne =>
      refine meets_pure ?_
      rintro _ rfl
      exact ⟨ht, fun hd => hne (ht.here.trans hd)⟩
    · refine meets_throw ?_
      rintro _ rfl
      exact Or.inl ht
  have hcalm : Calm fun v => Aside path s d v ∧ d ≠ some .dir :=
    fun v faults h => ⟨aside_calm v faults h.1, h.2⟩
  refine meets_bind htarget fun _ => meets_bind (meets_takeFault hcalm) fun fault => ?_
  cases fault with
  | none => exact meets_modify fun v hv => hv.1.file hv.2 _
  | some fault =>
    cases fault with
    | torn written =>
      refine meets_then (Aside path s (some (.file (kept ++ content.take written))))
        (meets_modify fun v hv => hv.1.file hv.2 _) (meets_throw fun v hv => Or.inr ⟨written, hv⟩)
    | refused | partly => exact meets_throw fun v hv => Or.inl hv.1

/-- Every way an append ends, in terms of what the file held before. -/
theorem meets_appendFile : Meets (Aside path s d) (appendFile path content)
    (fun _ => Aside path s (some (.file (bytesOf d ++ content))))
    (fun v => ∃ d' written, Aside path s d' v ∧
      bytesOf d' = bytesOf d ++ content.take written) := by
  refine meets_get_bind fun t ht => ?_
  have hhere := ht.here
  split
  · next old hd =>
    obtain rfl : some (.file old) = d := hd.symm.trans hhere
    refine (@meets_writeBehind path s (some (.file old)) content old).weaken ?_ (fun _ _ h => h) ?_
    · rintro _ rfl
      exact ht
    · rintro v (h | ⟨written, h⟩)
      · exact ⟨_, 0, h, (List.append_nil _).symm⟩
      · exact ⟨_, written, h, rfl⟩
  · next hnone =>
    have hbytes : bytesOf d = [] := by
      unfold bytesOf
      split
      · next old => exact absurd hhere (hnone old)
      · rfl
    rw [hbytes]
    refine meets_then (Aside path s (some (.file []))) ?_ ?_
    · refine (@meets_writeBehind path s d [] []).weaken ?_ (fun _ _ h => h) ?_
      · rintro _ rfl
        exact ht
      · rintro v (h | ⟨written, h⟩)
        · exact ⟨d, 0, h, hbytes⟩
        · exact ⟨_, 0, h, by simp [bytesOf]⟩
    · refine meets_writeBehind.weaken (fun _ h => h) (fun _ _ h => h) ?_
      rintro v (h | ⟨written, h⟩)
      · exact ⟨_, 0, h, rfl⟩
      · exact ⟨_, written, h, rfl⟩

/-- The tasks of a dataset are those of its first episode that has some. -/
def tasksAfter (staged : Option Bytes) (old : Option Entry) : Option Entry :=
  match staged with
  | none => old
  | some contents => if old.isSome then old else some (.file contents)

def appendedAfter (staged : Option Bytes) (old : Option Entry) : Option Entry :=
  match staged with
  | none => old
  | some contents => some (.file (bytesOf old ++ contents))

theorem meets_tasks : Meets (Aside (metaPath name) s d) (mergeMetaJsonlIfPresent name true)
    (fun _ => Aside (metaPath name) s (tasksAfter (s.staging.jsonl name) d))
    (fun v => ∃ contents, s.staging.jsonl name = some contents ∧ (Aside (metaPath name) s d v ∨
      d = none ∧ ∃ written,
        Aside (metaPath name) s (some (.file (contents.take written))) v)) := by
  refine meets_get_bind fun t ht => ?_
  have hjsonl : t.staging.jsonl name = s.staging.jsonl name := by rw [ht.staging]
  rw [← hjsonl]
  split
  · next hn =>
    rw [hn]
    refine meets_pure ?_
    rintro _ rfl
    exact ht
  · next contents hc =>
    rw [hc]
    have hdirs : Meets (· = t) (createDirAll ["meta"]) (fun _ => Aside (metaPath name) s d)
        (Aside (metaPath name) s d) :=
      meets_metaDirs.weaken (by rintro _ rfl; exact ht) (fun _ _ h => h.1) fun _ h => h
    have hkept : ∀ v, Aside (metaPath name) s d v → ∃ contents', some contents = some contents' ∧
        (Aside (metaPath name) s d v ∨ d = none ∧ ∃ written,
          Aside (metaPath name) s (some (.file (contents'.take written))) v) :=
      fun v h => ⟨contents, rfl, Or.inl h⟩
    refine meets_bind (hdirs.weaken (fun _ h => h) (fun _ _ h => h) hkept)
      fun _ => meets_get_bind fun u hu => ?_
    rw [hu.here]
    split
    · next hsome =>
      refine meets_pure ?_
      rintro _ rfl
      simp only [Bool.true_and] at hsome
      simpa only [tasksAfter, hsome, ↓reduceIte] using hu
    · next hsome =>
      simp only [Bool.true_and, Bool.not_eq_true, Option.isSome_eq_false_iff,
        Option.isNone_iff_eq_none] at hsome
      subst hsome
      refine meets_bind ((meets_attempt aside_calm hkept).weaken
        (by rintro _ rfl; exact hu) (fun _ _ h => h) fun _ h => h) fun _ => ?_
      refine (@meets_writeBehind (metaPath name) s none contents []).weaken (fun _ h => h)
        (fun _ _ h => h) ?_
      rintro v (h | ⟨written, h⟩)
      · exact ⟨contents, rfl, Or.inl h⟩
      · exact ⟨contents, rfl, Or.inr ⟨rfl, written, h⟩⟩

theorem meets_appended : Meets (Aside (metaPath name) s d) (mergeMetaJsonlIfPresent name false)
    (fun _ => Aside (metaPath name) s (appendedAfter (s.staging.jsonl name) d))
    (fun v => ∃ contents d' written, s.staging.jsonl name = some contents ∧
      Aside (metaPath name) s d' v ∧ bytesOf d' = bytesOf d ++ contents.take written) := by
  refine meets_get_bind fun t ht => ?_
  have hjsonl : t.staging.jsonl name = s.staging.jsonl name := by rw [ht.staging]
  rw [← hjsonl]
  split
  · next hn =>
    rw [hn]
    refine meets_pure ?_
    rintro _ rfl
    exact ht
  · next contents hc =>
    rw [hc]
    have hkept : ∀ v, Aside (metaPath name) s d v → ∃ contents' d' written,
        some contents = some contents' ∧ Aside (metaPath name) s d' v ∧
          bytesOf d' = bytesOf d ++ contents'.take written :=
      fun v h => ⟨contents, d, 0, rfl, h, by simp⟩
    have hdirs : Meets (· = t) (createDirAll ["meta"]) (fun _ => Aside (metaPath name) s d)
        (Aside (metaPath name) s d) :=
      meets_metaDirs.weaken (by rintro _ rfl; exact ht) (fun _ _ h => h.1) fun _ h => h
    refine meets_bind (hdirs.weaken (fun _ h => h) (fun _ _ h => h) hkept)
      fun _ => meets_get_bind fun u hu => ?_
    simp only [Bool.false_and, Bool.false_eq_true, ↓reduceIte]
    refine meets_bind ((meets_attempt aside_calm hkept).weaken (by rintro _ rfl; exact hu)
      (fun _ _ h => h) fun _ h => h) fun _ => ?_
    refine meets_appendFile.weaken (fun _ h => h) (fun _ _ h => h) ?_
    rintro v ⟨d', written, h, hbytes⟩
    exact ⟨contents, d', written, rfl, h, hbytes⟩

end Jsonl

section Phases

/-- The part of a store before it touches `meta`. -/
def mergeTrees : Io DatasetInfo := do
  createDirAll []
  let w ← get
  let stagedInfo ← readDatasetInfo w.staging.info
  mergeTreeIfPresent "data"
  mergeTreeIfPresent "videos"
  mergeTreeIfPresent "raw"
  pure stagedInfo

theorem storeEpisodeLocal_eq {config : StorageRuntimeConfig} {outputRoot : String}
    (h : config.outputPath = some outputRoot) : storeEpisodeLocal config =
      mergeTrees >>= fun stagedInfo => do
        mergeMetaJsonlIfPresent "tasks.jsonl" true
        mergeMetaJsonlIfPresent "episodes.jsonl" false
        mergeMetaJsonlIfPresent "episodes_stats.jsonl" false
        updateRootInfo stagedInfo
        removeStagingDir
        return outputRoot := by
  unfold storeEpisodeLocal mergeTrees
  rw [h]
  simp only [bind_assoc, pure_bind]

/-- Where a call stopped, and how many bytes it had written to the file it was at. -/
inductive FailurePoint where
  | trees
  | tasks (written : Option ℕ)
  | episodes (written : ℕ)
  | episodesStats (written : ℕ)
  | info
  | removal (removed : List Path)
  deriving DecidableEq

def stagedBytes (w : World) (name : String) : Bytes := (w.staging.jsonl name).getD []

def tasksLeft (old : Option Entry) (contents : Bytes) : Option ℕ → Option Entry
  | none => old
  | some written => some (.file (contents.take written))

inductive FailsAt (w : World) : FailurePoint → World → Prop
  | trees {e v} (h : Fails mergeTrees w e v) : FailsAt w .trees v
  | tasks {staged u e v written} (h : Runs mergeTrees w staged u)
      (hf : Fails (mergeMetaJsonlIfPresent "tasks.jsonl" true) u e v)
      (hnew : written.isSome → u.root.disk (metaPath "tasks.jsonl") = none)
      (hw : v.root.disk (metaPath "tasks.jsonl") = tasksLeft
        (u.root.disk (metaPath "tasks.jsonl")) (stagedBytes w "tasks.jsonl") written) :
      FailsAt w (.tasks written) v
  | episodes {staged t u e v written} (h : Runs mergeTrees w staged t)
      (ht : Runs (mergeMetaJsonlIfPresent "tasks.jsonl" true) t () u)
      (hf : Fails (mergeMetaJsonlIfPresent "episodes.jsonl" false) u e v)
      (hw : bytesOf (v.root.disk (metaPath "episodes.jsonl")) =
        bytesOf (u.root.disk (metaPath "episodes.jsonl")) ++
          (stagedBytes w "episodes.jsonl").take written) : FailsAt w (.episodes written) v
  | episodesStats {staged t t₁ u e v written} (h : Runs mergeTrees w staged t)
      (ht : Runs (mergeMetaJsonlIfPresent "tasks.jsonl" true) t () t₁)
      (he : Runs (mergeMetaJsonlIfPresent "episodes.jsonl" false) t₁ () u)
      (hf : Fails (mergeMetaJsonlIfPresent "episodes_stats.jsonl" false) u e v)
      (hw : bytesOf (v.root.disk (metaPath "episodes_stats.jsonl")) =
        bytesOf (u.root.disk (metaPath "episodes_stats.jsonl")) ++
          (stagedBytes w "episodes_stats.jsonl").take written) : FailsAt w (.episodesStats written) v
  | info {staged t t₁ t₂ u e v} (h : Runs mergeTrees w staged t)
      (ht : Runs (mergeMetaJsonlIfPresent "tasks.jsonl" true) t () t₁)
      (he : Runs (mergeMetaJsonlIfPresent "episodes.jsonl" false) t₁ () t₂)
      (hs : Runs (mergeMetaJsonlIfPresent "episodes_stats.jsonl" false) t₂ () u)
      (hf : Fails (updateRootInfo staged) u e v) : FailsAt w .info v
  | removal {staged t t₁ t₂ t₃ u e v removed} (h : Runs mergeTrees w staged t)
      (ht : Runs (mergeMetaJsonlIfPresent "tasks.jsonl" true) t () t₁)
      (he : Runs (mergeMetaJsonlIfPresent "episodes.jsonl" false) t₁ () t₂)
      (hs : Runs (mergeMetaJsonlIfPresent "episodes_stats.jsonl" false) t₂ () t₃)
      (hi : Runs (updateRootInfo staged) t₃ () u) (hf : Fails removeStagingDir u e v)
      (hr : v.staging = u.staging.without removed) : FailsAt w (.removal removed) v

/-- Nothing that a second call would do again has been done: no byte has been appended, the
tasks are whole or absent, and another merge of the counts changes nothing. -/
def Harmless (w : World) : FailurePoint → Prop
  | .trees | .tasks none => True
  | .tasks (some written) => (stagedBytes w "tasks.jsonl").length ≤ written
  | .episodes written => stagedBytes w "episodes.jsonl" = [] ∨ written = 0
  | .episodesStats written => stagedBytes w "episodes.jsonl" = [] ∧
      (stagedBytes w "episodes_stats.jsonl" = [] ∨ written = 0)
  | .info => stagedBytes w "episodes.jsonl" = [] ∧ stagedBytes w "episodes_stats.jsonl" = []
  | .removal removed =>
      (metaPath "episodes.jsonl" ∈ removed ∨ stagedBytes w "episodes.jsonl" = []) ∧
      (metaPath "episodes_stats.jsonl" ∈ removed ∨ stagedBytes w "episodes_stats.jsonl" = []) ∧
      ∀ staged, w.staging.info = .holds staged →
        nextInfo (some (nextInfo (JsonFile.value? w.root.info) staged)) staged =
          nextInfo (JsonFile.value? w.root.info) staged

end Phases

section Ways
variable {w u v : World} {staged : DatasetInfo}

theorem metaPath_not_entry {staging : Staging} (name : String) :
    metaPath name ∉ (entries staging).map Prod.fst := by
  intro hm
  obtain ⟨⟨p, e⟩, hx, hp⟩ := List.mem_map.mp hm
  rcases mem_entries.mp hx with he | he | ⟨top, ht, he⟩
  · cases he
    exact absurd hp.symm (metaPath_ne (Or.inl rfl))
  · cases he
    exact absurd hp.symm (metaPath_ne (Or.inr rfl))
  · obtain rfl : p = metaPath name := hp
    exact tops_ne_meta ht (Option.some.inj (treeEntries_head he)).symm

/-- The trees are merged, and the files of `meta` other than `info.json` are as in `d`. -/
structure Past (w : World) (d : String → Option Entry) (v : World) : Prop where
  distinct : WellFormed v.staging
  staged : entries v.staging ⊆ entries w.staging
  jsonl : v.staging.jsonl = w.staging.jsonl
  stagedInfo : v.staging.info = w.staging.info
  held : ∀ x ∈ entries w.staging, x ≠ (["meta"], none) → Holds v.root x
  frame : ∀ p ∉ (entries w.staging).map Prod.fst, (∀ name, p ≠ metaPath name) →
    v.root.disk p = w.root.disk p
  files : ∀ name, v.root.disk (metaPath name) = d name

theorem meets_readDatasetInfo {file : JsonFile} {P E : World → Prop} (hP : Calm P)
    (hE : ∀ v, P v → E v) :
    Meets P (readDatasetInfo file) (fun info v => file = .holds info ∧ P v) E := by
  refine meets_bind (meets_attempt hP hE) fun _ => ?_
  cases file with
  | missing | malformed => exact meets_throw hE
  | holds info => exact meets_pure fun _ h => ⟨rfl, h⟩

theorem meets_mergeTrees (hw : WellFormed w.staging) : Meets (· = w) mergeTrees
    (fun staged v => w.staging.info = .holds staged ∧ v.root.info = w.root.info ∧
      Past w (fun name => w.root.disk (metaPath name)) v)
    (Underway w) := by
  have hopen : Meets (· = w) (createDirAll []) (fun _ => Reached w tops [([], none)] [])
      (Underway w) := by
    refine (meets_createDirAll hw rooted_nil).weaken ?_ (fun _ _ h => h) fun _ h => h
    rintro _ rfl
    exact ⟨Underway.refl hw, fun _ _ => rfl, List.nil_subset _, fun x hx => absurd hx List.not_mem_nil,
      List.nil_subset _⟩
  refine meets_bind hopen fun _ => meets_get_bind fun s hs => ?_
  rw [hs.stagedInfo]
  have hread : Meets (· = s) (readDatasetInfo w.staging.info)
      (fun info v => w.staging.info = .holds info ∧ Reached w tops [([], none)] [] v)
      (Underway w) := by
    refine (meets_readDatasetInfo reached_calm fun _ h => h.toUnderway).weaken ?_
      (fun _ _ h => h) fun _ h => h
    rintro _ rfl
    exact hs
  refine meets_bind hread fun staged => ?_
  by_cases hstaged : w.staging.info = .holds staged
  · refine Meets.weaken ?_ (fun _ h => h.2) (fun _ _ h => h) fun _ h => h
    refine meets_bind (meets_mergeTreeIfPresent hw (by decide) (by decide)) fun _ => ?_
    refine meets_bind (meets_mergeTreeIfPresent hw (by decide) (by decide)) fun _ => ?_
    refine meets_bind (meets_mergeTreeIfPresent hw (by decide) (by decide)) fun _ => ?_
    refine meets_pure fun v hv => ⟨hstaged, hv.info, ?_⟩
    constructor
    · exact hv.distinct
    · exact hv.staged
    · exact hv.jsonl
    · exact hv.stagedInfo
    · intro x hx hne
      refine hv.seen x ?_
      rcases mem_entries.mp hx with rfl | rfl | ⟨top, ht, hx⟩
      · simp
      · exact absurd rfl hne
      · simp only [tops, List.mem_cons, List.not_mem_nil, or_false] at ht
        simp only [List.mem_append]
        rcases ht with rfl | rfl | rfl
        · exact Or.inr (Or.inr (Or.inl hx))
        · exact Or.inr (Or.inl hx)
        · exact Or.inl hx
    · intro p hp _
      exact hv.frame p hp
    · intro name
      exact hv.frame _ (metaPath_not_entry name)
  · intro v hv
    exact absurd hv.1 hstaged

theorem Past.aside {d : String → Option Entry} {d' : Option Entry} {name : String}
    (h : Past w d u) (ha : Aside (metaPath name) u d' v) :
    Past w (Function.update d name d') v where
  distinct := ha.staging ▸ h.distinct
  staged := ha.staging ▸ h.staged
  jsonl := (congrArg Staging.jsonl ha.staging).trans h.jsonl
  stagedInfo := (congrArg Staging.info ha.staging).trans h.stagedInfo
  held := by
    rintro ⟨p, e⟩ hx hne
    have hu := h.held _ hx hne
    cases e with
    | none => exact ha.dirs p hu
    | some content =>
      have hp : p ≠ metaPath name := by
        rintro rfl
        exact metaPath_not_entry name (List.mem_map_of_mem hx)
      have htree : ∃ top ∈ tops, p.head? = some top := by
        rcases mem_entries.mp hx with he | he | ⟨top, ht, he⟩
        · exact absurd (congrArg Prod.snd he) (Option.some_ne_none _)
        · exact absurd (congrArg Prod.snd he) (Option.some_ne_none _)
        · exact ⟨top, ht, treeEntries_head he⟩
      obtain ⟨top, ht, hhead⟩ := htree
      refine (ha.frame p hp ?_ ?_).trans hu
      · rintro rfl
        cases hhead
      · rintro rfl
        exact tops_ne_meta ht (Option.some.inj hhead).symm
  frame := by
    intro p hp hmeta
    refine (ha.frame p (hmeta name) ?_ ?_).trans (h.frame p hp hmeta)
    · rintro rfl
      exact hp (List.mem_map_of_mem List.mem_cons_self)
    · rintro rfl
      exact hp (List.mem_map_of_mem (List.mem_cons_of_mem _ List.mem_cons_self))
  files := by
    intro name'
    by_cases hn : name' = name
    · subst hn
      rw [Function.update_self]
      exact ha.here
    · rw [Function.update_of_ne hn, ← h.files name']
      exact ha.frame _ (fun he => hn (by simpa [metaPath] using he)) (metaPath_ne (Or.inl rfl))
        (metaPath_ne (Or.inr rfl))

/-- Apart from `info.json` a step has at most made the directories above it. -/
def Rewritten (u v : World) : Prop :=
  Aside (metaPath "info.json") u (u.root.disk (metaPath "info.json"))
    { v with root := { v.root with info := u.root.info } }

theorem Past.rewritten {d : String → Option Entry} (h : Past w d u) (hv : Rewritten u v) :
    Past w d v := by
  have hall := h.aside hv
  rw [h.files, Function.update_eq_self] at hall
  exact ⟨hall.distinct, hall.staged, hall.jsonl, hall.stagedInfo, hall.held, hall.frame, hall.files⟩

theorem meets_currentInfo {file : JsonFile} {P E : World → Prop} (hP : Calm P)
    (hE : ∀ v, P v → E v) : Meets P (currentInfo staged file) (fun info v =>
      (info = (JsonFile.value? file).getD (freshInfo staged) ∧ file ≠ .malformed) ∧ P v) E := by
  cases file with
  | missing => exact meets_pure fun v hv => ⟨⟨rfl, nofun⟩, hv⟩
  | malformed =>
    refine (@meets_readDatasetInfo .malformed P E hP hE).weaken (fun _ h => h) (fun _ _ h => ?_)
      fun _ h => h
    cases h.1
  | holds info =>
    refine (@meets_readDatasetInfo (.holds info) P E hP hE).weaken (fun _ h => h)
      (fun _ _ h => ?_) fun _ h => h
    obtain rfl := JsonFile.holds.inj h.1
    exact ⟨⟨rfl, nofun⟩, h.2⟩

theorem meets_updateRootInfo : Meets (· = u) (updateRootInfo staged)
    (fun _ v => Rewritten u v ∧ Holds v.root (["meta"], none) ∧ u.root.info ≠ .malformed ∧
      v.root.info = .holds (nextInfo (JsonFile.value? u.root.info) staged))
    (fun v => Rewritten u v ∧ (v.root.info = u.root.info ∨ v.root.info = .malformed)) := by
  have hsame {v : World} (h : Aside (metaPath "info.json") u
      (u.root.disk (metaPath "info.json")) v) : Rewritten u v :=
    ⟨h.staging, rfl, h.frame, h.dirs, h.here⟩
  have hdirs : Meets (· = u) (createDirAll ["meta"])
      (fun _ v => Aside (metaPath "info.json") u (u.root.disk (metaPath "info.json")) v ∧
        Holds v.root ([], none) ∧ Holds v.root (["meta"], none))
      (fun v => Rewritten u v ∧ (v.root.info = u.root.info ∨ v.root.info = .malformed)) := by
    refine meets_metaDirs.weaken ?_ (fun _ _ h => h) fun v h => ⟨hsame h, Or.inl h.info⟩
    rintro _ rfl
    exact Aside.refl
  refine meets_bind hdirs fun _ => meets_get_bind fun t ht => ?_
  have hcalm : Calm fun v => Rewritten u v ∧ Holds v.root (["meta"], none) ∧
      v.root.info = u.root.info := fun v faults h => ⟨aside_calm _ faults h.1, h.2⟩
  have hstart : ∀ v, v = t → Rewritten u v ∧ Holds v.root (["meta"], none) ∧
      v.root.info = u.root.info := by
    rintro _ rfl
    exact ⟨hsame ht.1, ht.2.2, ht.1.info⟩
  have hread : Meets (· = t) (currentInfo staged t.root.info)
      (fun info v => (info = (JsonFile.value? u.root.info).getD (freshInfo staged) ∧
        u.root.info ≠ .malformed) ∧ Rewritten u v ∧ Holds v.root (["meta"], none) ∧
          v.root.info = u.root.info)
      (fun v => Rewritten u v ∧ (v.root.info = u.root.info ∨ v.root.info = .malformed)) := by
    rw [ht.1.info]
    exact (meets_currentInfo hcalm fun v h => ⟨h.1, Or.inl h.2.2⟩).weaken hstart
      (fun _ _ h => h) fun _ h => h
  refine meets_bind hread fun info => ?_
  by_cases hinfo : info = (JsonFile.value? u.root.info).getD (freshInfo staged) ∧
      u.root.info ≠ .malformed
  · obtain ⟨rfl, hne⟩ := hinfo
    refine Meets.weaken ?_ (fun _ h => h.2) (fun _ _ h => h) fun _ h => h
    refine meets_bind (meets_takeFault hcalm) fun fault => ?_
    cases fault with
    | none => exact meets_modify fun v hv => ⟨hv.1, hv.2.1, hne, rfl⟩
    | some fault =>
      cases fault with
      | torn written =>
        exact meets_then (fun v => Rewritten u v ∧ v.root.info = .malformed)
          (meets_modify fun v hv => ⟨hv.1, rfl⟩) (meets_throw fun v hv => ⟨hv.1, Or.inr hv.2⟩)
      | refused | partly => exact meets_throw fun v hv => ⟨hv.1, Or.inl hv.2.2⟩
  · intro v hv
    exact absurd hv.1 hinfo

theorem without_nil (staging : Staging) : staging.without [] = staging := by
  have htree (forest : Forest Bytes) (base : Path) : forest.without [] base = forest := by
    induction forest generalizing base with
    | nil => rfl
    | dir name children rest ihc ihr =>
      simp only [Forest.without, List.not_mem_nil, ↓reduceIte, ihc, ihr]
    | file name content rest ih => simp only [Forest.without, List.not_mem_nil, ↓reduceIte, ih]
    | other name rest ih => simp only [Forest.without, ih]
  have hmap (top : String) : (Forest.without [] [top] : Forest Bytes → Forest Bytes) = id :=
    funext fun forest => htree forest [top]
  simp only [Staging.without, List.not_mem_nil, ↓reduceIte, hmap, Option.map_id, id_eq]

theorem meets_removeStagingDir : Meets (· = u) removeStagingDir (fun _ v => v.root = u.root)
    (fun v => v.root = u.root ∧ ∃ removed, v.staging = u.staging.without removed) := by
  have hcalm : Calm fun v : World => v.root = u.root ∧ v.staging = u.staging := fun _ _ h => h
  have htake : Meets (· = u) takeFault (fun _ v => v.root = u.root ∧ v.staging = u.staging)
      (fun v => v.root = u.root ∧ ∃ removed, v.staging = u.staging.without removed) :=
    (meets_takeFault hcalm).weaken (by rintro _ rfl; exact ⟨rfl, rfl⟩) (fun _ _ h => h) fun _ h => h
  refine meets_bind htake fun fault => ?_
  have hkept : ∀ v : World, v.root = u.root ∧ v.staging = u.staging →
      v.root = u.root ∧ ∃ removed, v.staging = u.staging.without removed :=
    fun v h => ⟨h.1, [], h.2.trans (without_nil _).symm⟩
  cases fault with
  | none => exact meets_modify fun v hv => hv.1
  | some fault =>
    cases fault with
    | refused | torn => exact meets_throw hkept
    | partly removed =>
      refine meets_then (fun v => v.root = u.root ∧ v.staging = u.staging.without removed)
        (meets_modify fun v hv => ⟨hv.1, ?_⟩) (meets_throw fun v hv => ⟨hv.1, removed, hv.2⟩)
      exact congrArg (Staging.without removed) hv.2

def filesAfter (staging : Staging) (d : String → Option Entry) : String → Option Entry :=
  let withTasks := Function.update d "tasks.jsonl"
    (tasksAfter (staging.jsonl "tasks.jsonl") (d "tasks.jsonl"))
  let withEpisodes := Function.update withTasks "episodes.jsonl"
    (appendedAfter (staging.jsonl "episodes.jsonl") (d "episodes.jsonl"))
  Function.update withEpisodes "episodes_stats.jsonl"
    (appendedAfter (staging.jsonl "episodes_stats.jsonl") (d "episodes_stats.jsonl"))

end Ways

section Retry
variable {w u v : World} {d d' : String → Option Entry} {name : String} {x : Unit}
  {e : StoreError} {point : FailurePoint}

theorem Past.tasks_step (h : Past w d u)
    (hr : Runs (mergeMetaJsonlIfPresent name true) u x v) :
    Past w (Function.update d name (tasksAfter (w.staging.jsonl name) (d name))) v ∧
      v.root.info = u.root.info := by
  have ha := (meets_tasks u Aside.refl).1 x v hr
  rw [h.files, h.jsonl] at ha
  exact ⟨h.aside ha, ha.info⟩

theorem Past.append_step (h : Past w d u)
    (hr : Runs (mergeMetaJsonlIfPresent name false) u x v) :
    Past w (Function.update d name (appendedAfter (w.staging.jsonl name) (d name))) v ∧
      v.root.info = u.root.info := by
  have ha := (meets_appended u Aside.refl).1 x v hr
  rw [h.files, h.jsonl] at ha
  exact ⟨h.aside ha, ha.info⟩

def metaFiles (w : World) (name : String) : Option Entry := w.root.disk (metaPath name)

/-- What a store that returns makes of the dataset. -/
structure Stored (w : World) (staged : DatasetInfo) (r : Root) : Prop where
  stagedInfo : w.staging.info = .holds staged
  readable : w.root.info ≠ .malformed
  info : r.info = .holds (nextInfo (JsonFile.value? w.root.info) staged)
  held : ∀ x ∈ entries w.staging, Holds r x
  frame : ∀ p ∉ (entries w.staging).map Prod.fst, (∀ name, p ≠ metaPath name) →
    r.disk p = w.root.disk p
  files : ∀ name, r.disk (metaPath name) = filesAfter w.staging (metaFiles w) name

theorem stored_of_runs {config : StorageRuntimeConfig} {output : String}
    (hw : WellFormed w.staging) (h : Runs (storeEpisodeLocal config) w output v) :
    ∃ staged, Stored w staged v.root := by
  cases hc : config.outputPath with
  | none =>
    unfold storeEpisodeLocal at h
    rw [hc] at h
    exact absurd h runs_throw
  | some outputRoot =>
    rw [storeEpisodeLocal_eq hc] at h
    obtain ⟨staged, t₁, htrees, hrest₁⟩ := runs_bind.mp h
    obtain ⟨x₂, t₂, htasks, hrest₂⟩ := runs_bind.mp hrest₁
    obtain ⟨x₃, t₃, hepisodes, hrest₃⟩ := runs_bind.mp hrest₂
    obtain ⟨x₄, t₄, hstats, hrest₄⟩ := runs_bind.mp hrest₃
    obtain ⟨x₅, t₅, hupdate, hrest₅⟩ := runs_bind.mp hrest₄
    obtain ⟨x₆, t₆, hremove, hpure⟩ := runs_bind.mp hrest₅
    obtain ⟨-, rfl⟩ := runs_pure.mp hpure
    obtain ⟨hstaged, hinfo₁, hpast₁⟩ := (meets_mergeTrees hw w rfl).1 staged t₁ htrees
    obtain ⟨hpast₂, hinfo₂⟩ := hpast₁.tasks_step htasks
    obtain ⟨hpast₃, hinfo₃⟩ := hpast₂.append_step hepisodes
    obtain ⟨hpast₄, hinfo₄⟩ := hpast₃.append_step hstats
    have hinfo := hinfo₄.trans (hinfo₃.trans (hinfo₂.trans hinfo₁))
    obtain ⟨hrewritten, hmeta, hreadable, hwritten⟩ :=
      (meets_updateRootInfo t₄ rfl).1 x₅ t₅ hupdate
    have hpast := hpast₄.rewritten hrewritten
    rw [hinfo] at hreadable hwritten
    have hroot := (meets_removeStagingDir t₅ rfl).1 x₆ v hremove
    refine ⟨staged, hstaged, hreadable, ?_, ?_, ?_, ?_⟩
    · rw [hroot, hwritten]
    · intro y hy
      rw [hroot]
      by_cases hne : y = (["meta"], none)
      · exact hne ▸ hmeta
      · exact hpast.held y hy hne
    · rw [hroot]
      exact hpast.frame
    · intro name
      rw [hroot, hpast.files]
      rfl

/-- What a failed call leaves outside the files of `meta`: each entry is still staged or in
place. -/
structure Residue (w v : World) : Prop where
  distinct : WellFormed v.staging
  staged : entries v.staging ⊆ entries w.staging
  done : ∀ x ∈ entries w.staging, x ∉ entries v.staging → Holds v.root x
  frame : ∀ p ∉ (entries w.staging).map Prod.fst, (∀ name, p ≠ metaPath name) →
    v.root.disk p = w.root.disk p

theorem Past.residue (h : Past w d v) : Residue w v where
  distinct := h.distinct
  staged := h.staged
  done := by
    intro x hx hn
    refine h.held x hx ?_
    rintro rfl
    exact hn (List.mem_cons_of_mem _ List.mem_cons_self)
  frame := h.frame

theorem without_wellFormed {staging : Staging} (hw : WellFormed staging) (removed : List Path) :
    WellFormed (staging.without removed) := by
  intro top forest hf
  simp only [Staging.without, Option.ite_none_left_eq_some, Option.map_eq_some_iff] at hf
  obtain ⟨-, forest', hf', rfl⟩ := hf
  exact without_distinct (hw top forest' hf') removed [top]

theorem entries_without (staging : Staging) (removed : List Path) :
    entries (staging.without removed) ⊆ entries staging := by
  intro x hx
  rcases mem_entries.mp hx with rfl | rfl | ⟨top, ht, hx⟩
  · exact List.mem_cons_self
  · exact List.mem_cons_of_mem _ List.mem_cons_self
  · refine mem_entries.mpr (Or.inr (Or.inr ⟨top, ht, ?_⟩))
    unfold treeEntries at hx ⊢
    split at hx
    · cases hx
    · next forest hf =>
      simp only [Staging.without, Option.ite_none_left_eq_some, Option.map_eq_some_iff] at hf
      obtain ⟨-, forest', hf', rfl⟩ := hf
      rw [hf']
      rcases List.mem_cons.mp hx with rfl | hx
      · exact List.mem_cons_self
      · exact List.mem_cons_of_mem _ (without_entries removed [top] forest' hx)

/-- A directory that could not be removed whole stages less than before. -/
theorem Past.residue_without (h : Past w d u) (hroot : v.root = u.root) {removed : List Path}
    (hstaging : v.staging = u.staging.without removed) : Residue w v where
  distinct := hstaging ▸ without_wellFormed h.distinct removed
  staged := by
    rw [hstaging]
    exact List.Subset.trans (entries_without _ _) h.staged
  done := by
    intro x hx hn
    rw [hroot]
    refine h.held x hx ?_
    rintro rfl
    exact hn (List.mem_cons_of_mem _ List.mem_cons_self)
  frame := hroot ▸ h.frame

/-- After a failure and a second call the dataset differs from that of one call at most in the
files of `meta`. -/
theorem same_root_iff {staged : DatasetInfo} {r r' : Root} (hw : WellFormed w.staging)
    (h : Residue w v) (hr : Stored w staged r) (hr' : Stored v staged r') :
    r' = r ↔ filesAfter v.staging (metaFiles v) = filesAfter w.staging (metaFiles w) ∧
      nextInfo (JsonFile.value? v.root.info) staged =
        nextInfo (JsonFile.value? w.root.info) staged := by
  constructor
  · rintro rfl
    refine ⟨funext fun name => ?_, JsonFile.holds.inj (hr'.info.symm.trans hr.info)⟩
    rw [← hr'.files, hr.files]
  · rintro ⟨hfiles, hinfo⟩
    have hdisk : r'.disk = r.disk := by
      funext p
      by_cases hp : p ∈ (entries w.staging).map Prod.fst
      · obtain ⟨⟨q, e⟩, hx, rfl⟩ := List.mem_map.mp hp
        rw [hr.held _ hx]
        by_cases hv : (q, e) ∈ entries v.staging
        · exact hr'.held _ hv
        · refine (hr'.frame q ?_ ?_).trans (h.done _ hx hv)
          · intro hm
            obtain ⟨⟨q', e'⟩, hx', hq⟩ := List.mem_map.mp hm
            obtain rfl : q' = q := hq
            obtain rfl := entries_unique hw (h.staged hx') hx
            exact hv hx'
          · rintro name rfl
            exact metaPath_not_entry name hp
      · by_cases hmeta : ∃ name, p = metaPath name
        · obtain ⟨name, rfl⟩ := hmeta
          rw [hr'.files, hr.files, hfiles]
        · have hne : ∀ name, p ≠ metaPath name := fun name he => hmeta ⟨name, he⟩
          rw [hr.frame p hp hne, ← h.frame p hp hne]
          refine hr'.frame p (fun hm => hp ?_) hne
          obtain ⟨x, hx, rfl⟩ := List.mem_map.mp hm
          exact List.mem_map_of_mem (h.staged hx)
    have hfile : r'.info = r.info := by rw [hr'.info, hr.info, hinfo]
    cases r
    cases r'
    cases hdisk
    cases hfile
    rfl

end Retry

section Points
variable {w u v : World} {d d' : String → Option Entry} {name : String} {x : Unit}
  {e : StoreError} {point : FailurePoint} {staged : Option Bytes} {old old' : Option Entry}

/-- The three merged files decide whether two stores leave the same files. -/
theorem filesAfter_eq_iff {staging staging' : Staging}
    (h : ∀ name, name ≠ "tasks.jsonl" → name ≠ "episodes.jsonl" → name ≠ "episodes_stats.jsonl" →
      d' name = d name) : filesAfter staging' d' = filesAfter staging d ↔
      tasksAfter (staging'.jsonl "tasks.jsonl") ( d' "tasks.jsonl") =
        tasksAfter (staging.jsonl "tasks.jsonl") (d "tasks.jsonl") ∧
      appendedAfter (staging'.jsonl "episodes.jsonl") ( d' "episodes.jsonl") =
        appendedAfter (staging.jsonl "episodes.jsonl") (d "episodes.jsonl") ∧
      appendedAfter (staging'.jsonl "episodes_stats.jsonl") ( d' "episodes_stats.jsonl") =
        appendedAfter (staging.jsonl "episodes_stats.jsonl") (d "episodes_stats.jsonl") := by
  constructor
  · intro heq
    exact ⟨congrFun heq "tasks.jsonl", congrFun heq "episodes.jsonl",
      congrFun heq "episodes_stats.jsonl"⟩
  · rintro ⟨ht, he, hs⟩
    funext name
    by_cases hns : name = "episodes_stats.jsonl"
    · subst hns
      exact hs
    · by_cases hne : name = "episodes.jsonl"
      · subst hne
        exact he
      · by_cases hnt : name = "tasks.jsonl"
        · subst hnt
          exact ht
        · simp only [filesAfter, Function.update_of_ne hns, Function.update_of_ne hne,
            Function.update_of_ne hnt]
          exact h name hnt hne hns

theorem tasksAfter_again (h : ∀ contents, staged = some contents → old'.isSome) :
    tasksAfter staged old' = old' := by
  cases staged with
  | none => rfl
  | some contents => simp only [tasksAfter, h contents rfl, ↓reduceIte]

theorem tasksAfter_isSome {contents : Bytes} : (tasksAfter (some contents) old).isSome := by
  unfold tasksAfter
  cases hold : old.isSome with
  | true => simpa only [↓reduceIte] using hold
  | false => rfl

/-- A second merge of the tasks keeps those of the first. -/
theorem tasksAfter_twice {staged' : Option Bytes} (h : staged' = none ∨ staged' = staged) :
    tasksAfter staged' (tasksAfter staged old) = tasksAfter staged old := by
  refine tasksAfter_again fun contents hc => ?_
  rcases h with rfl | rfl
  · cases hc
  · rw [hc]
    exact tasksAfter_isSome

theorem appendedAfter_eq_iff {contents : Bytes} {written : ℕ}
    (h : bytesOf old' = bytesOf old ++ contents.take written) :
    appendedAfter (some contents) old' = appendedAfter (some contents) old ↔
      contents = [] ∨ written = 0 := by
  simp only [appendedAfter, h, Option.some.injEq, Entry.file.injEq, List.append_left_inj,
    List.append_right_eq_self, List.take_eq_nil_iff]
  exact or_comm

theorem appendedAfter_twice {staged' : Option Bytes} (h : staged' = none ∨ staged' = staged) :
    appendedAfter staged' (appendedAfter staged old) = appendedAfter staged old ↔
      staged' = none ∨ staged.getD [] = [] := by
  rcases h with rfl | rfl
  · simp [appendedAfter]
  · cases staged' with
    | none => simp [appendedAfter]
    | some contents => simp [appendedAfter, bytesOf]

end Points

section Main
variable {w v w₁ w₂ : World} {config : StorageRuntimeConfig} {output₁ output₂ : String}
  {faults₁ faults₂ : List (Option Fault)} {point : FailurePoint} {e : StoreError}

/-- Every failure of a store is at one of the points. -/
theorem failsAt_of_fails (hw : WellFormed w.staging) (hc : config.outputPath.isSome)
    (h : Fails (storeEpisodeLocal config) w e v) : ∃ point, FailsAt w point v := by
  obtain ⟨outputRoot, hc⟩ := Option.isSome_iff_exists.mp hc
  rw [storeEpisodeLocal_eq hc] at h
  rcases fails_bind.mp h with hf | ⟨staged, t₁, htrees, hrest₁⟩
  · exact ⟨.trees, .trees hf⟩
  obtain ⟨-, -, hpast₁⟩ := (meets_mergeTrees hw w rfl).1 staged t₁ htrees
  rcases fails_bind.mp hrest₁ with hf | ⟨x₂, t₂, htasks, hrest₂⟩
  · obtain ⟨contents, hcontents, ha | ⟨hnone, written, ha⟩⟩ :=
      (meets_tasks t₁ Aside.refl).2 e v hf
    · exact ⟨.tasks none, .tasks htrees hf nofun ha.here⟩
    · refine ⟨.tasks (some written), .tasks htrees hf (fun _ => hnone) ?_⟩
      rw [hpast₁.jsonl] at hcontents
      simp only [stagedBytes, hcontents, Option.getD_some]
      exact ha.here
  obtain ⟨hpast₂, -⟩ := hpast₁.tasks_step htasks
  rcases fails_bind.mp hrest₂ with hf | ⟨x₃, t₃, hepisodes, hrest₃⟩
  · obtain ⟨contents, d', written, hcontents, ha, hbytes⟩ :=
      (meets_appended t₂ Aside.refl).2 e v hf
    refine ⟨.episodes written, .episodes htrees htasks hf ?_⟩
    rw [hpast₂.jsonl] at hcontents
    simp only [stagedBytes, hcontents, Option.getD_some, ha.here, hbytes]
  obtain ⟨hpast₃, -⟩ := hpast₂.append_step hepisodes
  rcases fails_bind.mp hrest₃ with hf | ⟨x₄, t₄, hstats, hrest₄⟩
  · obtain ⟨contents, d', written, hcontents, ha, hbytes⟩ :=
      (meets_appended t₃ Aside.refl).2 e v hf
    refine ⟨.episodesStats written, .episodesStats htrees htasks hepisodes hf ?_⟩
    rw [hpast₃.jsonl] at hcontents
    simp only [stagedBytes, hcontents, Option.getD_some, ha.here, hbytes]
  rcases fails_bind.mp hrest₄ with hf | ⟨x₅, t₅, hupdate, hrest₅⟩
  · exact ⟨.info, .info htrees htasks hepisodes hstats hf⟩
  rcases fails_bind.mp hrest₅ with hf | ⟨x₆, t₆, hremove, hpure⟩
  · obtain ⟨-, removed, hremoved⟩ := (meets_removeStagingDir t₅ rfl).2 e v hf
    exact ⟨.removal removed, .removal htrees htasks hepisodes hstats hupdate hf hremoved⟩
  · exact absurd hpure fails_pure

/-- How a failed call and its repetition compare with one call, when the failure left the files
`d` and the counts alone. -/
theorem same_root_of_jsonl {staged : DatasetInfo} {r r' : Root} {d : String → Option Entry}
    (hw : WellFormed w.staging) (h : Residue w v) (hjsonl : v.staging.jsonl = w.staging.jsonl)
    (hinfo : v.root.info = w.root.info) (hd : metaFiles v = d)
    (hr : Stored w staged r) (hr' : Stored v staged r') :
    r' = r ↔ filesAfter w.staging d = filesAfter w.staging (metaFiles w) := by
  have hfiles : filesAfter v.staging (metaFiles v) = filesAfter w.staging d := by
    rw [hd]
    unfold filesAfter
    rw [hjsonl]
  rw [same_root_iff hw h hr hr', hfiles, hinfo]
  constructor
  · exact fun h => h.1
  · exact fun h => ⟨h, rfl⟩

section Points
variable {u : World} {staged staged' : DatasetInfo} {r r' : Root} {written : ℕ}

theorem same_root_at_trees (hw : WellFormed w.staging) (hr : Stored w staged r)
    (hr' : Stored v staged r') (hf : Fails mergeTrees w e v) :
    r' = r ↔ Harmless w .trees := by
  have hunder := (meets_mergeTrees hw w rfl).2 _ v hf
  have hfiles : metaFiles v = metaFiles w :=
    funext fun name => hunder.frame _ (metaPath_not_entry name)
  have hres : Residue w v :=
    ⟨hunder.distinct, hunder.staged, hunder.done, fun p hp _ => hunder.frame p hp⟩
  rw [same_root_of_jsonl hw hres hunder.jsonl hunder.info hfiles hr hr']
  exact iff_of_true rfl trivial

theorem same_root_at_tasks {written : Option ℕ} (hw : WellFormed w.staging)
    (hr : Stored w staged r) (hr' : Stored v staged r') (htrees : Runs mergeTrees w staged' u)
    (hf : Fails (mergeMetaJsonlIfPresent "tasks.jsonl" true) u e v)
    (hnew : written.isSome → u.root.disk (metaPath "tasks.jsonl") = none)
    (hwritten : v.root.disk (metaPath "tasks.jsonl") = tasksLeft
      (u.root.disk (metaPath "tasks.jsonl")) (stagedBytes w "tasks.jsonl") written) :
    r' = r ↔ Harmless w (.tasks written) := by
  obtain ⟨-, hinfo, hpast₁⟩ := (meets_mergeTrees hw w rfl).1 _ _ htrees
  obtain ⟨contents, hcontents, hends⟩ := (meets_tasks u Aside.refl).2 _ v hf
  have ha : Aside (metaPath "tasks.jsonl") u (v.root.disk (metaPath "tasks.jsonl")) v := by
    rcases hends with ha | ⟨-, count, ha⟩
    · exact ha.here.symm ▸ ha
    · exact ha.here.symm ▸ ha
  rw [hpast₁.jsonl] at hcontents
  have hpast := hpast₁.aside ha
  rw [same_root_of_jsonl hw hpast.residue hpast.jsonl (ha.info.trans hinfo) (funext hpast.files)
    hr hr', filesAfter_eq_iff (fun name ht _ _ => Function.update_of_ne ht _ _)]
  rw [hpast₁.files] at hnew hwritten
  rw [Function.update_self, Function.update_of_ne (by decide), Function.update_of_ne (by decide),
    hwritten, hcontents, stagedBytes, hcontents, Option.getD_some]
  cases written with
  | none => exact iff_of_true ⟨rfl, rfl, rfl⟩ trivial
  | some count =>
    have hold : metaFiles w "tasks.jsonl" = none := hnew rfl
    rw [hold]
    simp only [tasksLeft, tasksAfter, Option.isSome_some, Option.isSome_none, ↓reduceIte,
      Bool.false_eq_true, Harmless, stagedBytes, hcontents, Option.getD_some, Option.some.injEq,
      Entry.file.injEq, List.take_eq_self_iff, metaFiles, and_self, and_true]

theorem same_root_at_episodes {t : World} (hw : WellFormed w.staging) (hr : Stored w staged r)
    (hr' : Stored v staged r') (htrees : Runs mergeTrees w staged' t)
    (htasks : Runs (mergeMetaJsonlIfPresent "tasks.jsonl" true) t () u)
    (hf : Fails (mergeMetaJsonlIfPresent "episodes.jsonl" false) u e v)
    (hwritten : bytesOf (v.root.disk (metaPath "episodes.jsonl")) =
      bytesOf (u.root.disk (metaPath "episodes.jsonl")) ++
        (stagedBytes w "episodes.jsonl").take written) :
    r' = r ↔ Harmless w (.episodes written) := by
  obtain ⟨-, hinfo₁, hpast₁⟩ := (meets_mergeTrees hw w rfl).1 _ _ htrees
  obtain ⟨hpast₂, hinfo₂⟩ := hpast₁.tasks_step htasks
  obtain ⟨contents, d', count, hcontents, ha, -⟩ := (meets_appended u Aside.refl).2 _ v hf
  obtain rfl := ha.here
  rw [hpast₂.jsonl] at hcontents
  have hpast := hpast₂.aside ha
  have hinfo := ha.info.trans (hinfo₂.trans hinfo₁)
  rw [same_root_of_jsonl hw hpast.residue hpast.jsonl hinfo (funext hpast.files) hr hr',
    filesAfter_eq_iff (fun name ht he _ => by
      rw [Function.update_of_ne he, Function.update_of_ne ht]; rfl)]
  rw [hpast₂.files, Function.update_of_ne (by decide), stagedBytes, hcontents,
    Option.getD_some] at hwritten
  rw [Function.update_of_ne (by decide), Function.update_self, Function.update_self,
    Function.update_of_ne (by decide), Function.update_of_ne (by decide), hcontents]
  have hepisodes := appendedAfter_eq_iff hwritten
  have hharmless : Harmless w (.episodes written) ↔ contents = [] ∨ written = 0 := by
    simp only [Harmless, stagedBytes, hcontents, Option.getD_some]
  rw [hharmless, ← hepisodes]
  constructor
  · exact fun h => h.2.1
  · exact fun h => ⟨tasksAfter_twice (Or.inr rfl), h, rfl⟩

theorem same_root_at_episodesStats {t t₁ : World} (hw : WellFormed w.staging)
    (hr : Stored w staged r) (hr' : Stored v staged r') (htrees : Runs mergeTrees w staged' t)
    (htasks : Runs (mergeMetaJsonlIfPresent "tasks.jsonl" true) t () t₁)
    (hepisodes : Runs (mergeMetaJsonlIfPresent "episodes.jsonl" false) t₁ () u)
    (hf : Fails (mergeMetaJsonlIfPresent "episodes_stats.jsonl" false) u e v)
    (hwritten : bytesOf (v.root.disk (metaPath "episodes_stats.jsonl")) =
      bytesOf (u.root.disk (metaPath "episodes_stats.jsonl")) ++
        (stagedBytes w "episodes_stats.jsonl").take written) :
    r' = r ↔ Harmless w (.episodesStats written) := by
  obtain ⟨-, hinfo₁, hpast₁⟩ := (meets_mergeTrees hw w rfl).1 _ _ htrees
  obtain ⟨hpast₂, hinfo₂⟩ := hpast₁.tasks_step htasks
  obtain ⟨hpast₃, hinfo₃⟩ := hpast₂.append_step hepisodes
  obtain ⟨contents, d', count, hcontents, ha, -⟩ := (meets_appended u Aside.refl).2 _ v hf
  obtain rfl := ha.here
  rw [hpast₃.jsonl] at hcontents
  have hpast := hpast₃.aside ha
  have hinfo := ha.info.trans (hinfo₃.trans (hinfo₂.trans hinfo₁))
  rw [same_root_of_jsonl hw hpast.residue hpast.jsonl hinfo (funext hpast.files) hr hr',
    filesAfter_eq_iff (fun name ht he hs => by
      rw [Function.update_of_ne hs, Function.update_of_ne he, Function.update_of_ne ht]; rfl)]
  rw [hpast₃.files, Function.update_of_ne (by decide), Function.update_of_ne (by decide),
    stagedBytes, hcontents, Option.getD_some] at hwritten
  rw [Function.update_of_ne (by decide), Function.update_of_ne (by decide), Function.update_self,
    Function.update_of_ne (by decide), Function.update_self, Function.update_of_ne (by decide),
    Function.update_self, hcontents]
  have hharmless : Harmless w (.episodesStats written) ↔
      stagedBytes w "episodes.jsonl" = [] ∧ (contents = [] ∨ written = 0) := by
    simp only [Harmless, stagedBytes, hcontents, Option.getD_some]
  rw [hharmless, ← appendedAfter_eq_iff hwritten, stagedBytes]
  have htwice := @appendedAfter_twice (w.staging.jsonl "episodes.jsonl")
    (metaFiles w "episodes.jsonl") _ (Or.inr rfl)
  constructor
  · rintro ⟨-, he, hs⟩
    exact ⟨(htwice.mp he).elim (fun hn => hn ▸ rfl) id, hs⟩
  · rintro ⟨he, hs⟩
    exact ⟨tasksAfter_twice (Or.inr rfl), htwice.mpr (Or.inr he), hs⟩

theorem past_of_jsonl {t t₁ t₂ : World} (hw : WellFormed w.staging)
    (htrees : Runs mergeTrees w staged' t)
    (htasks : Runs (mergeMetaJsonlIfPresent "tasks.jsonl" true) t () t₁)
    (hepisodes : Runs (mergeMetaJsonlIfPresent "episodes.jsonl" false) t₁ () t₂)
    (hstats : Runs (mergeMetaJsonlIfPresent "episodes_stats.jsonl" false) t₂ () u) :
    w.staging.info = .holds staged' ∧ Past w (filesAfter w.staging (metaFiles w)) u ∧
      u.root.info = w.root.info := by
  obtain ⟨hstaged, hinfo₁, hpast₁⟩ := (meets_mergeTrees hw w rfl).1 _ _ htrees
  obtain ⟨hpast₂, hinfo₂⟩ := hpast₁.tasks_step htasks
  obtain ⟨hpast₃, hinfo₃⟩ := hpast₂.append_step hepisodes
  obtain ⟨hpast₄, hinfo₄⟩ := hpast₃.append_step hstats
  exact ⟨hstaged, hpast₄, hinfo₄.trans (hinfo₃.trans (hinfo₂.trans hinfo₁))⟩

/-- Another merge of all three files shows in what it appends. -/
theorem filesAfter_twice {staging staging' : Staging} {d : String → Option Entry}
    (h : ∀ name, staging'.jsonl name = none ∨ staging'.jsonl name = staging.jsonl name) :
    filesAfter staging' (filesAfter staging d) = filesAfter staging d ↔
      (staging'.jsonl "episodes.jsonl" = none ∨ (staging.jsonl "episodes.jsonl").getD [] = []) ∧
      (staging'.jsonl "episodes_stats.jsonl" = none ∨
        (staging.jsonl "episodes_stats.jsonl").getD [] = []) := by
  have hother : ∀ name, name ≠ "tasks.jsonl" → name ≠ "episodes.jsonl" →
      name ≠ "episodes_stats.jsonl" → filesAfter staging d name = d name := by
    intro name ht he hs
    simp only [filesAfter, Function.update_of_ne hs, Function.update_of_ne he,
      Function.update_of_ne ht]
  have htasks := @tasksAfter_twice (staging.jsonl "tasks.jsonl") (d "tasks.jsonl") _
    (h "tasks.jsonl")
  rw [filesAfter_eq_iff hother, ← @appendedAfter_twice _ (d "episodes.jsonl") _ (h "episodes.jsonl"),
    ← @appendedAfter_twice _ (d "episodes_stats.jsonl") _ (h "episodes_stats.jsonl")]
  constructor
  · exact fun heq => heq.2
  · exact fun heq => ⟨htasks, heq⟩

theorem same_root_at_info {t t₁ t₂ : World} (hw : WellFormed w.staging) (hr : Stored w staged r)
    (hr' : Stored v staged r') (htrees : Runs mergeTrees w staged' t)
    (htasks : Runs (mergeMetaJsonlIfPresent "tasks.jsonl" true) t () t₁)
    (hepisodes : Runs (mergeMetaJsonlIfPresent "episodes.jsonl" false) t₁ () t₂)
    (hstats : Runs (mergeMetaJsonlIfPresent "episodes_stats.jsonl" false) t₂ () u)
    (hf : Fails (updateRootInfo staged') u e v) : r' = r ↔ Harmless w .info := by
  obtain ⟨-, hpast, hinfo⟩ := past_of_jsonl hw htrees htasks hepisodes hstats
  obtain ⟨hrewritten, hleft⟩ := (meets_updateRootInfo u rfl).2 _ v hf
  have hsame : v.root.info = w.root.info := by
    rcases hleft with hleft | hleft
    · exact hleft.trans hinfo
    · exact absurd hleft hr'.readable
  have hpast := hpast.rewritten hrewritten
  rw [same_root_of_jsonl hw hpast.residue hpast.jsonl hsame (funext hpast.files) hr hr',
    filesAfter_twice fun _ => Or.inr rfl]
  have hempty (name : String) : (w.staging.jsonl name = none ∨
      (w.staging.jsonl name).getD [] = []) ↔ stagedBytes w name = [] := by
    constructor
    · rintro (hn | hn)
      · rw [stagedBytes, hn, Option.getD_none]
      · exact hn
    · exact Or.inr
  rw [hempty, hempty]
  exact Iff.rfl

theorem same_root_at_removal {t t₁ t₂ t₃ : World} {removed : List Path}
    (hw : WellFormed w.staging) (hr : Stored w staged r)
    (hr' : Stored v staged r') (htrees : Runs mergeTrees w staged' t)
    (htasks : Runs (mergeMetaJsonlIfPresent "tasks.jsonl" true) t () t₁)
    (hepisodes : Runs (mergeMetaJsonlIfPresent "episodes.jsonl" false) t₁ () t₂)
    (hstats : Runs (mergeMetaJsonlIfPresent "episodes_stats.jsonl" false) t₂ () t₃)
    (hupdate : Runs (updateRootInfo staged') t₃ () u) (hf : Fails removeStagingDir u e v)
    (hremoved : v.staging = u.staging.without removed) :
    r' = r ↔ Harmless w (.removal removed) := by
  obtain ⟨hstaged, hpast, hinfo⟩ := past_of_jsonl hw htrees htasks hepisodes hstats
  obtain rfl := JsonFile.holds.inj (hr.stagedInfo.symm.trans hstaged)
  obtain ⟨hrewritten, -, -, hwritten⟩ := (meets_updateRootInfo t₃ rfl).1 _ u hupdate
  have hpast := hpast.rewritten hrewritten
  obtain ⟨hroot, -⟩ := (meets_removeStagingDir u rfl).2 _ v hf
  have hjsonl (name : String) : v.staging.jsonl name =
      if metaPath name ∈ removed then none else w.staging.jsonl name := by
    rw [hremoved, ← hpast.jsonl]
    rfl
  have hfiles : metaFiles v = filesAfter w.staging (metaFiles w) := by
    rw [← funext hpast.files]
    unfold metaFiles
    rw [hroot]
  have hleft (name : String) : v.staging.jsonl name = none ∨
      v.staging.jsonl name = w.staging.jsonl name := by
    rw [hjsonl]
    split
    · exact Or.inl rfl
    · exact Or.inr rfl
  have hgone (name : String) : (v.staging.jsonl name = none ∨
      (w.staging.jsonl name).getD [] = []) ↔
        metaPath name ∈ removed ∨ stagedBytes w name = [] := by
    rw [hjsonl]
    by_cases hm : metaPath name ∈ removed
    · simp only [hm, ↓reduceIte, true_or]
    · simp only [hm, ↓reduceIte, false_or, stagedBytes]
      constructor
      · rintro (hn | hn)
        · rw [hn, Option.getD_none]
        · exact hn
      · exact Or.inr
  have hcounts : JsonFile.value? v.root.info =
      some (nextInfo (JsonFile.value? w.root.info) staged) := by
    rw [hroot, hwritten, hinfo]
    rfl
  rw [same_root_iff hw (hpast.residue_without hroot hremoved) hr hr', hfiles,
    filesAfter_twice hleft, hgone, hgone, hcounts, and_assoc]
  constructor
  · rintro ⟨he, hs, hn⟩
    refine ⟨he, hs, fun staged' hs' => ?_⟩
    obtain rfl := JsonFile.holds.inj (hr.stagedInfo.symm.trans hs')
    exact hn
  · rintro ⟨he, hs, hn⟩
    exact ⟨he, hs, hn staged hr.stagedInfo⟩

end Points

/-- A failed call followed by a call that returns leaves the dataset of one call exactly when
the failure was harmless. -/
theorem same_root_iff_harmless {staged : DatasetInfo} {r r' : Root} (hw : WellFormed w.staging)
    (hf : FailsAt w point v) (hr : Stored w staged r) (hr' : Stored v staged r') :
    r' = r ↔ Harmless w point := by
  cases hf with
  | trees hf => exact same_root_at_trees hw hr hr' hf
  | tasks ht hf hn hw' => exact same_root_at_tasks hw hr hr' ht hf hn hw'
  | episodes ht h₁ hf hw' => exact same_root_at_episodes hw hr hr' ht h₁ hf hw'
  | episodesStats ht h₁ h₂ hf hw' => exact same_root_at_episodesStats hw hr hr' ht h₁ h₂ hf hw'
  | info ht h₁ h₂ h₃ hf => exact same_root_at_info hw hr hr' ht h₁ h₂ h₃ hf
  | removal ht h₁ h₂ h₃ h₄ hf hr₀ => exact same_root_at_removal hw hr hr' ht h₁ h₂ h₃ h₄ hf hr₀

theorem tasks_fails_staging {u : World}
    (hf : Fails (mergeMetaJsonlIfPresent "tasks.jsonl" true) u e v) : v.staging = u.staging := by
  obtain ⟨_, _, ha | ⟨_, _, ha⟩⟩ := (meets_tasks u Aside.refl).2 e v hf
  · exact ha.staging
  · exact ha.staging

theorem append_fails_staging {u : World} {name : String}
    (hf : Fails (mergeMetaJsonlIfPresent name false) u e v) : v.staging = u.staging := by
  obtain ⟨_, _, _, _, ha, _⟩ := (meets_appended u Aside.refl).2 e v hf
  exact ha.staging

/-- A failed call has not changed the staged `info.json`, but may have removed it. -/
theorem FailsAt.staging (hw : WellFormed w.staging) (hf : FailsAt w point v) :
    WellFormed v.staging ∧
      (v.staging.info = w.staging.info ∨ v.staging.info = .missing) := by
  cases hf with
  | trees hf =>
    have hunder := (meets_mergeTrees hw w rfl).2 _ v hf
    exact ⟨hunder.distinct, Or.inl hunder.stagedInfo⟩
  | tasks ht hf =>
    obtain ⟨-, -, hpast⟩ := (meets_mergeTrees hw w rfl).1 _ _ ht
    rw [tasks_fails_staging hf]
    exact ⟨hpast.distinct, Or.inl hpast.stagedInfo⟩
  | episodes ht h₁ hf =>
    obtain ⟨-, -, hpast⟩ := (meets_mergeTrees hw w rfl).1 _ _ ht
    obtain ⟨hpast, -⟩ := hpast.tasks_step h₁
    rw [append_fails_staging hf]
    exact ⟨hpast.distinct, Or.inl hpast.stagedInfo⟩
  | episodesStats ht h₁ h₂ hf =>
    obtain ⟨-, -, hpast⟩ := (meets_mergeTrees hw w rfl).1 _ _ ht
    obtain ⟨hpast, -⟩ := hpast.tasks_step h₁
    obtain ⟨hpast, -⟩ := hpast.append_step h₂
    rw [append_fails_staging hf]
    exact ⟨hpast.distinct, Or.inl hpast.stagedInfo⟩
  | info ht h₁ h₂ h₃ hf =>
    obtain ⟨-, hpast, -⟩ := past_of_jsonl hw ht h₁ h₂ h₃
    have hleft := hpast.rewritten ((meets_updateRootInfo _ rfl).2 _ v hf).1
    exact ⟨hleft.distinct, Or.inl hleft.stagedInfo⟩
  | removal ht h₁ h₂ h₃ h₄ hf hremoved =>
    obtain ⟨-, hpast, -⟩ := past_of_jsonl hw ht h₁ h₂ h₃
    have hleft := hpast.rewritten ((meets_updateRootInfo _ rfl).1 _ _ h₄).1
    rw [hremoved]
    refine ⟨without_wellFormed hleft.distinct _, ?_⟩
    rw [← hleft.stagedInfo]
    simp only [Staging.without]
    split
    · exact Or.inr rfl
    · exact Or.inl rfl

/-- Storing is safe to repeat exactly after a harmless failure: for every dataset, every staged
episode and every point at which the first call stopped. -/
theorem retry_same_iff (hw : WellFormed w.staging)
    (hf : Fails (storeEpisodeLocal config) w e v)
    (h₂ : Runs (storeEpisodeLocal config) ⟨v.root, v.staging, faults₂⟩ output₂ w₂)
    (h₁ : Runs (storeEpisodeLocal config) ⟨w.root, w.staging, faults₁⟩ output₁ w₁) :
    (∃ point, FailsAt w point v) ∧
      ∀ point, FailsAt w point v → (w₂.root = w₁.root ↔ Harmless w point) := by
  have hc : config.outputPath.isSome := by
    cases hc : config.outputPath with
    | some outputRoot => rfl
    | none =>
      unfold storeEpisodeLocal at h₁
      rw [hc] at h₁
      exact absurd h₁ runs_throw
  refine ⟨failsAt_of_fails hw hc hf, fun point hpoint => ?_⟩
  obtain ⟨hv, hinfo⟩ := hpoint.staging hw
  have hw₁ : WellFormed (World.mk w.root w.staging faults₁).staging := hw
  have hw₂ : WellFormed (World.mk v.root v.staging faults₂).staging := hv
  obtain ⟨staged₁, hr₁⟩ := stored_of_runs hw₁ h₁
  obtain ⟨staged₂, hr₂⟩ := stored_of_runs hw₂ h₂
  obtain rfl : staged₂ = staged₁ := by
    rcases hinfo with hinfo | hinfo
    · exact JsonFile.holds.inj (hr₂.stagedInfo.symm.trans (hinfo.trans hr₁.stagedInfo))
    · cases hr₂.stagedInfo.symm.trans hinfo
  have hr₁ : Stored w staged₂ w₁.root :=
    ⟨hr₁.stagedInfo, hr₁.readable, hr₁.info, hr₁.held, hr₁.frame, hr₁.files⟩
  have hr₂ : Stored v staged₂ w₂.root :=
    ⟨hr₂.stagedInfo, hr₂.readable, hr₂.info, hr₂.held, hr₂.frame, hr₂.files⟩
  exact same_root_iff_harmless hw hpoint hr₁ hr₂

end Main

section Examples

def refusedAt (count : ℕ) : World :=
  ⟨⟨fun _ => none, .missing⟩, MergedDataset.stagedEpisode "episode_000000.parquet" 10 "action",
    List.replicate count none ++ [some .refused]⟩

theorem refusedAt_wellFormed (count : ℕ) : WellFormed (refusedAt count).staging :=
  MergedDataset.stagedEpisode_wellFormed _ _ _

def store (w : World) : Except StoreError String × World :=
  (storeEpisodeLocal ⟨some "/dataset"⟩).run.run w

def again (w : World) : World := store ⟨w.root, w.staging, []⟩ |>.2

def returns {α : Type} : Except StoreError α → Bool
  | .ok _ => true
  | .error _ => false

theorem runs_of_returns {w : World} (h : returns (store w).1 = true) :
    ∃ output, Runs (storeEpisodeLocal ⟨some "/dataset"⟩) w output (store w).2 := by
  cases hr : store w with
  | mk result v =>
    rw [hr] at h
    cases result with
    | ok output => exact ⟨output, hr⟩
    | error e => cases h

theorem fails_of_not_returns {α : Type} {m : Io α} {w : World}
    (h : returns (m.run.run w).1 = false) : ∃ e, Fails m w e (m.run.run w).2 := by
  cases hr : m.run.run w with
  | mk result v =>
    rw [hr] at h
    cases result with
    | ok output => cases h
    | error e => exact ⟨e, hr⟩

/-- The staged directory cannot be listed; the next call stores the episode as one call would. -/
theorem retry_after_trees : ∃ e, Fails (storeEpisodeLocal ⟨some "/dataset"⟩) (refusedAt 5) e
    (store (refusedAt 5)).2 ∧
      (again (store (refusedAt 5)).2).root = (again (refusedAt 5)).root := by
  obtain ⟨e, hf⟩ := @fails_of_not_returns _ (storeEpisodeLocal ⟨some "/dataset"⟩) (refusedAt 5)
    (by decide +kernel)
  obtain ⟨e', htrees⟩ := @fails_of_not_returns _ mergeTrees (refusedAt 5) (by decide +kernel)
  have hleft : (mergeTrees.run.run (refusedAt 5)).2 = (store (refusedAt 5)).2 := by
    obtain ⟨outputRoot, hfirst⟩ : ∃ outputRoot,
        (⟨some "/dataset"⟩ : StorageRuntimeConfig).outputPath = some outputRoot := ⟨_, rfl⟩
    unfold store
    rw [storeEpisodeLocal_eq hfirst, run_bind, htrees]
  obtain ⟨output₂, h₂⟩ := @runs_of_returns ⟨(store (refusedAt 5)).2.root,
    (store (refusedAt 5)).2.staging, []⟩ (by decide +kernel)
  obtain ⟨output₁, h₁⟩ := @runs_of_returns ⟨(refusedAt 5).root, (refusedAt 5).staging, []⟩
    (by decide +kernel)
  obtain ⟨-, hiff⟩ := retry_same_iff (refusedAt_wellFormed 5) hf h₂ h₁
  exact ⟨e, hf, (hiff .trees (.trees (hleft ▸ htrees))).mpr trivial⟩

/-- The staging directory cannot be removed; the next call appends the episode's line again. -/
theorem retry_after_removal : ∃ e output₂ output₁,
    Fails (storeEpisodeLocal ⟨some "/dataset"⟩) (refusedAt 12) e (store (refusedAt 12)).2 ∧
    Runs (storeEpisodeLocal ⟨some "/dataset"⟩) ⟨(store (refusedAt 12)).2.root,
      (store (refusedAt 12)).2.staging, []⟩ output₂ (again (store (refusedAt 12)).2) ∧
    Runs (storeEpisodeLocal ⟨some "/dataset"⟩) ⟨(refusedAt 12).root, (refusedAt 12).staging, []⟩
      output₁ (again (refusedAt 12)) ∧
    (again (store (refusedAt 12)).2).root ≠ (again (refusedAt 12)).root := by
  obtain ⟨e, hf⟩ := @fails_of_not_returns _ (storeEpisodeLocal ⟨some "/dataset"⟩) (refusedAt 12)
    (by decide +kernel)
  obtain ⟨output₂, h₂⟩ := @runs_of_returns ⟨(store (refusedAt 12)).2.root,
    (store (refusedAt 12)).2.staging, []⟩ (by decide +kernel)
  obtain ⟨output₁, h₁⟩ := @runs_of_returns ⟨(refusedAt 12).root, (refusedAt 12).staging, []⟩
    (by decide +kernel)
  refine ⟨e, output₂, output₁, hf, h₂, h₁, fun heq => ?_⟩
  have htwice : (again (store (refusedAt 12)).2).root.disk (metaPath "episodes.jsonl") =
      some (.file [1, 2, 1, 2]) := by decide +kernel
  have honce : (again (refusedAt 12)).root.disk (metaPath "episodes.jsonl") =
      some (.file [1, 2]) := by decide +kernel
  rw [heq, honce] at htwice
  exact absurd htwice (by decide)

end Examples

end StoreRetry
