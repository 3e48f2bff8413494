import Rollio.MergedDataset

/-! How far the merge of the staged trees has come, whether the call goes on or has failed: an
entry of the staging directory is either still staged or already in the dataset. -/
namespace MergeProgress
open FallibleRuns FileTrees LerobotMerge MergeEffects
open MergedDataset (WellFormed)

def entryOf : Option Bytes → Entry
  | none => .dir
  | some content => .file content

def tops : List String := ["data", "videos", "raw"]

def treeEntries (staging : Staging) (top : String) : List (Path × Option Bytes) :=
  match staging.trees top with
  | none => []
  | some forest => ([top], none) :: forest.entriesFrom [top]

/-- Everything a store leaves outside the files of `meta`. -/
def entries (staging : Staging) : List (Path × Option Bytes) :=
  ([], none) :: (["meta"], none) :: tops.flatMap (treeEntries staging)

def Holds (root : Root) (x : Path × Option Bytes) : Prop := root.disk x.1 = some (entryOf x.2)

/-- Since `w` some staged files have moved to their paths; a path of a file that is still staged
may hold anything. -/
structure Underway (w v : World) : Prop where
  distinct : WellFormed v.staging
  staged : entries v.staging ⊆ entries w.staging
  done : ∀ x ∈ entries w.staging, x ∉ entries v.staging → Holds v.root x
  frame : ∀ p ∉ (entries w.staging).map Prod.fst, v.root.disk p = w.root.disk p
  jsonl : v.staging.jsonl = w.staging.jsonl
  stagedInfo : v.staging.info = w.staging.info
  info : v.root.info = w.root.info

/-- The trees in `rest` are untouched, the entries `seen` are in place and the entries `pending`
are still staged. -/
structure Reached (w : World) (rest : List String) (seen pending : List (Path × Option Bytes))
    (v : World) : Prop extends Underway w v where
  untouched : ∀ top ∈ rest, v.staging.trees top = w.staging.trees top
  known : seen ⊆ entries w.staging
  seen : ∀ x ∈ seen, Holds v.root x
  pending : pending ⊆ entries v.staging

section Entries
variable {staging : Staging} {top : String} {p : Path} {e e' : Option Bytes}

theorem treeEntries_head (h : (p, e) ∈ treeEntries staging top) : p.head? = some top := by
  unfold treeEntries at h
  split at h
  · cases h
  · rcases List.mem_cons.mp h with h | h
    · cases h
      rfl
    · obtain ⟨name, -, tail, rfl⟩ := entriesFrom_below h
      rfl

theorem treeEntries_unique (hw : WellFormed staging) (h : (p, e) ∈ treeEntries staging top)
    (h' : (p, e') ∈ treeEntries staging top) : e = e' := by
  cases hf : staging.trees top with
  | none =>
    rw [treeEntries, hf] at h
    cases h
  | some forest =>
    rw [treeEntries, hf] at h h'
    have hself {e : Option Bytes} : ([top], e) ∉ forest.entriesFrom [top] := by
      intro hm
      obtain ⟨child, -, tail, hp⟩ := entriesFrom_below hm
      exact absurd (congrArg List.length hp) (by simp)
    rcases List.mem_cons.mp h with h | h
    · cases h
      rcases List.mem_cons.mp h' with h' | h'
      · cases h'
        rfl
      · exact absurd h' hself
    · rcases List.mem_cons.mp h' with h' | h'
      · cases h'
        exact absurd h hself
      · exact congrArg Prod.snd (List.inj_on_of_nodup_map
          (entriesFrom_nodup (hw top forest hf) [top]) h h' rfl)

theorem mem_entries {x : Path × Option Bytes} : x ∈ entries staging ↔
    x = ([], none) ∨ x = (["meta"], none) ∨ ∃ top ∈ tops, x ∈ treeEntries staging top := by
  simp only [entries, List.mem_cons, List.mem_flatMap]

theorem tops_ne_meta (h : top ∈ tops) : top ≠ "meta" := by
  rintro rfl
  exact absurd h (by decide)

theorem entries_unique (hw : WellFormed staging) (h : (p, e) ∈ entries staging)
    (h' : (p, e') ∈ entries staging) : e = e' := by
  have hplain {e : Option Bytes} (hp : p = [] ∨ p = ["meta"]) (hm : (p, e) ∈ entries staging) :
      e = none := by
    rcases mem_entries.mp hm with he | he | ⟨top, ht, he⟩
    · exact congrArg Prod.snd he
    · exact congrArg Prod.snd he
    · have hhead := treeEntries_head he
      rcases hp with rfl | rfl
      · cases hhead
      · exact absurd (Option.some.inj hhead).symm (tops_ne_meta ht)
  rcases mem_entries.mp h with he | he | ⟨top, ht, he⟩
  · obtain ⟨rfl, rfl⟩ := Prod.mk.inj he
    exact (hplain (Or.inl rfl) h').symm
  · obtain ⟨rfl, rfl⟩ := Prod.mk.inj he
    exact (hplain (Or.inr rfl) h').symm
  · rcases mem_entries.mp h' with he' | he' | ⟨top', ht', he'⟩
    · obtain ⟨rfl, rfl⟩ := Prod.mk.inj he'
      exact hplain (Or.inl rfl) h
    · obtain ⟨rfl, rfl⟩ := Prod.mk.inj he'
      exact hplain (Or.inr rfl) h
    · obtain rfl := Option.some.inj ((treeEntries_head he).symm.trans (treeEntries_head he'))
      exact treeEntries_unique hw he he'

theorem mem_entries_tree (ht : top ∈ tops) {forest : Forest Bytes}
    (hf : staging.trees top = some forest) {x : Path × Option Bytes}
    (hx : x ∈ forest.entriesFrom [top]) : x ∈ entries staging := by
  refine mem_entries.mpr (Or.inr (Or.inr ⟨top, ht, ?_⟩))
  rw [treeEntries, hf]
  exact List.mem_cons_of_mem _ hx

def erased (top : String) (source : Path) (staging : Staging) : Staging :=
  { staging with
    trees := Function.update staging.trees top
      ((staging.trees top).map (Forest.eraseFile source)) }

theorem erased_wellFormed (hw : WellFormed staging) (top : String) (source : Path) :
    WellFormed (erased top source staging) := by
  intro top' forest hf
  by_cases ht : top' = top
  · subst ht
    simp only [erased, Function.update_self, Option.map_eq_some_iff] at hf
    obtain ⟨forest', hf', rfl⟩ := hf
    exact eraseFile_distinct (hw top' forest' hf') source
  · simp only [erased, Function.update_of_ne ht] at hf
    exact hw top' forest hf

theorem mem_treeEntries_erased (hw : WellFormed staging) {source : Path} {content : Bytes}
    (h : (top :: source, some content) ∈ treeEntries staging top) {x : Path × Option Bytes} :
    x ∈ treeEntries (erased top source staging) top ↔
      x ∈ treeEntries staging top ∧ x ≠ (top :: source, some content) := by
  cases hf : staging.trees top with
  | none =>
    rw [treeEntries, hf] at h
    cases h
  | some forest =>
    have herased : (erased top source staging).trees top = some (forest.eraseFile source) := by
      simp only [erased, Function.update_self, hf, Option.map_some]
    rw [treeEntries, hf] at h
    have hmem : (top :: source, some content) ∈ forest.entriesFrom [top] := by
      rcases List.mem_cons.mp h with h | h
      · exact absurd (congrArg Prod.snd h) (Option.some_ne_none _)
      · exact h
    simp only [treeEntries, hf, herased, List.mem_cons,
      mem_eraseFile (hw top forest hf) (show ([top] ++ source, some content) ∈ _ from hmem)]
    constructor
    · rintro (rfl | ⟨hx, hne⟩)
      · exact ⟨Or.inl rfl, fun he => Option.some_ne_none _ (congrArg Prod.snd he).symm⟩
      · exact ⟨Or.inr hx, hne⟩
    · rintro ⟨rfl | hx, hne⟩
      · exact Or.inl rfl
      · exact Or.inr ⟨hx, hne⟩

/-- Without one of its files the staging directory has exactly its other entries. -/
theorem mem_entries_erased (hw : WellFormed staging) {source : Path} {content : Bytes}
    (ht : top ∈ tops) (h : (top :: source, some content) ∈ entries staging)
    {x : Path × Option Bytes} : x ∈ entries (erased top source staging) ↔
      x ∈ entries staging ∧ x ≠ (top :: source, some content) := by
  have hother {top' : String} (hne : top' ≠ top) :
      treeEntries (erased top source staging) top' = treeEntries staging top' := by
    simp only [treeEntries, erased, Function.update_of_ne hne]
  have htree : (top :: source, some content) ∈ treeEntries staging top := by
    rcases mem_entries.mp h with he | he | ⟨top', ht', he⟩
    · exact absurd (congrArg Prod.snd he) (Option.some_ne_none _)
    · exact absurd (congrArg Prod.snd he) (Option.some_ne_none _)
    · obtain rfl := Option.some.inj (treeEntries_head he)
      exact he
  have hnone (p : Path) : ((p, none) : Path × Option Bytes) ≠ (top :: source, some content) :=
    fun he => Option.some_ne_none _ (congrArg Prod.snd he).symm
  rw [mem_entries, mem_entries]
  constructor
  · rintro (rfl | rfl | ⟨top', ht', hx⟩)
    · exact ⟨Or.inl rfl, hnone _⟩
    · exact ⟨Or.inr (Or.inl rfl), hnone _⟩
    · by_cases he : top' = top
      · subst he
        obtain ⟨hx, hne⟩ := (mem_treeEntries_erased hw htree).mp hx
        exact ⟨Or.inr (Or.inr ⟨top', ht', hx⟩), hne⟩
      · rw [hother he] at hx
        refine ⟨Or.inr (Or.inr ⟨top', ht', hx⟩), ?_⟩
        rintro rfl
        exact he (Option.some.inj (treeEntries_head hx)).symm
  · rintro ⟨rfl | rfl | ⟨top', ht', hx⟩, hne⟩
    · exact Or.inl rfl
    · exact Or.inr (Or.inl rfl)
    · refine Or.inr (Or.inr ⟨top', ht', ?_⟩)
      by_cases he : top' = top
      · subst he
        exact (mem_treeEntries_erased hw htree).mpr ⟨hx, hne⟩
      · rw [hother he]
        exact hx

end Entries

section Invariant
variable {w v : World} {rest : List String} {seen pending : List (Path × Option Bytes)}
  {p : Path} {e : Option Bytes}

def put (v : World) (p : Path) (entry : Entry) : World :=
  { v with root := { v.root with disk := Function.update v.root.disk p (some entry) } }

theorem put_self (v : World) (p : Path) (entry : Entry) :
    (put v p entry).root.disk p = some entry := Function.update_self ..

theorem put_other {q : Path} (h : q ≠ p) (v : World) (entry : Entry) :
    (put v p entry).root.disk q = v.root.disk q := Function.update_of_ne h ..

theorem Holds.put {x : Path × Option Bytes} (h : Holds v.root x)
    (hp : x.1 = p → e = x.2) : Holds (put v p (entryOf e)).root x := by
  by_cases hx : x.1 = p
  · rw [Holds, hx, put_self, hp hx]
  · rw [Holds, put_other hx]
    exact h

theorem Underway.refl (hw : WellFormed w.staging) : Underway w w :=
  ⟨hw, List.Subset.refl _, fun _ hx hn => absurd hx hn, fun _ _ => rfl, rfl, rfl, rfl⟩

theorem Underway.faults (h : Underway w v) (faults : List (Option Fault)) :
    Underway w { v with faults := faults } :=
  ⟨h.distinct, h.staged, h.done, h.frame, h.jsonl, h.stagedInfo, h.info⟩

theorem Underway.put (hw : WellFormed w.staging) (h : Underway w v)
    (hx : (p, e) ∈ entries w.staging) : Underway w (put v p (entryOf e)) where
  distinct := h.distinct
  staged := h.staged
  done := by
    intro x hx' hn
    exact (h.done x hx' hn).put fun hp =>
      entries_unique hw hx (show (p, x.2) ∈ entries w.staging from hp ▸ hx')
  frame := by
    intro q hq
    have hne : q ≠ p := by
      rintro rfl
      exact hq (List.mem_map_of_mem hx)
    exact (put_other hne v _).trans (h.frame q hq)
  jsonl := h.jsonl
  stagedInfo := h.stagedInfo
  info := h.info

/-- At the path of a file that is still staged anything may be left. -/
theorem Underway.tear (hw : WellFormed w.staging) (h : Underway w v)
    (hx : (p, e) ∈ entries v.staging) (entry : Entry) :
    Underway w (MergeProgress.put v p entry) where
  distinct := h.distinct
  staged := h.staged
  done := by
    intro x hx' hn
    have hne : x.1 ≠ p := by
      intro hp
      obtain ⟨q, e'⟩ := x
      obtain rfl : q = p := hp
      obtain rfl := entries_unique hw hx' (h.staged hx)
      exact hn hx
    rw [Holds, put_other hne]
    exact h.done x hx' hn
  frame := by
    intro q hq
    have hne : q ≠ p := by
      rintro rfl
      exact hq (List.mem_map_of_mem (h.staged hx))
    exact (put_other hne v _).trans (h.frame q hq)
  jsonl := h.jsonl
  stagedInfo := h.stagedInfo
  info := h.info

theorem Reached.faults (h : Reached w rest seen pending v) (faults : List (Option Fault)) :
    Reached w rest seen pending { v with faults := faults } :=
  ⟨h.toUnderway.faults faults, h.untouched, h.known, h.seen, h.pending⟩

theorem Reached.mono {seen' pending' : List (Path × Option Bytes)}
    (h : Reached w rest seen pending v) (hs : seen' ⊆ seen) (hp : pending' ⊆ pending) :
    Reached w rest seen' pending' v :=
  ⟨h.toUnderway, h.untouched, List.Subset.trans hs h.known, fun x hx => h.seen x (hs hx),
    List.Subset.trans hp h.pending⟩

theorem Reached.see (h : Reached w rest seen pending v) (hx : (p, e) ∈ entries w.staging)
    (hh : v.root.disk p = some (entryOf e)) : Reached w rest ((p, e) :: seen) pending v where
  toUnderway := h.toUnderway
  untouched := h.untouched
  known := List.cons_subset.mpr ⟨hx, h.known⟩
  seen := List.forall_mem_cons.mpr ⟨hh, h.seen⟩
  pending := h.pending

theorem Reached.put (hw : WellFormed w.staging) (h : Reached w rest seen pending v)
    (hx : (p, e) ∈ entries w.staging) :
    Reached w rest ((p, e) :: seen) pending (MergeProgress.put v p (entryOf e)) where
  toUnderway := h.toUnderway.put hw hx
  untouched := h.untouched
  known := List.cons_subset.mpr ⟨hx, h.known⟩
  seen := List.forall_mem_cons.mpr ⟨put_self v p _, fun x hx' => (h.seen x hx').put fun hp =>
    entries_unique hw hx (show (p, x.2) ∈ entries w.staging from hp ▸ h.known hx')⟩
  pending := h.pending

theorem Reached.erase {top : String} {source : Path} {content : Bytes} (ht : top ∈ tops)
    (hr : top ∉ rest) (hn : (top :: source, some content) ∉ pending)
    (h : Reached w rest ((top :: source, some content) :: seen)
      ((top :: source, some content) :: pending) v) :
    Reached w rest ((top :: source, some content) :: seen) pending
      { v with staging := erased top source v.staging } := by
  have hstaged := h.pending List.mem_cons_self
  have hmem {y : Path × Option Bytes} : y ∈ entries (erased top source v.staging) ↔
      y ∈ entries v.staging ∧ y ≠ (top :: source, some content) :=
    mem_entries_erased h.distinct ht hstaged
  constructor
  · constructor
    · exact erased_wellFormed h.distinct top source
    · intro _ hx
      exact h.staged (hmem.mp hx).1
    · intro x hx hx'
      by_cases he : x = (top :: source, some content)
      · subst he
        exact h.seen _ List.mem_cons_self
      · exact h.done x hx fun hv => hx' (hmem.mpr ⟨hv, he⟩)
    · exact h.frame
    · exact h.jsonl
    · exact h.stagedInfo
    · exact h.info
  · intro top' ht'
    have hne : top' ≠ top := by
      rintro rfl
      exact hr ht'
    exact (Function.update_of_ne hne _ _).trans (h.untouched top' ht')
  · exact h.known
  · exact h.seen
  · intro x hx
    refine hmem.mpr ⟨h.pending (List.mem_cons_of_mem _ hx), ?_⟩
    rintro rfl
    exact hn hx

end Invariant

section Operations
variable {w : World} {rest : List String} {seen pending : List (Path × Option Bytes)}
  {path : Path} {P E : World → Prop} {top : String} {source : Path} {content : Bytes}

def Calm (P : World → Prop) : Prop := ∀ v faults, P v → P { v with faults := faults }

theorem meets_takeFault (hP : Calm P) : Meets P takeFault (fun _ => P) E := by
  refine meets_get_bind fun s hs => ?_
  refine meets_then P (meets_modify ?_) (meets_pure fun _ h => h)
  rintro _ rfl
  exact hP _ _ hs

theorem meets_attempt (hP : Calm P) (hE : ∀ v, P v → E v) : Meets P attempt (fun _ => P) E := by
  refine meets_bind (meets_takeFault hP) fun fault => ?_
  cases fault with
  | none => exact meets_pure fun _ h => h
  | some fault => exact meets_throw hE

theorem reached_calm : Calm (Reached w rest seen pending) := fun _ faults h => h.faults faults

theorem meets_createDir (hw : WellFormed w.staging) (hp : (path, none) ∈ entries w.staging) :
    Meets (Reached w rest seen pending) (createDir path)
      (fun _ => Reached w rest ((path, none) :: seen) pending) (Underway w) := by
  refine meets_get_bind fun s hs => ?_
  split
  · next hd =>
    refine meets_pure ?_
    rintro _ rfl
    exact hs.see hp hd
  · refine meets_throw ?_
    rintro _ rfl
    exact hs.toUnderway
  · have hattempt : Meets (· = s) attempt (fun _ => Reached w rest seen pending) (Underway w) :=
      (meets_attempt reached_calm fun _ h => h.toUnderway).weaken (by rintro _ rfl; exact hs)
        (fun _ _ h => h) fun _ h => h
    exact meets_bind hattempt fun _ => meets_modify fun v hv => hv.put hw hp

def Rooted (w : World) (path : Path) : Prop := ∀ p ∈ path.inits, (p, none) ∈ entries w.staging

theorem meets_createDirAll (hw : WellFormed w.staging) (hp : Rooted w path) :
    Meets (Reached w rest seen pending) (createDirAll path)
      (fun _ => Reached w rest ((path, none) :: seen) pending) (Underway w) := by
  have hloop : Meets (Reached w rest (List.map (·, none) [] ++ seen) pending)
      (path.inits.forM createDir)
      (fun _ => Reached w rest (path.inits.map (·, none) ++ seen) pending) (Underway w) := by
    refine meets_forM (fun before => Reached w rest (before.map (·, none) ++ seen) pending) ?_
    intro before p after hl
    have hmem : p ∈ path.inits := hl ▸ List.mem_append_right _ List.mem_cons_self
    refine (meets_createDir hw (hp p hmem)).weaken (fun _ h => h) (fun _ _ h => h.mono ?_
      (List.Subset.refl _)) fun _ h => h
    intro x hx
    simp only [List.map_append, List.map_cons, List.map_nil, List.mem_append, List.mem_cons,
      List.not_mem_nil, or_false] at hx ⊢
    rcases hx with (hx | hx) | hx
    · exact Or.inr (Or.inl hx)
    · exact Or.inl hx
    · exact Or.inr (Or.inr hx)
  refine hloop.weaken (fun _ h => h) (fun _ _ h => h.mono ?_ (List.Subset.refl _)) fun _ h => h
  refine List.cons_subset.mpr ⟨List.mem_append_left _ ?_, List.subset_append_right _ _⟩
  exact List.mem_map_of_mem ((List.mem_inits _ _).mpr List.prefix_rfl)

theorem meets_checkTarget (hE : ∀ v, P v → E v) : Meets P (checkTarget path) (fun _ => P) E := by
  refine meets_get_bind fun s hs => ?_
  split
  · refine meets_throw ?_
    rintro _ rfl
    exact hE _ hs
  · refine meets_pure ?_
    rintro _ rfl
    exact hs
  · refine meets_throw ?_
    rintro _ rfl
    exact hE _ hs

theorem meets_renameStaged (hw : WellFormed w.staging) (ht : top ∈ tops) (hr : top ∉ rest)
    (hx : (top :: source, some content) ∈ entries w.staging)
    (hn : (top :: source, some content) ∉ pending) :
    Meets (Reached w rest seen ((top :: source, some content) :: pending))
      (renameStaged top source content (top :: source))
      (fun _ => Reached w rest ((top :: source, some content) :: seen) pending)
      (Reached w rest seen ((top :: source, some content) :: pending)) := by
  refine meets_bind (meets_attempt reached_calm fun _ h => h) fun _ => ?_
  refine meets_bind (meets_checkTarget fun _ h => h) fun _ => ?_
  refine meets_then (Reached w rest ((top :: source, some content) :: seen)
    ((top :: source, some content) :: pending)) (meets_modify fun v hv => ?_)
    (meets_modify fun v hv => ?_)
  · exact hv.put hw hx
  · exact hv.erase ht hr hn

theorem meets_writeStaged (hw : WellFormed w.staging)
    (hx : (path, some content) ∈ entries w.staging) :
    Meets (Reached w rest seen ((path, some content) :: pending)) (writeFile path content)
      (fun _ => Reached w rest ((path, some content) :: seen) ((path, some content) :: pending))
      (Underway w) := by
  refine meets_bind (meets_checkTarget fun _ h => h.toUnderway) fun _ => ?_
  refine meets_bind (meets_takeFault reached_calm) fun fault => ?_
  cases fault with
  | none => exact meets_modify fun v hv => hv.put hw hx
  | some fault =>
    cases fault with
    | torn written =>
      refine meets_then (Underway w) (meets_modify fun v hv => ?_) (meets_throw fun _ h => h)
      exact hv.toUnderway.tear hw (hv.pending List.mem_cons_self) _
    | refused | partly => exact meets_throw fun _ h => h.toUnderway

theorem meets_moveOrCopyFile (hw : WellFormed w.staging) (ht : top ∈ tops) (hr : top ∉ rest)
    (hx : (top :: source, some content) ∈ entries w.staging)
    (hn : (top :: source, some content) ∉ pending) :
    Meets (Reached w rest seen ((top :: source, some content) :: pending))
      (moveOrCopyFile top source content (top :: source))
      (fun _ => Reached w rest ((top :: source, some content) :: seen) pending) (Underway w) := by
  refine meets_tryCatch (meets_renameStaged hw ht hr hx hn) fun _ => ?_
  refine meets_bind (meets_writeStaged hw hx) fun _ => ?_
  refine meets_bind (meets_attempt reached_calm fun _ h => h.toUnderway) fun _ => ?_
  exact meets_modify fun v hv => hv.erase ht hr hn

theorem rooted_concat {name : String} (h : Rooted w path)
    (hx : (path ++ [name], none) ∈ entries w.staging) : Rooted w (path ++ [name]) := by
  intro p hp
  rcases List.prefix_concat_iff.mp ((List.mem_inits _ _).mp hp) with rfl | hp
  · exact hx
  · exact h p ((List.mem_inits _ _).mpr hp)

theorem meets_mergeEntries (hw : WellFormed w.staging) (ht : top ∈ tops) (hr : top ∉ rest)
    {forest : Forest Bytes} (hroot : Rooted w (top :: source))
    (hmem : forest.entriesFrom (top :: source) ⊆ entries w.staging)
    (hnodup : (forest.entriesFrom (top :: source) ++ pending).Nodup) :
    Meets (Reached w rest seen (forest.entriesFrom (top :: source) ++ pending))
      (mergeEntries top source (top :: source) forest)
      (fun _ => Reached w rest (forest.entriesFrom (top :: source) ++ seen) pending)
      (Underway w) := by
  induction forest generalizing source seen pending with
  | nil => exact meets_pure fun _ h => h
  | dir name children others ihc iho =>
    have hself : (top :: source ++ [name], none) ∈ entries w.staging := hmem List.mem_cons_self
    have hchildren : children.entriesFrom (top :: source ++ [name]) ⊆ entries w.staging :=
      fun _ hx => hmem (List.mem_cons_of_mem _ (List.mem_append_left _ hx))
    have hothers : others.entriesFrom (top :: source) ⊆ entries w.staging :=
      fun _ hx => hmem (List.mem_cons_of_mem _ (List.mem_append_right _ hx))
    rw [Forest.entriesFrom, List.cons_append, List.nodup_cons, List.append_assoc] at hnodup
    have hbelow := rooted_concat hroot hself
    refine meets_bind ((meets_createDirAll hw hbelow).weaken (fun _ h => h) (fun _ _ h => h)
      fun _ h => h) fun _ => ?_
    refine meets_bind (meets_attempt reached_calm fun _ h => h.toUnderway) fun _ => ?_
    refine meets_then _ ((ihc hbelow hchildren hnodup.2).weaken (fun _ h => h.mono
      (List.Subset.refl _) ?_) (fun _ _ h => h) fun _ h => h) ((iho hroot hothers
      (List.nodup_append'.mp hnodup.2).2.1).weaken (fun _ h => h) (fun _ _ h => h.mono ?_
      (List.Subset.refl _)) fun _ h => h)
    · intro x hx
      rw [Forest.entriesFrom, List.cons_append, List.append_assoc]
      exact List.mem_cons_of_mem _ hx
    · intro x hx
      simp only [Forest.entriesFrom, List.mem_append, List.mem_cons] at hx ⊢
      rcases hx with (rfl | hx | hx) | hx
      · exact Or.inr (Or.inr (Or.inl rfl))
      · exact Or.inr (Or.inl hx)
      · exact Or.inl hx
      · exact Or.inr (Or.inr (Or.inr hx))
  | file name content others ih =>
    have hself : (top :: source ++ [name], some content) ∈ entries w.staging :=
      hmem List.mem_cons_self
    have hothers : others.entriesFrom (top :: source) ⊆ entries w.staging :=
      fun _ hx => hmem (List.mem_cons_of_mem _ hx)
    rw [Forest.entriesFrom, List.cons_append, List.nodup_cons] at hnodup
    refine meets_bind (meets_createDirAll hw hroot) fun _ => ?_
    refine meets_then _ (meets_moveOrCopyFile hw ht hr hself hnodup.1) ?_
    refine (ih hroot hothers hnodup.2).weaken (fun _ h => h) (fun _ _ h => h.mono ?_
      (List.Subset.refl _)) fun _ h => h
    intro x hx
    simp only [Forest.entriesFrom, List.mem_append, List.mem_cons] at hx ⊢
    rcases hx with (rfl | hx) | hx
    · exact Or.inr (Or.inl rfl)
    · exact Or.inl hx
    · exact Or.inr (Or.inr (Or.inr hx))
  | other name others ih => exact ih hroot hmem hnodup

theorem rooted_nil : Rooted w [] := by
  intro p hp
  obtain rfl := List.mem_singleton.mp hp
  exact List.mem_cons_self

theorem rooted_top (ht : top ∈ tops) {forest : Forest Bytes}
    (hf : w.staging.trees top = some forest) : Rooted w [top] := by
  intro p hp
  rcases List.mem_pair.mp hp with rfl | rfl
  · exact List.mem_cons_self
  · refine mem_entries.mpr (Or.inr (Or.inr ⟨top, ht, ?_⟩))
    rw [treeEntries, hf]
    exact List.mem_cons_self

theorem meets_mergeTreeIfPresent (hw : WellFormed w.staging) (ht : top ∈ tops)
    (hr : top ∉ rest) :
    Meets (Reached w (top :: rest) seen []) (mergeTreeIfPresent top)
      (fun _ => Reached w rest (treeEntries w.staging top ++ seen) []) (Underway w) := by
  have hnext {v : World} (h : Reached w (top :: rest) seen [] v) : Reached w rest seen [] v :=
    ⟨h.toUnderway, fun top' ht' => h.untouched top' (List.mem_cons_of_mem _ ht'), h.known, h.seen,
      h.pending⟩
  refine meets_get_bind fun s hs => ?_
  have htree := hs.untouched top List.mem_cons_self
  split
  · next hn =>
    refine meets_pure ?_
    rintro _ rfl
    have hempty : treeEntries w.staging top = [] := by
      rw [treeEntries, ← htree, hn]
    rw [hempty]
    exact hnext hs
  · next forest hf =>
    have hfw : w.staging.trees top = some forest := htree.symm.trans hf
    have hentries : treeEntries w.staging top = ([top], none) :: forest.entriesFrom [top] := by
      rw [treeEntries, hfw]
    have hroot := rooted_top ht hfw
    have hstart : Meets (· = s) (createDirAll [top]) (fun _ => Reached w rest
        (([top], none) :: seen) (forest.entriesFrom [top])) (Underway w) := by
      refine (meets_createDirAll hw hroot).weaken ?_ (fun _ _ h => h) fun _ h => h
      rintro _ rfl
      exact ⟨hs.toUnderway, (hnext hs).untouched, hs.known, hs.seen,
        fun x hx => mem_entries_tree ht hf hx⟩
    refine meets_bind hstart fun _ => ?_
    refine meets_bind (meets_attempt reached_calm fun _ h => h.toUnderway) fun _ => ?_
    have hnodup := entriesFrom_nodup (hw top forest hfw) [top]
    have hwalk := @meets_mergeEntries w rest (([top], none) :: seen) [] top [] hw ht hr forest hroot
      (fun x hx => mem_entries_tree ht hfw hx) (by rw [List.append_nil]; exact hnodup.of_map)
    refine hwalk.weaken (fun _ h => ?_) (fun _ _ h => h.mono ?_ (List.Subset.refl _)) fun _ h => h
    · rwa [List.append_nil]
    · intro x hx
      rw [hentries] at hx
      simp only [List.mem_append, List.mem_cons] at hx ⊢
      rcases hx with (rfl | hx) | hx
      · exact Or.inr (Or.inl rfl)
      · exact Or.inl hx
      · exact Or.inr (Or.inr hx)

end Operations

end MergeProgress
