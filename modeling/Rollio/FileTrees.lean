import Mathlib.Data.List.Nodup
import Mathlib.Logic.Function.Basic

/-! Directory trees as listed, the files they hold under their paths, and tables of files that
writes change one path at a time. -/
namespace FileTrees

abbrev Path := List String

instance (path : Path) (paths : List Path) : Decidable (path ∈ paths) :=
  List.instDecidableMemOfLawfulBEq path paths

variable {β : Type}

/-- The entries of a directory in listing order; `other` is neither file nor directory. -/
inductive Forest (β : Type) where
  | nil
  | dir (name : String) (children rest : Forest β)
  | file (name : String) (content : β) (rest : Forest β)
  | other (name : String) (rest : Forest β)
  deriving DecidableEq

def Forest.names : Forest β → List String
  | .nil => []
  | .dir name _ rest | .file name _ rest | .other name rest => name :: rest.names

/-- Every directory of the tree lists distinct names. -/
def Forest.Distinct : Forest β → Prop
  | .nil => True
  | .dir name children rest => name ∉ rest.names ∧ children.Distinct ∧ rest.Distinct
  | .file name _ rest | .other name rest => name ∉ rest.names ∧ rest.Distinct

def Forest.filesFrom (base : Path) : Forest β → List (Path × β)
  | .nil => []
  | .dir name children rest => children.filesFrom (base ++ [name]) ++ rest.filesFrom base
  | .file name content rest => (base ++ [name], content) :: rest.filesFrom base
  | .other _ rest => rest.filesFrom base

def Forest.eraseFile : Path → Forest β → Forest β
  | _, .nil => .nil
  | name' :: path, .dir name children rest =>
    if name' = name then .dir name (children.eraseFile path) rest
    else .dir name children (rest.eraseFile (name' :: path))
  | [], .dir name children rest => .dir name children rest
  | path, .file name content rest =>
    if path = [name] then rest else .file name content (rest.eraseFile path)
  | path, .other name rest => .other name (rest.eraseFile path)

/-- The tree below `base` when only the listed paths are gone. -/
def Forest.without (paths : List Path) (base : Path) : Forest β → Forest β
  | .nil => .nil
  | .dir name children rest =>
    if base ++ [name] ∈ paths then rest.without paths base
    else .dir name (children.without paths (base ++ [name])) (rest.without paths base)
  | .file name content rest =>
    if base ++ [name] ∈ paths then rest.without paths base
    else .file name content (rest.without paths base)
  | .other name rest => .other name (rest.without paths base)

theorem filesFrom_below {forest : Forest β} {base p : Path} {content : β}
    (h : (p, content) ∈ forest.filesFrom base) :
    ∃ name ∈ forest.names, ∃ tail, p = base ++ name :: tail := by
  induction forest generalizing base with
  | nil => cases h
  | dir name children rest ihc ihr =>
    rcases List.mem_append.mp h with h | h
    · obtain ⟨child, -, tail, rfl⟩ := ihc h
      exact ⟨name, List.mem_cons_self, child :: tail, by simp⟩
    · obtain ⟨name', hn, tail, rfl⟩ := ihr h
      exact ⟨name', List.mem_cons_of_mem _ hn, tail, rfl⟩
  | file name content' rest ih =>
    rcases List.mem_cons.mp h with h | h
    · cases h
      exact ⟨name, List.mem_cons_self, [], rfl⟩
    · obtain ⟨name', hn, tail, rfl⟩ := ih h
      exact ⟨name', List.mem_cons_of_mem _ hn, tail, rfl⟩
  | other name rest ih =>
    obtain ⟨name', hn, tail, rfl⟩ := ih h
    exact ⟨name', List.mem_cons_of_mem _ hn, tail, rfl⟩

theorem filesFrom_starts {forest : Forest β} {base p : Path} {content : β}
    (h : (p, content) ∈ forest.filesFrom base) : base <+: p := by
  obtain ⟨name, -, tail, rfl⟩ := filesFrom_below h
  exact List.prefix_append _ _

/-- Behind a name the rest of a directory does not list, no path of the rest continues. -/
theorem not_mem_filesFrom {rest : Forest β} {base p : Path} {name : String}
    (hn : name ∉ rest.names) (hp : base ++ [name] <+: p) :
    p ∉ (rest.filesFrom base).map Prod.fst := by
  intro hm
  obtain ⟨⟨q, content⟩, hq, rfl⟩ := List.mem_map.mp hm
  obtain ⟨name', hn', tail, rfl⟩ := filesFrom_below hq
  obtain ⟨tail', ht⟩ := hp
  simp only [List.append_assoc, List.singleton_append, List.append_cancel_left_eq,
    List.cons.injEq] at ht
  exact hn (ht.1 ▸ hn')

/-- A tree with distinct names has one file at a path. -/
theorem filesFrom_nodup {forest : Forest β} (h : forest.Distinct) (base : Path) :
    ((forest.filesFrom base).map Prod.fst).Nodup := by
  induction forest generalizing base with
  | nil => exact List.nodup_nil
  | dir name children rest ihc ihr =>
    obtain ⟨hn, hc, hr⟩ := h
    rw [Forest.filesFrom, List.map_append, List.nodup_append']
    refine ⟨ihc hc _, ihr hr _, fun p hp hp' => ?_⟩
    obtain ⟨⟨q, content⟩, hq, rfl⟩ := List.mem_map.mp hp
    exact not_mem_filesFrom hn (filesFrom_starts hq) hp'
  | file name content rest ih =>
    obtain ⟨hn, hr⟩ := h
    rw [Forest.filesFrom, List.map_cons, List.nodup_cons]
    exact ⟨not_mem_filesFrom hn List.prefix_rfl, ih hr _⟩
  | other name rest ih => exact ih h.2 base

section Entries

def Forest.entriesFrom (base : Path) : Forest β → List (Path × Option β)
  | .nil => []
  | .dir name children rest => (base ++ [name], none) ::
      (children.entriesFrom (base ++ [name]) ++ rest.entriesFrom base)
  | .file name content rest => (base ++ [name], some content) :: rest.entriesFrom base
  | .other _ rest => rest.entriesFrom base

theorem entriesFrom_below {forest : Forest β} {base p : Path} {e : Option β}
    (h : (p, e) ∈ forest.entriesFrom base) :
    ∃ name ∈ forest.names, ∃ tail, p = base ++ name :: tail := by
  induction forest generalizing base with
  | nil => cases h
  | dir name children rest ihc ihr =>
    rcases List.mem_cons.mp h with h | h
    · cases h
      exact ⟨name, List.mem_cons_self, [], rfl⟩
    · rcases List.mem_append.mp h with h | h
      · obtain ⟨child, -, tail, rfl⟩ := ihc h
        exact ⟨name, List.mem_cons_self, child :: tail, by simp⟩
      · obtain ⟨name', hn, tail, rfl⟩ := ihr h
        exact ⟨name', List.mem_cons_of_mem _ hn, tail, rfl⟩
  | file name content rest ih =>
    rcases List.mem_cons.mp h with h | h
    · cases h
      exact ⟨name, List.mem_cons_self, [], rfl⟩
    · obtain ⟨name', hn, tail, rfl⟩ := ih h
      exact ⟨name', List.mem_cons_of_mem _ hn, tail, rfl⟩
  | other name rest ih =>
    obtain ⟨name', hn, tail, rfl⟩ := ih h
    exact ⟨name', List.mem_cons_of_mem _ hn, tail, rfl⟩

/-- The names of a path below `base` start with one the tree lists. -/
theorem entriesFrom_name {forest : Forest β} {base tail : Path} {name : String} {e : Option β}
    (h : (base ++ name :: tail, e) ∈ forest.entriesFrom base) : name ∈ forest.names := by
  obtain ⟨name', hn, tail', hp⟩ := entriesFrom_below h
  simp only [List.append_cancel_left_eq, List.cons.injEq] at hp
  exact hp.1 ▸ hn

theorem entriesFrom_starts {forest : Forest β} {base p : Path} {e : Option β}
    (h : (p, e) ∈ forest.entriesFrom base) : base <+: p := by
  obtain ⟨name, -, tail, rfl⟩ := entriesFrom_below h
  exact List.prefix_append _ _

/-- Behind a name the rest of a directory does not list, no entry of the rest continues. -/
theorem not_mem_entriesFrom {rest : Forest β} {base p : Path} {name : String}
    (hn : name ∉ rest.names) (hp : base ++ [name] <+: p) :
    p ∉ (rest.entriesFrom base).map Prod.fst := by
  intro hm
  obtain ⟨⟨q, e⟩, hq, rfl⟩ := List.mem_map.mp hm
  obtain ⟨tail, rfl⟩ := hp
  rw [List.append_assoc, List.singleton_append] at hq
  exact hn (entriesFrom_name hq)

/-- A tree with distinct names has one entry at a path. -/
theorem entriesFrom_nodup {forest : Forest β} (h : forest.Distinct) (base : Path) :
    ((forest.entriesFrom base).map Prod.fst).Nodup := by
  induction forest generalizing base with
  | nil => exact List.nodup_nil
  | dir name children rest ihc ihr =>
    obtain ⟨hn, hc, hr⟩ := h
    rw [Forest.entriesFrom, List.map_cons, List.map_append, List.nodup_cons, List.nodup_append']
    refine ⟨?_, ihc hc _, ihr hr _, fun p hp hp' => ?_⟩
    · rw [List.mem_append, not_or]
      refine ⟨fun hm => ?_, not_mem_entriesFrom hn List.prefix_rfl⟩
      obtain ⟨⟨q, e⟩, hq, he⟩ := List.mem_map.mp hm
      obtain ⟨child, -, tail, rfl⟩ := entriesFrom_below hq
      exact absurd (congrArg List.length he) (by simp)
    · obtain ⟨⟨q, e⟩, hq, rfl⟩ := List.mem_map.mp hp
      exact not_mem_entriesFrom hn (entriesFrom_starts hq) hp'
  | file name content rest ih =>
    obtain ⟨hn, hr⟩ := h
    rw [Forest.entriesFrom, List.map_cons, List.nodup_cons]
    exact ⟨not_mem_entriesFrom hn List.prefix_rfl, ih hr _⟩
  | other name rest ih => exact ih h.2 base

theorem eraseFile_file (path : Path) (name : String) (content : β) (rest : Forest β) :
    (Forest.file name content rest).eraseFile path =
      if path = [name] then rest else .file name content (rest.eraseFile path) := by
  cases path <;> rfl

theorem eraseFile_other (path : Path) (name : String) (rest : Forest β) :
    (Forest.other name rest).eraseFile path = .other name (rest.eraseFile path) := by
  cases path <;> rfl

theorem eraseFile_names (path : Path) (forest : Forest β) :
    (forest.eraseFile path).names ⊆ forest.names := by
  induction forest generalizing path with
  | nil => cases path <;> exact List.Subset.refl _
  | dir name children rest ihc ihr =>
    cases path with
    | nil => exact List.Subset.refl _
    | cons name' path =>
      rw [Forest.eraseFile]
      split
      · exact List.Subset.refl _
      · exact List.cons_subset_cons _ (ihr (name' :: path))
  | file name content rest ih =>
    rw [eraseFile_file]
    split
    · exact List.subset_cons_self _ _
    · exact List.cons_subset_cons _ (ih path)
  | other name rest ih =>
    rw [eraseFile_other]
    exact List.cons_subset_cons _ (ih path)

theorem eraseFile_distinct {forest : Forest β} (h : forest.Distinct) (path : Path) :
    (forest.eraseFile path).Distinct := by
  induction forest generalizing path with
  | nil => cases path <;> exact h
  | dir name children rest ihc ihr =>
    obtain ⟨hn, hc, hr⟩ := h
    cases path with
    | nil => exact ⟨hn, hc, hr⟩
    | cons name' path =>
      rw [Forest.eraseFile]
      split
      · exact ⟨hn, ihc hc path, hr⟩
      · exact ⟨fun hm => hn (eraseFile_names _ rest hm), hc, ihr hr _⟩
  | file name content rest ih =>
    obtain ⟨hn, hr⟩ := h
    rw [eraseFile_file]
    split
    · exact hr
    · exact ⟨fun hm => hn (eraseFile_names _ rest hm), ih hr path⟩
  | other name rest ih =>
    obtain ⟨hn, hr⟩ := h
    rw [eraseFile_other]
    exact ⟨fun hm => hn (eraseFile_names _ rest hm), ih hr path⟩

section Erased
variable {γ : Type} {part part' others : List γ} {x y : γ}

/-- What is gone from one part of a list, and is in no other, is gone from the list. -/
theorem mem_erased_before (h : x ∈ part' ↔ x ∈ part ∧ x ≠ y) (hy : y ∉ others) :
    x ∈ part' ++ others ↔ x ∈ part ++ others ∧ x ≠ y := by
  rw [List.mem_append, List.mem_append, h, or_and_right]
  refine or_congr_right ⟨fun hx => ⟨hx, ?_⟩, And.left⟩
  rintro rfl
  exact hy hx

theorem mem_erased_behind (h : x ∈ part' ↔ x ∈ part ∧ x ≠ y) (hy : y ∉ others) :
    x ∈ others ++ part' ↔ x ∈ others ++ part ∧ x ≠ y := by
  rw [List.mem_append, List.mem_append, h, or_and_right]
  refine or_congr_left ⟨fun hx => ⟨hx, ?_⟩, And.left⟩
  rintro rfl
  exact hy hx

end Erased

section Erasing
variable {name name' : String} {children children' rest rest' : Forest β} {base path : Path}
  {content content' : β} {x : Path × Option β}

/-- The file is in the first directory of the list. -/
theorem mem_erased_inside (hn : name ∉ rest.names)
    (h : x ∈ children'.entriesFrom (base ++ [name]) ↔
      x ∈ children.entriesFrom (base ++ [name]) ∧ x ≠ (base ++ name :: path, some content)) :
    x ∈ (Forest.dir name children' rest).entriesFrom base ↔
      x ∈ (Forest.dir name children rest).entriesFrom base ∧
        x ≠ (base ++ name :: path, some content) := by
  have hrest : (base ++ name :: path, some content) ∉ rest.entriesFrom base :=
    fun hm => hn (entriesFrom_name hm)
  have hhead : (base ++ name :: path, some content) ∉ [(base ++ [name], (none : Option β))] := by
    simp
  exact mem_erased_behind (mem_erased_before h hrest) hhead

/-- A directory of another name does not have the file. -/
theorem not_mem_other_dir (children : Forest β) (base path : Path) (content : β)
    (hname : name' ≠ name) :
    (base ++ name' :: path, some content) ∉
      (base ++ [name], none) :: children.entriesFrom (base ++ [name]) := by
  rw [List.mem_cons, not_or]
  refine ⟨by simp, fun hm => ?_⟩
  obtain ⟨child, -, tail, hp⟩ := entriesFrom_below hm
  simp only [List.append_assoc, List.singleton_append, List.append_cancel_left_eq,
    List.cons.injEq] at hp
  exact hname hp.1

/-- The file is behind a directory of another name. -/
theorem mem_erased_behind_dir (hname : name' ≠ name)
    (h : x ∈ rest'.entriesFrom base ↔
      x ∈ rest.entriesFrom base ∧ x ≠ (base ++ name' :: path, some content)) :
    x ∈ (Forest.dir name children rest').entriesFrom base ↔
      x ∈ (Forest.dir name children rest).entriesFrom base ∧
        x ≠ (base ++ name' :: path, some content) := by
  have hother := not_mem_other_dir children base path content hname
  exact mem_erased_behind h hother

/-- The file is the first of the list. -/
theorem mem_erased_first (hn : name ∉ rest.names) :
    x ∈ rest.entriesFrom base ↔ x ∈ (Forest.file name content rest).entriesFrom base ∧
      x ≠ (base ++ [name], some content) := by
  have hrest : (base ++ [name], some content) ∉ rest.entriesFrom base :=
    fun hm => hn (entriesFrom_name hm)
  rw [Forest.entriesFrom, List.mem_cons]
  constructor
  · intro hx
    refine ⟨Or.inr hx, ?_⟩
    rintro rfl
    exact hrest hx
  · rintro ⟨hx | hx, hne⟩
    · exact absurd hx hne
    · exact hx

/-- The file is behind another one. -/
theorem mem_erased_behind_file (hpath : path ≠ [name])
    (h : x ∈ rest'.entriesFrom base ↔
      x ∈ rest.entriesFrom base ∧ x ≠ (base ++ path, some content)) :
    x ∈ (Forest.file name content' rest').entriesFrom base ↔
      x ∈ (Forest.file name content' rest).entriesFrom base ∧
        x ≠ (base ++ path, some content) := by
  have hhead : (base ++ path, some content) ∉ [(base ++ [name], some content')] := by
    simp [hpath]
  exact mem_erased_behind h hhead

end Erasing

/-- Without one of its files a tree has exactly its other entries. -/
theorem mem_eraseFile {forest : Forest β} (h : forest.Distinct) {base path : Path} {content : β}
    (hf : (base ++ path, some content) ∈ forest.entriesFrom base) {x : Path × Option β} :
    x ∈ (forest.eraseFile path).entriesFrom base ↔
      x ∈ forest.entriesFrom base ∧ x ≠ (base ++ path, some content) := by
  induction forest generalizing base path with
  | nil => cases hf
  | dir name children rest ihc ihr =>
    obtain ⟨hn, hc, hr⟩ := h
    cases path with
    | nil =>
      obtain ⟨name', -, tail, hp⟩ := entriesFrom_below hf
      exact absurd (congrArg List.length hp) (by simp)
    | cons name' path =>
      rw [Forest.eraseFile]
      split
      · next hname =>
        subst hname
        have hpath : base ++ name' :: path = base ++ [name'] ++ path := by simp
        have hin : (base ++ name' :: path, some content) ∈ children.entriesFrom (base ++ [name']) := by
          rcases List.mem_cons.mp hf with hf | hf
          · exact absurd (congrArg Prod.snd hf) (Option.some_ne_none _)
          · exact (List.mem_append.mp hf).resolve_right fun hm => hn (entriesFrom_name hm)
        refine mem_erased_inside hn ?_
        rw [hpath] at hin ⊢
        exact ihc hc hin
      · next hname =>
        have hbehind : (base ++ name' :: path, some content) ∈ rest.entriesFrom base :=
          (List.mem_append (s := _ :: _).mp hf).resolve_left
            (not_mem_other_dir children base path content hname)
        exact mem_erased_behind_dir hname (ihr hr hbehind)
  | file name content' rest ih =>
    obtain ⟨hn, hr⟩ := h
    rw [eraseFile_file]
    split
    · next hpath =>
      subst hpath
      rcases List.mem_cons.mp hf with hf | hf
      · cases hf
        exact mem_erased_first hn
      · exact absurd (entriesFrom_name hf) hn
    · next hpath =>
      have hbehind : (base ++ path, some content) ∈ rest.entriesFrom base := by
        refine (List.mem_cons.mp hf).resolve_left fun hm => hpath ?_
        rw [Prod.mk.injEq, List.append_cancel_left_eq] at hm
        exact hm.1
      exact mem_erased_behind_file hpath (ih hr hbehind)
  | other name rest ih =>
    rw [eraseFile_other]
    exact ih h.2 hf

theorem without_names (paths : List Path) (base : Path) (forest : Forest β) :
    (forest.without paths base).names ⊆ forest.names := by
  induction forest generalizing base with
  | nil => exact List.Subset.refl _
  | dir name children rest ihc ihr =>
    rw [Forest.without]
    split
    · exact List.Subset.trans (ihr base) (List.subset_cons_self _ _)
    · exact List.cons_subset_cons _ (ihr base)
  | file name content rest ih =>
    rw [Forest.without]
    split
    · exact List.Subset.trans (ih base) (List.subset_cons_self _ _)
    · exact List.cons_subset_cons _ (ih base)
  | other name rest ih => exact List.cons_subset_cons _ (ih base)

theorem without_distinct {forest : Forest β} (h : forest.Distinct) (paths : List Path)
    (base : Path) : (forest.without paths base).Distinct := by
  induction forest generalizing base with
  | nil => exact h
  | dir name children rest ihc ihr =>
    obtain ⟨hn, hc, hr⟩ := h
    rw [Forest.without]
    split
    · exact ihr hr base
    · exact ⟨fun hm => hn (without_names _ _ _ hm), ihc hc _, ihr hr base⟩
  | file name content rest ih =>
    obtain ⟨hn, hr⟩ := h
    rw [Forest.without]
    split
    · exact ih hr base
    · exact ⟨fun hm => hn (without_names _ _ _ hm), ih hr base⟩
  | other name rest ih =>
    obtain ⟨hn, hr⟩ := h
    exact ⟨fun hm => hn (without_names _ _ _ hm), ih hr base⟩

theorem without_entries (paths : List Path) (base : Path) (forest : Forest β) :
    (forest.without paths base).entriesFrom base ⊆ forest.entriesFrom base := by
  induction forest generalizing base with
  | nil => exact List.Subset.refl _
  | dir name children rest ihc ihr =>
    rw [Forest.without]
    split
    · intro x hx
      exact List.mem_cons_of_mem _ (List.mem_append_right _ (ihr base hx))
    · intro x hx
      rcases List.mem_cons.mp hx with rfl | hx
      · exact List.mem_cons_self
      · rcases List.mem_append.mp hx with hx | hx
        · exact List.mem_cons_of_mem _ (List.mem_append_left _ (ihc _ hx))
        · exact List.mem_cons_of_mem _ (List.mem_append_right _ (ihr base hx))
  | file name content rest ih =>
    rw [Forest.without]
    split
    · exact List.Subset.trans (ih base) (List.subset_cons_self _ _)
    · exact List.cons_subset_cons _ (ih base)
  | other name rest ih => exact ih base

end Entries

section Writes
variable {α : Type} [DecidableEq α]

def puts (writes : List (α × β)) (files : α → Option β) : α → Option β :=
  writes.foldl (fun files w => Function.update files w.1 (some w.2)) files

@[simp] theorem puts_nil (files : α → Option β) : puts [] files = files := rfl

theorem puts_cons (w : α × β) (writes : List (α × β)) (files : α → Option β) :
    puts (w :: writes) files = puts writes (Function.update files w.1 (some w.2)) := rfl

theorem puts_append (l m : List (α × β)) (files : α → Option β) :
    puts (l ++ m) files = puts m (puts l files) := List.foldl_append

theorem puts_of_not_mem {writes : List (α × β)} {files : α → Option β} {p : α}
    (h : p ∉ writes.map Prod.fst) : puts writes files p = files p := by
  induction writes generalizing files with
  | nil => rfl
  | cons w writes ih =>
    rw [List.map_cons, List.mem_cons, not_or] at h
    rw [puts_cons, ih h.2, Function.update_of_ne h.1]

theorem puts_congr {writes : List (α × β)} {files files' : α → Option β} {p : α}
    (h : files p = files' p) : puts writes files p = puts writes files' p := by
  induction writes generalizing files files' with
  | nil => exact h
  | cons w writes ih =>
    rw [puts_cons, puts_cons]
    refine ih ?_
    by_cases hp : p = w.1
    · rw [hp, Function.update_self, Function.update_self]
    · rw [Function.update_of_ne hp, Function.update_of_ne hp, h]

/-- Writes to distinct paths are all there afterwards. -/
theorem puts_eq_some_iff {writes : List (α × β)} {files : α → Option β} {p : α} {content : β}
    (h : (writes.map Prod.fst).Nodup) (hp : files p = none) :
    puts writes files p = some content ↔ (p, content) ∈ writes := by
  induction writes generalizing files with
  | nil => simp [hp]
  | cons w writes ih =>
    obtain ⟨hw, hn⟩ := List.nodup_cons.mp h
    rw [puts_cons, List.mem_cons]
    by_cases he : p = w.1
    · subst he
      rw [puts_of_not_mem hw, Function.update_self]
      constructor
      · intro hc
        exact Or.inl (Prod.ext rfl (Option.some.inj hc).symm)
      · rintro (hc | hc)
        · rw [← hc]
        · exact absurd (List.mem_map_of_mem hc) hw
    · rw [ih hn (by rw [Function.update_of_ne he, hp])]
      constructor
      · exact Or.inr
      · rintro (hc | hc)
        · exact absurd (congrArg Prod.fst hc) he
        · exact hc

end Writes

end FileTrees
