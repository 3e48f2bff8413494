import Rollio.DatasetResume
import Mathlib.Data.Set.Card

/-! Which indices a resumed session may use: the probe's hint against the episodes that the
directory names. -/
namespace ResumedNumbering
open RuntimeConfig Clocks DatasetResume

section Maximum
variable {l : List UInt32}

theorem foldl_maxIndex_some (b : UInt32) : ∃ m, l.foldl maxIndex (some b) = some m ∧
    b.toNat ≤ m.toNat ∧ ∀ i ∈ l, i.toNat ≤ m.toNat := by
  induction l generalizing b with
  | nil => exact ⟨b, rfl, le_refl _, fun i hi => absurd hi List.not_mem_nil⟩
  | cons a l ih =>
    obtain ⟨m, hm, hb, hl⟩ := ih (max b a)
    rw [UInt32.toNat_max] at hb
    refine ⟨m, hm, by omega, ?_⟩
    intro i hi
    rcases List.mem_cons.mp hi with rfl | hi
    · omega
    · exact hl i hi

theorem foldl_maxIndex (best : Option UInt32) :
    (best = none ∧ l = [] ∧ l.foldl maxIndex best = none) ∨
      ∃ m, l.foldl maxIndex best = some m ∧ (∀ b ∈ best, b.toNat ≤ m.toNat) ∧
        ∀ i ∈ l, i.toNat ≤ m.toNat := by
  cases best with
  | some b =>
    obtain ⟨m, hm, hb, hl⟩ := @foldl_maxIndex_some l b
    refine Or.inr ⟨m, hm, ?_, hl⟩
    intro b' hb'
    exact Option.some.inj hb' ▸ hb
  | none =>
    cases l with
    | nil => exact Or.inl ⟨rfl, rfl, rfl⟩
    | cons a l =>
      obtain ⟨m, hm, ha, hl⟩ := @foldl_maxIndex_some l a
      refine Or.inr ⟨m, hm, fun b hb => absurd hb (Option.not_mem_none b), ?_⟩
      intro i hi
      rcases List.mem_cons.mp hi with rfl | hi
      · exact ha
      · exact hl i hi

end Maximum

section Lines

def lineIndex? : JsonlLine → Option UInt32
  | .record (some n) => some (clampIndex n)
  | _ => none

theorem foldl_saturatingSucc (l : List UInt32) (c : UInt32) :
    (l.foldl (fun c _ => saturatingSucc c) c).toNat = min (c.toNat + l.length) u32Max.toNat := by
  have hmax : u32Max.toNat = 4294967295 := rfl
  induction l generalizing c with
  | nil =>
    have hlt := c.toNat_lt
    rw [List.foldl_nil, List.length_nil, hmax]
    omega
  | cons a l ih =>
    rw [List.foldl_cons, ih, toNat_saturatingSucc, List.length_cons]
    omega

theorem foldl_lines (lines : List JsonlLine) (best count : Option UInt32) :
    lines.foldl (fun acc line =>
      match line with
      | .record (some n) => (maxIndex acc.1 (clampIndex n), acc.2.map saturatingSucc)
      | _ => acc) (best, count) =
    ((lines.filterMap lineIndex?).foldl maxIndex best,
      count.map fun c => (lines.filterMap lineIndex?).foldl (fun c _ => saturatingSucc c) c) := by
  induction lines generalizing best count with
  | nil => cases count <;> rfl
  | cons line lines ih =>
    rw [List.foldl_cons, ih, List.filterMap_cons]
    cases line with
    | blank | invalid => rfl
    | record n =>
      cases n with
      | none => rfl
      | some n => cases count <;> rfl

theorem scan_lines (lines : List JsonlLine) : maxEpisodeAndLineCountFromJsonl (some lines) =
    ((lines.filterMap lineIndex?).foldl maxIndex none,
      some ((lines.filterMap lineIndex?).foldl (fun c _ => saturatingSucc c) 0)) :=
  foldl_lines lines none (some 0)

end Lines

section Names

def NamesEpisode (name : String) (n : ℕ) : Prop :=
  ∃ plus digits : List Char, (plus = [] ∨ plus = ['+']) ∧ digits ≠ [] ∧
    (∀ c ∈ digits, c.isDigit = true) ∧ Nat.ofDigitChars 10 digits 0 = n ∧
    name.toList = "episode_".toList ++ (plus ++ digits) ++ ".parquet".toList

def parseDigits (digits : List Char) : Option UInt32 :=
  if digits.isEmpty || !digits.all Char.isDigit then none
  else if Nat.ofDigitChars 10 digits 0 < 2 ^ 32 then
    some (UInt32.ofNat (Nat.ofDigitChars 10 digits 0))
  else none

theorem parseU32_plain {text : List Char} (h : text.head? ≠ some '+') :
    parseU32 text = parseDigits text := by
  cases text with
  | nil => rfl
  | cons c rest =>
    have hc : c ≠ '+' := fun hc => h (congrArg some hc)
    unfold parseU32 parseDigits
    split
    · next heq => exact absurd (List.cons.inj heq).1 hc
    · rfl

theorem parseDigits_eq_some_iff {digits : List Char} {i : UInt32} :
    parseDigits digits = some i ↔ digits ≠ [] ∧ (∀ c ∈ digits, c.isDigit = true) ∧
      Nat.ofDigitChars 10 digits 0 = i.toNat := by
  unfold parseDigits
  by_cases hbad : digits.isEmpty || !digits.all Char.isDigit
  · rw [if_pos hbad]
    constructor
    · intro h
      cases h
    · rintro ⟨hne, hall, -⟩
      have hgood : digits.all Char.isDigit = true := List.all_eq_true.mpr hall
      rw [hgood, Bool.not_true, Bool.or_false, List.isEmpty_iff] at hbad
      exact absurd hbad hne
  · rw [if_neg hbad]
    simp only [Bool.or_eq_true, List.isEmpty_iff, Bool.not_eq_true', not_or,
      Bool.not_eq_false, List.all_eq_true] at hbad
    by_cases hlt : Nat.ofDigitChars 10 digits 0 < 2 ^ 32
    · rw [if_pos hlt, Option.some.injEq]
      constructor
      · rintro rfl
        exact ⟨hbad.1, hbad.2, (UInt32.toNat_ofNat_of_lt' hlt).symm⟩
      · rintro ⟨-, -, hv⟩
        rw [hv, UInt32.ofNat_toNat]
    · rw [if_neg hlt]
      constructor
      · intro h
        cases h
      · rintro ⟨-, -, hv⟩
        exact absurd (hv ▸ i.toNat_lt) hlt

/-- `str::parse` in terms of the numeral it reads. -/
theorem parseU32_eq_some_iff {text : List Char} {i : UInt32} : parseU32 text = some i ↔
    ∃ plus digits : List Char, (plus = [] ∨ plus = ['+']) ∧ digits ≠ [] ∧
      (∀ c ∈ digits, c.isDigit = true) ∧ Nat.ofDigitChars 10 digits 0 = i.toNat ∧
      text = plus ++ digits := by
  constructor
  · intro h
    by_cases hplus : text.head? = some '+'
    · obtain ⟨rest, rfl⟩ := List.head?_eq_some_iff.mp hplus
      have hparse : parseDigits rest = some i := h
      obtain ⟨hne, hall, hv⟩ := parseDigits_eq_some_iff.mp hparse
      exact ⟨['+'], rest, Or.inr rfl, hne, hall, hv, rfl⟩
    · rw [parseU32_plain hplus] at h
      obtain ⟨hne, hall, hv⟩ := parseDigits_eq_some_iff.mp h
      exact ⟨[], text, Or.inl rfl, hne, hall, hv, rfl⟩
  · rintro ⟨plus, digits, hplus, hne, hall, hv, htext⟩
    rcases hplus with rfl | rfl
    · have hhead : digits.head? ≠ some '+' := by
        intro hhead
        obtain ⟨rest, rfl⟩ := List.head?_eq_some_iff.mp hhead
        exact absurd (hall '+' List.mem_cons_self) (by decide)
      rw [htext, List.nil_append, parseU32_plain hhead]
      exact parseDigits_eq_some_iff.mpr ⟨hne, hall, hv⟩
    · rw [htext]
      exact parseDigits_eq_some_iff.mpr ⟨hne, hall, hv⟩

/-- The names the probe takes an index from are the names of row tables, below 2^32. -/
theorem parseEpisodeParquetName_eq_some_iff {name : String} {i : UInt32} :
    parseEpisodeParquetName name = some i ↔ NamesEpisode name i.toNat := by
  unfold parseEpisodeParquetName NamesEpisode
  simp only [Option.bind_eq_bind, Option.bind_eq_some_iff, List.isPrefixOf?_eq_some_iff_append_eq,
    List.isSuffixOf?_eq_some_iff_append_eq, parseU32_eq_some_iff]
  constructor
  · rintro ⟨rest, hrest, num, hnum, plus, digits, hplus, hne, hall, hv, rfl⟩
    exact ⟨plus, digits, hplus, hne, hall, hv, by
      simp only [← hrest, ← hnum, List.append_assoc]⟩
  · rintro ⟨plus, digits, hplus, hne, hall, hv, hname⟩
    refine ⟨plus ++ digits ++ ".parquet".toList, ?_, plus ++ digits, rfl,
      plus, digits, hplus, hne, hall, hv, rfl⟩
    simp only [hname, List.append_assoc]

end Names

section Hints
variable {dataset : DatasetDir}

/-- Some line of `episodes.jsonl` records index `n`. -/
def Recorded (dataset : DatasetDir) (n : Int) : Prop :=
  ∃ lines ∈ dataset.episodesJsonl, JsonlLine.record (some n) ∈ lines

/-- Some file below `data/` is named for episode `n`. -/
def Filed (dataset : DatasetDir) (n : ℕ) : Prop :=
  ∃ chunk ∈ dataset.dataChunks, ∃ name ∈ chunk, NamesEpisode name n

/-- Every index that the directory names is below `u32::MAX`. -/
structure Representable (dataset : DatasetDir) : Prop where
  recorded : ∀ n, Recorded dataset n → n < u32Max.toNat
  filed : ∀ n, Filed dataset n → n < u32Max.toNat

/-- The records with an index where there is an `episodes.jsonl`, else the distinct indices of
the row tables: never the two together. -/
noncomputable def storedEpisodes (dataset : DatasetDir) : ℕ :=
  match dataset.episodesJsonl with
  | some lines => lines.countP fun line => (lineIndex? line).isSome
  | none => Set.ncard {n | Filed dataset n}

def seenIndices (dataset : DatasetDir) : List UInt32 :=
  (dataset.dataChunks.flatten.filterMap parseEpisodeParquetName).dedup

theorem mem_seenIndices {i : UInt32} : i ∈ seenIndices dataset ↔ Filed dataset i.toNat := by
  unfold seenIndices Filed
  simp only [List.mem_dedup, List.mem_filterMap, List.mem_flatten,
    parseEpisodeParquetName_eq_some_iff]
  constructor
  · rintro ⟨name, ⟨chunk, hchunk, hname⟩, hn⟩
    exact ⟨chunk, hchunk, name, hname, hn⟩
  · rintro ⟨chunk, hchunk, name, hname, hn⟩
    exact ⟨name, ⟨chunk, hchunk, hname⟩, hn⟩

theorem seen_of_filed (h : Representable dataset) {n : ℕ} (hn : Filed dataset n) :
    ∃ i ∈ seenIndices dataset, i.toNat = n := by
  have hmax : u32Max.toNat = 4294967295 := rfl
  have hlt := h.filed n hn
  have hi : (UInt32.ofNat n).toNat = n := UInt32.toNat_ofNat_of_lt' (by
    show n < 4294967296
    omega)
  exact ⟨UInt32.ofNat n, mem_seenIndices.mpr (hi.symm ▸ hn), hi⟩

/-- The scan counts every episode that has a row table, once. -/
theorem length_seenIndices (h : Representable dataset) :
    (seenIndices dataset).length = Set.ncard {n | Filed dataset n} := by
  have hset : {n | Filed dataset n} =
      (((seenIndices dataset).map UInt32.toNat).toFinset : Set ℕ) := by
    ext n
    simp only [Set.mem_ofPred_eq, List.coe_toFinset, List.mem_map]
    constructor
    · exact seen_of_filed h
    · rintro ⟨i, hi, rfl⟩
      exact mem_seenIndices.mp hi
  have hnodup : ((seenIndices dataset).map UInt32.toNat).Nodup :=
    (List.nodup_dedup _).map fun _ _ => UInt32.toNat_inj.mp
  rw [hset, Set.ncard_coe_finset, List.toFinset_card_of_nodup hnodup, List.length_map]

theorem le_clampIndex {n : Int} (h : n < u32Max.toNat) : n ≤ (clampIndex n).toNat := by
  have hmax : u32Max.toNat = 4294967295 := rfl
  unfold clampIndex
  by_cases hn : 0 ≤ n ∧ n < 2 ^ 32
  · rw [if_pos hn, UInt32.toNat_ofNat_of_lt' (by
      show n.toNat < 4294967296
      omega)]
    omega
  · rw [if_neg hn]
    omega

def recordedIndices (dataset : DatasetDir) : List UInt32 :=
  (dataset.episodesJsonl.getD []).filterMap lineIndex?

theorem mem_recordedIndices {n : Int} (h : Recorded dataset n) :
    clampIndex n ∈ recordedIndices dataset := by
  obtain ⟨lines, hlines, hn⟩ := h
  have hfile : dataset.episodesJsonl = some lines := hlines
  unfold recordedIndices
  rw [hfile, Option.getD_some, List.mem_filterMap]
  exact ⟨.record (some n), hn, rfl⟩

theorem recorded_max : (maxEpisodeAndLineCountFromJsonl dataset.episodesJsonl).1 =
    (recordedIndices dataset).foldl maxIndex none := by
  unfold recordedIndices
  cases dataset.episodesJsonl with
  | none => rfl
  | some lines =>
    rw [scan_lines]
    rfl

/-- The prior count of a hint: the parquet scan's only where there is no `episodes.jsonl`. -/
def priorCount (dataset : DatasetDir) : UInt32 :=
  (maxEpisodeAndLineCountFromJsonl dataset.episodesJsonl).2.getD
    (scanDataParquetEpisodes dataset.dataChunks).2

theorem toNat_priorCount (h : Representable dataset) :
    (priorCount dataset).toNat = min (storedEpisodes dataset) u32Max.toNat := by
  have hmax : u32Max.toNat = 4294967295 := rfl
  unfold priorCount storedEpisodes
  cases dataset.episodesJsonl with
  | some lines =>
    rw [scan_lines, Option.getD_some, foldl_saturatingSucc, List.length_filterMap_eq_countP]
    show min (0 + _) _ = _
    rw [Nat.zero_add]
  | none =>
    show (if (seenIndices dataset).length < 2 ^ 32
      then UInt32.ofNat (seenIndices dataset).length else u32Max).toNat =
        min (Set.ncard {n | Filed dataset n}) u32Max.toNat
    rw [← length_seenIndices h]
    by_cases hlt : (seenIndices dataset).length < 2 ^ 32
    · rw [if_pos hlt, UInt32.toNat_ofNat_of_lt' hlt]
      have hle : (seenIndices dataset).length < 4294967296 := hlt
      omega
    · rw [if_neg hlt]
      have hge : ¬ (seenIndices dataset).length < 4294967296 := hlt
      omega

/-- The larger of the two scans' maxima decides; a source that names nothing does not count. -/
theorem lerobotResumeHint_eq {r s : Option UInt32}
    (hr : (recordedIndices dataset).foldl maxIndex none = r)
    (hs : (seenIndices dataset).foldl maxIndex none = s) :
    lerobotResumeHintIfEpisodesExist dataset = (s.elim r (maxIndex r)).map
      fun maxIdx => ⟨saturatingSucc maxIdx, priorCount dataset⟩ := by
  have hjsonl : maxEpisodeAndLineCountFromJsonl dataset.episodesJsonl =
      (r, (maxEpisodeAndLineCountFromJsonl dataset.episodesJsonl).2) :=
    Prod.ext (recorded_max.trans hr) rfl
  have hscan : scanDataParquetEpisodes dataset.dataChunks =
      (s, (scanDataParquetEpisodes dataset.dataChunks).2) := Prod.ext hs rfl
  unfold lerobotResumeHintIfEpisodesExist priorCount
  rw [hjsonl, hscan]
  cases s <;> rfl

/-- A hint is one past an index that both scans stay below; there is none only where neither
has seen an index. -/
theorem lerobotResumeHint_cases (dataset : DatasetDir) :
    (lerobotResumeHintIfEpisodesExist dataset = none ∧
      recordedIndices dataset = [] ∧ seenIndices dataset = []) ∨
    ∃ maxIdx, lerobotResumeHintIfEpisodesExist dataset =
        some ⟨saturatingSucc maxIdx, priorCount dataset⟩ ∧
      (∀ i ∈ recordedIndices dataset, i.toNat ≤ maxIdx.toNat) ∧
      ∀ i ∈ seenIndices dataset, i.toNat ≤ maxIdx.toNat := by
  rcases @foldl_maxIndex (recordedIndices dataset) none with
    ⟨-, hrecorded, hr⟩ | ⟨r, hr, -, hrle⟩ <;>
  rcases @foldl_maxIndex (seenIndices dataset) none with ⟨-, hseen, hs⟩ | ⟨s, hs, -, hsle⟩ <;>
  rw [lerobotResumeHint_eq hr hs]
  · exact Or.inl ⟨rfl, hrecorded, hseen⟩
  · refine Or.inr ⟨s, rfl, ?_, hsle⟩
    rw [hrecorded]
    exact fun i hi => absurd hi List.not_mem_nil
  · refine Or.inr ⟨r, rfl, hrle, ?_⟩
    rw [hseen]
    exact fun i hi => absurd hi List.not_mem_nil
  · have hmax : (max r s).toNat = max r.toNat s.toNat := UInt32.toNat_max r s
    refine Or.inr ⟨max r s, rfl, ?_, ?_⟩
    · intro i hi
      have hle := hrle i hi
      omega
    · intro i hi
      have hle := hsle i hi
      omega

/-- A hint numbers the next episode past every index the directory names; no hint means that
it names none. -/
def ResumesPast (dataset : DatasetDir) : Option DatasetResumeHint → Prop
  | none => (∀ n, ¬ Recorded dataset n) ∧ ∀ n, ¬ Filed dataset n
  | some hint =>
    (∀ n, Recorded dataset n → n < hint.nextEpisodeIndex.toNat) ∧
    (∀ n, Filed dataset n → n < hint.nextEpisodeIndex.toNat) ∧
    hint.priorStoredEpisodeCount.toNat = min (storedEpisodes dataset) u32Max.toNat

theorem lerobotResumeHint_resumes (h : Representable dataset) :
    ResumesPast dataset (lerobotResumeHintIfEpisodesExist dataset) := by
  rcases lerobotResumeHint_cases dataset with ⟨hhint, hr, hs⟩ | ⟨maxIdx, hhint, hr, hs⟩ <;>
  rw [hhint]
  · constructor
    · intro n hn
      exact absurd (hr ▸ mem_recordedIndices hn) List.not_mem_nil
    · intro n hn
      obtain ⟨i, hi, -⟩ := seen_of_filed h hn
      exact absurd (hs ▸ hi) List.not_mem_nil
  · have hnext := toNat_saturatingSucc maxIdx
    refine ⟨?_, ?_, toNat_priorCount h⟩
    · intro n hn
      have hlt := h.recorded n hn
      have hclamp := le_clampIndex hlt
      have hle := hr _ (mem_recordedIndices hn)
      show n < (saturatingSucc maxIdx).toNat
      omega
    · intro n hn
      have hlt := h.filed n hn
      obtain ⟨i, hi, rfl⟩ := seen_of_filed h hn
      have hle := hs i hi
      show i.toNat < (saturatingSucc maxIdx).toNat
      omega

/-- A resumed session never takes an index that a line of `episodes.jsonl` or a row table
already has. The prior count is one source's, not that of the indices in either. -/
theorem resume_reuses_no_index {config : ProjectConfig} {invocationCwd currentToml root : String}
    {readDir : String → Option DatasetDir} {resume : Option DatasetResumeHint}
    (hformat : config.format ≠ .mcap)
    (hroot : resolveStorageRoot config invocationCwd = some root)
    (hdir : readDir root = some dataset) (hindices : Representable dataset)
    (hprobe : probeResume config invocationCwd currentToml readDir = .ok resume) :
    ResumesPast dataset resume := by
  have hhint := lerobotResumeHint_resumes hindices
  unfold probeResume at hprobe
  simp only [hroot, hdir] at hprobe
  have hresume : lerobotResumeHintIfEpisodesExist dataset = resume := by
    cases hc : config.format with
    | mcap => exact absurd hc hformat
    | leRobotV21 | leRobotV30 =>
      simp only [hc] at hprobe
      cases hl : lerobotResumeHintIfEpisodesExist dataset with
      | none =>
        rw [hl] at hprobe
        exact Except.ok.inj hprobe
      | some hint =>
        rw [hl] at hprobe
        cases ht : dataset.embeddedConfigToml with
        | none =>
          rw [ht] at hprobe
          cases hprobe
        | some storedToml =>
          simp only [ht] at hprobe
          split at hprobe
          · cases hprobe
          · split at hprobe
            · cases hprobe
            · exact Except.ok.inj hprobe
  rw [← hresume]
  exact hhint

end Hints

section Tested

def testDataset : DatasetDir :=
  ⟨some [.record (some 0), .record (some 2)], [["episode_000004.parquet"]], some "fps = 30\n"⟩

def testConfig : ProjectConfig := ⟨.leRobotV21, some "/data"⟩

theorem testConfig_root : ∃ root, resolveStorageRoot testConfig "/" = some root := by
  have hpath : testConfig.outputPath = some "/data" := rfl
  have hblank : Text.blank "/data" = false := by decide
  unfold resolveStorageRoot
  simp only [hpath, hblank, Bool.false_eq_true, if_false]
  split
  · exact ⟨_, rfl⟩
  · exact ⟨_, rfl⟩

theorem probe_testDataset : probeResume testConfig "/" "fps = 30\n" (fun _ => some testDataset) =
    .ok (some ⟨5, 2⟩) := by
  obtain ⟨root, hroot⟩ := testConfig_root
  have hhint : lerobotResumeHintIfEpisodesExist testDataset = some ⟨5, 2⟩ := by decide
  have hmatch : embeddedConfigsMatch "fps = 30\n" "fps = 30\n" = true := beq_self_eq_true _
  have hblank : Text.blank "fps = 30\n" = false := by decide
  have hformat : testConfig.format = .leRobotV21 := rfl
  have htoml : testDataset.embeddedConfigToml = some "fps = 30\n" := rfl
  unfold probeResume
  simp only [hroot, hhint, hformat, htoml, hblank, hmatch, Bool.not_true, Bool.false_eq_true,
    if_false]

theorem testDataset_recorded {n : Int} : Recorded testDataset n ↔ n = 0 ∨ n = 2 := by
  constructor
  · rintro ⟨lines, hlines, hn⟩
    rw [← Option.some.inj hlines] at hn
    simpa using hn
  · intro hn
    refine ⟨_, rfl, ?_⟩
    rcases hn with rfl | rfl <;> decide

theorem testDataset_filed {n : ℕ} : Filed testDataset n ↔ n = 4 := by
  constructor
  · rintro ⟨chunk, hchunk, name, hname, plus, digits, hplus, -, hall, rfl, hchars⟩
    rw [List.mem_singleton.mp hchunk] at hname
    rw [List.mem_singleton.mp hname] at hchars
    have hnum : "000004".toList = plus ++ digits :=
      @List.append_cancel_left Char "episode_".toList _ _ (List.append_cancel_right hchars)
    rcases hplus with rfl | rfl
    · rw [← List.nil_append digits, ← hnum]
      decide
    · exact absurd (List.cons.inj hnum).1 (by decide)
  · rintro rfl
    exact ⟨_, List.mem_singleton.mpr rfl, _, List.mem_singleton.mpr rfl,
      parseEpisodeParquetName_eq_some_iff (i := 4) |>.mp (by decide)⟩

theorem testDataset_representable : Representable testDataset where
  recorded n hn := by
    have hmax : u32Max.toNat = 4294967295 := rfl
    rcases testDataset_recorded.mp hn with rfl | rfl <;> omega
  filed n hn := by
    rw [testDataset_filed.mp hn]
    decide

theorem resume_testDataset : ResumesPast testDataset (some ⟨5, 2⟩) := by
  obtain ⟨root, hroot⟩ := testConfig_root
  exact resume_reuses_no_index (by decide) hroot rfl testDataset_representable probe_testDataset

def presentIndices (dataset : DatasetDir) : Set Int :=
  {n | Recorded dataset n ∨ ∃ m, Filed dataset m ∧ n = m}

theorem prior_count_not_distinct :
    probeResume testConfig "/" "fps = 30\n" (fun _ => some testDataset) = .ok (some ⟨5, 2⟩) ∧
      Representable testDataset ∧ (2 : UInt32).toNat ≠ (presentIndices testDataset).ncard := by
  refine ⟨probe_testDataset, testDataset_representable, ?_⟩
  have hset : presentIndices testDataset = (({0, 2, 4} : Finset Int) : Set Int) := by
    ext n
    simp only [presentIndices, Set.mem_ofPred_eq, testDataset_recorded, testDataset_filed,
      exists_eq_left, Finset.mem_coe, Finset.mem_insert, Finset.mem_singleton, or_assoc,
      Nat.cast_ofNat]
  rw [hset, Set.ncard_coe_finset]
  decide

end Tested

end ResumedNumbering
