import Rollio.LerobotDataset
import Rollio.OrderedTables
import Rollio.SampledTimelines

/-! The row table of a staged episode: evenly spaced row times, and beside each of them what the
robots' samples show at that time. -/
namespace EpisodeRows
open RuntimeConfig LerobotDataset OrderedTables SampledTimelines Std

/-- Times and durations of rows are exact. No vector is long enough for the number of a row to
leave the range of its column. -/
structure LeRobotRows where
  timestampsS : List ℚ
  frameIndices : List ℤ
  episodeIndices : List ℤ
  globalIndices : List ℤ
  taskIndices : List ℤ
  doneFlags : List Bool
  observationColumns : TreeMap String (List (List Float))
  actionRows : List (List Float)

/-- `round() as u64`, which ends at the largest number. -/
def roundAsU64 (x : ℚ) : ℕ := min (nearest x) (UInt64.size - 1)

def canonicalFrameTimestamps (controllerStartUs controllerStopUs : UInt64) (fps : UInt32) :
    List UInt64 :=
  let fps := max fps.toNat 1
  let durationUs := controllerStopUs.toNat - controllerStartUs.toNat
  let rowCount := roundAsU64 ((durationUs : ℚ) / 1000000 * fps)
  let rowCount := if rowCount = 0 then 1 else rowCount
  let stepUs : ℚ := 1000000 / fps
  (List.range rowCount).map fun (index : ℕ) =>
    controllerStartUs + UInt64.ofNat (roundAsU64 ((index : ℚ) * stepUs))

/-- Zeros are overwritten by the values that have a place. -/
def resizeValues (values : List Float) (width : ℕ) : List Float :=
  (values.take width).zipIdx.foldl (fun resized (value, index) => resized.set index value)
    (List.replicate width 0)

def valuesAt {σ : Type} (time : σ → UInt64) (values : σ → List Float) (samples : List σ)
    (timestampUs : UInt64) (width : ℕ) : List Float :=
  match samples with
  | [] => List.replicate width 0
  | first :: rest =>
    let selected := scan (fun s => (time s).toNat) timestampUs.toNat first (first :: rest)
    resizeValues (values selected) width

def observationValuesAt : List ObservationSample → UInt64 → ℕ → List Float :=
  valuesAt ObservationSample.timestampUs ObservationSample.values

def actionValuesAt : List ActionSample → UInt64 → ℕ → List Float :=
  valuesAt ActionSample.timestampUs ActionSample.values

def observationSamplesOf (episode : EpisodeAssemblyInput)
    (observation : AssemblerObservationRuntimeConfigV2) : List ObservationSample :=
  episode.observationSamples.getD (observationKey observation.channelId observation.stateKind) []

def actionSamplesOf (episode : EpisodeAssemblyInput) (action : AssemblerActionRuntimeConfigV2) :
    List ActionSample :=
  episode.actionSamples.getD (actionKey action.channelId action.commandKind) []

def buildEpisodeRows (config : AssemblerRuntimeConfigV2) (episode : EpisodeAssemblyInput) :
    LeRobotRows :=
  let frameTimestampsUs :=
    canonicalFrameTimestamps episode.startTimeUs episode.stopTimeUs config.fps
  let rowCount := frameTimestampsUs.length
  let frameIndices := (List.range rowCount).map fun (index : ℕ) => (index : ℤ)
  { timestampsS := (List.range rowCount).map fun (i : ℕ) => (i : ℚ) / config.fps.toNat
    frameIndices
    episodeIndices := List.replicate rowCount episode.episodeIndex.toNat
    globalIndices :=
      frameIndices.map fun index => (episode.episodeIndex.toNat : ℤ) * 1000000 + index
    taskIndices := List.replicate rowCount 0
    doneFlags := (List.range rowCount).map fun index => index + 1 == rowCount
    observationColumns := config.observations.foldl (fun columns observation =>
      columns.insert (observationKey observation.channelId observation.stateKind)
        (frameTimestampsUs.map fun timestampUs =>
          observationValuesAt (observationSamplesOf episode observation) timestampUs
            observation.valueLen.toNat)) ∅
    actionRows := frameTimestampsUs.map fun timestampUs => config.actions.flatMap fun action =>
      actionValuesAt (actionSamplesOf episode action) timestampUs action.valueLen.toNat }

def padded (width : ℕ) (values : List Float) : List Float :=
  (List.range width).map fun i => values[i]?.getD 0

/-- A cell shows what is held of the samples at its row's time. -/
def Cell {σ : Type} (time : σ → UInt64) (values : σ → List Float) (samples : List σ)
    (width : ℕ) (timestampUs : UInt64) (cell : List Float) : Prop :=
  ∃ held, Held (fun s => (time s).toNat) timestampUs.toNat samples held ∧
    cell = padded width (held.elim [] values)

structure Timeline (startTimeUs stopTimeUs : UInt64) (times : List UInt64) : Prop where
  nonempty : times ≠ []
  increasing : times.Pairwise (· < ·)
  first : times.head? = some startTimeUs
  within : ∀ t ∈ times, t ≤ stopTimeUs

/-- Every column has a value for each row. -/
structure SameLength (n : ℕ) (rows : LeRobotRows) : Prop where
  timestampsS : rows.timestampsS.length = n
  frameIndices : rows.frameIndices.length = n
  episodeIndices : rows.episodeIndices.length = n
  globalIndices : rows.globalIndices.length = n
  taskIndices : rows.taskIndices.length = n
  doneFlags : rows.doneFlags.length = n
  observationColumns : ∀ (key : String) (column : List (List Float)),
    rows.observationColumns[key]? = some column → column.length = n
  actionRows : rows.actionRows.length = n

/-- The table of an episode with its row times. Observations that share a key share a column. -/
structure Resampled (config : AssemblerRuntimeConfigV2) (episode : EpisodeAssemblyInput)
    (times : List UInt64) (rows : LeRobotRows) : Prop where
  timeline : Timeline episode.startTimeUs episode.stopTimeUs times
  sameLength : SameLength times.length rows
  columns : ∀ observation ∈ config.observations,
    (rows.observationColumns[observationKey observation.channelId
      observation.stateKind]?).isSome = true
  observations : ∀ (key : String) (column : List (List Float)),
    rows.observationColumns[key]? = some column →
      ∃ observation ∈ config.observations,
        observationKey observation.channelId observation.stateKind = key ∧
        List.Forall₂ (Cell ObservationSample.timestampUs ObservationSample.values
          (observationSamplesOf episode observation) observation.valueLen.toNat) times column
  actions : List.Forall₂ (fun t row => ∃ cells, row = cells.flatten ∧
    List.Forall₂ (fun action => Cell ActionSample.timestampUs ActionSample.values
      (actionSamplesOf episode action) action.valueLen.toNat t) config.actions cells)
    times rows.actionRows
  done : ∀ i < times.length, rows.doneFlags[i]? = some (decide (i + 1 = times.length))

/-- Samples are in order of time. -/
structure SamplesInOrder (episode : EpisodeAssemblyInput) : Prop where
  observations : ∀ (key : String) (samples : List ObservationSample),
    episode.observationSamples[key]? = some samples →
      samples.Pairwise fun a b => a.timestampUs ≤ b.timestampUs
  actions : ∀ (key : String) (samples : List ActionSample),
    episode.actionSamples[key]? = some samples →
      samples.Pairwise fun a b => a.timestampUs ≤ b.timestampUs

section Cells

theorem foldl_set_getElem? {α : Type} (values row : List α) (n i : ℕ)
    (hfits : n + values.length ≤ row.length) :
    ((values.zipIdx n).foldl (fun resized (value, index) => resized.set index value) row)[i]? =
      if n ≤ i ∧ i < n + values.length then values[i - n]? else row[i]? := by
  induction values generalizing n row with
  | nil =>
    have hempty : ¬ (n ≤ i ∧ i < n + ([] : List α).length) := by
      rw [List.length_nil]
      omega
    rw [if_neg hempty]
    rfl
  | cons value values ih =>
    rw [List.length_cons] at hfits
    rw [List.zipIdx_cons, List.foldl_cons, ih _ (n + 1) (by rw [List.length_set]; omega),
      List.length_cons, List.getElem?_set]
    rcases Nat.lt_trichotomy i n with hi | rfl | hi
    · rw [if_neg (by omega), if_neg (by omega), if_neg (by omega)]
    · rw [if_neg (by omega), if_pos rfl, if_pos (by omega), if_pos (by omega), Nat.sub_self]
      rfl
    · have hsub : i - n = i - (n + 1) + 1 := by omega
      rw [hsub, List.getElem?_cons_succ]
      by_cases hin : i < n + (values.length + 1)
      · rw [if_pos (by omega), if_pos (by omega)]
      · rw [if_neg (by omega), if_neg (by omega), if_neg (by omega)]

theorem resizeValues_eq (values : List Float) (width : ℕ) :
    resizeValues values width = padded width values := by
  apply List.ext_getElem?
  intro i
  have hfits : 0 + (values.take width).length ≤ (List.replicate width (0 : Float)).length := by
    rw [List.length_replicate, List.length_take]
    omega
  rw [resizeValues, foldl_set_getElem? _ _ 0 i hfits, padded, List.getElem?_map, List.length_take]
  by_cases hi : i < width
  · rw [List.getElem?_range hi, Option.map_some]
    by_cases hv : i < values.length
    · rw [if_pos (by omega), Nat.sub_zero, List.getElem?_take_of_lt hi,
        List.getElem?_eq_getElem hv, Option.getD_some]
    · rw [if_neg (by omega), List.getElem?_replicate_of_lt hi,
        List.getElem?_eq_none (Nat.le_of_not_lt hv), Option.getD_none]
  · have hout : width ≤ i := Nat.le_of_not_lt hi
    rw [if_neg (by omega), List.getElem?_eq_none (by rw [List.length_replicate]; exact hout),
      List.getElem?_eq_none (by rw [List.length_range]; exact hout), Option.map_none]

theorem padded_nil (width : ℕ) : padded width [] = List.replicate width 0 := by
  rw [padded, List.eq_replicate_iff]
  refine ⟨by rw [List.length_map, List.length_range], fun value hvalue => ?_⟩
  obtain ⟨i, -, rfl⟩ := List.mem_map.mp hvalue
  rfl

/-- Samples in order make the cell that they should. -/
theorem cell_valuesAt {σ : Type} {time : σ → UInt64} {values : σ → List Float} {samples : List σ}
    (hsorted : samples.Pairwise fun a b => time a ≤ time b) (width : ℕ) (timestampUs : UInt64) :
    Cell time values samples width timestampUs (valuesAt time values samples timestampUs width) := by
  cases samples with
  | nil => exact ⟨none, .nothing, (padded_nil width).symm⟩
  | cons first rest =>
    have hnat : (first :: rest).Pairwise fun a b => (time a).toNat ≤ (time b).toNat :=
      hsorted.imp UInt64.le_iff_toNat_le.mp
    exact ⟨_, held_scan hnat, resizeValues_eq _ _⟩

end Cells

section Times

theorem canonicalFrameTimestamps_eq {fps : UInt32} (hfps : 1 ≤ fps.toNat)
    (startUs stopUs : UInt64) : ∃ rowCount, 0 < rowCount ∧
      canonicalFrameTimestamps startUs stopUs fps = (List.range rowCount).map (fun (index : ℕ) =>
        startUs + UInt64.ofNat (roundAsU64 ((index : ℚ) * (1000000 / fps.toNat)))) ∧
      ∀ i < rowCount, i = 0 ∨
        i < nearest (((stopUs.toNat - startUs.toNat : ℕ) : ℚ) / (1000000 / fps.toNat)) := by
  have hquotient (d : ℚ) : d / (1000000 / fps.toNat) = d / 1000000 * fps.toNat := by
    rw [div_div_eq_mul_div, div_mul_eq_mul_div]
  simp only [canonicalFrameTimestamps, max_eq_left hfps, hquotient]
  generalize (((stopUs.toNat - startUs.toNat : ℕ) : ℚ) / 1000000 * fps.toNat) = rows
  by_cases hzero : roundAsU64 rows = 0
  · rw [if_pos hzero]
    exact ⟨1, Nat.one_pos, rfl, fun i hi => Or.inl (Nat.lt_one_iff.mp hi)⟩
  · rw [if_neg hzero]
    refine ⟨_, Nat.pos_of_ne_zero hzero, rfl, fun i hi => Or.inr ?_⟩
    exact Nat.lt_of_lt_of_le hi (Nat.min_le_left _ _)

theorem timeline_canonical {startUs stopUs : UInt64} {fps : UInt32} (hlow : 1 ≤ fps.toNat)
    (hhigh : fps.toNat ≤ 1000000) (horder : startUs ≤ stopUs) :
    Timeline startUs stopUs (canonicalFrameTimestamps startUs stopUs fps) := by
  obtain ⟨rowCount, hpos, heq, hrows⟩ := canonicalFrameTimestamps_eq hlow startUs stopUs
  have hstop : startUs.toNat ≤ stopUs.toNat := UInt64.le_iff_toNat_le.mp horder
  have hsize : UInt64.size = 2 ^ 64 := rfl
  have hrange := stopUs.toNat_lt
  have hfps : (0 : ℚ) < fps.toNat := Nat.cast_pos.mpr hlow
  have hstep : (1 : ℚ) ≤ 1000000 / fps.toNat := by
    rw [le_div_iff₀ hfps, one_mul]
    exact_mod_cast hhigh
  -- the time from the first row to another one is within the duration, so nothing is cut off
  have hwithin : ∀ i < rowCount, nearest ((i : ℚ) * (1000000 / fps.toNat)) ≤
      stopUs.toNat - startUs.toNat := by
    intro i hi
    rcases hrows i hi with rfl | hlt
    · rw [Nat.cast_zero, zero_mul, nearest_zero]
      exact Nat.zero_le _
    · exact grid_le hstep hlt
  have htime : ∀ i < rowCount,
      (startUs + UInt64.ofNat (roundAsU64 ((i : ℚ) * (1000000 / fps.toNat)))).toNat =
        startUs.toNat + nearest ((i : ℚ) * (1000000 / fps.toNat)) := by
    intro i hi
    have hle := hwithin i hi
    have hround : roundAsU64 ((i : ℚ) * (1000000 / fps.toNat)) =
        nearest ((i : ℚ) * (1000000 / fps.toNat)) := Nat.min_eq_left (by omega)
    have hoffset : (UInt64.ofNat (nearest ((i : ℚ) * (1000000 / fps.toNat)))).toNat =
        nearest ((i : ℚ) * (1000000 / fps.toNat)) :=
      UInt64.toNat_ofNat_of_lt' (by omega)
    rw [hround, UInt64.toNat_add, hoffset]
    exact Nat.mod_eq_of_lt (by omega)
  rw [heq]
  constructor
  · intro hnil
    rw [List.map_eq_nil_iff, List.range_eq_nil] at hnil
    omega
  · rw [List.pairwise_map]
    refine List.pairwise_lt_range.imp_of_mem fun {i j} hi hj hlt => ?_
    rw [UInt64.lt_iff_toNat_lt, htime i (List.mem_range.mp hi), htime j (List.mem_range.mp hj)]
    exact Nat.add_lt_add_left (grid_strictMono hstep hlt) _
  · have hzero := htime 0 hpos
    rw [Nat.cast_zero, zero_mul, nearest_zero, Nat.add_zero] at hzero
    have hfirst := UInt64.toNat_inj.mp hzero
    rw [List.head?_map, List.head?_range, if_neg (Nat.ne_of_gt hpos), Option.map_some,
      Nat.cast_zero, zero_mul, hfirst]
  · intro t ht
    obtain ⟨i, hi, rfl⟩ := List.mem_map.mp ht
    have hi := List.mem_range.mp hi
    have hle := hwithin i hi
    rw [UInt64.le_iff_toNat_le, htime i hi]
    omega

end Times

section Table

theorem forall₂_map {α β : Type} {R : α → β → Prop} {f : α → β} {l : List α}
    (h : ∀ a ∈ l, R a (f a)) : List.Forall₂ R l (l.map f) := by
  rw [List.forall₂_map_right_iff, List.forall₂_same]
  exact h

/-- A table of columns has one for every key, which is one of those made for it. -/
theorem lookup_columns {α β : Type} (key : α → String) (column : α → β) (items : List α)
    (table : TreeMap String β) :
    (∀ (k : String) (v : β),
      (items.foldl (fun columns item => columns.insert (key item) (column item)) table)[k]? =
        some v → table[k]? = some v ∨ ∃ item ∈ items, key item = k ∧ v = column item) ∧
    ∀ k : String, (table[k]?.isSome = true ∨ ∃ item ∈ items, key item = k) →
      (items.foldl (fun columns item => columns.insert (key item) (column item))
        table)[k]?.isSome = true := by
  induction items generalizing table with
  | nil =>
    refine ⟨fun k v h => Or.inl h, ?_⟩
    rintro k (h | ⟨item, hitem, -⟩)
    · exact h
    · cases hitem
  | cons item items ih =>
    obtain ⟨hfrom, hto⟩ := ih (table.insert (key item) (column item))
    rw [List.foldl_cons]
    constructor
    · intro k v h
      rcases hfrom k v h with h | ⟨other, hother, hkey, rfl⟩
      · rw [lookup_insert] at h
        by_cases hk : k = key item
        · rw [if_pos hk] at h
          exact Or.inr ⟨item, List.mem_cons_self, hk.symm, (Option.some.inj h).symm⟩
        · rw [if_neg hk] at h
          exact Or.inl h
      · exact Or.inr ⟨other, List.mem_cons_of_mem _ hother, hkey, rfl⟩
    · intro k h
      apply hto
      rw [lookup_insert]
      by_cases hk : k = key item
      · rw [if_pos hk]
        exact Or.inl rfl
      · rw [if_neg hk]
        rcases h with h | ⟨other, hother, hkey⟩
        · exact Or.inl h
        · rcases List.mem_cons.mp hother with rfl | hother
          · exact absurd hkey.symm hk
          · exact Or.inr ⟨other, hother, hkey⟩

theorem observationSamplesOf_sorted {episode : EpisodeAssemblyInput}
    (h : SamplesInOrder episode) (observation : AssemblerObservationRuntimeConfigV2) :
    (observationSamplesOf episode observation).Pairwise
      fun a b => a.timestampUs ≤ b.timestampUs := by
  rw [observationSamplesOf, TreeMap.getD_eq_getD_getElem?]
  cases hsamples : episode.observationSamples[observationKey observation.channelId
      observation.stateKind]? with
  | none => exact List.Pairwise.nil
  | some samples => exact h.observations _ samples hsamples

theorem actionSamplesOf_sorted {episode : EpisodeAssemblyInput} (h : SamplesInOrder episode)
    (action : AssemblerActionRuntimeConfigV2) :
    (actionSamplesOf episode action).Pairwise fun a b => a.timestampUs ≤ b.timestampUs := by
  rw [actionSamplesOf, TreeMap.getD_eq_getD_getElem?]
  cases hsamples : episode.actionSamples[actionKey action.channelId action.commandKind]? with
  | none => exact List.Pairwise.nil
  | some samples => exact h.actions _ samples hsamples

theorem observationColumn_cases {config : AssemblerRuntimeConfigV2} {episode : EpisodeAssemblyInput}
    {key : String} {column : List (List Float)}
    (h : (buildEpisodeRows config episode).observationColumns[key]? = some column) :
    ∃ observation ∈ config.observations,
      observationKey observation.channelId observation.stateKind = key ∧
      column = (canonicalFrameTimestamps episode.startTimeUs episode.stopTimeUs config.fps).map
        fun timestampUs => observationValuesAt (observationSamplesOf episode observation)
          timestampUs observation.valueLen.toNat := by
  rcases (lookup_columns _ _ config.observations ∅).1 key column h with hnone | hsome
  · simp at hnone
  · exact hsome

/-- Rows of equal spacing, one cell for each of them, and the end of the episode at the last. -/
theorem build_episode_rows_resampled {config : AssemblerRuntimeConfigV2}
    {episode : EpisodeAssemblyInput} (hlow : 1 ≤ config.fps.toNat)
    (hhigh : config.fps.toNat ≤ 1000000) (horder : episode.startTimeUs ≤ episode.stopTimeUs)
    (hsamples : SamplesInOrder episode) :
    Resampled config episode
      (canonicalFrameTimestamps episode.startTimeUs episode.stopTimeUs config.fps)
      (buildEpisodeRows config episode) := by
  constructor
  · exact timeline_canonical hlow hhigh horder
  · constructor
    · simp only [buildEpisodeRows, List.length_map, List.length_range]
    · simp only [buildEpisodeRows, List.length_map, List.length_range]
    · simp only [buildEpisodeRows, List.length_replicate]
    · simp only [buildEpisodeRows, List.length_map, List.length_range]
    · simp only [buildEpisodeRows, List.length_replicate]
    · simp only [buildEpisodeRows, List.length_map, List.length_range]
    · intro key column hcolumn
      obtain ⟨observation, -, -, rfl⟩ := observationColumn_cases hcolumn
      rw [List.length_map]
    · simp only [buildEpisodeRows, List.length_map]
  · intro observation hobservation
    exact (lookup_columns _ _ config.observations ∅).2 _ (Or.inr ⟨observation, hobservation, rfl⟩)
  · intro key column hcolumn
    obtain ⟨observation, hobservation, hkey, rfl⟩ := observationColumn_cases hcolumn
    refine ⟨observation, hobservation, hkey, forall₂_map fun t _ => ?_⟩
    exact cell_valuesAt (observationSamplesOf_sorted hsamples observation) _ t
  · refine forall₂_map fun t _ => ⟨_, List.flatMap_def, forall₂_map fun action _ => ?_⟩
    exact cell_valuesAt (actionSamplesOf_sorted hsamples action) _ t
  · intro i hi
    simp only [buildEpisodeRows, List.getElem?_map, List.getElem?_range hi, Option.map_some]
    rfl

def armConfig : AssemblerRuntimeConfigV2 where
  processId := "assembler"
  format := .leRobotV21
  fps := 30
  chunkSize := 1000
  missingEosTimeoutMs := 1000
  stagingDir := "/staging"
  stagingSlots := 1
  cameras := []
  observations := [⟨"arm", .jointPosition, "arm/states/joint_position", 3⟩]
  actions := [⟨"arm", .jointPosition, "arm/commands/joint_position", 1⟩]
  embeddedConfigToml := "fps = 30"

def armStates : List ObservationSample := [⟨900, [1, 2]⟩, ⟨40000, [3, 4]⟩]

def armCommands : List ActionSample := [⟨2000, [5, 6]⟩, ⟨2000, [7, 8]⟩]

def armEpisode : EpisodeAssemblyInput where
  episodeIndex := 0
  startTimeUs := 1000
  stopTimeUs := 101000
  observationSamples := (∅ : TreeMap String _).insert "arm/joint_position" armStates
  actionSamples := (∅ : TreeMap String _).insert "arm/joint_position" armCommands
  cameraStreams := ∅

theorem armEpisode_inOrder : SamplesInOrder armEpisode := by
  constructor
  · intro key samples h
    rw [armEpisode, lookup_insert] at h
    by_cases hkey : key = "arm/joint_position"
    · rw [if_pos hkey] at h
      cases h
      simp [armStates]
    · simp [hkey] at h
  · intro key samples h
    rw [armEpisode, lookup_insert] at h
    by_cases hkey : key = "arm/joint_position"
    · rw [if_pos hkey] at h
      cases h
      simp [armCommands]
    · simp [hkey] at h

theorem arm_rows_resampled : armConfig.fps = 30 ∧
    canonicalFrameTimestamps 1000 101000 30 = [1000, 34333, 67667] ∧
    Resampled armConfig armEpisode (canonicalFrameTimestamps 1000 101000 30)
      (buildEpisodeRows armConfig armEpisode) :=
  ⟨rfl, by decide +kernel,
    @build_episode_rows_resampled armConfig armEpisode (by decide) (by decide) (by decide)
      armEpisode_inOrder⟩

end Table

end EpisodeRows
