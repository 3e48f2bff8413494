import Rollio.DistinctNames
import Rollio.FallibleRuns

/-! The raw dump of a staged episode: for every recorded state and every sent command one file with
all its samples, their times counted from the start of the episode. -/
namespace RawDump
open BusMessages RuntimeConfig DeviceConfigs ProjectConfigs AcceptedProjects DerivedConfigs
open ResolvedChannels TopicNames LerobotDataset EpisodeMetadata DistinctNames FallibleRuns
open FileTrees (Path puts puts_nil puts_cons puts_append)

section Dump

structure RawTable where
  timestampUsRel : List Int64
  values : List (List Float)

abbrev Disk := Path → Option RawTable

/-- What the calls that make directories and files return; a write that fails says what it leaves
at its path. -/
structure RawFs where
  createDirAll : Path → Except String Unit
  writeTable : Path → RawTable → Except (String × Option RawTable) Unit

/-- `sample_us as i64 - start_time_us as i64`, which wraps as in a release build. -/
def relativeTimestampUs (sampleUs startTimeUs : UInt64) : Int64 :=
  sampleUs.toInt64 - startTimeUs.toInt64

def createDirAll (fs : RawFs) (path : Path) : Prog String Disk PUnit :=
  match fs.createDirAll path with
  | .ok () => pure ⟨⟩
  | .error e => throw e

def writeParquet (fs : RawFs) (path : Path) (timestamps : List Int64)
    (valuesRows : List (List Float)) : Prog String Disk PUnit := do
  createDirAll fs path.dropLast
  match fs.writeTable path ⟨timestamps, valuesRows⟩ with
  | .ok () => modify fun disk => Function.update disk path (some ⟨timestamps, valuesRows⟩)
  | .error (e, left) => do
    modify fun disk => Function.update disk path left
    throw e

def writeObservationParquet (fs : RawFs) (path : Path) (samples : List ObservationSample)
    (startTimeUs : UInt64) : Prog String Disk PUnit :=
  writeParquet fs path (samples.map fun s => relativeTimestampUs s.timestampUs startTimeUs)
    (samples.map (·.values))

def writeActionParquet (fs : RawFs) (path : Path) (samples : List ActionSample)
    (startTimeUs : UInt64) : Prog String Disk PUnit :=
  writeParquet fs path (samples.map fun s => relativeTimestampUs s.timestampUs startTimeUs)
    (samples.map (·.values))

def writeEpisodeRawDump (fs : RawFs) (config : AssemblerRuntimeConfigV2)
    (episode : EpisodeAssemblyInput) : Prog String Disk Path := do
  let rawDir := rawDir episode.episodeIndex config.chunkSize
  createDirAll fs rawDir
  config.observations.forM fun observation => do
    let key := observationKey observation.channelId observation.stateKind
    let samples := episode.observationSamples.getD key []
    let fileName := sanitizeComponent observation.channelId ++ "__" ++
      observation.stateKind.topicSuffix ++ ".parquet"
    writeObservationParquet fs (rawDir ++ [fileName]) samples episode.startTimeUs
  config.actions.forM fun action => do
    let key := actionKey action.channelId action.commandKind
    let samples := episode.actionSamples.getD key []
    let fileName := sanitizeComponent action.channelId ++ "__" ++
      action.commandKind.topicSuffix ++ ".parquet"
    writeActionParquet fs (rawDir ++ [fileName]) samples episode.startTimeUs
  return rawDir

end Dump

section Streams

inductive RawStream where
  | state (channelId : String) (kind : RobotStateKind)
  | command (channelId : String) (kind : RobotCommandKind)
  deriving DecidableEq

def RawStream.channelId : RawStream → String
  | .state channelId _ | .command channelId _ => channelId

def RawStream.suffix : RawStream → String
  | .state _ kind => kind.topicSuffix
  | .command _ kind => kind.topicSuffix

def RawStream.samples (episode : EpisodeAssemblyInput) : RawStream → List (UInt64 × List Float)
  | .state channelId kind =>
    (episode.observationSamples.getD (observationKey channelId kind) []).map fun s =>
      (s.timestampUs, s.values)
  | .command channelId kind =>
    (episode.actionSamples.getD (actionKey channelId kind) []).map fun s =>
      (s.timestampUs, s.values)

def RawStream.file (episodeIndex chunkSize : UInt32) (x : RawStream) : Path :=
  rawFile episodeIndex chunkSize x.channelId x.suffix

def rawTable (startTimeUs : UInt64) (samples : List (UInt64 × List Float)) : RawTable where
  timestampUsRel := samples.map fun s => relativeTimestampUs s.1 startTimeUs
  values := samples.map Prod.snd

def RawTable.samples (startTimeUs : UInt64) (table : RawTable) : List (UInt64 × List Float) :=
  (table.timestampUsRel.map fun t => startTimeUs + t.toUInt64).zip table.values

def observationStream (o : AssemblerObservationRuntimeConfigV2) : RawStream :=
  .state o.channelId o.stateKind

def actionStream (a : AssemblerActionRuntimeConfigV2) : RawStream := .command a.channelId a.commandKind

/-- The streams that are dumped, in the order of their writes. -/
def rawStreams (config : AssemblerRuntimeConfigV2) : List RawStream :=
  config.observations.map observationStream ++ config.actions.map actionStream

def rawWrite (episode : EpisodeAssemblyInput) (chunkSize : UInt32) (x : RawStream) :
    Path × RawTable :=
  (x.file episode.episodeIndex chunkSize, rawTable episode.startTimeUs (x.samples episode))

def rawWrites (config : AssemblerRuntimeConfigV2) (episode : EpisodeAssemblyInput) :
    List (Path × RawTable) :=
  (rawStreams config).map (rawWrite episode config.chunkSize)

/-- No time is lost, not even one that is far before or behind the start. -/
theorem rawTable_samples (startTimeUs : UInt64) (samples : List (UInt64 × List Float)) :
    (rawTable startTimeUs samples).samples startTimeUs = samples := by
  have htime (sampleUs : UInt64) :
      startTimeUs + (relativeTimestampUs sampleUs startTimeUs).toUInt64 = sampleUs := by
    have hdiff : (relativeTimestampUs sampleUs startTimeUs).toUInt64 = sampleUs - startTimeUs := rfl
    rw [hdiff, UInt64.add_comm, UInt64.sub_add_cancel]
  induction samples with
  | nil => rfl
  | cons s samples ih =>
    simp only [RawTable.samples, rawTable, List.map_cons, List.zip_cons_cons, htime] at ih ⊢
    rw [ih]

theorem rawTable_injective (startTimeUs : UInt64) : Function.Injective (rawTable startTimeUs) := by
  intro samples samples' h
  rw [← rawTable_samples startTimeUs samples, h, rawTable_samples]

/-- Two streams go to one file when their channel ids become one and their kinds are called alike. -/
theorem file_eq_iff {episodeIndex chunkSize : UInt32} {x y : RawStream} :
    x.file episodeIndex chunkSize = y.file episodeIndex chunkSize ↔
      sanitizeComponent x.channelId = sanitizeComponent y.channelId ∧ x.suffix = y.suffix := by
  have hending (z : RawStream) : "__" ++ z.suffix ++ ".parquet" ∈ rawEndings := by
    apply List.mem_map_of_mem (f := fun suffix => "__" ++ suffix ++ ".parquet")
    rw [List.mem_append]
    cases z with
    | state _ kind => exact .inl (List.mem_map_of_mem (state_mem_stateKinds kind))
    | command _ kind => exact .inr (List.mem_map_of_mem (command_mem_commandKinds kind))
  have hx := hending x
  have hy := hending y
  simp only [RawStream.file, rawFile, List.append_cancel_left_eq, List.cons.injEq, and_true,
    String.append_assoc] at hx hy ⊢
  rw [unmixed_endings rawEndings_unmixed hx hy]
  simp only [← String.append_assoc, suffix_of_rawEnding]

end Streams

section Writes
variable {fs : RawFs} {disk : Disk}

theorem createDirAll_meets (path : Path) :
    Meets (· = disk) (createDirAll fs path) (fun _ => (· = disk)) (· = disk) := by
  unfold createDirAll
  cases fs.createDirAll path with
  | ok _ => exact meets_pure fun _ hs => hs
  | error e => exact meets_throw fun _ hs => hs

/-- A write that fails touches no other path. -/
theorem writeParquet_meets (path : Path) (timestamps : List Int64) (rows : List (List Float)) :
    Meets (· = disk) (writeParquet fs path timestamps rows)
      (fun _ => (· = Function.update disk path (some ⟨timestamps, rows⟩)))
      fun t => ∃ left, t = Function.update disk path left := by
  refine meets_then (· = disk) ?_ ?_
  · refine (createDirAll_meets path.dropLast).weaken (fun _ hs => hs) (fun _ _ hs => hs) ?_
    rintro s rfl
    exact ⟨s path, (Function.update_eq_self path s).symm⟩
  · cases fs.writeTable path ⟨timestamps, rows⟩ with
    | ok _ => exact meets_modify fun s hs => by rw [hs]
    | error failure =>
      refine meets_then (· = Function.update disk path failure.2) ?_ ?_
      · exact meets_modify fun s hs => by rw [hs]
      · exact meets_throw fun s hs => ⟨failure.2, hs⟩

/-- A dump that stopped at one of its writes: those before it are done, the others untouched. -/
def Interrupted (writes : List (Path × RawTable)) (disk t : Disk) : Prop :=
  ∃ before w after left, writes = before ++ w :: after ∧
    t = Function.update (puts before disk) w.1 left

theorem loop_meets {β : Type} {l : List β} {body : β → Prog String Disk PUnit}
    {write : β → Path × RawTable}
    (hbody : ∀ a s, Meets (· = s) (body a)
      (fun _ => (· = Function.update s (write a).1 (some (write a).2)))
      fun t => ∃ left, t = Function.update s (write a).1 left) :
    Meets (· = disk) (l.forM body) (fun _ => (· = puts (l.map write) disk))
      (Interrupted (l.map write) disk) := by
  refine meets_forM (fun before s => s = puts (before.map write) disk) ?_
  rintro before a after rfl
  refine (hbody a (puts (before.map write) disk)).weaken (fun _ hs => hs) ?_ ?_
  · rintro _ s rfl
    rw [List.map_append, puts_append]
    rfl
  · rintro s ⟨left, rfl⟩
    exact ⟨before.map write, write a, after.map write, left, by simp, rfl⟩

theorem dump_meets (config : AssemblerRuntimeConfigV2) (episode : EpisodeAssemblyInput) :
    Meets (· = disk) (writeEpisodeRawDump fs config episode)
      (fun dir t => dir = rawDir episode.episodeIndex config.chunkSize ∧
        t = puts (rawWrites config episode) disk)
      fun t => t = disk ∨ Interrupted (rawWrites config episode) disk t := by
  have hwrite (x : RawStream) (s : Disk) : Meets (· = s)
      (writeParquet fs (x.file episode.episodeIndex config.chunkSize)
        (rawTable episode.startTimeUs (x.samples episode)).timestampUsRel
        (rawTable episode.startTimeUs (x.samples episode)).values)
      (fun _ => (· = Function.update s (rawWrite episode config.chunkSize x).1
        (some (rawWrite episode config.chunkSize x).2)))
      fun t => ∃ left, t = Function.update s (rawWrite episode config.chunkSize x).1 left :=
    writeParquet_meets _ _ _
  have hsplit : rawWrites config episode =
      config.observations.map (rawWrite episode config.chunkSize ∘ observationStream) ++
        config.actions.map (rawWrite episode config.chunkSize ∘ actionStream) := by
    rw [rawWrites, rawStreams, List.map_append, List.map_map, List.map_map]
  have hobservations {body : AssemblerObservationRuntimeConfigV2 → Prog String Disk PUnit}
      (hbody : ∀ o, body o = writeParquet fs
        ((observationStream o).file episode.episodeIndex config.chunkSize)
        (rawTable episode.startTimeUs ((observationStream o).samples episode)).timestampUsRel
        (rawTable episode.startTimeUs ((observationStream o).samples episode)).values) :
      Meets (· = disk) (config.observations.forM body)
        (fun _ => (· = puts (config.observations.map
          (rawWrite episode config.chunkSize ∘ observationStream)) disk))
        (Interrupted (config.observations.map
          (rawWrite episode config.chunkSize ∘ observationStream)) disk) :=
    loop_meets fun o s => hbody o ▸ hwrite (observationStream o) s
  have hactions {body : AssemblerActionRuntimeConfigV2 → Prog String Disk PUnit} {disk : Disk}
      (hbody : ∀ a, body a = writeParquet fs
        ((actionStream a).file episode.episodeIndex config.chunkSize)
        (rawTable episode.startTimeUs ((actionStream a).samples episode)).timestampUsRel
        (rawTable episode.startTimeUs ((actionStream a).samples episode)).values) :
      Meets (· = disk) (config.actions.forM body)
        (fun _ => (· = puts (config.actions.map
          (rawWrite episode config.chunkSize ∘ actionStream)) disk))
        (Interrupted (config.actions.map (rawWrite episode config.chunkSize ∘ actionStream))
          disk) :=
    loop_meets fun a s => hbody a ▸ hwrite (actionStream a) s
  refine meets_then (· = disk) ?_ (meets_then (· = puts (config.observations.map
    (rawWrite episode config.chunkSize ∘ observationStream)) disk) ?_
    (meets_then (· = puts (rawWrites config episode) disk) ?_ (meets_pure fun t ht => ⟨rfl, ht⟩)))
  · exact (createDirAll_meets _).weaken (fun _ hs => hs) (fun _ _ hs => hs) fun _ hs => .inl hs
  · refine (hobservations fun o => ?_).weaken (fun _ hs => hs) (fun _ _ hs => hs) ?_
    · simp only [rawTable, observationStream, RawStream.samples, List.map_map]
      rfl
    · rintro s ⟨before, w, after, left, hl, hs⟩
      refine .inr ⟨before, w, after ++ config.actions.map
        (rawWrite episode config.chunkSize ∘ actionStream), left, ?_, hs⟩
      rw [hsplit, hl, List.append_assoc, List.cons_append]
  · refine (hactions fun a => ?_).weaken (fun _ hs => hs) ?_ ?_
    · simp only [rawTable, actionStream, RawStream.samples, List.map_map]
      rfl
    · rintro _ s rfl
      rw [hsplit, puts_append]
    · rintro s ⟨before, w, after, left, hl, hs⟩
      refine .inr ⟨config.observations.map (rawWrite episode config.chunkSize ∘
        observationStream) ++ before, w, after, left, ?_, ?_⟩
      · rw [hsplit, hl, List.append_assoc]
      · rw [puts_append]
        exact hs

end Writes

section Kept
variable {config : AssemblerRuntimeConfigV2} {x : RawStream}

/-- After every dump that succeeds the file of the stream gives its samples back. -/
def Kept (config : AssemblerRuntimeConfigV2) (x : RawStream) : Prop :=
  ∀ fs episode disk dir disk', Runs (writeEpisodeRawDump fs config episode) disk dir disk' →
    (disk' (x.file episode.episodeIndex config.chunkSize)).map
      (RawTable.samples episode.startTimeUs) = some (x.samples episode)

/-- The stream shares its file with no stream that is dumped behind it. -/
def LastOfFile (config : AssemblerRuntimeConfigV2) (x : RawStream) : Prop :=
  ∀ before after, rawStreams config = before ++ x :: after → x ∉ after → ∀ y ∈ after,
    ¬(sanitizeComponent y.channelId = sanitizeComponent x.channelId ∧ y.suffix = x.suffix)

/-- A member of a list has a last place in it. -/
theorem last_place {β : Type} [DecidableEq β] {a : β} {l : List β} (h : a ∈ l) :
    ∃ before after, l = before ++ a :: after ∧ a ∉ after := by
  induction l with
  | nil => cases h
  | cons b l ih =>
    by_cases hl : a ∈ l
    · obtain ⟨before, after, rfl, hafter⟩ := ih hl
      exact ⟨b :: before, after, rfl, hafter⟩
    · rcases List.mem_cons.mp h with rfl | h
      · exact ⟨[], l, rfl, hl⟩
      · exact absurd h hl

theorem puts_last {writes : List (Path × RawTable)} {disk : Disk}
    (before after : List (Path × RawTable)) (w : Path × RawTable) (h : writes = before ++ w :: after)
    (hafter : ∀ w' ∈ after, w'.1 ≠ w.1) : puts writes disk w.1 = some w.2 := by
  rw [h, puts_append, puts_cons, FileTrees.puts_of_not_mem, Function.update_self]
  intro hmem
  obtain ⟨w', hw', heq⟩ := List.mem_map.mp hmem
  exact hafter w' hw' heq

theorem LastOfFile.kept (h : LastOfFile config x) (hx : x ∈ rawStreams config) :
    Kept config x := by
  intro fs episode disk dir disk' hruns
  obtain ⟨-, rfl⟩ := (dump_meets config episode disk rfl).1 dir disk' hruns
  obtain ⟨before, after, hsplit, hlast⟩ := last_place hx
  have hbehind := h before after hsplit hlast
  have hput : puts (rawWrites config episode) disk (x.file episode.episodeIndex config.chunkSize) =
      some (rawTable episode.startTimeUs (x.samples episode)) := by
    refine puts_last (before.map (rawWrite episode config.chunkSize))
      (after.map (rawWrite episode config.chunkSize)) (rawWrite episode config.chunkSize x) ?_ ?_
    · rw [rawWrites, hsplit, List.map_append, List.map_cons]
    · intro w hw heq
      obtain ⟨y, hy, rfl⟩ := List.mem_map.mp hw
      exact hbehind y hy (file_eq_iff.mp heq)
  rw [hput, Option.map_some, rawTable_samples]

def willing : RawFs where
  createDirAll _ := .ok ()
  writeTable _ _ := .ok ()

def onlySample (x : RawStream) : EpisodeAssemblyInput where
  episodeIndex := 0
  startTimeUs := 0
  stopTimeUs := 1
  observationSamples := match x with
    | .state channelId kind => (∅ : Std.TreeMap String (List ObservationSample)).insert
        (observationKey channelId kind) [⟨0, []⟩]
    | .command _ _ => ∅
  actionSamples := match x with
    | .state _ _ => ∅
    | .command channelId kind => (∅ : Std.TreeMap String (List ActionSample)).insert
        (actionKey channelId kind) [⟨0, []⟩]
  cameraStreams := ∅

theorem willing_returns (config : AssemblerRuntimeConfigV2) (episode : EpisodeAssemblyInput) :
    Meets (fun _ => True) (writeEpisodeRawDump willing config episode) (fun _ _ => True)
      fun _ => False := by
  have hwrite (path : Path) (timestamps : List Int64) (rows : List (List Float)) :
      Meets (fun _ => True) (writeParquet willing path timestamps rows) (fun _ _ => True)
        fun _ => False :=
    meets_then (fun _ => True) (meets_pure fun _ _ => trivial) (meets_modify fun _ _ => trivial)
  refine meets_then (fun _ => True) (meets_pure fun _ _ => trivial) (meets_then (fun _ => True) ?_
    (meets_then (fun _ => True) ?_ (meets_pure fun _ _ => trivial)))
  · exact meets_forM (fun _ _ => True) fun _ _ _ _ => hwrite _ _ _
  · exact meets_forM (fun _ _ => True) fun _ _ _ _ => hwrite _ _ _

theorem key_eq_iff {channelId channelId' suffix suffix' : String} (hs : '/' ∉ suffix.toList)
    (hs' : '/' ∉ suffix'.toList) : channelId ++ "/" ++ suffix = channelId' ++ "/" ++ suffix' ↔
      channelId = channelId' ∧ suffix = suffix' := by
  have hslash : "/".toList = ['/'] := by decide
  simp only [← String.toList_inj, String.toList_append, hslash, List.append_assoc,
    List.singleton_append]
  exact SeparatedNames.last_separator hs hs'

theorem onlySample_self (x : RawStream) : x.samples (onlySample x) = [(0, [])] := by
  cases x <;> simp [RawStream.samples, onlySample]

theorem onlySample_other {x y : RawStream} (h : y ≠ x) : y.samples (onlySample x) = [] := by
  cases x with
  | state channelId kind =>
    cases y with
    | command _ _ => simp [RawStream.samples, onlySample]
    | state channelId' kind' =>
      have hkey : observationKey channelId kind ≠ observationKey channelId' kind' := by
        intro heq
        obtain ⟨rfl, hsuffix⟩ :=
          (key_eq_iff (state_no_slash kind) (state_no_slash kind')).mp heq
        exact h (by rw [stateSuffix_injective hsuffix])
      simp [RawStream.samples, onlySample, Std.TreeMap.getD_insert, hkey]
  | command channelId kind =>
    cases y with
    | state _ _ => simp [RawStream.samples, onlySample]
    | command channelId' kind' =>
      have hkey : actionKey channelId kind ≠ actionKey channelId' kind' := by
        intro heq
        obtain ⟨rfl, hsuffix⟩ :=
          (key_eq_iff (command_no_slash kind) (command_no_slash kind')).mp heq
        exact h (by rw [commandSuffix_injective hsuffix])
      simp [RawStream.samples, onlySample, Std.TreeMap.getD_insert, hkey]

/-- A stream is kept by every dump exactly if nothing is written over it. -/
theorem kept_iff (hx : x ∈ rawStreams config) : Kept config x ↔ LastOfFile config x := by
  refine ⟨fun hkept before after hsplit hlast y hy hfile => ?_, fun h => h.kept hx⟩
  -- the last one of those that are written over the stream
  obtain ⟨between, rest, hafter, hrest⟩ := last_place
    (l := after.map fun z => (rawWrite (onlySample x) config.chunkSize z).1)
    (List.mem_map.mpr ⟨y, hy, file_eq_iff.mpr hfile⟩)
  obtain ⟨front, back, rfl, hfront, hback⟩ := List.map_eq_append_iff.mp hafter
  obtain ⟨z, tail, rfl, hz, htail⟩ := List.map_eq_cons_iff.mp hback
  have hne : z ≠ x := by
    rintro rfl
    exact hlast (List.mem_append_right _ List.mem_cons_self)
  rcases runs_or_fails (writeEpisodeRawDump willing config (onlySample x)) fun _ => none with
    ⟨dir, disk', hruns⟩ | ⟨e, disk', hfails⟩
  · have hkept := hkept willing (onlySample x) _ dir disk' hruns
    obtain ⟨-, rfl⟩ := (dump_meets config (onlySample x) _ rfl).1 dir disk' hruns
    have hput : puts (rawWrites config (onlySample x)) (fun _ => none)
        (rawWrite (onlySample x) config.chunkSize z).1
          = some (rawWrite (onlySample x) config.chunkSize z).2 := puts_last
      ((before ++ x :: front).map (rawWrite (onlySample x) config.chunkSize))
      (tail.map (rawWrite (onlySample x) config.chunkSize)) _
      (by simp [rawWrites, hsplit]) (by
        intro w hw heq
        obtain ⟨z', hz', rfl⟩ := List.mem_map.mp hw
        apply hrest
        rw [← htail, ← hz, ← heq]
        exact List.mem_map_of_mem hz')
    have hpath : (rawWrite (onlySample x) config.chunkSize z).1 =
        x.file (onlySample x).episodeIndex config.chunkSize := hz
    rw [hpath] at hput
    rw [hput, rawWrite, Option.map_some, rawTable_samples, onlySample_other hne,
      onlySample_self] at hkept
    cases hkept
  · exact ((willing_returns config (onlySample x) _ trivial).2 e disk' hfails).elim

end Kept

section Projects
variable {α : Type} {platform : Platform α} {config : ProjectConfig α}
variable {d : BinaryDeviceConfig α} {c : DeviceChannelConfigV2 α}

theorem state_mem_iff {embeddedConfigToml channelId : String} {kind : RobotStateKind} :
    .state channelId kind ∈ rawStreams (assemblerRuntimeConfigV2 platform config
        embeddedConfigToml) ↔
      ∃ d c, Records config d c (.state kind) ∧ channelId = idOf d c := by
  constructor
  · intro hx
    rcases List.mem_append.mp hx with hx | hx
    · obtain ⟨observation, ho, heq⟩ := List.mem_map.mp hx
      obtain ⟨rfl, rfl⟩ := RawStream.state.inj heq
      obtain ⟨robot, hr, ho⟩ := List.mem_flatMap.mp ho
      obtain ⟨d, c, hr⟩ := robot_of_mem hr
      obtain ⟨entry, he, rfl⟩ := List.mem_map.mp ho
      obtain ⟨he, hk⟩ := List.mem_filter.mp he
      rw [hr.stateTopics] at he
      obtain ⟨kind, hs, rfl⟩ := List.mem_map.mp he
      refine ⟨d, c, ⟨⟨hr.device, hr.channel, hr.kind, hr.enabled⟩, hs, ?_⟩, hr.channelId⟩
      rw [recordedStatesOf, ← hr.recordedStates]
      simpa using hk
    · obtain ⟨action, -, heq⟩ := List.mem_map.mp hx
      cases heq
  · rintro ⟨d, c, ⟨hr, hs, hk⟩, rfl⟩
    obtain ⟨robot, hm, hc⟩ := exists_robot platform hr.device hr.channel hr.kind hr.enabled
    have he : (kind, robotStateTopicV2 d.busRoot c.channelType kind) ∈
        robot.stateTopics.filter fun entry => robot.recordedStates.contains entry.1 := by
      rw [hc.stateTopics, hc.recordedStates]
      exact List.mem_filter.mpr ⟨List.mem_map_of_mem hs, by simpa [recordedStatesOf] using hk⟩
    refine List.mem_append_left _ (List.mem_map.mpr
      ⟨_, List.mem_flatMap.mpr ⟨robot, hm, List.mem_map_of_mem he⟩, ?_⟩)
    rw [observationStream, hc.channelId, idOf]

theorem command_mem_iff (h : Accepted platform config) {embeddedConfigToml channelId : String}
    {kind : RobotCommandKind} :
    .command channelId kind ∈ rawStreams (assemblerRuntimeConfigV2 platform config
        embeddedConfigToml) ↔
      ∃ d c, Records config d c (.command kind) ∧ channelId = idOf d c := by
  have hstream {p : ChannelPairingConfig α} {d : BinaryDeviceConfig α}
      {c : DeviceChannelConfigV2 α} (hf : TopicWiring.FollowerOf config p d c) :
      actionStream (assemblerActionFor p d c) = .command (idOf d c) p.followerCommand := by
    simp only [actionStream, assemblerActionFor, idOf, (deviceNamed_eq_some hf.device).2,
      (channelNamed_eq_some hf.channel).2]
  have hfollowers := TopicWiring.exists_follower_iff h (P := fun p d c =>
    actionStream (assemblerActionFor p d c) = .command channelId kind)
  constructor
  · intro hx
    rcases List.mem_append.mp hx with hx | hx
    · obtain ⟨observation, -, heq⟩ := List.mem_map.mp hx
      cases heq
    · obtain ⟨action, ha, heq⟩ := List.mem_map.mp hx
      obtain ⟨p, hp, ld, l, fd, f, haccepted, rfl⟩ := (mem_actions h).mp ha
      obtain ⟨q, d, c, hf, hq⟩ := hfollowers.mp ⟨p, hp, ld, l, fd, f, haccepted, heq⟩
      rw [hstream hf] at hq
      obtain ⟨rfl, rfl⟩ := RawStream.command.inj hq
      exact ⟨d, c, ⟨q, hf, rfl⟩, rfl⟩
  · rintro ⟨d, c, ⟨p, hf, rfl⟩, rfl⟩
    obtain ⟨q, hq, ld, l, fd, f, ha, heq⟩ := hfollowers.mpr ⟨p, d, c, hf, hstream hf⟩
    exact List.mem_append_right _ (List.mem_map.mpr
      ⟨_, (mem_actions h).mpr ⟨q, hq, ld, l, fd, f, ha, rfl⟩, heq⟩)

/-- Channels whose ids become one in the name of a file are one. -/
def FilesApart (config : ProjectConfig α) : Prop :=
  ∀ d c part d' c' part', Records config d c part → Records config d' c' part' →
    sanitizeComponent (idOf d c) = sanitizeComponent (idOf d' c') → idOf d c = idOf d' c'

/-- The streams that share their file with a stream of a project are of its channel. -/
theorem FilesApart.same_file (hapart : FilesApart config) (h : Accepted platform config)
    {embeddedConfigToml : String} {x y : RawStream}
    (hx : x ∈ rawStreams (assemblerRuntimeConfigV2 platform config embeddedConfigToml))
    (hy : y ∈ rawStreams (assemblerRuntimeConfigV2 platform config embeddedConfigToml))
    (hid : sanitizeComponent y.channelId = sanitizeComponent x.channelId) :
    y.channelId = x.channelId := by
  have hrecords {z : RawStream}
      (hz : z ∈ rawStreams (assemblerRuntimeConfigV2 platform config embeddedConfigToml)) :
      ∃ d c part, Records config d c part ∧ z.channelId = idOf d c := by
    cases z with
    | state channelId kind =>
      obtain ⟨d, c, hr, rfl⟩ := state_mem_iff.mp hz
      exact ⟨d, c, _, hr, rfl⟩
    | command channelId kind =>
      obtain ⟨d, c, hr, rfl⟩ := (command_mem_iff h).mp hz
      exact ⟨d, c, _, hr, rfl⟩
  obtain ⟨d, c, part, hr, hd⟩ := hrecords hx
  obtain ⟨d', c', part', hr', hd'⟩ := hrecords hy
  rw [hd, hd'] at hid ⊢
  exact hapart d' c' part' d c part hr' hr hid

theorem commands_behind {cfg : AssemblerRuntimeConfigV2} {before after : List RawStream}
    {channelId channelId' : String} {kind : RobotStateKind} {command : RobotCommandKind}
    (h : rawStreams cfg = before ++ .state channelId kind :: after)
    (hy : .command channelId' command ∈ rawStreams cfg) : .command channelId' command ∈ after := by
  have hstate : RawStream.state channelId kind ∉ cfg.actions.map actionStream := by
    intro hmem
    obtain ⟨action, -, heq⟩ := List.mem_map.mp hmem
    cases heq
  have hcommand : RawStream.command channelId' command ∈ cfg.actions.map actionStream := by
    rcases List.mem_append.mp hy with hy | hy
    · obtain ⟨observation, -, heq⟩ := List.mem_map.mp hy
      cases heq
    · exact hy
  rcases List.append_eq_append_iff.mp h with ⟨middle, -, hactions⟩ | ⟨middle, -, hrest⟩
  · rw [hactions] at hstate
    exact absurd (List.mem_append_right _ List.mem_cons_self) hstate
  · cases middle with
    | nil =>
      rw [List.nil_append] at hrest
      rw [← hrest] at hstate
      exact absurd List.mem_cons_self hstate
    | cons x middle =>
      rw [(List.cons.inj hrest).2]
      exact List.mem_append_right _ hcommand

/-- Behind a command there are only commands. -/
theorem behind_command {cfg : AssemblerRuntimeConfigV2} {before after : List RawStream}
    {channelId : String} {command : RobotCommandKind}
    (h : rawStreams cfg = before ++ .command channelId command :: after) :
    ∀ y ∈ after, ∃ action ∈ cfg.actions, y = actionStream action := by
  have hfront : RawStream.command channelId command ∉ cfg.observations.map observationStream := by
    intro hmem
    obtain ⟨observation, -, heq⟩ := List.mem_map.mp hmem
    cases heq
  have hsub : ∀ y ∈ after, y ∈ cfg.actions.map actionStream := by
    rcases List.append_eq_append_iff.mp h with ⟨middle, -, hactions⟩ | ⟨middle, hfirst, hrest⟩
    · rw [hactions]
      exact fun y hy => List.mem_append_right _ (List.mem_cons_of_mem _ hy)
    · cases middle with
      | nil =>
        rw [List.nil_append] at hrest
        rw [← hrest]
        exact fun y hy => List.mem_cons_of_mem _ hy
      | cons x middle =>
        rw [hfirst, ← (List.cons.inj hrest).1] at hfront
        exact absurd (List.mem_append_right _ List.mem_cons_self) hfront
  intro y hy
  obtain ⟨action, ha, rfl⟩ := List.mem_map.mp (hsub y hy)
  exact ⟨action, ha, rfl⟩

/-- The raw dump keeps every command that is recorded of a project, and a recorded state exactly
if its channel is not sent commands that are called like it. -/
theorem recorded_streams_kept (h : config.validate platform = .ok ()) (hapart : FilesApart config)
    (embeddedConfigToml : String) :
    (∀ d c kind, Records config d c (.state kind) →
      (Kept (assemblerRuntimeConfigV2 platform config embeddedConfigToml)
          (.state (idOf d c) kind) ↔
        ∀ d' c' command, Records config d' c' (.command command) → idOf d' c' = idOf d c →
          command.topicSuffix ≠ kind.topicSuffix)) ∧
    ∀ d c command, Records config d c (.command command) →
      Kept (assemblerRuntimeConfigV2 platform config embeddedConfigToml)
        (.command (idOf d c) command) := by
  have h := validate_iff.mp h
  constructor
  · intro d c kind hr
    have hx : RawStream.state (idOf d c) kind ∈ rawStreams (assemblerRuntimeConfigV2 platform
        config embeddedConfigToml) := state_mem_iff.mpr ⟨d, c, hr, rfl⟩
    rw [kept_iff hx]
    constructor
    · intro hlast d' c' command hr' hid hsuffix
      have hy : RawStream.command (idOf d c) command ∈ rawStreams (assemblerRuntimeConfigV2
          platform config embeddedConfigToml) :=
        (command_mem_iff h).mpr ⟨d', c', hr', hid.symm⟩
      obtain ⟨before, after, hsplit, hafter⟩ := last_place hx
      exact hlast before after hsplit hafter _ (commands_behind hsplit hy) ⟨rfl, hsuffix⟩
    · intro hcommands before after hsplit hafter y hy hfile
      have hmem : y ∈ rawStreams (assemblerRuntimeConfigV2 platform config embeddedConfigToml) := by
        rw [hsplit]
        exact List.mem_append_right _ (List.mem_cons_of_mem _ hy)
      have hid := hapart.same_file h hx hmem hfile.1
      cases y with
      | state channelId kind' =>
        obtain rfl := stateSuffix_injective hfile.2
        obtain rfl : channelId = idOf d c := hid
        exact hafter hy
      | command channelId command =>
        obtain ⟨d', c', hr', rfl⟩ := (command_mem_iff h).mp hmem
        exact hcommands d' c' command hr' hid hfile.2
  · intro d c command hr
    have hx : RawStream.command (idOf d c) command ∈ rawStreams (assemblerRuntimeConfigV2 platform
        config embeddedConfigToml) := (command_mem_iff h).mpr ⟨d, c, hr, rfl⟩
    rw [kept_iff hx]
    intro before after hsplit hafter y hy hfile
    have hmem : y ∈ rawStreams (assemblerRuntimeConfigV2 platform config embeddedConfigToml) := by
      rw [hsplit]
      exact List.mem_append_right _ (List.mem_cons_of_mem _ hy)
    have hid := hapart.same_file h hx hmem hfile.1
    obtain ⟨action, -, rfl⟩ := behind_command hsplit y hy
    have hkind : action.commandKind = command := commandSuffix_injective hfile.2
    have hsame : actionStream action = .command (idOf d c) command := by
      rw [actionStream, hkind, show action.channelId = idOf d c from hid]
    exact hafter (hsame ▸ hy)

theorem sampleTeleop_apart : FilesApart sampleTeleop := by
  have hids : ∀ d ∈ sampleTeleop.devices, ∀ c ∈ d.channels, ∀ d' ∈ sampleTeleop.devices,
      ∀ c' ∈ d'.channels, sanitizeComponent (idOf d c) = sanitizeComponent (idOf d' c') →
        idOf d c = idOf d' c' := by decide +kernel
  intro d c part d' c' part' hr hr'
  obtain ⟨hd, hc⟩ := records_mem hr
  obtain ⟨hd', hc'⟩ := records_mem hr'
  exact hids d hd c hc d' hd' c' hc'

/-- Of a follower whose positions are recorded and commanded only the commands are kept. -/
theorem sampleTeleop_dumped : ∃ d c, Records sampleTeleop d c (.state .jointPosition) ∧
    ¬ Kept (assemblerRuntimeConfigV2 rationals sampleTeleop "")
      (.state (idOf d c) .jointPosition) ∧
    Kept (assemblerRuntimeConfigV2 rationals sampleTeleop "")
      (.command (idOf d c) .jointPosition) := by
  obtain ⟨hstates, hcommands⟩ :=
    recorded_streams_kept sampleTeleop_valid sampleTeleop_apart ""
  obtain ⟨d, c, hstate, hcommand⟩ := follower_records
  refine ⟨d, c, hstate, ?_, hcommands d c .jointPosition hcommand⟩
  intro hkept
  exact (hstates d c .jointPosition hstate).mp hkept d c .jointPosition hcommand rfl rfl

end Projects

end RawDump
