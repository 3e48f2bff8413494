import Rollio.McapStaging
import Rollio.McapValidation

/-! The validator on the files of the assembler: which sync groups pass on a staged episode. -/
namespace StagedValidation
open BusMessages RuntimeConfig ChannelLogs McapStaging SyncGroups McapValidation Std

section Reading

/-- The library reads back what it was given: the messages in their order, each with the topic of
its channel, and the channels in any order. -/
structure ReadBack (handed : Handed) (file : McapFile) : Prop where
  channels : (file.channels.map Prod.fst).Perm (handed.log.channels.map Prod.snd)
  messages : List.Forall₂ (fun written read => (written.1, read.topic) ∈ handed.log.channels ∧
    read.sequence = written.2.sequence ∧ read.logTime = written.2.logTime ∧
    read.data = written.2.data) handed.log.messages file.messages

def onTopic (topic : String) (m : Message) : McapMessage :=
  { topic, sequence := m.sequence, logTime := m.logTime, data := m.data }

theorem unique_topic {channels : List (UInt16 × String)} (hids : (channels.map Prod.fst).Nodup)
    {id : UInt16} {topic topic' : String} (h : (id, topic) ∈ channels)
    (h' : (id, topic') ∈ channels) : topic = topic' :=
  congrArg Prod.snd (List.inj_on_of_nodup_map hids h h' rfl)

theorem ReadBack.on_topic {handed : Handed} {file : McapFile} (h : ReadBack handed file)
    (hids : (handed.log.channels.map Prod.fst).Nodup) (topic : String) :
    (file.messages.filter fun m => m.topic = topic) = (handed.log.on topic).map (onTopic topic) := by
  obtain ⟨-, hmessages⟩ := h
  unfold Log.on
  generalize handed.log.messages = writtens, file.messages = reads at hmessages ⊢
  induction hmessages with
  | nil => rfl
  | @cons written read writtens reads hread _ ih =>
    obtain ⟨hchannel, hsequence, hlogTime, hdata⟩ := hread
    by_cases htopic : read.topic = topic
    · subst htopic
      rw [List.filter_cons_of_pos (by simp), List.filter_cons_of_pos (by simpa using hchannel), ih,
        List.map_cons, List.map_cons, onTopic, ← hsequence, ← hlogTime, ← hdata]
    · rw [List.filter_cons_of_neg (by simpa using htopic), List.filter_cons_of_neg, ih]
      simp only [decide_eq_true_eq]
      exact fun hmem => htopic (unique_topic hids hchannel hmem)

end Reading

section Times
variable {fbb : FlatBuffers} {config : AssemblerRuntimeConfigV2} {episode : PendingEpisode}

/-- The times of an episode's packets and samples, by the topics they are staged under. -/
def recordedTimes (config : AssemblerRuntimeConfigV2) (episode : PendingEpisode) :
    List (String × List UInt64) :=
  config.cameras.map (fun camera => (videoTopic camera.channelId,
    episode.cameraStreams[camera.channelId]?.elim [] fun stream =>
      stream.packets.map (·.timestampUs))) ++
  episode.observationSamples.toList.map (fun entry =>
    (observationTopic entry.1, entry.2.map (·.timestampUs))) ++
  episode.actionSamples.toList.map fun entry => (actionTopic entry.1, entry.2.map (·.timestampUs))

theorem stream_of_times {topic : String} {times : List UInt64}
    (h : (topic, times) ∈ recordedTimes config episode) :
    ∃ entries, (topic, asMessages 0 entries) ∈ allStreams fbb config episode ∧
      entries.map Prod.fst = times := by
  have hsamples (samples : List Sample) :
      (sampleEntries fbb samples).map Prod.fst = samples.map (·.timestampUs) := by
    rw [sampleEntries, List.map_map]
    rfl
  rcases List.mem_append.mp h with h | h
  · rcases List.mem_append.mp h with h | h
    · obtain ⟨camera, hcamera, heq⟩ := List.mem_map.mp h
      obtain ⟨rfl, rfl⟩ := Prod.mk.inj heq
      refine ⟨_, List.mem_append_left _ (List.mem_append_left _ (List.mem_map_of_mem hcamera)), ?_⟩
      cases episode.cameraStreams[camera.channelId]? with
      | none => rfl
      | some stream =>
        rw [Option.elim_some, Option.elim_some, videoEntries, List.map_map]
        rfl
    · obtain ⟨entry, hentry, heq⟩ := List.mem_map.mp h
      obtain ⟨rfl, rfl⟩ := Prod.mk.inj heq
      exact ⟨_, List.mem_append_left _ (List.mem_append_right _ (List.mem_map_of_mem hentry)),
        hsamples _⟩
  · obtain ⟨entry, hentry, heq⟩ := List.mem_map.mp h
    obtain ⟨rfl, rfl⟩ := Prod.mk.inj heq
    exact ⟨_, List.mem_append_right _ (List.mem_map_of_mem hentry), hsamples _⟩

theorem recordedTimes_topics (fbb : FlatBuffers) (config : AssemblerRuntimeConfigV2)
    (episode : PendingEpisode) : (recordedTimes config episode).map Prod.fst =
      (allStreams fbb config episode).map Prod.fst := by
  simp only [recordedTimes, allStreams, List.map_append, List.map_map]
  rfl

def Numbered (times : List UInt64) (i : ℕ) (m : McapMessage) : Prop :=
  m.sequence = UInt32.ofNat (i + 1) ∧ ∃ t, times[i]? = some t ∧ m.logTime = usToNs t

/-- What a topic shows: its times in their order, numbered from one, each number once. -/
structure Shows (file : McapFile) (topic : String) (times : List UInt64) : Prop where
  numbered : ∀ m ∈ file.messages, m.topic = topic → ∃ i < times.length, Numbered times i m
  complete : ∀ i < times.length, ∃ m ∈ file.messages, m.topic = topic ∧ Numbered times i m
  last : ∀ m ∈ file.messages, m.topic = topic → IsLast file.messages m

theorem asMessages_getElem? (entries : List (UInt64 × List UInt8)) (i : ℕ) :
    (asMessages 0 entries)[i]? = entries[i]?.map fun entry =>
      ⟨UInt32.ofNat (i + 1), usToNs entry.1, usToNs entry.1, entry.2⟩ := by
  rw [asMessages, List.getElem?_map, List.getElem?_zipIdx, Option.map_map, Nat.zero_add]
  rfl

theorem number_injective {i j : ℕ} (hi : i + 1 < 2 ^ 32) (hj : j + 1 < 2 ^ 32)
    (h : UInt32.ofNat (i + 1) = UInt32.ofNat (j + 1)) : i = j := by
  have hnat := congrArg UInt32.toNat h
  rw [UInt32.toNat_ofNat_of_lt' hi, UInt32.toNat_ofNat_of_lt' hj] at hnat
  omega

theorem shows_of_filter {file : McapFile} {topic : String}
    {entries : List (UInt64 × List UInt8)} (hfew : entries.length < 2 ^ 32)
    (h : (file.messages.filter fun m => m.topic = topic) =
      (asMessages 0 entries).map (onTopic topic)) : Shows file topic (entries.map Prod.fst) := by
  -- the messages of the topic by their numbers
  have hat (m : McapMessage) : m ∈ file.messages ∧ m.topic = topic ↔
      ∃ i entry, entries[i]? = some entry ∧
        m = ⟨topic, UInt32.ofNat (i + 1), usToNs entry.1, entry.2⟩ := by
    have hfilter : m ∈ file.messages ∧ m.topic = topic ↔
        m ∈ file.messages.filter fun m => m.topic = topic := by simp
    rw [hfilter, h, List.mem_iff_getElem?]
    refine exists_congr fun i => ?_
    rw [List.getElem?_map, asMessages_getElem?, Option.map_map, Option.map_eq_some_iff]
    refine exists_congr fun entry => and_congr_right fun _ => ?_
    rw [eq_comm]
    rfl
  have hnumber {i : ℕ} {entry : UInt64 × List UInt8} (hi : entries[i]? = some entry) :
      i + 1 < 2 ^ 32 := by
    have := (List.getElem?_eq_some_iff.mp hi).1
    omega
  refine ⟨fun m hm htopic => ?_, fun i hi => ?_, fun m hm htopic => ?_⟩
  · obtain ⟨i, entry, hentry, rfl⟩ := (hat m).mp ⟨hm, htopic⟩
    refine ⟨i, ?_, rfl, entry.1, ?_, rfl⟩
    · rw [List.length_map]
      exact (List.getElem?_eq_some_iff.mp hentry).1
    · rw [List.getElem?_map, hentry, Option.map_some]
  · rw [List.length_map] at hi
    obtain ⟨hm, htopic⟩ :=
      (hat _).mpr ⟨i, entries[i], List.getElem?_eq_getElem hi, rfl⟩
    refine ⟨_, hm, htopic, rfl, entries[i].1, ?_, rfl⟩
    rw [List.getElem?_map, List.getElem?_eq_getElem hi, Option.map_some]
  · obtain ⟨m', hlast, htopic', hsequence⟩ := exists_last hm
    obtain ⟨i, entry, hi, rfl⟩ := (hat m).mp ⟨hm, htopic⟩
    obtain ⟨j, entry', hj, rfl⟩ := (hat m').mp ⟨hlast.mem, htopic'.trans htopic⟩
    obtain rfl : j = i := number_injective (hnumber hj) (hnumber hi) hsequence
    rw [hi] at hj
    obtain rfl := Option.some.inj hj
    exact hlast

end Times

section Groups
variable {α : Type} {v : Validator α} {spec : Constraints α} {sg : SyncGroup α}
  {file : McapFile} {times : String → List UInt64}

/-- The streams of a group go along with each other: none is empty, and as far as all of them go,
what has the same number in two of them is close in time. -/
structure InStep (channels : List String) (times : String → List UInt64) (maxNs : UInt64) :
    Prop where
  started : ∀ c ∈ channels, times c ≠ []
  close : ∀ i, (∀ c ∈ channels, i < (times c).length) → ∀ c ∈ channels, ∀ c' ∈ channels,
    ∀ t t', (times c)[i]? = some t → (times c')[i]? = some t' →
      (usToNs t).toNat ≤ (usToNs t').toNat + maxNs.toNat

theorem shared_iff {channels : List String} {i : ℕ} (hi : i + 1 < 2 ^ 32)
    (hfew : ∀ c ∈ channels, (times c).length < 2 ^ 32)
    (hshows : ∀ c ∈ channels, Shows file c (times c)) :
    Shared file.messages channels (UInt32.ofNat (i + 1)) ↔
      ∀ c ∈ channels, i < (times c).length := by
  refine forall₂_congr fun c hc => ?_
  constructor
  · rintro ⟨m, hm, htopic, hsequence⟩
    obtain ⟨j, hj, hnumbered, -⟩ := (hshows c hc).numbered m hm htopic
    have hsmall : j + 1 < 2 ^ 32 := by
      have := hfew c hc
      omega
    obtain rfl := number_injective hsmall hi (hnumbered.symm.trans hsequence)
    exact hj
  · intro hlength
    obtain ⟨m, hm, htopic, hnumbered, -⟩ := (hshows c hc).complete i hlength
    exact ⟨m, hm, htopic, hnumbered⟩

theorem inSync_iff {channels : List String} {maxNs : UInt64}
    (hfew : ∀ c ∈ channels, (times c).length < 2 ^ 32)
    (hshows : ∀ c ∈ channels, Shows file c (times c)) :
    InSync (IsLast file.messages) file.messages channels maxNs ↔
      InStep channels times maxNs := by
  have hsmall {c : String} (hc : c ∈ channels) {i : ℕ} (hi : i < (times c).length) :
      i + 1 < 2 ^ 32 := by
    have := hfew c hc
    omega
  constructor
  · rintro ⟨⟨s, hshared⟩, hwithin⟩
    constructor
    · intro c hc hnil
      obtain ⟨m, hm, htopic, -⟩ := hshared c hc
      obtain ⟨i, hi, -⟩ := (hshows c hc).numbered m hm htopic
      rw [hnil] at hi
      exact absurd hi (Nat.not_lt_zero i)
    · intro i hall c hc c' hc' t t' ht ht'
      obtain ⟨m, hm, rfl, hsequence, u, hu, hlogTime⟩ := (hshows c hc).complete i (hall c hc)
      obtain ⟨m', hm', rfl, hsequence', u', hu', hlogTime'⟩ :=
        (hshows c' hc').complete i (hall c' hc')
      rw [ht] at hu
      rw [ht'] at hu'
      obtain rfl := Option.some.inj hu
      obtain rfl := Option.some.inj hu'
      rw [← hlogTime, ← hlogTime']
      refine hwithin m m' ((hshows _ hc).last m hm rfl) ((hshows _ hc').last m' hm' rfl) hc hc'
        (hsequence.trans hsequence'.symm) ?_
      rw [hsequence, shared_iff (hsmall hc (hall _ hc)) hfew hshows]
      exact hall
  · rintro ⟨hstarted, hclose⟩
    constructor
    · refine ⟨UInt32.ofNat (0 + 1), (shared_iff (by decide) hfew hshows).mpr fun c hc => ?_⟩
      exact List.length_pos_of_ne_nil (hstarted c hc)
    · intro m m' hm hm' hc hc' hsequence hshared
      obtain ⟨i, hi, hnumber, t, ht, hlogTime⟩ := (hshows _ hc).numbered m hm.mem rfl
      obtain ⟨j, hj, hnumber', t', ht', hlogTime'⟩ := (hshows _ hc').numbered m' hm'.mem rfl
      obtain rfl := number_injective (hsmall hc hi) (hsmall hc' hj)
        (hnumber.symm.trans (hsequence.trans hnumber'))
      rw [hnumber, shared_iff (hsmall hc hi) hfew hshows] at hshared
      rw [hlogTime, hlogTime']
      exact hclose i hshared _ hc _ hc' t t' ht ht'

end Groups

section Staged
variable {α : Type} {v : Validator α} {spec : Constraints α} {sg : SyncGroup α}
  {b : Backends} {config : AssemblerRuntimeConfigV2} {episode : PendingEpisode}
  {bfbsDir : String} {result : StagedResult} {handed : Handed} {file : McapFile}

/-- Every topic of a staged episode shows the times that were recorded for it. -/
theorem staged_shows (hids : b.OwnIds)
    (hcameras : (config.cameras.map AssemblerCameraRuntimeConfigV2.channelId).Nodup)
    (h : stageEpisodeMcap b config bfbsDir episode = .ok (result, handed))
    (hread : ReadBack handed file) {topic : String} {times : List UInt64}
    (hfew : times.length < 2 ^ 32) (ht : (topic, times) ∈ recordedTimes config episode) :
    topic ∈ file.channels.map Prod.fst ∧ Shows file topic times := by
  have htopics := topics_nodup b.fbb episode hcameras
  obtain ⟨hlaid, -⟩ := stageEpisodeMcap_laid hids htopics h
  obtain ⟨entries, hstream, rfl⟩ :
      ∃ entries, (topic, asMessages 0 entries) ∈ allStreams b.fbb config episode ∧
        entries.map Prod.fst = times := stream_of_times ht
  constructor
  · rw [hread.channels.mem_iff, hlaid.topics]
    exact List.mem_map_of_mem hstream
  · refine shows_of_filter (by rwa [List.length_map] at hfew) ?_
    rw [hread.on_topic hlaid.tags, hlaid.on htopics _ hstream]

/-- The file of a staged episode has a channel for each of its streams, and no other. -/
theorem mem_channels_staged (hids : b.OwnIds)
    (hcameras : (config.cameras.map AssemblerCameraRuntimeConfigV2.channelId).Nodup)
    (h : stageEpisodeMcap b config bfbsDir episode = .ok (result, handed))
    (hread : ReadBack handed file) {topic : String} :
    topic ∈ file.channels.map Prod.fst ↔ topic ∈ (recordedTimes config episode).map Prod.fst := by
  have htopics := topics_nodup b.fbb episode hcameras
  obtain ⟨hlaid, -⟩ := stageEpisodeMcap_laid hids htopics h
  rw [hread.channels.mem_iff, hlaid.topics, recordedTimes_topics b.fbb]

/-- The sync groups of a specification pass on the file of a staged episode exactly if the episode has
a stream for each of their channels and the streams of each go along with each other packet by packet
and sample by sample: what is compared has the same number, whenever it was recorded. -/
theorem staged_groups_pass_iff (hids : b.OwnIds)
    (hcameras : (config.cameras.map AssemblerCameraRuntimeConfigV2.channelId).Nodup)
    (h : stageEpisodeMcap b config bfbsDir episode = .ok (result, handed))
    (hread : ReadBack handed file) {times : String → List UInt64}
    (htimes : ∀ sg ∈ spec.syncGroup, ∀ c ∈ sg.channels,
      c ∈ (recordedTimes config episode).map Prod.fst →
        (c, times c) ∈ recordedTimes config episode ∧ (times c).length < 2 ^ 32) :
    validateSyncGroups v.millis spec (scan v.readFrameTransformPair file spec false) = [] ↔
      ∀ sg ∈ spec.syncGroup,
        (∀ c ∈ sg.channels, c ∈ (recordedTimes config episode).map Prod.fst) ∧
          InStep sg.channels times (v.millis.toNs sg.maxTimeDiffMs) := by
  rw [validateSyncGroups, List.filterMap_eq_nil_iff]
  refine forall₂_congr fun sg hsg => ?_
  have hpresent : (∀ c ∈ sg.channels, c ∈ file.channels.map Prod.fst) ↔
      ∀ c ∈ sg.channels, c ∈ (recordedTimes config episode).map Prod.fst :=
    forall₂_congr fun c _ => mem_channels_staged hids hcameras h hread
  rw [groupError_eq_none hsg, hpresent]
  refine and_congr_right fun hrecorded => ?_
  have hall (c : String) (hc : c ∈ sg.channels) := htimes sg hsg c hc (hrecorded c hc)
  have hsync : InSync (IsLast file.messages) file.messages sg.channels
        (v.millis.toNs sg.maxTimeDiffMs) ↔
      InStep sg.channels times (v.millis.toNs sg.maxTimeDiffMs) :=
    inSync_iff (fun c hc => (hall c hc).2) fun c hc =>
      (staged_shows hids hcameras h hread (hall c hc).2 (hall c hc).1).2
  rw [hsync]
  by_cases hne : sg.channels = []
  · refine iff_of_true (fun h => absurd hne h) ⟨?_, ?_⟩
    · rw [hne]
      exact fun c hc => absurd hc List.not_mem_nil
    · rw [hne]
      exact fun _ _ c hc => absurd hc List.not_mem_nil
  · exact forall_prop_of_true hne

def readOf (handed : Handed) : McapFile where
  channels := handed.log.channels.map fun channel => (channel.2, {})
  messages := handed.log.messages.map fun written =>
    onTopic ((handed.log.channels.lookup written.1).getD "") written.2

theorem readOf_readBack (hdeclared : ∀ message ∈ handed.log.messages,
    message.1 ∈ handed.log.channels.map Prod.fst) : ReadBack handed (readOf handed) := by
  constructor
  · rw [readOf, List.map_map]
    rfl
  · rw [readOf, List.forall₂_map_right_iff, List.forall₂_same]
    intro written hwritten
    refine ⟨?_, rfl, rfl, rfl⟩
    obtain ⟨channel, hchannel, heq⟩ := List.mem_map.mp (hdeclared written hwritten)
    cases hlookup : handed.log.channels.lookup written.1 with
    | none =>
      have := List.lookup_eq_none_iff.mp hlookup channel hchannel
      simp [heq] at this
    | some topic =>
      obtain ⟨before, after, hsplit, -⟩ := List.lookup_eq_some_iff.mp hlookup
      rw [hsplit]
      exact List.mem_append_right _ List.mem_cons_self

/-- A camera and an arm that may be a millisecond apart. -/
def videoAndArm : Constraints ℕ where
  syncGroup := [{ channels := ["/camera/top/video", "/observation/arm/joint_position"]
                  maxTimeDiffMs := 1 }]

def sampleTimes (topic : String) : List UInt64 :=
  if topic = "/camera/top/video" then [1000, 2000] else [1500]

theorem sampleTimes_recorded : ∀ sg ∈ videoAndArm.syncGroup, ∀ c ∈ sg.channels,
    (c, sampleTimes c) ∈ recordedTimes mcapConfig mcapEpisode ∧
      (sampleTimes c).length < 2 ^ 32 := by decide +kernel

theorem sampleTimes_inStep : ∀ sg ∈ videoAndArm.syncGroup,
    InStep sg.channels sampleTimes (wholeMillis.toNs sg.maxTimeDiffMs) := by
  intro sg hsg
  obtain rfl := List.mem_singleton.mp hsg
  constructor
  · decide
  · intro i hall c hc c' hc' t t' ht ht'
    have hi : i = 0 := by
      have harm : i < [(1500 : UInt64)].length := hall "/observation/arm/joint_position" (by decide)
      exact Nat.lt_one_iff.mp harm
    subst hi
    have hclose : ∀ c ∈ ["/camera/top/video", "/observation/arm/joint_position"],
        ∀ c' ∈ ["/camera/top/video", "/observation/arm/joint_position"],
        (usToNs ((sampleTimes c).headD 0)).toNat ≤
          (usToNs ((sampleTimes c').headD 0)).toNat + (wholeMillis.toNs 1).toNat := by
      decide +kernel
    have hhead {c : String} {t : UInt64} (h : (sampleTimes c)[0]? = some t) :
        (sampleTimes c).headD 0 = t := by
      rw [List.headD_eq_head?_getD, List.head?_eq_getElem?, h, Option.getD_some]
    have := hclose c hc c' hc'
    rwa [hhead ht, hhead ht'] at this

/-- The arm, and a camera that the episode does not have. -/
def wristAndArm : Constraints ℕ where
  syncGroup := [{ channels := ["/camera/wrist/video", "/observation/arm/joint_position"]
                  maxTimeDiffMs := 1 }]

/-- Two packets and one sample: the first packet is half a millisecond from the sample, and the
second has no partner. A group with another camera fails. -/
theorem sample_groups_pass : ∃ result handed,
    stageEpisodeMcap willing mcapConfig "bfbs" mcapEpisode = .ok (result, handed) ∧
      validateSyncGroups wholeMillis videoAndArm
        (scan (fun _ => none) (readOf handed) videoAndArm false) = [] ∧
      validateSyncGroups wholeMillis wristAndArm
        (scan (fun _ => none) (readOf handed) wristAndArm false) ≠ [] := by
  obtain ⟨⟨result, handed⟩, hstage⟩ :
      ∃ r, stageEpisodeMcap willing mcapConfig "bfbs" mcapEpisode = .ok r := ⟨_, rfl⟩
  have hnodup : (mcapConfig.cameras.map AssemblerCameraRuntimeConfigV2.channelId).Nodup := by
    decide
  have hlaid := (stageEpisodeMcap_laid willing_ownIds
    (topics_nodup willing.fbb mcapEpisode hnodup) hstage).1
  have hread := readOf_readBack hlaid.declared
  refine ⟨result, handed, hstage, ?_, fun hpass => ?_⟩
  · exact (staged_groups_pass_iff (v := ⟨wholeMillis, fun _ => none, id⟩) willing_ownIds hnodup
      hstage hread fun sg hsg c hc _ => sampleTimes_recorded sg hsg c hc).mpr fun sg hsg =>
        ⟨fun c hc => List.mem_map_of_mem (sampleTimes_recorded sg hsg c hc).1,
          sampleTimes_inStep sg hsg⟩
  · have htimes : ∀ sg ∈ wristAndArm.syncGroup, ∀ c ∈ sg.channels,
        c ∈ (recordedTimes mcapConfig mcapEpisode).map Prod.fst →
          (c, sampleTimes c) ∈ recordedTimes mcapConfig mcapEpisode ∧
            (sampleTimes c).length < 2 ^ 32 := by decide +kernel
    have hwrist := ((staged_groups_pass_iff (v := ⟨wholeMillis, fun _ => none, id⟩) willing_ownIds
      hnodup hstage hread htimes).mp hpass _ List.mem_cons_self).1 "/camera/wrist/video" (by decide)
    exact absurd hwrist (by decide +kernel)

end Staged

end StagedValidation
