import Rollio.LerobotEpisodeConservation

/-! From the packet handler to the muxer. The packet path never records a codec
configuration, and the muxer asks for one before anything else. -/
namespace LerobotMuxing
open BusMessages RuntimeConfig Clocks PacketDeliveries LerobotPackets LerobotDataset
open LerobotEpisodeManager LerobotDispatch LerobotEpisodeConservation OrderedTables PartialRuns

def Streams (P : RecordingStreamBuffer → Prop)
    (streams : Std.TreeMap String RecordingStreamBuffer) : Prop :=
  ∀ (id : String) (b : RecordingStreamBuffer), streams[id]? = some b → P b

/-- Every stream that is still pending or was staged satisfies `P`. -/
structure RunStreams (P : RecordingStreamBuffer → Prop) (r : ManagerRun) : Prop where
  keyed : Keyed r.manager
  pending : ∀ (i : UInt32) (e : PendingEpisode), r.manager.episodes[i]? = some e →
    Streams P e.cameraStreams
  staged : ∀ input ∈ stagedInputs r.worker.sent, Streams P input.cameraStreams

section Preservation
variable {P : RecordingStreamBuffer → Prop}

theorem streams_new (h0 : P {}) (i : UInt32) (startTimeUs : UInt64) (channelIds : List String) :
    Streams P (PendingEpisode.new i startTimeUs channelIds).cameraStreams := by
  refine foldl_preserves (P := Streams P) (fun channelId _ streams hs id b hb => ?_) ?_
  · rw [lookup_insert] at hb
    split at hb
    · cases hb
      exact h0
    · exact hs id b hb
  · intro id b hb
    simp at hb

theorem streams_onPacket (hstep : ∀ b d, P b → P (observe b d)) {e : PendingEpisode}
    (he : Streams P e.cameraStreams) (channelId : String) (d : Delivery) :
    Streams P (e.onPacket channelId d).cameraStreams := by
  unfold PendingEpisode.onPacket
  cases hb : e.cameraStreams[channelId]? with
  | none => exact he
  | some buffer =>
    intro id b hid
    simp only [lookup_insert] at hid
    split at hid
    · cases hid
      exact hstep buffer d (he channelId buffer hb)
    · exact he id b hid

theorem RunStreams.dispatch {r : ManagerRun} (h : RunStreams P r) {nowUs : UInt64}
    {now : UInt32 → Instant} {d : Dispatch}
    (hd : dispatchReadyEpisodes r.manager r.worker nowUs now = .ok d) :
    RunStreams P { r with
      manager := d.manager
      worker := d.worker
      notices := r.notices ++ d.outcome.dropped } := by
  have hspec := dispatched h.keyed hd
  obtain ⟨inputs, hsent, -, horigin⟩ := hspec.sent
  refine ⟨fun i e he => h.keyed i e (hspec.survives i e he),
    fun i e he => h.pending i e (hspec.survives i e he), fun input hinput => ?_⟩
  simp only [hsent, stagedInputs_append, stagedInputs_stages, List.mem_append] at hinput
  rcases hinput with hinput | hinput
  · exact h.staged input hinput
  · obtain ⟨e, he, -, heq⟩ := horigin input hinput
    rw [heq]
    exact h.pending _ e he

theorem RunStreams.entries {r : ManagerRun} (h : RunStreams P r) {m : EpisodeManager}
    (hk : Keyed m) (hm : ∀ (i : UInt32) (e' : PendingEpisode), m.episodes[i]? = some e' →
      ∃ e, r.manager.episodes[i]? = some e ∧ e'.cameraStreams = e.cameraStreams) :
    RunStreams P { r with manager := m } := by
  refine ⟨hk, fun i e' he' => ?_, h.staged⟩
  obtain ⟨e, he, hs⟩ := hm i e' he'
  rw [hs]
  exact h.pending i e he

theorem call_preserves_streams (h0 : P {}) (hstep : ∀ b d, P b → P (observe b d))
    {r t : ManagerRun} {c : ManagerCall} (h : RunStreams P r) (hc : call r c = .ok t) :
    RunStreams P t := by
  cases c with
  | controlEvent event nowUs =>
    cases hc
    refine ⟨h.keyed.onControlEvent event nowUs, fun i e' he' => ?_, h.staged⟩
    obtain ⟨ts, -, rfl⟩ | ⟨e, he, hs⟩ := EpisodeManager.onControlEvent_entry he'
    · exact streams_new h0 i ts _
    · rw [hs.cameraStreams]
      exact h.pending i e he
  | observation channelId stateKind timestampUs values =>
    cases hc
    refine h.entries (h.keyed.onObservation _ _ _ _) fun i e' he' => ?_
    obtain ⟨e, he, hs⟩ := EpisodeManager.onObservation_lookup he'
    exact ⟨e, he, hs.cameraStreams⟩
  | action channelId commandKind timestampUs values =>
    cases hc
    refine h.entries (h.keyed.onAction _ _ _ _) fun i e' he' => ?_
    obtain ⟨e, he, hs⟩ := EpisodeManager.onAction_lookup he'
    exact ⟨e, he, hs.cameraStreams⟩
  | packet channelId header payload =>
    cases hc
    refine ⟨h.keyed.onPacket _ _ _, fun i e' he' => ?_, h.staged⟩
    rw [EpisodeManager.onPacket_lookup] at he'
    split at he'
    · obtain ⟨e, he, rfl⟩ := Option.map_eq_some_iff.mp he'
      exact streams_onPacket hstep (h.pending i e he) channelId _
    · exact h.pending i e' he'
  | dispatch nowUs now =>
    simp only [call] at hc
    split at hc
    · cases hc
    · next d hd =>
      cases hc
      exact h.dispatch hd
  | releaseSlot i =>
    cases hc
    exact ⟨h.keyed, h.pending, h.staged⟩
  | sweepStaleSlots now =>
    cases hc
    exact ⟨h.keyed, h.pending, h.staged⟩

theorem run_streams (h0 : P {}) (hstep : ∀ b d, P b → P (observe b d))
    {config : AssemblerRuntimeConfigV2} {calls : List ManagerCall} {r : ManagerRun}
    (h : runCalls config calls = .ok r) : RunStreams P r := by
  refine foldlM_preserves (fun c _ s t hs hc => call_preserves_streams h0 hstep hs hc) ?_ h
  constructor
  · simp [Keyed, EpisodeManager.new]
  · simp [EpisodeManager.new]
  · simp [stagedInputs]

end Preservation

theorem updateSequence_ok {b c : RecordingStreamBuffer} {s : UInt64}
    (h : b.updateSequence s = .ok c) : c = { b with lastSequence := some s } := by
  unfold RecordingStreamBuffer.updateSequence at h
  split at h
  · cases h
    rfl
  · split at h <;> cases h
    rfl

/-- Neither a packet nor an end-of-stream marker sets the codec configuration. -/
theorem observe_config (b : RecordingStreamBuffer) (d : Delivery) :
    (observe b d).config = b.config := by
  cases d with
  | packet header payload =>
    simp only [observe, RecordingStreamBuffer.observePacket]
    split
    · rfl
    split
    · rfl
    cases hu : { b with seenKeyframe := true }.updateSequence header.sequenceNumber with
    | error e => rfl
    | ok c => rw [updateSequence_ok hu]
  | eos header =>
    simp only [observe, RecordingStreamBuffer.observeEos]
    split
    · rfl
    cases hu : b.updateSequence header.sequenceNumber with
    | error e => rfl
    | ok c => rw [updateSequence_ok hu]

def stagedBy (config : AssemblerRuntimeConfigV2) (calls : List ManagerCall) :
    List EpisodeAssemblyInput :=
  match runCalls config calls with
  | .ok r => stagedInputs r.worker.sent
  | .error _ => []

theorem staged_streams_unconfigured (config : AssemblerRuntimeConfigV2)
    (calls : List ManagerCall) :
    ∀ input ∈ stagedBy config calls, Streams (·.config = none) input.cameraStreams := by
  intro input hi
  unfold stagedBy at hi
  split at hi
  · next r h =>
    exact (run_streams (P := fun b => b.config = none) rfl
      (fun b d hb => (observe_config b d).trans hb) h).staged input hi
  · cases hi

/-- Every configured camera stream was received whole. -/
def StreamsComplete (config : AssemblerRuntimeConfigV2) (input : EpisodeAssemblyInput) : Prop :=
  ∀ camera ∈ config.cameras, input.cameraStreams[camera.channelId]?.any (·.isComplete) = true

instance (config : AssemblerRuntimeConfigV2) (input : EpisodeAssemblyInput) :
    Decidable (StreamsComplete config input) :=
  inferInstanceAs (Decidable (∀ camera ∈ config.cameras, _ = true))

/-- Staging never fails for want of a codec configuration, whatever the file system does. -/
def MuxesEveryStream (config : AssemblerRuntimeConfigV2) (input : EpisodeAssemblyInput) : Prop :=
  ∀ io, ∀ e ∈ missingConfig, stageEpisode io config input ≠ .error e

def StreamsConfigured (config : AssemblerRuntimeConfigV2) (input : EpisodeAssemblyInput) :
    Prop :=
  ∀ camera ∈ config.cameras, input.cameraStreams[camera.channelId]?.all (·.config.isSome) = true

instance (config : AssemblerRuntimeConfigV2) (input : EpisodeAssemblyInput) :
    Decidable (StreamsConfigured config input) :=
  inferInstanceAs (Decidable (∀ camera ∈ config.cameras, _ = true))

theorem ofIo_error {α : Type} {x : Except String α} {e : StageError}
    (h : ofIo x = .error e) : ∃ cause, e = .io cause := by
  cases x with
  | error cause =>
    cases h
    exact ⟨cause, rfl⟩
  | ok a => cases h

theorem bind_error {ε α β : Type} {x : Except ε α} {f : α → Except ε β} {e : ε}
    (h : (x >>= f) = .error e) : x = .error e ∨ ∃ a, x = .ok a ∧ f a = .error e := by
  cases x with
  | error e' =>
    cases h
    exact Or.inl rfl
  | ok a => exact Or.inr ⟨a, rfl, h⟩

theorem stage_without_cameras {io : StageIo} {config : AssemblerRuntimeConfigV2}
    {input : EpisodeAssemblyInput} {e : StageError} (hc : config.cameras = [])
    (h : stageEpisode io config input = .error e) : ∃ cause, e = .io cause := by
  unfold stageEpisode at h
  simp only [hc] at h
  rcases bind_error h with h | ⟨-, -, h⟩
  · exact ofIo_error h
  rcases bind_error h with h | ⟨frames, -, h⟩
  · exact ofIo_error h
  rcases bind_error h with h | ⟨-, -, h⟩
  · cases h
  rcases bind_error h with h | ⟨-, -, h⟩
  · exact ofIo_error h
  rcases bind_error h with h | ⟨-, -, h⟩
  · exact ofIo_error h
  · cases h

/-- A complete stream without a configuration stops staging at its camera. -/
theorem stage_unconfigured {config : AssemblerRuntimeConfigV2} {input : EpisodeAssemblyInput}
    {camera : AssemblerCameraRuntimeConfigV2} {rest : List AssemblerCameraRuntimeConfigV2}
    {stream : RecordingStreamBuffer} (hc : config.cameras = camera :: rest)
    (hs : input.cameraStreams[camera.channelId]? = some stream)
    (hcomplete : stream.isComplete = true) (hnone : stream.config = none) :
    stageEpisode .reliable config input =
      .error (.message "stream is missing Config packet; cannot pick container") := by
  have hcam (dir : String) : stageCamera .reliable dir config input camera =
      .error (.message "stream is missing Config packet; cannot pick container") := by
    simp only [stageCamera, hs, hcomplete, muxCameraStream, hnone]
    rfl
  have hfor (dir : String) : (camera :: rest).forM (stageCamera .reliable dir config input) =
      .error (.message "stream is missing Config packet; cannot pick container") := by
    rw [List.forM, hcam]
    rfl
  unfold stageEpisode
  simp only [hc, hfor]
  rfl

theorem complete_stream {config : AssemblerRuntimeConfigV2} {input : EpisodeAssemblyInput}
    (h : StreamsComplete config input) {camera : AssemblerCameraRuntimeConfigV2}
    (hc : camera ∈ config.cameras) :
    ∃ stream, input.cameraStreams[camera.channelId]? = some stream ∧
      stream.isComplete = true := by
  simpa [Option.any_eq_true] using h camera hc

/-- The muxer gets what it needs exactly when there is nothing to mux. -/
theorem muxes_iff_no_cameras (config : AssemblerRuntimeConfigV2) (calls : List ManagerCall)
    (input : EpisodeAssemblyInput) (hi : input ∈ stagedBy config calls)
    (hcomplete : StreamsComplete config input) :
    (MuxesEveryStream config input ↔ config.cameras = []) ∧
      (StreamsConfigured config input ↔ config.cameras = []) := by
  have hnone := staged_streams_unconfigured config calls input hi
  refine ⟨⟨fun hm => ?_, fun hc io e he hstage => ?_⟩, fun hm => ?_, fun hc => ?_⟩
  · cases hc : config.cameras with
    | nil => rfl
    | cons camera rest =>
      have hm' : camera ∈ config.cameras := by simp [hc]
      obtain ⟨stream, hs, hwhole⟩ := complete_stream hcomplete hm'
      exact absurd (stage_unconfigured hc hs hwhole (hnone _ _ hs))
        (hm .reliable _ (by simp [missingConfig]))
  · obtain ⟨cause, rfl⟩ := stage_without_cameras hc hstage
    simp [missingConfig] at he
  · cases hc : config.cameras with
    | nil => rfl
    | cons camera rest =>
      have hmem : camera ∈ config.cameras := by simp [hc]
      obtain ⟨stream, hs, -⟩ := complete_stream hcomplete hmem
      have hconf := hm camera hmem
      simp [hs, hnone _ _ hs] at hconf
  · simp [StreamsConfigured, hc]

def completeCalls : List ManagerCall := keptEpisode 0 ++ [.dispatch 40 fun _ => 0]

theorem completeCalls_staged : (stagedBy sampleConfig completeCalls).length = 1 ∧
    ∀ input ∈ stagedBy sampleConfig completeCalls, StreamsComplete sampleConfig input := by
  decide

theorem completeCalls_muxes_iff : (stagedBy sampleConfig completeCalls).length = 1 ∧
    ∀ input ∈ stagedBy sampleConfig completeCalls,
      (MuxesEveryStream sampleConfig input ↔ sampleConfig.cameras = []) ∧
        (StreamsConfigured sampleConfig input ↔ sampleConfig.cameras = []) :=
  ⟨completeCalls_staged.1, fun input hi => muxes_iff_no_cameras sampleConfig completeCalls input hi
    (completeCalls_staged.2 input hi)⟩

/-- The accepted episode above cannot be muxed, and its stream has no configuration. -/
theorem complete_episode_unmuxable : ¬ ∀ config calls,
    config.validate = .ok () → ∀ input ∈ stagedBy config calls, StreamsComplete config input →
      MuxesEveryStream config input ∧ StreamsConfigured config input := by
  intro hall
  obtain ⟨hlen, hcomplete⟩ := completeCalls_staged
  obtain ⟨input, he⟩ := List.length_eq_one_iff.mp hlen
  have hi : input ∈ stagedBy sampleConfig completeCalls := by simp [he]
  obtain ⟨hm, -⟩ := hall sampleConfig completeCalls (by decide) input hi (hcomplete input hi)
  obtain ⟨stream, hs, hwhole⟩ := complete_stream (hcomplete input hi) List.mem_cons_self
  have hnone := staged_streams_unconfigured sampleConfig completeCalls input hi _ stream hs
  exact hm .reliable _ (by simp [missingConfig]) (stage_unconfigured rfl hs hwhole hnone)

end LerobotMuxing
