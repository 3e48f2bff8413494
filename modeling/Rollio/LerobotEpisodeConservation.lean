import Rollio.LerobotDispatch

/-! Runs of the episode manager. A run records what leaves the manager beside the worker's
commands: drop notices and discards. Every started episode has one fate at each moment. -/
namespace LerobotEpisodeConservation
open BusMessages RuntimeConfig Clocks LerobotDataset LerobotEpisodeManager LerobotDispatch
open OrderedTables PartialRuns

inductive ManagerCall where
  | controlEvent (event : ControlEvent) (nowUs : UInt64)
  | observation (channelId : String) (stateKind : RobotStateKind) (timestampUs : UInt64)
      (values : List Float)
  | action (channelId : String) (commandKind : RobotCommandKind) (timestampUs : UInt64)
      (values : List Float)
  | packet (channelId : String) (header : EncodedPacketHeader) (payload : List UInt8)
  | dispatch (nowUs : UInt64) (now : UInt32 → Instant)
  | releaseSlot (episodeIndex : UInt32)
  | sweepStaleSlots (now : Instant)

structure ManagerRun where
  manager : EpisodeManager
  worker : Sender := {}
  notices : List DropNotice := []
  discarded : List UInt32 := []

def discardsOf (m : EpisodeManager) : ControlEvent → List UInt32
  | .episodeDiscard i => if i ∈ m.episodes then [i] else []
  | _ => []

def call (r : ManagerRun) : ManagerCall → Except String ManagerRun
  | .controlEvent event nowUs => .ok { r with
      manager := (r.manager.onControlEvent event nowUs).2
      discarded := r.discarded ++ discardsOf r.manager event }
  | .observation channelId stateKind timestampUs values =>
    .ok { r with manager := r.manager.onObservation channelId stateKind timestampUs values }
  | .action channelId commandKind timestampUs values =>
    .ok { r with manager := r.manager.onAction channelId commandKind timestampUs values }
  | .packet channelId header payload =>
    .ok { r with manager := r.manager.onPacket channelId header payload }
  | .dispatch nowUs now =>
    match dispatchReadyEpisodes r.manager r.worker nowUs now with
    | .error (text, _) => .error text
    | .ok d => .ok { r with
        manager := d.manager
        worker := d.worker
        notices := r.notices ++ d.outcome.dropped }
  | .releaseSlot i => .ok { r with manager := (r.manager.releaseSlot i).2 }
  | .sweepStaleSlots now => .ok { r with manager := (r.manager.sweepStaleSlots now).2 }

def runCalls (config : AssemblerRuntimeConfigV2) (calls : List ManagerCall) :
    Except String ManagerRun :=
  calls.foldlM call ⟨.new config, {}, [], []⟩

def startIndex? : ManagerCall → Option UInt32
  | .controlEvent (.recordingStart i _) _ => some i
  | _ => none

def startIndices (calls : List ManagerCall) : List UInt32 := calls.filterMap startIndex?

theorem startIndices_concat (calls : List ManagerCall) (c : ManagerCall) :
    startIndices (calls ++ [c]) = startIndices calls ++ (startIndex? c).toList := by
  cases hc : startIndex? c <;> simp [startIndices, hc]

def ManagerRun.fates (r : ManagerRun) (i : UInt32) : ℕ :=
  (if i ∈ r.manager.episodes then 1 else 0) + r.discarded.count i +
    (droppedIndices r.notices).count i + (stagedIndices r.worker.sent).count i

/-- The state after a run whose starts, in order, are `starts`. -/
structure Invariant (slots : ℕ) (starts : List UInt32) (r : ManagerRun) : Prop where
  stagingSlots : r.manager.stagingSlots = slots
  connected : r.worker.connected = true
  keyed : Keyed r.manager
  slots_bound : r.manager.inFlight.size ≤ slots
  inFlight_staged : ∀ i ∈ r.manager.inFlight, i ∈ stagedIndices r.worker.sent
  fates : ∀ i, r.fates i = starts.count i

theorem initial_invariant (config : AssemblerRuntimeConfigV2) :
    Invariant config.stagingSlots.toNat [] ⟨.new config, {}, [], []⟩ where
  stagingSlots := rfl
  connected := rfl
  keyed := by simp [Keyed, EpisodeManager.new]
  slots_bound := Nat.zero_le _
  inFlight_staged := by simp [EpisodeManager.new]
  fates := by simp [ManagerRun.fates, EpisodeManager.new, droppedIndices]

theorem Invariant.intake {slots : ℕ} {starts : List UInt32} {r : ManagerRun}
    {m : EpisodeManager} (h : Invariant slots starts r) (hf : r.manager.Frame m)
    (hk : Keyed m) (hm : ∀ i, i ∈ m.episodes ↔ i ∈ r.manager.episodes) :
    Invariant slots starts { r with manager := m } where
  stagingSlots := hf.stagingSlots.trans h.stagingSlots
  connected := h.connected
  keyed := hk
  slots_bound := hf.inFlight ▸ h.slots_bound
  inFlight_staged := hf.inFlight ▸ h.inFlight_staged
  fates := fun i => by simpa [ManagerRun.fates, hm] using h.fates i

theorem Invariant.controlEvent {slots : ℕ} {starts : List UInt32} {r : ManagerRun}
    (h : Invariant slots starts r) {event : ControlEvent} {nowUs : UInt64}
    (hnew : ∀ i ∈ startIndex? (.controlEvent event nowUs), i ∉ starts) :
    Invariant slots (starts ++ (startIndex? (.controlEvent event nowUs)).toList) { r with
      manager := (r.manager.onControlEvent event nowUs).2
      discarded := r.discarded ++ discardsOf r.manager event } where
  stagingSlots := (EpisodeManager.frame_onControlEvent ..).stagingSlots.trans h.stagingSlots
  connected := h.connected
  keyed := h.keyed.onControlEvent event nowUs
  slots_bound := by
    simpa only [(EpisodeManager.frame_onControlEvent r.manager event nowUs).inFlight] using
      h.slots_bound
  inFlight_staged := by
    simpa only [(EpisodeManager.frame_onControlEvent r.manager event nowUs).inFlight] using
      h.inFlight_staged
  fates := by
    intro i
    have hi := h.fates i
    cases event <;>
      simp only [ManagerRun.fates, EpisodeManager.mem_onControlEvent, startIndex?, discardsOf,
        Option.toList_none, Option.toList_some, List.append_nil] at hi hnew ⊢
    case recordingStart k ts =>
      by_cases hk : i = k
      · -- the index is new, so the entry it opens is its first fate
        subst hk
        have hzero := List.count_eq_zero.mpr (hnew i rfl)
        have hone : List.count i (starts ++ [i]) = starts.count i + 1 := by simp
        simp only [true_or, ↓reduceIte, hone]
        omega
      · simpa [hk, Ne.symm hk] using hi
    case episodeDiscard k =>
      by_cases hk : i = k
      · subst hk
        by_cases hm : i ∈ r.manager.episodes <;> simp [hm] at hi ⊢ <;> omega
      · by_cases hm : k ∈ r.manager.episodes <;> simpa [hm, hk, Ne.symm hk] using hi
    all_goals exact hi

theorem Invariant.dispatch {slots : ℕ} {starts : List UInt32} {r : ManagerRun}
    (h : Invariant slots starts r) {nowUs : UInt64} {now : UInt32 → Instant} {d : Dispatch}
    (hd : dispatchReadyEpisodes r.manager r.worker nowUs now = .ok d) :
    Invariant slots starts { r with
      manager := d.manager
      worker := d.worker
      notices := r.notices ++ d.outcome.dropped } := by
  have hspec := dispatched h.keyed hd
  obtain ⟨inputs, hsent, hin, -⟩ := hspec.sent
  refine ⟨hspec.stagingSlots.trans h.stagingSlots, hspec.connected.trans h.connected,
    fun i e he => h.keyed i e (hspec.survives i e he), ?_, fun i hi => ?_, fun i => ?_⟩
  · rw [← h.stagingSlots]
    exact hspec.slots (h.stagingSlots ▸ h.slots_bound)
  · rw [hsent, stagedIndices_append, stagedIndices_stages, List.mem_append]
    exact ((hin i).mp hi).imp_left (h.inFlight_staged i)
  · have hi := h.fates i
    have hf := dispatch_fates h.keyed hd i
    simp only [ManagerRun.fates, LerobotDispatch.fates, droppedIndices, List.map_append,
      List.count_append, List.map_nil, List.count_nil] at hi hf ⊢
    omega

theorem Invariant.release {slots : ℕ} {starts : List UInt32} {r : ManagerRun}
    {inFlight : Std.TreeMap UInt32 Instant} (h : Invariant slots starts r)
    (hsize : inFlight.size ≤ r.manager.inFlight.size)
    (hin : ∀ i ∈ inFlight, i ∈ r.manager.inFlight) :
    Invariant slots starts { r with manager := { r.manager with inFlight := inFlight } } where
  stagingSlots := h.stagingSlots
  connected := h.connected
  keyed := h.keyed
  slots_bound := hsize.trans h.slots_bound
  inFlight_staged := fun i hi => h.inFlight_staged i (hin i hi)
  fates := h.fates

theorem call_preserves_invariant {slots : ℕ} {starts : List UInt32} {r : ManagerRun}
    (h : Invariant slots starts r) {c : ManagerCall}
    (hnew : ∀ i ∈ startIndex? c, i ∉ starts) :
    ∃ t, call r c = .ok t ∧ Invariant slots (starts ++ (startIndex? c).toList) t := by
  have hkeep {t : ManagerRun} (ht : Invariant slots starts t) :
      Invariant slots (starts ++ (none : Option UInt32).toList) t := by simpa using ht
  cases c with
  | controlEvent event nowUs => exact ⟨_, rfl, h.controlEvent hnew⟩
  | observation channelId stateKind timestampUs values =>
    exact ⟨_, rfl, hkeep (h.intake (EpisodeManager.frame_onObservation ..)
      (h.keyed.onObservation _ _ _ _) (EpisodeManager.mem_onObservation _ _ _ _ _))⟩
  | action channelId commandKind timestampUs values =>
    exact ⟨_, rfl, hkeep (h.intake (EpisodeManager.frame_onAction ..)
      (h.keyed.onAction _ _ _ _) (EpisodeManager.mem_onAction _ _ _ _ _))⟩
  | packet channelId header payload =>
    exact ⟨_, rfl, hkeep (h.intake (EpisodeManager.frame_onPacket ..)
      (h.keyed.onPacket _ _ _) (EpisodeManager.mem_onPacket _ _ _ _))⟩
  | dispatch nowUs now =>
    obtain ⟨d, hd⟩ := dispatch_connected (m := r.manager) h.connected nowUs now
    exact ⟨_, by simp only [call, hd], hkeep (h.dispatch hd)⟩
  | releaseSlot i =>
    exact ⟨_, rfl, hkeep (h.release Std.TreeMap.size_erase_le fun j hj => (mem_erase.mp hj).2)⟩
  | sweepStaleSlots now =>
    exact ⟨_, rfl, hkeep (h.release size_foldl_erase_le fun j hj => (mem_foldl_erase.mp hj).2)⟩

theorem run_invariant (config : AssemblerRuntimeConfigV2) (calls : List ManagerCall)
    (hstart : (startIndices calls).Nodup) :
    ∃ r, runCalls config calls = .ok r ∧
      Invariant config.stagingSlots.toNat (startIndices calls) r := by
  induction calls using List.reverseRecOn with
  | nil => exact ⟨_, rfl, initial_invariant config⟩
  | append_singleton calls c ih =>
    rw [startIndices_concat, List.nodup_append'] at hstart
    obtain ⟨r, hr, hinv⟩ := ih hstart.1
    have hnew : ∀ i ∈ startIndex? c, i ∉ startIndices calls := fun i hi hm =>
      hstart.2.2 hm (by simpa using hi)
    obtain ⟨t, ht, hinv'⟩ := call_preserves_invariant hinv hnew
    refine ⟨t, ?_, startIndices_concat calls c ▸ hinv'⟩
    unfold runCalls at hr ⊢
    rw [List.foldlM_append, hr]
    change (call r c >>= pure) = _
    rw [ht]
    rfl

/-- Slots stay within the configured number, a pending episode holds no slot, and each
started episode is pending, discarded, dropped or staged, exactly once. -/
theorem episodes_conserved (config : AssemblerRuntimeConfigV2) (calls : List ManagerCall)
    (hstart : (startIndices calls).Nodup) :
    ∃ r, runCalls config calls = .ok r ∧
      r.manager.inFlight.size ≤ config.stagingSlots.toNat ∧
      (∀ i, ¬ (i ∈ r.manager.episodes ∧ i ∈ r.manager.inFlight)) ∧
      ∀ i, r.fates i = if i ∈ startIndices calls then 1 else 0 := by
  obtain ⟨r, hr, h⟩ := run_invariant config calls hstart
  have hone : ∀ i, r.fates i = if i ∈ startIndices calls then 1 else 0 := fun i => by
    rw [h.fates, hstart.count]
  refine ⟨r, hr, h.slots_bound, fun i hi => ?_, hone⟩
  have hstaged := List.count_pos_iff.mpr (h.inFlight_staged i hi.2)
  have hle : r.fates i ≤ 1 := by
    rw [hone]
    split <;> omega
  simp only [ManagerRun.fates, hi.1, ↓reduceIte] at hle
  omega

def sampleConfig : AssemblerRuntimeConfigV2 where
  processId := "assembler"
  format := .leRobotV21
  fps := 30
  chunkSize := 1000
  missingEosTimeoutMs := 5000
  stagingDir := "/staging"
  stagingSlots := 1
  cameras := [⟨"cam0", 64, 48, 30, .rgb24, .h264, "cam0/packets"⟩]
  observations := []
  actions := []
  embeddedConfigToml := "[project]"

def keptEpisode (i : UInt32) : List ManagerCall :=
  [.controlEvent (.recordingStart i 10) 10,
    .packet "cam0" { flags := 1, episodeIndex := i } [1],
    .packet "cam0" { kind := .endOfStream, sequenceNumber := 1, episodeIndex := i } [],
    .controlEvent (.recordingStop i 20) 20, .controlEvent (.episodeKeep i) 30]

def sampleCalls : List ManagerCall :=
  keptEpisode 0 ++ keptEpisode 1 ++
    [.dispatch 40 fun _ => 0, .controlEvent (.recordingStart 2 50) 50,
      .controlEvent (.episodeDiscard 2) 60]

theorem sample_episodes_conserved :
    ∃ r, runCalls sampleConfig sampleCalls = .ok r ∧ r.manager.inFlight.size ≤ 1 ∧
      (∀ i, ¬ (i ∈ r.manager.episodes ∧ i ∈ r.manager.inFlight)) ∧
      ∀ i, r.fates i = if i ∈ startIndices sampleCalls then 1 else 0 :=
  episodes_conserved sampleConfig sampleCalls (by decide)

example : (runCalls sampleConfig sampleCalls).toOption.map (fun r =>
    (r.manager.inFlight.keys, droppedIndices r.notices, r.discarded)) =
      some ([0], [1], [2]) := by decide

end LerobotEpisodeConservation
