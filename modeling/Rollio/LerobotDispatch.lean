import Rollio.LerobotEpisodeManager
import Rollio.PartialRuns

/-! What one dispatch does. Three index lists come from a single scan and are worked off in
turn while the slot count moves; each entry leaves the manager with exactly one outcome. -/
namespace LerobotDispatch
open BusMessages RuntimeConfig Clocks LerobotDataset LerobotEpisodeManager OrderedTables PartialRuns

def stagedInputs (sent : List WorkerCommand) : List EpisodeAssemblyInput :=
  sent.filterMap fun
    | .stage input => some input
    | .shutdown => none

@[simp] theorem stagedInputs_append (l m : List WorkerCommand) :
    stagedInputs (l ++ m) = stagedInputs l ++ stagedInputs m := List.filterMap_append

@[simp] theorem stagedInputs_stages (inputs : List EpisodeAssemblyInput) :
    stagedInputs (inputs.map .stage) = inputs := by
  simp [stagedInputs, List.filterMap_map]

def stagedIndices (sent : List WorkerCommand) : List UInt32 :=
  (stagedInputs sent).map (·.episodeIndex)

@[simp] theorem stagedIndices_nil : stagedIndices [] = [] := rfl

@[simp] theorem stagedIndices_append (l m : List WorkerCommand) :
    stagedIndices (l ++ m) = stagedIndices l ++ stagedIndices m := by
  simp [stagedIndices]

@[simp] theorem stagedIndices_stages (inputs : List EpisodeAssemblyInput) :
    stagedIndices (inputs.map .stage) = inputs.map (·.episodeIndex) := by
  simp [stagedIndices]

@[simp] theorem stagedIndices_stage (input : EpisodeAssemblyInput) :
    stagedIndices [.stage input] = [input.episodeIndex] := rfl

def droppedIndices (notices : List DropNotice) : List UInt32 :=
  notices.map (·.episodeIndex)

def Keyed (m : EpisodeManager) : Prop :=
  ∀ (i : UInt32) (e : PendingEpisode), m.episodes[i]? = some e → e.episodeIndex = i

section Keyed
variable {m : EpisodeManager}

theorem keyed_iff :
    Keyed m ↔ ∀ entry ∈ m.episodes.toList, entry.2.episodeIndex = entry.1 := by
  constructor
  · intro h entry hentry
    exact h entry.1 entry.2 (Std.TreeMap.mem_toList_iff_getElem?_eq_some.mp hentry)
  · intro h i e he
    exact h (i, e) (Std.TreeMap.mem_toList_iff_getElem?_eq_some.mpr he)

instance (m : EpisodeManager) : Decidable (Keyed m) :=
  @decidable_of_iff _ _ keyed_iff.symm (List.decidableBAll _ _)

theorem Keyed.of_entries {m' : EpisodeManager} (h : Keyed m)
    (hl : ∀ (i : UInt32) (e' : PendingEpisode), m'.episodes[i]? = some e' →
      ∃ e, m.episodes[i]? = some e ∧ e'.episodeIndex = e.episodeIndex) : Keyed m' := by
  intro i e' he'
  obtain ⟨e, he, hs⟩ := hl i e' he'
  exact hs.trans (h i e he)

theorem Keyed.onControlEvent (h : Keyed m) (event : ControlEvent) (nowUs : UInt64) :
    Keyed (m.onControlEvent event nowUs).2 := by
  intro i e' he'
  obtain ⟨ts, -, rfl⟩ | ⟨e, he, hs⟩ := EpisodeManager.onControlEvent_entry he'
  · rfl
  · exact hs.episodeIndex.trans (h i e he)

theorem Keyed.onPacket (h : Keyed m) (channelId : String) (header : EncodedPacketHeader)
    (payload : List UInt8) : Keyed (m.onPacket channelId header payload) := by
  intro i e' he'
  rw [EpisodeManager.onPacket_lookup] at he'
  split at he'
  · obtain ⟨e, he, rfl⟩ := Option.map_eq_some_iff.mp he'
    exact (e.onPacket_episodeIndex _ _).trans (h i e he)
  · exact h i e' he'

theorem Keyed.onObservation (h : Keyed m) (channelId : String) (stateKind : RobotStateKind)
    (timestampUs : UInt64) (values : List Float) :
    Keyed (m.onObservation channelId stateKind timestampUs values) :=
  h.of_entries fun i e' he' => by
    obtain ⟨e, he, hs⟩ := EpisodeManager.onObservation_lookup he'
    exact ⟨e, he, hs.episodeIndex⟩

theorem Keyed.onAction (h : Keyed m) (channelId : String) (commandKind : RobotCommandKind)
    (timestampUs : UInt64) (values : List Float) :
    Keyed (m.onAction channelId commandKind timestampUs values) :=
  h.of_entries fun i e' he' => by
    obtain ⟨e, he, hs⟩ := EpisodeManager.onAction_lookup he'
    exact ⟨e, he, hs.episodeIndex⟩

end Keyed

/-- Everything but the pending episodes and the slots taken is left alone; an entry that
stays is unchanged, and one that goes has one outcome. -/
structure Dispatched (m : EpisodeManager) (worker : Sender) (nowUs : UInt64) (d : Dispatch) :
    Prop where
  config : d.manager.config = m.config
  cameraChannelIds : d.manager.cameraChannelIds = m.cameraChannelIds
  activeEpisodeIndex : d.manager.activeEpisodeIndex = m.activeEpisodeIndex
  stagingSlots : d.manager.stagingSlots = m.stagingSlots
  staleAfter : d.manager.staleAfter = m.staleAfter
  connected : d.worker.connected = worker.connected
  survives : ∀ (i : UInt32) (e : PendingEpisode),
    d.manager.episodes[i]? = some e → m.episodes[i]? = some e
  dropped : ∀ notice ∈ d.outcome.dropped, notice.episodeIndex ∈ m.episodes
  slots : m.inFlight.size ≤ m.stagingSlots → d.manager.inFlight.size ≤ m.stagingSlots
  sent : ∃ inputs : List EpisodeAssemblyInput,
    d.worker.sent = worker.sent ++ inputs.map .stage ∧
    (∀ i, i ∈ d.manager.inFlight ↔ i ∈ m.inFlight ∨ i ∈ inputs.map (·.episodeIndex)) ∧
    ∀ input ∈ inputs, ∃ e : PendingEpisode, m.episodes[input.episodeIndex]? = some e ∧
      verdict m nowUs e = .ready ∧ input = e.asAssemblyInput

/-- How often `i` is pending, dropped or staged. -/
def fates (d : Dispatch) (i : UInt32) : ℕ :=
  (if i ∈ d.manager.episodes then 1 else 0) + (droppedIndices d.outcome.dropped).count i +
    (stagedIndices d.worker.sent).count i

section Steps
variable {d r : Dispatch} {i j : UInt32} {now : UInt32 → Instant} {reason : String}

theorem discard_cases (reason : String) (d : Dispatch) (i : UInt32) :
    (i ∉ d.manager.episodes ∧ d.discard reason i = d) ∨
      (i ∈ d.manager.episodes ∧ d.discard reason i = (d.remove i).notify ⟨i, reason, false⟩) := by
  by_cases hi : i ∈ d.manager.episodes
  · exact Or.inr ⟨hi, if_pos hi⟩
  · exact Or.inl ⟨hi, if_neg hi⟩

/-- Everything one round of the ready loop can do. -/
theorem stage_cases (h : d.stage now i = .ok r) :
    (i ∉ d.manager.episodes ∧ r = d) ∨
      ∃ e, d.manager.episodes[i]? = some e ∧
        ((d.manager.stagingSlots ≤ d.manager.inFlight.size ∧
            r = (d.remove i).notify ⟨i, "staging_slots_full", true⟩) ∨
          (d.manager.inFlight.size < d.manager.stagingSlots ∧ d.worker.connected = true ∧
            r = (d.remove i).send (now i) i e)) := by
  unfold Dispatch.stage at h
  cases he : d.manager.episodes[i]? with
  | none =>
    rw [he] at h
    cases h
    exact Or.inl ⟨not_mem_iff_lookup.mpr he, rfl⟩
  | some e =>
    refine Or.inr ⟨e, rfl, ?_⟩
    simp only [he] at h
    by_cases hfull : (d.remove i).manager.stagingSlots ≤ (d.remove i).manager.inFlight.size
    · rw [if_pos hfull] at h
      cases h
      exact Or.inl ⟨hfull, rfl⟩
    · rw [if_neg hfull] at h
      by_cases hc : d.worker.connected = true
      · rw [if_neg (by simp [hc])] at h
        cases h
        exact Or.inr ⟨by simpa using hfull, hc, rfl⟩
      · rw [if_pos (by simp [hc])] at h
        cases h

theorem stage_connected (hc : d.worker.connected = true) (now : UInt32 → Instant)
    (i : UInt32) : ∃ r, d.stage now i = .ok r ∧ r.worker.connected = true := by
  unfold Dispatch.stage
  cases d.manager.episodes[i]? with
  | none => exact ⟨d, rfl, hc⟩
  | some e =>
    by_cases hfull : d.manager.stagingSlots ≤ d.manager.inFlight.size
    · exact ⟨_, if_pos hfull, hc⟩
    · refine ⟨(d.remove i).send (now i) i e, ?_, hc⟩
      simp [hfull, hc]

/-- Whatever holds before the three loops and survives each round holds afterwards. -/
theorem dispatch_induction {P : Dispatch → Prop} {m : EpisodeManager} {worker : Sender}
    {nowUs : UInt64} (start : P ⟨m, worker, {}⟩)
    (discard : ∀ reason d i, i ∈ m.episodes → P d → P (d.discard reason i))
    (stage : ∀ d i r, i ∈ scan m nowUs .ready → P d → d.stage now i = .ok r → P r)
    (h : dispatchReadyEpisodes m worker nowUs now = .ok r) : P r := by
  have hscan : ∀ v, ∀ i ∈ scan m nowUs v, i ∈ m.episodes := fun v i hi => by
    obtain ⟨e, he, -⟩ := mem_scan.mp hi
    exact mem_iff_lookup.mpr ⟨e, he⟩
  refine foldlM_preserves (fun i hi d r => stage d i r hi) ?_ h
  refine foldl_preserves (fun i hi d => discard _ d i (hscan .timedOut i hi)) ?_
  exact foldl_preserves (fun i hi d => discard _ d i (hscan .failed i hi)) start

theorem dispatch_connected {m : EpisodeManager} {worker : Sender}
    (hc : worker.connected = true) (nowUs : UInt64) (now : UInt32 → Instant) :
    ∃ r, dispatchReadyEpisodes m worker nowUs now = .ok r := by
  have hdiscard : ∀ reason (d : Dispatch) i, d.worker.connected = true →
      (d.discard reason i).worker.connected = true := fun reason d i h => by
    obtain ⟨-, he⟩ | ⟨-, he⟩ := discard_cases reason d i <;> rw [he] <;> exact h
  obtain ⟨r, hr, -⟩ := foldlM_total (P := fun d : Dispatch => d.worker.connected = true)
    (l := scan m nowUs .ready) (fun i _ d h => stage_connected h now i)
    (foldl_preserves (fun i _ d => hdiscard _ d i) (foldl_preserves (l := scan m nowUs .failed)
      (fun i _ d => hdiscard "packet_stream_failure" d i) (s := ⟨m, worker, {}⟩) hc))
  exact ⟨r, hr⟩

theorem dispatched_start (m : EpisodeManager) (worker : Sender) (nowUs : UInt64) :
    Dispatched m worker nowUs ⟨m, worker, {}⟩ := by
  refine ⟨rfl, rfl, rfl, rfl, rfl, rfl, fun _ _ h => h, by simp, id, [], by simp, by simp, ?_⟩
  simp

theorem remove_entries {P : UInt32 → PendingEpisode → Prop}
    (h : ∀ (j : UInt32) (e : PendingEpisode), d.manager.episodes[j]? = some e → P j e) :
    ∀ (j : UInt32) (e : PendingEpisode), (d.remove i).manager.episodes[j]? = some e → P j e := by
  intro j e he
  rw [Dispatch.remove_episodes, lookup_erase] at he
  split at he
  · cases he
  · exact h j e he

theorem Dispatched.drop {m : EpisodeManager} {worker : Sender} {nowUs : UInt64}
    (h : Dispatched m worker nowUs d) (hi : i ∈ m.episodes) (reason : String)
    (backpressure : Bool) :
    Dispatched m worker nowUs ((d.remove i).notify ⟨i, reason, backpressure⟩) where
  config := h.config
  cameraChannelIds := h.cameraChannelIds
  activeEpisodeIndex := h.activeEpisodeIndex
  stagingSlots := h.stagingSlots
  staleAfter := h.staleAfter
  connected := h.connected
  survives := remove_entries h.survives
  dropped := by
    intro notice hn
    rcases List.mem_append.mp hn with hn | hn
    · exact h.dropped notice hn
    · rw [List.mem_singleton.mp hn]
      exact hi
  slots := h.slots
  sent := h.sent

theorem Dispatched.send {m : EpisodeManager} {worker : Sender} {nowUs : UInt64} {t : Instant}
    {e : PendingEpisode} (h : Dispatched m worker nowUs d) (hm : Keyed m)
    (he : m.episodes[i]? = some e) (hv : verdict m nowUs e = .ready)
    (hfree : d.manager.inFlight.size < d.manager.stagingSlots) :
    Dispatched m worker nowUs ((d.remove i).send t i e) where
  config := h.config
  cameraChannelIds := h.cameraChannelIds
  activeEpisodeIndex := h.activeEpisodeIndex
  stagingSlots := h.stagingSlots
  staleAfter := h.staleAfter
  connected := h.connected
  survives := remove_entries h.survives
  dropped := h.dropped
  slots := fun _ => by
    rw [h.stagingSlots] at hfree
    exact Std.TreeMap.size_insert_le.trans hfree
  sent := by
    obtain ⟨inputs, hsent, hin, horigin⟩ := h.sent
    have hkey : e.asAssemblyInput.episodeIndex = i := hm i e he
    refine ⟨inputs ++ [e.asAssemblyInput], by simp [hsent], fun j => ?_, fun input hinput => ?_⟩
    · rw [Dispatch.send_inFlight, Dispatch.remove_inFlight, mem_insert, hin, List.map_append,
        List.mem_append, List.map_singleton, List.mem_singleton, hkey]
      tauto
    · rcases List.mem_append.mp hinput with hinput | hinput
      · exact horigin input hinput
      · rw [List.mem_singleton.mp hinput]
        exact ⟨e, by rw [hkey]; exact he, hv, rfl⟩

theorem dispatched {m : EpisodeManager} {worker : Sender} {nowUs : UInt64} (hm : Keyed m)
    (h : dispatchReadyEpisodes m worker nowUs now = .ok r) : Dispatched m worker nowUs r := by
  refine dispatch_induction (dispatched_start m worker nowUs) ?_ ?_ h
  · intro reason d i hi hd
    obtain ⟨-, he⟩ | ⟨-, he⟩ := discard_cases reason d i
    · rwa [he]
    · rw [he]
      exact hd.drop hi reason false
  · intro d i r hi hd hr
    obtain ⟨e, he, hv⟩ := mem_scan.mp hi
    obtain ⟨-, rfl⟩ | ⟨e', he', ⟨-, rfl⟩ | ⟨hfree, -, rfl⟩⟩ := stage_cases hr
    · exact hd
    · exact hd.drop (mem_iff_lookup.mpr ⟨e, he⟩) _ true
    · obtain rfl : e' = e := Option.some.inj ((hd.survives i e' he').symm.trans he)
      exact hd.send hm he (by simpa using hv) hfree

theorem fates_drop (hi : i ∈ d.manager.episodes) (reason : String) (backpressure : Bool) :
    fates ((d.remove i).notify ⟨i, reason, backpressure⟩) j = fates d j := by
  by_cases hj : j = i
  · subst hj
    simp [fates, droppedIndices, hi]
    omega
  · simp [fates, droppedIndices, Ne.symm hj]

theorem fates_send {e : PendingEpisode} {t : Instant} (hi : i ∈ d.manager.episodes)
    (hkey : e.episodeIndex = i) : fates ((d.remove i).send t i e) j = fates d j := by
  have he : e.asAssemblyInput.episodeIndex = i := hkey
  by_cases hj : j = i
  · subst hj
    simp [fates, hi, he]
    omega
  · simp [fates, he, Ne.symm hj]

/-- A dispatch moves fates around and neither adds nor loses one. -/
theorem dispatch_fates {m : EpisodeManager} {worker : Sender} {nowUs : UInt64} (hm : Keyed m)
    (h : dispatchReadyEpisodes m worker nowUs now = .ok r) (j : UInt32) :
    fates r j = fates ⟨m, worker, {}⟩ j := by
  have hkeyed : Keyed r.manager ∧ fates r j = fates ⟨m, worker, {}⟩ j := by
    refine dispatch_induction (P := fun d => Keyed d.manager ∧ fates d j = fates ⟨m, worker, {}⟩ j)
      ⟨hm, rfl⟩ ?_ ?_ h
    · rintro reason d i - ⟨hk, hf⟩
      obtain ⟨-, he⟩ | ⟨hi, he⟩ := discard_cases reason d i
      · rw [he]
        exact ⟨hk, hf⟩
      · rw [he]
        exact ⟨remove_entries hk, (fates_drop hi reason false).trans hf⟩
    · rintro d i r - ⟨hk, hf⟩ hr
      obtain ⟨-, rfl⟩ | ⟨e, he, ⟨-, rfl⟩ | ⟨-, -, rfl⟩⟩ := stage_cases hr
      · exact ⟨hk, hf⟩
      · exact ⟨remove_entries hk, (fates_drop (mem_iff_lookup.mpr ⟨e, he⟩) _ true).trans hf⟩
      · exact ⟨remove_entries hk,
          (fates_send (mem_iff_lookup.mpr ⟨e, he⟩) (hk i e he)).trans hf⟩
  exact hkeyed.2

/-- With a free slot for each of them, the listed episodes are all handed over. -/
theorem stage_all {l : List UInt32} (hnodup : l.Nodup) (hk : Keyed d.manager)
    (hmem : ∀ i ∈ l, i ∈ d.manager.episodes)
    (hroom : l.length + d.manager.inFlight.size ≤ d.manager.stagingSlots)
    (h : l.foldlM (Dispatch.stage now) d = .ok r) :
    ∀ i, i ∈ stagedIndices d.worker.sent ∨ i ∈ l → i ∈ stagedIndices r.worker.sent := by
  induction l generalizing d with
  | nil =>
    cases h
    intro i hi
    simpa using hi
  | cons j l ih =>
    obtain ⟨hj, hl⟩ := List.nodup_cons.mp hnodup
    rw [List.foldlM_cons] at h
    rw [List.length_cons] at hroom
    cases hs : d.stage now j with
    | error e =>
      rw [hs] at h
      cases h
    | ok u =>
      rw [hs] at h
      have hjd := hmem j List.mem_cons_self
      obtain ⟨hno, -⟩ | ⟨e, he, ⟨hfull, -⟩ | ⟨-, -, rfl⟩⟩ := stage_cases hs
      · exact absurd hjd hno
      · omega
      · have hkey : e.asAssemblyInput.episodeIndex = j := hk j e he
        have hsize : (d.manager.inFlight.insert j (now j)).size ≤ d.manager.inFlight.size + 1 :=
          Std.TreeMap.size_insert_le
        intro i hi
        refine ih (d := (d.remove j).send (now j) j e) hl (remove_entries hk) (fun a ha => ?_) ?_ h i ?_
        · rw [Dispatch.send_episodes, Dispatch.remove_episodes, mem_erase]
          exact ⟨fun haj => hj (haj ▸ ha), hmem a (List.mem_cons_of_mem j ha)⟩
        · rw [Dispatch.send_inFlight, Dispatch.remove_inFlight, Dispatch.send_stagingSlots,
            Dispatch.remove_stagingSlots]
          omega
        · rw [Dispatch.send_sent, stagedIndices_append, stagedIndices_stage, hkey,
            List.mem_append, List.mem_singleton]
          rw [List.mem_cons] at hi
          tauto

theorem discard_frame (reason : String) (d : Dispatch) (i : UInt32) :
    (d.discard reason i).manager.inFlight = d.manager.inFlight ∧
      (d.discard reason i).manager.stagingSlots = d.manager.stagingSlots ∧
      (∀ j, j ∈ (d.discard reason i).manager.episodes ↔ j ∈ d.manager.episodes ∧ j ≠ i) ∧
      (Keyed d.manager → Keyed (d.discard reason i).manager) := by
  obtain ⟨hi, he⟩ | ⟨-, he⟩ := discard_cases reason d i <;> rw [he]
  · refine ⟨rfl, rfl, fun j => ?_, id⟩
    constructor
    · intro hj
      exact ⟨hj, fun hji => hi (hji ▸ hj)⟩
    · exact And.left
  · refine ⟨rfl, rfl, fun j => ?_, fun hk => remove_entries hk⟩
    rw [Dispatch.notify_manager, Dispatch.remove_episodes, mem_erase, and_comm]

theorem discards_frame (reason : String) (d : Dispatch) (l : List UInt32) :
    (l.foldl (Dispatch.discard reason) d).manager.inFlight = d.manager.inFlight ∧
      (l.foldl (Dispatch.discard reason) d).manager.stagingSlots = d.manager.stagingSlots ∧
      (∀ j, j ∈ (l.foldl (Dispatch.discard reason) d).manager.episodes ↔
        j ∈ d.manager.episodes ∧ j ∉ l) ∧
      (Keyed d.manager → Keyed (l.foldl (Dispatch.discard reason) d).manager) := by
  induction l generalizing d with
  | nil => simp
  | cons i l ih =>
    obtain ⟨hf, hs, hm, hk⟩ := discard_frame reason d i
    obtain ⟨hf', hs', hm', hk'⟩ := ih (d.discard reason i)
    refine ⟨hf'.trans hf, hs'.trans hs, fun j => ?_, fun h => hk' (hk h)⟩
    rw [List.foldl_cons, hm', hm, List.mem_cons, not_or, and_assoc]

def Room (m : EpisodeManager) (nowUs : UInt64) : Prop :=
  (scan m nowUs .ready).length + m.inFlight.size ≤ m.stagingSlots

instance (m : EpisodeManager) (nowUs : UInt64) : Decidable (Room m nowUs) :=
  inferInstanceAs (Decidable (_ ≤ _))

theorem scan_verdict {m : EpisodeManager} {nowUs : UInt64} {v w : Verdict} (hvw : v ≠ w)
    (hi : i ∈ scan m nowUs v) : i ∉ scan m nowUs w := by
  intro hw
  obtain ⟨e, he, hv⟩ := mem_scan.mp hi
  obtain ⟨e', he', hv'⟩ := mem_scan.mp hw
  obtain rfl := Option.some.inj (he.symm.trans he')
  exact hvw ((of_decide_eq_true hv).symm.trans (of_decide_eq_true hv'))

/-- A dispatch with room for all ready episodes hands every one of them over. -/
theorem ready_staged {m : EpisodeManager} {worker : Sender} {nowUs : UInt64} (hm : Keyed m)
    (hroom : Room m nowUs) (h : dispatchReadyEpisodes m worker nowUs now = .ok r)
    (hi : i ∈ scan m nowUs .ready) : i ∈ stagedIndices r.worker.sent := by
  obtain ⟨hf, hs, hmem, hk⟩ := discards_frame "packet_stream_failure" ⟨m, worker, {}⟩
    (scan m nowUs .failed)
  obtain ⟨hf', hs', hmem', hk'⟩ := discards_frame "missing_end_of_stream"
    ((scan m nowUs .failed).foldl (Dispatch.discard "packet_stream_failure") ⟨m, worker, {}⟩)
    (scan m nowUs .timedOut)
  refine stage_all (l := scan m nowUs .ready) (scan_nodup _) (hk' (hk hm)) (fun j hj => ?_) ?_ h i
    (Or.inr hi)
  · obtain ⟨e, he, -⟩ := mem_scan.mp hj
    rw [hmem', hmem]
    exact ⟨⟨mem_iff_lookup.mpr ⟨e, he⟩, scan_verdict (by simp) hj⟩, scan_verdict (by simp) hj⟩
  · rw [hf', hf, hs', hs]
    exact hroom

theorem stages_remaining {l : List UInt32} (h : l.foldlM (Dispatch.stage now) d = .ok r) :
    (∀ j, j ∈ r.manager.episodes → j ∈ d.manager.episodes ∧ j ∉ l) ∧
      ∀ (j : UInt32) (e : PendingEpisode), j ∉ l → d.manager.episodes[j]? = some e →
        r.manager.episodes[j]? = some e := by
  induction l generalizing d with
  | nil =>
    cases h
    simp
  | cons i l ih =>
    rw [List.foldlM_cons] at h
    cases hs : d.stage now i with
    | error e =>
      rw [hs] at h
      cases h
    | ok u =>
      rw [hs] at h
      obtain ⟨hgone, hstay⟩ := ih h
      have hu : (∀ j, j ∈ u.manager.episodes → j ∈ d.manager.episodes ∧ j ≠ i) ∧
          ∀ (j : UInt32) (e : PendingEpisode), j ≠ i → d.manager.episodes[j]? = some e →
            u.manager.episodes[j]? = some e := by
        obtain ⟨hno, rfl⟩ | ⟨e, he, ⟨-, rfl⟩ | ⟨-, -, rfl⟩⟩ := stage_cases hs
        · exact ⟨fun j hj => ⟨hj, fun hji => hno (hji ▸ hj)⟩, fun j e _ he => he⟩
        · refine ⟨fun j hj => (mem_erase.mp hj).symm, fun j e hji he => ?_⟩
          rw [Dispatch.notify_manager, Dispatch.remove_episodes, lookup_erase, if_neg hji]
          exact he
        · refine ⟨fun j hj => (mem_erase.mp hj).symm, fun j e hji he => ?_⟩
          rw [Dispatch.send_episodes, Dispatch.remove_episodes, lookup_erase, if_neg hji]
          exact he
      constructor
      · intro j hj
        obtain ⟨hju, hjl⟩ := hgone j hj
        obtain ⟨hjd, hji⟩ := hu.1 j hju
        exact ⟨hjd, by simp [hji, hjl]⟩
      · intro j e hj he
        rw [List.mem_cons, not_or] at hj
        exact hstay j e hj.2 (hu.2 j e hj.1 he)

theorem discards_lookup (reason : String) (d : Dispatch) (l : List UInt32) {j : UInt32}
    {e : PendingEpisode} (hj : j ∉ l) (he : d.manager.episodes[j]? = some e) :
    (l.foldl (Dispatch.discard reason) d).manager.episodes[j]? = some e := by
  refine foldl_preserves (P := fun d : Dispatch => d.manager.episodes[j]? = some e) ?_ he
  intro i hi d hd
  have hji : j ≠ i := fun hji => hj (hji ▸ hi)
  obtain ⟨-, he⟩ | ⟨-, he⟩ := discard_cases reason d i <;> rw [he]
  · exact hd
  · rw [Dispatch.notify_manager, Dispatch.remove_episodes, lookup_erase, if_neg hji]
    exact hd

theorem waiting_survives {m : EpisodeManager} {worker : Sender} {nowUs : UInt64}
    {e : PendingEpisode} (h : dispatchReadyEpisodes m worker nowUs now = .ok r)
    (he : m.episodes[i]? = some e) (hv : verdict m nowUs e = .waiting) :
    r.manager.episodes[i]? = some e := by
  have hscan (v : Verdict) (hne : v ≠ .waiting) : i ∉ scan m nowUs v := by
    intro hi
    obtain ⟨e', he', hv'⟩ := mem_scan.mp hi
    obtain rfl := Option.some.inj (he.symm.trans he')
    exact hne ((of_decide_eq_true hv').symm.trans hv)
  refine (stages_remaining (l := scan m nowUs .ready) h).2 i e (hscan _ (by simp)) ?_
  refine discards_lookup _ _ _ (hscan .timedOut (by simp)) ?_
  exact discards_lookup _ _ _ (hscan .failed (by simp)) he

theorem dispatch_waiting {m : EpisodeManager} {worker : Sender} {nowUs : UInt64}
    (h : dispatchReadyEpisodes m worker nowUs now = .ok r) (hi : i ∈ r.manager.episodes) :
    ∃ e, m.episodes[i]? = some e ∧ verdict m nowUs e = .waiting := by
  obtain ⟨hlast, hready⟩ := (stages_remaining (l := scan m nowUs .ready) h).1 i hi
  obtain ⟨-, -, hmem, -⟩ := discards_frame "packet_stream_failure" ⟨m, worker, {}⟩
    (scan m nowUs .failed)
  obtain ⟨-, -, hmem', -⟩ := discards_frame "missing_end_of_stream"
    ((scan m nowUs .failed).foldl (Dispatch.discard "packet_stream_failure") ⟨m, worker, {}⟩)
    (scan m nowUs .timedOut)
  obtain ⟨hmid, htimed⟩ := (hmem' i).mp hlast
  obtain ⟨hfirst, hfailed⟩ := (hmem i).mp hmid
  obtain ⟨e, he⟩ := mem_iff_lookup.mp hfirst
  refine ⟨e, he, ?_⟩
  have hscan (v : Verdict) (hno : i ∉ scan m nowUs v) : verdict m nowUs e ≠ v :=
    fun hv => hno (mem_scan.mpr ⟨e, he, decide_eq_true hv⟩)
  cases hv : verdict m nowUs e with
  | waiting => rfl
  | ready => exact absurd hv (hscan _ hready)
  | failed => exact absurd hv (hscan _ hfailed)
  | timedOut => exact absurd hv (hscan _ htimed)

end Steps

end LerobotDispatch
