import Rollio.EpisodeWhereabouts

/-! Whether a blocked start is ever released. Back-pressure blocks, an outcome or a discard
releases, and the two travel on different topics: a release must still be to come whenever a
back-pressure message is taken. -/
namespace BackpressureLockout
open BusMessages RuntimeConfig Clocks ControllerEpisode LerobotEpisodeManager LerobotDispatch
open OrderedTables Queues PartialRuns ControlEvents CollectPipeline PipelineTopics
open TerminalOutcomes EpisodeWhereabouts
open CollectLoop (Controller ControllerAction Gate applyBackpressureEvents_eq
  applyEpisodeDroppedEvents_eq applyEpisodeStoredEvents applyEpisodeStoredEvents_blocked
  applyEpisodeStoredEvents_records collectControlEvents_blocked collectControlEvents_stored)
open AssemblerProcess (Assembler AssemblerAction)
open StorageProcess (StorageAction)

/-- A started episode the controller has not seen the end of. -/
def Unsettled (c : Controller) (i : UInt32) : Prop :=
  .episodeDiscard i ∉ c.emitted ∧ i ∉ c.gate.lifecycle.storedEpisodeIndices ∧
    i ∉ droppedTopic c.dropped.received

instance (c : Controller) (i : UInt32) : Decidable (Unsettled c i) :=
  inferInstanceAs (Decidable (_ ∧ _ ∧ _))

/-- A stored notice that will be counted. -/
def Counts (c : Controller) (event : EpisodeStored) : Prop :=
  event.episodeIndex < c.gate.lifecycle.nextEpisodeIndex ∧
    event.episodeIndex ∉ c.gate.lifecycle.storedEpisodeIndices

instance (c : Controller) (event : EpisodeStored) : Decidable (Counts c event) :=
  inferInstanceAs (Decidable (_ ∧ _))

/-- Something that releases the block is on its way or has still to be decided. -/
def ReleaseToCome (c : Controller) : Prop :=
  (∃ i ∈ startIndices c.emitted, Unsettled c i) ∨ c.dropped.pending ≠ [] ∨
    ∃ event ∈ c.stored.pending, Counts c event

instance (c : Controller) : Decidable (ReleaseToCome c) :=
  inferInstanceAs (Decidable (_ ∨ _ ∨ _))

/-- Back-pressure is taken only while a release is to come. -/
def TimelyBackpressure (s : State) : Action → Prop
  | .controller (.drainBackpressure n) =>
    s.controller.backpressure.pending.take n = [] ∨ ReleaseToCome s.controller
  | _ => True

instance (s : State) (a : Action) : Decidable (TimelyBackpressure s a) := by
  unfold TimelyBackpressure
  split <;> infer_instance

/-- The operator cannot start, and nothing is left that would change it: the loop polls an
idle lifecycle, no outcome and no control event is in flight, and the assembler has no kept
episode and no slot in use, or is gone. -/
structure LockedOut (s : State) : Prop where
  polling : s.controller.phase ≠ .exited
  blocked : s.controller.gate.startBlocked = true
  idle : s.controller.gate.lifecycle.state = .idle
  stored : s.controller.stored.pending = []
  dropped : s.controller.dropped.pending = []
  control : s.assembler.control.pending = []
  settled : s.assembler.phase = .exited ∨
    (∀ entry ∈ s.assembler.manager.episodes.toList, entry.2.keepRequested = false) ∧
      s.assembler.manager.inFlight.isEmpty = true

section Controller
variable {c : Controller}

theorem ReleaseToCome.publishDropped (h : ReleaseToCome c) (events : List EpisodeDropped) :
    ReleaseToCome { c with dropped := c.dropped.publish events } := by
  refine h.imp_right (Or.imp_left fun hd => ?_)
  simp [hd]

theorem ReleaseToCome.publishStored (h : ReleaseToCome c) (events : List EpisodeStored) :
    ReleaseToCome { c with stored := c.stored.publish events } := by
  refine h.imp_right (Or.imp_right ?_)
  rintro ⟨event, he, hn⟩
  exact ⟨event, List.mem_append_left _ he, hn⟩

theorem drainStored_release {n : ℕ} (h : c.gate.startBlocked = true → ReleaseToCome c)
    (hb : (c.drainStored n).gate.startBlocked = true) : ReleaseToCome (c.drainStored n) := by
  obtain ⟨hg, hold⟩ := applyEpisodeStoredEvents_blocked c.gate (c.stored.pending.take n) hb
  have hgate : (c.drainStored n).gate = c.gate := hg
  have hblocked : c.gate.startBlocked = true := hgate ▸ hb
  rcases h hblocked with ⟨i, hi, hu⟩ | hd | ⟨event, he, hlt, hnew⟩
  · exact Or.inl ⟨i, hi, hu.1, hgate ▸ hu.2.1, hu.2.2⟩
  · exact Or.inr (Or.inl hd)
  · refine Or.inr (Or.inr ⟨event, ?_, hgate ▸ hlt, hgate ▸ hnew⟩)
    rw [← List.take_append_drop n c.stored.pending] at he
    rcases List.mem_append.mp he with he | he
    · rcases hold event he with hle | hm
      · exact absurd hlt (UInt32.not_lt.mpr hle)
      · exact absurd hm hnew
    · exact he

theorem drainDropped_release {n : ℕ} (h : c.gate.startBlocked = true → ReleaseToCome c)
    (hb : (c.drainDropped n).gate.startBlocked = true) : ReleaseToCome (c.drainDropped n) := by
  simp only [Controller.drainDropped, applyEpisodeDroppedEvents_eq, Bool.and_eq_true,
    List.isEmpty_iff] at hb
  have hq : c.dropped.take n = c.dropped := by
    have hdrop : c.dropped.pending.drop n = c.dropped.pending := by
      simpa [hb.2] using List.take_append_drop n c.dropped.pending
    simp [Queue.take, hb.2, hdrop]
  rcases h hb.1 with ⟨i, hi, hu⟩ | hd | hs
  · exact Or.inl ⟨i, hi, hu.1, hu.2.1, by simpa [Controller.drainDropped, hq] using hu.2.2⟩
  · exact Or.inr (Or.inl (by simpa [Controller.drainDropped, hq] using hd))
  · exact Or.inr (Or.inr hs)

theorem drainCommands_release {commands : List (EpisodeCommand × UInt64)}
    {now statusNow : Instant} (h : c.gate.startBlocked = true → ReleaseToCome c)
    (hb : (c.drainCommands commands now statusNow).gate.startBlocked = true) :
    ReleaseToCome (c.drainCommands commands now statusNow) := by
  obtain ⟨hblocked, hquiet⟩ := collectControlEvents_blocked now hb
  have hst := collectControlEvents_stored now c.gate commands
  rcases h hblocked with ⟨i, hi, hd, hs, hr⟩ | hd | ⟨event, he, hlt, hnew⟩
  · refine Or.inl ⟨i, ?_, fun hm => ?_, ?_, hr⟩
    · simp only [Controller.drainCommands, startIndices_append]
      exact List.mem_append_left _ hi
    · rcases List.mem_append.mp hm with hm | hm
      · exact hd hm
      · have := (hquiet _ hm).2
        cases this
    · exact hst.symm ▸ hs
  · exact Or.inr (Or.inl hd)
  · refine Or.inr (Or.inr ⟨event, he, ?_, hst.symm ▸ hnew⟩)
    exact UInt32.lt_of_lt_of_le hlt
      (CollectLoop.collectControlEvents_next_le now c.gate commands)

/-- A block is released in time if back-pressure comes in time. -/
theorem next_release {a : ControllerAction} (h : c.gate.startBlocked = true → ReleaseToCome c)
    (hok : ∀ n, a = .drainBackpressure n →
      c.backpressure.pending.take n = [] ∨ ReleaseToCome c)
    (hb : (CollectLoop.next c a).1.gate.startBlocked = true) :
    ReleaseToCome (CollectLoop.next c a).1 := by
  cases a with
  | drainBackpressure n =>
    rcases hok n rfl with he | hr
    · refine h ?_
      simpa [CollectLoop.next, Controller.drainBackpressure, he,
        CollectLoop.applyBackpressureEvents] using hb
    · exact hr
  | drainStored n => exact drainStored_release h hb
  | drainDropped n => exact drainDropped_release h hb
  | drainCommands commands now statusNow => exact drainCommands_release h hb
  | exit => exact h hb

end Controller

structure Invariant (config : AssemblerRuntimeConfigV2) (n₀ : ℕ) (s : State) : Prop extends
    Whereabouts config n₀ s where
  release : s.controller.gate.startBlocked = true → ReleaseToCome s.controller
  recorded : ∀ i ∈ storedIndices s.controller.stored.received,
    i ∈ s.controller.gate.lifecycle.storedEpisodeIndices

theorem initial_invariant (config : AssemblerRuntimeConfigV2) (nextIndex prior : UInt32)
    (queueSize : String → ℕ) :
    Invariant config nextIndex.toNat (initial config nextIndex prior queueSize) where
  toWhereabouts := initial_whereabouts config nextIndex prior queueSize
  release := by simp [initial, Controller.initial]
  recorded := by simp [initial, Controller.initial, storedIndices]

section Steps
variable {config : AssemblerRuntimeConfigV2} {n₀ : ℕ} {s : State}

theorem stored_passed (h : Whereabouts config n₀ s) :
    ∀ event ∈ s.controller.stored.log,
      event.episodeIndex < s.controller.gate.lifecycle.nextEpisodeIndex := fun _ he =>
  protocol_kept_bound h.protocol
    (h.kept _ (mem_handedOn.mpr (Or.inr (Or.inr (List.mem_map_of_mem he)))))

theorem next_recorded (h : Invariant config n₀ s) (a : ControllerAction) :
    ∀ i ∈ storedIndices (CollectLoop.next s.controller a).1.stored.received,
      i ∈ (CollectLoop.next s.controller a).1.gate.lifecycle.storedEpisodeIndices := by
  cases a with
  | drainStored n =>
    obtain ⟨hsub, hmem⟩ := applyEpisodeStoredEvents_records s.controller.gate
      (s.controller.stored.pending.take n) fun event he =>
        stored_passed h.toWhereabouts event
          (List.mem_append_right _ (List.mem_of_mem_take he))
    intro i hi
    simp only [CollectLoop.next, Controller.drainStored, Queue.take, storedIndices,
      List.map_append] at hi ⊢
    rcases List.mem_append.mp hi with hi | hi
    · exact hsub (h.recorded i hi)
    · obtain ⟨event, he, rfl⟩ := List.mem_map.mp hi
      exact hmem event he
  | drainCommands commands now statusNow =>
    intro i hi
    have hst := collectControlEvents_stored now s.controller.gate commands
    exact hst.symm ▸ h.recorded i hi
  | _ => exact h.recorded

theorem next_preserves_invariant (h : Invariant config n₀ s) {a : Action} (ha : Enabled s a)
    (hok : TimelyBackpressure s a) (hc : Counting (next s a)) :
    Invariant config n₀ (next s a) := by
  have hw := next_preserves_whereabouts h.toWhereabouts ha hc
  cases a with
  | controller a =>
    exact ⟨hw, next_release h.release fun n hn => (by subst hn; exact hok), next_recorded h a⟩
  | assembler a => exact ⟨hw, fun hb => (h.release hb).publishDropped _, h.recorded⟩
  | packet =>
    obtain he | ⟨channelId, header, payload, packets, -, -, he⟩ := takePacket_cases s <;>
      simp only [next, he] at hw ⊢
    · exact h
    · exact ⟨hw, h.release, h.recorded⟩
  | storage a => exact ⟨hw, fun hb => (h.release hb).publishStored _, h.recorded⟩
  | encoder channelId a => exact ⟨hw, h.release, h.recorded⟩

/-- Under the invariant a release that is to come can be named. -/
theorem Invariant.not_lockedOut (h : Invariant config n₀ s) : ¬ LockedOut s := by
  rintro ⟨hpoll, hblocked, hidle, hstored, hdropped, hcontrol, hsettled⟩
  rcases h.release hblocked with ⟨i, hi, hdiscard, hnew, hdrop⟩ | hd | ⟨_, he, -⟩
  · have htopic : s.controller.emitted = s.assembler.control.received := by
      have hlog := h.assemblerControl
      rw [Controller.topic, if_neg hpoll, List.append_nil, Queue.log, hcontrol,
        List.append_nil] at hlog
      exact hlog.symm
    have hkeep : .episodeKeep i ∈ s.assembler.control.received := by
      rw [← htopic]
      exact (protocol_idle_closed h.protocol hidle i hi).resolve_right hdiscard
    obtain hexit | ⟨hepisodes, hslots⟩ := hsettled
    · exact (h.alive hpoll).phase hexit
    · rcases h.accounted i (htopic ▸ hi) with hm | hm | hm | hm | hm
      · exact hdiscard (htopic ▸ hm)
      · obtain ⟨e, he⟩ := mem_iff_lookup.mp hm
        have hk := hepisodes (i, e) (Std.TreeMap.mem_toList_iff_getElem?_eq_some.mpr he)
        rw [(h.keeps i e he).mpr hkeep] at hk
        cases hk
      · exact Std.TreeMap.not_mem_of_isEmpty hslots hm
      · rw [Queue.log, hdropped, List.append_nil] at hm
        exact hdrop hm
      · refine hnew (h.recorded i ?_)
        have hlog : i ∈ storedIndices s.assembler.stored.log := by
          rw [Queue.log, storedIndices, List.map_append]
          exact List.mem_append_left _ hm
        rwa [h.stored, Queue.log, hstored, List.append_nil] at hlog
  · exact hd hdropped
  · rw [hstored] at he
    cases he

end Steps

theorem run_invariant (config : AssemblerRuntimeConfigV2) (nextIndex prior : UInt32)
    (queueSize : String → ℕ) {s : State}
    (h : Run TimelyBackpressure (initial config nextIndex prior queueSize) s)
    (hc : Counting s) : Invariant config nextIndex.toNat s :=
  Path.invariant_of_bound (fun _ _ _ => next_counting)
    (initial_invariant config nextIndex prior queueSize)
    (fun _ _ ha hok hc h => next_preserves_invariant h ha hok hc) h hc

/-- As long as back-pressure is only taken while a release is to come, the operator is never
locked out. -/
theorem never_lockedOut (config : AssemblerRuntimeConfigV2) (nextIndex prior : UInt32)
    (queueSize : String → ℕ) {s : State}
    (h : Run TimelyBackpressure (initial config nextIndex prior queueSize) s)
    (hc : Counting s) : ¬ LockedOut s :=
  (run_invariant config nextIndex prior queueSize h hc).not_lockedOut

def overflow : List Action := onChannel "cam0" (encoderPoll 1 [⟨{}, []⟩, ⟨{}, []⟩])

def takeControls (n : ℕ) : List Action := List.replicate n (.assembler (.takeControl 0))

/-- Back-pressure blocks a start while a kept episode waits for its outcome. -/
def timelySession : List Action :=
  collectPoll [.start] ++ overflow ++ collectPoll [.stop] ++ collectPoll [.keep] ++ takeControls 3

def sampleSession : State := initial LerobotEpisodeConservation.sampleConfig 0 0 fun _ => 1

theorem timelySession_not_lockedOut :
    (timelySession.foldl next sampleSession).controller.gate.startBlocked = true ∧
      ¬ LockedOut (timelySession.foldl next sampleSession) :=
  ⟨by decide +kernel, never_lockedOut LerobotEpisodeConservation.sampleConfig 0 0 (fun _ => 1)
    (path_of_follows (l := timelySession) (by decide +kernel)) (by decide +kernel)⟩

/-- The encoder's message is published behind the poll's drain of its topic, the poll then
discards the episode, and the next poll takes the message. -/
def lateBackpressure : List Action :=
  collectPoll [.start] ++ .controller (.drainBackpressure 8) :: overflow ++
    [.controller (.drainStored 8), .controller (.drainDropped 8),
      .controller (.drainCommands [(.stop, 0), (.discard, 0)] 0 0)] ++
    collectPoll [] ++ takeControls 3

def NothingInFlight (s : State) : Prop :=
  s.controller.backpressure.pending = [] ∧ s.controller.stored.pending = [] ∧
    s.controller.dropped.pending = [] ∧ s.assembler.control.pending = [] ∧
    s.assembler.stored.pending = [] ∧ handedOn s = []

instance (s : State) : Decidable (NothingInFlight s) :=
  inferInstanceAs (Decidable (_ ∧ _ ∧ _ ∧ _ ∧ _ ∧ _))

theorem late_backpressure_locks_out : ¬ ∀ config nextIndex prior queueSize s,
    Run (fun _ _ => True) (initial config nextIndex prior queueSize) s → Counting s →
    ¬ (NothingInFlight s ∧ LockedOut s) := by
  intro hall
  refine hall LerobotEpisodeConservation.sampleConfig 0 0 (fun _ => 1) _
    (path_of_follows (l := lateBackpressure) (by decide +kernel)) (by decide +kernel) ⟨?_, ?_⟩
  · decide +kernel
  · exact {
      polling := by decide +kernel
      blocked := by decide +kernel
      idle := by decide +kernel
      stored := by decide +kernel
      dropped := by decide +kernel
      control := by decide +kernel
      settled := Or.inr ⟨by decide +kernel, by decide +kernel⟩ }

end BackpressureLockout
