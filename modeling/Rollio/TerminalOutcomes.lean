import Rollio.LerobotEpisodeConservation
import Rollio.PipelineTopics

/-! The outcome of a kept episode. Each start is one token that the assembler, its staging
worker and the storage hand on until it is announced stored or dropped; the sweep of stale
slots is the only step that can announce an outcome without holding a token. -/
namespace TerminalOutcomes
open BusMessages RuntimeConfig Clocks LerobotDataset LerobotEpisodeManager LerobotDispatch
open OrderedTables Queues PartialRuns ControlEvents CollectPipeline PipelineTopics
open AssemblerProcess (Assembler AssemblerAction Outbox readyOf stageEvent publishDrops)
open StorageProcess (Storage StorageAction)

def readyIndices (events : List EpisodeReady) : List UInt32 := events.map (·.episodeIndex)

def storedIndices (events : List EpisodeStored) : List UInt32 := events.map (·.episodeIndex)

def droppedTopic (events : List EpisodeDropped) : List UInt32 := events.map (·.episodeIndex)

def storeIndex? : StorageProcess.WorkerCommand → Option UInt32
  | .store request => some request.episodeIndex
  | .shutdown => none

def storedIndex? : StorageProcess.WorkerEvent → Option UInt32
  | .stored i _ => some i
  | .error _ | .shutdownComplete => none

def staging (a : Assembler) : List UInt32 :=
  stagedIndices a.commands.pending ++ readyIndices (a.events.pending.flatMap readyOf)

def storing (st : Storage) : List UInt32 :=
  readyIndices st.ready.pending ++ st.commands.pending.filterMap storeIndex? ++
    st.events.pending.filterMap storedIndex?

/-- The episodes handed to the staging worker that are still on their way or stored. -/
def handedOn (s : State) : List UInt32 :=
  staging s.assembler ++ storing s.storage ++ storedIndices s.controller.stored.log

/-- How often `i` is announced stored or dropped. -/
def outcomes (s : State) (i : UInt32) : ℕ :=
  (storedIndices s.controller.stored.log).count i + (droppedTopic s.controller.dropped.log).count i

section Assembler
variable {a a' : Assembler} {action : AssemblerAction} {out : Outbox}

/-- The tokens of `i` the assembler holds: a start still to be taken, a pending episode, or
one handed to the staging worker. -/
def held (a : Assembler) (i : UInt32) : ℕ :=
  (startIndices a.control.pending).count i + (if i ∈ a.manager.episodes then 1 else 0) +
    (staging a).count i

def leaks (a : Assembler) : AssemblerAction → List UInt32
  | .sweep now => a.manager.staleSlots now
  | _ => []

theorem publishDrops_dropped (processId : String) (notices : List DropNotice) :
    droppedTopic (publishDrops processId notices).dropped = droppedIndices notices := by
  induction notices with
  | nil => rfl
  | cons notice notices ih =>
    have hc : (publishDrops processId (notice :: notices)).dropped =
      ⟨notice.episodeIndex, .new 64 notice.reason⟩ ::
        (publishDrops processId notices).dropped := rfl
    rw [hc, droppedTopic, List.map_cons]
    exact congrArg _ ih

@[simp] theorem publishDrops_ready (processId : String) (notices : List DropNotice) :
    (publishDrops processId notices).ready = [] := rfl

theorem start_held (m : EpisodeManager) (event : ControlEvent) (nowUs : UInt64) (i : UInt32) :
    (if i ∈ (m.onControlEvent event nowUs).2.episodes then 1 else 0) ≤
      (if i ∈ m.episodes then 1 else 0) + (startIndices [event]).count i := by
  have hm := EpisodeManager.mem_onControlEvent m event nowUs i
  cases event with
  | recordingStart k ts =>
    simp only [hm]
    by_cases hi : i = k
    · simp [hi, startIndices, startIndex?]
    · simp [hi]
  | episodeDiscard k =>
    simp only [hm]
    split <;> simp_all
  | _ => simp [hm]

theorem staging_stage (input : EpisodeAssemblyInput) (result : Except String String)
    (i : UInt32) : (readyIndices (readyOf (stageEvent input result))).count i ≤
      [input.episodeIndex].count i := by
  cases result with
  | ok stagingDir => exact le_rfl
  | error message => exact Nat.zero_le _

theorem step_held (h : AssemblerProcess.Step a action a' out) (hk : Keyed a.manager)
    (i : UInt32) : held a' i + (readyIndices out.ready).count i +
      (droppedTopic out.dropped).count i ≤ held a i + (leaks a action).count i := by
  cases h with
  | move phase hexit => simp [held, staging, readyIndices, droppedTopic]
  | control nowUs phase hphase hpop =>
    next event control =>
    obtain ⟨hp, -⟩ := Queue.pop_spec hpop
    have hs := start_held a.manager event nowUs i
    have hc : startIndices a.control.pending =
        startIndices [event] ++ startIndices control.pending := by
      rw [hp, ← startIndices_append]
      rfl
    simp only [held, staging, readyIndices, droppedTopic, hc, List.count_append, List.map_nil,
      List.count_nil]
    omega
  | samples hframe hlookup hmem => simp [held, staging, readyIndices, droppedTopic, hmem]
  | dispatch nowUs now hd =>
    have hf := dispatch_fates hk hd i
    have hdrop := publishDrops_dropped a.manager.config.processId
    simp only [fates, droppedIndices, List.map_nil, List.count_nil, stagedIndices_nil,
      Nat.add_zero] at hf
    simp only [held, staging, readyIndices, hdrop, droppedIndices, Queue.pending_publish,
      publishDrops_ready, stagedIndices_append, List.count_append, List.map_nil, List.count_nil]
    omega
  | release hpop => exact Nat.le_add_right _ _
  | sweep now =>
    have hheld : held (a.sweep now).1 i = held a i := rfl
    have hdrop : droppedTopic (a.sweep now).2.dropped = leaks a (.sweep now) := by
      refine (publishDrops_dropped a.manager.config.processId _).trans ?_
      simp [droppedIndices, leaks, Function.comp_def]
    rw [hheld, hdrop]
    exact le_rfl
  | event hpop =>
    obtain ⟨hp, -⟩ := Queue.pop_spec hpop
    simp only [held, staging, readyIndices, droppedTopic, hp, List.flatMap_cons,
      List.map_append, List.count_append, List.map_nil, List.count_nil]
    omega
  | askShutdown hr he hf => simp [held, staging, readyIndices, droppedTopic, stagedIndices,
      stagedInputs]
  | stage result hpop =>
    next input commands =>
    obtain ⟨hp, -⟩ := Queue.pop_spec hpop
    have hs := staging_stage input result i
    have hc : stagedIndices a.commands.pending =
        [input.episodeIndex] ++ stagedIndices commands.pending := by
      rw [hp]
      rfl
    simp only [readyIndices] at hs
    simp only [held, staging, readyIndices, droppedTopic, hc, Queue.pending_publish,
      List.flatMap_append, List.flatMap_singleton, List.map_append, List.count_append,
      List.map_nil, List.count_nil]
    omega
  | endWorker result hpop =>
    next commands =>
    obtain ⟨hp, -⟩ := Queue.pop_spec hpop
    have hc : stagedIndices a.commands.pending = stagedIndices commands.pending := by
      rw [hp]
      rfl
    simp [held, staging, readyIndices, droppedTopic, hc, readyOf]

end Assembler

section Storage

theorem send_storing (st : Storage) (command : StorageProcess.WorkerCommand) (i : UInt32) :
    (storing (st.send command)).count i ≤
      (storing st).count i + ([command].filterMap storeIndex?).count i := by
  unfold Storage.send
  split
  · simp only [storing, Queue.pending_publish, List.filterMap_append, List.count_append]
    omega
  · exact Nat.le_add_right _ _

theorem takeEvent_storing (st : Storage) (i : UInt32) : (storing st.takeEvent.1).count i +
    (storedIndices st.takeEvent.2).count i ≤ (storing st).count i := by
  unfold Storage.takeEvent
  split
  · exact le_rfl
  all_goals
    next hpop =>
    obtain ⟨hp, -⟩ := Queue.pop_spec hpop
    simp only [storing, storedIndices, hp, Queue.pending_publish, List.count_append,
      List.filterMap_append, List.filterMap_cons, List.filterMap_nil, storedIndex?, storeIndex?,
      List.count_cons, List.count_nil, List.map_cons, List.map_nil]
    omega

theorem takeReady_storing (st : Storage) (i : UInt32) :
    (storing st.takeReady).count i ≤ (storing st).count i := by
  unfold Storage.takeReady
  split
  · exact le_rfl
  · next event ready hpop =>
    obtain ⟨hp, -⟩ := Queue.pop_spec hpop
    refine (send_storing _ _ i).trans ?_
    simp only [storing, readyIndices, hp, List.count_append, List.map_cons, List.count_cons,
      List.filterMap_cons, List.filterMap_nil, storeIndex?, List.count_nil]
    omega

theorem takeControl_storing (st : Storage) (i : UInt32) :
    (storing st.takeControl).count i ≤ (storing st).count i := by
  unfold Storage.takeControl
  split
  · exact le_rfl
  · simp only
    split
    · exact send_storing _ .shutdown i
    · exact le_rfl

theorem work_storing (st : Storage) (result : Except String String) (i : UInt32) :
    (storing (st.work result)).count i ≤ (storing st).count i := by
  unfold Storage.work
  split
  · exact le_rfl
  · next request commands hpop =>
    obtain ⟨hp, -⟩ := Queue.pop_spec hpop
    cases result with
    | ok outputPath =>
      simp only [storing, hp, Queue.pending_publish, List.filterMap_append, List.filterMap_cons,
        List.filterMap_nil, storeIndex?, storedIndex?, List.count_append, List.count_cons,
        List.count_nil]
      omega
    | error message =>
      simp only [storing, hp, Queue.pending_publish, List.filterMap_append, List.filterMap_cons,
        List.filterMap_nil, storeIndex?, storedIndex?, List.count_append, List.count_cons,
        List.count_nil]
      omega
  · next commands hpop =>
    obtain ⟨hp, -⟩ := Queue.pop_spec hpop
    simp only [storing, hp, Queue.pending_publish, List.filterMap_append, List.filterMap_cons,
      List.filterMap_nil, storeIndex?, storedIndex?, List.append_nil, le_refl]

theorem next_storing (st : Storage) (action : StorageAction) (i : UInt32) :
    (storing (StorageProcess.next st action).1).count i +
      (storedIndices (StorageProcess.next st action).2).count i ≤ (storing st).count i := by
  cases action with
  | takeEvent => exact takeEvent_storing st i
  | takeControl => exact takeControl_storing st i
  | takeReady => exact takeReady_storing st i
  | work result => exact work_storing st result i
  | _ => exact le_rfl

end Storage

/-- No sweep releases a slot whose episode is still on its way or stored. -/
def SweepsSettled (s : State) : Action → Prop
  | .assembler (.sweep now) => ∀ i ∈ s.assembler.manager.staleSlots now, i ∉ handedOn s
  | _ => True

instance (s : State) (a : Action) : Decidable (SweepsSettled s a) := by
  unfold SweepsSettled
  split
  · exact List.decidableBAll _ _
  · infer_instance

/-- All tokens of `i`, announced outcomes included. -/
def tokens (s : State) (i : UInt32) : ℕ :=
  held s.assembler i + (storing s.storage).count i + outcomes s i

structure Invariant (config : AssemblerRuntimeConfigV2) (n₀ : ℕ) (s : State) : Prop extends
    Topics config n₀ s where
  conserved : ∀ i, tokens s i ≤ (startIndices s.controller.emitted).count i
  /-- A slot is taken by an episode that has left the manager and is not announced dropped. -/
  slots : ∀ i ∈ s.assembler.manager.inFlight, i ∈ startIndices s.assembler.control.received ∧
    i ∉ s.assembler.manager.episodes ∧ i ∉ droppedTopic s.controller.dropped.log

theorem initial_invariant (config : AssemblerRuntimeConfigV2) (nextIndex prior : UInt32)
    (queueSize : String → ℕ) :
    Invariant config nextIndex.toNat (initial config nextIndex prior queueSize) where
  toTopics := initial_topics config nextIndex prior queueSize
  conserved := by
    simp [tokens, held, staging, storing, outcomes, initial, Assembler.initial,
      CollectLoop.Controller.initial, EpisodeManager.new, Queue.log, storedIndices, droppedTopic,
      readyIndices]
  slots := by simp [initial, Assembler.initial, EpisodeManager.new]

section Steps
variable {config : AssemblerRuntimeConfigV2} {n₀ : ℕ} {s : State}

theorem Invariant.tokens_le_one (h : Invariant config n₀ s) (i : UInt32) : tokens s i ≤ 1 :=
  (h.conserved i).trans (List.nodup_iff_count_le_one.mp (emitted_nodup h.toTopics) i)

theorem tokens_eq (s : State) (i : UInt32) : tokens s i =
    (startIndices s.assembler.control.pending).count i +
      (if i ∈ s.assembler.manager.episodes then 1 else 0) + (handedOn s).count i +
      (droppedTopic s.controller.dropped.log).count i := by
  simp only [tokens, held, outcomes, handedOn, List.count_append]
  omega

/-- A handed-on episode has its start received, has left the manager and is not announced
dropped. -/
theorem handedOn_left (ht : Topics config n₀ s)
    (hcons : ∀ i, tokens s i ≤ (startIndices s.controller.emitted).count i) {i : UInt32}
    (hi : i ∈ handedOn s) : i ∈ startIndices s.assembler.control.received ∧
      i ∉ s.assembler.manager.episodes ∧ i ∉ droppedTopic s.controller.dropped.log := by
  have hone := List.nodup_iff_count_le_one.mp (emitted_nodup ht) i
  have hle := hcons i
  have hpos := List.count_pos_iff.mpr hi
  rw [tokens_eq] at hle
  rw [starts_split ht, List.count_append] at hle hone
  refine ⟨List.count_pos_iff.mp (by omega), fun he => ?_, fun hd => ?_⟩
  · rw [if_pos he] at hle
    omega
  · have := List.count_pos_iff.mpr hd
    omega

theorem tokens_controller (s : State) (a : CollectLoop.ControllerAction) (i : UInt32) :
    tokens (next s (.controller a)) i =
      tokens s i + (startIndices (CollectLoop.next s.controller a).2).count i := by
  have hs := CollectLoop.next_stored_log s.controller a
  have hd := CollectLoop.next_dropped_log s.controller a
  have hheld : held (next s (.controller a)).assembler i =
      held s.assembler i + (startIndices (CollectLoop.next s.controller a).2).count i := by
    change (startIndices (s.assembler.control.pending ++
      (CollectLoop.next s.controller a).2)).count i +
      (if i ∈ s.assembler.manager.episodes then 1 else 0) + (staging s.assembler).count i = _
    rw [startIndices_append, List.count_append, held]
    omega
  have hout : outcomes (next s (.controller a)) i = outcomes s i := by
    simp only [outcomes, next, State.publishControl, hs, hd]
  have hst : storing (next s (.controller a)).storage = storing s.storage := rfl
  simp only [tokens, hheld, hout, hst]
  omega

theorem Invariant.controller (h : Invariant config n₀ s) {a : CollectLoop.ControllerAction}
    (ha : Enabled s (.controller a)) (hc : Counting (next s (.controller a))) :
    Invariant config n₀ (next s (.controller a)) where
  toTopics := next_preserves_topics h.toTopics ha hc
  conserved := by
    intro i
    have ht := CollectLoop.next_topic (c := s.controller) ha
    have hcount := congrArg (fun events => (startIndices events).count i) ht
    simp only [startIndices_append, List.count_append, topic_starts] at hcount
    rw [tokens_controller]
    exact (Nat.add_le_add_right (h.conserved i) _).trans hcount.ge
  slots := fun i hi => by
    obtain ⟨hr, he, hd⟩ := h.slots i hi
    exact ⟨hr, he, (CollectLoop.next_dropped_log s.controller a).symm ▸ hd⟩

theorem tokens_assembler {a : AssemblerAction} (h : Invariant config n₀ s)
    (ha : Enabled s (.assembler a)) (i : UInt32) :
    tokens (next s (.assembler a)) i ≤ tokens s i + (leaks s.assembler a).count i := by
  have hs := step_held (AssemblerProcess.next_step ha) h.keyed i
  have hst : (storing (next s (.assembler a)).storage).count i =
      (storing s.storage).count i +
        (readyIndices (AssemblerProcess.next s.assembler a).2.ready).count i := by
    simp only [next, State.publishReady, State.publishDropped, State.publishBackpressure, storing,
      readyIndices, Queue.pending_publish, List.map_append, List.count_append]
    omega
  have hout : outcomes (next s (.assembler a)) i = outcomes s i +
      (droppedTopic (AssemblerProcess.next s.assembler a).2.dropped).count i := by
    simp only [next, State.publishReady, State.publishDropped, State.publishBackpressure, outcomes,
      droppedTopic, Queue.log_publish, List.map_append, List.count_append]
    omega
  have hheld : held (next s (.assembler a)).assembler i =
      held (AssemblerProcess.next s.assembler a).1 i := rfl
  simp only [tokens, hst, hout, hheld]
  omega

theorem mem_staleSlots {m : EpisodeManager} {now : Instant} {i : UInt32}
    (hi : i ∈ m.staleSlots now) : i ∈ m.inFlight := by
  obtain ⟨v, hv, -⟩ := mem_scan.mp hi
  exact mem_iff_lookup.mpr ⟨v, hv⟩

/-- A sweep that meets no handed-on episode makes a token only where none is left. -/
theorem leaks_conserved (h : Invariant config n₀ s) {a : AssemblerAction}
    (hok : SweepsSettled s (.assembler a)) (i : UInt32) :
    tokens s i + (leaks s.assembler a).count i ≤ (startIndices s.controller.emitted).count i := by
  by_cases hi : i ∈ leaks s.assembler a
  · cases a with
    | sweep now =>
      obtain ⟨hr, he, hd⟩ := h.slots i (mem_staleSlots hi)
      have hpos : 0 < (startIndices s.controller.emitted).count i := by
        rw [starts_split h.toTopics, List.count_append]
        exact Nat.add_pos_left (List.count_pos_iff.mpr hr) _
      have hone := List.nodup_iff_count_le_one.mp (emitted_nodup h.toTopics) i
      have hstale := List.nodup_iff_count_le_one.mp
        (scan_nodup (t := s.assembler.manager.inFlight)
          fun slot => s.assembler.manager.staleAfter < now - slot.2) i
      have hpend : (startIndices s.assembler.control.pending).count i = 0 := by
        have := List.count_pos_iff.mpr hr
        rw [starts_split h.toTopics, List.count_append] at hone
        omega
      rw [tokens_eq, hpend, if_neg he, List.count_eq_zero.mpr (hok i hi),
        List.count_eq_zero.mpr hd]
      exact (Nat.zero_add _).le.trans (hstale.trans hpos)
    | _ => cases hi
  · rw [List.count_eq_zero.mpr hi]
    exact h.conserved i

/-- What a step of the assembler keeps of the slots, given what it did to the tokens. -/
theorem slots_assembler (h : Invariant config n₀ s) {a : AssemblerAction} {a' : Assembler}
    {out : Outbox} (hs : AssemblerProcess.Step s.assembler a a' out)
    (hhanded : ∀ i ∈ staging a', i ∈ startIndices a'.control.received ∧
      i ∉ a'.manager.episodes ∧
      i ∉ droppedTopic (s.controller.dropped.publish out.dropped).log) :
    ∀ i ∈ a'.manager.inFlight, i ∈ startIndices a'.control.received ∧
      i ∉ a'.manager.episodes ∧
      i ∉ droppedTopic (s.controller.dropped.publish out.dropped).log := by
  intro i hi
  have quiet (hd : out.dropped = []) (hi : i ∉ droppedTopic s.controller.dropped.log) :
      i ∉ droppedTopic (s.controller.dropped.publish out.dropped).log := by
    rwa [hd, Queue.log_publish, List.append_nil]
  cases hs with
  | control nowUs phase hphase hpop =>
    next event control =>
    have hf := EpisodeManager.frame_onControlEvent s.assembler.manager event nowUs
    obtain ⟨hr, he, hd⟩ := h.slots i (hf.inFlight ▸ hi)
    refine ⟨?_, fun hm => ?_, quiet rfl hd⟩
    · rw [(Queue.pop_spec hpop).2, startIndices_append]
      exact List.mem_append_left _ hr
    · rw [EpisodeManager.mem_onControlEvent] at hm
      cases event with
      | recordingStart k ts =>
        rcases hm with rfl | hm
        · exact taken_start_new h.toTopics hpop hr
        · exact he hm
      | episodeDiscard k => exact he hm.2
      | _ => exact he hm
  | samples hframe hlookup hmem =>
    obtain ⟨hr, he, hd⟩ := h.slots i (hframe.inFlight ▸ hi)
    exact ⟨hr, fun hm => he ((hmem i).mp hm), quiet rfl hd⟩
  | dispatch nowUs now hd =>
    next d =>
    have hdis := dispatched h.keyed hd
    obtain ⟨inputs, hsent, hin, -⟩ := hdis.sent
    rcases (hin i).mp hi with hold | hnew
    · obtain ⟨hr, he, hdrop⟩ := h.slots i hold
      refine ⟨hr, fun hm => ?_, fun hm => ?_⟩
      · obtain ⟨e, hm⟩ := mem_iff_lookup.mp hm
        exact he (mem_iff_lookup.mpr ⟨e, hdis.survives i e hm⟩)
      · rw [Queue.log_publish, droppedTopic, List.map_append] at hm
        rcases List.mem_append.mp hm with hm | hm
        · exact hdrop hm
        · change i ∈ droppedTopic _ at hm
          rw [publishDrops_dropped] at hm
          obtain ⟨notice, hn, rfl⟩ := List.mem_map.mp hm
          exact he (hdis.dropped notice hn)
    · refine hhanded i (List.mem_append_left _ ?_)
      rw [Queue.pending_publish, stagedIndices_append, hsent]
      simp only [List.nil_append, stagedIndices_stages]
      exact List.mem_append_right _ hnew
  | release hpop => exact h.slots i (mem_erase.mp hi).2 |>.imp_right fun hd => ⟨hd.1, quiet rfl hd.2⟩
  | sweep now =>
    obtain ⟨hstale, hold⟩ := mem_foldl_erase.mp hi
    obtain ⟨hr, he, hd⟩ := h.slots i hold
    refine ⟨hr, he, fun hm => ?_⟩
    rw [Queue.log_publish, droppedTopic, List.map_append] at hm
    rcases List.mem_append.mp hm with hm | hm
    · exact hd hm
    · change i ∈ droppedTopic (publishDrops _ _).dropped at hm
      rw [publishDrops_dropped] at hm
      simp [droppedIndices] at hm
      exact hstale hm
  | _ => exact (h.slots i hi).imp_right fun hd => ⟨hd.1, quiet rfl hd.2⟩

theorem Invariant.assembler (h : Invariant config n₀ s) {a : AssemblerAction}
    (ha : Enabled s (.assembler a)) (hc : Counting (next s (.assembler a)))
    (hok : SweepsSettled s (.assembler a)) : Invariant config n₀ (next s (.assembler a)) := by
  have ht := next_preserves_topics h.toTopics ha hc
  have hcons (i : UInt32) : tokens (next s (.assembler a)) i ≤
      (startIndices (next s (.assembler a)).controller.emitted).count i :=
    (tokens_assembler h ha i).trans (leaks_conserved h hok i)
  refine ⟨ht, hcons, slots_assembler h (AssemblerProcess.next_step ha) fun i hi => ?_⟩
  exact handedOn_left ht hcons (List.mem_append_left _ (List.mem_append_left _ hi))

theorem Invariant.packet (h : Invariant config n₀ s) (ha : Enabled s .packet)
    (hc : Counting (next s .packet)) : Invariant config n₀ (next s .packet) := by
  have ht := next_preserves_topics h.toTopics ha hc
  obtain he | ⟨channelId, header, payload, packets, -, -, he⟩ := takePacket_cases s <;>
    simp only [next, he] at ht ⊢
  · exact h
  · have hm (i : UInt32) := EpisodeManager.mem_onPacket s.assembler.manager channelId header
      payload i
    refine ⟨ht, fun i => ?_, fun i hi => ?_⟩
    · refine le_of_eq_of_le ?_ (h.conserved i)
      simp [tokens, held, staging, outcomes, hm]
    · obtain ⟨hr, he, hd⟩ := h.slots i hi
      exact ⟨hr, fun hi => he ((hm i).mp hi), hd⟩

theorem Invariant.storage (h : Invariant config n₀ s) {a : StorageAction}
    (ha : Enabled s (.storage a)) (hc : Counting (next s (.storage a))) :
    Invariant config n₀ (next s (.storage a)) where
  toTopics := next_preserves_topics h.toTopics ha hc
  conserved := by
    intro i
    have hs := next_storing s.storage a i
    have hout : outcomes (next s (.storage a)) i = outcomes s i +
        (storedIndices (StorageProcess.next s.storage a).2).count i := by
      simp only [next, State.publishStored, outcomes, storedIndices, Queue.log_publish,
        List.map_append, List.count_append]
      omega
    have hheld : held (next s (.storage a)).assembler i = held s.assembler i := rfl
    have hst : (storing (next s (.storage a)).storage).count i =
        (storing (StorageProcess.next s.storage a).1).count i := rfl
    refine le_trans ?_ (h.conserved i)
    simp only [tokens, hout, hheld, hst]
    omega
  slots := h.slots

theorem next_preserves_invariant (h : Invariant config n₀ s) {a : Action} (ha : Enabled s a)
    (hok : SweepsSettled s a) (hc : Counting (next s a)) : Invariant config n₀ (next s a) := by
  cases a with
  | controller a => exact h.controller ha hc
  | assembler a => exact h.assembler ha hc hok
  | packet => exact h.packet ha hc
  | storage a => exact h.storage ha hc
  | encoder channelId a =>
    exact ⟨next_preserves_topics h.toTopics ha hc, h.conserved, h.slots⟩

end Steps

theorem run_invariant (config : AssemblerRuntimeConfigV2) (nextIndex prior : UInt32)
    (queueSize : String → ℕ) {s : State}
    (h : Run SweepsSettled (initial config nextIndex prior queueSize) s) (hc : Counting s) :
    Invariant config nextIndex.toNat s :=
  Path.invariant_of_bound (fun _ _ _ => next_counting)
    (initial_invariant config nextIndex prior queueSize)
    (fun _ _ ha hok hc h => next_preserves_invariant h ha hok hc) h hc

/-- While no sweep releases the slot of an episode still handed on, every episode is announced
at most once, stored or dropped. -/
theorem one_outcome (config : AssemblerRuntimeConfigV2) (nextIndex prior : UInt32)
    (queueSize : String → ℕ) {s : State}
    (h : Run SweepsSettled (initial config nextIndex prior queueSize) s) (hc : Counting s) :
    ∀ i, outcomes s i ≤ 1 := by
  intro i
  have ht := (run_invariant config nextIndex prior queueSize h hc).tokens_le_one i
  exact (Nat.le_add_left _ _).trans ht

def sampleSession : State := initial LerobotEpisodeConservation.sampleConfig 0 0 fun _ => 32

def slowStaging (sweepAt : Instant) : List Action :=
  collectPoll [.start] ++ onChannel "cam0" encodeFirst ++ collectPoll [.stop] ++
    onChannel "cam0" encodeStop ++ collectPoll [.keep] ++ assemblerPoll 3 2 0 0 ++
    .assembler .eventsDrained :: assemblerPoll 0 0 0 sweepAt ++
    .assembler (.stage (.ok "staged")) :: .assembler .takeEvent :: storeOne

theorem prompt_episode_one_outcome :
    outcomes ((slowStaging 0).foldl next sampleSession) 0 = 1 ∧
      ∀ i, outcomes ((slowStaging 0).foldl next sampleSession) i ≤ 1 :=
  ⟨by decide +kernel, one_outcome LerobotEpisodeConservation.sampleConfig 0 0 (fun _ => 32)
    (path_of_follows (l := slowStaging 0) (by decide +kernel)) (by decide +kernel)⟩

/-- Ten seconds in the staging worker, and the episode is both dropped and stored. -/
theorem swept_episode_stored : ¬ ∀ config nextIndex prior queueSize s,
    Run (fun _ _ => True) (initial config nextIndex prior queueSize) s → Counting s →
    ∀ i, outcomes s i ≤ 1 := by
  intro hall
  have h := hall LerobotEpisodeConservation.sampleConfig 0 0 (fun _ => 32) _
    (path_of_follows (l := slowStaging 10000000001) (by decide +kernel)) (by decide +kernel) 0
  exact absurd h (by decide +kernel)

end TerminalOutcomes
