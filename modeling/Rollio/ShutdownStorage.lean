import Rollio.CompleteEpisodes

/-! A shutdown and the episodes still on their way to the storage. The assembler waits for its
work, while the storage acts on its own copy of the shutdown at once: what reaches it later is
not stored any more. -/
namespace ShutdownStorage
open BusMessages RuntimeConfig Clocks ControllerEpisode LerobotDataset LerobotEpisodeManager
open LerobotDispatch OrderedTables Queues PartialRuns ControlEvents EncoderStreams
open CollectPipeline PipelineTopics EpisodeWhereabouts TerminalOutcomes CompleteEpisodes
open EncoderProcess (Packet EncoderAction)
open AssemblerProcess (Assembler AssemblerAction Outbox readyOf stageEvent)
open StorageProcess (Storage StorageAction)

def isKeep : ControlEvent → Bool
  | .episodeKeep _ => true
  | _ => false

/-- The assembler has no kept episode, and none that it still has to learn is kept. -/
structure Emptied (a : Assembler) : Prop where
  keeps : ∀ event ∈ a.control.pending, isKeep event = false
  entries : ∀ entry ∈ a.manager.episodes.toList, entry.2.keepRequested = false
  staging : staging a = []

instance (a : Assembler) : Decidable (Emptied a) :=
  decidable_of_iff ((∀ event ∈ a.control.pending, isKeep event = false) ∧
    (∀ entry ∈ a.manager.episodes.toList, entry.2.keepRequested = false) ∧ staging a = [])
    ⟨fun h => ⟨h.1, h.2.1, h.2.2⟩, fun h => ⟨h.keeps, h.entries, h.staging⟩⟩

/-- Everything kept has reached the storage's worker queue. -/
def Through (s : State) : Prop := Emptied s.assembler ∧ s.storage.ready.pending = []

instance (s : State) : Decidable (Through s) := inferInstanceAs (Decidable (_ ∧ _))

def Stages : AssemblerAction → Prop
  | .stage result => result.isOk = true
  | _ => True

instance : (action : AssemblerAction) → Decidable (Stages action)
  | .stage result => inferInstanceAs (Decidable (result.isOk = true))
  | .takeControl _ | .controlDrained | .nextSubscriber | .observation .. | .observationsDrained
  | .action .. | .actionsDrained | .dispatch .. | .takeStored | .storedDrained | .sweep _
  | .takeEvent | .eventsDrained => isTrue trivial

/-- Slots suffice, staging and storing succeed, and the storage takes the shutdown only after
everything kept has reached it. -/
def Served (s : State) : Action → Prop
  | .assembler a => Roomy s.assembler a ∧ Stages a
  | .storage .takeControl => s.storage.control.pending.head? = some .shutdown → Through s
  | .storage (.work result) => result.isOk = true
  | _ => True

instance (s : State) : (a : Action) → Decidable (Served s a)
  | .assembler a => inferInstanceAs (Decidable (Roomy s.assembler a ∧ Stages a))
  | .storage .takeControl => inferInstanceAs (Decidable (_ → Through s))
  | .storage (.work result) => inferInstanceAs (Decidable (result.isOk = true))
  | .storage .takeEvent | .storage .eventsDrained | .storage .controlDrained
  | .storage .takeReady | .storage .readyDrained | .controller _ | .packet
  | .encoder .. => isTrue trivial

def stored (st : Storage) : List UInt32 := st.events.log.filterMap storedIndex?

section Storage
variable {st : Storage} {a : StorageAction} {i : UInt32}

/-- The storage process before and after it has sent its worker the shutdown. -/
structure Serves (st : Storage) : Prop where
  serving : st.shutdownSent = false → st.workerRunning = true ∧ .shutdown ∉ st.commands.pending
  closing : st.shutdownSent = true → st.workerRunning = true →
    ∃ stores, .shutdown ∉ stores ∧ st.commands.pending = stores ++ [.shutdown]
  ended : st.workerRunning = false → st.commands.pending = []
  errors : ∀ message, .error message ∉ st.events.pending
  complete : st.shutdownComplete = true ∨ .shutdownComplete ∈ st.events.pending ∨
    st.phase = .exited → st.workerRunning = false

theorem initial_serves : Serves {} := by
  constructor <;> simp

theorem Serves.takeEvent (h : Serves st) : Serves st.takeEvent.1 := by
  unfold Storage.takeEvent
  split
  · exact h
  · next hpop =>
    obtain ⟨hq, -⟩ := Queue.pop_spec hpop
    refine ⟨h.serving, h.closing, h.ended, fun message hm => ?_, fun hc => ?_⟩
    · exact h.errors message (by rw [hq]; exact List.mem_cons_of_mem _ hm)
    · apply h.complete
      rcases hc with hc | hc | hc
      · exact Or.inl hc
      · exact Or.inr (Or.inl (by rw [hq]; exact List.mem_cons_of_mem _ hc))
      · exact Or.inr (Or.inr hc)
  · next message events hpop =>
    obtain ⟨hq, -⟩ := Queue.pop_spec hpop
    exact absurd (by rw [hq]; exact List.mem_cons_self) (h.errors message)
  · next hpop =>
    obtain ⟨hq, -⟩ := Queue.pop_spec hpop
    refine ⟨h.serving, h.closing, h.ended, fun message hm => ?_, fun _ => ?_⟩
    · exact h.errors message (by rw [hq]; exact List.mem_cons_of_mem _ hm)
    · exact h.complete (Or.inr (Or.inl (by rw [hq]; exact List.mem_cons_self)))

theorem Serves.takeControl (h : Serves st) : Serves st.takeControl := by
  unfold Storage.takeControl
  split
  · exact h
  · next event control hpop =>
    simp only
    split
    · next hs =>
      obtain ⟨hrun, hno⟩ := h.serving hs.2
      have hsend : ({ st with control := control, shutdownSent := true } : Storage).send .shutdown =
          { st with
            control := control
            shutdownSent := true
            commands := st.commands.publish [.shutdown] } := if_pos hrun
      rw [hsend]
      refine ⟨fun hf => (by cases hf), fun _ _ => ?_, fun hf => ?_, h.errors, h.complete⟩
      · exact ⟨st.commands.pending, hno, rfl⟩
      · cases hrun.symm.trans hf
    · exact ⟨h.serving, h.closing, h.ended, h.errors, h.complete⟩

theorem Serves.takeReady (h : Serves st) (hs : st.shutdownSent = false) :
    Serves st.takeReady := by
  unfold Storage.takeReady
  split
  · exact h
  · next event ready hpop =>
    obtain ⟨hrun, hno⟩ := h.serving hs
    have hsend (command : StorageProcess.WorkerCommand) :
        ({ st with ready := ready } : Storage).send command =
          { st with ready := ready, commands := st.commands.publish [command] } := if_pos hrun
    rw [hsend]
    refine ⟨fun _ => ⟨hrun, ?_⟩, fun hf => ?_, fun hf => ?_, h.errors, h.complete⟩
    · simpa using hno
    · cases hs.symm.trans hf
    · cases hrun.symm.trans hf

theorem Serves.work (h : Serves st) (hrun : st.workerRunning = true)
    {result : Except String String} (hok : result.isOk = true) : Serves (st.work result) := by
  unfold Storage.work
  split
  · exact h
  · next request commands hpop =>
    obtain ⟨hq, -⟩ := Queue.pop_spec hpop
    cases result with
    | error message => cases hok
    | ok outputPath =>
      refine ⟨fun hs => ⟨hrun, ?_⟩, fun hs hr => ?_, fun hf => ?_, fun message hm => ?_,
        fun hc => ?_⟩
      · have hno := (h.serving hs).2
        rw [hq, List.mem_cons, not_or] at hno
        exact hno.2
      · obtain ⟨stores, hno, hp⟩ := h.closing hs hr
        rw [hq] at hp
        cases stores with
        | nil => simp at hp
        | cons store stores =>
          rw [List.cons_append, List.cons_eq_cons] at hp
          rw [List.mem_cons, not_or] at hno
          exact ⟨stores, hno.2, hp.2⟩
      · cases hrun.symm.trans hf
      · simp only [Queue.pending_publish, List.mem_append, List.mem_singleton, reduceCtorEq,
          or_false] at hm
        exact h.errors message hm
      · apply h.complete
        simpa using hc
  · next commands hpop =>
    obtain ⟨hq, -⟩ := Queue.pop_spec hpop
    have hempty : commands.pending = [] := by
      cases hs : st.shutdownSent with
      | false => exact absurd (by rw [hq]; exact List.mem_cons_self) (h.serving hs).2
      | true =>
        obtain ⟨stores, hno, hp⟩ := h.closing hs hrun
        rw [hq] at hp
        cases stores with
        | nil => simpa using hp
        | cons store stores =>
          rw [List.cons_append, List.cons_eq_cons] at hp
          exact absurd (by rw [hp.1]; exact List.mem_cons_self) hno
    refine ⟨fun hs => ?_, fun _ hf => (by cases hf), fun _ => hempty, fun message hm => ?_,
      fun _ => rfl⟩
    · exact absurd (by rw [hq]; exact List.mem_cons_self) (h.serving hs).2
    · simp only [Queue.pending_publish, List.mem_append, List.mem_singleton, reduceCtorEq,
        or_false] at hm
      exact h.errors message hm

def Works : StorageAction → Prop
  | .work result => result.isOk = true
  | _ => True

theorem next_serves (h : Serves st) (ha : StorageProcess.Enabled st a) (hok : Works a)
    (hready : st.shutdownSent = true → st.ready.pending = []) :
    Serves (StorageProcess.next st a).1 := by
  cases a with
  | takeEvent => exact h.takeEvent
  | takeControl => exact h.takeControl
  | takeReady =>
    apply h.takeReady
    cases hs : st.shutdownSent with
    | false => rfl
    | true => exact absurd (hready hs) ha.2
  | work result => exact h.work ha.1 hok
  | eventsDrained =>
    refine ⟨h.serving, h.closing, h.ended, h.errors, fun hc => h.complete ?_⟩
    exact hc.imp_right (Or.imp_right fun hp => (by cases hp))
  | controlDrained =>
    refine ⟨h.serving, h.closing, h.ended, h.errors, fun hc => h.complete ?_⟩
    exact hc.imp_right (Or.imp_right fun hp => (by cases hp))
  | readyDrained =>
    refine ⟨h.serving, h.closing, h.ended, h.errors, fun hc => h.complete ?_⟩
    rcases hc with hc | hc | hc
    · exact Or.inl hc
    · exact Or.inr (Or.inl hc)
    · refine Or.inl ?_
      by_contra hno
      simp [StorageProcess.next, hno] at hc

/-- The episodes that have reached the storage, stored ones included. -/
def reached (st : Storage) : List UInt32 :=
  readyIndices st.ready.pending ++ st.commands.pending.filterMap storeIndex? ++ stored st

theorem stored_publish (events : Queue StorageProcess.WorkerEvent)
    (more : List StorageProcess.WorkerEvent) : (events.publish more).log.filterMap storedIndex? =
      events.log.filterMap storedIndex? ++ more.filterMap storedIndex? := by
  rw [Queue.log_publish, List.filterMap_append]

theorem next_reached (h : Serves st) (ha : StorageProcess.Enabled st a) (hok : Works a)
    (hready : st.shutdownSent = true → st.ready.pending = []) (hi : i ∈ reached st) :
    i ∈ reached (StorageProcess.next st a).1 := by
  cases a with
  | takeEvent =>
    simp only [StorageProcess.next, Storage.takeEvent]
    split
    · exact hi
    all_goals
      next hpop =>
      have hlog := Queue.log_pop hpop
      simpa [reached, stored, hlog, storeIndex?] using hi
  | takeControl =>
    simp only [StorageProcess.next, Storage.takeControl]
    split
    · exact hi
    · split
      · next hs =>
        unfold Storage.send
        rw [if_pos (h.serving hs.2).1]
        simpa [reached, stored, storeIndex?] using hi
      · exact hi
  | takeReady =>
    obtain ⟨event, ready, hpop⟩ := Queue.pop_of_pending ha.2
    obtain ⟨hq, -⟩ := Queue.pop_spec hpop
    have hs : st.shutdownSent = false := by
      cases hs : st.shutdownSent with
      | false => rfl
      | true => exact absurd (hready hs) ha.2
    simp only [StorageProcess.next, Storage.takeReady, hpop, Storage.send]
    rw [if_pos (h.serving hs).1]
    simp only [reached, readyIndices, hq, List.map_cons, List.cons_append, List.mem_cons,
      List.mem_append, Queue.pending_publish, List.filterMap_append, List.filterMap_cons,
      List.filterMap_nil, storeIndex?, List.not_mem_nil, or_false] at hi ⊢
    have hst (ready : Queue EpisodeReady) (commands : Queue StorageProcess.WorkerCommand) :
        stored { st with ready := ready, commands := commands } = stored st := rfl
    rw [hst]
    tauto
  | work result =>
    obtain ⟨command, commands, hpop⟩ := Queue.pop_of_pending ha.2
    obtain ⟨hq, -⟩ := Queue.pop_spec hpop
    cases command with
    | store request =>
      cases result with
      | error message => cases hok
      | ok outputPath =>
        simp only [StorageProcess.next, Storage.work, hpop]
        simp only [reached, stored, stored_publish, hq, List.mem_append, List.filterMap_cons,
          List.filterMap_nil, storeIndex?, storedIndex?, List.mem_cons, List.not_mem_nil,
          or_false] at hi ⊢
        tauto
    | shutdown =>
      simp only [StorageProcess.next, Storage.work, hpop]
      simpa [reached, stored, stored_publish, hq, storeIndex?, storedIndex?] using hi
  | _ => exact hi

/-- When the process has ended, what has reached it is stored unless it still waits there. -/
theorem Serves.exited (h : Serves st) (hp : st.phase = .exited) (hready : st.ready.pending = [])
    (hi : i ∈ reached st) : i ∈ stored st := by
  have hempty := h.ended (h.complete (Or.inr (Or.inr hp)))
  simpa [reached, readyIndices, hready, hempty] using hi

theorem Serves.exited_sent (h : Serves st) (hp : st.phase = .exited) : st.shutdownSent = true := by
  by_contra hs
  have hrun := (h.serving (by simpa using hs)).1
  cases hrun.symm.trans (h.complete (Or.inr (Or.inr hp)))

end Storage

section Assembler
variable {a a' : Assembler} {action : AssemblerAction} {out : Outbox} {i : UInt32}

theorem Emptied.not_kept (h : Emptied a) {e : PendingEpisode}
    (he : a.manager.episodes[i]? = some e) : e.keepRequested = false :=
  h.entries (i, e) (Std.TreeMap.mem_toList_iff_getElem?_eq_some.mpr he)

theorem readyIndices_eq_nil {events : List EpisodeReady} (h : readyIndices events = []) :
    events = [] := List.map_eq_nil_iff.mp h

/-- Nothing kept comes back to an assembler that has none. -/
theorem step_emptied (hs : AssemblerProcess.Step a action a' out) (hk : Keyed a.manager)
    (h : Emptied a) : Emptied a' ∧ out.ready = [] := by
  have hnone : staging a' ++ readyIndices out.ready = [] := by
    apply List.eq_nil_iff_forall_not_mem.mpr
    intro i hi
    rcases step_staging hs hk hi with hst | ⟨e, he, hkeep⟩
    · rw [h.staging] at hst
      cases hst
    · exact absurd hkeep (by rw [h.not_kept he]; simp)
  obtain ⟨hstaging, hready⟩ := List.append_eq_nil_iff.mp hnone
  refine ⟨?_, readyIndices_eq_nil hready⟩
  have entries {m : EpisodeManager} (hm : ∀ (i : UInt32) (e' : PendingEpisode),
      m.episodes[i]? = some e' →
      ∃ e, a.manager.episodes[i]? = some e ∧ e'.keepRequested = e.keepRequested) :
      ∀ entry ∈ m.episodes.toList, entry.2.keepRequested = false := by
    intro entry hentry
    obtain ⟨e, he, heq⟩ := hm entry.1 entry.2
      (Std.TreeMap.mem_toList_iff_getElem?_eq_some.mp hentry)
    exact heq.trans (h.not_kept he)
  have keep (i : UInt32) (e : PendingEpisode) (he : a.manager.episodes[i]? = some e) :
      ∃ e', a.manager.episodes[i]? = some e' ∧ e.keepRequested = e'.keepRequested := ⟨e, he, rfl⟩
  cases hs with
  | control nowUs phase hphase hpop =>
    next event control =>
    obtain ⟨hp, -⟩ := Queue.pop_spec hpop
    have hkeeps := h.keeps
    rw [hp] at hkeeps
    constructor
    · exact fun event he => hkeeps event (List.mem_cons_of_mem _ he)
    · rintro ⟨i, e'⟩ hentry
      have he : (a.manager.onControlEvent event nowUs).2.episodes[i]? = some e' :=
        Std.TreeMap.mem_toList_iff_getElem?_eq_some.mp hentry
      have hev := hkeeps event List.mem_cons_self
      rw [EpisodeManager.onControlEvent_lookup] at he
      cases event with
      | recordingStart k ts =>
        simp only at he
        split at he
        · cases he
          rfl
        · exact h.not_kept he
      | recordingStop k ts =>
        simp only at he
        split at he
        · obtain ⟨e₀, he₀, rfl⟩ := Option.map_eq_some_iff.mp he
          have hkeep := h.not_kept he₀
          exact hkeep
        · exact h.not_kept he
      | episodeKeep k => cases hev
      | episodeDiscard k =>
        simp only at he
        split at he
        · cases he
        · exact h.not_kept he
      | shutdown => exact h.not_kept he
      | modeSwitch mode => exact h.not_kept he
    · exact hstaging
  | samples hframe hlookup hmem =>
    refine ⟨h.keeps, entries fun i e' he' => ?_, hstaging⟩
    obtain ⟨e, he, hsame⟩ := hlookup i e' he'
    exact ⟨e, he, hsame.keepRequested⟩
  | dispatch nowUs now hd =>
    refine ⟨h.keeps, entries fun i e he => ?_, hstaging⟩
    exact keep i e ((dispatched hk hd).survives i e he)
  | _ => exact ⟨h.keeps, entries keep, hstaging⟩

theorem Emptied.packet (h : Emptied a) (c : String) (header : EncodedPacketHeader)
    (payload : List UInt8) :
    Emptied { a with manager := a.manager.onPacket c header payload } := by
  constructor
  · exact h.keeps
  · intro entry hentry
    have he := Std.TreeMap.mem_toList_iff_getElem?_eq_some.mp hentry
    rw [EpisodeManager.onPacket_lookup] at he
    split at he
    · obtain ⟨e, he, heq⟩ := Option.map_eq_some_iff.mp he
      rw [← heq, e.onPacket_keepRequested]
      exact h.not_kept he
    · exact h.not_kept he
  · exact h.staging

/-- What the staging worker has goes out on the ready topic, unless staging fails. -/
theorem step_handed (hs : AssemblerProcess.Step a action a' out) (hok : Stages action)
    (hi : i ∈ staging a) : i ∈ staging a' ∨ i ∈ readyIndices out.ready := by
  cases hs with
  | dispatch nowUs now hd =>
    refine Or.inl ?_
    simp only [staging, Queue.pending_publish, stagedIndices_append, List.mem_append] at hi ⊢
    tauto
  | event hpop =>
    obtain ⟨hp, -⟩ := Queue.pop_spec hpop
    simp only [staging, readyIndices, hp, List.flatMap_cons, List.map_append,
      List.mem_append] at hi ⊢
    tauto
  | askShutdown hr he hf =>
    refine Or.inl ?_
    simp only [staging, Queue.pending_publish, stagedIndices_append, List.mem_append] at hi ⊢
    tauto
  | stage result hpop =>
    next input commands =>
    obtain ⟨hp, -⟩ := Queue.pop_spec hpop
    cases result with
    | error message => cases hok
    | ok stagingDir =>
      refine Or.inl ?_
      have hc : stagedIndices a.commands.pending =
          input.episodeIndex :: stagedIndices commands.pending := by
        rw [hp]
        rfl
      simp only [staging, readyIndices, hc, stageEvent, readyOf, Queue.pending_publish,
        List.flatMap_append, List.flatMap_singleton, List.map_append, List.map_cons, List.map_nil,
        List.mem_append, List.mem_cons, List.not_mem_nil, or_false] at hi ⊢
      tauto
  | endWorker result hpop =>
    obtain ⟨hp, -⟩ := Queue.pop_spec hpop
    refine Or.inl ?_
    simpa [staging, readyIndices, stagedIndices, stagedInputs, hp, readyOf] using hi
  | _ => exact Or.inl hi

end Assembler

structure Invariant (config : AssemblerRuntimeConfigV2) (n₀ : ℕ) (s : State) : Prop extends
    Topics config n₀ s where
  storageControl : s.storage.control.log = s.controller.topic
  encoders : ∀ channelId, Streams (s.encoders channelId)
  entries : Entries s.assembler fun channelId => (s.encoders channelId).packets
  serves : Serves s.storage
  through : s.storage.shutdownSent = true → s.controller.phase = .exited ∧ Through s

/-- Where a kept and complete episode is until it is stored. -/
def Kept (s : State) (i : UInt32) : Prop :=
  KeptComplete s.assembler.manager i ∨ i ∈ staging s.assembler ∨ i ∈ reached s.storage

theorem initial_invariant (config : AssemblerRuntimeConfigV2) (nextIndex prior : UInt32)
    (queueSize : String → ℕ) :
    Invariant config nextIndex.toNat (initial config nextIndex prior queueSize) where
  toTopics := initial_topics config nextIndex prior queueSize
  storageControl := rfl
  encoders := fun channelId => initial_streams _ (queueSize channelId)
  entries := by
    constructor <;> simp [Keeps, initial, Assembler.initial, EpisodeManager.new]
  serves := initial_serves
  through := fun hs => (by cases hs)

section Steps
variable {config : AssemblerRuntimeConfigV2} {n₀ : ℕ} {s : State} {i : UInt32}

theorem topic_stopsFirst (h : Topics config n₀ s) : StopsFirst s.controller.topic := by
  refine (protocol_stopsFirst h.protocol).append (stopsFirst_of_no_keep fun i hi => ?_)
  split at hi <;> simp at hi

theorem topic_keptOnly (h : Topics config n₀ s) : KeptOnly s.controller.topic := by
  intro i hk hd
  unfold CollectLoop.Controller.topic at hk hd
  refine protocol_keptOnly h.protocol i ?_ ?_
  · refine (List.mem_append.mp hk).resolve_right fun hk => ?_
    split at hk <;> simp at hk
  · refine (List.mem_append.mp hd).resolve_right fun hd => ?_
    split at hd <;> simp at hd

theorem shutdown_exited (h : Topics config n₀ s) (hs : .shutdown ∈ s.controller.topic) :
    s.controller.phase = .exited := by
  by_contra hp
  rw [CollectLoop.Controller.topic, if_neg hp, List.append_nil] at hs
  exact protocol_no_shutdown h.protocol hs

theorem Invariant.controller (h : Invariant config n₀ s) {a : CollectLoop.ControllerAction}
    (ha : Enabled s (.controller a)) (hc : Counting (next s (.controller a))) :
    Invariant config n₀ (next s (.controller a)) where
  toTopics := next_preserves_topics h.toTopics ha hc
  storageControl := by
    have ht := CollectLoop.next_topic (c := s.controller) ha
    rw [← h.storageControl, ← Queue.log_publish] at ht
    exact ht.symm
  encoders := fun channelId => ⟨(h.encoders channelId).forwarded, (h.encoders channelId).records⟩
  entries := ⟨h.entries.started, h.entries.keeps, h.entries.stops, h.entries.ends⟩
  serves := ⟨h.serves.serving, h.serves.closing, h.serves.ended, h.serves.errors,
    h.serves.complete⟩
  through := fun hs => absurd (h.through hs).1 (CollectLoop.enabled_phase ha)

theorem Invariant.assembler (h : Invariant config n₀ s) {a : AssemblerAction}
    (ha : Enabled s (.assembler a)) (hc : Counting (next s (.assembler a))) :
    Invariant config n₀ (next s (.assembler a)) where
  toTopics := next_preserves_topics h.toTopics ha hc
  storageControl := h.storageControl
  encoders := h.encoders
  entries := step_entries h.entries (AssemblerProcess.next_step ha) h.keyed
    (h.assemblerControl ▸ topic_startsFirst h.toTopics)
  serves := ⟨h.serves.serving, h.serves.closing, h.serves.ended, h.serves.errors,
    h.serves.complete⟩
  through := fun hs => by
    obtain ⟨hp, hempty, hready⟩ := h.through hs
    obtain ⟨hempty', hout⟩ := step_emptied (AssemblerProcess.next_step ha) h.keyed hempty
    refine ⟨hp, hempty', ?_⟩
    change s.storage.ready.pending ++ (AssemblerProcess.next s.assembler a).2.ready = []
    rw [hready, hout, List.append_nil]

theorem Invariant.packet (h : Invariant config n₀ s) (ha : Enabled s .packet)
    (hc : Counting (next s .packet)) : Invariant config n₀ (next s .packet) := by
  have ht := next_preserves_topics h.toTopics ha hc
  obtain he | ⟨channelId, header, payload, packets, -, hpop, he⟩ := takePacket_cases s <;>
    simp only [next, he] at ht ⊢
  · exact h
  · obtain ⟨-, hr⟩ := Queue.pop_spec hpop
    have hlog := Queue.log_pop hpop
    refine ⟨ht, h.storageControl, ?_, ?_, h.serves, fun hs => ?_⟩
    · refine update_encoder (P := Streams) h.encoders ⟨(h.encoders channelId).forwarded, ?_⟩
      simpa only [hlog] using (h.encoders channelId).records
    · exact h.entries.packet (by simpa using hr) fun c' hc' => by simp [hc']
    · obtain ⟨hp, hempty, hready⟩ := h.through hs
      exact ⟨hp, hempty.packet channelId header payload, hready⟩

theorem served_works {a : StorageAction} (hok : Served s (.storage a)) : Works a := by
  cases a with
  | work result => exact hok
  | _ => trivial

/-- The storage sends its worker the shutdown when it takes it from the control topic. -/
theorem storage_shutdownSent {st : Storage} {a : StorageAction}
    (hs : (StorageProcess.next st a).1.shutdownSent = true) : st.shutdownSent = true ∨
      a = .takeControl ∧ st.control.pending.head? = some .shutdown := by
  cases a with
  | takeEvent =>
    refine Or.inl ?_
    simp only [StorageProcess.next, Storage.takeEvent] at hs
    split at hs <;> exact hs
  | takeControl =>
    simp only [StorageProcess.next, Storage.takeControl] at hs
    split at hs
    · exact Or.inl hs
    · next event control hpop =>
      split at hs
      · next hev =>
        refine Or.inr ⟨rfl, ?_⟩
        rw [(Queue.pop_spec hpop).1, hev.1, List.head?_cons]
      · exact Or.inl hs
  | takeReady =>
    refine Or.inl ?_
    simp only [StorageProcess.next, Storage.takeReady, Storage.send] at hs
    split at hs
    · exact hs
    · split at hs <;> exact hs
  | work result =>
    refine Or.inl ?_
    simp only [StorageProcess.next, Storage.work] at hs
    split at hs
    · exact hs
    · split at hs <;> exact hs
    · exact hs
  | _ => exact Or.inl hs

theorem storage_control_log {st : Storage} (a : StorageAction) :
    (StorageProcess.next st a).1.control.log = st.control.log := by
  cases a with
  | takeEvent =>
    simp only [StorageProcess.next, Storage.takeEvent]
    split <;> rfl
  | takeControl =>
    simp only [StorageProcess.next, Storage.takeControl, Storage.send]
    split
    · rfl
    · next hpop =>
      have hlog := Queue.log_pop hpop
      split
      · split <;> exact hlog
      · exact hlog
  | takeReady =>
    simp only [StorageProcess.next, Storage.takeReady, Storage.send]
    split
    · rfl
    · split <;> rfl
  | work result =>
    simp only [StorageProcess.next, Storage.work]
    split
    · rfl
    · split <;> rfl
    · rfl
  | _ => rfl

theorem storage_ready {st : Storage} (a : StorageAction) (h : st.ready.pending = []) :
    (StorageProcess.next st a).1.ready.pending = [] := by
  cases a with
  | takeEvent =>
    simp only [StorageProcess.next, Storage.takeEvent]
    split <;> exact h
  | takeControl =>
    simp only [StorageProcess.next, Storage.takeControl, Storage.send]
    split
    · exact h
    · split
      · split <;> exact h
      · exact h
  | takeReady =>
    simp only [StorageProcess.next, Storage.takeReady, Storage.send]
    split
    · exact h
    · next hpop =>
      rw [(Queue.pop_spec hpop).1] at h
      cases h
  | work result =>
    simp only [StorageProcess.next, Storage.work]
    split
    · exact h
    · split <;> exact h
    · exact h
  | _ => exact h

theorem Invariant.storage (h : Invariant config n₀ s) {a : StorageAction}
    (ha : Enabled s (.storage a)) (hc : Counting (next s (.storage a)))
    (hok : Served s (.storage a)) : Invariant config n₀ (next s (.storage a)) where
  toTopics := next_preserves_topics h.toTopics ha hc
  storageControl := (storage_control_log a).trans h.storageControl
  encoders := h.encoders
  entries := ⟨h.entries.started, h.entries.keeps, h.entries.stops, h.entries.ends⟩
  serves := next_serves h.serves ha (served_works hok) fun hs => (h.through hs).2.2
  through := fun hs => by
    have hold : s.controller.phase = .exited ∧ Through s := by
      rcases storage_shutdownSent hs with hs | ⟨rfl, hhead⟩
      · exact h.through hs
      · refine ⟨shutdown_exited h.toTopics ?_, hok hhead⟩
        rw [← h.storageControl, Queue.log]
        exact List.mem_append_right _ (List.mem_of_mem_head? hhead)
    obtain ⟨hp, hempty, hready⟩ := hold
    exact ⟨hp, ⟨hempty.keeps, hempty.entries, hempty.staging⟩, storage_ready a hready⟩

theorem Invariant.encoder (h : Invariant config n₀ s) {channelId : String} {a : EncoderAction}
    (ha : Enabled s (.encoder channelId a)) (hc : Counting (next s (.encoder channelId a))) :
    Invariant config n₀ (next s (.encoder channelId a)) where
  toTopics := next_preserves_topics h.toTopics ha hc
  storageControl := h.storageControl
  encoders := by
    have hnodup : (startIndices (s.encoders channelId).control.log).Nodup := by
      rw [h.encoderControl]
      exact (topic_startsFirst h.toTopics).nodup
    exact update_encoder (P := Streams) h.encoders
      (next_preserves_streams (h.encoders channelId) hnodup a)
  entries := by
    obtain ⟨new, hnew⟩ := EncoderProcess.next_packets (s.encoders channelId) a
    refine h.entries.mono fun c => ?_
    change (Function.update s.encoders channelId
      (EncoderProcess.next (s.encoders channelId) a).1 c).packets.received = _
    by_cases hcc : c = channelId
    · rw [hcc, Function.update_self, hnew, Queue.received_publish]
    · rw [Function.update_of_ne hcc]
  serves := h.serves
  through := h.through

theorem next_preserves_invariant (h : Invariant config n₀ s) {a : Action} (ha : Enabled s a)
    (hok : Served s a) (hc : Counting (next s a)) : Invariant config n₀ (next s a) := by
  cases a with
  | controller a => exact h.controller ha hc
  | assembler a => exact h.assembler ha hc
  | packet => exact h.packet ha hc
  | storage a => exact h.storage ha hc hok
  | encoder channelId a => exact h.encoder ha hc

theorem next_preserves_kept (h : Invariant config n₀ s) {a : Action} (ha : Enabled s a)
    (hok : Served s a) (hi : Kept s i) : Kept (next s a) i := by
  cases a with
  | assembler a =>
    have hs := AssemblerProcess.next_step (a := s.assembler) ha
    rcases hi with hi | hi | hi
    · have hnew : ∀ event control, s.assembler.control.pop = some (event, control) →
          ∀ j ∈ startIndex? event, j ∉ startIndices s.assembler.control.received := by
        intro event control hpop j hj
        cases event <;> cases hj
        exact taken_start_new h.toTopics hpop
      rcases step_complete hs h.keyed h.entries (h.assemblerControl ▸ topic_keptOnly h.toTopics)
        (h.assemblerControl ▸ topic_stopsFirst h.toTopics) hok.1 hnew hi with hi | hi
      · exact Or.inl hi
      · exact Or.inr (Or.inl hi)
    · rcases step_handed hs hok.2 hi with hi | hi
      · exact Or.inr (Or.inl hi)
      · refine Or.inr (Or.inr ?_)
        change i ∈ readyIndices (s.storage.ready.pending ++ _) ++ _ ++ _
        simp only [readyIndices, List.map_append, List.mem_append] at hi ⊢
        tauto
    · refine Or.inr (Or.inr ?_)
      change i ∈ readyIndices (s.storage.ready.pending ++ _) ++ _ ++ _
      simp only [reached, readyIndices, List.map_append, List.mem_append] at hi ⊢
      tauto
  | packet =>
    obtain he | ⟨channelId, header, payload, packets, -, hpop, he⟩ := takePacket_cases s <;>
      simp only [next, he]
    · exact hi
    · rcases hi with hi | hi
      · refine Or.inl (hi.packet h.entries ?_ hpop (h.encoders channelId).records.ordered)
        rw [h.channels, h.configured, List.length_map]
      · exact Or.inr hi
  | storage a =>
    rcases hi with hi | hi | hi
    · exact Or.inl hi
    · exact Or.inr (Or.inl hi)
    · exact Or.inr (Or.inr (next_reached h.serves ha (served_works hok)
        (fun hs => (h.through hs).2.2) hi))
  | controller a => exact hi
  | encoder channelId a => exact hi

/-- Once the storage has ended, a kept and complete episode is stored. -/
theorem Invariant.exited (h : Invariant config n₀ s) (hp : s.storage.phase = .exited)
    (hi : Kept s i) : i ∈ stored s.storage := by
  obtain ⟨-, hempty, hready⟩ := h.through (h.serves.exited_sent hp)
  rcases hi with ⟨e, he, hkeep, -⟩ | hi | hi
  · exact absurd hkeep (by rw [hempty.not_kept he]; simp)
  · rw [hempty.staging] at hi
    cases hi
  · exact h.serves.exited hp hready hi

end Steps

theorem run_counting {ok : State → Action → Prop} {s t : State} (h : Run ok s t)
    (hc : Counting t) : Counting s := by
  induction h with
  | refl => exact hc
  | tail _ _ _ ih => exact ih (next_counting hc)

theorem run_invariant (config : AssemblerRuntimeConfigV2) (nextIndex prior : UInt32)
    (queueSize : String → ℕ) {s : State}
    (h : Run Served (initial config nextIndex prior queueSize) s) (hc : Counting s) :
    Invariant config nextIndex.toNat s :=
  Path.invariant_of_bound (fun _ _ _ => next_counting)
    (initial_invariant config nextIndex prior queueSize)
    (fun _ _ ha hok hc h => next_preserves_invariant h ha hok hc) h hc

/-- While slots suffice, staging and storing succeed and the storage takes the shutdown last,
each episode that was ever kept and complete at the assembler is stored once the storage has
ended. -/
theorem kept_episodes_stored (config : AssemblerRuntimeConfigV2) (nextIndex prior : UInt32)
    (queueSize : String → ℕ) {s t : State}
    (hs : Run Served (initial config nextIndex prior queueSize) s) (ht : Run Served s t)
    (hc : Counting t) :
    ∀ i, KeptComplete s.assembler.manager i → t.storage.phase = .exited →
      i ∈ stored t.storage := by
  intro i hi hp
  have hinv := run_invariant config nextIndex prior queueSize hs (run_counting ht hc)
  have hend : Invariant config nextIndex.toNat t ∧ Kept t i := by
    refine Path.invariant_of_bound (P := fun u => Invariant config nextIndex.toNat u ∧ Kept u i)
      (fun _ _ _ => next_counting) ⟨hinv, Or.inl hi⟩ ?_ ht hc
    intro u a ha hok hc hu
    exact ⟨next_preserves_invariant hu.1 ha hok hc, next_preserves_kept hu.1 ha hok hu.2⟩
  exact hend.1.exited hp hend.2

def keptEpisode : List Action :=
  collectPoll [.start] ++ onChannel "cam0" encodeFirst ++ collectPoll [.stop] ++
    onChannel "cam0" encodeStop ++ collectPoll [.keep] ++
    List.replicate 3 (.assembler (.takeControl 0)) ++ .assembler .controlDrained ::
    List.replicate 2 .packet

def handOver : List Action :=
  [.assembler .nextSubscriber, .assembler .nextSubscriber, .assembler .observationsDrained,
    .assembler .actionsDrained, .assembler (.dispatch 0 fun _ => 0), .assembler .storedDrained,
    .assembler (.sweep 0), .assembler (.stage (.ok "staged")), .assembler .takeEvent]

def storageShutdown : List Action :=
  .controller .exit :: .storage .eventsDrained ::
    List.replicate 4 (.storage .takeControl) ++ [.storage .controlDrained, .storage .readyDrained,
      .storage (.work (.ok "")), .storage .takeEvent, .storage .eventsDrained,
      .storage .controlDrained, .storage .readyDrained]

def keptSession : State := keptEpisode.foldl next sampleSession

theorem handedOver_episode_stored : KeptComplete keptSession.assembler.manager 0 ∧
    ((handOver ++ storeOne ++ storageShutdown).foldl next keptSession).storage.phase = .exited ∧
    0 ∈ stored ((handOver ++ storeOne ++ storageShutdown).foldl next keptSession).storage :=
  ⟨by decide +kernel, by decide +kernel,
    kept_episodes_stored LerobotEpisodeConservation.sampleConfig 0 0 (fun _ => 32)
      (path_of_follows (l := keptEpisode) (by decide +kernel))
      (path_of_follows (l := handOver ++ storeOne ++ storageShutdown) (by decide +kernel))
      (by decide +kernel) 0 (by decide +kernel) (by decide +kernel)⟩

/-- The storage acts on the shutdown while the episode is still being staged, and ends without
having heard of it. -/
theorem staged_episode_unstored : ¬ ∀ config nextIndex prior queueSize s t,
    Run (fun _ _ => True) (initial config nextIndex prior queueSize) s →
    Run (fun _ _ => True) s t → Counting t → ∀ i, KeptComplete s.assembler.manager i →
    t.storage.phase = .exited → i ∈ stored t.storage := by
  intro hall
  have h := hall LerobotEpisodeConservation.sampleConfig 0 0 (fun _ => 32) _ _
    (path_of_follows (l := keptEpisode) (by decide +kernel))
    (path_of_follows (l := handOver.dropLast.dropLast ++ storageShutdown) (by decide +kernel))
    (by decide +kernel) 0 (by decide +kernel) (by decide +kernel)
  exact absurd h (by decide +kernel)

end ShutdownStorage
