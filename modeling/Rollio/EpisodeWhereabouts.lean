import Rollio.TerminalOutcomes

/-! Where a started episode is: discarded, pending, in a slot, announced dropped or known to be
stored. Only kept episodes are handed on, and the assembler outlives the collect loop. -/
namespace EpisodeWhereabouts
open BusMessages RuntimeConfig Clocks ControllerEpisode LerobotDataset LerobotEpisodeManager
open LerobotDispatch OrderedTables Queues PartialRuns ControlEvents CollectPipeline PipelineTopics
open TerminalOutcomes
open AssemblerProcess (Assembler AssemblerAction Outbox readyOf stageEvent publishDrops)
open StorageProcess (Storage StorageAction)

/-- What has become of `i` after its start, given the indices announced dropped. -/
def Accounted (a : Assembler) (dropped : List UInt32) (i : UInt32) : Prop :=
  .episodeDiscard i ∈ a.control.received ∨ i ∈ a.manager.episodes ∨ i ∈ a.manager.inFlight ∨
    i ∈ dropped ∨ i ∈ storedIndices a.stored.received

def Keeps (a : Assembler) : Prop :=
  ∀ (i : UInt32) (e : PendingEpisode), a.manager.episodes[i]? = some e →
    (e.keepRequested = true ↔ .episodeKeep i ∈ a.control.received)

structure Alive (a : Assembler) : Prop where
  phase : a.phase ≠ .exited
  workerRunning : a.workerRunning = true
  shutdownRequested : a.shutdownRequested = false
  commands : .shutdown ∉ a.commands.pending
  events : .shutdownComplete ∉ a.events.pending

section Assembler
variable {a a' : Assembler} {action : AssemblerAction} {out : Outbox} {dropped : List UInt32}

theorem Accounted.mono {i : UInt32} (h : Accounted a dropped i)
    (hc : ∀ event ∈ a.control.received, event ∈ a'.control.received)
    (hm : i ∈ a.manager.episodes → i ∈ a'.manager.episodes)
    (hf : i ∈ a.manager.inFlight → i ∈ a'.manager.inFlight)
    (hs : a'.stored.received = a.stored.received) : Accounted a' dropped i := by
  rcases h with h | h | h | h | h
  · exact Or.inl (hc _ h)
  · exact Or.inr (Or.inl (hm h))
  · exact Or.inr (Or.inr (Or.inl (hf h)))
  · exact Or.inr (Or.inr (Or.inr (Or.inl h)))
  · exact Or.inr (Or.inr (Or.inr (Or.inr (hs ▸ h))))

theorem Accounted.dropped_mono {i : UInt32} {more : List UInt32} (h : Accounted a dropped i) :
    Accounted a (dropped ++ more) i := by
  rcases h with h | h | h | h | h
  · exact Or.inl h
  · exact Or.inr (Or.inl h)
  · exact Or.inr (Or.inr (Or.inl h))
  · exact Or.inr (Or.inr (Or.inr (Or.inl (List.mem_append_left _ h))))
  · exact Or.inr (Or.inr (Or.inr (Or.inr h)))

theorem accounted_control {event : ControlEvent} {control : Queue ControlEvent} {nowUs : UInt64}
    {i : UInt32} (hi : i ∈ startIndices a'.control.received)
    (h : ∀ i ∈ startIndices a.control.received, Accounted a dropped i)
    (hr : control.received = a.control.received ++ [event])
    (hc : a'.control = control) (hm : a'.manager = (a.manager.onControlEvent event nowUs).2)
    (hs : a'.stored.received = a.stored.received) : Accounted a' dropped i := by
  have hmem := EpisodeManager.mem_onControlEvent a.manager event nowUs i
  have hf := (EpisodeManager.frame_onControlEvent a.manager event nowUs).inFlight
  rw [hc, hr, startIndices_append, List.mem_append] at hi
  rcases hi with hi | hi
  · by_cases hd : event = .episodeDiscard i
    · exact Or.inl (by rw [hc, hr, hd]; simp)
    · refine (h i hi).mono (fun e he => ?_) (fun he => ?_) (fun hin => ?_) hs
      · rw [hc, hr]
        exact List.mem_append_left _ he
      · rw [hm, hmem]
        cases event with
        | recordingStart k ts => exact Or.inr he
        | episodeDiscard k => exact ⟨fun hik => hd (by rw [hik]), he⟩
        | _ => exact he
      · rw [hm, hf]
        exact hin
  · refine Or.inr (Or.inl ?_)
    obtain ⟨ts, hts⟩ := mem_startIndices.mp hi
    obtain rfl := List.mem_singleton.mp hts
    rw [hm, hmem]
    exact Or.inl rfl

/-- A pending episode stays or gets a slot or a notice when the manager dispatches. -/
theorem dispatched_episode {m : EpisodeManager} {running : Bool} {nowUs : UInt64}
    {now : UInt32 → Instant} {d : Dispatch} (hk : Keyed m)
    (h : dispatchReadyEpisodes m ⟨running, []⟩ nowUs now = .ok d) {i : UInt32}
    (hi : i ∈ m.episodes) : i ∈ d.manager.episodes ∨ i ∈ d.manager.inFlight ∨
      i ∈ droppedIndices d.outcome.dropped := by
  have hf := dispatch_fates hk h i
  obtain ⟨inputs, hsent, hin, -⟩ := (dispatched hk h).sent
  simp only [fates, hi, if_true, droppedIndices, List.map_nil, List.count_nil,
    stagedIndices_nil, Nat.add_zero, hsent, List.nil_append, stagedIndices_stages] at hf
  by_cases hm : i ∈ d.manager.episodes
  · exact Or.inl hm
  · rw [if_neg hm] at hf
    by_cases hd : i ∈ droppedIndices d.outcome.dropped
    · exact Or.inr (Or.inr hd)
    · rw [droppedIndices] at hd
      rw [List.count_eq_zero.mpr hd] at hf
      exact Or.inr (Or.inl ((hin i).mpr (Or.inr (List.count_pos_iff.mp (by omega)))))

theorem step_accounted (h : AssemblerProcess.Step a action a' out) (hk : Keyed a.manager)
    (hacc : ∀ i ∈ startIndices a.control.received, Accounted a dropped i) :
    ∀ i ∈ startIndices a'.control.received,
      Accounted a' (dropped ++ droppedTopic out.dropped) i := by
  cases h with
  | control nowUs phase hphase hpop =>
    intro i hi
    exact Accounted.dropped_mono
      (accounted_control hi hacc (Queue.pop_spec hpop).2 rfl rfl rfl)
  | samples hframe hlookup hmem =>
    intro i hi
    exact Accounted.dropped_mono ((hacc i hi).mono (fun _ he => he) (hmem i).mpr
      (fun hf => hframe.inFlight ▸ hf) rfl)
  | dispatch nowUs now hd =>
    intro i hi
    obtain ⟨inputs, -, hin, -⟩ := (dispatched hk hd).sent
    rw [publishDrops_dropped]
    rcases hacc i hi with h | h | h | h | h
    · exact Or.inl h
    · rcases dispatched_episode hk hd h with h | h | h
      · exact Or.inr (Or.inl h)
      · exact Or.inr (Or.inr (Or.inl h))
      · exact Or.inr (Or.inr (Or.inr (Or.inl (List.mem_append_right _ h))))
    · exact Or.inr (Or.inr (Or.inl ((hin i).mpr (Or.inl h))))
    · exact Or.inr (Or.inr (Or.inr (Or.inl (List.mem_append_left _ h))))
    · exact Or.inr (Or.inr (Or.inr (Or.inr h)))
  | release hpop =>
    intro i hi
    obtain ⟨-, hr⟩ := Queue.pop_spec hpop
    next event stored =>
    rcases hacc i hi with h | h | h | h | h
    · exact Or.inl h
    · exact Or.inr (Or.inl h)
    · by_cases hik : i = event.episodeIndex
      · exact Or.inr (Or.inr (Or.inr (Or.inr (by simp [hr, storedIndices, hik]))))
      · exact Or.inr (Or.inr (Or.inl (mem_erase.mpr ⟨hik, h⟩)))
    · exact Or.inr (Or.inr (Or.inr (Or.inl (List.mem_append_left _ h))))
    · refine Or.inr (Or.inr (Or.inr (Or.inr ?_)))
      simp only [hr, storedIndices, List.map_append]
      exact List.mem_append_left _ h
  | sweep now =>
    intro i hi
    have hdrop : droppedTopic (a.sweep now).2.dropped = a.manager.staleSlots now := by
      refine (publishDrops_dropped a.manager.config.processId _).trans ?_
      simp [droppedIndices, Function.comp_def]
    rw [hdrop]
    rcases hacc i hi with h | h | h | h | h
    · exact Or.inl h
    · exact Or.inr (Or.inl h)
    · by_cases hs : i ∈ a.manager.staleSlots now
      · exact Or.inr (Or.inr (Or.inr (Or.inl (List.mem_append_right _ hs))))
      · exact Or.inr (Or.inr (Or.inl (mem_foldl_erase.mpr ⟨hs, h⟩)))
    · exact Or.inr (Or.inr (Or.inr (Or.inl (List.mem_append_left _ h))))
    · exact Or.inr (Or.inr (Or.inr (Or.inr h)))
  | _ => exact fun i hi => Accounted.dropped_mono (hacc i hi)

theorem keeps_control {event : ControlEvent} {control : Queue ControlEvent} {nowUs : UInt64}
    (h : Keeps a) (hfirst : StartsFirst a.control.log)
    (hpop : a.control.pop = some (event, control)) {i : UInt32} {e : PendingEpisode}
    (he : (a.manager.onControlEvent event nowUs).2.episodes[i]? = some e) :
    e.keepRequested = true ↔ .episodeKeep i ∈ control.received := by
  obtain ⟨hp, hr⟩ := Queue.pop_spec hpop
  have other (hne : event ≠ .episodeKeep i) :
      .episodeKeep i ∈ control.received ↔ .episodeKeep i ∈ a.control.received := by
    simp [hr, Ne.symm hne]
  rw [EpisodeManager.onControlEvent_lookup] at he
  cases event with
  | recordingStart k ts =>
    rw [other (by simp)]
    simp only at he
    split at he
    · next hik =>
      subst hik
      cases he
      rw [Queue.log, hp] at hfirst
      have hfresh := hfirst.fresh
      exact ⟨fun hk => (by cases hk), fun hk => absurd rfl (hfresh _ hk)⟩
    · exact h i e he
  | recordingStop k ts =>
    rw [other (by simp)]
    simp only at he
    split at he
    · obtain ⟨e₀, he₀, rfl⟩ := Option.map_eq_some_iff.mp he
      exact h i e₀ he₀
    · exact h i e he
  | episodeKeep k =>
    simp only at he
    split at he
    · next hik =>
      obtain ⟨e₀, -, rfl⟩ := Option.map_eq_some_iff.mp he
      exact ⟨fun _ => by simp [hr, hik], fun _ => rfl⟩
    · next hik =>
      rw [other (by simpa using Ne.symm hik)]
      exact h i e he
  | episodeDiscard k =>
    rw [other (by simp)]
    simp only at he
    split at he
    · cases he
    · exact h i e he
  | shutdown => exact (h i e he).trans (other (by simp)).symm
  | modeSwitch mode => exact (h i e he).trans (other (by simp)).symm

theorem step_keeps (h : AssemblerProcess.Step a action a' out) (hk : Keyed a.manager)
    (hfirst : StartsFirst a.control.log) (hkeeps : Keeps a) : Keeps a' := by
  cases h with
  | control nowUs phase hphase hpop => exact fun i e he => keeps_control hkeeps hfirst hpop he
  | samples hframe hlookup hmem =>
    intro i e' he'
    obtain ⟨e, he, hs⟩ := hlookup i e' he'
    rw [hs.keepRequested]
    exact hkeeps i e he
  | dispatch nowUs now hd =>
    exact fun i e he => hkeeps i e ((dispatched hk hd).survives i e he)
  | _ => exact hkeeps

theorem step_staging (h : AssemblerProcess.Step a action a' out) (hk : Keyed a.manager)
    {i : UInt32} (hi : i ∈ staging a' ++ readyIndices out.ready) : i ∈ staging a ∨
      ∃ e : PendingEpisode, a.manager.episodes[i]? = some e ∧ e.keepRequested = true := by
  cases h with
  | dispatch nowUs now hd =>
    obtain ⟨inputs, hsent, -, horigin⟩ := (dispatched hk hd).sent
    simp only [staging, Queue.pending_publish, hsent, publishDrops_ready, stagedIndices_append,
      stagedIndices_stages, readyIndices, List.nil_append, List.map_nil, List.append_nil,
      List.mem_append] at hi ⊢
    rcases hi with (hi | hi) | hi
    · exact Or.inl (Or.inl hi)
    · obtain ⟨input, hin, rfl⟩ := List.mem_map.mp hi
      obtain ⟨e, he, hv, -⟩ := horigin input hin
      exact Or.inr ⟨e, he, ready_keepRequested hv⟩
    · exact Or.inl (Or.inr hi)
  | event hpop =>
    obtain ⟨hp, -⟩ := Queue.pop_spec hpop
    refine Or.inl ?_
    simp only [staging, readyIndices, hp, List.flatMap_cons, List.map_append,
      List.mem_append] at hi ⊢
    tauto
  | askShutdown hr he hf =>
    refine Or.inl ?_
    simpa [staging, readyIndices, stagedIndices, stagedInputs] using hi
  | stage result hpop =>
    next input commands =>
    obtain ⟨hp, -⟩ := Queue.pop_spec hpop
    have hc : stagedIndices a.commands.pending =
        [input.episodeIndex] ++ stagedIndices commands.pending := by
      rw [hp]
      rfl
    have hs : i ∈ readyIndices (readyOf (stageEvent input result)) → i = input.episodeIndex := by
      cases result with
      | ok stagingDir => exact List.mem_singleton.mp
      | error message => exact fun h => by cases h
    refine Or.inl ?_
    simp only [staging, readyIndices, hc, Queue.pending_publish, List.flatMap_append,
      List.flatMap_singleton, List.map_append, List.map_nil, List.append_nil, List.mem_append,
      List.mem_singleton] at hi hs ⊢
    tauto
  | endWorker result hpop =>
    obtain ⟨hp, -⟩ := Queue.pop_spec hpop
    refine Or.inl ?_
    simpa [staging, readyIndices, stagedIndices, stagedInputs, hp, readyOf] using hi
  | sweep now =>
    have hs : staging (a.sweep now).1 ++ readyIndices (a.sweep now).2.ready = staging a ++ [] := rfl
    rw [hs, List.append_nil] at hi
    exact Or.inl hi
  | _ => exact Or.inl (by simpa [staging, readyIndices] using hi)

theorem stageEvent_ne (input : EpisodeAssemblyInput) (result : Except String String) :
    stageEvent input result ≠ .shutdownComplete := by
  cases result <;> simp [stageEvent]

theorem step_alive (h : AssemblerProcess.Step a action a' out) (hk : Keyed a.manager)
    (hno : .shutdown ∉ a.control.log) (halive : Alive a) : Alive a' := by
  obtain ⟨hphase, hrun, hreq, hcom, hev⟩ := halive
  cases h with
  | move phase hexit =>
    exact ⟨fun he => (by rw [hexit he] at hrun; cases hrun), hrun, hreq, hcom, hev⟩
  | control nowUs phase hne hpop =>
    next event control =>
    refine ⟨hne, hrun, ?_, hcom, hev⟩
    have hs : event ≠ .shutdown := fun he => hno (he ▸ Queue.mem_log_of_pop hpop)
    cases event <;> simp_all [EpisodeManager.onControlEvent]
  | samples hframe hlookup hmem => exact ⟨hphase, hrun, hreq, hcom, hev⟩
  | dispatch nowUs now hd =>
    obtain ⟨inputs, hsent, -, -⟩ := (dispatched hk hd).sent
    refine ⟨by simp, hrun, hreq, ?_, hev⟩
    simpa [hsent] using hcom
  | release hpop => exact ⟨hphase, hrun, hreq, hcom, hev⟩
  | sweep now => exact ⟨by simp [Assembler.sweep], hrun, hreq, hcom, hev⟩
  | event hpop =>
    next event events =>
    obtain ⟨hp, -⟩ := Queue.pop_spec hpop
    rw [hp, List.mem_cons, not_or] at hev
    exact ⟨by simpa [Ne.symm hev.1] using hphase, hrun, hreq, hcom, hev.2⟩
  | askShutdown hr he hf =>
    rw [hreq] at hr
    cases hr
  | stage result hpop =>
    next input commands =>
    obtain ⟨hp, -⟩ := Queue.pop_spec hpop
    rw [hp, List.mem_cons, not_or] at hcom
    exact ⟨hphase, hrun, hreq, hcom.2, by simpa [Ne.symm (stageEvent_ne input result)] using hev⟩
  | endWorker result hpop =>
    obtain ⟨hp, -⟩ := Queue.pop_spec hpop
    exact absurd (by rw [hp]; exact List.mem_cons_self) hcom

end Assembler

structure Whereabouts (config : AssemblerRuntimeConfigV2) (n₀ : ℕ) (s : State) : Prop extends
    Topics config n₀ s where
  accounted : ∀ i ∈ startIndices s.assembler.control.received,
    Accounted s.assembler (droppedTopic s.controller.dropped.log) i
  keeps : Keeps s.assembler
  kept : ∀ i ∈ handedOn s, .episodeKeep i ∈ s.controller.emitted
  alive : s.controller.phase ≠ .exited → Alive s.assembler

theorem initial_whereabouts (config : AssemblerRuntimeConfigV2) (nextIndex prior : UInt32)
    (queueSize : String → ℕ) :
    Whereabouts config nextIndex.toNat (initial config nextIndex prior queueSize) where
  toTopics := initial_topics config nextIndex prior queueSize
  accounted := by simp [initial, Assembler.initial]
  keeps := by simp [Keeps, initial, Assembler.initial, EpisodeManager.new]
  kept := by simp [handedOn, staging, storing, initial, Assembler.initial,
    CollectLoop.Controller.initial, Queue.log, storedIndices, readyIndices]
  alive := by
    intro
    constructor <;> simp [initial, Assembler.initial]

section Steps
variable {config : AssemblerRuntimeConfigV2} {n₀ : ℕ} {s : State}

theorem mem_handedOn {i : UInt32} : i ∈ handedOn s ↔ i ∈ staging s.assembler ∨
    i ∈ storing s.storage ∨ i ∈ storedIndices s.controller.stored.log := by
  simp only [handedOn, List.mem_append, or_assoc]

theorem keep_emitted (h : Topics config n₀ s) {i : UInt32}
    (hi : .episodeKeep i ∈ s.assembler.control.log) : .episodeKeep i ∈ s.controller.emitted := by
  rw [h.assemblerControl, CollectLoop.Controller.topic] at hi
  rcases List.mem_append.mp hi with hi | hi
  · exact hi
  · split at hi <;> simp at hi

theorem Whereabouts.controller (h : Whereabouts config n₀ s)
    {a : CollectLoop.ControllerAction} (ha : Enabled s (.controller a))
    (hc : Counting (next s (.controller a))) :
    Whereabouts config n₀ (next s (.controller a)) where
  toTopics := next_preserves_topics h.toTopics ha hc
  accounted := fun i hi => by
    have hd := CollectLoop.next_dropped_log s.controller a
    refine Accounted.mono (a := s.assembler) ?_ (fun _ he => he) id id rfl
    exact hd.symm ▸ h.accounted i hi
  keeps := h.keeps
  kept := fun i hi => by
    obtain ⟨events, he⟩ := CollectLoop.next_emitted s.controller a
    have hs := CollectLoop.next_stored_log s.controller a
    have hold : i ∈ handedOn s := by
      rw [mem_handedOn] at hi ⊢
      exact hi.imp_right (Or.imp_right fun hi => hs ▸ hi)
    exact he.symm ▸ List.mem_append_left _ (h.kept i hold)
  alive := fun _ => by
    obtain ⟨hphase, hrun, hreq, hcom, hev⟩ := h.alive (CollectLoop.enabled_phase ha)
    exact ⟨hphase, hrun, hreq, hcom, hev⟩

theorem Whereabouts.assembler (h : Whereabouts config n₀ s) {a : AssemblerAction}
    (ha : Enabled s (.assembler a)) (hc : Counting (next s (.assembler a))) :
    Whereabouts config n₀ (next s (.assembler a)) where
  toTopics := next_preserves_topics h.toTopics ha hc
  accounted := fun i hi => by
    have hs := step_accounted (AssemblerProcess.next_step ha) h.keyed h.accounted i hi
    have hd : droppedTopic (next s (.assembler a)).controller.dropped.log =
        droppedTopic s.controller.dropped.log ++
          droppedTopic (AssemblerProcess.next s.assembler a).2.dropped := by
      simp only [next, State.publishReady, State.publishDropped, State.publishBackpressure,
        Queue.log_publish, droppedTopic, List.map_append]
    rw [hd]
    exact hs
  keeps := step_keeps (AssemblerProcess.next_step ha) h.keyed
    (h.assemblerControl ▸ topic_startsFirst h.toTopics) h.keeps
  kept := fun i hi => by
    have hst : i ∈ storing (next s (.assembler a)).storage → i ∈ storing s.storage ∨
        i ∈ readyIndices (AssemblerProcess.next s.assembler a).2.ready := by
      simp only [next, State.publishReady, State.publishDropped, State.publishBackpressure,
        storing, readyIndices, Queue.pending_publish, List.map_append, List.mem_append]
      tauto
    have hnew : i ∈ staging (AssemblerProcess.next s.assembler a).1 ++
        readyIndices (AssemblerProcess.next s.assembler a).2.ready →
        .episodeKeep i ∈ s.controller.emitted := fun hm => by
      rcases step_staging (AssemblerProcess.next_step ha) h.keyed hm with hm | ⟨e, he, hk⟩
      · exact h.kept i (mem_handedOn.mpr (Or.inl hm))
      · exact keep_emitted h.toTopics (List.mem_append_left _ ((h.keeps i e he).mp hk))
    rcases mem_handedOn.mp hi with hi | hi | hi
    · exact hnew (List.mem_append_left _ hi)
    · rcases hst hi with hi | hi
      · exact h.kept i (mem_handedOn.mpr (Or.inr (Or.inl hi)))
      · exact hnew (List.mem_append_right _ hi)
    · exact h.kept i (mem_handedOn.mpr (Or.inr (Or.inr hi)))
  alive := fun hp => by
    refine step_alive (AssemblerProcess.next_step ha) h.keyed ?_ (h.alive hp)
    have hp' : s.controller.phase ≠ .exited := hp
    rw [h.assemblerControl, CollectLoop.Controller.topic, if_neg hp', List.append_nil]
    exact protocol_no_shutdown h.protocol

theorem Whereabouts.packet (h : Whereabouts config n₀ s) (ha : Enabled s .packet)
    (hc : Counting (next s .packet)) : Whereabouts config n₀ (next s .packet) := by
  have ht := next_preserves_topics h.toTopics ha hc
  obtain he | ⟨channelId, header, payload, packets, -, -, he⟩ := takePacket_cases s <;>
    simp only [next, he] at ht ⊢
  · exact h
  · have hm (i : UInt32) := EpisodeManager.mem_onPacket s.assembler.manager channelId header
      payload i
    refine ⟨ht, fun i hi => ?_, fun i e' he' => ?_, h.kept, fun hp => ?_⟩
    · exact (h.accounted i hi).mono (fun _ he => he) (hm i).mpr id rfl
    · rw [EpisodeManager.onPacket_lookup] at he'
      split at he'
      · obtain ⟨e, he, rfl⟩ := Option.map_eq_some_iff.mp he'
        rw [e.onPacket_keepRequested]
        exact h.keeps i e he
      · exact h.keeps i e' he'
    · obtain ⟨hphase, hrun, hreq, hcom, hev⟩ := h.alive hp
      exact ⟨hphase, hrun, hreq, hcom, hev⟩

theorem Whereabouts.storage (h : Whereabouts config n₀ s) {a : StorageAction}
    (ha : Enabled s (.storage a)) (hc : Counting (next s (.storage a))) :
    Whereabouts config n₀ (next s (.storage a)) where
  toTopics := next_preserves_topics h.toTopics ha hc
  accounted := fun i hi => (h.accounted i hi).mono (fun _ he => he) id id rfl
  keeps := h.keeps
  kept := fun i hi => by
    refine h.kept i (mem_handedOn.mpr ?_)
    have hcount := next_storing s.storage a i
    have hpos (hm : i ∈ storing (StorageProcess.next s.storage a).1 ∨
        i ∈ storedIndices (StorageProcess.next s.storage a).2) : i ∈ storing s.storage := by
      refine List.count_pos_iff.mp ?_
      rcases hm with hm | hm <;> have := List.count_pos_iff.mpr hm <;> omega
    rcases mem_handedOn.mp hi with hi | hi | hi
    · exact Or.inl hi
    · exact Or.inr (Or.inl (hpos (Or.inl hi)))
    · simp only [next, State.publishStored, Queue.log_publish, storedIndices,
        List.map_append] at hi
      rcases List.mem_append.mp hi with hi | hi
      · exact Or.inr (Or.inr hi)
      · exact Or.inr (Or.inl (hpos (Or.inr hi)))
  alive := fun hp => by
    obtain ⟨hphase, hrun, hreq, hcom, hev⟩ := h.alive hp
    exact ⟨hphase, hrun, hreq, hcom, hev⟩

theorem next_preserves_whereabouts (h : Whereabouts config n₀ s) {a : Action}
    (ha : Enabled s a) (hc : Counting (next s a)) : Whereabouts config n₀ (next s a) := by
  cases a with
  | controller a => exact h.controller ha hc
  | assembler a => exact h.assembler ha hc
  | packet => exact h.packet ha hc
  | storage a => exact h.storage ha hc
  | encoder channelId a =>
    exact ⟨next_preserves_topics h.toTopics ha hc, h.accounted, h.keeps, h.kept, h.alive⟩

end Steps

end EpisodeWhereabouts
