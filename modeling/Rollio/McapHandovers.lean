import Rollio.McapAssembler

/-! What the MCAP assembler hands to its staging worker, and what it announces: each episode at most
once, as it was recorded, and in order. -/
namespace McapHandovers
open BusMessages RuntimeConfig Clocks PacketDeliveries McapPackets McapStaging McapEpisodeManager
open McapAssembler OrderedTables PartialRuns Queues AnsweringWorkers
open Std (TreeMap)

section Staging
variable {bfbsDir : String} {config : AssemblerRuntimeConfigV2} {a : Assembler}
  {actions : List Action} {x : Action}

/-- The buffer of a stream that has ended without a gap it reports: the packets from the first
keyframe on, in order, and none that came ahead of it. -/
structure StreamRecorded (deliveries : List Delivery) (buffer : CameraStreamBuffer) : Prop where
  packets : buffer.packets = (fromKeyframe deliveries).filterMap packet?
  numbered : (recorded deliveries).IsChain Accepted
  ended : deliveries.any Delivery.isEos = true
  unfailed : buffer.failed = none

/-- The samples of an episode are those that were brought, in order, and it has a stream for each
camera of the configuration. -/
structure Recorded (config : AssemblerRuntimeConfigV2) (i : UInt32) (ts : UInt64)
    (arrivals : List Arrival) (e : PendingEpisode) : Prop where
  episodeIndex : e.episodeIndex = i
  startTimeUs : e.startTimeUs = ts
  observations : ∀ key : String,
    e.observationSamples[key]?.getD [] = arrivals.filterMap (observationOf key)
  actions : ∀ key : String, e.actionSamples[key]?.getD [] = arrivals.filterMap (actionOf key)
  cameras : ∀ channelId : String,
    channelId ∈ e.cameraStreams ↔ channelId ∈ config.cameras.map (·.channelId)
  streams : ∀ (channelId : String) (buffer : CameraStreamBuffer),
    e.cameraStreams[channelId]? = some buffer →
      StreamRecorded (arrivals.filterMap (deliveryOf channelId)) buffer

/-- The episode was started once and kept and stopped since then, and it is what was recorded of it:
the samples brought while it was active and the packets of its own index. -/
def AsRecorded (config : AssemblerRuntimeConfigV2) (actions : List Action) (e : PendingEpisode) :
    Prop :=
  ∃ i ts pre nowUs steps post,
    actions = pre ++ .control (.recordingStart i ts) nowUs :: (steps ++ post) ∧
    steps.any (reopens i) = false ∧ steps.any (keeps i) = true ∧
    Recorded config i ts (delivered i (some i) steps) e ∧
    e.stopTimeUs = lastStop i steps ∧ e.stopTimeUs.isSome = true

/-- A buffer that is neither failed nor without its end holds what its stream recorded. -/
theorem stream_recorded {deliveries : List Delivery}
    (hfailed : (deliveries.foldl observe {}).failed = none)
    (hended : (deliveries.foldl observe {}).eosReceived = true) :
    StreamRecorded deliveries (deliveries.foldl observe {}) where
  packets := (unfailed_buffer hfailed).1
  numbered := (unfailed_buffer hfailed).2
  ended := by rw [← eosReceived_deliverAll, buffer_deliverAll, hended]
  unfailed := hfailed

theorem mem_cameras {i : UInt32} {ts : UInt64} {arrivals : List Arrival} {e : PendingEpisode}
    (h : Holds config i ts arrivals e) (channelId : String) :
    channelId ∈ e.cameraStreams ↔ channelId ∈ config.cameras.map (·.channelId) := by
  rw [mem_iff_lookup, h.cameras]
  by_cases hmem : channelId ∈ config.cameras.map (·.channelId) <;> simp [hmem]

theorem recorded_of_holds {i : UInt32} {ts : UInt64} {arrivals : List Arrival} {e : PendingEpisode}
    (h : Holds config i ts arrivals e)
    (hstreams : ∀ (channelId : String) (buffer : CameraStreamBuffer),
      e.cameraStreams[channelId]? = some buffer →
        buffer.failed = none ∧ buffer.eosReceived = true) :
    Recorded config i ts arrivals e where
  episodeIndex := h.episodeIndex
  startTimeUs := h.startTimeUs
  observations := h.observations
  actions := h.actions
  cameras := mem_cameras h
  streams := fun channelId buffer hbuffer => by
    obtain ⟨hfailed, hended⟩ := hstreams channelId buffer hbuffer
    have hmem := (mem_cameras h channelId).mp (mem_iff_lookup.mpr ⟨buffer, hbuffer⟩)
    have hfold := h.cameras channelId
    rw [if_pos hmem, hbuffer, Option.some.injEq] at hfold
    rw [hfold] at hfailed hended ⊢
    exact stream_recorded hfailed hended

theorem handed_as_recorded {e : PendingEpisode}
    (he : .stage e ∈ (run bfbsDir config actions).worker.commands.log) :
    AsRecorded config actions e := by
  obtain ⟨i, ts, steps, h⟩ := (run_traces bfbsDir config actions).handed e he
  obtain ⟨pre, nowUs, post, hactions⟩ := h.history
  have hholds := recording_holds config i ts steps
  have hlisted := recording_listed config i ts steps
  rw [← h.episode] at hholds hlisted
  refine ⟨i, ts, pre, nowUs, steps, post, hactions, h.undisturbed, h.kept,
    recorded_of_holds hholds fun channelId buffer hbuffer => ⟨?_, ?_⟩, ?_, h.stopped⟩
  · by_contra hfailed
    have hmem := hlisted channelId buffer hbuffer (Option.isSome_iff_ne_none.mpr hfailed)
    rw [h.failedCameras] at hmem
    cases hmem
  · have hended : (e.cameraStreams.values.filter (·.eosReceived)).length =
        (config.cameras.map (·.channelId)).length := by
      rw [h.ended, List.length_map]
    exact forall_values (fun id hid => (mem_cameras hholds id).mp hid) hended hbuffer
  · rw [h.episode]
    rfl

/-- Every episode that is handed to the staging worker is one that was recorded. -/
theorem staged_as_recorded (bfbsDir : String) (config : AssemblerRuntimeConfigV2)
    (actions : List Action) (e : PendingEpisode)
    (he : .stage e ∈ (run bfbsDir config actions).worker.commands.log) :
    AsRecorded config actions e := handed_as_recorded he

def stagedEpisodes (commands : List WorkerCommand) : List PendingEpisode :=
  commands.filterMap fun
    | .stage e => some e
    | .shutdown => none

def handedIndices (a : Assembler) : List UInt32 :=
  (stagedEpisodes a.worker.commands.log).map (·.episodeIndex)

def startOf : Action → Option UInt32
  | .control (.recordingStart i _) _ => some i
  | _ => none

theorem stagedEpisodes_append (l m : List WorkerCommand) :
    stagedEpisodes (l ++ m) = stagedEpisodes l ++ stagedEpisodes m := List.filterMap_append

theorem mem_stagedEpisodes {commands : List WorkerCommand} {e : PendingEpisode} :
    e ∈ stagedEpisodes commands ↔ .stage e ∈ commands := by
  unfold stagedEpisodes
  rw [List.mem_filterMap]
  constructor
  · rintro ⟨command, hmem, hsome⟩
    cases command with
    | stage e' =>
      cases hsome
      exact hmem
    | shutdown => cases hsome
  · exact fun hmem => ⟨_, hmem, rfl⟩

/-- What is handed over was started, is pending no more, and is not handed over again. -/
structure Once (starts : List UInt32) (a : Assembler) : Prop where
  pending : ∀ i ∈ a.manager.episodes, i ∈ starts
  handed : ∀ i ∈ handedIndices a, i ∈ starts ∧ i ∉ a.manager.episodes
  nodup : (handedIndices a).Nodup

theorem Once.mono {starts more : List UInt32} {a' : Assembler} (h : Once starts a)
    (hstarts : ∀ i ∈ starts, i ∈ more)
    (hpending : ∀ i ∈ a'.manager.episodes, i ∈ a.manager.episodes)
    (hhanded : handedIndices a' = handedIndices a) : Once more a' where
  pending := fun i hi => hstarts i (h.pending i (hpending i hi))
  handed := by
    rw [hhanded]
    exact fun i hi => ⟨hstarts i (h.handed i hi).1, fun hmem => (h.handed i hi).2 (hpending i hmem)⟩
  nodup := hhanded ▸ h.nodup

theorem keyed_of_traces (h : Traces config actions a) : Keyed a.manager := by
  intro i p hp
  obtain ⟨ts, pre, nowUs, steps, -, hkept⟩ := h.pending i p hp
  rw [hkept.episode]
  exact (recording_holds config i ts steps).episodeIndex

theorem mem_control {m : EpisodeManager} {event : ControlEvent} {nowUs : UInt64} {i : UInt32}
    (h : i ∈ (m.onControlEvent event nowUs).2.episodes) :
    startOf (.control event nowUs) = some i ∨ i ∈ m.episodes := by
  obtain ⟨p, hp⟩ := mem_iff_lookup.mp h
  rw [control_lookup] at hp
  cases event with
  | recordingStart k ts =>
    by_cases hik : i = k
    · exact .inl (hik ▸ rfl)
    · simp only [if_neg hik] at hp
      exact .inr (mem_iff_lookup.mpr ⟨p, hp⟩)
  | recordingStop k ts | episodeKeep k =>
    refine .inr ?_
    by_cases hik : i = k
    · simp only [if_pos hik] at hp
      obtain ⟨p, hp, -⟩ := Option.map_eq_some_iff.mp hp
      exact mem_iff_lookup.mpr ⟨p, hp⟩
    · simp only [if_neg hik] at hp
      exact mem_iff_lookup.mpr ⟨p, hp⟩
  | episodeDiscard k =>
    refine .inr ?_
    by_cases hik : i = k
    · simp [hik] at hp
    · simp only [if_neg hik] at hp
      exact mem_iff_lookup.mpr ⟨p, hp⟩
  | shutdown | modeSwitch _ => exact .inr (mem_iff_lookup.mpr ⟨p, hp⟩)

theorem Once.next {starts : List UInt32} (h : Once starts a) (hkeyed : Keyed a.manager)
    (hnew : ∀ i ∈ startOf x, i ∉ starts) :
    Once (starts ++ (startOf x).toList) (next bfbsDir a x) := by
  have hmore : ∀ i ∈ starts, i ∈ starts ++ (startOf x).toList := fun i hi =>
    List.mem_append_left _ hi
  cases x with
  | control event nowUs =>
    refine ⟨fun i hi => ?_, fun i hi => ⟨hmore i (h.handed i hi).1, fun hmem => ?_⟩, h.nodup⟩
    · rcases mem_control hi with hstart | hmem
      · exact List.mem_append_right _ (by rw [hstart]; simp)
      · exact hmore i (h.pending i hmem)
    · rcases mem_control hmem with hstart | hmem
      · exact hnew i hstart (h.handed i hi).1
      · exact (h.handed i hi).2 hmem
  | arrival arrival =>
    refine h.mono hmore (fun i hi => ?_) rfl
    change i ∈ (a.manager.onArrival arrival).episodes at hi
    unfold EpisodeManager.onArrival at hi
    cases hdest : destination a.manager.activeEpisodeIndex arrival with
    | none =>
      rw [hdest] at hi
      exact hi
    | some k =>
      rw [hdest] at hi
      exact mem_modify.mp hi
  | dispatch nowUs now =>
    rw [McapAssembler.next, Assembler.dispatch]
    cases hd : dispatchReadyEpisodes a.manager a.worker.running nowUs now with
    | error text => exact h.mono hmore (fun i hi => hi) rfl
    | ok d =>
      have hspec := dispatched hd
      have hmoved := moved hkeyed hd
      have hindices : handedIndices { a with
          manager := d.manager
          worker := a.worker.send (d.handed.map .stage)
          notices := a.notices ++ d.dropped } =
          handedIndices a ++ d.handed.map (·.episodeIndex) := by
        have hstaged : stagedEpisodes (d.handed.map .stage) = d.handed := by
          simp [stagedEpisodes, List.filterMap_map]
        simp only [handedIndices, Worker.log_send, stagedEpisodes_append, hstaged,
          List.map_append]
      have hback (i : UInt32) (hi : i ∈ d.manager.episodes) : i ∈ a.manager.episodes := by
        obtain ⟨p, hp⟩ := mem_iff_lookup.mp hi
        exact mem_iff_lookup.mpr ⟨p, hspec.survives i p hp⟩
      have hwas (e : PendingEpisode) (he : e ∈ d.handed) :
          e.episodeIndex ∈ a.manager.episodes := by
        obtain ⟨i, p, hp, -, rfl⟩ := hspec.handed e he
        rw [hkeyed i p hp]
        exact mem_iff_lookup.mpr ⟨p, hp⟩
      refine ⟨fun i hi => hmore i (h.pending i (hback i hi)), fun i hi => ?_, ?_⟩
      · rw [hindices, List.mem_append] at hi
        rcases hi with hi | hi
        · exact ⟨hmore i (h.handed i hi).1, fun hmem => (h.handed i hi).2 (hback i hmem)⟩
        · obtain ⟨e, he, rfl⟩ := List.mem_map.mp hi
          exact ⟨hmore _ (h.pending _ (hwas e he)), hmoved.gone e he⟩
      · rw [hindices, List.nodup_append]
        refine ⟨h.nodup, hmoved.nodup, fun i hi j hj hij => ?_⟩
        obtain ⟨e, he, rfl⟩ := List.mem_map.mp hj
        exact (h.handed i hi).2 (hij ▸ hwas e he)
  | stored i => exact h.mono hmore (fun i hi => hi) rfl
  | sweep now => exact h.mono hmore (fun i hi => hi) rfl
  | takeEvent =>
    rw [McapAssembler.next, Assembler.takeEvent]
    cases htake : a.worker.take with
    | none => exact h.mono hmore (fun i hi => hi) rfl
    | some taken =>
      obtain ⟨event, worker⟩ := taken
      have hcommands := (Worker.take_spec htake).1
      cases event <;> exact h.mono hmore (fun i hi => hi) (by simp only [handedIndices, hcommands])
  | endTurn =>
    rw [McapAssembler.next, Assembler.endTurn]
    split
    · refine h.mono hmore (fun i hi => hi) ?_
      simp [handedIndices, stagedEpisodes]
    · exact h.mono hmore (fun i hi => hi) rfl
  | stage b =>
    refine h.mono hmore (fun i hi => hi) ?_
    rw [McapAssembler.next, Assembler.stage, handedIndices, Worker.work_log]
    rfl

theorem run_once (hstarts : (actions.filterMap startOf).Nodup) :
    Once (actions.filterMap startOf) (run bfbsDir config actions) := by
  induction actions using List.reverseRecOn with
  | nil => exact ⟨by simp [run, Assembler.initial, EpisodeManager.new], nofun, List.nodup_nil⟩
  | append_singleton actions x ih =>
    rw [List.filterMap_append] at hstarts ⊢
    rw [run_concat]
    have hlast : List.filterMap startOf [x] = (startOf x).toList := by
      cases hx : startOf x <;> simp [hx]
    rw [hlast] at hstarts ⊢
    refine (ih hstarts.of_append_left).next (keyed_of_traces (run_traces bfbsDir config actions))
      fun i hi hmem => ?_
    exact List.disjoint_of_nodup_append hstarts hmem (by rw [Option.mem_def.mp hi]; simp)

end Staging

section Announcing
variable {bfbsDir : String} {config : AssemblerRuntimeConfigV2} {a : Assembler}
  {actions : List Action} {x : Action}

def announcement : WorkerEvent → Option EpisodeReady
  | .staged result => some (readyOf result)
  | .error _ | .shutdownComplete => none

def isShutdown : WorkerCommand → Bool
  | .shutdown => true
  | .stage _ => false

/-- The event the worker sends for a command; the files and libraries are free to fail. -/
def Answers (config : AssemblerRuntimeConfigV2) (bfbsDir : String) (command : WorkerCommand)
    (event : WorkerEvent) : Prop :=
  ∃ b, event = Assembler.answer config bfbsDir b command

/-- The worker answers in order; what is staged is announced when its answer is read, and the
process ends with the last answer. -/
structure Working (config : AssemblerRuntimeConfigV2) (bfbsDir : String) (a : Assembler) : Prop where
  configured : a.manager.config = config
  sound : Sound (Answers config bfbsDir) WorkerEvent.isComplete a.worker
  ready : a.ready = a.worker.events.received.filterMap announcement
  ended : a.ended = some (.ok ()) → a.worker.events.received.any WorkerEvent.isComplete = true
  slots : a.manager.inFlight.size ≤ a.manager.stagingSlots

theorem working_initial : Working config bfbsDir (.initial config) where
  configured := rfl
  sound := sound_fresh
  ready := rfl
  ended := nofun
  slots := Nat.zero_le _

theorem Working.aside {a' : Assembler} (h : Working config bfbsDir a)
    (hconfig : a'.manager.config = a.manager.config)
    (hsound : Sound (Answers config bfbsDir) WorkerEvent.isComplete a'.worker)
    (hread : a'.worker.events.received = a.worker.events.received) (hready : a'.ready = a.ready)
    (hended : a'.ended = some (.ok ()) → a.ended = some (.ok ()))
    (hslots : a'.manager.inFlight.size ≤ a'.manager.stagingSlots) :
    Working config bfbsDir a' where
  configured := hconfig.trans h.configured
  sound := hsound
  ready := by rw [hready, hread, h.ready]
  ended := by
    rw [hread]
    exact fun hok => h.ended (hended hok)
  slots := hslots

theorem Working.takeEvent (h : Working config bfbsDir a) :
    Working config bfbsDir a.takeEvent := by
  unfold Assembler.takeEvent
  cases htake : a.worker.take with
  | none => exact h
  | some taken =>
    obtain ⟨event, worker⟩ := taken
    obtain ⟨-, -, -, hread⟩ := Worker.take_spec htake
    have hsound := h.sound.take htake
    cases event with
    | staged result =>
      refine ⟨h.configured, hsound, ?_, fun hok => ?_, h.slots⟩
      · rw [hread, List.filterMap_append, ← h.ready]
        rfl
      · rw [hread, List.any_append, h.ended hok, Bool.true_or]
    | error message =>
      refine ⟨h.configured, hsound, ?_, fun hok => ?_, h.slots⟩
      · rw [hread, List.filterMap_append, ← h.ready]
        exact (List.append_nil _).symm
      · rw [hread, List.any_append, h.ended hok, Bool.true_or]
    | shutdownComplete =>
      refine ⟨h.configured, hsound, ?_, fun _ => ?_, h.slots⟩
      · rw [hread, List.filterMap_append, ← h.ready]
        exact (List.append_nil _).symm
      · rw [hread, List.any_append]
        exact Bool.or_true _

theorem Working.next (h : Working config bfbsDir a) (hx : Enabled a x) :
    Working config bfbsDir (next bfbsDir a x) := by
  cases x with
  | control event nowUs =>
    have hframe : (a.manager.onControlEvent event nowUs).2.inFlight = a.manager.inFlight ∧
        (a.manager.onControlEvent event nowUs).2.stagingSlots = a.manager.stagingSlots := by
      have hclear (m : EpisodeManager) (k : UInt32) : (m.clearActive k).inFlight = m.inFlight ∧
          (m.clearActive k).stagingSlots = m.stagingSlots := by
        unfold EpisodeManager.clearActive
        split <;> exact ⟨rfl, rfl⟩
      cases event with
      | recordingStop k ts => exact hclear _ k
      | episodeDiscard k => exact hclear _ k
      | _ => exact ⟨rfl, rfl⟩
    refine h.aside (control_frame a.manager event nowUs).1 h.sound rfl rfl id ?_
    change (a.manager.onControlEvent event nowUs).2.inFlight.size ≤ _
    rw [hframe.1]
    exact h.slots.trans (Nat.le_of_eq hframe.2.symm)
  | arrival arrival =>
    have hframe : (a.manager.onArrival arrival).inFlight = a.manager.inFlight ∧
        (a.manager.onArrival arrival).stagingSlots = a.manager.stagingSlots := by
      unfold EpisodeManager.onArrival
      cases destination a.manager.activeEpisodeIndex arrival <;> exact ⟨rfl, rfl⟩
    refine h.aside (arrival_frame a.manager arrival).1 h.sound rfl rfl id ?_
    change (a.manager.onArrival arrival).inFlight.size ≤ _
    rw [hframe.1]
    exact h.slots.trans (Nat.le_of_eq hframe.2.symm)
  | dispatch nowUs now =>
    rw [McapAssembler.next, Assembler.dispatch]
    cases hd : dispatchReadyEpisodes a.manager a.worker.running nowUs now with
    | error text => exact h.aside rfl h.sound rfl rfl (fun hended => by cases hended) h.slots
    | ok d =>
      have hspec := dispatched hd
      refine h.aside hspec.config (h.sound.send _) rfl rfl id ?_
      exact (hspec.slots h.slots).trans (Nat.le_of_eq hspec.stagingSlots.symm)
  | stored i =>
    exact h.aside rfl h.sound rfl rfl id (TreeMap.size_erase_le.trans h.slots)
  | sweep now =>
    exact h.aside rfl h.sound rfl rfl id (size_foldl_erase_le.trans h.slots)
  | takeEvent => exact h.takeEvent
  | endTurn =>
    rw [McapAssembler.next, Assembler.endTurn]
    split
    · exact h.aside rfl (h.sound.send _) rfl rfl id h.slots
    · exact h
  | stage b =>
    refine h.aside rfl (h.sound.work hx.1 fun command => ⟨b, ?_⟩) (Worker.work_read _ _ _) rfl id
      h.slots
    rw [h.configured]

theorem run_working (h : Runs bfbsDir config actions) :
    Working config bfbsDir (run bfbsDir config actions) :=
  (path_of_follows h).invariant working_initial fun _ _ hx _ hu => hu.next hx

def stagedAs (config : AssemblerRuntimeConfigV2) (episodeIndex : UInt32) : StagedResult :=
  ⟨episodeIndex, config.stagingDir ++ "/" ++ LerobotDataset.episodeDirName episodeIndex⟩

theorem staged_result {b : Backends} {e : PendingEpisode} {result : StagedResult} {handed : Handed}
    (h : stageEpisodeMcap b config bfbsDir e = .ok (result, handed)) :
    result = stagedAs config e.episodeIndex := by
  simp only [stageEpisodeMcap, Outcomes.bind_eq_ok, Outcomes.pure_eq_ok, Prod.mk.injEq] at h
  obtain ⟨_, -, _, -, _, -, _, -, _, -, _, -, _, -, rfl, -⟩ := h
  rfl

theorem ready_extends (bfbsDir : String) (a : Assembler) (x : Action) :
    a.ready <+: (next bfbsDir a x).ready := by
  cases x with
  | takeEvent =>
    rw [McapAssembler.next, Assembler.takeEvent]
    cases a.worker.take with
    | none => exact List.prefix_rfl
    | some taken =>
      obtain ⟨event, worker⟩ := taken
      cases event with
      | staged result => exact List.prefix_append _ _
      | error | shutdownComplete => exact List.prefix_rfl
  | dispatch nowUs now =>
    rw [McapAssembler.next, Assembler.dispatch]
    split <;> exact List.prefix_rfl
  | endTurn =>
    rw [McapAssembler.next, Assembler.endTurn]
    split <;> exact List.prefix_rfl
  | _ => exact List.prefix_rfl

/-- Of the answers to a list of commands, those that announce do so for episodes of the list, in
its order. -/
theorem announced_sublist {commands : List WorkerCommand} {events : List WorkerEvent}
    (h : List.Forall₂ (Answers config bfbsDir) commands events) :
    ((events.filterMap announcement).map (·.episodeIndex)).Sublist
      ((stagedEpisodes commands).map (·.episodeIndex)) := by
  induction h with
  | nil => exact .slnil
  | @cons command event commands events hanswer _ ih =>
    obtain ⟨b, rfl⟩ := hanswer
    cases command with
    | shutdown => exact ih
    | stage e =>
      unfold Assembler.answer
      dsimp only
      cases hstage : stageEpisodeMcap b config bfbsDir e with
      | error message => exact ih.cons _
      | ok staged =>
        obtain ⟨result, handed⟩ := staged
        rw [staged_result hstage]
        exact ih.cons_cons _

theorem any_complete {commands : List WorkerCommand} {events : List WorkerEvent}
    (h : List.Forall₂ (Answers config bfbsDir) commands events) :
    events.any WorkerEvent.isComplete = commands.any isShutdown := by
  induction h with
  | nil => rfl
  | @cons command event commands events hanswer _ ih =>
    rw [List.any_cons, List.any_cons, ih]
    obtain ⟨b, rfl⟩ := hanswer
    cases command with
    | shutdown => rfl
    | stage e =>
      unfold Assembler.answer
      dsimp only
      cases stageEpisodeMcap b config bfbsDir e <;> rfl

/-- When the last answer is read, it answers the shutdown, and all before it was answered. -/
theorem Working.complete (h : Working config bfbsDir a) (hok : a.ended = some (.ok ())) :
    ∃ before events, a.worker.commands.received = before ++ [.shutdown] ∧
      before.any isShutdown = false ∧
      List.Forall₂ (Answers config bfbsDir) before events ∧
      a.ready = events.filterMap announcement := by
  obtain ⟨-, before, command, events, event, hcommands, hevents, hopen, hfinal, hfirst, hlast⟩ :=
    h.sound.complete (h.ended hok)
  have hone := any_complete (.cons hlast .nil)
  rw [List.any_cons, List.any_cons, hfinal] at hone
  cases command with
  | stage e => cases hone
  | shutdown =>
    refine ⟨before, events, hcommands, (any_complete hfirst).symm.trans hopen, hfirst, ?_⟩
    rw [h.ready, hevents, List.filterMap_append]
    cases event with
    | shutdownComplete => exact List.append_nil _
    | staged | error => cases hfinal

/-- What is announced was handed over, and staged in its own directory. -/
theorem announced_of_answers {commands : List WorkerCommand} {events : List WorkerEvent}
    (h : List.Forall₂ (Answers config bfbsDir) commands events) :
    ∀ ready ∈ events.filterMap announcement, ∃ e, .stage e ∈ commands ∧
      ready = readyOf (stagedAs config e.episodeIndex) := by
  induction h with
  | nil => exact nofun
  | @cons command event commands events hanswer _ ih =>
    intro ready hready
    rw [List.filterMap_cons] at hready
    have hrest (hmem : ready ∈ events.filterMap announcement) :
        ∃ e, .stage e ∈ command :: commands ∧
          ready = readyOf (stagedAs config e.episodeIndex) := by
      obtain ⟨e, he, heq⟩ := ih ready hmem
      exact ⟨e, List.mem_cons_of_mem _ he, heq⟩
    obtain ⟨b, rfl⟩ := hanswer
    cases command with
    | shutdown => exact hrest hready
    | stage e =>
      unfold Assembler.answer at hready
      dsimp only at hready
      cases hstage : stageEpisodeMcap b config bfbsDir e with
      | error message =>
        rw [hstage] at hready
        exact hrest hready
      | ok staged =>
        obtain ⟨result, handed⟩ := staged
        rw [hstage] at hready
        rcases List.mem_cons.mp hready with heq | hmem
        · exact ⟨e, List.mem_cons_self, by rw [heq, staged_result hstage]⟩
        · exact hrest hmem

theorem Working.announced (h : Working config bfbsDir a) : ∀ ready ∈ a.ready, ∃ e,
    .stage e ∈ a.worker.commands.log ∧ ready = readyOf (stagedAs config e.episodeIndex) := by
  intro ready hready
  obtain ⟨commands, htaken, hread⟩ := h.sound.read
  rw [h.ready] at hready
  obtain ⟨e, he, heq⟩ := announced_of_answers hread ready hready
  exact ⟨e, List.mem_append_left _ (htaken.subset he), heq⟩

theorem Working.handed (h : Working config bfbsDir a) :
    (a.ready.map (·.episodeIndex)).Sublist (handedIndices a) := by
  obtain ⟨commands, htaken, hread⟩ := h.sound.read
  rw [h.ready]
  refine (announced_sublist hread).trans (List.Sublist.map _ (List.Sublist.filterMap _ ?_))
  exact htaken.sublist.trans (List.sublist_append_left _ _)

/-- Ready notices come in the order of the hand-overs, one at most for each episode, and the slots
taken stay within their number. A process that ends without an error has its worker's answers to
everything handed over before the shutdown, and has announced all that was staged. -/
theorem announced_in_order (h : Runs bfbsDir config actions)
    (hstarts : (actions.filterMap startOf).Nodup) :
    ((run bfbsDir config actions).ready.map (·.episodeIndex)).Sublist
      (handedIndices (run bfbsDir config actions)) ∧
    (handedIndices (run bfbsDir config actions)).Nodup ∧
    (run bfbsDir config actions).manager.inFlight.size ≤
      (run bfbsDir config actions).manager.stagingSlots ∧
    ((run bfbsDir config actions).ended = some (.ok ()) →
      ∃ before after events, (run bfbsDir config actions).worker.commands.log =
          before ++ .shutdown :: after ∧ before.any isShutdown = false ∧
        List.Forall₂ (Answers config bfbsDir) before events ∧
        (run bfbsDir config actions).ready = events.filterMap announcement) := by
  have hw := run_working h
  refine ⟨hw.handed, (run_once hstarts).nodup, hw.slots, fun hok => ?_⟩
  obtain ⟨before, events, hbefore, hnone, hanswers, hready⟩ := hw.complete hok
  refine ⟨before, (run bfbsDir config actions).worker.commands.pending, events, ?_, hnone,
    hanswers, hready⟩
  rw [Queue.log, hbefore, List.append_assoc]
  rfl

/-- The first episode up to its announcement. Its first packet comes ahead of the keyframe, and the
second episode starts before the worker is done. -/
def sampleFirst : List Action :=
  [.control (.recordingStart 0 10) 10, .arrival (.packet "top" { sequenceNumber := 6 } [9]),
    .arrival (.packet "top" { flags := 1, sequenceNumber := 7, sourceTimestampUs := 11 } [1]),
    .arrival (.observation "arm" .jointPosition 12 [0]),
    .arrival (.packet "top" { sequenceNumber := 8, sourceTimestampUs := 13 } [2]),
    .arrival (.packet "top" { kind := .endOfStream, sequenceNumber := 9 } []),
    .control (.recordingStop 0 20) 20, .control (.episodeKeep 0) 30, .dispatch 40 fun _ => 0,
    .control (.recordingStart 1 50) 50, .stage willing, .takeEvent]

/-- The second one, whose slot must be free by now. -/
def sampleSecond : List Action :=
  [.arrival (.packet "top" { episodeIndex := 1, flags := 1, sourceTimestampUs := 51 } [3]),
    .arrival (.packet "top" { kind := .endOfStream, episodeIndex := 1, sequenceNumber := 1 } []),
    .control (.recordingStop 1 60) 60, .control (.episodeKeep 1) 70, .dispatch 80 fun _ => 0,
    .stage willing, .takeEvent]

def sampleActions : List Action :=
  sampleFirst ++ .stored 0 :: sampleSecond ++
    [.stored 1, .control .shutdown 90, .endTurn, .stage willing, .takeEvent]

theorem sample_staged : ∃ e, .stage e ∈ (run "bfbs" mcapConfig sampleActions).worker.commands.log ∧
    e.episodeIndex = 0 ∧ e.cameraStreams["top"]?.map (·.packets) = some [⟨11, [1]⟩, ⟨13, [2]⟩] ∧
    AsRecorded mcapConfig sampleActions e := by
  have hstaged :
      (stagedEpisodes (run "bfbs" mcapConfig sampleActions).worker.commands.log).map (fun e =>
        (e.episodeIndex, e.cameraStreams["top"]?.map (·.packets))) =
        [(0, some [⟨11, [1]⟩, ⟨13, [2]⟩]), (1, some [⟨51, [3]⟩])] := by decide +kernel
  obtain ⟨e, rest, hlog, he, -⟩ := List.map_eq_cons_iff.mp hstaged
  have hmem := mem_stagedEpisodes.mp (hlog ▸ List.mem_cons_self)
  exact ⟨e, hmem, congrArg Prod.fst he, congrArg Prod.snd he,
    staged_as_recorded "bfbs" mcapConfig sampleActions e hmem⟩

theorem sample_announced :
    (run "bfbs" mcapConfig sampleActions).ready.map (·.episodeIndex) = [0, 1] ∧
    (run "bfbs" mcapConfig sampleActions).ended = some (.ok ()) ∧
    ((run "bfbs" mcapConfig sampleActions).ready.map (·.episodeIndex)).Sublist
      (handedIndices (run "bfbs" mcapConfig sampleActions)) ∧
    (handedIndices (run "bfbs" mcapConfig sampleActions)).Nodup ∧
    (run "bfbs" mcapConfig sampleActions).manager.inFlight.size ≤
      (run "bfbs" mcapConfig sampleActions).manager.stagingSlots ∧
    ((run "bfbs" mcapConfig sampleActions).ended = some (.ok ()) →
      ∃ before after events, (run "bfbs" mcapConfig sampleActions).worker.commands.log =
          before ++ .shutdown :: after ∧ before.any isShutdown = false ∧
        List.Forall₂ (Answers mcapConfig "bfbs") before events ∧
        (run "bfbs" mcapConfig sampleActions).ready = events.filterMap announcement) :=
  ⟨by decide +kernel, by decide +kernel, announced_in_order (by decide +kernel) (by decide)⟩

end Announcing

end McapHandovers
