import Rollio.AnsweringWorkers
import Rollio.McapEpisodeManager

/-! The MCAP assembler process: the steps of its main loop in any order, beside its staging worker,
which answers the commands it is sent one by one. -/
namespace McapAssembler
open BusMessages RuntimeConfig Clocks McapPackets McapStaging McapEpisodeManager OrderedTables
open PartialRuns AnsweringWorkers
open Std (TreeMap)

inductive WorkerCommand where
  | stage (episode : PendingEpisode)
  | shutdown

inductive WorkerEvent where
  | staged (result : StagedResult)
  | error (message : String)
  | shutdownComplete

def WorkerEvent.isComplete : WorkerEvent → Bool
  | .shutdownComplete => true
  | .staged _ | .error _ => false

/-- `worker` is the staging worker with the channels to and from it; `ready` and `notices` are what
was published. `ended` is the process's exit. -/
structure Assembler where
  manager : EpisodeManager
  shutdownRequested : Bool := false
  worker : Worker WorkerCommand WorkerEvent := {}
  ready : List EpisodeReady := []
  notices : List DropNotice := []
  ended : Option (Except String Unit) := none

/-- One receive of a subscriber, or one of the loop's other steps; the last one is the worker's. -/
inductive Action where
  | control (event : ControlEvent) (nowUs : UInt64)
  | arrival (a : Arrival)
  | dispatch (nowUs : UInt64) (now : UInt32 → Instant)
  | stored (episodeIndex : UInt32)
  | sweep (now : Instant)
  | takeEvent
  | endTurn
  | stage (b : Backends)

def readyOf (result : StagedResult) : EpisodeReady where
  episodeIndex := result.episodeIndex
  stagingDir := .new 256 result.stagingDir

namespace Assembler

def initial (config : AssemblerRuntimeConfigV2) : Assembler where
  manager := .new config

def control (a : Assembler) (event : ControlEvent) (nowUs : UInt64) : Assembler :=
  let (shutdown, manager) := a.manager.onControlEvent event nowUs
  { a with manager := manager, shutdownRequested := a.shutdownRequested || shutdown }

def dispatch (a : Assembler) (nowUs : UInt64) (now : UInt32 → Instant) : Assembler :=
  match dispatchReadyEpisodes a.manager a.worker.running nowUs now with
  | .ok d =>
    { a with
      manager := d.manager
      worker := a.worker.send (d.handed.map .stage)
      notices := a.notices ++ d.dropped }
  | .error text => { a with ended := some (.error text) }

def sweep (a : Assembler) (now : Instant) : Assembler :=
  let (leaked, manager) := a.manager.sweepStaleSlots now
  { a with
    manager := manager
    notices := a.notices ++ leaked.map fun i => ⟨i, "staging_slot_leak", true⟩ }

/-- A worker error is only logged. -/
def takeEvent (a : Assembler) : Assembler :=
  match a.worker.take with
  | none => a
  | some (.staged result, worker) => { a with worker := worker, ready := a.ready ++ [readyOf result] }
  | some (.error _, worker) => { a with worker := worker }
  | some (.shutdownComplete, worker) => { a with worker := worker, ended := some (.ok ()) }

def endTurn (a : Assembler) : Assembler :=
  if a.shutdownRequested && a.manager.episodes.isEmpty && a.manager.inFlight.isEmpty then
    { a with worker := a.worker.send [.shutdown], shutdownRequested := false }
  else a

def answer (config : AssemblerRuntimeConfigV2) (bfbsDir : String) (b : Backends) :
    WorkerCommand → WorkerEvent
  | .stage episode =>
    match stageEpisodeMcap b config bfbsDir episode with
    | .ok (result, _) => .staged result
    | .error message => .error message
  | .shutdown => .shutdownComplete

/-- The worker takes one command; it ends with the shutdown. -/
def stage (bfbsDir : String) (a : Assembler) (b : Backends) : Assembler :=
  { a with worker := a.worker.work WorkerEvent.isComplete (answer a.manager.config bfbsDir b) }

end Assembler

def Enabled (a : Assembler) : Action → Prop
  | .stage _ => a.worker.running = true ∧ a.worker.commands.pending.isEmpty = false
  | .takeEvent => a.ended.isNone = true ∧ a.worker.events.pending.isEmpty = false
  | _ => a.ended.isNone = true

instance (a : Assembler) (action : Action) : Decidable (Enabled a action) := by
  cases action <;> simp only [Enabled] <;> infer_instance

def next (bfbsDir : String) (a : Assembler) : Action → Assembler
  | .control event nowUs => a.control event nowUs
  | .arrival arrival => { a with manager := a.manager.onArrival arrival }
  | .dispatch nowUs now => a.dispatch nowUs now
  | .stored i => { a with manager := (a.manager.releaseSlot i).2 }
  | .sweep now => a.sweep now
  | .takeEvent => a.takeEvent
  | .endTurn => a.endTurn
  | .stage b => a.stage bfbsDir b

def Runs (bfbsDir : String) (config : AssemblerRuntimeConfigV2) (actions : List Action) : Prop :=
  Follows Enabled (next bfbsDir) (fun _ _ => True) (.initial config) actions

instance (bfbsDir : String) (config : AssemblerRuntimeConfigV2) (actions : List Action) :
    Decidable (Runs bfbsDir config actions) :=
  inferInstanceAs (Decidable (Follows _ _ _ _ _))

def run (bfbsDir : String) (config : AssemblerRuntimeConfigV2) (actions : List Action) : Assembler :=
  actions.foldl (next bfbsDir) (.initial config)

section Recordings

def activeAfter (active : Option UInt32) : Action → Option UInt32
  | .control (.recordingStart i _) _ => some i
  | .control (.recordingStop i _) _ | .control (.episodeDiscard i) _ =>
    if active = some i then none else active
  | _ => active

/-- What one step brings for episode `i`: a packet that names it, or a sample while it is active. -/
def arrivalsOf (i : UInt32) (active : Option UInt32) : Action → List Arrival
  | .arrival (.packet channelId header payload) =>
    if header.episodeIndex = i then [.packet channelId header payload] else []
  | .arrival sample => if active = some i then [sample] else []
  | _ => []

theorem arrivalsOf_arrival (i : UInt32) (active : Option UInt32) (a : Arrival) :
    arrivalsOf i active (.arrival a) = if destination active a = some i then [a] else [] := by
  cases a with
  | packet channelId header payload => simp [arrivalsOf, destination]
  | observation | action => rfl

def delivered (i : UInt32) : Option UInt32 → List Action → List Arrival
  | _, [] => []
  | active, x :: rest => arrivalsOf i active x ++ delivered i (activeAfter active x) rest

def stopOf (i : UInt32) (stop : Option UInt64) : Action → Option UInt64
  | .control (.recordingStop k ts) _ => if k = i then some ts else stop
  | _ => stop

def lastStop (i : UInt32) (actions : List Action) : Option UInt64 := actions.foldl (stopOf i) none

def keeps (i : UInt32) : Action → Bool
  | .control (.episodeKeep k) _ => k = i
  | _ => false

def reopens (i : UInt32) : Action → Bool
  | .control (.recordingStart k _) _ | .control (.episodeDiscard k) _ => k = i
  | _ => false

def recording (config : AssemblerRuntimeConfigV2) (i : UInt32) (ts : UInt64)
    (actions : List Action) : PendingEpisode :=
  { (delivered i (some i) actions).foldl PendingEpisode.onArrival
      (.new i ts (config.cameras.map (·.channelId))) with
    stopTimeUs := lastStop i actions }

theorem delivered_concat (i : UInt32) (active : Option UInt32) (actions : List Action) (x : Action) :
    delivered i active (actions ++ [x]) =
      delivered i active actions ++ arrivalsOf i (actions.foldl activeAfter active) x := by
  induction actions generalizing active with
  | nil => simp [delivered]
  | cons y actions ih => simp [delivered, ih]

theorem onArrival_stop (e : PendingEpisode) (stop : Option UInt64) (a : Arrival) :
    ({ e with stopTimeUs := stop } : PendingEpisode).onArrival a =
      { e.onArrival a with stopTimeUs := stop } := by
  cases a with
  | observation | action => rfl
  | packet channelId header payload =>
    simp only [PendingEpisode.onArrival, PendingEpisode.onPacket]
    cases e.cameraStreams[channelId]? <;> rfl

theorem recording_concat {config : AssemblerRuntimeConfigV2} {i : UInt32} {ts : UInt64}
    {actions : List Action} {x : Action} :
    recording config i ts (actions ++ [x]) =
      { (arrivalsOf i (actions.foldl activeAfter (some i)) x).foldl PendingEpisode.onArrival
          (recording config i ts actions) with
        stopTimeUs := stopOf i (lastStop i actions) x } := by
  unfold recording
  rw [delivered_concat, List.foldl_append, lastStop, List.foldl_concat, ← lastStop]
  cases x with
  | arrival a =>
    by_cases hdest : destination (actions.foldl activeAfter (some i)) a = some i
    · simp only [arrivalsOf_arrival, if_pos hdest, List.foldl_cons, List.foldl_nil, onArrival_stop]
    · simp only [arrivalsOf_arrival, if_neg hdest, List.foldl_nil]
  | _ => rfl

end Recordings

section Tracing
variable {bfbsDir : String} {config : AssemblerRuntimeConfigV2} {a : Assembler} {i : UInt32}
  {ts : UInt64} {p p' : Pending} {actions : List Action} {x : Action}

theorem control_lookup (m : EpisodeManager) (event : ControlEvent) (nowUs : UInt64) (i : UInt32) :
    (m.onControlEvent event nowUs).2.episodes[i]? =
      match event with
      | .recordingStart k ts =>
        if i = k then some (.new k ts m.cameraChannelIds) else m.episodes[i]?
      | .recordingStop k ts =>
        if i = k then m.episodes[i]?.map (·.onStop ts nowUs) else m.episodes[i]?
      | .episodeKeep k => if i = k then m.episodes[i]?.map (·.onKeep nowUs) else m.episodes[i]?
      | .episodeDiscard k => if i = k then none else m.episodes[i]?
      | .shutdown | .modeSwitch _ => m.episodes[i]? := by
  have hclear (m : EpisodeManager) (k : UInt32) : (m.clearActive k).episodes = m.episodes := by
    unfold EpisodeManager.clearActive
    split <;> rfl
  cases event with
  | recordingStart k ts => exact lookup_insert
  | recordingStop k ts =>
    simp only [EpisodeManager.onControlEvent, hclear]
    exact lookup_modify
  | episodeKeep k => exact lookup_modify
  | episodeDiscard k =>
    simp only [EpisodeManager.onControlEvent, hclear]
    exact lookup_erase
  | shutdown => rfl
  | modeSwitch _ => rfl

structure Becomes (i : UInt32) (active : Option UInt32) (x : Action) (p p' : Pending) : Prop where
  undisturbed : reopens i x = false
  episode : p'.episode = { (arrivalsOf i active x).foldl PendingEpisode.onArrival p.episode with
    stopTimeUs := stopOf i p.episode.stopTimeUs x }
  keepRequested : p'.keepRequested = (p.keepRequested || keeps i x)

theorem Becomes.same {active : Option UInt32} (hreopens : reopens i x = false)
    (harrivals : arrivalsOf i active x = [])
    (hstop : stopOf i p.episode.stopTimeUs x = p.episode.stopTimeUs) (hkeeps : keeps i x = false) :
    Becomes i active x p p where
  undisturbed := hreopens
  episode := by rw [harrivals, hstop]; rfl
  keepRequested := by rw [hkeeps, Bool.or_false]

theorem control_entry {event : ControlEvent} {nowUs : UInt64}
    (h : (a.manager.onControlEvent event nowUs).2.episodes[i]? = some p') :
    (∃ ts, event = .recordingStart i ts ∧ p' = .new i ts a.manager.cameraChannelIds) ∨
      ∃ p, a.manager.episodes[i]? = some p ∧
        Becomes i a.manager.activeEpisodeIndex (.control event nowUs) p p' := by
  rw [control_lookup] at h
  cases event with
  | recordingStart k ts =>
    by_cases hik : i = k
    · simp only [if_pos hik, Option.some.injEq] at h
      subst hik
      exact .inl ⟨ts, rfl, h.symm⟩
    · simp only [if_neg hik] at h
      refine .inr ⟨p', h, .same ?_ rfl rfl rfl⟩
      simp [reopens, Ne.symm hik]
  | recordingStop k ts =>
    by_cases hik : i = k
    · simp only [if_pos hik] at h
      subst hik
      obtain ⟨p, hp, rfl⟩ := Option.map_eq_some_iff.mp h
      refine .inr ⟨p, hp, rfl, ?_, (Bool.or_false _).symm⟩
      simp [arrivalsOf, stopOf, Pending.onStop]
    · simp only [if_neg hik] at h
      refine .inr ⟨p', h, .same rfl rfl ?_ rfl⟩
      simp [stopOf, Ne.symm hik]
  | episodeKeep k =>
    by_cases hik : i = k
    · simp only [if_pos hik] at h
      subst hik
      obtain ⟨p, hp, rfl⟩ := Option.map_eq_some_iff.mp h
      refine .inr ⟨p, hp, rfl, rfl, ?_⟩
      simp [keeps, Pending.onKeep]
    · simp only [if_neg hik] at h
      refine .inr ⟨p', h, .same rfl rfl rfl ?_⟩
      simp [keeps, Ne.symm hik]
  | episodeDiscard k =>
    by_cases hik : i = k
    · simp [hik] at h
    · simp only [if_neg hik] at h
      refine .inr ⟨p', h, .same ?_ rfl rfl rfl⟩
      simp [reopens, Ne.symm hik]
  | shutdown => exact .inr ⟨p', h, .same rfl rfl rfl rfl⟩
  | modeSwitch _ => exact .inr ⟨p', h, .same rfl rfl rfl rfl⟩

theorem arrival_entry {arrival : Arrival}
    (h : (a.manager.onArrival arrival).episodes[i]? = some p') :
    ∃ p, a.manager.episodes[i]? = some p ∧
      Becomes i a.manager.activeEpisodeIndex (.arrival arrival) p p' := by
  unfold EpisodeManager.onArrival at h
  cases hdest : destination a.manager.activeEpisodeIndex arrival with
  | none =>
    rw [hdest] at h
    refine ⟨p', h, .same rfl ?_ rfl rfl⟩
    simp [arrivalsOf_arrival, hdest]
  | some k =>
    rw [hdest] at h
    simp only [lookup_modify] at h
    by_cases hik : i = k
    · rw [if_pos hik] at h
      obtain ⟨p, hp, rfl⟩ := Option.map_eq_some_iff.mp h
      refine ⟨p, hp, rfl, ?_, (Bool.or_false _).symm⟩
      simp only [arrivalsOf_arrival, hdest, hik, if_pos, List.foldl_cons, List.foldl_nil, stopOf,
        Pending.onArrival]
      exact (onArrival_stop p.episode p.episode.stopTimeUs arrival)
    · rw [if_neg hik] at h
      refine ⟨p', h, .same rfl ?_ rfl rfl⟩
      simp [arrivalsOf_arrival, hdest, Ne.symm hik]

structure Kept (config : AssemblerRuntimeConfigV2) (i : UInt32) (ts : UInt64)
    (actions : List Action) (p : Pending) : Prop where
  undisturbed : actions.any (reopens i) = false
  episode : p.episode = recording config i ts actions
  keepRequested : p.keepRequested = actions.any (keeps i)

theorem Kept.concat (h : Kept config i ts actions p)
    (hx : Becomes i (actions.foldl activeAfter (some i)) x p p') :
    Kept config i ts (actions ++ [x]) p' where
  undisturbed := by simp [h.undisturbed, hx.undisturbed]
  episode := by
    rw [hx.episode, recording_concat, ← h.episode]
    have hstop : p.episode.stopTimeUs = lastStop i actions := by
      rw [h.episode]
      rfl
    rw [hstop]
  keepRequested := by simp [hx.keepRequested, h.keepRequested]

structure HandedOver (config : AssemblerRuntimeConfigV2) (done : List Action) (i : UInt32)
    (ts : UInt64) (steps : List Action) (e : PendingEpisode) : Prop where
  history : ∃ pre nowUs post, done = pre ++ .control (.recordingStart i ts) nowUs :: (steps ++ post)
  undisturbed : steps.any (reopens i) = false
  episode : e = recording config i ts steps
  kept : steps.any (keeps i) = true
  stopped : e.stopTimeUs.isSome = true
  failedCameras : e.failedCameras = []
  ended : (e.cameraStreams.values.filter (·.eosReceived)).length = config.cameras.length

theorem HandedOver.concat {done steps : List Action} {e : PendingEpisode}
    (h : HandedOver config done i ts steps e) (x : Action) :
    HandedOver config (done ++ [x]) i ts steps e :=
  { h with
    history := by
      obtain ⟨pre, nowUs, post, rfl⟩ := h.history
      exact ⟨pre, nowUs, post ++ [x], by simp⟩ }

structure Traces (config : AssemblerRuntimeConfigV2) (done : List Action) (a : Assembler) :
    Prop where
  configured : a.manager.config = config
  cameraChannelIds : a.manager.cameraChannelIds = config.cameras.map (·.channelId)
  active : a.manager.activeEpisodeIndex = done.foldl activeAfter none
  pending : ∀ (i : UInt32) (p : Pending), a.manager.episodes[i]? = some p →
    ∃ ts pre nowUs steps, done = pre ++ .control (.recordingStart i ts) nowUs :: steps ∧
      Kept config i ts steps p
  handed : ∀ e, .stage e ∈ a.worker.commands.log → ∃ i ts steps, HandedOver config done i ts steps e

theorem traces_initial : Traces config [] (.initial config) where
  configured := rfl
  cameraChannelIds := rfl
  active := rfl
  pending := by simp [Assembler.initial, EpisodeManager.new]
  handed := nofun

/-- An entry that a step leaves or changes keeps its history. -/
theorem Traces.entry {done : List Action} (h : Traces config done a)
    (hp : a.manager.episodes[i]? = some p)
    (hx : Becomes i a.manager.activeEpisodeIndex x p p') :
    ∃ ts pre nowUs steps, done ++ [x] = pre ++ .control (.recordingStart i ts) nowUs :: steps ∧
      Kept config i ts steps p' := by
  obtain ⟨ts, pre, nowUs, steps, hdone, hkept⟩ := h.pending i p hp
  refine ⟨ts, pre, nowUs, steps ++ [x], by simp [hdone], hkept.concat ?_⟩
  have hactive : a.manager.activeEpisodeIndex = steps.foldl activeAfter (some i) := by
    rw [h.active, hdone, List.foldl_append, List.foldl_cons]
    rfl
  rwa [hactive] at hx

theorem Traces.aside {done : List Action} {a' : Assembler} (h : Traces config done a)
    (hconfig : a'.manager.config = a.manager.config)
    (hcameras : a'.manager.cameraChannelIds = a.manager.cameraChannelIds)
    (hactive : a'.manager.activeEpisodeIndex = a.manager.activeEpisodeIndex)
    (hx : ∀ active, activeAfter active x = active)
    (hentry : ∀ (i : UInt32) (p : Pending), a'.manager.episodes[i]? = some p →
      a.manager.episodes[i]? = some p)
    (hsame : ∀ i p, Becomes i a.manager.activeEpisodeIndex x p p)
    (hhanded : ∀ e, .stage e ∈ a'.worker.commands.log → .stage e ∈ a.worker.commands.log) :
    Traces config (done ++ [x]) a' where
  configured := hconfig.trans h.configured
  cameraChannelIds := hcameras.trans h.cameraChannelIds
  active := by rw [hactive, h.active, List.foldl_concat, hx]
  pending := fun i p hp => h.entry (hentry i p hp) (hsame i p)
  handed := fun e he => by
    obtain ⟨i, ts, steps, hover⟩ := h.handed e (hhanded e he)
    exact ⟨i, ts, steps, hover.concat x⟩

theorem clearActive_active (m : EpisodeManager) (k : UInt32) :
    (m.clearActive k).activeEpisodeIndex =
      if m.activeEpisodeIndex = some k then none else m.activeEpisodeIndex := by
  unfold EpisodeManager.clearActive
  split <;> rfl

theorem control_frame (m : EpisodeManager) (event : ControlEvent) (nowUs : UInt64) :
    (m.onControlEvent event nowUs).2.config = m.config ∧
      (m.onControlEvent event nowUs).2.cameraChannelIds = m.cameraChannelIds ∧
      (m.onControlEvent event nowUs).2.activeEpisodeIndex =
        activeAfter m.activeEpisodeIndex (.control event nowUs) := by
  have hclear (m : EpisodeManager) (k : UInt32) : (m.clearActive k).config = m.config ∧
      (m.clearActive k).cameraChannelIds = m.cameraChannelIds := by
    unfold EpisodeManager.clearActive
    split <;> exact ⟨rfl, rfl⟩
  cases event with
  | recordingStart k ts => exact ⟨rfl, rfl, rfl⟩
  | recordingStop k ts =>
    exact ⟨(hclear _ k).1, (hclear _ k).2, clearActive_active _ k⟩
  | episodeKeep k => exact ⟨rfl, rfl, rfl⟩
  | episodeDiscard k => exact ⟨(hclear _ k).1, (hclear _ k).2, clearActive_active _ k⟩
  | shutdown => exact ⟨rfl, rfl, rfl⟩
  | modeSwitch _ => exact ⟨rfl, rfl, rfl⟩

theorem arrival_frame (m : EpisodeManager) (arrival : Arrival) :
    (m.onArrival arrival).config = m.config ∧
      (m.onArrival arrival).cameraChannelIds = m.cameraChannelIds ∧
      (m.onArrival arrival).activeEpisodeIndex = m.activeEpisodeIndex := by
  unfold EpisodeManager.onArrival
  cases destination m.activeEpisodeIndex arrival <;> exact ⟨rfl, rfl, rfl⟩

theorem Traces.dispatch {done : List Action} {nowUs : UInt64} {now : UInt32 → Instant}
    (h : Traces config done a) :
    Traces config (done ++ [.dispatch nowUs now]) (a.dispatch nowUs now) := by
  unfold Assembler.dispatch
  cases hd : dispatchReadyEpisodes a.manager a.worker.running nowUs now with
  | error text =>
    exact h.aside rfl rfl rfl (fun _ => rfl) (fun _ _ hp => hp) (fun _ _ => .same rfl rfl rfl rfl)
      fun _ he => he
  | ok d =>
    have hspec := dispatched hd
    refine ⟨hspec.config.trans h.configured, hspec.cameraChannelIds.trans h.cameraChannelIds, ?_,
      fun i p hp => h.entry (hspec.survives i p hp) (.same rfl rfl rfl rfl), fun e he => ?_⟩
    · rw [List.foldl_concat, ← h.active]
      exact hspec.activeEpisodeIndex
    · rw [Worker.log_send, List.mem_append] at he
      rcases he with he | he
      · obtain ⟨i, ts, steps, hover⟩ := h.handed e he
        exact ⟨i, ts, steps, hover.concat _⟩
      · simp only [List.mem_map, WorkerCommand.stage.injEq, exists_eq_right] at he
        obtain ⟨i, p, hp, hready, rfl⟩ := hspec.handed e he
        obtain ⟨ts, pre, nowUs', steps, hdone, hkept⟩ := h.pending i p hp
        obtain ⟨hfailed, hkeep, hstop, heos⟩ := ready_spec hready
        refine ⟨i, ts, steps, ⟨pre, nowUs', [.dispatch nowUs now], by simp [hdone]⟩,
          hkept.undisturbed, hkept.episode, hkept.keepRequested.symm.trans hkeep, hstop, hfailed, ?_⟩
        rw [h.configured] at heos
        exact beq_iff_eq.mp heos

theorem Traces.next {done : List Action} (h : Traces config done a) (x : Action) :
    Traces config (done ++ [x]) (next bfbsDir a x) := by
  cases x with
  | control event nowUs =>
    obtain ⟨hconfig, hcameras, hactive⟩ := control_frame a.manager event nowUs
    refine ⟨hconfig.trans h.configured, hcameras.trans h.cameraChannelIds, ?_, fun i p hp => ?_,
      fun e he => ?_⟩
    · rw [List.foldl_concat, ← h.active]
      exact hactive
    · rcases control_entry (a := a) hp with ⟨ts, rfl, rfl⟩ | ⟨p₀, hp₀, hx⟩
      · exact ⟨ts, done, nowUs, [], rfl, rfl, by rw [h.cameraChannelIds]; rfl, rfl⟩
      · exact h.entry hp₀ hx
    · obtain ⟨i, ts, steps, hover⟩ := h.handed e he
      exact ⟨i, ts, steps, hover.concat _⟩
  | arrival arrival =>
    obtain ⟨hconfig, hcameras, hactive⟩ := arrival_frame a.manager arrival
    refine ⟨hconfig.trans h.configured, hcameras.trans h.cameraChannelIds, ?_, fun i p hp => ?_,
      fun e he => ?_⟩
    · rw [List.foldl_concat, ← h.active]
      exact hactive
    · obtain ⟨p₀, hp₀, hx⟩ := arrival_entry hp
      exact h.entry hp₀ hx
    · obtain ⟨i, ts, steps, hover⟩ := h.handed e he
      exact ⟨i, ts, steps, hover.concat _⟩
  | dispatch nowUs now => exact h.dispatch
  | stored i =>
    exact h.aside rfl rfl rfl (fun _ => rfl) (fun _ _ hp => hp) (fun _ _ => .same rfl rfl rfl rfl)
      fun _ he => he
  | sweep now =>
    exact h.aside rfl rfl rfl (fun _ => rfl) (fun _ _ hp => hp) (fun _ _ => .same rfl rfl rfl rfl)
      fun _ he => he
  | takeEvent =>
    have hmanager : (a.takeEvent).manager = a.manager := by
      unfold Assembler.takeEvent
      split <;> rfl
    have hcommands : (a.takeEvent).worker.commands = a.worker.commands := by
      unfold Assembler.takeEvent
      cases htake : a.worker.take with
      | none => rfl
      | some taken =>
        obtain ⟨event, worker⟩ := taken
        cases event <;> exact (Worker.take_spec htake).1
    exact h.aside (congrArg _ hmanager) (congrArg _ hmanager) (congrArg _ hmanager) (fun _ => rfl)
      (fun _ _ hp => hmanager ▸ hp) (fun _ _ => .same rfl rfl rfl rfl) fun _ he => hcommands ▸ he
  | endTurn =>
    have hmanager : (a.endTurn).manager = a.manager := by
      unfold Assembler.endTurn
      split <;> rfl
    refine h.aside (congrArg _ hmanager) (congrArg _ hmanager) (congrArg _ hmanager) (fun _ => rfl)
      (fun _ _ hp => hmanager ▸ hp) (fun _ _ => .same rfl rfl rfl rfl) fun e he => ?_
    unfold McapAssembler.next Assembler.endTurn at he
    dsimp only at he
    split at he
    · rw [Worker.log_send, List.mem_append] at he
      rcases he with he | he
      · exact he
      · simp at he
    · exact he
  | stage b =>
    refine h.aside rfl rfl rfl (fun _ => rfl) (fun _ _ hp => hp) (fun _ _ => .same rfl rfl rfl rfl)
      fun e he => ?_
    rwa [McapAssembler.next, Assembler.stage, Worker.work_log] at he

theorem run_concat (bfbsDir : String) (config : AssemblerRuntimeConfigV2) (actions : List Action)
    (x : Action) :
    run bfbsDir config (actions ++ [x]) = next bfbsDir (run bfbsDir config actions) x :=
  List.foldl_concat _ _ _ _

theorem run_traces (bfbsDir : String) (config : AssemblerRuntimeConfigV2) (actions : List Action) :
    Traces config actions (run bfbsDir config actions) := by
  induction actions using List.reverseRecOn with
  | nil => exact traces_initial
  | append_singleton actions x ih =>
    rw [run_concat]
    exact ih.next x

end Tracing

section Contents
variable {config : AssemblerRuntimeConfigV2} {i : UInt32} {ts : UInt64} {actions : List Action}

def observationOf (key : String) : Arrival → Option Sample
  | .observation channelId stateKind timestampUs values =>
    if channelId ++ "/" ++ stateKind.topicSuffix = key then some ⟨timestampUs, values⟩ else none
  | _ => none

def actionOf (key : String) : Arrival → Option Sample
  | .action channelId commandKind timestampUs values =>
    if channelId ++ "/" ++ commandKind.topicSuffix = key then some ⟨timestampUs, values⟩ else none
  | _ => none

def deliveryOf (channelId : String) : Arrival → Option PacketDeliveries.Delivery
  | .packet id header payload =>
    if id = channelId then some (PacketDeliveries.toDelivery header payload) else none
  | _ => none

theorem onPacket_lookup (e : PendingEpisode) (id channelId : String) (header : EncodedPacketHeader)
    (payload : List UInt8) : (e.onPacket id header payload).cameraStreams[channelId]? =
      if channelId = id then
        e.cameraStreams[channelId]?.map (observe · (PacketDeliveries.toDelivery header payload))
      else e.cameraStreams[channelId]? := by
  unfold PendingEpisode.onPacket
  cases hbuffer : e.cameraStreams[id]? with
  | none =>
    by_cases hid : channelId = id
    · rw [if_pos hid, hid, hbuffer, Option.map_none]
    · rw [if_neg hid]
  | some buffer =>
    simp only [lookup_insert]
    by_cases hid : channelId = id
    · rw [if_pos hid, if_pos hid, hid, hbuffer, Option.map_some]
    · rw [if_neg hid, if_neg hid]

theorem cameraStreams_arrivals (e : PendingEpisode) (arrivals : List Arrival) (channelId : String) :
    (arrivals.foldl PendingEpisode.onArrival e).cameraStreams[channelId]? =
      e.cameraStreams[channelId]?.map ((arrivals.filterMap (deliveryOf channelId)).foldl observe) := by
  induction arrivals generalizing e with
  | nil => simp
  | cons a arrivals ih =>
    rw [List.foldl_cons, ih]
    cases a with
    | observation | action => rfl
    | packet id header payload =>
      simp only [PendingEpisode.onArrival, onPacket_lookup]
      by_cases hid : channelId = id
      · subst hid
        have hbrings : deliveryOf channelId (.packet channelId header payload) =
            some (PacketDeliveries.toDelivery header payload) := if_pos rfl
        rw [if_pos rfl, Option.map_map, List.filterMap_cons_some hbrings]
        rfl
      · have hbrings : deliveryOf channelId (.packet id header payload) = none :=
          if_neg (Ne.symm hid)
        rw [if_neg hid, List.filterMap_cons_none hbrings]

theorem pushSample_getD (samples : TreeMap String (List Sample)) (key other : String)
    (sample : Sample) : (PendingEpisode.pushSample samples key sample)[other]?.getD [] =
      samples[other]?.getD [] ++ if key = other then [sample] else [] := by
  rw [pushSample_lookup]
  by_cases hkey : other = key
  · simp [hkey]
  · simp [hkey, Ne.symm hkey]

theorem observationSamples_arrivals (e : PendingEpisode) (arrivals : List Arrival) (key : String) :
    (arrivals.foldl PendingEpisode.onArrival e).observationSamples[key]?.getD [] =
      e.observationSamples[key]?.getD [] ++ arrivals.filterMap (observationOf key) := by
  induction arrivals generalizing e with
  | nil => simp
  | cons a arrivals ih =>
    rw [List.foldl_cons, ih]
    cases a with
    | action => rfl
    | packet id header payload =>
      have hsame : (e.onPacket id header payload).observationSamples = e.observationSamples := by
        unfold PendingEpisode.onPacket
        split <;> rfl
      rw [PendingEpisode.onArrival, hsame]
      rfl
    | observation channelId stateKind timestampUs values =>
      simp only [PendingEpisode.onArrival, PendingEpisode.onObservation, pushSample_getD]
      by_cases hkey : channelId ++ "/" ++ stateKind.topicSuffix = key
      · simp [observationOf, hkey]
      · simp [observationOf, hkey]

theorem actionSamples_arrivals (e : PendingEpisode) (arrivals : List Arrival) (key : String) :
    (arrivals.foldl PendingEpisode.onArrival e).actionSamples[key]?.getD [] =
      e.actionSamples[key]?.getD [] ++ arrivals.filterMap (actionOf key) := by
  induction arrivals generalizing e with
  | nil => simp
  | cons a arrivals ih =>
    rw [List.foldl_cons, ih]
    cases a with
    | observation => rfl
    | packet id header payload =>
      have hsame : (e.onPacket id header payload).actionSamples = e.actionSamples := by
        unfold PendingEpisode.onPacket
        split <;> rfl
      rw [PendingEpisode.onArrival, hsame]
      rfl
    | action channelId commandKind timestampUs values =>
      simp only [PendingEpisode.onArrival, PendingEpisode.onAction, pushSample_getD]
      by_cases hkey : channelId ++ "/" ++ commandKind.topicSuffix = key
      · simp [actionOf, hkey]
      · simp [actionOf, hkey]

/-- A stream that failed is on the list of failed cameras. -/
def FailuresListed (e : PendingEpisode) : Prop :=
  ∀ (channelId : String) (buffer : CameraStreamBuffer), e.cameraStreams[channelId]? = some buffer →
    buffer.failed.isSome = true → channelId ∈ e.failedCameras

theorem FailuresListed.onArrival {e : PendingEpisode} (h : FailuresListed e) (a : Arrival) :
    FailuresListed (e.onArrival a) := by
  cases a with
  | observation | action => exact h
  | packet id header payload =>
    intro channelId buffer hbuffer hfailed
    simp only [PendingEpisode.onArrival] at hbuffer ⊢
    rw [onPacket_lookup] at hbuffer
    unfold PendingEpisode.onPacket
    by_cases hid : channelId = id
    · subst hid
      rw [if_pos rfl] at hbuffer
      obtain ⟨old, hold, rfl⟩ := Option.map_eq_some_iff.mp hbuffer
      rw [hold]
      dsimp only
      by_cases hlisted : channelId ∈ e.failedCameras
      · rw [if_neg (fun hnot => hnot.2 hlisted)]
        exact hlisted
      · rw [if_pos ⟨hfailed, hlisted⟩]
        simp
    · rw [if_neg hid] at hbuffer
      have hlisted := h channelId buffer hbuffer hfailed
      cases e.cameraStreams[id]? with
      | none => exact hlisted
      | some old =>
        dsimp only
        split
        · exact List.mem_append_left _ hlisted
        · exact hlisted

theorem failuresListed_new (i : UInt32) (ts : UInt64) (channelIds : List String) :
    FailuresListed (.new i ts channelIds) := by
  intro channelId buffer hbuffer hfailed
  rw [PendingEpisode.new, lookup_foldl_insert] at hbuffer
  split at hbuffer
  · cases hbuffer
    cases hfailed
  · simp at hbuffer

/-- What an episode holds: the samples and packets that were brought for it, in order. -/
structure Holds (config : AssemblerRuntimeConfigV2) (i : UInt32) (ts : UInt64)
    (arrivals : List Arrival) (e : PendingEpisode) : Prop where
  episodeIndex : e.episodeIndex = i
  startTimeUs : e.startTimeUs = ts
  observations : ∀ key : String,
    e.observationSamples[key]?.getD [] = arrivals.filterMap (observationOf key)
  actions : ∀ key : String, e.actionSamples[key]?.getD [] = arrivals.filterMap (actionOf key)
  cameras : ∀ channelId : String, e.cameraStreams[channelId]? =
    if channelId ∈ config.cameras.map (·.channelId) then
      some ((arrivals.filterMap (deliveryOf channelId)).foldl observe {})
    else none

theorem arrival_identity (e : PendingEpisode) (arrivals : List Arrival) :
    (arrivals.foldl PendingEpisode.onArrival e).episodeIndex = e.episodeIndex ∧
      (arrivals.foldl PendingEpisode.onArrival e).startTimeUs = e.startTimeUs := by
  refine foldl_preserves (P := fun e' : PendingEpisode =>
    e'.episodeIndex = e.episodeIndex ∧ e'.startTimeUs = e.startTimeUs) ?_ ⟨rfl, rfl⟩
  intro a _ e' he'
  cases a with
  | observation | action => exact he'
  | packet id header payload =>
    unfold PendingEpisode.onArrival PendingEpisode.onPacket
    dsimp only
    split <;> exact he'

theorem recording_holds (config : AssemblerRuntimeConfigV2) (i : UInt32) (ts : UInt64)
    (actions : List Action) :
    Holds config i ts (delivered i (some i) actions) (recording config i ts actions) where
  episodeIndex := (arrival_identity _ _).1
  startTimeUs := (arrival_identity _ _).2
  observations := by
    intro key
    refine (observationSamples_arrivals _ _ _).trans ?_
    simp [PendingEpisode.new]
  actions := by
    intro key
    refine (actionSamples_arrivals _ _ _).trans ?_
    simp [PendingEpisode.new]
  cameras := by
    intro channelId
    refine (cameraStreams_arrivals _ _ _).trans ?_
    rw [PendingEpisode.new, lookup_foldl_insert]
    split
    · rfl
    · simp

theorem recording_listed (config : AssemblerRuntimeConfigV2) (i : UInt32) (ts : UInt64)
    (actions : List Action) : FailuresListed (recording config i ts actions) :=
  foldl_preserves (P := FailuresListed) (fun a _ _ he => he.onArrival a)
    (failuresListed_new i ts _)

end Contents

end McapAssembler
