import Rollio.AnsweringWorkers
import Rollio.PartialRuns
import Rollio.StorageProcess

/-! Whole runs of a storage process. The three backends share the main loop and the worker, and
differ in how a request is served: requests are served one by one in their order, each is announced
once it succeeded, and nothing is served after a failure. -/
namespace StorageRuns
open BusMessages Queues PartialRuns AnsweringWorkers StorageProcess

section Events

/-- The worker's event for a command, when serving a request gives `result`. -/
def answerOf (result : Except String String) : WorkerCommand → WorkerEvent
  | .store request =>
    match result with
    | .ok outputPath => .stored request.episodeIndex outputPath
    | .error message => .error message
  | .shutdown => .shutdownComplete

/-- An error ends the worker as the shutdown does. -/
def isLast : WorkerEvent → Bool
  | .stored .. => false
  | .error _ | .shutdownComplete => true

def notice : WorkerEvent → Option EpisodeStored
  | .stored i outputPath => some ⟨i, .new 256 outputPath⟩
  | .error _ | .shutdownComplete => none

def requestOf : WorkerCommand → Option EpisodeReadyRequest
  | .store request => some request
  | .shutdown => none

def readyRequest (event : EpisodeReady) : EpisodeReadyRequest :=
  ⟨event.episodeIndex, event.stagingDir.asStr⟩

def worker (s : Storage) : Worker WorkerCommand WorkerEvent :=
  ⟨s.commands, s.events, s.workerRunning⟩

def Answered (command : WorkerCommand) (event : WorkerEvent) : Prop :=
  ∃ result, event = answerOf result command

theorem worker_work {s : Storage} (hrun : s.workerRunning = true) (result : Except String String) :
    worker (s.work result) = (worker s).work isLast (answerOf result) := by
  unfold Storage.work Worker.work worker
  cases hpop : s.commands.pop with
  | none => rfl
  | some popped =>
    obtain ⟨command, commands⟩ := popped
    cases command with
    | shutdown => rfl
    | store request =>
      cases result with
      | error message => rfl
      | ok outputPath => simp [answerOf, isLast, hrun]

theorem work_spec {s : Storage} {command : WorkerCommand} {commands : Queue WorkerCommand}
    (hpop : s.commands.pop = some (command, commands)) (result : Except String String) :
    (s.work result).commands = commands ∧
      (s.work result).events = s.events.publish [answerOf result command] ∧
      (s.work result).ready = s.ready ∧ (s.work result).shutdownComplete = s.shutdownComplete ∧
      (s.work result).phase = s.phase := by
  unfold Storage.work
  rw [hpop]
  cases command with
  | shutdown => exact ⟨rfl, rfl, rfl, rfl, rfl⟩
  | store request => cases result <;> exact ⟨rfl, rfl, rfl, rfl, rfl⟩

theorem send_frame (s : Storage) (command : WorkerCommand) :
    (s.send command).workerRunning = s.workerRunning ∧ (s.send command).events = s.events := by
  unfold Storage.send
  split <;> exact ⟨rfl, rfl⟩

/-- What the loop takes from a topic leaves the worker and its answers alone. -/
theorem takeControl_frame (s : Storage) :
    s.takeControl.workerRunning = s.workerRunning ∧ s.takeControl.events = s.events := by
  unfold Storage.takeControl
  split
  · exact ⟨rfl, rfl⟩
  · dsimp only
    split
    · exact send_frame _ _
    · exact ⟨rfl, rfl⟩

theorem takeReady_frame (s : Storage) :
    s.takeReady.workerRunning = s.workerRunning ∧ s.takeReady.events = s.events := by
  unfold Storage.takeReady
  split
  · exact ⟨rfl, rfl⟩
  · exact send_frame _ _

end Events

section Runs
variable {W α : Type}

structure Service (W α : Type) where
  request : EpisodeReadyRequest
  world : W
  answers : α

structure Process (W α : Type) where
  storage : Storage := {}
  world : W
  notices : List EpisodeStored := []
  served : List (Service W α) := []

inductive Action (W α : Type) where
  | loop (a : StorageAction)
  | work (answers : α)
  | outside (w : W)
  | hear (control : List ControlEvent) (ready : List EpisodeReady)

def isWork : StorageAction → Bool
  | .work _ => true
  | _ => false

def Enabled (p : Process W α) : Action W α → Prop
  | .loop a => isWork a = false ∧ StorageProcess.Enabled p.storage a
  | .work _ => p.storage.workerRunning = true ∧ p.storage.commands.pending ≠ []
  | .outside _ | .hear .. => True

instance (p : Process W α) (a : Action W α) : Decidable (Enabled p a) := by
  cases a <;> simp only [Enabled] <;> infer_instance

variable (serve : W → EpisodeReadyRequest → α → Except String String × W)

namespace Process

def work (p : Process W α) (answers : α) : Process W α :=
  match p.storage.commands.pop with
  | some (.store request, _) =>
    let (result, world) := serve p.world request answers
    { p with
      storage := p.storage.work result
      world := world
      served := p.served ++ [⟨request, p.world, answers⟩] }
  | some (.shutdown, _) | none => { p with storage := p.storage.work (.ok "") }

def loop (p : Process W α) (a : StorageAction) : Process W α :=
  let (storage, out) := StorageProcess.next p.storage a
  { p with storage := storage, notices := p.notices ++ out }

def hear (p : Process W α) (control : List ControlEvent) (ready : List EpisodeReady) :
    Process W α :=
  { p with
    storage := { p.storage with
      control := p.storage.control.publish control
      ready := p.storage.ready.publish ready } }

end Process

def next (p : Process W α) : Action W α → Process W α
  | .loop a => p.loop a
  | .work answers => p.work serve answers
  | .outside w => { p with world := w }
  | .hear control ready => p.hear control ready

/-- The worker serves one request, or leaves the world alone. -/
theorem work_cases (p : Process W α) (answers : α) :
    ((p.work serve answers).served = p.served ∧ (p.work serve answers).world = p.world) ∨
      ∃ request, (p.work serve answers).served = p.served ++ [⟨request, p.world, answers⟩] ∧
        (p.work serve answers).world = (serve p.world request answers).2 := by
  unfold Process.work
  split
  · next request _ _ => exact .inr ⟨request, rfl, rfl⟩
  · exact .inl ⟨rfl, rfl⟩
  · exact .inl ⟨rfl, rfl⟩

/-- Others change the world as they may. -/
def Allowed (change : W → W → Prop) (p : Process W α) : Action W α → Prop
  | .outside w => change p.world w
  | .loop _ | .work _ | .hear .. => True

instance (change : W → W → Prop) [DecidableRel change] (p : Process W α) (a : Action W α) :
    Decidable (Allowed change p a) := by
  cases a <;> simp only [Allowed] <;> infer_instance

def started (w : W) : Process W α := { world := w }

def Runs (change : W → W → Prop) (p : Process W α) (actions : List (Action W α)) : Prop :=
  Follows Enabled (next serve) (Allowed change) p actions

instance (change : W → W → Prop) [DecidableRel change] (p : Process W α)
    (actions : List (Action W α)) : Decidable (Runs serve change p actions) :=
  inferInstanceAs (Decidable (Follows _ _ _ _ _))

def run (p : Process W α) (actions : List (Action W α)) : Process W α :=
  actions.foldl (next serve) p

namespace Service

def result (x : Service W α) : Except String String := (serve x.world x.request x.answers).1

def event (x : Service W α) : WorkerEvent := answerOf (x.result serve) (.store x.request)

def stored (x : Service W α) : Option EpisodeStored := notice (x.event serve)

end Service

end Runs

section Serving
variable {W α : Type} {serve : W → EpisodeReadyRequest → α → Except String String × W}
  {change : W → W → Prop} {p : Process W α} {w : W} {actions : List (Action W α)}

def isComplete : WorkerEvent → Bool
  | .shutdownComplete => true
  | .stored .. | .error _ => false

/-- The worker's channels hold the requests that were served and their outcomes, in order. -/
structure Serving (serve : W → EpisodeReadyRequest → α → Except String String × W)
    (p : Process W α) : Prop where
  sound : Sound Answered isLast (worker p.storage)
  commands : p.storage.commands.received.filterMap requestOf = p.served.map (·.request)
  events : p.storage.events.log.filter (!isComplete ·) = p.served.map (·.event serve)
  notices : p.notices = p.storage.events.received.filterMap notice
  requests : p.storage.commands.log.filterMap requestOf <+:
    p.storage.ready.received.map readyRequest
  complete : p.storage.shutdownComplete = true → p.storage.events.received.any isComplete = true
  forwarded : p.storage.phase ≠ .exited →
    p.storage.commands.log.filterMap requestOf = p.storage.ready.received.map readyRequest

theorem serving_started (w : W) : Serving serve (started w : Process W α) where
  sound := sound_fresh
  commands := rfl
  events := rfl
  notices := rfl
  requests := List.prefix_rfl
  complete := nofun
  forwarded := fun _ => rfl

theorem Serving.takeEvent (h : Serving serve p) :
    Serving serve (p.loop .takeEvent) := by
  unfold Process.loop StorageProcess.next Storage.takeEvent
  dsimp only
  cases hpop : p.storage.events.pop with
  | none => exact ⟨h.sound, h.commands, h.events, (List.append_nil _).trans h.notices, h.requests,
      h.complete, h.forwarded⟩
  | some popped =>
    obtain ⟨event, events⟩ := popped
    obtain ⟨-, hread⟩ := Queue.pop_spec hpop
    have hlog := Queue.log_pop hpop
    have htake : (worker p.storage).take =
        some (event, ⟨p.storage.commands, events, p.storage.workerRunning⟩) := by
      simp [Worker.take, worker, hpop]
    have hsound := h.sound.take htake
    have hevents : events.log.filter (!isComplete ·) = p.served.map (·.event serve) := by
      rw [hlog, h.events]
    cases event with
    | stored i outputPath =>
      refine ⟨hsound, h.commands, hevents, ?_, h.requests, fun hc => ?_, h.forwarded⟩
      · rw [hread, List.filterMap_append, ← h.notices]
        rfl
      · rw [hread, List.any_append, h.complete hc, Bool.true_or]
    | error message =>
      refine ⟨hsound.send [.shutdown], h.commands, hevents, ?_, ?_, fun hc => ?_, nofun⟩
      · rw [hread, List.filterMap_append, ← h.notices]
        rfl
      · rw [Queue.log_publish, List.filterMap_append]
        exact (List.append_nil _).symm ▸ h.requests
      · rw [hread, List.any_append, h.complete hc, Bool.true_or]
    | shutdownComplete =>
      refine ⟨hsound, h.commands, hevents, ?_, h.requests, fun _ => ?_, h.forwarded⟩
      · rw [hread, List.filterMap_append, ← h.notices]
        rfl
      · rw [hread, List.any_append]
        exact Bool.or_true _

theorem Serving.takeControl (h : Serving serve p) : Serving serve (p.loop .takeControl) := by
  unfold Process.loop StorageProcess.next Storage.takeControl
  dsimp only
  rw [List.append_nil]
  cases hpop : p.storage.control.pop with
  | none => exact ⟨h.sound, h.commands, h.events, h.notices, h.requests, h.complete, h.forwarded⟩
  | some popped =>
    obtain ⟨event, control⟩ := popped
    dsimp only
    split
    · unfold Storage.send
      split
      · refine ⟨h.sound.send [.shutdown], h.commands, h.events, h.notices, ?_, h.complete,
          fun hopen => ?_⟩
        · rw [Queue.log_publish, List.filterMap_append]
          exact (List.append_nil _).symm ▸ h.requests
        · rw [Queue.log_publish, List.filterMap_append]
          exact (List.append_nil _).trans (h.forwarded hopen)
      · exact ⟨h.sound, h.commands, h.events, h.notices, h.requests, h.complete, nofun⟩
    · exact ⟨h.sound, h.commands, h.events, h.notices, h.requests, h.complete, h.forwarded⟩

theorem Serving.takeReady (h : Serving serve p) (hphase : p.storage.phase ≠ .exited) :
    Serving serve (p.loop .takeReady) := by
  unfold Process.loop StorageProcess.next Storage.takeReady
  dsimp only
  rw [List.append_nil]
  cases hpop : p.storage.ready.pop with
  | none => exact ⟨h.sound, h.commands, h.events, h.notices, h.requests, h.complete, h.forwarded⟩
  | some popped =>
    obtain ⟨event, ready⟩ := popped
    obtain ⟨-, hread⟩ := Queue.pop_spec hpop
    have hreceived : ready.received.map readyRequest =
        p.storage.commands.log.filterMap requestOf ++ [readyRequest event] := by
      rw [hread, List.map_append, h.forwarded hphase]
      rfl
    dsimp only
    unfold Storage.send
    split
    · have hforwarded : (p.storage.commands.publish [.store (readyRequest event)]).log.filterMap
          requestOf = ready.received.map readyRequest := by
        rw [Queue.log_publish, List.filterMap_append, hreceived]
        rfl
      exact ⟨h.sound.send _, h.commands, h.events, h.notices,
        hforwarded ▸ List.prefix_rfl, h.complete, fun _ => hforwarded⟩
    · exact ⟨h.sound, h.commands, h.events, h.notices, hreceived ▸ List.prefix_append _ _,
        h.complete, nofun⟩

theorem Serving.work (h : Serving serve p) (hrun : p.storage.workerRunning = true) (answers : α) :
    Serving serve (p.work serve answers) := by
  have hsound (result : Except String String) :
      Sound Answered isLast (worker (p.storage.work result)) := by
    rw [worker_work hrun]
    exact h.sound.work hrun fun command => ⟨result, rfl⟩
  unfold Process.work
  cases hpop : p.storage.commands.pop with
  | none =>
    have hsame : p.storage.work (.ok "") = p.storage := by rw [Storage.work, hpop]
    dsimp only
    rw [hsame]
    exact h
  | some popped =>
    obtain ⟨command, commands⟩ := popped
    obtain ⟨-, hread⟩ := Queue.pop_spec hpop
    have hlog := Queue.log_pop hpop
    cases command with
    | store request =>
      obtain ⟨hcommands, hevents, hready, hcomplete, hphase⟩ :=
        work_spec hpop (serve p.world request answers).1
      refine ⟨hsound _, ?_, ?_, ?_, ?_, ?_, ?_⟩
      · simp only [hcommands, hread, List.filterMap_append, h.commands, List.map_append]
        rfl
      · have hkeep : isComplete (answerOf (serve p.world request answers).1 (.store request)) =
            false := by
          cases (serve p.world request answers).1 <;> rfl
        simp only [hevents, Queue.log_publish, List.filter_append, h.events, List.map_append]
        congr 1
        simp [hkeep, Service.event, Service.result]
      · exact h.notices.trans (by rw [hevents]; rfl)
      · simpa only [hcommands, hlog, hready] using h.requests
      · simpa only [hcomplete, hevents, Queue.received_publish] using h.complete
      · simpa only [hcommands, hlog, hready, hphase] using h.forwarded
    | shutdown =>
      obtain ⟨hcommands, hevents, hready, hcomplete, hphase⟩ := work_spec hpop (.ok "")
      refine ⟨hsound _, ?_, ?_, ?_, ?_, ?_, ?_⟩
      · simp only [hcommands, hread, List.filterMap_append, h.commands]
        exact List.append_nil _
      · simp only [hevents, Queue.log_publish, List.filter_append, h.events]
        exact List.append_nil _
      · exact h.notices.trans (by rw [hevents]; rfl)
      · simpa only [hcommands, hlog, hready] using h.requests
      · simpa only [hcomplete, hevents, Queue.received_publish] using h.complete
      · simpa only [hcommands, hlog, hready, hphase] using h.forwarded

theorem Serving.turn {s : Storage} (h : Serving serve p) (hworker : worker s = worker p.storage)
    (hready : s.ready = p.storage.ready) (hcomplete : s.shutdownComplete = p.storage.shutdownComplete)
    (hphase : p.storage.phase ≠ .exited) :
    Serving serve { p with storage := s } := by
  obtain ⟨hcommands, hevents, -⟩ : s.commands = p.storage.commands ∧ s.events = p.storage.events ∧
      s.workerRunning = p.storage.workerRunning := by
    simpa [worker] using hworker
  refine ⟨hworker ▸ h.sound, ?_, ?_, ?_, ?_, ?_, fun _ => ?_⟩
  · simpa only [hcommands] using h.commands
  · simpa only [hevents] using h.events
  · simpa only [hevents] using h.notices
  · simpa only [hcommands, hready] using h.requests
  · simpa only [hcomplete, hevents] using h.complete
  · simpa only [hcommands, hready] using h.forwarded hphase

theorem Serving.next {a : Action W α} (h : Serving serve p) (ha : Enabled p a) :
    Serving serve (next serve p a) := by
  cases a with
  | work answers => exact h.work ha.1 answers
  | outside w => exact ⟨h.sound, h.commands, h.events, h.notices, h.requests, h.complete, h.forwarded⟩
  | hear control ready =>
    exact ⟨h.sound, h.commands, h.events, h.notices, h.requests, h.complete, h.forwarded⟩
  | loop a =>
    obtain ⟨hloop, ha⟩ := ha
    cases a with
    | takeEvent => exact h.takeEvent
    | takeControl => exact h.takeControl
    | takeReady => exact h.takeReady (by rw [ha.1]; decide)
    | eventsDrained =>
      have hphase : p.storage.phase ≠ .exited := by rw [ha.1]; decide
      simpa [StorageRuns.next, Process.loop, StorageProcess.next] using
        h.turn (s := { p.storage with phase := .control }) rfl rfl rfl hphase
    | controlDrained =>
      have hphase : p.storage.phase ≠ .exited := by rw [ha]; decide
      simpa [StorageRuns.next, Process.loop, StorageProcess.next] using
        h.turn (s := { p.storage with phase := .ready }) rfl rfl rfl hphase
    | readyDrained =>
      have hphase : p.storage.phase ≠ .exited := by rw [ha]; decide
      simp only [StorageRuns.next, Process.loop, StorageProcess.next, List.append_nil]
      exact h.turn rfl rfl rfl hphase
    | work result => cases hloop

theorem run_serving (h : Runs serve change (started w) actions) :
    Serving serve (run serve (started w) actions) :=
  (path_of_follows h).invariant (serving_started w) fun _ _ ha _ hu => hu.next ha

theorem next_notices (p : Process W α) (a : Action W α) :
    p.notices <+: (StorageRuns.next serve p a).notices := by
  cases a with
  | loop a => exact List.prefix_append _ _
  | work answers =>
    rw [StorageRuns.next, Process.work]
    split <;> exact List.prefix_rfl
  | outside w => exact List.prefix_rfl
  | hear control ready => exact List.prefix_rfl

theorem storage_ready_log (s : Storage) (a : StorageAction) :
    (StorageProcess.next s a).1.ready.log = s.ready.log := by
  have hsend (s : Storage) (command : WorkerCommand) : (s.send command).ready = s.ready := by
    unfold Storage.send
    split <;> rfl
  cases a with
  | takeEvent =>
    simp only [StorageProcess.next, Storage.takeEvent]
    split <;> rfl
  | takeControl =>
    simp only [StorageProcess.next, Storage.takeControl]
    split
    · rfl
    · split
      · rw [hsend]
      · rfl
  | takeReady =>
    simp only [StorageProcess.next, Storage.takeReady]
    split
    · rfl
    · next hpop => rw [hsend, Queue.log_pop hpop]
  | work result =>
    simp only [StorageProcess.next, Storage.work]
    split
    · rfl
    · split <;> rfl
    · rfl
  | _ => rfl

theorem next_ready_log (p : Process W α) (a : Action W α) :
    (StorageRuns.next serve p a).storage.ready.log = p.storage.ready.log ++
      (match a with
        | .hear _ ready => ready
        | _ => []) := by
  cases a with
  | loop a => exact (storage_ready_log p.storage a).trans (List.append_nil _).symm
  | work answers =>
    rw [List.append_nil, StorageRuns.next, Process.work]
    split <;> exact storage_ready_log p.storage (.work _)
  | outside w => exact (List.append_nil _).symm
  | hear control ready => exact Queue.log_publish _ _

end Serving

section Order
variable {W α : Type} {serve : W → EpisodeReadyRequest → α → Except String String × W}
  {change : W → W → Prop} {p : Process W α} {w : W} {actions : List (Action W α)}

/-- What a storage process does with its requests. -/
structure Orderly (serve : W → EpisodeReadyRequest → α → Except String String × W)
    (p : Process W α) : Prop where
  /-- Requests are served as they came. -/
  requests : p.served.map (·.request) <+: p.storage.ready.received.map readyRequest
  /-- All that was received is with the worker, as long as the main loop runs. -/
  forwarded : p.storage.phase ≠ .exited →
    p.storage.commands.log.filterMap requestOf = p.storage.ready.received.map readyRequest
  /-- What is announced succeeded, in the order of the requests. -/
  notices : p.notices <+: p.served.filterMap (·.stored serve)
  /-- Nothing is served after a failure. -/
  failure : ∀ x ∈ p.served.dropLast, (x.result serve).isOk = true
  /-- A completed shutdown comes behind all that was sent to the worker before it, and all of it is
  announced. -/
  complete : p.storage.shutdownComplete = true →
    (∀ x ∈ p.served, (x.result serve).isOk = true) ∧
      p.notices = p.served.filterMap (·.stored serve) ∧
      ∃ later, p.storage.commands.log = p.served.map (.store ·.request) ++ .shutdown :: later

theorem filterMap_notice (events : List WorkerEvent) :
    events.filterMap notice = (events.filter (!isComplete ·)).filterMap notice := by
  induction events with
  | nil => rfl
  | cons event events ih =>
    cases event with
    | shutdownComplete => exact ih
    | stored | error => simp [isComplete, List.filterMap_cons, notice, ih]

theorem event_not_last {x : Service W α} :
    isLast (x.event serve) = false ↔ (x.result serve).isOk = true := by
  unfold Service.event
  cases x.result serve <;> simp [answerOf, isLast, Except.isOk, Except.toBool]

theorem all_ok {served : List (Service W α)} {events : List WorkerEvent}
    (hserved : served.map (·.event serve) = events) (hnone : events.any isLast = false) :
    ∀ x ∈ served, (x.result serve).isOk = true := by
  intro x hx
  refine event_not_last.mp (eq_false_of_ne_true fun hlast => ?_)
  have hany : events.any isLast = true :=
    List.any_eq_true.mpr ⟨_, hserved ▸ List.mem_map_of_mem hx, hlast⟩
  rw [hnone] at hany
  cases hany

theorem filter_of_none {events : List WorkerEvent} (hnone : events.any isLast = false) :
    events.filter (!isComplete ·) = events := by
  refine List.filter_eq_self.mpr fun event hevent => ?_
  have hopen := List.any_eq_false.mp hnone event hevent
  cases event with
  | stored | error => rfl
  | shutdownComplete => exact absurd rfl hopen

/-- Commands whose answers end nothing are requests. -/
theorem stores_of_answered {commands : List WorkerCommand} {events : List WorkerEvent}
    (h : List.Forall₂ Answered commands events) (hnone : events.any isLast = false) :
    commands = (commands.filterMap requestOf).map .store := by
  induction h with
  | nil => rfl
  | @cons command event commands events hanswer _ ih =>
    rw [List.any_cons, Bool.or_eq_false_iff] at hnone
    obtain ⟨result, rfl⟩ := hanswer
    cases command with
    | shutdown => exact absurd hnone.1 (by simp [answerOf, isLast])
    | store request =>
      simp only [List.filterMap_cons, requestOf, List.map_cons, List.cons.injEq, true_and]
      exact ih hnone.2

theorem Serving.failure (h : Serving serve p) :
    ∀ x ∈ p.served.dropLast, (x.result serve).isOk = true := by
  have hevents := h.events
  cases hrun : p.storage.workerRunning with
  | true =>
    have hnone := h.sound.running hrun
    rw [show (worker p.storage).events = p.storage.events from rfl] at hnone
    rw [filter_of_none hnone] at hevents
    exact fun x hx => all_ok hevents.symm hnone x (List.dropLast_subset _ hx)
  | false =>
    obtain ⟨first, last, hlog, hnone, hlast⟩ := h.sound.stopped hrun
    rw [show (worker p.storage).events = p.storage.events from rfl] at hlog
    rw [hlog, List.filter_append, filter_of_none hnone] at hevents
    have hfirst : p.served.dropLast.map (·.event serve) <+: first := by
      rw [List.map_dropLast, ← hevents]
      cases last with
      | shutdownComplete => exact (List.append_nil first).symm ▸ List.dropLast_prefix first
      | stored i outputPath => cases hlast
      | error message => simp [isComplete]
    refine all_ok rfl (List.any_eq_false.mpr fun event hevent => ?_)
    exact List.any_eq_false.mp hnone event (hfirst.subset hevent)

theorem Serving.order (h : Serving serve p) : Orderly serve p where
  requests := by
    rw [← h.commands]
    refine List.IsPrefix.trans ?_ h.requests
    exact List.IsPrefix.filterMap _ (List.prefix_append _ _)
  forwarded := h.forwarded
  notices := by
    have hall : p.storage.events.log.filterMap notice = p.served.filterMap (·.stored serve) := by
      rw [filterMap_notice, h.events, List.filterMap_map]
      rfl
    rw [← hall, h.notices]
    exact List.IsPrefix.filterMap _ (List.prefix_append _ _)
  failure := h.failure
  complete := by
    intro hcomplete
    have hread : p.storage.events.received.any isLast = true := by
      obtain ⟨event, hmem, hevent⟩ := List.any_eq_true.mp (h.complete hcomplete)
      cases event with
      | stored | error => cases hevent
      | shutdownComplete => exact List.any_eq_true.mpr ⟨_, hmem, rfl⟩
    obtain ⟨hpending, commands, command, events, event, hcommands, hevents, hnone, hlast, hfirst,
      result, rfl⟩ := h.sound.complete hread
    change p.storage.events.pending = [] at hpending
    change p.storage.commands.received = _ at hcommands
    change p.storage.events.received = _ at hevents
    have hlog : p.storage.events.log = p.storage.events.received := by
      rw [Queue.log, hpending, List.append_nil]
    -- no event before the last completes the shutdown, so the last does
    cases command with
    | store request =>
      exfalso
      obtain ⟨event, hmem, hevent⟩ := List.any_eq_true.mp (h.complete hcomplete)
      rw [hevents, List.mem_append, List.mem_singleton] at hmem
      rcases hmem with hmem | rfl
      · cases event with
        | stored | error => cases hevent
        | shutdownComplete => exact List.any_eq_false.mp hnone _ hmem rfl
      · cases result <;> cases hevent
    | shutdown =>
      have hserved : p.served.map (·.event serve) = events := by
        rw [← h.events, hlog, hevents, List.filter_append, filter_of_none hnone]
        exact List.append_nil _
      refine ⟨all_ok hserved hnone, ?_, p.storage.commands.pending, ?_⟩
      · rw [h.notices, ← hlog, filterMap_notice, h.events, List.filterMap_map]
        rfl
      · have hstores : commands = p.served.map (.store ·.request) := by
          have hrequests : commands.filterMap requestOf = p.served.map (·.request) := by
            rw [← h.commands, hcommands, List.filterMap_append]
            exact (List.append_nil _).symm
          rw [stores_of_answered hfirst hnone, hrequests, List.map_map]
          rfl
        rw [Queue.log, hcommands, hstores, List.append_assoc]
        rfl

/-- In every run of a storage process, whatever its backend answers and others do to its files,
requests are served one after the other until a failure or the shutdown; those that succeeded are
announced in their order, and all of them are once the shutdown is complete. -/
theorem requests_served_in_order (h : Runs serve change (started w) actions) :
    Orderly serve (run serve (started w) actions) := (run_serving h).order

def anyAnswer (w : Unit) (_ : EpisodeReadyRequest) (result : Except String String) :
    Except String String × Unit := (result, w)

def sampleRequests : List (Action Unit (Except String String)) :=
  [.hear [] [⟨0, .new 256 "/staging/0"⟩, ⟨1, .new 256 "/staging/1"⟩], .loop .eventsDrained,
    .loop .controlDrained, .loop .takeReady, .loop .takeReady, .loop .readyDrained,
    .work (.ok "first"), .loop .takeEvent, .work (.error "disk full")]

theorem sample_requests_served : Orderly anyAnswer (run anyAnswer (started ()) sampleRequests) := by
  have hruns : Runs anyAnswer (· = ·) (started ()) sampleRequests := by decide +kernel
  exact requests_served_in_order hruns

end Order

end StorageRuns
