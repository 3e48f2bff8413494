import Rollio.EncoderStreams

/-! What the main loop of an encoder has told its worker. As long as nothing follows a shutdown
on the control topic, no start is taken behind a stop in one iteration and the worker has not
failed, the worker is told of every start, and of nothing behind a shutdown. -/
namespace EncoderForwarding
open BusMessages RecordingEncoder Queues EncoderProcess ControlEvents EncoderStreams

def openBy (opened : Option UInt32) : WorkerControl → Option UInt32
  | .recordingStart i _ => some i
  | .recordingStop | .shutdown => none
  | .droppedFrame => opened

def openEpisode (commands : List WorkerControl) : Option UInt32 := commands.foldl openBy none

def command? : ControlEvent → Option WorkerControl
  | .recordingStart i ts => some (.recordingStart i ts)
  | .recordingStop _ _ => some .recordingStop
  | .shutdown => some .shutdown
  | .episodeKeep _ | .episodeDiscard _ | .modeSwitch _ => none

def openRecording (events : List ControlEvent) : Option UInt32 :=
  openEpisode (events.filterMap command?)

section Open

@[simp] theorem openEpisode_concat (l : List WorkerControl) (c : WorkerControl) :
    openEpisode (l ++ [c]) = openBy (openEpisode l) c := by
  simp [openEpisode]

theorem openRecording_concat (l : List ControlEvent) (event : ControlEvent) :
    openRecording (l ++ [event]) = match command? event with
      | some c => openBy (openRecording l) c
      | none => openRecording l := by
  cases event <;> simp [openRecording, List.filterMap_append, List.filterMap_cons, command?]

theorem openEpisode_append {l m : List WorkerControl} {i : UInt32}
    (h : openEpisode (l ++ m) = some i) : i ∈ commandStarts m ∨ openEpisode l = some i := by
  induction m using List.reverseRecOn with
  | nil => exact Or.inr (by simpa using h)
  | append_singleton m c ih =>
    rw [← List.append_assoc, openEpisode_concat] at h
    rw [commandStarts_append]
    cases c with
    | recordingStart k ts =>
      cases h
      exact Or.inl (List.mem_append_right _ List.mem_cons_self)
    | droppedFrame => exact (ih h).imp_left (List.mem_append_left _)
    | recordingStop => cases h
    | shutdown => cases h

theorem openRecording_append {l m : List ControlEvent} {i : UInt32}
    (h : openRecording (l ++ m) = some i) : i ∈ startIndices m ∨ openRecording l = some i := by
  rw [openRecording, List.filterMap_append] at h
  rcases openEpisode_append h with hm | hl
  · obtain ⟨c, hc, hi⟩ := List.mem_filterMap.mp hm
    obtain ⟨event, he, hcmd⟩ := List.mem_filterMap.mp hc
    refine Or.inl (List.mem_filterMap.mpr ⟨event, he, ?_⟩)
    cases event <;> cases hcmd <;> cases hi
    rfl
  · exact Or.inr hl

end Open

/-- `i` is started and later stopped. -/
def StartedAndStopped (i : UInt32) (events : List ControlEvent) : Prop :=
  ∃ before ts after, events = before ++ .recordingStart i ts :: after ∧
    ∃ ts', .recordingStop i ts' ∈ after

theorem StartedAndStopped.started {i : UInt32} {events : List ControlEvent}
    (h : StartedAndStopped i events) : i ∈ startIndices events := by
  obtain ⟨before, ts, after, rfl, -⟩ := h
  exact mem_startIndices.mpr ⟨ts, by simp⟩

/-- A stopped recording is not open unless it is started again. -/
theorem StartedAndStopped.not_open {i : UInt32} {events : List ControlEvent}
    (h : StartedAndStopped i events) (hn : (startIndices events).Nodup) :
    openRecording events ≠ some i := by
  obtain ⟨before, ts, after, rfl, ts', hstop⟩ := h
  obtain ⟨m, m', rfl⟩ := List.append_of_mem hstop
  intro ho
  have hsplit : before ++ ControlEvent.recordingStart i ts :: (m ++ .recordingStop i ts' :: m') =
      (before ++ .recordingStart i ts :: m) ++ [.recordingStop i ts'] ++ m' := by simp
  rw [hsplit] at ho hn
  rcases openRecording_append ho with hs | hs
  · -- a later start of `i` is a second one
    rw [startIndices_append] at hn
    refine (List.nodup_append.mp hn).2.2 i ?_ i hs rfl
    exact mem_startIndices.mpr ⟨ts, by simp⟩
  · rw [openRecording_concat] at hs
    cases hs

structure Forwards (e : Encoder) : Prop where
  starts : commandStarts e.commands.log = startIndices e.control.received
  opened : openEpisode e.commands.log =
    if e.recordingActive then (startIndices e.control.received).getLast? else none
  active : e.recordingActive = true → (openEpisode e.commands.log).isSome = true
  asked : openRecording e.control.received =
    if e.requestStop || e.requestShutdown then none else openEpisode e.commands.log
  /-- Nothing follows a shutdown on the topic. -/
  last : e.control.log.Pairwise fun a _ => a ≠ .shutdown
  requested : e.requestShutdown = true → .shutdown ∈ e.control.received
  done : .shutdown ∈ e.commands.log → .shutdown ∈ e.control.received ∧
    e.recordingActive = false ∧ e.requestStop = false ∧ e.requestShutdown = false
  ended : e.worker.phase = .ended → .shutdown ∈ e.commands.received
  fresh : e.phase = .events ∨ e.phase = .exited →
    e.requestStop = false ∧ e.requestShutdown = false
  stopped : e.phase = .shutdown → e.requestStop = true → e.recordingActive = false
  healthy : ∀ event ∈ e.events.pending, event = .shutdownComplete

theorem initial_forwards (processId : String) (queueSize : ℕ) :
    Forwards { processId := processId, queueSize := queueSize } := by
  constructor <;> simp [Queue.log, commandStarts, openEpisode, openRecording]

/-- No start is taken in an iteration that has already taken a stop. -/
def StartsAhead (e : Encoder) : EncoderAction → Prop
  | .takeControl => e.requestStop = true →
      ∀ event ∈ e.control.pending.head?, startIndex? event = none
  | _ => True

instance (e : Encoder) (a : EncoderAction) : Decidable (StartsAhead e a) := by
  unfold StartsAhead
  split <;> infer_instance

section Steps
variable {e e' : Encoder}

theorem Forwards.publish (h : Forwards e) {event : ControlEvent}
    (hlast : .shutdown ∉ e.control.log) :
    Forwards { e with control := e.control.publish [event] } where
  starts := h.starts
  opened := h.opened
  active := h.active
  asked := h.asked
  last := by
    rw [Queue.log_publish]
    refine List.pairwise_append.mpr ⟨h.last, List.pairwise_singleton .., ?_⟩
    intro a ha b _ he
    exact hlast (he ▸ ha)
  requested := h.requested
  done := h.done
  ended := h.ended
  fresh := h.fresh
  stopped := h.stopped
  healthy := h.healthy

theorem Forwards.of_worker (h : Forwards e) (hcontrol : e'.control = e.control)
    (hlog : e'.commands.log = e.commands.log) (hphase : e'.phase = e.phase)
    (hactive : e'.recordingActive = e.recordingActive)
    (hstop : e'.requestStop = e.requestStop) (hshutdown : e'.requestShutdown = e.requestShutdown)
    (hended : e'.worker.phase = .ended → .shutdown ∈ e'.commands.received)
    (hevents : ∀ event ∈ e'.events.pending, event = .shutdownComplete) : Forwards e' := by
  constructor
  · rw [hlog, hcontrol]; exact h.starts
  · rw [hlog, hcontrol, hactive]; exact h.opened
  · rw [hlog, hactive]; exact h.active
  · rw [hlog, hcontrol, hstop, hshutdown]; exact h.asked
  · rw [hcontrol]; exact h.last
  · rw [hcontrol, hshutdown]; exact h.requested
  · rw [hcontrol, hlog, hactive, hstop, hshutdown]; exact h.done
  · exact hended
  · rw [hphase, hstop, hshutdown]; exact h.fresh
  · rw [hphase, hstop, hactive]; exact h.stopped
  · exact hevents

/-- A step that only moves the main loop on, neither to its start nor to its end. -/
theorem Forwards.of_phase (h : Forwards e) {phase : LoopPhase}
    (hfresh : ¬ (phase = .events ∨ phase = .exited)) (hstopped : phase ≠ .shutdown) :
    Forwards { e with phase := phase } where
  starts := h.starts
  opened := h.opened
  active := h.active
  asked := h.asked
  last := h.last
  requested := h.requested
  done := h.done
  ended := h.ended
  fresh := fun hp => absurd hp hfresh
  stopped := fun hp => absurd hp hstopped
  healthy := h.healthy

/-- A send succeeds while the worker runs, and an empty one always does. -/
theorem send_alive (e : Encoder) (phase : LoopPhase) {p : Poll}
    (h : e.worker.phase = .ended → p.commands = [] ∧ p.queued = []) :
    (e.send phase p).1 = { e with
      phase := phase
      recordingActive := p.recordingActive
      requestStop := p.requestStop
      requestShutdown := p.requestShutdown
      commands := e.commands.publish p.commands
      frames := e.frames.publish p.queued } := by
  unfold Encoder.send
  rw [if_neg]
  rintro ⟨he, hc | hq⟩
  · exact hc (h he).1
  · exact hq (h he).2

theorem Forwards.alive (h : Forwards e) (hs : .shutdown ∉ e.commands.log) :
    e.worker.phase ≠ .ended :=
  fun he => hs (List.mem_append_left _ (h.ended he))

theorem Forwards.no_shutdown (h : Forwards e) (hp : e.control.pending ≠ []) :
    .shutdown ∉ e.control.received := by
  intro hs
  obtain ⟨event, rest, he⟩ := List.exists_cons_of_ne_nil hp
  have hl := h.last
  rw [Queue.log, he] at hl
  exact (List.pairwise_append.mp hl).2.2 _ hs event List.mem_cons_self rfl

theorem Forwards.takeControl (h : Forwards e) (ha : EncoderProcess.Enabled e .takeControl)
    (hok : StartsAhead e .takeControl) : Forwards e.takeControl.1 := by
  obtain ⟨event, control, hpop⟩ := Queue.pop_of_pending ha.2
  obtain ⟨hpend, hr⟩ := Queue.pop_spec hpop
  have hns := h.no_shutdown ha.2
  have hnc : .shutdown ∉ e.commands.log := fun hc => hns (h.done hc).1
  have hnr : e.requestShutdown = false := by
    cases hb : e.requestShutdown with
    | false => rfl
    | true => exact absurd (h.requested hb) hns
  have hstart : e.requestStop = true → startIndex? event = none := fun hs =>
    hok hs event (by simp [hpend])
  have hopened := h.opened
  have hactive := h.active
  have hasked := h.asked
  have hlog := Queue.log_pop hpop
  unfold Encoder.takeControl
  rw [hpop]
  simp only
  rw [send_alive { e with control := control } _ fun he => absurd he (h.alive hnc)]
  constructor
  · simp only [Queue.log_publish, commandStarts_append, h.starts, hr, startIndices_append]
    rw [onControl_starts (e := e)]
    cases event <;> rfl
  · simp only [Queue.log_publish, hr, startIndices_append]
    cases event <;>
      simp [Poll.onControl, Encoder.locals, openBy, startIndices, startIndex?, hopened]
  · simp only [Queue.log_publish]
    cases event with
    | recordingStart i ts => simp [Poll.onControl, Encoder.locals, openBy]
    | _ => simpa [Poll.onControl, Encoder.locals] using hactive
  · simp only [Queue.log_publish, hr, openRecording_concat]
    cases event with
    | recordingStart i ts =>
      have hs : e.requestStop = false := by
        by_contra hs
        cases hstart (by simpa using hs)
      simp [Poll.onControl, Encoder.locals, command?, openBy, hs, hnr]
    | _ => simp [Poll.onControl, Encoder.locals, command?, openBy, hasked, hnr]
  · simp only
    rw [hlog]
    exact h.last
  · simp only [hr]
    cases event <;> simp [Poll.onControl, Encoder.locals, hnr]
  · simp only [Queue.log_publish]
    intro hm
    rcases List.mem_append.mp hm with hm | hm
    · exact absurd hm hnc
    · cases event <;> simp [Poll.onControl, Encoder.locals] at hm
  · exact fun he => absurd he (h.alive hnc)
  · simp
  · simp
  · exact h.healthy

theorem Forwards.takeFrame (h : Forwards e) (frame : OwnedFrame) :
    Forwards (e.takeFrame frame).1 := by
  unfold Encoder.takeFrame Poll.onFrame
  cases hactive : e.recordingActive with
  | false =>
    rw [send_alive _ _ (by simp [Encoder.locals, hactive])]
    simp only [Encoder.locals, hactive, Bool.not_false, ↓reduceIte, Queue.publish_nil]
    exact ⟨h.starts, hactive ▸ h.opened, by simp, h.asked, h.last, h.requested, hactive ▸ h.done,
      h.ended, by simp, by simp, h.healthy⟩
  | true =>
    have hnc : .shutdown ∉ e.commands.log := by
      intro hc
      have hf := (h.done hc).2.1
      rw [hactive] at hf
      cases hf
    rw [send_alive _ _ fun he => absurd he (h.alive hnc)]
    have hopened := h.opened
    have hasked := h.asked
    rw [hactive] at hopened
    by_cases hfull : e.queueSize ≤ e.frames.pending.length
    · simp only [Encoder.locals, hactive, hfull, decide_true, Bool.not_true,
        Bool.false_eq_true, ↓reduceIte, List.nil_append]
      constructor
      · rw [Queue.log_publish, commandStarts_append, h.starts]
        exact List.append_nil _
      · simpa [openBy] using hopened
      · simpa [openBy] using h.active hactive
      · simpa [openBy] using hasked
      · exact h.last
      · exact h.requested
      · intro hm
        rw [Queue.log_publish] at hm
        simp only [List.mem_append, List.mem_singleton, reduceCtorEq, or_false] at hm
        exact absurd hm hnc
      · exact fun he => absurd he (h.alive hnc)
      · simp
      · simp
      · exact h.healthy
    · simp only [Encoder.locals, hactive, hfull, decide_false, Bool.not_true,
        Bool.false_eq_true, ↓reduceIte, Queue.publish_nil]
      exact ⟨h.starts, hopened, fun _ => h.active hactive, h.asked, h.last, h.requested,
        fun hm => absurd hm hnc, h.ended, by simp, by simp, h.healthy⟩

theorem Forwards.forwardStop (h : Forwards e) : Forwards e.forwardStop.1 := by
  unfold Encoder.forwardStop Poll.forwardStop
  cases hstop : e.requestStop with
  | false =>
    rw [send_alive _ _ (by simp [Encoder.locals, hstop])]
    simp only [Encoder.locals, hstop, Bool.false_eq_true, ↓reduceIte, Queue.publish_nil]
    exact ⟨h.starts, h.opened, h.active, hstop ▸ h.asked, h.last, h.requested, hstop ▸ h.done,
      h.ended, by simp, by simp, h.healthy⟩
  | true =>
    have hnc : .shutdown ∉ e.commands.log := by
      intro hc
      have hf := (h.done hc).2.2.1
      rw [hstop] at hf
      cases hf
    have hasked := h.asked
    rw [send_alive _ _ fun he => absurd he (h.alive hnc)]
    simp only [Encoder.locals, hstop, ↓reduceIte, List.nil_append]
    constructor
    · rw [Queue.log_publish, commandStarts_append, h.starts]
      exact List.append_nil _
    · simp [openBy]
    · simp
    · simpa [hstop] using hasked
    · exact h.last
    · exact h.requested
    · intro hm
      rw [Queue.log_publish] at hm
      simp only [List.mem_append, List.mem_singleton, reduceCtorEq, or_false] at hm
      exact absurd hm hnc
    · exact fun he => absurd he (h.alive hnc)
    · simp
    · simp
    · exact h.healthy

theorem Forwards.forwardShutdown (h : Forwards e) (hp : e.phase = .shutdown) :
    Forwards e.forwardShutdown.1 := by
  have hphase : (if e.shutdownRequested then LoopPhase.exited else .events) ≠ .shutdown := by
    split <;> simp
  have hasked := h.asked
  have hopened := h.opened
  unfold Encoder.forwardShutdown Poll.forwardShutdown
  cases hshutdown : e.requestShutdown with
  | false =>
    rw [send_alive _ _ (by simp [Encoder.locals, hshutdown])]
    simp only [Encoder.locals, hshutdown, Bool.false_eq_true, ↓reduceIte, Queue.publish_nil]
    refine ⟨h.starts, h.opened, h.active, ?_, h.last, by simp, ?_, h.ended, by simp,
      fun he => absurd he hphase, h.healthy⟩
    · cases hstop : e.requestStop with
      | false => simpa [hstop, hshutdown] using hasked
      | true =>
        rw [h.stopped hp hstop] at hopened
        simpa [hstop, hopened] using hasked
    · exact fun hm => ⟨(h.done hm).1, (h.done hm).2.1, rfl, rfl⟩
  | true =>
    have hnc : .shutdown ∉ e.commands.log := by
      intro hc
      have hf := (h.done hc).2.2.2
      rw [hshutdown] at hf
      cases hf
    rw [send_alive _ _ fun he => absurd he (h.alive hnc)]
    simp only [Encoder.locals, hshutdown, ↓reduceIte, List.nil_append]
    constructor
    · rw [Queue.log_publish, commandStarts_append, h.starts]
      exact List.append_nil _
    · simp [openBy]
    · simp
    · simpa [openBy, hshutdown] using hasked
    · exact h.last
    · simp
    · exact fun _ => ⟨h.requested hshutdown, rfl, rfl, rfl⟩
    · exact fun he => absurd he (h.alive hnc)
    · simp
    · exact fun he => absurd he hphase
    · exact h.healthy

theorem Forwards.takeEvent (h : Forwards e) : Forwards e.takeEvent := by
  unfold Encoder.takeEvent
  split
  · exact h
  · next hpop =>
    have hm := h.healthy _ (by rw [(Queue.pop_spec hpop).1]; exact List.mem_cons_self)
    cases hm
  · next events hpop =>
    refine ⟨h.starts, h.opened, h.active, h.asked, h.last, h.requested, h.done, h.ended, h.fresh,
      h.stopped, ?_⟩
    intro event he
    exact h.healthy event (by rw [(Queue.pop_spec hpop).1]; exact List.mem_cons_of_mem _ he)

end Steps

end EncoderForwarding
