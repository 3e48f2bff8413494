import Mathlib.Data.List.Basic
import Rollio.EncoderProcess
import Rollio.PartialRuns

/-! How the polls of an encoder's process split the control topic. Batches in which nothing follows a
stop are forwarded as if each event had a poll of its own, until the process ends. -/
namespace EncoderBatching
open BusMessages RecordingEncoder EncoderProcess Queues PartialRuns

/-- A process with what its loop has drained: in the polls that are over, batch by batch, and in
the one under way. -/
structure Watched where
  encoder : Encoder
  batches : List (List ControlEvent) := []
  drained : List ControlEvent := []

inductive Move where
  | publish (event : ControlEvent)
  | step (action : EncoderAction)

def Enabled (w : Watched) : Move → Prop
  | .publish _ => True
  | .step action => EncoderProcess.Enabled w.encoder action

instance (w : Watched) (m : Move) : Decidable (Enabled w m) := by
  cases m <;> simp only [Enabled] <;> infer_instance

/-- A poll is over once it has forwarded its shutdown; a failed send leaves the request standing. -/
def Watched.endPoll (w : Watched) (e : Encoder) : Watched :=
  if e.requestShutdown then { w with encoder := e }
  else { encoder := e, batches := w.batches ++ [w.drained] }

def next (w : Watched) : Move → Watched
  | .publish event =>
    { w with encoder := { w.encoder with control := w.encoder.control.publish [event] } }
  | .step action =>
    let e := (EncoderProcess.next w.encoder action).1
    match action with
    | .takeControl =>
      { w with encoder := e, drained := w.drained ++ w.encoder.control.pending.head?.toList }
    | .forwardShutdown => w.endPoll e
    | _ => { w with encoder := e }

def started (processId : String) (queueSize : ℕ) : Watched where
  encoder := { processId := processId, queueSize := queueSize }

/-- The states that the process reaches, with any events and any speed of its worker. -/
def Reached (processId : String) (queueSize : ℕ) (w : Watched) : Prop :=
  Path Enabled next (fun _ _ => True) (started processId queueSize) w

/-- No start or stop comes after a stop. -/
def Orderly (events : List ControlEvent) : Prop :=
  events.Pairwise fun a b => isStop a = true → isBoundary b = false

instance (events : List ControlEvent) : Decidable (Orderly events) :=
  inferInstanceAs (Decidable (events.Pairwise _))

def lastIsStart (events : List ControlEvent) : Bool :=
  (events.filter isBoundary).getLast?.any isStart

/-- Of batches listed latest first: a shutdown came with the last start or stop or later. -/
def shutdownSinceBoundary : List (List ControlEvent) → Bool
  | [] => false
  | batch :: earlier =>
    batch.any isShutdown || (!batch.any isBoundary && shutdownSinceBoundary earlier)

section Batches
variable {events : List ControlEvent} {event : ControlEvent}

theorem boundary_cases (event : ControlEvent) :
    (∃ c, isStart event = true ∧ isStop event = false ∧ isBoundary event = true ∧
        start? event = some c ∧ boundary? event = some c ∧ c ≠ .recordingStop) ∨
      (isStart event = false ∧ isStop event = true ∧ isBoundary event = true ∧
        start? event = none ∧ boundary? event = some .recordingStop) ∨
      (isStart event = false ∧ isStop event = false ∧ isBoundary event = false ∧
        start? event = none ∧ boundary? event = none) := by
  cases event with
  | recordingStart i ts => exact Or.inl ⟨_, rfl, rfl, rfl, rfl, rfl, by simp⟩
  | recordingStop i ts => exact Or.inr (Or.inl ⟨rfl, rfl, rfl, rfl, rfl⟩)
  | episodeKeep i => exact Or.inr (Or.inr ⟨rfl, rfl, rfl, rfl, rfl⟩)
  | episodeDiscard i => exact Or.inr (Or.inr ⟨rfl, rfl, rfl, rfl, rfl⟩)
  | shutdown => exact Or.inr (Or.inr ⟨rfl, rfl, rfl, rfl, rfl⟩)
  | modeSwitch m => exact Or.inr (Or.inr ⟨rfl, rfl, rfl, rfl, rfl⟩)

theorem boundary?_eq_none_iff : boundary? event = none ↔ isBoundary event = false := by
  obtain ⟨c, -, -, hb, -, h, -⟩ | ⟨-, -, hb, -, h⟩ | ⟨-, -, hb, -, h⟩ := boundary_cases event <;>
    simp [hb, h]

theorem stop_notMem_starts (events : List ControlEvent) :
    WorkerControl.recordingStop ∉ events.filterMap start? := by
  intro hm
  obtain ⟨event, -, he⟩ := List.mem_filterMap.mp hm
  cases event <;> cases he

theorem no_boundary_iff : events.filterMap boundary? = [] ↔ events.any isBoundary = false := by
  simp [List.filterMap_eq_nil_iff, boundary?_eq_none_iff]

theorem batchBoundaries_of_no_boundary (h : events.any isBoundary = false) :
    batchBoundaries events = [] := by
  simp only [List.any_eq_false, isBoundary, Bool.or_eq_true, not_or] at h
  have hstop : events.any isStop = false := by simpa using fun e he => (h e he).2
  have hstart : events.filterMap start? = [] := by
    refine List.filterMap_eq_nil_iff.mpr fun e he => ?_
    obtain ⟨c, hs, -⟩ | ⟨-, -, -, hs, -⟩ | ⟨-, -, -, hs, -⟩ := boundary_cases e
    · exact absurd hs (h e he).1
    · exact hs
    · exact hs
  simp [batchBoundaries, hstop, hstart]

/-- A batch is forwarded event by event exactly when it is orderly. -/
theorem batchBoundaries_eq_iff :
    batchBoundaries events = events.filterMap boundary? ↔ Orderly events := by
  induction events with
  | nil => simp [batchBoundaries, Orderly]
  | cons event events ih =>
    unfold Orderly at ih ⊢
    rw [List.pairwise_cons, ← ih]
    obtain ⟨c, -, hs, hb, h1, h2, hc⟩ | ⟨-, hs, hb, h1, h2⟩ | ⟨-, hs, hb, h1, h2⟩ :=
      boundary_cases event
    · simp [batchBoundaries, hs, h1, h2]
    · -- the stop goes to the end, so it must be alone behind the starts and before nothing
      have hnone : (∀ b ∈ events, isStop event = true → isBoundary b = false) ↔
          events.filterMap boundary? = [] := by
        simp [boundary?_eq_none_iff, hs]
      have hbatch : batchBoundaries (event :: events) = events.filterMap start? ++
          [.recordingStop] := by
        simp [batchBoundaries, hs, h1]
      rw [hnone, hbatch, List.filterMap_cons, h2]
      constructor
      · intro h
        have hstarts : events.filterMap start? = [] := by
          cases hst : events.filterMap start? with
          | nil => rfl
          | cons c cs =>
            rw [hst] at h
            have hc : c = .recordingStop := (List.cons.inj h).1
            exact absurd (hst ▸ List.mem_cons_self) (hc ▸ stop_notMem_starts events)
        have hnil : events.filterMap boundary? = [] := by simpa [hstarts] using h.symm
        exact ⟨hnil, (batchBoundaries_of_no_boundary (no_boundary_iff.mp hnil)).trans hnil.symm⟩
      · rintro ⟨hnil, hrest⟩
        rw [hnil, batchBoundaries, List.append_eq_nil_iff] at hrest
        simp [hnil, hrest.1]
    · simp [batchBoundaries, hs, h1, h2]

/-- Forwarding can merge stops but never adds a command. -/
theorem batchBoundaries_length_le :
    (batchBoundaries events).length ≤ (events.filterMap boundary?).length := by
  induction events with
  | nil => simp [batchBoundaries]
  | cons event events ih =>
    unfold batchBoundaries at ih ⊢
    obtain ⟨c, -, hs, -, h1, h2, -⟩ | ⟨-, hs, -, h1, h2⟩ | ⟨-, hs, -, h1, h2⟩ :=
      boundary_cases event
    · simpa [hs, h1, h2] using ih
    · simp only [List.filterMap_cons, h1, h2, List.any_cons, hs, Bool.true_or, ↓reduceIte,
        List.length_append, List.length_cons, List.length_nil] at ih ⊢
      omega
    · simpa [hs, h1, h2] using ih

end Batches

/-- Pointwise shorter pieces join to the same list only if they are the same pieces. -/
theorem flatMap_eq_iff {α β : Type} {f g : α → List β}
    (h : ∀ a, (f a).length ≤ (g a).length) (l : List α) :
    l.flatMap f = l.flatMap g ↔ ∀ a ∈ l, f a = g a := by
  have hle : ∀ l : List α, (l.flatMap f).length ≤ (l.flatMap g).length := fun l => by
    induction l with
    | nil => exact le_rfl
    | cons a l ih =>
      have := h a
      simp only [List.flatMap_cons, List.length_append]
      omega
  induction l with
  | nil => simp
  | cons a l ih =>
    rw [List.flatMap_cons, List.flatMap_cons, List.forall_mem_cons]
    constructor
    · intro he
      have hlen := congrArg List.length he
      have ha := h a
      have hl := hle l
      simp only [List.length_append] at hlen
      obtain ⟨hhead, htail⟩ := List.append_inj he (by omega)
      exact ⟨hhead, ih.mp htail⟩
    · rintro ⟨hhead, htail⟩
      rw [hhead, ih.mpr htail]

section Loop
variable {processId : String} {queueSize : ℕ} {w w' : Watched} {e : Encoder}

/-- What a poll has told the worker of its batch; `stopped` says whether it has come to the stop. -/
structure Traced (w : Watched) (stopped : Bool) : Prop where
  commands : boundaries w.encoder.commands.log = w.batches.flatMap batchBoundaries ++
    (w.drained.filterMap start? ++
      if stopped && w.drained.any isStop then [WorkerControl.recordingStop] else [])
  flag : w.encoder.recordingActive = (!(stopped && w.drained.any isStop) &&
    (w.batches.foldl batchFlag false || w.drained.any isStart))
  requestStop : w.encoder.requestStop = w.drained.any isStop
  requestShutdown : w.encoder.requestShutdown = w.drained.any isShutdown

/-- A process that has ended amid a poll owes nothing. -/
structure Watching (w : Watched) : Prop where
  begun : w.encoder.phase = .events → w.drained = []
  traced : (w.encoder.phase = .exited → w.drained = []) →
    Traced w (w.encoder.phase = .shutdown)

theorem send_cases (e : Encoder) (phase : LoopPhase) (p : Poll) :
    (e.worker.phase = .ended ∧ (p.commands ≠ [] ∨ p.queued ≠ []) ∧
        (e.send phase p).1 = { e with phase := .exited }) ∨
      (e.send phase p).1 = { e with
        phase := phase
        recordingActive := p.recordingActive
        requestStop := p.requestStop
        requestShutdown := p.requestShutdown
        commands := e.commands.publish p.commands
        frames := e.frames.publish p.queued } := by
  unfold Encoder.send
  by_cases hended : e.worker.phase = .ended ∧ (p.commands ≠ [] ∨ p.queued ≠ [])
  · rw [if_pos hended]
    exact Or.inl ⟨hended.1, hended.2, rfl⟩
  · rw [if_neg hended]
    exact Or.inr rfl

theorem boundaries_append (l m : List WorkerControl) :
    boundaries (l ++ m) = boundaries l ++ boundaries m := List.filter_append ..

theorem Watching.running (h : Watching w) {phase : LoopPhase} (hphase : w.encoder.phase = phase)
    (hne : phase ≠ .exited) : Traced w (phase = .shutdown) := by
  have htraced := h.traced fun hexited => absurd (hphase.symm.trans hexited) hne
  rw [hphase] at htraced
  exact htraced

theorem Watching.takeControl (h : Watching w) (hphase : w.encoder.phase = .controls) :
    Watching (next w (.step .takeControl)) := by
  obtain ⟨hcommands, hflag, hstop, hshutdown⟩ := h.running hphase (by decide)
  simp only [next, EncoderProcess.next, Encoder.takeControl]
  cases hpop : w.encoder.control.pop with
  | none =>
    have hnone : w.encoder.control.pending = [] := by
      by_contra hne
      obtain ⟨event, control, hsome⟩ := Queue.pop_of_pending hne
      rw [hsome] at hpop
      cases hpop
    simp only [hnone, List.head?_nil, Option.toList_none, List.append_nil]
    exact h
  | some popped =>
    obtain ⟨event, control⟩ := popped
    have hhead : w.encoder.control.pending.head? = some event := by
      rw [(Queue.pop_spec hpop).1]
      rfl
    simp only [hhead, Option.toList_some]
    obtain ⟨-, -, hsend⟩ | hsend := send_cases { w.encoder with control := control } .controls
      (w.encoder.locals.onControl event)
    · rw [hsend]
      constructor
      · intro hevents
        cases hevents
      · intro hempty
        exact absurd (hempty rfl) (by simp)
    · rw [hsend]
      constructor
      · intro hevents
        cases hevents
      · intro hgoes
        simp only [reduceCtorEq, decide_false, Bool.false_and, Bool.false_eq_true, if_false,
          List.append_nil, Bool.not_false, Bool.true_and] at hcommands hflag ⊢
        constructor
        · simp only [Queue.log_publish, boundaries_append, hcommands, List.filterMap_append,
            List.append_assoc]
          cases event <;> rfl
        · cases event <;> simp [Poll.onControl, Encoder.locals, hflag, isStart]
        · cases event <;> simp [Poll.onControl, Encoder.locals, hstop, isStop]
        · cases event <;> simp [Poll.onControl, Encoder.locals, hshutdown, isShutdown]

/-- Frames are forwarded with no start and no stop among them. -/
theorem Watching.takeFrame (h : Watching w) (hphase : w.encoder.phase = .frames)
    (frame : OwnedFrame) : Watching (next w (.step (.takeFrame frame))) := by
  obtain ⟨hcommands, hflag, hstop, hshutdown⟩ := h.running hphase (by decide)
  simp only [next, EncoderProcess.next, Encoder.takeFrame]
  obtain ⟨-, -, hsend⟩ | hsend := send_cases w.encoder .frames
    (w.encoder.locals.onFrame w.encoder.processId
      ⟨frame, w.encoder.queueSize ≤ w.encoder.frames.pending.length⟩)
  · rw [hsend]
    exact ⟨(fun h => by cases h), fun _ => ⟨hcommands, hflag, hstop, hshutdown⟩⟩
  · have hframe := onFrame_frame w.encoder.processId w.encoder.locals
      ⟨frame, w.encoder.queueSize ≤ w.encoder.frames.pending.length⟩
    obtain ⟨hactive, hkept, hasked, hquiet⟩ := hframe
    rw [hsend]
    refine ⟨(fun h => by cases h), fun _ =>
      ⟨?_, hactive.trans hflag, hkept.trans hstop, hasked.trans hshutdown⟩⟩
    rw [Queue.log_publish, boundaries_append, hcommands, hquiet]
    exact List.append_nil _

theorem Watching.forwardStop (h : Watching w) (hphase : w.encoder.phase = .stop) :
    Watching (next w (.step .forwardStop)) := by
  obtain ⟨hcommands, hflag, hstop, hshutdown⟩ := h.running hphase (by decide)
  simp only [next, EncoderProcess.next, Encoder.forwardStop]
  simp only [reduceCtorEq, decide_false, Bool.false_and, Bool.false_eq_true, if_false,
    List.append_nil, Bool.not_false, Bool.true_and] at hcommands hflag
  obtain ⟨-, hsends, hsend⟩ | hsend := send_cases w.encoder .shutdown w.encoder.locals.forwardStop
  · -- only a stop is sent here, and it was drained in this poll
    have hany : w.drained.any isStop = true := by
      by_contra hnone
      rw [Bool.not_eq_true, ← hstop] at hnone
      simp [Poll.forwardStop, Encoder.locals, hnone] at hsends
    rw [hsend]
    refine ⟨(fun h => by cases h), fun hempty => ?_⟩
    rw [show w.drained = [] from hempty rfl] at hany
    cases hany
  · rw [hsend]
    refine ⟨(fun h => by cases h), fun _ => ?_⟩
    cases hany : w.drained.any isStop with
    | false =>
      rw [hany] at hstop
      constructor <;>
        simp [Poll.forwardStop, Encoder.locals, hstop, hany, hcommands, hflag, hshutdown]
    | true =>
      rw [hany] at hstop
      have hforwarded : w.encoder.locals.forwardStop = { w.encoder.locals with
          commands := [.recordingStop]
          recordingActive := false } := if_pos hstop
      rw [hforwarded]
      constructor
      · simp only [Queue.log_publish, boundaries_append, hcommands, hany, decide_true, Bool.and_self,
          if_true, List.append_assoc]
        rfl
      · simp [hany]
      · exact hstop.trans hany.symm
      · exact hshutdown

/-- The end of a poll: its batch joins the others, unless its shutdown could not be sent. -/
theorem Watching.forwardShutdown (h : Watching w) (hphase : w.encoder.phase = .shutdown) :
    Watching (next w (.step .forwardShutdown)) := by
  obtain ⟨hcommands, hflag, hstop, hshutdown⟩ := h.running hphase (by decide)
  simp only [decide_true, Bool.true_and] at hcommands hflag
  change Watching (w.endPoll w.encoder.forwardShutdown.1)
  rw [Encoder.forwardShutdown]
  obtain ⟨-, hsends, hsend⟩ | hsend := send_cases w.encoder
    (if w.encoder.shutdownRequested then .exited else .events)
    { w.encoder.locals.forwardShutdown with requestStop := false, requestShutdown := false }
  · have hany : w.encoder.requestShutdown = true := by
      by_contra hnone
      rw [Bool.not_eq_true] at hnone
      simp [Poll.forwardShutdown, Encoder.locals, hnone] at hsends
    rw [hsend, Watched.endPoll, if_pos hany]
    refine ⟨(fun h => by cases h), fun hempty => ?_⟩
    rw [hshutdown, show w.drained = [] from hempty rfl] at hany
    cases hany
  · rw [hsend, Watched.endPoll, if_neg Bool.false_ne_true]
    have hstopped : decide ((if w.encoder.shutdownRequested then LoopPhase.exited
        else .events) = .shutdown) = false := by
      split <;> rfl
    refine ⟨fun _ => rfl, fun _ => ?_⟩
    simp only [hstopped]
    constructor
    · have hbatch : w.batches.flatMap batchBoundaries ++ batchBoundaries w.drained =
          (w.batches ++ [w.drained]).flatMap batchBoundaries := by
        rw [List.flatMap_append, List.flatMap_singleton]
      have hquiet : boundaries w.encoder.locals.forwardShutdown.commands = [] := by
        unfold Poll.forwardShutdown
        split <;> rfl
      simp only [Bool.false_and, Bool.false_eq_true, if_false, List.filterMap_nil, List.append_nil,
        Queue.log_publish, boundaries_append, hquiet, hcommands, ← hbatch, batchBoundaries]
    · rw [List.foldl_append, List.foldl_cons, List.foldl_nil, batchFlag, ← hshutdown]
      unfold Poll.forwardShutdown
      cases hrequested : w.encoder.requestShutdown <;>
        simp [Encoder.locals, hrequested, hflag]
    · rfl
    · rfl

structure Aside (e e' : Encoder) : Prop where
  phase : e'.phase = e.phase
  recordingActive : e'.recordingActive = e.recordingActive
  requestStop : e'.requestStop = e.requestStop
  requestShutdown : e'.requestShutdown = e.requestShutdown
  commands : e'.commands.log = e.commands.log

theorem Watching.aside (h : Watching w) (ha : Aside w.encoder e) :
    Watching { w with encoder := e } where
  begun := fun hevents => h.begun (ha.phase.symm.trans hevents)
  traced := fun hgoes => by
    obtain ⟨hcommands, hflag, hstop, hshutdown⟩ :=
      h.traced fun hexited => hgoes (ha.phase.trans hexited)
    simp only [ha.phase]
    exact ⟨(congrArg boundaries ha.commands).trans hcommands, ha.recordingActive.trans hflag,
      ha.requestStop.trans hstop, ha.requestShutdown.trans hshutdown⟩

theorem aside_finishSession (codec : CodecCall) (worker : Worker) (events : List WorkerEvent) :
    Aside e (e.finishSession codec worker events) := by
  unfold Encoder.finishSession
  split
  · exact ⟨rfl, rfl, rfl, rfl, rfl⟩
  · simp only
    split <;> exact ⟨rfl, rfl, rfl, rfl, rfl⟩

theorem aside_handleFrame (codec : CodecCall) : Aside e (e.handleFrame codec) := by
  unfold Encoder.handleFrame
  split
  · exact ⟨rfl, rfl, rfl, rfl, rfl⟩
  · split
    · exact ⟨rfl, rfl, rfl, rfl, rfl⟩
    · simp only
      split <;> exact ⟨rfl, rfl, rfl, rfl, rfl⟩

theorem aside_workerControl (codec : CodecCall) : Aside e (e.workerControl codec) := by
  have htaken {command : WorkerControl} {commands : Queue WorkerControl}
      (hpop : e.commands.pop = some (command, commands)) {e' : Encoder}
      (ha : Aside { e with commands := commands } e') : Aside e e' :=
    ⟨ha.phase, ha.recordingActive, ha.requestStop, ha.requestShutdown,
      ha.commands.trans (Queue.log_pop hpop)⟩
  unfold Encoder.workerControl
  split
  · exact ⟨rfl, rfl, rfl, rfl, rfl⟩
  · next hpop => exact htaken hpop (aside_finishSession codec _ _)
  · next hpop => exact htaken hpop ⟨rfl, rfl, rfl, rfl, rfl⟩
  · next hpop => exact htaken hpop ⟨rfl, rfl, rfl, rfl, rfl⟩
  · next hpop => exact htaken hpop (aside_finishSession codec _ _)

theorem aside_workerFrame (codec : CodecCall) : Aside e (e.workerFrame codec) := by
  unfold Encoder.workerFrame
  split
  · exact ⟨rfl, rfl, rfl, rfl, rfl⟩
  · next hpop =>
    obtain ⟨hphase, hactive, hstop, hshutdown, hlog⟩ := aside_handleFrame codec (e := { e with
      frames := _
      worker := _ })
    exact ⟨hphase, hactive, hstop, hshutdown, hlog⟩

theorem Watching.phase (h : Watching w) {from' phase : LoopPhase} (hfrom : w.encoder.phase = from')
    (hrunning : from' ≠ .exited ∧ from' ≠ .shutdown) (hto : phase ≠ .events ∧ phase ≠ .shutdown) :
    Watching { w with encoder := { w.encoder with phase := phase } } := by
  have htraced := h.running hfrom hrunning.1
  rw [decide_eq_false hrunning.2] at htraced
  refine ⟨fun hevents => absurd hevents hto.1, fun _ => ?_⟩
  simp only [decide_eq_false hto.2]
  exact ⟨htraced.commands, htraced.flag, htraced.requestStop, htraced.requestShutdown⟩

theorem Watching.takeEvent (h : Watching w) (hphase : w.encoder.phase = .events) :
    Watching (next w (.step .takeEvent)) := by
  simp only [next, EncoderProcess.next, Encoder.takeEvent]
  split
  · exact h
  · obtain ⟨hcommands, hflag, hstop, hshutdown⟩ := h.running hphase (by decide)
    refine ⟨(fun h => by cases h), fun _ => ⟨?_, hflag, hstop, hshutdown⟩⟩
    rw [Queue.log_publish, boundaries_append, hcommands]
    exact List.append_nil _
  · exact h.aside ⟨rfl, rfl, rfl, rfl, rfl⟩

theorem Watching.next (h : Watching w) {m : Move} (hm : Enabled w m) :
    Watching (next w m) := by
  cases m with
  | publish event => exact h.aside ⟨rfl, rfl, rfl, rfl, rfl⟩
  | step action =>
    cases action with
    | takeEvent => exact h.takeEvent hm.1
    | eventsDrained => exact h.phase hm.1 (by decide) (by decide)
    | takeControl => exact h.takeControl hm.1
    | controlsDrained => exact h.phase hm (by decide) (by decide)
    | takeFrame frame => exact h.takeFrame hm frame
    | framesDrained => exact h.phase hm (by decide) (by decide)
    | forwardStop => exact h.forwardStop hm
    | forwardShutdown => exact h.forwardShutdown hm
    | workerControl codec => exact h.aside (aside_workerControl codec)
    | workerFrame codec => exact h.aside (aside_workerFrame codec)
    | workerCheck codec =>
      refine h.aside ?_
      rw [EncoderProcess.next, Encoder.workerCheck]
      split
      · exact aside_finishSession codec _ _
      · exact ⟨rfl, rfl, rfl, rfl, rfl⟩
    | workerControlsDrained | workerFramesDrained | workerTimeout =>
      exact h.aside ⟨rfl, rfl, rfl, rfl, rfl⟩

theorem Reached.watching (h : Reached processId queueSize w) : Watching w :=
  h.invariant ⟨fun _ => rfl, fun _ => ⟨rfl, rfl, rfl, rfl⟩⟩ fun _ _ hm _ hu => hu.next hm

/-- Between two polls every start and stop of the batches has been forwarded. -/
theorem Reached.commands (h : Reached processId queueSize w) (hdone : w.drained = []) :
    boundaries w.encoder.commands.log = w.batches.flatMap batchBoundaries ∧
      w.encoder.recordingActive = w.batches.foldl batchFlag false := by
  have htraced := h.watching.traced fun _ => hdone
  have hcommands := htraced.commands
  have hflag := htraced.flag
  simp only [hdone, List.any_nil, Bool.and_false, Bool.false_eq_true, if_false, List.filterMap_nil,
    List.append_nil, Bool.not_false, Bool.true_and, Bool.or_false] at hcommands hflag
  exact ⟨hcommands, hflag⟩

end Loop

section Transparency

theorem flatten_boundaries (batches : List (List ControlEvent)) :
    batches.flatten.filterMap boundary? = batches.flatMap fun batch => batch.filterMap boundary? := by
  induction batches with
  | nil => rfl
  | cons batch batches ih =>
    rw [List.flatten_cons, List.filterMap_append, ih, List.flatMap_cons]

/-- Batches of at most one event are forwarded in order. -/
theorem orderly_of_single {batch : List ControlEvent} (h : batch.length ≤ 1) : Orderly batch := by
  match batch with
  | [] => exact List.Pairwise.nil
  | [_] => exact List.pairwise_singleton ..
  | _ :: _ :: _ => simp at h

/-- What is forwarded is what one poll for each event forwards, if and only if every batch is
orderly. -/
theorem forwarded_in_order_iff (batches : List (List ControlEvent)) :
    batches.flatMap batchBoundaries = batches.flatten.filterMap boundary? ↔
      ∀ batch ∈ batches, Orderly batch := by
  rw [flatten_boundaries, flatMap_eq_iff fun _ => batchBoundaries_length_le]
  simp only [batchBoundaries_eq_iff]

end Transparency


section Flag
variable {events : List ControlEvent}

theorem lastIsStart_append (earlier events : List ControlEvent) :
    lastIsStart (earlier ++ events) =
      if events.any isBoundary then lastIsStart events else lastIsStart earlier := by
  unfold lastIsStart
  rw [List.filter_append]
  by_cases h : events.filter isBoundary = []
  · have hany : events.any isBoundary = false := by
      simpa [List.filter_eq_nil_iff] using h
    simp [h, hany]
  · have hany : events.any isBoundary = true := by
      simpa [List.filter_eq_nil_iff] using h
    rw [List.getLast?_append_of_ne_nil _ h, if_pos hany]

/-- In an orderly batch a stop is the last boundary, so only without one a start is. -/
theorem orderly_last (h : Orderly events) (hb : events.any isBoundary = true) :
    lastIsStart events = !events.any isStop := by
  induction events with
  | nil => cases hb
  | cons event events ih =>
    obtain ⟨hfirst, hrest⟩ := List.pairwise_cons.mp h
    have hsplit := lastIsStart_append [event] events
    rw [List.singleton_append] at hsplit
    rw [hsplit]
    by_cases hany : events.any isBoundary = true
    · have hstop : isStop event = false := by
        by_contra hs
        obtain ⟨b, hbm, hbb⟩ := List.any_eq_true.mp hany
        simp [hfirst b hbm (by simpa using hs)] at hbb
      rw [if_pos hany, ih hrest hany]
      simp [hstop]
    · rw [if_neg hany]
      simp only [Bool.not_eq_true] at hany
      have hnone : events.any isStop = false := by
        simp only [List.any_eq_false, isBoundary, Bool.or_eq_true, not_or] at hany ⊢
        exact fun e he => (hany e he).2
      obtain ⟨c, hs, hp, hbd, -⟩ | ⟨hs, hp, hbd, -⟩ | ⟨-, -, hbd, -⟩ := boundary_cases event
      · simp [lastIsStart, hbd, hs, hp, hnone]
      · simp [lastIsStart, hbd, hs, hp]
      · simp [hbd, hany] at hb

theorem batchFlag_of_boundary (h : Orderly events) (hb : events.any isBoundary = true)
    (recordingActive : Bool) : batchFlag recordingActive events =
      (lastIsStart events && !events.any isShutdown) := by
  rw [orderly_last h hb, batchFlag]
  cases hs : events.any isStop with
  | true => simp
  | false =>
    have hstart : events.any isStart = true := by
      obtain ⟨e, he, hbe⟩ := List.any_eq_true.mp hb
      have hse : isStop e = false := by simpa using List.any_eq_false.mp hs e he
      exact List.any_eq_true.mpr ⟨e, he, by simpa [isBoundary, hse] using hbe⟩
    simp [hstart]

theorem batchFlag_of_no_boundary (hb : events.any isBoundary = false)
    (recordingActive : Bool) :
    batchFlag recordingActive events = (recordingActive && !events.any isShutdown) := by
  have hstart : events.any isStart = false := by
    simp only [List.any_eq_false, isBoundary, Bool.or_eq_true, not_or] at hb ⊢
    exact fun e he => (hb e he).1
  have hstop : events.any isStop = false := by
    simp only [List.any_eq_false, isBoundary, Bool.or_eq_true, not_or] at hb ⊢
    exact fun e he => (hb e he).2
  rw [batchFlag, hstart, hstop, Bool.false_or, Bool.or_false, Bool.and_comm]

theorem flag_of_orderly (batches : List (List ControlEvent))
    (h : ∀ batch ∈ batches, Orderly batch) :
    batches.foldl batchFlag false =
      (lastIsStart batches.flatten && !shutdownSinceBoundary batches.reverse) := by
  induction batches using List.reverseRecOn with
  | nil => rfl
  | append_singleton batches batch ih =>
    have ih := ih fun b hb => h b (by simp [hb])
    rw [List.foldl_append, List.foldl_cons, List.foldl_nil, ih, List.flatten_append,
      List.flatten_singleton, lastIsStart_append, List.reverse_append, List.reverse_singleton,
      List.singleton_append, shutdownSinceBoundary]
    cases hb : batch.any isBoundary with
    | true =>
      rw [batchFlag_of_boundary (h batch (by simp)) hb]
      simp
    | false =>
      rw [batchFlag_of_no_boundary hb]
      cases lastIsStart batches.flatten <;> cases batch.any isShutdown <;> simp

end Flag

section Exits
variable {processId : String} {queueSize : ℕ} {w : Watched} {e : Encoder}

def Succeeds : Move → Prop
  | .step (.workerControl codec) | .step (.workerFrame codec) | .step (.workerCheck codec) =>
    codec.opens = true ∧ codec.succeeds = true
  | _ => True

/-- What the loop, its worker and the channels between them owe to a shutdown. -/
structure Told (e : Encoder) (taken : List ControlEvent) : Prop where
  sent : .shutdown ∈ e.commands.log → .shutdown ∈ taken
  requested : e.requestShutdown = true → .shutdown ∈ taken
  ended : e.worker.phase = .ended → .shutdown ∈ e.commands.log
  events : ∀ event ∈ e.events.pending, event = .shutdownComplete
  exited : e.phase = .exited → .shutdown ∈ e.commands.log
  stopping : e.shutdownRequested = true ∨ e.events.pending ≠ [] → .shutdown ∈ e.commands.log

theorem Told.send {taken taken' : List ControlEvent} (h : Told e taken) (htaken : taken ⊆ taken')
    {phase : LoopPhase} {p : Poll} (hp : .shutdown ∈ p.commands → .shutdown ∈ taken')
    (hr : p.requestShutdown = true → .shutdown ∈ taken')
    (hphase : phase = .exited → e.shutdownRequested = true) :
    Told (e.send phase p).1 taken' := by
  have hlog : ∀ new, .shutdown ∈ e.commands.log → .shutdown ∈ (e.commands.publish new).log :=
    fun new hm => by rw [Queue.log_publish]; exact List.mem_append_left _ hm
  obtain ⟨hended, -, hsend⟩ | hsend := send_cases e phase p
  · rw [hsend]
    exact ⟨fun hm => htaken (h.sent hm), fun hq => htaken (h.requested hq), h.ended, h.events,
      fun _ => h.ended hended, h.stopping⟩
  · rw [hsend]
    refine ⟨fun hm => ?_, hr, fun hq => hlog _ (h.ended hq), h.events,
      fun hexited => hlog _ (h.stopping (Or.inl (hphase hexited))), fun hq => hlog _ (h.stopping hq)⟩
    rw [Queue.log_publish] at hm
    exact (List.mem_append.mp hm).elim (fun hm => htaken (h.sent hm)) hp

/-- A step of the worker: it ends, and says that it is done, only on a shutdown that it was sent. -/
theorem Told.worker {taken : List ControlEvent} (h : Told e taken) {e' : Encoder} (ha : Aside e e')
    (hrequested : e'.shutdownRequested = e.shutdownRequested)
    (hended : e'.worker.phase = .ended → e.worker.phase = .ended ∨ .shutdown ∈ e.commands.log)
    (hevents : e'.events = e.events ∨
      e'.events = e.events.publish [.shutdownComplete] ∧ .shutdown ∈ e.commands.log) :
    Told e' taken where
  sent := by
    rw [ha.commands]
    exact h.sent
  requested := by
    rw [ha.requestShutdown]
    exact h.requested
  ended := fun hq => by
    rw [ha.commands]
    exact (hended hq).elim h.ended id
  events := fun event hm => by
    rcases hevents with hsame | ⟨hsaid, -⟩
    · rw [hsame] at hm
      exact h.events event hm
    · rw [hsaid, Queue.pending_publish] at hm
      rcases List.mem_append.mp hm with hm | hm
      · exact h.events event hm
      · exact List.mem_singleton.mp hm
  exited := fun hq => by
    rw [ha.commands]
    exact h.exited (ha.phase.symm.trans hq)
  stopping := fun hq => by
    rw [ha.commands]
    rw [hrequested] at hq
    rcases hevents with hsame | ⟨-, hsent⟩
    · rw [hsame] at hq
      exact h.stopping hq
    · exact hsent

theorem finishSession_told {codec : CodecCall} (hcodec : codec.succeeds = true) (worker : Worker)
    (events : List WorkerEvent) :
    (e.finishSession codec worker events).worker = worker ∧
      (e.finishSession codec worker events).events = e.events.publish events ∧
      (e.finishSession codec worker events).shutdownRequested = e.shutdownRequested := by
  unfold Encoder.finishSession
  split
  · exact ⟨rfl, rfl, rfl⟩
  · simp [hcodec]

theorem handleFrame_told {codec : CodecCall} (hcodec : codec.opens = true ∧ codec.succeeds = true) :
    (e.handleFrame codec).worker.phase = e.worker.phase ∧
      (e.handleFrame codec).events = e.events ∧
      (e.handleFrame codec).shutdownRequested = e.shutdownRequested := by
  unfold Encoder.handleFrame
  split
  · exact ⟨rfl, rfl, rfl⟩
  · simp [hcodec.1, hcodec.2]

theorem Told.workerControl {taken : List ControlEvent} (h : Told e taken) {codec : CodecCall}
    (hcodec : codec.succeeds = true) : Told (e.workerControl codec) taken := by
  have ha := aside_workerControl codec (e := e)
  unfold Encoder.workerControl at ha ⊢
  split
  · exact h
  · next hpop =>
    simp only [hpop] at ha
    obtain ⟨hworker, hevents, hrequested⟩ := finishSession_told hcodec _ _
    rw [Queue.publish_nil] at hevents
    refine h.worker ha hrequested (fun hq => ?_) (Or.inl hevents)
    rw [hworker] at hq
    cases hq
  · next hpop =>
    simp only [hpop] at ha
    exact h.worker ha rfl Or.inl (Or.inl rfl)
  · next hpop =>
    simp only [hpop] at ha
    exact h.worker ha rfl Or.inl (Or.inl rfl)
  · next hpop =>
    simp only [hpop] at ha
    obtain ⟨-, hevents, hrequested⟩ := finishSession_told hcodec _ _
    exact h.worker ha hrequested (fun _ => Or.inr (Queue.mem_log_of_pop hpop))
      (Or.inr ⟨hevents, Queue.mem_log_of_pop hpop⟩)

theorem Told.workerFrame {taken : List ControlEvent} (h : Told e taken) {codec : CodecCall}
    (hcodec : codec.opens = true ∧ codec.succeeds = true) : Told (e.workerFrame codec) taken := by
  have ha := aside_workerFrame codec (e := e)
  unfold Encoder.workerFrame at ha ⊢
  split
  · exact h
  · next hpop =>
    simp only [hpop] at ha
    obtain ⟨hworker, hevents, hrequested⟩ := handleFrame_told hcodec
    refine h.worker ha hrequested (fun hq => ?_) (Or.inl hevents)
    rw [hworker] at hq
    dsimp only at hq
    split at hq <;> cases hq

theorem Told.workerCheck {taken : List ControlEvent} (h : Told e taken) {codec : CodecCall}
    (hcodec : codec.succeeds = true) : Told (e.workerCheck codec) taken := by
  unfold Encoder.workerCheck
  split
  · obtain ⟨hworker, hevents, hrequested⟩ := finishSession_told hcodec _ _
    rw [Queue.publish_nil] at hevents
    refine h.worker (aside_finishSession codec _ _) hrequested (fun hq => ?_) (Or.inl hevents)
    rw [hworker] at hq
    cases hq
  · exact h.worker ⟨rfl, rfl, rfl, rfl, rfl⟩ rfl (fun h => by cases h) (Or.inl rfl)

theorem Told.takeEvent {taken : List ControlEvent} (h : Told e taken) :
    Told e.takeEvent taken := by
  unfold Encoder.takeEvent
  split
  · exact h
  · next hpop =>
    cases h.events _ (by rw [(Queue.pop_spec hpop).1]; exact List.mem_cons_self)
  · next hpop =>
    have hsome := (Queue.pop_spec hpop).1
    have hsent := h.stopping (Or.inr (by rw [hsome]; exact fun h => by cases h))
    refine ⟨h.sent, h.requested, h.ended, fun event hm => ?_, h.exited, fun _ => hsent⟩
    exact h.events event (by rw [hsome]; exact List.mem_cons_of_mem _ hm)

def Watched.taken (w : Watched) : List ControlEvent := w.batches.flatten ++ w.drained

theorem Told.takeControl (h : Told w.encoder w.taken) :
    Told (next w (.step .takeControl)).encoder (next w (.step .takeControl)).taken := by
  simp only [next, EncoderProcess.next, Encoder.takeControl, Watched.taken]
  cases hpop : w.encoder.control.pop with
  | none =>
    refine ⟨fun hm => ?_, fun hm => ?_, h.ended, h.events, h.exited, h.stopping⟩
    · rw [← List.append_assoc]
      exact List.mem_append_left _ (h.sent hm)
    · rw [← List.append_assoc]
      exact List.mem_append_left _ (h.requested hm)
  | some popped =>
    obtain ⟨event, control⟩ := popped
    have hhead : w.encoder.control.pending.head? = some event := by
      rw [(Queue.pop_spec hpop).1]
      rfl
    have hcontrol : Told { w.encoder with control := control } w.taken :=
      ⟨h.sent, h.requested, h.ended, h.events, h.exited, h.stopping⟩
    rw [hhead, Option.toList_some, ← List.append_assoc]
    refine hcontrol.send (List.subset_append_left ..) (fun hm => ?_) (fun hm => ?_)
      (fun h => by cases h)
    · cases event <;> simp [Poll.onControl, Encoder.locals] at hm
    · cases event with
      | shutdown => exact List.mem_append_right _ List.mem_cons_self
      | _ => exact List.mem_append_left _ (h.requested hm)

theorem Told.next (h : Told w.encoder w.taken) {m : Move} (hm : Enabled w m) (hok : Succeeds m) :
    Told (next w m).encoder (next w m).taken := by
  cases m with
  | publish event =>
    exact ⟨h.sent, h.requested, h.ended, h.events, h.exited, h.stopping⟩
  | step action =>
    cases action with
    | takeEvent => exact h.takeEvent
    | eventsDrained | controlsDrained | framesDrained =>
      exact ⟨h.sent, h.requested, h.ended, h.events, (fun h => by cases h), h.stopping⟩
    | takeControl => exact h.takeControl
    | takeFrame frame =>
      refine h.send (List.Subset.refl _) (fun hs => ?_) (fun hs => ?_) (fun h => by cases h)
      · unfold Poll.onFrame at hs
        split at hs
        · cases hs
        · split at hs <;> simp [Encoder.locals] at hs
      · rw [(onFrame_frame _ _ _).2.2.1] at hs
        exact h.requested hs
    | forwardStop =>
      refine h.send (List.Subset.refl _) (fun hs => ?_) (fun hs => ?_) (fun h => by cases h)
      · unfold Poll.forwardStop at hs
        split at hs <;> simp [Encoder.locals] at hs
      · unfold Poll.forwardStop at hs
        split at hs <;> exact h.requested hs
    | forwardShutdown =>
      have htaken : (w.endPoll w.encoder.forwardShutdown.1).taken = w.taken := by
        unfold Watched.endPoll Watched.taken
        split
        · rfl
        · simp
      change Told (w.endPoll w.encoder.forwardShutdown.1).encoder _
      rw [show (w.endPoll w.encoder.forwardShutdown.1).encoder = w.encoder.forwardShutdown.1 by
        unfold Watched.endPoll; split <;> rfl]
      rw [show (EncoderBatching.next w (.step .forwardShutdown)).taken = w.taken from htaken]
      refine h.send (List.Subset.refl _) (fun hs => ?_) (fun h => by cases h) (fun hp => ?_)
      · unfold Poll.forwardShutdown at hs
        split at hs
        · next hr => exact h.requested hr
        · cases hs
      · by_contra hne
        rw [if_neg hne] at hp
        cases hp
    | workerControl codec => exact h.workerControl hok.2
    | workerFrame codec => exact h.workerFrame hok
    | workerCheck codec => exact h.workerCheck hok.2
    | workerControlsDrained | workerTimeout =>
      exact h.worker ⟨rfl, rfl, rfl, rfl, rfl⟩ rfl (fun h => by cases h) (Or.inl rfl)
    | workerFramesDrained =>
      refine h.worker ⟨rfl, rfl, rfl, rfl, rfl⟩ rfl (fun hq => ?_) (Or.inl rfl)
      change (if w.encoder.worker.processedAnyFrame then WorkerPhase.check else .wait) = .ended at hq
      split at hq <;> cases hq

/-- As long as the codec does not fail, the process ends only behind a shutdown. -/
theorem ends_behind_shutdown
    (h : Path Enabled next (fun _ => Succeeds) (started processId queueSize) w)
    (hexited : w.encoder.phase = .exited) : .shutdown ∈ w.taken := by
  have htold : Told w.encoder w.taken :=
    h.invariant (P := fun w => Told w.encoder w.taken)
      ⟨by simp [started, Queue.log], by simp [started], by simp [started], by simp [started],
        by simp [started], by simp [started]⟩ fun _ _ hm hok hu => hu.next hm hok
  exact htold.sent (htold.exited hexited)

end Exits

/-- In every run of the encoder's process, whatever its worker does and wherever it stands between two
polls: batches in which nothing follows a stop have been forwarded as one poll for each event would
forward them, and the flag tells whether a recording was started last and no shutdown came with it
or later. -/
theorem orderly_polls_transparent {processId : String} {queueSize : ℕ} {w single : Watched}
    (hw : Reached processId queueSize w) (hsingle : Reached processId queueSize single)
    (hdone : w.drained = []) (hdone' : single.drained = [])
    (hpolls : ∀ batch ∈ single.batches, batch.length ≤ 1)
    (hsame : single.batches.flatten = w.batches.flatten)
    (horderly : ∀ batch ∈ w.batches, Orderly batch) :
    boundaries w.encoder.commands.log = boundaries single.encoder.commands.log ∧
      w.encoder.recordingActive =
        (lastIsStart w.batches.flatten && !shutdownSinceBoundary w.batches.reverse) := by
  obtain ⟨hcommands, hflag⟩ := hw.commands hdone
  obtain ⟨hcommands', -⟩ := hsingle.commands hdone'
  constructor
  · rw [hcommands, hcommands', (forwarded_in_order_iff _).mpr horderly, ← hsame]
    exact ((forwarded_in_order_iff _).mpr fun batch hb => orderly_of_single (hpolls batch hb)).symm
  · rw [hflag, flag_of_orderly _ horderly]

/-- Moves for one poll that finds these events; its worker takes what it is told. -/
def pollMoves (events : List ControlEvent) : List Move :=
  events.map .publish ++ [.step .eventsDrained] ++ events.map (fun _ => .step .takeControl) ++
    [.step .controlsDrained, .step .framesDrained, .step .forwardStop, .step .forwardShutdown]

def runPolls (batches : List (List ControlEvent)) : Watched :=
  (batches.flatMap pollMoves).foldl next (started "encoder" 4)

theorem reached_runPolls (batches : List (List ControlEvent))
    (h : Follows Enabled next (fun _ _ => True) (started "encoder" 4)
      (batches.flatMap pollMoves)) : Reached "encoder" 4 (runPolls batches) :=
  path_of_follows h

/-- Two recordings, the stop of the first ahead of everything else in its batch but a start. -/
def sampleBatches : List (List ControlEvent) :=
  [[.recordingStart 0 10, .recordingStop 0 20], [.episodeKeep 0], [.recordingStart 1 30]]

theorem sample_polls_transparent :
    boundaries (runPolls sampleBatches).encoder.commands.log =
        [.recordingStart 0 10, .recordingStop, .recordingStart 1 30] ∧
      (runPolls sampleBatches).encoder.recordingActive = true := by
  have h := orderly_polls_transparent (reached_runPolls sampleBatches (by decide))
    (reached_runPolls (sampleBatches.flatten.map ([·])) (by decide)) (by decide) (by decide)
    (by decide) (by decide) (by decide)
  exact ⟨h.1.trans (by decide), h.2.trans (by decide)⟩

/-- A shutdown ends the recording although the last boundary event is a start. -/
theorem shutdown_clears_flag : ¬ ∀ processId queueSize w single,
    Reached processId queueSize w → Reached processId queueSize single →
    w.drained = [] → single.drained = [] → (∀ batch ∈ single.batches, batch.length ≤ 1) →
    single.batches.flatten = w.batches.flatten →
    boundaries w.encoder.commands.log = boundaries single.encoder.commands.log ∧
      (w.encoder.recordingActive = true ↔ lastIsStart w.batches.flatten = true) := by
  intro hall
  have hreached : Reached "encoder" 4 (runPolls [[.recordingStart 0 10], [.shutdown]]) :=
    reached_runPolls _ (by decide)
  have h := hall _ _ _ _ hreached hreached (by decide) (by decide) (by decide) rfl
  exact absurd (h.2.mpr (by decide)) (by decide)

end EncoderBatching
