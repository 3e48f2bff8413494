import Rollio.EncoderForwarding
import Rollio.PartialRuns

/-! How a recording encoder closes the stream of a stopped episode. Beside the process, a run
records for which episode each frame was queued and which session it was given to. -/
namespace EpisodeClosing
open BusMessages RecordingEncoder Queues EncoderProcess ControlEvents EncoderStreams
open EncoderForwarding PartialRuns

structure Observed where
  encoder : Encoder
  queuedFor : List (Option UInt32) := []
  encodedIn : List (Option UInt32) := []

inductive Action where
  | publish (event : ControlEvent)
  | step (a : EncoderAction)

def Enabled (o : Observed) : Action → Prop
  | .publish _ => True
  | .step a => EncoderProcess.Enabled o.encoder a

instance (o : Observed) (a : Action) : Decidable (Enabled o a) := by
  cases a <;> simp only [Enabled] <;> infer_instance

/-- A step queues its frames for the episode the worker was told of last. -/
def queued (e : Encoder) (a : EncoderAction) : List (Option UInt32) :=
  ((EncoderProcess.next e a).1.frames.log.drop e.frames.log.length).map fun _ =>
    (commandStarts e.commands.log).getLast?

def encoded (e : Encoder) : EncoderAction → List (Option UInt32)
  | .workerFrame _ =>
    if e.frames.pending.isEmpty then [] else [(Encoder.frameSession e.worker).map (·.episodeIndex)]
  | _ => []

def next (o : Observed) : Action → Observed
  | .publish event => { o with encoder := { o.encoder with
      control := o.encoder.control.publish [event] } }
  | .step a =>
    { encoder := (EncoderProcess.next o.encoder a).1
      queuedFor := o.queuedFor ++ queued o.encoder a
      encodedIn := o.encodedIn ++ encoded o.encoder a }

def Observed.waiting (o : Observed) : List (Option UInt32) :=
  o.queuedFor.drop o.encoder.frames.received.length

def eosCount (i : UInt32) (packets : List Packet) : ℕ :=
  packets.countP fun q => q.1.kind = .endOfStream ∧ q.1.episodeIndex = i

def endsEpisode : WorkerControl → Bool
  | .recordingStart _ _ | .shutdown => true
  | .recordingStop | .droppedFrame => false

/-- The pending episode has a session. -/
def HasFrame (w : Worker) : Prop := w.pendingEpisode.isSome = true → w.activeSession.isSome = true

instance (w : Worker) : Decidable (HasFrame w) := inferInstanceAs (Decidable (_ → _))

/-- No codec call fails; an episode has had a frame when it ends, and has none waiting; and no
frame is taken ahead of the start it was queued behind. -/
def WorksOff (o : Observed) : EncoderAction → Prop
  | .workerControl codec => codec.succeeds = true ∧
      ∀ c ∈ o.encoder.commands.pending.head?, endsEpisode c = true →
        HasFrame o.encoder.worker ∧
        ∀ p ∈ o.encoder.worker.pendingEpisode, some p.episodeIndex ∉ o.waiting
  | .workerFrame codec => codec.opens = true ∧ codec.succeeds = true ∧
      ∀ q ∈ o.waiting.head?, ∀ i ∈ q, i ∉ commandStarts o.encoder.commands.pending
  | .workerCheck codec => codec.succeeds = true ∧
      (o.encoder.worker.stopAfterDrain = true → o.encoder.worker.processedAnyFrame = false →
        HasFrame o.encoder.worker)
  | _ => True

instance (o : Observed) : (a : EncoderAction) → Decidable (WorksOff o a)
  | .workerControl _ => inferInstanceAs (Decidable (_ ∧ _))
  | .workerFrame _ =>
    -- bounded quantifiers over an option, not over all indices
    have : DecidablePred fun q : Option UInt32 =>
        ∀ i ∈ q, i ∉ commandStarts o.encoder.commands.pending :=
      fun q => Option.decidableForallMem q
    have : Decidable (∀ q ∈ o.waiting.head?, ∀ i ∈ q,
        i ∉ commandStarts o.encoder.commands.pending) := Option.decidableForallMem _
    inferInstanceAs (Decidable (_ ∧ _ ∧ _))
  | .workerCheck _ => inferInstanceAs (Decidable (_ ∧ _))
  | .takeEvent | .eventsDrained | .takeControl | .controlsDrained | .takeFrame _ | .framesDrained
  | .forwardStop | .forwardShutdown | .workerControlsDrained | .workerFramesDrained
  | .workerTimeout => isTrue trivial

/-- Each recording has its own index, nothing follows a shutdown, no iteration takes a start
behind a stop, and the worker works off one episode before it is told to begin the next. -/
def Orderly (o : Observed) : Action → Prop
  | .publish event => .shutdown ∉ o.encoder.control.log ∧
      ∀ i ∈ startIndex? event, i ∉ startIndices o.encoder.control.log
  | .step a => StartsAhead o.encoder a ∧ WorksOff o a

instance (o : Observed) (a : Action) : Decidable (Orderly o a) := by
  cases a with
  | publish event =>
    have hnew : Decidable (∀ i ∈ startIndex? event, i ∉ startIndices o.encoder.control.log) :=
      Option.decidableForallMem _
    exact inferInstanceAs (Decidable (_ ∧ _))
  | step a => exact inferInstanceAs (Decidable (_ ∧ _))

/-- The main loop is between two iterations and the worker has nothing left to do. -/
structure Quiescent (e : Encoder) : Prop where
  control : e.control.pending = []
  phase : e.phase = .events ∨ e.phase = .exited
  commands : e.commands.pending = []
  worker : e.worker.stopAfterDrain = false

/-- One end of stream closes episode `i`, nothing of it follows, and the frames queued for it
are those given to its session. -/
structure ClosedOnce (o : Observed) (i : UInt32) : Prop where
  eos : eosCount i o.encoder.packets.log = 1
  ordered : o.encoder.packets.log.Pairwise Closes
  frames : ∀ k : ℕ, o.queuedFor[k]? = some (some i) ↔ o.encodedIn[k]? = some (some i)

section Packets
variable {i : UInt32}

@[simp] theorem eosCount_append (i : UInt32) (l m : List Packet) :
    eosCount i (l ++ m) = eosCount i l + eosCount i m := List.countP_append

theorem eosCount_drain (s : EncoderSession) (outputs : List Packet) :
    eosCount i (s.drainPackets outputs).1 = 0 := by
  apply List.countP_eq_zero.mpr
  intro q hq
  simp [(drainPackets_stamped s outputs q hq).1]

theorem eosCount_finish (s : EncoderSession) {codec : CodecCall} (hs : codec.succeeds = true) :
    eosCount i (s.finish codec) = if s.episodeIndex = i then 1 else 0 := by
  have hi := drainPackets_session s codec.outputs
  unfold EncoderSession.finish
  simp only [hs, ↓reduceIte, eosCount_append, eosCount_drain]
  simp only [eosCount, EncoderSession.stamp, List.countP_cons, List.countP_nil, hi, true_and,
    Nat.zero_add, decide_eq_true_eq]

end Packets

def closing (w : Worker) (codec : CodecCall) : List Packet :=
  match w.activeSession with
  | none => []
  | some session => session.finish codec

theorem finishSession_ok (e : Encoder) {codec : CodecCall} (hs : codec.succeeds = true)
    (w : Worker) (events : List WorkerEvent) : e.finishSession codec w events = { e with
      packets := e.packets.publish (closing e.worker codec)
      worker := w
      events := e.events.publish events } := by
  unfold Encoder.finishSession closing
  cases e.worker.activeSession with
  | none => simp
  | some session => simp [hs]

def pendingIndex (w : Worker) : Option UInt32 := w.pendingEpisode.map (·.episodeIndex)

structure Serves (e : Encoder) : Prop where
  opened : ∀ i, openEpisode e.commands.received = some i →
    pendingIndex e.worker = some i ∧ e.worker.stopAfterDrain = false
  stopping : openEpisode e.commands.received = none →
    e.worker.pendingEpisode = none ∨ e.worker.stopAfterDrain = true
  closed : ∀ i ∈ commandStarts e.commands.received, pendingIndex e.worker ≠ some i →
    eosCount i e.packets.log = 1

section Worker
variable {e : Encoder} {starts : List UInt32} {log : List Packet} {w : Worker}

theorem pending_unclosed (h : Records starts w log) {i : UInt32} (hi : pendingIndex w = some i) :
    eosCount i log = 0 := by
  obtain ⟨p, hp, rfl⟩ := Option.map_eq_some_iff.mp hi
  apply List.countP_eq_zero.mpr
  intro q hq
  simp only [decide_eq_true_eq, not_and]
  exact h.unclosed p hp q hq

theorem eosCount_closing (h : Records starts w log) (hf : HasFrame w) {codec : CodecCall}
    (hs : codec.succeeds = true) (i : UInt32) :
    eosCount i (closing w codec) = if pendingIndex w = some i then 1 else 0 := by
  unfold closing
  cases ha : w.activeSession with
  | none =>
    have hp : w.pendingEpisode = none := by
      by_contra hp
      have hsome := hf (Option.isSome_iff_ne_none.mpr hp)
      rw [ha] at hsome
      cases hsome
    simp [pendingIndex, hp, eosCount]
  | some session =>
    obtain ⟨p, hp, hi⟩ := h.active session ha
    have hpi : pendingIndex w = some session.episodeIndex := by
      rw [← hi, pendingIndex, Option.mem_def.mp hp]
      rfl
    simp [eosCount_finish session hs, hpi]

/-- Once the session is finished, every episode the worker has been told of is closed. -/
theorem Serves.close (h : Serves e) (hr : Records (commandStarts e.commands.received) e.worker
    e.packets.log) (hf : HasFrame e.worker) {codec : CodecCall} (hs : codec.succeeds = true) :
    ∀ i ∈ commandStarts e.commands.received,
      eosCount i (e.packets.publish (closing e.worker codec)).log = 1 := by
  intro i hi
  rw [Queue.log_publish, eosCount_append, eosCount_closing hr hf hs]
  by_cases hp : pendingIndex e.worker = some i
  · rw [if_pos hp, pending_unclosed hr hp]
  · rw [if_neg hp, h.closed i hi hp]

theorem handleFrame_ok {codec : CodecCall} (ho : codec.opens = true) (hs : codec.succeeds = true)
    {session : EncoderSession} (hf : Encoder.frameSession e.worker = some session) :
    e.handleFrame codec = { e with
      packets := e.packets.publish (session.drainPackets codec.outputs).1
      worker := { e.worker with activeSession := some (session.drainPackets codec.outputs).2 } } := by
  unfold Encoder.handleFrame
  rw [hf]
  simp [ho, hs]

theorem frameSession_of_pending (h : Records starts w log) {i : UInt32}
    (hi : pendingIndex w = some i) :
    ∃ session, Encoder.frameSession w = some session ∧ session.episodeIndex = i := by
  obtain ⟨p, hp, rfl⟩ := Option.map_eq_some_iff.mp hi
  have hsome : ∃ session, Encoder.frameSession w = some session := by
    rw [Encoder.frameSession, hp]
    cases w.activeSession <;> simp
  obtain ⟨session, hsession⟩ := hsome
  obtain ⟨p', hp', he⟩ := frameSession_pending h hsession
  rw [hp] at hp'
  cases hp'
  exact ⟨session, hsession, he⟩

end Worker

structure Feeds (o : Observed) : Prop where
  length : o.queuedFor.length = o.encoder.frames.log.length
  encoded : o.encodedIn = o.queuedFor.take o.encoder.frames.received.length
  waiting : ∀ q ∈ o.waiting, ∃ i, q = some i ∧
    (i ∈ commandStarts o.encoder.commands.pending ∨ pendingIndex o.encoder.worker = some i)
  /-- A worker about to stop has drained the frames of its episode. -/
  drained : o.encoder.worker.stopAfterDrain = true → o.encoder.worker.phase = .check →
    o.encoder.worker.processedAnyFrame = false →
      ∀ p ∈ o.encoder.worker.pendingEpisode, some p.episodeIndex ∉ o.waiting

structure Invariant (o : Observed) : Prop where
  nodup : (startIndices o.encoder.control.log).Nodup
  streams : Streams o.encoder
  forwards : Forwards o.encoder
  serves : Serves o.encoder
  feeds : Feeds o

def start (processId : String) (queueSize : ℕ) : Observed :=
  ⟨{ processId := processId, queueSize := queueSize }, [], []⟩

theorem initial_invariant (processId : String) (queueSize : ℕ) :
    Invariant (start processId queueSize) where
  nodup := by simp [start, Queue.log]
  streams := initial_streams processId queueSize
  forwards := initial_forwards processId queueSize
  serves := by constructor <;> simp [start, openEpisode, commandStarts]
  feeds := by constructor <;> simp [start, Queue.log, Observed.waiting]

section Steps
variable {o : Observed} {e' : Encoder} {queuedFor encodedIn : List (Option UInt32)}

theorem send_queued (e : Encoder) (phase : LoopPhase) {p : Poll} (hp : p.queued = []) :
    (e.send phase p).1.frames = e.frames := by
  unfold Encoder.send
  split
  · rfl
  · simp [hp]

theorem send_worker (e : Encoder) (phase : LoopPhase) (p : Poll) :
    (e.send phase p).1.worker = e.worker := by
  unfold Encoder.send
  split <;> rfl

theorem send_received (e : Encoder) (phase : LoopPhase) (p : Poll) :
    (e.send phase p).1.commands.received = e.commands.received ∧
      ∃ new, (e.send phase p).1.commands = e.commands.publish new := by
  unfold Encoder.send
  split
  · exact ⟨rfl, [], (Queue.publish_nil _).symm⟩
  · exact ⟨rfl, p.commands, rfl⟩

theorem Serves.of_main {e : Encoder} (h : Serves e)
    (hc : e'.commands.received = e.commands.received) (hw : e'.worker = e.worker)
    (hp : e'.packets = e.packets) : Serves e' := by
  constructor
  · rw [hc, hw]; exact h.opened
  · rw [hc, hw]; exact h.stopping
  · rw [hc, hw, hp]; exact h.closed

theorem Feeds.of_frames (h : Feeds o) (hf : e'.frames = o.encoder.frames)
    (hw : ∀ i, some i ∈ o.waiting →
      i ∈ commandStarts o.encoder.commands.pending ∨ pendingIndex o.encoder.worker = some i →
      i ∈ commandStarts e'.commands.pending ∨ pendingIndex e'.worker = some i)
    (hd : e'.worker.stopAfterDrain = true → e'.worker.phase = .check →
      e'.worker.processedAnyFrame = false →
        ∀ p ∈ e'.worker.pendingEpisode, some p.episodeIndex ∉ o.waiting) :
    Feeds ⟨e', o.queuedFor, o.encodedIn⟩ := by
  have hwait : Observed.waiting ⟨e', o.queuedFor, o.encodedIn⟩ = o.waiting := by
    simp [Observed.waiting, hf]
  constructor
  · rw [hf]; exact h.length
  · rw [hf]; exact h.encoded
  · rw [hwait]
    intro q hq
    obtain ⟨i, rfl, hi⟩ := h.waiting q hq
    exact ⟨i, rfl, hw i hq hi⟩
  · rw [hwait]
    exact hd

theorem Feeds.of_main (h : Feeds o) (hf : e'.frames = o.encoder.frames)
    (hw : e'.worker = o.encoder.worker)
    (hc : ∃ new, e'.commands = o.encoder.commands.publish new) :
    Feeds ⟨e', o.queuedFor, o.encodedIn⟩ := by
  obtain ⟨new, hc⟩ := hc
  apply h.of_frames hf
  · intro i _ hi
    rw [hw, hc, Queue.pending_publish, commandStarts_append]
    exact hi.imp_left (List.mem_append_left _)
  · rw [hw]
    exact h.drained

theorem queued_nil {e : Encoder} {a : EncoderAction}
    (h : (EncoderProcess.next e a).1.frames.log = e.frames.log) : queued e a = [] := by
  simp [queued, h]

/-- A step of the main loop that queues no frame keeps the invariant. -/
theorem Invariant.of_main (h : Invariant o) {a : EncoderAction}
    (hframes : (EncoderProcess.next o.encoder a).1.frames = o.encoder.frames)
    (hworker : (EncoderProcess.next o.encoder a).1.worker = o.encoder.worker)
    (hcommands : (EncoderProcess.next o.encoder a).1.commands.received =
        o.encoder.commands.received ∧
      ∃ new, (EncoderProcess.next o.encoder a).1.commands = o.encoder.commands.publish new)
    (hpackets : (EncoderProcess.next o.encoder a).1.packets = o.encoder.packets)
    (hencoded : encoded o.encoder a = [])
    (hf : Forwards (EncoderProcess.next o.encoder a).1) : Invariant (next o (.step a)) := by
  rw [next, queued_nil (congrArg Queue.log hframes), hencoded, List.append_nil, List.append_nil]
  constructor
  · simp only [next_control_log]
    exact h.nodup
  · exact next_preserves_streams h.streams h.nodup a
  · exact hf
  · exact h.serves.of_main hcommands.1 hworker hpackets
  · exact h.feeds.of_main hframes hworker hcommands.2

theorem takeEvent_same (e : Encoder) : e.takeEvent.frames = e.frames ∧
    e.takeEvent.worker = e.worker ∧ e.takeEvent.packets = e.packets ∧
    e.takeEvent.commands.received = e.commands.received ∧
    ∃ new, e.takeEvent.commands = e.commands.publish new := by
  unfold Encoder.takeEvent
  split
  · exact ⟨rfl, rfl, rfl, rfl, [], (Queue.publish_nil _).symm⟩
  · exact ⟨rfl, rfl, rfl, rfl, [.shutdown], rfl⟩
  · exact ⟨rfl, rfl, rfl, rfl, [], (Queue.publish_nil _).symm⟩

theorem takeControl_same (e : Encoder) : e.takeControl.1.frames = e.frames ∧
    e.takeControl.1.worker = e.worker ∧ e.takeControl.1.packets = e.packets ∧
    e.takeControl.1.commands.received = e.commands.received ∧
    ∃ new, e.takeControl.1.commands = e.commands.publish new := by
  unfold Encoder.takeControl
  split
  · exact ⟨rfl, rfl, rfl, rfl, [], (Queue.publish_nil _).symm⟩
  · next event control hpop =>
    have hq : (e.locals.onControl event).queued = [] := by cases event <;> rfl
    exact ⟨send_queued _ _ hq, send_worker _ _ _, send_packets _ _ _, send_received _ _ _⟩

theorem forwardStop_queued (e : Encoder) : e.locals.forwardStop.queued = [] := by
  unfold Poll.forwardStop
  split <;> rfl

theorem forwardShutdown_queued (e : Encoder) : e.locals.forwardShutdown.queued = [] := by
  unfold Poll.forwardShutdown
  split <;> rfl

/-- A frame is queued for the episode the commands leave open, which the worker has pending or
has still to be told of. -/
theorem last_started (h : Forwards o.encoder) (hs : Serves o.encoder)
    (hactive : o.encoder.recordingActive = true) :
    ∃ i, (commandStarts o.encoder.commands.log).getLast? = some i ∧
      (i ∈ commandStarts o.encoder.commands.pending ∨
        openEpisode o.encoder.commands.received = some i ∧
          pendingIndex o.encoder.worker = some i) := by
  obtain ⟨i, hi⟩ := Option.isSome_iff_exists.mp (h.active hactive)
  refine ⟨i, ?_, ?_⟩
  · have ho := h.opened
    rw [hi, hactive, if_pos rfl] at ho
    rw [h.starts]
    exact ho.symm
  · rcases openEpisode_append hi with hp | hr
    · exact Or.inl hp
    · exact Or.inr ⟨hr, (hs.opened i hr).1⟩

/-- The worker is told of an episode once. -/
theorem Invariant.started_once (h : Invariant o) {i : UInt32}
    (hr : i ∈ commandStarts o.encoder.commands.received) :
    i ∉ commandStarts o.encoder.commands.pending := by
  intro hp
  have hn : (commandStarts o.encoder.commands.log).Nodup := by
    rw [h.forwards.starts]
    exact ((List.sublist_append_left _ _).filterMap _).nodup h.nodup
  rw [Queue.log, commandStarts_append] at hn
  exact (List.nodup_append.mp hn).2.2 i hr i hp rfl

/-- What taking a frame from the camera does, once the send succeeds. -/
theorem takeFrame_cases (h : Forwards o.encoder) (frame : OwnedFrame) :
    ((o.encoder.takeFrame frame).1.frames = o.encoder.frames ∧
      ∃ new, (o.encoder.takeFrame frame).1.commands = o.encoder.commands.publish new) ∨
    (o.encoder.recordingActive = true ∧
      (o.encoder.takeFrame frame).1.frames = o.encoder.frames.publish [frame] ∧
      (o.encoder.takeFrame frame).1.commands = o.encoder.commands) := by
  unfold Encoder.takeFrame
  cases hactive : o.encoder.recordingActive with
  | false =>
    refine Or.inl ⟨send_queued _ _ ?_, (send_received _ _ _).2⟩
    simp [Poll.onFrame, Encoder.locals, hactive]
  | true =>
    have hnc : .shutdown ∉ o.encoder.commands.log := by
      intro hc
      have hf := (h.done hc).2.1
      rw [hactive] at hf
      cases hf
    by_cases hfull : o.encoder.queueSize ≤ o.encoder.frames.pending.length
    · refine Or.inl ⟨send_queued _ _ ?_, (send_received _ _ _).2⟩
      simp [Poll.onFrame, Encoder.locals, hactive, hfull]
    · refine Or.inr ⟨rfl, ?_⟩
      rw [send_alive _ _ fun he => absurd he (h.alive hnc)]
      simp [Poll.onFrame, Encoder.locals, hactive, hfull]

theorem Invariant.takeFrame (h : Invariant o) (frame : OwnedFrame) :
    Invariant (next o (.step (.takeFrame frame))) := by
  have hworker : (o.encoder.takeFrame frame).1.worker = o.encoder.worker := send_worker _ _ _
  have hreceived := (send_received o.encoder .frames (o.encoder.locals.onFrame o.encoder.processId
    ⟨frame, o.encoder.queueSize ≤ o.encoder.frames.pending.length⟩)).1
  have hpackets : (o.encoder.takeFrame frame).1.packets = o.encoder.packets := send_packets _ _ _
  have hforwards := h.forwards.takeFrame frame
  rcases takeFrame_cases h.forwards frame with ⟨hframes, hnew⟩ | ⟨hactive, hframes, hcommands⟩
  · exact h.of_main hframes hworker ⟨hreceived, hnew⟩ hpackets rfl hforwards
  · obtain ⟨i, hlast, hi⟩ := last_started h.forwards h.serves hactive
    have hqueued : queued o.encoder (.takeFrame frame) = [some i] := by
      change ((o.encoder.takeFrame frame).1.frames.log.drop _).map _ = _
      rw [hframes, Queue.log_publish, List.drop_left, hlast]
      rfl
    have hle : o.encoder.frames.received.length ≤ o.queuedFor.length := by
      rw [h.feeds.length, Queue.log, List.length_append]
      exact Nat.le_add_right _ _
    have hwait : (next o (.step (.takeFrame frame))).waiting = o.waiting ++ [some i] := by
      simp only [next, Observed.waiting, hqueued]
      change List.drop (o.encoder.takeFrame frame).1.frames.received.length _ = _
      rw [hframes, Queue.received_publish, List.drop_append_of_le_length hle]
    refine ⟨?_, next_preserves_streams h.streams h.nodup _, hforwards,
      h.serves.of_main hreceived hworker hpackets, ?_, ?_, ?_, ?_⟩
    · simp only [next, next_control_log]
      exact h.nodup
    · simp only [next, hqueued]
      change _ = (o.encoder.takeFrame frame).1.frames.log.length
      rw [hframes, Queue.log_publish, List.length_append, List.length_append, h.feeds.length]
      rfl
    · simp only [next, hqueued, encoded, List.append_nil]
      change _ = List.take (o.encoder.takeFrame frame).1.frames.received.length _
      rw [hframes, Queue.received_publish, List.take_append_of_le_length hle]
      exact h.feeds.encoded
    · rw [hwait]
      change ∀ q ∈ _, ∃ i, q = some i ∧
        (i ∈ commandStarts (o.encoder.takeFrame frame).1.commands.pending ∨
          pendingIndex (o.encoder.takeFrame frame).1.worker = some i)
      rw [hcommands, hworker]
      intro q hq
      rcases List.mem_append.mp hq with hq | hq
      · exact h.feeds.waiting q hq
      · exact ⟨i, List.mem_singleton.mp hq, hi.imp_right And.right⟩
    · rw [hwait]
      change (o.encoder.takeFrame frame).1.worker.stopAfterDrain = true →
        (o.encoder.takeFrame frame).1.worker.phase = .check →
          (o.encoder.takeFrame frame).1.worker.processedAnyFrame = false →
            ∀ p ∈ (o.encoder.takeFrame frame).1.worker.pendingEpisode, _
      rw [hworker]
      intro hstop hphase hnone p hp hm
      rcases List.mem_append.mp hm with hm | hm
      · exact h.feeds.drained hstop hphase hnone p hp hm
      · cases List.mem_singleton.mp hm
        rcases hi with hi | ⟨hopen, -⟩
        · exact h.started_once (h.streams.records.pending p hp) hi
        · rw [(h.serves.opened _ hopen).2] at hstop
          cases hstop

theorem Invariant.of_worker (h : Invariant o) {a : EncoderAction}
    (hframes : (EncoderProcess.next o.encoder a).1.frames = o.encoder.frames)
    (hencoded : encoded o.encoder a = [])
    (hf : Forwards (EncoderProcess.next o.encoder a).1)
    (hs : Serves (EncoderProcess.next o.encoder a).1)
    (hfeeds : Feeds ⟨(EncoderProcess.next o.encoder a).1, o.queuedFor, o.encodedIn⟩) :
    Invariant (next o (.step a)) := by
  rw [next, queued_nil (congrArg Queue.log hframes), hencoded, List.append_nil, List.append_nil]
  constructor
  · simp only [next_control_log]
    exact h.nodup
  · exact next_preserves_streams h.streams h.nodup a
  · exact hf
  · exact hs
  · exact hfeeds

theorem Invariant.takeStart (h : Invariant o) {codec : CodecCall} {i : UInt32} {ts : UInt64}
    {commands : Queue WorkerControl}
    (hpop : o.encoder.commands.pop = some (.recordingStart i ts, commands))
    (hok : WorksOff o (.workerControl codec)) :
    Invariant (next o (.step (.workerControl codec))) := by
  obtain ⟨hpend, hr⟩ := Queue.pop_spec hpop
  obtain ⟨hsucceeds, hends⟩ := hok
  obtain ⟨hframe, hwait⟩ := hends (.recordingStart i ts) (by simp [hpend]) rfl
  have hnext : (EncoderProcess.next o.encoder (.workerControl codec)).1 = { o.encoder with
      commands := commands
      packets := o.encoder.packets.publish (closing o.encoder.worker codec)
      worker := { phase := .controls, pendingEpisode := some ⟨i, ts⟩ } } := by
    simp only [EncoderProcess.next, Encoder.workerControl, hpop, finishSession_ok _ hsucceeds,
      Queue.publish_nil]
  have hclose := h.serves.close h.streams.records hframe hsucceeds
  apply h.of_worker
  · rw [hnext]
  · rfl
  · rw [hnext]
    exact h.forwards.of_worker rfl (Queue.log_pop hpop) rfl rfl rfl rfl (by simp)
      h.forwards.healthy
  · rw [hnext]
    constructor
    · intro j hj
      simp only [hr, openEpisode_concat, openBy, Option.some.injEq] at hj
      exact ⟨by rw [← hj]; rfl, rfl⟩
    · simp [hr, openBy]
    · intro j hj hne
      simp only [hr, commandStarts_append, List.mem_append] at hj
      rcases hj with hj | hj
      · exact hclose j hj
      · cases List.mem_singleton.mp hj
        exact absurd rfl hne
  · rw [hnext]
    refine h.feeds.of_frames rfl ?_ ?_
    · intro j hj hw
      rcases hw with hw | hw
      · rw [hpend] at hw
        rcases List.mem_cons.mp hw with rfl | hw
        · exact Or.inr rfl
        · exact Or.inl hw
      · obtain ⟨p, hp, rfl⟩ := Option.map_eq_some_iff.mp hw
        exact absurd hj (hwait p hp)
    · simp

theorem Invariant.takeShutdown (h : Invariant o) {codec : CodecCall}
    {commands : Queue WorkerControl}
    (hpop : o.encoder.commands.pop = some (.shutdown, commands))
    (hok : WorksOff o (.workerControl codec)) :
    Invariant (next o (.step (.workerControl codec))) := by
  obtain ⟨hpend, hr⟩ := Queue.pop_spec hpop
  obtain ⟨hsucceeds, hends⟩ := hok
  obtain ⟨hframe, hwait⟩ := hends .shutdown (by simp [hpend]) rfl
  have hnext : (EncoderProcess.next o.encoder (.workerControl codec)).1 = { o.encoder with
      commands := commands
      packets := o.encoder.packets.publish (closing o.encoder.worker codec)
      worker := { phase := .ended }
      events := o.encoder.events.publish [.shutdownComplete] } := by
    simp only [EncoderProcess.next, Encoder.workerControl, hpop, finishSession_ok _ hsucceeds]
  have hclose := h.serves.close h.streams.records hframe hsucceeds
  apply h.of_worker
  · rw [hnext]
  · rfl
  · rw [hnext]
    refine h.forwards.of_worker rfl (Queue.log_pop hpop) rfl rfl rfl rfl (by simp [hr]) ?_
    intro event he
    rcases List.mem_append.mp he with he | he
    · exact h.forwards.healthy event he
    · exact List.mem_singleton.mp he
  · rw [hnext]
    constructor
    · simp [hr, openBy]
    · simp
    · intro j hj _
      simp only [hr, commandStarts_append, List.mem_append] at hj
      rcases hj with hj | hj
      · exact hclose j hj
      · cases hj
  · rw [hnext]
    refine h.feeds.of_frames rfl ?_ ?_
    · intro j hj hw
      rcases hw with hw | hw
      · rw [hpend] at hw
        exact Or.inl hw
      · obtain ⟨p, hp, rfl⟩ := Option.map_eq_some_iff.mp hw
        exact absurd hj (hwait p hp)
    · simp

theorem Invariant.takeStop (h : Invariant o) {codec : CodecCall}
    {commands : Queue WorkerControl}
    (ha : EncoderProcess.Enabled o.encoder (.workerControl codec))
    (hpop : o.encoder.commands.pop = some (.recordingStop, commands)) :
    Invariant (next o (.step (.workerControl codec))) := by
  obtain ⟨hpend, hr⟩ := Queue.pop_spec hpop
  have hnext : (EncoderProcess.next o.encoder (.workerControl codec)).1 = { o.encoder with
      commands := commands
      worker := { o.encoder.worker with stopAfterDrain := true } } := by
    simp only [EncoderProcess.next, Encoder.workerControl, hpop]
  apply h.of_worker
  · rw [hnext]
  · rfl
  · rw [hnext]
    exact h.forwards.of_worker rfl (Queue.log_pop hpop) rfl rfl rfl rfl
      (fun he => by rw [ha.1] at he; cases he) h.forwards.healthy
  · rw [hnext]
    constructor
    · simp [hr, openBy]
    · simp
    · intro j hj
      simp only [hr, commandStarts_append, List.mem_append] at hj
      rcases hj with hj | hj
      · exact h.serves.closed j hj
      · cases hj
  · rw [hnext]
    refine h.feeds.of_frames rfl ?_ ?_
    · intro j _ hw
      rw [hpend] at hw
      exact hw
    · intro _ hphase
      rw [ha.1] at hphase
      cases hphase

theorem Invariant.takeDropped (h : Invariant o) {codec : CodecCall}
    {commands : Queue WorkerControl}
    (ha : EncoderProcess.Enabled o.encoder (.workerControl codec))
    (hpop : o.encoder.commands.pop = some (.droppedFrame, commands)) :
    Invariant (next o (.step (.workerControl codec))) := by
  obtain ⟨hpend, hr⟩ := Queue.pop_spec hpop
  have hnext : (EncoderProcess.next o.encoder (.workerControl codec)).1 =
      { o.encoder with commands := commands } := by
    simp only [EncoderProcess.next, Encoder.workerControl, hpop]
  apply h.of_worker
  · rw [hnext]
  · rfl
  · rw [hnext]
    exact h.forwards.of_worker rfl (Queue.log_pop hpop) rfl rfl rfl rfl
      (fun he => by rw [ha.1] at he; cases he) h.forwards.healthy
  · rw [hnext]
    constructor
    · simpa [hr, openBy] using h.serves.opened
    · simpa [hr, openBy] using h.serves.stopping
    · intro j hj
      simp only [hr, commandStarts_append, List.mem_append] at hj
      rcases hj with hj | hj
      · exact h.serves.closed j hj
      · cases hj
  · rw [hnext]
    refine h.feeds.of_frames rfl ?_ ?_
    · intro j _ hw
      rw [hpend] at hw
      exact hw
    · exact h.feeds.drained

theorem Invariant.workerControl (h : Invariant o) {codec : CodecCall}
    (ha : EncoderProcess.Enabled o.encoder (.workerControl codec))
    (hok : WorksOff o (.workerControl codec)) :
    Invariant (next o (.step (.workerControl codec))) := by
  obtain ⟨command, commands, hpop⟩ := Queue.pop_of_pending ha.2
  cases command with
  | recordingStart i ts => exact h.takeStart hpop hok
  | recordingStop => exact h.takeStop ha hpop
  | droppedFrame => exact h.takeDropped ha hpop
  | shutdown => exact h.takeShutdown hpop hok

theorem Invariant.head_pending (h : Invariant o) {codec : CodecCall}
    (hp : o.encoder.frames.pending ≠ []) (hok : WorksOff o (.workerFrame codec)) :
    ∃ i rest, o.waiting = some i :: rest ∧ pendingIndex o.encoder.worker = some i := by
  have hlen : o.waiting ≠ [] := by
    intro hnil
    have hl := congrArg List.length hnil
    rw [Observed.waiting, List.length_drop, h.feeds.length, Queue.log, List.length_append,
      Nat.add_sub_cancel_left] at hl
    exact hp (List.length_eq_zero_iff.mp hl)
  obtain ⟨q, rest, hq⟩ := List.exists_cons_of_ne_nil hlen
  obtain ⟨i, rfl, hi⟩ := h.feeds.waiting q (by simp [hq])
  refine ⟨i, rest, hq, hi.resolve_left ?_⟩
  exact hok.2.2 (some i) (by simp [hq]) i rfl

theorem Invariant.workerFrame (h : Invariant o) {codec : CodecCall}
    (ha : EncoderProcess.Enabled o.encoder (.workerFrame codec))
    (hok : WorksOff o (.workerFrame codec)) :
    Invariant (next o (.step (.workerFrame codec))) := by
  obtain ⟨i, rest, hwait, hi⟩ := h.head_pending ha.2 hok
  obtain ⟨frame, frames, hpop⟩ := Queue.pop_of_pending ha.2
  obtain ⟨hpend, hr⟩ := Queue.pop_spec hpop
  obtain ⟨hopens, hsucceeds, -⟩ := hok
  obtain ⟨session, hsession, hindex⟩ := frameSession_of_pending h.streams.records hi
  have hnext : (EncoderProcess.next o.encoder (.workerFrame codec)).1 = { o.encoder with
      frames := frames
      packets := o.encoder.packets.publish (session.drainPackets codec.outputs).1
      worker := { o.encoder.worker with
        phase := if o.encoder.worker.phase = .wait then .check else .frames
        processedAnyFrame := true
        activeSession := some (session.drainPackets codec.outputs).2 } } := by
    simp only [EncoderProcess.next, Encoder.workerFrame, hpop]
    exact handleFrame_ok hopens hsucceeds hsession
  have hencoded : encoded o.encoder (.workerFrame codec) = [some i] := by
    simp [encoded, hpend, hsession, hindex]
  have hqueued : queued o.encoder (.workerFrame codec) = [] := by
    apply queued_nil
    rw [hnext]
    exact Queue.log_pop hpop
  have hdrop : (next o (.step (.workerFrame codec))).waiting = rest := by
    simp only [next, hqueued, List.append_nil, Observed.waiting, hnext, hr, List.length_append,
      List.length_singleton]
    rw [← List.drop_drop]
    change List.drop 1 o.waiting = rest
    rw [hwait]
    rfl
  refine ⟨?_, next_preserves_streams h.streams h.nodup _, ?_, ?_, ?_, ?_, ?_, ?_⟩
  · simp only [next, next_control_log]
    exact h.nodup
  · simp only [next, hnext]
    refine h.forwards.of_worker rfl rfl rfl rfl rfl rfl ?_ h.forwards.healthy
    simp only
    split <;> simp
  · simp only [next, hnext]
    constructor
    · exact h.serves.opened
    · exact h.serves.stopping
    · intro j hj hne
      simp only [Queue.log_publish, eosCount_append, eosCount_drain, Nat.add_zero]
      exact h.serves.closed j hj hne
  · simp only [next, hqueued, hnext, List.append_nil, Queue.log_pop hpop]
    exact h.feeds.length
  · simp only [next, hqueued, hencoded, hnext, List.append_nil, hr, List.length_append,
      List.length_singleton, h.feeds.encoded]
    have hget : o.queuedFor[o.encoder.frames.received.length]? = some (some i) := by
      rw [← List.head?_drop]
      change o.waiting.head? = _
      rw [hwait]
      rfl
    rw [List.take_add_one, hget]
    rfl
  · rw [hdrop]
    simp only [next, hnext]
    exact fun q hq => h.feeds.waiting q (by rw [hwait]; exact List.mem_cons_of_mem _ hq)
  · simp [next, hnext]

theorem Invariant.move (h : Invariant o) {a : EncoderAction} {phase : WorkerPhase}
    {processed : Bool} (hphase : phase ≠ .ended)
    (hnext : (EncoderProcess.next o.encoder a).1 = { o.encoder with
      worker := { o.encoder.worker with phase := phase, processedAnyFrame := processed } })
    (hencoded : encoded o.encoder a = [])
    (hdrained : o.encoder.worker.stopAfterDrain = true → phase = .check → processed = false →
      o.encoder.frames.pending = []) : Invariant (next o (.step a)) := by
  apply h.of_worker
  · rw [hnext]
  · exact hencoded
  · rw [hnext]
    exact h.forwards.of_worker rfl rfl rfl rfl rfl rfl (fun he => absurd he hphase)
      h.forwards.healthy
  · rw [hnext]
    exact ⟨h.serves.opened, h.serves.stopping, h.serves.closed⟩
  · rw [hnext]
    refine h.feeds.of_frames rfl ?_ ?_
    · exact fun _ _ hw => hw
    · intro hstop hp hnone p _
      have hempty : o.waiting = [] := by
        apply List.eq_nil_of_length_eq_zero
        rw [Observed.waiting, List.length_drop, h.feeds.length, Queue.log,
          hdrained hstop hp hnone, List.append_nil, Nat.sub_self]
      rw [hempty]
      exact List.not_mem_nil

theorem Invariant.workerCheck (h : Invariant o) {codec : CodecCall}
    (ha : EncoderProcess.Enabled o.encoder (.workerCheck codec))
    (hok : WorksOff o (.workerCheck codec)) :
    Invariant (next o (.step (.workerCheck codec))) := by
  obtain ⟨hsucceeds, hframe⟩ := hok
  by_cases hstop : o.encoder.worker.stopAfterDrain = true ∧
      o.encoder.worker.processedAnyFrame = false
  · obtain ⟨hstop, hnone⟩ := hstop
    have hnext : (EncoderProcess.next o.encoder (.workerCheck codec)).1 = { o.encoder with
        packets := o.encoder.packets.publish (closing o.encoder.worker codec)
        worker := { phase := .controls } } := by
      simp [EncoderProcess.next, Encoder.workerCheck, hstop, hnone, finishSession_ok _ hsucceeds]
    have hclose := h.serves.close h.streams.records (hframe hstop hnone) hsucceeds
    have hopen : openEpisode o.encoder.commands.received = none := by
      by_contra hopen
      obtain ⟨i, hi⟩ := Option.ne_none_iff_exists'.mp hopen
      rw [(h.serves.opened i hi).2] at hstop
      cases hstop
    apply h.of_worker
    · rw [hnext]
    · rfl
    · rw [hnext]
      exact h.forwards.of_worker rfl rfl rfl rfl rfl rfl (by simp) h.forwards.healthy
    · rw [hnext]
      constructor
      · simp [hopen]
      · simp
      · exact fun j hj _ => hclose j hj
    · rw [hnext]
      refine h.feeds.of_frames rfl ?_ ?_
      · intro j hj hw
        rcases hw with hw | hw
        · exact Or.inl hw
        · obtain ⟨p, hp, rfl⟩ := Option.map_eq_some_iff.mp hw
          exact absurd hj (h.feeds.drained hstop ha hnone p hp)
      · simp
  · have hnext : (EncoderProcess.next o.encoder (.workerCheck codec)).1 = { o.encoder with
        worker := { o.encoder.worker with
          phase := .controls
          processedAnyFrame := o.encoder.worker.processedAnyFrame } } := by
      simp only [EncoderProcess.next, Encoder.workerCheck]
      rw [if_neg]
      intro hs
      simp only [Bool.and_eq_true, Bool.not_eq_true'] at hs
      exact hstop hs
    apply h.move (by simp) hnext
    · rfl
    · simp

theorem next_preserves_invariant (h : Invariant o) {a : Action} (ha : Enabled o a)
    (hok : Orderly o a) : Invariant (next o a) := by
  cases a with
  | publish event =>
    refine ⟨?_, ⟨h.streams.forwarded, h.streams.records⟩, h.forwards.publish hok.1,
      ⟨h.serves.opened, h.serves.stopping, h.serves.closed⟩,
      ⟨h.feeds.length, h.feeds.encoded, h.feeds.waiting, h.feeds.drained⟩⟩
    simp only [next, Queue.log_publish, startIndices_append]
    apply List.nodup_append.mpr
    refine ⟨h.nodup, ?_, ?_⟩
    · cases event <;> simp [startIndices, startIndex?, List.filterMap_cons]
    · rintro i hi j hj rfl
      obtain ⟨ts, hts⟩ := mem_startIndices.mp hj
      cases List.mem_singleton.mp hts
      exact hok.2 i rfl hi
  | step a =>
    obtain ⟨hahead, hworks⟩ := hok
    cases a with
    | takeEvent =>
      obtain ⟨hf, hw, hp, hc⟩ := takeEvent_same o.encoder
      exact h.of_main hf hw hc hp rfl h.forwards.takeEvent
    | eventsDrained =>
      exact h.of_main rfl rfl ⟨rfl, [], (Queue.publish_nil _).symm⟩ rfl rfl
        (h.forwards.of_phase (by simp) (by simp))
    | takeControl =>
      obtain ⟨hf, hw, hp, hc⟩ := takeControl_same o.encoder
      exact h.of_main hf hw hc hp rfl (h.forwards.takeControl ha hahead)
    | controlsDrained =>
      exact h.of_main rfl rfl ⟨rfl, [], (Queue.publish_nil _).symm⟩ rfl rfl
        (h.forwards.of_phase (by simp) (by simp))
    | takeFrame frame => exact h.takeFrame frame
    | framesDrained =>
      exact h.of_main rfl rfl ⟨rfl, [], (Queue.publish_nil _).symm⟩ rfl rfl
        (h.forwards.of_phase (by simp) (by simp))
    | forwardStop =>
      exact h.of_main (send_queued _ _ (forwardStop_queued _)) (send_worker _ _ _)
        (send_received _ _ _) (send_packets _ _ _) rfl h.forwards.forwardStop
    | forwardShutdown =>
      exact h.of_main (send_queued _ _ (forwardShutdown_queued _)) (send_worker _ _ _)
        (send_received _ _ _) (send_packets _ _ _) rfl (h.forwards.forwardShutdown ha)
    | workerControl codec => exact h.workerControl ha hworks
    | workerControlsDrained => exact h.move (by simp) rfl rfl (by simp)
    | workerFrame codec => exact h.workerFrame ha hworks
    | workerFramesDrained => exact h.move (by split <;> simp) rfl rfl fun _ _ _ => ha.2
    | workerTimeout => exact h.move (by simp) rfl rfl fun _ _ _ => ha.2
    | workerCheck codec => exact h.workerCheck ha hworks

end Steps

theorem run_invariant (processId : String) (queueSize : ℕ) {o : Observed}
    (h : Path Enabled next Orderly (start processId queueSize) o) : Invariant o :=
  Path.invariant (initial_invariant processId queueSize)
    (fun _ _ ha hok h => next_preserves_invariant h ha hok) h

theorem Invariant.settled {o : Observed} (h : Invariant o) (hq : Quiescent o.encoder) {i : UInt32}
    (hi : StartedAndStopped i o.encoder.control.log) :
    i ∈ commandStarts o.encoder.commands.received ∧ pendingIndex o.encoder.worker ≠ some i := by
  have hcontrol : o.encoder.control.log = o.encoder.control.received := by
    rw [Queue.log, hq.control, List.append_nil]
  have hcommands : o.encoder.commands.log = o.encoder.commands.received := by
    rw [Queue.log, hq.commands, List.append_nil]
  have hnot := hi.not_open h.nodup
  obtain ⟨hstop, hshutdown⟩ := h.forwards.fresh hq.phase
  rw [hcontrol, h.forwards.asked, hstop, hshutdown] at hnot
  simp only [Bool.or_self, Bool.false_eq_true, ↓reduceIte, hcommands] at hnot
  constructor
  · rw [← hcommands, h.forwards.starts, ← hcontrol]
    exact hi.started
  · intro hp
    cases hopen : openEpisode o.encoder.commands.received with
    | some j =>
      rw [(h.serves.opened j hopen).1] at hp
      exact hnot (hopen.trans hp)
    | none =>
      rcases h.serves.stopping hopen with hnone | hstop
      · simp [pendingIndex, hnone] at hp
      · rw [hq.worker] at hstop
        cases hstop

/-- In an orderly run, once the encoder is quiescent, every started and stopped episode has been
closed once, behind all its packets, with the frames queued for it in its session. -/
theorem stopped_episodes_closed (processId : String) (queueSize : ℕ) {o : Observed}
    (h : Path Enabled next Orderly (start processId queueSize) o)
    (hq : Quiescent o.encoder) : ∀ i, StartedAndStopped i o.encoder.control.log →
      ClosedOnce o i := by
  intro i hi
  have hinv := run_invariant processId queueSize h
  obtain ⟨hstarted, hpending⟩ := hinv.settled hq hi
  refine ⟨hinv.serves.closed i hstarted hpending, hinv.streams.records.ordered, fun k => ?_⟩
  rw [hinv.feeds.encoded, List.getElem?_take]
  split
  · exact Iff.rfl
  · next hk =>
    constructor
    · intro hqueued
      have hm : some i ∈ o.waiting := by
        apply List.mem_iff_getElem?.mpr
        refine ⟨k - o.encoder.frames.received.length, ?_⟩
        rw [Observed.waiting, List.getElem?_drop, Nat.add_sub_cancel' (by omega)]
        exact hqueued
      obtain ⟨j, hj, hw⟩ := hinv.feeds.waiting _ hm
      cases hj
      rw [hq.commands] at hw
      exact absurd hw (by simpa [commandStarts] using hpending)
    · intro hnone
      cases hnone

def iteration (frames : List OwnedFrame) : List EncoderAction :=
  .eventsDrained :: .takeControl :: .controlsDrained :: frames.map .takeFrame ++
    [.framesDrained, .forwardStop, .forwardShutdown]

def workerRound (frames : List OwnedFrame) : List EncoderAction :=
  .workerControl {} :: .workerControlsDrained ::
    frames.map (fun _ => .workerFrame { outputs := [({ flags := 1 }, [1])] }) ++
    .workerFramesDrained :: (if frames.isEmpty then [.workerTimeout] else []) ++ [.workerCheck {}]

def recordedEpisode (frames : List OwnedFrame) : List Action :=
  .publish (.recordingStart 0 10) :: (iteration frames ++ workerRound frames).map .step ++
    .publish (.recordingStop 0 20) :: (iteration [] ++ workerRound []).map .step

theorem recordedEpisode_closed :
    ClosedOnce ((recordedEpisode [⟨{}, []⟩]).foldl next (start "encoder" 8)) 0 := by
  refine stopped_episodes_closed "encoder" 8
    (path_of_follows (l := recordedEpisode [⟨{}, []⟩]) (by decide +kernel)) ?_ 0
    ⟨[], 10, [.recordingStop 0 20], rfl, 20, by decide⟩
  constructor <;> decide +kernel

/-- An episode without a frame is never closed. -/
theorem frameless_episode_unclosed : ¬ ∀ processId queueSize o,
    Path Enabled next (fun _ _ => True) (start processId queueSize) o → Quiescent o.encoder →
      ∀ i, StartedAndStopped i o.encoder.control.log → ClosedOnce o i := by
  intro hall
  have h := hall "encoder" 8 _
    (path_of_follows (l := recordedEpisode []) (by decide +kernel))
    (by constructor <;> decide +kernel) 0
    ⟨[], 10, [.recordingStop 0 20], rfl, 20, by decide⟩
  exact absurd h.eos (by decide +kernel)

end EpisodeClosing
