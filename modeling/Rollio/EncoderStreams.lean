import Rollio.ControlEvents
import Rollio.EncoderProcess

/-! What an encoder publishes. Whatever its threads and its codec do, each packet belongs to an
episode whose start the process has received, and nothing of an episode follows its end of
stream. -/
namespace EncoderStreams
open BusMessages RecordingEncoder Queues EncoderProcess ControlEvents

def commandStart? : WorkerControl → Option UInt32
  | .recordingStart i _ => some i
  | _ => none

def commandStarts (commands : List WorkerControl) : List UInt32 :=
  commands.filterMap commandStart?

@[simp] theorem commandStarts_append (l m : List WorkerControl) :
    commandStarts (l ++ m) = commandStarts l ++ commandStarts m := List.filterMap_append

def Closes (a b : Packet) : Prop :=
  a.1.kind = .endOfStream → a.1.episodeIndex ≠ b.1.episodeIndex

structure Published (starts : List UInt32) (log : List Packet) : Prop where
  started : ∀ q ∈ log, q.1.episodeIndex ∈ starts
  ordered : log.Pairwise Closes

structure Records (starts : List UInt32) (w : Worker) (log : List Packet) : Prop extends
    Published starts log where
  pending : ∀ p ∈ w.pendingEpisode, p.episodeIndex ∈ starts
  unclosed : ∀ p ∈ w.pendingEpisode, ∀ q ∈ log,
    q.1.kind = .endOfStream → q.1.episodeIndex ≠ p.episodeIndex
  active : ∀ s ∈ w.activeSession, ∃ p ∈ w.pendingEpisode, p.episodeIndex = s.episodeIndex

section Session

theorem drainPackets_session (s : EncoderSession) (outputs : List Packet) :
    (s.drainPackets outputs).2.episodeIndex = s.episodeIndex := by
  induction outputs generalizing s with
  | nil => rfl
  | cons output rest ih => exact ih { s with nextSequence := s.nextSequence + 1 }

theorem drainPackets_stamped (s : EncoderSession) (outputs : List Packet) :
    ∀ q ∈ (s.drainPackets outputs).1,
      q.1.kind = .packet ∧ q.1.episodeIndex = s.episodeIndex := by
  induction outputs generalizing s with
  | nil => simp [EncoderSession.drainPackets]
  | cons output rest ih =>
    intro q hq
    rcases List.mem_cons.mp hq with rfl | hq
    · exact ⟨rfl, rfl⟩
    · exact ih { s with nextSequence := s.nextSequence + 1 } q hq

theorem finish_stamped (s : EncoderSession) (codec : CodecCall) :
    ∀ q ∈ s.finish codec, q.1.episodeIndex = s.episodeIndex := by
  intro q hq
  unfold EncoderSession.finish at hq
  simp only at hq
  split at hq
  · rcases List.mem_append.mp hq with hq | hq
    · exact (drainPackets_stamped s codec.outputs q hq).2
    · rw [List.mem_singleton.mp hq]
      exact drainPackets_session s codec.outputs
  · exact (drainPackets_stamped s codec.outputs q hq).2

theorem closes_of_packet {a : Packet} (h : a.1.kind = .packet) (b : Packet) : Closes a b :=
  fun he => by rw [h] at he; cases he

theorem finish_ordered (s : EncoderSession) (codec : CodecCall) :
    (s.finish codec).Pairwise Closes := by
  have hp : (s.drainPackets codec.outputs).1.Pairwise Closes :=
    List.pairwise_of_forall_mem_list fun a ha b _ =>
      closes_of_packet (drainPackets_stamped s codec.outputs a ha).1 b
  unfold EncoderSession.finish
  simp only
  split
  · refine List.pairwise_append.mpr ⟨hp, List.pairwise_singleton .., fun a ha b _ => ?_⟩
    exact closes_of_packet (drainPackets_stamped s codec.outputs a ha).1 b
  · exact hp

end Session

section Records
variable {starts : List UInt32} {w : Worker} {log : List Packet}

theorem Published.mono (h : Published starts log) (i : UInt32) :
    Published (starts ++ [i]) log where
  started := fun q hq => List.mem_append_left _ (h.started q hq)
  ordered := h.ordered

theorem Records.append (h : Records starts w log) {p : PendingEpisode}
    (hp : p ∈ w.pendingEpisode) {packets : List Packet}
    (hi : ∀ q ∈ packets, q.1.episodeIndex = p.episodeIndex) (ho : packets.Pairwise Closes) :
    Published starts (log ++ packets) where
  started := by
    intro q hq
    rcases List.mem_append.mp hq with hq | hq
    · exact h.started q hq
    · exact (hi q hq).symm ▸ h.pending p hp
  ordered := List.pairwise_append.mpr
    ⟨h.ordered, ho, fun a ha b hb he => (hi b hb).symm ▸ h.unclosed p hp a ha he⟩

theorem Records.of_same (h : Records starts w log) {w' : Worker}
    (hp : w'.pendingEpisode = w.pendingEpisode) (ha : w'.activeSession = w.activeSession) :
    Records starts w' log where
  toPublished := h.toPublished
  pending := by rw [hp]; exact h.pending
  unclosed := by rw [hp]; exact h.unclosed
  active := by rw [hp, ha]; exact h.active

theorem Published.idle (h : Published starts log) (hp : w.pendingEpisode = none)
    (ha : w.activeSession = none) : Records starts w log where
  toPublished := h
  pending := by simp [hp]
  unclosed := by simp [hp]
  active := by simp [ha]

/-- A start the worker has not seen before opens its episode. -/
theorem Published.start (h : Published starts log) {p : PendingEpisode}
    (hnew : p.episodeIndex ∉ starts) (hp : w.pendingEpisode = some p)
    (ha : w.activeSession = none) : Records (starts ++ [p.episodeIndex]) w log where
  toPublished := h.mono _
  pending := by simp [hp]
  unclosed := by
    rintro p' hp' q hq - he
    obtain rfl : p = p' := by simpa [hp] using hp'
    exact hnew (he ▸ h.started q hq)
  active := by simp [ha]

/-- One frame: packets of the session's episode follow, and the session stays active. -/
theorem Records.encode (h : Records starts w log) {p : PendingEpisode}
    (hp : p ∈ w.pendingEpisode) {s : EncoderSession} (hs : s.episodeIndex = p.episodeIndex)
    (codec : CodecCall) :
    Records starts { w with activeSession := some (s.drainPackets codec.outputs).2 }
      (log ++ (s.drainPackets codec.outputs).1) where
  toPublished := by
    refine h.append hp (fun q hq => ?_) (List.pairwise_of_forall_mem_list fun a ha b _ => ?_)
    · exact (drainPackets_stamped s codec.outputs q hq).2.trans hs
    · exact closes_of_packet (drainPackets_stamped s codec.outputs a ha).1 b
  pending := h.pending
  unclosed := by
    intro p' hp' q hq he
    rcases List.mem_append.mp hq with hq | hq
    · exact h.unclosed p' hp' q hq he
    · rw [(drainPackets_stamped s codec.outputs q hq).1] at he
      cases he
  active := by
    rintro s' hs'
    cases hs'
    exact ⟨p, hp, hs.symm.trans (drainPackets_session s codec.outputs).symm⟩

theorem Records.finish (h : Records starts w log) {s : EncoderSession}
    (hs : s ∈ w.activeSession) (codec : CodecCall) :
    Published starts (log ++ s.finish codec) := by
  obtain ⟨p, hp, hi⟩ := h.active s hs
  exact h.append hp (fun q hq => (finish_stamped s codec q hq).trans hi.symm)
    (finish_ordered s codec)

end Records

structure Streams (e : Encoder) : Prop where
  forwarded : (commandStarts e.commands.log).Sublist (startIndices e.control.received)
  records : Records (commandStarts e.commands.received) e.worker e.packets.log

theorem initial_streams (processId : String) (queueSize : ℕ) :
    Streams { processId := processId, queueSize := queueSize } where
  forwarded := List.Sublist.refl _
  records := Published.idle ⟨by simp [Queue.log], by simp [Queue.log]⟩ rfl rfl

section Steps
variable {e : Encoder}

/-- Sending keeps the streams if the commands start nothing the control topic has not. -/
theorem Streams.send (h : Streams e) (phase : LoopPhase) {p : Poll}
    (hp : (commandStarts (e.commands.log ++ p.commands)).Sublist
      (startIndices e.control.received)) : Streams (e.send phase p).1 := by
  unfold Encoder.send
  split
  · exact ⟨h.forwarded, h.records⟩
  · exact ⟨by simpa using hp, h.records⟩

theorem Streams.send_quiet (h : Streams e) (phase : LoopPhase) {p : Poll}
    (hp : commandStarts p.commands = []) : Streams (e.send phase p).1 :=
  h.send phase (by simpa [hp] using h.forwarded)

theorem onControl_starts (event : ControlEvent) :
    commandStarts (e.locals.onControl event).commands = (startIndex? event).toList := by
  cases event <;> rfl

theorem Streams.takeControl (h : Streams e) : Streams e.takeControl.1 := by
  unfold Encoder.takeControl
  split
  · exact h
  · next event control hpop =>
    obtain ⟨-, hr⟩ := Queue.pop_spec hpop
    have hstarts : startIndices control.received =
        startIndices e.control.received ++ (startIndex? event).toList := by
      rw [hr, startIndices_append]
      cases event <;> rfl
    have hkeep : Streams { e with control := control } :=
      ⟨hstarts ▸ h.forwarded.trans (List.sublist_append_left ..), h.records⟩
    refine hkeep.send .controls ?_
    rw [commandStarts_append, hstarts]
    exact h.forwarded.append ((onControl_starts (e := e) event).symm ▸ List.Sublist.refl _)

theorem onFrame_starts (e : Encoder) (arrival : FrameArrival) :
    commandStarts (e.locals.onFrame e.processId arrival).commands = [] := by
  unfold Poll.onFrame
  split
  · rfl
  · split <;> rfl

theorem forwardStop_starts (e : Encoder) : commandStarts e.locals.forwardStop.commands = [] := by
  unfold Poll.forwardStop
  split <;> rfl

theorem forwardShutdown_starts (e : Encoder) :
    commandStarts e.locals.forwardShutdown.commands = [] := by
  unfold Poll.forwardShutdown
  split <;> rfl

theorem Streams.takeEvent (h : Streams e) : Streams e.takeEvent := by
  unfold Encoder.takeEvent
  split
  · exact h
  · have hq : commandStarts [WorkerControl.shutdown] = [] := rfl
    exact ⟨by simpa [hq] using h.forwarded, h.records⟩
  · exact ⟨h.forwarded, h.records⟩

/-- The records after a session, if any, is finished and the worker goes on as `w`. -/
theorem finishSession_records {starts starts' : List UInt32} {w : Worker} {codec : CodecCall}
    {events : List WorkerEvent} (h : Records starts e.worker e.packets.log)
    (hw : ∀ log, Published starts log → Records starts' w log)
    (hend : ∀ log, Published starts log → Published starts' log) :
    Records starts' (e.finishSession codec w events).worker
      (e.finishSession codec w events).packets.log := by
  unfold Encoder.finishSession
  split
  · exact hw _ h.toPublished
  · next session hs =>
    have hp := h.finish hs codec
    rw [← Queue.log_publish] at hp
    simp only
    split
    · exact hw _ hp
    · exact (hend _ hp).idle rfl rfl

theorem Streams.finishSession (h : Streams e) (codec : CodecCall) {w : Worker}
    (events : List WorkerEvent) (hp : w.pendingEpisode = none) (ha : w.activeSession = none) :
    Streams (e.finishSession codec w events) := by
  obtain ⟨hc, hr⟩ := finishSession_frame (e := e) codec w events
  constructor
  · rw [hc, hr]
    exact h.forwarded
  · rw [hc]
    exact finishSession_records h.records (fun _ hl => hl.idle hp ha) (fun _ hl => hl)

theorem Streams.workerControl (h : Streams e) (hnodup : (startIndices e.control.log).Nodup)
    (codec : CodecCall) : Streams (e.workerControl codec) := by
  have quiet {commands : Queue WorkerControl} {command : WorkerControl}
      (hpop : e.commands.pop = some (command, commands)) (hq : commandStart? command = none) :
      Streams { e with commands := commands } := by
    obtain ⟨-, hr⟩ := Queue.pop_spec hpop
    have hs : commandStarts commands.received = commandStarts e.commands.received := by
      simp [hr, commandStarts, hq]
    exact ⟨by simpa only [Queue.log_pop hpop] using h.forwarded, by
      simpa only [hs] using h.records⟩
  unfold Encoder.workerControl
  split
  · exact h
  · next i ts commands hpop =>
    obtain ⟨hpend, hr⟩ := Queue.pop_spec hpop
    have hlog : (commandStarts e.commands.log).Nodup :=
      h.forwarded.nodup (((List.sublist_append_left _ _).filterMap _).nodup hnodup)
    have hnew : i ∉ commandStarts e.commands.received := by
      rw [Queue.log, hpend, commandStarts_append] at hlog
      exact fun hi => (List.nodup_append.mp hlog).2.2 i hi i (by simp [commandStarts, commandStart?]) rfl
    have hstarts : commandStarts commands.received = commandStarts e.commands.received ++ [i] := by
      rw [hr, commandStarts_append]
      rfl
    obtain ⟨hc, hr'⟩ := finishSession_frame (e := { e with commands := commands }) codec
      { phase := .controls, pendingEpisode := some ⟨i, ts⟩ } []
    constructor
    · rw [hc, hr', Queue.log_pop hpop]
      exact h.forwarded
    · rw [hc, hstarts]
      refine finishSession_records (e := { e with commands := commands }) h.records
        (fun _ hl => hl.start (p := ⟨i, ts⟩) hnew rfl rfl) (fun _ hl => hl.mono i)
  · next commands hpop =>
    have hq := quiet hpop rfl
    exact ⟨hq.forwarded, hq.records.of_same rfl rfl⟩
  · next commands hpop => exact quiet hpop rfl
  · next commands hpop =>
    exact (quiet hpop rfl).finishSession codec [.shutdownComplete] rfl rfl

theorem frameSession_pending {starts : List UInt32} {w : Worker} {log : List Packet}
    (h : Records starts w log) {s : EncoderSession} (hs : Encoder.frameSession w = some s) :
    ∃ p ∈ w.pendingEpisode, s.episodeIndex = p.episodeIndex := by
  unfold Encoder.frameSession at hs
  cases ha : w.activeSession with
  | some session =>
    obtain ⟨p, hp, hi⟩ := h.active session ha
    rw [ha] at hs
    cases hs
    exact ⟨p, hp, hi.symm⟩
  | none =>
    rw [ha, Option.none_or, Option.map_eq_some_iff] at hs
    obtain ⟨p, hp, rfl⟩ := hs
    exact ⟨p, hp, rfl⟩

theorem Streams.handleFrame (h : Streams e) (codec : CodecCall) :
    Streams (e.handleFrame codec) := by
  unfold Encoder.handleFrame
  split
  · exact h
  · next session hs =>
    obtain ⟨p, hp, hi⟩ := frameSession_pending h.records hs
    split
    · exact ⟨h.forwarded, h.records.toPublished.idle rfl rfl⟩
    · have he := h.records.encode hp hi codec
      rw [← Queue.log_publish] at he
      simp only
      split
      · exact ⟨h.forwarded, he⟩
      · exact ⟨h.forwarded, he.toPublished.idle rfl rfl⟩

theorem Streams.workerFrame (h : Streams e) (codec : CodecCall) :
    Streams (e.workerFrame codec) := by
  unfold Encoder.workerFrame
  split
  · exact h
  · next frame frames hpop =>
    have hq : Streams { e with
        frames := frames
        worker := { e.worker with
          phase := if e.worker.phase = .wait then .check else .frames
          processedAnyFrame := true } } :=
      ⟨h.forwarded, h.records.of_same rfl rfl⟩
    exact hq.handleFrame codec

theorem Streams.workerCheck (h : Streams e) (codec : CodecCall) :
    Streams (e.workerCheck codec) := by
  unfold Encoder.workerCheck
  split
  · exact h.finishSession codec [] rfl rfl
  · exact ⟨h.forwarded, h.records.of_same rfl rfl⟩

theorem Streams.worker (h : Streams e) {w : Worker}
    (hp : w.pendingEpisode = e.worker.pendingEpisode)
    (ha : w.activeSession = e.worker.activeSession) : Streams { e with worker := w } :=
  ⟨h.forwarded, h.records.of_same hp ha⟩

theorem next_preserves_streams (h : Streams e) (hnodup : (startIndices e.control.log).Nodup)
    (a : EncoderAction) : Streams (next e a).1 := by
  cases a with
  | takeEvent => exact h.takeEvent
  | eventsDrained => exact ⟨h.forwarded, h.records⟩
  | takeControl => exact h.takeControl
  | controlsDrained => exact ⟨h.forwarded, h.records⟩
  | takeFrame frame => exact h.send_quiet _ (onFrame_starts e _)
  | framesDrained => exact ⟨h.forwarded, h.records⟩
  | forwardStop => exact h.send_quiet _ (forwardStop_starts e)
  | forwardShutdown => exact h.send_quiet _ (forwardShutdown_starts e)
  | workerControl codec => exact h.workerControl hnodup codec
  | workerControlsDrained => exact h.worker rfl rfl
  | workerFrame codec => exact h.workerFrame codec
  | workerFramesDrained => exact h.worker rfl rfl
  | workerTimeout => exact h.worker rfl rfl
  | workerCheck codec => exact h.workerCheck codec

end Steps

end EncoderStreams
