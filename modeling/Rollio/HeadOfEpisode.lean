import Rollio.EncoderStreams
import Rollio.LerobotEpisodeConservation
import Rollio.PipelineTopics

/-! The head of an episode's stream. Starts and packets travel on different topics, so an
encoder's first keyframe may be taken ahead of the start it belongs to, and is lost. -/
namespace HeadOfEpisode
open BusMessages RuntimeConfig Clocks PacketDeliveries LerobotPackets LerobotDataset
open LerobotEpisodeManager LerobotDispatch OrderedTables Queues PartialRuns ControlEvents
open EncoderStreams CollectPipeline PipelineTopics
open EncoderProcess (Packet EncoderAction)
open AssemblerProcess (Assembler AssemblerAction Outbox)

def deliveries (i : UInt32) (packets : List Packet) : List Delivery :=
  (packets.filter fun q => q.1.episodeIndex = i).map fun q => toDelivery q.1 q.2

def FromKeyframe (log : List Packet) (input : EpisodeAssemblyInput) (channelId : String) : Prop :=
  input.cameraStreams[channelId]?.map (·.packets) =
    some ((fromKeyframe (deliveries input.episodeIndex log)).filterMap record?)

instance (log : List Packet) (input : EpisodeAssemblyInput) (channelId : String) :
    Decidable (FromKeyframe log input channelId) := inferInstanceAs (Decidable (_ = _))

/-- No keyframe packet is taken while the start of its episode waits on the control topic. -/
def HeadsAwaited (s : State) : Action → Prop
  | .packet => ∀ channelId ∈ s.visited, ∀ q ∈ s.head? channelId,
      (toDelivery q.1 q.2).isKeyframePacket = true →
        q.1.episodeIndex ∉ startIndices s.assembler.control.pending
  | _ => True

instance (s : State) (a : Action) : Decidable (HeadsAwaited s a) := by
  unfold HeadsAwaited
  split <;> infer_instance

section Deliveries
variable {i : UInt32} {l : List Packet}

@[simp] theorem deliveries_nil (i : UInt32) : deliveries i [] = [] := rfl

@[simp] theorem deliveries_append (i : UInt32) (l m : List Packet) :
    deliveries i (l ++ m) = deliveries i l ++ deliveries i m := by
  simp [deliveries]

theorem deliveries_of_index {q : Packet} (h : q.1.episodeIndex = i) :
    deliveries i [q] = [toDelivery q.1 q.2] := by
  simp [deliveries, h]

theorem deliveries_eq_nil (h : ∀ q ∈ l, q.1.episodeIndex ≠ i) : deliveries i l = [] := by
  simpa [deliveries] using h

theorem eos_of_deliveries (h : (deliveries i l).any Delivery.isEos = true) :
    ∃ q ∈ l, q.1.kind = .endOfStream ∧ q.1.episodeIndex = i := by
  obtain ⟨d, hd, he⟩ := List.any_eq_true.mp h
  obtain ⟨q, hq, rfl⟩ := List.mem_map.mp hd
  obtain ⟨hq, hi⟩ := List.mem_filter.mp hq
  refine ⟨q, hq, ?_, of_decide_eq_true hi⟩
  cases hk : q.1.kind with
  | packet => simp [toDelivery, hk, Delivery.isEos] at he
  | endOfStream => rfl

/-- Nothing of an episode follows its end of stream. -/
theorem deliveries_closed {m : List Packet} (h : (l ++ m).Pairwise Closes)
    (heos : ∃ q ∈ l, q.1.kind = .endOfStream ∧ q.1.episodeIndex = i) : deliveries i m = [] := by
  obtain ⟨q, hq, hk, rfl⟩ := heos
  exact deliveries_eq_nil fun r hr => Ne.symm ((List.pairwise_append.mp h).2.2 q hq r hr hk)

end Deliveries

structure Observes (channels : List String) (received : String → List Packet) (i : UInt32)
    (e : PendingEpisode) : Prop where
  streams : ∀ c ∈ channels, ∃ pre ds, deliveries i (received c) = pre ++ ds ∧
    pre.any Delivery.isKeyframePacket = false ∧ e.cameraStreams[c]? = some (observeAll {} ds)
  channels : ∀ c ∈ e.cameraStreams, c ∈ channels
  failures : ∀ (c : String) (b : RecordingStreamBuffer), e.cameraStreams[c]? = some b →
    b.failed ≠ none → c ∈ e.failedCameras

section Entries
variable {channels : List String} {received received' : String → List Packet} {i : UInt32}
  {e e' : PendingEpisode}

theorem onPacket_stream (e : PendingEpisode) (c c' : String) (d : Delivery) :
    (e.onPacket c d).cameraStreams[c']? =
      if c' = c then e.cameraStreams[c']?.map (observe · d) else e.cameraStreams[c']? := by
  unfold PendingEpisode.onPacket
  split
  · next hb =>
    split
    · next hc => rw [hc, hb]; rfl
    · rfl
  · next b hb =>
    simp only [lookup_insert]
    split
    · next hc => rw [hc, hb]; rfl
    · rfl

theorem onPacket_failures (d : Delivery) (c : String)
    (h : ∀ (c : String) (b : RecordingStreamBuffer), e.cameraStreams[c]? = some b →
      b.failed ≠ none → c ∈ e.failedCameras) {c' : String} {b' : RecordingStreamBuffer}
    (hb' : (e.onPacket c d).cameraStreams[c']? = some b') (hf : b'.failed ≠ none) :
    c' ∈ (e.onPacket c d).failedCameras := by
  unfold PendingEpisode.onPacket at hb' ⊢
  split at hb'
  · exact h c' b' hb' hf
  · next b hb =>
    simp only [lookup_insert] at hb' ⊢
    split at hb'
    · next hc =>
      cases hb'
      have hsome := Option.isSome_iff_ne_none.mpr hf
      cases hmem : e.failedCameras.contains c with
      | true => simpa [hsome, hc] using List.contains_iff_mem.mp hmem
      | false => simp [hsome, hc]
    · have hm := h c' b' hb' hf
      split
      · exact List.mem_append_left _ hm
      · exact hm

theorem observes_new {startTimeUs : UInt64}
    (h : ∀ c, (deliveries i (received c)).any Delivery.isKeyframePacket = false) :
    Observes channels received i (.new i startTimeUs channels) where
  streams := fun c hc => ⟨_, [], (List.append_nil _).symm, h c, by
    simp only [PendingEpisode.new, lookup_foldl_insert, if_pos hc]
    rfl⟩
  channels := by
    intro c hc
    obtain ⟨b, hb⟩ := mem_iff_lookup.mp hc
    simp only [PendingEpisode.new, lookup_foldl_insert] at hb
    split at hb
    · assumption
    · simp at hb
  failures := by
    intro c b hb hf
    simp only [PendingEpisode.new, lookup_foldl_insert] at hb
    split at hb
    · cases hb
      exact absurd rfl hf
    · simp at hb

theorem Observes.of_same (h : Observes channels received i e) (hs : EpisodeManager.SameStreams e e') :
    Observes channels received i e' where
  streams := hs.cameraStreams ▸ h.streams
  channels := hs.cameraStreams ▸ h.channels
  failures := by
    rw [hs.cameraStreams, hs.failedCameras]
    exact h.failures

theorem Observes.of_received (h : Observes channels received i e)
    (hr : ∀ c, deliveries i (received' c) = deliveries i (received c)) :
    Observes channels received' i e where
  streams := fun c hc => (hr c).symm ▸ h.streams c hc
  channels := h.channels
  failures := h.failures

theorem Observes.onPacket (h : Observes channels received i e) {c : String} {d : Delivery}
    (hc : deliveries i (received' c) = deliveries i (received c) ++ [d])
    (hother : ∀ c', c' ≠ c → received' c' = received c') :
    Observes channels received' i (e.onPacket c d) where
  streams := by
    intro c' hmem
    obtain ⟨pre, ds, hd, hpre, hb⟩ := h.streams c' hmem
    rw [onPacket_stream]
    split
    · next heq =>
      subst heq
      exact ⟨pre, ds ++ [d], by rw [hc, hd, List.append_assoc], hpre,
        by rw [hb, observeAll_concat]; rfl⟩
    · next hne => exact ⟨pre, ds, hother c' hne ▸ hd, hpre, hb⟩
  channels := by
    intro c' hmem
    refine h.channels c' ?_
    rw [mem_iff_lookup] at hmem ⊢
    obtain ⟨b, hb⟩ := hmem
    rw [onPacket_stream] at hb
    split at hb
    · obtain ⟨b', hb', -⟩ := Option.map_eq_some_iff.mp hb
      exact ⟨b', hb'⟩
    · exact ⟨b, hb⟩
  failures := fun _ _ => onPacket_failures d c h.failures

theorem ready_streams {m : EpisodeManager} {nowUs : UInt64} (h : verdict m nowUs e = .ready) :
    e.failedCameras = [] ∧ e.allCamerasEos m.config.cameras.length = true := by
  unfold verdict at h
  split at h
  · cases h
  · next hf =>
    split at h
    · cases h
    · split at h
      · next he => exact ⟨by simpa using hf, he⟩
      · split at h
        · split at h <;> cases h
        · cases h

/-- A ready entry has the whole stream received on each channel, up to an end of stream. -/
theorem Observes.ready (h : Observes channels received i e) {m : EpisodeManager}
    {nowUs : UInt64} (hv : verdict m nowUs e = .ready)
    (hm : m.config.cameras.length = channels.length) {c : String} (hc : c ∈ channels) :
    ∃ b, e.cameraStreams[c]? = some b ∧
      b.packets = (fromKeyframe (deliveries i (received c))).filterMap record? ∧
      (deliveries i (received c)).any Delivery.isEos = true := by
  obtain ⟨hfail, heos⟩ := ready_streams hv
  obtain ⟨pre, ds, hd, hpre, hb⟩ := h.streams c hc
  have hnone : (observeAll {} ds).failed = none := by
    by_contra hf
    simpa [hfail] using h.failures c _ hb hf
  have hend := forall_values (p := (·.eosReceived)) h.channels
    ((eq_of_beq heos).trans hm) hb
  have hcol := collects_observeAll hnone
  refine ⟨_, hb, ?_, ?_⟩
  · rw [hd, fromKeyframe_append_left hpre]
    exact hcol.packets
  · rw [hd, List.any_append, ← hcol.eos, hend, Bool.or_true]

end Entries

structure Heads (a : Assembler) (packets : String → Queue Packet) : Prop where
  /-- Of an episode that has not started here, no keyframe has been taken. -/
  early : ∀ i, i ∉ startIndices a.control.received → ∀ c,
    (deliveries i (packets c).received).any Delivery.isKeyframePacket = false
  pending : ∀ (i : UInt32) (e : PendingEpisode), a.manager.episodes[i]? = some e →
    Observes a.manager.cameraChannelIds (fun c => (packets c).received) i e
  staged : ∀ input ∈ stagedInputs a.commands.log, ∀ c ∈ a.manager.cameraChannelIds,
    FromKeyframe (packets c).log input c ∧
      ∃ q ∈ (packets c).log, q.1.kind = .endOfStream ∧ q.1.episodeIndex = input.episodeIndex

section Assembler
variable {a a' : Assembler} {action : AssemblerAction} {out : Outbox}
  {packets packets' : String → Queue Packet}

theorem Heads.quiet (h : Heads a packets)
    (hc : startIndices a'.control.received = startIndices a.control.received)
    (hm : ∀ (i : UInt32) (e' : PendingEpisode), a'.manager.episodes[i]? = some e' →
      ∃ e, a.manager.episodes[i]? = some e ∧ EpisodeManager.SameStreams e e')
    (hids : a'.manager.cameraChannelIds = a.manager.cameraChannelIds)
    (hs : stagedInputs a'.commands.log = stagedInputs a.commands.log) : Heads a' packets where
  early := hc ▸ h.early
  pending := by
    intro i e' he'
    obtain ⟨e, he, hsame⟩ := hm i e' he'
    exact hids ▸ (h.pending i e he).of_same hsame
  staged := by
    rw [hs, hids]
    exact h.staged

theorem Heads.control (h : Heads a packets) {event : ControlEvent} {control : Queue ControlEvent}
    {nowUs : UInt64} (hpop : a.control.pop = some (event, control))
    (hnew : ∀ i ∈ startIndex? event, i ∉ startIndices a.control.received)
    (hcontrol : a'.control = control)
    (hmanager : a'.manager = (a.manager.onControlEvent event nowUs).2)
    (hcommands : a'.commands = a.commands) : Heads a' packets where
  early := by
    intro i hi
    refine h.early i fun hin => hi ?_
    rw [hcontrol, (Queue.pop_spec hpop).2, startIndices_append]
    exact List.mem_append_left _ hin
  pending := by
    intro i e' he'
    rw [hmanager] at he' ⊢
    rw [(EpisodeManager.frame_onControlEvent a.manager event nowUs).cameraChannelIds]
    obtain ⟨ts, rfl, rfl⟩ | ⟨e, he, hs⟩ := EpisodeManager.onControlEvent_entry he'
    · exact observes_new fun c => h.early i (hnew i rfl) c
    · exact (h.pending i e he).of_same hs
  staged := by
    rw [hmanager, hcommands,
      (EpisodeManager.frame_onControlEvent a.manager event nowUs).cameraChannelIds]
    exact h.staged

theorem Heads.dispatch (h : Heads a packets) (hk : Keyed a.manager)
    (hids : a.manager.config.cameras.length = a.manager.cameraChannelIds.length)
    (hordered : ∀ c, (packets c).log.Pairwise Closes) {nowUs : UInt64} {now : UInt32 → Instant}
    {d : Dispatch}
    (hd : dispatchReadyEpisodes a.manager ⟨a.workerRunning, []⟩ nowUs now = .ok d)
    (phase : AssemblerProcess.LoopPhase) : Heads { a with
      manager := d.manager
      commands := a.commands.publish d.worker.sent
      phase := phase } packets := by
  have hspec := dispatched hk hd
  obtain ⟨inputs, hsent, -, horigin⟩ := hspec.sent
  refine ⟨h.early, fun i e he => ?_, fun input hinput c hc => ?_⟩
  · exact hspec.cameraChannelIds ▸ h.pending i e (hspec.survives i e he)
  · simp only [hspec.cameraChannelIds] at hc
    simp only [Queue.log_publish, hsent, List.nil_append, stagedInputs_append,
      stagedInputs_stages, List.mem_append] at hinput
    rcases hinput with hinput | hinput
    · exact h.staged input hinput c hc
    · obtain ⟨e, he, hv, heq⟩ := horigin input hinput
      obtain ⟨b, hb, hp, hany⟩ := (h.pending _ e he).ready hv hids hc
      have heos := eos_of_deliveries hany
      -- the end of stream has been received, so nothing of the episode is still on the topic
      have hwaiting : deliveries input.episodeIndex (packets c).pending = [] :=
        deliveries_closed (hordered c) heos
      obtain ⟨q, hq, hkind⟩ := heos
      refine ⟨?_, q, List.mem_append_left _ hq, hkind⟩
      have hstream : input.cameraStreams[c]? = some b := heq ▸ hb
      rw [FromKeyframe, hstream, Option.map_some, hp, Queue.log, deliveries_append, hwaiting,
        List.append_nil]

theorem step_heads (h : Heads a packets) (hs : AssemblerProcess.Step a action a' out)
    (hk : Keyed a.manager)
    (hids : a.manager.config.cameras.length = a.manager.cameraChannelIds.length)
    (hordered : ∀ c, (packets c).log.Pairwise Closes)
    (hnew : ∀ event control, a.control.pop = some (event, control) →
      ∀ i ∈ startIndex? event, i ∉ startIndices a.control.received) : Heads a' packets := by
  have keep (i : UInt32) (e : PendingEpisode) (he : a.manager.episodes[i]? = some e) :
      ∃ e', a.manager.episodes[i]? = some e' ∧ EpisodeManager.SameStreams e' e :=
    ⟨e, he, .refl e⟩
  cases hs with
  | control nowUs phase hphase hpop => exact h.control hpop (hnew _ _ hpop) rfl rfl rfl
  | samples hframe hlookup hmem =>
    refine h.quiet rfl (fun i e' he' => ?_) hframe.cameraChannelIds rfl
    obtain ⟨e, he, hsame⟩ := hlookup i e' he'
    exact ⟨e, he, hsame.toSameStreams⟩
  | dispatch nowUs now hd => exact h.dispatch hk hids hordered hd _
  | askShutdown hr he hf => exact h.quiet rfl keep rfl (by simp [stagedInputs])
  | stage result hpop => exact h.quiet rfl keep rfl (by simp [Queue.log_pop hpop])
  | endWorker result hpop => exact h.quiet rfl keep rfl (by simp [Queue.log_pop hpop])
  | _ => exact h.quiet rfl keep rfl rfl

/-- A received packet reaches the entry of its episode; without one it carries no keyframe. -/
theorem Heads.packet (h : Heads a packets) {c : String} {header : EncodedPacketHeader}
    {payload : List UInt8}
    (hr : (packets' c).received = (packets c).received ++ [(header, payload)])
    (hlog : ∀ c, (packets' c).log = (packets c).log)
    (hother : ∀ c', c' ≠ c → packets' c' = packets c')
    (hearly : header.episodeIndex ∉ startIndices a.control.received →
      (toDelivery header payload).isKeyframePacket = false) :
    Heads { a with manager := a.manager.onPacket c header payload } packets' where
  early := by
    intro i hi c'
    by_cases hc : c' = c
    · rw [hc, hr, deliveries_append, List.any_append, h.early i hi c, Bool.false_or]
      by_cases hidx : header.episodeIndex = i
      · rw [deliveries_of_index hidx, List.any_cons, List.any_nil, Bool.or_false]
        exact hearly (hidx ▸ hi)
      · rw [deliveries_eq_nil (by simpa using hidx)]
        rfl
    · rw [hother c' hc]
      exact h.early i hi c'
  pending := by
    intro i e' he'
    rw [EpisodeManager.onPacket_lookup] at he'
    split at he'
    · next hi =>
      obtain ⟨e, he, rfl⟩ := Option.map_eq_some_iff.mp he'
      refine (h.pending i e he).onPacket ?_ fun c' hc => by rw [hother c' hc]
      rw [hr, deliveries_append, deliveries_of_index hi.symm]
    · next hi =>
      refine (h.pending i e' he').of_received fun c' => ?_
      by_cases hc : c' = c
      · have hnil : deliveries i [(header, payload)] = [] :=
          deliveries_eq_nil (by simpa using Ne.symm hi)
        rw [hc, hr, deliveries_append, hnil, List.append_nil]
      · rw [hother c' hc]
  staged := by
    simp only [hlog]
    exact h.staged

theorem Heads.publish (h : Heads a packets) (new : String → List Packet)
    (hnew : ∀ c, packets' c = (packets c).publish (new c))
    (hordered : ∀ c, (packets' c).log.Pairwise Closes) : Heads a packets' where
  early := by
    simp only [hnew]
    exact h.early
  pending := by
    simp only [hnew]
    exact h.pending
  staged := by
    intro input hinput c hc
    obtain ⟨hp, heos⟩ := h.staged input hinput c hc
    have ho := hordered c
    rw [hnew, Queue.log_publish] at ho ⊢
    refine ⟨?_, ?_⟩
    · rw [FromKeyframe, deliveries_append, deliveries_closed ho heos, List.append_nil]
      exact hp
    · obtain ⟨q, hq, hkind⟩ := heos
      exact ⟨q, List.mem_append_left _ hq, hkind⟩

end Assembler

structure Invariant (config : AssemblerRuntimeConfigV2) (n₀ : ℕ) (s : State) : Prop extends
    Topics config n₀ s where
  encoders : ∀ channelId, Streams (s.encoders channelId)
  heads : Heads s.assembler fun channelId => (s.encoders channelId).packets

theorem initial_invariant (config : AssemblerRuntimeConfigV2) (nextIndex prior : UInt32)
    (queueSize : String → ℕ) :
    Invariant config nextIndex.toNat (initial config nextIndex prior queueSize) where
  toTopics := initial_topics config nextIndex prior queueSize
  encoders := fun channelId => initial_streams _ (queueSize channelId)
  heads := by
    refine ⟨fun i _ c => rfl, fun i e he => ?_, fun input hinput => ?_⟩
    · simp [initial, Assembler.initial, EpisodeManager.new] at he
    · simp [initial, Assembler.initial, Queue.log, stagedInputs] at hinput

section Steps
variable {config : AssemblerRuntimeConfigV2} {n₀ : ℕ} {s : State}

theorem Invariant.ordered (h : Invariant config n₀ s) (channelId : String) :
    (s.encoders channelId).packets.log.Pairwise Closes :=
  (h.encoders channelId).records.ordered

/-- The encoder has heard of the episode of a packet, so the assembler has it on its topic. -/
theorem Invariant.announced (h : Invariant config n₀ s) {channelId : String} {q : Packet}
    (hq : q ∈ (s.encoders channelId).packets.log) :
    q.1.episodeIndex ∈ startIndices s.assembler.control.received ++
      startIndices s.assembler.control.pending := by
  have he := h.encoders channelId
  have hr := (List.sublist_append_left (s.encoders channelId).commands.received
    (s.encoders channelId).commands.pending).filterMap commandStart?
  have hs := he.forwarded.subset (hr.subset (he.records.started q hq))
  rw [← starts_split h.toTopics, ← topic_starts, ← h.encoderControl channelId, Queue.log,
    startIndices_append]
  exact List.mem_append_left _ hs

theorem Invariant.controller (h : Invariant config n₀ s) {a : CollectLoop.ControllerAction}
    (ha : Enabled s (.controller a)) (hc : Counting (next s (.controller a))) :
    Invariant config n₀ (next s (.controller a)) where
  toTopics := next_preserves_topics h.toTopics ha hc
  encoders := fun channelId => ⟨(h.encoders channelId).forwarded, (h.encoders channelId).records⟩
  heads := ⟨h.heads.early, h.heads.pending, h.heads.staged⟩

theorem Invariant.assembler (h : Invariant config n₀ s) {a : AssemblerAction}
    (ha : Enabled s (.assembler a)) (hc : Counting (next s (.assembler a))) :
    Invariant config n₀ (next s (.assembler a)) where
  toTopics := next_preserves_topics h.toTopics ha hc
  encoders := h.encoders
  heads := by
    refine step_heads h.heads (AssemblerProcess.next_step ha) h.keyed ?_ h.ordered ?_
    · rw [h.channels, h.configured, List.length_map]
    · intro event control hpop i hi
      cases event <;> cases hi
      exact taken_start_new h.toTopics hpop

theorem Invariant.packet (h : Invariant config n₀ s) (ha : Enabled s .packet)
    (hc : Counting (next s .packet)) (hok : HeadsAwaited s .packet) :
    Invariant config n₀ (next s .packet) := by
  have ht := next_preserves_topics h.toTopics ha hc
  obtain he | ⟨channelId, header, payload, packets, hv, hpop, he⟩ := takePacket_cases s <;>
    simp only [next, he] at ht ⊢
  · exact h
  · obtain ⟨hp, hr⟩ := Queue.pop_spec hpop
    have hlog := Queue.log_pop hpop
    refine ⟨ht, ?_, ?_⟩
    · refine update_encoder (P := Streams) h.encoders ⟨(h.encoders channelId).forwarded, ?_⟩
      simpa only [hlog] using (h.encoders channelId).records
    · refine h.heads.packet (by simpa using hr) (fun c => ?_) (fun c' hc' => ?_) fun hnew => ?_
      · by_cases hcc : c = channelId <;> simp [hcc, hlog]
      · simp [hc']
      · by_contra hkey
        have hhead : (header, payload) ∈ s.head? channelId := by simp [State.head?, hp]
        have hwait := hok channelId hv (header, payload) hhead (by simpa using hkey)
        exact (List.mem_append.mp (h.announced (Queue.mem_log_of_pop hpop))).elim hnew hwait

theorem Invariant.encoder (h : Invariant config n₀ s) {channelId : String} {a : EncoderAction}
    (ha : Enabled s (.encoder channelId a)) (hc : Counting (next s (.encoder channelId a))) :
    Invariant config n₀ (next s (.encoder channelId a)) := by
  have hnodup : (startIndices (s.encoders channelId).control.log).Nodup := by
    rw [h.encoderControl]
    exact (topic_startsFirst h.toTopics).nodup
  have henc : ∀ c, Streams ((next s (.encoder channelId a)).encoders c) :=
    update_encoder (P := Streams) h.encoders
      (next_preserves_streams (h.encoders channelId) hnodup a)
  obtain ⟨new, hnew⟩ := EncoderProcess.next_packets (s.encoders channelId) a
  refine ⟨next_preserves_topics h.toTopics ha hc, henc, ?_⟩
  refine h.heads.publish (fun c => if c = channelId then new else []) (fun c => ?_)
    fun c => (henc c).records.ordered
  change (Function.update s.encoders channelId
    (EncoderProcess.next (s.encoders channelId) a).1 c).packets = _
  by_cases hcc : c = channelId
  · rw [hcc, Function.update_self, hnew, if_pos rfl]
  · rw [Function.update_of_ne hcc, if_neg hcc, Queue.publish_nil]

theorem next_preserves_invariant (h : Invariant config n₀ s) {a : Action} (ha : Enabled s a)
    (hok : HeadsAwaited s a) (hc : Counting (next s a)) : Invariant config n₀ (next s a) := by
  cases a with
  | controller a => exact h.controller ha hc
  | assembler a => exact h.assembler ha hc
  | packet => exact h.packet ha hc hok
  | storage a => exact ⟨next_preserves_topics h.toTopics ha hc, h.encoders,
      h.heads.early, h.heads.pending, h.heads.staged⟩
  | encoder channelId a => exact h.encoder ha hc

end Steps

theorem run_invariant (config : AssemblerRuntimeConfigV2) (nextIndex prior : UInt32)
    (queueSize : String → ℕ) {s : State}
    (h : Run HeadsAwaited (initial config nextIndex prior queueSize) s) (hc : Counting s) :
    Invariant config nextIndex.toNat s :=
  Path.invariant_of_bound (fun _ _ _ => next_counting)
    (initial_invariant config nextIndex prior queueSize)
    (fun _ _ ha hok hc h => next_preserves_invariant h ha hok hc) h hc

/-- While no keyframe overtakes its start, the streams of every episode handed to the staging
worker hold all that was published of it from the first keyframe on. -/
theorem staged_from_first_keyframe (config : AssemblerRuntimeConfigV2)
    (nextIndex prior : UInt32) (queueSize : String → ℕ) {s : State}
    (h : Run HeadsAwaited (initial config nextIndex prior queueSize) s) (hc : Counting s) :
    ∀ input ∈ stagedInputs s.assembler.commands.log, ∀ camera ∈ config.cameras,
      FromKeyframe (s.encoders camera.channelId).packets.log input camera.channelId := by
  intro input hinput camera hcamera
  have hinv := run_invariant config nextIndex prior queueSize h hc
  refine (hinv.heads.staged input hinput camera.channelId ?_).1
  rw [hinv.channels]
  exact List.mem_map_of_mem hcamera

def encodeNext : List EncoderAction :=
  encoderPoll 0 [⟨{}, []⟩] ++ [.workerControlsDrained, .workerFrame keyframe,
    .workerFramesDrained, .workerCheck {}]

/-- A kept episode of two keyframes. Of the first two iterations of the assembler, which meet
the start and the first keyframe, the first takes `controls` control events. -/
def twoKeyframes (controls : ℕ) : List Action :=
  collectPoll [.start] ++ onChannel "cam0" encodeFirst ++ assemblerPoll controls 1 0 0 ++
    .assembler .eventsDrained :: assemblerPoll (1 - controls) 0 0 0 ++
    .assembler .eventsDrained :: onChannel "cam0" encodeNext ++ collectPoll [.stop] ++
    onChannel "cam0" encodeStop ++ collectPoll [.keep] ++ assemblerPoll 2 2 0 0

def twoKeyframesSession (controls : ℕ) : State :=
  (twoKeyframes controls).foldl next
    (initial LerobotEpisodeConservation.sampleConfig 0 0 fun _ => 32)

theorem started_episode_from_first_keyframe :
    (stagedInputs (twoKeyframesSession 1).assembler.commands.log).length = 1 ∧
      ∀ input ∈ stagedInputs (twoKeyframesSession 1).assembler.commands.log,
        ∀ camera ∈ LerobotEpisodeConservation.sampleConfig.cameras,
          FromKeyframe ((twoKeyframesSession 1).encoders camera.channelId).packets.log input
            camera.channelId :=
  ⟨by decide +kernel,
    staged_from_first_keyframe LerobotEpisodeConservation.sampleConfig 0 0 (fun _ => 32)
      (path_of_follows (l := twoKeyframes 1) (by decide +kernel)) (by decide +kernel)⟩

/-- The first keyframe is taken one iteration ahead of the start, and the episode is staged
without it. -/
theorem overtaken_start_beheads : ¬ ∀ config nextIndex prior queueSize s,
    Run (fun _ _ => True) (initial config nextIndex prior queueSize) s → Counting s →
    ∀ input ∈ stagedInputs s.assembler.commands.log, ∀ camera ∈ config.cameras,
      FromKeyframe (s.encoders camera.channelId).packets.log input camera.channelId := by
  intro hall
  have h := hall LerobotEpisodeConservation.sampleConfig 0 0 (fun _ => 32) _
    (path_of_follows (l := twoKeyframes 0) (by decide +kernel)) (by decide +kernel)
  exact absurd h (by decide +kernel)

example : (stagedInputs (twoKeyframesSession 1).assembler.commands.log).map (fun input =>
    input.cameraStreams["cam0"]?.map fun b => b.packets.map fun r =>
      r.header.sequenceNumber.toNat) = [some [0, 1]] := by decide +kernel

example : (stagedInputs (twoKeyframesSession 0).assembler.commands.log).map (fun input =>
    input.cameraStreams["cam0"]?.map fun b => b.packets.map fun r =>
      r.header.sequenceNumber.toNat) = [some [1]] := by decide +kernel

end HeadOfEpisode
