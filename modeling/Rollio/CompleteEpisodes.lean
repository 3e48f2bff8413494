import Rollio.EpisodeWhereabouts
import Rollio.HeadOfEpisode

/-! A kept episode whose camera streams have all ended. Its encoders publish nothing more of
it, so it stays whole at the assembler until a dispatch hands it to the staging worker. -/
namespace CompleteEpisodes
open BusMessages RuntimeConfig Clocks ControllerEpisode PacketDeliveries LerobotPackets
open LerobotDataset LerobotEpisodeManager LerobotDispatch OrderedTables Queues ControlEvents
open EncoderStreams EpisodeWhereabouts TerminalOutcomes
open EncoderProcess (Packet)
open AssemblerProcess (Assembler AssemblerAction Outbox)

def KeptComplete (m : EpisodeManager) (i : UInt32) : Prop :=
  ∃ e ∈ m.episodes[i]?, e.keepRequested = true ∧ e.failedCameras = [] ∧
    e.allCamerasEos m.config.cameras.length = true

instance (m : EpisodeManager) (i : UInt32) : Decidable (KeptComplete m i) :=
  Option.decidableExistsMem _

structure EndsReceived (channels : List String) (received : String → List Packet) (i : UInt32)
    (e : PendingEpisode) : Prop where
  channels : ∀ c ∈ e.cameraStreams, c ∈ channels
  ended : ∀ (c : String) (b : RecordingStreamBuffer), e.cameraStreams[c]? = some b →
    b.eosReceived = true → ∃ q ∈ received c, q.1.kind = .endOfStream ∧ q.1.episodeIndex = i

section Entries
variable {channels : List String} {received received' : String → List Packet} {i : UInt32}
  {e e' : PendingEpisode}

theorem endsReceived_new {startTimeUs : UInt64} :
    EndsReceived channels received i (.new i startTimeUs channels) := by
  constructor
  · intro c hc
    obtain ⟨b, hb⟩ := mem_iff_lookup.mp hc
    simp only [PendingEpisode.new, lookup_foldl_insert] at hb
    split at hb
    · assumption
    · simp at hb
  · intro c b hb he
    simp only [PendingEpisode.new, lookup_foldl_insert] at hb
    split at hb
    · cases hb
      cases he
    · simp at hb

theorem EndsReceived.of_same (h : EndsReceived channels received i e)
    (hs : EpisodeManager.SameStreams e e') : EndsReceived channels received i e' := by
  constructor
  · exact hs.cameraStreams ▸ h.channels
  · rw [hs.cameraStreams]
    exact h.ended

theorem EndsReceived.mono (h : EndsReceived channels received i e)
    (hr : ∀ c, received c ⊆ received' c) : EndsReceived channels received' i e := by
  constructor
  · exact h.channels
  · intro c b hb he
    obtain ⟨q, hq, hk⟩ := h.ended c b hb he
    exact ⟨q, hr c hq, hk⟩

theorem updateSequence_eos {b b' : RecordingStreamBuffer} {sequence : UInt64}
    (h : b.updateSequence sequence = .ok b') : b'.eosReceived = b.eosReceived := by
  unfold RecordingStreamBuffer.updateSequence at h
  split at h
  · cases h
    rfl
  · split at h
    · cases h
      rfl
    · cases h

theorem observe_eos {b : RecordingStreamBuffer} {d : Delivery}
    (h : (observe b d).eosReceived = true) : b.eosReceived = true ∨ d.isEos = true := by
  cases d with
  | eos hd => exact Or.inr rfl
  | packet hd p =>
    refine Or.inl ?_
    unfold observe RecordingStreamBuffer.observePacket at h
    simp only at h
    split at h
    · exact h
    · split at h
      · exact h
      · split at h
        · exact h
        · next hu => exact updateSequence_eos hu ▸ h

theorem EndsReceived.onPacket {header : EncodedPacketHeader} {payload : List UInt8} {c : String}
    (h : EndsReceived channels received header.episodeIndex e)
    (hc : received' c = received c ++ [(header, payload)])
    (hother : ∀ c', c' ≠ c → received' c' = received c') :
    EndsReceived channels received' header.episodeIndex
      (e.onPacket c (toDelivery header payload)) := by
  have hgrow : ∀ c', received c' ⊆ received' c' := by
    intro c'
    by_cases hcc : c' = c
    · rw [hcc, hc]
      exact List.subset_append_left ..
    · rw [hother c' hcc]
      exact List.Subset.refl _
  constructor
  · intro c' hmem
    apply h.channels c'
    rw [mem_iff_lookup] at hmem ⊢
    obtain ⟨b, hb⟩ := hmem
    rw [HeadOfEpisode.onPacket_stream] at hb
    split at hb
    · obtain ⟨b', hb', -⟩ := Option.map_eq_some_iff.mp hb
      exact ⟨b', hb'⟩
    · exact ⟨b, hb⟩
  · intro c' b hb heos
    rw [HeadOfEpisode.onPacket_stream] at hb
    split at hb
    · next hcc =>
      subst hcc
      obtain ⟨b', hb', rfl⟩ := Option.map_eq_some_iff.mp hb
      rcases observe_eos heos with hold | hnew
      · exact (h.mono hgrow).ended c' b' hb' hold
      · refine ⟨(header, payload), by rw [hc]; simp, ?_, rfl⟩
        cases hk : header.kind with
        | packet => simp [toDelivery, hk, Delivery.isEos] at hnew
        | endOfStream => rfl
    · exact (h.mono hgrow).ended c' b hb heos

theorem onPacket_of_missing {c : String} (d : Delivery) (h : e.cameraStreams[c]? = none) :
    e.onPacket c d = e := by
  unfold PendingEpisode.onPacket
  rw [h]

end Entries

structure Entries (a : Assembler) (packets : String → Queue Packet) : Prop where
  started : ∀ i ∈ a.manager.episodes, i ∈ startIndices a.control.received
  keeps : Keeps a
  stops : ∀ (i : UInt32) (e : PendingEpisode) (ts : UInt64), a.manager.episodes[i]? = some e →
    .recordingStop i ts ∈ a.control.received → e.stopTimeUs.isSome = true
  ends : ∀ (i : UInt32) (e : PendingEpisode), a.manager.episodes[i]? = some e →
    EndsReceived a.manager.cameraChannelIds (fun c => (packets c).received) i e

section Assembler
variable {a a' : Assembler} {action : AssemblerAction} {out : Outbox}
  {packets packets' : String → Queue Packet}

theorem stops_control {event : ControlEvent} {control : Queue ControlEvent} {nowUs : UInt64}
    (h : Entries a packets) (hfirst : StartsFirst a.control.log)
    (hpop : a.control.pop = some (event, control)) {i : UInt32} {e : PendingEpisode}
    {ts : UInt64} (he : (a.manager.onControlEvent event nowUs).2.episodes[i]? = some e)
    (hs : .recordingStop i ts ∈ control.received) : e.stopTimeUs.isSome = true := by
  obtain ⟨hp, hr⟩ := Queue.pop_spec hpop
  rw [EpisodeManager.onControlEvent_lookup] at he
  rw [hr, List.mem_append, List.mem_singleton] at hs
  cases event with
  | recordingStart k ts' =>
    have hold := hs.resolve_right (by simp)
    simp only at he
    split at he
    · next hik =>
      subst hik
      rw [Queue.log, hp] at hfirst
      exact absurd rfl (hfirst.fresh _ hold)
    · exact h.stops i e ts he hold
  | recordingStop k ts' =>
    simp only at he
    split at he
    · obtain ⟨e₀, -, rfl⟩ := Option.map_eq_some_iff.mp he
      rfl
    · next hik =>
      have hold := hs.resolve_right fun heq => hik (by cases heq; rfl)
      exact h.stops i e ts he hold
  | episodeKeep k =>
    have hold := hs.resolve_right (by simp)
    simp only at he
    split at he
    · obtain ⟨e₀, he₀, rfl⟩ := Option.map_eq_some_iff.mp he
      exact h.stops i e₀ ts he₀ hold
    · exact h.stops i e ts he hold
  | episodeDiscard k =>
    have hold := hs.resolve_right (by simp)
    simp only at he
    split at he
    · cases he
    · exact h.stops i e ts he hold
  | shutdown => exact h.stops i e ts he (hs.resolve_right (by simp))
  | modeSwitch mode => exact h.stops i e ts he (hs.resolve_right (by simp))

theorem Entries.control {event : ControlEvent} {control : Queue ControlEvent} {nowUs : UInt64}
    (h : Entries a packets) (hfirst : StartsFirst a.control.log)
    (hpop : a.control.pop = some (event, control)) (hcontrol : a'.control = control)
    (hmanager : a'.manager = (a.manager.onControlEvent event nowUs).2) :
    Entries a' packets := by
  obtain ⟨-, hr⟩ := Queue.pop_spec hpop
  constructor
  · intro i hi
    rw [hcontrol, hr, startIndices_append, List.mem_append]
    rw [hmanager, EpisodeManager.mem_onControlEvent] at hi
    cases event with
    | recordingStart k ts =>
      rcases hi with rfl | hi
      · exact Or.inr (by simp [startIndices, startIndex?])
      · exact Or.inl (h.started i hi)
    | episodeDiscard k => exact Or.inl (h.started i hi.2)
    | _ => exact Or.inl (h.started i hi)
  · intro i e he
    rw [hcontrol]
    rw [hmanager] at he
    exact keeps_control h.keeps hfirst hpop he
  · intro i e ts he hs
    rw [hmanager] at he
    exact stops_control h hfirst hpop he (hcontrol ▸ hs)
  · intro i e he
    rw [hmanager] at he ⊢
    rw [(EpisodeManager.frame_onControlEvent ..).cameraChannelIds]
    obtain ⟨ts, -, rfl⟩ | ⟨e₀, he₀, hsame⟩ := EpisodeManager.onControlEvent_entry he
    · exact endsReceived_new
    · exact (h.ends i e₀ he₀).of_same hsame

/-- A step that takes no control event and leaves the entries' recording alone. -/
theorem Entries.quiet (h : Entries a packets) (hc : a'.control = a.control)
    (hids : a'.manager.cameraChannelIds = a.manager.cameraChannelIds)
    (hm : ∀ (i : UInt32) (e' : PendingEpisode), a'.manager.episodes[i]? = some e' →
      ∃ e, a.manager.episodes[i]? = some e ∧ EpisodeManager.SameRecording e e') :
    Entries a' packets := by
  constructor
  · intro i hi
    obtain ⟨e', he'⟩ := mem_iff_lookup.mp hi
    obtain ⟨e, he, -⟩ := hm i e' he'
    exact hc ▸ h.started i (mem_iff_lookup.mpr ⟨e, he⟩)
  · intro i e' he'
    obtain ⟨e, he, hs⟩ := hm i e' he'
    rw [hs.keepRequested, hc]
    exact h.keeps i e he
  · intro i e' ts he' hstop
    obtain ⟨e, he, hs⟩ := hm i e' he'
    rw [hs.stopTimeUs]
    exact h.stops i e ts he (hc ▸ hstop)
  · intro i e' he'
    obtain ⟨e, he, hs⟩ := hm i e' he'
    rw [hids]
    exact (h.ends i e he).of_same hs.toSameStreams

theorem step_entries (h : Entries a packets) (hs : AssemblerProcess.Step a action a' out)
    (hk : Keyed a.manager) (hfirst : StartsFirst a.control.log) : Entries a' packets := by
  have keep (i : UInt32) (e : PendingEpisode) (he : a.manager.episodes[i]? = some e) :
      ∃ e', a.manager.episodes[i]? = some e' ∧ EpisodeManager.SameRecording e' e :=
    ⟨e, he, .refl e⟩
  cases hs with
  | control nowUs phase hphase hpop => exact h.control hfirst hpop rfl rfl
  | samples hframe hlookup hmem => exact h.quiet rfl hframe.cameraChannelIds hlookup
  | dispatch nowUs now hd =>
    refine h.quiet rfl (dispatched hk hd).cameraChannelIds fun i e he => ?_
    exact keep i e ((dispatched hk hd).survives i e he)
  | _ => exact h.quiet rfl rfl keep

theorem Entries.packet (h : Entries a packets) {c : String} {header : EncodedPacketHeader}
    {payload : List UInt8}
    (hr : (packets' c).received = (packets c).received ++ [(header, payload)])
    (hother : ∀ c', c' ≠ c → packets' c' = packets c') :
    Entries { a with manager := a.manager.onPacket c header payload } packets' := by
  have hsub : ∀ c', (packets c').received ⊆ (packets' c').received := by
    intro c'
    by_cases hc : c' = c
    · rw [hc, hr]
      exact List.subset_append_left ..
    · rw [hother c' hc]
      exact List.Subset.refl _
  have hentry (i : UInt32) (e' : PendingEpisode)
      (he' : (a.manager.onPacket c header payload).episodes[i]? = some e') :
      a.manager.episodes[i]? = some e' ∨ i = header.episodeIndex ∧
        ∃ e, a.manager.episodes[i]? = some e ∧ e' = e.onPacket c (toDelivery header payload) := by
    rw [EpisodeManager.onPacket_lookup] at he'
    split at he'
    · next hi =>
      obtain ⟨e, he, rfl⟩ := Option.map_eq_some_iff.mp he'
      exact Or.inr ⟨hi, e, he, rfl⟩
    · exact Or.inl he'
  constructor
  · intro i hi
    exact h.started i ((EpisodeManager.mem_onPacket ..).mp hi)
  · intro i e' he'
    obtain he | ⟨-, e, he, rfl⟩ := hentry i e' he'
    · exact h.keeps i e' he
    · rw [e.onPacket_keepRequested]
      exact h.keeps i e he
  · intro i e' ts he' hs
    obtain he | ⟨-, e, he, rfl⟩ := hentry i e' he'
    · exact h.stops i e' ts he hs
    · rw [e.onPacket_stopTimeUs]
      exact h.stops i e ts he hs
  · intro i e' he'
    obtain he | ⟨rfl, e, he, rfl⟩ := hentry i e' he'
    · exact (h.ends i e' he).mono hsub
    · exact (h.ends _ e he).onPacket hr fun c' hc => by rw [hother c' hc]

theorem Entries.mono (h : Entries a packets)
    (hr : ∀ c, (packets' c).received = (packets c).received) : Entries a packets' := by
  constructor
  · exact h.started
  · exact h.keeps
  · exact h.stops
  · intro i e he
    exact (h.ends i e he).mono fun c => by rw [hr c]; exact List.Subset.refl _

end Assembler

section Complete
variable {a a' : Assembler} {action : AssemblerAction} {out : Outbox}
  {packets packets' : String → Queue Packet} {i : UInt32}

/-- A kept and complete episode is ready, whatever the clock says. -/
theorem KeptComplete.ready (h : KeptComplete a.manager i) (hent : Entries a packets)
    (hfirst : StopsFirst a.control.log) (nowUs : UInt64) : i ∈ scan a.manager nowUs .ready := by
  obtain ⟨e, he, hkeep, hfail, heos⟩ := h
  have hreceived := (hent.keeps i e he).mp hkeep
  obtain ⟨ts, hts⟩ := StopsFirst.stopped (l := a.control.received) hfirst.of_append hreceived
  have hstop := hent.stops i e ts he hts
  obtain ⟨stop, hstop⟩ := Option.isSome_iff_exists.mp hstop
  refine mem_scan.mpr ⟨e, he, ?_⟩
  simp [verdict, hkeep, hfail, heos, hstop]

theorem KeptComplete.of_entry {m m' : EpisodeManager} (h : KeptComplete m i)
    (hcfg : m'.config = m.config)
    (hm : ∀ e : PendingEpisode, m.episodes[i]? = some e → e.keepRequested = true →
      ∃ e' : PendingEpisode, m'.episodes[i]? = some e' ∧ e'.keepRequested = true ∧
        e'.cameraStreams = e.cameraStreams ∧ e'.failedCameras = e.failedCameras) :
    KeptComplete m' i := by
  obtain ⟨e, he, hkeep, hfail, heos⟩ := h
  obtain ⟨e', he', hkeep', hstreams, hfailed⟩ := hm e he hkeep
  refine ⟨e', he', hkeep', hfailed.trans hfail, ?_⟩
  rw [hcfg, PendingEpisode.allCamerasEos, hstreams]
  exact heos

theorem KeptComplete.control (h : KeptComplete a.manager i) (hent : Entries a packets)
    {event : ControlEvent} {control : Queue ControlEvent} {nowUs : UInt64}
    (hpop : a.control.pop = some (event, control)) (hkept : KeptOnly a.control.log)
    (hnew : ∀ j ∈ startIndex? event, j ∉ startIndices a.control.received) :
    KeptComplete (a.manager.onControlEvent event nowUs).2 i := by
  have hmem : i ∈ a.manager.episodes := by
    obtain ⟨e, he, -⟩ := h
    exact mem_iff_lookup.mpr ⟨e, he⟩
  refine h.of_entry (EpisodeManager.frame_onControlEvent ..).config fun e he hkeep => ?_
  rw [EpisodeManager.onControlEvent_lookup]
  cases event with
  | recordingStart k ts =>
    have hik : i ≠ k := fun hik => hnew k rfl (hik ▸ hent.started i hmem)
    exact ⟨e, by simpa [hik] using he, hkeep, rfl, rfl⟩
  | recordingStop k ts =>
    by_cases hik : i = k
    · exact ⟨e.onStop ts nowUs, by simp [hik ▸ he, hik], hkeep, rfl, rfl⟩
    · exact ⟨e, by simpa [hik] using he, hkeep, rfl, rfl⟩
  | episodeKeep k =>
    by_cases hik : i = k
    · exact ⟨e.onKeep nowUs, by simp [hik ▸ he, hik], rfl, rfl, rfl⟩
    · exact ⟨e, by simpa [hik] using he, hkeep, rfl, rfl⟩
  | episodeDiscard k =>
    have hik : i ≠ k := by
      intro hik
      subst hik
      have hreceived := (hent.keeps i e he).mp hkeep
      exact hkept i (List.mem_append_left _ hreceived) (Queue.mem_log_of_pop hpop)
    exact ⟨e, by simpa [hik] using he, hkeep, rfl, rfl⟩
  | shutdown => exact ⟨e, he, hkeep, rfl, rfl⟩
  | modeSwitch mode => exact ⟨e, he, hkeep, rfl, rfl⟩

/-- A dispatch finds a free slot for every ready episode. -/
def Roomy (a : Assembler) : AssemblerAction → Prop
  | .dispatch nowUs _ => Room a.manager nowUs
  | _ => True

instance (a : Assembler) : (action : AssemblerAction) → Decidable (Roomy a action)
  | .dispatch nowUs _ => inferInstanceAs (Decidable (Room a.manager nowUs))
  | .takeControl _ | .controlDrained | .nextSubscriber | .observation .. | .observationsDrained
  | .action .. | .actionsDrained | .takeStored | .storedDrained | .sweep _ | .takeEvent
  | .eventsDrained | .stage _ => isTrue trivial

/-- A kept and complete episode leaves the manager for the staging worker only. -/
theorem step_complete (hs : AssemblerProcess.Step a action a' out) (hk : Keyed a.manager)
    (hent : Entries a packets) (hkept : KeptOnly a.control.log)
    (hfirst : StopsFirst a.control.log) (hroom : Roomy a action)
    (hnew : ∀ event control, a.control.pop = some (event, control) →
      ∀ j ∈ startIndex? event, j ∉ startIndices a.control.received)
    (h : KeptComplete a.manager i) : KeptComplete a'.manager i ∨ i ∈ staging a' := by
  cases hs with
  | control nowUs phase hphase hpop => exact Or.inl (h.control hent hpop hkept (hnew _ _ hpop))
  | samples hframe hlookup hmem =>
    refine Or.inl (h.of_entry hframe.config fun e he hkeep => ?_)
    obtain ⟨e', he'⟩ := mem_iff_lookup.mp ((hmem i).mpr (mem_iff_lookup.mpr ⟨e, he⟩))
    obtain ⟨e₀, he₀, hsame⟩ := hlookup i e' he'
    obtain rfl := Option.some.inj (he.symm.trans he₀)
    exact ⟨e', he', hsame.keepRequested.trans hkeep, hsame.cameraStreams, hsame.failedCameras⟩
  | dispatch nowUs now hd =>
    refine Or.inr (List.mem_append_left _ ?_)
    rw [Queue.pending_publish, stagedIndices_append]
    exact List.mem_append_right _ (ready_staged hk hroom hd (h.ready hent hfirst nowUs))
  | _ => exact Or.inl h

theorem KeptComplete.packet (h : KeptComplete a.manager i) (hent : Entries a packets)
    (hids : a.manager.config.cameras.length = a.manager.cameraChannelIds.length)
    {c : String} {header : EncodedPacketHeader} {payload : List UInt8} {rest : Queue Packet}
    (hpop : (packets c).pop = some ((header, payload), rest))
    (hordered : (packets c).log.Pairwise Closes) :
    KeptComplete (a.manager.onPacket c header payload) i := by
  refine h.of_entry rfl fun e he hkeep => ?_
  rw [EpisodeManager.onPacket_lookup]
  by_cases hi : i = header.episodeIndex
  · have hmissing : e.cameraStreams[c]? = none := by
      by_contra hsome
      obtain ⟨b, hb⟩ := Option.ne_none_iff_exists'.mp hsome
      obtain ⟨e₀, he₀, -, -, heos⟩ := h
      obtain rfl := Option.some.inj (he.symm.trans he₀)
      have hends := hent.ends i e he
      have hend := forall_values (p := (·.eosReceived)) hends.channels
        ((eq_of_beq heos).trans hids) hb
      obtain ⟨q, hq, hkind, hidx⟩ := hends.ended c b hb hend
      rw [Queue.log, (Queue.pop_spec hpop).1] at hordered
      have hclosed := (List.pairwise_append.mp hordered).2.2 q hq (header, payload)
        List.mem_cons_self hkind
      exact hclosed (hidx.trans hi)
    refine ⟨e, ?_, hkeep, rfl, rfl⟩
    rw [if_pos hi, he, Option.map_some, onPacket_of_missing _ hmissing]
  · exact ⟨e, by rw [if_neg hi]; exact he, hkeep, rfl, rfl⟩

end Complete

end CompleteEpisodes
