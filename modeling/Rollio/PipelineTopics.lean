import Rollio.CollectPipeline

/-! What holds in every state of a session as long as the episode counter lasts: everyone
listens to one control topic that follows the lifecycle protocol. -/
namespace PipelineTopics
open BusMessages RuntimeConfig Clocks ControllerEpisode LerobotEpisodeManager LerobotDispatch
open Queues PartialRuns ControlEvents CollectPipeline
open EncoderProcess (Encoder EncoderAction)
open CollectLoop (Controller ControllerAction)
open AssemblerProcess (Assembler AssemblerAction)

/-- The episode counter has not reached its top. -/
def Counting (s : State) : Prop := s.controller.gate.lifecycle.nextEpisodeIndex < u32Max

instance (s : State) : Decidable (Counting s) := inferInstanceAs (Decidable (_ < _))

structure Topics (config : AssemblerRuntimeConfigV2) (n₀ : ℕ) (s : State) : Prop where
  protocol : Protocol n₀ s.controller.gate.lifecycle s.controller.emitted
  assemblerControl : s.assembler.control.log = s.controller.topic
  encoderControl : ∀ channelId, (s.encoders channelId).control.log = s.controller.topic
  stored : s.assembler.stored.log = s.controller.stored.log
  configured : s.assembler.manager.config = config
  channels : s.assembler.manager.cameraChannelIds = config.cameras.map (·.channelId)
  keyed : Keyed s.assembler.manager

variable {config : AssemblerRuntimeConfigV2} {n₀ : ℕ} {s : State}

theorem initial_topics (config : AssemblerRuntimeConfigV2) (nextIndex prior : UInt32)
    (queueSize : String → ℕ) :
    Topics config nextIndex.toNat (initial config nextIndex prior queueSize) where
  protocol := protocol_resume {} rfl nextIndex prior
  assemblerControl := rfl
  encoderControl := fun _ => rfl
  stored := rfl
  configured := rfl
  channels := rfl
  keyed := by simp [Keyed, initial, Assembler.initial, EpisodeManager.new]

theorem takePacket_cases (s : State) : s.takePacket = s ∨
    ∃ channelId header payload packets, s.visited = some channelId ∧
      (s.encoders channelId).packets.pop = some ((header, payload), packets) ∧
      s.takePacket = { s with
        assembler := { s.assembler with
          manager := s.assembler.manager.onPacket channelId header payload }
        encoders := Function.update s.encoders channelId
          { s.encoders channelId with packets := packets } } := by
  unfold State.takePacket
  split
  · exact Or.inl rfl
  · next channelId hv =>
    simp only
    split
    · exact Or.inl rfl
    · next header payload packets hpop =>
      exact Or.inr ⟨channelId, header, payload, packets, hv, hpop, rfl⟩

theorem next_counting {a : Action} (hc : Counting (next s a)) : Counting s := by
  cases a with
  | controller a => exact UInt32.lt_of_le_of_lt (CollectLoop.next_index_le s.controller a) hc
  | packet =>
    obtain he | ⟨_, _, _, _, -, -, he⟩ := takePacket_cases s <;> simp only [next, he] at hc <;>
      exact hc
  | _ => exact hc

/-- A property that each encoder's control topic keeps survives an update of one encoder. -/
theorem update_encoder {P : Encoder → Prop} {encoders : String → Encoder} {channelId : String}
    {e : Encoder} (h : ∀ c, P (encoders c)) (he : P e) :
    ∀ c, P (Function.update encoders channelId e c) := by
  intro c
  by_cases hc : c = channelId
  · rw [hc, Function.update_self]
    exact he
  · rw [Function.update_of_ne hc]
    exact h c

theorem next_preserves_topics (h : Topics config n₀ s) {a : Action} (ha : Enabled s a)
    (hc : Counting (next s a)) : Topics config n₀ (next s a) := by
  cases a with
  | controller a =>
    have ht := CollectLoop.next_topic (c := s.controller) ha
    exact {
      protocol := CollectLoop.next_protocol h.protocol hc
      assemblerControl := by
        rw [← h.assemblerControl, ← Queue.log_publish] at ht
        exact ht.symm
      encoderControl := fun channelId => by
        rw [← h.encoderControl channelId, ← Queue.log_publish] at ht
        exact ht.symm
      stored := h.stored.trans (CollectLoop.next_stored_log s.controller a).symm
      configured := h.configured
      channels := h.channels
      keyed := h.keyed }
  | assembler a =>
    have hs := AssemblerProcess.next_step ha
    exact {
      protocol := h.protocol
      assemblerControl := (AssemblerProcess.step_control_log hs).trans h.assemblerControl
      encoderControl := h.encoderControl
      stored := (AssemblerProcess.step_stored_log hs).trans h.stored
      configured := (AssemblerProcess.step_config hs h.keyed).1.trans h.configured
      channels := (AssemblerProcess.step_config hs h.keyed).2.trans h.channels
      keyed := AssemblerProcess.step_keyed hs h.keyed }
  | packet =>
    obtain he | ⟨channelId, header, payload, packets, -, -, he⟩ := takePacket_cases s <;>
      simp only [next, he]
    · exact h
    · exact {
        protocol := h.protocol
        assemblerControl := h.assemblerControl
        encoderControl := update_encoder (P := fun e => e.control.log = s.controller.topic)
          h.encoderControl (h.encoderControl channelId)
        stored := h.stored
        configured := h.configured
        channels := h.channels
        keyed := h.keyed.onPacket channelId header payload }
  | storage a =>
    exact {
      protocol := h.protocol
      assemblerControl := h.assemblerControl
      encoderControl := h.encoderControl
      stored := by
        simp only [next, State.publishStored, Queue.log_publish]
        rw [h.stored]
      configured := h.configured
      channels := h.channels
      keyed := h.keyed }
  | encoder channelId a =>
    exact {
      protocol := h.protocol
      assemblerControl := h.assemblerControl
      encoderControl := update_encoder (P := fun e => e.control.log = s.controller.topic)
        h.encoderControl ((EncoderProcess.next_control_log _ a).trans (h.encoderControl channelId))
      stored := h.stored
      configured := h.configured
      channels := h.channels
      keyed := h.keyed }

section Control

theorem topic_startsFirst (h : Topics config n₀ s) : StartsFirst s.controller.topic := by
  have hp := protocol_startsFirst h.protocol
  unfold Controller.topic
  split
  · refine List.pairwise_append.mpr ⟨hp, List.pairwise_singleton .., fun a _ b hb i hi => ?_⟩
    rw [List.mem_singleton.mp hb] at hi
    cases hi
  · simpa using hp

theorem topic_starts (c : Controller) : startIndices c.topic = startIndices c.emitted := by
  unfold Controller.topic
  split <;> simp [startIndices, List.filterMap_append, startIndex?]

theorem emitted_nodup (h : Topics config n₀ s) : (startIndices s.controller.emitted).Nodup :=
  topic_starts s.controller ▸ (topic_startsFirst h).nodup

theorem starts_split (h : Topics config n₀ s) : startIndices s.controller.emitted =
    startIndices s.assembler.control.received ++ startIndices s.assembler.control.pending := by
  rw [← startIndices_append, ← topic_starts, ← h.assemblerControl]
  rfl

theorem taken_start_new (h : Topics config n₀ s) {i : UInt32} {ts : UInt64}
    {control : Queue ControlEvent}
    (hpop : s.assembler.control.pop = some (.recordingStart i ts, control)) :
    i ∉ startIndices s.assembler.control.received := by
  intro hi
  have hn := emitted_nodup h
  rw [starts_split h, (Queue.pop_spec hpop).1] at hn
  exact (List.nodup_append.mp hn).2.2 i hi i List.mem_cons_self rfl

end Control

end PipelineTopics
