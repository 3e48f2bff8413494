import Mathlib.Data.List.Nodup

/-! Logs of messages that carry the tag of a channel, where a channel is declared with its topic
before its messages: what is read under a topic is what was put there. -/
namespace ChannelLogs

structure Log (ι τ μ : Type) where
  channels : List (ι × τ) := []
  messages : List (ι × μ) := []

variable {ι τ μ : Type}

/-- The messages whose tag is that of a channel of the topic. -/
def Log.on [DecidableEq ι] [DecidableEq τ] (log : Log ι τ μ) (topic : τ) : List μ :=
  (log.messages.filter fun m => decide ((m.1, topic) ∈ log.channels)).map Prod.snd

def Log.extend (log : Log ι τ μ) (tag : ι) (topic : τ) (messages : List μ) : Log ι τ μ where
  channels := log.channels ++ [(tag, topic)]
  messages := log.messages ++ messages.map (Prod.mk tag)

/-- A log that has been laid one stream after the other, each of them with a tag of its own. -/
inductive Laid : List (τ × List μ) → Log ι τ μ → Prop
  | empty : Laid [] {}
  | stream {streams : List (τ × List μ)} {log : Log ι τ μ} {tag : ι} {topic : τ}
      {messages : List μ} (before : Laid streams log)
      (own : ∀ channel ∈ log.channels, channel.1 ≠ tag) :
      Laid (streams ++ [(topic, messages)]) (log.extend tag topic messages)

section Laws
variable {streams : List (τ × List μ)} {log : Log ι τ μ}

theorem Laid.topics (h : Laid streams log) :
    log.channels.map Prod.snd = streams.map Prod.fst := by
  induction h with
  | empty => rfl
  | stream before own ih => rw [Log.extend, List.map_append, List.map_append, ih]; rfl

theorem Laid.tags (h : Laid streams log) : (log.channels.map Prod.fst).Nodup := by
  induction h with
  | empty => exact List.nodup_nil
  | @stream streams log tag topic messages before own ih =>
    rw [Log.extend, List.map_append, List.nodup_append]
    refine ⟨ih, List.nodup_singleton _, ?_⟩
    intro a ha b hb
    obtain ⟨channel, hchannel, rfl⟩ := List.mem_map.mp ha
    obtain rfl : b = tag := List.mem_singleton.mp hb
    exact own channel hchannel

theorem Laid.declared (h : Laid streams log) :
    ∀ message ∈ log.messages, message.1 ∈ log.channels.map Prod.fst := by
  induction h with
  | empty => exact fun message hmessage => absurd hmessage List.not_mem_nil
  | @stream streams log tag topic messages before own ih =>
    intro message hmessage
    rw [Log.extend, List.map_append, List.mem_append]
    rcases List.mem_append.mp hmessage with hmessage | hmessage
    · exact Or.inl (ih message hmessage)
    · obtain ⟨m, -, rfl⟩ := List.mem_map.mp hmessage
      exact Or.inr List.mem_cons_self

variable [DecidableEq ι] [DecidableEq τ]

/-- What was there is read as before if the new topic is another one. -/
theorem Log.on_extend {tag : ι} {topic topic' : τ}
    (own : ∀ channel ∈ log.channels, channel.1 ≠ tag) (hne : topic' ≠ topic)
    (messages : List μ) : (log.extend tag topic messages).on topic' = log.on topic' := by
  have hold : (log.messages.filter fun m =>
      decide ((m.1, topic') ∈ log.channels ++ [(tag, topic)])) =
      log.messages.filter fun m => decide ((m.1, topic') ∈ log.channels) := by
    apply List.filter_congr
    intro m _
    rw [decide_eq_decide, List.mem_append, List.mem_singleton, Prod.mk.injEq]
    exact ⟨fun h => h.resolve_right fun h => hne h.2, Or.inl⟩
  have hnew : ((messages.map (Prod.mk tag)).filter fun m =>
      decide ((m.1, topic') ∈ log.channels ++ [(tag, topic)])) = [] := by
    rw [List.filter_eq_nil_iff]
    intro m hm
    obtain ⟨message, -, rfl⟩ := List.mem_map.mp hm
    rw [decide_eq_true_iff, List.mem_append, List.mem_singleton, Prod.mk.injEq]
    rintro (hmem | ⟨-, htopic⟩)
    · exact own _ hmem rfl
    · exact hne htopic
  rw [Log.on, Log.extend, List.filter_append, hold, hnew, List.append_nil, Log.on]

theorem Laid.on_own (h : Laid streams log) {tag : ι} {topic : τ}
    (own : ∀ channel ∈ log.channels, channel.1 ≠ tag)
    (hnew : ∀ channel ∈ log.channels, channel.2 ≠ topic) (messages : List μ) :
    (log.extend tag topic messages).on topic = messages := by
  have hold : (log.messages.filter fun m =>
      decide ((m.1, topic) ∈ log.channels ++ [(tag, topic)])) = [] := by
    rw [List.filter_eq_nil_iff]
    intro m hm
    rw [decide_eq_true_iff, List.mem_append, List.mem_singleton, Prod.mk.injEq]
    rintro (hmem | ⟨htag, -⟩)
    · exact hnew _ hmem rfl
    · obtain ⟨channel, hchannel, heq⟩ := List.mem_map.mp (h.declared m hm)
      exact own channel hchannel (heq.trans htag)
  have hall : ((messages.map (Prod.mk tag)).filter fun m =>
      decide ((m.1, topic) ∈ log.channels ++ [(tag, topic)])) = messages.map (Prod.mk tag) := by
    rw [List.filter_eq_self]
    intro m hm
    obtain ⟨message, -, rfl⟩ := List.mem_map.mp hm
    rw [decide_eq_true_iff]
    exact List.mem_append_right _ List.mem_cons_self
  rw [Log.on, Log.extend, List.filter_append, hold, hall, List.nil_append, List.map_map]
  exact List.map_id messages

/-- Under the topic of a stream its messages are read, all of them and nothing else. -/
theorem Laid.on (h : Laid streams log) (htopics : (streams.map Prod.fst).Nodup) :
    ∀ stream ∈ streams, log.on stream.1 = stream.2 := by
  induction h with
  | empty => exact fun stream hstream => absurd hstream List.not_mem_nil
  | @stream streams log tag topic messages before own ih =>
    rw [List.map_append, List.nodup_append] at htopics
    obtain ⟨hbefore, -, hapart⟩ := htopics
    have hne : ∀ other ∈ streams, other.1 ≠ topic := fun other hother =>
      hapart _ (List.mem_map_of_mem hother) _ List.mem_cons_self
    intro stream hstream
    rcases List.mem_append.mp hstream with hstream | hstream
    · rw [Log.on_extend own (hne stream hstream), ih hbefore stream hstream]
    · obtain rfl := List.mem_singleton.mp hstream
      refine before.on_own own (fun channel hchannel => ?_) messages
      have htopic : channel.2 ∈ streams.map Prod.fst := by
        rw [← before.topics]
        exact List.mem_map_of_mem hchannel
      exact hapart _ htopic _ List.mem_cons_self

end Laws

end ChannelLogs
