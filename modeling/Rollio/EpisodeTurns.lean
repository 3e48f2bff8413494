import Rollio.AssemblerProcess
import Rollio.CollectLoop

/-! One episode at a time. Whatever its counter does, the controller opens an episode only
after it has closed the one before, so an assembler has at most one entry that is not kept. -/
namespace EpisodeTurns
open BusMessages RuntimeConfig Clocks ControllerEpisode LerobotDataset LerobotEpisodeManager
open LerobotDispatch OrderedTables Queues CollectLoop
open AssemblerProcess (Assembler AssemblerAction Outbox)

def takes : Option (UInt32 × Bool) → ControlEvent → Option (Option (UInt32 × Bool))
  | none, .recordingStart i _ => some (some (i, false))
  | some (i, false), .recordingStop k _ => if i = k then some (some (i, true)) else none
  | some (i, true), .episodeKeep k => if i = k then some none else none
  | some (i, true), .episodeDiscard k => if i = k then some none else none
  | _, _ => none

def turn (events : List ControlEvent) : Option (Option (UInt32 × Bool)) :=
  events.foldlM takes none

def current (l : EpisodeLifecycle) : Option (UInt32 × Bool) :=
  match l.state with
  | .idle => none
  | .recording => some (l.nextEpisodeIndex, false)
  | .pending => some (l.nextEpisodeIndex, true)

section Turns
variable {events : List ControlEvent} {o : Option (UInt32 × Bool)}

theorem turn_append (l m : List ControlEvent) :
    turn (l ++ m) = (turn l).bind fun o => m.foldlM takes o := List.foldlM_append

theorem turn_concat (event : ControlEvent) (h : turn events = some o) :
    turn (events ++ [event]) = takes o event := by
  rw [turn_append, h, Option.bind_some, List.foldlM_cons]
  cases takes o event <;> rfl

theorem takes_shutdown (o : Option (UInt32 × Bool)) : takes o .shutdown = none := by
  rcases o with _ | ⟨i, _ | _⟩ <;> rfl

theorem turn_no_shutdown (h : turn events = some o) : .shutdown ∉ events := by
  intro hs
  obtain ⟨l, m, rfl⟩ := List.append_of_mem hs
  rw [turn_append] at h
  obtain ⟨o', -, hm⟩ := Option.bind_eq_some_iff.mp h
  rw [List.foldlM_cons, takes_shutdown] at hm
  cases hm

theorem turn_of_append {l m : List ControlEvent} (h : turn (l ++ m) = some o) :
    ∃ o', turn l = some o' := by
  rw [turn_append] at h
  obtain ⟨o', ho', -⟩ := Option.bind_eq_some_iff.mp h
  exact ⟨o', ho'⟩

end Turns

section Controller

theorem handleCommand_takes {l : EpisodeLifecycle} {command : EpisodeCommand} {now : Instant}
    {nowUs : UInt64} {event : ControlEvent}
    (h : (l.handleCommand command now nowUs).1 = .ok event) :
    takes (current l) event = some (current (l.handleCommand command now nowUs).2) := by
  obtain ⟨hs, -, rfl, he⟩ | ⟨hs, -, rfl, he⟩ | ⟨hs, -, rfl, he⟩ | ⟨hs, -, rfl, he⟩ :=
    handleCommand_cases h <;> rw [he] <;> simp [current, hs, takes]

theorem current_congr {l l' : EpisodeLifecycle} (hs : l'.state = l.state)
    (hn : l'.nextEpisodeIndex = l.nextEpisodeIndex) : current l' = current l := by
  rw [current, current, hs, hn]

theorem collectControlEvents_turn {now : Instant} {gate : Gate} {emitted : List ControlEvent}
    (h : turn emitted = some (current gate.lifecycle))
    (commands : List (EpisodeCommand × UInt64)) :
    turn (emitted ++ (collectControlEvents gate commands now).events) =
      some (current (collectControlEvents gate commands now).gate.lifecycle) := by
  induction commands using List.reverseRecOn with
  | nil => simpa [collectControlEvents] using h
  | append_singleton commands command ih =>
    rw [collectControlEvents_concat]
    obtain he | ⟨event, -, hok, he⟩ := collectControlEvent_cases now
      (collectControlEvents gate commands now) command <;> rw [he]
    · exact ih
    · rw [← List.append_assoc, turn_concat event ih]
      exact handleCommand_takes hok

theorem next_turn {c : Controller} (h : turn c.emitted = some (current c.gate.lifecycle))
    (a : ControllerAction) : turn (next c a).1.emitted =
      some (current (next c a).1.gate.lifecycle) := by
  cases a with
  | drainStored n =>
    obtain ⟨hs, hn⟩ := applyEpisodeStoredEvents_frame c.gate (c.stored.pending.take n)
    exact h.trans (congrArg some (current_congr hs hn).symm)
  | drainCommands commands now statusNow => exact collectControlEvents_turn h commands
  | _ => exact h

end Controller

section Assembler

def Timed (m : EpisodeManager) (w : UInt64) : Prop :=
  w.toNat + saturatingMul m.config.missingEosTimeoutMs 1000 < u64Max

instance (m : EpisodeManager) (w : UInt64) : Decidable (Timed m w) :=
  inferInstanceAs (Decidable (_ < _))

/-- A stopped entry whose wait for the ends of its streams can time out. -/
def Stopped (m : EpisodeManager) (e : PendingEpisode) : Prop :=
  e.stopTimeUs.isSome = true ∧ ∃ w, e.readyWaitStartedUs = some w ∧ Timed m w

/-- Only the open episode's entry is not kept, and whatever was stopped waits for its end. -/
structure Attends (o : Option (UInt32 × Bool)) (m : EpisodeManager) : Prop where
  unkept : ∀ (i : UInt32) (e : PendingEpisode), m.episodes[i]? = some e →
    e.keepRequested = false → ∃ stopped, o = some (i, stopped)
  kept : ∀ (i : UInt32) (e : PendingEpisode), m.episodes[i]? = some e →
    e.keepRequested = true → Stopped m e
  stopped : ∀ (i : UInt32) (e : PendingEpisode), m.episodes[i]? = some e →
    o = some (i, true) → Stopped m e

variable {m m' : EpisodeManager} {o o' : Option (UInt32 × Bool)}

theorem Attends.of_entries (h : Attends o m) (hcfg : m'.config = m.config)
    (hm : ∀ (i : UInt32) (e' : PendingEpisode), m'.episodes[i]? = some e' →
      ∃ e, m.episodes[i]? = some e ∧ e'.keepRequested = e.keepRequested ∧
        e'.stopTimeUs = e.stopTimeUs ∧ e'.readyWaitStartedUs = e.readyWaitStartedUs) :
    Attends o m' := by
  have hstop {e e' : PendingEpisode} (hs : e'.stopTimeUs = e.stopTimeUs)
      (hw : e'.readyWaitStartedUs = e.readyWaitStartedUs) (h : Stopped m e) : Stopped m' e' := by
    obtain ⟨hstop, w, hwait, htime⟩ := h
    exact ⟨hs ▸ hstop, w, hw.trans hwait, by rw [Timed, hcfg]; exact htime⟩
  constructor
  · intro i e' he' hk
    obtain ⟨e, he, hkeep, -, -⟩ := hm i e' he'
    exact h.unkept i e he (hkeep ▸ hk)
  · intro i e' he' hk
    obtain ⟨e, he, hkeep, hs, hw⟩ := hm i e' he'
    exact hstop hs hw (h.kept i e he (hkeep ▸ hk))
  · intro i e' he' ho
    obtain ⟨e, he, -, hs, hw⟩ := hm i e' he'
    exact hstop hs hw (h.stopped i e he ho)

theorem attends_initial (config : AssemblerRuntimeConfigV2) :
    Attends none (EpisodeManager.new config) := by
  constructor <;> simp [EpisodeManager.new]

theorem Attends.start (h : Attends none m) (i : UInt32) (ts nowUs : UInt64) :
    Attends (some (i, false)) (m.onControlEvent (.recordingStart i ts) nowUs).2 := by
  have hlook (k : UInt32) := EpisodeManager.onControlEvent_lookup m (.recordingStart i ts) nowUs k
  constructor
  · intro k e he hk
    rw [hlook] at he
    simp only at he
    split at he
    · next hki => exact ⟨false, by rw [hki]⟩
    · obtain ⟨_, ho⟩ := h.unkept k e he hk
      cases ho
  · intro k e he hk
    rw [hlook] at he
    simp only at he
    split at he
    · cases he
      cases hk
    · exact h.kept k e he hk
  · intro k e he ho
    cases ho

theorem Attends.stop {i : UInt32} (h : Attends (some (i, false)) m) (ts : UInt64)
    {nowUs : UInt64} (htime : Timed m nowUs) :
    Attends (some (i, true)) (m.onControlEvent (.recordingStop i ts) nowUs).2 := by
  have hlook (k : UInt32) := EpisodeManager.onControlEvent_lookup m (.recordingStop i ts) nowUs k
  have hcfg := (EpisodeManager.frame_onControlEvent m (.recordingStop i ts) nowUs).config
  have htime' : Timed (m.onControlEvent (.recordingStop i ts) nowUs).2 nowUs := by
    rw [Timed, hcfg]
    exact htime
  have hframe {e : PendingEpisode} (hs : Stopped m e) :
      Stopped (m.onControlEvent (.recordingStop i ts) nowUs).2 e := by
    unfold Stopped Timed at hs ⊢
    rw [hcfg]
    exact hs
  constructor
  · intro k e he hk
    rw [hlook] at he
    simp only at he
    split at he
    · next hki => exact ⟨true, by rw [hki]⟩
    · obtain ⟨_, ho⟩ := h.unkept k e he hk
      cases ho
      exact ⟨true, rfl⟩
  · intro k e he hk
    rw [hlook] at he
    simp only at he
    split at he
    · obtain ⟨e₀, -, rfl⟩ := Option.map_eq_some_iff.mp he
      exact ⟨rfl, nowUs, rfl, htime'⟩
    · exact hframe (h.kept k e he hk)
  · intro k e he ho
    cases ho
    rw [hlook] at he
    simp only [if_true] at he
    obtain ⟨e₀, -, rfl⟩ := Option.map_eq_some_iff.mp he
    exact ⟨rfl, nowUs, rfl, htime'⟩

theorem Attends.keep {i : UInt32} (h : Attends (some (i, true)) m) (nowUs : UInt64) :
    Attends none (m.onControlEvent (.episodeKeep i) nowUs).2 := by
  have hlook (k : UInt32) := EpisodeManager.onControlEvent_lookup m (.episodeKeep i) nowUs k
  constructor
  · intro k e he hk
    rw [hlook] at he
    simp only at he
    split at he
    · obtain ⟨e₀, -, rfl⟩ := Option.map_eq_some_iff.mp he
      cases hk
    · next hki =>
      obtain ⟨_, ho⟩ := h.unkept k e he hk
      cases ho
      exact absurd rfl hki
  · intro k e he hk
    rw [hlook] at he
    simp only at he
    split at he
    · next hki =>
      subst hki
      obtain ⟨e₀, he₀, rfl⟩ := Option.map_eq_some_iff.mp he
      obtain ⟨hs, w, hw, htime⟩ := h.stopped k e₀ he₀ rfl
      exact ⟨hs, w, by simp [PendingEpisode.onKeep, hw], htime⟩
    · exact h.kept k e he hk
  · intro k e he ho
    cases ho

theorem Attends.discard {i : UInt32} (h : Attends (some (i, true)) m) (nowUs : UInt64) :
    Attends none (m.onControlEvent (.episodeDiscard i) nowUs).2 := by
  have hlook (k : UInt32) := EpisodeManager.onControlEvent_lookup m (.episodeDiscard i) nowUs k
  have hcfg := (EpisodeManager.frame_onControlEvent m (.episodeDiscard i) nowUs).config
  constructor
  · intro k e he hk
    rw [hlook] at he
    simp only at he
    split at he
    · cases he
    · next hki =>
      obtain ⟨_, ho⟩ := h.unkept k e he hk
      cases ho
      exact absurd rfl hki
  · intro k e he hk
    rw [hlook] at he
    simp only at he
    split at he
    · cases he
    · have hs := h.kept k e he hk
      unfold Stopped Timed at hs ⊢
      rw [hcfg]
      exact hs
  · intro k e he ho
    cases ho

/-- Each event that fits is followed by the entries. -/
theorem Attends.control (h : Attends o m) {event : ControlEvent} {nowUs : UInt64}
    (ht : takes o event = some o') (htime : Timed m nowUs) :
    Attends o' (m.onControlEvent event nowUs).2 := by
  rcases o with _ | ⟨i, _ | _⟩ <;> cases event <;> simp only [takes] at ht <;> try cases ht
  · exact h.start _ _ nowUs
  · split at ht
    · next hik =>
      cases ht
      subst hik
      exact h.stop _ htime
    · cases ht
  · split at ht
    · next hik =>
      cases ht
      subst hik
      exact h.keep nowUs
    · cases ht
  · split at ht
    · next hik =>
      cases ht
      subst hik
      exact h.discard nowUs
    · cases ht

end Assembler

end EpisodeTurns
