import Rollio.BusMessages
import Rollio.Clocks
import Mathlib.Data.Finset.Card

/-! The controller's episode lifecycle. Operator commands and stored notices share one
index counter; every emitted event is kept as history. -/
namespace ControllerEpisode
open BusMessages Clocks

structure EpisodeLifecycle where
  state : EpisodeState := .idle
  episodeCount : UInt32 := 0
  nextEpisodeIndex : UInt32 := 0
  recordingStartedAt : Option Instant := none
  pendingElapsedMs : UInt64 := 0
  storedEpisodeIndices : Finset UInt32 := ∅
  deriving DecidableEq

namespace EpisodeLifecycle

def elapsedMs (l : EpisodeLifecycle) (now : Instant) : UInt64 :=
  match l.state with
  | .idle => 0
  | .recording =>
    match l.recordingStartedAt with
    | some startedAt => asMillis (now - startedAt)
    | none => 0
  | .pending => l.pendingElapsedMs

def status (l : EpisodeLifecycle) (now : Instant) : EpisodeStatus :=
  ⟨l.state, l.episodeCount, l.elapsedMs now⟩

def resumeFromPriorRecordings (l : EpisodeLifecycle)
    (nextEpisodeIndex priorStoredEpisodeCount : UInt32) : EpisodeLifecycle :=
  { l with nextEpisodeIndex := nextEpisodeIndex, episodeCount := priorStoredEpisodeCount }

def recordEpisodeStored (l : EpisodeLifecycle) (episodeIndex : UInt32) :
    Bool × EpisodeLifecycle :=
  if l.nextEpisodeIndex ≤ episodeIndex then (false, l)
  else if episodeIndex ∈ l.storedEpisodeIndices then (false, l)
  else (true, { l with
    storedEpisodeIndices := insert episodeIndex l.storedEpisodeIndices
    episodeCount := saturatingSucc l.episodeCount })

/-- `nowUs` is the wall-clock reading stamped on the event. -/
def handleCommand (l : EpisodeLifecycle) (command : EpisodeCommand) (now : Instant)
    (nowUs : UInt64) : Except String ControlEvent × EpisodeLifecycle :=
  match l.state, command with
  | .idle, .start =>
    (.ok (.recordingStart l.nextEpisodeIndex nowUs),
      { l with state := .recording, recordingStartedAt := some now, pendingElapsedMs := 0 })
  | .recording, .stop =>
    (.ok (.recordingStop l.nextEpisodeIndex nowUs),
      { l with
        state := .pending
        pendingElapsedMs := { l with state := .pending }.elapsedMs now
        recordingStartedAt := none })
  | .pending, .keep =>
    (.ok (.episodeKeep l.nextEpisodeIndex),
      { l with
        state := .idle
        nextEpisodeIndex := saturatingSucc l.nextEpisodeIndex
        pendingElapsedMs := 0 })
  | .pending, .discard =>
    (.ok (.episodeDiscard l.nextEpisodeIndex),
      { l with
        state := .idle
        nextEpisodeIndex := saturatingSucc l.nextEpisodeIndex
        pendingElapsedMs := 0 })
  | state, command =>
    (.error ("invalid episode transition: state=" ++ state.asStr ++ " command=" ++
      command.asStr), l)

end EpisodeLifecycle

section Commands
variable {l : EpisodeLifecycle} {command : EpisodeCommand} {now : Instant} {nowUs : UInt64}

theorem handleCommand_cases {event : ControlEvent}
    (h : (l.handleCommand command now nowUs).1 = .ok event) :
    (l.state = .idle ∧ command = .start ∧ event = .recordingStart l.nextEpisodeIndex nowUs ∧
      (l.handleCommand command now nowUs).2 = { l with
        state := .recording, recordingStartedAt := some now, pendingElapsedMs := 0 }) ∨
    (l.state = .recording ∧ command = .stop ∧ event = .recordingStop l.nextEpisodeIndex nowUs ∧
      (l.handleCommand command now nowUs).2 = { l with
        state := .pending, recordingStartedAt := none }) ∨
    (l.state = .pending ∧ command = .keep ∧ event = .episodeKeep l.nextEpisodeIndex ∧
      (l.handleCommand command now nowUs).2 = { l with
        state := .idle
        nextEpisodeIndex := saturatingSucc l.nextEpisodeIndex
        pendingElapsedMs := 0 }) ∨
    (l.state = .pending ∧ command = .discard ∧ event = .episodeDiscard l.nextEpisodeIndex ∧
      (l.handleCommand command now nowUs).2 = { l with
        state := .idle
        nextEpisodeIndex := saturatingSucc l.nextEpisodeIndex
        pendingElapsedMs := 0 }) := by
  unfold EpisodeLifecycle.handleCommand at h ⊢
  cases hs : l.state <;> cases command <;> simp only [hs] at h <;> cases h
  · exact Or.inl ⟨rfl, rfl, rfl, rfl⟩
  · exact Or.inr (Or.inl ⟨rfl, rfl, rfl, rfl⟩)
  · exact Or.inr (Or.inr (Or.inl ⟨rfl, rfl, rfl, rfl⟩))
  · exact Or.inr (Or.inr (Or.inr ⟨rfl, rfl, rfl, rfl⟩))

theorem rejected_command_unchanged {text : String}
    (h : (l.handleCommand command now nowUs).1 = .error text) :
    (l.handleCommand command now nowUs).2 = l := by
  unfold EpisodeLifecycle.handleCommand at h ⊢
  cases hs : l.state <;> cases command <;> simp only [hs] at h ⊢ <;> cases h

theorem handleCommand_next_le :
    l.nextEpisodeIndex ≤ (l.handleCommand command now nowUs).2.nextEpisodeIndex := by
  cases h : (l.handleCommand command now nowUs).1 with
  | error text =>
    rw [rejected_command_unchanged h]
    exact UInt32.le_refl _
  | ok event =>
    obtain ⟨-, -, -, he⟩ | ⟨-, -, -, he⟩ | ⟨-, -, -, he⟩ | ⟨-, -, -, he⟩ := handleCommand_cases h <;>
      rw [he]
    · exact UInt32.le_refl _
    · exact UInt32.le_refl _
    · exact le_saturatingSucc _
    · exact le_saturatingSucc _

end Commands

inductive Finished (n₀ : ℕ) : List ControlEvent → ℕ → Prop where
  | nil : Finished n₀ [] n₀
  | keep {events : List ControlEvent} {i : UInt32} (ts ts' : UInt64)
      (h : Finished n₀ events i.toNat) : Finished n₀
        (events ++ [.recordingStart i ts, .recordingStop i ts', .episodeKeep i]) (i.toNat + 1)
  | discard {events : List ControlEvent} {i : UInt32} (ts ts' : UInt64)
      (h : Finished n₀ events i.toNat) : Finished n₀
        (events ++ [.recordingStart i ts, .recordingStop i ts', .episodeDiscard i]) (i.toNat + 1)

/-- The beginning of the current episode's block. -/
def Unfinished (i : UInt32) : EpisodeState → List ControlEvent → Prop
  | .idle, events => events = []
  | .recording, events => ∃ ts, events = [.recordingStart i ts]
  | .pending, events => ∃ ts ts', events = [.recordingStart i ts, .recordingStop i ts']

def Protocol (n₀ : ℕ) (l : EpisodeLifecycle) (events : List ControlEvent) : Prop :=
  ∃ done tail, events = done ++ tail ∧ Finished n₀ done l.nextEpisodeIndex.toNat ∧
    Unfinished l.nextEpisodeIndex l.state tail

theorem protocol_resume (l : EpisodeLifecycle) (hl : l.state = .idle) (n₀ c₀ : UInt32) :
    Protocol n₀.toNat (l.resumeFromPriorRecordings n₀ c₀) [] := by
  refine ⟨[], [], rfl, .nil, ?_⟩
  simp [EpisodeLifecycle.resumeFromPriorRecordings, hl, Unfinished]

/-- An accepted command continues the protocol unless it exhausts the counter. -/
theorem Protocol.handleCommand {n₀ : ℕ} {l : EpisodeLifecycle} {events : List ControlEvent}
    {command : EpisodeCommand} {now : Instant} {nowUs : UInt64} {event : ControlEvent}
    (h : Protocol n₀ l events) (hok : (l.handleCommand command now nowUs).1 = .ok event)
    (hmax : (l.handleCommand command now nowUs).2.nextEpisodeIndex < u32Max) :
    Protocol n₀ (l.handleCommand command now nowUs).2 (events ++ [event]) := by
  obtain ⟨done, tail, rfl, hdone, htail⟩ := h
  obtain ⟨hs, -, rfl, he⟩ | ⟨hs, -, rfl, he⟩ | ⟨hs, -, rfl, he⟩ | ⟨hs, -, rfl, he⟩ :=
    handleCommand_cases hok <;> rw [he] at hmax ⊢ <;> rw [hs] at htail
  · obtain rfl := htail
    exact ⟨done, [.recordingStart _ nowUs], by simp, hdone, nowUs, rfl⟩
  · obtain ⟨ts, rfl⟩ := htail
    exact ⟨done, [.recordingStart _ ts, .recordingStop _ nowUs], by simp, hdone, ts, nowUs, rfl⟩
  · obtain ⟨ts, ts', rfl⟩ := htail
    refine ⟨_, [], (List.append_nil _).symm, ?_, rfl⟩
    rw [toNat_saturatingSucc_of_lt hmax]
    simpa using hdone.keep ts ts'
  · obtain ⟨ts, ts', rfl⟩ := htail
    refine ⟨_, [], (List.append_nil _).symm, ?_, rfl⟩
    rw [toNat_saturatingSucc_of_lt hmax]
    simpa using hdone.discard ts ts'

theorem recordEpisodeStored_frame (l : EpisodeLifecycle) (i : UInt32) :
    (l.recordEpisodeStored i).2.state = l.state ∧
      (l.recordEpisodeStored i).2.nextEpisodeIndex = l.nextEpisodeIndex := by
  unfold EpisodeLifecycle.recordEpisodeStored
  split
  · exact ⟨rfl, rfl⟩
  · split <;> exact ⟨rfl, rfl⟩

theorem Protocol.recordEpisodeStored {n₀ : ℕ} {l : EpisodeLifecycle}
    {events : List ControlEvent} (h : Protocol n₀ l events) (i : UInt32) :
    Protocol n₀ (l.recordEpisodeStored i).2 events := by
  obtain ⟨hs, hn⟩ := recordEpisodeStored_frame l i
  unfold Protocol
  rw [hs, hn]
  exact h

/-- A stored notice counts once, and only for a finished index. -/
theorem recordEpisodeStored_stored (l : EpisodeLifecycle) (i : UInt32) :
    (l.recordEpisodeStored i).2.storedEpisodeIndices =
      if i < l.nextEpisodeIndex then insert i l.storedEpisodeIndices
      else l.storedEpisodeIndices := by
  unfold EpisodeLifecycle.recordEpisodeStored
  by_cases hn : l.nextEpisodeIndex ≤ i
  · rw [if_pos hn, if_neg (UInt32.not_lt.mpr hn)]
  · rw [if_neg hn, if_pos (UInt32.not_le.mp hn)]
    split
    · next hm => exact (Finset.insert_eq_self.mpr hm).symm
    · rfl

theorem recordEpisodeStored_count {l : EpisodeLifecycle} {c₀ : UInt32}
    (h : l.episodeCount.toNat = min (c₀.toNat + l.storedEpisodeIndices.card) u32Max.toNat)
    (i : UInt32) : (l.recordEpisodeStored i).2.episodeCount.toNat =
      min (c₀.toNat + (l.recordEpisodeStored i).2.storedEpisodeIndices.card) u32Max.toNat := by
  unfold EpisodeLifecycle.recordEpisodeStored
  split
  · exact h
  · split
    · exact h
    · next hm =>
      simp only [toNat_saturatingSucc, h, Finset.card_insert_of_notMem hm]
      omega

inductive LifecycleCall where
  | handleCommand (command : EpisodeCommand) (now : Instant) (nowUs : UInt64)
  | recordEpisodeStored (episodeIndex : UInt32)

structure LifecycleRun where
  lifecycle : EpisodeLifecycle
  emitted : List ControlEvent := []
  reported : List UInt32 := []

def call (r : LifecycleRun) : LifecycleCall → LifecycleRun
  | .handleCommand command now nowUs =>
    match r.lifecycle.handleCommand command now nowUs with
    | (.ok event, l) => { r with lifecycle := l, emitted := r.emitted ++ [event] }
    | (.error _, l) => { r with lifecycle := l }
  | .recordEpisodeStored i => { r with
      lifecycle := (r.lifecycle.recordEpisodeStored i).2
      reported := if i < r.lifecycle.nextEpisodeIndex then r.reported ++ [i] else r.reported }

def runLifecycle (n₀ c₀ : UInt32) (calls : List LifecycleCall) : LifecycleRun :=
  calls.foldl call ⟨EpisodeLifecycle.resumeFromPriorRecordings {} n₀ c₀, [], []⟩

structure Invariant (n₀ c₀ : UInt32) (r : LifecycleRun) : Prop where
  protocol : Protocol n₀.toNat r.lifecycle r.emitted
  stored : r.lifecycle.storedEpisodeIndices = r.reported.toFinset
  count : r.lifecycle.episodeCount.toNat =
    min (c₀.toNat + r.lifecycle.storedEpisodeIndices.card) u32Max.toNat

theorem initial_invariant (n₀ c₀ : UInt32) :
    Invariant n₀ c₀ ⟨EpisodeLifecycle.resumeFromPriorRecordings {} n₀ c₀, [], []⟩ where
  protocol := protocol_resume {} rfl n₀ c₀
  stored := rfl
  count := by
    have := c₀.toNat_lt
    simp [EpisodeLifecycle.resumeFromPriorRecordings, u32Max]
    omega

theorem handleCommand_stored (l : EpisodeLifecycle) (command : EpisodeCommand) (now : Instant)
    (nowUs : UInt64) :
    (l.handleCommand command now nowUs).2.storedEpisodeIndices = l.storedEpisodeIndices ∧
      (l.handleCommand command now nowUs).2.episodeCount = l.episodeCount := by
  cases h : (l.handleCommand command now nowUs).1 with
  | error text => rw [rejected_command_unchanged h]; exact ⟨rfl, rfl⟩
  | ok event =>
    obtain ⟨-, -, -, he⟩ | ⟨-, -, -, he⟩ | ⟨-, -, -, he⟩ | ⟨-, -, -, he⟩ := handleCommand_cases h <;>
      rw [he] <;> exact ⟨rfl, rfl⟩

theorem call_handleCommand (r : LifecycleRun) (command : EpisodeCommand) (now : Instant)
    (nowUs : UInt64) : call r (.handleCommand command now nowUs) = { r with
      lifecycle := (r.lifecycle.handleCommand command now nowUs).2
      emitted := r.emitted ++
        (r.lifecycle.handleCommand command now nowUs).1.toOption.toList } := by
  simp only [call]
  split
  · next h => simp [h, Except.toOption]
  · next h => simp [h, Except.toOption]

theorem call_preserves_invariant {n₀ c₀ : UInt32} {r : LifecycleRun} (h : Invariant n₀ c₀ r)
    (c : LifecycleCall) (hmax : (call r c).lifecycle.nextEpisodeIndex < u32Max) :
    Invariant n₀ c₀ (call r c) := by
  cases c with
  | handleCommand command now nowUs =>
    rw [call_handleCommand] at hmax ⊢
    obtain ⟨hs, hc⟩ := handleCommand_stored r.lifecycle command now nowUs
    refine ⟨?_, hs.trans h.stored, ?_⟩
    · cases hr : (r.lifecycle.handleCommand command now nowUs).1 with
      | error text => simpa [Except.toOption, rejected_command_unchanged hr] using h.protocol
      | ok event => exact h.protocol.handleCommand hr hmax
    · simpa only [hs, hc] using h.count
  | recordEpisodeStored i =>
    refine ⟨h.protocol.recordEpisodeStored i, ?_, recordEpisodeStored_count h.count i⟩
    simp only [call, recordEpisodeStored_stored, h.stored]
    split <;> simp

theorem call_next_le (r : LifecycleRun) (c : LifecycleCall) :
    r.lifecycle.nextEpisodeIndex ≤ (call r c).lifecycle.nextEpisodeIndex := by
  cases c with
  | handleCommand command now nowUs =>
    rw [call_handleCommand]
    exact handleCommand_next_le
  | recordEpisodeStored i =>
    exact (recordEpisodeStored_frame r.lifecycle i).2 ▸ UInt32.le_refl _

theorem run_invariant (n₀ c₀ : UInt32) (calls : List LifecycleCall)
    (hmax : (runLifecycle n₀ c₀ calls).lifecycle.nextEpisodeIndex < u32Max) :
    Invariant n₀ c₀ (runLifecycle n₀ c₀ calls) := by
  induction calls using List.reverseRecOn with
  | nil => exact initial_invariant n₀ c₀
  | append_singleton calls c ih =>
    have hlast : runLifecycle n₀ c₀ (calls ++ [c]) = call (runLifecycle n₀ c₀ calls) c := by
      simp [runLifecycle]
    rw [hlast] at hmax ⊢
    have hprev := UInt32.lt_of_le_of_lt (call_next_le (runLifecycle n₀ c₀ calls) c) hmax
    exact call_preserves_invariant (ih hprev) c hmax

/-- While the index counter is not exhausted, the emitted events are consecutive blocks, a
rejected command has no effect, and each finished index reported stored counts once, up to
the top of the counter. -/
theorem lifecycle_protocol (n₀ c₀ : UInt32) (calls : List LifecycleCall)
    (hmax : (runLifecycle n₀ c₀ calls).lifecycle.nextEpisodeIndex < u32Max) :
    Protocol n₀.toNat (runLifecycle n₀ c₀ calls).lifecycle (runLifecycle n₀ c₀ calls).emitted ∧
      (∀ command now nowUs text,
        ((runLifecycle n₀ c₀ calls).lifecycle.handleCommand command now nowUs).1 = .error text →
        ((runLifecycle n₀ c₀ calls).lifecycle.handleCommand command now nowUs).2 =
          (runLifecycle n₀ c₀ calls).lifecycle) ∧
      (runLifecycle n₀ c₀ calls).lifecycle.episodeCount.toNat =
        min (c₀.toNat + (runLifecycle n₀ c₀ calls).reported.toFinset.card) u32Max.toNat := by
  have h := run_invariant n₀ c₀ calls hmax
  exact ⟨h.protocol, fun _ _ _ _ => rejected_command_unchanged, h.stored ▸ h.count⟩

/-- Resumed at the top of the count, a stored episode is not counted any more. -/
theorem stored_count_saturates : ¬ ∀ n₀ c₀ calls,
    (runLifecycle n₀ c₀ calls).lifecycle.nextEpisodeIndex < u32Max →
    (runLifecycle n₀ c₀ calls).lifecycle.episodeCount.toNat =
      c₀.toNat + (runLifecycle n₀ c₀ calls).reported.toFinset.card := by
  intro hall
  exact absurd (hall 1 u32Max [.recordEpisodeStored 0] (by decide)) (by decide)

def sampleCalls : List LifecycleCall :=
  [.recordEpisodeStored 7, .handleCommand .start 0 1, .handleCommand .keep 1 2,
    .handleCommand .stop 2 3, .handleCommand .keep 3 4, .recordEpisodeStored 7,
    .recordEpisodeStored 7, .handleCommand .start 4 5, .handleCommand .stop 5 6,
    .handleCommand .discard 6 7, .handleCommand .start 7 8]

theorem sample_lifecycle_protocol :
    Protocol 7 (runLifecycle 7 3 sampleCalls).lifecycle (runLifecycle 7 3 sampleCalls).emitted ∧
      (runLifecycle 7 3 sampleCalls).lifecycle.episodeCount = 4 := by
  have h := lifecycle_protocol 7 3 sampleCalls (by decide)
  exact ⟨h.1, UInt32.toNat_inj.mp (h.2.2.trans (by decide))⟩

end ControllerEpisode
