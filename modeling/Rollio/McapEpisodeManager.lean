import Rollio.Clocks
import Rollio.McapStaging
import Rollio.PartialRuns

/-! The MCAP assembler's episode manager: which pending episode a sample or packet goes to, and what
a dispatch does with those that are finished. Clock readings are arguments, one for each call of the
source; what a dispatch hands over is kept in a list. -/
namespace McapEpisodeManager
open BusMessages RuntimeConfig Clocks McapStaging OrderedTables PartialRuns
open Std (TreeMap)

structure Pending where
  episode : PendingEpisode
  keepRequested : Bool := false
  readyWaitStartedUs : Option UInt64 := none

namespace Pending

def new (episodeIndex : UInt32) (startTimeUs : UInt64) (channelIds : List String) : Pending where
  episode := .new episodeIndex startTimeUs channelIds

def allCamerasEos (p : Pending) (expected : ℕ) : Bool :=
  (p.episode.cameraStreams.values.filter (·.eosReceived)).length == expected

def onStop (p : Pending) (controllerTsUs nowUs : UInt64) : Pending :=
  { p with
    episode := { p.episode with stopTimeUs := some controllerTsUs }
    readyWaitStartedUs := some nowUs }

def onKeep (p : Pending) (nowUs : UInt64) : Pending :=
  { p with keepRequested := true, readyWaitStartedUs := some (p.readyWaitStartedUs.getD nowUs) }

def onArrival (p : Pending) (a : Arrival) : Pending := { p with episode := p.episode.onArrival a }

end Pending

structure EpisodeManager where
  config : AssemblerRuntimeConfigV2
  activeEpisodeIndex : Option UInt32 := none
  episodes : TreeMap UInt32 Pending := ∅
  cameraChannelIds : List String
  inFlight : TreeMap UInt32 Instant := ∅
  stagingSlots : ℕ
  staleAfter : Duration

structure DropNotice where
  episodeIndex : UInt32
  reason : String
  backpressure : Bool
  deriving DecidableEq, Repr

/-- A sample goes to the active episode, a packet to the one its header names. -/
def destination (activeEpisodeIndex : Option UInt32) : Arrival → Option UInt32
  | .observation .. | .action .. => activeEpisodeIndex
  | .packet _ header _ => some header.episodeIndex

namespace EpisodeManager

def new (config : AssemblerRuntimeConfigV2) : EpisodeManager where
  config := config
  cameraChannelIds := config.cameras.map (·.channelId)
  stagingSlots := config.stagingSlots.toNat
  staleAfter := saturatingMul config.missingEosTimeoutMs 2 * 1000000

def releaseSlot (m : EpisodeManager) (episodeIndex : UInt32) : Bool × EpisodeManager :=
  (m.inFlight.contains episodeIndex, { m with inFlight := m.inFlight.erase episodeIndex })

/-- `Instant::duration_since` is zero for a start in the future, as `-` is here. -/
def staleSlots (m : EpisodeManager) (now : Instant) : List UInt32 :=
  (m.inFlight.toList.filter fun slot => m.staleAfter < now - slot.2).map Prod.fst

def sweepStaleSlots (m : EpisodeManager) (now : Instant) : List UInt32 × EpisodeManager :=
  (m.staleSlots now,
    { m with inFlight := (m.staleSlots now).foldl (fun slots i => slots.erase i) m.inFlight })

def clearActive (m : EpisodeManager) (episodeIndex : UInt32) : EpisodeManager :=
  if m.activeEpisodeIndex = some episodeIndex then { m with activeEpisodeIndex := none } else m

/-- The flag is the returned "shutdown requested". -/
def onControlEvent (m : EpisodeManager) (event : ControlEvent) (nowUs : UInt64) :
    Bool × EpisodeManager :=
  match event with
  | .recordingStart i controllerTsUs =>
    (false, { m with
      episodes := m.episodes.insert i (.new i controllerTsUs m.cameraChannelIds)
      activeEpisodeIndex := some i })
  | .recordingStop i controllerTsUs =>
    (false, { m with
      episodes := m.episodes.modify i fun p => p.onStop controllerTsUs nowUs }.clearActive i)
  | .episodeKeep i =>
    (false, { m with episodes := m.episodes.modify i fun p => p.onKeep nowUs })
  | .episodeDiscard i => (false, { m with episodes := m.episodes.erase i }.clearActive i)
  | .shutdown => (true, m)
  | .modeSwitch _ => (false, m)

/-- `on_observation`, `on_action` and `on_packet`: what has no pending episode is dropped. -/
def onArrival (m : EpisodeManager) (a : Arrival) : EpisodeManager :=
  match destination m.activeEpisodeIndex a with
  | none => m
  | some i => { m with episodes := m.episodes.modify i fun p => p.onArrival a }

end EpisodeManager

inductive Verdict where
  | failed | waiting | ready | timedOut
  deriving DecidableEq, Repr

/-- Where the scan sorts one pending episode; the tests run in this order. -/
def verdict (m : EpisodeManager) (nowUs : UInt64) (p : Pending) : Verdict :=
  if !p.episode.failedCameras.isEmpty then .failed
  else if !p.keepRequested || p.episode.stopTimeUs.isNone then .waiting
  else if p.allCamerasEos m.config.cameras.length then .ready
  else match p.readyWaitStartedUs with
    | some started =>
      if saturatingMul m.config.missingEosTimeoutMs 1000 < nowUs.toNat - started.toNat then
        .timedOut
      else .waiting
    | none => .waiting

def scan (m : EpisodeManager) (nowUs : UInt64) (v : Verdict) : List UInt32 :=
  (m.episodes.toList.filter fun entry => verdict m nowUs entry.2 = v).map Prod.fst

/-- What one dispatch works on: the manager, the notices and the episodes handed to the worker. -/
structure Dispatch where
  manager : EpisodeManager
  dropped : List DropNotice := []
  handed : List PendingEpisode := []

namespace Dispatch

def remove (d : Dispatch) (i : UInt32) : Dispatch :=
  { d with manager := { d.manager with episodes := d.manager.episodes.erase i } }

def notify (d : Dispatch) (notice : DropNotice) : Dispatch :=
  { d with dropped := d.dropped ++ [notice] }

/-- The body of the loops over failed and over timed-out episodes. -/
def discard (reason : String) (d : Dispatch) (i : UInt32) : Dispatch :=
  if d.manager.episodes.contains i then (d.remove i).notify ⟨i, reason, false⟩ else d

def send (d : Dispatch) (now : Instant) (i : UInt32) (p : Pending) : Dispatch :=
  { d with
    manager := { d.manager with inFlight := d.manager.inFlight.insert i now }
    handed := d.handed ++ [p.episode] }

def stage (connected : Bool) (now : UInt32 → Instant) (d : Dispatch) (i : UInt32) :
    Except String Dispatch :=
  match d.manager.episodes[i]? with
  | none => .ok d
  | some p =>
    let d := d.remove i
    if d.manager.stagingSlots ≤ d.manager.inFlight.size then
      .ok (d.notify ⟨i, "staging_slots_full", true⟩)
    else if !connected then
      .error "staging worker disconnected: sending on a closed channel"
    else .ok (d.send (now i) i p)

end Dispatch

/-- `now i` is the clock reading taken when episode `i` gets its slot. -/
def dispatchReadyEpisodes (m : EpisodeManager) (connected : Bool) (nowUs : UInt64)
    (now : UInt32 → Instant) : Except String Dispatch :=
  let d := (scan m nowUs .failed).foldl (Dispatch.discard "packet_stream_failure") ⟨m, [], []⟩
  let d := (scan m nowUs .timedOut).foldl (Dispatch.discard "missing_end_of_stream") d
  (scan m nowUs .ready).foldlM (Dispatch.stage connected now) d

section Dispatches
variable {m : EpisodeManager} {d d' : Dispatch} {connected : Bool} {nowUs : UInt64}
  {now : UInt32 → Instant}

/-- Only pending episodes go, each handed over is one of them that was ready, and the slots taken
stay within their number. -/
structure Dispatched (m : EpisodeManager) (nowUs : UInt64) (d : Dispatch) : Prop where
  config : d.manager.config = m.config
  activeEpisodeIndex : d.manager.activeEpisodeIndex = m.activeEpisodeIndex
  cameraChannelIds : d.manager.cameraChannelIds = m.cameraChannelIds
  stagingSlots : d.manager.stagingSlots = m.stagingSlots
  survives : ∀ (i : UInt32) (p : Pending),
    d.manager.episodes[i]? = some p → m.episodes[i]? = some p
  slots : m.inFlight.size ≤ m.stagingSlots → d.manager.inFlight.size ≤ m.stagingSlots
  handed : ∀ e ∈ d.handed, ∃ (i : UInt32) (p : Pending), m.episodes[i]? = some p ∧
    verdict m nowUs p = .ready ∧ p.episode = e

theorem dispatched_refl : Dispatched m nowUs ⟨m, [], []⟩ where
  config := rfl
  activeEpisodeIndex := rfl
  cameraChannelIds := rfl
  stagingSlots := rfl
  survives := fun _ _ h => h
  slots := id
  handed := nofun

theorem Dispatched.remove (h : Dispatched m nowUs d) (i : UInt32) :
    Dispatched m nowUs (d.remove i) :=
  { h with
    survives := by
      intro j p hj
      simp only [Dispatch.remove, lookup_erase] at hj
      split at hj
      · cases hj
      · exact h.survives j p hj }

theorem Dispatched.notify (h : Dispatched m nowUs d) (notice : DropNotice) :
    Dispatched m nowUs (d.notify notice) :=
  { h with }

theorem Dispatched.discard (h : Dispatched m nowUs d) (reason : String) (i : UInt32) :
    Dispatched m nowUs (d.discard reason i) := by
  unfold Dispatch.discard
  split
  · exact (h.remove i).notify _
  · exact h

theorem Dispatched.discards (h : Dispatched m nowUs d) (reason : String) (l : List UInt32) :
    Dispatched m nowUs (l.foldl (Dispatch.discard reason) d) :=
  foldl_preserves (fun i _ _ hd => hd.discard reason i) h

theorem stage_cases {i : UInt32} (h : d.stage connected now i = .ok d') :
    (i ∉ d.manager.episodes ∧ d' = d) ∨ ∃ p, d.manager.episodes[i]? = some p ∧
      ((d.manager.stagingSlots ≤ d.manager.inFlight.size ∧
          d' = (d.remove i).notify ⟨i, "staging_slots_full", true⟩) ∨
        (d.manager.inFlight.size < d.manager.stagingSlots ∧
          d' = (d.remove i).send (now i) i p)) := by
  unfold Dispatch.stage at h
  cases hp : d.manager.episodes[i]? with
  | none =>
    rw [hp] at h
    exact .inl ⟨not_mem_iff_lookup.mpr hp, (Except.ok.inj h).symm⟩
  | some p =>
    rw [hp] at h
    refine .inr ⟨p, rfl, ?_⟩
    dsimp only at h
    split at h
    · next hfull => exact .inl ⟨hfull, (Except.ok.inj h).symm⟩
    · next hfree =>
      split at h
      · cases h
      · exact .inr ⟨Nat.lt_of_not_le hfree, (Except.ok.inj h).symm⟩

theorem Dispatched.stage {i : UInt32} (h : Dispatched m nowUs d)
    (hready : ∀ p, m.episodes[i]? = some p → verdict m nowUs p = .ready)
    (hd : d.stage connected now i = .ok d') : Dispatched m nowUs d' := by
  rcases stage_cases hd with ⟨-, rfl⟩ | ⟨p, hp, ⟨-, rfl⟩ | ⟨hfree, rfl⟩⟩
  · exact h
  · exact (h.remove i).notify _
  · refine { h.remove i with slots := fun _ => ?_, handed := ?_ }
    · have hsize := TreeMap.size_insert_le (t := d.manager.inFlight) (k := i) (v := now i)
      change (d.manager.inFlight.insert i (now i)).size ≤ m.stagingSlots
      rw [h.stagingSlots] at hfree
      omega
    · intro e he
      rcases List.mem_append.mp he with he | he
      · exact h.handed e he
      · rw [List.mem_singleton] at he
        have hm := h.survives i p hp
        exact ⟨i, p, hm, hready p hm, he.symm⟩

theorem dispatched (h : dispatchReadyEpisodes m connected nowUs now = .ok d) :
    Dispatched m nowUs d := by
  unfold dispatchReadyEpisodes at h
  refine foldlM_preserves (P := Dispatched m nowUs) (fun i hi d d' hd hstep => hd.stage ?_ hstep)
    ((dispatched_refl.discards _ _).discards _ _) h
  intro p hp
  obtain ⟨p', hp', hv⟩ := mem_scan.mp hi
  rw [hp] at hp'
  obtain rfl := Option.some.inj hp'
  exact of_decide_eq_true hv

def Keyed (m : EpisodeManager) : Prop :=
  ∀ (i : UInt32) (p : Pending), m.episodes[i]? = some p → p.episode.episodeIndex = i

structure Moved (d : Dispatch) : Prop where
  keyed : Keyed d.manager
  gone : ∀ e ∈ d.handed, e.episodeIndex ∉ d.manager.episodes
  nodup : (d.handed.map (·.episodeIndex)).Nodup

theorem Moved.remove (h : Moved d) (i : UInt32) : Moved (d.remove i) where
  keyed := by
    intro j p hj
    simp only [Dispatch.remove, lookup_erase] at hj
    split at hj
    · cases hj
    · exact h.keyed j p hj
  gone := fun e he hmem => h.gone e he (mem_erase.mp hmem).2
  nodup := h.nodup

theorem Moved.discards (h : Moved d) (reason : String) (l : List UInt32) :
    Moved (l.foldl (Dispatch.discard reason) d) := by
  refine foldl_preserves (P := Moved) (fun i _ d hd => ?_) h
  unfold Dispatch.discard
  split
  · exact ⟨(hd.remove i).keyed, (hd.remove i).gone, (hd.remove i).nodup⟩
  · exact hd

theorem Moved.stage {i : UInt32} (h : Moved d) (hd : d.stage connected now i = .ok d') :
    Moved d' := by
  rcases stage_cases hd with ⟨-, rfl⟩ | ⟨p, hp, ⟨-, rfl⟩ | ⟨-, rfl⟩⟩
  · exact h
  · exact ⟨(h.remove i).keyed, (h.remove i).gone, (h.remove i).nodup⟩
  · have hkey := h.keyed i p hp
    refine ⟨(h.remove i).keyed, fun e he => ?_, ?_⟩
    · rcases List.mem_append.mp he with he | he
      · exact (h.remove i).gone e he
      · rw [List.mem_singleton] at he
        rw [he, hkey]
        exact fun hmem => (mem_erase.mp hmem).1 rfl
    · -- the episode was pending until now, so it is not among those handed over before
      change ((d.handed ++ [p.episode]).map (·.episodeIndex)).Nodup
      rw [List.map_append, List.nodup_append]
      refine ⟨h.nodup, List.nodup_singleton _, fun a ha b hb hab => ?_⟩
      obtain ⟨e, he, rfl⟩ := List.mem_map.mp ha
      rw [List.map_singleton, List.mem_singleton] at hb
      rw [hb, hkey] at hab
      exact h.gone e he (hab ▸ mem_iff_lookup.mpr ⟨p, hp⟩)

theorem moved (hkeyed : Keyed m) (h : dispatchReadyEpisodes m connected nowUs now = .ok d) :
    Moved d := by
  unfold dispatchReadyEpisodes at h
  have hstart : Moved ⟨m, [], []⟩ := ⟨hkeyed, nofun, List.nodup_nil⟩
  exact foldlM_preserves (P := Moved) (fun i _ d d' hd hstep => hd.stage hstep)
    ((hstart.discards _ _).discards _ _) h

/-- What is ready was kept and stopped, has no failed camera, and its streams have ended. -/
theorem ready_spec {p : Pending} (h : verdict m nowUs p = .ready) :
    p.episode.failedCameras = [] ∧ p.keepRequested = true ∧ p.episode.stopTimeUs.isSome = true ∧
      p.allCamerasEos m.config.cameras.length = true := by
  unfold verdict at h
  split at h
  · cases h
  · next hfailed =>
    split at h
    · cases h
    · next hkeep =>
      split at h
      · next heos =>
        simp only [Bool.or_eq_true, not_or, Bool.not_eq_true', Bool.not_eq_false] at hfailed hkeep
        refine ⟨List.isEmpty_iff.mp hfailed, hkeep.1, ?_, heos⟩
        cases hstop : p.episode.stopTimeUs with
        | none => simp [hstop] at hkeep
        | some t => rfl
      · split at h
        · split at h <;> cases h
        · cases h

end Dispatches

end McapEpisodeManager
