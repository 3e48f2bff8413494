import Rollio.Clocks
import Rollio.LerobotDataset
import Rollio.OrderedTables

/-! The LeRobot assembler's episode manager: pending episodes, packet intake and the
dispatch of finished episodes to the staging worker. Clock readings are arguments, one
for each call of the source; removing leftover staging files cannot fail and is omitted. -/
namespace LerobotEpisodeManager
open BusMessages RuntimeConfig Clocks PacketDeliveries LerobotPackets LerobotDataset
open OrderedTables
open Std (TreeMap)

structure PendingEpisode where
  episodeIndex : UInt32
  startTimeUs : UInt64
  stopTimeUs : Option UInt64 := none
  keepRequested : Bool := false
  readyWaitStartedUs : Option UInt64 := none
  observationSamples : TreeMap String (List ObservationSample) := ∅
  actionSamples : TreeMap String (List ActionSample) := ∅
  cameraStreams : TreeMap String RecordingStreamBuffer
  failedCameras : List String := []

namespace PendingEpisode

def new (episodeIndex : UInt32) (startTimeUs : UInt64) (channelIds : List String) :
    PendingEpisode :=
  { episodeIndex, startTimeUs
    cameraStreams := channelIds.foldl (fun streams id => streams.insert id {}) ∅ }

def asAssemblyInput (e : PendingEpisode) : EpisodeAssemblyInput where
  episodeIndex := e.episodeIndex
  startTimeUs := e.startTimeUs
  stopTimeUs := e.stopTimeUs.getD e.startTimeUs
  observationSamples := e.observationSamples
  actionSamples := e.actionSamples
  cameraStreams := e.cameraStreams

def allCamerasEos (e : PendingEpisode) (expected : ℕ) : Bool :=
  (e.cameraStreams.values.filter (·.eosReceived)).length == expected

def onStop (e : PendingEpisode) (controllerTsUs nowUs : UInt64) : PendingEpisode :=
  { e with stopTimeUs := some controllerTsUs, readyWaitStartedUs := some nowUs }

def onKeep (e : PendingEpisode) (nowUs : UInt64) : PendingEpisode :=
  { e with keepRequested := true, readyWaitStartedUs := some (e.readyWaitStartedUs.getD nowUs) }

def onPacket (e : PendingEpisode) (channelId : String) (d : Delivery) : PendingEpisode :=
  match e.cameraStreams[channelId]? with
  | none => e
  | some buffer =>
    let buffer := observe buffer d
    { e with
      cameraStreams := e.cameraStreams.insert channelId buffer
      failedCameras :=
        if buffer.failed.isSome && !e.failedCameras.contains channelId then
          e.failedCameras ++ [channelId]
        else e.failedCameras }

theorem onPacket_episodeIndex (e : PendingEpisode) (channelId : String) (d : Delivery) :
    (e.onPacket channelId d).episodeIndex = e.episodeIndex := by
  unfold onPacket
  split <;> rfl

theorem onPacket_keepRequested (e : PendingEpisode) (channelId : String) (d : Delivery) :
    (e.onPacket channelId d).keepRequested = e.keepRequested := by
  unfold onPacket
  split <;> rfl

theorem onPacket_stopTimeUs (e : PendingEpisode) (channelId : String) (d : Delivery) :
    (e.onPacket channelId d).stopTimeUs = e.stopTimeUs := by
  unfold onPacket
  split <;> rfl

theorem onPacket_readyWaitStartedUs (e : PendingEpisode) (channelId : String) (d : Delivery) :
    (e.onPacket channelId d).readyWaitStartedUs = e.readyWaitStartedUs := by
  unfold onPacket
  split <;> rfl

end PendingEpisode

structure EpisodeManager where
  config : AssemblerRuntimeConfigV2
  activeEpisodeIndex : Option UInt32 := none
  episodes : TreeMap UInt32 PendingEpisode := ∅
  cameraChannelIds : List String
  inFlight : TreeMap UInt32 Instant := ∅
  stagingSlots : ℕ
  staleAfter : Duration

inductive WorkerCommand where
  | stage (input : EpisodeAssemblyInput)
  | shutdown

structure Sender where
  connected : Bool := true
  sent : List WorkerCommand := []

structure DropNotice where
  episodeIndex : UInt32
  reason : String
  backpressure : Bool
  deriving DecidableEq, Repr

structure DispatchOutcome where
  changed : Bool := false
  dropped : List DropNotice := []

structure Dispatch where
  manager : EpisodeManager
  worker : Sender
  outcome : DispatchOutcome := {}

namespace EpisodeManager

def new (config : AssemblerRuntimeConfigV2) : EpisodeManager where
  config := config
  cameraChannelIds := config.cameras.map (·.channelId)
  stagingSlots := config.stagingSlots.toNat
  staleAfter := saturatingMul config.missingEosTimeoutMs 2 * 1000000

def releaseSlot (m : EpisodeManager) (episodeIndex : UInt32) : Bool × EpisodeManager :=
  (m.inFlight.contains episodeIndex, { m with inFlight := m.inFlight.erase episodeIndex })

/-- `Instant::duration_since` is zero for a start in the future, as `-` is here. -/
def staleSlots (m : EpisodeManager) (now : Instant) : List UInt32 :=
  (m.inFlight.toList.filter fun slot => m.staleAfter < now - slot.2).map Prod.fst

def sweepStaleSlots (m : EpisodeManager) (now : Instant) : List UInt32 × EpisodeManager :=
  (m.staleSlots now,
    { m with inFlight := (m.staleSlots now).foldl (fun slots i => slots.erase i) m.inFlight })

def clearActive (m : EpisodeManager) (episodeIndex : UInt32) : EpisodeManager :=
  if m.activeEpisodeIndex = some episodeIndex then { m with activeEpisodeIndex := none } else m

/-- The flag is the returned "shutdown requested". -/
def onControlEvent (m : EpisodeManager) (event : ControlEvent) (nowUs : UInt64) :
    Bool × EpisodeManager :=
  match event with
  | .recordingStart i controllerTsUs =>
    (false, { m with
      episodes := m.episodes.insert i (.new i controllerTsUs m.cameraChannelIds)
      activeEpisodeIndex := some i })
  | .recordingStop i controllerTsUs =>
    (false, { m with
      episodes := m.episodes.modify i fun e => e.onStop controllerTsUs nowUs }.clearActive i)
  | .episodeKeep i =>
    (false, { m with episodes := m.episodes.modify i fun e => e.onKeep nowUs })
  | .episodeDiscard i => (false, { m with episodes := m.episodes.erase i }.clearActive i)
  | .shutdown => (true, m)
  | .modeSwitch _ => (false, m)

def onObservation (m : EpisodeManager) (channelId : String) (stateKind : RobotStateKind)
    (timestampUs : UInt64) (values : List Float) : EpisodeManager :=
  match m.activeEpisodeIndex with
  | none => m
  | some i => { m with episodes := m.episodes.modify i fun e => { e with
      observationSamples := e.observationSamples.alter (observationKey channelId stateKind)
        fun samples => some (samples.getD [] ++ [⟨timestampUs, values⟩]) } }

def onAction (m : EpisodeManager) (channelId : String) (commandKind : RobotCommandKind)
    (timestampUs : UInt64) (values : List Float) : EpisodeManager :=
  match m.activeEpisodeIndex with
  | none => m
  | some i => { m with episodes := m.episodes.modify i fun e => { e with
      actionSamples := e.actionSamples.alter (actionKey channelId commandKind)
        fun samples => some (samples.getD [] ++ [⟨timestampUs, values⟩]) } }

/-- A packet of an episode that is not pending is dropped without a trace. -/
def onPacket (m : EpisodeManager) (channelId : String) (header : EncodedPacketHeader)
    (payload : List UInt8) : EpisodeManager :=
  { m with episodes := m.episodes.modify header.episodeIndex fun e =>
      e.onPacket channelId (toDelivery header payload) }

/-- Only pending episodes and the active index differ. -/
structure Frame (m m' : EpisodeManager) : Prop where
  config : m'.config = m.config
  cameraChannelIds : m'.cameraChannelIds = m.cameraChannelIds
  inFlight : m'.inFlight = m.inFlight
  stagingSlots : m'.stagingSlots = m.stagingSlots
  staleAfter : m'.staleAfter = m.staleAfter

@[simp] theorem clearActive_episodes (m : EpisodeManager) (i : UInt32) :
    (m.clearActive i).episodes = m.episodes := by
  unfold clearActive
  split <;> rfl

theorem frame_clearActive (m : EpisodeManager) (i : UInt32) : Frame m (m.clearActive i) := by
  unfold clearActive
  split <;> constructor <;> rfl

theorem frame_onControlEvent (m : EpisodeManager) (event : ControlEvent) (nowUs : UInt64) :
    Frame m (m.onControlEvent event nowUs).2 := by
  cases event with
  | recordingStart i ts => constructor <;> rfl
  | recordingStop i ts => exact ⟨(frame_clearActive _ i).1, (frame_clearActive _ i).2,
      (frame_clearActive _ i).3, (frame_clearActive _ i).4, (frame_clearActive _ i).5⟩
  | episodeKeep i => constructor <;> rfl
  | episodeDiscard i => exact ⟨(frame_clearActive _ i).1, (frame_clearActive _ i).2,
      (frame_clearActive _ i).3, (frame_clearActive _ i).4, (frame_clearActive _ i).5⟩
  | shutdown => constructor <;> rfl
  | modeSwitch _ => constructor <;> rfl

theorem frame_onObservation (m : EpisodeManager) (channelId : String)
    (stateKind : RobotStateKind) (timestampUs : UInt64) (values : List Float) :
    Frame m (m.onObservation channelId stateKind timestampUs values) := by
  unfold onObservation
  split <;> constructor <;> rfl

theorem frame_onAction (m : EpisodeManager) (channelId : String)
    (commandKind : RobotCommandKind) (timestampUs : UInt64) (values : List Float) :
    Frame m (m.onAction channelId commandKind timestampUs values) := by
  unfold onAction
  split <;> constructor <;> rfl

theorem frame_onPacket (m : EpisodeManager) (channelId : String) (header : EncodedPacketHeader)
    (payload : List UInt8) : Frame m (m.onPacket channelId header payload) := by
  constructor <;> rfl

/-- What a control event does to the entry under `i`. -/
theorem onControlEvent_lookup (m : EpisodeManager) (event : ControlEvent) (nowUs : UInt64)
    (i : UInt32) : (m.onControlEvent event nowUs).2.episodes[i]? =
      match event with
      | .recordingStart k ts =>
        if i = k then some (.new k ts m.cameraChannelIds) else m.episodes[i]?
      | .recordingStop k ts =>
        if i = k then m.episodes[i]?.map (·.onStop ts nowUs) else m.episodes[i]?
      | .episodeKeep k => if i = k then m.episodes[i]?.map (·.onKeep nowUs) else m.episodes[i]?
      | .episodeDiscard k => if i = k then none else m.episodes[i]?
      | .shutdown | .modeSwitch _ => m.episodes[i]? := by
  cases event with
  | recordingStart k ts => exact lookup_insert
  | recordingStop k ts =>
    simp only [onControlEvent, clearActive_episodes]
    exact lookup_modify
  | episodeKeep k => exact lookup_modify
  | episodeDiscard k =>
    simp only [onControlEvent, clearActive_episodes]
    exact lookup_erase
  | shutdown => rfl
  | modeSwitch _ => rfl

theorem mem_onControlEvent (m : EpisodeManager) (event : ControlEvent) (nowUs : UInt64)
    (i : UInt32) : i ∈ (m.onControlEvent event nowUs).2.episodes ↔
      match event with
      | .recordingStart k _ => i = k ∨ i ∈ m.episodes
      | .episodeDiscard k => i ≠ k ∧ i ∈ m.episodes
      | _ => i ∈ m.episodes := by
  cases event with
  | recordingStart k ts => exact mem_insert
  | recordingStop k ts =>
    simp only [onControlEvent, clearActive_episodes]
    exact mem_modify
  | episodeKeep k => exact mem_modify
  | episodeDiscard k =>
    simp only [onControlEvent, clearActive_episodes]
    exact mem_erase
  | shutdown => exact Iff.rfl
  | modeSwitch _ => exact Iff.rfl

theorem onPacket_lookup (m : EpisodeManager) (channelId : String)
    (header : EncodedPacketHeader) (payload : List UInt8) (i : UInt32) :
    (m.onPacket channelId header payload).episodes[i]? =
      if i = header.episodeIndex then
        m.episodes[i]?.map (·.onPacket channelId (toDelivery header payload))
      else m.episodes[i]? :=
  lookup_modify

structure SameStreams (e e' : PendingEpisode) : Prop where
  episodeIndex : e'.episodeIndex = e.episodeIndex
  cameraStreams : e'.cameraStreams = e.cameraStreams
  failedCameras : e'.failedCameras = e.failedCameras

theorem SameStreams.refl (e : PendingEpisode) : SameStreams e e := by
  constructor <;> rfl

/-- Robot samples arrived for the episode at most. -/
structure SameRecording (e e' : PendingEpisode) : Prop extends SameStreams e e' where
  stopTimeUs : e'.stopTimeUs = e.stopTimeUs
  keepRequested : e'.keepRequested = e.keepRequested
  readyWaitStartedUs : e'.readyWaitStartedUs = e.readyWaitStartedUs

theorem SameRecording.refl (e : PendingEpisode) : SameRecording e e := by
  constructor
  · exact .refl e
  · rfl
  · rfl
  · rfl

theorem onControlEvent_entry {m : EpisodeManager} {event : ControlEvent} {nowUs : UInt64}
    {i : UInt32} {e' : PendingEpisode}
    (h : (m.onControlEvent event nowUs).2.episodes[i]? = some e') :
    (∃ ts, event = .recordingStart i ts ∧ e' = .new i ts m.cameraChannelIds) ∨
      ∃ e, m.episodes[i]? = some e ∧ SameStreams e e' := by
  rw [onControlEvent_lookup] at h
  have keep (h : m.episodes[i]? = some e') : ∃ e, m.episodes[i]? = some e ∧ SameStreams e e' :=
    ⟨e', h, .refl e'⟩
  cases event with
  | recordingStart k ts =>
    simp only at h
    split at h
    · next hi => exact Or.inl ⟨ts, by rw [hi], by cases h; rw [hi]⟩
    · exact Or.inr (keep h)
  | recordingStop k ts =>
    simp only at h
    split at h
    · obtain ⟨e, he, rfl⟩ := Option.map_eq_some_iff.mp h
      exact Or.inr ⟨e, he, rfl, rfl, rfl⟩
    · exact Or.inr (keep h)
  | episodeKeep k =>
    simp only at h
    split at h
    · obtain ⟨e, he, rfl⟩ := Option.map_eq_some_iff.mp h
      exact Or.inr ⟨e, he, rfl, rfl, rfl⟩
    · exact Or.inr (keep h)
  | episodeDiscard k =>
    simp only at h
    split at h
    · cases h
    · exact Or.inr (keep h)
  | shutdown => exact Or.inr (keep h)
  | modeSwitch _ => exact Or.inr (keep h)

theorem lookup_modify_samples {m : EpisodeManager} {k i : UInt32} {e' : PendingEpisode}
    {f : PendingEpisode → PendingEpisode} (hf : ∀ e, SameRecording e (f e))
    (h : (m.episodes.modify k f)[i]? = some e') :
    ∃ e, m.episodes[i]? = some e ∧ SameRecording e e' := by
  rw [lookup_modify] at h
  split at h
  · obtain ⟨e, he, rfl⟩ := Option.map_eq_some_iff.mp h
    exact ⟨e, he, hf e⟩
  · exact ⟨e', h, .refl e'⟩

theorem onObservation_lookup {m : EpisodeManager} {channelId : String}
    {stateKind : RobotStateKind} {timestampUs : UInt64} {values : List Float} {i : UInt32}
    {e' : PendingEpisode}
    (h : (m.onObservation channelId stateKind timestampUs values).episodes[i]? = some e') :
    ∃ e, m.episodes[i]? = some e ∧ SameRecording e e' := by
  unfold onObservation at h
  split at h
  · exact ⟨e', h, .refl e'⟩
  · exact lookup_modify_samples (fun e => by exact ⟨⟨rfl, rfl, rfl⟩, rfl, rfl, rfl⟩) h

theorem onAction_lookup {m : EpisodeManager} {channelId : String}
    {commandKind : RobotCommandKind} {timestampUs : UInt64} {values : List Float} {i : UInt32}
    {e' : PendingEpisode}
    (h : (m.onAction channelId commandKind timestampUs values).episodes[i]? = some e') :
    ∃ e, m.episodes[i]? = some e ∧ SameRecording e e' := by
  unfold onAction at h
  split at h
  · exact ⟨e', h, .refl e'⟩
  · exact lookup_modify_samples (fun e => by exact ⟨⟨rfl, rfl, rfl⟩, rfl, rfl, rfl⟩) h

theorem mem_onObservation (m : EpisodeManager) (channelId : String)
    (stateKind : RobotStateKind) (timestampUs : UInt64) (values : List Float) (i : UInt32) :
    i ∈ (m.onObservation channelId stateKind timestampUs values).episodes ↔ i ∈ m.episodes := by
  unfold onObservation
  split
  · exact Iff.rfl
  · exact mem_modify

theorem mem_onAction (m : EpisodeManager) (channelId : String)
    (commandKind : RobotCommandKind) (timestampUs : UInt64) (values : List Float) (i : UInt32) :
    i ∈ (m.onAction channelId commandKind timestampUs values).episodes ↔ i ∈ m.episodes := by
  unfold onAction
  split
  · exact Iff.rfl
  · exact mem_modify

theorem mem_onPacket (m : EpisodeManager) (channelId : String) (header : EncodedPacketHeader)
    (payload : List UInt8) (i : UInt32) :
    i ∈ (m.onPacket channelId header payload).episodes ↔ i ∈ m.episodes :=
  mem_modify

end EpisodeManager

inductive Verdict where
  | failed | waiting | ready | timedOut
  deriving DecidableEq, Repr

def verdict (m : EpisodeManager) (nowUs : UInt64) (e : PendingEpisode) : Verdict :=
  if !e.failedCameras.isEmpty then .failed
  else if !e.keepRequested || e.stopTimeUs.isNone then .waiting
  else if e.allCamerasEos m.config.cameras.length then .ready
  else match e.readyWaitStartedUs with
    | some started =>
      if saturatingMul m.config.missingEosTimeoutMs 1000 < nowUs.toNat - started.toNat then
        .timedOut
      else .waiting
    | none => .waiting

theorem ready_keepRequested {m : EpisodeManager} {nowUs : UInt64} {e : PendingEpisode}
    (h : verdict m nowUs e = .ready) : e.keepRequested = true := by
  unfold verdict at h
  split at h
  · cases h
  · split at h
    · cases h
    · next hk =>
      simp only [Bool.or_eq_true, not_or, Bool.not_eq_true', Bool.not_eq_false] at hk
      exact hk.1

def scan (m : EpisodeManager) (nowUs : UInt64) (v : Verdict) : List UInt32 :=
  (m.episodes.toList.filter fun entry => verdict m nowUs entry.2 = v).map Prod.fst

/-- Each list is in key order, as the scan pushes it. -/
def readyFailedAndTimedOut (m : EpisodeManager) (nowUs : UInt64) :
    List UInt32 × List UInt32 × List UInt32 :=
  (scan m nowUs .ready, scan m nowUs .failed, scan m nowUs .timedOut)

namespace Dispatch

def remove (d : Dispatch) (i : UInt32) : Dispatch :=
  { d with manager := { d.manager with episodes := d.manager.episodes.erase i } }

def notify (d : Dispatch) (notice : DropNotice) : Dispatch :=
  { d with outcome := ⟨true, d.outcome.dropped ++ [notice]⟩ }

/-- The body of the loops over failed and over timed-out episodes. -/
def discard (reason : String) (d : Dispatch) (i : UInt32) : Dispatch :=
  if d.manager.episodes.contains i then (d.remove i).notify ⟨i, reason, false⟩ else d

def send (d : Dispatch) (now : Instant) (i : UInt32) (episode : PendingEpisode) : Dispatch where
  manager := { d.manager with inFlight := d.manager.inFlight.insert i now }
  worker := { d.worker with sent := d.worker.sent ++ [.stage episode.asAssemblyInput] }
  outcome := { d.outcome with changed := true }

/-- The body of the loop over ready episodes. The slot count is read after each insertion.
An error drops the outcome, but the episode has already left the manager. -/
def stage (now : UInt32 → Instant) (d : Dispatch) (i : UInt32) :
    Except (String × Dispatch) Dispatch :=
  match d.manager.episodes[i]? with
  | none => .ok d
  | some episode =>
    let d := d.remove i
    if d.manager.stagingSlots ≤ d.manager.inFlight.size then
      .ok (d.notify ⟨i, "staging_slots_full", true⟩)
    else if !d.worker.connected then
      .error ("staging worker disconnected: sending on a closed channel", d)
    else .ok (d.send (now i) i episode)

section Fields
variable (d : Dispatch) (i : UInt32) (notice : DropNotice) (now : Instant) (e : PendingEpisode)

@[simp] theorem remove_episodes :
    (d.remove i).manager.episodes = d.manager.episodes.erase i := rfl
@[simp] theorem remove_inFlight : (d.remove i).manager.inFlight = d.manager.inFlight := rfl
@[simp] theorem remove_stagingSlots :
    (d.remove i).manager.stagingSlots = d.manager.stagingSlots := rfl
@[simp] theorem remove_worker : (d.remove i).worker = d.worker := rfl
@[simp] theorem remove_outcome : (d.remove i).outcome = d.outcome := rfl

@[simp] theorem notify_manager : (d.notify notice).manager = d.manager := rfl
@[simp] theorem notify_worker : (d.notify notice).worker = d.worker := rfl
@[simp] theorem notify_dropped :
    (d.notify notice).outcome.dropped = d.outcome.dropped ++ [notice] := rfl

@[simp] theorem send_episodes : (d.send now i e).manager.episodes = d.manager.episodes := rfl
@[simp] theorem send_inFlight :
    (d.send now i e).manager.inFlight = d.manager.inFlight.insert i now := rfl
@[simp] theorem send_stagingSlots :
    (d.send now i e).manager.stagingSlots = d.manager.stagingSlots := rfl
@[simp] theorem send_sent :
    (d.send now i e).worker.sent = d.worker.sent ++ [.stage e.asAssemblyInput] := rfl
@[simp] theorem send_connected : (d.send now i e).worker.connected = d.worker.connected := rfl
@[simp] theorem send_dropped : (d.send now i e).outcome.dropped = d.outcome.dropped := rfl

end Fields

end Dispatch

/-- `now i` is the clock reading taken when episode `i` gets its slot. -/
def dispatchReadyEpisodes (m : EpisodeManager) (worker : Sender) (nowUs : UInt64)
    (now : UInt32 → Instant) : Except (String × Dispatch) Dispatch :=
  let (ready, failed, timedOut) := readyFailedAndTimedOut m nowUs
  let d := failed.foldl (Dispatch.discard "packet_stream_failure") ⟨m, worker, {}⟩
  let d := timedOut.foldl (Dispatch.discard "missing_end_of_stream") d
  ready.foldlM (Dispatch.stage now) d

end LerobotEpisodeManager
