import Rollio.ComposedRuns
import Rollio.DatasetDescription
import Rollio.DataloopStorage
import Rollio.McapHandovers

/-! A session that records MCAP episodes: the assembler beside a storage process, with the topics
between them. What is announced as stored was recorded, handed over once, and stored from the
directory that it was staged in. -/
namespace McapSession
open BusMessages RuntimeConfig Queues PartialRuns ComposedRuns McapHandovers UnixPaths
open DecimalNames LerobotDataset

variable {W α : Type}

structure State (W α : Type) where
  assembler : McapAssembler.Assembler
  storage : StorageRuns.Process W α
  stored : Queue EpisodeStored := {}

/-- A step of either process; the assembler hears of a stored episode when it takes a notice. -/
inductive Action (W α : Type) where
  | assembler (x : McapAssembler.Action)
  | storage (y : StorageRuns.Action W α)
  | release

/-- The assembler takes the notices of its own subscription only. -/
def isStored : McapAssembler.Action → Bool
  | .stored _ => true
  | _ => false

/-- The storage hears of ready episodes from the assembler only. -/
def hearsReady : StorageRuns.Action W α → Bool
  | .hear _ ready => !ready.isEmpty
  | _ => false

def Enabled (s : State W α) : Action W α → Prop
  | .assembler x => isStored x = false ∧ McapAssembler.Enabled s.assembler x
  | .storage y => hearsReady y = false ∧ StorageRuns.Enabled s.storage y
  | .release => s.assembler.ended.isNone = true ∧ s.stored.pending.isEmpty = false

instance (s : State W α) (a : Action W α) : Decidable (Enabled s a) := by
  cases a <;> simp only [Enabled] <;> infer_instance

variable (bfbsDir : String)
  (serve : W → StorageProcess.EpisodeReadyRequest → α → Except String String × W)

namespace State

def assemble (s : State W α) (x : McapAssembler.Action) : State W α :=
  let a := McapAssembler.next bfbsDir s.assembler x
  { s with
    assembler := a
    storage := s.storage.hear [] (a.ready.drop s.assembler.ready.length) }

def store (s : State W α) (y : StorageRuns.Action W α) : State W α :=
  let p := StorageRuns.next serve s.storage y
  { s with
    storage := p
    stored := s.stored.publish (p.notices.drop s.storage.notices.length) }

end State

def next (s : State W α) : Action W α → State W α
  | .assembler x => s.assemble bfbsDir x
  | .storage y => s.store serve y
  | .release =>
    match s.stored.pop with
    | none => s
    | some (event, stored) =>
      { s with stored := stored }.assemble bfbsDir (.stored event.episodeIndex)

def Allowed (change : W → W → Prop) (s : State W α) : Action W α → Prop
  | .storage y => StorageRuns.Allowed change s.storage y
  | .assembler _ | .release => True

instance (change : W → W → Prop) [DecidableRel change] (s : State W α) (a : Action W α) :
    Decidable (Allowed change s a) := by
  cases a <;> simp only [Allowed] <;> infer_instance

def initial (config : AssemblerRuntimeConfigV2) (w : W) : State W α where
  assembler := .initial config
  storage := StorageRuns.started w

def Runs (change : W → W → Prop) (config : AssemblerRuntimeConfigV2) (w : W)
    (actions : List (Action W α)) : Prop :=
  Follows Enabled (next bfbsDir serve) (Allowed change) (initial config w) actions

instance (change : W → W → Prop) [DecidableRel change] (config : AssemblerRuntimeConfigV2) (w : W)
    (actions : List (Action W α)) : Decidable (Runs bfbsDir serve change config w actions) :=
  inferInstanceAs (Decidable (Follows _ _ _ _ _))

def run (config : AssemblerRuntimeConfigV2) (w : W) (actions : List (Action W α)) : State W α :=
  actions.foldl (next bfbsDir serve) (initial config w)

def assemblerPart (s : State W α) : Action W α → List McapAssembler.Action
  | .assembler x => [x]
  | .storage _ => []
  | .release => s.stored.pending.head?.toList.map (.stored ·.episodeIndex)

def storagePart (s : State W α) : Action W α → List (StorageRuns.Action W α)
  | .assembler x =>
    [.hear [] ((McapAssembler.next bfbsDir s.assembler x).ready.drop s.assembler.ready.length)]
  | .storage y => [y]
  | .release => s.stored.pending.head?.toList.map fun event =>
    .hear [] ((McapAssembler.next bfbsDir s.assembler (.stored event.episodeIndex)).ready.drop
      s.assembler.ready.length)

section Parts
variable {bfbsDir : String}
  {serve : W → StorageProcess.EpisodeReadyRequest → α → Except String String × W}
  {change : W → W → Prop} {config : AssemblerRuntimeConfigV2} {w : W} {s : State W α}
  {actions : List (Action W α)}

theorem assembler_moves (s : State W α) (a : Action W α) :
    (next bfbsDir serve s a).assembler =
      (assemblerPart s a).foldl (McapAssembler.next bfbsDir) s.assembler := by
  cases a with
  | assembler x => rfl
  | storage y => rfl
  | release =>
    unfold next assemblerPart
    cases hpending : s.stored.pending with
    | nil =>
      have hpop : s.stored.pop = none := by rw [Queue.pop, hpending]
      rw [hpop]
      rfl
    | cons event rest =>
      have hpop : s.stored.pop = some (event, ⟨s.stored.received ++ [event], rest⟩) := by
        rw [Queue.pop, hpending]
      rw [hpop]
      rfl

theorem storage_moves (s : State W α) (a : Action W α) :
    (next bfbsDir serve s a).storage =
      (storagePart bfbsDir s a).foldl (StorageRuns.next serve) s.storage := by
  cases a with
  | assembler x => rfl
  | storage y => rfl
  | release =>
    unfold next storagePart
    cases hpending : s.stored.pending with
    | nil =>
      have hpop : s.stored.pop = none := by rw [Queue.pop, hpending]
      rw [hpop]
      rfl
    | cons event rest =>
      have hpop : s.stored.pop = some (event, ⟨s.stored.received ++ [event], rest⟩) := by
        rw [Queue.pop, hpending]
      rw [hpop]
      rfl

def assemblerRun (bfbsDir : String)
    (serve : W → StorageProcess.EpisodeReadyRequest → α → Except String String × W)
    (config : AssemblerRuntimeConfigV2) (w : W) (actions : List (Action W α)) :
    List McapAssembler.Action :=
  brings (next bfbsDir serve) assemblerPart (initial config w) actions

def storageRun (bfbsDir : String)
    (serve : W → StorageProcess.EpisodeReadyRequest → α → Except String String × W)
    (config : AssemblerRuntimeConfigV2) (w : W) (actions : List (Action W α)) :
    List (StorageRuns.Action W α) :=
  brings (next bfbsDir serve) (storagePart bfbsDir) (initial config w) actions

theorem run_assembler (actions : List (Action W α)) :
    (run bfbsDir serve config w actions).assembler =
      McapAssembler.run bfbsDir config (assemblerRun bfbsDir serve config w actions) :=
  view_foldl assembler_moves _ _

theorem run_storage (actions : List (Action W α)) :
    (run bfbsDir serve config w actions).storage =
      StorageRuns.run serve (StorageRuns.started w) (storageRun bfbsDir serve config w actions) :=
  view_foldl storage_moves _ _

theorem runs_assembler (h : Runs bfbsDir serve change config w actions) :
    McapAssembler.Runs bfbsDir config (assemblerRun bfbsDir serve config w actions) := by
  refine follows_part assembler_moves (fun s a ha _ => ?_) h
  cases a with
  | assembler x => exact ⟨ha.2, trivial, trivial⟩
  | storage y => trivial
  | release =>
    unfold assemblerPart
    cases s.stored.pending with
    | nil => trivial
    | cons event rest => exact ⟨ha.1, trivial, trivial⟩

theorem runs_storage (h : Runs bfbsDir serve change config w actions) :
    StorageRuns.Runs serve change (StorageRuns.started w) (storageRun bfbsDir serve config w actions) := by
  refine follows_part storage_moves (fun s a ha hok => ?_) h
  cases a with
  | assembler x => exact ⟨trivial, trivial, trivial⟩
  | storage y => exact ⟨ha.2, hok, trivial⟩
  | release =>
    unfold storagePart
    cases s.stored.pending with
    | nil => trivial
    | cons event rest => exact ⟨trivial, trivial, trivial⟩

structure Linked (s : State W α) : Prop where
  ready : s.storage.storage.ready.log = s.assembler.ready
  stored : s.stored.log = s.storage.notices

theorem linked_initial : Linked (initial config w : State W α) := ⟨rfl, rfl⟩

theorem Linked.assemble {stored : Queue EpisodeStored} (h : Linked s)
    (hstored : stored.log = s.stored.log) (x : McapAssembler.Action) :
    Linked ({ s with stored := stored }.assemble bfbsDir x) where
  ready := by
    change (s.storage.storage.ready.publish _).log = (McapAssembler.next bfbsDir s.assembler x).ready
    rw [Queue.log_publish, h.ready]
    exact List.prefix_iff_eq_append.mp (ready_extends bfbsDir s.assembler x)
  stored := hstored.trans h.stored

theorem Linked.store {y : StorageRuns.Action W α} (h : Linked s) (hy : hearsReady y = false) :
    Linked (s.store serve y) where
  ready := by
    refine (StorageRuns.next_ready_log s.storage y).trans ?_
    rw [h.ready]
    cases y with
    | hear control ready =>
      have hnone : ready = [] := by simpa [hearsReady] using hy
      rw [hnone]
      exact List.append_nil _
    | _ => exact List.append_nil _
  stored := by
    refine (Queue.log_publish _ _).trans ?_
    rw [h.stored]
    exact List.prefix_iff_eq_append.mp (StorageRuns.next_notices s.storage y)

theorem Linked.next {a : Action W α} (h : Linked s) (ha : Enabled s a) :
    Linked (next bfbsDir serve s a) := by
  cases a with
  | assembler x => exact h.assemble rfl x
  | storage y => exact h.store ha.1
  | release =>
    unfold McapSession.next
    cases hpop : s.stored.pop with
    | none => exact h
    | some popped =>
      obtain ⟨event, stored⟩ := popped
      exact h.assemble (Queue.log_pop hpop) _

theorem run_linked (h : Runs bfbsDir serve change config w actions) :
    Linked (run bfbsDir serve config w actions) :=
  (path_of_follows h).invariant linked_initial fun _ _ ha _ hu => hu.next ha

end Parts

section Storing
variable {bfbsDir : String}
  {serve : W → StorageProcess.EpisodeReadyRequest → α → Except String String × W}
  {change : W → W → Prop} {config : AssemblerRuntimeConfigV2} {w : W} {s : State W α}
  {actions : List (Action W α)}

def startOf : Action W α → Option UInt32
  | .assembler x => McapHandovers.startOf x
  | .storage _ | .release => none

/-- The requests are those of ready episodes, in their order. -/
theorem served_ready (h : Runs bfbsDir serve change config w actions) :
    (run bfbsDir serve config w actions).storage.served.map (·.request) <+:
      (run bfbsDir serve config w actions).assembler.ready.map StorageRuns.readyRequest := by
  have horder := (StorageRuns.run_serving (runs_storage h)).order
  rw [← run_storage] at horder
  rw [← (run_linked h).ready]
  exact horder.requests.trans (List.IsPrefix.map _ (List.prefix_append _ _))

theorem served_directory (h : Runs bfbsDir serve change config w actions) :
    ∀ x ∈ (run bfbsDir serve config w actions).storage.served, x.request =
      StorageRuns.readyRequest (McapAssembler.readyOf (stagedAs config x.request.episodeIndex)) := by
  intro x hx
  have hworking := run_working (runs_assembler h)
  rw [← run_assembler] at hworking
  have hrequest := (served_ready h).subset (List.mem_map_of_mem hx)
  obtain ⟨ready, hready, heq⟩ := List.mem_map.mp hrequest
  obtain ⟨e, -, rfl⟩ := hworking.announced ready hready
  have hindex : e.episodeIndex = x.request.episodeIndex :=
    congrArg StorageProcess.EpisodeReadyRequest.episodeIndex heq
  rw [← hindex]
  exact heq.symm

end Storing

section Directories
variable {bfbsDir projectId : String} {config : AssemblerRuntimeConfigV2}
  {w : DataloopStorage.World} {actions : List (Action DataloopStorage.World DataloopStorage.Answers)}

theorem single_episodeDir (i : UInt32) : Single (ofString (episodeDirName i)) ∧
    ofString (episodeDirName i) ≠ dotdot := by
  have hlist : (episodeDirName i).toList = "episode_".toList ++ (zeroPad 6 i.toNat).toList := by
    rw [episodeDirName, String.toList_append]
  have hhead : (episodeDirName i).toList.head? = some 'e' := by
    rw [hlist]
    rfl
  refine ⟨single_ofString ?_ ?_ ?_, ?_⟩
  · rw [hlist, List.mem_append, not_or]
    exact ⟨by decide, not_mem_zeroPad rfl⟩
  · intro heq
    rw [heq] at hhead
    cases hhead
  · intro heq
    rw [heq] at hhead
    cases hhead
  · intro heq
    have hdots : episodeDirName i = ".." := ofString_injective heq
    rw [hdots] at hhead
    cases hhead

theorem size_zeroPad (width n : ℕ) :
    (zeroPad width n).utf8ByteSize = max width (Nat.toDigits 10 n).length := by
  have hone : ∀ c ∈ (zeroPad width n).toList, (String.utf8EncodeChar c).length = 1 := by
    intro c hc
    have hdigit := zeroPad_digits hc
    rw [String.length_utf8EncodeChar, Char.utf8Size_eq_one_iff]
    simp only [Char.isDigit, Bool.and_eq_true, decide_eq_true_eq] at hdigit
    exact UInt32.le_trans hdigit.2 (by decide)
  rw [← length_ofString, ofString_eq, List.length_flatMap, List.map_congr_left hone, List.map_const',
    List.sum_replicate_nat, Nat.mul_one, zeroPad, String.toList_ofList, List.length_leftpad]

theorem size_stagedAs (config : AssemblerRuntimeConfigV2) (i : UInt32) :
    (stagedAs config i).stagingDir.utf8ByteSize ≤ config.stagingDir.utf8ByteSize + 19 := by
  have hdigits : (Nat.toDigits 10 i.toNat).length ≤ 10 := by
    have hi := i.toNat_lt
    exact (Nat.length_toDigits_le_iff (by decide) (by decide)).mpr (by omega)
  have hslash : "/".utf8ByteSize = 1 := by decide
  have hname : "episode_".utf8ByteSize = 8 := by decide
  rw [stagedAs, episodeDirName, String.utf8ByteSize_append, String.utf8ByteSize_append,
    String.utf8ByteSize_append, size_zeroPad, hslash, hname]
  omega

/-- What is below the directory of an episode stands behind the episode's name. -/
theorem below_staged {i : UInt32} {file : DataloopStorage.File} (hdir : config.stagingDir ≠ "")
    (h : DataloopStorage.below (stagedAs config i).stagingDir file = true) :
    denotes (ofString config.stagingDir) ++ [ofString (episodeDirName i)] <+: file.location := by
  obtain ⟨hsingle, hup⟩ := single_episodeDir i
  have hslash : ofString "/" = [slash] := by decide
  have hpath : ofString (stagedAs config i).stagingDir =
      ofString config.stagingDir ++ slash :: ofString (episodeDirName i) := by
    simp [stagedAs, hslash]
  have hne : ofString config.stagingDir ≠ [] := fun hnil => hdir (ofString_injective hnil)
  unfold DataloopStorage.below at h
  rw [hpath, denotes_child hne hsingle hup, Bool.and_eq_true] at h
  exact List.isPrefixOf_iff_prefix.mp h.1

/-- Where the staging directory leaves room for the episode in a message, no file is below the
directories of two requests: what is uploaded and removed for one episode is never of another. -/
theorem uploads_apart (h : Runs bfbsDir (DataloopStorage.uploadEpisode projectId)
      DataloopStorage.Adds config w actions) (hdir : config.stagingDir ≠ "")
    (hfit : config.stagingDir.utf8ByteSize ≤ 237) :
    ∀ x ∈ (run bfbsDir (DataloopStorage.uploadEpisode projectId) config w actions).storage.served,
    ∀ y ∈ (run bfbsDir (DataloopStorage.uploadEpisode projectId) config w actions).storage.served,
    ∀ file, DataloopStorage.below x.request.stagingDir file = true →
      DataloopStorage.below y.request.stagingDir file = true → x.request = y.request := by
  intro x hx y hy file hbelow hbelow'
  have hrequest (i : UInt32) : StorageRuns.readyRequest (McapAssembler.readyOf (stagedAs config i)) =
      ⟨i, (stagedAs config i).stagingDir⟩ := by
    have hsize : (stagedAs config i).stagingDir.utf8ByteSize ≤ 256 :=
      (size_stagedAs config i).trans (by omega)
    simp only [StorageRuns.readyRequest, McapAssembler.readyOf, FixedString.asStr_new hsize]
    rfl
  have hx := served_directory h x hx
  have hy := served_directory h y hy
  rw [hrequest] at hx hy
  rw [hx] at hbelow
  rw [hy] at hbelow'
  have hname := child_unique (below_staged hdir hbelow) (below_staged hdir hbelow')
  have hindex := DatasetDescription.episodeDirName_inj (ofString_injective hname)
  rw [hx, hy, hindex]

def stagedFile (dir : String) : DataloopStorage.File :=
  ⟨denotes (ofString ("/staging/" ++ dir ++ "/episode.mcap")), [1]⟩

def sampleUpload (added : List DataloopStorage.File) :
    List (Action DataloopStorage.World DataloopStorage.Answers) :=
  [.storage (.loop .eventsDrained), .storage (.loop .controlDrained), .storage (.loop .takeReady),
    .storage (.loop .readyDrained),
    .storage (.work
      { listed := .ok (), added := added, createEpisode := .ok "remote"
        getEpisode := .ok ⟨"episodes/remote", "data"⟩, uploadToEpisode := .ok ⟨1, 0⟩
        kept := fun _ => false }),
    .storage (.loop .takeEvent), .release]

def sampleSession : List (Action DataloopStorage.World DataloopStorage.Answers) :=
  sampleFirst.map .assembler ++ sampleUpload [stagedFile "episode_000001"] ++
    sampleSecond.map .assembler ++ sampleUpload []

def sampleWorld : DataloopStorage.World where
  files := [stagedFile "episode_000000"]

theorem sample_runs : Runs "bfbs" (DataloopStorage.uploadEpisode "p") DataloopStorage.Adds
    McapStaging.mcapConfig sampleWorld sampleSession := by decide +kernel

theorem sample_uploads_apart :
    (run "bfbs" (DataloopStorage.uploadEpisode "p") McapStaging.mcapConfig sampleWorld
      sampleSession).storage.served.map (·.request) =
      [⟨0, "/staging/episode_000000"⟩, ⟨1, "/staging/episode_000001"⟩] ∧
    ∀ x ∈ (run "bfbs" (DataloopStorage.uploadEpisode "p") McapStaging.mcapConfig sampleWorld
      sampleSession).storage.served,
    ∀ y ∈ (run "bfbs" (DataloopStorage.uploadEpisode "p") McapStaging.mcapConfig sampleWorld
      sampleSession).storage.served,
    ∀ file, DataloopStorage.below x.request.stagingDir file = true →
      DataloopStorage.below y.request.stagingDir file = true → x.request = y.request :=
  ⟨by decide +kernel, uploads_apart sample_runs (by decide) (by decide)⟩

end Directories

end McapSession
