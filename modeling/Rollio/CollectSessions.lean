import Rollio.ControllerEpisode
import Rollio.DatasetResume
import Rollio.LocalStorage
import Rollio.PartialRuns

/-! Collect sessions one after another on one output path. The controller's probe decides the
first index of a session, and the storage process replaces what an index already names. -/
namespace CollectSessions
open BusMessages RuntimeConfig ControllerEpisode DatasetResume LocalStorage PartialRuns

structure Project where
  config : ProjectConfig
  invocationCwd : String
  toml : String
  readDir : OutputRoot → String → Option DatasetDir

structure Recording where
  ordinal : UInt32
  staged : Directory
  deriving DecidableEq, Repr

structure Session where
  calls : List LifecycleCall
  stores : List Recording

structure Dataset where
  root : OutputRoot
  stored : List EpisodeReadyRequest := []

def firstIndices (hint : Option DatasetResumeHint) : UInt32 × UInt32 :=
  match hint with
  | some h => (h.nextEpisodeIndex, h.priorStoredEpisodeCount)
  | none => (0, 0)

def probe (p : Project) (d : Dataset) : Except String (Option DatasetResumeHint) :=
  probeResume p.config p.invocationCwd p.toml (p.readDir d.root)

def request (n₀ : UInt32) (r : Recording) : EpisodeReadyRequest :=
  ⟨n₀ + r.ordinal, r.staged⟩

def runSession (p : Project) (d : Dataset) (s : Session) : Except String Dataset := do
  let hint ← probe p d
  let requests := s.stores.map (request (firstIndices hint).1)
  let root ← requests.foldlM (storeEpisodeLocal ⟨p.config.outputPath⟩) d.root
  return ⟨root, d.stored ++ requests⟩

/-- A session stores episodes it kept, each once. -/
def Produced (p : Project) (d : Dataset) (s : Session) : Prop :=
  (s.stores.map (·.ordinal)).Nodup ∧ ∀ hint, probe p d = .ok hint → ∀ r ∈ s.stores,
    .episodeKeep ((firstIndices hint).1 + r.ordinal) ∈
      (runLifecycle (firstIndices hint).1 (firstIndices hint).2 s.calls).emitted

inductive Runs (p : Project) (root₀ : OutputRoot) : List Session → Dataset → Prop where
  | nil : Runs p root₀ [] ⟨root₀, []⟩
  | session {sessions : List Session} {d d' : Dataset} {s : Session}
      (h : Runs p root₀ sessions d) (hs : Produced p d s) (hd : runSession p d s = .ok d') :
      Runs p root₀ (sessions ++ [s]) d'

/-- Every episode ever stored is still there as it was stored. -/
def Intact (d : Dataset) : Prop :=
  ∀ r ∈ d.stored, d.root[episodeDir r.episodeIndex]? = some r.staged

def Preserved (p : Project) (root₀ : OutputRoot) (sessions : List Session) : Prop :=
  ∀ earlier d, earlier <+: sessions → Runs p root₀ earlier d → Intact d

/-- No two sessions store different files for the same position. -/
def Compatible (sessions : List Session) : Prop :=
  sessions.Pairwise fun a b => ∀ r ∈ a.stores, ∀ r' ∈ b.stores,
    r.ordinal = r'.ordinal → r.staged = r'.staged

instance (sessions : List Session) : Decidable (Compatible sessions) :=
  inferInstanceAs (Decidable (sessions.Pairwise fun a b => ∀ r ∈ a.stores, ∀ r' ∈ b.stores,
    r.ordinal = r'.ordinal → r.staged = r'.staged))

section Stores
variable {config : StorageRuntimeConfig} {root root' : OutputRoot}
  {requests : List EpisodeReadyRequest}

theorem stores_frame (h : requests.foldlM (storeEpisodeLocal config) root = .ok root')
    {i : UInt32} (hi : ∀ r ∈ requests, r.episodeIndex ≠ i) :
    root'[episodeDir i]? = root[episodeDir i]? := by
  refine foldlM_preserves (P := fun t : OutputRoot =>
    t[episodeDir i]? = root[episodeDir i]?) (fun r hr s t hs ht => ?_) rfl h
  rw [storeEpisodeLocal_lookup ht, if_neg, hs]
  exact fun he => hi r hr (episodeDir_injective he.symm)

theorem stores_served (h : requests.foldlM (storeEpisodeLocal config) root = .ok root')
    (hn : (requests.map (·.episodeIndex)).Nodup) :
    ∀ r ∈ requests, root'[episodeDir r.episodeIndex]? = some r.staged := by
  induction requests generalizing root with
  | nil => simp
  | cons q requests ih =>
    rw [List.foldlM_cons] at h
    cases hq : storeEpisodeLocal config root q with
    | error e => rw [hq] at h; cases h
    | ok t =>
      rw [hq] at h
      obtain ⟨hfresh, hrest⟩ := List.nodup_cons.mp hn
      intro r hr
      rcases List.mem_cons.mp hr with rfl | hr
      · rw [stores_frame h, storeEpisodeLocal_lookup hq, if_pos rfl]
        exact fun q' hq' he => hfresh (List.mem_map.mpr ⟨q', hq', he⟩)
      · exact ih h hrest r hr

end Stores

section Mcap
variable {p : Project} {root₀ : OutputRoot} {sessions : List Session} {d d' : Dataset}
  {s : Session}

/-- An MCAP session counts from zero, whatever is stored already. -/
theorem runSession_mcap (hmcap : p.config.format = .mcap) (h : runSession p d s = .ok d') :
    (s.stores.map (request 0)).foldlM (storeEpisodeLocal ⟨p.config.outputPath⟩) d.root =
        .ok d'.root ∧ d'.stored = d.stored ++ s.stores.map (request 0) := by
  have hprobe : probe p d = .ok none := probeResume_mcap hmcap _ _ _
  unfold runSession at h
  rw [hprobe] at h
  simp only [firstIndices, bind, Except.bind] at h
  split at h
  · cases h
  · next root hroot =>
    cases h
    exact ⟨hroot, rfl⟩

/-- With an output path every request is served. -/
theorem runSession_total (hmcap : p.config.format = .mcap) {path : String}
    (hpath : p.config.outputPath = some path) (d : Dataset) (s : Session) :
    ∃ d', runSession p d s = .ok d' := by
  have hprobe : probe p d = .ok none := probeResume_mcap hmcap _ _ _
  obtain ⟨root, hroot, -⟩ := foldlM_total (P := fun _ : OutputRoot => True)
    (l := s.stores.map (request 0)) (f := storeEpisodeLocal ⟨p.config.outputPath⟩) (s := d.root)
    (fun r _ root _ => ⟨_, by rw [storeEpisodeLocal, hpath], trivial⟩) trivial
  refine ⟨⟨root, d.stored ++ s.stores.map (request 0)⟩, ?_⟩
  unfold runSession
  rw [hprobe]
  simp only [firstIndices, bind, Except.bind, hroot]
  rfl

theorem stored_mcap (hmcap : p.config.format = .mcap) (h : Runs p root₀ sessions d) :
    d.stored = sessions.flatMap fun s => s.stores.map (request 0) := by
  induction h with
  | nil => rfl
  | session _ _ hd ih => simp [(runSession_mcap hmcap hd).2, ih]

theorem request_zero_index (r : Recording) : (request 0 r).episodeIndex = r.ordinal :=
  UInt32.zero_add _

theorem produced_mcap (hmcap : p.config.format = .mcap) : Produced p d s ↔
    (s.stores.map (·.ordinal)).Nodup ∧ ∀ r ∈ s.stores,
      .episodeKeep r.ordinal ∈ (runLifecycle 0 0 s.calls).emitted := by
  have hprobe : probe p d = .ok none := probeResume_mcap hmcap _ _ _
  simp [Produced, hprobe, firstIndices]

theorem requests_nodup (hs : Produced p d s) :
    ((s.stores.map (request 0)).map (·.episodeIndex)).Nodup := by
  simpa [List.map_map, Function.comp_def, request_zero_index] using hs.1

/-- One more session keeps what is stored if it stores the same again or elsewhere. -/
theorem Intact.session (hmcap : p.config.format = .mcap) (h : Intact d) (hs : Produced p d s)
    (hd : runSession p d s = .ok d')
    (hc : ∀ q ∈ d.stored, ∀ r ∈ s.stores, q.episodeIndex = r.ordinal → q.staged = r.staged) :
    Intact d' := by
  obtain ⟨hroot, hstored⟩ := runSession_mcap hmcap hd
  have hserved := stores_served hroot (requests_nodup hs)
  intro q hq
  rw [hstored] at hq
  rcases List.mem_append.mp hq with hq | hq
  · by_cases hnew : ∃ r ∈ s.stores, q.episodeIndex = r.ordinal
    · obtain ⟨r, hr, he⟩ := hnew
      have hsame := hserved (request 0 r) (List.mem_map_of_mem hr)
      rw [request_zero_index] at hsame
      rw [he, hsame, hc q hq r hr he]
      rfl
    · rw [stores_frame hroot, h q hq]
      intro q' hq' he
      obtain ⟨r, hr, rfl⟩ := List.mem_map.mp hq'
      exact hnew ⟨r, hr, by rw [← he, request_zero_index]⟩
  · exact hserved q hq

theorem intact_of_compatible (hmcap : p.config.format = .mcap) (h : Runs p root₀ sessions d)
    (hc : Compatible sessions) : Intact d := by
  induction h with
  | nil => simp [Intact]
  | session hr hs hd ih =>
    obtain ⟨hc, -, hlast⟩ := List.pairwise_append.mp hc
    refine (ih hc).session hmcap hs hd fun q hq r hr' he => ?_
    rw [stored_mcap hmcap hr] at hq
    obtain ⟨a, ha, hqa⟩ := List.mem_flatMap.mp hq
    obtain ⟨q₀, hq₀, rfl⟩ := List.mem_map.mp hqa
    rw [request_zero_index] at he
    exact hlast a ha _ (List.mem_singleton.mpr rfl) q₀ hq₀ r hr' he

theorem compatible_of_preserved (hmcap : p.config.format = .mcap)
    (h : Runs p root₀ sessions d) (hp : Preserved p root₀ sessions) : Compatible sessions := by
  induction h with
  | nil => exact List.Pairwise.nil
  | @session sessions d d' s hr hs hd ih =>
    have hpre := ih fun earlier e he => hp earlier e (he.trans (List.prefix_append _ _))
    refine List.pairwise_append.mpr ⟨hpre, List.pairwise_singleton _ _, fun a ha b hb => ?_⟩
    obtain rfl := List.mem_singleton.mp hb
    intro r hra r' hrb he
    have hintact := hp _ d' List.prefix_rfl (hr.session hs hd)
    have hstored := stored_mcap hmcap (hr.session hs hd)
    have hr₁ := hintact (request 0 r) (by
      rw [hstored]
      exact List.mem_flatMap.mpr ⟨a, by simp [ha], List.mem_map_of_mem hra⟩)
    have hr₂ := hintact (request 0 r') (by
      rw [hstored]
      exact List.mem_flatMap.mpr ⟨b, by simp, List.mem_map_of_mem hrb⟩)
    rw [request_zero_index, he] at hr₁
    rw [request_zero_index] at hr₂
    exact Option.some.inj (hr₁.symm.trans hr₂)

end Mcap

/-- MCAP sessions leave each other's episodes alone exactly when no two of them store
different files for the same position. -/
theorem preserved_iff_compatible (p : Project) (hmcap : p.config.format = .mcap)
    (root₀ : OutputRoot) (sessions : List Session) (d : Dataset)
    (h : Runs p root₀ sessions d) : Preserved p root₀ sessions ↔ Compatible sessions := by
  refine ⟨compatible_of_preserved hmcap h, fun hc earlier e he hr => ?_⟩
  exact intact_of_compatible hmcap hr (List.Pairwise.sublist he.sublist hc)

def sampleProject : Project where
  config := ⟨.mcap, some "/data"⟩
  invocationCwd := "/home"
  toml := ""
  readDir _ _ := some {}

def oneKept : List LifecycleCall :=
  [.handleCommand .start 0 10, .handleCommand .stop 1 20, .handleCommand .keep 2 30]

def oneDiscarded : List LifecycleCall :=
  [.handleCommand .start 3 40, .handleCommand .stop 4 50, .handleCommand .discard 5 60]

def firstSession : Session := ⟨oneKept, [⟨0, [("episode.mcap", [1])]⟩]⟩
def disjointSession : Session := ⟨oneDiscarded ++ oneKept, [⟨1, [("episode.mcap", [2])]⟩]⟩
def repeatedSession : Session := ⟨oneKept, [⟨0, [("episode.mcap", [2])]⟩]⟩

theorem runs_pair (s t : Session)
    (hs : (s.stores.map (·.ordinal)).Nodup ∧ ∀ r ∈ s.stores,
      .episodeKeep r.ordinal ∈ (runLifecycle 0 0 s.calls).emitted)
    (ht : (t.stores.map (·.ordinal)).Nodup ∧ ∀ r ∈ t.stores,
      .episodeKeep r.ordinal ∈ (runLifecycle 0 0 t.calls).emitted) :
    ∃ d, Runs sampleProject ∅ [s, t] d := by
  obtain ⟨d, hd⟩ := runSession_total (p := sampleProject) rfl rfl ⟨∅, []⟩ s
  obtain ⟨d', hd'⟩ := runSession_total (p := sampleProject) rfl rfl d t
  exact ⟨d', .session (.session .nil ((produced_mcap rfl).mpr hs) hd)
    ((produced_mcap rfl).mpr ht) hd'⟩

theorem disjoint_sessions_preserved :
    Preserved sampleProject ∅ [firstSession, disjointSession] ↔
      Compatible [firstSession, disjointSession] := by
  obtain ⟨d, hruns⟩ := runs_pair firstSession disjointSession (by decide) (by decide)
  exact preserved_iff_compatible sampleProject rfl ∅ _ d hruns

/-- The second session's first episode takes the place of the first session's. -/
theorem repeated_session_overwrites : ¬ ∀ p root₀ sessions d, p.config.format = .mcap →
    Runs p root₀ sessions d → Preserved p root₀ sessions := by
  intro hall
  obtain ⟨d, hruns⟩ := runs_pair firstSession repeatedSession (by decide) (by decide)
  have hpreserved := hall sampleProject ∅ _ d rfl hruns
  exact absurd (compatible_of_preserved rfl hruns hpreserved) (by decide)

end CollectSessions
