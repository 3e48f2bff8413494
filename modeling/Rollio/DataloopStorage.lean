import Mathlib.Data.List.Sort
import Rollio.ProjectConfigs
import Rollio.StorageRuns
import Rollio.UnixPaths

/-! The storage process that uploads to Dataloop: a staging directory is removed only when every file
that was listed in it was accepted, whatever the client library answers. What others put there
while the files are uploaded goes with it. -/
namespace DataloopStorage
open ProjectConfigs StorageRuns UnixPaths PartialRuns
open StorageProcess (EpisodeReadyRequest)
open Text (blank)

structure File where
  location : List Name
  content : List UInt8
  deriving DecidableEq

structure EpisodeMetadata where
  episodePath : String
  bucket : String
  deriving DecidableEq

structure UploadToEpisodeResult where
  succeeded : UInt32
  failed : UInt32
  deriving DecidableEq

inductive ClientCall where
  | createEpisode (file : File) (projectId tagsJson : String) (result : Except String String)
  | getEpisode (episodeId : String) (result : Except String EpisodeMetadata)
  | uploadToEpisode (files : List File) (metadata : EpisodeMetadata)
    (result : Except String UploadToEpisodeResult)
  deriving DecidableEq

structure World where
  files : List File
  calls : List ClientCall := []

section Client

def cString (s : String) : Except String Unit :=
  let bytes := ofString s
  if 0 ∈ bytes then
    .error ("nul byte found in provided data at position: " ++ toString (bytes.idxOf 0))
  else .ok ()

def pathToCstring (file : File) : Except String Unit :=
  if file.location.all fun name => (String.fromUTF8? ⟨name.toArray⟩).isSome then .ok ()
  else .error "path contains non-UTF-8 characters"

/-- The library is called when the arguments can be passed to it. -/
def call {τ : Type} (w : World) (arguments : Except String Unit)
    (record : Except String τ → ClientCall) (answer : Except String τ) : Except String τ × World :=
  match arguments with
  | .error e => (.error e, w)
  | .ok () => (answer, { w with calls := w.calls ++ [record answer] })

def createEpisode (w : World) (file : File) (projectId tagsJson : String)
    (answer : Except String String) : Except String String × World :=
  call w (do pathToCstring file; cString projectId; cString tagsJson)
    (.createEpisode file projectId tagsJson) answer

def getEpisode (w : World) (episodeId : String) (answer : Except String EpisodeMetadata) :
    Except String EpisodeMetadata × World :=
  call w (cString episodeId) (.getEpisode episodeId) answer

def uploadToEpisode (w : World) (files : List File) (metadata : EpisodeMetadata)
    (answer : Except String UploadToEpisodeResult) :
    Except String UploadToEpisodeResult × World :=
  call w (do files.forM pathToCstring; cString metadata.episodePath; cString metadata.bucket)
    (.uploadToEpisode files metadata) answer

end Client

section Startup

/-- A setting that is not blank, or what the environment names. -/
def resolve (setting environment : Option String) (missing : String) : Except String String :=
  match setting.filter (!blank ·), environment with
  | some value, _ => .ok value
  | none, some value => .ok value
  | none, none => .error missing

def resolveBaseUrl (env : String → Option String) (config : StorageConfig) : Except String String :=
  resolve config.endpoint (env "DATALOOP_BASE_URL")
    "dataloop base_url not found in config.endpoint or DATALOOP_BASE_URL env var"

def resolveToken (env : String → Option String) (config : StorageConfig) : Except String String :=
  resolve config.dataloopToken (env "DATALOOP_TOKEN")
    "dataloop token not found in config or DATALOOP_TOKEN env var"

def resolveProjectId (env : String → Option String) (config : StorageConfig) :
    Except String String :=
  resolve config.dataloopProjectId ((env "DATALOOP_PROJECT_ID").or (env "PROJECT_ID"))
    "dataloop project_id not found in config or DATALOOP_PROJECT_ID env var"

def newClient (baseUrl token : String) (answer : Except String Unit) : Except String Unit := do
  cString baseUrl
  cString token
  answer

def startWorker (env : String → Option String) (config : StorageConfig)
    (answer : Except String Unit) : Except String String := do
  let baseUrl ← resolveBaseUrl env config
  let token ← resolveToken env config
  let projectId ← resolveProjectId env config
  match newClient baseUrl token answer with
  | .ok () => pure projectId
  | .error e => throw ("failed to create dataloop client: " ++ e)

/-- An accepted configuration names its project and the service, whatever the environment has. -/
theorem resolve_of_accepted {config : StorageConfig} (env : String → Option String)
    (h : config.validate = .ok ()) (hbackend : config.backend = .dataloop) :
    ∃ baseUrl projectId, config.endpoint = some baseUrl ∧
      config.dataloopProjectId = some projectId ∧ resolveBaseUrl env config = .ok baseUrl ∧
      resolveProjectId env config = .ok projectId := by
  have hresolve {setting environment : Option String} {missing : String}
      (hset : setting.all blank = false) :
      ∃ value, setting = some value ∧ resolve setting environment missing = .ok value := by
    cases setting with
    | none => cases hset
    | some value =>
      have hblank : blank value = false := hset
      exact ⟨value, rfl, by simp [resolve, Option.filter, hblank]⟩
  unfold StorageConfig.validate at h
  simp only [hbackend] at h
  have hendpoint : config.endpoint.all blank = false := by
    by_contra hall
    simp [eq_true_of_ne_false hall] at h
  have hproject : config.dataloopProjectId.all blank = false := by
    by_contra hall
    simp [eq_true_of_ne_false hall, hendpoint] at h
  obtain ⟨baseUrl, hurl, hbase⟩ := hresolve hendpoint
  obtain ⟨projectId, hid, hproj⟩ := hresolve hproject
  exact ⟨baseUrl, projectId, hurl, hid, hbase, hproj⟩

end Startup

section Upload

/-- What the file system and the library answer while one episode is uploaded. Nothing reads the
files between their listing and the removal of the directory, and `added` are those that others put
there meanwhile; `kept` are the files that the removal leaves, whose error is ignored. -/
structure Answers where
  listed : Except String Unit
  added : List File := []
  createEpisode : Except String String
  getEpisode : Except String EpisodeMetadata
  uploadToEpisode : Except String UploadToEpisodeResult
  kept : File → Bool

def below (dir : String) (file : File) : Bool :=
  (denotes (ofString dir)).isPrefixOf file.location && file.location ≠ denotes (ofString dir)

def collectFiles (w : World) (dir : String) (listed : Except String Unit) :
    Except String (List File) := do
  listed
  pure ((w.files.filter (below dir)).insertionSort fun f g => f.location ≤ g.location)

def tagsJson (episodeIndex : UInt32) : String :=
  "\x7b\"episode_index\":\"" ++ toString episodeIndex.toNat ++ "\",\"source\":\"rollio\"\x7d"

def uploadRemaining (w : World) (episodeId : String) (remaining : List File) (a : Answers) :
    Except String Unit × World :=
  if remaining.isEmpty then (.ok (), w)
  else
    match getEpisode w episodeId a.getEpisode with
    | (.error e, w) => (.error ("get_episode failed: " ++ e), w)
    | (.ok metadata, w) =>
      match uploadToEpisode w remaining metadata a.uploadToEpisode with
      | (.error e, w) => (.error ("upload_to_episode failed: " ++ e), w)
      | (.ok result, w) =>
        if result.failed > 0 then
          (.error ("upload_to_episode: " ++ toString result.failed.toNat ++ " files failed"), w)
        else (.ok (), w)

def removeDirAll (w : World) (dir : String) (kept : File → Bool) : World :=
  { w with files := w.files.filter fun file => !below dir file || kept file }

def uploadEpisode (projectId : String) (w : World) (request : EpisodeReadyRequest) (a : Answers) :
    Except String String × World :=
  let files := collectFiles w request.stagingDir a.listed
  let w := { w with files := w.files ++ a.added }
  match files with
  | .error e => (.error e, w)
  | .ok [] => (.error ("staging dir is empty: " ++ request.stagingDir), w)
  | .ok (anchor :: remaining) =>
    match createEpisode w anchor projectId (tagsJson request.episodeIndex) a.createEpisode with
    | (.error e, w) => (.error ("create_episode failed: " ++ e), w)
    | (.ok episodeId, w) =>
      match uploadRemaining w episodeId remaining a with
      | (.error e, w) => (.error e, w)
      | (.ok (), w) => (.ok episodeId, removeDirAll w request.stagingDir a.kept)

end Upload

section Accepting

/-- The library took the file as a part of the episode. -/
def Accepted (calls : List ClientCall) (episodeId : String) (file : File) : Prop :=
  (∃ projectId tags, .createEpisode file projectId tags (.ok episodeId) ∈ calls) ∨
    ∃ files metadata succeeded, .getEpisode episodeId (.ok metadata) ∈ calls ∧
      .uploadToEpisode files metadata (.ok ⟨succeeded, 0⟩) ∈ calls ∧ file ∈ files

theorem Accepted.mono {calls more : List ClientCall} {episodeId : String} {file : File}
    (h : Accepted calls episodeId file) (hmore : calls ⊆ more) : Accepted more episodeId file := by
  rcases h with ⟨projectId, tags, hcall⟩ | ⟨files, metadata, succeeded, hget, hupload, hfile⟩
  · exact .inl ⟨projectId, tags, hmore hcall⟩
  · exact .inr ⟨files, metadata, succeeded, hmore hget, hmore hupload, hfile⟩

variable {τ : Type} {w w' : World} {arguments : Except String Unit}
  {record : Except String τ → ClientCall} {answer : Except String τ}

/-- A call leaves the files alone and forgets no call. -/
theorem call_frame (w : World) (arguments : Except String Unit)
    (record : Except String τ → ClientCall) (answer : Except String τ) :
    (call w arguments record answer).2.files = w.files ∧
      w.calls ⊆ (call w arguments record answer).2.calls := by
  unfold call
  cases arguments with
  | error e => exact ⟨rfl, List.Subset.refl _⟩
  | ok _ => exact ⟨rfl, List.subset_append_left _ _⟩

theorem call_ok {result : τ} (h : call w arguments record answer = (.ok result, w')) :
    record (.ok result) ∈ w'.calls ∧ w'.files = w.files ∧ w.calls ⊆ w'.calls := by
  unfold call at h
  cases arguments with
  | error e => cases h
  | ok _ =>
    cases h
    exact ⟨List.mem_append_right _ (List.mem_singleton.mpr rfl), rfl,
      List.subset_append_left _ _⟩

theorem call_error {e : String} (h : call w arguments record answer = (.error e, w')) :
    w'.files = w.files ∧ w.calls ⊆ w'.calls := by
  have hframe := call_frame w arguments record answer
  rw [h] at hframe
  exact hframe

end Accepting

section Uploading
variable {projectId episodeId : String} {w w' : World} {request : EpisodeReadyRequest}
  {a : Answers} {remaining : List File}

theorem uploadRemaining_frame (w : World) (episodeId : String) (remaining : List File)
    (a : Answers) : (uploadRemaining w episodeId remaining a).2.files = w.files ∧
      w.calls ⊆ (uploadRemaining w episodeId remaining a).2.calls := by
  unfold uploadRemaining
  split
  · exact ⟨rfl, List.Subset.refl _⟩
  · split
    · next e w₁ hget => exact call_error hget
    · next metadata w₁ hget =>
      obtain ⟨-, hfiles, hcalls⟩ := call_ok hget
      split
      · next e w₂ hupload =>
        obtain ⟨hfiles', hcalls'⟩ := call_error hupload
        exact ⟨hfiles'.trans hfiles, List.Subset.trans hcalls hcalls'⟩
      · next result w₂ hupload =>
        obtain ⟨-, hfiles', hcalls'⟩ := call_ok hupload
        split <;> exact ⟨hfiles'.trans hfiles, List.Subset.trans hcalls hcalls'⟩

theorem uploadRemaining_ok (h : uploadRemaining w episodeId remaining a = (.ok (), w')) :
    ∀ file ∈ remaining, Accepted w'.calls episodeId file := by
  intro file hfile
  unfold uploadRemaining at h
  rw [if_neg (by simpa [List.isEmpty_iff] using List.ne_nil_of_mem hfile)] at h
  split at h
  · cases h
  · next metadata w₁ hget =>
    split at h
    · cases h
    · next result w₂ hupload =>
      split at h
      · cases h
      · next hfailed =>
        cases h
        obtain ⟨hgot, -, -⟩ := call_ok hget
        obtain ⟨huploaded, -, hcalls⟩ := call_ok hupload
        have hnone : result.failed = 0 := by
          by_contra hne
          exact hfailed (UInt32.pos_iff_ne_zero.mpr hne)
        refine .inr ⟨remaining, metadata, result.succeeded, hcalls hgot, ?_, hfile⟩
        rwa [← hnone]

theorem mem_collectFiles {listed : Except String Unit} {files : List File} {dir : String}
    {file : File} (h : collectFiles w dir listed = .ok files) :
    file ∈ files ↔ file ∈ w.files ∧ below dir file = true := by
  unfold collectFiles at h
  cases listed with
  | error e => cases h
  | ok _ =>
    cases h
    rw [List.mem_insertionSort, List.mem_filter]

structure Uploaded (projectId : String) (w : World) (request : EpisodeReadyRequest)
    (added : List File) (result : Except String String) (w' : World) : Prop where
  calls : w.calls ⊆ w'.calls
  files : w'.files ⊆ w.files ++ added
  failed : result.isOk = false → w'.files = w.files ++ added
  elsewhere : ∀ file ∈ w.files ++ added, below request.stagingDir file = false → file ∈ w'.files
  tagged : ∀ episodeId, result = .ok episodeId → ∃ file ∈ w.files,
    below request.stagingDir file = true ∧
      .createEpisode file projectId (tagsJson request.episodeIndex) (.ok episodeId) ∈ w'.calls
  accepted : ∀ episodeId, result = .ok episodeId → ∀ file ∈ w.files,
    below request.stagingDir file = true → Accepted w'.calls episodeId file

/-- An upload that fails removes nothing. -/
theorem Uploaded.of_error {added : List File} {e : String} (hfiles : w'.files = w.files ++ added)
    (hcalls : w.calls ⊆ w'.calls) : Uploaded projectId w request added (.error e) w' where
  calls := hcalls
  files := hfiles ▸ List.Subset.refl _
  failed := fun _ => hfiles
  elsewhere := fun _ hfile _ => hfiles ▸ hfile
  tagged := nofun
  accepted := nofun

theorem uploadEpisode_spec (projectId : String) (w : World) (request : EpisodeReadyRequest)
    (a : Answers) : Uploaded projectId w request a.added (uploadEpisode projectId w request a).1
      (uploadEpisode projectId w request a).2 := by
  unfold uploadEpisode
  dsimp only
  split
  · exact .of_error rfl (List.Subset.refl _)
  · exact .of_error rfl (List.Subset.refl _)
  · next anchor remaining hfiles =>
    have hanchor := (mem_collectFiles hfiles).mp List.mem_cons_self
    split
    · next e w₁ hcreate =>
      obtain ⟨hsame, hcalls⟩ := call_error hcreate
      exact .of_error hsame hcalls
    · next episodeId w₁ hcreate =>
      obtain ⟨hcreated, hsame, hcalls⟩ := call_ok hcreate
      obtain ⟨hsame', hcalls'⟩ := uploadRemaining_frame w₁ episodeId remaining a
      split
      · next e w₂ hremaining =>
        rw [hremaining] at hsame' hcalls'
        exact .of_error (hsame'.trans hsame) (List.Subset.trans hcalls hcalls')
      · next w₂ hremaining =>
        have haccepted := uploadRemaining_ok hremaining
        rw [hremaining] at hsame' hcalls'
        have hkept : w₂.files = w.files ++ a.added := hsame'.trans hsame
        refine ⟨List.Subset.trans hcalls hcalls', ?_, nofun, fun file hfile houtside => ?_, ?_, ?_⟩
        · rw [← hkept]
          exact fun file hfile => (List.mem_filter.mp hfile).1
        · exact List.mem_filter.mpr ⟨hkept ▸ hfile, by simp [houtside]⟩
        · intro id hid
          cases hid
          exact ⟨anchor, hanchor.1, hanchor.2, hcalls' hcreated⟩
        · intro id hid file hfile hbelow
          cases hid
          rcases List.mem_cons.mp ((mem_collectFiles hfiles).mpr ⟨hfile, hbelow⟩) with rfl | hrest
          · exact .inl ⟨_, _, hcalls' hcreated⟩
          · exact haccepted file hrest

end Uploading

section Runs
variable {projectId : String} {w : World} {p : Process World Answers}
  {pre post : List (Action World Answers)}

def Adds (w w' : World) : Prop := w.files ⊆ w'.files ∧ w'.calls = w.calls

instance : DecidableRel Adds := fun _ _ => inferInstanceAs (Decidable (_ ∧ _))

def Complete (projectId : String) (p : Process World Answers) : Prop :=
  ∀ x ∈ p.served, ∀ episodeId, x.result (uploadEpisode projectId) = .ok episodeId →
    (∃ file ∈ x.world.files, below x.request.stagingDir file = true ∧ .createEpisode file projectId
      (tagsJson x.request.episodeIndex) (.ok episodeId) ∈ p.world.calls) ∧
    ∀ file ∈ x.world.files, below x.request.stagingDir file = true →
      Accepted p.world.calls episodeId file

def Lasting (projectId : String) (p : Process World Answers) (file : File) : Prop :=
  file ∈ p.world.files ∨ ∃ x ∈ p.served, ∃ episodeId,
    x.result (uploadEpisode projectId) = .ok episodeId ∧
      file ∈ x.world.files ∧ below x.request.stagingDir file = true

def AddedLast (projectId : String) (p : Process World Answers) : Prop :=
  ∀ x ∈ p.served, ∀ file ∈ x.answers.added, Lasting projectId p file ∨
    (x.result (uploadEpisode projectId)).isOk = true ∧ below x.request.stagingDir file = true

theorem Complete.mono {p' : Process World Answers} (h : Complete projectId p)
    (hserved : p'.served = p.served) (hcalls : p.world.calls ⊆ p'.world.calls) :
    Complete projectId p' := by
  intro x hx episodeId hok
  obtain ⟨⟨file, hfile, hbelow, hcreated⟩, hall⟩ := h x (hserved ▸ hx) episodeId hok
  exact ⟨⟨file, hfile, hbelow, hcalls hcreated⟩, fun file hfile hbelow =>
    (hall file hfile hbelow).mono hcalls⟩

theorem Lasting.mono {file : File} {p' : Process World Answers} (h : Lasting projectId p file)
    (hserved : p'.served = p.served) (hfiles : p.world.files ⊆ p'.world.files) :
    Lasting projectId p' file := by
  rcases h with hthere | hremoved
  · exact .inl (hfiles hthere)
  · exact .inr (hserved ▸ hremoved)

theorem AddedLast.mono {p' : Process World Answers} (h : AddedLast projectId p)
    (hserved : p'.served = p.served) (hfiles : p.world.files ⊆ p'.world.files) :
    AddedLast projectId p' := by
  intro x hx file hfile
  exact (h x (hserved ▸ hx) file hfile).imp_left (·.mono hserved hfiles)

theorem Complete.work (h : Complete projectId p) (answers : Answers) :
    Complete projectId (p.work (uploadEpisode projectId) answers) := by
  rcases work_cases (uploadEpisode projectId) p answers with ⟨hserved, hworld⟩ |
    ⟨request, hserved, hworld⟩
  · exact h.mono hserved (hworld ▸ List.Subset.refl _)
  · have hspec := uploadEpisode_spec projectId p.world request answers
    rw [← hworld] at hspec
    intro x hx episodeId hok
    rw [hserved] at hx
    rcases List.mem_append.mp hx with hx | hx
    · obtain ⟨⟨file, hfile, hbelow, hcreated⟩, hall⟩ := h x hx episodeId hok
      exact ⟨⟨file, hfile, hbelow, hspec.calls hcreated⟩, fun file hfile hbelow =>
        (hall file hfile hbelow).mono hspec.calls⟩
    · rw [List.mem_singleton] at hx
      subst hx
      exact ⟨hspec.tagged episodeId hok, hspec.accepted episodeId hok⟩

theorem Complete.next {a : Action World Answers} (h : Complete projectId p)
    (ha : Allowed Adds p a) : Complete projectId (next (uploadEpisode projectId) p a) := by
  cases a with
  | loop a => exact h.mono rfl (List.Subset.refl _)
  | outside w => exact h.mono rfl (ha.2 ▸ List.Subset.refl _)
  | hear control ready => exact h.mono rfl (List.Subset.refl _)
  | work answers => exact h.work answers

theorem Lasting.work {file : File} (h : Lasting projectId p file) (answers : Answers) :
    Lasting projectId (p.work (uploadEpisode projectId) answers) file := by
  rcases work_cases (uploadEpisode projectId) p answers with ⟨hserved, hworld⟩ |
    ⟨request, hserved, hworld⟩
  · exact h.mono hserved (hworld ▸ List.Subset.refl _)
  · have hspec := uploadEpisode_spec projectId p.world request answers
    rw [← hworld] at hspec
    rcases h with hthere | ⟨x, hx, hremoved⟩
    · have hhere : file ∈ p.world.files ++ answers.added := List.mem_append_left _ hthere
      cases hresult : (uploadEpisode projectId p.world request answers).1 with
      | error e => exact .inl (hspec.failed (by rw [hresult]; rfl) ▸ hhere)
      | ok episodeId =>
        by_cases hbelow : below request.stagingDir file = true
        · refine .inr ⟨⟨request, p.world, answers⟩, ?_, episodeId, hresult, hthere, hbelow⟩
          rw [hserved]
          exact List.mem_append_right _ (List.mem_singleton.mpr rfl)
        · exact .inl (hspec.elsewhere file hhere (eq_false_of_ne_true hbelow))
    · exact .inr ⟨x, hserved ▸ List.mem_append_left _ hx, hremoved⟩

theorem Lasting.next {file : File} {a : Action World Answers} (h : Lasting projectId p file)
    (ha : Allowed Adds p a) : Lasting projectId (next (uploadEpisode projectId) p a) file := by
  cases a with
  | loop a => exact h.mono rfl (List.Subset.refl _)
  | outside w => exact h.mono rfl ha.1
  | hear control ready => exact h.mono rfl (List.Subset.refl _)
  | work answers => exact h.work answers

theorem AddedLast.work (h : AddedLast projectId p) (answers : Answers) :
    AddedLast projectId (p.work (uploadEpisode projectId) answers) := by
  rcases work_cases (uploadEpisode projectId) p answers with ⟨hserved, hworld⟩ |
    ⟨request, hserved, hworld⟩
  · exact h.mono hserved (hworld ▸ List.Subset.refl _)
  · have hspec := uploadEpisode_spec projectId p.world request answers
    rw [← hworld] at hspec
    intro x hx file hfile
    rw [hserved] at hx
    rcases List.mem_append.mp hx with hx | hx
    · exact (h x hx file hfile).imp_left (·.work answers)
    · rw [List.mem_singleton] at hx
      subst hx
      have hhere : file ∈ p.world.files ++ answers.added := List.mem_append_right _ hfile
      cases hok : (uploadEpisode projectId p.world request answers).1.isOk with
      | false => exact .inl (.inl (hspec.failed hok ▸ hhere))
      | true =>
        by_cases hbelow : below request.stagingDir file = true
        · exact .inr ⟨hok, hbelow⟩
        · exact .inl (.inl (hspec.elsewhere file hhere (eq_false_of_ne_true hbelow)))

theorem AddedLast.next {a : Action World Answers} (h : AddedLast projectId p)
    (ha : Allowed Adds p a) : AddedLast projectId (next (uploadEpisode projectId) p a) := by
  cases a with
  | loop a => exact h.mono rfl (List.Subset.refl _)
  | outside w => exact h.mono rfl ha.1
  | hear control ready => exact h.mono rfl (List.Subset.refl _)
  | work answers => exact h.work answers

/-- The file is there, or it was below the directory of a request that succeeded, and the library
took it as a part of the episode that was created with the request's index. -/
def Safe (projectId : String) (p : Process World Answers) (file : File) : Prop :=
  file ∈ p.world.files ∨ ∃ x ∈ p.served, ∃ episodeId,
    x.result (uploadEpisode projectId) = .ok episodeId ∧
      below x.request.stagingDir file = true ∧ Accepted p.world.calls episodeId file

theorem Complete.safe {file : File} (h : Complete projectId p) (hlast : Lasting projectId p file) :
    Safe projectId p file := by
  rcases hlast with hthere | ⟨x, hx, episodeId, hok, hwas, hbelow⟩
  · exact .inl hthere
  · exact .inr ⟨x, hx, episodeId, hok, hbelow, (h x hx episodeId hok).2 file hwas hbelow⟩

/-- While others only add files, each file that is there between two steps is safe from then on.
So is what others add while a request is served, unless they put it below the directory of the
request and the request succeeds. A request that fails removes nothing. -/
theorem uploads_before_removal
    (h : Runs (uploadEpisode projectId) Adds (started w) (pre ++ post)) :
    (∀ file ∈ (run (uploadEpisode projectId) (started w) pre).world.files,
      Safe projectId (run (uploadEpisode projectId) (started w) (pre ++ post)) file) ∧
    (∀ x ∈ (run (uploadEpisode projectId) (started w) (pre ++ post)).served,
      ∀ file ∈ x.answers.added,
        Safe projectId (run (uploadEpisode projectId) (started w) (pre ++ post)) file ∨
          (x.result (uploadEpisode projectId)).isOk = true ∧
            below x.request.stagingDir file = true) ∧
    (∀ x ∈ (run (uploadEpisode projectId) (started w) (pre ++ post)).served,
      (x.result (uploadEpisode projectId)).isOk = false →
        (uploadEpisode projectId x.world x.request x.answers).2.files =
          x.world.files ++ x.answers.added) ∧
    Complete projectId (run (uploadEpisode projectId) (started w) (pre ++ post)) := by
  have hcomplete : Complete projectId (run (uploadEpisode projectId) (started w) (pre ++ post)) :=
    (path_of_follows h).invariant (P := Complete projectId) (fun x hx => by cases hx)
      fun _ _ _ ha hu => hu.next ha
  have hadded : AddedLast projectId (run (uploadEpisode projectId) (started w) (pre ++ post)) :=
    (path_of_follows h).invariant (P := AddedLast projectId) (fun x hx => by cases hx)
      fun _ _ _ ha hu => hu.next ha
  refine ⟨fun file hfile => ?_, fun x hx file hfile => ?_, fun x _ hfailed => ?_, hcomplete⟩
  · have hpath := path_of_follows (follows_append.mp h).2
    rw [← List.foldl_append] at hpath
    exact hcomplete.safe (hpath.invariant (P := (Lasting projectId · file)) (.inl hfile)
      fun _ _ _ ha hu => hu.next ha)
  · exact (hadded x hx file hfile).imp_left hcomplete.safe
  · exact (uploadEpisode_spec projectId x.world x.request x.answers).failed hfailed

def launched (w : World) : Except String String → Process World Answers
  | .ok _ => started w
  | .error e => { storage := { events := ⟨[], [.error e]⟩, workerRunning := false }, world := w }

/-- A process whose worker never served a request, and has ended. -/
structure Unstarted (w : World) (p : Process World Answers) : Prop where
  stopped : p.storage.workerRunning = false
  silent : p.storage.events.pending.filterMap notice = []
  served : p.served = []
  notices : p.notices = []
  world : Adds w p.world

theorem Unstarted.next {a : Action World Answers} (h : Unstarted w p) (ha : Enabled p a)
    (hok : Allowed Adds p a) : Unstarted w (next (uploadEpisode projectId) p a) := by
  cases a with
  | work answers => exact absurd ha.1 (by rw [h.stopped]; simp)
  | outside w' =>
    obtain ⟨hfiles, hcalls⟩ := hok
    exact ⟨h.stopped, h.silent, h.served, h.notices, List.Subset.trans h.world.1 hfiles,
      hcalls.trans h.world.2⟩
  | hear control ready => exact ⟨h.stopped, h.silent, h.served, h.notices, h.world⟩
  | loop a =>
    have hsilent {s : StorageProcess.Storage} (hnext : StorageProcess.next p.storage a = (s, []))
        (hrunning : s.workerRunning = false)
        (hevents : s.events.pending.filterMap notice = []) : Unstarted w (p.loop a) := by
      unfold Process.loop
      rw [hnext]
      exact ⟨hrunning, hevents, h.served, (List.append_nil _).trans h.notices, h.world⟩
    cases a with
    | takeEvent =>
      cases hpop : p.storage.events.pop with
      | none =>
        refine hsilent (s := p.storage) ?_ h.stopped h.silent
        rw [StorageProcess.next, StorageProcess.Storage.takeEvent, hpop]
      | some popped =>
        obtain ⟨event, events⟩ := popped
        have hpending := h.silent
        rw [(Queues.Queue.pop_spec hpop).1] at hpending
        cases event with
        | stored i outputPath => cases hpending
        | error message =>
          refine hsilent (s := { p.storage with
            events := events, commands := p.storage.commands.publish [.shutdown],
            phase := .exited }) ?_ h.stopped hpending
          rw [StorageProcess.next, StorageProcess.Storage.takeEvent, hpop]
        | shutdownComplete =>
          refine hsilent (s := { p.storage with events := events, shutdownComplete := true }) ?_
            h.stopped hpending
          rw [StorageProcess.next, StorageProcess.Storage.takeEvent, hpop]
    | takeControl =>
      obtain ⟨hrunning, hevents⟩ := takeControl_frame p.storage
      exact hsilent rfl (hrunning.trans h.stopped) (hevents ▸ h.silent)
    | takeReady =>
      obtain ⟨hrunning, hevents⟩ := takeReady_frame p.storage
      exact hsilent rfl (hrunning.trans h.stopped) (hevents ▸ h.silent)
    | eventsDrained => exact hsilent rfl h.stopped h.silent
    | controlDrained => exact hsilent rfl h.stopped h.silent
    | readyDrained => exact hsilent rfl h.stopped h.silent
    | work result => cases ha.1

/-- A process whose worker could not start serves and announces nothing, and its files change only by
what others add. -/
theorem unstarted_serves_nothing {e : String} {actions : List (Action World Answers)}
    (h : Runs (uploadEpisode projectId) Adds (launched w (.error e)) actions) :
    (run (uploadEpisode projectId) (launched w (.error e)) actions).served = [] ∧
      (run (uploadEpisode projectId) (launched w (.error e)) actions).notices = [] ∧
      Adds w (run (uploadEpisode projectId) (launched w (.error e)) actions).world := by
  have hstart : Unstarted w (launched w (.error e)) :=
    ⟨rfl, rfl, rfl, rfl, List.Subset.refl _, rfl⟩
  have hrun : Unstarted w (run (uploadEpisode projectId) (launched w (.error e)) actions) :=
    (path_of_follows h).invariant hstart fun _ _ ha hok hu => hu.next ha hok
  exact ⟨hrun.served, hrun.notices, hrun.world⟩

def sampleFile (dir file : String) : File where
  location := denotes (ofString ("/staging/" ++ dir ++ "/" ++ file))
  content := [1]

def sampleUploads : List (Action World Answers) :=
  let accepts : Answers :=
    { listed := .ok (), added := [sampleFile "0" "late", sampleFile "2" "data"]
      createEpisode := .ok "first", getEpisode := .ok ⟨"episodes/first", "data"⟩
      uploadToEpisode := .ok ⟨1, 0⟩, kept := fun _ => false }
  [.hear [] [⟨0, .new 256 "/staging/0"⟩, ⟨1, .new 256 "/staging/1"⟩], .loop .eventsDrained,
    .loop .controlDrained, .loop .takeReady, .loop .takeReady, .loop .readyDrained,
    .work accepts, .work { accepts with added := [], createEpisode := .error "refused" }]

def sampleWorld : World where
  files := [sampleFile "0" "meta", sampleFile "0" "data", sampleFile "1" "data"]

theorem sample_uploads :
    (run (uploadEpisode "p") (started sampleWorld)
        (sampleUploads.take 6 ++ sampleUploads.drop 6)).world.files =
      [sampleFile "1" "data", sampleFile "2" "data"] ∧
    (∀ file ∈ (run (uploadEpisode "p") (started sampleWorld) (sampleUploads.take 6)).world.files,
      Safe "p" (run (uploadEpisode "p") (started sampleWorld)
        (sampleUploads.take 6 ++ sampleUploads.drop 6)) file) ∧
    (∀ x ∈ (run (uploadEpisode "p") (started sampleWorld)
        (sampleUploads.take 6 ++ sampleUploads.drop 6)).served, ∀ file ∈ x.answers.added,
      Safe "p" (run (uploadEpisode "p") (started sampleWorld)
        (sampleUploads.take 6 ++ sampleUploads.drop 6)) file ∨
        (x.result (uploadEpisode "p")).isOk = true ∧ below x.request.stagingDir file = true) ∧
    (∀ x ∈ (run (uploadEpisode "p") (started sampleWorld)
        (sampleUploads.take 6 ++ sampleUploads.drop 6)).served,
      (x.result (uploadEpisode "p")).isOk = false →
        (uploadEpisode "p" x.world x.request x.answers).2.files =
          x.world.files ++ x.answers.added) ∧
    Complete "p" (run (uploadEpisode "p") (started sampleWorld)
      (sampleUploads.take 6 ++ sampleUploads.drop 6)) := by
  have hruns : Runs (uploadEpisode "p") Adds (started sampleWorld)
      (sampleUploads.take 6 ++ sampleUploads.drop 6) := by decide +kernel
  exact ⟨by decide +kernel, uploads_before_removal hruns⟩

end Runs

end DataloopStorage
