import Rollio.CheckedEdits

/-! Which settings of the project the setup wizard can be given. -/
namespace CheckedSettings
open BusMessages RuntimeConfig TeleopConfig DeviceConfigs ProjectConfigs Outcomes AcceptedProjects
open SetupState SetupSettings SetupDevices SetupEffects EditedProjects PairingValidity
open Text (trim blank isWhitespace)

variable {α : Type} {floats : Floats α} {s : SetupSession α}

def Returns (x : Handled α) : Prop := ∃ r, x = .ok r

theorem returns_ok (r : SetupSession α × Bool) : Returns (.ok r : Handled α) := ⟨r, rfl⟩

theorem validated_returns_iff {t : SetupSession α} :
    Returns (validated floats t) ↔ Accepted floats.toPlatform t.config := by
  rw [← validate_iff]
  constructor
  · rintro ⟨r, hr⟩
    exact (validated_eq_ok hr).1
  · intro hv
    exact ⟨(t, true), by simp only [validated, hv]⟩

variable {config config' : ProjectConfig α} {value : String}

structure SettingsChecked (floats : Floats α) (config : ProjectConfig α) : Prop where
  projectName : ¬ blank config.projectName
  episode : config.episode.validate = .ok ()
  assembler : config.assembler.validate = .ok ()
  storage : config.storage.validate = .ok ()
  monitor : config.monitor.validate floats.toPlatform = .ok ()
  controller : config.controller.validate = .ok ()
  visualizer : config.visualizer.validate = .ok ()
  ui : config.ui.validate = .ok ()

theorem settings_checked (h : Accepted floats.toPlatform config) : SettingsChecked floats config :=
  ⟨h.projectName, h.episode, h.assembler, h.storage, h.monitor, h.controller, h.visualizer, h.ui⟩

theorem accepted_settings (h : Accepted floats.toPlatform config)
    (hdevices : config'.devices = config.devices) (hpairings : config'.pairings = config.pairings)
    (hs : SettingsChecked floats config') : Accepted floats.toPlatform config' := by
  refine ⟨hs.projectName, hs.episode, ?_, ?_, ?_, ?_, ?_, ?_, ?_, hs.assembler, hs.storage,
    hs.monitor, hs.controller, hs.visualizer, hs.ui⟩
  · rw [hdevices]
    exact h.nonempty
  · rw [hdevices]
    exact h.names
  · rw [hdevices]
    exact h.busRoots
  · rw [hdevices]
    exact h.devices
  · intro p hp
    rw [hpairings] at hp
    rw [validate_devices hdevices p]
    exact h.pairings p hp
  · rw [hdevices]
    exact h.records
  · rw [hdevices]
    exact h.previews

theorem trim_not_blank (hne : trim value ≠ "") : ¬ blank (trim value) := by
  intro hblank
  have hsome : (value.toList.dropWhile isWhitespace).rdropWhile isWhitespace ≠ [] := by
    intro hnil
    exact hne (by rw [trim, hnil, String.ofList_nil])
  have hlast := List.rdropWhile_last_not isWhitespace _ hsome
  apply hlast
  apply List.all_eq_true.mp _ _ (List.getLast_mem hsome)
  simpa only [blank, trim, String.toList_ofList] using hblank

theorem applyEdit_returns_iff {edit : SettingEdit α} : Returns (applyEdit floats s edit) ↔
    ∀ config, edit = .written config none → Accepted floats.toPlatform config := by
  cases edit with
  | refused message => exact iff_of_true (returns_ok _) fun _ hw => by cases hw
  | unchanged => exact iff_of_true (returns_ok _) fun _ hw => by cases hw
  | written config label =>
    cases label with
    | some label => exact iff_of_true (returns_ok _) fun _ hw => by cases hw
    | none =>
      rw [applyEdit, validated_returns_iff]
      constructor
      · rintro ha _ hw
        cases hw
        exact ha
      · intro ha
        exact ha config rfl

theorem textSetting_returns {emptyMessage : String} {current : Option String}
    {write : String → ProjectConfig α} {label : Option String}
    (hwrite : ∀ text, ¬ blank text → Accepted floats.toPlatform (write text)) :
    Returns (applyEdit floats s (textSetting value emptyMessage current write label)) := by
  rw [applyEdit_returns_iff]
  intro config hw
  simp only [textSetting] at hw
  split at hw
  · cases hw
  · next hne =>
    split at hw
    · cases hw
    · cases hw
      exact hwrite _ (trim_not_blank hne)

theorem numberSetting_returns {β : Type} {debugStr : String → String} {parsed : String → Option β}
    {requirement : String} {isCurrent : β → Bool} {write : β → ProjectConfig α}
    {label : Option String}
    (hwrite : ∀ v, parsed (trim value) = some v → Accepted floats.toPlatform (write v)) :
    Returns (applyEdit floats s
      (numberSetting debugStr value parsed requirement isCurrent write label)) := by
  rw [applyEdit_returns_iff]
  intro config hw
  simp only [numberSetting] at hw
  split at hw
  · cases hw
  · next v hv =>
    split at hw
    · cases hw
    · cases hw
      exact hwrite v hv

/-- A setting that is written back under its label when it does not pass. -/
theorem labelled_returns {edit : SettingEdit α}
    (hedit : ∀ config, edit ≠ .written config none) : Returns (applyEdit floats s edit) :=
  applyEdit_returns_iff.mpr fun config hw => absurd hw (hedit config)

/-- The two timeouts are taken as zero, which their check refuses. -/
def SettingFits (value : String) : TypedSetting → Prop
  | .controllerShutdownTimeoutMs => parseU64 (trim value) ≠ some 0
  | .assemblerMissingEosTimeoutMs => parseU64 (trim value) ≠ some 0
  | _ => True

theorem controller_timeout_returns_iff (h : Accepted floats.toPlatform s.config) :
    Returns (applyEdit floats s (setControllerShutdownTimeoutMs floats s.config value)) ↔
      parseU64 (trim value) ≠ some 0 := by
  have hold := h.controller
  simp only [ControllerConfig.validate, check_eq_ok, last_check_eq_ok] at hold
  constructor
  · intro hreturns hzero
    have ha := applyEdit_returns_iff.mp hreturns
      { s.config with controller := { s.config.controller with shutdownTimeoutMs := 0 } } (by
        simp [setControllerShutdownTimeoutMs, numberSetting, hzero, hold.1])
    have hcontroller := ha.controller
    simp only [ControllerConfig.validate, check_eq_ok] at hcontroller
    exact hcontroller.1 trivial
  · intro hne
    apply numberSetting_returns
    intro v hv
    refine accepted_settings h rfl rfl { settings_checked h with controller := ?_ }
    simp only [ControllerConfig.validate, check_eq_ok, last_check_eq_ok]
    exact ⟨fun hzero => hne (hzero ▸ hv), hold.2⟩

theorem assembler_timeout_returns_iff (h : Accepted floats.toPlatform s.config) :
    Returns (applyEdit floats s (setAssemblerMissingEosTimeoutMs floats s.config value)) ↔
      parseU64 (trim value) ≠ some 0 := by
  have hold := h.assembler
  simp only [AssemblerConfig.validate, check_eq_ok, last_check_eq_ok] at hold
  constructor
  · intro hreturns hzero
    have ha := applyEdit_returns_iff.mp hreturns
      { s.config with assembler := { s.config.assembler with missingEosTimeoutMs := 0 } } (by
        simp [setAssemblerMissingEosTimeoutMs, numberSetting, hzero, hold.1])
    have hassembler := ha.assembler
    simp only [AssemblerConfig.validate, check_eq_ok] at hassembler
    exact hassembler.1 trivial
  · intro hne
    apply numberSetting_returns
    intro v hv
    refine accepted_settings h rfl rfl { settings_checked h with assembler := ?_ }
    simp only [AssemblerConfig.validate, check_eq_ok, last_check_eq_ok]
    exact ⟨fun hzero => hne (hzero ▸ hv), hold.2⟩

structure StorageReady (c : StorageConfig) : Prop where
  queueSize : c.queueSize ≠ 0
  outputPath : c.backend = .local → ¬ c.outputPath.all blank
  endpoint : c.backend ≠ .local → ¬ c.endpoint.all blank
  project : c.backend = .dataloop → ¬ c.dataloopProjectId.all blank

theorem storage_valid_iff {c : StorageConfig} : c.validate = .ok () ↔ StorageReady c := by
  simp only [StorageConfig.validate, check_eq_ok]
  cases hb : c.backend with
  | «local» =>
    simp only [last_check_eq_ok]
    exact ⟨fun h => ⟨h.1, fun _ => h.2, fun hn => absurd hb hn, fun hn => by simp [hb] at hn⟩,
      fun h => ⟨h.queueSize, h.outputPath hb⟩⟩
  | http =>
    simp only [last_check_eq_ok]
    exact ⟨fun h => ⟨h.1, fun hn => by simp [hb] at hn, fun _ => h.2, fun hn => by simp [hb] at hn⟩,
      fun h => ⟨h.queueSize, h.endpoint (by simp [hb])⟩⟩
  | dataloop =>
    simp only [check_eq_ok, last_check_eq_ok]
    exact ⟨fun h => ⟨h.1, fun hn => by simp [hb] at hn, fun _ => h.2.1, fun _ => h.2.2⟩,
      fun h => ⟨h.queueSize, h.endpoint (by simp [hb]), h.project hb⟩⟩

theorem accepted_storage (h : Accepted floats.toPlatform config) {storage : StorageConfig}
    (hs : StorageReady storage) : Accepted floats.toPlatform { config with storage } :=
  accepted_settings h rfl rfl { settings_checked h with storage := storage_valid_iff.mpr hs }

theorem storage_setting_returns (h : Accepted floats.toPlatform s.config) {emptyMessage : String}
    {current : Option String} {write : String → StorageConfig}
    (hwrite : ∀ text, ¬ blank text → StorageReady (write text)) :
    Returns (applyEdit floats s (textSetting value emptyMessage current
      (fun text => { s.config with storage := write text }) none)) :=
  textSetting_returns fun text htext => accepted_storage h (hwrite text htext)

theorem queue_size_returns (h : Accepted floats.toPlatform s.config) :
    Returns (applyEdit floats s (setStorageQueueSize floats s.config value)) := by
  apply numberSetting_returns
  intro v hv
  have hpos := (Option.filter_eq_some_iff.mp hv).2
  exact accepted_storage h { storage_valid_iff.mp h.storage with
    queueSize := UInt32.pos_iff_ne_zero.mp (of_decide_eq_true hpos) }

theorem chunk_size_returns (h : Accepted floats.toPlatform s.config) :
    Returns (applyEdit floats s (setEpisodeChunkSize floats s.config value)) := by
  have hold := h.episode
  simp only [EpisodeConfig.validate, check_eq_ok, last_check_eq_ok] at hold
  apply numberSetting_returns
  intro v hv
  have hpos := (Option.filter_eq_some_iff.mp hv).2
  refine accepted_settings h rfl rfl { settings_checked h with episode := ?_ }
  simp only [EpisodeConfig.validate, check_eq_ok, last_check_eq_ok]
  exact ⟨hold.1, UInt32.pos_iff_ne_zero.mp (of_decide_eq_true hpos)⟩

theorem poll_interval_returns (h : Accepted floats.toPlatform s.config) :
    Returns (applyEdit floats s (setControllerChildPollIntervalMs floats s.config value)) := by
  have hold := h.controller
  simp only [ControllerConfig.validate, check_eq_ok, last_check_eq_ok] at hold
  apply numberSetting_returns
  intro v hv
  have hpos := (Option.filter_eq_some_iff.mp hv).2
  refine accepted_settings h rfl rfl { settings_checked h with controller := ?_ }
  simp only [ControllerConfig.validate, check_eq_ok, last_check_eq_ok]
  exact ⟨hold.1, UInt64.pos_iff_ne_zero.mp (of_decide_eq_true hpos)⟩

theorem visualizer_port_returns (h : Accepted floats.toPlatform s.config) :
    Returns (applyEdit floats s (setVisualizerPort floats s.config value)) := by
  apply numberSetting_returns
  intro v hv
  have hpos := (Option.filter_eq_some_iff.mp hv).2
  refine accepted_settings h rfl rfl { settings_checked h with visualizer := ?_ }
  simp only [VisualizerConfig.validate, last_check_eq_ok]
  exact UInt16.pos_iff_ne_zero.mp (of_decide_eq_true hpos)

theorem metrics_frequency_returns (h : Accepted floats.toPlatform s.config) :
    Returns (applyEdit floats s (setMonitorMetricsFrequencyHz floats s.config value)) := by
  have hold := h.monitor
  simp only [MonitorConfig.validate, check_eq_ok] at hold
  apply numberSetting_returns
  intro v hv
  have hgood := (Option.filter_eq_some_iff.mp hv).2
  refine accepted_settings h rfl rfl { settings_checked h with monitor := ?_ }
  simp only [MonitorConfig.validate, check_eq_ok]
  exact ⟨by simpa using hgood, hold.2⟩

theorem episode_fps_returns (h : Accepted floats.toPlatform s.config) :
    Returns (applyEdit floats s (setEpisodeFps floats s.config value)) := by
  have hold := h.episode
  simp only [EpisodeConfig.validate, check_eq_ok, last_check_eq_ok] at hold
  rw [applyEdit_returns_iff]
  intro config hw
  simp only [setEpisodeFps] at hw
  split at hw
  · cases hw
  split at hw
  · cases hw
  split at hw
  · cases hw
  · next fps _ hrange =>
    split at hw
    · cases hw
    · cases hw
      refine accepted_settings h rfl rfl { settings_checked h with episode := ?_ }
      simp only [EpisodeConfig.validate, check_eq_ok, last_check_eq_ok]
      exact ⟨hrange, hold.2⟩

theorem staging_dir_returns (h : Accepted floats.toPlatform s.config) :
    Returns (applyEdit floats s (setAssemblerStagingDir s.config value)) := by
  have hold := h.assembler
  simp only [AssemblerConfig.validate, check_eq_ok, last_check_eq_ok] at hold
  apply textSetting_returns
  intro text htext
  refine accepted_settings h rfl rfl { settings_checked h with assembler := ?_ }
  simp only [AssemblerConfig.validate, check_eq_ok, last_check_eq_ok]
  exact ⟨hold.1, htext, hold.2.2⟩

theorem labelled_text {emptyMessage label : String} {current : Option String}
    {write : String → ProjectConfig α} (config : ProjectConfig α) :
    textSetting value emptyMessage current write (some label) ≠ .written config none := by
  unfold textSetting
  dsimp only
  split
  · intro hw
    cases hw
  split
  · intro hw
    cases hw
  · intro hw
    cases hw

theorem labelled_number {β : Type} {debugStr : String → String} {parsed : String → Option β}
    {requirement label : String} {isCurrent : β → Bool} {write : β → ProjectConfig α}
    (config : ProjectConfig α) :
    numberSetting debugStr value parsed requirement isCurrent write (some label) ≠
      .written config none := by
  unfold numberSetting
  dsimp only
  split
  · intro hw
    cases hw
  split
  · intro hw
    cases hw
  · intro hw
    cases hw

theorem labelled_key {label current : String} {write : String → UiRuntimeConfig}
    (config : ProjectConfig α) :
    setUiSingleCharKey floats s.config value label current write ≠ .written config none := by
  unfold setUiSingleCharKey
  dsimp only
  split
  · intro hw
    cases hw
  split
  · intro hw
    cases hw
  · intro hw
    cases hw

theorem setter_returns_iff (h : Accepted floats.toPlatform s.config) (value : String)
    (setting : TypedSetting) :
    Returns (applyEdit floats s (setting.setter floats s.config value)) ↔
      SettingFits value setting := by
  have hstorage := storage_valid_iff.mp h.storage
  cases setting with
  | controllerShutdownTimeoutMs => exact controller_timeout_returns_iff h
  | assemblerMissingEosTimeoutMs => exact assembler_timeout_returns_iff h
  | projectName =>
    refine iff_of_true ?_ trivial
    unfold TypedSetting.setter setProjectName
    exact textSetting_returns fun text htext =>
      accepted_settings h rfl rfl { settings_checked h with projectName := htext }
  | storageOutputPath =>
    refine iff_of_true ?_ trivial
    unfold TypedSetting.setter setStorageOutputPath
    exact storage_setting_returns h fun text htext =>
      { hstorage with outputPath := fun _ => by simpa using htext }
  | storageEndpoint =>
    refine iff_of_true ?_ trivial
    unfold TypedSetting.setter setStorageEndpoint
    exact storage_setting_returns h fun text htext =>
      { hstorage with endpoint := fun _ => by simpa using htext }
  | dataloopProjectId =>
    refine iff_of_true ?_ trivial
    unfold TypedSetting.setter setDataloopProjectId
    exact storage_setting_returns h fun text htext =>
      { hstorage with project := fun _ => by simpa using htext }
  | dataloopToken =>
    refine iff_of_true ?_ trivial
    unfold TypedSetting.setter setDataloopToken
    exact storage_setting_returns h fun _ _ =>
      ⟨hstorage.queueSize, hstorage.outputPath, hstorage.endpoint, hstorage.project⟩
  | storageQueueSize => exact iff_of_true (queue_size_returns h) trivial
  | episodeChunkSize => exact iff_of_true (chunk_size_returns h) trivial
  | controllerChildPollIntervalMs => exact iff_of_true (poll_interval_returns h) trivial
  | visualizerPort => exact iff_of_true (visualizer_port_returns h) trivial
  | monitorMetricsFrequencyHz => exact iff_of_true (metrics_frequency_returns h) trivial
  | episodeFps => exact iff_of_true (episode_fps_returns h) trivial
  | assemblerStagingDir => exact iff_of_true (staging_dir_returns h) trivial
  | uiHttpHost =>
    refine iff_of_true ?_ trivial
    unfold TypedSetting.setter setUiHttpHost
    exact labelled_returns labelled_text
  | uiHttpPort =>
    refine iff_of_true ?_ trivial
    unfold TypedSetting.setter setUiHttpPort
    exact labelled_returns labelled_number
  | assemblerStagingSlots =>
    refine iff_of_true ?_ trivial
    unfold TypedSetting.setter setAssemblerStagingSlots
    exact labelled_returns labelled_number
  | uiStartKey =>
    refine iff_of_true ?_ trivial
    unfold TypedSetting.setter setUiStartKey
    exact labelled_returns labelled_key
  | uiStopKey =>
    refine iff_of_true ?_ trivial
    unfold TypedSetting.setter setUiStopKey
    exact labelled_returns labelled_key
  | uiKeepKey =>
    refine iff_of_true ?_ trivial
    unfold TypedSetting.setter setUiKeepKey
    exact labelled_returns labelled_key
  | uiDiscardKey =>
    refine iff_of_true ?_ trivial
    unfold TypedSetting.setter setUiDiscardKey
    exact labelled_returns labelled_key

def nextBackend (backend : StorageBackend) (delta : ℤ) : StorageBackend :=
  let options := [StorageBackend.local, .http, .dataloop]
  options.getD (rotateIndex ((options.idxOf? backend).getD 0) options.length delta) .local

theorem cycleStorageBackend_eq (c : ProjectConfig α) (delta : ℤ) : cycleStorageBackend c delta =
    .written { c with storage := fillStorage c.storage (nextBackend c.storage.backend delta) } none :=
  rfl

theorem nextBackend_http_iff {backend : StorageBackend} {delta : ℤ} (hdelta : delta = 1 ∨ delta = -1) :
    nextBackend backend delta = .http ↔
      (backend = .local ∧ delta = 1) ∨ (backend = .dataloop ∧ delta = -1) := by
  rcases hdelta with rfl | rfl
  · cases backend <;> decide
  · cases backend <;> decide

/-- What is filled in does for the local backend and for dataloop, and for HTTP unless there is a
blank endpoint. -/
theorem fillStorage_ready_iff {c : StorageConfig} (h : c.queueSize ≠ 0) (backend : StorageBackend) :
    StorageReady (fillStorage c backend) ↔ (backend = .http → ¬ c.endpoint.any blank) := by
  have houtput : blank "./output" = false := by decide
  have hupload : blank "http://127.0.0.1:8080/upload" = false := by decide
  have hbase : blank "http://127.0.0.1/" = false := by decide
  have hone : blank "1" = false := by decide
  cases backend with
  | «local» =>
    refine iff_of_true ⟨h, fun _ => ?_, fun hn => absurd rfl hn, (nomatch ·)⟩ (nomatch ·)
    dsimp only [fillStorage]
    split
    · simp [houtput]
    · next hpath => exact hpath
  | http =>
    constructor
    · intro hready _
      have hendpoint := hready.endpoint fun hn => StorageBackend.noConfusion hn
      dsimp only [fillStorage] at hendpoint
      cases he : c.endpoint with
      | none => simp
      | some v => simpa [he] using hendpoint
    · intro hblank
      have hblank := hblank rfl
      refine ⟨h, (nomatch ·), fun _ => ?_, (nomatch ·)⟩
      dsimp only [fillStorage]
      cases he : c.endpoint with
      | none => simp [hupload]
      | some v => simpa [he] using hblank
  | dataloop =>
    refine iff_of_true ⟨h, (nomatch ·), fun _ => ?_, fun _ => ?_⟩ (nomatch ·)
    · dsimp only [fillStorage]
      split
      · simp [hbase]
      · next hendpoint =>
        cases he : c.endpoint with
        | none => simp [he] at hendpoint
        | some v =>
          simp only [he, Option.all_some, Bool.or_eq_true, not_or] at hendpoint ⊢
          exact hendpoint.1
    · dsimp only [fillStorage]
      split
      · simp [hone]
      · next hproject => exact hproject

def BackendFits (s : SetupSession α) (delta : ℤ) : Prop :=
  s.config.storage.backend = .local → delta = 1 → ¬ s.config.storage.endpoint.any blank

theorem cycleStorageBackend_returns_iff (h : Accepted floats.toPlatform s.config) {delta : ℤ}
    (hdelta : delta = 1 ∨ delta = -1) :
    Returns (applyEdit floats s (cycleStorageBackend s.config delta)) ↔ BackendFits s delta := by
  have hstorage := storage_valid_iff.mp h.storage
  have hready : Returns (applyEdit floats s (cycleStorageBackend s.config delta)) ↔
      StorageReady (fillStorage s.config.storage (nextBackend s.config.storage.backend delta)) := by
    rw [cycleStorageBackend_eq, applyEdit_returns_iff]
    constructor
    · intro ha
      exact storage_valid_iff.mp (ha _ rfl).storage
    · rintro hs _ hw
      cases hw
      exact accepted_storage h hs
  rw [hready, fillStorage_ready_iff hstorage.queueSize, nextBackend_http_iff hdelta]
  constructor
  · intro hfits hlocal hone
    exact hfits (.inl ⟨hlocal, hone⟩)
  · rintro hfits (⟨hlocal, hone⟩ | ⟨hdataloop, -⟩)
    · exact hfits hlocal hone
    · have hendpoint := hstorage.endpoint (by simp [hdataloop])
      cases he : s.config.storage.endpoint with
      | none => simp
      | some v => simpa [he] using hendpoint

theorem cycleEpisodeFormat_returns (h : Accepted floats.toPlatform s.config) (delta : ℤ) :
    Returns (applyEdit floats s (cycleEpisodeFormat s.config delta)) := by
  rw [applyEdit_returns_iff]
  rintro _ hw
  cases hw
  exact accepted_settings h rfl rfl { settings_checked h with episode := h.episode }

theorem cycleCollectionMode_returns (h : Accepted floats.toPlatform s.config) :
    Returns (cycleCollectionMode floats s) := by
  unfold cycleCollectionMode
  split
  · exact returns_ok _
  · rw [validated_returns_iff, ensureVisibleCurrentStep_config]
    exact accepted_settings h rfl rfl ⟨h.projectName, h.episode, h.assembler, h.storage, h.monitor,
      h.controller, h.visualizer, h.ui⟩

end CheckedSettings
