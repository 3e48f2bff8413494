import Rollio.SavedProjects

/-! What the setup wizard reports of a command, and the preview that is restarted only when a
change of the project is reported. -/
namespace WizardReports
open BusMessages RuntimeConfig TeleopConfig DeviceConfigs ProjectConfigs SetupState
open SetupPairings SetupSubpanel SetupDevices SetupCommands PairingPicker SetupEffects
open FirstMatch PairingValidity SavedProjects

variable {α : Type} {floats : Floats α} {s : SetupSession α}

section Previews

/-- The project that a preview was started for, and the device it identifies. -/
structure SetupRuntimeState (α : Type) where
  config : ProjectConfig α
  previewTargetName : Option String

structure Wizard (α : Type) where
  session : SetupSession α
  previewRuntime : Option (SetupRuntimeState α) := none

def shouldRunPreviewRuntime (s : SetupSession α) : Bool :=
  s.exitKind.isNone && (s.currentStep == .preview ||
    (s.currentStep == .devices && s.identifyDeviceName.isSome))

def desiredPreviewTarget (s : SetupSession α) : Option String :=
  if shouldRunPreviewRuntime s ∧ s.currentStep = .devices then s.identifyDeviceName else none

def startPreviewRuntime (spawn : SetupSession α → Except String String) (s : SetupSession α) :
    Except String (Wizard α) := do
  let tempConfigPath ← spawn s
  let runtime : SetupRuntimeState α := ⟨s.config, s.identifyDeviceName⟩
  if s.currentStep = .preview then
    return ⟨{ s with message := some ("Preview running from " ++ tempConfigPath) }, some runtime⟩
  else return ⟨s, some runtime⟩

variable (floats) in
def drainCommands (store : ProjectConfig α → String → Except String Unit) :
    SetupSession α → List (Except String SetupCommandEnvelope) →
      Except String (SetupSession α × Bool)
  | s, [] => .ok (s, false)
  | s, raw :: raws => do
    let applied ← applyRawCommand floats store s raw
    let (s, changed) ← drainCommands store applied.session raws
    return (s, applied.mutation.configChanged || changed)

def dropIdentify (s : SetupSession α) : SetupSession α :=
  if s.identifyDeviceName.any fun name => !s.isDeviceSelected name then s.clearIdentifyState.1
  else s

variable (floats) in
def Wizard.turn (store : ProjectConfig α → String → Except String Unit)
    (spawn : SetupSession α → Except String String) (w : Wizard α)
    (raws : List (Except String SetupCommandEnvelope)) : Except String (Wizard α) := do
  let (s, configChanged) ← drainCommands floats store w.session raws
  let s := dropIdentify s
  let previewRuntime := w.previewRuntime.filter fun runtime =>
    !(!shouldRunPreviewRuntime s || configChanged ||
      runtime.previewTargetName != desiredPreviewTarget s)
  if shouldRunPreviewRuntime s ∧ previewRuntime.isNone then startPreviewRuntime spawn s
  else return ⟨s, previewRuntime⟩

def Wizard.previewDied (w : Wizard α) (summary : String) : Wizard α where
  session := { w.session.clearIdentifyState.1 with
    message := some ("Identify failed: " ++ summary ++ ". Another process may be holding the " ++
      "device (try `lsof /dev/video0` or stop any running `rollio collect`).") }

/-- A running preview runs the current project. -/
def Current (w : Wizard α) : Prop :=
  ∀ runtime, w.previewRuntime = some runtime → runtime.config = w.session.config

end Previews

section Conditions

def withPseudoCamera (s : SetupSession α) : ProjectConfig α :=
  { s.config with devices := s.config.devices ++ [pseudoCamera s] }

/-- The channel found under these names, if it is a robot's, follows commands. -/
def Follows (config : ProjectConfig α) (deviceName channelType : String) : Prop :=
  ∀ d c, config.deviceNamed deviceName = some d → d.channelNamed channelType = some c →
    c.kind = .robot → c.mode = some .commandFollowing

/-- The channels need not be prepared for a pairing. -/
structure Prepared (config : ProjectConfig α) (p : ChannelPairingConfig α) : Prop where
  leader : Publishes config p.leaderDevice p.leaderChannelType p.leaderState
  follower : Follows config p.followerDevice p.followerChannelType

def askedPair (floats : Floats α) (s : SetupSession α) (command : SetupCommandEnvelope) :
    Option (TeleopPairCreate α) :=
  (command.value.bind (parseCreatePairingValue floats)).or (pickDefaultPairEndpoints floats s).2

def TellsTruth (floats : Floats α) (s : SetupSession α)
    (raw : Except String SetupCommandEnvelope) : Prop :=
  ∀ command action, IsCommand raw command action →
    (action = .openAddPicker → (withPseudoCamera s).validate floats.toPlatform ≠ .ok ()) ∧
    (action = .createPairing → ∀ pair, askedPair floats s command = some pair → Offered s pair →
      (pushPairing s (requestedPairing floats s pair)).config.validate floats.toPlatform = .ok () ∨
        Prepared s.config (requestedPairing floats s pair))

def AllTellTruth (floats : Floats α) (store : ProjectConfig α → String → Except String Unit) :
    SetupSession α → List (Except String SetupCommandEnvelope) → Prop
  | _, [] => True
  | s, raw :: raws => TellsTruth floats s raw ∧ ∀ applied,
      applyRawCommand floats store s raw = .ok applied →
        AllTellTruth floats store applied.session raws

inductive TruthfulRun (floats : Floats α) (store : ProjectConfig α → String → Except String Unit)
    (spawn : SetupSession α → Except String String) (opened : SetupSession α) :
    Wizard α → Prop where
  | opened : TruthfulRun floats store spawn opened { session := opened }
  | turn {w w' : Wizard α} {raws : List (Except String SetupCommandEnvelope)} :
      TruthfulRun floats store spawn opened w → AllTellTruth floats store w.session raws →
      w.turn floats store spawn raws = .ok w' → TruthfulRun floats store spawn opened w'
  | previewDied {w : Wizard α} (summary : String) : TruthfulRun floats store spawn opened w →
      TruthfulRun floats store spawn opened (w.previewDied summary)

end Conditions

section Preparing

/-- A channel is prepared for a pairing without a change only if it was ready. -/
theorem publishes_of_ensured {config : ProjectConfig α} {deviceName channelType : String}
    {state : RobotStateKind}
    (h : (ensureChannelPublishesState config.devices deviceName channelType state).map
      (fun d => d.channels.map (·.publishStates)) =
        config.devices.map fun d => d.channels.map (·.publishStates)) :
    Publishes config deviceName channelType state := by
  intro states hstates
  obtain ⟨c, hc, rfl⟩ := Option.map_eq_some_iff.mp hstates
  obtain ⟨d, hd, hc⟩ := Option.bind_eq_some_iff.mp hc
  have hchannel := map_modifyFirst_eq (map_modifyFirst_eq h d hd) c hc
  by_contra hnot
  rw [if_neg hnot] at hchannel
  have hlength := congrArg List.length hchannel
  simp at hlength

theorem follows_of_promoted {config : ProjectConfig α} {deviceName channelType : String}
    (h : modifyChannel config.devices deviceName channelType (fun channel =>
      if channel.kind = .robot then { channel with mode := some .commandFollowing }
      else channel) = config.devices) : Follows config deviceName channelType := by
  intro d c hd hc hrobot
  have hdevice := map_modifyFirst_eq (congrArg (List.map (·.channels)) h) d hd
  have hchannel := map_modifyFirst_eq
    (congrArg (List.map DeviceChannelConfigV2.mode) hdevice) c hc
  rw [if_pos hrobot] at hchannel
  exact hchannel.symm

theorem promoted_of_follows {config : ProjectConfig α} {deviceName channelType : String}
    (h : Follows config deviceName channelType) :
    modifyChannel config.devices deviceName channelType (fun channel =>
      if channel.kind = .robot then { channel with mode := some .commandFollowing }
      else channel) = config.devices := by
  apply modifyChannel_of_found
  intro d c hd hc
  by_cases hrobot : c.kind = .robot
  · rw [if_pos hrobot, ← h d c hd hc hrobot]
  · rw [if_neg hrobot]

theorem pushPairing_devices (s : SetupSession α) (p : ChannelPairingConfig α) :
    (pushPairing s p).config.devices = modifyChannel
      (ensureChannelPublishesState s.config.devices p.leaderDevice p.leaderChannelType
        p.leaderState) p.followerDevice p.followerChannelType (fun channel =>
          if channel.kind = .robot then { channel with mode := some .commandFollowing }
          else channel) := rfl

theorem promoted_publishStates (devices : List (BinaryDeviceConfig α))
    (deviceName channelType : String) :
    (modifyChannel devices deviceName channelType (fun channel =>
      if channel.kind = .robot then { channel with mode := some .commandFollowing }
      else channel)).map (fun d => d.channels.map (·.publishStates)) =
        devices.map fun d => d.channels.map (·.publishStates) := by
  apply map_modifyFirst
  intro d
  apply map_modifyFirst
  intro c
  by_cases hrobot : c.kind = .robot
  · rw [if_pos hrobot]
  · rw [if_neg hrobot]

/-- Pushing a pairing leaves the devices as they are exactly if both channels are prepared. -/
theorem pushPairing_devices_iff (s : SetupSession α) (p : ChannelPairingConfig α) :
    (pushPairing s p).config.devices = s.config.devices ↔ Prepared s.config p := by
  rw [pushPairing_devices]
  constructor
  · intro h
    have hleader : Publishes s.config p.leaderDevice p.leaderChannelType p.leaderState := by
      apply publishes_of_ensured
      rw [← promoted_publishStates _ p.followerDevice p.followerChannelType, h]
    rw [ensure_of_publishes hleader] at h
    exact ⟨hleader, follows_of_promoted h⟩
  · intro h
    rw [ensure_of_publishes h.leader]
    exact promoted_of_follows h.follower

end Preparing

section Reports

/-- A change of the project is reported. -/
def Truthful (s : SetupSession α) (r : SetupSession α × Bool) : Prop :=
  r.2 = false → r.1.config = s.config

/-- The add picker, which never reports a change of the project. -/
theorem openAddPicker_truthful :
    Truthful s ((openAddPicker floats s).1, false) ↔
      (withPseudoCamera s).validate floats.toPlatform ≠ .ok () := by
  have hlonger : (withPseudoCamera s).devices ≠ s.config.devices := by
    intro h
    have hlength := congrArg List.length h
    simp [withPseudoCamera] at hlength
  simp only [Truthful, openAddPicker, addPseudoCamera, addDevice]
  split
  · next hv =>
    constructor
    · intro h
      exact absurd (congrArg (·.devices) (h trivial)) hlonger
    · intro h
      exact absurd hv h
  · next e hv =>
    constructor
    · intro _ hok
      rw [withPseudoCamera, hv] at hok
      cases hok
    · intro _ _
      rfl

theorem createPairingOf_truthful {pair : TeleopPairCreate α} :
    Truthful s ((createPairingOf floats s pair).1, (createPairingOf floats s pair).2.isSome) ↔
      (Offered s pair → (pushPairing s (requestedPairing floats s pair)).config.validate
        floats.toPlatform = .ok () ∨ Prepared s.config (requestedPairing floats s pair)) := by
  unfold createPairingOf
  by_cases hl : pair.leader ∉ eligibleLeaderChannelsFor s pair.policy none
  · rw [if_pos hl]
    exact ⟨fun _ ho => absurd ho.1 hl, fun _ _ => rfl⟩
  rw [if_neg hl]
  by_cases hf : pair.follower ∉ eligibleFollowerChannelsFor s pair.policy (some pair.leader) none
  · rw [if_pos hf]
    exact ⟨fun _ ho => absurd ho.2.1 hf, fun _ _ => rfl⟩
  rw [if_neg hf]
  by_cases he : pair.leader = pair.follower
  · rw [if_pos he]
    exact ⟨fun _ ho => absurd he ho.2.2, fun _ _ => rfl⟩
  rw [if_neg he]
  have hoffered : Offered s pair := ⟨not_not.mp hl, not_not.mp hf, he⟩
  dsimp only
  split
  · next hv => exact ⟨fun _ _ => .inl hv, fun _ h => by cases h⟩
  · next e hv =>
    have hinvalid : (pushPairing s (requestedPairing floats s pair)).config.validate
        floats.toPlatform ≠ .ok () := by
      intro hok
      rw [requestedPairing, hv] at hok
      cases hok
    constructor
    · intro h _
      exact .inr ((pushPairing_devices_iff s _).mp (congrArg (·.devices) (h rfl)))
    · intro h _
      have hprepared := (h hoffered).resolve_left hinvalid
      have hdevices := (pushPairing_devices_iff s _).mpr hprepared
      have hpairings : (s.config.pairings ++ [requestedPairing floats s pair]).dropLast =
          s.config.pairings := List.dropLast_concat
      show ({ s.config with
        pairings := (s.config.pairings ++ [requestedPairing floats s pair]).dropLast
        devices := (pushPairing s (requestedPairing floats s pair)).config.devices } :
          ProjectConfig α) = s.config
      rw [hdevices, hpairings]

theorem picked_same {s' : SetupSession α} {picked : Option (TeleopPairCreate α)}
    (h : pickDefaultPairEndpoints floats s = (s', picked)) :
    s'.config = s.config ∧ (picked.isSome → s' = s) := by
  simp only [pickDefaultPairEndpoints] at h
  split at h
  · cases h
    exact ⟨rfl, fun _ => rfl⟩
  · cases h
    exact ⟨rfl, fun hsome => by cases hsome⟩

/-- A pairing is asked for, or else the first one that is offered is taken. -/
theorem createPairing_truthful {explicit : Option (TeleopPairCreate α)} :
    Truthful s ((createPairing floats s explicit).1, (createPairing floats s explicit).2.isSome) ↔
      ∀ pair, explicit.or (pickDefaultPairEndpoints floats s).2 = some pair → Offered s pair →
        (pushPairing s (requestedPairing floats s pair)).config.validate floats.toPlatform = .ok () ∨
          Prepared s.config (requestedPairing floats s pair) := by
  cases explicit with
  | some pair =>
    have hor : (some pair).or (pickDefaultPairEndpoints floats s).2 = some pair := rfl
    rw [hor]
    constructor
    · intro h asked hasked
      obtain rfl := Option.some.inj hasked
      exact createPairingOf_truthful.mp h
    · intro h
      exact createPairingOf_truthful.mpr (h pair rfl)
  | none =>
    have hor : (none : Option (TeleopPairCreate α)).or (pickDefaultPairEndpoints floats s).2 =
      (pickDefaultPairEndpoints floats s).2 := rfl
    rw [hor]
    unfold createPairing
    cases hpick : pickDefaultPairEndpoints floats s with
    | mk s' picked =>
      obtain ⟨hconfig, hsame⟩ := picked_same hpick
      cases picked with
      | none =>
        constructor
        · intro _ pair h
          cases h
        · intro _ _
          exact hconfig
      | some pair =>
        obtain rfl := hsame rfl
        constructor
        · intro h asked hasked
          obtain rfl := Option.some.inj hasked
          exact createPairingOf_truthful.mp h
        · intro h
          exact createPairingOf_truthful.mpr (h pair rfl)

theorem applyRawCommand_command {store : ProjectConfig α → String → Except String Unit}
    {raw : Except String SetupCommandEnvelope} {command : SetupCommandEnvelope}
    {action : SetupAction} (h : IsCommand raw command action) :
    applyRawCommand floats store s raw =
      (handler floats store s command action).getD (.ok { session := s }) := by
  obtain rfl := h.parsed
  have htype : ¬ command.msgType ≠ "command" := not_not.mpr h.msgType
  simp only [applyRawCommand, if_neg htype, h.action, Option.bind_some]

theorem isCommand_eq {raw : Except String SetupCommandEnvelope}
    {command command' : SetupCommandEnvelope} {action action' : SetupAction}
    (h : IsCommand raw command action) (h' : IsCommand raw command' action') :
    command = command' ∧ action = action' := by
  obtain rfl := Except.ok.inj (h.parsed.symm.trans h'.parsed)
  exact ⟨rfl, Option.some.inj (h.action.symm.trans h'.action)⟩

/-- Only the two commands change the project behind a report of no change. -/
theorem silent_effect {command : SetupCommandEnvelope} {action : SetupAction}
    {r : SetupSession α × Bool} (h : Effect floats s command action r) (hreport : r.2 = false) :
    r.1.config = s.config ∨ action = .openAddPicker ∨ action = .createPairing := by
  have hunreported : r.2 ≠ true := by
    rw [hreport]
    decide
  cases h with
  | same hconfig => exact .inl hconfig
  | settings _ _ _ _ htrue => exact absurd htrue hunreported
  | channel _ _ _ _ _ _ _ _ _ _ htrue => exact absurd htrue hunreported
  | cycled _ _ _ _ _ _ _ _ _ _ htrue => exact absurd htrue hunreported
  | deselected _ _ _ _ _ _ htrue => exact absurd htrue hunreported
  | reselected _ _ _ _ _ _ _ _ _ htrue => exact absurd htrue hunreported
  | added _ _ _ _ _ _ hadded => exact .inr (.inl (hadded.resolve_left hunreported))
  | mapped _ _ _ _ _ _ _ _ htrue => exact absurd htrue hunreported
  | paired _ _ _ _ _ _ _ htrue => exact absurd htrue hunreported
  | takenBack _ _ haction => exact .inr (.inr haction)

/-- A report is truthful, unless it is one of the two commands' whose reports may be wrong. -/
theorem applied_truthful_iff {store : ProjectConfig α → String → Except String Unit}
    {raw : Except String SetupCommandEnvelope} {applied : Applied α}
    (h : applyRawCommand floats store s raw = .ok applied) :
    Truthful s (applied.session, applied.mutation.configChanged) ↔ TellsTruth floats s raw := by
  by_cases hpicker : ∃ command, IsCommand raw command .openAddPicker
  · obtain ⟨command, hcommand⟩ := hpicker
    rw [applyRawCommand_command hcommand] at h
    obtain rfl : stateResult (openAddPicker floats s) = applied := Except.ok.inj h
    apply openAddPicker_truthful.trans
    constructor
    · intro hinvalid command' action' h'
      obtain ⟨rfl, rfl⟩ := isCommand_eq hcommand h'
      exact ⟨fun _ => hinvalid, fun ha => (by cases ha)⟩
    · intro htruth
      exact (htruth command _ hcommand).1 rfl
  by_cases hcreate : ∃ command, IsCommand raw command .createPairing
  · obtain ⟨command, hcommand⟩ := hcreate
    rw [applyRawCommand_command hcommand] at h
    obtain rfl := Except.ok.inj h
    apply createPairing_truthful.trans
    constructor
    · intro hpairs command' action' h'
      obtain ⟨rfl, rfl⟩ := isCommand_eq hcommand h'
      exact ⟨fun ha => (by cases ha), fun _ => hpairs⟩
    · intro htruth
      exact (htruth command _ hcommand).2 rfl
  constructor
  · intro _ command action hcommand
    constructor
    · rintro rfl
      exact absurd ⟨command, hcommand⟩ hpicker
    · rintro rfl
      exact absurd ⟨command, hcommand⟩ hcreate
  · intro _ hreport
    rcases applied_effect h with hsame | ⟨command, action, hcommand, heffect⟩
    · exact congrArg (·.config) hsame
    · rcases silent_effect heffect hreport with hconfig | rfl | rfl
      · exact hconfig
      · exact absurd ⟨command, hcommand⟩ hpicker
      · exact absurd ⟨command, hcommand⟩ hcreate

end Reports

section Runs
variable {store : ProjectConfig α → String → Except String Unit}
  {spawn : SetupSession α → Except String String}

/-- Commands that tell the truth and report no change leave the project as it is. -/
theorem drainCommands_config {raws : List (Except String SetupCommandEnvelope)}
    {r : SetupSession α × Bool} (htruth : AllTellTruth floats store s raws)
    (h : drainCommands floats store s raws = .ok r) (hreport : r.2 = false) :
    r.1.config = s.config := by
  induction raws generalizing s r with
  | nil =>
    obtain rfl := Except.ok.inj h
    rfl
  | cons raw raws ih =>
    cases happlied : applyRawCommand floats store s raw with
    | error e =>
      simp only [drainCommands, happlied, bind, Except.bind] at h
      cases h
    | ok applied =>
      cases hrest : drainCommands floats store applied.session raws with
      | error e =>
        simp only [drainCommands, happlied, hrest, bind, Except.bind] at h
        cases h
      | ok rest =>
        simp only [drainCommands, happlied, hrest, bind, Except.bind] at h
        obtain rfl := Except.ok.inj h
        obtain ⟨hfirst, hothers⟩ := Bool.or_eq_false_iff.mp hreport
        have hlater : rest.1.config = applied.session.config :=
          ih (htruth.2 applied happlied) hrest hothers
        exact hlater.trans ((applied_truthful_iff happlied).mpr htruth.1 hfirst)

theorem dropIdentify_config (s : SetupSession α) : (dropIdentify s).config = s.config := by
  unfold dropIdentify
  split
  · exact clearIdentifyState_config s
  · rfl

theorem startPreviewRuntime_current {w : Wizard α} (h : startPreviewRuntime spawn s = .ok w) :
    Current w := by
  unfold startPreviewRuntime at h
  cases hspawn : spawn s with
  | error e =>
    rw [hspawn] at h
    cases h
  | ok tempConfigPath =>
    rw [hspawn] at h
    simp only [bind, Except.bind, pure, Except.pure] at h
    split at h
    · cases h
      intro runtime hruntime
      obtain rfl := Option.some.inj hruntime
      rfl
    · cases h
      intro runtime hruntime
      obtain rfl := Option.some.inj hruntime
      rfl

/-- A turn whose messages tell the truth: a preview that is kept was started for the project that
the commands have left. -/
theorem turn_current {w w' : Wizard α} {raws : List (Except String SetupCommandEnvelope)}
    (hcurrent : Current w) (htruth : AllTellTruth floats store w.session raws)
    (h : w.turn floats store spawn raws = .ok w') : Current w' := by
  unfold Wizard.turn at h
  cases hdrained : drainCommands floats store w.session raws with
  | error e =>
    rw [hdrained] at h
    cases h
  | ok r =>
    rw [hdrained] at h
    simp only [bind, Except.bind, pure, Except.pure] at h
    split at h
    · exact startPreviewRuntime_current h
    · cases h
      intro runtime hruntime
      obtain ⟨hran, hkept⟩ := Option.filter_eq_some_iff.mp hruntime
      have hreport : r.2 = false := by
        cases hr : r.2 with
        | false => rfl
        | true =>
          rw [hr] at hkept
          simp at hkept
      have hsame : (dropIdentify r.1).config = w.session.config :=
        (dropIdentify_config r.1).trans (drainCommands_config htruth hdrained hreport)
      exact (hcurrent runtime hran).trans hsame.symm

theorem previewDied_current (w : Wizard α) (summary : String) :
    Current (w.previewDied summary) := by
  intro runtime hruntime
  cases hruntime

theorem truthful_run_current {w : Wizard α} (h : TruthfulRun floats store spawn s w) :
    Current w := by
  induction h with
  | opened =>
    intro runtime hruntime
    cases hruntime
  | turn _ htruth hturn ih => exact turn_current ih htruth hturn
  | previewDied summary _ _ => exact previewDied_current _ summary

/-- A message's report of no change is right exactly if the message tells the truth, and as long as
all of them do, a running preview runs the current project. -/
theorem mutation_report_truthful {raw : Except String SetupCommandEnvelope} {applied : Applied α}
    (h : applyRawCommand floats store s raw = .ok applied) :
    ((applied.mutation.configChanged = false → applied.session.config = s.config) ↔
      TellsTruth floats s raw) ∧
    ∀ spawn w, TruthfulRun floats store spawn s w → Current w :=
  ⟨applied_truthful_iff h, fun _ _ => truthful_run_current⟩

end Runs

section Pickers

def previewedSession : SetupSession ℚ := { pickedSession with currentStep := .preview }

def spawned (_ : SetupSession ℚ) : Except String String := .ok "/tmp/setup-preview-19090.toml"

def cameraCommand : SetupCommandEnvelope :=
  { msgType := "command", action := "setup_add_pseudo_camera" }

def pickerCommand : SetupCommandEnvelope :=
  { msgType := "command", action := "setup_open_add_picker" }

/-- The camera that is added by its own command is reported, and the preview starts anew. -/
theorem camera_reported : ∃ applied w, applyRawCommand rationalFloats anyStore previewedSession
      (.ok cameraCommand) = .ok applied ∧ applied.mutation.configChanged = true ∧
    (applied.mutation.configChanged = false →
      applied.session.config = previewedSession.config) ∧
    Wizard.turn rationalFloats anyStore spawned ⟨previewedSession, none⟩ [.ok cameraCommand] =
      .ok w ∧ w.previewRuntime.isSome ∧ Current w := by
  have haction : ∀ command action, IsCommand (.ok cameraCommand) command action →
      action = .addPseudoCamera := by
    intro command action h
    obtain rfl := Except.ok.inj h.parsed
    exact (Option.some.inj h.action).symm
  have htruth : ∀ s : SetupSession ℚ, TellsTruth rationalFloats s (.ok cameraCommand) := by
    intro s command action h
    obtain rfl := haction command action h
    exact ⟨fun ha => absurd ha (by decide), fun ha => absurd ha (by decide)⟩
  refine ⟨_, _, rfl, by decide +kernel, ?_, rfl, by decide +kernel, ?_⟩
  · exact (@mutation_report_truthful ℚ rationalFloats previewedSession anyStore
      (.ok cameraCommand) _ rfl).1.mpr (htruth _)
  · exact (@mutation_report_truthful ℚ rationalFloats previewedSession anyStore
      (.ok cameraCommand) _ rfl).2 spawned _
        (@TruthfulRun.turn ℚ rationalFloats anyStore spawned previewedSession _ _ [.ok cameraCommand]
          .opened ⟨htruth _, fun _ _ => trivial⟩ rfl)

/-- The add picker adds the same camera, but says that the project has not changed; the preview
that is running goes on without the camera. -/
theorem picker_unreported : previewedSession.config.validate rationalFloats.toPlatform = .ok () ∧
    ∃ applied before after, applyRawCommand rationalFloats anyStore previewedSession
      (.ok pickerCommand) = .ok applied ∧ applied.mutation.configChanged = false ∧
      applied.session.config ≠ previewedSession.config ∧
    Wizard.turn rationalFloats anyStore spawned ⟨previewedSession, none⟩ [] = .ok before ∧
    Wizard.turn rationalFloats anyStore spawned before [.ok pickerCommand] = .ok after ∧
    ¬ Current after := by
  refine ⟨by decide +kernel, _, _, _, rfl, by decide +kernel, ?_, rfl, rfl, ?_⟩
  · intro h
    have hlength := congrArg (fun config => config.devices.length) h
    revert hlength
    decide +kernel
  · intro h
    have hlength := congrArg (fun config => config.devices.length) (h _ rfl)
    revert hlength
    decide +kernel

end Pickers

end WizardReports
