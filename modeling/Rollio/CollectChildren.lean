import Rollio.ChildTermination
import Rollio.PartialRuns
import Rollio.ProjectConfigs

/-! The children of a collect session, from the first spawn to the return of `run_with_config`. The
calls that can fail on the way are free to; the children run beside the controller throughout. -/
namespace CollectChildren
open ChildProcesses PartialRuns ProjectConfigs TerminatingRuns

/-- The shutdown timeout the session uses, in nanoseconds like every other time. -/
def shutdownTimeout (c : ControllerConfig) : ℕ :=
  max (c.shutdownTimeoutMs.toNat * 1000000) 30000000000

def pollInterval (c : ControllerConfig) : ℕ := c.childPollIntervalMs.toNat * 1000000

/-- A child is named by its place in the list of specs. -/
inductive ShutdownTrigger where
  | signal
  | childExited (i : ℕ)
  deriving DecidableEq, Repr

inductive Occasion where
  | trigger (trigger : ShutdownTrigger)
  | spawnFailed (i : ℕ)
  deriving DecidableEq, Repr

inductive Outcome where
  | ok
  | childExited (i : ℕ)
  | spawnFailed (i : ℕ)
  | failed
  deriving DecidableEq, Repr

/-- Before a spawn, the resume probe or the first status; before the look at the signal flag or at
child `i`, in the rest of a turn, before the shutdown message, in `terminate_children` and after
the return. -/
inductive Place where
  | spawning
  | probing
  | reporting
  | checking
  | polling (i : ℕ)
  | working
  | leaving (trigger : ShutdownTrigger)
  | terminating (occasion : Occasion)
  | returned (outcome : Outcome)
  deriving DecidableEq, Repr

/-- `system` holds the clock and the children; its phase counts in `terminating` only. -/
structure Session where
  spawned : ℕ := 0
  system : State
  place : Place := .spawning
  signalled : Bool := false
  shutdownSent : Bool := false
  endingSince : Option ℕ := none

def resultForShutdownTrigger : ShutdownTrigger → Outcome
  | .signal => .ok
  | .childExited i => .childExited i

def conclude : Occasion → Bool → Outcome
  | .trigger trigger, true => resultForShutdownTrigger trigger
  | .trigger _, false => .failed
  | .spawnFailed i, _ => .spawnFailed i

def initial (now : ℕ) : Session where
  system := { now := now, due := now, children := fun _ => {}, phase := .returned true }

section Steps
variable (n : ℕ) (c : ControllerConfig) (slack : ℕ)

def Session.terminate (s : Session) (occasion : Occasion) (shutdownSent : Bool) : Session :=
  { s with
    system := start slack (shutdownTimeout c) s.system.now s.system.children
    place := .terminating occasion
    shutdownSent := shutdownSent
    endingSince := some s.system.now }

def Session.enter (s : Session) (place : Place) : Session := { s with place := place }

def Place.fallible : Place → Bool
  | .probing | .reporting | .working | .leaving _ => true
  | _ => false

/-- Where the children's and the clock's steps are the session's own. -/
def Place.beside : Place → Bool
  | .terminating _ | .returned _ => false
  | _ => true

/-- The signal flag matters no more once the children are brought down. -/
inductive Step : Session → Session → Prop where
  | spawn {s : Session} (hplace : s.place = .spawning) (hmore : s.spawned < n) :
      Step s { s with spawned := s.spawned + 1 }
  | spawnFails {s : Session} (hplace : s.place = .spawning) (hmore : s.spawned < n) (sent : Bool) :
      Step s (s.terminate c slack (.spawnFailed s.spawned) sent)
  | spawnedAll {s : Session} (hplace : s.place = .spawning) (hall : s.spawned = n) :
      Step s (s.enter .probing)
  | probed {s : Session} (hplace : s.place = .probing) : Step s (s.enter .reporting)
  | reported {s : Session} (hplace : s.place = .reporting) : Step s (s.enter .checking)
  | signal {s : Session} (hplace : s.place.beside = true) : Step s { s with signalled := true }
  | noticed {s : Session} (hplace : s.place = .checking) (h : s.signalled = true) :
      Step s (s.enter (.leaving .signal))
  | unnoticed {s : Session} (hplace : s.place = .checking) (h : s.signalled = false) :
      Step s (s.enter (.polling 0))
  | pollRunning {s : Session} {i : ℕ} (hplace : s.place = .polling i) (hi : i < n)
      (h : (s.system.children i).exitedAt = none) : Step s (s.enter (.polling (i + 1)))
  | pollExited {s : Session} {i : ℕ} (hplace : s.place = .polling i) (hi : i < n)
      (h : (s.system.children i).exitedAt.isSome = true) :
      Step s { s with
        system := s.system.reap i
        place := .leaving (.childExited i) }
  | pollFails {s : Session} {i : ℕ} (hplace : s.place = .polling i) (hi : i < n) :
      Step s (s.enter (.returned .failed))
  | polled {s : Session} (hplace : s.place = .polling n) : Step s (s.enter .working)
  | worked {s : Session} (hplace : s.place = .working) : Step s (s.enter .checking)
  | fails {s : Session} (hplace : s.place.fallible = true) : Step s (s.enter (.returned .failed))
  | leave {s : Session} {trigger : ShutdownTrigger} (hplace : s.place = .leaving trigger) :
      Step s (s.terminate c slack (.trigger trigger) true)
  | terminate {s : Session} {occasion : Occasion} {system : State}
      (hplace : s.place = .terminating occasion)
      (h : ChildProcesses.Step s.spawned (pollInterval c) slack s.system system) :
      Step s { s with system := system }
  | terminated {s : Session} {occasion : Occasion} {ok : Bool}
      (hplace : s.place = .terminating occasion) (h : s.system.phase = .returned ok) :
      Step s (s.enter (.returned (conclude occasion ok)))
  | exit {s : Session} {i : ℕ} (hplace : s.place.beside = true)
      (hi : i < s.spawned) (h : (s.system.children i).exitedAt = none) :
      Step s { s with system := s.system.exit i }
  | tick {s : Session} (hplace : s.place.beside = true) :
      Step s { s with system := { s.system with now := s.system.now + 1 } }

end Steps

section Sound
variable {n slack now : ℕ} {c : ControllerConfig} {s s' : Session}

/-- Nothing was sent to anyone, and who is reaped has exited. -/
structure Quiet (s : Session) : Prop where
  untouched : ∀ i, (s.system.children i).signals = [] ∧
    ((s.system.children i).reaped = true → (s.system.children i).exitedAt.isSome = true)
  shutdownSent : s.shutdownSent = false
  endingSince : s.endingSince = none

def Justified (n : ℕ) (s : Session) : Occasion → Prop
  | .trigger .signal => s.spawned = n ∧ s.signalled = true ∧ s.shutdownSent = true
  | .trigger (.childExited i) => s.spawned = n ∧ i < n ∧ s.shutdownSent = true
  | .spawnFailed i => s.spawned = i ∧ i < n

def Under (c : ControllerConfig) (slack : ℕ) (s : Session) : Prop :=
  ∃ t children k, s.endingSince = some t ∧ Untouched s.spawned children ∧
    Steps (ChildProcesses.Step s.spawned (pollInterval c) slack)
      (start slack (shutdownTimeout c) t children) k s.system

def Left (n : ℕ) (c : ControllerConfig) (slack : ℕ) (s : Session) : Outcome → Prop
  | .ok => s.spawned = n ∧ s.signalled = true ∧ s.shutdownSent = true ∧ Under c slack s ∧
      ∀ i < n, (s.system.children i).reaped = true
  | .childExited i => s.spawned = n ∧ i < n ∧ s.shutdownSent = true ∧ Under c slack s ∧
      ∀ j < n, (s.system.children j).reaped = true
  | .spawnFailed i => s.spawned = i ∧ i < n ∧ Under c slack s ∧
      (s.system.phase = .returned true → ∀ j < i, (s.system.children j).reaped = true)
  | .failed => Quiet s ∨ s.shutdownSent = true ∧ Under c slack s ∧ s.system.phase = .returned false

def Sound (n : ℕ) (c : ControllerConfig) (slack : ℕ) (s : Session) : Prop :=
  match s.place with
  | .spawning => Quiet s
  | .probing | .reporting | .checking | .polling _ | .working => s.spawned = n ∧ Quiet s
  | .leaving .signal => s.spawned = n ∧ s.signalled = true ∧ Quiet s
  | .leaving (.childExited i) => s.spawned = n ∧ i < n ∧ Quiet s
  | .terminating occasion => Justified n s occasion ∧ Under c slack s
  | .returned outcome => Left n c slack s outcome

theorem Quiet.reap {i : ℕ} (h : Quiet s) (hexited : (s.system.children i).exitedAt.isSome = true) :
    Quiet { s with system := s.system.reap i } := by
  refine ⟨fun j => ?_, h.shutdownSent, h.endingSince⟩
  by_cases hji : j = i
  · subst hji
    simp only [State.reap, Function.update_self]
    exact ⟨(h.untouched j).1, fun _ => hexited⟩
  · simp only [State.reap, Function.update_of_ne hji]
    exact h.untouched j

theorem Quiet.exit {i : ℕ} (h : Quiet s) : Quiet { s with system := s.system.exit i } := by
  refine ⟨fun j => ?_, h.shutdownSent, h.endingSince⟩
  by_cases hji : j = i
  · subst hji
    simp only [State.exit, Function.update_self]
    exact ⟨(h.untouched j).1, fun _ => rfl⟩
  · simp only [State.exit, Function.update_of_ne hji]
    exact h.untouched j

theorem Quiet.same (h : Quiet s) (hchildren : s'.system.children = s.system.children)
    (hsent : s'.shutdownSent = s.shutdownSent) (hsince : s'.endingSince = s.endingSince) :
    Quiet s' where
  untouched := fun i => hchildren ▸ h.untouched i
  shutdownSent := hsent.trans h.shutdownSent
  endingSince := hsince.trans h.endingSince

theorem Quiet.under (h : Quiet s) (occasion : Occasion) (sent : Bool) :
    Under c slack (s.terminate c slack occasion sent) :=
  ⟨s.system.now, s.system.children, 0, rfl, fun i _ => h.untouched i, .refl⟩

/-- A call that reports success has reaped everyone. -/
theorem Under.reaped (h : Under c slack s) (hok : s.system.phase = .returned true) :
    ∀ i < s.spawned, (s.system.children i).reaped = true := by
  obtain ⟨t, children, k, -, -, hrun⟩ := h
  have hcounted : ChildTermination.Counted s.spawned s.system :=
    hrun.preserves (fun _ _ hs hstep => hs.step hstep) ChildTermination.counted_start
  unfold ChildTermination.Counted at hcounted
  rw [hok] at hcounted
  exact hcounted rfl

theorem Sound.terminated {occasion : Occasion} {ok : Bool} (hjustified : Justified n s occasion)
    (hunder : Under c slack s) (h : s.system.phase = .returned ok) :
    Left n c slack (s.enter (.returned (conclude occasion ok))) (conclude occasion ok) := by
  cases occasion with
  | spawnFailed i =>
    refine ⟨hjustified.1, hjustified.2, hunder, fun hok j hj => ?_⟩
    exact hunder.reaped hok j (hjustified.1 ▸ hj)
  | trigger trigger =>
    cases ok with
    | false =>
      cases trigger with
      | signal => exact .inr ⟨hjustified.2.2, hunder, h⟩
      | childExited i => exact .inr ⟨hjustified.2.2, hunder, h⟩
    | true =>
      cases trigger with
      | signal =>
        exact ⟨hjustified.1, hjustified.2.1, hjustified.2.2, hunder, hjustified.1 ▸ hunder.reaped h⟩
      | childExited i =>
        exact ⟨hjustified.1, hjustified.2.1, hjustified.2.2, hunder, hjustified.1 ▸ hunder.reaped h⟩

/-- A step beside the controller's own work, in a session that has sent nothing yet. -/
theorem Sound.beside (h : Sound n c slack s) (hplace : s.place.beside = true)
    (hsame : s'.place = s.place) (hspawned : s'.spawned = s.spawned)
    (hsignalled : s.signalled = true → s'.signalled = true) (hquiet : Quiet s → Quiet s') :
    Sound n c slack s' := by
  unfold Sound at h ⊢
  rw [hsame]
  cases hp : s.place with
  | spawning =>
    rw [hp] at h
    exact hquiet h
  | leaving trigger =>
    rw [hp] at h
    cases trigger with
    | signal => exact ⟨hspawned.trans h.1, hsignalled h.2.1, hquiet h.2.2⟩
    | childExited i => exact ⟨hspawned.trans h.1, h.2.1, hquiet h.2.2⟩
  | terminating occasion =>
    rw [hp] at hplace
    cases hplace
  | returned outcome =>
    rw [hp] at hplace
    cases hplace
  | _ =>
    rw [hp] at h
    exact ⟨hspawned.trans h.1, hquiet h.2⟩

theorem Sound.step (h : Sound n c slack s) (hstep : Step n c slack s s') : Sound n c slack s' := by
  have hs := h
  unfold Sound at hs
  cases hstep with
  | spawn hplace hmore =>
    rw [hplace] at hs
    unfold Sound
    dsimp only
    rw [hplace]
    exact hs.same rfl rfl rfl
  | spawnFails hplace hmore sent =>
    rw [hplace] at hs
    exact ⟨⟨rfl, hmore⟩, hs.under _ sent⟩
  | spawnedAll hplace hall =>
    rw [hplace] at hs
    exact ⟨hall, hs.same rfl rfl rfl⟩
  | probed hplace | reported hplace | polled hplace | worked hplace =>
    rw [hplace] at hs
    exact ⟨hs.1, hs.2.same rfl rfl rfl⟩
  | signal hplace =>
    exact h.beside hplace rfl rfl (fun _ => rfl) fun hquiet => hquiet.same rfl rfl rfl
  | noticed hplace hsignalled =>
    rw [hplace] at hs
    exact ⟨hs.1, hsignalled, hs.2.same rfl rfl rfl⟩
  | unnoticed hplace _ | pollRunning hplace _ _ =>
    rw [hplace] at hs
    exact ⟨hs.1, hs.2.same rfl rfl rfl⟩
  | pollExited hplace hi hexited =>
    rw [hplace] at hs
    exact ⟨hs.1, hi, (hs.2.reap hexited).same rfl rfl rfl⟩
  | pollFails hplace hi =>
    rw [hplace] at hs
    exact .inl (hs.2.same rfl rfl rfl)
  | fails hplace =>
    cases hp : s.place with
    | probing | reporting | working =>
      rw [hp] at hs
      exact .inl (hs.2.same rfl rfl rfl)
    | leaving trigger =>
      rw [hp] at hs
      cases trigger with
      | signal => exact .inl (hs.2.2.same rfl rfl rfl)
      | childExited i => exact .inl (hs.2.2.same rfl rfl rfl)
    | _ =>
      rw [hp] at hplace
      cases hplace
  | @leave trigger hplace =>
    rw [hplace] at hs
    cases trigger with
    | signal => exact ⟨⟨hs.1, hs.2.1, rfl⟩, hs.2.2.under _ true⟩
    | childExited i => exact ⟨⟨hs.1, hs.2.1, rfl⟩, hs.2.2.under _ true⟩
  | @terminate occasion system hplace hrun =>
    rw [hplace] at hs
    obtain ⟨hjustified, t, children, k, hsince, huntouched, hsteps⟩ := hs
    unfold Sound
    dsimp only
    rw [hplace]
    refine ⟨?_, t, children, k + 1, hsince, huntouched, hsteps.tail hrun⟩
    cases occasion with
    | trigger trigger => cases trigger <;> exact hjustified
    | spawnFailed i => exact hjustified
  | terminated hplace hphase =>
    rw [hplace] at hs
    exact Sound.terminated hs.1 hs.2 hphase
  | exit hplace hi hrunning => exact h.beside hplace rfl rfl id fun hquiet => hquiet.exit
  | tick hplace =>
    exact h.beside hplace rfl rfl id fun hquiet => hquiet.same rfl rfl rfl

theorem sound_initial (now : ℕ) : Sound n c slack (initial now) :=
  Quiet.mk (fun _ => ⟨rfl, nofun⟩) rfl rfl

theorem sound_run {k : ℕ} (h : Steps (Step n c slack) (initial now) k s) : Sound n c slack s :=
  h.preserves (fun _ _ hs hstep => hs.step hstep) (sound_initial now)

end Sound

section Sessions
variable {n slack now k : ℕ} {c : ControllerConfig} {s s' : Session}

theorem Sound.quiet_or_under (h : Sound n c slack s) :
    Quiet s ∨ (s.shutdownSent = true ∨ s.spawned < n) ∧ Under c slack s := by
  unfold Sound at h
  cases hp : s.place with
  | spawning =>
    rw [hp] at h
    exact .inl h
  | leaving trigger =>
    rw [hp] at h
    cases trigger with
    | signal => exact .inl h.2.2
    | childExited i => exact .inl h.2.2
  | terminating occasion =>
    rw [hp] at h
    obtain ⟨hjustified, hunder⟩ := h
    refine .inr ⟨?_, hunder⟩
    cases occasion with
    | spawnFailed i => exact .inr (hjustified.1 ▸ hjustified.2)
    | trigger trigger => cases trigger <;> exact .inl hjustified.2.2
  | returned outcome =>
    rw [hp] at h
    cases outcome with
    | ok => exact .inr ⟨.inl h.2.2.1, h.2.2.2.1⟩
    | childExited i => exact .inr ⟨.inl h.2.2.1, h.2.2.2.1⟩
    | spawnFailed i => exact .inr ⟨.inr (h.1 ▸ h.2.1), h.2.2.1⟩
    | failed =>
      rcases h with hquiet | ⟨hsent, hunder, -⟩
      · exact .inl hquiet
      · exact .inr ⟨.inl hsent, hunder⟩
  | _ =>
    rw [hp] at h
    exact .inl h.2

theorem Under.orderly (h : Under c slack s) : ∃ t, s.endingSince = some t ∧
    Orderly s.spawned (t + shutdownTimeout c) (terminateGrace (pollInterval c)) s.system := by
  obtain ⟨t, children, k, hsince, huntouched, hrun⟩ := h
  exact ⟨t, hsince,
    hrun.preserves (fun _ _ hs hstep => hs.step hstep) (orderly_start _ huntouched)⟩

theorem Sound.spared (h : Sound n c slack s) (hstep : Step n c slack s s') {i : ℕ}
    (hi : i < s.spawned) : Spared i s.system s'.system ∧ i < s'.spawned := by
  have hs := h
  cases hstep with
  | spawn => exact ⟨fun hreaped => ⟨hreaped, rfl⟩, Nat.lt_succ_of_lt hi⟩
  | pollExited => exact ⟨spared_reap i _, hi⟩
  | exit => exact ⟨spared_exit i _, hi⟩
  | terminate hplace hrun =>
    unfold Sound at hs
    rw [hplace] at hs
    obtain ⟨t, -, horderly⟩ := hs.2.orderly
    exact ⟨horderly.spared_step hi hrun, hi⟩
  | _ => exact ⟨fun hreaped => ⟨hreaped, rfl⟩, hi⟩

/-- Whatever comes, nothing more is sent to a child that was reaped. -/
theorem Sound.spared_run {m : ℕ} (h : Sound n c slack s) {i : ℕ} (hi : i < s.spawned)
    (hreaped : (s.system.children i).reaped = true) (hrun : Steps (Step n c slack) s m s') :
    (s'.system.children i).signals = (s.system.children i).signals := by
  have hkept : Sound n c slack s' ∧ i < s'.spawned ∧ (s'.system.children i).reaped = true ∧
      (s'.system.children i).signals = (s.system.children i).signals := by
    refine hrun.preserves (P := fun u => Sound n c slack u ∧ i < u.spawned ∧
      (u.system.children i).reaped = true ∧
        (u.system.children i).signals = (s.system.children i).signals) ?_ ⟨h, hi, hreaped, rfl⟩
    rintro t u ⟨hsound, hin, hgone, hsent⟩ hstep
    obtain ⟨hspared, hin'⟩ := hsound.spared hstep hin
    obtain ⟨hgone', hsame⟩ := hspared hgone
    exact ⟨hsound.step hstep, hin', hgone', hsame.trans hsent⟩
  exact hkept.2.2.2

/-- No child gets a signal before `terminate_children` is called, which is after the shutdown message
or a failed spawn; from then on each gets SIGTERM after the timeout, of half a minute at least, and
SIGKILL after the grace period, unless it exits before; and none gets a signal once it is reaped. -/
theorem children_treated (h : Steps (Step n c slack) (initial now) k s) :
    ((s.endingSince = none ∧ ∀ i, (s.system.children i).signals = []) ∨
      ∃ t, s.endingSince = some t ∧ (s.shutdownSent = true ∨ s.spawned < n) ∧
        ∀ i < s.spawned, Treated (t + max (c.shutdownTimeoutMs.toNat * 1000000) 30000000000)
          (terminateGrace (pollInterval c)) s.system.now (s.system.children i)) ∧
      ∀ i < s.spawned, (s.system.children i).reaped = true →
        ∀ m s', Steps (Step n c slack) s m s' →
          (s'.system.children i).signals = (s.system.children i).signals := by
  have hsound := sound_run h
  refine ⟨?_, fun i hi hreaped m s' hrun => hsound.spared_run hi hreaped hrun⟩
  rcases hsound.quiet_or_under with hquiet | ⟨hwhy, hunder⟩
  · exact .inl ⟨hquiet.endingSince, fun i => (hquiet.untouched i).1⟩
  · obtain ⟨t, hsince, horderly⟩ := hunder.orderly
    exact .inr ⟨t, hsince, hwhy, horderly.treated⟩

section Script

inductive Cue where
  | parent
  | ticks (d : ℕ)
  | exit (i : ℕ)

def play (n pollInterval slack : ℕ) (s : State) : Cue → State
  | .parent => parentStep n pollInterval slack s
  | .ticks d => { s with now := s.now + d }
  | .exit i => s.exit i

def CanPlay (n : ℕ) (s : State) : Cue → Prop
  | .parent => Ready s
  | .ticks d => s.phase.over = false ∧ s.now + d ≤ s.due
  | .exit i => s.phase.over = false ∧ i < n ∧ (s.children i).exitedAt = none

instance (n : ℕ) (s : State) (cue : Cue) : Decidable (CanPlay n s cue) := by
  cases cue <;> simp only [CanPlay] <;> infer_instance

theorem ticks_steps {pollInterval : ℕ} {system : State} (hrun : system.phase.over = false) :
    ∀ d, system.now + d ≤ system.due → Steps (ChildProcesses.Step n pollInterval slack) system d
      { system with now := system.now + d } := by
  intro d
  induction d with
  | zero => exact fun _ => .refl
  | succ d ih => exact fun hdue => (ih (by omega)).tail (.tick hrun (by dsimp only; omega))

theorem script_steps {pollInterval : ℕ} {cues : List Cue} {system : State}
    (h : Follows (CanPlay n) (play n pollInterval slack) (fun _ _ => True) system cues) :
    ∃ m, Steps (ChildProcesses.Step n pollInterval slack) system m
      (cues.foldl (play n pollInterval slack) system) := by
  induction cues generalizing system with
  | nil => exact ⟨0, .refl⟩
  | cons cue cues ih =>
    obtain ⟨hcan, -, hrest⟩ := h
    obtain ⟨m, hm⟩ := ih hrest
    cases cue with
    | parent => exact ⟨_, (Steps.refl.tail (.parent hcan)).trans hm⟩
    | ticks d => exact ⟨_, (ticks_steps hcan.1 d hcan.2).trans hm⟩
    | exit i => exact ⟨_, (Steps.refl.tail (.exit hcan.1 hcan.2.1 hcan.2.2)).trans hm⟩

theorem Steps.terminating {occasion : Occasion} {system : State} {m : ℕ}
    (hplace : s.place = .terminating occasion)
    (h : Steps (ChildProcesses.Step s.spawned (pollInterval c) slack) s.system m system) :
    Steps (Step n c slack) s m { s with system := system } := by
  induction h with
  | refl => exact .refl
  | tail _ hstep ih => exact ih.tail (.terminate hplace hstep)

end Script

def exitNoticed : Session :=
  { (initial 0 : Session) with
    spawned := 2
    system := ((initial 0).system.exit 0).reap 0
    place := .leaving (.childExited 0) }

theorem exit_noticed_run : Steps (Step 2 {} 30000000000) (initial 0) 8 exitNoticed := by
  have hspawned : Steps (Step 2 {} 30000000000) (initial 0) 2 { initial 0 with spawned := 2 } :=
    (Steps.refl.tail (.spawn rfl Nat.two_pos)).tail (.spawn rfl Nat.one_lt_two)
  have hchecking : Steps (Step 2 {} 30000000000) (initial 0) 5
      { initial 0 with spawned := 2, place := .checking } :=
    ((hspawned.tail (.spawnedAll rfl rfl)).tail (.probed rfl)).tail (.reported rfl)
  have hpolling : Steps (Step 2 {} 30000000000) (initial 0) 7
      { initial 0 with
        spawned := 2
        system := (initial 0).system.exit 0
        place := .polling 0 } :=
    (hchecking.tail (.exit rfl Nat.two_pos rfl)).tail (.unnoticed rfl rfl)
  exact hpolling.tail (.pollExited rfl Nat.two_pos rfl)

def ignoredScript : List Cue :=
  [.ticks 30000000000, .parent, .parent, .parent, .parent, .parent, .parent, .parent,
    .ticks 2000000000, .parent, .parent, .parent, .parent, .parent, .parent, .exit 1, .parent,
    .parent]

def ignoredEnd : Session :=
  let s := exitNoticed.terminate {} 30000000000 (.trigger (.childExited 0)) true
  { s with system := ignoredScript.foldl (play 2 (pollInterval {}) 30000000000) s.system }

theorem ignored_treated :
    (ignoredEnd.system.children 0).signals = [] ∧
      (ignoredEnd.system.children 1).signals =
        [(.sigterm, 30000000000), (.sigkill, 32000000000)] ∧
      ignoredEnd.system.phase = .returned true ∧
      ∀ i < 2, Treated 30000000000 (terminateGrace (pollInterval {})) 32000000000
        (ignoredEnd.system.children i) := by
  have hplayed : Follows (CanPlay 2) (play 2 (pollInterval {}) 30000000000) (fun _ _ => True)
      (exitNoticed.terminate {} 30000000000 (.trigger (.childExited 0)) true).system
      ignoredScript := by decide +kernel
  obtain ⟨m, hrun⟩ := script_steps hplayed
  have hsession := (exit_noticed_run.tail (.leave rfl)).trans
    (Steps.terminating (s := exitNoticed.terminate {} 30000000000 (.trigger (.childExited 0)) true)
      rfl hrun)
  obtain ⟨hnone, -⟩ | ⟨t, hsince, -, htreated⟩ := (children_treated hsession).1
  · cases hnone
  · obtain rfl : 0 = t := Option.some.inj hsince
    refine ⟨by decide +kernel, by decide +kernel, by decide +kernel, fun i hi => ?_⟩
    have hend := htreated i hi
    exact hend

def Leaves (n : ℕ) (s : Session) : Outcome → Prop
  | .ok =>
    s.signalled = true ∧ s.shutdownSent = true ∧ ∀ i < n, (s.system.children i).reaped = true
  | .childExited i =>
    i < n ∧ s.shutdownSent = true ∧ ∀ j < n, (s.system.children j).reaped = true
  | .spawnFailed i =>
    i < n ∧ (s.system.phase = .returned true → ∀ j < i, (s.system.children j).reaped = true)
  | .failed =>
    s.shutdownSent = false ∧ (∀ i, (s.system.children i).signals = []) ∨
      s.shutdownSent = true ∧ s.system.phase = .returned false

theorem spawn_run (n now : ℕ) (c : ControllerConfig) (slack : ℕ) :
    ∀ m ≤ n, Steps (Step n c slack) (initial now) m { initial now with spawned := m } := by
  intro m
  induction m with
  | zero => exact fun _ => .refl
  | succ m ih => exact fun hle => (ih (Nat.le_of_succ_le hle)).tail (.spawn rfl hle)

theorem refused_run (n now : ℕ) (c : ControllerConfig) (slack : ℕ) :
    Steps (Step n c slack) (initial now) (n + 1 + 1)
      { initial now with spawned := n, place := .returned .failed } := by
  have hspawned := spawn_run n now c slack n (Nat.le_refl n)
  have hprobing : Steps (Step n c slack) (initial now) (n + 1)
      { initial now with spawned := n, place := .probing } := hspawned.tail (.spawnedAll rfl rfl)
  exact hprobing.tail (.fails rfl)

/-- A session that ends by a signal or a child's exit leaves no child behind, and neither does one
whose spawn fails; an error that comes between the spawns and the children's end is returned with
nothing sent to them, and they may all run on. -/
theorem session_leaves (n now : ℕ) (c : ControllerConfig) (slack : ℕ) :
    (∀ k s outcome, Steps (Step n c slack) (initial now) k s → s.place = .returned outcome →
      Leaves n s outcome) ∧
    ∃ k s, Steps (Step n c slack) (initial now) k s ∧ s.place = .returned .failed ∧
      s.spawned = n ∧ s.shutdownSent = false ∧
      ∀ i < n, (s.system.children i).exitedAt = none ∧ (s.system.children i).signals = [] := by
  constructor
  · intro k s outcome h hplace
    have hsound := sound_run h
    unfold Sound at hsound
    rw [hplace] at hsound
    cases outcome with
    | ok => exact ⟨hsound.2.1, hsound.2.2.1, hsound.2.2.2.2⟩
    | childExited i => exact ⟨hsound.2.1, hsound.2.2.1, hsound.2.2.2.2⟩
    | spawnFailed i => exact ⟨hsound.2.1, hsound.2.2.2⟩
    | failed =>
      rcases hsound with hquiet | ⟨hsent, -, hphase⟩
      · exact .inl ⟨hquiet.shutdownSent, fun i => (hquiet.untouched i).1⟩
      · exact .inr ⟨hsent, hphase⟩
  · exact ⟨_, _, refused_run n now c slack, rfl, rfl, rfl, fun i _ => ⟨rfl, rfl⟩⟩

theorem refused_leaves : Leaves 3 ({ initial 0 with spawned := 3, place := .returned .failed })
    .failed :=
  (session_leaves 3 0 {} 5).1 _ _ _ (refused_run 3 0 {} 5) rfl

theorem accepted_interval (h : c.validate = .ok ()) : 0 < pollInterval c := by
  unfold ControllerConfig.validate at h
  by_cases hzero : c.childPollIntervalMs = 0
  · rw [if_pos hzero] at h
    by_cases htimeout : c.shutdownTimeoutMs = 0
    · rw [if_pos htimeout] at h
      cases h
    · rw [if_neg htimeout] at h
      cases h
  · have hpos : 0 < c.childPollIntervalMs.toNat :=
      Nat.pos_of_ne_zero fun he => hzero (UInt64.toNat_inj.mp he)
    unfold pollInterval
    omega

/-- With an accepted configuration `terminate_children` always comes back: after the timeout, the
grace period and two pauses, but for the scheduler's delays, every child is gone, whatever it does
with the signals. -/
theorem children_end_in_time (children : ℕ → Child) (hc : c.validate = .ok ()) :
    Leads (ChildProcesses.Step n (pollInterval c) slack)
      (start slack (shutdownTimeout c) now children) fun s => ∃ ok, s.phase = .returned ok ∧
        s.now ≤ now + shutdownTimeout c + terminateGrace (pollInterval c) + 2 * pollInterval c +
          (7 * n + 6) * slack ∧
        (ok = true → ∀ i < n, (s.children i).reaped = true) :=
  ChildTermination.terminate_children_returns children (accepted_interval hc)

theorem three_children_end :
    Leads (ChildProcesses.Step 3 (pollInterval {}) 5) (start 5 (shutdownTimeout {}) 0 fun _ => {})
      fun s => ∃ ok, s.phase = .returned ok ∧
        s.now ≤ 0 + shutdownTimeout {} + terminateGrace (pollInterval {}) + 2 * pollInterval {} +
          (7 * 3 + 6) * 5 ∧
        (ok = true → ∀ i < 3, (s.children i).reaped = true) :=
  children_end_in_time (fun _ => {}) rfl

end Sessions

end CollectChildren
