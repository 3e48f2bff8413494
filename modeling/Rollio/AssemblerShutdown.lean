import Rollio.EpisodeTurns
import Rollio.TerminalOutcomes

/-! The assembler's way out of its main loop. After a shutdown it works off what it has, and
ends once nothing is pending and no slot is taken; an episode that was never kept or discarded
keeps it there. -/
namespace AssemblerShutdown
open BusMessages RuntimeConfig Clocks ControllerEpisode LerobotDataset LerobotEpisodeManager
open LerobotDispatch OrderedTables Queues PartialRuns EpisodeTurns
open CollectPipeline PipelineTopics
open EncoderProcess (Encoder EncoderAction)
open AssemblerProcess (Assembler AssemblerAction Outbox WorkerEvent stageEvent)

/-- The condition under which the main loop tells its worker to shut down. -/
structure MayExit (a : Assembler) : Prop where
  requested : a.shutdownRequested = true
  episodes : a.manager.episodes.isEmpty = true
  inFlight : a.manager.inFlight.isEmpty = true

/-- The process and its worker run, and no shutdown is under way between them. -/
structure Running (a : Assembler) : Prop where
  phase : a.phase ≠ .exited
  workerRunning : a.workerRunning = true
  commands : .shutdown ∉ a.commands.pending
  events : .shutdownComplete ∉ a.events.pending

section Assembler
variable {a b c : Assembler}

/-- Steps of the assembler alone. -/
abbrev Reaches : Assembler → Assembler → Prop :=
  Path AssemblerProcess.Enabled (fun a action => (AssemblerProcess.next a action).1)
    fun _ _ => True

theorem reaches_next (action : AssemblerAction) (h : AssemblerProcess.Enabled a action) :
    Reaches a (AssemblerProcess.next a action).1 := .tail .refl h trivial

theorem with_phase {phase : AssemblerProcess.LoopPhase} (h : a.phase = phase) :
    { a with phase := phase } = a := by
  cases a
  cases h
  rfl

section Phases

theorem reaches_observations_dispatch (a : Assembler) :
    Reaches { a with phase := .observations } { a with phase := .dispatch } := by
  have hobs : Reaches { a with phase := .observations } { a with phase := .actions } :=
    reaches_next .observationsDrained rfl
  have hact : Reaches { a with phase := .actions } { a with phase := .dispatch } :=
    reaches_next .actionsDrained rfl
  exact hobs.trans hact

theorem reaches_packets_dispatch (a : Assembler) (l : List String) :
    Reaches { a with phase := .packets l } { a with phase := .dispatch } := by
  induction l with
  | nil =>
    have hnext : Reaches { a with phase := .packets [] } { a with phase := .observations } :=
      reaches_next .nextSubscriber rfl
    exact hnext.trans (reaches_observations_dispatch a)
  | cons channelId l ih =>
    have hnext : Reaches { a with phase := .packets (channelId :: l) }
        { a with phase := .packets l } := reaches_next .nextSubscriber rfl
    exact hnext.trans ih

theorem reaches_control_dispatch (a : Assembler) :
    Reaches { a with phase := .control } { a with phase := .dispatch } := by
  have hdrain : Reaches { a with phase := .control } { a with phase := .packets a.subscribers } :=
    reaches_next .controlDrained rfl
  exact hdrain.trans (reaches_packets_dispatch a a.subscribers)

end Phases

section Worker

theorem reaches_drained (hp : a.phase = .events) (h : .shutdownComplete ∉ a.events.pending) :
    ∃ events : Queue WorkerEvent, events.pending = [] ∧ Reaches a { a with events := events } := by
  induction hl : a.events.pending generalizing a with
  | nil => exact ⟨a.events, hl, .refl⟩
  | cons event rest ih =>
    obtain ⟨event', events, hpop⟩ := Queue.pop_of_pending (q := a.events) (by simp [hl])
    obtain ⟨hq, -⟩ := Queue.pop_spec hpop
    rw [hq, List.mem_cons, not_or] at h
    have hstep : Reaches a { a with events := events } := by
      have hnext := reaches_next (a := a) .takeEvent ⟨hp, by simp [hl]⟩
      simp only [AssemblerProcess.next, Assembler.takeEvent, hpop, if_neg (Ne.symm h.1)] at hnext
      exact hnext
    have hrest : events.pending = rest := by
      rw [hq] at hl
      exact (List.cons_eq_cons.mp hl).2
    obtain ⟨last, hlast, hreach⟩ := ih (a := { a with events := events }) hp h.2 hrest
    exact ⟨last, hlast, hstep.trans hreach⟩

theorem reaches_exited (hp : a.phase = .events) (h : .shutdownComplete ∈ a.events.pending) :
    ∃ b, Reaches a b ∧ b.phase = .exited := by
  induction hl : a.events.pending generalizing a with
  | nil =>
    rw [hl] at h
    cases h
  | cons event rest ih =>
    obtain ⟨event', events, hpop⟩ := Queue.pop_of_pending (q := a.events) (by simp [hl])
    obtain ⟨hq, -⟩ := Queue.pop_spec hpop
    have hnext := reaches_next (a := a) .takeEvent ⟨hp, by simp [hl]⟩
    simp only [AssemblerProcess.next, Assembler.takeEvent, hpop] at hnext
    by_cases hevent : event' = .shutdownComplete
    · exact ⟨_, hnext, if_pos hevent⟩
    · rw [if_neg hevent] at hnext
      rw [hq, List.mem_cons] at h
      have hrest : events.pending = rest := by
        rw [hq] at hl
        exact (List.cons_eq_cons.mp hl).2
      obtain ⟨b, hb, hexit⟩ := ih (a := { a with events := events }) hp
        (h.resolve_left (Ne.symm hevent)) hrest
      exact ⟨b, hnext.trans hb, hexit⟩

theorem reaches_ended (hrun : a.workerRunning = true) (h : .shutdown ∈ a.commands.pending) :
    ∃ b, Reaches a b ∧ b.phase = a.phase ∧ .shutdownComplete ∈ b.events.pending := by
  induction hl : a.commands.pending generalizing a with
  | nil =>
    rw [hl] at h
    cases h
  | cons command rest ih =>
    obtain ⟨command', commands, hpop⟩ := Queue.pop_of_pending (q := a.commands) (by simp [hl])
    obtain ⟨hq, -⟩ := Queue.pop_spec hpop
    have hnext := reaches_next (a := a) (.stage (.ok "")) ⟨hrun, by simp [hl]⟩
    simp only [AssemblerProcess.next, Assembler.stage, hpop] at hnext
    cases command' with
    | shutdown => exact ⟨_, hnext, rfl, by simp⟩
    | stage input =>
      rw [hq, List.mem_cons] at h
      have hrest : commands.pending = rest := by
        rw [hq] at hl
        exact (List.cons_eq_cons.mp hl).2
      obtain ⟨b, hb, hphase, hcomplete⟩ := ih (a := { a with
          commands := commands
          events := a.events.publish [stageEvent input (.ok "")] }) hrun
        (h.resolve_left (by simp)) hrest
      exact ⟨b, hnext.trans hb, hphase, hcomplete⟩

end Worker

theorem reaches_swept (hp : a.phase = .dispatch) (hrun : a.workerRunning = true) (nowUs : UInt64)
    (now : Instant) : ∃ d : Dispatch,
      dispatchReadyEpisodes a.manager ⟨a.workerRunning, []⟩ nowUs (fun _ => 0) = .ok d ∧
      Reaches a { a with
        manager := (d.manager.sweepStaleSlots now).2
        commands := a.commands.publish d.worker.sent
        phase := .events } := by
  have hconnected : (⟨a.workerRunning, []⟩ : Sender).connected = true := hrun
  obtain ⟨d, hd⟩ := dispatch_connected (m := a.manager) hconnected nowUs fun _ => 0
  refine ⟨d, hd, ?_⟩
  have hdispatch := reaches_next (a := a) (.dispatch nowUs fun _ => 0) hp
  simp only [AssemblerProcess.next, Assembler.dispatch, hd] at hdispatch
  have hstored : Reaches { a with
        manager := d.manager, commands := a.commands.publish d.worker.sent, phase := .stored }
      { a with
        manager := d.manager, commands := a.commands.publish d.worker.sent, phase := .sweep } :=
    reaches_next .storedDrained rfl
  have hsweep : Reaches { a with
        manager := d.manager, commands := a.commands.publish d.worker.sent, phase := .sweep }
      { a with
        manager := (d.manager.sweepStaleSlots now).2
        commands := a.commands.publish d.worker.sent
        phase := .events } := reaches_next (.sweep now) rfl
  exact hdispatch.trans (hstored.trans hsweep)

/-- An assembler that finds its exit condition leaves its loop. -/
theorem MayExit.leaves (h : MayExit a) (hr : Running a) (hp : a.phase = .events) :
    ∃ b, Reaches a b ∧ b.phase = .exited := by
  obtain ⟨events, hempty, hdrain⟩ := reaches_drained hp hr.events
  have hcond : (a.shutdownRequested && a.manager.episodes.isEmpty && a.manager.inFlight.isEmpty) =
      true := by rw [h.requested, h.episodes, h.inFlight]; rfl
  have hask := reaches_next (a := { a with events := events }) .eventsDrained
    ⟨hp, hempty⟩
  simp only [AssemblerProcess.next, Assembler.endIteration, if_pos hcond] at hask
  have hround := reaches_control_dispatch { a with
    events := events
    commands := a.commands.publish [.shutdown]
    shutdownRequested := false }
  obtain ⟨d, -, hsweep⟩ := reaches_swept (a := { a with
    events := events
    commands := a.commands.publish [.shutdown]
    shutdownRequested := false
    phase := .dispatch }) rfl hr.workerRunning 0 0
  obtain ⟨b, hended, hphase, hcomplete⟩ := reaches_ended (a := { a with
    events := events
    commands := (a.commands.publish [.shutdown]).publish d.worker.sent
    shutdownRequested := false
    manager := (d.manager.sweepStaleSlots 0).2
    phase := .events }) hr.workerRunning (by simp)
  obtain ⟨c, hexit, hc⟩ := reaches_exited hphase hcomplete
  exact ⟨c, hdrain.trans (hask.trans (hround.trans (hsweep.trans (hended.trans hexit)))), hc⟩

structure Finishing (a : Assembler) : Prop extends Running a where
  requested : a.shutdownRequested = true
  keyed : Keyed a.manager
  attends : Attends none a.manager

theorem bound_exists (l : List (UInt32 × Instant)) : ∃ t, ∀ slot ∈ l, slot.2 ≤ t := by
  induction l with
  | nil => exact ⟨0, by simp⟩
  | cons slot l ih =>
    obtain ⟨t, ht⟩ := ih
    refine ⟨max slot.2 t, fun other hother => ?_⟩
    rcases List.mem_cons.mp hother with rfl | hother
    · exact le_max_left ..
    · exact (ht other hother).trans (le_max_right ..)

theorem sweep_empties (m : EpisodeManager) :
    ∃ now, (m.sweepStaleSlots now).2.inFlight.isEmpty = true := by
  obtain ⟨t, ht⟩ := bound_exists m.inFlight.toList
  refine ⟨m.staleAfter + t + 1, Std.TreeMap.isEmpty_iff_forall_not_mem.mpr fun i hi => ?_⟩
  obtain ⟨hstale, hmem⟩ := mem_foldl_erase.mp hi
  obtain ⟨start, hstart⟩ := mem_iff_lookup.mp hmem
  have hle : start ≤ t := ht (i, start) (Std.TreeMap.mem_toList_iff_getElem?_eq_some.mpr hstart)
  have hlate : m.staleAfter < m.staleAfter + t + 1 - start := by
    apply Nat.lt_sub_of_add_lt
    exact Nat.lt_succ_of_le (Nat.add_le_add_left hle m.staleAfter)
  exact hstale (mem_scan.mpr ⟨start, hstart, decide_eq_true hlate⟩)

def lastClock : UInt64 := 18446744073709551615

theorem Attends.not_waiting {m : EpisodeManager} (h : Attends none m) {i : UInt32}
    {e : PendingEpisode} (he : m.episodes[i]? = some e) :
    verdict m lastClock e ≠ .waiting := by
  have hkeep : e.keepRequested = true := by
    by_contra hk
    obtain ⟨_, ho⟩ := h.unkept i e he (by simpa using hk)
    cases ho
  obtain ⟨hs, w, hw, htime⟩ := h.kept i e he hkeep
  obtain ⟨stop, hs⟩ := Option.isSome_iff_exists.mp hs
  have hlate : saturatingMul m.config.missingEosTimeoutMs 1000 < lastClock.toNat - w.toNat := by
    have hclock : lastClock.toNat = u64Max := rfl
    unfold Timed at htime
    omega
  unfold verdict
  split
  · simp
  · split
    · next hn => simp [hkeep, hs] at hn
    · split
      · simp
      · simp [hw, hlate]

theorem Finishing.clears (h : Finishing a) (hp : a.phase = .dispatch) :
    ∃ b, Reaches a b ∧ b.phase = .events ∧ Running b ∧ MayExit b := by
  have hconnected : (⟨a.workerRunning, []⟩ : Sender).connected = true := h.workerRunning
  obtain ⟨d₀, hd₀⟩ := dispatch_connected (m := a.manager) hconnected lastClock fun _ => 0
  obtain ⟨now, hnow⟩ := sweep_empties d₀.manager
  obtain ⟨d, hd, hreach⟩ := reaches_swept hp h.workerRunning lastClock now
  obtain rfl : d = d₀ := Except.ok.inj (hd.symm.trans hd₀)
  refine ⟨_, hreach, rfl, ?_, ?_⟩
  · obtain ⟨inputs, hsent, -, -⟩ := (dispatched h.keyed hd).sent
    refine ⟨by simp, h.workerRunning, ?_, h.events⟩
    simpa [hsent] using h.commands
  · refine ⟨h.requested, Std.TreeMap.isEmpty_iff_forall_not_mem.mpr fun i hi => ?_, hnow⟩
    obtain ⟨e, he, hwait⟩ := dispatch_waiting hd hi
    exact Attends.not_waiting h.attends he hwait

theorem Finishing.of_same (h : Finishing a) (hphase : b.phase ≠ .exited)
    (hrun : b.workerRunning = a.workerRunning) (hreq : b.shutdownRequested = a.shutdownRequested)
    (hcommands : b.commands = a.commands) (hevents : .shutdownComplete ∉ b.events.pending)
    (hconfig : b.manager.config = a.manager.config)
    (hepisodes : b.manager.episodes = a.manager.episodes) : Finishing b where
  phase := hphase
  workerRunning := hrun.trans h.workerRunning
  commands := hcommands ▸ h.commands
  events := hevents
  requested := hreq.trans h.requested
  keyed := by
    unfold Keyed
    rw [hepisodes]
    exact h.keyed
  attends := h.attends.of_entries hconfig fun i e he =>
    ⟨e, hepisodes ▸ he, rfl, rfl, rfl⟩

theorem Finishing.control (h : Finishing a) (hp : a.phase = .control) :
    ∃ b, Reaches a b ∧ b.phase = .events ∧ Running b ∧ MayExit b := by
  have hreach := reaches_control_dispatch a
  rw [with_phase hp] at hreach
  have hf : Finishing { a with phase := .dispatch } :=
    h.of_same (by simp) rfl rfl rfl h.events rfl rfl
  obtain ⟨b, hb, hrest⟩ := hf.clears rfl
  exact ⟨b, hreach.trans hb, hrest⟩

theorem Finishing.drains (h : Finishing a) (hp : a.phase = .events) :
    ∃ b, Reaches a b ∧ b.phase = .events ∧ Running b ∧ MayExit b := by
  obtain ⟨events, hempty, hdrain⟩ := reaches_drained hp h.events
  have hnone : .shutdownComplete ∉ events.pending := by simp [hempty]
  have hf : Finishing { a with events := events } :=
    h.of_same h.phase rfl rfl rfl hnone rfl rfl
  by_cases hexit : MayExit { a with events := events }
  · exact ⟨_, hdrain, hp, hf.toRunning, hexit⟩
  · have hcond : ¬ (a.shutdownRequested && a.manager.episodes.isEmpty &&
        a.manager.inFlight.isEmpty) = true := by
      intro hc
      simp only [Bool.and_eq_true] at hc
      exact hexit ⟨hc.1.1, hc.1.2, hc.2⟩
    have hend := reaches_next (a := { a with events := events }) .eventsDrained
      ⟨hp, hempty⟩
    simp only [AssemblerProcess.next, Assembler.endIteration, if_neg hcond] at hend
    have hf' : Finishing { a with events := events, phase := .control } :=
      h.of_same (by simp) rfl rfl rfl hnone rfl rfl
    obtain ⟨b, hb, hrest⟩ := hf'.control rfl
    exact ⟨b, hdrain.trans (hend.trans hb), hrest⟩

theorem Finishing.sweeps (h : Finishing a) (hp : a.phase = .sweep) :
    ∃ b, Reaches a b ∧ b.phase = .events ∧ Running b ∧ MayExit b := by
  have hreach := reaches_next (a := a) (.sweep 0) hp
  have hf : Finishing (AssemblerProcess.next a (.sweep 0)).1 :=
    h.of_same (by simp [AssemblerProcess.next, Assembler.sweep]) rfl rfl rfl h.events rfl rfl
  obtain ⟨b, hb, hrest⟩ := hf.drains rfl
  exact ⟨b, hreach.trans hb, hrest⟩

theorem Finishing.mayExit (h : Finishing a) :
    ∃ b, Reaches a b ∧ b.phase = .events ∧ Running b ∧ MayExit b := by
  have round (hreach : Reaches a { a with phase := .dispatch }) :
      ∃ b, Reaches a b ∧ b.phase = .events ∧ Running b ∧ MayExit b := by
    have hf : Finishing { a with phase := .dispatch } :=
      h.of_same (by simp) rfl rfl rfl h.events rfl rfl
    obtain ⟨b, hb, hrest⟩ := hf.clears rfl
    exact ⟨b, hreach.trans hb, hrest⟩
  cases hp : a.phase with
  | control => exact h.control hp
  | packets l =>
    have hreach := reaches_packets_dispatch a l
    rw [with_phase hp] at hreach
    exact round hreach
  | observations =>
    have hreach := reaches_observations_dispatch a
    rw [with_phase hp] at hreach
    exact round hreach
  | actions => exact round (reaches_next .actionsDrained hp)
  | dispatch => exact h.clears hp
  | stored =>
    have hreach := reaches_next (a := a) .storedDrained hp
    have hf : Finishing { a with phase := .sweep } :=
      h.of_same (by simp) rfl rfl rfl h.events rfl rfl
    obtain ⟨b, hb, hrest⟩ := hf.sweeps rfl
    exact ⟨b, hreach.trans hb, hrest⟩
  | sweep => exact h.sweeps hp
  | events => exact h.drains hp
  | exited => exact absurd hp h.phase

/-- Only the exit condition ends the quiet between a running process and its worker. -/
theorem step_running {action : AssemblerAction} {out : Outbox}
    (hs : AssemblerProcess.Step a action b out) (hk : Keyed a.manager) (h : Running a) :
    Running b ∨ a.shutdownRequested = true ∧ b.shutdownRequested = false := by
  obtain ⟨hphase, hrun, hcom, hev⟩ := h
  cases hs with
  | move phase hexit =>
    exact Or.inl ⟨fun he => (by rw [hexit he] at hrun; cases hrun), hrun, hcom, hev⟩
  | control nowUs phase hne hpop => exact Or.inl ⟨hne, hrun, hcom, hev⟩
  | samples hframe hlookup hmem => exact Or.inl ⟨hphase, hrun, hcom, hev⟩
  | dispatch nowUs now hd =>
    obtain ⟨inputs, hsent, -, -⟩ := (dispatched hk hd).sent
    refine Or.inl ⟨by simp, hrun, ?_, hev⟩
    simpa [hsent] using hcom
  | release hpop => exact Or.inl ⟨hphase, hrun, hcom, hev⟩
  | sweep now => exact Or.inl ⟨by simp [Assembler.sweep], hrun, hcom, hev⟩
  | event hpop =>
    obtain ⟨hp, -⟩ := Queue.pop_spec hpop
    rw [hp, List.mem_cons, not_or] at hev
    exact Or.inl ⟨by simpa [Ne.symm hev.1] using hphase, hrun, hcom, hev.2⟩
  | askShutdown hr he hf => exact Or.inr ⟨hr, rfl⟩
  | stage result hpop =>
    obtain ⟨hp, -⟩ := Queue.pop_spec hpop
    rw [hp, List.mem_cons, not_or] at hcom
    refine Or.inl ⟨hphase, hrun, hcom.2, ?_⟩
    cases result <;> simpa [stageEvent] using hev
  | endWorker result hpop =>
    obtain ⟨hp, -⟩ := Queue.pop_spec hpop
    exact absurd (by rw [hp]; exact List.mem_cons_self) hcom

theorem step_requested {action : AssemblerAction} {out : Outbox}
    (hs : AssemblerProcess.Step a action b out) (h : b.shutdownRequested = true) :
    a.shutdownRequested = true ∨ .shutdown ∈ b.control.received := by
  cases hs with
  | control nowUs phase hne hpop =>
    next event control =>
    obtain ⟨-, hr⟩ := Queue.pop_spec hpop
    cases event with
    | shutdown => exact Or.inr (by simp [hr])
    | _ => exact Or.inl (by simpa [EpisodeManager.onControlEvent] using h)
  | askShutdown hr he hf => exact Or.inl hr
  | _ => exact Or.inl h

theorem step_unrequested {action : AssemblerAction} {out : Outbox}
    (hs : AssemblerProcess.Step a action b out) (hnone : a.control.pending = [])
    (hreq : a.shutdownRequested = false) : b.shutdownRequested = false := by
  cases hs with
  | control nowUs phase hne hpop =>
    rw [(Queue.pop_spec hpop).1] at hnone
    cases hnone
  | askShutdown hreq' he hf => rfl
  | _ => exact hreq

theorem step_received {action : AssemblerAction} {out : Outbox}
    (hs : AssemblerProcess.Step a action b out) : a.control.received ⊆ b.control.received := by
  cases hs with
  | control nowUs phase hne hpop =>
    rw [(Queue.pop_spec hpop).2]
    exact List.subset_append_left ..
  | _ => exact List.Subset.refl _

end Assembler

section Topic

/-- The next event of the topic is the final shutdown or one of the lifecycle's. -/
theorem topic_next {c : CollectLoop.Controller} {received rest : List ControlEvent}
    {event : ControlEvent} (h : c.topic = received ++ event :: rest) :
    (event = .shutdown ∧ c.phase = .exited ∧ c.emitted = received ∧ rest = []) ∨
      ∃ more, c.emitted = received ++ event :: more := by
  unfold CollectLoop.Controller.topic at h
  obtain ⟨l, hl, hr⟩ | ⟨l, hl, hr⟩ := List.append_eq_append_iff.mp h
  · refine Or.inl ?_
    split at hr
    · next hp =>
      cases l with
      | nil =>
        obtain ⟨rfl, rfl⟩ := List.cons_eq_cons.mp hr
        exact ⟨rfl, hp, by simpa using hl.symm, rfl⟩
      | cons x l => simp at hr
    · simp at hr
  · cases l with
    | nil =>
      refine Or.inl ?_
      split at hr
      · next hp =>
        obtain ⟨rfl, rfl⟩ := List.cons_eq_cons.mp hr
        exact ⟨rfl, hp, by simpa using hl, rfl⟩
      · cases hr
    | cons x l =>
      obtain ⟨rfl, -⟩ := List.cons_eq_cons.mp hr
      exact Or.inr ⟨l, hl⟩

end Topic

/-- The controller leaves its loop between two episodes only, and each control event is taken
at a clock reading that leaves room for the timeout. -/
def Settles (s : State) : Action → Prop
  | .controller .exit => s.controller.gate.lifecycle.state = .idle
  | .assembler (.takeControl nowUs) => Timed s.assembler.manager nowUs
  | _ => True

instance (s : State) : (a : Action) → Decidable (Settles s a)
  | .controller .exit => inferInstanceAs (Decidable (_ = EpisodeState.idle))
  | .assembler (.takeControl nowUs) => inferInstanceAs (Decidable (Timed s.assembler.manager nowUs))
  | .controller (.drainBackpressure _) | .controller (.drainStored _)
  | .controller (.drainDropped _) | .controller (.drainCommands ..)
  | .assembler .controlDrained | .assembler .nextSubscriber | .assembler (.observation ..)
  | .assembler .observationsDrained | .assembler (.action ..) | .assembler .actionsDrained
  | .assembler (.dispatch ..) | .assembler .takeStored | .assembler .storedDrained
  | .assembler (.sweep _) | .assembler .takeEvent | .assembler .eventsDrained
  | .assembler (.stage _) | .packet | .storage _ | .encoder .. => isTrue trivial

structure Invariant (s : State) : Prop where
  keyed : Keyed s.assembler.manager
  topic : s.assembler.control.log = s.controller.topic
  turns : turn s.controller.emitted = some (current s.controller.gate.lifecycle)
  idle : s.controller.phase = .exited → s.controller.gate.lifecycle.state = .idle
  attends : ∃ o, Attends o s.assembler.manager ∧ (turn s.assembler.control.received = some o ∨
    .shutdown ∈ s.assembler.control.received ∧ s.assembler.control.pending = [] ∧ o = none)
  alive : .shutdown ∉ s.assembler.control.received →
    Running s.assembler ∧ s.assembler.shutdownRequested = false
  running : s.assembler.shutdownRequested = true → Running s.assembler

theorem initial_invariant (config : AssemblerRuntimeConfigV2) (nextIndex prior : UInt32)
    (queueSize : String → ℕ) : Invariant (initial config nextIndex prior queueSize) where
  keyed := by simp [Keyed, initial, Assembler.initial, EpisodeManager.new]
  topic := rfl
  turns := rfl
  idle := fun hp => (by cases hp)
  attends := ⟨none, attends_initial config, Or.inl rfl⟩
  alive := fun _ => ⟨by constructor <;> simp [initial, Assembler.initial], rfl⟩
  running := fun hr => (by cases hr)

section Steps
variable {s : State}

theorem Invariant.unreceived (h : Invariant s) (hp : s.assembler.control.pending ≠ []) :
    .shutdown ∉ s.assembler.control.received := by
  obtain ⟨o, -, ho | ⟨-, hnone, -⟩⟩ := h.attends
  · exact turn_no_shutdown ho
  · exact absurd hnone hp

/-- A shutdown on the topic is the end of the collect loop. -/
theorem Invariant.exited (h : Invariant s) (hs : .shutdown ∈ s.assembler.control.log) :
    s.controller.phase = .exited := by
  by_contra hp
  rw [h.topic, CollectLoop.Controller.topic, if_neg hp, List.append_nil] at hs
  exact turn_no_shutdown h.turns hs

theorem Invariant.controller (h : Invariant s) {a : CollectLoop.ControllerAction}
    (ha : Enabled s (.controller a)) (hok : Settles s (.controller a)) :
    Invariant (next s (.controller a)) where
  keyed := h.keyed
  topic := by
    have ht := CollectLoop.next_topic (c := s.controller) ha
    rw [← h.topic, ← Queue.log_publish] at ht
    exact ht.symm
  turns := next_turn h.turns a
  idle := by
    intro hp
    cases a with
    | exit => exact hok
    | _ => cases hp
  attends := by
    obtain ⟨o, hatt, ho | ⟨hr, -, -⟩⟩ := h.attends
    · exact ⟨o, hatt, Or.inl ho⟩
    · have hexit := h.exited (List.mem_append_left _ hr)
      exact absurd hexit (CollectLoop.enabled_phase ha)
  alive := fun hr => by
    obtain ⟨⟨hphase, hrun, hcom, hev⟩, hreq⟩ := h.alive hr
    exact ⟨⟨hphase, hrun, hcom, hev⟩, hreq⟩
  running := fun hr => by
    obtain ⟨hphase, hrun, hcom, hev⟩ := h.running hr
    exact ⟨hphase, hrun, hcom, hev⟩

theorem Invariant.takesControl (h : Invariant s) {event : ControlEvent}
    {control : Queue ControlEvent} {nowUs : UInt64} (htime : Timed s.assembler.manager nowUs)
    (hpop : s.assembler.control.pop = some (event, control)) :
    ∃ o, Attends o (s.assembler.manager.onControlEvent event nowUs).2 ∧
      (turn control.received = some o ∨
        .shutdown ∈ control.received ∧ control.pending = [] ∧ o = none) := by
  obtain ⟨hp, hr⟩ := Queue.pop_spec hpop
  obtain ⟨o, hatt, ho | ⟨-, hnone, -⟩⟩ := h.attends
  · have htopic := h.topic
    rw [Queue.log, hp] at htopic
    obtain ⟨rfl, hexit, hall, hrest⟩ | ⟨more, hmore⟩ := topic_next htopic.symm
    · have hturn := h.turns
      rw [hall, ho, current, h.idle hexit] at hturn
      obtain rfl := Option.some.inj hturn
      exact ⟨none, hatt, Or.inr ⟨by simp [hr], hrest, rfl⟩⟩
    · have hturn := h.turns
      have hsplit : s.controller.emitted =
          (s.assembler.control.received ++ [event]) ++ more := by simp [hmore]
      rw [hsplit] at hturn
      obtain ⟨o', ho'⟩ := turn_of_append hturn
      have htakes := turn_concat event ho
      rw [ho'] at htakes
      exact ⟨o', hatt.control htakes.symm htime, Or.inl (hr ▸ ho')⟩
  · rw [hp] at hnone
    cases hnone

theorem Invariant.step_attends (h : Invariant s) {action : AssemblerAction} {b : Assembler}
    {out : Outbox} (hs : AssemblerProcess.Step s.assembler action b out)
    (htime : ∀ nowUs, action = .takeControl nowUs → Timed s.assembler.manager nowUs) :
    ∃ o, Attends o b.manager ∧ (turn b.control.received = some o ∨
      .shutdown ∈ b.control.received ∧ b.control.pending = [] ∧ o = none) := by
  obtain ⟨o, hatt, ho⟩ := h.attends
  cases hs with
  | control nowUs phase hne hpop => exact h.takesControl (htime nowUs rfl) hpop
  | samples hframe hlookup hmem =>
    refine ⟨o, hatt.of_entries hframe.config fun i e' he' => ?_, ho⟩
    obtain ⟨e, he, hsame⟩ := hlookup i e' he'
    exact ⟨e, he, hsame.keepRequested, hsame.stopTimeUs, hsame.readyWaitStartedUs⟩
  | dispatch nowUs now hd =>
    have hdis := dispatched h.keyed hd
    refine ⟨o, hatt.of_entries hdis.config fun i e he => ?_, ho⟩
    exact ⟨e, hdis.survives i e he, rfl, rfl, rfl⟩
  | release hpop => exact ⟨o, hatt.of_entries rfl fun i e he => ⟨e, he, rfl, rfl, rfl⟩, ho⟩
  | sweep now => exact ⟨o, hatt.of_entries rfl fun i e he => ⟨e, he, rfl, rfl, rfl⟩, ho⟩
  | _ => exact ⟨o, hatt, ho⟩

theorem Invariant.assembler (h : Invariant s) {a : AssemblerAction}
    (ha : Enabled s (.assembler a)) (hok : Settles s (.assembler a)) :
    Invariant (next s (.assembler a)) := by
  have hs := AssemblerProcess.next_step (a := s.assembler) ha
  have hlog := AssemblerProcess.step_control_log hs
  have hkeyed := AssemblerProcess.step_keyed hs h.keyed
  have halive : .shutdown ∉ (AssemblerProcess.next s.assembler a).1.control.received →
      Running (AssemblerProcess.next s.assembler a).1 ∧
        (AssemblerProcess.next s.assembler a).1.shutdownRequested = false := by
    intro hr
    obtain ⟨hrunning, hreq⟩ := h.alive fun hold => hr (step_received hs hold)
    have hquiet : (AssemblerProcess.next s.assembler a).1.shutdownRequested = false := by
      by_contra hb
      rcases step_requested hs (by simpa using hb) with hold | hnew
      · cases hreq.symm.trans hold
      · exact hr hnew
    rcases step_running hs h.keyed hrunning with hb | ⟨hold, -⟩
    · exact ⟨hb, hquiet⟩
    · cases hreq.symm.trans hold
  have hrunning : (AssemblerProcess.next s.assembler a).1.shutdownRequested = true →
      Running (AssemblerProcess.next s.assembler a).1 := by
    intro hb
    have hold : Running s.assembler := by
      by_cases hr : .shutdown ∈ s.assembler.control.received
      · cases hreq : s.assembler.shutdownRequested with
        | true => exact h.running hreq
        | false =>
          have hnone : s.assembler.control.pending = [] := by
            by_contra hp
            exact h.unreceived hp hr
          cases (step_unrequested hs hnone hreq).symm.trans hb
      · exact (h.alive hr).1
    rcases step_running hs h.keyed hold with hb' | ⟨-, hoff⟩
    · exact hb'
    · cases hoff.symm.trans hb
  refine ⟨hkeyed, hlog.trans h.topic, h.turns, h.idle, h.step_attends hs ?_, halive, hrunning⟩
  intro nowUs hact
  subst hact
  exact hok

theorem Invariant.packet (h : Invariant s) : Invariant (next s .packet) := by
  obtain he | ⟨channelId, header, payload, packets, -, -, he⟩ := takePacket_cases s <;>
    simp only [next, he]
  · exact h
  · refine ⟨h.keyed.onPacket channelId header payload, h.topic, h.turns, h.idle, ?_,
      fun hr => ?_, fun hr => ?_⟩
    · obtain ⟨o, hatt, ho⟩ := h.attends
      refine ⟨o, hatt.of_entries rfl fun i e' he' => ?_, ho⟩
      rw [EpisodeManager.onPacket_lookup] at he'
      split at he'
      · obtain ⟨e, he, rfl⟩ := Option.map_eq_some_iff.mp he'
        exact ⟨e, he, e.onPacket_keepRequested .., e.onPacket_stopTimeUs ..,
          e.onPacket_readyWaitStartedUs ..⟩
      · exact ⟨e', he', rfl, rfl, rfl⟩
    · obtain ⟨⟨hphase, hrun, hcom, hev⟩, hreq⟩ := h.alive hr
      exact ⟨⟨hphase, hrun, hcom, hev⟩, hreq⟩
    · obtain ⟨hphase, hrun, hcom, hev⟩ := h.running hr
      exact ⟨hphase, hrun, hcom, hev⟩

theorem next_preserves_invariant (h : Invariant s) {a : Action} (ha : Enabled s a)
    (hok : Settles s a) : Invariant (next s a) := by
  cases a with
  | controller a => exact h.controller ha hok
  | assembler a => exact h.assembler ha hok
  | packet => exact h.packet
  | storage a =>
    refine ⟨h.keyed, h.topic, h.turns, h.idle, h.attends, fun hr => ?_, fun hr => ?_⟩
    · obtain ⟨⟨hphase, hrun, hcom, hev⟩, hreq⟩ := h.alive hr
      exact ⟨⟨hphase, hrun, hcom, hev⟩, hreq⟩
    · obtain ⟨hphase, hrun, hcom, hev⟩ := h.running hr
      exact ⟨hphase, hrun, hcom, hev⟩
  | encoder channelId a =>
    exact ⟨h.keyed, h.topic, h.turns, h.idle, h.attends, h.alive, h.running⟩

end Steps

theorem run_invariant (config : AssemblerRuntimeConfigV2) (nextIndex prior : UInt32)
    (queueSize : String → ℕ) {s : State}
    (h : Run Settles (initial config nextIndex prior queueSize) s) : Invariant s :=
  Path.invariant (initial_invariant config nextIndex prior queueSize)
    (fun _ _ ha hok h => next_preserves_invariant h ha hok) h

theorem Reaches.run {s : State} {b : Assembler} (h : Reaches s.assembler b) :
    ∃ t, Run (fun _ _ => True) s t ∧ t.assembler = b := by
  induction h with
  | refl => exact ⟨s, .refl, rfl⟩
  | @tail c action _ ha _ ih =>
    obtain ⟨t, ht, rfl⟩ := ih
    have hnext : Run (fun _ _ => True) s (next t (.assembler action)) := .tail ht ha trivial
    exact ⟨_, hnext, rfl⟩

/-- From `s` the assembler can come to its exit condition and leave its main loop. -/
def CanLeave (s : State) : Prop :=
  ∃ t u, Run (fun _ _ => True) s t ∧ MayExit t.assembler ∧ Run (fun _ _ => True) t u ∧
    u.assembler.phase = .exited

/-- If the controller leaves its loop only between two episodes, then after the shutdown the
assembler can leave its own from every reachable state. -/
theorem assembler_can_leave (config : AssemblerRuntimeConfigV2) (nextIndex prior : UInt32)
    (queueSize : String → ℕ) {s : State}
    (h : Run Settles (initial config nextIndex prior queueSize) s)
    (hreq : s.assembler.shutdownRequested = true) : CanLeave s := by
  have hinv := run_invariant config nextIndex prior queueSize h
  have hreceived : .shutdown ∈ s.assembler.control.received := by
    by_contra hr
    cases (hinv.alive hr).2.symm.trans hreq
  have hfin : Finishing s.assembler := by
    obtain ⟨o, hatt, ho | ⟨-, -, rfl⟩⟩ := hinv.attends
    · exact absurd hreceived (turn_no_shutdown ho)
    · exact ⟨hinv.running hreq, hreq, hinv.keyed, hatt⟩
  obtain ⟨b, hb, hphase, hrunning, hexit⟩ := hfin.mayExit
  obtain ⟨t, ht, rfl⟩ := hb.run
  obtain ⟨c, hc, hleft⟩ := hexit.leaves hrunning hphase
  obtain ⟨u, hu, rfl⟩ := hc.run
  exact ⟨t, u, ht, hexit, hu, hleft⟩

/-- The encoders have ended while an episode is neither kept nor discarded, and no control event
is left to change that. -/
structure Stranded (s : State) (i : UInt32) : Prop where
  controller : s.controller.phase = .exited
  control : s.assembler.control.pending = []
  keyed : Keyed s.assembler.manager
  entry : ∃ e : PendingEpisode, s.assembler.manager.episodes[i]? = some e ∧
    e.keepRequested = false ∧ e.failedCameras = []
  visits : ∀ l ∈ s.assembler.phase.subscribers?, l ⊆ s.assembler.subscribers
  encoders : ∀ c ∈ s.assembler.subscribers, (s.encoders c).phase = .exited ∧
    (s.encoders c).worker.phase = .ended ∧ (s.encoders c).packets.pending = []

section Stranded
variable {s : State} {i : UInt32}

theorem next_visits {a : Assembler} {action : AssemblerAction}
    (ha : AssemblerProcess.Enabled a action) (hk : Keyed a.manager)
    (h : ∀ l ∈ a.phase.subscribers?, l ⊆ a.subscribers) :
    ∀ l ∈ (AssemblerProcess.next a action).1.phase.subscribers?,
      l ⊆ (AssemblerProcess.next a action).1.subscribers := by
  have hconfig := (AssemblerProcess.step_config (AssemblerProcess.next_step ha) hk).1
  have hsubs : (AssemblerProcess.next a action).1.subscribers = a.subscribers := by
    rw [Assembler.subscribers, hconfig]
    rfl
  rw [hsubs]
  intro l hl
  cases action with
  | takeControl nowUs =>
    obtain ⟨event, control, hpop⟩ := Queue.pop_of_pending ha.2
    simp only [AssemblerProcess.next, Assembler.takeControl, hpop] at hl
    split at hl
    · cases hl
      rw [Assembler.subscribers, (EpisodeManager.frame_onControlEvent ..).config]
      exact List.Subset.refl _
    · exact h l hl
  | controlDrained =>
    cases hl
    exact List.Subset.refl _
  | nextSubscriber =>
    simp only [AssemblerProcess.next, Assembler.nextSubscriber] at hl
    split at hl
    · next channelId rest hp =>
      cases hl
      exact List.Subset.trans (List.subset_cons_self channelId l) (h _ hp)
    · cases hl
  | dispatch nowUs now =>
    simp only [AssemblerProcess.next, Assembler.dispatch] at hl
    split at hl <;> cases hl
  | takeStored =>
    obtain ⟨event, stored, hpop⟩ := Queue.pop_of_pending ha.2
    simp only [AssemblerProcess.next, Assembler.takeStored, hpop] at hl
    exact h l hl
  | takeEvent =>
    obtain ⟨event, events, hpop⟩ := Queue.pop_of_pending ha.2
    simp only [AssemblerProcess.next, Assembler.takeEvent, hpop] at hl
    split at hl
    · cases hl
    · exact h l hl
  | eventsDrained =>
    simp only [AssemblerProcess.next, Assembler.endIteration] at hl
    split at hl <;> cases hl
  | stage result =>
    obtain ⟨command, commands, hpop⟩ := Queue.pop_of_pending ha.2
    simp only [AssemblerProcess.next, Assembler.stage, hpop] at hl
    cases command <;> exact h l hl
  | observation channelId stateKind timestampUs values => exact h l hl
  | action channelId commandKind timestampUs values => exact h l hl
  | _ => cases hl

/-- Nothing but a control event decides about an entry that is not kept and has not failed. -/
theorem step_unkept {a b : Assembler} {action : AssemblerAction} {out : Outbox}
    (hs : AssemblerProcess.Step a action b out) (hnone : a.control.pending = [])
    (h : ∃ e : PendingEpisode, a.manager.episodes[i]? = some e ∧ e.keepRequested = false ∧
      e.failedCameras = []) :
    b.control.pending = [] ∧ ∃ e : PendingEpisode, b.manager.episodes[i]? = some e ∧
      e.keepRequested = false ∧ e.failedCameras = [] := by
  obtain ⟨e, he, hkeep, hfail⟩ := h
  cases hs with
  | control nowUs phase hne hpop =>
    rw [(Queue.pop_spec hpop).1] at hnone
    cases hnone
  | samples hframe hlookup hmem =>
    obtain ⟨e', he'⟩ := mem_iff_lookup.mp ((hmem i).mpr (mem_iff_lookup.mpr ⟨e, he⟩))
    obtain ⟨e₀, he₀, hsame⟩ := hlookup i e' he'
    obtain rfl := Option.some.inj (he.symm.trans he₀)
    exact ⟨hnone, e', he', hsame.keepRequested.trans hkeep, hsame.failedCameras.trans hfail⟩
  | dispatch nowUs now hd =>
    refine ⟨hnone, e, waiting_survives hd he ?_, hkeep, hfail⟩
    simp [verdict, hkeep, hfail]
  | _ => exact ⟨hnone, e, he, hkeep, hfail⟩

theorem Stranded.assembler (h : Stranded s i) {a : AssemblerAction}
    (ha : Enabled s (.assembler a)) : Stranded (next s (.assembler a)) i := by
  have hs := AssemblerProcess.next_step (a := s.assembler) ha
  have hconfig := (AssemblerProcess.step_config hs h.keyed).1
  have hsubs : (AssemblerProcess.next s.assembler a).1.subscribers = s.assembler.subscribers := by
    rw [Assembler.subscribers, hconfig]
    rfl
  obtain ⟨hnone, hentry⟩ := step_unkept hs h.control h.entry
  constructor
  · exact h.controller
  · exact hnone
  · exact AssemblerProcess.step_keyed hs h.keyed
  · exact hentry
  · exact next_visits ha h.keyed h.visits
  · exact hsubs.symm ▸ h.encoders

/-- No step helps. -/
theorem Stranded.next (h : Stranded s i) {a : Action} (ha : Enabled s a) :
    Stranded (next s a) i := by
  cases a with
  | controller a => exact absurd h.controller (CollectLoop.enabled_phase ha)
  | assembler a => exact h.assembler ha
  | packet =>
    obtain ⟨q, hq⟩ := Option.isSome_iff_exists.mp ha
    obtain ⟨channelId, hv, hhead⟩ := Option.bind_eq_some_iff.mp hq
    obtain ⟨l, hl, hfirst⟩ := Option.bind_eq_some_iff.mp hv
    have hmem := h.visits l hl (List.mem_of_mem_head? hfirst)
    rw [State.head?, (h.encoders channelId hmem).2.2] at hhead
    cases hhead
  | storage a => exact ⟨h.controller, h.control, h.keyed, h.entry, h.visits, h.encoders⟩
  | encoder channelId a =>
    obtain ⟨hmem, henabled⟩ := ha
    obtain ⟨hphase, hworker, -⟩ := h.encoders channelId hmem
    cases a <;> simp [EncoderProcess.Enabled, hphase, hworker] at henabled

theorem Stranded.cannot_leave (h : Stranded s i) : ¬ CanLeave s := by
  rintro ⟨t, u, ht, hexit, -, -⟩
  have hstranded : Stranded t i := by
    refine Path.invariant (P := fun s => Stranded s i) h (fun _ _ ha _ h => ?_) ht
    exact h.next ha
  obtain ⟨e, he, -, -⟩ := hstranded.entry
  have hempty := hexit.episodes
  rw [Std.TreeMap.isEmpty_iff_forall_not_mem] at hempty
  exact hempty i (mem_iff_lookup.mpr ⟨e, he⟩)

end Stranded

/-- A shutdown after a kept episode of one frame, whose packets the assembler has not taken. -/
def shutdownAfterKeep : List Action :=
  collectPoll [.start] ++ onChannel "cam0" encodeFirst ++ collectPoll [.stop] ++
    collectPoll [.keep] ++ .controller .exit :: List.replicate 4 (.assembler (.takeControl 0))

theorem kept_session_can_leave :
    CanLeave (shutdownAfterKeep.foldl next TerminalOutcomes.sampleSession) :=
  assembler_can_leave LerobotEpisodeConservation.sampleConfig 0 0 (fun _ => 32)
    (path_of_follows (l := shutdownAfterKeep) (by decide +kernel)) (by decide +kernel)

def shutdownWhileRecording : List Action :=
  collectPoll [.start] ++ .controller .exit :: onChannel "cam0" (encoderPoll 2 [] ++
    [.workerControl {}, .workerControl {}, .takeEvent] ++ encoderPoll 0 []) ++
    List.replicate 2 (.assembler (.takeControl 0))

/-- The interrupted episode is neither kept nor discarded, and the assembler never ends. -/
theorem interrupted_recording_stays : ¬ ∀ config nextIndex prior queueSize s,
    Run (fun _ _ => True) (initial config nextIndex prior queueSize) s →
    s.assembler.shutdownRequested = true → s.assembler.control.pending = [] → CanLeave s := by
  intro hall
  have hleave := hall LerobotEpisodeConservation.sampleConfig 0 0 (fun _ => 32) _
    (path_of_follows (l := shutdownWhileRecording) (by decide +kernel)) (by decide +kernel)
    (by decide +kernel)
  refine Stranded.cannot_leave (i := 0) ?_ hleave
  have hentry : ∃ e ∈ (shutdownWhileRecording.foldl next
      TerminalOutcomes.sampleSession).assembler.manager.episodes[(0 : UInt32)]?,
      e.keepRequested = false ∧ e.failedCameras = [] := by decide +kernel
  constructor
  · decide +kernel
  · decide +kernel
  · decide +kernel
  · exact hentry
  · decide +kernel
  · decide +kernel

end AssemblerShutdown
