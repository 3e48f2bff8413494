import Rollio.ReconnectingSockets

/-! The connections of a reconnecting socket over its whole life: one at a time while the hook is
active, and none while it is not, unless the hook is deactivated with a socket at hand. -/
namespace SocketLifecycles
open PartialRuns ReconnectingSockets

variable {U : Type} {c : Client}

section Standing

def NoLive (s : State U) : Prop := ∀ id, ¬ s.Live id

def NoTimer (s : State U) : Prop := ∀ t, s.armed t = none

/-- The hook has no connection and waits for none. -/
structure Unlinked (s : State U) : Prop where
  mounted : s.mountedRef = true
  unmounted : s.unmounted = false
  wsRef : s.wsRef = none
  connected : s.connected = false
  noLive : NoLive s

/-- The hook refers to the one socket there is, which has the options of the effect in force. -/
structure Linked (s : State U) (o : Options U) (id : ℕ) (phase : Phase) : Prop where
  mounted : s.mountedRef = true
  unmounted : s.unmounted = false
  effect : s.effect = some o
  active : o.active = true
  wsRef : s.wsRef = some id
  socket : s.sockets id = some { options := o, phase }
  live : phase ≠ .closed
  only : ∀ j, s.Live j → j = id
  noTimer : NoTimer s
  opened : phase = .open → s.connected = true
  connecting : phase = .connecting → s.connected = false

/-- The hook waits for the one timer there is, which reconnects with the options in force. -/
structure Waiting (c : Client) (s : State U) (o : Options U) (t : ℕ) (timer : Timer U) : Prop where
  unlinked : Unlinked s
  effect : s.effect = some o
  active : o.active = true
  armed : s.armed t = some timer
  options : timer.options = o
  only : ∀ t', s.armed t' ≠ none → t' = t
  reference : s.reconnectTimer = some t
  /-- The delay is that of the attempt before. -/
  delay : 0 < s.reconnectAttempt ∧
    timer.delayMs = c.reconnectDelayMs (s.reconnectAttempt - 1)

/-- An unmounted hook: a socket may still be closing, and nothing answers to it. -/
structure Gone (s : State U) : Prop where
  mounted : s.mountedRef = false
  unmounted : s.unmounted = true
  effect : s.effect = none
  wsRef : s.wsRef = none
  noTimer : NoTimer s
  closing : ∀ id, s.Live id → s.phaseOf id = .closing
  only : ∀ i j, s.Live i → s.Live j → i = j

inductive Standing (c : Client) (s : State U) : Prop where
  | unstarted (hs : Unlinked s) (heffect : s.effect = none) (htimer : NoTimer s)
  | inactive (o : Options U) (hs : Unlinked s) (heffect : s.effect = some o)
      (hinactive : o.active = false) (htimer : NoTimer s)
  | linked (o : Options U) (id : ℕ) (phase : Phase) (hs : Linked s o id phase)
  | waiting (o : Options U) (t : ℕ) (timer : Timer U) (hs : Waiting c s o t timer)
  | gone (hs : Gone s)

/-- The effect runs again only when every socket is closed. -/
def Settled (s : State U) : Event U → Prop
  | .effect _ => NoLive s
  | _ => True

theorem start_standing : Standing c (start : State U) :=
  .unstarted
    { mounted := rfl
      unmounted := rfl
      wsRef := rfl
      connected := rfl
      noLive := fun _ h => h rfl }
    rfl fun _ => rfl

end Standing

section Frames

structure SameLinks (s t : State U) : Prop where
  effect : t.effect = s.effect
  unmounted : t.unmounted = s.unmounted
  mountedRef : t.mountedRef = s.mountedRef
  wsRef : t.wsRef = s.wsRef
  reconnectAttempt : t.reconnectAttempt = s.reconnectAttempt
  reconnectTimer : t.reconnectTimer = s.reconnectTimer
  connected : t.connected = s.connected
  opened : t.opened = s.opened
  sockets : t.sockets = s.sockets
  timers : t.timers = s.timers
  armed : t.armed = s.armed

theorem SameLinks.refl (s : State U) : SameLinks s s :=
  ⟨rfl, rfl, rfl, rfl, rfl, rfl, rfl, rfl, rfl, rfl, rfl⟩

theorem send_sameLinks (s : State U) (m : String) : SameLinks s (s.send c m) := by
  simp only [State.send]
  split
  · exact ⟨rfl, rfl, rfl, rfl, rfl, rfl, rfl, rfl, rfl, rfl, rfl⟩
  · cases c <;> exact ⟨rfl, rfl, rfl, rfl, rfl, rfl, rfl, rfl, rfl, rfl, rfl⟩

theorem flush_sameLinks (s : State U) : SameLinks s s.flushPendingOutbound := by
  simp only [State.flushPendingOutbound]
  split <;> exact ⟨rfl, rfl, rfl, rfl, rfl, rfl, rfl, rfl, rfl, rfl, rfl⟩

theorem phaseOf_congr {s t : State U} (h : t.sockets = s.sockets) (id : ℕ) :
    t.phaseOf id = s.phaseOf id := by
  simp only [State.phaseOf, h]

theorem live_congr {s t : State U} (h : t.sockets = s.sockets) {id : ℕ} : t.Live id ↔ s.Live id := by
  rw [State.Live, State.Live, phaseOf_congr h]

theorem SameLinks.unlinked {s t : State U} (h : SameLinks s t) (hs : Unlinked s) : Unlinked t where
  mounted := h.mountedRef.trans hs.mounted
  unmounted := h.unmounted.trans hs.unmounted
  wsRef := h.wsRef.trans hs.wsRef
  connected := h.connected.trans hs.connected
  noLive := fun id hid => hs.noLive id ((live_congr h.sockets).mp hid)

theorem SameLinks.linked {s t : State U} {o : Options U} {id : ℕ} {phase : Phase}
    (h : SameLinks s t) (hs : Linked s o id phase) : Linked t o id phase where
  mounted := h.mountedRef.trans hs.mounted
  unmounted := h.unmounted.trans hs.unmounted
  effect := h.effect.trans hs.effect
  active := hs.active
  wsRef := h.wsRef.trans hs.wsRef
  socket := by rw [h.sockets]; exact hs.socket
  live := hs.live
  only := fun j hj => hs.only j ((live_congr h.sockets).mp hj)
  noTimer := by intro t; rw [h.armed]; exact hs.noTimer t
  opened := fun hp => h.connected.trans (hs.opened hp)
  connecting := fun hp => h.connected.trans (hs.connecting hp)

theorem SameLinks.gone {s t : State U} (h : SameLinks s t) (hs : Gone s) : Gone t where
  mounted := h.mountedRef.trans hs.mounted
  unmounted := h.unmounted.trans hs.unmounted
  effect := h.effect.trans hs.effect
  wsRef := h.wsRef.trans hs.wsRef
  noTimer := by intro n; rw [h.armed]; exact hs.noTimer n
  closing := by
    intro id hid
    rw [phaseOf_congr h.sockets]
    exact hs.closing id ((live_congr h.sockets).mp hid)
  only := fun i j hi hj =>
    hs.only i j ((live_congr h.sockets).mp hi) ((live_congr h.sockets).mp hj)

theorem SameLinks.standing {s t : State U} (h : SameLinks s t) (hs : Standing c s) :
    Standing c t := by
  cases hs with
  | unstarted hs heffect htimer =>
    exact .unstarted (h.unlinked hs) (h.effect.trans heffect) (by intro n; rw [h.armed]; exact htimer n)
  | inactive o hs heffect hinactive htimer =>
    exact .inactive o (h.unlinked hs) (h.effect.trans heffect) hinactive
      (by intro n; rw [h.armed]; exact htimer n)
  | linked o id phase hs => exact .linked o id phase (h.linked hs)
  | waiting o n timer hs =>
    exact .waiting o n timer
      { unlinked := h.unlinked hs.unlinked
        effect := h.effect.trans hs.effect
        active := hs.active
        armed := by rw [h.armed]; exact hs.armed
        options := hs.options
        only := by intro n' hn'; rw [h.armed] at hn'; exact hs.only n' hn'
        reference := h.reconnectTimer.trans hs.reference
        delay := by rw [h.reconnectAttempt]; exact hs.delay }
  | gone hs => exact .gone (h.gone hs)

end Frames

section Pieces

theorem setPhase_sockets_self {s : State U} {id : ℕ} {socket : Socket U}
    (h : s.sockets id = some socket) (phase : Phase) :
    (s.setPhase id phase).sockets id = some { socket with phase } := by
  simp [State.setPhase, h]

theorem live_setPhase_of_ne {s : State U} {id j : ℕ} {phase : Phase} (h : j ≠ id) :
    (s.setPhase id phase).Live j ↔ s.Live j := by
  rw [State.Live, State.Live, phaseOf_setPhase, if_neg fun hj => h hj.1]

theorem connect_eq {s : State U} {o : Options U} (hm : s.mountedRef = true) (ha : o.active = true) :
    s.connect o =
      { s with
        sockets := Function.update s.sockets s.opened (some { options := o, phase := .connecting })
        opened := s.opened + 1
        wsRef := some s.opened } := by
  simp [State.connect, hm, ha]

theorem linked_connect {s : State U} {o : Options U} (hs : Unlinked s) (heffect : s.effect = some o)
    (ha : o.active = true) (htimer : NoTimer s) : Linked (s.connect o) o s.opened .connecting := by
  rw [connect_eq hs.mounted ha]
  exact {
    mounted := hs.mounted
    unmounted := hs.unmounted
    effect := heffect
    active := ha
    wsRef := rfl
    socket := Function.update_self ..
    live := by decide
    only := by
      intro j hj
      by_contra hne
      refine hs.noLive j ?_
      simpa [State.Live, State.phaseOf, hne] using hj
    noTimer := htimer
    opened := by intro h; cases h
    connecting := fun _ => hs.connected }

theorem run_standing {s : State U} {o : Options U} (hunmounted : s.unmounted = false)
    (hws : s.wsRef = none) (hconnected : s.connected = false) (hlive : NoLive s) (htimer : NoTimer s) :
    Standing c (s.run c o) := by
  have hunlinked : ∀ attempt, Unlinked
      { s with mountedRef := true, effect := some o, reconnectAttempt := attempt } :=
    fun _ => ⟨rfl, hunmounted, hws, hconnected, hlive⟩
  simp only [State.run]
  split
  · next ha => exact .linked o _ _ (linked_connect (hunlinked _) rfl ha htimer)
  · next ha =>
    exact .inactive o (hunlinked s.reconnectAttempt) rfl (by simpa using ha) htimer

theorem closeSocket_links (s : State U) (id : ℕ) :
    (s.closeSocket id).effect = s.effect ∧ (s.closeSocket id).unmounted = s.unmounted ∧
      (s.closeSocket id).connected = s.connected ∧ (s.closeSocket id).armed = s.armed := by
  simp only [State.closeSocket]
  split <;> exact ⟨rfl, rfl, rfl, rfl⟩

theorem cleanUp_links (s : State U) :
    s.cleanUp.unmounted = s.unmounted ∧ s.cleanUp.connected = s.connected := by
  simp only [State.cleanUp]
  split <;> split <;> simp [closeSocket_links]

theorem cleanUp_opened (s : State U) : s.cleanUp.opened = s.opened := by
  have hclose : ∀ (t : State U) (id : ℕ), (t.closeSocket id).opened = t.opened := by
    intro t id
    simp only [State.closeSocket]
    split <;> rfl
  simp only [State.cleanUp]
  split <;> split <;> simp [hclose]

theorem closeSocket_options (s : State U) (id j : ℕ) :
    ((s.closeSocket id).sockets j).map Socket.options = (s.sockets j).map Socket.options := by
  have hset : ∀ phase, ((s.setPhase id phase).sockets j).map Socket.options
      = (s.sockets j).map Socket.options := by
    intro phase
    by_cases he : j = id
    · subst he
      cases hs : s.sockets j <;> simp [State.setPhase, hs]
    · simp [State.setPhase, he]
  simp only [State.closeSocket]
  split
  · exact hset _
  · exact hset _
  · rfl
  · rfl

theorem cleanUp_options (s : State U) (j : ℕ) :
    (s.cleanUp.sockets j).map Socket.options = (s.sockets j).map Socket.options := by
  simp only [State.cleanUp]
  split <;> split <;> simp [closeSocket_options]

theorem cleanUp_armed (s : State U) (t : ℕ) :
    s.cleanUp.armed t = match s.reconnectTimer with
      | none => s.armed t
      | some t' => Function.update s.armed t' none t := by
  simp only [State.cleanUp]
  split <;> split <;> simp_all [closeSocket_links]

theorem cleanUp_armed_none {s : State U} {t : ℕ}
    (h : s.armed t ≠ none → s.reconnectTimer = some t) : s.cleanUp.armed t = none := by
  rw [cleanUp_armed]
  cases hr : s.reconnectTimer with
  | none =>
    by_contra hne
    have := h hne
    rw [hr] at this
    cases this
  | some t' =>
    by_cases he : t = t'
    · rw [he]
      exact Function.update_self ..
    · simp only [Function.update_of_ne he]
      by_contra hne
      have := h hne
      rw [hr] at this
      cases this
      exact he rfl

theorem cleanUp_sockets {s : State U} (h : s.wsRef = none) : s.cleanUp.sockets = s.sockets := by
  simp only [State.cleanUp]
  split <;> split <;> simp_all

theorem isSome_of_phase {s : State U} {id : ℕ} (h : s.phaseOf id ≠ .closed) :
    (s.sockets id).isSome := by
  cases hs : s.sockets id with
  | none => exact absurd (by simp [State.phaseOf, hs]) h
  | some socket => rfl

theorem closeSocket_phase (s : State U) (id j : ℕ) :
    (s.closeSocket id).phaseOf j =
      if j = id ∧ (s.phaseOf id = .connecting ∨ s.phaseOf id = .open) then .closing
      else s.phaseOf j := by
  simp only [State.closeSocket]
  split
  · next h =>
    have hsome : (s.sockets id).isSome := isSome_of_phase (by simp [h])
    simp [phaseOf_setPhase, h, hsome]
  · next h =>
    have hsome : (s.sockets id).isSome := isSome_of_phase (by simp [h])
    simp [phaseOf_setPhase, h, hsome]
  · next h => simp [h]
  · next h => simp [h]

theorem cleanUp_phase {s : State U} {id : ℕ} (h : s.wsRef = some id) (j : ℕ) :
    s.cleanUp.phaseOf j =
      if j = id ∧ (s.phaseOf id = .connecting ∨ s.phaseOf id = .open) then .closing
      else s.phaseOf j := by
  have hclosed : ∀ t u : State U, u.sockets = (t.closeSocket id).sockets → t.sockets = s.sockets →
      u.phaseOf j =
        if j = id ∧ (s.phaseOf id = .connecting ∨ s.phaseOf id = .open) then .closing
        else s.phaseOf j := by
    intro t u hu ht
    rw [phaseOf_congr hu, closeSocket_phase]
    simp only [phaseOf_congr ht]
  cases hr : s.reconnectTimer with
  | none =>
    simp only [State.cleanUp, hr, h]
    exact hclosed _ _ rfl rfl
  | some t =>
    simp only [State.cleanUp, hr, h]
    exact hclosed _ _ rfl rfl

end Pieces

section Steps

theorem live_of_phase {s : State U} {id : ℕ} {phase : Phase} (h : s.phaseOf id = phase)
    (hphase : phase ≠ .closed) : s.Live id := by
  rw [State.Live, h]
  exact hphase

theorem Linked.phase {s : State U} {o : Options U} {id : ℕ} {phase : Phase}
    (h : Linked s o id phase) : s.phaseOf id = phase := by
  simp [State.phaseOf, h.socket]

theorem effect_standing {s : State U} {o : Options U} (hs : Unlinked s)
    (harmed : ∀ t, s.armed t ≠ none → s.reconnectTimer = some t) :
    Standing c (s.cleanUp.run c o) := by
  obtain ⟨hunmounted, hconnected⟩ := cleanUp_links s
  refine run_standing (hunmounted.trans hs.unmounted) (cleanUp_frame s).2.2.1
    (hconnected.trans hs.connected) ?_ fun t => cleanUp_armed_none (harmed t)
  intro id hid
  exact hs.noLive id ((live_congr (cleanUp_sockets hs.wsRef)).mp hid)

theorem Standing.effect {s : State U} {o : Options U} (hs : Standing c s)
    (he : Enabled s (.effect o)) (hok : Settled s (.effect o)) :
    Standing c (next c s (.effect o)) := by
  cases hs with
  | unstarted hs heffect htimer =>
    simp only [next, heffect]
    exact run_standing hs.unmounted hs.wsRef hs.connected hs.noLive htimer
  | inactive o' hs heffect _ htimer =>
    simp only [next, heffect]
    exact effect_standing hs fun t ht => absurd (htimer t) ht
  | linked o' id phase hs =>
    exact absurd (live_of_phase hs.phase hs.live) (hok id)
  | waiting o' t timer hs =>
    simp only [next, hs.effect]
    refine effect_standing hs.unlinked fun t' ht' => ?_
    rw [hs.only t' ht']
    exact hs.reference
  | gone hs =>
    have he : s.unmounted = false := he
    rw [hs.unmounted] at he
    cases he

theorem gone_of_cleanUp {s : State U} (harmed : ∀ t, s.armed t ≠ none → s.reconnectTimer = some t)
    (hclosing : ∀ id, s.cleanUp.Live id → s.cleanUp.phaseOf id = .closing)
    (honly : ∀ i j, s.cleanUp.Live i → s.cleanUp.Live j → i = j) :
    Gone (next c s .unmount) where
  mounted := (cleanUp_frame s).2.2.2
  unmounted := rfl
  effect := rfl
  wsRef := (cleanUp_frame s).2.2.1
  noTimer := fun t => cleanUp_armed_none (harmed t)
  closing := hclosing
  only := honly

theorem NoLive.unmount {s : State U} (hlive : NoLive s) (hws : s.wsRef = none)
    (harmed : ∀ t, s.armed t ≠ none → s.reconnectTimer = some t) : Gone (next c s .unmount) := by
  have hcleared : ∀ id, ¬ s.cleanUp.Live id :=
    fun id hid => hlive id ((live_congr (cleanUp_sockets hws)).mp hid)
  exact gone_of_cleanUp harmed (fun id hid => absurd hid (hcleared id))
    fun i _ hi _ => absurd hi (hcleared i)

theorem Linked.cleanUp_closing {s : State U} {o : Options U} {id : ℕ} {phase : Phase}
    (hs : Linked s o id phase) {j : ℕ} (hj : s.cleanUp.Live j) :
    j = id ∧ s.cleanUp.phaseOf j = .closing := by
  have hphase := cleanUp_phase hs.wsRef j
  by_cases hj' : j = id ∧ (s.phaseOf id = .connecting ∨ s.phaseOf id = .open)
  · exact ⟨hj'.1, by rw [hphase, if_pos hj']⟩
  · rw [if_neg hj'] at hphase
    have hid : j = id := hs.only j (by rw [State.Live, ← hphase]; exact hj)
    subst hid
    have hcases : phase ≠ .connecting ∧ phase ≠ .open := by
      rw [hs.phase] at hj'
      tauto
    refine ⟨rfl, ?_⟩
    rw [hphase, hs.phase]
    cases hp : phase with
    | connecting => exact absurd hp hcases.1
    | «open» => exact absurd hp hcases.2
    | closing => rfl
    | closed => exact absurd hp hs.live

theorem Standing.unmount {s : State U} (hs : Standing c s) (he : Enabled s .unmount) :
    Standing c (next c s .unmount) := by
  cases hs with
  | unstarted hs heffect _ =>
    have he : s.effect.isSome := he
    rw [heffect] at he
    cases he
  | inactive o hs _ _ htimer =>
    exact .gone (hs.noLive.unmount hs.wsRef fun t ht => absurd (htimer t) ht)
  | linked o id phase hs =>
    refine .gone (gone_of_cleanUp (fun t ht => absurd (hs.noTimer t) ht)
      (fun j hj => (hs.cleanUp_closing hj).2) fun i j hi hj => ?_)
    exact (hs.cleanUp_closing hi).1.trans (hs.cleanUp_closing hj).1.symm
  | waiting o t timer hs =>
    refine .gone (hs.unlinked.noLive.unmount hs.unlinked.wsRef fun t' ht' => ?_)
    rw [hs.only t' ht']
    exact hs.reference
  | gone hs =>
    have he : s.effect.isSome := he
    rw [hs.effect] at he
    cases he

theorem Linked.setPhase {s : State U} {o : Options U} {id : ℕ} {phase : Phase}
    (hs : Linked s o id phase) {phase' : Phase} (hlive : phase' ≠ .closed) {connected : Bool}
    (hopened : phase' = .open → connected = true)
    (hconnecting : phase' = .connecting → connected = false) (attempt : ℕ) :
    Linked { s.setPhase id phase' with reconnectAttempt := attempt, connected := connected } o id
      phase' where
  mounted := hs.mounted
  unmounted := hs.unmounted
  effect := hs.effect
  active := hs.active
  wsRef := hs.wsRef
  socket := setPhase_sockets_self hs.socket phase'
  live := hlive
  only := by
    intro j hj
    by_contra hne
    exact hne (hs.only j ((live_setPhase_of_ne hne).mp hj))
  noTimer := hs.noTimer
  opened := hopened
  connecting := hconnecting

/-- Only the one socket and the sockets of an unmounted hook have events. -/
theorem Standing.of_live {s : State U} (hs : Standing c s) {id : ℕ} (h : s.Live id) :
    (∃ o phase, Linked s o id phase) ∨ Gone s := by
  cases hs with
  | unstarted hs _ _ => exact absurd h (hs.noLive id)
  | inactive o hs _ _ _ => exact absurd h (hs.noLive id)
  | linked o j phase hs =>
    have := hs.only id h
    subst this
    exact .inl ⟨o, phase, hs⟩
  | waiting o t timer hs => exact absurd h (hs.unlinked.noLive id)
  | gone hs => exact .inr hs

theorem Standing.opened {s : State U} {id : ℕ} (hs : Standing c s)
    (he : Enabled s (.opened id)) : Standing c (next c s (.opened id)) := by
  have hphase : s.phaseOf id = .connecting := he
  rcases hs.of_live (live_of_phase hphase (by decide)) with ⟨o, phase, hs⟩ | hs
  · have hmounted : (s.setPhase id .open).mountedRef = true := hs.mounted
    have hnext : next c s (.opened id) = State.flushPendingOutbound
        { s.setPhase id .open with reconnectAttempt := 0, connected := true } :=
      if_neg (by simp [hmounted])
    have hlinked : Linked
        { s.setPhase id .open with reconnectAttempt := 0, connected := true } o id .open :=
      hs.setPhase (by decide) (fun _ => rfl) (by intro h; cases h) 0
    rw [hnext]
    exact (flush_sameLinks _).standing (.linked o id .open hlinked)
  · have := hs.closing id (live_of_phase hphase (by decide))
    rw [hphase] at this
    cases this

theorem Standing.closing {s : State U} {id : ℕ} (hs : Standing c s)
    (he : Enabled s (.closing id)) : Standing c (next c s (.closing id)) := by
  have hlive : s.Live id := by
    rcases he with h | h <;> exact live_of_phase h (by decide)
  rcases hs.of_live hlive with ⟨o, phase, hs⟩ | hs
  · refine .linked o id .closing ?_
    exact hs.setPhase (by decide) (by intro h; cases h) (by intro h; cases h) s.reconnectAttempt
  · have hclosing := hs.closing id hlive
    rcases he with h | h <;> rw [hclosing] at h <;> cases h

theorem Gone.closed {s : State U} {id : ℕ} (hs : Gone s) (hlive : s.Live id) :
    Gone (next c s (.closed id)) ∧ (next c s (.closed id)).opened = s.opened := by
  have hmounted : (s.setPhase id .closed).mountedRef = false := hs.mounted
  have hleft : ∀ j, (s.setPhase id .closed).Live j → s.Live j := by
    intro j hj
    by_cases hid : j = id
    · rw [hid]
      exact hlive
    · exact (live_setPhase_of_ne hid).mp hj
  simp only [next]
  split
  · exact ⟨hs, rfl⟩
  · simp only [State.onClose, hmounted, Bool.not_false, if_true]
    refine ⟨?_, rfl⟩
    exact {
      mounted := hs.mounted
      unmounted := hs.unmounted
      effect := hs.effect
      wsRef := hs.wsRef
      noTimer := hs.noTimer
      closing := by
        intro j hj
        by_cases hid : j = id
        · subst hid
          rw [State.Live, phaseOf_setPhase, if_pos ⟨rfl, isSome_of_phase hlive⟩] at hj
          exact absurd rfl hj
        · rw [phaseOf_setPhase, if_neg fun h => hid h.1]
          exact hs.closing j (hleft j hj)
      only := fun i j hi hj => hs.only i j (hleft i hi) (hleft j hj) }

theorem Standing.closed {s : State U} {id : ℕ} (hs : Standing c s)
    (he : Enabled s (.closed id)) : Standing c (next c s (.closed id)) := by
  have hlive : s.Live id := he
  rcases hs.of_live hlive with ⟨o, phase, hs⟩ | hs
  · refine .waiting o s.timers ⟨o, c.reconnectDelayMs s.reconnectAttempt⟩ ?_
    have hclosed : ∀ j, (s.setPhase id .closed).phaseOf j = .closed := by
      intro j
      rw [phaseOf_setPhase, hs.socket]
      split
      · rfl
      · next hne =>
        by_contra hj
        exact hne ⟨hs.only j hj, rfl⟩
    have hnext : next c s (.closed id) =
        { s.setPhase id .closed with
          connected := false
          wsRef := none
          reconnectAttempt := s.reconnectAttempt + 1
          armed := Function.update s.armed s.timers
            (some ⟨o, c.reconnectDelayMs s.reconnectAttempt⟩)
          timers := s.timers + 1
          reconnectTimer := some s.timers } := by
      have hmounted : (s.setPhase id .closed).mountedRef = true := hs.mounted
      simp only [next, hs.socket, State.onClose, State.scheduleReconnect, hmounted, hs.active,
        Bool.not_true, Bool.false_eq_true, if_false]
      rfl
    rw [hnext]
    exact {
      unlinked :=
        { mounted := hs.mounted
          unmounted := hs.unmounted
          wsRef := rfl
          connected := rfl
          noLive := fun j hj => hj (hclosed j) }
      effect := hs.effect
      active := hs.active
      armed := Function.update_self ..
      options := rfl
      only := by
        intro t ht
        by_contra hne
        refine ht ?_
        simp only [Function.update_of_ne hne]
        exact hs.noTimer t
      reference := rfl
      delay := ⟨Nat.succ_pos _, rfl⟩ }
  · exact .gone (hs.closed hlive).1

theorem Standing.fire {s : State U} {t : ℕ} (hs : Standing c s) (he : Enabled s (.fire t)) :
    Standing c (next c s (.fire t)) := by
  have hsome : (s.armed t).isSome := he
  have hno : ∀ {u : State U}, NoTimer u → (u.armed t).isSome → False := by
    intro u hu h
    rw [hu t] at h
    cases h
  cases hs with
  | unstarted hs _ htimer => exact (hno htimer hsome).elim
  | inactive o hs _ _ htimer => exact (hno htimer hsome).elim
  | linked o id phase hs => exact (hno hs.noTimer hsome).elim
  | gone hs => exact (hno hs.noTimer hsome).elim
  | waiting o t' timer hs =>
    have ht : t = t' := hs.only t (Option.isSome_iff_ne_none.mp hsome)
    subst ht
    simp only [next, hs.armed, hs.options]
    refine .linked o s.opened .connecting (linked_connect ?_ hs.effect hs.active ?_)
    · exact ⟨hs.unlinked.mounted, hs.unlinked.unmounted, hs.unlinked.wsRef, hs.unlinked.connected,
        hs.unlinked.noLive⟩
    · intro t'
      by_cases hne : t' = t
      · simp [hne]
      · simp only [Function.update_of_ne hne]
        by_contra h
        exact hne (hs.only t' h)

theorem Standing.step {s : State U} {e : Event U} (hs : Standing c s)
    (he : Enabled s e) (hok : Settled s e) : Standing c (next c s e) := by
  cases e with
  | effect o => exact hs.effect he hok
  | unmount => exact hs.unmount he
  | opened id => exact hs.opened he
  | closing id => exact hs.closing he
  | closed id => exact hs.closed he
  | fire t => exact hs.fire he
  | send m => exact (send_sameLinks s m).standing hs

end Steps

section Lives

theorem standing_of_follows {events : List (Event U)}
    (h : Follows Enabled (next c) Settled start events) :
    Standing c (events.foldl (next c) start) :=
  (path_of_follows h).invariant start_standing fun _ _ he hok hs => hs.step he hok

/-- What the interface can rely on. -/
structure OneConnection (c : Client) (s : State U) : Prop where
  sockets : ∀ i j, s.Live i → s.Live j → i = j
  timers : ∀ t t', s.armed t ≠ none → s.armed t' ≠ none → t = t'
  /-- A connection is not waited for while there is one. -/
  apart : ∀ i t, s.Live i → s.armed t = none
  /-- An active hook is connected with the options in force, or will try again after its delay. -/
  active : ∀ o, s.effect = some o → o.active = true →
    (∃ id phase, s.wsRef = some id ∧ s.Live id ∧ s.sockets id = some { options := o, phase }) ∨
    ∃ t k, s.armed t = some { options := o, delayMs := c.reconnectDelayMs k } ∧
      s.reconnectAttempt = k + 1
  inactive : ∀ o, s.effect = some o → o.active = false → NoLive s ∧ NoTimer s
  unmounted : s.unmounted = true → NoTimer s ∧ ∀ id, s.Live id → s.phaseOf id = .closing
  /-- What is shown as connected is open, or on its way down. -/
  connected : s.unmounted = false → s.connected = true →
    ∃ id, s.phaseOf id = .open ∨ s.phaseOf id = .closing

theorem Unlinked.oneConnection {s : State U} (hs : Unlinked s) (htimer : NoTimer s)
    (hactive : ∀ o, s.effect = some o → o.active = false) : OneConnection c s where
  sockets := fun i _ hi _ => absurd hi (hs.noLive i)
  timers := fun t _ ht _ => absurd (htimer t) ht
  apart := fun _ t _ => htimer t
  active := by
    intro o ho ha
    rw [hactive o ho] at ha
    cases ha
  inactive := fun _ _ _ => ⟨hs.noLive, htimer⟩
  unmounted := by
    intro hu
    rw [hs.unmounted] at hu
    cases hu
  connected := by
    intro _ hc
    rw [hs.connected] at hc
    cases hc

theorem Linked.oneConnection {s : State U} {o : Options U} {id : ℕ} {phase : Phase}
    (hs : Linked s o id phase) : OneConnection c s where
  sockets := fun i j hi hj => (hs.only i hi).trans (hs.only j hj).symm
  timers := fun t _ ht _ => absurd (hs.noTimer t) ht
  apart := fun _ t _ => hs.noTimer t
  active := by
    intro o' ho' _
    rw [hs.effect] at ho'
    cases ho'
    exact .inl ⟨id, phase, hs.wsRef, live_of_phase hs.phase hs.live, hs.socket⟩
  inactive := by
    intro o' ho' hi
    rw [hs.effect] at ho'
    cases ho'
    rw [hs.active] at hi
    cases hi
  unmounted := by
    intro hu
    rw [hs.unmounted] at hu
    cases hu
  connected := by
    intro _ hc
    refine ⟨id, ?_⟩
    rw [hs.phase]
    cases hp : phase with
    | connecting =>
      rw [hs.connecting hp] at hc
      cases hc
    | «open» => exact .inl rfl
    | closing => exact .inr rfl
    | closed => exact absurd hp hs.live

theorem Waiting.oneConnection {s : State U} {o : Options U} {t : ℕ} {timer : Timer U}
    (hs : Waiting c s o t timer) : OneConnection c s where
  sockets := fun i _ hi _ => absurd hi (hs.unlinked.noLive i)
  timers := fun n n' hn hn' => (hs.only n hn).trans (hs.only n' hn').symm
  apart := fun i _ hi => absurd hi (hs.unlinked.noLive i)
  active := by
    intro o' ho' _
    rw [hs.effect] at ho'
    cases ho'
    refine .inr ⟨t, s.reconnectAttempt - 1, ?_, (Nat.succ_pred_eq_of_pos hs.delay.1).symm⟩
    rw [hs.armed, ← hs.options, ← hs.delay.2]
  inactive := by
    intro o' ho' hi
    rw [hs.effect] at ho'
    cases ho'
    rw [hs.active] at hi
    cases hi
  unmounted := by
    intro hu
    rw [hs.unlinked.unmounted] at hu
    cases hu
  connected := by
    intro _ hc
    rw [hs.unlinked.connected] at hc
    cases hc

theorem Gone.oneConnection {s : State U} (hs : Gone s) : OneConnection c s where
  sockets := hs.only
  timers := fun t _ ht _ => absurd (hs.noTimer t) ht
  apart := fun _ t _ => hs.noTimer t
  active := by
    intro o ho
    rw [hs.effect] at ho
    cases ho
  inactive := by
    intro o ho
    rw [hs.effect] at ho
    cases ho
  unmounted := fun _ => ⟨hs.noTimer, hs.closing⟩
  connected := by
    intro hu
    rw [hs.unmounted] at hu
    cases hu

/-- As long as the effect runs again only when every socket is closed: an active hook has one
connection, made with the options in force, or the one timer of its next attempt; an inactive or
unmounted hook has neither, apart from the socket it was unmounted with. -/
theorem one_connection {events : List (Event U)}
    (h : Follows Enabled (next c) Settled start events) :
    OneConnection c (events.foldl (next c) start) := by
  cases standing_of_follows (c := c) h with
  | unstarted hs heffect htimer =>
    refine hs.oneConnection htimer fun o ho => ?_
    rw [heffect] at ho
    cases ho
  | inactive o hs heffect hinactive htimer =>
    refine hs.oneConnection htimer fun o' ho' => ?_
    rw [heffect] at ho'
    cases ho'
    exact hinactive
  | linked o id phase hs => exact hs.oneConnection
  | waiting o t timer hs => exact hs.oneConnection
  | gone hs => exact hs.oneConnection

/-- The effect does not run again. -/
def Undisturbed (_ : State U) : Event U → Prop
  | .effect _ => False
  | _ => True

/-- A hook that is inactive or unmounted, and has no connection to lose. -/
inductive Resting (s : State U) : Prop where
  | inactive (o : Options U) (hs : Unlinked s) (heffect : s.effect = some o)
      (hinactive : o.active = false) (htimer : NoTimer s)
  | gone (hs : Gone s)

theorem Resting.standing {s : State U} (h : Resting s) : Standing c s := by
  cases h with
  | inactive o hs heffect hinactive htimer => exact .inactive o hs heffect hinactive htimer
  | gone hs => exact .gone hs

theorem Resting.noTimer {s : State U} (h : Resting s) : NoTimer s := by
  cases h with
  | inactive o hs heffect hinactive htimer => exact htimer
  | gone hs => exact hs.noTimer

/-- While the effect does not run again, a hook at rest opens nothing. -/
theorem Resting.step {s : State U} {e : Event U} (h : Resting s) (he : Enabled s e)
    (hok : Undisturbed s e) :
    Resting (next c s e) ∧ (next c s e).opened = s.opened := by
  have hlive : ∀ id, s.Live id → Gone s ∧ s.phaseOf id = .closing := by
    intro id hid
    cases h with
    | inactive o hs _ _ _ => exact absurd hid (hs.noLive id)
    | gone hs => exact ⟨hs, hs.closing id hid⟩
  cases e with
  | effect o => exact hok.elim
  | unmount =>
    refine ⟨.gone ?_, cleanUp_opened s⟩
    cases h with
    | inactive o hs _ _ htimer =>
      exact NoLive.unmount hs.noLive hs.wsRef fun t ht => absurd (htimer t) ht
    | gone hs =>
      have he : s.effect.isSome := he
      rw [hs.effect] at he
      cases he
  | opened id =>
    have hphase : s.phaseOf id = .connecting := he
    have hclosing := (hlive id (live_of_phase hphase (by decide))).2
    rw [hphase] at hclosing
    cases hclosing
  | closing id =>
    have hid : s.Live id := by
      rcases he with h | h <;> exact live_of_phase h (by decide)
    have hclosing := (hlive id hid).2
    rcases he with h | h <;> rw [hclosing] at h <;> cases h
  | closed id =>
    obtain ⟨hgone, hopened⟩ := (hlive id he).1.closed (c := c) he
    exact ⟨.gone hgone, hopened⟩
  | fire t =>
    have hsome : (s.armed t).isSome := he
    rw [h.noTimer t] at hsome
    cases hsome
  | send m =>
    have hsame := send_sameLinks (c := c) s m
    refine ⟨?_, hsame.opened⟩
    cases h with
    | inactive o hs heffect hinactive htimer =>
      exact .inactive o (hsame.unlinked hs) (hsame.effect.trans heffect) hinactive
        fun t => (congrFun hsame.armed t).trans (htimer t)
    | gone hs => exact .gone (hsame.gone hs)

theorem deactivate_eq {s : State U} {o o' : Options U} (heffect : s.effect = some o)
    (hinactive : o'.active = false) :
    next c s (.effect o') = { s.cleanUp with mountedRef := true, effect := some o' } := by
  simp [next, heffect, State.run, hinactive]

theorem deactivate_resting {s : State U} {o o' : Options U} (hs : Standing c s)
    (heffect : s.effect = some o) (hinactive : o'.active = false) (hlive : NoLive s) :
    Resting (next c s (.effect o')) := by
  have hrest (hu : Unlinked s) (harmed : ∀ n, s.armed n ≠ none → s.reconnectTimer = some n) :
      Resting (next c s (.effect o')) := by
    rw [deactivate_eq heffect hinactive]
    obtain ⟨hunmounted, hconnected⟩ := cleanUp_links s
    refine .inactive o' ⟨rfl, hunmounted.trans hu.unmounted, (cleanUp_frame s).2.2.1,
      hconnected.trans hu.connected, ?_⟩ rfl hinactive fun n => cleanUp_armed_none (harmed n)
    intro id hid
    exact hu.noLive id ((live_congr (cleanUp_sockets hu.wsRef)).mp hid)
  cases hs with
  | unstarted hs hnone _ =>
    rw [heffect] at hnone
    cases hnone
  | inactive o₁ hs _ _ htimer => exact hrest hs fun n hn => absurd (htimer n) hn
  | linked o₁ id phase hs => exact absurd (live_of_phase hs.phase hs.live) (hlive id)
  | waiting o₁ t timer hs =>
    refine hrest hs.unlinked fun n hn => ?_
    rw [hs.only n hn]
    exact hs.reference
  | gone hs =>
    have hnone := hs.effect
    rw [heffect] at hnone
    cases hnone

theorem fire_opened {s : State U} {t : ℕ} {timer : Timer U} (hm : s.mountedRef = true)
    (harmed : s.armed t = some timer) (ha : timer.options.active = true) :
    (next c s (.fire t)).opened = s.opened + 1 := by
  simp [next, harmed, State.connect, hm, ha]

/-- A close event for a socket of an active run of the effect, whatever run is in force now. -/
theorem closed_reconnects {s : State U} {id : ℕ} {socket : Socket U} (hm : s.mountedRef = true)
    (hsocket : s.sockets id = some socket) (ha : socket.options.active = true) :
    (next c (next c s (.closed id)) (.fire s.timers)).opened = s.opened + 1 ∧
      Enabled (next c s (.closed id)) (.fire s.timers) := by
  have hnext : next c s (.closed id) =
      { s.setPhase id .closed with
        connected := false
        wsRef := none
        reconnectAttempt := s.reconnectAttempt + 1
        armed := Function.update s.armed s.timers
          (some ⟨socket.options, c.reconnectDelayMs s.reconnectAttempt⟩)
        timers := s.timers + 1
        reconnectTimer := some s.timers } := by
    have hmounted : (s.setPhase id .closed).mountedRef = true := hm
    simp only [next, hsocket, State.onClose, State.scheduleReconnect, hmounted, ha, Bool.not_true,
      Bool.false_eq_true, if_false]
    rfl
  have harmed : (next c s (.closed id)).armed s.timers =
      some ⟨socket.options, c.reconnectDelayMs s.reconnectAttempt⟩ := by
    rw [hnext]
    exact Function.update_self ..
  refine ⟨?_, by simp [Enabled, harmed]⟩
  have hmounted : (next c s (.closed id)).mountedRef = true := by
    rw [hnext]
    exact hm
  have hopened : (next c s (.closed id)).opened = s.opened := by
    rw [hnext]
    rfl
  rw [fire_opened hmounted harmed ha, hopened]

/-- The socket that a deactivated hook has left reconnects once it is closed. -/
theorem deactivate_reconnects {s : State U} {o o' : Options U} {id : ℕ} {phase : Phase}
    (hs : Linked s o id phase) (hinactive : o'.active = false) :
    ∃ later, Follows Enabled (next c) Undisturbed (next c s (.effect o')) later ∧
      (later.foldl (next c) (next c s (.effect o'))).opened = s.opened + 1 := by
  rw [deactivate_eq hs.effect hinactive]
  have hlive : s.cleanUp.Live id := by
    rw [State.Live, cleanUp_phase hs.wsRef]
    split
    · decide
    · rw [hs.phase]
      exact hs.live
  obtain ⟨socket, hsocket⟩ := Option.isSome_iff_exists.mp (isSome_of_phase hlive)
  have hoptions : socket.options = o := by
    have := cleanUp_options s id
    rw [hsocket, hs.socket] at this
    exact Option.some.inj this
  have ha : socket.options.active = true := by
    rw [hoptions]
    exact hs.active
  obtain ⟨hopened, hfire⟩ := @closed_reconnects U c
    { s.cleanUp with mountedRef := true, effect := some o' } id socket rfl hsocket ha
  refine ⟨[.closed id, .fire s.cleanUp.timers], ⟨hlive, trivial, hfire, trivial, trivial⟩, ?_⟩
  exact hopened.trans (congrArg (· + 1) (cleanUp_opened s))

/-- Where the effect has run again only with every socket closed so far, a deactivated hook opens no
further socket, whatever happens, if and only if no socket is left to close: the close event of one
that is left reconnects with the options it was opened with. -/
theorem deactivation_final_iff {events : List (Event U)} {o o' : Options U}
    (h : Follows Enabled (next c) Settled start events)
    (heffect : (events.foldl (next c) start).effect = some o) (hinactive : o'.active = false) :
    (∀ later, Follows Enabled (next c) Undisturbed
        (next c (events.foldl (next c) start) (.effect o')) later →
      (later.foldl (next c)
          (next c (events.foldl (next c) start) (.effect o'))).opened
        = (events.foldl (next c) start).opened) ↔
    ∀ id, ¬ (events.foldl (next c) start).Live id := by
  have hs : Standing c _ := standing_of_follows h
  generalize events.foldl (next c) start = s at hs heffect
  constructor
  · intro hfinal id hid
    rcases hs.of_live hid with ⟨o₁, phase, hlinked⟩ | hgone
    · obtain ⟨later, hlater, hopened⟩ := deactivate_reconnects hlinked hinactive
      have := hfinal later hlater
      omega
    · have hnone := hgone.effect
      rw [heffect] at hnone
      cases hnone
  · intro hlive later hlater
    have hrest := deactivate_resting hs heffect hinactive hlive
    have hopened : (next c s (.effect o')).opened = s.opened := by
      rw [deactivate_eq heffect hinactive]
      exact cleanUp_opened s
    have hrun := (path_of_follows hlater).invariant
      (P := fun t => Resting t ∧ t.opened = s.opened) ⟨hrest, hopened⟩ ?_
    · exact hrun.2
    · rintro t e he hok ⟨ht, hn⟩
      obtain ⟨ht', hn'⟩ := ht.step (c := c) he hok
      exact ⟨ht', hn'.trans hn⟩

section Wizard

def identifying : Options String := { url := "ws://127.0.0.1:19090", active := true }

def identified : Options String := { identifying with active := false }

def swapEvents : List (Event String) :=
  [.effect identifying, .opened 0, .send "get_stream_info", .closed 0, .fire 0, .closed 1, .fire 1,
    .opened 2]

theorem swap_follows : Follows Enabled (next .terminal) Settled start swapEvents :=
  ⟨rfl, fun _ h => h rfl, by decide, trivial, trivial, trivial, by decide, trivial, by decide, trivial,
    by decide, trivial, by decide, trivial, by decide, trivial, trivial⟩

theorem swapped_one_connection :
    OneConnection .terminal (swapEvents.foldl (next .terminal) start) :=
  one_connection swap_follows

/-- Deactivated while the visualizer is up, the hook goes on connecting. -/
theorem identified_not_final : ¬ ∀ later, Follows Enabled (next .terminal) Undisturbed
      (next .terminal (swapEvents.foldl (next .terminal) start) (.effect identified)) later →
    (later.foldl (next .terminal)
        (next .terminal (swapEvents.foldl (next .terminal) start) (.effect identified))).opened
      = (swapEvents.foldl (next .terminal) start).opened := by
  intro hfinal
  exact (deactivation_final_iff swap_follows rfl rfl).mp hfinal 2 (by decide)

end Wizard

end Lives

end SocketLifecycles
