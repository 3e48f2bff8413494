import Mathlib.Data.List.Basic
import Mathlib.Logic.Function.Basic
import Rollio.PartialRuns

/-! The reconnecting web sockets of the two user interfaces: one React hook, its effect run again
whenever the address or the activity changes, and the sockets and timers that outlive a run of it. -/
namespace ReconnectingSockets
open PartialRuns

inductive Client where
  | terminal | web
  deriving DecidableEq, Repr

/-- `RECONNECT_DELAYS`, in milliseconds. -/
def Client.reconnectDelays : Client → List ℕ
  | .terminal => [0, 200, 800, 3000, 10000]
  | .web => [1000, 2000, 4000, 10000]

def Client.reconnectDelayMs (client : Client) (attempt : ℕ) : ℕ :=
  client.reconnectDelays.getD (min attempt (client.reconnectDelays.length - 1)) 0

def maxPendingOutbound : ℕ := 256

variable {U : Type}

structure Options (U : Type) where
  url : U
  active : Bool

inductive Phase where
  | connecting | open | closing | closed
  deriving DecidableEq, Repr

structure Socket (U : Type) where
  options : Options U
  phase : Phase

structure Timer (U : Type) where
  options : Options U
  delayMs : ℕ

/-- The references of the hook, and the sockets and timers that were ever made, by number. -/
structure State (U : Type) where
  /-- The run of the effect that is in force. -/
  effect : Option (Options U)
  unmounted : Bool
  mountedRef : Bool
  wsRef : Option ℕ
  reconnectAttempt : ℕ
  reconnectTimer : Option ℕ
  pendingOutbound : List String
  connected : Bool
  opened : ℕ
  sockets : ℕ → Option (Socket U)
  timers : ℕ
  armed : ℕ → Option (Timer U)
  /-- What was handed to the sockets, with the socket's number. -/
  handed : List (ℕ × String)

def start : State U :=
  { effect := none
    unmounted := false
    mountedRef := true
    wsRef := none
    reconnectAttempt := 0
    reconnectTimer := none
    pendingOutbound := []
    connected := false
    opened := 0
    sockets := fun _ => none
    timers := 0
    armed := fun _ => none
    handed := [] }

section Hook

def State.phaseOf (s : State U) (id : ℕ) : Phase := ((s.sockets id).map Socket.phase).getD .closed

def State.openSocket (s : State U) : Option ℕ := s.wsRef.filter fun id => s.phaseOf id = .open

def State.setPhase (s : State U) (id : ℕ) (phase : Phase) : State U :=
  { s with
    sockets := Function.update s.sockets id ((s.sockets id).map fun socket => { socket with phase }) }

def State.connect (s : State U) (o : Options U) : State U :=
  if !s.mountedRef then s
  else if !o.active then s
  else
    { s with
      sockets := Function.update s.sockets s.opened (some { options := o, phase := .connecting })
      opened := s.opened + 1
      wsRef := some s.opened }

def State.scheduleReconnect (client : Client) (s : State U) (o : Options U) : State U :=
  if !s.mountedRef then s
  else if !o.active then s
  else
    { s with
      reconnectAttempt := s.reconnectAttempt + 1
      armed := Function.update s.armed s.timers
        (some { options := o, delayMs := client.reconnectDelayMs s.reconnectAttempt })
      timers := s.timers + 1
      reconnectTimer := some s.timers }

/-- The queue is emptied in order, empty messages left out. -/
def State.flushPendingOutbound (s : State U) : State U :=
  match s.openSocket with
  | none => s
  | some id =>
    { s with
      handed := s.handed ++ (s.pendingOutbound.filter (· ≠ "")).map fun m => (id, m)
      pendingOutbound := [] }

/-- A message for a socket that is down is queued by the terminal and dropped by the browser. -/
def State.send (client : Client) (s : State U) (m : String) : State U :=
  match s.openSocket with
  | some id => { s with handed := s.handed ++ [(id, m)] }
  | none =>
    match client with
    | .terminal =>
      { s with
        pendingOutbound :=
          s.pendingOutbound.drop (s.pendingOutbound.length + 1 - maxPendingOutbound) ++ [m] }
    | .web => s

def State.onOpen (s : State U) : State U :=
  if !s.mountedRef then s
  else State.flushPendingOutbound { s with reconnectAttempt := 0, connected := true }

def State.onClose (client : Client) (s : State U) (o : Options U) : State U :=
  if !s.mountedRef then s
  else State.scheduleReconnect client { s with connected := false, wsRef := none } o

/-- `close` of a socket that is not closing yet. -/
def State.closeSocket (s : State U) (id : ℕ) : State U :=
  match s.phaseOf id with
  | .connecting | .open => s.setPhase id .closing
  | .closing | .closed => s

/-- What a run of the effect returns. -/
def State.cleanUp (s : State U) : State U :=
  let s : State U := { s with mountedRef := false, pendingOutbound := [] }
  let s : State U :=
    match s.reconnectTimer with
    | none => s
    | some t => { s with armed := Function.update s.armed t none }
  match s.wsRef with
  | none => s
  | some id => { s.closeSocket id with wsRef := none }

def State.run (client : Client) (s : State U) (o : Options U) : State U :=
  let s : State U := { s with mountedRef := true, effect := some o }
  if o.active then
    State.connect { s with
      reconnectAttempt := match client with
        | .terminal => 0
        | .web => s.reconnectAttempt } o
  else s

end Hook

section Steps

inductive Event (U : Type) where
  /-- The effect runs, for the first time or after its clean-up. -/
  | effect (o : Options U)
  | unmount
  | opened (id : ℕ)
  /-- The peer starts to close. -/
  | closing (id : ℕ)
  | closed (id : ℕ)
  | fire (timer : ℕ)
  | send (m : String)

/-- A socket whose close event is still to come. -/
def State.Live (s : State U) (id : ℕ) : Prop := s.phaseOf id ≠ .closed

instance (s : State U) (id : ℕ) : Decidable (s.Live id) :=
  inferInstanceAs (Decidable (_ ≠ _))

def Enabled (s : State U) : Event U → Prop
  | .effect _ => s.unmounted = false
  | .unmount => s.effect.isSome
  | .opened id => s.phaseOf id = .connecting
  | .closing id => s.phaseOf id = .connecting ∨ s.phaseOf id = .open
  | .closed id => s.Live id
  | .fire t => (s.armed t).isSome
  | .send _ => True

instance (s : State U) (e : Event U) : Decidable (Enabled s e) := by
  cases e <;> simp only [Enabled] <;> infer_instance

def next (client : Client) (s : State U) : Event U → State U
  | .effect o =>
    match s.effect with
    | none => s.run client o
    | some _ => s.cleanUp.run client o
  | .unmount => { s.cleanUp with effect := none, unmounted := true }
  | .opened id => (s.setPhase id .open).onOpen
  | .closing id => s.setPhase id .closing
  | .closed id =>
    match s.sockets id with
    | none => s
    | some socket => (s.setPhase id .closed).onClose client socket.options
  | .fire t =>
    match s.armed t with
    | none => s
    | some timer => State.connect { s with armed := Function.update s.armed t none } timer.options
  | .send m => s.send client m

end Steps

section Order

def Event.given : Event U → List String
  | .send m => [m]
  | _ => []

def given (events : List (Event U)) : List String := events.flatMap Event.given

/-- What was handed to a socket, and behind it what still waits. -/
def State.outbound (s : State U) : List String := s.handed.map Prod.snd ++ s.pendingOutbound

/-- Nothing waits while the socket is open, and an unmounted hook refers to no socket. -/
structure Flushed (s : State U) : Prop where
  open_empty : s.openSocket.isSome → s.pendingOutbound = []
  unmounted : s.mountedRef = false → s.wsRef = none

theorem openSocket_eq_some_iff {s : State U} {id : ℕ} :
    s.openSocket = some id ↔ s.wsRef = some id ∧ s.phaseOf id = .open := by
  simp [State.openSocket, Option.filter_eq_some_iff]

theorem openSocket_of_wsRef {s : State U} (h : s.wsRef = none) : s.openSocket = none := by
  simp [State.openSocket, h]

theorem phaseOf_setPhase (s : State U) (id : ℕ) (phase : Phase) (j : ℕ) :
    (s.setPhase id phase).phaseOf j
      = if j = id ∧ (s.sockets id).isSome then phase else s.phaseOf j := by
  by_cases h : j = id
  · subst h
    cases hs : s.sockets j <;> simp [State.phaseOf, State.setPhase, hs]
  · simp [State.phaseOf, State.setPhase, h]

theorem openSocket_setPhase {s : State U} {id j : ℕ} {phase : Phase} (hphase : phase ≠ .open)
    (h : (s.setPhase id phase).openSocket = some j) : s.openSocket = some j := by
  obtain ⟨hws, hopen⟩ := openSocket_eq_some_iff.mp h
  rw [phaseOf_setPhase] at hopen
  split at hopen
  · exact absurd hopen hphase
  · exact openSocket_eq_some_iff.mpr ⟨hws, hopen⟩

theorem connect_outbound (s : State U) (o : Options U) : (s.connect o).outbound = s.outbound := by
  simp only [State.connect]
  split
  · rfl
  · split <;> rfl

theorem Flushed.connect {s : State U} (h : Flushed s) (o : Options U) : Flushed (s.connect o) := by
  simp only [State.connect]
  split
  · exact h
  · next hmounted =>
    split
    · exact h
    · constructor
      · intro hopen
        obtain ⟨id, hid⟩ := Option.isSome_iff_exists.mp hopen
        obtain ⟨hws, hphase⟩ := openSocket_eq_some_iff.mp hid
        cases hws
        simp [State.phaseOf] at hphase
      · intro hm
        have hm : s.mountedRef = false := hm
        simp [hm] at hmounted

theorem closeSocket_frame (s : State U) (id : ℕ) :
    (s.closeSocket id).handed = s.handed ∧
      (s.closeSocket id).pendingOutbound = s.pendingOutbound ∧
      (s.closeSocket id).mountedRef = s.mountedRef := by
  simp only [State.closeSocket]
  split <;> exact ⟨rfl, rfl, rfl⟩

theorem cleanUp_frame (s : State U) :
    s.cleanUp.handed = s.handed ∧ s.cleanUp.pendingOutbound = [] ∧ s.cleanUp.wsRef = none ∧
      s.cleanUp.mountedRef = false := by
  simp only [State.cleanUp]
  split <;> split <;> simp_all [closeSocket_frame]

theorem cleanUp_outbound (s : State U) : s.cleanUp.outbound.Sublist s.outbound := by
  obtain ⟨hhanded, hpending, -, -⟩ := cleanUp_frame s
  simp only [State.outbound, hhanded, hpending, List.append_nil]
  exact List.sublist_append_left _ _

theorem flush_outbound (s : State U) : s.flushPendingOutbound.outbound.Sublist s.outbound := by
  simp only [State.flushPendingOutbound]
  split
  · exact List.Sublist.refl _
  · simp only [State.outbound, List.map_append, List.map_map, List.append_nil]
    have hids : ∀ id : ℕ, (s.pendingOutbound.filter (· ≠ "")).map
        (Prod.snd ∘ fun m => (id, m)) = s.pendingOutbound.filter (· ≠ "") :=
      fun id => List.map_id _
    rw [hids]
    exact (List.Sublist.refl _).append List.filter_sublist

theorem Flushed.run {s : State U} {client : Client} (h : s.pendingOutbound = [] ∨ s.openSocket = none)
    (o : Options U) : Flushed (s.run client o) := by
  have hflushed : ∀ attempt, Flushed
      { s with mountedRef := true, effect := some o, reconnectAttempt := attempt } := by
    intro attempt
    refine ⟨fun hopen => ?_, by simp⟩
    refine h.resolve_right fun hnone => ?_
    have : s.openSocket.isSome := hopen
    simp [hnone] at this
  simp only [State.run]
  split
  · exact (hflushed _).connect o
  · exact hflushed s.reconnectAttempt

theorem run_outbound (s : State U) (client : Client) (o : Options U) :
    (s.run client o).outbound = s.outbound := by
  simp only [State.run]
  split
  · exact connect_outbound _ o
  · rfl

theorem Flushed.empty_or_closed {s : State U} (h : Flushed s) :
    s.pendingOutbound = [] ∨ s.openSocket = none := by
  cases hopen : s.openSocket with
  | none => exact .inr rfl
  | some id => exact .inl (h.open_empty (by rw [hopen]; rfl))

theorem Flushed.setPhase {s : State U} (h : Flushed s) {id : ℕ} {phase : Phase}
    (hphase : phase ≠ .open) : Flushed (s.setPhase id phase) := by
  refine ⟨fun hopen => ?_, h.unmounted⟩
  obtain ⟨j, hj⟩ := Option.isSome_iff_exists.mp hopen
  exact h.open_empty (by rw [openSocket_setPhase hphase hj]; rfl)

theorem flush_flushed {s : State U} (h : s.mountedRef = true) : Flushed s.flushPendingOutbound := by
  simp only [State.flushPendingOutbound]
  split
  · next hnone =>
    refine ⟨fun hopen => ?_, fun hm => ?_⟩
    · rw [hnone] at hopen
      cases hopen
    · rw [h] at hm
      cases hm
  · refine ⟨fun _ => rfl, fun hm => ?_⟩
    have hm : s.mountedRef = false := hm
    rw [h] at hm
    cases hm

theorem Flushed.onOpen {s : State U} (h : s.mountedRef = false → s.wsRef = none) :
    Flushed s.onOpen := by
  simp only [State.onOpen]
  split
  · next hm =>
    have hws := h (by simpa using hm)
    refine ⟨fun hopen => ?_, fun _ => hws⟩
    rw [openSocket_of_wsRef hws] at hopen
    cases hopen
  · next hm => exact flush_flushed (by simpa using hm)

theorem Flushed.onClose {s : State U} {client : Client} (h : Flushed s) (o : Options U) :
    Flushed (s.onClose client o) := by
  have hclosed : ∀ attempt armed timers timer, Flushed
      { s with
        connected := false
        wsRef := none
        reconnectAttempt := attempt
        armed := armed
        timers := timers
        reconnectTimer := timer } := by
    intro attempt armed timers timer
    refine ⟨fun hopen => ?_, fun _ => rfl⟩
    rw [openSocket_of_wsRef rfl] at hopen
    cases hopen
  simp only [State.onClose, State.scheduleReconnect]
  split
  · exact h
  · split <;> exact hclosed _ _ _ _

theorem openSocket_congr {s t : State U} (hws : t.wsRef = s.wsRef) (hsockets : t.sockets = s.sockets) :
    t.openSocket = s.openSocket := by
  have hphase : ∀ id, t.phaseOf id = s.phaseOf id := by
    intro id
    simp only [State.phaseOf, hsockets]
  apply Option.ext
  intro id
  rw [openSocket_eq_some_iff, openSocket_eq_some_iff, hws, hphase]

theorem Flushed.of_closed {s t : State U} (h : Flushed s) (hnone : s.openSocket = none)
    (hws : t.wsRef = s.wsRef) (hsockets : t.sockets = s.sockets)
    (hmounted : t.mountedRef = s.mountedRef) : Flushed t := by
  refine ⟨fun hopen => ?_, fun hm => ?_⟩
  · rw [openSocket_congr hws hsockets, hnone] at hopen
    cases hopen
  · rw [hws]
    exact h.unmounted (hmounted ▸ hm)

theorem Flushed.send {s : State U} {client : Client} (h : Flushed s) (m : String) :
    Flushed (s.send client m) := by
  simp only [State.send]
  split
  · exact ⟨h.open_empty, h.unmounted⟩
  · next hnone =>
    cases client with
    | terminal => exact h.of_closed hnone rfl rfl rfl
    | web => exact h

theorem Flushed.step {s : State U} {client : Client} (h : Flushed s) (e : Event U) :
    Flushed (next client s e) := by
  cases e with
  | effect o =>
    simp only [next]
    split
    · exact Flushed.run h.empty_or_closed o
    · exact Flushed.run (.inl (cleanUp_frame s).2.1) o
  | unmount =>
    have hws := (cleanUp_frame s).2.2.1
    refine ⟨fun _ => (cleanUp_frame s).2.1, fun _ => hws⟩
  | opened id => exact Flushed.onOpen h.unmounted
  | closing id => exact h.setPhase (by decide)
  | closed id =>
    simp only [next]
    split
    · exact h
    · exact (h.setPhase (by decide)).onClose _
  | fire t =>
    simp only [next]
    split
    · exact h
    · next timer _ =>
      have hs : Flushed { s with armed := Function.update s.armed t none } :=
        ⟨h.open_empty, h.unmounted⟩
      exact hs.connect timer.options
  | send m => exact h.send m

theorem send_outbound {s : State U} {client : Client} (h : Flushed s) (m : String) :
    (s.send client m).outbound.Sublist (s.outbound ++ [m]) := by
  simp only [State.send]
  split
  · next id hopen =>
    have hempty := h.open_empty (by rw [hopen]; rfl)
    simp [State.outbound, hempty]
  · cases client with
    | terminal =>
      simp only [State.outbound]
      rw [List.append_assoc]
      exact (List.Sublist.refl _).append
        ((List.drop_sublist _ _).append (List.Sublist.refl [m]))
    | web => exact List.sublist_append_left _ _

theorem onClose_outbound (s : State U) (client : Client) (o : Options U) :
    (s.onClose client o).outbound = s.outbound := by
  simp only [State.onClose, State.scheduleReconnect]
  split
  · rfl
  · split <;> rfl

theorem onOpen_outbound (s : State U) : s.onOpen.outbound.Sublist s.outbound := by
  simp only [State.onOpen]
  split
  · exact List.Sublist.refl _
  · exact flush_outbound _

theorem step_outbound {s : State U} {client : Client} (h : Flushed s) (e : Event U) :
    (next client s e).outbound.Sublist (s.outbound ++ e.given) := by
  have hnone : ∀ t : State U, t.outbound.Sublist s.outbound → t.outbound.Sublist (s.outbound ++ []) := by
    intro t ht
    simpa using ht
  cases e with
  | effect o =>
    refine hnone _ ?_
    simp only [next]
    split
    · rw [run_outbound]
    · rw [run_outbound]
      exact cleanUp_outbound s
  | unmount => exact hnone _ (cleanUp_outbound s)
  | opened id => exact hnone _ (onOpen_outbound _)
  | closing id => exact hnone _ (List.Sublist.refl _)
  | closed id =>
    refine hnone _ ?_
    simp only [next]
    split
    · exact List.Sublist.refl _
    · rw [onClose_outbound]
      exact List.Sublist.refl _
  | fire t =>
    refine hnone _ ?_
    simp only [next]
    split
    · exact List.Sublist.refl _
    · rw [connect_outbound]
      exact List.Sublist.refl _
  | send m => exact send_outbound h m

theorem start_flushed : Flushed (start : State U) :=
  ⟨fun _ => rfl, fun _ => rfl⟩

theorem given_cons (e : Event U) (events : List (Event U)) :
    given (e :: events) = e.given ++ given events := by
  simp [given]

/-- A step that loses no message: what is sent finds the socket open, or it is not empty and finds a
free place in the terminal's queue, and nothing waits when the effect is cleaned up. -/
def Lossless (client : Client) (s : State U) : Event U → Prop
  | .send m => s.openSocket.isSome ∨
      (client = .terminal ∧ m ≠ "" ∧ s.pendingOutbound.length < maxPendingOutbound)
  | .effect _ => s.effect = none ∨ s.pendingOutbound = []
  | .unmount => s.pendingOutbound = []
  | _ => True

instance (client : Client) (s : State U) (e : Event U) : Decidable (Lossless client s e) := by
  cases e <;> simp only [Lossless] <;> infer_instance

/-- No empty message waits. -/
def Sendable (s : State U) : Prop := ∀ m ∈ s.pendingOutbound, m ≠ ""

theorem flush_lossless {s : State U} (h : Sendable s) :
    s.flushPendingOutbound.outbound = s.outbound ∧ Sendable s.flushPendingOutbound := by
  simp only [State.flushPendingOutbound]
  split
  · exact ⟨rfl, h⟩
  · have hall : s.pendingOutbound.filter (· ≠ "") = s.pendingOutbound :=
      List.filter_eq_self.mpr (by simpa [Sendable] using h)
    refine ⟨?_, by simp [Sendable]⟩
    have hids : ∀ id : ℕ, s.pendingOutbound.map (Prod.snd ∘ fun m => (id, m)) = s.pendingOutbound :=
      fun id => List.map_id _
    simp only [State.outbound, hall, List.map_append, List.map_map, hids, List.append_nil]

theorem send_lossless {s : State U} {client : Client} {m : String} (hs : Flushed s)
    (h : Sendable s) (hok : Lossless client s (.send m)) :
    (s.send client m).outbound = s.outbound ++ [m] ∧ Sendable (s.send client m) := by
  simp only [State.send]
  split
  · next id hopen =>
    have hempty := hs.open_empty (by rw [hopen]; rfl)
    exact ⟨by simp [State.outbound, hempty], h⟩
  · next hnone =>
    obtain ⟨rfl, hm, hroom⟩ := hok.resolve_left (by simp [hnone])
    have hdrop : s.pendingOutbound.length + 1 - maxPendingOutbound = 0 := by omega
    refine ⟨by simp [State.outbound, hdrop], ?_⟩
    intro m' hm'
    simp only [hdrop, List.drop_zero, List.mem_append, List.mem_singleton] at hm'
    rcases hm' with hm' | rfl
    · exact h m' hm'
    · exact hm

theorem connect_pending (s : State U) (o : Options U) :
    (s.connect o).pendingOutbound = s.pendingOutbound := by
  simp only [State.connect]
  split
  · rfl
  · split <;> rfl

theorem run_pending (s : State U) (client : Client) (o : Options U) :
    (s.run client o).pendingOutbound = s.pendingOutbound := by
  simp only [State.run]
  split
  · exact connect_pending _ o
  · rfl

theorem onClose_pending (s : State U) (client : Client) (o : Options U) :
    (s.onClose client o).pendingOutbound = s.pendingOutbound := by
  simp only [State.onClose, State.scheduleReconnect]
  split
  · rfl
  · split <;> rfl

/-- A clean-up that finds nothing waiting. -/
theorem cleanUp_lossless {s : State U} (h : s.pendingOutbound = []) :
    s.cleanUp.outbound = s.outbound := by
  obtain ⟨hhanded, hpending, -, -⟩ := cleanUp_frame s
  simp [State.outbound, hhanded, hpending, h]

theorem step_lossless {s : State U} {client : Client} {e : Event U} (hs : Flushed s)
    (h : Sendable s) (hok : Lossless client s e) :
    (next client s e).outbound = s.outbound ++ e.given ∧ Sendable (next client s e) := by
  cases e with
  | effect o =>
    simp only [next, Event.given, List.append_nil, Sendable]
    split
    · rw [run_outbound, run_pending]
      exact ⟨rfl, h⟩
    · next o' ho =>
      have hempty : s.pendingOutbound = [] := hok.resolve_left (by simp [ho])
      rw [run_outbound, run_pending, cleanUp_lossless hempty, (cleanUp_frame s).2.1]
      exact ⟨rfl, by simp⟩
  | unmount =>
    have hempty : s.pendingOutbound = [] := hok
    refine ⟨?_, ?_⟩
    · have hgiven : (Event.unmount : Event U).given = [] := rfl
      rw [hgiven, List.append_nil]
      exact cleanUp_lossless hempty
    · have hpending : (next client s .unmount).pendingOutbound = [] := (cleanUp_frame s).2.1
      simp [Sendable, hpending]
  | opened id =>
    simp only [next, Event.given, List.append_nil, State.onOpen]
    split
    · exact ⟨rfl, h⟩
    · exact flush_lossless h
  | closing id => exact ⟨by simp [next, Event.given, State.outbound, State.setPhase], h⟩
  | closed id =>
    simp only [next, Event.given, List.append_nil, Sendable]
    split
    · exact ⟨rfl, h⟩
    · rw [onClose_outbound, onClose_pending]
      exact ⟨rfl, h⟩
  | fire t =>
    simp only [next, Event.given, List.append_nil, Sendable]
    split
    · exact ⟨rfl, h⟩
    · rw [connect_outbound, connect_pending]
      exact ⟨rfl, h⟩
  | send m => exact send_lossless hs h hok

/-- Across all reconnections, runs of the effect and clean-ups, what is handed to the sockets comes in
the order in which it was given to the hook, nothing twice, and what still waits comes behind it. A
clean-up drops what waits; in a run of steps that lose no message none is missing. -/
theorem outbound_in_order (client : Client) (events : List (Event U)) :
    (events.foldl (next client) start).outbound.Sublist (given events) ∧
    (Follows (fun _ _ => True) (next client) (Lossless client) start events →
      (events.foldl (next client) start).outbound = given events) := by
  have hsub : ∀ (events : List (Event U)) (s : State U), Flushed s →
      (events.foldl (next client) s).outbound.Sublist (s.outbound ++ given events) := by
    intro events
    induction events with
    | nil =>
      intro s _
      simp [given]
    | cons e events ih =>
      intro s hs
      refine (ih _ (hs.step e)).trans ?_
      rw [given_cons, ← List.append_assoc]
      exact (step_outbound hs e).append (List.Sublist.refl _)
  have heq : ∀ (events : List (Event U)) (s : State U), Flushed s → Sendable s →
      Follows (fun _ _ => True) (next client) (Lossless client) s events →
      (events.foldl (next client) s).outbound = s.outbound ++ given events := by
    intro events
    induction events with
    | nil =>
      intro s _ _ _
      simp [given]
    | cons e events ih =>
      intro s hs hsend hfollows
      obtain ⟨hout, hsend'⟩ := step_lossless hs hsend hfollows.2.1
      rw [given_cons, ← List.append_assoc, ← hout]
      exact ih _ (hs.step e) hsend' hfollows.2.2
  refine ⟨hsub events start start_flushed, fun h => heq events start start_flushed ?_ h⟩
  intro m hm
  cases hm

def reconnection : List (Event String) :=
  [.effect ⟨"ws://control", true⟩, .send "a", .opened 0, .send "b", .closing 0, .closed 0, .send "c",
    .fire 0, .opened 1]

theorem reconnection_in_order :
    (reconnection.foldl (next .terminal) start).handed = [(0, "a"), (0, "b"), (1, "c")] ∧
      (reconnection.foldl (next .terminal) start).outbound = given reconnection :=
  ⟨by decide +kernel, (outbound_in_order .terminal reconnection).2 (by decide +kernel)⟩

end Order

end ReconnectingSockets
