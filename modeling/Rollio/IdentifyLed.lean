import Mathlib.Logic.Function.Basic
import Rollio.AirbotChannels
import Rollio.PartialRuns

/-! The LED of the AIRBOT Play base, which both channel threads of the driver switch through one gate.
The gate's fields are atomic, its synchronization is not: its loads, the frames to the LED and the last
store are steps that the other thread can come between. Frames that are sent switch the LED, and where
sending them fails it stays as it was. -/
namespace IdentifyLed
open AirbotChannels PartialRuns

inductive Side where
  | arm | eef
  deriving DecidableEq, Repr

def Side.other : Side → Side
  | .arm => .eef
  | .eef => .arm

@[simp] theorem other_ne (side : Side) : side.other ≠ side := by
  cases side <;> decide

theorem eq_other {side t : Side} (h : t ≠ side) : t = side.other := by
  cases side <;> cases t <;> first | rfl | exact absurd rfl h

/-- `IdentifyLedGate`, and what the LED was last told. -/
structure Gate where
  identifying : Side → Bool
  ledOn : Bool
  lamp : Bool

/-- The LED is to be on while either channel identifies. -/
def Gate.want (g : Gate) : Bool := g.identifying .arm || g.identifying .eef

def Gate.setIdentifying (g : Gate) (side : Side) (identifying : Bool) : Gate :=
  { g with identifying := Function.update g.identifying side identifying }

section Steps

inductive Pc where
  | idle
  /-- Its own flag is stored. -/
  | stored
  /-- The flag of the arm was loaded and not set. -/
  | armLoaded
  | wanted (want : Bool)
  /-- The LED was loaded, and is to change. -/
  | differs (want : Bool)
  | switched (want : Bool)
  deriving DecidableEq, Repr

/-- `shown` is a history variable: since a flag last changed, a synchronization has returned without
an error. -/
structure State where
  gate : Gate
  pc : Side → Pc
  shown : Bool

def start : State :=
  { gate := { identifying := fun _ => false, ledOn := false, lamp := false }
    pc := fun _ => .idle
    shown := true }

inductive Event where
  /-- `set_arm_identifying` or `set_eef_identifying` is called. -/
  | call (side : Side) (identifying : Bool)
  | load (side : Side)
  /-- The frames are sent, or sending them fails. -/
  | send (side : Side) (sent : Bool)
  | store (side : Side)
  deriving DecidableEq, Repr

def State.at (s : State) (side : Side) (pc : Pc) : State :=
  { s with pc := Function.update s.pc side pc }

def State.returned (s : State) (side : Side) : State := { s.at side .idle with shown := true }

def Pc.loads : Pc → Bool
  | .stored | .armLoaded | .wanted _ => true
  | _ => false

def Pc.sends : Pc → Bool
  | .differs _ => true
  | _ => false

def Pc.stores : Pc → Bool
  | .switched _ => true
  | _ => false

def Enabled (s : State) : Event → Prop
  | .call side _ => s.pc side = .idle
  | .load side => (s.pc side).loads
  | .send side _ => (s.pc side).sends
  | .store side => (s.pc side).stores

instance (s : State) (e : Event) : Decidable (Enabled s e) := by
  cases e <;> simp only [Enabled] <;> infer_instance

def State.load (s : State) (side : Side) : State :=
  match s.pc side with
  | .stored => s.at side (if s.gate.identifying .arm then .wanted true else .armLoaded)
  | .armLoaded => s.at side (.wanted (s.gate.identifying .eef))
  | .wanted want => if want = s.gate.ledOn then s.returned side else s.at side (.differs want)
  | _ => s

def State.send (s : State) (side : Side) (sent : Bool) : State :=
  match s.pc side with
  | .differs want =>
    if sent then { s.at side (.switched want) with gate := { s.gate with lamp := want } }
    else s.at side .idle
  | _ => s

def State.store (s : State) (side : Side) : State :=
  match s.pc side with
  | .switched want => { s.returned side with gate := { s.gate with ledOn := want } }
  | _ => s

def next (s : State) : Event → State
  | .call side identifying =>
    { s.at side .stored with
      gate := s.gate.setIdentifying side identifying
      shown := s.shown && decide (s.gate.identifying side = identifying) }
  | .load side => s.load side
  | .send side sent => s.send side sent
  | .store side => s.store side

/-- A channel's flag changes only while the other channel is not synchronizing. -/
def Undisturbed (s : State) : Event → Prop
  | .call side identifying => s.gate.identifying side = identifying ∨ s.pc side.other = .idle
  | _ => True

instance (s : State) (e : Event) : Decidable (Undisturbed s e) := by
  cases e <;> simp only [Undisturbed] <;> infer_instance

end Steps

section Alone

/-- A call that nothing comes between, by what sending the frames answers. -/
def Gate.call (g : Gate) (side : Side) (identifying : Bool) (sent : Call Unit) : Call Unit × Gate :=
  let g := g.setIdentifying side identifying
  if g.want = g.ledOn then (.ok (), g)
  else
    match sent with
    | .ok () => (.ok (), { g with ledOn := g.want, lamp := g.want })
    | .error e => (.error e, g)

@[simp] theorem at_pc_self (s : State) (side : Side) (pc : Pc) : (s.at side pc).pc side = pc := by
  simp [State.at]

theorem at_pc_of_ne (s : State) {side t : Side} (pc : Pc) (h : t ≠ side) :
    (s.at side pc).pc t = s.pc t := by
  simp [State.at, h]

@[simp] theorem at_gate (s : State) (side : Side) (pc : Pc) : (s.at side pc).gate = s.gate := rfl

@[simp] theorem at_at (s : State) (side : Side) (pc pc' : Pc) :
    (s.at side pc).at side pc' = s.at side pc' := by
  simp [State.at]

def Event.side : Event → Side
  | .call side _ | .load side | .send side _ | .store side => side

end Alone

section Shown

def Pc.aims : Pc → Option Bool
  | .wanted want | .differs want | .switched want => some want
  | _ => none

structure Consistent (s : State) : Prop where
  aims : ∀ side want, (s.pc side).aims = some want → want = s.gate.want
  arm_clear : ∀ side, s.pc side = .armLoaded → s.gate.identifying .arm = false
  switched : ∀ side want, s.pc side = .switched want → s.gate.lamp = want
  /-- The stored LED lags behind only while a thread is about to store it. -/
  stored : s.gate.ledOn = s.gate.lamp ∨ ∃ side, s.pc side = .switched s.gate.lamp
  shown : s.shown = true → s.gate.lamp = s.gate.want

theorem start_consistent : Consistent start where
  aims := by intro side want h; cases h
  arm_clear := by intro side h; cases h
  switched := by intro side want h; cases h
  stored := .inl rfl
  shown := fun _ => rfl

theorem pc_cases (s : State) (side : Side) (pc : Pc) (t : Side) :
    (t = side ∧ (s.at side pc).pc t = pc) ∨ (t = side.other ∧ (s.at side pc).pc t = s.pc t) := by
  by_cases h : t = side
  · subst h
    exact .inl ⟨rfl, at_pc_self s t pc⟩
  · exact .inr ⟨eq_other h, at_pc_of_ne s pc h⟩

theorem Consistent.lamp_eq (h : Consistent s) {want : Bool} (hled : s.gate.ledOn = want)
    (hwant : want = s.gate.want) : s.gate.lamp = want := by
  rcases h.stored with hs | ⟨side, hs⟩
  · rw [← hs, hled]
  · have := h.aims side s.gate.lamp (by rw [hs]; rfl)
    rw [this, hwant]

/-- A thread that does not come from the frames, and does not go to them, moves on. -/
theorem Consistent.move (h : Consistent s) {side : Side} {pc : Pc}
    (haims : ∀ want, pc.aims = some want → want = s.gate.want)
    (harm : pc = .armLoaded → s.gate.identifying .arm = false)
    (hfrom : ∀ want, s.pc side ≠ .switched want) (hto : ∀ want, pc ≠ .switched want) :
    Consistent (s.at side pc) where
  aims := by
    intro t want ht
    rcases pc_cases s side pc t with ⟨-, hpc⟩ | ⟨-, hpc⟩ <;> rw [hpc] at ht
    · exact haims want ht
    · exact h.aims t want ht
  arm_clear := by
    intro t ht
    rcases pc_cases s side pc t with ⟨-, hpc⟩ | ⟨-, hpc⟩ <;> rw [hpc] at ht
    · exact harm ht
    · exact h.arm_clear t ht
  switched := by
    intro t want ht
    rcases pc_cases s side pc t with ⟨-, hpc⟩ | ⟨-, hpc⟩ <;> rw [hpc] at ht
    · exact absurd ht (hto want)
    · exact h.switched t want ht
  stored := by
    refine h.stored.imp_right ?_
    rintro ⟨t, ht⟩
    have hne : t ≠ side := by
      rintro rfl
      exact hfrom _ ht
    exact ⟨t, by rw [at_pc_of_ne s pc hne]; exact ht⟩
  shown := h.shown

theorem Consistent.with_shown (h : Consistent s) (hlamp : s.gate.lamp = s.gate.want) :
    Consistent { s with shown := true } :=
  ⟨h.aims, h.arm_clear, h.switched, h.stored, fun _ => hlamp⟩

theorem Consistent.call (h : Consistent s) {side : Side} {identifying : Bool}
    (hidle : s.pc side = .idle) (hok : Undisturbed s (.call side identifying)) :
    Consistent (next s (.call side identifying)) := by
  by_cases hsame : s.gate.identifying side = identifying
  · have hnext : next s (.call side identifying) = s.at side .stored := by
      have hgate : s.gate.setIdentifying side identifying = s.gate := by
        rw [Gate.setIdentifying, ← hsame, Function.update_eq_self]
      simp only [next, hgate, hsame, decide_true, Bool.and_true]
      rfl
    rw [hnext]
    exact h.move (by intro want hw; cases hw) (by intro hw; cases hw)
      (by intro want hw; rw [hidle] at hw; cases hw) (by intro want hw; cases hw)
  · have hother : s.pc side.other = .idle := hok.resolve_left hsame
    have hpc : ∀ t, (next s (.call side identifying)).pc t = .stored ∨
        (next s (.call side identifying)).pc t = .idle := by
      intro t
      rcases pc_cases s side .stored t with ⟨-, ht⟩ | ⟨rfl, ht⟩
      · exact .inl ht
      · exact .inr (ht.trans hother)
    have hnone : ∀ t want, s.pc t ≠ .switched want := by
      intro t want ht
      by_cases he : t = side
      · rw [he, hidle] at ht
        cases ht
      · rw [eq_other he, hother] at ht
        cases ht
    exact {
      aims := by
        intro t want ht
        rcases hpc t with hs | hs <;> rw [hs] at ht <;> cases ht
      arm_clear := by
        intro t ht
        rcases hpc t with hs | hs <;> rw [hs] at ht <;> cases ht
      switched := by
        intro t want ht
        rcases hpc t with hs | hs <;> rw [hs] at ht <;> cases ht
      stored := .inl (h.stored.resolve_right fun ⟨t, ht⟩ => hnone t _ ht)
      shown := by
        intro hshown
        simp [next, hsame] at hshown }

theorem Consistent.load (h : Consistent s) {side : Side} : Consistent (next s (.load side)) := by
  simp only [next, State.load]
  split
  · next hpc =>
    refine h.move ?_ ?_ (by intro want hw; rw [hpc] at hw; cases hw) ?_ <;> split
    · next harm =>
      intro want hw
      cases hw
      simp [Gate.want, harm]
    · intro want hw
      cases hw
    · intro hw
      cases hw
    · next harm =>
      intro _
      simpa using harm
    · intro want hw
      cases hw
    · intro want hw
      cases hw
  · next hpc =>
    refine h.move ?_ (by intro hw; cases hw) (by intro want hw; rw [hpc] at hw; cases hw)
      (by intro want hw; cases hw)
    intro want hw
    cases hw
    simp [Gate.want, h.arm_clear side hpc]
  · next want hpc =>
    have hwant : want = s.gate.want := h.aims side want (by rw [hpc]; rfl)
    have hfrom : ∀ w, s.pc side ≠ .switched w := by
      intro w hw
      rw [hpc] at hw
      cases hw
    split
    · next hled =>
      have hlamp := h.lamp_eq hled.symm hwant
      refine Consistent.with_shown ?_ (hlamp.trans hwant)
      exact h.move (by intro w hw; cases hw) (by intro hw; cases hw) hfrom
        (by intro w hw; cases hw)
    · refine h.move ?_ (by intro hw; cases hw) hfrom (by intro w hw; cases hw)
      intro w hw
      cases hw
      exact hwant
  · exact h

/-- The LED is switched to what is wanted, so that it stays what the other thread may have shown. -/
theorem Consistent.send (h : Consistent s) {side : Side} {sent : Bool} :
    Consistent (next s (.send side sent)) := by
  simp only [next, State.send]
  split
  · next want hpc =>
    have hwant : want = s.gate.want := h.aims side want (by rw [hpc]; rfl)
    have hfrom : ∀ w, s.pc side ≠ .switched w := by
      intro w hw
      rw [hpc] at hw
      cases hw
    cases sent with
    | false =>
      exact h.move (by intro w hw; cases hw) (by intro hw; cases hw) hfrom
        (by intro w hw; cases hw)
    | true =>
      exact {
        aims := by
          intro t w ht
          rcases pc_cases s side (.switched want) t with ⟨-, hs⟩ | ⟨-, hs⟩
          · have : w = want := by
              have ht : ((s.at side (.switched want)).pc t).aims = some w := ht
              rw [hs] at ht
              cases ht
              rfl
            rw [this]
            exact hwant
          · have ht : ((s.at side (.switched want)).pc t).aims = some w := ht
            rw [hs] at ht
            exact h.aims t w ht
        arm_clear := by
          intro t ht
          have ht : (s.at side (.switched want)).pc t = .armLoaded := ht
          rcases pc_cases s side (.switched want) t with ⟨-, hs⟩ | ⟨-, hs⟩ <;> rw [hs] at ht
          · cases ht
          · exact h.arm_clear t ht
        switched := by
          intro t w ht
          have ht : (s.at side (.switched want)).pc t = .switched w := ht
          rcases pc_cases s side (.switched want) t with ⟨-, hs⟩ | ⟨-, hs⟩ <;> rw [hs] at ht
          · cases ht
            rfl
          · exact hwant.trans (h.aims t w (by rw [ht]; rfl)).symm
        stored := .inr ⟨side, at_pc_self s side _⟩
        shown := fun _ => hwant }
  · exact h

theorem Consistent.store (h : Consistent s) {side : Side} : Consistent (next s (.store side)) := by
  simp only [next, State.store]
  split
  · next want hpc =>
    have hlamp : s.gate.lamp = want := h.switched side want hpc
    have hwant : want = s.gate.want := h.aims side want (by rw [hpc]; rfl)
    exact {
      aims := by
        intro t w ht
        have ht : ((s.at side .idle).pc t).aims = some w := ht
        rcases pc_cases s side .idle t with ⟨-, hs⟩ | ⟨-, hs⟩ <;> rw [hs] at ht
        · cases ht
        · exact h.aims t w ht
      arm_clear := by
        intro t ht
        have ht : (s.at side .idle).pc t = .armLoaded := ht
        rcases pc_cases s side .idle t with ⟨-, hs⟩ | ⟨-, hs⟩ <;> rw [hs] at ht
        · cases ht
        · exact h.arm_clear t ht
      switched := by
        intro t w ht
        have ht : (s.at side .idle).pc t = .switched w := ht
        rcases pc_cases s side .idle t with ⟨-, hs⟩ | ⟨-, hs⟩ <;> rw [hs] at ht
        · cases ht
        · exact h.switched t w ht
      stored := .inl hlamp.symm
      shown := fun _ => hlamp.trans hwant }
  · exact h

theorem Consistent.step (h : Consistent s) {e : Event} (he : Enabled s e) (hok : Undisturbed s e) :
    Consistent (next s e) := by
  cases e with
  | call side identifying => exact h.call he hok
  | load side => exact h.load
  | send side sent => exact h.send
  | store side => exact h.store

theorem run_consistent {events : List Event}
    (h : Follows Enabled next Undisturbed start events) : Consistent (events.foldl next start) :=
  (path_of_follows h).invariant start_consistent fun _ _ he hok hs => hs.step he hok

/-- However the steps of the two channels come between each other, where frames that could not be sent
leave the LED as it was: as long as a flag changes only while the other channel is not synchronizing,
the LED shows whether either channel identifies from the first synchronization that returns on, and the
gate knows the LED whenever both threads are idle. -/
theorem shows_identifying {events : List Event}
    (h : Follows Enabled next Undisturbed start events) :
    ((events.foldl next start).shown = true →
      (events.foldl next start).gate.lamp = (events.foldl next start).gate.want) ∧
    ((∀ side, (events.foldl next start).pc side = .idle) →
      (events.foldl next start).gate.ledOn = (events.foldl next start).gate.lamp) := by
  have hs := run_consistent h
  refine ⟨hs.shown, fun hidle => hs.stored.resolve_right ?_⟩
  rintro ⟨side, ht⟩
  rw [hidle side] at ht
  cases ht

end Shown

section Overlap

/-- Both threads switch the LED on for the arm, and the first frames to switch it off fail. -/
def crossedEvents : List Event :=
  [.call .arm true, .load .arm, .call .eef false, .load .eef, .load .arm, .load .eef,
    .send .arm true, .send .eef true, .store .eef, .store .arm,
    .call .arm false, .load .arm, .load .arm, .load .arm, .send .arm false,
    .call .arm false, .load .arm, .load .arm, .load .arm, .send .arm true, .store .arm]

theorem crossed_shown : Follows Enabled next Undisturbed start crossedEvents ∧
    (crossedEvents.foldl next start).shown = true ∧
    (crossedEvents.foldl next start).gate.lamp = false := by
  have h : Follows Enabled next Undisturbed start crossedEvents := by decide
  have hshown : (crossedEvents.foldl next start).shown = true := by decide
  refine ⟨h, hshown, ?_⟩
  rw [(shows_identifying h).1 hshown]
  decide

/-- The gripper starts to identify between the arm's load and its frames: the LED goes out, and stays
out while the gripper identifies, its synchronization having returned. -/
def darkEvents : List Event :=
  [.call .arm true, .load .arm, .load .arm, .send .arm true, .store .arm,
    .call .arm false, .load .arm, .load .arm, .load .arm,
    .call .eef true, .load .eef, .load .eef, .load .eef,
    .send .arm true, .store .arm]

theorem dark_while_identifying :
    Follows Enabled next (fun _ _ => True) start darkEvents ∧
    (∀ side, (darkEvents.foldl next start).pc side = .idle) ∧
    (darkEvents.foldl next start).gate.want = true ∧
    (darkEvents.foldl next start).gate.lamp = false := by
  refine ⟨by decide, ?_, by decide, by decide⟩
  intro side
  cases side <;> decide

end Overlap

end IdentifyLed
