import Rollio.Queues
import Mathlib.Data.List.Forall2

/-! A thread that takes commands from a channel one at a time, sends one answer for each to another
channel, and ends with an answer that is final. -/
namespace AnsweringWorkers
open Queues

structure Worker (γ ε : Type*) where
  commands : Queue γ := {}
  events : Queue ε := {}
  running : Bool := true

namespace Worker
variable {γ ε : Type*}

def send (w : Worker γ ε) (commands : List γ) : Worker γ ε :=
  { w with commands := w.commands.publish commands }

def work (final : ε → Bool) (w : Worker γ ε) (answer : γ → ε) : Worker γ ε :=
  match w.commands.pop with
  | none => w
  | some (command, commands) =>
    { commands := commands
      events := w.events.publish [answer command]
      running := !final (answer command) }

def take (w : Worker γ ε) : Option (ε × Worker γ ε) :=
  w.events.pop.map fun popped => (popped.1, { w with events := popped.2 })

@[simp] theorem send_events (w : Worker γ ε) (commands : List γ) :
    (w.send commands).events = w.events := rfl

@[simp] theorem log_send (w : Worker γ ε) (commands : List γ) :
    (w.send commands).commands.log = w.commands.log ++ commands := Queue.log_publish _ _

theorem work_log (final : ε → Bool) (w : Worker γ ε) (answer : γ → ε) :
    (w.work final answer).commands.log = w.commands.log := by
  unfold work
  cases hpop : w.commands.pop with
  | none => rfl
  | some popped =>
    obtain ⟨command, commands⟩ := popped
    exact Queue.log_pop hpop

theorem work_read (final : ε → Bool) (w : Worker γ ε) (answer : γ → ε) :
    (w.work final answer).events.received = w.events.received := by
  unfold work
  cases w.commands.pop <;> rfl

theorem take_spec {w w' : Worker γ ε} {event : ε} (h : w.take = some (event, w')) :
    w'.commands = w.commands ∧ w'.running = w.running ∧ w'.events.log = w.events.log ∧
      w'.events.received = w.events.received ++ [event] := by
  obtain ⟨⟨popped, events⟩, hpop, heq⟩ := Option.map_eq_some_iff.mp h
  cases heq
  exact ⟨rfl, rfl, Queue.log_pop hpop, (Queue.pop_spec hpop).2⟩

end Worker

section Soundness
variable {γ ε : Type*} {answers : γ → ε → Prop} {final : ε → Bool} {w w' : Worker γ ε}

/-- The answers so far, one for each command taken; only the last can be final. -/
structure Sound (answers : γ → ε → Prop) (final : ε → Bool) (w : Worker γ ε) : Prop where
  answers : List.Forall₂ answers w.commands.received w.events.log
  running : w.running = true → w.events.log.any final = false
  stopped : w.running = false →
    ∃ first last, w.events.log = first ++ [last] ∧ first.any final = false ∧ final last = true

theorem sound_fresh : Sound answers final {} where
  answers := .nil
  running := fun _ => rfl
  stopped := nofun

theorem Sound.send (h : Sound answers final w) (commands : List γ) :
    Sound answers final (w.send commands) := ⟨h.answers, h.running, h.stopped⟩

theorem Sound.work {answer : γ → ε} (h : Sound answers final w) (hrun : w.running = true)
    (hanswer : ∀ command, answers command (answer command)) :
    Sound answers final (w.work final answer) := by
  unfold Worker.work
  cases hpop : w.commands.pop with
  | none => exact h
  | some popped =>
    obtain ⟨command, commands⟩ := popped
    obtain ⟨-, hreceived⟩ := Queue.pop_spec hpop
    have hnone := h.running hrun
    refine ⟨?_, fun hstill => ?_, fun hend => ?_⟩
    · rw [hreceived, Queue.log_publish]
      exact List.rel_append h.answers (.cons (hanswer command) .nil)
    · have hopen : final (answer command) = false := by simpa using hstill
      rw [Queue.log_publish, List.any_append, hnone]
      simp [hopen]
    · have hfinal : final (answer command) = true := by simpa using hend
      exact ⟨w.events.log, answer command, Queue.log_publish _ _, hnone, hfinal⟩

theorem Sound.take {event : ε} (h : Sound answers final w) (htake : w.take = some (event, w')) :
    Sound answers final w' := by
  obtain ⟨hcommands, hrunning, hlog, -⟩ := Worker.take_spec htake
  exact ⟨by rw [hcommands, hlog]; exact h.answers, by rw [hrunning, hlog]; exact h.running,
    by rw [hrunning, hlog]; exact h.stopped⟩

theorem answers_concat {commands : List γ} {events : List ε} {last : ε}
    (h : List.Forall₂ answers commands (events ++ [last])) :
    ∃ first command, commands = first ++ [command] ∧ List.Forall₂ answers first events ∧
      answers command last := by
  induction events generalizing commands with
  | nil =>
    obtain ⟨command, rest, hlast, hrest, rfl⟩ := List.forall₂_cons_right_iff.mp h
    cases hrest
    exact ⟨[], command, rfl, .nil, hlast⟩
  | cons event events ih =>
    obtain ⟨command, rest, hevent, hrest, rfl⟩ := List.forall₂_cons_right_iff.mp h
    obtain ⟨first, command', rfl, hfirst, hlast⟩ := ih hrest
    exact ⟨command :: first, command', rfl, .cons hevent hfirst, hlast⟩

/-- Once a final answer is read, the thread has ended and every answer is read. -/
theorem Sound.complete (h : Sound answers final w) (hread : w.events.received.any final = true) :
    w.events.pending = [] ∧ ∃ commands command events event,
      w.commands.received = commands ++ [command] ∧
      w.events.received = events ++ [event] ∧ events.any final = false ∧ final event = true ∧
      List.Forall₂ answers commands events ∧ answers command event := by
  have hlog : w.events.log.any final = true := by
    rw [Queue.log, List.any_append, hread, Bool.true_or]
  have hstopped : w.running = false := by
    by_contra hrun
    rw [h.running (eq_true_of_ne_false hrun)] at hlog
    cases hlog
  obtain ⟨events, event, hevents, hopen, hfinal⟩ := h.stopped hstopped
  have hanswers := h.answers
  rw [hevents] at hanswers
  obtain ⟨commands, command, hcommands, hfirst, hlast⟩ := answers_concat hanswers
  rw [Queue.log] at hevents
  rcases List.eq_nil_or_concat w.events.pending with hnil | ⟨rest, last, hrest⟩
  · refine ⟨hnil, commands, command, events, event, hcommands, ?_, hopen, hfinal, hfirst, hlast⟩
    rw [← hevents, hnil, List.append_nil]
  · -- what is on its way would have to come after the final answer
    exfalso
    rw [hrest, List.concat_eq_append, ← List.append_assoc] at hevents
    obtain ⟨hfront, -⟩ := List.append_inj' hevents rfl
    rw [← hfront, List.any_append, hread, Bool.true_or] at hopen
    cases hopen

/-- What is read answers the commands in their order. -/
theorem Sound.read (h : Sound answers final w) :
    ∃ commands, commands <+: w.commands.received ∧
      List.Forall₂ answers commands w.events.received := by
  have hanswers := h.answers
  rw [Queue.log] at hanswers
  exact ⟨_, List.take_prefix _ _, List.forall₂_take_append _ _ _ hanswers⟩

end Soundness

end AnsweringWorkers
