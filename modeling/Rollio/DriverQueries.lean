import Rollio.TerminatingRuns
import Rollio.Text
import Mathlib.Algebra.GroupWithZero.Nat
import Mathlib.Algebra.Order.Group.Nat
import Mathlib.Algebra.BigOperators.Group.List.Basic

/-! A driver that is queried: a process that writes to two pipes of a fixed capacity, and the parent
that waits for its exit before it reads them. Times are nanoseconds. -/
namespace DriverQueries
open TerminatingRuns Text

inductive Stream where
  | stdout
  | stderr
  deriving DecidableEq

/-- A driver's process: its bytes, each with the time it computes before the write, and the time
from there to its exit. -/
structure Driver where
  script : List (ℕ × Stream × UInt8)
  linger : ℕ := 0
  success : Bool := true

def written (script : List (ℕ × Stream × UInt8)) (p : Stream) : List UInt8 :=
  (script.filter fun w => w.2.1 = p).map fun w => w.2.2

def Driver.output (d : Driver) : Stream → List UInt8 := written d.script

def computing (script : List (ℕ × Stream × UInt8)) (linger : ℕ) : ℕ :=
  (script.map fun w => w.1).sum + linger

def Driver.time (d : Driver) : ℕ := computing d.script d.linger

inductive DriverCommandError where
  | io (program : String)
  | timeout (program args : String)
  | failed (program args details : String)
  | invalidJson (program stdout : String)
  deriving DecidableEq

inductive Parent (Value : Type) where
  | polling (wake : ℕ)
  | readingStdout (output : List UInt8)
  | readingStderr (stdout : String) (output : List UInt8)
  | returned (result : Except DriverCommandError Value)

structure State (Value : Type) where
  now : ℕ := 0
  script : List (ℕ × Stream × UInt8)
  linger : ℕ
  exited : Bool := false
  pipe : Stream → List UInt8 := fun _ => []
  parent : Parent Value := .polling 0

def spawn {Value : Type} (d : Driver) : State Value where
  script := d.script
  linger := d.linger

structure Query (Value : Type) where
  program : String
  args : List String
  timeout : ℕ
  fromStr : String → Option Value

/-- The pause between two looks at the child, in nanoseconds. -/
def pollInterval : ℕ := 10000000

def fromUtf8 (bytes : List UInt8) : Option String := String.fromUTF8? ⟨bytes.toArray⟩

section Run
variable {Value : Type} (query : Query Value) (capacity slack : ℕ) (d : Driver)

def Query.argsDisplay : String := " ".intercalate query.args

/-- The child's next step; none while it computes, while its pipe is full and after its exit. -/
def childStep (s : State Value) : Option (State Value) :=
  match s.script, s.linger with
  | (0, p, b) :: rest, _ =>
    if (s.pipe p).length < capacity then
      some { s with script := rest, pipe := Function.update s.pipe p (s.pipe p ++ [b]) }
    else none
  | (_ + 1, _) :: _, _ => none
  | [], 0 => if s.exited then none else some { s with exited := true }
  | [], _ + 1 => none

def tick (s : State Value) : State Value :=
  match s.script with
  | (k + 1, w) :: rest => { s with now := s.now + 1, script := (k, w) :: rest }
  | (0, _) :: _ => { s with now := s.now + 1 }
  | [] => { s with now := s.now + 1, linger := s.linger - 1 }

/-- One turn of the loop: `try_wait`, then the deadline, then the pause. -/
def poll (s : State Value) : Parent Value :=
  if s.exited then .readingStdout []
  else if query.timeout ≤ s.now then
    .returned (.error (.timeout query.program query.argsDisplay))
  else .polling (s.now + pollInterval)

def endStdout (output : List UInt8) : Parent Value :=
  match fromUtf8 output with
  | none => .returned (.error (.io query.program))
  | some stdout => .readingStderr stdout []

def conclude (stdout stderr : String) : Except DriverCommandError Value :=
  if d.success = false then
    .error (.failed query.program query.argsDisplay
      (if blank stderr then trim stdout else trim stderr))
  else match query.fromStr (trim stdout) with
    | none => .error (.invalidJson query.program stdout)
    | some value => .ok value

def endStderr (stdout : String) (output : List UInt8) : Parent Value :=
  match fromUtf8 output with
  | none => .returned (.error (.io query.program))
  | some stderr => .returned (conclude query d stdout stderr)

/-- One step of the child, the clock or the parent. The child never waits but for a full pipe, and
the parent is late for a poll by `slack` at most; the time its reads take does not matter. -/
inductive Step : State Value → State Value → Prop where
  | child {s s' : State Value} (hrun : ∀ r, s.parent ≠ .returned r)
      (h : childStep capacity s = some s') : Step s s'
  | tick {s : State Value} {wake : ℕ} (hparent : s.parent = .polling wake)
      (htime : s.now < wake + slack) (hidle : childStep capacity s = none) : Step s (tick s)
  | poll {s : State Value} {wake : ℕ} (hparent : s.parent = .polling wake)
      (hwake : wake ≤ s.now) : Step s { s with parent := poll query s }
  | readStdout {s : State Value} {output chunk rest : List UInt8}
      (hparent : s.parent = .readingStdout output) (hpipe : s.pipe .stdout = chunk ++ rest)
      (hne : chunk ≠ []) :
      Step s { s with
        pipe := Function.update s.pipe .stdout rest
        parent := .readingStdout (output ++ chunk) }
  | endStdout {s : State Value} {output : List UInt8}
      (hparent : s.parent = .readingStdout output) (hpipe : s.pipe .stdout = [])
      (hexited : s.exited) : Step s { s with parent := endStdout query output }
  | readStderr {s : State Value} {stdout : String} {output chunk rest : List UInt8}
      (hparent : s.parent = .readingStderr stdout output)
      (hpipe : s.pipe .stderr = chunk ++ rest) (hne : chunk ≠ []) :
      Step s { s with
        pipe := Function.update s.pipe .stderr rest
        parent := .readingStderr stdout (output ++ chunk) }
  | endStderr {s : State Value} {stdout : String} {output : List UInt8}
      (hparent : s.parent = .readingStderr stdout output) (hpipe : s.pipe .stderr = [])
      (hexited : s.exited) : Step s { s with parent := endStderr query d stdout output }

/-- Every run of the query comes to an end, and it has then returned the result. -/
def Returns (result : Except DriverCommandError Value) : Prop :=
  Leads (Step query capacity slack d) (spawn d) fun s => s.parent = .returned result

end Run

section Child
variable {Value : Type} {capacity : ℕ} {s s' : State Value}

theorem childStep_cases (h : childStep capacity s = some s') :
    (∃ p b rest, s.script = (0, p, b) :: rest ∧ (s.pipe p).length < capacity ∧
      s' = { s with script := rest, pipe := Function.update s.pipe p (s.pipe p ++ [b]) }) ∨
    (s.script = [] ∧ s.linger = 0 ∧ s.exited = false ∧ s' = { s with exited := true }) := by
  unfold childStep at h
  split at h
  case h_1 p b rest hscript =>
    split at h
    · exact .inl ⟨p, b, rest, hscript, ‹_›, (Option.some.inj h).symm⟩
    · cases h
  case h_2 => cases h
  case h_3 hscript hlinger =>
    split at h
    · cases h
    · exact .inr ⟨hscript, hlinger, Bool.eq_false_of_not_eq_true ‹_›, (Option.some.inj h).symm⟩
  case h_4 => cases h

theorem childStep_none (h : childStep capacity s = none) :
    (∃ p b rest, s.script = (0, p, b) :: rest ∧ capacity ≤ (s.pipe p).length) ∨
    (∃ k w rest, s.script = (k + 1, w) :: rest) ∨
    (s.script = [] ∧ (s.exited = false → 0 < s.linger)) := by
  unfold childStep at h
  split at h
  case h_1 p b rest hscript =>
    split at h
    · cases h
    · exact .inl ⟨p, b, rest, hscript, Nat.le_of_not_lt ‹_›⟩
  case h_2 k w rest hscript => exact .inr (.inl ⟨k, w, rest, hscript⟩)
  case h_3 hscript hlinger =>
    split at h
    · rename_i hexited
      exact .inr (.inr ⟨hscript, fun hrun => absurd (hexited.symm.trans hrun) nofun⟩)
    · cases h
  case h_4 n hscript hlinger => exact .inr (.inr ⟨hscript, fun _ => hlinger ▸ Nat.succ_pos n⟩)

@[simp] theorem tick_now (s : State Value) : (tick s).now = s.now + 1 := by
  unfold tick
  split <;> rfl

@[simp] theorem tick_exited (s : State Value) : (tick s).exited = s.exited := by
  unfold tick
  split <;> rfl

@[simp] theorem tick_pipe (s : State Value) : (tick s).pipe = s.pipe := by
  unfold tick
  split <;> rfl

@[simp] theorem tick_parent (s : State Value) : (tick s).parent = s.parent := by
  unfold tick
  split <;> rfl

@[simp] theorem tick_script_length (s : State Value) :
    (tick s).script.length = s.script.length := by
  unfold tick
  split <;> simp [*]

@[simp] theorem written_tick (s : State Value) (p : Stream) :
    written (tick s).script p = written s.script p := by
  unfold tick
  split
  · rename_i k w rest h
    rw [h, written, written, List.filter_cons, List.filter_cons]
    split <;> rfl
  · rfl
  · rfl

theorem tick_script_nil (h : s.script = []) : (tick s).script = [] := by
  rw [← List.length_eq_zero_iff, tick_script_length, h, List.length_nil]

end Child

section Ending
variable {Value : Type} {query : Query Value} {capacity slack : ℕ} {d : Driver}
  {s s' : State Value}

def reads : Parent Value → Prop
  | .readingStdout _ => True
  | .readingStderr _ _ => True
  | _ => False

structure Sound (query : Query Value) (s : State Value) : Prop where
  exited : s.exited → s.script = []
  reading : reads s.parent → s.exited
  waking : ∀ wake, s.parent = .polling wake → wake ≤ query.timeout + pollInterval

def ahead (query : Query Value) : Parent Value → ℕ
  | .polling wake => query.timeout + pollInterval - wake + 3
  | .readingStdout _ => 2
  | .readingStderr _ _ => 1
  | .returned _ => 0

def remaining (query : Query Value) (slack : ℕ) (s : State Value) : ℕ :=
  2 * s.script.length + (s.pipe .stdout).length + (s.pipe .stderr).length +
    (if s.exited then 0 else 1) + (query.timeout + pollInterval + slack - s.now) +
    ahead query s.parent

theorem sound_spawn : Sound query (spawn d) := by
  refine ⟨nofun, nofun, fun wake h => ?_⟩
  cases h
  exact Nat.zero_le _

theorem poll_cases (query : Query Value) (s : State Value) :
    (s.exited ∧ poll query s = .readingStdout []) ∨
    (s.exited = false ∧ query.timeout ≤ s.now ∧
      poll query s = .returned (.error (.timeout query.program query.argsDisplay))) ∨
    (s.exited = false ∧ s.now < query.timeout ∧
      poll query s = .polling (s.now + pollInterval)) := by
  unfold poll
  split
  · exact .inl ⟨‹_›, rfl⟩
  · split
    · exact .inr (.inl ⟨Bool.eq_false_of_not_eq_true ‹_›, ‹_›, rfl⟩)
    · exact .inr (.inr ⟨Bool.eq_false_of_not_eq_true ‹_›, Nat.lt_of_not_le ‹_›, rfl⟩)

theorem endStdout_cases (query : Query Value) (output : List UInt8) :
    (∃ r, endStdout query output = .returned r) ∨
      ∃ stdout, endStdout query output = .readingStderr stdout [] := by
  unfold endStdout
  split
  · exact .inl ⟨_, rfl⟩
  · exact .inr ⟨_, rfl⟩

theorem endStderr_returned (query : Query Value) (d : Driver) (stdout : String)
    (output : List UInt8) : ∃ r, endStderr query d stdout output = .returned r := by
  unfold endStderr
  split <;> exact ⟨_, rfl⟩

theorem Sound.step (hs : Sound query s) (h : Step query capacity slack d s s') :
    Sound query s' := by
  cases h with
  | child _ h =>
    obtain ⟨p, b, rest, hscript, -, rfl⟩ | ⟨hscript, -, -, rfl⟩ := childStep_cases h
    · refine ⟨fun hexited => ?_, hs.reading, hs.waking⟩
      rw [hs.exited hexited] at hscript
      cases hscript
    · exact ⟨fun _ => hscript, fun _ => rfl, hs.waking⟩
  | tick hparent _ _ =>
    refine ⟨fun hexited => tick_script_nil (hs.exited (tick_exited s ▸ hexited)), ?_, ?_⟩
    · rw [tick_parent, tick_exited]
      exact hs.reading
    · rw [tick_parent]
      exact hs.waking
  | poll hparent hwake =>
    refine ⟨hs.exited, ?_, ?_⟩ <;>
      obtain ⟨hexited, hpoll⟩ | ⟨-, -, hpoll⟩ | ⟨-, hearly, hpoll⟩ := poll_cases query s <;>
      dsimp only <;> rw [hpoll]
    · exact fun _ => hexited
    · exact nofun
    · exact nofun
    · exact nofun
    · exact nofun
    · intro wake h
      cases h
      omega
  | readStdout hparent _ _ =>
    have hexited : s.exited := hs.reading (by rw [hparent]; trivial)
    exact ⟨hs.exited, fun _ => hexited, nofun⟩
  | endStdout hparent _ hexited =>
    refine ⟨hs.exited, fun _ => hexited, ?_⟩
    obtain ⟨r, hend⟩ | ⟨stdout, hend⟩ := endStdout_cases query _ <;> dsimp only <;> rw [hend] <;>
      exact nofun
  | readStderr hparent _ _ =>
    have hexited : s.exited := hs.reading (by rw [hparent]; trivial)
    exact ⟨hs.exited, fun _ => hexited, nofun⟩
  | endStderr hparent _ hexited =>
    refine ⟨hs.exited, fun _ => hexited, ?_⟩
    obtain ⟨r, hend⟩ := endStderr_returned query d _ _
    dsimp only
    rw [hend]
    exact nofun

theorem length_update (pipe : Stream → List UInt8) (p : Stream) (l : List UInt8) :
    (Function.update pipe p l .stdout).length + (Function.update pipe p l .stderr).length +
      (pipe p).length = (pipe .stdout).length + (pipe .stderr).length + l.length := by
  cases p with
  | stdout => simp; omega
  | stderr => simp; omega

/-- Every step brings the end nearer. -/
theorem Sound.remaining_lt (hs : Sound query s) (h : Step query capacity slack d s s') :
    remaining query slack s' < remaining query slack s := by
  unfold remaining
  cases h with
  | child _ h =>
    obtain ⟨p, b, rest, hscript, -, rfl⟩ | ⟨-, -, hexited, rfl⟩ := childStep_cases h
    · have hlength := length_update s.pipe p (s.pipe p ++ [b])
      rw [List.length_append, List.length_singleton] at hlength
      dsimp only
      rw [hscript, List.length_cons]
      omega
    · dsimp only
      rw [hexited, if_pos rfl, if_neg Bool.false_ne_true]
      omega
  | tick hparent htime _ =>
    have hwake := hs.waking _ hparent
    rw [tick_script_length, tick_pipe, tick_exited, tick_now, tick_parent]
    omega
  | poll hparent hwake =>
    rw [hparent]
    obtain ⟨-, hpoll⟩ | ⟨-, -, hpoll⟩ | ⟨-, hearly, hpoll⟩ := poll_cases query s <;>
      dsimp only <;> rw [hpoll] <;> dsimp only [ahead]
    · omega
    · omega
    · have : 0 < pollInterval := by decide
      omega
  | readStdout hparent hpipe hne =>
    have := List.length_pos_iff.2 hne
    simp [hparent, hpipe, ahead]
    omega
  | endStdout hparent _ _ =>
    obtain ⟨r, hend⟩ | ⟨stdout, hend⟩ := endStdout_cases query _ <;> dsimp only <;>
      rw [hparent, hend] <;> dsimp only [ahead] <;> omega
  | readStderr hparent hpipe hne =>
    have := List.length_pos_iff.2 hne
    simp [hparent, hpipe, ahead]
    omega
  | endStderr hparent _ _ =>
    obtain ⟨r, hend⟩ := endStderr_returned query d _ _
    dsimp only
    rw [hparent, hend]
    dsimp only [ahead]
    omega

/-- A run that has not returned has a next step. -/
theorem Sound.returned_of_end (hs : Sound query s)
    (hend : ∀ s', ¬Step query capacity slack d s s') : ∃ r, s.parent = .returned r := by
  cases hparent : s.parent with
  | returned r => exact ⟨r, rfl⟩
  | polling wake =>
    exfalso
    rcases Nat.lt_or_ge s.now wake with hlt | hge
    · cases hchild : childStep capacity s with
      | some s' => exact hend s' (.child (by simp [hparent]) hchild)
      | none => exact hend _ (.tick hparent (by omega) hchild)
    · exact hend _ (.poll hparent hge)
  | readingStdout output =>
    exfalso
    cases hpipe : s.pipe .stdout with
    | nil => exact hend _ (.endStdout hparent hpipe (hs.reading (by rw [hparent]; trivial)))
    | cons b rest =>
      have hfirst : s.pipe .stdout = [b] ++ rest := hpipe
      exact hend _ (.readStdout hparent hfirst nofun)
  | readingStderr stdout output =>
    exfalso
    cases hpipe : s.pipe .stderr with
    | nil => exact hend _ (.endStderr hparent hpipe (hs.reading (by rw [hparent]; trivial)))
    | cons b rest =>
      have hfirst : s.pipe .stderr = [b] ++ rest := hpipe
      exact hend _ (.readStderr hparent hfirst nofun)

theorem returns_of {P : State Value → Prop} {result : Except DriverCommandError Value}
    (start : P (spawn d))
    (step : ∀ s s', Sound query s → P s → Step query capacity slack d s s' → P s')
    (final : ∀ s r, P s → s.parent = .returned r → r = result) :
    Returns query capacity slack d result := by
  refine Leads.of_measure (P := fun s => Sound query s ∧ P s) (μ := remaining query slack)
    (fun s s' hs h => ⟨hs.1.step h, step s s' hs.1 hs.2 h⟩) (fun s s' hs h => hs.1.remaining_lt h)
    ⟨sound_spawn, start⟩ fun s hs hend => ?_
  obtain ⟨r, hr⟩ := hs.1.returned_of_end hend
  rw [hr, final s r hs.2 hr]

theorem Returns.unique {r r' : Except DriverCommandError Value}
    (h : Returns query capacity slack d r) (h' : Returns query capacity slack d r') : r = r' := by
  obtain ⟨s, hr, hr'⟩ := h.exists_both h'
  rw [hr] at hr'
  exact Parent.returned.inj hr'

end Ending

section Pipes
variable {Value : Type} {query : Query Value} {capacity slack : ℕ} {d : Driver}
  {s s' : State Value}

/-- What the driver has not lost of its output before the parent reads. -/
def Unread (d : Driver) (s : State Value) : Prop :=
  ∀ p, s.pipe p ++ written s.script p = d.output p

theorem written_cons_self (k : ℕ) (p : Stream) (b : UInt8) (rest : List (ℕ × Stream × UInt8)) :
    written ((k, p, b) :: rest) p = b :: written rest p := by
  simp [written]

theorem written_cons_ne {p q : Stream} (h : p ≠ q) (k : ℕ) (b : UInt8)
    (rest : List (ℕ × Stream × UInt8)) : written ((k, p, b) :: rest) q = written rest q := by
  simp [written, h]

theorem Unread.write {p : Stream} {b : UInt8} {rest : List (ℕ × Stream × UInt8)}
    (h : Unread d s) (hscript : s.script = (0, p, b) :: rest) :
    Unread d { s with script := rest, pipe := Function.update s.pipe p (s.pipe p ++ [b]) } := by
  intro q
  rw [← h q, hscript]
  dsimp only
  by_cases hq : p = q
  · subst hq
    rw [written_cons_self, Function.update_self, List.append_assoc, List.singleton_append]
  · rw [written_cons_ne hq, Function.update_of_ne (Ne.symm hq)]

theorem Unread.tick (h : Unread d s) : Unread d (tick s) := by
  intro p
  rw [tick_pipe, written_tick]
  exact h p

/-- A pipe with room for the whole output is not full before the last byte of it. -/
theorem Unread.length_lt {k : ℕ} {p : Stream} {b : UInt8} {rest : List (ℕ × Stream × UInt8)}
    (h : Unread d s) (hscript : s.script = (k, p, b) :: rest)
    (hfits : (d.output p).length ≤ capacity) : (s.pipe p).length < capacity := by
  have hlength := congrArg List.length (h p)
  rw [hscript, written_cons_self, List.length_append, List.length_cons] at hlength
  omega

def answer (query : Query Value) (d : Driver) : Except DriverCommandError Value :=
  match fromUtf8 (d.output .stdout), fromUtf8 (d.output .stderr) with
  | some stdout, some stderr => conclude query d stdout stderr
  | _, _ => .error (.io query.program)

/-- A driver whose pipes have room runs as if they were read, and is read as it wrote. -/
def Flows (query : Query Value) (d : Driver) (s : State Value) : Prop :=
  match s.parent with
  | .polling _ =>
    Unread d s ∧ (s.exited = false → s.now + computing s.script s.linger = d.time)
  | .readingStdout output =>
    output ++ s.pipe .stdout = d.output .stdout ∧ s.pipe .stderr = d.output .stderr
  | .readingStderr stdout output =>
    fromUtf8 (d.output .stdout) = some stdout ∧ output ++ s.pipe .stderr = d.output .stderr
  | .returned result => result = answer query d

theorem flows_polling {wake : ℕ} (hparent : s.parent = .polling wake) :
    Flows query d s ↔
      Unread d s ∧ (s.exited = false → s.now + computing s.script s.linger = d.time) := by
  rw [Flows, hparent]

theorem flows_readingStdout {output : List UInt8} (hparent : s.parent = .readingStdout output) :
    Flows query d s ↔
      output ++ s.pipe .stdout = d.output .stdout ∧ s.pipe .stderr = d.output .stderr := by
  rw [Flows, hparent]

theorem flows_readingStderr {stdout : String} {output : List UInt8}
    (hparent : s.parent = .readingStderr stdout output) :
    Flows query d s ↔ fromUtf8 (d.output .stdout) = some stdout ∧
      output ++ s.pipe .stderr = d.output .stderr := by
  rw [Flows, hparent]

theorem flows_returned {result : Except DriverCommandError Value}
    (hparent : s.parent = .returned result) : Flows query d s ↔ result = answer query d := by
  rw [Flows, hparent]

theorem flows_spawn : Flows query d (spawn d) :=
  (flows_polling rfl).2 ⟨fun _ => rfl, fun _ => Nat.zero_add _⟩

/-- Time that passes is time the driver computes. -/
theorem computing_tick (hfits : ∀ p, (d.output p).length ≤ capacity) (hs : Unread d s)
    (hexited : s.exited = false) (hidle : childStep capacity s = none) :
    (tick s).now + computing (tick s).script (tick s).linger =
      s.now + computing s.script s.linger := by
  obtain ⟨p, b, rest, hscript, hfull⟩ | ⟨k, w, rest, hscript⟩ | ⟨hscript, hlinger⟩ :=
    childStep_none hidle
  · exact absurd (hs.length_lt hscript (hfits p)) (Nat.not_lt_of_le hfull)
  · simp only [tick, hscript, computing, List.map_cons, List.sum_cons]
    omega
  · have hpos := hlinger hexited
    simp only [tick, hscript, computing, List.map_nil, List.sum_nil]
    omega

theorem Flows.step (hfits : ∀ p, (d.output p).length ≤ capacity) (htime : d.time < query.timeout)
    (hsound : Sound query s) (hs : Flows query d s) (h : Step query capacity slack d s s') :
    Flows query d s' := by
  cases h with
  | child hrun h =>
    cases hparent : s.parent with
    | returned r => exact absurd hparent (hrun r)
    | polling wake =>
      obtain ⟨hunread, hclock⟩ := (flows_polling hparent).1 hs
      obtain ⟨p, b, rest, hscript, -, rfl⟩ | ⟨hscript, -, -, rfl⟩ := childStep_cases h
      · simp only [Flows, hparent]
        refine ⟨hunread.write hscript, fun hexited => ?_⟩
        have hbefore := hclock hexited
        rw [hscript] at hbefore
        simpa only [computing, List.map_cons, List.sum_cons, Nat.zero_add] using hbefore
      · simp only [Flows, hparent]
        exact ⟨hunread, nofun⟩
    | readingStdout _ | readingStderr _ _ =>
      have hexited : s.exited := hsound.reading (by rw [hparent]; trivial)
      obtain ⟨p, b, rest, hscript, -, rfl⟩ | ⟨-, -, hrunning, -⟩ := childStep_cases h
      · rw [hsound.exited hexited] at hscript
        cases hscript
      · exact absurd (hexited.symm.trans hrunning) nofun
  | tick hparent _ hidle =>
    obtain ⟨hunread, hclock⟩ := (flows_polling hparent).1 hs
    refine (flows_polling ((tick_parent s).trans hparent)).2 ⟨hunread.tick, fun hexited => ?_⟩
    rw [tick_exited] at hexited
    rw [computing_tick hfits hunread hexited hidle, hclock hexited]
  | poll hparent _ =>
    obtain ⟨hunread, hclock⟩ := (flows_polling hparent).1 hs
    obtain ⟨hexited, hpoll⟩ | ⟨hexited, hlate, -⟩ | ⟨-, -, hpoll⟩ := poll_cases query s
    · refine (flows_readingStdout hpoll).2 ?_
      have hall (p : Stream) : s.pipe p = d.output p := by
        rw [← hunread p, hsound.exited hexited, written, List.filter_nil, List.map_nil,
          List.append_nil]
      exact ⟨hall .stdout, hall .stderr⟩
    · have hearly := hclock hexited
      omega
    · exact (flows_polling hpoll).2 ⟨hunread, hclock⟩
  | readStdout hparent hpipe _ =>
    obtain ⟨hstdout, hstderr⟩ := (flows_readingStdout hparent).1 hs
    refine (flows_readingStdout rfl).2 ⟨?_, ?_⟩
    · dsimp only
      rw [← hstdout, hpipe, Function.update_self, List.append_assoc]
    · dsimp only
      rw [Function.update_of_ne (by decide), hstderr]
  | endStdout hparent hpipe _ =>
    obtain ⟨hstdout, hstderr⟩ := (flows_readingStdout hparent).1 hs
    rw [hpipe, List.append_nil] at hstdout
    subst hstdout
    cases hdecode : fromUtf8 (d.output .stdout) with
    | none =>
      have hend : endStdout query (d.output .stdout) = .returned (.error (.io query.program)) := by
        rw [endStdout, hdecode]
      refine (flows_returned hend).2 ?_
      rw [answer, hdecode]
    | some stdout =>
      have hend : endStdout query (d.output .stdout) = .readingStderr stdout [] := by
        rw [endStdout, hdecode]
      exact (flows_readingStderr hend).2 ⟨hdecode, hstderr⟩
  | readStderr hparent hpipe _ =>
    obtain ⟨hstdout, hstderr⟩ := (flows_readingStderr hparent).1 hs
    refine (flows_readingStderr rfl).2 ⟨hstdout, ?_⟩
    dsimp only
    rw [← hstderr, hpipe, Function.update_self, List.append_assoc]
  | endStderr hparent hpipe hexited =>
    rename_i stdout output
    obtain ⟨hstdout, hstderr⟩ := (flows_readingStderr hparent).1 hs
    rw [hpipe, List.append_nil] at hstderr
    subst hstderr
    have hend : endStderr query d stdout (d.output .stderr) = .returned (answer query d) := by
      rw [endStderr, answer, hstdout]
      cases fromUtf8 (d.output .stderr) <;> rfl
    exact (flows_returned hend).2 rfl

theorem returns_answer (hfits : ∀ p, (d.output p).length ≤ capacity)
    (htime : d.time < query.timeout) :
    Returns query capacity slack d (answer query d) :=
  returns_of flows_spawn (fun _ _ hsound hs h => Flows.step hfits htime hsound hs h)
    fun _ _ hs hr => (flows_returned hr).1 hs

/-- A driver with more output than a pipe holds waits for the parent, which waits for its exit. -/
structure Stuck (query : Query Value) (capacity : ℕ) (d : Driver) (s : State Value) : Prop where
  running : s.exited = false
  unread : Unread d s
  room : ∀ p, (s.pipe p).length ≤ capacity
  waits : (∃ wake, s.parent = .polling wake) ∨
    s.parent = .returned (.error (.timeout query.program query.argsDisplay))

theorem Stuck.step {p : Stream} (hbig : capacity < (d.output p).length)
    (hs : Stuck query capacity d s) (h : Step query capacity slack d s s') :
    Stuck query capacity d s' := by
  have hwaits {parent : Parent Value} (hparent : s.parent = parent)
      (hread : reads parent) : False := by
    subst hparent
    obtain ⟨wake, hw⟩ | hw := hs.waits <;> rw [hw] at hread <;> exact hread
  cases h with
  | child _ h =>
    obtain ⟨q, b, rest, hscript, hroom, rfl⟩ | ⟨hscript, -, -, -⟩ := childStep_cases h
    · refine ⟨hs.running, hs.unread.write hscript, fun q' => ?_, hs.waits⟩
      dsimp only
      by_cases hq : q' = q
      · subst hq
        rw [Function.update_self, List.length_append, List.length_singleton]
        exact hroom
      · rw [Function.update_of_ne hq]
        exact hs.room q'
    · have hall := hs.unread p
      rw [hscript, written, List.filter_nil, List.map_nil, List.append_nil] at hall
      exact absurd (hall ▸ hs.room p) (Nat.not_le_of_lt hbig)
  | tick hparent _ _ =>
    refine ⟨(tick_exited s).trans hs.running, hs.unread.tick, fun q => ?_, ?_⟩
    · rw [tick_pipe]
      exact hs.room q
    · rw [tick_parent]
      exact hs.waits
  | poll hparent _ =>
    refine ⟨hs.running, hs.unread, hs.room, ?_⟩
    obtain ⟨hexited, -⟩ | ⟨-, -, hpoll⟩ | ⟨-, -, hpoll⟩ := poll_cases query s
    · exact absurd (hexited.symm.trans hs.running) nofun
    · exact .inr hpoll
    · exact .inl ⟨_, hpoll⟩
  | readStdout hparent _ _ => exact (hwaits hparent trivial).elim
  | endStdout hparent _ _ => exact (hwaits hparent trivial).elim
  | readStderr hparent _ _ => exact (hwaits hparent trivial).elim
  | endStderr hparent _ _ => exact (hwaits hparent trivial).elim

theorem returns_timeout {p : Stream} (hbig : capacity < (d.output p).length) :
    Returns query capacity slack d (.error (.timeout query.program query.argsDisplay)) := by
  refine returns_of (P := Stuck query capacity d)
    ⟨rfl, fun _ => rfl, fun _ => Nat.zero_le _, .inl ⟨0, rfl⟩⟩
    (fun s s' _ hs h => hs.step hbig h) fun s r hs hr => ?_
  obtain ⟨wake, hw⟩ | hw := hs.waits <;> rw [hw] at hr <;> cases hr
  rfl

end Pipes

section Answers
variable {Value : Type} {query : Query Value} {capacity slack : ℕ} {d : Driver}

/-- A driver that would be done in time and whose output is a value is answered with this value
when its whole output fits the pipes, and only then. -/
theorem query_answers_iff {stdout stderr : String} {value : Value} (hsuccess : d.success = true)
    (htime : d.time < query.timeout) (hstdout : fromUtf8 (d.output .stdout) = some stdout)
    (hstderr : fromUtf8 (d.output .stderr) = some stderr)
    (hvalue : query.fromStr (trim stdout) = some value) :
    Returns query capacity slack d (.ok value) ↔ ∀ p, (d.output p).length ≤ capacity := by
  constructor
  · intro hreturns p
    by_contra hbig
    cases hreturns.unique (returns_timeout (Nat.lt_of_not_le hbig))
  · intro hfits
    have hanswer : answer query d = .ok value := by
      rw [answer, hstdout, hstderr]
      dsimp only
      rw [conclude, hsuccess, if_neg nofun, hvalue]
    rw [← hanswer]
    exact returns_answer hfits htime

end Answers

def utf8 (text : String) : List UInt8 := text.toUTF8.data.toList

def printing (text : String) : Driver where
  script := (utf8 text).map fun b => (0, .stdout, b)

/-- The text of a JSON string without escapes. -/
def plainString (s : String) : Option String :=
  match s.toList with
  | '"' :: rest =>
    if rest.getLast? = some '"' ∧ '"' ∉ rest.dropLast ∧ '\\' ∉ rest.dropLast then
      some (String.ofList rest.dropLast)
    else none
  | _ => none

def cameraQuery : Query String where
  program := "rollio-device-v4l2"
  args := ["query", "--json", "/dev/video0"]
  timeout := 2000000000
  fromStr := plainString

theorem fromUtf8_utf8 (text : String) : fromUtf8 (utf8 text) = some text := by
  have hbytes : (⟨(utf8 text).toArray⟩ : ByteArray) = text.toByteArray := by
    rw [utf8, Array.toArray_toList]
    rfl
  rw [fromUtf8, hbytes, String.fromUTF8?, dif_pos text.isValidUTF8]
  rfl

theorem output_printing (text : String) :
    (printing text).output .stdout = utf8 text ∧ (printing text).output .stderr = [] := by
  rw [Driver.output, printing]
  generalize utf8 text = bytes
  induction bytes with
  | nil => exact ⟨rfl, rfl⟩
  | cons b rest ih =>
    rw [List.map_cons, written_cons_self, written_cons_ne (by decide)]
    exact ⟨congrArg _ ih.1, ih.2⟩

theorem time_printing (text : String) : (printing text).time = 0 := by
  simp [Driver.time, printing, computing, Function.comp_def]

theorem short_answer_returned :
    Returns cameraQuery 65536 0 (printing "\"ok\"") (.ok "ok") := by
  have hvalue : cameraQuery.fromStr (trim "\"ok\"") = some "ok" := by decide
  have hstderr : fromUtf8 [] = some "" := by decide
  refine (query_answers_iff rfl ?_ ?_ (?_ : fromUtf8 _ = some "") hvalue).2 ?_
  · rw [time_printing]
    decide
  · rw [(output_printing _).1, fromUtf8_utf8]
  · rw [(output_printing _).2]
    exact hstderr
  · rintro (_ | _)
    · rw [(output_printing _).1]
      decide
    · rw [(output_printing _).2]
      decide

def longText (n : ℕ) : String := String.ofList ('"' :: (List.replicate n 'a' ++ ['"']))

theorem utf8_ofList (chars : List Char) :
    utf8 (String.ofList chars) = chars.flatMap String.utf8EncodeChar := by
  simp [utf8, List.utf8Encode]

theorem utf8_longText (n : ℕ) : (utf8 (longText n)).length = n + 2 := by
  have hquote : String.utf8EncodeChar '"' = [34] := by decide
  have ha : String.utf8EncodeChar 'a' = [97] := by decide
  rw [longText, utf8_ofList, List.flatMap_cons, List.flatMap_append, List.flatMap_replicate,
    List.flatMap_singleton, hquote, ha]
  simp

theorem plainString_longText (n : ℕ) :
    plainString (trim (longText n)) = some (String.ofList (List.replicate n 'a')) := by
  have htrim : trim (longText n) = longText n := by
    rw [trim, longText, String.toList_ofList, List.dropWhile_cons_of_neg (by decide),
      ← List.cons_append, List.rdropWhile_concat_neg _ _ _ (by decide)]
  have hmem {c : Char} (hc : c ≠ 'a') : c ∉ List.replicate n 'a' :=
    fun h => hc (List.eq_of_mem_replicate h)
  rw [htrim, plainString, longText, String.toList_ofList]
  simp only [List.getLast?_concat, List.dropLast_concat]
  rw [if_pos ⟨trivial, hmem (by decide), hmem (by decide)⟩]

theorem longText_times_out {n : ℕ} (hn : 65536 < n + 2) (slack : ℕ) :
    Returns cameraQuery 65536 slack (printing (longText n))
      (.error (.timeout "rollio-device-v4l2" "query --json /dev/video0")) := by
  have hlength : 65536 < ((printing (longText n)).output .stdout).length := by
    rw [(output_printing _).1, utf8_longText]
    exact hn
  have hargs : cameraQuery.argsDisplay = "query --json /dev/video0" := by decide
  have htimeout : Returns cameraQuery 65536 slack (printing (longText n)) _ :=
    returns_timeout hlength
  rwa [hargs] at htimeout

theorem queried_longText {n : ℕ} (hn : 65536 < n + 2) :
    let d := printing (longText n)
    let letters := String.ofList (List.replicate n 'a')
    (d.success = true ∧ d.time < cameraQuery.timeout ∧
      fromUtf8 (d.output .stdout) = some (longText n) ∧
      fromUtf8 (d.output .stderr) = some "" ∧
      cameraQuery.fromStr (trim (longText n)) = some letters) ∧
    Returns cameraQuery 65536 0 d
      (.error (.timeout "rollio-device-v4l2" "query --json /dev/video0")) ∧
    ¬Returns cameraQuery 65536 0 d (.ok letters) := by
  intro d letters
  have htimeout := longText_times_out hn 0
  have hparser : cameraQuery.fromStr = plainString := rfl
  refine ⟨⟨rfl, ?_, ?_, ?_, hparser ▸ plainString_longText n⟩, htimeout,
    fun h => absurd (h.unique htimeout) nofun⟩
  · rw [time_printing]
    decide
  · rw [(output_printing _).1, fromUtf8_utf8]
  · rw [(output_printing _).2]
    decide

/-- With 70000 letters the answer never comes: the child waits for a reader and the parent for the
child's exit. -/
theorem long_answer_times_out :
    let d := printing (longText 70000)
    let letters := String.ofList (List.replicate 70000 'a')
    (d.success = true ∧ d.time < cameraQuery.timeout ∧
      fromUtf8 (d.output .stdout) = some (longText 70000) ∧
      fromUtf8 (d.output .stderr) = some "" ∧
      cameraQuery.fromStr (trim (longText 70000)) = some letters) ∧
    Returns cameraQuery 65536 0 d
      (.error (.timeout "rollio-device-v4l2" "query --json /dev/video0")) ∧
    ¬Returns cameraQuery 65536 0 d (.ok letters) :=
  queried_longText (by decide)

end DriverQueries
