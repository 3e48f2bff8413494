import Rollio.DroppingQueues
import Mathlib.Logic.Function.Basic

/-! The clients of the control server: each starts from the stored snapshot and goes on with what
its broadcast queue holds, while the poll loop writes the snapshot and then broadcasts. -/
namespace ControlClients
open DroppingQueues

inductive ControlServerRole where
  | setup | collect
  deriving DecidableEq, Repr

structure StateMessage where
  number : ℕ
  json : String
  deriving DecidableEq, Repr

inductive OutboundMessage where
  | state (message : StateMessage)
  | backpressure (json : String)
  deriving DecidableEq, Repr

def OutboundMessage.state? : OutboundMessage → Option StateMessage
  | .state message => some message
  | .backpressure _ => none

inductive Phase where
  | handshaking | greeting | connected
  deriving DecidableEq, Repr

structure Client where
  phase : Phase := .handshaking
  queue : List OutboundMessage := []
  /-- The initial snapshot, once it has been read. -/
  snapshot : Option StateMessage := none
  /-- What it has been sent out of its queue. -/
  forwarded : List OutboundMessage := []
  deriving DecidableEq, Repr

def Client.sent (c : Client) : List OutboundMessage :=
  (if c.phase = .connected then c.snapshot.toList.map .state else []) ++ c.forwarded

def Client.push (m : OutboundMessage) (c : Client) : Client :=
  { c with queue := enqueue 64 c.queue m }

structure Server where
  published : List StateMessage := []
  latestSnapshot : Option StateMessage := none
  /-- A state that is in the snapshot and has not been broadcast yet. -/
  pending : Option StateMessage := none
  clients : ℕ → Option Client := fun _ => none

def Server.broadcast (s : Server) (m : OutboundMessage) : Server :=
  { s with clients := fun i => (s.clients i).map (Client.push m) }

def Server.setClient (s : Server) (i : ℕ) (c : Option Client) : Server :=
  { s with clients := Function.update s.clients i c }

def Server.publish (s : Server) (json : String) : Server :=
  let latest : StateMessage := { number := s.published.length, json }
  { s with
    published := s.published ++ [latest]
    latestSnapshot := some latest
    pending := some latest }

inductive Action where
  /-- The poll loop drains the states that have come and writes the last of them. -/
  | pollState (samples : List String)
  | broadcastState
  | broadcastBackpressure (json : String)
  | accept (i : ℕ)
  | readSnapshot (i : ℕ)
  | greet (i : ℕ)
  | forward (i : ℕ)
  | leave (i : ℕ)
  deriving DecidableEq, Repr

/-- One call of `poll_once` is its state, that state's broadcast, and then, in the collect role,
any number of backpressure messages. -/
def Server.step (role : ControlServerRole) (s : Server) : Action → Option Server
  | .pollState samples =>
    if s.pending.isSome then none
    else
      match samples.getLast? with
      | none => some s
      | some json => some (s.publish json)
  | .broadcastState =>
    match s.pending with
    | none => none
    | some latest => some { s.broadcast (.state latest) with pending := none }
  | .broadcastBackpressure json =>
    if role = .collect ∧ s.pending = none then some (s.broadcast (.backpressure json)) else none
  | .accept i =>
    match s.clients i with
    | none => some (s.setClient i (some {}))
    | some _ => none
  | .readSnapshot i =>
    match s.clients i with
    | some c =>
      if c.phase = .handshaking then
        some (s.setClient i (some { c with phase := .greeting, snapshot := s.latestSnapshot }))
      else none
    | none => none
  | .greet i =>
    match s.clients i with
    | some c =>
      if c.phase = .greeting then some (s.setClient i (some { c with phase := .connected }))
      else none
    | none => none
  | .forward i =>
    match s.clients i with
    | some c =>
      match c.phase, c.queue with
      | .connected, m :: rest =>
        some (s.setClient i (some { c with queue := rest, forwarded := c.forwarded ++ [m] }))
      | _, _ => none
    | none => none
  | .leave i => some (s.setClient i none)

def statesOf (ms : List OutboundMessage) : List StateMessage := ms.filterMap OutboundMessage.state?

def Client.told (c : Client) : List StateMessage := c.snapshot.toList ++ statesOf c.forwarded

/-- One more message would drop the only state that a client has yet to be sent, and it is not the
one that the client was told last. -/
def Client.Loses (c : Client) : Prop :=
  c.phase ≠ .handshaking ∧ 64 ≤ c.queue.length ∧
    ∃ m rest, c.queue = .state m :: rest ∧ statesOf rest = [] ∧ c.told.getLast? ≠ some m

/-- No backpressure message drops such a state. -/
def Keeps (s : Server) (a : Action) : Prop :=
  ∀ json, a = .broadcastBackpressure json → ∀ i c, s.clients i = some c → ¬ c.Loses

inductive Run (role : ControlServerRole) (allowed : Server → Action → Prop) : Server → Prop where
  | start : Run role allowed {}
  | step {s s' : Server} {a : Action} : Run role allowed s → allowed s a →
      s.step role a = some s' → Run role allowed s'

/-- With nothing left to send, the last state sent is the last one published. -/
def Current (s : Server) : Prop :=
  ∀ i c, s.clients i = some c → s.pending = none → c.phase = .connected → c.queue = [] →
    (statesOf c.sent).getLast? = s.published.getLast?

def Newer (initial : Option StateMessage) (m : StateMessage) : Prop :=
  ∀ m' ∈ initial, m'.number < m.number

instance (initial : Option StateMessage) (m : StateMessage) : Decidable (Newer initial m) :=
  match initial with
  | none => isTrue (by rintro _ ⟨⟩)
  | some m' => decidable_of_iff (m'.number < m.number) (by simp [Newer])

/-- A client is sent its initial snapshot and then, without those that are not newer, the states
in the order of their publication. -/
def Ordered (s : Server) : Prop :=
  ∀ i c, s.clients i = some c → c.sent = [] ∨
    ∃ later, statesOf c.sent = c.snapshot.toList ++ later ∧
      (c.snapshot.toList ++ later.filter (Newer c.snapshot)).Sublist s.published

variable {role : ControlServerRole} {allowed : Server → Action → Prop} {s s' : Server} {a : Action}
  {c : Client} {m : OutboundMessage}

inductive Moves (role : ControlServerRole) (s : Server) : Action → Server → Prop where
  | unchanged (samples : List String) : s.pending = none → Moves role s (.pollState samples) s
  | publish (samples : List String) (json : String) : s.pending = none →
      Moves role s (.pollState samples) (s.publish json)
  | broadcastState (latest : StateMessage) : s.pending = some latest →
      Moves role s .broadcastState { s.broadcast (.state latest) with pending := none }
  | broadcastBackpressure (json : String) : role = .collect → s.pending = none →
      Moves role s (.broadcastBackpressure json) (s.broadcast (.backpressure json))
  | accept (i : ℕ) : Moves role s (.accept i) (s.setClient i (some {}))
  | readSnapshot (i : ℕ) (c : Client) : s.clients i = some c → c.phase = .handshaking →
      Moves role s (.readSnapshot i)
        (s.setClient i (some { c with phase := .greeting, snapshot := s.latestSnapshot }))
  | greet (i : ℕ) (c : Client) : s.clients i = some c → c.phase = .greeting →
      Moves role s (.greet i) (s.setClient i (some { c with phase := .connected }))
  | forward (i : ℕ) (c : Client) (m : OutboundMessage) (rest : List OutboundMessage) :
      s.clients i = some c → c.phase = .connected → c.queue = m :: rest →
      Moves role s (.forward i)
        (s.setClient i (some { c with queue := rest, forwarded := c.forwarded ++ [m] }))
  | leave (i : ℕ) : Moves role s (.leave i) (s.setClient i none)

theorem step_moves (h : s.step role a = some s') : Moves role s a s' := by
  cases a with
  | pollState samples =>
    simp only [Server.step] at h
    split at h
    · cases h
    · next hpending =>
      rw [Bool.not_eq_true, Option.isSome_eq_false_iff, Option.isNone_iff_eq_none] at hpending
      cases hlast : samples.getLast? with
      | none =>
        rw [hlast] at h
        cases h
        exact .unchanged samples hpending
      | some json =>
        rw [hlast] at h
        cases h
        exact .publish samples json hpending
  | broadcastState =>
    simp only [Server.step] at h
    cases hpending : s.pending with
    | none => rw [hpending] at h; cases h
    | some latest =>
      rw [hpending] at h
      cases h
      exact .broadcastState latest hpending
  | broadcastBackpressure json =>
    simp only [Server.step] at h
    split at h
    · next hguard =>
      cases h
      exact .broadcastBackpressure json hguard.1 hguard.2
    · cases h
  | accept i =>
    simp only [Server.step] at h
    split at h
    · cases h
      exact .accept i
    · cases h
  | readSnapshot i =>
    simp only [Server.step] at h
    split at h
    · next c hc =>
      split at h
      · next hphase =>
        cases h
        exact .readSnapshot i c hc hphase
      · cases h
    · cases h
  | greet i =>
    simp only [Server.step] at h
    split at h
    · next c hc =>
      split at h
      · next hphase =>
        cases h
        exact .greet i c hc hphase
      · cases h
    · cases h
  | forward i =>
    simp only [Server.step] at h
    split at h
    · next c hc =>
      split at h
      · next m rest hphase hqueue =>
        cases h
        exact .forward i c m rest hc hphase hqueue
      · cases h
    · cases h
  | leave i =>
    cases h
    exact .leave i

structure Client.Sound (s : Server) (c : Client) : Prop where
  unread : c.phase = .handshaking → c.snapshot = none
  unsent : c.phase ≠ .connected → c.forwarded = []
  snapshot : ∀ m ∈ c.snapshot, m ∈ s.published
  ordered : (statesOf c.forwarded ++ statesOf c.queue ++ s.pending.toList).Sublist s.published
  newest : s.pending = none → ∀ m ∈ (statesOf c.queue).getLast?, s.published.getLast? = some m

structure Server.Sound (s : Server) : Prop where
  numbered : s.published.Pairwise (·.number < ·.number)
  bounded : ∀ m ∈ s.published, m.number < s.published.length
  latest : s.latestSnapshot = s.published.getLast?
  pending : ∀ m ∈ s.pending, s.published.getLast? = some m
  clients : ∀ i c, s.clients i = some c → c.Sound s

def Client.UpToDate (s : Server) (c : Client) : Prop :=
  s.pending = none → c.phase ≠ .handshaking → statesOf c.queue = [] →
    c.told.getLast? = s.published.getLast?

@[simp] theorem statesOf_append (ms ms' : List OutboundMessage) :
    statesOf (ms ++ ms') = statesOf ms ++ statesOf ms' := List.filterMap_append

theorem setClient_cases {i j : ℕ} {c d : Option Client} (h : (s.setClient i c).clients j = d) :
    j = i ∧ d = c ∨ s.clients j = d := by
  simp only [Server.setClient] at h
  by_cases hj : j = i
  · subst j
    exact .inl ⟨rfl, by rw [← h, Function.update_self]⟩
  · exact .inr (by rw [← h, Function.update_of_ne hj])

theorem Server.Sound.setClient {i : ℕ} (h : s.Sound) (hc : c.Sound s) :
    (s.setClient i (some c)).Sound := by
  refine ⟨h.numbered, h.bounded, h.latest, h.pending, ?_⟩
  intro j d hd
  obtain ⟨-, hnew⟩ | hold := setClient_cases hd
  · cases hnew
    exact ⟨hc.unread, hc.unsent, hc.snapshot, hc.ordered, hc.newest⟩
  · have hd := h.clients j d hold
    exact ⟨hd.unread, hd.unsent, hd.snapshot, hd.ordered, hd.newest⟩

theorem Server.Sound.publish (h : s.Sound) (hpending : s.pending = none) (json : String) :
    (s.publish json).Sound := by
  constructor
  · simp only [Server.publish]
    rw [List.pairwise_append]
    refine ⟨h.numbered, List.pairwise_singleton _ _, ?_⟩
    intro m hm m' hm'
    cases List.mem_singleton.mp hm'
    exact h.bounded m hm
  · intro m hm
    simp only [Server.publish, List.length_append, List.length_singleton] at hm ⊢
    obtain hold | hnew := List.mem_append.mp hm
    · exact Nat.lt_succ_of_lt (h.bounded m hold)
    · cases List.mem_singleton.mp hnew
      exact Nat.lt_succ_self _
  · simp [Server.publish]
  · intro m hm
    cases hm
    simp [Server.publish]
  · intro i c hc
    have hsound := h.clients i c hc
    constructor
    · exact hsound.unread
    · exact hsound.unsent
    · intro m hm
      exact List.mem_append_left _ (hsound.snapshot m hm)
    · have hordered := hsound.ordered
      rw [hpending, Option.toList_none, List.append_nil] at hordered
      exact hordered.append (List.Sublist.refl _)
    · intro hnone
      cases hnone

theorem Client.Sound.broadcastState {latest : StateMessage} (h : c.Sound s)
    (hs : s.Sound) (hpending : s.pending = some latest) :
    (c.push (.state latest)).Sound { s.broadcast (.state latest) with pending := none } := by
  obtain ⟨rest, hrest, hpushed⟩ := filterMap_enqueue_some (f := OutboundMessage.state?)
    (n := 64) (q := c.queue) (a := .state latest) rfl
  have hqueue : statesOf (c.push (.state latest)).queue = rest ++ [latest] := hpushed
  constructor
  · exact h.unread
  · exact h.unsent
  · exact h.snapshot
  · have hordered := h.ordered
    rw [hpending] at hordered
    rw [hqueue, Option.toList_none, List.append_nil]
    apply List.Sublist.trans _ hordered
    rw [← List.append_assoc]
    exact ((List.Sublist.refl _).append hrest).append_right _
  · intro _ m hm
    rw [hqueue, List.getLast?_concat] at hm
    cases hm
    exact hs.pending latest hpending

theorem Client.Sound.broadcastBackpressure (h : c.Sound s) (json : String) :
    (c.push (.backpressure json)).Sound (s.broadcast (.backpressure json)) := by
  have hqueue : statesOf (c.push (.backpressure json)).queue = statesOf c.queue ∨
      ∃ m rest, statesOf c.queue = m :: rest ∧
        statesOf (c.push (.backpressure json)).queue = rest := by
    obtain hsame | ⟨_, rest, m, -, -, -, hold, hnew⟩ := filterMap_enqueue_none
      (f := OutboundMessage.state?) (n := 64) (q := c.queue) (a := .backpressure json) rfl
    · exact .inl hsame
    · exact .inr ⟨m, _, hold, hnew⟩
  constructor
  · exact h.unread
  · exact h.unsent
  · exact h.snapshot
  · apply List.Sublist.trans _ h.ordered
    apply List.Sublist.append_right
    apply List.Sublist.append_left
    obtain hsame | ⟨m, rest, hold, hnew⟩ := hqueue
    · rw [hsame]
    · rw [hold, hnew]
      exact List.sublist_cons_self m rest
  · intro hnone m hm
    obtain hsame | ⟨m', rest, hold, hnew⟩ := hqueue
    · rw [hsame] at hm
      exact h.newest hnone m hm
    · apply h.newest hnone
      rw [hnew] at hm
      rw [hold, List.getLast?_cons, hm]
      rfl

theorem Server.Sound.step (h : s.Sound) (hs : s.step role a = some s') : s'.Sound := by
  cases step_moves hs with
  | unchanged => exact h
  | publish samples json hpending => exact h.publish hpending json
  | broadcastState latest hpending =>
    refine ⟨h.numbered, h.bounded, h.latest, by rintro _ ⟨⟩, ?_⟩
    intro i c' hc'
    obtain ⟨c, hc, rfl⟩ := Option.map_eq_some_iff.mp hc'
    exact (h.clients i c hc).broadcastState h hpending
  | broadcastBackpressure json =>
    refine ⟨h.numbered, h.bounded, h.latest, h.pending, ?_⟩
    intro i c' hc'
    obtain ⟨c, hc, rfl⟩ := Option.map_eq_some_iff.mp hc'
    exact (h.clients i c hc).broadcastBackpressure json
  | accept i =>
    apply h.setClient
    refine ⟨fun _ => rfl, fun _ => rfl, by rintro _ ⟨⟩, ?_, by rintro _ _ ⟨⟩⟩
    cases hpending : s.pending with
    | none => exact List.nil_sublist _
    | some latest =>
      exact List.singleton_sublist.mpr (List.mem_of_getLast? (h.pending latest hpending))
  | readSnapshot i c hc hphase =>
    have hsound := h.clients i c hc
    apply h.setClient
    refine ⟨by rintro ⟨⟩, fun _ => hsound.unsent (by simp [hphase]), ?_, hsound.ordered,
      hsound.newest⟩
    intro m hm
    rw [h.latest] at hm
    exact List.mem_of_getLast? hm
  | greet i c hc hphase =>
    have hsound := h.clients i c hc
    apply h.setClient
    exact ⟨by rintro ⟨⟩, fun hp => absurd rfl hp, hsound.snapshot, hsound.ordered,
      hsound.newest⟩
  | forward i c m rest hc hphase hqueue =>
    have hsound := h.clients i c hc
    apply h.setClient
    constructor
    · intro hp
      rw [hphase] at hp
      cases hp
    · intro hp
      exact absurd hphase hp
    · exact hsound.snapshot
    · have hordered := hsound.ordered
      rw [hqueue] at hordered
      have hsplit : statesOf (c.forwarded ++ [m]) ++ statesOf rest =
          statesOf c.forwarded ++ statesOf (m :: rest) := by
        rw [statesOf_append, List.append_assoc, ← statesOf_append, List.singleton_append]
      rw [hsplit]
      exact hordered
    · intro hnone m' hm'
      apply hsound.newest hnone
      rw [hqueue, ← List.singleton_append, statesOf_append, List.getLast?_append, hm']
      rfl
  | leave i =>
    refine ⟨h.numbered, h.bounded, h.latest, h.pending, ?_⟩
    intro j d hd
    obtain ⟨-, hnone⟩ | hold := setClient_cases hd
    · cases hnone
    · have hd := h.clients j d hold
      exact ⟨hd.unread, hd.unsent, hd.snapshot, hd.ordered, hd.newest⟩

theorem Run.sound (h : Run role allowed s) : s.Sound := by
  induction h with
  | start => exact ⟨.nil, by simp, rfl, by simp, by simp⟩
  | step _ _ hs ih => exact ih.step hs

theorem Client.Sound.only (h : c.Sound s) (hnone : s.pending = none) {latest : StateMessage}
    (hqueue : statesOf c.queue = [latest]) : s.published.getLast? = some latest := by
  apply h.newest hnone
  rw [hqueue]
  rfl

theorem Client.UpToDate.broadcastBackpressure (h : c.UpToDate s) (hsound : c.Sound s)
    (hkeeps : ¬ c.Loses) (json : String) :
    (c.push (.backpressure json)).UpToDate (s.broadcast (.backpressure json)) := by
  intro hnone hphase hempty
  obtain hsame | ⟨m, rest, latest, hqueue, hfull, hm, hold, hnew⟩ := filterMap_enqueue_none
    (f := OutboundMessage.state?) (n := 64) (q := c.queue) (a := .backpressure json) rfl
  · exact h hnone hphase (hsame.symm.trans hempty)
  · have hrest : statesOf rest = [] := hnew.symm.trans hempty
    have honly : statesOf c.queue = [latest] := by
      rw [← hrest]
      exact hold
    refine Eq.trans ?_ (hsound.only hnone honly).symm
    by_contra htold
    have hstate : m = .state latest := by
      cases m with
      | state message => cases hm; rfl
      | backpressure json => cases hm
    subst m
    exact hkeeps ⟨hphase, hfull, latest, rest, hqueue, hrest, htold⟩

theorem Client.UpToDate.forward {rest : List OutboundMessage} (h : c.UpToDate s)
    (hsound : c.Sound s) (hphase : c.phase = .connected) (hqueue : c.queue = m :: rest) :
    { c with queue := rest, forwarded := c.forwarded ++ [m] }.UpToDate s := by
  intro hnone _ hempty
  have hempty : statesOf rest = [] := hempty
  rw [Client.told, statesOf_append, ← List.append_assoc]
  cases m with
  | state latest =>
    have honly : statesOf c.queue = [latest] := by
      rw [hqueue, ← List.singleton_append, statesOf_append, hempty]
      rfl
    rw [hsound.only hnone honly]
    exact List.getLast?_concat ..
  | backpressure json =>
    have hnothing : statesOf c.queue = [] := by
      rw [hqueue, ← List.singleton_append, statesOf_append, hempty]
      rfl
    rw [← h hnone (by simp [hphase]) hnothing]
    exact congrArg List.getLast? (List.append_nil _)

theorem upToDate_step (h : s.Sound) (hup : ∀ i c, s.clients i = some c → c.UpToDate s)
    (hkeeps : role = .setup ∨ Keeps s a) (hs : s.step role a = some s') :
    ∀ i c, s'.clients i = some c → c.UpToDate s' := by
  -- A step of one client leaves the others as they are.
  have hset : ∀ {i : ℕ} {c : Client}, c.UpToDate s → ∀ j d,
      (s.setClient i (some c)).clients j = some d → d.UpToDate (s.setClient i (some c)) := by
    intro i c hc j d hd
    obtain ⟨-, hnew⟩ | hold := setClient_cases hd
    · cases hnew
      exact hc
    · exact hup j d hold
  cases step_moves hs with
  | unchanged => exact hup
  | publish =>
    intro i c hc hnone
    cases hnone
  | broadcastState latest hpending =>
    intro i c' hc' _ _ hempty
    obtain ⟨c, hc, rfl⟩ := Option.map_eq_some_iff.mp hc'
    obtain ⟨rest, -, hpushed⟩ := filterMap_enqueue_some (f := OutboundMessage.state?)
      (n := 64) (q := c.queue) (a := .state latest) rfl
    have hnil : rest ++ [latest] = [] := hpushed.symm.trans hempty
    simp at hnil
  | broadcastBackpressure json hrole =>
    intro i c' hc'
    obtain ⟨c, hc, rfl⟩ := Option.map_eq_some_iff.mp hc'
    have hkeeps : ¬ c.Loses := by
      obtain hsetup | hkeeps := hkeeps
      · rw [hrole] at hsetup
        cases hsetup
      · exact hkeeps json rfl i c hc
    exact (hup i c hc).broadcastBackpressure (h.clients i c hc) hkeeps json
  | accept i =>
    apply hset
    intro _ hphase
    exact absurd rfl hphase
  | readSnapshot i c hc hphase =>
    apply hset
    intro _ _ _
    have hforwarded := (h.clients i c hc).unsent (by simp [hphase])
    rw [Client.told, hforwarded, ← h.latest]
    cases s.latestSnapshot <;> rfl
  | greet i c hc hphase =>
    apply hset
    intro hnone _ hempty
    exact hup i c hc hnone (by simp [hphase]) hempty
  | forward i c m rest hc hphase hqueue =>
    exact hset ((hup i c hc).forward (h.clients i c hc) hphase hqueue)
  | leave i =>
    intro j d hd
    obtain ⟨-, hnone⟩ | hold := setClient_cases hd
    · cases hnone
    · exact hup j d hold

theorem Run.upToDate (h : Run role allowed s)
    (hallowed : role = .setup ∨ ∀ s a, allowed s a → Keeps s a) :
    ∀ i c, s.clients i = some c → c.UpToDate s := by
  induction h with
  | start =>
    intro i c hc
    cases hc
  | step hrun ha hs ih =>
    exact upToDate_step hrun.sound ih (hallowed.imp_right fun hkeeps => hkeeps _ _ ha) hs

theorem statesOf_sent (h : c.phase = .connected) : statesOf c.sent = c.told := by
  rw [Client.sent, if_pos h, statesOf_append, Client.told]
  cases c.snapshot <;> rfl

theorem Server.Sound.sent_ordered (h : s.Sound) : Ordered s := by
  intro i c hc
  have hsound := h.clients i c hc
  by_cases hphase : c.phase = .connected
  · have hforwarded : (statesOf c.forwarded).Sublist s.published := by
      refine List.Sublist.trans ?_ hsound.ordered
      rw [List.append_assoc]
      exact List.sublist_append_left _ _
    refine .inr ⟨statesOf c.forwarded, statesOf_sent hphase, ?_⟩
    cases hsnapshot : c.snapshot with
    | none => exact List.filter_sublist.trans hforwarded
    | some initial =>
      have hinitial := hsound.snapshot initial hsnapshot
      have hsublist := cons_filter_sublist (r := fun m m' => m.number < m'.number)
        (fun _ => Nat.lt_irrefl _) (fun _ _ => Nat.lt_asymm) h.numbered hinitial hforwarded
      have hnewer : (statesOf c.forwarded).filter (Newer (some initial)) =
          (statesOf c.forwarded).filter fun m => initial.number < m.number := by
        apply List.filter_congr
        intro m _
        simp [Newer]
      rw [hnewer]
      exact hsublist
  · left
    rw [Client.sent, if_neg hphase, hsound.unsent hphase]
    rfl

/-- In every run the clients are sent states in order; and they are left with the latest one in
the setup role, and in the collect role if no backpressure message drops a client's last state. -/
theorem clients_current (h : Run role allowed s) :
    Ordered s ∧ ((role = .setup ∨ ∀ s a, allowed s a → Keeps s a) → Current s) := by
  constructor
  · exact h.sound.sent_ordered
  · intro hallowed i c hc hnone hphase hqueue
    have hup := h.upToDate hallowed i c hc hnone (by simp [hphase]) (by rw [hqueue]; rfl)
    rw [statesOf_sent hphase]
    exact hup

def Server.runAll (role : ControlServerRole) : Server → List Action → Option Server
  | s, [] => some s
  | s, a :: rest => (s.step role a).bind fun next => next.runAll role rest

theorem Run.runAll {as : List Action} (hallowed : ∀ t, ∀ a ∈ as, allowed t a)
    (h : Run role allowed s) (hs : s.runAll role as = some s') : Run role allowed s' := by
  induction as generalizing s with
  | nil =>
    cases hs
    exact h
  | cons a rest ih =>
    obtain ⟨next, hnext, hrest⟩ := Option.bind_eq_some_iff.mp hs
    exact ih (fun t b hb => hallowed t b (List.mem_cons_of_mem a hb))
      (h.step (hallowed s a List.mem_cons_self) hnext) hrest

def watching : List Action :=
  [.pollState ["idle"], .accept 0, .readSnapshot 0, .broadcastState, .greet 0, .forward 0]

def watched : Server := (Server.runAll .setup {} watching).getD {}

def recording : List Action :=
  [.accept 0, .readSnapshot 0, .greet 0, .pollState ["recording"], .broadcastState]

def recorded : Server := (Server.runAll .collect {} recording).getD {}

def notified : Server :=
  (Server.runAll .collect recorded [.broadcastBackpressure "full", .forward 0, .forward 0]).getD {}

theorem recorded_keeps : Keeps recorded (.broadcastBackpressure "full") := by
  intro json _ i c hc hloses
  have hlength : c.queue.length = 1 := by
    cases i with
    | zero =>
      cases hc
      rfl
    | succ i => cases hc
  have hfull := hloses.2.1
  omega

theorem notified_run : Run .collect Keeps notified := by
  have hrecorded : Run .collect Keeps recorded := by
    refine Run.start.runAll (fun t a ha json hjson => ?_)
      (rfl : Server.runAll .collect {} recording = some recorded)
    subst hjson
    simp [recording] at ha
  have hforwarded : (recorded.broadcast (.backpressure "full")).runAll .collect
      [.forward 0, .forward 0] = some notified := rfl
  refine (hrecorded.step recorded_keeps rfl).runAll (fun t a ha json hjson => ?_) hforwarded
  subst hjson
  simp at ha

theorem clients_current_watched :
    (Ordered watched ∧ Current watched) ∧ Ordered notified ∧ Current notified := by
  have hwatched : Run .setup (fun _ _ => True) watched :=
    Run.start.runAll (fun _ _ _ => True.intro)
      (rfl : Server.runAll .setup {} watching = some watched)
  obtain ⟨hordered, hcurrent⟩ := clients_current hwatched
  obtain ⟨hordered', hcurrent'⟩ := clients_current notified_run
  exact ⟨⟨hordered, hcurrent (.inl rfl)⟩, hordered', hcurrent' (.inr fun _ _ hkeeps => hkeeps)⟩

def crowding : List Action :=
  [.accept 0, .readSnapshot 0, .greet 0, .pollState ["recording"], .broadcastState] ++
    List.replicate 64 (.broadcastBackpressure "full") ++ List.replicate 64 (.forward 0)

def crowded : Server := (Server.runAll .collect {} crowding).getD {}

theorem crowded_client_not_current :
    ¬ ∀ s, Run .collect (fun _ _ => True) s → Current s := by
  intro h
  have hsome : (Server.runAll .collect {} crowding).isSome := by decide +kernel
  obtain ⟨s, hs⟩ := Option.isSome_iff_exists.mp hsome
  have hcrowded : crowded = s := by rw [crowded, hs, Option.getD_some]
  have hrun : Run .collect (fun _ _ => True) crowded := by
    rw [hcrowded]
    exact Run.start.runAll (fun _ _ _ => True.intro) hs
  have hclient : (crowded.clients 0).map (fun c => (c.phase, c.queue, statesOf c.sent)) =
      some (.connected, [], []) := by decide +kernel
  obtain ⟨c, hc, heq⟩ := Option.map_eq_some_iff.mp hclient
  obtain ⟨hphase, hqueue, hsent⟩ := Prod.mk.injEq .. ▸ Prod.mk.injEq .. ▸ heq
  have hlast := h crowded hrun 0 c hc (by decide +kernel) hphase hqueue
  rw [hsent] at hlast
  exact absurd hlast (by decide +kernel)

end ControlClients
