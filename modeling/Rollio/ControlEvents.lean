import Rollio.ControllerEpisode

/-! What a subscriber may rely on about the order of the control topic: nothing about an
episode comes before its start, and an episode the controller has left was kept or discarded. -/
namespace ControlEvents
open BusMessages Clocks ControllerEpisode

def eventIndex? : ControlEvent → Option UInt32
  | .recordingStart i _ | .recordingStop i _ | .episodeKeep i | .episodeDiscard i => some i
  | .shutdown | .modeSwitch _ => none

def startIndex? : ControlEvent → Option UInt32
  | .recordingStart i _ => some i
  | _ => none

def startIndices (events : List ControlEvent) : List UInt32 := events.filterMap startIndex?

/-- No event of an episode precedes the episode's start. -/
def StartsFirst (events : List ControlEvent) : Prop :=
  events.Pairwise fun a b => ∀ i ∈ startIndex? b, eventIndex? a ≠ some i

/-- A keep comes behind the stop of its episode. -/
def StopsFirst (events : List ControlEvent) : Prop :=
  ∀ l r i, events = l ++ .episodeKeep i :: r → ∃ ts, .recordingStop i ts ∈ l

/-- No kept episode is discarded. -/
def KeptOnly (events : List ControlEvent) : Prop :=
  ∀ i, .episodeKeep i ∈ events → .episodeDiscard i ∉ events

@[simp] theorem startIndices_nil : startIndices [] = [] := rfl

@[simp] theorem startIndices_append (l m : List ControlEvent) :
    startIndices (l ++ m) = startIndices l ++ startIndices m := List.filterMap_append

theorem mem_startIndices {events : List ControlEvent} {i : UInt32} :
    i ∈ startIndices events ↔ ∃ ts, ControlEvent.recordingStart i ts ∈ events := by
  constructor
  · intro h
    obtain ⟨event, he, hi⟩ := List.mem_filterMap.mp h
    cases event <;> cases hi
    exact ⟨_, he⟩
  · rintro ⟨ts, h⟩
    exact List.mem_filterMap.mpr ⟨_, h, rfl⟩

theorem StartsFirst.nodup {events : List ControlEvent} (h : StartsFirst events) :
    (startIndices events).Nodup := by
  refine List.pairwise_filterMap.mpr (h.imp fun {a b} hab i hi j hj hij => ?_)
  cases a <;> cases hi
  exact hab j hj (by rw [← hij]; rfl)

theorem StartsFirst.fresh {received rest : List ControlEvent} {i : UInt32} {ts : UInt64}
    (h : StartsFirst (received ++ .recordingStart i ts :: rest)) :
    ∀ event ∈ received, eventIndex? event ≠ some i :=
  fun event he => (List.pairwise_append.mp h).2.2 event he _ List.mem_cons_self i rfl

section StopsFirst
variable {l m : List ControlEvent}

theorem StopsFirst.append (hl : StopsFirst l) (hm : StopsFirst m) : StopsFirst (l ++ m) := by
  intro a r i he
  obtain ⟨b, hb, hr⟩ | ⟨b, hb, hr⟩ := List.append_eq_append_iff.mp he
  · obtain ⟨ts, hts⟩ := hm b r i hr
    exact ⟨ts, hb ▸ List.mem_append_right l hts⟩
  · cases b with
    | nil =>
      obtain ⟨ts, hts⟩ := hm [] r i hr.symm
      cases hts
    | cons event b =>
      obtain ⟨rfl, -⟩ := List.cons_eq_cons.mp hr
      exact hl a b i hb

theorem StopsFirst.of_append (h : StopsFirst (l ++ m)) : StopsFirst l := by
  intro a r i he
  exact h a (r ++ m) i (by rw [he, List.append_assoc, List.cons_append])

theorem stopsFirst_of_no_keep (h : ∀ i, .episodeKeep i ∉ l) : StopsFirst l := by
  intro a r i he
  exact absurd (by simp [he]) (h i)

theorem stopsFirst_block {i : UInt32} {ts ts' : UInt64} {last : ControlEvent}
    (h : last = .episodeKeep i ∨ last = .episodeDiscard i) :
    StopsFirst [.recordingStart i ts, .recordingStop i ts', last] := by
  intro a r j he
  rcases h with rfl | rfl
  · obtain _ | ⟨x, _ | ⟨y, _ | ⟨z, a⟩⟩⟩ := a <;> simp at he
    obtain ⟨-, rfl, rfl, -⟩ := he
    exact ⟨ts', by simp⟩
  · obtain _ | ⟨x, _ | ⟨y, _ | ⟨z, a⟩⟩⟩ := a <;> simp at he

theorem StopsFirst.stopped {i : UInt32} (h : StopsFirst l) (hi : .episodeKeep i ∈ l) :
    ∃ ts, .recordingStop i ts ∈ l := by
  obtain ⟨a, r, rfl⟩ := List.append_of_mem hi
  obtain ⟨ts, hts⟩ := h a r i rfl
  exact ⟨ts, List.mem_append_left _ hts⟩

end StopsFirst

section Finished
variable {n₀ n : ℕ} {events : List ControlEvent}

/-- The three events of a finished block extend a property of event lists together. -/
theorem finished_induction {P : List ControlEvent → ℕ → Prop} (h : Finished n₀ events n)
    (nil : P [] n₀)
    (block : ∀ events i ts ts' last, last = .episodeKeep i ∨ last = .episodeDiscard i →
      P events i.toNat →
      P (events ++ [.recordingStart i ts, .recordingStop i ts', last]) (i.toNat + 1)) :
    P events n := by
  induction h with
  | nil => exact nil
  | keep ts ts' _ ih => exact block _ _ ts ts' _ (Or.inl rfl) ih
  | discard ts ts' _ ih => exact block _ _ ts ts' _ (Or.inr rfl) ih

theorem finished_bound (h : Finished n₀ events n) :
    ∀ event ∈ events, ∀ i ∈ eventIndex? event, i.toNat < n := by
  refine finished_induction (P := fun events n =>
    ∀ event ∈ events, ∀ i ∈ eventIndex? event, i.toNat < n) h (by simp) ?_
  intro events i ts ts' last hl ih event he j hj
  rcases List.mem_append.mp he with he | he
  · exact Nat.lt_succ_of_lt (ih event he j hj)
  · obtain rfl : j = i := by
      rcases hl with rfl | rfl <;> simp only [List.mem_cons, List.not_mem_nil, or_false] at he <;>
        rcases he with rfl | rfl | rfl <;> exact (Option.some.inj hj).symm
    exact Nat.lt_succ_self _

/-- A block whose index is new keeps the starts first. -/
theorem StartsFirst.append_block {done block : List ControlEvent} (h : StartsFirst done)
    {i : UInt32} {ts : UInt64} (hnew : ∀ event ∈ done, eventIndex? event ≠ some i)
    (hblock : ∀ event ∈ block, startIndex? event = none) :
    StartsFirst (done ++ .recordingStart i ts :: block) := by
  refine List.pairwise_append.mpr ⟨h, List.pairwise_cons.mpr ⟨?_, ?_⟩, ?_⟩
  · intro b hb j hj
    rw [hblock b hb] at hj
    cases hj
  · refine List.pairwise_of_forall_mem_list fun a _ b hb j hj => ?_
    rw [hblock b hb] at hj
    cases hj
  · intro a ha b hb j hj
    rcases List.mem_cons.mp hb with rfl | hb
    · cases hj
      exact hnew a ha
    · rw [hblock b hb] at hj
      cases hj

theorem bound_new {i : UInt32} (h : ∀ event ∈ events, ∀ j ∈ eventIndex? event, j.toNat < i.toNat) :
    ∀ event ∈ events, eventIndex? event ≠ some i :=
  fun event he hi => lt_irrefl _ (h event he i hi)

theorem finished_startsFirst (h : Finished n₀ events n) : StartsFirst events := by
  refine (finished_induction (P := fun events n => Finished n₀ events n ∧ StartsFirst events)
    h ⟨.nil, .nil⟩ ?_).2
  rintro events i ts ts' last hl ⟨hf, ih⟩
  have hs : StartsFirst (events ++ [.recordingStart i ts, .recordingStop i ts', last]) :=
    ih.append_block (bound_new (finished_bound hf))
      (by rcases hl with rfl | rfl <;> simp [startIndex?])
  rcases hl with rfl | rfl
  · exact ⟨hf.keep ts ts', hs⟩
  · exact ⟨hf.discard ts ts', hs⟩

theorem finished_indexed (h : Finished n₀ events n) :
    ∀ event ∈ events, (eventIndex? event).isSome = true := by
  refine finished_induction (P := fun events _ =>
    ∀ event ∈ events, (eventIndex? event).isSome = true) h (by simp) ?_
  intro events i ts ts' last hl ih event he
  rcases List.mem_append.mp he with he | he
  · exact ih event he
  · rcases hl with rfl | rfl <;> simp only [List.mem_cons, List.not_mem_nil, or_false] at he <;>
      rcases he with rfl | rfl | rfl <;> rfl

theorem finished_closed (h : Finished n₀ events n) :
    ∀ i ∈ startIndices events, .episodeKeep i ∈ events ∨ .episodeDiscard i ∈ events := by
  refine finished_induction (P := fun events _ => ∀ i ∈ startIndices events,
    .episodeKeep i ∈ events ∨ .episodeDiscard i ∈ events) h (by simp) ?_
  intro events i ts ts' last hl ih j hj
  rw [startIndices_append, List.mem_append] at hj
  rcases hj with hj | hj
  · rcases ih j hj with hk | hk
    · exact Or.inl (List.mem_append_left _ hk)
    · exact Or.inr (List.mem_append_left _ hk)
  · rcases hl with rfl | rfl <;> simp [startIndices, startIndex?] at hj <;> simp [hj]

theorem finished_stopsFirst (h : Finished n₀ events n) : StopsFirst events := by
  refine finished_induction (P := fun events _ => StopsFirst events) h ?_ ?_
  · exact stopsFirst_of_no_keep (by simp)
  · intro events i ts ts' last hl ih
    exact ih.append (stopsFirst_block hl)

theorem finished_keptOnly (h : Finished n₀ events n) : KeptOnly events := by
  refine (finished_induction (P := fun events n => Finished n₀ events n ∧ KeptOnly events)
    h ⟨.nil, by simp [KeptOnly]⟩ ?_).2
  rintro events i ts ts' last hl ⟨hf, ih⟩
  have hnew := bound_new (i := i) (finished_bound hf)
  rcases hl with rfl | rfl
  · refine ⟨hf.keep ts ts', fun j hk hd => ?_⟩
    simp only [List.mem_append, List.mem_cons, List.not_mem_nil, reduceCtorEq, or_false,
      false_or, ControlEvent.episodeKeep.injEq] at hk hd
    rcases hk with hk | rfl
    · exact ih j hk hd
    · exact hnew _ hd rfl
  · refine ⟨hf.discard ts ts', fun j hk hd => ?_⟩
    simp only [List.mem_append, List.mem_cons, List.not_mem_nil, reduceCtorEq, or_false,
      false_or, ControlEvent.episodeDiscard.injEq] at hk hd
    rcases hd with hd | rfl
    · exact ih j hk hd
    · exact hnew _ hk rfl

end Finished

section Protocol
variable {n₀ : ℕ} {l : EpisodeLifecycle} {events : List ControlEvent}

theorem protocol_startsFirst (h : Protocol n₀ l events) : StartsFirst events := by
  obtain ⟨done, tail, rfl, hd, ht⟩ := h
  have hs := finished_startsFirst hd
  have hnew := bound_new (finished_bound hd)
  cases hl : l.state <;> rw [hl] at ht
  · obtain rfl := ht
    simpa using hs
  · obtain ⟨ts, rfl⟩ := ht
    exact hs.append_block hnew (by simp)
  · obtain ⟨ts, ts', rfl⟩ := ht
    exact hs.append_block hnew (by simp [startIndex?])

/-- The lifecycle announces no shutdown. -/
theorem protocol_no_shutdown (h : Protocol n₀ l events) : .shutdown ∉ events := by
  obtain ⟨done, tail, rfl, hd, ht⟩ := h
  intro hm
  rcases List.mem_append.mp hm with hm | hm
  · cases finished_indexed hd _ hm
  · cases hl : l.state <;> rw [hl] at ht
    · rw [ht] at hm
      cases hm
    · obtain ⟨ts, rfl⟩ := ht
      simp at hm
    · obtain ⟨ts, ts', rfl⟩ := ht
      simp at hm

/-- A kept episode lies behind the counter. -/
theorem protocol_kept_bound (h : Protocol n₀ l events) {i : UInt32}
    (hi : .episodeKeep i ∈ events) : i < l.nextEpisodeIndex := by
  obtain ⟨done, tail, rfl, hd, ht⟩ := h
  rcases List.mem_append.mp hi with hi | hi
  · exact UInt32.lt_iff_toNat_lt.mpr (finished_bound hd _ hi i rfl)
  · cases hl : l.state <;> rw [hl] at ht
    · rw [ht] at hi
      cases hi
    · obtain ⟨ts, rfl⟩ := ht
      simp at hi
    · obtain ⟨ts, ts', rfl⟩ := ht
      simp at hi

theorem protocol_stopsFirst (h : Protocol n₀ l events) : StopsFirst events := by
  obtain ⟨done, tail, rfl, hd, ht⟩ := h
  refine (finished_stopsFirst hd).append (stopsFirst_of_no_keep fun i hi => ?_)
  cases hl : l.state <;> rw [hl] at ht
  · rw [ht] at hi
    cases hi
  · obtain ⟨ts, rfl⟩ := ht
    simp at hi
  · obtain ⟨ts, ts', rfl⟩ := ht
    simp at hi

theorem protocol_keptOnly (h : Protocol n₀ l events) : KeptOnly events := by
  obtain ⟨done, tail, rfl, hd, ht⟩ := h
  have hquiet : ∀ i, .episodeKeep i ∉ tail ∧ .episodeDiscard i ∉ tail := by
    intro i
    cases hl : l.state <;> rw [hl] at ht
    · rw [ht]
      simp
    · obtain ⟨ts, rfl⟩ := ht
      simp
    · obtain ⟨ts, ts', rfl⟩ := ht
      simp
  intro i hk hdis
  rcases List.mem_append.mp hk with hk | hk
  · rcases List.mem_append.mp hdis with hdis | hdis
    · exact finished_keptOnly hd i hk hdis
    · exact (hquiet i).2 hdis
  · exact (hquiet i).1 hk

theorem protocol_idle_closed (h : Protocol n₀ l events) (hl : l.state = .idle) :
    ∀ i ∈ startIndices events, .episodeKeep i ∈ events ∨ .episodeDiscard i ∈ events := by
  obtain ⟨done, tail, rfl, hd, ht⟩ := h
  rw [hl] at ht
  obtain rfl := ht
  simpa using finished_closed hd

end Protocol

end ControlEvents
