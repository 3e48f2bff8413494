import Rollio.PacketTiming

/-! `compute_pts_us` over a whole sequence of capture times: what it returns, and how far the
repeated ones push the others before the end of `i64`. -/
namespace PtsSequences
open BusMessages RecordingEncoder CodecSessions PacketTiming

structure PtsState where
  lastPtsUs : Option Int64 := none
  nonmonotonicWarned : Bool := false
  deriving DecidableEq

def computePts (frameTimestampUs recordingStartUs : UInt64) (s : PtsState) :
    Option Int64 × PtsState :=
  match toI64? frameTimestampUs, toI64? recordingStartUs with
  | some frame, some start =>
    let rawPts := frame - start
    if rawPts < 0 then (none, s)
    else match s.lastPtsUs with
      | some last =>
        if rawPts ≤ last then
          (some (last + 1), { lastPtsUs := some (last + 1), nonmonotonicWarned := true })
        else (some rawPts, { s with lastPtsUs := some rawPts })
      | none => (some rawPts, { s with lastPtsUs := some rawPts })
  | _, _ => (none, s)

theorem computePts_fst (t start : UInt64) (s : PtsState) :
    (computePts t start s).1 = computePtsUs t start s.lastPtsUs := by
  unfold computePts computePtsUs
  cases toI64? t with
  | none => rfl
  | some frame =>
    cases toI64? start with
    | none => rfl
    | some first =>
      simp only [Option.bind_eq_bind, Option.bind_some]
      by_cases hneg : frame - first < 0
      · rw [if_pos hneg, if_pos hneg]
      · rw [if_neg hneg, if_neg hneg]
        cases s.lastPtsUs with
        | none => rfl
        | some last =>
          dsimp only
          split
          · rfl
          · rfl

/-- What is returned is also the new last value, and nothing changes where nothing is returned. -/
theorem computePts_snd (t start : UInt64) (s : PtsState) :
    ((computePts t start s).1 = none → (computePts t start s).2 = s) ∧
      ∀ pts, (computePts t start s).1 = some pts →
        (computePts t start s).2.lastPtsUs = some pts := by
  unfold computePts
  split
  · dsimp only
    split
    · exact ⟨fun _ => rfl, fun _ h => by cases h⟩
    · split
      · split
        · exact ⟨fun h => (by cases h), fun _ h => h⟩
        · exact ⟨fun h => (by cases h), fun _ h => h⟩
      · exact ⟨fun h => (by cases h), fun _ h => h⟩
  · exact ⟨fun _ => rfl, fun _ h => by cases h⟩

structure PtsCall where
  timestamp : UInt64
  before : PtsState
  pts : Option Int64
  after : PtsState

def calls (start : UInt64) : PtsState → List UInt64 → List PtsCall
  | _, [] => []
  | s, t :: timestamps =>
    let (pts, s') := computePts t start s
    ⟨t, s, pts, s'⟩ :: calls start s' timestamps

def returned (cs : List PtsCall) : List Int64 := cs.filterMap (·.pts)

def rawPts (start : UInt64) (c : PtsCall) : Int := (c.timestamp.toNat : Int) - start.toNat

/-- What a recording relies on, of all calls of a sequence. -/
structure Exact (start : UInt64) (cs : List PtsCall) : Prop where
  skipped : ∀ c ∈ cs, c.pts = none ↔ c.timestamp < start
  unchanged : ∀ c ∈ cs, c.timestamp < start → c.after = c.before
  nonnegative : ∀ p ∈ returned cs, 0 ≤ p
  increasing : (returned cs).Pairwise (· < ·)
  atLeast : ∀ c ∈ cs, ∀ p, c.pts = some p → rawPts start c ≤ p.toInt
  equal : ∀ before c after, cs = before ++ c :: after → ∀ p, c.pts = some p →
    (∀ q ∈ returned before, q.toInt < rawPts start c) → p.toInt = rawPts start c

def frameAt (t : UInt64) : OwnedFrame := { header := { timestampUs := t }, payload := [] }

section Calls
variable {start : UInt64} {t : UInt64} {s : PtsState} {timestamps : List UInt64}

theorem calls_cons : calls start s (t :: timestamps) =
    ⟨t, s, (computePts t start s).1, (computePts t start s).2⟩ ::
      calls start (computePts t start s).2 timestamps := rfl

theorem returned_calls (s : PtsState) (timestamps : List UInt64) :
    returned (calls start s timestamps) =
      (avFrames start s.lastPtsUs (timestamps.map frameAt)).map AvFrame.pts := by
  induction timestamps generalizing s with
  | nil => rfl
  | cons t timestamps ih =>
    have hfst : (computePts t start s).1 =
        computePtsUs (frameAt t).header.timestampUs start s.lastPtsUs := computePts_fst t start s
    obtain ⟨hnone, hsome⟩ := computePts_snd t start s
    rw [List.map_cons, avFrames, ← hfst]
    cases hpts : (computePts t start s).1 with
    | none =>
      have hcalls : returned (calls start s (t :: timestamps)) =
          returned (calls start (computePts t start s).2 timestamps) :=
        List.filterMap_cons_none hpts
      rw [hcalls, ih, hnone hpts]
    | some pts =>
      have hcalls : returned (calls start s (t :: timestamps)) =
          pts :: returned (calls start (computePts t start s).2 timestamps) :=
        List.filterMap_cons_some hpts
      rw [hcalls, ih, hsome pts hpts]
      rfl

theorem mem_calls {c : PtsCall} (hc : c ∈ calls start s timestamps) :
    c.timestamp ∈ timestamps ∧ (c.pts, c.after) = computePts c.timestamp start c.before := by
  induction timestamps generalizing s with
  | nil => cases hc
  | cons t timestamps ih =>
    rcases List.mem_cons.mp hc with rfl | hc
    · exact ⟨List.mem_cons_self, rfl⟩
    · obtain ⟨hmem, hcall⟩ := ih hc
      exact ⟨List.mem_cons_of_mem t hmem, hcall⟩

/-- The last value that a call finds is the one it started with or one that was returned. -/
theorem last_of_split {before after : List PtsCall} {c : PtsCall}
    (h : calls start s timestamps = before ++ c :: after) :
    c.before.lastPtsUs = s.lastPtsUs ∨ ∃ l ∈ returned before, c.before.lastPtsUs = some l := by
  induction before generalizing s timestamps with
  | nil =>
    cases timestamps with
    | nil => cases h
    | cons t timestamps =>
      obtain ⟨rfl, -⟩ := List.cons.inj h
      exact .inl rfl
  | cons b before ih =>
    cases timestamps with
    | nil => cases h
    | cons t timestamps =>
      rw [calls_cons] at h
      obtain ⟨hb, hrest⟩ := List.cons.inj h
      obtain ⟨hnone, hsome⟩ := computePts_snd t start s
      subst hb
      cases hpts : (computePts t start s).1 with
      | none =>
        rw [← hnone hpts]
        exact ih hrest
      | some pts =>
        rcases ih hrest with hlast | ⟨l, hl, hlast⟩
        · exact .inr ⟨pts, List.mem_cons_self, hlast.trans (hsome pts hpts)⟩
        · exact .inr ⟨l, List.mem_cons_of_mem pts hl, hlast⟩

theorem computePts_early (ht : Timed (frameAt t)) (h : ¬ start ≤ t) :
    computePts t start s = (none, s) := by
  have hpts : (computePts t start s).1 = none :=
    (computePts_fst t start s).trans (computePtsUs_early ht h s.lastPtsUs)
  exact Prod.ext hpts ((computePts_snd t start s).1 hpts)

theorem computePts_recorded (ht : Timed (frameAt t)) (h : start ≤ t) :
    ∃ raw : Int64, raw.toInt = (t.toNat : Int) - start.toNat ∧
      (computePts t start s).1 = some (match s.lastPtsUs with
        | some l => if raw ≤ l then l + 1 else raw
        | none => raw) := by
  obtain ⟨raw, hraw, hpts⟩ := @computePtsUs_recorded start (frameAt t) ht h s.lastPtsUs
  exact ⟨raw, hraw, (computePts_fst t start s).trans hpts⟩

theorem pts_eq_none_iff (ht : Timed (frameAt t)) :
    (computePts t start s).1 = none ↔ t < start := by
  rw [← UInt64.not_le]
  constructor
  · intro hnone hle
    obtain ⟨raw, -, hpts⟩ := @computePts_recorded start t s ht hle
    rw [hpts] at hnone
    cases hnone
  · intro h
    rw [computePts_early ht h]

/-- A call returns the difference, or one more than a value returned before that is not smaller. -/
theorem pts_or_bumped (h : ∀ t ∈ timestamps, Timed (frameAt t)) {before after : List PtsCall}
    {c : PtsCall} (hsplit : calls start {} timestamps = before ++ c :: after) {p : Int64}
    (hp : c.pts = some p) : p.toInt = rawPts start c ∨
      ∃ l ∈ returned before, rawPts start c ≤ l.toInt ∧ p = l + 1 := by
  have hc : c ∈ calls start {} timestamps := hsplit ▸ List.mem_append_right before List.mem_cons_self
  obtain ⟨hmem, hcall⟩ := mem_calls hc
  have hfst : (computePts c.timestamp start c.before).1 = some p := hcall ▸ hp
  have hle : start ≤ c.timestamp := by
    by_contra hlt
    rw [computePts_early (h _ hmem) hlt] at hfst
    cases hfst
  obtain ⟨raw, hraw, hpts⟩ := @computePts_recorded start _ c.before (h _ hmem) hle
  have hvalue := Option.some.inj (hpts.symm.trans hfst)
  rcases last_of_split hsplit with hlast | ⟨l, hl, hlast⟩
  · rw [hlast] at hvalue
    exact .inl (hvalue ▸ hraw)
  · rw [hlast] at hvalue
    dsimp only at hvalue
    by_cases hbump : raw ≤ l
    · rw [if_pos hbump] at hvalue
      rw [Int64.le_iff_toInt_le, hraw] at hbump
      exact .inr ⟨l, hl, hbump, hvalue.symm⟩
    · rw [if_neg hbump] at hvalue
      exact .inl (hvalue ▸ hraw)

/-- All that a recording relies on comes with the order of the times. -/
theorem exact_iff (h : ∀ t ∈ timestamps, Timed (frameAt t)) :
    Exact start (calls start {} timestamps) ↔
      Ascends none (returned (calls start {} timestamps)) := by
  constructor
  · intro he
    exact ⟨he.increasing, he.nonnegative, fun l hl => by cases hl⟩
  · intro ha
    refine ⟨?_, ?_, ha.nonnegative, ha.increasing, ?_, ?_⟩
    · intro c hc
      obtain ⟨hmem, hcall⟩ := mem_calls hc
      rw [← pts_eq_none_iff (h _ hmem), ← hcall]
    · intro c hc hlt
      obtain ⟨hmem, hcall⟩ := mem_calls hc
      rw [computePts_early (h _ hmem) (UInt64.not_le.mpr hlt)] at hcall
      exact (Prod.mk.inj hcall).2
    · intro c hc p hp
      obtain ⟨before, after, hsplit⟩ := List.append_of_mem hc
      rcases pts_or_bumped h hsplit hp with heq | ⟨l, hl, hle, rfl⟩
      · exact heq.ge
      · have hmem : l ∈ returned (calls start {} timestamps) := by
          rw [hsplit, returned, List.filterMap_append]
          exact List.mem_append_left _ hl
        have hl0 := ha.nonnegative l hmem
        have hp0 := ha.nonnegative (l + 1) (List.mem_filterMap.mpr ⟨c, hc, hp⟩)
        -- The value before was not the last of `i64`, since one more is not negative.
        have hend : l.toInt < 9223372036854775807 := by
          have hlt := l.toInt_lt
          by_contra hmax
          exact Int64.not_le.mpr (add_one_negative (by omega)) hp0
        rw [Int64.le_iff_toInt_le, Int64.toInt_zero] at hl0
        rw [toInt_add_one hend hl0]
        omega
    · intro before c after hsplit p hp hsmaller
      rcases pts_or_bumped h hsplit hp with heq | ⟨l, hl, hle, -⟩
      · exact heq
      · exact absurd (hsmaller l hl) (not_lt.mpr hle)

end Calls

section Fits

def accepted (start : UInt64) (timestamps : List UInt64) : List UInt64 :=
  timestamps.filter fun t => start ≤ t

/-- One microsecond for each accepted time after it pushes no accepted time past the end of
`i64`. -/
def Fits (start : UInt64) (timestamps : List UInt64) : Prop :=
  ∀ before t after, accepted start timestamps = before ++ t :: after →
    (t.toNat : Int) - start.toNat + after.length < 9223372036854775808

variable {start : UInt64} {timestamps : List UInt64}

theorem room_map_frameAt (l : List UInt64) : Room start (l.map frameAt) ↔
    ∀ before t after, l = before ++ t :: after →
      (t.toNat : Int) - start.toNat + after.length < 9223372036854775808 := by
  induction l with
  | nil =>
    refine ⟨fun _ before t after h => ?_, fun _ => trivial⟩
    cases before with
    | nil => cases h
    | cons b before => cases h
  | cons t l ih =>
    rw [List.map_cons, Room, ih, List.length_map]
    constructor
    · rintro ⟨ht, hrest⟩ before t' after h
      cases before with
      | nil =>
        obtain ⟨rfl, rfl⟩ := List.cons.inj h
        exact ht
      | cons b before =>
        obtain ⟨-, rfl⟩ := List.cons.inj h
        exact hrest before t' after rfl
    · intro h
      refine ⟨h [] t l rfl, ?_⟩
      rintro before t' after rfl
      exact h (t :: before) t' after rfl

theorem recordedFrames_frameAt (timestamps : List UInt64) :
    recordedFrames start (timestamps.map frameAt) = (accepted start timestamps).map frameAt := by
  rw [recordedFrames, List.filter_map]
  rfl

/-- The times keep their order exactly as long as the bumps end before `i64` does. -/
theorem exact_iff_fits (h : ∀ t ∈ timestamps, Timed (frameAt t)) :
    Exact start (calls start {} timestamps) ↔ Fits start timestamps := by
  have htimed : ∀ f ∈ timestamps.map frameAt, Timed f := by
    intro f hf
    obtain ⟨t, ht, rfl⟩ := List.mem_map.mp hf
    exact h t ht
  have hrecorded : ∀ f ∈ recordedFrames start (timestamps.map frameAt),
      Timed f ∧ start ≤ f.header.timestampUs := by
    intro f hf
    obtain ⟨hmem, hle⟩ := List.mem_filter.mp hf
    exact ⟨htimed f hmem, by simpa using hle⟩
  have hlast : ∀ l ∈ (none : Option Int64), 0 ≤ l := by
    intro l hl
    cases hl
  rw [exact_iff h, returned_calls, avFrames_filter htimed,
    ascends_avFrames_iff (fun f hf => (hrecorded f hf).1) (fun f hf => (hrecorded f hf).2) hlast,
    recordedFrames_frameAt, room_map_frameAt]
  exact ⟨fun hfits => hfits.1, fun hfits => ⟨hfits, fun l hl => by cases hl⟩⟩

theorem fits_of_length (hlow : ∀ t ∈ timestamps, t.toNat < 4611686018427387904)
    (hlength : timestamps.length ≤ 4611686018427387905) : Fits start timestamps := by
  intro before t after hsplit
  have hmem : t ∈ accepted start timestamps :=
    hsplit ▸ List.mem_append_right before List.mem_cons_self
  have ht := hlow t (List.mem_filter.mp hmem).1
  have hle : (accepted start timestamps).length ≤ timestamps.length := List.length_filter_le _ _
  rw [hsplit, List.length_append, List.length_cons] at hle
  omega

theorem timed_of_low (hlow : ∀ t ∈ timestamps, t.toNat < 4611686018427387904) :
    ∀ t ∈ timestamps, Timed (frameAt t) := by
  intro t ht
  have hlt := hlow t ht
  show t.toNat < 9223372036854775807
  omega

/-- Of capture times below `2 ^ 62` the times are exact until the bumps pass the end of `i64`,
which takes more than `2 ^ 62 + 1` calls. -/
theorem pts_exact_iff (hlow : ∀ t ∈ timestamps, t.toNat < 4611686018427387904) :
    (Exact start (calls start {} timestamps) ↔ Fits start timestamps) ∧
      (timestamps.length ≤ 4611686018427387905 → Exact start (calls start {} timestamps)) := by
  have hexact := @exact_iff_fits start timestamps (timed_of_low hlow)
  exact ⟨hexact, fun hlength => hexact.mpr (fits_of_length hlow hlength)⟩

/-- A frame from before the start, one that is repeated and one from before those. -/
theorem repeated_frame_exact :
    Exact 1000 (calls 1000 {} [999, 11000, 11000, 10999, 11001, 12000]) := by
  have hlow : ∀ t ∈ [999, 11000, 11000, 10999, 11001, (12000 : UInt64)],
      t.toNat < 4611686018427387904 := by
    simp
  exact (pts_exact_iff hlow).2 (by decide)

def standing : List UInt64 := List.replicate 4611686018427387906 4611686018427387903

/-- The last bump wraps to the other end of `i64`. -/
theorem standing_clock_wraps :
    (∀ t ∈ standing, t.toNat < 4611686018427387904) ∧ ¬ Exact 0 (calls 0 {} standing) := by
  have hlow : ∀ t ∈ standing, t.toNat < 4611686018427387904 := by
    intro t ht
    obtain rfl := List.eq_of_mem_replicate ht
    decide
  refine ⟨hlow, ?_⟩
  rw [exact_iff_fits (timed_of_low hlow)]
  intro hfits
  have haccepted : accepted 0 standing =
      4611686018427387903 :: List.replicate 4611686018427387905 4611686018427387903 := by
    rw [accepted, standing, List.filter_replicate_of_pos (by decide), List.replicate_succ]
  have hlt := hfits [] _ _ haccepted
  rw [List.length_replicate] at hlt
  exact absurd hlt (by decide)

end Fits

end PtsSequences
