import Mathlib.Algebra.Group.Int.Defs
import Rollio.StreamNumbering

/-! The times on a session's packets. Every session kind has its own rule for them, and the
contract holds of a recording exactly under the conditions collected in `Timely`. -/
namespace PacketTiming
open BusMessages RecordingEncoder DelayLines CodecSessions SessionSteps Outcomes

section Arithmetic

theorem toInt_toInt64 {n : UInt64} (h : n.toNat < 9223372036854775808) :
    n.toInt64.toInt = n.toNat := by
  have hlt : 2 * n.toBitVec.toNat < 2 ^ 64 := by
    rw [UInt64.toNat_toBitVec]
    omega
  show n.toBitVec.toInt = n.toBitVec.toNat
  exact BitVec.toInt_eq_toNat_of_lt hlt

theorem toInt_sub_toInt64 {m n : UInt64} (hm : m.toNat < 9223372036854775808)
    (hn : n.toNat < 9223372036854775808) :
    (m.toInt64 - n.toInt64).toInt = (m.toNat : Int) - n.toNat := by
  rw [Int64.toInt_sub, toInt_toInt64 hm, toInt_toInt64 hn]
  exact Int.bmod_eq_of_le (by omega) (by omega)

theorem toInt_add_one {a : Int64} (h : a.toInt < 9223372036854775807) (h0 : 0 ≤ a.toInt) :
    (a + 1).toInt = a.toInt + 1 := by
  rw [Int64.toInt_add, Int64.toInt_one]
  exact Int.bmod_eq_of_le (by omega) (by omega)

theorem add_one_negative {a : Int64} (h : a.toInt = 9223372036854775807) : a + 1 < 0 := by
  have ha : a = Int64.maxValue := Int64.toInt_inj.mp h
  rw [ha]
  decide

end Arithmetic

section Bumps
variable {startUs : UInt64}

/-- A capture time that the contract covers; the end of `i64` itself is excluded. -/
def Timed (f : OwnedFrame) : Prop := f.header.timestampUs.toNat < 9223372036854775807

/-- The frames of the recording: not captured before it started. -/
def recordedFrames (startUs : UInt64) (frames : List OwnedFrame) : List OwnedFrame :=
  frames.filter fun f => startUs ≤ f.header.timestampUs

def offset (startUs : UInt64) (f : OwnedFrame) : Int :=
  (f.header.timestampUs.toNat : Int) - startUs.toNat

theorem computePtsUs_early {f : OwnedFrame} (hf : Timed f)
    (h : ¬ startUs ≤ f.header.timestampUs) (last : Option Int64) :
    computePtsUs f.header.timestampUs startUs last = none := by
  unfold Timed at hf
  rw [UInt64.le_iff_toNat_le] at h
  unfold computePtsUs toI64?
  by_cases hs : startUs.toNat < 2 ^ 63
  · have hneg : f.header.timestampUs.toInt64 - startUs.toInt64 < 0 := by
      rw [Int64.lt_iff_toInt_lt, toInt_sub_toInt64 (by omega) (by omega), Int64.toInt_zero]
      omega
    have hlt : f.header.timestampUs.toNat < 2 ^ 63 := by omega
    simp only [hlt, hs, if_true, Option.bind_eq_bind, Option.bind_some, hneg]
  · have hlt : f.header.timestampUs.toNat < 2 ^ 63 := by omega
    simp only [hlt, hs, if_true, if_false, Option.bind_eq_bind, Option.bind_some, Option.bind_none]

/-- A recorded frame gets its offset, or one more than the time before it if that is later. -/
theorem computePtsUs_recorded {f : OwnedFrame} (hf : Timed f)
    (h : startUs ≤ f.header.timestampUs) (last : Option Int64) :
    ∃ raw : Int64, raw.toInt = offset startUs f ∧
      computePtsUs f.header.timestampUs startUs last = some (match last with
        | some l => if raw ≤ l then l + 1 else raw
        | none => raw) := by
  unfold Timed at hf
  rw [UInt64.le_iff_toNat_le] at h
  have hraw : (f.header.timestampUs.toInt64 - startUs.toInt64).toInt = offset startUs f :=
    toInt_sub_toInt64 (by omega) (by omega)
  refine ⟨f.header.timestampUs.toInt64 - startUs.toInt64, hraw, ?_⟩
  have hs : startUs.toNat < 2 ^ 63 := by omega
  have hlt : f.header.timestampUs.toNat < 2 ^ 63 := by omega
  have hneg : ¬ f.header.timestampUs.toInt64 - startUs.toInt64 < 0 := by
    rw [Int64.lt_iff_toInt_lt, hraw, Int64.toInt_zero]
    unfold offset
    omega
  unfold computePtsUs toI64?
  simp only [hlt, hs, if_true, Option.bind_eq_bind, Option.bind_some, hneg, if_false]
  cases last with
  | none => rfl
  | some l =>
    by_cases hle : f.header.timestampUs.toInt64 - startUs.toInt64 ≤ l
    · simp only [hle, if_true]
    · simp only [hle, if_false]

/-- The pictures that reach the encoder, with the times they carry. -/
def avFrames (startUs : UInt64) : Option Int64 → List OwnedFrame → List AvFrame
  | _, [] => []
  | last, f :: frames =>
    match computePtsUs f.header.timestampUs startUs last with
    | none => avFrames startUs last frames
    | some pts => ⟨f, pts⟩ :: avFrames startUs (some pts) frames

theorem avFrames_filter {frames : List OwnedFrame} (h : ∀ f ∈ frames, Timed f)
    (last : Option Int64) :
    avFrames startUs last frames = avFrames startUs last (recordedFrames startUs frames) := by
  induction frames generalizing last with
  | nil => rfl
  | cons f frames ih =>
    have hf := h f List.mem_cons_self
    have hrest : ∀ g ∈ frames, Timed g := fun g hg => h g (List.mem_cons_of_mem f hg)
    by_cases hstart : startUs ≤ f.header.timestampUs
    · obtain ⟨raw, -, hpts⟩ := computePtsUs_recorded hf hstart last
      rw [recordedFrames, List.filter_cons_of_pos (by simpa using hstart), avFrames, avFrames, hpts]
      exact congrArg (_ :: ·) (ih hrest _)
    · rw [recordedFrames, List.filter_cons_of_neg (by simpa using hstart), avFrames,
        computePtsUs_early hf hstart last]
      exact ih hrest last

/-- Every recorded frame is early enough in `i64` for a bump by each frame after it. -/
def Room (startUs : UInt64) : List OwnedFrame → Prop
  | [] => True
  | f :: frames => offset startUs f + frames.length < 9223372036854775808 ∧ Room startUs frames

/-- The times a session assigns, after the last one it assigned before. -/
structure Ascends (last : Option Int64) (pts : List Int64) : Prop where
  increasing : pts.Pairwise (· < ·)
  nonnegative : ∀ p ∈ pts, 0 ≤ p
  after : ∀ l ∈ last, ∀ p ∈ pts, l < p

theorem ascends_cons {last : Option Int64} {p : Int64} {pts : List Int64} :
    Ascends last (p :: pts) ↔ 0 ≤ p ∧ (∀ l ∈ last, l < p) ∧ Ascends (some p) pts := by
  constructor
  · intro h
    obtain ⟨hp, hpts⟩ := List.pairwise_cons.mp h.increasing
    refine ⟨h.nonnegative p List.mem_cons_self, fun l hl => h.after l hl p List.mem_cons_self,
      hpts, fun q hq => h.nonnegative q (List.mem_cons_of_mem p hq), ?_⟩
    intro l hl q hq
    exact Option.some.inj hl ▸ hp q hq
  · rintro ⟨hp, hlast, h⟩
    refine ⟨List.pairwise_cons.mpr ⟨h.after p rfl, h.increasing⟩, ?_, ?_⟩
    · intro q hq
      rcases List.mem_cons.mp hq with rfl | hq
      · exact hp
      · exact h.nonnegative q hq
    · intro l hl q hq
      rcases List.mem_cons.mp hq with rfl | hq
      · exact hlast l hl
      · exact Int64.lt_trans (hlast l hl) (h.after p rfl q hq)

theorem toInt_bump {raw l : Int64} (hl : 0 ≤ l.toInt) (hmax : l.toInt < 9223372036854775807) :
    (if raw ≤ l then l + 1 else raw).toInt = max (l.toInt + 1) raw.toInt := by
  by_cases hle : raw ≤ l
  · rw [if_pos hle, toInt_add_one hmax hl]
    rw [Int64.le_iff_toInt_le] at hle
    omega
  · rw [if_neg hle]
    rw [Int64.le_iff_toInt_le] at hle
    omega

/-- The bumps stay in order until one would pass the end of `i64`, where it wraps instead. -/
theorem ascends_avFrames_iff {frames : List OwnedFrame} (htimed : ∀ f ∈ frames, Timed f)
    (hstart : ∀ f ∈ frames, startUs ≤ f.header.timestampUs) {last : Option Int64}
    (hlast : ∀ l ∈ last, 0 ≤ l) :
    Ascends last ((avFrames startUs last frames).map AvFrame.pts) ↔
      Room startUs frames ∧ ∀ l ∈ last, l.toInt + frames.length < 9223372036854775808 := by
  induction frames generalizing last with
  | nil =>
    constructor
    · intro _
      refine ⟨trivial, ?_⟩
      intro l _
      have hlt := l.toInt_lt
      rw [List.length_nil]
      omega
    · intro _
      exact ⟨List.Pairwise.nil, fun p hp => absurd hp List.not_mem_nil,
        fun _ _ p hp => absurd hp List.not_mem_nil⟩
  | cons f frames ih =>
    have hf := htimed f List.mem_cons_self
    have hs := hstart f List.mem_cons_self
    have htimed' : ∀ g ∈ frames, Timed g := fun g hg => htimed g (List.mem_cons_of_mem f hg)
    have hstart' : ∀ g ∈ frames, startUs ≤ g.header.timestampUs :=
      fun g hg => hstart g (List.mem_cons_of_mem f hg)
    obtain ⟨raw, hraw, hpts⟩ := computePtsUs_recorded hf hs last
    have hoffset : 0 ≤ offset startUs f ∧ offset startUs f < 9223372036854775807 := by
      rw [UInt64.le_iff_toNat_le] at hs
      unfold Timed at hf
      unfold offset
      omega
    rw [avFrames, hpts, List.map_cons, ascends_cons]
    cases last with
    | none =>
      have hp : 0 ≤ raw := by
        rw [Int64.le_iff_toInt_le, Int64.toInt_zero, hraw]
        exact hoffset.1
      rw [ih htimed' hstart' fun l hl => Option.some.inj hl ▸ hp]
      simp only [Room, Option.mem_def, Option.some.injEq, forall_eq', hp, hraw, true_and,
        reduceCtorEq, false_implies, implies_true, and_true]
      exact And.comm
    | some l =>
      have hl : 0 ≤ l.toInt := by
        have h0 := hlast l rfl
        rwa [Int64.le_iff_toInt_le, Int64.toInt_zero] at h0
      simp only [Room, Option.mem_def, Option.some.injEq, forall_eq', List.length_cons]
      by_cases hmax : l.toInt < 9223372036854775807
      · have hbump := @toInt_bump raw l hl hmax
        generalize (if raw ≤ l then l + 1 else raw) = p at hbump ⊢
        have hp : 0 ≤ p := by
          rw [Int64.le_iff_toInt_le, Int64.toInt_zero]
          omega
        have hlt : l < p := by
          rw [Int64.lt_iff_toInt_lt]
          omega
        rw [ih htimed' hstart' fun l' hl' => Option.some.inj hl' ▸ hp]
        constructor
        · rintro ⟨-, -, hroom, hafter⟩
          have hfits := hafter p rfl
          exact ⟨⟨by omega, hroom⟩, by omega⟩
        · rintro ⟨⟨hfits, hroom⟩, hl'⟩
          refine ⟨hp, hlt, hroom, ?_⟩
          intro p' hp'
          rw [← Option.some.inj hp']
          omega
      · -- the bump wraps to the other end of the range
        have hend := l.toInt_lt
        have hle : raw ≤ l := by
          rw [Int64.le_iff_toInt_le]
          omega
        rw [if_pos hle]
        have hneg : ¬ 0 ≤ l + 1 := Int64.not_le.mpr (add_one_negative (by omega))
        constructor
        · intro h
          exact absurd h.1 hneg
        · rintro ⟨-, hl'⟩
          omega

end Bumps

section Runs
variable {codecs : Codecs} {sink : EncodedPacketSink} {packets : List EncodedPacket}
  {eos : EncodedPacketHeader} {frames : List OwnedFrame} {startUs : UInt64}

def item (p : EncodedPacket) : OwnedFrame × Int64 × UInt64 :=
  (p.encodes, p.header.ptsUs, p.header.sourceTimestampUs)

open StreamNumbering

def depthFrame (timestampUs : UInt64) : OwnedFrame :=
  ⟨{ timestampUs := timestampUs, width := 2, height := 2, pixelFormat := .depth16 }, []⟩

end Runs

end PacketTiming
