import Rollio.HardwareSessions
import Rollio.PacketTiming

/-! What becomes of the frames of a hardware session. A picture is in the decoder, in the filter
graph or in the encoder, and at the end only what the encoder holds still goes out. -/
namespace HardwareConservation
open BusMessages RecordingEncoder DelayLines CodecSessions HardwareSessions SessionSteps
open PacketTiming Outcomes

variable {hw : Hardware} {sink : EncodedPacketSink}

/-- The pictures of some packets, with the times they carry. -/
def carried (packets : List EncodedPacket) : List AvFrame :=
  packets.map fun p => ⟨p.encodes, p.header.ptsUs⟩

theorem carried_append (packets rest : List EncodedPacket) :
    carried (packets ++ rest) = carried packets ++ carried rest := List.map_append

/-- What an output stage has taken and not yet written, oldest first. -/
def inFlight (output : OutputStage) : List AvFrame :=
  output.encoder.ready ++ output.encoder.line.held ++ output.scaled ++ output.filter.held

section Output

theorem drainEncoderPackets_ok {s : HwSession} {frame : CameraFrameHeader} {ready : List AvFrame}
    {received received' : ℕ} {sequence sequence' : UInt64} {packets : List EncodedPacket}
    (h : s.drainEncoderPackets hw sink frame ready received sequence =
      .ok (received', sequence', packets)) : carried packets = ready := by
  induction ready generalizing received sequence packets with
  | nil =>
    obtain ⟨-, rfl⟩ := Prod.mk.inj (Prod.mk.inj (Except.ok.inj h)).2
    rfl
  | cons f ready ih =>
    simp only [HwSession.drainEncoderPackets, bind_eq_ok, writePacket_eq_ok, pure_eq_ok,
      Prod.mk.injEq] at h
    obtain ⟨p, ⟨-, rfl⟩, ⟨n, k, rest⟩, hrest, rfl, rfl, rfl⟩ := h
    refine congrArg₂ List.cons ?_ (ih hrest)
    dsimp only [HwSession.packetHeader]
    rw [setKeyframe_frame]

theorem sendFrame_conserves (encoder : AvEncoder) (f : AvFrame) :
    (encoder.sendFrame hw.toLibav f).ready ++ (encoder.sendFrame hw.toLibav f).line.held =
      encoder.ready ++ encoder.line.held ++ [f] := by
  simp only [AvEncoder.sendFrame, List.append_assoc, push_conserves]

theorem sendScaled_ok {scaled : List AvFrame} {encoder encoder' : AvEncoder}
    (h : HwSession.sendScaled hw scaled encoder = .ok encoder') :
    encoder'.ready ++ encoder'.line.held = encoder.ready ++ encoder.line.held ++ scaled := by
  induction scaled generalizing encoder with
  | nil =>
    obtain rfl := Except.ok.inj h
    rw [List.append_nil]
  | cons f scaled ih =>
    obtain ⟨-, -, h⟩ := bind_eq_ok.mp h
    rw [ih h, sendFrame_conserves, ← List.append_cons]

theorem inFlight_sendFrame (output : OutputStage) (f : AvFrame) :
    inFlight (output.sendFrame hw f) = inFlight output ++ [f] := by
  simp only [inFlight, OutputStage.sendFrame, List.append_assoc, push_conserves]

/-- Sending into the filter graph adds to what is in flight, and leaves the encoder alone. -/
structure Sent (hw : Hardware) (output : OutputStage) (fed : List AvFrame)
    (output' : OutputStage) : Prop where
  inFlight : inFlight output' = inFlight output ++ fed
  encoder : output'.encoder = output.encoder
  taken : output'.filter.taken = output.filter.taken + fed.length
  counted : Counted hw.filterReleases output.filter → Counted hw.filterReleases output'.filter

theorem Sent.cons {output output' : OutputStage} {f : AvFrame} {fed : List AvFrame}
    (h : Sent hw (output.sendFrame hw f) fed output') : Sent hw output (f :: fed) output' where
  inFlight := by rw [h.inFlight, inFlight_sendFrame, ← List.append_cons]
  encoder := h.encoder
  taken := by
    rw [h.taken, List.length_cons]
    show output.filter.taken + 1 + fed.length = _
    omega
  counted := fun hc => h.counted (push_counted hc f)

theorem sendDecoded_ok {fed : List AvFrame} {output output' : Option OutputStage}
    (h : HwSession.sendDecoded hw fed output = .ok output') :
    Sent hw (output.getD {}) fed (output'.getD {}) := by
  induction fed generalizing output with
  | nil =>
    obtain rfl := Except.ok.inj h
    exact ⟨(List.append_nil _).symm, rfl, rfl, id⟩
  | cons f fed ih =>
    unfold HwSession.sendDecoded at h
    cases output with
    | none =>
      simp only [HwSession.buildCuvidOutputForFrame, bind_eq_ok, pure_eq_ok] at h
      obtain ⟨started, ⟨-, -, -, -, rfl⟩, -, -, h⟩ := h
      exact (ih h).cons
    | some output =>
      simp only [bind_eq_ok] at h
      obtain ⟨started, hstarted, -, -, h⟩ := h
      obtain rfl := pure_eq_ok.mp hstarted
      exact (ih h).cons

/-- Draining moves what is ready on to the sink. -/
structure Drained (s : HwSession) (packets : List EncodedPacket) (s' : HwSession) : Prop where
  conserves : carried packets ++ inFlight (s'.output.getD {}) = inFlight (s.output.getD {})
  scaled : (s'.output.getD {}).scaled = []
  ready : (s'.output.getD {}).encoder.ready = []
  filter : (s'.output.getD {}).filter = (s.output.getD {}).filter
  input : s'.input = s.input
  lastPtsUs : s'.lastPtsUs = s.lastPtsUs
  recordingStartUs : s'.recordingStartUs = s.recordingStartUs

theorem drain_ok {s s' : HwSession} {frame : CameraFrameHeader} {packets : List EncodedPacket}
    (h : s.drainFilterAndEncode hw sink frame = .ok (s', packets)) : Drained s packets s' := by
  unfold HwSession.drainFilterAndEncode at h
  cases ho : s.output with
  | none =>
    rw [ho] at h
    obtain ⟨rfl, rfl⟩ := Prod.mk.inj (Except.ok.inj h)
    have hget : s.output.getD {} = {} := by rw [ho]; rfl
    exact ⟨rfl, by rw [hget], by rw [hget], rfl, rfl, rfl, rfl⟩
  | some output =>
    simp only [ho, bind_eq_ok, pure_eq_ok, Prod.mk.injEq] at h
    obtain ⟨encoder, henc, ⟨received, sequence, ps⟩, hps, rfl, rfl⟩ := h
    refine ⟨?_, rfl, rfl, by rw [ho]; rfl, rfl, rfl, rfl⟩
    have hsent := sendScaled_ok henc
    rw [drainEncoderPackets_ok hps, ho]
    simp only [Option.getD_some, inFlight, List.nil_append, List.append_nil]
    rw [← List.append_assoc, hsent]

theorem finish_ok {s : HwSession} {packets : List EncodedPacket} {eos : EncodedPacketHeader}
    (h : s.finish hw sink = .ok (packets, eos)) :
    carried packets = (s.output.getD {}).encoder.ready ++ (s.output.getD {}).encoder.line.held := by
  unfold HwSession.finish at h
  cases ho : s.output with
  | none =>
    simp only [ho, bind_eq_ok, pure_eq_ok, Prod.mk.injEq] at h
    obtain ⟨started, rfl, k, -, rfl, -⟩ := h
    rfl
  | some output =>
    simp only [ho, bind_eq_ok, pure_eq_ok, Prod.mk.injEq] at h
    obtain ⟨⟨received, sequence, ps⟩, hps, started, rfl, k, -, rfl, -⟩ := h
    exact drainEncoderPackets_ok hps

end Output

section Input

def feed (hw : Hardware) (f : AvFrame) : InputStage → List AvFrame × InputStage
  | .cuvid decoder bsf =>
    ((decoder.push hw.decoderReleases f.picture).1.map fun picture => ⟨picture, f.pts⟩,
      .cuvid (decoder.push hw.decoderReleases f.picture).2 bsf)
  | .cpuDecode => ([f], .cpuDecode)
  | .raw => ([f], .raw)

def feeds (hw : Hardware) : InputStage → List AvFrame → List AvFrame
  | _, [] => []
  | input, f :: l => (feed hw f input).1 ++ feeds hw (feed hw f input).2 l

theorem pushInputAndCollect_ok {frame : OwnedFrame} {pts : Int64} {input input' : InputStage}
    {fed : List AvFrame}
    (h : HwSession.pushInputAndCollect hw frame pts input = .ok (fed, input')) :
    (fed, input') = feed hw ⟨frame, pts⟩ input := by
  cases input with
  | cuvid decoder bsf =>
    unfold HwSession.pushInputAndCollect at h
    cases bsf with
    | true =>
      simp only [if_true, bind_eq_ok, pure_eq_ok] at h
      obtain ⟨-, -, -, -, h⟩ := h
      exact h.symm
    | false =>
      simp only [Bool.false_eq_true, if_false, bind_eq_ok, pure_eq_ok] at h
      obtain ⟨-, -, h⟩ := h
      exact h.symm
  | cpuDecode | raw =>
    simp only [HwSession.pushInputAndCollect, bind_eq_ok, pure_eq_ok] at h
    obtain ⟨-, -, h⟩ := h
    exact h.symm

structure Steady (hw : Hardware) (s : HwSession) : Prop where
  ready : (s.output.getD {}).encoder.ready = []
  counted : Counted hw.filterReleases (s.output.getD {}).filter

structure Encodes (hw : Hardware) (s : HwSession) (fed : List AvFrame)
    (packets : List EncodedPacket) (s' : HwSession) : Prop where
  conserves : carried packets ++ inFlight (s'.output.getD {}) = inFlight (s.output.getD {}) ++ fed
  taken : (s'.output.getD {}).filter.taken = (s.output.getD {}).filter.taken + fed.length
  steady : Steady hw s'
  recordingStartUs : s'.recordingStartUs = s.recordingStartUs

theorem encode_ok {s s' : HwSession} {frame : OwnedFrame} {packets : List EncodedPacket}
    (h : s.encode hw sink frame = .ok (s', packets)) (hs : Steady hw s) :
    (computePtsUs frame.header.timestampUs s.recordingStartUs s.lastPtsUs = none ∧
      s' = s ∧ packets = []) ∨
    ∃ pts, computePtsUs frame.header.timestampUs s.recordingStartUs s.lastPtsUs = some pts ∧
      Encodes hw s (feed hw ⟨frame, pts⟩ s.input).1 packets s' ∧
      (s'.output.getD {}).scaled = [] ∧ s'.input = (feed hw ⟨frame, pts⟩ s.input).2 ∧
      s'.lastPtsUs = some pts := by
  unfold HwSession.encode at h
  cases hpts : computePtsUs frame.header.timestampUs s.recordingStartUs s.lastPtsUs with
  | none =>
    rw [hpts] at h
    obtain ⟨rfl, rfl⟩ := Prod.mk.inj (Except.ok.inj h)
    exact .inl ⟨rfl, rfl, rfl⟩
  | some pts =>
    simp only [hpts, bind_eq_ok] at h
    obtain ⟨⟨fed, input⟩, hfed, output, hsent, h⟩ := h
    have hfeed := pushInputAndCollect_ok hfed
    have hd := drain_ok h
    have hsend := sendDecoded_ok hsent
    refine .inr ⟨pts, rfl, ?_⟩
    rw [← hfeed]
    refine ⟨⟨?_, ?_, ⟨hd.ready, ?_⟩, hd.recordingStartUs⟩, hd.scaled, hd.input,
      hd.lastPtsUs⟩
    · rw [hd.conserves]
      exact hsend.inFlight
    · rw [hd.filter]
      exact hsend.taken
    · rw [hd.filter]
      exact hsend.counted hs.counted

theorem encodeAll_ok {s s' : HwSession} {frames : List OwnedFrame} {packets : List EncodedPacket}
    (h : s.encodeAll hw sink frames = .ok (s', packets)) (hs : Steady hw s) :
    Encodes hw s (feeds hw s.input (avFrames s.recordingStartUs s.lastPtsUs frames)) packets s' ∧
      (avFrames s.recordingStartUs s.lastPtsUs frames ≠ [] ∨ (s.output.getD {}).scaled = [] →
        (s'.output.getD {}).scaled = []) ∧
      (avFrames s.recordingStartUs s.lastPtsUs frames = [] → s' = s ∧ packets = []) := by
  induction frames generalizing s packets with
  | nil =>
    obtain ⟨rfl, rfl⟩ := Prod.mk.inj (Except.ok.inj h)
    exact ⟨⟨(List.append_nil _).symm, rfl, hs, rfl⟩, fun hc => hc.resolve_left fun hne => hne rfl,
      fun _ => ⟨rfl, rfl⟩⟩
  | cons frame frames ih =>
    simp only [HwSession.encodeAll, bind_eq_ok, pure_eq_ok, Prod.mk.injEq] at h
    obtain ⟨⟨t, ps⟩, hfirst, ⟨t', rest⟩, hrest, rfl, rfl⟩ := h
    dsimp only at hrest ⊢
    obtain ⟨hpts, rfl, rfl⟩ | ⟨pts, hpts, he, hscaled, hinput, hlast⟩ := encode_ok hfirst hs
    · rw [avFrames, hpts]
      exact ih hrest hs
    · obtain ⟨hall, hclear, -⟩ := ih hrest he.steady
      rw [hlast, he.recordingStartUs] at hall hclear
      rw [hinput] at hall
      rw [avFrames, hpts]
      refine ⟨⟨?_, ?_, hall.steady, hall.recordingStartUs.trans he.recordingStartUs⟩,
        fun _ => hclear (.inr hscaled), fun hnil => absurd hnil (List.cons_ne_nil _ _)⟩
      · rw [carried_append, List.append_assoc, hall.conserves, ← List.append_assoc, he.conserves,
          List.append_assoc]
        rfl
      · rw [hall.taken, he.taken, feeds, List.length_append, Nat.add_assoc]

end Input

section Feeds

theorem feeds_raw (l : List AvFrame) : feeds hw .raw l = l := by
  induction l with
  | nil => rfl
  | cons f l ih => exact congrArg (f :: ·) ih

theorem feeds_cpuDecode (l : List AvFrame) : feeds hw .cpuDecode l = l := by
  induction l with
  | nil => rfl
  | cons f l ih => exact congrArg (f :: ·) ih

variable {decoder : DelayLine OwnedFrame} {bsf : Bool}

theorem feeds_length_le (l : List AvFrame) :
    (feeds hw (.cuvid decoder bsf) l).length ≤ decoder.held.length + l.length := by
  induction l generalizing decoder with
  | nil => exact Nat.zero_le _
  | cons f l ih =>
    have hpush := congrArg List.length
      (@push_conserves _ hw.decoderReleases decoder f.picture)
    simp only [List.length_append, List.length_singleton] at hpush
    have hrest := @ih (decoder.push hw.decoderReleases f.picture).2
    simp only [feeds, feed, List.length_append, List.length_map, List.length_cons]
    omega

theorem feeds_pts (l : List AvFrame) :
    ∀ g ∈ feeds hw (.cuvid decoder bsf) l, g.pts ∈ l.map AvFrame.pts := by
  induction l generalizing decoder with
  | nil =>
    intro g hg
    cases hg
  | cons f l ih =>
    intro g hg
    rcases List.mem_append.mp hg with hg | hg
    · obtain ⟨picture, -, rfl⟩ := List.mem_map.mp hg
      exact List.mem_cons_self
    · exact List.mem_cons_of_mem f.pts (ih g hg)

/-- Every picture carries its own time exactly when none stays in the decoder behind its call. -/
theorem feeds_eq_iff (hd : decoder.held = []) (hc : Counted hw.decoderReleases decoder)
    {l : List AvFrame} (hl : (l.map AvFrame.pts).Nodup) :
    feeds hw (.cuvid decoder bsf) l = l ↔
      ∀ n < l.length, heldAfter hw.decoderReleases (decoder.taken + n + 1) = 0 := by
  induction l generalizing decoder with
  | nil => exact ⟨fun _ n hn => absurd hn (Nat.not_lt_zero n), fun _ => rfl⟩
  | cons f l ih =>
    rw [List.map_cons, List.nodup_cons] at hl
    have hzero : heldAfter hw.decoderReleases decoder.taken = 0 := by
      rw [← hc, hd, List.length_nil]
    cases hr : hw.decoderReleases decoder.taken with
    | zero =>
      constructor
      · intro h
        have hpush : feeds hw (.cuvid decoder bsf) (f :: l) =
            feeds hw (.cuvid (decoder.push hw.decoderReleases f.picture).2 bsf) l := by
          simp only [feeds, feed, DelayLine.push, hr, List.take_zero, List.map_nil,
            List.nil_append]
        have hf : f ∈ feeds hw (.cuvid (decoder.push hw.decoderReleases f.picture).2 bsf) l := by
          rw [← hpush, h]
          exact List.mem_cons_self
        exact absurd (feeds_pts l f hf) hl.1
      · intro h
        have h0 := h 0 (Nat.zero_lt_succ _)
        rw [Nat.add_zero, heldAfter, hzero, hr] at h0
        cases h0
    | succ r =>
      have hpush : decoder.push hw.decoderReleases f.picture =
          ([f.picture], ⟨[], decoder.taken + 1⟩) := by
        simp only [DelayLine.push, hd, hr, List.nil_append, List.take_succ_cons, List.take_nil,
          List.drop_succ_cons, List.drop_nil]
      have hnext : Counted hw.decoderReleases (⟨[], decoder.taken + 1⟩ : DelayLine OwnedFrame) := by
        have h := push_counted hc f.picture
        rwa [hpush] at h
      have hfeeds : feeds hw (.cuvid decoder bsf) (f :: l) =
          f :: feeds hw (.cuvid ⟨[], decoder.taken + 1⟩ bsf) l := by
        simp only [feeds, feed, hpush, List.map_cons, List.map_nil, List.singleton_append]
      rw [hfeeds, List.cons_inj_right, ih rfl hnext hl.2]
      constructor
      · intro h n hn
        cases n with
        | zero =>
          rw [Nat.add_zero, heldAfter, hzero, hr]
          omega
        | succ n =>
          have hn := h n (Nat.lt_of_succ_lt_succ hn)
          rwa [Nat.add_right_comm decoder.taken 1 n] at hn
      · intro h n hn
        have hn := h (n + 1) (Nat.succ_lt_succ hn)
        rwa [← Nat.add_assoc, Nat.add_right_comm decoder.taken n 1] at hn

end Feeds

section Times

theorem lt_add_one_iff {a : Int64} : a < a + 1 ↔ a ≠ Int64.maxValue := by
  constructor
  · rintro h rfl
    exact absurd h (by decide)
  · intro hne
    have hmax : a.toInt ≠ 9223372036854775807 := fun h => hne (Int64.toInt_inj.mp h)
    have hlt := a.toInt_lt
    have hle := a.le_toInt
    rw [Int64.lt_iff_toInt_lt, Int64.toInt_add, Int64.toInt_one,
      Int.bmod_eq_of_le (by omega) (by omega)]
    omega

/-- The next time is later than the last one, unless there is no later one. -/
theorem computePtsUs_after {timestampUs startUs : UInt64} {last pts : Int64}
    (h : computePtsUs timestampUs startUs (some last) = some pts) :
    last < pts ↔ last ≠ Int64.maxValue := by
  simp only [computePtsUs, Option.bind_eq_bind, Option.bind_eq_some_iff] at h
  obtain ⟨frame, -, start, -, h⟩ := h
  split at h
  · cases h
  · split at h
    · obtain rfl := Option.some.inj h
      exact lt_add_one_iff
    · next hraw =>
      obtain rfl := Option.some.inj h
      have hlt : last < frame - start := by
        rw [Int64.le_iff_toInt_le] at hraw
        rw [Int64.lt_iff_toInt_lt]
        omega
      refine ⟨?_, fun _ => hlt⟩
      rintro - rfl
      have hmax := (frame - start).toInt_lt
      rw [Int64.lt_iff_toInt_lt] at hlt
      have hval : Int64.maxValue.toInt = 9223372036854775807 := by decide
      omega

/-- A frame with a time was not captured before the recording started. -/
theorem computePtsUs_recording {timestampUs startUs : UInt64} {last : Option Int64} {pts : Int64}
    (h : computePtsUs timestampUs startUs last = some pts) : startUs ≤ timestampUs := by
  simp only [computePtsUs, Option.bind_eq_bind, Option.bind_eq_some_iff] at h
  obtain ⟨frame, hframe, start, hstart, h⟩ := h
  split at h
  · cases h
  · next hneg =>
    unfold toI64? at hframe hstart
    split at hframe
    · next hf =>
      split at hstart
      · next hs =>
        obtain rfl := Option.some.inj hframe
        obtain rfl := Option.some.inj hstart
        rw [Int64.lt_iff_toInt_lt, toInt_sub_toInt64 (by omega) (by omega), Int64.toInt_zero] at hneg
        rw [UInt64.le_iff_toNat_le]
        omega
      · cases hstart
    · cases hframe

/-- No time follows the last one there is. -/
def TimesFit (frames : List AvFrame) : Prop :=
  Int64.maxValue ∉ (frames.map AvFrame.pts).dropLast

instance (frames : List AvFrame) : Decidable (TimesFit frames) :=
  inferInstanceAs (Decidable (Int64.maxValue ∉ (frames.map AvFrame.pts).dropLast))

theorem chain_iff_fit {startUs : UInt64} (frames : List OwnedFrame) (last : Option Int64) :
    (last.toList ++ (avFrames startUs last frames).map AvFrame.pts).IsChain (· < ·) ↔
      Int64.maxValue ∉ (last.toList ++ (avFrames startUs last frames).map AvFrame.pts).dropLast := by
  induction frames generalizing last with
  | nil => cases last <;> simp [avFrames]
  | cons f frames ih =>
    unfold avFrames
    cases hpts : computePtsUs f.header.timestampUs startUs last with
    | none => exact ih last
    | some pts =>
      have hrest := ih (some pts)
      rw [Option.toList_some, List.singleton_append] at hrest
      cases last with
      | none => exact hrest
      | some l =>
        rw [Option.toList_some, List.singleton_append, List.map_cons, List.isChain_cons_cons,
          List.dropLast_cons_cons, List.mem_cons, not_or, hrest, computePtsUs_after hpts, ne_comm]

theorem increasing_iff_fit {startUs : UInt64} (frames : List OwnedFrame) :
    ((avFrames startUs none frames).map AvFrame.pts).Pairwise (· < ·) ↔
      TimesFit (avFrames startUs none frames) := by
  have : IsTrans Int64 (· < ·) := ⟨fun _ _ _ => Int64.lt_trans⟩
  rw [← List.isChain_iff_pairwise]
  exact chain_iff_fit frames none

theorem avFrames_recorded {startUs : UInt64} (frames : List OwnedFrame) (last : Option Int64) :
    ∀ f ∈ avFrames startUs last frames, startUs ≤ f.picture.header.timestampUs := by
  induction frames generalizing last with
  | nil =>
    intro f hf
    cases hf
  | cons frame frames ih =>
    intro f hf
    unfold avFrames at hf
    cases hpts : computePtsUs frame.header.timestampUs startUs last with
    | none =>
      rw [hpts] at hf
      exact ih last f hf
    | some pts =>
      rw [hpts] at hf
      rcases List.mem_cons.mp hf with rfl | hf
      · exact computePtsUs_recording hpts
      · exact ih (some pts) f hf

end Times

section Recording
variable {backend : HwBackend} {params : CodecSessionParams} {firstFrame : OwnedFrame}
  {frames : List OwnedFrame} {packets : List EncodedPacket}

def seeds (firstFrame : OwnedFrame) : InputStrategy → List AvFrame
  | .cpuDecode => [⟨firstFrame, 0⟩]
  | .cuvid | .cuvidWithMjpegBsf | .raw => []

def firstStage : InputStrategy → InputStage
  | .cuvid => .cuvid {} false
  | .cuvidWithMjpegBsf => .cuvid {} true
  | .cpuDecode => .cpuDecode
  | .raw => .raw

structure Opened (hw : Hardware) (startUs : UInt64) (firstFrame : OwnedFrame)
    (strategy : InputStrategy) (s : HwSession) : Prop where
  recordingStartUs : s.recordingStartUs = startUs
  lastPtsUs : s.lastPtsUs = none
  input : s.input = firstStage strategy
  encoder : (s.output.getD {}).encoder = {}
  sent : Sent hw {} (seeds firstFrame strategy) (s.output.getD {})

theorem sent_nothing (hw : Hardware) : Sent hw {} [] {} := ⟨rfl, rfl, rfl, id⟩

theorem new_ok {s : HwSession} (h : HwSession.new backend hw params firstFrame = .ok s) :
    Opened hw params.recordingStartUs firstFrame
      (backend.inputStrategy firstFrame.header.pixelFormat) s := by
  simp only [HwSession.new, bind_eq_ok, pure_eq_ok] at h
  obtain ⟨-, -, ⟨input, output⟩, hbuild, rfl⟩ := h
  generalize backend.inputStrategy firstFrame.header.pixelFormat = strategy at hbuild
  cases strategy with
  | cuvid =>
    simp only [HwSession.buildPipeline, HwSession.buildCuvidPipeline, bind_eq_ok, pure_eq_ok,
      Prod.mk.injEq] at hbuild
    obtain ⟨-, -, rfl, rfl⟩ := hbuild
    exact ⟨rfl, rfl, rfl, rfl, sent_nothing hw⟩
  | cuvidWithMjpegBsf =>
    simp only [HwSession.buildPipeline, HwSession.buildCuvidPipeline, bind_eq_ok, pure_eq_ok,
      Prod.mk.injEq] at hbuild
    obtain ⟨-, -, -, -, rfl, rfl⟩ := hbuild
    exact ⟨rfl, rfl, rfl, rfl, sent_nothing hw⟩
  | cpuDecode =>
    simp only [HwSession.buildPipeline, HwSession.buildCpuDecodePipeline, bind_eq_ok, pure_eq_ok,
      Prod.mk.injEq] at hbuild
    obtain ⟨-, -, -, -, -, -, -, -, -, -, rfl, rfl⟩ := hbuild
    exact ⟨rfl, rfl, rfl, rfl, Sent.cons ⟨(List.append_nil _).symm, rfl, rfl, id⟩⟩
  | raw =>
    simp only [HwSession.buildPipeline, HwSession.buildRawPipeline, bind_eq_ok, pure_eq_ok,
      Prod.mk.injEq] at hbuild
    obtain ⟨-, -, -, -, rfl, rfl⟩ := hbuild
    exact ⟨rfl, rfl, rfl, rfl, sent_nothing hw⟩

/-- The packets of a recording are what went into the filter graph, but for what stays there. -/
theorem record_ok
    (h : HwSession.record backend hw sink params firstFrame frames = .ok packets)
    {strategy : InputStrategy} (hs : backend.inputStrategy firstFrame.header.pixelFormat = strategy)
    {accepted : List AvFrame}
    (ha : avFrames params.recordingStartUs none (firstFrame :: frames) = accepted) :
    (accepted = [] → carried packets = []) ∧
      (accepted ≠ [] → ∃ left,
        carried packets ++ left = seeds firstFrame strategy ++ feeds hw (firstStage strategy) accepted ∧
        left.length = heldAfter hw.filterReleases
          ((seeds firstFrame strategy).length + (feeds hw (firstStage strategy) accepted).length)) := by
  simp only [HwSession.record, bind_eq_ok, pure_eq_ok] at h
  obtain ⟨s, hnew, ⟨s', ps⟩, hall, ⟨rest, eos⟩, hfinish, rfl⟩ := h
  have ho := new_ok hnew
  have hsteady : Steady hw s := ⟨by rw [ho.encoder], ho.sent.counted rfl⟩
  obtain ⟨he, hclear, hnone⟩ := encodeAll_ok hall hsteady
  rw [ho.recordingStartUs, ho.lastPtsUs, ha] at hclear hnone
  rw [ho.recordingStartUs, ho.lastPtsUs, ho.input, ha, hs] at he
  have hsent := ho.sent
  rw [hs] at hsent
  have hrest := finish_ok hfinish
  constructor
  · intro hnil
    obtain ⟨rfl, rfl⟩ := hnone hnil
    rw [List.nil_append, hrest, ho.encoder]
    rfl
  · intro hne
    refine ⟨(s'.output.getD {}).filter.held, ?_, ?_⟩
    · have hcons := he.conserves
      rw [hsent.inFlight] at hcons
      rw [inFlight, hclear (.inl hne), List.append_nil] at hcons
      calc carried (ps ++ rest) ++ (s'.output.getD {}).filter.held
          = carried ps ++ (carried rest ++ (s'.output.getD {}).filter.held) := by
            rw [carried_append, List.append_assoc]
        _ = seeds firstFrame strategy ++ feeds hw (firstStage strategy) accepted := by
            rw [hrest, hcons]
            rfl
    · have hcount := he.steady.counted
      rw [Counted, he.taken, hsent.taken] at hcount
      exact hcount.trans (congrArg (fun n => heldAfter _ (n + _)) (Nat.zero_add _))

/-- What the claimed conservation asks of the packets of a recording. -/
structure FramesConserved (startUs : UInt64) (frames : List OwnedFrame)
    (packets : List EncodedPacket) : Prop where
  emitted : carried packets = avFrames startUs none frames
  increasing : (packets.map fun p => p.header.ptsUs).Pairwise (· < ·)
  recorded : ∀ p ∈ packets, startUs ≤ p.encodes.header.timestampUs

/-- The delays under which each kind of input conserves its frames. -/
def Conserves (hw : Hardware) (firstFrame : OwnedFrame) (accepted : List AvFrame) :
    InputStrategy → Prop
  | .raw => heldAfter hw.filterReleases accepted.length = 0
  | .cuvid | .cuvidWithMjpegBsf =>
    (∀ n < accepted.length, heldAfter hw.decoderReleases (n + 1) = 0) ∧
      heldAfter hw.filterReleases accepted.length = 0
  | .cpuDecode =>
    accepted = [] ∨ accepted = [⟨firstFrame, 0⟩] ∧ heldAfter hw.filterReleases 2 = 1

theorem emitted_iff {releases : ℕ → ℕ} {emitted left accepted : List AvFrame}
    (h : emitted ++ left = accepted) (hl : left.length = heldAfter releases accepted.length) :
    emitted = accepted ↔ heldAfter releases accepted.length = 0 := by
  rw [← hl, List.length_eq_zero_iff]
  constructor
  · intro he
    rw [he] at h
    exact List.append_right_eq_self.mp h
  · rintro rfl
    rwa [List.append_nil] at h

/-- The seed repeats the first frame, so it is right only in its stead. -/
theorem seeded_iff {releases : ℕ → ℕ} {emitted left accepted : List AvFrame} {seed : AvFrame}
    (h : emitted ++ left = seed :: accepted) (hne : accepted ≠ [])
    (hl : left.length = heldAfter releases (1 + accepted.length))
    (hn : (accepted.map AvFrame.pts).Nodup) :
    emitted = accepted ↔ accepted = [seed] ∧ heldAfter releases 2 = 1 := by
  constructor
  · rintro rfl
    cases emitted with
    | nil => exact absurd rfl hne
    | cons f rest =>
      rw [List.cons_append, List.cons.injEq] at h
      obtain ⟨rfl, h⟩ := h
      cases rest with
      | nil =>
        rw [List.nil_append] at h
        exact ⟨rfl, hl.symm.trans (congrArg List.length h)⟩
      | cons g rest =>
        rw [List.cons_append, List.cons.injEq] at h
        obtain ⟨rfl, -⟩ := h
        rw [List.map_cons, List.map_cons, List.nodup_cons] at hn
        exact absurd List.mem_cons_self hn.1
  · rintro ⟨rfl, hheld⟩
    have hleft : left.length = 1 := hl.trans hheld
    obtain ⟨f, rfl⟩ := List.length_eq_one_iff.mp hleft
    exact (List.append_inj' (h.trans (List.singleton_append (x := seed)).symm) rfl).1

theorem emitted_accepted_iff
    (h : HwSession.record backend hw sink params firstFrame frames = .ok packets)
    {strategy : InputStrategy} (hs : backend.inputStrategy firstFrame.header.pixelFormat = strategy)
    {accepted : List AvFrame}
    (ha : avFrames params.recordingStartUs none (firstFrame :: frames) = accepted)
    (hn : (accepted.map AvFrame.pts).Nodup) :
    carried packets = accepted ↔ Conserves hw firstFrame accepted strategy := by
  obtain ⟨hnil, hsome⟩ := record_ok h hs ha
  by_cases hne : accepted = []
  · subst hne
    have hheld : heldAfter hw.filterReleases ([] : List AvFrame).length = 0 := rfl
    refine iff_of_true (hnil rfl) ?_
    cases strategy with
    | raw => exact hheld
    | cuvid | cuvidWithMjpegBsf => exact ⟨fun n hlt => absurd hlt (Nat.not_lt_zero n), hheld⟩
    | cpuDecode => exact .inl rfl
  · obtain ⟨left, hleft, hlen⟩ := hsome hne
    have hcuvid : ∀ bsf, carried packets ++ left = feeds hw (.cuvid {} bsf) accepted →
        left.length = heldAfter hw.filterReleases
          (0 + (feeds hw (.cuvid {} bsf) accepted).length) →
        (carried packets = accepted ↔
          (∀ n < accepted.length, heldAfter hw.decoderReleases (n + 1) = 0) ∧
            heldAfter hw.filterReleases accepted.length = 0) := by
      intro bsf hleft hlen
      have hnew : Counted hw.decoderReleases ({} : DelayLine OwnedFrame) := rfl
      have hprompt : feeds hw (.cuvid {} bsf) accepted = accepted ↔ ∀ n < accepted.length,
          heldAfter hw.decoderReleases (0 + n + 1) = 0 := feeds_eq_iff rfl hnew hn
      simp only [Nat.zero_add] at hprompt hlen
      rw [← hprompt]
      constructor
      · intro he
        have hle : (feeds hw (.cuvid {} bsf) accepted).length ≤ 0 + accepted.length :=
          feeds_length_le accepted
        have hsum := congrArg List.length hleft
        rw [List.length_append, he] at hsum
        have hempty : left = [] := by
          rw [← List.length_eq_zero_iff]
          omega
        rw [hempty, List.append_nil] at hleft
        rw [← hleft, he] at hlen
        exact ⟨hleft.symm.trans he, by rw [← hlen, hempty]; rfl⟩
      · rintro ⟨hfeeds, hzero⟩
        rw [hfeeds] at hleft hlen
        exact (emitted_iff hleft hlen).mpr hzero
    cases strategy with
    | raw =>
      rw [seeds, firstStage, feeds_raw, List.nil_append] at hleft
      rw [seeds, firstStage, feeds_raw, List.length_nil, Nat.zero_add] at hlen
      exact emitted_iff hleft hlen
    | cuvid => exact hcuvid false hleft hlen
    | cuvidWithMjpegBsf => exact hcuvid true hleft hlen
    | cpuDecode =>
      rw [seeds, firstStage, feeds_cpuDecode, List.singleton_append] at hleft
      rw [seeds, firstStage, feeds_cpuDecode, List.length_singleton] at hlen
      rw [seeded_iff hleft hne hlen hn]
      exact (or_iff_right hne).symm

/-- A recording conserves its frames exactly under these delays and where the times fit. -/
theorem frames_conserved_iff
    (h : HwSession.record backend hw sink params firstFrame frames = .ok packets) :
    FramesConserved params.recordingStartUs (firstFrame :: frames) packets ↔
      Conserves hw firstFrame (avFrames params.recordingStartUs none (firstFrame :: frames))
        (backend.inputStrategy firstFrame.header.pixelFormat) ∧
      TimesFit (avFrames params.recordingStartUs none (firstFrame :: frames)) := by
  have htimes : packets.map (fun p => p.header.ptsUs) = (carried packets).map AvFrame.pts := by
    rw [carried, List.map_map]
    rfl
  rw [← increasing_iff_fit]
  constructor
  · rintro ⟨hemitted, hincreasing, -⟩
    rw [htimes, hemitted] at hincreasing
    have hn := hincreasing.imp fun {a b} (hlt : a < b) => Int64.ne_of_lt hlt
    exact ⟨(emitted_accepted_iff h rfl rfl hn).mp hemitted, hincreasing⟩
  · rintro ⟨hconserves, hincreasing⟩
    have hn := hincreasing.imp fun {a b} (hlt : a < b) => Int64.ne_of_lt hlt
    have hemitted := (emitted_accepted_iff h rfl rfl hn).mpr hconserves
    refine ⟨hemitted, by rwa [htimes, hemitted], ?_⟩
    intro p hp
    have hmem : (⟨p.encodes, p.header.ptsUs⟩ : AvFrame) ∈ carried packets :=
      List.mem_map.mpr ⟨p, hp, rfl⟩
    rw [hemitted] at hmem
    exact avFrames_recorded _ _ _ hmem

end Recording

open StreamNumbering (sampleParams acceptAll)

def promptHardware : Hardware :=
  { decode := fun f => .ok (f.header.width, f.header.height)
    sends := fun _ => .ok ()
    releases := fun _ => 1
    body := fun _ => {}
    bsf := fun _ => .ok ()
    sendPacket := fun _ => .ok ()
    sendFilter := fun _ => .ok ()
    decoderReleases := fun _ => 1
    filterReleases := fun _ => 1 }

def colorFrame (pixelFormat : PixelFormat) (timestampUs : UInt64) : OwnedFrame :=
  ⟨{ timestampUs := timestampUs, width := 2, height := 2, pixelFormat := pixelFormat }, []⟩

theorem prompt_recording_conserved : ∃ packets,
    HwSession.record .nvidia promptHardware acceptAll sampleParams (colorFrame .mjpeg 1000)
      [colorFrame .mjpeg 2000] = .ok packets ∧
    FramesConserved 1000 [colorFrame .mjpeg 1000, colorFrame .mjpeg 2000] packets := by
  have hrun : ∃ packets, HwSession.record .nvidia promptHardware acceptAll sampleParams
      (colorFrame .mjpeg 1000) [colorFrame .mjpeg 2000] = .ok packets := ⟨_, rfl⟩
  obtain ⟨packets, hrecord⟩ := hrun
  refine ⟨packets, hrecord, (frames_conserved_iff hrecord).mpr ⟨⟨?_, rfl⟩, by decide⟩⟩
  intro n hn
  have hcases : n = 0 ∨ n = 1 := by
    have hn' : n < 2 := hn
    omega
  rcases hcases with rfl | rfl <;> rfl

/-- The first frame of a motion-jpeg recording goes out twice, first with the time zero. -/
theorem seeded_frame_repeated : ∃ packets,
    HwSession.record .vaapi promptHardware acceptAll sampleParams (colorFrame .mjpeg 2000) [] =
      .ok packets ∧
    carried packets = [⟨colorFrame .mjpeg 2000, 0⟩, ⟨colorFrame .mjpeg 2000, 1000⟩] ∧
    ¬ FramesConserved 1000 [colorFrame .mjpeg 2000] packets := by
  refine ⟨_, rfl, rfl, ?_⟩
  intro h
  exact absurd (congrArg List.length h.emitted) (by decide)

end HardwareConservation
