import Rollio.CodecSessions
import Rollio.Outcomes

/-! What one call on a codec session writes: consecutively numbered packets of its episode, one
for each picture that leaves the codec, stamped with the frame the call is about. -/
namespace SessionSteps
open BusMessages RecordingEncoder DelayLines CodecSessions Outcomes

/-- A packet of picture `f` that a session has written as number `n`. -/
structure Writes (episodeIndex : UInt32) (stampUs : UInt64) (n : UInt64) (f : AvFrame)
    (p : EncodedPacket) : Prop where
  encodes : p.encodes = f.picture
  kind : p.header.kind = .packet
  sequence : p.header.sequenceNumber = n
  episode : p.header.episodeIndex = episodeIndex
  pts : p.header.ptsUs = f.pts
  stamp : p.header.sourceTimestampUs = stampUs

/-- The packets of some pictures, numbered from the first number up to the second. -/
inductive Written (episodeIndex : UInt32) (stampUs : UInt64) :
    UInt64 → List AvFrame → List EncodedPacket → UInt64 → Prop
  | nil (n : UInt64) : Written episodeIndex stampUs n [] [] n
  | cons {n m : UInt64} {f : AvFrame} {fs : List AvFrame} {p : EncodedPacket}
      {ps : List EncodedPacket} (first : Writes episodeIndex stampUs n f p)
      (rest : Written episodeIndex stampUs (n + 1) fs ps m) :
      Written episodeIndex stampUs n (f :: fs) (p :: ps) m

theorem written_one {episodeIndex : UInt32} {stampUs n : UInt64} {f : AvFrame} {p : EncodedPacket}
    (h : Writes episodeIndex stampUs n f p) :
    Written episodeIndex stampUs n [f] [p] (n + 1) := .cons h (.nil _)

theorem setKeyframe_frame (h : EncodedPacketHeader) (b : Bool) :
    h.setKeyframe b = { h with flags := (h.setKeyframe b).flags } := by
  cases b <;> rfl

theorem isKeyframe_setKeyframe (h : EncodedPacketHeader) :
    (h.setKeyframe true).isKeyframe = true := by
  have hflags : (h.flags ||| encodedPacketFlagKeyframe) &&& encodedPacketFlagKeyframe =
      encodedPacketFlagKeyframe := by
    rw [← UInt32.toBitVec_inj, UInt32.toBitVec_and, UInt32.toBitVec_or]
    ext i hi
    rw [BitVec.getElem_and, BitVec.getElem_or]
    cases h.flags.toBitVec[i] <;> cases encodedPacketFlagKeyframe.toBitVec[i] <;> rfl
  show ((h.flags ||| encodedPacketFlagKeyframe) &&& encodedPacketFlagKeyframe != 0) = true
  rw [hflags]
  rfl

theorem writePacket_eq_ok {sink : EncodedPacketSink} {p q : EncodedPacket} :
    sink.writePacket p = .ok q ↔ sink p.header p.payload = .ok () ∧ q = p := by
  simp only [EncodedPacketSink.writePacket, bind_eq_ok, pure_eq_ok]
  constructor
  · rintro ⟨_, hs, rfl⟩
    exact ⟨hs, rfl⟩
  · rintro ⟨hs, rfl⟩
    exact ⟨_, hs, rfl⟩

theorem writeEos_eq_ok {sink : EncodedPacketSink} {h k : EncodedPacketHeader} :
    sink.writeEos h = .ok k ↔ sink h [] = .ok () ∧ k = h := by
  simp only [EncodedPacketSink.writeEos, bind_eq_ok, pure_eq_ok]
  constructor
  · rintro ⟨_, hs, rfl⟩
    exact ⟨hs, rfl⟩
  · rintro ⟨hs, rfl⟩
    exact ⟨_, hs, rfl⟩

section Libav
variable {av : Libav} {sink : EncodedPacketSink}

theorem receivePackets_ok {frame : CameraFrameHeader} {ready : List AvFrame}
    {s s' : LibavCodecSession} {out : List EncodedPacket}
    (h : LibavCodecSession.receivePackets av sink frame ready s = .ok (s', out))
    (hready : s.encoder.ready = ready) :
    Written s.episodeIndex frame.timestampUs s.nextSequence ready out s'.nextSequence ∧
      s' = { s with
        nextSequence := s'.nextSequence
        encoder := { s.encoder with ready := [], received := s'.encoder.received } } := by
  induction ready generalizing s out with
  | nil =>
    obtain ⟨rfl, rfl⟩ := Prod.mk.inj (Except.ok.inj h)
    exact ⟨.nil _, by rw [← hready]⟩
  | cons f ready ih =>
    simp only [LibavCodecSession.receivePackets, bind_eq_ok, writePacket_eq_ok, pure_eq_ok,
      Prod.mk.injEq] at h
    obtain ⟨p, ⟨-, rfl⟩, ⟨t, ps⟩, hps, rfl, rfl⟩ := h
    obtain ⟨hw, ht⟩ := ih hps rfl
    refine ⟨.cons ⟨rfl, ?_, ?_, ?_, ?_, ?_⟩ hw, ht⟩ <;>
      (dsimp only [LibavCodecSession.packetHeader]; rw [setKeyframe_frame])

/-- A frame is dropped ahead of the recording, else its picture enters the encoder and what has
become ready is stamped with this frame. -/
theorem libav_encode_ok {s s' : LibavCodecSession} {frame : OwnedFrame} {out : List EncodedPacket}
    (h : s.encode av sink frame = .ok (s', out)) (hready : s.encoder.ready = []) :
    (computePtsUs frame.header.timestampUs s.recordingStartUs s.lastPtsUs = none ∧
      s' = s ∧ out = []) ∨
    ∃ pts, computePtsUs frame.header.timestampUs s.recordingStartUs s.lastPtsUs = some pts ∧
      Written s.episodeIndex frame.header.timestampUs s.nextSequence
        (s.encoder.line.push av.releases ⟨frame, pts⟩).1 out s'.nextSequence ∧
      s' = { s with
        nextSequence := s'.nextSequence
        lastPtsUs := some pts
        encoder := ⟨(s.encoder.line.push av.releases ⟨frame, pts⟩).2, [], s'.encoder.received⟩ } := by
  unfold LibavCodecSession.encode at h
  obtain ⟨-, -, h⟩ := bind_eq_ok.mp h
  cases hpts : computePtsUs frame.header.timestampUs s.recordingStartUs s.lastPtsUs with
  | none =>
    rw [hpts] at h
    obtain ⟨rfl, rfl⟩ := Prod.mk.inj (Except.ok.inj h)
    exact Or.inl ⟨rfl, rfl, rfl⟩
  | some pts =>
    rw [hpts] at h
    simp only [bind_eq_ok, check_eq_ok] at h
    obtain ⟨-, -, -, -, -, h⟩ := h
    have hsent : (s.encoder.sendFrame av ⟨frame, pts⟩).ready =
        (s.encoder.line.push av.releases ⟨frame, pts⟩).1 := by
      show s.encoder.ready ++ (s.encoder.line.push av.releases ⟨frame, pts⟩).1 = _
      rw [hready, List.nil_append]
    obtain ⟨hw, ht⟩ := receivePackets_ok h rfl
    exact Or.inr ⟨pts, rfl, hsent ▸ hw, ht⟩

theorem libav_finish_ok {s : LibavCodecSession} {out : List EncodedPacket}
    {eos : EncodedPacketHeader} (h : s.finish av sink = .ok (out, eos))
    (hready : s.encoder.ready = []) :
    Written s.episodeIndex 0 s.nextSequence s.encoder.line.held out eos.sequenceNumber ∧
      eos.kind = .endOfStream ∧ eos.episodeIndex = s.episodeIndex := by
  simp only [LibavCodecSession.finish, bind_eq_ok, writeEos_eq_ok, pure_eq_ok,
    Prod.mk.injEq] at h
  obtain ⟨⟨t, ps⟩, hps, k, ⟨-, rfl⟩, rfl, rfl⟩ := h
  have hsent : s.encoder.sendEof.ready = s.encoder.line.held := by
    show s.encoder.ready ++ _ = _
    rw [hready, List.nil_append]
  obtain ⟨hw, ht⟩ := receivePackets_ok hps rfl
  refine ⟨hsent ▸ hw, rfl, ?_⟩
  rw [ht]

end Libav

section Immediate
variable {depth : DepthEncoder} {vpu : Vpu} {sink : EncodedPacketSink} {frame : OwnedFrame}
  {out : List EncodedPacket}

theorem rvl_encode_ok {s s' : RvlCodecSession} (h : s.encode depth sink frame = .ok (s', out)) :
    Written s.episodeIndex frame.header.timestampUs s.nextSequence
        [⟨frame, (saturatingSub frame.header.timestampUs s.recordingStartUs).toInt64⟩] out
        s'.nextSequence ∧
      s' = { s with encoded := s'.encoded, nextSequence := s'.nextSequence } ∧
      ∀ p ∈ out, p.header.isKeyframe = true := by
  unfold RvlCodecSession.encode at h
  simp only [bind_eq_ok, check_eq_ok] at h
  obtain ⟨-, -, -, h⟩ := h
  cases hpixels : depth16PayloadToVec frame.payload with
  | none =>
    rw [hpixels] at h
    cases h
  | some pixels =>
    simp only [hpixels, bind_eq_ok, writePacket_eq_ok, pure_eq_ok, Prod.mk.injEq] at h
    obtain ⟨⟨kind, payload⟩, -, duration, -, p, ⟨-, rfl⟩, rfl, rfl⟩ := h
    cases kind <;> refine ⟨written_one ⟨rfl, rfl, rfl, rfl, rfl, rfl⟩, rfl, ?_⟩
    · intro q hq
      rw [List.mem_singleton.mp hq]
      exact isKeyframe_setKeyframe _
    · intro q hq
      rw [List.mem_singleton.mp hq]
      exact isKeyframe_setKeyframe _

theorem rvl_finish_ok {s : RvlCodecSession} {eos : EncodedPacketHeader}
    (h : s.finish sink = .ok eos) : eos.sequenceNumber = s.nextSequence ∧
      eos.kind = .endOfStream ∧ eos.episodeIndex = s.episodeIndex := by
  obtain ⟨-, rfl⟩ := writeEos_eq_ok.mp h
  exact ⟨rfl, rfl, rfl⟩

theorem passthrough_encode_ok {s s' : PassthroughCodecSession}
    (h : s.encode sink frame = .ok (s', out)) :
    Written s.episodeIndex frame.header.timestampUs s.nextSequence
        [⟨frame, (saturatingSub frame.header.timestampUs s.recordingStartUs).toInt64⟩] out
        s'.nextSequence ∧
      s' = { s with nextSequence := s'.nextSequence } := by
  unfold PassthroughCodecSession.encode at h
  simp only [bind_eq_ok, check_eq_ok, writePacket_eq_ok, pure_eq_ok, Prod.mk.injEq] at h
  obtain ⟨-, -, p, ⟨-, rfl⟩, rfl, rfl⟩ := h
  refine ⟨written_one ?_, rfl⟩
  cases isH264Keyframe frame.payload <;> exact ⟨rfl, rfl, rfl, rfl, rfl, rfl⟩

theorem passthrough_finish_ok {s : PassthroughCodecSession} {eos : EncodedPacketHeader}
    (h : s.finish sink = .ok eos) : eos.sequenceNumber = s.nextSequence ∧
      eos.kind = .endOfStream ∧ eos.episodeIndex = s.episodeIndex := by
  obtain ⟨-, rfl⟩ := writeEos_eq_ok.mp h
  exact ⟨rfl, rfl, rfl⟩

theorem makeHeader_ok {s : HorizonX5Session} {kind : EncodedPacketKind} {pts : Int64}
    {isKey : Bool} {len : UInt32} {header : EncodedPacketHeader}
    (h : s.makeHeader kind pts isKey len = .ok header) : header.kind = kind ∧
      header.ptsUs = pts ∧ header.sequenceNumber = s.sequence ∧
      header.episodeIndex = s.episodeIndex ∧ header.sourceTimestampUs = 0 := by
  simp only [HorizonX5Session.makeHeader, bind_eq_ok, pure_eq_ok] at h
  obtain ⟨duration, -, rfl⟩ := h
  exact ⟨rfl, rfl, rfl, rfl, rfl⟩

/-- The hardware session stamps every packet with the time zero. -/
theorem horizonX5_encode_ok {s s' : HorizonX5Session} (h : s.encode vpu sink frame = .ok (s', out)) :
    Written s.episodeIndex 0 s.sequence [⟨frame, frame.header.timestampUs.toInt64⟩] out
        s'.sequence ∧
      s' = { s with encoded := s'.encoded, sequence := s'.sequence } := by
  unfold HorizonX5Session.encode at h
  obtain ⟨-, -, h⟩ := bind_eq_ok.mp h
  cases hvpu : vpu.encode s.encoded frame with
  | error code =>
    rw [hvpu] at h
    cases h
  | ok encoded =>
    simp only [hvpu, bind_eq_ok, writePacket_eq_ok, pure_eq_ok, Prod.mk.injEq] at h
    obtain ⟨header, hheader, p, ⟨-, rfl⟩, rfl, rfl⟩ := h
    obtain ⟨hkind, hpts, hsequence, hepisode, hstamp⟩ := makeHeader_ok hheader
    exact ⟨written_one ⟨rfl, hkind, hsequence, hepisode, hpts, hstamp⟩, rfl⟩

theorem horizonX5_finish_ok {s : HorizonX5Session} {eos : EncodedPacketHeader}
    (h : s.finish sink = .ok eos) : eos.sequenceNumber = s.sequence ∧
      eos.kind = .endOfStream ∧ eos.episodeIndex = s.episodeIndex := by
  obtain ⟨header, hheader, hsink⟩ := bind_eq_ok.mp h
  obtain ⟨-, rfl⟩ := writeEos_eq_ok.mp hsink
  obtain ⟨hkind, -, hsequence, hepisode, -⟩ := makeHeader_ok hheader
  exact ⟨hsequence, hkind, hepisode⟩

end Immediate

end SessionSteps
