import Rollio.EncoderProcess
import Rollio.LerobotPackets
import Rollio.SessionSteps

/-! The encoder and the assembler agree on numbers: what a codec session writes from its opening
to its end, and the stream buffer that receives all of it in order. -/
namespace StreamNumbering
open BusMessages RecordingEncoder DelayLines CodecSessions SessionSteps Outcomes
open PacketDeliveries LerobotPackets

section Sessions
variable {codecs : Codecs} {sink : EncodedPacketSink} {s s' : CodecSession} {frame : OwnedFrame}
  {out : List EncodedPacket} {eos : EncodedPacketHeader} {episodeIndex : UInt32}

def episodeOf : CodecSession → UInt32
  | .libav s => s.episodeIndex
  | .rvl s => s.episodeIndex
  | .passthrough s => s.episodeIndex
  | .horizonX5 s => s.episodeIndex

def nextOf : CodecSession → UInt64
  | .libav s => s.nextSequence
  | .rvl s => s.nextSequence
  | .passthrough s => s.nextSequence
  | .horizonX5 s => s.sequence

/-- Between two calls every available packet has been received. -/
def Drained : CodecSession → Prop
  | .libav s => s.encoder.ready = []
  | _ => True

def Numbered (episodeIndex : UInt32) : UInt64 → List EncodedPacket → UInt64 → Prop
  | n, [], m => m = n
  | n, p :: ps, m => p.header.kind = .packet ∧ p.header.sequenceNumber = n ∧
      p.header.episodeIndex = episodeIndex ∧ Numbered episodeIndex (n + 1) ps m

theorem numbered_append {n k m : UInt64} {ps qs : List EncodedPacket}
    (h : Numbered episodeIndex n ps k) (h' : Numbered episodeIndex k qs m) :
    Numbered episodeIndex n (ps ++ qs) m := by
  induction ps generalizing n with
  | nil =>
    obtain rfl : k = n := h
    exact h'
  | cons p ps ih => exact ⟨h.1, h.2.1, h.2.2.1, ih h.2.2.2⟩

theorem Numbered.packet {n m : UInt64} {ps : List EncodedPacket}
    (h : Numbered episodeIndex n ps m) {i : ℕ} {p : EncodedPacket} (hp : ps[i]? = some p) :
    p.header.kind = .packet ∧ p.header.sequenceNumber = n + UInt64.ofNat i ∧
      p.header.episodeIndex = episodeIndex := by
  induction ps generalizing n i with
  | nil => cases hp
  | cons q ps ih =>
    obtain ⟨hkind, hsequence, hepisode, hrest⟩ := h
    cases i with
    | zero =>
      obtain rfl : q = p := Option.some.inj hp
      exact ⟨hkind, hsequence.trans (UInt64.add_zero n).symm, hepisode⟩
    | succ i =>
      obtain ⟨hk, hs, he⟩ := ih hrest hp
      refine ⟨hk, ?_, he⟩
      rw [hs, UInt64.add_assoc, UInt64.ofNat_add, UInt64.add_comm 1]
      rfl

theorem Numbered.stop {n m : UInt64} {ps : List EncodedPacket}
    (h : Numbered episodeIndex n ps m) : m = n + UInt64.ofNat ps.length := by
  induction ps generalizing n with
  | nil => exact (h : m = n).trans (UInt64.add_zero n).symm
  | cons q ps ih =>
    rw [ih h.2.2.2, List.length_cons, UInt64.add_assoc, UInt64.ofNat_add, UInt64.add_comm 1]
    rfl

/-- The encoder process sees of a call what any session writes: its stamps change nothing. -/
theorem Numbered.drains {n m : UInt64} {ps : List EncodedPacket}
    (h : Numbered episodeIndex n ps m) :
    (EncoderProcess.EncoderSession.mk episodeIndex n).drainPackets
        (ps.map fun p => (p.header, p.payload)) =
      (ps.map fun p => (p.header, p.payload), ⟨episodeIndex, m⟩) := by
  induction ps generalizing n with
  | nil =>
    obtain rfl : m = n := h
    rfl
  | cons p ps ih =>
    obtain ⟨hkind, hsequence, hepisode, hrest⟩ := h
    have hstamp : (EncoderProcess.EncoderSession.mk episodeIndex n).stamp .packet p.header =
        p.header := by
      rw [EncoderProcess.EncoderSession.stamp, ← hkind, ← hsequence, ← hepisode]
    simp only [List.map_cons, EncoderProcess.EncoderSession.drainPackets, ih hrest, hstamp]

theorem written_numbered {stampUs n m : UInt64} {fs : List AvFrame} {ps : List EncodedPacket}
    (h : Written episodeIndex stampUs n fs ps m) : Numbered episodeIndex n ps m := by
  induction h with
  | nil n => rfl
  | cons first rest ih => exact ⟨first.kind, first.sequence, first.episode, ih⟩

theorem open_fresh {kind : SessionKind} {params : CodecSessionParams} {first : OwnedFrame}
    (h : CodecSession.openSession codecs kind params first = .ok s) :
    episodeOf s = params.episodeIndex ∧ nextOf s = 0 ∧ Drained s := by
  cases kind with
  | libav =>
    obtain ⟨t, ht, rfl⟩ := map_eq_ok.mp h
    simp only [LibavCodecSession.new, bind_eq_ok, pure_eq_ok] at ht
    obtain ⟨-, -, rfl⟩ := ht
    exact ⟨rfl, rfl, rfl⟩
  | rvl =>
    obtain ⟨t, ht, rfl⟩ := map_eq_ok.mp h
    simp only [RvlCodecSession.new, check_eq_ok, pure_eq_ok] at ht
    obtain ⟨-, rfl⟩ := ht
    exact ⟨rfl, rfl, trivial⟩
  | passthrough =>
    obtain ⟨t, ht, rfl⟩ := map_eq_ok.mp h
    simp only [PassthroughCodecSession.openSession, check_eq_ok, pure_eq_ok] at ht
    obtain ⟨-, -, -, rfl⟩ := ht
    exact ⟨rfl, rfl, trivial⟩
  | horizonX5 =>
    obtain ⟨t, ht, rfl⟩ := map_eq_ok.mp h
    unfold HorizonX5Session.openSession at ht
    cases hc : params.codec <;> simp only [hc, throw_eq_ok, bind_eq_ok, pure_eq_ok] at ht <;>
      (obtain ⟨-, -, rfl⟩ := ht; exact ⟨rfl, rfl, trivial⟩)

/-- One call goes on where the session's number stands, whatever leaves the codec. -/
theorem encode_numbered (h : s.encode codecs sink frame = .ok (s', out)) (hs : Drained s) :
    Numbered (episodeOf s) (nextOf s) out (nextOf s') ∧ episodeOf s' = episodeOf s ∧
      Drained s' := by
  cases s with
  | libav s =>
    obtain ⟨⟨t, ps⟩, ht, he⟩ := map_eq_ok.mp h
    obtain ⟨rfl, rfl⟩ := Prod.mk.inj he
    rcases libav_encode_ok ht hs with ⟨-, rfl, rfl⟩ | ⟨pts, -, hw, hsession⟩
    · exact ⟨rfl, rfl, hs⟩
    · exact ⟨written_numbered hw, by rw [hsession]; rfl, by rw [hsession]; rfl⟩
  | rvl s =>
    obtain ⟨⟨t, ps⟩, ht, he⟩ := map_eq_ok.mp h
    obtain ⟨rfl, rfl⟩ := Prod.mk.inj he
    obtain ⟨hw, hsession, -⟩ := rvl_encode_ok ht
    exact ⟨written_numbered hw, by rw [hsession]; rfl, trivial⟩
  | passthrough s =>
    obtain ⟨⟨t, ps⟩, ht, he⟩ := map_eq_ok.mp h
    obtain ⟨rfl, rfl⟩ := Prod.mk.inj he
    obtain ⟨hw, hsession⟩ := passthrough_encode_ok ht
    exact ⟨written_numbered hw, by rw [hsession]; rfl, trivial⟩
  | horizonX5 s =>
    obtain ⟨⟨t, ps⟩, ht, he⟩ := map_eq_ok.mp h
    obtain ⟨rfl, rfl⟩ := Prod.mk.inj he
    obtain ⟨hw, hsession⟩ := horizonX5_encode_ok ht
    exact ⟨written_numbered hw, by rw [hsession]; rfl, trivial⟩

theorem finish_numbered (h : s.finish codecs sink = .ok (out, eos)) (hs : Drained s) :
    Numbered (episodeOf s) (nextOf s) out eos.sequenceNumber ∧ eos.kind = .endOfStream ∧
      eos.episodeIndex = episodeOf s := by
  cases s with
  | libav s =>
    obtain ⟨hw, hkind, hepisode⟩ := libav_finish_ok h hs
    exact ⟨written_numbered hw, hkind, hepisode⟩
  | rvl s =>
    obtain ⟨t, ht, he⟩ := map_eq_ok.mp h
    obtain ⟨rfl, rfl⟩ := Prod.mk.inj he
    exact rvl_finish_ok ht
  | passthrough s =>
    obtain ⟨t, ht, he⟩ := map_eq_ok.mp h
    obtain ⟨rfl, rfl⟩ := Prod.mk.inj he
    exact passthrough_finish_ok ht
  | horizonX5 s =>
    obtain ⟨t, ht, he⟩ := map_eq_ok.mp h
    obtain ⟨rfl, rfl⟩ := Prod.mk.inj he
    exact horizonX5_finish_ok ht

theorem record_numbered {frames : List OwnedFrame}
    (h : s.record codecs sink frames = .ok (out, eos)) (hs : Drained s) :
    Numbered (episodeOf s) (nextOf s) out eos.sequenceNumber ∧ eos.kind = .endOfStream ∧
      eos.episodeIndex = episodeOf s := by
  induction frames generalizing s out with
  | nil => exact finish_numbered h hs
  | cons frame frames ih =>
    simp only [CodecSession.record, bind_eq_ok, pure_eq_ok, Prod.mk.injEq] at h
    obtain ⟨⟨s', ps⟩, hencode, ⟨qs, e⟩, hrest, rfl, rfl⟩ := h
    obtain ⟨hps, hepisode, hs'⟩ := encode_numbered hencode hs
    obtain ⟨hqs, hkind, he⟩ := ih hrest hs'
    rw [hepisode] at hqs he
    exact ⟨numbered_append hps hqs, hkind, he⟩

end Sessions

section Buffer
variable {b : RecordingStreamBuffer} {n m : UInt64} {episodeIndex : UInt32}
  {packets : List EncodedPacket} {eos : EncodedPacketHeader}

/-- A buffer that has not failed and takes number `n` next. Until the first keyframe it has
taken none, and then every number will do. -/
structure Awaits (n : UInt64) (b : RecordingStreamBuffer) : Prop where
  intact : b.failed = none
  unnumbered : b.seenKeyframe = false → b.lastSequence = none
  follows : Follows b n

theorem awaits_fresh (n : UInt64) : Awaits n {} where
  intact := rfl
  unnumbered _ := rfl
  follows last hlast := absurd hlast (Option.not_mem_none last)

theorem Awaits.packet {h : EncodedPacketHeader} (hb : Awaits n b) (hn : h.sequenceNumber = n)
    (p : List UInt8) : Awaits (n + 1) (observe b (.packet h p)) := by
  by_cases hk : b.seenKeyframe = true ∨ h.isKeyframe = true
  · rw [observe_packet_of_follows hb.intact hk (hn ▸ hb.follows)]
    constructor
    · exact hb.intact
    · intro hseen
      cases hseen
    · intro last hlast
      rw [← hn, Option.some.inj hlast]
  · rw [not_or, Bool.not_eq_true, Bool.not_eq_true] at hk
    rw [observe_packet_skipped hk.1 hk.2]
    constructor
    · exact hb.intact
    · exact hb.unnumbered
    · intro last hlast
      rw [hb.unnumbered hk.1] at hlast
      cases hlast

theorem Awaits.numbered (hb : Awaits n b) (h : Numbered episodeIndex n packets m) :
    Awaits m (observeAll b (packets.map fun p => .packet p.header p.payload)) := by
  induction packets generalizing n b with
  | nil =>
    obtain rfl : m = n := h
    exact hb
  | cons p ps ih => exact ih (hb.packet h.2.1 p.payload) h.2.2.2

def deliveries (packets : List EncodedPacket) (eos : EncodedPacketHeader) : List Delivery :=
  packets.map (fun p => toDelivery p.header p.payload) ++ [toDelivery eos []]

theorem deliveries_eq (h : Numbered episodeIndex n packets m) (heos : eos.kind = .endOfStream) :
    deliveries packets eos = packets.map (fun p => .packet p.header p.payload) ++ [.eos eos] := by
  have hpackets : packets.map (fun p => toDelivery p.header p.payload) =
      packets.map fun p => .packet p.header p.payload := by
    apply List.map_congr_left
    intro p hp
    obtain ⟨i, hi⟩ := List.mem_iff_getElem?.mp hp
    unfold toDelivery
    rw [(h.packet hi).1]
  unfold deliveries
  rw [hpackets]
  unfold toDelivery
  rw [heos]

theorem observe_deliveries (h : Numbered episodeIndex n packets eos.sequenceNumber)
    (heos : eos.kind = .endOfStream) :
    (observeAll {} (deliveries packets eos)).failed = none := by
  have hb := (awaits_fresh n).numbered h
  rw [deliveries_eq h heos, observeAll_concat, observe_eos_of_follows hb.intact hb.follows]
  exact hb.intact

theorem deliveries_keyframe (h : Numbered episodeIndex n packets m)
    (heos : eos.kind = .endOfStream) :
    (deliveries packets eos).any Delivery.isKeyframePacket = true ↔
      ∃ p ∈ packets, p.header.isKeyframe = true := by
  rw [deliveries_eq h heos, List.any_append, List.any_map]
  simp only [List.any_cons, List.any_nil, Delivery.isKeyframePacket, Bool.or_false,
    List.any_eq_true, Function.comp_apply]

end Buffer

section Agreement
variable {codecs : Codecs} {sink : EncodedPacketSink} {kind : SessionKind}
  {params : CodecSessionParams} {firstFrame : OwnedFrame} {s : CodecSession}
  {frames : List OwnedFrame} {packets : List EncodedPacket} {eos : EncodedPacketHeader}

/-- What a session writes in numbers that follow each other from zero, the assembler's buffer
takes without a gap, for every delay of the codec and every choice of keyframes. -/
theorem session_and_buffer_agree
    (hopen : CodecSession.openSession codecs kind params firstFrame = .ok s)
    (hrecord : s.record codecs sink frames = .ok (packets, eos)) :
    (∀ i p, packets[i]? = some p → p.header.kind = .packet ∧
      p.header.sequenceNumber = UInt64.ofNat i ∧ p.header.episodeIndex = params.episodeIndex) ∧
    (eos.kind = .endOfStream ∧ eos.sequenceNumber = UInt64.ofNat packets.length ∧
      eos.episodeIndex = params.episodeIndex) ∧
    (∀ k, (observeAll {} ((deliveries packets eos).take k)).failed = none) ∧
    ((observeAll {} (deliveries packets eos)).isComplete = true ↔
      ∃ p ∈ packets, p.header.isKeyframe = true) := by
  obtain ⟨hepisode, hnext, hdrained⟩ := open_fresh hopen
  obtain ⟨hn, hkind, he⟩ := record_numbered hrecord hdrained
  rw [hepisode, hnext] at hn
  have hfailed := observe_deliveries hn hkind
  refine ⟨?_, ⟨hkind, ?_, he.trans hepisode⟩, ?_, ?_⟩
  · intro i p hp
    obtain ⟨hk, hs, hi⟩ := hn.packet hp
    exact ⟨hk, hs.trans (UInt64.zero_add _), hi⟩
  · exact hn.stop.trans (UInt64.zero_add _)
  · intro k
    rw [← List.take_append_drop k (deliveries packets eos)] at hfailed
    exact observeAll_failed_antitone hfailed
  · have hcollects := collects_observeAll hfailed
    have heos : (deliveries packets eos).any Delivery.isEos = true := by
      rw [deliveries_eq hn hkind, List.any_append]
      simp only [List.any_cons, Delivery.isEos, Bool.true_or, Bool.or_true]
    rw [isComplete_iff, hcollects.eos, heos, hcollects.seen, deliveries_keyframe hn hkind]
    exact ⟨fun h => h.2.2, fun h => ⟨hfailed, rfl, h⟩⟩

def delayedCodecs : Codecs where
  av := {
    decode := fun frame => .ok (frame.header.width, frame.header.height)
    sends := fun _ => .ok ()
    releases := fun n => if n = 0 then 0 else 1
    body := fun n => { isKey := n == 0, data := [UInt8.ofNat n] } }
  depth := fun _ _ => .ok (.key, [])
  vpu := { convert := fun _ => .ok (), encode := fun _ _ => .ok (true, []) }

def sampleParams : CodecSessionParams where
  codec := .h264
  fps := 30
  episodeIndex := 7
  recordingStartUs := 1000
  outputWidth := 2
  outputHeight := 2
  allowRescale := false

def sampleFrame (timestampUs : UInt64) : OwnedFrame :=
  ⟨{ timestampUs := timestampUs, width := 2, height := 2 }, []⟩

def acceptAll : EncodedPacketSink := fun _ _ => .ok ()

theorem delayed_session_agrees : ∃ s packets eos,
    CodecSession.openSession delayedCodecs .libav sampleParams (sampleFrame 1000) = .ok s ∧
      s.record delayedCodecs acceptAll [sampleFrame 1000, sampleFrame 2000] =
        .ok (packets, eos) ∧
      packets.map (fun p => p.header.sequenceNumber) = [0, 1] ∧
      (observeAll {} (deliveries packets eos)).isComplete = true := by
  have hrun : ∃ s r,
      CodecSession.openSession delayedCodecs .libav sampleParams (sampleFrame 1000) = .ok s ∧
        s.record delayedCodecs acceptAll [sampleFrame 1000, sampleFrame 2000] = .ok r ∧
        r.1.map (fun p => p.header.sequenceNumber) = [0, 1] ∧
        ∃ p ∈ r.1, p.header.isKeyframe = true :=
    ⟨_, _, rfl, rfl, rfl, _, List.mem_cons_self, by decide⟩
  obtain ⟨s, ⟨packets, eos⟩, hopen, hrecord, hnumbers, hkey⟩ := hrun
  exact ⟨s, packets, eos, hopen, hrecord, hnumbers,
    (session_and_buffer_agree hopen hrecord).2.2.2.mpr hkey⟩

end Agreement

end StreamNumbering
