import Rollio.NumberedStreams
import Rollio.PacketDeliveries

/-! The MCAP assembler's buffer of one camera's packets in one episode. The expected number
doubles as the mark of a fresh buffer, and an end-of-stream marker is not checked at all.
Stored packets lose their headers, so a run keeps them beside the buffer. -/
namespace McapPackets
open BusMessages NumberedStreams PacketDeliveries

structure CameraPacket where
  timestampUs : UInt64
  data : List UInt8
  deriving DecidableEq, Repr

structure CameraStreamBuffer where
  packets : List CameraPacket := []
  seenKeyframe : Bool := false
  eosReceived : Bool := false
  expectedSeq : UInt64 := 0
  failed : Option String := none
  deriving DecidableEq, Repr

namespace CameraStreamBuffer

/-- `wrapping_add` is the addition of `UInt64`. -/
def observePacket (b : CameraStreamBuffer) (header : EncodedPacketHeader)
    (payload : List UInt8) : CameraStreamBuffer :=
  if b.failed.isSome then b
  else if !b.seenKeyframe && !header.isKeyframe then b
  else
    let b := { b with seenKeyframe := true }
    if header.sequenceNumber ≠ b.expectedSeq ∧ b.expectedSeq ≠ 0 then
      { b with failed := some ("sequence gap: expected " ++ toString b.expectedSeq ++
        ", got " ++ toString header.sequenceNumber) }
    else { b with
      expectedSeq := header.sequenceNumber + 1
      packets := b.packets ++ [⟨header.sourceTimestampUs, payload⟩] }

def observeEos (b : CameraStreamBuffer) (_header : EncodedPacketHeader) : CameraStreamBuffer :=
  { b with eosReceived := true }

end CameraStreamBuffer

def observe (b : CameraStreamBuffer) : Delivery → CameraStreamBuffer
  | .packet header payload => b.observePacket header payload
  | .eos header => b.observeEos header

structure Stream where
  buffer : CameraStreamBuffer := {}
  stored : List EncodedPacketHeader := []
  deriving DecidableEq

/-- A packet is stored when its call makes the buffer's list longer. -/
def deliver (s : Stream) (d : Delivery) : Stream where
  buffer := observe s.buffer d
  stored :=
    if s.buffer.packets.length < (observe s.buffer d).packets.length then s.stored ++ [d.header]
    else s.stored

def deliverAll (ds : List Delivery) : Stream := ds.foldl deliver {}

theorem deliverAll_concat (ds : List Delivery) (d : Delivery) :
    deliverAll (ds ++ [d]) = deliver (deliverAll ds) d := by
  simp [deliverAll]

def packetHeader? : Delivery → Option EncodedPacketHeader
  | .packet header _ => some header
  | .eos _ => none

def packet? : Delivery → Option CameraPacket
  | .packet header payload => some ⟨header.sourceTimestampUs, payload⟩
  | .eos _ => none

/-- The packets delivered from the first keyframe on. -/
def recorded (ds : List Delivery) : List EncodedPacketHeader :=
  (fromKeyframe ds).filterMap packetHeader?

def Accepted (a b : EncodedPacketHeader) : Prop :=
  b.sequenceNumber = a.sequenceNumber + 1 ∨ a.sequenceNumber + 1 = 0

instance (a b : EncodedPacketHeader) : Decidable (Accepted a b) :=
  inferInstanceAs (Decidable (_ ∨ _))

theorem recorded_concat (ds : List Delivery) (d : Delivery) :
    recorded (ds ++ [d]) =
      if ds.any Delivery.isKeyframePacket || d.isKeyframePacket then
        recorded ds ++ (packetHeader? d).toList
      else [] := by
  unfold recorded
  rw [fromKeyframe_concat]
  split
  · cases h : packetHeader? d <;> simp [h]
  · rfl

theorem recorded_eq_nil {ds : List Delivery} (h : ds.any Delivery.isKeyframePacket = false) :
    recorded ds = [] := by
  rw [recorded, fromKeyframe_eq_nil h, List.filterMap_nil]

def nextSeq (headers : List EncodedPacketHeader) : UInt64 :=
  match headers.getLast? with
  | some last => last.sequenceNumber + 1
  | none => 0

structure Tracks (ds : List Delivery) (s : Stream) : Prop where
  failed : s.buffer.failed = none
  seen : s.buffer.seenKeyframe = ds.any Delivery.isKeyframePacket
  expected : s.buffer.expectedSeq = nextSeq (recorded ds)
  stored : s.stored = recorded ds
  packets : s.buffer.packets = (fromKeyframe ds).filterMap packet?
  accepted : (recorded ds).IsChain Accepted

theorem observe_of_failed {b : CameraStreamBuffer} (h : b.failed.isSome = true) (d : Delivery) :
    (observe b d).failed = b.failed ∧ (observe b d).packets = b.packets := by
  cases d with
  | packet header payload =>
    rw [observe, CameraStreamBuffer.observePacket, if_pos h]
    exact ⟨rfl, rfl⟩
  | eos header => exact ⟨rfl, rfl⟩

theorem accepted_concat {headers : List EncodedPacketHeader} {header : EncodedPacketHeader} :
    (headers ++ [header]).IsChain Accepted ↔ headers.IsChain Accepted ∧
      (header.sequenceNumber = nextSeq headers ∨ nextSeq headers = 0) := by
  rw [List.isChain_append]
  unfold nextSeq
  cases hl : headers.getLast? with
  | none => simp
  | some last => simp [Accepted]

section Packet
variable {b : CameraStreamBuffer} {header : EncodedPacketHeader}

theorem observe_packet_skipped (hs : b.seenKeyframe = false) (hk : header.isKeyframe = false)
    (payload : List UInt8) : observe b (.packet header payload) = b := by
  simp [observe, CameraStreamBuffer.observePacket, hs, hk]

theorem observe_packet_stored (hf : b.failed = none)
    (hk : (b.seenKeyframe || header.isKeyframe) = true)
    (hn : header.sequenceNumber = b.expectedSeq ∨ b.expectedSeq = 0) (payload : List UInt8) :
    observe b (.packet header payload) = { b with
      seenKeyframe := true
      expectedSeq := header.sequenceNumber + 1
      packets := b.packets ++ [⟨header.sourceTimestampUs, payload⟩] } := by
  have hg : ¬ (!b.seenKeyframe && !header.isKeyframe) = true := by
    rcases Bool.or_eq_true_iff.mp hk with hk | hk <;> simp [hk]
  rw [observe, CameraStreamBuffer.observePacket, if_neg (by simp [hf]), if_neg hg]
  exact if_neg (by tauto)

theorem observe_packet_gap (hf : b.failed = none)
    (hk : (b.seenKeyframe || header.isKeyframe) = true)
    (hn : ¬ (header.sequenceNumber = b.expectedSeq ∨ b.expectedSeq = 0)) (payload : List UInt8) :
    (observe b (.packet header payload)).failed.isSome = true := by
  have hg : ¬ (!b.seenKeyframe && !header.isKeyframe) = true := by
    rcases Bool.or_eq_true_iff.mp hk with hk | hk <;> simp [hk]
  rw [observe, CameraStreamBuffer.observePacket, if_neg (by simp [hf]), if_neg hg]
  simp only [not_or] at hn
  rw [if_pos hn]
  rfl

end Packet

theorem tracks_nil : Tracks [] {} := by
  constructor <;> simp [recorded, fromKeyframe, nextSeq]

/-- One delivery keeps the track, or it is a gap the buffer reports. -/
theorem Tracks.deliver {ds : List Delivery} {s : Stream} (h : Tracks ds s) (d : Delivery) :
    Tracks (ds ++ [d]) (deliver s d) ∨
      ((deliver s d).buffer.failed.isSome = true ∧
        ¬ (recorded (ds ++ [d])).IsChain Accepted) := by
  obtain ⟨hf, hs, he, hst, hp, hacc⟩ := h
  cases d with
  | eos header =>
    have hrec : recorded (ds ++ [.eos header]) = recorded ds := by
      rw [recorded_concat]
      cases hany : ds.any Delivery.isKeyframePacket with
      | true => simp [packetHeader?]
      | false => simp [Delivery.isKeyframePacket, recorded_eq_nil hany]
    refine Or.inl ⟨hf, ?_, hrec ▸ he, ?_, ?_, hrec ▸ hacc⟩
    · exact hs.trans (by simp [Delivery.isKeyframePacket])
    · simp [McapPackets.deliver, observe, CameraStreamBuffer.observeEos, hrec, hst]
    · refine hp.trans ?_
      rw [fromKeyframe_concat]
      cases hany : ds.any Delivery.isKeyframePacket with
      | true => simp [packet?]
      | false => simp [Delivery.isKeyframePacket, fromKeyframe_eq_nil hany]
  | packet header payload =>
    by_cases hgate : (ds.any Delivery.isKeyframePacket || header.isKeyframe) = true
    · have hrec : recorded (ds ++ [.packet header payload]) = recorded ds ++ [header] := by
        rw [recorded_concat, if_pos (by simpa [Delivery.isKeyframePacket] using hgate)]
        rfl
      have hkept : (fromKeyframe (ds ++ [.packet header payload])).filterMap packet? =
          s.buffer.packets ++ [⟨header.sourceTimestampUs, payload⟩] := by
        rw [fromKeyframe_concat, if_pos (by simpa [Delivery.isKeyframePacket] using hgate), hp,
          List.filterMap_append]
        rfl
      rw [← hs] at hgate
      by_cases hnum : header.sequenceNumber = nextSeq (recorded ds) ∨ nextSeq (recorded ds) = 0
      · have ho := observe_packet_stored hf hgate (he ▸ hnum) payload
        refine Or.inl ⟨?_, ?_, ?_, ?_, ?_, ?_⟩
        · simp [McapPackets.deliver, ho, hf]
        · rw [hs] at hgate
          simpa [McapPackets.deliver, ho, Delivery.isKeyframePacket] using hgate.symm
        · simp [McapPackets.deliver, ho, hrec, nextSeq]
        · simp [McapPackets.deliver, ho, hrec, hst, Delivery.header]
        · rw [hkept]
          simp [McapPackets.deliver, ho]
        · rw [hrec, accepted_concat]
          exact ⟨hacc, hnum⟩
      · refine Or.inr ⟨observe_packet_gap hf hgate (he ▸ hnum) payload, fun hc => ?_⟩
        rw [hrec, accepted_concat] at hc
        exact hnum hc.2
    · simp only [Bool.or_eq_true, not_or, Bool.not_eq_true] at hgate
      have ho := observe_packet_skipped (hs.trans hgate.1) hgate.2 payload
      have hrec : recorded (ds ++ [.packet header payload]) = recorded ds := by
        simp [recorded_concat, Delivery.isKeyframePacket, hgate.1, hgate.2,
          recorded_eq_nil hgate.1]
      have hd : McapPackets.deliver s (.packet header payload) = s := by
        simp [McapPackets.deliver, ho]
      have hnone : fromKeyframe (ds ++ [.packet header payload]) = fromKeyframe ds := by
        simp [fromKeyframe_concat, Delivery.isKeyframePacket, hgate.1, hgate.2,
          fromKeyframe_eq_nil hgate.1]
      rw [hd]
      exact Or.inl ⟨hf, by simp [hs, Delivery.isKeyframePacket, hgate.2], hrec ▸ he,
        hrec ▸ hst, hnone ▸ hp, hrec ▸ hacc⟩

/-- The buffer fails exactly when the recorded numbers hold a pair it does not accept. -/
theorem tracks_or_failed (ds : List Delivery) : Tracks ds (deliverAll ds) ∨
    ((deliverAll ds).buffer.failed.isSome = true ∧ ¬ (recorded ds).IsChain Accepted) := by
  induction ds using List.reverseRecOn with
  | nil => exact Or.inl tracks_nil
  | append_singleton ds d ih =>
    rw [deliverAll_concat]
    rcases ih with h | ⟨hf, hc⟩
    · exact h.deliver d
    · refine Or.inr ⟨?_, fun hall => hc ?_⟩
      · rw [deliver, (observe_of_failed hf d).1]
        exact hf
      · rw [recorded_concat] at hall
        cases hany : ds.any Delivery.isKeyframePacket with
        | true =>
          rw [hany, Bool.true_or, if_pos rfl] at hall
          exact (List.isChain_append.mp hall).1
        | false =>
          rw [recorded_eq_nil hany]
          exact List.isChain_nil

theorem eosReceived_deliverAll (ds : List Delivery) :
    (deliverAll ds).buffer.eosReceived = ds.any Delivery.isEos := by
  induction ds using List.reverseRecOn with
  | nil => rfl
  | append_singleton ds d ih =>
    rw [deliverAll_concat, List.any_append, ← ih]
    cases d with
    | eos header => simp [deliver, observe, CameraStreamBuffer.observeEos, Delivery.isEos]
    | packet header payload =>
      simp only [deliver, observe, CameraStreamBuffer.observePacket, Delivery.isEos,
        List.any_cons, List.any_nil, Bool.or_false]
      split
      · rfl
      split
      · rfl
      split <;> rfl

/-- The stored packets are whole: they start at a keyframe, are numbered without gap, and
every end-of-stream marker comes after them with the number that follows. -/
structure Intact (ds : List Delivery) : Prop where
  keyframe : ∃ first rest, (deliverAll ds).stored = first :: rest ∧ first.isKeyframe = true
  consecutive : Consecutive ((deliverAll ds).stored.map (·.sequenceNumber.toNat))
  eos : ∀ before header after, ds = before ++ .eos header :: after →
    (deliverAll before).buffer.packets = (deliverAll ds).buffer.packets ∧
      ∀ last ∈ (deliverAll ds).stored.getLast?,
        header.sequenceNumber.toNat = last.sequenceNumber.toNat + 1

def CheckedGap (ds : List Delivery) : Prop := ¬ (recorded ds).IsChain Accepted

/-- A stream from its first keyframe on, numbered below the top of `u64`, and behind it
only end-of-stream markers with the next number. -/
def Closed (ds : List Delivery) : Prop :=
  ∃ body marks last, ds = body ++ marks ∧ (∀ d ∈ body, d.isEos = false) ∧
    (recorded body).getLast? = some last ∧
    (∀ d ∈ marks, d.isEos = true ∧ d.sequence = last.sequenceNumber.toNat + 1) ∧
    ∀ header ∈ (recorded body).dropLast, header.sequenceNumber + 1 ≠ 0

section Closed
variable {ds es : List Delivery}

theorem any_keyframe_of_recorded (h : recorded ds ≠ []) :
    ds.any Delivery.isKeyframePacket = true := by
  by_contra hk
  exact h (recorded_eq_nil (by simpa using hk))

theorem recorded_append (h : ds.any Delivery.isKeyframePacket = true) (es : List Delivery) :
    recorded (ds ++ es) = recorded ds ++ es.filterMap packetHeader? := by
  induction es using List.reverseRecOn with
  | nil => simp
  | append_singleton es e ih =>
    rw [← List.append_assoc, recorded_concat, if_pos (by simp [h]), ih]
    cases he : packetHeader? e <;> simp [he]

theorem filterMap_header_eq_nil (es : List Delivery) :
    es.filterMap packetHeader? = [] ↔ ∀ d ∈ es, d.isEos = true := by
  rw [List.filterMap_eq_nil_iff]
  refine forall₂_congr fun d _ => ?_
  cases d <;> simp [packetHeader?, Delivery.isEos]

theorem recorded_head (h : recorded ds ≠ []) :
    ∃ first rest, recorded ds = first :: rest ∧ first.isKeyframe = true := by
  obtain ⟨hd, p, rest, he, hk⟩ := fromKeyframe_head (any_keyframe_of_recorded h)
  exact ⟨hd, rest.filterMap packetHeader?, by rw [recorded, he]; rfl, hk⟩

theorem observe_packets (b : CameraStreamBuffer) (d : Delivery) :
    (observe b d).packets = b.packets ∨ ∃ p, (observe b d).packets = b.packets ++ [p] := by
  cases d with
  | eos header => exact Or.inl rfl
  | packet header payload =>
    simp only [observe, CameraStreamBuffer.observePacket]
    split
    · exact Or.inl rfl
    split
    · exact Or.inl rfl
    split
    · exact Or.inl rfl
    · exact Or.inr ⟨_, rfl⟩

theorem packets_length (ds : List Delivery) :
    (deliverAll ds).buffer.packets.length = (deliverAll ds).stored.length := by
  induction ds using List.reverseRecOn with
  | nil => rfl
  | append_singleton ds d ih =>
    rw [deliverAll_concat]
    obtain he | ⟨p, he⟩ := observe_packets (deliverAll ds).buffer d <;> simp [deliver, he, ih]

theorem packets_append_marks (h : ∀ d ∈ es, d.isEos = true) :
    (deliverAll (ds ++ es)).buffer.packets = (deliverAll ds).buffer.packets := by
  induction es using List.reverseRecOn with
  | nil => rw [List.append_nil]
  | append_singleton es e ih =>
    rw [← List.append_assoc, deliverAll_concat, ← ih fun d hd => h d (by simp [hd])]
    cases e with
    | eos header => rfl
    | packet header payload =>
      have hmark := h (.packet header payload) (by simp)
      simp [Delivery.isEos] at hmark

theorem exists_first_eos (h : ds.any Delivery.isEos = true) :
    ∃ before header after, ds = before ++ .eos header :: after ∧
      ∀ d ∈ before, d.isEos = false := by
  induction ds with
  | nil => cases h
  | cons d ds ih =>
    cases d with
    | eos header => exact ⟨[], header, ds, rfl, by simp⟩
    | packet hd payload =>
      obtain ⟨before, header, after, rfl, hb⟩ := ih (by simpa [Delivery.isEos] using h)
      refine ⟨.packet hd payload :: before, header, after, rfl, ?_⟩
      simpa [Delivery.isEos] using hb

/-- Without wrapping, the accepted pairs are the consecutive ones. -/
theorem consecutive_iff (headers : List EncodedPacketHeader) :
    Consecutive (headers.map (·.sequenceNumber.toNat)) ↔
      headers.IsChain Accepted ∧ ∀ header ∈ headers.dropLast, header.sequenceNumber + 1 ≠ 0 := by
  induction headers with
  | nil => simp
  | cons a headers ih =>
    cases headers with
    | nil => simp
    | cons b headers =>
      have hstep : b.sequenceNumber.toNat = a.sequenceNumber.toNat + 1 ↔
          Accepted a b ∧ a.sequenceNumber + 1 ≠ 0 := by
        have ha := a.sequenceNumber.toNat_lt
        have hb := b.sequenceNumber.toNat_lt
        simp only [Accepted, ne_eq, ← UInt64.toNat_inj, UInt64.toNat_add, UInt64.toNat_one,
          UInt64.toNat_zero]
        omega
      have hcons : Consecutive ((a :: b :: headers).map (·.sequenceNumber.toNat)) ↔
          b.sequenceNumber.toNat = a.sequenceNumber.toNat + 1 ∧
            Consecutive ((b :: headers).map (·.sequenceNumber.toNat)) :=
        List.isChain_cons_cons
      rw [hcons, ih, hstep, List.isChain_cons_cons, List.dropLast_cons_cons, List.forall_mem_cons]
      tauto

theorem recorded_isChain_of_append (h : (recorded (ds ++ es)).IsChain Accepted) :
    (recorded ds).IsChain Accepted := by
  cases hany : ds.any Delivery.isKeyframePacket with
  | false =>
    rw [recorded_eq_nil hany]
    exact List.isChain_nil
  | true =>
    rw [recorded_append hany] at h
    exact (List.isChain_append.mp h).1

theorem tracks_of_isChain (h : (recorded ds).IsChain Accepted) : Tracks ds (deliverAll ds) :=
  (tracks_or_failed ds).resolve_right fun hf => hf.2 h

theorem Intact.closed (h : Intact ds) (ht : Tracks ds (deliverAll ds))
    (he : ds.any Delivery.isEos = true) : Closed ds := by
  obtain ⟨⟨first, rest, hfirst, -⟩, hcons, heos⟩ := h
  obtain ⟨before, header, after, hsplit, hbefore⟩ := exists_first_eos he
  rw [ht.stored] at hfirst hcons heos
  -- nothing is appended after the first marker, so it ends the recorded packets
  have hchain := hsplit ▸ ht.accepted
  have hpre := tracks_of_isChain (recorded_isChain_of_append hchain)
  have hlen : (recorded before).length = (recorded ds).length := by
    rw [← hpre.stored, ← ht.stored, ← packets_length, ← packets_length,
      (heos before header after hsplit).1]
  have hne : recorded before ≠ [] := fun hnil => by
    rw [hnil, hfirst] at hlen
    simp at hlen
  have hrec := recorded_append (any_keyframe_of_recorded hne) (.eos header :: after)
  rw [← hsplit] at hrec
  have hnil : (Delivery.eos header :: after).filterMap packetHeader? = [] := by
    have := congrArg List.length hrec
    rw [List.length_append] at this
    exact List.length_eq_zero_iff.mp (by omega)
  have hmarks := (filterMap_header_eq_nil _).mp hnil
  rw [hnil, List.append_nil] at hrec
  refine ⟨before, .eos header :: after, (recorded before).getLast hne, hsplit, hbefore,
    List.getLast?_eq_some_getLast hne, fun d hd => ⟨hmarks d hd, ?_⟩, ?_⟩
  · obtain ⟨m₁, m₂, hm⟩ := List.append_of_mem hd
    cases d with
    | packet hd' payload => simpa [Delivery.isEos] using hmarks _ hd
    | eos h' =>
      refine (heos (before ++ m₁) h' m₂ (by rw [hsplit, hm]; simp)).2 _ ?_
      rw [hrec, List.getLast?_eq_some_getLast hne]
      rfl
  · rw [← hrec]
    exact ((consecutive_iff _).mp hcons).2

theorem Closed.intact (h : Closed ds) (ht : Tracks ds (deliverAll ds)) : Intact ds := by
  obtain ⟨body, marks, last, rfl, hbody, hlast, hmarks, hwrap⟩ := h
  have hne : recorded body ≠ [] := fun hnil => by simp [hnil] at hlast
  have hrec : recorded (body ++ marks) = recorded body := by
    rw [recorded_append (any_keyframe_of_recorded hne),
      (filterMap_header_eq_nil marks).mpr fun d hd => (hmarks d hd).1, List.append_nil]
  have hstored := ht.stored.trans hrec
  refine ⟨?_, ?_, fun before header after hsplit => ?_⟩
  · rw [hstored]
    exact recorded_head hne
  · rw [hstored, consecutive_iff]
    exact ⟨hrec ▸ ht.accepted, hwrap⟩
  · -- a marker cannot lie in the body, so all of the body is delivered before it
    have hbefore : ∃ m₁, before = body ++ m₁ ∧ marks = m₁ ++ .eos header :: after := by
      rcases List.append_eq_append_iff.mp hsplit with ⟨m₁, hb, hm⟩ | ⟨c, hb, hm⟩
      · exact ⟨m₁, hb, hm⟩
      · cases c with
        | nil => exact ⟨[], by simpa using hb.symm, by simpa using hm.symm⟩
        | cons d c =>
          obtain ⟨rfl, -⟩ := List.cons.inj hm
          simpa [Delivery.isEos] using hbody (.eos header) (by simp [hb])
    obtain ⟨m₁, rfl, rfl⟩ := hbefore
    have hpre : ∀ d ∈ m₁, d.isEos = true := fun d hd => (hmarks d (by simp [hd])).1
    refine ⟨?_, fun l hl => ?_⟩
    · rw [packets_append_marks hpre, packets_append_marks fun d hd => (hmarks d hd).1]
    · rw [hstored, hlast] at hl
      cases hl
      exact (hmarks (.eos header) (by simp)).2

end Closed

/-- An accepted stream is whole exactly for these inputs: no marker at all, a gap the buffer
does report, or a stream that was closed properly. -/
theorem accepted_intact_iff (ds : List Delivery) :
    ((deliverAll ds).buffer.eosReceived = true → (deliverAll ds).buffer.failed = none →
      Intact ds) ↔ ds.any Delivery.isEos = false ∨ CheckedGap ds ∨ Closed ds := by
  rw [eosReceived_deliverAll]
  constructor
  · intro h
    cases he : ds.any Delivery.isEos with
    | false => exact Or.inl rfl
    | true =>
      by_cases hg : CheckedGap ds
      · exact Or.inr (Or.inl hg)
      · have ht := tracks_of_isChain (not_not.mp hg)
        exact Or.inr (Or.inr ((h he ht.failed).closed ht he))
  · rintro (hno | hg | hc) he hf
    · rw [hno] at he
      cases he
    · rcases tracks_or_failed ds with ht | ⟨hfail, -⟩
      · exact absurd ht.accepted hg
      · simp [hf] at hfail
    · rcases tracks_or_failed ds with ht | ⟨hfail, -⟩
      · exact hc.intact ht
      · simp [hf] at hfail

theorem buffer_deliverAll (ds : List Delivery) : (deliverAll ds).buffer = ds.foldl observe {} := by
  induction ds using List.reverseRecOn with
  | nil => rfl
  | append_singleton ds d ih =>
    rw [deliverAll_concat, List.foldl_concat, ← ih]
    rfl

/-- A buffer that has not failed holds every packet from the first keyframe on, and no other. -/
theorem unfailed_buffer {ds : List Delivery} (h : (ds.foldl observe {}).failed = none) :
    (ds.foldl observe {}).packets = (fromKeyframe ds).filterMap packet? ∧
      (recorded ds).IsChain Accepted := by
  rw [← buffer_deliverAll] at h ⊢
  rcases tracks_or_failed ds with htracks | ⟨hfailed, -⟩
  · exact ⟨htracks.packets, htracks.accepted⟩
  · simp [h] at hfailed

def truncatedStream : List Delivery :=
  [.packet { flags := 1 } [1], .eos { kind := .endOfStream, sequenceNumber := 6 }]

/-- The loss of the tail goes unnoticed. -/
theorem truncated_stream_accepted : ¬ ∀ ds, (deliverAll ds).buffer.eosReceived = true →
    (deliverAll ds).buffer.failed = none → Intact ds := by
  intro hall
  have h := hall truncatedStream (by decide) (by decide)
  have hseq := (h.eos [.packet { flags := 1 } [1]] _ [] rfl).2 { flags := 1 } (by decide)
  exact absurd hseq (by decide)

end McapPackets
