import Mathlib.Algebra.Group.Nat.Defs
import Rollio.NumberedStreams
import Rollio.PacketDeliveries
import Rollio.RuntimeConfig

/-! The LeRobot assembler's buffer of one camera's packets in one episode.
Delta frames ahead of the first keyframe are skipped before numbering starts, and an
end-of-stream marker takes part in the numbering without closing the buffer. -/
namespace LerobotPackets
open BusMessages NumberedStreams PacketDeliveries
open RuntimeConfig (EncoderCodec)

def codecFromId : EncodedCodecId → EncoderCodec
  | .h264 => .h264
  | .h265 => .h265
  | .av1 => .av1
  | .rvl => .rvl
  | .mjpg => .mjpg

structure EncodedStreamConfig where
  codec : EncoderCodec
  width : UInt32
  height : UInt32
  pixelFormat : PixelFormat
  timeBaseNum : UInt32
  timeBaseDen : UInt32
  extradata : List UInt8
  deriving DecidableEq

def EncodedStreamConfig.fromHeader (header : EncodedPacketHeader) (extradata : List UInt8) :
    EncodedStreamConfig :=
  { codec := codecFromId header.codec
    width := header.width
    height := header.height
    pixelFormat := header.pixelFormat
    timeBaseNum := header.timeBaseNum
    timeBaseDen := header.timeBaseDen
    extradata := extradata }

structure EncodedPacketRecord where
  header : EncodedPacketHeader
  payload : List UInt8
  deriving DecidableEq

structure SequenceError where
  expected : UInt64
  actual : UInt64
  deriving DecidableEq, Repr

def SequenceError.display (e : SequenceError) : String :=
  "packet sequence gap: expected " ++ toString e.expected ++ ", got " ++ toString e.actual

structure RecordingStreamBuffer where
  config : Option EncodedStreamConfig := none
  packets : List EncodedPacketRecord := []
  eosReceived : Bool := false
  failed : Option String := none
  seenKeyframe : Bool := false
  lastSequence : Option UInt64 := none
  deriving DecidableEq

namespace RecordingStreamBuffer

/-- `last + 1` wraps at the top of `u64`, as a release build does. -/
def updateSequence (b : RecordingStreamBuffer) (sequence : UInt64) :
    Except SequenceError RecordingStreamBuffer :=
  match b.lastSequence with
  | none => .ok { b with lastSequence := some sequence }
  | some last =>
    if sequence = last + 1 then .ok { b with lastSequence := some sequence }
    else .error ⟨last + 1, sequence⟩

def observeConfig (b : RecordingStreamBuffer) (header : EncodedPacketHeader)
    (extradata : List UInt8) : RecordingStreamBuffer :=
  if b.failed.isSome then b
  else match b.updateSequence header.sequenceNumber with
    | .error e => { b with failed := some e.display }
    | .ok b =>
      let newConfig := EncodedStreamConfig.fromHeader header extradata
      match b.config with
      | some existing =>
        if existing = newConfig then { b with config := some newConfig }
        else { b with failed := some ("config changed mid-recording: old codec=" ++
          existing.codec.debugName ++ ", new codec=" ++ newConfig.codec.debugName) }
      | none => { b with config := some newConfig }

/-- The keyframe gate comes first; `seenKeyframe` stays set even if the number is rejected. -/
def observePacket (b : RecordingStreamBuffer) (header : EncodedPacketHeader)
    (payload : List UInt8) : RecordingStreamBuffer :=
  if b.failed.isSome then b
  else if !b.seenKeyframe && !header.isKeyframe then b
  else
    let b := { b with seenKeyframe := true }
    match b.updateSequence header.sequenceNumber with
    | .error e => { b with failed := some e.display }
    | .ok b => { b with packets := b.packets ++ [⟨header, payload⟩] }

def observeEos (b : RecordingStreamBuffer) (header : EncodedPacketHeader) :
    RecordingStreamBuffer :=
  if b.failed.isSome then b
  else match b.updateSequence header.sequenceNumber with
    | .error e => { b with failed := some e.display }
    | .ok b => { b with eosReceived := true }

def isComplete (b : RecordingStreamBuffer) : Bool :=
  b.failed.isNone && b.eosReceived && b.seenKeyframe

end RecordingStreamBuffer

def record? : Delivery → Option EncodedPacketRecord
  | .packet h p => some ⟨h, p⟩
  | .eos _ => none

def observe (b : RecordingStreamBuffer) : Delivery → RecordingStreamBuffer
  | .packet h p => b.observePacket h p
  | .eos h => b.observeEos h

def observeAll (b : RecordingStreamBuffer) (ds : List Delivery) : RecordingStreamBuffer :=
  ds.foldl observe b

/-- The deliveries that carry a number the buffer checks: all of them except the delta
packets ahead of the first keyframe. -/
def numbered (ds : List Delivery) : List Delivery :=
  (ds.takeWhile fun d => !d.isKeyframePacket).filter Delivery.isEos ++ fromKeyframe ds

/-- The number `s` is acceptable next, whatever the buffer accepted before it. -/
def Follows (b : RecordingStreamBuffer) (s : UInt64) : Prop :=
  ∀ last ∈ b.lastSequence, s = last + 1

theorem updateSequence_of_follows {b : RecordingStreamBuffer} {s : UInt64} (h : Follows b s) :
    b.updateSequence s = .ok { b with lastSequence := some s } := by
  unfold RecordingStreamBuffer.updateSequence
  cases hl : b.lastSequence with
  | none => rfl
  | some last => simp [h last (by simp [hl])]

theorem updateSequence_of_not_follows {b : RecordingStreamBuffer} {s : UInt64}
    (h : ¬ Follows b s) : ∃ e, b.updateSequence s = .error e := by
  unfold RecordingStreamBuffer.updateSequence
  cases hl : b.lastSequence with
  | none => exact absurd (by simp [Follows, hl]) h
  | some last =>
    have hs : s ≠ last + 1 := fun hs => h (by simp [Follows, hl, hs])
    exact ⟨⟨last + 1, s⟩, by simp [hs]⟩

theorem observe_of_failed {b : RecordingStreamBuffer} (h : b.failed.isSome) (d : Delivery) :
    observe b d = b := by
  cases d <;> simp [observe, RecordingStreamBuffer.observePacket,
    RecordingStreamBuffer.observeEos, h]

theorem observeAll_of_failed {b : RecordingStreamBuffer} (h : b.failed.isSome)
    (ds : List Delivery) : observeAll b ds = b := by
  induction ds with
  | nil => rfl
  | cons d ds ih =>
    change observeAll (observe b d) ds = b
    rw [observe_of_failed h, ih]

theorem observeAll_append (b : RecordingStreamBuffer) (ds es : List Delivery) :
    observeAll b (ds ++ es) = observeAll (observeAll b ds) es := List.foldl_append

theorem observeAll_concat (b : RecordingStreamBuffer) (ds : List Delivery) (d : Delivery) :
    observeAll b (ds ++ [d]) = observe (observeAll b ds) d := observeAll_append b ds [d]

theorem observe_eos_of_follows {b : RecordingStreamBuffer} {hd : EncodedPacketHeader}
    (hb : b.failed = none) (hf : Follows b hd.sequenceNumber) : observe b (.eos hd) =
      { b with lastSequence := some hd.sequenceNumber, eosReceived := true } := by
  rw [observe, RecordingStreamBuffer.observeEos, if_neg (by simp [hb]),
    updateSequence_of_follows hf]

theorem observe_eos_of_not_follows {b : RecordingStreamBuffer} {hd : EncodedPacketHeader}
    (hb : b.failed = none) (hf : ¬ Follows b hd.sequenceNumber) :
    (observe b (.eos hd)).failed ≠ none := by
  obtain ⟨e, he⟩ := updateSequence_of_not_follows hf
  rw [observe, RecordingStreamBuffer.observeEos, if_neg (by simp [hb]), he]
  simp

theorem observe_packet_skipped {b : RecordingStreamBuffer} {hd : EncodedPacketHeader}
    (hs : b.seenKeyframe = false) (hk : hd.isKeyframe = false) (p : List UInt8) :
    observe b (.packet hd p) = b := by
  simp [observe, RecordingStreamBuffer.observePacket, hs, hk]

theorem observe_packet_of_follows {b : RecordingStreamBuffer} {hd : EncodedPacketHeader}
    (hb : b.failed = none) (hk : b.seenKeyframe = true ∨ hd.isKeyframe = true)
    (hf : Follows b hd.sequenceNumber) (p : List UInt8) : observe b (.packet hd p) =
      { b with
        seenKeyframe := true
        lastSequence := some hd.sequenceNumber
        packets := b.packets ++ [⟨hd, p⟩] } := by
  have hg : ¬ (!b.seenKeyframe && !hd.isKeyframe) = true := by
    rcases hk with hk | hk <;> simp [hk]
  have hf' : Follows { b with seenKeyframe := true } hd.sequenceNumber := hf
  rw [observe, RecordingStreamBuffer.observePacket, if_neg (by simp [hb]), if_neg hg]
  simp only [updateSequence_of_follows hf']

theorem observe_packet_of_not_follows {b : RecordingStreamBuffer} {hd : EncodedPacketHeader}
    (hb : b.failed = none) (hk : b.seenKeyframe = true ∨ hd.isKeyframe = true)
    (hf : ¬ Follows b hd.sequenceNumber) (p : List UInt8) :
    (observe b (.packet hd p)).failed ≠ none := by
  have hg : ¬ (!b.seenKeyframe && !hd.isKeyframe) = true := by
    rcases hk with hk | hk <;> simp [hk]
  have hf' : ¬ Follows { b with seenKeyframe := true } hd.sequenceNumber := hf
  obtain ⟨e, he⟩ := updateSequence_of_not_follows hf'
  rw [observe, RecordingStreamBuffer.observePacket, if_neg (by simp [hb]), if_neg hg]
  simp [he]

/-- Everything one call can do to a buffer that has not failed afterwards. -/
theorem observe_cases {b : RecordingStreamBuffer} {d : Delivery}
    (h : (observe b d).failed = none) : b.failed = none ∧
    ((∃ hd p, d = .packet hd p ∧ b.seenKeyframe = false ∧ hd.isKeyframe = false ∧
        observe b d = b) ∨
      (∃ hd p, d = .packet hd p ∧ (b.seenKeyframe = true ∨ hd.isKeyframe = true) ∧
        Follows b hd.sequenceNumber ∧
        observe b d = { b with
          seenKeyframe := true
          lastSequence := some hd.sequenceNumber
          packets := b.packets ++ [⟨hd, p⟩] }) ∨
      ∃ hd, d = .eos hd ∧ Follows b hd.sequenceNumber ∧
        observe b d = { b with
          lastSequence := some hd.sequenceNumber
          eosReceived := true }) := by
  have hb : b.failed = none := by
    by_contra hb
    rw [observe_of_failed (Option.isSome_iff_ne_none.mpr hb)] at h
    exact hb h
  refine ⟨hb, ?_⟩
  cases d with
  | eos hd =>
    have hf : Follows b hd.sequenceNumber := by
      by_contra hf
      exact observe_eos_of_not_follows hb hf h
    exact Or.inr (Or.inr ⟨hd, rfl, hf, observe_eos_of_follows hb hf⟩)
  | packet hd p =>
    by_cases hk : b.seenKeyframe = true ∨ hd.isKeyframe = true
    · have hf : Follows b hd.sequenceNumber := by
        by_contra hf
        exact observe_packet_of_not_follows hb hk hf p h
      exact Or.inr (Or.inl ⟨hd, p, rfl, hk, hf, observe_packet_of_follows hb hk hf p⟩)
    · simp only [not_or, Bool.not_eq_true] at hk
      exact Or.inl ⟨hd, p, rfl, hk.1, hk.2, observe_packet_skipped hk.1 hk.2 p⟩

theorem observeAll_failed_antitone {b : RecordingStreamBuffer} {ds es : List Delivery}
    (h : (observeAll b (ds ++ es)).failed = none) : (observeAll b ds).failed = none := by
  by_contra hb
  have hs := Option.isSome_iff_ne_none.mpr hb
  rw [observeAll_append, observeAll_of_failed hs] at h
  exact hb h

theorem numbered_concat (ds : List Delivery) (d : Delivery) :
    numbered (ds ++ [d]) =
      if ds.any Delivery.isKeyframePacket || d.isKeyframePacket || d.isEos then
        numbered ds ++ [d] else numbered ds := by
  unfold numbered
  rw [fromKeyframe_concat]
  cases ha : ds.any Delivery.isKeyframePacket with
  | true =>
    have hne : (ds.takeWhile fun d => !d.isKeyframePacket).length ≠ ds.length := by
      intro hl
      have hall := List.takeWhile_eq_self_iff.mp ((List.takeWhile_prefix _).eq_of_length hl)
      simp only [Bool.not_eq_true'] at hall
      obtain ⟨k, hk, hkey⟩ := List.any_eq_true.mp ha
      simp [hall k hk] at hkey
    rw [List.takeWhile_append, if_neg hne]
    simp
  | false =>
    have hall : ∀ x ∈ ds, (!x.isKeyframePacket) = true := by simpa using ha
    rw [fromKeyframe_eq_nil ha, List.takeWhile_append_of_pos hall,
      List.takeWhile_eq_self_iff.mpr hall]
    cases hk : d.isKeyframePacket <;> cases he : d.isEos <;>
      simp [hk, he]

/-- What a fresh buffer that has not failed has kept of its deliveries so far. -/
structure Collects (ds : List Delivery) (b : RecordingStreamBuffer) : Prop where
  seen : b.seenKeyframe = ds.any Delivery.isKeyframePacket
  packets : b.packets = (fromKeyframe ds).filterMap record?
  eos : b.eosReceived = ds.any Delivery.isEos

theorem collects_nil : Collects [] {} := by
  constructor <;> simp [fromKeyframe]

theorem Collects.observe {ds : List Delivery} {b : RecordingStreamBuffer} {d : Delivery}
    (h : Collects ds b) (hs : (observe b d).failed = none) :
    Collects (ds ++ [d]) (observe b d) := by
  obtain ⟨-, ⟨hd, p, rfl, hseen, hk, he⟩ | ⟨hd, p, rfl, hk, -, he⟩ | ⟨hd, rfl, -, he⟩⟩ :=
    observe_cases hs
  · have hany : ds.any Delivery.isKeyframePacket = false := h.seen ▸ hseen
    rw [he]
    refine ⟨by simpa [Delivery.isKeyframePacket, hk] using h.seen, ?_,
      by simpa [Delivery.isEos] using h.eos⟩
    simpa [fromKeyframe_concat, Delivery.isKeyframePacket, hk, hany,
      fromKeyframe_eq_nil hany] using h.packets
  · have hany : ds.any Delivery.isKeyframePacket || hd.isKeyframe := by
      rw [← h.seen]
      simpa using hk
    rw [he]
    refine ⟨by simpa [Delivery.isKeyframePacket] using hany.symm, ?_,
      by simpa [Delivery.isEos] using h.eos⟩
    simp only [fromKeyframe_concat, Delivery.isKeyframePacket, hany, ↓reduceIte]
    simp [h.packets, record?]
  · rw [he]
    refine ⟨by simpa [Delivery.isKeyframePacket] using h.seen, ?_, by simp [Delivery.isEos]⟩
    cases hany : ds.any Delivery.isKeyframePacket with
    | true => simp [fromKeyframe_concat, hany, h.packets, record?]
    | false => simpa [fromKeyframe_concat, hany, Delivery.isKeyframePacket,
        fromKeyframe_eq_nil hany] using h.packets

theorem collects_observeAll {ds : List Delivery} (hs : (observeAll {} ds).failed = none) :
    Collects ds (observeAll {} ds) := by
  induction ds using List.reverseRecOn with
  | nil => exact collects_nil
  | append_singleton ds d ih =>
    have hc := ih (observeAll_failed_antitone hs)
    rw [observeAll_concat] at hs ⊢
    exact hc.observe hs

/-- The numbers a buffer has accepted form one consecutive run, and the last one is kept. -/
structure Tracks (ds : List Delivery) (b : RecordingStreamBuffer) : Prop where
  last : b.lastSequence.map UInt64.toNat = ((numbered ds).map Delivery.sequence).getLast?
  consecutive : Consecutive ((numbered ds).map Delivery.sequence)

theorem tracks_nil : Tracks [] {} := by
  constructor <;> simp [fromKeyframe, numbered]

theorem follows_sequence {b : RecordingStreamBuffer} {s : UInt64} (h : Follows b s)
    (hb : ∀ last ∈ b.lastSequence, last.toNat + 1 < 2 ^ 64) :
    ∀ n ∈ b.lastSequence.map UInt64.toNat, s.toNat = n + 1 := by
  intro n hn
  obtain ⟨last, hl, rfl⟩ := Option.mem_map.mp hn
  have hlt := hb last hl
  rw [h last hl, UInt64.toNat_add, UInt64.toNat_one, Nat.mod_eq_of_lt hlt]

theorem Tracks.accept {ds : List Delivery} {b c : RecordingStreamBuffer} {d : Delivery}
    (h : Tracks ds b) (hb : ∀ last ∈ b.lastSequence, last.toNat + 1 < 2 ^ 64)
    (hf : Follows b d.header.sequenceNumber)
    (hn : ds.any Delivery.isKeyframePacket || d.isKeyframePacket || d.isEos)
    (hc : c.lastSequence = some d.header.sequenceNumber) : Tracks (ds ++ [d]) c := by
  constructor
  · rw [numbered_concat, if_pos hn, List.map_append, List.map_singleton]
    simp [hc, Delivery.sequence]
  · rw [numbered_concat, if_pos hn, List.map_append, List.map_singleton, consecutive_concat,
      ← h.last]
    exact ⟨h.consecutive, follows_sequence hf hb⟩

theorem Tracks.observe {ds : List Delivery} {b : RecordingStreamBuffer} {d : Delivery}
    (h : Tracks ds b) (hk : Collects ds b)
    (hb : ∀ last ∈ b.lastSequence, last.toNat + 1 < 2 ^ 64)
    (hs : (observe b d).failed = none) : Tracks (ds ++ [d]) (observe b d) := by
  obtain ⟨-, ⟨hd, p, rfl, hseen, hkey, he⟩ | ⟨hd, p, rfl, hkey, hf, he⟩ | ⟨hd, rfl, hf, he⟩⟩ :=
    observe_cases hs
  · have hany : ds.any Delivery.isKeyframePacket = false := hk.seen ▸ hseen
    have hsame : numbered (ds ++ [.packet hd p]) = numbered ds := by
      simp [numbered_concat, Delivery.isKeyframePacket, Delivery.isEos, hkey, hany]
    rw [he]
    constructor
    · rw [hsame]
      exact h.last
    · rw [hsame]
      exact h.consecutive
  · have hany : ds.any Delivery.isKeyframePacket || hd.isKeyframe := by
      rw [← hk.seen]
      simpa using hkey
    exact h.accept hb hf (by simp only [Delivery.isKeyframePacket, hany, Bool.true_or])
      (by rw [he]; rfl)
  · exact h.accept hb hf (by simp [Delivery.isEos]) (by rw [he]; rfl)

theorem mem_of_mem_numbered {ds : List Delivery} {d : Delivery} (h : d ∈ numbered ds) :
    d ∈ ds := by
  rcases List.mem_append.mp h with h | h
  · exact (List.takeWhile_subset _) (List.mem_of_mem_filter h)
  · exact (List.dropWhile_subset _) h

theorem Tracks.last_bound {ds : List Delivery} {b : RecordingStreamBuffer} (h : Tracks ds b)
    (hseq : ∀ d ∈ ds, d.sequence + 1 < 2 ^ 64) :
    ∀ last ∈ b.lastSequence, last.toNat + 1 < 2 ^ 64 := by
  intro last hl
  have hm : last.toNat ∈ ((numbered ds).map Delivery.sequence).getLast? := by
    rw [← h.last, hl]; rfl
  obtain ⟨d, hd, he⟩ := List.mem_map.mp (List.mem_of_mem_getLast? hm)
  exact he ▸ hseq d (mem_of_mem_numbered hd)

/-- Below the top of `u64` a fresh buffer that has not failed tracks its deliveries. -/
theorem tracks_observeAll {ds : List Delivery} (hseq : ∀ d ∈ ds, d.sequence + 1 < 2 ^ 64)
    (hs : (observeAll {} ds).failed = none) : Tracks ds (observeAll {} ds) := by
  induction ds using List.reverseRecOn with
  | nil => exact tracks_nil
  | append_singleton ds d ih =>
    have hpre : ∀ d ∈ ds, d.sequence + 1 < 2 ^ 64 := fun d hd => hseq d (by simp [hd])
    have hprev := observeAll_failed_antitone hs
    have ht := ih hpre hprev
    rw [observeAll_concat] at hs ⊢
    exact ht.observe (collects_observeAll hprev) (ht.last_bound hpre) hs

theorem isComplete_iff {b : RecordingStreamBuffer} :
    b.isComplete ↔ b.failed = none ∧ b.eosReceived = true ∧ b.seenKeyframe = true := by
  simp [RecordingStreamBuffer.isComplete, and_assoc]

/-- A complete stream has lost nothing from its first keyframe on, and a failed buffer
is closed for good. -/
theorem complete_stream_intact (ds : List Delivery)
    (hseq : ∀ d ∈ ds, d.sequence + 1 < 2 ^ 64) :
    ((observeAll {} ds).isComplete = true →
      (∃ first rest, (observeAll {} ds).packets = first :: rest ∧
        first.header.isKeyframe = true) ∧
      (observeAll {} ds).packets = (fromKeyframe ds).filterMap record? ∧
      Consecutive ((numbered ds).map Delivery.sequence)) ∧
    ∀ before after, ds = before ++ after → (observeAll {} before).failed.isSome = true →
      observeAll {} ds = observeAll {} before := by
  constructor
  · intro hc
    obtain ⟨hf, -, hseen⟩ := isComplete_iff.mp hc
    have hcol := collects_observeAll hf
    obtain ⟨hd, p, rest, he, hk⟩ := fromKeyframe_head (hcol.seen ▸ hseen)
    refine ⟨⟨⟨hd, p⟩, rest.filterMap record?, ?_, hk⟩, hcol.packets,
      (tracks_observeAll hseq hf).consecutive⟩
    rw [hcol.packets, he]
    rfl
  · rintro before after rfl hfail
    rw [observeAll_append, observeAll_of_failed hfail]

def sampleStream : List Delivery :=
  [.packet { sequenceNumber := 4 } [], .packet { sequenceNumber := 5, flags := 1 } [1],
    .packet { sequenceNumber := 6 } [2], .eos { kind := .endOfStream, sequenceNumber := 7 }]

theorem sample_stream_intact :
    (observeAll {} sampleStream).packets = (fromKeyframe sampleStream).filterMap
      record? ∧
    (observeAll {} sampleStream).packets.length = 2 ∧
    Consecutive ((numbered sampleStream).map Delivery.sequence) := by
  have h := (complete_stream_intact sampleStream (by decide)).1 (by decide)
  exact ⟨h.2.1, by decide, h.2.2⟩

end LerobotPackets
