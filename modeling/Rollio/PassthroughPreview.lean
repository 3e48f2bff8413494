import Mathlib.Data.List.Chain
import Rollio.AcceptedProjects
import Rollio.DerivedConfigs
import Rollio.Outcomes
import Rollio.PreviewRuntime
import Rollio.SessionSteps

/-! The preview of a camera that encodes its pictures itself. Its access units are relayed as they
are, so a decoder needs all of those between two keyframes. -/
namespace PassthroughPreview
open RecordingEncoder (OwnedFrame)
open BusMessages CodecSessions RuntimeConfig EncoderConfigs PreviewRuntime Outcomes
open DeviceConfigs ProjectConfigs DerivedConfigs AcceptedProjects SessionSteps

/-- From every published keyframe on, up to the next one, the published packets are consecutive
access units of the stream. -/
def StaysDecodable (published : List (EncodedPacket × ℕ)) : Prop :=
  ∀ before key segment after, published = before ++ key :: segment ++ after →
    key.1.header.isKeyframe = true → (∀ p ∈ segment, p.1.header.isKeyframe = false) →
    (key :: segment).IsChain fun a b => b.2 = a.2 + 1

def Decodes : Option ℕ → List (EncodedPacket × ℕ) → Prop
  | _, [] => True
  | last, p :: published =>
    (p.1.header.isKeyframe = false → ∀ n ∈ last, p.2 = n + 1) ∧
      Decodes (if p.1.header.isKeyframe || last.isSome then some p.2 else none) published

theorem Decodes.drop {last : Option ℕ} {before after : List (EncodedPacket × ℕ)}
    (h : Decodes last (before ++ after)) : ∃ last, Decodes last after := by
  induction before generalizing last with
  | nil => exact ⟨last, h⟩
  | cons p before ih => exact ih h.2

theorem Decodes.chain {n : ℕ} {key : EncodedPacket × ℕ} (hk : key.2 = n)
    {segment after : List (EncodedPacket × ℕ)} (h : Decodes (some n) (segment ++ after))
    (hs : ∀ p ∈ segment, p.1.header.isKeyframe = false) :
    (key :: segment).IsChain fun a b => b.2 = a.2 + 1 := by
  induction segment generalizing n key with
  | nil => exact List.IsChain.singleton key
  | cons p segment ih =>
    have hp := hs p List.mem_cons_self
    have hnext := h.2
    rw [hp, Bool.false_or, Option.isSome_some, if_pos rfl] at hnext
    refine List.isChain_cons_cons.mpr ⟨hk.symm ▸ h.1 hp n rfl, ?_⟩
    exact ih rfl hnext fun q hq => hs q (List.mem_cons_of_mem p hq)

/-- Behind the last keyframe the packets go on without a gap. -/
def ContinuesFrom (last : Option ℕ) (published : List (EncodedPacket × ℕ)) : Prop :=
  ∀ n ∈ last, ∀ segment after, published = segment ++ after →
    (∀ p ∈ segment, p.1.header.isKeyframe = false) →
    (n :: segment.map Prod.snd).IsChain fun a b => b = a + 1

theorem decodes_of_segments {last : Option ℕ} {published : List (EncodedPacket × ℕ)}
    (h : StaysDecodable published) (hc : ContinuesFrom last published) :
    Decodes last published := by
  induction published generalizing last with
  | nil => exact True.intro
  | cons p published ih =>
    have hrest : StaysDecodable published := by
      rintro before key segment after rfl hkey hseg
      exact h (p :: before) key segment after rfl hkey hseg
    constructor
    · intro hp n hn
      have hchain := hc n hn [p] published rfl fun q hq => List.mem_singleton.mp hq ▸ hp
      exact (List.isChain_cons_cons.mp hchain).1
    · refine ih hrest ?_
      cases hp : p.1.header.isKeyframe with
      | true =>
        rw [Bool.true_or, if_pos rfl]
        rintro n ⟨⟩ segment after rfl hseg
        have hchain := h [] p segment after rfl hp hseg
        exact (List.isChain_map Prod.snd (l := p :: segment)).mpr hchain
      | false =>
        cases last with
        | none =>
          rintro n hn
          cases hn
        | some last =>
          rw [Bool.false_or, Option.isSome_some, if_pos rfl]
          rintro n ⟨⟩ segment after rfl hseg
          have hchain := hc last rfl (p :: segment) after rfl (List.forall_mem_cons.mpr ⟨hp, hseg⟩)
          exact (List.isChain_cons_cons.mp hchain).2

theorem staysDecodable_iff {published : List (EncodedPacket × ℕ)} :
    StaysDecodable published ↔ Decodes none published := by
  constructor
  · intro h
    refine decodes_of_segments h ?_
    intro n hn
    cases hn
  · rintro h before key segment after rfl hkey hseg
    rw [List.append_assoc] at h
    obtain ⟨last, h⟩ := h.drop
    have hnext := h.2
    rw [hkey, Bool.true_or, if_pos rfl] at hnext
    exact hnext.chain rfl hseg

section Relay
variable {host : PreviewHost} {preview : PreviewEncoderConfig}

/-- A preview that relays the access units of its source. -/
structure FixedSource (preview : PreviewEncoderConfig) : Prop where
  policy : preview.resizePolicy = .fixedSource
  colorCodec : preview.colorCodec = .h264
  backend : preview.backend = .passthrough

def Sized (preview : PreviewEncoderConfig) (frame : OwnedFrame) : Prop :=
  frame.header.width = preview.width ∧ frame.header.height = preview.height

instance (preview : PreviewEncoderConfig) (frame : OwnedFrame) : Decidable (Sized preview frame) :=
  inferInstanceAs (Decidable (_ ∧ _))

/-- The session relays frames of the size of the preview, if there is one. -/
def Relaying (preview : PreviewEncoderConfig) (session : Option CodecSession) : Prop :=
  ∀ opened ∈ session, ∃ s : PassthroughCodecSession, opened = .passthrough s ∧
    s.width = preview.width ∧ s.height = preview.height

/-- The packet holds the access unit of the frame as it is. -/
structure Relays (frame : OwnedFrame) (packet : EncodedPacket) : Prop where
  encodes : packet.encodes = frame
  payload : packet.payload = frame.payload
  keyframe : packet.header.isKeyframe = isH264Keyframe frame.payload

theorem isKeyframe_buildHeader (s : PassthroughCodecSession) (frame : OwnedFrame) (pts : Int64)
    (sequence : UInt64) (len : UInt32) (keyframe : Bool) :
    (s.buildHeader .packet frame pts sequence len keyframe).isKeyframe = keyframe := by
  cases keyframe with
  | false =>
    change ((0 &&& ~~~ 1 ||| 4) &&& 1 != (0 : UInt32)) = false
    decide
  | true =>
    change ((0 ||| 1 ||| 4) &&& 1 != (0 : UInt32)) = true
    decide

theorem encode_relays (hsink : ∀ header data, host.sink header data = .ok ())
    (s : PassthroughCodecSession) {frame : OwnedFrame}
    (hf : frame.header.pixelFormat = .h264AnnexB)
    (hd : frame.header.width = s.width ∧ frame.header.height = s.height) :
    ∃ packet, s.encode host.sink frame =
      .ok ({ s with nextSequence := s.nextSequence + 1 }, [packet]) ∧ Relays frame packet := by
  let pts := (saturatingSub frame.header.timestampUs s.recordingStartUs).toInt64
  let len := UInt32.ofNat frame.payload.length
  let header := s.buildHeader .packet frame pts s.nextSequence len (isH264Keyframe frame.payload)
  refine ⟨⟨frame, header, frame.payload⟩, ?_, rfl, rfl, isKeyframe_buildHeader s frame _ _ _ _⟩
  simp only [PassthroughCodecSession.encode, bind_eq_ok, check_eq_ok, writePacket_eq_ok,
    pure_eq_ok]
  exact ⟨fun h => h hf, fun h => h.elim (· hd.1) (· hd.2), _, ⟨hsink _ _, rfl⟩, rfl⟩

theorem encode_fails {s : PassthroughCodecSession} {frame : OwnedFrame}
    (hd : ¬ (frame.header.width = s.width ∧ frame.header.height = s.height)) :
    ∀ r, s.encode host.sink frame ≠ .ok r := by
  rintro ⟨s', out⟩ h
  simp only [PassthroughCodecSession.encode, bind_eq_ok, check_eq_ok] at h
  obtain ⟨-, hd', -⟩ := h
  push Not at hd'
  exact hd hd'

theorem sessionFor_none (hp : FixedSource preview) {frame : OwnedFrame}
    (hf : frame.header.pixelFormat = .h264AnnexB) :
    ∃ params : CodecSessionParams, params.codec = .h264 ∧ params.outputWidth = preview.width ∧
      params.outputHeight = preview.height ∧
      PreviewState.sessionFor host none preview frame =
        .passthrough <$> PassthroughCodecSession.openSession params frame := by
  refine ⟨{ codec := .h264
            fps := preview.fps
            episodeIndex := 0
            recordingStartUs := frame.header.timestampUs
            outputWidth := preview.width
            outputHeight := preview.height
            allowRescale := true }, rfl, rfl, rfl, ?_⟩
  simp only [PreviewState.sessionFor, hf, reduceCtorEq, if_false, hp.colorCodec, hp.backend,
    sessionKind, or_self, if_true, and_self]
  rfl

/-- Whatever session a frame gets, it relays frames of the size of the preview. -/
theorem sessionFor_relaying (hp : FixedSource preview) {session : Option CodecSession}
    (hr : Relaying preview session) {frame : OwnedFrame}
    (hf : frame.header.pixelFormat = .h264AnnexB) {opened : CodecSession}
    (ho : PreviewState.sessionFor host session preview frame = .ok opened) :
    Relaying preview (some opened) := by
  rintro _ ⟨⟩
  cases session with
  | some session =>
    cases ho
    exact hr _ rfl
  | none =>
    obtain ⟨params, -, hw, hh, heq⟩ := @sessionFor_none host preview hp frame hf
    obtain ⟨s, hs, rfl⟩ := map_eq_ok.mp (heq ▸ ho)
    simp only [PassthroughCodecSession.openSession, check_eq_ok, pure_eq_ok] at hs
    obtain ⟨-, -, -, rfl⟩ := hs
    exact ⟨_, rfl, hw, hh⟩

theorem sessionFor_sized (hp : FixedSource preview) (session : Option CodecSession)
    {frame : OwnedFrame} (hf : frame.header.pixelFormat = .h264AnnexB)
    (hd : Sized preview frame) :
    ∃ opened, PreviewState.sessionFor host session preview frame = .ok opened := by
  cases session with
  | some session => exact ⟨session, rfl⟩
  | none =>
    obtain ⟨params, hc, hw, hh, heq⟩ := @sessionFor_none host preview hp frame hf
    have hopen : ∃ s, PassthroughCodecSession.openSession params frame = .ok s := by
      simp only [PassthroughCodecSession.openSession, check_eq_ok, pure_eq_ok]
      refine ⟨_, fun h => h hc, fun h => h hf, ?_, rfl⟩
      rintro (h | h)
      · exact h (hw.trans hd.1.symm)
      · exact h (hh.trans hd.2.symm)
    obtain ⟨s, hs⟩ := hopen
    exact ⟨.passthrough s, heq.trans (map_eq_ok.mpr ⟨s, hs, rfl⟩)⟩

theorem handleFrame_sized (hp : FixedSource preview)
    (hsink : ∀ header data, host.sink header data = .ok ()) {session : Option CodecSession}
    (hr : Relaying preview session) {frame : OwnedFrame}
    (hf : frame.header.pixelFormat = .h264AnnexB) (hd : Sized preview frame) :
    ∃ session' packet, Relaying preview session' ∧ Relays frame packet ∧
      PreviewState.handleFrame host frame (.encoded session preview) =
        (.encoded session' preview, .ok [packet]) := by
  obtain ⟨opened, ho⟩ := @sessionFor_sized host preview hp session frame hf hd
  obtain ⟨s, rfl, hw, hh⟩ := sessionFor_relaying hp hr hf ho opened rfl
  obtain ⟨packet, he, hpacket⟩ := encode_relays hsink s hf ⟨hd.1.trans hw.symm, hd.2.trans hh.symm⟩
  refine ⟨some (.passthrough { s with nextSequence := s.nextSequence + 1 }), packet, ?_, hpacket,
    ?_⟩
  · rintro _ ⟨⟩
    exact ⟨_, rfl, hw, hh⟩
  · simp only [PreviewState.handleFrame, ho, CodecSession.encode, he]
    rfl

theorem handleFrame_not_sized (hp : FixedSource preview) {session : Option CodecSession}
    (hr : Relaying preview session) {frame : OwnedFrame}
    (hf : frame.header.pixelFormat = .h264AnnexB) (hd : ¬ Sized preview frame) :
    ∃ session' e, Relaying preview session' ∧
      PreviewState.handleFrame host frame (.encoded session preview) =
        (.encoded session' preview, .error e) := by
  cases ho : PreviewState.sessionFor host session preview frame with
  | error e => exact ⟨session, e, hr, by simp only [PreviewState.handleFrame, ho]⟩
  | ok opened =>
    have hrelay := sessionFor_relaying hp hr hf ho
    obtain ⟨s, rfl, hw, hh⟩ := hrelay opened rfl
    cases he : s.encode host.sink frame with
    | ok r =>
      refine absurd he (encode_fails ?_ r)
      rintro ⟨h₁, h₂⟩
      exact hd ⟨h₁.trans hw, h₂.trans hh⟩
    | error e =>
      refine ⟨some (.passthrough s), e, hrelay, ?_⟩
      simp only [PreviewState.handleFrame, ho, CodecSession.encode, he]
      rfl

theorem newDims_fixedSource (dims : UInt32 × UInt32) (controls : List PreviewControl) :
    newDims .fixedSource dims controls = none := by
  induction controls with
  | nil => rfl
  | cons control controls ih => cases control <;> exact ih

/-- No access unit is left out between a published keyframe and a published delta. `behind` counts
those that were left out since the last published packet, once a keyframe is out. -/
def KeepsUp (preview : PreviewEncoderConfig) : Option ℕ → List Poll → Prop
  | _, [] => True
  | behind, poll :: polls =>
    match poll.frames.getLast? with
    | none => KeepsUp preview behind polls
    | some frame =>
      if Sized preview frame then
        (isH264Keyframe frame.payload = false → ∀ n ∈ behind, n + poll.frames.length = 1) ∧
          KeepsUp preview
            (if isH264Keyframe frame.payload || behind.isSome then some 0 else none) polls
      else KeepsUp preview (behind.map (· + poll.frames.length)) polls

theorem keepsUp_idle {behind : Option ℕ} {poll : Poll} (hl : poll.frames.getLast? = none)
    (polls : List Poll) : KeepsUp preview behind (poll :: polls) ↔ KeepsUp preview behind polls := by
  rw [KeepsUp, hl]

theorem keepsUp_sized {behind : Option ℕ} {poll : Poll} {frame : OwnedFrame}
    (hl : poll.frames.getLast? = some frame) (hd : Sized preview frame) (polls : List Poll) :
    KeepsUp preview behind (poll :: polls) ↔
      (isH264Keyframe frame.payload = false → ∀ n ∈ behind, n + poll.frames.length = 1) ∧
        KeepsUp preview
          (if isH264Keyframe frame.payload || behind.isSome then some 0 else none) polls := by
  rw [KeepsUp, hl]
  exact iff_of_eq (if_pos hd)

theorem keepsUp_not_sized {behind : Option ℕ} {poll : Poll} {frame : OwnedFrame}
    (hl : poll.frames.getLast? = some frame) (hd : ¬ Sized preview frame) (polls : List Poll) :
    KeepsUp preview behind (poll :: polls) ↔
      KeepsUp preview (behind.map (· + poll.frames.length)) polls := by
  rw [KeepsUp, hl]
  exact iff_of_eq (if_neg hd)

/-- A loop that finds at most one access unit in each pass keeps up. -/
theorem keepsUp_of_length_le_one {behind : Option ℕ} (hb : ∀ n ∈ behind, n = 0)
    {polls : List Poll} (hlen : ∀ poll ∈ polls, poll.frames.length ≤ 1)
    (hd : ∀ poll ∈ polls, ∀ frame ∈ poll.frames, Sized preview frame) :
    KeepsUp preview behind polls := by
  induction polls generalizing behind with
  | nil => exact True.intro
  | cons poll polls ih =>
    have hlen' := fun p hp => hlen p (List.mem_cons_of_mem poll hp)
    have hd' := fun p hp => hd p (List.mem_cons_of_mem poll hp)
    cases hl : poll.frames.getLast? with
    | none => exact (keepsUp_idle hl polls).mpr (ih hb hlen' hd')
    | some frame =>
      have hmem := List.mem_of_getLast? hl
      have hone := hlen poll List.mem_cons_self
      have hpos := List.length_pos_of_mem hmem
      refine (keepsUp_sized hl (hd poll List.mem_cons_self frame hmem) polls).mpr ⟨?_, ?_⟩
      · intro _ n hn
        have hn := hb n hn
        omega
      · refine ih ?_ hlen' hd'
        intro n hn
        split_ifs at hn with hk
        · exact (Option.some.inj hn).symm
        · cases hn

/-- The frames of a camera that encodes its pictures itself. -/
def AccessUnits (polls : List Poll) : Prop :=
  ∀ poll ∈ polls, ∀ frame ∈ poll.frames, frame.header.pixelFormat = .h264AnnexB

theorem pass_idle (session : Option CodecSession) {poll : Poll} (hl : poll.frames.getLast? = none) :
    pass host .fixedSource (.encoded session preview) poll = (.encoded session preview, []) := by
  simp only [PreviewRuntime.pass, applyControls, newDims_fixedSource, hl]

theorem pass_sized (hp : FixedSource preview)
    (hsink : ∀ header data, host.sink header data = .ok ()) {session : Option CodecSession}
    (hr : Relaying preview session) {poll : Poll} {frame : OwnedFrame}
    (hl : poll.frames.getLast? = some frame) (hf : frame.header.pixelFormat = .h264AnnexB)
    (hd : Sized preview frame) :
    ∃ session' packet, Relaying preview session' ∧ Relays frame packet ∧
      pass host .fixedSource (.encoded session preview) poll =
        (.encoded session' preview, [packet]) := by
  obtain ⟨session', packet, hr', hpacket, heq⟩ := handleFrame_sized hp hsink hr hf hd
  refine ⟨session', packet, hr', hpacket, ?_⟩
  simp only [PreviewRuntime.pass, applyControls, newDims_fixedSource, hl, heq, List.nil_append]

theorem pass_not_sized (hp : FixedSource preview) {session : Option CodecSession}
    (hr : Relaying preview session) {poll : Poll} {frame : OwnedFrame}
    (hl : poll.frames.getLast? = some frame) (hf : frame.header.pixelFormat = .h264AnnexB)
    (hd : ¬ Sized preview frame) :
    ∃ session', Relaying preview session' ∧
      pass host .fixedSource (.encoded session preview) poll =
        (.encoded session' preview, []) := by
  obtain ⟨session', e, hr', heq⟩ := @handleFrame_not_sized host preview hp _ hr frame hf hd
  refine ⟨session', hr', ?_⟩
  simp only [PreviewRuntime.pass, applyControls, newDims_fixedSource, hl, heq]

theorem getElem?_last_of_pass {stream frames : List OwnedFrame} {frame : OwnedFrame}
    (hl : frames.getLast? = some frame) (rest : List OwnedFrame) :
    (stream ++ frames ++ rest)[stream.length + frames.length - 1]? = some frame := by
  obtain ⟨init, rfl⟩ := List.getLast?_eq_some_iff.mp hl
  have hplace : stream.length + (init ++ [frame]).length - 1 = (stream ++ init).length := by
    rw [List.length_append, List.length_append]
    rfl
  rw [hplace, ← List.append_assoc, List.append_assoc, List.singleton_append,
    List.getElem?_append_right (Nat.le_refl _), Nat.sub_self]
  rfl

theorem run_places (hp : FixedSource preview)
    (hsink : ∀ header data, host.sink header data = .ok ()) {session : Option CodecSession}
    (hr : Relaying preview session) {polls : List Poll} (hf : AccessUnits polls)
    (stream : List OwnedFrame) :
    ∀ q ∈ run host .fixedSource (.encoded session preview) stream.length polls,
      ∃ frame, (stream ++ polls.flatMap Poll.frames)[q.2]? = some frame ∧ Relays frame q.1 := by
  induction polls generalizing session stream with
  | nil =>
    intro q hq
    cases hq
  | cons poll polls ih =>
    have hrest : AccessUnits polls := fun p hp => hf p (List.mem_cons_of_mem poll hp)
    have hlen : stream.length + poll.frames.length = (stream ++ poll.frames).length :=
      List.length_append.symm
    intro q hq
    rw [List.flatMap_cons, ← List.append_assoc]
    rw [run, List.mem_append, hlen] at hq
    cases hl : poll.frames.getLast? with
    | none =>
      rw [pass_idle session hl, List.map_nil] at hq
      exact ih hr hrest _ q (hq.resolve_left List.not_mem_nil)
    | some frame =>
      have hframe := hf poll List.mem_cons_self frame (List.mem_of_getLast? hl)
      by_cases hd : Sized preview frame
      · obtain ⟨session', packet, hr', hpacket, heq⟩ := pass_sized hp hsink hr hl hframe hd
        rw [heq] at hq
        rcases hq with hq | hq
        · obtain rfl := List.mem_singleton.mp hq
          refine ⟨frame, ?_, hpacket⟩
          rw [List.length_append]
          exact getElem?_last_of_pass hl _
        · exact ih hr' hrest _ q hq
      · obtain ⟨session', hr', heq⟩ := pass_not_sized hp hr hl hframe hd
        rw [heq, List.map_nil] at hq
        exact ih hr' hrest _ q (hq.resolve_left List.not_mem_nil)

/-- One run of the loop, behind a packet at the place `last`. -/
theorem run_decodes_iff (hp : FixedSource preview)
    (hsink : ∀ header data, host.sink header data = .ok ()) {session : Option CodecSession}
    (hr : Relaying preview session) {polls : List Poll} (hf : AccessUnits polls)
    {last : Option ℕ} {seen : ℕ} (hs : ∀ n ∈ last, n < seen) :
    Decodes last (run host .fixedSource (.encoded session preview) seen polls) ↔
      KeepsUp preview (last.map fun n => seen - (n + 1)) polls := by
  induction polls generalizing session last seen with
  | nil => exact Iff.rfl
  | cons poll polls ih =>
    have hrest : AccessUnits polls := fun p hp => hf p (List.mem_cons_of_mem poll hp)
    cases hl : poll.frames.getLast? with
    | none =>
      have hnil := List.getLast?_eq_none_iff.mp hl
      rw [run, pass_idle session hl, List.map_nil, List.nil_append, hnil, List.length_nil,
        Nat.add_zero, ih hr hrest hs, keepsUp_idle hl]
    | some frame =>
      have hframe := hf poll List.mem_cons_self frame (List.mem_of_getLast? hl)
      have hpos : 0 < poll.frames.length := List.length_pos_of_mem (List.mem_of_getLast? hl)
      by_cases hd : Sized preview frame
      · obtain ⟨session', packet, hr', hpacket, heq⟩ := pass_sized hp hsink hr hl hframe hd
        rw [run, heq, List.map_singleton, List.singleton_append, keepsUp_sized hl hd, Decodes,
          hpacket.keyframe, Option.isSome_map]
        refine and_congr (imp_congr_right fun _ => ?_) ?_
        · cases last with
          | none => exact ⟨fun _ n hn => (by cases hn), fun _ n hn => (by cases hn)⟩
          | some n =>
            have hn := hs n rfl
            constructor
            · rintro h _ ⟨⟩
              have hplace : seen + poll.frames.length - 1 = n + 1 := h n rfl
              show seen - (n + 1) + poll.frames.length = 1
              omega
            · rintro h _ ⟨⟩
              have hbehind : seen - (n + 1) + poll.frames.length = 1 := h _ rfl
              show seen + poll.frames.length - 1 = n + 1
              omega
        · by_cases hk : (isH264Keyframe frame.payload || last.isSome) = true
          · rw [if_pos hk, if_pos hk, ih hr' hrest ?_, Option.map_some]
            · have hbehind : seen + poll.frames.length - (seen + poll.frames.length - 1 + 1) = 0 := by
                omega
              rw [hbehind]
            · rintro _ ⟨⟩
              omega
          · rw [if_neg hk, if_neg hk, ih hr' hrest fun n hn => (by cases hn), Option.map_none]
      · obtain ⟨session', hr', heq⟩ := @pass_not_sized host preview hp _ hr _ _ hl hframe hd
        have hlast : ∀ n ∈ last, n < seen + poll.frames.length := fun n hn =>
          Nat.lt_add_right _ (hs n hn)
        rw [run, heq, List.map_nil, List.nil_append, ih hr' hrest hlast, keepsUp_not_sized hl hd,
          Option.map_map]
        cases last with
        | none => exact Iff.rfl
        | some n =>
          have hn := hs n rfl
          have hbehind : seen + poll.frames.length - (n + 1) =
              seen - (n + 1) + poll.frames.length := by omega
          rw [Option.map_some, Option.map_some, hbehind]
          rfl

end Relay

section Project
variable {α : Type} {config : ProjectConfig α} {camera : ResolvedCameraChannel}

/-- What a project derives for the preview of a camera whose policy is the fixed one. -/
theorem previewEncoderConfig_fixedSource
    (hpolicy : previewResizePolicy camera.pixelFormat (cameraPreviewConfig config camera) =
      .fixedSource)
    {preview : PreviewEncoderConfig}
    (hpreview : (previewEncoderConfig config camera).preview = some preview) :
    FixedSource preview ∧ PreviewState.openState preview = .ok (.encoded none preview) ∧
      preview.width = camera.width ∧ preview.height = camera.height := by
  obtain rfl := Option.some.inj hpreview
  have hcodec : (cameraPreviewConfig config camera).outputMode = .encoded ∧
      (cameraPreviewConfig config camera).colorCodec = .h264 := by
    by_cases hc : camera.pixelFormat = .h264AnnexB ∧
        (cameraPreviewConfig config camera).outputMode = .encoded ∧
        (cameraPreviewConfig config camera).colorCodec = .h264
    · exact hc.2
    · rw [previewResizePolicy, if_neg hc] at hpolicy
      cases hpolicy
  refine ⟨⟨hpolicy, hcodec.2, ?_⟩, ?_, ?_, ?_⟩
  · simp only [hpolicy, reduceCtorEq, if_false]
  · simp only [PreviewState.openState, hcodec.1, if_true, Option.isNone_some, Bool.false_eq_true,
      if_false]
  · simp only [hpolicy, reduceCtorEq, if_false]
  · simp only [hpolicy, reduceCtorEq, if_false]

/-- A published packet is an access unit of the camera, unchanged. The preview stays decodable just
when the loop keeps up with the camera. -/
theorem passthrough_decodable_iff
    (hpolicy : previewResizePolicy camera.pixelFormat (cameraPreviewConfig config camera) =
      .fixedSource)
    {preview : PreviewEncoderConfig} {state : PreviewState}
    (hpreview : (previewEncoderConfig config camera).preview = some preview)
    (hopen : PreviewState.openState preview = .ok state)
    {host : PreviewHost} (hsink : ∀ header data, host.sink header data = .ok ())
    {polls : List Poll} (hf : AccessUnits polls) :
    (∀ q ∈ run host preview.resizePolicy state 0 polls,
      ∃ frame, (polls.flatMap Poll.frames)[q.2]? = some frame ∧ Relays frame q.1) ∧
    (StaysDecodable (run host preview.resizePolicy state 0 polls) ↔ KeepsUp preview none polls) := by
  obtain ⟨hp, hstate, -, -⟩ := previewEncoderConfig_fixedSource hpolicy hpreview
  obtain rfl := Except.ok.inj (hopen.symm.trans hstate)
  have hr : Relaying preview none := by
    intro opened ho
    cases ho
  rw [hp.policy]
  constructor
  · intro q hq
    obtain ⟨frame, hframe, hrelays⟩ := run_places hp hsink hr hf [] q hq
    exact ⟨frame, hframe, hrelays⟩
  · rw [staysDecodable_iff, run_decodes_iff hp hsink hr hf fun n hn => (by cases hn)]
    rfl

end Project

def encodingCamera : BinaryDeviceConfig ℚ :=
  { name := "cam", driver := "v4l2", id := "video0", busRoot := "cam"
    channels := [{ channelType := "color", kind := .camera
                   profile := some ⟨640, 480, 30, .h264AnnexB, none, none, none, none, none, none,
                     none⟩ }] }

def encodingProject : ProjectConfig ℚ := sampleProject [encodingCamera] []

def encodingChannel : ResolvedCameraChannel :=
  { channelId := "cam/color", deviceName := "cam", busRoot := "cam", channelType := "color"
    frameTopic := "cam/color/frames", width := 640, height := 480, fps := 30
    pixelFormat := .h264AnnexB }

def relayHost : PreviewHost :=
  { codecs :=
      { av := { decode := fun _ => .error "", sends := fun _ => .ok (), releases := fun _ => 1
                body := fun _ => {} }
        depth := fun _ _ => .error ""
        vpu := { convert := fun _ => .ok (), encode := fun _ _ => .error 0 } }
    colorBackend := fun _ _ _ => .error ""
    render := fun _ _ _ => .error ""
    compress := fun _ _ _ => .error ""
    sink := fun _ _ => .ok () }

def accessUnit (timestampUs : UInt64) (nalType : UInt8) : OwnedFrame :=
  { header := { timestampUs, width := 640, height := 480, pixelFormat := .h264AnnexB }
    payload := [0, 0, 0, 1, nalType, 0x88] }

def inOwnPasses : List Poll :=
  [{ frames := [accessUnit 0 0x65] }, { frames := [accessUnit 33333 0x41] },
    { frames := [accessUnit 66666 0x41] }]

def deltasInOnePass : List Poll :=
  [{ frames := [accessUnit 0 0x65] }, { frames := [accessUnit 33333 0x41, accessUnit 66666 0x41] }]

theorem inOwnPasses_decodable :
    encodingProject.validate rationals = .ok () ∧
      encodingChannel ∈ resolvedCameraChannels encodingProject ∧
      ∃ preview state, (previewEncoderConfig encodingProject encodingChannel).preview =
        some preview ∧ PreviewState.openState preview = .ok state ∧
        StaysDecodable (run relayHost preview.resizePolicy state 0 inOwnPasses) := by
  refine ⟨by decide +kernel, by decide +kernel, _, _, rfl, rfl, ?_⟩
  have hf : AccessUnits inOwnPasses := by
    unfold AccessUnits
    decide
  refine (@passthrough_decodable_iff ℚ encodingProject encodingChannel (by decide +kernel) _ _ rfl
    rfl _ (fun _ _ => rfl) _ hf).2.mpr ?_
  exact keepsUp_of_length_le_one (fun n hn => by cases hn) (by decide) (by decide +kernel)

theorem deltasInOnePass_not_decodable :
    encodingProject.validate rationals = .ok () ∧
      encodingChannel ∈ resolvedCameraChannels encodingProject ∧ AccessUnits deltasInOnePass ∧
      ∃ preview state, (previewEncoderConfig encodingProject encodingChannel).preview =
        some preview ∧ preview.resizePolicy = .fixedSource ∧
        PreviewState.openState preview = .ok state ∧
        (∀ poll ∈ deltasInOnePass, ∀ frame ∈ poll.frames, Sized preview frame) ∧
        ¬ StaysDecodable (run relayHost preview.resizePolicy state 0 deltasInOnePass) := by
  refine ⟨by decide +kernel, by decide +kernel, by unfold AccessUnits; decide, _, _, rfl,
    by decide +kernel, rfl, by decide +kernel, ?_⟩
  intro h
  have hchain := h [] _ [_] [] rfl (by decide +kernel) (by decide +kernel)
  exact absurd (List.isChain_cons_cons.mp hchain).1 (by decide +kernel)

end PassthroughPreview
