import Rollio.OwnedTables
import Rollio.PartialRuns
import Rollio.PreviewDecoders

/-! The frames that the web interface holds for its cameras. A JPEG frame owns an object URL and a
decoded frame a `VideoFrame`; both have to be released by hand. -/
namespace PreviewFrames
open OwnedTables PartialRuns PreviewDecoders PreviewMessages

inductive CameraFrame where
  | jpeg (resource previewWidth previewHeight timestampNs frameIndex sequence jpegBytes : ℕ)
  | video (resource width height timestampUs sequence payloadBytes codecId : ℕ)
  deriving DecidableEq, Repr

def CameraFrame.resource : CameraFrame → ℕ
  | .jpeg resource .. => resource
  | .video resource .. => resource

def CameraFrame.sequence : CameraFrame → ℕ
  | .jpeg _ _ _ _ _ sequence _ => sequence
  | .video _ _ _ _ sequence _ _ => sequence

/-- The references of the hook. `created` and `released` are history variables: the resources that
were made, by number, and those that were released, in order. -/
structure State where
  mounted : Bool
  decoders : Preview
  encodedCodec : String → Option ℕ
  frames : List (String × CameraFrame)
  frameSequence : ℕ
  dirty : Bool
  /-- What React was last given to render. -/
  shown : List (String × CameraFrame)
  created : ℕ
  released : List ℕ

def start : State :=
  { mounted := true
    decoders := {}
    encodedCodec := fun _ => none
    frames := []
    frameSequence := 0
    dirty := false
    shown := []
    created := 0
    released := [] }

def State.held (s : State) : List ℕ := s.frames.map fun e => e.2.resource

section Handlers

def State.releasePrevious (s : State) (name : String) : State :=
  match s.frames.lookup name with
  | none => s
  | some previous => { s with released := s.released ++ [previous.resource] }

/-- The branch for a JPEG frame, which creates an object URL. -/
def State.onCameraFrame (s : State) (msg : CameraFrameMessage) : State :=
  { s.releasePrevious msg.name with
    frameSequence := s.frameSequence + 1
    frames := put msg.name (.jpeg s.created msg.previewWidth msg.previewHeight msg.timestampNs
      msg.frameIndex (s.frameSequence + 1) msg.jpegData.length) s.frames
    created := s.created + 1
    dirty := true }

/-- The size of the last payload is kept in the camera's frame. -/
def State.stashPayload (s : State) (msg : EncodedPacketMessage) : State :=
  match s.frames.lookup msg.name with
  | some (.video resource width height timestampUs sequence _ codecId) =>
    { s with
      frames := put msg.name
        (.video resource width height timestampUs sequence msg.payload.length codecId) s.frames
      dirty := true }
  | _ => s

def State.onEncodedPacket (s : State) (browser : Browser) (msg : EncodedPacketMessage) : State :=
  { s.stashPayload msg with
    encodedCodec :=
      if msg.isKeyframe ∧ s.decoders.decoderConfigKey msg.name ≠ some (configKey msg) then
        Function.update s.encodedCodec msg.name (some msg.codecId)
      else s.encodedCodec
    decoders := (s.decoders.onEncodedPacket browser msg).1 }

/-- A decoder of the camera puts out a frame: it goes to the entry that the camera has by then, and
is closed at once where there is none. -/
def State.onOutput (s : State) (name : String) (timestampUs : ℕ) : State :=
  match s.decoders.entries name with
  | none => { s with created := s.created + 1, released := s.released ++ [s.created] }
  | some entry =>
    let payloadBytes := match s.frames.lookup name with
      | some (.video _ _ _ _ _ payloadBytes _) => payloadBytes
      | _ => 0
    { s.releasePrevious name with
      frameSequence := s.frameSequence + 1
      frames := put name (.video s.created entry.config.codedWidth entry.config.codedHeight
        timestampUs (s.frameSequence + 1) payloadBytes ((s.encodedCodec name).getD 0)) s.frames
      created := s.created + 1
      dirty := true }

/-- `revokeFrameUrls` and what is cleared with it. -/
def State.clear (s : State) : State :=
  { s with
    released := s.released ++ s.held
    frames := []
    encodedCodec := fun _ => none
    decoders := s.decoders.onConnectedChange false }

def State.onConnectedChange (s : State) (value : Bool) : State :=
  if value then s else { s.clear with frameSequence := 0, dirty := true }

def State.flush (s : State) : State :=
  if s.dirty then { s with dirty := false, shown := s.frames } else s

end Handlers

section Steps

inductive Event where
  | cameraFrame (msg : CameraFrameMessage)
  | encodedPacket (browser : Browser) (msg : EncodedPacketMessage)
  /-- A decoder that was made for the camera puts out a frame, also one that is closed by now. -/
  | output (name : String) (timestampUs : ℕ)
  | decoderError (name : String)
  | connectedChange (value : Bool)
  | flush
  | unmount

/-- Messages, changes of the connection and the timer are heeded while the hook is mounted. -/
def Enabled (s : State) : Event → Prop
  | .output _ _ | .decoderError _ => True
  | _ => s.mounted = true

instance (s : State) (e : Event) : Decidable (Enabled s e) := by
  cases e <;> simp only [Enabled] <;> infer_instance

def next (s : State) : Event → State
  | .cameraFrame msg => s.onCameraFrame msg
  | .encodedPacket browser msg => s.onEncodedPacket browser msg
  | .output name timestampUs => s.onOutput name timestampUs
  | .decoderError name => { s with decoders := s.decoders.onDecoderError name }
  | .connectedChange value => s.onConnectedChange value
  | .flush => s.flush
  | .unmount => { s.clear with mounted := false }

end Steps

section Decoders

end Decoders

section Ownership

structure Sound (s : State) : Prop where
  balanced : Balanced s.created s.released s.held
  names : (s.frames.map Prod.fst).Nodup
  rendered : s.mounted = true → s.dirty = false → s.shown = s.frames
  unmounted : s.mounted = false → s.frames = [] ∧ ∀ name, s.decoders.entries name = none

theorem start_sound : Sound start where
  balanced := List.Perm.refl _
  names := List.nodup_nil
  rendered := fun _ _ => rfl
  unmounted := by
    intro h
    cases h

theorem Sound.present {s t : State} (h : Sound s) {name : String} {frame : CameraFrame}
    (hresource : frame.resource = s.created) (hframes : t.frames = put name frame s.frames)
    (hcreated : t.created = s.created + 1)
    (hreleased : t.released = (s.releasePrevious name).released) :
    Balanced t.created t.released t.held ∧ (t.frames.map Prod.fst).Nodup := by
  refine ⟨?_, by rw [hframes]; exact nodup_keys_put h.names⟩
  have hheld : t.held = (put name frame s.frames).map fun e => e.2.resource := by
    rw [State.held, hframes]
  rw [hcreated, hreleased, hheld, State.releasePrevious]
  cases hlookup : s.frames.lookup name with
  | none =>
    refine h.balanced.add ?_
    rw [put_of_lookup_none hlookup, List.map_append, ← hresource]
    exact List.perm_append_singleton _ _
  | some previous =>
    refine h.balanced.replace ?_
    rw [← hresource]
    exact values_put hlookup frame CameraFrame.resource

theorem releasePrevious_mounted (s : State) (name : String) :
    (s.releasePrevious name).mounted = s.mounted := by
  simp only [State.releasePrevious]
  split <;> rfl

theorem Sound.cameraFrame {s : State} (h : Sound s) (hm : s.mounted = true)
    (msg : CameraFrameMessage) : Sound (s.onCameraFrame msg) := by
  obtain ⟨hbalanced, hnames⟩ := h.present (t := s.onCameraFrame msg) rfl rfl rfl rfl
  refine ⟨hbalanced, hnames, ?_, ?_⟩
  · intro _ hdirty
    cases hdirty
  · intro hu
    have hu : (s.releasePrevious msg.name).mounted = false := hu
    rw [releasePrevious_mounted, hm] at hu
    cases hu

theorem stashPayload_frame (s : State) (msg : EncodedPacketMessage) :
    (s.stashPayload msg).created = s.created ∧ (s.stashPayload msg).released = s.released ∧
      (s.stashPayload msg).mounted = s.mounted ∧ (s.stashPayload msg).shown = s.shown := by
  simp only [State.stashPayload]
  split <;> exact ⟨rfl, rfl, rfl, rfl⟩

theorem stashPayload_held (s : State) (msg : EncodedPacketMessage) :
    (s.stashPayload msg).held.Perm s.held := by
  simp only [State.stashPayload]
  split
  · next resource width height timestampUs sequence _ codecId hlookup =>
    have hput := values_put hlookup
      (.video resource width height timestampUs sequence msg.payload.length codecId)
      CameraFrame.resource
    exact hput.cons_inv
  · exact List.Perm.refl _

theorem Sound.encodedPacket {s : State} (h : Sound s) (hm : s.mounted = true) (browser : Browser)
    (msg : EncodedPacketMessage) : Sound (s.onEncodedPacket browser msg) := by
  obtain ⟨hcreated, hreleased, hmounted, hshown⟩ := stashPayload_frame s msg
  refine ⟨?_, ?_, ?_, ?_⟩
  · have hbalanced := h.balanced.of_perm (stashPayload_held s msg)
    rw [← hcreated, ← hreleased] at hbalanced
    exact hbalanced
  · have hnames : ((s.stashPayload msg).frames.map Prod.fst).Nodup := by
      simp only [State.stashPayload]
      split
      · exact nodup_keys_put h.names
      · exact h.names
    exact hnames
  · intro _ hdirty
    have hdirty : (s.stashPayload msg).dirty = false := hdirty
    have hrendered : (s.stashPayload msg).shown = (s.stashPayload msg).frames := by
      revert hdirty
      simp only [State.stashPayload]
      split
      · intro hdirty
        cases hdirty
      · exact h.rendered hm
    exact hrendered
  · intro hu
    have hu : (s.stashPayload msg).mounted = false := hu
    rw [hmounted, hm] at hu
    cases hu

theorem Sound.output {s : State} (h : Sound s) (name : String) (timestampUs : ℕ) :
    Sound (s.onOutput name timestampUs) := by
  cases hentry : s.decoders.entries name with
  | none =>
    simp only [State.onOutput, hentry]
    exact ⟨h.balanced.pass, h.names, h.rendered, h.unmounted⟩
  | some entry =>
    have hm : s.mounted = true := by
      by_contra hu
      have := (h.unmounted (by simpa using hu)).2 name
      rw [hentry] at this
      cases this
    have hframes : ∃ frame : CameraFrame, frame.resource = s.created ∧
        (s.onOutput name timestampUs).frames = put name frame s.frames := by
      simp only [State.onOutput, hentry]
      exact ⟨_, rfl, rfl⟩
    have hout : (s.onOutput name timestampUs).created = s.created + 1 ∧
        (s.onOutput name timestampUs).released = (s.releasePrevious name).released ∧
        (s.onOutput name timestampUs).mounted = (s.releasePrevious name).mounted ∧
        (s.onOutput name timestampUs).dirty = true := by
      simp only [State.onOutput, hentry, and_self]
    obtain ⟨frame, hresource, hframes⟩ := hframes
    obtain ⟨hcreated, hreleased, hmounted, hdirty⟩ := hout
    obtain ⟨hbalanced, hnames⟩ := h.present hresource hframes hcreated hreleased
    refine ⟨hbalanced, hnames, ?_, ?_⟩
    · intro _ hclean
      rw [hdirty] at hclean
      cases hclean
    · intro hu
      rw [hmounted, releasePrevious_mounted, hm] at hu
      cases hu

theorem Sound.clear {s : State} (h : Sound s) :
    Balanced s.clear.created s.clear.released s.clear.held :=
  h.balanced.clear

theorem Sound.step {s : State} (h : Sound s) {e : Event} (he : Enabled s e) : Sound (next s e) := by
  cases e with
  | cameraFrame msg => exact h.cameraFrame he msg
  | encodedPacket browser msg => exact h.encodedPacket he browser msg
  | output name timestampUs => exact h.output name timestampUs
  | decoderError name =>
    refine ⟨h.balanced, h.names, h.rendered, fun hu => ⟨(h.unmounted hu).1, fun name' => ?_⟩⟩
    have hnone := (h.unmounted hu).2
    by_cases hn : name' = name
    · simp [next, Preview.onDecoderError, hn, hnone name]
    · simp [next, Preview.onDecoderError, hn, hnone name']
  | connectedChange value =>
    cases value with
    | true => exact h
    | false =>
      refine ⟨h.clear, List.nodup_nil, ?_, ?_⟩
      · intro _ hdirty
        cases hdirty
      · intro hu
        exact ⟨rfl, fun _ => rfl⟩
  | flush =>
    have hm : s.mounted = true := he
    simp only [next, State.flush]
    split
    · refine ⟨h.balanced, h.names, fun _ _ => rfl, fun hu => ?_⟩
      have hu : s.mounted = false := hu
      rw [hm] at hu
      cases hu
    · exact h
  | unmount =>
    refine ⟨h.clear, List.nodup_nil, ?_, fun _ => ⟨rfl, fun _ => rfl⟩⟩
    intro hm
    cases hm

/-- What the interface has made is released once, or is in the one frame that its camera has. -/
structure Accounted (s : State) : Prop where
  released_once : s.released.Nodup
  cameras : (s.frames.map Prod.fst).Nodup
  exactly : ∀ n, n < s.created ↔ n ∈ s.released ∨ n ∈ s.held
  apart : ∀ n ∈ s.held, n ∉ s.released
  /-- Nothing is left behind, also by what the decoders still put out. -/
  unmounted : s.mounted = false → ∀ n < s.created, n ∈ s.released
  /-- What is given to React to render is not released yet. -/
  rendered : s.mounted = true → ∀ e ∈ s.flush.shown, e.2.resource ∉ s.flush.released

theorem frames_accounted {events : List Event}
    (h : Follows Enabled next (fun _ _ => True) start events) :
    Accounted (events.foldl next start) := by
  have hs : Sound (events.foldl next start) :=
    (path_of_follows h).invariant start_sound fun _ _ he _ hs => hs.step he
  generalize events.foldl next start = s at hs
  have hflush : s.flush.released = s.released := by
    simp only [State.flush]
    split <;> rfl
  refine ⟨hs.balanced.released_once, hs.names, fun n => hs.balanced.accounted,
    fun n hn => hs.balanced.not_released hn, ?_, ?_⟩
  · intro hu n hn
    have hempty : s.held = [] := by rw [State.held, (hs.unmounted hu).1, List.map_nil]
    have := hs.balanced.accounted.mp hn
    rwa [hempty, or_iff_left List.not_mem_nil] at this
  · intro hm e hmem
    have hshown : s.flush.shown = s.frames := by
      simp only [State.flush]
      split
      · rfl
      · next hdirty => exact hs.rendered hm (by simpa using hdirty)
    rw [hshown] at hmem
    rw [hflush]
    exact hs.balanced.not_released (List.mem_map.mpr ⟨e, hmem, rfl⟩)

def cameraEvents : List Event :=
  [.cameraFrame
      { name := "cam"
        timestampNs := 1
        frameIndex := 0
        previewWidth := 4
        previewHeight := 2
        jpegData := [0xff] },
    .encodedPacket willing keyframe, .output keyframe.name 0, .flush, .output keyframe.name 1,
    .connectedChange false, .output keyframe.name 2, .encodedPacket willing keyframe,
    .output keyframe.name 3, .unmount, .output keyframe.name 4]

theorem camera_accounted : Accounted (cameraEvents.foldl next start) :=
  frames_accounted (by decide)

end Ownership

end PreviewFrames
