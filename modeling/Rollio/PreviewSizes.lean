import Rollio.DerivedConfigs
import Rollio.PreviewRuntime

/-! The size of the previews. The visualizer keeps the size that its clients ask for, two handlers
may store one at the same time, and what changes is relayed to the preview encoders. -/
namespace PreviewSizes
open RecordingEncoder (OwnedFrame)
open RuntimeConfig EncoderConfigs ProjectConfigs DerivedConfigs PreviewRuntime

structure PreviewSize where
  width : UInt32
  height : UInt32
  deriving DecidableEq, Repr

def minPreviewDimension : UInt32 := 160

def maxPreviewDimension : UInt32 := 1920

def previewDimensionAlignment : UInt32 := 16

def clampPreviewDimension (value : UInt32) : UInt32 :=
  let clamped :=
    if value < minPreviewDimension then minPreviewDimension
    else if maxPreviewDimension < value then maxPreviewDimension
    else value
  let aligned := clamped - clamped % previewDimensionAlignment
  if aligned < minPreviewDimension then minPreviewDimension else aligned

/-- `scale` is the computation in floating point: it scales a dimension by the factor that takes
the larger one to the maximum. -/
def PreviewSize.new (scale : UInt32 → UInt32 → UInt32) (width height : UInt32) : PreviewSize :=
  let maxDim := if width < height then height else width
  if maxPreviewDimension < maxDim then
    ⟨clampPreviewDimension (scale maxDim width), clampPreviewDimension (scale maxDim height)⟩
  else ⟨clampPreviewDimension width, clampPreviewDimension height⟩

def defaultSize : PreviewSize := PreviewSize.new (fun _ value => value) 320 240

inductive ClientPhase where
  | idle
  /-- In the middle of a request. -/
  | busy
  /-- Counted off as the last client, about to store the default width. -/
  | leaving
  /-- About to store the default height. -/
  | resetting
  | gone
  deriving DecidableEq, Repr

/-- A `set_requested_size` that has stored its width. -/
structure SizeRequest where
  client : ℕ
  size : PreviewSize
  prevWidth : UInt32
  /-- Once the height is stored too. -/
  changed : Option Bool := none
  deriving DecidableEq, Repr

/-- A preview encoder, with the sizes sent to it that it has not read yet. -/
structure PreviewEncoder where
  policy : PreviewResizePolicy
  state : PreviewState
  sizes : List PreviewSize := []

def PreviewEncoder.size (encoder : PreviewEncoder) : PreviewSize :=
  ⟨encoder.state.currentDims.1, encoder.state.currentDims.2⟩

/-- The visualizer and the preview encoders. Requests in progress stand in the order in which they
have stored their widths. -/
structure System where
  activeWidth : UInt32 := defaultSize.width
  activeHeight : UInt32 := defaultSize.height
  connectedClients : ℕ := 0
  clients : List ClientPhase := []
  requests : List SizeRequest := []
  /-- On their way to the thread that relays them. -/
  resizes : List PreviewSize := []
  encoders : List PreviewEncoder

def System.activeSize (s : System) : PreviewSize := ⟨s.activeWidth, s.activeHeight⟩

def openEncoder (preview : PreviewEncoderConfig) : Except String PreviewEncoder := do
  let state ← PreviewState.openState preview
  return { policy := preview.resizePolicy, state }

def start {α : Type} (config : ProjectConfig α) : Except String System := do
  let encoders ← ((encoderRuntimeConfigsV2 config).filterMap (·.preview)).mapM openEncoder
  return { encoders }

inductive Event where
  | connect
  | requestSize (client : ℕ) (width height : UInt32)
  | storeHeight (place : ℕ)
  | forward (place : ℕ)
  | disconnect (client : ℕ)
  | resetWidth (client : ℕ)
  | resetHeight (client : ℕ)
  | relay
  | poll (encoder : ℕ) (frames : List OwnedFrame)

def Enabled (s : System) : Event → Prop
  | .connect => True
  | .requestSize client _ _ | .disconnect client => s.clients[client]? = some .idle
  | .storeHeight place => ∃ r ∈ s.requests[place]?, r.changed = none
  | .forward place => ∃ r ∈ s.requests[place]?, r.changed ≠ none
  | .resetWidth client => s.clients[client]? = some .leaving
  | .resetHeight client => s.clients[client]? = some .resetting
  | .relay => s.resizes ≠ []
  | .poll encoder _ => encoder < s.encoders.length

instance : (s : System) → (event : Event) → Decidable (Enabled s event)
  | _, .connect => isTrue True.intro
  | s, .requestSize client _ _ | s, .disconnect client =>
    inferInstanceAs (Decidable (s.clients[client]? = some .idle))
  | s, .storeHeight place => inferInstanceAs (Decidable (∃ r ∈ s.requests[place]?, r.changed = none))
  | s, .forward place => inferInstanceAs (Decidable (∃ r ∈ s.requests[place]?, r.changed ≠ none))
  | s, .resetWidth client => inferInstanceAs (Decidable (s.clients[client]? = some .leaving))
  | s, .resetHeight client => inferInstanceAs (Decidable (s.clients[client]? = some .resetting))
  | s, .relay => inferInstanceAs (Decidable (s.resizes ≠ []))
  | s, .poll encoder _ => inferInstanceAs (Decidable (encoder < s.encoders.length))

/-- `swap` of the height, which tells whether either dimension was another one before. -/
def SizeRequest.store (r : SizeRequest) (prevHeight : UInt32) : SizeRequest :=
  { r with
    changed := some (r.prevWidth != r.size.width || prevHeight != r.size.height) }

def PreviewEncoder.offer (size : PreviewSize) (encoder : PreviewEncoder) : PreviewEncoder :=
  if encoder.policy = .dynamic then { encoder with sizes := encoder.sizes ++ [size] } else encoder

def PreviewEncoder.poll (host : PreviewHost) (frames : List OwnedFrame)
    (encoder : PreviewEncoder) : PreviewEncoder :=
  let controls := encoder.sizes.map fun size => PreviewControl.setSize size.width size.height
  { encoder with state := (pass host encoder.policy encoder.state ⟨controls, frames⟩).1, sizes := [] }

def next (scale : UInt32 → UInt32 → UInt32) (host : PreviewHost) (s : System) : Event → System
  | .connect =>
    { s with connectedClients := s.connectedClients + 1, clients := s.clients ++ [.idle] }
  | .requestSize client width height =>
    let size := PreviewSize.new scale width height
    { s with
      activeWidth := size.width
      clients := s.clients.set client .busy
      requests := s.requests ++ [{ client, size, prevWidth := s.activeWidth }] }
  | .storeHeight place =>
    match s.requests[place]? with
    | none => s
    | some r =>
      { s with
        activeHeight := r.size.height
        requests := s.requests.set place (r.store s.activeHeight) }
  | .forward place =>
    match s.requests[place]? with
    | none => s
    | some r =>
      { s with
        clients := s.clients.set r.client .idle
        requests := s.requests.eraseIdx place
        resizes := if r.changed = some true then s.resizes ++ [r.size] else s.resizes }
  | .disconnect client =>
    { s with
      connectedClients := s.connectedClients - 1
      clients := s.clients.set client (if s.connectedClients = 1 then .leaving else .gone) }
  | .resetWidth client =>
    { s with activeWidth := defaultSize.width, clients := s.clients.set client .resetting }
  | .resetHeight client =>
    { s with activeHeight := defaultSize.height, clients := s.clients.set client .gone }
  | .relay =>
    match s.resizes with
    | [] => s
    | size :: resizes => { s with resizes, encoders := s.encoders.map (.offer size) }
  | .poll encoder frames =>
    { s with encoders := s.encoders.modify encoder (.poll host frames) }

/-- Nothing is under way: no handler is in the middle of anything, and all that was forwarded has
been read. -/
structure Drained (s : System) : Prop where
  clients : ∀ c ∈ s.clients, c = .idle ∨ c = .gone
  requests : s.requests = []
  resizes : s.resizes = []
  sizes : ∀ encoder ∈ s.encoders, encoder.sizes = []

end PreviewSizes
