import Rollio.RecordingEncoder
import Rollio.V4l2Capture
import Mathlib.Data.List.Forall2
import Mathlib.Tactic.Ring

/-! What a V4L2 camera publishes of the frames it captures: the loop of the driver, the conversions
into its one scratch buffer, and what each frame shows at its pixels. -/
namespace CameraFrames
open BusMessages RecordingEncoder V4l2Query V4l2Capture

structure FrameConverter where
  width : UInt32
  height : UInt32
  outputPixelFormat : PixelFormat
  scratch : List UInt8

/-- `chunks_exact_mut(3)` of the first against `chunks_exact(3)` of the second, swapped. -/
def swapChunks : List UInt8 → List UInt8 → List UInt8
  | _ :: _ :: _ :: scratch, r :: g :: b :: frameData => b :: g :: r :: swapChunks scratch frameData
  | scratch, _ => scratch

/-- `chunks_exact_mut(3)` of the first against the bytes of the second. -/
def expandChunks : List UInt8 → List UInt8 → List UInt8
  | _ :: _ :: _ :: scratch, value :: frameData =>
    value :: value :: value :: expandChunks scratch frameData
  | scratch, _ => scratch

namespace FrameConverter

def new (width height : UInt32) (outputPixelFormat : PixelFormat) : Except String FrameConverter :=
  if width.toNat * height.toNat < 2 ^ 64 ∧ width.toNat * height.toNat * 3 < 2 ^ 64 then
    .ok {
      width
      height
      outputPixelFormat
      scratch := List.replicate (width.toNat * height.toNat * 3) 0 }
  else .error "frame payload size overflow"

def tooShort (f : FrameConverter) (kind : String) (expectedLen len : ℕ) : String :=
  "frame payload too short for " ++ toString f.width ++ "x" ++ toString f.height ++ " " ++ kind ++
    " frame: expected at least " ++ toString expectedLen ++ " bytes, got " ++ toString len

def copyRgbSwapped (f : FrameConverter) (frameData : List UInt8) :
    Except String (List UInt8) × FrameConverter :=
  let expectedLen := f.scratch.length
  if frameData.length < expectedLen then
    (.error (f.tooShort "RGB" expectedLen frameData.length), f)
  else
    let scratch := swapChunks f.scratch (frameData.take expectedLen)
    (.ok scratch, { f with scratch })

def expandGray (f : FrameConverter) (frameData : List UInt8) :
    Except String (List UInt8) × FrameConverter :=
  let expectedLen := f.width.toNat * f.height.toNat
  if frameData.length < expectedLen then
    (.error (f.tooShort "grayscale" expectedLen frameData.length), f)
  else
    let scratch := expandChunks f.scratch (frameData.take expectedLen)
    (.ok scratch, { f with scratch })

def convert (f : FrameConverter) (frameData : List UInt8) (nativeFourcc : FourCC) :
    Except String (List UInt8) × FrameConverter :=
  if fourccToBusFormat nativeFourcc = some f.outputPixelFormat then (.ok frameData, f)
  else if nativeFourcc = rgb3 ∧ f.outputPixelFormat = .bgr24 then f.copyRgbSwapped frameData
  else if nativeFourcc = bgr3 ∧ f.outputPixelFormat = .rgb24 then f.copyRgbSwapped frameData
  else if nativeFourcc = grey ∧ (f.outputPixelFormat = .rgb24 ∨ f.outputPixelFormat = .bgr24) then
    f.expandGray frameData
  else
    (.error ("v4l2 native pixel format " ++ fourccToString nativeFourcc ++
      " cannot be converted to bus format " ++ asRef f.outputPixelFormat ++
      " on the camera side. Set `pixel_format = \"yuyv\"` or `pixel_format = \"mjpeg\"` so the raw " ++
      "frames are published verbatim and decoded downstream by the encoder."), f)

end FrameConverter

/-- What one turn of the loop meets: a control event, a wait in vain, an error of the stream, or a
mapped buffer with the bytes that the driver says it used. -/
inductive CaptureEvent where
  | shutdown
  | timedOut
  | failed (error : String)
  | frame (buffer : List UInt8) (bytesUsed : UInt32) (timestampUs : UInt64)

structure Camera where
  nativeFourcc : FourCC
  converter : FrameConverter
  frameIndex : UInt64 := 0
  droppedMalformedFrames : ℕ := 0
  published : List OwnedFrame := []

namespace Camera

def publish (c : Camera) (timestampUs : UInt64) (payload : List UInt8) : Camera :=
  let header : CameraFrameHeader := {
    timestampUs
    width := c.converter.width
    height := c.converter.height
    pixelFormat := c.converter.outputPixelFormat
    frameIndex := c.frameIndex }
  { c with
    frameIndex := c.frameIndex + 1
    published := c.published ++ [⟨header, payload⟩] }

def onFrame (c : Camera) (buffer : List UInt8) (bytesUsed : UInt32) (timestampUs : UInt64) :
    Camera :=
  if bytesUsed = 0 then c
  else if buffer.length < bytesUsed.toNat then
    { c with droppedMalformedFrames := c.droppedMalformedFrames + 1 }
  else
    let (converted, converter) := c.converter.convert (buffer.take bytesUsed.toNat) c.nativeFourcc
    match converted with
    | .ok payload => { c with converter }.publish timestampUs payload
    | .error _ => { c with converter, droppedMalformedFrames := c.droppedMalformedFrames + 1 }

def run (c : Camera) : List CaptureEvent → Camera
  | [] | .shutdown :: _ | .failed _ :: _ => c
  | .timedOut :: events => c.run events
  | .frame buffer bytesUsed timestampUs :: events =>
    (c.onFrame buffer bytesUsed timestampUs).run events

end Camera

section Pixels

/-- What a frame shows at one pixel. The chroma is that of the pair of pixels; a last column that
stands alone has no `v`. -/
inductive Colour where
  | rgb (r g b : UInt8)
  | yuv (y u : UInt8) (v : Option UInt8)
  deriving DecidableEq, Repr

def bytesPerPixel : PixelFormat → ℕ
  | .rgb24 | .bgr24 => 3
  | .yuyv | .depth16 => 2
  | .gray8 => 1
  | .mjpeg | .h264AnnexB | .nv12 => 0

/-- The colour at column `x` of the row that starts at an offset, of the formats that have one. -/
def pixelAt (format : PixelFormat) (width : ℕ) (data : List UInt8) (offset x : ℕ) : Option Colour :=
  match format with
  | .rgb24 => do
    let r ← data[offset + 3 * x]?
    let g ← data[offset + (3 * x + 1)]?
    let b ← data[offset + (3 * x + 2)]?
    return .rgb r g b
  | .bgr24 => do
    let b ← data[offset + 3 * x]?
    let g ← data[offset + (3 * x + 1)]?
    let r ← data[offset + (3 * x + 2)]?
    return .rgb r g b
  | .gray8 => do
    let value ← data[offset + x]?
    return .rgb value value value
  | .yuyv => do
    let y ← data[offset + 2 * x]?
    let u ← data[offset + (4 * (x / 2) + 1)]?
    let v := if 4 * (x / 2) + 3 < 2 * width then data[offset + (4 * (x / 2) + 3)]? else none
    return .yuv y u v
  | _ => none

def nativeLayout (fourcc : FourCC) : Option PixelFormat :=
  if fourcc = grey then some .gray8 else fourccToBusFormat fourcc

variable {width x : ℕ} {data data' : List UInt8} {offset offset' : ℕ}

/-- A pixel only depends on the bytes of its row. -/
theorem pixelAt_congr (format : PixelFormat) (hx : x < width)
    (h : ∀ c < width * bytesPerPixel format, data[offset + c]? = data'[offset' + c]?) :
    pixelAt format width data offset x = pixelAt format width data' offset' x := by
  cases format with
  | rgb24 | bgr24 =>
    simp only [bytesPerPixel] at h
    simp only [pixelAt, h (3 * x) (by omega), h (3 * x + 1) (by omega), h (3 * x + 2) (by omega)]
  | gray8 =>
    simp only [bytesPerPixel] at h
    simp only [pixelAt, h x (by omega)]
  | yuyv =>
    simp only [bytesPerPixel] at h
    have hv : (if 4 * (x / 2) + 3 < 2 * width then data[offset + (4 * (x / 2) + 3)]? else none)
        = if 4 * (x / 2) + 3 < 2 * width then data'[offset' + (4 * (x / 2) + 3)]? else none := by
      split
      · exact h _ (by omega)
      · rfl
    simp only [pixelAt, h (2 * x) (by omega), h (4 * (x / 2) + 1) (by omega), hv]
  | mjpeg | depth16 | h264AnnexB | nv12 => rfl

theorem swapChunks_length (scratch data : List UInt8) :
    (swapChunks scratch data).length = scratch.length := by
  fun_induction swapChunks scratch data with
  | case1 _ _ _ scratch r g b frameData ih => simp [ih]
  | case2 => rfl

theorem expandChunks_length (scratch data : List UInt8) :
    (expandChunks scratch data).length = scratch.length := by
  fun_induction expandChunks scratch data with
  | case1 _ _ _ scratch value frameData ih => simp [ih]
  | case2 => rfl

theorem swapChunks_getElem? {n : ℕ} {scratch : List UInt8} (hs : scratch.length = 3 * n)
    (hd : data.length = 3 * n) {p : ℕ} (hp : p < n) :
    (swapChunks scratch data)[3 * p]? = data[3 * p + 2]? ∧
    (swapChunks scratch data)[3 * p + 1]? = data[3 * p + 1]? ∧
    (swapChunks scratch data)[3 * p + 2]? = data[3 * p]? := by
  fun_induction swapChunks scratch data generalizing n p with
  | case1 _ _ _ scratch r g b frameData ih =>
    simp only [List.length_cons] at hs hd
    cases p with
    | zero => exact ⟨rfl, rfl, rfl⟩
    | succ p => exact ih (n := n - 1) (by omega) (by omega) (by omega)
  | case2 scratch data hnot =>
    match scratch, data with
    | _ :: _ :: _ :: scratch, _ :: _ :: _ :: data => exact absurd rfl (hnot _ _ _ _ _ _ _ _ rfl)
    | [], _ | [_], _ | [_, _], _ => simp only [List.length_cons, List.length_nil] at hs; omega
    | _, [] | _, [_] | _, [_, _] => simp only [List.length_cons, List.length_nil] at hd; omega

theorem expandChunks_getElem? {n : ℕ} {scratch : List UInt8} (hs : scratch.length = 3 * n)
    (hd : data.length = n) {p : ℕ} (hp : p < n) :
    (expandChunks scratch data)[3 * p]? = data[p]? ∧
    (expandChunks scratch data)[3 * p + 1]? = data[p]? ∧
    (expandChunks scratch data)[3 * p + 2]? = data[p]? := by
  fun_induction expandChunks scratch data generalizing n p with
  | case1 _ _ _ scratch value frameData ih =>
    simp only [List.length_cons] at hs hd
    cases p with
    | zero => exact ⟨rfl, rfl, rfl⟩
    | succ p => exact ih (n := n - 1) (by omega) (by omega) (by omega)
  | case2 scratch data hnot =>
    match scratch, data with
    | _ :: _ :: _ :: scratch, _ :: data => exact absurd rfl (hnot _ _ _ _ _ _ rfl)
    | [], _ | [_], _ | [_, _], _ => simp only [List.length_cons, List.length_nil] at hs; omega
    | _, [] => simp only [List.length_nil] at hd; omega

end Pixels

section Conversions
variable {native : FourCC} {out : PixelFormat} {w h x y : ℕ} {data scratch : List UInt8}

/-- Whether the driver passes on a captured frame: one that it converts must have all its pixels. -/
def Usable (native : FourCC) (out : PixelFormat) (w h : ℕ) (captured : List UInt8) : Prop :=
  fourccToBusFormat native = some out ∨
    ∃ layout ∈ nativeLayout native, w * h * bytesPerPixel layout ≤ captured.length

instance : Decidable (Usable native out w h data) := inferInstanceAs (Decidable (_ ∨ _))

/-- What a payload is of the captured frame that it was made from. -/
structure Shows (native : FourCC) (out : PixelFormat) (w h : ℕ) (captured payload : List UInt8) :
    Prop where
  verbatim : fourccToBusFormat native = some out → payload = captured
  complete : fourccToBusFormat native ≠ some out → payload.length = w * h * bytesPerPixel out
  colours : ∀ layout, nativeLayout native = some layout → ∀ x < w, ∀ y < h,
    pixelAt out w payload (y * (w * bytesPerPixel out)) x
      = pixelAt layout w captured (y * (w * bytesPerPixel layout)) x

theorem pixel_lt (hx : x < w) (hy : y < h) : y * w + x < w * h :=
  calc y * w + x < y * w + w := by omega
    _ = (y + 1) * w := (Nat.succ_mul y w).symm
    _ ≤ h * w := Nat.mul_le_mul_right w hy
    _ = w * h := Nat.mul_comm h w

theorem pixelAt_take (data : List UInt8) (layout : PixelFormat) (hx : x < w) (hy : y < h) :
    pixelAt layout w (data.take (w * h * bytesPerPixel layout)) (y * (w * bytesPerPixel layout)) x
      = pixelAt layout w data (y * (w * bytesPerPixel layout)) x := by
  refine pixelAt_congr layout hx fun c hc => List.getElem?_take_of_lt ?_
  have hrow : (y + 1) * (w * bytesPerPixel layout) ≤ h * (w * bytesPerPixel layout) :=
    Nat.mul_le_mul_right _ hy
  have hsize : h * (w * bytesPerPixel layout) = w * h * bytesPerPixel layout := by ring
  rw [Nat.succ_mul] at hrow
  omega

theorem row_offset (w x y : ℕ) : y * (w * 3) + 3 * x = 3 * (y * w + x) := by ring

theorem swapped_pixel (hs : scratch.length = 3 * (w * h)) (hd : data.length = 3 * (w * h))
    (hx : x < w) (hy : y < h) :
    pixelAt .bgr24 w (swapChunks scratch data) (y * (w * 3)) x
      = pixelAt .rgb24 w data (y * (w * 3)) x ∧
    pixelAt .rgb24 w (swapChunks scratch data) (y * (w * 3)) x
      = pixelAt .bgr24 w data (y * (w * 3)) x := by
  obtain ⟨hfirst, hsecond, hthird⟩ := swapChunks_getElem? hs hd (pixel_lt hx hy)
  simp only [pixelAt, ← Nat.add_assoc, row_offset, hfirst, hsecond, hthird]
  constructor
  · cases data[3 * (y * w + x)]? <;> cases data[3 * (y * w + x) + 1]? <;>
      cases data[3 * (y * w + x) + 2]? <;> rfl
  · cases data[3 * (y * w + x)]? <;> cases data[3 * (y * w + x) + 1]? <;>
      cases data[3 * (y * w + x) + 2]? <;> rfl

theorem expanded_pixel (hs : scratch.length = 3 * (w * h)) (hd : data.length = w * h)
    (hx : x < w) (hy : y < h) (hout : out = .rgb24 ∨ out = .bgr24) :
    pixelAt out w (expandChunks scratch data) (y * (w * 3)) x
      = pixelAt .gray8 w data (y * (w * 1)) x := by
  obtain ⟨hfirst, hsecond, hthird⟩ := expandChunks_getElem? hs hd (pixel_lt hx hy)
  have hgray : pixelAt .gray8 w data (y * (w * 1)) x
      = data[y * w + x]?.map fun value => .rgb value value value := by
    simp only [pixelAt, Nat.mul_one]
    cases data[y * w + x]? <;> rfl
  rw [hgray]
  rcases hout with rfl | rfl
  · simp only [pixelAt, ← Nat.add_assoc, row_offset, hfirst, hsecond, hthird]
    cases data[y * w + x]? <;> rfl
  · simp only [pixelAt, ← Nat.add_assoc, row_offset, hfirst, hsecond, hthird]
    cases data[y * w + x]? <;> rfl

theorem nativeLayout_of_verbatim {layout : PixelFormat} (h : nativeLayout native = some layout)
    (hverbatim : fourccToBusFormat native = some out) : layout = out := by
  simp only [nativeLayout] at h
  split at h
  · next hgrey =>
    rw [hgrey] at hverbatim
    cases hverbatim
  · exact Option.some.inj (h.symm.trans hverbatim)

theorem publishable_cases (hpub : canPublishNativeAs native out = true) :
    fourccToBusFormat native = some out ∨
    (fourccToBusFormat native ≠ some out ∧ ((native = rgb3 ∧ out = .bgr24) ∨
      (native = bgr3 ∧ out = .rgb24) ∨ (native = grey ∧ (out = .rgb24 ∨ out = .bgr24)))) := by
  by_cases hverbatim : fourccToBusFormat native = some out
  · exact .inl hverbatim
  · simp only [canPublishNativeAs, Bool.or_eq_true, decide_eq_true_eq, List.contains_cons,
      List.contains_nil, Bool.or_false, beq_iff_eq, Prod.mk.injEq, hverbatim, false_or] at hpub
    refine .inr ⟨hverbatim, ?_⟩
    rcases hpub with h | h | ⟨h, h'⟩ | ⟨h, h'⟩
    · exact .inl h
    · exact .inr (.inl h)
    · exact .inr (.inr ⟨h, .inl h'⟩)
    · exact .inr (.inr ⟨h, .inr h'⟩)

end Conversions

section Loop
variable {native : FourCC} {width height : UInt32} {out : PixelFormat}

structure Converter (width height : UInt32) (out : PixelFormat) (f : FrameConverter) : Prop where
  width_eq : f.width = width
  height_eq : f.height = height
  output_eq : f.outputPixelFormat = out
  scratch : f.scratch.length = 3 * (width.toNat * height.toNat)

theorem Converter.with_scratch {f : FrameConverter} (h : Converter width height out f)
    {scratch : List UInt8} (hlen : scratch.length = f.scratch.length) :
    Converter width height out { f with scratch } :=
  ⟨h.width_eq, h.height_eq, h.output_eq, hlen.trans h.scratch⟩

structure Converted (native : FourCC) (width height : UInt32) (out : PixelFormat)
    (captured : List UInt8) (r : Except String (List UInt8) × FrameConverter) : Prop where
  converter : Converter width height out r.2
  usable : Usable native out width.toNat height.toNat captured →
    ∃ payload, r.1 = .ok payload ∧ Shows native out width.toNat height.toNat captured payload
  unusable : ¬ Usable native out width.toNat height.toNat captured → ∃ error, r.1 = .error error

variable {f : FrameConverter} {captured : List UInt8}

/-- The two swaps: all bytes come from the frame, none from what the buffer held before. -/
theorem Converter.swapped (h : Converter width height out f) (layout : PixelFormat)
    (hlayout : nativeLayout native = some layout) (hnot : fourccToBusFormat native ≠ some out)
    (hswap : layout = .rgb24 ∧ out = .bgr24 ∨ layout = .bgr24 ∧ out = .rgb24) :
    Converted native width height out captured (f.copyRgbSwapped captured) := by
  have hbytes : bytesPerPixel layout = 3 ∧ bytesPerPixel out = 3 := by
    rcases hswap with ⟨rfl, rfl⟩ | ⟨rfl, rfl⟩ <;> exact ⟨rfl, rfl⟩
  have husable : Usable native out width.toNat height.toNat captured ↔
      f.scratch.length ≤ captured.length := by
    simp only [Usable, hnot, hlayout, Option.mem_def, Option.some.injEq, exists_eq_left',
      hbytes.1, h.scratch, false_or, Nat.mul_comm 3]
  simp only [FrameConverter.copyRgbSwapped]
  split
  · next hshort =>
    exact ⟨h, fun hu => absurd (husable.mp hu) (by omega), fun _ => ⟨_, rfl⟩⟩
  · next henough =>
    have hlen := swapChunks_length f.scratch (captured.take f.scratch.length)
    have hsize : 3 * (width.toNat * height.toNat) = width.toNat * height.toNat * 3 :=
      Nat.mul_comm _ _
    refine ⟨h.with_scratch hlen, fun _ => ⟨_, rfl, ?_⟩, fun hu => absurd (husable.mpr (by omega)) hu⟩
    refine ⟨fun hverbatim => absurd hverbatim hnot, fun _ => ?_, ?_⟩
    · rw [hlen, h.scratch, hbytes.2, hsize]
    · intro layout' hlayout' x hx y hy
      cases hlayout.symm.trans hlayout'
      have htake := pixelAt_take captured layout hx hy
      have hcut : (captured.take f.scratch.length).length
          = 3 * (width.toNat * height.toNat) := by
        rw [List.length_take, ← h.scratch]
        omega
      have hpixel := swapped_pixel h.scratch hcut hx hy
      rw [hbytes.1, ← hsize, ← h.scratch] at htake
      rw [hbytes.1, hbytes.2, ← htake]
      rcases hswap with ⟨rfl, rfl⟩ | ⟨rfl, rfl⟩
      · exact hpixel.1
      · exact hpixel.2

theorem Converter.expanded (h : Converter width height out f)
    (hlayout : nativeLayout native = some .gray8) (hnot : fourccToBusFormat native ≠ some out)
    (hout : out = .rgb24 ∨ out = .bgr24) :
    Converted native width height out captured (f.expandGray captured) := by
  have hbytes : bytesPerPixel out = 3 := by
    rcases hout with rfl | rfl <;> rfl
  have husable : Usable native out width.toNat height.toNat captured ↔
      width.toNat * height.toNat ≤ captured.length := by
    simp only [Usable, hnot, hlayout, Option.mem_def, Option.some.injEq, exists_eq_left',
      bytesPerPixel, false_or, Nat.mul_one]
  have hexpected : f.width.toNat * f.height.toNat = width.toNat * height.toNat := by
    rw [h.width_eq, h.height_eq]
  simp only [FrameConverter.expandGray, hexpected]
  split
  · next hshort =>
    exact ⟨h, fun hu => absurd (husable.mp hu) (by omega), fun _ => ⟨_, rfl⟩⟩
  · next henough =>
    have hlen := expandChunks_length f.scratch (captured.take (width.toNat * height.toNat))
    refine ⟨h.with_scratch hlen, fun _ => ⟨_, rfl, ?_⟩, fun hu => absurd (husable.mpr (by omega)) hu⟩
    refine ⟨fun hverbatim => absurd hverbatim hnot, fun _ => ?_, ?_⟩
    · rw [hlen, h.scratch, hbytes, Nat.mul_comm]
    · intro layout' hlayout' x hx y hy
      cases hlayout.symm.trans hlayout'
      have htake := pixelAt_take captured .gray8 hx hy
      simp only [bytesPerPixel, Nat.mul_one (width.toNat * height.toNat)] at htake
      rw [hbytes]
      refine Eq.trans ?_ htake
      exact expanded_pixel h.scratch (by rw [List.length_take]; omega) hx hy hout

theorem Converter.convert (h : Converter width height out f) (captured : List UInt8)
    (hpub : canPublishNativeAs native out = true) :
    Converted native width height out captured (f.convert captured native) := by
  rcases publishable_cases hpub with hverbatim | ⟨hnot, hcases⟩
  · have hconvert : f.convert captured native = (.ok captured, f) :=
      if_pos (by rw [h.output_eq]; exact hverbatim)
    rw [hconvert]
    refine ⟨h, fun _ => ⟨_, rfl, fun _ => rfl, fun hnot => absurd hverbatim hnot, ?_⟩,
      fun hu => absurd (.inl hverbatim) hu⟩
    intro layout hlayout x _ y _
    rw [nativeLayout_of_verbatim hlayout hverbatim]
  · rw [FrameConverter.convert, h.output_eq, if_neg hnot]
    rcases hcases with ⟨rfl, rfl⟩ | ⟨rfl, rfl⟩ | ⟨rfl, hout⟩
    · exact h.swapped .rgb24 rfl hnot (.inl ⟨rfl, rfl⟩)
    · exact h.swapped .bgr24 rfl hnot (.inr ⟨rfl, rfl⟩)
    · rw [if_neg fun h => absurd h.1 (by decide), if_neg fun h => absurd h.1 (by decide),
        if_pos ⟨rfl, hout⟩]
      exact h.expanded rfl hnot hout

/-- The frames that the driver passes on, until it stops: those that came whole. -/
def passedOn (native : FourCC) (width height : UInt32) (out : PixelFormat) :
    List CaptureEvent → List (List UInt8)
  | [] | .shutdown :: _ | .failed _ :: _ => []
  | .timedOut :: events => passedOn native width height out events
  | .frame buffer bytesUsed _ :: events =>
    if bytesUsed ≠ 0 ∧ bytesUsed.toNat ≤ buffer.length ∧
        Usable native out width.toNat height.toNat (buffer.take bytesUsed.toNat) then
      buffer.take bytesUsed.toNat :: passedOn native width height out events
    else passedOn native width height out events

structure PublishedAs (native : FourCC) (width height : UInt32) (out : PixelFormat)
    (captured : List UInt8) (frame : OwnedFrame) : Prop where
  width_eq : frame.header.width = width
  height_eq : frame.header.height = height
  format_eq : frame.header.pixelFormat = out
  shows : Shows native out width.toNat height.toNat captured frame.payload

structure Running (native : FourCC) (width height : UInt32) (out : PixelFormat) (c : Camera) :
    Prop where
  native_eq : c.nativeFourcc = native
  converter : Converter width height out c.converter

theorem Running.onFrame {c : Camera} (h : Running native width height out c)
    (hpub : canPublishNativeAs native out = true) (buffer : List UInt8) (bytesUsed : UInt32)
    (timestampUs : UInt64) :
    Running native width height out (c.onFrame buffer bytesUsed timestampUs) ∧
    if bytesUsed ≠ 0 ∧ bytesUsed.toNat ≤ buffer.length ∧
        Usable native out width.toNat height.toNat (buffer.take bytesUsed.toNat) then
      ∃ frame, (c.onFrame buffer bytesUsed timestampUs).published = c.published ++ [frame] ∧
        frame.header.frameIndex = c.frameIndex ∧
        PublishedAs native width height out (buffer.take bytesUsed.toNat) frame ∧
        (c.onFrame buffer bytesUsed timestampUs).frameIndex = c.frameIndex + 1
    else (c.onFrame buffer bytesUsed timestampUs).published = c.published ∧
      (c.onFrame buffer bytesUsed timestampUs).frameIndex = c.frameIndex := by
  by_cases hzero : bytesUsed = 0
  · have hsame : c.onFrame buffer bytesUsed timestampUs = c := if_pos hzero
    rw [hsame, if_neg fun hall => hall.1 hzero]
    exact ⟨h, rfl, rfl⟩
  by_cases hover : buffer.length < bytesUsed.toNat
  · have hdrop : c.onFrame buffer bytesUsed timestampUs
        = { c with droppedMalformedFrames := c.droppedMalformedFrames + 1 } :=
      (if_neg hzero).trans (if_pos hover)
    rw [hdrop, if_neg fun hall => absurd hall.2.1 (by omega)]
    exact ⟨⟨h.native_eq, h.converter⟩, rfl, rfl⟩
  have hconverted := h.converter.convert (buffer.take bytesUsed.toNat) hpub
  have hframe : c.onFrame buffer bytesUsed timestampUs
      = match c.converter.convert (buffer.take bytesUsed.toNat) native with
        | (.ok payload, converter) => { c with converter }.publish timestampUs payload
        | (.error _, converter) =>
          { c with converter, droppedMalformedFrames := c.droppedMalformedFrames + 1 } := by
    simp only [Camera.onFrame, if_neg hzero, if_neg hover, h.native_eq]
    rcases c.converter.convert (buffer.take bytesUsed.toNat) native with ⟨_ | _, _⟩ <;> rfl
  rw [hframe]
  clear hframe
  generalize c.converter.convert (buffer.take bytesUsed.toNat) native = r at hconverted ⊢
  obtain ⟨result, converter⟩ := r
  by_cases hu : Usable native out width.toNat height.toNat (buffer.take bytesUsed.toNat)
  · obtain ⟨payload, rfl, hshows⟩ := hconverted.usable hu
    rw [if_pos ⟨hzero, by omega, hu⟩]
    refine ⟨⟨h.native_eq, hconverted.converter⟩, _, rfl, rfl, ?_, rfl⟩
    exact ⟨hconverted.converter.width_eq, hconverted.converter.height_eq,
      hconverted.converter.output_eq, hshows⟩
  · obtain ⟨error, rfl⟩ := hconverted.unusable hu
    rw [if_neg fun hall => hu hall.2.2]
    exact ⟨⟨h.native_eq, hconverted.converter⟩, rfl, rfl⟩

/-- A whole run: what is published is what came whole, in order and numbered from where the camera
stands. -/
theorem Running.run {c : Camera} (h : Running native width height out c)
    (hpub : canPublishNativeAs native out = true) (events : List CaptureEvent) :
    ∃ frames, (c.run events).published = c.published ++ frames ∧
      List.Forall₂ (PublishedAs native width height out)
        (passedOn native width height out events) frames ∧
      ∀ i (hi : i < frames.length),
        frames[i].header.frameIndex = c.frameIndex + UInt64.ofNat i := by
  induction events generalizing c with
  | nil => exact ⟨[], (List.append_nil _).symm, .nil, fun i hi => absurd hi (Nat.not_lt_zero i)⟩
  | cons e events ih =>
    cases e with
    | shutdown | failed =>
      exact ⟨[], (List.append_nil _).symm, .nil, fun i hi => absurd hi (Nat.not_lt_zero i)⟩
    | timedOut => exact ih h
    | frame buffer bytesUsed timestampUs =>
      obtain ⟨hnext, hcase⟩ := h.onFrame hpub buffer bytesUsed timestampUs
      obtain ⟨frames, hpublished, hall, hindex⟩ := ih hnext
      rw [Camera.run, passedOn]
      split at hcase
      · next hwhole =>
        obtain ⟨frame, hone, hnumber, hshown, hcount⟩ := hcase
        rw [if_pos hwhole]
        refine ⟨frame :: frames, ?_, .cons hshown hall, fun i hi => ?_⟩
        · rw [hpublished, hone, List.append_assoc]
          rfl
        · cases i with
          | zero => simp [hnumber]
          | succ i =>
            have hrest := hindex i (by simpa using hi)
            rw [List.getElem_cons_succ, hrest, hcount, UInt64.ofNat_add, UInt64.add_assoc,
              UInt64.add_comm 1]
            rfl
      · next hnot =>
        rw [hpublished, hcase.1, if_neg hnot]
        refine ⟨frames, rfl, hall, fun i hi => ?_⟩
        rw [hindex i hi, hcase.2]

end Loop

end CameraFrames
