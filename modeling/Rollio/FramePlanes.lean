import Rollio.CameraFrames
import Rollio.Outcomes
import Rollio.StridedRows

/-! The frames of libav that the encoder makes of camera frames: raw rows copied to a stride, depth
mapped to gray, and the previews that are made of the same frames without them. -/
namespace FramePlanes
open BusMessages CameraFrames Outcomes RecordingEncoder StridedRows V4l2Capture V4l2Query

inductive Pixel where
  | rgb24 | bgr24 | gray8 | yuyv422 | nv12
  deriving DecidableEq, Repr

structure AvFrame where
  format : Pixel
  width : UInt32
  height : UInt32
  stride : ℕ
  data : List UInt8
  deriving DecidableEq, Repr

section Sources

def pixelFormatForLibav : PixelFormat → Except String Pixel
  | .rgb24 => .ok .rgb24
  | .bgr24 => .ok .bgr24
  | .gray8 => .ok .gray8
  | .yuyv => .ok .yuyv422
  | .mjpeg =>
    .error "MJPEG frames are decoded via libav's MJPEG decoder, not via direct AVFrame copy"
  | .depth16 => .error "depth16 frames are only supported via the RVL backend"
  | .h264AnnexB =>
    .error "H264 Annex B is routed through the passthrough backend, not direct AVFrame copy"
  | .nv12 => .ok .nv12

def directBytesPerPixel : PixelFormat → Option ℕ
  | .rgb24 | .bgr24 => some 3
  | .yuyv => some 2
  | .gray8 => some 1
  | _ => none

/-- None is a panic, as in all that follows, and a frame that is none has no buffer: to ask for its
stride is one. -/
def copyFramePayload (frame : Option AvFrame) (header : CameraFrameHeader) (payload : List UInt8) :
    Option (Except String AvFrame) :=
  match directBytesPerPixel header.pixelFormat with
  | none =>
    some (.error ("unsupported libav source format for direct AVFrame copy: " ++
      header.pixelFormat.debugName))
  | some bytesPerPixel => do
    let rowBytes := header.width.toNat * bytesPerPixel
    let frame ← frame
    let expectedBytes := rowBytes * header.height.toNat
    if payload.length < expectedBytes then
      return .error (header.pixelFormat.debugName ++ " payload too short: expected at least " ++
        toString expectedBytes ++ " bytes for " ++ toString header.width ++ "x" ++
        toString header.height ++ ", got " ++ toString payload.length)
    else
      let data ← writeRows (fun row => slice payload (row * rowBytes) rowBytes) frame.stride
        header.height.toNat frame.data
      return .ok { frame with data }

/-- `frame::Video::new`, which has no buffer for empty and for too large frames, and the decoder that
is kept for MJPEG frames. -/
structure Libav where
  alloc : Pixel → UInt32 → UInt32 → Option AvFrame
  decodeMjpeg : List UInt8 → Except String AvFrame

variable (libav : Libav)

def decodeOrCopyFrameToAv (frame : OwnedFrame) : Option (Except String AvFrame) :=
  if frame.header.pixelFormat = .mjpeg then some (libav.decodeMjpeg frame.payload)
  else match pixelFormatForLibav frame.header.pixelFormat with
  | .error e => some (.error e)
  | .ok sourcePixel =>
    copyFramePayload (libav.alloc sourcePixel frame.header.width frame.header.height) frame.header
      frame.payload

def depth16PreviewReferenceRaw : ℕ := 1000

/-- The gray of a depth, which is the nearest the brightest; no depth is black. -/
def intensity (low high : UInt8) : UInt8 :=
  let depth := low.toNat + 256 * high.toNat
  if depth = 0 then 0
  else
    let clamped := min depth depth16PreviewReferenceRaw
    UInt8.ofNat ((depth16PreviewReferenceRaw - clamped) * 255 / depth16PreviewReferenceRaw)

def depthCell (depthBytes : List UInt8) (width row col : ℕ) : Option UInt8 := do
  let chunkOffset := row * width * 2 + col * 2
  let low ← depthBytes[chunkOffset]?
  let high ← depthBytes[chunkOffset + 1]?
  return intensity low high

def depth16ToGray8AvFrame (frame : OwnedFrame) : Option (Except String AvFrame) :=
  let width := frame.header.width.toNat
  let height := frame.header.height.toNat
  let expectedLen := width * height * 2
  if expectedLen = 0 then some (.error "depth16 preview requires non-empty frame dimensions")
  else if frame.payload.length < expectedLen then
    some (.error ("depth16 payload too short: expected at least " ++ toString expectedLen ++
      " bytes for " ++ toString frame.header.width ++ "x" ++ toString frame.header.height ++
      ", got " ++ toString frame.payload.length))
  else do
    let gray ← libav.alloc .gray8 frame.header.width frame.header.height
    let depthBytes := frame.payload.take expectedLen
    let data ← writeRows (fun row => rowOf (depthCell depthBytes width row) width) gray.stride
      height gray.data
    return .ok { gray with data }

def previewSource (frame : OwnedFrame) : Option (Except String AvFrame) :=
  if frame.header.pixelFormat = .depth16 then depth16ToGray8AvFrame libav frame
  else decodeOrCopyFrameToAv libav frame

def compactRgbFrame (frame : AvFrame) : Option (List UInt8) :=
  let rowBytes := frame.width.toNat * 3
  writeRows (fun row => slice frame.data (row * frame.stride) rowBytes) rowBytes
    frame.height.toNat (List.replicate (rowBytes * frame.height.toNat) 0)

end Sources

section Direct

def expectedFrameLen (header : CameraFrameHeader) (bytesPerPixel : ℕ) : Except String ℕ :=
  let expectedLen := header.width.toNat * header.height.toNat * bytesPerPixel
  if expectedLen = 0 then .error "preview compression requires non-empty frame dimensions"
  else .ok expectedLen

def requireFrameLen (frameData : List UInt8) (expectedLen : ℕ) (pixelFormat : PixelFormat) :
    Except String Unit :=
  if frameData.length < expectedLen then
    .error (pixelFormat.debugName ++ " frame payload too short: expected at least " ++
      toString expectedLen ++ " bytes, got " ++ toString frameData.length)
  else .ok ()

theorem expectedFrameLen_eq_ok {header : CameraFrameHeader} {bytesPerPixel n : ℕ} :
    expectedFrameLen header bytesPerPixel = .ok n ↔
      header.width.toNat * header.height.toNat * bytesPerPixel ≠ 0 ∧
        n = header.width.toNat * header.height.toNat * bytesPerPixel := by
  simp only [expectedFrameLen]
  split
  · next hzero => exact ⟨fun h => (nomatch h), fun h => absurd hzero h.1⟩
  · next hpos => exact ⟨fun h => ⟨hpos, (Except.ok.inj h).symm⟩, fun h => congrArg _ h.2.symm⟩

theorem requireFrameLen_eq_ok {frameData : List UInt8} {n : ℕ} {format : PixelFormat} :
    requireFrameLen frameData n format = .ok () ↔ n ≤ frameData.length := by
  simp only [requireFrameLen]
  split
  · next hshort => exact ⟨fun h => (nomatch h), fun h => absurd hshort (Nat.not_lt.mpr h)⟩
  · next hlen => exact ⟨fun _ => Nat.not_lt.mp hlen, fun _ => rfl⟩

def swapped : List UInt8 → List UInt8
  | b :: g :: r :: rest => r :: g :: b :: swapped rest
  | _ => []

def expanded (values : List UInt8) : List UInt8 := values.flatMap fun value => [value, value, value]

/-- The whole buffer is written, three bytes for each depth. -/
def depthExpanded : List UInt8 → List UInt8
  | low :: high :: rest =>
    intensity low high :: intensity low high :: intensity low high :: depthExpanded rest
  | _ => []

def depth16ToRgb (header : CameraFrameHeader) (frameData : List UInt8) :
    Except String (List UInt8) := do
  let expectedLen := header.width.toNat * header.height.toNat * 2
  if expectedLen = 0 then throw "preview compression requires non-empty frame dimensions"
  requireFrameLen frameData expectedLen header.pixelFormat
  return depthExpanded (frameData.take expectedLen)

def previewRgbBytes (header : CameraFrameHeader) (frameData : List UInt8) :
    Except String (List UInt8) :=
  match header.pixelFormat with
  | .rgb24 => do
    let expectedLen ← expectedFrameLen header 3
    requireFrameLen frameData expectedLen header.pixelFormat
    return frameData.take expectedLen
  | .bgr24 => do
    let expectedLen ← expectedFrameLen header 3
    requireFrameLen frameData expectedLen header.pixelFormat
    return swapped (frameData.take expectedLen)
  | .gray8 => do
    let expectedLen ← expectedFrameLen header 1
    requireFrameLen frameData expectedLen header.pixelFormat
    return expanded (frameData.take expectedLen)
  | .depth16 => depth16ToRgb header frameData
  | other =>
    .error ("preview JPEG compression does not support " ++ other.debugName ++
      " frames; go through PreviewBuilder (raw) or the passthrough backend (H264AnnexB)")

end Direct

section Rows

/-- Where the bytes of a pixel stand, for the formats with one plane. -/
def Pixel.layout : Pixel → PixelFormat
  | .rgb24 => .rgb24
  | .bgr24 => .bgr24
  | .gray8 => .gray8
  | .yuyv422 => .yuyv
  | .nv12 => .nv12

def AvFrame.pixel (f : AvFrame) (x y : ℕ) : Option Colour :=
  pixelAt f.format.layout f.width.toNat f.data (y * f.stride) x

/-- What libav promises of a buffer: rows that are long enough, as many as the frame has, and no more
than can be addressed. -/
structure Allocated (p : Pixel) (w h : UInt32) (fresh : AvFrame) : Prop where
  format_eq : fresh.format = p
  width_eq : fresh.width = w
  height_eq : fresh.height = h
  rows : w.toNat * bytesPerPixel p.layout ≤ fresh.stride
  length : fresh.data.length = fresh.stride * h.toNat
  addressable : fresh.data.length < 2 ^ 63

def Allocates (libav : Libav) : Prop :=
  ∀ p w h fresh, libav.alloc p w h = some fresh → Allocated p w h fresh

/-- A size that libav has buffers for. -/
def Libav.Buffers (libav : Libav) (w h : UInt32) : Prop := ∀ p, (libav.alloc p w h).isSome = true

variable {libav : Libav} {frame : OwnedFrame} {p : Pixel} {w h : UInt32} {fresh : AvFrame}

theorem Allocated.fits (hl : Allocated p w h fresh) {rowLen : ℕ}
    (hrow : rowLen = w.toNat * bytesPerPixel p.layout) :
    ∀ r < h.toNat, r * fresh.stride + rowLen ≤ fresh.data.length := by
  intro r hr
  have hrows := hl.rows
  have hlast := row_fits fresh.stride hr
  rw [hl.length]
  omega

theorem Allocated.size_fits (hl : Allocated p w h fresh) :
    w.toNat * bytesPerPixel p.layout * h.toNat < 2 ^ 63 :=
  calc w.toNat * bytesPerPixel p.layout * h.toNat
    _ ≤ fresh.stride * h.toNat := Nat.mul_le_mul_right _ hl.rows
    _ = fresh.data.length := hl.length.symm
    _ < 2 ^ 63 := hl.addressable

theorem Allocates.sizes_fit (hl : Allocates libav) (hbuffers : libav.Buffers w h) :
    w.toNat * h.toNat * 3 < 2 ^ 63 := by
  obtain ⟨fresh, hfresh⟩ := Option.isSome_iff_exists.mp (hbuffers .rgb24)
  have hsize := (hl _ _ _ _ hfresh).size_fits
  rwa [Nat.mul_right_comm] at hsize

theorem direct_cases {format : PixelFormat} {b : ℕ} (hb : directBytesPerPixel format = some b) :
    ∃ p : Pixel, pixelFormatForLibav format = .ok p ∧ p.layout = format ∧
      bytesPerPixel format = b ∧ format ≠ .mjpeg ∧ format ≠ .depth16 := by
  cases format with
  | rgb24 => cases hb; exact ⟨.rgb24, rfl, rfl, rfl, by decide, by decide⟩
  | bgr24 => cases hb; exact ⟨.bgr24, rfl, rfl, rfl, by decide, by decide⟩
  | gray8 => cases hb; exact ⟨.gray8, rfl, rfl, rfl, by decide, by decide⟩
  | yuyv => cases hb; exact ⟨.yuyv422, rfl, rfl, rfl, by decide, by decide⟩
  | mjpeg | depth16 | h264AnnexB | nv12 => cases hb

structure Copied (frame : OwnedFrame) (fresh av : AvFrame) : Prop where
  layout_eq : av.format.layout = frame.header.pixelFormat
  width_eq : av.width = frame.header.width
  height_eq : av.height = frame.header.height
  stride_eq : av.stride = fresh.stride
  written : RowsWritten
    (fun row => slice frame.payload
      (row * (frame.header.width.toNat * bytesPerPixel frame.header.pixelFormat))
      (frame.header.width.toNat * bytesPerPixel frame.header.pixelFormat))
    (frame.header.width.toNat * bytesPerPixel frame.header.pixelFormat) fresh.stride
    frame.header.height.toNat fresh.data av.data

/-- A frame is copied where its payload has all rows, and refused where it has not; the copy never
leaves its buffers. -/
theorem Allocates.copied (hl : Allocates libav) {b : ℕ}
    (hb : directBytesPerPixel frame.header.pixelFormat = some b)
    (hp : pixelFormatForLibav frame.header.pixelFormat = .ok p)
    (hfresh : libav.alloc p frame.header.width frame.header.height = some fresh) :
    if frame.payload.length < frame.header.width.toNat * b * frame.header.height.toNat then
      ∃ error, decodeOrCopyFrameToAv libav frame = some (.error error)
    else ∃ av, decodeOrCopyFrameToAv libav frame = some (.ok av) ∧ Copied frame fresh av := by
  obtain ⟨q, hq, hlayout, hbytes, hmjpeg, -⟩ := direct_cases hb
  obtain rfl := Except.ok.inj (hp.symm.trans hq)
  have hnew := hl _ _ _ _ hfresh
  have hcopy : decodeOrCopyFrameToAv libav frame
      = copyFramePayload (some fresh) frame.header frame.payload := by
    simp only [decodeOrCopyFrameToAv, if_neg hmjpeg, hp, hfresh]
  rw [hcopy]
  simp only [copyFramePayload, hb, Option.bind_eq_bind, Option.bind_some]
  split
  · exact ⟨_, rfl⟩
  · next henough =>
    have hrow : ∀ r < frame.header.height.toNat, ∃ row,
        slice frame.payload (r * (frame.header.width.toNat * b)) (frame.header.width.toNat * b)
          = some row ∧ row.length = frame.header.width.toNat * b := by
      intro r hr
      have hle := row_fits (frame.header.width.toNat * b) hr
      have hwithin : r * (frame.header.width.toNat * b) + frame.header.width.toNat * b
          ≤ frame.payload.length := Nat.le_trans hle (by omega)
      have hslice := slice_of_le hwithin
      exact ⟨_, hslice, slice_length hslice⟩
    obtain ⟨data, hdata, hwritten⟩ := writeRows_written fresh.data fresh.stride
      (by rw [← hbytes, ← hlayout]; exact hnew.rows) hrow (hnew.fits (by rw [hlayout, hbytes]))
    rw [hdata]
    refine ⟨_, rfl, (congrArg Pixel.layout hnew.format_eq).trans hlayout, hnew.width_eq,
      hnew.height_eq, rfl, ?_⟩
    rw [hbytes]
    exact hwritten

theorem Allocates.copied_of_buffers (hl : Allocates libav) {b : ℕ}
    (hb : directBytesPerPixel frame.header.pixelFormat = some b)
    (hbuffers : libav.Buffers frame.header.width frame.header.height) :
    if frame.payload.length < frame.header.width.toNat * b * frame.header.height.toNat then
      ∃ error, decodeOrCopyFrameToAv libav frame = some (.error error)
    else ∃ fresh av, decodeOrCopyFrameToAv libav frame = some (.ok av) ∧
      Copied frame fresh av := by
  obtain ⟨p, hp, -⟩ := direct_cases hb
  obtain ⟨fresh, hfresh⟩ := Option.isSome_iff_exists.mp (hbuffers p)
  have hcopied := hl.copied hb hp hfresh
  split at hcopied
  · next hshort =>
    rw [if_pos hshort]
    exact hcopied
  · next henough =>
    rw [if_neg henough]
    exact ⟨fresh, hcopied⟩

theorem Copied.row {fresh av : AvFrame} (h : Copied frame fresh av)
    (hpayload : frame.header.width.toNat * bytesPerPixel frame.header.pixelFormat *
      frame.header.height.toNat ≤ frame.payload.length) {y : ℕ}
    (hy : y < frame.header.height.toNat) {c : ℕ}
    (hc : c < frame.header.width.toNat * bytesPerPixel frame.header.pixelFormat) :
    av.data[y * av.stride + c]? = frame.payload[y *
      (frame.header.width.toNat * bytesPerPixel frame.header.pixelFormat) + c]? := by
  have hslice := slice_of_le (Nat.le_trans (row_fits _ hy) hpayload)
  rw [h.stride_eq, h.written.shown y hy _ hslice c hc, slice_getElem? hslice hc]

/-- A copy shows the colours of its frame. -/
theorem Copied.pixel {fresh av : AvFrame} (h : Copied frame fresh av)
    (hpayload : frame.header.width.toNat * bytesPerPixel frame.header.pixelFormat *
      frame.header.height.toNat ≤ frame.payload.length) {x y : ℕ}
    (hx : x < frame.header.width.toNat) (hy : y < frame.header.height.toNat) :
    av.pixel x y = pixelAt frame.header.pixelFormat frame.header.width.toNat frame.payload
      (y * (frame.header.width.toNat * bytesPerPixel frame.header.pixelFormat)) x := by
  rw [AvFrame.pixel, h.layout_eq, h.width_eq]
  exact pixelAt_congr _ hx fun c hc => h.row hpayload hy hc

theorem pixelAt_some {format : PixelFormat} {b : ℕ} (hb : directBytesPerPixel format = some b)
    {w x offset : ℕ} {data : List UInt8} (hx : x < w) (h : offset + w * b ≤ data.length) :
    ∃ colour, pixelAt format w data offset x = some colour := by
  have hget : ∀ c < w * b, ∃ byte, data[offset + c]? = some byte :=
    fun c hc => ⟨_, List.getElem?_eq_getElem (by omega)⟩
  cases format with
  | rgb24 | bgr24 =>
    cases hb
    obtain ⟨first, hfirst⟩ := hget (3 * x) (by omega)
    obtain ⟨second, hsecond⟩ := hget (3 * x + 1) (by omega)
    obtain ⟨third, hthird⟩ := hget (3 * x + 2) (by omega)
    exact ⟨_, by simp only [pixelAt, hfirst, hsecond, hthird]; rfl⟩
  | gray8 =>
    cases hb
    obtain ⟨value, hvalue⟩ := hget x (by omega)
    exact ⟨_, by simp only [pixelAt, hvalue]; rfl⟩
  | yuyv =>
    cases hb
    obtain ⟨y, hy⟩ := hget (2 * x) (by omega)
    obtain ⟨u, hu⟩ := hget (4 * (x / 2) + 1) (by omega)
    exact ⟨_, by simp only [pixelAt, hy, hu]; rfl⟩
  | mjpeg | depth16 | h264AnnexB | nv12 => cases hb

/-- For every RGB24, BGR24, YUYV or Gray8 frame that libav has a buffer for, whatever the stride of the
new frame and whatever it held: where the payload has all rows, each byte of them is at its place, what
lies between the rows is untouched, and an RGB frame is compacted to the payload again; where it has
not, the copy is refused. The size that is computed does not wrap. -/
theorem raw_rows_copied (hl : Allocates libav) {b : ℕ}
    (hb : directBytesPerPixel frame.header.pixelFormat = some b)
    (hp : pixelFormatForLibav frame.header.pixelFormat = .ok p)
    (hfresh : libav.alloc p frame.header.width frame.header.height = some fresh) :
    frame.header.width.toNat * b * frame.header.height.toNat < 2 ^ 63 ∧
    if frame.payload.length < frame.header.width.toNat * b * frame.header.height.toNat then
      ∃ error, decodeOrCopyFrameToAv libav frame = some (.error error)
    else ∃ av, decodeOrCopyFrameToAv libav frame = some (.ok av) ∧
      (∀ y < frame.header.height.toNat, ∀ c < frame.header.width.toNat * b,
        av.data[y * av.stride + c]? = frame.payload[y * (frame.header.width.toNat * b) + c]?) ∧
      (∀ i, (∀ y < frame.header.height.toNat, ∀ c < frame.header.width.toNat * b,
          i ≠ y * av.stride + c) → av.data[i]? = fresh.data[i]?) ∧
      (b = 3 → compactRgbFrame av = some (frame.payload.take
        (frame.header.width.toNat * b * frame.header.height.toNat))) := by
  have hcopied := hl.copied hb hp hfresh
  obtain ⟨q, hq, hlayout, hbytes, -, -⟩ := direct_cases hb
  obtain rfl := Except.ok.inj (hp.symm.trans hq)
  have hnew := hl _ _ _ _ hfresh
  refine ⟨?_, ?_⟩
  · have hsize := hnew.size_fits
    rwa [hlayout, hbytes] at hsize
  split at hcopied
  · next hshort =>
    rw [if_pos hshort]
    exact hcopied
  · next henough =>
    rw [if_neg henough]
    obtain ⟨av, hav, hcopy⟩ := hcopied
    have hpayload : frame.header.width.toNat * bytesPerPixel frame.header.pixelFormat *
        frame.header.height.toNat ≤ frame.payload.length := by
      rw [hbytes]
      omega
    refine ⟨av, hav, fun y hy c hc => ?_, fun i hi => ?_, ?_⟩
    · have hrow := hcopy.row hpayload hy (hbytes.symm ▸ hc)
      rwa [hbytes] at hrow
    · refine hcopy.written.kept i fun y hy c hc => ?_
      rw [← hcopy.stride_eq]
      exact hi y hy c (hbytes ▸ hc)
    · rintro rfl
      have hwritten := hcopy.written
      rw [hbytes] at hwritten hpayload
      rw [compactRgbFrame, hcopy.width_eq, hcopy.height_eq, hcopy.stride_eq]
      exact compact_copied hwritten hpayload (hnew.fits (by rw [hlayout, hbytes]))
        List.length_replicate

end Rows

section Camera
variable {libav : Libav} {native : FourCC} {width height : UInt32} {out : PixelFormat}

end Camera

section Previews
variable {libav : Libav} {frame : OwnedFrame} {data : List UInt8} {n : ℕ}

def grays : List UInt8 → List UInt8
  | low :: high :: rest => intensity low high :: grays rest
  | _ => []

theorem swapped_eq (h : data.length = 3 * n) :
    swapped data = swapChunks (List.replicate (3 * n) 0) data := by
  induction n generalizing data with
  | zero =>
    cases List.length_eq_zero_iff.mp h
    rfl
  | succ n ih =>
    match data with
    | b :: g :: r :: rest =>
      have hrest : rest.length = 3 * n := by
        simp only [List.length_cons] at h
        omega
      rw [swapped, ih hrest]
      rfl
    | [] | [_] | [_, _] =>
      simp only [List.length_cons, List.length_nil] at h
      omega

theorem expanded_eq (h : data.length = n) :
    expanded data = expandChunks (List.replicate (3 * n) 0) data := by
  induction data generalizing n with
  | nil =>
    cases h
    rfl
  | cons value data ih =>
    cases h
    rw [expanded, List.flatMap_cons, ← expanded, ih rfl]
    rfl

theorem depthExpanded_eq (data : List UInt8) : depthExpanded data = expanded (grays data) := by
  fun_induction depthExpanded data with
  | case1 low high rest ih =>
    rw [ih]
    rfl
  | case2 data hnot =>
    match data with
    | low :: high :: rest => exact absurd rfl (hnot low high rest)
    | [] | [_] => rfl

theorem grays_getElem? (h : data.length = 2 * n) :
    (grays data).length = n ∧ ∀ p < n, ∃ low high, data[2 * p]? = some low ∧
      data[2 * p + 1]? = some high ∧ (grays data)[p]? = some (intensity low high) := by
  induction n generalizing data with
  | zero =>
    cases List.length_eq_zero_iff.mp h
    exact ⟨rfl, fun p hp => absurd hp (Nat.not_lt_zero p)⟩
  | succ n ih =>
    match data with
    | low :: high :: rest =>
      have hrest : rest.length = 2 * n := by
        simp only [List.length_cons] at h
        omega
      obtain ⟨hlen, hget⟩ := ih hrest
      refine ⟨congrArg (· + 1) hlen, fun p hp => ?_⟩
      cases p with
      | zero => exact ⟨low, high, rfl, rfl, rfl⟩
      | succ p => exact hget p (by omega)
    | [] | [_] =>
      simp only [List.length_cons, List.length_nil] at h
      omega

/-- What a preview can be made of without libav. -/
structure Drawable (frame : OwnedFrame) : Prop where
  format : frame.header.pixelFormat ∈ [PixelFormat.rgb24, .bgr24, .gray8, .depth16]
  nonempty : frame.header.width.toNat * frame.header.height.toNat *
    bytesPerPixel frame.header.pixelFormat ≠ 0
  complete : frame.header.width.toNat * frame.header.height.toNat *
    bytesPerPixel frame.header.pixelFormat ≤ frame.payload.length

def rgbOf : PixelFormat → List UInt8 → List UInt8
  | .rgb24, data => data
  | .bgr24, data => swapped data
  | .gray8, data => expanded data
  | .depth16, data => depthExpanded data
  | _, _ => []

theorem previewRgbBytes_ok_iff {rgb : List UInt8} :
    previewRgbBytes frame.header frame.payload = .ok rgb ↔ Drawable frame ∧
      rgbOf frame.header.pixelFormat (frame.payload.take
        (frame.header.width.toNat * frame.header.height.toNat *
          bytesPerPixel frame.header.pixelFormat)) = rgb := by
  have hdrawable : ∀ format, frame.header.pixelFormat = format →
      format ∈ [PixelFormat.rgb24, .bgr24, .gray8, .depth16] →
      (Drawable frame ↔
        frame.header.width.toNat * frame.header.height.toNat * bytesPerPixel format ≠ 0 ∧
        frame.header.width.toNat * frame.header.height.toNat * bytesPerPixel format
          ≤ frame.payload.length) := by
    rintro format rfl hformat
    exact ⟨fun h => ⟨h.nonempty, h.complete⟩, fun h => ⟨hformat, h.1, h.2⟩⟩
  cases hformat : frame.header.pixelFormat with
  | rgb24 | bgr24 | gray8 =>
    rw [hdrawable _ hformat (by decide)]
    simp only [previewRgbBytes, hformat, bind_eq_ok, expectedFrameLen_eq_ok, exists_unit,
      requireFrameLen_eq_ok, pure_eq_ok, bytesPerPixel, rgbOf, and_assoc, exists_and_left,
      exists_eq_left]
  | depth16 =>
    rw [hdrawable _ hformat (by decide)]
    simp only [previewRgbBytes, hformat, depth16ToRgb, bind_eq_ok, check_eq_ok, exists_unit,
      requireFrameLen_eq_ok, pure_eq_ok, bytesPerPixel, rgbOf, and_assoc, ne_eq]
  | yuyv | mjpeg | h264AnnexB | nv12 =>
    simp only [previewRgbBytes, hformat, reduceCtorEq, false_iff, not_and]
    intro h
    have hmem := h.format
    rw [hformat] at hmem
    exact absurd hmem (by decide)

/-- The RGB of a frame shows at each pixel what its bytes show there, or the gray of its depth. -/
theorem rgbOf_pixel {format : PixelFormat} {w h x y : ℕ}
    (hformat : format ∈ [PixelFormat.rgb24, .bgr24, .gray8, .depth16])
    (hdata : data.length = w * h * bytesPerPixel format) (hx : x < w) (hy : y < h) :
    (rgbOf format data).length = w * h * 3 ∧
    pixelAt .rgb24 w (rgbOf format data) (y * (w * 3)) x =
      if format = .depth16 then pixelAt .gray8 w (grays data) (y * (w * 1)) x
      else pixelAt format w data (y * (w * bytesPerPixel format)) x := by
  have hscratch : (List.replicate (3 * (w * h)) (0 : UInt8)).length = 3 * (w * h) :=
    List.length_replicate
  cases format with
  | rgb24 => exact ⟨hdata, rfl⟩
  | bgr24 =>
    have hlen : data.length = 3 * (w * h) := hdata.trans (Nat.mul_comm _ _)
    simp only [rgbOf, swapped_eq hlen]
    exact ⟨by rw [swapChunks_length, hscratch, Nat.mul_comm], (swapped_pixel hscratch hlen hx hy).2⟩
  | gray8 =>
    have hlen : data.length = w * h := hdata.trans (Nat.mul_one _)
    simp only [rgbOf, expanded_eq hlen]
    exact ⟨by rw [expandChunks_length, hscratch, Nat.mul_comm],
      expanded_pixel hscratch hlen hx hy (.inl rfl)⟩
  | depth16 =>
    have hlen : (grays data).length = w * h :=
      (grays_getElem? (hdata.trans (Nat.mul_comm _ _))).1
    simp only [rgbOf, depthExpanded_eq, expanded_eq hlen]
    exact ⟨by rw [expandChunks_length, hscratch, Nat.mul_comm],
      expanded_pixel hscratch hlen hx hy (.inl rfl)⟩
  | yuyv | mjpeg | h264AnnexB | nv12 => exact absurd hformat (by decide)

theorem direct_of_format {format : PixelFormat}
    (h : format ∈ [PixelFormat.rgb24, .bgr24, .gray8, .depth16]) (hraw : format ≠ .depth16) :
    ∃ b, directBytesPerPixel format = some b := by
  simp only [List.mem_cons, List.not_mem_nil, or_false] at h
  rcases h with rfl | rfl | rfl | rfl
  · exact ⟨3, rfl⟩
  · exact ⟨3, rfl⟩
  · exact ⟨1, rfl⟩
  · exact absurd rfl hraw

theorem Drawable.taken_length (h : Drawable frame) :
    (frame.payload.take (frame.header.width.toNat * frame.header.height.toNat *
      bytesPerPixel frame.header.pixelFormat)).length = frame.header.width.toNat *
        frame.header.height.toNat * bytesPerPixel frame.header.pixelFormat := by
  rw [List.length_take]
  exact Nat.min_eq_left h.complete

theorem Drawable.rgb_length (h : Drawable frame) :
    (rgbOf frame.header.pixelFormat (frame.payload.take
      (frame.header.width.toNat * frame.header.height.toNat *
        bytesPerPixel frame.header.pixelFormat))).length
      = frame.header.width.toNat * frame.header.height.toNat * 3 := by
  have hpos := h.nonempty
  have hwidth : 0 < frame.header.width.toNat :=
    Nat.pos_of_ne_zero fun hzero => hpos (by rw [hzero, Nat.zero_mul, Nat.zero_mul])
  have hheight : 0 < frame.header.height.toNat :=
    Nat.pos_of_ne_zero fun hzero => hpos (by rw [hzero, Nat.mul_zero, Nat.zero_mul])
  exact (rgbOf_pixel h.format h.taken_length hwidth hheight).1

/-- The gray frame of a complete depth frame, whatever its stride. -/
theorem Allocates.depth_drawn (hl : Allocates libav)
    (hbuffers : libav.Buffers frame.header.width frame.header.height)
    (hpos : frame.header.width.toNat * frame.header.height.toNat * 2 ≠ 0)
    (hlen : frame.header.width.toNat * frame.header.height.toNat * 2 ≤ frame.payload.length) :
    ∃ av, depth16ToGray8AvFrame libav frame = some (.ok av) ∧ av.format = .gray8 ∧
      av.width = frame.header.width ∧ av.height = frame.header.height ∧
      ∀ x < frame.header.width.toNat, ∀ y < frame.header.height.toNat, ∃ value,
        (grays (frame.payload.take (frame.header.width.toNat * frame.header.height.toNat * 2)))[
          y * frame.header.width.toNat + x]? = some value ∧
        av.data[y * av.stride + x]? = some value := by
  have hsize : (frame.payload.take
      (frame.header.width.toNat * frame.header.height.toNat * 2)).length
      = 2 * (frame.header.width.toNat * frame.header.height.toNat) := by
    rw [List.length_take]
    omega
  obtain ⟨-, hgray⟩ := grays_getElem? hsize
  have hcell : ∀ y < frame.header.height.toNat, ∀ x < frame.header.width.toNat, ∃ value,
      (grays (frame.payload.take (frame.header.width.toNat * frame.header.height.toNat * 2)))[
        y * frame.header.width.toNat + x]? = some value ∧
      depthCell (frame.payload.take (frame.header.width.toNat * frame.header.height.toNat * 2))
        frame.header.width.toNat y x = some value := by
    intro y hy x hx
    obtain ⟨low, high, hlow, hhigh, hvalue⟩ := hgray _ (pixel_lt hx hy)
    have hoffset : y * frame.header.width.toNat * 2 + x * 2
        = 2 * (y * frame.header.width.toNat + x) := by ring
    refine ⟨_, hvalue, ?_⟩
    simp only [depthCell, hoffset, hlow, hhigh]
    rfl
  have hrows : ∀ y < frame.header.height.toNat, ∃ row,
      rowOf (depthCell (frame.payload.take
        (frame.header.width.toNat * frame.header.height.toNat * 2)) frame.header.width.toNat y)
        frame.header.width.toNat = some row ∧ row.length = frame.header.width.toNat ∧
      ∀ x < frame.header.width.toNat, row[x]? = depthCell (frame.payload.take
        (frame.header.width.toNat * frame.header.height.toNat * 2)) frame.header.width.toNat y x := by
    intro y hy
    refine rowOf_cells fun x hx => ?_
    obtain ⟨value, -, hvalue⟩ := hcell y hy x hx
    rw [hvalue]
    rfl
  obtain ⟨fresh, hfresh⟩ := Option.isSome_iff_exists.mp (hbuffers .gray8)
  have hnew := hl _ _ _ _ hfresh
  have hstride : frame.header.width.toNat ≤ fresh.stride := by
    have hrow := hnew.rows
    rwa [Pixel.layout, bytesPerPixel, Nat.mul_one] at hrow
  obtain ⟨data, hdata, hwritten⟩ := writeRows_written fresh.data fresh.stride hstride
    (fun y hy => (hrows y hy).imp fun row hrow => ⟨hrow.1, hrow.2.1⟩)
    (hnew.fits (Nat.mul_one _).symm)
  refine ⟨{ fresh with data }, ?_, hnew.format_eq, hnew.width_eq, hnew.height_eq,
    fun x hx y hy => ?_⟩
  · simp only [depth16ToGray8AvFrame, if_neg hpos, if_neg (Nat.not_lt.mpr hlen), hfresh,
      Option.bind_eq_bind, Option.bind_some, hdata]
    rfl
  · obtain ⟨value, hvalue, hthere⟩ := hcell y hy x hx
    obtain ⟨row, hrow, -, hget⟩ := hrows y hy
    refine ⟨value, hvalue, ?_⟩
    rw [hwritten.shown y hy row hrow x hx, hget x hx, hthere]

/-- What the two ways to a preview have in common. -/
structure SamePreview (frame : OwnedFrame) (rgb : List UInt8) (av : AvFrame) : Prop where
  width_eq : av.width = frame.header.width
  height_eq : av.height = frame.header.height
  length : rgb.length = frame.header.width.toNat * frame.header.height.toNat * 3
  pixels : ∀ x < frame.header.width.toNat, ∀ y < frame.header.height.toNat, ∃ colour,
    pixelAt .rgb24 frame.header.width.toNat rgb (y * (frame.header.width.toNat * 3)) x = some colour ∧
    av.pixel x y = some colour

theorem Drawable.depth (hl : Allocates libav)
    (hbuffers : libav.Buffers frame.header.width frame.header.height) (h : Drawable frame)
    (hdepth : frame.header.pixelFormat = .depth16) :
    ∃ av, previewSource libav frame = some (.ok av) ∧ SamePreview frame
      (rgbOf frame.header.pixelFormat (frame.payload.take
        (frame.header.width.toNat * frame.header.height.toNat *
          bytesPerPixel frame.header.pixelFormat))) av := by
  have hlength := h.rgb_length
  have hformat := h.format
  have hdata := h.taken_length
  have hpos := h.nonempty
  have hlen := h.complete
  rw [hdepth] at hlength hformat hdata hpos hlen ⊢
  obtain ⟨av, hav, hgray8, hwidth, hheight, hvalues⟩ := hl.depth_drawn hbuffers hpos hlen
  refine ⟨av, (if_pos hdepth).trans hav, hwidth, hheight, hlength, fun x hx y hy => ?_⟩
  obtain ⟨value, hgray, hthere⟩ := hvalues x hx y hy
  refine ⟨.rgb value value value, ?_, ?_⟩
  · rw [(rgbOf_pixel hformat hdata hx hy).2, if_pos rfl]
    simp only [pixelAt, bytesPerPixel, Nat.mul_one, hgray]
    rfl
  · simp only [AvFrame.pixel, hgray8, Pixel.layout, pixelAt, hthere]
    rfl

theorem Drawable.raw (hl : Allocates libav)
    (hbuffers : libav.Buffers frame.header.width frame.header.height) (h : Drawable frame)
    (hraw : frame.header.pixelFormat ≠ .depth16) :
    ∃ av, previewSource libav frame = some (.ok av) ∧ SamePreview frame
      (rgbOf frame.header.pixelFormat (frame.payload.take
        (frame.header.width.toNat * frame.header.height.toNat *
          bytesPerPixel frame.header.pixelFormat))) av := by
  obtain ⟨b, hb⟩ := direct_of_format h.format hraw
  obtain ⟨-, -, -, hbytes, -, -⟩ := direct_cases hb
  have hcopied := hl.copied_of_buffers hb hbuffers
  have hpayload : frame.header.width.toNat * bytesPerPixel frame.header.pixelFormat *
      frame.header.height.toNat ≤ frame.payload.length := by
    rw [Nat.mul_right_comm]
    exact h.complete
  rw [← hbytes, if_neg (Nat.not_lt.mpr hpayload)] at hcopied
  obtain ⟨fresh, av, hav, hcopy⟩ := hcopied
  refine ⟨av, (if_neg hraw).trans hav, hcopy.width_eq, hcopy.height_eq, h.rgb_length,
    fun x hx y hy => ?_⟩
  have hrow := Nat.le_trans (row_fits _ hy) hpayload
  obtain ⟨colour, hcolour⟩ := pixelAt_some hb hx (hbytes ▸ hrow)
  rw [← hbytes] at hcolour
  refine ⟨colour, ?_, ?_⟩
  · rw [(rgbOf_pixel h.format h.taken_length hx hy).2, if_neg hraw, pixelAt_take _ _ hx hy]
    exact hcolour
  · rw [hcopy.pixel hpayload hx hy]
    exact hcolour

/-- The two ways to a preview agree, for the sizes that libav has buffers for. Without libav there is
one exactly of a complete frame, and then the frame that is scaled is there too and shows the same
colour at each pixel; where pixels are missing there is neither. No size that is computed wraps. -/
theorem previews_agree (hl : Allocates libav) (frame : OwnedFrame)
    (hbuffers : libav.Buffers frame.header.width frame.header.height) :
    frame.header.width.toNat * frame.header.height.toNat * 3 < 2 ^ 63 ∧
    ((∃ rgb, previewRgbBytes frame.header frame.payload = .ok rgb) ↔ Drawable frame) ∧
    (∀ rgb, previewRgbBytes frame.header frame.payload = .ok rgb →
      ∃ av, previewSource libav frame = some (.ok av) ∧ SamePreview frame rgb av) ∧
    (frame.header.pixelFormat ∈ [PixelFormat.rgb24, .bgr24, .gray8, .depth16] →
      frame.payload.length < frame.header.width.toNat * frame.header.height.toNat *
        bytesPerPixel frame.header.pixelFormat →
      ∃ error, previewSource libav frame = some (.error error)) := by
  refine ⟨hl.sizes_fit hbuffers, ⟨fun ⟨rgb, h⟩ => (previewRgbBytes_ok_iff.mp h).1,
    fun h => ⟨_, previewRgbBytes_ok_iff.mpr ⟨h, rfl⟩⟩⟩, fun rgb h => ?_, fun hformat hshort => ?_⟩
  · obtain ⟨hdrawable, rfl⟩ := previewRgbBytes_ok_iff.mp h
    by_cases hdepth : frame.header.pixelFormat = .depth16
    · exact hdrawable.depth hl hbuffers hdepth
    · exact hdrawable.raw hl hbuffers hdepth
  · by_cases hdepth : frame.header.pixelFormat = .depth16
    · rw [hdepth] at hshort
      have hpos : frame.header.width.toNat * frame.header.height.toNat * 2 ≠ 0 := by
        intro hzero
        rw [bytesPerPixel, hzero] at hshort
        exact absurd hshort (Nat.not_lt_zero _)
      exact ⟨_, (if_pos hdepth).trans ((if_neg hpos).trans (if_pos hshort))⟩
    · obtain ⟨b, hb⟩ := direct_of_format hformat hdepth
      obtain ⟨-, -, -, hbytes, -, -⟩ := direct_cases hb
      have hcopied := hl.copied_of_buffers hb hbuffers
      rw [← hbytes, if_pos (by rw [Nat.mul_right_comm]; exact hshort)] at hcopied
      obtain ⟨error, herror⟩ := hcopied
      exact ⟨error, (if_neg hdepth).trans herror⟩

end Previews

section Samples

/-- A libav whose rows are a byte longer than they need to be, and not blank. It has buffers for frames
of up to 100 by 100 pixels. -/
def paddedLibav : Libav where
  alloc format width height :=
    if (0 < width.toNat ∧ width.toNat ≤ 100) ∧ 0 < height.toNat ∧ height.toNat ≤ 100 then
      some {
        format
        width
        height
        stride := width.toNat * bytesPerPixel format.layout + 1
        data := List.replicate ((width.toNat * bytesPerPixel format.layout + 1) * height.toNat) 7 }
    else none
  decodeMjpeg _ := .error "no frame"

theorem paddedLibav_allocates : Allocates paddedLibav := by
  intro p w h fresh hfresh
  simp only [paddedLibav] at hfresh
  split at hfresh
  · next hsize =>
    cases hfresh
    refine ⟨rfl, rfl, rfl, Nat.le_succ _, List.length_replicate, ?_⟩
    have hpixel : bytesPerPixel p.layout ≤ 3 := by cases p <;> decide
    calc (List.replicate ((w.toNat * bytesPerPixel p.layout + 1) * h.toNat) (7 : UInt8)).length
      _ = (w.toNat * bytesPerPixel p.layout + 1) * h.toNat := List.length_replicate
      _ ≤ (100 * 3 + 1) * 100 :=
        Nat.mul_le_mul (Nat.succ_le_succ (Nat.mul_le_mul hsize.1.2 hpixel)) hsize.2.2
      _ < 2 ^ 63 := by decide
  · cases hfresh

def bgrFrame : OwnedFrame := ⟨{ width := 1, height := 2, pixelFormat := .bgr24 }, [1, 2, 3, 4, 5, 6]⟩

theorem padded_rows_copied : ∃ av, decodeOrCopyFrameToAv paddedLibav bgrFrame = some (.ok av) ∧
    compactRgbFrame av = some [1, 2, 3, 4, 5, 6] := by
  have hb : directBytesPerPixel bgrFrame.header.pixelFormat = some 3 := rfl
  have h := (raw_rows_copied paddedLibav_allocates hb rfl rfl).2
  rw [if_neg (by decide)] at h
  obtain ⟨av, hav, -, -, hcompact⟩ := h
  exact ⟨av, hav, hcompact rfl⟩

def depthFrame : OwnedFrame :=
  ⟨{ width := 2, height := 1, pixelFormat := .depth16 }, [0, 0, 244, 1]⟩

theorem depth_preview_shown : ∃ av, previewSource paddedLibav depthFrame = some (.ok av) ∧
    av.pixel 1 0 = some (.rgb 127 127 127) := by
  obtain ⟨av, hav, hsame⟩ := (previews_agree paddedLibav_allocates depthFrame
    (by intro p; cases p <;> decide)).2.2.1 [0, 0, 0, 127, 127, 127] (by decide)
  obtain ⟨colour, hrgb, hshown⟩ := hsame.pixels 1 (by decide) 0 (by decide)
  refine ⟨av, hav, hshown.trans ?_⟩
  rw [← hrgb]
  decide

end Samples

end FramePlanes
