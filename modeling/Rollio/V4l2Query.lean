import Rollio.DeviceConfigs
import Mathlib.Data.List.Sort

/-! What a V4L2 camera enumerates, and the profiles its driver advertises for it. -/
namespace V4l2Query
open BusMessages DeviceConfigs Outcomes

structure FourCC where
  b₀ : UInt8
  b₁ : UInt8
  b₂ : UInt8
  b₃ : UInt8
  deriving DecidableEq, Repr

def FourCC.repr (f : FourCC) : List UInt8 := [f.b₀, f.b₁, f.b₂, f.b₃]

def rgb3 : FourCC := ⟨82, 71, 66, 51⟩
def bgr3 : FourCC := ⟨66, 71, 82, 51⟩
def yuyv : FourCC := ⟨89, 85, 89, 86⟩
def yuy2 : FourCC := ⟨89, 85, 89, 50⟩
def mjpg : FourCC := ⟨77, 74, 80, 71⟩
def jpeg : FourCC := ⟨74, 80, 69, 71⟩
def grey : FourCC := ⟨71, 82, 69, 89⟩

def FourCC.debug (f : FourCC) : String := "[" ++ ", ".intercalate (f.repr.map toString) ++ "]"

/-- The bytes as a text, or written out where they are none. -/
def fourccToString (f : FourCC) : String :=
  (String.fromUTF8? ⟨f.repr.toArray⟩).getD f.debug

structure Fraction where
  numerator : UInt32
  denominator : UInt32
  deriving DecidableEq

structure Stepwise where
  minWidth : UInt32
  maxWidth : UInt32
  stepWidth : UInt32
  minHeight : UInt32
  maxHeight : UInt32
  stepHeight : UInt32

inductive FrameSize where
  | discrete (width height : UInt32)
  | stepwise (s : Stepwise)

inductive FrameInterval where
  | discrete (interval : Fraction)
  | stepwise (min max step : Fraction)

structure Format where
  width : UInt32
  height : UInt32
  fourcc : FourCC
  deriving DecidableEq

structure Capabilities where
  driver : String
  card : String
  bus : String
  videoCapture : Bool
  videoCaptureMplane : Bool := false

structure Device where
  queryCaps : Except String Capabilities
  enumFormats : Except String (List FourCC)
  enumFramesizes : FourCC → Except String (List FrameSize)
  enumFrameintervals : FourCC → UInt32 → UInt32 → Except String (List FrameInterval)
  format : Except String Format
  /-- The interval of the current parameters. -/
  params : Except String Fraction
  setFormat : Format → Except String Format
  setParams : Fraction → Except String Fraction

structure Rates (α : Type) where
  /-- `denominator as f64 / numerator as f64`. -/
  perSecond : Fraction → α
  /-- `(fps * 1000.0).round() as u32`. -/
  toMilli : α → UInt32
  /-- `fps_milli as f64 / 1000.0`. -/
  ofMilli : UInt32 → α
  /-- `fps.round() as u32`. -/
  round : α → UInt32

/-- A `BTreeSet` of some elements, by its elements in order. -/
def treeSet {β : Type} [DecidableEq β] (le : β → β → Bool) (elements : List β) : List β :=
  elements.dedup.insertionSort fun a b => le a b

section Sizes

def pushSize (sizes : List (UInt32 × UInt32)) (size : UInt32 × UInt32) :
    List (UInt32 × UInt32) :=
  if size ∈ sizes then sizes else sizes ++ [size]

/-- The values of a loop that adds `step` until it exceeds `last` or its type. -/
def stepped (last step value : UInt32) : List UInt32 :=
  if value ≤ last then
    if value.toNat + step.toNat < 4294967296 ∧ value < value + step then
      value :: stepped last step (value + step)
    else [value]
  else []
termination_by 4294967296 - value.toNat
decreasing_by
  have hlt := UInt32.lt_iff_toNat_lt.1 (And.right ‹_ ∧ _›)
  have := value.toNat_lt
  omega

def sizesOf : FrameSize → List (UInt32 × UInt32)
  | .discrete width height => [(width, height)]
  | .stepwise s =>
    let widthStep := max s.stepWidth 1
    let heightStep := max s.stepHeight 1
    let widthCount := (s.maxWidth - s.minWidth) / widthStep + 1
    let heightCount := (s.maxHeight - s.minHeight) / heightStep + 1
    if widthCount.toNat * heightCount.toNat ≤ 64 then
      (stepped s.maxWidth widthStep s.minWidth).flatMap fun width =>
        (stepped s.maxHeight heightStep s.minHeight).map fun height => (width, height)
    else [(s.minWidth, s.minHeight), (s.maxWidth, s.maxHeight)]

def candidateSizes (frameSizes : List FrameSize) : List (UInt32 × UInt32) :=
  (frameSizes.flatMap sizesOf).foldl pushSize []

end Sizes

section Query
variable {α : Type} (rates : Rates α)

def fractionToF64 (f : Fraction) : Option α :=
  if f.numerator = 0 ∨ f.denominator = 0 then none else some (rates.perSecond f)

def fractionToFpsMilli (f : Fraction) : Option UInt32 :=
  (fractionToF64 rates f).map rates.toMilli

def intervalRates : FrameInterval → List UInt32
  | .discrete interval => (fractionToFpsMilli rates interval).toList
  | .stepwise min max _ => [min, max].filterMap (fractionToFpsMilli rates)

def candidateFps (device : Device) (fourcc : FourCC) (width height : UInt32) : List UInt32 :=
  match device.enumFrameintervals fourcc width height with
  | .error _ => []
  | .ok intervals => treeSet (fun a b => a ≤ b) (intervals.flatMap (intervalRates rates))

abbrev Candidate := String × UInt32 × UInt32 × UInt32

def candidateLe (a b : Candidate) : Bool :=
  ((compare a.1 b.1).then ((compare a.2.1 b.2.1).then
    ((compare a.2.2.1 b.2.2.1).then (compare a.2.2.2 b.2.2.2)))).isLE

def enumerated (device : Device) : List Candidate :=
  match device.enumFormats with
  | .error _ => []
  | .ok formats => formats.flatMap fun fourcc =>
    match device.enumFramesizes fourcc with
    | .error _ => []
    | .ok frameSizes => (candidateSizes frameSizes).flatMap fun (width, height) =>
      (candidateFps rates device fourcc width height).map fun fpsMilli =>
        (fourccToString fourcc, width, height, fpsMilli)

def currentProfile (device : Device) : Except String (List Candidate) := do
  let current ← device.format
  match device.params with
  | .error _ => return []
  | .ok interval =>
    return (fractionToFpsMilli rates interval).toList.map fun fpsMilli =>
      (fourccToString current.fourcc, current.width, current.height, fpsMilli)

def candidates (device : Device) : Except String (List Candidate) :=
  if enumerated rates device = [] then currentProfile rates device
  else .ok (enumerated rates device)

def isCaptureCapable (caps : Capabilities) : Bool := caps.videoCapture || caps.videoCaptureMplane

def containsLower (s part : String) : Bool :=
  (s.toList.map Char.toLower).tails.any part.toList.isPrefixOf

def isLikelyRealsense (caps : Capabilities) : Bool :=
  containsLower caps.card "realsense" || containsLower caps.driver "realsense"

structure CapabilityProfile (α : Type) where
  nativePixelFormat : String
  width : UInt32
  height : UInt32
  fps : α

structure CapabilitiesOutput (α : Type) where
  id : String
  name : String
  driver : String
  bus : String
  nativeDriver : String
  profiles : List (CapabilityProfile α)

structure DeviceQueryChannel where
  channelType : String
  kind : DeviceType
  available : Bool
  channelLabel : Option String
  defaultName : Option String
  modes : List String
  profiles : List CameraChannelProfile

structure DeviceQueryDevice where
  id : String
  deviceClass : String
  deviceLabel : String
  defaultDeviceName : Option String
  channels : List DeviceQueryChannel

structure DeviceQueryResponse where
  driver : String
  devices : List DeviceQueryDevice

variable (withPath : String → Except String Device)

def openCaptureDevice (path : String) : Except String (Device × Capabilities) := do
  let device ← withPath path
  let caps ← device.queryCaps
  if !isCaptureCapable caps then throw (path ++ " is not a V4L2 capture device")
  if isLikelyRealsense caps then
    throw (path ++
      " appears to belong to a RealSense camera; use the dedicated realsense driver instead")
  return (device, caps)

def capabilitiesForDevice (path : String) : Except String (CapabilitiesOutput α) := do
  let (device, caps) ← openCaptureDevice withPath path
  let profiles ← candidates rates device
  return {
    id := path
    name := caps.card
    driver := "v4l2"
    bus := caps.bus
    nativeDriver := caps.driver
    profiles := (treeSet candidateLe profiles).map fun (native, width, height, fpsMilli) =>
      { nativePixelFormat := native, width, height, fps := rates.ofMilli fpsMilli } }

def busPixelFormatForNative (native : String) : PixelFormat :=
  if native = "BGR3" then .bgr24
  else if native = "RGB3" then .rgb24
  else if native = "MJPG" ∨ native = "JPEG" then .mjpeg
  else if native = "YUYV" ∨ native = "YUY2" then .yuyv
  else .rgb24

def advertised (profile : CapabilityProfile α) : CameraChannelProfile where
  width := profile.width
  height := profile.height
  fps := rates.round profile.fps
  pixelFormat := busPixelFormatForNative profile.nativePixelFormat
  nativePixelFormat := some profile.nativePixelFormat

def queryDevice (path : String) : Except String DeviceQueryResponse := do
  let capabilities ← capabilitiesForDevice rates withPath path
  return {
    driver := "v4l2"
    devices := [{
      id := path
      deviceClass := "v4l2"
      deviceLabel := capabilities.name
      defaultDeviceName := some "camera"
      channels := [{
        channelType := "color"
        kind := .camera
        available := true
        channelLabel := some "V4L2 Camera"
        defaultName := some "camera"
        modes := ["enabled", "disabled"]
        profiles := capabilities.profiles.map (advertised rates) }] }] }

def DeviceQueryResponse.profiles (response : DeviceQueryResponse) : List CameraChannelProfile :=
  response.devices.flatMap fun device => device.channels.flatMap fun channel => channel.profiles

end Query

section Enumerated
variable {α : Type} {rates : Rates α} {device : Device} {w h : UInt32}

/-- A value of a range, on its steps or at one of its ends. -/
def OnSteps (first last step value : UInt32) : Prop :=
  value = first ∨ value = last ∨
    value ≤ last ∧ ∃ k, value.toNat = first.toNat + k * (max step 1).toNat

def Has : FrameSize → UInt32 → UInt32 → Prop
  | .discrete width height, w, h => w = width ∧ h = height
  | .stepwise s, w, h =>
    OnSteps s.minWidth s.maxWidth s.stepWidth w ∧ OnSteps s.minHeight s.maxHeight s.stepHeight h

def Enumerated (device : Device) (fourcc : FourCC) (w h : UInt32) : Prop :=
  ∃ formats frameSizes, device.enumFormats = .ok formats ∧ fourcc ∈ formats ∧
    device.enumFramesizes fourcc = .ok frameSizes ∧ ∃ size ∈ frameSizes, Has size w h

theorem mem_stepped {first last step value x : UInt32} (k : ℕ)
    (hvalue : value.toNat = first.toNat + k * step.toNat) (hx : x ∈ stepped last step value) :
    x ≤ last ∧ ∃ k, x.toNat = first.toNat + k * step.toNat := by
  fun_induction stepped last step value generalizing k with
  | case1 value hle hnext ih =>
    obtain rfl | hx := List.mem_cons.1 hx
    · exact ⟨hle, k, hvalue⟩
    · refine ih (k + 1) ?_ hx
      rw [UInt32.toNat_add, Nat.mod_eq_of_lt hnext.1, hvalue, Nat.succ_mul, Nat.add_assoc]
  | case2 value hle _ =>
    obtain rfl := List.mem_singleton.1 hx
    exact ⟨hle, k, hvalue⟩
  | case3 => cases hx

theorem has_of_mem {size : FrameSize} (hs : (w, h) ∈ sizesOf size) : Has size w h := by
  cases size with
  | discrete width height => exact Prod.mk.inj (List.mem_singleton.1 hs)
  | stepwise s =>
    dsimp only [sizesOf] at hs
    split at hs
    · obtain ⟨width, hwidth, hs⟩ := List.mem_flatMap.1 hs
      obtain ⟨height, hheight, hs⟩ := List.mem_map.1 hs
      obtain ⟨rfl, rfl⟩ := Prod.mk.inj hs
      have hzero (first step : UInt32) : first.toNat = first.toNat + 0 * step.toNat := by simp
      exact ⟨.inr (.inr (mem_stepped 0 (hzero _ _) hwidth)),
        .inr (.inr (mem_stepped 0 (hzero _ _) hheight))⟩
    · obtain hs | hs := List.mem_cons.1 hs
      · obtain ⟨rfl, rfl⟩ := Prod.mk.inj hs
        exact ⟨.inl rfl, .inl rfl⟩
      · obtain ⟨rfl, rfl⟩ := Prod.mk.inj (List.mem_singleton.1 hs)
        exact ⟨.inr (.inl rfl), .inr (.inl rfl)⟩

theorem mem_candidateSizes {frameSizes : List FrameSize} {size : UInt32 × UInt32}
    (hs : size ∈ candidateSizes frameSizes) : ∃ entry ∈ frameSizes, size ∈ sizesOf entry := by
  have hfold (l sizes : List (UInt32 × UInt32)) (hs : size ∈ l.foldl pushSize sizes) :
      size ∈ sizes ∨ size ∈ l := by
    induction l generalizing sizes with
    | nil => exact .inl hs
    | cons first rest ih =>
      rcases ih _ hs with hs | hs
      · unfold pushSize at hs
        split at hs
        · exact .inl hs
        · obtain hs | hs := List.mem_append.1 hs
          · exact .inl hs
          · exact .inr (List.mem_cons.2 (.inl (List.mem_singleton.1 hs)))
      · exact .inr (List.mem_cons_of_mem _ hs)
  exact List.mem_flatMap.1 ((hfold _ _ hs).resolve_left nofun)

theorem mem_enumerated {c : Candidate} (hc : c ∈ enumerated rates device) :
    ∃ fourcc, c.1 = fourccToString fourcc ∧ Enumerated device fourcc c.2.1 c.2.2.1 := by
  unfold enumerated at hc
  split at hc
  · cases hc
  · rename_i formats hformats
    obtain ⟨fourcc, hfourcc, hc⟩ := List.mem_flatMap.1 hc
    split at hc
    · cases hc
    · rename_i frameSizes hsizes
      obtain ⟨⟨width, height⟩, hsize, hc⟩ := List.mem_flatMap.1 hc
      obtain ⟨fpsMilli, -, rfl⟩ := List.mem_map.1 hc
      obtain ⟨entry, hentry, hsize⟩ := mem_candidateSizes hsize
      exact ⟨fourcc, rfl, formats, frameSizes, hformats, hfourcc, hsizes, entry, hentry,
        has_of_mem hsize⟩

theorem mem_treeSet {β : Type} [DecidableEq β] {le : β → β → Bool} {elements : List β} {x : β} :
    x ∈ treeSet le elements ↔ x ∈ elements := by
  rw [treeSet, List.mem_insertionSort, List.mem_dedup]

theorem profile_of_response {withPath : String → Except String Device} {path : String}
    {response : DeviceQueryResponse} {profile : CameraChannelProfile}
    (hquery : queryDevice rates withPath path = .ok response)
    (hprofile : profile ∈ response.profiles) :
    ∃ device capability, withPath path = .ok device ∧ profile = advertised rates capability ∧
      (enumerated rates device ≠ [] → ∃ fourcc,
        capability.nativePixelFormat = fourccToString fourcc ∧
          Enumerated device fourcc capability.width capability.height) := by
  simp only [queryDevice, capabilitiesForDevice, openCaptureDevice, bind_eq_ok, check_eq_ok,
    pure_eq_ok] at hquery
  obtain ⟨output, ⟨⟨device, caps⟩, ⟨device', hpath, caps', -, -, -, heq⟩, profiles,
    hcandidates, rfl⟩, rfl⟩ := hquery
  obtain ⟨rfl, rfl⟩ := Prod.mk.inj heq
  simp only [DeviceQueryResponse.profiles, List.flatMap_singleton, List.mem_map,
    mem_treeSet] at hprofile
  obtain ⟨capability, ⟨⟨native, width, height, fpsMilli⟩, hc, rfl⟩, rfl⟩ := hprofile
  refine ⟨device', _, hpath, rfl, fun hne => ?_⟩
  rw [candidates, if_neg hne] at hcandidates
  cases hcandidates
  exact mem_enumerated hc

end Enumerated

end V4l2Query
