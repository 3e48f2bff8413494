import Rollio.V4l2Query

/-! The V4L2 driver's start on a configured channel, and which of the advertised profiles it can
run. -/
namespace V4l2Capture
open BusMessages DeviceConfigs Outcomes V4l2Query
open Text (trim blank)

structure RunConfig where
  busRoot : String
  channelType : String
  id : String
  width : UInt32
  height : UInt32
  fps : UInt32
  pixelFormat : PixelFormat
  nativePixelFormat : Option String

structure ConfiguredCapture (α : Type) where
  nativeFourcc : FourCC
  width : UInt32
  height : UInt32
  actualFps : Option α

def asRef : PixelFormat → String
  | .rgb24 => "rgb24"
  | .bgr24 => "bgr24"
  | .yuyv => "yuyv"
  | .mjpeg => "mjpeg"
  | .depth16 => "depth16"
  | .gray8 => "gray8"
  | .h264AnnexB => "h264-annex-b"
  | .nv12 => "nv12"

def RunConfig.tryFrom {β : Type} (device : BinaryDeviceConfig β) : Except String RunConfig :=
  if device.driver ≠ "v4l2" then .error "v4l2 driver requires driver = \"v4l2\""
  else match device.channels.filter fun channel => channel.enabled with
  | [channel] =>
    if channel.kind ≠ .camera then .error "v4l2 driver requires a camera channel"
    else if channel.channelType ≠ "color" then
      .error "v4l2 driver supports only channel_type=\"color\""
    else match channel.profile with
    | none => .error "v4l2 driver requires a camera profile"
    | some profile =>
      if profile.pixelFormat ∈ [PixelFormat.rgb24, .bgr24, .yuyv, .mjpeg] then
        .ok {
          busRoot := device.busRoot
          channelType := channel.channelType
          id := device.id
          width := profile.width
          height := profile.height
          fps := profile.fps
          pixelFormat := profile.pixelFormat
          nativePixelFormat := profile.nativePixelFormat }
      else
        .error ("v4l2 driver requires pixel_format to be one of rgb24, bgr24, yuyv, mjpeg; got " ++
          asRef profile.pixelFormat)
  | _ => .error "v4l2 driver requires exactly one enabled channel"

section Formats

def fourccToBusFormat (fourcc : FourCC) : Option PixelFormat :=
  if fourcc = rgb3 then some .rgb24
  else if fourcc = bgr3 then some .bgr24
  else if fourcc = yuyv ∨ fourcc = yuy2 then some .yuyv
  else if fourcc = mjpg ∨ fourcc = jpeg then some .mjpeg
  else none

/-- Whether frames of a native format can be published in a bus format, as they are or after one of
the cheap conversions. -/
def canPublishNativeAs (nativeFourcc : FourCC) (busFormat : PixelFormat) : Bool :=
  fourccToBusFormat nativeFourcc = some busFormat ||
    [(rgb3, PixelFormat.bgr24), (bgr3, .rgb24), (grey, .rgb24), (grey, .bgr24)].contains
      (nativeFourcc, busFormat)

def cheapNativeFormatsFor : PixelFormat → List FourCC
  | .rgb24 => [rgb3, bgr3, grey]
  | .bgr24 => [bgr3, rgb3, grey]
  | .yuyv => [yuyv, yuy2]
  | .mjpeg => [mjpg, jpeg]
  | _ => []

def preferredNativeFormats (outputPixelFormat : PixelFormat) : List FourCC :=
  cheapNativeFormatsFor outputPixelFormat

def nativeFourccFromName (name : String) : Option FourCC :=
  [("RGB3", rgb3), ("BGR3", bgr3), ("YUYV", yuyv), ("YUY2", yuy2), ("MJPG", mjpg),
    ("JPEG", jpeg), ("GREY", grey)].lookup ((trim name).map Char.toUpper)

def isSupportedNativeFormat (fourcc : FourCC) : Bool :=
  [rgb3, bgr3, yuyv, yuy2, mjpg, jpeg, grey].contains fourcc

def preferredNativeFormatsForConfig (config : RunConfig) : List FourCC :=
  match config.nativePixelFormat.bind nativeFourccFromName with
  | some fourcc =>
    fourcc :: (preferredNativeFormats config.pixelFormat).filter fun candidate => candidate ≠ fourcc
  | none => preferredNativeFormats config.pixelFormat

end Formats

section Configure
variable {α : Type} (rates : Rates α)

def sizeText (width height : UInt32) : String := toString width ++ "x" ++ toString height

def withFps (fps : UInt32) : Fraction := ⟨1, fps⟩

def tryCandidates (device : Device) (config : RunConfig) (supportedFormats : List FourCC) :
    List FourCC → Option String → Except String (ConfiguredCapture α)
  | [], lastMismatch =>
    .error (lastMismatch.getD
      ("device does not advertise a supported native V4L2 capture format for RGB conversion; " ++
        "available formats: " ++ ", ".intercalate (supportedFormats.map fourccToString)))
  | candidate :: rest, lastMismatch =>
    if candidate ∉ supportedFormats then
      tryCandidates device config supportedFormats rest lastMismatch
    else match device.setFormat ⟨config.width, config.height, candidate⟩ with
    | .error e => .error e
    | .ok active =>
      if active.width ≠ config.width ∨ active.height ≠ config.height then
        tryCandidates device config supportedFormats rest
          (some ("device negotiated " ++ sizeText active.width active.height ++
            " for native format " ++ fourccToString active.fourcc ++ " instead of requested " ++
            sizeText config.width config.height))
      else if isSupportedNativeFormat active.fourcc = false then
        tryCandidates device config supportedFormats rest
          (some ("device negotiated unsupported native format " ++ fourccToString active.fourcc))
      else if canPublishNativeAs active.fourcc config.pixelFormat = false then
        tryCandidates device config supportedFormats rest
          (some ("device negotiated native format " ++ fourccToString active.fourcc ++
            " which cannot be published as bus pixel_format = \"" ++ asRef config.pixelFormat ++
            "\". The camera-side converter only handles RGB<->BGR and GREY->RGB. " ++
            "Either set pixel_format to \"yuyv\" / \"mjpeg\" (matching the V4L2 native), " ++
            "or pin native_pixel_format to one of " ++ ", ".intercalate
              ((cheapNativeFormatsFor config.pixelFormat).map fourccToString) ++ "."))
      else
        let actualParams := match device.setParams (withFps config.fps) with
          | .ok interval => some interval
          | .error _ => device.params.toOption
        .ok {
          nativeFourcc := active.fourcc
          width := active.width
          height := active.height
          actualFps := actualParams.bind (fractionToF64 rates) }

def configureCapture (device : Device) (config : RunConfig) :
    Except String (ConfiguredCapture α) := do
  let supportedFormats ← device.enumFormats
  tryCandidates rates device config supportedFormats (preferredNativeFormatsForConfig config) none

end Configure

section Names
variable {f g : FourCC}

theorem supported_cases (hf : isSupportedNativeFormat f = true) :
    f = rgb3 ∨ f = bgr3 ∨ f = yuyv ∨ f = yuy2 ∨ f = mjpg ∨ f = jpeg ∨ f = grey := by
  simpa [isSupportedNativeFormat] using hf

theorem supported_of_canPublish {busFormat : PixelFormat}
    (h : canPublishNativeAs f busFormat = true) : isSupportedNativeFormat f = true := by
  rw [canPublishNativeAs, Bool.or_eq_true] at h
  rcases h with h | h
  · have hmap := of_decide_eq_true h
    unfold fourccToBusFormat at hmap
    grind [isSupportedNativeFormat]
  · simp at h
    grind [isSupportedNativeFormat]

theorem toString_of_utf8 {name : String} (h : fourccToString f = name)
    (hname : name.toList.head? ≠ some '[') : f.repr = name.toByteArray.data.toList := by
  unfold fourccToString at h
  cases hutf8 : String.fromUTF8? ⟨f.repr.toArray⟩ with
  | none =>
    rw [hutf8, Option.getD_none] at h
    subst h
    exact absurd (by simp [FourCC.debug]) hname
  | some s =>
    rw [hutf8, Option.getD_some] at h
    subst h
    unfold String.fromUTF8? at hutf8
    split at hutf8
    · cases hutf8
      rfl
    · cases hutf8

theorem eq_of_name (hg : isSupportedNativeFormat g = true)
    (h : fourccToString f = fourccToString g) : f = g := by
  have hbytes : (fourccToString g).toList.head? ≠ some '[' ∧
      (fourccToString g).toByteArray.data.toList = g.repr := by
    obtain rfl | rfl | rfl | rfl | rfl | rfl | rfl := supported_cases hg <;> decide
  have hrepr : f.repr = g.repr := (toString_of_utf8 h hbytes.1).trans hbytes.2
  obtain ⟨f₀, f₁, f₂, f₃⟩ := f
  obtain ⟨g₀, g₁, g₂, g₃⟩ := g
  simpa [FourCC.repr] using hrepr

theorem fourccFromName_name (hf : isSupportedNativeFormat f = true) :
    nativeFourccFromName (fourccToString f) = some f := by
  obtain rfl | rfl | rfl | rfl | rfl | rfl | rfl := supported_cases hf <;> decide +kernel

/-- The bus format that is advertised for a supported format can be published. -/
theorem canPublish_advertised (hf : isSupportedNativeFormat f = true) :
    busPixelFormatForNative (fourccToString f) ∈ [PixelFormat.rgb24, .bgr24, .yuyv, .mjpeg] ∧
      canPublishNativeAs f (busPixelFormatForNative (fourccToString f)) = true := by
  obtain rfl | rfl | rfl | rfl | rfl | rfl | rfl := supported_cases hf <;> decide

theorem name_not_blank (hf : isSupportedNativeFormat f = true) :
    blank (fourccToString f) = false := by
  obtain rfl | rfl | rfl | rfl | rfl | rfl | rfl := supported_cases hf <;> decide

end Names

section Running
variable {α β : Type} {rates : Rates α} {device : Device} {config : BinaryDeviceConfig β}
  {channel : DeviceChannelConfigV2 β} {profile : CameraChannelProfile}

structure Configured (config : BinaryDeviceConfig β) (channel : DeviceChannelConfigV2 β)
    (profile : CameraChannelProfile) : Prop where
  driver : config.driver = "v4l2"
  enabled : (config.channels.filter fun channel => channel.enabled) = [channel]
  kind : channel.kind = .camera
  channelType : channel.channelType = "color"
  profile : channel.profile = some profile

/-- A configured profile passes its checks, and the capture starts with its native format. -/
structure Runs (rates : Rates α) (device : Device) (config : BinaryDeviceConfig β)
    (channel : DeviceChannelConfigV2 β) (profile : CameraChannelProfile) : Prop where
  valid : profile.validate config.name channel.channelType = .ok ()
  starts : ∃ run capture, RunConfig.tryFrom config = .ok run ∧
    configureCapture rates device run = .ok capture ∧
    profile.nativePixelFormat = some (fourccToString capture.nativeFourcc) ∧
    canPublishNativeAs capture.nativeFourcc profile.pixelFormat = true

structure Runnable (profile : CameraChannelProfile) : Prop where
  width : profile.width ≠ 0
  height : profile.height ≠ 0
  fps : 1 ≤ profile.fps.toNat ∧ profile.fps.toNat ≤ 1000
  native : ∃ fourcc, isSupportedNativeFormat fourcc = true ∧
    profile.nativePixelFormat = some (fourccToString fourcc)

theorem validate_iff (name channelType : String) :
    profile.validate name channelType = .ok () ↔
      profile.width ≠ 0 ∧ profile.height ≠ 0 ∧
      (1 ≤ profile.fps.toNat ∧ profile.fps.toNat ≤ 1000) ∧
      ∀ native, profile.nativePixelFormat = some native → blank native = false := by
  have hfps : ¬(profile.fps = 0 ∨ profile.fps > 1000) ↔
      1 ≤ profile.fps.toNat ∧ profile.fps.toNat ≤ 1000 := by
    rw [gt_iff_lt, UInt32.lt_iff_toNat_lt, ← UInt32.toNat_inj]
    have hbound : (1000 : UInt32).toNat = 1000 := rfl
    have hzero : (0 : UInt32).toNat = 0 := rfl
    omega
  simp only [CameraChannelProfile.validate, check_eq_ok, last_check_eq_ok, hfps, not_or,
    and_assoc, Option.any_eq_true, not_exists, not_and, Bool.not_eq_true, ne_eq]

theorem tryFrom_configured (h : Configured config channel profile)
    (hformat : profile.pixelFormat ∈ [PixelFormat.rgb24, .bgr24, .yuyv, .mjpeg]) :
    ∃ run, RunConfig.tryFrom config = .ok run ∧ run.width = profile.width ∧
      run.height = profile.height ∧ run.pixelFormat = profile.pixelFormat ∧
      run.nativePixelFormat = profile.nativePixelFormat := by
  refine ⟨{
    busRoot := config.busRoot, channelType := channel.channelType, id := config.id
    width := profile.width, height := profile.height, fps := profile.fps
    pixelFormat := profile.pixelFormat
    nativePixelFormat := profile.nativePixelFormat }, ?_, rfl, rfl, rfl, rfl⟩
  rw [RunConfig.tryFrom, if_neg (not_not_intro h.driver), h.enabled]
  dsimp only
  rw [if_neg (not_not_intro h.kind), if_neg (not_not_intro h.channelType), h.profile]
  exact if_pos hformat

/-- The native format that a configuration names is tried first. -/
theorem configureCapture_named {run : RunConfig} {f : FourCC} {formats : List FourCC}
    (hf : isSupportedNativeFormat f = true)
    (hname : run.nativePixelFormat = some (fourccToString f))
    (hformats : device.enumFormats = .ok formats) (hmem : f ∈ formats)
    (hset : device.setFormat ⟨run.width, run.height, f⟩ = .ok ⟨run.width, run.height, f⟩)
    (hpublish : canPublishNativeAs f run.pixelFormat = true) :
    ∃ capture, configureCapture rates device run = .ok capture ∧ capture.nativeFourcc = f := by
  rw [configureCapture, hformats, preferredNativeFormatsForConfig, hname, Option.bind_some,
    fourccFromName_name hf]
  change ∃ capture, tryCandidates rates device run formats (f :: _) none = _ ∧ _
  rw [tryCandidates, if_neg (not_not_intro hmem), hset]
  dsimp only
  rw [if_neg (by simp), if_neg (by simp [hf]), if_neg (by simp [hpublish])]
  exact ⟨_, rfl, rfl⟩

/-- Of a device that negotiates what it has enumerated, an advertised profile runs if and only if
it passes the check of its size and rate and its native format is one of the driver's; a profile
of the current format must be enumerated besides. -/
theorem advertised_runs_iff {withPath : String → Except String Device} {path : String}
    {response : DeviceQueryResponse} (hquery : queryDevice rates withPath path = .ok response)
    (hprofile : profile ∈ response.profiles) (hpath : withPath path = .ok device)
    (hnegotiates : ∀ fourcc w h, Enumerated device fourcc w h →
      device.setFormat ⟨w, h, fourcc⟩ = .ok ⟨w, h, fourcc⟩)
    (hcurrent : enumerated rates device = [] → ∃ fourcc,
      profile.nativePixelFormat = some (fourccToString fourcc) ∧
        Enumerated device fourcc profile.width profile.height)
    (hconfigured : Configured config channel profile) :
    Runs rates device config channel profile ↔ Runnable profile := by
  obtain ⟨device', capability, hpath', rfl, hlisted⟩ := profile_of_response hquery hprofile
  cases hpath.symm.trans hpath'
  constructor
  · rintro ⟨hvalid, run, capture, -, -, hnative, hpublish⟩
    obtain ⟨hwidth, hheight, hfps, -⟩ := (validate_iff _ _).1 hvalid
    exact ⟨hwidth, hheight, hfps, capture.nativeFourcc, supported_of_canPublish hpublish, hnative⟩
  · rintro ⟨hwidth, hheight, hfps, f, hf, hnative⟩
    have hname : capability.nativePixelFormat = fourccToString f := Option.some.inj hnative
    have henumerated : Enumerated device f capability.width capability.height := by
      by_cases hnone : enumerated rates device = []
      · obtain ⟨g, hg, hlist⟩ := hcurrent hnone
        obtain rfl : g = f := eq_of_name hf ((Option.some.inj hg).symm.trans hname)
        exact hlist
      · obtain ⟨g, hg, hlist⟩ := hlisted hnone
        obtain rfl : g = f := eq_of_name hf (hg.symm.trans hname)
        exact hlist
    obtain ⟨hformat, hpublish⟩ := canPublish_advertised hf
    rw [← hname] at hformat hpublish
    obtain ⟨run, hrun, hw, hh, hbus, hrunNative⟩ := tryFrom_configured hconfigured hformat
    obtain ⟨formats, -, hformats, hmem, -⟩ := id henumerated
    have hset : device.setFormat ⟨run.width, run.height, f⟩ =
        .ok ⟨run.width, run.height, f⟩ := by
      rw [hw, hh]
      exact hnegotiates _ _ _ henumerated
    obtain ⟨capture, hcapture, hfourcc⟩ : ∃ capture,
        configureCapture rates device run = .ok capture ∧ capture.nativeFourcc = f :=
      configureCapture_named hf (hrunNative.trans hnative) hformats hmem hset (hbus ▸ hpublish)
    refine ⟨(validate_iff _ _).2 ⟨hwidth, hheight, hfps, fun native h => ?_⟩,
      run, capture, hrun, hcapture, ?_, ?_⟩
    · rw [← Option.some.inj (hnative.symm.trans h)]
      exact name_not_blank hf
    · rw [hfourcc]
      exact hnative
    · rw [hfourcc]
      exact hpublish

end Running

def exactRates : Rates ℚ where
  perSecond f := (f.denominator.toNat : ℚ) / (f.numerator.toNat : ℚ)
  toMilli fps := UInt32.ofNat (min 4294967295 (fps * 1000 + 1 / 2).floor.toNat)
  ofMilli fpsMilli := (fpsMilli.toNat : ℚ) / 1000
  round fps := UInt32.ofNat (min 4294967295 (fps + 1 / 2).floor.toNat)

def webcam (fourcc : FourCC) : Device where
  queryCaps := .ok { driver := "uvcvideo", card := "Camera", bus := "usb-1", videoCapture := true }
  enumFormats := .ok [fourcc]
  enumFramesizes f := if f = fourcc then .ok [.discrete 640 480] else .error "Invalid argument"
  enumFrameintervals f w h :=
    if f = fourcc ∧ w = 640 ∧ h = 480 then .ok [.discrete ⟨1, 30⟩] else .error "Invalid argument"
  format := .ok ⟨640, 480, fourcc⟩
  params := .ok ⟨1, 30⟩
  setFormat _ := .ok ⟨640, 480, fourcc⟩
  setParams interval := .ok interval

def webcamProfile (native : String) (busFormat : PixelFormat) : CameraChannelProfile where
  width := 640
  height := 480
  fps := 30
  pixelFormat := busFormat
  nativePixelFormat := some native

def webcamChannel (profile : CameraChannelProfile) : DeviceChannelConfigV2 ℚ where
  channelType := "color"
  kind := .camera
  profile := some profile

def webcamDevice (profile : CameraChannelProfile) : BinaryDeviceConfig ℚ where
  name := "camera"
  driver := "v4l2"
  id := "/dev/video0"
  busRoot := "camera"
  channels := [webcamChannel profile]

theorem webcam_configured (profile : CameraChannelProfile) :
    Configured (webcamDevice profile) (webcamChannel profile) profile :=
  ⟨rfl, rfl, rfl, rfl, rfl⟩

theorem webcam_negotiates {fourcc f : FourCC} {w h : UInt32}
    (henumerated : Enumerated (webcam fourcc) f w h) :
    (webcam fourcc).setFormat ⟨w, h, f⟩ = .ok ⟨w, h, f⟩ := by
  obtain ⟨formats, frameSizes, hformats, hf, hsizes, size, hsize, hhas⟩ := henumerated
  cases hformats
  obtain rfl := List.mem_singleton.1 hf
  have hlist : (webcam f).enumFramesizes f = .ok [.discrete 640 480] := if_pos rfl
  cases hlist.symm.trans hsizes
  obtain rfl := List.mem_singleton.1 hsize
  obtain ⟨rfl, rfl⟩ := hhas
  rfl

theorem yuyv_webcam_runs :
    Runs exactRates (webcam yuyv) (webcamDevice (webcamProfile "YUYV" .yuyv))
      (webcamChannel (webcamProfile "YUYV" .yuyv)) (webcamProfile "YUYV" .yuyv) := by
  have hprofiles : (queryDevice exactRates (fun _ => .ok (webcam yuyv)) "/dev/video0").toOption.map
      (fun response => response.profiles) = some [webcamProfile "YUYV" .yuyv] := by
    decide +kernel
  cases hquery : queryDevice exactRates (fun _ => .ok (webcam yuyv)) "/dev/video0" with
  | error e =>
    rw [hquery] at hprofiles
    cases hprofiles
  | ok response =>
    rw [hquery] at hprofiles
    have hlist : response.profiles = [webcamProfile "YUYV" .yuyv] := Option.some.inj hprofiles
    have hmem : webcamProfile "YUYV" .yuyv ∈ response.profiles := by
      rw [hlist]
      exact List.mem_singleton_self _
    have henumerated : enumerated exactRates (webcam yuyv) ≠ [] := by decide +kernel
    refine (advertised_runs_iff hquery hmem rfl (fun _ _ _ => webcam_negotiates)
      (fun hnone => absurd hnone henumerated) (webcam_configured _)).2 ?_
    exact ⟨by decide, by decide, by decide, yuyv, by decide, by decide +kernel⟩

/-- A camera with the native format NV12 is offered with `rgb24`, which it cannot start with. -/
theorem nv12_webcam_stops :
    let nv12 : FourCC := ⟨78, 86, 49, 50⟩
    let profile := webcamProfile "NV12" .rgb24
    (queryDevice exactRates (fun _ => .ok (webcam nv12)) "/dev/video0").toOption.map
      (fun response => response.profiles) = some [profile] ∧
    (∀ f w h, Enumerated (webcam nv12) f w h →
      (webcam nv12).setFormat ⟨w, h, f⟩ = .ok ⟨w, h, f⟩) ∧
    Configured (webcamDevice profile) (webcamChannel profile) profile ∧
    ¬Runs exactRates (webcam nv12) (webcamDevice profile) (webcamChannel profile) profile := by
  intro nv12 profile
  refine ⟨by decide +kernel, fun _ _ _ => webcam_negotiates, webcam_configured _, ?_⟩
  rintro ⟨-, run, capture, hrun, hcapture, -, -⟩
  have hstop : ((RunConfig.tryFrom (webcamDevice profile)).toOption.bind fun run =>
      (configureCapture exactRates (webcam nv12) run).toOption).isNone := by decide +kernel
  rw [hrun] at hstop
  have hnone : (configureCapture exactRates (webcam nv12) run).toOption.isNone := hstop
  rw [hcapture] at hnone
  cases hnone

end V4l2Capture
