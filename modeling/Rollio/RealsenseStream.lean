import Mathlib.Algebra.Group.Int.Defs
import Mathlib.Algebra.Group.Nat.Defs
import Mathlib.Data.List.Basic
import Mathlib.Data.List.Chain
import Rollio.BusMessages

/-! The frame sink of a RealSense channel: which of the delivered frames it publishes, and when
it stamps them. -/
namespace RealsenseStream
open BusMessages

/-- A clock reading in microseconds; hardware counters and the host's clock are past zero. -/
structure Reading where
  us : Int64
  positive : 0 < us
  deriving DecidableEq

structure HardwareClockOffset where
  refreshPeriodUs : Int64
  initialized : Bool := false
  offsetUs : Int64 := 0
  lastRefreshDeviceUs : Int64 := 0
  deriving DecidableEq

def HardwareClockOffset.toUnixUs (c : HardwareClockOffset) (hostUnixUsNow deviceUs : Int64) :
    HardwareClockOffset × Int64 :=
  let refreshed :=
    if !c.initialized ∨ c.refreshPeriodUs ≤ deviceUs - c.lastRefreshDeviceUs then
      { c with
        initialized := true
        offsetUs := hostUnixUsNow - deviceUs
        lastRefreshDeviceUs := deviceUs }
    else c
  (refreshed, deviceUs + refreshed.offsetUs)

/-- What the sink asks of a frame; `frameTimestamp` is its metadata, where the firmware gives it,
`timestamp` the fallback in whole microseconds. -/
structure VideoFrame where
  data : List UInt8
  width : UInt32
  height : UInt32
  frameTimestamp : Option Reading
  timestamp : Reading
  deriving DecidableEq

structure RealsenseFrameSink where
  pixelFormat : PixelFormat
  localFrameIndex : UInt64 := 0
  frameTimestampMetadataChecked : Bool := false
  frameTimestampMetadataSupported : Bool := false
  lastDeviceUs : Int64 := 0
  lastPublishedUs : UInt64 := 0
  deriving DecidableEq

/-- The metadata is looked for on the first frame only. -/
def RealsenseFrameSink.checkMetadata (s : RealsenseFrameSink) (frame : VideoFrame) :
    RealsenseFrameSink :=
  if s.frameTimestampMetadataChecked then s
  else
    { s with
      frameTimestampMetadataChecked := true
      frameTimestampMetadataSupported := frame.frameTimestamp.isSome }

/-- `get_frame_metadata` throws where a later frame has none. -/
def RealsenseFrameSink.deviceUs (s : RealsenseFrameSink) (frame : VideoFrame) : Option Reading :=
  if s.frameTimestampMetadataSupported then frame.frameTimestamp else some frame.timestamp

/-- The stamp of a frame, pushed past the last one where it would not be above it. -/
def stamp (lastPublishedUs : UInt64) (unixUs : Int64) : UInt64 :=
  if lastPublishedUs ≠ 0 ∧ unixUs ≤ lastPublishedUs.toInt64 then lastPublishedUs + 1
  else if 0 ≤ unixUs then unixUs.toUInt64 else 0

structure Sample where
  header : CameraFrameHeader
  payload : List UInt8
  deriving DecidableEq

def RealsenseFrameSink.sample (s : RealsenseFrameSink) (frame : VideoFrame)
    (timestampUs : UInt64) : Sample :=
  { header :=
      { timestampUs
        width := frame.width
        height := frame.height
        pixelFormat := s.pixelFormat
        frameIndex := s.localFrameIndex }
    payload := frame.data }

structure Delivery where
  deviceUs : Int64
  published : Option Sample
  deriving DecidableEq

structure Channel where
  clock : HardwareClockOffset
  sink : RealsenseFrameSink
  deliveries : List Delivery := []
  deriving DecidableEq

def Channel.publish (c : Channel) (frame : VideoFrame) (deviceUs hostUnixUsNow : Int64) :
    Channel :=
  if c.sink.lastDeviceUs ≠ 0 ∧ deviceUs ≤ c.sink.lastDeviceUs then
    { c with deliveries := c.deliveries ++ [{ deviceUs, published := none }] }
  else
    let (clock, unixUs) := c.clock.toUnixUs hostUnixUsNow deviceUs
    let timestampUs := stamp c.sink.lastPublishedUs unixUs
    { clock
      sink := { c.sink with
        lastDeviceUs := deviceUs
        lastPublishedUs := timestampUs
        localFrameIndex := c.sink.localFrameIndex + 1 }
      deliveries := c.deliveries ++
        [{ deviceUs, published := some (c.sink.sample frame timestampUs) }] }

/-- `none` is an exception, which leaves the loop over the sinks. -/
def Channel.tryPublish (c : Channel) (frame : Option VideoFrame) (hostUnixUsNow : Int64) :
    Option Channel :=
  match frame with
  | none => some c
  | some frame =>
    let checked := { c with sink := c.sink.checkMetadata frame }
    (checked.sink.deviceUs frame).map fun reading =>
      checked.publish frame reading.us hostUnixUsNow

inductive Event where
  /-- A frameset reaches the sink, perhaps without a frame of its channel. -/
  | frames (frame : Option VideoFrame) (hostUnixUsNow : Reading)
  /-- Another channel of the device translates a time. -/
  | otherChannel (deviceUs hostUnixUsNow : Reading)
  deriving DecidableEq

def Channel.handle (c : Channel) : Event → Option Channel
  | .frames frame host => c.tryPublish frame host.us
  | .otherChannel device host => some { c with clock := (c.clock.toUnixUs host.us device.us).1 }

/-- The channel after the events, up to the first that throws. -/
def Channel.run (c : Channel) : List Event → Channel
  | [] => c
  | e :: events =>
    match c.handle e with
    | none => c
    | some next => next.run events

def opened (refreshPeriodUs : Int64) (pixelFormat : PixelFormat) : Channel :=
  { clock := { refreshPeriodUs }, sink := { pixelFormat } }

section Law

def publishedOf (deliveries : List Delivery) : List Sample := deliveries.filterMap (·.published)

/-- What the stream of a channel promises of everything delivered to it. -/
structure StreamLaw (deliveries : List Delivery) : Prop where
  /-- The stamps are strictly increasing. -/
  increasing : (publishedOf deliveries).Pairwise fun a b =>
    a.header.timestampUs < b.header.timestampUs
  /-- The frame indices count from zero. -/
  counted : (publishedOf deliveries).map (·.header.frameIndex.toNat) =
    List.range (publishedOf deliveries).length
  /-- What is left out repeats the timestamp of the frame delivered just before it. -/
  duplicates : deliveries.IsChain fun before d => d.published = none → before.deviceUs = d.deviceUs
  /-- The first frame is published. -/
  first : ∀ d ∈ deliveries.head?, d.published ≠ none

/-- No frame comes with a timestamp below that of the frame delivered before it. -/
def KeepsOrder (c : Channel) (deviceUs : Int64) : Prop :=
  ∀ p ∈ c.deliveries.getLast?, p.deviceUs ≤ deviceUs

/-- The last stamp is told apart from no stamp and is a time that the signed clock can have. -/
def Comparable (lastPublishedUs : UInt64) (unixUs : Int64) : Prop :=
  (lastPublishedUs = 0 → 0 < unixUs) ∧
    (lastPublishedUs.toInt64 < 0 → unixUs ≤ lastPublishedUs.toInt64 ∧ lastPublishedUs + 1 ≠ 0)

/-- A frame can be handled as the law says: it keeps the order and, unless it is a duplicate or
the first one, its time is comparable with the last stamp. -/
def FrameOk (c : Channel) (deviceUs hostUnixUsNow : Int64) : Prop :=
  KeepsOrder c deviceUs ∧
    ∀ p ∈ c.deliveries.getLast?, p.deviceUs ≠ deviceUs →
      Comparable c.sink.lastPublishedUs (c.clock.toUnixUs hostUnixUsNow deviceUs).2

def EventOk (c : Channel) : Event → Prop
  | .frames none _ | .otherChannel _ _ => True
  | .frames (some frame) host =>
    ∀ reading ∈ (c.sink.checkMetadata frame).deviceUs frame, FrameOk c reading.us host.us

/-- Every event of a run is handled in a state where it meets the condition. -/
def AllOk (c : Channel) : List Event → Prop
  | [] => True
  | e :: events =>
    EventOk c e ∧
      match c.handle e with
      | none => True
      | some next => AllOk next events

end Law

section Stamps
variable {last : UInt64} {unixUs : Int64}

theorem toInt_signed (x : UInt64) :
    x.toInt64.toInt = if x.toNat < 2 ^ 63 then (x.toNat : ℤ) else x.toNat - 2 ^ 64 := by
  have hbound := x.toNat_lt
  rw [← Int64.toInt_toBitVec, UInt64.toBitVec_toInt64, BitVec.toInt_eq_toNat_cond,
    UInt64.toNat_toBitVec]
  split_ifs <;> omega

theorem toNat_unsigned {x : Int64} (h : 0 ≤ x) : (x.toUInt64.toNat : ℤ) = x.toInt := by
  rw [Int64.toNat_toUInt64_of_le h]
  exact Int64.cast_toNatClampNeg x h

theorem toNat_succ (x : UInt64) :
    (x + 1).toNat = if x.toNat + 1 < 2 ^ 64 then x.toNat + 1 else 0 := by
  have hbound := x.toNat_lt
  rw [UInt64.toNat_add, show (1 : UInt64).toNat = 1 from rfl]
  split_ifs <;> omega

theorem lt_stamp_iff : last < stamp last unixUs ↔ Comparable last unixUs := by
  have hlast := last.toNat_lt
  have hsigned := toInt_signed last
  have hsucc := toNat_succ last
  have hzero : (0 : Int64).toInt = 0 := rfl
  simp only [stamp, Comparable, UInt64.lt_iff_toNat_lt, Int64.le_iff_toInt_le,
    Int64.lt_iff_toInt_lt, ← UInt64.toNat_inj, ne_eq, hzero]
  have hnat : (0 : UInt64).toNat = 0 := rfl
  rw [hnat]
  by_cases hnonneg : 0 ≤ unixUs.toInt
  · have hunsigned := toNat_unsigned (Int64.le_iff_toInt_le.mpr hnonneg)
    have hbound := unixUs.toInt_lt
    split_ifs <;> split_ifs at hsigned hsucc <;> omega
  · split_ifs <;> split_ifs at hsigned hsucc <;> omega

end Stamps

section Runs
variable {c : Channel} {deliveries : List Delivery} {frame : VideoFrame}

theorem publishedOf_append (l₁ l₂ : List Delivery) :
    publishedOf (l₁ ++ l₂) = publishedOf l₁ ++ publishedOf l₂ := List.filterMap_append

theorem StreamLaw.of_extends {l : List Delivery} (h : StreamLaw l) (hp : deliveries <+: l) :
    StreamLaw deliveries := by
  obtain ⟨rest, rfl⟩ := hp
  have hincreasing := h.increasing
  have hcounted := congrArg (List.take (publishedOf deliveries).length) h.counted
  rw [publishedOf_append] at hincreasing hcounted
  constructor
  · exact (List.pairwise_append.mp hincreasing).1
  · rw [List.map_append, List.take_left' (List.length_map _), List.length_append,
      List.take_range, Nat.min_eq_left (Nat.le_add_right _ _)] at hcounted
    exact hcounted
  · exact h.duplicates.left_of_append
  · intro d hd
    cases deliveries with
    | nil => cases hd
    | cons e deliveries => exact h.first d hd

structure Tracked (c : Channel) : Prop where
  law : StreamLaw c.deliveries
  positive : ∀ d ∈ c.deliveries, 0 < d.deviceUs
  device : c.sink.lastDeviceUs = (c.deliveries.getLast?.map (·.deviceUs)).getD 0
  newest : ∀ p ∈ publishedOf c.deliveries, p.header.timestampUs ≤ c.sink.lastPublishedUs
  attained : c.deliveries ≠ [] →
    ∃ p ∈ publishedOf c.deliveries, p.header.timestampUs = c.sink.lastPublishedUs
  index : c.sink.localFrameIndex = UInt64.ofNat (publishedOf c.deliveries).length
  counted : (publishedOf c.deliveries).length ≤ c.sink.lastPublishedUs.toNat + 1

theorem tracked_opened (refreshPeriodUs : Int64) (pixelFormat : PixelFormat) :
    Tracked (opened refreshPeriodUs pixelFormat) where
  law :=
    { increasing := List.Pairwise.nil
      counted := rfl
      duplicates := List.IsChain.nil
      first := by rintro _ ⟨⟩ }
  positive := by rintro _ ⟨⟩
  device := rfl
  newest := by rintro _ ⟨⟩
  attained := fun h => absurd rfl h
  index := rfl
  counted := Nat.zero_le _

theorem Tracked.checked (h : Tracked c) (frame : VideoFrame) :
    Tracked { c with sink := c.sink.checkMetadata frame } := by
  cases hs : c.sink.frameTimestampMetadataChecked with
  | false =>
    simp only [RealsenseFrameSink.checkMetadata, hs, Bool.false_eq_true, if_false]
    exact ⟨h.law, h.positive, h.device, h.newest, h.attained, h.index, h.counted⟩
  | true =>
    simp only [RealsenseFrameSink.checkMetadata, hs, if_true]
    exact h

theorem checkMetadata_last (s : RealsenseFrameSink) (frame : VideoFrame) :
    (s.checkMetadata frame).lastPublishedUs = s.lastPublishedUs := by
  simp only [RealsenseFrameSink.checkMetadata]
  split <;> rfl

/-- The frames after which nothing was delivered are those of a sink that has published none. -/
theorem Tracked.duplicate_iff (h : Tracked c) {deviceUs : Int64} :
    (c.sink.lastDeviceUs ≠ 0 ∧ deviceUs ≤ c.sink.lastDeviceUs) ↔
      ∃ p ∈ c.deliveries.getLast?, deviceUs ≤ p.deviceUs := by
  rw [h.device]
  cases hl : c.deliveries.getLast? with
  | none => simp
  | some p =>
    have hpos := h.positive p (List.mem_of_getLast? hl)
    simp only [Option.map_some, Option.getD_some, Option.mem_def, Option.some.injEq,
      exists_eq_left']
    constructor
    · intro hd
      exact hd.2
    · intro hd
      exact ⟨(Int64.ne_of_lt hpos).symm, hd⟩

theorem StreamLaw.skip (h : StreamLaw deliveries) {p : Delivery}
    (hp : p ∈ deliveries.getLast?) :
    StreamLaw (deliveries ++ [{ deviceUs := p.deviceUs, published := none }]) := by
  have hsame : publishedOf (deliveries ++ [{ deviceUs := p.deviceUs, published := none }]) =
      publishedOf deliveries := by rw [publishedOf_append]; exact List.append_nil _
  constructor
  · rw [hsame]
    exact h.increasing
  · rw [hsame]
    exact h.counted
  · refine h.duplicates.append (List.IsChain.singleton _) ?_
    intro a ha b hb _
    cases Option.mem_unique ha hp
    cases hb
    rfl
  · intro d hd
    rw [List.head?_append_of_ne_nil _ (List.ne_nil_of_mem (List.mem_of_getLast? hp))] at hd
    exact h.first d hd

theorem StreamLaw.emit (h : StreamLaw deliveries) {sample : Sample} (deviceUs : Int64)
    (hnew : ∀ p ∈ publishedOf deliveries, p.header.timestampUs < sample.header.timestampUs)
    (hindex : sample.header.frameIndex.toNat = (publishedOf deliveries).length) :
    StreamLaw (deliveries ++ [{ deviceUs, published := some sample }]) := by
  have hone : publishedOf (deliveries ++ [{ deviceUs, published := some sample }]) =
      publishedOf deliveries ++ [sample] := publishedOf_append _ _
  constructor
  · rw [hone]
    refine List.pairwise_append.mpr ⟨h.increasing, List.pairwise_singleton _ _, ?_⟩
    intro a ha b hb
    cases List.mem_singleton.mp hb
    exact hnew a ha
  · rw [hone, List.map_append, h.counted, List.length_append, List.length_singleton,
      List.range_succ, List.map_singleton, hindex]
  · refine h.duplicates.append (List.IsChain.singleton _) ?_
    intro a _ b hb hnone
    cases hb
    cases hnone
  · intro d hd
    cases deliveries with
    | nil =>
      cases hd
      simp
    | cons e deliveries => exact h.first d hd

/-- The next frame index has not wrapped: there are no more stamps than values below the next. -/
theorem Tracked.index_toNat (h : Tracked c) {timestampUs : UInt64}
    (hnew : c.deliveries ≠ [] → c.sink.lastPublishedUs < timestampUs) :
    c.sink.localFrameIndex.toNat = (publishedOf c.deliveries).length ∧
      (publishedOf c.deliveries).length ≤ timestampUs.toNat := by
  by_cases hempty : c.deliveries = []
  · rw [h.index, hempty]
    exact ⟨rfl, Nat.zero_le _⟩
  · have hlt := UInt64.lt_iff_toNat_lt.mp (hnew hempty)
    have hle := h.counted
    have hbound := timestampUs.toNat_lt
    rw [h.index, UInt64.toNat_ofNat']
    constructor
    · exact Nat.mod_eq_of_lt (by omega)
    · omega

theorem Tracked.skip (h : Tracked c) {p : Delivery} (hp : p ∈ c.deliveries.getLast?) :
    Tracked { c with
      deliveries := c.deliveries ++ [{ deviceUs := p.deviceUs, published := none }] } := by
  have hmem := List.mem_of_getLast? hp
  have hsame : publishedOf (c.deliveries ++ [{ deviceUs := p.deviceUs, published := none }]) =
      publishedOf c.deliveries := by rw [publishedOf_append]; exact List.append_nil _
  constructor
  · exact h.law.skip hp
  · intro d hd
    rcases List.mem_append.mp hd with hd | hd
    · exact h.positive d hd
    · cases List.mem_singleton.mp hd
      exact h.positive p hmem
  · rw [List.getLast?_concat, h.device, Option.mem_def.mp hp]
    rfl
  · rw [hsame]
    exact h.newest
  · intro _
    rw [hsame]
    exact h.attained (List.ne_nil_of_mem hmem)
  · rw [hsame]
    exact h.index
  · rw [hsame]
    exact h.counted

def Channel.emitted (c : Channel) (clock : HardwareClockOffset) (frame : VideoFrame)
    (deviceUs : Int64) (timestampUs : UInt64) : Channel :=
  { clock
    sink := { c.sink with
      lastDeviceUs := deviceUs
      lastPublishedUs := timestampUs
      localFrameIndex := c.sink.localFrameIndex + 1 }
    deliveries := c.deliveries ++
      [{ deviceUs, published := some (c.sink.sample frame timestampUs) }] }

theorem Tracked.emit (h : Tracked c) (clock : HardwareClockOffset) (frame : VideoFrame)
    {deviceUs : Int64} (hpos : 0 < deviceUs) {timestampUs : UInt64}
    (hnew : c.deliveries ≠ [] → c.sink.lastPublishedUs < timestampUs) :
    Tracked (c.emitted clock frame deviceUs timestampUs) := by
  have hone : publishedOf (c.emitted clock frame deviceUs timestampUs).deliveries =
      publishedOf c.deliveries ++ [c.sink.sample frame timestampUs] := publishedOf_append _ _
  have hbelow : ∀ p ∈ publishedOf c.deliveries, p.header.timestampUs < timestampUs := by
    intro p hp
    have hne : c.deliveries ≠ [] := by
      intro hnil
      rw [hnil] at hp
      cases hp
    exact UInt64.lt_of_le_of_lt (h.newest p hp) (hnew hne)
  obtain ⟨hindex, hcount⟩ := h.index_toNat hnew
  constructor
  · exact h.law.emit deviceUs hbelow hindex
  · intro d hd
    rcases List.mem_append.mp hd with hd | hd
    · exact h.positive d hd
    · cases List.mem_singleton.mp hd
      exact hpos
  · rw [show (c.emitted clock frame deviceUs timestampUs).deliveries.getLast? = some _ from
      List.getLast?_concat ..]
    rfl
  · rw [hone]
    intro p hp
    rcases List.mem_append.mp hp with hp | hp
    · exact UInt64.le_of_lt (hbelow p hp)
    · cases List.mem_singleton.mp hp
      exact UInt64.le_refl _
  · intro _
    rw [hone]
    exact ⟨_, List.mem_append_right _ (List.mem_singleton_self _), rfl⟩
  · rw [hone, List.length_append, List.length_singleton, UInt64.ofNat_add, ← h.index]
    rfl
  · rw [hone, List.length_append, List.length_singleton]
    exact Nat.succ_le_succ hcount

/-- The first stamp needs no comparison. -/
theorem stamp_iff {deviceUs unixUs : Int64}
    (hdistinct : ∀ p ∈ c.deliveries.getLast?, p.deviceUs ≠ deviceUs) :
    (c.deliveries ≠ [] → c.sink.lastPublishedUs < stamp c.sink.lastPublishedUs unixUs) ↔
      ∀ p ∈ c.deliveries.getLast?, p.deviceUs ≠ deviceUs →
        Comparable c.sink.lastPublishedUs unixUs := by
  rw [lt_stamp_iff]
  constructor
  · intro hcomparable p hp _
    exact hcomparable (List.ne_nil_of_mem (List.mem_of_getLast? hp))
  · intro hcomparable hne
    have hp := List.getLast?_eq_some_getLast hne
    exact hcomparable _ hp (hdistinct _ hp)

/-- A frame that is no later than the last one is dropped, and any other is published. -/
theorem Tracked.publish_cases (h : Tracked c) (frame : VideoFrame) (deviceUs host : Int64) :
    (∃ p ∈ c.deliveries.getLast?, deviceUs ≤ p.deviceUs ∧
      c.publish frame deviceUs host =
        { c with deliveries := c.deliveries ++ [{ deviceUs, published := none }] }) ∨
    ((∀ p ∈ c.deliveries.getLast?, p.deviceUs < deviceUs) ∧
      c.publish frame deviceUs host =
        c.emitted (c.clock.toUnixUs host deviceUs).1 frame deviceUs
          (stamp c.sink.lastPublishedUs (c.clock.toUnixUs host deviceUs).2)) := by
  by_cases hd : c.sink.lastDeviceUs ≠ 0 ∧ deviceUs ≤ c.sink.lastDeviceUs
  · obtain ⟨p, hp, hle⟩ := h.duplicate_iff.mp hd
    exact Or.inl ⟨p, hp, hle, if_pos hd⟩
  · refine Or.inr ⟨?_, if_neg hd⟩
    intro p hp
    by_contra hlt
    exact hd (h.duplicate_iff.mpr ⟨p, hp, Int64.not_lt.mp hlt⟩)

theorem Tracked.publish (h : Tracked c) {deviceUs host : Int64} (hpos : 0 < deviceUs)
    (hok : FrameOk c deviceUs host) : Tracked (c.publish frame deviceUs host) := by
  obtain ⟨horder, hcomparable⟩ := hok
  obtain ⟨p, hp, hle, heq⟩ | ⟨hlater, heq⟩ := h.publish_cases frame deviceUs host
  · rw [heq, ← Int64.le_antisymm (horder p hp) hle]
    exact h.skip hp
  · rw [heq]
    exact h.emit _ frame hpos
      ((stamp_iff fun p hp => Int64.ne_of_lt (hlater p hp)).mpr hcomparable)

theorem Tracked.frameOk_of_law (h : Tracked c) {deviceUs host : Int64}
    (hlaw : StreamLaw (c.publish frame deviceUs host).deliveries) : FrameOk c deviceUs host := by
  obtain ⟨p, hp, hle, heq⟩ | ⟨hlater, heq⟩ := h.publish_cases frame deviceUs host
  · rw [heq] at hlaw
    have hsame : p.deviceUs = deviceUs :=
      (List.isChain_append.mp hlaw.duplicates).2.2 p hp _ rfl rfl
    constructor
    · intro q hq
      cases Option.mem_unique hq hp
      rw [hsame]
      exact Int64.le_refl _
    · intro q hq hne
      cases Option.mem_unique hq hp
      exact absurd hsame hne
  · rw [heq] at hlaw
    constructor
    · intro p hp
      exact Int64.le_of_lt (hlater p hp)
    · refine (stamp_iff fun p hp => Int64.ne_of_lt (hlater p hp)).mp ?_
      intro hne
      obtain ⟨q, hq, hstamp⟩ := h.attained hne
      have hincreasing := hlaw.increasing
      rw [Channel.emitted, publishedOf_append] at hincreasing
      have hlt := (List.pairwise_append.mp hincreasing).2.2 q hq _ (List.mem_singleton_self _)
      rw [hstamp] at hlt
      exact hlt

theorem publish_extends (c : Channel) (frame : VideoFrame) (deviceUs host : Int64) :
    c.deliveries <+: (c.publish frame deviceUs host).deliveries := by
  simp only [Channel.publish]
  split <;> exact List.prefix_append _ _

theorem tryPublish_eq (c : Channel) (frame : VideoFrame) (host : Int64) {next : Channel} :
    c.tryPublish (some frame) host = some next ↔
      ∃ reading ∈ (c.sink.checkMetadata frame).deviceUs frame,
        { c with sink := c.sink.checkMetadata frame }.publish frame reading.us host = next :=
  Option.map_eq_some_iff

theorem handle_extends {next : Channel} {e : Event} (h : c.handle e = some next) :
    c.deliveries <+: next.deliveries := by
  cases e with
  | otherChannel device host =>
    cases h
    exact List.prefix_refl _
  | frames frame host =>
    cases frame with
    | none =>
      cases h
      exact List.prefix_refl _
    | some frame =>
      obtain ⟨reading, -, rfl⟩ := (tryPublish_eq c frame host.us).mp h
      exact publish_extends { c with sink := c.sink.checkMetadata frame } frame _ _

theorem run_extends (c : Channel) (events : List Event) :
    c.deliveries <+: (c.run events).deliveries := by
  induction events generalizing c with
  | nil => exact List.prefix_refl _
  | cons e events ih =>
    simp only [Channel.run]
    cases h : c.handle e with
    | none => exact List.prefix_refl _
    | some next => exact (handle_extends h).trans (ih next)

theorem Tracked.handle (h : Tracked c) {next : Channel} {e : Event} (hok : EventOk c e)
    (hnext : c.handle e = some next) : Tracked next := by
  cases e with
  | otherChannel device host =>
    cases hnext
    exact ⟨h.law, h.positive, h.device, h.newest, h.attained, h.index, h.counted⟩
  | frames frame host =>
    cases frame with
    | none =>
      cases hnext
      exact h
    | some frame =>
      obtain ⟨reading, hreading, rfl⟩ := (tryPublish_eq c frame host.us).mp hnext
      have hframe := hok reading hreading
      exact (h.checked frame).publish reading.positive
        ⟨hframe.1, by rw [checkMetadata_last]; exact hframe.2⟩

/-- An event whose outcome follows the law met the condition. -/
theorem Tracked.eventOk_of_law (h : Tracked c) {e : Event}
    (hlaw : ∀ next, c.handle e = some next → StreamLaw next.deliveries) : EventOk c e := by
  cases e with
  | otherChannel device host => exact True.intro
  | frames frame host =>
    cases frame with
    | none => exact True.intro
    | some frame =>
      intro reading hreading
      have hframe := (h.checked frame).frameOk_of_law
        (hlaw _ ((tryPublish_eq c frame host.us).mpr ⟨reading, hreading, rfl⟩))
      exact ⟨hframe.1, by rw [← checkMetadata_last c.sink frame]; exact hframe.2⟩

theorem Tracked.law_iff (h : Tracked c) (events : List Event) :
    StreamLaw (c.run events).deliveries ↔ AllOk c events := by
  induction events generalizing c with
  | nil => exact ⟨fun _ => True.intro, fun _ => h.law⟩
  | cons e events ih =>
    simp only [Channel.run, AllOk]
    cases hnext : c.handle e with
    | none =>
      constructor
      · intro _
        refine ⟨h.eventOk_of_law ?_, True.intro⟩
        intro next hsome
        rw [hnext] at hsome
        cases hsome
      · intro _
        exact h.law
    | some next =>
      constructor
      · intro hlaw
        have hok : EventOk c e := by
          apply h.eventOk_of_law
          intro t ht
          cases hnext.symm.trans ht
          exact hlaw.of_extends (run_extends next events)
        exact ⟨hok, (ih (h.handle hok hnext)).mp hlaw⟩
      · intro hok
        exact (ih (h.handle hok.1 hnext)).mpr hok.2

end Runs

/-- A channel keeps the law of its stream over a run exactly when every frame of the run keeps
the order of the hardware timestamps and has a time that can be compared with the last stamp. -/
theorem stream_law_iff (refreshPeriodUs : Int64) (pixelFormat : PixelFormat)
    (events : List Event) :
    StreamLaw ((opened refreshPeriodUs pixelFormat).run events).deliveries ↔
      AllOk (opened refreshPeriodUs pixelFormat) events :=
  (tracked_opened refreshPeriodUs pixelFormat).law_iff events

def emptyFrame (reading : Reading) : Event :=
  .frames
    (some
      { data := []
        width := 1
        height := 1
        frameTimestamp := some reading
        timestamp := reading })
    ⟨1700000000000000, by decide⟩

/-- A counter that restarts silences the channel. -/
theorem restarted_counter_dropped :
    ¬ StreamLaw ((opened 5000000 .rgb24).run
      [emptyFrame ⟨1000, by decide⟩, emptyFrame ⟨2000, by decide⟩,
        emptyFrame ⟨5, by decide⟩]).deliveries := by
  intro h
  exact absurd h.duplicates (by decide)

end RealsenseStream
