import Rollio.AcceptedProjects
import Rollio.DeviceDocuments

/-! The hand-off of a device's configuration: what the C++ drivers find of it is what the controller
has, where its texts need no other quotation and the drivers pass over the rest. -/
namespace DeviceHandOff
open BusMessages DeviceConfigs AcceptedProjects DeviceDocuments DeviceLines TomlText
open DeviceReader (Device Channel OneLined Profile Reading Section deviceKindName
  parseBinaryDeviceConfig parse_ok_iff passesPiece pixelFormatName readEntry readPiece
  readPiece_inner readPieces_inner readPieces_root skipsTable takenKeys)
open PartialRuns (foldlM_append_ok foldlM_cons_ok)

section Purpose
variable {α β : Type}

def configuredProfile (p : CameraChannelProfile) : Profile :=
  { width := p.width, height := p.height, fps := p.fps, pixelFormat := p.pixelFormat }

/-- The stream index stands among what is flattened into a channel. -/
def configuredIndex (values : List (String × TomlValue α β)) : Option UInt32 :=
  match values.lookup "stream_index" with
  | some (.integer z) => if 0 ≤ z ∧ z < 4294967296 then some (UInt32.ofNat z.toNat) else none
  | _ => none

/-- What a driver is to find of a channel. -/
def configuredChannel (c : DeviceChannelConfigV2 α) (extra : Flattened channelFields α β) :
    Channel :=
  { channelType := c.channelType.toList, kind := c.kind, enabled := c.enabled
    profile := c.profile.map configuredProfile, streamIndex := configuredIndex extra.values }

/-- What a driver is to find of a device. -/
def configuredDevice (d : DeviceDocument α β) (executable : Option Line) : Device :=
  { name := d.config.name.toList, executable, driver := d.config.driver.toList
    id := d.config.id.toList, busRoot := d.config.busRoot.toList
    channels := d.config.channels.map fun c => configuredChannel c (d.channelExtra c.channelType) }

/-- The driver finds the configuration that the controller has; it is started already, so that the
executable does not matter. -/
def ReadsBack (style : TomlStyle α β) (d : DeviceDocument α β) : Prop :=
  ∃ executable, parseBinaryDeviceConfig (inlineConfig style d) =
    .ok (configuredDevice d executable)

/-- The texts that the driver takes need no other quotation. -/
structure PlainIdentity (config : BinaryDeviceConfig α) : Prop where
  name : Plain config.name
  driver : Plain config.driver
  id : Plain config.id
  busRoot : Plain config.busRoot
  channelTypes : ∀ c ∈ config.channels, Plain c.channelType

/-- The driver does not look into a table that it takes for one of a channel. -/
def TableSkipped (style : TomlStyle α β) (s : TomlSection α β) : Prop :=
  skipsTable (style.header s.array s.path) = true ∧
    ∀ entry ∈ s.values, passesPiece .channelSkip (style.keyValue entry)

/-- The driver passes over what it does not take of a channel: it stands on lines of keys and values
whose keys mean nothing to it, and in tables that belong to the channel. The stream index is a
number. -/
structure ChannelPassedOver (style : TomlStyle α β) (c : DeviceChannelConfigV2 α)
    (extra : Flattened channelFields α β) : Prop where
  values : ∀ entry ∈ otherValues c, passesPiece .channel (style.keyValue entry)
  extras : ∀ entry ∈ extra.values, entry.1 ≠ "stream_index" →
    passesPiece .channel (style.keyValue entry)
  index : ∀ value, ("stream_index", value) ∈ extra.values → ∃ n : UInt32, value = u32Value n
  profile : ∀ p ∈ c.profile, ∀ entry ∈ otherProfileValues p,
    passesPiece .channelProfile (style.keyValue entry)
  tables : ∀ s ∈ otherSections c extra, TableSkipped style s

/-- The same for a device, whose own tables come behind those of its channels. -/
structure PassedOver (style : TomlStyle α β) (d : DeviceDocument α β) : Prop where
  values : ∀ entry ∈ optional "executable" .string d.config.executable ++ d.extra.values,
    passesPiece .root (style.keyValue entry)
  tables : ∀ s ∈ d.extra.sections, TableSkipped style s
  channels : ∀ c ∈ d.config.channels, ChannelPassedOver style c (d.channelExtra c.channelType)

end Purpose

section Reading
variable {α β : Type} {style : TomlStyle α β}

theorem newline_notMem_bare {key : String} (h : Bare key) : '\n' ∉ key.toList :=
  fun hm => bare_ne h hm (by decide) rfl

theorem newline_notMem_key (key : String) : '\n' ∉ style.key key := by
  rw [TomlStyle.key]
  split
  · exact newline_notMem_bare ‹_›
  · exact style.quotedKey_line key

/-- A header stands on one line. -/
theorem newline_notMem_header (array : Bool) (path : List String) :
    '\n' ∉ style.header array path := by
  have hpath : '\n' ∉ style.path path := by
    refine not_mem_intercalate (by decide) fun line hline => ?_
    obtain ⟨key, -, rfl⟩ := List.mem_map.mp hline
    exact newline_notMem_key key
  cases array <;> simp [TomlStyle.header, hpath]

theorem keyValue_bare {key : String} (h : Bare key) (value : TomlValue α β) :
    style.keyValue (key, value) = entryLine key.toList (style.value value) := by
  rw [TomlStyle.keyValue, TomlStyle.key, if_pos h]
  rfl

/-- An entry on one line is read with its bare key. -/
theorem readPiece_entry {key : String} {value : TomlValue α β} (hkey : Bare key)
    (hvalue : '\n' ∉ style.value value) (r : Reading) :
    readPiece r (style.keyValue (key, value)) =
      readEntry r key.toList (written (style.value value)) := by
  rw [keyValue_bare hkey, DeviceReader.readPiece_line, DeviceReader.readLine_bare hkey]
  have hbare := newline_notMem_bare hkey
  simp [entryLine, hbare, hvalue]

/-- The last channel is read. -/
def onChannel (d : Device) (front : List Channel) (c : Channel) (current : Section) : Reading :=
  { device := { d with channels := front ++ [c] }, current }

variable {d : Device} {front : List Channel} {c : Channel}

theorem readPiece_channel {key : String} {value : TomlValue α β} {c' : Channel} (hkey : Bare key)
    (hvalue : '\n' ∉ style.value value)
    (h : c.set key.toList (written (style.value value)) = .ok c') :
    readPiece (onChannel d front c .channel) (style.keyValue (key, value)) =
      .ok (onChannel d front c' .channel) := by
  rw [readPiece_entry hkey hvalue]
  simp [readEntry, onChannel, Outcomes.okOr, bind, Except.bind, h, Reading.setLast, pure,
    Except.pure]

theorem readPiece_profile {key : String} {value : TomlValue α β} {p p' : Profile} (hkey : Bare key)
    (hvalue : '\n' ∉ style.value value)
    (h : p.set key.toList (written (style.value value)) = .ok p') :
    readPiece (onChannel d front { c with profile := some p } .channelProfile)
        (style.keyValue (key, value)) =
      .ok (onChannel d front { c with profile := some p' } .channelProfile) := by
  rw [readPiece_entry hkey hvalue]
  simp [readEntry, onChannel, Outcomes.okOr, bind, Except.bind, h, Reading.setLast, pure,
    Except.pure]

theorem ready_onChannel {current : Section} (h : current ≠ .channelProfile) :
    (onChannel d front c current).Ready :=
  ⟨c, by simp [onChannel], fun hcurrent => absurd hcurrent h⟩

theorem ready_onProfile {p : Profile} :
    (onChannel d front { c with profile := some p } .channelProfile).Ready :=
  ⟨_, List.getLast?_concat, fun _ => rfl⟩

/-- Entries of a channel's tables that are passed over leave the reading as it is. -/
theorem readEntries_inner {entries : List (String × TomlValue α β)} {r : Reading} (hr : r.Ready)
    (hroot : r.current ≠ .root)
    (h : ∀ entry ∈ entries, passesPiece r.current (style.keyValue entry)) :
    (entries.map style.keyValue).foldlM readPiece r = .ok r :=
  readPieces_inner hr hroot (List.forall_mem_map.mpr h)

theorem newline_notMem_plain {s : String} (h : Plain s) : '\n' ∉ s.toList :=
  fun hm => plainChar_ne (h _ hm) (by decide) rfl

theorem value_u32 (n : UInt32) :
    style.value (u32Value n) = (toString (n.toNat : ℤ)).toList := rfl

theorem newline_notMem_u32 (n : UInt32) : '\n' ∉ style.value (u32Value n) := by
  intro hm
  rw [value_u32, toString_int] at hm
  exact absurd (Nat.isDigit_of_mem_toDigits (Nat.succ_pos 9) (Nat.le_refl 10) hm) (by decide)

theorem newline_notMem_boolean (b : Bool) : '\n' ∉ style.value (.boolean b) := by
  change '\n' ∉ (toString b).toList
  cases b <;> decide

theorem stripQuotes_written {s : String} (h : '\n' ∉ s.toList) (hs : Plain s) :
    stripQuotes (written (style.value (.string s))) = s.toList :=
  (asRead_string_iff style h).mpr hs

theorem plain_deviceKindName (k : DeviceType) : Plain (deviceKindName k) := by
  cases k <;> decide

theorem plain_pixelFormatName (f : PixelFormat) : Plain (pixelFormatName f) := by
  cases f <;> decide

theorem set_kind (k : DeviceType) :
    c.set "kind".toList (written (style.value (.string (deviceKindName k)))) =
      .ok { c with kind := k } := by
  have hplain := plain_deviceKindName k
  rw [Channel.set, if_neg (by decide), if_pos rfl,
    stripQuotes_written (newline_notMem_plain hplain) hplain]
  cases k <;> rfl

theorem set_enabled (b : Bool) :
    c.set "enabled".toList (written (style.value (.boolean b))) =
      .ok { c with enabled := b } := by
  rw [Channel.set, if_neg (by decide), if_neg (by decide), if_pos rfl, TomlStyle.value,
    parseBoolValue_written]
  rfl

theorem set_streamIndex (n : UInt32) :
    c.set "stream_index".toList (written (style.value (u32Value n))) =
      .ok { c with streamIndex := some n } := by
  rw [Channel.set, if_neg (by decide), if_neg (by decide), if_neg (by decide), if_neg (by decide),
    if_pos rfl, value_u32, parseU32Value_written]
  rfl

theorem set_sizes (p : Profile) (n : UInt32) :
    p.set "width".toList (written (style.value (u32Value n))) = .ok { p with width := n } ∧
      p.set "height".toList (written (style.value (u32Value n))) = .ok { p with height := n } ∧
      p.set "fps".toList (written (style.value (u32Value n))) = .ok { p with fps := n } := by
  rw [value_u32, Profile.set, Profile.set, Profile.set, if_pos rfl, if_neg (by decide), if_pos rfl,
    if_neg (by decide), if_neg (by decide), if_pos rfl, parseU32Value_written]
  exact ⟨rfl, rfl, rfl⟩

theorem set_pixelFormat (p : Profile) {f : PixelFormat} (hf : f ≠ .nv12) :
    p.set "pixel_format".toList (written (style.value (.string (pixelFormatName f)))) =
      .ok { p with pixelFormat := f } := by
  have hplain := plain_pixelFormatName f
  rw [Profile.set, if_neg (by decide), if_neg (by decide), if_neg (by decide), if_pos rfl,
    stripQuotes_written (newline_notMem_plain hplain) hplain]
  cases f with
  | nv12 => exact absurd rfl hf
  | _ => rfl

theorem configuredIndex_u32 {values : List (String × TomlValue α β)} {n : UInt32} :
    configuredIndex (("stream_index", u32Value n) :: values) = some n := by
  have hn : (n.toNat : ℤ) < 4294967296 := by exact_mod_cast n.toNat_lt
  simp only [configuredIndex, List.lookup_cons_self, u32Value]
  rw [if_pos ⟨Int.natCast_nonneg _, hn⟩, Int.toNat_natCast, UInt32.ofNat_toNat]

theorem configuredIndex_cons {entry : String × TomlValue α β}
    {values : List (String × TomlValue α β)} (h : entry.1 ≠ "stream_index") :
    configuredIndex (entry :: values) = configuredIndex values := by
  obtain ⟨key, value⟩ := entry
  have hkey : ("stream_index" == key) = false := by simpa using fun heq => h heq.symm
  simp only [configuredIndex, List.lookup_cons, hkey]

/-- The entries of a channel's rest are passed over but for the stream index. -/
theorem read_values {values : List (String × TomlValue α β)} (hnodup : (values.map Prod.fst).Nodup)
    (hpasses : ∀ entry ∈ values, entry.1 ≠ "stream_index" →
      passesPiece .channel (style.keyValue entry))
    (hindex : ∀ value, ("stream_index", value) ∈ values → ∃ n : UInt32, value = u32Value n) :
    (values.map style.keyValue).foldlM readPiece (onChannel d front c .channel) =
      .ok (onChannel d front { c with streamIndex := (configuredIndex values).or c.streamIndex }
        .channel) := by
  have hready : ∀ c, (onChannel d front c .channel).Ready := fun c => ready_onChannel (by decide)
  have hinner : Section.channel ≠ .root := by decide
  induction values with
  | nil => rfl
  | cons entry values ih =>
    rw [List.map_cons, List.nodup_cons] at hnodup
    rw [List.map_cons, List.foldlM_cons]
    by_cases hkey : entry.1 = "stream_index"
    · obtain ⟨key, value⟩ := entry
      subst hkey
      obtain ⟨n, rfl⟩ := hindex value List.mem_cons_self
      rw [readPiece_channel (by decide) (newline_notMem_u32 n) (set_streamIndex n),
        configuredIndex_u32]
      -- the stream index comes once, so that what is behind it is passed over
      exact readEntries_inner (hready _) hinner fun e he =>
        hpasses e (List.mem_cons_of_mem _ he) fun heq => hnodup.1 (List.mem_map.mpr ⟨e, he, heq⟩)
    · rw [readPiece_inner (hready c) hinner
          (hpasses entry List.mem_cons_self hkey), configuredIndex_cons hkey]
      exact ih hnodup.2 (fun e he => hpasses e (List.mem_cons_of_mem _ he))
        fun value hv => hindex value (List.mem_cons_of_mem _ hv)

theorem readPiece_blank (r : Reading) : readPiece r [] = .ok r := rfl

theorem readPiece_channels (r : Reading) :
    readPiece r (style.header true ["channels"]) =
      .ok (onChannel r.device r.device.channels {} .channel) := by
  have hheader : style.header true ["channels"] = "[[channels]]".toList := by
    rw [TomlStyle.header, if_pos rfl, TomlStyle.path, List.map_singleton,
      List.intercalate_singleton, TomlStyle.key, if_pos (by decide)]
    decide
  rw [hheader, DeviceReader.readPiece_line (by decide)]
  rfl

theorem readPiece_profileHeader {current : Section} :
    readPiece (onChannel d front c current) (style.header false ["channels", "profile"]) =
      .ok (onChannel d front { c with profile := some (c.profile.getD {}) } .channelProfile) := by
  have hheader : style.header false ["channels", "profile"] = "[channels.profile]".toList := by
    rw [TomlStyle.header, if_neg (by decide), TomlStyle.path, List.map_cons, List.map_singleton,
      List.intercalate_cons_cons, List.intercalate_singleton, TomlStyle.key, TomlStyle.key,
      if_pos (by decide), if_pos (by decide)]
    decide
  have hstrip : stripComment "[channels.profile]".toList =
      '[' :: "channels.profile]".toList := by decide
  have htrim : trim ('[' :: "channels.profile]".toList) = "[channels.profile]".toList := by
    decide
  rw [hheader, DeviceReader.readPiece_line (by decide)]
  simp only [DeviceReader.readLine, hstrip, htrim]
  rw [if_pos (by decide), DeviceReader.readHeader, if_neg (by decide), if_pos (by decide)]
  simp [onChannel, Reading.setLast]

/-- A table that is not looked into. -/
theorem read_skipped {s : TomlSection α β} {current : Section}
    (h : TableSkipped style s) :
    (style.sectionPieces s).foldlM readPiece (onChannel d front c current) =
      .ok (onChannel d front c .channelSkip) := by
  have hskip : readPiece (onChannel d front c current) (style.header s.array s.path) =
      .ok (onChannel d front c .channelSkip) := by
    rw [DeviceReader.readPiece_line (newline_notMem_header _ _)]
    exact DeviceReader.readLine_skip List.getLast?_concat h.1
  have hinner : Section.channelSkip ≠ .root := by decide
  rw [TomlStyle.sectionPieces, foldlM_cons_ok (readPiece_blank _), foldlM_cons_ok hskip]
  exact readEntries_inner (ready_onChannel (by decide)) hinner h.2

theorem read_allSkipped (d : Device) (front : List Channel) (c : Channel) (current : Section)
    {sections : List (TomlSection α β)} (h : ∀ s ∈ sections, TableSkipped style s) :
    ∃ current', (sections.flatMap style.sectionPieces).foldlM readPiece
      (onChannel d front c current) = .ok (onChannel d front c current') := by
  induction sections generalizing current with
  | nil => exact ⟨current, rfl⟩
  | cons s sections ih =>
    obtain ⟨current', hrest⟩ := ih .channelSkip fun s' hs' => h s' (List.mem_cons_of_mem _ hs')
    refine ⟨current', ?_⟩
    rw [List.flatMap_cons, List.foldlM_append, read_skipped (h s List.mem_cons_self)]
    exact hrest

theorem read_profile {p : CameraChannelProfile} {q : Profile} (hformat : p.pixelFormat ≠ .nv12)
    (hpasses : ∀ entry ∈ otherProfileValues p,
      passesPiece .channelProfile (style.keyValue entry)) :
    ((profileValues p).map style.keyValue).foldlM readPiece
        (onChannel d front { c with profile := some q } .channelProfile) =
      .ok (onChannel d front { c with profile := some (configuredProfile p) } .channelProfile) := by
  have hname : '\n' ∉ style.value (.string (pixelFormatName p.pixelFormat)) :=
    newline_notMem_string (newline_notMem_plain (plain_pixelFormatName p.pixelFormat))
  have hinner : Section.channelProfile ≠ .root := by decide
  rw [profileValues, List.map_append, List.map_cons, List.map_cons, List.map_cons,
    List.map_singleton, List.cons_append, List.cons_append, List.cons_append, List.singleton_append,
    foldlM_cons_ok (readPiece_profile (by decide) (newline_notMem_u32 _) (set_sizes _ _).1),
    foldlM_cons_ok (readPiece_profile (by decide) (newline_notMem_u32 _) (set_sizes _ _).2.1),
    foldlM_cons_ok (readPiece_profile (by decide) (newline_notMem_u32 _) (set_sizes _ _).2.2),
    foldlM_cons_ok (readPiece_profile (by decide) hname (set_pixelFormat _ hformat))]
  exact readEntries_inner ready_onProfile hinner hpasses

/-- What the driver makes of a channel, whose type it may read in another way. -/
def readChannel (style : TomlStyle α β) (c : DeviceChannelConfigV2 α)
    (extra : Flattened channelFields α β) : Channel :=
  { configuredChannel c extra with channelType := asRead (style.string c.channelType) }

section Channels
variable {c : DeviceChannelConfigV2 α} {extra : Flattened channelFields α β}

theorem read_channelValues (hline : '\n' ∉ c.channelType.toList)
    (h : ChannelPassedOver style c extra) :
    ((channelValues c extra).map style.keyValue).foldlM readPiece
        (onChannel d front {} .channel) =
      .ok (onChannel d front { readChannel style c extra with profile := none } .channel) := by
  have htype : '\n' ∉ style.value (.string c.channelType) := newline_notMem_string hline
  have hkind : '\n' ∉ style.value (.string (deviceKindName c.kind)) :=
    newline_notMem_string (newline_notMem_plain (plain_deviceKindName c.kind))
  have hset : ({} : Channel).set "channel_type".toList
      (written (style.value (.string c.channelType))) =
        .ok { channelType := asRead (style.string c.channelType) } := rfl
  have hinner : Section.channel ≠ .root := by decide
  have hothers : ((otherValues c).map style.keyValue).foldlM readPiece
      (onChannel d front { channelType := asRead (style.string c.channelType)
                           kind := c.kind, enabled := c.enabled } .channel) =
      .ok (onChannel d front { channelType := asRead (style.string c.channelType)
                               kind := c.kind, enabled := c.enabled } .channel) :=
    readEntries_inner (ready_onChannel (by decide)) hinner h.values
  rw [channelValues, List.map_append, List.map_cons, List.map_cons, List.map_singleton,
    List.map_append, List.cons_append, List.cons_append, List.singleton_append,
    foldlM_cons_ok (readPiece_channel (by decide) htype hset),
    foldlM_cons_ok (readPiece_channel (by decide) hkind (set_kind _)),
    foldlM_cons_ok (readPiece_channel (by decide) (newline_notMem_boolean _) (set_enabled _)),
    foldlM_append_ok hothers, read_values extra.nodup h.extras h.index, Option.or_none]
  rfl

theorem read_profileTable (d : Device) (front : List Channel)
    (hformat : ∀ p ∈ c.profile, p.pixelFormat ≠ .nv12)
    (h : ChannelPassedOver style c extra) :
    ∃ current, ((c.profile.map fun p => subtable "profile" (profileValues p)).toList.flatMap
        style.sectionPieces).foldlM readPiece
          (onChannel d front { readChannel style c extra with profile := none } .channel) =
      .ok (onChannel d front (readChannel style c extra) current) := by
  cases hprofile : c.profile with
  | none =>
    refine ⟨.channel, ?_⟩
    have hread : readChannel style c extra =
        { readChannel style c extra with profile := none } := by
      simp only [readChannel, configuredChannel, hprofile, Option.map_none]
    rw [← hread]
    rfl
  | some p =>
    refine ⟨.channelProfile, ?_⟩
    have hread : (readChannel style c extra).profile = some (configuredProfile p) := by
      rw [readChannel, configuredChannel, hprofile]
      rfl
    rw [Option.map_some, Option.toList_some, List.flatMap_singleton, TomlStyle.sectionPieces,
      foldlM_cons_ok (readPiece_blank _), subtable, foldlM_cons_ok readPiece_profileHeader,
      read_profile (c := { readChannel style c extra with profile := none }) (hformat p hprofile)
        (h.profile p hprofile), ← hread]

/-- The tables of a channel are read as one channel more. -/
theorem read_channel (hline : '\n' ∉ c.channelType.toList)
    (hformat : ∀ p ∈ c.profile, p.pixelFormat ≠ .nv12) (h : ChannelPassedOver style c extra)
    (r : Reading) :
    ∃ current, ((channelSections c extra).flatMap style.sectionPieces).foldlM readPiece r =
      .ok (onChannel r.device r.device.channels (readChannel style c extra) current) := by
  obtain ⟨current, hprofile⟩ := read_profileTable r.device r.device.channels hformat h
  obtain ⟨current', htables⟩ := read_allSkipped r.device r.device.channels
    (readChannel style c extra) current h.tables
  refine ⟨current', ?_⟩
  rw [channelSections, List.append_assoc, List.singleton_append, List.flatMap_cons,
    TomlStyle.sectionPieces, List.cons_append, foldlM_cons_ok (readPiece_blank _), List.cons_append,
    foldlM_cons_ok (readPiece_channels r), foldlM_append_ok (read_channelValues hline h),
    List.flatMap_append, foldlM_append_ok hprofile]
  exact htables

end Channels

theorem read_channels {channels : List (DeviceChannelConfigV2 α)}
    (extra : DeviceChannelConfigV2 α → Flattened channelFields α β)
    (hlines : ∀ c ∈ channels, '\n' ∉ c.channelType.toList)
    (hformats : ∀ c ∈ channels, ∀ p ∈ c.profile, p.pixelFormat ≠ .nv12)
    (h : ∀ c ∈ channels, ChannelPassedOver style c (extra c)) (r : Reading) :
    ∃ current, ((channels.flatMap fun c => channelSections c (extra c)).flatMap
      style.sectionPieces).foldlM readPiece r =
        .ok { device := { r.device with
                channels := r.device.channels ++
                  (channels.map fun c => readChannel style c (extra c)) }
              current } := by
  induction channels generalizing r with
  | nil => exact ⟨r.current, by simp [pure, Except.pure]⟩
  | cons c channels ih =>
    obtain ⟨current, hfirst⟩ := read_channel (hlines c List.mem_cons_self)
      (hformats c List.mem_cons_self) (h c List.mem_cons_self) r
    obtain ⟨current', hrest⟩ := ih (fun e he => hlines e (List.mem_cons_of_mem _ he))
      (fun e he => hformats e (List.mem_cons_of_mem _ he))
      (fun e he => h e (List.mem_cons_of_mem _ he))
      (onChannel r.device r.device.channels (readChannel style c (extra c)) current)
    refine ⟨current', ?_⟩
    rw [List.flatMap_cons, List.flatMap_append, foldlM_append_ok hfirst, hrest]
    simp [onChannel]

theorem readPiece_root {key value : String} (hkey : Bare key) (hvalue : '\n' ∉ value.toList)
    (d : Device) :
    readPiece { device := d } (style.keyValue (key, .string value)) =
      .ok { device := d.set key.toList (written (style.string value)) } := by
  have hline : '\n' ∉ style.value (.string value) := newline_notMem_string hvalue
  rw [readPiece_entry hkey hline]
  rfl

/-- What the driver takes is on one line. -/
structure OneLineIdentity (config : BinaryDeviceConfig α) : Prop where
  name : '\n' ∉ config.name.toList
  driver : '\n' ∉ config.driver.toList
  id : '\n' ∉ config.id.toList
  busRoot : '\n' ∉ config.busRoot.toList
  channelTypes : ∀ c ∈ config.channels, '\n' ∉ c.channelType.toList

/-- What the driver makes of a device's own values, whose texts it may read in another way. -/
def readRoot (style : TomlStyle α β) (config : BinaryDeviceConfig α) (executable : Option Line) :
    Device :=
  { name := asRead (style.string config.name)
    executable
    driver := asRead (style.string config.driver)
    id := asRead (style.string config.id)
    busRoot := asRead (style.string config.busRoot) }

def readDevice (style : TomlStyle α β) (d : DeviceDocument α β) (executable : Option Line) :
    Device :=
  { readRoot style d.config executable with
    channels := d.config.channels.map fun c => readChannel style c (d.channelExtra c.channelType) }

variable {document : DeviceDocument α β}

theorem read_identity (hlines : OneLineIdentity document.config) (h : PassedOver style document) :
    ∃ executable, ((identityValues document.config).map style.keyValue).foldlM readPiece {} =
      .ok { device := readRoot style document.config executable } := by
  have hname : readPiece {} (style.keyValue ("name", .string document.config.name)) =
      .ok { device := { name := asRead (style.string document.config.name) } } :=
    readPiece_root (by decide) hlines.name {}
  have hdriver : ∀ d : Device, readPiece { device := d }
      (style.keyValue ("driver", .string document.config.driver)) =
        .ok { device := { d with driver := asRead (style.string document.config.driver) } } :=
    readPiece_root (by decide) hlines.driver
  have hid : ∀ d : Device, readPiece { device := d }
      (style.keyValue ("id", .string document.config.id)) =
        .ok { device := { d with id := asRead (style.string document.config.id) } } :=
    readPiece_root (by decide) hlines.id
  have hbusRoot : ∀ d : Device, readPiece { device := d }
      (style.keyValue ("bus_root", .string document.config.busRoot)) =
        .ok { device := { d with busRoot := asRead (style.string document.config.busRoot) } } :=
    readPiece_root (by decide) hlines.busRoot
  have hpasses : ∀ piece ∈
      (optional "executable" .string document.config.executable).map style.keyValue,
      passesPiece .root piece :=
    List.forall_mem_map.mpr fun entry hentry => h.values entry (List.mem_append_left _ hentry)
  obtain ⟨executable, hexecutable⟩ := readPieces_root hpasses
    { name := asRead (style.string document.config.name) }
  refine ⟨executable, ?_⟩
  simp only [identityValues, List.map_append, List.map_cons, List.map_nil, List.cons_append,
    List.nil_append]
  rw [foldlM_cons_ok hname, foldlM_append_ok hexecutable, foldlM_cons_ok (hdriver _),
    foldlM_cons_ok (hid _), foldlM_cons_ok (hbusRoot _), List.foldlM_nil]
  simp only [readRoot, pure, Except.pure]

theorem read_document (hne : document.config.channels ≠ [])
    (hformats : ∀ c ∈ document.config.channels, ∀ p ∈ c.profile, p.pixelFormat ≠ .nv12)
    (hlines : OneLineIdentity document.config) (h : PassedOver style document) :
    ∃ executable current, (style.pieces (deviceTable document)).foldlM readPiece {} =
      .ok { device := readDevice style document executable, current } := by
  have hpasses : ∀ piece ∈ document.extra.values.map style.keyValue, passesPiece .root piece :=
    List.forall_mem_map.mpr fun entry hentry => h.values entry (List.mem_append_right _ hentry)
  obtain ⟨first, hidentity⟩ := read_identity hlines h
  obtain ⟨executable, hextra⟩ := readPieces_root hpasses (readRoot style document.config first)
  obtain ⟨current, hchannels⟩ := read_channels
    (fun c => document.channelExtra c.channelType) hlines.channelTypes hformats h.channels
    { device := { readRoot style document.config first with executable } }
  have hempty : document.config.channels.isEmpty = false := by simpa using hne
  have hdevice : ({ readRoot style document.config first with
      executable
      channels := [] ++ document.config.channels.map fun c =>
        readChannel style c (document.channelExtra c.channelType) } : Device) =
      readDevice style document executable := by
    simp only [readDevice, readRoot, List.nil_append]
  -- what the device has of tables comes to its last channel
  obtain hnil | ⟨front, last, hlast⟩ :=
    List.eq_nil_or_concat (readDevice style document executable).channels
  · exact absurd (List.map_eq_nil_iff.mp hnil) hne
  have hread : ∀ current, onChannel (readDevice style document executable) front last current =
      { device := readDevice style document executable, current } := by
    intro current
    rw [onChannel, ← List.concat_eq_append, ← hlast]
  obtain ⟨current', htables⟩ :=
    read_allSkipped (readDevice style document executable) front last current h.tables
  refine ⟨executable, current', ?_⟩
  rw [hread, hread] at htables
  rw [TomlStyle.pieces, deviceTable, hempty, if_neg (by decide), List.append_nil, List.map_append,
    List.append_assoc, foldlM_append_ok hidentity, foldlM_append_ok hextra, List.flatMap_append,
    foldlM_append_ok hchannels, ← htables, ← hdevice]
  rfl

end Reading

section Lines
variable {α β : Type} {style : TomlStyle α β}

def OnOneLine (style : TomlStyle α β) (entry : String × TomlValue α β) : Prop :=
  Bare entry.1 ∧ '\n' ∉ style.value entry.2

instance (entry : String × TomlValue α β) : Decidable (OnOneLine style entry) :=
  inferInstanceAs (Decidable (_ ∧ _))

/-- What the driver does not take of a channel is on lines behind bare keys, and in plain tables. -/
structure ChannelOnLines (style : TomlStyle α β) (c : DeviceChannelConfigV2 α)
    (extra : Flattened channelFields α β) : Prop where
  values : ∀ entry ∈ otherValues c ++ extra.values, OnOneLine style entry
  index : ∀ value, ("stream_index", value) ∈ extra.values → ∃ n : UInt32, value = u32Value n
  profile : ∀ p ∈ c.profile, ∀ entry ∈ otherProfileValues p, OnOneLine style entry
  tables : ∀ s ∈ otherSections c extra, s.array = false ∧ (∀ key ∈ s.path, Bare key) ∧
    ∀ entry ∈ s.values, OnOneLine style entry

structure OnLines (style : TomlStyle α β) (d : DeviceDocument α β) : Prop where
  values : ∀ entry ∈ optional "executable" .string d.config.executable ++ d.extra.values,
    OnOneLine style entry
  sections : d.extra.sections = []
  channels : ∀ c ∈ d.config.channels, ChannelOnLines style c (d.channelExtra c.channelType)

theorem passesPiece_onOneLine {entry : String × TomlValue α β} {current : Section}
    (h : OnOneLine style entry) (hkey : entry.1.toList ∉ takenKeys current) :
    passesPiece current (style.keyValue entry) := by
  have hline : '\n' ∉ style.keyValue entry := by
    rw [TomlStyle.keyValue]
    simp [newline_notMem_key, h.2]
  intro line hmem
  rw [List.splitOn_eq_singleton hline, List.mem_singleton] at hmem
  rw [hmem, keyValue_bare h.1]
  exact DeviceReader.passes_bare h.1 hkey _

theorem toList_mem {key : String} {keys : List String} :
    key.toList ∈ keys.map String.toList ↔ key ∈ keys :=
  List.mem_map_of_injective fun _ _ => String.toList_inj.mp

/-- The keys of a channel that a driver takes are fields, but for the stream index. -/
theorem notMem_takenKeys {key : String} (hfresh : key ∉ channelFields)
    (hindex : key ≠ "stream_index") : key.toList ∉ takenKeys .channel := by
  have htaken : takenKeys .channel =
      ["channel_type", "kind", "enabled", "profile", "stream_index"].map String.toList := rfl
  rw [htaken, toList_mem]
  intro hmem
  simp only [List.mem_cons, List.not_mem_nil, or_false] at hmem
  obtain rfl | rfl | rfl | rfl | rfl := hmem
  · exact hfresh (by decide)
  · exact hfresh (by decide)
  · exact hfresh (by decide)
  · exact hfresh (by decide)
  · exact hindex rfl

theorem notMem_bareKeys {c : Char} {keys : List String} (hc : bareChar c = false)
    (hdot : c ∉ ['.']) (hbare : ∀ key ∈ keys, Bare key) :
    c ∉ ['.'].intercalate (keys.map String.toList) := by
  refine not_mem_intercalate hdot fun line hline => ?_
  obtain ⟨key, hkey, rfl⟩ := List.mem_map.mp hline
  exact fun hm => bare_ne (hbare key hkey) hm hc rfl

/-- A table of bare keys within a channel is skipped if it is not the profile. -/
theorem skipsTable_bare {key : String} {rest : List String}
    (hbare : ∀ k ∈ "channels" :: key :: rest, Bare k) (hkey : key ≠ "profile") :
    skipsTable (style.header false ("channels" :: key :: rest)) = true := by
  have hkeys : ("channels" :: key :: rest).map style.key =
      "channels".toList :: key.toList :: rest.map String.toList := by
    have hall : ∀ k ∈ "channels" :: key :: rest, style.key k = k.toList :=
      fun k hk => if_pos (hbare k hk)
    rw [List.map_congr_left hall]
    rfl
  have hheader : style.header false ("channels" :: key :: rest) =
      "[channels.".toList ++ ['.'].intercalate (key.toList :: rest.map String.toList) ++ [']'] := by
    rw [TomlStyle.header, if_neg (by decide), TomlStyle.path, hkeys, List.intercalate_cons_cons]
    rfl
  have htail : ∀ k ∈ key :: rest, Bare k := fun k hk => hbare k (List.mem_cons_of_mem _ hk)
  rw [hheader]
  refine DeviceReader.skipsTable_header (fun c hc => ⟨?_, ?_⟩) fun heq => ?_
  · rintro rfl
    exact notMem_bareKeys (by decide) (by decide) htail hc
  · rintro rfl
    exact notMem_bareKeys (by decide) (by decide) htail hc
  · cases rest with
    | nil =>
      rw [List.map_nil, List.intercalate_singleton] at heq
      exact hkey (String.toList_inj.mp heq)
    | cons second rest =>
      rw [List.map_cons, List.intercalate_cons_cons] at heq
      have hdot : '.' ∈ "profile".toList :=
        heq ▸ List.mem_append_left _ (List.mem_append_right _ (List.mem_singleton_self _))
      exact absurd hdot (by decide)

theorem ChannelOnLines.passedOver {c : DeviceChannelConfigV2 α}
    {extra : Flattened channelFields α β} (h : ChannelOnLines style c extra) :
    ChannelPassedOver style c extra where
  values entry hentry := by
    refine passesPiece_onOneLine (h.values entry (List.mem_append_left _ hentry)) ?_
    have hkeys : ∀ key ∈ ["name", "channel_label", "mode", "dof", "publish_states",
        "recorded_states", "control_frequency_hz", "preview_enabled", "record_enabled"],
        key.toList ∉ takenKeys .channel := by decide
    exact hkeys _ (otherValues_key hentry)
  extras entry hentry hindex :=
    passesPiece_onOneLine (h.values entry (List.mem_append_right _ hentry))
      (notMem_takenKeys (extra.fresh entry hentry) hindex)
  index := h.index
  profile p hp entry hentry := by
    refine passesPiece_onOneLine (h.profile p hp entry hentry) ?_
    have hkeys : ∀ key ∈ ["native_pixel_format", "mjpeg_quality", "h264_bitrate_bps", "h264_gop",
        "h264_preset", "h264_tune", "h264_profile"],
        key.toList ∉ takenKeys .channelProfile := by decide
    exact hkeys _ (otherProfileValues_key hentry)
  tables s hs := by
    obtain ⟨harray, hbare, hvalues⟩ := h.tables s hs
    obtain ⟨key, rest, hpath, hkey⟩ := otherSections_path hs
    refine ⟨?_, fun entry hentry => passesPiece_onOneLine (hvalues entry hentry) List.not_mem_nil⟩
    rw [harray, hpath]
    exact skipsTable_bare (hpath ▸ hbare) hkey

/-- A device whose other texts are on one line each is passed over where it has no tables of its
own. -/
theorem OnLines.passedOver {d : DeviceDocument α β} (h : OnLines style d) : PassedOver style d where
  values entry hentry := by
    refine passesPiece_onOneLine (h.values entry hentry) ?_
    have htaken : takenKeys .root =
        ["name", "driver", "id", "bus_root"].map String.toList := rfl
    rw [htaken, toList_mem]
    obtain hentry | hentry := List.mem_append.mp hentry
    · rw [optional_key hentry]
      decide
    · have hfresh := d.extra.fresh entry hentry
      simp only [deviceFields, List.mem_cons, List.not_mem_nil, or_false, not_or] at hfresh ⊢
      exact ⟨hfresh.1, hfresh.2.2.1, hfresh.2.2.2.1, hfresh.2.2.2.2.1⟩
  tables s hs := absurd (h.sections ▸ hs) List.not_mem_nil
  channels c hc := (h.channels c hc).passedOver

end Lines

section Samples

/-- How the characters of a string are escaped. -/
def escapeChar (c : Char) : Line :=
  if plainChar c then [c]
  else if c = '"' ∨ c = '\\' then ['\\', c]
  else ['\\', 'u', '0', '0', Nat.digitChar (c.toNat / 16), Nat.digitChar (c.toNat % 16)]

theorem escapeChar_other {c : Char} (h : plainChar c = false) :
    ∃ rest, escapeChar c = '\\' :: rest ∧ rest ≠ [] ∧ '#' ∉ rest ∧ '\n' ∉ rest ∧
      ('"' ∈ rest → c = '"') := by
  rw [escapeChar, if_neg (by simp [h])]
  split
  next hmark =>
    obtain rfl | rfl := hmark <;> exact ⟨_, rfl, by decide⟩
  next hmark =>
    rw [not_or] at hmark
    have hcode : c.toNat < 128 := by
      by_contra hlarge
      simp only [plainChar, Bool.and_eq_false_iff, decide_eq_false_iff_not, not_not] at h
      obtain ((h | h) | h) | h := h
      · exact hmark.1 h
      · exact hmark.2 h
      · omega
      · omega
    have hdigits : ∀ n < 128,
        '#' ∉ ['u', '0', '0', Nat.digitChar (n / 16), Nat.digitChar (n % 16)] ∧
          '\n' ∉ ['u', '0', '0', Nat.digitChar (n / 16), Nat.digitChar (n % 16)] ∧
          '"' ∉ ['u', '0', '0', Nat.digitChar (n / 16), Nat.digitChar (n % 16)] := by decide
    obtain ⟨hhash, hline, hquote⟩ := hdigits _ hcode
    exact ⟨_, rfl, List.cons_ne_nil _ _, hhash, hline, fun hm => absurd hm hquote⟩

theorem newline_notMem_escapeChar (c : Char) : '\n' ∉ escapeChar c := by
  cases hc : plainChar c with
  | true =>
    rw [escapeChar, if_pos hc, List.mem_singleton]
    exact fun heq => plainChar_ne hc (by decide) heq.symm
  | false =>
    obtain ⟨rest, hrest, -, -, hline, -⟩ := escapeChar_other hc
    rw [hrest, List.mem_cons, not_or]
    exact ⟨by decide, hline⟩

/-- A writer that keeps every string on one line: as a literal if it can be one. -/
def oneLineStyle : TomlStyle ℚ Empty where
  string s :=
    if Plain s then '"' :: s.toList ++ ['"']
    else if s.toList.all fun c => c ≠ '\'' && (plainChar c || c = '"' || c = '\\') then
      '\'' :: s.toList ++ ['\'']
    else '"' :: s.toList.flatMap escapeChar ++ ['"']
  quotedKey key := '"' :: key.toList.flatMap escapeChar ++ ['"']
  float x := (toString x).toList
  other := Empty.elim
  escape := escapeChar
  escapeLong := escapeChar
  string_plain s h := if_pos h
  string_line s _ h := by
    simp only [if_neg h]
    split
    next hliteral =>
      refine .inl ⟨['\''], by decide, rfl, fun hwithin => ?_⟩
      have hquote := List.all_eq_true.mp hliteral '\'' (hwithin.subset (List.mem_singleton_self _))
      exact absurd hquote (by decide)
    next => exact .inr (.inl rfl)
  escape_plain c h := if_pos h
  escape_other c h := escapeChar_other h
  escapeLong_eq c := .inl rfl
  quotedKey_line key := by
    have hline : '\n' ∉ key.toList.flatMap escapeChar := by
      simpa using fun c _ => newline_notMem_escapeChar c
    simpa using hline

def noExtra (fields : List String) : Flattened fields ℚ Empty :=
  ⟨[], [], List.nodup_nil, by simp, by simp⟩

def indexExtra : Flattened channelFields ℚ Empty :=
  ⟨[("stream_index", .integer 2)], [], by simp, by decide, by simp⟩

def colorChannel : DeviceChannelConfigV2 ℚ :=
  { channelType := "color", kind := .camera, channelLabel := some "RealSense #1"
    profile := some ⟨640, 480, 30, .rgb24, none, none, none, none, none, none, none⟩ }

def infraredChannel : DeviceChannelConfigV2 ℚ :=
  { channelType := "infrared", kind := .camera, enabled := false
    profile := some ⟨848, 480, 90, .gray8, none, none, none, none, none, none, none⟩ }

def sampleDevice (name : String) (channels : List (DeviceChannelConfigV2 ℚ)) :
    DeviceDocument ℚ Empty where
  config := { name, driver := "realsense", id := "332322071743", busRoot := "wrist", channels }
  extra := noExtra deviceFields
  channelExtra channelType := if channelType = "infrared" then indexExtra else noExtra channelFields

theorem sample_onLines :
    OnLines oneLineStyle (sampleDevice "wrist" [colorChannel, infraredChannel]) where
  values := by decide +kernel
  sections := rfl
  channels := by
    have hindex : ∀ value, ("stream_index", value) ∈ indexExtra.values →
        ∃ n : UInt32, value = u32Value n := by
      intro value hvalue
      cases List.mem_singleton.mp hvalue
      exact ⟨2, rfl⟩
    have hcolor : ChannelOnLines oneLineStyle colorChannel (noExtra channelFields) :=
      ⟨by decide +kernel, by simp [noExtra], by decide +kernel, by decide +kernel⟩
    have hinfrared : ChannelOnLines oneLineStyle infraredChannel indexExtra :=
      ⟨by decide +kernel, hindex, by decide +kernel, by decide +kernel⟩
    intro c hc
    obtain rfl | hc := List.mem_cons.mp hc
    · exact hcolor
    · cases List.mem_singleton.mp hc
      exact hinfrared

end Samples

section HandOff
variable {α β : Type} {platform : Platform α} {style : TomlStyle α β} {d : DeviceDocument α β}

theorem PlainIdentity.oneLine (h : PlainIdentity d.config) : OneLineIdentity d.config where
  name := newline_notMem_plain h.name
  driver := newline_notMem_plain h.driver
  id := newline_notMem_plain h.id
  busRoot := newline_notMem_plain h.busRoot
  channelTypes := fun c hc => newline_notMem_plain (h.channelTypes c hc)

/-- What is read of a text that comes line by line has no newline. -/
theorem ReadsBack.oneLine (h : ReadsBack style d) : OneLineIdentity d.config := by
  obtain ⟨executable, hparse⟩ := h
  obtain ⟨r, hread, hdevice, -⟩ := parse_ok_iff.mp hparse
  have hone := OneLined.parsed hread
  rw [hdevice] at hone
  exact ⟨hone.name, hone.driver, hone.id, hone.busRoot, fun c hc =>
    hone.channels _ (List.mem_map_of_mem hc)⟩

theorem readChannel_eq {c : DeviceChannelConfigV2 α} {extra : Flattened channelFields α β}
    (hline : '\n' ∉ c.channelType.toList) :
    readChannel style c extra = configuredChannel c extra ↔ Plain c.channelType := by
  rw [← asRead_string_iff style hline, readChannel, configuredChannel, Channel.mk.injEq]
  simp only [and_true]

theorem readDevice_eq {executable executable' : Option Line} (hlines : OneLineIdentity d.config) :
    readDevice style d executable = configuredDevice d executable' ↔
      executable = executable' ∧ PlainIdentity d.config := by
  rw [readDevice, readRoot, configuredDevice, Device.mk.injEq,
    asRead_string_iff style hlines.name, asRead_string_iff style hlines.driver,
    asRead_string_iff style hlines.id,
    asRead_string_iff style hlines.busRoot, List.map_inj_left]
  constructor
  · rintro ⟨hname, hexecutable, hdriver, hid, hbusRoot, hchannels⟩
    exact ⟨hexecutable, hname, hdriver, hid, hbusRoot, fun c hc =>
      (readChannel_eq (hlines.channelTypes c hc)).mp (hchannels c hc)⟩
  · rintro ⟨hexecutable, hname, hdriver, hid, hbusRoot, hchannels⟩
    exact ⟨hname, hexecutable, hdriver, hid, hbusRoot, fun c hc =>
      (readChannel_eq (hlines.channelTypes c hc)).mpr (hchannels c hc)⟩

theorem toList_ne_nil {s : String} (h : ¬ Text.blank s) : s.toList ≠ [] := by
  intro hs
  rw [Text.blank, hs] at h
  exact h rfl

/-- Where the driver passes over the rest, a device survives the hand-off exactly if nothing that
the driver takes has to be quoted in another way than between two marks. -/
theorem hand_off_iff (hvalid : d.config.validate platform = .ok ())
    (hformats : ∀ c ∈ d.config.channels, ∀ p ∈ c.profile, p.pixelFormat ≠ .nv12)
    (hpassed : PassedOver style d) : ReadsBack style d ↔ PlainIdentity d.config := by
  have haccepted := device_validate_iff.mp hvalid
  constructor
  · intro hback
    -- what is read has no newline, so that the texts stand on one line each
    have hlines := hback.oneLine
    obtain ⟨executable, current, hread⟩ := read_document haccepted.nonempty hformats hlines hpassed
    obtain ⟨executable', hparse⟩ := hback
    obtain ⟨r, hread', hdevice, -⟩ := parse_ok_iff.mp hparse
    have hr := Except.ok.inj (hread.symm.trans hread')
    exact ((readDevice_eq hlines).mp ((congrArg Reading.device hr).trans hdevice)).2
  · intro hplain
    obtain ⟨executable, current, hread⟩ :=
      read_document haccepted.nonempty hformats hplain.oneLine hpassed
    rw [(readDevice_eq hplain.oneLine).mpr ⟨rfl, hplain⟩] at hread
    refine ⟨executable, parse_ok_iff.mpr ⟨_, hread, rfl, ?_⟩⟩
    refine ⟨toList_ne_nil haccepted.name, toList_ne_nil haccepted.driver,
      toList_ne_nil haccepted.id, toList_ne_nil haccepted.busRoot, ?_⟩
    exact fun hnil => haccepted.nonempty (List.map_eq_nil_iff.mp hnil)

theorem hand_off_sample :
    ReadsBack oneLineStyle (sampleDevice "wrist" [colorChannel, infraredChannel]) := by
  have hvalid : (sampleDevice "wrist" [colorChannel, infraredChannel]).config.validate rationals =
      .ok () := by decide +kernel
  exact (hand_off_iff hvalid (by decide) sample_onLines.passedOver).mpr
    ⟨by decide, by decide, by decide, by decide, by decide⟩

/-- A name with quotation marks is written as a literal, whose quotes the driver takes for a part
of it. -/
theorem quoted_name_misread :
    (sampleDevice "wrist \"top\"" [colorChannel]).config.driver = "realsense" ∧
      (sampleDevice "wrist \"top\"" [colorChannel]).config.validate rationals = .ok () ∧
      (∀ c ∈ [colorChannel], ∀ p ∈ c.profile, p.pixelFormat ≠ .nv12) ∧
      ¬ ReadsBack oneLineStyle (sampleDevice "wrist \"top\"" [colorChannel]) := by
  refine ⟨rfl, by decide +kernel, by decide, ?_⟩
  rintro ⟨executable, h⟩
  have hname : (parseBinaryDeviceConfig (inlineConfig oneLineStyle
      (sampleDevice "wrist \"top\"" [colorChannel]))).toOption.map Device.name =
        some "'wrist \"top\"'".toList := by decide +kernel
  rw [h] at hname
  have hconfigured : "wrist \"top\"".toList = "'wrist \"top\"'".toList := Option.some.inj hname
  exact absurd hconfigured (by decide)

end HandOff

end DeviceHandOff
