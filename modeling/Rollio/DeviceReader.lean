import Rollio.DeviceConfigs
import Rollio.DeviceLines
import Rollio.PartialRuns

/-! The reader of a device's configuration in the C++ drivers: it goes through the text line by
line, and keeps in mind which table it is in. -/
namespace DeviceReader
open BusMessages Outcomes DeviceLines
open DeviceConfigs (DeviceType)
open PartialRuns (foldlM_fixed foldlM_preserves foldlM_total)
open TomlText (Line Bare)

/-- A map of keys and values, the newest first. -/
abbrev Values := List (Line × Line)

def parseU32 (values : Values) (key : String) : Except String UInt32 := do
  let raw ← okOr (values.lookup key.toList) ("missing required key: " ++ key)
  okOr (fromChars (trim raw)) ("failed to parse integer key: " ++ key)

def parseRequiredString (values : Values) (key : String) : Except String Line := do
  let raw ← okOr (values.lookup key.toList) ("missing required key: " ++ key)
  if stripQuotes raw = [] then throw ("key must not be empty: " ++ key)
  return stripQuotes raw

/-- What stands between the first opening brace and the last closing one. -/
def extractBracedInlineTable (value : Line) : Except String Line :=
  match (trim value).dropWhile (· ≠ '\x7b') with
  | [] => .error "expected inline table \x7b ... \x7d"
  | _ :: behind =>
    if '\x7d' ∈ behind then .ok (trim (behind.rdropWhile (· ≠ '\x7d')).dropLast)
    else .error "expected inline table \x7b ... \x7d"

/-- A string up to its closing quotation mark, and what follows it. -/
def quotedText : Line → Except String (Line × Line)
  | [] => .error "unterminated string in inline table"
  | '"' :: rest => .ok ([], rest)
  | '\\' :: next :: rest => do
    let (value, rest) ← quotedText rest
    return (next :: value, rest)
  | c :: rest => do
    let (value, rest) ← quotedText rest
    return (c :: value, rest)

/-- The entries in their order; each of them takes at least its `=`, so that the length of the text
is fuel enough. -/
def inlineEntries : ℕ → Line → Except String Values
  | 0, _ => .ok []
  | fuel + 1, inner =>
    match inner.dropWhile fun c => c = ' ' || c = '\t' || c = ',' with
    | [] => .ok []
    | fragment =>
      match fragment.span (· ≠ '=') with
      | (_, []) => .error "invalid inline table fragment"
      | (before, _ :: after) =>
        match after.dropWhile fun c => c = ' ' || c = '\t' with
        | [] => .error ("missing value in inline table for key: " ++ String.ofList (trim before))
        | '"' :: body => do
          let (value, rest) ← quotedText body
          let entries ← inlineEntries fuel rest
          return (trim before, value) :: entries
        | body => do
          let (raw, rest) := body.span fun c => c ≠ ',' && c ≠ ' ' && c ≠ '\t'
          let entries ← inlineEntries fuel rest
          return (trim before, trim raw) :: entries

def parseInlineTableMap (inner : Line) : Except String Values := do
  let entries ← inlineEntries inner.length inner
  return entries.reverse

/-- The names of the formats, as both sides spell them. -/
def pixelFormatName : PixelFormat → String
  | .rgb24 => "rgb24"
  | .bgr24 => "bgr24"
  | .yuyv => "yuyv"
  | .mjpeg => "mjpeg"
  | .depth16 => "depth16"
  | .gray8 => "gray8"
  | .h264AnnexB => "h264-annex-b"
  | .nv12 => "nv12"

/-- The drivers do not know NV12. -/
def pixelFormatFromString (value : Line) : Option PixelFormat :=
  [PixelFormat.rgb24, .bgr24, .yuyv, .mjpeg, .depth16, .gray8, .h264AnnexB].find? fun format =>
    (pixelFormatName format).toList = value

def deviceKindName : DeviceType → String
  | .camera => "camera"
  | .robot => "robot"

def deviceKindFromString (value : Line) : Option DeviceType :=
  [DeviceType.camera, .robot].find? fun kind => (deviceKindName kind).toList = value

structure Profile where
  width : UInt32 := 0
  height : UInt32 := 0
  fps : UInt32 := 0
  pixelFormat : PixelFormat := .rgb24
  deriving DecidableEq, Repr

structure Channel where
  channelType : Line := []
  kind : DeviceType := .camera
  enabled : Bool := true
  profile : Option Profile := none
  streamIndex : Option UInt32 := none
  deriving DecidableEq, Repr

structure Device where
  name : Line := []
  executable : Option Line := none
  driver : Line := []
  id : Line := []
  busRoot : Line := []
  channels : List Channel := []
  deriving DecidableEq, Repr

def parsePixelFormat (name : Line) : Except String PixelFormat :=
  okOr (pixelFormatFromString name) ("unsupported pixel_format: " ++ String.ofList name)

def parseProfileFromValue (value : Line) : Except String Profile := do
  let inner ← extractBracedInlineTable value
  let fields ← parseInlineTableMap inner
  let width ← parseU32 fields "width"
  let height ← parseU32 fields "height"
  let fps ← parseU32 fields "fps"
  let name ← parseRequiredString fields "pixel_format"
  let pixelFormat ← parsePixelFormat name
  return { width, height, fps, pixelFormat }

inductive Section where
  | root | channel | channelProfile | channelSkip
  deriving DecidableEq, Repr

/-- What has been read, and the table that the next keys belong to. -/
structure Reading where
  device : Device := {}
  current : Section := .root
  deriving DecidableEq, Repr

def Reading.setLast (r : Reading) (c : Channel) : Reading :=
  { r with device := { r.device with channels := r.device.channels.dropLast ++ [c] } }

def readHeader (r : Reading) (header : Line) : Except String Reading :=
  if header = "[[channels]]".toList ∨ header = "[[devices.channels]]".toList then
    .ok { device := { r.device with channels := r.device.channels ++ [{}] }, current := .channel }
  else if "[channels.".toList <+: header ∨ "[devices.channels.".toList <+: header then
    match r.device.channels.getLast? with
    | none =>
      .error ("channel sub-table before first [[channels]] entry: " ++ String.ofList header)
    | some c =>
      if header = "[channels.profile]".toList ∨ header = "[devices.channels.profile]".toList then
        .ok { r.setLast { c with profile := some (c.profile.getD {}) } with
          current := .channelProfile }
      else .ok { r with current := .channelSkip }
  else .error ("unsupported TOML table header: " ++ String.ofList header)

def Device.set (d : Device) (key raw : Line) : Device :=
  if key = "name".toList then { d with name := stripQuotes raw }
  else if key = "executable".toList then { d with executable := some (stripQuotes raw) }
  else if key = "driver".toList then { d with driver := stripQuotes raw }
  else if key = "id".toList then { d with id := stripQuotes raw }
  else if key = "bus_root".toList then { d with busRoot := stripQuotes raw }
  else d

def Channel.set (c : Channel) (key raw : Line) : Except String Channel :=
  if key = "channel_type".toList then .ok { c with channelType := stripQuotes raw }
  else if key = "kind".toList then do
    let kind ← okOr (deviceKindFromString (stripQuotes raw)) "unsupported channel kind"
    return { c with kind }
  else if key = "enabled".toList then do
    let enabled ← parseBoolValue raw
    return { c with enabled }
  else if key = "profile".toList then do
    let profile ← parseProfileFromValue raw
    return { c with profile := some profile }
  else if key = "stream_index".toList then do
    let streamIndex ← parseU32Value raw
    return { c with streamIndex := some streamIndex }
  else .ok c

def Profile.set (p : Profile) (key raw : Line) : Except String Profile :=
  if key = "width".toList then do
    let width ← parseU32Value raw
    return { p with width }
  else if key = "height".toList then do
    let height ← parseU32Value raw
    return { p with height }
  else if key = "fps".toList then do
    let fps ← parseU32Value raw
    return { p with fps }
  else if key = "pixel_format".toList then do
    let pixelFormat ← parsePixelFormat (stripQuotes raw)
    return { p with pixelFormat }
  else .ok p

def readEntry (r : Reading) (key raw : Line) : Except String Reading :=
  match r.current with
  | .root => .ok { r with device := r.device.set key raw }
  | .channel => do
    let c ← okOr r.device.channels.getLast? "channel key before first [[channels]] table"
    let c ← c.set key raw
    return r.setLast c
  | .channelProfile => do
    let c ← okOr r.device.channels.getLast? "profile key without [channels.profile] table"
    let p ← okOr c.profile "profile key without [channels.profile] table"
    let p ← p.set key raw
    return r.setLast { c with profile := some p }
  | .channelSkip => .ok r

def readLine (r : Reading) (raw : Line) : Except String Reading :=
  match stripComment raw with
  | [] => .ok r
  | first :: rest =>
    if (trim (first :: rest)).head? = some '[' then readHeader r (trim (first :: rest))
    else do
      let (key, value) ← splitKeyValue (first :: rest)
      readEntry r key value

def parseBinaryDeviceConfig (text : List Char) : Except String Device := do
  let r ← (text.splitOn '\n').foldlM readLine {}
  if r.device.name = [] ∨ r.device.driver = [] ∨ r.device.id = [] ∨ r.device.busRoot = [] then
    throw "binary device config requires name, driver, id, and bus_root"
  if r.device.channels = [] then
    throw "binary device config requires at least one [[channels]] entry"
  return r.device

section Passing

/-- The line of a bare key is read as an entry of that key. -/
theorem readLine_bare (h : Bare key) (r : Reading) (value : Line) :
    readLine r (entryLine key.toList value) = readEntry r key.toList (written value) := by
  obtain ⟨first, rest, hline, hheader, hsplit⟩ := line_bare h value
  simp only [readLine, hline, if_neg hheader, hsplit]
  rfl

/-- A channel for the keys of a channel, and a profile for those of a profile. -/
def Reading.Ready (r : Reading) : Prop :=
  ∃ c, r.device.channels.getLast? = some c ∧ (r.current = .channelProfile → c.profile.isSome = true)

/-- The keys whose values are taken from a table, but for the executable. -/
def takenKeys : Section → List Line
  | .root => ["name".toList, "driver".toList, "id".toList, "bus_root".toList]
  | .channel => ["channel_type".toList, "kind".toList, "enabled".toList, "profile".toList,
      "stream_index".toList]
  | .channelProfile => ["width".toList, "height".toList, "fps".toList, "pixel_format".toList]
  | .channelSkip => []

/-- A line of a table that the reader passes over: it is blank, or it has a key and the key is not
taken. -/
def passes (current : Section) (line : Line) : Bool :=
  match stripComment line with
  | [] => true
  | first :: rest =>
    (trim (first :: rest)).head? ≠ some '[' &&
      match splitKeyValue (first :: rest) with
      | .ok (key, _) => key ∉ takenKeys current
      | .error _ => false

theorem passes_bare {key : String} {current : Section} (h : Bare key)
    (hkey : key.toList ∉ takenKeys current) (value : Line) :
    passes current (entryLine key.toList value) = true := by
  obtain ⟨first, rest, hline, hheader, hsplit⟩ := line_bare h value
  simp only [passes, hline, hsplit, Bool.and_eq_true, decide_eq_true_eq]
  exact ⟨hheader, hkey⟩

/-- The header of a table within a channel that is not its profile. -/
def skipsTable (line : Line) : Bool :=
  let header := trim (stripComment line)
  ("[channels.".toList <+: header ∨ "[devices.channels.".toList <+: header) ∧
    header ≠ "[channels.profile]".toList ∧ header ≠ "[devices.channels.profile]".toList

theorem skipsTable_header {tail : Line} (hchars : ∀ c ∈ tail, c ≠ '"' ∧ c ≠ '#')
    (hprofile : tail ≠ "profile".toList) :
    skipsTable ("[channels.".toList ++ tail ++ [']']) = true := by
  have hunmarked : ∀ c ∈ "[channels.".toList ++ tail ++ [']'],
      c ≠ '"' ∧ (c = '#' → false = true) := by
    intro c hc
    rw [List.mem_append, List.mem_append] at hc
    obtain (hc | hc) | hc := hc
    · have hquote : '"' ∉ "[channels.".toList := by decide
      have hhash : '#' ∉ "[channels.".toList := by decide
      exact ⟨ne_of_mem_of_not_mem hc hquote, fun heq => absurd (heq ▸ hc) hhash⟩
    · exact ⟨(hchars c hc).1, fun heq => absurd heq (hchars c hc).2⟩
    · cases List.mem_singleton.mp hc
      decide
  have hsolid : Solid ("[channels.".toList ++ tail ++ [']']) := by
    refine ⟨fun c hc => ?_, fun c hc => ?_⟩
    · have hhead : some '[' = some c := hc
      cases hhead
      rfl
    · rw [List.getLast?_concat] at hc
      cases hc
      rfl
  have htext : trim (stripComment ("[channels.".toList ++ tail ++ [']'])) =
      "[channels.".toList ++ tail ++ [']'] := by
    rw [stripComment, uncommented_self (quotesAfter_unmarked hunmarked), trim_solid hsolid,
      trim_solid hsolid]
  simp only [skipsTable, htext, decide_eq_true_eq]
  refine ⟨.inl ⟨tail ++ [']'], by rw [List.append_assoc]⟩, fun heq => hprofile ?_, fun heq => ?_⟩
  · have hsplit : "[channels.profile]".toList =
        "[channels.".toList ++ "profile".toList ++ [']'] := by decide
    rw [hsplit] at heq
    exact List.append_cancel_left (List.append_cancel_right heq)
  · have hsecond : '[' :: 'c' :: ("hannels.".toList ++ tail ++ [']']) =
        '[' :: 'd' :: "evices.channels.profile]".toList := heq
    injection hsecond with _ hsecond
    injection hsecond with hsecond
    exact absurd hsecond (by decide)

variable {r : Reading} {line : Line}

theorem setLast_self {c : Channel} (h : r.device.channels.getLast? = some c) :
    r.setLast c = r := by
  obtain ⟨front, hfront⟩ := List.getLast?_eq_some_iff.mp h
  simp only [Reading.setLast, hfront, List.dropLast_concat]
  rw [← hfront]

theorem readEntry_inner {key raw : Line} (hr : r.Ready) (hroot : r.current ≠ .root)
    (hkey : key ∉ takenKeys r.current) : readEntry r key raw = .ok r := by
  obtain ⟨c, hlast, hprofile⟩ := hr
  cases hcurrent : r.current with
  | root => exact absurd hcurrent hroot
  | channelSkip => simp only [readEntry, hcurrent]
  | channel =>
    rw [hcurrent] at hkey
    simp only [takenKeys, List.mem_cons, List.not_mem_nil, or_false, not_or] at hkey
    obtain ⟨h1, h2, h3, h4, h5⟩ := hkey
    simp only [readEntry, hcurrent, hlast, okOr, Channel.set, if_neg h1, if_neg h2, if_neg h3,
      if_neg h4, if_neg h5]
    exact congrArg Except.ok (setLast_self hlast)
  | channelProfile =>
    rw [hcurrent] at hkey
    simp only [takenKeys, List.mem_cons, List.not_mem_nil, or_false, not_or] at hkey
    obtain ⟨h1, h2, h3, h4⟩ := hkey
    obtain ⟨p, hp⟩ := Option.isSome_iff_exists.mp (hprofile hcurrent)
    have hset : readEntry r key raw = .ok (r.setLast { c with profile := some p }) := by
      simp only [readEntry, hcurrent, hlast, okOr, bind, Except.bind, hp, Profile.set, if_neg h1,
        if_neg h2, if_neg h3, if_neg h4]
      rfl
    rw [hset, ← hp]
    exact congrArg Except.ok (setLast_self hlast)

theorem readEntry_root {key raw : Line} (hkey : key ∉ takenKeys .root) (d : Device) :
    ∃ executable, readEntry { device := d } key raw =
      .ok { device := { d with executable } } := by
  simp only [takenKeys, List.mem_cons, List.not_mem_nil, or_false, not_or] at hkey
  obtain ⟨h1, h2, h3, h4⟩ := hkey
  simp only [readEntry, Device.set, if_neg h1, if_neg h2, if_neg h3, if_neg h4]
  by_cases hexecutable : key = "executable".toList
  · rw [if_pos hexecutable]
    exact ⟨some (stripQuotes raw), rfl⟩
  · rw [if_neg hexecutable]
    exact ⟨d.executable, rfl⟩

theorem readLine_passed (h : passes r.current line = true) :
    readLine r line = .ok r ∨
      ∃ key raw, key ∉ takenKeys r.current ∧ readLine r line = readEntry r key raw := by
  simp only [passes, readLine] at h ⊢
  cases hline : stripComment line with
  | nil => exact .inl rfl
  | cons first rest =>
    simp only [hline, Bool.and_eq_true, decide_eq_true_eq] at h
    obtain ⟨hheader, hsplit⟩ := h
    simp only [if_neg hheader]
    cases hentry : splitKeyValue (first :: rest) with
    | error message =>
      rw [hentry] at hsplit
      cases hsplit
    | ok entry =>
      rw [hentry] at hsplit
      exact .inr ⟨entry.1, entry.2, of_decide_eq_true hsplit, rfl⟩

theorem readLine_inner (hr : r.Ready) (hroot : r.current ≠ .root)
    (h : passes r.current line = true) : readLine r line = .ok r := by
  obtain hline | ⟨key, raw, hkey, hline⟩ := readLine_passed h
  · exact hline
  · rw [hline]
    exact readEntry_inner hr hroot hkey

theorem readLine_root (h : passes .root line = true) (d : Device) :
    ∃ executable, readLine { device := d } line = .ok { device := { d with executable } } := by
  obtain hline | ⟨key, raw, hkey, hline⟩ := readLine_passed (r := { device := d }) h
  · exact ⟨d.executable, hline⟩
  · rw [hline]
    exact readEntry_root hkey d

theorem readLine_skip {c : Channel} (hlast : r.device.channels.getLast? = some c)
    (h : skipsTable line = true) : readLine r line = .ok { r with current := .channelSkip } := by
  simp only [skipsTable, decide_eq_true_eq] at h
  obtain ⟨hbegins, hprofile, hdevices⟩ := h
  have hopens : ∃ second rest, trim (stripComment line) = '[' :: second :: rest ∧ second ≠ '[' := by
    obtain ⟨rest, hrest⟩ | ⟨rest, hrest⟩ := hbegins
    · exact ⟨'c', _, hrest.symm, by decide⟩
    · exact ⟨'d', _, hrest.symm, by decide⟩
  obtain ⟨second, rest, htrim, hsecond⟩ := hopens
  have hchannels : ∀ tail, '[' :: second :: rest ≠ '[' :: '[' :: tail := by
    intro tail heq
    injection heq with _ heq
    injection heq with heq _
    exact hsecond heq
  rw [htrim] at hbegins hprofile hdevices
  cases hline : stripComment line with
  | nil =>
    rw [hline] at htrim
    cases htrim
  | cons first others =>
    rw [hline] at htrim
    simp only [readLine, hline, htrim, List.head?_cons, if_pos, readHeader]
    have hnew : ¬ ('[' :: second :: rest = "[[channels]]".toList ∨
        '[' :: second :: rest = "[[devices.channels]]".toList) :=
      not_or.mpr ⟨hchannels "channels]]".toList, hchannels "devices.channels]]".toList⟩
    rw [if_neg hnew, if_pos hbegins]
    simp only [hlast]
    rw [if_neg (not_or.mpr ⟨hprofile, hdevices⟩)]

end Passing

section Pieces
variable {r : Reading}

/-- A piece of a document, whose lines are read one after the other. -/
def readPiece (r : Reading) (piece : Line) : Except String Reading :=
  (piece.splitOn '\n').foldlM readLine r

theorem read_endLines (pieces : List Line) (r : Reading) :
    ((TomlText.endLines pieces).splitOn '\n').foldlM readLine r = pieces.foldlM readPiece r := by
  rw [TomlText.splitOn_endLines, List.foldlM_append]
  have hblank : ∀ r : Reading, [[]].foldlM readLine r = pure r := fun _ => rfl
  simp only [hblank, bind_pure]
  induction pieces generalizing r with
  | nil => rfl
  | cons piece rest ih =>
    rw [List.flatMap_cons, List.foldlM_append, List.foldlM_cons]
    exact congrArg (readPiece r piece >>= ·) (funext ih)

theorem readPiece_line {line : Line} (h : '\n' ∉ line) : readPiece r line = readLine r line := by
  rw [readPiece, List.splitOn_eq_singleton h, List.foldlM_cons]
  exact bind_pure _

/-- All lines of a piece are passed over. -/
def passesPiece (current : Section) (piece : Line) : Prop :=
  ∀ line ∈ piece.splitOn '\n', passes current line = true

instance (current : Section) (piece : Line) : Decidable (passesPiece current piece) :=
  inferInstanceAs (Decidable (∀ line ∈ _, _))

theorem readPiece_inner {piece : Line} (hr : r.Ready) (hroot : r.current ≠ .root)
    (h : passesPiece r.current piece) : readPiece r piece = .ok r :=
  foldlM_fixed fun line hline => readLine_inner hr hroot (h line hline)

theorem readPieces_inner {pieces : List Line} (hr : r.Ready) (hroot : r.current ≠ .root)
    (h : ∀ piece ∈ pieces, passesPiece r.current piece) : pieces.foldlM readPiece r = .ok r :=
  foldlM_fixed fun piece hpiece => readPiece_inner hr hroot (h piece hpiece)

theorem readPieces_root {pieces : List Line} (h : ∀ piece ∈ pieces, passesPiece .root piece)
    (d : Device) :
    ∃ executable, pieces.foldlM readPiece { device := d } =
      .ok { device := { d with executable } } := by
  have hline : ∀ piece ∈ pieces, ∀ line ∈ piece.splitOn '\n', ∀ r : Reading,
      (∃ executable, r = { device := { d with executable } }) →
        ∃ s, readLine r line = .ok s ∧ ∃ executable, s = { device := { d with executable } } := by
    rintro piece hpiece line hline r ⟨executable, rfl⟩
    obtain ⟨executable', hread⟩ := readLine_root (h piece hpiece line hline) { d with executable }
    exact ⟨_, hread, executable', rfl⟩
  have hpiece : ∀ piece ∈ pieces, ∀ r : Reading,
      (∃ executable, r = { device := { d with executable } }) →
        ∃ s, readPiece r piece = .ok s ∧ ∃ executable, s = { device := { d with executable } } :=
    fun piece hpiece r hr => foldlM_total (hline piece hpiece) hr
  obtain ⟨r, hread, executable, rfl⟩ := foldlM_total hpiece ⟨d.executable, rfl⟩
  exact ⟨executable, hread⟩

theorem parse_ok_iff {pieces : List Line} {device : Device} :
    parseBinaryDeviceConfig (TomlText.endLines pieces) = .ok device ↔
      ∃ r, pieces.foldlM readPiece {} = .ok r ∧ r.device = device ∧ device.name ≠ [] ∧
        device.driver ≠ [] ∧ device.id ≠ [] ∧ device.busRoot ≠ [] ∧ device.channels ≠ [] := by
  rw [parseBinaryDeviceConfig, read_endLines, bind_eq_ok]
  simp only [check_eq_ok, pure_eq_ok, not_or]
  constructor
  · rintro ⟨r, hr, ⟨hname, hdriver, hid, hroot⟩, hchannels, rfl⟩
    exact ⟨r, hr, rfl, hname, hdriver, hid, hroot, hchannels⟩
  · rintro ⟨r, hr, rfl, hname, hdriver, hid, hroot, hchannels⟩
    exact ⟨r, hr, ⟨hname, hdriver, hid, hroot⟩, hchannels, rfl⟩

end Pieces

section Newlines

theorem mem_trim {c : Char} {l : Line} (h : c ∈ trim l) : c ∈ l := by
  have hkept : trim l <+: l.dropWhile isSpace := List.rdropWhile_prefix _ _
  exact (List.dropWhile_sublist isSpace).subset (hkept.subset h)

theorem mem_stripComment {c : Char} {l : Line} (h : c ∈ stripComment l) : c ∈ l := by
  have hmem := mem_trim h
  obtain hcut | ⟨tail, hcut⟩ := uncommented_cut false l
  · exact hcut ▸ hmem
  · rw [← hcut]
    exact List.mem_append_left _ hmem

theorem mem_stripQuotes {c : Char} {l : Line} (h : c ∈ stripQuotes l) : c ∈ l := by
  apply mem_trim
  rw [stripQuotes] at h
  cases htrim : trim l with
  | nil =>
    rw [htrim] at h
    cases h
  | cons first rest =>
    rw [htrim] at h
    by_cases hquoted : first = '"' ∧ rest.getLast? = some '"'
    · simp only [if_pos hquoted] at h
      exact List.mem_cons_of_mem first (List.dropLast_subset rest h)
    · simp only [if_neg hquoted] at h
      exact h

theorem mem_value {c : Char} {line key value : Line} (h : splitKeyValue line = .ok (key, value))
    (hc : c ∈ value) : c ∈ line := by
  rw [splitKeyValue, List.span_eq_takeWhile_dropWhile] at h
  cases hafter : line.dropWhile (· ≠ '=') with
  | nil =>
    rw [hafter] at h
    cases h
  | cons e after =>
    rw [hafter] at h
    by_cases hkey : trim (line.takeWhile (· ≠ '=')) = []
    · simp only [if_pos hkey] at h
      cases h
    · simp only [if_neg hkey] at h
      cases h
      have hmem : c ∈ line.dropWhile (· ≠ '=') := hafter ▸ List.mem_cons_of_mem e (mem_trim hc)
      exact (List.dropWhile_sublist _).subset hmem

/-- What is taken of a text that comes line by line has no newline. -/
structure OneLined (d : Device) : Prop where
  name : '\n' ∉ d.name
  driver : '\n' ∉ d.driver
  id : '\n' ∉ d.id
  busRoot : '\n' ∉ d.busRoot
  channels : ∀ c ∈ d.channels, '\n' ∉ c.channelType

theorem OneLined.setLast {r : Reading} (h : OneLined r.device) {c : Channel}
    (hc : '\n' ∉ c.channelType) : OneLined (r.setLast c).device := by
  refine ⟨h.name, h.driver, h.id, h.busRoot, fun d hd => ?_⟩
  obtain hd | hd := List.mem_append.mp hd
  · exact h.channels d (List.dropLast_subset _ hd)
  · exact List.mem_singleton.mp hd ▸ hc

theorem OneLined.readHeader {r r' : Reading} {header : Line} (h : OneLined r.device)
    (hread : readHeader r header = .ok r') : OneLined r'.device := by
  rw [DeviceReader.readHeader] at hread
  split at hread
  · cases hread
    refine ⟨h.name, h.driver, h.id, h.busRoot, fun d hd => ?_⟩
    obtain hd | hd := List.mem_append.mp hd
    · exact h.channels d hd
    · exact List.mem_singleton.mp hd ▸ List.not_mem_nil
  · split at hread
    · cases hlast : r.device.channels.getLast? with
      | none =>
        simp only [hlast] at hread
        cases hread
      | some c =>
        simp only [hlast] at hread
        have hc := h.channels c (List.mem_of_getLast? hlast)
        split at hread
        · cases hread
          exact h.setLast hc
        · cases hread
          exact h
    · cases hread

theorem channelType_set {c c' : Channel} {key raw : Line} (hc : '\n' ∉ c.channelType)
    (hraw : '\n' ∉ raw) (h : c.set key raw = .ok c') : '\n' ∉ c'.channelType := by
  rw [Channel.set] at h
  split at h
  · cases h
    exact fun hm => hraw (mem_stripQuotes hm)
  · split at h
    · obtain ⟨kind, -, h⟩ := bind_eq_ok.mp h
      cases h
      exact hc
    · split at h
      · obtain ⟨enabled, -, h⟩ := bind_eq_ok.mp h
        cases h
        exact hc
      · split at h
        · obtain ⟨profile, -, h⟩ := bind_eq_ok.mp h
          cases h
          exact hc
        · split at h
          · obtain ⟨streamIndex, -, h⟩ := bind_eq_ok.mp h
            cases h
            exact hc
          · cases h
            exact hc

theorem OneLined.readEntry {r r' : Reading} {key raw : Line} (h : OneLined r.device)
    (hraw : '\n' ∉ raw) (hread : readEntry r key raw = .ok r') : OneLined r'.device := by
  have hquotes : '\n' ∉ stripQuotes raw := fun hm => hraw (mem_stripQuotes hm)
  rw [DeviceReader.readEntry] at hread
  cases hcurrent : r.current with
  | root =>
    rw [hcurrent] at hread
    cases hread
    rw [Device.set]
    split
    · exact { h with name := hquotes }
    · split
      · exact ⟨h.name, h.driver, h.id, h.busRoot, h.channels⟩
      · split
        · exact { h with driver := hquotes }
        · split
          · exact { h with id := hquotes }
          · split
            · exact { h with busRoot := hquotes }
            · exact h
  | channel =>
    rw [hcurrent] at hread
    simp only [bind_eq_ok, okOr_eq_ok] at hread
    obtain ⟨c, hlast, c', hset, hread⟩ := hread
    cases hread
    exact h.setLast (channelType_set (h.channels c (List.mem_of_getLast? hlast)) hraw hset)
  | channelProfile =>
    rw [hcurrent] at hread
    simp only [bind_eq_ok, okOr_eq_ok] at hread
    obtain ⟨c, hlast, p, -, p', -, hread⟩ := hread
    cases hread
    exact h.setLast (c := { c with profile := some p' }) (h.channels c (List.mem_of_getLast? hlast))
  | channelSkip =>
    rw [hcurrent] at hread
    cases hread
    exact h

theorem OneLined.readLine {r r' : Reading} {line : Line} (h : OneLined r.device)
    (hline : '\n' ∉ line) (hread : readLine r line = .ok r') : OneLined r'.device := by
  rw [DeviceReader.readLine] at hread
  cases hstrip : stripComment line with
  | nil =>
    rw [hstrip] at hread
    cases hread
    exact h
  | cons first rest =>
    simp only [hstrip] at hread
    split at hread
    · exact h.readHeader hread
    · obtain ⟨entry, hsplit, hread⟩ := bind_eq_ok.mp hread
      refine h.readEntry (fun hm => hline ?_) hread
      exact mem_stripComment (hstrip ▸ mem_value hsplit hm)

theorem OneLined.parsed {pieces : List Line} {r : Reading}
    (h : pieces.foldlM readPiece {} = .ok r) : OneLined r.device := by
  rw [← read_endLines] at h
  refine foldlM_preserves (P := fun r => OneLined r.device) (fun line hline r r' hr hread =>
    hr.readLine (TomlText.newline_notMem_splitOn hline) hread) ?_ h
  constructor <;> simp

end Newlines

end DeviceReader
