import Mathlib.Logic.Function.Basic
import Rollio.PreviewMessages

/-! The preview decoders of the browser: the socket's handlers remember the key that they last
configured a camera with, and the registry holds the camera's decoder. -/
namespace PreviewDecoders
open PreviewMessages

def naluStarts : ℕ → ℕ → List UInt8 → List (ℕ × ℕ)
  | _, _, [] => []
  | i, skip + 1, _ :: rest => naluStarts (i + 1) skip rest
  | i, 0, byte :: rest =>
    if (byte :: rest).take 3 = [0, 0, 1] then (i + 3, 3) :: naluStarts (i + 1) 2 rest
    else if (byte :: rest).take 4 = [0, 0, 0, 1] then (i + 4, 4) :: naluStarts (i + 1) 3 rest
    else naluStarts (i + 1) 0 rest

def firstNalu (bytes : List UInt8) (wanted : UInt8) : List (ℕ × ℕ) → Option (List UInt8)
  | [] => none
  | (start, _) :: rest =>
    let stop := (rest.head?.map fun next => next.1 - next.2).getD bytes.length
    match (bytes.take stop).drop start with
    | [] => firstNalu bytes wanted rest
    | header :: body =>
      if header &&& 0x1f = wanted then some (header :: body) else firstNalu bytes wanted rest

def findAnnexBNalu (bytes : List UInt8) (wanted : UInt8) : Option (List UInt8) :=
  firstNalu bytes wanted (naluStarts 0 0 bytes)

def hexPair (byte : UInt8) : String :=
  let digit := fun n => "0123456789ABCDEF".toList.getD n '0'
  String.ofList [digit (byte.toNat / 16), digit (byte.toNat % 16)]

def codecStringFor (codecId : ℕ) (description : List UInt8) : Option String :=
  match codecId with
  | 0 =>
    match findAnnexBNalu description 7 with
    | some (_ :: profile :: compat :: level :: _) =>
      some ("avc1." ++ hexPair profile ++ hexPair compat ++ hexPair level)
    | _ => some "avc1.42E01F"
  | 1 => some "hev1.1.6.L93.B0"
  | 2 => some "av01.0.04M.08"
  | _ => none

structure VideoDecoderConfig where
  codec : String
  codedWidth : ℕ
  codedHeight : ℕ
  deriving DecidableEq, Repr

/-- A decoder closes when it has met an error. -/
inductive DecoderState where
  | configured | closed
  deriving DecidableEq, Repr

/-- What a configuration key spells out, `codecId@WxH`. -/
structure ConfigKey where
  codecId : ℕ
  width : ℕ
  height : ℕ
  deriving DecidableEq, Repr

def configKey (msg : EncodedPacketMessage) : ConfigKey :=
  { codecId := msg.codecId, width := msg.width, height := msg.height }

structure DecoderEntry where
  state : DecoderState := .configured
  config : VideoDecoderConfig
  key : ConfigKey
  chunks : ℕ := 0
  deriving DecidableEq, Repr

structure Preview where
  decoderConfigKey : String → Option ConfigKey := fun _ => none
  entries : String → Option DecoderEntry := fun _ => none

structure Browser where
  available : Bool
  throws : VideoDecoderConfig → Bool

structure Handed where
  entry : DecoderEntry
  msg : EncodedPacketMessage
  deriving DecidableEq, Repr

def Preview.close (r : Preview) (name : String) : Preview :=
  { r with entries := Function.update r.entries name none }

def Preview.configure (browser : Browser) (r : Preview) (msg : EncodedPacketMessage) : Preview :=
  if browser.available then
    match codecStringFor msg.codecId msg.payload with
    | none => r
    | some codec =>
      let r := r.close msg.name
      let config : VideoDecoderConfig :=
        { codec, codedWidth := msg.width, codedHeight := msg.height }
      if browser.throws config then r
      else
        { r with entries :=
            Function.update r.entries msg.name (some { config, key := configKey msg }) }
  else r

def Preview.decode (r : Preview) (msg : EncodedPacketMessage) : Preview × Option Handed :=
  match r.entries msg.name with
  | none => (r, none)
  | some entry =>
    match entry.state with
    | .closed => (r, none)
    | .configured =>
      ({ r with entries :=
          Function.update r.entries msg.name (some { entry with chunks := entry.chunks + 1 }) },
        some { entry, msg })

/-- A keyframe with a key other than the last one configures the camera's decoder anew. -/
def Preview.prepared (browser : Browser) (r : Preview) (msg : EncodedPacketMessage) : Preview :=
  if msg.isKeyframe ∧ r.decoderConfigKey msg.name ≠ some (configKey msg) then
    Preview.configure browser
      { r with decoderConfigKey :=
          Function.update r.decoderConfigKey msg.name (some (configKey msg)) } msg
  else r

def Preview.onEncodedPacket (browser : Browser) (r : Preview) (msg : EncodedPacketMessage) :
    Preview × Option Handed :=
  (r.prepared browser msg).decode msg

/-- The error callback runs, and the decoder is closed; its entry stays. -/
def Preview.onDecoderError (r : Preview) (name : String) : Preview :=
  let errored := (r.entries name).map fun entry => { entry with state := .closed }
  { r with entries := Function.update r.entries name errored }

def Preview.onConnectedChange (r : Preview) (value : Bool) : Preview :=
  if value then r else {}

inductive Event where
  | encodedPacket (browser : Browser) (msg : EncodedPacketMessage)
  | decoderError (name : String)
  | connectedChange (value : Bool)

def Preview.handle (r : Preview) : Event → Preview × Option Handed
  | .encodedPacket browser msg => r.onEncodedPacket browser msg
  | .decoderError name => (r.onDecoderError name, none)
  | .connectedChange value => (r.onConnectedChange value, none)

/-- A decoder that takes chunks. -/
def Open (r : Preview) (name : String) (entry : DecoderEntry) : Prop :=
  r.entries name = some entry ∧ entry.state = .configured

/-- The camera's decoder could be configured for a packet. -/
def Configurable (browser : Browser) (msg : EncodedPacketMessage) : Prop :=
  ∃ codec, codecStringFor msg.codecId msg.payload = some codec ∧
    browser.throws { codec, codedWidth := msg.width, codedHeight := msg.height } = false

/-- A keyframe leaves an open decoder, unless there can be none, and a chunk goes to a decoder for
its codec and size, which begins with a keyframe. -/
structure EventLaw (r : Preview) (e : Event) : Prop where
  recovers : ∀ browser msg, e = .encodedPacket browser msg → msg.isKeyframe →
    Configurable browser msg → ∃ entry, Open (r.handle e).1 msg.name entry
  matching : ∀ handed ∈ (r.handle e).2, handed.entry.key = configKey handed.msg ∧
    (handed.entry.chunks = 0 → handed.msg.isKeyframe)

/-- A keyframe of the key that was configured last finds its decoder open, one of another key is of
a supported codec or finds none open, and other packets have the last configured key if the
camera's decoder is open. -/
structure Synchronized (r : Preview) (e : Event) : Prop where
  known : ∀ browser msg, e = .encodedPacket browser msg → msg.isKeyframe →
    r.decoderConfigKey msg.name = some (configKey msg) → Configurable browser msg →
    ∃ entry, Open r msg.name entry
  supported : ∀ browser msg entry, e = .encodedPacket browser msg → msg.isKeyframe →
    r.decoderConfigKey msg.name ≠ some (configKey msg) → Open r msg.name entry →
    msg.codecId < 3
  between : ∀ browser msg entry, e = .encodedPacket browser msg → msg.isKeyframe = false →
    Open r msg.name entry → r.decoderConfigKey msg.name = some (configKey msg)

/-- All events of a run, each with the state that it finds. -/
def Always (P : Preview → Event → Prop) : Preview → List Event → Prop
  | _, [] => True
  | r, e :: rest => P r e ∧ Always P (r.handle e).1 rest

variable {r : Preview} {browser : Browser} {msg : EncodedPacketMessage} {name : String}
  {entry : DecoderEntry} {e : Event}

theorem codecStringFor_isSome_iff (codecId : ℕ) (description : List UInt8) :
    (codecStringFor codecId description).isSome ↔ codecId < 3 := by
  match codecId with
  | 0 =>
    simp only [codecStringFor]
    split <;> simp
  | 1 => simp [codecStringFor]
  | 2 => simp [codecStringFor]
  | n + 3 => simp [codecStringFor]

theorem Configurable.supported (h : Configurable browser msg) : msg.codecId < 3 := by
  obtain ⟨codec, hcodec, -⟩ := h
  rw [← codecStringFor_isSome_iff msg.codecId msg.payload, hcodec]
  rfl

theorem decode_open (h : Open r msg.name entry) :
    r.decode msg = ({ r with
      entries := Function.update r.entries msg.name
        (some { entry with chunks := entry.chunks + 1 }) }, some { entry, msg }) := by
  simp only [Preview.decode, h.1, h.2]

theorem decode_not_open (h : ∀ entry, ¬ Open r msg.name entry) : r.decode msg = (r, none) := by
  simp only [Preview.decode]
  split
  · rfl
  · next entry hentry =>
    split
    · rfl
    · next hstate => exact absurd ⟨hentry, hstate⟩ (h entry)

theorem decode_open_iff : Open (r.decode msg).1 name entry ↔
    Open r name entry ∧ name ≠ msg.name ∨
      ∃ entry', Open r name entry' ∧ name = msg.name ∧
        entry = { entry' with chunks := entry'.chunks + 1 } := by
  by_cases h : ∃ entry', Open r msg.name entry'
  · obtain ⟨entry', hopen⟩ := h
    rw [decode_open hopen]
    by_cases hname : name = msg.name
    · subst name
      constructor
      · rintro ⟨hentry, -⟩
        simp only [Function.update_self] at hentry
        exact .inr ⟨entry', hopen, rfl, (Option.some.inj hentry).symm⟩
      · rintro (⟨-, hne⟩ | ⟨entry'', hopen', -, rfl⟩)
        · exact absurd rfl hne
        · cases hopen.1.symm.trans hopen'.1
          exact ⟨Function.update_self .., hopen.2⟩
    · constructor
      · rintro ⟨hentry, hstate⟩
        simp only [Function.update_of_ne hname] at hentry
        exact .inl ⟨⟨hentry, hstate⟩, hname⟩
      · rintro (⟨⟨hentry, hstate⟩, -⟩ | ⟨_, -, heq, -⟩)
        · exact ⟨(Function.update_of_ne hname ..).trans hentry, hstate⟩
        · exact absurd heq hname
  · have hnone := not_exists.mp h
    rw [decode_not_open hnone]
    constructor
    · intro hopen
      refine .inl ⟨hopen, ?_⟩
      rintro rfl
      exact hnone entry hopen
    · rintro (⟨hopen, -⟩ | ⟨entry', hopen, rfl, -⟩)
      · exact hopen
      · exact absurd hopen (hnone entry')

/-- The law of a packet, in terms of the decoder that it finds once the camera is prepared. -/
theorem packet_law_iff : EventLaw r (.encodedPacket browser msg) ↔
    (msg.isKeyframe → Configurable browser msg →
      ∃ entry, Open (r.prepared browser msg) msg.name entry) ∧
    ∀ entry, Open (r.prepared browser msg) msg.name entry →
      entry.key = configKey msg ∧ (entry.chunks = 0 → msg.isKeyframe) := by
  constructor
  · intro h
    constructor
    · intro hkey hconfigurable
      obtain ⟨entry, hopen⟩ := h.recovers browser msg rfl hkey hconfigurable
      obtain ⟨-, hne⟩ | ⟨entry', hopen, -, -⟩ := decode_open_iff.mp hopen
      · exact absurd rfl hne
      · exact ⟨entry', hopen⟩
    · intro entry hopen
      apply h.matching { entry, msg }
      simp only [Preview.handle, Preview.onEncodedPacket, decode_open hopen]
      rfl
  · rintro ⟨hrecovers, hmatching⟩
    constructor
    · rintro _ _ ⟨⟩ hkey hconfigurable
      obtain ⟨entry, hopen⟩ := hrecovers hkey hconfigurable
      exact ⟨_, decode_open_iff.mpr (.inr ⟨entry, hopen, rfl, rfl⟩)⟩
    · intro handed hhanded
      by_cases h : ∃ entry, Open (r.prepared browser msg) msg.name entry
      · obtain ⟨entry, hopen⟩ := h
        simp only [Preview.handle, Preview.onEncodedPacket, decode_open hopen] at hhanded
        cases hhanded
        exact hmatching entry hopen
      · simp only [Preview.handle, Preview.onEncodedPacket,
          decode_not_open (not_exists.mp h)] at hhanded
        cases hhanded

inductive Prepared (browser : Browser) (r : Preview) (msg : EncodedPacketMessage) : Prop where
  | kept (h : ¬ (msg.isKeyframe ∧ r.decoderConfigKey msg.name ≠ some (configKey msg)))
      (heq : r.prepared browser msg = r)
  | unsupported (hkey : msg.isKeyframe) (hnew : r.decoderConfigKey msg.name ≠ some (configKey msg))
      (hcodec : 3 ≤ msg.codecId) (hentries : (r.prepared browser msg).entries = r.entries)
  | thrown (hkey : msg.isKeyframe) (hnew : r.decoderConfigKey msg.name ≠ some (configKey msg))
      (hcodec : msg.codecId < 3) (hfails : ¬ Configurable browser msg)
      (hentries : (r.prepared browser msg).entries = Function.update r.entries msg.name none)
  | configured (hkey : msg.isKeyframe) (hnew : r.decoderConfigKey msg.name ≠ some (configKey msg))
      (hcodec : msg.codecId < 3) (entry : DecoderEntry) (hstate : entry.state = .configured)
      (hentry : entry.key = configKey msg)
      (hentries : (r.prepared browser msg).entries = Function.update r.entries msg.name (some entry))

theorem prepared_cases (h : browser.available = true) : Prepared browser r msg := by
  by_cases hnew : msg.isKeyframe ∧ r.decoderConfigKey msg.name ≠ some (configKey msg)
  · have hprepared : r.prepared browser msg = Preview.configure browser
        { r with decoderConfigKey :=
            Function.update r.decoderConfigKey msg.name (some (configKey msg)) } msg := if_pos hnew
    simp only [Preview.configure, h, if_true] at hprepared
    cases hcodec : codecStringFor msg.codecId msg.payload with
    | none =>
      apply Prepared.unsupported hnew.1 hnew.2
      · rw [← Nat.not_lt, ← codecStringFor_isSome_iff msg.codecId msg.payload, hcodec]
        simp
      · rw [hprepared, hcodec]
    | some codec =>
      have hsupported : msg.codecId < 3 := by
        rw [← codecStringFor_isSome_iff msg.codecId msg.payload, hcodec]
        rfl
      simp only [hcodec] at hprepared
      by_cases hthrows : browser.throws
          { codec, codedWidth := msg.width, codedHeight := msg.height } = true
      · rw [if_pos hthrows] at hprepared
        apply Prepared.thrown hnew.1 hnew.2 hsupported
        · rintro ⟨codec', hcodec', hok⟩
          cases hcodec.symm.trans hcodec'
          rw [hthrows] at hok
          cases hok
        · rw [hprepared]
          rfl
      · rw [if_neg hthrows] at hprepared
        apply Prepared.configured hnew.1 hnew.2 hsupported
          { config := { codec, codedWidth := msg.width, codedHeight := msg.height }
            key := configKey msg } rfl rfl
        rw [hprepared]
        exact Function.update_idem ..
  · exact .kept hnew (if_neg hnew)

theorem prepared_key (hkey : msg.isKeyframe) :
    (r.prepared browser msg).decoderConfigKey =
      Function.update r.decoderConfigKey msg.name (some (configKey msg)) := by
  simp only [Preview.prepared]
  split
  · simp only [Preview.configure]
    split
    · split
      · rfl
      · split <;> rfl
    · rfl
  · next h =>
    have hsame : r.decoderConfigKey msg.name = some (configKey msg) := by
      by_contra hne
      exact h ⟨hkey, hne⟩
    rw [← hsame, Function.update_eq_self]

structure Invariant (r : Preview) : Prop where
  key : ∀ name entry, Open r name entry → r.decoderConfigKey name = some entry.key
  begun : ∀ name entry, Open r name entry → entry.chunks ≠ 0

theorem new_synchronized_iff (hkey : msg.isKeyframe)
    (hnew : r.decoderConfigKey msg.name ≠ some (configKey msg)) :
    Synchronized r (.encodedPacket browser msg) ↔
      ∀ entry, Open r msg.name entry → msg.codecId < 3 := by
  constructor
  · intro h entry hopen
    exact h.supported browser msg entry rfl hkey hnew hopen
  · intro h
    constructor
    · rintro _ _ ⟨⟩ _ hsame
      exact absurd hsame hnew
    · rintro _ _ entry ⟨⟩ _ _ hopen
      exact h entry hopen
    · rintro _ _ _ ⟨⟩ hdelta
      rw [hkey] at hdelta
      cases hdelta

theorem packet_law_iff_synchronized (h : Invariant r) (havailable : browser.available = true) :
    EventLaw r (.encodedPacket browser msg) ↔ Synchronized r (.encodedPacket browser msg) := by
  rw [packet_law_iff]
  cases (prepared_cases havailable : Prepared browser r msg) with
  | kept hkept heq =>
    rw [heq]
    constructor
    · rintro ⟨hrecovers, hmatching⟩
      constructor
      · rintro _ _ ⟨⟩ hkey _ hconfigurable
        exact hrecovers hkey hconfigurable
      · rintro _ _ _ ⟨⟩ hkey hnew
        exact absurd ⟨hkey, hnew⟩ hkept
      · rintro _ _ entry ⟨⟩ _ hopen
        rw [h.key _ _ hopen, (hmatching entry hopen).1]
    · intro hsync
      have hlast : ∀ entry, Open r msg.name entry →
          r.decoderConfigKey msg.name = some (configKey msg) := by
        intro entry hopen
        by_cases hkey : msg.isKeyframe = true
        · by_contra hnew
          exact hkept ⟨hkey, hnew⟩
        · exact hsync.between browser msg entry rfl (by simpa using hkey) hopen
      constructor
      · intro hkey hconfigurable
        apply hsync.known browser msg rfl hkey _ hconfigurable
        by_contra hnew
        exact hkept ⟨hkey, hnew⟩
      · intro entry hopen
        constructor
        · exact Option.some.inj ((h.key _ _ hopen).symm.trans (hlast entry hopen))
        · exact fun hchunks => absurd hchunks (h.begun _ _ hopen)
  | unsupported hkey hnew hcodec hentries =>
    rw [new_synchronized_iff hkey hnew]
    simp only [Open, hentries]
    constructor
    · rintro ⟨-, hmatching⟩ entry hopen
      refine absurd ?_ hnew
      rw [h.key _ _ hopen, (hmatching entry hopen).1]
    · intro hsupported
      constructor
      · intro _ hconfigurable
        exact absurd hconfigurable.supported (Nat.not_lt.mpr hcodec)
      · intro entry hopen
        exact absurd (hsupported entry hopen) (Nat.not_lt.mpr hcodec)
  | thrown hkey hnew hcodec hfails hentries =>
    rw [new_synchronized_iff hkey hnew]
    constructor
    · exact fun _ _ _ => hcodec
    · intro _
      constructor
      · exact fun _ hconfigurable => absurd hconfigurable hfails
      · rintro entry ⟨hentry, -⟩
        rw [hentries, Function.update_self] at hentry
        cases hentry
  | configured hkey hnew hcodec entry hstate hkeyed hentries =>
    rw [new_synchronized_iff hkey hnew]
    constructor
    · exact fun _ _ _ => hcodec
    · intro _
      constructor
      · intro _ _
        refine ⟨entry, ?_, hstate⟩
        rw [hentries, Function.update_self]
      · rintro entry' ⟨hentry', -⟩
        rw [hentries, Function.update_self] at hentry'
        cases hentry'
        exact ⟨hkeyed, fun _ => hkey⟩

theorem law_iff_synchronized (h : Invariant r)
    (havailable : ∀ browser msg, e = .encodedPacket browser msg → browser.available = true) :
    EventLaw r e ↔ Synchronized r e := by
  have hother : (∀ browser msg, e ≠ .encodedPacket browser msg) → (r.handle e).2 = none →
      (EventLaw r e ↔ Synchronized r e) := by
    intro hne hnone
    constructor
    · intro _
      exact ⟨fun browser msg heq => absurd heq (hne browser msg),
        fun browser msg _ heq => absurd heq (hne browser msg),
        fun browser msg _ heq => absurd heq (hne browser msg)⟩
    · intro _
      refine ⟨fun browser msg heq => absurd heq (hne browser msg), ?_⟩
      rw [hnone]
      rintro _ ⟨⟩
  cases e with
  | encodedPacket browser msg => exact packet_law_iff_synchronized h (havailable browser msg rfl)
  | decoderError name => exact hother (by rintro _ _ ⟨⟩) rfl
  | connectedChange value => exact hother (by rintro _ _ ⟨⟩) rfl

theorem decode_decoderConfigKey (r : Preview) (msg : EncodedPacketMessage) :
    (r.decode msg).1.decoderConfigKey = r.decoderConfigKey := by
  simp only [Preview.decode]
  split
  · rfl
  · split <;> rfl

/-- Once the camera is prepared, only its own decoder may still wait for its first chunk. -/
theorem Invariant.prepared (h : Invariant r) (havailable : browser.available = true)
    (hsync : Synchronized r (.encodedPacket browser msg))
    (hopen : Open (r.prepared browser msg) name entry) :
    (r.prepared browser msg).decoderConfigKey name = some entry.key ∧
      (name ≠ msg.name → entry.chunks ≠ 0) := by
  have hother : ∀ entries : Option DecoderEntry, msg.isKeyframe →
      (r.prepared browser msg).entries = Function.update r.entries msg.name entries →
      name ≠ msg.name → (r.prepared browser msg).decoderConfigKey name = some entry.key ∧
        (name ≠ msg.name → entry.chunks ≠ 0) := by
    intro entries hkey hentries hname
    have hold : Open r name entry := by
      rw [Open, hentries, Function.update_of_ne hname] at hopen
      exact hopen
    rw [prepared_key hkey, Function.update_of_ne hname]
    exact ⟨h.key _ _ hold, fun _ => h.begun _ _ hold⟩
  cases (prepared_cases havailable : Prepared browser r msg) with
  | kept hkept heq =>
    rw [heq] at hopen ⊢
    exact ⟨h.key _ _ hopen, fun _ => h.begun _ _ hopen⟩
  | unsupported hkey hnew hcodec hentries =>
    apply hother (r.entries msg.name) hkey
    · rw [hentries, Function.update_eq_self]
    · rintro rfl
      rw [Open, hentries] at hopen
      exact absurd (hsync.supported browser msg entry rfl hkey hnew hopen) (Nat.not_lt.mpr hcodec)
  | thrown hkey hnew hcodec hfails hentries =>
    apply hother none hkey hentries
    rintro rfl
    obtain ⟨hentry, -⟩ := hopen
    rw [hentries, Function.update_self] at hentry
    cases hentry
  | configured hkey hnew hcodec entry' hstate hkeyed hentries =>
    by_cases hname : name = msg.name
    · subst name
      obtain ⟨hentry, -⟩ := hopen
      rw [hentries, Function.update_self] at hentry
      cases hentry
      rw [prepared_key hkey, Function.update_self, hkeyed]
      exact ⟨rfl, fun hne => absurd rfl hne⟩
    · exact hother (some entry') hkey hentries hname

theorem Invariant.step (h : Invariant r)
    (havailable : ∀ browser msg, e = .encodedPacket browser msg → browser.available = true)
    (hsync : Synchronized r e) : Invariant (r.handle e).1 := by
  cases e with
  | encodedPacket browser msg =>
    have hprepared : ∀ name entry, Open (r.prepared browser msg) name entry →
        (r.prepared browser msg).decoderConfigKey name = some entry.key ∧
          (name ≠ msg.name → entry.chunks ≠ 0) :=
      fun name entry hopen => h.prepared (havailable browser msg rfl) hsync hopen
    constructor
    · intro name entry hopen
      rw [Preview.handle, Preview.onEncodedPacket, decode_decoderConfigKey]
      obtain ⟨hprior, -⟩ | ⟨entry', hprior, -, rfl⟩ := decode_open_iff.mp hopen
      · exact (hprepared name entry hprior).1
      · exact (hprepared name entry' hprior).1
    · intro name entry hopen
      obtain ⟨hopen, hname⟩ | ⟨entry', hopen, -, rfl⟩ := decode_open_iff.mp hopen
      · exact (hprepared name entry hopen).2 hname
      · exact Nat.succ_ne_zero _
  | decoderError name =>
    have hold : ∀ name' entry, Open (r.onDecoderError name) name' entry → Open r name' entry := by
      rintro name' entry ⟨hentry, hstate⟩
      by_cases hname : name' = name
      · subst name'
        simp only [Preview.onDecoderError, Function.update_self] at hentry
        obtain ⟨entry', -, rfl⟩ := Option.map_eq_some_iff.mp hentry
        cases hstate
      · simp only [Preview.onDecoderError, Function.update_of_ne hname] at hentry
        exact ⟨hentry, hstate⟩
    exact ⟨fun name' entry hopen => h.key _ _ (hold name' entry hopen),
      fun name' entry hopen => h.begun _ _ (hold name' entry hopen)⟩
  | connectedChange value =>
    cases value with
    | true => exact h
    | false => exact ⟨by rintro _ _ ⟨⟨⟩, -⟩, by rintro _ _ ⟨⟨⟩, -⟩⟩

theorem always_lawful_iff {events : List Event} (h : Invariant r)
    (havailable : ∀ browser msg, .encodedPacket browser msg ∈ events → browser.available = true) :
    Always EventLaw r events ↔ Always Synchronized r events := by
  induction events generalizing r with
  | nil => exact Iff.rfl
  | cons e rest ih =>
    have hhead : ∀ browser msg, e = .encodedPacket browser msg → browser.available = true := by
      intro browser msg heq
      exact havailable browser msg (heq ▸ List.mem_cons_self)
    have hrest := fun browser msg hmem => havailable browser msg (List.mem_cons_of_mem e hmem)
    have hevent := law_iff_synchronized h hhead
    constructor
    · rintro ⟨hlaw, halways⟩
      have hsync := hevent.mp hlaw
      exact ⟨hsync, (ih (h.step hhead hsync) hrest).mp halways⟩
    · rintro ⟨hsync, halways⟩
      exact ⟨hevent.mpr hsync, (ih (h.step hhead hsync) hrest).mpr halways⟩

/-- The preview keeps its law in a run of events exactly if each of them is synchronized with the
decoder that it finds. -/
theorem preview_lawful_iff {events : List Event}
    (havailable : ∀ browser msg, .encodedPacket browser msg ∈ events → browser.available = true) :
    Always EventLaw {} events ↔ Always Synchronized {} events :=
  always_lawful_iff ⟨by rintro _ _ ⟨⟨⟩, -⟩, by rintro _ _ ⟨⟨⟩, -⟩⟩ havailable

def willing : Browser := { available := true, throws := fun _ => false }

def keyframe : EncodedPacketMessage :=
  { name := "top"
    codecId := 1
    isKeyframe := true
    ptsUs := 0
    sequence := 0
    sourceTimestampUs := 0
    width := 640
    height := 480
    payload := [] }

theorem preview_lawful_first_keyframe :
    Always EventLaw {} [.connectedChange true, .encodedPacket willing keyframe] := by
  apply (preview_lawful_iff ?_).mpr
  · refine ⟨⟨by rintro _ _ ⟨⟩, by rintro _ _ _ ⟨⟩, by rintro _ _ _ ⟨⟩⟩, ?_, True.intro⟩
    constructor
    · rintro _ _ ⟨⟩ _ ⟨⟩
    · rintro _ _ _ ⟨⟩ _ _ ⟨⟨⟩, -⟩
    · rintro _ _ _ ⟨⟩ ⟨⟩
  · intro browser msg hmem
    cases List.mem_cons.mp hmem with
    | inl heq => cases heq
    | inr hmem =>
      cases List.mem_singleton.mp hmem
      rfl

/-- After an error of its decoder, the keyframes of the same key do not bring a camera back. -/
theorem errored_decoder_not_recovered :
    ¬ Always EventLaw {} [.encodedPacket willing keyframe, .decoderError "top",
      .encodedPacket willing keyframe] := by
  rintro ⟨-, -, hlaw, -⟩
  obtain ⟨entry, hentry, hstate⟩ :=
    hlaw.recovers willing keyframe rfl rfl ⟨"hev1.1.6.L93.B0", rfl, rfl⟩
  have hclosed : entry.state = .closed := congrArg DecoderEntry.state (Option.some.inj hentry).symm
  rw [hclosed] at hstate
  cases hstate

end PreviewDecoders
