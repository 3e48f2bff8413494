import Mathlib.Data.List.Nodup
import Rollio.Outcomes
import Rollio.ProjectConfigs

/-! The keys of the user interfaces: as the project's configuration is checked, as the web gateway
hands them to the browser, and as the two interfaces read them and react to what is typed. -/
namespace KeyBindings
open Outcomes ProjectConfigs Text

inductive EpisodeCommandAction where
  | episodeStart | episodeStop | episodeKeep | episodeDiscard
  deriving DecidableEq, Repr

inductive UiInputAction where
  | toggleDebug
  | cycleRenderer
  | command (action : EpisodeCommandAction)
  deriving DecidableEq, Repr

structure EpisodeKeyBindings where
  startKey : String
  stopKey : String
  keepKey : String
  discardKey : String
  deriving DecidableEq, Repr

def EpisodeKeyBindings.key (b : EpisodeKeyBindings) : EpisodeCommandAction → String
  | .episodeStart => b.startKey
  | .episodeStop => b.stopKey
  | .episodeKeep => b.keepKey
  | .episodeDiscard => b.discardKey

def browserKeyBindings (c : UiRuntimeConfig) : EpisodeKeyBindings :=
  { startKey := c.startKey
    stopKey := c.stopKey
    keepKey := c.keepKey
    discardKey := c.discardKey }

section Javascript

/-- What `String.prototype.trim` takes away: unlike the trim of the configuration it knows the byte
order mark, and not U+0085. -/
def jsIsWhitespace (c : Char) : Bool := c.toNat == 65279 || (isWhitespace c && c.toNat != 133)

def jsTrim (s : String) : String :=
  String.ofList ((s.toList.dropWhile jsIsWhitespace).rdropWhile jsIsWhitespace)

/-- The length of a string, in UTF-16 code units. -/
def jsLength (s : String) : ℕ := s.toList.foldr (fun c n => (if c.toNat < 65536 then 1 else 2) + n) 0

variable (toLowerCase : String → String)

def normalizeKey (label value : String) : Except String String :=
  if jsLength (jsTrim value) ≠ 1 then
    throw ("runtime config \"" ++ label ++ "\" must be a single character")
  else
    let normalized := toLowerCase (jsTrim value)
    if normalized = "d" then
      throw ("runtime config \"" ++ label ++ "\" conflicts with reserved shortcut \"d\"")
    else pure normalized

def refuseDuplicates : List String → List String → Except String Unit
  | _, [] => pure ()
  | seen, key :: rest =>
    if key ∈ seen then throw ("runtime config contains duplicate key binding \"" ++ key ++ "\"")
    else refuseDuplicates (key :: seen) rest

/-- The keys of `normalizeRuntimeConfig` in the browser. -/
def normalizeKeyBindings (raw : EpisodeKeyBindings) : Except String EpisodeKeyBindings := do
  let startKey ← normalizeKey toLowerCase "startKey" raw.startKey
  let stopKey ← normalizeKey toLowerCase "stopKey" raw.stopKey
  let keepKey ← normalizeKey toLowerCase "keepKey" raw.keepKey
  let discardKey ← normalizeKey toLowerCase "discardKey" raw.discardKey
  refuseDuplicates [] [startKey, stopKey, keepKey, discardKey]
  return { startKey, stopKey, keepKey, discardKey }

/-- A key of the terminal: the flag, the environment variable and the default, the first that is not
empty. -/
def resolveKey (cli env : Option String) (default : String) : String :=
  let value := fun raw : Option String => (raw.map fun s => toLowerCase (jsTrim s)).getD ""
  if value cli ≠ "" then value cli
  else if value env ≠ "" then value env
  else default

def resolveKeyBindings (cli env : EpisodeCommandAction → Option String) : EpisodeKeyBindings :=
  { startKey := resolveKey toLowerCase (cli .episodeStart) (env .episodeStart) "s"
    stopKey := resolveKey toLowerCase (cli .episodeStop) (env .episodeStop) "e"
    keepKey := resolveKey toLowerCase (cli .episodeKeep) (env .episodeKeep) "k"
    discardKey := resolveKey toLowerCase (cli .episodeDiscard) (env .episodeDiscard) "x" }

def EpisodeKeyBindings.actionFor (b : EpisodeKeyBindings) (normalized : String) :
    Option EpisodeCommandAction :=
  if normalized = b.startKey then some .episodeStart
  else if normalized = b.stopKey then some .episodeStop
  else if normalized = b.keepKey then some .episodeKeep
  else if normalized = b.discardKey then some .episodeDiscard
  else none

/-- `onKeyDown` of the browser with its `actionForInput`, for a press that it does not ignore; longer
inputs are names of keys. -/
def webActionForInput (input : String) (b : EpisodeKeyBindings) : Option UiInputAction :=
  if jsLength input ≠ 1 then none
  else
    let normalized := toLowerCase input
    if normalized = "d" then some .toggleDebug
    else (b.actionFor normalized).map .command

/-- `actionForInput` of the terminal. -/
def terminalActionForInput (input : String) (b : EpisodeKeyBindings) : Option UiInputAction :=
  let normalized := toLowerCase input
  if normalized = "d" then some .toggleDebug
  else if normalized = "r" then some .cycleRenderer
  else (b.actionFor normalized).map .command

end Javascript

section Actions

/-- Keys that tell the four actions apart, and from the shortcuts that are reserved. -/
structure Separated (b : EpisodeKeyBindings) : Prop where
  injective : ∀ a a', b.key a = b.key a' → a = a'
  unreserved : ∀ a, b.key a ≠ "d" ∧ b.key a ≠ "r"

/-- Where no two keys are equal, the order of the comparisons plays no part. -/
theorem Separated.actionFor_iff {b : EpisodeKeyBindings} (h : Separated b) {normalized : String}
    {action : EpisodeCommandAction} :
    b.actionFor normalized = some action ↔ normalized = b.key action := by
  constructor
  · intro ha
    simp only [EpisodeKeyBindings.actionFor] at ha
    split at ha
    · next hk => cases ha; exact hk
    · split at ha
      · next hk => cases ha; exact hk
      · split at ha
        · next hk => cases ha; exact hk
        · split at ha
          · next hk => cases ha; exact hk
          · cases ha
  · rintro rfl
    have hne : ∀ a, a ≠ action → b.key action ≠ b.key a :=
      fun a hne he => hne (h.injective action a he).symm
    cases action with
    | episodeStart => exact if_pos rfl
    | episodeStop =>
      exact (if_neg (hne .episodeStart (by decide))).trans (if_pos rfl)
    | episodeKeep =>
      exact (if_neg (hne .episodeStart (by decide))).trans
        ((if_neg (hne .episodeStop (by decide))).trans (if_pos rfl))
    | episodeDiscard =>
      exact (if_neg (hne .episodeStart (by decide))).trans
        ((if_neg (hne .episodeStop (by decide))).trans
          ((if_neg (hne .episodeKeep (by decide))).trans (if_pos rfl)))

variable {toLowerCase : String → String} {b : EpisodeKeyBindings}

theorem Separated.webAction_iff (h : Separated b) {input : String} {action : EpisodeCommandAction} :
    webActionForInput toLowerCase input b = some (.command action) ↔
      jsLength input = 1 ∧ toLowerCase input = b.key action := by
  simp only [webActionForInput]
  split
  · next hlong => simp [hlong]
  · next hone =>
    have hone : jsLength input = 1 := by simpa using hone
    split
    · next hd =>
      have hne : "d" ≠ b.key action := (h.unreserved action).1.symm
      simp [hd, hne]
    · rw [Option.map_eq_some_iff]
      simp [h.actionFor_iff, hone]

theorem Separated.terminalAction_iff (h : Separated b) {input : String}
    {action : EpisodeCommandAction} :
    terminalActionForInput toLowerCase input b = some (.command action) ↔
      toLowerCase input = b.key action := by
  simp only [terminalActionForInput]
  split
  · next hd =>
    have hne : "d" ≠ b.key action := (h.unreserved action).1.symm
    simp [hd, hne]
  · split
    · next hr =>
      have hne : "r" ≠ b.key action := (h.unreserved action).2.symm
      simp [hr, hne]
    · rw [Option.map_eq_some_iff]
      simp [h.actionFor_iff]

end Actions

section Accepted

/-- What the keys of the configuration are normalized to: none twice, and none that is reserved. -/
theorem checkKeys_ok {seen : List String} {keys : List (String × String)}
    (h : checkKeys seen keys = .ok ()) :
    ∃ ns, List.Forall₂ (fun e n => normalizeUiKey e.1 e.2 = .ok n) keys ns ∧ ns.Nodup ∧
      ∀ n ∈ ns, n ≠ "d" ∧ n ≠ "r" ∧ n ∉ seen := by
  induction keys generalizing seen with
  | nil => exact ⟨[], .nil, List.nodup_nil, by simp⟩
  | cons e keys ih =>
    obtain ⟨label, key⟩ := e
    simp only [checkKeys, bind_eq_ok, check_eq_ok] at h
    obtain ⟨n, hn, hreserved, hseen, hrest⟩ := h
    obtain ⟨ns, hall, hnodup, hne⟩ := ih hrest
    refine ⟨n :: ns, .cons hn hall, ?_, ?_⟩
    · exact List.nodup_cons.mpr ⟨fun hmem => (hne n hmem).2.2 (List.mem_cons_self ..), hnodup⟩
    · intro m hm
      rcases List.mem_cons.mp hm with rfl | hm
      · exact ⟨fun he => hreserved (.inl he), fun he => hreserved (.inr he), hseen⟩
      · obtain ⟨hd, hr, hnot⟩ := hne m hm
        exact ⟨hd, hr, fun hs => hnot (List.mem_cons_of_mem _ hs)⟩

/-- Only characters whose case and width all sides agree on. -/
def Ascii (s : String) : Prop := ∀ c ∈ s.toList, c.toNat < 128

instance (s : String) : Decidable (Ascii s) :=
  List.decidableBAll (fun c : Char => c.toNat < 128) s.toList

def asciiLower (s : String) : String := String.ofList (s.toList.map Char.toLower)

theorem jsIsWhitespace_of_ascii {c : Char} (h : c.toNat < 128) :
    jsIsWhitespace c = isWhitespace c := by
  have hbom : (c.toNat == 65279) = false := by simp; omega
  have hnel : (c.toNat != 133) = true := by simp; omega
  simp [jsIsWhitespace, hbom, hnel]

theorem dropWhile_congr {α : Type} {p q : α → Bool} {l : List α} (h : ∀ a ∈ l, p a = q a) :
    l.dropWhile p = l.dropWhile q := by
  induction l with
  | nil => rfl
  | cons a l ih =>
    rw [List.dropWhile_cons, List.dropWhile_cons, h a (by simp)]
    split
    · exact ih fun b hb => h b (by simp [hb])
    · rfl

theorem jsTrim_of_ascii {s : String} (h : Ascii s) : jsTrim s = trim s := by
  have hleft : s.toList.dropWhile jsIsWhitespace = s.toList.dropWhile isWhitespace :=
    dropWhile_congr fun c hc => jsIsWhitespace_of_ascii (h c hc)
  have hright : (s.toList.dropWhile isWhitespace).rdropWhile jsIsWhitespace
      = (s.toList.dropWhile isWhitespace).rdropWhile isWhitespace := by
    rw [List.rdropWhile, List.rdropWhile]
    refine congrArg List.reverse (dropWhile_congr fun c hc => ?_)
    have hmem : c ∈ s.toList :=
      (List.dropWhile_sublist _).subset (List.mem_reverse.mp hc)
    exact jsIsWhitespace_of_ascii (h c hmem)
  rw [jsTrim, trim, hleft, hright]

theorem trim_ascii {s : String} (h : Ascii s) : Ascii (trim s) := by
  intro c hc
  rw [trim, String.toList_ofList] at hc
  exact h c ((List.dropWhile_sublist _).subset ((List.rdropWhile_prefix _ _).subset hc))

theorem normalizeUiKey_ascii {label raw n : String} (hraw : Ascii raw)
    (h : normalizeUiKey label raw = .ok n) :
    jsLength (jsTrim raw) = 1 ∧ n = asciiLower (trim raw) ∧ n ≠ "" := by
  rw [jsTrim_of_ascii hraw]
  simp only [normalizeUiKey] at h
  split at h
  · cases h
  · next ch hch =>
    split at h
    · cases h
    · cases h
      have hwidth : ch.toNat < 65536 := by
        have := trim_ascii hraw ch (by simp [hch])
        omega
      refine ⟨by simp [jsLength, hch, hwidth], ?_, ?_⟩
      · rw [asciiLower, hch]
        exact String.singleton_eq_ofList
      · intro he
        have := congrArg String.toList he
        simp at this
  · cases h

theorem refuseDuplicates_ok {seen keys : List String} (hnodup : keys.Nodup)
    (hseen : ∀ k ∈ keys, k ∉ seen) : refuseDuplicates seen keys = .ok () := by
  induction keys generalizing seen with
  | nil => rfl
  | cons k keys ih =>
    obtain ⟨hk, hrest⟩ := List.nodup_cons.mp hnodup
    rw [refuseDuplicates, if_neg (hseen k (by simp))]
    refine ih hrest fun k' hk' hmem => ?_
    rcases List.mem_cons.mp hmem with rfl | hmem
    · exact hk hk'
    · exact hseen k' (by simp [hk']) hmem

theorem validate_checkKeys {c : UiRuntimeConfig} (h : c.validate = .ok ()) :
    checkKeys [] [("start_key", c.startKey), ("stop_key", c.stopKey), ("keep_key", c.keepKey),
      ("discard_key", c.discardKey)] = .ok () := by
  simp only [UiRuntimeConfig.validate, bind_eq_ok, exists_unit, check_eq_ok] at h
  exact h.2.2.2

theorem bindings_of_normalized {c : UiRuntimeConfig} {ns : List String}
    (h : List.Forall₂ (fun e n => normalizeUiKey e.1 e.2 = .ok n)
      [("start_key", c.startKey), ("stop_key", c.stopKey), ("keep_key", c.keepKey),
        ("discard_key", c.discardKey)] ns) :
    ∃ b : EpisodeKeyBindings, ns = [b.startKey, b.stopKey, b.keepKey, b.discardKey] ∧
      ∀ a, ∃ label, normalizeUiKey label ((browserKeyBindings c).key a) = .ok (b.key a) := by
  cases h with
  | cons hstart h =>
    cases h with
    | cons hstop h =>
      cases h with
      | cons hkeep h =>
        cases h with
        | cons hdiscard h =>
          cases h
          refine ⟨⟨_, _, _, _⟩, rfl, fun a => ?_⟩
          cases a with
          | episodeStart => exact ⟨_, hstart⟩
          | episodeStop => exact ⟨_, hstop⟩
          | episodeKeep => exact ⟨_, hkeep⟩
          | episodeDiscard => exact ⟨_, hdiscard⟩

theorem separated_of_nodup {b : EpisodeKeyBindings}
    (h : [b.startKey, b.stopKey, b.keepKey, b.discardKey].Nodup) (a a' : EpisodeCommandAction)
    (he : b.key a = b.key a') : a = a' := by
  simp only [List.nodup_cons, List.mem_cons, List.not_mem_nil, or_false, not_or] at h
  cases a <;> cases a' <;> simp_all [EpisodeKeyBindings.key]

/-- For every configuration that is accepted and whose keys are ASCII, however they are written: the
browser takes the keys that the gateway hands it, the terminal that is given them takes the same, and
in both each key, in either case, sets off its own action and nothing else does. -/
theorem keys_set_off {toLowerCase : String → String}
    (hlower : ∀ s, Ascii s → toLowerCase s = asciiLower s) {c : UiRuntimeConfig}
    (h : c.validate = .ok ()) (hascii : ∀ a, Ascii ((browserKeyBindings c).key a)) :
    ∃ b, normalizeKeyBindings toLowerCase (browserKeyBindings c) = .ok b ∧
      (∀ env, resolveKeyBindings toLowerCase (fun a => some ((browserKeyBindings c).key a)) env = b) ∧
      (∀ a, b.key a = asciiLower (trim ((browserKeyBindings c).key a))) ∧
      ∀ input a,
        (webActionForInput toLowerCase input b = some (.command a) ↔
          jsLength input = 1 ∧ toLowerCase input = b.key a) ∧
        (terminalActionForInput toLowerCase input b = some (.command a) ↔
          toLowerCase input = b.key a) := by
  obtain ⟨ns, hall, hnodup, hne⟩ := checkKeys_ok (validate_checkKeys h)
  obtain ⟨b, hns, hkeys⟩ := bindings_of_normalized hall
  have hkey : ∀ a, jsLength (jsTrim ((browserKeyBindings c).key a)) = 1 ∧
      b.key a = asciiLower (trim ((browserKeyBindings c).key a)) ∧ b.key a ≠ "" := by
    intro a
    obtain ⟨label, hn⟩ := hkeys a
    exact normalizeUiKey_ascii (hascii a) hn
  have hvalue : ∀ a, toLowerCase (jsTrim ((browserKeyBindings c).key a)) = b.key a := by
    intro a
    rw [jsTrim_of_ascii (hascii a), hlower _ (trim_ascii (hascii a)), (hkey a).2.1]
  have hmem : ∀ a, b.key a ∈ ns := by
    intro a
    rw [hns]
    cases a <;> simp [EpisodeKeyBindings.key]
  have hseparated : Separated b :=
    ⟨separated_of_nodup (hns ▸ hnodup), fun a => ⟨(hne _ (hmem a)).1, (hne _ (hmem a)).2.1⟩⟩
  have hnormalize : ∀ label a,
      normalizeKey toLowerCase label ((browserKeyBindings c).key a) = .ok (b.key a) := by
    intro label a
    rw [normalizeKey, if_neg (by simpa using (hkey a).1)]
    simp only [hvalue a, if_neg (hseparated.unreserved a).1]
    rfl
  have hresolve : ∀ env a default,
      resolveKey toLowerCase (some ((browserKeyBindings c).key a)) env default = b.key a := by
    intro env a default
    simp [resolveKey, hvalue a, (hkey a).2.2]
  refine ⟨b, ?_, ?_, fun a => (hkey a).2.1, fun input a =>
    ⟨hseparated.webAction_iff, hseparated.terminalAction_iff⟩⟩
  · have hdistinct : refuseDuplicates [] [b.startKey, b.stopKey, b.keepKey, b.discardKey] = .ok () :=
      refuseDuplicates_ok (hns ▸ hnodup) (by simp)
    have hstart := hnormalize "startKey" .episodeStart
    have hstop := hnormalize "stopKey" .episodeStop
    have hkeep := hnormalize "keepKey" .episodeKeep
    have hdiscard := hnormalize "discardKey" .episodeDiscard
    simp only [EpisodeKeyBindings.key] at hstart hstop hkeep hdiscard
    simp only [normalizeKeyBindings, hstart, hstop, hkeep, hdiscard, hdistinct, bind, Except.bind]
    rfl
  · intro env
    simp only [resolveKeyBindings, hresolve]
    rfl

end Accepted

section Keys

def sampleLower (s : String) : String :=
  String.ofList (s.toList.map fun c => if c = 'É' then 'é' else c.toLower)

def sampleConfig : UiRuntimeConfig := { startKey := " B", stopKey := "q\t", keepKey := "1" }

theorem sample_keys_set_off :
    ∃ b, normalizeKeyBindings asciiLower (browserKeyBindings sampleConfig) = .ok b ∧
      webActionForInput asciiLower "B" b = some (.command .episodeStart) := by
  have hvalid : sampleConfig.validate = .ok () := by decide
  have hascii : ∀ a, Ascii ((browserKeyBindings sampleConfig).key a) := by
    intro a
    cases a <;> decide
  obtain ⟨b, hb, -, hkey, haction⟩ := keys_set_off (fun _ _ => rfl) hvalid hascii
  have hstart : asciiLower "B" = b.key .episodeStart := by
    rw [hkey]
    decide
  exact ⟨b, hb, (haction "B" .episodeStart).1.mpr ⟨by decide, hstart⟩⟩

/-- A configuration that is accepted and that the browser refuses: one key is the other's capital, as
only the browser knows. -/
theorem capital_refused :
    ({ startKey := "É", stopKey := "é" } : UiRuntimeConfig).validate = .ok () ∧
    normalizeKeyBindings sampleLower
        (browserKeyBindings { startKey := "É", stopKey := "é" }) =
      .error "runtime config contains duplicate key binding \"é\"" := by
  decide

end Keys

end KeyBindings
