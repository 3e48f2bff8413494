import Mathlib.Data.Int.Notation
import Mathlib.Data.List.Basic

/-! TOML documents as a writer puts them down: the values of a table as `key = value`, then the
tables within it, each under its header. A string takes the form that its content asks for, and may
go over several lines. -/
namespace TomlText

abbrev Line := List Char

/-- A value that is written behind its key; `β` are the kinds that nothing here looks into. -/
inductive TomlValue (α β : Type) where
  | string (s : String)
  | strings (l : List String)
  | integer (z : ℤ)
  | boolean (b : Bool)
  | float (x : α)
  | floats (l : List α)
  | other (v : β)

/-- A table within another one, or an element of an array of tables, with the keys that lead to
it. -/
structure TomlSection (α β : Type) where
  array : Bool := false
  path : List String
  values : List (String × TomlValue α β) := []

structure TomlTable (α β : Type) where
  values : List (String × TomlValue α β) := []
  sections : List (TomlSection α β) := []

/-- Neither a quotation mark nor a backslash nor a control character. -/
def plainChar (c : Char) : Bool := c ≠ '"' && c ≠ '\\' && 32 ≤ c.toNat && c.toNat ≠ 127

def Plain (s : String) : Prop := ∀ c ∈ s.toList, plainChar c = true

instance (s : String) : Decidable (Plain s) := List.decidableBAll (plainChar · = true) s.toList

def bareChar (c : Char) : Bool := c.isAlphanum || c = '_' || c = '-'

def Bare (key : String) : Prop := key.toList ≠ [] ∧ ∀ c ∈ key.toList, bareChar c = true

instance (key : String) : Decidable (Bare key) :=
  have := List.decidableBAll (bareChar · = true) key.toList
  inferInstanceAs (Decidable (_ ∧ _))

def literalQuotes : List Line := [['\''], ['\'', '\'', '\'']]

def longQuote : Line := ['"', '"', '"']

/-- How a writer quotes. A plain string stands between quotation marks as it is. Another one that
has no newline is a literal, which does not hold its own quotes, or has what is not plain escaped;
between three marks some of that may stand as it is. A key stays on its line. -/
structure TomlStyle (α β : Type) where
  string : String → Line
  quotedKey : String → Line
  float : α → Line
  other : β → Line
  escape : Char → Line
  escapeLong : Char → Line
  string_plain : ∀ s, Plain s → string s = '"' :: s.toList ++ ['"']
  string_line : ∀ s, '\n' ∉ s.toList → ¬ Plain s →
    (∃ quote ∈ literalQuotes, string s = quote ++ s.toList ++ quote ∧ ¬ quote <:+: s.toList) ∨
      string s = '"' :: s.toList.flatMap escape ++ ['"'] ∨
        string s = longQuote ++ s.toList.flatMap escapeLong ++ longQuote
  escape_plain : ∀ c, plainChar c = true → escape c = [c]
  escape_other : ∀ c, plainChar c = false → ∃ rest, escape c = '\\' :: rest ∧ rest ≠ [] ∧
    '#' ∉ rest ∧ '\n' ∉ rest ∧ ('"' ∈ rest → c = '"')
  escapeLong_eq : ∀ c, escapeLong c = escape c ∨ escapeLong c = [c]
  quotedKey_line : ∀ key, '\n' ∉ quotedKey key

section Document
variable {α β : Type} (style : TomlStyle α β)

def TomlStyle.key (key : String) : Line :=
  if Bare key then key.toList else style.quotedKey key

def inlineArray (items : List Line) : Line := '[' :: [',', ' '].intercalate items ++ [']']

def TomlStyle.value : TomlValue α β → Line
  | .string s => style.string s
  | .strings l => inlineArray (l.map style.string)
  | .integer z => (toString z).toList
  | .boolean b => (toString b).toList
  | .float x => style.float x
  | .floats l => inlineArray (l.map style.float)
  | .other v => style.other v

def TomlStyle.keyValue (entry : String × TomlValue α β) : Line :=
  style.key entry.1 ++ ' ' :: '=' :: ' ' :: style.value entry.2

def TomlStyle.path (path : List String) : Line := ['.'].intercalate (path.map style.key)

def TomlStyle.header (array : Bool) (path : List String) : Line :=
  if array then '[' :: '[' :: style.path path ++ [']', ']'] else '[' :: style.path path ++ [']']

/-- A section stands behind a blank line. -/
def TomlStyle.sectionPieces (s : TomlSection α β) : List Line :=
  [] :: style.header s.array s.path :: s.values.map style.keyValue

/-- What a document consists of, each piece ended by a newline; a string in it may hold more. -/
def TomlStyle.pieces (t : TomlTable α β) : List Line :=
  t.values.map style.keyValue ++ t.sections.flatMap style.sectionPieces

def endLines (pieces : List Line) : List Char := pieces.flatMap fun piece => piece ++ ['\n']

def TomlStyle.text (t : TomlTable α β) : List Char := endLines (style.pieces t)

end Document

section Lines

/-- The lines of a document are those of its pieces, and the empty one behind the last newline. -/
theorem splitOn_endLines (pieces : List Line) :
    (endLines pieces).splitOn '\n' = pieces.flatMap (·.splitOn '\n') ++ [[]] := by
  induction pieces with
  | nil => rfl
  | cons piece rest ih =>
    rw [endLines, List.flatMap_cons, List.append_assoc, List.singleton_append,
      List.splitOn_append_cons_self, List.flatMap_cons, List.append_assoc]
    exact congrArg (piece.splitOn '\n' ++ ·) ih

theorem newline_notMem_splitOn {text line : List Char} (h : line ∈ text.splitOn '\n') :
    '\n' ∉ line := by
  induction text generalizing line with
  | nil =>
    cases List.mem_singleton.mp h
    exact List.not_mem_nil
  | cons c rest ih =>
    rw [List.splitOn_cons_eq_if_modifyHead] at h
    by_cases hc : (c == '\n') = true
    · rw [if_pos hc] at h
      obtain rfl | h := List.mem_cons.mp h
      · exact List.not_mem_nil
      · exact ih h
    · rw [if_neg hc] at h
      obtain ⟨first, others, hsplit⟩ := List.exists_cons_of_ne_nil (List.splitOn_ne_nil '\n' rest)
      rw [hsplit, List.modifyHead_cons] at h
      obtain rfl | h := List.mem_cons.mp h
      · rw [List.mem_cons, not_or]
        refine ⟨?_, ih (by rw [hsplit]; exact List.mem_cons_self)⟩
        rintro rfl
        exact hc rfl
      · exact ih (by rw [hsplit]; exact List.mem_cons_of_mem _ h)

theorem not_mem_intercalate {c : Char} {sep : Line} {lines : List Line} (hsep : c ∉ sep)
    (h : ∀ line ∈ lines, c ∉ line) : c ∉ sep.intercalate lines := by
  induction lines with
  | nil => exact List.not_mem_nil
  | cons line rest ih =>
    cases rest with
    | nil =>
      rw [List.intercalate_singleton]
      exact h line List.mem_cons_self
    | cons next rest =>
      rw [List.intercalate_cons_cons, List.mem_append, List.mem_append]
      rintro ((hline | hmem) | hrest)
      · exact h line List.mem_cons_self hline
      · exact hsep hmem
      · exact ih (fun l hl => h l (List.mem_cons_of_mem _ hl)) hrest

end Lines

section Strings
variable {α β : Type} {style : TomlStyle α β} {mark : Char} {escape : Char → Line}

theorem plainChar_ne {c d : Char} (hc : plainChar c = true) (hd : plainChar d = false) : c ≠ d := by
  rintro rfl
  rw [hc] at hd
  cases hd

/-- What stands for a character is not empty, and has a mark only if the character is that mark. -/
structure Keeps (mark : Char) (escape : Char → Line) : Prop where
  ne_nil : ∀ c, escape c ≠ []
  mem : ∀ c, mark ∈ escape c → c = mark

theorem escape_keeps (style : TomlStyle α β) (hmark : mark = '"' ∨ mark = '#') :
    Keeps mark style.escape := by
  refine ⟨fun c => ?_, fun c h => ?_⟩
  · cases hc : plainChar c with
    | true =>
      rw [style.escape_plain c hc]
      exact List.cons_ne_nil _ _
    | false =>
      obtain ⟨rest, hrest, -⟩ := style.escape_other c hc
      rw [hrest]
      exact List.cons_ne_nil _ _
  · cases hc : plainChar c with
    | true =>
      rw [style.escape_plain c hc, List.mem_singleton] at h
      exact h.symm
    | false =>
      obtain ⟨rest, hrest, -, hhash, -, hquote⟩ := style.escape_other c hc
      rw [hrest, List.mem_cons] at h
      obtain rfl | rfl := hmark
      · obtain h | h := h
        · cases h
        · exact hquote h
      · obtain h | h := h
        · cases h
        · exact absurd h hhash

theorem escapeLong_keeps (style : TomlStyle α β) (hmark : mark = '"' ∨ mark = '#') :
    Keeps mark style.escapeLong := by
  have hescape := escape_keeps style hmark
  refine ⟨fun c => ?_, fun c h => ?_⟩
  · obtain hc | hc := style.escapeLong_eq c
    · exact hc ▸ hescape.ne_nil c
    · rw [hc]
      exact List.cons_ne_nil _ _
  · obtain hc | hc := style.escapeLong_eq c
    · exact hescape.mem c (hc ▸ h)
    · rw [hc, List.mem_singleton] at h
      exact h.symm

theorem newline_notMem_escape {c : Char} (hc : c ≠ '\n') : '\n' ∉ style.escape c := by
  cases hplain : plainChar c with
  | true =>
    rw [style.escape_plain c hplain, List.mem_singleton]
    exact fun h => hc h.symm
  | false =>
    obtain ⟨rest, hrest, -, -, hline, -⟩ := style.escape_other c hplain
    rw [hrest, List.mem_cons, not_or]
    exact ⟨by decide, hline⟩

theorem newline_notMem_escapeLong {c : Char} (hc : c ≠ '\n') : '\n' ∉ style.escapeLong c := by
  obtain h | h := style.escapeLong_eq c
  · exact h ▸ newline_notMem_escape hc
  · rw [h, List.mem_singleton]
    exact fun heq => hc heq.symm

/-- A string without a newline is written on one line. -/
theorem newline_notMem_string {s : String} (h : '\n' ∉ s.toList) : '\n' ∉ style.string s := by
  have hquoted : ∀ quote body : Line, '\n' ∉ quote → '\n' ∉ body →
      '\n' ∉ quote ++ body ++ quote := by
    intro quote body hquote hbody
    rw [List.mem_append, List.mem_append, not_or, not_or]
    exact ⟨⟨hquote, hbody⟩, hquote⟩
  have hescaped : ∀ escape : Char → Line, (∀ c, c ≠ '\n' → '\n' ∉ escape c) →
      '\n' ∉ s.toList.flatMap escape := by
    intro escape hescape hmem
    obtain ⟨c, hc, hmem⟩ := List.mem_flatMap.mp hmem
    exact hescape c (by rintro rfl; exact h hc) hmem
  by_cases hplain : Plain s
  · rw [style.string_plain s hplain]
    exact hquoted ['"'] s.toList (by decide) h
  · obtain ⟨quote, hquote, hstring, -⟩ | hstring | hstring := style.string_line s h hplain
    · rw [hstring]
      refine hquoted quote s.toList ?_ h
      simp only [literalQuotes, List.mem_cons, List.not_mem_nil, or_false] at hquote
      obtain rfl | rfl := hquote <;> decide
    · rw [hstring]
      exact hquoted ['"'] _ (by decide) (hescaped _ fun _ => newline_notMem_escape)
    · rw [hstring]
      exact hquoted longQuote _ (by decide) (hescaped _ fun _ => newline_notMem_escapeLong)

theorem Keeps.length_le (h : Keeps mark escape) (s : Line) :
    s.length ≤ (s.flatMap escape).length := by
  induction s with
  | nil => exact Nat.le_refl _
  | cons c s ih =>
    have hc := List.length_pos_iff.mpr (h.ne_nil c)
    rw [List.flatMap_cons, List.length_append, List.length_cons]
    omega

/-- What is escaped of a string that is not plain makes it longer. -/
theorem length_lt_escaped (style : TomlStyle α β) {s : Line} 
    (h : ¬ ∀ c ∈ s, plainChar c = true) : s.length < (s.flatMap style.escape).length := by
  induction s with
  | nil => exact absurd (fun c hc => absurd hc List.not_mem_nil) h
  | cons c s ih =>
    rw [List.flatMap_cons, List.length_append, List.length_cons]
    cases hc : plainChar c with
    | true =>
      have hrest : ¬ ∀ d ∈ s, plainChar d = true := fun hall => h fun d hd => by
        obtain rfl | hd := List.mem_cons.mp hd
        · exact hc
        · exact hall d hd
      rw [style.escape_plain c hc, List.length_singleton]
      have hlt := ih hrest
      omega
    | false =>
      obtain ⟨rest, hrest, hne, -⟩ := style.escape_other c hc
      have hpos := List.length_pos_iff.mpr hne
      have hle := (escape_keeps style (.inl rfl)).length_le s
      rw [hrest, List.length_cons]
      omega

/-- How the inductions below go on: a character other than the mark is matched, and what stands for
it joins what stands in front. -/
theorem Keeps.begins_step (h : Keeps mark escape) {c : Char} {s w tail : Line} (hc : c ≠ mark)
    (hw : mark ∉ w) (hbegins : c :: tail <+: w ++ escape c ++ s.flatMap escape) :
    ∃ w', mark ∉ w' ∧ (w ≠ [] → w' ≠ []) ∧ tail <+: w' ++ s.flatMap escape := by
  have hescape : mark ∉ escape c := fun hm => hc (h.mem c hm)
  cases w with
  | nil =>
    obtain ⟨d, rest, hcons⟩ := List.exists_cons_of_ne_nil (h.ne_nil c)
    rw [List.nil_append, hcons, List.cons_append, List.cons_prefix_cons] at hbegins
    refine ⟨rest, fun hm => hescape ?_, fun hne => absurd rfl hne, hbegins.2⟩
    rw [hcons]
    exact List.mem_cons_of_mem d hm
  | cons x w =>
    rw [List.cons_append, List.cons_append, List.cons_prefix_cons] at hbegins
    refine ⟨w ++ escape c, ?_, fun _ => ?_, hbegins.2⟩
    · rw [List.mem_append, not_or]
      exact ⟨fun hm => hw (List.mem_cons_of_mem x hm), hescape⟩
    · exact List.append_ne_nil_of_right_ne_nil w (h.ne_nil c)

/-- A string with a quotation mark behind it is not the beginning of its escaped form, whose marks
stand further back. -/
theorem not_begins_quoted {s w : Line} (hw : '"' ∉ w) :
    ¬ s ++ ['"'] <+: w ++ s.flatMap style.escape := by
  induction s generalizing w with
  | nil =>
    intro h
    rw [List.flatMap_nil, List.append_nil] at h
    exact hw (h.subset (List.mem_singleton_self _))
  | cons c s ih =>
    rw [List.cons_append, List.flatMap_cons, ← List.append_assoc]
    intro h
    by_cases hc : c = '"'
    · subst hc
      cases w with
      | nil =>
        obtain ⟨rest, hrest, -⟩ := style.escape_other '"' (by decide)
        rw [List.nil_append, hrest, List.cons_append, List.cons_prefix_cons] at h
        exact absurd h.1 (by decide)
      | cons x w =>
        rw [List.cons_append, List.cons_append, List.cons_prefix_cons] at h
        exact hw (h.1 ▸ List.mem_cons_self)
    · obtain ⟨w', hw', -, htail⟩ := (escape_keeps style (.inl rfl)).begins_step hc hw h
      exact ih hw' htail

/-- A string with a mark is not the beginning of its escaped form behind something else: the first
mark stands further back there. -/
theorem Keeps.not_begins_shifted (hkeeps : Keeps mark escape) {s w : Line} (hs : mark ∈ s)
    (hw : mark ∉ w) (hne : w ≠ []) : ¬ s <+: w ++ s.flatMap escape := by
  induction s generalizing w with
  | nil => exact absurd hs List.not_mem_nil
  | cons c s ih =>
    rw [List.flatMap_cons, ← List.append_assoc]
    intro h
    by_cases hc : c = mark
    · obtain ⟨x, w, rfl⟩ := List.exists_cons_of_ne_nil hne
      rw [List.cons_append, List.cons_append, List.cons_prefix_cons] at h
      exact hw (hc ▸ h.1 ▸ List.mem_cons_self)
    · obtain ⟨w', hw', hne', htail⟩ := hkeeps.begins_step hc hw h
      refine ih ?_ hw' (hne' hne) htail
      obtain hc' | hs := List.mem_cons.mp hs
      · exact absurd hc'.symm hc
      · exact hs

end Strings

end TomlText
