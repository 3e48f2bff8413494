import Mathlib.Data.List.DropRight
import Mathlib.Data.List.TakeDrop
import Rollio.Outcomes
import Rollio.TomlText

/-! How the C++ drivers take a line of a device's configuration apart, with rules of their own for
spaces, comments and quotes. -/
namespace DeviceLines
open Outcomes
open TomlText (Line Bare bareChar Plain plainChar TomlStyle)

def isSpace (c : Char) : Bool := c = ' ' || c = '\t' || c = '\r' || c = '\n'

def trim (value : Line) : Line := (value.dropWhile isSpace).rdropWhile isSpace

def stripQuotes (value : Line) : Line :=
  match trim value with
  | [] => []
  | first :: rest =>
    if first = '"' ∧ rest.getLast? = some '"' then rest.dropLast else first :: rest

/-- The text up to a `#` outside of quotation marks. -/
def uncommented : Bool → Line → Line
  | _, [] => []
  | inQuotes, c :: rest =>
    if c = '"' then c :: uncommented (!inQuotes) rest
    else if c = '#' ∧ inQuotes = false then []
    else c :: uncommented inQuotes rest

def stripComment (value : Line) : Line := trim (uncommented false value)

/-- `std::from_chars`, when it comes to the end of the text. -/
def fromChars (raw : Line) : Option UInt32 :=
  if raw ≠ [] ∧ raw.all Char.isDigit ∧ Nat.ofDigitChars 10 raw 0 < 4294967296 then
    some (UInt32.ofNat (Nat.ofDigitChars 10 raw 0))
  else none

def parseU32Value (raw : Line) : Except String UInt32 :=
  okOr (fromChars (trim raw)) ("failed to parse integer value: " ++ String.ofList (trim raw))

def parseBoolValue (raw : Line) : Except String Bool :=
  let lowered := (trim raw).map Char.toLower
  if lowered = "true".toList then .ok true
  else if lowered = "false".toList then .ok false
  else .error ("expected boolean true/false, got: " ++ String.ofList raw)

def splitKeyValue (line : Line) : Except String (Line × Line) :=
  match line.span (· ≠ '=') with
  | (_, []) => .error ("invalid TOML line: " ++ String.ofList line)
  | (before, _ :: after) =>
    if trim before = [] then .error "invalid TOML key" else .ok (trim before, trim after)

/-- Whether a text ends within quotation marks, and `none` where a comment begins in it. -/
def quotesAfter : Bool → Line → Option Bool
  | inQuotes, [] => some inQuotes
  | inQuotes, c :: rest =>
    if c = '"' then quotesAfter (!inQuotes) rest
    else if c = '#' ∧ inQuotes = false then none
    else quotesAfter inQuotes rest

theorem uncommented_append {q q' : Bool} {l r : Line} (h : quotesAfter q l = some q') :
    uncommented q (l ++ r) = l ++ uncommented q' r := by
  induction l generalizing q with
  | nil =>
    cases h
    rfl
  | cons c rest ih =>
    simp only [quotesAfter, List.cons_append, uncommented] at h ⊢
    by_cases hquote : c = '"'
    · rw [if_pos hquote] at h ⊢
      rw [ih h]
    · rw [if_neg hquote] at h ⊢
      by_cases hcomment : c = '#' ∧ q = false
      · rw [if_pos hcomment] at h
        cases h
      · rw [if_neg hcomment] at h ⊢
        rw [ih h]

theorem uncommented_self {q q' : Bool} {l : Line} (h : quotesAfter q l = some q') :
    uncommented q l = l := by
  have happend := uncommented_append (r := []) h
  rw [List.append_nil] at happend
  exact happend.trans (List.append_nil l)

theorem quotesAfter_append {q q' : Bool} {l r : Line} (h : quotesAfter q l = some q') :
    quotesAfter q (l ++ r) = quotesAfter q' r := by
  induction l generalizing q with
  | nil =>
    cases h
    rfl
  | cons c rest ih =>
    simp only [quotesAfter, List.cons_append] at h ⊢
    by_cases hquote : c = '"'
    · rw [if_pos hquote] at h ⊢
      exact ih h
    · rw [if_neg hquote] at h ⊢
      by_cases hcomment : c = '#' ∧ q = false
      · rw [if_pos hcomment] at h
        cases h
      · rw [if_neg hcomment] at h ⊢
        exact ih h

/-- Nothing happens where there is no mark, and no `#` outside of marks. -/
theorem quotesAfter_unmarked {q : Bool} {l : Line} (h : ∀ c ∈ l, c ≠ '"' ∧ (c = '#' → q = true)) :
    quotesAfter q l = some q := by
  induction l with
  | nil => rfl
  | cons c rest ih =>
    have hc := h c List.mem_cons_self
    rw [quotesAfter, if_neg hc.1, if_neg]
    · exact ih fun c' hc' => h c' (List.mem_cons_of_mem c hc')
    · rintro ⟨hhash, hq⟩
      rw [hc.2 hhash] at hq
      cases hq

theorem rdropWhile_append_cons {p : Char → Bool} {x : Char} (hx : ¬ p x = true) (l w : Line) :
    (l ++ x :: w).rdropWhile p = l ++ x :: w.rdropWhile p := by
  induction w using List.reverseRecOn with
  | nil =>
    rw [List.rdropWhile_concat_neg _ _ _ hx]
    rfl
  | append_singleton w y ih =>
    have hassoc : l ++ x :: (w ++ [y]) = (l ++ x :: w) ++ [y] := by simp
    rw [hassoc]
    by_cases hy : p y = true
    · rw [List.rdropWhile_concat_pos _ _ _ hy, List.rdropWhile_concat_pos _ _ _ hy, ih]
    · rw [List.rdropWhile_concat_neg _ _ _ hy, List.rdropWhile_concat_neg _ _ _ hy]
      exact hassoc.symm

/-- A text that does not begin or end with a space. -/
structure Solid (l : Line) : Prop where
  first : ∀ c ∈ l.head?, isSpace c = false
  last : ∀ c ∈ l.getLast?, isSpace c = false

theorem rdropWhile_solid {l : Line} (h : Solid l) : l.rdropWhile isSpace = l := by
  rw [List.rdropWhile_eq_self_iff]
  intro hl
  rw [h.last _ (List.getLast?_eq_getLast_of_ne_nil hl)]
  exact Bool.false_ne_true

theorem dropWhile_solid {l : Line} (h : Solid l) : l.dropWhile isSpace = l := by
  cases l with
  | nil => rfl
  | cons c rest => rw [List.dropWhile_cons_of_neg (by simp [h.first c rfl])]

theorem trim_solid {l : Line} (h : Solid l) : trim l = l := by
  rw [trim, dropWhile_solid h, rdropWhile_solid h]

theorem head?_trim {c : Char} (hc : isSpace c = false) (rest : Line) :
    (trim (c :: rest)).head? = some c := by
  rw [trim, List.dropWhile_cons_of_neg (by simp [hc]), ← List.nil_append (c :: rest),
    rdropWhile_append_cons (by simp [hc])]
  rfl

/-- The line of a key and a value. -/
def entryLine (key value : Line) : Line := key ++ ' ' :: '=' :: ' ' :: value

/-- What the reader takes of a value that is written behind its key. -/
def written (value : Line) : Line := trim ((' ' :: uncommented false value).rdropWhile isSpace)

/-- What it makes of one that is to be a string. -/
def asRead (value : Line) : Line := stripQuotes (written value)

theorem stripComment_entry {key : Line} {c : Char} {q : Bool} (hhead : key.head? = some c)
    (hc : isSpace c = false) (hkey : quotesAfter false key = some q) (value : Line) :
    stripComment (entryLine key value) =
      key ++ ' ' :: '=' :: (' ' :: uncommented q value).rdropWhile isSpace := by
  have hrest : uncommented q (' ' :: '=' :: ' ' :: value) =
      ' ' :: '=' :: ' ' :: uncommented q value := by
    simp [uncommented]
  obtain ⟨rest, rfl⟩ := List.head?_eq_some_iff.mp hhead
  rw [stripComment, entryLine, uncommented_append hkey, hrest, trim, List.cons_append,
    List.dropWhile_cons_of_neg (by simp [hc]), ← List.cons_append]
  have hsplit : c :: rest ++ ' ' :: '=' :: ' ' :: uncommented q value =
      (c :: rest ++ [' ']) ++ '=' :: ' ' :: uncommented q value := by simp
  rw [hsplit, rdropWhile_append_cons (by decide)]
  simp

theorem span_entry {key : Line} (h : '=' ∉ key) (w : Line) :
    (key ++ ' ' :: '=' :: w).span (· ≠ '=') = (key ++ [' '], '=' :: w) := by
  have hbefore : ∀ c ∈ key ++ [' '], decide (c ≠ '=') = true := by
    intro c hc
    obtain hc | hc := List.mem_append.mp hc
    · have hne : c ≠ '=' := by
        rintro rfl
        exact h hc
      simpa using hne
    · cases List.mem_singleton.mp hc
      decide
  have hsplit : key ++ ' ' :: '=' :: w = (key ++ [' ']) ++ '=' :: w := by simp
  rw [List.span_eq_takeWhile_dropWhile, hsplit, List.takeWhile_append_of_pos hbefore,
    List.dropWhile_append_of_pos hbefore]
  simp

theorem trim_key {key : Line} (h : Solid key) (hne : key ≠ []) : trim (key ++ [' ']) = key := by
  obtain ⟨c, rest, rfl⟩ := List.exists_cons_of_ne_nil hne
  have hc := h.first c rfl
  rw [trim, List.cons_append, List.dropWhile_cons_of_neg (by simp [hc]), ← List.cons_append,
    List.rdropWhile_concat_pos _ _ _ (by decide), rdropWhile_solid h]

section Keys
variable {key : String}

theorem bare_ne (h : Bare key) {c d : Char} (hc : c ∈ key.toList) (hd : bareChar d = false) :
    c ≠ d := by
  rintro rfl
  rw [h.2 c hc] at hd
  cases hd

theorem bare_isSpace (h : Bare key) {c : Char} (hc : c ∈ key.toList) : isSpace c = false := by
  have h1 := bare_ne h hc (d := ' ') (by decide)
  have h2 := bare_ne h hc (d := '\t') (by decide)
  have h3 := bare_ne h hc (d := '\r') (by decide)
  have h4 := bare_ne h hc (d := '\n') (by decide)
  simp [isSpace, h1, h2, h3, h4]

theorem bare_solid (h : Bare key) : Solid key.toList :=
  ⟨fun _ hc => bare_isSpace h (List.mem_of_head? hc),
    fun _ hc => bare_isSpace h (List.mem_of_getLast? hc)⟩

/-- The line of a bare key is no header, and is split behind the key. -/
theorem line_bare (h : Bare key) (value : Line) :
    ∃ first rest, stripComment (entryLine key.toList value) = first :: rest ∧
      (trim (first :: rest)).head? ≠ some '[' ∧
      splitKeyValue (first :: rest) = .ok (key.toList, written value) := by
  obtain ⟨c, rest, hcons⟩ := List.exists_cons_of_ne_nil h.1
  have hhead : key.toList.head? = some c := by
    rw [hcons]
    rfl
  have hmem : c ∈ key.toList := List.mem_of_head? hhead
  have hspace := bare_isSpace h hmem
  have hbracket : c ≠ '[' := bare_ne h hmem (by decide)
  have hequals : '=' ∉ key.toList := fun heq => bare_ne h heq (by decide) rfl
  have hquotes : quotesAfter false key.toList = some false := by
    apply quotesAfter_unmarked
    intro d hd
    exact ⟨bare_ne h hd (by decide), fun hhash => absurd hhash (bare_ne h hd (by decide))⟩
  have htrim : trim (key.toList ++ [' ']) = key.toList := trim_key (bare_solid h) h.1
  have hline := stripComment_entry hhead hspace hquotes value
  have hsplit : splitKeyValue (key.toList ++ ' ' :: '=' ::
      (' ' :: uncommented false value).rdropWhile isSpace) =
        .ok (key.toList, written value) := by
    rw [splitKeyValue, span_entry hequals]
    simp only [htrim, if_neg h.1]
    rfl
  have hcons' : ∀ tail, key.toList ++ tail = c :: (rest ++ tail) := fun tail => by
    rw [hcons, List.cons_append]
  rw [hcons'] at hline hsplit
  refine ⟨c, _, hline, ?_, hsplit⟩
  rw [head?_trim hspace]
  exact fun heq => hbracket (Option.some.inj heq)

end Keys

section Strings

/-- A comment cuts off a line at a number sign. -/
theorem uncommented_cut (q : Bool) (l : Line) :
    uncommented q l = l ∨ ∃ tail, uncommented q l ++ '#' :: tail = l := by
  induction l generalizing q with
  | nil => exact .inl rfl
  | cons c rest ih =>
    rw [uncommented]
    by_cases hquote : c = '"'
    · rw [if_pos hquote]
      obtain h | ⟨tail, h⟩ := ih (!q)
      · exact .inl (congrArg (c :: ·) h)
      · exact .inr ⟨tail, congrArg (c :: ·) h⟩
    · rw [if_neg hquote]
      by_cases hcomment : c = '#' ∧ q = false
      · rw [if_pos hcomment]
        exact .inr ⟨rest, congrArg (· :: rest) hcomment.1.symm⟩
      · rw [if_neg hcomment]
        obtain h | ⟨tail, h⟩ := ih q
        · exact .inl (congrArg (c :: ·) h)
        · exact .inr ⟨tail, congrArg (c :: ·) h⟩

theorem rdropWhile_cons {c : Char} (hc : isSpace c = false) (w : Line) :
    (c :: w).rdropWhile isSpace = c :: w.rdropWhile isSpace :=
  rdropWhile_append_cons (l := []) (by rw [hc]; exact Bool.false_ne_true) w

theorem trim_cons {c : Char} (hc : isSpace c = false) (w : Line) :
    trim (c :: w) = c :: w.rdropWhile isSpace := by
  rw [trim, List.dropWhile_cons_of_neg (by simp [hc]), rdropWhile_cons hc]

theorem written_cons {value w : Line} {c : Char} (hc : isSpace c = false)
    (h : uncommented false value = c :: w) : written value = c :: w.rdropWhile isSpace := by
  have hspaced : (' ' :: c :: w).rdropWhile isSpace = ' ' :: c :: w.rdropWhile isSpace :=
    rdropWhile_append_cons (l := [' ']) (by rw [hc]; exact Bool.false_ne_true) w
  rw [written, h, hspaced, trim, List.dropWhile_cons_of_pos (by decide), ← trim, trim_cons hc,
    List.rdropWhile_idempotent]

theorem asRead_cons {value w : Line} {c : Char} (hc : isSpace c = false)
    (h : uncommented false value = c :: w) :
    asRead value = if c = '"' ∧ (w.rdropWhile isSpace).getLast? = some '"' then
      (w.rdropWhile isSpace).dropLast else c :: w.rdropWhile isSpace := by
  rw [asRead, written_cons hc h, stripQuotes, trim_cons hc, List.rdropWhile_idempotent]

theorem asRead_plain {l : Line} (h : ∀ c ∈ l, plainChar c = true) :
    asRead ('"' :: l ++ ['"']) = l := by
  have hmarks : quotesAfter true (l ++ ['"']) = some false := by
    rw [quotesAfter_append (quotesAfter_unmarked fun c hc =>
      ⟨TomlText.plainChar_ne (h c hc) (by decide), fun _ => rfl⟩)]
    rfl
  have hwhole : quotesAfter false ('"' :: l ++ ['"']) = some false := hmarks
  have hkept : uncommented false ('"' :: l ++ ['"']) = '"' :: (l ++ ['"']) :=
    uncommented_self hwhole
  have hlast : (l ++ ['"']).rdropWhile isSpace = l ++ ['"'] :=
    List.rdropWhile_concat_neg _ _ _ (by decide)
  rw [asRead_cons (by decide) hkept, hlast, List.getLast?_concat, if_pos ⟨rfl, rfl⟩,
    List.dropLast_concat]

/-- What stands in front of a text is there when the spaces behind it are gone. -/
theorem prefix_rdropWhile {l : Line} {x : Char} (hlast : l.getLast? = some x)
    (hx : isSpace x = false) (w : Line) : l <+: (l ++ w).rdropWhile isSpace := by
  obtain ⟨front, rfl⟩ := List.getLast?_eq_some_iff.mp hlast
  rw [List.append_assoc, List.singleton_append,
    rdropWhile_append_cons (by rw [hx]; exact Bool.false_ne_true)]
  exact ⟨w.rdropWhile isSpace, by rw [List.append_assoc, List.singleton_append]⟩

theorem literalQuotes_cons {quote : Line} (h : quote ∈ TomlText.literalQuotes) :
    (∃ rest, quote = '\'' :: rest) ∧ quotesAfter false quote = some false ∧
      quote.getLast? = some '\'' := by
  simp only [TomlText.literalQuotes, List.mem_cons, List.not_mem_nil, or_false] at h
  obtain rfl | rfl := h
  · exact ⟨⟨_, rfl⟩, rfl, rfl⟩
  · exact ⟨⟨_, rfl⟩, rfl, rfl⟩

/-- A literal is read with its quotes. -/
theorem asRead_literal {quote s : Line} (hquote : quote ∈ TomlText.literalQuotes)
    (hs : ¬ quote <:+: s) : asRead (quote ++ s ++ quote) ≠ s := by
  obtain ⟨⟨rest, rfl⟩, hmarks, hlast⟩ := literalQuotes_cons hquote
  have hkept : uncommented false ('\'' :: rest ++ s ++ '\'' :: rest) =
      '\'' :: (rest ++ uncommented false (s ++ '\'' :: rest)) := by
    rw [List.append_assoc, uncommented_append hmarks]
    rfl
  intro hread
  rw [asRead_cons (by decide) hkept, if_neg fun h => absurd h.1 (by decide),
    ← rdropWhile_cons (by decide)] at hread
  apply hs
  rw [← hread]
  exact (prefix_rdropWhile hlast (by decide) _).isInfix

theorem cut_within {kept tail l q : Line} (hq : '#' ∉ q) (h : kept ++ '#' :: tail = l ++ q) :
    kept <+: l ∧ '#' ∈ l := by
  obtain ⟨w, rfl, hrest⟩ | ⟨w, -, hrest⟩ := List.append_eq_append_iff.mp h
  · cases w with
    | nil =>
      rw [List.nil_append] at hrest
      exact absurd (hrest ▸ List.mem_cons_self) hq
    | cons c w =>
      rw [List.cons_append, List.cons.injEq] at hrest
      exact ⟨⟨_, rfl⟩, List.mem_append_right _ (hrest.1 ▸ List.mem_cons_self)⟩
  · exact absurd (hrest ▸ List.mem_append_right w List.mem_cons_self) hq

/-- A text between marks is read up to its end, or up to a number sign in it that begins a
comment. -/
theorem asRead_marked (marks body : Line) (hmarks : '#' ∉ marks) :
    asRead ('"' :: (marks ++ body ++ (marks ++ ['"']))) = marks ++ body ++ marks ∨
      '#' ∈ body ∧ ∃ l, l <+: marks ++ body ∧
        (asRead ('"' :: (marks ++ body ++ (marks ++ ['"']))) = '"' :: l ∨
          asRead ('"' :: (marks ++ body ++ (marks ++ ['"']))) ++ ['"'] = l) := by
  have hkept : uncommented false ('"' :: (marks ++ body ++ (marks ++ ['"']))) =
      '"' :: uncommented true (marks ++ body ++ (marks ++ ['"'])) := rfl
  rw [asRead_cons (by decide) hkept]
  have hcut := uncommented_cut true (marks ++ body ++ (marks ++ ['"']))
  generalize uncommented true (marks ++ body ++ (marks ++ ['"'])) = kept at hcut
  obtain rfl | ⟨tail, htail⟩ := hcut
  · left
    rw [← List.append_assoc, List.rdropWhile_concat_neg _ _ _ (by decide), List.getLast?_concat,
      if_pos ⟨rfl, rfl⟩, List.dropLast_concat]
  · right
    have hends : '#' ∉ marks ++ ['"'] := by
      rw [List.mem_append, not_or]
      exact ⟨hmarks, by decide⟩
    obtain ⟨hbegins, hhash⟩ := cut_within hends htail
    rw [List.mem_append, or_iff_right hmarks] at hhash
    have hkept : kept.rdropWhile isSpace <+: kept := List.rdropWhile_prefix _ _
    refine ⟨hhash, kept.rdropWhile isSpace, hkept.trans hbegins, ?_⟩
    by_cases hlast : (kept.rdropWhile isSpace).getLast? = some '"'
    · right
      obtain ⟨front, hfront⟩ := List.getLast?_eq_some_iff.mp hlast
      rw [if_pos ⟨rfl, hlast⟩, hfront, List.dropLast_concat]
    · left
      rw [if_neg fun hboth => hlast hboth.2]

section Written
variable {α β : Type} {style : TomlStyle α β} {s : Line}

/-- What has escapes is not read as what it stands for. -/
theorem asRead_escaped (h : ¬ ∀ c ∈ s, plainChar c = true) :
    asRead ('"' :: s.flatMap style.escape ++ ['"']) ≠ s := by
  intro hread
  have hmarked := asRead_marked [] (s.flatMap style.escape) List.not_mem_nil
  have hshape : '"' :: ([] ++ s.flatMap style.escape ++ ([] ++ ['"'])) =
      '"' :: s.flatMap style.escape ++ ['"'] := rfl
  rw [hshape, hread, List.nil_append, List.append_nil] at hmarked
  obtain hwhole | ⟨hhash, l, hl, hcut | hcut⟩ := hmarked
  · -- both marks are gone, but the escapes make the text longer
    have hlength := TomlText.length_lt_escaped style h
    rw [← hwhole] at hlength
    exact Nat.lt_irrefl _ hlength
  · -- the closing mark is in a comment, and the opening one shifts the first number sign
    have hkeeps := TomlText.escape_keeps style (.inr rfl)
    obtain ⟨c, hc, hescape⟩ := List.mem_flatMap.mp hhash
    refine hkeeps.not_begins_shifted (w := ['"']) (hkeeps.mem c hescape ▸ hc) (by decide)
      (by decide) ?_
    have hbegins : '"' :: l <+: ['"'] ++ s.flatMap style.escape :=
      List.cons_prefix_cons.mpr ⟨rfl, hl⟩
    exact hcut ▸ hbegins
  · -- what is left in front of the comment ends with an escaped mark
    exact TomlText.not_begins_quoted (w := []) List.not_mem_nil (hcut ▸ hl)

/-- What stands between three marks is not read as it is. -/
theorem asRead_long :
    asRead (TomlText.longQuote ++ s.flatMap style.escapeLong ++ TomlText.longQuote) ≠ s := by
  intro hread
  have hmarked := asRead_marked ['"', '"'] (s.flatMap style.escapeLong) (by decide)
  have hshape : '"' :: (['"', '"'] ++ s.flatMap style.escapeLong ++ (['"', '"'] ++ ['"'])) =
      TomlText.longQuote ++ s.flatMap style.escapeLong ++ TomlText.longQuote := rfl
  rw [hshape, hread] at hmarked
  have hkeeps := TomlText.escapeLong_keeps style (.inr rfl)
  obtain hwhole | ⟨hhash, l, hl, hcut⟩ := hmarked
  · have hlength := congrArg List.length hwhole
    have hle := hkeeps.length_le s
    simp only [List.length_append, List.length_cons, List.length_nil] at hlength
    omega
  · obtain ⟨c, hc, hescape⟩ := List.mem_flatMap.mp hhash
    have hs : '#' ∈ s := hkeeps.mem c hescape ▸ hc
    obtain hcut | hcut := hcut
    · have hbegins : s <+: ['"', '"', '"'] ++ s.flatMap style.escapeLong := by
        nth_rewrite 1 [hcut]
        exact List.cons_prefix_cons.mpr ⟨rfl, hl⟩
      exact hkeeps.not_begins_shifted hs (by decide) (by decide) hbegins
    · exact hkeeps.not_begins_shifted hs (w := ['"', '"']) (by decide) (by decide)
        ((hcut ▸ List.prefix_append s ['"']).trans hl)

/-- A string on one line is read as it is exactly if nothing in it is quoted in another way. -/
theorem asRead_string_iff (style : TomlStyle α β) {s : String} (h : '\n' ∉ s.toList) :
    asRead (style.string s) = s.toList ↔ Plain s := by
  constructor
  · intro hread
    by_contra hplain
    obtain ⟨quote, hquote, hstring, hnone⟩ | hstring | hstring := style.string_line s h hplain
    · rw [hstring] at hread
      exact asRead_literal hquote hnone hread
    · rw [hstring] at hread
      exact asRead_escaped hplain hread
    · rw [hstring] at hread
      exact asRead_long hread
  · intro hplain
    rw [style.string_plain s hplain]
    exact asRead_plain hplain

end Written

end Strings

section Values

theorem written_unmarked {l : Line} (hne : l ≠ [])
    (h : ∀ c ∈ l, isSpace c = false ∧ c ≠ '"' ∧ c ≠ '#') : written l = l := by
  obtain ⟨c, rest, rfl⟩ := List.exists_cons_of_ne_nil hne
  have hkept : uncommented false (c :: rest) = c :: rest :=
    uncommented_self (quotesAfter_unmarked fun d hd =>
      ⟨(h d hd).2.1, fun hhash => absurd hhash (h d hd).2.2⟩)
  have hsolid : Solid (c :: rest) :=
    ⟨fun d hd => (h d (List.mem_of_head? hd)).1, fun d hd => (h d (List.mem_of_getLast? hd)).1⟩
  have hc := (h c List.mem_cons_self).1
  rw [written_cons hc hkept, ← rdropWhile_cons hc, rdropWhile_solid hsolid]

theorem isDigit_unmarked {c : Char} (h : c.isDigit = true) :
    isSpace c = false ∧ c ≠ '"' ∧ c ≠ '#' := by
  refine ⟨?_, ?_, ?_⟩
  · rw [Bool.eq_false_iff]
    intro hspace
    simp only [isSpace, Bool.or_eq_true, decide_eq_true_eq] at hspace
    obtain ((rfl | rfl) | rfl) | rfl := hspace <;> cases h
  · rintro rfl
    cases h
  · rintro rfl
    cases h

theorem toString_int (n : ℕ) : (toString (n : ℤ)).toList = Nat.toDigits 10 n := Nat.toList_repr

/-- A number is read as it was written. -/
theorem parseU32Value_written (n : UInt32) :
    parseU32Value (written (toString (n.toNat : ℤ)).toList) = .ok n := by
  rw [toString_int]
  have hdigits : ∀ c ∈ Nat.toDigits 10 n.toNat, c.isDigit = true := fun c hc =>
    Nat.isDigit_of_mem_toDigits (Nat.succ_pos 9) (Nat.le_refl 10) hc
  have hne : Nat.toDigits 10 n.toNat ≠ [] := Nat.toDigits_ne_nil
  have hsolid : Solid (Nat.toDigits 10 n.toNat) :=
    ⟨fun d hd => (isDigit_unmarked (hdigits d (List.mem_of_head? hd))).1,
      fun d hd => (isDigit_unmarked (hdigits d (List.mem_of_getLast? hd))).1⟩
  rw [written_unmarked hne fun c hc => isDigit_unmarked (hdigits c hc), parseU32Value,
    trim_solid hsolid, fromChars, Nat.ofDigitChars_ten_toDigits,
    if_pos ⟨hne, List.all_eq_true.mpr hdigits, n.toNat_lt⟩, UInt32.ofNat_toNat]
  rfl

theorem parseBoolValue_written (b : Bool) :
    parseBoolValue (written (toString b).toList) = .ok b := by
  cases b <;> decide

end Values

end DeviceLines
