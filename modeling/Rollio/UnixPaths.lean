import Mathlib.Data.List.Induction

/-! Paths of bytes as a Unix system and its standard library read them: components, pushing,
popping, and the location that an absolute path denotes lexically. -/
namespace UnixPaths

abbrev Path := List UInt8
abbrev Name := List UInt8

def slash : UInt8 := 47

def dotdot : Name := [46, 46]

def ofString (s : String) : Path := s.toUTF8.data.toList

inductive Component where
  | rootDir | curDir | parentDir
  | normal (name : Name)
  deriving DecidableEq, Repr

def Component.asOsStr : Component → Name
  | .rootDir => [slash]
  | .curDir => [46]
  | .parentDir => dotdot
  | .normal name => name

def isAbsolute (p : Path) : Bool := p.head? = some slash

/-- What stands between the separators, which may be repeated. -/
def parts (p : Path) : List Name := (p.splitOn slash).filter (· ≠ [])

/-- A `.` in a path says nothing. -/
def body (name : Name) : Option Component :=
  if name = [46] then none else if name = dotdot then some .parentDir else some (.normal name)

/-- Only a `.` at the front of a relative path is a component. -/
def components (p : Path) : List Component :=
  if isAbsolute p then .rootDir :: (parts p).filterMap body
  else if (parts p).head? = some [46] then .curDir :: (parts p).tail.filterMap body
  else (parts p).filterMap body

/-- `PathBuf::push`: an absolute path replaces what was there. -/
def push (p : Path) (x : Path) : Path :=
  if isAbsolute x then x
  else if p.getLast?.all (· == slash) then p ++ x
  else p ++ slash :: x

def join (p : Path) (x : Path) : Path := push p x

/-- The reversed path without the separators and the `.` components it ends in. -/
def trimRev : List UInt8 → List UInt8
  | 47 :: rest => if rest = [] then [47] else trimRev rest
  | 46 :: 47 :: rest => trimRev (47 :: rest)
  | p => p

def parent (p : Path) : Option Path :=
  let trimmed := trimRev p.reverse
  if trimmed = [] ∨ trimmed = [slash] then none
  else some (trimRev (trimmed.dropWhile (· ≠ slash))).reverse

/-- `PathBuf::pop`, and whether there was anything to pop. -/
def pop (p : Path) : Path × Bool :=
  match parent p with
  | some q => (q, true)
  | none => (p, false)

/-- The location of a directory that is entered, from the root; the root is above itself. -/
def walk (location : List Name) : Component → List Name
  | .rootDir => []
  | .curDir => location
  | .parentDir => location.dropLast
  | .normal name => location ++ [name]

/-- The location that an absolute path denotes, component by component. -/
def denotes (p : Path) : List Name := (components p).foldl walk []

section Parts
variable {p x : Path} {name : Name}

theorem parts_push (p : Path) (hx : isAbsolute x = false) :
    parts (push p x) = parts p ++ parts x := by
  unfold push
  rw [if_neg (by simp [hx])]
  split
  · next hlast =>
    rcases List.eq_nil_or_concat p with rfl | ⟨q, b, rfl⟩
    · rfl
    · rw [List.concat_eq_append] at hlast ⊢
      rw [List.getLast?_concat] at hlast
      have hb : b = slash := by simpa using hlast
      subst hb
      rw [List.append_assoc, parts, parts, parts, List.singleton_append,
        List.splitOn_append_cons_self, List.splitOn_append_cons_self]
      simp
  · rw [parts, parts, parts, List.splitOn_append_cons_self, List.filter_append]

/-- A separator stands in no piece, and what holds of the bytes between two separators holds of
every piece. -/
theorem splitOn_append (h : slash ∉ x) (p : Path) :
    (x ++ p).splitOn slash = (p.splitOn slash).modifyHead (x ++ ·) := by
  induction x with
  | nil =>
    rw [List.nil_append]
    cases p.splitOn slash with
    | nil => rfl
    | cons piece pieces => rfl
  | cons b x ih =>
    rw [List.mem_cons, not_or] at h
    obtain ⟨hb, hx⟩ := h
    have hne : (b == slash) = false := by simpa using Ne.symm hb
    rw [List.cons_append, List.splitOn_cons_eq_if_modifyHead, hne, ih hx]
    cases p.splitOn slash with
    | nil => rfl
    | cons piece pieces => rfl

theorem slash_notMem_splitOn (h : name ∈ p.splitOn slash) : slash ∉ name := by
  induction p generalizing name with
  | nil =>
    obtain rfl := List.mem_singleton.mp h
    exact List.not_mem_nil
  | cons b p ih =>
    rw [List.splitOn_cons_eq_if_modifyHead] at h
    split at h
    · rcases List.mem_cons.mp h with rfl | h
      · exact List.not_mem_nil
      · exact ih h
    · next hb =>
      cases hp : p.splitOn slash with
      | nil => exact absurd hp (List.splitOn_ne_nil slash p)
      | cons piece pieces =>
        rw [hp, List.modifyHead_cons] at h
        rcases List.mem_cons.mp h with rfl | h
        · have hpiece := ih (hp ▸ List.mem_cons_self)
          rw [List.mem_cons, not_or]
          exact ⟨fun hslash => hb (by simp [hslash]), hpiece⟩
        · exact ih (hp ▸ List.mem_cons_of_mem piece h)

theorem mem_parts (h : name ∈ parts p) : name ≠ [] ∧ slash ∉ name := by
  obtain ⟨hmem, hne⟩ := List.mem_filter.mp h
  exact ⟨by simpa using hne, slash_notMem_splitOn hmem⟩

end Parts

section Popping

/-- A name that is a component by itself. -/
structure Single (name : Name) : Prop where
  nonempty : name ≠ []
  unsplit : slash ∉ name
  notDot : name ≠ [46]

/-- The path ends in no separator and no `.`, except for the root. -/
def Trimmed (p : Path) : Prop := p ≠ [] ∧ trimRev p.reverse = p.reverse

variable {p : Path} {name : Name}

theorem Single.relative (h : Single name) : isAbsolute name = false := by
  cases name with
  | nil => rfl
  | cons b name =>
    have hb : b ≠ slash := fun hb => h.unsplit (hb ▸ List.mem_cons_self)
    simpa [isAbsolute] using hb

theorem parts_single (h : Single name) : parts name = [name] := by
  rw [parts, List.splitOn_eq_singleton h.unsplit]
  simp [h.nonempty]

theorem trimRev_single (h : Single name) (rest : List UInt8) :
    trimRev (name.reverse ++ slash :: rest) = name.reverse ++ slash :: rest := by
  have hne : name.reverse ≠ [] := by simpa using h.nonempty
  obtain ⟨b, front, hb⟩ := List.exists_cons_of_ne_nil hne
  have hslash : b ≠ 47 := by
    rintro rfl
    exact h.unsplit (List.mem_reverse.mp (hb ▸ List.mem_cons_self))
  rw [hb, List.cons_append]
  cases front with
  | nil =>
    have hdot : b ≠ 46 := by
      rintro rfl
      exact h.notDot (by simpa using congrArg List.reverse hb)
    rw [List.nil_append]
    unfold trimRev
    split
    · next heq =>
      exact absurd (List.cons.inj heq).1 hslash
    · next heq => exact absurd (List.cons.inj heq).1 hdot
    · rfl
  | cons b' front =>
    have hslash' : b' ≠ 47 := by
      rintro rfl
      exact h.unsplit (List.mem_reverse.mp (hb ▸ List.mem_cons_of_mem b List.mem_cons_self))
    unfold trimRev
    split
    · next heq => exact absurd (List.cons.inj heq).1 hslash
    · next heq => exact absurd (List.cons.inj (List.cons.inj heq).2).1 hslash'
    · rfl

theorem trimmed_slash : Trimmed [slash] := ⟨List.cons_ne_nil _ _, rfl⟩

theorem push_reverse (hp : Trimmed p) (h : Single name) :
    ∃ rest, (push p name).reverse = name.reverse ++ slash :: rest ∧
      trimRev (slash :: rest) = p.reverse := by
  rw [push, if_neg (by simp [h.relative])]
  rcases List.eq_nil_or_concat p with rfl | ⟨q, b, rfl⟩
  · exact absurd rfl hp.1
  · rw [List.concat_eq_append] at hp ⊢
    rw [List.getLast?_concat, Option.all_some]
    have htrim := hp.2
    rw [List.reverse_concat] at htrim
    by_cases hb : b = slash
    · subst hb
      rw [if_pos (by simp)]
      refine ⟨q.reverse, by simp, ?_⟩
      rw [List.reverse_concat, htrim]
    · rw [if_neg (by simpa using hb)]
      refine ⟨b :: q.reverse, by simp, ?_⟩
      rw [slash, trimRev, if_neg (List.cons_ne_nil _ _), List.reverse_concat, htrim]

theorem trimmed_push (hp : Trimmed p) (h : Single name) : Trimmed (push p name) := by
  obtain ⟨rest, hrev, -⟩ := push_reverse hp h
  refine ⟨?_, ?_⟩
  · intro hnil
    rw [hnil] at hrev
    exact absurd hrev (by simp)
  · rw [hrev]
    exact trimRev_single h rest

theorem pop_push (hp : Trimmed p) (h : Single name) : pop (push p name) = (p, true) := by
  obtain ⟨rest, hrev, htrim⟩ := push_reverse hp h
  have hdrop : (name.reverse ++ slash :: rest).dropWhile (· ≠ slash) = slash :: rest := by
    rw [List.dropWhile_append_of_pos]
    · simp
    · intro b hb
      have hne : b ≠ slash := fun hb' => h.unsplit (List.mem_reverse.mp (hb' ▸ hb))
      simpa using hne
  have hlong : name.reverse ++ slash :: rest ≠ [slash] := by
    intro hslash
    have hlength := congrArg List.length hslash
    have hpos := List.length_pos_iff.mpr h.nonempty
    simp only [List.length_append, List.length_reverse, List.length_cons, List.length_nil]
      at hlength
    omega
  have hparent : parent (push p name) = some p := by
    unfold parent
    dsimp only
    rw [hrev, trimRev_single h, hdrop, htrim, List.reverse_reverse, if_neg]
    exact not_or.mpr ⟨by simp, hlong⟩
  rw [pop, hparent]

end Popping

section Rendered

def render (names : List Name) : Path := names.foldl push [slash]

theorem render_append (names : List Name) (name : Name) :
    render (names ++ [name]) = push (render names) name := List.foldl_append

variable {names : List Name} {name : Name}

theorem trimmed_render (h : ∀ name ∈ names, Single name) : Trimmed (render names) := by
  induction names using List.reverseRec with
  | nil => exact trimmed_slash
  | append_singleton names name ih =>
    rw [render_append]
    exact trimmed_push (ih fun x hx => h x (List.mem_append_left _ hx)) (h name (by simp))

theorem parts_render (h : ∀ name ∈ names, Single name) : parts (render names) = names := by
  induction names using List.reverseRec with
  | nil => rfl
  | append_singleton names name ih =>
    have hname := h name (by simp)
    rw [render_append, parts_push _ hname.relative, parts_single hname,
      ih fun x hx => h x (List.mem_append_left _ hx)]

theorem absolute_push {p : Path} (hp : isAbsolute p) (hname : isAbsolute name = false) :
    isAbsolute (push p name) := by
  cases p with
  | nil => cases hp
  | cons b p =>
    rw [push, if_neg (by simp [hname])]
    split
    · exact hp
    · exact hp

theorem absolute_render (h : ∀ name ∈ names, Single name) : isAbsolute (render names) := by
  induction names using List.reverseRec with
  | nil => rfl
  | append_singleton names name ih =>
    rw [render_append]
    exact absolute_push (ih fun x hx => h x (List.mem_append_left _ hx)) (h name (by simp)).relative

theorem components_render (h : ∀ name ∈ names, Single name) :
    components (render names) = .rootDir :: names.filterMap body := by
  rw [components, if_pos (absolute_render h), parts_render h]

theorem absolute_join {p x : Path} (hp : isAbsolute p) : isAbsolute (join p x) := by
  cases hx : isAbsolute x with
  | true => rw [join, push, if_pos hx, hx]
  | false => exact absolute_push hp hx

end Rendered

section Utf8

def Utf8 (bytes : List UInt8) : Prop := (⟨bytes.toArray⟩ : ByteArray).IsValidUTF8

instance (bytes : List UInt8) : Decidable (Utf8 bytes) :=
  inferInstanceAs (Decidable (ByteArray.IsValidUTF8 _))

def isContinuation (b : UInt8) : Bool := 0x80 ≤ b && b ≤ 0xBF

/-- The second byte of a sequence of three or four. -/
def secondFits (first second : UInt8) : Bool :=
  if first = 0xE0 then 0xA0 ≤ second && second ≤ 0xBF
  else if first = 0xED then 0x80 ≤ second && second ≤ 0x9F
  else if 0xE1 ≤ first && first ≤ 0xEF then isContinuation second
  else if first = 0xF0 then 0x90 ≤ second && second ≤ 0xBF
  else if 0xF1 ≤ first && first ≤ 0xF3 then isContinuation second
  else if first = 0xF4 then 0x80 ≤ second && second ≤ 0x8F
  else false

def invalidLength (first : UInt8) (rest : List UInt8) : ℕ :=
  if !secondFits first (rest.headD 0) then 1
  else if !isContinuation (rest.tail.headD 0) then 2
  else 3

def lossyChars : ℕ → List UInt8 → List Char
  | 0, _ => []
  | _, [] => []
  | fuel + 1, first :: rest =>
    match ByteArray.utf8DecodeChar? ⟨(first :: rest).toArray⟩ 0 with
    | some c => c :: lossyChars fuel ((first :: rest).drop c.utf8Size)
    | none => '\uFFFD' :: lossyChars fuel ((first :: rest).drop (invalidLength first rest))

def toStringLossy (p : Path) : String :=
  if h : (⟨p.toArray⟩ : ByteArray).IsValidUTF8 then String.fromUTF8 _ h
  else String.ofList (lossyChars p.length p)

variable {a b p : List UInt8}

theorem utf8_iff : Utf8 a ↔ ∃ chars : List Char, a = chars.flatMap String.utf8EncodeChar := by
  constructor
  · rintro ⟨chars, h⟩
    refine ⟨chars, ?_⟩
    have hbytes := congrArg (fun bytes : ByteArray => bytes.data.toList) h
    simpa [List.utf8Encode] using hbytes
  · rintro ⟨chars, rfl⟩
    refine ⟨chars, ?_⟩
    apply ByteArray.ext
    simp [List.utf8Encode]

theorem Utf8.append (ha : Utf8 a) (hb : Utf8 b) : Utf8 (a ++ b) := by
  obtain ⟨chars, rfl⟩ := utf8_iff.mp ha
  obtain ⟨chars', rfl⟩ := utf8_iff.mp hb
  exact utf8_iff.mpr ⟨chars ++ chars', List.flatMap_append.symm⟩

theorem ofString_toStringLossy (h : Utf8 p) : ofString (toStringLossy p) = p := by
  have hvalid : (⟨p.toArray⟩ : ByteArray).IsValidUTF8 := h
  rw [toStringLossy, dif_pos hvalid]
  rfl

theorem utf8_ofString (s : String) : Utf8 (ofString s) := s.isValidUTF8

theorem slash_ne_ofNat {n : ℕ} (hn : n < 256) (hne : n ≠ 47) : slash ≠ UInt8.ofNat n := by
  intro h
  have hnat := congrArg UInt8.toNat h
  rw [UInt8.toNat_ofNat', Nat.mod_eq_of_lt hn] at hnat
  exact hne hnat.symm

/-- The separator is in the encoding of no other character. -/
theorem slash_notMem_encode {c : Char} (h : c ≠ '/') : slash ∉ String.utf8EncodeChar c := by
  have hc : c.val.toNat ≠ 47 := by
    intro heq
    exact h (Char.ext (UInt32.toNat_inj.mp heq))
  unfold String.utf8EncodeChar
  dsimp only
  generalize c.val.toNat = v at hc
  split
  · simp only [List.mem_singleton]
    exact slash_ne_ofNat (by omega) hc
  split
  · simp only [List.mem_cons, List.not_mem_nil, or_false, not_or]
    exact ⟨slash_ne_ofNat (by omega) (by omega), slash_ne_ofNat (by omega) (by omega)⟩
  split
  · simp only [List.mem_cons, List.not_mem_nil, or_false, not_or]
    exact ⟨slash_ne_ofNat (by omega) (by omega), slash_ne_ofNat (by omega) (by omega),
      slash_ne_ofNat (by omega) (by omega)⟩
  · simp only [List.mem_cons, List.not_mem_nil, or_false, not_or]
    exact ⟨slash_ne_ofNat (by omega) (by omega), slash_ne_ofNat (by omega) (by omega),
      slash_ne_ofNat (by omega) (by omega), slash_ne_ofNat (by omega) (by omega)⟩

theorem utf8_splitOn (h : Utf8 p) : ∀ name ∈ p.splitOn slash, Utf8 name := by
  obtain ⟨chars, rfl⟩ := utf8_iff.mp h
  clear h
  induction chars with
  | nil =>
    intro name hname
    obtain rfl := List.mem_singleton.mp hname
    exact utf8_iff.mpr ⟨[], rfl⟩
  | cons c chars ih =>
    intro name hname
    rw [List.flatMap_cons] at hname
    by_cases hc : c = '/'
    · subst hc
      rcases List.mem_cons.mp hname with rfl | hname
      · exact utf8_iff.mpr ⟨[], rfl⟩
      · exact ih name hname
    · rw [splitOn_append (slash_notMem_encode hc)] at hname
      cases hp : (chars.flatMap String.utf8EncodeChar).splitOn slash with
      | nil => exact absurd hp (List.splitOn_ne_nil slash _)
      | cons piece pieces =>
        rw [hp, List.modifyHead_cons] at hname
        rw [hp] at ih
        rcases List.mem_cons.mp hname with rfl | hname
        · exact (utf8_iff.mpr ⟨[c], by simp⟩).append (ih piece List.mem_cons_self)
        · exact ih name (List.mem_cons_of_mem piece hname)

theorem utf8_push {p x : List UInt8} (hp : Utf8 p) (hx : Utf8 x) : Utf8 (push p x) := by
  have hslash : Utf8 [slash] := utf8_iff.mpr ⟨['/'], rfl⟩
  unfold push
  split
  · exact hx
  split
  · exact hp.append hx
  · exact hp.append (hslash.append hx)

theorem utf8_render {names : List Name} (h : ∀ name ∈ names, Utf8 name) : Utf8 (render names) := by
  induction names using List.reverseRec with
  | nil => exact utf8_iff.mpr ⟨['/'], rfl⟩
  | append_singleton names name ih =>
    rw [render_append]
    exact utf8_push (ih fun x hx => h x (List.mem_append_left _ hx)) (h name (by simp))

end Utf8

section Children
variable {p : Path} {name : Name}

theorem parts_child (p : Path) (h : Single name) : parts (p ++ slash :: name) = parts p ++ [name] := by
  rw [parts, List.splitOn_append_cons_self, List.filter_append]
  exact congrArg _ (parts_single h)

theorem denotes_child (hp : p ≠ []) (h : Single name) (hup : name ≠ dotdot) :
    denotes (p ++ slash :: name) = denotes p ++ [name] := by
  have hbody : body name = some (.normal name) := by
    rw [body, if_neg h.notDot, if_neg hup]
  have habsolute : isAbsolute (p ++ slash :: name) = isAbsolute p := by
    obtain ⟨b, rest, rfl⟩ := List.exists_cons_of_ne_nil hp
    rfl
  have hcomponents : components (p ++ slash :: name) = components p ++ [.normal name] := by
    unfold components
    rw [habsolute, parts_child p h]
    by_cases hroot : isAbsolute p = true
    · simp [hroot, hbody]
    · rw [if_neg hroot, if_neg hroot]
      cases hparts : parts p with
      | nil => simp [h.notDot, hbody]
      | cons first rest =>
        by_cases hfirst : first = [46]
        · simp [hfirst, hbody]
        · simp only [List.cons_append, List.head?_cons, Option.some.injEq, if_neg hfirst]
          rw [← List.cons_append, List.filterMap_append]
          simp [hbody]
  rw [denotes, hcomponents, List.foldl_append, denotes]
  rfl

/-- Two children of one location with a file below both of them are one. -/
theorem child_unique {location file : List Name} {name name' : Name}
    (h : location ++ [name] <+: file) (h' : location ++ [name'] <+: file) : name = name' := by
  have hsame := (List.prefix_of_prefix_length_le h h' (by simp)).eq_of_length (by simp)
  simpa using hsame

theorem ofString_eq (s : String) : ofString s = s.toList.flatMap String.utf8EncodeChar := by
  have hofList (chars : List Char) :
      ofString (String.ofList chars) = chars.flatMap String.utf8EncodeChar := by
    simp [ofString, List.utf8Encode]
  have hs := hofList s.toList
  rwa [String.ofList_toList] at hs

theorem ofString_injective : Function.Injective ofString := by
  intro s t h
  exact String.toByteArray_inj.mp (ByteArray.ext (Array.toList_inj.mp h))

@[simp] theorem ofString_append (s t : String) : ofString (s ++ t) = ofString s ++ ofString t := by
  rw [ofString_eq, ofString_eq, ofString_eq, String.toList_append, List.flatMap_append]

theorem length_ofString (s : String) : (ofString s).length = s.utf8ByteSize := by simp [ofString]

theorem single_ofString {s : String} (hslash : '/' ∉ s.toList) (hne : s ≠ "") (hdot : s ≠ ".") :
    Single (ofString s) where
  nonempty := fun hnil => hne (ofString_injective hnil)
  unsplit := by
    rw [ofString_eq, List.mem_flatMap]
    rintro ⟨c, hc, hbyte⟩
    exact slash_notMem_encode (fun heq => hslash (heq ▸ hc)) hbyte
  notDot := fun hone => hdot (ofString_injective hone)

end Children

end UnixPaths
