import Rollio.UnixPaths

/-! The paths of a project's settings, resolved against the directory the controller was started
in. -/
namespace InvocationPaths
open UnixPaths

def normalizeStep (out : Path) : Component → Path
  | .curDir => out
  | .parentDir =>
    let (popped, done) := pop out
    if done then popped else push out Component.parentDir.asOsStr
  | other => push out other.asOsStr

def normalizeLexical (path : Path) : Path :=
  let out := (components path).foldl normalizeStep []
  if out = [] then push out [46] else out

def resolveInvocationRelativePath (value : String) (invocationCwd : Path) : String :=
  let path := ofString value
  let joined := if isAbsolute path then path else join invocationCwd path
  toStringLossy (normalizeLexical joined)

/-- What a caller expects of the text that a value is resolved to. -/
structure Resolved (value : String) (invocationCwd : Path) : Prop where
  absolute : isAbsolute (ofString (resolveInvocationRelativePath value invocationCwd))
  located : denotes (ofString (resolveInvocationRelativePath value invocationCwd)) =
    denotes (join invocationCwd (ofString value))
  stable : ∀ other, isAbsolute other →
    resolveInvocationRelativePath (resolveInvocationRelativePath value invocationCwd) other =
      resolveInvocationRelativePath value invocationCwd

section Normalizing

/-- A name other than `.` and `..`. -/
structure Proper (name : Name) : Prop extends Single name where
  notParent : name ≠ dotdot

/-- The path built so far: the location from the root, behind at most one `..`, which the loop
leaves where there was nothing to pop. -/
structure Built (out : Path) (location : List Name) : Prop where
  rendered : out = render location ∨ out = render (dotdot :: location)
  proper : ∀ name ∈ location, Proper name

theorem single_dotdot : Single dotdot := ⟨by decide, by decide, by decide⟩

variable {out : Path} {location : List Name} {names : List Name}

theorem singles_of_proper (h : ∀ name ∈ location, Proper name) :
    ∀ name ∈ dotdot :: location, Single name := by
  intro name hname
  rcases List.mem_cons.mp hname with rfl | hname
  · exact single_dotdot
  · exact (h name hname).toSingle

/-- The names that a built path is rendered from. -/
theorem Built.rendering (h : Built out location) : ∃ names, out = render names ∧
    (names = location ∨ names = dotdot :: location) ∧ ∀ name ∈ names, Single name := by
  rcases h.rendered with heq | heq
  · exact ⟨location, heq, .inl rfl, fun x hx => (h.proper x hx).toSingle⟩
  · exact ⟨dotdot :: location, heq, .inr rfl, singles_of_proper h.proper⟩

theorem built_root : Built (render []) [] := ⟨.inl rfl, fun _ h => by cases h⟩

theorem built_normal (h : Built out location) {name : Name} (hname : Proper name) :
    Built (push out name) (location ++ [name]) := by
  refine ⟨?_, ?_⟩
  · rw [← List.cons_append, render_append, render_append]
    rcases h.rendered with rfl | rfl
    · exact .inl rfl
    · exact .inr rfl
  · intro x hx
    rcases List.mem_append.mp hx with hx | hx
    · exact h.proper x hx
    · exact List.mem_singleton.mp hx ▸ hname

theorem built_parent (h : Built out location) :
    Built (normalizeStep out .parentDir) location.dropLast := by
  rcases List.eq_nil_or_concat location with rfl | ⟨front, name, rfl⟩
  · rcases h.rendered with rfl | rfl
    · exact ⟨.inr rfl, fun _ hx => by cases hx⟩
    · exact ⟨.inl rfl, fun _ hx => by cases hx⟩
  · rw [List.concat_eq_append] at h ⊢
    rw [List.dropLast_concat]
    have hfront : ∀ x ∈ front, Proper x := fun x hx => h.proper x (List.mem_append_left _ hx)
    have hname : Single name := (h.proper name (by simp)).toSingle
    refine ⟨?_, hfront⟩
    rcases h.rendered with rfl | rfl
    · left
      have htrim : Trimmed (render front) := trimmed_render fun x hx => (hfront x hx).toSingle
      rw [render_append, normalizeStep, pop_push htrim hname]
      rfl
    · right
      have htrim : Trimmed (render (dotdot :: front)) := trimmed_render (singles_of_proper hfront)
      rw [← List.cons_append, render_append, normalizeStep, pop_push htrim hname]
      rfl

/-- A name of a path, read as a component, takes the path built so far where it leads. -/
theorem built_step (h : Built out location) {name : Name} (hne : name ≠ []) (hs : slash ∉ name)
    {c : Component} (hc : body name = some c) :
    Built (normalizeStep out c) (walk location c) := by
  unfold body at hc
  split at hc
  · cases hc
  · next hdot =>
    split at hc
    · obtain rfl := Option.some.inj hc
      exact built_parent h
    · next hparent =>
      obtain rfl := Option.some.inj hc
      exact built_normal h ⟨⟨hne, hs, hdot⟩, hparent⟩

theorem built_run (h : Built out location) (hnames : ∀ name ∈ names, name ≠ [] ∧ slash ∉ name) :
    Built ((names.filterMap body).foldl normalizeStep out)
      ((names.filterMap body).foldl walk location) := by
  induction names generalizing out location with
  | nil => exact h
  | cons name names ih =>
    have hrest : ∀ x ∈ names, x ≠ [] ∧ slash ∉ x := fun x hx => hnames x (List.mem_cons_of_mem _ hx)
    obtain ⟨hne, hs⟩ := hnames name List.mem_cons_self
    cases hc : body name with
    | none =>
      rw [List.filterMap_cons_none hc]
      exact ih h hrest
    | some c =>
      rw [List.filterMap_cons_some hc, List.foldl_cons, List.foldl_cons]
      exact ih (built_step h hne hs hc) hrest

theorem built_normalize {path : Path} (h : isAbsolute path) :
    Built (normalizeLexical path) (denotes path) := by
  have hcomponents : components path = .rootDir :: (parts path).filterMap body := by
    rw [components, if_pos h]
  have hbuilt := @built_run _ _ (parts path) built_root fun name hname => mem_parts hname
  unfold normalizeLexical denotes
  rw [hcomponents, List.foldl_cons, List.foldl_cons]
  dsimp only
  rw [if_neg]
  · exact hbuilt
  · intro hnil
    obtain ⟨names, heq, -, hsingle⟩ := hbuilt.rendering
    exact (trimmed_render hsingle).1 (heq.symm.trans hnil)

end Normalizing

section Reading
variable {out : Path} {location : List Name}

theorem filterMap_proper (h : ∀ name ∈ location, Proper name) :
    location.filterMap body = location.map .normal := by
  induction location with
  | nil => rfl
  | cons name location ih =>
    have hname := h name List.mem_cons_self
    have hbody : body name = some (.normal name) := by
      rw [body, if_neg hname.notDot, if_neg hname.notParent]
    rw [List.filterMap_cons_some hbody, List.map_cons,
      ih fun x hx => h x (List.mem_cons_of_mem _ hx)]

theorem walk_normals (front location : List Name) :
    (location.map Component.normal).foldl walk front = front ++ location := by
  induction location generalizing front with
  | nil => exact (List.append_nil front).symm
  | cons name location ih =>
    rw [List.map_cons, List.foldl_cons, walk, ih, ← List.append_cons]

theorem push_normals (front location : List Name) :
    (location.map Component.normal).foldl normalizeStep (render front) =
      render (front ++ location) := by
  induction location generalizing front with
  | nil => rw [List.append_nil]; rfl
  | cons name location ih =>
    rw [List.map_cons, List.foldl_cons, List.append_cons, ← ih (front ++ [name]), render_append]
    rfl

theorem Built.components (h : Built out location) :
    components out = .rootDir :: location.map .normal ∨
      components out = .rootDir :: .parentDir :: location.map .normal := by
  obtain ⟨names, rfl, hnames, hsingle⟩ := h.rendering
  rw [components_render hsingle]
  rcases hnames with rfl | rfl
  · left
    rw [filterMap_proper h.proper]
  · right
    have hbody : body dotdot = some .parentDir := rfl
    rw [List.filterMap_cons_some hbody, filterMap_proper h.proper]

/-- A `..` at the root stays at the root. -/
theorem Built.denotes (h : Built out location) : denotes out = location := by
  unfold UnixPaths.denotes
  rcases h.components with hc | hc
  · rw [hc, List.foldl_cons]
    exact walk_normals [] location
  · rw [hc, List.foldl_cons, List.foldl_cons]
    exact walk_normals [] location

theorem Built.nonempty (h : Built out location) : out ≠ [] := by
  obtain ⟨names, rfl, -, hsingle⟩ := h.rendering
  exact (trimmed_render hsingle).1

theorem Built.absolute (h : Built out location) : isAbsolute out := by
  obtain ⟨names, rfl, -, hsingle⟩ := h.rendering
  exact absolute_render hsingle

theorem Built.normalized (h : Built out location) : normalizeLexical out = out := by
  have hloop : (UnixPaths.components out).foldl normalizeStep [] = out := by
    obtain ⟨names, hrendered, hnames, hsingle⟩ := h.rendering
    have hcomponents := components_render hsingle
    rw [hrendered, hcomponents, List.foldl_cons]
    rcases hnames with rfl | rfl
    · rw [filterMap_proper h.proper]
      exact push_normals [] _
    · have hbody : body dotdot = some .parentDir := rfl
      rw [List.filterMap_cons_some hbody, filterMap_proper h.proper, List.foldl_cons]
      exact push_normals [dotdot] location
  unfold normalizeLexical
  rw [hloop]
  exact if_neg h.nonempty

end Reading

section Resolving
variable {value : String} {cwd : Path}

theorem joined_eq (value : String) (cwd : Path) :
    (if isAbsolute (ofString value) then ofString value else join cwd (ofString value)) =
      join cwd (ofString value) := by
  by_cases h : isAbsolute (ofString value)
  · rw [if_pos h, join, push, if_pos h]
  · rw [if_neg h]

theorem resolve_eq (value : String) (cwd : Path) : resolveInvocationRelativePath value cwd =
    toStringLossy (normalizeLexical (join cwd (ofString value))) := by
  unfold resolveInvocationRelativePath
  dsimp only
  rw [joined_eq]

/-- A built path of valid names loses nothing as a text, and every other one does. -/
theorem utf8_built_iff {out : Path} {location : List Name} (h : Built out location) :
    Utf8 out ↔ ∀ name ∈ location, Utf8 name := by
  obtain ⟨names, rfl, hnames, hsingle⟩ := h.rendering
  constructor
  · intro hutf8 name hname
    have hmem : name ∈ names := by
      rcases hnames with rfl | rfl
      · exact hname
      · exact List.mem_cons_of_mem _ hname
    rw [← parts_render hsingle] at hmem
    exact utf8_splitOn hutf8 name (List.mem_filter.mp hmem).1
  · intro hutf8
    apply utf8_render
    rcases hnames with rfl | rfl
    · exact hutf8
    · intro name hname
      rcases List.mem_cons.mp hname with rfl | hname
      · exact utf8_iff.mpr ⟨['.', '.'], rfl⟩
      · exact hutf8 name hname

theorem mem_walk {cs : List Component} {front : List Name} {name : Name}
    (h : name ∈ cs.foldl walk front) : name ∈ front ∨ .normal name ∈ cs := by
  induction cs generalizing front with
  | nil => exact .inl h
  | cons c cs ih =>
    rcases ih h with hname | hname
    · cases c with
      | rootDir => cases hname
      | curDir => exact .inl hname
      | parentDir => exact .inl ((List.dropLast_sublist front).subset hname)
      | normal entered =>
        rcases List.mem_append.mp hname with hname | hname
        · exact .inl hname
        · exact .inr (List.mem_singleton.mp hname ▸ List.mem_cons_self)
    · exact .inr (List.mem_cons_of_mem c hname)

/-- The names of a text's location are texts. -/
theorem utf8_denotes {s : String} (h : isAbsolute (ofString s)) :
    ∀ name ∈ denotes (ofString s), Utf8 name := by
  intro name hname
  have hcomponents : components (ofString s) = .rootDir :: (parts (ofString s)).filterMap body := by
    rw [components, if_pos h]
  unfold UnixPaths.denotes at hname
  rw [hcomponents, List.foldl_cons] at hname
  rcases mem_walk hname with hroot | hnormal
  · cases hroot
  · obtain ⟨part, hpart, hbody⟩ := List.mem_filterMap.mp hnormal
    have hsame : part = name := by
      unfold body at hbody
      split at hbody
      · cases hbody
      · split at hbody
        · cases hbody
        · exact Component.normal.inj (Option.some.inj hbody)
    exact hsame ▸ utf8_splitOn (utf8_ofString s) part (List.mem_filter.mp hpart).1

/-- A value is resolved to the location that it names exactly when the names on the way there are
texts. -/
theorem resolved_iff (hcwd : isAbsolute cwd) :
    Resolved value cwd ↔ ∀ name ∈ denotes (join cwd (ofString value)), Utf8 name := by
  have hbuilt := built_normalize (absolute_join (x := ofString value) hcwd)
  constructor
  · intro h
    rw [← h.located]
    exact utf8_denotes h.absolute
  · intro hnames
    have hutf8 := (utf8_built_iff hbuilt).mpr hnames
    have htext : ofString (resolveInvocationRelativePath value cwd) =
        normalizeLexical (join cwd (ofString value)) := by
      rw [resolve_eq, ofString_toStringLossy hutf8]
    refine ⟨?_, ?_, ?_⟩
    · rw [htext]
      exact hbuilt.absolute
    · rw [htext]
      exact hbuilt.denotes
    · intro other hother
      have hjoin : join other (ofString (resolveInvocationRelativePath value cwd)) =
          normalizeLexical (join cwd (ofString value)) := by
        rw [htext, join, push, if_pos hbuilt.absolute]
      rw [resolve_eq _ other, hjoin, hbuilt.normalized, resolve_eq]

theorem parent_resolved : Resolved "../shared" (ofString "/srv/rollio/run") :=
  (@resolved_iff "../shared" (ofString "/srv/rollio/run") (by decide +kernel)).mpr
    (by decide +kernel)

/-- The controller was started in a directory whose name is one byte that is no text. -/
def latinCwd : Path := [slash, 0xFF]

theorem latin_directory_lost : isAbsolute latinCwd ∧ ¬ Resolved "output" latinCwd ∧
    denotes (ofString (resolveInvocationRelativePath "output" latinCwd)) ≠
      denotes (join latinCwd (ofString "output")) := by
  have hlost : denotes (ofString (resolveInvocationRelativePath "output" latinCwd)) ≠
      denotes (join latinCwd (ofString "output")) := by decide +kernel
  exact ⟨rfl, fun h => hlost h.located, hlost⟩

end Resolving

end InvocationPaths
