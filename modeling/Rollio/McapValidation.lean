import Rollio.SyncGroups

/-! The validator of recorded files: a specification of metadata, channels and constraints, the
verdict on one file, and the run over many files by several threads. -/
namespace McapValidation
open SyncGroups OrderedTables
open Std (TreeMap)

section Rules

structure MetadataRule where
  allowed : Option (List String) := none

structure ChannelRule where
  name : String
  schema : Option String := none
  encoding : Option String := none

structure Spec (α : Type) where
  name : Option String := none
  /-- In the order of the file, each key once. -/
  metadata : List (String × MetadataRule) := []
  channels : List ChannelRule := []
  constraints : Constraints α := {}

def Spec.nameOrDefault {α : Type} (spec : Spec α) : String := spec.name.getD "<unnamed>"

variable {α : Type}

def metadataIssue (scan : ScanResult) (entry : String × MetadataRule) : Option String :=
  match scan.metadata[entry.1]? with
  | none => some ("missing required metadata: " ++ pyrepr entry.1)
  | some actual =>
    match entry.2.allowed with
    | none => none
    | some allowed =>
      if actual ∈ allowed then none
      else some ("metadata " ++ pyrepr entry.1 ++ "=" ++ pyrepr actual ++ " not in enum " ++
        fmtChannelList allowed)

def validateMetadata (spec : Spec α) (scan : ScanResult) : List String :=
  spec.metadata.filterMap (metadataIssue scan)

/-- A schema and an encoding can both be wrong. -/
def channelIssues (scan : ScanResult) (ch : ChannelRule) : List String :=
  match scan.channels[ch.name]? with
  | none => ["missing required channel: " ++ pyrepr ch.name]
  | some actual =>
    (match ch.schema with
      | none => []
      | some want =>
        let got := actual.schema.getD ""
        if want = got then []
        else ["channel " ++ pyrepr ch.name ++ " schema mismatch: spec=" ++ pyrepr want ++
          ", actual=" ++ pyrepr got]) ++
    match ch.encoding with
      | none => []
      | some want =>
        if want = actual.encoding then []
        else ["channel " ++ pyrepr ch.name ++ " encoding mismatch: spec=" ++ pyrepr want ++
          ", actual=" ++ pyrepr actual.encoding]

def validateChannels (spec : Spec α) (scan : ScanResult) : List String :=
  spec.channels.flatMap (channelIssues scan)

def pairsByChannel (pairs : List TfPair) : TreeMap String (List TfPair) :=
  pairs.foldl (fun byChannel p => byChannel.insert p.channel
    (byChannel.getD p.channel [] ++ [p])) ∅

def tfPairIssues (scan : ScanResult) (entry : String × List TfPair) : List String :=
  if !scan.channels.contains entry.1 then
    ["tf_pair on " ++ pyrepr entry.1 ++ " unverifiable: channel missing in mcap"]
  else
    let observed := scan.tfObserved.getD entry.1 []
    entry.2.filterMap fun p =>
      if (p.parent, p.child) ∈ observed then none
      else some ("tf_pair missing on " ++ pyrepr entry.1 ++ ": (" ++ pyrepr p.parent ++ " -> " ++
        pyrepr p.child ++ ")")

/-- `order` is that of an iteration over the hash map of the channels. -/
def validateTfPairs (order : List (String × List TfPair) → List (String × List TfPair))
    (spec : Spec α) (scan : ScanResult) : List String :=
  (order (pairsByChannel spec.constraints.tfPair).toList).flatMap (tfPairIssues scan)

end Rules

section Verdict
variable {α : Type}

/-- A file as the library reads it: its summary with the metadata, and its messages. -/
structure McapRead where
  summary : Except String (List (String × ChannelInfo) × List (String × String))
  messages : Except String (List McapMessage)

structure FileReport where
  spec : String
  ok : Bool
  issues : List String
  error : Option String
  deriving DecidableEq, Repr

structure Validator (α : Type) where
  millis : Millis α
  readFrameTransformPair : List UInt8 → Option (String × String)
  order : List (String × List TfPair) → List (String × List TfPair)

def constrainedTopics (spec : Constraints α) : List String :=
  spec.syncGroup.flatMap (·.channels) ++ spec.tfPair.map (·.channel)

/-- The messages are read only if a constraint is about a channel of the file. -/
def scanFile (v : Validator α) (read : McapRead) (spec : Spec α) (skipConstraints : Bool) :
    Except String ScanResult := do
  let (channels, metadata) ← read.summary
  if skipConstraints || !(constrainedTopics spec.constraints).any (· ∈ channels.map Prod.fst) then
    return scan v.readFrameTransformPair ⟨channels, metadata, []⟩ spec.constraints skipConstraints
  let messages ← read.messages
  return scan v.readFrameTransformPair ⟨channels, metadata, messages⟩ spec.constraints
    skipConstraints

def issuesOf (v : Validator α) (spec : Spec α) (skipConstraints : Bool) (scan : ScanResult) :
    List String :=
  validateMetadata spec scan ++ validateChannels spec scan ++
    if skipConstraints then []
    else validateSyncGroups v.millis spec.constraints scan ++ validateTfPairs v.order spec scan

def validateOne (v : Validator α) (read : McapRead) (spec : Spec α) (skipConstraints : Bool) :
    FileReport :=
  match scanFile v read spec skipConstraints with
  | .ok scan =>
    let issues := issuesOf v spec skipConstraints scan
    { spec := spec.nameOrDefault, ok := issues.isEmpty, issues, error := none }
  | .error e => { spec := spec.nameOrDefault, ok := false, issues := [], error := some e }

end Verdict

section Scanned
variable {β : Type}

def LastEntry (entries : List (String × β)) (key : String) (value : β) : Prop :=
  ∃ before after, entries = before ++ (key, value) :: after ∧ key ∉ after.map Prod.fst

theorem LastEntry.mem {entries : List (String × β)} {key : String} {value : β}
    (h : LastEntry entries key value) : (key, value) ∈ entries := by
  obtain ⟨before, after, rfl, -⟩ := h
  exact List.mem_append_right _ List.mem_cons_self

theorem lookup_entries {entries : List (String × β)} {key : String} {value : β} :
    (entries.foldl (fun t e => t.insert e.1 e.2) (∅ : TreeMap String β))[key]? = some value ↔
      LastEntry entries key value := by
  induction entries using List.reverseRecOn generalizing value with
  | nil =>
    rw [List.foldl_nil, TreeMap.getElem?_emptyc]
    constructor
    · intro h
      cases h
    · rintro ⟨before, after, h, -⟩
      exact absurd h.symm (by simp)
  | append_singleton entries e ih =>
    rw [List.foldl_append, List.foldl_cons, List.foldl_nil, lookup_insert]
    by_cases hkey : key = e.1
    · rw [if_pos hkey]
      constructor
      · intro h
        refine ⟨entries, [], ?_, List.not_mem_nil⟩
        rw [hkey, ← Option.some.inj h]
      · rintro ⟨before, after, h, hafter⟩
        rcases List.eq_nil_or_concat after with rfl | ⟨front, last, rfl⟩
        · rw [(List.append_inj' h rfl).2 |> List.cons.inj |>.1]
        · rw [List.concat_eq_append, ← List.cons_append, ← List.append_assoc] at h
          have hlast : e = last := (List.cons.inj (List.append_inj' h rfl).2).1
          rw [List.concat_eq_append, ← hlast, hkey] at hafter
          exact absurd (List.mem_map_of_mem (List.mem_append_right _ List.mem_cons_self)) hafter
    · rw [if_neg hkey, ih]
      constructor
      · rintro ⟨before, after, rfl, hafter⟩
        refine ⟨before, after ++ [e], by simp, ?_⟩
        rw [List.map_append, List.mem_append, not_or]
        exact ⟨hafter, by simpa using hkey⟩
      · rintro ⟨before, after, h, hafter⟩
        rcases List.eq_nil_or_concat after with rfl | ⟨front, last, rfl⟩
        · exact absurd (congrArg Prod.fst (List.cons.inj (List.append_inj' h rfl).2).1).symm hkey
        · rw [List.concat_eq_append] at h hafter
          rw [← List.cons_append, ← List.append_assoc] at h
          refine ⟨before, front, (List.append_inj' h rfl).1, fun hmem => hafter ?_⟩
          rw [List.map_append]
          exact List.mem_append_left _ hmem

variable {α : Type} {readFrameTransformPair : List UInt8 → Option (String × String)}
  {file : McapFile} {spec : Constraints α} {skipConstraints : Bool}

theorem scanMessage_metadata (syncTopics tfTopics : List String) (result : ScanResult)
    (m : McapMessage) :
    (scanMessage readFrameTransformPair syncTopics tfTopics result m).metadata =
      result.metadata := by
  unfold scanMessage
  dsimp only
  split <;> split <;> try split
  all_goals rfl

theorem scan_summary :
    (scan readFrameTransformPair file spec skipConstraints).channels =
      file.channels.foldl (fun t e => t.insert e.1 e.2) ∅ ∧
    (scan readFrameTransformPair file spec skipConstraints).metadata =
      file.metadata.foldl (fun t e => t.insert e.1 e.2) ∅ := by
  have hpass (syncTopics tfTopics : List String) (messages : List McapMessage)
      (result : ScanResult) :
      (messages.foldl (scanMessage readFrameTransformPair syncTopics tfTopics) result).channels =
        result.channels ∧
      (messages.foldl (scanMessage readFrameTransformPair syncTopics tfTopics) result).metadata =
        result.metadata := by
    induction messages generalizing result with
    | nil => exact ⟨rfl, rfl⟩
    | cons m rest ih =>
      rw [List.foldl_cons, (ih _).1, (ih _).2, scanMessage_channels, scanMessage_metadata]
      exact ⟨rfl, rfl⟩
  unfold scan
  dsimp only
  split
  · exact ⟨rfl, rfl⟩
  · split
    · exact ⟨rfl, rfl⟩
    · exact hpass _ _ _ _

theorem scan_contains {c : String} :
    (scan readFrameTransformPair file spec skipConstraints).channels.contains c = true ↔
      c ∈ file.channels.map Prod.fst := by
  rw [scan_summary.1, TreeMap.contains_iff_mem, contains_foldl_insert, or_iff_left]
  exact TreeMap.not_mem_emptyc

theorem mem_observed {syncTopics tfTopics : List String} (messages : List McapMessage)
    (result : ScanResult) {c : String} (hc : c ∈ tfTopics) {pair : String × String} :
    pair ∈ (messages.foldl (scanMessage readFrameTransformPair syncTopics tfTopics)
        result).tfObserved.getD c [] ↔
      (∃ m ∈ messages, m.topic = c ∧ readFrameTransformPair m.data = some pair) ∨
        pair ∈ result.tfObserved.getD c [] := by
  have hstep (result : ScanResult) (m : McapMessage) :
      pair ∈ (scanMessage readFrameTransformPair syncTopics tfTopics result m).tfObserved.getD c
          [] ↔
        (m.topic = c ∧ readFrameTransformPair m.data = some pair) ∨
          pair ∈ result.tfObserved.getD c [] := by
    have hobserved : (scanMessage readFrameTransformPair syncTopics tfTopics result m).tfObserved =
        if m.topic ∈ tfTopics then
          (readFrameTransformPair m.data).elim result.tfObserved fun pair =>
            result.tfObserved.insert m.topic ((result.tfObserved.getD m.topic []).insert pair)
        else result.tfObserved := by
      unfold scanMessage
      by_cases hsync : m.topic ∈ syncTopics <;> by_cases htf : m.topic ∈ tfTopics <;>
        cases readFrameTransformPair m.data <;>
          simp only [hsync, htf, if_true, if_false, Option.elim_none, Option.elim_some]
    rw [hobserved]
    by_cases htopic : m.topic = c
    · subst htopic
      rw [if_pos hc]
      cases hpair : readFrameTransformPair m.data with
      | none => simp
      | some found =>
        rw [Option.elim_some, TreeMap.getD_insert_self, List.mem_insert_iff, Option.some.injEq,
          eq_comm, and_iff_right rfl]
    · rw [or_iff_right fun h => htopic h.1]
      split
      · cases readFrameTransformPair m.data with
        | none => rfl
        | some found =>
          rw [Option.elim_some, TreeMap.getD_eq_getD_getElem?, lookup_insert,
            if_neg fun h => htopic h.symm,
            ← TreeMap.getD_eq_getD_getElem?]
      · rfl
  induction messages using List.reverseRecOn with
  | nil => simp
  | append_singleton messages m ih =>
    rw [List.foldl_append, List.foldl_cons, List.foldl_nil]
    refine (hstep _ m).trans ((or_congr_right ih).trans ?_)
    simp only [List.mem_append, List.mem_singleton, or_and_right, exists_or, exists_eq_left]
    rw [← or_assoc, or_comm (a := m.topic = c ∧ _)]

end Scanned

section Meets
variable {α : Type} {scan : ScanResult}

theorem metadataIssue_eq_none {entry : String × MetadataRule} : metadataIssue scan entry = none ↔
    ∃ actual, scan.metadata[entry.1]? = some actual ∧
      ∀ allowed, entry.2.allowed = some allowed → actual ∈ allowed := by
  unfold metadataIssue
  cases scan.metadata[entry.1]? with
  | none => simp
  | some actual =>
    cases entry.2.allowed with
    | none => simp
    | some allowed => simp

theorem channelIssues_eq_nil {ch : ChannelRule} : channelIssues scan ch = [] ↔
    ∃ info, scan.channels[ch.name]? = some info ∧
      (∀ want, ch.schema = some want → want = info.schema.getD "") ∧
      ∀ want, ch.encoding = some want → want = info.encoding := by
  unfold channelIssues
  cases scan.channels[ch.name]? with
  | none => simp
  | some info =>
    cases ch.schema <;> cases ch.encoding <;> simp

theorem pairsByChannel_lookup (pairs : List TfPair) (c : String) : (pairsByChannel pairs)[c]? =
    if (pairs.filter fun p => p.channel = c) = [] then none
    else some (pairs.filter fun p => p.channel = c) := by
  unfold pairsByChannel
  induction pairs using List.reverseRecOn with
  | nil => rfl
  | append_singleton pairs p ih =>
    rw [List.foldl_append, List.foldl_cons, List.foldl_nil, lookup_insert, List.filter_append]
    by_cases hc : p.channel = c
    · subst hc
      have hlast : [p].filter (fun q => q.channel = p.channel) = [p] := by simp
      rw [if_pos rfl, hlast, if_neg (by simp), TreeMap.getD_eq_getD_getElem?, ih]
      by_cases hnil : (pairs.filter fun q => q.channel = p.channel) = []
      · rw [if_pos hnil, hnil]
        rfl
      · rw [if_neg hnil]
        rfl
    · have hlast : [p].filter (fun q => q.channel = c) = [] := by simp [hc]
      rw [if_neg fun h => hc h.symm, ih, hlast, List.append_nil]

/-- Whatever the order of the channels, the pairs pass exactly if each of them was seen. -/
theorem validateTfPairs_eq_nil
    {order : List (String × List TfPair) → List (String × List TfPair)}
    (horder : ∀ l, (order l).Perm l) {spec : Spec α} : validateTfPairs order spec scan = [] ↔
      ∀ p ∈ spec.constraints.tfPair, scan.channels.contains p.channel = true ∧
        (p.parent, p.child) ∈ scan.tfObserved.getD p.channel [] := by
  have hissues (c : String) (ps : List TfPair) (hne : ps ≠ []) (hps : ∀ p ∈ ps, p.channel = c) :
      tfPairIssues scan (c, ps) = [] ↔ ∀ p ∈ ps, scan.channels.contains p.channel = true ∧
        (p.parent, p.child) ∈ scan.tfObserved.getD p.channel [] := by
    obtain ⟨p₀, hp₀⟩ := List.exists_mem_of_ne_nil ps hne
    unfold tfPairIssues
    by_cases hc : scan.channels.contains c = true
    · simp only [hc, Bool.not_true, Bool.false_eq_true, if_false, List.filterMap_eq_nil_iff]
      refine forall₂_congr fun p hp => ?_
      rw [hps p hp, and_iff_right hc]
      simp
    · simp only [hc, Bool.not_false, if_true]
      exact iff_of_false (List.cons_ne_nil _ _) fun h => hc (hps p₀ hp₀ ▸ (h p₀ hp₀).1)
  unfold validateTfPairs
  rw [List.flatMap_eq_nil_iff]
  constructor
  · intro h p hp
    have hne : (spec.constraints.tfPair.filter fun q => q.channel = p.channel) ≠ [] :=
      List.ne_nil_of_mem (List.mem_filter.mpr ⟨hp, by simp⟩)
    have hentry : (p.channel, spec.constraints.tfPair.filter fun q => q.channel = p.channel) ∈
        order (pairsByChannel spec.constraints.tfPair).toList := by
      rw [(horder _).mem_iff, TreeMap.mem_toList_iff_getElem?_eq_some, pairsByChannel_lookup,
        if_neg hne]
    have hps := (hissues _ _ hne (by simp)).mp (h _ hentry)
    exact hps p (List.mem_filter.mpr ⟨hp, by simp⟩)
  · rintro h ⟨c, ps⟩ hentry
    rw [(horder _).mem_iff, TreeMap.mem_toList_iff_getElem?_eq_some,
      pairsByChannel_lookup] at hentry
    split at hentry
    · cases hentry
    · rename_i hne
      obtain rfl := Option.some.inj hentry
      exact (hissues _ _ hne (by simp)).mpr fun p hp => h p (List.mem_filter.mp hp).1

/-- What a specification asks of a file. -/
structure Meets (v : Validator α) (spec : Spec α) (skipConstraints : Bool) (file : McapFile) :
    Prop where
  metadata : ∀ entry ∈ spec.metadata, ∃ actual, LastEntry file.metadata entry.1 actual ∧
    ∀ allowed, entry.2.allowed = some allowed → actual ∈ allowed
  channels : ∀ ch ∈ spec.channels, ∃ info, LastEntry file.channels ch.name info ∧
    (∀ want, ch.schema = some want → want = info.schema.getD "") ∧
    ∀ want, ch.encoding = some want → want = info.encoding
  syncGroups : skipConstraints = false → ∀ sg ∈ spec.constraints.syncGroup,
    (∀ c ∈ sg.channels, c ∈ file.channels.map Prod.fst) ∧
      (sg.channels ≠ [] → InSync (IsLast file.messages) file.messages sg.channels
        (v.millis.toNs sg.maxTimeDiffMs))
  tfPairs : skipConstraints = false → ∀ p ∈ spec.constraints.tfPair,
    p.channel ∈ file.channels.map Prod.fst ∧ ∃ m ∈ file.messages, m.topic = p.channel ∧
      v.readFrameTransformPair m.data = some (p.parent, p.child)

/-- A group passes if it asks for no more than channels of the file that are in sync. -/
theorem groupError_eq_none {v : Validator α} {file : McapFile} {spec : Constraints α}
    {sg : SyncGroup α} (hsg : sg ∈ spec.syncGroup) :
    groupError v.millis (SyncGroups.scan v.readFrameTransformPair file spec false) sg = none ↔
      (∀ c ∈ sg.channels, c ∈ file.channels.map Prod.fst) ∧
        (sg.channels ≠ [] → InSync (IsLast file.messages) file.messages sg.channels
          (v.millis.toNs sg.maxTimeDiffMs)) := by
  by_cases hpresent : ∀ c ∈ sg.channels, c ∈ file.channels.map Prod.fst
  · rw [and_iff_right hpresent]
    by_cases hne : sg.channels = []
    · simp [groupError, hne]
    · rw [groupError_scan hsg hne hpresent, forall_prop_of_true hne]
  · refine iff_of_false ?_ fun h => hpresent h.1
    have hmissing : (sg.channels.filter fun c =>
        !(SyncGroups.scan v.readFrameTransformPair file spec false).channels.contains c) ≠ [] := by
      push Not at hpresent
      obtain ⟨c, hc, hmissing⟩ := hpresent
      refine List.ne_nil_of_mem (List.mem_filter.mpr ⟨hc, ?_⟩)
      rw [Bool.not_eq_true', ← Bool.not_eq_true, scan_contains]
      exact hmissing
    unfold groupError
    dsimp only
    rw [if_pos hmissing]
    exact Option.some_ne_none _

theorem tfObserved_scan {v : Validator α} {file : McapFile} {spec : Constraints α} {p : TfPair}
    (hp : p ∈ spec.tfPair) (hc : p.channel ∈ file.channels.map Prod.fst) :
    (p.parent, p.child) ∈ (SyncGroups.scan v.readFrameTransformPair file spec
        false).tfObserved.getD p.channel [] ↔
      ∃ m ∈ file.messages, m.topic = p.channel ∧
        v.readFrameTransformPair m.data = some (p.parent, p.child) := by
  have htopic : p.channel ∈ (spec.tfPair.map (·.channel)).filter
      ((file.channels.foldl (fun channels ch => channels.insert ch.1 ch.2)
        (∅ : TreeMap String ChannelInfo)).contains ·) := by
    refine List.mem_filter.mpr ⟨List.mem_map_of_mem hp, ?_⟩
    rw [TreeMap.contains_iff_mem, contains_foldl_insert]
    exact .inl hc
  unfold SyncGroups.scan
  rw [if_neg Bool.false_ne_true]
  dsimp only
  rw [if_neg fun h => List.ne_nil_of_mem htopic h.2, mem_observed _ _ htopic]
  exact or_iff_left (by simp)

theorem issues_scan_iff {v : Validator α} (horder : ∀ l, (v.order l).Perm l) {spec : Spec α}
    {skipConstraints : Bool} {file : McapFile} :
    issuesOf v spec skipConstraints
        (SyncGroups.scan v.readFrameTransformPair file spec.constraints skipConstraints) = [] ↔
      Meets v spec skipConstraints file := by
  have hlabels : validateMetadata spec (SyncGroups.scan v.readFrameTransformPair file
        spec.constraints skipConstraints) = [] ∧
      validateChannels spec (SyncGroups.scan v.readFrameTransformPair file
        spec.constraints skipConstraints) = [] ↔
      (∀ entry ∈ spec.metadata, ∃ actual, LastEntry file.metadata entry.1 actual ∧
        ∀ allowed, entry.2.allowed = some allowed → actual ∈ allowed) ∧
      ∀ ch ∈ spec.channels, ∃ info, LastEntry file.channels ch.name info ∧
        (∀ want, ch.schema = some want → want = info.schema.getD "") ∧
        ∀ want, ch.encoding = some want → want = info.encoding := by
    rw [validateMetadata, List.filterMap_eq_nil_iff, validateChannels, List.flatMap_eq_nil_iff]
    simp only [metadataIssue_eq_none, channelIssues_eq_nil, scan_summary.1, scan_summary.2,
      lookup_entries]
  cases skipConstraints with
  | true =>
    simp only [issuesOf, if_true, List.append_nil, List.append_eq_nil_iff, hlabels]
    constructor
    · rintro ⟨hmetadata, hchannels⟩
      exact ⟨hmetadata, hchannels, nofun, nofun⟩
    · intro h
      exact ⟨h.metadata, h.channels⟩
  | false =>
    simp only [issuesOf, Bool.false_eq_true, if_false, List.append_eq_nil_iff, hlabels,
      validateSyncGroups, List.filterMap_eq_nil_iff, validateTfPairs_eq_nil horder]
    constructor
    · rintro ⟨⟨hmetadata, hchannels⟩, hgroups, hpairs⟩
      refine ⟨hmetadata, hchannels, fun _ sg hsg => ?_, fun _ p hp => ?_⟩
      · exact (groupError_eq_none hsg).mp (hgroups sg hsg)
      · obtain ⟨hc, hseen⟩ := hpairs p hp
        exact ⟨scan_contains.mp hc, (tfObserved_scan hp (scan_contains.mp hc)).mp hseen⟩
    · intro h
      refine ⟨⟨h.metadata, h.channels⟩, fun sg hsg => ?_, fun p hp => ?_⟩
      · exact (groupError_eq_none hsg).mpr (h.syncGroups rfl sg hsg)
      · obtain ⟨hc, hseen⟩ := h.tfPairs rfl p hp
        exact ⟨scan_contains.mpr hc, (tfObserved_scan hp hc).mpr hseen⟩

/-- What is read of a file; its messages only if a constraint is about one of its channels. -/
structure Reads (read : McapRead) (spec : Spec α) (skipConstraints : Bool) (file : McapFile) :
    Prop where
  summary : read.summary = .ok (file.channels, file.metadata)
  messages : skipConstraints = false →
    (∃ c ∈ constrainedTopics spec.constraints, c ∈ file.channels.map Prod.fst) →
      read.messages = .ok file.messages

/-- Where no constraint is about a channel of the file, its messages do not matter. -/
theorem Meets.any_messages {v : Validator α} {spec : Spec α} {skipConstraints : Bool}
    {file : McapFile} (h : Meets v spec skipConstraints file) (messages : List McapMessage)
    (hnone : skipConstraints = false →
      ∀ c ∈ constrainedTopics spec.constraints, c ∉ file.channels.map Prod.fst) :
    Meets v spec skipConstraints { file with messages } := by
  refine ⟨h.metadata, h.channels, fun hskip sg hsg => ?_, fun hskip p hp => ?_⟩
  · obtain ⟨hpresent, -⟩ := h.syncGroups hskip sg hsg
    refine ⟨hpresent, fun hne => ?_⟩
    obtain ⟨c, hc⟩ := List.exists_mem_of_ne_nil _ hne
    have htopic : c ∈ constrainedTopics spec.constraints :=
      List.mem_append_left _ (List.mem_flatMap.mpr ⟨sg, hsg, hc⟩)
    exact absurd (hpresent c hc) (hnone hskip c htopic)
  · have htopic : p.channel ∈ constrainedTopics spec.constraints :=
      List.mem_append_right _ (List.mem_map_of_mem hp)
    exact absurd (h.tfPairs hskip p hp).1 (hnone hskip _ htopic)

theorem validateOne_ok_iff {v : Validator α} (horder : ∀ l, (v.order l).Perm l) {read : McapRead}
    {spec : Spec α} {skipConstraints : Bool} :
    (validateOne v read spec skipConstraints).ok = true ↔
      ∃ file, Reads read spec skipConstraints file ∧ Meets v spec skipConstraints file := by
  have hok {scan : ScanResult} (h : scanFile v read spec skipConstraints = .ok scan) :
      (validateOne v read spec skipConstraints).ok = true ↔
        issuesOf v spec skipConstraints scan = [] := by
    simp only [validateOne, h, List.isEmpty_iff]
  have hfailed {e : String} (h : scanFile v read spec skipConstraints = .error e) :
      (validateOne v read spec skipConstraints).ok = false := by
    simp only [validateOne, h]
  cases hsummary : read.summary with
  | error e =>
    rw [hfailed (by simp only [scanFile, hsummary]; rfl)]
    refine iff_of_false Bool.false_ne_true ?_
    rintro ⟨file, hreads, -⟩
    rw [hreads.summary] at hsummary
    cases hsummary
  | ok summary =>
    obtain ⟨channels, metadata⟩ := summary
    have hscan : scanFile v read spec skipConstraints =
        if skipConstraints || !(constrainedTopics spec.constraints).any
            (· ∈ channels.map Prod.fst) then
          .ok (scan v.readFrameTransformPair ⟨channels, metadata, []⟩ spec.constraints
            skipConstraints)
        else read.messages.map fun messages => scan v.readFrameTransformPair
          ⟨channels, metadata, messages⟩ spec.constraints skipConstraints := by
      simp only [scanFile, hsummary]
      cases read.messages <;> rfl
    have hfile {file : McapFile} (h : Reads read spec skipConstraints file) :
        file.channels = channels ∧ file.metadata = metadata := by
      rw [h.summary] at hsummary
      exact Prod.mk.inj (Except.ok.inj hsummary)
    by_cases hneeds : skipConstraints = false ∧
        ∃ c ∈ constrainedTopics spec.constraints, c ∈ channels.map Prod.fst
    · have hcondition : (skipConstraints || !(constrainedTopics spec.constraints).any
          (· ∈ channels.map Prod.fst)) = false := by
        simpa using hneeds
      cases hmessages : read.messages with
      | error e =>
        rw [hcondition, if_neg Bool.false_ne_true, hmessages] at hscan
        rw [hfailed hscan]
        refine iff_of_false Bool.false_ne_true ?_
        rintro ⟨file, hreads, -⟩
        have hread := hreads.messages hneeds.1 (by rw [(hfile hreads).1]; exact hneeds.2)
        rw [hmessages] at hread
        cases hread
      | ok messages =>
        rw [hcondition, if_neg Bool.false_ne_true, hmessages] at hscan
        rw [hok hscan, issues_scan_iff horder]
        constructor
        · intro h
          exact ⟨⟨channels, metadata, messages⟩, ⟨hsummary, fun _ _ => hmessages⟩, h⟩
        · rintro ⟨⟨channels', metadata', messages'⟩, hreads, h⟩
          obtain ⟨rfl, rfl⟩ := hfile hreads
          have hread := hreads.messages hneeds.1 hneeds.2
          rw [hmessages] at hread
          obtain rfl := Except.ok.inj hread
          exact h
    · have hcondition : (skipConstraints || !(constrainedTopics spec.constraints).any
          (· ∈ channels.map Prod.fst)) = true := by
        rw [← Bool.not_eq_false]
        intro hfalse
        exact hneeds (by simpa using hfalse)
      rw [if_pos hcondition] at hscan
      rw [hok hscan, issues_scan_iff horder]
      constructor
      · intro h
        exact ⟨⟨channels, metadata, []⟩, ⟨hsummary, fun hskip hc => absurd ⟨hskip, hc⟩ hneeds⟩, h⟩
      · rintro ⟨⟨channels', metadata', messages'⟩, hreads, h⟩
        obtain ⟨rfl, rfl⟩ := hfile hreads
        exact h.any_messages [] fun hskip c hc hmem => hneeds ⟨hskip, c, hc, hmem⟩

end Meets

section Batch
variable {α : Type}

inductive Task where
  | waiting | checking
  | reported (report : FileReport)

/-- The files of a run, and the flag that the threads share. -/
structure Batch where
  stop : Bool := false
  tasks : ℕ → Task := fun _ => .waiting

def skippedReport (spec : Spec α) : FileReport :=
  { spec := spec.nameOrDefault, ok := false, issues := [], error := some "skipped (fail-fast)" }

/-- One thread goes on with one of the `n` files. The flag is read without an order, so a file may
be begun after the flag was set, but it is skipped only if the flag was set. -/
inductive BatchStep (v : Validator α) (spec : Spec α) (skipConstraints failFast : Bool)
    (reads : ℕ → McapRead) (n : ℕ) : Batch → Batch → Prop
  | skip {s i} (hi : i < n) (htask : s.tasks i = .waiting) (hfast : failFast = true)
      (hstop : s.stop = true) :
      BatchStep v spec skipConstraints failFast reads n s
        { s with tasks := Function.update s.tasks i (.reported (skippedReport spec)) }
  | check {s i} (hi : i < n) (htask : s.tasks i = .waiting) :
      BatchStep v spec skipConstraints failFast reads n s
        { s with tasks := Function.update s.tasks i .checking }
  | report {s i} (hi : i < n) (htask : s.tasks i = .checking) :
      BatchStep v spec skipConstraints failFast reads n s
        { stop := s.stop || (failFast && !(validateOne v (reads i) spec skipConstraints).ok)
          tasks := Function.update s.tasks i
            (.reported (validateOne v (reads i) spec skipConstraints)) }

def Task.report? : Task → Option FileReport
  | .reported report => some report
  | _ => none

def Batch.reports (s : Batch) (n : ℕ) : List FileReport :=
  (List.range n).filterMap fun i => (s.tasks i).report?

/-- The exit code of the program for the reports it collected; without a file it fails. -/
def exitCode (reports : List FileReport) : ℕ :=
  if reports = [] then 1 else if reports.any fun r => !r.ok then 1 else 0

variable {v : Validator α} {spec : Spec α} {skipConstraints failFast : Bool}
  {reads : ℕ → McapRead} {n : ℕ}

/-- A file is reported with its own verdict, or as skipped behind another's failure. -/
structure Truthful (v : Validator α) (spec : Spec α) (skipConstraints failFast : Bool)
    (reads : ℕ → McapRead) (n : ℕ) (s : Batch) : Prop where
  reported : ∀ i report, s.tasks i = .reported report →
    report = validateOne v (reads i) spec skipConstraints ∨
      report = skippedReport spec ∧ failFast = true ∧ s.stop = true
  stopped : s.stop = true → ∃ j < n,
    s.tasks j = .reported (validateOne v (reads j) spec skipConstraints) ∧
      (validateOne v (reads j) spec skipConstraints).ok = false

theorem Truthful.step {s t : Batch} (h : Truthful v spec skipConstraints failFast reads n s)
    (hstep : BatchStep v spec skipConstraints failFast reads n s t) :
    Truthful v spec skipConstraints failFast reads n t := by
  -- a file that was reported stays as it is
  have hkept {i : ℕ} {task : Task} (htask : ∀ report, s.tasks i ≠ .reported report) {j : ℕ}
      {report : FileReport} (hj : s.tasks j = .reported report) :
      Function.update s.tasks i task j = .reported report := by
    have hne : j ≠ i := by
      rintro rfl
      exact htask report hj
    rw [Function.update_of_ne hne, hj]
  have hnew {i : ℕ} {task : Task} {j : ℕ} {report : FileReport}
      (hj : Function.update s.tasks i task j = .reported report) :
      j = i ∧ task = .reported report ∨ s.tasks j = .reported report := by
    by_cases heq : j = i
    · subst heq
      rw [Function.update_self] at hj
      exact .inl ⟨rfl, hj⟩
    · rw [Function.update_of_ne heq] at hj
      exact .inr hj
  cases hstep with
  | @skip i hi htask hfast hstop =>
    refine ⟨fun j report hj => ?_, fun _ => ?_⟩
    · rcases hnew hj with ⟨-, hreport⟩ | hj
      · exact .inr ⟨(Task.reported.inj hreport).symm, hfast, hstop⟩
      · exact h.reported j report hj
    · obtain ⟨j, hj, hreport, hfailed⟩ := h.stopped hstop
      exact ⟨j, hj, hkept (by simp [htask]) hreport, hfailed⟩
  | @check i hi htask =>
    refine ⟨fun j report hj => ?_, fun hstop => ?_⟩
    · rcases hnew hj with ⟨-, hreport⟩ | hj
      · cases hreport
      · exact h.reported j report hj
    · obtain ⟨j, hj, hreport, hfailed⟩ := h.stopped hstop
      exact ⟨j, hj, hkept (by simp [htask]) hreport, hfailed⟩
  | @report i hi htask =>
    refine ⟨fun j report hj => ?_, fun hstop => ?_⟩
    · rcases hnew hj with ⟨rfl, hreport⟩ | hj
      · exact .inl (Task.reported.inj hreport).symm
      · refine (h.reported j report hj).imp_right fun ⟨hskip, hfast, hstop⟩ => ⟨hskip, hfast, ?_⟩
        dsimp only
        rw [hstop, Bool.true_or]
    · by_cases hfailed : (validateOne v (reads i) spec skipConstraints).ok = false
      · exact ⟨i, hi, Function.update_self .., hfailed⟩
      · have hbefore : s.stop = true := by simpa [hfailed] using hstop
        obtain ⟨j, hj, hreport, hfailed⟩ := h.stopped hbefore
        exact ⟨j, hj, hkept (by simp [htask]) hreport, hfailed⟩

theorem truthful_run {s : Batch}
    (h : Relation.ReflTransGen (BatchStep v spec skipConstraints failFast reads n) {} s) :
    Truthful v spec skipConstraints failFast reads n s := by
  induction h with
  | refl =>
    constructor
    · intro i report hi
      cases hi
    · intro hstop
      cases hstop
  | tail _ hstep ih => exact ih.step hstep

theorem exitCode_eq_zero {reports : List FileReport} :
    exitCode reports = 0 ↔ reports ≠ [] ∧ ∀ report ∈ reports, report.ok = true := by
  unfold exitCode
  by_cases hnil : reports = []
  · simp [hnil]
  · by_cases hany : (reports.any fun r => !r.ok) = true
    · rw [if_neg hnil, if_pos hany]
      obtain ⟨report, hmem, hfailed⟩ := List.any_eq_true.mp hany
      refine iff_of_false Nat.one_ne_zero fun h => ?_
      simp [h.2 report hmem] at hfailed
    · rw [if_neg hnil, if_neg hany]
      refine iff_of_true rfl ⟨hnil, fun report hmem => ?_⟩
      rw [← Bool.not_eq_false]
      exact fun hfailed => hany (List.any_eq_true.mpr ⟨report, hmem, by simp [hfailed]⟩)

/-- Whatever the threads do and with or without fail-fast: when every file is reported, the program
succeeds exactly if there are files and each of them can be read and meets the specification; and a
file is skipped only behind one that was itself found to fail. -/
theorem batch_verdict {s : Batch} (horder : ∀ l, (v.order l).Perm l)
    (h : Relation.ReflTransGen (BatchStep v spec skipConstraints failFast reads n) {} s)
    (hdone : ∀ i < n, ∃ report, s.tasks i = .reported report) :
    (exitCode (s.reports n) = 0 ↔ 0 < n ∧ ∀ i < n, ∃ file,
      Reads (reads i) spec skipConstraints file ∧ Meets v spec skipConstraints file) ∧
    ∀ i < n, s.tasks i = .reported (validateOne v (reads i) spec skipConstraints) ∨
      s.tasks i = .reported (skippedReport spec) ∧ failFast = true ∧ ∃ j < n,
        s.tasks j = .reported (validateOne v (reads j) spec skipConstraints) ∧
          (validateOne v (reads j) spec skipConstraints).ok = false := by
  have htruth := truthful_run h
  have heach : ∀ i < n, s.tasks i = .reported (validateOne v (reads i) spec skipConstraints) ∨
      s.tasks i = .reported (skippedReport spec) ∧ failFast = true ∧ ∃ j < n,
        s.tasks j = .reported (validateOne v (reads j) spec skipConstraints) ∧
          (validateOne v (reads j) spec skipConstraints).ok = false := by
    intro i hi
    obtain ⟨report, hreport⟩ := hdone i hi
    rcases htruth.reported i report hreport with rfl | ⟨rfl, hfast, hstop⟩
    · exact .inl hreport
    · exact .inr ⟨hreport, hfast, htruth.stopped hstop⟩
  refine ⟨?_, heach⟩
  have hmem {report : FileReport} :
      report ∈ s.reports n ↔ ∃ i < n, s.tasks i = .reported report := by
    simp only [Batch.reports, List.mem_filterMap, List.mem_range]
    refine exists_congr fun i => and_congr_right fun _ => ?_
    cases s.tasks i <;> simp [Task.report?]
  have hne : s.reports n ≠ [] ↔ 0 < n := by
    constructor
    · intro hne
      obtain ⟨report, hreport⟩ := List.exists_mem_of_ne_nil _ hne
      obtain ⟨i, hi, -⟩ := hmem.mp hreport
      omega
    · intro hn
      obtain ⟨report, hreport⟩ := hdone 0 hn
      exact List.ne_nil_of_mem (hmem.mpr ⟨0, hn, hreport⟩)
  rw [exitCode_eq_zero, hne]
  refine and_congr_right fun _ => ?_
  simp only [← validateOne_ok_iff horder]
  constructor
  · intro hall i hi
    rcases heach i hi with hown | ⟨-, -, j, hj, hown, hfailed⟩
    · exact hall _ (hmem.mpr ⟨i, hi, hown⟩)
    · rw [hall _ (hmem.mpr ⟨j, hj, hown⟩)] at hfailed
      cases hfailed
  · intro hall report hreport
    obtain ⟨i, hi, htask⟩ := hmem.mp hreport
    rcases heach i hi with hown | ⟨-, -, j, hj, -, hfailed⟩
    · rw [hown] at htask
      rw [← Task.reported.inj htask]
      exact hall i hi
    · rw [hall j hj] at hfailed
      cases hfailed

def sampleReads : ℕ → McapRead
  | 0 => ⟨.ok ([], [("operator", "a")]), .ok []⟩
  | _ => ⟨.ok ([], []), .ok []⟩

def sampleSpec : Spec ℕ := { metadata := [("operator", {})] }

def sampleValidator : Validator ℕ := ⟨wholeMillis, fun _ => none, id⟩

theorem second_fails_first : ∃ s,
    Relation.ReflTransGen (BatchStep sampleValidator sampleSpec false true sampleReads 2) {} s ∧
      s.tasks 0 = .reported (skippedReport sampleSpec) ∧ exitCode (s.reports 2) ≠ 0 := by
  have hcheck : Relation.ReflTransGen
      (BatchStep sampleValidator sampleSpec false true sampleReads 2) {} _ :=
    .single (.check (i := 1) (by decide) rfl)
  have hreport := hcheck.tail (.report (i := 1) (by decide) rfl)
  have hskip := hreport.tail (.skip (i := 0) (by decide) rfl rfl (by decide +kernel))
  refine ⟨_, hskip, rfl, ?_⟩
  have hdone : ∀ i < 2, ∃ report, Function.update (Function.update (Function.update
      (fun _ => Task.waiting) 1 .checking) 1 (.reported (validateOne sampleValidator
        (sampleReads 1) sampleSpec false))) 0 (.reported (skippedReport sampleSpec)) i =
        .reported report := by
    intro i hi
    rcases (by omega : i = 0 ∨ i = 1) with rfl | rfl
    · exact ⟨_, rfl⟩
    · exact ⟨_, rfl⟩
  rw [ne_eq, (batch_verdict (fun l => .refl l) hskip hdone).1]
  rintro ⟨-, hall⟩
  obtain ⟨file, hreads, hmeets⟩ := hall 1 (by decide)
  obtain ⟨actual, hlast, -⟩ := hmeets.metadata _ List.mem_cons_self
  have hempty : file.metadata = [] := (Prod.mk.inj (Except.ok.inj hreads.summary)).2.symm
  rw [hempty] at hlast
  cases hlast.mem

end Batch

end McapValidation
