import Rollio.OrderedTables

/-! The validator's check of a group of channels whose messages belong together by their sequence
ids, from the scan of a file to the errors it reports. -/
namespace SyncGroups
open Std (TreeMap)
open OrderedTables

structure ChannelInfo where
  schema : Option String := none
  encoding : String := ""

structure ScanResult where
  channels : TreeMap String ChannelInfo := {}
  metadata : TreeMap String String := {}
  /-- Of each channel the log time of each sequence id. -/
  syncBuckets : TreeMap String (TreeMap UInt32 UInt64) := {}
  tfObserved : TreeMap String (List (String × String)) := {}

structure SyncGroup (α : Type) where
  channels : List String
  maxTimeDiffMs : α

structure TfPair where
  channel : String
  parent : String
  child : String

structure Constraints (α : Type) where
  syncGroup : List (SyncGroup α) := []
  tfPair : List TfPair := []

structure McapMessage where
  topic : String
  sequence : UInt32
  logTime : UInt64
  data : List UInt8 := []
  deriving DecidableEq

structure McapFile where
  channels : List (String × ChannelInfo)
  metadata : List (String × String) := []
  messages : List McapMessage

section Scan
variable {α : Type} (readFrameTransformPair : List UInt8 → Option (String × String))

def scanMessage (syncTopics tfTopics : List String) (result : ScanResult) (m : McapMessage) :
    ScanResult :=
  let result :=
    if m.topic ∈ syncTopics then
      { result with
        syncBuckets := result.syncBuckets.insert m.topic
          ((result.syncBuckets.getD m.topic {}).insert m.sequence m.logTime) }
    else result
  if m.topic ∈ tfTopics then
    match readFrameTransformPair m.data with
    | some pair =>
      { result with
        tfObserved := result.tfObserved.insert m.topic
          ((result.tfObserved.getD m.topic []).insert pair) }
    | none => result
  else result

def scan (file : McapFile) (spec : Constraints α) (skipConstraints : Bool) : ScanResult :=
  let result : ScanResult :=
    { channels := file.channels.foldl (fun channels c => channels.insert c.1 c.2) {}
      metadata := file.metadata.foldl (fun metadata kv => metadata.insert kv.1 kv.2) {} }
  if skipConstraints then result
  else
    let syncTopics := (spec.syncGroup.flatMap (·.channels)).filter (result.channels.contains ·)
    let tfTopics := (spec.tfPair.map (·.channel)).filter (result.channels.contains ·)
    if syncTopics = [] ∧ tfTopics = [] then result
    else file.messages.foldl (scanMessage readFrameTransformPair syncTopics tfTopics) result

end Scan

/-- What the check makes of the numbers of a specification. -/
structure Millis (α : Type) where
  /-- `(max_ms * 1_000_000.0) as u64`. -/
  toNs : α → UInt64
  /-- `fmt_max_ms`. -/
  text : α → String
  /-- A difference in milliseconds with three digits. -/
  diffText : UInt64 → String

section Validate
variable {α : Type} (millis : Millis α)

/-- `repr()` of a text as Python writes it. -/
def pyrepr (s : String) : String :=
  if s.contains '\'' && !s.contains '"' then "\"" ++ s ++ "\""
  else
    "'" ++ String.ofList (s.toList.flatMap fun c =>
      if c = '\\' then ['\\', '\\'] else if c = '\'' then ['\\', '\''] else [c]) ++ "'"

def fmtChannelList (channels : List String) : String :=
  "[" ++ ", ".intercalate (channels.map pyrepr) ++ "]"

def retainShared (buckets : TreeMap String (TreeMap UInt32 UInt64)) :
    List UInt32 → List String → List UInt32
  | common, [] => common
  | common, c :: rest =>
    match buckets[c]? with
    | none => []
    | some b => retainShared buckets (common.filter (b.contains ·)) rest

def bucketTime (buckets : TreeMap String (TreeMap UInt32 UInt64)) (c : String) (s : UInt32) :
    Option UInt64 := buckets[c]?.bind fun b => b[s]?

def extremes (times : List UInt64) : UInt64 × UInt64 :=
  times.foldl (fun (minT, maxT) t => (if t < minT then t else minT, if maxT < t then t else maxT))
    (18446744073709551615, 0)

/-- How far apart the group's channels are under an id; the index cannot fail for a shared one. -/
def idDiff (buckets : TreeMap String (TreeMap UInt32 UInt64)) (channels : List String)
    (s : UInt32) : UInt64 :=
  let (minT, maxT) := extremes (channels.map fun c => (bucketTime buckets c s).getD 0)
  maxT - minT

/-- The worst difference and an id with it; the first one where there are several. -/
def worstDiff (diff : UInt32 → UInt64) (common : List UInt32) : UInt64 × Option UInt32 :=
  common.foldl (fun (worst, seq) s => if worst < diff s then (diff s, some s) else (worst, seq))
    (0, none)

def noSharedError (channels : List String) : String :=
  "sync_group " ++ fmtChannelList channels ++ ": no shared sequence id across channels"

def groupError (scan : ScanResult) (sg : SyncGroup α) : Option String :=
  let missing := sg.channels.filter fun c => !scan.channels.contains c
  if missing ≠ [] then
    some ("sync_group " ++ fmtChannelList sg.channels ++ " skipped: missing channels " ++
      fmtChannelList missing)
  else match sg.channels with
    | [] => none
    | first :: rest =>
      match scan.syncBuckets[first]? with
      | none => some (noSharedError sg.channels)
      | some firstBuckets =>
        let common := retainShared scan.syncBuckets firstBuckets.keys rest
        if common = [] then some (noSharedError sg.channels)
        else
          let (worst, seq) := worstDiff (idDiff scan.syncBuckets sg.channels) common
          if millis.toNs sg.maxTimeDiffMs < worst then
            some ("sync_group " ++ fmtChannelList sg.channels ++ " timing exceeded: worst " ++
              millis.diffText worst ++ "ms > " ++ millis.text sg.maxTimeDiffMs ++ "ms (seq=" ++
              (seq.map toString).getD "None" ++ ")")
          else none

def validateSyncGroups (spec : Constraints α) (scan : ScanResult) : List String :=
  spec.syncGroup.filterMap (groupError millis scan)

end Validate

section Shared
variable {buckets : TreeMap String (TreeMap UInt32 UInt64)}

theorem mem_retainShared {common : List UInt32} {rest : List String} {s : UInt32} :
    s ∈ retainShared buckets common rest ↔
      s ∈ common ∧ ∀ c ∈ rest, (bucketTime buckets c s).isSome := by
  induction rest generalizing common with
  | nil => simp [retainShared]
  | cons c rest ih =>
    rw [retainShared, List.forall_mem_cons, bucketTime]
    cases hb : buckets[c]? with
    | none => simp
    | some b =>
      dsimp only
      rw [ih, List.mem_filter, Option.bind_some, ← TreeMap.contains_eq_isSome_getElem?, and_assoc]

structure Spans (lo hi : UInt64) (times : List UInt64) (r : UInt64 × UInt64) : Prop where
  low : r.1 ≤ lo ∧ ∀ t ∈ times, r.1 ≤ t
  high : hi ≤ r.2 ∧ ∀ t ∈ times, t ≤ r.2
  low_mem : r.1 = lo ∨ r.1 ∈ times
  high_mem : r.2 = hi ∨ r.2 ∈ times

theorem extremes_fold (times : List UInt64) (lo hi : UInt64) :
    Spans lo hi times (times.foldl (fun (minT, maxT) t =>
      (if t < minT then t else minT, if maxT < t then t else maxT)) (lo, hi)) := by
  induction times generalizing lo hi with
  | nil => exact ⟨by simp, by simp, .inl rfl, .inl rfl⟩
  | cons t rest ih =>
    rw [List.foldl_cons]
    obtain ⟨hlow, hhigh, hlowMem, hhighMem⟩ := ih (if t < lo then t else lo)
      (if hi < t then t else hi)
    have hlo : (if t < lo then t else lo) ≤ lo ∧ (if t < lo then t else lo) ≤ t := by
      split <;> grind
    have hhi : hi ≤ (if hi < t then t else hi) ∧ t ≤ (if hi < t then t else hi) := by
      split <;> grind
    refine ⟨⟨UInt64.le_trans hlow.1 hlo.1, ?_⟩, ⟨UInt64.le_trans hhi.1 hhigh.1, ?_⟩, ?_, ?_⟩
    · rw [List.forall_mem_cons]
      exact ⟨UInt64.le_trans hlow.1 hlo.2, hlow.2⟩
    · rw [List.forall_mem_cons]
      exact ⟨UInt64.le_trans hhi.2 hhigh.1, hhigh.2⟩
    · have hpick := ite_eq_or_eq (t < lo) t lo
      rw [List.mem_cons]
      rcases hlowMem with h | h
      · exact hpick.elim (fun hp => .inr (.inl (h.trans hp))) fun hp => .inl (h.trans hp)
      · exact .inr (.inr h)
    · have hpick := ite_eq_or_eq (hi < t) t hi
      rw [List.mem_cons]
      rcases hhighMem with h | h
      · exact hpick.elim (fun hp => .inr (.inl (h.trans hp))) fun hp => .inl (h.trans hp)
      · exact .inr (.inr h)

theorem extremes_mem {times : List UInt64} (h : times ≠ []) :
    (extremes times).1 ∈ times ∧ (extremes times).2 ∈ times := by
  have hs : Spans _ _ times (extremes times) := extremes_fold times _ _
  obtain ⟨t, ht⟩ := List.exists_mem_of_ne_nil times h
  have hmax : t ≤ 18446744073709551615 := UInt64.le_iff_toNat_le.2 (Nat.le_of_lt_succ t.toNat_lt)
  have hmin : 0 ≤ t := UInt64.le_iff_toNat_le.2 (Nat.zero_le _)
  constructor
  · rcases hs.low_mem with hlo | hmem
    · have : t = (extremes times).1 := UInt64.le_antisymm (hlo ▸ hmax) (hs.low.2 t ht)
      exact this ▸ ht
    · exact hmem
  · rcases hs.high_mem with hhi | hmem
    · have : t = (extremes times).2 := UInt64.le_antisymm (hs.high.2 t ht) (hhi ▸ hmin)
      exact this ▸ ht
    · exact hmem

theorem extremes_spread {times : List UInt64} (h : times ≠ []) {bound : UInt64} :
    (extremes times).2 - (extremes times).1 ≤ bound ↔
      ∀ t ∈ times, ∀ t' ∈ times, t.toNat ≤ t'.toNat + bound.toNat := by
  have hs : Spans _ _ times (extremes times) := extremes_fold times _ _
  obtain ⟨hminMem, hmaxMem⟩ := extremes_mem h
  have hle := hs.low.2 _ hmaxMem
  rw [UInt64.le_iff_toNat_le, UInt64.toNat_sub_of_le _ _ hle]
  constructor
  · intro hdiff t ht t' ht'
    have h1 := UInt64.le_iff_toNat_le.1 (hs.high.2 t ht)
    have h2 := UInt64.le_iff_toNat_le.1 (hs.low.2 t' ht')
    omega
  · intro hall
    have := hall _ hmaxMem _ hminMem
    omega

theorem worstDiff_le {diff : UInt32 → UInt64} {common : List UInt32} {bound : UInt64} :
    (worstDiff diff common).1 ≤ bound ↔ ∀ s ∈ common, diff s ≤ bound := by
  have hfold (l : List UInt32) (worst : UInt64) (seq : Option UInt32) :
      (l.foldl (fun (worst, seq) s => if worst < diff s then (diff s, some s) else (worst, seq))
        (worst, seq)).1 ≤ bound ↔ worst ≤ bound ∧ ∀ s ∈ l, diff s ≤ bound := by
    induction l generalizing worst seq with
    | nil => simp
    | cons s rest ih =>
      rw [List.foldl_cons, List.forall_mem_cons]
      dsimp only
      by_cases hlt : worst < diff s
      · rw [if_pos hlt, ih]
        have hle := UInt64.le_of_lt hlt
        exact ⟨fun ⟨hd, hr⟩ => ⟨UInt64.le_trans hle hd, hd, hr⟩, fun ⟨_, hr⟩ => hr⟩
      · rw [if_neg hlt, ih]
        have hle := UInt64.not_lt.1 hlt
        exact ⟨fun ⟨hw, hr⟩ => ⟨hw, UInt64.le_trans hle hw, hr⟩, fun ⟨hw, _, hr⟩ => ⟨hw, hr⟩⟩
  rw [worstDiff, hfold]
  have hzero : (0 : UInt64) ≤ bound := UInt64.le_iff_toNat_le.2 (Nat.zero_le _)
  exact and_iff_right hzero

end Shared

section Scanned
variable {readFrameTransformPair : List UInt8 → Option (String × String)}
  {syncTopics tfTopics : List String}

theorem scanMessage_channels (result : ScanResult) (m : McapMessage) :
    (scanMessage readFrameTransformPair syncTopics tfTopics result m).channels =
      result.channels := by
  unfold scanMessage
  dsimp only
  split <;> split <;> try split
  all_goals rfl

theorem bucketTime_scanMessage (result : ScanResult) (m : McapMessage) {c : String} {s : UInt32}
    (hc : c ∈ syncTopics) :
    bucketTime (scanMessage readFrameTransformPair syncTopics tfTopics result m).syncBuckets c s =
      if m.topic = c ∧ m.sequence = s then some m.logTime
      else bucketTime result.syncBuckets c s := by
  have hbuckets : (scanMessage readFrameTransformPair syncTopics tfTopics result m).syncBuckets =
      if m.topic ∈ syncTopics then result.syncBuckets.insert m.topic
        ((result.syncBuckets.getD m.topic {}).insert m.sequence m.logTime)
      else result.syncBuckets := by
    unfold scanMessage
    dsimp only
    split <;> split <;> try split
    all_goals rfl
  rw [hbuckets]
  by_cases htopic : m.topic = c
  · subst htopic
    rw [if_pos hc, bucketTime, lookup_insert, if_pos rfl, Option.bind_some, lookup_insert,
      TreeMap.getD_eq_getD_getElem?, bucketTime]
    by_cases hs : s = m.sequence
    · rw [if_pos hs, if_pos ⟨rfl, hs.symm⟩]
    · rw [if_neg hs, if_neg fun h => hs h.2.symm]
      cases result.syncBuckets[m.topic]? with
      | none => rfl
      | some b => rfl
  · rw [if_neg (c := m.topic = c ∧ m.sequence = s) fun h => htopic h.1]
    by_cases hsync : m.topic ∈ syncTopics
    · rw [if_pos hsync, bucketTime, lookup_insert, if_neg fun h => htopic h.symm, bucketTime]
    · rw [if_neg hsync]

/-- The last message of the list with its channel and id. -/
def IsLast (messages : List McapMessage) (m : McapMessage) : Prop :=
  ∃ before after, messages = before ++ m :: after ∧
    ∀ m' ∈ after, ¬(m'.topic = m.topic ∧ m'.sequence = m.sequence)

theorem bucketTime_scanned (messages : List McapMessage) (result : ScanResult) {c : String}
    {s : UInt32} (hc : c ∈ syncTopics) :
    bucketTime (messages.foldl (scanMessage readFrameTransformPair syncTopics tfTopics)
      result).syncBuckets c s =
      ((messages.reverse.find? fun m => m.topic = c ∧ m.sequence = s).map (·.logTime)).or
        (bucketTime result.syncBuckets c s) := by
  induction messages using List.reverseRecOn with
  | nil => rfl
  | append_singleton messages m ih =>
    rw [List.foldl_append, List.foldl_cons, List.foldl_nil, bucketTime_scanMessage _ _ hc, ih,
      List.reverse_append, List.reverse_singleton, List.singleton_append, List.find?_cons]
    by_cases h : m.topic = c ∧ m.sequence = s
    · rw [if_pos h, decide_eq_true h]
      rfl
    · rw [if_neg h, decide_eq_false h]

theorem find_last_eq {messages : List McapMessage} {c : String} {s : UInt32} {m : McapMessage} :
    (messages.reverse.find? fun m => m.topic = c ∧ m.sequence = s) = some m ↔
      IsLast messages m ∧ m.topic = c ∧ m.sequence = s := by
  rw [List.find?_eq_some_iff_append]
  constructor
  · rintro ⟨hm, after, before, hsplit, hafter⟩
    obtain ⟨rfl, rfl⟩ := of_decide_eq_true hm
    refine ⟨⟨before.reverse, after.reverse, ?_, fun m' hm' => ?_⟩, rfl, rfl⟩
    · rw [← List.reverse_reverse messages, hsplit]
      simp
    · have := hafter m' (List.mem_reverse.1 hm')
      rwa [Bool.not_eq_true', decide_eq_false_iff_not] at this
  · rintro ⟨⟨before, after, rfl, hafter⟩, rfl, rfl⟩
    refine ⟨by simp, after.reverse, before.reverse, by simp, fun m' hm' => ?_⟩
    rw [Bool.not_eq_true', decide_eq_false_iff_not]
    exact hafter m' (List.mem_reverse.1 hm')

theorem exists_last {messages : List McapMessage} {m : McapMessage} (hm : m ∈ messages) :
    ∃ m', IsLast messages m' ∧ m'.topic = m.topic ∧ m'.sequence = m.sequence := by
  cases hfind : messages.reverse.find? fun m' => m'.topic = m.topic ∧ m'.sequence = m.sequence with
  | none =>
    have := List.find?_eq_none.1 hfind m (List.mem_reverse.2 hm)
    simp at this
  | some m' => exact ⟨m', find_last_eq.1 hfind⟩

theorem IsLast.mem {messages : List McapMessage} {m : McapMessage} (h : IsLast messages m) :
    m ∈ messages := by
  obtain ⟨before, after, rfl, -⟩ := h
  simp

/-- All of the group's channels have a message with the id. -/
def Shared (messages : List McapMessage) (channels : List String) (s : UInt32) : Prop :=
  ∀ c ∈ channels, ∃ m ∈ messages, m.topic = c ∧ m.sequence = s

/-- An id is shared, and the selected messages of a shared one are close to each other. -/
structure InSync (selected : McapMessage → Prop) (messages : List McapMessage)
    (channels : List String) (maxNs : UInt64) : Prop where
  shares : ∃ s, Shared messages channels s
  within : ∀ m m', selected m → selected m' → m.topic ∈ channels → m'.topic ∈ channels →
    m.sequence = m'.sequence → Shared messages channels m.sequence →
    m.logTime.toNat ≤ m'.logTime.toNat + maxNs.toNat

end Scanned

section Group
variable {α : Type} {millis : Millis α} {sg : SyncGroup α} {result : ScanResult}

/-- A group whose channels exist is judged by the times under the ids they share. -/
theorem groupError_none_iff (hne : sg.channels ≠ [])
    (hpresent : ∀ c ∈ sg.channels, result.channels.contains c) :
    groupError millis result sg = none ↔
      (∃ s, ∀ c ∈ sg.channels, (bucketTime result.syncBuckets c s).isSome) ∧
      ∀ s, (∀ c ∈ sg.channels, (bucketTime result.syncBuckets c s).isSome) →
        idDiff result.syncBuckets sg.channels s ≤ millis.toNs sg.maxTimeDiffMs := by
  have hmissing : (sg.channels.filter fun c => !result.channels.contains c) = [] := by
    rw [List.filter_eq_nil_iff]
    intro c hc
    rw [hpresent c hc]
    exact Bool.false_ne_true
  unfold groupError
  rw [hmissing, if_neg fun h => h rfl]
  obtain ⟨first, rest, hch⟩ := List.exists_cons_of_ne_nil hne
  simp only [hch, List.forall_mem_cons]
  cases hfirst : result.syncBuckets[first]? with
  | none => simp [bucketTime, hfirst]
  | some b =>
    have hcommon (s : UInt32) : s ∈ retainShared result.syncBuckets b.keys rest ↔
        (bucketTime result.syncBuckets first s).isSome ∧
          ∀ c ∈ rest, (bucketTime result.syncBuckets c s).isSome := by
      rw [mem_retainShared, TreeMap.mem_keys, bucketTime, hfirst, Option.bind_some,
        ← TreeMap.contains_eq_isSome_getElem?, TreeMap.mem_iff_contains]
    simp only [← hcommon]
    by_cases hnil : retainShared result.syncBuckets b.keys rest = []
    · simp [hnil]
    · rw [if_neg hnil, and_iff_right (List.exists_mem_of_ne_nil _ hnil), ← worstDiff_le]
      split
      · rename_i hlt
        exact ⟨nofun, fun hle => absurd hlt (UInt64.not_lt.2 hle)⟩
      · rename_i hlt
        exact ⟨fun _ => UInt64.not_lt.1 hlt, fun _ => rfl⟩

end Group

section File
variable {α : Type} {millis : Millis α} {file : McapFile} {spec : Constraints α} {sg : SyncGroup α}
  {readFrameTransformPair : List UInt8 → Option (String × String)}

theorem contains_foldl_insert {channels : List (String × ChannelInfo)}
    {t : TreeMap String ChannelInfo} {c : String} :
    c ∈ channels.foldl (fun t ch => t.insert ch.1 ch.2) t ↔
      c ∈ channels.map Prod.fst ∨ c ∈ t := by
  induction channels generalizing t with
  | nil => simp
  | cons ch rest ih =>
    rw [List.foldl_cons, ih, mem_insert, List.map_cons, List.mem_cons, or_left_comm, or_assoc]

/-- What the pass leaves behind of the channels that exist of a group. -/
theorem scan_group (hsg : sg ∈ spec.syncGroup) (hne : sg.channels ≠ [])
    (hpresent : ∀ c ∈ sg.channels, c ∈ file.channels.map Prod.fst) :
    (∀ c ∈ sg.channels, (scan readFrameTransformPair file spec false).channels.contains c) ∧
    ∀ c ∈ sg.channels, ∀ s,
      bucketTime (scan readFrameTransformPair file spec false).syncBuckets c s =
        (file.messages.reverse.find? fun m => m.topic = c ∧ m.sequence = s).map (·.logTime) := by
  have hchannels : ∀ c ∈ sg.channels,
      (file.channels.foldl (fun channels ch => channels.insert ch.1 ch.2)
        (∅ : TreeMap String ChannelInfo)).contains c := by
    intro c hc
    rw [TreeMap.contains_iff_mem, contains_foldl_insert]
    exact .inl (hpresent c hc)
  have htopics : ∀ c ∈ sg.channels, c ∈ (spec.syncGroup.flatMap (·.channels)).filter
      ((file.channels.foldl (fun channels ch => channels.insert ch.1 ch.2)
        (∅ : TreeMap String ChannelInfo)).contains ·) := by
    intro c hc
    exact List.mem_filter.2 ⟨List.mem_flatMap.2 ⟨sg, hsg, hc⟩, hchannels c hc⟩
  obtain ⟨first, hfirst⟩ := List.exists_mem_of_ne_nil _ hne
  have hkeep (syncTopics tfTopics : List String) (result : ScanResult) :
      (file.messages.foldl (scanMessage readFrameTransformPair syncTopics tfTopics)
        result).channels = result.channels := by
    induction file.messages generalizing result with
    | nil => rfl
    | cons m rest ih => rw [List.foldl_cons, ih, scanMessage_channels]
  unfold scan
  rw [if_neg Bool.false_ne_true]
  dsimp only
  rw [if_neg fun h => List.ne_nil_of_mem (htopics first hfirst) h.1]
  constructor
  · intro c hc
    rw [hkeep]
    exact hchannels c hc
  · intro c hc s
    rw [bucketTime_scanned _ _ (htopics c hc)]
    exact Option.or_none

theorem groupError_scan (hsg : sg ∈ spec.syncGroup) (hne : sg.channels ≠ [])
    (hpresent : ∀ c ∈ sg.channels, c ∈ file.channels.map Prod.fst) :
    groupError millis (scan readFrameTransformPair file spec false) sg = none ↔
      InSync (IsLast file.messages) file.messages sg.channels
        (millis.toNs sg.maxTimeDiffMs) := by
  obtain ⟨hcontains, htime⟩ := @scan_group α file spec sg readFrameTransformPair hsg hne hpresent
  have hsome (s : UInt32) : (∀ c ∈ sg.channels,
      (bucketTime (scan readFrameTransformPair file spec false).syncBuckets c s).isSome) ↔
        Shared file.messages sg.channels s := by
    refine forall₂_congr fun c hc => ?_
    rw [htime c hc, Option.isSome_map, List.find?_isSome]
    simp
  have hlast {c : String} {s : UInt32} (hc : c ∈ sg.channels)
      (hs : Shared file.messages sg.channels s) :
      ∃ m, IsLast file.messages m ∧ m.topic = c ∧ m.sequence = s ∧
        bucketTime (scan readFrameTransformPair file spec false).syncBuckets c s =
          some m.logTime := by
    obtain ⟨m, hm, rfl, rfl⟩ := hs c hc
    obtain ⟨m', hm', htopic, hseq⟩ := exists_last hm
    refine ⟨m', hm', htopic, hseq, ?_⟩
    rw [htime _ hc, find_last_eq.2 ⟨hm', htopic, hseq⟩, Option.map_some]
  have htimes (s : UInt32) : sg.channels.map (fun c => (bucketTime
      (scan readFrameTransformPair file spec false).syncBuckets c s).getD 0) ≠ [] := by
    simpa using hne
  rw [groupError_none_iff hne hcontains]
  simp only [hsome, idDiff, extremes_spread (htimes _), List.forall_mem_map]
  constructor
  · rintro ⟨hshares, hwithin⟩
    refine ⟨hshares, fun m m' hm hm' hc hc' hseq hs => ?_⟩
    have := hwithin m.sequence hs m.topic hc m'.topic hc'
    rwa [htime _ hc, htime _ hc', find_last_eq.2 ⟨hm, rfl, rfl⟩,
      find_last_eq.2 ⟨hm', rfl, hseq.symm⟩] at this
  · rintro ⟨hshares, hwithin⟩
    refine ⟨hshares, fun s hs c hc c' hc' => ?_⟩
    obtain ⟨m, hm, rfl, rfl, htm⟩ := hlast hc hs
    obtain ⟨m', hm', rfl, hseq, htm'⟩ := hlast hc' hs
    rw [htm, htm']
    exact hwithin m m' hm hm' hc hc' hseq.symm hs

/-- Groups that are in sync stay so when only the last messages are looked at. -/
theorem InSync.last {messages : List McapMessage} {channels : List String} {maxNs : UInt64}
    (h : InSync (· ∈ messages) messages channels maxNs) :
    InSync (IsLast messages) messages channels maxNs :=
  ⟨h.shares, fun m m' hm hm' => h.within m m' hm.mem hm'.mem⟩

theorem InSync.of_last {messages : List McapMessage} {channels : List String} {maxNs : UInt64}
    (hrepeat : ∀ m ∈ messages, m.topic ∈ channels → IsLast messages m)
    (h : InSync (IsLast messages) messages channels maxNs) :
    InSync (· ∈ messages) messages channels maxNs := by
  refine ⟨h.shares, fun m m' hm hm' hc hc' => ?_⟩
  exact h.within m m' (hrepeat m hm hc) (hrepeat m' hm' hc') hc hc'

/-- A group is judged by the last messages with an id: one that is in sync is never reported, and
the check misses nothing where no channel of the group repeats an id. -/
theorem sync_groups_checked
    (hgroups : ∀ sg ∈ spec.syncGroup,
      sg.channels ≠ [] ∧ ∀ c ∈ sg.channels, c ∈ file.channels.map Prod.fst) :
    (∀ sg ∈ spec.syncGroup,
      let maxNs := millis.toNs sg.maxTimeDiffMs
      (groupError millis (scan readFrameTransformPair file spec false) sg = none ↔
        InSync (IsLast file.messages) file.messages sg.channels maxNs) ∧
      (InSync (· ∈ file.messages) file.messages sg.channels maxNs →
        groupError millis (scan readFrameTransformPair file spec false) sg = none) ∧
      ((∀ m ∈ file.messages, m.topic ∈ sg.channels → IsLast file.messages m) →
        (groupError millis (scan readFrameTransformPair file spec false) sg = none ↔
          InSync (· ∈ file.messages) file.messages sg.channels maxNs))) ∧
    (validateSyncGroups millis spec (scan readFrameTransformPair file spec false) = [] ↔
      ∀ sg ∈ spec.syncGroup, InSync (IsLast file.messages) file.messages sg.channels
        (millis.toNs sg.maxTimeDiffMs)) := by
  have hjudged : ∀ sg ∈ spec.syncGroup,
      (groupError millis (scan readFrameTransformPair file spec false) sg = none ↔
        InSync (IsLast file.messages) file.messages sg.channels
          (millis.toNs sg.maxTimeDiffMs)) :=
    fun sg hsg => groupError_scan hsg (hgroups sg hsg).1 (hgroups sg hsg).2
  constructor
  · intro sg hsg
    refine ⟨hjudged sg hsg, fun h => (hjudged sg hsg).2 h.last, fun hrepeat => ?_⟩
    rw [hjudged sg hsg]
    exact ⟨InSync.of_last hrepeat, InSync.last⟩
  · rw [validateSyncGroups, List.filterMap_eq_nil_iff]
    exact forall₂_congr hjudged

end File

def wholeMillis : Millis Nat where
  toNs ms := UInt64.ofNat (ms * 1000000)
  text := toString
  diffText d := toString (d.toNat / 1000000) ++ "." ++
    String.ofList ((toString (1000 + d.toNat / 1000 % 1000)).toList.drop 1)

def cameraAndArm : Constraints Nat where
  syncGroup := [{ channels := ["camera", "arm"], maxTimeDiffMs := 10 }]

def recording (messages : List McapMessage) : McapFile where
  channels := [("camera", {}), ("arm", {})]
  messages := messages

theorem close_messages_pass :
    validateSyncGroups wholeMillis cameraAndArm (scan (fun _ => none)
      (recording [{ topic := "camera", sequence := 1, logTime := 1000 },
        { topic := "arm", sequence := 1, logTime := 2000 }]) cameraAndArm false) = [] := by
  refine (sync_groups_checked ?_).2.2 ?_
  · simp [cameraAndArm, recording]
  · intro sg hsg
    obtain rfl := List.mem_singleton.1 hsg
    refine InSync.last ⟨⟨1, by simp [Shared, recording]⟩, ?_⟩
    simp only [recording, wholeMillis, List.mem_cons, List.not_mem_nil, or_false]
    rintro m m' (rfl | rfl) (rfl | rfl) - - - - <;> decide

/-- The camera's message of the same id a second earlier goes unnoticed. -/
theorem repeated_id_unnoticed :
    let file := recording [{ topic := "camera", sequence := 1, logTime := 0 },
      { topic := "camera", sequence := 1, logTime := 1000000000 },
      { topic := "arm", sequence := 1, logTime := 1000000000 }]
    validateSyncGroups wholeMillis cameraAndArm
      (scan (fun _ => none) file cameraAndArm false) = [] ∧
    ¬InSync (· ∈ file.messages) file.messages ["camera", "arm"] (wholeMillis.toNs 10) := by
  refine ⟨by decide +kernel, fun h => ?_⟩
  have hclose := h.within { topic := "camera", sequence := 1, logTime := 1000000000 }
    { topic := "camera", sequence := 1, logTime := 0 } (by simp [recording]) (by simp [recording])
    (by simp) (by simp) rfl (by simp [Shared, recording])
  revert hclose
  decide

end SyncGroups
