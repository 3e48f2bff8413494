import Rollio.LerobotMuxing
import Rollio.PreviewMessages
import Rollio.StreamNumbering

/-! Depth recordings as files: what the depth session writes reaches a file through the assembler's
buffer, and is read back frame by frame. -/
namespace RvlArtifacts
open BusMessages LittleEndian Outcomes RecordingEncoder CodecSessions SessionSteps
open PacketDeliveries LerobotPackets LerobotDataset StreamNumbering
open PreviewMessages (u32LeBytes_eq u64LeBytes_eq)

abbrev DepthDecoder := ℕ → ℕ → List UInt8 → Except String (List UInt16)

structure DecodedArtifact where
  width : UInt32
  height : UInt32
  frameCount : ℕ := 0
  firstDepthFrame : Option (List UInt16) := none
  lastDepthFrame : Option (List UInt16) := none
  deriving DecidableEq, Repr

def rvlMagic : List UInt8 := [0x52, 0x56, 0x4C, 0x31]

/-- `read_exact`; what is behind the bytes is left to read. -/
def readExact (n : ℕ) (reader : List UInt8) : Except String (List UInt8 × List UInt8) :=
  if reader.length < n then .error "failed to fill whole buffer"
  else .ok (reader.take n, reader.drop n)

def readNumber (size : ℕ) (reader : List UInt8) : Except String (ℕ × List UInt8) := do
  let (bytes, reader) ← readExact size reader
  return (ofBytes bytes, reader)

def readOptionalU64 (reader : List UInt8) : Option (ℕ × List UInt8) :=
  match readNumber 8 reader with
  | .error _ => none
  | .ok read => some read

def decodeRecord (decoder : DepthDecoder) (frameLen decoded : ℕ) (reader : List UInt8) :
    Except String (Option (List UInt16 × List UInt8)) :=
  match readOptionalU64 reader with
  | none => .ok none
  | some (_, reader) => do
    let (_, reader) ← readNumber 8 reader
    let (payloadLen, reader) ← readNumber 4 reader
    let (payload, reader) ← readExact payloadLen reader
    let frame ← decoder frameLen decoded payload
    return some (frame, reader)

def DecodedArtifact.add (summary : DecodedArtifact) (frame : List UInt16) : DecodedArtifact :=
  { summary with
    frameCount := summary.frameCount + 1
    firstDepthFrame := some (summary.firstDepthFrame.getD frame)
    lastDepthFrame := some frame }

@[simp] theorem DecodedArtifact.frameCount_add (summary : DecodedArtifact) (frame : List UInt16) :
    (summary.add frame).frameCount = summary.frameCount + 1 := rfl

/-- The loop; it is not finished if it takes more turns than the given ones. -/
def decodeRecords (decoder : DepthDecoder) (frameLen : ℕ) :
    ℕ → List UInt8 → DecodedArtifact → Option (Except String DecodedArtifact)
  | 0, _, _ => none
  | turns + 1, reader, summary =>
    match decodeRecord decoder frameLen summary.frameCount reader with
    | .error e => some (.error e)
    | .ok none => some (.ok summary)
    | .ok (some (frame, reader)) => decodeRecords decoder frameLen turns reader (summary.add frame)

def readPreamble (file : List UInt8) : Except String (UInt32 × UInt32 × List UInt8) := do
  let (magic, reader) ← readExact 4 file
  if magic ≠ rvlMagic then
    throw "invalid RVL stream magic"
  let (width, reader) ← readNumber 4 reader
  let (height, reader) ← readNumber 4 reader
  let (_, reader) ← readNumber 4 reader
  return (UInt32.ofNat width, UInt32.ofNat height, reader)

/-- A turn reads eight bytes at least, so there is never a turn too many. -/
def decodeRvlArtifact (decoder : DepthDecoder) (file : List UInt8) :
    Option (Except String DecodedArtifact) :=
  match readPreamble file with
  | .error e => some (.error e)
  | .ok (width, height, reader) =>
    decodeRecords decoder (width.toNat * height.toNat) (file.length + 1) reader { width, height }

def preamble (width height fps : UInt32) : List UInt8 :=
  rvlMagic ++ u32LeBytes width ++ u32LeBytes height ++ u32LeBytes fps

/-- The file that `write_stream` makes of a buffer, whatever the file system does. -/
def WritesFile (target : String) (stream : RecordingStreamBuffer) (file : List UInt8) : Prop :=
  ∀ io, rvlFrameWriteStream io target stream = ofIo (io.writeFile target file)

/-- How many records of some sizes are whole in so many bytes, and the bytes behind them. -/
def wholeRecords : List ℕ → ℕ → ℕ × ℕ
  | [], n => (0, n)
  | size :: sizes, n =>
    if size ≤ n then
      let (count, rest) := wholeRecords sizes (n - size)
      (count + 1, rest)
    else (0, n)

/-- A file is accepted with its size and all of its frames. What is left of one that was cut off
is accepted only if it ends behind a frame, or within the first number of the next one, and then
with its whole frames. -/
structure Accepted (decoder : DepthDecoder) (width height : UInt32) (sizes : List ℕ)
    (file : List UInt8) : Prop where
  whole : ∃ artifact, decodeRvlArtifact decoder file = some (.ok artifact) ∧
    artifact.width = width ∧ artifact.height = height ∧ artifact.frameCount = sizes.length
  truncated : ∀ cut < file.length, ∃ outcome,
    decodeRvlArtifact decoder (file.take cut) = some outcome ∧ ∀ artifact, outcome = .ok artifact →
      16 ≤ cut ∧ artifact.frameCount = (wholeRecords sizes (cut - 16)).1 ∧
        (wholeRecords sizes (cut - 16)).2 < 8

/-- A recording that has arrived in a buffer is written and read back. -/
def RoundTrips (decoder : DepthDecoder) (target : String) (stream : RecordingStreamBuffer)
    (width height : UInt32) (packets : List EncodedPacket) : Prop :=
  ∃ file, WritesFile target stream file ∧
    Accepted decoder width height (packets.map fun packet => packet.payload.length) file

/-- The decompressor undoes what the compressor makes of a frame, whatever came before. -/
def Intra (depth : DepthEncoder) (decoder : DepthDecoder) (frameLen : ℕ) : Prop :=
  ∀ n pixels kind payload, depth n pixels = .ok (kind, payload) →
    ∀ m, decoder frameLen m payload = .ok pixels

section Reading
variable {decoder : DepthDecoder} {frameLen : ℕ}

theorem readExact_eq_ok {n : ℕ} {reader bytes rest : List UInt8} :
    readExact n reader = .ok (bytes, rest) ↔ bytes.length = n ∧ reader = bytes ++ rest := by
  unfold readExact
  constructor
  · intro h
    by_cases hlen : reader.length < n
    · rw [if_pos hlen] at h
      cases h
    · rw [if_neg hlen] at h
      obtain ⟨rfl, rfl⟩ := Prod.mk.inj (Except.ok.inj h)
      exact ⟨List.length_take_of_le (Nat.le_of_not_lt hlen), (List.take_append_drop n reader).symm⟩
  · rintro ⟨rfl, rfl⟩
    have hlen : ¬ (bytes ++ rest).length < bytes.length := by
      rw [List.length_append]
      omega
    rw [if_neg hlen, List.take_left, List.drop_left]

theorem readNumber_eq_ok {size n : ℕ} {reader rest : List UInt8} :
    readNumber size reader = .ok (n, rest) ↔
      ∃ bytes, bytes.length = size ∧ reader = bytes ++ rest ∧ n = ofBytes bytes := by
  simp only [readNumber, bind_eq_ok, Prod.exists, readExact_eq_ok, pure_eq_ok, Prod.mk.injEq]
  constructor
  · rintro ⟨bytes, rest', ⟨hsize, hreader⟩, rfl, rfl⟩
    exact ⟨bytes, hsize, hreader, rfl⟩
  · rintro ⟨bytes, hsize, hreader, rfl⟩
    exact ⟨bytes, rest, ⟨hsize, hreader⟩, rfl, rfl⟩

theorem readOptionalU64_eq_some {n : ℕ} {reader rest : List UInt8} :
    readOptionalU64 reader = some (n, rest) ↔ readNumber 8 reader = .ok (n, rest) := by
  unfold readOptionalU64
  cases readNumber 8 reader with
  | error e => exact ⟨fun h => (by cases h), fun h => (by cases h)⟩
  | ok read => exact ⟨fun h => congrArg _ (Option.some.inj h), fun h => congrArg _ (Except.ok.inj h)⟩

theorem readOptionalU64_eq_none {reader : List UInt8} :
    readOptionalU64 reader = none ↔ reader.length < 8 := by
  by_cases h : reader.length < 8
  · simp [readOptionalU64, readNumber, readExact, h, bind, Except.bind]
  · simp [readOptionalU64, readNumber, readExact, h, bind, Except.bind, pure, Except.pure]

/-- A frame is read from its four parts, and what is behind them is left to read. -/
theorem decodeRecord_eq_some {n : ℕ} {reader rest : List UInt8} {frame : List UInt16} :
    decodeRecord decoder frameLen n reader = .ok (some (frame, rest)) ↔
      ∃ stamp index len payload : List UInt8, stamp.length = 8 ∧ index.length = 8 ∧
        len.length = 4 ∧ payload.length = ofBytes len ∧
        decoder frameLen n payload = .ok frame ∧
        reader = stamp ++ (index ++ (len ++ (payload ++ rest))) := by
  unfold decodeRecord
  constructor
  · intro h
    cases hstamp : readOptionalU64 reader with
    | none =>
      rw [hstamp] at h
      cases h
    | some read =>
      obtain ⟨t, afterStamp⟩ := read
      obtain ⟨stamp, hstampLen, rfl, -⟩ :=
        readNumber_eq_ok.mp (readOptionalU64_eq_some.mp hstamp)
      simp only [hstamp, bind_eq_ok, Prod.exists, readNumber_eq_ok, readExact_eq_ok, pure_eq_ok,
        Option.some.injEq, Prod.mk.injEq] at h
      obtain ⟨i, afterIndex, ⟨index, hindex, rfl, -⟩, l, afterLen, ⟨len, hlen, rfl, rfl⟩, payload,
        afterPayload, ⟨hpayload, rfl⟩, f, hf, rfl, rfl⟩ := h
      exact ⟨stamp, index, len, payload, hstampLen, hindex, hlen, hpayload, hf, rfl⟩
  · rintro ⟨stamp, index, len, payload, hstamp, hindex, hlen, hpayload, hframe, rfl⟩
    have hread : readOptionalU64 (stamp ++ (index ++ (len ++ (payload ++ rest)))) =
        some (ofBytes stamp, index ++ (len ++ (payload ++ rest))) :=
      readOptionalU64_eq_some.mpr (readNumber_eq_ok.mpr ⟨stamp, hstamp, rfl, rfl⟩)
    simp only [hread, bind_eq_ok, Prod.exists, readNumber_eq_ok, readExact_eq_ok, pure_eq_ok,
      Option.some.injEq, Prod.mk.injEq]
    exact ⟨_, _, ⟨index, hindex, rfl, rfl⟩, _, _, ⟨len, hlen, rfl, rfl⟩, payload, rest,
      ⟨hpayload, rfl⟩, frame, hframe, rfl, rfl⟩

theorem decodeRecord_eq_none {n : ℕ} {reader : List UInt8} :
    decodeRecord decoder frameLen n reader = .ok none ↔ reader.length < 8 := by
  rw [← readOptionalU64_eq_none]
  unfold decodeRecord
  cases readOptionalU64 reader with
  | none => exact ⟨fun _ => rfl, fun _ => rfl⟩
  | some read =>
    simp only [bind_eq_ok, pure_eq_ok, reduceCtorEq, and_false, exists_false]

theorem decodeRecord_append {n : ℕ} {reader rest : List UInt8} {frame : List UInt16}
    (h : decodeRecord decoder frameLen n reader = .ok (some (frame, rest))) (more : List UInt8) :
    decodeRecord decoder frameLen n (reader ++ more) = .ok (some (frame, rest ++ more)) := by
  obtain ⟨stamp, index, len, payload, hstamp, hindex, hlen, hpayload, hframe, rfl⟩ :=
    decodeRecord_eq_some.mp h
  refine decodeRecord_eq_some.mpr
    ⟨stamp, index, len, payload, hstamp, hindex, hlen, hpayload, hframe, ?_⟩
  simp only [List.append_assoc]

theorem decodeRecord_shorter {n : ℕ} {reader rest : List UInt8} {frame : List UInt16}
    (h : decodeRecord decoder frameLen n reader = .ok (some (frame, rest))) :
    rest.length < reader.length := by
  obtain ⟨stamp, index, len, payload, hstamp, -, -, -, -, rfl⟩ := decodeRecord_eq_some.mp h
  simp only [List.length_append]
  omega

variable (decoder frameLen) in
/-- The loop ends, as every turn reads something. -/
theorem decodeRecords_finishes {turns : ℕ} {reader : List UInt8} (hturns : reader.length < turns)
    (summary : DecodedArtifact) :
    ∃ outcome, decodeRecords decoder frameLen turns reader summary = some outcome := by
  induction turns generalizing reader summary with
  | zero => omega
  | succ turns ih =>
    unfold decodeRecords
    cases hrecord : decodeRecord decoder frameLen summary.frameCount reader with
    | error e => exact ⟨_, rfl⟩
    | ok next =>
      cases next with
      | none => exact ⟨_, rfl⟩
      | some next =>
        have hshorter := decodeRecord_shorter hrecord
        exact ih (by omega) (summary.add next.1)

theorem readPreamble_eq_ok {file rest : List UInt8} {width height : UInt32} :
    readPreamble file = .ok (width, height, rest) ↔
      ∃ w h fps : List UInt8, w.length = 4 ∧ h.length = 4 ∧ fps.length = 4 ∧
        width = UInt32.ofNat (ofBytes w) ∧ height = UInt32.ofNat (ofBytes h) ∧
        file = rvlMagic ++ (w ++ (h ++ (fps ++ rest))) := by
  simp only [readPreamble, bind_eq_ok, Prod.exists, readExact_eq_ok, check_eq_ok, readNumber_eq_ok,
    pure_eq_ok, Prod.mk.injEq, ne_eq, not_not]
  constructor
  · rintro ⟨magic, _, ⟨-, rfl⟩, rfl, _, _, ⟨w, hw, rfl, rfl⟩, _, _, ⟨h, hh, rfl, rfl⟩, _, _,
      ⟨fps, hfps, rfl, -⟩, rfl, rfl, rfl⟩
    exact ⟨w, h, fps, hw, hh, hfps, rfl, rfl, rfl⟩
  · rintro ⟨w, h, fps, hw, hh, hfps, rfl, rfl, rfl⟩
    exact ⟨rvlMagic, _, ⟨rfl, rfl⟩, rfl, _, _, ⟨w, hw, rfl, rfl⟩, _, _, ⟨h, hh, rfl, rfl⟩, _, _,
      ⟨fps, hfps, rfl, rfl⟩, rfl, rfl, rfl⟩

theorem readPreamble_preamble (width height fps : UInt32) (rest : List UInt8) :
    readPreamble (preamble width height fps ++ rest) = .ok (width, height, rest) := by
  have hback (n : UInt32) : n = UInt32.ofNat (ofBytes (toBytes 4 n.toNat)) := by
    have hlt : n.toNat < 256 ^ 4 := n.toNat_lt
    rw [ofBytes_toBytes, Nat.mod_eq_of_lt hlt, UInt32.ofNat_toNat]
  refine readPreamble_eq_ok.mpr ⟨toBytes 4 width.toNat, toBytes 4 height.toNat, toBytes 4 fps.toNat,
    length_toBytes .., length_toBytes .., length_toBytes .., hback width, hback height, ?_⟩
  simp only [preamble, u32LeBytes_eq, List.append_assoc]

theorem readPreamble_length {file rest : List UInt8} {width height : UInt32}
    (h : readPreamble file = .ok (width, height, rest)) : file.length = 16 + rest.length := by
  obtain ⟨w, h, fps, hw, hh, hfps, -, -, rfl⟩ := readPreamble_eq_ok.mp h
  simp only [List.length_append, hw, hh, hfps, rvlMagic, List.length_cons, List.length_nil]
  omega

theorem length_preamble (width height fps : UInt32) : (preamble width height fps).length = 16 := by
  have h := readPreamble_length (readPreamble_preamble width height fps [])
  rwa [List.append_nil] at h

end Reading

section Records
variable {decoder : DepthDecoder} {frameLen : ℕ}

/-- Bytes that are read as one frame, wherever they stand. -/
def IsRecord (decoder : DepthDecoder) (frameLen : ℕ) (record : List UInt8) : Prop :=
  ∃ frame, ∀ n rest,
    decodeRecord decoder frameLen n (record ++ rest) = .ok (some (frame, rest))

theorem IsRecord.cut {record : List UInt8} (h : IsRecord decoder frameLen record) {cut : ℕ}
    (hcut : cut < record.length) (hlong : 8 ≤ cut) (n : ℕ) :
    ∃ e, decodeRecord decoder frameLen n (record.take cut) = .error e := by
  have hlength : (record.take cut).length = cut := List.length_take_of_le (Nat.le_of_lt hcut)
  cases hread : decodeRecord decoder frameLen n (record.take cut) with
  | error e => exact ⟨e, rfl⟩
  | ok next =>
    cases next with
    | none =>
      have hshort := decodeRecord_eq_none.mp hread
      omega
    | some next =>
      -- what is missing would be left over behind the whole frame
      obtain ⟨frame, hwhole⟩ := h
      have hmore := decodeRecord_append hread (record.drop cut)
      have hnil := hwhole n []
      rw [List.append_nil] at hnil
      rw [List.take_append_drop, hnil] at hmore
      have hrest : next.2 ++ record.drop cut = [] :=
        (Prod.mk.inj (Option.some.inj (Except.ok.inj hmore))).2.symm
      have hdrop := congrArg List.length (List.append_eq_nil_iff.mp hrest).2
      rw [List.length_drop, List.length_nil] at hdrop
      omega

theorem decodeRecords_flatten {records : List (List UInt8)}
    (h : ∀ record ∈ records, IsRecord decoder frameLen record) {turns : ℕ}
    {summary : DecodedArtifact} {outcome : Except String DecodedArtifact}
    (hloop : decodeRecords decoder frameLen turns records.flatten summary = some outcome) :
    ∃ artifact, outcome = .ok artifact ∧ artifact.width = summary.width ∧
      artifact.height = summary.height ∧
      artifact.frameCount = summary.frameCount + records.length := by
  induction records generalizing turns summary with
  | nil =>
    cases turns with
    | zero => cases hloop
    | succ turns =>
      have hend : decodeRecord decoder frameLen summary.frameCount ([] : List (List UInt8)).flatten =
          .ok none := decodeRecord_eq_none.mpr (by decide)
      rw [decodeRecords, hend] at hloop
      exact ⟨summary, (Option.some.inj hloop).symm, rfl, rfl, rfl⟩
  | cons record records ih =>
    cases turns with
    | zero => cases hloop
    | succ turns =>
      obtain ⟨hrecord, hrecords⟩ := List.forall_mem_cons.mp h
      obtain ⟨frame, hread⟩ := hrecord
      rw [decodeRecords, List.flatten_cons, hread] at hloop
      obtain ⟨artifact, hok, hwidth, hheight, hcount⟩ := ih hrecords hloop
      refine ⟨artifact, hok, hwidth, hheight, ?_⟩
      rw [hcount, List.length_cons, DecodedArtifact.frameCount_add]
      omega

/-- What is left of the frames is read up to the last whole one, unless the next one is missing
something behind its first number. -/
theorem decodeRecords_take {records : List (List UInt8)}
    (h : ∀ record ∈ records, IsRecord decoder frameLen record) {turns cut : ℕ}
    (hcut : cut ≤ records.flatten.length) {summary artifact : DecodedArtifact}
    (hloop : decodeRecords decoder frameLen turns (records.flatten.take cut) summary =
      some (.ok artifact)) :
    artifact.frameCount = summary.frameCount + (wholeRecords (records.map List.length) cut).1 ∧
      (wholeRecords (records.map List.length) cut).2 < 8 := by
  induction records generalizing turns cut summary with
  | nil =>
    obtain rfl : cut = 0 := Nat.le_zero.mp hcut
    obtain ⟨artifact', hok, -, -, hcount⟩ := decodeRecords_flatten h hloop
    cases hok
    exact ⟨hcount, by decide⟩
  | cons record records ih =>
    obtain ⟨hrecord, hrecords⟩ := List.forall_mem_cons.mp h
    rw [List.flatten_cons, List.length_append] at hcut
    rw [List.flatten_cons, List.take_append] at hloop
    simp only [List.map_cons, wholeRecords]
    cases turns with
    | zero => cases hloop
    | succ turns =>
      by_cases hwhole : record.length ≤ cut
      · obtain ⟨frame, hread⟩ := hrecord
        rw [List.take_of_length_le hwhole, decodeRecords, hread] at hloop
        obtain ⟨hcount, hrest⟩ := ih hrecords (by omega) hloop
        rw [if_pos hwhole]
        refine ⟨?_, hrest⟩
        rw [hcount, DecodedArtifact.frameCount_add]
        omega
      · have hnothing : cut - record.length = 0 := by omega
        rw [hnothing, List.take_zero, List.append_nil, decodeRecords] at hloop
        rw [if_neg hwhole]
        by_cases hlong : 8 ≤ cut
        · obtain ⟨e, he⟩ := hrecord.cut (Nat.lt_of_not_le hwhole) hlong summary.frameCount
          rw [he] at hloop
          cases Option.some.inj hloop
        · have hshort : (record.take cut).length < 8 := by
            rw [List.length_take]
            omega
          rw [decodeRecord_eq_none.mpr hshort] at hloop
          cases Option.some.inj hloop
          exact ⟨rfl, Nat.lt_of_not_le hlong⟩

/-- The layout of a file, read back whole and cut off anywhere. -/
theorem accepted_of_records (width height fps : UInt32) {records : List (List UInt8)}
    (h : ∀ record ∈ records, IsRecord decoder (width.toNat * height.toNat) record) :
    Accepted decoder width height (records.map List.length)
      (preamble width height fps ++ records.flatten) := by
  constructor
  · have hturns : records.flatten.length <
        (preamble width height fps ++ records.flatten).length + 1 := by
      rw [List.length_append]
      omega
    obtain ⟨outcome, hloop⟩ := decodeRecords_finishes decoder (width.toNat * height.toNat) hturns
      { width, height }
    obtain ⟨artifact, rfl, hwidth, hheight, hcount⟩ := decodeRecords_flatten h hloop
    refine ⟨artifact, ?_, hwidth, hheight, ?_⟩
    · rw [decodeRvlArtifact, readPreamble_preamble]
      exact hloop
    · rw [hcount, List.length_map]
      exact Nat.zero_add _
  · intro cut hcut
    rw [List.length_append, length_preamble] at hcut
    by_cases hpreamble : 16 ≤ cut
    · have htake : (preamble width height fps ++ records.flatten).take cut =
          preamble width height fps ++ records.flatten.take (cut - 16) := by
        rw [List.take_append, length_preamble,
          List.take_of_length_le (by rw [length_preamble]; exact hpreamble)]
      rw [htake, decodeRvlArtifact, readPreamble_preamble]
      have hturns : (records.flatten.take (cut - 16)).length <
          (preamble width height fps ++ records.flatten.take (cut - 16)).length + 1 := by
        rw [List.length_append]
        omega
      obtain ⟨outcome, hloop⟩ := decodeRecords_finishes decoder (width.toNat * height.toNat) hturns
        { width, height }
      refine ⟨outcome, hloop, ?_⟩
      rintro artifact rfl
      obtain ⟨hcount, hrest⟩ := decodeRecords_take h (by omega) hloop
      exact ⟨hpreamble, hcount.trans (Nat.zero_add _), hrest⟩
    · cases hread : readPreamble ((preamble width height fps ++ records.flatten).take cut) with
      | error e =>
        refine ⟨.error e, ?_, fun artifact h => by cases h⟩
        rw [decodeRvlArtifact, hread]
      | ok read =>
        have hlength := readPreamble_length hread
        rw [List.length_take] at hlength
        omega

end Records

section Sessions
variable {codecs : Codecs} {sink : EncodedPacketSink} {decoder : DepthDecoder} {frameLen : ℕ}
  {s : RvlCodecSession} {packets : List EncodedPacket} {eos : EncodedPacketHeader}

theorem rvl_encode_record {depth : DepthEncoder} {s' : RvlCodecSession} {frame : OwnedFrame}
    (hcodec : Intra depth decoder frameLen) (h : s.encode depth sink frame = .ok (s', packets)) :
    ∀ packet ∈ packets, packet.payload.length < 2 ^ 32 →
      IsRecord decoder frameLen packet.payload := by
  unfold RvlCodecSession.encode at h
  simp only [bind_eq_ok, check_eq_ok] at h
  obtain ⟨-, -, -, h⟩ := h
  cases hpixels : depth16PayloadToVec frame.payload with
  | none =>
    rw [hpixels] at h
    cases h
  | some pixels =>
    simp only [hpixels, bind_eq_ok, writePacket_eq_ok, pure_eq_ok, Prod.mk.injEq] at h
    obtain ⟨⟨kind, payload⟩, hdepth, duration, -, packet, ⟨-, rfl⟩, -, rfl⟩ := h
    intro packet hpacket hfits
    rw [List.mem_singleton.mp hpacket] at hfits ⊢
    have hlen : payload.length < 256 ^ 4 := by
      simp only [List.length_append] at hfits
      omega
    have hfield : (UInt32.ofNat payload.length).toNat = payload.length := by
      rw [UInt32.toNat_ofNat']
      exact Nat.mod_eq_of_lt hlen
    refine ⟨pixels, fun n rest => decodeRecord_eq_some.mpr
      ⟨u64LeBytes frame.header.timestampUs, u64LeBytes frame.header.frameIndex,
        u32LeBytes (UInt32.ofNat payload.length), payload, ?_, ?_, ?_, ?_,
        hcodec _ _ _ _ hdepth n, ?_⟩⟩
    · rw [u64LeBytes_eq, length_toBytes]
    · rw [u64LeBytes_eq, length_toBytes]
    · rw [u32LeBytes_eq, length_toBytes]
    · rw [u32LeBytes_eq, ofBytes_toBytes, hfield, Nat.mod_eq_of_lt hlen]
    · simp only [List.append_assoc]

/-- Whatever the session sends are keyframes, each of them with its record. -/
theorem rvl_record_packets {frames : List OwnedFrame} (hcodec : Intra codecs.depth decoder frameLen)
    (h : CodecSession.record codecs sink (.rvl s) frames = .ok (packets, eos)) :
    ∀ packet ∈ packets, packet.header.isKeyframe = true ∧
      (packet.payload.length < 2 ^ 32 → IsRecord decoder frameLen packet.payload) := by
  induction frames generalizing s packets with
  | nil =>
    obtain ⟨t, -, he⟩ := map_eq_ok.mp h
    obtain ⟨rfl, -⟩ := Prod.mk.inj he
    exact fun packet hpacket => absurd hpacket List.not_mem_nil
  | cons frame frames ih =>
    simp only [CodecSession.record, bind_eq_ok, pure_eq_ok, Prod.mk.injEq] at h
    obtain ⟨⟨s', ps⟩, hencode, ⟨qs, e⟩, hrest, rfl, rfl⟩ := h
    obtain ⟨⟨t, ps'⟩, ht, he⟩ := map_eq_ok.mp hencode
    obtain ⟨rfl, rfl⟩ := Prod.mk.inj he
    have hrecord := rvl_encode_record hcodec ht
    obtain ⟨-, -, hkeys⟩ := rvl_encode_ok ht
    intro packet hpacket
    rcases List.mem_append.mp hpacket with hpacket | hpacket
    · exact ⟨hkeys packet hpacket, hrecord packet hpacket⟩
    · exact ih hrest packet hpacket

theorem observeAll_config (b : RecordingStreamBuffer) (ds : List Delivery) :
    (observeAll b ds).config = b.config := by
  induction ds generalizing b with
  | nil => rfl
  | cons d ds ih => exact (ih (observe b d)).trans (LerobotMuxing.observe_config b d)

/-- A buffer takes in all of a numbered stream of keyframes. -/
theorem observeAll_keyframes {b : RecordingStreamBuffer} {episodeIndex : UInt32} {n m : UInt64}
    (hb : Awaits n b) (h : Numbered episodeIndex n packets m)
    (hkeys : ∀ packet ∈ packets, packet.header.isKeyframe = true) :
    (observeAll b (packets.map fun p => .packet p.header p.payload)).packets =
      b.packets ++ packets.map fun p => ⟨p.header, p.payload⟩ := by
  induction packets generalizing n b with
  | nil => exact (List.append_nil _).symm
  | cons packet packets ih =>
    obtain ⟨hkey, hkeys⟩ := List.forall_mem_cons.mp hkeys
    have hnext := ih (hb.packet h.2.1 packet.payload) h.2.2.2 hkeys
    rw [List.map_cons, List.map_cons]
    refine hnext.trans ?_
    rw [observe_packet_of_follows hb.intact (Or.inr hkey) (h.2.1 ▸ hb.follows), List.append_assoc]
    rfl

theorem delivered_packets {b : RecordingStreamBuffer} {episodeIndex : UInt32} {n : UInt64}
    (hb : Awaits n b) (h : Numbered episodeIndex n packets eos.sequenceNumber)
    (heos : eos.kind = .endOfStream)
    (hkeys : ∀ packet ∈ packets, packet.header.isKeyframe = true) :
    (observeAll b (deliveries packets eos)).packets =
      b.packets ++ packets.map fun p => ⟨p.header, p.payload⟩ := by
  have hawaits := hb.numbered h
  rw [deliveries_eq h heos, observeAll_concat,
    observe_eos_of_follows hawaits.intact hawaits.follows]
  exact observeAll_keyframes hb h hkeys

end Sessions

/-- A recording of depth frames is never written, as its packets come without the preamble. With
the preamble it is read back, and what is left of it at most lacks the frames that were cut off. -/
theorem rvl_preamble_missing {codecs : Codecs} {sink : EncodedPacketSink}
    {params : CodecSessionParams} {first : OwnedFrame} {s : RvlCodecSession}
    {frames : List OwnedFrame} {packets : List EncodedPacket} {eos : EncodedPacketHeader}
    {decoder : DepthDecoder} (target : String) (hopen : RvlCodecSession.new params first = .ok s)
    (hrecord : CodecSession.record codecs sink (.rvl s) frames = .ok (packets, eos))
    (hcodec : Intra codecs.depth decoder
      (first.header.width.toNat * first.header.height.toNat)) :
    ¬ RoundTrips decoder target (observeAll {} (deliveries packets eos)) first.header.width
        first.header.height packets ∧
      ∀ config fps, config.extradata = preamble first.header.width first.header.height fps →
        (∀ packet ∈ packets, packet.payload.length < 2 ^ 32) →
        RoundTrips decoder target
          (observeAll { config := some config } (deliveries packets eos)) first.header.width
          first.header.height packets := by
  constructor
  · rintro ⟨file, hfile, -⟩
    have hnone : (observeAll {} (deliveries packets eos)).config = none := observeAll_config ..
    have hreliable := hfile .reliable
    rw [rvlFrameWriteStream, hnone] at hreliable
    cases hreliable
  · intro config fps hextradata hfits
    have hsession : s.nextSequence = 0 := by
      simp only [RvlCodecSession.new, check_eq_ok, pure_eq_ok] at hopen
      obtain ⟨-, rfl⟩ := hopen
      rfl
    obtain ⟨hnumbered, heos, -⟩ := record_numbered hrecord trivial
    rw [nextOf, hsession] at hnumbered
    have hpackets := rvl_record_packets hcodec hrecord
    have hawaits : Awaits 0 { config := some config } :=
      ⟨rfl, fun _ => rfl, fun last hlast => absurd hlast (Option.not_mem_none last)⟩
    refine ⟨preamble first.header.width first.header.height fps ++
      (packets.map (·.payload)).flatten, ?_, ?_⟩
    · intro io
      rw [rvlFrameWriteStream, observeAll_config,
        delivered_packets hawaits hnumbered heos fun packet hp => (hpackets packet hp).1]
      dsimp only
      rw [hextradata, List.nil_append, List.flatMap_map, List.flatMap_def]
    · have hrecords : ∀ record ∈ packets.map (·.payload), IsRecord decoder
          (first.header.width.toNat * first.header.height.toNat) record := by
        intro record hmem
        obtain ⟨packet, hpacket, rfl⟩ := List.mem_map.mp hmem
        exact (hpackets packet hpacket).2 (hfits packet hpacket)
      have haccepted := accepted_of_records _ _ fps hrecords
      rwa [List.map_map] at haccepted

def emptyDepth : DepthEncoder := fun _ pixels =>
  if pixels = [0, 0, 0, 0] then .ok (.key, [0, 0, 0, 0x40]) else .error "unexpected pixels"

def emptyDepthBack : DepthDecoder := fun _ _ payload =>
  if payload = [0, 0, 0, 0x40] then .ok [0, 0, 0, 0] else .error "unexpected payload"

theorem emptyDepth_intra (frameLen : ℕ) : Intra emptyDepth emptyDepthBack frameLen := by
  intro n pixels kind payload h m
  unfold emptyDepth at h
  split at h
  · next hpixels =>
    cases h
    rw [hpixels]
    rfl
  · cases h

def emptyDepthFrame (timestampUs : UInt64) : OwnedFrame :=
  ⟨{ timestampUs := timestampUs, width := 2, height := 2, pixelFormat := .depth16 },
    List.replicate 8 0⟩

def depthCodecs : Codecs := { delayedCodecs with depth := emptyDepth }

theorem depth_session_records : ∃ s packets eos,
    RvlCodecSession.new sampleParams (emptyDepthFrame 1000) = .ok s ∧
      CodecSession.record depthCodecs acceptAll (.rvl s)
        [emptyDepthFrame 1000, emptyDepthFrame 2000] = .ok (packets, eos) ∧
      (packets.map fun p => p.payload.length) = [24, 24] :=
  ⟨_, _, _, rfl, rfl, rfl⟩

theorem depth_recording_read_back : ∃ s packets eos,
    RvlCodecSession.new sampleParams (emptyDepthFrame 1000) = .ok s ∧
      CodecSession.record depthCodecs acceptAll (.rvl s)
        [emptyDepthFrame 1000, emptyDepthFrame 2000] = .ok (packets, eos) ∧
      ¬ RoundTrips emptyDepthBack "depth.rvl" (observeAll {} (deliveries packets eos)) 2 2
        packets ∧
      ∀ config, config.extradata = preamble 2 2 30 →
        RoundTrips emptyDepthBack "depth.rvl"
          (observeAll { config := some config } (deliveries packets eos)) 2 2 packets := by
  obtain ⟨s, packets, eos, hopen, hrecord, hsizes⟩ := depth_session_records
  obtain ⟨hmissing, hback⟩ :=
    rvl_preamble_missing "depth.rvl" hopen hrecord (emptyDepth_intra (2 * 2))
  refine ⟨s, packets, eos, hopen, hrecord, hmissing, fun config hconfig => ?_⟩
  refine hback config 30 hconfig fun packet hpacket => ?_
  have hsize : packet.payload.length ∈ [24, 24] := hsizes ▸ List.mem_map_of_mem hpacket
  simp only [List.mem_cons, List.not_mem_nil, or_false, or_self] at hsize
  omega

/-- The muxer refuses two frames that have arrived whole. -/
theorem depth_recording_not_written : ∃ s packets eos,
    RvlCodecSession.new sampleParams (emptyDepthFrame 1000) = .ok s ∧
      CodecSession.record depthCodecs acceptAll (.rvl s)
        [emptyDepthFrame 1000, emptyDepthFrame 2000] = .ok (packets, eos) ∧
      Intra depthCodecs.depth emptyDepthBack (2 * 2) ∧
      (observeAll {} (deliveries packets eos)).isComplete = true ∧
      ¬ RoundTrips emptyDepthBack "depth.rvl" (observeAll {} (deliveries packets eos)) 2 2
        packets := by
  have hrun : ∃ s r,
      RvlCodecSession.new sampleParams (emptyDepthFrame 1000) = .ok s ∧
        CodecSession.record depthCodecs acceptAll (.rvl s)
          [emptyDepthFrame 1000, emptyDepthFrame 2000] = .ok r ∧
        (observeAll {} (deliveries r.1 r.2)).isComplete = true ∧
        rvlFrameWriteStream .reliable "depth.rvl" (observeAll {} (deliveries r.1 r.2)) =
          .error (.message "RVL stream missing Config packet") :=
    ⟨_, _, rfl, rfl, by decide +kernel, by rfl⟩
  obtain ⟨s, ⟨packets, eos⟩, hopen, hrecord, hcomplete, hrefused⟩ := hrun
  refine ⟨s, packets, eos, hopen, hrecord, emptyDepth_intra (2 * 2), hcomplete, ?_⟩
  rintro ⟨file, hfile, -⟩
  have hreliable := hfile .reliable
  rw [hrefused] at hreliable
  cases hreliable

end RvlArtifacts
