import Rollio.Leb128

/-! The walk over the OBUs of an AV1 temporal unit to its sequence header. -/
namespace Av1Headers
open Leb128

inductive Ending where
  | returned (header : Option (List UInt8))
  | panicked
  deriving DecidableEq, Repr

/-- The bytes of a slice, which must lie within the input. -/
def sliceOf (bytes : List UInt8) (start stop : ℕ) : Except Ending (List UInt8) :=
  if start ≤ stop ∧ stop ≤ bytes.length then .ok ((bytes.take stop).drop start)
  else .error .panicked

/-- The number in front of some bytes, and how many of them it takes. -/
def readLeb128From : ℕ → UInt64 → ℕ → ℕ → List UInt8 → Option (UInt64 × ℕ)
  | 0, _, _, _, _ => none
  | _ + 1, _, _, _, [] => none
  | left + 1, value, shift, idx, byte :: rest =>
    let value := value ||| ((byte &&& 0x7F).toUInt64 <<< UInt64.ofNat shift)
    if byte &&& 0x80 = 0 then some (value, idx + 1)
    else readLeb128From left value (shift + 7) (idx + 1) rest

def readLeb128 (bytes : List UInt8) : Option (UInt64 × ℕ) :=
  readLeb128From 8 0 0 0 bytes

def obuType (header : UInt8) : UInt8 := (header >>> 3) &&& 0x0F

def hasExtension (header : UInt8) : Bool := (header >>> 2) &&& 0x01 != 0

def hasSize (header : UInt8) : Bool := (header >>> 1) &&& 0x01 != 0

def skipExtension (bytes : List UInt8) (header : UInt8) (i : ℕ) : Except Ending ℕ :=
  if hasExtension header then
    if bytes.length ≤ i then .error (.returned none) else .ok (i + 1)
  else .ok i

/-- Where the payload begins, and its length: the rest of the unit if no length is given. -/
def payloadAt (bytes : List UInt8) (header : UInt8) (i : ℕ) : Except Ending (ℕ × ℕ) :=
  if hasSize header then do
    let tail ← sliceOf bytes i bytes.length
    match readLeb128 tail with
    | none => .error (.returned none)
    | some (len, consumed) => .ok (i + consumed, len.toNat)
  else if bytes.length < i then .error .panicked
  else .ok (i, bytes.length - i)

def finishObu (bytes : List UInt8) (header : UInt8) (i payloadLen : ℕ) : Except Ending ℕ :=
  let payloadEnd := i + payloadLen
  if 2 ^ 64 ≤ payloadEnd then .error (.returned none)
  else if bytes.length < payloadEnd then .error (.returned none)
  else if obuType header = 1 then do
    let payload ← sliceOf bytes i payloadEnd
    .error (.returned (some payload))
  else .ok payloadEnd

def obuAt (bytes : List UInt8) (i : ℕ) : Except Ending ℕ := do
  let header ← (bytes[i]?).elim (.error .panicked) .ok
  let i ← skipExtension bytes header (i + 1)
  let (i, payloadLen) ← payloadAt bytes header i
  finishObu bytes header i payloadLen

/-- The loop; it is not finished if it takes more turns than the given ones. -/
def walk (bytes : List UInt8) : ℕ → ℕ → Option Ending
  | 0, _ => none
  | turns + 1, i =>
    if i < bytes.length then
      match obuAt bytes i with
      | .error ending => some ending
      | .ok next => walk bytes turns next
    else some (.returned none)

/-- Each turn takes a byte at least, so there is never a turn too many. -/
def extractAv1SequenceHeader (temporalUnit : List UInt8) : Option Ending :=
  walk temporalUnit (temporalUnit.length + 1) 0

example : extractAv1SequenceHeader [0x12, 0x00, 0x0A, 0x02, 0xde, 0xad] =
    some (.returned (some [0xde, 0xad])) := by decide +kernel

structure Obu where
  obuType : Fin 16
  extension : Option UInt8
  payload : List UInt8
  deriving DecidableEq, Repr

def Obu.header (obu : Obu) (sized : Bool) : UInt8 :=
  UInt8.ofNat (obu.obuType * 8 + (if obu.extension.isSome then 4 else 0) + if sized then 2 else 0)

inductive Serialized : List Obu → List UInt8 → Prop where
  | nil : Serialized [] []
  | unsized (obu : Obu) :
    Serialized [obu] (obu.header false :: (obu.extension.toList ++ obu.payload))
  | sized (obu : Obu) {obus : List Obu} {size rest : List UInt8}
    (hsize : Encodes size obu.payload.length) (hlength : size.length ≤ 8)
    (hrest : Serialized obus rest) :
    Serialized (obu :: obus)
      (obu.header true :: (obu.extension.toList ++ (size ++ (obu.payload ++ rest))))

def firstSequenceHeader (obus : List Obu) : Option (List UInt8) :=
  (obus.find? fun obu => obu.obuType = 1).map Obu.payload

variable {α β : Type} {bytes : List UInt8} {header : UInt8} {i n : ℕ}

def Advances (bytes : List UInt8) (i : ℕ) (pos : α → ℕ) (stage : Except Ending α) : Prop :=
  (∃ header, stage = .error (.returned header)) ∨
    ∃ a, stage = .ok a ∧ i ≤ pos a ∧ pos a ≤ bytes.length

theorem Advances.bind {pos : α → ℕ} {pos' : β → ℕ} {stage : Except Ending α}
    {next : α → Except Ending β} (h : Advances bytes i pos stage)
    (hnext : ∀ a, i ≤ pos a → pos a ≤ bytes.length → Advances bytes (pos a) pos' (next a)) :
    Advances bytes i pos' (stage >>= next) := by
  obtain ⟨header, rfl⟩ | ⟨a, rfl, hlow, hhigh⟩ := h
  · exact .inl ⟨header, rfl⟩
  · obtain ⟨header, heq⟩ | ⟨b, heq, hlow', hhigh'⟩ := hnext a hlow hhigh
    · exact .inl ⟨header, heq⟩
    · exact .inr ⟨b, heq, Nat.le_trans hlow hlow', hhigh'⟩

theorem sliceOf_ok {start stop : ℕ} (h : start ≤ stop) (hstop : stop ≤ bytes.length) :
    sliceOf bytes start stop = .ok ((bytes.take stop).drop start) :=
  if_pos ⟨h, hstop⟩

theorem sliceOf_rest (h : i ≤ bytes.length) : sliceOf bytes i bytes.length = .ok (bytes.drop i) := by
  rw [sliceOf_ok h (Nat.le_refl _), List.take_length]

theorem readLeb128From_consumed {left shift idx consumed : ℕ} {value len : UInt64}
    (h : readLeb128From left value shift idx bytes = some (len, consumed)) :
    consumed ≤ idx + bytes.length := by
  fun_induction readLeb128From left value shift idx bytes with
  | case1 => cases h
  | case2 => cases h
  | case3 left value shift idx byte rest value' hlast =>
    have hconsumed : idx + 1 = consumed := congrArg Prod.snd (Option.some.inj h)
    rw [List.length_cons]
    omega
  | case4 left value shift idx byte rest value' hmore ih =>
    have hrest := ih h
    rw [List.length_cons]
    omega

theorem skipExtension_advances (h : i ≤ bytes.length) :
    Advances bytes i id (skipExtension bytes header i) := by
  simp only [skipExtension]
  split
  · split
    · exact .inl ⟨none, rfl⟩
    · exact .inr ⟨i + 1, rfl, Nat.le_succ i, by simp only [id]; omega⟩
  · exact .inr ⟨i, rfl, Nat.le_refl i, h⟩

theorem payloadAt_sized (hsize : hasSize header = true) (h : i ≤ bytes.length) :
    payloadAt bytes header i = (readLeb128 (bytes.drop i)).elim (.error (.returned none))
      fun read => .ok (i + read.2, read.1.toNat) := by
  rw [payloadAt, if_pos hsize, sliceOf_rest h]
  cases hread : readLeb128 (bytes.drop i) with
  | none => simp [hread, Bind.bind, Except.bind]
  | some read => simp [hread, Bind.bind, Except.bind]

theorem payloadAt_unsized (hsize : hasSize header = false) (h : i ≤ bytes.length) :
    payloadAt bytes header i = .ok (i, bytes.length - i) := by
  rw [payloadAt, hsize, if_neg Bool.false_ne_true, if_neg (Nat.not_lt.mpr h)]

theorem payloadAt_advances (h : i ≤ bytes.length) :
    Advances bytes i Prod.fst (payloadAt bytes header i) := by
  cases hsize : hasSize header with
  | true =>
    rw [payloadAt_sized hsize h]
    cases hread : readLeb128 (bytes.drop i) with
    | none => exact .inl ⟨none, rfl⟩
    | some read =>
      have hconsumed := readLeb128From_consumed hread
      rw [List.length_drop] at hconsumed
      exact .inr ⟨_, rfl, Nat.le_add_right .., by simp only; omega⟩
  | false =>
    rw [payloadAt_unsized hsize h]
    exact .inr ⟨_, rfl, Nat.le_refl i, h⟩

theorem finishObu_advances (bytes : List UInt8) (header : UInt8) (i n : ℕ) :
    Advances bytes i id (finishObu bytes header i n) := by
  simp only [finishObu]
  by_cases hover : 2 ^ 64 ≤ i + n
  · exact .inl ⟨none, if_pos hover⟩
  · by_cases hlong : bytes.length < i + n
    · exact .inl ⟨none, by rw [if_neg hover, if_pos hlong]⟩
    · rw [if_neg hover, if_neg hlong, sliceOf_ok (Nat.le_add_right i n) (Nat.not_lt.mp hlong)]
      split
      · exact .inl ⟨_, rfl⟩
      · exact .inr ⟨_, rfl, Nat.le_add_right i n, Nat.not_lt.mp hlong⟩

theorem obuAt_advances (h : i < bytes.length) : Advances bytes (i + 1) id (obuAt bytes i) := by
  have hheader : bytes[i]? = some bytes[i] := List.getElem?_eq_getElem h
  rw [obuAt, hheader]
  exact (skipExtension_advances h).bind fun _ _ hskipped =>
    (payloadAt_advances hskipped).bind fun _ _ _ => finishObu_advances _ _ _ _

theorem walk_returns {turns : ℕ} (hi : i ≤ bytes.length) (h : bytes.length < i + turns) :
    ∃ header, walk bytes turns i = some (.returned header) := by
  induction turns generalizing i with
  | zero => omega
  | succ turns ih =>
    rw [walk]
    split
    · next hlt =>
      obtain ⟨header, heq⟩ | ⟨next, heq, hlow, hhigh⟩ := obuAt_advances hlt
      · exact ⟨header, by rw [heq]⟩
      · rw [heq]
        exact ih hhigh (by simp only [id] at hlow; omega)
    · exact ⟨none, rfl⟩

theorem readLeb128From_encoded {size : List UInt8} (h : Encodes size n) {left shift : ℕ}
    {value : UInt64} (hleft : size.length ≤ left) (hshift : shift + 7 * left = 56)
    (hvalue : value.toNat < 2 ^ shift) (idx : ℕ) (rest : List UInt8) :
    ∃ len, readLeb128From left value shift idx (size ++ rest) = some (len, idx + size.length) ∧
      len.toNat = value.toNat + n * 2 ^ shift := by
  induction h generalizing left shift value idx with
  | @last byte hbyte =>
    match left with
    | left + 1 =>
      refine ⟨_, if_pos ((and_top_eq_zero_iff byte).mpr hbyte), ?_⟩
      have hsmall : byte.toNat < 128 := UInt8.lt_iff_toNat_lt.mp hbyte
      rw [toNat_or_group (by omega) hvalue, Nat.mod_eq_of_lt hsmall]
  | @more byte size n hbyte hrest ih =>
    match left with
    | left + 1 =>
      have htop : 128 ≤ byte.toNat := UInt8.le_iff_toNat_le.mp hbyte
      have hlt : byte.toNat < 256 := byte.toNat_lt
      have hgroup : byte.toNat % 128 = byte.toNat - 128 := by omega
      have hnext := toNat_or_group (by omega) hvalue byte
      rw [hgroup] at hnext
      have hpow : 2 ^ (shift + 7) = 128 * 2 ^ shift := by rw [Nat.pow_add, Nat.mul_comm]
      have hsum : (byte.toNat - 128) * 2 ^ shift ≤ 127 * 2 ^ shift :=
        Nat.mul_le_mul_right _ (by omega)
      have hbound : shift + 7 + 7 * left = 56 := by omega
      obtain ⟨len, hread, hlen⟩ := ih (Nat.le_of_succ_le_succ hleft) hbound
        (by rw [hnext, hpow]; omega) (idx + 1)
      refine ⟨len, ?_, ?_⟩
      · rw [List.cons_append, readLeb128From, if_neg, hread, List.length_cons, Nat.add_assoc,
          Nat.add_comm 1]
        rw [and_top_eq_zero_iff]
        exact UInt8.not_lt.mpr hbyte
      · rw [hlen, hnext, hpow, Nat.add_mul, Nat.add_assoc, ← Nat.mul_assoc, Nat.mul_comm n]

theorem readLeb128_encoded {size : List UInt8} (h : Encodes size n) (hlength : size.length ≤ 8)
    (rest : List UInt8) :
    ∃ len, readLeb128 (size ++ rest) = some (len, size.length) ∧ len.toNat = n := by
  have hzero : (0 : UInt64).toNat < 2 ^ 0 := by decide
  obtain ⟨len, hread, hlen⟩ := readLeb128From_encoded h hlength rfl hzero 0 rest
  refine ⟨len, ?_, ?_⟩
  · rw [readLeb128, hread, Nat.zero_add]
  · rw [hlen]
    exact (Nat.zero_add _).trans (Nat.mul_one n)

theorem header_bits (obu : Obu) (sized : Bool) :
    (Av1Headers.obuType (obu.header sized) = 1 ↔ obu.obuType = 1) ∧
      hasExtension (obu.header sized) = obu.extension.isSome ∧
      hasSize (obu.header sized) = sized := by
  have hall : ∀ (t : Fin 16) (extended sized : Bool),
      (Av1Headers.obuType
        (UInt8.ofNat (t * 8 + (if extended then 4 else 0) + if sized then 2 else 0)) = 1 ↔ t = 1) ∧
      hasExtension
        (UInt8.ofNat (t * 8 + (if extended then 4 else 0) + if sized then 2 else 0)) = extended ∧
      hasSize
        (UInt8.ofNat (t * 8 + (if extended then 4 else 0) + if sized then 2 else 0)) = sized := by
    decide +kernel
  exact hall obu.obuType obu.extension.isSome sized

theorem finishObu_encoded (front payload rest : List UInt8) (header : UInt8)
    (haddress : (front ++ (payload ++ rest)).length < 2 ^ 64) :
    finishObu (front ++ (payload ++ rest)) header front.length payload.length =
      if obuType header = 1 then .error (.returned (some payload))
      else .ok (front ++ payload).length := by
  have hstop : front.length + payload.length ≤ (front ++ (payload ++ rest)).length := by
    simp only [List.length_append]
    omega
  have hslice : sliceOf (front ++ (payload ++ rest)) front.length
      (front.length + payload.length) = .ok payload := by
    rw [sliceOf_ok (Nat.le_add_right ..) hstop, List.take_length_add_append, List.drop_left,
      List.take_left]
  rw [finishObu, if_neg (Nat.not_le.mpr (Nat.lt_of_le_of_lt hstop haddress)), if_neg (Nat.not_lt.mpr hstop),
    hslice, List.length_append]
  rfl

theorem obuAt_encoded (front : List UInt8) (obu : Obu) (sized : Bool) {size : List UInt8}
    (hsize : if sized then Encodes size obu.payload.length ∧ size.length ≤ 8 else size = [])
    (rest : List UInt8) (hrest : sized = false → rest = [])
    (bytes : List UInt8) (hbytes : bytes = front ++ obu.header sized ::
      (obu.extension.toList ++ (size ++ (obu.payload ++ rest))))
    (haddress : bytes.length < 2 ^ 64) :
    obuAt bytes front.length = if obu.obuType = 1 then .error (.returned (some obu.payload))
      else .ok (bytes.length - rest.length) := by
  obtain ⟨htype, hextension, hsized⟩ := header_bits obu sized
  have hheader : bytes[front.length]? = some (obu.header sized) := by
    rw [hbytes, List.getElem?_append_right (Nat.le_refl _), Nat.sub_self]
    rfl
  -- the bytes up to the payload
  obtain ⟨before, hbefore⟩ : ∃ before, before = front ++ obu.header sized :: obu.extension.toList :=
    ⟨_, rfl⟩
  have hsplit : bytes = before ++ (size ++ (obu.payload ++ rest)) := by
    rw [hbytes, hbefore]
    simp
  have hskip : skipExtension bytes (obu.header sized) (front.length + 1) = .ok before.length := by
    rw [skipExtension, hextension, hbytes, hbefore]
    cases hext : obu.extension with
    | none => simp
    | some byte => simp
  have hpayload : payloadAt bytes (obu.header sized) before.length =
      .ok ((before ++ size).length, obu.payload.length) := by
    have hinside : before.length ≤ bytes.length := by
      rw [hsplit, List.length_append]
      exact Nat.le_add_right ..
    cases sized with
    | true =>
      obtain ⟨len, hread, hlen⟩ := readLeb128_encoded hsize.1 hsize.2 (obu.payload ++ rest)
      rw [payloadAt_sized hsized hinside, hsplit, List.drop_left, hread, List.length_append]
      rw [Option.elim_some, hlen]
    | false =>
      cases (show size = [] from hsize)
      cases hrest rfl
      rw [payloadAt_unsized hsized hinside, hsplit]
      simp
  have hfinish := finishObu_encoded (before ++ size) obu.payload rest (obu.header sized)
  have hwhole : before ++ size ++ (obu.payload ++ rest) = bytes := by
    rw [hsplit, List.append_assoc]
  have hbehind : (before ++ size ++ obu.payload).length = bytes.length - rest.length := by
    rw [hsplit]
    simp only [List.length_append]
    omega
  rw [hwhole, hbehind] at hfinish
  rw [obuAt, hheader]
  simp only [Option.elim_some, Bind.bind, Except.bind, hskip, hpayload, hfinish haddress, htype]

theorem walk_serialized {obus : List Obu} {rest : List UInt8} (h : Serialized obus rest) :
    ∀ (front : List UInt8) (turns : ℕ), (front ++ rest).length < 2 ^ 64 → rest.length < turns →
      walk (front ++ rest) turns front.length =
        some (.returned (firstSequenceHeader obus)) := by
  induction h with
  | nil =>
    intro front turns _ hturns
    match turns with
    | turns + 1 => simp [walk, firstSequenceHeader]
  | unsized obu =>
    intro front turns haddress hturns
    match turns with
    | turns + 2 =>
      have hobu := obuAt_encoded front obu false rfl [] (fun _ => rfl) _ (by simp) haddress
      rw [walk, if_pos (by simp), hobu, firstSequenceHeader]
      by_cases htype : obu.obuType = 1
      · simp [htype]
      · simp [htype, walk]
  | @sized obu obus size rest hsize hlength hrest ih =>
    intro front turns haddress hturns
    match turns with
    | turns + 1 =>
      have hobu := obuAt_encoded front obu true ⟨hsize, hlength⟩ rest (by rintro ⟨⟩) _ rfl haddress
      rw [walk, if_pos (by simp), hobu, firstSequenceHeader]
      by_cases htype : obu.obuType = 1
      · simp [htype]
      · -- the rest of the unit, behind this OBU
        have hsplit : front ++ obu.header true ::
            (obu.extension.toList ++ (size ++ (obu.payload ++ rest))) =
            (front ++ obu.header true :: (obu.extension.toList ++ (size ++ obu.payload))) ++
              rest := by
          simp
        rw [hsplit] at haddress ⊢
        rw [if_neg htype, List.length_append, Nat.add_sub_cancel, List.find?_cons_of_neg (by simpa)]
        apply ih _ _ haddress
        simp only [List.length_cons, List.length_append] at hturns
        omega

/-- A walk over any bytes returns, and so stays inside of them. Over a temporal unit it returns the
payload of the first sequence header; no input is so long that its indices overflow. -/
theorem extract_av1_sequence_header (temporalUnit : List UInt8) :
    (∃ header, extractAv1SequenceHeader temporalUnit = some (.returned header)) ∧
      ∀ obus, Serialized obus temporalUnit → temporalUnit.length < 2 ^ 64 →
        extractAv1SequenceHeader temporalUnit = some (.returned (firstSequenceHeader obus)) := by
  constructor
  · exact walk_returns (Nat.zero_le _) (by omega)
  · intro obus h haddress
    exact walk_serialized h [] _ haddress (Nat.lt_succ_self _)

/-- An overlong size, an extension and a last OBU without a size. -/
theorem extract_av1_overlong :
    extractAv1SequenceHeader [0x16, 0x20, 0x80, 0x00, 0x08, 0xde, 0xad] =
      some (.returned (some [0xde, 0xad])) := by
  apply (extract_av1_sequence_header _).2 [⟨2, some 0x20, []⟩, ⟨1, none, [0xde, 0xad]⟩]
  · have hsize : Encodes [0x80, 0x00] 0 := .more (by decide) (.last (by decide))
    exact .sized ⟨2, some 0x20, []⟩ hsize (by decide) (.unsized ⟨1, none, [0xde, 0xad]⟩)
  · decide

end Av1Headers
