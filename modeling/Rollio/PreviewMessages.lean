import Mathlib.Algebra.Group.Int.Defs
import Mathlib.Algebra.Group.Nat.Defs
import Rollio.CodecSessions
import Rollio.LittleEndian
import Rollio.Outcomes

/-! The binary messages of the visualizer, as it encodes them and as its two clients, in the
browser and in the terminal, parse them. -/
namespace PreviewMessages
open CodecSessions LittleEndian

def kindJpegFrame : UInt8 := 0x01

def kindEncodedPacket : UInt8 := 0x03

def u16LeBytes (n : UInt16) : List UInt8 :=
  (List.range 2).map fun i => (n >>> UInt16.ofNat (8 * i)).toUInt8

def asBytes (name : String) : List UInt8 := name.toUTF8.data.toList

def encodeJpegFrame (name : String) (timestampUs frameIndex : UInt64) (width height : UInt32)
    (jpegData : List UInt8) : List UInt8 :=
  let nameBytes := asBytes name
  [kindJpegFrame] ++ u16LeBytes (UInt16.ofNat nameBytes.length) ++ nameBytes ++
    u64LeBytes timestampUs ++ u64LeBytes frameIndex ++ u32LeBytes width ++ u32LeBytes height ++
    jpegData

def encodePacket (name : String) (codecId flags : UInt8) (ptsUs : Int64)
    (sequence sourceTimestampUs : UInt64) (width height : UInt32) (payload : List UInt8) :
    List UInt8 :=
  let nameBytes := asBytes name
  [kindEncodedPacket] ++ u16LeBytes (UInt16.ofNat nameBytes.length) ++ nameBytes ++
    [codecId] ++ [flags] ++ u64LeBytes ptsUs.toUInt64 ++ u64LeBytes sequence ++
    u64LeBytes sourceTimestampUs ++ u32LeBytes width ++ u32LeBytes height ++
    u32LeBytes (UInt32.ofNat payload.length) ++ payload

structure CameraFrameMessage where
  name : String
  timestampNs : ℕ
  frameIndex : ℕ
  previewWidth : ℕ
  previewHeight : ℕ
  jpegData : List UInt8
  deriving DecidableEq, Repr

structure EncodedPacketMessage where
  name : String
  codecId : ℕ
  isKeyframe : Bool
  ptsUs : ℕ
  sequence : ℕ
  sourceTimestampUs : ℕ
  width : ℕ
  height : ℕ
  payload : List UInt8
  deriving DecidableEq, Repr

inductive BinaryWsMessage where
  | cameraFrame (message : CameraFrameMessage)
  | encodedPacket (message : EncodedPacketMessage)
  deriving DecidableEq, Repr

/-- `Number` of a `bigint`: the nearest number of 53 significant bits, in a tie the even one. -/
def number (n : ℕ) : ℕ :=
  if n < 2 ^ 53 then n
  else
    let unit := 2 ^ (Nat.log2 n - 52)
    let rest := n % unit
    if 2 * rest < unit ∨ (2 * rest = unit ∧ n / unit % 2 = 0) then n / unit * unit
    else (n / unit + 1) * unit

def getUint8 (data : List UInt8) (offset : ℕ) : Except String ℕ := readAt data offset 1

def getUint16 (data : List UInt8) (offset : ℕ) : Except String ℕ := readAt data offset 2

def getUint32 (data : List UInt8) (offset : ℕ) : Except String ℕ := readAt data offset 4

def getBigUint64 (data : List UInt8) (offset : ℕ) : Except String ℕ := readAt data offset 8

namespace Web
variable (decode : List UInt8 → String)

def parseJpegFrame (data : List UInt8) (name : String) (bodyStart : ℕ) :
    Except String (Option BinaryWsMessage) :=
  let headerEnd := bodyStart + 8 + 8 + 4 + 4
  if data.length < headerEnd then return none
  else do
    let timestampNs ← getBigUint64 data bodyStart
    let frameIndex ← getBigUint64 data (bodyStart + 8)
    let width ← getUint32 data (bodyStart + 16)
    let height ← getUint32 data (bodyStart + 20)
    return some (.cameraFrame
      { name
        timestampNs := number timestampNs
        frameIndex := number frameIndex
        previewWidth := width
        previewHeight := height
        jpegData := data.drop headerEnd })

def parseEncodedPacket (data : List UInt8) (name : String) (bodyStart : ℕ) :
    Except String (Option BinaryWsMessage) :=
  let headerEnd := bodyStart + 1 + 1 + 8 + 8 + 8 + 4 + 4 + 4
  if data.length < headerEnd then return none
  else do
    let codecId ← getUint8 data bodyStart
    let flags ← getUint8 data (bodyStart + 1)
    let ptsUs ← getBigUint64 data (bodyStart + 2)
    let sequence ← getBigUint64 data (bodyStart + 10)
    let sourceTimestampUs ← getBigUint64 data (bodyStart + 18)
    let width ← getUint32 data (bodyStart + 26)
    let height ← getUint32 data (bodyStart + 30)
    let payloadLen ← getUint32 data (bodyStart + 34)
    if data.length < headerEnd + payloadLen then return none
    else return some (.encodedPacket
      { name
        codecId
        isKeyframe := flags &&& 0x01 != 0
        ptsUs := number ptsUs
        sequence := number sequence
        sourceTimestampUs := number sourceTimestampUs
        width
        height
        payload := (data.drop headerEnd).take payloadLen })

/-- `decode` is the text decoder. -/
def parseBinaryMessage (data : List UInt8) : Except String (Option BinaryWsMessage) :=
  if data.length < 3 then return none
  else do
    let typeTag ← getUint8 data 0
    let nameLen ← getUint16 data 1
    if data.length < 3 + nameLen then return none
    else do
      let name := decode (← viewAt data 3 nameLen)
      if typeTag = 0x01 then parseJpegFrame data name (3 + nameLen)
      else if typeTag = 0x03 then parseEncodedPacket data name (3 + nameLen)
      else return none

end Web

namespace Terminal
variable (decode : List UInt8 → String)

/-- `subarray` cuts its bounds down to the buffer, the reads throw outside of it. -/
def parseBinaryMessage (data : List UInt8) : Except String (Option CameraFrameMessage) :=
  if data.length < 1 + 2 then return none
  else do
    let typeTag ← getUint8 data 0
    if typeTag ≠ 0x01 then return none
    else do
      let nameLen ← getUint16 data 1
      let headerStart := 3 + nameLen
      let headerEnd := headerStart + 8 + 8 + 4 + 4
      if data.length < headerEnd then return none
      else do
        let name := decode ((data.take (3 + nameLen)).drop 3)
        let timestampNs ← getBigUint64 data headerStart
        let frameIndex ← getBigUint64 data (headerStart + 8)
        let width ← getUint32 data (headerStart + 16)
        let height ← getUint32 data (headerStart + 20)
        return some
          { name
            timestampNs := number timestampNs
            frameIndex := number frameIndex
            previewWidth := width
            previewHeight := height
            jpegData := data.drop headerEnd }

end Terminal

section Fields

theorem u16LeBytes_eq (n : UInt16) : u16LeBytes n = toBytes 2 n.toNat := by
  refine map_range_eq_toBytes fun i hi => ?_
  have hshift : (UInt16.ofNat (8 * i)).toNat % 16 = 8 * i := by
    rw [UInt16.toNat_ofNat']
    omega
  rw [UInt16.toNat_toUInt8, UInt16.toNat_shiftRight, hshift, Nat.shiftRight_eq_div_pow, pow_mul]
  rfl

theorem u32LeBytes_eq (n : UInt32) : u32LeBytes n = toBytes 4 n.toNat := by
  refine map_range_eq_toBytes fun i hi => ?_
  have hshift : (UInt32.ofNat (8 * i)).toNat % 32 = 8 * i := by
    rw [UInt32.toNat_ofNat']
    omega
  rw [UInt32.toNat_toUInt8, UInt32.toNat_shiftRight, hshift, Nat.shiftRight_eq_div_pow, pow_mul]
  rfl

theorem u64LeBytes_eq (n : UInt64) : u64LeBytes n = toBytes 8 n.toNat := by
  refine map_range_eq_toBytes fun i hi => ?_
  have hshift : (UInt64.ofNat (8 * i)).toNat % 64 = 8 * i := by
    rw [UInt64.toNat_ofNat']
    omega
  rw [UInt64.toNat_toUInt8, UInt64.toNat_shiftRight, hshift, Nat.shiftRight_eq_div_pow, pow_mul]
  rfl

theorem single_eq (byte : UInt8) : [byte] = toBytes 1 byte.toNat := by
  rw [toBytes, toBytes, UInt8.ofNat_toNat]

theorem encodePacket_fields (name : String) (codecId flags : UInt8) (ptsUs : Int64)
    (sequence sourceTimestampUs : UInt64) (width height : UInt32) (payload : List UInt8) :
    encodePacket name codecId flags ptsUs sequence sourceTimestampUs width height payload =
      toBytes 1 3 ++ (toBytes 2 (UInt16.ofNat (asBytes name).length).toNat ++ (asBytes name ++
        (toBytes 1 codecId.toNat ++ (toBytes 1 flags.toNat ++
        (toBytes 8 ptsUs.toUInt64.toNat ++ (toBytes 8 sequence.toNat ++
        (toBytes 8 sourceTimestampUs.toNat ++ (toBytes 4 width.toNat ++ (toBytes 4 height.toNat ++
        (toBytes 4 (UInt32.ofNat payload.length).toNat ++ payload)))))))))) := by
  simp only [encodePacket, single_eq, u16LeBytes_eq, u32LeBytes_eq, u64LeBytes_eq,
    List.append_assoc]
  rfl

theorem encodeJpegFrame_fields (name : String) (timestampUs frameIndex : UInt64)
    (width height : UInt32) (jpegData : List UInt8) :
    encodeJpegFrame name timestampUs frameIndex width height jpegData =
      toBytes 1 1 ++ (toBytes 2 (UInt16.ofNat (asBytes name).length).toNat ++ (asBytes name ++
        (toBytes 8 timestampUs.toNat ++ (toBytes 8 frameIndex.toNat ++ (toBytes 4 width.toNat ++
        (toBytes 4 height.toNat ++ jpegData)))))) := by
  simp only [encodeJpegFrame, single_eq, u16LeBytes_eq, u32LeBytes_eq, u64LeBytes_eq,
    List.append_assoc]
  rfl

end Fields

section RoundTrip
open Outcomes

variable {name : String} {decode : List UInt8 → String}

theorem number_of_lt {n : ℕ} (h : n < 2 ^ 53) : number n = n := if_pos h

structure Headed (data : List UInt8) (tag : ℕ) (name : String) (body : List UInt8) : Prop where
  tag : getUint8 data 0 = .ok tag
  nameLen : getUint16 data 1 = .ok (asBytes name).length
  nameBytes : viewAt data 3 (asBytes name).length = .ok (asBytes name)
  body : GoesOn data (3 + (asBytes name).length) body

theorem headed_of_fields {data body : List UInt8} {tag : ℕ} (htag : tag < 256)
    (hname : (asBytes name).length < 65536)
    (hdata : data = toBytes 1 tag ++ (toBytes 2 (UInt16.ofNat (asBytes name).length).toNat ++
      (asBytes name ++ body))) : Headed data tag name body := by
  have hlen : (UInt16.ofNat (asBytes name).length).toNat = (asBytes name).length := by
    rw [UInt16.toNat_ofNat']
    exact Nat.mod_eq_of_lt hname
  rw [hlen] at hdata
  have h : GoesOn data 0 (toBytes 1 tag ++ (toBytes 2 (asBytes name).length ++
    (asBytes name ++ body))) := ⟨Nat.zero_le _, hdata⟩
  obtain ⟨htag, h⟩ := h.read htag
  obtain ⟨hlen, h⟩ := h.read hname
  obtain ⟨hview, h⟩ := h.view
  exact ⟨htag, hlen, hview, h⟩

theorem Headed.length {data body : List UInt8} {tag : ℕ} (h : Headed data tag name body) :
    data.length = 3 + (asBytes name).length + body.length := h.body.length

theorem web_parse_eq {data body : List UInt8} {tag : ℕ} (h : Headed data tag name body)
    {r : Option BinaryWsMessage}
    (hr : (if tag = 0x01 then
        Web.parseJpegFrame data (decode (asBytes name)) (3 + (asBytes name).length)
      else if tag = 0x03 then
        Web.parseEncodedPacket data (decode (asBytes name)) (3 + (asBytes name).length)
      else return none) = .ok r) : Web.parseBinaryMessage decode data = .ok r := by
  have hlen := h.length
  rw [Web.parseBinaryMessage, if_neg (by omega)]
  refine bind_eq_ok.mpr ⟨tag, h.tag, bind_eq_ok.mpr ⟨_, h.nameLen, ?_⟩⟩
  rw [if_neg (by omega)]
  exact bind_eq_ok.mpr ⟨_, h.nameBytes, hr⟩

structure PacketBody (data : List UInt8)
    (bodyStart codecId flags ptsUs sequence sourceTimestampUs width height : ℕ)
    (payload : List UInt8) : Prop where
  codecId : getUint8 data bodyStart = .ok codecId
  flags : getUint8 data (bodyStart + 1) = .ok flags
  ptsUs : getBigUint64 data (bodyStart + 2) = .ok ptsUs
  sequence : getBigUint64 data (bodyStart + 10) = .ok sequence
  sourceTimestampUs : getBigUint64 data (bodyStart + 18) = .ok sourceTimestampUs
  width : getUint32 data (bodyStart + 26) = .ok width
  height : getUint32 data (bodyStart + 30) = .ok height
  payloadLen : getUint32 data (bodyStart + 34) = .ok payload.length
  payload : GoesOn data (bodyStart + 1 + 1 + 8 + 8 + 8 + 4 + 4 + 4) payload

theorem packetBody_of_fields {data payload : List UInt8}
    {bodyStart codecId flags ptsUs sequence sourceTimestampUs width height : ℕ}
    (hcodec : codecId < 256) (hflags : flags < 256) (hpts : ptsUs < 2 ^ 53)
    (hseq : sequence < 2 ^ 53) (hsource : sourceTimestampUs < 2 ^ 53) (hwidth : width < 2 ^ 32)
    (hheight : height < 2 ^ 32) (hlen : payload.length < 2 ^ 32)
    (h : GoesOn data bodyStart (toBytes 1 codecId ++ (toBytes 1 flags ++ (toBytes 8 ptsUs ++
      (toBytes 8 sequence ++ (toBytes 8 sourceTimestampUs ++ (toBytes 4 width ++
      (toBytes 4 height ++ (toBytes 4 payload.length ++ payload))))))))) :
    PacketBody data bodyStart codecId flags ptsUs sequence sourceTimestampUs width height
      payload := by
  obtain ⟨h₁, h⟩ := h.read hcodec
  obtain ⟨h₂, h⟩ := h.read hflags
  obtain ⟨h₃, h⟩ := h.read (hpts.trans (by decide))
  obtain ⟨h₄, h⟩ := h.read (hseq.trans (by decide))
  obtain ⟨h₅, h⟩ := h.read (hsource.trans (by decide))
  obtain ⟨h₆, h⟩ := h.read hwidth
  obtain ⟨h₇, h⟩ := h.read hheight
  obtain ⟨h₈, h⟩ := h.read hlen
  exact ⟨h₁, h₂, h₃, h₄, h₅, h₆, h₇, h₈, h⟩

theorem parseEncodedPacket_eq {data payload : List UInt8} {name : String} {bodyStart : ℕ}
    {codecId flags ptsUs sequence sourceTimestampUs width height : ℕ} (hpts : ptsUs < 2 ^ 53)
    (hseq : sequence < 2 ^ 53) (hsource : sourceTimestampUs < 2 ^ 53)
    (h : PacketBody data bodyStart codecId flags ptsUs sequence sourceTimestampUs width height
      payload) :
    Web.parseEncodedPacket data name bodyStart = .ok (some (.encodedPacket
      { name, codecId, isKeyframe := flags &&& 0x01 != 0, ptsUs, sequence, sourceTimestampUs,
        width, height, payload })) := by
  have hdata := h.payload.length
  have hpayload : (data.drop (bodyStart + 1 + 1 + 8 + 8 + 8 + 4 + 4 + 4)).take payload.length =
      payload := by
    rw [h.payload.drop, List.take_length]
  rw [Web.parseEncodedPacket, if_neg (by omega)]
  refine bind_eq_ok.mpr ⟨_, h.codecId, bind_eq_ok.mpr ⟨_, h.flags, bind_eq_ok.mpr ⟨_, h.ptsUs,
    bind_eq_ok.mpr ⟨_, h.sequence, bind_eq_ok.mpr ⟨_, h.sourceTimestampUs,
    bind_eq_ok.mpr ⟨_, h.width, bind_eq_ok.mpr ⟨_, h.height,
    bind_eq_ok.mpr ⟨_, h.payloadLen, ?_⟩⟩⟩⟩⟩⟩⟩⟩
  rw [if_neg (by omega), hpayload, number_of_lt hpts, number_of_lt hseq, number_of_lt hsource]
  rfl

structure JpegBody (data : List UInt8) (bodyStart timestampUs frameIndex width height : ℕ)
    (jpegData : List UInt8) : Prop where
  timestampUs : getBigUint64 data bodyStart = .ok timestampUs
  frameIndex : getBigUint64 data (bodyStart + 8) = .ok frameIndex
  width : getUint32 data (bodyStart + 16) = .ok width
  height : getUint32 data (bodyStart + 20) = .ok height
  jpegData : GoesOn data (bodyStart + 8 + 8 + 4 + 4) jpegData

theorem jpegBody_of_fields {data jpegData : List UInt8}
    {bodyStart timestampUs frameIndex width height : ℕ} (hts : timestampUs < 2 ^ 53)
    (hindex : frameIndex < 2 ^ 53) (hwidth : width < 2 ^ 32) (hheight : height < 2 ^ 32)
    (h : GoesOn data bodyStart (toBytes 8 timestampUs ++ (toBytes 8 frameIndex ++
      (toBytes 4 width ++ (toBytes 4 height ++ jpegData))))) :
    JpegBody data bodyStart timestampUs frameIndex width height jpegData := by
  obtain ⟨h₁, h⟩ := h.read (hts.trans (by decide))
  obtain ⟨h₂, h⟩ := h.read (hindex.trans (by decide))
  obtain ⟨h₃, h⟩ := h.read hwidth
  obtain ⟨h₄, h⟩ := h.read hheight
  exact ⟨h₁, h₂, h₃, h₄, h⟩

theorem parseJpegFrame_eq {data jpegData : List UInt8} {name : String}
    {bodyStart timestampUs frameIndex width height : ℕ} (hts : timestampUs < 2 ^ 53)
    (hindex : frameIndex < 2 ^ 53)
    (h : JpegBody data bodyStart timestampUs frameIndex width height jpegData) :
    Web.parseJpegFrame data name bodyStart = .ok (some (.cameraFrame
      { name, timestampNs := timestampUs, frameIndex, previewWidth := width
        previewHeight := height, jpegData })) := by
  have hdata := h.jpegData.length
  rw [Web.parseJpegFrame, if_neg (by omega)]
  refine bind_eq_ok.mpr ⟨_, h.timestampUs, bind_eq_ok.mpr ⟨_, h.frameIndex,
    bind_eq_ok.mpr ⟨_, h.width, bind_eq_ok.mpr ⟨_, h.height, ?_⟩⟩⟩⟩
  rw [h.jpegData.drop, number_of_lt hts, number_of_lt hindex]
  rfl

theorem terminal_parse_eq {data jpegData : List UInt8}
    {timestampUs frameIndex width height : ℕ} (hts : timestampUs < 2 ^ 53)
    (hindex : frameIndex < 2 ^ 53) {body : List UInt8} (hh : Headed data 0x01 name body)
    (h : JpegBody data (3 + (asBytes name).length) timestampUs frameIndex width height jpegData) :
    Terminal.parseBinaryMessage decode data = .ok (some
      { name := decode (asBytes name), timestampNs := timestampUs, frameIndex
        previewWidth := width, previewHeight := height, jpegData }) := by
  have hdata := h.jpegData.length
  have hname : (data.take (3 + (asBytes name).length)).drop 3 = asBytes name := by
    have hview := hh.nameBytes
    rw [viewAt, if_pos (by omega)] at hview
    rw [List.drop_take, Nat.add_sub_cancel_left]
    exact Except.ok.inj hview
  rw [Terminal.parseBinaryMessage, if_neg (by omega)]
  refine bind_eq_ok.mpr ⟨_, hh.tag, ?_⟩
  rw [if_neg (by decide)]
  refine bind_eq_ok.mpr ⟨_, hh.nameLen, ?_⟩
  rw [if_neg (by omega), hname]
  refine bind_eq_ok.mpr ⟨_, h.timestampUs, bind_eq_ok.mpr ⟨_, h.frameIndex,
    bind_eq_ok.mpr ⟨_, h.width, bind_eq_ok.mpr ⟨_, h.height, ?_⟩⟩⟩⟩
  rw [h.jpegData.drop, number_of_lt hts, number_of_lt hindex]
  rfl

/-- A packet that is cut off behind its header lacks a part of its payload. -/
theorem parseEncodedPacket_short {data : List UInt8} {bodyStart payloadLen : ℕ}
    (hread : bodyStart + 38 ≤ data.length → getUint32 data (bodyStart + 34) = .ok payloadLen)
    (hlen : data.length < bodyStart + 38 + payloadLen) :
    Web.parseEncodedPacket data name bodyStart = .ok none := by
  by_cases hhead : data.length < bodyStart + 38
  · exact if_pos hhead
  · have hwithin := Nat.not_lt.mp hhead
    rw [Web.parseEncodedPacket, if_neg hhead]
    have hreads : ∀ offset size, offset + size ≤ bodyStart + 38 →
        ∃ n, readAt data offset size = .ok n := fun offset size h =>
      exists_readAt (h.trans hwithin)
    obtain ⟨_, h₁⟩ := hreads bodyStart 1 (by omega)
    obtain ⟨_, h₂⟩ := hreads (bodyStart + 1) 1 (by omega)
    obtain ⟨_, h₃⟩ := hreads (bodyStart + 2) 8 (by omega)
    obtain ⟨_, h₄⟩ := hreads (bodyStart + 10) 8 (by omega)
    obtain ⟨_, h₅⟩ := hreads (bodyStart + 18) 8 (by omega)
    obtain ⟨_, h₆⟩ := hreads (bodyStart + 26) 4 (by omega)
    obtain ⟨_, h₇⟩ := hreads (bodyStart + 30) 4 (by omega)
    refine bind_eq_ok.mpr ⟨_, h₁, bind_eq_ok.mpr ⟨_, h₂, bind_eq_ok.mpr ⟨_, h₃,
      bind_eq_ok.mpr ⟨_, h₄, bind_eq_ok.mpr ⟨_, h₅, bind_eq_ok.mpr ⟨_, h₆,
      bind_eq_ok.mpr ⟨_, h₇, bind_eq_ok.mpr ⟨_, hread hwithin, if_pos hlen⟩⟩⟩⟩⟩⟩⟩⟩

theorem web_parse_take {data body payload : List UInt8}
    {codecId flags ptsUs sequence sourceTimestampUs width height : ℕ}
    (hh : Headed data 0x03 name body)
    (h : PacketBody data (3 + (asBytes name).length) codecId flags ptsUs sequence
      sourceTimestampUs width height payload) {len : ℕ} (hl : len < data.length) :
    Web.parseBinaryMessage decode (data.take len) = .ok none := by
  have hle := Nat.le_of_lt hl
  have hdata := h.payload.length
  have htake : (data.take len).length = len := List.length_take_of_le hle
  by_cases h3 : len < 3
  · rw [Web.parseBinaryMessage, htake, if_pos h3]
    rfl
  · have htag : getUint8 (data.take len) 0 = .ok 0x03 := (readAt_take hle (by omega)).trans hh.tag
    have hname : getUint16 (data.take len) 1 = .ok (asBytes name).length :=
      (readAt_take hle (by omega)).trans hh.nameLen
    rw [Web.parseBinaryMessage, htake, if_neg h3]
    refine bind_eq_ok.mpr ⟨_, htag, bind_eq_ok.mpr ⟨_, hname, ?_⟩⟩
    by_cases hn : len < 3 + (asBytes name).length
    · rw [if_pos hn]
      rfl
    · have hview : viewAt (data.take len) 3 (asBytes name).length = .ok (asBytes name) :=
        (viewAt_take hle (by omega)).trans hh.nameBytes
      rw [if_neg hn]
      refine bind_eq_ok.mpr ⟨_, hview, ?_⟩
      rw [if_neg (by decide), if_pos rfl]
      have hread : 3 + (asBytes name).length + 38 ≤ (data.take len).length →
          getUint32 (data.take len) (3 + (asBytes name).length + 34) = .ok payload.length := by
        intro hwithin
        rw [htake] at hwithin
        exact (readAt_take hle (by omega)).trans h.payloadLen
      exact parseEncodedPacket_short hread (by omega)

end RoundTrip

/-- U+FEFF. -/
def byteOrderMark : Char := Char.ofNat 0xFEFF

/-- What a text decoder does with the bytes of a text. The one of the browser drops a byte-order
mark at the front. -/
structure DecodesExactly (decodeWeb decodeTerminal : List UInt8 → String) : Prop where
  web : ∀ name : String, name.toList.head? ≠ some byteOrderMark → decodeWeb (asBytes name) = name
  terminal : ∀ name : String, decodeTerminal (asBytes name) = name

theorem toNat_ptsUs {ptsUs : Int64} (h : 0 ≤ ptsUs) : ptsUs.toUInt64.toNat = ptsUs.toInt.toNat := by
  have hpos : 0 ≤ ptsUs.toInt := Int64.le_iff_toInt_le.mp h
  have hbits : ptsUs.toInt = ptsUs.toBitVec.toInt := rfl
  have hnat : ptsUs.toUInt64.toNat = ptsUs.toBitVec.toNat := rfl
  have hcond := BitVec.toInt_eq_toNat_cond ptsUs.toBitVec
  have hlt := ptsUs.toBitVec.isLt
  split_ifs at hcond with hc
  · omega
  · omega

theorem keyframe_bit (flags : ℕ) : (flags &&& 0x01 != 0) = flags.testBit 0 := by
  rw [Nat.and_comm]
  rfl

/-- The clients read exactly what the visualizer has encoded, and no strict prefix of a packet. -/
theorem messages_round_trip {decodeWeb decodeTerminal : List UInt8 → String}
    (hdecode : DecodesExactly decodeWeb decodeTerminal) {name : String}
    (hname : (asBytes name).length < 65536) (hmark : name.toList.head? ≠ some byteOrderMark) :
    (∀ (codecId flags : UInt8) (ptsUs : Int64) (sequence sourceTimestampUs : UInt64)
      (width height : UInt32) (payload : List UInt8), 0 ≤ ptsUs → ptsUs.toInt < 2 ^ 53 →
      sequence.toNat < 2 ^ 53 → sourceTimestampUs.toNat < 2 ^ 53 → payload.length < 2 ^ 32 →
      Web.parseBinaryMessage decodeWeb (encodePacket name codecId flags ptsUs sequence
          sourceTimestampUs width height payload) =
        .ok (some (.encodedPacket
          { name
            codecId := codecId.toNat
            isKeyframe := flags.toNat.testBit 0
            ptsUs := ptsUs.toInt.toNat
            sequence := sequence.toNat
            sourceTimestampUs := sourceTimestampUs.toNat
            width := width.toNat
            height := height.toNat
            payload })) ∧
      ∀ data, data <+: encodePacket name codecId flags ptsUs sequence sourceTimestampUs width
          height payload →
        data ≠ encodePacket name codecId flags ptsUs sequence sourceTimestampUs width height
          payload →
        Web.parseBinaryMessage decodeWeb data = .ok none) ∧
    ∀ (timestampUs frameIndex : UInt64) (width height : UInt32) (jpegData : List UInt8),
      timestampUs.toNat < 2 ^ 53 → frameIndex.toNat < 2 ^ 53 →
      Web.parseBinaryMessage decodeWeb (encodeJpegFrame name timestampUs frameIndex width height
          jpegData) =
        .ok (some (.cameraFrame
          { name
            timestampNs := timestampUs.toNat
            frameIndex := frameIndex.toNat
            previewWidth := width.toNat
            previewHeight := height.toNat
            jpegData })) ∧
      Terminal.parseBinaryMessage decodeTerminal (encodeJpegFrame name timestampUs frameIndex
          width height jpegData) =
        .ok (some
          { name
            timestampNs := timestampUs.toNat
            frameIndex := frameIndex.toNat
            previewWidth := width.toNat
            previewHeight := height.toNat
            jpegData }) := by
  constructor
  · intro codecId flags ptsUs sequence sourceTimestampUs width height payload hpos hpts hseq
      hsource hlen
    have hpayload : (UInt32.ofNat payload.length).toNat = payload.length :=
      UInt32.toNat_ofNat'.trans (Nat.mod_eq_of_lt hlen)
    have hfields := encodePacket_fields name codecId flags ptsUs sequence sourceTimestampUs width
      height payload
    rw [hpayload, toNat_ptsUs hpos] at hfields
    have hh := headed_of_fields (by decide) hname hfields
    have hpts : ptsUs.toInt.toNat < 2 ^ 53 := by omega
    have hbody := packetBody_of_fields codecId.toNat_lt flags.toNat_lt hpts hseq hsource
      width.toNat_lt height.toNat_lt hlen hh.body
    constructor
    · refine web_parse_eq hh ?_
      rw [if_neg (by decide), if_pos rfl, hdecode.web name hmark, ← keyframe_bit]
      exact parseEncodedPacket_eq hpts hseq hsource hbody
    · intro data hprefix hne
      have htake := List.prefix_iff_eq_take.mp hprefix
      have hlt : data.length < (encodePacket name codecId flags ptsUs sequence sourceTimestampUs
          width height payload).length := by
        refine lt_of_le_of_ne hprefix.length_le fun heq => hne ?_
        exact hprefix.eq_of_length heq
      rw [htake]
      exact web_parse_take hh hbody hlt
  · intro timestampUs frameIndex width height jpegData hts hindex
    have hh := headed_of_fields (by decide) hname
      (encodeJpegFrame_fields name timestampUs frameIndex width height jpegData)
    have hbody := jpegBody_of_fields hts hindex width.toNat_lt height.toNat_lt hh.body
    constructor
    · refine web_parse_eq hh ?_
      rw [if_pos rfl, hdecode.web name hmark]
      exact parseJpegFrame_eq hts hindex hbody
    · rw [terminal_parse_eq hts hindex hh hbody, hdecode.terminal]

def decodeUtf8 (bytes : List UInt8) : String := (String.fromUTF8? ⟨bytes.toArray⟩).getD ""

def decodeDroppingMark (bytes : List UInt8) : String :=
  let text := decodeUtf8 bytes
  if text.toList.head? = some byteOrderMark then String.ofList text.toList.tail else text

theorem decodeUtf8_asBytes (name : String) : decodeUtf8 (asBytes name) = name := by
  have hbytes : (⟨(asBytes name).toArray⟩ : ByteArray) = name.toByteArray := by
    rw [asBytes, Array.toArray_toList]
    rfl
  rw [decodeUtf8, hbytes, String.fromUTF8?, dif_pos name.isValidUTF8]
  rfl

theorem decodesExactly : DecodesExactly decodeDroppingMark decodeUtf8 := by
  refine ⟨fun name hmark => ?_, decodeUtf8_asBytes⟩
  rw [decodeDroppingMark, decodeUtf8_asBytes]
  exact if_neg hmark

theorem keyframe_round_trip :
    Web.parseBinaryMessage decodeDroppingMark
        (encodePacket "cam/color" 0 1 40000 3 1700000000000000 640 480 [0, 0, 0, 1, 0x65]) =
      .ok (some (.encodedPacket
        { name := "cam/color", codecId := 0, isKeyframe := true, ptsUs := 40000, sequence := 3
          sourceTimestampUs := 1700000000000000, width := 640, height := 480
          payload := [0, 0, 0, 1, 0x65] })) ∧
    Terminal.parseBinaryMessage decodeUtf8
        (encodeJpegFrame "cam/color" 1700000000000000 3 640 480 [0xFF, 0xD8]) =
      .ok (some
        { name := "cam/color", timestampNs := 1700000000000000, frameIndex := 3
          previewWidth := 640, previewHeight := 480, jpegData := [0xFF, 0xD8] }) := by
  have hname : (asBytes "cam/color").length < 65536 := by decide
  have hmark : "cam/color".toList.head? ≠ some byteOrderMark := by decide
  obtain ⟨hpacket, hjpeg⟩ := messages_round_trip decodesExactly hname hmark
  exact ⟨(hpacket 0 1 40000 3 1700000000000000 640 480 _ (by decide) (by decide) (by decide)
    (by decide) (by decide)).1, (hjpeg 1700000000000000 3 640 480 _ (by decide) (by decide)).2⟩

end PreviewMessages
