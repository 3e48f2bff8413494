import Rollio.BusMessages
import Mathlib.Data.List.TakeWhile

/-! What a packet subscriber hands to a stream buffer, and the part of a delivered sequence
that starts at its first keyframe. -/
namespace PacketDeliveries
open BusMessages

inductive Delivery where
  | packet (header : EncodedPacketHeader) (payload : List UInt8)
  | eos (header : EncodedPacketHeader)
  deriving DecidableEq

def toDelivery (header : EncodedPacketHeader) (payload : List UInt8) : Delivery :=
  match header.kind with
  | .packet => .packet header payload
  | .endOfStream => .eos header

namespace Delivery

def header : Delivery → EncodedPacketHeader
  | .packet h _ | .eos h => h

def sequence (d : Delivery) : ℕ := d.header.sequenceNumber.toNat

def isKeyframePacket : Delivery → Bool
  | .packet h _ => h.isKeyframe
  | .eos _ => false

def isEos : Delivery → Bool
  | .packet .. => false
  | .eos _ => true

end Delivery

/-- Everything delivered from the first keyframe packet on. -/
def fromKeyframe (ds : List Delivery) : List Delivery :=
  ds.dropWhile fun d => !d.isKeyframePacket

theorem fromKeyframe_eq_nil {ds : List Delivery} (h : ds.any Delivery.isKeyframePacket = false) :
    fromKeyframe ds = [] := by
  simpa [fromKeyframe, List.dropWhile_eq_nil_iff] using h

/-- What comes ahead of the first keyframe does not count. -/
theorem fromKeyframe_append_left {pre : List Delivery}
    (h : pre.any Delivery.isKeyframePacket = false) (ds : List Delivery) :
    fromKeyframe (pre ++ ds) = fromKeyframe ds :=
  List.dropWhile_append_of_pos (by simpa using h)

theorem fromKeyframe_concat (ds : List Delivery) (d : Delivery) :
    fromKeyframe (ds ++ [d]) =
      if ds.any Delivery.isKeyframePacket || d.isKeyframePacket then fromKeyframe ds ++ [d]
      else [] := by
  cases ha : ds.any Delivery.isKeyframePacket with
  | true =>
    have hne : ¬ (ds.dropWhile fun d => !d.isKeyframePacket) = [] := by
      simpa [List.dropWhile_eq_nil_iff] using ha
    simp [fromKeyframe, List.dropWhile_append, hne]
  | false =>
    have hnil := fromKeyframe_eq_nil ha
    simp only [fromKeyframe] at hnil ⊢
    rw [List.dropWhile_append, hnil]
    cases hk : d.isKeyframePacket <;> simp [hk]

theorem fromKeyframe_head {ds : List Delivery} (h : ds.any Delivery.isKeyframePacket = true) :
    ∃ hd p rest, fromKeyframe ds = .packet hd p :: rest ∧ hd.isKeyframe = true := by
  have hne : fromKeyframe ds ≠ [] := by
    simpa [fromKeyframe, List.dropWhile_eq_nil_iff] using h
  obtain ⟨d, rest, he⟩ := List.exists_cons_of_ne_nil hne
  have hk : d.isKeyframePacket = true := by
    have := List.head?_dropWhile_not (fun d : Delivery => !d.isKeyframePacket) ds
    simpa [show (ds.dropWhile fun d => !d.isKeyframePacket) = d :: rest from he] using this
  cases d with
  | packet hd p => exact ⟨hd, p, rest, he, hk⟩
  | eos hd => cases hk

end PacketDeliveries
