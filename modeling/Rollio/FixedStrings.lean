import Rollio.BusMessages

/-! What comes out of a fixed string of a text that may be too long for it. -/
namespace FixedStrings
open BusMessages

/-- A text that begins another ends between two of its characters. -/
def Begins (front s : String) : Prop := ∃ back, s = front ++ back

/-- The longest beginning of a text within so many bytes. -/
structure LongestWithin (limit : ℕ) (s front : String) : Prop where
  begins : Begins front s
  fits : front.utf8ByteSize ≤ limit
  longest : ∀ other, Begins other s → other.utf8ByteSize ≤ limit →
    other.utf8ByteSize ≤ front.utf8ByteSize

/-- A text within the limit, or one with a boundary between characters there. -/
def Uncut (limit : ℕ) (s : String) : Prop :=
  s.utf8ByteSize ≤ limit ∨ ∃ front, Begins front s ∧ front.utf8ByteSize = limit

variable {limit : ℕ} {s front : String}

theorem begins_refl (s : String) : Begins s s := ⟨"", by simp⟩

theorem Begins.size_le (h : Begins front s) : front.utf8ByteSize ≤ s.utf8ByteSize := by
  obtain ⟨back, rfl⟩ := h
  rw [String.utf8ByteSize_append]
  exact Nat.le_add_right ..

theorem isValid_iff_begins :
    (String.Pos.Raw.mk limit).IsValid s ↔ ∃ front, Begins front s ∧ front.utf8ByteSize = limit := by
  rw [String.Pos.Raw.isValid_iff_exists_append]
  constructor
  · rintro ⟨front, back, heq, hlimit⟩
    exact ⟨front, ⟨back, heq⟩, (congrArg String.Pos.Raw.byteIdx hlimit).symm⟩
  · rintro ⟨front, ⟨back, heq⟩, rfl⟩
    exact ⟨front, back, heq, rfl⟩

theorem new_bytes (limit : ℕ) (s : String) :
    (⟨(FixedString.new limit s).data.toArray⟩ : ByteArray) = s.toByteArray.extract 0 limit := by
  apply ByteArray.ext
  apply Array.toList_inj.mp
  rw [ByteArray.data_extract, Array.toList_extract]
  simp [FixedString.new, String.toUTF8_eq_toByteArray]

theorem asStr_new_begins (h : Begins front s) (hsize : front.utf8ByteSize = limit) :
    (FixedString.new limit s).asStr = front := by
  obtain ⟨back, rfl⟩ := h
  have hbytes : (front ++ back).toByteArray.extract 0 limit = front.toByteArray := by
    rw [String.toByteArray_append, ByteArray.extract_append_eq_left]
    rw [← hsize, String.size_toByteArray]
  rw [FixedString.asStr, new_bytes, hbytes, String.fromUTF8?, dif_pos front.isValidUTF8]
  rfl

/-- A character across the limit costs the whole text. -/
theorem asStr_new_cut (h : ¬ Uncut limit s) : (FixedString.new limit s).asStr = "" := by
  obtain ⟨hlong, hcut⟩ := not_or.mp h
  rw [← isValid_iff_begins, String.Pos.Raw.isValid_iff_isValidUTF8_extract_zero] at hcut
  have hinvalid : ¬ (s.toByteArray.extract 0 limit).IsValidUTF8 := by
    intro hvalid
    apply hcut
    refine ⟨?_, hvalid⟩
    rw [String.Pos.Raw.le_iff]
    exact (Nat.not_le.mp hlong).le
  rw [FixedString.asStr, new_bytes, String.fromUTF8?, dif_neg hinvalid]
  rfl

theorem longest_of_uncut (h : Uncut limit s) :
    LongestWithin limit s (FixedString.new limit s).asStr := by
  obtain hfits | ⟨front, hfront, hsize⟩ := h
  · rw [FixedString.asStr_new hfits]
    exact ⟨begins_refl s, hfits, fun other hother _ => hother.size_le⟩
  · rw [asStr_new_begins hfront hsize]
    exact ⟨hfront, hsize.le, fun other _ hother => hother.trans hsize.ge⟩

/-- Some character of a text is within the limit, since none takes more than four bytes. -/
theorem exists_begins (hlimit : 4 ≤ limit) (hlong : limit < s.utf8ByteSize) :
    ∃ front, Begins front s ∧ front.utf8ByteSize ≤ limit ∧ 0 < front.utf8ByteSize := by
  obtain ⟨chars, rfl⟩ := s.exists_eq_ofList
  match chars with
  | [] => exact absurd hlong (by simp)
  | char :: chars =>
    refine ⟨String.singleton char, ⟨String.ofList chars, ?_⟩, ?_, ?_⟩
    · rw [← String.ofList_cons]
    · rw [String.utf8ByteSize_singleton]
      exact char.utf8Size_le_four.trans hlimit
    · rw [String.utf8ByteSize_singleton]
      exact char.utf8Size_pos

theorem longest_iff_uncut (hlimit : 4 ≤ limit) :
    LongestWithin limit s (FixedString.new limit s).asStr ↔ Uncut limit s := by
  constructor
  · intro h
    by_contra hcut
    obtain ⟨front, hfront, hfits, hpos⟩ :=
      exists_begins hlimit (Nat.not_le.mp (not_or.mp hcut).1)
    have hlongest := h.longest front hfront hfits
    rw [asStr_new_cut hcut] at hlongest
    exact absurd hpos (Nat.not_lt.mpr hlongest)
  · exact longest_of_uncut

/-- A fixed string keeps the longest beginning that fits exactly if no character lies across its
limit. -/
theorem fixed_strings_keep_longest_iff (s : String) :
    (LongestWithin 64 s (FixedString.new 64 s).asStr ↔ Uncut 64 s) ∧
      (LongestWithin 256 s (FixedString.new 256 s).asStr ↔ Uncut 256 s) :=
  ⟨longest_iff_uncut (by decide), longest_iff_uncut (by decide)⟩

def stagingPath : String := "/tmp" ++ String.ofList (List.replicate 251 'a' ++ ['é'])

/-- The whole path is lost with its last character. -/
theorem staging_path_lost :
    (FixedString.new 256 stagingPath).asStr = "" ∧
      ¬ LongestWithin 256 stagingPath (FixedString.new 256 stagingPath).asStr := by
  have hlost : (FixedString.new 256 stagingPath).asStr = "" := by decide +kernel
  refine ⟨hlost, ?_⟩
  intro h
  have hlongest := h.longest "/tmp" ⟨_, rfl⟩ (by decide)
  rw [hlost] at hlongest
  exact absurd hlongest (by decide)

end FixedStrings
