import AttrExpr.Text.Bytes
import Mathlib.Data.List.Basic

/-!
# The Bytes of a Text

What is found at a place of a text that is looked at as bytes.

A place is told by what stands in front of it. If that is made of whole
characters then the place is their length, it is a character boundary, and the
bytes found from there on are those of the next character. All characters that
mean something are ASCII, and these are their own only byte. Every byte of any
other character is beyond ASCII, as the character itself is, so who compares
bytes with ASCII characters cannot take one for the other.

## Main definitions

* `byteAt?`: The byte at a place of a source.
* `PartOf`: A byte, read as a character, is part of a character.

## Theorems

* `isValid_front`, `exists_front`: The boundaries are the places behind whole
  characters.
* `byteAt?_inside`, `byteAt?_end`: What is found there.
* `PartOf.test_eq`: A test for ASCII characters cannot tell a part from the
  whole.
-/

namespace AttrExpr

namespace Text

/-- The byte at a place of the source, as UTF-8 encodes it. -/
def byteAt? (source : String) (i : Nat) : Option UInt8 := source.toByteArray.data[i]?

/-- The byte read as a character of its own, `d`, is part of the encoding of
    `c`: it is all of it, or both are beyond ASCII. More need not be known of the
    bytes of a long character, since none of them is compared with another such. -/
def PartOf (d c : Char) : Prop := d = c ∧ c.utf8Size = 1 ∨ 128 ≤ d.toNat ∧ 128 ≤ c.toNat

/-- Charging each character its encoded width counts the bytes there are. -/
theorem size_utf8Encode (cs : List Char) : cs.utf8Encode.size = byteLength cs := by
  induction cs with
  | nil => rfl
  | cons c cs ih =>
      rw [List.utf8Encode_cons, ByteArray.size_append, ih, List.utf8Encode_singleton,
        List.size_toByteArray, String.length_utf8EncodeChar, byteLength]

/-! ## Boundaries -/

section

variable {source : String} {front back : List Char}

/-- A part of the text ends at a character boundary. -/
theorem isValid_front (h : source.toList = front ++ back) :
    (String.Pos.Raw.mk (byteLength front)).IsValid source := by
  have hsource : source = String.ofList front ++ String.ofList back := by
    rw [← String.ofList_append, ← h, String.ofList_toList]
  have hpos : String.Pos.Raw.mk (byteLength front) = (String.ofList front).rawEndPos := by
    rw [String.Pos.Raw.ext_iff, String.byteIdx_rawEndPos, ← String.size_toByteArray,
      String.toByteArray_ofList, size_utf8Encode]
  exact String.Pos.Raw.isValid_iff_exists_append.mpr ⟨_, _, hsource, hpos⟩

/-- Every character boundary is the end of a part of the text, so a place that is
    a boundary can be told by the characters in front of it. -/
theorem exists_front {pos : Nat} (h : (String.Pos.Raw.mk pos).IsValid source) :
    ∃ front back, source.toList = front ++ back ∧ pos = byteLength front := by
  rcases String.Pos.Raw.isValid_iff_exists_append.mp h with ⟨first, second, rfl, hpos⟩
  have hlength : pos = byteLength first.toList := by
    rw [String.Pos.Raw.ext_iff, String.byteIdx_rawEndPos, ← String.size_toByteArray] at hpos
    rw [← size_utf8Encode, ← String.toByteArray_ofList, String.ofList_toList]
    exact hpos
  exact ⟨first.toList, second.toList, String.toList_append, hlength⟩

/-! ## Bytes -/

/-- The bytes of a text are those of its characters, one after the other. -/
theorem byteAt?_eq (source : String) (i : Nat) :
    byteAt? source i = (source.toList.flatMap String.utf8EncodeChar)[i]? := by
  have hbytes : source.toByteArray = source.toList.utf8Encode := by
    rw [← String.toByteArray_ofList, String.ofList_toList]
  rw [byteAt?, hbytes, List.utf8Encode, List.data_toByteArray, List.getElem?_toArray]

theorem length_encoded (cs : List Char) :
    (cs.flatMap String.utf8EncodeChar).length = byteLength cs := by
  rw [← size_utf8Encode, List.utf8Encode, List.size_toByteArray]

/-- Behind a part of the text come the bytes of the next character, as many as it
    has. All that is said of what a reader of bytes finds comes from this. -/
theorem byteAt?_inside {c : Char} (h : source.toList = front ++ c :: back) {i : Nat}
    (hi : i < c.utf8Size) :
    byteAt? source (byteLength front + i) = (String.utf8EncodeChar c)[i]? := by
  have hfirst : i < (String.utf8EncodeChar c).length := by rwa [String.length_utf8EncodeChar]
  rw [byteAt?_eq, h, List.flatMap_append, ← length_encoded,
    List.getElem?_append_right (Nat.le_add_right _ i), Nat.add_sub_cancel_left, List.flatMap_cons,
    List.getElem?_append_left hfirst]

/-- A character of one byte is the byte behind the text in front of it. -/
theorem byteAt?_front {c : Char} (h : source.toList = front ++ c :: back) (hc : c.utf8Size = 1) :
    byteAt? source (byteLength front) = some c.toUInt8 := by
  have hinside := byteAt?_inside h (i := 0) (by omega)
  rw [String.utf8EncodeChar_eq_singleton hc] at hinside
  exact hinside

theorem byteAt?_end (source : String) : byteAt? source (byteLength source.toList) = none := by
  rw [byteAt?_eq, ← length_encoded]
  exact List.getElem?_eq_none (Nat.le_refl _)

end

/-! ## Characters of one byte -/

/-- The characters of one byte are the ASCII ones. -/
theorem utf8Size_eq_one_iff {c : Char} : c.utf8Size = 1 ↔ c.toNat < 128 := by
  rw [Char.utf8Size_eq_one_iff, UInt32.le_iff_toNat_le]
  exact Nat.lt_succ_iff.symm

theorem toNat_ofUInt8 (b : UInt8) : (Char.ofUInt8 b).toNat = b.toNat := UInt8.toNat_toUInt32 b

/-- A character of one byte is that byte read as a character. -/
theorem ofUInt8_toUInt8 {c : Char} (hc : c.utf8Size = 1) : Char.ofUInt8 c.toUInt8 = c := by
  have hlt := utf8Size_eq_one_iff.mp hc
  have hbyte : c.toNat < 256 := by omega
  apply Char.toNat_inj.mp
  rw [toNat_ofUInt8]
  exact Nat.mod_eq_of_lt hbyte

/-- A longer encoding has no byte that is ASCII. -/
theorem le_utf8EncodeChar {c : Char} (hc : c.utf8Size ≠ 1) :
    ∀ b ∈ String.utf8EncodeChar c, 128 ≤ b.toNat := by
  have hwide : ¬ c.val.toNat ≤ 127 := by
    intro hle
    exact hc (utf8Size_eq_one_iff.mpr (Nat.lt_succ_of_le hle))
  have hmarked : ∀ n, 128 ≤ n → n < 256 → 128 ≤ (UInt8.ofNat n).toNat := by
    intro n hle hlt
    rwa [UInt8.toNat_ofNat_of_lt' hlt]
  -- The bytes of two, three and four are all marked by their high bits.
  unfold String.utf8EncodeChar
  simp only [if_neg hwide]
  split
  · -- Two bytes.
    simp only [List.forall_mem_cons]
    exact ⟨hmarked _ (by omega) (by omega), hmarked _ (by omega) (by omega), nofun⟩
  · split
    · -- Three bytes.
      simp only [List.forall_mem_cons]
      exact ⟨hmarked _ (by omega) (by omega), hmarked _ (by omega) (by omega),
        hmarked _ (by omega) (by omega), nofun⟩
    · -- Four bytes.
      simp only [List.forall_mem_cons]
      exact ⟨hmarked _ (by omega) (by omega), hmarked _ (by omega) (by omega),
        hmarked _ (by omega) (by omega), hmarked _ (by omega) (by omega), nofun⟩

/-! ## Parts of characters -/

/-- All bytes of a character are there, and they are part of it. -/
theorem exists_partOf {source : String} {front back : List Char} {c : Char}
    (h : source.toList = front ++ c :: back) {i : Nat} (hi : i < c.utf8Size) :
    ∃ b, byteAt? source (byteLength front + i) = some b ∧ PartOf (Char.ofUInt8 b) c := by
  have hlength : i < (String.utf8EncodeChar c).length := by rwa [String.length_utf8EncodeChar]
  refine ⟨_, (byteAt?_inside h hi).trans (List.getElem?_eq_getElem hlength), ?_⟩
  -- A character of one byte is that byte, and of a longer one no byte is ASCII.
  by_cases hc : c.utf8Size = 1
  · obtain rfl : i = 0 := by omega
    simp only [String.utf8EncodeChar_eq_singleton hc, List.getElem_cons_zero]
    exact Or.inl ⟨ofUInt8_toUInt8 hc, hc⟩
  · have hwide : 128 ≤ c.toNat := by
      by_contra hascii
      exact hc (utf8Size_eq_one_iff.mpr (Nat.not_le.mp hascii))
    have hmarked := le_utf8EncodeChar hc _ (List.getElem_mem hlength)
    rw [← toNat_ofUInt8] at hmarked
    exact Or.inr ⟨hmarked, hwide⟩

namespace PartOf

variable {d c : Char}

/-- A test that has one answer beyond ASCII has the same for a part as for the
    whole. It is by this that a reader of bytes and one of characters stop at the
    same place. -/
theorem test_eq {α : Type} {test : Char → α} {answer : α}
    (htest : ∀ c : Char, 128 ≤ c.toNat → test c = answer) (h : PartOf d c) : test d = test c := by
  rcases h with ⟨rfl, _⟩ | ⟨hd, hc⟩
  · rfl
  · rw [htest d hd, htest c hc]

/-- Only an ASCII character has itself for a part. -/
theorem eq_iff {ascii : Char} (hascii : ascii.toNat < 128) (h : PartOf d c) :
    d = ascii ↔ c = ascii := by
  rcases h with ⟨rfl, _⟩ | ⟨hd, hc⟩
  · exact Iff.rfl
  · constructor
    · rintro rfl
      omega
    · rintro rfl
      omega

end PartOf

end Text

end AttrExpr
