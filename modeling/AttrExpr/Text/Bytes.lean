/-!
# Measuring and Cutting Text by Bytes

Text is a sequence of characters, but every position this library reports is
a count of UTF-8 bytes. These functions are the bridge: they walk the list of
characters and charge each one its encoded width, so no byte array and no
position type is needed, and a cut that would split a character has no answer
instead of a wrong one.

## Main definitions

* `byteLength`: How many bytes a list of characters takes.
* `dropBytes?`: What is left after an exact number of bytes.
* `takeBytes?`: The characters making up an exact number of bytes.

## Theorems

* `byteLength_append`: Lengths add up over concatenation.
* `dropBytes?_append`: Dropping a text's own length leaves what follows it.
* `takeBytes?_append`: Taking a text's own length gives the text back.
-/

namespace AttrExpr

namespace Text

/-- How many bytes the characters take in UTF-8. A position in a text is the
    length of the characters in front of it. -/
def byteLength : List Char → Nat
  | [] => 0
  | c :: cs => c.utf8Size + byteLength cs

/-- The characters left after exactly `n` bytes. There are none to give when
    the text is shorter than that, or when the cut falls inside a
    character. -/
def dropBytes? : Nat → List Char → Option (List Char)
  | 0, cs => some cs
  | _ + 1, [] => none
  | n + 1, c :: cs =>
      if c.utf8Size ≤ n + 1 then dropBytes? (n + 1 - c.utf8Size) cs else none

/-- The characters making up exactly `n` bytes at the front of the text,
    under the same conditions as `dropBytes?`. -/
def takeBytes? : Nat → List Char → Option (List Char)
  | 0, _ => some []
  | _ + 1, [] => none
  | n + 1, c :: cs =>
      if c.utf8Size ≤ n + 1 then
        (takeBytes? (n + 1 - c.utf8Size) cs).map (c :: ·)
      else none

theorem byteLength_append (as bs : List Char) :
    byteLength (as ++ bs) = byteLength as + byteLength bs := by
  induction as with
  | nil => simp only [List.nil_append, byteLength, Nat.zero_add]
  | cons c cs ih => simp only [List.cons_append, byteLength, ih, Nat.add_assoc]

/-- A non-empty text takes at least one byte, since every character does. -/
theorem byteLength_pos (c : Char) (cs : List Char) : 0 < byteLength (c :: cs) := by
  have hc := c.utf8Size_pos
  simp only [byteLength]
  omega

theorem dropBytes?_append (as bs : List Char) :
    dropBytes? (byteLength as) (as ++ bs) = some bs := by
  induction as with
  | nil => simp only [byteLength, List.nil_append, dropBytes?]
  | cons c cs ih =>
      have hpos := byteLength_pos c cs
      -- The count is not zero, so the first character is charged for.
      obtain ⟨n, hn⟩ : ∃ n, byteLength (c :: cs) = n + 1 := ⟨_, (Nat.succ_pred_eq_of_pos hpos).symm⟩
      have hlen : n + 1 = c.utf8Size + byteLength cs := by rw [← hn]; rfl
      rw [hn, List.cons_append, dropBytes?, if_pos (by omega),
        show n + 1 - c.utf8Size = byteLength cs by omega, ih]

theorem takeBytes?_append (as bs : List Char) :
    takeBytes? (byteLength as) (as ++ bs) = some as := by
  induction as with
  | nil => simp only [byteLength, takeBytes?]
  | cons c cs ih =>
      have hpos := byteLength_pos c cs
      obtain ⟨n, hn⟩ : ∃ n, byteLength (c :: cs) = n + 1 := ⟨_, (Nat.succ_pred_eq_of_pos hpos).symm⟩
      have hlen : n + 1 = c.utf8Size + byteLength cs := by rw [← hn]; rfl
      rw [hn, List.cons_append, takeBytes?, if_pos (by omega),
        show n + 1 - c.utf8Size = byteLength cs by omega, ih, Option.map_some]

end Text

end AttrExpr
