import AttrExpr.Proofs.Parse.Grammar
import AttrExpr.Text.Quoted

/-!
# Quoted Texts Apart

Where a quoted text ends, and which text it is.

A quoted text stands among others, in the line of an outline or in the items of
a list, and nothing in it may be taken for what comes behind it. It is not
enough that different texts are quoted differently: one must not go on where the
other is over. So the statements here are about quoted texts with anything
behind them. If two of these are the same, then so are the texts and what is
behind them.

A character is written in one of three ways, and the first characters tell
which. A bare one is neither a quote nor a backslash. Behind a backslash comes a
letter, or the letter `u` and a number in braces; the digits end at the closing
brace, since none of them is one. The quote that ends the text is thus the first
one that does not stand behind a backslash.

## Main definitions

* `Quoted.Written`: The three ways to write a character.

## Theorems

* `toDigits_injective`: Numbers are told apart by their hexadecimal digits.
* `written_encodeChar`: Every character is written in one of the three ways.
* `Written.append_inj`: Characters with anything behind them are told apart.
* `encode_append_inj`: Quoted texts with anything behind them are told apart.
* `newline_not_mem_encode`: A quoted text is on one line.
-/

namespace AttrExpr

namespace Text

namespace Quoted

open Parse

/-! ## Hexadecimal digits -/

/-- The sixteen digits are different characters. -/
theorem digitChar_injective : ∀ d < 16, ∀ e < 16, Nat.digitChar d = Nat.digitChar e → d = e := by
  decide

/-- None of them is a closing brace or the end of a line. -/
theorem digitChar_plain : ∀ d < 16, Nat.digitChar d ≠ '\x7d' ∧ Nat.digitChar d ≠ '\n' := by
  decide

theorem mem_toDigits {n : Nat} {c : Char} (h : c ∈ Nat.toDigits 16 n) :
    ∃ d < 16, c = Nat.digitChar d := by
  induction n using Nat.strongRecOn with
  | _ n ih =>
      by_cases hlt : n < 16
      · rw [Nat.toDigits_of_lt_base hlt, List.mem_singleton] at h
        exact ⟨n, hlt, h⟩
      · rw [Nat.toDigits_of_base_le (by decide) (by omega), List.mem_append,
          List.mem_singleton] at h
        rcases h with h | h
        · exact ih (n / 16) (by omega) h
        · exact ⟨n % 16, Nat.mod_lt n (by decide), h⟩

/-- Numbers are told apart by their digits, from the last one on: it is the
    remainder, and the others are the digits of the quotient. -/
theorem toDigits_injective {m n : Nat} (h : Nat.toDigits 16 m = Nat.toDigits 16 n) : m = n := by
  induction m using Nat.strongRecOn generalizing n with
  | _ m ih =>
      have hlength := congrArg List.length h
      by_cases hm : m < 16
      · by_cases hn : n < 16
        · rw [Nat.toDigits_of_lt_base hm, Nat.toDigits_of_lt_base hn, List.cons.injEq] at h
          exact digitChar_injective m hm n hn h.1
        · -- A single digit is not the digits of a larger number.
          have hpos : 0 < (Nat.toDigits 16 (n / 16)).length := Nat.length_toDigits_pos
          rw [Nat.toDigits_of_lt_base hm, Nat.toDigits_of_base_le (by decide) (by omega),
            List.length_append, List.length_singleton, List.length_singleton] at hlength
          omega
      · by_cases hn : n < 16
        · -- The same with the numbers exchanged.
          have hpos : 0 < (Nat.toDigits 16 (m / 16)).length := Nat.length_toDigits_pos
          rw [Nat.toDigits_of_lt_base hn, Nat.toDigits_of_base_le (by decide) (by omega),
            List.length_append, List.length_singleton, List.length_singleton] at hlength
          omega
        · rw [Nat.toDigits_of_base_le (by decide) (by omega),
            Nat.toDigits_of_base_le (b := 16) (n := n) (by decide) (by omega)] at h
          have hparts := List.append_inj' h rfl
          have hlast := digitChar_injective (m % 16) (Nat.mod_lt m (by decide)) (n % 16)
            (Nat.mod_lt n (by decide)) (List.cons.inj hparts.2).1
          have hfront := ih (m / 16) (by omega) hparts.1
          omega

/-! ## Characters -/

/-- The characters that are written by a letter behind a backslash. -/
def letters : List (Char × Char) :=
  [('"', '"'), ('\\', '\\'), ('\n', 'n'), ('\r', 'r'), ('\t', 't'), ('\x00', '0')]

/-- The ways to write a character: as it is, by a letter or by its number. Which
    characters are written by their numbers does not matter here, so any may be. -/
inductive Written : Char → List Char → Prop
  | bare {c : Char} (hquote : c ≠ '"') (hbackslash : c ≠ '\\') (hnewline : c ≠ '\n') :
      Written c [c]
  | letter {c l : Char} (h : (c, l) ∈ letters) : Written c ['\\', l]
  | number (c : Char) : Written c (encodeByNumber c)

/-- Every character is written in one of the three ways. -/
theorem written_encodeChar (c : Char) : Written c (encodeChar c) := by
  unfold encodeChar
  split
  · exact Written.letter (by decide)
  · exact Written.letter (by decide)
  · exact Written.letter (by decide)
  · exact Written.letter (by decide)
  · exact Written.letter (by decide)
  · exact Written.letter (by decide)
  · rename_i hquote hbackslash hnewline _ _ _
    split
    · exact Written.number c
    · exact Written.bare hquote hbackslash hnewline

theorem letter_injective : ∀ p ∈ letters, ∀ q ∈ letters, p.2 = q.2 → p.1 = q.1 := by
  decide

/-- The letter `u` is kept for numbers. -/
theorem letter_ne_u : ∀ p ∈ letters, p.2 ≠ 'u' := by
  decide

/-- The digits of a number end at the brace behind them, so characters written by
    their numbers are told apart whatever comes next. -/
theorem encodeByNumber_append_inj {a b : Char} {r s : List Char}
    (h : encodeByNumber a ++ r = encodeByNumber b ++ s) : a = b ∧ r = s := by
  have hdigits : ∀ c : Char, ∀ d ∈ Nat.toDigits 16 c.toNat, (d != '\x7d') = true := by
    intro c d hd
    rcases mem_toDigits hd with ⟨e, he, rfl⟩
    exact bne_iff_ne.mpr (digitChar_plain e he).1
  simp only [encodeByNumber, List.cons_append, List.append_assoc, List.cons.injEq, true_and,
    List.nil_append] at h
  have hparts := cut_inj rfl (hdigits a) (hdigits b) h
  exact ⟨Char.toNat_inj.mp (toDigits_injective hparts.1), hparts.2⟩

/-- Characters with anything behind them are told apart. Written in different ways
    they differ in the first character or in the one behind the backslash; written
    in one way they are told apart by what that way writes. -/
theorem Written.append_inj {a b : Char} {as bs r s : List Char} (ha : Written a as)
    (hb : Written b bs) (h : as ++ r = bs ++ s) : a = b ∧ r = s := by
  cases ha with
  | bare _ hbackslash _ =>
      -- The other two ways begin with a backslash.
      cases hb with
      | bare => exact List.cons.inj h
      | letter => exact absurd (List.cons.inj h).1 hbackslash
      | number => exact absurd (List.cons.inj h).1 hbackslash
  | letter hletter =>
      cases hb with
      | bare _ hbackslash _ => exact absurd (List.cons.inj h).1.symm hbackslash
      | letter hletter' =>
          have hsecond := List.cons.inj (List.cons.inj h).2
          exact ⟨letter_injective _ hletter _ hletter' hsecond.1, hsecond.2⟩
      | number => exact absurd (List.cons.inj (List.cons.inj h).2).1 (letter_ne_u _ hletter)
  | number =>
      cases hb with
      | bare _ hbackslash _ => exact absurd (List.cons.inj h).1.symm hbackslash
      | letter hletter =>
          exact absurd (List.cons.inj (List.cons.inj h).2).1.symm (letter_ne_u _ hletter)
      | number => exact encodeByNumber_append_inj h

/-- No character is written with a quote in front, so the first quote that no
    character accounts for is the one that ends the text. -/
theorem Written.append_ne_quote {c : Char} {cs r s : List Char} (h : Written c cs) :
    cs ++ r ≠ '"' :: s := by
  intro hsame
  cases h with
  | bare hquote _ _ => exact hquote (List.cons.inj hsame).1
  | letter _ => exact absurd (List.cons.inj hsame).1 (by decide)
  | number => exact absurd (List.cons.inj hsame).1 (by decide)

theorem Written.newline_not_mem {c : Char} {cs : List Char} (h : Written c cs) : '\n' ∉ cs := by
  cases h with
  | bare _ _ hnewline =>
      intro hmem
      exact hnewline (List.mem_singleton.mp hmem).symm
  | letter hletter =>
      have hplain : ∀ p ∈ letters, '\n' ∉ ['\\', p.2] := by decide
      exact hplain _ hletter
  | number =>
      simp only [encodeByNumber, List.mem_cons, List.mem_append, List.not_mem_nil, or_false,
        Char.reduceEq, false_or]
      intro hmem
      rcases mem_toDigits hmem with ⟨d, hd, hdigit⟩
      exact (digitChar_plain d hd).2 hdigit.symm

/-! ## Texts -/

/-- The characters of two texts end at the same quote. -/
theorem flatMap_encodeChar_inj {as bs r s : List Char}
    (h : as.flatMap encodeChar ++ '"' :: r = bs.flatMap encodeChar ++ '"' :: s) :
    as = bs ∧ r = s := by
  induction as generalizing bs with
  | nil =>
      cases bs with
      | nil => exact ⟨rfl, (List.cons.inj h).2⟩
      | cons b bs =>
          -- One text is over where the other one has a character.
          rw [List.flatMap_cons, List.append_assoc] at h
          exact absurd h.symm (written_encodeChar b).append_ne_quote
  | cons a as ih =>
      cases bs with
      | nil =>
          rw [List.flatMap_cons, List.append_assoc] at h
          exact absurd h (written_encodeChar a).append_ne_quote
      | cons b bs =>
          rw [List.flatMap_cons, List.flatMap_cons, List.append_assoc, List.append_assoc] at h
          have hfirst := (written_encodeChar a).append_inj (written_encodeChar b) h
          have hothers := ih hfirst.2
          rw [hfirst.1, hothers.1]
          exact ⟨rfl, hothers.2⟩

theorem toList_encode (text : String) :
    (encode text).toList = '"' :: (text.toList.flatMap encodeChar ++ ['"']) := by
  rw [encode, String.toList_ofList]

/-- Quoted texts with anything behind them are told apart, and what is behind them
    is the same. This is the form in which an outline or a list uses it. -/
theorem encode_append_inj {a b : String} {r s : List Char}
    (h : (encode a).toList ++ r = (encode b).toList ++ s) : a = b ∧ r = s := by
  rw [toList_encode, toList_encode, List.cons_append, List.cons_append, List.append_assoc,
    List.append_assoc] at h
  have hparts := flatMap_encodeChar_inj (List.cons.inj h).2
  exact ⟨String.toList_inj.mp hparts.1, hparts.2⟩

/-- A quoted text is on one line. -/
theorem newline_not_mem_encode (text : String) : '\n' ∉ (encode text).toList := by
  rw [toList_encode, List.mem_cons, List.mem_append, List.mem_singleton, List.mem_flatMap]
  rintro (h | ⟨c, _, hmem⟩ | h)
  · exact absurd h (by decide)
  · exact (written_encodeChar c).newline_not_mem hmem
  · exact absurd h (by decide)

end Quoted

end Text

end AttrExpr
