import AttrExpr.Node.Printer
import AttrExpr.Proofs.Decimal.ReadBack
import AttrExpr.Proofs.Parse.Grammar

/-!
# Literals as Tokens

What the text of a leaf means to a reader.

An integer is written as the number token of its value, and so is a float that
is written out. Between the digits on the two sides of the point nothing of
the decimal is lost but trailing zeros, on which its float does not depend. A
string without backslashes is written with one in front of each quote, and
that is what reading takes away again.

A float that is not written out does not come back. With an exponent it is a
bad number, since no number token has a letter in it. An infinite float is
written as a name, which is a symbol, or a bad number behind its sign, and so
is what is not a number.

## Main definitions

* `Number.Writable`: The numbers whose literal reads back.

## Theorems

* `Layout.positional_literal`: A decimal that is written out is read as it.
* `numeral_literal`: A writable number is written as its number token.
* `badNumberToken_scientific`: A number with an exponent is a bad number.
* `leaf_quoted`: A string without backslashes is written as its string.
-/

namespace AttrExpr

open Parse

/-! ## Floats that are written out -/

namespace Parse

theorem Digits.append {as bs : List Char} (has : Digits as) (hbs : Digits bs) :
    Digits (as ++ bs) :=
  List.forall_mem_append.mpr ⟨has, hbs⟩

theorem digits_zeros (n : Nat) : Digits (List.replicate n '0') := by
  intro c hc
  rw [List.eq_of_mem_replicate hc]
  rfl

theorem digits_toDigits (n : Nat) : Digits (Nat.toDigits 10 n) := by
  intro c hc
  exact Nat.isDigit_of_mem_toDigits (by decide) (by decide) hc

/-- The tokens that have to be numbers and are not. They are what the text of a
    float can be besides a number token and a symbol. -/
structure BadNumberToken (token : List Char) : Prop where
  inside : ∀ c ∈ token, isDelimiter c = false
  starts : startsNumber token = true
  bad : ∃ bad, readNumber token = .error bad

end Parse

namespace Decimal

/-- A decimal that is written out is digits around a point, and they write a
    decimal of the same value. It need not be the same decimal, since zeros may
    have been added; a float depends on the value only. -/
theorem Layout.positional_literal (d : Decimal) : ∃ whole fraction,
    Layout.literal.positional d = whole ++ '.' :: fraction ∧ Digits whole ∧ Digits fraction ∧
      whole ≠ [] ∧ (ofDigits whole fraction).value = d.value := by
  have hdigits : Digits d.digits := digits_toDigits d.coefficient
  have hnonempty : d.digits ≠ [] := Nat.toDigits_ne_nil
  have hcoefficient : Nat.ofDigitChars 10 d.digits 0 = d.coefficient :=
    Nat.ofDigitChars_ten_toDigits
  simp only [Layout.positional]
  split
  · -- A whole number: zeros up to the point, and one behind it.
    rename_i hwhole
    obtain ⟨n, hn⟩ := Int.eq_ofNat_of_zero_le hwhole
    have hform : d.digits ++ List.replicate d.exponent.toNat '0' ++ ['.', '0'] =
        (d.digits ++ List.replicate n '0') ++ '.' :: ['0'] := by
      rw [hn, Int.toNat_natCast]
    have hvalue : (ofDigits (d.digits ++ List.replicate n '0') ['0']).value = d.value := by
      have hzeros : d.digits ++ List.replicate n '0' ++ ['0'] =
          d.digits ++ List.replicate (n + 1) '0' := by
        rw [List.replicate_succ', List.append_assoc]
      have hshift := value_shift d.coefficient (n + 1) (-1)
      rw [ofDigits, hzeros, Nat.ofDigitChars_append, hcoefficient, Nat.ofDigitChars_replicate_zero,
        Nat.mul_comm]
      refine hshift.trans ?_
      rw [show -1 + ((n + 1 : Nat) : Int) = d.exponent by omega]
    exact ⟨_, ['0'], hform, hdigits.append (digits_zeros n), digits_zeros 1,
      List.append_ne_nil_of_left_ne_nil hnonempty _, hvalue⟩
  · rename_i hpart
    split
    · -- The point falls among the digits.
      rename_i hinside
      refine ⟨d.digits.take (d.digits.length - (-d.exponent).toNat),
        d.digits.drop (d.digits.length - (-d.exponent).toNat), rfl, ?_, ?_, ?_, ?_⟩
      · exact fun c hc => hdigits c (List.mem_of_mem_take hc)
      · exact fun c hc => hdigits c (List.mem_of_mem_drop hc)
      · intro hnil
        have hlength := congrArg List.length hnil
        rw [List.length_take, List.length_nil] at hlength
        omega
      · rw [ofDigits, List.take_append_drop, hcoefficient, List.length_drop,
          show -((d.digits.length - (d.digits.length - (-d.exponent).toNat) : Nat) : Int) =
            d.exponent by omega]
    · -- The point comes first, and zeros between it and the digits.
      rename_i hoff
      refine ⟨['0'], List.replicate ((-d.exponent).toNat - d.digits.length) '0' ++ d.digits, rfl,
        digits_zeros 1, (digits_zeros _).append hdigits, List.cons_ne_nil _ _, ?_⟩
      rw [ofDigits, ← List.append_assoc, Nat.ofDigitChars_append, List.singleton_append,
        ← List.replicate_succ, Nat.ofDigitChars_replicate_zero, Nat.mul_zero, hcoefficient,
        List.length_append, List.length_replicate,
        show -(((-d.exponent).toNat - d.digits.length + d.digits.length : Nat) : Int) =
          d.exponent by omega]

/-- A whole number is its sign and the digits of its magnitude. -/
theorem toList_integerText (n : Int) :
    (integerText n).toList = signText (decide (n < 0)) ++ Nat.toDigits 10 n.natAbs := by
  unfold integerText
  split
  · rename_i hneg
    rw [String.toList_append, Nat.toList_repr, decide_eq_true hneg]
    rfl
  · rename_i hneg
    rw [Nat.toList_repr, decide_eq_false hneg]
    rfl

/-- A finite float is its sign and the layout of its magnitude. -/
theorem toList_float {x : Float} (hx : x.isFinite = true) : (Layout.literal.float x).toList =
    signText (Layout.isNegative x) ++ Layout.literal.decimal (shortest x.abs) := by
  have hnumber := Binary64.of_isFinite hx
  simp only [Layout.float, hnumber.1, hnumber.2, Bool.false_eq_true, if_false, String.toList_ofList]
  cases Layout.isNegative x with
  | false => rfl
  | true => rfl

end Decimal

namespace Number

/-- The numbers whose literal reads back: every integer, and the finite floats
    that are written without an exponent. The limits are those of the layout,
    so this is stated of floats and not of texts. -/
def Writable : Number → Prop
  | int _ => True
  | float x => x.isFinite = true ∧ (x == 0 ∨ (1e-4 ≤ x.abs ∧ x.abs < 1e16))

/-- A writable number is written as a number token, which writes it. For a
    float this rests on the shortest decimal reading back as the float. -/
theorem numeral_literal {n : Number} (hn : n.Writable) : Numeral n.literal.toList n := by
  cases n with
  | int value =>
      rw [literal, Decimal.toList_integerText]
      refine Numeral.integer _ Nat.toDigits_ne_nil (digits_toDigits _) ?_
      rw [Nat.ofDigitChars_ten_toDigits]
      split
      · rename_i hneg
        have hneg := of_decide_eq_true hneg
        omega
      · rename_i hneg
        rw [decide_eq_true_iff] at hneg
        omega
  | float x =>
      rcases hn with ⟨hfinite, hrange⟩
      have hpositional := (Decimal.isPositional_shortest_iff hfinite).mpr hrange
      rcases Decimal.Layout.positional_literal (Decimal.shortest x.abs) with
        ⟨whole, fraction, htext, hwhole, hfraction, hne, hvalue⟩
      -- The digits around the point write the shortest decimal, which reads back.
      have hread : (Decimal.ofDigits whole fraction).toFloat = x.abs :=
        (Decimal.toFloat_eq_of_value_eq hvalue).trans (Decimal.toFloat_shortest_abs hfinite)
      have hnumeral := Numeral.float (Decimal.Layout.isNegative x) hwhole hfraction (Or.inr hne)
        (Or.inl hne)
      -- The sign in front makes the magnitude the float again.
      rw [hread, Binary64.neg_abs_eq (Binary64.of_isFinite hfinite).1] at hnumeral
      rw [literal, Decimal.toList_float hfinite, Decimal.Layout.decimal, if_pos hpositional, htext]
      exact hnumeral

end Number

/-! ## Floats that are not -/

namespace Decimal

/-- With an exponent the digits are followed by a letter, with or without a
    point among them. What stands behind the letter is of no interest, as long
    as it does not end the token. -/
theorem Layout.scientific_cases (d : Decimal) : ∃ whole point power,
    Layout.scientific d = whole ++ (point ++ 'e' :: power) ∧ Digits whole ∧ whole ≠ [] ∧
      (point = [] ∨ ∃ fraction, point = '.' :: fraction ∧ Digits fraction) ∧
      ∀ c ∈ power, isDelimiter c = false := by
  have hdigits : Digits d.digits := digits_toDigits d.coefficient
  have hpower : ∀ c ∈ (integerText (Layout.lead d)).toList, isDelimiter c = false := by
    rw [toList_integerText, List.forall_mem_append]
    exact ⟨signText_inside _, (digits_toDigits _).inside⟩
  have hnonempty : d.digits ≠ [] := Nat.toDigits_ne_nil
  simp only [Layout.scientific]
  split
  · -- Several digits: the point stands behind the first.
    rename_i first second rest hform
    rw [hform] at hdigits
    have hparts := List.forall_mem_cons.mp hdigits
    have hfirst : Digits [first] := List.forall_mem_singleton.mpr hparts.1
    exact ⟨[first], '.' :: second :: rest, _, rfl, hfirst, List.cons_ne_nil _ _,
      Or.inr ⟨second :: rest, rfl, hparts.2⟩, hpower⟩
  · exact ⟨d.digits, [], _, rfl, hdigits, hnonempty, Or.inl rfl, hpower⟩

/-- A number with an exponent is a bad number, because of the letter. -/
theorem badNumberToken_scientific (negative : Bool) (d : Decimal) :
    BadNumberToken (signText negative ++ Layout.scientific d) := by
  rcases Layout.scientific_cases d with ⟨whole, point, power, hform, hwhole, hne, hpoint, hpower⟩
  have hinside : ∀ c ∈ point, isDelimiter c = false := by
    rcases hpoint with rfl | ⟨fraction, rfl, hfraction⟩
    · exact List.forall_mem_nil _
    · exact List.forall_mem_cons.mpr ⟨rfl, hfraction.inside⟩
  have hhead := hwhole.head (point ++ 'e' :: power) hne
  rw [hform]
  exact {
    inside := by
      rw [List.forall_mem_append, List.forall_mem_append, List.forall_mem_append,
        List.forall_mem_cons]
      exact ⟨signText_inside negative, hwhole.inside, hinside, rfl, hpower⟩
    starts := startsNumber_eq_true_iff.mpr
      ⟨negative, _, rfl, List.append_ne_nil_of_left_ne_nil hne _, Or.inr hhead⟩
    bad := by
      rw [readNumber_signText (head?_ne_minus_of_digit (Or.inr hhead))]
      -- The letter is met before the point or behind it.
      rcases hpoint with rfl | ⟨fraction, rfl, hfraction⟩
      · rw [List.nil_append, readUnsigned_malformed hwhole rfl (by decide)]
        exact ⟨_, rfl⟩
      · rw [List.cons_append, readUnsigned_malformedFraction hwhole hfraction rfl (by decide)]
        exact ⟨_, rfl⟩ }

end Decimal

namespace Number

/-- A number that is not writable is written as a symbol or as a bad number. So
    its text never reads as a number, not even as another one. -/
theorem literal_of_not_writable {n : Number} (hn : ¬ n.Writable) :
    SymbolToken n.literal.toList ∨ BadNumberToken n.literal.toList := by
  cases n with
  | int value => exact absurd trivial hn
  | float x =>
      cases hnan : x.isNaN with
      | true =>
          -- `NaN` is a name.
          left
          simp only [literal, Decimal.Layout.float, hnan, if_true]
          exact symbolToken_of_startsNumber (by decide) (inside_of_all rfl) (by decide) rfl
      | false =>
          cases hinf : x.isInf with
          | true =>
              -- `inf` is a name, and behind a minus sign no number.
              simp only [literal, Decimal.Layout.float, hnan, hinf, Bool.false_eq_true, if_false,
                if_true]
              cases Decimal.Layout.isNegative x with
              | true => exact Or.inr ⟨inside_of_all rfl, rfl, _, rfl⟩
              | false =>
                  exact Or.inl (symbolToken_of_startsNumber (by decide) (inside_of_all rfl)
                    (by decide) rfl)
          | false =>
              -- A finite float that is not writable has an exponent.
              right
              have hfinite := Binary64.isFinite_of_isNaN_isInf hnan hinf
              have hpositional : ¬ Decimal.Layout.literal.isPositional
                  (Decimal.Layout.lead (Decimal.shortest x.abs)) = true := fun h =>
                hn ⟨hfinite, (Decimal.isPositional_shortest_iff hfinite).mp h⟩
              rw [literal, Decimal.toList_float hfinite, Decimal.Layout.decimal,
                if_neg hpositional]
              exact Decimal.badNumberToken_scientific _ _

end Number

namespace Node

/-! ## Strings -/

/-- The characters of a value as they stand between quotes. Only quotes are
    escaped, which is why a backslash does not survive. -/
def escaped (value : List Char) : List Char :=
  value.flatMap fun c => if c = '\'' then ['\\', c] else [c]

theorem toList_quoted (value : String) :
    (quoted value).toList = '\'' :: (escaped value.toList ++ ['\'']) := by
  simp only [quoted, String.toList_append, String.toList_ofList]
  rfl

/-- A value without backslashes is escaped to a body that ends where it is
    closed. -/
theorem closable_escaped {value : List Char} (hvalue : '\\' ∉ value) :
    Closable false (escaped value) := by
  induction value with
  | nil => rfl
  | cons c value ih =>
      rw [List.mem_cons, not_or] at hvalue
      have hrest := ih hvalue.2
      have hplain : (c == '\\') = false := beq_eq_false_iff_ne.mpr (Ne.symm hvalue.1)
      -- A quote gets a backslash in front of it, which lets it stand.
      by_cases hquote : c = '\''
      · subst hquote
        exact ⟨fun h => absurd h (by decide), fun _ => rfl, hrest⟩
      · rw [escaped, List.flatMap_cons, if_neg hquote]
        constructor
        · exact fun h => absurd h hquote
        · rw [hplain]
          exact hrest

/-- Reading takes away the backslashes that writing put in, and there are no
    others. -/
theorem filter_escaped {value : List Char} (hvalue : '\\' ∉ value) :
    (escaped value).filter (fun c => c ≠ '\\') = value := by
  induction value with
  | nil => rfl
  | cons c value ih =>
      rw [List.mem_cons, not_or] at hvalue
      have hplain : [c].filter (fun d => d ≠ '\\') = [c] := by
        rw [List.filter_eq_self, List.forall_mem_singleton]
        exact decide_eq_true (Ne.symm hvalue.1)
      -- Of what is written for a character only the character is left.
      have hhead : (if c = '\'' then ['\\', c] else [c]).filter (fun d => d ≠ '\\') = [c] := by
        split
        · rw [List.filter_cons_of_neg (by decide), hplain]
        · exact hplain
      rw [escaped, List.flatMap_cons, List.filter_append, hhead]
      exact congrArg (c :: ·) (ih hvalue.2)

/-- A string without backslashes is written as its string, whatever stands
    behind the closing quote. -/
theorem leaf_quoted {value : String} (hvalue : '\\' ∉ value.toList) (span : Span)
    (rest : List Char) :
    Leaf span (quoted value).toList rest (.string value span) := by
  have hbody : StringBody (escaped value.toList) :=
    closable_iff_stringBody.mp (closable_escaped hvalue)
  have hleaf : Leaf span ('\'' :: (escaped value.toList ++ ['\''])) rest _ :=
    Leaf.string hbody
  rw [filter_escaped hvalue, String.ofList_toList] at hleaf
  rw [toList_quoted]
  exact hleaf

end Node

end AttrExpr
