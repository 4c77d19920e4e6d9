import AttrExpr.Proofs.Node.Distinct
import AttrExpr.Proofs.Text.Quoted
import AttrExpr.Value.Display

/-!
# Shown Lists Apart

Different lists of integers, truth values, texts and lists are shown
differently.

The text of a list is cut where its items end, and commas and brackets may also
stand inside an item. So the induction is not on texts that are the same, but on
texts that are the same with something behind them, which has to begin as what
is behind an item does: with a comma or a closing bracket. An integer or a truth
value has neither in it and ends there. A text ends at the quote that closes it.
A list ends at its closing bracket, which the induction finds item by item.

Nil is left out, since it is shown as nothing, and a list of it like an empty
one. So are floats and functions. A whole float is shown like an integer, and of
a function only its name is.

## Main definitions

* `Value.Plain`: The values in question.
* `Value.Word`: The values whose texts end at the first comma or bracket.
* `Value.Form`: The ways in which the texts of plain values end.
* `Value.Apart`: A value that is told apart, whatever is behind its text.

## Theorems

* `Word.value_eq`: Words are told apart.
* `items_append_inj`: Items are, if each of them is.
* `Plain.apart`: All plain values are.
* `display_injective`: Plain lists are told apart by their texts.
-/

namespace AttrExpr

open Parse

namespace Value

/-- The values made of integers, truth values and texts by putting them into
    lists. -/
inductive Plain : Value → Prop
  | int (value : Int64) : Plain (int value)
  | bool (value : Bool) : Plain (bool value)
  | str (value : String) : Plain (str value)
  | list {items : List Value} (h : ∀ item ∈ items, Plain item) : Plain (list items)

/-! ## Words -/

/-- The characters of words. The others separate items, or begin or end one. -/
def isWordChar (c : Char) : Bool := c != ',' && c != ']' && c != '[' && c != '"'

/-- The values that are shown as words, and the words. -/
inductive Word : Value → List Char → Prop
  | int (value : Int64) : Word (int value) (Decimal.integerText value.toInt).toList
  | bool (value : Bool) : Word (bool value) (if value then "true" else "false").toList

/-- What may follow an item: nothing, or a character that no word has in it. A word
    ends there, wherever it was cut off. -/
def ItemEnds (rest : List Char) : Prop := ∀ c, rest.head? = some c → isWordChar c = false

/-- An integer is written with digits and a minus only. -/
theorem integerText_chars (n : Int) :
    ∀ c ∈ (Decimal.integerText n).toList, c = '-' ∨ c.isDigit = true := by
  rw [Decimal.toList_integerText, List.forall_mem_append]
  constructor
  · intro c hc
    cases hsign : decide (n < 0) with
    | true =>
        rw [hsign] at hc
        exact Or.inl (List.mem_singleton.mp hc)
    | false =>
        rw [hsign] at hc
        cases hc
  · intro c hc
    exact Or.inr (digits_toDigits _ c hc)

/-- A digit is none of the characters that separate items. -/
theorem isWordChar_of_isDigit {c : Char} (h : c.isDigit = true) : isWordChar c = true := by
  have hne : ∀ separator : Char, separator.isDigit = false → c ≠ separator := by
    rintro separator hseparator rfl
    rw [h] at hseparator
    cases hseparator
  simp only [isWordChar, Bool.and_eq_true, bne_iff_ne]
  exact ⟨⟨⟨hne ',' rfl, hne ']' rfl⟩, hne '[' rfl⟩, hne '"' rfl⟩

/-- There is nothing in a word that separates items, so it ends where one does. -/
theorem Word.inside {value : Value} {text : List Char} (h : Word value text) :
    ∀ c ∈ text, isWordChar c = true := by
  cases h with
  | int value =>
      intro c hc
      rcases integerText_chars _ c hc with rfl | hdigit
      · -- The minus separates nothing.
        rfl
      · exact isWordChar_of_isDigit hdigit
  | bool value =>
      intro c hc
      have hwords : ∀ b : Bool, (if b then "true" else "false").toList.all isWordChar = true := by
        decide
      exact List.all_eq_true.mp (hwords value) c hc

/-- A word begins like an item, and never like the end of one. -/
theorem Word.append_ne {value : Value} {text : List Char} (h : Word value text)
    {c : Char} (hc : isWordChar c = false) (rest tail : List Char) :
    text ++ rest ≠ c :: tail := by
  -- A word has a first character, which is a character of words.
  have hne : text ≠ [] := by
    cases h with
    | int value =>
        rw [Decimal.toList_integerText]
        exact List.append_ne_nil_of_right_ne_nil _ Nat.toDigits_ne_nil
    | bool value =>
        intro hnil
        cases value with
        | true | false => cases hnil
  cases text with
  | nil => exact absurd rfl hne
  | cons d text =>
      intro hsame
      have hd := h.inside d List.mem_cons_self
      rw [(List.cons.inj hsame).1, hc] at hd
      cases hd

/-- Words are told apart. Integers are by their digits and truth values by being
    two, and a number has no letter in it, as truth values do. -/
theorem Word.value_eq {v w : Value} {text other : List Char} (hv : Word v text)
    (hw : Word w other) (h : text = other) : v = w := by
  -- Both truth values have the letter `e` in them.
  have hletters : ∀ (n : Int) (b : Bool),
      (Decimal.integerText n).toList ≠ (if b then "true" else "false").toList := by
    intro n b hsame
    have hletter : 'e' ∈ (Decimal.integerText n).toList := by
      rw [hsame]
      cases b with
      | true | false => decide
    rcases integerText_chars n 'e' hletter with hminus | hdigit
    · cases hminus
    · cases hdigit
  cases hv with
  | int n =>
      cases hw with
      | int m =>
          have hvalue := Decimal.integerText_injective (String.toList_inj.mp h)
          rw [Int64.toInt_inj.mp hvalue]
      | bool b => exact absurd h (hletters _ b)
  | bool a =>
      cases hw with
      | int m => exact absurd h.symm (hletters _ a)
      | bool b =>
          have hsame : ∀ a b : Bool, (if a then "true" else "false").toList =
              (if b then "true" else "false").toList → a = b := by decide
          rw [hsame a b h]

/-! ## Items -/

/-- The texts of plain values, by the ways in which they end. -/
inductive Form : Value → List Char → Prop
  | word {value : Value} {text : List Char} (h : Word value text) : Form value text
  | quoted (value : String) : Form (str value) (Text.Quoted.encode value).toList
  | bracketed (items : List Value) :
      Form (list items) ('[' :: ((displayItems items).toList ++ [']']))

theorem toList_displayAt_list (items : List Value) : (displayAt .inList (list items)).toList =
    '[' :: ((displayItems items).toList ++ [']']) := by
  rw [displayAt, String.toList_append, String.toList_append, List.append_assoc]
  rfl

theorem form_displayAt {value : Value} (h : Plain value) :
    Form value (displayAt .inList value).toList := by
  cases h with
  | int value => exact Form.word (Word.int value)
  | bool value => exact Form.word (Word.bool value)
  | str value => exact Form.quoted value
  | @list items h =>
      rw [toList_displayAt_list]
      exact Form.bracketed items

/-- No item begins with the bracket that ends a list. -/
theorem displayAt_append_ne {value : Value} (h : Plain value) (rest tail : List Char) :
    (displayAt .inList value).toList ++ rest ≠ ']' :: tail := by
  have hform := form_displayAt h
  generalize (displayAt .inList value).toList = text at hform
  cases hform with
  | word hword => exact hword.append_ne rfl rest tail
  | quoted value =>
      rw [Text.Quoted.toList_encode]
      intro hsame
      exact absurd (List.cons.inj hsame).1 (by decide)
  | bracketed items =>
      intro hsame
      exact absurd (List.cons.inj hsame).1 (by decide)

/-- What stands behind an item: the closing bracket, or a comma and the items
    that follow. -/
def behind : List Value → List Char
  | [] => [']']
  | item :: items => ',' :: ' ' :: ((displayItems (item :: items)).toList ++ [']'])

/-- The items of a list are the first one and what stands behind it. -/
theorem displayItems_append (item : Value) (items : List Value) :
    (displayItems (item :: items)).toList ++ [']'] =
      (displayAt .inList item).toList ++ behind items := by
  cases items with
  | nil =>
      rw [displayItems_singleton]
      rfl
  | cons next items =>
      rw [displayItems_cons_cons, String.toList_append, String.toList_append, List.append_assoc,
        List.append_assoc]
      rfl

theorem itemEnds_behind (items : List Value) (rest : List Char) :
    ItemEnds (behind items ++ rest) := by
  cases items with
  | nil =>
      rintro c ⟨⟩
      rfl
  | cons item items =>
      rintro c ⟨⟩
      rfl

/-- A value is told apart if no plain value, whatever is behind its text, is
    shown as the value is with something behind it. What is behind each of them
    has to end an item, and is then the same for both. -/
def Apart (v : Value) : Prop := ∀ w, Plain w → ∀ r s, ItemEnds r → ItemEnds s →
  (displayAt .inList v).toList ++ r = (displayAt .inList w).toList ++ s → v = w ∧ r = s

/-- Items are told apart if each of them is, and end at the same bracket. The first
    items are cut off, and what is behind them says whether there are more. -/
theorem items_append_inj {as bs : List Value} (has : ∀ a ∈ as, Plain a) (hbs : ∀ b ∈ bs, Plain b)
    (hapart : ∀ a ∈ as, Apart a) {r s : List Char}
    (h : (displayItems as).toList ++ [']'] ++ r = (displayItems bs).toList ++ [']'] ++ s) :
    as = bs ∧ r = s := by
  induction as generalizing bs with
  | nil =>
      cases bs with
      | nil => exact ⟨rfl, (List.cons.inj h).2⟩
      | cons b bs =>
          -- One list is over where the other one has an item.
          rw [displayItems_append, List.append_assoc _ (behind bs)] at h
          exact absurd h.symm (displayAt_append_ne (hbs b List.mem_cons_self) _ _)
  | cons a as ih =>
      cases bs with
      | nil =>
          rw [displayItems_append, List.append_assoc] at h
          exact absurd h (displayAt_append_ne (has a List.mem_cons_self) _ _)
      | cons b bs =>
          rw [displayItems_append, displayItems_append, List.append_assoc, List.append_assoc] at h
          have hfirst := hapart a List.mem_cons_self b (hbs b List.mem_cons_self) _ _
            (itemEnds_behind as r) (itemEnds_behind bs s) h
          have hothers : as = bs ∧ r = s := by
            -- Behind the first items comes a bracket or a comma, on both sides the same.
            cases as with
            | nil =>
                cases bs with
                | nil => exact ⟨rfl, (List.cons.inj hfirst.2).2⟩
                | cons => exact absurd (List.cons.inj hfirst.2).1 (by decide)
            | cons =>
                cases bs with
                | nil => exact absurd (List.cons.inj hfirst.2).1 (by decide)
                | cons =>
                    exact ih (List.forall_mem_cons.mp has).2 (List.forall_mem_cons.mp hbs).2
                      (List.forall_mem_cons.mp hapart).2
                      (List.cons.inj (List.cons.inj hfirst.2).2).2
          rw [hfirst.1, hothers.1]
          exact ⟨rfl, hothers.2⟩

/-! ## Values -/

/-- It is enough to compare the text of a value with texts of the three forms. -/
theorem apart_of_form {v : Value} (h : ∀ w text, Plain w → Form w text → ∀ r s, ItemEnds r →
    ItemEnds s → (displayAt .inList v).toList ++ r = text ++ s → v = w ∧ r = s) : Apart v :=
  fun w hw => h w _ hw (form_displayAt hw)

/-- A value shown as a word is told apart: from other words by where they end, and
    from texts and lists by how they begin. -/
theorem apart_of_word {v : Value} (hv : Word v (displayAt .inList v).toList) : Apart v := by
  apply apart_of_form
  intro w text hw hform r s hr hs h
  cases hform with
  | word hword =>
      have hparts := span_inj hv.inside hword.inside hr hs h
      exact ⟨hv.value_eq hword hparts.1, hparts.2⟩
  | quoted other =>
      rw [Text.Quoted.toList_encode] at h
      exact absurd h (hv.append_ne rfl _ _)
  | bracketed items => exact absurd h (hv.append_ne rfl _ _)

/-- A text is told apart: from other texts by the quote that ends it, and from
    words and lists by the one that it begins with. -/
theorem apart_str (value : String) : Apart (str value) := by
  apply apart_of_form
  intro w text hw hform r s hr hs h
  have hquoted : displayAt .inList (str value) = Text.Quoted.encode value := rfl
  rw [hquoted] at h
  cases hform with
  | word hword =>
      rw [Text.Quoted.toList_encode] at h
      exact absurd h.symm (hword.append_ne rfl _ _)
  | quoted other =>
      -- What follows a text may begin as it will, since the quote ends it.
      have hparts := Text.Quoted.encode_append_inj h
      exact ⟨congrArg str hparts.1, hparts.2⟩
  | bracketed items =>
      rw [Text.Quoted.toList_encode] at h
      exact absurd (List.cons.inj h).1 (by decide)

/-- A list is told apart if its items are: from other lists by them, and from words
    and texts by the bracket that it begins with. -/
theorem apart_list {items : List Value} (hitems : ∀ item ∈ items, Plain item)
    (hapart : ∀ item ∈ items, Apart item) : Apart (list items) := by
  apply apart_of_form
  intro w text hw hform r s hr hs h
  rw [toList_displayAt_list] at h
  cases hform with
  | word hword => exact absurd h.symm (hword.append_ne rfl _ _)
  | quoted other =>
      rw [Text.Quoted.toList_encode] at h
      exact absurd (List.cons.inj h).1 (by decide)
  | bracketed others =>
      -- The brackets are not compared as such; the items say where they are.
      cases hw with
      | list hothers =>
          have hparts := items_append_inj hitems hothers hapart (List.cons.inj h).2
          exact ⟨congrArg list hparts.1, hparts.2⟩

/-- Plain values are told apart, at any depth. -/
theorem Plain.apart {value : Value} (h : Plain value) : Apart value := by
  induction h with
  | int value => exact apart_of_word (Word.int value)
  | bool value => exact apart_of_word (Word.bool value)
  | str value => exact apart_str value
  | list hitems ih => exact apart_list hitems ih

/-- A plain value equals itself, since there is no float in it. -/
theorem Plain.same_self {value : Value} (h : Plain value) : value.same value = true := by
  induction h with
  | int value => exact beq_self_eq_true value
  | bool value => exact beq_self_eq_true value
  | str value => exact beq_self_eq_true value
  | @list items hitems ih =>
      -- The items are compared one by one, and that each equals itself is known.
      unfold same
      clear hitems
      induction items with
      | nil => rfl
      | cons item items ihitems =>
          rw [List.forall_mem_cons] at ih
          rw [sameAll, ih.1, ihitems ih.2]
          rfl

/-- Plain lists that are shown alike are the same list. Their texts are the same
    with nothing behind them, which is one case of being told apart. On their
    own, values are not told apart, since a text that is not in a list has no
    quotes; the list around them is what makes the text unambiguous. -/
theorem display_injective {as bs : List Value} (has : Plain (list as)) (hbs : Plain (list bs))
    (h : display (list as) = display (list bs)) :
    list as = list bs ∧ (list as).same (list bs) = true := by
  have hends : ItemEnds [] := by
    intro c hc
    cases hc
  have htext : (displayAt .inList (list as)).toList ++ [] =
      (displayAt .inList (list bs)).toList ++ [] := by
    rw [displayAt_list, displayAt_list, h]
  have hsame := (has.apart (list bs) hbs [] [] hends hends htext).1
  rw [← hsame]
  exact ⟨rfl, has.same_self⟩

/-- A text that looks like the items of a list stays one item. -/
theorem display_injective_brackets :
    Plain (list [str "1, [\"", list [int 1, bool true]]) ∧
    display (list [str "1, [\"", list [int 1, bool true]]) = "[\"1, [\\\"\", [1, true]]" ∧
    (list [str "1, [\"", list [int 1, bool true]]).same
      (list [str "1, [\"", list [int 1, bool true]]) = true := by
  have hplain : Plain (list [str "1, [\"", list [int 1, bool true]]) := by
    refine Plain.list (List.forall_mem_cons.mpr ⟨Plain.str _, List.forall_mem_singleton.mpr ?_⟩)
    exact Plain.list (List.forall_mem_cons.mpr ⟨Plain.int 1,
      List.forall_mem_singleton.mpr (Plain.bool true)⟩)
  exact ⟨hplain, by rfl, (display_injective hplain hplain rfl).2⟩

end Value

end AttrExpr
