import AttrExpr.Proofs.Parse.Derivation
import Mathlib.Data.List.Induction
import Mathlib.Data.Nat.Digits.Defs

/-!
# What a Number Token Comes to

The one verdict on a token that has to be a number.

A token that begins with a digit, or with a minus sign and more, is a number or
an error, and it is read as far as the first character that cannot be part of a
number. What cannot be depends on what came before: a point is fine as long as
there was none. So the faults compete, and the earliest offence decides, with a
text that ends in the offending character. Only a token without an offence has
a value, and even then it may be too large, or have no digit at all.

None of this needs to know how the token is scanned. The verdict is given by
the positions of the offences, and the value by the weights of the digits.

## Main definitions

* `Offends`, `Unspoiled`: Characters that cannot follow, and texts without any.
* `FirstOffence`: Where a text is spoiled.
* `decimalValue`: The value of digits by their weights.
* `Verdict`: What a token comes to.
* `located`: What a verdict is as the result of reading a node.

## Theorems

* `decimalValue_eq`: Digits are read as the value they have.
* `verdict_iff`: A token has one verdict, the one it is read with.
* `read_verdict`: Wherever the token stands, its verdict is what is read.
-/

namespace AttrExpr

namespace Parse

/-- A token begins like a number: with a digit, or with a sign and more. A lone
    minus is a symbol, so a token that begins otherwise has no verdict. -/
def Starts (first : Char) (tail : List Char) : Prop :=
  first.isDigit = true ∨ first = '-' ∧ tail ≠ []

/-- A character that cannot follow `before` in a number: it is no digit, and
    if it is a point then it is not the first one. A sign offends too, since
    the one a number may have is not part of what is looked at here. -/
def Offends (before : List Char) (c : Char) : Prop :=
  c.isDigit = false ∧ (c = '.' → '.' ∈ before)

/-- A text in which no character offends. It is stated of every way to split
    the text, so that it says of each character what comes before it. -/
def Unspoiled (text : List Char) : Prop :=
  ∀ before c after, text = before ++ c :: after → ¬Offends before c

/-- The first character of a text that offends, and what comes before it. There
    is at most one such place, which is what makes the verdict unique. -/
structure FirstOffence (text before : List Char) (c : Char) : Prop where
  split : ∃ after, text = before ++ c :: after
  unspoiled : Unspoiled before
  offends : Offends before c

/-- The value of digits, the last one counting ones. The reader computes it from
    the front, as it goes; `decimalValue_eq` says that this is the same. -/
def decimalValue (digits : List Char) : Nat :=
  Nat.ofDigits 10 (digits.reverse.map fun c => c.toNat - '0'.toNat)

/-- The first character of a token, if it is not the sign. Digits of the token
    are these and the ones in its tail. -/
def lead (first : Char) : List Char := if first = '-' then [] else [first]

/-- The value under the sign that the first character of a token is. It is used
    for integers, before their range is looked at, and for floats. -/
def signed {α : Type} [Neg α] (first : Char) (magnitude : α) : α :=
  if first = '-' then -magnitude else magnitude

/-- The integer that a token without a point writes, however large. -/
def wholeValue (first : Char) (tail : List Char) : Int :=
  signed first (decimalValue (lead first ++ tail) : Int)

/-- What a token comes to that begins with `first`, which is a digit or the
    sign, and goes on with `tail`. A fault comes with the text it shows. The
    first two cases end at the offending character and say nothing about what
    follows it; the other four are about tokens without an offence. -/
inductive Verdict (first : Char) (tail : List Char) : Except BadNumber Number → Prop
  | secondPoint {before : List Char} (h : FirstOffence tail before '.') :
      Verdict first tail (.error (.extraDecimalPoint, first :: (before ++ ['.'])))
  | foreign {before : List Char} {c : Char} (h : FirstOffence tail before c) (hc : c ≠ '.') :
      Verdict first tail (.error (.malformed, first :: (before ++ [c])))
  | integer {value : Int64} (h : Unspoiled tail) (hpoint : '.' ∉ tail)
      (hvalue : value.toInt = wholeValue first tail) : Verdict first tail (.ok (.int value))
  | tooLarge (h : Unspoiled tail) (hpoint : '.' ∉ tail)
      (hrange : ¬(-2 ^ 63 ≤ wholeValue first tail ∧ wholeValue first tail ≤ 2 ^ 63 - 1)) :
      Verdict first tail (.error (.tooLarge, first :: tail))
  | float {whole fraction : List Char} (h : Unspoiled tail)
      (hpoint : tail = whole ++ '.' :: fraction) (hdigit : ∃ c ∈ first :: tail, c.isDigit = true) :
      Verdict first tail (.ok (.float (signed first
        (Decimal.mk (decimalValue (lead first ++ whole ++ fraction)) (-fraction.length)).toFloat)))
  | noDigit (h : Unspoiled tail) (hpoint : '.' ∈ tail)
      (hdigit : ∀ c ∈ first :: tail, c.isDigit = false) :
      Verdict first tail (.error (.malformed, first :: tail))

/-- What reading a node comes to at a token with a verdict. A number ends with
    its token, and a fault with the text it shows. -/
def located (offset : Nat) (token rest : List Char) : Except BadNumber Number → Progress Node
  | .ok value =>
      .ok (.number value (Span.ofRange offset (offset + Text.byteLength token)),
        ⟨rest, offset + Text.byteLength token⟩)
  | .error (fault, seen) =>
      .error ⟨.number fault (String.ofList seen),
        Span.ofRange offset (offset + Text.byteLength seen)⟩

/-! ## Values -/

/-- Digits are read as the value they have. The induction is from the last
    digit, which is the first of the weights and the last that is read. -/
theorem decimalValue_eq (digits : List Char) :
    decimalValue digits = Nat.ofDigitChars 10 digits 0 := by
  induction digits using List.reverseRecOn with
  | nil => rfl
  | append_singleton digits c ih =>
      rw [Nat.ofDigitChars_append, Nat.ofDigitChars_cons, Nat.ofDigitChars_nil, ← ih, decimalValue,
        decimalValue, List.reverse_append, List.reverse_singleton, List.singleton_append,
        List.map_cons, Nat.ofDigits_cons]
      exact Nat.add_comm _ _

/-! ## Offences -/

section

variable {text whole fraction : List Char}

theorem isDigit_point : Char.isDigit '.' = false := by decide

/-- Without a point only digits do not offend. It is the first half of reading
    `Unspoiled` as the shapes that the reader knows. -/
theorem digits_of_unspoiled (h : Unspoiled text) (hpoint : '.' ∉ text) : Digits text := by
  intro c hc
  rcases List.append_of_mem hc with ⟨before, after, rfl⟩
  refine Bool.of_not_eq_false fun hdigit => h before c after rfl ⟨hdigit, ?_⟩
  rintro rfl
  exact absurd hc hpoint

/-- Around its first point an unspoiled text has digits only. -/
theorem digits_of_unspoiled_point (h : Unspoiled (whole ++ '.' :: fraction)) :
    Digits whole ∧ Digits fraction := by
  have hfirst : '.' ∉ whole := fun hmem => h whole '.' fraction rfl ⟨isDigit_point, fun _ => hmem⟩
  constructor
  · -- A split of the digits in front is a split of the whole text.
    have hunspoiled : Unspoiled whole := by
      intro before c after hwhole
      have hsplit : whole ++ '.' :: fraction = before ++ c :: (after ++ '.' :: fraction) := by
        rw [hwhole, List.append_assoc, List.cons_append]
      exact h before c (after ++ '.' :: fraction) hsplit
    exact digits_of_unspoiled hunspoiled hfirst
  · -- Behind the point there is one already, so any other would offend.
    intro c hc
    rcases List.append_of_mem hc with ⟨before, after, rfl⟩
    have hsplit : whole ++ '.' :: (before ++ c :: after) =
        (whole ++ '.' :: before) ++ c :: after := by
      rw [List.append_assoc, List.cons_append]
    have hpoint : '.' ∈ whole ++ '.' :: before := List.mem_append_right whole List.mem_cons_self
    exact Bool.of_not_eq_false fun hdigit => h _ c after hsplit ⟨hdigit, fun _ => hpoint⟩

theorem unspoiled_of_digits (h : Digits text) : Unspoiled text := by
  rintro before c after rfl ⟨hdigit, _⟩
  rw [h c (List.mem_append_right before List.mem_cons_self)] at hdigit
  cases hdigit

theorem Digits.point_not_mem (h : Digits text) : '.' ∉ text := by
  intro hmem
  cases h '.' hmem

theorem Digits.eq_nil (h : Digits text) (hnone : ∀ c ∈ text, c.isDigit = false) : text = [] := by
  cases text with
  | nil => rfl
  | cons c text => cases (h c List.mem_cons_self).symm.trans (hnone c List.mem_cons_self)

/-- One point among digits does not offend. The place that would offend is the
    point itself, in the digits before it, or in those behind it. -/
theorem unspoiled_of_point (hwhole : Digits whole) (hfraction : Digits fraction) :
    Unspoiled (whole ++ '.' :: fraction) := by
  rintro before c after htext ⟨hdigit, hpoint⟩
  have hdigits : ∀ digits, Digits digits → c ∉ digits := by
    intro digits h hmem
    rw [h c hmem] at hdigit
    cases hdigit
  -- A point that offends would be a second one.
  have hsecond : c = '.' → before ≠ whole := by
    rintro hc rfl
    exact hwhole.point_not_mem (hpoint hc)
  rcases List.append_eq_append_iff.mp htext with ⟨between, hbefore, hrest⟩ |
    ⟨between, hbefore, hrest⟩
  · rcases between with _ | ⟨d, between⟩
    · rw [List.nil_append, List.cons.injEq] at hrest
      exact hsecond hrest.1.symm (by rw [hbefore, List.append_nil])
    · -- Behind the point.
      rw [List.cons_append, List.cons.injEq] at hrest
      have hmem : c ∈ fraction := by
        rw [hrest.2]
        exact List.mem_append_right between List.mem_cons_self
      exact hdigits fraction hfraction hmem
  · rcases between with _ | ⟨d, between⟩
    · rw [List.nil_append, List.cons.injEq] at hrest
      exact hsecond hrest.1 (by rw [hbefore, List.append_nil])
    · -- In front of the point.
      rw [List.cons_append, List.cons.injEq] at hrest
      have hmem : c ∈ whole := by
        rw [hbefore, hrest.1]
        exact List.mem_append_right before List.mem_cons_self
      exact hdigits whole hwhole hmem

/-- A text that was not spoiled is not spoiled by a character that does not
    offend. It is the step for whoever scans a token from the front. -/
theorem Unspoiled.snoc {c : Char} (h : Unspoiled text) (hc : ¬ Offends text c) :
    Unspoiled (text ++ [c]) := by
  intro before d after htext
  -- The character is the last one, or it comes before and is not spoiled.
  rcases List.eq_nil_or_concat after with rfl | ⟨after, last, rfl⟩
  · cases (List.append_inj' htext rfl).1
    cases (List.append_inj' htext rfl).2
    exact hc
  · rw [List.concat_eq_append, ← List.cons_append, ← List.append_assoc] at htext
    exact h before d after (List.append_inj' htext rfl).1

/-- What does not offend is a digit or the first point. -/
theorem cases_of_not_offends {c : Char} (h : ¬ Offends text c) :
    c.isDigit = true ∨ c = '.' ∧ '.' ∉ text := by
  by_cases hdigit : c.isDigit = true
  · exact Or.inl hdigit
  · have hdigit := Bool.eq_false_iff.mpr hdigit
    have hpoint : c = '.' :=
      Decidable.of_not_not fun hne => h ⟨hdigit, fun hc => absurd hc hne⟩
    exact Or.inr ⟨hpoint, fun hmem => h ⟨hdigit, fun _ => hmem⟩⟩

/-- What does not offend is digits, or digits around a point. Both shapes are
    what the equations of `readUnsigned` are about. -/
theorem unspoiled_cases (h : Unspoiled text) :
    Digits text ∨
      ∃ whole fraction, text = whole ++ '.' :: fraction ∧ Digits whole ∧ Digits fraction := by
  by_cases hpoint : '.' ∈ text
  · rcases List.append_of_mem hpoint with ⟨whole, fraction, rfl⟩
    exact Or.inr ⟨whole, fraction, rfl, digits_of_unspoiled_point h⟩
  · exact Or.inl (digits_of_unspoiled h hpoint)

end

/-! ## Signs -/

section

variable {first : Char} {tail : List Char}

/-- The first character of a token is its sign, or it leads the digits. -/
theorem cons_eq_sign_lead (first : Char) (tail : List Char) :
    first :: tail = signText (first == '-') ++ (lead first ++ tail) := by
  by_cases hminus : first = '-'
  · subst hminus
    rfl
  · rw [lead, if_neg hminus, beq_eq_false_iff_ne.mpr hminus]
    rfl

/-- Reading a token is reading its digits under its sign. -/
theorem readNumber_cons (first : Char) (tail : List Char) :
    readNumber (first :: tail) = readUnsigned (signText (first == '-')) (lead first ++ tail) := by
  rw [cons_eq_sign_lead, readNumber_signText]
  by_cases hminus : first = '-'
  · exact Or.inl (beq_iff_eq.mpr hminus)
  · rw [lead, if_neg hminus]
    exact Or.inr fun hhead => hminus (Option.some.inj hhead)

/-- Digits behind the first character of a token are digits together with it,
    unless it is the sign. -/
theorem Digits.lead (h : Starts first tail) {digits : List Char} (hdigits : Digits digits) :
    Digits (lead first ++ digits) := by
  rw [Parse.lead]
  split
  · exact hdigits
  · rename_i hminus
    have hfirst := h.resolve_right fun hsign => hminus hsign.1
    exact List.forall_mem_cons.mpr ⟨hfirst, hdigits⟩

theorem signed_eq {α : Type} [Neg α] (first : Char) (magnitude : α) :
    (if (first == '-') = true then -magnitude else magnitude) = signed first magnitude := by
  simp only [signed, beq_iff_eq]

theorem readInteger_eq_ok (first : Char) (token digits : List Char) {value : Int64}
    (hvalue : value.toInt = signed first (decimalValue digits : Int)) :
    readInteger token (first == '-') digits = .ok (.int value) := by
  rw [readInteger_eq_ok_iff]
  exact ⟨value, rfl, by rw [hvalue, signed_eq, decimalValue_eq]⟩

theorem readInteger_eq_tooLarge (first : Char) (token digits : List Char)
    (hrange : ¬(-2 ^ 63 ≤ signed first (decimalValue digits : Int) ∧
      signed first (decimalValue digits : Int) ≤ 2 ^ 63 - 1)) :
    readInteger token (first == '-') digits = .error (.tooLarge, token) := by
  have hnone : Number.integer? (signed first (decimalValue digits : Int)) = none := if_neg hrange
  rw [decimalValue_eq] at hnone
  simp only [readInteger, signed_eq, hnone]

end

/-! ## The verdict -/

section

variable {first : Char} {tail : List Char}

/-- A sign and a point are all there is to a token with no digit around its
    point. The reader asks whether both lists of digits are empty, and the
    verdict whether there is a digit in the token. -/
theorem digitless_iff {whole fraction : List Char}
    (hstart : Starts first (whole ++ '.' :: fraction))
    (hwhole : Digits whole) (hfraction : Digits fraction) :
    lead first ++ whole = [] ∧ fraction = [] ↔
      ∀ c ∈ first :: (whole ++ '.' :: fraction), c.isDigit = false := by
  constructor
  · rintro ⟨hnone, rfl⟩
    rcases List.append_eq_nil_iff.mp hnone with ⟨hlead, rfl⟩
    -- Any other first character would be among the digits.
    have hminus : first = '-' := by
      by_contra hne
      rw [lead, if_neg hne] at hlead
      cases hlead
    subst hminus
    exact List.forall_mem_cons.mpr ⟨rfl, List.forall_mem_singleton.mpr isDigit_point⟩
  · intro hnone
    rw [List.forall_mem_cons, List.forall_mem_append, List.forall_mem_cons] at hnone
    have hminus := hstart.resolve_left (Bool.eq_false_iff.mp hnone.1)
    rw [lead, if_pos hminus.1, List.nil_append]
    exact ⟨hwhole.eq_nil hnone.2.1, hfraction.eq_nil hnone.2.2.2⟩

/-- What a token comes to is what it is read as. There is one case for each
    verdict, in which the text is brought into the shape that an equation of
    `readUnsigned` is about. -/
theorem readNumber_of_verdict (hstart : Starts first tail)
    {outcome : Except BadNumber Number} (h : Verdict first tail outcome) :
    readNumber (first :: tail) = outcome := by
  -- A fault shows the token as it stands, sign included.
  have hshown : ∀ text, signText (first == '-') ++ (lead first ++ text) = first :: text :=
    fun text => (cons_eq_sign_lead first text).symm
  rw [readNumber_cons]
  cases h with
  | @secondPoint before h =>
      rcases h.split with ⟨after, rfl⟩
      -- A point offends only behind another one.
      rcases unspoiled_cases h.unspoiled with hdigits | ⟨whole, fraction, rfl, hwhole, hfraction⟩
      · exact absurd (h.offends.2 rfl) hdigits.point_not_mem
      · simp only [List.append_assoc, List.cons_append]
        rw [← List.append_assoc (lead first), readUnsigned_twoPoints (hwhole.lead hstart) hfraction]
        simp only [List.append_assoc, List.cons_append, hshown]
  | @foreign before c h hc =>
      rcases h.split with ⟨after, rfl⟩
      have hdigit := h.offends.1
      -- The reader stops in the digits or, behind a point, in the fraction.
      rcases unspoiled_cases h.unspoiled with hdigits | ⟨whole, fraction, rfl, hwhole, hfraction⟩
      · rw [← List.append_assoc, readUnsigned_malformed (hdigits.lead hstart) hdigit hc]
        simp only [List.cons_append, hshown]
      · simp only [List.append_assoc, List.cons_append]
        rw [← List.append_assoc (lead first),
          readUnsigned_malformedFraction (hwhole.lead hstart) hfraction hdigit hc]
        simp only [List.append_assoc, List.cons_append, hshown]
  | integer h hpoint hvalue =>
      rw [readUnsigned_digits ((digits_of_unspoiled h hpoint).lead hstart), signText_bne_nil,
        readInteger_eq_ok first _ _ hvalue]
  | tooLarge h hpoint hrange =>
      rw [readUnsigned_digits ((digits_of_unspoiled h hpoint).lead hstart), signText_bne_nil,
        readInteger_eq_tooLarge first _ _ hrange, hshown]
  | @float whole fraction h hpoint hdigit =>
      subst hpoint
      rcases digits_of_unspoiled_point h with ⟨hwhole, hfraction⟩
      have hboth : ¬(lead first ++ whole = [] ∧ fraction = []) := by
        rw [digitless_iff hstart hwhole hfraction]
        rcases hdigit with ⟨c, hc, hdigit⟩
        exact fun hnone => Bool.eq_false_iff.mp (hnone c hc) hdigit
      rw [← List.append_assoc, readUnsigned_point (hwhole.lead hstart) hfraction, if_neg hboth,
        signText_bne_nil, readFloat, signed_eq, Decimal.ofDigits, ← decimalValue_eq]
  | noDigit h hpoint hdigit =>
      rcases unspoiled_cases h with hdigits | ⟨whole, fraction, rfl, hwhole, hfraction⟩
      · exact absurd hpoint hdigits.point_not_mem
      · have hboth := (digitless_iff hstart hwhole hfraction).mpr hdigit
        rw [← List.append_assoc, readUnsigned_point (hwhole.lead hstart) hfraction, if_pos hboth]
        simp only [List.cons_append, hshown]

/-- Every token comes to something. The five shapes of a text are the ones that
    reading distinguishes, so none is left without a verdict. -/
theorem exists_verdict (hstart : Starts first tail) :
    ∃ outcome, Verdict first tail outcome := by
  rcases unsigned_cases tail with hdigits | ⟨whole, fraction, rfl, hwhole, hfraction⟩ |
    ⟨whole, fraction, rest, rfl, hwhole, hfraction⟩ | ⟨whole, c, rest, rfl, hwhole, hc, hpoint⟩ |
    ⟨whole, fraction, c, rest, rfl, hwhole, hfraction, hc, hpoint⟩
  · -- Digits only: an integer, in range or not.
    have hunspoiled := unspoiled_of_digits hdigits
    by_cases hrange : -2 ^ 63 ≤ wholeValue first tail ∧ wholeValue first tail ≤ 2 ^ 63 - 1
    · have hvalue : (Int64.ofInt (wholeValue first tail)).toInt = wholeValue first tail :=
        Int64.toInt_ofInt_of_le hrange.1 (Int.lt_add_one_of_le hrange.2)
      exact ⟨_, .integer hunspoiled hdigits.point_not_mem hvalue⟩
    · exact ⟨_, .tooLarge hunspoiled hdigits.point_not_mem hrange⟩
  · -- One point: a float, if there is a digit.
    have hunspoiled := unspoiled_of_point hwhole hfraction
    by_cases hdigit : ∃ c ∈ first :: (whole ++ '.' :: fraction), c.isDigit = true
    · exact ⟨_, .float hunspoiled rfl hdigit⟩
    · have hmem : '.' ∈ whole ++ '.' :: fraction := List.mem_append_right whole List.mem_cons_self
      have hnone : ∀ c ∈ first :: (whole ++ '.' :: fraction), c.isDigit = false :=
        fun c hc => Bool.eq_false_iff.mpr fun hd => hdigit ⟨c, hc, hd⟩
      exact ⟨_, .noDigit hunspoiled hmem hnone⟩
  · -- A second point.
    have hfirst : FirstOffence (whole ++ '.' :: (fraction ++ '.' :: rest))
        (whole ++ '.' :: fraction) '.' := {
      split := ⟨rest, by rw [List.append_assoc, List.cons_append]⟩
      unspoiled := unspoiled_of_point hwhole hfraction
      offends := ⟨isDigit_point, fun _ => List.mem_append_right whole List.mem_cons_self⟩ }
    exact ⟨_, .secondPoint hfirst⟩
  · -- Some other character, before any point.
    have hfirst : FirstOffence (whole ++ c :: rest) whole c := {
      split := ⟨rest, rfl⟩
      unspoiled := unspoiled_of_digits hwhole
      offends := ⟨hc, fun h => absurd h hpoint⟩ }
    exact ⟨_, .foreign hfirst hpoint⟩
  · -- Some other character, behind the point.
    have hfirst : FirstOffence (whole ++ '.' :: (fraction ++ c :: rest))
        (whole ++ '.' :: fraction) c := {
      split := ⟨rest, by rw [List.append_assoc, List.cons_append]⟩
      unspoiled := unspoiled_of_point hwhole hfraction
      offends := ⟨hc, fun h => absurd h hpoint⟩ }
    exact ⟨_, .foreign hfirst hpoint⟩

/-- Without an offence a fault is one of the whole token, and shows it. So a
    scan that passes the token knows what text to cut out, also for a fault
    that only the value reveals. -/
theorem seen_of_unspoiled (hstart : Starts first tail) (h : Unspoiled tail) {fault : NumberFault}
    {seen : List Char} (hread : readNumber (first :: tail) = .error (fault, seen)) :
    seen = first :: tail := by
  rcases exists_verdict hstart with ⟨outcome, hverdict⟩
  cases (readNumber_of_verdict hstart hverdict).symm.trans hread
  have hnone : ∀ before c, ¬ FirstOffence tail before c := by
    intro before c hfirst
    rcases hfirst.split with ⟨after, hsplit⟩
    exact h before c after hsplit hfirst.offends
  cases hverdict with
  | secondPoint hfirst => exact absurd hfirst (hnone _ _)
  | foreign hfirst => exact absurd hfirst (hnone _ _)
  | tooLarge => rfl
  | noDigit => rfl

/-- A token comes to one thing, which is what it is read as. Uniqueness is for
    free: reading is a function, and every verdict is what it gives. -/
theorem verdict_iff (hstart : Starts first tail) {outcome : Except BadNumber Number} :
    Verdict first tail outcome ↔ outcome = readNumber (first :: tail) := by
  rcases exists_verdict hstart with ⟨verdict, hverdict⟩
  constructor
  · exact fun h => (readNumber_of_verdict hstart h).symm
  · rintro rfl
    rwa [readNumber_of_verdict hstart hverdict]

end

/-! ## Reading -/

section

variable {first : Char} {tail : List Char}

theorem startsNumber_cons (hstart : Starts first tail) : startsNumber (first :: tail) = true := by
  rw [startsNumber_eq_true_iff]
  rcases hstart with hdigit | ⟨rfl, hne⟩
  · exact ⟨false, first :: tail, rfl, List.cons_ne_nil _ _, Or.inr ⟨first, rfl, hdigit⟩⟩
  · exact ⟨true, tail, rfl, hne, Or.inl rfl⟩

theorem startsNumber_cons_iff : startsNumber (first :: tail) = true ↔ Starts first tail := by
  refine ⟨fun h => ?_, startsNumber_cons⟩
  -- The sign that was taken off is the first character, or there was none.
  rcases startsNumber_eq_true_iff.mp h with ⟨negative, unsigned, htoken, hne, hhead⟩
  cases negative with
  | true =>
      cases htoken
      exact Or.inr ⟨rfl, hne⟩
  | false =>
      cases htoken
      rcases hhead with hfalse | ⟨c, hc, hdigit⟩
      · cases hfalse
      · cases hc
        exact Or.inl hdigit

/-- Wherever a token stands, reading it locates what it comes to. Neither the
    offset nor what is behind the token takes part in the verdict. -/
theorem readToken_located (hstart : Starts first tail)
    (hinside : ∀ c ∈ first :: tail, isDelimiter c = false) (offset : Nat) {rest : List Char}
    (hends : TokenEnds rest) :
    readToken ⟨first :: tail ++ rest, offset⟩ =
      located offset (first :: tail) rest (readNumber (first :: tail)) := by
  -- The token is cut out first, and all the rest is about its characters.
  rcases token_append offset hinside hends with ⟨htoken, hpast⟩
  have hnumber := startsNumber_cons hstart
  rw [← htoken] at hnumber
  cases hread : readNumber (first :: tail) with
  | ok value =>
      rw [readToken_number hnumber (by rw [htoken, hread]), hpast]
      rfl
  | error bad =>
      rcases bad with ⟨fault, seen⟩
      rw [readToken_badNumber hnumber (by rw [htoken, hread])]
      rfl

/-- Whoever reads the groups, a token is read as a token: a character that
    begins a number opens neither a group nor a string. -/
theorem readNodeWith_located (hstart : Starts first tail)
    (hinside : ∀ c ∈ first :: tail, isDelimiter c = false) (offset : Nat) {rest : List Char}
    (hends : TokenEnds rest)
    (readGroup : Enclosure → List Node → Input → Progress (List Node)) :
    readNodeWith readGroup ⟨first :: tail ++ rest, offset⟩ =
      located offset (first :: tail) rest (readNumber (first :: tail)) := by
  have hquote : first ≠ '\'' := by
    rintro rfl
    exact head?_ne_quote_of_startsNumber (startsNumber_cons hstart) rfl
  have hopening := (isDelimiter_eq_false_iff.mp (hinside first List.mem_cons_self)).2.1
  rw [← readToken_located hstart hinside offset hends]
  simp only [readNodeWith, List.cons_append, hopening, if_neg hquote]

/-- A text that is a token comes to what the token does. It is the case in which
    the token is ended by the end of the text. -/
theorem parse_located (hstart : Starts first tail)
    (hinside : ∀ c ∈ first :: tail, isDelimiter c = false) :
    parse (String.ofList (first :: tail)) =
      (located 0 (first :: tail) [] (readNumber (first :: tail))).map fun read => [read.1] := by
  have hat := atNode_append [] 0 (List.cons_ne_nil first tail) hinside
  have hone : readOne ⟨first :: tail ++ [], 0⟩ =
      located 0 (first :: tail) [] (readNumber (first :: tail)) :=
    readNodeWith_located hstart hinside 0 tokenEnds_nil _
  have hinput : Input.ofString (String.ofList (first :: tail)) = ⟨first :: tail ++ [], 0⟩ := by
    rw [Input.ofString, String.toList_ofList, List.append_nil]
  rw [parse_eq_readAll, hinput]
  cases hread : readNumber (first :: tail) with
  | ok value =>
      rw [hread] at hone
      rw [readAll_node hat hone, readAll_end rfl]
      rfl
  -- A bad token is the first thing read, so nothing comes before its fault.
  | error bad =>
      rw [hread] at hone
      rw [readAll_badNode hat hone]
      rfl

end

/-- A token that has to be a number has one verdict, and wherever it stands
    that is what it is read as. The verdict is told by the characters of the
    token alone, while the place only moves the spans; in a text by itself the
    token is the one node, or its fault is the fault of the text. -/
theorem read_verdict {first : Char} {tail : List Char} (hstart : Starts first tail)
    (hinside : ∀ c ∈ first :: tail, isDelimiter c = false) :
    ∃ outcome, (∀ other, Verdict first tail other ↔ other = outcome) ∧
      (∀ bound offset rest, TokenEnds rest →
        readNode bound ⟨first :: tail ++ rest, offset⟩ =
          located offset (first :: tail) rest outcome) ∧
      parse (String.ofList (first :: tail)) =
        (located 0 (first :: tail) [] outcome).map fun read => [read.1] :=
  ⟨readNumber (first :: tail), fun _ => verdict_iff hstart,
    fun bound offset _ hends => readNodeWith_located hstart hinside offset hends (readNodes bound),
    parse_located hstart hinside⟩

/-- The second point comes before the letter. -/
theorem read_verdict_secondPoint : Starts '-' "1.2.x".toList ∧
    (∀ c ∈ "-1.2.x".toList, isDelimiter c = false) ∧
    Verdict '-' "1.2.x".toList (.error (.extraDecimalPoint, "-1.2.".toList)) ∧
    (∀ other, Verdict '-' "1.2.x".toList other →
      other = .error (.extraDecimalPoint, "-1.2.".toList)) ∧
    readNode 0 ⟨"-1.2.x)".toList, 7⟩ =
      .error ⟨.number .extraDecimalPoint "-1.2.", Span.ofRange 7 12⟩ ∧
    parse "-1.2.x" = .error ⟨.number .extraDecimalPoint "-1.2.", Span.ofRange 0 5⟩ := by
  have hstart : Starts '-' "1.2.x".toList := Or.inr ⟨rfl, by decide⟩
  have hinside : ∀ c ∈ "-1.2.x".toList, isDelimiter c = false := inside_of_all (by decide)
  have hends : TokenEnds [')'] := tokenEnds_closing .round []
  have hverdict : Verdict '-' "1.2.x".toList (.error (.extraDecimalPoint, "-1.2.".toList)) :=
    (verdict_iff hstart).mpr (by rfl)
  rcases read_verdict hstart hinside with ⟨outcome, honly, hread, hparse⟩
  -- There is one verdict only, so the outcome is the one just given.
  cases (honly _).mp hverdict
  exact ⟨hstart, hinside, hverdict, fun other => (honly other).mp, hread 0 7 [')'] hends, hparse⟩

end Parse

end AttrExpr
