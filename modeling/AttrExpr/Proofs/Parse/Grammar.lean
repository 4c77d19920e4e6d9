import AttrExpr.Proofs.Parse.Unbounded

/-!
# The Grammar of Expressions

Which texts write which nodes, said without a reader.

A text writes a sequence of nodes if it can be cut into blanks, leaves and
groups, each group being a sequence between two brackets of one kind. There is
nothing to choose: a leaf that is a token has to go on up to the next
delimiter, so the cut is the same however it is found. `Sequence` derives a
text together with its nodes and their spans. How a span is recorded is a
parameter, `locate`, because a reader pushes spans back into a limit and the
grammar has no reason to know about it.

The rules for leaves are stated on the characters of the leaf alone. A quote
in the body of a string has a backslash in front of it, a symbol does not
begin like a number, and a number is an optional sign, digits and at most one
point. What follows matters only in that a token must not be cut short.

## Main definitions

* `StringBody`: The characters that may stand between two quotes.
* `SymbolToken`: The tokens that are names.
* `Numeral`: The tokens that are numbers, and the numbers.
* `Leaf`: A string, a symbol or a number, and the node it writes.
* `Sequence`: A text and the nodes it writes.

## Theorems

* `closeString?_eq_some_iff`: A string is closed exactly behind a body.
* `readNumber_of_numeral`, `numeral_of_readNumber`: A token reads as the number
  it writes.
* `readOne_of_leaf`, `leaf_of_readOne`: Reading a leaf is deriving it.
-/

namespace AttrExpr

namespace Parse

/-- Nothing that would make a token longer follows: the text is over or goes
    on with a delimiter. Only the first character behind a token decides it, so
    the rest of the text may be anything. -/
def TokenEnds (rest : List Char) : Prop := ∀ c, rest.head? = some c → isDelimiter c = true

/-- The characters between the two quotes of a string. Every quote among them
    comes right after a backslash, and the last of them is no backslash, which
    would keep the closing quote from closing. -/
structure StringBody (body : List Char) : Prop where
  escaped : ∀ before after, body = before ++ '\'' :: after → before.getLast? = some '\\'
  closable : body.getLast? ≠ some '\\'

/-- The tokens that are names. One that begins with a minus sign is nothing
    else, since a minus sign with anything behind it has to be a number. A quote
    is only excluded from the front, where it would begin a string. -/
structure SymbolToken (token : List Char) : Prop where
  nonempty : token ≠ []
  inside : ∀ c ∈ token, isDelimiter c = false
  notQuote : token.head? ≠ some '\''
  notDigit : ∀ c, token.head? = some c → c.isDigit = false
  minus : token.head? = some '-' → token = ['-']

/-- A run of decimal digits, possibly of none. Either side of a point may be
    empty, which is why the two have to be told apart from no number at all. -/
def Digits (digits : List Char) : Prop := ∀ c ∈ digits, c.isDigit = true

/-- The sign in front of a number. -/
def signText (negative : Bool) : List Char := if negative then ['-'] else []

/-- The tokens that are numbers. An integer is written by digits and has to
    fit; a float has a point among its digits, and it does not begin with the
    point unless it is signed. -/
inductive Numeral : List Char → Number → Prop
  | integer (negative : Bool) {digits : List Char} {value : Int64} (hne : digits ≠ [])
      (hdigits : Digits digits)
      (hvalue : value.toInt = if negative then -(Nat.ofDigitChars 10 digits 0 : Int)
        else Nat.ofDigitChars 10 digits 0) :
      Numeral (signText negative ++ digits) (.int value)
  | float (negative : Bool) {whole fraction : List Char} (hwhole : Digits whole)
      (hfraction : Digits fraction) (hstart : negative = true ∨ whole ≠ [])
      (hne : whole ≠ [] ∨ fraction ≠ []) :
      Numeral (signText negative ++ (whole ++ '.' :: fraction))
        (.float (if negative then -(Decimal.ofDigits whole fraction).toFloat
          else (Decimal.ofDigits whole fraction).toFloat))

/-- The nodes without children: `Leaf span token rest node` says that `token`,
    followed by `rest`, writes `node`, whose span is `span`. A string ends with
    its quote, so nothing is asked of what follows it, and the next leaf may
    begin right there. -/
inductive Leaf (span : Span) : List Char → List Char → Node → Prop
  | string {body rest : List Char} (hbody : StringBody body) :
      Leaf span ('\'' :: (body ++ ['\''])) rest
        (.string (String.ofList (body.filter fun c => c ≠ '\\')) span)
  | symbol {token rest : List Char} (htoken : SymbolToken token) (hends : TokenEnds rest) :
      Leaf span token rest (.symbol (String.ofList token) span)
  | number {token rest : List Char} {value : Number} (hvalue : Numeral token value)
      (hends : TokenEnds rest) :
      Leaf span token rest (.number value span)

/-- The texts that write a sequence of nodes: `Sequence locate start text nodes`
    says that `text`, standing at the byte `start`, writes `nodes`. The places of
    the rules are counted in bytes from `start` on, and none of them is looked
    at. A group takes the sequence between its brackets as it is, with no
    condition on what stands on either side of a bracket. -/
inductive Sequence (locate : Nat → Nat → Span) : Nat → List Char → List Node → Prop
  | nil (start : Nat) : Sequence locate start [] []
  | blank {start : Nat} {c : Char} {text : List Char} {nodes : List Node}
      (hblank : isBlank c = true) (htext : Sequence locate (start + c.utf8Size) text nodes) :
      Sequence locate start (c :: text) nodes
  | leaf {start : Nat} {token rest : List Char} {node : Node} {nodes : List Node}
      (hleaf : Leaf (locate start (start + Text.byteLength token)) token rest node)
      (hrest : Sequence locate (start + Text.byteLength token) rest nodes) :
      Sequence locate start (token ++ rest) (node :: nodes)
  | group {start : Nat} (bracket : Bracket) {body rest : List Char} {children nodes : List Node}
      (hbody : Sequence locate (start + 1) body children)
      (hrest : Sequence locate (start + (Text.byteLength body + 2)) rest nodes) :
      Sequence locate start (bracket.opening :: (body ++ bracket.closing :: rest))
        (.group bracket children (locate start (start + (Text.byteLength body + 2))) :: nodes)

/-! ## Brackets -/

section

variable (bracket : Bracket)

-- Four characters are brackets, and all that reading knows of them is checked
-- for the two pairs here and nowhere else.
theorem isDelimiter_opening : isDelimiter bracket.opening = true := by
  cases bracket with
  | round => rfl
  | square => rfl

theorem isDelimiter_closing : isDelimiter bracket.closing = true := by
  cases bracket with
  | round => rfl
  | square => rfl

theorem isBlank_opening : isBlank bracket.opening = false := by
  cases bracket with
  | round => rfl
  | square => rfl

theorem isBlank_closing : isBlank bracket.closing = false := by
  cases bracket with
  | round => rfl
  | square => rfl

theorem ofClosing?_opening : Bracket.ofClosing? bracket.opening = none := by
  cases bracket with
  | round => rfl
  | square => rfl

theorem ofOpening?_closing : Bracket.ofOpening? bracket.closing = none := by
  cases bracket with
  | round => rfl
  | square => rfl

theorem utf8Size_opening : bracket.opening.utf8Size = 1 := by
  cases bracket with
  | round => rfl
  | square => rfl

theorem utf8Size_closing : bracket.closing.utf8Size = 1 := by
  cases bracket with
  | round => rfl
  | square => rfl

theorem toNat_opening_lt : bracket.opening.toNat < 128 := by
  cases bracket with
  | round => decide
  | square => decide

theorem toNat_closing_lt : bracket.closing.toNat < 128 := by
  cases bracket with
  | round => decide
  | square => decide

theorem byteLength_opening : Text.byteLength [bracket.opening] = 1 := by
  rw [Text.byteLength, utf8Size_opening]
  rfl

theorem byteLength_closing : Text.byteLength [bracket.closing] = 1 := by
  rw [Text.byteLength, utf8Size_closing]
  rfl

theorem byteLength_group (body rest : List Char) :
    Text.byteLength (bracket.opening :: (body ++ bracket.closing :: rest)) =
      Text.byteLength body + 2 + Text.byteLength rest := by
  have hopening := utf8Size_opening bracket
  have hclosing := utf8Size_closing bracket
  simp only [Text.byteLength, Text.byteLength_append]
  omega

end

/-- There are four blanks, and each is a single byte that is no bracket. -/
theorem byte_of_isBlank {c : Char} (h : isBlank c = true) :
    c.utf8Size = 1 ∧ Bracket.ofOpening? c = none ∧ Bracket.ofClosing? c = none := by
  simp only [isBlank, Bool.or_eq_true, beq_iff_eq] at h
  rcases h with ((rfl | rfl) | rfl) | rfl
  · exact ⟨rfl, rfl, rfl⟩
  · exact ⟨rfl, rfl, rfl⟩
  · exact ⟨rfl, rfl, rfl⟩
  · exact ⟨rfl, rfl, rfl⟩

/-! ## Strings -/

/-- What `StringBody` comes to when the body is walked from its front, knowing
    whether a backslash stands before it. `StringBody` says it without an order,
    which is what a grammar should do, but there is no induction on it; this is
    the form that the reader of strings goes through. -/
def Closable : (afterBackslash : Bool) → List Char → Prop
  | afterBackslash, [] => afterBackslash = false
  | afterBackslash, c :: cs => (c = '\'' → afterBackslash = true) ∧ Closable (c == '\\') cs

/-- Walking to the closing quote splits the text behind a body that can be walked
    over, and there is only one such place. -/
theorem closeString?_eq_some_iff_closable {afterBackslash : Bool} {cs body rest : List Char} :
    closeString? afterBackslash cs = some (body, rest) ↔
      cs = body ++ '\'' :: rest ∧ Closable afterBackslash body := by
  constructor
  · intro h
    refine ⟨closeString?_eq_append h, ?_⟩
    induction cs generalizing afterBackslash body with
    | nil => simp only [closeString?, reduceCtorEq] at h
    | cons c cs ih =>
        simp only [closeString?] at h
        split at h
        · -- The quote that closes comes behind an empty body.
          rename_i hclose
          cases h
          exact hclose.2
        · rename_i hopen
          simp only [Option.map_eq_some_iff, Prod.mk.injEq] at h
          rcases h with ⟨⟨body', rest'⟩, hclose, rfl, rfl⟩
          exact ⟨fun hc => Bool.of_not_eq_false fun hb => hopen ⟨hc, hb⟩, ih hclose⟩
  · rintro ⟨rfl, hbody⟩
    induction body generalizing afterBackslash with
    | nil =>
        simp only [Closable] at hbody
        simp only [List.nil_append, closeString?, hbody, and_self, if_true]
    | cons c body ih =>
        -- No character of a body closes the string.
        have hopen : ¬ (c = '\'' ∧ afterBackslash = false) := by
          rintro ⟨hc, hb⟩
          rw [hbody.1 hc] at hb
          cases hb
        simp only [List.cons_append, closeString?, if_neg hopen, ih hbody.2, Option.map_some]

/-- Walking the body from its front finds what `StringBody` says, once the
    character in front of the body counts as well. -/
theorem closable_iff {front : Char} {body : List Char} : Closable (front == '\\') body ↔
    (∀ before after, body = before ++ '\'' :: after → (front :: before).getLast? = some '\\') ∧
      (front :: body).getLast? ≠ some '\\' := by
  induction body generalizing front with
  | nil =>
      simp only [Closable, List.getLast?_singleton, ne_eq, Option.some.injEq, beq_eq_false_iff_ne]
      constructor
      · intro h
        -- An empty body has no quote in it.
        have hquotes : ∀ before after, [] = before ++ '\'' :: after →
            (front :: before).getLast? = some '\\' :=
          fun before after hbody => absurd hbody.symm
            (List.append_ne_nil_of_right_ne_nil _ (List.cons_ne_nil _ _))
        exact ⟨hquotes, h⟩
      · exact fun h => h.2
  | cons c cs ih =>
      rw [Closable, ih, List.getLast?_cons_cons, ← and_assoc]
      refine and_congr_left fun _ => ?_
      constructor
      · -- A quote is either the first character or one of the others.
        intro h before after hbody
        cases before with
        | nil =>
            simp only [List.nil_append, List.cons.injEq] at hbody
            rw [List.getLast?_singleton, eq_of_beq (h.1 hbody.1)]
        | cons d before =>
            simp only [List.cons_append, List.cons.injEq] at hbody
            rcases hbody with ⟨rfl, hcs⟩
            rw [List.getLast?_cons_cons]
            exact h.2 before after hcs
      · intro h
        constructor
        · intro hc
          have hfront := h [] cs (by rw [hc, List.nil_append])
          rw [List.getLast?_singleton, Option.some.injEq] at hfront
          exact beq_iff_eq.mpr hfront
        · -- The character walked over stands in front of all that come later.
          intro before after hcs
          have hbefore := h (c :: before) after (by rw [hcs, List.cons_append])
          rwa [List.getLast?_cons_cons] at hbefore

/-- A body that can be walked over from an opening quote is a body of a string:
    the quote in front counts as any character that is no backslash. -/
theorem closable_iff_stringBody {body : List Char} : Closable false body ↔ StringBody body := by
  -- Any character but a backslash may stand in front.
  have hfront : ∀ cs : List Char, (' ' :: cs).getLast? = some '\\' ↔ cs.getLast? = some '\\' := by
    intro cs
    cases cs with
    | nil =>
        constructor
        · intro h
          cases h
        · intro h
          cases h
    | cons c cs => rw [List.getLast?_cons_cons]
  refine (@closable_iff ' ' body).trans ?_
  simp only [hfront, ne_eq]
  exact ⟨fun h => ⟨h.1, h.2⟩, fun h => ⟨h.escaped, h.closable⟩⟩

/-- Behind an opening quote the string is closed exactly behind a body, and the
    text goes on behind the quote that closes it. -/
theorem closeString?_eq_some_iff {cs body rest : List Char} :
    closeString? false cs = some (body, rest) ↔ cs = body ++ '\'' :: rest ∧ StringBody body := by
  rw [closeString?_eq_some_iff_closable, closable_iff_stringBody]

theorem stringValue_eq (body : List Char) :
    stringValue body = String.ofList (body.filter fun c => c ≠ '\\') := by
  rw [stringValue]
  refine congrArg String.ofList (List.filter_congr fun c _ => ?_)
  rw [Bool.eq_iff_iff, bne_iff_ne, decide_eq_true_iff]

/-! ## Runs of characters -/

/-- A run that what follows cannot continue is the longest one, so taking
    characters as long as they belong to it takes the run and leaves what
    follows. -/
theorem span_append {p : Char → Bool} {run : List Char} (rest : List Char)
    (hrun : ∀ c ∈ run, p c = true) (hrest : ∀ c, rest.head? = some c → p c = false) :
    (run ++ rest).takeWhile p = run ∧ (run ++ rest).dropWhile p = rest := by
  have hstop : rest.takeWhile p = [] ∧ rest.dropWhile p = rest := by
    cases rest with
    | nil => exact ⟨rfl, rfl⟩
    | cons c rest =>
        have hc : ¬ p c = true := by
          rw [hrest c rfl]
          exact Bool.false_ne_true
        exact ⟨List.takeWhile_cons_of_neg hc, List.dropWhile_cons_of_neg hc⟩
  rw [List.takeWhile_append_of_pos hrun, List.dropWhile_append_of_pos hrun, hstop.1, hstop.2,
    List.append_nil]
  exact ⟨rfl, rfl⟩

/-- Where runs that cannot be continued are followed by something, the runs and
    what follows are told apart. -/
theorem span_inj {p : Char → Bool} {run other rest rest' : List Char}
    (hrun : ∀ c ∈ run, p c = true) (hother : ∀ c ∈ other, p c = true)
    (hrest : ∀ c, rest.head? = some c → p c = false)
    (hrest' : ∀ c, rest'.head? = some c → p c = false) (h : run ++ rest = other ++ rest') :
    run = other ∧ rest = rest' := by
  have hfirst := span_append rest hrun hrest
  have hsecond := span_append rest' hother hrest'
  rw [h] at hfirst
  exact ⟨hfirst.1.symm.trans hsecond.1, hfirst.2.symm.trans hsecond.2⟩

/-- Runs that end at one character are told apart, since it belongs to neither
    of them. This is how two texts with a separator come apart at the first
    one. -/
theorem cut_inj {p : Char → Bool} {stop : Char} (hstop : p stop = false)
    {run other rest rest' : List Char} (hrun : ∀ c ∈ run, p c = true)
    (hother : ∀ c ∈ other, p c = true) (h : run ++ stop :: rest = other ++ stop :: rest') :
    run = other ∧ rest = rest' := by
  have hhead : ∀ rest : List Char, ∀ c, (stop :: rest).head? = some c → p c = false := by
    rintro rest c ⟨⟩
    exact hstop
  have hparts := span_inj hrun hother (hhead rest) (hhead rest') h
  exact ⟨hparts.1, (List.cons.inj hparts.2).2⟩

/-- Every text begins with a longest run, which may be empty or the whole text.
    Splitting it off is the first step of every case distinction on what a token
    looks like. -/
theorem exists_span (p : Char → Bool) (cs : List Char) : ∃ run rest, cs = run ++ rest ∧
    (∀ c ∈ run, p c = true) ∧ ∀ c, rest.head? = some c → p c = false := by
  have hrun : ∀ c ∈ cs.takeWhile p, p c = true :=
    fun c hc => List.all_eq_true.mp List.all_takeWhile c hc
  have hrest : ∀ c, (cs.dropWhile p).head? = some c → p c = false := by
    intro c hc
    have hhead := List.head?_dropWhile_not p cs
    rw [hc] at hhead
    simpa only [Bool.not_eq_true] using hhead
  exact ⟨cs.takeWhile p, cs.dropWhile p, List.takeWhile_append_dropWhile.symm, hrun, hrest⟩

/-! ## Numbers -/

section

variable {sign whole fraction rest : List Char}

-- One equation for each shape that `unsigned_cases` tells apart. What is read
-- is the digits and the point; the sign is only there to be shown with a fault.
theorem readUnsigned_digits (hwhole : Digits whole) :
    readUnsigned sign whole = readInteger (sign ++ whole) (sign != []) whole := by
  have hspan := span_append [] hwhole (fun c hc => by cases hc)
  rw [List.append_nil] at hspan
  simp only [readUnsigned, hspan.1, hspan.2]

theorem readUnsigned_point (hwhole : Digits whole) (hfraction : Digits fraction) :
    readUnsigned sign (whole ++ '.' :: fraction) =
      if whole = [] ∧ fraction = [] then .error (.malformed, sign ++ whole ++ '.' :: fraction)
      else .ok (readFloat (sign != []) whole fraction) := by
  have hspan := span_append ('.' :: fraction) hwhole (fun c hc => by cases hc; rfl)
  have htail := span_append [] hfraction (fun c hc => by cases hc)
  rw [List.append_nil] at htail
  simp only [readUnsigned, hspan.1, hspan.2, htail.1, htail.2]

theorem readUnsigned_twoPoints (hwhole : Digits whole) (hfraction : Digits fraction) :
    readUnsigned sign (whole ++ '.' :: (fraction ++ '.' :: rest)) =
      .error (.extraDecimalPoint, sign ++ whole ++ '.' :: fraction ++ ['.']) := by
  have hspan := span_append ('.' :: (fraction ++ '.' :: rest)) hwhole
    (fun c hc => by cases hc; rfl)
  have htail := span_append ('.' :: rest) hfraction (fun c hc => by cases hc; rfl)
  simp only [readUnsigned, hspan.1, hspan.2, htail.1, htail.2]

theorem readUnsigned_malformed {c : Char} (hwhole : Digits whole) (hdigit : c.isDigit = false)
    (hpoint : c ≠ '.') :
    readUnsigned sign (whole ++ c :: rest) = .error (.malformed, sign ++ whole ++ [c]) := by
  have hspan := span_append (c :: rest) hwhole (fun d hd => by cases hd; exact hdigit)
  simp only [readUnsigned, hspan.1, hspan.2]

theorem readUnsigned_malformedFraction {c : Char} (hwhole : Digits whole)
    (hfraction : Digits fraction) (hdigit : c.isDigit = false) (hpoint : c ≠ '.') :
    readUnsigned sign (whole ++ '.' :: (fraction ++ c :: rest)) =
      .error (.malformed, sign ++ whole ++ '.' :: fraction ++ [c]) := by
  have hspan := span_append ('.' :: (fraction ++ c :: rest)) hwhole
    (fun d hd => by cases hd; rfl)
  have htail := span_append (c :: rest) hfraction (fun d hd => by cases hd; exact hdigit)
  simp only [readUnsigned, hspan.1, hspan.2, htail.1, htail.2]

end

/-- A token without its sign has one of five shapes: digits, digits around a
    point, a second point, or a foreign character before or behind a point. The
    shapes are those at which reading comes to an end, so they exclude each
    other and nothing is said of what follows the end. -/
theorem unsigned_cases (token : List Char) :
    Digits token ∨
    (∃ whole fraction, token = whole ++ '.' :: fraction ∧ Digits whole ∧ Digits fraction) ∨
    (∃ whole fraction rest, token = whole ++ '.' :: (fraction ++ '.' :: rest) ∧ Digits whole ∧
      Digits fraction) ∨
    (∃ whole c rest, token = whole ++ c :: rest ∧ Digits whole ∧ c.isDigit = false ∧ c ≠ '.') ∨
    (∃ whole fraction c rest, token = whole ++ '.' :: (fraction ++ c :: rest) ∧ Digits whole ∧
      Digits fraction ∧ c.isDigit = false ∧ c ≠ '.') := by
  -- The digits in front, and then what stops them.
  rcases exists_span Char.isDigit token with ⟨whole, tail, rfl, hwhole, htail⟩
  cases tail with
  | nil => exact Or.inl (by rwa [List.append_nil])
  | cons c tail =>
      right
      by_cases hpoint : c = '.'
      · subst hpoint
        -- The digits behind the point, and then what stops those.
        rcases exists_span Char.isDigit tail with ⟨fraction, rest, rfl, hfraction, hrest⟩
        cases rest with
        | nil => exact Or.inl ⟨whole, fraction, by rw [List.append_nil], hwhole, hfraction⟩
        | cons d rest =>
            right
            by_cases hsecond : d = '.'
            · subst hsecond
              exact Or.inl ⟨whole, fraction, rest, rfl, hwhole, hfraction⟩
            · exact Or.inr (Or.inr ⟨whole, fraction, d, rest, rfl, hwhole, hfraction,
                hrest d rfl, hsecond⟩)
      · exact Or.inr (Or.inr (Or.inl ⟨whole, c, tail, rfl, hwhole, htail c rfl, hpoint⟩))

/-- An integer has a value of 64 bits if it is the integer of one. -/
theorem integer?_eq_some_iff {n : Int} {value : Int64} :
    Number.integer? n = some value ↔ value.toInt = n := by
  constructor
  · exact Number.toInt_of_integer?
  · rintro rfl
    rw [Number.integer?, if_pos ⟨value.minValue_le_toInt, value.toInt_le⟩, Int64.ofInt_toInt]

/-- Digits read as an integer exactly if the number they write is in the range of
    one, with its sign taken into account: the least integer has no positive
    counterpart. -/
theorem readInteger_eq_ok_iff {token digits : List Char} {negative : Bool} {n : Number} :
    readInteger token negative digits = .ok n ↔
      ∃ value : Int64, n = .int value ∧
        value.toInt = if negative then -(Nat.ofDigitChars 10 digits 0 : Int)
          else Nat.ofDigitChars 10 digits 0 := by
  simp only [readInteger]
  split
  · rename_i value hvalue
    have hvalue := integer?_eq_some_iff.mp hvalue
    constructor
    · intro h
      cases h
      exact ⟨value, rfl, hvalue⟩
    · rintro ⟨other, rfl, hother⟩
      rw [Int64.toInt_inj.mp (hother.trans hvalue.symm)]
  · -- Out of range there is no value that could be it.
    rename_i hnone
    constructor
    · intro h
      cases h
    · rintro ⟨other, rfl, hother⟩
      rw [integer?_eq_some_iff.mpr hother] at hnone
      cases hnone

theorem signText_bne_nil (negative : Bool) : (signText negative != []) = negative := by
  cases negative with
  | false => rfl
  | true => rfl

/-- A token has to be a number if it is a digit and whatever follows, or
    anything at all behind a minus sign. -/
theorem startsNumber_eq_true_iff {token : List Char} : startsNumber token = true ↔
    ∃ negative unsigned, token = signText negative ++ unsigned ∧ unsigned ≠ [] ∧
      (negative = true ∨ ∃ c, unsigned.head? = some c ∧ c.isDigit = true) := by
  constructor
  · intro h
    unfold startsNumber at h
    split at h
    · cases h
    · cases h
    · rename_i c rest hlone
      simp only [Bool.or_eq_true, beq_iff_eq] at h
      rcases h with rfl | hdigit
      · -- A minus sign alone is not taken for a number.
        exact ⟨true, rest, rfl, fun hrest => hlone rfl hrest, Or.inl rfl⟩
      · exact ⟨false, c :: rest, rfl, List.cons_ne_nil c rest, Or.inr ⟨c, rfl, hdigit⟩⟩
  · rintro ⟨negative, unsigned, rfl, hne, hstart⟩
    rcases hstart with rfl | ⟨c, hc, hdigit⟩
    · cases unsigned with
      | nil => exact absurd rfl hne
      | cons c rest => rfl
    · cases unsigned with
      | nil => cases hc
      | cons d rest =>
          cases hc
          cases negative with
          | true => rfl
          | false =>
              -- A digit is no minus sign, so the token is not one alone.
              have hminus : c ≠ '-' := by
                rintro rfl
                cases hdigit
              simp only [signText, Bool.false_eq_true, if_false, List.nil_append]
              unfold startsNumber
              split
              · rename_i hnil
                cases hnil
              · rename_i hcons
                cases hcons
                exact absurd rfl hminus
              · rename_i hcons
                cases hcons
                rw [hdigit, Bool.or_true]

theorem ne_nil_of_startsNumber {token : List Char} (h : startsNumber token = true) :
    token ≠ [] := by
  rintro rfl
  cases h

theorem head?_ne_quote_of_startsNumber {token : List Char} (h : startsNumber token = true) :
    token.head? ≠ some '\'' := by
  cases token with
  | nil => cases h
  | cons c cs =>
      rintro ⟨⟩
      cases h

/-- Reading a number takes the sign off and goes on with what is behind it. If
    there is no sign, what is behind must not begin with one. -/
theorem readNumber_signText {negative : Bool} {unsigned : List Char}
    (h : negative = true ∨ unsigned.head? ≠ some '-') :
    readNumber (signText negative ++ unsigned) = readUnsigned (signText negative) unsigned := by
  cases negative with
  | true => rfl
  | false =>
      simp only [signText, Bool.false_eq_true, if_false, List.nil_append]
      rcases h with hfalse | hhead
      · cases hfalse
      · unfold readNumber
        split
        · exact absurd rfl hhead
        · rfl

theorem head?_ne_minus_of_digit {unsigned : List Char} {negative : Bool}
    (h : negative = true ∨ ∃ c, unsigned.head? = some c ∧ c.isDigit = true) :
    negative = true ∨ unsigned.head? ≠ some '-' := by
  rcases h with hnegative | ⟨c, hc, hdigit⟩
  · exact Or.inl hnegative
  · right
    rw [hc]
    rintro ⟨⟩
    cases hdigit

/-- The first character of a run of digits is a digit. -/
theorem Digits.head {whole : List Char} (rest : List Char) (h : Digits whole)
    (hne : whole ≠ []) :
    ∃ c, (whole ++ rest).head? = some c ∧ c.isDigit = true := by
  cases whole with
  | nil => exact absurd rfl hne
  | cons c whole => exact ⟨c, rfl, h c List.mem_cons_self⟩

theorem readNumber_of_numeral {token : List Char} {n : Number} (h : Numeral token n) :
    readNumber token = .ok n := by
  cases h with
  | @integer negative digits value hne hdigits hvalue =>
      have hhead := hdigits.head [] hne
      rw [List.append_nil] at hhead
      rw [readNumber_signText (head?_ne_minus_of_digit (Or.inr hhead)),
        readUnsigned_digits hdigits, readInteger_eq_ok_iff]
      exact ⟨value, rfl, by rw [hvalue, signText_bne_nil]⟩
  | @float negative whole fraction hwhole hfraction hstart hne =>
      -- There is a digit on one side of the point at least.
      have hboth : ¬ (whole = [] ∧ fraction = []) := by
        rintro ⟨hw, hf⟩
        exact hne.elim (absurd hw) (absurd hf)
      have hhead := hstart.imp_right (hwhole.head ('.' :: fraction))
      rw [readNumber_signText (head?_ne_minus_of_digit hhead), readUnsigned_point hwhole hfraction,
        if_neg hboth, signText_bne_nil]
      rfl

/-- A token that has to be a number and reads as one writes it. The condition is
    needed, since reading a number would also take the point without digits in
    front of it that begins a name. -/
theorem numeral_of_readNumber {token : List Char} {n : Number} (hstart : startsNumber token = true)
    (h : readNumber token = .ok n) : Numeral token n := by
  rcases startsNumber_eq_true_iff.mp hstart with ⟨negative, unsigned, rfl, hne, hhead⟩
  rw [readNumber_signText (head?_ne_minus_of_digit hhead)] at h
  -- Of the five shapes of what is behind the sign two read, one for each rule.
  rcases unsigned_cases unsigned with hdigits | ⟨whole, fraction, rfl, hwhole, hfraction⟩ |
    ⟨whole, fraction, rest, rfl, hwhole, hfraction⟩ | ⟨whole, c, rest, rfl, hwhole, hc, hpoint⟩ |
    ⟨whole, fraction, c, rest, rfl, hwhole, hfraction, hc, hpoint⟩
  · rw [readUnsigned_digits hdigits, readInteger_eq_ok_iff, signText_bne_nil] at h
    rcases h with ⟨value, rfl, hvalue⟩
    exact Numeral.integer negative hne hdigits hvalue
  · rw [readUnsigned_point hwhole hfraction, signText_bne_nil] at h
    split at h
    · cases h
    · rename_i hboth
      cases h
      -- A point is no digit, so an unsigned token does not begin with one.
      have hstart : negative = true ∨ whole ≠ [] := by
        refine hhead.imp_right ?_
        rintro ⟨c, hc, hdigit⟩ rfl
        cases hc
        cases hdigit
      have hdigits : whole ≠ [] ∨ fraction ≠ [] := by
        by_cases hw : whole = []
        · exact Or.inr fun hf => hboth ⟨hw, hf⟩
        · exact Or.inl hw
      exact Numeral.float negative hwhole hfraction hstart hdigits
  · rw [readUnsigned_twoPoints hwhole hfraction] at h
    cases h
  · rw [readUnsigned_malformed hwhole hc hpoint] at h
    cases h
  · rw [readUnsigned_malformedFraction hwhole hfraction hc hpoint] at h
    cases h

/-! ## Tokens -/

/-- No digit delimits anything, so the digits of a number are in one token. -/
theorem isDelimiter_of_isDigit {c : Char} (h : c.isDigit = true) : isDelimiter c = false := by
  -- None of the eight delimiters is a digit.
  have hne : ∀ delimiter : Char, delimiter.isDigit = false → (c == delimiter) = false := by
    intro delimiter hdelimiter
    rw [beq_eq_false_iff_ne]
    rintro rfl
    rw [h] at hdelimiter
    cases hdelimiter
  simp only [isDelimiter, isBlank, hne ' ' rfl, hne '\t' rfl, hne '\n' rfl, hne '\r' rfl,
    hne '(' rfl, hne ')' rfl, hne '[' rfl, hne ']' rfl, Bool.or_self]

theorem Digits.inside {digits : List Char} (h : Digits digits) :
    ∀ c ∈ digits, isDelimiter c = false :=
  fun c hc => isDelimiter_of_isDigit (h c hc)

theorem inside_of_all {token : List Char} (h : token.all (fun c => !isDelimiter c) = true) :
    ∀ c ∈ token, isDelimiter c = false := by
  intro c hc
  have hall := List.all_eq_true.mp h c hc
  simpa only [Bool.not_eq_true'] using hall

theorem signText_inside (negative : Bool) : ∀ c ∈ signText negative, isDelimiter c = false := by
  refine inside_of_all ?_
  cases negative with
  | false => rfl
  | true => rfl

namespace Numeral

variable {token : List Char} {value : Number}

theorem inside (h : Numeral token value) : ∀ c ∈ token, isDelimiter c = false := by
  cases h with
  | @integer negative digits value hne hdigits hvalue =>
      rw [List.forall_mem_append]
      exact ⟨signText_inside negative, hdigits.inside⟩
  | @float negative whole fraction hwhole hfraction hstart hne =>
      rw [List.forall_mem_append, List.forall_mem_append, List.forall_mem_cons]
      exact ⟨signText_inside negative, hwhole.inside, rfl, hfraction.inside⟩

theorem startsNumber (h : Numeral token value) : startsNumber token = true := by
  rw [startsNumber_eq_true_iff]
  cases h with
  | @integer negative digits value hne hdigits hvalue =>
      have hhead := hdigits.head [] hne
      rw [List.append_nil] at hhead
      exact ⟨negative, digits, rfl, hne, Or.inr hhead⟩
  | @float negative whole fraction hwhole hfraction hstart hne =>
      exact ⟨negative, whole ++ '.' :: fraction, rfl,
        List.append_ne_nil_of_right_ne_nil _ (List.cons_ne_nil _ _),
        hstart.imp_right (hwhole.head ('.' :: fraction))⟩

end Numeral

/-- A name does not have to be a number. -/
theorem SymbolToken.startsNumber {token : List Char} (h : SymbolToken token) :
    startsNumber token = false := by
  rw [Bool.eq_false_iff]
  intro hstart
  rcases startsNumber_eq_true_iff.mp hstart with ⟨negative, unsigned, rfl, hne, hhead⟩
  cases negative with
  | true =>
      -- A symbol that begins with a minus sign has nothing behind it.
      have hminus := h.minus rfl
      simp only [signText, if_true, List.cons_append, List.nil_append, List.cons.injEq,
        true_and] at hminus
      exact hne hminus
  | false =>
      rcases hhead with hfalse | ⟨c, hc, hdigit⟩
      · cases hfalse
      · have hnot := h.notDigit c hc
        rw [hdigit] at hnot
        cases hnot

/-- A run of characters that neither delimit nor begin a string is a symbol
    unless it has to be a number. -/
theorem symbolToken_of_startsNumber {token : List Char} (hne : token ≠ [])
    (hinside : ∀ c ∈ token, isDelimiter c = false) (hquote : token.head? ≠ some '\'')
    (hstart : startsNumber token = false) : SymbolToken token := by
  -- None of the ways in which a token starts a number applies.
  have hnumber : ∀ negative unsigned, token = signText negative ++ unsigned → unsigned ≠ [] →
      ¬ (negative = true ∨ ∃ c, unsigned.head? = some c ∧ c.isDigit = true) := by
    intro negative unsigned htoken hunsigned hhead
    rw [startsNumber_eq_true_iff.mpr ⟨negative, unsigned, htoken, hunsigned, hhead⟩] at hstart
    cases hstart
  have hdigit : ∀ c, token.head? = some c → c.isDigit = false := by
    intro c hc
    rw [Bool.eq_false_iff]
    exact fun hdigit => hnumber false token rfl hne (Or.inr ⟨c, hc, hdigit⟩)
  have hminus : token.head? = some '-' → token = ['-'] := by
    intro hminus
    cases token with
    | nil => exact absurd rfl hne
    | cons c rest =>
        cases hminus
        -- With anything behind the sign the token would have to be a number.
        by_cases hrest : rest = []
        · rw [hrest]
        · exact absurd (Or.inl rfl) (hnumber true rest rfl hrest)
  exact ⟨hne, hinside, hquote, hdigit, hminus⟩

/-- What is at the front of the input is its token if what follows ends
    one. The token of an input is the run up to the next delimiter, so this is
    where the condition on what follows a leaf comes from. -/
theorem token_append {token rest : List Char} (offset : Nat)
    (hinside : ∀ c ∈ token, isDelimiter c = false) (hends : TokenEnds rest) :
    (Input.mk (token ++ rest) offset).token = token ∧
      (Input.mk (token ++ rest) offset).pastToken = ⟨rest, offset + Text.byteLength token⟩ := by
  have hrun : ∀ c ∈ token, (!isDelimiter c) = true := fun c hc => by
    rw [hinside c hc, Bool.not_false]
  have hspan := span_append rest hrun fun c hc => by rw [hends c hc, Bool.not_true]
  have htoken : (Input.mk (token ++ rest) offset).token = token := hspan.1
  have hpast : (Input.mk (token ++ rest) offset).pastToken =
      ⟨rest, offset + Text.byteLength token⟩ := by
    rw [Input.pastToken, htoken, Input.after, hspan.2]
  exact ⟨htoken, hpast⟩

theorem tokenEnds_nil : TokenEnds [] := by
  intro c hc
  cases hc

/-- A token ends where the text does or at a delimiter. -/
theorem Input.tokenEnds_pastToken (input : Input) : TokenEnds input.pastToken.rest := by
  intro c hc
  have hhead := List.head?_dropWhile_not (fun c => !isDelimiter c) input.rest
  rw [show input.rest.dropWhile (fun c => !isDelimiter c) = input.pastToken.rest from rfl, hc]
    at hhead
  simpa only [Bool.not_eq_true, Bool.not_eq_false'] using hhead

theorem Input.token_append_pastToken (input : Input) :
    input.rest = input.token ++ input.pastToken.rest :=
  List.takeWhile_append_dropWhile.symm

theorem Input.token_inside (input : Input) : ∀ c ∈ input.token, isDelimiter c = false :=
  inside_of_all List.all_takeWhile

/-- The token that a character of its own begins is a symbol, unless it has to
    be a number. -/
theorem Input.symbolToken_token {input : Input} {c : Char} {rest : List Char}
    (hrest : input.rest = c :: rest) (hc : isDelimiter c = false) (hquote : c ≠ '\'')
    (hstart : startsNumber input.token = false) : SymbolToken input.token := by
  have htoken : input.token = c :: rest.takeWhile fun d => !isDelimiter d := by
    rw [Input.token, hrest, List.takeWhile_cons_of_pos (by rw [hc, Bool.not_false])]
  have hne : input.token ≠ [] := by
    rw [htoken]
    exact List.cons_ne_nil _ _
  have hhead : input.token.head? ≠ some '\'' := by
    rw [htoken]
    rintro ⟨⟩
    exact hquote rfl
  exact symbolToken_of_startsNumber hne input.token_inside hhead hstart

/-! ## Leaves -/

/-- A node begins where a token does. -/
theorem atNode_append {token : List Char} (rest : List Char) (offset : Nat) (hne : token ≠ [])
    (hinside : ∀ c ∈ token, isDelimiter c = false) :
    (Input.mk (token ++ rest) offset).AtNode := by
  cases token with
  | nil => exact absurd rfl hne
  | cons c cs =>
      have hc := isDelimiter_eq_false_iff.mp (hinside c List.mem_cons_self)
      exact ⟨c, cs ++ rest, rfl, hc.1, hc.2.2⟩

theorem Leaf.atNode {span : Span} {token rest : List Char} {node : Node}
    (h : Leaf span token rest node) (offset : Nat) : (Input.mk (token ++ rest) offset).AtNode := by
  cases h with
  | string hbody => exact ⟨'\'', _, rfl, rfl, rfl⟩
  | symbol htoken hends => exact atNode_append rest offset htoken.nonempty htoken.inside
  | number hvalue hends =>
      exact atNode_append rest offset (ne_nil_of_startsNumber hvalue.startsNumber) hvalue.inside

/-- Reading a token that is at the front of the input. -/
theorem readOne_append {token rest : List Char} (offset : Nat) (hne : token ≠ [])
    (hinside : ∀ c ∈ token, isDelimiter c = false) (hquote : token.head? ≠ some '\'') :
    readOne ⟨token ++ rest, offset⟩ = readToken ⟨token ++ rest, offset⟩ := by
  cases token with
  | nil => exact absurd rfl hne
  | cons c cs =>
      refine readOne_token rfl (hinside c List.mem_cons_self) ?_
      rintro rfl
      exact hquote rfl

/-- A leaf at the front of the input is read, and the input goes on behind it.
    Reading records spans within the limit, and so does the leaf here. -/
theorem readOne_of_leaf {token rest : List Char} {node : Node} {offset : Nat}
    (h : Leaf (Span.ofRange offset (offset + Text.byteLength token)) token rest node) :
    readOne ⟨token ++ rest, offset⟩ = .ok (node, ⟨rest, offset + Text.byteLength token⟩) := by
  cases h with
  | @string body rest hbody =>
      -- A string ends at its quote, so what follows it does not matter.
      have hclose : closeString? false (body ++ '\'' :: rest) = some (body, rest) :=
        closeString?_eq_some_iff.mpr ⟨rfl, hbody⟩
      have htext : '\'' :: (body ++ ['\'']) ++ rest = '\'' :: (body ++ '\'' :: rest) := by
        simp only [List.cons_append, List.append_assoc, List.nil_append]
      rw [readOne_string htext, readString_closed hclose, stringValue_eq]
      rfl
  | symbol htoken hends =>
      -- The other two end where a delimiter stands, or the text is over.
      rcases token_append offset htoken.inside hends with ⟨hread, hpast⟩
      rw [readOne_append offset htoken.nonempty htoken.inside htoken.notQuote,
        readToken_symbol (by rw [hread]; exact htoken.startsNumber), hread, hpast]
  | number hvalue hends =>
      rcases token_append offset hvalue.inside hends with ⟨hread, hpast⟩
      have hstart := hvalue.startsNumber
      rw [readOne_append offset (ne_nil_of_startsNumber hstart) hvalue.inside
          (head?_ne_quote_of_startsNumber hstart),
        readToken_number (by rw [hread]; exact hstart)
          (by rw [hread]; exact readNumber_of_numeral hvalue), hpast]

/-- Whatever is read that is not a group is a leaf, written by the part of the
    input that was taken. -/
theorem leaf_of_readOne {input beyond : Input} {node : Node} (hat : input.AtNode)
    (hleaf : ∀ (bracket : Bracket) rest, input.rest ≠ bracket.opening :: rest)
    (h : readOne input = .ok (node, beyond)) :
    ∃ token, input.rest = token ++ beyond.rest ∧
      beyond.offset = input.offset + Text.byteLength token ∧
      Leaf (Span.ofRange input.offset beyond.offset) token beyond.rest node := by
  rcases hat.cases with ⟨bracket, rest, hrest⟩ | ⟨rest, hrest⟩ | ⟨c, rest, hrest, hc, hquote⟩
  · exact absurd hrest (hleaf bracket rest)
  · rw [readOne_string hrest] at h
    rcases hclose : closeString? false rest with _ | ⟨body, left⟩
    · rw [readString_open hclose] at h
      cases h
    · rw [readString_closed hclose] at h
      cases h
      -- A string that was closed has a body that can be.
      rcases closeString?_eq_some_iff.mp hclose with ⟨rfl, hbody⟩
      have htext : input.rest = '\'' :: (body ++ ['\'']) ++ left := by
        rw [hrest]
        simp only [List.cons_append, List.append_assoc, List.nil_append]
      refine ⟨'\'' :: (body ++ ['\'']), htext, rfl, ?_⟩
      rw [stringValue_eq]
      exact Leaf.string hbody
  · rw [readOne_token hrest hc hquote] at h
    -- A token was read to its end, whatever it turned out to be.
    have hpast := eq_pastToken_of_readToken h
    subst hpast
    refine ⟨input.token, input.token_append_pastToken, rfl, ?_⟩
    cases hstart : startsNumber input.token with
    | false =>
        rw [readToken_symbol hstart] at h
        cases h
        exact Leaf.symbol (Input.symbolToken_token hrest hc hquote hstart) input.tokenEnds_pastToken
    | true =>
        rcases hread : readNumber input.token with ⟨fault, seen⟩ | value
        · rw [readToken_badNumber hstart hread] at h
          cases h
        · rw [readToken_number hstart hread] at h
          cases h
          exact Leaf.number (numeral_of_readNumber hstart hread) input.tokenEnds_pastToken

end Parse

end AttrExpr
