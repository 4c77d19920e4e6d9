import AttrExpr.Proofs.Parse.Grammar

/-!
# A Flat Scanner

The first fault of a text, found without any tree.

The scanner looks at one character after the other, from the front. What it
knows about the characters behind it is which groups are open, innermost
first, and what kind of token it is in the middle of. A fault belongs to the
character that reveals it, or to the end of the text, so the first fault is
simply where the scanner stops.

A token ends in front of the character that delimits it. So a delimiter is
looked at twice: it ends the token before it, which may be a bad number, and
then it is a blank or a bracket.

## Main definitions

* `Scanner.Mode`: What the scanner is in the middle of.
* `Scanner.State`: The open groups, the mode and the position.
* `Scanner.State.step`: One character.
* `Scanner.State.finish`: The end of the text.
* `firstFault?`: The first fault of a text.

## Theorems

* `Scanner.scan_blanks`, `Scanner.scan_digits`, `Scanner.scan_fraction`: Runs
  that change nothing but the position, or the characters seen.
* `Scanner.scan_string`, `Scanner.scan_symbolToken`, `Scanner.scan_numberToken`:
  What is made of a whole leaf.
* `Scanner.scan_endToken`: A token ends before anything else happens.
-/

namespace AttrExpr

namespace Parse

namespace Scanner

/-- What the scanner is in the middle of. A token that begins with a minus
    sign is undecided until its second character. -/
inductive Mode where
  | between
  | string (start : Nat) (afterBackslash : Bool)
  | symbol
  | minus (start : Nat)
  /-- A number, its characters so far, and whether a point is among them. -/
  | number (start : Nat) (seen : List Char) (pointed : Bool)
deriving DecidableEq, Repr

/-- The open groups with the places of their brackets, innermost first, the
    mode, and how many bytes were scanned. This is all there is: the scanner
    keeps no nodes, and of the text behind it only the token it is in. -/
structure State where
  stack : List (Bracket × Nat)
  mode : Mode
  offset : Nat
deriving DecidableEq, Repr

/-- What is wrong with a whole number token: there is a point and no digit, or
    there is no point and the integer does not fit. These are the faults that no
    single character has; the limits are written out, so that they can be read
    here without knowing how integers are stored. -/
def wholeFault? (seen : List Char) (pointed : Bool) : Option NumberFault :=
  let digits := seen.filter Char.isDigit
  let magnitude : Int := Nat.ofDigitChars 10 digits 0
  let value := if seen.head? = some '-' then -magnitude else magnitude
  if pointed then if digits = [] then some .malformed else none
  else if -9223372036854775808 ≤ value ∧ value ≤ 9223372036854775807 then none
  else some .tooLarge

namespace State

/-- The token before a delimiter, or before the end of the text, is over. Only a
    number can turn out wrong at that point; a name is whatever it is, and a
    minus sign that nothing followed is a name. -/
def endToken (state : State) : Except ParseError State :=
  match state.mode with
  | .number start seen pointed =>
      match wholeFault? seen pointed with
      | some fault => .error ⟨.number fault (String.ofList seen), ⟨start, state.offset⟩⟩
      | none => .ok { state with mode := .between }
  | _ => .ok { state with mode := .between }

/-- A delimiter between tokens: a blank, or a bracket that opens or closes a
    group. -/
def atDelimiter (state : State) (c : Char) : Except ParseError State :=
  let beyond := state.offset + c.utf8Size
  match Bracket.ofOpening? c with
  | some bracket => .ok ⟨(bracket, state.offset) :: state.stack, .between, beyond⟩
  | none =>
      match Bracket.ofClosing? c with
      | none => .ok ⟨state.stack, .between, beyond⟩
      | some found =>
          match state.stack with
          | [] => .error ⟨.unexpectedCloser c, ⟨state.offset, beyond⟩⟩
          | (bracket, _) :: outer =>
              if found = bracket then .ok ⟨outer, .between, beyond⟩
              else .error ⟨.mismatchedCloser bracket.closing c, ⟨state.offset, beyond⟩⟩

/-- One more character of a number that starts at `start`: a digit, the first
    point, or the fault. -/
def inNumber (state : State) (start : Nat) (seen : List Char) (pointed : Bool) (c : Char) :
    Except ParseError State :=
  let beyond := state.offset + c.utf8Size
  if c.isDigit then .ok ⟨state.stack, .number start (seen ++ [c]) pointed, beyond⟩
  else if c = '.' ∧ pointed = false then .ok ⟨state.stack, .number start (seen ++ [c]) true, beyond⟩
  else
    .error ⟨.number (if c = '.' then .extraDecimalPoint else .malformed)
      (String.ofList (seen ++ [c])), ⟨start, beyond⟩⟩

/-- One character. In a string all that counts is whether it closes it. Anywhere
    else a delimiter ends the token before it and is then looked at itself, and
    any other character goes on with the token or begins one. -/
def step (state : State) (c : Char) : Except ParseError State :=
  let beyond := state.offset + c.utf8Size
  match state.mode with
  | .string start afterBackslash =>
      if c = '\'' ∧ afterBackslash = false then .ok ⟨state.stack, .between, beyond⟩
      else .ok ⟨state.stack, .string start (c == '\\'), beyond⟩
  | mode =>
      if isDelimiter c then state.endToken.bind fun ended => ended.atDelimiter c
      else
        match mode with
        | .minus start => state.inNumber start ['-'] false c
        | .number start seen pointed => state.inNumber start seen pointed c
        | .between =>
            if c = '\'' then .ok ⟨state.stack, .string state.offset false, beyond⟩
            else if c = '-' then .ok ⟨state.stack, .minus state.offset, beyond⟩
            else if c.isDigit then .ok ⟨state.stack, .number state.offset [c] false, beyond⟩
            else .ok ⟨state.stack, .symbol, beyond⟩
        | _ => .ok ⟨state.stack, .symbol, beyond⟩

/-- The fault of a group that is still open at the end of the text. -/
def openGroup? (state : State) : Option ParseError :=
  state.stack.head?.map fun (bracket, start) =>
    ⟨.unterminatedGroup bracket.opening, ⟨start, state.offset⟩⟩

/-- The fault at the end of the text, if there is one. A string that is not
    closed hides the groups around it. -/
def finish (state : State) : Option ParseError :=
  match state.mode with
  | .string start _ => some ⟨.unterminatedString, ⟨start, state.offset⟩⟩
  | _ =>
      match state.endToken with
      | .error e => some e
      | .ok ended => ended.openGroup?

end State

/-- The first fault met from a state on. The scan is over there, so no later
    character has any influence on it. -/
def scan (state : State) : List Char → Option ParseError
  | [] => state.finish
  | c :: cs =>
      match state.step c with
      | .error e => some e
      | .ok next => scan next cs

end Scanner

/-- The first fault of a text, if it has one. -/
def firstFault? (source : String) : Option ParseError :=
  Scanner.scan ⟨[], .between, 0⟩ source.toList

namespace Scanner

variable {stack : List (Bracket × Nat)} {offset start : Nat} {seen rest : List Char}

/-! ## Between tokens -/

-- The two equations that every scan is taken apart with, one character at a time.
theorem scan_cons_ok {state next : State} {c : Char} (h : state.step c = .ok next) :
    scan state (c :: rest) = scan next rest := by
  rw [scan, h]

theorem scan_cons_error {state : State} {c : Char} {e : ParseError} (h : state.step c = .error e) :
    scan state (c :: rest) = some e := by
  rw [scan, h]

theorem step_between_delimiter {c : Char} (hc : isDelimiter c = true) :
    State.step ⟨stack, .between, offset⟩ c = State.atDelimiter ⟨stack, .between, offset⟩ c := by
  simp only [State.step, hc, if_true, State.endToken, Except.bind]

theorem scan_blank {c : Char} (hc : isBlank c = true) :
    scan ⟨stack, .between, offset⟩ (c :: rest) =
      scan ⟨stack, .between, offset + c.utf8Size⟩ rest := by
  refine scan_cons_ok ?_
  -- A blank is a delimiter but no bracket, so it only moves on.
  rcases byte_of_isBlank hc with ⟨_, hopening, hclosing⟩
  rw [step_between_delimiter (isDelimiter_of_isBlank hc)]
  simp only [State.atDelimiter, hopening, hclosing]

/-- Blanks between tokens change nothing but the position. -/
theorem scan_blanks {blanks : List Char} (hblanks : ∀ c ∈ blanks, isBlank c = true) :
    scan ⟨stack, .between, offset⟩ (blanks ++ rest) =
      scan ⟨stack, .between, offset + Text.byteLength blanks⟩ rest := by
  induction blanks generalizing offset with
  | nil => rfl
  | cons c blanks ih =>
      rw [List.cons_append, scan_blank (hblanks c List.mem_cons_self),
        ih fun d hd => hblanks d (List.mem_cons_of_mem c hd), Text.byteLength, Nat.add_assoc]

/-- An opening bracket is put on the stack, with its place. -/
theorem scan_opening (bracket : Bracket) :
    scan ⟨stack, .between, offset⟩ (bracket.opening :: rest) =
      scan ⟨(bracket, offset) :: stack, .between, offset + 1⟩ rest := by
  refine scan_cons_ok ?_
  rw [step_between_delimiter (isDelimiter_opening bracket)]
  simp only [State.atDelimiter, Bracket.ofOpening?_opening, utf8Size_opening]

/-- A closing bracket takes the bracket it closes off the stack. It is at fault
    if that is of the other kind or if there is none. -/
theorem step_closing (found : Bracket) : State.step ⟨stack, .between, offset⟩ found.closing =
    match stack with
    | [] => .error ⟨.unexpectedCloser found.closing, ⟨offset, offset + 1⟩⟩
    | (bracket, _) :: outer =>
        if found = bracket then .ok ⟨outer, .between, offset + 1⟩
        else .error ⟨.mismatchedCloser bracket.closing found.closing, ⟨offset, offset + 1⟩⟩ := by
  rw [step_between_delimiter (isDelimiter_closing found)]
  simp only [State.atDelimiter, ofOpening?_closing, Bracket.ofClosing?_closing, utf8Size_closing]

/-! ## Strings -/

/-- A string is scanned up to the quote that closes it, or up to the end of
    the text, which is its fault. -/
theorem scan_string (afterBackslash : Bool) (cs : List Char) :
    scan ⟨stack, .string start afterBackslash, offset⟩ cs =
      match closeString? afterBackslash cs with
      | none => some ⟨.unterminatedString, ⟨start, offset + Text.byteLength cs⟩⟩
      | some (body, rest) =>
          scan ⟨stack, .between, offset + Text.byteLength (body ++ ['\''])⟩ rest := by
  induction cs generalizing offset afterBackslash with
  | nil => rfl
  | cons c cs ih =>
      -- The scanner looks for the same quote as the reader, one character at a time.
      by_cases hclose : c = '\'' ∧ afterBackslash = false
      · have hstep : State.step ⟨stack, .string start afterBackslash, offset⟩ c =
            .ok ⟨stack, .between, offset + c.utf8Size⟩ := by
          simp only [State.step, if_pos hclose]
        rw [scan_cons_ok hstep]
        rcases hclose with ⟨rfl, rfl⟩
        simp only [closeString?, and_self, if_true]
        rfl
      · have hstep : State.step ⟨stack, .string start afterBackslash, offset⟩ c =
            .ok ⟨stack, .string start (c == '\\'), offset + c.utf8Size⟩ := by
          simp only [State.step, if_neg hclose]
        rw [scan_cons_ok hstep, ih]
        simp only [closeString?, if_neg hclose]
        cases closeString? (c == '\\') cs with
        | none => simp only [Option.map_none, Text.byteLength, Nat.add_assoc]
        | some result =>
            simp only [Option.map_some, List.cons_append, Text.byteLength, Nat.add_assoc]

/-! ## Tokens -/

/-- Ending a token changes the mode and nothing else. -/
theorem eq_of_endToken {state ended : State} (h : state.endToken = .ok ended) :
    ended = { state with mode := .between } := by
  unfold State.endToken at h
  split at h
  · split at h
    · cases h
    · cases h
      rfl
  · cases h
    rfl

section

variable {state : State} (hmode : ∀ start after, state.mode ≠ .string start after)

include hmode

/-- Outside of strings a delimiter is looked at after the token in front of it
    has ended. -/
theorem step_delimiter {c : Char} (hc : isDelimiter c = true) :
    state.step c = state.endToken.bind fun ended => ended.atDelimiter c := by
  unfold State.step
  split
  · rename_i hstring
    exact absurd hstring (hmode _ _)
  · rw [if_pos hc]

/-- Outside of strings the end of the text ends the token in front of it, and
    then it is the innermost open group that is at fault. -/
theorem finish_eq : state.finish =
    match state.endToken with
    | .error e => some e
    | .ok ended => ended.openGroup? := by
  unfold State.finish
  split
  · rename_i hstring
    exact absurd hstring (hmode _ _)
  · rfl

/-- Where a token ends, ending it is all that the mode is good for: the scan goes
    on as if it had been between two tokens. This holds at a delimiter and at the
    end of the text alike, so whoever scans a token need not ask which it is. -/
theorem scan_endToken (hends : TokenEnds rest) : scan state rest =
    match state.endToken with
    | .error e => some e
    | .ok ended => scan ended rest := by
  cases rest with
  | nil =>
      simp only [scan, finish_eq hmode]
      cases hend : state.endToken with
      | error e => rfl
      | ok ended =>
          rw [eq_of_endToken hend]
          rfl
  | cons c rest =>
      -- The delimiter ends the token and is then looked at between tokens.
      have hc := hends c rfl
      simp only [scan, step_delimiter hmode hc]
      cases hend : state.endToken with
      | error e => rfl
      | ok ended =>
          rw [eq_of_endToken hend]
          simp only [Except.bind, step_between_delimiter hc]

end

/-- The characters of a symbol after its first change nothing. -/
theorem scan_symbol {token : List Char} (hinside : ∀ c ∈ token, isDelimiter c = false) :
    scan ⟨stack, .symbol, offset⟩ (token ++ rest) =
      scan ⟨stack, .symbol, offset + Text.byteLength token⟩ rest := by
  induction token generalizing offset with
  | nil => rfl
  | cons c token ih =>
      have hstep : State.step ⟨stack, .symbol, offset⟩ c =
          .ok ⟨stack, .symbol, offset + c.utf8Size⟩ := by
        simp only [State.step, hinside c List.mem_cons_self, Bool.false_eq_true, if_false]
      rw [List.cons_append, scan_cons_ok hstep,
        ih fun d hd => hinside d (List.mem_cons_of_mem c hd), Text.byteLength, Nat.add_assoc]

/-- A symbol has no fault, and is scanned to its end. -/
theorem scan_symbolToken {token : List Char} (htoken : SymbolToken token) (hends : TokenEnds rest) :
    scan ⟨stack, .between, offset⟩ (token ++ rest) =
      scan ⟨stack, .between, offset + Text.byteLength token⟩ rest := by
  cases token with
  | nil => exact absurd rfl htoken.nonempty
  | cons c token =>
      have hc := htoken.inside c List.mem_cons_self
      have hquote : c ≠ '\'' := by
        rintro rfl
        exact htoken.notQuote rfl
      by_cases hminus : c = '-'
      · -- A minus sign that begins a symbol is all of it.
        have hlone := htoken.minus (by rw [List.head?_cons, hminus])
        rw [hlone, List.singleton_append]
        have hstep : State.step ⟨stack, .between, offset⟩ '-' =
            .ok ⟨stack, .minus offset, offset + Text.byteLength ['-']⟩ := rfl
        rw [scan_cons_ok hstep, scan_endToken (fun _ _ => Mode.noConfusion) hends]
        rfl
      · -- Anything else is a symbol from its first character on.
        have hstep : State.step ⟨stack, .between, offset⟩ c =
            .ok ⟨stack, .symbol, offset + c.utf8Size⟩ := by
          simp only [State.step, hc, Bool.false_eq_true, if_false, hquote, hminus,
            htoken.notDigit c rfl]
        rw [List.cons_append, scan_cons_ok hstep,
          scan_symbol fun d hd => htoken.inside d (List.mem_cons_of_mem c hd),
          scan_endToken (fun _ _ => Mode.noConfusion) hends, Text.byteLength, Nat.add_assoc]
        rfl

/-! ## Numbers -/

variable {sign whole fraction : List Char} {pointed : Bool}

/-- Digits go on with the number. -/
theorem scan_digits (hwhole : Digits whole) :
    scan ⟨stack, .number start seen pointed, offset⟩ (whole ++ rest) =
      scan ⟨stack, .number start (seen ++ whole) pointed, offset + Text.byteLength whole⟩ rest := by
  -- What has been seen grows with each digit, and so does the offset.
  induction whole generalizing seen offset with
  | nil =>
      rw [List.append_nil]
      rfl
  | cons c whole ih =>
      have hc := hwhole c List.mem_cons_self
      have hstep : State.step ⟨stack, .number start seen pointed, offset⟩ c =
          .ok ⟨stack, .number start (seen ++ [c]) pointed, offset + c.utf8Size⟩ := by
        simp only [State.step, isDelimiter_of_isDigit hc, Bool.false_eq_true, if_false,
          State.inNumber, hc, if_true]
      rw [List.cons_append, scan_cons_ok hstep,
        ih fun d hd => hwhole d (List.mem_cons_of_mem c hd), List.append_assoc,
        List.singleton_append, Text.byteLength, Nat.add_assoc]

/-- The first point goes on with the number. -/
theorem scan_point : scan ⟨stack, .number start seen false, offset⟩ ('.' :: rest) =
    scan ⟨stack, .number start (seen ++ ['.']) true, offset + 1⟩ rest :=
  scan_cons_ok rfl

/-- Digits around the first point go on with the number. -/
theorem scan_fraction (hwhole : Digits whole) (hfraction : Digits fraction) :
    scan ⟨stack, .number start seen false, offset⟩ (whole ++ '.' :: (fraction ++ rest)) =
      scan ⟨stack, .number start (seen ++ (whole ++ '.' :: fraction)) true,
        offset + Text.byteLength (whole ++ '.' :: fraction)⟩ rest := by
  rw [scan_digits hwhole, scan_point, scan_digits hfraction, List.append_assoc, List.append_assoc,
    List.singleton_append, Text.byteLength_append, Text.byteLength, Nat.add_assoc, Nat.add_assoc]
  rfl

/-- Any other character of the token is the fault. -/
theorem scan_foreign {c : Char} (hc : isDelimiter c = false) (hdigit : c.isDigit = false)
    (hpoint : c = '.' → pointed = true) :
    scan ⟨stack, .number start seen pointed, offset⟩ (c :: rest) =
      some ⟨.number (if c = '.' then .extraDecimalPoint else .malformed)
        (String.ofList (seen ++ [c])), ⟨start, offset + c.utf8Size⟩⟩ := by
  refine scan_cons_error ?_
  have hnot : ¬ (c = '.' ∧ pointed = false) := by
    rintro ⟨hc, hfalse⟩
    rw [hpoint hc] at hfalse
    cases hfalse
  simp only [State.step, hc, Bool.false_eq_true, if_false, State.inNumber, hdigit, if_neg hnot]

/-- Where a number token ends, all of it is judged. -/
theorem scan_number (hends : TokenEnds rest) :
    scan ⟨stack, .number start seen pointed, offset⟩ rest =
      match wholeFault? seen pointed with
      | some fault => some ⟨.number fault (String.ofList seen), ⟨start, offset⟩⟩
      | none => scan ⟨stack, .between, offset⟩ rest := by
  rw [scan_endToken (fun _ _ => Mode.noConfusion) hends]
  simp only [State.endToken]
  cases wholeFault? seen pointed with
  | none => rfl
  | some fault => rfl

/-- The characters that begin a number lead into the same mode, whether a
    minus sign is one of them or not. A digit decides at once and a sign only
    with the character behind it, but both come to a number whose characters so
    far are its sign, which may be none. -/
theorem scan_signText {negative : Bool} {unsigned : List Char} (hne : unsigned ≠ [])
    (hinside : ∀ c ∈ unsigned, isDelimiter c = false)
    (hhead : negative = true ∨ ∃ c, unsigned.head? = some c ∧ c.isDigit = true) :
    scan ⟨stack, .between, offset⟩ (signText negative ++ (unsigned ++ rest)) =
      scan ⟨stack, .number offset (signText negative) false,
        offset + Text.byteLength (signText negative)⟩ (unsigned ++ rest) := by
  cases unsigned with
  | nil => exact absurd rfl hne
  | cons c unsigned =>
      have hc := hinside c List.mem_cons_self
      cases negative with
      | true =>
          -- The second character decides that the sign begins a number.
          have hminus : State.step ⟨stack, .between, offset⟩ '-' =
              .ok ⟨stack, .minus offset, offset + Text.byteLength ['-']⟩ := rfl
          have hstep : State.step ⟨stack, .minus offset, offset + Text.byteLength ['-']⟩ c =
              State.step ⟨stack, .number offset ['-'] false, offset + Text.byteLength ['-']⟩ c := by
            simp only [State.step, hc, Bool.false_eq_true, if_false, State.inNumber]
          simp only [signText, if_true, List.cons_append, List.nil_append]
          rw [scan_cons_ok hminus, scan, hstep, scan]
      | false =>
          rcases hhead with hfalse | ⟨d, hd, hdigit⟩
          · cases hfalse
          · cases hd
            -- A digit decides at once, as if a number of no characters were open.
            have hquote : c ≠ '\'' := by
              rintro rfl
              cases hdigit
            have hminus : c ≠ '-' := by
              rintro rfl
              cases hdigit
            have hstep : State.step ⟨stack, .between, offset⟩ c =
                State.step ⟨stack, .number offset [] false, offset⟩ c := by
              simp only [State.step, hc, Bool.false_eq_true, if_false, if_neg hquote,
                if_neg hminus, hdigit, if_true, State.inNumber, List.nil_append]
            simp only [signText, Bool.false_eq_true, if_false, List.nil_append, List.cons_append,
              Text.byteLength, Nat.add_zero]
            rw [scan, hstep, scan]

theorem filter_isDigit_eq (hwhole : Digits whole) : whole.filter Char.isDigit = whole :=
  List.filter_eq_self.mpr hwhole

theorem filter_signText (negative : Bool) : (signText negative).filter Char.isDigit = [] := by
  cases negative with
  | false => rfl
  | true => rfl

/-- Behind its sign a number begins with a digit, so the first character says
    whether there is a sign. -/
theorem head?_signText_append {negative : Bool} (hwhole : Digits whole) (hne : whole ≠ []) :
    (signText negative ++ whole).head? = some '-' ↔ negative = true := by
  cases negative with
  | true => exact ⟨fun _ => rfl, fun _ => rfl⟩
  | false =>
      rcases hwhole.head [] hne with ⟨c, hc, hdigit⟩
      rw [List.append_nil] at hc
      simp only [signText, Bool.false_eq_true, if_false, List.nil_append, hc, Option.some.injEq,
        iff_false]
      rintro rfl
      cases hdigit

/-- An integer is judged as it is read. -/
theorem wholeFault?_digits {negative : Bool} (hwhole : Digits whole) (hne : whole ≠ []) :
    wholeFault? (signText negative ++ whole) false =
      match readInteger (signText negative ++ whole) negative whole with
      | .ok _ => none
      | .error (fault, _) => some fault := by
  simp only [wholeFault?, List.filter_append, filter_signText, filter_isDigit_eq hwhole,
    List.nil_append, Bool.false_eq_true, if_false, readInteger, Number.integer?,
    head?_signText_append hwhole hne]
  generalize (if negative = true then -(Nat.ofDigitChars 10 whole 0 : Int)
    else Nat.ofDigitChars 10 whole 0) = value
  -- The limits are those of the integers, written out.
  by_cases hfits : -9223372036854775808 ≤ value ∧ value ≤ 9223372036854775807
  · rw [if_pos hfits, if_pos (show Int64.minValue.toInt ≤ value ∧ value ≤ Int64.maxValue.toInt
      from hfits)]
  · rw [if_neg hfits, if_neg (show ¬ (Int64.minValue.toInt ≤ value ∧
      value ≤ Int64.maxValue.toInt) from hfits)]

/-- A number with a point is at fault only if it has no digit. -/
theorem wholeFault?_point {negative : Bool} (hwhole : Digits whole) (hfraction : Digits fraction) :
    wholeFault? (signText negative ++ (whole ++ '.' :: fraction)) true =
      if whole = [] ∧ fraction = [] then some .malformed else none := by
  have hpoint : ('.' :: fraction).filter Char.isDigit = fraction := by
    rw [List.filter_cons_of_neg (by decide), filter_isDigit_eq hfraction]
  simp only [wholeFault?, List.filter_append, filter_signText, filter_isDigit_eq hwhole, hpoint,
    List.nil_append, if_true, List.append_eq_nil_iff]

/-- What the scanner makes of a number it is in front of, given how the number
    reads: the same fault, with the same characters, or none. The value is of no
    interest to a scanner, which is why this is a relation to the reading and
    not an equation. -/
def NumberScanned (stack : List (Bracket × Nat)) (offset : Nat) (token rest : List Char)
    (found : Option ParseError) : Except BadNumber Number → Prop
  | .error (fault, seen) =>
      found = some ⟨.number fault (String.ofList seen), ⟨offset, offset + Text.byteLength seen⟩⟩
  | .ok _ => found = scan ⟨stack, .between, offset + Text.byteLength token⟩ rest

/-- A number is scanned as it reads, behind its sign. There is a case for each of
    the five shapes of a token, and in each the digits are scanned first and then
    what stops them. -/
theorem scan_unsigned {negative : Bool} {unsigned : List Char} (hne : unsigned ≠ [])
    (hinside : ∀ c ∈ unsigned, isDelimiter c = false) (hends : TokenEnds rest) :
    NumberScanned stack offset (signText negative ++ unsigned) rest
      (scan ⟨stack, .number offset (signText negative) false,
        offset + Text.byteLength (signText negative)⟩ (unsigned ++ rest))
      (readUnsigned (signText negative) unsigned) := by
  rcases unsigned_cases unsigned with hdigits | ⟨whole, fraction, rfl, hwhole, hfraction⟩ |
    ⟨whole, fraction, tail, rfl, hwhole, hfraction⟩ | ⟨whole, c, tail, rfl, hwhole, hc, hpoint⟩ |
    ⟨whole, fraction, c, tail, rfl, hwhole, hfraction, hc, hpoint⟩
  · -- Digits only: the integer is judged where the token ends.
    rw [scan_digits hdigits, scan_number hends, wholeFault?_digits hdigits hne,
      readUnsigned_digits hdigits, signText_bne_nil, Nat.add_assoc, ← Text.byteLength_append]
    simp only [readInteger]
    generalize (if negative = true then -(Nat.ofDigitChars 10 unsigned 0 : Int)
      else Nat.ofDigitChars 10 unsigned 0) = value
    cases Number.integer? value with
    | none => rfl
    | some value => rfl
  · -- One point: all that can be wrong is that there is no digit.
    rw [List.append_assoc, List.cons_append, scan_fraction hwhole hfraction, scan_number hends,
      wholeFault?_point hwhole hfraction, readUnsigned_point hwhole hfraction, Nat.add_assoc,
      ← Text.byteLength_append, List.append_assoc]
    by_cases hempty : whole = [] ∧ fraction = []
    · rw [if_pos hempty, if_pos hempty]
      rfl
    · rw [if_neg hempty, if_neg hempty]
      rfl
  · -- A second point is the fault, wherever the token ends.
    rw [List.append_assoc, List.cons_append, List.append_assoc, scan_fraction hwhole hfraction,
      List.cons_append, scan_foreign rfl rfl fun _ => rfl,
      readUnsigned_twoPoints hwhole hfraction]
    simp only [NumberScanned, if_true, List.append_assoc, List.cons_append, Text.byteLength_append,
      Text.byteLength, Nat.add_assoc, Nat.add_zero]
  · -- A foreign character before any point.
    have hdelimiter := hinside c (List.mem_append_right whole List.mem_cons_self)
    rw [List.append_assoc, scan_digits hwhole, List.cons_append,
      scan_foreign hdelimiter hc fun h => absurd h hpoint, readUnsigned_malformed hwhole hc hpoint]
    simp only [NumberScanned, if_neg hpoint, Text.byteLength_append, Text.byteLength,
      Nat.add_assoc, Nat.add_zero]
  · -- A foreign character behind the point.
    have hdelimiter := hinside c (List.mem_append_right whole (List.mem_cons_of_mem _
      (List.mem_append_right fraction List.mem_cons_self)))
    rw [List.append_assoc, List.cons_append, List.append_assoc, scan_fraction hwhole hfraction,
      List.cons_append, scan_foreign hdelimiter hc fun h => absurd h hpoint,
      readUnsigned_malformedFraction hwhole hfraction hc hpoint]
    simp only [NumberScanned, if_neg hpoint, List.append_assoc, List.cons_append,
      Text.byteLength_append, Text.byteLength, Nat.add_assoc, Nat.add_zero]

/-- A number has the fault it reads with, and without one it is scanned to its
    end. -/
theorem scan_numberToken {token : List Char} (hstart : startsNumber token = true)
    (hinside : ∀ c ∈ token, isDelimiter c = false) (hends : TokenEnds rest) :
    NumberScanned stack offset token rest (scan ⟨stack, .between, offset⟩ (token ++ rest))
      (readNumber token) := by
  rcases startsNumber_eq_true_iff.mp hstart with ⟨negative, unsigned, rfl, hne, hhead⟩
  have hinside := fun c hc => hinside c (List.mem_append_right (signText negative) hc)
  rw [List.append_assoc, scan_signText hne hinside hhead,
    readNumber_signText (head?_ne_minus_of_digit hhead)]
  exact scan_unsigned hne hinside hends

end Scanner

end Parse

end AttrExpr
