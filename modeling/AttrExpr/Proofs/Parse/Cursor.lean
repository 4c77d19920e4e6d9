import AttrExpr.Proofs.Parse.NumberToken
import AttrExpr.Proofs.Text.Encoded

/-!
# Walking a Text by Bytes

The reader once more, as a cursor that sees bytes.

Reading takes characters off the front of a list, so it always knows what is
left and what was taken. A cursor is just a place. It sees one byte at a time
and moves by one byte, in the middle of a character too. What it has passed it
has to cut out of the text again, and that takes two character boundaries. So it
can fail in ways that a reader cannot: it may go around without moving on, cut a
character in two, or look for a character where there is none.

None of this is given a result here. A loop gets a round for each byte that is
left and one more, and if they do not suffice, or if something is cut or looked
for that is not there, walking comes to `none`. The leaves are walked in this
module, and walking them comes to what reading them does.

What makes it work is that a byte is only ever compared with ASCII characters.
A part of a longer character is taken for none of them, so the cursor passes all
bytes of it or stops at the first.

## Main definitions

* `peek?`, `bump`, `cut?`: What a cursor sees, a move, and a cut.
* `Walked`, `walked`: What walking comes to, and what it comes to if it does
  what reading does.
* `walkString`, `walkSymbol`, `walkNumber`: The leaves.
* `walkNode`: One node, if it is known how to walk what a group holds.
* `Input.At`: The cursor is at the front of an input.

## Theorems

* `skipWhile_eq`, `findQuote_eq`, `scanNumber_eq`: The loops stop where the
  characters do.
* `walkNode_eq`: Walking a node comes to what reading it does.
-/

namespace AttrExpr

open Text

namespace Parse

/-- What walking comes to: something read and the place behind it, or the first
    fault. There is no result if the cursor gets stuck. -/
abbrev Walked (α : Type) := Option (Except ParseError (α × Nat))

/-- What walking comes to if it does what reading does. A reader keeps what is
    left of the text and a cursor only its place, so the offset is all that is
    compared of the input behind what was read. -/
def walked {α : Type} (result : Progress α) : Walked α :=
  some (result.map fun (read, beyond) => (read, beyond.offset))

/-- How the scan of a number ends. The three ways need different cuts: up to
    the end, past the second point, and up to a character that is looked up
    whole. -/
inductive NumberScan where
  /-- The token ends at `stop`. -/
  | complete (stop : Nat)
  /-- There is a second point at `place`. -/
  | secondPoint (place : Nat)
  /-- At `place` there is a byte that belongs to no number. -/
  | foreign (place : Nat)

/-- Whether a token ends where the cursor sees this: at a delimiter, or at the
    end of the text, where it sees nothing. -/
def endsToken : Option Char → Bool
  | none => true
  | some c => isDelimiter c

namespace Cursor

section

variable (source : String)

/-- The rounds a loop has that begins at `pos`: one for each byte that is left,
    and one more. -/
def rounds (pos : Nat) : Nat := byteLength source.toList - pos + 1

/-- The byte at the cursor, read as a character. For a longer character it is
    the character with that number, which is beyond ASCII. -/
def peek? (pos : Nat) : Option Char := (byteAt? source pos).map Char.ofUInt8

/-- One byte further, unless the text is over. -/
def bump (pos : Nat) : Nat := if pos < byteLength source.toList then pos + 1 else pos

/-- The whole character at the cursor. There is none inside a character. -/
def peekChar? (pos : Nat) : Option Char := (dropBytes? pos source.toList).bind List.head?

/-- The text between two places, which have to be character boundaries. -/
def cut? (start stop : Nat) : Option String := Span.slice? ⟨start, stop⟩ source

/-- Moves on while the bytes pass a test. That it stops between characters is
    not assumed but proved, by `skipWhile_eq`. -/
def skipWhile (test : Char → Bool) : (rounds pos : Nat) → Option Nat
  | 0, _ => none
  | rounds + 1, pos =>
      match peek? source pos with
      | none => some pos
      | some c => if test c then skipWhile test rounds (pos + 1) else some pos

/-- Looks for the quote that closes a string. `before` is the byte in front of
    the cursor; a quote right behind a backslash closes nothing. The error is
    where the text ends without one. -/
def findQuote : (rounds : Nat) → (before : Char) → (pos : Nat) → Option (Except Nat Nat)
  | 0, _, _ => none
  | rounds + 1, before, pos =>
      match peek? source pos with
      | none => some (.error pos)
      | some c =>
          if c = '\'' ∧ before ≠ '\\' then some (.ok pos) else findQuote rounds c (bump source pos)

/-- Passes what belongs to a number; `pointed` says whether a point was
    passed. Whether what was passed is a number is asked afterwards, of the
    text that is cut out. -/
def scanNumber : (rounds : Nat) → (pointed : Bool) → (pos : Nat) → Option NumberScan
  | 0, _, _ => none
  | rounds + 1, pointed, pos =>
      match peek? source pos with
      | none => some (.complete pos)
      | some c =>
          if isDelimiter c then some (.complete pos)
          else if c.isDigit then scanNumber rounds pointed (bump source pos)
          else if c = '.' then
            if pointed then some (.secondPoint pos) else scanNumber rounds true (bump source pos)
          else some (.foreign pos)

/-- Walks a string whose opening quote is at `start`. The byte in front of the
    first one looked at is that quote, so `before` begins as it. -/
def walkString (start : Nat) : Walked Node :=
  let first := bump source start
  (findQuote source (rounds source first) '\'' first).bind fun
    | .error stop => some (.error ⟨.unterminatedString, Span.ofRange start stop⟩)
    | .ok stop =>
        (cut? source first stop).map fun raw =>
          let beyond := bump source stop
          .ok (.string (stringValue raw.toList) (Span.ofRange start beyond), beyond)

/-- Walks a symbol that begins at `start`, whatever its first byte is. One byte
    is passed unseen, so a loop of symbols cannot stay in one place. -/
def walkSymbol (start : Nat) : Walked Node :=
  let first := bump source start
  (skipWhile source (fun c => !isDelimiter c) (rounds source first) first).bind fun stop =>
    (cut? source start stop).map fun text => .ok (.symbol text (Span.ofRange start stop), stop)

/-- Walks a number that begins at `start` with a digit or the sign. A character
    that belongs to no number may have several bytes, and is put behind what
    was cut out in front of it. -/
def walkNumber (start : Nat) : Walked Node :=
  let first := bump source start
  (scanNumber source (rounds source first) false first).bind fun
    | .complete stop =>
        (cut? source start stop).map fun text =>
          match readNumber text.toList with
          | .ok value => .ok (.number value (Span.ofRange start stop), stop)
          | .error (fault, _) => .error ⟨.number fault text, Span.ofRange start stop⟩
    | .secondPoint place =>
        let beyond := bump source place
        (cut? source start beyond).map fun text =>
          .error ⟨.number .extraDecimalPoint text, Span.ofRange start beyond⟩
    | .foreign place =>
        (peekChar? source place).bind fun bad =>
          (cut? source start place).map fun text =>
            .error ⟨.number .malformed (text.push bad), Span.ofRange start (place + bad.utf8Size)⟩

/-- Walks the node at `pos`. `walkGroup` walks what an enclosure holds, from
    behind its opening bracket; it is a parameter, so that the leaves are done
    with before the recursion is looked at. -/
def walkNode (walkGroup : Enclosure → Nat → Walked (List Node)) (pos : Nat) : Walked Node :=
  match peek? source pos with
  | none => walkSymbol source pos
  | some c =>
      match Bracket.ofOpening? c with
      | some bracket =>
          (walkGroup (.group bracket pos) (bump source pos)).map fun held =>
            held.map fun (children, beyond) =>
              (.group bracket children (Span.ofRange pos beyond), beyond)
      | none =>
          if c = '\'' then walkString source pos
          else if c = '-' ∧ endsToken (peek? source (pos + 1)) = true then walkSymbol source pos
          else if c = '-' ∨ c.isDigit = true then walkNumber source pos
          else walkSymbol source pos

end

end Cursor

/-- The cursor is at the front of the input: the input is what is left of the
    source there. This is the invariant of the walk. It makes every place the
    cursor comes to between two nodes a character boundary. -/
def Input.At (source : String) (input : Input) : Prop :=
  ∃ front, source.toList = front ++ input.rest ∧ input.offset = byteLength front

open Cursor

/-- Where there is a byte to be seen the cursor moves on. So a loop that looks
    before it moves is never held up by the end of the text. -/
theorem bump_of_peek? {source : String} {pos : Nat} {d : Char} (h : peek? source pos = some d) :
    bump source pos = pos + 1 := by
  rw [peek?, byteAt?_eq, Option.map_eq_some_iff] at h
  rcases h with ⟨b, hbyte, _⟩
  rcases List.getElem?_eq_some_iff.mp hbyte with ⟨hlt, _⟩
  rw [length_encoded] at hlt
  exact if_pos hlt

/-! ## At the front of an input -/

namespace Input.At

variable {source : String} {input : Input} {c : Char} {taken rest : List Char}

theorem ofString (source : String) : (Input.ofString source).At source := ⟨[], rfl, rfl⟩

/-- Passing characters keeps the cursor at the front of an input. -/
theorem after (hat : input.At source) (taken : List Char) (h : input.rest = taken ++ rest) :
    (input.after taken rest).At source := by
  rcases hat with ⟨front, hsource, hoffset⟩
  have hfront : source.toList = (front ++ taken) ++ rest := by rw [hsource, h, List.append_assoc]
  have hplace : input.offset + byteLength taken = byteLength (front ++ taken) := by
    rw [byteLength_append, hoffset]
  exact ⟨front ++ taken, hfront, hplace⟩

/-- One character passed, which is the step of every loop here. -/
theorem next (hat : input.At source) (h : input.rest = c :: rest) :
    (Input.mk rest (input.offset + c.utf8Size)).At source := hat.after [c] h

/-- The front of an input is a character boundary of the source. -/
theorem isValid (hat : input.At source) : (String.Pos.Raw.mk input.offset).IsValid source := by
  rcases hat with ⟨front, hsource, hoffset⟩
  rw [hoffset]
  exact isValid_front hsource

/-- The place and the bytes that are left make up the source. -/
theorem offset_add (hat : input.At source) :
    input.offset + byteLength input.rest = byteLength source.toList := by
  rcases hat with ⟨front, hsource, hoffset⟩
  rw [hsource, byteLength_append, hoffset]

theorem rest_eq (hat : input.At source) :
    byteLength input.rest = byteLength source.toList - input.offset := by
  rw [← hat.offset_add, Nat.add_sub_cancel_left]

/-- The rounds are enough for what is left, with one for the round in which the
    loop sees that it is done. -/
theorem lt_rounds (hat : input.At source) : byteLength input.rest < rounds source input.offset := by
  rw [rounds, ← hat.rest_eq]
  exact Nat.lt_succ_self _

theorem peek?_end (hat : input.At source) (h : input.rest = []) :
    peek? source input.offset = none := by
  have hsize := hat.offset_add
  rw [h, byteLength, Nat.add_zero] at hsize
  rw [peek?, hsize, byteAt?_end, Option.map_none]

/-- From the front on the cursor sees parts of the first character, one for each
    of its bytes. All that the loops have to know of a byte is whose part it
    is. -/
theorem exists_peek? (hat : input.At source) (h : input.rest = c :: rest) {i : Nat}
    (hi : i < c.utf8Size) : ∃ d, peek? source (input.offset + i) = some d ∧ PartOf d c := by
  rcases hat with ⟨front, hsource, hoffset⟩
  rw [h] at hsource
  rcases exists_partOf hsource hi with ⟨b, hbyte, hpart⟩
  exact ⟨Char.ofUInt8 b, by rw [peek?, hoffset, hbyte, Option.map_some], hpart⟩

theorem exists_peek?_front (hat : input.At source) (h : input.rest = c :: rest) :
    ∃ d, peek? source input.offset = some d ∧ PartOf d c :=
  hat.exists_peek? h c.utf8Size_pos

theorem bump_eq (hat : input.At source) (h : input.rest = c :: rest) :
    bump source input.offset = input.offset + 1 := by
  rcases hat.exists_peek?_front h with ⟨d, hpeek, _⟩
  exact bump_of_peek? hpeek

/-- An ASCII character is seen as it is, since it is its only part. -/
theorem peek?_ascii (hat : input.At source) (h : input.rest = c :: rest) (hc : c.toNat < 128) :
    peek? source input.offset = some c := by
  rcases hat.exists_peek?_front h with ⟨d, hpeek, hpart⟩
  rw [hpeek, (hpart.eq_iff hc).mpr rfl]

theorem peekChar?_eq (hat : input.At source) :
    peekChar? source input.offset = input.rest.head? := by
  rcases hat with ⟨front, hsource, hoffset⟩
  rw [peekChar?, hsource, hoffset, dropBytes?_append, Option.bind_some]

/-- What stands in front of the rest can be cut out: both ends of the cut are
    boundaries. -/
theorem cut?_eq (hat : input.At source) (h : input.rest = taken ++ rest) :
    cut? source input.offset (input.offset + byteLength taken) = some (String.ofList taken) := by
  rcases hat with ⟨front, hsource, hoffset⟩
  rw [h] at hsource
  rw [cut?, hoffset]
  exact Span.slice?_part hsource

end Input.At

/-! ## Tests of a byte -/

/-- All characters that mean something between tokens are ASCII. A byte of a
    longer character therefore never looks like one of them. -/
theorem isDelimiter_of_le {c : Char} (h : 128 ≤ c.toNat) : isDelimiter c = false := by
  refine Bool.eq_false_iff.mpr fun hdelimiter => ?_
  simp only [isDelimiter, isBlank, Bool.or_eq_true, beq_iff_eq] at hdelimiter
  rcases hdelimiter with (((((((rfl | rfl) | rfl) | rfl) | rfl) | rfl) | rfl) | rfl)
  all_goals exact absurd h (by decide)

theorem isDigit_of_le {c : Char} (h : 128 ≤ c.toNat) : c.isDigit = false := by
  refine Bool.eq_false_iff.mpr fun hdigit => ?_
  simp only [Char.isDigit, Bool.and_eq_true, decide_eq_true_iff, UInt32.le_iff_toNat_le] at hdigit
  have hlast : c.toNat ≤ 57 := hdigit.2
  omega

theorem utf8Size_of_isDigit {c : Char} (h : c.isDigit = true) : c.utf8Size = 1 := by
  have hlt : c.toNat < 128 := by
    refine Nat.lt_of_not_le fun hle => ?_
    rw [isDigit_of_le hle] at h
    cases h
  exact utf8Size_eq_one_iff.mpr hlt

/-! ## Loops -/

section

variable {source : String} {input : Input}

/-- Bytes that pass are skipped, a round for each. -/
theorem skipWhile_steps {test : Char → Bool} {n : Nat} (rounds : Nat) {pos : Nat}
    (h : ∀ i < n, ∃ d, peek? source (pos + i) = some d ∧ test d = true) :
    skipWhile source test (rounds + n) pos = skipWhile source test rounds (pos + n) := by
  induction n generalizing pos with
  | zero => rfl
  | succ n ih =>
      rcases h 0 (Nat.zero_lt_succ n) with ⟨d, hpeek, htest⟩
      rw [Nat.add_zero] at hpeek
      rw [← Nat.add_assoc, skipWhile, hpeek]
      simp only [htest, if_true]
      -- The other bytes are the same ones, counted from the next place.
      have hothers : ∀ i < n, ∃ d, peek? source (pos + 1 + i) = some d ∧ test d = true := by
        intro i hi
        rw [Nat.add_assoc, Nat.add_comm 1 i]
        exact h (i + 1) (Nat.succ_lt_succ hi)
      rw [ih hothers, Nat.add_assoc, Nat.add_comm 1 n]

/-- A run of characters that pass a test is passed, and nothing else, if the
    test has one answer beyond ASCII. Without that the loop could stop in the
    middle of a character, of which only some bytes pass. -/
theorem skipWhile_eq {test : Char → Bool} {answer : Bool}
    (htest : ∀ c : Char, 128 ≤ c.toNat → test c = answer) (hat : input.At source) (rounds : Nat)
    (hrounds : byteLength input.rest < rounds) :
    skipWhile source test rounds input.offset =
      some (input.offset + byteLength (input.rest.takeWhile test)) := by
  obtain ⟨rest, offset⟩ := input
  induction rest generalizing offset rounds with
  | nil =>
      obtain ⟨left, rfl⟩ : ∃ left, rounds = left + 1 := ⟨rounds - 1, by omega⟩
      rw [skipWhile, hat.peek?_end rfl]
      rfl
  | cons c cs ih =>
      simp only [byteLength] at hrounds
      cases hc : test c with
      | true =>
          -- All bytes of the character pass, and the rest is one character shorter.
          obtain ⟨left, rfl⟩ : ∃ left, rounds = left + c.utf8Size :=
            ⟨rounds - c.utf8Size, by omega⟩
          have hbytes : ∀ i < c.utf8Size, ∃ d, peek? source (offset + i) = some d ∧
              test d = true := by
            intro i hi
            rcases hat.exists_peek? rfl hi with ⟨d, hpeek, hpart⟩
            exact ⟨d, hpeek, (hpart.test_eq htest).trans hc⟩
          simp only at ih ⊢
          rw [skipWhile_steps left hbytes, ih left _ (hat.next rfl) (by omega),
            List.takeWhile_cons_of_pos hc, byteLength, Nat.add_assoc]
      | false =>
          -- The first byte fails as the character does, and the cursor stays there.
          rcases hat.exists_peek?_front rfl with ⟨d, hpeek, hpart⟩
          have hpos := c.utf8Size_pos
          obtain ⟨left, rfl⟩ : ∃ left, rounds = left + 1 := ⟨rounds - 1, by omega⟩
          have hd : test d = false := (hpart.test_eq htest).trans hc
          rw [skipWhile, hpeek, List.takeWhile_cons_of_neg (by rw [hc]; exact Bool.false_ne_true)]
          simp only [hd, Bool.false_eq_true, if_false, byteLength, Nat.add_zero]

/-- The bytes of a long character close no string, and none of them is a
    backslash. So what the cursor remembers behind them is beyond ASCII, and a
    quote that follows is not taken for an escaped one. -/
theorem exists_findQuote_steps {n : Nat} (rounds : Nat) (before : Char) {pos : Nat}
    (h : ∀ i < n, ∃ d, peek? source (pos + i) = some d ∧ 128 ≤ d.toNat) (hn : 0 < n) :
    ∃ last : Char, 128 ≤ last.toNat ∧
      findQuote source (rounds + n) before pos = findQuote source rounds last (pos + n) := by
  induction n generalizing before pos with
  | zero => cases hn
  | succ n ih =>
      rcases h 0 hn with ⟨d, hpeek, hd⟩
      rw [Nat.add_zero] at hpeek
      -- The quote is ASCII, so this byte is passed whatever stands before it.
      have hquote : ¬ (d = '\'' ∧ before ≠ '\\') := by
        rintro ⟨rfl, _⟩
        exact absurd hd (by decide)
      have hstep : findQuote source (rounds + (n + 1)) before pos =
          findQuote source (rounds + n) d (pos + 1) := by
        rw [← Nat.add_assoc, findQuote, hpeek]
        simp only [if_neg hquote, bump_of_peek? hpeek]
      rw [hstep]
      rcases Nat.eq_zero_or_pos n with rfl | hpos
      · exact ⟨d, hd, rfl⟩
      · have hothers : ∀ i < n, ∃ d, peek? source (pos + 1 + i) = some d ∧ 128 ≤ d.toNat := by
          intro i hi
          rw [show pos + 1 + i = pos + (i + 1) by omega]
          exact h (i + 1) (Nat.succ_lt_succ hi)
        rw [show pos + (n + 1) = pos + 1 + n by omega]
        exact ih d hothers hpos

/-- A character that closes no string is passed, and what is in front of the
    cursor then is a backslash if it was one. -/
theorem exists_findQuote_char {c : Char} {cs : List Char} (hat : input.At source)
    (h : input.rest = c :: cs) (rounds : Nat) {before : Char}
    (hquote : ¬ (c = '\'' ∧ before ≠ '\\')) :
    ∃ last : Char, (last = '\\' ↔ c = '\\') ∧
      findQuote source (rounds + c.utf8Size) before input.offset =
        findQuote source rounds last (input.offset + c.utf8Size) := by
  by_cases hc : c.utf8Size = 1
  · -- One byte, which is the character itself.
    have hpeek := hat.peek?_ascii h (utf8Size_eq_one_iff.mp hc)
    refine ⟨c, Iff.rfl, ?_⟩
    rw [hc, findQuote, hpeek]
    simp only [if_neg hquote, bump_of_peek? hpeek]
  · -- Several bytes, none of which is a backslash, as the character is none.
    have hwide : 128 ≤ c.toNat := Nat.le_of_not_lt fun hlt => hc (utf8Size_eq_one_iff.mpr hlt)
    have hparts : ∀ i < c.utf8Size, ∃ d, peek? source (input.offset + i) = some d ∧
        128 ≤ d.toNat := by
      intro i hi
      rcases hat.exists_peek? h hi with ⟨d, hpeek, ⟨_, hone⟩ | ⟨hd, _⟩⟩
      · exact absurd hone hc
      · exact ⟨d, hpeek, hd⟩
    rcases exists_findQuote_steps rounds before hparts c.utf8Size_pos with ⟨last, hlast, hsteps⟩
    have hbackslash : last = '\\' ↔ c = '\\' := by
      constructor
      · rintro rfl
        exact absurd hlast (by decide)
      · rintro rfl
        exact absurd hwide (by decide)
    exact ⟨last, hbackslash, hsteps⟩

/-- The closing quote is found where a string is closed, or else the end of the
    text. The induction is on the characters, and each takes as many rounds as
    it has bytes. -/
theorem findQuote_eq (hat : input.At source) {rounds : Nat} (before : Char)
    (hrounds : byteLength input.rest < rounds) :
    findQuote source rounds before input.offset =
      some ((closeString? (before == '\\') input.rest).elim (.error input.stop)
        fun closed => .ok (input.offset + byteLength closed.1)) := by
  obtain ⟨rest, offset⟩ := input
  induction rest generalizing before offset rounds with
  | nil =>
      obtain ⟨left, rfl⟩ : ∃ left, rounds = left + 1 := ⟨rounds - 1, by omega⟩
      rw [findQuote, hat.peek?_end rfl]
      rfl
  | cons c cs ih =>
      simp only [byteLength] at hrounds
      by_cases hquote : c = '\'' ∧ before ≠ '\\'
      · -- Both find the closing quote here.
        obtain ⟨left, rfl⟩ : ∃ left, rounds = left + 1 := ⟨rounds - 1, by omega⟩
        have hclose : c = '\'' ∧ (before == '\\') = false :=
          ⟨hquote.1, beq_eq_false_iff_ne.mpr hquote.2⟩
        rw [findQuote, hat.peek?_ascii rfl (by rw [hquote.1]; decide)]
        simp only [if_pos hquote, closeString?, if_pos hclose]
        rfl
      · obtain ⟨left, rfl⟩ : ∃ left, rounds = left + c.utf8Size :=
          ⟨rounds - c.utf8Size, by omega⟩
        have hclose : ¬ (c = '\'' ∧ (before == '\\') = false) :=
          fun h => hquote ⟨h.1, beq_eq_false_iff_ne.mp h.2⟩
        -- The cursor remembers the last byte and not the character, which is enough to tell
        -- whether it was a backslash.
        rcases exists_findQuote_char hat rfl left hquote with ⟨last, hlast, hstep⟩
        have hbackslash : (last == '\\') = (c == '\\') :=
          Bool.eq_iff_iff.mpr (by rw [beq_iff_eq, beq_iff_eq, hlast])
        simp only at ih hstep ⊢
        rw [hstep, ih last _ (hat.next rfl) (by omega), hbackslash, closeString?, if_neg hclose]
        cases closeString? (c == '\\') cs with
        | none =>
            simp only [Option.elim_none, Option.map_none, Input.stop, byteLength, Nat.add_assoc]
        | some closed =>
            simp only [Option.elim_some, Option.map_some, byteLength, Nat.add_assoc]

/-- A cursor at the front of an input sees whether a token ends there. -/
theorem endsToken_peek?_iff (hat : input.At source) :
    endsToken (peek? source input.offset) = true ↔ TokenEnds input.rest := by
  cases hrest : input.rest with
  | nil =>
      rw [hat.peek?_end hrest]
      exact iff_of_true rfl tokenEnds_nil
  | cons c rest =>
      rcases hat.exists_peek?_front hrest with ⟨d, hpeek, hpart⟩
      rw [hpeek, endsToken, hpart.test_eq fun _ => isDelimiter_of_le]
      constructor
      · rintro h _ ⟨⟩
        exact h
      · exact fun h => h c rfl

section

variable {done rest : List Char} {c : Char} (left : Nat)

theorem scanNumber_ends (hat : input.At source) (hends : TokenEnds input.rest) (pointed : Bool) :
    scanNumber source (left + 1) pointed input.offset = some (.complete input.offset) := by
  have hseen := (endsToken_peek?_iff hat).mpr hends
  rw [scanNumber]
  cases hpeek : peek? source input.offset with
  | none => rfl
  | some d =>
      rw [hpeek, endsToken] at hseen
      simp only [hseen, if_true]

/-- The scan stops at a character that offends. Only its first byte was seen,
    and that is enough: the tests are of digits, of delimiters and of the
    point, which are ASCII. -/
theorem scanNumber_stops (hat : input.At source) (h : input.rest = c :: rest)
    (hinside : isDelimiter c = false) (hoffends : Offends done c) :
    scanNumber source (left + 1) (decide ('.' ∈ done)) input.offset =
      some (if c = '.' then .secondPoint input.offset else .foreign input.offset) := by
  rcases hat.exists_peek?_front h with ⟨d, hpeek, hpart⟩
  have hdelimiter : isDelimiter d = false :=
    (hpart.test_eq fun _ => isDelimiter_of_le).trans hinside
  have hdigit : d.isDigit = false :=
    (hpart.test_eq fun _ => isDigit_of_le).trans hoffends.1
  have hpoint : d = '.' ↔ c = '.' := hpart.eq_iff (by decide)
  rw [scanNumber, hpeek]
  simp only [hdelimiter, hdigit, hpoint, Bool.false_eq_true, if_false]
  split
  · -- A point offends only behind another one.
    rename_i hc
    simp only [hoffends.2 hc, decide_true, if_true]
  · rfl

/-- The scan passes a character that does not offend, which is one byte: what
    may stand in a number is a digit or the first point. -/
theorem scanNumber_passes (hat : input.At source) (h : input.rest = c :: rest)
    (hinside : isDelimiter c = false) (hfine : ¬ Offends done c) :
    c.utf8Size = 1 ∧ scanNumber source (left + 1) (decide ('.' ∈ done)) input.offset =
      scanNumber source left (decide ('.' ∈ done ++ [c])) (input.offset + 1) := by
  rcases cases_of_not_offends hfine with hdigit | ⟨rfl, hfirst⟩
  · have hsize := utf8Size_of_isDigit hdigit
    have hpeek := hat.peek?_ascii h (utf8Size_eq_one_iff.mp hsize)
    -- A digit leaves open whether a point was passed.
    have hpoint : ¬ '.' = c := by
      rintro rfl
      cases hdigit
    refine ⟨hsize, ?_⟩
    rw [scanNumber, hpeek]
    simp only [hinside, hdigit, Bool.false_eq_true, if_false, if_true, bump_of_peek? hpeek,
      List.mem_append, List.mem_singleton, hpoint, or_false]
  · have hpeek := hat.peek?_ascii h (by decide)
    refine ⟨rfl, ?_⟩
    rw [scanNumber, hpeek]
    simp only [hinside, isDigit_point, Bool.false_eq_true, if_false, if_true, hfirst,
      decide_false, bump_of_peek? hpeek, List.mem_append, List.mem_singleton, or_true, decide_true]

end

/-- The scan of a number passes the token or stops at its first offence. The
    induction is on what is left of the token; `done` is what was passed, and
    stays without an offence. -/
theorem scanNumber_eq {done tail after : List Char} {offset : Nat}
    (hat : Input.At source ⟨tail ++ after, offset⟩) (hinside : ∀ c ∈ tail, isDelimiter c = false)
    (hends : TokenEnds after) (hdone : Unspoiled done) {rounds : Nat}
    (hrounds : byteLength (tail ++ after) < rounds) :
    (Unspoiled (done ++ tail) ∧
      scanNumber source rounds (decide ('.' ∈ done)) offset =
        some (.complete (offset + byteLength tail))) ∨
    ∃ before c rest, tail = before ++ c :: rest ∧ Unspoiled (done ++ before) ∧
      Offends (done ++ before) c ∧
      scanNumber source rounds (decide ('.' ∈ done)) offset =
        some (if c = '.' then .secondPoint (offset + byteLength before)
          else .foreign (offset + byteLength before)) := by
  induction tail generalizing done offset rounds with
  | nil =>
      obtain ⟨left, rfl⟩ : ∃ left, rounds = left + 1 := ⟨rounds - 1, by omega⟩
      exact Or.inl ⟨by rwa [List.append_nil], scanNumber_ends left hat hends _⟩
  | cons c tail ih =>
      obtain ⟨left, rfl⟩ : ∃ left, rounds = left + 1 := ⟨rounds - 1, by omega⟩
      have hc := hinside c List.mem_cons_self
      by_cases hoffends : Offends done c
      · -- The first offence is here, with nothing more passed.
        exact Or.inr ⟨[], c, tail, rfl, by rwa [List.append_nil], by rwa [List.append_nil],
          scanNumber_stops left hat rfl hc hoffends⟩
      · rcases scanNumber_passes left hat rfl hc hoffends with ⟨hsize, hstep⟩
        simp only at hstep
        have hnext : Input.At source ⟨tail ++ after, offset + 1⟩ := hsize ▸ hat.next rfl
        rw [List.cons_append, byteLength, hsize] at hrounds
        have hless : byteLength (tail ++ after) < left := by omega
        rw [hstep]
        rcases ih hnext (fun c hc => hinside c (List.mem_cons_of_mem _ hc)) (hdone.snoc hoffends)
          hless with ⟨hall, hscan⟩ | ⟨before, e, rest, rfl, hbefore, he, hscan⟩
        · left
          constructor
          · rwa [List.append_assoc] at hall
          · rw [hscan, byteLength, hsize, Nat.add_assoc]
        · -- The offence of the tail is that of the token, one character further on.
          rw [List.append_assoc] at hbefore he
          refine Or.inr ⟨c :: before, e, rest, rfl, hbefore, he, ?_⟩
          rw [hscan, byteLength, hsize, Nat.add_assoc]

/-! ## Leaves -/

theorem walkString_eq {rest : List Char} (hat : input.At source) (h : input.rest = '\'' :: rest) :
    walkString source input.offset = walked (readString input rest) := by
  have hfirst : (Input.mk rest (input.offset + 1)).At source := hat.next h
  have hfound := findQuote_eq hfirst '\'' hfirst.lt_rounds
  have hbackslash : ('\'' == '\\') = false := rfl
  rw [walkString, hat.bump_eq h]
  simp only [hbackslash] at hfound ⊢
  rw [hfound]
  rcases hclose : closeString? false rest with _ | ⟨body, left⟩
  · -- Neither finds a closing quote, and both stop at the end of the text.
    rw [readString_open hclose]
    simp only [Option.elim_none, Option.bind_some, Input.stop, h, byteLength, Nat.add_assoc]
    rfl
  · -- The closing quote is behind the body, and the cursor moves past it.
    have hbody := closeString?_eq_append hclose
    have hquote : (Input.mk ('\'' :: left) (input.offset + 1 + byteLength body)).At source :=
      hfirst.after body hbody
    have hstop : (input.after ('\'' :: (body ++ ['\''])) left).offset =
        input.offset + 1 + byteLength body + 1 := by
      have hsize : ('\'' : Char).utf8Size = 1 := rfl
      simp only [Input.after, byteLength, byteLength_append, hsize]
      omega
    rw [readString_closed hclose, hstop]
    simp only [Option.elim_some, Option.bind_some]
    rw [hfirst.cut?_eq hbody, hquote.bump_eq rfl]
    simp only [Option.map_some, walked, Except.map, hstop, String.toList_ofList]

/-- A token ends where the reader ends it, also if the cursor starts inside of
    its first character. -/
theorem skipWhile_token {c : Char} {rest : List Char} (hat : input.At source)
    (h : input.rest = c :: rest) (hc : isDelimiter c = false) :
    skipWhile source (fun c => !isDelimiter c) (rounds source (input.offset + 1))
      (input.offset + 1) = some input.pastToken.offset := by
  have htest : ∀ c : Char, 128 ≤ c.toNat → (!isDelimiter c) = true := fun c hle => by
    rw [isDelimiter_of_le hle, Bool.not_false]
  have hfirst : ∃ d, peek? source (input.offset + 0) = some d ∧ (!isDelimiter d) = true := by
    rcases hat.exists_peek?_front h with ⟨d, hpeek, hpart⟩
    exact ⟨d, hpeek, by rw [hpart.test_eq fun _ => isDelimiter_of_le, hc, Bool.not_false]⟩
  have hone : ∀ i < 1, ∃ d, peek? source (input.offset + i) = some d ∧
      (!isDelimiter d) = true := by
    intro i hi
    rwa [Nat.lt_one_iff.mp hi]
  have hrounds : byteLength input.rest < rounds source (input.offset + 1) + 1 := by
    have hsize := hat.offset_add
    rw [rounds]
    omega
  -- With one more round the cursor would have started in front of the character.
  rw [← skipWhile_steps (rounds source (input.offset + 1)) hone]
  exact skipWhile_eq htest hat _ hrounds

/-- Walking a symbol comes to the whole token, whatever it is. -/
theorem walkSymbol_eq {c : Char} {rest : List Char} (hat : input.At source)
    (h : input.rest = c :: rest) (hc : isDelimiter c = false) :
    walkSymbol source input.offset =
      walked (.ok (.symbol (String.ofList input.token)
        (Span.ofRange input.offset input.pastToken.offset), input.pastToken)) := by
  have hcut : cut? source input.offset input.pastToken.offset = some (String.ofList input.token) :=
    hat.cut?_eq input.token_append_pastToken
  rw [walkSymbol, hat.bump_eq h]
  simp only [skipWhile_token hat h hc, Option.bind_some, hcut]
  rfl

section

variable {first : Char} {tail after : List Char} {offset : Nat}

/-- The first character of a number is one byte, so passing it unseen leaves the
    cursor between characters. -/
theorem Starts.utf8Size_eq (h : Starts first tail) : first.utf8Size = 1 := by
  rcases h with hdigit | ⟨rfl, _⟩
  · exact utf8Size_of_isDigit hdigit
  · rfl

/-- Walking a number comes to what reading its token does. The reader decides
    from the whole token and the cursor from one byte after the other; what
    both come to is the first offence, or the value if there is none. -/
theorem walkNumber_eq (hat : Input.At source ⟨first :: tail ++ after, offset⟩)
    (hstart : Starts first tail) (hinside : ∀ c ∈ first :: tail, isDelimiter c = false)
    (hends : TokenEnds after) :
    walkNumber source offset = walked (readToken ⟨first :: tail ++ after, offset⟩) := by
  have hsize : ∀ text, offset + byteLength (first :: text) = offset + 1 + byteLength text := by
    intro text
    rw [byteLength, hstart.utf8Size_eq, Nat.add_assoc]
  have hnext : Input.At source ⟨tail ++ after, offset + 1⟩ := hstart.utf8Size_eq ▸ hat.next rfl
  have hbump : bump source offset = offset + 1 := hat.bump_eq rfl
  have hnil : Unspoiled [] := unspoiled_of_digits nofun
  have hpointed : decide ('.' ∈ ([] : List Char)) = false := rfl
  rw [readToken_located hstart hinside offset hends, walkNumber, hbump]
  rcases scanNumber_eq hnext (List.forall_mem_cons.mp hinside).2 hends hnil hnext.lt_rounds with
    ⟨hall, hscan⟩ | ⟨before, c, rest, rfl, hbefore, hoffends, hscan⟩
  · -- The token has no offence, so all of it is cut out and read.
    have hcut : cut? source offset (offset + 1 + byteLength tail) =
        some (String.ofList (first :: tail)) := hsize tail ▸ hat.cut?_eq rfl
    rw [hpointed] at hscan
    simp only [hscan, Option.bind_some, hcut, Option.map_some, String.toList_ofList]
    rcases hread : readNumber (first :: tail) with ⟨fault, seen⟩ | value
    · rw [seen_of_unspoiled hstart hall hread]
      simp only [located, hsize]
      rfl
    · simp only [located, hsize]
      rfl
  · have hfirst : FirstOffence (before ++ c :: rest) before c := ⟨⟨rest, rfl⟩, hbefore, hoffends⟩
    have hplace : Input.At source ⟨c :: (rest ++ after), offset + 1 + byteLength before⟩ :=
      hnext.after before (List.append_assoc before (c :: rest) after)
    rw [hpointed] at hscan
    by_cases hc : c = '.'
    · -- The second point is shown too, so the cursor moves past it before it cuts.
      subst hc
      have hcut : cut? source offset (offset + 1 + byteLength before + 1) =
          some (String.ofList (first :: (before ++ ['.']))) := by
        have hsplit : first :: (before ++ '.' :: rest) ++ after =
            first :: (before ++ ['.']) ++ (rest ++ after) := by
          simp only [List.cons_append, List.append_assoc, List.nil_append]
        have hshown := hat.cut?_eq hsplit
        rwa [hsize, byteLength_append] at hshown
      have hpast : bump source (offset + 1 + byteLength before) =
          offset + 1 + byteLength before + 1 := hplace.bump_eq rfl
      rw [readNumber_of_verdict hstart (.secondPoint hfirst)]
      simp only [hscan, if_true, Option.bind_some, hpast, hcut, Option.map_some, located, hsize,
        byteLength_append]
      rfl
    · -- The character may have more than one byte, so it is looked up and put behind the cut.
      have hcut : cut? source offset (offset + 1 + byteLength before) =
          some (String.ofList (first :: before)) := by
        have hsplit : first :: (before ++ c :: rest) ++ after =
            first :: before ++ (c :: (rest ++ after)) := by
          simp only [List.cons_append, List.append_assoc]
        have hshown := hat.cut?_eq hsplit
        rwa [hsize] at hshown
      have hpeek : peekChar? source (offset + 1 + byteLength before) = some c := hplace.peekChar?_eq
      have hpush : (String.ofList (first :: before)).push c =
          String.ofList (first :: (before ++ [c])) := by
        rw [← String.toList_inj, String.toList_push, String.toList_ofList, String.toList_ofList,
          List.cons_append]
      rw [readNumber_of_verdict hstart (.foreign hfirst hc)]
      simp only [hscan, if_neg hc, Option.bind_some, hpeek, hcut, Option.map_some, hpush, located,
        hsize, byteLength_append, ← Nat.add_assoc]
      rfl

end

/-! ## Nodes -/

/-- What is behind a character of a token ends it exactly if nothing of the
    token is left. It tells a lone minus from the sign of a number, as the
    cursor does by one more byte. -/
theorem tokenEnds_append_iff {tail after : List Char} (hinside : ∀ c ∈ tail, isDelimiter c = false)
    (hends : TokenEnds after) : TokenEnds (tail ++ after) ↔ tail = [] := by
  constructor
  · intro h
    cases tail with
    | nil => rfl
    | cons c tail => cases (h c rfl).symm.trans (hinside c List.mem_cons_self)
  · rintro rfl
    exact hends

/-- A token is walked as what it has to be: a number, or else a symbol. The
    cursor chooses by the first byte, and behind a minus by the second. -/
theorem walkNode_token {walkGroup : Enclosure → Nat → Walked (List Node)} {c : Char}
    {rest : List Char} (hat : input.At source) (h : input.rest = c :: rest)
    (hc : isDelimiter c = false) (hquote : c ≠ '\'') :
    walkNode source walkGroup input.offset = walked (readToken input) := by
  rcases hat.exists_peek?_front h with ⟨d, hpeek, hpart⟩
  have hopening := (isDelimiter_eq_false_iff.mp
    ((hpart.test_eq fun _ => isDelimiter_of_le).trans hc)).2.1
  have hdquote : ¬ d = '\'' := fun hd => hquote ((hpart.eq_iff (by decide)).mp hd)
  have hminus : d = '-' ↔ c = '-' := hpart.eq_iff (by decide)
  have hdigit : d.isDigit = c.isDigit := hpart.test_eq fun _ => isDigit_of_le
  -- The token is its first character and a tail, and the rest is behind it.
  obtain ⟨tail, htoken⟩ : ∃ tail, input.token = c :: tail := by
    rw [Input.token, h, List.takeWhile_cons_of_pos (by rw [hc, Bool.not_false])]
    exact ⟨_, rfl⟩
  have hsplit := input.token_append_pastToken
  have hinside := input.token_inside
  rw [htoken] at hsplit hinside
  have hrest : rest = tail ++ input.pastToken.rest := by
    rw [h] at hsplit
    exact (List.cons.inj hsplit).2
  have hlone : c = '-' → (endsToken (peek? source (input.offset + 1)) = true ↔ tail = []) := by
    rintro rfl
    rw [← tokenEnds_append_iff (List.forall_mem_cons.mp hinside).2 input.tokenEnds_pastToken,
      ← hrest]
    exact endsToken_peek?_iff (hat.next h)
  rw [walkNode, hpeek]
  simp only [hopening, if_neg hdquote, hminus, hdigit]
  -- What the byte says agrees with what the token has to be.
  by_cases hstart : Starts c tail
  · -- A number is no lone minus, so the symbol in front is passed over.
    have hnot : ¬ (c = '-' ∧ endsToken (peek? source (input.offset + 1)) = true) := by
      rintro ⟨hsign, hends⟩
      rcases hstart with hfirst | ⟨_, hne⟩
      · rw [hsign] at hfirst
        cases hfirst
      · exact hne ((hlone hsign).mp hends)
    have hnumber : c = '-' ∨ c.isDigit = true := hstart.symm.imp_left And.left
    have hends := input.tokenEnds_pastToken
    rw [if_neg hnot, if_pos hnumber]
    generalize input.pastToken.rest = after at hsplit hends
    obtain ⟨text, offset⟩ := input
    cases hsplit
    exact walkNumber_eq hat hstart hinside hends
  · have hsymbol : startsNumber input.token = false := by
      rw [htoken]
      exact Bool.eq_false_iff.mpr fun hnumber => hstart (startsNumber_cons_iff.mp hnumber)
    rw [readToken_symbol hsymbol, ← walkSymbol_eq hat h hc]
    split
    · rfl
    · rename_i hnot
      have hother : ¬ (c = '-' ∨ c.isDigit = true) := by
        rintro (hsign | hfirst)
        · -- A minus sign that is not a number is all of its token.
          have hnil : tail = [] :=
            Decidable.of_not_not fun hne => hstart (Or.inr ⟨hsign, hne⟩)
          exact hnot ⟨hsign, (hlone hsign).mpr hnil⟩
        · exact hstart (Or.inl hfirst)
      rw [if_neg hother]

/-- Walking a node comes to what reading it does, if that holds of the groups.
    The hypothesis is used for the group that begins here only, which is how
    the recursion discharges it. -/
theorem walkNode_eq {walkGroup : Enclosure → Nat → Walked (List Node)} (hat : input.At source)
    (hnode : input.AtNode)
    (hgroup : ∀ (bracket : Bracket) (rest : List Char), input.rest = bracket.opening :: rest →
      walkGroup (.group bracket input.offset) (input.offset + 1) =
        walked (readAll (.group bracket input.offset) ⟨rest, input.offset + 1⟩)) :
    walkNode source walkGroup input.offset = walked (readOne input) := by
  -- Both tell by the same character whether a group, a string or a token begins.
  rcases hnode.cases with ⟨bracket, rest, h⟩ | ⟨rest, h⟩ | ⟨c, rest, h, hc, hquote⟩
  · have hpeek := hat.peek?_ascii h (toNat_opening_lt bracket)
    rw [readOne_group h, Input.after, byteLength_opening, walkNode, hpeek]
    simp only [Bracket.ofOpening?_opening, hat.bump_eq h, hgroup bracket rest h]
    cases readAll (.group bracket input.offset) ⟨rest, input.offset + 1⟩ with
    | error error => rfl
    | ok result => rfl
  · have hpeek := hat.peek?_ascii h (by decide)
    have hopening : Bracket.ofOpening? '\'' = none := rfl
    rw [readOne_string h, ← walkString_eq hat h, walkNode, hpeek]
    simp only [hopening, if_true]
  · rw [readOne_token h hc hquote, walkNode_token hat h hc hquote]

end

end Parse

end AttrExpr
