import AttrExpr.Proofs.Parse.FirstFault

/-!
# Reading Elsewhere

What a text means does not depend on where it stands.

A text that stands behind `n` other bytes is read as it is by itself, with all
its places `n` bytes further on: the spans of its nodes if it reads, and the
span of its fault if it does not. For derivations this is what is known of them
already, as no rule looks at a place. For a fault it is the scanner that is
moved, with all the places it remembers, and a step of the moved scanner is
the moved step.

Spans stop at a limit, so further on is not always an addition. A place that
was pushed back to the limit goes to the limit wherever it is moved. But the
moved place can still be told from the recorded one: it is recorded again, `n`
bytes further on. `Span.further` does that, and with it a text of any size
reads further on as it does by itself. The scanner has exact places, and its
fault is recorded at the end.

That a text which reads leaves nothing open is an instance. Of two texts with
blanks between them the second is read as if the first were not there, whether
it reads or not.

## Main definitions

* `Span.further`: A span further on, as far as spans go.
* `ParseError.relocate`, `ParseError.shift`: A fault with another span.
* `Parse.relocated`, `Parse.shifted`: What reading comes to, with other spans.
* `Scanner.State.shift`: A scanner with all its places further on.

## Theorems

* `further_ofRange`: A recorded range further on is the range further on.
* `Scanner.step_shift`, `Scanner.scan_shift`: A scanner further on finds the
  same fault further on.
* `readAll_further`: A text reads the same further on.
* `parse_behind`: A text behind another one is read as it is by itself.
-/

namespace AttrExpr

namespace Span

/-- The span `n` bytes further on, as far as spans go. It is recorded anew, so it
    is the span of what stands there and not only a larger one. -/
def further (n : Nat) (span : Span) : Span := ofRange (span.start + n) (span.stop + n)

/-- What is recorded of a range: both ends, each up to the limit. -/
theorem ofRange_eq_min {start stop : Nat} (h : start ≤ stop) :
    ofRange start stop = ⟨min start limit, min stop limit⟩ := by
  unfold ofRange tryOfRange
  by_cases hstart : limit < start
  · -- The end is not in front of the start, so both are pushed back.
    rw [if_pos hstart, Nat.min_eq_right (by omega : limit ≤ stop)]
  · rw [if_neg hstart]
    by_cases hstop : limit < stop
    · rw [if_pos hstop, Nat.min_eq_right (Nat.le_of_lt hstop)]
    · rw [if_neg hstop, Nat.min_eq_left (Nat.not_lt.mp hstart),
        Nat.min_eq_left (Nat.not_lt.mp hstop)]

/-- A recorded range further on is the range further on, as it is recorded. -/
theorem further_ofRange {start stop : Nat} (h : start ≤ stop) (n : Nat) :
    (ofRange start stop).further n = ofRange (start + n) (stop + n) := by
  -- An end that was pushed back to the limit is pushed back there again.
  have hstart : min (min start limit + n) limit = min (start + n) limit := by omega
  have hstop : min (min stop limit + n) limit = min (stop + n) limit := by omega
  rw [ofRange_eq_min h, further, ofRange_eq_min (by dsimp only; omega), ofRange_eq_min (by omega),
    hstart, hstop]

end Span

/-- The same fault with another span. The text that a bad number is shown with
    stays, as it is what stands there wherever that is. -/
def ParseError.relocate (f : Span → Span) (e : ParseError) : ParseError := ⟨e.fault, f e.span⟩

/-- The same fault `n` bytes further on. -/
def ParseError.shift (n : Nat) (e : ParseError) : ParseError := e.relocate (Span.shift n)

namespace Parse

open Node

/-- What reading comes to, with other spans: those of the nodes or that of the
    fault, whichever there is. -/
def relocated (f : Span → Span) : Except ParseError (List Node) → Except ParseError (List Node)
  | .error e => .error (e.relocate f)
  | .ok nodes => .ok (relocateAll f nodes)

/-- What reading a text comes to, with all places `n` bytes further on. -/
def shifted (n : Nat) : Except ParseError (List Node) → Except ParseError (List Node) :=
  relocated (Span.shift n)

/-! ## Faults -/

namespace Scanner

/-- The mode, with the token it is in the middle of `n` bytes further on. -/
def Mode.shift (n : Nat) : Mode → Mode
  | .between => .between
  | .string start afterBackslash => .string (start + n) afterBackslash
  | .symbol => .symbol
  | .minus start => .minus (start + n)
  | .number start seen pointed => .number (start + n) seen pointed

/-- The state, with everything it remembers `n` bytes further on. -/
def State.shift (n : Nat) (state : State) : State :=
  ⟨state.stack.map fun frame => (frame.1, frame.2 + n), state.mode.shift n, state.offset + n⟩

/-- What a step comes to, `n` bytes further on. -/
def shiftedStep (n : Nat) : Except ParseError State → Except ParseError State
  | .error e => .error (e.shift n)
  | .ok state => .ok (state.shift n)

section

variable (n : Nat) (state : State)

/-- Ending the token further on ends it the same. What is wrong with it is told by
    its characters, and its place is the place remembered. -/
theorem endToken_shift : (state.shift n).endToken = shiftedStep n state.endToken := by
  obtain ⟨stack, mode, offset⟩ := state
  cases mode with
  | number start seen pointed =>
      simp only [State.endToken, State.shift, Mode.shift]
      cases wholeFault? seen pointed with
      | none => rfl
      | some fault => rfl
  | between => rfl
  | string start afterBackslash => rfl
  | symbol => rfl
  | minus start => rfl

/-- A delimiter further on opens or closes the same group, or is the same fault. -/
theorem atDelimiter_shift (c : Char) :
    (state.shift n).atDelimiter c = shiftedStep n (state.atDelimiter c) := by
  obtain ⟨stack, mode, offset⟩ := state
  simp only [State.atDelimiter, State.shift, Nat.add_right_comm offset n]
  cases Bracket.ofOpening? c with
  | some bracket => rfl
  | none =>
      cases Bracket.ofClosing? c with
      | none => rfl
      | some found =>
          -- What a bracket closes is told by the innermost open one, not by its place.
          cases stack with
          | nil => rfl
          | cons frame outer =>
              by_cases hfound : found = frame.1
              · simp only [List.map_cons, if_pos hfound]
                rfl
              · simp only [List.map_cons, if_neg hfound]
                rfl

/-- A character inside a number further on goes on with it, or is the same fault. -/
theorem inNumber_shift (start : Nat) (seen : List Char) (pointed : Bool) (c : Char) :
    (state.shift n).inNumber (start + n) seen pointed c =
      shiftedStep n (state.inNumber start seen pointed c) := by
  simp only [State.inNumber, State.shift, Nat.add_right_comm state.offset n]
  split
  · rfl
  · split
    · rfl
    · rfl

/-- The scanner is inside a string or it is not. Inside one a delimiter has no
    meaning, so the two are stepped differently. -/
theorem mode_cases : (∃ start after, state.mode = .string start after) ∨
    ∀ start after, state.mode ≠ .string start after := by
  cases hmode : state.mode with
  | string start after => exact Or.inl ⟨start, after, rfl⟩
  | _ => exact Or.inr fun _ _ => Mode.noConfusion

theorem mode_shift_ne_string (hmode : ∀ start after, state.mode ≠ .string start after) :
    ∀ start after, (state.shift n).mode ≠ .string start after := by
  intro start after
  rcases state with ⟨stack, mode, offset⟩
  cases mode with
  | string start after => exact absurd rfl (hmode start after)
  | _ => exact Mode.noConfusion

/-- A character that delimits nothing goes on with a token or begins one. -/
theorem step_inside_shift (hmode : ∀ start after, state.mode ≠ .string start after) {c : Char}
    (hc : isDelimiter c = false) : (state.shift n).step c = shiftedStep n (state.step c) := by
  obtain ⟨stack, mode, offset⟩ := state
  cases mode with
  | string start after => exact absurd rfl (hmode start after)
  | minus start =>
      have hinNumber := inNumber_shift n ⟨stack, .minus start, offset⟩ start ['-'] false c
      simpa only [State.step, State.shift, Mode.shift, hc, Bool.false_eq_true, if_false]
        using hinNumber
  | number start seen pointed =>
      have hinNumber := inNumber_shift n ⟨stack, .number start seen pointed, offset⟩ start seen
        pointed c
      simpa only [State.step, State.shift, Mode.shift, hc, Bool.false_eq_true, if_false]
        using hinNumber
  | symbol =>
      simp only [State.step, State.shift, Mode.shift, hc, Bool.false_eq_true, if_false,
        Nat.add_right_comm offset n]
      rfl
  | between =>
      -- Whatever begins here begins further on there.
      simp only [State.step, State.shift, Mode.shift, hc, Bool.false_eq_true, if_false,
        Nat.add_right_comm offset n]
      split
      · rfl
      · split
        · rfl
        · split
          · rfl
          · rfl

/-- A step looks at no place, so it can be made further on as well. This is the
    step lemma; that the scanner finds the same fault further on is its run. -/
theorem step_shift (c : Char) : (state.shift n).step c = shiftedStep n (state.step c) := by
  rcases mode_cases state with ⟨start, after, hmode⟩ | hmode
  · simp only [State.step, State.shift, hmode, Mode.shift, Nat.add_right_comm state.offset n]
    split
    · rfl
    · rfl
  · cases hc : isDelimiter c with
    | false => exact step_inside_shift n state hmode hc
    | true =>
        -- The token ends first, and then the delimiter is looked at.
        rw [step_delimiter (mode_shift_ne_string n state hmode) hc, step_delimiter hmode hc,
          endToken_shift]
        cases state.endToken with
        | error e => rfl
        | ok ended => exact atDelimiter_shift n ended c

theorem finish_shift : (state.shift n).finish = state.finish.map (ParseError.shift n) := by
  rcases mode_cases state with ⟨start, after, hmode⟩ | hmode
  · simp only [State.finish, State.shift, hmode, Mode.shift, Option.map_some]
    rfl
  · rw [finish_eq (mode_shift_ne_string n state hmode), finish_eq hmode, endToken_shift]
    cases state.endToken with
    | error e => rfl
    | ok ended =>
        obtain ⟨stack, mode, offset⟩ := ended
        cases stack with
        | nil => rfl
        | cons frame outer => rfl

end

/-- A scanner further on finds the same fault further on. -/
theorem scan_shift (n : Nat) (state : State) (cs : List Char) :
    scan (state.shift n) cs = (scan state cs).map (ParseError.shift n) := by
  induction cs generalizing state with
  | nil => exact finish_shift n state
  | cons c cs ih =>
      have hmoved := step_shift n state c
      rcases hstep : state.step c with e | next
      · rw [hstep] at hmoved
        rw [scan_cons_error hstep, scan_cons_error hmoved, Option.map_some]
      · rw [hstep] at hmoved
        rw [scan_cons_ok hstep, scan_cons_ok hmoved, ih]

/-- A text that stands further on has the same first fault there. -/
theorem scanFrom_elsewhere (source : String) (n : Nat) :
    scanFrom [] ⟨source.toList, n⟩ = (firstFault? source).map (ParseError.shift n) := by
  have hscan := scan_shift n ⟨[], .between, 0⟩ source.toList
  simp only [State.shift, Mode.shift, List.map_nil, Nat.zero_add] at hscan
  exact hscan

end Scanner

/-! ## Readings -/

theorem Sequence.readAll_text {start : Nat} {text : List Char} {nodes : List Node}
    (h : Sequence Span.ofRange start text nodes) :
    (Parse.readAll .text ⟨text, start⟩).map Prod.fst = .ok nodes := by
  have hread := h.readAll .text tokenEnds_nil
  rw [List.append_nil] at hread
  rw [hread, readAll_end rfl]
  simp only [Enclosure.atEnd, Except.map, List.append_nil]

theorem readAll_blanks {enclosure : Enclosure} {blanks rest : List Char} {offset : Nat}
    (hblanks : ∀ c ∈ blanks, isBlank c = true) :
    readAll enclosure ⟨blanks ++ rest, offset⟩ =
      readAll enclosure ⟨rest, offset + Text.byteLength blanks⟩ := by
  induction blanks generalizing offset with
  | nil => rfl
  | cons c blanks ih =>
      have hblank := hblanks c List.mem_cons_self
      rw [List.cons_append, readAll_of_skipBlanks_eq (skipBlanks_cons hblank),
        ih fun d hd => hblanks d (List.mem_cons_of_mem c hd), Text.byteLength, Nat.add_assoc]

/-! ## Texts -/

/-- Reading further on agrees with the scanner, which finds the first fault of
    the text there. -/
theorem agrees_elsewhere (source : String) (n : Nat) :
    match readAll .text ⟨source.toList, n⟩ with
    | .error e => (firstFault? source).map (fun found => Scanner.limited (found.shift n)) = some e
    | .ok _ => firstFault? source = none := by
  have hagrees := Scanner.agrees_text source.toList n
  rw [Scanner.scanFrom_elsewhere] at hagrees
  rcases hread : readAll .text ⟨source.toList, n⟩ with e | result
  · rw [hread] at hagrees
    simp only [Option.map_map] at hagrees
    exact hagrees
  · rw [hread] at hagrees
    exact Option.map_eq_none_iff.mp hagrees

/-- A fault that is recorded further on is the recorded fault further on. -/
theorem limited_shift_eq {source : String} {found : ParseError}
    (h : firstFault? source = some found) (n : Nat) :
    Scanner.limited (found.shift n) = (Scanner.limited found).relocate (Span.further n) := by
  have hordered := (within_firstFault h).ordered
  simp only [Scanner.limited, ParseError.shift, ParseError.relocate, Span.shift,
    Span.further_ofRange hordered]

/-- A text that stands behind `n` bytes is read as it is by itself, with all
    places `n` bytes further on as far as spans go. A fault goes by way of the
    scanner, where its place is still exact, and the nodes by way of their
    derivation. -/
theorem readAll_further (source : String) (n : Nat) :
    (readAll .text ⟨source.toList, n⟩).map Prod.fst =
      relocated (Span.further n) (parse source) := by
  have hagrees := agrees_parse source
  have hmoved := agrees_elsewhere source n
  rcases hparse : parse source with e | nodes
  · -- The text has a first fault, and it has the same further on.
    rw [hparse] at hagrees
    rcases Option.map_eq_some_iff.mp hagrees with ⟨found, hfound, rfl⟩
    rw [hfound] at hmoved
    rcases hread : readAll .text ⟨source.toList, n⟩ with e' | result
    · rw [hread] at hmoved
      have hsame : Scanner.limited (found.shift n) = e' := Option.some.inj hmoved
      rw [relocated, ← limited_shift_eq hfound, hsame]
      rfl
    · rw [hread] at hmoved
      cases hmoved
  · -- The text is derived, and a derivation can be moved.
    have hderived := (parse_eq_ok_iff_ofRange.mp hparse).relocate (Nat.le_refl _)
      fun a b hab _ => Span.further_ofRange hab n
    rw [Nat.zero_add] at hderived
    exact hderived.readAll_text

/-- Blanks end the last token of the text in front of them, whatever follows
    the blanks. -/
theorem tokenEnds_blanks {blanks : List Char} (hne : blanks ≠ [])
    (hblanks : ∀ c ∈ blanks, isBlank c = true) (rest : List Char) :
    TokenEnds (blanks ++ rest) := by
  intro c hc
  cases blanks with
  | nil => exact absurd rfl hne
  | cons d blanks =>
      rw [List.cons_append, List.head?_cons, Option.some.injEq] at hc
      subst hc
      exact isDelimiter_of_isBlank (hblanks d List.mem_cons_self)

/-- Behind a text that reads, and some blanks, a text is read as it is by
    itself, further on. Its nodes follow those of the first text, or its fault
    is the fault of the whole: a text that reads leaves nothing open that what
    follows could close. -/
theorem parse_behind {first blanks : String} {nodes : List Node} (hne : blanks ≠ "")
    (hblanks : ∀ c ∈ blanks.toList, isBlank c = true) (hfirst : parse first = .ok nodes)
    (second : String) :
    parse (first ++ blanks ++ second) =
      (relocated (Span.further (Text.byteLength first.toList + Text.byteLength blanks.toList))
        (parse second)).map (nodes ++ ·) := by
  have htext : (first ++ blanks ++ second).toList =
      first.toList ++ (blanks.toList ++ second.toList) := by
    rw [String.toList_append, String.toList_append, List.append_assoc]
  have hends := tokenEnds_blanks (fun h => hne (String.toList_eq_nil_iff.mp h)) hblanks
    second.toList
  have hread := (parse_eq_ok_iff_ofRange.mp hfirst).readAll .text hends
  rw [readAll_blanks hblanks, Nat.zero_add] at hread
  rw [parse_eq_readAll, Input.ofString, htext, hread, ← readAll_further]
  -- What was read in front stays there, whatever comes of the rest.
  cases readAll .text ⟨second.toList, Text.byteLength first.toList +
      Text.byteLength blanks.toList⟩ with
  | error e => rfl
  | ok result => rfl

end Parse

end AttrExpr
