import AttrExpr.Proofs.Parse.Derivation
import AttrExpr.Proofs.Parse.Scanner

/-!
# Reading Stops at the First Fault

The reader and the flat scanner find the same fault in the same text.

The reader keeps no stack: which groups are open is which calls have not
returned. So the two are compared one call at a time. A call for a group runs
along with the scanner from the moment its bracket is on top of the stack, and
either both stop at one fault, or the call returns just where the scanner has
taken the bracket off again. What is below on the stack plays no part, which
is what lets a call be compared without knowing its callers.

The scanner's places are exact at any size, while the reader's stop at a
limit. That no place lies outside the text is an invariant of the scanner
alone, and so is the text it shows with a bad number.

## Main definitions

* `Scanner.Agrees`: A reading and a scanning come to the same.
* `Scanner.State.Tracks`: What a state knows about the text behind it.
* `Scanner.Within`: A fault that shows what is in the text.

## Theorems

* `Scanner.agrees_readAll`: Reading an enclosure agrees with scanning it.
* `Scanner.agrees_text`: Reading a text from any place agrees with scanning it.
* `Scanner.within_of_scan`: A fault is within the text that was scanned.
* `parse_eq_error_iff_firstFault`: A text reads with the first fault it has,
  and without one it reads.
-/

namespace AttrExpr

namespace Parse

namespace Scanner

/-- The same fault, with its span as a reader records it. The scanner has no
    limit on its places, and this is the only step at which one comes in. -/
def limited (e : ParseError) : ParseError :=
  ⟨e.fault, Span.ofRange e.span.start e.span.stop⟩

/-- Scanning on from an input that is between two tokens, with the groups on the
    stack open. It is what the scanner does at the point where a reader calls
    itself. -/
def scanFrom (stack : List (Bracket × Nat)) (input : Input) : Option ParseError :=
  scan ⟨stack, .between, input.offset⟩ input.rest

/-- A reading and a scanning come to the same: both found one fault, or the
    scanning is what `resume` makes of the input that was left. A reading returns
    and a scanning does not, so after a reading the scanning has to be told how
    it goes on, which is with the stack of the caller. -/
def Agrees {α : Type} (result : Progress α) (found : Option ParseError)
    (resume : Input → Option ParseError) : Prop :=
  match result with
  | .error e => found.map limited = some e
  | .ok (_, beyond) => found = resume beyond

/-- What is made of the result of a reading does not matter. -/
theorem Agrees.map {α β : Type} {result : Progress α} {found : Option ParseError}
    {resume : Input → Option ParseError} (f : α → Input → β) (h : Agrees result found resume) :
    Agrees (result.map fun (value, beyond) => (f value beyond, beyond)) found resume := by
  rcases result with e | ⟨value, beyond⟩
  · exact h
  · exact h

/-- Blanks between tokens are skipped by the reader and scanned by the scanner,
    and neither notices. -/
theorem scanFrom_skipBlanks (stack : List (Bracket × Nat)) (input : Input) :
    scanFrom stack input = scanFrom stack input.skipBlanks := by
  rcases exists_skipBlanks input with ⟨blanks, hblanks, hrest, hoffset⟩
  rw [scanFrom, hrest, scan_blanks hblanks, scanFrom, hoffset]

/-! ## One node -/

/-- Strings agree: both look for the same closing quote, and without one the
    fault is the string from its opening quote to the end of the text. -/
theorem agrees_readString {stack : List (Bracket × Nat)} {input : Input} {rest : List Char}
    (hrest : input.rest = '\'' :: rest) :
    Agrees (readString input rest) (scanFrom stack input) (scanFrom stack) := by
  have hstep : State.step ⟨stack, .between, input.offset⟩ '\'' =
      .ok ⟨stack, .string input.offset false, input.offset + 1⟩ := rfl
  rw [scanFrom, hrest, scan_cons_ok hstep, scan_string]
  -- What is left is to see that both count the same bytes.
  rcases hclose : closeString? false rest with _ | ⟨body, left⟩
  · rw [readString_open hclose]
    simp only [Agrees, Option.map_some, limited, Input.stop, hrest, Text.byteLength, Nat.add_assoc,
      show '\''.utf8Size = 1 from rfl]
  · rw [readString_closed hclose]
    simp only [Agrees, scanFrom, Input.after, Text.byteLength, Nat.add_assoc,
      show '\''.utf8Size = 1 from rfl]

/-- Tokens agree: the scanner comes to the end of the token that the reader cuts
    out, and judges it in the same way. -/
theorem agrees_readToken {stack : List (Bracket × Nat)} {input : Input} {c : Char}
    {rest : List Char} (hrest : input.rest = c :: rest) (hc : isDelimiter c = false)
    (hquote : c ≠ '\'') :
    Agrees (readToken input) (scanFrom stack input) (scanFrom stack) := by
  have hends := input.tokenEnds_pastToken
  rw [scanFrom, input.token_append_pastToken]
  cases hstart : startsNumber input.token with
  | false =>
      have hsymbol := Input.symbolToken_token hrest hc hquote hstart
      rw [readToken_symbol hstart, scan_symbolToken hsymbol hends]
      rfl
  | true =>
      -- The fault of a number is found at the same character as by the scanner.
      have hscan : NumberScanned stack input.offset input.token input.pastToken.rest _
          (readNumber input.token) := scan_numberToken hstart input.token_inside hends
      rcases hread : readNumber input.token with ⟨fault, seen⟩ | value
      · rw [hread] at hscan
        rw [readToken_badNumber hstart hread, show scan _ _ = _ from hscan]
        rfl
      · rw [hread] at hscan
        rw [readToken_number hstart hread]
        exact hscan

/-- A node agrees if the groups in it do. The bracket of a group is pushed on
    whatever is on the stack, and the group is read under it. -/
theorem agrees_readOne {stack : List (Bracket × Nat)} {input : Input} (hat : input.AtNode)
    (hgroups : ∀ (bracket : Bracket) (start : Nat) (inner : Input),
      inner.rest.length < input.rest.length →
      Agrees (readAll (.group bracket start) inner) (scanFrom ((bracket, start) :: stack) inner)
        (scanFrom stack)) :
    Agrees (readOne input) (scanFrom stack input) (scanFrom stack) := by
  rcases hat.cases with ⟨bracket, rest, hrest⟩ | ⟨rest, hrest⟩ | ⟨c, rest, hrest, hc, hquote⟩
  · rw [readOne_group hrest, Input.after, byteLength_opening]
    -- The bracket is pushed, and the call for the group begins.
    have hinner := hgroups bracket input.offset ⟨rest, input.offset + 1⟩
      (by simp only [hrest, List.length_cons]; omega)
    rw [show scanFrom stack input = _ by rw [scanFrom, hrest, scan_opening]]
    exact hinner.map fun children beyond =>
      Node.group bracket children (Span.ofRange input.offset beyond.offset)
  · rw [readOne_string hrest]
    exact agrees_readString hrest
  · rw [readOne_token hrest hc hquote]
    exact agrees_readToken hrest hc hquote

/-! ## The nodes of an enclosure -/

/-- The open groups while the nodes of an enclosure are read, `outer` being
    the ones around it. A group is on the stack exactly as long as the call that
    reads it has not returned. -/
def frames : Enclosure → List (Bracket × Nat) → List (Bracket × Nat)
  | .text, outer => outer
  | .group bracket start, outer => (bracket, start) :: outer

/-- Reading the nodes of an enclosure agrees with scanning them, and returns
    where the enclosure is off the stack. The induction is on the text left,
    and every group in the nodes is compared with a stack of its own. -/
theorem agrees_readAll {enclosure : Enclosure} {outer : List (Bracket × Nat)} (input : Input)
    (houter : enclosure = .text → outer = []) :
    Agrees (readAll enclosure input) (scanFrom (frames enclosure outer) input)
      (scanFrom outer) := by
  induction hn : input.rest.length using Nat.strongRecOn generalizing enclosure outer input with
  | _ n ih =>
      subst hn
      have hle := input.length_skipBlanks_le
      rw [scanFrom_skipBlanks]
      rcases input.skipBlanks_cases with hend | ⟨found, rest, hcloser⟩ | hat
      · -- The text is over: the innermost group that is open has the fault.
        rw [readAll_end hend, scanFrom, hend]
        cases enclosure with
        | text =>
            rw [houter rfl]
            simp only [Enclosure.atEnd, Agrees, frames, scanFrom, hend]
        | group bracket start => rfl
      · -- A closing bracket: the top of the stack is what the call was made for.
        rw [readAll_closer hcloser, scanFrom, hcloser]
        cases enclosure with
        | text =>
            rw [houter rfl]
            simp only [Enclosure.atCloser, Agrees, frames, scan, step_closing, Option.map_some,
              limited, Input.after, byteLength_closing]
        | group bracket start =>
            by_cases hfound : found = bracket
            · simp only [Enclosure.atCloser, Agrees, frames, scan, step_closing, if_pos hfound,
                scanFrom, Input.after, byteLength_closing]
            · simp only [Enclosure.atCloser, Agrees, frames, scan, step_closing, if_neg hfound,
                Option.map_some, limited, Input.after, byteLength_closing]
      · -- A node leaves the stack as it was, and the call goes on with less text.
        have hnode : Agrees (readOne input.skipBlanks)
            (scanFrom (frames enclosure outer) input.skipBlanks)
            (scanFrom (frames enclosure outer)) := by
          refine agrees_readOne hat fun bracket start inner hinner => ?_
          have hnot : Enclosure.group bracket start = .text → frames enclosure outer = [] := by
            rintro ⟨⟩
          exact ih inner.rest.length (by omega) inner hnot rfl
        rcases hone : readOne input.skipBlanks with e | ⟨node, beyond⟩
        · rw [hone] at hnode
          rw [readAll_fault hat hone]
          exact hnode
        · rw [hone] at hnode
          have hlt := length_lt_of_readOne hat hone
          have hmore := ih beyond.rest.length (by omega) beyond houter rfl
          rw [readAll_cons hat hone, show scanFrom _ _ = _ from hnode]
          exact hmore.map fun nodes _ => node :: nodes

/-! ## Where a fault is -/

/-- What a mode knows about the text behind the scanner: the token it is in the
    middle of ends that text. For a number it is the exact characters, since they
    are shown with the fault; for a string it is enough that it begins in it. -/
def Mode.Tracks (done : List Char) : Mode → Prop
  | .between => True
  | .symbol => True
  | .string start _ => start ≤ Text.byteLength done
  | .minus start => ∃ before, done = before ++ ['-'] ∧ start = Text.byteLength before
  | .number start seen _ => ∃ before, done = before ++ seen ∧ start = Text.byteLength before

/-- What a state knows about the text behind the scanner: how long it is, and
    that groups and tokens begin in it. This is the invariant from which it
    follows that no fault is outside the text. -/
structure State.Tracks (state : State) (done : List Char) : Prop where
  offset : state.offset = Text.byteLength done
  stack : ∀ frame ∈ state.stack, frame.2 ≤ Text.byteLength done
  mode : state.mode.Tracks done

/-- A fault that is in the text: its span is, and a bad number is shown as the
    text under the span. The cut of the text says the second in characters and in
    bytes at once. -/
structure Within (text : List Char) (e : ParseError) : Prop where
  ordered : e.span.start ≤ e.span.stop
  stop : e.span.stop ≤ Text.byteLength text
  shown : ∀ fault seen, e.fault = .number fault seen → ∃ before after,
    text = before ++ (seen.toList ++ after) ∧ e.span.start = Text.byteLength before ∧
      e.span.stop = Text.byteLength before + Text.byteLength seen.toList

/-- A bad number that is shown as a part of the text is in it. -/
theorem within_number {text before seen after : List Char} {fault : NumberFault}
    (h : text = before ++ (seen ++ after)) :
    Within text ⟨.number fault (String.ofList seen), ⟨Text.byteLength before,
      Text.byteLength before + Text.byteLength seen⟩⟩ where
  ordered := Nat.le_add_right _ _
  stop := by
    rw [h, Text.byteLength_append, Text.byteLength_append]
    exact Nat.add_le_add_left (Nat.le_add_right _ _) _
  shown := by
    rintro _ _ ⟨⟩
    exact ⟨before, after, by rw [String.toList_ofList, h], rfl, by rw [String.toList_ofList]⟩

/-- A fault that is not about a number has a span and shows nothing. -/
theorem within_other {text : List Char} {fault : ParseFault} {start stop : Nat}
    (hstart : start ≤ stop) (hstop : stop ≤ Text.byteLength text)
    (hfault : ∀ number seen, fault ≠ .number number seen) : Within text ⟨fault, ⟨start, stop⟩⟩ :=
  ⟨hstart, hstop, fun number seen h => absurd h (hfault number seen)⟩

/-- Before the first character there is nothing to know. -/
theorem tracks_start : State.Tracks ⟨[], .between, 0⟩ [] :=
  ⟨rfl, fun _ hframe => absurd hframe List.not_mem_nil, trivial⟩

section

variable {state next : State} {done rest : List Char} {c : Char}

theorem byteLength_snoc (done : List Char) (c : Char) :
    Text.byteLength (done ++ [c]) = Text.byteLength done + c.utf8Size := by
  rw [Text.byteLength_append, Text.byteLength, Text.byteLength, Nat.add_zero]

/-- The open groups are still in the text when it has one more character. -/
theorem stack_snoc {stack : List (Bracket × Nat)}
    (h : ∀ frame ∈ stack, frame.2 ≤ Text.byteLength done) (c : Char) :
    ∀ frame ∈ stack, frame.2 ≤ Text.byteLength (done ++ [c]) := by
  intro frame hframe
  have hle := h frame hframe
  rw [byteLength_snoc]
  omega

-- For each part of a step there are two lemmas from here on: one for the state it
-- leads to, and one for the fault it reveals.
theorem tracks_endToken {ended : State} (h : state.Tracks done)
    (hend : state.endToken = .ok ended) : ended.Tracks done := by
  rw [eq_of_endToken hend]
  exact ⟨h.offset, h.stack, trivial⟩

theorem within_endToken {e : ParseError} (h : state.Tracks done)
    (hend : state.endToken = .error e) : Within (done ++ rest) e := by
  unfold State.endToken at hend
  split at hend
  · rename_i start seen pointed hmode
    -- A number that is still open is what the text ends in.
    have htracks := h.mode
    rw [hmode] at htracks
    rcases htracks with ⟨before, rfl, rfl⟩
    split at hend
    · cases hend
      rw [h.offset, Text.byteLength_append]
      exact within_number (List.append_assoc before seen rest)
    · cases hend
  · cases hend

theorem tracks_atDelimiter (h : state.Tracks done) (hstep : state.atDelimiter c = .ok next) :
    next.Tracks (done ++ [c]) := by
  have hoffset : state.offset + c.utf8Size = Text.byteLength (done ++ [c]) := by
    rw [byteLength_snoc, h.offset]
  have hstack := stack_snoc h.stack c
  unfold State.atDelimiter at hstep
  split at hstep
  · cases hstep
    -- The new group begins where the scanner stood.
    have hbegins : state.offset ≤ Text.byteLength (done ++ [c]) := by
      rw [← hoffset]
      exact Nat.le_add_right _ _
    exact ⟨hoffset, List.forall_mem_cons.mpr ⟨hbegins, hstack⟩, trivial⟩
  · split at hstep
    · cases hstep
      exact ⟨hoffset, hstack, trivial⟩
    · split at hstep
      · cases hstep
      · rename_i hopen
        split at hstep
        · cases hstep
          -- The groups around the closed one were open before.
          rw [hopen, List.forall_mem_cons] at hstack
          exact ⟨hoffset, hstack.2, trivial⟩
        · cases hstep

/-- A fault of a closing bracket is at the bracket, which is in the text. -/
theorem within_atDelimiter {e : ParseError} (h : state.Tracks done)
    (hstep : state.atDelimiter c = .error e) : Within (done ++ c :: rest) e := by
  have hstop : state.offset + c.utf8Size ≤ Text.byteLength (done ++ c :: rest) := by
    rw [h.offset, Text.byteLength_append, Text.byteLength]
    omega
  unfold State.atDelimiter at hstep
  split at hstep
  · cases hstep
  · split at hstep
    · cases hstep
    · split at hstep
      · cases hstep
        exact within_other (Nat.le_add_right _ _) hstop (by rintro _ _ ⟨⟩)
      · split at hstep
        · cases hstep
        · cases hstep
          exact within_other (Nat.le_add_right _ _) hstop (by rintro _ _ ⟨⟩)

/-- One more character of a number, whose characters so far end the text. -/
theorem tracks_inNumber {start : Nat} {seen : List Char} {pointed : Bool} (h : state.Tracks done)
    (hseen : ∃ before, done = before ++ seen ∧ start = Text.byteLength before)
    (hstep : state.inNumber start seen pointed c = .ok next) : next.Tracks (done ++ [c]) := by
  have hoffset : state.offset + c.utf8Size = Text.byteLength (done ++ [c]) := by
    rw [byteLength_snoc, h.offset]
  have hmode : ∃ before, done ++ [c] = before ++ (seen ++ [c]) ∧
      start = Text.byteLength before := by
    rcases hseen with ⟨before, rfl, hstart⟩
    exact ⟨before, List.append_assoc _ _ _, hstart⟩
  unfold State.inNumber at hstep
  -- A digit goes on with the number, and so does the first point.
  split at hstep
  · cases hstep
    exact ⟨hoffset, stack_snoc h.stack c, hmode⟩
  · split at hstep
    · cases hstep
      exact ⟨hoffset, stack_snoc h.stack c, hmode⟩
    · cases hstep

theorem within_inNumber {start : Nat} {seen : List Char} {pointed : Bool} {e : ParseError}
    (h : state.Tracks done)
    (hseen : ∃ before, done = before ++ seen ∧ start = Text.byteLength before)
    (hstep : state.inNumber start seen pointed c = .error e) : Within (done ++ c :: rest) e := by
  rcases hseen with ⟨before, rfl, rfl⟩
  have hstop : state.offset + c.utf8Size =
      Text.byteLength before + Text.byteLength (seen ++ [c]) := by
    rw [h.offset, byteLength_snoc, Text.byteLength_append, Nat.add_assoc]
  unfold State.inNumber at hstep
  split at hstep
  · cases hstep
  · split at hstep
    · cases hstep
    · cases hstep
      -- The character that is wrong is shown with the ones before it.
      have htext : before ++ seen ++ c :: rest = before ++ (seen ++ [c] ++ rest) := by
        simp only [List.append_assoc, List.singleton_append]
      rw [hstop]
      exact within_number htext

/-! ## A step and a run -/

/-- What a state knows stays true of the text with one more character. The cases
    are those of `State.step`, and in each the mode it leads to is what has to be
    looked at. -/
theorem tracks_step (h : state.Tracks done) (hstep : state.step c = .ok next) :
    next.Tracks (done ++ [c]) := by
  have hoffset : state.offset + c.utf8Size = Text.byteLength (done ++ [c]) := by
    rw [byteLength_snoc, h.offset]
  have hstack := stack_snoc h.stack c
  have htracks := h.mode
  unfold State.step at hstep
  split at hstep
  · -- Inside a string only a quote or a backslash matters.
    rename_i start after hmode
    rw [hmode] at htracks
    split at hstep
    · cases hstep
      exact ⟨hoffset, hstack, trivial⟩
    · cases hstep
      have hbegins : start ≤ Text.byteLength (done ++ [c]) := by
        simp only [Mode.Tracks] at htracks
        rw [byteLength_snoc]
        omega
      exact ⟨hoffset, hstack, hbegins⟩
  · split at hstep
    · -- A delimiter ends the token first, which keeps what the state knows.
      rcases hend : state.endToken with e | ended
      · rw [hend] at hstep
        cases hstep
      · rw [hend] at hstep
        exact tracks_atDelimiter (tracks_endToken h hend) hstep
    · split at hstep
      · rename_i start hmode
        rw [hmode] at htracks
        exact tracks_inNumber h htracks hstep
      · rename_i start seen pointed hmode
        rw [hmode] at htracks
        exact tracks_inNumber h htracks hstep
      · -- A token begins here, and the text behind is what it starts after.
        split at hstep
        · cases hstep
          exact ⟨hoffset, hstack, by simp only [Mode.Tracks]; omega⟩
        · split at hstep
          · rename_i hminus
            cases hstep
            exact ⟨hoffset, hstack, done, by rw [hminus], h.offset⟩
          · split at hstep
            · cases hstep
              exact ⟨hoffset, hstack, done, rfl, h.offset⟩
            · cases hstep
              exact ⟨hoffset, hstack, trivial⟩
      · cases hstep
        exact ⟨hoffset, hstack, trivial⟩

/-- A fault that a character reveals is in the text up to it. Only a delimiter
    and a character of a number reveal any; in all other cases there is no fault
    to begin with. -/
theorem within_step {e : ParseError} (h : state.Tracks done) (hstep : state.step c = .error e) :
    Within (done ++ c :: rest) e := by
  have htracks := h.mode
  unfold State.step at hstep
  split at hstep
  · -- Inside a string nothing is at fault.
    split at hstep
    · cases hstep
    · cases hstep
  · split at hstep
    · -- A delimiter ends the token in front of it, and then has its own meaning.
      rcases hend : state.endToken with e' | ended
      · rw [hend] at hstep
        cases hstep
        exact within_endToken h hend
      · rw [hend] at hstep
        exact within_atDelimiter (tracks_endToken h hend) hstep
    · split at hstep
      · rename_i start hmode
        rw [hmode] at htracks
        exact within_inNumber h htracks hstep
      · rename_i start seen pointed hmode
        rw [hmode] at htracks
        exact within_inNumber h htracks hstep
      · split at hstep
        · cases hstep
        · split at hstep
          · cases hstep
          · split at hstep
            · cases hstep
            · cases hstep
      · cases hstep

theorem within_finish {e : ParseError} (h : state.Tracks done) (hfinish : state.finish = some e) :
    Within done e := by
  have htracks := h.mode
  unfold State.finish at hfinish
  split at hfinish
  · -- An open string comes before the groups it is in.
    rename_i start after hmode
    rw [hmode] at htracks
    cases hfinish
    rw [h.offset]
    exact within_other htracks (Nat.le_refl _) (by rintro _ _ ⟨⟩)
  · split at hfinish
    · rename_i hend
      cases hfinish
      have hwithin : Within (done ++ []) e := within_endToken h hend
      rwa [List.append_nil] at hwithin
    · rename_i ended hend
      -- The innermost group begins in the text and is open to its end.
      have hended := tracks_endToken h hend
      simp only [State.openGroup?, Option.map_eq_some_iff] at hfinish
      rcases hfinish with ⟨frame, hframe, rfl⟩
      rw [hended.offset]
      exact within_other (hended.stack frame (List.mem_of_head? hframe)) (Nat.le_refl _)
        (by rintro _ _ ⟨⟩)

/-- The first fault is in the text that was scanned. The induction is on what is
    left to scan, and carries along what the state knows of the text behind. -/
theorem within_of_scan {e : ParseError} (h : state.Tracks done) (hscan : scan state rest = some e) :
    Within (done ++ rest) e := by
  induction rest generalizing state done with
  | nil =>
      rw [List.append_nil]
      exact within_finish h hscan
  | cons c rest ih =>
      rcases hstep : state.step c with e' | next
      · rw [scan_cons_error hstep] at hscan
        cases hscan
        exact within_step h hstep
      · rw [scan_cons_ok hstep] at hscan
        have hwithin := ih (tracks_step h hstep) hscan
        rwa [List.append_assoc, List.singleton_append] at hwithin

end

end Scanner

/-! ## Texts -/

/-- A first fault is within the text, which needs no limit: the scanner's places
    are exact. -/
theorem within_firstFault {source : String} {e : ParseError} (h : firstFault? source = some e) :
    Scanner.Within source.toList e :=
  Scanner.within_of_scan Scanner.tracks_start h

/-- In a text within the limit its span is recorded as it is. -/
theorem limited_firstFault {source : String} {e : ParseError}
    (hlimit : Text.byteLength source.toList ≤ Span.limit) (h : firstFault? source = some e) :
    Scanner.limited e = e := by
  have hwithin := within_firstFault h
  have hordered := hwithin.ordered
  have hstop := hwithin.stop
  rw [Scanner.limited, Span.ofRange_of_le (by omega) (by omega)]

/-- A bad number is shown as the text under its span, so the message of the fault
    and its place cannot contradict each other. -/
theorem slice?_of_within {source : String} {e : ParseError} {fault : NumberFault} {seen : String}
    (h : Scanner.Within source.toList e) (hfault : e.fault = .number fault seen) :
    e.span.slice? source = some seen := by
  rcases h.shown fault seen hfault with ⟨before, after, htext, hstart, hstop⟩
  have hpart := Span.slice?_part htext
  rw [← hstop, ← hstart, String.ofList_toList] at hpart
  exact hpart

/-- Reading a text that begins at any place finds the first fault that is
    scanned there, whose span is recorded as far as the limit allows, and
    without one it reads. -/
theorem Scanner.agrees_text (text : List Char) (n : Nat) :
    match readAll .text ⟨text, n⟩ with
    | .error e => (scanFrom [] ⟨text, n⟩).map limited = some e
    | .ok _ => scanFrom [] ⟨text, n⟩ = none := by
  have hagrees : Agrees (readAll .text ⟨text, n⟩) (scanFrom [] ⟨text, n⟩) (scanFrom []) :=
    agrees_readAll _ fun _ => rfl
  rcases hread : readAll .text ⟨text, n⟩ with e | ⟨nodes, beyond⟩
  · rw [hread] at hagrees
    exact hagrees
  · rw [hread] at hagrees
    rcases consumed_of_readAll hread with ⟨consumed, hconsumed⟩
    -- The reader stopped at the end, where a scanner with no open group finds nothing.
    have hover : scanFrom [] beyond = none := by
      rw [scanFrom, hconsumed.complete rfl]
      rfl
    exact (show scanFrom [] ⟨text, n⟩ = scanFrom [] beyond from hagrees).trans hover

/-- Reading a text of any size finds its first fault, and without one it reads.
    The text begins at its beginning, where the scanner's places are those of
    the text. -/
theorem agrees_parse (source : String) :
    match parse source with
    | .error e => (firstFault? source).map Scanner.limited = some e
    | .ok _ => firstFault? source = none := by
  have hagrees := Scanner.agrees_text source.toList 0
  rw [parse_eq_readAll, Input.ofString]
  rcases hread : readAll .text ⟨source.toList, 0⟩ with e | ⟨nodes, beyond⟩
  · rw [hread] at hagrees
    exact hagrees
  · rw [hread] at hagrees
    exact hagrees

/-- A text within the limit that does not read has a first fault, which is the
    one that was reported. -/
theorem firstFault?_of_parse {source : String} {e : ParseError}
    (hlimit : Text.byteLength source.toList ≤ Span.limit) (h : parse source = .error e) :
    firstFault? source = some e := by
  have hagrees := agrees_parse source
  rw [h] at hagrees
  rcases Option.map_eq_some_iff.mp hagrees with ⟨found, hfound, hsame⟩
  rw [hfound, ← hsame, limited_firstFault hlimit hfound]

/-- The first fault of a text within the limit is the one that reading it
    reports. -/
theorem parse_of_firstFault? {source : String} {e : ParseError}
    (hlimit : Text.byteLength source.toList ≤ Span.limit) (h : firstFault? source = some e) :
    parse source = .error e := by
  have hagrees := agrees_parse source
  rcases hparse : parse source with e' | nodes
  · rw [hparse, h, Option.map_some, limited_firstFault hlimit h] at hagrees
    rw [Option.some.inj hagrees]
  · rw [hparse, h] at hagrees
    cases hagrees

/-- A text of any size that reads has no fault. -/
theorem firstFault?_of_nodes {source : String} {nodes : List Node} (h : parse source = .ok nodes) :
    firstFault? source = none := by
  have hagrees := agrees_parse source
  rw [h] at hagrees
  exact hagrees

/-- A text of any size without a fault reads. -/
theorem exists_nodes_of_firstFault? {source : String} (h : firstFault? source = none) :
    ∃ nodes, parse source = .ok nodes := by
  have hagrees := agrees_parse source
  rcases hparse : parse source with e | nodes
  · rw [hparse, h] at hagrees
    cases hagrees
  · exact ⟨nodes, rfl⟩

/-- A text within the limit reads with its first fault, if it has one, and
    otherwise it reads. The scan that looks for the fault builds no trees and
    keeps the open brackets in a list, so the two agree on the order of faults
    without sharing a recursion. The number that a fault shows is the text under
    its span. -/
theorem parse_eq_error_iff_firstFault {source : String}
    (hlimit : Text.byteLength source.toList ≤ Span.limit) :
    (∀ e, parse source = .error e ↔ firstFault? source = some e) ∧
      ((∃ nodes, parse source = .ok nodes) ↔ firstFault? source = none) ∧
      ∀ e fault seen, parse source = .error e → e.fault = .number fault seen →
        e.span.slice? source = some seen := by
  refine ⟨fun e => ⟨firstFault?_of_parse hlimit, parse_of_firstFault? hlimit⟩,
    ⟨fun ⟨nodes, hparse⟩ => firstFault?_of_nodes hparse, exists_nodes_of_firstFault?⟩, ?_⟩
  intro e fault seen hparse hfault
  exact slice?_of_within (within_firstFault (firstFault?_of_parse hlimit hparse)) hfault

/-- A bracket of the wrong kind is found before the string behind it. -/
theorem firstFault_mismatch : Text.byteLength "(f [1) 'x".toList ≤ Span.limit ∧
    parse "(f [1) 'x" = .error ⟨.mismatchedCloser ']' ')', ⟨5, 6⟩⟩ :=
  ⟨by decide, ((parse_eq_error_iff_firstFault (by decide)).1 _).mpr (by decide)⟩

end Parse

end AttrExpr
