import AttrExpr.Proofs.Parse.FirstFault

/-!
# Faults and What Follows Them

What another ending would have made of a text that does not read.

There are two kinds of fault. Most are settled where they are found: they end
at the last character looked at, or in front of a delimiter that ended a
token, so the text up to there has the fault already and keeps it, whatever
comes next. Only what goes on with the last token could change it, and that is
excluded. The other kind is about the end of the text, which came inside a
string or a group. Such a text has no settled fault, so it can still be made
to read, by closing what is open.

Both are read off the state in which the scanner stops. `Runs` takes it there
without a fault, and then either a character or the end of the text reveals
one. A character never reveals a fault of the second kind, and what the end
reveals of that kind is mended by the closing brackets of the stack, innermost
first, behind a quote if a string is open.

## Main definitions

* `ParseFault.isUnterminated`: A fault about the end of the text.
* `Scanner.Runs`: The scanner goes over characters without a fault.
* `Scanner.Settled`: A fault about the text up to a place.
* `Scanner.closers`: What closes the open groups.

## Theorems

* `Scanner.exists_runs_of_scan`: A fault is revealed by a character or by the
  end of the text.
* `Scanner.step_error_cases`, `Scanner.finish_cases`: The faults that either
  can reveal.
* `Scanner.scan_of_settled`: A settled fault stays with other text behind it.
* `Scanner.exists_completion`: What is open at the end can be closed.
* `parse_error_continued`: A fault is settled by the text up to its end, or it
  is mended by more text.
-/

namespace AttrExpr

/-- Whether the fault is that the text ends inside of something. These are the
    faults a user can mend by typing on; every other fault stays however the
    text goes on, as `parse_error_continued` says. -/
def ParseFault.isUnterminated : ParseFault → Bool
  | unterminatedString => true
  | unterminatedGroup _ => true
  | _ => false

namespace Parse

namespace Scanner

/-! ## Up to the fault -/

/-- The scanner goes from one state to another over the characters, and none
    of them is a fault. `scan` only answers with a fault, so the state in which
    a fault is met has to be named by a relation. -/
inductive Runs : State → List Char → State → Prop
  | nil (state : State) : Runs state [] state
  | cons {state next last : State} {c : Char} {cs : List Char} (hstep : state.step c = .ok next)
      (hrest : Runs next cs last) : Runs state (c :: cs) last

/-- A run without a fault is a prefix that any scan can skip, which is what lets
    the text behind it be exchanged. -/
theorem Runs.scan_eq {state last : State} {own : List Char} (h : Runs state own last)
    (rest : List Char) : scan state (own ++ rest) = scan last rest := by
  induction h with
  | nil state => rfl
  | cons hstep _ ih => rw [List.cons_append, scan_cons_ok hstep, ih]

/-- A fault is revealed by a character, or by the end of the text. In both cases
    the scanner went over everything in front of it, so what follows can be
    asked about one state and, at most, one character. -/
theorem exists_runs_of_scan {state : State} {text : List Char} {e : ParseError}
    (h : scan state text = some e) : ∃ own back last, text = own ++ back ∧ Runs state own last ∧
      ((back = [] ∧ last.finish = some e) ∨
        ∃ c rest, back = c :: rest ∧ last.step c = .error e) := by
  induction text generalizing state with
  | nil => exact ⟨[], [], state, rfl, Runs.nil state, Or.inl ⟨rfl, h⟩⟩
  | cons c text ih =>
      rcases hstep : state.step c with e' | next
      · -- The first character is the one. Nothing was gone over before it.
        rw [scan_cons_error hstep] at h
        cases h
        exact ⟨[], c :: text, state, rfl, Runs.nil state, Or.inr ⟨c, text, rfl, hstep⟩⟩
      · -- The fault is further on, and this character is gone over.
        rw [scan_cons_ok hstep] at h
        rcases ih h with ⟨own, back, last, rfl, hruns, hfault⟩
        exact ⟨c :: own, back, last, rfl, Runs.cons hstep hruns, hfault⟩

section

variable {state last : State} {c : Char} {e : ParseError}

/-- What a state knows about the text behind it is kept up to date. The use of
    it here is the offset, which turns the place of a fault into the length of
    a piece of the text. -/
theorem Runs.tracks {own done : List Char} (h : Runs state own last) (htracks : state.Tracks done) :
    last.Tracks (done ++ own) := by
  induction h generalizing done with
  | nil state => rwa [List.append_nil]
  | cons hstep _ ih =>
      have hlast := ih (tracks_step htracks hstep)
      rwa [List.append_assoc, List.singleton_append] at hlast

/-! ## The two kinds of fault -/

/-- The fault is about the text up to `stop`, whatever follows. The two facts
    are all that the later proofs ask of a fault, so each function of the
    scanner is looked into once, by the lemmas below. -/
structure Settled (e : ParseError) (stop : Nat) : Prop where
  terminated : e.fault.isUnterminated = false
  stop : e.span.stop = stop

/-- A token that is bad where it ends has its fault up to there. -/
theorem settled_endToken (h : state.endToken = .error e) : Settled e state.offset := by
  unfold State.endToken at h
  split at h
  · split at h
    · -- A lone minus is the only token that is bad by its end.
      cases h
      exact ⟨rfl, rfl⟩
    · cases h
  · cases h

/-- A delimiter is bad only as a closing bracket, and then it ends the fault. -/
theorem settled_atDelimiter (h : state.atDelimiter c = .error e) :
    Settled e (state.offset + c.utf8Size) := by
  unfold State.atDelimiter at h
  split at h
  · cases h
  · split at h
    · cases h
    · split at h
      · -- No group is open.
        cases h
        exact ⟨rfl, rfl⟩
      · split at h
        · cases h
        · -- The innermost group was opened by the other kind of bracket.
          cases h
          exact ⟨rfl, rfl⟩

/-- A character that does not belong in a number ends the fault it makes. -/
theorem settled_inNumber {start : Nat} {seen : List Char} {pointed : Bool}
    (h : state.inNumber start seen pointed c = .error e) :
    Settled e (state.offset + c.utf8Size) := by
  unfold State.inNumber at h
  split at h
  · cases h
  · split at h
    · cases h
    · cases h
      exact ⟨rfl, rfl⟩

/-- A fault of a token that ends is no fault of a string: `endToken` leaves a
    string as it is. It is what `scan_endToken` needs to know of the state. -/
theorem mode_of_endToken (h : state.endToken = .error e) :
    ∀ start after, state.mode ≠ .string start after := by
  intro start after hmode
  simp only [State.endToken, hmode, reduceCtorEq] at h

/-- A character reveals that the token before it is bad, or it is itself what
    the fault ends with. -/
theorem step_error_cases (h : state.step c = .error e) :
    state.endToken = .error e ∨ Settled e (state.offset + c.utf8Size) := by
  unfold State.step at h
  split at h
  · split at h
    · cases h
    · cases h
  · split at h
    · -- A delimiter ends the token before it and is then looked at itself.
      rcases hend : state.endToken with e' | ended
      · rw [hend] at h
        cases h
        exact Or.inl rfl
      · rw [hend] at h
        rw [eq_of_endToken hend] at h
        exact Or.inr (settled_atDelimiter h)
    · -- Anything else goes on with a token or begins one.
      split at h
      · exact Or.inr (settled_inNumber h)
      · exact Or.inr (settled_inNumber h)
      · split at h
        · cases h
        · split at h
          · cases h
          · split at h
            · cases h
            · cases h
      · cases h

/-- The end of the text reveals that it is inside a string, that the token
    before it is bad, or that it is inside a group. Only the middle one is
    settled; the other two are the unterminated faults. -/
theorem finish_cases (h : state.finish = some e) :
    (∃ start after, state.mode = .string start after ∧
      e = ⟨.unterminatedString, ⟨start, state.offset⟩⟩) ∨
    state.endToken = .error e ∨
    (∀ start after, state.mode ≠ .string start after) ∧
      ∃ ended, state.endToken = .ok ended ∧ ended.openGroup? = some e := by
  unfold State.finish at h
  split at h
  · rename_i start after hmode
    cases h
    exact Or.inl ⟨start, after, hmode, rfl⟩
  · rename_i hmode
    -- Outside of a string the end of the text ends a token first, as a delimiter does.
    right
    split at h
    · rename_i hend
      cases h
      exact Or.inl hend
    · rename_i ended hend
      exact Or.inr ⟨hmode, ended, hend, h⟩

/-! ## Settled faults -/

/-- A bad token stays one if it ends there in front of other text too. The
    condition on the tail is needed: `-` is a fault at the end of a text, and
    the beginning of a number in front of a digit. -/
theorem scan_of_endToken (h : state.endToken = .error e) {tail : List Char}
    (htail : TokenEnds tail) : scan state tail = some e := by
  rw [scan_endToken (mode_of_endToken h) htail, h]

/-- A fault that is not about the end of the text is found in the text up to
    its end, with whatever does not go on with a token behind it. -/
theorem scan_of_settled {text : List Char} (htracks : state.Tracks [])
    (h : scan state text = some e) (hterminated : e.fault.isUnterminated = false) :
    ∃ own back, text = own ++ back ∧ e.span.stop = Text.byteLength own ∧
      ∀ tail, TokenEnds tail → scan state (own ++ tail) = some e := by
  rcases exists_runs_of_scan h with ⟨own, back, last, htext, hruns, hfault⟩
  have hoffset := (hruns.tracks htracks).offset
  rw [List.nil_append] at hoffset
  -- A token that ends badly is part of what the scanner went over.
  have hend : last.endToken = .error e → ∃ own back, text = own ++ back ∧
      e.span.stop = Text.byteLength own ∧
      ∀ tail, TokenEnds tail → scan state (own ++ tail) = some e := by
    intro hend
    have hstop : e.span.stop = Text.byteLength own := (settled_endToken hend).stop.trans hoffset
    refine ⟨own, back, htext, hstop, fun tail htail => ?_⟩
    rw [hruns.scan_eq, scan_of_endToken hend htail]
  rcases hfault with ⟨_, hfinish⟩ | ⟨c, rest, rfl, hstep⟩
  · rcases finish_cases hfinish with ⟨start, after, _, rfl⟩ | hbad | ⟨_, ended, _, hopen⟩
    · cases hterminated
    · exact hend hbad
    · -- An open group is not settled, so the hypothesis excludes it.
      simp only [State.openGroup?, Option.map_eq_some_iff] at hopen
      rcases hopen with ⟨frame, _, rfl⟩
      cases hterminated
  · rcases step_error_cases hstep with hbad | hsettled
    · exact hend hbad
    · -- The character that reveals the fault belongs to it.
      have hsplit : text = (own ++ [c]) ++ rest := by
        rw [htext, List.append_assoc, List.singleton_append]
      have hstop : e.span.stop = Text.byteLength (own ++ [c]) := by
        rw [hsettled.stop, hoffset, byteLength_snoc]
      refine ⟨own ++ [c], rest, hsplit, hstop, fun tail _ => ?_⟩
      rw [List.append_assoc, List.singleton_append, hruns.scan_eq, scan_cons_error hstep]

/-! ## Unterminated texts -/

/-- The brackets that close the open groups, innermost first. -/
def closers (stack : List (Bracket × Nat)) : List Char := stack.map fun frame => frame.1.closing

/-- No token goes on with closing brackets, so they can stand right behind the
    last one. -/
theorem tokenEnds_closers (stack : List (Bracket × Nat)) : TokenEnds (closers stack) := by
  cases stack with
  | nil => exact tokenEnds_nil
  | cons frame outer => exact tokenEnds_closing frame.1 (closers outer)

/-- The closing brackets of a stack take every group off it, and then nothing is
    wrong with the end of the text. -/
theorem scan_closers (stack : List (Bracket × Nat)) (offset : Nat) :
    scan ⟨stack, .between, offset⟩ (closers stack) = none := by
  induction stack generalizing offset with
  | nil => rfl
  | cons frame outer ih =>
      -- The first bracket matches the innermost group and leaves the outer ones.
      have hstep : State.step ⟨frame :: outer, .between, offset⟩ frame.1.closing =
          .ok ⟨outer, .between, offset + 1⟩ := by
        rw [step_closing]
        simp only [if_true]
      rw [closers, List.map_cons, scan_cons_ok hstep]
      exact ih (offset + 1)

/-- A string is closed by a quote. The space in front of it makes sure that no
    backslash comes right before the quote. -/
theorem scan_string_closers (stack : List (Bracket × Nat)) (start offset : Nat) (after : Bool) :
    scan ⟨stack, .string start after, offset⟩ (' ' :: '\'' :: closers stack) = none := by
  have hclose : closeString? after (' ' :: '\'' :: closers stack) =
      some ([' '], closers stack) := by
    cases after with
    | false => rfl
    | true => rfl
  rw [scan_string, hclose]
  exact scan_closers stack _

/-- A text that ends inside of something has its fault at its end, and can be
    gone on with so that nothing is wrong. The completion is read off the state
    at the end: the closing brackets of its stack, with a quote in front of
    them if a string is open. -/
theorem exists_completion {text : List Char} (htracks : state.Tracks [])
    (h : scan state text = some e) (hunterminated : e.fault.isUnterminated = true) :
    e.span.stop = Text.byteLength text ∧ ∃ closing, scan state (text ++ closing) = none := by
  rcases exists_runs_of_scan h with ⟨own, back, last, htext, hruns, hfault⟩
  have hoffset := (hruns.tracks htracks).offset
  rw [List.nil_append] at hoffset
  -- Other faults say that they are not about the end of the text.
  have hnot : ∀ stop, ¬ Settled e stop := by
    intro stop hsettled
    rw [hsettled.terminated] at hunterminated
    cases hunterminated
  rcases hfault with ⟨rfl, hfinish⟩ | ⟨c, rest, _, hstep⟩
  · rw [List.append_nil] at htext
    subst htext
    rcases finish_cases hfinish with ⟨start, after, hmode, rfl⟩ | hbad | ⟨hmode, ended, hend, hopen⟩
    · have hclose := scan_string_closers last.stack start last.offset after
      rw [← hmode] at hclose
      have hnone : scan state (text ++ ' ' :: '\'' :: closers last.stack) = none := by
        rw [hruns.scan_eq, hclose]
      exact ⟨hoffset, ' ' :: '\'' :: closers last.stack, hnone⟩
    · exact absurd (settled_endToken hbad) (hnot _)
    · rw [eq_of_endToken hend] at hopen
      simp only [State.openGroup?, Option.map_eq_some_iff] at hopen
      rcases hopen with ⟨frame, _, rfl⟩
      -- The last token ends in front of the first bracket as it did at the end.
      have hnone : scan state (text ++ closers last.stack) = none := by
        rw [hruns.scan_eq, scan_endToken hmode (tokenEnds_closers last.stack), hend]
        simp only [eq_of_endToken hend, scan_closers]
      exact ⟨hoffset, closers last.stack, hnone⟩
  · -- A fault that a character reveals is settled, so it is none of these.
    rcases step_error_cases hstep with hbad | hsettled
    · exact absurd (settled_endToken hbad) (hnot _)
    · exact absurd hsettled (hnot _)

end

end Scanner

/-! ## Texts -/

/-- A text within the limit that does not read has its fault because of the
    text up to the end of its span, or because it ends there. In the first
    case that part of the text has the fault with anything behind it that does
    not go on with its last token; in the second some more text makes it
    read. -/
theorem parse_error_continued {source : String} {e : ParseError}
    (hlimit : Text.byteLength source.toList ≤ Span.limit) (h : parse source = .error e) :
    (e.fault.isUnterminated = false →
      ∃ front, (Span.mk 0 e.span.stop).slice? source = some front ∧
        ∀ tail : String, TokenEnds tail.toList →
          Text.byteLength (front ++ tail).toList ≤ Span.limit →
            parse (front ++ tail) = .error e) ∧
      (e.fault.isUnterminated = true → e.span.stop = Text.byteLength source.toList ∧
        ∃ closing nodes, parse (source ++ closing) = .ok nodes) := by
  have hfault := firstFault?_of_parse hlimit h
  constructor
  · intro hterminated
    rcases Scanner.scan_of_settled Scanner.tracks_start hfault hterminated with
      ⟨own, back, htext, hstop, htail⟩
    have hslice := @Span.slice?_part source [] own back htext
    rw [Text.byteLength, Nat.zero_add, ← hstop] at hslice
    refine ⟨String.ofList own, hslice, ?_⟩
    -- The scanner stops where the fault ends, and what follows is never looked at.
    intro tail hends hlimit
    have hsame : firstFault? (String.ofList own ++ tail) = some e := by
      rw [firstFault?, String.toList_append, String.toList_ofList, htail tail.toList hends]
    exact parse_of_firstFault? hlimit hsame
  · intro hunterminated
    rcases Scanner.exists_completion Scanner.tracks_start hfault hunterminated with
      ⟨hstop, closing, hclosing⟩
    -- The text ends in the middle of something, and that can be brought to its end.
    have hnone : firstFault? (source ++ String.ofList closing) = none := by
      rw [firstFault?, String.toList_append, String.toList_ofList, hclosing]
    exact ⟨hstop, String.ofList closing, exists_nodes_of_firstFault? hnone⟩

/-- A second point is the fault in front of any delimiter, and a string that is
    open behind a backslash can be closed. -/
theorem parse_error_continued_point :
    Text.byteLength "(é 1.2.3".toList ≤ Span.limit ∧
      parse "(é 1.2.3" = .error ⟨.number .extraDecimalPoint "1.2.", ⟨4, 8⟩⟩ ∧
      parse ("(é 1.2." ++ "] 'x") = .error ⟨.number .extraDecimalPoint "1.2.", ⟨4, 8⟩⟩ ∧
      Text.byteLength "[('é\\".toList ≤ Span.limit ∧
      parse "[('é\\" = .error ⟨.unterminatedString, ⟨2, 6⟩⟩ ∧
      ∃ closing nodes, parse ("[('é\\" ++ closing) = .ok nodes := by
  have hpoint : parse "(é 1.2.3" = .error ⟨.number .extraDecimalPoint "1.2.", ⟨4, 8⟩⟩ := by rfl
  have hstring : parse "[('é\\" = .error ⟨.unterminatedString, ⟨2, 6⟩⟩ := by rfl
  refine ⟨by decide, hpoint, ?_, by decide, hstring,
    ((parse_error_continued (by decide) hstring).2 rfl).2⟩
  rcases (parse_error_continued (by decide) hpoint).1 rfl with ⟨front, hfront, htail⟩
  have hslice : Span.slice? ⟨0, 8⟩ "(é 1.2.3" = some "(é 1.2." := by decide
  rw [show front = "(é 1.2." from Option.some.inj (hfront.symm.trans hslice)] at htail
  refine htail "] 'x" (fun c hc => by cases hc; rfl) ?_
  rw [String.toList_append]
  decide

end Parse

end AttrExpr
