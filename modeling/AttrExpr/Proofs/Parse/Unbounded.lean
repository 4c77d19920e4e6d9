import AttrExpr.Parse.Reader

/-!
# Reading Without a Bound

The bound that `readNodes` counts down is there for the recursion only. Any
bound that is large enough gives the same result, so a reader without one can
be defined and described by what it does at each kind of input: at the end of
the text, at a closing bracket, and where a node begins. Everything proved
about reading later is proved from those descriptions, and the bound and the
nodes gathered in front are never mentioned again.

What makes a bound large enough is that reading a node leaves less text than
there was. That is where a node must begin with something: the rest of the
text is neither over nor a blank nor a closing bracket there.

## Main definitions

* `Input.AtNode`: A node begins here.
* `readAll`: The nodes up to the end of their enclosure.
* `readOne`: The node at the front of the input.

## Theorems

* `readNodes_bound`: Two bounds that are large enough give one result.
* `readNodes_before`: The nodes gathered so far stay in front.
* `readAll_end`, `readAll_closer`, `readAll_fault`, `readAll_cons`: What
  reading nodes comes to at each kind of input.
* `readOne_group`, `readOne_string`, `readOne_token`: What reading a node
  comes to at each kind of first character.
* `parse_eq_readAll`: The nodes of a text are read without a bound.
-/

namespace AttrExpr

namespace Bracket

theorem ofOpening?_eq_some_iff {c : Char} {b : Bracket} :
    ofOpening? c = some b ↔ c = b.opening := by
  constructor
  · intro h
    unfold ofOpening? at h
    split at h
    · cases h
      rfl
    · cases h
      rfl
    · cases h
  · rintro rfl
    exact ofOpening?_opening b

theorem ofClosing?_eq_some_iff {c : Char} {b : Bracket} :
    ofClosing? c = some b ↔ c = b.closing := by
  constructor
  · intro h
    unfold ofClosing? at h
    split at h
    · cases h
      rfl
    · cases h
      rfl
    · cases h
  · rintro rfl
    exact ofClosing?_closing b

end Bracket

namespace Parse

/-- A delimiter is a blank or a bracket, and nothing else. The reader tests for
    delimiters as a whole where a token ends, and for the three kinds one by one
    where a node begins; this is what keeps the two together. -/
theorem isDelimiter_eq_false_iff {c : Char} : isDelimiter c = false ↔
    isBlank c = false ∧ Bracket.ofOpening? c = none ∧ Bracket.ofClosing? c = none := by
  constructor
  · intro h
    simp only [isDelimiter, Bool.or_eq_false_iff, beq_eq_false_iff_ne] at h
    rcases h with ⟨⟨⟨⟨hblank, hround⟩, hroundEnd⟩, hsquare⟩, hsquareEnd⟩
    have hopening : Bracket.ofOpening? c = none := by
      unfold Bracket.ofOpening?
      split
      · exact absurd rfl hround
      · exact absurd rfl hsquare
      · rfl
    have hclosing : Bracket.ofClosing? c = none := by
      unfold Bracket.ofClosing?
      split
      · exact absurd rfl hroundEnd
      · exact absurd rfl hsquareEnd
      · rfl
    exact ⟨hblank, hopening, hclosing⟩
  · rintro ⟨hblank, hopening, hclosing⟩
    -- A bracket would open something or close something.
    have hopens : ∀ bracket : Bracket, c ≠ bracket.opening := by
      rintro bracket rfl
      rw [Bracket.ofOpening?_opening] at hopening
      cases hopening
    have hcloses : ∀ bracket : Bracket, c ≠ bracket.closing := by
      rintro bracket rfl
      rw [Bracket.ofClosing?_closing] at hclosing
      cases hclosing
    simp only [isDelimiter, Bool.or_eq_false_iff, beq_eq_false_iff_ne]
    exact ⟨⟨⟨⟨hblank, hopens .round⟩, hcloses .round⟩, hopens .square⟩, hcloses .square⟩

namespace Input

/-- A node begins at the front of the input: the text is not over, and it
    goes on with neither a blank nor a closing bracket. -/
def AtNode (input : Input) : Prop :=
  ∃ c rest, input.rest = c :: rest ∧ isBlank c = false ∧ Bracket.ofClosing? c = none

theorem length_skipBlanks_le (input : Input) :
    input.skipBlanks.rest.length ≤ input.rest.length :=
  (List.dropWhile_suffix isBlank).length_le

/-- Behind the blanks the text is over, a group is closed, or a node
    begins. Nearly every proof about reading nodes splits into these three, and
    there is one equation of `readAll` for each. -/
theorem skipBlanks_cases (input : Input) :
    input.skipBlanks.rest = [] ∨
      (∃ (found : Bracket) (rest : List Char), input.skipBlanks.rest = found.closing :: rest) ∨
      input.skipBlanks.AtNode := by
  cases hrest : input.skipBlanks.rest with
  | nil => exact Or.inl rfl
  | cons c rest =>
      right
      -- No blank is left in front once they have been skipped.
      have hblank : isBlank c = false := by
        have hhead := List.head?_dropWhile_not isBlank input.rest
        rw [show input.rest.dropWhile isBlank = c :: rest from hrest] at hhead
        simpa only [List.head?_cons, Bool.not_eq_true] using hhead
      cases hclosing : Bracket.ofClosing? c with
      | some found =>
          exact Or.inl ⟨found, rest, by rw [Bracket.ofClosing?_eq_some_iff.mp hclosing]⟩
      | none => exact Or.inr ⟨c, rest, hrest, hblank, hclosing⟩

theorem skipBlanks_of_nil {input : Input} (h : input.rest = []) : input.skipBlanks = input := by
  obtain ⟨rest, offset⟩ := input
  cases h
  rfl

theorem skipBlanks_of_not_blank {input : Input} {c : Char} {rest : List Char}
    (h : input.rest = c :: rest) (hc : isBlank c = false) : input.skipBlanks = input := by
  obtain ⟨text, offset⟩ := input
  cases h
  simp only [skipBlanks, after, List.takeWhile_cons, List.dropWhile_cons, hc, Bool.false_eq_true,
    if_false, Text.byteLength, Nat.add_zero]

/-- The token at the front of the input: all of it up to the next delimiter,
    whether that makes a name, a number or neither. -/
def token (input : Input) : List Char := input.rest.takeWhile fun c => !isDelimiter c

/-- The input after the token at its front. -/
def pastToken (input : Input) : Input :=
  input.after input.token (input.rest.dropWhile fun c => !isDelimiter c)

end Input

-- Reading a token looks at it as a whole, so it comes to one of three things,
-- depending on the token alone.
theorem readToken_number {input : Input} {value : Number}
    (hstart : startsNumber input.token = true) (hread : readNumber input.token = .ok value) :
    readToken input =
      .ok (.number value (Span.ofRange input.offset input.pastToken.offset), input.pastToken) := by
  unfold Input.token at hstart hread
  simp only [readToken, hstart, hread, if_true]
  rfl

theorem readToken_badNumber {input : Input} {fault : NumberFault} {seen : List Char}
    (hstart : startsNumber input.token = true)
    (hread : readNumber input.token = .error (fault, seen)) :
    readToken input = .error ⟨.number fault (String.ofList seen),
      Span.ofRange input.offset (input.offset + Text.byteLength seen)⟩ := by
  unfold Input.token at hstart hread
  simp only [readToken, hstart, hread, if_true]

theorem readToken_symbol {input : Input} (hstart : startsNumber input.token = false) :
    readToken input = .ok (.symbol (String.ofList input.token)
      (Span.ofRange input.offset input.pastToken.offset), input.pastToken) := by
  unfold Input.token at hstart
  simp only [readToken, hstart, Bool.false_eq_true, if_false]
  rfl

/-- Whatever a token means, reading it ends where it ends. -/
theorem eq_pastToken_of_readToken {input beyond : Input} {node : Node}
    (h : readToken input = .ok (node, beyond)) : beyond = input.pastToken := by
  cases hstart : startsNumber input.token with
  | false =>
      rw [readToken_symbol hstart] at h
      cases h
      rfl
  | true =>
      rcases hread : readNumber input.token with ⟨fault, seen⟩ | value
      · rw [readToken_badNumber hstart hread] at h
        cases h
      · rw [readToken_number hstart hread] at h
        cases h
        rfl

/-- A node takes at least one character, provided that what the groups in it
    hold adds none. The reader of groups is a parameter here, because reading a
    node is defined before it is known what reading its groups does. -/
theorem length_lt_of_readNodeWith {read : Enclosure → List Node → Input → Progress (List Node)}
    (hread : ∀ enclosure before input nodes beyond,
      read enclosure before input = .ok (nodes, beyond) → beyond.rest.length ≤ input.rest.length)
    {input beyond : Input} {node : Node} (hat : input.AtNode)
    (h : readNodeWith read input = .ok (node, beyond)) :
    beyond.rest.length < input.rest.length := by
  rcases hat with ⟨c, rest, hrest, hblank, hclosing⟩
  simp only [readNodeWith, hrest] at h
  cases hopening : Bracket.ofOpening? c with
  | some bracket =>
      simp only [hopening] at h
      split at h
      · cases h
      · rename_i children after hgroup
        cases h
        -- A group takes its opening bracket at least.
        have hle := hread _ _ _ _ _ hgroup
        simp only [Input.after] at hle
        simp only [hrest, List.length_cons]
        omega
  | none =>
      simp only [hopening] at h
      split at h
      · -- A string takes its opening quote at least.
        unfold readString at h
        split at h
        · cases h
        · rename_i body left hclose
          cases h
          simp only [Input.after, hrest, closeString?_eq_append hclose, List.length_cons,
            List.length_append]
          omega
      · -- A token begins with a character that ends none.
        have hdelimiter : isDelimiter c = false :=
          isDelimiter_eq_false_iff.mpr ⟨hblank, hopening, hclosing⟩
        rw [eq_pastToken_of_readToken h, Input.pastToken, Input.after, hrest,
          List.dropWhile_cons_of_pos (by simp only [hdelimiter, Bool.not_false]), List.length_cons]
        exact Nat.lt_succ_of_le (List.dropWhile_suffix _).length_le

namespace Enclosure

/-- The end of the text ends the text, and nothing else. -/
theorem eq_of_atEnd {enclosure : Enclosure} {before nodes : List Node} {input beyond : Input}
    (h : enclosure.atEnd before input = .ok (nodes, beyond)) :
    enclosure = .text ∧ nodes = before ∧ beyond = input := by
  cases enclosure with
  | text =>
      cases h
      exact ⟨rfl, rfl, rfl⟩
  | group bracket start => cases h

/-- A closing bracket ends a group of its kind, and nothing else. -/
theorem eq_of_atCloser {enclosure : Enclosure} {before nodes : List Node} {found : Bracket}
    {input beyond : Input} {rest : List Char}
    (h : enclosure.atCloser before found input rest = .ok (nodes, beyond)) :
    ∃ start, enclosure = .group found start ∧ nodes = before ∧
      beyond = input.after [found.closing] rest := by
  cases enclosure with
  | text => cases h
  | group bracket start =>
      by_cases hfound : found = bracket
      · simp only [atCloser, if_pos hfound] at h
        cases h
        exact ⟨start, by rw [hfound], rfl, rfl⟩
      · simp only [atCloser, if_neg hfound] at h
        cases h

/-- The nodes gathered before the end of a text do not matter to whether it
    ends there. -/
theorem atEnd_before (enclosure : Enclosure) (before : List Node) (input : Input) :
    enclosure.atEnd before input = (enclosure.atEnd [] input).map
      fun (nodes, beyond) => (before ++ nodes, beyond) := by
  cases enclosure with
  | text => simp only [atEnd, Except.map, List.append_nil]
  | group bracket start => rfl

/-- The nodes gathered before a closing bracket do not matter to whether it
    closes anything. -/
theorem atCloser_before (enclosure : Enclosure) (before : List Node) (found : Bracket)
    (input : Input) (rest : List Char) :
    enclosure.atCloser before found input rest = (enclosure.atCloser [] found input rest).map
      fun (nodes, beyond) => (before ++ nodes, beyond) := by
  cases enclosure with
  | text => rfl
  | group bracket start =>
      by_cases hfound : found = bracket
      · simp only [atCloser, if_pos hfound, Except.map, List.append_nil]
      · simp only [atCloser, if_neg hfound, Except.map]

end Enclosure

/-! ## One step under a bound -/

section

variable {bound : Nat} {enclosure : Enclosure} {before : List Node} {input : Input}

theorem readNodes_succ_end (h : input.skipBlanks.rest = []) :
    readNodes (bound + 1) enclosure before input =
      enclosure.atEnd before.reverse input.skipBlanks := by
  simp only [readNodes, h]

theorem readNodes_succ_closer {found : Bracket} {rest : List Char}
    (h : input.skipBlanks.rest = found.closing :: rest) :
    readNodes (bound + 1) enclosure before input =
      enclosure.atCloser before.reverse found input.skipBlanks rest := by
  simp only [readNodes, h, Bracket.ofClosing?_closing]

theorem readNodes_succ_node (h : input.skipBlanks.AtNode) :
    readNodes (bound + 1) enclosure before input =
      match readNodeWith (readNodes bound) input.skipBlanks with
      | .error e => .error e
      | .ok (node, beyond) => readNodes bound enclosure (node :: before) beyond := by
  rcases h with ⟨c, rest, hrest, _, hclosing⟩
  rcases hnode : readNodeWith (readNodes bound) input.skipBlanks with e | ⟨node, beyond⟩
  · simp only [readNodes, hrest, hclosing, hnode]
  · simp only [readNodes, hrest, hclosing, hnode]

end

/-- Reading the nodes of an enclosure leaves no more text than there was. The
    induction is on the bound, and its step is that a node takes something. -/
theorem length_le_of_readNodes {bound : Nat} {enclosure : Enclosure} {before nodes : List Node}
    {input beyond : Input} (h : readNodes bound enclosure before input = .ok (nodes, beyond)) :
    beyond.rest.length ≤ input.rest.length := by
  induction bound generalizing enclosure before nodes input beyond with
  | zero =>
      -- Without a bound left nothing is read.
      simp only [readNodes] at h
      rcases Enclosure.eq_of_atEnd h with ⟨_, _, rfl⟩
      exact Nat.le_refl _
  | succ bound ih =>
      have hskip := input.length_skipBlanks_le
      rcases input.skipBlanks_cases with hend | ⟨found, rest, hcloser⟩ | hat
      · rw [readNodes_succ_end hend] at h
        rw [(Enclosure.eq_of_atEnd h).2.2]
        exact hskip
      · rw [readNodes_succ_closer hcloser] at h
        rcases Enclosure.eq_of_atCloser h with ⟨_, _, _, rfl⟩
        rw [hcloser, List.length_cons] at hskip
        simp only [Input.after]
        omega
      · rw [readNodes_succ_node hat] at h
        split at h
        · cases h
        · rename_i node after hnode
          -- The node leaves less, and what follows it leaves no more than that.
          have hlt := length_lt_of_readNodeWith (fun _ _ _ _ _ hgroup => ih hgroup) hat hnode
          have hle := ih h
          omega

/-- Reading a node asks of the reader of groups only what it does with less
    text than there is, and with no nodes gathered yet. Readers that agree so
    far read the node alike. -/
theorem readNodeWith_congr {read read' : Enclosure → List Node → Input → Progress (List Node)}
    {input : Input}
    (h : ∀ enclosure (inner : Input), inner.rest.length < input.rest.length →
      read enclosure [] inner = read' enclosure [] inner) :
    readNodeWith read input = readNodeWith read' input := by
  cases hrest : input.rest with
  | nil => simp only [readNodeWith, hrest]
  | cons c rest =>
      have hinner := fun enclosure => h enclosure (input.after [c] rest) (by
        simp only [Input.after, hrest, List.length_cons, Nat.lt_add_one])
      simp only [readNodeWith, hrest, hinner]

/-- Two bounds that the rest of the text does not exceed give one result. Every
    round takes a character, so no reading notices a bound that the characters
    fit in; the induction is on one of the bounds, for all texts within it. -/
theorem readNodes_bound {b b' : Nat} {enclosure : Enclosure} {before : List Node} {input : Input}
    (h : input.rest.length ≤ b) (h' : input.rest.length ≤ b') :
    readNodes b enclosure before input = readNodes b' enclosure before input := by
  induction b generalizing b' enclosure before input with
  | zero =>
      -- Here the bound says that the text is over, and any other bound finds that.
      have hnil : input.rest = [] := List.eq_nil_of_length_eq_zero (Nat.le_zero.mp h)
      have hskip := Input.skipBlanks_of_nil hnil
      cases b' with
      | zero => rfl
      | succ b' => rw [readNodes_succ_end (by rw [hskip, hnil]), hskip, readNodes]
  | succ b ih =>
      cases b' with
      | zero =>
          have hnil : input.rest = [] := List.eq_nil_of_length_eq_zero (Nat.le_zero.mp h')
          have hskip := Input.skipBlanks_of_nil hnil
          rw [readNodes_succ_end (by rw [hskip, hnil]), hskip, readNodes]
      | succ b' =>
          have hle := input.length_skipBlanks_le
          rcases input.skipBlanks_cases with hend | ⟨found, rest, hcloser⟩ | hat
          · rw [readNodes_succ_end hend, readNodes_succ_end hend]
          · rw [readNodes_succ_closer hcloser, readNodes_succ_closer hcloser]
          · -- The groups in the node and the nodes after it hold less text.
            have hsame : readNodeWith (readNodes b) input.skipBlanks =
                readNodeWith (readNodes b') input.skipBlanks :=
              readNodeWith_congr fun _ inner hlt => ih (by omega) (by omega)
            rw [readNodes_succ_node hat, readNodes_succ_node hat, hsame]
            split
            · rfl
            · rename_i node after hnode
              have hlt := length_lt_of_readNodeWith (fun _ _ _ _ _ => length_le_of_readNodes)
                hat hnode
              exact ih (by omega) (by omega)

/-- The nodes of an enclosure and the input after it. The bound is the length of
    what is left, which is one of those that are large enough. -/
def readAll (enclosure : Enclosure) (input : Input) : Progress (List Node) :=
  readNodes input.rest.length enclosure [] input

/-- The node at the front of the input. Its groups are read without a bound, so
    one node and the nodes of an enclosure can be described by each other. -/
def readOne (input : Input) : Progress Node :=
  readNodeWith (fun enclosure _ inner => readAll enclosure inner) input

/-- The nodes gathered so far stay in front of the ones still to come, so reading
    may as well begin with none and put them there afterwards. -/
theorem readNodes_before (b : Nat) (enclosure : Enclosure) (before : List Node) (input : Input) :
    readNodes b enclosure before input = (readNodes b enclosure [] input).map
      fun (nodes, beyond) => (before.reverse ++ nodes, beyond) := by
  induction b generalizing enclosure before input with
  | zero =>
      simp only [readNodes, List.reverse_nil]
      exact enclosure.atEnd_before _ _
  | succ b ih =>
      rcases input.skipBlanks_cases with hend | ⟨found, rest, hcloser⟩ | hat
      · rw [readNodes_succ_end hend, readNodes_succ_end hend, List.reverse_nil]
        exact enclosure.atEnd_before _ _
      · rw [readNodes_succ_closer hcloser, readNodes_succ_closer hcloser, List.reverse_nil]
        exact enclosure.atCloser_before _ _ _ _
      · rw [readNodes_succ_node hat, readNodes_succ_node hat]
        split
        · rfl
        · rename_i node beyond _
          -- The node just read is the last of those gathered, on either side.
          rw [ih enclosure (node :: before) beyond, ih enclosure [node] beyond]
          cases readNodes b enclosure [] beyond with
          | error e => rfl
          | ok result =>
              simp only [Except.map, List.reverse_cons, List.reverse_nil, List.nil_append,
                List.append_assoc]

/-! ## What reading comes to -/

section

variable {enclosure : Enclosure} {input : Input}

-- One more than the length is a bound as well, and under a successor there is an
-- equation for a step.
theorem readAll_eq_succ (enclosure : Enclosure) (input : Input) :
    readAll enclosure input = readNodes (input.rest.length + 1) enclosure [] input :=
  readNodes_bound (Nat.le_refl _) (Nat.le_succ _)

theorem readAll_end (h : input.skipBlanks.rest = []) :
    readAll enclosure input = enclosure.atEnd [] input.skipBlanks := by
  rw [readAll_eq_succ, readNodes_succ_end h, List.reverse_nil]

theorem readAll_closer {found : Bracket} {rest : List Char}
    (h : input.skipBlanks.rest = found.closing :: rest) :
    readAll enclosure input = enclosure.atCloser [] found input.skipBlanks rest := by
  rw [readAll_eq_succ, readNodes_succ_closer h, List.reverse_nil]

/-- Reading a node under a bound that is large enough is reading it without
    one. -/
theorem readNodeWith_eq_readOne {b : Nat} (h : input.rest.length ≤ b + 1) :
    readNodeWith (readNodes b) input = readOne input :=
  readNodeWith_congr fun _ _ hlt => readNodes_bound (by omega) (Nat.le_refl _)

theorem readAll_fault {e : ParseError} (hat : input.skipBlanks.AtNode)
    (h : readOne input.skipBlanks = .error e) : readAll enclosure input = .error e := by
  have hle := input.length_skipBlanks_le
  rw [readAll_eq_succ, readNodes_succ_node hat, readNodeWith_eq_readOne (by omega), h]

/-- A node that reads is the first one, and the others are what is read behind
    it. -/
theorem readAll_cons {node : Node} {beyond : Input} (hat : input.skipBlanks.AtNode)
    (h : readOne input.skipBlanks = .ok (node, beyond)) : readAll enclosure input =
      (readAll enclosure beyond).map fun (nodes, last) => (node :: nodes, last) := by
  have hle := input.length_skipBlanks_le
  -- The bound that is left still covers the groups in the node and the rest.
  have hnode : readNodeWith (readNodes input.rest.length) input.skipBlanks =
      readOne input.skipBlanks := readNodeWith_eq_readOne (by omega)
  have hlt := length_lt_of_readNodeWith (fun _ _ _ _ _ => length_le_of_readNodes) hat
    (hnode.trans h)
  have hbeyond : readNodes input.rest.length enclosure [] beyond = readAll enclosure beyond :=
    readNodes_bound (by omega) (Nat.le_refl _)
  rw [readAll_eq_succ, readNodes_succ_node hat, hnode, h]
  simp only
  rw [readNodes_before, hbeyond]
  rfl

/-- Reading a node leaves less text than there was, which is what inductions on
    the text that is left go down by. -/
theorem length_lt_of_readOne {node : Node} {beyond : Input} (hat : input.AtNode)
    (h : readOne input = .ok (node, beyond)) : beyond.rest.length < input.rest.length :=
  length_lt_of_readNodeWith (fun _ _ _ _ _ => length_le_of_readNodes) hat h

end

theorem parse_eq_readAll (source : String) :
    parse source = (readAll .text (Input.ofString source)).map Prod.fst := rfl

/-! ## What reading a node comes to -/

section

variable {input : Input} {rest : List Char}

theorem readOne_group {bracket : Bracket} (h : input.rest = bracket.opening :: rest) :
    readOne input =
      (readAll (.group bracket input.offset) (input.after [bracket.opening] rest)).map
        fun (children, beyond) =>
          (.group bracket children (Span.ofRange input.offset beyond.offset), beyond) := by
  simp only [readOne, readNodeWith, h, Bracket.ofOpening?_opening]
  cases readAll (.group bracket input.offset) (input.after [bracket.opening] rest) with
  | error error => rfl
  | ok result => rfl

theorem readOne_string (h : input.rest = '\'' :: rest) :
    readOne input = readString input rest := by
  have hopening : Bracket.ofOpening? '\'' = none := rfl
  simp only [readOne, readNodeWith, h, hopening, if_true]

theorem readOne_token {c : Char} (h : input.rest = c :: rest) (hc : isDelimiter c = false)
    (hquote : c ≠ '\'') : readOne input = readToken input := by
  have hopening := (isDelimiter_eq_false_iff.mp hc).2.1
  simp only [readOne, readNodeWith, h, hopening, if_neg hquote]

/-- A node is a group, a string or a token, and its first character tells
    which. With the equations above this is all that is known of reading one
    node, and all that is needed. -/
theorem Input.AtNode.cases (hat : input.AtNode) :
    (∃ (bracket : Bracket) (rest : List Char), input.rest = bracket.opening :: rest) ∨
      (∃ rest, input.rest = '\'' :: rest) ∨
      (∃ c rest, input.rest = c :: rest ∧ isDelimiter c = false ∧ c ≠ '\'') := by
  rcases hat with ⟨c, rest, hrest, hblank, hclosing⟩
  cases hopening : Bracket.ofOpening? c with
  | some bracket =>
      exact Or.inl ⟨bracket, rest, by rw [hrest, Bracket.ofOpening?_eq_some_iff.mp hopening]⟩
  | none =>
      right
      by_cases hquote : c = '\''
      · exact Or.inl ⟨rest, by rw [hrest, hquote]⟩
      · exact Or.inr ⟨c, rest, hrest,
          isDelimiter_eq_false_iff.mpr ⟨hblank, hopening, hclosing⟩, hquote⟩

theorem readString_closed {body left : List Char}
    (h : closeString? false rest = some (body, left)) :
    readString input rest =
      .ok (.string (stringValue body) (Span.ofRange input.offset
        (input.after ('\'' :: (body ++ ['\''])) left).offset),
        input.after ('\'' :: (body ++ ['\''])) left) := by
  simp only [readString, h]

theorem readString_open (h : closeString? false rest = none) :
    readString input rest =
      .error ⟨.unterminatedString, Span.ofRange input.offset input.stop⟩ := by
  simp only [readString, h]

end

end Parse

end AttrExpr
