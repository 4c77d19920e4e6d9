import AttrExpr.Proofs.Node.Relocation
import AttrExpr.Proofs.Parse.Grammar

/-!
# Reading is Deriving

The nodes of a text are the ones the grammar derives from it, in both
directions and with their spans.

Both directions are about a sequence in the middle of a text, since that is
where the sequences inside groups stand. A derivation does not say what comes
after its sequence, so going from it to a reading the end of the enclosure is
left to be read: a sequence at the front of the input may be read first, and
its nodes put in front of whatever the reader makes of the rest. Going back,
a reading hands over the text it consumed, which is the sequence and the end
of its enclosure.

No rule of the grammar looks at a place, so a text derives the same nodes
wherever it stands, with other spans. That the reader's spans, which come from
`Span.ofRange`, are the plain ranges of the grammar within the limit is the
case in which nothing moves, and only there the limit has to be mentioned.

## Main definitions

* `Enclosure.ending`: The characters that end an enclosure.
* `Consumed`: A reading went over a derived sequence and what ends it.

## Theorems

* `Sequence.readAll`: A derived sequence is read.
* `consumed_of_readAll`: What is read is a derived sequence.
* `Sequence.relocate`: A derivation holds elsewhere, and with places that are
  recorded otherwise.
* `parse_eq_ok_iff_ofRange`: Reading a text of any length is deriving it.
* `parse_eq_ok_iff_sequence`: Reading a text within the limit derives it with
  its exact spans.
-/

namespace AttrExpr

namespace Parse

/-! ## Where a token ends -/

theorem tokenEnds_closing (bracket : Bracket) (rest : List Char) :
    TokenEnds (bracket.closing :: rest) := by
  intro c hc
  cases hc
  exact isDelimiter_closing bracket

/-- A token that ends in front of `rest` ends there as well if more text
    follows, provided that where there is no `rest` the text after it ends
    it. A sequence is derived without what follows it, so this is what putting
    it in the middle of a text takes. -/
theorem TokenEnds.append {rest tail : List Char} (h : TokenEnds rest) (htail : TokenEnds tail) :
    TokenEnds (rest ++ tail) := by
  cases rest with
  | nil => exact htail
  | cons c rest => exact h

theorem TokenEnds.of_append {rest tail : List Char} (h : TokenEnds (rest ++ tail)) :
    TokenEnds rest := by
  cases rest with
  | nil => exact tokenEnds_nil
  | cons c rest => exact h

/-- A leaf stays one in front of more text. -/
theorem Leaf.append {span : Span} {token rest tail : List Char} {node : Node}
    (h : Leaf span token rest node) (htail : TokenEnds tail) :
    Leaf span token (rest ++ tail) node := by
  cases h with
  | string hbody => exact Leaf.string hbody
  | symbol htoken hends => exact Leaf.symbol htoken (hends.append htail)
  | number hvalue hends => exact Leaf.number hvalue (hends.append htail)

/-- A leaf stays one with less text behind it: where the text ends, so does
    every token. -/
theorem Leaf.of_append {span : Span} {token rest tail : List Char} {node : Node}
    (h : Leaf span token (rest ++ tail) node) : Leaf span token rest node := by
  cases h with
  | string hbody => exact Leaf.string hbody
  | symbol htoken hends => exact Leaf.symbol htoken hends.of_append
  | number hvalue hends => exact Leaf.number hvalue hends.of_append

/-! ## From a derivation to a reading -/

/-- Reading depends on the input behind its blanks only, so two inputs with the
    same rest behind their blanks need not be told apart. -/
theorem readAll_of_skipBlanks_eq {enclosure : Enclosure} {input other : Input}
    (h : input.skipBlanks = other.skipBlanks) :
    readAll enclosure input = readAll enclosure other := by
  -- There is an equation for each of the three things that can come next.
  rcases input.skipBlanks_cases with hend | ⟨found, rest, hcloser⟩ | hat
  · rw [readAll_end hend, readAll_end (h ▸ hend), h]
  · rw [readAll_closer hcloser, readAll_closer (h ▸ hcloser), h]
  · have hat' : other.skipBlanks.AtNode := h ▸ hat
    have hsame : readOne other.skipBlanks = readOne input.skipBlanks := by rw [h]
    rcases hread : readOne input.skipBlanks with e | ⟨node, beyond⟩
    · rw [readAll_fault hat hread, readAll_fault hat' (hsame.trans hread)]
    · rw [readAll_cons hat hread, readAll_cons hat' (hsame.trans hread)]

theorem skipBlanks_cons {c : Char} {rest : List Char} {offset : Nat} (hc : isBlank c = true) :
    (Input.mk (c :: rest) offset).skipBlanks =
      (Input.mk rest (offset + c.utf8Size)).skipBlanks := by
  simp only [Input.skipBlanks, Input.after, List.takeWhile_cons_of_pos hc,
    List.dropWhile_cons_of_pos hc, Text.byteLength, Nat.add_assoc]

theorem Input.AtNode.skipBlanks_eq {input : Input} (hat : input.AtNode) :
    input.skipBlanks = input := by
  rcases hat with ⟨c, rest, hrest, hblank, _⟩
  exact Input.skipBlanks_of_not_blank hrest hblank

/-- A node at the very front is read first, and is the first of the nodes that
    are read. -/
theorem readAll_node {enclosure : Enclosure} {input beyond : Input} {node : Node}
    (hat : input.AtNode) (h : readOne input = .ok (node, beyond)) :
    readAll enclosure input =
      (readAll enclosure beyond).map fun (nodes, last) => (node :: nodes, last) := by
  have hskip := hat.skipBlanks_eq
  exact readAll_cons (by rwa [hskip]) (by rwa [hskip])

/-- The fault of a node at the very front is that of the whole enclosure, since
    nothing behind it is looked at. -/
theorem readAll_badNode {enclosure : Enclosure} {input : Input} {e : ParseError}
    (hat : input.AtNode) (h : readOne input = .error e) : readAll enclosure input = .error e := by
  have hskip := hat.skipBlanks_eq
  exact readAll_fault (by rwa [hskip]) (by rwa [hskip])

theorem atNode_opening (bracket : Bracket) (rest : List Char) (offset : Nat) :
    (Input.mk (bracket.opening :: rest) offset).AtNode :=
  ⟨bracket.opening, rest, rfl, isBlank_opening bracket, ofClosing?_opening bracket⟩

/-- A closing bracket at the very front ends the nodes. -/
theorem readAll_closing (enclosure : Enclosure) (found : Bracket) (rest : List Char)
    (offset : Nat) : readAll enclosure ⟨found.closing :: rest, offset⟩ =
      enclosure.atCloser [] found ⟨found.closing :: rest, offset⟩ rest := by
  have hskip : (Input.mk (found.closing :: rest) offset).skipBlanks =
      ⟨found.closing :: rest, offset⟩ := Input.skipBlanks_of_not_blank rfl (isBlank_closing found)
  rw [readAll_closer (by rw [hskip]), hskip]

/-- A derived sequence is read, and what follows it is read after it. The
    enclosure may be any, because a sequence closes all groups that it opens;
    that it ends is left to what follows. The induction is on the derivation. -/
theorem Sequence.readAll {start : Nat} {text : List Char} {nodes : List Node}
    (h : Sequence Span.ofRange start text nodes) (enclosure : Enclosure) {tail : List Char}
    (htail : TokenEnds tail) : Parse.readAll enclosure ⟨text ++ tail, start⟩ =
      (Parse.readAll enclosure ⟨tail, start + Text.byteLength text⟩).map
        fun (more, last) => (nodes ++ more, last) := by
  induction h generalizing enclosure tail with
  | nil start =>
      rw [List.nil_append, Text.byteLength, Nat.add_zero]
      cases Parse.readAll enclosure ⟨tail, start⟩ with
      | error error => rfl
      | ok result => rfl
  | @blank start c text nodes hblank _ ih =>
      rw [List.cons_append, readAll_of_skipBlanks_eq (skipBlanks_cons hblank), ih enclosure htail,
        Text.byteLength, Nat.add_assoc]
  | @leaf start token rest node nodes hleaf _ ih =>
      -- What follows the sequence does not make its last token longer.
      have hleaf := hleaf.append htail
      rw [List.append_assoc, readAll_node (hleaf.atNode start) (readOne_of_leaf hleaf),
        ih enclosure htail, Text.byteLength_append, Nat.add_assoc]
      cases Parse.readAll enclosure _ with
      | error error => rfl
      | ok result => rfl
  | @group start bracket body rest children nodes _ _ ihbody ihrest =>
      have hclosing := tokenEnds_closing bracket (rest ++ tail)
      -- The sequence inside is read up to the bracket, which ends it.
      have hgroup : Parse.readAll (.group bracket start)
          ⟨body ++ bracket.closing :: (rest ++ tail), start + 1⟩ =
            .ok (children, ⟨rest ++ tail, start + (Text.byteLength body + 2)⟩) := by
        rw [ihbody (.group bracket start) hclosing, readAll_closing]
        simp only [Enclosure.atCloser, if_true, Except.map, List.append_nil, Input.after,
          byteLength_closing]
        congr 3
        omega
      -- So the whole group is one node, and the sequence goes on behind it.
      have hone : readOne ⟨bracket.opening :: (body ++ bracket.closing :: (rest ++ tail)), start⟩ =
          .ok (.group bracket children (Span.ofRange start (start + (Text.byteLength body + 2))),
            ⟨rest ++ tail, start + (Text.byteLength body + 2)⟩) := by
        rw [readOne_group rfl, Input.after, byteLength_opening, hgroup]
        rfl
      rw [List.cons_append, List.append_assoc, List.cons_append,
        readAll_node (atNode_opening bracket _ start) hone, ihrest enclosure htail,
        byteLength_group, Nat.add_assoc]
      cases Parse.readAll enclosure _ with
      | error error => rfl
      | ok result => rfl

/-! ## From a reading to a derivation -/

/-- The characters that end an enclosure: its closing bracket, or nothing for
    the text, which ends where there are no more characters. Naming them lets a
    reading of either kind be said to consume its sequence and then its end. -/
def Enclosure.ending : Enclosure → List Char
  | .text => []
  | .group bracket _ => [bracket.closing]

/-- Blanks may stand in front of a sequence. -/
theorem Sequence.blanks {locate : Nat → Nat → Span} {start : Nat} {blanks text : List Char}
    {nodes : List Node} (hblanks : ∀ c ∈ blanks, isBlank c = true)
    (h : Sequence locate (start + Text.byteLength blanks) text nodes) :
    Sequence locate start (blanks ++ text) nodes := by
  induction blanks generalizing start with
  | nil => exact h
  | cons c blanks ih =>
      rw [Text.byteLength, ← Nat.add_assoc] at h
      exact Sequence.blank (hblanks c List.mem_cons_self)
        (ih (fun d hd => hblanks d (List.mem_cons_of_mem c hd)) h)

theorem exists_skipBlanks (input : Input) : ∃ blanks, (∀ c ∈ blanks, isBlank c = true) ∧
    input.rest = blanks ++ input.skipBlanks.rest ∧
    input.skipBlanks.offset = input.offset + Text.byteLength blanks :=
  ⟨input.rest.takeWhile isBlank, fun c hc => List.all_eq_true.mp List.all_takeWhile c hc,
    List.takeWhile_append_dropWhile.symm, rfl⟩

/-- What it means that a reading of an enclosure consumed `text` and ended
    before `beyond`: the nodes are derived from `text`, and the enclosure
    ends behind it. -/
structure Consumed (enclosure : Enclosure) (input : Input) (text : List Char) (nodes : List Node)
    (beyond : Input) : Prop where
  derived : Sequence Span.ofRange input.offset text nodes
  rest : input.rest = text ++ (enclosure.ending ++ beyond.rest)
  offset : beyond.offset = input.offset + Text.byteLength (text ++ enclosure.ending)
  complete : enclosure = .text → beyond.rest = []

/-- The blanks skipped in front belong to the text consumed. -/
theorem Consumed.of_skipBlanks {enclosure : Enclosure} {input beyond : Input} {text : List Char}
    {nodes : List Node} (h : Consumed enclosure input.skipBlanks text nodes beyond) :
    ∃ text, Consumed enclosure input text nodes beyond := by
  rcases exists_skipBlanks input with ⟨blanks, hblanks, hrest, hoffset⟩
  have hderived : Sequence Span.ofRange input.offset (blanks ++ text) nodes := by
    have hbehind := h.derived
    rw [hoffset] at hbehind
    exact Sequence.blanks hblanks hbehind
  refine ⟨blanks ++ text, hderived, ?_, ?_, h.complete⟩
  · rw [hrest, h.rest, List.append_assoc]
  · rw [h.offset, hoffset, List.append_assoc, Text.byteLength_append blanks, Nat.add_assoc]

/-- A group that was read consumed a bracket and what is in it. -/
theorem group_of_readOne {bracket : Bracket} {input beyond : Input} {rest : List Char} {node : Node}
    (hrest : input.rest = bracket.opening :: rest) (h : readOne input = .ok (node, beyond)) :
    ∃ children, node = .group bracket children (Span.ofRange input.offset beyond.offset) ∧
      readAll (.group bracket input.offset) ⟨rest, input.offset + 1⟩ = .ok (children, beyond) := by
  rw [readOne_group hrest, Input.after, byteLength_opening] at h
  rcases hgroup : readAll (.group bracket input.offset) ⟨rest, input.offset + 1⟩ with
    e | ⟨children, last⟩
  · rw [hgroup] at h
    cases h
  · rw [hgroup] at h
    cases h
    exact ⟨children, rfl, rfl⟩

/-- A node that was read goes in front of a sequence. What is known of the
    groups in it is `hgroups`, for all inputs that are shorter; the induction
    that supplies it is in `consumed_of_readAll`. -/
theorem Consumed.cons {enclosure : Enclosure} {input middle beyond : Input} {text : List Char}
    {node : Node} {nodes : List Node} (hat : input.AtNode)
    (hgroups : ∀ (bracket : Bracket) (start : Nat) (inner last : Input) (children : List Node),
      inner.rest.length < input.rest.length →
      readAll (.group bracket start) inner = .ok (children, last) →
      ∃ body, Consumed (.group bracket start) inner body children last)
    (hone : readOne input = .ok (node, middle)) (h : Consumed enclosure middle text nodes beyond) :
    ∃ text, Consumed enclosure input text (node :: nodes) beyond := by
  by_cases hopening : ∃ (bracket : Bracket) (rest : List Char), input.rest = bracket.opening :: rest
  · rcases hopening with ⟨bracket, rest, hrest⟩
    rcases group_of_readOne hrest hone with ⟨children, rfl, hread⟩
    -- What is in the group was consumed up to its closing bracket.
    rcases hgroups bracket input.offset _ _ children (by simp only [hrest, List.length_cons]; omega)
      hread with ⟨body, hbody⟩
    have hinner := hbody.rest
    have hmiddle := hbody.offset
    have hderived := h.derived
    simp only [Enclosure.ending, List.singleton_append] at hinner
    simp only [Enclosure.ending, Text.byteLength_append, byteLength_closing] at hmiddle
    rw [show middle.offset = input.offset + (Text.byteLength body + 2) by omega] at hderived ⊢
    refine ⟨bracket.opening :: (body ++ bracket.closing :: text),
      Sequence.group bracket hbody.derived hderived, ?_, ?_, h.complete⟩
    · rw [hrest, hinner, h.rest]
      simp only [List.cons_append, List.append_assoc]
    · rw [h.offset, Text.byteLength_append, Text.byteLength_append, byteLength_group]
      omega
  · -- Any other node is a leaf, and it is one without the text behind the sequence.
    rcases leaf_of_readOne hat (fun bracket rest hrest => hopening ⟨bracket, rest, hrest⟩) hone with
      ⟨token, hrest, hoffset, hleaf⟩
    have hderived := h.derived
    rw [hoffset] at hderived hleaf
    rw [h.rest] at hleaf hrest
    refine ⟨token ++ text, Sequence.leaf hleaf.of_append hderived, ?_, ?_, h.complete⟩
    · rw [hrest, List.append_assoc]
    · rw [h.offset, hoffset, List.append_assoc, Text.byteLength_append token, Nat.add_assoc]

/-- What is read was consumed. The groups in the first node and the nodes
    after it are shorter, so the induction is on the text left. -/
theorem consumed_of_readAll {enclosure : Enclosure} {input beyond : Input} {nodes : List Node}
    (h : readAll enclosure input = .ok (nodes, beyond)) :
    ∃ text, Consumed enclosure input text nodes beyond := by
  induction hn : input.rest.length using Nat.strongRecOn
      generalizing enclosure input nodes beyond with
  | _ n ih =>
      subst hn
      have hle := input.length_skipBlanks_le
      rcases input.skipBlanks_cases with hend | ⟨found, rest, hcloser⟩ | hat
      · rw [readAll_end hend] at h
        rcases Enclosure.eq_of_atEnd h with ⟨rfl, rfl, rfl⟩
        -- Only the text ends here, with no more nodes.
        have hconsumed : Consumed .text input.skipBlanks [] [] input.skipBlanks :=
          ⟨Sequence.nil _, rfl, rfl, fun _ => hend⟩
        exact hconsumed.of_skipBlanks
      · rw [readAll_closer hcloser] at h
        rcases Enclosure.eq_of_atCloser h with ⟨start, rfl, rfl, rfl⟩
        -- Only a group of this kind ends here.
        have hconsumed : Consumed (.group found start) input.skipBlanks [] []
            (input.skipBlanks.after [found.closing] rest) :=
          ⟨Sequence.nil _, hcloser, rfl, fun h => by cases h⟩
        exact hconsumed.of_skipBlanks
      · rcases hone : readOne input.skipBlanks with e | ⟨node, middle⟩
        · rw [readAll_fault hat hone] at h
          cases h
        · rw [readAll_cons hat hone] at h
          rcases hmore : readAll enclosure middle with e | ⟨more, last⟩
          · rw [hmore] at h
            cases h
          · rw [hmore] at h
            cases h
            have hlt := length_lt_of_readOne hat hone
            -- First the nodes behind, then this one in front of them.
            rcases ih middle.rest.length (by omega) hmore rfl with ⟨text, hconsumed⟩
            have hgroups : ∀ (bracket : Bracket) (start : Nat) (inner last : Input)
                (children : List Node), inner.rest.length < input.skipBlanks.rest.length →
                readAll (.group bracket start) inner = .ok (children, last) →
                ∃ body, Consumed (.group bracket start) inner body children last :=
              fun _ _ inner _ _ hinner hread => ih inner.rest.length (by omega) hread rfl
            rcases hconsumed.cons hat hgroups hone with ⟨text, hconsumed⟩
            exact hconsumed.of_skipBlanks

/-! ## Derivations elsewhere -/

/-- A leaf is written by the same token whatever is said about its place. -/
theorem Leaf.relocate {span : Span} {token rest : List Char} {node : Node}
    (h : Leaf span token rest node) (f : Span → Span) :
    Leaf (f span) token rest (node.relocate f) := by
  cases h with
  | string hbody => exact Leaf.string hbody
  | symbol htoken hends => exact Leaf.symbol htoken hends
  | number hvalue hends => exact Leaf.number hvalue hends

/-- A text derives the same nodes `n` bytes further on, with other spans, if
    what becomes of a recorded range is how the range further on is recorded.
    The ranges of a derivation lie within its text, so how those beyond it are
    recorded does not matter. -/
theorem Sequence.relocate {locate locate' : Nat → Nat → Span} {start : Nat} {text : List Char}
    {nodes : List Node} (h : Sequence locate start text nodes) {f : Span → Span} {n limit : Nat}
    (hlimit : start + Text.byteLength text ≤ limit)
    (hlocate : ∀ a b, a ≤ b → b ≤ limit → f (locate a b) = locate' (a + n) (b + n)) :
    Sequence locate' (start + n) text (Node.relocateAll f nodes) := by
  induction h with
  | nil start => exact Sequence.nil _
  | blank hblank _ ih =>
      rw [Text.byteLength] at hlimit
      have hrest := ih (by omega)
      rw [Nat.add_right_comm] at hrest
      exact Sequence.blank hblank hrest
  | leaf hleaf _ ih =>
      rw [Text.byteLength_append] at hlimit
      have hmoved := hleaf.relocate f
      have hrest := ih (by omega)
      rw [hlocate _ _ (Nat.le_add_right _ _) (by omega), Nat.add_right_comm] at hmoved
      rw [Nat.add_right_comm] at hrest
      exact Sequence.leaf hmoved hrest
  | group bracket _ _ ihbody ihrest =>
      rw [byteLength_group] at hlimit
      have hbody := ihbody (by omega)
      have hrest := ihrest (by omega)
      rw [Nat.add_right_comm] at hbody hrest
      -- The range of the group moves as the sequences in it and behind it do.
      rw [Node.relocateAll, Node.relocate, hlocate _ _ (Nat.le_add_right _ _) (by omega),
        Nat.add_right_comm _ _ n]
      exact Sequence.group bracket hbody hrest

/-- A text derives the same nodes with the same spans where its ranges are
    recorded in the same way. Nothing moves here, and no span changes. -/
theorem Sequence.congr {locate locate' : Nat → Nat → Span} {start : Nat} {text : List Char}
    {nodes : List Node} (h : Sequence locate start text nodes) {limit : Nat}
    (hlimit : start + Text.byteLength text ≤ limit)
    (hlocate : ∀ a b, a ≤ limit → b ≤ limit → locate a b = locate' a b) :
    Sequence locate' start text nodes := by
  have hid : ∀ a b, a ≤ b → b ≤ limit → id (locate a b) = locate' (a + 0) (b + 0) :=
    fun a b hab hb => hlocate a b (Nat.le_trans hab hb) hb
  have hsame := h.relocate hlimit hid
  rwa [Node.relocateAll_id] at hsame

/-- Where the text stays within the limit, spans are recorded as they are. -/
theorem Sequence.ofRange_iff {start : Nat} {text : List Char} {nodes : List Node}
    (hlimit : start + Text.byteLength text ≤ Span.limit) :
    Sequence Span.ofRange start text nodes ↔ Sequence Span.mk start text nodes :=
  ⟨fun h => h.congr hlimit fun _ _ ha hb => Span.ofRange_of_le ha hb,
    fun h => h.congr hlimit fun _ _ ha hb => (Span.ofRange_of_le ha hb).symm⟩

/-! ## Texts -/

/-- Reading a text is deriving it, with spans as they are recorded. There is no
    limit on the text, since the grammar is given the same way of recording
    them. -/
theorem parse_eq_ok_iff_ofRange {source : String} {nodes : List Node} :
    parse source = .ok nodes ↔ Sequence Span.ofRange 0 source.toList nodes := by
  rw [parse_eq_readAll]
  constructor
  · intro h
    rcases hread : readAll .text (Input.ofString source) with e | ⟨more, beyond⟩
    · rw [hread] at h
      cases h
    · rw [hread] at h
      cases h
      rcases consumed_of_readAll hread with ⟨text, hconsumed⟩
      -- The whole text was consumed, since only its end ends it.
      have hrest := hconsumed.rest
      rw [hconsumed.complete rfl, Enclosure.ending, List.append_nil, List.append_nil] at hrest
      rw [show source.toList = text from hrest]
      exact hconsumed.derived
  · intro h
    have hread := h.readAll .text tokenEnds_nil
    rw [List.append_nil] at hread
    rw [show Input.ofString source = ⟨source.toList, 0⟩ from rfl, hread, readAll_end rfl]
    simp only [Enclosure.atEnd, Except.map, List.append_nil]

/-- Reading a text within the limit derives it, every node with the exact
    range it was written in. The grammar says nothing about how a text is read,
    and holds of one list of nodes at most since the reader gives only one; a
    text that does not read has no derivation at all. -/
theorem parse_eq_ok_iff_sequence {source : String} {nodes : List Node}
    (hlimit : Text.byteLength source.toList ≤ Span.limit) :
    parse source = .ok nodes ↔ Sequence Span.mk 0 source.toList nodes := by
  rw [parse_eq_ok_iff_ofRange, Sequence.ofRange_iff (by rwa [Nat.zero_add])]

/-- A call with a vector and a string in it, derived by reading it. The quote in
    the string has a backslash in front, which its span counts and its value
    does not. -/
theorem sequence_call : Sequence Span.mk 0 "(f [-1] '\\'')".toList
    [.group .round [.symbol "f" ⟨1, 2⟩, .group .square [.number (.int (-1)) ⟨4, 6⟩] ⟨3, 7⟩,
      .string "'" ⟨8, 12⟩] ⟨0, 13⟩] :=
  (parse_eq_ok_iff_sequence (by decide)).mp (by rfl)

end Parse

end AttrExpr
