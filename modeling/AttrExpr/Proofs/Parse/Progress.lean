import AttrExpr.Proofs.Node.Tiling
import AttrExpr.Proofs.Parse.Cursor

/-!
# The Cursor Moves On

Why a walk through a text comes to an end.

A node is walked only where one begins: at a byte that is neither a blank nor a
closing bracket. From there the cursor either finds a fault or ends up behind
the node, which is further on and between two characters. That is all a loop
needs. Every round of it takes a byte at least, or else it is the last, and the
next round begins at a character boundary again. A closing bracket that nothing
opened is no exception, since it ends every loop, as a fault if need be.

The nesting of loops is bounded too, by a depth that is counted down. Every
group takes its opening bracket, so a depth beyond the number of bytes left is
never used up.

That walking and reading come to the same is proved along with it, and the
statement about progress is then one about the reader.

## Main definitions

* `walkNodes`, `walkGroup`: The loop through what an enclosure holds, and the
  same to some depth.
* `walk`: A whole text.
* `Node.isToken`: The nodes that have no delimiters of their own.

## Theorems

* `exists_taken_of_readOne`: What reading a node takes, and where it ends.
* `walkNodes_eq`: One round for each byte, and one more, are enough.
* `walkGroup_eq`: A depth beyond the number of bytes is enough.
* `walk_progress`: The cursor moves on, and never gets stuck.
-/

namespace AttrExpr

open Text

/-- The nodes that end where a delimiter is, and not with one of their own.
    Strings and groups may have anything behind them. -/
def Node.isToken : Node → Bool
  | number _ _ => true
  | symbol _ _ => true
  | _ => false

namespace Parse

namespace Enclosure

/-- What it means that the cursor meets the end of the text here. The reader's
    `atEnd` says the same with the rest of the text in the place of `pos`. -/
def endAt (enclosure : Enclosure) (nodes : List Node) (pos : Nat) :
    Except ParseError (List Node × Nat) :=
  match enclosure with
  | text => .ok (nodes, pos)
  | group bracket start => .error ⟨.unterminatedGroup bracket.opening, Span.ofRange start pos⟩

/-- What it means that the cursor meets a closing bracket here; `beyond` is the
    place behind it. -/
def closeAt (enclosure : Enclosure) (nodes : List Node) (found : Bracket) (pos beyond : Nat) :
    Except ParseError (List Node × Nat) :=
  match enclosure with
  | text => .error ⟨.unexpectedCloser found.closing, Span.ofRange pos beyond⟩
  | group bracket _ =>
      if found = bracket then .ok (nodes, beyond)
      else
        .error ⟨.mismatchedCloser bracket.closing found.closing, Span.ofRange pos beyond⟩

end Enclosure

namespace Cursor

section

variable (source : String)

/-- The loop through the nodes of an enclosure. `read` holds the nodes before,
    the last one first. A round skips blanks and then ends the loop or walks
    one node. -/
def walkNodes (walkGroup : Enclosure → Nat → Walked (List Node)) (enclosure : Enclosure) :
    (rounds : Nat) → (read : List Node) → (pos : Nat) → Walked (List Node)
  | 0, _, _ => none
  | left + 1, read, pos =>
      (skipWhile source isBlank (rounds source pos) pos).bind fun pos =>
        match peek? source pos with
        | none => some (enclosure.endAt read.reverse pos)
        | some c =>
            match Bracket.ofClosing? c with
            | some found => some (enclosure.closeAt read.reverse found pos (bump source pos))
            | none =>
                (walkNode source walkGroup pos).bind fun
                  | .error e => some (.error e)
                  | .ok (node, beyond) => walkNodes walkGroup enclosure left (node :: read) beyond

/-- The nodes of an enclosure from `pos` on, with groups nested less than `depth`
    deep in each other. The loop and the descent are counted separately: the
    loop is structural in its rounds, and only this function in the depth. -/
def walkGroup : (depth : Nat) → Enclosure → (pos : Nat) → Walked (List Node)
  | 0, _, _ => none
  | depth + 1, enclosure, pos =>
      walkNodes source (walkGroup depth) enclosure (rounds source pos) [] pos

/-- Walks a whole text, to a depth that no text of its length can use up. -/
def walk : Walked (List Node) := walkGroup source (rounds source 0) .text 0

end

end Cursor

open Cursor

/-- The cursor has passed a node that begins at `pos`, and is behind it at
    `beyond`. The span of the node is that range, as far as spans go: within
    the limit it is the range itself. -/
structure Passed (source : String) (pos : Nat) (node : Node) (beyond : Nat) : Prop where
  span : node.span = Span.ofRange pos beyond
  range : beyond ≤ Span.limit → node.span = ⟨pos, beyond⟩
  further : pos < beyond
  inside : beyond ≤ byteLength source.toList
  boundary : (String.Pos.Raw.mk beyond).IsValid source
  ended : node.isToken = true → endsToken (peek? source beyond) = true

/-! ## What reading a node takes -/

/-- A leaf is a string, or it ends where a token does. -/
theorem Leaf.tokenEnds {span : Span} {token rest : List Char} {node : Node}
    (h : Leaf span token rest node) (htoken : node.isToken = true) : TokenEnds rest := by
  cases h with
  | string => cases htoken
  | symbol _ hends => exact hends
  | number _ hends => exact hends

/-- Reading a node takes something, and the span of the node says what. A token
    is taken to its end. -/
theorem exists_taken_of_readOne {input beyond : Input} {node : Node} (hnode : input.AtNode)
    (h : readOne input = .ok (node, beyond)) :
    ∃ taken, 0 < byteLength taken ∧ input.rest = taken ++ beyond.rest ∧
      beyond = input.after taken beyond.rest ∧
      node.span = Span.ofRange input.offset beyond.offset ∧
      (node.isToken = true → TokenEnds beyond.rest) := by
  obtain ⟨rest, offset⟩ := beyond
  by_cases hopening : ∃ (bracket : Bracket) (rest : List Char), input.rest = bracket.opening :: rest
  · -- A group takes its opening bracket, what it holds, and the bracket that closes it.
    rcases hopening with ⟨bracket, inner, hrest⟩
    rcases group_of_readOne hrest h with ⟨children, rfl, hread⟩
    rcases consumed_of_readAll hread with ⟨text, hconsumed⟩
    have hoffset := hconsumed.offset
    have hinner := hconsumed.rest
    simp only at hoffset hinner
    refine ⟨bracket.opening :: (text ++ Enclosure.ending (.group bracket input.offset)),
      byteLength_pos _ _, ?_, ?_, rfl, nofun⟩
    · rw [hrest, hinner, List.cons_append, List.append_assoc]
    · rw [Input.after, ← List.singleton_append, byteLength_append, byteLength_opening, hoffset,
        Nat.add_assoc]
  · -- A leaf takes its token.
    have hleafs : ∀ (bracket : Bracket) rest, input.rest ≠ bracket.opening :: rest :=
      fun bracket rest hrest => hopening ⟨bracket, rest, hrest⟩
    rcases leaf_of_readOne hnode hleafs h with ⟨token, hrest, hoffset, hleaf⟩
    have hbeyond : Input.mk rest offset = input.after token rest := by
      rw [Input.after, ← hoffset]
    exact ⟨token, hleaf.byteLength_pos, hrest, hbeyond, hleaf.span_eq, hleaf.tokenEnds⟩

/-! ## Loops -/

section

variable {source : String} {enclosure : Enclosure} {input : Input}

/-- Blanks are characters like any others, so behind them the cursor is at the
    front of an input again. -/
theorem Input.At.skipBlanks (hat : input.At source) : input.skipBlanks.At source :=
  hat.after _ List.takeWhile_append_dropWhile.symm

theorem isBlank_of_le {c : Char} (h : 128 ≤ c.toNat) : isBlank c = false :=
  (isDelimiter_eq_false_iff.mp (isDelimiter_of_le h)).1

theorem ofClosing?_of_le {c : Char} (h : 128 ≤ c.toNat) : Bracket.ofClosing? c = none :=
  (isDelimiter_eq_false_iff.mp (isDelimiter_of_le h)).2.2

/-- The cursor skips the blanks that the reader skips. -/
theorem skipWhile_isBlank (hat : input.At source) :
    skipWhile source isBlank (rounds source input.offset) input.offset =
      some input.skipBlanks.offset :=
  skipWhile_eq (fun _ => isBlank_of_le) hat _ hat.lt_rounds

theorem byteLength_skipBlanks_le (input : Input) :
    byteLength input.skipBlanks.rest ≤ byteLength input.rest := by
  have hlength := congrArg byteLength
    (List.takeWhile_append_dropWhile (p := isBlank) (l := input.rest))
  rw [byteLength_append] at hlength
  exact Nat.le_of_add_left_le (Nat.le_of_eq hlength)

/-- The end of the text means the same to both. The reader puts the nodes before
    in front afterwards, and the loop has them already. -/
theorem walked_atEnd (read : List Node) (input : Input) :
    walked ((enclosure.atEnd [] input).map fun (nodes, beyond) => (read ++ nodes, beyond)) =
      some (enclosure.endAt read input.offset) := by
  cases enclosure with
  | text => simp only [Enclosure.atEnd, Enclosure.endAt, walked, Except.map, List.append_nil]
  | group bracket start => rfl

/-- A closing bracket means the same to both, whichever of the three it is:
    one that closes the group, one of the wrong kind, or one too many. -/
theorem walked_atCloser (read : List Node) (found : Bracket) (input : Input) (rest : List Char) :
    walked ((enclosure.atCloser [] found input rest).map
        fun (nodes, beyond) => (read ++ nodes, beyond)) =
      some (enclosure.closeAt read found input.offset (input.offset + 1)) := by
  cases enclosure with
  | text =>
      cases found with
      | round => rfl
      | square => rfl
  | group bracket start =>
      -- Inside a group the kind of the bracket decides, and no place does.
      by_cases hfound : found = bracket
      · simp only [Enclosure.atCloser, Enclosure.closeAt, if_pos hfound, walked, Except.map,
          List.append_nil, Input.after, byteLength_closing]
      · simp only [Enclosure.atCloser, Enclosure.closeAt, if_neg hfound, walked, Except.map,
          Input.after, byteLength_closing]

/-- A node that is read ends further on, where the cursor can go on. These are
    the invariant and the measure of the loop, from one reading to the next. -/
theorem Input.At.beyond {beyond : Input} {node : Node} (hat : input.At source)
    (hnode : input.AtNode) (h : readOne input = .ok (node, beyond)) :
    beyond.At source ∧ byteLength beyond.rest < byteLength input.rest := by
  rcases exists_taken_of_readOne hnode h with ⟨taken, hpos, hrest, hbeyond, _, _⟩
  have hlength := congrArg byteLength hrest
  rw [byteLength_append] at hlength
  constructor
  · rw [hbeyond]
    exact hat.after taken hrest
  · omega

section

variable {walkGroup : Enclosure → Nat → Walked (List Node)} {bound : Nat}

/-- A node is walked as it is read if groups of less than `bound` bytes are.
    The bound is what the induction on the depth supplies, and it is stated of
    bytes because what a group holds has fewer of them than the group. -/
theorem walkNode_eq_readOne
    (hgroup : ∀ enclosure (inner : Input), inner.At source → byteLength inner.rest < bound →
      walkGroup enclosure inner.offset = walked (readAll enclosure inner))
    (hat : input.At source) (hnode : input.AtNode) (hbound : byteLength input.rest ≤ bound) :
    walkNode source walkGroup input.offset = walked (readOne input) := by
  -- What the group holds is shorter by its opening bracket.
  refine walkNode_eq hat hnode fun bracket rest hrest => ?_
  have hopening := utf8Size_opening bracket
  have hinner := hat.next hrest
  rw [hrest, byteLength, hopening] at hbound
  rw [hopening] at hinner
  exact hgroup _ ⟨rest, input.offset + 1⟩ hinner (by simp only; omega)

/-- Every round takes a byte, so one for each of them and one more are enough.
    The induction is on the rounds that are left, with the nodes read before
    generalised, since every round adds one. -/
theorem walkNodes_eq
    (hgroup : ∀ enclosure (inner : Input), inner.At source → byteLength inner.rest < bound →
      walkGroup enclosure inner.offset = walked (readAll enclosure inner))
    (hat : input.At source) (hbound : byteLength input.rest ≤ bound) {left : Nat}
    (hleft : byteLength input.rest < left) (read : List Node) :
    walkNodes source walkGroup enclosure left read input.offset =
      walked ((readAll enclosure input).map
        fun (nodes, beyond) => (read.reverse ++ nodes, beyond)) := by
  induction left generalizing input read with
  | zero => cases hleft
  | succ left ih =>
      have hskipped := hat.skipBlanks
      have hle := byteLength_skipBlanks_le input
      rw [walkNodes, skipWhile_isBlank hat, Option.bind_some]
      rcases input.skipBlanks_cases with hend | ⟨found, rest, hcloser⟩ | hnode
      · -- At the end of the text and at a closing bracket this round is the last.
        rw [readAll_end hend, walked_atEnd, hskipped.peek?_end hend]
      · rw [readAll_closer hcloser, walked_atCloser,
          hskipped.peek?_ascii hcloser (toNat_closing_lt found), hskipped.bump_eq hcloser]
        simp only [Bracket.ofClosing?_closing]
      · -- A node begins here, which its first byte shows to the cursor as well.
        have hwalk := walkNode_eq_readOne hgroup hskipped hnode (hle.trans hbound)
        obtain ⟨d, hpeek, hclosing⟩ : ∃ d, peek? source input.skipBlanks.offset = some d ∧
            Bracket.ofClosing? d = none := by
          rcases hnode with ⟨c, rest, hrest, _, hnone⟩
          rcases hskipped.exists_peek?_front hrest with ⟨d, hpeek, hpart⟩
          exact ⟨d, hpeek, (hpart.test_eq fun _ => ofClosing?_of_le).trans hnone⟩
        rw [hpeek]
        simp only [hclosing, hwalk]
        rcases hone : readOne input.skipBlanks with e | ⟨node, beyond⟩
        · rw [readAll_fault hnode hone]
          rfl
        · -- The round took a byte at least, and the next one begins behind the node.
          rcases hskipped.beyond hnode hone with ⟨hbeyond, hless⟩
          rw [readAll_cons hnode hone]
          simp only [walked, Except.map, Option.bind_some]
          rw [ih hbeyond (by omega) (by omega)]
          cases readAll enclosure beyond with
          | error e => rfl
          | ok result =>
              simp only [walked, Except.map, List.reverse_cons, List.append_assoc,
                List.singleton_append]

end

/-- Every group takes its opening bracket, so the depth is not used up. The
    induction is on the depth, and the loop inside of it is done with. -/
theorem walkGroup_eq (hat : input.At source) {depth : Nat}
    (hdepth : byteLength input.rest < depth) :
    walkGroup source depth enclosure input.offset = walked (readAll enclosure input) := by
  induction depth generalizing enclosure input with
  | zero => cases hdepth
  | succ depth ih =>
      rw [walkGroup, walkNodes_eq (fun _ _ hinner hlt => ih hinner hlt) hat
        (Nat.lt_succ_iff.mp hdepth) hat.lt_rounds]
      cases readAll enclosure input with
      | error error => rfl
      | ok result => rfl

end

/-! ## Whole texts -/

section

variable {source : String}

/-- Every boundary is the front of an input, so the walk may begin at any of
    them and not only where a walk from the start of the text comes by. -/
theorem exists_input {pos : Nat} (h : (String.Pos.Raw.mk pos).IsValid source) :
    ∃ input : Input, input.At source ∧ input.offset = pos := by
  rcases exists_front h with ⟨front, back, hsource, rfl⟩
  exact ⟨⟨back, byteLength front⟩, ⟨front, hsource, rfl⟩, rfl⟩

/-- Whether a node begins can be told from a byte: a part of a longer character
    is no blank and no bracket, and neither is the character. -/
theorem Input.At.atNode {input : Input} {d : Char} (hat : input.At source)
    (hpeek : peek? source input.offset = some d) (hblank : isBlank d = false)
    (hclosing : Bracket.ofClosing? d = none) : input.AtNode := by
  cases hrest : input.rest with
  | nil =>
      rw [hat.peek?_end hrest] at hpeek
      cases hpeek
  | cons c rest =>
      rcases hat.exists_peek?_front hrest with ⟨e, hseen, hpart⟩
      cases hpeek.symm.trans hseen
      exact ⟨c, rest, hrest, (hpart.test_eq fun _ => isBlank_of_le).symm.trans hblank,
        (hpart.test_eq fun _ => ofClosing?_of_le).symm.trans hclosing⟩

/-- A node that was read was passed. What the reader says about the text it took
    becomes what the cursor knows about places. -/
theorem Input.At.passed {input beyond : Input} {node : Node} (hat : input.At source)
    (hnode : input.AtNode) (h : readOne input = .ok (node, beyond)) :
    Passed source input.offset node beyond.offset := by
  rcases hat.beyond hnode h with ⟨hbeyond, _⟩
  rcases exists_taken_of_readOne hnode h with ⟨taken, hpos, _, htaken, hspan, hends⟩
  -- Offsets are lengths of what was taken, and what is left is in the text.
  have hoffset := congrArg Input.offset htaken
  have hsize := hbeyond.offset_add
  simp only [Input.after] at hoffset
  exact {
    span := hspan
    range := fun hlimit => hspan.trans (Span.ofRange_of_le (by omega) hlimit)
    further := by omega
    inside := by omega
    boundary := hbeyond.isValid
    ended := fun htoken => (endsToken_peek?_iff hbeyond).mpr (hends htoken) }

end

/-- Walking a text is reading it, so the rounds and the depth of the walk are
    enough for every text. -/
theorem walk_eq_parse (source : String) :
    (walk source).map (Except.map Prod.fst) = some (parse source) := by
  have hwalk : walk source = walked (readAll .text (Input.ofString source)) :=
    walkGroup_eq (Input.At.ofString source) (Input.At.ofString source).lt_rounds
  rw [hwalk, parse_eq_readAll]
  cases readAll .text (Input.ofString source) with
  | error error => rfl
  | ok result => rfl

/-- Where a node begins the cursor finds a fault or passes a node. So a loop
    that begins at a character boundary ends within a round for each byte left
    and one more, whatever it goes through, and the cursor never looks for a
    text or a character that is not there. -/
theorem walk_progress (source : String) :
    (∀ pos d, (String.Pos.Raw.mk pos).IsValid source → peek? source pos = some d →
      isBlank d = false → Bracket.ofClosing? d = none →
      ∀ depth, byteLength source.toList - pos ≤ depth →
        (∃ e, walkNode source (walkGroup source depth) pos = some (.error e)) ∨
        ∃ node beyond, walkNode source (walkGroup source depth) pos = some (.ok (node, beyond)) ∧
          Passed source pos node beyond) ∧
    (∀ pos, (String.Pos.Raw.mk pos).IsValid source →
      ∀ enclosure depth, byteLength source.toList - pos ≤ depth →
        ∃ result, walkNodes source (walkGroup source depth) enclosure (rounds source pos) [] pos =
          some result) ∧
    (walk source).map (Except.map Prod.fst) = some (parse source) := by
  refine ⟨?_, ?_, walk_eq_parse source⟩
  · -- One node: what reading it comes to is what walking it comes to.
    intro pos d hvalid hpeek hblank hclosing depth hdepth
    rcases exists_input hvalid with ⟨input, hat, rfl⟩
    have hnode := hat.atNode hpeek hblank hclosing
    have hbound : byteLength input.rest ≤ depth := by rwa [hat.rest_eq]
    rw [walkNode_eq_readOne (fun _ _ hinner => walkGroup_eq hinner) hat hnode hbound]
    rcases hone : readOne input with e | ⟨node, beyond⟩
    · exact Or.inl ⟨e, rfl⟩
    · exact Or.inr ⟨node, beyond.offset, rfl, hat.passed hnode hone⟩
  · -- One loop: reading always has a result, so walking has one.
    intro pos hvalid enclosure depth hdepth
    rcases exists_input hvalid with ⟨input, hat, rfl⟩
    have hbound : byteLength input.rest ≤ depth := by rwa [hat.rest_eq]
    exact ⟨_, walkNodes_eq (fun _ _ hinner => walkGroup_eq hinner) hat hbound hat.lt_rounds []⟩

/-- The first byte of a long character begins a symbol. -/
theorem walk_progress_wide :
    (String.Pos.Raw.mk 1).IsValid "(é 1)" ∧ peek? "(é 1)" 1 = some 'Ã' ∧ isBlank 'Ã' = false ∧
    Bracket.ofClosing? 'Ã' = none ∧ byteLength "(é 1)".toList - 1 ≤ 5 ∧
    ((∃ e, walkNode "(é 1)" (walkGroup "(é 1)" 5) 1 = some (.error e)) ∨
      ∃ node beyond, walkNode "(é 1)" (walkGroup "(é 1)" 5) 1 = some (.ok (node, beyond)) ∧
        Passed "(é 1)" 1 node beyond) ∧
    ∃ result, walkNodes "(é 1)" (walkGroup "(é 1)" 5) (.group .round 0) (rounds "(é 1)" 1) [] 1 =
      some result := by
  have hfront : "(é 1)".toList = ['('] ++ "é 1)".toList := rfl
  have hvalid : (String.Pos.Raw.mk 1).IsValid "(é 1)" := isValid_front hfront
  have hpeek : peek? "(é 1)" 1 = some 'Ã' := by rfl
  have hdepth : byteLength "(é 1)".toList - 1 ≤ 5 := by decide
  rcases walk_progress "(é 1)" with ⟨hnode, hloop, _⟩
  exact ⟨hvalid, hpeek, rfl, rfl, hdepth, hnode 1 'Ã' hvalid hpeek rfl rfl 5 hdepth,
    hloop 1 hvalid (.group .round 0) 5 hdepth⟩

/-- A bracket that closes nothing ends the loop. -/
example : walk "x ) y" = some (.error ⟨.unexpectedCloser ')', ⟨2, 3⟩⟩) := by rfl

end Parse

end AttrExpr
