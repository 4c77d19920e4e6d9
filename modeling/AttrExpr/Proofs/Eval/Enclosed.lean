import AttrExpr.Eval.Source
import AttrExpr.Proofs.Eval.Relocation
import AttrExpr.Proofs.Parse.Shift

/-!
# Texts in Brackets

A text is the inside of a group.

Nodes are read until what surrounds them ends, and the end of the text and a
closing bracket are just two such ends. So a text between brackets of one kind
reads as one group that holds the nodes of the text, one byte further on, and
it reads as one node in no other case. A text with closers of its own may read
between brackets, as in `[` `1] [2` `]`, but then not as one node: the first of
its closers ends the group, and the bracket that was put at its end closes
something else.

Evaluating goes the same way. The values of a text are the items of the list
that the text between square brackets comes to, and if there is none it is for
the same reason, one byte further on.

## Main definitions

* `Bracket.enclose`: A text between brackets.

## Theorems

* `Sequence.of_enclosed`: A text between brackets writes one node only as a
  group.
* `parse_enclosed_iff`: When a text between brackets reads as one node.
* `evaluateSource_enclosed`: How a text between brackets reads and what it comes
  to.
-/

namespace AttrExpr

/-- The text between two brackets of one kind, with nothing put between them and
    it. -/
def Bracket.enclose (bracket : Bracket) (source : String) : String :=
  String.ofList (bracket.opening :: (source.toList ++ [bracket.closing]))

namespace Parse

open Node

theorem byteLength_enclose (bracket : Bracket) (source : String) :
    Text.byteLength (bracket.enclose source).toList = Text.byteLength source.toList + 2 := by
  rw [Bracket.enclose, String.toList_ofList, byteLength_group]
  rfl

/-! ## Derivations -/

/-- What is inside of tokens begins with no bracket. -/
theorem ne_opening_of_inside {token : List Char} (hne : token ≠ [])
    (hinside : ∀ c ∈ token, isDelimiter c = false) (bracket : Bracket) (rest text : List Char) :
    token ++ rest ≠ bracket.opening :: text := by
  cases token with
  | nil => exact absurd rfl hne
  | cons c token =>
      rintro ⟨⟩
      have hopening := hinside bracket.opening List.mem_cons_self
      rw [isDelimiter_opening] at hopening
      cases hopening

/-- No leaf begins with an opening bracket, whatever it is followed by. So a
    text that begins with one is a group's. -/
theorem Leaf.ne_opening {span : Span} {token rest : List Char} {node : Node}
    (h : Leaf span token rest node) (bracket : Bracket) (text : List Char) :
    token ++ rest ≠ bracket.opening :: text := by
  cases h with
  | string hbody =>
      intro htext
      have hquote : '\'' = bracket.opening := (List.cons.inj htext).1
      have hopening : isDelimiter '\'' = true := by rw [hquote, isDelimiter_opening]
      exact absurd hopening (by decide)
  | symbol htoken hends => exact ne_opening_of_inside htoken.nonempty htoken.inside bracket _ _
  | number hvalue hends =>
      exact ne_opening_of_inside (ne_nil_of_startsNumber hvalue.startsNumber) hvalue.inside
        bracket _ _

theorem opening_injective {bracket other : Bracket} (h : bracket.opening = other.opening) :
    bracket = other := by
  rw [← Option.some.injEq, ← Bracket.ofOpening?_opening, h, Bracket.ofOpening?_opening]

section

variable {locate : Nat → Nat → Span} {start : Nat} {text : List Char}

/-- What writes no nodes is blank. It is used of what follows a group that is
    the only node of its text. -/
theorem Sequence.isBlank_of_nil (h : Sequence locate start text []) :
    ∀ c ∈ text, isBlank c = true := by
  generalize hnodes : ([] : List Node) = nodes at h
  induction h with
  | nil start => exact fun _ hc => absurd hc List.not_mem_nil
  | blank hblank _ ih => exact List.forall_mem_cons.mpr ⟨hblank, ih hnodes⟩
  | leaf hleaf hrest _ => cases hnodes
  | group bracket hbody hrest _ _ => cases hnodes

/-- A text between brackets that writes one node writes a group, and the text
    writes what the group holds. That the bracket at the end closes this group
    and no other is where it is needed that there is one node only. -/
theorem Sequence.of_enclosed {bracket : Bracket} {node : Node}
    (h : Sequence locate start (bracket.opening :: (text ++ [bracket.closing])) [node]) :
    ∃ children, Sequence locate (start + 1) text children ∧
      node = .group bracket children (locate start (start + (Text.byteLength text + 2))) := by
  generalize hwhole : bracket.opening :: (text ++ [bracket.closing]) = whole at h
  cases h with
  | blank hblank htext =>
      cases hwhole
      rw [isBlank_opening] at hblank
      cases hblank
  | leaf hleaf hrest => exact absurd hwhole.symm (hleaf.ne_opening bracket _)
  | @group _ other body rest children _ hbody hrest =>
      rw [List.cons.injEq] at hwhole
      rcases hwhole with ⟨hopening, htext⟩
      cases opening_injective hopening
      -- Nothing follows the group, since the text ends with a bracket and not with a blank.
      rcases List.eq_nil_or_concat rest with rfl | ⟨before, last, rfl⟩
      · have hsame : text = body := List.append_cancel_right htext
        subst hsame
        exact ⟨children, hbody, rfl⟩
      · rw [List.concat_eq_append, ← List.cons_append, ← List.append_assoc] at htext
        have hlast := (List.append_inj' htext rfl).2
        cases hlast
        have hmem : bracket.closing ∈ before.concat bracket.closing := by
          rw [List.concat_eq_append]
          exact List.mem_append_right _ (List.mem_singleton_self _)
        have hblank := hrest.isBlank_of_nil bracket.closing hmem
        rw [isBlank_closing] at hblank
        cases hblank

end

/-! ## Texts -/

/-- A text between brackets reads as one node exactly if the text reads. The
    node is a group of its nodes, one byte further on, and covers everything. -/
theorem parse_enclosed_iff (bracket : Bracket) {source : String}
    (hlimit : Text.byteLength source.toList + 2 ≤ Span.limit) (node : Node) :
    parse (bracket.enclose source) = .ok [node] ↔ ∃ nodes, parse source = .ok nodes ∧
      node = .group bracket (shiftAll 1 nodes) ⟨0, Text.byteLength source.toList + 2⟩ := by
  rw [parse_eq_ok_iff_sequence (by rwa [byteLength_enclose]), Bracket.enclose,
    String.toList_ofList]
  constructor
  · intro h
    rcases h.of_enclosed with ⟨children, hchildren, rfl⟩
    -- The children are what the text reads as behind the opening bracket.
    have hread := ((Sequence.ofRange_iff (by omega)).mpr hchildren).readAll_text
    rw [Nat.zero_add, readAll_elsewhere source (by omega)] at hread
    rcases hparse : parse source with e | nodes
    · rw [hparse] at hread
      cases hread
    · rw [hparse] at hread
      cases hread
      refine ⟨nodes, rfl, ?_⟩
      rw [Nat.zero_add, shiftAll]
  · -- The text writes its nodes behind the bracket as well.
    rintro ⟨nodes, hparse, rfl⟩
    have hmoved := ((parse_eq_ok_iff_sequence (by omega)).mp hparse).shift 1
    have hgroup := Sequence.group bracket hmoved (Sequence.nil _)
    rwa [Nat.zero_add] at hgroup

end Parse

/-- Between square brackets trees come to the list of their values, or fail as
    they did where the culprit is now. Where the vector itself stands makes no
    difference, since it is never at fault. -/
theorem evaluate_enclosed {context : Context} (hraises : context.RaisesUnlocated)
    (f : Span → Span) (nodes : List Node) (span : Span) :
    (evaluate context [.group .square (Node.relocateAll f nodes) span]).result =
      ((evaluate context nodes).result.mapError (EvalError.relocate f)).map
        fun values => [.list values] := by
  rw [evaluate_cons, evaluate_nil, Node.result_vector, Node.results_relocateAll hraises]
  cases (evaluate context nodes).result with
  | error error => rfl
  | ok values => rfl

/-- A text between brackets reads as one node exactly if the text reads, and
    that node is a group of the nodes of the text which covers everything.
    Between square brackets it then comes to the list of the values of the
    text, or fails as the text does. All places are one byte further on. -/
theorem evaluateSource_enclosed {source : String}
    (hlimit : Text.byteLength source.toList + 2 ≤ Span.limit) :
    (∀ bracket node, parse (Bracket.enclose bracket source) = .ok [node] ↔
      ∃ nodes, parse source = .ok nodes ∧
        node = .group bracket (Node.shiftAll 1 nodes)
          ⟨0, Text.byteLength source.toList + 2⟩) ∧
    ∀ context : Context, context.RaisesUnlocated → ∀ nodes, parse source = .ok nodes →
      match (evaluate context nodes).result with
      | .ok values => evaluateSource context (Bracket.square.enclose source) = .ok [.list values]
      | .error error => evaluateSource context (Bracket.square.enclose source) =
          .error (.eval (error.relocate (Span.shift 1))) := by
  constructor
  · exact fun bracket node => Parse.parse_enclosed_iff bracket hlimit node
  · intro context hraises nodes hparse
    have henclosed := (Parse.parse_enclosed_iff .square hlimit _).mpr ⟨nodes, hparse, rfl⟩
    simp only [evaluateSource, henclosed]
    rw [Node.shiftAll, evaluate_enclosed hraises]
    cases (evaluate context nodes).result with
    | error error => rfl
    | ok values => rfl

/-- A vector of two values, and a call that fails behind a character of more than
    one byte. A text with closers of its own may read between brackets, but not
    as one node. -/
theorem evaluateSource_enclosed_count :
    let context : Context := ⟨.none, .standard 0, .default⟩
    let call : Node := .group .round [.symbol "not" ⟨6, 9⟩] ⟨5, 10⟩
    let fault := EvalFault.arityMismatch "not" 1 0
    Text.byteLength "'é' (not)".toList + 2 ≤ Span.limit ∧
    Text.byteLength "1] [2".toList + 2 ≤ Span.limit ∧ context.RaisesUnlocated ∧
    parse "'é' (not)" = .ok [.string "é" ⟨0, 4⟩, call] ∧
    (evaluate context [.string "é" ⟨0, 4⟩, call]).result = .error ⟨fault, some ⟨5, 10⟩⟩ ∧
    evaluateSource context "['é' (not)]" = .error (.eval ⟨fault, some ⟨6, 11⟩⟩) ∧
    ∀ node, parse "[1] [2]" ≠ .ok [node] := by
  intro context call fault
  have hraises : context.RaisesUnlocated :=
    Context.raisesUnlocated_of_host fun _ _ _ h => by cases h
  have hlimit : Text.byteLength "'é' (not)".toList + 2 ≤ Span.limit := by decide
  have hlimit' : Text.byteLength "1] [2".toList + 2 ≤ Span.limit := by decide
  have hparse : parse "'é' (not)" = .ok [.string "é" ⟨0, 4⟩, call] := by rfl
  have hfails : (evaluate context [.string "é" ⟨0, 4⟩, call]).result =
      .error ⟨fault, some ⟨5, 10⟩⟩ := by rfl
  have hwhole := (evaluateSource_enclosed hlimit).2 context hraises _ hparse
  rw [hfails] at hwhole
  refine ⟨hlimit, hlimit', hraises, hparse, hfails, hwhole, fun node hnode => ?_⟩
  rcases ((evaluateSource_enclosed hlimit').1 .square node).mp hnode with ⟨nodes, hread, _⟩
  have hstray : parse "1] [2" = .error ⟨.unexpectedCloser ']', ⟨1, 2⟩⟩ := by rfl
  rw [hstray] at hread
  cases hread

end AttrExpr
