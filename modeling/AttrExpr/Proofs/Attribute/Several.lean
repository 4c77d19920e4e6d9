import AttrExpr.Attribute.Evaluate
import AttrExpr.Proofs.Eval.Relocation
import AttrExpr.Proofs.Parse.Shift

/-!
# Attributes of Several Expressions

Which failure an attribute has that holds more than it needs.

Only the first value of an attribute is used, but all of its text is read and
all of it is evaluated, so whatever stands behind the first expression can
still make the attribute fail. The stages decide which failure that is. A
namespace that is not there comes before everything, as nothing is read until
it is found. Then comes reading: a fault of the text behind hides every failure
to evaluate what is in front of it. Only then the order of the text counts.

What is in front only moves the failures of what is behind, by the bytes that
are in front. That holds without a bound on the text if places are moved as
far as spans go, and within the limit they are just moved.

## Main definitions

* `Attribute.Precedence`: What an attribute comes to whose text falls in two.

## Theorems

* `evaluateSource_behind`: The values of a text behind another one.
* `precedence_of_moved`: The stages of such an attribute, with whatever moves
  the places of the second text.
* `evaluate_several`: The stages of such an attribute.
-/

namespace AttrExpr

/-- Trees that have values have one each, so as long as there is a tree the
    first value is among theirs, and values behind do not matter. -/
theorem first_append {context : Context} {nodes : List Node} {values : List Value}
    (h : (evaluate context nodes).result = .ok values) (hne : nodes ≠ []) (more : List Value) :
    Value.first (values ++ more) = Value.first values := by
  have hvalues := Node.values?_eq_some_iff.mp ((evaluate_eq_ok_iff context nodes values).mp h)
  cases values with
  | nil => exact absurd (List.map_eq_nil_iff.mp hvalues) hne
  | cons value rest => rfl

/-- A text behind another one is evaluated after it, with all places moved. If
    it does not read neither of them is evaluated. How places are moved is a
    parameter that need only agree with `Span.further` on what was read. -/
theorem evaluateSource_behind {context : Context} (hraises : context.RaisesUnlocated)
    {first blanks second : String} {nodes : List Node} (hne : blanks ≠ "")
    (hblanks : ∀ c ∈ blanks.toList, Parse.isBlank c = true) (hfirst : parse first = .ok nodes)
    {move : Span → Span}
    (hmove : Parse.relocated (Span.further
      (Text.byteLength first.toList + Text.byteLength blanks.toList)) (parse second) =
        Parse.relocated move (parse second)) :
    evaluateSource context (first ++ blanks ++ second) =
      match parse second with
      | .error e => .error (.parse (e.relocate move))
      | .ok more => ((evaluate context nodes).result.mapError .eval).bind fun values =>
          ((evaluate context more).result.mapError fun error =>
            .eval (error.relocate move)).map (values ++ ·) := by
  rw [evaluateSource, Parse.parse_behind hne hblanks hfirst, hmove]
  rcases parse second with e | more
  · -- The whole does not read, so there is nothing to evaluate.
    rfl
  · simp only [Parse.relocated, Except.map]
    -- Of the trees in a row the second ones have only other places than by themselves.
    rw [evaluate_append, Node.results_relocateAll hraises]
    cases (evaluate context nodes).result with
    | error error => rfl
    | ok values =>
        cases (evaluate context more).result with
        | error error => rfl
        | ok values => rfl

namespace Attribute

/-- What an attribute comes to whose text is a first text with a second one
    behind it, given what reading comes to for the second text and evaluating
    for each text by itself. The places of the second text are moved. -/
structure Precedence (move : Span → Span) (parsed : Except ParseError (List Node))
    (first second whole : Except AttributeError Value) : Prop where
  /-- Nothing is evaluated unless everything reads. -/
  unread : ∀ e, parsed = .error e → whole = .error (.source (.parse (e.relocate move)))
  /-- A failure of the first text hides that of the second one. -/
  firstFails : ∀ more e, parsed = .ok more → first = .error e → whole = .error e
  /-- A value is not used if there is a failure behind it. -/
  secondFails : ∀ more value e, parsed = .ok more → first = .ok value → second = .error e →
    ∃ inner, e = .source (.eval inner) ∧
      whole = .error (.source (.eval (inner.relocate move)))
  /-- Whatever else there is, the value is that of the first text. -/
  value : ∀ value other, first = .ok value → second = .ok other → whole = .ok value

section

variable {host : Host} {namespaces : String → Option Bindings} {policy : Fallthrough}
variable {frame : Frame} {directive : Directive} {key : Option String}

section

variable {environment : Bindings}
variable (henvironment : (Attribute.mk directive key "").environment namespaces = .ok environment)

include henvironment

/-- With its table an attribute comes to what its text comes to, whatever the
    text is: to the first of the values, or to the failure. -/
theorem evaluate_of_environment (text : String) :
    evaluate host namespaces policy frame ⟨directive, key, text⟩ =
      ((evaluateSource ⟨host, environment, frame.options policy policy⟩ text).mapError
        AttributeError.source).map Value.first := by
  have hsame : (Attribute.mk directive key text).environment namespaces = .ok environment :=
    henvironment
  simp only [evaluate, hsame]
  cases evaluateSource ⟨host, environment, frame.options policy policy⟩ text with
  | error error => rfl
  | ok values => rfl

/-- An attribute whose text reads fails as the trees of its text do. -/
theorem evaluate_eq_error_iff_of_parse {text : String} {nodes : List Node}
    (hparse : parse text = .ok nodes) (e : AttributeError) :
    evaluate host namespaces policy frame ⟨directive, key, text⟩ = .error e ↔
      ∃ inner, (AttrExpr.evaluate ⟨host, environment, frame.options policy policy⟩ nodes).result =
        .error inner ∧ e = .source (.eval inner) := by
  rw [evaluate_of_environment henvironment]
  simp only [evaluateSource, hparse]
  cases (AttrExpr.evaluate ⟨host, environment, frame.options policy policy⟩ nodes).result with
  | error inner =>
      constructor
      · rintro ⟨⟩
        exact ⟨inner, rfl, rfl⟩
      · rintro ⟨_, ⟨⟩, rfl⟩
        rfl
  | ok values =>
      constructor
      · intro h
        cases h
      · rintro ⟨_, hresult, _⟩
        cases hresult

/-- An attribute whose text reads has the first value of the trees of its
    text. -/
theorem evaluate_eq_ok_iff_of_parse {text : String} {nodes : List Node}
    (hparse : parse text = .ok nodes) (value : Value) :
    evaluate host namespaces policy frame ⟨directive, key, text⟩ = .ok value ↔
      ∃ values, (AttrExpr.evaluate ⟨host, environment, frame.options policy policy⟩ nodes).result =
        .ok values ∧ Value.first values = value := by
  rw [evaluate_of_environment henvironment]
  simp only [evaluateSource, hparse]
  cases (AttrExpr.evaluate ⟨host, environment, frame.options policy policy⟩ nodes).result with
  | error inner =>
      constructor
      · intro h
        cases h
      · rintro ⟨_, hresult, _⟩
        cases hresult
  | ok values =>
      constructor
      · rintro ⟨⟩
        exact ⟨values, rfl, rfl⟩
      · rintro ⟨_, ⟨⟩, rfl⟩
        rfl

/-- An attribute of two texts goes through its stages in order, and the places
    of the second text are wherever reading has moved them. Each stage is read
    off the one equation for a text behind another. -/
theorem precedence_of_moved
    (hraises : Context.RaisesUnlocated ⟨host, environment, frame.options policy policy⟩)
    {first blanks second : String} {nodes : List Node} (hne : blanks ≠ "")
    (hblanks : ∀ c ∈ blanks.toList, Parse.isBlank c = true) (hfirst : parse first = .ok nodes)
    (hnodes : nodes ≠ []) {move : Span → Span}
    (hmove : Parse.relocated (Span.further
      (Text.byteLength first.toList + Text.byteLength blanks.toList)) (parse second) =
        Parse.relocated move (parse second)) :
    Precedence move (parse second)
      (evaluate host namespaces policy frame ⟨directive, key, first⟩)
      (evaluate host namespaces policy frame ⟨directive, key, second⟩)
      (evaluate host namespaces policy frame ⟨directive, key, first ++ blanks ++ second⟩) := by
  rw [evaluate_of_environment henvironment (first ++ blanks ++ second),
    evaluateSource_behind hraises hne hblanks hfirst hmove]
  constructor
  case unread =>
    intro e hparsed
    rw [hparsed]
    rfl
  case firstFails =>
    intro more e hparsed hfails
    rcases (evaluate_eq_error_iff_of_parse henvironment hfirst e).mp hfails with
      ⟨inner, hresult, rfl⟩
    rw [hparsed, hresult]
    rfl
  case secondFails =>
    intro more value e hparsed hvalue hfails
    rcases (evaluate_eq_ok_iff_of_parse henvironment hfirst value).mp hvalue with
      ⟨values, hresult, _⟩
    rcases (evaluate_eq_error_iff_of_parse henvironment hparsed e).mp hfails with
      ⟨inner, hbehind, rfl⟩
    refine ⟨inner, rfl, ?_⟩
    simp only [hparsed, hresult, hbehind]
    rfl
  case value =>
    intro value other hvalue hother
    rcases (evaluate_eq_ok_iff_of_parse henvironment hfirst value).mp hvalue with
      ⟨values, hresult, rfl⟩
    rcases hparsed : parse second with e | more
    · -- What does not read has no value.
      rw [evaluate_of_environment henvironment, evaluateSource, hparsed] at hother
      cases hother
    · rcases (evaluate_eq_ok_iff_of_parse henvironment hparsed other).mp hother with
        ⟨others, hbehind, _⟩
      simp only [hresult, hbehind]
      exact congrArg Except.ok (first_append hresult hnodes others)

end

/-- The table of an attribute that has none is empty, so nothing in it raises
    errors. -/
theorem exists_environment
    (hraises : ∀ name table, key = some name → namespaces name = some table →
      Context.RaisesUnlocated ⟨host, table, frame.options policy policy⟩)
    (hknown : ∀ name, key = some name → namespaces name ≠ none) :
    ∃ environment, (Attribute.mk directive key "").environment namespaces = .ok environment ∧
      Context.RaisesUnlocated ⟨host, environment, frame.options policy policy⟩ := by
  cases key with
  | none => exact ⟨.empty, rfl, fun name function hname => by cases hname⟩
  | some name =>
      rcases hname : namespaces name with _ | table
      · exact absurd hname (hknown name rfl)
      · refine ⟨table, ?_, hraises name table rfl hname⟩
        simp only [Attribute.environment, hname]

variable (host namespaces policy frame directive key)

/-- An attribute whose text is a text with at least one expression, some
    blanks and any other text. Without its table it fails, whatever the text
    is. With it the stages come in order: a fault of reading the second text,
    then a failure to evaluate the first one, then a failure to evaluate the
    second one, and otherwise the value is that of the first text by itself.
    What is at fault in the second text is where it is there, further on by
    what is in front of it. -/
theorem evaluate_several
    (hraises : ∀ name table, key = some name → namespaces name = some table →
      Context.RaisesUnlocated ⟨host, table, frame.options policy policy⟩)
    {first blanks : String} (second : String) {nodes : List Node} (hne : blanks ≠ "")
    (hblanks : ∀ c ∈ blanks.toList, Parse.isBlank c = true) (hfirst : parse first = .ok nodes)
    (hnodes : nodes ≠ []) :
    let alone := fun text => evaluate host namespaces policy frame ⟨directive, key, text⟩
    let whole := first ++ blanks ++ second
    let n := Text.byteLength first.toList + Text.byteLength blanks.toList
    (∀ name, key = some name → namespaces name = none →
      ∀ text, alone text = .error (.unknownNamespace name)) ∧
    ((∀ name, key = some name → namespaces name ≠ none) →
      Precedence (Span.further n) (parse second) (alone first) (alone second) (alone whole) ∧
      (Text.byteLength whole.toList ≤ Span.limit →
        Precedence (Span.shift n) (parse second) (alone first) (alone second) (alone whole))) := by
  intro alone whole n
  constructor
  · intro name hkey hmissing text
    simp only [alone, evaluate, Attribute.environment, hkey, hmissing]
  · intro hknown
    rcases exists_environment hraises hknown with ⟨environment, henvironment, hunlocated⟩
    constructor
    · exact precedence_of_moved henvironment hunlocated hne hblanks hfirst hnodes rfl
    · -- Within the limit places are moved by as much as is in front.
      intro hlimit
      simp only [whole, String.toList_append, Text.byteLength_append] at hlimit
      have hmove := Parse.relocated_further_eq_shifted hlimit
      exact precedence_of_moved henvironment hunlocated hne hblanks hfirst hnodes hmove

end

/-- A call inside a vector fails behind a string that holds a character of more
    than one byte, so the string is not used. -/
theorem evaluate_several_behind :
    let namespaces : String → Option Bindings :=
      fun name => if name = "s" then some (.standard 0) else none
    let alone := fun text => evaluate .none namespaces .absent .root ⟨.text, some "s", text⟩
    let fault := EvalFault.arityMismatch "not" 1 0
    (∀ name table, some "s" = some name → namespaces name = some table →
      Context.RaisesUnlocated ⟨.none, table, Frame.root.options .absent .absent⟩) ∧
    "\n " ≠ "" ∧ (∀ c ∈ "\n ".toList, Parse.isBlank c = true) ∧
    parse "'é'" = .ok [.string "é" ⟨0, 4⟩] ∧ namespaces "s" ≠ none ∧
    Text.byteLength ("'é'" ++ "\n " ++ "[1 (not)]").toList ≤ Span.limit ∧
    alone "'é'" = .ok (.str "é") ∧
    alone "[1 (not)]" = .error (.source (.eval ⟨fault, some ⟨3, 8⟩⟩)) ∧
    alone ("'é'" ++ "\n " ++ "[1 (not)]") =
      .error (.source (.eval ⟨fault, some ⟨9, 14⟩⟩)) := by
  intro namespaces alone fault
  have hraises : ∀ name table, some "s" = some name → namespaces name = some table →
      Context.RaisesUnlocated ⟨.none, table, Frame.root.options .absent .absent⟩ :=
    fun _ _ _ _ => Context.raisesUnlocated_of_host fun _ _ _ hraise => nomatch hraise
  have hblanks : ∀ c ∈ "\n ".toList, Parse.isBlank c = true :=
    List.forall_mem_cons.mpr ⟨rfl, List.forall_mem_singleton.mpr rfl⟩
  have hfirst : parse "'é'" = .ok [.string "é" ⟨0, 4⟩] := by rfl
  have hsecond : parse "[1 (not)]" = .ok [.group .square
    [.number (.int 1) ⟨1, 2⟩, .group .round [.symbol "not" ⟨4, 7⟩] ⟨3, 8⟩] ⟨0, 9⟩] := by rfl
  have hlimit : Text.byteLength ("'é'" ++ "\n " ++ "[1 (not)]").toList ≤ Span.limit := by
    rw [String.toList_append, String.toList_append]
    decide
  have hvalue : alone "'é'" = .ok (.str "é") := by rfl
  have henvironment : (Attribute.mk .text (some "s") "").environment namespaces =
      .ok (.standard 0) := rfl
  -- By itself the call stands at the third byte, and behind the string six bytes on.
  have hfails : alone "[1 (not)]" = .error (.source (.eval ⟨fault, some ⟨3, 8⟩⟩)) :=
    (evaluate_eq_error_iff_of_parse henvironment hsecond _).mpr ⟨_, by rfl, rfl⟩
  have hseveral := evaluate_several .none namespaces .absent .root .text (some "s") hraises
    "[1 (not)]" (by decide) hblanks hfirst (List.cons_ne_nil _ _)
  have hknown : ∀ name, some "s" = some name → namespaces name ≠ none := by
    rintro _ ⟨⟩
    exact Option.some_ne_none _
  rcases ((hseveral.2 hknown).2 hlimit).secondFails _ _ _ hsecond hvalue hfails with
    ⟨inner, hinner, hwhole⟩
  cases hinner
  exact ⟨hraises, by decide, hblanks, hfirst, hknown "s" rfl, hlimit, hvalue, hfails, hwhole⟩

end Attribute

end AttrExpr
