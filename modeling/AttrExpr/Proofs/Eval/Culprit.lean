import AttrExpr.Eval.Source
import AttrExpr.Proofs.Eval.Relocation
import AttrExpr.Proofs.Node.Subtree

/-!
# The Culprit of a Failure

The one call that a failing evaluation fails at.

An error leaves the evaluator through every call it happened inside, and each
of them would name itself as the place. What comes out still names the
innermost one, because a place that is known is kept. That is what `Blames`
says of a call on its own: it fails with this error, and the error names the
call, or its head where the head is at fault.

Which call of a tree it is depends on the order of evaluation. `Reached` goes
down to a node the way an evaluation does, and collects what it comes by: the
nodes to the left, except for the heads of calls, which are not evaluated. All
of those have values, so the call is also the leftmost one that fails.

Such a call fails in the same way wherever it stands, so what was read
from its own text fails as the whole did. Only places differ then, since they
are counted from the beginning of the text. An error that one of the caller's
functions has located itself names a place nothing is known of, which is what
`RaisesUnlocated` excludes here as well.

## Main definitions

* `Node.Reached`: A node, and what is evaluated before it is.
* `Blames`: A call that is at fault, and the error that says so.
* `IsCulprit`: What an evaluation fails at.

## Theorems

* `culprit_of_walkAll`: A walk that fails reaches a call that is at fault.
* `evaluateSource_of_bare`: A text that writes a failing tree fails as it does.
* `exists_culprit`: A failing evaluation of a text fails at a call, and so does
  that of the call's own text.
-/

namespace AttrExpr

namespace Node

/-- A node somewhere in trees, and all nodes an evaluation finishes before it
    comes to that one, except for those inside other such nodes. The way down
    is that of the evaluator, which does not look into the head of a call. -/
inductive Reached : List Node → List Node → Node → Prop
  | here (node : Node) (rest : List Node) : Reached (node :: rest) [] node
  | next (node : Node) {rest before : List Node} {found : Node} (h : Reached rest before found) :
      Reached (node :: rest) (node :: before) found
  | inVector {children before : List Node} {found : Node} (h : Reached children before found)
      (span : Span) (rest : List Node) :
      Reached (group .square children span :: rest) before found
  /-- The head of a call is passed over. -/
  | inCall {arguments before : List Node} {found : Node} (h : Reached arguments before found)
      (head : Node) (span : Span) (rest : List Node) :
      Reached (group .round (head :: arguments) span :: rest) before found

/-- Trees behind those that are gone through do not matter. -/
theorem Reached.append {nodes before : List Node} {found : Node} (h : Reached nodes before found)
    (more : List Node) : Reached (nodes ++ more) before found := by
  induction h with
  | here node rest => exact here node (rest ++ more)
  | next node _ ih => exact next node ih
  | inVector h span rest _ => exact inVector h span (rest ++ more)
  | inCall h head span rest _ => exact inCall h head span (rest ++ more)

/-- What is reached is a node of the trees, so it has a text. -/
theorem Reached.mem_subtreesAll {nodes before : List Node} {found : Node}
    (h : Reached nodes before found) : found ∈ subtreesAll nodes := by
  -- Reaching goes through the trees in their order, and so do the subtrees.
  induction h with
  | here node rest =>
      rw [subtreesAll]
      exact List.mem_append_left _ (mem_subtrees node)
  | next node _ ih =>
      rw [subtreesAll]
      exact List.mem_append_right _ ih
  | inVector _ span rest ih =>
      rw [subtreesAll, subtrees]
      exact List.mem_append_left _ (List.mem_cons_of_mem _ ih)
  | inCall _ head span rest ih =>
      rw [subtreesAll, subtrees, subtreesAll]
      exact List.mem_append_left _ (List.mem_cons_of_mem _ (List.mem_append_right _ ih))

end Node

/-- A call that is at fault by itself, and the error that says so. What is
    wrong with a head is said to be there, and everything else at the call.
    There is one case for each thing a call can be blamed for. -/
inductive Blames (context : Context) : Node → EvalError → Prop
  | emptyCall (span : Span) : Blames context (.group .round [] span) ⟨.emptyCall, some span⟩
  | nonSymbolHead {head : Node} (arguments : List Node) (span : Span)
      (hhead : head.symbol? = none) :
      Blames context (.group .round (head :: arguments) span)
        ⟨.nonSymbolCallHead head.kindName, some head.span⟩
  | undefinedHead {head : Node} (arguments : List Node) (span : Span) {name : String}
      (hhead : head.symbol? = some name) (hname : context.environment.get? name = none) :
      Blames context (.group .round (head :: arguments) span)
        ⟨.undefinedFunction name, some head.span⟩
  | notCallableHead {head : Node} (arguments : List Node) (span : Span) {name : String}
      {held : Value} (hhead : head.symbol? = some name)
      (hname : context.environment.get? name = some held) (hheld : held.function? = none) :
      Blames context (.group .round (head :: arguments) span)
        ⟨.notCallable name held.typeName, some head.span⟩
  /-- The arguments have values, and the function does not take them. -/
  | raised {head : Node} {arguments : List Node} (span : Span) {name : String}
      {function : Function} {values : List Value} {fault : EvalFault}
      (hhead : head.symbol? = some name)
      (hname : context.environment.get? name = some (.function function))
      (hvalues : List.Forall₂ (fun argument value =>
        (argument.evaluate context).result = .ok value) arguments values)
      (hraise : context.apply function values = .error ⟨fault, none⟩) :
      Blames context (.group .round (head :: arguments) span) ⟨fault, some span⟩

theorem Blames.exists_span {context : Context} {node : Node} {error : EvalError}
    (h : Blames context node error) : ∃ span, error.span? = some span := by
  cases h with
  | emptyCall span => exact ⟨span, rfl⟩
  | nonSymbolHead arguments span hhead => exact ⟨_, rfl⟩
  | undefinedHead arguments span hhead hname => exact ⟨_, rfl⟩
  | notCallableHead arguments span hhead hname hheld => exact ⟨_, rfl⟩
  | raised span hhead hname hvalues hraise => exact ⟨span, rfl⟩

/-! ## Finding the culprit -/

section

variable {context : Context}

/-- A head that names no function is at fault: it is no symbol, or a symbol that
    is bound to nothing, or to something that cannot be called. -/
theorem blames_of_callee {head : Node} {error : EvalError} (h : context.callee head = .error error)
    (arguments : List Node) (span : Span) :
    Blames context (.group .round (head :: arguments) span) error := by
  rcases hhead : head.symbol? with _ | name
  · simp only [Context.callee, hhead, Except.error.injEq] at h
    rw [← h]
    exact .nonSymbolHead arguments span hhead
  · rcases hname : context.environment.get? name with _ | held
    · simp only [Context.callee, hhead, Context.function, hname, Except.error.injEq] at h
      rw [← h]
      exact .undefinedHead arguments span hhead hname
    · cases hheld : held.function? with
      | some function =>
          -- A function could be called, and there would be no error.
          cases held with
          | function held =>
              simp only [Context.callee, hhead, Context.function, hname, reduceCtorEq] at h
          | _ => cases hheld
      | none =>
          have hfault : context.function name = .error (.notCallable name held.typeName) := by
            cases held with
            | function function => cases hheld
            | _ => simp only [Context.function, hname]
          simp only [Context.callee, hhead, hfault, Except.error.injEq] at h
          rw [← h]
          exact .notCallableHead arguments span hhead hname hheld

namespace Node

/-- The values of a sequence, one by one, as the values its trees have by
    themselves. -/
theorem forall₂_of_values? {nodes : List Node} {values : List Value}
    (h : values? context nodes = some values) :
    List.Forall₂ (fun node value => (node.evaluate context).result = .ok value) nodes values := by
  induction nodes generalizing values with
  | nil =>
      simp only [values?, Option.some.injEq] at h
      rw [← h]
      exact .nil
  | cons node rest ih =>
      simp only [values?, Option.bind_eq_some_iff, Option.map_eq_some_iff] at h
      rcases h with ⟨value, hvalue, others, hothers, rfl⟩
      exact .cons ((result_eq_ok_iff context node value).mpr hvalue) (ih hothers)

/-- What fails nowhere has a value. This is how the nodes that an evaluation has
    left behind are known to be in order. -/
theorem exists_value_of_walk {node : Node} (h : firstFault? context (walk node) = none) :
    ∃ value, (node.evaluate context).result = .ok value := by
  rcases hresult : (node.evaluate context).result with error | value
  · rw [(result_eq_error_iff context node error).mp hresult] at h
    cases h
  · exact ⟨value, rfl⟩

theorem exists_values_of_walkAll {nodes : List Node}
    (h : firstFault? context (walkAll nodes) = none) :
    ∃ values, values? context nodes = some values := by
  rcases hresult : (AttrExpr.evaluate context nodes).result with error | values
  · rw [(evaluate_eq_error_iff context nodes error).mp hresult] at h
    cases h
  · exact ⟨values, (evaluate_eq_ok_iff context nodes values).mp hresult⟩

/-- A call fails at its head, else as its arguments do, else as its function
    answers. Making the call cannot fail, and drops out. -/
theorem firstFault?_walk_call (head : Node) (arguments : List Node) (span : Span) :
    firstFault? context (walk (group .round (head :: arguments) span)) =
      (Step.fault? context (.enter (head :: arguments) span)).or
        ((firstFault? context (walkAll arguments)).or
          (Step.fault? context (.leave head arguments span))) := by
  rw [walk, firstFault?_cons, firstFault?_append, firstFault?_cons, firstFault?_cons,
    firstFault?_nil, Option.or_none]
  rfl

/-- A call is at fault if it fails and its arguments do not. Then it is its head
    that fails, or the answer of its function to values that are there. -/
theorem blames_of_call (hraises : context.RaisesUnlocated) {head : Node} {arguments : List Node}
    {span : Span} {error : EvalError}
    (hfault : firstFault? context (walk (group .round (head :: arguments) span)) = some error)
    (harguments : firstFault? context (walkAll arguments) = none) :
    Blames context (group .round (head :: arguments) span) error := by
  rw [firstFault?_walk_call, harguments, Option.none_or] at hfault
  rcases hcallee : context.callee head with refused | function
  · simp only [Step.fault?, hcallee, Option.some_or, Option.some.injEq] at hfault
    rw [← hfault]
    exact blames_of_callee hcallee arguments span
  · -- The head is in order, so the function was called with values and did not take them.
    rcases exists_values_of_walkAll harguments with ⟨values, hvalues⟩
    rcases binds_of_callee hcallee with ⟨name, hhead, hname⟩
    simp only [Step.fault?, hcallee, Option.none_or, Context.application?, Except.toOption,
      Option.bind_some, hvalues, Option.map_some] at hfault
    rcases hraise : context.apply function values with ⟨fault, place⟩ | value
    · have hplace : place = none := hraises name function hname values ⟨fault, place⟩ hraise
      subst hplace
      simp only [hraise, Option.some.injEq] at hfault
      rw [← hfault]
      exact .raised span hhead hname (forall₂_of_values? hvalues) hraise
    · simp only [hraise, reduceCtorEq] at hfault

end Node

/-- The node is what an evaluation of the trees fails at: whatever is evaluated
    before it has a value, and it fails by its own fault. -/
structure IsCulprit (context : Context) (nodes : List Node) (error : EvalError)
    (before : List Node) (node : Node) : Prop where
  reached : Node.Reached nodes before node
  earlier : ∀ other ∈ before, ∃ value, (other.evaluate context).result = .ok value
  blames : Blames context node error
  fails : (node.evaluate context).result = .error error

/-- The first tree is the culprit if it is itself to blame: nothing is evaluated
    before it. -/
theorem IsCulprit.first {node : Node} {error : EvalError} (hblames : Blames context node error)
    (hfails : (node.evaluate context).result = .error error) (rest : List Node) :
    IsCulprit context (node :: rest) error [] node where
  reached := .here node rest
  earlier := fun _ hother => absurd hother List.not_mem_nil
  blames := hblames
  fails := hfails

namespace Node

mutual

/-- A walk that fails does so at a call in the tree. Going down stops at the
    first call whose arguments do not fail before it. -/
theorem culprit_of_walk (hraises : context.RaisesUnlocated) (node : Node) {error : EvalError}
    (h : firstFault? context (walk node) = some error) :
    ∃ before found, IsCulprit context [node] error before found := by
  have hfails := (result_eq_error_iff context node error).mpr h
  match node with
  | number value span =>
      rw [walk, firstFault?_nil] at h
      cases h
  | string value span =>
      rw [walk, firstFault?_nil] at h
      cases h
  | symbol name span =>
      rw [walk, firstFault?_cons, firstFault?_nil, Option.or_none] at h
      cases h
  | group .square children span =>
      rw [walk] at h
      rcases culprit_of_walkAll hraises children h with ⟨before, found, hfound⟩
      exact ⟨before, found, { hfound with reached := .inVector hfound.reached span [] }⟩
  | group .round [] span =>
      rw [walk, firstFault?_cons, firstFault?_nil, Option.or_none, Step.fault?,
        Option.some.injEq] at h
      have hblames : Blames context (group .round [] span) error := h ▸ .emptyCall span
      exact ⟨[], _, .first hblames hfails []⟩
  | group .round (head :: arguments) span =>
      rcases harguments : firstFault? context (walkAll arguments) with _ | inner
      · exact ⟨[], _, .first (blames_of_call hraises h harguments) hfails []⟩
      · rw [firstFault?_walk_call, harguments, Option.some_or] at h
        rcases hcallee : context.callee head with refused | function
        · -- The head is looked at first, so the arguments do not count.
          simp only [Step.fault?, hcallee, Option.some_or, Option.some.injEq] at h
          have hblames := blames_of_callee hcallee arguments span
          rw [h] at hblames
          exact ⟨[], _, .first hblames hfails []⟩
        · -- The culprit is in the arguments, behind the head.
          simp only [Step.fault?, hcallee, Option.none_or, Option.some.injEq] at h
          rw [h] at harguments
          rcases culprit_of_walkAll hraises arguments harguments with ⟨before, found, hfound⟩
          exact ⟨before, found, { hfound with reached := .inCall hfound.reached head span [] }⟩

/-- A walk that fails does so at a call in the trees: in the first tree that
    fails, and those before it are among what was evaluated earlier. -/
theorem culprit_of_walkAll (hraises : context.RaisesUnlocated) (nodes : List Node)
    {error : EvalError} (h : firstFault? context (walkAll nodes) = some error) :
    ∃ before found, IsCulprit context nodes error before found := by
  match nodes with
  | [] =>
      rw [walkAll, firstFault?_nil] at h
      cases h
  | node :: rest =>
      rw [walkAll, firstFault?_append] at h
      rcases hnode : firstFault? context (walk node) with _ | inner
      · -- The first tree has a value, and is left behind.
        rw [hnode, Option.none_or] at h
        rcases culprit_of_walkAll hraises rest h with ⟨before, found, hfound⟩
        have hearlier : ∀ other ∈ node :: before,
            ∃ value, (other.evaluate context).result = .ok value :=
          List.forall_mem_cons.mpr ⟨exists_value_of_walk hnode, hfound.earlier⟩
        exact ⟨node :: before, found,
          { hfound with reached := .next node hfound.reached, earlier := hearlier }⟩
      · rw [hnode, Option.some_or] at h
        rcases culprit_of_walk hraises node (hnode.trans h) with ⟨before, found, hfound⟩
        exact ⟨before, found, { hfound with reached := hfound.reached.append rest }⟩

end

/-! ## The culprit by itself -/

/-- A text that writes a tree fails as the tree does, places aside. Both are the
    same tree standing nowhere, and that one fails for the same reason. -/
theorem evaluateSource_of_bare (hraises : context.RaisesUnlocated) {source : String}
    {alone node : Node} (hparse : parse source = .ok [alone]) (hbare : alone.bare = node.bare)
    {error : EvalError} (h : (node.evaluate context).result = .error error) :
    ∃ other, evaluateSource context source = .error (.eval other) ∧
      other.fault = error.fault := by
  have hsame := result_relocate hraises (fun _ => Span.dummy) alone
  rw [← bare, hbare, bare, result_relocate hraises, h] at hsame
  rcases halone : (alone.evaluate context).result with other | value
  · rw [halone] at hsame
    have hresult : evaluateSource context source = .error (.eval other) := by
      simp only [evaluateSource, hparse, evaluate_cons, halone]
      rfl
    exact ⟨other, hresult, (congrArg EvalError.fault (Except.error.inj hsame)).symm⟩
  · -- A value would be one of the tree that fails, too.
    rw [halone] at hsame
    cases hsame

end Node

end

/-- If the evaluation of a text fails, its error names a place, and there is a
    call in the text that it fails at: what is evaluated before it has values,
    and the error is its own. Alone it fails with that error, and the part of
    the text that it was read from fails with the same fault. -/
theorem exists_culprit {context : Context} (hraises : context.RaisesUnlocated) {source : String}
    {nodes : List Node} (hparse : parse source = .ok nodes) {error : EvalError}
    (h : (evaluate context nodes).result = .error error) :
    (∃ span, error.span? = some span) ∧
      ∃ before node, IsCulprit context nodes error before node ∧
        ∃ front text back, source.toList = front ++ (text ++ back) ∧
          node.span = Span.ofRange (Text.byteLength front)
            (Text.byteLength front + Text.byteLength text) ∧
          (Text.byteLength front + Text.byteLength text ≤ Span.limit →
            node.span.slice? source = some (String.ofList text)) ∧
          ∃ other, evaluateSource context (String.ofList text) = .error (.eval other) ∧
            other.fault = error.fault := by
  rcases Node.culprit_of_walkAll hraises nodes ((evaluate_eq_error_iff context nodes error).mp h)
    with ⟨before, node, hculprit⟩
  rcases Parse.parse_subtree hparse hculprit.reached.mem_subtreesAll with
    ⟨front, text, back, hsource, hspan, alone, halone, hbare⟩
  -- Within the limit the span is the range, which cuts the text out.
  have hslice : Text.byteLength front + Text.byteLength text ≤ Span.limit →
      node.span.slice? source = some (String.ofList text) := by
    intro hlimit
    rw [hspan, Span.ofRange_of_le (by omega) hlimit]
    exact Span.slice?_part hsource
  have hother := Node.evaluateSource_of_bare hraises halone hbare hculprit.fails
  exact ⟨hculprit.blames.exists_span, before, node, hculprit, front, text, back, hsource, hspan,
    hslice, hother⟩

/-- Of a call in a vector in a call it is the inner call that fails, behind
    names and numbers that do not. -/
theorem exists_culprit_index :
    let context : Context := ⟨Host.none, Bindings.standard 0, Options.default⟩
    let error : EvalError := ⟨.indexOutOfBounds 5 1, some ⟨8, 19⟩⟩
    ∃ nodes, context.RaisesUnlocated ∧ parse "(+ 1 [x (get [1] 5)])" = .ok nodes ∧
      (evaluate context nodes).result = .error error ∧
      ∃ before node, IsCulprit context nodes error before node ∧
        ∃ front text back, "(+ 1 [x (get [1] 5)])".toList = front ++ (text ++ back) ∧
          node.span = Span.ofRange (Text.byteLength front)
            (Text.byteLength front + Text.byteLength text) ∧
          ∃ other, evaluateSource context (String.ofList text) = .error (.eval other) ∧
            other.fault = error.fault := by
  intro context error
  have hraises : context.RaisesUnlocated :=
    Context.raisesUnlocated_of_host fun _ _ _ h => by cases h
  have hfailing : ∃ nodes, parse "(+ 1 [x (get [1] 5)])" = .ok nodes ∧
      (evaluate context nodes).result = .error error :=
    ⟨[.group .round [.symbol "+" ⟨1, 2⟩, .number (.int 1) ⟨3, 4⟩,
      .group .square [.symbol "x" ⟨6, 7⟩, .group .round [.symbol "get" ⟨9, 12⟩,
        .group .square [.number (.int 1) ⟨14, 15⟩] ⟨13, 16⟩, .number (.int 5) ⟨17, 18⟩]
          ⟨8, 19⟩] ⟨5, 20⟩] ⟨0, 21⟩], by rfl, by rfl⟩
  rcases hfailing with ⟨nodes, hparse, hfails⟩
  rcases exists_culprit hraises hparse hfails with
    ⟨_, before, node, hculprit, front, text, back, hsource, hspan, _, hother⟩
  exact ⟨nodes, hraises, hparse, hfails, before, node, hculprit, front, text, back, hsource, hspan,
    hother⟩

end AttrExpr
