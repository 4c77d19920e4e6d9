import AttrExpr.Eval.Source
import AttrExpr.Proofs.Eval.Relocation
import AttrExpr.Proofs.Node.Subtree

/-!
# The Names of an Evaluation

What an evaluation can know of its context.

A tree names what it wants in two ways. The head of a call names a function,
and that name is looked up in the environment and nowhere else. Every other
symbol names a value, and there the resolver is asked first. The same name may
occur both ways in one tree, at any depth, and the two have nothing to do with
each other.

So two contexts that hold the same for these names cannot be told apart by any
evaluation of the tree, neither by its result nor by what it asks and calls.
Names inside a head are not among them: such a head is no symbol, and the call
fails without looking into it.

That a resolver has no say in what is called is seen in the calls themselves.
Each is made by a call in the tree, and is of the function that the environment
holds for its head, whatever the resolver makes of that name.

## Main definitions

* `Node.bareNames`, `Node.bareNamesAll`: The names of symbols that are
  evaluated.
* `Node.headNames`, `Node.headNamesAll`: The names of call heads.
* `Mentions`: A text has a symbol of some name that is evaluated.
* `CallsIn`: Some call in trees calls a function with some values.

## Theorems

* `eval_congr`: Contexts in which the names of a tree mean the same evaluate it
  alike.
* `evaluateSource_congr`: Contexts in which the names that a text mentions mean
  the same evaluate it alike.
* `callsIn_of_event`: Whatever is called, a call in the trees calls it.
* `evaluate_eq_of_names`: Evaluations are the same in contexts that hold the
  same for the names in the trees, and call what the environment holds.
-/

namespace AttrExpr

namespace Node

mutual

/-- The names of the symbols in a tree that are evaluated, which are those
    outside of the heads of calls. A name may be listed more than once. -/
def bareNames : Node → List String
  | number _ _ => []
  | string _ _ => []
  | symbol name _ => [name]
  | group .square children _ => bareNamesAll children
  | group .round [] _ => []
  | group .round (_ :: arguments) _ => bareNamesAll arguments

/-- The names of the symbols in trees that are evaluated. -/
def bareNamesAll : List Node → List String
  | [] => []
  | node :: rest => bareNames node ++ bareNamesAll rest

end

mutual

/-- The names at the heads of the calls in a tree. A head that is no symbol has
    none, and what is in it is not evaluated. -/
def headNames : Node → List String
  | number _ _ => []
  | string _ _ => []
  | symbol _ _ => []
  | group .square children _ => headNamesAll children
  | group .round [] _ => []
  | group .round (head :: arguments) _ => head.symbol?.toList ++ headNamesAll arguments

/-- The names at the heads of the calls in trees. -/
def headNamesAll : List Node → List String
  | [] => []
  | node :: rest => headNames node ++ headNamesAll rest

end

/-- A name that occurs both ways is counted both ways. -/
example :
    let call := group .round [symbol "f" ⟨1, 2⟩, group .square [symbol "x" ⟨4, 5⟩,
      symbol "f" ⟨6, 7⟩] ⟨3, 8⟩] ⟨0, 9⟩
    call.bareNames = ["x", "f"] ∧ call.headNames = ["f"] := by
  exact ⟨rfl, rfl⟩

end Node

/-! ## Contexts that hold the same -/

section

variable {context other : Context}

/-- Where the name of a head names the same function, so does the head. -/
theorem Context.callee_congr {head : Node}
    (h : ∀ name ∈ head.symbol?.toList, context.function name = other.function name) :
    context.callee head = other.callee head := by
  simp only [Context.callee]
  cases hhead : head.symbol? with
  | none => rfl
  | some name => simp only [h name (by rw [hhead]; exact List.mem_singleton.mpr rfl)]

/-- A call does the same in contexts with the same host: what a function does
    depends on nothing else of the context. -/
theorem Context.call_congr (hhost : context.host = other.host) (function : Function)
    (values : List Value) (span : Span) :
    context.call function values span = other.call function values span := by
  have happly : context.apply function values = other.apply function values := by
    simp only [Context.apply, hhost]
  simp only [Context.call, happly]

namespace Node

mutual

/-- Evaluating a tree depends on what its bare names and its call heads are
    looked up as, and on no other name. The two evaluations are equal as such,
    which says more than that they have the same result: they ask and call the
    same, in the same order. -/
theorem eval_congr (hhost : context.host = other.host) (node : Node)
    (hbare : ∀ name ∈ bareNames node, context.lookUp name = other.lookUp name)
    (hheads : ∀ name ∈ headNames node, context.function name = other.function name) :
    eval context node = eval other node := by
  match node with
  | number value span => simp only [eval]
  | string value span => simp only [eval]
  | symbol name span =>
      -- A symbol that is evaluated is not the head of a call.
      simp only [eval]
      exact hbare name (List.mem_singleton.mpr rfl)
  | group .square children span =>
      simp only [eval]
      rw [evalAll_congr hhost children hbare hheads []]
  | group .round [] span => simp only [eval]
  | group .round (head :: arguments) span =>
      rw [headNames, List.forall_mem_append] at hheads
      have hcallee : context.callee head = other.callee head := Context.callee_congr hheads.1
      have harguments := evalAll_congr hhost arguments hbare hheads.2 []
      simp only [eval, hcallee, harguments, Context.call_congr hhost]

theorem evalAll_congr (hhost : context.host = other.host) (nodes : List Node)
    (hbare : ∀ name ∈ bareNamesAll nodes, context.lookUp name = other.lookUp name)
    (hheads : ∀ name ∈ headNamesAll nodes, context.function name = other.function name)
    (before : List Value) : evalAll context before nodes = evalAll other before nodes := by
  match nodes with
  | [] => simp only [evalAll]
  | node :: rest =>
      -- The names of several trees are those of the first and those of the rest.
      rw [bareNamesAll, List.forall_mem_append] at hbare
      rw [headNamesAll, List.forall_mem_append] at hheads
      simp only [evalAll, eval_congr hhost node hbare.1 hheads.1]
      congr 1
      funext value
      exact evalAll_congr hhost rest hbare.2 hheads.2 (value :: before)

end

end Node

/-- A symbol of the name stands in the text outside of the heads of calls. A
    text that cannot be read mentions nothing. -/
def Mentions (source name : String) : Prop :=
  ∃ nodes, parse source = .ok nodes ∧ name ∈ Node.bareNamesAll nodes

theorem mentions_iff {source : String} {nodes : List Node} (h : parse source = .ok nodes)
    (name : String) : Mentions source name ↔ name ∈ Node.bareNamesAll nodes := by
  unfold Mentions
  rw [h]
  constructor
  · rintro ⟨read, hread, hmem⟩
    rwa [Except.ok.inj hread]
  · intro hmem
    exact ⟨nodes, rfl, hmem⟩

/-- A text comes to the same where all names that it mentions are looked up
    alike and all heads of calls name the same functions. Of a text that does
    not read nothing is asked, and it fails to read in any context. -/
theorem evaluateSource_congr (hhost : context.host = other.host) {source : String}
    (hbare : ∀ name, Mentions source name → context.lookUp name = other.lookUp name)
    (hheads : ∀ name, context.function name = other.function name) :
    evaluateSource context source = evaluateSource other source := by
  unfold evaluateSource
  rcases hparse : parse source with error | nodes
  · rfl
  · have hall := Node.evalAll_congr hhost nodes
      (fun name hname => hbare name ⟨nodes, hparse, hname⟩) (fun name _ => hheads name) []
    simp only [evaluate, hall]

end

/-- A symbol is looked up alike if the resolvers answer alike and the
    environments hold the same. Having no resolver is an answer of its own
    here, since with a resolver the question is recorded. -/
theorem Context.lookUp_congr (host : Host) (policy : Fallthrough)
    {environment environment' : Bindings} {resolver resolver' : Option (String → Option Value)}
    {name : String} (hanswer : resolver.map (· name) = resolver'.map (· name))
    (hholds : environment.get? name = environment'.get? name) :
    Context.lookUp ⟨host, environment, ⟨resolver, policy⟩⟩ name =
      Context.lookUp ⟨host, environment', ⟨resolver', policy⟩⟩ name := by
  cases resolver with
  | none =>
      cases resolver' with
      | none => simp only [lookUp, symbolValue, Options.resolve, Option.bind_none, hholds]
      | some asked => cases hanswer
  | some asked =>
      cases resolver' with
      | none => cases hanswer
      | some asked' =>
          -- Both record the question, and get the same answer to it.
          have hsame : asked name = asked' name := Option.some.inj hanswer
          simp only [lookUp, symbolValue, Options.resolve, Option.bind_some, hsame, hholds,
            Option.isSome_some]

/-! ## Calls -/

namespace Node

mutual

/-- A call in the walk of a tree is a call in the tree. The step keeps the head
    and the arguments, so only the span of the call has to be found. -/
theorem mem_subtrees_of_call (node : Node) {head : Node} {arguments : List Node}
    (h : Step.call head arguments ∈ walk node) :
    ∃ span, group .round (head :: arguments) span ∈ subtrees node := by
  match node with
  | number value span =>
      rw [walk] at h
      cases h
  | string value span =>
      rw [walk] at h
      cases h
  | symbol name span =>
      rw [walk, List.mem_singleton] at h
      cases h
  | group .square children span =>
      rw [walk] at h
      rcases mem_subtreesAll_of_call children h with ⟨inner, hmem⟩
      exact ⟨inner, List.mem_cons_of_mem _ hmem⟩
  | group .round [] span =>
      rw [walk, List.mem_singleton] at h
      cases h
  | group .round (own :: others) span =>
      rw [walk, List.mem_cons, List.mem_append] at h
      -- The step is of a call among the arguments, or it is the last but one.
      rcases h with h | h | h
      · cases h
      · rcases mem_subtreesAll_of_call others h with ⟨inner, hmem⟩
        rw [subtrees, subtreesAll]
        exact ⟨inner, List.mem_cons_of_mem _ (List.mem_append_right _ hmem)⟩
      · simp only [List.mem_cons, Step.call.injEq, List.not_mem_nil, reduceCtorEq, or_false] at h
        rw [h.1, h.2]
        exact ⟨span, mem_subtrees _⟩

/-- A call in the walk of trees is a call in the trees. -/
theorem mem_subtreesAll_of_call (nodes : List Node) {head : Node} {arguments : List Node}
    (h : Step.call head arguments ∈ walkAll nodes) :
    ∃ span, group .round (head :: arguments) span ∈ subtreesAll nodes := by
  match nodes with
  | [] =>
      rw [walkAll] at h
      cases h
  | node :: rest =>
      rw [walkAll, List.mem_append] at h
      rcases h with h | h
      · rcases mem_subtrees_of_call node h with ⟨span, hmem⟩
        exact ⟨span, List.mem_append_left _ hmem⟩
      · rcases mem_subtreesAll_of_call rest h with ⟨span, hmem⟩
        exact ⟨span, List.mem_append_right _ hmem⟩

end

theorem eq_of_symbol? {node : Node} {name : String} (h : node.symbol? = some name) :
    ∃ span, node = symbol name span := by
  cases node with
  | symbol other span =>
      cases h
      exact ⟨span, rfl⟩
  | number value span => cases h
  | string value span => cases h
  | group bracket children span => cases h

end Node

/-- A function and the values it is called with, by a call in the trees that
    names it at its head and gives it these values. The resolver occurs only
    in the values of the arguments. -/
def CallsIn (context : Context) (nodes : List Node) (function : Function) (values : List Value) :
    Prop :=
  ∃ name headSpan arguments span,
    .group .round (.symbol name headSpan :: arguments) span ∈ Node.subtreesAll nodes ∧
      context.environment.get? name = some (.function function) ∧
      Node.values? context arguments = some values

/-- A call that comes about is of the function that the environment holds for
    its head. -/
theorem Context.binds_of_application {context : Context} {head : Node} {arguments : List Node}
    {function : Function} {values : List Value}
    (h : context.application? head arguments = some (function, values)) :
    ∃ name, head.symbol? = some name ∧
      context.environment.get? name = some (.function function) ∧
      Node.values? context arguments = some values := by
  simp only [application?, Option.bind_eq_some_iff, Option.map_eq_some_iff, Prod.mk.injEq] at h
  rcases h with ⟨found, hfound, given, hgiven, rfl, rfl⟩
  rcases hcallee : context.callee head with error | named
  · -- Without a function there is no call.
    rw [hcallee] at hfound
    cases hfound
  · rw [hcallee] at hfound
    cases hfound
    rcases binds_of_callee hcallee with ⟨name, hhead, hname⟩
    exact ⟨name, hhead, hname, hgiven⟩

/-- Whatever is called, a call in the trees calls it. The event comes from a
    step of the walk, which comes from a call in the trees. -/
theorem callsIn_of_event {context : Context} {nodes : List Node} {function : Function}
    {values : List Value} (h : Event.call function values ∈ (evaluate context nodes).events) :
    CallsIn context nodes function values := by
  -- On success and on failure alike the events are those of steps in the walk.
  have hwalk : ∃ step ∈ Node.walkAll nodes, Event.call function values ∈ step.events context := by
    rcases evaluate_walk context nodes with ⟨_, _, _, _, hevents⟩ |
      ⟨before, step, after, _, _, hsteps, _, _, hevents⟩
    · rw [hevents, List.mem_flatMap] at h
      exact h
    · rw [hevents, List.mem_flatMap] at h
      rcases h with ⟨earlier, hearlier, hevent⟩
      have hmem : earlier ∈ Node.walkAll nodes := by
        rw [hsteps]
        exact List.mem_append_left _ hearlier
      exact ⟨earlier, hmem, hevent⟩
  rcases hwalk with ⟨step, hstep, hevent⟩
  cases step with
  | resolve name =>
      -- A symbol asks a question or does nothing, and calls nothing.
      simp only [Step.events] at hevent
      split at hevent
      · rw [List.mem_singleton] at hevent
        cases hevent
      · cases hevent
  | enter children span => cases hevent
  | leave head arguments span => cases hevent
  | call head arguments =>
      simp only [Step.events, List.mem_map, Option.mem_toList] at hevent
      rcases hevent with ⟨⟨called, given⟩, happlication, hsame⟩
      cases hsame
      rcases Context.binds_of_application happlication with ⟨name, hhead, hname, hvalues⟩
      rcases Node.eq_of_symbol? hhead with ⟨headSpan, rfl⟩
      rcases Node.mem_subtreesAll_of_call nodes hstep with ⟨span, hmem⟩
      exact ⟨name, headSpan, arguments, span, hmem, hname, hvalues⟩

/-- Two evaluations of the same trees under one policy have the same result and
    do the same, if the two environments hold the same for every call head,
    and for every other symbol the two resolvers answer the same and the two
    environments hold the same. What they call is what the environment holds
    for the head of the call, whatever the resolver binds that name to. -/
theorem evaluate_eq_of_names (host : Host) (policy : Fallthrough)
    {environment environment' : Bindings} {resolver resolver' : Option (String → Option Value)}
    {nodes : List Node}
    (hheads : ∀ name ∈ Node.headNamesAll nodes, environment.get? name = environment'.get? name)
    (hbare : ∀ name ∈ Node.bareNamesAll nodes,
      resolver.map (· name) = resolver'.map (· name) ∧
        environment.get? name = environment'.get? name) :
    evaluate ⟨host, environment, ⟨resolver, policy⟩⟩ nodes =
        evaluate ⟨host, environment', ⟨resolver', policy⟩⟩ nodes ∧
      ∀ function values, Event.call function values ∈
          (evaluate ⟨host, environment, ⟨resolver, policy⟩⟩ nodes).events →
        CallsIn ⟨host, environment, ⟨resolver, policy⟩⟩ nodes function values := by
  constructor
  · have hevaluations : Node.evalAll ⟨host, environment, ⟨resolver, policy⟩⟩ [] nodes =
        Node.evalAll ⟨host, environment', ⟨resolver', policy⟩⟩ [] nodes := by
      refine Node.evalAll_congr (by rfl) nodes (fun name hname => ?_) (fun name hname => ?_) []
      · exact Context.lookUp_congr host policy (hbare name hname).1 (hbare name hname).2
      · -- A head asks the environment and not the resolver.
        simp only [Context.function, hheads name hname]
    rw [evaluate, evaluate, hevaluations]
  · exact fun function values h => callsIn_of_event h

/-- A resolver that binds every name, the one of the function too, does no more
    than one that binds the argument. -/
theorem evaluate_eq_of_names_count :
    let nodes : List Node := [.group .round [.symbol "count" ⟨1, 6⟩, .symbol "x" ⟨7, 8⟩] ⟨0, 9⟩]
    let argument : String → Option Value :=
      fun name => if name = "x" then some (.str "ab") else none
    let anything : String → Option Value := fun _ => some (.str "ab")
    let environment := Bindings.standard 0
    let larger := environment.insert "y" .nil
    (∀ name ∈ Node.headNamesAll nodes, environment.get? name = larger.get? name) ∧
      (∀ name ∈ Node.bareNamesAll nodes,
        (some argument).map (· name) = (some anything).map (· name) ∧
          environment.get? name = larger.get? name) ∧
      (evaluate ⟨.none, environment, ⟨some argument, .falsy⟩⟩ nodes).result = .ok [.int 2] ∧
      evaluate ⟨.none, environment, ⟨some argument, .falsy⟩⟩ nodes =
        evaluate ⟨.none, larger, ⟨some anything, .falsy⟩⟩ nodes := by
  intro nodes argument anything environment larger
  -- Neither name of the text is the one that the larger environment adds.
  have hlarger : ∀ name, name ≠ "y" → environment.get? name = larger.get? name := by
    intro name hname
    rw [Bindings.get?_insert, if_neg hname]
  have hheads : ∀ name ∈ Node.headNamesAll nodes, environment.get? name = larger.get? name :=
    List.forall_mem_singleton.mpr (hlarger "count" (by decide))
  have hbare : ∀ name ∈ Node.bareNamesAll nodes,
      (some argument).map (· name) = (some anything).map (· name) ∧
        environment.get? name = larger.get? name :=
    List.forall_mem_singleton.mpr ⟨rfl, hlarger "x" (by decide)⟩
  exact ⟨hheads, hbare, by rfl, (evaluate_eq_of_names .none .falsy hheads hbare).1⟩

end AttrExpr
