import AttrExpr.Eval.Basic

/-!
# The Walk of an Evaluation

What an evaluation does and in which order, read off the trees alone.

A tree is walked depth first and from left to right. A bare symbol is one step
of the walk. A call is three of its own: its head is looked at before its
arguments are, the function is called behind all that they do, and then it
answers. What a step does can be said without evaluating anything: a symbol is
a question to the resolver, and a call is of the function its head names with
the values of its arguments, where `Node.value?` gives values with no regard to
order or effects. Two kinds of steps can fail, looking at a head and an answer.

An evaluation goes through the walk up to the first step that fails, and what
it does is what the steps before that do. That the call which answers with a
failure has been made by then is why calling and answering are two steps.

The proof gives each part of the evaluator the steps it takes. Parts that
follow each other take their steps one after the other, which is the only place
where it matters what happens on failure.

## Main definitions

* `Node.value?`, `Node.values?`: The values of trees.
* `Step`: One point of a walk.
* `Step.events`, `Step.fault?`: What a step does, and how it fails.
* `Node.walk`, `Node.walkAll`: The walks of trees.
* `Follows`: An evaluation goes through some steps and has some value.

## Theorems

* `Follows.bind`: Evaluations one after the other take their steps one after
  the other.
* `follows_eval`, `follows_evalAll`: Evaluating trees goes through their walk.
* `result_eq_ok_iff`, `result_eq_error_iff`: The two results of evaluating one
  tree, told by its value and its walk.
* `evaluate_walk`: What an evaluation comes to, and its events.
-/

namespace AttrExpr

namespace Node

mutual

/-- The value of a tree, if it has one. It is defined on the tree alone, with
    no evaluation and no record, so the order in which things happen is left to
    the walk. -/
def value? (context : Context) : Node → Option Value
  | number value _ => some (.number value)
  | string value _ => some (.str value)
  | symbol name _ => some (context.symbolValue name)
  | group .square children _ => (values? context children).map .list
  | group .round [] _ => none
  | group .round (head :: arguments) _ =>
      (context.callee head).toOption.bind fun function =>
        (values? context arguments).bind fun values => (context.apply function values).toOption

/-- The values of a sequence of trees, if all of them have one. -/
def values? (context : Context) : List Node → Option (List Value)
  | [] => some []
  | node :: rest =>
      (value? context node).bind fun value => (values? context rest).map (value :: ·)

end

/-- A sequence has values exactly if each of its trees has one. -/
theorem values?_eq_some_iff {context : Context} {nodes : List Node} {values : List Value} :
    values? context nodes = some values ↔ nodes.map (value? context) = values.map some := by
  induction nodes generalizing values with
  | nil =>
      rw [values?, Option.some.injEq, List.map_nil, eq_comm, eq_comm (a := []), List.map_eq_nil_iff]
  | cons node rest ih =>
      simp only [values?, Option.bind_eq_some_iff, Option.map_eq_some_iff, List.map_cons]
      constructor
      · rintro ⟨value, hvalue, others, hothers, rfl⟩
        rw [List.map_cons, hvalue, ih.mp hothers]
      · intro h
        cases values with
        | nil => cases h
        | cons value others =>
            rw [List.map_cons, List.cons.injEq] at h
            exact ⟨value, h.1, others, ih.mpr h.2, rfl⟩

end Node

/-- The function a call is of and the values it is called with, if it comes to
    that. Calling and answering both ask for it, and get the same. -/
def Context.application? (context : Context) (head : Node) (arguments : List Node) :
    Option (Function × List Value) :=
  (context.callee head).toOption.bind fun function =>
    (Node.values? context arguments).map fun values => (function, values)

/-- One point of a walk. A step holds parts of the tree and nothing that was
    computed, so the walk of a tree is there before it is evaluated. -/
inductive Step where
  /-- A bare symbol is resolved. -/
  | resolve (name : String)
  /-- The head of a call is looked at. -/
  | enter (children : List Node) (span : Span)
  /-- The function is called. -/
  | call (head : Node) (arguments : List Node)
  /-- The function answers. -/
  | leave (head : Node) (arguments : List Node) (span : Span)

namespace Step

/-- What the outside sees of a step: the questions to the resolver, if there is
    one, and the calls with their arguments. -/
def events (context : Context) : Step → List Event
  | resolve name => if context.options.resolver.isSome then [.query name] else []
  | call head arguments =>
      (context.application? head arguments).toList.map fun (function, values) =>
        .call function values
  | enter _ _ => []
  | leave _ _ _ => []

/-- How a step fails, if it does. Looking at a head fails for an empty call and
    for a head that names no function, and an answer fails where the function
    does, at the span of the call unless the function says where. -/
def fault? (context : Context) : Step → Option EvalError
  | enter [] span => some ⟨.emptyCall, some span⟩
  | enter (head :: _) _ =>
      match context.callee head with
      | .ok _ => none
      | .error error => some error
  | leave head arguments span =>
      (context.application? head arguments).bind fun (function, values) =>
        match context.apply function values with
        | .ok _ => none
        | .error error => some (error.locate span)
  | resolve _ => none
  | call _ _ => none

end Step

namespace Node

mutual

/-- The steps of a tree, in order. The steps of a call enclose those of its
    arguments. -/
def walk : Node → List Step
  | number _ _ => []
  | string _ _ => []
  | symbol name _ => [.resolve name]
  | group .square children _ => walkAll children
  | group .round [] span => [.enter [] span]
  | group .round (head :: arguments) span =>
      .enter (head :: arguments) span ::
        (walkAll arguments ++ [.call head arguments, .leave head arguments span])

/-- The steps of a sequence of trees, in order. -/
def walkAll : List Node → List Step
  | [] => []
  | node :: rest => walk node ++ walkAll rest

end

/-- The head of a call is not resolved, and every other occurrence of a name
    is. -/
example : walk (.group .round [.symbol "f" ⟨1, 2⟩, .symbol "x" ⟨3, 4⟩, .symbol "x" ⟨5, 6⟩] ⟨0, 7⟩) =
    [.enter [.symbol "f" ⟨1, 2⟩, .symbol "x" ⟨3, 4⟩, .symbol "x" ⟨5, 6⟩] ⟨0, 7⟩,
      .resolve "x", .resolve "x",
      .call (.symbol "f" ⟨1, 2⟩) [.symbol "x" ⟨3, 4⟩, .symbol "x" ⟨5, 6⟩],
      .leave (.symbol "f" ⟨1, 2⟩) [.symbol "x" ⟨3, 4⟩, .symbol "x" ⟨5, 6⟩] ⟨0, 7⟩] := by
  rfl

end Node

/-- The failure of the first step that fails. If it is `none` then the walk is
    gone through to its end. -/
def firstFault? (context : Context) (steps : List Step) : Option EvalError :=
  steps.findSome? (Step.fault? context)

/-! ## Going through steps -/

/-- What is recorded up to a failure stays recorded. It is the law of the monad
    that everything here rests on: the record is threaded below the failure. -/
theorem Evaluation.run_bind {α β : Type} (evaluation : Evaluation α) (next : α → Evaluation β)
    (past : List Event) : (evaluation >>= next).run.run past =
      match evaluation.run.run past with
      | (.ok value, now) => (next value).run.run now
      | (.error error, now) => (.error error, now) := by
  rw [ExceptT.run_bind, StateT.run_bind]
  change _ = match (StateT.run evaluation.run past : Except EvalError α × List Event) with
    | (.ok value, now) => _
    | (.error error, now) => _
  rcases (StateT.run evaluation.run past : Except EvalError α × List Event)
    with ⟨error | value, now⟩
  · rfl
  · rfl

/-- An evaluation goes through the steps and has the value, unless a step
    fails; then it stops there with that failure, and there is no value. The
    record before it is arbitrary, so that evaluations can be put one after the
    other; the newest event is the first of the record. -/
inductive Follows (context : Context) {α : Type} (steps : List Step) (value? : Option α)
    (evaluation : Evaluation α) : Prop
  | completes {value : α} (hsteps : ∀ step ∈ steps, step.fault? context = none)
      (hvalue : value? = some value)
      (hrun : ∀ past, evaluation.run.run past =
        (.ok value, (steps.flatMap (Step.events context)).reverse ++ past))
  | stops {before after : List Step} {step : Step} {error : EvalError}
      (hsteps : steps = before ++ step :: after)
      (hbefore : ∀ earlier ∈ before, earlier.fault? context = none)
      (hstep : step.fault? context = some error) (hvalue : value? = none)
      (hrun : ∀ past, evaluation.run.run past =
        (.error error, (before.flatMap (Step.events context)).reverse ++ past))

section

variable {context : Context} {α β : Type}

theorem Follows.pure (value : α) : Follows context [] (some value) (Pure.pure value) :=
  .completes (fun _ hstep => absurd hstep List.not_mem_nil) rfl fun _ => rfl

/-- A step that fails, and no more. -/
theorem Follows.fails {step : Step} {error : EvalError} {evaluation : Evaluation α}
    (hstep : step.fault? context = some error)
    (hrun : ∀ past, evaluation.run.run past = (.error error, past)) :
    Follows context [step] none evaluation := by
  have hsteps : [step] = [] ++ step :: [] := rfl
  exact .stops hsteps (fun _ hearlier => absurd hearlier List.not_mem_nil) hstep rfl hrun

/-- What goes on from the value of an evaluation goes on behind its steps. What
    goes on need only be known for the value that is there, which is how the
    call learns its function and its arguments. -/
theorem Follows.bind {steps more : List Step} {value? : Option α} {evaluation : Evaluation α}
    {next : α → Evaluation β} {next? : α → Option β} (h : Follows context steps value? evaluation)
    (hnext : ∀ value, value? = some value → Follows context more (next? value) (next value)) :
    Follows context (steps ++ more) (value?.bind next?) (evaluation >>= next) := by
  cases h with
  | @stops before after step error hsteps hbefore hstep hvalue hrun =>
      -- The first evaluation stops, and what would go on is not begun.
      have hall : steps ++ more = before ++ step :: (after ++ more) := by
        rw [hsteps, List.append_assoc, List.cons_append]
      have hnone : value?.bind next? = none := by rw [hvalue, Option.bind_none]
      refine .stops hall hbefore hstep hnone fun past => ?_
      rw [Evaluation.run_bind, hrun]
  | @completes value hsteps hvalue hrun =>
      rw [hvalue, Option.bind_some]
      cases hnext value hvalue with
      | completes hmore hvalue' hrun' =>
          have hall : ∀ step ∈ steps ++ more, step.fault? context = none :=
            List.forall_mem_append.mpr ⟨hsteps, hmore⟩
          refine .completes hall hvalue' fun past => ?_
          rw [Evaluation.run_bind, hrun]
          simp only [hrun', List.flatMap_append, List.reverse_append, List.append_assoc]
      | @stops before after step error hmore hbefore hstep hvalue' hrun' =>
          -- The step that fails has all of the first evaluation before it.
          have hall : steps ++ more = (steps ++ before) ++ step :: after := by
            rw [hmore, List.append_assoc]
          have hearlier : ∀ earlier ∈ steps ++ before, earlier.fault? context = none :=
            List.forall_mem_append.mpr ⟨hsteps, hbefore⟩
          refine .stops hall hearlier hstep hvalue' fun past => ?_
          rw [Evaluation.run_bind, hrun]
          simp only [hrun', List.flatMap_append, List.reverse_append, List.append_assoc]

end

/-! ## Evaluating trees -/

section

variable (context : Context)

theorem follows_lookUp (name : String) :
    Follows context [.resolve name] (some (context.symbolValue name)) (context.lookUp name) := by
  have hnone : ∀ step ∈ [Step.resolve name], step.fault? context = none :=
    List.forall_mem_singleton.mpr rfl
  refine .completes hnone rfl fun past => ?_
  simp only [Context.lookUp, Step.events, List.flatMap_singleton]
  -- Without a resolver nobody is asked, and nothing is recorded.
  cases context.options.resolver.isSome with
  | false => rfl
  | true => rfl

theorem follows_callee (head : Node) (arguments : List Node) (span : Span) :
    Follows context [.enter (head :: arguments) span] (context.callee head).toOption
      (Evaluation.ofExcept (context.callee head)) := by
  rcases hcallee : context.callee head with error | function
  · have hfault : Step.fault? context (.enter (head :: arguments) span) = some error := by
      simp only [Step.fault?, hcallee]
    exact .fails hfault fun _ => rfl
  · have hnone : ∀ step ∈ [Step.enter (head :: arguments) span], step.fault? context = none := by
      rw [List.forall_mem_singleton]
      simp only [Step.fault?, hcallee]
    exact .completes hnone rfl fun _ => rfl

/-- The call is made, and then its answer may be a failure. In both cases the
    call is recorded, with the values it was made with. -/
theorem follows_call {head : Node} {arguments : List Node} {function : Function}
    {values : List Value} (h : context.application? head arguments = some (function, values))
    (span : Span) :
    Follows context [.call head arguments, .leave head arguments span]
      (context.apply function values).toOption (context.call function values span) := by
  have hevents : Step.events context (.call head arguments) = [.call function values] := by
    simp only [Step.events, h, Option.toList_some, List.map_cons, List.map_nil]
  have hcall : ∀ earlier ∈ [Step.call head arguments], earlier.fault? context = none :=
    List.forall_mem_singleton.mpr rfl
  rcases happly : context.apply function values with error | value
  · -- The answer is a failure, and it is leaving the call that fails with it.
    have hsteps : [Step.call head arguments, .leave head arguments span] =
        [.call head arguments] ++ .leave head arguments span :: [] := rfl
    have hanswer : Step.fault? context (.leave head arguments span) = some (error.locate span) := by
      simp only [Step.fault?, h, Option.bind_some, happly]
    refine .stops hsteps hcall hanswer rfl fun past => ?_
    rw [List.flatMap_singleton, hevents, Context.call, happly]
    rfl
  · have hanswer : Step.fault? context (.leave head arguments span) = none := by
      simp only [Step.fault?, h, Option.bind_some, happly]
    have hnone : ∀ step ∈ [Step.call head arguments, .leave head arguments span],
        step.fault? context = none :=
      List.forall_mem_cons.mpr ⟨rfl, List.forall_mem_singleton.mpr hanswer⟩
    refine .completes hnone rfl fun past => ?_
    rw [List.flatMap_cons, List.flatMap_singleton, hevents, Context.call, happly]
    rfl

namespace Node

mutual

/-- Evaluating a tree goes through its walk. There is one case for each kind of
    tree, and in each the parts of the evaluator are put together by `bind` as
    the evaluator puts them together. -/
theorem follows_eval (node : Node) :
    Follows context (walk node) (value? context node) (eval context node) := by
  match node with
  | number value span =>
      simp only [walk, value?, eval]
      exact Follows.pure _
  | string value span =>
      simp only [walk, value?, eval]
      exact Follows.pure _
  | symbol name span =>
      simp only [walk, value?, eval]
      exact follows_lookUp context name
  | group .square children span =>
      simp only [walk, value?, eval]
      have hchildren := follows_evalAll [] children
      simp only [List.reverse_nil, List.nil_append, Option.map_id'] at hchildren
      have hlist := hchildren.bind fun values _ =>
        (Follows.pure (Value.list values) : Follows context [] _ _)
      rw [List.append_nil] at hlist
      rw [Option.map_eq_bind]
      exact hlist
  | group .round [] span =>
      simp only [walk, value?, eval]
      exact .fails rfl fun _ => rfl
  | group .round (head :: arguments) span =>
      simp only [walk, value?, eval]
      have harguments := follows_evalAll [] arguments
      simp only [List.reverse_nil, List.nil_append, Option.map_id'] at harguments
      -- The head first, then the arguments, and the call at last.
      refine (follows_callee context head arguments span).bind fun function hfunction => ?_
      refine harguments.bind fun values hvalues => follows_call context ?_ span
      simp only [Context.application?, hfunction, hvalues, Option.bind_some, Option.map_some]

/-- Evaluating trees goes through their walks one after the other, and puts
    their values behind those already there. The values before are generalised,
    as the evaluator hands them on. -/
theorem follows_evalAll (before : List Value) (nodes : List Node) :
    Follows context (walkAll nodes) ((values? context nodes).map (before.reverse ++ ·))
      (evalAll context before nodes) := by
  match nodes with
  | [] =>
      simp only [walkAll, values?, evalAll, Option.map_some, List.append_nil]
      exact Follows.pure _
  | node :: rest =>
      simp only [walkAll, values?, evalAll, Option.map_bind]
      refine (follows_eval node).bind fun value _ => ?_
      -- The value joins those before, whose last one stands first.
      have hrest := follows_evalAll (value :: before) rest
      simpa only [Function.comp_apply, Option.map_map, Function.comp_def, List.reverse_cons,
        List.append_assoc, List.singleton_append] using hrest

end

end Node

/-! ## Results -/

theorem firstFault?_nil : firstFault? context [] = none := rfl

theorem firstFault?_cons (step : Step) (steps : List Step) :
    firstFault? context (step :: steps) =
      (step.fault? context).or (firstFault? context steps) := by
  rw [firstFault?, List.findSome?_cons]
  cases step.fault? context with
  | none => rfl
  | some fault => rfl

theorem firstFault?_append (steps more : List Step) :
    firstFault? context (steps ++ more) =
      (firstFault? context steps).or (firstFault? context more) :=
  List.findSome?_append

theorem firstFault?_eq_none_iff (steps : List Step) :
    firstFault? context steps = none ↔ ∀ step ∈ steps, step.fault? context = none :=
  List.findSome?_eq_none_iff

section

variable {context} {α : Type} {steps : List Step} {value? : Option α} {evaluation : Evaluation α}
  (h : Follows context steps value? evaluation)

include h

/-- What goes through steps is recorded from nothing on as the events of those
    that were taken. There is a value exactly if no step fails. -/
theorem Follows.outcome_cases :
    (∃ value, evaluation.outcome = ⟨.ok value, steps.flatMap (Step.events context)⟩ ∧
        value? = some value ∧ ∀ step ∈ steps, step.fault? context = none) ∨
      ∃ before step after error, evaluation.outcome =
          ⟨.error error, before.flatMap (Step.events context)⟩ ∧ value? = none ∧
        steps = before ++ step :: after ∧
        (∀ earlier ∈ before, earlier.fault? context = none) ∧ step.fault? context = some error := by
  cases h with
  | completes hsteps hvalue hrun =>
      refine Or.inl ⟨_, ?_, hvalue, hsteps⟩
      simp only [Evaluation.outcome, hrun, List.append_nil, List.reverse_reverse]
  | stops hsteps hbefore hstep hvalue hrun =>
      refine Or.inr ⟨_, _, _, _, ?_, hvalue, hsteps, hbefore, hstep⟩
      simp only [Evaluation.outcome, hrun, List.append_nil, List.reverse_reverse]

theorem Follows.result_eq_ok_iff (value : α) :
    evaluation.outcome.result = .ok value ↔ value? = some value := by
  rcases h.outcome_cases with ⟨found, houtcome, hvalue, _⟩ | ⟨_, _, _, error, houtcome, hvalue, _⟩
  · rw [houtcome, hvalue, Except.ok.injEq, Option.some.injEq]
  · rw [houtcome, hvalue]
    exact iff_of_false nofun nofun

theorem Follows.result_eq_error_iff (error : EvalError) :
    evaluation.outcome.result = .error error ↔ firstFault? context steps = some error := by
  rcases h.outcome_cases with ⟨value, houtcome, _, hsteps⟩ |
    ⟨before, step, after, found, houtcome, _, hsteps, hbefore, hstep⟩
  · rw [houtcome, (firstFault?_eq_none_iff context steps).mpr hsteps]
    exact iff_of_false nofun nofun
  · have hfirst : firstFault? context steps = some found := by
      rw [hsteps, firstFault?_append, (firstFault?_eq_none_iff context before).mpr hbefore,
        Option.none_or, firstFault?_cons, hstep, Option.some_or]
    rw [houtcome, hfirst, Except.error.injEq, Option.some.injEq]

end

namespace Node

theorem follows_values (nodes : List Node) :
    Follows context (walkAll nodes) (values? context nodes) (evalAll context [] nodes) := by
  have h := follows_evalAll context [] nodes
  simpa only [List.reverse_nil, List.nil_append, Option.map_id'] using h

theorem result_eq_ok_iff (node : Node) (value : Value) :
    (node.evaluate context).result = .ok value ↔ value? context node = some value :=
  (follows_eval context node).result_eq_ok_iff value

theorem result_eq_error_iff (node : Node) (error : EvalError) :
    (node.evaluate context).result = .error error ↔
      firstFault? context (walk node) = some error :=
  (follows_eval context node).result_eq_error_iff error

end Node

theorem evaluate_eq_ok_iff (nodes : List Node) (values : List Value) :
    (evaluate context nodes).result = .ok values ↔ Node.values? context nodes = some values :=
  (Node.follows_values context nodes).result_eq_ok_iff values

theorem evaluate_eq_error_iff (nodes : List Node) (error : EvalError) :
    (evaluate context nodes).result = .error error ↔
      firstFault? context (Node.walkAll nodes) = some error :=
  (Node.follows_values context nodes).result_eq_error_iff error

/-- An evaluation goes through the walk of its trees. If no step fails, it
    gives the value of each tree, in order, and its events are those of the
    whole walk. If one does, it fails as the first one that does, and its
    events are those of the steps before. -/
theorem evaluate_walk (nodes : List Node) :
    (∃ values, (evaluate context nodes).result = .ok values ∧
        values.map some = nodes.map (Node.value? context) ∧
        (∀ step ∈ Node.walkAll nodes, step.fault? context = none) ∧
        (evaluate context nodes).events =
          (Node.walkAll nodes).flatMap (Step.events context)) ∨
      ∃ before step after error, (evaluate context nodes).result = .error error ∧
        Node.walkAll nodes = before ++ step :: after ∧
        (∀ earlier ∈ before, earlier.fault? context = none) ∧
        step.fault? context = some error ∧
        (evaluate context nodes).events = before.flatMap (Step.events context) := by
  -- What the evaluator does was compared with the walk by induction over the trees;
  -- here it is read off for the whole.
  rcases (Node.follows_values context nodes).outcome_cases with
    ⟨values, houtcome, hvalues, hsteps⟩ |
    ⟨before, step, after, error, houtcome, _, hsteps, hbefore, hstep⟩
  · left
    rw [evaluate, houtcome]
    exact ⟨values, rfl, (Node.values?_eq_some_iff.mp hvalues).symm, hsteps, rfl⟩
  · right
    rw [evaluate, houtcome]
    exact ⟨before, step, after, error, rfl, hsteps, hbefore, hstep, rfl⟩

end

end AttrExpr
