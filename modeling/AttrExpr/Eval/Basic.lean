import AttrExpr.Eval.Context

/-!
# Evaluation

From trees to values.

Evaluation is eager and goes from left to right. Numbers and strings are
their own values, a symbol is looked up, a vector is the list of its
children's values, and a call finds its function first, then evaluates its
arguments, then calls. The first failure ends it.

Nothing that is consulted can change, so what can be observed of an
evaluation besides its result is the order in which it turns to the outside:
each question to the resolver and each call. Both are recorded as `Event`s,
the latest first, in a state that is threaded through and kept when an
evaluation fails.

## Main definitions

* `Event`: A question to the resolver or a call.
* `Evaluation`: A computation that records events and may fail.
* `Node.eval`, `Node.evalAll`: The evaluator.
* `Outcome`: A result and the events on the way to it.
* `evaluate`: The values of a sequence of trees.
-/

namespace AttrExpr

/-- Something an evaluation does that the outside can see. Looking a name up in
    the environment is none, since the environment cannot tell. -/
inductive Event where
  /-- The resolver is asked about a name. -/
  | query (name : String)
  /-- A function is called. -/
  | call (function : Function) (arguments : List Value)
deriving Inhabited

/-- A computation that may fail and records events, the latest first. The
    record is a state below the failure and not above it, so what happened
    before a failure is still there after it. -/
abbrev Evaluation (α : Type) := ExceptT EvalError (StateM (List Event)) α

namespace Evaluation

def record (event : Event) : Evaluation Unit := modify (event :: ·)

def ofExcept {α : Type} (result : Except EvalError α) : Evaluation α := ExceptT.mk (pure result)

end Evaluation

namespace Context

/-- Looks a bare symbol up. A resolver is asked even if its answer then gives
    way, and whether there is one is all that decides about the event. -/
def lookUp (context : Context) (name : String) : Evaluation Value := do
  if context.options.resolver.isSome then Evaluation.record (.query name)
  return context.symbolValue name

/-- Calls a function from the call at `span`, which is where a failure is
    located unless the function knows better. -/
def call (context : Context) (function : Function) (arguments : List Value) (span : Span) :
    Evaluation Value := do
  Evaluation.record (.call function arguments)
  Evaluation.ofExcept ((context.apply function arguments).mapError (·.locate span))

end Context

namespace Node

mutual

/-- The value of a tree. A call finds its function before it evaluates any
    argument, so a head that is at fault keeps the arguments from being
    looked at. -/
def eval (context : Context) : Node → Evaluation Value
  | number value _ => return .number value
  | string value _ => return .str value
  | symbol name _ => context.lookUp name
  | group .square children _ => return .list (← evalAll context [] children)
  | group .round [] span => throw ⟨.emptyCall, some span⟩
  | group .round (head :: arguments) span => do
      let function ← Evaluation.ofExcept (context.callee head)
      let values ← evalAll context [] arguments
      context.call function values span

/-- The values of a sequence of trees; `values` holds those before them, the
    last one first. The recursion is on the trees, one after the other, and the
    values it has so far are turned around once at the end. -/
def evalAll (context : Context) (values : List Value) : List Node → Evaluation (List Value)
  | [] => return values.reverse
  | node :: rest => do
      let value ← eval context node
      evalAll context (value :: values) rest

end

end Node

/-- What an evaluation comes to, and the events on the way in order. Both are
    there in any case: a failure has events before it, and a value is no
    reason to forget them. -/
structure Outcome (α : Type) where
  result : Except EvalError α
  events : List Event

/-- Runs an evaluation from its beginning. -/
def Evaluation.outcome {α : Type} (evaluation : Evaluation α) : Outcome α :=
  let (result, events) := evaluation.run.run []
  ⟨result, events.reverse⟩

/-- The value of one tree. -/
def Node.evaluate (context : Context) (node : Node) : Outcome Value :=
  (node.eval context).outcome

/-- The values of a sequence of trees, one each. The first failure ends it,
    and there are no values then. -/
def evaluate (context : Context) (nodes : List Node) : Outcome (List Value) :=
  (Node.evalAll context [] nodes).outcome

end AttrExpr
