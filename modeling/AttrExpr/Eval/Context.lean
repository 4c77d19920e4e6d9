import AttrExpr.Builtin.Apply
import AttrExpr.Node.Basic

/-!
# Evaluation Contexts

Everything an evaluation consults and cannot change.

Names are known from two sides. The environment is a table of values and
functions; the resolver, if there is one, is a question put to the caller and
comes first. It is asked about bare symbols only: what stands at the head of a
call is looked up in the environment alone, so a resolver can never replace a
function.

A resolver may answer with a value that counts as false, and the
`Fallthrough` policy decides whether that is an answer or a reason to look
further.

## Main definitions

* `Host`: What the functions of the caller do.
* `Fallthrough`: Which answers of a resolver give way.
* `Options`: A resolver and a policy.
* `Context`: Host, environment and options.
* `Context.symbolValue`: What a bare symbol comes to.
* `Context.callee`: The function a call head names.
-/

namespace AttrExpr

/-- What the functions of the caller do: the entry number and the arguments
    determine the result. -/
abbrev Host := Nat → List Value → Except EvalError Value

/-- A host without functions. No value names an entry of it unless the caller
    made one up, and such a call comes to nil. -/
def Host.none : Host := fun _ _ => .ok .nil

/-- Which answers of a resolver give way to what comes after it. -/
inductive Fallthrough where
  /-- Having no answer does, and so does a value that counts as false. -/
  | falsy
  /-- Only having no answer does. -/
  | absent
deriving DecidableEq, Repr, Inhabited

namespace Fallthrough

/-- Whether a value is kept as an answer. -/
def keeps : Fallthrough → Value → Bool
  | falsy, value => value.isTruthy
  | absent, _ => true

def name : Fallthrough → String
  | falsy => "Falsy"
  | absent => "Absent"

end Fallthrough

/-- How bare symbols are resolved before the environment is consulted. -/
structure Options where
  resolver : Option (String → Option Value)
  fallthrough : Fallthrough

namespace Options

/-- No resolver, and the policy an evaluation has unless another is asked
    for. -/
def default : Options := ⟨none, .falsy⟩

/-- What the resolver answers for a name, if it has an answer that is
    kept. -/
def resolve (options : Options) (name : String) : Option Value :=
  options.resolver.bind fun resolver => (resolver name).filter options.fallthrough.keeps

/-- A description of the options, which says of a resolver only whether there
    is one. -/
def describe (options : Options) : String :=
  let resolver := if options.resolver.isSome then "Some(\"..\")" else "None"
  "CompileOptions \x7b resolve_symbol: " ++ resolver ++ ", fallthrough: "
    ++ options.fallthrough.name ++ " \x7d"

end Options

/-- What an evaluation consults. -/
structure Context where
  host : Host
  environment : Bindings
  options : Options

namespace Context

/-- What a bare symbol comes to: the resolver's answer, else the
    environment's, else nil. -/
def symbolValue (context : Context) (name : String) : Value :=
  ((context.options.resolve name).or (context.environment.get? name)).getD .nil

/-- The function a name calls. -/
def function (context : Context) (name : String) : Except EvalFault Function :=
  match context.environment.get? name with
  | some (.function function) => .ok function
  | some other => .error (.notCallable name other.typeName)
  | none => .error (.undefinedFunction name)

/-- The function the head of a call names. Whatever is wrong with it is wrong
    at the head. -/
def callee (context : Context) (head : Node) : Except EvalError Function :=
  match head.symbol? with
  | none => .error ⟨.nonSymbolCallHead head.kindName, some head.span⟩
  | some name =>
      match context.function name with
      | .ok function => .ok function
      | .error fault => .error ⟨fault, some head.span⟩

/-- What a function gives for its arguments. -/
def apply (context : Context) (function : Function) (arguments : List Value) :
    Except EvalError Value :=
  match function with
  | .builtin _ operation => (operation.apply arguments).mapError EvalError.ofFault
  | .host _ entry => context.host entry arguments

end Context

end AttrExpr
