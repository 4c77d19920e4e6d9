import AttrExpr.Command.Let
import AttrExpr.Node.Outline

/-!
# Commands

What each command does, as the text it prints.

Expressions on the command line see the standard functions and the bindings
given with `--let`. The bindings are evaluated one after the other, each
seeing those before it, and the expression is evaluated last. A failure inside
a binding says in which one.

## Main definitions

* `Command.bindLets`: The frame that the bindings give.
* `Command.parse`, `Command.eval`, `Command.attr`: The commands.
-/

namespace AttrExpr

namespace Command

/-- The functions that every command has. -/
def functions : Bindings := .standard 0

/-- How expressions on the command line are evaluated: against the standard
    functions, with symbols resolved through a frame first. A binding that
    counts as false gives way to a standard function of its name. -/
def context (frame : Frame) : Context :=
  ⟨.none, functions, frame.options .absent .falsy⟩

/-- Evaluates bindings one after the other into a frame, each in the frame of
    those before it. A name that is bound again has its last value, and a
    failure ends the whole. -/
def bindLets (frame : Frame) : List LetBinding → Except CommandError Frame
  | [] => .ok frame
  | binding :: rest =>
      match evaluateSource (context frame) binding.source with
      | .error error => .error (.inLet binding.name error)
      | .ok values => bindLets (frame.bind binding.name (Value.first values)) rest

/-- Prints the outline of the nodes of a text. -/
def parse (source : String) : Except CommandError String :=
  match AttrExpr.parse source with
  | .error error => .error (.source (.parse error))
  | .ok nodes => .ok (Node.outline nodes)

/-- Prints the values of a text, one a line. The text is evaluated as a whole
    first, so a failure at its end prints none of the values before it. -/
def eval (source : String) (lets : List LetBinding) : Except CommandError String :=
  match bindLets .root lets with
  | .error error => .error error
  | .ok frame =>
      match evaluateSource (context frame) source with
      | .error error => .error (.source error)
      | .ok values => .ok (String.join (values.map fun value => value.display ++ "\n"))

/-- Prints the directive and the value of an attribute. Every namespace is
    that of the standard functions here. -/
def attr (name value : String) (lets : List LetBinding) : Except CommandError String :=
  match bindLets .root lets with
  | .error error => .error error
  | .ok frame =>
      match Attribute.read name value with
      | .error fault => .error (.attr (.name fault))
      | .ok attr =>
          match attr.evaluate .none (fun _ => some functions) Attribute.defaultPolicy frame with
          | .error error => .error (.attr error)
          | .ok result => .ok (attr.directive.keyword ++ ": " ++ result.display ++ "\n")

end Command

end AttrExpr
