import AttrExpr.Attribute.Frame

/-!
# Evaluating Attributes

The value of an instrumented attribute.

The namespace of an attribute picks the table its calls are looked up in; an
attribute without one has an empty table. Bare symbols resolve through the
frame of the element first. An expression may hold several nodes; all of them
are evaluated, so a failure anywhere counts, and the first value is the one
that is used.

The stages come in a fixed order: the namespace is looked up before the
expression is read, and all of it is read before any of it is evaluated.

## Main definitions

* `Attribute.environment`: The table of an attribute.
* `Attribute.evaluate`: The value of an attribute.
-/

namespace AttrExpr

namespace Attribute

/-- The policy under which attributes are evaluated unless another is asked
    for: a binding that counts as false is a binding. -/
def defaultPolicy : Fallthrough := .absent

/-- The table an attribute is evaluated against. Asking for no namespace is not
    an error and gives a table without functions, whereas asking for one that
    is not there is. -/
def environment (namespaces : String → Option Bindings) (attr : Attribute) :
    Except AttributeError Bindings :=
  match attr.namespaceKey with
  | none => .ok .empty
  | some key =>
      match namespaces key with
      | some table => .ok table
      | none => .error (.unknownNamespace key)

/-- The value of an attribute in a frame. The policy holds for the walk
    through the frame and for the step from there to the table. -/
def evaluate (host : Host) (namespaces : String → Option Bindings) (policy : Fallthrough)
    (frame : Frame) (attr : Attribute) : Except AttributeError Value :=
  match attr.environment namespaces with
  | .error error => .error error
  | .ok environment =>
      let context : Context := ⟨host, environment, frame.options policy policy⟩
      match evaluateSource context attr.value with
      | .error error => .error (.source error)
      | .ok values => .ok (Value.first values)

end Attribute

end AttrExpr
