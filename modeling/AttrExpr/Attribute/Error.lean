import AttrExpr.Attribute.Name
import AttrExpr.Eval.Source

/-!
# Attribute Errors

Why an attribute cannot be read or evaluated.

Each stage of handling an attribute has its own faults: its name, the
namespace it mentions, the text of the expression, and at last the shape of
the value, which some directives prescribe.

## Main definitions

* `Shape`: The shapes that directives prescribe.
* `AttributeError`: Everything that can go wrong.
-/

namespace AttrExpr

/-- A shape that a value has to have. The directives that take any value have
    none, and their values never fail for being of the wrong shape. -/
inductive Shape where
  /-- The pairs of a `let`. -/
  | bindings
  /-- The key and items of a `for`. -/
  | iteration
deriving DecidableEq, Repr

namespace Shape

/-- The directive that prescribes the shape. -/
def directive : Shape → Directive
  | bindings => .letBind
  | iteration => .forEach

/-- The shape in words. -/
def description : Shape → String
  | bindings => "[[key value] ...] with string keys"
  | iteration => "[key [items ...]] with a string key"

end Shape

/-- Why an attribute cannot be read or evaluated. The stages follow each other,
    so of several faults the one of the earliest stage is reported. -/
inductive AttributeError where
  | name (fault : NameFault)
  | unknownNamespace (key : String)
  /-- A value of the wrong shape; `found` is what does not fit, as shown. -/
  | malformedValue (shape : Shape) (found : String)
  | source (error : SourceError)
deriving DecidableEq, Repr

namespace AttributeError

def text : AttributeError → String
  | name (.notInstrumented found) => s!"`{found}` is not an instrumented attribute"
  | name (.unknownDirective keyword) => s!"unknown directive `{keyword}`"
  | unknownNamespace key => "lookup failed, namespace not defined: " ++ key
  | malformedValue shape found =>
      let keyword := shape.directive.keyword
      let expected := shape.description
      s!"malformed `{keyword}` value; expected {expected}, got `{found}`"
  | source error => error.text

end AttributeError

end AttrExpr
