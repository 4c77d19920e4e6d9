import AttrExpr.Eval.Basic
import AttrExpr.Parse.Reader

/-!
# Evaluating Source Text

From a text to values in one step.

All of a text is read before any of it is evaluated, so a text with a fault
in it has no effects, and a failure belongs to one of the two stages.

## Main definitions

* `SourceError`: A failure of either stage.
* `evaluateSource`: The values of a text.
* `Value.first`: The value of a text that is used for one value.
-/

namespace AttrExpr

/-- A failure to read a text or to evaluate it. The stage is part of the error
    and of its text, because the places of the two read alike. -/
inductive SourceError where
  | parse (error : ParseError)
  | eval (error : EvalError)
deriving DecidableEq, Repr

namespace SourceError

def text : SourceError → String
  | parse error => "parse error: " ++ error.text
  | eval error => "eval error: " ++ error.text

end SourceError

/-- The values of the nodes that a text writes, one for each of them. There are
    values only if all of them have one. -/
def evaluateSource (context : Context) (source : String) : Except SourceError (List Value) :=
  match parse source with
  | .error error => .error (.parse error)
  | .ok nodes => (evaluate context nodes).result.mapError .eval

/-- The first of several values, or nil if there are none, as for a text of
    blanks. The others were computed as well, and their failures count. -/
def Value.first (values : List Value) : Value := values.head?.getD .nil

end AttrExpr
