import AttrExpr.Span

/-!
# Evaluation Errors

Why an expression has no value, and at which node.

A fault is raised by a function, which knows what is wrong but not where it
was called; the evaluator adds the place on the way out. `EvalError.locate`
keeps a place that is already there, so the innermost node that knows of the
error is the one it names.

## Main definitions

* `EvalFault`: What is wrong.
* `EvalError`: A fault, and where it was met once that is known.
* `EvalError.locate`: Names the place unless there is one.
-/

namespace AttrExpr

/-- What is wrong with an evaluation. The first four kinds are about the head of
    a call and are raised by the evaluator; the others are raised by functions,
    which see their arguments and nothing else. -/
inductive EvalFault where
  /-- A call of something that is no symbol, described by its kind. -/
  | nonSymbolCallHead (found : String)
  /-- A call of nothing. -/
  | emptyCall
  /-- A call of a name that is not bound. -/
  | undefinedFunction (name : String)
  /-- A call of a name bound to something other than a function. -/
  | notCallable (name typeName : String)
  /-- An argument of the wrong type. -/
  | typeMismatch (expected got : String)
  /-- A wrong number of arguments. -/
  | arityMismatch (name : String) (expected got : Nat)
  | integerOverflow (operation : String)
  | divisionByZero
  | indexOutOfBounds (index : Int) (length : Nat)
  /-- Anything else that a host function has to say. -/
  | custom (message : String)
deriving DecidableEq, Repr

namespace EvalFault

def message : EvalFault → String
  | nonSymbolCallHead found => "expected a symbol for a function call, got a " ++ found
  | emptyCall => "expected a symbol for a function call, got an empty list"
  | undefinedFunction name => s!"'{name}' not found, could not eval function"
  | notCallable name typeName => s!"'{name}' is a {typeName}, not a function"
  | typeMismatch expected got => s!"expected {expected}, got {got}"
  | arityMismatch name expected got =>
      let arguments := if expected = 1 then "argument" else "arguments"
      s!"{name} expects {expected} {arguments}, got {got}"
  | integerOverflow operation => "integer overflow in " ++ operation
  | divisionByZero => "division by zero"
  | indexOutOfBounds index length => s!"index {index} out of bounds for length {length}"
  | custom message => message

end EvalFault

/-- A fault and where it was met. There is no place while the error is on its
    way out of the function that raised it. -/
structure EvalError where
  fault : EvalFault
  span? : Option Span
deriving DecidableEq, Repr

namespace EvalError

/-- A fault whose place is not known yet. A function raises all of its faults
    this way, since it never sees the call it is part of. -/
def ofFault (fault : EvalFault) : EvalError := ⟨fault, none⟩

/-- Names the place of an error, unless it has one already. Every call on the
    way out names itself, and the first of them is the innermost. -/
def locate (error : EvalError) (span : Span) : EvalError :=
  ⟨error.fault, error.span?.or (some span)⟩

/-- The message without the place. -/
def message (error : EvalError) : String := error.fault.message

/-- The message, and the place after it if it is known. An error that reaches
    the reader of a text has a place, so the other form is seen only where a
    function is called directly. -/
def text (error : EvalError) : String :=
  match error.span? with
  | some span => s!"{error.message} (at {span.text})"
  | none => error.message

end EvalError

end AttrExpr
