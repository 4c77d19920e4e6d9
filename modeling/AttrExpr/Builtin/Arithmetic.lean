import AttrExpr.Eval.Error
import AttrExpr.Value.Basic

/-!
# Arithmetic

The standard functions on numbers that give numbers.

All four work from left to right on a running total, and the total decides
the kind of arithmetic: it is exact as long as both sides are integers and
the result fits, and in floats from the first float on. An integer result
that does not fit is an error and never wraps. Division is the exception in
both respects, since a quotient of integers need not be one; it stays with
integers only where it is exact.

## Main definitions

* `Arithmetic`: An operation in both kinds of arithmetic.
* `Arithmetic.apply`, `Arithmetic.divide`: One step.
* `Arithmetic.total`: A running total over arguments.
* `Arithmetic.sum`, `Arithmetic.product`, `Arithmetic.difference`,
  `Arithmetic.quotient`: The standard functions.

## Theorems

* `total_append`: A total over two runs of arguments is a total of a total.
-/

namespace AttrExpr

/-- The number an argument is, which it has to be. Nothing is converted: a text
    of digits is a text, and a truth value is no number. -/
def Value.expectNumber (value : Value) : Except EvalFault Number :=
  match value.number? with
  | some n => .ok n
  | none => .error (.typeMismatch "number" value.typeName)

/-- An operation on integers and on floats, and what it is called when it
    overflows. -/
structure Arithmetic where
  name : String
  onIntegers : Int → Int → Int
  onFloats : Float → Float → Float

namespace Arithmetic

def addition : Arithmetic := ⟨"addition", (· + ·), (· + ·)⟩

def multiplication : Arithmetic := ⟨"multiplication", (· * ·), (· * ·)⟩

def subtraction : Arithmetic := ⟨"subtraction", (· - ·), (· - ·)⟩

/-- Subtraction from zero. It has a name of its own because its overflow is
    reported under it. -/
def negation : Arithmetic := { subtraction with name := "negation" }

/-- One step. Two integers give an integer, or an error if it does not fit; as
    soon as one side is a float, so is the result, and floats do not overflow
    but go to infinity. -/
def apply (operation : Arithmetic) : Number → Number → Except EvalFault Number
  | .int a, .int b =>
      match Number.integer? (operation.onIntegers a.toInt b.toInt) with
      | some c => .ok (.int c)
      | none => .error (.integerOverflow operation.name)
  | a, b => .ok (.float (operation.onFloats a.toFloat b.toFloat))

/-- A running total: each argument in turn has to be a number and is taken
    into the total by `step`. -/
def total (step : Number → Number → Except EvalFault Number) (start : Number) :
    List Value → Except EvalFault Number
  | [] => .ok start
  | argument :: rest =>
      match argument.expectNumber with
      | .error fault => .error fault
      | .ok number =>
          match step start number with
          | .error fault => .error fault
          | .ok next => total step next rest

/-- The integer quotient of two integers, if there is one that is exact and
    fits. It fits unless the least integer is divided by minus one. -/
def exactQuotient? (a b : Int64) : Option Int64 :=
  if b.toInt ∣ a.toInt then Number.integer? (a.toInt / b.toInt) else none

/-- One division. A divisor equal to zero is an error in either kind of
    arithmetic. -/
def divide (dividend divisor : Number) : Except EvalFault Number :=
  if divisor.toFloat == 0.0 then .error .divisionByZero
  else
    let inexact := Number.float (dividend.toFloat / divisor.toFloat)
    match dividend, divisor with
    | .int a, .int b => .ok (((exactQuotient? a b).map Number.int).getD inexact)
    | _, _ => .ok inexact

/-- `(+ a b ...)`, zero without arguments. -/
def sum (arguments : List Value) : Except EvalFault Number :=
  total addition.apply (.int 0) arguments

/-- `(* a b ...)`, one without arguments. -/
def product (arguments : List Value) : Except EvalFault Number :=
  total multiplication.apply (.int 1) arguments

/-- `(- a)` negates and `(- a b ...)` subtracts from the first argument,
    which is looked at before the others. -/
def difference : List Value → Except EvalFault Number
  | [] => .error (.arityMismatch "-" 1 0)
  | [only] => total negation.apply (.int 0) [only]
  | first :: rest => do
      total subtraction.apply (← first.expectNumber) rest

/-- `(/ a)` is the reciprocal and `(/ a b ...)` divides the first argument by
    the others. -/
def quotient : List Value → Except EvalFault Number
  | [] => .error (.arityMismatch "/" 1 0)
  | [only] => total divide (.int 1) [only]
  | first :: rest => do total divide (← first.expectNumber) rest

theorem total_append (step : Number → Number → Except EvalFault Number) (start : Number)
    (as bs : List Value) :
    total step start (as ++ bs) = (total step start as).bind fun next => total step next bs := by
  induction as generalizing start with
  | nil => rfl
  | cons a as ih =>
      simp only [List.cons_append, total]
      cases a.expectNumber with
      | error fault => rfl
      | ok number =>
          cases hstep : step start number with
          | error fault => simp only [hstep]; rfl
          | ok next => simp only [hstep]; exact ih next

end Arithmetic

end AttrExpr
