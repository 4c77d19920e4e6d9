import AttrExpr.Bindings
import AttrExpr.Builtin.Comparison
import AttrExpr.Value.Display

/-!
# The Standard Functions

What each standard function does with its arguments, and the table that binds
them.

The functions receive arguments that have been evaluated already, so `and`
and `or` decide nothing about evaluation. They know their arguments and not
the place of the call, so what they raise is a fault without a place.

## Main definitions

* `Builtin.apply`: What a standard function does.
* `Bindings.standard`: A copy of the standard table.
-/

namespace AttrExpr

namespace Builtin

/-- The one argument of a function that takes one. -/
def expectOne (name : String) : List Value → Except EvalFault Value
  | [argument] => .ok argument
  | arguments => .error (.arityMismatch name 1 arguments.length)

/-- The length of a list, or the number of characters of a text. It is an
    integer like any other, so there is an error for a length that is too large
    to be one, although no list comes near it. -/
def length (value : Value) : Except EvalFault Value :=
  let counted (n : Nat) : Except EvalFault Value :=
    match Number.integer? n with
    | some n => .ok (.int n)
    | none => .error (.integerOverflow "count")
  match value with
  | .list items => counted items.length
  | .str text => counted text.length
  | other => .error (.typeMismatch "list or str" other.typeName)

/-- The item of a list at an index that counts from zero. The list is looked
    at before the index. -/
def item (list index : Value) : Except EvalFault Value :=
  match list.list? with
  | none => .error (.typeMismatch "list" list.typeName)
  | some items =>
      match index.int? with
      | none => .error (.typeMismatch "int" index.typeName)
      | some index =>
          let found := if index.toInt < 0 then none else items[index.toInt.toNat]?
          match found with
          | some value => .ok value
          | none => .error (.indexOutOfBounds index.toInt items.length)

/-- What a standard function does with its arguments. The names in the errors
    are those of the functions themselves, whatever name a call found them
    under. -/
def apply (operation : Builtin) (arguments : List Value) : Except EvalFault Value :=
  match operation with
  | add => (Arithmetic.sum arguments).map .number
  | subtract => (Arithmetic.difference arguments).map .number
  | multiply => (Arithmetic.product arguments).map .number
  | divide => (Arithmetic.quotient arguments).map .number
  | equal => .ok (.bool (Comparison.adjacent Comparison.looselyEqual arguments))
  | less => (Comparison.ordering (fun a b => decide (a < b)) arguments).map .bool
  | greater => (Comparison.ordering (fun a b => decide (b < a)) arguments).map .bool
  | lessEqual => (Comparison.ordering (fun a b => decide (a ≤ b)) arguments).map .bool
  | greaterEqual => (Comparison.ordering (fun a b => decide (b ≤ a)) arguments).map .bool
  | not => (expectOne "not" arguments).map fun value => .bool (!value.isTruthy)
  | and => .ok (.bool (arguments.all Value.isTruthy))
  | or => .ok (.bool (arguments.any Value.isTruthy))
  | str => .ok (.str (String.join (arguments.map Value.display)))
  | count => (expectOne "count" arguments).bind length
  | get =>
      match arguments with
      | [list, index] => item list index
      | _ => .error (.arityMismatch "get" 2 arguments.length)

end Builtin

namespace Bindings

/-- A copy of the standard table. Copies are told apart by their number, so
    the same function of two copies is two functions. -/
def standard (copy : Nat) : Bindings :=
  ofList (Builtin.all.map fun operation =>
    (operation.name, .function (.builtin copy operation)))

end Bindings

end AttrExpr
