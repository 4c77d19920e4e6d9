import AttrExpr.Number
import AttrExpr.Value.Function

/-!
# Values

What an expression comes to.

Values are nil, truth values, numbers, text, lists and functions. Lists nest
as deeply as the vectors they come from, so everything that looks inside a
value is a pair of functions, one for a value and one for the items of a
list.

## Main definitions

* `Value`: What an expression comes to.
* `Value.same`: Equality of values.
* `Value.isTruthy`: Whether a value counts as true.
* `Value.preorder`: A value and everything inside it.
-/

namespace AttrExpr

/-- What an expression comes to. There are no cycles and nothing is shared, so a
    value can be compared and written out by going through it once. -/
inductive Value where
  /-- Nothing: an unbound name, or an empty expression. -/
  | nil
  | bool (value : Bool)
  | number (value : Number)
  | str (value : String)
  | list (items : List Value)
  | function (value : Function)
deriving Inhabited

namespace Value

def int (value : Int64) : Value := .number (.int value)

def float (value : Float) : Value := .number (.float value)

mutual

/-- Equality of values. Kinds are kept apart, so an integer never equals a
    float here; floats compare as floats do and functions by identity. -/
def same : Value → Value → Bool
  | nil, nil => true
  | bool a, bool b => a == b
  | number a, number b => a.same b
  | str a, str b => a == b
  | list as, list bs => sameAll as bs
  | function a, function b => a == b
  | _, _ => false

/-- Equality of the items of two lists, one by one and with nothing left
    over. -/
def sameAll : List Value → List Value → Bool
  | [], [] => true
  | a :: as, b :: bs => same a b && sameAll as bs
  | _, _ => false

end

/-- Whether a value counts as true. Nil, `false`, zero, what is not a number
    and the empty text do not; every list and every function does. This is
    also what decides whether a binding is there at all for a lookup that lets
    falsy answers give way. -/
def isTruthy : Value → Bool
  | nil => false
  | bool value => value
  | number value => value.isTruthy
  | str value => value != ""
  | list _ => true
  | function _ => true

/-- The type of a value, as messages name it. The two kinds of number are two
    types here, although arithmetic mixes them. -/
def typeName : Value → String
  | nil => "nil"
  | bool _ => "bool"
  | number (.int _) => "int"
  | number (.float _) => "float"
  | str _ => "str"
  | list _ => "list"
  | function _ => "function"

/-- The integer, if the value is one. -/
def int? : Value → Option Int64
  | number (.int value) => some value
  | _ => none

/-- The number, if the value is one, of either kind. Arithmetic asks for this,
    and lets the number decide what kind of arithmetic it is. -/
def number? : Value → Option Number
  | number value => some value
  | _ => none

/-- The text, if the value is one. -/
def str? : Value → Option String
  | str value => some value
  | _ => none

/-- The items, if the value is a list. -/
def list? : Value → Option (List Value)
  | list items => some items
  | _ => none

/-- The function, if the value is one. -/
def function? : Value → Option Function
  | function value => some value
  | _ => none

/-- A value inside `count` lists of one item. Values are built one list at a
    time, so this is how a value of any depth is had without writing it out. -/
def nest (count : Nat) (value : Value) : Value :=
  count.repeat (fun inner => list [inner]) value

mutual

/-- Puts a value that stands at `depth`, and all inside it, in front of
    `rest`. Handing the rest down instead of appending to it keeps the walk
    linear in a value that nests deeply. -/
def preorderOnto (depth : Nat) (value : Value) (rest : List (Nat × Value)) :
    List (Nat × Value) :=
  match value with
  | nil => (depth, nil) :: rest
  | bool b => (depth, bool b) :: rest
  | number n => (depth, number n) :: rest
  | str s => (depth, str s) :: rest
  | list items => (depth, list items) :: preorderAllOnto (depth + 1) items rest
  | function f => (depth, function f) :: rest

/-- Puts several values, and all inside them, in front of `rest`. -/
def preorderAllOnto (depth : Nat) (values : List Value) (rest : List (Nat × Value)) :
    List (Nat × Value) :=
  match values with
  | [] => rest
  | value :: values => preorderOnto depth value (preorderAllOnto depth values rest)

end

/-- The value and everything inside it, each with its depth, lists before
    their items. -/
def preorder (value : Value) : List (Nat × Value) := preorderOnto 0 value []

end Value

end AttrExpr
