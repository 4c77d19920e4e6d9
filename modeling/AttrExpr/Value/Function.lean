/-!
# Functions as Values

What a value that can be called is.

Functions are values: they are bound to names, passed on and compared. Two
functions are equal only if they are one and the same, not if they happen to
compute the same, so a function is known by where it comes from. A standard
function belongs to one copy of the standard table, and a host function is an
entry of a table that the caller supplies. What a host function does is looked
up in that table when it is called, so values hold no code and can be compared
by inspection.

## Main definitions

* `Builtin`: The standard functions.
* `Function`: A function and its identity.
* `Function.name`: The name it was made with.
-/

namespace AttrExpr

/-- The standard functions. They are data, so that a value which is one of them
    can be told from a value which is another. -/
inductive Builtin where
  | add
  | subtract
  | multiply
  | divide
  | equal
  | less
  | greater
  | lessEqual
  | greaterEqual
  | not
  | and
  | or
  | str
  | count
  | get
deriving DecidableEq, Repr, Inhabited

namespace Builtin

/-- The name a standard function is called by. -/
def name : Builtin → String
  | add => "+"
  | subtract => "-"
  | multiply => "*"
  | divide => "/"
  | equal => "="
  | less => "<"
  | greater => ">"
  | lessEqual => "<="
  | greaterEqual => ">="
  | not => "not"
  | and => "and"
  | or => "or"
  | str => "str"
  | count => "count"
  | get => "get"

/-- Every standard function, once. The standard table is made from this list,
    and no two entries of it share a name, so the order does not matter to what
    a name finds. -/
def all : List Builtin :=
  [add, subtract, multiply, divide, equal, less, greater, lessEqual, greaterEqual, not, and, or,
    str, count, get]

end Builtin

/-- A function, known by where it comes from. Equality is that of the data, and
    it is identity: two copies of the standard table have no function in
    common, and two entries of the host's are two functions even if they
    compute the same. -/
inductive Function where
  /-- A standard function of one particular copy of the standard table. -/
  | builtin (copy : Nat) (operation : Builtin)
  /-- An entry of the host's table, under the name it was bound with. -/
  | host (name : String) (entry : Nat)
deriving DecidableEq, Repr, Inhabited

namespace Function

/-- The name a function was made with, which it keeps wherever it is bound. -/
def name : Function → String
  | builtin _ operation => operation.name
  | host name _ => name

end Function

end AttrExpr
