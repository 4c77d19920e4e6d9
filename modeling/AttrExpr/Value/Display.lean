import AttrExpr.Text.Quoted
import AttrExpr.Value.Basic

/-!
# Showing Values

The text a reader sees.

On its own a text is shown as it is and nil as nothing, because that is what
is put into a document. Inside a list a bare text would be misread, so texts
are quoted there, while nil stays nothing; the items are separated by a comma
and a space.

## Main definitions

* `Place`: Where a value is shown.
* `Value.displayAt`: The text of a value at a place.
* `Value.display`: The text of a value on its own.

## Theorems

* `displayItems_cons_cons`: Items are separated by a comma and a space.
-/

namespace AttrExpr

namespace Value

/-- Where a value is shown: on its own, or inside a list. Inside a list the end
    of an item has to be seen, which a text without quotes does not show. -/
inductive Place where
  | alone
  | inList
deriving DecidableEq, Repr

mutual

/-- The text of a value at a place, which matters to texts only. -/
def displayAt (place : Place) : Value → String
  | nil => ""
  | bool value => if value then "true" else "false"
  | number value => value.shown
  | str value =>
      match place with
      | .alone => value
      | .inList => Text.Quoted.encode value
  | list items => "[" ++ displayItems items ++ "]"
  | function value => "<fn " ++ value.name ++ ">"

/-- The items of a list, separated. -/
def displayItems : List Value → String
  | [] => ""
  | item :: rest =>
      match rest with
      | [] => displayAt .inList item
      | _ :: _ => displayAt .inList item ++ ", " ++ displayItems rest

end

/-- The text of a value on its own, as it is put into a document. Values of
    different types may read alike here, such as `1` and the text of it. -/
def display (value : Value) : String := displayAt .alone value

theorem displayItems_singleton (item : Value) :
    displayItems [item] = displayAt .inList item := by
  simp only [displayItems]

theorem displayItems_cons_cons (a b : Value) (rest : List Value) :
    displayItems (a :: b :: rest) = displayAt .inList a ++ ", " ++ displayItems (b :: rest) := by
  simp only [displayItems]

/-- A list reads the same wherever it stands, which is why a list of lists can
    be read from its outermost bracket on. -/
theorem displayAt_list (place : Place) (items : List Value) :
    displayAt place (list items) = display (list items) := by
  simp only [display, displayAt]

end Value

end AttrExpr
