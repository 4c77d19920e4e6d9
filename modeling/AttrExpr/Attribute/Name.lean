/-!
# Attribute Names

Names of the form `b-<directive>[:<namespace>]`.

An attribute belongs to the templating layer if its name begins with the
instrumented prefix, and what follows says what to do with its value and which
table of functions to evaluate it against. A name is cut at its colons: the
first piece is the directive, the second the namespace, and further pieces
mean nothing. An empty namespace is the same as none.

The names that the layer writes for itself begin with two underscores, so
none of them is ever taken for an instrumented one.

## Main definitions

* `Directive`: What to do with a value.
* `Attribute`: An attribute taken apart.
* `Attribute.isInstrumented`: Whether a name belongs to the layer.
* `Attribute.read`: Takes an attribute apart.
* `Attribute.bindingName`: The name that stores a binding.

## Theorems

* `Directive.ofKeyword?_keyword`: Every keyword names its directive.
-/

namespace AttrExpr

/-- What an instrumented attribute asks to be done with its value. -/
inductive Directive where
  /-- Show the element only if the value counts as true. -/
  | when
  /-- Show the element only if the value counts as false. -/
  | whenNot
  /-- Replace the element's text. -/
  | text
  /-- Replace the element's markup. -/
  | html
  /-- Repeat the element once per item of `[key items]`. -/
  | forEach
  /-- Record the bindings `[[key value] ...]` on the element. -/
  | letBind
deriving DecidableEq, Repr, Inhabited

namespace Directive

/-- Every directive, once. A keyword is looked for in this list, so a directive
    that is not in it could not be written. -/
def all : List Directive := [when, whenNot, text, html, forEach, letBind]

/-- How a directive is written in a name. -/
def keyword : Directive → String
  | when => "when"
  | whenNot => "when-not"
  | text => "text"
  | html => "html"
  | forEach => "for"
  | letBind => "let"

/-- What a directive is called in descriptions. -/
def title : Directive → String
  | when => "When"
  | whenNot => "WhenNot"
  | text => "Text"
  | html => "Html"
  | forEach => "For"
  | letBind => "Let"

/-- The directive a keyword names. The keyword has to be the whole word, so the
    order in which the directives are tried does not matter. -/
def ofKeyword? (keyword : String) : Option Directive :=
  all.find? fun directive => directive.keyword = keyword

/-- Every keyword names its directive, and no other one: the search finds the
    directive that has the whole word as its keyword. -/
theorem ofKeyword?_keyword (directive : Directive) :
    ofKeyword? directive.keyword = some directive := by
  cases directive with
  | when => decide
  | whenNot => decide
  | text => decide
  | html => decide
  | forEach => decide
  | letBind => decide

end Directive

/-- An instrumented attribute taken apart. The value has not been read, so that
    an attribute can be recognised without its expression being a correct
    one. -/
structure Attribute where
  directive : Directive
  /-- The table to evaluate against; without one the table is empty. -/
  namespaceKey : Option String
  /-- The expression, not read yet. -/
  value : String
deriving DecidableEq, Repr

/-- Why a name is not that of an instrumented attribute. -/
inductive NameFault where
  | notInstrumented (name : String)
  | unknownDirective (keyword : String)
deriving DecidableEq, Repr

namespace Attribute

/-- The prefix of instrumented attributes. -/
def instrumented : String := "b-"

/-- The prefix of attributes that the layer writes for itself. -/
def internal : String := "__b-"

/-- The stem of the names that store bindings. -/
def binding : String := "__b-binding"

/-- What follows the instrumented prefix of a name, if it has it. -/
def afterInstrumented? (name : String) : Option (List Char) :=
  instrumented.toList.isPrefixOf? name.toList

/-- Whether a name is that of an instrumented attribute. Only the prefix counts
    here, so such a name may still turn out to hold no directive. -/
def isInstrumented (name : String) : Bool := (afterInstrumented? name).isSome

/-- The pieces of a text between colons. There is always a first one, which is
    why it stands apart from the others; any of them may be empty. -/
def pieces : List Char → List Char × List (List Char)
  | [] => ([], [])
  | c :: cs =>
      let (first, others) := pieces cs
      if c = ':' then ([], first :: others) else (c :: first, others)

/-- Takes an attribute apart. The value is kept as it is, since what is done
    with it depends on the directive. -/
def read (name value : String) : Except NameFault Attribute :=
  match afterInstrumented? name with
  | none => .error (.notInstrumented name)
  | some rest =>
      let (first, others) := pieces rest
      let keyword := String.ofList first
      match Directive.ofKeyword? keyword with
      | none => .error (.unknownDirective keyword)
      | some directive =>
          let key := (others.head?.filter (· ≠ [])).map String.ofList
          .ok ⟨directive, key, value⟩

/-- The name of the attribute that stores the binding of a key. It has the
    prefix of the layer's own names, so it is never read as instrumented. -/
def bindingName (key : String) : String := binding ++ ":" ++ key

end Attribute

end AttrExpr
