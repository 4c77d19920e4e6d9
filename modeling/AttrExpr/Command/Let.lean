import AttrExpr.Attribute.Evaluate

/-!
# Let Options

Bindings given on the command line.

A binding is written `name=source` and is cut at its first `=`, so a source
may contain more of them and a name contains none. On the command line it is
one argument after `--let`, or the rest of an argument that begins with
`--let=`. Both spellings may be mixed, and anything else in their place is an
error.

## Main definitions

* `LetBinding`: A name and the text of an expression.
* `LetBinding.read`: Takes `name=source` apart.
* `LetBinding.readOptions`: Reads the options of a command.
* `CommandError`: Everything a command can fail with.
-/

namespace AttrExpr

/-- Why a command fails. -/
inductive CommandError where
  /-- It was not called as it has to be. -/
  | usage (message : String)
  | source (error : SourceError)
  | attr (error : AttributeError)
  /-- The value of a binding cannot be computed. -/
  | inLet (name : String) (error : SourceError)
deriving DecidableEq, Repr

namespace CommandError

def text : CommandError → String
  | usage message => message
  | source error => error.text
  | attr error => error.text
  | inLet name error =>
      let inner := error.text
      s!"in --let {name}: {inner}"

end CommandError

/-- A binding on the command line: its value is not computed yet. All options
    are read before any of them is evaluated, so a call that is spelled wrong
    does nothing at all. -/
structure LetBinding where
  name : String
  source : String
deriving DecidableEq, Repr

namespace LetBinding

/-- What introduces a binding in an argument of its own. -/
def option : String := "--let"

/-- What introduces a binding in the same argument. -/
def optionWithValue : String := "--let="

/-- Takes `name=source` apart at its first `=`. A name has at least one
    character. -/
def read (argument : String) : Except CommandError LetBinding :=
  let characters := argument.toList
  let name := characters.takeWhile (· != '=')
  match characters.dropWhile (· != '=') with
  | _ :: source =>
      if name = [] then .error (malformed argument)
      else .ok ⟨String.ofList name, String.ofList source⟩
  | [] => .error (malformed argument)
where
  malformed (argument : String) : CommandError :=
    .usage s!"expected --let <name>=<expr>, got `{argument}`"

/-- Reads the options of a command, in order. The argument after `--let` is its
    value whatever it looks like, another option included. -/
def readOptions : List String → Except CommandError (List LetBinding)
  | [] => .ok []
  | argument :: rest =>
      match optionWithValue.toList.isPrefixOf? argument.toList with
      | some value => do
          let binding ← read (String.ofList value)
          return binding :: (← readOptions rest)
      | none =>
          match rest with
          | value :: rest =>
              if argument = option then do
                let binding ← read value
                return binding :: (← readOptions rest)
              else .error (unexpected argument)
          | [] => .error (unexpected argument)
where
  unexpected (argument : String) : CommandError :=
    .usage s!"unexpected argument `{argument}`"

end LetBinding

end AttrExpr
