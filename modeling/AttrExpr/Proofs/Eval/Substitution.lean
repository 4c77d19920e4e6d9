import AttrExpr.Proofs.Eval.Result

/-!
# Substitution of Literals

A binding means the same as its value written out.

A resolver that binds one name gives every symbol of that name its value. A
literal of this value could as well have been written in place of each of these
symbols, and then no resolver is needed. Heads of calls are not asked of the
resolver, so there the name stays what it is.

Literals are numbers, strings and vectors of literals. They have a value that
does not depend on any context, and they cannot fail, so it does not matter
where they say they are. Every other node stays where it is, and so does
whatever fails.

A value that counts as false gives way under one of the two policies, and then
the literal is not what the symbol comes to. Hence the condition.

## Main definitions

* `Node.literal?`, `Node.literals?`: The values of literals.
* `Node.substitute`, `Node.substituteAll`: Trees with a literal in place of a
  name.
* `Context.bound`, `Context.free`: Evaluation with one name bound, and without
  a resolver.

## Theorems

* `result_of_literal`: A literal has its value in every context.
* `callee_substitute`: Substitution leaves alone what a head names.
* `evaluate_substitute`: Evaluating with a binding is evaluating with the
  literal in place of the name.
-/

namespace AttrExpr

namespace Node

mutual

/-- The value of a tree that is a literal. No context is needed for it, which is
    what makes it a literal. -/
def literal? : Node → Option Value
  | number value _ => some (.number value)
  | string value _ => some (.str value)
  | symbol _ _ => none
  | group .square children _ => (literals? children).map .list
  | group .round _ _ => none

/-- The values of trees that are literals. -/
def literals? : List Node → Option (List Value)
  | [] => some []
  | node :: rest => (literal? node).bind fun value => (literals? rest).map (value :: ·)

end

mutual

/-- The tree with a literal in place of every symbol of a name, except for
    symbols at the heads of calls. The literal keeps its spans, wherever it is
    put. -/
def substitute (name : String) (literal : Node) : Node → Node
  | number value span => number value span
  | string value span => string value span
  | symbol other span => if other = name then literal else symbol other span
  | group .square children span => group .square (substituteAll name literal children) span
  | group .round [] span => group .round [] span
  | group .round (head :: arguments) span =>
      let head := if head.symbol?.isSome then head else substitute name literal head
      group .round (head :: substituteAll name literal arguments) span

/-- The trees with a literal in place of a name. -/
def substituteAll (name : String) (literal : Node) : List Node → List Node
  | [] => []
  | node :: rest => substitute name literal node :: substituteAll name literal rest

end

/-- Inside a head that is no symbol the name is replaced as well. -/
example :
    substitute "x" (number (.int 1) ⟨9, 9⟩) (group .round [symbol "x" ⟨1, 2⟩, symbol "x" ⟨3, 4⟩,
      group .round [group .square [symbol "x" ⟨7, 8⟩] ⟨6, 9⟩] ⟨5, 10⟩] ⟨0, 11⟩) =
    group .round [symbol "x" ⟨1, 2⟩, number (.int 1) ⟨9, 9⟩,
      group .round [group .square [number (.int 1) ⟨9, 9⟩] ⟨6, 9⟩] ⟨5, 10⟩] ⟨0, 11⟩ := by
  rfl

end Node

namespace Context

variable (host : Host) (environment : Bindings) (policy : Fallthrough)

/-- Evaluation with a resolver that binds one name and no other. -/
def bound (name : String) (value : Value) : Context :=
  ⟨host, environment, some fun other => if other = name then some value else none, policy⟩

/-- Evaluation without a resolver. -/
def free : Context := ⟨host, environment, none, policy⟩

variable {host environment policy}

theorem symbolValue_bound {name : String} {value : Value}
    (hkept : policy = .absent ∨ value.isTruthy = true) :
    (bound host environment policy name value).symbolValue name = value := by
  have hkeeps : policy.keeps value = true := by
    rcases hkept with rfl | htruthy
    · rfl
    · cases policy with
      | falsy => exact htruthy
      | absent => rfl
  simp only [symbolValue, Options.resolve, bound, Option.bind_some, if_true, Option.filter_some,
    hkeeps, Option.some_or, Option.getD_some]

/-- Any other name comes to what it does without a resolver, under any policy:
    there is no answer for a policy to be asked about. -/
theorem symbolValue_unbound {name other : String} (hother : other ≠ name) (value : Value)
    (policy' : Fallthrough) : (bound host environment policy name value).symbolValue other =
      (free host environment policy').symbolValue other := by
  simp only [symbolValue, Options.resolve, bound, free, Option.bind_some, if_neg hother,
    Option.filter_none, Option.bind_none]

end Context

namespace Node

section

variable (context : Context)

mutual

/-- A literal has its value in every context, by induction on the literal. -/
theorem value?_of_literal (node : Node) {value : Value} (h : node.literal? = some value) :
    value? context node = some value := by
  match node with
  | number held span => exact h
  | string text span => exact h
  | symbol name span => cases h
  | group .square children span =>
      simp only [literal?, Option.map_eq_some_iff] at h
      rcases h with ⟨values, hvalues, rfl⟩
      rw [value?, values?_of_literals children hvalues, Option.map_some]
  | group .round children span => cases h

theorem values?_of_literals (nodes : List Node) {values : List Value}
    (h : literals? nodes = some values) : values? context nodes = some values := by
  match nodes with
  | [] => exact h
  | node :: rest =>
      simp only [literals?, Option.bind_eq_some_iff, Option.map_eq_some_iff] at h
      rcases h with ⟨value, hvalue, others, hothers, rfl⟩
      rw [values?, value?_of_literal node hvalue, values?_of_literals rest hothers,
        Option.bind_some, Option.map_some]

end

/-- A literal has its value in every context, and evaluating it cannot fail. -/
theorem result_of_literal {node : Node} {value : Value} (h : node.literal? = some value) :
    (node.evaluate context).result = .ok value :=
  (result_eq_ok_iff context node value).mpr (value?_of_literal context node h)

end

/-- A head names what it did. If it is no symbol it is at fault, and the kind
    of node that it is and its place stay the same. So the error stays, too. -/
theorem callee_substitute (context : Context) (name : String) (literal head : Node) :
    context.callee (if head.symbol?.isSome then head else substitute name literal head) =
      context.callee head := by
  cases head with
  | symbol other span => rfl
  | number value span | string value span =>
      rw [substitute]
      rfl
  | group bracket children span =>
      -- Whatever is replaced inside of a group, it stays a group with its span.
      cases bracket with
      | square =>
          rw [substitute]
          rfl
      | round =>
          cases children with
          | nil | cons first others =>
              rw [substitute]
              rfl

section

variable {host : Host} {environment : Bindings} {policy : Fallthrough} {literal : Node}
  {value : Value} (name : String) (policy' : Fallthrough)

mutual

/-- A tree comes to the same with a binding and with the literal written out.
    The induction is on the tree, by the equations for results; the one case
    where anything happens is that of a symbol. -/
theorem result_substitute (hliteral : literal.literal? = some value)
    (hkept : policy = .absent ∨ value.isTruthy = true) (node : Node) :
    (node.evaluate (.bound host environment policy name value)).result =
      ((substitute name literal node).evaluate (.free host environment policy')).result := by
  match node with
  | number held span =>
      rw [substitute]
      rfl
  | string text span =>
      rw [substitute]
      rfl
  | symbol other span =>
      rw [result_symbol, substitute]
      by_cases hother : other = name
      · rw [if_pos hother, hother, Context.symbolValue_bound hkept, result_of_literal _ hliteral]
      · rw [if_neg hother, result_symbol, Context.symbolValue_unbound hother value policy']
  | group .square children span =>
      rw [substitute, result_vector, result_vector,
        result_substituteAll hliteral hkept children]
  | group .round [] span =>
      rw [substitute]
      rfl
  | group .round (head :: arguments) span =>
      -- The function is the same one, and so are the values it is given.
      rw [substitute, result_call, result_call, callee_substitute,
        result_substituteAll hliteral hkept arguments]
      rfl

theorem result_substituteAll (hliteral : literal.literal? = some value)
    (hkept : policy = .absent ∨ value.isTruthy = true) (nodes : List Node) :
    (AttrExpr.evaluate (.bound host environment policy name value) nodes).result =
      (AttrExpr.evaluate (.free host environment policy')
        (substituteAll name literal nodes)).result := by
  match nodes with
  | [] => rw [substituteAll, evaluate_nil, evaluate_nil]
  | node :: rest =>
      rw [substituteAll, evaluate_cons, evaluate_cons, result_substitute hliteral hkept node,
        result_substituteAll hliteral hkept rest]

end

end

end Node

/-- Evaluating a tree with a name bound to the value of a literal comes to the
    same value or the same error, its place included, as evaluating the tree
    with the literal in place of the name and without a resolver. The value
    has to be kept, so under the policy that drops what counts as false it has
    to count as true. -/
theorem evaluate_substitute {policy : Fallthrough} {literal : Node} {value : Value}
    (hliteral : literal.literal? = some value)
    (hkept : policy = .absent ∨ value.isTruthy = true) (host : Host) (environment : Bindings)
    (name : String) (policy' : Fallthrough) (node : Node) :
    (node.evaluate ⟨host, environment,
        some fun other => if other = name then some value else none, policy⟩).result =
      ((Node.substitute name literal node).evaluate ⟨host, environment, none, policy'⟩).result :=
  Node.result_substitute name policy' hliteral hkept node

/-- A call fails at the same place with the vector written out, although the
    vector stands nowhere near it. -/
theorem evaluate_substitute_vector :
    let literal : Node := .group .square [.string "a" ⟨20, 23⟩, .number (.int 0) ⟨24, 25⟩] ⟨19, 26⟩
    let value : Value := .list [.str "a", .int 0]
    let node : Node := .group .square [.symbol "x" ⟨1, 2⟩, .group .round [.symbol "get" ⟨4, 7⟩,
      .symbol "x" ⟨8, 9⟩, .number (.int 2) ⟨10, 11⟩] ⟨3, 12⟩] ⟨0, 13⟩
    let error : EvalError := ⟨.indexOutOfBounds 2 2, some ⟨3, 12⟩⟩
    literal.literal? = some value ∧ value.isTruthy = true ∧
      (node.evaluate ⟨.none, .standard 0,
        some fun other => if other = "x" then some value else none, .falsy⟩).result =
          .error error ∧
      ((Node.substitute "x" literal node).evaluate ⟨.none, .standard 0, none, .falsy⟩).result =
        .error error := by
  intro literal value node error
  have hliteral : literal.literal? = some value := by rfl
  have hfails : (node.evaluate ⟨.none, .standard 0,
      some fun other => if other = "x" then some value else none, .falsy⟩).result =
        .error error := by rfl
  -- The vector stands behind the whole text, and its spans do not get into the error.
  refine ⟨hliteral, rfl, hfails, ?_⟩
  rw [← evaluate_substitute hliteral (Or.inr rfl) .none (.standard 0) "x" .falsy node, hfails]

end AttrExpr
