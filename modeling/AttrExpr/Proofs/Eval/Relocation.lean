import AttrExpr.Proofs.Eval.Result
import AttrExpr.Proofs.Node.Relocation

/-!
# Evaluating Elsewhere

What an expression comes to does not depend on where it stands.

A tree with other spans has the same value. If it has none it fails for the
same reason, and the span of the error is the other span of the node that the
error names. So whatever reading did to the places of a text, evaluating does
to the place of its error.

An error that comes from one of the caller's functions with a place of its own
would keep that place wherever the call is moved. `RaisesUnlocated` excludes
that. The standard functions know their arguments and not where they were
called, so it is a condition on the caller's functions only.

## Main definitions

* `Context.RaisesUnlocated`: No function says where its errors happened.
* `EvalError.relocate`: The same error with another span.

## Theorems

* `raisesUnlocated_of_host`: It is up to the caller's functions.
* `Node.result_relocate`, `Node.results_relocateAll`: Trees with other spans come to
  the same, with other spans.
-/

namespace AttrExpr

/-- No function that can be called says where its errors happened. Such an
    error is located at the call, and so moves with it. -/
def Context.RaisesUnlocated (context : Context) : Prop :=
  ∀ name function, context.environment.get? name = some (.function function) →
    ∀ arguments error, context.apply function arguments = .error error → error.span? = none

/-- The standard functions never say where, so it is up to the caller's. An
    entry of the environment may be a copy of a standard function under another
    name; it is told by what it does. -/
theorem Context.raisesUnlocated_of_host {context : Context}
    (h : ∀ entry arguments error, context.host entry arguments = .error error →
      error.span? = none) : context.RaisesUnlocated := by
  intro name function _ arguments error hraise
  cases function with
  | builtin copy operation =>
      -- The fault of an operation becomes an error without a span.
      simp only [Context.apply] at hraise
      rcases happly : operation.apply arguments with fault | value
      · rw [happly] at hraise
        cases hraise
        rfl
      · rw [happly] at hraise
        cases hraise
  | host name entry => exact h entry arguments error hraise

/-- The same error with another span, if it has one. An error without a span
    stays as it is, since it is about no place. -/
def EvalError.relocate (f : Span → Span) (error : EvalError) : EvalError :=
  ⟨error.fault, error.span?.map f⟩

/-- An error that does not know its place is located elsewhere by being located
    there. -/
theorem EvalError.locate_relocate {error : EvalError} (h : error.span? = none) (f : Span → Span)
    (span : Span) : error.locate (f span) = (error.locate span).relocate f := by
  rw [locate, locate, relocate, h, Option.none_or, Option.none_or, Option.map_some]

section

variable {context : Context}

/-- A head names a function by a symbol that the environment binds to it. -/
theorem binds_of_callee {head : Node} {function : Function}
    (h : context.callee head = .ok function) :
    ∃ name, head.symbol? = some name ∧
      context.environment.get? name = some (.function function) := by
  rcases hhead : head.symbol? with _ | name
  · simp only [Context.callee, hhead, reduceCtorEq] at h
  · refine ⟨name, rfl, ?_⟩
    simp only [Context.callee, hhead, Context.function] at h
    rcases hname : context.environment.get? name with _ | held
    · simp only [hname, reduceCtorEq] at h
    · cases held with
      | function found =>
          simp only [hname, Except.ok.injEq] at h
          rw [h]
      -- Whatever else the name may be bound to cannot be called.
      | _ => simp only [hname, reduceCtorEq] at h

/-- What is wrong with a head is wrong with it elsewhere, and there. The name is
    looked up, and where it stands is used for the error only. -/
theorem Context.callee_relocate (f : Span → Span) (head : Node) :
    context.callee (head.relocate f) =
      (context.callee head).mapError (EvalError.relocate f) := by
  cases head with
  | symbol name span =>
      simp only [callee, Node.relocate, Node.symbol?]
      cases context.function name with
      | error error => rfl
      | ok function => rfl
  | number value span => rfl
  | string value span => rfl
  | group bracket children span => rfl

/-- A function that can be called does not know where, so its errors are at the
    call wherever that is. -/
theorem Context.RaisesUnlocated.locate_relocate (hraises : context.RaisesUnlocated) {head : Node}
    {function : Function} (hcallee : context.callee head = .ok function) (f : Span → Span)
    (span : Span) (values : List Value) :
    (context.apply function values).mapError (·.locate (f span)) =
      ((context.apply function values).mapError (·.locate span)).mapError
        (EvalError.relocate f) := by
  rcases hresult : context.apply function values with error | value
  · rcases binds_of_callee hcallee with ⟨name, _, hname⟩
    exact congrArg Except.error
      (EvalError.locate_relocate (hraises name function hname values error hresult) f span)
  · rfl

namespace Node

mutual

/-- A tree with other spans has the same value, or fails as it did where the
    culprit is now. The cases follow the equations for results, each of whose
    parts commutes with the change of spans. -/
theorem result_relocate (hraises : context.RaisesUnlocated) (f : Span → Span) (node : Node) :
    ((node.relocate f).evaluate context).result =
      (node.evaluate context).result.mapError (EvalError.relocate f) := by
  match node with
  | number value span => rfl
  | string value span => rfl
  | symbol name span =>
      rw [relocate, result_symbol, result_symbol]
      rfl
  | group .square children span =>
      rw [relocate, result_vector, result_vector, results_relocateAll hraises f children]
      cases (AttrExpr.evaluate context children).result with
      | error error => rfl
      | ok values => rfl
  | group .round [] span => rfl
  | group .round (head :: arguments) span =>
      rw [relocate, relocateAll, result_call, result_call, context.callee_relocate,
        results_relocateAll hraises f arguments]
      rcases hcallee : context.callee head with error | function
      · rfl
      · cases (AttrExpr.evaluate context arguments).result with
        | error error => rfl
        -- The fault of the call itself gets the span of the call, whichever that is.
        | ok values => exact hraises.locate_relocate hcallee f span values

/-- Trees with other spans have the same values, or fail as they did where the
    culprit is now. -/
theorem results_relocateAll (hraises : context.RaisesUnlocated) (f : Span → Span)
    (nodes : List Node) :
    (AttrExpr.evaluate context (relocateAll f nodes)).result =
      (AttrExpr.evaluate context nodes).result.mapError (EvalError.relocate f) := by
  match nodes with
  | [] =>
      rw [relocateAll, evaluate_nil]
      rfl
  | node :: rest =>
      -- The first failure is that of the same tree, and no value has a span.
      rw [relocateAll, evaluate_cons, evaluate_cons, result_relocate hraises f node,
        results_relocateAll hraises f rest]
      cases (node.evaluate context).result with
      | error error => rfl
      | ok value =>
          cases (AttrExpr.evaluate context rest).result with
          | error error => rfl
          | ok values => rfl

end

end Node

end

end AttrExpr
