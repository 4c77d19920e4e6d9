import AttrExpr.Proofs.Eval.Walk

/-!
# Results of Evaluations

What trees come to, put together from what their parts come to.

An evaluation threads its record of events through everything it does, but it
never looks at the record. So if only results matter the record can be left
out, and each kind of tree has an equation: a vector comes to what its children
come to, and a call to what its function makes of its arguments, with the first
failure on the way as the failure of the whole.

## Main definitions

* `Evaluation.Steady`: An evaluation whose result does not depend on the record.

## Theorems

* `Evaluation.result_bind`: The result of one evaluation after another.
* `Node.result_vector`, `Node.result_call`: The results of groups.
* `evaluate_cons`, `evaluate_append`: The results of sequences.
-/

namespace AttrExpr

namespace Evaluation

variable {α β : Type} {evaluation : Evaluation α} {next : α → Evaluation β}

/-- The result does not depend on what was recorded before. Evaluations could
    look at the record as far as their type goes; that none does is what allows
    results to be talked about without it. -/
def Steady (evaluation : Evaluation α) : Prop :=
  ∀ past, (evaluation.run.run past).1 = evaluation.outcome.result

/-- The result of one evaluation after another, where the second one does not
    depend on what the first one records. The hypothesis is what makes this an
    equation: the second one is run on the record of the first. -/
theorem result_bind (hnext : ∀ value, (next value).Steady) :
    (evaluation >>= next).outcome.result =
      evaluation.outcome.result.bind fun value => (next value).outcome.result := by
  have hrun := run_bind evaluation next []
  rcases hfirst : evaluation.run.run [] with ⟨error | value, now⟩
  · rw [hfirst] at hrun
    simp only [outcome, hrun, hfirst, Except.bind]
  · rw [hfirst] at hrun
    simp only [outcome, hrun, hfirst, Except.bind]
    exact hnext value now

theorem Steady.bind (h : evaluation.Steady) (hnext : ∀ value, (next value).Steady) :
    (evaluation >>= next).Steady := by
  intro past
  have hresult := h past
  rw [result_bind hnext, run_bind]
  rcases hfirst : evaluation.run.run past with ⟨error | value, now⟩
  · rw [hfirst] at hresult
    rw [← hresult]
    rfl
  · rw [hfirst] at hresult
    rw [← hresult]
    exact hnext value now

end Evaluation

/-- What goes through steps does so whatever was recorded before, so every part
    of the evaluator is steady. -/
theorem Follows.steady {context : Context} {α : Type} {steps : List Step} {value? : Option α}
    {evaluation : Evaluation α} (h : Follows context steps value? evaluation) :
    evaluation.Steady := by
  intro past
  cases h with
  | completes _ _ hrun => simp only [Evaluation.outcome, hrun]
  | stops _ _ _ _ hrun => simp only [Evaluation.outcome, hrun]

section

variable (context : Context)

theorem Context.steady_call (function : Function) (values : List Value) (span : Span) :
    (context.call function values span).Steady := fun _ => rfl

namespace Node

theorem result_symbol (name : String) (span : Span) :
    ((symbol name span).evaluate context).result = .ok (context.symbolValue name) :=
  (result_eq_ok_iff context _ _).mpr (by rw [value?])

theorem result_vector (children : List Node) (span : Span) :
    ((group .square children span).evaluate context).result =
      (AttrExpr.evaluate context children).result.map .list := by
  simp only [evaluate, eval]
  rw [Evaluation.result_bind fun _ _ => rfl]
  simp only [AttrExpr.evaluate]
  cases (evalAll context [] children).outcome.result with
  | error error => rfl
  | ok values => rfl

/-- A call comes to what its function makes of its arguments, if it has a
    function and they have values. The order in which the two are asked for
    decides which failure is seen, and is that of the binds. -/
theorem result_call (head : Node) (arguments : List Node) (span : Span) :
    ((group .round (head :: arguments) span).evaluate context).result =
      (context.callee head).bind fun function =>
        (AttrExpr.evaluate context arguments).result.bind fun values =>
          (context.apply function values).mapError (·.locate span) := by
  -- A result does not depend on what was recorded before, which is being steady.
  have harguments := (follows_values context arguments).steady
  have hcall : ∀ function, (evalAll context [] arguments >>= fun values =>
      context.call function values span).Steady :=
    fun function => harguments.bind fun values => context.steady_call function values span
  simp only [evaluate, eval]
  rw [Evaluation.result_bind hcall]
  congr 1
  funext function
  rw [Evaluation.result_bind fun values => context.steady_call function values span]
  rfl

/-- The values before a sequence are put in front of its own. So the accumulator
    of the evaluator is no part of what a sequence comes to. -/
theorem result_evalAll (before : List Value) (nodes : List Node) :
    (evalAll context before nodes).outcome.result =
      (AttrExpr.evaluate context nodes).result.map (before.reverse ++ ·) := by
  have hfollows := follows_evalAll context before nodes
  rcases hresult : (AttrExpr.evaluate context nodes).result with error | values
  · rw [evaluate_eq_error_iff] at hresult
    exact (hfollows.result_eq_error_iff error).mpr hresult
  · rw [evaluate_eq_ok_iff] at hresult
    exact (hfollows.result_eq_ok_iff _).mpr (by rw [hresult, Option.map_some])

end Node

theorem evaluate_nil : (evaluate context []).result = .ok [] :=
  (evaluate_eq_ok_iff context [] []).mpr rfl

/-- A sequence fails as its first tree does, or else as the others do. -/
theorem evaluate_cons (node : Node) (rest : List Node) :
    (evaluate context (node :: rest)).result =
      (node.evaluate context).result.bind fun value =>
        (evaluate context rest).result.map (value :: ·) := by
  simp only [evaluate, Node.evalAll]
  rw [Evaluation.result_bind fun value => (Node.follows_evalAll context [value] rest).steady]
  congr 1
  funext value
  rw [Node.result_evalAll]
  rfl

/-- A sequence after another fails as the first one does, else as the second
    one does, and otherwise all values are there. The induction is on the first
    sequence, by its equations. -/
theorem evaluate_append (nodes more : List Node) :
    (evaluate context (nodes ++ more)).result =
      (evaluate context nodes).result.bind fun values =>
        (evaluate context more).result.map (values ++ ·) := by
  induction nodes with
  | nil =>
      rw [evaluate_nil, List.nil_append]
      cases (evaluate context more).result with
      | error error => rfl
      | ok values => rfl
  | cons node rest ih =>
      rw [List.cons_append, evaluate_cons, evaluate_cons, ih]
      -- Both sides stop at the first of the three that fails.
      cases (node.evaluate context).result with
      | error error => rfl
      | ok value =>
          cases (evaluate context rest).result with
          | error error => rfl
          | ok values =>
              cases (evaluate context more).result with
              | error error => rfl
              | ok values => rfl

end

end AttrExpr
