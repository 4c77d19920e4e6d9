import AttrExpr.Proofs.Attribute.Several
import AttrExpr.Proofs.Eval.Culprit
import AttrExpr.Proofs.Eval.Names

/-!
# Attributes without a Namespace

What is left of the language where no function has a name.

An attribute without a namespace is evaluated against an empty table. Frames
may still bind functions to names, and such a name is a value like any other:
it can be put into a vector and it can be what the attribute comes to. It cannot
be called, because the head of a call is looked up in the table alone.

So a call is the end of the evaluation, and the first one in reading order is
the one that ends it. A walk looks at the head of a call before it goes into the
call, so it never gets to what is inside. What is wrong can be read off that
call with no regard to what surrounds it, nor to the frames, the policy or the
functions of the caller.

## Main definitions

* `Node.isCall`: The nodes that are calls.
* `Node.refusal`: What is wrong with a call where no name is bound.

## Theorems

* `firstFault?_walkAll_of_unbound`: Where no name is bound the first call fails.
* `not_called_of_unbound`: Where no name is bound nothing is ever called.
* `evaluate_without_namespace`: The attributes without a namespace that have a
  value, and why the others have none.
-/

namespace AttrExpr

namespace Node

/-- Whether the node is a call: a list, whatever is in it. Vectors are not, and
    neither are names that a function is bound to. -/
def isCall : Node → Bool
  | group .round _ _ => true
  | _ => false

/-- What is wrong with a call where no name is bound. A call of nothing is wrong
    itself, and otherwise its head is. -/
def refusal (call : Node) : EvalError :=
  match call.children with
  | [] => ⟨.emptyCall, some call.span⟩
  | head :: _ =>
      match head.symbol? with
      | none => ⟨.nonSymbolCallHead head.kindName, some head.span⟩
      | some name => ⟨.undefinedFunction name, some head.span⟩

end Node

section

variable {context : Context}

/-- No head names a function, so looking at the head of a call always fails.
    Everything in this module comes from this step. -/
theorem fault_enter_of_unbound (hunbound : ∀ name, context.environment.get? name = none)
    (children : List Node) (span : Span) :
    Step.fault? context (.enter children span) =
      some (Node.refusal (.group .round children span)) := by
  cases children with
  | nil => rfl
  | cons head arguments =>
      cases hhead : head.symbol? with
      | none => simp only [Step.fault?, Context.callee, hhead, Node.refusal, Node.children]
      | some name =>
          simp only [Step.fault?, Context.callee, Context.function, hhead, hunbound, Node.refusal,
            Node.children]

namespace Node

mutual

/-- The walk of a tree fails at its first call, the outer one of two. Both the
    walk and the list of nodes go through the tree in preorder, so the first
    failure and the first call are found together. -/
theorem firstFault?_walk_of_unbound (hunbound : ∀ name, context.environment.get? name = none)
    (node : Node) :
    firstFault? context (walk node) = ((subtrees node).find? isCall).map refusal := by
  match node with
  | number value span => rfl
  | string value span => rfl
  | symbol name span => rfl
  | group .square children span =>
      rw [walk, subtrees, List.find?_cons_of_neg Bool.false_ne_true,
        firstFault?_walkAll_of_unbound hunbound children]
  | group .round [] span => rfl
  | group .round (head :: arguments) span =>
      -- The head is looked at before the arguments, which come behind the call here too.
      rw [walk, firstFault?_cons, fault_enter_of_unbound hunbound, Option.some_or, subtrees,
        List.find?_cons_of_pos rfl, Option.map_some]

/-- The walk of trees fails at the first call in them. -/
theorem firstFault?_walkAll_of_unbound (hunbound : ∀ name, context.environment.get? name = none)
    (nodes : List Node) :
    firstFault? context (walkAll nodes) = ((subtreesAll nodes).find? isCall).map refusal := by
  match nodes with
  | [] => rfl
  | node :: rest =>
      rw [walkAll, subtreesAll, firstFault?_append, firstFault?_walk_of_unbound hunbound node,
        firstFault?_walkAll_of_unbound hunbound rest, List.find?_append, Option.map_or]

end

end Node

variable (hunbound : ∀ name, context.environment.get? name = none) {nodes : List Node}

include hunbound

/-- Trees without a call have values: nothing else in a walk can fail. -/
theorem exists_values_of_unbound (hcall : (Node.subtreesAll nodes).find? Node.isCall = none) :
    ∃ values, (evaluate context nodes).result = .ok values := by
  have hwalk := Node.firstFault?_walkAll_of_unbound hunbound nodes
  rw [hcall] at hwalk
  rcases Node.exists_values_of_walkAll hwalk with ⟨values, hvalues⟩
  exact ⟨values, (evaluate_eq_ok_iff context nodes values).mpr hvalues⟩

/-- Trees with a call fail at the first one, with what is wrong with it where no
    name is bound. -/
theorem result_of_unbound {call : Node}
    (hcall : (Node.subtreesAll nodes).find? Node.isCall = some call) :
    (evaluate context nodes).result = .error call.refusal := by
  have hwalk := Node.firstFault?_walkAll_of_unbound hunbound nodes
  rw [hcall] at hwalk
  exact (evaluate_eq_error_iff context nodes call.refusal).mpr hwalk

/-- Whatever trees are evaluated, nothing is called, since a call would be of
    what the environment holds for some name. -/
theorem not_called_of_unbound (function : Function) (values : List Value) :
    Event.call function values ∉ (evaluate context nodes).events := by
  intro hevent
  rcases callsIn_of_event hevent with ⟨name, _, _, _, _, hname, _⟩
  rw [hunbound] at hname
  cases hname

end

namespace Attribute

open Node

/-- An attribute without a namespace has a value exactly if its text reads and
    holds no call at any depth, whatever the frames bind and whatever the
    policy is. Otherwise it fails as reading does, or for what is wrong with
    the first call of its text, each node being in front of those inside it.
    No function is called on the way. -/
theorem evaluate_without_namespace (host : Host) (namespaces : String → Option Bindings)
    (policy : Fallthrough) (frame : Frame) (directive : Directive) (text : String) :
    let result := evaluate host namespaces policy frame ⟨directive, none, text⟩
    ((∃ value, result = .ok value) ↔
      ∃ nodes, parse text = .ok nodes ∧ ∀ node ∈ subtreesAll nodes, node.isCall = false) ∧
    (∀ e, parse text = .error e → result = .error (.source (.parse e))) ∧
    ∀ nodes, parse text = .ok nodes →
      (∀ call, (subtreesAll nodes).find? isCall = some call →
        result = .error (.source (.eval call.refusal))) ∧
      ∀ function values, Event.call function values ∉
        (AttrExpr.evaluate ⟨host, .empty, frame.options policy policy⟩ nodes).events := by
  intro result
  have henvironment : (Attribute.mk directive none "").environment namespaces = .ok .empty := rfl
  have hunbound : ∀ name, (Context.mk host .empty (frame.options policy policy)).environment.get?
    name = none := Bindings.get?_empty
  have hunread : ∀ e, parse text = .error e → result = .error (.source (.parse e)) := by
    intro e hparse
    simp only [result, evaluate_of_environment henvironment, evaluateSource, hparse]
    rfl
  have hrefused : ∀ nodes call, parse text = .ok nodes →
      (subtreesAll nodes).find? isCall = some call →
        result = .error (.source (.eval call.refusal)) := by
    intro nodes call hparse hcall
    exact (evaluate_eq_error_iff_of_parse henvironment hparse _).mpr
      ⟨_, result_of_unbound hunbound hcall, rfl⟩
  -- Having no call is the same as finding none.
  have hnone : ∀ nodes, (subtreesAll nodes).find? isCall = none ↔
      ∀ node ∈ subtreesAll nodes, node.isCall = false := by
    intro nodes
    simp only [List.find?_eq_none, Bool.not_eq_true]
  have hvalue : (∃ value, result = .ok value) ↔
      ∃ nodes, parse text = .ok nodes ∧ ∀ node ∈ subtreesAll nodes, node.isCall = false := by
    constructor
    · rintro ⟨value, hvalue⟩
      rcases hparse : parse text with e | nodes
      · rw [hunread e hparse] at hvalue
        cases hvalue
      · rcases hcall : (subtreesAll nodes).find? isCall with _ | call
        · exact ⟨nodes, rfl, (hnone nodes).mp hcall⟩
        · rw [hrefused nodes call hparse hcall] at hvalue
          cases hvalue
    · rintro ⟨nodes, hparse, hcalls⟩
      rcases exists_values_of_unbound hunbound ((hnone nodes).mpr hcalls) with ⟨values, hvalues⟩
      exact ⟨_, (evaluate_eq_ok_iff_of_parse henvironment hparse _).mpr ⟨values, hvalues, rfl⟩⟩
  exact ⟨hvalue, hunread, fun nodes hparse =>
    ⟨fun call => hrefused nodes call hparse, not_called_of_unbound hunbound⟩⟩

/-- A frame binds a name to a function. By itself the name is that function, but
    it cannot be called, not even in front of a call of nothing. -/
theorem evaluate_without_namespace_function :
    let frame := Frame.root.bind "f" (.function (.builtin 0 .count))
    let alone := fun text => evaluate .none (fun _ => none) .absent frame ⟨.text, none, text⟩
    let call : Node := .group .round [.symbol "f" ⟨4, 5⟩, .group .round [] ⟨6, 8⟩] ⟨3, 9⟩
    let nodes : List Node := [.group .square [.symbol "f" ⟨1, 2⟩, call] ⟨0, 10⟩]
    parse "[f (f ())]" = .ok nodes ∧ (subtreesAll nodes).find? isCall = some call ∧
      alone "[f (f ())]" = .error (.source (.eval ⟨.undefinedFunction "f", some ⟨4, 5⟩⟩)) ∧
      ∃ value, alone "f" = .ok value := by
  intro frame alone call nodes
  have hparse : parse "[f (f ())]" = .ok nodes := by rfl
  have hcall : (subtreesAll nodes).find? isCall = some call := rfl
  have hname : parse "f" = .ok [.symbol "f" ⟨0, 1⟩] := by rfl
  -- The outer call comes before the inner one, and behind the name that is no call.
  have hrefused := evaluate_without_namespace .none (fun _ => none) .absent frame .text "[f (f ())]"
  have halone := evaluate_without_namespace .none (fun _ => none) .absent frame .text "f"
  exact ⟨hparse, hcall, (hrefused.2.2 nodes hparse).1 call hcall,
    halone.1.mpr ⟨_, hname, List.forall_mem_singleton.mpr rfl⟩⟩

end Attribute

end AttrExpr
