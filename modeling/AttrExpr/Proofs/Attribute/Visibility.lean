import AttrExpr.Attribute.Evaluate
import AttrExpr.Proofs.Eval.Names
import AttrExpr.Proofs.Eval.Result

/-!
# Visible Bindings

What an expression can see of the frames around it.

Of all bindings of a name in a chain of frames at most one can be seen: the
nearest one that the policy keeps. A frame of its own with just these bindings
would do as well, and that is what `Frame.collapse` makes of a chain, putting
the tables over each other from the outside in.

The policy is applied twice, to the bindings on the way through the chain and
to what comes out of it before the table is asked. The second time never
changes anything, because what came out was kept the first time. So a collapsed
frame can be evaluated under either policy: what one of them drops was left out
already.

It follows that a binding that cannot be seen has no effect on any expression,
and that a symbol is its visible binding, else what the table holds, else nil.

## Main definitions

* `Frame.Visible`: The binding of a name that can be seen from a frame.
* `Bindings.collapse`, `Frame.collapse`: The visible bindings in one table and
  in one frame.

## Theorems

* `infer_eq_some_iff`: A frame finds the visible binding.
* `get?_collapse`: A collapsed frame holds what the chain finds.
* `evaluateSource_of_infer`: Frames that find the same for the names of a text
  evaluate it alike.
* `evaluate_of_infer`: Frames that find the same for the names of an attribute
  evaluate it alike.
* `evaluate_collapse`: An attribute comes to the same in the collapsed frame.
-/

namespace AttrExpr

namespace Bindings

/-- A lookup finds exactly the pairs that are there, if no name is there twice.
    Tables keep that by construction. -/
theorem lookup_eq_some_iff_mem {pairs : List (String × Value)}
    (hnodup : (pairs.map Prod.fst).Nodup) (name : String) (value : Value) :
    pairs.lookup name = some value ↔ (name, value) ∈ pairs := by
  rw [List.lookup_eq_some_iff]
  constructor
  · rintro ⟨before, after, hpairs, _⟩
    rw [hpairs]
    exact List.mem_append_right _ List.mem_cons_self
  · intro hmem
    rcases List.append_of_mem hmem with ⟨before, after, rfl⟩
    -- No other pair has the name, so none in front does.
    have hfirst : ∀ pair ∈ before, (name != pair.1) = true := by
      intro pair hpair
      refine bne_iff_ne.mpr ?_
      rintro rfl
      rw [List.map_append, List.map_cons, List.nodup_append] at hnodup
      exact hnodup.2.2 _ (List.mem_map_of_mem hpair) _ List.mem_cons_self rfl
    exact ⟨before, after, rfl, hfirst⟩

/-- Putting the kept bindings of a table over another table. A name is then
    bound as the first table has it, if that is kept, and as the other has it
    otherwise. -/
theorem get?_insertAll_kept (policy : Fallthrough) (seen table : Bindings) (name : String) :
    (seen.insertAll (table.pairs.filter fun pair => policy.keeps pair.2)).get? name =
      ((table.get? name).filter policy.keeps).or (seen.get? name) := by
  -- The kept pairs have different names, so it does not matter which is inserted last.
  have hkept : ((table.pairs.filter fun pair => policy.keeps pair.2).reverse.map
      Prod.fst).Nodup := by
    rw [List.map_reverse, List.nodup_reverse]
    exact table.nodup.sublist (List.filter_sublist.map Prod.fst)
  rw [get?_insertAll]
  congr 1
  ext value
  rw [lookup_eq_some_iff_mem hkept, List.mem_reverse, List.mem_filter, Option.filter_eq_some_iff,
    get?, lookup_eq_some_iff_mem table.nodup]

/-- The kept bindings of several tables in one, those of the first table in
    place of those of the others. -/
def collapse (policy : Fallthrough) : List Bindings → Bindings
  | [] => .empty
  | table :: rest =>
      (collapse policy rest).insertAll (table.pairs.filter fun pair => policy.keeps pair.2)

/-- The one table holds what a search through the tables finds. -/
theorem get?_collapse (policy : Fallthrough) (tables : List Bindings) (name : String) :
    (collapse policy tables).get? name =
      tables.findSome? fun table => (table.get? name).filter policy.keeps := by
  induction tables with
  | nil => rfl
  | cons table rest ih =>
      rw [collapse, get?_insertAll_kept, ih, List.findSome?_cons]
      cases (table.get? name).filter policy.keeps with
      | none => rfl
      | some value => rfl

end Bindings

namespace Frame

/-- The binding of a name that can be seen from a frame: it is kept, and no
    binding further in is. There is at most one, since it is stated of the
    first table that has a kept binding. -/
def Visible (policy : Fallthrough) (frame : Frame) (name : String) (value : Value) : Prop :=
  ∃ inner table rest, frame.own :: frame.outer = inner ++ table :: rest ∧
    table.get? name = some value ∧ policy.keeps value = true ∧
    ∀ nearer ∈ inner, ∀ hidden, nearer.get? name = some hidden → policy.keeps hidden = false

/-- A frame that nothing is around, with the bindings of a chain that are kept,
    nearer ones in place of those further out. -/
def collapse (policy : Fallthrough) (frame : Frame) : Frame :=
  ⟨Bindings.collapse policy (frame.own :: frame.outer), []⟩

section

variable (policy : Fallthrough) (frame : Frame) (name : String)

/-- A frame finds what can be seen from it: the search is for the first table
    with a kept binding, and that is what `Visible` says. -/
theorem infer_eq_some_iff (value : Value) :
    frame.infer policy name = some value ↔ frame.Visible policy name value := by
  rw [infer, List.findSome?_eq_some_iff]
  simp only [Visible, Option.filter_eq_some_iff, Option.filter_eq_none_iff, and_assoc,
    Bool.not_eq_true]

theorem infer_eq_none_iff :
    frame.infer policy name = none ↔ ∀ value, ¬ frame.Visible policy name value := by
  simp only [← infer_eq_some_iff]
  exact Option.eq_none_iff_forall_ne_some

/-- What a frame finds is kept, so keeping it again makes no difference, under
    the same policy or under one that keeps as much. -/
theorem filter_infer {policy' : Fallthrough}
    (hkeeps : ∀ value, policy.keeps value = true → policy'.keeps value = true) :
    (frame.infer policy name).filter policy'.keeps = frame.infer policy name := by
  cases hfound : frame.infer policy name with
  | none => rfl
  | some value =>
      rcases (infer_eq_some_iff policy frame name value).mp hfound with ⟨_, _, _, _, _, hkept, _⟩
      rw [Option.filter_some, if_pos (hkeeps value hkept)]

/-- A collapsed frame holds what the chain finds. -/
theorem get?_collapse : (frame.collapse policy).get? name = frame.infer policy name :=
  Bindings.get?_collapse policy (frame.own :: frame.outer) name

/-- A collapsed frame finds what the chain finds, under any policy that keeps as
    much. Nothing is around it, so it finds what it holds and the policy keeps,
    and what it holds was kept. -/
theorem infer_collapse {policy' : Fallthrough}
    (hkeeps : ∀ value, policy.keeps value = true → policy'.keeps value = true) :
    (frame.collapse policy).infer policy' name = frame.infer policy name := by
  have hown : (frame.collapse policy).own.get? name = frame.infer policy name :=
    get?_collapse policy frame name
  rw [infer, show (frame.collapse policy).outer = [] from rfl, List.findSome?_cons, hown,
    filter_infer policy frame name hkeeps, List.findSome?_nil]
  cases frame.infer policy name with
  | none => rfl
  | some value => rfl

end

end Frame

/-- A symbol is the visible binding of its name, else what the table holds. The
    policy of the walk and that of the lookup are the same one here, so the
    second asks nothing new. -/
theorem symbolValue_options (host : Host) (environment : Bindings) (policy : Fallthrough)
    (frame : Frame) (name : String) :
    Context.symbolValue ⟨host, environment, frame.options policy policy⟩ name =
      ((frame.infer policy name).or (environment.get? name)).getD .nil := by
  simp only [Context.symbolValue, Options.resolve, Frame.options, Option.bind_some,
    Frame.filter_infer policy frame name fun _ h => h]

/-- A text comes to the same in frames in which the names that it mentions are
    found to be the same. What the frames are otherwise does not matter, nor
    what the policy of the lookup makes of what is found. -/
theorem evaluateSource_of_infer (host : Host) (environment : Bindings) (walk policy : Fallthrough)
    {frame other : Frame} {source : String}
    (h : ∀ name, Mentions source name → frame.infer walk name = other.infer walk name) :
    evaluateSource ⟨host, environment, frame.options walk policy⟩ source =
      evaluateSource ⟨host, environment, other.options walk policy⟩ source := by
  refine evaluateSource_congr (by rfl) (fun name hname => ?_) fun _ => rfl
  exact Context.lookUp_congr host policy (congrArg some (h name hname)) rfl

namespace Attribute

variable (host : Host) (namespaces : String → Option Bindings)

/-- Frames in which the names that an attribute mentions are found to be the same
    are the same to that attribute. The frames may be walked under two different
    policies, as for a chain and the frame it is collapsed to, so the lemma about
    texts, whose policies are fixed, does not give this one. -/
theorem evaluate_of_infer {policy policy' : Fallthrough} {frame other : Frame} {attr : Attribute}
    (h : ∀ name, Mentions attr.value name →
      frame.infer policy name = other.infer policy' name) :
    attr.evaluate host namespaces policy frame = attr.evaluate host namespaces policy' other := by
  have hsource : ∀ environment,
      evaluateSource ⟨host, environment, frame.options policy policy⟩ attr.value =
        evaluateSource ⟨host, environment, other.options policy' policy'⟩ attr.value := by
    intro environment
    refine evaluateSource_congr (by rfl) (fun name hname => ?_) fun _ => rfl
    simp only [Context.lookUp, symbolValue_options, h name hname]
    rfl
  simp only [evaluate, hsource]

/-- An attribute has the same value or the same error in a chain of frames as
    in one frame that binds what can be seen of the chain. Where bindings that
    count as false give way, that frame can be evaluated with or without them
    giving way again. A symbol is the binding that can be seen, else what the
    table holds, else nil, and nothing else of the chain has any effect. -/
theorem evaluate_collapse (policy : Fallthrough) (frame : Frame) (attr : Attribute) :
    ((frame.collapse policy).parent? = none ∧ ∀ name value,
      (frame.collapse policy).get? name = some value ↔ frame.Visible policy name value) ∧
    attr.evaluate host namespaces policy frame =
      attr.evaluate host namespaces policy (frame.collapse policy) ∧
    attr.evaluate host namespaces .falsy frame =
      attr.evaluate host namespaces .absent (frame.collapse .falsy) ∧
    (∀ environment name span,
      (∀ value, frame.Visible policy name value →
        ((Node.symbol name span).evaluate
          ⟨host, environment, frame.options policy policy⟩).result = .ok value) ∧
      ((∀ value, ¬ frame.Visible policy name value) →
        ((Node.symbol name span).evaluate
          ⟨host, environment, frame.options policy policy⟩).result =
            .ok ((environment.get? name).getD .nil))) ∧
    ∀ other : Frame,
      (∀ name value, other.Visible policy name value ↔ frame.Visible policy name value) →
      attr.evaluate host namespaces policy other = attr.evaluate host namespaces policy frame := by
  refine ⟨⟨rfl, ?_⟩, ?_, ?_, ?_, ?_⟩
  · -- The collapsed frame holds the visible bindings.
    intro name value
    rw [Frame.get?_collapse, Frame.infer_eq_some_iff]
  · exact evaluate_of_infer host namespaces
      fun name _ => (Frame.infer_collapse policy frame name fun _ h => h).symm
  · -- What counts as false was left out already, so nothing is left to give way.
    exact evaluate_of_infer host namespaces
      fun name _ => (Frame.infer_collapse .falsy frame name fun _ _ => rfl).symm
  · intro environment name span
    constructor
    · intro value hvisible
      rw [Node.result_symbol, symbolValue_options,
        (Frame.infer_eq_some_iff policy frame name value).mpr hvisible, Option.some_or,
        Option.getD_some]
    · intro hhidden
      rw [Node.result_symbol, symbolValue_options,
        (Frame.infer_eq_none_iff policy frame name).mpr hhidden, Option.none_or]
  · -- Chains with the same visible bindings find the same for every name.
    intro other hsame
    have hfound : ∀ name, other.infer policy name = frame.infer policy name := by
      intro name
      ext value
      rw [Frame.infer_eq_some_iff, Frame.infer_eq_some_iff, hsame]
    exact evaluate_of_infer host namespaces fun name _ => hfound name

/-- An empty string between two elements gives way to the binding around it,
    but the zero of the innermost one hides nothing and is gone. -/
theorem evaluate_collapse_chain :
    let frame := ((Frame.root.bind "x" (.number (.int 5))).child.bind "x" (.str "")).child.bind "y"
      (.number (.int 0))
    let attr : Attribute := ⟨.text, none, "[x y]"⟩
    frame.Visible .falsy "x" (.number (.int 5)) ∧
    ((Node.symbol "x" ⟨1, 2⟩).evaluate ⟨.none, .empty, frame.options .falsy .falsy⟩).result =
      .ok (.number (.int 5)) ∧
    attr.evaluate .none (fun _ => none) .falsy frame =
      attr.evaluate .none (fun _ => none) .absent (frame.collapse .falsy) ∧
    attr.evaluate .none (fun _ => none) .absent (frame.collapse .falsy) =
      .ok (.list [.number (.int 5), .nil]) := by
  intro frame attr
  have hvisible : frame.Visible .falsy "x" (.number (.int 5)) :=
    (Frame.infer_eq_some_iff .falsy frame "x" _).mp (by rfl)
  rcases evaluate_collapse .none (fun _ => none) .falsy frame attr with
    ⟨_, _, hsame, hsymbol, _⟩
  have hparse : parse "[x y]" =
      .ok [.group .square [.symbol "x" ⟨1, 2⟩, .symbol "y" ⟨3, 4⟩] ⟨0, 5⟩] := by rfl
  -- The chain is evaluated as it is, and the collapsed frame comes to the same.
  have hvalue : attr.evaluate .none (fun _ => none) .absent (frame.collapse .falsy) =
      .ok (.list [.number (.int 5), .nil]) := by
    rw [← hsame]
    simp only [evaluate, environment, evaluateSource, attr, hparse]
    rfl
  exact ⟨hvisible, (hsymbol .empty "x" ⟨1, 2⟩).1 _ hvisible, hsame, hvalue⟩

end Attribute

end AttrExpr
