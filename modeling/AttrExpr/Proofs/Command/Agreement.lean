import AttrExpr.Command.Run
import AttrExpr.Proofs.Attribute.Naming
import AttrExpr.Proofs.Decimal.ReadBack
import AttrExpr.Proofs.Eval.Names
import AttrExpr.Proofs.Node.ReadBack

/-!
# Agreement of the Commands

Whether a `text` attribute shows what its expression prints on the command
line.

Both commands evaluate against the standard functions, and both resolve
symbols through the frame of the bindings first. They differ in what they make
of a binding that counts as false. To an attribute it is a binding. On the
command line it gives way to a standard function of its name, and if there is
none, to nil; so it does in the bindings that come after it. `Kept` says which
bindings do not fall victim to that, and the commands agree on all texts
exactly if all bindings are kept.

That they agree then is because an evaluation depends on the names it resolves
only. That they do not agree otherwise has to be seen in what is shown. By
itself an empty text is shown like nil, but in a list no value that counts as
false is, so the vector of a symbol tells its binding from anything that comes
instead.

## Main definitions

* `Command.attributeContext`: How the value of an attribute is evaluated.
* `Command.Kept`: Whether a binding is what a symbol of its name yields.
* `Command.printed`: The values that `eval` prints.
* `Command.Agree`: An attribute shows the first of the printed values.

## Theorems

* `Attribute.read_text`: The name of a `text` attribute with a namespace.
* `bindLets_cons_eq_ok_iff`: Bindings are recorded one after the other.
* `displayAt_of_falsy`: How values that count as false are shown in a list.
* `symbolValue_cases`: A binding that is not kept is shown differently.
* `evaluateSource_of_kept`: The two ways to evaluate are one if all bindings are
  kept.
* `agree_iff_kept`: The commands agree exactly then.
-/

namespace AttrExpr

open Parse

/-! ## Reading the name of an attribute -/

namespace Attribute

/-- A namespace key without a colon is read as it is. A colon would end the key
    and begin a further segment, which is ignored, so with one the attribute
    would ask for a shorter namespace than the one that was meant. -/
theorem read_text {key : String} (hkey : key ≠ "") (hcolon : ':' ∉ key.toList) (value : String) :
    read ("b-text:" ++ key) value = .ok ⟨.text, some key, value⟩ := by
  have hne : key.toList ≠ [] := fun h => hkey (String.toList_eq_nil_iff.mp h)
  -- Behind the directive there is one segment, the key, and nothing after it.
  have htail : Selects (':' :: key.toList) (some key) := by
    have hselects := Selects.key hne hcolon (Or.inl rfl)
    rwa [List.append_nil, String.ofList_toList] at hselects
  refine read_of_selects value ?_ htail
  rw [String.toList_append]
  rfl

end Attribute

/-! ## Symbols in a text -/

namespace Node

mutual

/-- A name that an evaluation of the tree looks up stands at one of its leaves,
    so whatever is known of the leaves of a text that was read is known of the
    names in it. The heads of calls are leaves too, but they are no such names,
    and nothing is said of them. -/
theorem mem_leaves_of_bareNames (node : Node) {name : String} (h : name ∈ bareNames node) :
    ∃ span, symbol name span ∈ leaves node := by
  match node with
  | number value span =>
      rw [bareNames] at h
      exact absurd h List.not_mem_nil
  | string value span =>
      rw [bareNames] at h
      exact absurd h List.not_mem_nil
  | symbol other span =>
      rw [bareNames, List.mem_singleton] at h
      exact ⟨span, by rw [h]; exact List.mem_singleton.mpr rfl⟩
  | group .square children span =>
      rw [bareNames] at h
      exact mem_leavesAll_of_bareNames children h
  | group .round [] span =>
      rw [bareNames] at h
      exact absurd h List.not_mem_nil
  | group .round (head :: arguments) span =>
      -- The head has leaves in front, and the name is behind them.
      rw [bareNames] at h
      rcases mem_leavesAll_of_bareNames arguments h with ⟨span, hmem⟩
      exact ⟨span, List.mem_append_right _ hmem⟩

theorem mem_leavesAll_of_bareNames (nodes : List Node) {name : String}
    (h : name ∈ bareNamesAll nodes) : ∃ span, symbol name span ∈ leavesAll nodes := by
  match nodes with
  | [] =>
      rw [bareNamesAll] at h
      exact absurd h List.not_mem_nil
  | node :: rest =>
      rw [bareNamesAll, List.mem_append] at h
      rcases h with h | h
      · rcases mem_leaves_of_bareNames node h with ⟨span, hmem⟩
        exact ⟨span, List.mem_append_left _ hmem⟩
      · rcases mem_leavesAll_of_bareNames rest h with ⟨span, hmem⟩
        exact ⟨span, List.mem_append_right _ hmem⟩

end

/-- What was read looks names up only: every symbol that an evaluation of it
    resolves could be written by itself. -/
theorem symbolToken_of_mem_bareNames {source : String} {nodes : List Node}
    (hparse : parse source = .ok nodes) {name : String} (h : name ∈ bareNamesAll nodes) :
    SymbolToken name.toList := by
  rcases mem_leavesAll_of_bareNames nodes h with ⟨span, hleaf⟩
  exact plainLeaf_of_sequence (parse_eq_ok_iff_ofRange.mp hparse) _ hleaf

end Node

section

variable {name : String} (hname : SymbolToken name.toList)

include hname

/-- A name by itself writes a symbol, wherever it stands. -/
theorem sequence_symbol (start : Nat) :
    ∃ span, Sequence Span.ofRange start name.toList [.symbol name span] := by
  have hleaf : Leaf (Span.ofRange start (start + Text.byteLength name.toList)) name.toList []
      (.symbol (String.ofList name.toList) _) := Leaf.symbol hname tokenEnds_nil
  have hsequence := Sequence.leaf hleaf (Sequence.nil _)
  rw [List.append_nil, String.ofList_toList] at hsequence
  exact ⟨_, hsequence⟩

theorem parse_symbol : ∃ span, parse name = .ok [.symbol name span] := by
  rcases sequence_symbol hname 0 with ⟨span, hsequence⟩
  exact ⟨span, parse_eq_ok_iff_ofRange.mpr hsequence⟩

theorem parse_vector : ∃ inner outer,
    parse ("[" ++ name ++ "]") = .ok [.group .square [.symbol name inner] outer] := by
  rcases sequence_symbol hname (0 + 1) with ⟨inner, hbody⟩
  have hgroup := Sequence.group .square hbody (Sequence.nil _)
  have htext : ("[" ++ name ++ "]").toList =
      Bracket.square.opening :: (name.toList ++ [Bracket.square.closing]) := by
    rw [String.toList_append, String.toList_append, List.append_assoc]
    rfl
  rw [← htext] at hgroup
  exact ⟨inner, _, parse_eq_ok_iff_ofRange.mpr hgroup⟩

/-- A name by itself comes to what a symbol of that name comes to, in any
    context. -/
theorem evaluateSource_symbol (context : Context) :
    evaluateSource context name = .ok [context.symbolValue name] := by
  rcases parse_symbol hname with ⟨span, hparse⟩
  have hvalues := (evaluate_eq_ok_iff context [.symbol name span] _).mpr rfl
  rw [evaluateSource, hparse]
  simp only [hvalues]
  rfl

/-- Between square brackets a name comes to a list of that, which is shown with
    the shape of its item and not as if the item stood alone. -/
theorem evaluateSource_vector (context : Context) :
    evaluateSource context ("[" ++ name ++ "]") = .ok [.list [context.symbolValue name]] := by
  rcases parse_vector hname with ⟨inner, outer, hparse⟩
  have hvalues :=
    (evaluate_eq_ok_iff context [.group .square [.symbol name inner] outer] _).mpr rfl
  rw [evaluateSource, hparse]
  simp only [hvalues]
  rfl

end

/-! ## Values that count as false -/

open Float.Model.UnpackedFloat in
/-- A float that counts as false is one of the zeros or no number, and these are
    the only three texts such a float is shown with. -/
theorem shown_of_falsy {x : Float} (h : (Number.float x).isTruthy = false) :
    (Number.float x).shown ∈ ["0", "-0", "NaN"] := by
  -- Equality with zero is decided on the unpacked forms.
  have hzero : Binary64.unpacked 0.0 = .zero .positive := by
    have hform : (0.0 : Float) = Binary64.packed (.zero .positive) := by decide
    rw [hform]
    exact Binary64.unpacked_packed trivial
  rw [Number.isTruthy, Bool.and_eq_false_iff, Bool.not_eq_false', bne,
    Bool.not_eq_false'] at h
  rcases h with hbeq | hnan
  · have hbeq : (Binary64.unpacked x).beq (Binary64.unpacked 0.0) = true := hbeq
    rw [hzero] at hbeq
    rw [← Binary64.packed_unpacked x]
    -- Of the four forms only the zeros are equal to zero.
    cases hform : Binary64.unpacked x with
    | zero sign =>
        cases sign with
        | positive | negative => decide +kernel
    | notANumber =>
        rw [hform] at hbeq
        cases hbeq
    | infinity sign | finite sign =>
        rw [hform] at hbeq
        cases sign with
        | positive | negative => cases hbeq
  · rw [Number.shown, Decimal.Layout.float, if_pos hnan]
    decide

namespace Value

/-- In a list a value that counts as false cannot be taken for nil, nor for a
    function. Alone it could: the empty text is shown as nothing then, and so is
    nil, which is why the commands are told apart by a vector. -/
theorem displayAt_of_falsy {value : Value} (h : value.isTruthy = false) :
    value = .nil ∨ displayAt .inList value ∈ ["false", "0", "-0", "NaN", "\"\""] := by
  cases value with
  | nil => exact Or.inl rfl
  | bool value =>
      rw [isTruthy] at h
      rw [h]
      exact Or.inr (by decide)
  | number value =>
      rw [displayAt]
      cases value with
      | int value =>
          rw [isTruthy, Number.isTruthy, bne_eq_false_iff_eq] at h
          rw [h]
          exact Or.inr (by decide)
      | float value =>
          -- The texts of such floats are in the list, only not at its beginning.
          rcases List.mem_cons.mp (shown_of_falsy h) with hshown | hshown
          · rw [hshown]
            exact Or.inr (by decide)
          · exact Or.inr (List.mem_cons_of_mem _ (List.mem_cons_of_mem _
              (List.mem_append_left ["\"\""] hshown)))
  | str value =>
      rw [isTruthy, bne_eq_false_iff_eq] at h
      rw [h]
      exact Or.inr (by decide)
  | list items => cases h
  | function value => cases h

/-- Functions are shown in angle brackets, and nothing that counts as false
    is. -/
theorem displayAt_function (function : Function) :
    (displayAt .inList (.function function)).toList.head? = some '<' := by
  rw [displayAt, String.toList_append, String.toList_append]
  rfl

end Value

/-! ## Names -/

/-- The standard table holds nothing but functions, so where a binding gives way
    to a standard name, what comes instead is a function. -/
theorem Bindings.function_of_get?_standard {copy : Nat} {name : String} {held : Value}
    (h : (standard copy).get? name = some held) : ∃ function, held = .function function := by
  rw [standard, ofList, get?_insertAll, get?_empty, Option.or_none, List.lookup_eq_some_iff] at h
  rcases h with ⟨before, after, hpairs, _⟩
  have hmem : (name, held) ∈ (Builtin.all.map fun operation =>
      (operation.name, Value.function (.builtin copy operation))).reverse := by
    rw [hpairs]
    exact List.mem_append_right _ List.mem_cons_self
  rcases List.mem_map.mp (List.mem_reverse.mp hmem) with ⟨operation, _, hpair⟩
  cases hpair
  exact ⟨_, rfl⟩

namespace Frame

/-- What an element binds itself hides the bindings around it, if falsy ones
    count. -/
theorem infer_of_get? {frame : Frame} {name : String} {value : Value}
    (h : frame.get? name = some value) : frame.infer .absent name = some value := by
  have hown : frame.own.get? name = some value := h
  rw [infer, List.findSome?_cons, hown]
  rfl

/-- Where nothing is around an element, all that can be found is what it binds
    itself. The command line has one frame and no more. -/
theorem get?_of_infer {frame : Frame} (houter : frame.outer = []) {name : String} {value : Value}
    (h : frame.infer .absent name = some value) : frame.get? name = some value := by
  rw [infer, houter, List.findSome?_cons, List.findSome?_nil] at h
  change frame.own.get? name = some value
  cases hown : frame.own.get? name with
  | none =>
      rw [hown] at h
      cases h
  | some held =>
      rw [hown] at h
      exact h

end Frame

namespace Command

/-- How the value of an attribute is evaluated: as on the command line, except
    that a binding is a binding whatever its value. -/
def attributeContext (frame : Frame) : Context :=
  ⟨.none, functions, frame.options .absent .absent⟩

/-- A binding that a symbol of its name yields: it counts as true, or it is nil
    and there is no standard function to come instead. In the second case the
    binding gives way as well, but to nil, so nothing is to be seen of it. -/
def Kept (name : String) (value : Value) : Prop :=
  value.isTruthy = true ∨ value = .nil ∧ functions.get? name = none

/-- The values that `eval` prints. The command itself comes to a text, from which
    the values could not be told apart any more. -/
def printed (source : String) (lets : List LetBinding) : Except CommandError (List Value) :=
  match bindLets .root lets with
  | .error error => .error error
  | .ok frame => (evaluateSource (context frame) source).mapError .source

/-- The text of values, one a line. -/
def lines (values : List Value) : String :=
  String.join (values.map fun value => value.display ++ "\n")

theorem eval_eq_lines (source : String) (lets : List LetBinding) :
    eval source lets = (printed source lets).map lines := by
  rw [eval, printed]
  rcases bindLets .root lets with error | frame
  · rfl
  · simp only
    cases evaluateSource (context frame) source with
    | error error => rfl
    | ok values => rfl

/-- The commands agree on a text: a `text` attribute of the namespace can be
    shown exactly if the text can be printed, and it shows the first of the
    printed values. It is said for every output, so that it also covers the case
    in which one of the commands fails. -/
def Agree (key source : String) (lets : List LetBinding) : Prop :=
  ∀ output, attr ("b-text:" ++ key) source lets = .ok output ↔
    ∃ first rest, printed source lets = .ok (first :: rest) ∧
      eval source lets = .ok (lines (first :: rest)) ∧
      output = "text: " ++ first.display ++ "\n"

/-- What the attribute command comes to for a `text` attribute: its context is
    the one of `attributeContext`, and the value it shows is the first one. -/
theorem attr_text {key : String} (hkey : key ≠ "") (hcolon : ':' ∉ key.toList) (source : String)
    {lets : List LetBinding} {frame : Frame} (hlets : bindLets .root lets = .ok frame) :
    attr ("b-text:" ++ key) source lets =
      match evaluateSource (attributeContext frame) source with
      | .error error => .error (.attr (.source error))
      | .ok values => .ok ("text: " ++ (Value.first values).display ++ "\n") := by
  rw [attr, hlets, Attribute.read_text hkey hcolon]
  simp only [Attribute.evaluate, Attribute.environment, Attribute.defaultPolicy, attributeContext]
  cases evaluateSource _ source with
  | error error => rfl
  | ok values => rfl

/-! ## What a symbol comes to -/

section

variable {frame : Frame} {name : String} {value : Value}

theorem symbolValue_unbound (h : frame.infer .absent name = none) :
    (context frame).symbolValue name = (attributeContext frame).symbolValue name := by
  simp only [Context.symbolValue, Options.resolve, context, attributeContext, Frame.options,
    Option.bind_some, h, Option.filter_none]

section

variable (h : frame.infer .absent name = some value)

include h

theorem symbolValue_attributeContext : (attributeContext frame).symbolValue name = value := by
  simp only [Context.symbolValue, Options.resolve, attributeContext, Frame.options,
    Option.bind_some, h, Option.filter_some, Fallthrough.keeps, if_true, Option.some_or,
    Option.getD_some]

theorem symbolValue_of_truthy (htruthy : value.isTruthy = true) :
    (context frame).symbolValue name = value := by
  simp only [Context.symbolValue, Options.resolve, context, Frame.options, Option.bind_some, h,
    Option.filter_some, Fallthrough.keeps, htruthy, if_true, Option.some_or, Option.getD_some]

/-- On the command line a binding that counts as false is passed over, and the
    name is looked up among the standard functions as if it had none. -/
theorem symbolValue_of_falsy (hfalsy : value.isTruthy = false) :
    (context frame).symbolValue name = (functions.get? name).getD .nil := by
  simp only [Context.symbolValue, Options.resolve, context, Frame.options, Option.bind_some, h,
    Option.filter_some, Fallthrough.keeps, hfalsy, Bool.false_eq_true, if_false, Option.none_or]

/-- A symbol yields its binding exactly if that is kept. Otherwise it even
    shows a different text in a list, which is what makes the difference
    visible in the output of a command. -/
theorem symbolValue_cases : (Kept name value ∧ (context frame).symbolValue name = value) ∨
    ¬ Kept name value ∧ Value.displayAt .inList ((context frame).symbolValue name) ≠
      Value.displayAt .inList value := by
  cases htruthy : value.isTruthy with
  | true => exact Or.inl ⟨Or.inl htruthy, symbolValue_of_truthy h htruthy⟩
  | false =>
      rw [symbolValue_of_falsy h htruthy]
      have hdisplay := Value.displayAt_of_falsy htruthy
      rcases hfound : functions.get? name with _ | held
      · -- Nil comes instead, which is no matter if it was bound to nil.
        rw [Option.getD_none]
        rcases hdisplay with rfl | hmem
        · exact Or.inl ⟨Or.inr ⟨rfl, hfound⟩, rfl⟩
        · right
          constructor
          · rintro (hkept | ⟨rfl, _⟩)
            · rw [htruthy] at hkept
              cases hkept
            · revert hmem
              decide
          · -- Nil is shown with a text that no other falsy value has.
            intro hsame
            rw [← hsame] at hmem
            revert hmem
            decide
      · -- A function comes instead.
        rcases Bindings.function_of_get?_standard hfound with ⟨function, rfl⟩
        right
        constructor
        · rintro (hkept | ⟨_, hnone⟩)
          · rw [htruthy] at hkept
            cases hkept
          · rw [hfound] at hnone
            cases hnone
        · intro hsame
          have hhead := Value.displayAt_function function
          rw [Option.getD_some] at hsame
          rw [hsame] at hhead
          -- Its text begins with a bracket, and that of a falsy value does not.
          rcases hdisplay with rfl | hmem
          · revert hhead
            decide
          · have hall : ∀ text ∈ ["false", "0", "-0", "NaN", "\"\""],
                text.toList.head? ≠ some '<' := by decide
            exact hall _ hmem hhead

/-- A symbol yields its binding on the command line exactly if that is kept. -/
theorem symbolValue_eq_iff_kept : (context frame).symbolValue name = value ↔ Kept name value := by
  rcases symbolValue_cases h with ⟨hkept, hsame⟩ | ⟨hkept, hdiffers⟩
  · exact ⟨fun _ => hkept, fun _ => hsame⟩
  · exact ⟨fun hsame => absurd (by rw [hsame]) hdiffers, fun h => absurd h hkept⟩

end

/-- Where all bindings are kept the two ways to evaluate are one. The contexts
    are not the same even then, since their policies differ, but they answer
    alike for every name that a text can mention. -/
theorem evaluateSource_of_kept
    (hkept : ∀ name value, SymbolToken name.toList → frame.infer .absent name = some value →
      Kept name value) (source : String) :
    evaluateSource (context frame) source = evaluateSource (attributeContext frame) source := by
  have hlookUp : ∀ name, Mentions source name →
      (context frame).lookUp name = (attributeContext frame).lookUp name := by
    rintro name ⟨nodes, hparse, hmem⟩
    have hsame : (context frame).symbolValue name = (attributeContext frame).symbolValue name := by
      rcases hinfer : frame.infer .absent name with _ | value
      · exact symbolValue_unbound hinfer
      · -- What a text mentions is a token, so a binding of it is known to be kept.
        rw [symbolValue_attributeContext hinfer, symbolValue_eq_iff_kept hinfer]
        exact hkept name value (Node.symbolToken_of_mem_bareNames hparse hmem) hinfer
    rw [Context.lookUp, Context.lookUp, hsame]
    rfl
  exact evaluateSource_congr (by rfl) hlookUp fun _ => rfl

end

/-! ## Bindings in order -/

section

variable {frame : Frame} {binding : LetBinding} (rest : List LetBinding)

/-- A binding without a value is the end of the command, and names itself. -/
theorem bindLets_cons_error {error : SourceError}
    (h : evaluateSource (context frame) binding.source = .error error) :
    bindLets frame (binding :: rest) = .error (.inLet binding.name error) := by
  rw [bindLets, h]

theorem bindLets_cons_ok {values : List Value}
    (h : evaluateSource (context frame) binding.source = .ok values) :
    bindLets frame (binding :: rest) =
      bindLets (frame.bind binding.name (Value.first values)) rest := by
  rw [bindLets, h]

end

/-- Bindings are recorded one after the other: the first one has a value, and the
    others go on from the frame in which it is bound to that. Every induction
    over bindings takes its step with this. -/
theorem bindLets_cons_eq_ok_iff {frame last : Frame} {binding : LetBinding}
    {rest : List LetBinding} : bindLets frame (binding :: rest) = .ok last ↔
      ∃ values, evaluateSource (context frame) binding.source = .ok values ∧
        bindLets (frame.bind binding.name (Value.first values)) rest = .ok last := by
  rcases hvalues : evaluateSource (context frame) binding.source with error | values
  · rw [bindLets_cons_error rest hvalues]
    constructor
    · intro h
      cases h
    · rintro ⟨_, h, _⟩
      cases h
  · rw [bindLets_cons_ok rest hvalues]
    constructor
    · exact fun h => ⟨values, rfl, h⟩
    · rintro ⟨_, ⟨⟩, h⟩
      exact h

/-- The bindings of two lists are those of the first one, and then those of the
    second one into the frame they give. -/
theorem bindLets_append (frame : Frame) (before after : List LetBinding) :
    bindLets frame (before ++ after) =
      (bindLets frame before).bind fun held => bindLets held after := by
  induction before generalizing frame with
  | nil => rfl
  | cons binding before ih =>
      rw [List.cons_append]
      rcases hvalues : evaluateSource (context frame) binding.source with error | values
      · rw [bindLets_cons_error _ hvalues, bindLets_cons_error _ hvalues]
        rfl
      · rw [bindLets_cons_ok _ hvalues, bindLets_cons_ok _ hvalues, ih]

/-- Bindings are recorded in one frame, and no frame is put around another. -/
theorem outer_bindLets {frame last : Frame} {lets : List LetBinding}
    (h : bindLets frame lets = .ok last) : last.outer = frame.outer := by
  induction lets generalizing frame with
  | nil =>
      cases h
      rfl
  | cons binding lets ih =>
      rcases bindLets_cons_eq_ok_iff.mp h with ⟨values, _, hrest⟩
      rw [ih hrest, Frame.outer_bind]

/-- Bindings of other names leave a name alone, so what a name is bound to at the
    end is what the last binding of it came to. -/
theorem get?_bindLets {frame last : Frame} {lets : List LetBinding}
    (h : bindLets frame lets = .ok last) {name : String}
    (hother : ∀ binding ∈ lets, binding.name ≠ name) : last.get? name = frame.get? name := by
  induction lets generalizing frame with
  | nil =>
      cases h
      rfl
  | cons binding lets ih =>
      rw [List.forall_mem_cons] at hother
      rcases bindLets_cons_eq_ok_iff.mp h with ⟨values, _, hrest⟩
      rw [ih hrest hother.2, Frame.get?_bind, if_neg (Ne.symm hother.1)]

/-! ## Agreement -/

/-- As many values come out of a text as nodes were read, so from a text that
    writes something there is a first one. A text that writes nothing is left
    out of the agreement: an attribute shows nil for it, and `eval` prints
    nothing at all. -/
theorem exists_first {context : Context} {source : String} {nodes : List Node}
    (hparse : AttrExpr.parse source = .ok nodes) (hne : nodes ≠ []) {values : List Value}
    (h : evaluateSource context source = .ok values) :
    ∃ first rest, values = first :: rest := by
  rw [evaluateSource, hparse] at h
  simp only at h
  rcases hresult : (evaluate context nodes).result with error | found
  · rw [hresult] at h
    cases h
  · rw [hresult] at h
    cases h
    have hvalues :=
      Node.values?_eq_some_iff.mp ((evaluate_eq_ok_iff context nodes values).mp hresult)
    -- There is one value for each node, and there is a node.
    cases values with
    | nil => exact absurd (List.map_eq_nil_iff.mp hvalues) hne
    | cons first rest => exact ⟨first, rest, rfl⟩

theorem printed_of_bindLets {lets : List LetBinding} {frame : Frame}
    (hlets : bindLets .root lets = .ok frame) (source : String) :
    printed source lets = (evaluateSource (context frame) source).mapError .source := by
  rw [printed, hlets]

/-- Without the bindings neither command comes to anything, and so they agree on
    all texts. -/
theorem agree_of_error {lets : List LetBinding} {error : CommandError}
    (hlets : bindLets .root lets = .error error) (key source : String) :
    Agree key source lets := by
  intro output
  rw [attr, printed, hlets]
  constructor
  · intro h
    cases h
  · rintro ⟨_, _, h, _⟩
    cases h

section

variable {key : String} (hkey : key ≠ "") (hcolon : ':' ∉ key.toList) {lets : List LetBinding}

include hkey hcolon

/-- Where all bindings are kept, the commands agree on a text that writes
    something: both evaluate it to the same values, and the first of them is
    there to be shown. -/
theorem agree_of_kept {frame : Frame} (hlets : bindLets .root lets = .ok frame)
    (hkept : ∀ name value, SymbolToken name.toList → frame.infer .absent name = some value →
      Kept name value)
    {source : String} {nodes : List Node} (hparse : AttrExpr.parse source = .ok nodes)
    (hne : nodes ≠ []) : Agree key source lets := by
  intro output
  rw [attr_text hkey hcolon source hlets, eval_eq_lines, printed_of_bindLets hlets,
    ← evaluateSource_of_kept hkept]
  rcases hvalues : evaluateSource (context frame) source with error | values
  · constructor
    · intro h
      cases h
    · rintro ⟨_, _, h, _⟩
      cases h
  · -- What is shown is the first value, in the attribute and by `eval`.
    rcases exists_first hparse hne hvalues with ⟨first, rest, rfl⟩
    simp only [Except.mapError, Except.map, Except.ok.injEq, Value.first, List.head?_cons,
      Option.getD_some]
    constructor
    · rintro rfl
      exact ⟨first, rest, rfl, rfl, rfl⟩
    · rintro ⟨_, _, hsame, _, rfl⟩
      cases hsame
      rfl

/-- The vector of a symbol tells its binding from whatever comes instead, so if
    the commands agree on that one text the binding is kept. -/
theorem kept_of_agree {frame : Frame} (hlets : bindLets .root lets = .ok frame) {name : String}
    (hname : SymbolToken name.toList) {value : Value}
    (hinfer : frame.infer .absent name = some value)
    (h : Agree key ("[" ++ name ++ "]") lets) : Kept name value := by
  have hattr := attr_text hkey hcolon ("[" ++ name ++ "]") hlets
  rw [evaluateSource_vector hname, symbolValue_attributeContext hinfer] at hattr
  rcases (h _).mp hattr with ⟨first, rest, hprinted, _, houtput⟩
  rw [printed_of_bindLets hlets, evaluateSource_vector hname] at hprinted
  cases hprinted
  rcases symbolValue_cases hinfer with ⟨hkept, _⟩ | ⟨_, hdiffers⟩
  · exact hkept
  · -- Both commands show the item of a list, and those two texts would be the same.
    rw [String.append_left_inj, String.append_right_inj] at houtput
    simp only [Value.first, List.head?_cons, Option.getD_some, Value.display, Value.displayAt,
      Value.displayItems_singleton, String.append_left_inj, String.append_right_inj] at houtput
    exact absurd houtput.symm hdiffers

/-- The commands agree on every text that writes something exactly if all
    bindings of names are kept. A binding is always what a symbol of its name
    yields in an attribute. On the command line, in the text and in bindings
    that come later, it is only if it is kept. -/
theorem agree_iff_kept (lets : List LetBinding) :
    ((∀ source nodes, AttrExpr.parse source = .ok nodes → nodes ≠ [] → Agree key source lets) ↔
      ∀ frame, bindLets .root lets = .ok frame →
        ∀ name value, SymbolToken name.toList → frame.get? name = some value → Kept name value) ∧
    ∀ before name source after, lets = before ++ ⟨name, source⟩ :: after →
      (∀ binding ∈ after, binding.name ≠ name) → SymbolToken name.toList →
      ∀ frame, bindLets .root lets = .ok frame →
        ∃ held values, bindLets .root before = .ok held ∧
          evaluateSource (context held) source = .ok values ∧
          evaluateSource (attributeContext frame) name = .ok [Value.first values] ∧
          (evaluateSource (context frame) name = .ok [Value.first values] ↔
            Kept name (Value.first values)) := by
  constructor
  · constructor
    · intro h frame hlets name value hname hget
      rcases parse_vector hname with ⟨inner, outer, hparse⟩
      exact kept_of_agree hkey hcolon hlets hname (Frame.infer_of_get? hget)
        (h _ _ hparse (List.cons_ne_nil _ _))
    · intro h source nodes hparse hne
      rcases hlets : bindLets .root lets with error | frame
      · exact agree_of_error hlets key source
      · -- The frame of the command line has no others around, so it has all bindings.
        have hkept : ∀ name value, SymbolToken name.toList →
            frame.infer .absent name = some value → Kept name value :=
          fun name value hname hinfer => h frame hlets name value hname
            (Frame.get?_of_infer (outer_bindLets hlets) hinfer)
        exact agree_of_kept hkey hcolon hlets hkept hparse hne
  · rintro before name source after rfl hlast hname frame hlets
    rw [bindLets_append] at hlets
    rcases hbefore : bindLets .root before with error | held
    · rw [hbefore] at hlets
      cases hlets
    · rw [hbefore, Except.bind] at hlets
      rcases bindLets_cons_eq_ok_iff.mp hlets with ⟨values, hvalues, hrest⟩
      -- Nothing behind the binding has its name, so it is still there at the end.
      have hget : frame.get? name = some (Value.first values) := by
        rw [get?_bindLets hrest hlast, Frame.get?_bind, if_pos rfl]
      have hinfer := Frame.infer_of_get? hget
      have hattribute : evaluateSource (attributeContext frame) name =
          .ok [Value.first values] := by
        rw [evaluateSource_symbol hname, symbolValue_attributeContext hinfer]
      have hcommand : evaluateSource (context frame) name = .ok [Value.first values] ↔
          Kept name (Value.first values) := by
        rw [evaluateSource_symbol hname, Except.ok.injEq, List.cons.injEq,
          symbolValue_eq_iff_kept hinfer]
        exact and_iff_left rfl
      exact ⟨held, values, rfl, hvalues, hattribute, hcommand⟩

end

/-- With a binding that counts as true, the commands agree on all texts, and in
    particular on those that use it. -/
theorem agree_of_one : "n" ≠ "" ∧ ':' ∉ "n".toList ∧
    ∀ source nodes, AttrExpr.parse source = .ok nodes → nodes ≠ [] →
      Agree "n" source [⟨"x", "1"⟩] := by
  have hlets : bindLets .root [⟨"x", "1"⟩] = .ok (Frame.root.bind "x" (.int 1)) := by rfl
  refine ⟨by decide, by decide, (agree_iff_kept (by decide) (by decide) [⟨"x", "1"⟩]).1.mpr ?_⟩
  intro frame hframe name value _ hget
  rw [hlets] at hframe
  cases hframe
  -- The frame has one binding, so whatever is found is that.
  rw [Frame.get?_bind] at hget
  split at hget
  · cases hget
    exact Or.inl rfl
  · cases hget

/-- Zero counts as false, and then the commands do not agree even on its
    name. -/
theorem not_agree_of_zero : (∃ nodes, AttrExpr.parse "x" = .ok nodes ∧ nodes ≠ []) ∧
    attr "b-text:n" "x" [⟨"x", "0"⟩] = .ok "text: 0\n" ∧
    eval "x" [⟨"x", "0"⟩] = .ok "\n" ∧ ¬ Agree "n" "x" [⟨"x", "0"⟩] := by
  have hkey : "b-text:" ++ "n" = "b-text:n" := by decide
  have hlets : bindLets .root [⟨"x", "0"⟩] = .ok (Frame.root.bind "x" (.int 0)) := by rfl
  have hzero : evaluateSource (attributeContext (Frame.root.bind "x" (.int 0))) "x" =
      .ok [.int 0] := by rfl
  have hnil : evaluateSource (context (Frame.root.bind "x" (.int 0))) "x" = .ok [.nil] := by rfl
  have hattr : attr "b-text:n" "x" [⟨"x", "0"⟩] = .ok "text: 0\n" := by
    rw [← hkey, attr_text (by decide) (by decide) "x" hlets, hzero]
    rfl
  have hprinted : printed "x" [⟨"x", "0"⟩] = .ok [.nil] := by
    rw [printed_of_bindLets hlets, hnil]
    rfl
  have heval : eval "x" [⟨"x", "0"⟩] = .ok "\n" := by
    rw [eval_eq_lines, hprinted]
    rfl
  -- Agreement would have `eval` print the zero that `attr` shows.
  have hdisagree : ¬ Agree "n" "x" [⟨"x", "0"⟩] := by
    intro h
    rw [Agree, hkey] at h
    rcases (h _).mp hattr with ⟨first, rest, hsame, _, houtput⟩
    rw [hprinted] at hsame
    cases hsame
    revert houtput
    decide
  exact ⟨⟨[.symbol "x" ⟨0, 1⟩], by rfl, List.cons_ne_nil _ _⟩, hattr, heval, hdisagree⟩

end Command

end AttrExpr
