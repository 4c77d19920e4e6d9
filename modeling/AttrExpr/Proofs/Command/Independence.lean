import AttrExpr.Proofs.Attribute.Visibility
import AttrExpr.Proofs.Command.Agreement

/-!
# Independent Bindings

Which bindings of a command line can be moved or left out.

The bindings are evaluated in order, each into the frame that the next one sees,
so what one of them comes to may depend on all that come before. It does so
through names only: a text that does not mention the name of a binding, outside
of the heads of calls, comes to the same whether that is bound, and to what.

Two neighbours that do not mention each other can therefore change places. The
frames behind them are not the same, because a table keeps its names in the
order they were bound, but they find the same for every name, and that is all
that a later text can see. If only one of the two fails, its error is met in
either order, since the other one is bound without a fault before or would have
been behind. If both fail the command names the one that comes first, and that
does make a difference.

A binding that nothing behind it mentions can be left out, if it does not fail.
The frames then differ at its name for as long as no later binding has that name
too. What has to be carried through the bindings in both cases is thus that two
frames agree on all names but some, and that these are never mentioned.

## Main definitions

* `Frame.AgreeOff`: Two frames find the same for all names but some.
* `Command.printedFrom`: What is printed, starting from any frame.
* `Command.Fails`: A text has no value in a frame.

## Theorems

* `evaluateSource_of_agreeOff`: A text that mentions none of those names comes
  to the same in both frames.
* `printedFrom_of_agreeOff`: Bindings and a text behind them that mention none of
  those names come to the same in both frames.
* `printedFrom_exchange`: Neighbours that do not mention each other can change
  places, unless both fail.
* `eval_independent`: Which bindings can be moved or left out.
-/

namespace AttrExpr

namespace Frame

/-- The frames find the same for every name that is not hidden. -/
def AgreeOff (hidden : String → Prop) (frame other : Frame) : Prop :=
  ∀ name, ¬ hidden name → frame.infer .absent name = other.infer .absent name

/-- A frame finds what it binds before anything else. What it finds for any other
    name is what it found without the binding, be that its own or one of the
    frames around it, so a binding is told from the rest by its name alone. -/
theorem infer_bind (frame : Frame) (key name : String) (value : Value) :
    (frame.bind key value).infer .absent name =
      if name = key then some value else frame.infer .absent name := by
  have hown : (frame.bind key value).own.get? name =
      if name = key then some value else frame.own.get? name :=
    get?_bind frame key name value
  unfold infer
  rw [outer_bind, List.findSome?_cons, List.findSome?_cons, hown]
  by_cases hkey : name = key
  · rw [if_pos hkey, if_pos hkey]
    rfl
  · rw [if_neg hkey, if_neg hkey]

/-- Binding a name in both frames to the same keeps what they agree on. This is
    the step by which the agreement is carried through the later bindings. -/
theorem AgreeOff.bind {hidden : String → Prop} {frame other : Frame}
    (h : AgreeOff hidden frame other) (key : String) (value : Value) :
    AgreeOff hidden (frame.bind key value) (other.bind key value) := by
  intro name hname
  rw [infer_bind, infer_bind, h name hname]

/-- A frame differs from what it was at the name that was bound only. This is what
    leaving out a binding amounts to. -/
theorem agreeOff_bind (frame : Frame) (key : String) (value : Value) :
    AgreeOff (· = key) (frame.bind key value) frame := by
  intro name hname
  rw [infer_bind, if_neg hname]

/-- The order in which two names are bound makes no difference to any name. The
    frames are not equal, since a table keeps its names in the order they were
    bound, so what can be said of them is that they agree everywhere. -/
theorem agreeOff_bind_bind (frame : Frame) {key other : String} (h : key ≠ other)
    (value value' : Value) :
    AgreeOff (fun _ => False) ((frame.bind key value).bind other value')
      ((frame.bind other value').bind key value) := by
  intro name _
  rw [infer_bind, infer_bind, infer_bind, infer_bind]
  by_cases hkey : name = key
  · -- The names differ, so the other binding does not answer.
    have hother : name ≠ other := fun hname => h (hkey.symm.trans hname)
    rw [if_neg hother, if_pos hkey, if_pos hkey]
  · rw [if_neg hkey, if_neg hkey]

end Frame

namespace Command

/-- A text that mentions no hidden name comes to the same in both frames. -/
theorem evaluateSource_of_agreeOff {hidden : String → Prop} {frame other : Frame}
    (h : Frame.AgreeOff hidden frame other) {source : String}
    (hmentions : ∀ name, Mentions source name → ¬ hidden name) :
    evaluateSource (context frame) source = evaluateSource (context other) source :=
  evaluateSource_of_infer .none functions .absent .falsy fun name hname =>
    h name (hmentions name hname)

/-- A binding makes no difference to a text that does not mention it. -/
theorem evaluateSource_bind (frame : Frame) {key : String} (value : Value) {source : String}
    (h : ¬ Mentions source key) :
    evaluateSource (context (frame.bind key value)) source =
      evaluateSource (context frame) source := by
  apply evaluateSource_of_agreeOff (Frame.agreeOff_bind frame key value)
  intro name hname hkey
  rw [hkey] at hname
  exact h hname

/-- The text has no value in the frame. -/
def Fails (frame : Frame) (source : String) : Prop :=
  ∃ error, evaluateSource (context frame) source = .error error

/-! ## Bindings and a text behind them -/

/-- The values that are printed for a text behind bindings that are evaluated
    into a frame. A command starts from the root, but an induction over its
    bindings meets the frames that the first of them leave behind. -/
def printedFrom (frame : Frame) (source : String) (lets : List LetBinding) :
    Except CommandError (List Value) :=
  (bindLets frame lets).bind fun held => (evaluateSource (context held) source).mapError .source

theorem printed_eq_printedFrom (source : String) (lets : List LetBinding) :
    printed source lets = printedFrom .root source lets := by
  unfold printed printedFrom
  cases bindLets .root lets with
  | error error => rfl
  | ok frame => rfl

/-- Bindings in front are evaluated first, and what is printed behind them starts
    from the frame they leave. With it the bindings in front of the two that are
    moved can be set aside. -/
theorem printedFrom_append (frame : Frame) (source : String) (before after : List LetBinding) :
    printedFrom frame source (before ++ after) =
      (bindLets frame before).bind fun held => printedFrom held source after := by
  unfold printedFrom
  rw [bindLets_append]
  cases bindLets frame before with
  | error error => rfl
  | ok frame => rfl

section

variable {frame : Frame} {binding : LetBinding} (source : String) (rest : List LetBinding)

theorem printedFrom_cons_error {error : SourceError}
    (h : evaluateSource (context frame) binding.source = .error error) :
    printedFrom frame source (binding :: rest) = .error (.inLet binding.name error) := by
  unfold printedFrom
  rw [bindLets_cons_error rest h]
  rfl

theorem printedFrom_cons_ok {values : List Value}
    (h : evaluateSource (context frame) binding.source = .ok values) :
    printedFrom frame source (binding :: rest) =
      printedFrom (frame.bind binding.name (Value.first values)) source rest := by
  unfold printedFrom
  rw [bindLets_cons_ok rest h]

end

/-- Where hidden names are not mentioned the same is printed. Each binding comes
    to the same in both frames, and the frames behind it agree as before. -/
theorem printedFrom_of_agreeOff {hidden : String → Prop} {frame other : Frame}
    (h : Frame.AgreeOff hidden frame other) {source : String} {lets : List LetBinding}
    (hlets : ∀ binding ∈ lets, ∀ name, Mentions binding.source name → ¬ hidden name)
    (hsource : ∀ name, Mentions source name → ¬ hidden name) :
    printedFrom frame source lets = printedFrom other source lets := by
  -- The frames change with every binding, and all that is kept is that they agree.
  induction lets generalizing frame other with
  | nil =>
      have hsame := evaluateSource_of_agreeOff h hsource
      simp only [printedFrom, bindLets, Except.bind, hsame]
  | cons binding rest ih =>
      rw [List.forall_mem_cons] at hlets
      have hsame := evaluateSource_of_agreeOff h hlets.1
      rcases hvalues : evaluateSource (context other) binding.source with error | values
      · rw [printedFrom_cons_error source rest (hsame.trans hvalues),
          printedFrom_cons_error source rest hvalues]
      · rw [printedFrom_cons_ok source rest (hsame.trans hvalues),
          printedFrom_cons_ok source rest hvalues]
        exact ih (h.bind binding.name (Value.first values)) hlets.2

section

variable {x y : LetBinding} (hname : x.name ≠ y.name) (hx : ¬ Mentions y.source x.name)
  (hy : ¬ Mentions x.source y.name) (frame : Frame) (source : String) (after : List LetBinding)

/-- If one of two neighbours fails and the other one does not, its error is what
    the command fails with in either order: in front it is met at once, and behind
    it is met since the other one is bound without a fault and not mentioned. -/
theorem printedFrom_of_fails (hy : ¬ Mentions x.source y.name) {error : SourceError}
    (hfails : evaluateSource (context frame) x.source = .error error)
    (hvalue : ¬ Fails frame y.source) :
    printedFrom frame source (y :: x :: after) = .error (.inLet x.name error) := by
  rcases hvalues : evaluateSource (context frame) y.source with error' | values
  · exact absurd ⟨error', hvalues⟩ hvalue
  · rw [printedFrom_cons_ok source (x :: after) hvalues]
    exact printedFrom_cons_error source after ((evaluateSource_bind frame _ hy).trans hfails)

include hname hx hy

/-- Neighbours that do not mention each other can change places, unless both of
    them fail. -/
theorem printedFrom_exchange (h : ¬ (Fails frame x.source ∧ Fails frame y.source)) :
    printedFrom frame source (x :: y :: after) = printedFrom frame source (y :: x :: after) := by
  rcases hfirst : evaluateSource (context frame) x.source with error | values
  · -- The first one fails, so the second one does not.
    have hsecond : ¬ Fails frame y.source := fun hfails => h ⟨⟨error, hfirst⟩, hfails⟩
    rw [printedFrom_cons_error source (y :: after) hfirst,
      printedFrom_of_fails frame source after hy hfirst hsecond]
  · rcases hsecond : evaluateSource (context frame) y.source with error | values'
    · -- Only the second one fails, which it does in front of the first one too.
      have hvalue : ¬ Fails frame x.source := by
        rintro ⟨error', herror⟩
        rw [hfirst] at herror
        cases herror
      rw [printedFrom_cons_error source (x :: after) hsecond,
        printedFrom_of_fails frame source after hx hsecond hvalue]
    · -- Neither does, and the frames behind them cannot be told apart.
      rw [printedFrom_cons_ok source (y :: after) hfirst,
        printedFrom_cons_ok source (x :: after) hsecond,
        printedFrom_cons_ok source after ((evaluateSource_bind frame _ hx).trans hsecond),
        printedFrom_cons_ok source after ((evaluateSource_bind frame _ hy).trans hfirst)]
      exact printedFrom_of_agreeOff (Frame.agreeOff_bind_bind frame hname _ _)
        (fun _ _ _ _ hfalse => hfalse) fun _ _ hfalse => hfalse

end

/-- A binding that has a value can be left out if nothing behind it mentions it.
    A later binding of the same name does no harm: the frames agree off that name,
    and go on to do so when both of them bind it. -/
theorem printedFrom_drop {x : LetBinding} {frame : Frame} {values : List Value}
    (hvalues : evaluateSource (context frame) x.source = .ok values) {source : String}
    {after : List LetBinding} (hafter : ∀ later ∈ after, ¬ Mentions later.source x.name)
    (hsource : ¬ Mentions source x.name) :
    printedFrom frame source (x :: after) = printedFrom frame source after := by
  have hother : ∀ {text : String}, ¬ Mentions text x.name →
      ∀ name, Mentions text name → ¬ name = x.name := by
    intro text htext name hmentions hname
    rw [hname] at hmentions
    exact htext hmentions
  rw [printedFrom_cons_ok source after hvalues]
  exact printedFrom_of_agreeOff (Frame.agreeOff_bind frame x.name _)
    (fun later hlater => hother (hafter later hlater)) (hother hsource)

/-- Two bindings that stand next to each other, have different names and do not
    mention each other can change places exactly if they do not both fail; what
    the command comes to, text or error, is the same. A binding that has a value
    and is mentioned neither by a later one nor by the text can be left out. -/
theorem eval_independent (source : String) (before after : List LetBinding) :
    (∀ x y : LetBinding, x.name ≠ y.name → ¬ Mentions y.source x.name →
      ¬ Mentions x.source y.name →
      (eval source (before ++ x :: y :: after) = eval source (before ++ y :: x :: after) ↔
        ∀ frame, bindLets .root before = .ok frame →
          ¬ (Fails frame x.source ∧ Fails frame y.source))) ∧
    ∀ x : LetBinding,
      (∀ frame, bindLets .root before = .ok frame → ¬ Fails frame x.source) →
      (∀ later ∈ after, ¬ Mentions later.source x.name) → ¬ Mentions source x.name →
      eval source (before ++ x :: after) = eval source (before ++ after) := by
  simp only [eval_eq_lines, printed_eq_printedFrom, printedFrom_append]
  constructor
  · intro x y hname hx hy
    rcases bindLets .root before with error | frame
    · -- What stands in front fails, and neither of the two is evaluated.
      apply iff_of_true rfl
      intro frame hframe
      cases hframe
    · simp only [Except.bind, Except.ok.injEq, forall_eq']
      constructor
      · rintro hsame ⟨⟨error, hfirst⟩, ⟨error', hsecond⟩⟩
        -- Each order fails with the binding that comes first in it.
        rw [printedFrom_cons_error source (y :: after) hfirst,
          printedFrom_cons_error source (x :: after) hsecond] at hsame
        simp only [Except.map, Except.error.injEq, CommandError.inLet.injEq] at hsame
        exact hname hsame.1
      · intro h
        rw [printedFrom_exchange hname hx hy frame source after h]
  · intro x hvalue hafter hsource
    rcases hbefore : bindLets .root before with error | frame
    · rfl
    · rcases hvalues : evaluateSource (context frame) x.source with error | values
      · exact absurd ⟨error, hvalues⟩ (hvalue frame hbefore)
      · simp only [Except.bind]
        rw [printedFrom_drop hvalues hafter hsource]

/-- A binding that fails behind one that does not: its error is what comes of
    either order. A binding with the name of a function is not mentioned where
    that is called, and can be left out. -/
theorem eval_independent_call :
    eval "a" [⟨"a", "1"⟩, ⟨"b", "(f)"⟩] = eval "a" [⟨"b", "(f)"⟩, ⟨"a", "1"⟩] ∧
      eval "a" [⟨"b", "(f)"⟩, ⟨"a", "1"⟩] =
        .error (.inLet "b" (.eval ⟨.undefinedFunction "f", some ⟨1, 2⟩⟩)) ∧
      eval "(not b)" [⟨"not", "1"⟩, ⟨"b", "'xy'"⟩] = eval "(not b)" [⟨"b", "'xy'"⟩] ∧
      eval "(not b)" [⟨"b", "'xy'"⟩] = .ok "false\n" := by
  let call : List Node :=
    [.group .round [.symbol "not" ⟨1, 4⟩, .symbol "b" ⟨5, 6⟩] ⟨0, 7⟩]
  have hone : AttrExpr.parse "1" = .ok [.number (.int 1) ⟨0, 1⟩] := by rfl
  have htext : AttrExpr.parse "'xy'" = .ok [.string "xy" ⟨0, 4⟩] := by rfl
  have hfailing : AttrExpr.parse "(f)" = .ok [.group .round [.symbol "f" ⟨1, 2⟩] ⟨0, 3⟩] := by rfl
  have hcall : AttrExpr.parse "(not b)" = .ok call := by rfl
  have hvalue : ∀ frame, bindLets .root [] = .ok frame → ¬ Fails frame "1" := by
    rintro frame ⟨⟩ ⟨error, herror⟩
    rw [evaluateSource, hone] at herror
    cases herror
  have hnames : (⟨"a", "1"⟩ : LetBinding).name ≠ (⟨"b", "(f)"⟩ : LetBinding).name := by
    decide
  -- The heads of calls are not mentioned: neither `f` nor `not` is.
  have hfirst : ¬ Mentions "(f)" "a" := by
    rw [mentions_iff hfailing]
    decide
  have hsecond : ¬ Mentions "1" "b" := by
    rw [mentions_iff hone]
    decide
  have hlater : ∀ later ∈ [(⟨"b", "'xy'"⟩ : LetBinding)], ¬ Mentions later.source "not" := by
    rw [List.forall_mem_singleton, mentions_iff htext]
    decide
  have hsource : ¬ Mentions "(not b)" "not" := by
    rw [mentions_iff hcall]
    decide
  refine ⟨?_, ?_, ?_, ?_⟩
  · have hiff := (eval_independent "a" [] []).1 ⟨"a", "1"⟩ ⟨"b", "(f)"⟩ hnames hfirst hsecond
    exact hiff.mpr fun frame hframe h => hvalue frame hframe h.1
  · have hfails : bindLets .root [⟨"b", "(f)"⟩, ⟨"a", "1"⟩] =
        .error (.inLet "b" (.eval ⟨.undefinedFunction "f", some ⟨1, 2⟩⟩)) := by rfl
    rw [eval, hfails]
  · exact (eval_independent "(not b)" [] [⟨"b", "'xy'"⟩]).2 ⟨"not", "1"⟩ hvalue hlater hsource
  · have hlets : bindLets .root [⟨"b", "'xy'"⟩] = .ok (Frame.root.bind "b" (.str "xy")) := by rfl
    have hresult : (evaluate (context (Frame.root.bind "b" (.str "xy"))) call).result =
        .ok [.bool false] := by rfl
    rw [eval, hlets]
    simp only [evaluateSource, hcall, hresult]
    rfl

end Command

end AttrExpr
