import AttrExpr.Command.Line
import AttrExpr.Proofs.Parse.Grammar
import Mathlib.Data.List.Basic

/-!
# Spelling Bindings

Which arguments give which bindings.

A binding can be given in one argument or in two, and a command line may mix the
two ways. Reading such arguments back is not a matter of each argument alone. A
name may be `--let` itself, a source may look like another option, and what
stands behind `--let` is a value whatever it looks like, so where a binding
begins depends on all arguments in front of it.

The spellings of bindings are therefore written out first, without a reader, and
reading is compared with them. Arguments are a spelling up to some point, and
what they begin with there either is nothing or begins no spelling at all. In the
first case they are read as the bindings that they spell, in the second the
options are refused, and the command they belong to never sees them.

## Main definitions

* `Named`: The bindings that can be spelled.
* `Spelling`: The two ways of giving a binding.
* `spelled`: The arguments that give bindings.
* `Unspelled`: Arguments that begin no spelling, and what is said of them.
* `Cut`: Where the spelling of bindings ends.

## Theorems

* `read_cases`: A text is that of a binding, or it is refused.
* `readOptions_append`: Bindings that are spelled out are read first.
* `readOptions_of_unspelled`: What begins no spelling is refused.
* `exists_cut`: Arguments are a spelling up to some point.
* `readOptions_spelled`: Reading undoes spelling, and nothing else is read.
-/

namespace AttrExpr

namespace LetBinding

/-- A binding has a name, and it does not contain the sign that ends it. The name
    ends at the first sign, so a binding without this property has no spelling:
    its text is refused or read as another binding. -/
def Named (binding : LetBinding) : Prop := binding.name ≠ "" ∧ '=' ∉ binding.name.toList

/-- A binding as one text. -/
def text (binding : LetBinding) : String := binding.name ++ "=" ++ binding.source

/-- The two ways of giving a binding. -/
inductive Spelling where
  /-- In one argument, `--let=name=source`. -/
  | joined
  /-- In two arguments, `--let` and `name=source`. -/
  | separate
deriving DecidableEq, Repr

/-- The arguments that give a binding. -/
def Spelling.arguments : Spelling → LetBinding → List String
  | joined, binding => ["--let=" ++ binding.text]
  | separate, binding => ["--let", binding.text]

/-- The arguments that give bindings one after the other, each in its own way.
    This is what reading is measured by, and it is written without a reader. -/
def spelled (choices : List (Spelling × LetBinding)) : List String :=
  choices.flatMap fun choice => choice.1.arguments choice.2

/-- Arguments that begin no spelling, and what the usage error says of them. The
    first of them opens no option, or it does and what it opens is not the text
    of a binding. -/
inductive Unspelled : List String → String → Prop
  | stray {argument : String} {rest : List String}
      (hjoined : ∀ text, argument ≠ "--let=" ++ text) (halone : argument = "--let" → rest = []) :
      Unspelled (argument :: rest) s!"unexpected argument `{argument}`"
  | joined {text : String} {rest : List String}
      (htext : ∀ binding : LetBinding, binding.Named → text ≠ binding.text) :
      Unspelled (("--let=" ++ text) :: rest) s!"expected --let <name>=<expr>, got `{text}`"
  | separate {text : String} {rest : List String}
      (htext : ∀ binding : LetBinding, binding.Named → text ≠ binding.text) :
      Unspelled ("--let" :: text :: rest) s!"expected --let <name>=<expr>, got `{text}`"

/-- Arguments spell bindings as far as any do: what is left of them is nothing, or
    begins no spelling. -/
structure Cut (arguments : List String) (choices : List (Spelling × LetBinding))
    (left : List String) : Prop where
  named : ∀ choice ∈ choices, choice.2.Named
  whole : arguments = spelled choices ++ left
  stops : left = [] ∨ ∃ message, Unspelled left message

/-! ## One binding -/

/-- The text of a binding by its characters, with the sign that ends the name in
    front of the source. -/
theorem toList_text (binding : LetBinding) :
    binding.text.toList = binding.name.toList ++ '=' :: binding.source.toList := by
  rw [text, String.toList_append, String.toList_append, List.append_assoc]
  rfl

theorem spelled_cons (choice : Spelling × LetBinding) (choices : List (Spelling × LetBinding)) :
    spelled (choice :: choices) = choice.1.arguments choice.2 ++ spelled choices := rfl

theorem read_text {binding : LetBinding} (h : binding.Named) :
    read binding.text = .ok binding := by
  -- The name is all there is in front of the first sign.
  have hname : ∀ c ∈ binding.name.toList, (c != '=') = true := by
    intro c hc
    rw [bne_iff_ne]
    rintro rfl
    exact h.2 hc
  have hsign : ∀ c ∈ ('=' :: binding.source.toList).head?, (c != '=') = false := by
    rintro c ⟨⟩
    rfl
  have hspan := Parse.span_append ('=' :: binding.source.toList) hname hsign
  have hne : binding.name.toList ≠ [] := fun hnil => h.1 (String.toList_eq_nil_iff.mp hnil)
  simp only [read, toList_text, hspan.1, hspan.2, if_neg hne, String.ofList_toList]

/-- A text is that of a binding, or it is refused. In the second case it is not
    the text of any binding, so nothing that could be spelled is refused. -/
theorem read_cases (value : String) :
    (∃ binding : LetBinding, binding.Named ∧ value = binding.text ∧ read value = .ok binding) ∨
      ((∀ binding : LetBinding, binding.Named → value ≠ binding.text) ∧
        read value = .error (.usage s!"expected --let <name>=<expr>, got `{value}`")) := by
  -- What can be spelled is read, so what is refused spells nothing.
  have hrefused : read value = .error (read.malformed value) →
      ∀ binding : LetBinding, binding.Named → value ≠ binding.text := by
    rintro h binding hnamed rfl
    rw [read_text hnamed] at h
    cases h
  rcases Parse.exists_span (· != '=') value.toList with ⟨name, rest, hvalue, hname, hrest⟩
  have hspan := Parse.span_append rest hname hrest
  cases rest with
  | nil =>
      -- There is no sign at all.
      have hread : read value = .error (read.malformed value) := by
        simp only [read, hvalue, hspan.2]
      exact Or.inr ⟨hrefused hread, hread⟩
  | cons c source =>
      have hsign : c = '=' := by simpa only [bne_eq_false_iff_eq] using hrest c rfl
      subst hsign
      by_cases hempty : name = []
      · have hread : read value = .error (read.malformed value) := by
          simp only [read, hvalue, hspan.1, hspan.2, if_pos hempty]
        exact Or.inr ⟨hrefused hread, hread⟩
      · have hnamed : Named ⟨String.ofList name, String.ofList source⟩ := by
          constructor
          · intro hnil
            exact hempty (by simpa using hnil)
          · rw [String.toList_ofList]
            intro hmem
            cases hname '=' hmem
        have htext : value = LetBinding.text ⟨String.ofList name, String.ofList source⟩ := by
          rw [← String.toList_inj, toList_text, String.toList_ofList, String.toList_ofList, hvalue]
        have hread : read value = .ok ⟨String.ofList name, String.ofList source⟩ := by
          rw [htext, read_text hnamed]
        exact Or.inl ⟨_, hnamed, htext, hread⟩

/-! ## What reading does with the first option -/

/-- What follows `--let=` in an argument, if it begins with that. -/
theorem isPrefixOf?_joined_iff {argument : String} {value : List Char} :
    optionWithValue.toList.isPrefixOf? argument.toList = some value ↔
      argument = "--let=" ++ String.ofList value := by
  have hoption : optionWithValue.toList = "--let=".toList := rfl
  rw [List.isPrefixOf?_eq_some_iff_append_eq, hoption, eq_comm, ← String.toList_inj,
    String.toList_append, String.toList_ofList (l := value)]

theorem isPrefixOf?_joined_eq_none_iff {argument : String} :
    optionWithValue.toList.isPrefixOf? argument.toList = none ↔
      ∀ value, argument ≠ "--let=" ++ value := by
  rw [Option.eq_none_iff_forall_ne_some]
  constructor
  · intro h value hvalue
    have hargument : argument = "--let=" ++ String.ofList value.toList := by
      rw [String.ofList_toList, hvalue]
    exact h value.toList (isPrefixOf?_joined_iff.mpr hargument)
  · intro h value hvalue
    exact h (String.ofList value) (isPrefixOf?_joined_iff.mp hvalue)

theorem readOptions_joined (value : String) (rest : List String) :
    readOptions (("--let=" ++ value) :: rest) =
      (read value).bind fun binding => (readOptions rest).map (binding :: ·) := by
  have hjoined : optionWithValue.toList.isPrefixOf? ("--let=" ++ value).toList =
      some value.toList :=
    isPrefixOf?_joined_iff.mpr (by rw [String.ofList_toList])
  rw [readOptions.eq_def]
  simp only [hjoined, String.ofList_toList]
  rfl

/-- An option in two arguments is the second of them read, whatever that looks
    like, and the rest behind it. -/
theorem readOptions_separate (value : String) (rest : List String) :
    readOptions ("--let" :: value :: rest) =
      (read value).bind fun binding => (readOptions rest).map (binding :: ·) := rfl

/-- What begins no spelling is refused, with the usage error of the first argument
    that is in the way. -/
theorem readOptions_of_unspelled {arguments : List String} {message : String}
    (h : Unspelled arguments message) : readOptions arguments = .error (.usage message) := by
  cases h with
  | @stray argument rest hjoined halone =>
      have hnone := isPrefixOf?_joined_eq_none_iff.mpr hjoined
      rw [readOptions.eq_def]
      cases rest with
      | nil =>
          simp only [hnone]
          rfl
      | cons value rest =>
          -- Something stands behind the argument, so it is not an option either.
          have hoption : argument ≠ option := fun h => List.cons_ne_nil value rest (halone h)
          simp only [hnone, if_neg hoption]
          rfl
  | @joined value rest htext =>
      rcases read_cases value with ⟨binding, hnamed, hvalue, _⟩ | ⟨_, hread⟩
      · exact absurd hvalue (htext binding hnamed)
      · rw [readOptions_joined, hread]
        rfl
  | @separate value rest htext =>
      rcases read_cases value with ⟨binding, hnamed, hvalue, _⟩ | ⟨_, hread⟩
      · exact absurd hvalue (htext binding hnamed)
      · rw [readOptions_separate, hread]
        rfl

/-- A binding that is spelled out is read first, whatever stands behind it. -/
theorem readOptions_arguments {binding : LetBinding} (h : binding.Named) (spelling : Spelling)
    (rest : List String) : readOptions (spelling.arguments binding ++ rest) =
      (readOptions rest).map (binding :: ·) := by
  cases spelling with
  | joined =>
      calc
        readOptions (Spelling.joined.arguments binding ++ rest)
            = (read binding.text).bind fun binding => (readOptions rest).map (binding :: ·) :=
          readOptions_joined binding.text rest
        _ = (readOptions rest).map (binding :: ·) := by
          rw [read_text h]
          rfl
  | separate =>
      calc
        readOptions (Spelling.separate.arguments binding ++ rest)
            = (read binding.text).bind fun binding => (readOptions rest).map (binding :: ·) :=
          readOptions_separate binding.text rest
        _ = (readOptions rest).map (binding :: ·) := by
          rw [read_text h]
          rfl

/-! ## All options -/

/-- Bindings that are spelled out are read first, whatever stands behind them. It
    is by this that a text which begins with a spelling and is refused in the end
    is refused for what stands behind the spelling. -/
theorem readOptions_append {choices : List (Spelling × LetBinding)}
    (hnamed : ∀ choice ∈ choices, choice.2.Named) (rest : List String) :
    readOptions (spelled choices ++ rest) =
      (readOptions rest).map (choices.map Prod.snd ++ ·) := by
  -- By the spellings in front, with the arguments behind them left open.
  induction choices with
  | nil =>
      have hnone : spelled [] ++ rest = rest := rfl
      rw [hnone]
      cases readOptions rest with
      | error error => rfl
      | ok options => rfl
  | cons choice choices ih =>
      rw [List.forall_mem_cons] at hnamed
      rw [spelled_cons, List.append_assoc, readOptions_arguments hnamed.1, ih hnamed.2]
      cases readOptions rest with
      | error error => rfl
      | ok options => rfl

/-- What opens an option in front of others spells a binding, or the spelling
    stops there. Both ways of giving a binding have this in common, and differ in
    how many arguments they take. -/
theorem exists_cut_cons (spelling : Spelling) {value : String} {arguments rest : List String}
    (hspelled : ∀ binding : LetBinding, value = binding.text →
      arguments = spelling.arguments binding ++ rest)
    (hstops : (∀ binding : LetBinding, binding.Named → value ≠ binding.text) →
      ∃ message, Unspelled arguments message)
    (hrest : ∃ choices left, Cut rest choices left) :
    ∃ choices left, Cut arguments choices left := by
  rcases read_cases value with ⟨binding, hnamed, hvalue, _⟩ | ⟨htext, _⟩
  · rcases hrest with ⟨choices, left, hcut⟩
    have hwhole : arguments = spelled ((spelling, binding) :: choices) ++ left := by
      rw [hspelled binding hvalue, hcut.whole, spelled_cons, List.append_assoc]
    exact ⟨(spelling, binding) :: choices, left,
      List.forall_mem_cons.mpr ⟨hnamed, hcut.named⟩, hwhole, hcut.stops⟩
  · exact ⟨[], arguments, List.forall_mem_nil _, rfl, Or.inr (hstops htext)⟩

/-- Arguments are a spelling up to some point. Taken with `readOptions_append` and
    `readOptions_of_unspelled` this says of any arguments what reading them gives. -/
theorem exists_cut (arguments : List String) : ∃ choices left, Cut arguments choices left := by
  -- The cases are those in which an argument is looked at, by what it opens.
  induction arguments using readOptions.induct with
  | case1 => exact ⟨[], [], List.forall_mem_nil _, rfl, Or.inl rfl⟩
  | case2 argument rest value hjoined ih =>
      rw [isPrefixOf?_joined_iff] at hjoined
      subst hjoined
      have hspelled : ∀ binding : LetBinding, String.ofList value = binding.text →
          ("--let=" ++ String.ofList value) :: rest =
            Spelling.joined.arguments binding ++ rest := by
        intro binding hvalue
        rw [hvalue]
        rfl
      exact exists_cut_cons .joined hspelled (fun htext => ⟨_, .joined htext⟩) ih
  | case3 value rest _ ih =>
      have hspelled : ∀ binding : LetBinding, value = binding.text →
          "--let" :: value :: rest = Spelling.separate.arguments binding ++ rest := by
        intro binding hvalue
        rw [hvalue]
        rfl
      exact exists_cut_cons .separate hspelled (fun htext => ⟨_, .separate htext⟩) ih
  | case4 argument hjoined value rest hoption =>
      have hstray : Unspelled (argument :: value :: rest) s!"unexpected argument `{argument}`" :=
        .stray (isPrefixOf?_joined_eq_none_iff.mp hjoined) fun h => absurd h hoption
      exact ⟨[], _, List.forall_mem_nil _, rfl, Or.inr ⟨_, hstray⟩⟩
  | case5 argument hjoined =>
      have hstray : Unspelled [argument] s!"unexpected argument `{argument}`" :=
        .stray (isPrefixOf?_joined_eq_none_iff.mp hjoined) fun _ => rfl
      exact ⟨[], _, List.forall_mem_nil _, rfl, Or.inr ⟨_, hstray⟩⟩

/-- What spells bindings to the end is read as those bindings. -/
theorem readOptions_whole {choices : List (Spelling × LetBinding)}
    (hnamed : ∀ choice ∈ choices, choice.2.Named) :
    readOptions (spelled choices) = .ok (choices.map Prod.snd) := by
  have hread := readOptions_append hnamed []
  rwa [List.append_nil, readOptions.eq_1, Except.map, List.append_nil] at hread

/-- Where a spelling stops before the end, what stands there is what the options
    are refused for, and the bindings read before it are given up. -/
theorem Cut.readOptions_stopped {arguments left : List String} {message : String}
    {choices : List (Spelling × LetBinding)} (hcut : Cut arguments choices left)
    (hunspelled : Unspelled left message) :
    readOptions arguments = .error (.usage message) := by
  rw [hcut.whole, readOptions_append hcut.named, readOptions_of_unspelled hunspelled]
  rfl

/-- Reading options undoes spelling, in whatever way each binding is spelled, and
    nothing but a spelling is read. Other arguments are a usage error, which says
    where the spelling stops, and the command that they belong to prints nothing
    and fails, whatever it was asked to evaluate. -/
theorem readOptions_spelled (arguments : List String) :
    (∀ lets, readOptions arguments = .ok lets ↔ ∃ choices : List (Spelling × LetBinding),
      (∀ choice ∈ choices, choice.2.Named) ∧ choices.map Prod.snd = lets ∧
        arguments = spelled choices) ∧
    ((∀ choices : List (Spelling × LetBinding), (∀ choice ∈ choices, choice.2.Named) →
        arguments ≠ spelled choices) →
      ∃ choices left message, Cut arguments choices left ∧ Unspelled left message ∧
        readOptions arguments = .error (.usage message) ∧
        (∀ source, CommandLine.run ("eval" :: source :: arguments) =
          ⟨1, "", "error: " ++ message ++ "\n"⟩) ∧
        ∀ name value, CommandLine.run ("attr" :: name :: value :: arguments) =
          ⟨1, "", "error: " ++ message ++ "\n"⟩) := by
  rcases exists_cut arguments with ⟨choices, left, hcut⟩
  rcases hcut.stops with rfl | ⟨message, hunspelled⟩
  · -- The spelling goes to the end, and no other one of the same arguments is read
    -- differently.
    have hwhole : arguments = spelled choices := by rw [hcut.whole, List.append_nil]
    constructor
    · intro lets
      constructor
      · intro h
        rw [hwhole, readOptions_whole hcut.named] at h
        exact ⟨choices, hcut.named, Except.ok.inj h, hwhole⟩
      · rintro ⟨others, hnamed, rfl, rfl⟩
        exact readOptions_whole hnamed
    · intro h
      exact absurd hwhole (h choices hcut.named)
  · have hread := hcut.readOptions_stopped hunspelled
    -- A command never sees options that are refused, so it does not matter which it is.
    have hfailed : ∀ command : List LetBinding → Except CommandError String,
        CommandLine.report ((readOptions arguments).bind command) =
          ⟨1, "", "error: " ++ message ++ "\n"⟩ := by
      intro command
      rw [hread]
      rfl
    constructor
    · intro lets
      constructor
      · intro h
        rw [hread] at h
        cases h
      · rintro ⟨others, hnamed, _, rfl⟩
        rw [readOptions_whole hnamed] at hread
        cases hread
    · intro _
      exact ⟨choices, left, message, hcut, hunspelled, hread, fun source => hfailed _,
        fun name value => hfailed _⟩

/-- A name and a source that look like options, and an option with nothing behind
    it. -/
theorem readOptions_spelled_dashes :
    (∀ choice ∈ [(Spelling.separate, LetBinding.mk "--let" "a=b"), (.joined, ⟨"x", "--let=y=1"⟩)],
      choice.2.Named) ∧
    readOptions ["--let", "--let=a=b", "--let=x=--let=y=1"] =
      .ok [⟨"--let", "a=b"⟩, ⟨"x", "--let=y=1"⟩] ∧
    (∀ choices : List (Spelling × LetBinding), (∀ choice ∈ choices, choice.2.Named) →
      ["--let=x=1", "--let"] ≠ spelled choices) ∧
    CommandLine.run ["eval", "x", "--let=x=1", "--let"] =
      ⟨1, "", "error: unexpected argument `--let`\n"⟩ := by
  have hnamed : ∀ choice ∈ [(Spelling.separate, LetBinding.mk "--let" "a=b"),
      (.joined, ⟨"x", "--let=y=1"⟩)], choice.2.Named :=
    List.forall_mem_cons.mpr ⟨⟨by decide, by decide⟩,
      List.forall_mem_singleton.mpr ⟨by decide, by decide⟩⟩
  have hread : readOptions ["--let=x=1", "--let"] =
      .error (.usage "unexpected argument `--let`") := by rfl
  -- What is refused is no spelling, since a spelling would be read.
  have hnone : ∀ choices : List (Spelling × LetBinding), (∀ choice ∈ choices, choice.2.Named) →
      ["--let=x=1", "--let"] ≠ spelled choices := by
    intro choices hchoices hspelled
    have hok := ((readOptions_spelled _).1 _).mpr ⟨choices, hchoices, rfl, hspelled⟩
    rw [hread] at hok
    cases hok
  rcases (readOptions_spelled _).2 hnone with ⟨_, _, message, _, _, herror, heval, _⟩
  rw [hread] at herror
  cases herror
  exact ⟨hnamed, ((readOptions_spelled _).1 _).mpr ⟨_, hnamed, rfl, by decide⟩, hnone, heval "x"⟩

end LetBinding

end AttrExpr
