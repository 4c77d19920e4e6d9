import AttrExpr.Attribute.Name
import AttrExpr.Proofs.Parse.Grammar
import Mathlib.Data.List.Basic

/-!
# Which Names Are Read

The names of instrumented attributes, and what is said of the others.

A name is judged by its first two segments. The first has to be a keyword as a
whole, so `when` is not found in `when-not`, and the second is a namespace only
if there is something in it. Whatever follows a second colon is not looked at,
which is why many names stand for one attribute, and why it makes sense to pick
one of them. The name that is picked has no further segments and no empty one,
and it is read as the attribute it was made from.

The parts of a name are told by where its colons are, and not by how it is cut.
Each name then is of one of three sorts, and each sort is read in its own way, so
what is read says of which sort the name is.

## Main definitions

* `Ends`: What may follow a segment.
* `Selects`: The namespace that follows a keyword.
* `Judged`: The three sorts of names, and what is said of each.
* `canonicalName`: The shortest name of an attribute.

## Theorems

* `read_of_selects`, `read_of_unknown`, `read_of_foreign`: What the three sorts
  of names are read as.
* `judged_read`: Every name is of one of them, and what is read says of which.
* `read_canonicalName`: The canonical name is read as its attribute.
* `read_segments`: Which names are read, as what, and why the others are not.
-/

namespace AttrExpr

namespace Directive

/-- A word is the keyword of one directive at most. -/
theorem ofKeyword?_eq_some_iff {keyword : String} {directive : Directive} :
    ofKeyword? keyword = some directive ↔ keyword = directive.keyword := by
  constructor
  · intro h
    unfold ofKeyword? at h
    have hfound := List.find?_some h
    exact (of_decide_eq_true hfound).symm
  · rintro rfl
    exact ofKeyword?_keyword directive

theorem colon_not_mem_keyword (directive : Directive) : ':' ∉ directive.keyword.toList := by
  cases directive with
  | when => decide
  | whenNot => decide
  | text => decide
  | html => decide
  | forEach => decide
  | letBind => decide

end Directive

namespace Attribute

/-- A segment ends here: nothing follows, or a colon does. Without it `when`
    would be found in front of `-not`. -/
def Ends (tail : List Char) : Prop := tail = [] ∨ ∃ text, tail = ':' :: text

/-- The namespace that what follows a keyword gives. It is the next segment, and
    there is none if that is empty. -/
inductive Selects : List Char → Option String → Prop
  | nothing : Selects [] none
  | empty {rest : List Char} (hrest : Ends rest) : Selects (':' :: rest) none
  | key {segment rest : List Char} (hne : segment ≠ []) (hsegment : ':' ∉ segment)
      (hrest : Ends rest) : Selects (':' :: (segment ++ rest)) (some (String.ofList segment))

/-- The three sorts of names, and what is said of each. The sorts are told by
    prefixes of the name and by where its colons are, with no cutting. -/
inductive Judged (name value : String) : Except NameFault Attribute → Prop
  | foreign (hforeign : ¬ "b-".toList <+: name.toList) :
      Judged name value (.error (.notInstrumented name))
  | unknown {keyword : String} {tail : List Char}
      (hname : name.toList = "b-".toList ++ (keyword.toList ++ tail))
      (hcolon : ':' ∉ keyword.toList) (htail : Ends tail)
      (hunknown : ∀ directive : Directive, keyword ≠ directive.keyword) :
      Judged name value (.error (.unknownDirective keyword))
  | known {directive : Directive} {tail : List Char} {key : Option String}
      (hname : name.toList = "b-".toList ++ (directive.keyword.toList ++ tail))
      (htail : Selects tail key) : Judged name value (.ok ⟨directive, key, value⟩)

/-- The name of an attribute with nothing in it that is not needed: no colon
    without a namespace, and no segment behind one. -/
def canonicalName (attr : Attribute) : String :=
  match attr.namespaceKey with
  | none => "b-" ++ attr.directive.keyword
  | some key => "b-" ++ attr.directive.keyword ++ (":" ++ key)

/-! ## Segments -/

theorem pieces_of_not_mem {cs : List Char} (h : ':' ∉ cs) : pieces cs = (cs, []) := by
  induction cs with
  | nil => rfl
  | cons c cs ih =>
      rw [List.mem_cons, not_or] at h
      rw [pieces, ih h.2]
      simp only [if_neg (Ne.symm h.1)]

/-- Up to the first colon there is one piece, and the others are those behind
    it. -/
theorem pieces_append {word : List Char} (h : ':' ∉ word) (rest : List Char) :
    pieces (word ++ ':' :: rest) = (word, (pieces rest).1 :: (pieces rest).2) := by
  induction word with
  | nil => rfl
  | cons c word ih =>
      rw [List.mem_cons, not_or] at h
      rw [List.cons_append, pieces, ih h.2]
      simp only [if_neg (Ne.symm h.1)]

/-- The first piece of a text is its first segment, whatever it is ended by. -/
theorem fst_pieces {segment rest : List Char} (h : ':' ∉ segment) (hrest : Ends rest) :
    (pieces (segment ++ rest)).1 = segment := by
  rcases hrest with rfl | ⟨text, rfl⟩
  · rw [List.append_nil, pieces_of_not_mem h]
  · rw [pieces_append h]

/-- Every text begins with a segment, which may be empty and may be all of it. -/
theorem exists_segment (cs : List Char) :
    ∃ segment rest, cs = segment ++ rest ∧ ':' ∉ segment ∧ Ends rest := by
  rcases Parse.exists_span (· != ':') cs with ⟨segment, rest, rfl, hsegment, hrest⟩
  have hnone : ':' ∉ segment := by
    intro hmem
    cases hsegment ':' hmem
  have hends : Ends rest := by
    cases rest with
    | nil => exact Or.inl rfl
    | cons c rest =>
        have hcolon : c = ':' := by simpa only [bne_eq_false_iff_eq] using hrest c rfl
        exact Or.inr ⟨rest, by rw [hcolon]⟩
  exact ⟨segment, rest, rfl, hnone, hends⟩

/-- Whatever follows a keyword as it has to gives a namespace or none. The next
    segment decides, and an empty one counts as none. -/
theorem exists_selects {tail : List Char} (h : Ends tail) : ∃ key, Selects tail key := by
  rcases h with rfl | ⟨text, rfl⟩
  · exact ⟨none, .nothing⟩
  · rcases exists_segment text with ⟨segment, rest, rfl, hsegment, hrest⟩
    by_cases hne : segment = []
    · subst hne
      exact ⟨none, .empty hrest⟩
    · exact ⟨_, .key hne hsegment hrest⟩

theorem Selects.ends {tail : List Char} {key : Option String} (h : Selects tail key) :
    Ends tail := by
  cases h with
  | nothing => exact Or.inl rfl
  | empty hrest => exact Or.inr ⟨_, rfl⟩
  | key hne hsegment hrest => exact Or.inr ⟨_, rfl⟩

/-! ## The three sorts of names -/

section

variable {name : String} (value : String)

theorem afterInstrumented?_eq_some_iff {rest : List Char} :
    afterInstrumented? name = some rest ↔ name.toList = "b-".toList ++ rest := by
  rw [afterInstrumented?, List.isPrefixOf?_eq_some_iff_append_eq]
  exact eq_comm

theorem afterInstrumented?_eq_none_iff :
    afterInstrumented? name = none ↔ ¬ "b-".toList <+: name.toList := by
  rw [Option.eq_none_iff_forall_ne_some]
  constructor
  · rintro h ⟨rest, hrest⟩
    exact h rest (afterInstrumented?_eq_some_iff.mpr hrest.symm)
  · exact fun h rest hrest => h ⟨rest, (afterInstrumented?_eq_some_iff.mp hrest).symm⟩

theorem read_of_foreign (h : ¬ "b-".toList <+: name.toList) :
    read name value = .error (.notInstrumented name) := by
  simp only [read, afterInstrumented?_eq_none_iff.mpr h]

theorem read_of_unknown {keyword : String} {tail : List Char}
    (hname : name.toList = "b-".toList ++ (keyword.toList ++ tail))
    (hcolon : ':' ∉ keyword.toList) (htail : Ends tail)
    (hunknown : ∀ directive : Directive, keyword ≠ directive.keyword) :
    read name value = .error (.unknownDirective keyword) := by
  have hnone : Directive.ofKeyword? keyword = none := by
    refine Option.eq_none_iff_forall_ne_some.mpr fun directive h => ?_
    exact hunknown directive (Directive.ofKeyword?_eq_some_iff.mp h)
  simp only [read, afterInstrumented?_eq_some_iff.mpr hname, fst_pieces hcolon htail,
    String.ofList_toList, hnone]

/-- A name with a keyword is read, and its second segment is the namespace if
    there is something in it. -/
theorem read_of_selects {directive : Directive} {tail : List Char} {key : Option String}
    (hname : name.toList = "b-".toList ++ (directive.keyword.toList ++ tail))
    (htail : Selects tail key) : read name value = .ok ⟨directive, key, value⟩ := by
  have hcolon := directive.colon_not_mem_keyword
  have hafter := afterInstrumented?_eq_some_iff.mpr hname
  cases htail with
  | nothing =>
      simp only [read, hafter, List.append_nil, pieces_of_not_mem hcolon, String.ofList_toList,
        Directive.ofKeyword?_keyword]
      rfl
  | @empty rest hrest =>
      have hfirst : (pieces rest).1 = [] := fst_pieces List.not_mem_nil hrest
      simp only [read, hafter, pieces_append hcolon, hfirst, String.ofList_toList,
        Directive.ofKeyword?_keyword]
      rfl
  | @key segment rest hne hsegment hrest =>
      -- What follows the second segment is cut as well, and then dropped.
      simp only [read, hafter, pieces_append hcolon, fst_pieces hsegment hrest,
        String.ofList_toList, Directive.ofKeyword?_keyword, List.head?_cons]
      rw [Option.filter_some, if_pos (decide_eq_true hne), Option.map_some]

end

/-- Every name is of one of the three sorts: it has no prefix, or its first
    segment is no keyword, or it is one. -/
theorem exists_judged (name value : String) : ∃ outcome, Judged name value outcome := by
  by_cases hinstrumented : "b-".toList <+: name.toList
  · rcases hinstrumented with ⟨rest, hrest⟩
    rcases exists_segment rest with ⟨segment, tail, rfl, hsegment, htail⟩
    have hname : name.toList = "b-".toList ++ ((String.ofList segment).toList ++ tail) := by
      rw [← hrest, String.toList_ofList (l := segment)]
    by_cases hknown : ∃ directive : Directive, String.ofList segment = directive.keyword
    · rcases hknown with ⟨directive, hdirective⟩
      rcases exists_selects htail with ⟨key, hkey⟩
      rw [hdirective] at hname
      exact ⟨_, .known hname hkey⟩
    · have hcolon : ':' ∉ (String.ofList segment).toList := by rwa [String.toList_ofList]
      exact ⟨_, .unknown hname hcolon htail fun directive h => hknown ⟨directive, h⟩⟩
  · exact ⟨_, .foreign hinstrumented⟩

/-- What is read says of which sort a name is. Each sort is read in its own way,
    so the converses of the three lemmas come from this one. -/
theorem judged_read (name value : String) : Judged name value (read name value) := by
  rcases exists_judged name value with ⟨outcome, houtcome⟩
  have hread : read name value = outcome := by
    cases houtcome with
    | foreign hforeign => exact read_of_foreign value hforeign
    | unknown hname hcolon htail hunknown => exact read_of_unknown value hname hcolon htail hunknown
    | known hname htail => exact read_of_selects value hname htail
  rwa [hread]

section

variable {name value : String}

/-- What a name is read as, told by the name. -/
theorem read_eq_ok_iff {attr : Attribute} : read name value = .ok attr ↔ ∃ tail,
    name.toList = "b-".toList ++ (attr.directive.keyword.toList ++ tail) ∧
      Selects tail attr.namespaceKey ∧ attr.value = value := by
  constructor
  · intro h
    have hjudged := judged_read name value
    rw [h] at hjudged
    cases hjudged with
    | known hname htail => exact ⟨_, hname, htail, rfl⟩
  · rintro ⟨tail, hname, htail, rfl⟩
    exact read_of_selects attr.value hname htail

theorem read_eq_notInstrumented_iff {found : String} :
    read name value = .error (.notInstrumented found) ↔
      found = name ∧ ¬ "b-".toList <+: name.toList := by
  constructor
  · intro h
    have hjudged := judged_read name value
    rw [h] at hjudged
    cases hjudged with
    | foreign hforeign => exact ⟨rfl, hforeign⟩
  · rintro ⟨rfl, hforeign⟩
    exact read_of_foreign value hforeign

theorem read_eq_unknownDirective_iff {keyword : String} :
    read name value = .error (.unknownDirective keyword) ↔ ∃ tail,
      name.toList = "b-".toList ++ (keyword.toList ++ tail) ∧ ':' ∉ keyword.toList ∧ Ends tail ∧
        ∀ directive : Directive, keyword ≠ directive.keyword := by
  constructor
  · intro h
    have hjudged := judged_read name value
    rw [h] at hjudged
    cases hjudged with
    | unknown hname hcolon htail hunknown => exact ⟨_, hname, hcolon, htail, hunknown⟩
  · rintro ⟨tail, hname, hcolon, htail, hunknown⟩
    exact read_of_unknown value hname hcolon htail hunknown

end

/-! ## Names made from attributes -/

/-- A namespace that was selected is selected by itself: it is a segment, and
    not empty, so what else the name had was not needed. -/
theorem Selects.alone {tail : List Char} {key : Option String} (h : Selects tail key) :
    Selects (key.elim [] fun key => ':' :: key.toList) key := by
  cases h with
  | nothing => exact .nothing
  | empty hrest => exact .nothing
  | @key segment rest hne hsegment hrest =>
      have halone := Selects.key hne hsegment (Or.inl rfl)
      rw [List.append_nil] at halone
      rwa [Option.elim_some, String.toList_ofList]

theorem toList_canonicalName (attr : Attribute) :
    attr.canonicalName.toList = "b-".toList ++ (attr.directive.keyword.toList ++
      attr.namespaceKey.elim [] fun key => ':' :: key.toList) := by
  cases hkey : attr.namespaceKey with
  | none =>
      simp only [canonicalName, hkey, String.toList_append, Option.elim_none, List.append_nil]
  | some key =>
      simp only [canonicalName, hkey, String.toList_append, Option.elim_some, List.append_assoc]
      rfl

/-- The canonical name is read as its attribute, if any name is. An attribute
    whose namespace is empty or has a colon in it is read from no name. -/
theorem read_canonicalName {name value : String} {attr : Attribute}
    (h : read name value = .ok attr) : read attr.canonicalName value = .ok attr := by
  rw [read_eq_ok_iff] at h ⊢
  rcases h with ⟨tail, _, htail, hvalue⟩
  exact ⟨_, toList_canonicalName attr, htail.alone, hvalue⟩

/-- The names that store bindings begin with an underscore. -/
theorem foreign_bindingName (key : String) : ¬ "b-".toList <+: (bindingName key).toList := by
  intro hprefix
  rw [bindingName, String.toList_append, String.toList_append] at hprefix
  rcases hprefix with ⟨rest, hrest⟩
  cases hrest

/-! ## All names -/

/-- A name is read if it is an instrumented prefix, a keyword, and then nothing or
    a colon and anything. The next segment is the namespace if there is something in
    it, and the value is kept. A name without the prefix is not instrumented, and one
    with it whose first segment is no keyword is refused for that. So the canonical
    name of whatever was read is read as the same, and the names that store bindings
    are not instrumented. -/
theorem read_segments (name value : String) :
    ((∃ attr, read name value = .ok attr) ↔ ∃ (directive : Directive) (tail : List Char),
      name.toList = "b-".toList ++ (directive.keyword.toList ++ tail) ∧ Ends tail) ∧
    (∀ attr, read name value = .ok attr ↔ ∃ tail,
      name.toList = "b-".toList ++ (attr.directive.keyword.toList ++ tail) ∧
        Selects tail attr.namespaceKey ∧ attr.value = value) ∧
    (∀ found, read name value = .error (.notInstrumented found) ↔
      found = name ∧ ¬ "b-".toList <+: name.toList) ∧
    (∀ keyword, read name value = .error (.unknownDirective keyword) ↔ ∃ tail,
      name.toList = "b-".toList ++ (keyword.toList ++ tail) ∧ ':' ∉ keyword.toList ∧ Ends tail ∧
        ∀ directive : Directive, keyword ≠ directive.keyword) ∧
    (∀ attr, read name value = .ok attr → read attr.canonicalName value = .ok attr) ∧
    ∀ key, isInstrumented (bindingName key) = false := by
  have hreads : (∃ attr, read name value = .ok attr) ↔ ∃ (directive : Directive)
      (tail : List Char), name.toList = "b-".toList ++ (directive.keyword.toList ++ tail) ∧
        Ends tail := by
    constructor
    · rintro ⟨attr, h⟩
      rcases read_eq_ok_iff.mp h with ⟨tail, hname, htail, _⟩
      exact ⟨attr.directive, tail, hname, htail.ends⟩
    · rintro ⟨directive, tail, hname, htail⟩
      -- Whatever ends a keyword selects a namespace or none.
      rcases exists_selects htail with ⟨key, hkey⟩
      exact ⟨_, read_of_selects value hname hkey⟩
  have hinternal : ∀ key, isInstrumented (bindingName key) = false := by
    intro key
    rw [isInstrumented, afterInstrumented?_eq_none_iff.mpr (foreign_bindingName key)]
    rfl
  exact ⟨hreads, fun _ => read_eq_ok_iff, fun _ => read_eq_notInstrumented_iff,
    fun _ => read_eq_unknownDirective_iff, fun _ => read_canonicalName, hinternal⟩

/-- A keyword that begins with another one, an empty namespace and a segment more;
    and the other keyword with something behind it that is no segment. -/
theorem read_segments_whenNot :
    read "b-when-not::x" "v" = .ok ⟨.whenNot, none, "v"⟩ ∧
    read "b-when-not" "v" = .ok ⟨.whenNot, none, "v"⟩ ∧
    read "b-when-no:x" "v" = .error (.unknownDirective "when-no") := by
  have hread : read "b-when-not::x" "v" = .ok ⟨.whenNot, none, "v"⟩ :=
    ((read_segments _ _).2.1 _).mpr ⟨"::x".toList, by decide, .empty (Or.inr ⟨['x'], rfl⟩), rfl⟩
  -- The segment has a keyword for its beginning and is not one.
  have hunknown : ∀ directive : Directive, "when-no" ≠ directive.keyword := by
    intro directive
    cases directive with
    | when | whenNot | text | html | forEach | letBind => decide
  have hrefused : read "b-when-no:x" "v" = .error (.unknownDirective "when-no") :=
    ((read_segments _ _).2.2.2.1 _).mpr
      ⟨":x".toList, by decide, by decide, Or.inr ⟨['x'], rfl⟩, hunknown⟩
  exact ⟨hread, (read_segments _ _).2.2.2.2.1 _ hread, hrefused⟩

end Attribute

end AttrExpr
