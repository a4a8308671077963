import PropertyWeaver.Proofs.Blanks
import PropertyWeaver.Proofs.Hosts
import PropertyWeaver.Proofs.Reading

/-!
# How a reference is written in a marker

A marker argument is an expression, and there are several for one reference: a string, a verbatim
string, the name operator on the reference, or the reference itself if it does not look like one of
these.  `Writes reference form` says which forms there are, and `Spells` puts blank characters
around them.

An argument is trimmed and then read by how it begins, so the form is found under the blank
characters (`argumentName_of_padded`), and in the form the reference, whatever is in it
(`readForm_of_writes`).  References are all that a pass reads of marker arguments, so it is the
same pass when they are spelled in another way (`readAlike_of_respelled`).

## Main results

* `argumentName_of_spells` — every spelling of a reference is read as that reference.
* `Generator.run_respelled` — no pass depends on the spellings.
-/

namespace PropertyWeaver

/-! ## Forms of a reference -/

/-- The reference can stand between quotes and be told from them and from blank characters. -/
structure Quotable (reference : String) : Prop where
  flush : Text.Flush reference
  first : ∀ c ∈ reference.toList.head?, (c == '"') = false
  last : ∀ c ∈ reference.toList.getLast?, (c == '"') = false

instance (reference : String) : Decidable (Quotable reference) :=
  decidable_of_iff
    (Text.Flush reference ∧ reference.toList.head?.all (fun c => !(c == '"')) = true ∧
      reference.toList.getLast?.all (fun c => !(c == '"')) = true)
    ⟨fun h => ⟨h.1, Text.all_not_iff.1 h.2.1, Text.all_not_iff.1 h.2.2⟩,
      fun h => ⟨h.flush, Text.all_not_iff.2 h.first, Text.all_not_iff.2 h.last⟩⟩

/-- The text is the name operator on something. -/
def IsOperatorForm (text : String) : Prop := ∃ operand, text = "nameof(" ++ operand ++ ")"

/-- The text begins like a verbatim string. -/
def IsVerbatimStart (text : String) : Prop := ∃ rest, text = "@\"" ++ rest

/-- The forms in which an argument writes a reference. -/
inductive Writes (reference : String) : String → Prop where
  | quoted : Writes reference ("\"" ++ reference ++ "\"")
  | verbatim : Writes reference ("@\"" ++ reference ++ "\"")
  | operator {operand : String} (hoperand : Text.Padded reference operand) :
      Writes reference ("nameof(" ++ operand ++ ")")
  | bare (hne : reference ≠ "") (hoperator : ¬ IsOperatorForm reference)
      (hverbatim : ¬ IsVerbatimStart reference) : Writes reference reference

/-- The argument is a form of the reference, with blank characters around it. -/
def Spells (reference argument : String) : Prop :=
  ∃ form, Writes reference form ∧ Text.Padded form argument

/-- A text with two visible ends is flush. -/
theorem Text.flush_of_ends {s : String} {first last : Char} {middle : List Char}
    (hs : s.toList = first :: (middle ++ [last])) (hfirst : isBlank first = false)
    (hlast : isBlank last = false) : Flush s ∧ s ≠ "" := by
  refine ⟨⟨fun c hc => ?_, fun c hc => ?_⟩, ?_⟩
  · rw [hs] at hc
    cases hc
    exact hfirst
  · rw [hs, ← List.cons_append, List.getLast?_concat] at hc
    cases hc
    exact hlast
  · rintro rfl
    cases hs

/-- The characters of a text between two marks. -/
theorem Text.toList_between (start text stop : String) :
    (start ++ text ++ stop).toList = start.toList ++ (text.toList ++ stop.toList) := by
  rw [String.toList_append, String.toList_append, List.append_assoc]

/-- A form begins and ends with characters of its own, or is the reference. -/
theorem Writes.flush {reference form : String} (h : Quotable reference)
    (hform : Writes reference form) : Text.Flush form ∧ form ≠ "" := by
  cases hform with
  | quoted => exact Text.flush_of_ends (Text.toList_between _ _ _) (by decide) (by decide)
  | verbatim =>
      have hchars : ("@\"" ++ reference ++ "\"").toList =
          '@' :: ('"' :: reference.toList ++ ['"']) := Text.toList_between _ _ _
      exact Text.flush_of_ends hchars (by decide) (by decide)
  | @operator operand =>
      have hchars : ("nameof(" ++ operand ++ ")").toList =
          'n' :: ("ameof(".toList ++ operand.toList ++ [')']) := by
        rw [Text.toList_between, List.append_assoc]
        rfl
      exact Text.flush_of_ends hchars (by decide) (by decide)
  | bare hne => exact ⟨h.flush, hne⟩

/-! ## Reading an argument -/

/-- What a form is read as. -/
def readForm (form : String) : String :=
  if Text.beginsWith nameOperator form && Text.endsWith ")" form then
    Text.trim (String.ofList (form.toList.drop nameOperator.length).dropLast)
  else String.ofList (Text.trimBoth (· == '"') (dropVerbatimMark form.toList))

/-- An argument is read as the form under the blank characters. -/
theorem argumentName_of_padded {form argument : String} (h : Text.Padded form argument)
    (hflush : Text.Flush form) (hne : form ≠ "") : argumentName argument = readForm form := by
  have hblank : Text.isBlankText argument = false := by
    obtain ⟨before, after, -, -, hlist⟩ := h
    obtain ⟨c, cs, hcons⟩ :=
      List.exists_cons_of_ne_nil (fun hnil => hne (String.toList_inj.1 hnil))
    have hfirst := hflush.first
    rw [hcons] at hfirst
    have hc : Text.isBlank c = false := hfirst c rfl
    rw [Text.isBlankText, hlist, hcons]
    simp [hc]
  unfold argumentName readForm
  simp only [hblank, Text.trim_of_padded h hflush, Bool.false_eq_true, if_false]

theorem readForm_operator (operand : String) :
    readForm ("nameof(" ++ operand ++ ")") = Text.trim operand := by
  have hchars := Text.toList_between "nameof(" operand ")"
  have hbegins : Text.beginsWith nameOperator ("nameof(" ++ operand ++ ")") = true := by
    rw [String.append_assoc]
    exact Text.beginsWith_append nameOperator (operand ++ ")")
  have hends : Text.endsWith ")" ("nameof(" ++ operand ++ ")") = true :=
    Text.endsWith_append ("nameof(" ++ operand) ")"
  have hoperand : (("nameof(".toList ++ (operand.toList ++ ")".toList)).drop
      nameOperator.length).dropLast = operand.toList := List.dropLast_concat
  rw [readForm, hbegins, hends, hchars, hoperand, String.ofList_toList]
  rfl

/-- What begins and ends like the name operator is one, as the two do not overlap. -/
theorem readForm_of_not_isOperatorForm {form : String} (h : ¬ IsOperatorForm form) :
    readForm form = String.ofList (Text.trimBoth (· == '"') (dropVerbatimMark form.toList)) := by
  have hread : ¬ (Text.beginsWith nameOperator form && Text.endsWith ")" form) = true := by
    rw [Bool.and_eq_true]
    rintro ⟨hbegins, hends⟩
    obtain ⟨rest, hrest⟩ := Text.beginsWith_iff.1 hbegins
    obtain ⟨init, hinit⟩ := Text.endsWith_iff.1 hends
    rcases List.eq_nil_or_concat rest with rfl | ⟨operand, last, rfl⟩
    · have hlast := congrArg List.getLast? (hinit.trans hrest.symm)
      rw [List.append_nil, List.getLast?_append] at hlast
      exact absurd (Option.some.inj hlast) (by decide)
    · rw [List.concat_eq_append, ← List.append_assoc] at hrest
      obtain ⟨-, hlast⟩ := List.append_inj' (hrest.trans hinit.symm) rfl
      refine h ⟨String.ofList operand, ?_⟩
      rw [← String.toList_inj, Text.toList_between, ← hrest, hlast, List.append_assoc]
      exact congrArg (fun text => nameOperator.toList ++ (text ++ ")".toList))
        String.toList_ofList.symm
  rw [readForm, if_neg hread]

theorem not_isOperatorForm {form : String} {first : Char} {rest : List Char}
    (hform : form.toList = first :: rest) (hfirst : first ≠ 'n') : ¬ IsOperatorForm form := by
  rintro ⟨operand, hoperand⟩
  have hchars := Text.toList_between "nameof(" operand ")"
  rw [← hoperand, hform] at hchars
  exact hfirst (List.cons.inj hchars).1

/-- What begins with a letter of its own is a form of itself. -/
theorem Writes.bare_of_first {reference : String} {first : Char} {rest : List Char}
    (hreference : reference.toList = first :: rest) (hoperator : first ≠ 'n')
    (hverbatim : first ≠ '@') : Writes reference reference := by
  refine .bare ?_ (not_isOperatorForm hreference hoperator) ?_
  · rintro rfl
    cases hreference
  · rintro ⟨text, rfl⟩
    rw [String.toList_append] at hreference
    exact hverbatim (List.cons.inj hreference).1.symm

/-- Quotes around a reference are all that is trimmed of it. -/
theorem trimBoth_quotes {reference : String} (h : Quotable reference) {before after : List Char}
    (hbefore : ∀ c ∈ before, (c == '"') = true) (hafter : ∀ c ∈ after, (c == '"') = true) :
    Text.trimBoth (· == '"') (before ++ reference.toList ++ after) = reference.toList :=
  Text.trimBoth_append hbefore hafter h.first h.last

theorem readForm_of_writes {reference form : String} (h : Quotable reference)
    (hform : Writes reference form) : readForm form = reference := by
  have hquoted : Text.trimBoth (· == '"') ('"' :: (reference.toList ++ ['"'])) =
      reference.toList := by
    have hquote : ∀ c ∈ ['"'], (c == '"') = true := List.forall_mem_singleton.2 (by decide)
    exact trimBoth_quotes h hquote hquote
  cases hform with
  | quoted =>
      have hchars : ("\"" ++ reference ++ "\"").toList = '"' :: (reference.toList ++ ['"']) :=
        Text.toList_between _ _ _
      rw [readForm_of_not_isOperatorForm (not_isOperatorForm hchars (by decide)), hchars,
        dropVerbatimMark, hquoted, String.ofList_toList]
      exact fun _ hcons => absurd (List.cons.inj hcons).1 (by decide)
  | verbatim =>
      have hchars : ("@\"" ++ reference ++ "\"").toList =
          '@' :: '"' :: (reference.toList ++ ['"']) := Text.toList_between _ _ _
      rw [readForm_of_not_isOperatorForm (not_isOperatorForm hchars (by decide)), hchars,
        dropVerbatimMark, hquoted, String.ofList_toList]
  | operator hoperand =>
      rw [readForm_operator]
      exact Text.trim_of_padded hoperand h.flush
  | bare hne hoperator hverbatim =>
      have hmark : dropVerbatimMark reference.toList = reference.toList := by
        unfold dropVerbatimMark
        split
        · next rest hcons =>
            refine absurd ⟨String.ofList rest, ?_⟩ hverbatim
            rw [← String.toList_inj, hcons, String.toList_append]
            exact congrArg ("@\"".toList ++ ·) String.toList_ofList.symm
        · rfl
      have hbare := trimBoth_quotes h (List.forall_mem_nil _) (List.forall_mem_nil _)
      rw [List.nil_append, List.append_nil] at hbare
      rw [readForm_of_not_isOperatorForm hoperator, hmark, hbare, String.ofList_toList]

/-- Every spelling of a reference is read as that reference. -/
theorem argumentName_of_spells {reference argument : String} (h : Quotable reference)
    (hspells : Spells reference argument) : argumentName argument = reference := by
  obtain ⟨form, hform, hpadded⟩ := hspells
  obtain ⟨hflush, hne⟩ := hform.flush h
  rw [argumentName_of_padded hpadded hflush hne, readForm_of_writes h hform]

/-! ## Spelling arguments in another way -/

/-- The arguments are spellings of one reference, or the same. -/
def Respelled (argument argument' : String) : Prop :=
  argument' = argument ∨
    ∃ reference, Quotable reference ∧ Spells reference argument ∧ Spells reference argument'

theorem Respelled.argumentName_eq {argument argument' : String}
    (h : Respelled argument argument') : argumentName argument' = argumentName argument := by
  rcases h with rfl | ⟨reference, href, hargument, hargument'⟩
  · rfl
  · rw [argumentName_of_spells href hargument, argumentName_of_spells href hargument']

/-- The attribute with its arguments, if there are any, spelled in another way. -/
structure Attribute.Respelled (a a' : Attribute) : Prop where
  name_eq : a'.name = a.name
  arguments : Option.Rel (List.Forall₂ PropertyWeaver.Respelled) a.arguments a'.arguments

/-- The declaration with the arguments of its attributes spelled in another way. -/
structure Declaration.Respelled (d d' : Declaration) : Prop where
  attributes : List.Forall₂ Attribute.Respelled d.attributes d'.attributes
  rest_eq : d' = { d with attributes := d'.attributes }

/-- The file with the arguments of attributes spelled in another way. -/
structure SourceFile.Respelled (file file' : SourceFile) : Prop where
  declarations : List.Forall₂ Declaration.Respelled file.declarations file'.declarations
  rest_eq : file' = { file with declarations := file'.declarations }

theorem Declaration.Respelled.marker?_rel {d d' : Declaration} (h : d.Respelled d')
    (s : Settings) : Option.Rel Attribute.Respelled (d.marker? s) (d'.marker? s) := by
  unfold marker?
  have hattributes := h.attributes
  generalize d.attributes = as at hattributes
  generalize d'.attributes = as' at hattributes
  induction hattributes with
  | nil => exact .none
  | cons ha _ ih =>
      rename_i a a' as as' _
      rw [List.find?_cons, List.find?_cons, ha.name_eq]
      cases s.isMarker a.name with
      | true => exact .some ha
      | false => exact ih

theorem Attribute.Respelled.map_argumentName_eq {a a' : Attribute} (h : a.Respelled a') :
    (a'.arguments.getD []).map argumentName = (a.arguments.getD []).map argumentName := by
  obtain ⟨name, arguments⟩ := a
  obtain ⟨name', arguments'⟩ := a'
  cases h.arguments with
  | none => rfl
  | some harguments =>
      rw [Option.getD_some, Option.getD_some, ← List.forall₂_eq_eq_eq, List.forall₂_map_left_iff,
        List.forall₂_map_right_iff]
      exact harguments.flip.imp fun _ _ hargument => Respelled.argumentName_eq hargument

namespace Declaration.Respelled

variable {d d' : Declaration} (h : d.Respelled d') (s : Settings)
include h

theorem markerReferences_eq : d'.markerReferences s = d.markerReferences s := by
  have hmarker := h.marker?_rel s
  unfold markerReferences
  generalize d.marker? s = a at hmarker
  generalize d'.marker? s = a' at hmarker
  cases hmarker with
  | none => rfl
  | some ha => exact ha.map_argumentName_eq

theorem isMarkedCandidate_eq : d'.isMarkedCandidate s = d.isMarkedCandidate s := by
  have hmarked : (d'.marker? s).isSome = (d.marker? s).isSome := by
    have hmarker := h.marker?_rel s
    generalize d.marker? s = a at hmarker
    generalize d'.marker? s = a' at hmarker
    cases hmarker <;> rfl
  have hinterface : d'.isInterface = d.isInterface := by
    rw [h.rest_eq]
    rfl
  rw [isMarkedCandidate, hmarked, hinterface, isMarkedCandidate]

end Declaration.Respelled

/-! ## Passes -/

namespace Generator

variable {g : Generator} (hmarker : g.strategy.discovery = .markerArguments)
include hmarker

/-- A declaration with its arguments spelled in another way is the same to a pass. -/
theorem readAlike_of_respelled {file file' : SourceFile} {d d' : Declaration}
    (hfile : file.Respelled file') (h : d.Respelled d') :
    g.ReadAlike (file', d') (file, d) := by
  have hreferences : g.references d' = g.references d := by
    rw [references, references, hmarker]
    exact congrArg Except.ok (h.markerReferences_eq g.settings)
  refine ⟨?_, ?_, ?_⟩
  · rw [hfile.rest_eq]
  · rw [isCandidate, isCandidate, hmarker]
    exact h.isMarkedCandidate_eq g.settings
  · have htarget : ∀ references, TargetType.ofDeclaration d' file' references =
        TargetType.ofDeclaration d file references := by
      intro references
      rw [h.rest_eq, hfile.rest_eq]
      rfl
    unfold plan
    simp only [hreferences, htarget]

theorem generate_respelled {files files' : List SourceFile}
    (h : List.Forall₂ SourceFile.Respelled files files') (find : String → Option Symbol) :
    g.generate (Host.declarations ⟨files', find⟩) =
      g.generate (Host.declarations ⟨files, find⟩) := by
  refine g.generate_of_readAlike ?_
  induction h with
  | nil => exact .nil
  | cons hfile _ ih =>
      rename_i file file' files files' _
      refine List.rel_append ?_ ih
      rw [List.forall₂_map_left_iff, List.forall₂_map_right_iff]
      exact hfile.declarations.flip.imp fun _ _ hd => readAlike_of_respelled hmarker hfile hd

end Generator

/--
An argument means the reference that it spells.  So a pass by markers, on any host and under any
token, is the same with arguments spelled in another way: it ends alike, and logs alike.
-/
theorem Generator.run_respelled :
    (∀ reference argument, Quotable reference → Spells reference argument →
      argumentName argument = reference) ∧
    ∀ (g : Generator) (host : Host) (files : List SourceFile) (token : Token),
      g.strategy.discovery = .markerArguments →
        List.Forall₂ SourceFile.Respelled host.files files →
          g.runOn { host with files := files } token = g.runOn host token := by
  refine ⟨fun _ _ href hspells => argumentName_of_spells href hspells, ?_⟩
  intro g host files token hmarker hfiles
  exact congrArg (fun script : Script Report => script.run host.find token)
    (generate_respelled hmarker hfiles host.find)

/-- The parts of a class with the references of its markers written in other ways. -/
def SourceFile.requotedParts : List SourceFile := [
  ⟨"Foo.cs", ["using N;"], [.marked ["App"] "Foo" ["\"IBar\"", " nameof( INone )"]]⟩,
  ⟨"Foo.Part.cs", [], [.marked ["App"] "Foo" ["@\"N.IBar\""]]⟩]

theorem run_requotedParts :
    argumentName " nameof( INone )" = "INone" ∧
      (Generator.mk .byName .usual).runOn
          { Host.generous with files := SourceFile.requotedParts } .idle =
        (Generator.mk .byName .usual).runOn .generous .idle := by
  have hbar : Spells "IBar" "\"IBar\"" := ⟨_, .quoted, Text.padded_self _⟩
  have hnone : Spells "INone" " nameof( INone )" := by
    have hspace : ∀ c ∈ [' '], Text.isBlank c = true := List.forall_mem_singleton.2 (by decide)
    have hoperand : Text.Padded "INone" " INone " := ⟨[' '], [' '], hspace, hspace, rfl⟩
    exact ⟨_, .operator hoperand, [' '], [], hspace, List.forall_mem_nil _, rfl⟩
  have hdotted : Spells "N.IBar" "@\"N.IBar\"" := ⟨_, .verbatim, Text.padded_self _⟩
  have hbare : ∀ name argument, Quotable name → Writes name name → Spells name argument →
      Respelled name argument :=
    fun name argument hname hself hargument =>
      .inr ⟨name, hname, ⟨name, hself, Text.padded_self name⟩, hargument⟩
  have hmarked : ∀ arguments arguments', List.Forall₂ Respelled arguments arguments' →
      (Declaration.marked ["App"] "Foo" arguments).Respelled (.marked ["App"] "Foo" arguments') :=
    fun _ _ harguments => ⟨.cons ⟨rfl, .some harguments⟩ .nil, rfl⟩
  obtain ⟨hmeans, hpass⟩ := Generator.run_respelled
  refine ⟨hmeans _ _ (by decide) hnone, hpass _ _ _ _ rfl
    (.cons ⟨.cons (hmarked _ _ ?_) .nil, rfl⟩ (.cons ⟨.cons (hmarked _ _ ?_) .nil, rfl⟩ .nil))⟩
  · exact .cons (hbare _ _ (by decide) (.bare_of_first rfl (by decide) (by decide)) hbar)
      (.cons (hbare _ _ (by decide) (.bare_of_first rfl (by decide) (by decide)) hnone) .nil)
  · exact .cons (hbare _ _ (by decide) (.bare_of_first rfl (by decide) (by decide)) hdotted) .nil

end PropertyWeaver
