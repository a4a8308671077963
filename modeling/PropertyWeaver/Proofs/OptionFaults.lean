import PropertyWeaver.Proofs.AcceptedSettings
import PropertyWeaver.Proofs.FirstOccurrence
import PropertyWeaver.Settings.Options

/-!
# What is wrong with options

Options are read one after the other, and reading stops at the first that has a fault of its own: a
key that is meant for this library and names no field, or a value for the header that is no truth
value.  Only when all have been read are the settings checked, so the value of one field can be
given several times, and all but the last do not matter.

`Draft.withLast` is a draft with the last value that options give for each field.  Reading an option
without a fault is setting what it gives (`readOption_of_not_offends`), and what is given by several
options can be set one option at a time (`withLast_cons`); so reading goes through to the draft with
the last values, or stops at the first option with a fault (`readOptions_of_isFirst`).

The checks are listed in their order by `Draft.requirements`, and the first that is not met is the
fault of the draft (`check_of_isFirst`).

## Main results

* `check_of_isFirst` — which check a draft is refused by.
* `Settings.ofOptions_of_isFirst`, `Settings.ofOptions_of_forall` — what comes of options.
* `Settings.ofOptions_outcome` — when options are refused, and with what fault.
-/

namespace PropertyWeaver

/-! ## The checks in their order -/

namespace Draft

/-- What is required of a draft, in the order in which it is checked, each with the fault of a draft
that does not meet it. -/
def requirements (d : Draft) : List (Prop × Fault) := [
  (∀ segment ∈ d.attributeNamespace.toList.splitOn '.', Text.IsLineIdentifier segment,
    .namespaceNotDotted d.attributeNamespace),
  (Text.IsLineIdentifier d.attributeName.toList, .nameNotIdentifier d.attributeName),
  (¬ "Attribute".toList <:+ d.attributeName.toList, .nameSuffixed d.attributeName),
  (".cs".toList <:+ d.fileSuffix.toList, .suffixNotSource d.fileSuffix),
  (d.visibility ∈ ["public", "internal", "protected internal"], .unknownVisibility d.visibility),
  (∀ rendering ∈ d.rendering, rendering ∈ ["display", "qualified"],
    .unknownRendering (d.rendering.getD ""))]

theorem forall_requirements_iff {d : Draft} :
    (∀ r ∈ d.requirements, r.1) ↔ d.MadeOf Text.IsLineIdentifier := by
  simp only [requirements, List.forall_mem_cons, List.not_mem_nil, IsEmpty.forall_iff, implies_true,
    and_true]
  constructor
  · rintro ⟨hsegments, hname, hbare, hsource, hvisibility, hrendering⟩
    exact ⟨hsegments, hname, hbare, hsource, hvisibility, hrendering⟩
  · rintro ⟨hsegments, hname, hbare, hsource, hvisibility, hrendering⟩
    exact ⟨hsegments, hname, hbare, hsource, hvisibility, hrendering⟩

theorem checkVisibility_of_not_mem {name : String}
    (h : name ∉ ["public", "internal", "protected internal"]) :
    checkVisibility name = .error (.unknownVisibility name) := by
  cases hread : checkVisibility name with
  | ok visibility => exact absurd (exists_checkVisibility_iff.1 ⟨visibility, hread⟩) h
  | error fault => rw [fault_of_checkVisibility hread]

theorem checkRendering_of_not_mem {asked : Option String}
    (h : ¬ ∀ rendering ∈ asked, rendering ∈ ["display", "qualified"]) :
    checkRendering asked = .error (.unknownRendering (asked.getD "")) := by
  cases hread : checkRendering asked with
  | ok rendering => exact absurd (exists_checkRendering_iff.1 ⟨rendering, hread⟩) h
  | error fault =>
      obtain ⟨name, hname, rfl⟩ := fault_of_checkRendering hread
      cases hname
      rfl

/-- The first requirement that a draft does not meet is what it is refused by.  The checks are
followed one by one. -/
theorem check_of_isFirst {d : Draft} {r : Prop × Fault}
    (h : IsFirst (fun r => ¬ r.1) d.requirements r) : d.check = .error r.2 := by
  unfold check
  rcases isFirst_cons.1 h with ⟨rfl, hns⟩ | ⟨hns, h⟩
  · rw [dif_neg (mt Text.isDottedIdentifier_iff.1 hns)]
  rw [dif_pos (Text.isDottedIdentifier_iff.2 (not_not.1 hns))]
  rcases isFirst_cons.1 h with ⟨rfl, hname⟩ | ⟨hname, h⟩
  · rw [dif_neg (mt Text.isIdentifier_iff.1 hname)]
  rw [dif_pos (Text.isIdentifier_iff.2 (not_not.1 hname))]
  rcases isFirst_cons.1 h with ⟨rfl, hbare⟩ | ⟨hbare, h⟩
  · have hends := Text.endsWith_iff.2 (not_not.1 hbare)
    rw [dif_neg (by simp [hends])]
  rw [dif_pos (Bool.not_eq_true _ ▸ mt Text.endsWith_iff.1 (not_not.1 hbare))]
  rcases isFirst_cons.1 h with ⟨rfl, hsource⟩ | ⟨hsource, h⟩
  · rw [dif_neg (mt Text.endsWith_iff.1 hsource)]
  rw [dif_pos (Text.endsWith_iff.2 (not_not.1 hsource))]
  rcases isFirst_cons.1 h with ⟨rfl, hvisibility⟩ | ⟨hvisibility, h⟩
  · rw [checkVisibility_of_not_mem hvisibility]
  obtain ⟨visibility, hread⟩ := exists_checkVisibility_iff.2 (not_not.1 hvisibility)
  rw [hread]
  rcases isFirst_cons.1 h with ⟨rfl, hrendering⟩ | ⟨-, h⟩
  · rw [checkRendering_of_not_mem hrendering]
  · cases h.mem.1

end Draft

/-! ## Options that have a fault of their own -/

/-- The key is meant for this library. -/
def IsOptionKey (key : String) : Prop :=
  optionKeyStart.toList <+: (Text.lower (Text.trim key)).toList

/-- The key is that of the field, when it is read without regard to case and to the blank characters
around it. -/
def OptionField.Named (field : OptionField) (key : String) : Prop :=
  Text.lower (Text.trim key) = optionKeyStart ++ field.text

instance (field : OptionField) (key : String) : Decidable (field.Named key) :=
  inferInstanceAs (Decidable (Text.lower (Text.trim key) = optionKeyStart ++ field.text))

/-- The key is meant for this library, but it is that of no field. -/
def IsUnknownKey (key : String) : Prop :=
  IsOptionKey key ∧ ∀ field : OptionField, ¬ field.Named key

/-- The option is for the header, but its value is none of the words for a truth value. -/
def IsBadFlag (option : String × String) : Prop :=
  OptionField.header.Named option.1 ∧
    Text.lower (Text.trim option.2) ∉ trueWords ++ falseWords

/-- The option cannot be read. -/
def Offends (option : String × String) : Prop := IsUnknownKey option.1 ∨ IsBadFlag option

instance (key : String) : Decidable (IsOptionKey key) :=
  inferInstanceAs (Decidable (optionKeyStart.toList <+: (Text.lower (Text.trim key)).toList))

instance (key : String) : Decidable (IsUnknownKey key) :=
  decidable_of_iff (IsOptionKey key ∧ ∀ field ∈ OptionField.all, ¬ field.Named key) <| by
    have hall : ∀ field : OptionField, field ∈ OptionField.all := by
      intro field
      cases field <;> decide
    simp only [IsUnknownKey, hall, true_imp_iff]

instance (option : String × String) : Decidable (IsBadFlag option) :=
  inferInstanceAs (Decidable (_ ∧ _))

instance (option : String × String) : Decidable (Offends option) :=
  inferInstanceAs (Decidable (_ ∨ _))

/-- The fault of an option that cannot be read. -/
def complaint (option : String × String) : Fault :=
  if OptionField.header.Named option.1 then .notFlag option.1 (Text.trim option.2)
  else .unknownOption option.1

/-- The host is told the key of the option as it was written. -/
theorem diagnostic_complaint (option : String × String) :
    ∃ diagnostic, (complaint option).diagnostic? = some diagnostic ∧
      diagnostic.category = .validation ∧ ("option", option.1) ∈ diagnostic.context := by
  unfold complaint
  split
  · exact ⟨_, rfl, rfl, List.mem_cons_self⟩
  · exact ⟨_, rfl, rfl, List.mem_cons_self⟩

theorem OptionField.Named.optionName?_eq {field : OptionField} {key : String}
    (h : field.Named key) : optionName? key = some field.text :=
  optionName?_eq_some_iff.2 h

theorem OptionField.Named.unique {field other : OptionField} {key : String} (h : field.Named key)
    (h' : other.Named key) : field = other :=
  eq_of_text_eq (Option.some.inj (h.optionName?_eq.symm.trans h'.optionName?_eq))

theorem flag?_of_mem {word : String} (h : Text.lower word ∈ trueWords ++ falseWords) :
    flag? word = some (decide (Text.lower word ∈ trueWords)) := by
  unfold flag?
  rw [List.mem_append] at h
  by_cases htrue : Text.lower word ∈ trueWords
  · rw [if_pos htrue, decide_eq_true htrue]
  · rw [if_neg htrue, if_pos (h.resolve_left htrue), decide_eq_false htrue]

theorem flag?_of_not_mem {word : String} (h : Text.lower word ∉ trueWords ++ falseWords) :
    flag? word = none := by
  rw [List.mem_append, not_or] at h
  rw [flag?, if_neg h.1, if_neg h.2]

/-! ## The last values -/

/-- What an option gives for a field: its value without the blank characters around it. -/
def OptionField.given (field : OptionField) (option : String × String) : Option String :=
  if field.Named option.1 then some (Text.trim option.2) else none

/-- What the last of the options for a field gives for it. -/
def OptionField.lastGiven (field : OptionField) (options : List (String × String)) :
    Option String :=
  options.reverse.findSome? field.given

/-- An option is what counts for a field, unless a later one does. -/
theorem OptionField.lastGiven_cons (field : OptionField) (option : String × String)
    (options : List (String × String)) :
    field.lastGiven (option :: options) =
      (field.lastGiven options).or (field.lastGiven [option]) := by
  unfold lastGiven
  rw [List.reverse_cons, List.findSome?_append]
  rfl

theorem OptionField.lastGiven_singleton (field : OptionField) (option : String × String) :
    field.lastGiven [option] = field.given option :=
  List.findSome?_singleton ..

namespace Draft

/-- The draft with what options give last for each field.  A blank value leaves the rendering open,
and of the words for a truth value those that are not for true are for false. -/
def withLast (d : Draft) (options : List (String × String)) : Draft where
  attributeNamespace :=
    (OptionField.attributeNamespace.lastGiven options).getD d.attributeNamespace
  attributeName := (OptionField.attributeName.lastGiven options).getD d.attributeName
  fileSuffix := (OptionField.fileSuffix.lastGiven options).getD d.fileSuffix
  visibility := (OptionField.visibility.lastGiven options).getD d.visibility
  rendering :=
    ((OptionField.rendering.lastGiven options).map fun value =>
      if value = "" then none else some value).getD d.rendering
  header :=
    ((OptionField.header.lastGiven options).map fun value =>
      decide (Text.lower value ∈ trueWords)).getD d.header

/-- What several options give can be set one option at a time. -/
theorem withLast_cons (d : Draft) (option : String × String) (options : List (String × String)) :
    d.withLast (option :: options) = (d.withLast [option]).withLast options := by
  simp only [withLast, OptionField.lastGiven_cons _ option options, Option.map_or, Option.getD_or]

/-! ## Reading -/

variable {d : Draft}

/-- Setting a field from an option that can be read is setting what the option gives. -/
theorem setField_of_named {field : OptionField} {key value : String} (h : field.Named key)
    (hflag : ¬ IsBadFlag (key, value)) :
    d.setField key (Text.trim value) field = .ok (d.withLast [(key, value)]) := by
  have hgiven : ∀ other : OptionField, other.lastGiven [(key, value)] =
      if other = field then some (Text.trim value) else none := by
    intro other
    rw [OptionField.lastGiven_singleton]
    by_cases hother : other = field
    · rw [if_pos hother, hother]
      exact if_pos h
    · rw [if_neg hother]
      exact if_neg fun hnamed => hother (hnamed.unique h)
  cases field with
  | header =>
      have hword : Text.lower (Text.trim value) ∈ trueWords ++ falseWords := by
        by_contra hword
        exact hflag ⟨h, hword⟩
      simp only [setField_header, flag?_of_mem hword, withLast, hgiven, reduceCtorEq, if_true,
        if_false, Option.map_some, Option.map_none, Option.getD_some, Option.getD_none]
  | _ =>
      simp only [setField, withLast, hgiven, reduceCtorEq, if_true, if_false, Option.map_some,
        Option.map_none, Option.getD_some, Option.getD_none]

/-- One option that can be read: what it gives is set. -/
theorem readOption_of_not_offends {option : String × String} (h : ¬ Offends option) :
    d.readOption option.1 option.2 = .ok (d.withLast [option]) := by
  obtain ⟨key, value⟩ := option
  rw [Offends, not_or] at h
  obtain ⟨hknown, hflag⟩ := h
  rw [readOption_eq]
  cases hname : optionName? key with
  | none =>
      have hforeign : ∀ field : OptionField, field.lastGiven [(key, value)] = none := by
        intro field
        rw [OptionField.lastGiven_singleton]
        refine if_neg fun hnamed => ?_
        rw [hnamed.optionName?_eq] at hname
        cases hname
      simp only [withLast, hforeign, Option.map_none, Option.getD_none]
  | some name =>
      have hkey : IsOptionKey key := by
        by_contra hforeign
        rw [IsOptionKey, ← Text.beginsWith_iff, Bool.not_eq_true] at hforeign
        rw [optionName?_eq_none_iff.2 hforeign] at hname
        cases hname
      have hsome : ∃ field : OptionField, field.Named key := by
        by_contra hnone
        exact hknown ⟨hkey, not_exists.1 hnone⟩
      obtain ⟨field, hfield⟩ := hsome
      rw [hfield.optionName?_eq] at hname
      cases hname
      simp only [OptionField.ofText?_text]
      exact setField_of_named hfield hflag

/-- One option that cannot be read: it is complained of. -/
theorem readOption_of_offends {option : String × String} (h : Offends option) :
    d.readOption option.1 option.2 = .error (complaint option) := by
  obtain ⟨key, value⟩ := option
  rw [readOption_eq]
  rcases h with ⟨hkey, hnone⟩ | ⟨hheader, hvalue⟩
  · cases hname : optionName? key with
    | none =>
        have hforeign := optionName?_eq_none_iff.1 hname
        rw [Text.beginsWith_iff.2 hkey] at hforeign
        cases hforeign
    | some name =>
        cases hfield : OptionField.ofText? name with
        | none =>
            rw [complaint, if_neg (hnone .header)]
            simp only [hfield]
        | some field =>
            rw [← OptionField.text_of_ofText? hfield] at hname
            exact absurd (optionName?_eq_some_iff.1 hname) (hnone field)
  · have hheader' : OptionField.header.Named key := hheader
    rw [complaint, if_pos hheader']
    simp only [hheader'.optionName?_eq, OptionField.ofText?_text, setField_header,
      flag?_of_not_mem hvalue]

/-- The induction is on the options, and what has been given is in the draft. -/
theorem readOptions_of_forall {options : List (String × String)}
    (h : ∀ option ∈ options, ¬ Offends option) :
    d.readOptions options = .ok (d.withLast options) := by
  induction options generalizing d with
  | nil => rfl
  | cons option options ih =>
      obtain ⟨hoption, hrest⟩ := List.forall_mem_cons.1 h
      rw [withLast_cons, readOptions_cons, readOption_of_not_offends hoption]
      exact ih hrest

/-- Whatever comes after the first option that cannot be read does not matter. -/
theorem readOptions_of_isFirst {options : List (String × String)} {option : String × String}
    (h : IsFirst Offends options option) : d.readOptions options = .error (complaint option) := by
  induction options generalizing d with
  | nil => cases h.mem.1
  | cons head options ih =>
      rw [readOptions_cons]
      rcases isFirst_cons.1 h with ⟨rfl, hhead⟩ | ⟨hhead, hrest⟩
      · rw [readOption_of_offends hhead]
      · rw [readOption_of_not_offends hhead]
        exact ih hrest

end Draft

namespace Settings

/-- The draft that asks for what options give last, and for what is usual in the other fields. -/
def lastDraft (options : List (String × String)) : Draft := ({} : Draft).withLast options

variable {options : List (String × String)} {m : OrderedMap String String}
  (hm : OrderedMap.ofList options = m)
include hm

/-- The first option that cannot be read is the one that is complained of. -/
theorem ofOptions_of_isFirst {option : String × String} (h : IsFirst Offends m option) :
    ofOptions options = .error (complaint option) := by
  rw [ofOptions, hm, Draft.readOptions_of_isFirst h]

/-- If all options can be read, they ask for what each field is given last. -/
theorem ofOptions_of_forall (h : ∀ option ∈ m, ¬ Offends option) :
    ofOptions options = (lastDraft m).check := by
  rw [ofOptions, hm, Draft.readOptions_of_forall h]
  rfl

/-- If all options can be read, the first requirement that is not met is the fault. -/
theorem ofOptions_of_requirement (h : ∀ option ∈ m, ¬ Offends option) {r : Prop × Fault}
    (hr : IsFirst (fun r => ¬ r.1) (lastDraft m).requirements r) :
    ofOptions options = .error r.2 := by
  rw [ofOptions_of_forall hm h]
  exact Draft.check_of_isFirst hr

theorem draft_of_ofOptions {s : Settings} (h : ofOptions options = .ok s) :
    s.draft = lastDraft m := by
  by_cases hread : ∃ option ∈ m, Offends option
  · obtain ⟨option, hoption⟩ := exists_isFirst hread
    rw [ofOptions_of_isFirst hm hoption] at h
    cases h
  · simp only [not_exists, not_and] at hread
    rw [ofOptions_of_forall hm hread] at h
    exact draft_of_check h

theorem exists_fault_iff :
    (∃ fault, ofOptions options = .error fault) ↔
      (∃ option ∈ m, Offends option) ∨ ∃ r ∈ (lastDraft m).requirements, ¬ r.1 := by
  constructor
  · rintro ⟨fault, hfault⟩
    by_contra hnone
    simp only [not_or, not_exists, not_and, not_not] at hnone
    obtain ⟨hread, hmet⟩ := hnone
    obtain ⟨s, hs⟩ := Draft.exists_check_iff_madeOf.2 (Draft.forall_requirements_iff.1 hmet)
    rw [ofOptions_of_forall hm hread, hs] at hfault
    cases hfault
  · intro h
    by_cases hread : ∃ option ∈ m, Offends option
    · obtain ⟨option, hoption⟩ := exists_isFirst hread
      exact ⟨_, ofOptions_of_isFirst hm hoption⟩
    · obtain ⟨r, hr⟩ := exists_isFirst (h.resolve_left hread)
      simp only [not_exists, not_and] at hread
      exact ⟨_, ofOptions_of_requirement hm hread hr⟩

/--
Options are refused exactly if one of them has a key that is meant for this library and is that of
no field, or one for the header has a value that is none of the words for a truth value, or what is
given last for each field does not meet a requirement.  In the first two cases the fault is that of
the first such option, and the host is told its key as it was written; in the third it is that of
the first requirement that is not met.  Otherwise the settings are what is given last.
-/
theorem ofOptions_outcome :
    ((∃ fault, ofOptions options = .error fault) ↔
      (∃ option ∈ m, IsUnknownKey option.1) ∨ (∃ option ∈ m, IsBadFlag option) ∨
        ∃ r ∈ (lastDraft m).requirements, ¬ r.1) ∧
    (∀ option, IsFirst Offends m option → ofOptions options = .error (complaint option) ∧
      ∃ diagnostic, (complaint option).diagnostic? = some diagnostic ∧
        diagnostic.category = .validation ∧ ("option", option.1) ∈ diagnostic.context) ∧
    ((∀ option ∈ m, ¬ Offends option) →
      ∀ r, IsFirst (fun r => ¬ r.1) (lastDraft m).requirements r →
        ofOptions options = .error r.2) ∧
    ∀ s, ofOptions options = .ok s → s.draft = lastDraft m := by
  refine ⟨?_, fun option h => ⟨ofOptions_of_isFirst hm h, diagnostic_complaint option⟩,
    fun h r hr => ofOptions_of_requirement hm h hr, fun s hs => draft_of_ofOptions hm hs⟩
  rw [exists_fault_iff hm]
  simp only [Offends, and_or_left, exists_or, or_assoc]

omit hm

/-- Options with a value for the header that a later one corrects, and a visibility that does not
exist. -/
def correctedOptions : OrderedMap String String :=
  [("autoimpl_visibility", "private"), ("autoimpl_auto_generated_header", "maybe"),
    (" AUTOIMPL_AUTO_GENERATED_HEADER", "true")]

/-- Options with a suffix for no source file that a later one replaces, and the same visibility. -/
def replacedOptions : OrderedMap String String :=
  [("Autoimpl_Visibility", "private"), ("autoimpl_generated_suffix", "cs"),
    ("autoimpl_attribute_name ", "Fill"), (" AUTOIMPL_GENERATED_SUFFIX", "\t.cs")]

/-- An option that cannot be read comes before what is given later and before all checks; of values
that can be read, only the last is checked. -/
theorem ofOptions_outcome_replaced :
    ofOptions correctedOptions = .error (.notFlag "autoimpl_auto_generated_header" "maybe") ∧
      ofOptions replacedOptions = .error (.unknownVisibility "private") := by
  constructor
  · have hm : OrderedMap.ofList correctedOptions = correctedOptions := by decide
    obtain ⟨-, hfirst, -, -⟩ := ofOptions_outcome hm
    have hheader : IsFirst Offends correctedOptions ("autoimpl_auto_generated_header", "maybe") :=
      isFirst_cons.2 (.inr ⟨by decide, isFirst_cons.2 (.inl ⟨rfl, by decide⟩)⟩)
    exact (hfirst _ hheader).1
  · have hm : OrderedMap.ofList replacedOptions = replacedOptions := by decide
    obtain ⟨-, -, hinvalid, -⟩ := ofOptions_outcome hm
    have hdraft : lastDraft replacedOptions =
        { attributeName := "Fill", fileSuffix := ".cs", visibility := "private" } := by decide
    refine hinvalid (by decide)
      ("private" ∈ ["public", "internal", "protected internal"], .unknownVisibility "private") ?_
    rw [hdraft]
    refine isFirst_cons.2 (.inr ⟨not_not.2 (Text.isDottedIdentifier_iff.1 (by decide)), ?_⟩)
    refine isFirst_cons.2 (.inr ⟨not_not.2 (Text.isIdentifier_iff.1 (by decide)), ?_⟩)
    refine isFirst_cons.2 (.inr ⟨not_not.2 (by decide), ?_⟩)
    refine isFirst_cons.2 (.inr ⟨not_not.2 (by decide), ?_⟩)
    exact isFirst_cons.2 (.inl ⟨rfl, by decide⟩)

end Settings

end PropertyWeaver
