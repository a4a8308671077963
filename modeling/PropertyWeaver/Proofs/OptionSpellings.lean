import PropertyWeaver.Proofs.Blanks
import PropertyWeaver.Settings.Options

/-!
# How settings are written as options

The keys of options are read in any case, keys and values with whatever blank characters are around
them, and keys that are meant for somebody else are passed over.  So settings can be written in many
ways: `Settings.Expresses` says which lists of options do.  They have an option for each field, and
whatever options they have for it are written for the value that it has.

Reading an option sets one field of the draft and leaves the others.  If the option is written for
the value of the settings, the draft agrees with the settings in that field from then on, and it
does not lose a field in which it agrees already (`readOption_of_agrees`).  The order of the options
does not matter, and neither does what is between them.

Values are read without the blank characters around them, so settings with a text that begins or
ends with one cannot be written at all.  All others can (`exists_ofOptions_iff`).

## Main results

* `Text.lower_of_recased` — what is ignored in keys and words.
* `Settings.ofOptions_of_expresses` — whichever way settings are written, they are read.
* `Settings.exists_ofOptions_iff` — which settings can be written.
* `Settings.options_express` — that they can be, and that every way of writing them is read.
-/

namespace PropertyWeaver

namespace Text

/-! ## Case -/

/-- `s` is `word`, which is in lower case, with some of its ASCII letters as capitals. -/
def Recased (word s : String) : Prop := s.toList.map Char.toLower = word.toList

instance (word s : String) : Decidable (Recased word s) :=
  inferInstanceAs (Decidable (s.toList.map Char.toLower = word.toList))

/-- The word is made of visible ASCII characters, like those that options are compared with. -/
def isAsciiWord (word : String) : Bool :=
  word.toList.all fun c => decide (c.toNat < 0x80) && !isBlank c

theorem of_isAsciiWord {word : String} (h : isAsciiWord word = true) {c : Char}
    (hc : c ∈ word.toList) : c.toNat < 0x80 ∧ isBlank c = false := by
  simpa using List.all_eq_true.1 h c hc

theorem Recased.toLower_mem {word s : String} (h : Recased word s) {c : Char}
    (hc : c ∈ s.toList) : c.toLower ∈ word.toList :=
  h ▸ List.mem_map_of_mem hc

/-- The characters with a lower case of their own are not ASCII, and neither is it. -/
theorem lowerChar_of_ascii {c : Char} (h : c.toLower.toNat < 0x80) : lowerChar c = [c.toLower] := by
  have hkelvin : c ≠ '\u212A' := by
    rintro rfl
    exact absurd h (by decide)
  have hdotted : c ≠ '\u0130' := by
    rintro rfl
    exact absurd h (by decide)
  simp [lowerChar, hkelvin, hdotted]

theorem lower_of_recased {word s : String} (hword : isAsciiWord word = true)
    (h : Recased word s) : lower s = word := by
  have hchars : s.toList.flatMap lowerChar = s.toList.map Char.toLower := by
    rw [List.map_eq_flatMap]
    exact List.flatMap_congr fun c hc =>
      lowerChar_of_ascii (of_isAsciiWord hword (h.toLower_mem hc)).1
  rw [lower, hchars, h, String.ofList_toList]

/-- A blank character is not a capital. -/
theorem toLower_of_isBlank {c : Char} (h : isBlank c = true) : c.toLower = c := by
  unfold Char.toLower
  rw [dif_neg]
  rintro ⟨hlow, hhigh⟩
  simp only [isBlank, Bool.or_eq_true, Bool.and_eq_true, decide_eq_true_eq, beq_iff_eq] at h
  rw [ge_iff_le, UInt32.le_iff_toNat_le] at hlow
  rw [UInt32.le_iff_toNat_le] at hhigh
  have hlow' : 65 ≤ c.toNat := hlow
  have hhigh' : c.toNat ≤ 90 := hhigh
  omega

theorem Recased.flush {word s : String} (h : Recased word s)
    (hword : isAsciiWord word = true) : Flush s := by
  apply flush_of_forall
  intro c hc
  by_contra hblank
  rw [Bool.not_eq_false] at hblank
  have hmem := h.toLower_mem hc
  rw [toLower_of_isBlank hblank] at hmem
  rw [(of_isAsciiWord hword hmem).2] at hblank
  cases hblank

end Text

/-! ## Keys -/

namespace OptionField

/-- The key is that of the field, in any case and with blank characters around it. -/
def Spelled (field : OptionField) (key : String) : Prop :=
  ∃ core, Text.Recased (optionKeyStart ++ field.text) core ∧ Text.Padded core key

theorem isAsciiWord_key (field : OptionField) :
    Text.isAsciiWord (optionKeyStart ++ field.text) = true := by
  cases field <;> decide

theorem spelled_iff {field : OptionField} {key : String} :
    field.Spelled key ↔ Text.Recased (optionKeyStart ++ field.text) (Text.trim key) := by
  constructor
  · rintro ⟨core, hcore, hkey⟩
    rw [Text.trim_of_padded hkey (hcore.flush field.isAsciiWord_key)]
    exact hcore
  · intro h
    exact ⟨_, h, Text.padded_trim key⟩

instance (field : OptionField) (key : String) : Decidable (field.Spelled key) :=
  decidable_of_iff (Text.Recased (optionKeyStart ++ field.text) (Text.trim key)) spelled_iff.symm

theorem optionName?_of_spelled {field : OptionField} {key : String} (h : field.Spelled key) :
    optionName? key = some field.text := by
  rw [optionName?_eq_some_iff]
  exact Text.lower_of_recased field.isAsciiWord_key (spelled_iff.1 h)

theorem spelled_key (field : OptionField) : field.Spelled (optionKeyStart ++ field.text) :=
  ⟨_, by cases field <;> decide, Text.padded_self _⟩

theorem Spelled.unique {field other : OptionField} {key : String} (h : field.Spelled key)
    (h' : other.Spelled key) : field = other := by
  have hname := (optionName?_of_spelled h).symm.trans (optionName?_of_spelled h')
  exact eq_of_text_eq (Option.some.inj hname)

end OptionField

/-! ## Values -/

/-- The text is a word for the truth value, in any case. -/
def FlagWord (flag : Bool) (text : String) : Prop :=
  ∃ word ∈ if flag then trueWords else falseWords, Text.Recased word text

theorem isAsciiWord_of_mem {flag : Bool} {word : String}
    (h : word ∈ if flag then trueWords else falseWords) : Text.isAsciiWord word = true := by
  have hwords : ∀ word ∈ trueWords ++ falseWords, Text.isAsciiWord word = true := by decide
  cases flag with
  | true => exact hwords word (List.mem_append_left falseWords h)
  | false => exact hwords word (List.mem_append_right trueWords h)

theorem FlagWord.flush {flag : Bool} {text : String} (h : FlagWord flag text) :
    Text.Flush text := by
  obtain ⟨word, hword, htext⟩ := h
  exact htext.flush (isAsciiWord_of_mem hword)

theorem FlagWord.flag?_eq {flag : Bool} {text : String} (h : FlagWord flag text) :
    flag? text = some flag := by
  obtain ⟨word, hword, htext⟩ := h
  unfold flag?
  rw [Text.lower_of_recased (isAsciiWord_of_mem hword) htext]
  cases flag with
  | true => exact if_pos hword
  | false =>
      have hdisjoint : ∀ word ∈ falseWords, word ∉ trueWords := by decide
      rw [if_neg (hdisjoint word hword)]
      exact if_pos hword

/-- The draft's own texts neither begin nor end with a blank character. -/
structure Draft.Flush (d : Draft) : Prop where
  attributeNamespace : Text.Flush d.attributeNamespace
  attributeName : Text.Flush d.attributeName
  fileSuffix : Text.Flush d.fileSuffix

instance (d : Draft) : Decidable d.Flush :=
  decidable_of_iff (Text.Flush d.attributeNamespace ∧ Text.Flush d.attributeName ∧
    Text.Flush d.fileSuffix) ⟨fun h => ⟨h.1, h.2.1, h.2.2⟩, fun h => ⟨h.1, h.2, h.3⟩⟩

namespace Settings

/-- What is written for the value of a field.  For no rendering, nothing is. -/
def written (s : Settings) : OptionField → String
  | .attributeNamespace => s.attributeNamespace
  | .attributeName => s.attributeName
  | .fileSuffix => s.fileSuffix
  | .visibility => s.visibility.text
  | .rendering => (s.rendering.map Rendering.text).getD ""
  | .header => if s.header then "true" else "false"

/-- The text may be written for the value of a field: it is the one that is, or one of the other
words for a truth value. -/
def Writes (s : Settings) : OptionField → String → Prop
  | .header, text => FlagWord s.header text
  | field, text => text = s.written field

theorem writes_written (s : Settings) (field : OptionField) : s.Writes field (s.written field) := by
  cases field with
  | header =>
      cases hs : s.header with
      | true =>
          simp only [Writes, written, hs]
          exact ⟨"true", by decide, by decide⟩
      | false =>
          simp only [Writes, written, hs]
          exact ⟨"false", by decide, by decide⟩
  | _ => rfl

theorem flush_of_writes {s : Settings} (hs : s.draft.Flush) {field : OptionField} {text : String}
    (h : s.Writes field text) : Text.Flush text := by
  cases field with
  | attributeNamespace => exact h ▸ hs.attributeNamespace
  | attributeName => exact h ▸ hs.attributeName
  | fileSuffix => exact h ▸ hs.fileSuffix
  | visibility =>
      have hvisibility : ∀ visibility : Visibility, Text.Flush visibility.text := by
        intro visibility
        cases visibility <;> decide
      exact h ▸ hvisibility s.visibility
  | rendering =>
      have hrendering : ∀ rendering : Option Rendering,
          Text.Flush ((rendering.map Rendering.text).getD "") := by
        rintro (_ | _ | _) <;> decide
      exact h ▸ hrendering s.rendering
  | header => exact FlagWord.flush h

/-- The option does not contradict the settings: it is meant for somebody else, or it is that of a
field and is written for the value that the field has. -/
def Agrees (s : Settings) (key value : String) : Prop :=
  Text.beginsWith optionKeyStart (Text.lower (Text.trim key)) = false ∨
    ∃ field : OptionField, field.Spelled key ∧
      ∃ text, s.Writes field text ∧ Text.Padded text value

theorem agrees_of_trim {s : Settings} {field : OptionField} {key value : String}
    (hkey : field.Spelled key) (hvalue : s.Writes field (Text.trim value)) : s.Agrees key value :=
  Or.inr ⟨field, hkey, _, hvalue, Text.padded_trim value⟩

/-- The options are a way to write the settings: none of them contradicts the settings, and there is
one for each field. -/
structure Expresses (s : Settings) (options : List (String × String)) : Prop where
  agrees : ∀ option ∈ options, s.Agrees option.1 option.2
  covers : ∀ field : OptionField, ∃ option ∈ options, field.Spelled option.1

end Settings

/-! ## Reading -/

namespace Draft

/-- Two drafts have the same value in a field. -/
def SameAt (d e : Draft) : OptionField → Prop
  | .attributeNamespace => d.attributeNamespace = e.attributeNamespace
  | .attributeName => d.attributeName = e.attributeName
  | .fileSuffix => d.fileSuffix = e.fileSuffix
  | .visibility => d.visibility = e.visibility
  | .rendering => d.rendering = e.rendering
  | .header => d.header = e.header

theorem eq_of_sameAt {d e : Draft} (h : ∀ field, d.SameAt e field) : d = e := by
  cases d
  cases e
  exact (mk.injEq ..).mpr ⟨h .attributeNamespace, h .attributeName, h .fileSuffix, h .visibility,
    h .rendering, h .header⟩

variable {s : Settings} {d : Draft}

/-- A field that is set from what is written for its value has that value, and the other fields are
as they were. -/
theorem setField_of_writes {field : OptionField} {text : String} (h : s.Writes field text)
    (d : Draft) (key : String) :
    ∃ next, d.setField key text field = .ok next ∧ next.SameAt s.draft field ∧
      ∀ other, d.SameAt s.draft other → next.SameAt s.draft other := by
  cases field with
  | attributeNamespace | attributeName | fileSuffix | visibility =>
      refine ⟨_, rfl, h, fun other hother => ?_⟩
      cases other <;> first | exact hother | exact h
  | rendering =>
      have hread : ∀ rendering : Option Rendering,
          (if (rendering.map Rendering.text).getD "" = "" then none
            else some ((rendering.map Rendering.text).getD "")) =
          rendering.map Rendering.text := by
        rintro (_ | _ | _) <;> decide
      have hrendering : (if text = "" then none else some text) =
          s.rendering.map Rendering.text := by
        have htext : text = (s.rendering.map Rendering.text).getD "" := h
        rw [htext]
        exact hread s.rendering
      refine ⟨_, rfl, hrendering, fun other hother => ?_⟩
      cases other <;> first | exact hother | exact hrendering
  | header =>
      have hflag : flag? text = some s.header := FlagWord.flag?_eq h
      refine ⟨{ d with header := s.header }, ?_, rfl, fun other hother => ?_⟩
      · rw [setField_header, hflag]
      · cases other <;> first | exact hother | rfl

/-- One option that does not contradict the settings: if it is that of a field, the draft agrees
with the settings there, and it agrees wherever it did before. -/
theorem readOption_of_agrees (hs : s.draft.Flush) {key value : String} (h : s.Agrees key value)
    (d : Draft) :
    ∃ next, d.readOption key value = .ok next ∧
      (∀ field : OptionField, field.Spelled key → next.SameAt s.draft field) ∧
      ∀ field, d.SameAt s.draft field → next.SameAt s.draft field := by
  rcases h with hforeign | ⟨field, hkey, text, htext, hvalue⟩
  · have hname : optionName? key = none := optionName?_eq_none_iff.2 hforeign
    refine ⟨d, by rw [readOption_eq, hname], fun field hkey => ?_, fun _ hd => hd⟩
    rw [OptionField.optionName?_of_spelled hkey] at hname
    cases hname
  · obtain ⟨next, hnext, hfield, hothers⟩ := setField_of_writes htext d key
    refine ⟨next, ?_, fun other hother => hother.unique hkey ▸ hfield, hothers⟩
    simp only [readOption_eq, OptionField.optionName?_of_spelled hkey, OptionField.ofText?_text,
      Text.trim_of_padded hvalue (Settings.flush_of_writes hs htext), hnext]

/-- The induction is on the options, and a field that has been read stays as it is. -/
theorem readOptions_of_agrees (hs : s.draft.Flush) {options : List (String × String)}
    (h : ∀ option ∈ options, s.Agrees option.1 option.2) (d : Draft) :
    ∃ next, d.readOptions options = .ok next ∧
      (∀ option ∈ options, ∀ field : OptionField, field.Spelled option.1 →
        next.SameAt s.draft field) ∧
      ∀ field, d.SameAt s.draft field → next.SameAt s.draft field := by
  induction options generalizing d with
  | nil => exact ⟨d, rfl, by simp, fun _ hd => hd⟩
  | cons option options ih =>
      obtain ⟨hoption, hrest⟩ := List.forall_mem_cons.1 h
      obtain ⟨mid, hmid, hfirst, hkept⟩ := readOption_of_agrees hs hoption d
      obtain ⟨next, hnext, hlater, hkept'⟩ := ih hrest mid
      refine ⟨next, ?_, ?_, fun field hd => hkept' field (hkept field hd)⟩
      · rw [readOptions_cons, hmid]
        exact hnext
      · exact List.forall_mem_cons.2 ⟨fun field hkey => hkept' field (hfirst field hkey), hlater⟩

theorem Flush.setField (hd : d.Flush) {key value : String} (hvalue : Text.Flush value)
    {field : OptionField} {next : Draft} (h : d.setField key value field = .ok next) :
    next.Flush := by
  cases field with
  | attributeNamespace =>
      cases h
      exact ⟨hvalue, hd.attributeName, hd.fileSuffix⟩
  | attributeName =>
      cases h
      exact ⟨hd.attributeNamespace, hvalue, hd.fileSuffix⟩
  | fileSuffix =>
      cases h
      exact ⟨hd.attributeNamespace, hd.attributeName, hvalue⟩
  | visibility | rendering =>
      cases h
      exact ⟨hd.attributeNamespace, hd.attributeName, hd.fileSuffix⟩
  | header =>
      rw [setField_header] at h
      split at h
      · cases h
        exact ⟨hd.attributeNamespace, hd.attributeName, hd.fileSuffix⟩
      · cases h

theorem Flush.readOption (hd : d.Flush) {key value : String} {next : Draft}
    (h : d.readOption key value = .ok next) : next.Flush := by
  rw [readOption_eq] at h
  split at h
  · cases h
    exact hd
  · split at h
    · exact hd.setField (Text.flush_trim _) h
    · cases h

theorem Flush.readOptions {options : List (String × String)} (hd : d.Flush) {next : Draft}
    (h : d.readOptions options = .ok next) : next.Flush := by
  induction options generalizing d with
  | nil =>
      cases h
      exact hd
  | cons option options ih =>
      rw [readOptions_cons] at h
      cases hmid : d.readOption option.1 option.2 with
      | ok mid =>
          rw [hmid] at h
          exact ih (hd.readOption hmid) h
      | error fault =>
          rw [hmid] at h
          cases h

end Draft

namespace Settings

variable {s : Settings}

/-- A map has no options that were not in the list that it is made of, and has all keys. -/
theorem Expresses.ofList {options : List (String × String)} (h : s.Expresses options) :
    s.Expresses (OrderedMap.ofList options) where
  agrees option hoption := h.agrees option (OrderedMap.mem_of_mem_ofList hoption)
  covers field := by
    obtain ⟨option, hoption, hkey⟩ := h.covers field
    have hmem : option.1 ∈ OrderedMap.keys (OrderedMap.ofList options) :=
      OrderedMap.mem_keys_ofList.2 (List.mem_map_of_mem hoption)
    obtain ⟨kept, hkept, heq⟩ := List.mem_map.1 hmem
    exact ⟨kept, hkept, heq ▸ hkey⟩

/-- Whichever way settings are written, they are read. -/
theorem ofOptions_of_expresses (hs : s.draft.Flush) {options : List (String × String)}
    (h : s.Expresses options) : Settings.ofOptions options = .ok s := by
  obtain ⟨next, hnext, hread, -⟩ := Draft.readOptions_of_agrees hs h.ofList.agrees {}
  have hdraft : next = s.draft := by
    apply Draft.eq_of_sameAt
    intro field
    obtain ⟨option, hoption, hkey⟩ := h.ofList.covers field
    exact hread option hoption field hkey
  simp only [ofOptions, hnext, hdraft, check_draft]

/-- The plain way to write settings: an option for each field, in lower case. -/
def options (s : Settings) : List (String × String) :=
  OptionField.all.map fun field => (optionKeyStart ++ field.text, s.written field)

theorem expresses_options (s : Settings) : s.Expresses s.options where
  agrees option hoption := by
    obtain ⟨field, -, rfl⟩ := List.mem_map.1 hoption
    exact Or.inr ⟨field, field.spelled_key, _, s.writes_written field, Text.padded_self _⟩
  covers field := by
    have hmem : field ∈ OptionField.all := by cases field <;> decide
    exact ⟨_, List.mem_map_of_mem hmem, field.spelled_key⟩

theorem flush_of_ofOptions {options : List (String × String)}
    (h : Settings.ofOptions options = .ok s) : s.draft.Flush := by
  unfold ofOptions at h
  split at h
  · next draft hdraft =>
      have hstart : Draft.Flush {} := by decide
      rw [draft_of_check h]
      exact hstart.readOptions hdraft
  · cases h

/-- Exactly the settings whose texts neither begin nor end with a blank character can come of
options. -/
theorem exists_ofOptions_iff : (∃ options, Settings.ofOptions options = .ok s) ↔ s.draft.Flush := by
  constructor
  · rintro ⟨options, h⟩
    exact flush_of_ofOptions h
  · intro hs
    exact ⟨s.options, ofOptions_of_expresses hs s.expresses_options⟩

/--
Settings whose texts neither begin nor end with a blank character can be written as options, and
they are what is read from every list of options that says so: in any order, with keys and words in
any case, with blank characters around keys and values, and with options for somebody else between
them.
-/
theorem options_express (hs : s.draft.Flush) :
    (∃ options, s.Expresses options) ∧
      ∀ options, s.Expresses options → Settings.ofOptions options = .ok s :=
  ⟨⟨s.options, s.expresses_options⟩, fun _ h => ofOptions_of_expresses hs h⟩

/-- Settings that are not the usual ones in any field but the rendering, which they leave open. -/
def unusual : Settings where
  attributeNamespace := "Gen.Attrs"
  attributeName := "Fill"
  fileSuffix := ".gen.cs"
  visibility := .derivedOrSameProject
  rendering := none
  header := false
  namespace_dotted := by decide
  name_identifier := by decide
  name_not_suffixed := by decide
  suffix_source := by decide

/-- They are read from options of a whole project, in which no key is in its usual form. -/
theorem options_express_unusual :
    let options := [("  AutoImpl_Visibility", "protected internal\t"),
      ("build_property.LangVersion", "12"), ("AUTOIMPL_GENERATED_SUFFIX ", "\n.gen.cs"),
      ("autoimpl_Type_Rendering", "  "), ("autoimpl_auto_generated_HEADER\n", " OFF "),
      ("auto_impl_attribute_name", "Other"), ("\tAutoimpl_Attribute_Name", "Fill"),
      ("autoImpl_attribute_namespace", "Gen.Attrs\u00A0")]
    unusual.draft.Flush ∧ unusual.Expresses options ∧ Settings.ofOptions options = .ok unusual := by
  intro options
  have hflush : unusual.draft.Flush := by decide
  have hnamespace : OptionField.attributeNamespace.Spelled "autoImpl_attribute_namespace" := by
    decide +kernel
  have hname : OptionField.attributeName.Spelled "\tAutoimpl_Attribute_Name" := by decide +kernel
  have hsuffix : OptionField.fileSuffix.Spelled "AUTOIMPL_GENERATED_SUFFIX " := by decide +kernel
  have hvisibility : OptionField.visibility.Spelled "  AutoImpl_Visibility" := by decide +kernel
  have hrendering : OptionField.rendering.Spelled "autoimpl_Type_Rendering" := by decide +kernel
  have hheader : OptionField.header.Spelled "autoimpl_auto_generated_HEADER\n" := by decide +kernel
  have hexpresses : unusual.Expresses options := by
    constructor
    · simp only [options, List.forall_mem_cons]
      refine ⟨agrees_of_trim hvisibility ?_, Or.inl (by decide), agrees_of_trim hsuffix ?_,
        agrees_of_trim hrendering ?_, agrees_of_trim hheader ⟨"off", by decide, by decide⟩,
        Or.inl (by decide), agrees_of_trim hname ?_, agrees_of_trim hnamespace ?_, by simp⟩ <;>
      exact String.toList_inj.1 (by decide)
    · intro field
      cases field with
      | attributeNamespace =>
          exact ⟨("autoImpl_attribute_namespace", "Gen.Attrs\u00A0"), by simp [options], hnamespace⟩
      | attributeName => exact ⟨("\tAutoimpl_Attribute_Name", "Fill"), by simp [options], hname⟩
      | fileSuffix =>
          exact ⟨("AUTOIMPL_GENERATED_SUFFIX ", "\n.gen.cs"), by simp [options], hsuffix⟩
      | visibility =>
          exact ⟨("  AutoImpl_Visibility", "protected internal\t"), by simp [options], hvisibility⟩
      | rendering => exact ⟨("autoimpl_Type_Rendering", "  "), by simp [options], hrendering⟩
      | header => exact ⟨("autoimpl_auto_generated_HEADER\n", " OFF "), by simp [options], hheader⟩
  exact ⟨hflush, hexpresses, (options_express hflush).2 options hexpresses⟩

end Settings

end PropertyWeaver
