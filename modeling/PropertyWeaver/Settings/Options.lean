import PropertyWeaver.OrderedMap
import PropertyWeaver.Settings.Basic
import PropertyWeaver.Text.Blank
import PropertyWeaver.Text.Case

/-!
# Build options

A build passes its options as texts under text keys. Keys are compared without regard to case and
surrounding blanks; those that do not begin with the library's own key word are somebody else's and
are passed over. The options are read in order, each setting its field of a draft, and the draft is
checked when all are read.
-/

namespace PropertyWeaver

/-- The beginning of every key that is meant for this library, in lower case. -/
def optionKeyStart : String := "autoimpl_"

/-- The settings an option can name. -/
inductive OptionField where
  | attributeNamespace
  | attributeName
  | fileSuffix
  | visibility
  | rendering
  | header
  deriving DecidableEq

namespace OptionField

/-- Every field. -/
def all : List OptionField :=
  [attributeNamespace, attributeName, fileSuffix, visibility, rendering, header]

/-- The name of a field in option keys. -/
def text : OptionField → String
  | attributeNamespace => "attribute_namespace"
  | attributeName => "attribute_name"
  | fileSuffix => "generated_suffix"
  | visibility => "visibility"
  | rendering => "type_rendering"
  | header => "auto_generated_header"

/-- The field of that name. -/
def ofText? (s : String) : Option OptionField := all.find? fun field => field.text == s

@[simp] theorem ofText?_text (f : OptionField) : ofText? f.text = some f := by
  cases f <;> decide

theorem text_of_ofText? {s : String} {f : OptionField} (h : ofText? s = some f) : f.text = s := by
  have hfound := List.find?_some h
  exact beq_iff_eq.1 hfound

theorem eq_of_text_eq {f g : OptionField} (h : f.text = g.text) : f = g := by
  have hfield := congrArg ofText? h
  rw [ofText?_text, ofText?_text] at hfield
  exact Option.some.inj hfield

end OptionField

/-- The name after the library's own key word, or nothing if the key is not meant for it. -/
def optionName? (key : String) : Option String :=
  let folded := Text.lower (Text.trim key)
  if Text.beginsWith optionKeyStart folded then
    some (Text.dropStart optionKeyStart.length folded)
  else none

theorem optionName?_eq_some_iff {key name : String} :
    optionName? key = some name ↔ Text.lower (Text.trim key) = optionKeyStart ++ name := by
  unfold optionName?
  constructor
  · intro h
    dsimp only at h
    split at h
    · next hbegins =>
      obtain ⟨rest, hrest⟩ := Text.exists_append_of_beginsWith hbegins
      rw [hrest, Text.dropStart_append] at h
      rw [hrest, Option.some.inj h]
    · cases h
  · intro h
    dsimp only
    rw [h, if_pos (Text.beginsWith_append _ _), Text.dropStart_append]

theorem optionName?_eq_none_iff {key : String} :
    optionName? key = none ↔
      Text.beginsWith optionKeyStart (Text.lower (Text.trim key)) = false := by
  simp [optionName?]

/-- The words for true. -/
def trueWords : List String := ["true", "1", "yes", "on"]

/-- The words for false. -/
def falseWords : List String := ["false", "0", "no", "off"]

/-- The truth value a word stands for, in any case. -/
def flag? (word : String) : Option Bool :=
  if Text.lower word ∈ trueWords then some true
  else if Text.lower word ∈ falseWords then some false
  else none

namespace Draft

/-- The draft with one field set from the value of the option `key`, which is already trimmed. -/
def setField (d : Draft) (key value : String) : OptionField → Except Fault Draft
  | .attributeNamespace => .ok { d with attributeNamespace := value }
  | .attributeName => .ok { d with attributeName := value }
  | .fileSuffix => .ok { d with fileSuffix := value }
  | .visibility => .ok { d with visibility := value }
  | .rendering => .ok { d with rendering := if value = "" then none else some value }
  | .header =>
    match flag? value with
    | some header => .ok { d with header := header }
    | none => .error (.notFlag key value)

/-- The draft after one option. -/
def readOption (d : Draft) (key value : String) : Except Fault Draft :=
  match optionName? key with
  | none => .ok d
  | some name =>
    match OptionField.ofText? name with
    | some field => d.setField key (Text.trim value) field
    | none => .error (.unknownOption key)

/-- The draft after all options, or the first option that cannot be read. -/
def readOptions (d : Draft) : List (String × String) → Except Fault Draft
  | [] => .ok d
  | (key, value) :: options =>
    match d.readOption key value with
    | .ok next => next.readOptions options
    | .error fault => .error fault

section Equations

-- Without this, comparing two readers computes with the characters of the key and the value.
attribute [local irreducible] flag? optionName?

theorem setField_header (d : Draft) (key value : String) :
    d.setField key value .header =
      match flag? value with
      | some header => .ok { d with header := header }
      | none => .error (.notFlag key value) :=
  rfl

theorem readOption_eq (d : Draft) (key value : String) :
    d.readOption key value =
      match optionName? key with
      | none => .ok d
      | some name =>
        match OptionField.ofText? name with
        | some field => d.setField key (Text.trim value) field
        | none => .error (.unknownOption key) :=
  rfl

attribute [local irreducible] readOption

theorem readOptions_cons (d : Draft) (option : String × String) (options : List (String × String)) :
    d.readOptions (option :: options) =
      match d.readOption option.1 option.2 with
      | .ok next => next.readOptions options
      | .error fault => .error fault :=
  rfl

end Equations

end Draft

/--
The settings of a build.

Of two options under the same key, the place is the first one's and the value the last one's.
-/
def Settings.ofOptions (options : List (String × String)) : Except Fault Settings :=
  match ({} : Draft).readOptions (OrderedMap.ofList options) with
  | .ok draft => draft.check
  | .error fault => .error fault

end PropertyWeaver
