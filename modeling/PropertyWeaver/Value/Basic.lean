/-!
# Structured values

Log records, diagnostics and reports carry structured values: nulls, truth values, integers of any
size, texts, lists, and objects with text keys. A value can be arranged by any order on keys before
it is written, so that equal contents give equal text whatever order they were put together in.

## Main results

* `perm_sortFields`: arranging the fields of an object keeps each of them.
-/

namespace PropertyWeaver

/-- A structured value. -/
inductive Value where
  | null
  | bool (b : Bool)
  | int (n : Int)
  | text (s : String)
  | list (items : List Value)
  | object (fields : List (String × Value))
  deriving Inhabited

namespace Value

/-- A list of texts. -/
def texts (items : List String) : Value := .list (items.map .text)

/-- A text or null. -/
def textOrNull : Option String → Value
  | none => .null
  | some s => .text s

/-- The value of the first field of that name. -/
def field? (name : String) (fields : List (String × Value)) : Option Value := fields.lookup name

/-! ## Arranging the fields of objects -/

/-- `field` put in front of the first field whose key does not come before its own. -/
def insertField (before : String → String → Bool) (field : String × Value) :
    List (String × Value) → List (String × Value)
  | [] => [field]
  | next :: rest =>
    if before next.1 field.1 then next :: insertField before field rest else field :: next :: rest

/-- The fields in the order of their keys. -/
def sortFields (before : String → String → Bool) (fields : List (String × Value)) :
    List (String × Value) :=
  fields.foldr (insertField before) []

theorem perm_insertField (before : String → String → Bool) (field : String × Value)
    (fields : List (String × Value)) :
    (insertField before field fields).Perm (field :: fields) := by
  induction fields with
  | nil => exact .refl _
  | cons next rest ih =>
    simp only [insertField]
    split
    · exact (ih.cons next).trans (.swap field next rest)
    · exact .refl _

theorem perm_sortFields (before : String → String → Bool) (fields : List (String × Value)) :
    (sortFields before fields).Perm fields := by
  induction fields with
  | nil => exact .refl _
  | cons field fields ih =>
    exact (perm_insertField before field (sortFields before fields)).trans (ih.cons field)

mutual

/-- The value with the fields of every object in it sorted by key. -/
def arrange (before : String → String → Bool) : Value → Value
  | .null => .null
  | .bool b => .bool b
  | .int n => .int n
  | .text s => .text s
  | .list items => .list (arrangeItems before items)
  | .object fields => .object (sortFields before (arrangeFields before fields))

/-- The items, each arranged. -/
def arrangeItems (before : String → String → Bool) : List Value → List Value
  | [] => []
  | item :: items => arrange before item :: arrangeItems before items

/-- The fields in their order, each value arranged. -/
def arrangeFields (before : String → String → Bool) :
    List (String × Value) → List (String × Value)
  | [] => []
  | (key, value) :: fields => (key, arrange before value) :: arrangeFields before fields

end

end Value

end PropertyWeaver
