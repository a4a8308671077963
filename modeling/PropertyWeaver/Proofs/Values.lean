import Mathlib.Algebra.BigOperators.Group.List.Basic
import Mathlib.Data.List.Nodup
import PropertyWeaver.Value.Basic

/-!
# Structured values, arranged

Arranging a value moves the fields of its objects and nothing else.  Whoever asks an object for a
field by its name gets the same answer, arranged, whatever the order on keys is.

## Main results

* `Value.induction` — a property of values follows from that of their parts.
* `Value.at?_arrange` — a field of an object is found again in the arranged object.
* `Value.alike_arrange` — arranging a value changes nothing but the order of fields.
-/

namespace PropertyWeaver.Value

/-! ## Lengths of what is written -/

section Lengths

variable {α β : Type} {f : α → List β} {l : List α}

/-- What is written of one item is no longer than what is written of all. -/
theorem length_le_length_flatMap {x : α} (hx : x ∈ l) :
    (f x).length ≤ (l.flatMap f).length := by
  rw [List.flatMap_def]
  exact (List.sublist_flatten_of_mem (List.mem_map_of_mem hx)).length_le

/-- There are no more items than there are characters or bytes, if each item takes one. -/
theorem length_le_length_flatMap_of_ne_nil (h : ∀ x ∈ l, f x ≠ []) :
    l.length ≤ (l.flatMap f).length := by
  rw [List.length_flatMap, ← List.length_map (fun x => (f x).length)]
  apply List.length_le_sum_of_one_le
  intro n hn
  obtain ⟨x, hx, rfl⟩ := List.mem_map.1 hn
  exact List.length_pos_iff.2 (h x hx)

end Lengths

/-! ## Induction -/

/-- What holds of a list if it holds of its items, and of an object if it holds of the values of its
fields, holds of every value if it holds of the simple ones. -/
@[elab_as_elim]
theorem induction {P : Value → Prop} (null : P .null) (bool : ∀ b, P (.bool b))
    (int : ∀ n, P (.int n)) (text : ∀ s, P (.text s))
    (list : ∀ items, (∀ item ∈ items, P item) → P (.list items))
    (object : ∀ fields, (∀ field ∈ fields, P field.2) → P (.object fields)) (v : Value) : P v :=
  @Value.rec P (fun items => ∀ item ∈ items, P item) (fun fields => ∀ field ∈ fields, P field.2)
    (fun field => P field.2) null bool int text list object (List.forall_mem_nil _)
    (fun _ _ hitem hitems => List.forall_mem_cons.2 ⟨hitem, hitems⟩) (List.forall_mem_nil _)
    (fun _ _ hfield hfields => List.forall_mem_cons.2 ⟨hfield, hfields⟩) (fun _ _ h => h) v

/-! ## Fields by name -/

section Fields

variable {name : String} {fields fields' : List (String × Value)}

theorem field?_eq_some_iff (h : (fields.map Prod.fst).Nodup) {v : Value} :
    field? name fields = some v ↔ (name, v) ∈ fields := by
  induction fields with
  | nil => simp [field?]
  | cons field fields ih =>
      obtain ⟨key, w⟩ := field
      obtain ⟨hkey, hfields⟩ := List.nodup_cons.1 h
      unfold field? at ih ⊢
      rw [List.lookup_cons, List.mem_cons]
      by_cases hname : name = key
      · subst hname
        have hnot : (name, v) ∉ fields := fun hmem => hkey (List.mem_map.2 ⟨_, hmem, rfl⟩)
        simp [hnot, eq_comm]
      · have hne : (name == key) = false := by simpa using hname
        rw [hne, ih hfields]
        simp [hname]

theorem field?_of_perm (h : (fields.map Prod.fst).Nodup) (hperm : fields'.Perm fields) :
    field? name fields' = field? name fields := by
  have h' : (fields'.map Prod.fst).Nodup := (hperm.map Prod.fst).nodup_iff.2 h
  ext v
  rw [field?_eq_some_iff h', field?_eq_some_iff h]
  exact hperm.mem_iff

variable (before : String → String → Bool)

theorem arrangeItems_eq_map (items : List Value) :
    arrangeItems before items = items.map (arrange before) := by
  induction items with
  | nil => rfl
  | cons item items ih => rw [arrangeItems, ih, List.map_cons]

theorem map_fst_arrangeFields :
    (arrangeFields before fields).map Prod.fst = fields.map Prod.fst := by
  induction fields with
  | nil => rfl
  | cons field fields ih =>
      rw [arrangeFields, List.map_cons, ih, List.map_cons]

theorem field?_arrangeFields :
    field? name (arrangeFields before fields) = (field? name fields).map (arrange before) := by
  induction fields with
  | nil => rfl
  | cons field fields ih =>
      unfold field? at ih ⊢
      rw [arrangeFields, List.lookup_cons, List.lookup_cons, ih]
      cases name == field.1 <;> rfl

/-- A field of an object with distinct keys is found in the arranged object, itself arranged. -/
theorem field?_sortFields_arrangeFields (h : (fields.map Prod.fst).Nodup) :
    field? name (sortFields before (arrangeFields before fields)) =
      (field? name fields).map (arrange before) := by
  have hkeys : ((arrangeFields before fields).map Prod.fst).Nodup := by
    rw [map_fst_arrangeFields]
    exact h
  rw [field?_of_perm hkeys (perm_sortFields before _), field?_arrangeFields]

end Fields

/-! ## Asking an object for its fields -/

/-- The field of that name, if the value is an object. -/
def at? (name : String) : Value → Option Value
  | .object fields => field? name fields
  | _ => none

/-- The text that the value is. -/
def text? : Value → Option String
  | .text s => some s
  | _ => none

/-- The integer that the value is. -/
def int? : Value → Option Int
  | .int n => some n
  | _ => none

/-- The items of the value, if it is a list. -/
def items? : Value → Option (List Value)
  | .list items => some items
  | _ => none

/-- The text that the value is, or no text if it is null. -/
def textOrNull? : Value → Option (Option String)
  | .null => some none
  | .text s => some (some s)
  | _ => none

/-- The fields of the value, if it is an object. -/
def fields? : Value → Option (List (String × Value))
  | .object fields => some fields
  | _ => none

/-- No two fields of the object have one key. -/
def KeysDistinct : Value → Prop
  | .object fields => (fields.map Prod.fst).Nodup
  | _ => True

section Arrange

variable (before : String → String → Bool) (v : Value)

theorem text?_arrange : (v.arrange before).text? = v.text? := by
  cases v <;> rfl

theorem int?_arrange : (v.arrange before).int? = v.int? := by
  cases v <;> rfl

theorem items?_arrange : (v.arrange before).items? = v.items?.map (List.map (arrange before)) := by
  cases v with
  | list items => exact congrArg some (arrangeItems_eq_map before items)
  | _ => rfl

theorem textOrNull?_arrange : (v.arrange before).textOrNull? = v.textOrNull? := by
  cases v <;> rfl

variable {v}

theorem at?_arrange (h : v.KeysDistinct) (name : String) :
    (v.arrange before).at? name = (v.at? name).map (arrange before) := by
  cases v with
  | object fields => exact field?_sortFields_arrangeFields before h
  | _ => rfl

end Arrange

/-! ## Values up to the order of fields -/

mutual

/-- The values are equal up to the order of the fields of objects. -/
inductive Alike : Value → Value → Prop where
  | null : Alike .null .null
  | bool (b : Bool) : Alike (.bool b) (.bool b)
  | int (n : Int) : Alike (.int n) (.int n)
  | text (s : String) : Alike (.text s) (.text s)
  | list {items items' : List Value} (h : AlikeItems items items') :
      Alike (.list items) (.list items')
  | object {fields middle fields' : List (String × Value)} (h : AlikeFields fields middle)
      (hperm : middle.Perm fields') : Alike (.object fields) (.object fields')

/-- The items are alike, one by one. -/
inductive AlikeItems : List Value → List Value → Prop where
  | nil : AlikeItems [] []
  | cons {v w : Value} {items items' : List Value} (h : Alike v w)
      (hitems : AlikeItems items items') : AlikeItems (v :: items) (w :: items')

/-- The fields have the same keys and alike values, one by one. -/
inductive AlikeFields : List (String × Value) → List (String × Value) → Prop where
  | nil : AlikeFields [] []
  | cons (key : String) {v w : Value} {fields fields' : List (String × Value)} (h : Alike v w)
      (hfields : AlikeFields fields fields') :
      AlikeFields ((key, v) :: fields) ((key, w) :: fields')

end

/-- Arranging a value changes nothing but the order of fields. -/
theorem alike_arrange (before : String → String → Bool) (v : Value) :
    v.Alike (v.arrange before) := by
  induction v using Value.induction with
  | null => exact .null
  | bool b => exact .bool b
  | int n => exact .int n
  | text s => exact .text s
  | list items ih =>
      refine .list ?_
      induction items with
      | nil => exact .nil
      | cons item items ihitems =>
          obtain ⟨hitem, hitems⟩ := List.forall_mem_cons.1 ih
          exact .cons hitem (ihitems hitems)
  | object fields ih =>
      refine .object ?_ (perm_sortFields before _).symm
      induction fields with
      | nil => exact .nil
      | cons field fields ihfields =>
          obtain ⟨hfield, hfields⟩ := List.forall_mem_cons.1 ih
          exact .cons field.1 hfield (ihfields hfields)

end PropertyWeaver.Value
