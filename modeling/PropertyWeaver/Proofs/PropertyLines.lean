import PropertyWeaver.Proofs.AcceptedSettings
import PropertyWeaver.Proofs.Nesting

/-!
# Property lines tell properties apart

A generated text has one line for each property of its contract, and everything else in it is the
same whatever the properties are.  So if two texts for one target agree, their property lines do.

A type may hold spaces, braces and texts that look like accessors, so a line is read from its end:
the accessors with a setter and those without end in different texts of one length, a name has no
space in it and begins after the last one, and what is left is the type.

## Main results

* `AutoProperty.line_inj` — a line is the line of one property.
* `source_properties_inj` — a text is the text of one list of properties.
-/

namespace PropertyWeaver

namespace AutoProperty

/-! ## One line -/

/-- The property is written as one that a host can declare: its type has no line feed in it, and
its name no blank character. -/
structure Legible (p : AutoProperty) : Prop where
  type : Text.OnOneLine p.type
  name : ∀ c ∈ p.name.toList, Text.isBlank c = false

instance (p : AutoProperty) : Decidable p.Legible :=
  have : Decidable (∀ c ∈ p.name.toList, Text.isBlank c = false) :=
    List.decidableBAll (fun c => Text.isBlank c = false) p.name.toList
  decidable_of_iff (Text.OnOneLine p.type ∧ ∀ c ∈ p.name.toList, Text.isBlank c = false)
    ⟨fun h => ⟨h.1, h.2⟩, fun h => ⟨h.type, h.name⟩⟩

theorem Legible.not_mem_name {p : AutoProperty} (h : p.Legible) {c : Char}
    (hc : Text.isBlank c = true) : c ∉ p.name.toList := by
  intro hmem
  rw [h.name c hmem] at hc
  cases hc

/-- The end of a property's line. -/
def accessors (hasSetter : Bool) : String :=
  if hasSetter then " \x7b get; set; \x7d" else " \x7b get; \x7d"

theorem line_eq (visibility : String) (p : AutoProperty) :
    p.line visibility = visibility ++ " " ++ p.type ++ " " ++ p.name ++ accessors p.hasSetter :=
  rfl

/-- What stands before the accessors of a line can be told, and whether a setter is among them: the
last six characters differ. -/
theorem append_accessors_inj {x y : String} {b b' : Bool}
    (h : x ++ accessors b = y ++ accessors b') : x = y ∧ b = b' := by
  have hends : ∀ {cs ds : List Char}, cs ++ "get; \x7d".toList ≠ ds ++ "set; \x7d".toList := by
    intro cs ds h
    exact absurd (List.append_inj' h rfl).2 (by decide)
  have hwithout (x : String) : (x ++ accessors false).toList =
      (x ++ " \x7b ").toList ++ "get; \x7d".toList := by
    rw [← String.toList_append, String.append_assoc]
    rfl
  have hwith (x : String) : (x ++ accessors true).toList =
      (x ++ " \x7b get; ").toList ++ "set; \x7d".toList := by
    rw [← String.toList_append, String.append_assoc]
    rfl
  have hlist := congrArg String.toList h
  cases b with
  | false =>
      cases b' with
      | false => exact ⟨(String.append_left_inj _).1 h, rfl⟩
      | true =>
          rw [hwithout, hwith] at hlist
          exact absurd hlist hends
  | true =>
      cases b' with
      | false =>
          rw [hwithout, hwith] at hlist
          exact absurd hlist.symm hends
      | true => exact ⟨(String.append_left_inj _).1 h, rfl⟩

theorem line_inj {visibility : String} {p q : AutoProperty} (hp : p.Legible) (hq : q.Legible) :
    p.line visibility = q.line visibility ↔ p = q := by
  constructor
  · intro h
    rw [line_eq, line_eq] at h
    obtain ⟨hdeclared, hsetter⟩ := append_accessors_inj h
    have hlist : (visibility ++ " " ++ p.type).toList ++ ' ' :: p.name.toList =
        (visibility ++ " " ++ q.type).toList ++ ' ' :: q.name.toList := by
      have hcut (x name : String) : (x ++ " " ++ name).toList = x.toList ++ ' ' :: name.toList := by
        simp
      rw [← hcut, ← hcut, hdeclared]
    obtain ⟨htype, hname⟩ := Text.append_cons_inj (hp.not_mem_name (by decide))
      (hq.not_mem_name (by decide)) hlist
    have htype' : p.type = q.type := (String.append_right_inj _).1 (String.toList_inj.1 htype)
    cases p
    cases q
    exact (mk.injEq ..).mpr ⟨htype', String.toList_inj.1 hname, hsetter⟩
  · rintro rfl
    rfl

/-- Without such a name, the type and the name can be cut in two ways. -/
example : AutoProperty.line "public" ⟨"A B", "C", false⟩ =
    AutoProperty.line "public" ⟨"A", "B C", false⟩ := by
  decide

theorem Legible.onOneLine_line {p : AutoProperty} (h : p.Legible) {visibility : String}
    (hvisibility : Text.OnOneLine visibility) : Text.OnOneLine (p.line visibility) := by
  have hname : Text.OnOneLine p.name := h.not_mem_name (by decide)
  have hspace : Text.OnOneLine " " := by decide
  have haccessors : Text.OnOneLine (accessors p.hasSetter) := by cases p.hasSetter <;> decide
  rw [line_eq]
  simp only [Text.onOneLine_append]
  exact ⟨⟨⟨⟨⟨hvisibility, hspace⟩, h.type⟩, hspace⟩, hname⟩, haccessors⟩

end AutoProperty

namespace Layout

/-! ## All lines -/

theorem indent_inj {depth : Nat} {x y : String} : indent depth x = indent depth y ↔ x = y :=
  String.append_right_inj _

theorem onOneLine_indent {depth : Nat} {line : String} (h : Text.OnOneLine line) :
    Text.OnOneLine (indent depth line) := by
  have hspaces : Text.OnOneLine (String.ofList (List.replicate (4 * depth) ' ')) := by
    intro hmem
    rw [String.toList_ofList] at hmem
    exact absurd (List.eq_of_mem_replicate hmem) (by decide)
  exact Text.onOneLine_append.2 ⟨hspaces, h⟩

/-- A text is made of one list of lines only, if no line feeds are within them. -/
theorem join_inj {lines lines' : List String} (h : ∀ line ∈ lines, Text.OnOneLine line)
    (h' : ∀ line ∈ lines', Text.OnOneLine line) : join lines = join lines' ↔ lines = lines' := by
  constructor
  · intro heq
    have hsplit : (lines ++ [""]).map String.toList = (lines' ++ [""]).map String.toList := by
      rw [← splitOn_join_iff.2 h, ← splitOn_join_iff.2 h', heq]
    have hinj : Function.Injective String.toList := fun _ _ => String.toList_inj.1
    exact List.append_cancel_right (List.map_injective_iff.2 hinj hsplit)
  · rintro rfl
    rfl

variable {s : Settings} {t : TargetType} {c c' : Contract}

theorem onOneLine_of_mem_propertyLines (h : ∀ p ∈ c.properties, p.Legible) {line : String}
    (hline : line ∈ propertyLines s t c) : Text.OnOneLine line := by
  obtain ⟨p, hp, rfl⟩ := List.mem_map.1 hline
  have hvisibility : Text.OnOneLine s.visibility.text := by cases s.visibility <;> decide
  exact onOneLine_indent ((h p hp).onOneLine_line hvisibility)

theorem propertyLines_inj (h : ∀ p ∈ c.properties, p.Legible)
    (h' : ∀ p ∈ c'.properties, p.Legible) :
    propertyLines s t c = propertyLines s t c' ↔ c.properties = c'.properties := by
  unfold propertyLines
  constructor
  · generalize c.properties = ps at h ⊢
    generalize c'.properties = qs at h' ⊢
    intro heq
    induction ps generalizing qs with
    | nil => exact (List.map_eq_nil_iff.1 heq.symm).symm
    | cons p ps ih =>
        cases qs with
        | nil => cases heq
        | cons q qs =>
            obtain ⟨hp, hps⟩ := List.forall_mem_cons.1 h
            obtain ⟨hq, hqs⟩ := List.forall_mem_cons.1 h'
            obtain ⟨hline, hlines⟩ := List.cons.inj heq
            rw [(AutoProperty.line_inj hp hq).1 (indent_inj.1 hline), ih hps qs hqs hlines]
  · intro heq
    rw [heq]

theorem source_eq (s : Settings) (t : TargetType) (c : Contract) (r : Rendering)
    (restates : Bool) :
    source s t c r restates = join (heading s t c r restates) ++ join (propertyLines s t c) ++
      join (closings (t.containers.length + 1)) := by
  rw [source, lines_eq, join_append, join_append]

/--
A contract's text changes with its properties.

Nothing else of the text depends on them, and as long as types are on one line and names have no
blank characters in them, the lines of the properties can be read back, each of them into its
type, its name and whether it has a setter.
-/
theorem source_properties_inj (s : Settings) (t : TargetType) (c : Contract) (r : Rendering)
    (restates : Bool) {ps qs : List AutoProperty} (hps : ∀ p ∈ ps, p.Legible)
    (hqs : ∀ q ∈ qs, q.Legible) :
    source s t { c with properties := ps } r restates =
        source s t { c with properties := qs } r restates ↔
      ps = qs := by
  have hheading : heading s t { c with properties := ps } r restates =
      heading s t { c with properties := qs } r restates := rfl
  rw [source_eq, source_eq, hheading, String.append_left_inj, String.append_right_inj,
    join_inj (fun _ => onOneLine_of_mem_propertyLines hps)
      (fun _ => onOneLine_of_mem_propertyLines hqs)]
  exact propertyLines_inj hps hqs

end Layout

/-- A type that looks like a whole property, and the two properties that it looks like. -/
theorem source_ne_of_accessors_in_type :
    (∀ p ∈ [(⟨"int A \x7b get; \x7d string", "B", false⟩ : AutoProperty)], p.Legible) ∧
    (∀ p ∈ [(⟨"int", "A", false⟩ : AutoProperty), ⟨"string", "B", false⟩], p.Legible) ∧
    Layout.source .usual .inner { Contract.valued with properties :=
        [⟨"int A \x7b get; \x7d string", "B", false⟩] } .qualified true ≠
      Layout.source .usual .inner { Contract.valued with properties :=
        [⟨"int", "A", false⟩, ⟨"string", "B", false⟩] } .qualified true := by
  have hps : ∀ p ∈ [(⟨"int A \x7b get; \x7d string", "B", false⟩ : AutoProperty)], p.Legible := by
    decide
  have hqs : ∀ p ∈ [(⟨"int", "A", false⟩ : AutoProperty), ⟨"string", "B", false⟩],
      p.Legible := by
    decide
  refine ⟨hps, hqs, fun h => ?_⟩
  have heq := (Layout.source_properties_inj .usual .inner .valued .qualified true hps hqs).1 h
  exact absurd heq (by decide)

end PropertyWeaver
