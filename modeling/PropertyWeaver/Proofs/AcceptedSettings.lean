import PropertyWeaver.MarkerFile
import PropertyWeaver.Proofs.Usings

/-!
# Which settings are accepted

A draft is meant to be accepted if its namespace is made of plain identifiers and its name is one,
if the name does not end as an attribute class does, if the suffix makes source files, and if it
asks for a visibility and a rendering that exist.  `Draft.MadeOf` says so for any notion of
identifier.

The checks take an identifier with one line feed after it for an identifier, too.  So the drafts
that pass are those made of *such* identifiers (`check_accepts_iff`), and a name that is followed by
a line feed escapes the check of its ending.  Drafts without line feeds are judged as they are meant
to be.  With the others, the marker attribute's file is no longer laid out in the lines that it is
made of: `splitOn_marker_iff` reads the lines back from the text and finds them only if neither
namespace nor name has a line feed in it.

## Main results

* `isIdentifierList_iff`, `isPlainIdentifier_iff` — what the checks take for an identifier.
* `Layout.splitOn_join_iff` — when the lines of a text can be read back.
* `Draft.check_accepts_iff` — which drafts are accepted, and what becomes of their line feeds.
-/

namespace PropertyWeaver

/-! ## Identifiers -/

namespace Text

/-- The characters are an ASCII letter or the low line, then ASCII letters, digits and low lines,
and nothing else. -/
def IsPlainIdentifier : List Char → Prop
  | [] => False
  | c :: cs => (c.isAlpha = true ∨ c = '_') ∧ ∀ d ∈ cs, d.isAlphanum = true ∨ d = '_'

/-- The characters are a plain identifier, or one with a line feed after it. -/
def IsLineIdentifier (cs : List Char) : Prop :=
  IsPlainIdentifier cs ∨ ∃ name, IsPlainIdentifier name ∧ cs = name ++ ['\n']

theorem isIdentifierStart_iff {c : Char} :
    isIdentifierStart c = true ↔ c.isAlpha = true ∨ c = '_' := by
  simp [isIdentifierStart]

theorem isIdentifierRest_iff {c : Char} :
    isIdentifierRest c = true ↔ c.isAlphanum = true ∨ c = '_' := by
  simp [isIdentifierRest]

/-- The induction stops at the last character, which is the only one that may be a line feed. -/
theorem isIdentifierTail_iff {cs : List Char} :
    isIdentifierTail cs = true ↔
      (∀ c ∈ cs, isIdentifierRest c = true) ∨
        ∃ name, (∀ c ∈ name, isIdentifierRest c = true) ∧ cs = name ++ ['\n'] := by
  induction cs with
  | nil => simp [isIdentifierTail]
  | cons c cs ih =>
      by_cases hlast : c = '\n' ∧ cs = []
      · obtain ⟨rfl, rfl⟩ := hlast
        simp only [isIdentifierTail, true_iff]
        exact Or.inr ⟨[], by simp, rfl⟩
      · have hstep : isIdentifierTail (c :: cs) = (isIdentifierRest c && isIdentifierTail cs) := by
          rw [isIdentifierTail]
          exact fun hc hcs => hlast ⟨hc, hcs⟩
        rw [hstep, Bool.and_eq_true, ih, List.forall_mem_cons, and_or_left]
        apply or_congr Iff.rfl
        constructor
        · rintro ⟨hc, name, hname, rfl⟩
          exact ⟨c :: name, List.forall_mem_cons.2 ⟨hc, hname⟩, rfl⟩
        · rintro ⟨name, hname, heq⟩
          cases name with
          | nil =>
              cases heq
              exact absurd ⟨rfl, rfl⟩ hlast
          | cons d name =>
              cases heq
              obtain ⟨hd, hname⟩ := List.forall_mem_cons.1 hname
              exact ⟨hd, name, hname, rfl⟩

theorem isPlainIdentifier_cons {c : Char} {cs : List Char} :
    IsPlainIdentifier (c :: cs) ↔
      isIdentifierStart c = true ∧ ∀ d ∈ cs, isIdentifierRest d = true := by
  simp only [IsPlainIdentifier, isIdentifierStart_iff, isIdentifierRest_iff]

theorem not_lineFeed_mem_of_isPlainIdentifier {cs : List Char} (h : IsPlainIdentifier cs) :
    '\n' ∉ cs := by
  cases cs with
  | nil => exact List.not_mem_nil
  | cons c cs =>
      obtain ⟨hc, hcs⟩ := isPlainIdentifier_cons.1 h
      intro hmem
      rcases List.mem_cons.1 hmem with rfl | hmem
      · exact absurd hc (by decide)
      · exact absurd (hcs _ hmem) (by decide)

/-- The checks accept a plain identifier, and one with a line feed after it. -/
theorem isIdentifierList_iff {cs : List Char} :
    isIdentifierList cs = true ↔ IsLineIdentifier cs := by
  cases cs with
  | nil =>
      constructor
      · intro h
        cases h
      · rintro (h | ⟨name, -, heq⟩)
        · exact h.elim
        · cases name <;> cases heq
  | cons c cs =>
      rw [isIdentifierList, Bool.and_eq_true, isIdentifierTail_iff, and_or_left, IsLineIdentifier,
        isPlainIdentifier_cons]
      apply or_congr Iff.rfl
      constructor
      · rintro ⟨hc, name, hname, rfl⟩
        exact ⟨c :: name, isPlainIdentifier_cons.2 ⟨hc, hname⟩, rfl⟩
      · rintro ⟨name, hname, heq⟩
        cases name with
        | nil => exact hname.elim
        | cons d name =>
            cases heq
            obtain ⟨hd, hname⟩ := isPlainIdentifier_cons.1 hname
            exact ⟨hd, name, hname, rfl⟩

theorem isIdentifier_iff {s : String} : isIdentifier s = true ↔ IsLineIdentifier s.toList :=
  isIdentifierList_iff

theorem isDottedIdentifier_iff {s : String} :
    isDottedIdentifier s = true ↔ ∀ segment ∈ s.toList.splitOn '.', IsLineIdentifier segment := by
  simp only [isDottedIdentifier, List.all_eq_true, isIdentifierList_iff]

/-- A plain identifier is what the checks accept without a line feed. -/
theorem isPlainIdentifier_iff {cs : List Char} :
    IsPlainIdentifier cs ↔ IsLineIdentifier cs ∧ '\n' ∉ cs := by
  constructor
  · intro h
    exact ⟨Or.inl h, not_lineFeed_mem_of_isPlainIdentifier h⟩
  · rintro ⟨h | ⟨name, -, rfl⟩, hfeed⟩
    · exact h
    · exact absurd (List.mem_append_right name List.mem_cons_self) hfeed

theorem of_mem_splitOn {x : Char} {cs part : List Char} (h : part ∈ cs.splitOn x) {c : Char}
    (hc : c ∈ part) : c ∈ cs ∧ c ≠ x := by
  rw [List.splitOn_eq_splitOnP] at h
  obtain ⟨hmem, hne⟩ := of_mem_splitOnP h hc
  exact ⟨hmem, by simpa using hne⟩

/-- The text has no line feed in it. -/
def OnOneLine (s : String) : Prop := '\n' ∉ s.toList

instance {s : String} : Decidable (OnOneLine s) := inferInstanceAs (Decidable ('\n' ∉ s.toList))

theorem onOneLine_append {s t : String} : OnOneLine (s ++ t) ↔ OnOneLine s ∧ OnOneLine t := by
  simp [OnOneLine]

theorem onOneLine_iff_forall_segment {s : String} :
    OnOneLine s ↔ ∀ segment ∈ s.toList.splitOn '.', '\n' ∉ segment := by
  constructor
  · intro h segment hsegment hfeed
    exact h (of_mem_splitOn hsegment hfeed).1
  · intro h hfeed
    obtain ⟨segment, hsegment, hmem⟩ := exists_mem_splitOnP (· == '.') hfeed (by decide)
    rw [← List.splitOn_eq_splitOnP] at hsegment
    exact h segment hsegment hmem

end Text

/-! ## Drafts -/

namespace Draft

/-- Everything that the draft asks for exists, where `IsName` says what an identifier is. -/
structure MadeOf (IsName : List Char → Prop) (d : Draft) : Prop where
  namespace_segments : ∀ segment ∈ d.attributeNamespace.toList.splitOn '.', IsName segment
  name : IsName d.attributeName.toList
  name_bare : ¬ "Attribute".toList <:+ d.attributeName.toList
  suffix_source : ".cs".toList <:+ d.fileSuffix.toList
  visibility_mem : d.visibility ∈ ["public", "internal", "protected internal"]
  rendering_mem : ∀ rendering ∈ d.rendering, rendering ∈ ["display", "qualified"]

theorem exists_checkVisibility_iff {name : String} :
    (∃ visibility, checkVisibility name = .ok visibility) ↔
      name ∈ ["public", "internal", "protected internal"] := by
  constructor
  · rintro ⟨visibility, h⟩
    unfold checkVisibility at h
    split at h
    · next known hknown =>
        rw [← Visibility.text_of_ofText? hknown]
        cases known <;> decide
    · cases h
  · intro h
    simp only [List.mem_cons, List.not_mem_nil, or_false] at h
    rcases h with rfl | rfl | rfl
    · exact ⟨.everyone, rfl⟩
    · exact ⟨.sameProject, rfl⟩
    · exact ⟨.derivedOrSameProject, rfl⟩

theorem exists_checkRendering_iff {asked : Option String} :
    (∃ rendering, checkRendering asked = .ok rendering) ↔
      ∀ rendering ∈ asked, rendering ∈ ["display", "qualified"] := by
  cases asked with
  | none =>
      constructor
      · intro _ rendering h
        cases h
      · intro _
        exact ⟨none, rfl⟩
  | some name =>
      simp only [Option.mem_def, Option.some.injEq, forall_eq', checkRendering]
      constructor
      · rintro ⟨rendering, h⟩
        split at h
        · next known hknown =>
            rw [← Rendering.text_of_ofText? hknown]
            cases known <;> decide
        · cases h
      · intro h
        simp only [List.mem_cons, List.not_mem_nil, or_false] at h
        rcases h with rfl | rfl
        · exact ⟨some .display, rfl⟩
        · exact ⟨some .qualified, rfl⟩

/-- A draft is accepted exactly if each of the six checks passes. -/
theorem exists_check_iff {d : Draft} :
    (∃ s, d.check = .ok s) ↔
      Text.isDottedIdentifier d.attributeNamespace = true ∧
        Text.isIdentifier d.attributeName = true ∧
        Text.endsWith "Attribute" d.attributeName = false ∧
        Text.endsWith ".cs" d.fileSuffix = true ∧
        (∃ visibility, checkVisibility d.visibility = .ok visibility) ∧
        ∃ rendering, checkRendering d.rendering = .ok rendering := by
  constructor
  · rintro ⟨s, h⟩
    have hdraft := Settings.draft_of_check h
    rw [← hdraft]
    refine ⟨s.namespace_dotted, s.name_identifier, s.name_not_suffixed, s.suffix_source,
      ⟨s.visibility, ?_⟩, s.rendering, ?_⟩
    · simp [Settings.draft, checkVisibility]
    · cases hr : s.rendering <;> simp [Settings.draft, checkRendering, hr]
  · rintro ⟨hns, hname, hbare, hsource, ⟨visibility, hv⟩, rendering, hr⟩
    refine ⟨⟨d.attributeNamespace, d.attributeName, d.fileSuffix, visibility, rendering, d.header,
      hns, hname, hbare, hsource⟩, ?_⟩
    rw [check]
    simp only [hns, hname, hbare, hsource, hv, hr]
    rfl

theorem exists_check_iff_madeOf {d : Draft} :
    (∃ s, d.check = .ok s) ↔ d.MadeOf Text.IsLineIdentifier := by
  rw [exists_check_iff, Text.isDottedIdentifier_iff, Text.isIdentifier_iff, ← Bool.not_eq_true,
    Text.endsWith_iff, Text.endsWith_iff, exists_checkVisibility_iff, exists_checkRendering_iff]
  constructor
  · rintro ⟨hsegments, hname, hbare, hsource, hvisibility, hrendering⟩
    exact ⟨hsegments, hname, hbare, hsource, hvisibility, hrendering⟩
  · rintro ⟨hsegments, hname, hbare, hsource, hvisibility, hrendering⟩
    exact ⟨hsegments, hname, hbare, hsource, hvisibility, hrendering⟩

theorem MadeOf.mono {d : Draft} {IsName IsName' : List Char → Prop} (h : d.MadeOf IsName)
    (hsegment : ∀ segment ∈ d.attributeNamespace.toList.splitOn '.',
      IsName segment → IsName' segment)
    (hname : IsName d.attributeName.toList → IsName' d.attributeName.toList) : d.MadeOf IsName' :=
  { h with
    namespace_segments := fun segment hs => hsegment segment hs (h.namespace_segments segment hs)
    name := hname h.name }

/-- What is made of plain identifiers is what is accepted without line feeds. -/
theorem madeOf_isPlainIdentifier_iff {d : Draft} :
    d.MadeOf Text.IsPlainIdentifier ↔ d.MadeOf Text.IsLineIdentifier ∧
      Text.OnOneLine d.attributeNamespace ∧ Text.OnOneLine d.attributeName := by
  rw [Text.onOneLine_iff_forall_segment]
  constructor
  · intro h
    refine ⟨h.mono (fun segment _ hplain => ?_) (fun hplain => ?_), fun segment hs => ?_, ?_⟩
    · exact (Text.isPlainIdentifier_iff.1 hplain).1
    · exact (Text.isPlainIdentifier_iff.1 hplain).1
    · exact (Text.isPlainIdentifier_iff.1 (h.namespace_segments segment hs)).2
    · exact (Text.isPlainIdentifier_iff.1 h.name).2
  · rintro ⟨h, hns, hname⟩
    refine h.mono (fun segment hs hline => ?_) (fun hline => ?_)
    · exact Text.isPlainIdentifier_iff.2 ⟨hline, hns segment hs⟩
    · exact Text.isPlainIdentifier_iff.2 ⟨hline, hname⟩

theorem fault_of_checkVisibility {name : String} {fault : Fault}
    (h : checkVisibility name = .error fault) : fault = .unknownVisibility name := by
  unfold checkVisibility at h
  split at h
  · cases h
  · cases h
    rfl

theorem fault_of_checkRendering {asked : Option String} {fault : Fault}
    (h : checkRendering asked = .error fault) : ∃ name ∈ asked, fault = .unknownRendering name := by
  unfold checkRendering at h
  split at h
  · cases h
  · split at h
    · cases h
    · cases h
      exact ⟨_, rfl, rfl⟩

/-- Whatever check fails, the host is told that the settings are not valid. -/
theorem category_of_check {d : Draft} {fault : Fault} (h : d.check = .error fault) :
    ∃ diagnostic, fault.diagnostic? = some diagnostic ∧ diagnostic.category = .validation := by
  unfold check at h
  split at h
  · split at h
    · split at h
      · split at h
        · split at h
          · next hv =>
              cases h
              rw [fault_of_checkVisibility hv]
              exact ⟨_, rfl, rfl⟩
          · split at h
            · next hr =>
                cases h
                obtain ⟨name, -, hfault⟩ := fault_of_checkRendering hr
                rw [hfault]
                exact ⟨_, rfl, rfl⟩
            · cases h
        · cases h
          exact ⟨_, rfl, rfl⟩
      · cases h
        exact ⟨_, rfl, rfl⟩
    · cases h
      exact ⟨_, rfl, rfl⟩
  · cases h
    exact ⟨_, rfl, rfl⟩

end Draft

/-! ## Lines of the marker attribute's file -/

namespace Layout

open Text (OnOneLine onOneLine_append)

/-- The lines of a text can be read back exactly if none of them has a line feed in it. -/
theorem splitOn_join_iff {lines : List String} :
    (join lines).toList.splitOn '\n' = (lines ++ [""]).map String.toList ↔
      ∀ line ∈ lines, OnOneLine line := by
  constructor
  · intro h line hline hfeed
    have hmem : line.toList ∈ (join lines).toList.splitOn '\n' := by
      rw [h]
      exact List.mem_map_of_mem (List.mem_append_left _ hline)
    exact (Text.of_mem_splitOn hmem hfeed).2 rfl
  · intro h
    have hparts : ∀ part ∈ (lines ++ [""]).map String.toList, '\n' ∉ part := by
      intro part hpart
      obtain ⟨line, hline, rfl⟩ := List.mem_map.1 hpart
      rcases List.mem_append.1 hline with hline | hline
      · exact h line hline
      · rw [List.mem_singleton.1 hline]
        exact List.not_mem_nil
    have hjoin : (join lines).toList = ['\n'].intercalate ((lines ++ [""]).map String.toList) := by
      unfold join
      rw [String.toList_intercalate]
      rfl
    rw [hjoin, List.splitOn_intercalate '\n' hparts (by simp)]

/-- Only the namespace and the name can break a line. -/
theorem forall_mem_markerLines_iff {s : Settings} {target : MarkerTarget} :
    (∀ line ∈ markerLines s target, OnOneLine line) ↔
      OnOneLine s.attributeNamespace ∧ OnOneLine s.attributeName := by
  have husage : OnOneLine target.usage := by cases target <;> decide
  have hheader : ∀ line ∈ headerLines s, OnOneLine line := by
    intro line hline
    unfold headerLines at hline
    split at hline
    · rw [List.mem_singleton.1 hline]
      decide
    · cases hline
  have hclass : OnOneLine s.className ↔ OnOneLine s.attributeName := by
    rw [Settings.className, onOneLine_append]
    exact and_iff_left (by decide)
  constructor
  · intro h
    have hns := h ("namespace " ++ s.attributeNamespace ++ ";") (by simp [markerLines])
    have hname := h ("sealed class " ++ s.className ++ " : Attribute") (by simp [markerLines])
    rw [onOneLine_append, onOneLine_append] at hns hname
    exact ⟨hns.1.2, hclass.1 hname.1.2⟩
  · rintro ⟨hns, hname⟩
    simp only [markerLines, List.forall_mem_append, List.forall_mem_cons, onOneLine_append, hclass,
      hns, hname, husage, and_true]
    exact ⟨hheader, by decide⟩

/-- The lines of the marker attribute's file can be read back exactly if neither the namespace nor
the name has a line feed in it. -/
theorem splitOn_marker_iff {s : Settings} {target : MarkerTarget} :
    (GeneratedFile.marker s target).source.toList.splitOn '\n' =
        (markerLines s target ++ [""]).map String.toList ↔
      OnOneLine s.attributeNamespace ∧ OnOneLine s.attributeName :=
  splitOn_join_iff.trans forall_mem_markerLines_iff

end Layout

/-! ## The settings that come of a draft -/

/-- A draft is accepted exactly if it is made of identifiers that may each have a line feed after
them, and what it asks for is then kept as it is; it is refused as not valid otherwise.  It is what
a draft is meant to be exactly if it is accepted without those line feeds, and these are the
accepted drafts whose marker attribute is declared line by line. -/
theorem Draft.check_accepts_iff (d : Draft) :
    ((∃ s, d.check = .ok s) ↔ d.MadeOf Text.IsLineIdentifier) ∧
      (∀ fault, d.check = .error fault →
        ∃ diagnostic, fault.diagnostic? = some diagnostic ∧ diagnostic.category = .validation) ∧
      (d.MadeOf Text.IsPlainIdentifier ↔ (∃ s, d.check = .ok s) ∧
        Text.OnOneLine d.attributeNamespace ∧ Text.OnOneLine d.attributeName) ∧
      ∀ s, d.check = .ok s → s.draft = d ∧ ∀ target,
        ((GeneratedFile.marker s target).source.toList.splitOn '\n' =
            (Layout.markerLines s target ++ [""]).map String.toList ↔
          d.MadeOf Text.IsPlainIdentifier) := by
  have hmade : d.MadeOf Text.IsPlainIdentifier ↔ (∃ s, d.check = .ok s) ∧
      Text.OnOneLine d.attributeNamespace ∧ Text.OnOneLine d.attributeName := by
    rw [exists_check_iff_madeOf]
    exact madeOf_isPlainIdentifier_iff
  refine ⟨exists_check_iff_madeOf, fun fault h => category_of_check h, hmade, fun s h => ?_⟩
  have hdraft := Settings.draft_of_check h
  refine ⟨hdraft, fun target => ?_⟩
  rw [Layout.splitOn_marker_iff, hmade, ← hdraft]
  exact (and_iff_right ⟨s, Settings.check_draft s⟩).symm

/-- The draft is accepted though it is not made of plain identifiers, and the declaration of its
marker attribute is broken. -/
def Draft.Escapes (d : Draft) : Prop :=
  ¬ d.MadeOf Text.IsPlainIdentifier ∧ ∃ s, d.check = .ok s ∧
    (GeneratedFile.marker s .type).source.toList.splitOn '\n' ≠
      (Layout.markerLines s .type ++ [""]).map String.toList

theorem Draft.escapes_of_lineFeed {d : Draft} (h : ∃ s, d.check = .ok s)
    (hfeed : ¬ (Text.OnOneLine d.attributeNamespace ∧ Text.OnOneLine d.attributeName)) :
    d.Escapes := by
  obtain ⟨s, hs⟩ := h
  refine ⟨fun hmade => hfeed (madeOf_isPlainIdentifier_iff.1 hmade).2, s, hs, fun hlines => ?_⟩
  rw [← Settings.draft_of_check hs] at hfeed
  exact hfeed (Layout.splitOn_marker_iff.1 hlines)

/-- A line feed gets past the checks after the name, after a name that ends as an attribute class
does, and inside the namespace. -/
theorem Draft.check_lineFeed :
    Draft.Escapes { attributeName := "Fill\n" } ∧
      Draft.Escapes { attributeName := "FillAttribute\n" } ∧
      Draft.Escapes { attributeNamespace := "Gen\n.Attrs" } :=
  ⟨escapes_of_lineFeed ⟨_, rfl⟩ (by decide), escapes_of_lineFeed ⟨_, rfl⟩ (by decide),
    escapes_of_lineFeed ⟨_, rfl⟩ (by decide)⟩

end PropertyWeaver
