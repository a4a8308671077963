import PropertyWeaver.Proofs.Accounting

/-!
# Blocks within blocks

The declarations of a generated file are written by depth: the enclosing types are opened one level
deeper each, and when the target has been written they are closed again, from the inside out.  Read
as a whole, this is a block within a block: `wrap` puts lines between braces, one level deeper, and
`nested` does so once for each enclosing type.

What relates the two is the depth at which a part of the file is written.  Opened at some depth, the
types leave as many braces to close as there are types, each at its own depth, and whatever is
written between stands below all of them (`openings_append_closings`).

Braces are counted by `Text.openAfter`, which reads a text from the left and gives up at a closing
brace for which none is open.  Indenting lines does not change the count, so a block is balanced if
what is in it is.

## Main results

* `openings_append_closings` — opening, writing and closing by depth makes nested blocks.
* `exists_blockAt_nested` — where the block of each depth is opened and closed.
* `source_eq_nested` — what a generated text is made of.
-/

namespace PropertyWeaver

/-! ## Braces in a text -/

namespace Text

/-- How many braces are open after some characters, if `n` are open before; nothing if a brace is
closed while none is open. -/
def openAfter : Nat → List Char → Option Nat
  | n, [] => some n
  | n, c :: cs =>
      if c = '\x7b' then openAfter (n + 1) cs
      else if c = '\x7d' then
        match n with
        | 0 => none
        | m + 1 => openAfter m cs
      else openAfter n cs

/-- Every brace that is opened in the text is closed in it, and no other is. -/
def Balanced (s : String) : Prop := openAfter 0 s.toList = some 0

/-- No brace is opened or closed in the text. -/
def BraceFree (s : String) : Prop := ∀ c ∈ s.toList, c ≠ '\x7b' ∧ c ≠ '\x7d'

instance {s : String} : Decidable (Balanced s) :=
  inferInstanceAs (Decidable (openAfter 0 s.toList = some 0))

instance {s : String} : Decidable (BraceFree s) :=
  List.decidableBAll (fun c => c ≠ '\x7b' ∧ c ≠ '\x7d') s.toList

theorem openAfter_append (n : Nat) (cs ds : List Char) :
    openAfter n (cs ++ ds) = (openAfter n cs).bind fun m => openAfter m ds := by
  induction cs generalizing n with
  | nil => rfl
  | cons c cs ih =>
      simp only [List.cons_append, openAfter]
      split
      · exact ih _
      · split
        · cases n with
          | zero => rfl
          | succ m => exact ih m
        · exact ih n

theorem openAfter_of_braceFree (n : Nat) {cs : List Char}
    (h : ∀ c ∈ cs, c ≠ '\x7b' ∧ c ≠ '\x7d') : openAfter n cs = some n := by
  induction cs with
  | nil => rfl
  | cons c cs ih =>
      obtain ⟨⟨hopen, hclose⟩, hrest⟩ := List.forall_mem_cons.1 h
      simp only [openAfter, if_neg hopen, if_neg hclose]
      exact ih hrest

/-- Braces that are open before stay open. -/
theorem openAfter_add {n m : Nat} {cs : List Char} (h : openAfter n cs = some m) (k : Nat) :
    openAfter (n + k) cs = some (m + k) := by
  induction cs generalizing n with
  | nil =>
      cases h
      rfl
  | cons c cs ih =>
      simp only [openAfter] at h ⊢
      by_cases hopen : c = '\x7b'
      · rw [if_pos hopen] at h ⊢
        rw [Nat.add_right_comm]
        exact ih h
      · rw [if_neg hopen] at h ⊢
        by_cases hclose : c = '\x7d'
        · rw [if_pos hclose] at h ⊢
          cases n with
          | zero => cases h
          | succ n =>
              rw [Nat.add_right_comm]
              exact ih h
        · rw [if_neg hclose] at h ⊢
          exact ih h

namespace Balanced

variable {s t : String}

/-- Whatever is open before a balanced text is open after it. -/
theorem openAfter_eq (h : Balanced s) (n : Nat) : openAfter n s.toList = some n := by
  have hshift := openAfter_add h n
  rwa [Nat.zero_add] at hshift

theorem append (hs : Balanced s) (ht : Balanced t) : Balanced (s ++ t) := by
  rw [Balanced, String.toList_append, openAfter_append, hs.openAfter_eq, Option.bind_some]
  exact ht

theorem enclosed (h : Balanced s) :
    Balanced (Layout.openBrace ++ s ++ Layout.closeBrace) := by
  have hopen : openAfter 0 Layout.openBrace.toList = some 1 := by decide
  have hclose : openAfter 1 Layout.closeBrace.toList = some 0 := by decide
  rw [Balanced, String.toList_append, String.toList_append, openAfter_append, openAfter_append,
    hopen, Option.bind_some, h.openAfter_eq, Option.bind_some, hclose]

end Balanced

namespace BraceFree

variable {s t : String}

theorem balanced (h : BraceFree s) : Balanced s := openAfter_of_braceFree 0 h

theorem append (hs : BraceFree s) (ht : BraceFree t) : BraceFree (s ++ t) := by
  intro c hc
  rw [String.toList_append] at hc
  rcases List.mem_append.1 hc with hc | hc
  · exact hs c hc
  · exact ht c hc

theorem dropStart (h : BraceFree s) (n : Nat) : BraceFree (Text.dropStart n s) := by
  intro c hc
  rw [Text.dropStart, String.toList_ofList] at hc
  exact h c (List.mem_of_mem_drop hc)

theorem intercalate {parts : List String} (hs : BraceFree s)
    (hparts : ∀ part ∈ parts, BraceFree part) : BraceFree (s.intercalate parts) := by
  induction parts with
  | nil => simp [BraceFree]
  | cons part parts ih =>
      obtain ⟨hpart, hrest⟩ := List.forall_mem_cons.1 hparts
      by_cases hlast : parts = []
      · rw [hlast, String.intercalate_singleton]
        exact hpart
      · rw [String.intercalate_cons_of_ne_nil hlast]
        exact (hpart.append hs).append (ih hrest)

end BraceFree

end Text

namespace Layout

open Text (Balanced openAfter)

/-! ## Lines -/

@[simp] theorem indent_zero (line : String) : indent 0 line = line := by simp [indent]

@[simp] theorem indent_indent (m n : Nat) (line : String) :
    indent m (indent n line) = indent (m + n) line := by
  unfold indent
  rw [← String.append_assoc, ← String.ofList_append, List.replicate_append_replicate, Nat.mul_add]

theorem map_indent_map_indent (m n : Nat) (lines : List String) :
    (lines.map (indent n)).map (indent m) = lines.map (indent (m + n)) := by
  rw [List.map_map]
  exact List.map_congr_left fun line _ => indent_indent m n line

theorem map_indent_zero (lines : List String) : lines.map (indent 0) = lines := by
  rw [List.map_congr_left fun line _ => indent_zero line, List.map_id']

/-! ## Blocks -/

/-- A block: its header, and between braces the lines that are in it, one level deeper. -/
def wrap (header : String) (inner : List String) : List String :=
  header :: openBrace :: inner.map (indent 1) ++ [closeBrace]

/-- The lines within the blocks of all enclosing types. -/
def nested : List Container → List String → List String
  | [], inner => inner
  | c :: cs, inner => wrap (containerHeader c) (nested cs inner)

theorem map_indent_wrap (depth : Nat) (header : String) (inner : List String) :
    (wrap header inner).map (indent depth) =
      indent depth header :: indent depth openBrace ::
        inner.map (indent (depth + 1)) ++ [indent depth closeBrace] := by
  simp only [wrap, List.map_append, List.map_cons, List.map_nil, map_indent_map_indent]

/-- Of the closing lines, the last one is not indented, and the others are those of one type fewer,
one level deeper. -/
theorem closings_succ_eq (depth : Nat) :
    closings (depth + 1) = (closings depth).map (indent 1) ++ [closeBrace] := by
  induction depth with
  | zero => simp [closings]
  | succ depth ih =>
      have hmap : (closings (depth + 1)).map (indent 1) =
          indent (depth + 1) closeBrace :: (closings depth).map (indent 1) := by
        simp only [closings, List.map_cons, indent_indent, Nat.add_comm 1 depth]
      rw [hmap, List.cons_append, ← ih]
      rfl

/--
Writing by depth makes nested blocks.

The types are opened from `depth` on, the lines between stand as deep as there are types, and the
closing lines are those of a file that begins at `depth`.  The induction is on the types, and moves
one opening line, one closing line and one level of everything between into a block.
-/
theorem openings_append_closings (depth : Nat) (cs : List Container) (inner : List String) :
    openings depth cs ++ inner.map (indent (depth + cs.length)) ++
        (closings cs.length).map (indent depth) =
      (nested cs inner).map (indent depth) := by
  induction cs generalizing depth with
  | nil => simp [openings, closings, nested]
  | cons c cs ih =>
      have hdepth : depth + (c :: cs).length = depth + 1 + cs.length := by
        rw [List.length_cons]
        omega
      have hclosings : (closings (c :: cs).length).map (indent depth) =
          (closings cs.length).map (indent (depth + 1)) ++ [indent depth closeBrace] := by
        rw [List.length_cons, closings_succ_eq, List.map_append, map_indent_map_indent]
        rfl
      rw [nested, map_indent_wrap, ← ih, hdepth, hclosings, openings]
      simp only [List.cons_append, List.append_assoc]

/-- The block of one depth: `2 * depth` lines open the blocks around it, and its own header is the
last line before its opening brace.  What is in it stands deeper, and its closing brace is followed
by those of the blocks around it, innermost first. -/
def BlockAt (block : List String) (depth : Nat) : Prop :=
  ∃ before inside : List String, before.length = 2 * depth + 1 ∧
    block = before ++ indent depth openBrace :: inside.map (indent (depth + 1)) ++
      indent depth closeBrace :: closings depth

theorem blockAt_wrap (header : String) (inner : List String) : BlockAt (wrap header inner) 0 := by
  refine ⟨[header], inner, rfl, ?_⟩
  rw [indent_zero, indent_zero]
  rfl

/-- Within a block, every block stands one level deeper. -/
theorem BlockAt.wrap {block : List String} {depth : Nat} (h : BlockAt block depth)
    (header : String) : BlockAt (wrap header block) (depth + 1) := by
  obtain ⟨before, inside, hlength, rfl⟩ := h
  refine ⟨header :: openBrace :: before.map (indent 1), inside, ?_, ?_⟩
  · rw [List.length_cons, List.length_cons, List.length_map, hlength]
    omega
  · rw [closings_succ_eq, Layout.wrap]
    simp only [List.map_append, List.map_cons, indent_indent, map_indent_map_indent,
      List.cons_append, List.append_assoc, Nat.add_comm 1]

theorem exists_blockAt_nested {cs : List Container} (header : String) (inner : List String)
    {depth : Nat} (h : depth ≤ cs.length) : BlockAt (nested cs (wrap header inner)) depth := by
  induction cs generalizing depth with
  | nil =>
      rw [Nat.le_zero.1 h]
      exact blockAt_wrap header inner
  | cons c cs ih =>
      cases depth with
      | zero => exact blockAt_wrap _ _
      | succ depth => exact (ih (Nat.le_of_succ_le_succ h)).wrap _

/-- After its prelude, a file is one block in another. -/
theorem lines_eq_nested (s : Settings) (t : TargetType) (c : Contract) (r : Rendering)
    (restates : Bool) :
    lines s t c r restates = prelude s t c r ++ nested t.containers
      (wrap (typeHeader t c r restates)
        (c.properties.map (AutoProperty.line s.visibility.text))) := by
  have hbody : body t.containers.length (typeHeader t c r restates) s.visibility.text
        c.properties =
      (wrap (typeHeader t c r restates)
        (c.properties.map (AutoProperty.line s.visibility.text))).map
          (indent t.containers.length) := by
    rw [map_indent_wrap, List.map_map]
    rfl
  have hblocks := openings_append_closings 0 t.containers
    (wrap (typeHeader t c r restates) (c.properties.map (AutoProperty.line s.visibility.text)))
  rw [Nat.zero_add, map_indent_zero, map_indent_zero, ← hbody] at hblocks
  rw [← hblocks, lines]
  simp only [List.append_assoc]

/-! ## Balanced texts -/

/-- Indenting lines opens and closes nothing. -/
theorem openAfter_join_map_indent (n depth : Nat) (lines : List String) :
    openAfter n (join (lines.map (indent depth))).toList = openAfter n (join lines).toList := by
  induction lines generalizing n with
  | nil => rfl
  | cons line lines ih =>
      have hspaces : openAfter n (List.replicate (4 * depth) ' ') = some n := by
        apply Text.openAfter_of_braceFree
        intro c hc
        rw [List.eq_of_mem_replicate hc]
        decide
      have hline : openAfter n (indent depth line ++ "\n").toList =
          openAfter n (line ++ "\n").toList := by
        rw [indent, String.append_assoc, String.toList_append, String.toList_ofList,
          Text.openAfter_append, hspaces, Option.bind_some]
      have hsplit (first : String) (rest : List String) :
          openAfter n (first ++ "\n" ++ join rest).toList =
            (openAfter n (first ++ "\n").toList).bind fun m => openAfter m (join rest).toList := by
        rw [String.toList_append, Text.openAfter_append]
      rw [List.map_cons, join_cons, join_cons, hsplit, hsplit, hline]
      exact Option.bind_congr fun m _ => ih m

theorem balanced_join {lines : List String} (h : ∀ line ∈ lines, Balanced line) :
    Balanced (join lines) := by
  induction lines with
  | nil => decide
  | cons line lines ih =>
      obtain ⟨hline, hrest⟩ := List.forall_mem_cons.1 h
      have hfeed : Balanced "\n" := by decide
      rw [join_cons]
      exact (hline.append hfeed).append (ih hrest)

theorem balanced_join_wrap {header : String} {inner : List String} (hheader : Balanced header)
    (hinner : Balanced (join inner)) : Balanced (join (wrap header inner)) := by
  have hdeeper : Balanced (join (inner.map (indent 1))) :=
    (openAfter_join_map_indent 0 1 inner).trans hinner
  have hfeed : Balanced "\n" := by decide
  have hsplit : join (wrap header inner) =
      header ++ "\n" ++ (openBrace ++ ("\n" ++ join (inner.map (indent 1))) ++ closeBrace) ++
        "\n" := by
    have hlast : join [closeBrace] = closeBrace ++ "\n" := by decide
    rw [wrap, join_append, join_cons, join_cons, hlast]
    simp only [String.append_assoc]
  rw [hsplit]
  exact ((hheader.append hfeed).append (hfeed.append hdeeper).enclosed).append hfeed

theorem balanced_join_nested {cs : List Container} {inner : List String}
    (hcs : ∀ c ∈ cs, Balanced (containerHeader c)) (hinner : Balanced (join inner)) :
    Balanced (join (nested cs inner)) := by
  induction cs with
  | nil => exact hinner
  | cons c cs ih =>
      obtain ⟨hc, hrest⟩ := List.forall_mem_cons.1 hcs
      exact balanced_join_wrap hc (ih hrest)

/-- No text that is printed for the type or the contract has a brace in it. -/
structure BraceFree (t : TargetType) (c : Contract) : Prop where
  namespaceName : Text.BraceFree t.namespaceName
  keyword : Text.BraceFree t.keyword
  name : Text.BraceFree t.name
  containers : ∀ container ∈ t.containers,
    Text.BraceFree container.keyword ∧ Text.BraceFree container.name
  typeParameters : ∀ parameter ∈ t.typeParameters, Text.BraceFree parameter
  contractNamespace : Text.BraceFree c.namespaceName
  metadataName : Text.BraceFree c.metadataName
  importDirectives : ∀ line ∈ c.importDirectives, Text.BraceFree line
  properties : ∀ p ∈ c.properties, Text.BraceFree p.type ∧ Text.BraceFree p.name

instance (t : TargetType) (c : Contract) : Decidable (BraceFree t c) :=
  decidable_of_iff (Text.BraceFree t.namespaceName ∧ Text.BraceFree t.keyword ∧
      Text.BraceFree t.name ∧
      (∀ container ∈ t.containers,
        Text.BraceFree container.keyword ∧ Text.BraceFree container.name) ∧
      (∀ parameter ∈ t.typeParameters, Text.BraceFree parameter) ∧
      Text.BraceFree c.namespaceName ∧ Text.BraceFree c.metadataName ∧
      (∀ line ∈ c.importDirectives, Text.BraceFree line) ∧
      ∀ p ∈ c.properties, Text.BraceFree p.type ∧ Text.BraceFree p.name)
    ⟨fun ⟨h₁, h₂, h₃, h₄, h₅, h₆, h₇, h₈, h₉⟩ => ⟨h₁, h₂, h₃, h₄, h₅, h₆, h₇, h₈, h₉⟩,
      fun ⟨h₁, h₂, h₃, h₄, h₅, h₆, h₇, h₈, h₉⟩ => ⟨h₁, h₂, h₃, h₄, h₅, h₆, h₇, h₈, h₉⟩⟩

namespace BraceFree

variable {t : TargetType} {c : Contract}

theorem implementedName (h : BraceFree t c) (r : Rendering) :
    Text.BraceFree (c.implementedName r) := by
  have hglobal : Text.BraceFree "global::" := by decide
  cases r with
  | qualified => exact hglobal.append h.metadataName
  | display =>
      show Text.BraceFree c.simpleName
      unfold Contract.simpleName
      split
      · exact h.metadataName
      · exact h.metadataName.dropStart _

theorem typeHeader (h : BraceFree t c) (r : Rendering) (restates : Bool) :
    Text.BraceFree (typeHeader t c r restates) := by
  have hpartial : Text.BraceFree "partial " := by decide
  have hspace : Text.BraceFree " " := by decide
  have hopen : Text.BraceFree "<" := by decide
  have hcomma : Text.BraceFree ", " := by decide
  have hclose : Text.BraceFree ">" := by decide
  have hcolon : Text.BraceFree " : " := by decide
  have hnothing : Text.BraceFree "" := by decide
  have hparameters : Text.BraceFree (parameterList t.typeParameters) := by
    unfold parameterList
    split
    · exact hnothing
    · exact (hopen.append (hcomma.intercalate h.typeParameters)).append hclose
  have hbase : Text.BraceFree (if restates then " : " ++ c.implementedName r else "") := by
    cases restates with
    | false => exact hnothing
    | true => exact hcolon.append (h.implementedName r)
  exact ((((hpartial.append h.keyword).append hspace).append h.name).append hparameters).append
    hbase

theorem of_mem_requiredUsings (h : BraceFree t c) {r : Rendering} {line : String}
    (hline : line ∈ c.requiredUsings r) : Text.BraceFree line := by
  have hcopied : ∀ line ∈ c.copiedUsings, Text.BraceFree line := by
    intro line hline
    rw [Contract.copiedUsings, List.mem_eraseDups] at hline
    exact h.importDirectives line (List.mem_filter.1 hline).1
  have husing : Text.BraceFree "using " := by decide
  have hsemicolon : Text.BraceFree ";" := by decide
  cases r with
  | qualified => cases hline
  | display =>
      simp only [Contract.requiredUsings] at hline
      split at hline
      · exact hcopied line hline
      · rcases List.mem_append.1 hline with hline | hline
        · exact hcopied line hline
        · rw [List.mem_singleton.1 hline]
          exact (husing.append h.contractNamespace).append hsemicolon

theorem of_mem_prelude (h : BraceFree t c) {s : Settings} {r : Rendering} {line : String}
    (hline : line ∈ prelude s t c r) : Text.BraceFree line := by
  have hparagraph : ∀ lines : List String, (∀ line ∈ lines, Text.BraceFree line) →
      ∀ line ∈ paragraph lines, Text.BraceFree line := by
    intro lines hlines line hline
    cases lines with
    | nil => cases hline
    | cons first rest =>
        rcases List.mem_append.1 hline with hline | hline
        · exact hlines line hline
        · rw [List.mem_singleton.1 hline]
          decide
  have hnamespace : ∀ line ∈ namespaceLines t.namespaceName, Text.BraceFree line := by
    intro line hline
    have hkeyword : Text.BraceFree "namespace " := by decide
    have hsemicolon : Text.BraceFree ";" := by decide
    unfold namespaceLines at hline
    split at hline
    · cases hline
    · rw [List.mem_singleton.1 hline]
      exact (hkeyword.append h.namespaceName).append hsemicolon
  unfold prelude headerLines at hline
  rcases List.mem_append.1 hline with hline | hline
  · rcases List.mem_append.1 hline with hline | hline
    · split at hline
      · rw [List.mem_singleton.1 hline]
        decide
      · cases hline
    · exact hparagraph _ (fun _ => h.of_mem_requiredUsings) line hline
  · exact hparagraph _ hnamespace line hline

/-- The accessors of a property are the only braces in its line. -/
theorem balanced_line (h : BraceFree t c) (visibility : Visibility) {p : AutoProperty}
    (hp : p ∈ c.properties) : Balanced (p.line visibility.text) := by
  obtain ⟨htype, hname⟩ := h.properties p hp
  have hvisibility : Text.BraceFree visibility.text := by cases visibility <;> decide
  have hspace : Text.BraceFree " " := by decide
  have haccessors : Balanced
      (if p.hasSetter then " \x7b get; set; \x7d" else " \x7b get; \x7d") := by
    cases p.hasSetter <;> decide
  exact ((((hvisibility.append hspace).append htype).append hspace).append hname).balanced.append
    haccessors

theorem balanced_source (h : BraceFree t c) (s : Settings) (r : Rendering) (restates : Bool) :
    Balanced (source s t c r restates) := by
  have hcontainers : ∀ container ∈ t.containers, Balanced (containerHeader container) := by
    intro container hmem
    obtain ⟨hkeyword, hname⟩ := h.containers container hmem
    have hpartial : Text.BraceFree "partial " := by decide
    have hspace : Text.BraceFree " " := by decide
    exact (((hpartial.append hkeyword).append hspace).append hname).balanced
  have hproperties : Balanced
      (join (c.properties.map (AutoProperty.line s.visibility.text))) := by
    apply balanced_join
    intro line hline
    obtain ⟨p, hp, rfl⟩ := List.mem_map.1 hline
    exact h.balanced_line s.visibility hp
  have hprelude : Balanced (join (prelude s t c r)) :=
    balanced_join fun _ hline => (h.of_mem_prelude hline).balanced
  rw [source, lines_eq_nested, join_append]
  exact hprelude.append (balanced_join_nested hcontainers
    (balanced_join_wrap (h.typeHeader r restates).balanced hproperties))

end BraceFree

/-! ## Generated texts -/

/-- The prelude is made of the comment, the directives and the namespace, each where there is one,
with an empty line after the directives and after the namespace. -/
theorem prelude_eq (s : Settings) (t : TargetType) (c : Contract) (r : Rendering) :
    prelude s t c r =
      (if s.header then [headerComment] else []) ++
        (if c.requiredUsings r = [] then [] else c.requiredUsings r ++ [""]) ++
        (if t.namespaceName = "" then [] else ["namespace " ++ t.namespaceName ++ ";", ""]) := by
  have husings : paragraph (c.requiredUsings r) =
      if c.requiredUsings r = [] then [] else c.requiredUsings r ++ [""] := by
    cases c.requiredUsings r with
    | nil => rfl
    | cons line lines => rfl
  have hnamespace : paragraph (namespaceLines t.namespaceName) =
      if t.namespaceName = "" then [] else ["namespace " ++ t.namespaceName ++ ";", ""] := by
    unfold namespaceLines
    split
    · rfl
    · rfl
  rw [prelude, husings, hnamespace]
  rfl

/--
A generated text is its prelude and one block in another, line by line.  The block of each depth is
opened after the blocks around it and closed before them, at its own indentation.  If no text that
is printed has a brace in it, all braces are balanced, line feeds or not.
-/
theorem source_eq_nested (s : Settings) (t : TargetType) (c : Contract) (r : Rendering)
    (restates : Bool) :
    let block := nested t.containers (wrap (typeHeader t c r restates)
      (c.properties.map (AutoProperty.line s.visibility.text)))
    source s t c r restates = String.join
        (((if s.header then [headerComment] else []) ++
          (if c.requiredUsings r = [] then [] else c.requiredUsings r ++ [""]) ++
          (if t.namespaceName = "" then [] else ["namespace " ++ t.namespaceName ++ ";", ""]) ++
          block).map (· ++ "\n")) ∧
      (∀ depth ≤ t.containers.length, BlockAt block depth) ∧
      (BraceFree t c → Balanced (source s t c r restates)) := by
  intro block
  refine ⟨?_, fun depth h => exists_blockAt_nested _ _ h, fun h => h.balanced_source s r restates⟩
  rw [source, lines_eq_nested, prelude_eq, join_eq]

end Layout

/-! ## A type in two types -/

/-- A generic record in a class in a struct, outside of every namespace. -/
def TargetType.inner : TargetType :=
  ⟨"", "Inner", [], [], "record", [⟨"Outer", "struct"⟩, ⟨"Middle", "class"⟩], ["T"]⟩

/-- A contract with one property. -/
def Contract.valued : Contract := ⟨"IBar", "", "IBar", [], [⟨"T", "Value", false⟩]⟩

/-- Three blocks, and the innermost is closed first. -/
theorem source_eq_nested_inner :
    Layout.BlockAt
      (Layout.nested TargetType.inner.containers
        (Layout.wrap "partial record Inner<T> : IBar" ["public T Value \x7b get; \x7d"])) 2 ∧
    Layout.BraceFree .inner .valued ∧
    Text.Balanced (Layout.source .usual .inner .valued .display true) ∧
    Layout.source .usual .inner .valued .display true =
      "// <auto-generated/>\n" ++
      "partial struct Outer\n" ++
      "\x7b\n" ++
      "    partial class Middle\n" ++
      "    \x7b\n" ++
      "        partial record Inner<T> : IBar\n" ++
      "        \x7b\n" ++
      "            public T Value \x7b get; \x7d\n" ++
      "        \x7d\n" ++
      "    \x7d\n" ++
      "\x7d\n" := by
  obtain ⟨-, hblocks, hbalanced⟩ :=
    Layout.source_eq_nested .usual .inner .valued .display true
  have hfree : Layout.BraceFree .inner .valued := by decide
  exact ⟨hblocks 2 (by decide), hfree, hbalanced hfree, by decide +kernel⟩

end PropertyWeaver
