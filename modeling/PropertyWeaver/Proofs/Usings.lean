import PropertyWeaver.Contract
import PropertyWeaver.Proofs.Blanks

/-!
# Reading the directives that are printed

A generated file opens with the directives that its contract asks for.  When the file is read again,
the directive of the interface's own namespace brings that namespace in, whatever the copied ones
bring in before it.  This needs no more of the namespace than that no character of it means
something in a directive; `Text.isDottedName` asks for at least that.

## Main results

* `importPath_usingOf` — the directive of a namespace brings in that namespace.
* `simpleName_ofSymbol` — a contract's simple name is the name of its interface.
* `namespaceName_mem_importPaths` — a generated file imports the interface's namespace.
-/

namespace PropertyWeaver

namespace Text

/-! ## Names -/

/-- A character that a name may have: it is not blank, and does not end or divide a name. -/
def isNameChar (c : Char) : Bool := !isBlank c && c != '.' && c != ';' && c != '='

/-- The characters are those of one name. -/
def isNameList (cs : List Char) : Bool := !cs.isEmpty && cs.all isNameChar

/-- `s` is one name.  Identifiers of any script are names. -/
def isName (s : String) : Bool := isNameList s.toList

/-- `s` is a sequence of names with a full stop between neighbours. -/
def isDottedName (s : String) : Bool := (s.toList.splitOn '.').all isNameList

/-- A character that a directive takes as it is. -/
def isPlain (c : Char) : Bool := !isBlank c && c != ';' && c != '='

theorem of_isPlain {c : Char} (h : isPlain c = true) :
    isBlank c = false ∧ (c == ';') = false ∧ (c != '=') = true := by
  unfold isPlain at h
  rw [Bool.and_eq_true, Bool.and_eq_true] at h
  obtain ⟨⟨hblank, hsemi⟩, heq⟩ := h
  exact ⟨by simpa using hblank, by simpa using hsemi, heq⟩

theorem ne_nil_of_isNameList {cs : List Char} (h : isNameList cs = true) : cs ≠ [] := by
  rintro rfl
  cases h

theorem isNameChar_of_mem {cs : List Char} (h : isNameList cs = true) {c : Char} (hc : c ∈ cs) :
    isNameChar c = true := by
  unfold isNameList at h
  rw [Bool.and_eq_true, List.all_eq_true] at h
  exact h.2 c hc

theorem isPlain_of_isNameChar {c : Char} (h : isNameChar c = true) : isPlain c = true := by
  simp only [isNameChar, Bool.and_eq_true] at h
  obtain ⟨⟨⟨hblank, -⟩, hsemi⟩, heq⟩ := h
  simp only [isPlain, hblank, hsemi, heq, Bool.and_self]

theorem not_dot_mem_of_isNameList {cs : List Char} (h : isNameList cs = true) : '.' ∉ cs := by
  intro hmem
  exact absurd (isNameChar_of_mem h hmem) (by decide)

/-- A name is not blank. -/
theorem not_isBlankText_of_isName {s : String} (h : isName s = true) : ¬ isBlankText s = true := by
  intro hblank
  rw [isBlankText, List.all_eq_true] at hblank
  obtain ⟨c, cs, hcs⟩ := List.exists_cons_of_ne_nil (ne_nil_of_isNameList h)
  have hmem : c ∈ s.toList := by
    rw [hcs]
    exact List.mem_cons_self
  have hchar := isNameChar_of_mem h hmem
  simp [isNameChar, hblank c hmem] at hchar

theorem isPlain_of_mem_of_isDottedName {s : String} (h : isDottedName s = true) {c : Char}
    (hc : c ∈ s.toList) : isPlain c = true := by
  by_cases hdot : c = '.'
  · subst hdot
    decide
  · rw [isDottedName, List.all_eq_true, List.splitOn_eq_splitOnP] at h
    obtain ⟨part, hpart, hmem⟩ := exists_mem_splitOnP (· == '.') hc (by simpa using hdot)
    exact isPlain_of_isNameChar (isNameChar_of_mem (h part hpart) hmem)

/-- Characters are cut in one way only before a last part that does not have the separator. -/
theorem append_cons_inj {x : Char} {as bs cs ds : List Char} (hb : x ∉ bs) (hd : x ∉ ds)
    (h : as ++ x :: bs = cs ++ x :: ds) : as = cs ∧ bs = ds := by
  have hnil : ∀ {last rest mid : List Char}, x ∉ last → x :: last = mid ++ x :: rest →
      mid = [] := by
    intro last rest mid hlast hmid
    cases mid with
    | nil => rfl
    | cons y mid =>
        injection hmid with _ htail
        exact absurd (htail ▸ List.mem_append_right mid List.mem_cons_self) hlast
  rcases List.append_eq_append_iff.1 h with ⟨mid, hcs, hmid⟩ | ⟨mid, has, hmid⟩
  · rw [hnil hb hmid] at hcs hmid
    injection hmid with _ htail
    exact ⟨(List.append_nil as).symm.trans hcs.symm, htail⟩
  · rw [hnil hd hmid] at has hmid
    injection hmid with _ htail
    exact ⟨has.trans (List.append_nil cs), htail.symm⟩

end Text

/-! ## The directive of a namespace -/

private theorem importPath_eq_of_trim {directive : String} {word name : List Char}
    (htrim : Text.trimBoth Text.isBlank directive.toList = (word ++ ' ' :: name) ++ [';'])
    (hword : word ≠ [] ∧ ∀ c ∈ word, Text.isPlain c = true)
    (hname : name ≠ [] ∧ ∀ c ∈ name, Text.isPlain c = true) :
    importPath directive = String.ofList name := by
  have hchars : ∀ c ∈ word ++ ' ' :: name, (c == ';') = false ∧ (c != '=') = true := by
    intro c hc
    rcases List.mem_append.1 hc with hleft | hright
    · exact (Text.of_isPlain (hword.2 c hleft)).2
    · rcases List.mem_cons.1 hright with rfl | hright
      · decide
      · exact (Text.of_isPlain (hname.2 c hright)).2
  have hbody : Text.trimEnd (fun c => c == ';') ((word ++ ' ' :: name) ++ [';']) =
      word ++ ' ' :: name := by
    rw [Text.trimEnd_append_of_pos _ (by decide)]
    apply Text.trimEnd_of_forall
    intro c hc
    exact (hchars c hc).1
  -- There is no equals sign, so the directive is read as words.
  have halias : (word ++ ' ' :: name).dropWhile (fun c => c != '=') = [] := by
    rw [List.dropWhile_eq_nil_iff]
    intro c hc
    exact (hchars c hc).2
  have hwords : Text.wordLists (word ++ ' ' :: name) = [word, name] := by
    have hfirst : ∀ c ∈ word, Text.isBlank c = false :=
      fun c hc => (Text.of_isPlain (hword.2 c hc)).1
    have hsecond : ∀ c ∈ name, Text.isBlank c = false :=
      fun c hc => (Text.of_isPlain (hname.2 c hc)).1
    unfold Text.wordLists
    rw [List.splitOnP_append_cons_of_forall_mem hfirst ' ' (by decide),
      List.splitOnP_eq_singleton hsecond]
    simp [hword.1, hname.1]
  unfold importPath
  simp only [htrim, hbody, halias, hwords]
  rfl

/-- The directive of a namespace brings in that namespace. -/
theorem importPath_usingOf {namespaceName : String} (hne : namespaceName ≠ "")
    (h : ∀ c ∈ namespaceName.toList, Text.isPlain c = true) :
    importPath (Contract.usingOf namespaceName) = namespaceName := by
  have hlist : (Contract.usingOf namespaceName).toList =
      (['u', 's', 'i', 'n', 'g'] ++ ' ' :: namespaceName.toList) ++ [';'] := by
    simp [Contract.usingOf]
  have htrim : Text.trimBoth Text.isBlank (Contract.usingOf namespaceName).toList =
      (['u', 's', 'i', 'n', 'g'] ++ ' ' :: namespaceName.toList) ++ [';'] := by
    rw [hlist]
    exact Text.trimBoth_eq_of_ends Text.isBlank (by decide) (by decide) _
  have hkeyword : ['u', 's', 'i', 'n', 'g'].all Text.isPlain = true := by decide
  rw [importPath_eq_of_trim htrim ⟨List.cons_ne_nil _ _, List.all_eq_true.1 hkeyword⟩
    ⟨by simpa using hne, h⟩]
  exact String.ofList_toList

namespace Contract

/-! ## Contracts of interfaces -/

theorem simpleName_ofSymbol (reference : String) (symbol : Symbol)
    (rendering : Option Rendering) :
    (ofSymbol reference symbol rendering).simpleName = symbol.name := by
  unfold simpleName
  show (if symbol.namespaceName = "" then symbol.metadataName
    else Text.dropStart (symbol.namespaceName.length + 1) symbol.metadataName) = symbol.name
  unfold Symbol.metadataName
  split
  · rfl
  · have hlist : (symbol.namespaceName ++ "." ++ symbol.name).toList =
        symbol.namespaceName.toList ++ '.' :: symbol.name.toList := by simp
    have hdrop : (symbol.namespaceName.toList ++ '.' :: symbol.name.toList).drop
        (symbol.namespaceName.length + 1) = symbol.name.toList := by
      rw [← String.length_toList, List.drop_length_add_append]
      rfl
    rw [Text.dropStart, hlist, hdrop]
    exact String.ofList_toList

/-- A file that opens with the directives of a contract imports the interface's namespace. -/
theorem namespaceName_mem_importPaths {contract : Contract} {file : SourceFile}
    (hfile : file.usings = contract.requiredUsings .display)
    (hne : contract.namespaceName ≠ "")
    (h : ∀ c ∈ contract.namespaceName.toList, Text.isPlain c = true) :
    contract.namespaceName ∈ file.importPaths := by
  unfold SourceFile.importPaths
  rw [List.mem_eraseDups, List.mem_filter, List.mem_map]
  refine ⟨⟨usingOf contract.namespaceName, ?_, importPath_usingOf hne h⟩, by simpa using hne⟩
  rw [hfile]
  exact using_mem_requiredUsings hne

end Contract

end PropertyWeaver
