import Mathlib.Data.List.Basic
import Mathlib.Data.List.TakeWhile
import PropertyWeaver.Text.Affix
import PropertyWeaver.Text.Blank

/-!
# Blank characters around and inside texts

Whatever is trimmed is read without the blank characters around it: `Padded core s` says that `s` is
`core` with blank characters around it, and `Flush core` that there is nothing to trim of `core`.

Inside a text, a run of blank characters separates two words, however long it is.  `collapse` puts
one space for each run and keeps everything else.  Words joined by single spaces are the collapsed
text without what is around it (`squeeze_eq_collapse`); the proofs read a text as a first word and
what comes after the blank character behind it (`cutInduction`).  Trimming does not tell a text from
its collapsed form, as long as the characters it takes away are all of the blank ones or none
(`dropWhile_collapsed`, `trimEnd_collapsed`).

## Main results

* `trim_of_padded` — trimming takes away what is around a flush text.
* `wordLists_append_cons` — a blank character separates words.
* `wordLists_collapsed`, `squeeze_eq_collapse` — the words of a text and of its collapsed form.
* `dropWhile_collapsed`, `trimEnd_collapsed` — trimming and collapsing commute.
-/

namespace PropertyWeaver.Text

/-! ## Trimming at one end -/

/-- Nothing is trimmed of a text whose first and last characters are kept. -/
theorem trimBoth_eq_of_ends (p : Char → Bool) {first last : Char} (hfirst : p first = false)
    (hlast : p last = false) (cs : List Char) :
    trimBoth p ((first :: cs) ++ [last]) = (first :: cs) ++ [last] := by
  have hstart : ¬ p first = true := by simp [hfirst]
  rw [trimBoth, List.cons_append, List.dropWhile_cons_of_neg hstart, ← List.cons_append]
  exact trimEnd_eq_of_getLast p _ last hlast

theorem trimEnd_append_of_pos (p : Char → Bool) {c : Char} (h : p c = true) (cs : List Char) :
    trimEnd p (cs ++ [c]) = trimEnd p cs := by
  simp [trimEnd, h]

theorem trimEnd_of_forall (p : Char → Bool) {cs : List Char} (h : ∀ c ∈ cs, p c = false) :
    trimEnd p cs = cs := by
  have hdrop : cs.reverse.dropWhile p = cs.reverse := by
    rw [List.dropWhile_eq_self_iff]
    intro hl
    have hmem : cs.reverse[0] ∈ cs := List.mem_reverse.1 (List.getElem_mem hl)
    rw [h _ hmem]
    exact Bool.false_ne_true
  rw [trimEnd, hdrop, List.reverse_reverse]

theorem dropWhile_append_of_head? {p : Char → Bool} {before core : List Char}
    (hbefore : ∀ c ∈ before, p c = true) (hcore : ∀ c ∈ core.head?, p c = false) :
    (before ++ core).dropWhile p = core := by
  rw [List.dropWhile_append_of_pos hbefore]
  cases core with
  | nil => rfl
  | cons c cs => exact List.dropWhile_cons_of_neg (by simp [hcore c rfl])

theorem trimEnd_append_of_getLast? {p : Char → Bool} {core after : List Char}
    (hcore : ∀ c ∈ core.getLast?, p c = false) (hafter : ∀ c ∈ after, p c = true) :
    trimEnd p (core ++ after) = core := by
  have hhead : ∀ c ∈ core.reverse.head?, p c = false := by
    rw [List.head?_reverse]
    exact hcore
  rw [trimEnd, List.reverse_append,
    dropWhile_append_of_head? (fun c hc => hafter c (List.mem_reverse.1 hc)) hhead,
    List.reverse_reverse]

/-- Trimming takes away what is around characters that cannot be trimmed. -/
theorem trimBoth_append {p : Char → Bool} {before core after : List Char}
    (hbefore : ∀ c ∈ before, p c = true) (hafter : ∀ c ∈ after, p c = true)
    (hfirst : ∀ c ∈ core.head?, p c = false) (hlast : ∀ c ∈ core.getLast?, p c = false) :
    trimBoth p (before ++ core ++ after) = core := by
  rw [trimBoth, List.append_assoc]
  by_cases hempty : core = []
  · have hall : (before ++ after).dropWhile p = [] := by
      rw [List.dropWhile_eq_nil_iff, List.forall_mem_append]
      exact ⟨hbefore, hafter⟩
    rw [hempty, List.nil_append, hall, trimEnd_nil]
  · have hhead : ∀ c ∈ (core ++ after).head?, p c = false := by
      obtain ⟨first, rest, rfl⟩ := List.exists_cons_of_ne_nil hempty
      exact hfirst
    rw [dropWhile_append_of_head? hbefore hhead, trimEnd_append_of_getLast? hlast hafter]

/-- What is trimmed at the end is a run of characters, and the character before it is kept. -/
theorem exists_trimEnd_append (p : Char → Bool) (cs : List Char) :
    ∃ run : List Char, (∀ c ∈ run, p c = true) ∧ cs = trimEnd p cs ++ run ∧
      ∀ c ∈ (trimEnd p cs).getLast?, p c = false := by
  refine ⟨(cs.reverse.takeWhile p).reverse,
    fun c hc => List.mem_takeWhile_imp (List.mem_reverse.1 hc), ?_, fun c hc => ?_⟩
  · rw [trimEnd, ← List.reverse_append, List.takeWhile_append_dropWhile, List.reverse_reverse]
  · rw [trimEnd, List.getLast?_reverse] at hc
    have hnot := List.head?_dropWhile_not p cs.reverse
    rw [Option.mem_def.1 hc] at hnot
    exact hnot

/-! ## Blank characters around a text -/

/-- The text begins and ends with a character that is not blank, or is empty. -/
structure Flush (s : String) : Prop where
  first : ∀ c ∈ s.toList.head?, isBlank c = false
  last : ∀ c ∈ s.toList.getLast?, isBlank c = false

theorem all_not_iff {p : Char → Bool} {o : Option Char} :
    o.all (!p ·) = true ↔ ∀ c ∈ o, p c = false := by
  simp [Option.all_eq_true]

instance (s : String) : Decidable (Flush s) :=
  decidable_of_iff
    (s.toList.head?.all (!isBlank ·) = true ∧ s.toList.getLast?.all (!isBlank ·) = true)
    ⟨fun h => ⟨all_not_iff.1 h.1, all_not_iff.1 h.2⟩,
      fun h => ⟨all_not_iff.2 h.first, all_not_iff.2 h.last⟩⟩

/-- `s` is `core` with blank characters around it, if any. -/
def Padded (core s : String) : Prop :=
  ∃ before after : List Char, (∀ c ∈ before, isBlank c = true) ∧ (∀ c ∈ after, isBlank c = true) ∧
    s.toList = before ++ core.toList ++ after

theorem padded_self (s : String) : Padded s s := ⟨[], [], by simp, by simp, by simp⟩

theorem flush_of_forall {s : String} (h : ∀ c ∈ s.toList, isBlank c = false) : Flush s :=
  ⟨fun c hc => h c (List.mem_of_mem_head? hc), fun c hc => h c (List.mem_of_getLast? hc)⟩

/-- Trimming takes away what is around a text that cannot be trimmed. -/
theorem trim_of_padded {core s : String} (h : Padded core s) (hcore : Flush core) :
    trim s = core := by
  obtain ⟨before, after, hbefore, hafter, hs⟩ := h
  rw [trim, hs, trimBoth_append hbefore hafter hcore.first hcore.last, String.ofList_toList]

/-- Every text is what is left of it when it is trimmed, and what is not. -/
theorem padded_trim (s : String) : Padded (trim s) s := by
  obtain ⟨after, hafter, hs, -⟩ := exists_trimEnd_append isBlank (s.toList.dropWhile isBlank)
  refine ⟨s.toList.takeWhile isBlank, after, fun c hc => List.mem_takeWhile_imp hc, hafter, ?_⟩
  rw [trim, trimBoth, String.toList_ofList, List.append_assoc, ← hs,
    List.takeWhile_append_dropWhile]

theorem flush_trim (s : String) : Flush (trim s) := by
  obtain ⟨after, -, hs, hlast⟩ := exists_trimEnd_append isBlank (s.toList.dropWhile isBlank)
  constructor
  · intro c hc
    rw [trim, trimBoth, String.toList_ofList] at hc
    -- Trimming at the end does not change where a text begins.
    have hnot := List.head?_dropWhile_not isBlank s.toList
    rw [hs, List.head?_append, Option.mem_def.1 hc] at hnot
    exact hnot
  · rw [trim, trimBoth, String.toList_ofList]
    exact hlast

/-! ## Words -/

/-- Splitting loses nothing but the separators. -/
theorem exists_mem_splitOnP (p : Char → Bool) {cs : List Char} {c : Char} (hc : c ∈ cs)
    (hp : p c = false) : ∃ part ∈ cs.splitOnP p, c ∈ part := by
  induction cs with
  | nil => cases hc
  | cons d cs ih =>
      rw [List.splitOnP_cons_eq_if_modifyHead]
      by_cases hd : p d = true
      · have hne : c ≠ d := by
          rintro rfl
          rw [hp] at hd
          cases hd
        obtain ⟨part, hpart, hmem⟩ := ih ((List.mem_cons.1 hc).resolve_left hne)
        rw [if_pos hd]
        exact ⟨part, List.mem_cons_of_mem _ hpart, hmem⟩
      · obtain ⟨first, rest, hsplit⟩ := List.exists_cons_of_ne_nil (List.splitOnP_ne_nil p cs)
        rw [if_neg hd, hsplit, List.modifyHead_cons]
        rcases List.mem_cons.1 hc with rfl | hcs
        · exact ⟨c :: first, List.mem_cons_self, List.mem_cons_self⟩
        · obtain ⟨part, hpart, hmem⟩ := ih hcs
          rw [hsplit] at hpart
          rcases List.mem_cons.1 hpart with rfl | hrest
          · exact ⟨d :: part, List.mem_cons_self, List.mem_cons_of_mem _ hmem⟩
          · exact ⟨part, List.mem_cons_of_mem _ hrest, hmem⟩

/-- A part has no separator in it, and no character that was not there before. -/
theorem of_mem_splitOnP {p : Char → Bool} {cs part : List Char} (h : part ∈ cs.splitOnP p)
    {c : Char} (hc : c ∈ part) : c ∈ cs ∧ p c = false := by
  induction cs generalizing part with
  | nil =>
      rw [List.splitOnP_nil, List.mem_singleton] at h
      subst h
      cases hc
  | cons d cs ih =>
      rw [List.splitOnP_cons_eq_if_modifyHead] at h
      obtain ⟨first, rest, hsplit⟩ := List.exists_cons_of_ne_nil (List.splitOnP_ne_nil p cs)
      by_cases hd : p d = true
      · rw [if_pos hd, List.mem_cons] at h
        rcases h with rfl | h
        · cases hc
        · exact (ih h hc).imp_left (List.mem_cons_of_mem d)
      · rw [if_neg hd, hsplit, List.modifyHead_cons, List.mem_cons] at h
        rcases h with rfl | h
        · rcases List.mem_cons.1 hc with rfl | hc
          · exact ⟨List.mem_cons_self, by simpa using hd⟩
          · refine (ih ?_ hc).imp_left (List.mem_cons_of_mem d)
            rw [hsplit]
            exact List.mem_cons_self
        · refine (ih ?_ hc).imp_left (List.mem_cons_of_mem d)
          rw [hsplit]
          exact List.mem_cons_of_mem _ h

theorem isBlank_of_mem_wordLists {cs word : List Char} (h : word ∈ wordLists cs) {c : Char}
    (hc : c ∈ word) : isBlank c = false :=
  (of_mem_splitOnP (List.mem_of_mem_filter h) hc).2

/-- A blank character separates words. -/
theorem wordLists_append_cons {c : Char} (hc : isBlank c = true) (cs ds : List Char) :
    wordLists (cs ++ c :: ds) = wordLists cs ++ wordLists ds := by
  rw [wordLists, List.splitOnP_append_cons cs ds hc, List.filter_append]
  rfl

/-- Characters without a blank one among them are one word, or none. -/
theorem wordLists_of_forall {word : List Char} (h : ∀ c ∈ word, isBlank c = false) :
    wordLists word = if word = [] then [] else [word] := by
  rw [wordLists, List.splitOnP_eq_singleton h]
  by_cases hword : word = []
  · simp [hword]
  · simp [hword]

/-- A character that is not blank is in some word. -/
theorem wordLists_ne_nil {cs : List Char} {c : Char} (hc : c ∈ cs) (hkept : isBlank c = false) :
    wordLists cs ≠ [] := by
  obtain ⟨word, hword, hmem⟩ := exists_mem_splitOnP isBlank hc hkept
  have hne : word ≠ [] := List.ne_nil_of_mem hmem
  exact List.ne_nil_of_mem (List.mem_filter.2 ⟨hword, by simpa using hne⟩)

/-- Blank characters are no words. -/
theorem wordLists_of_blank {run : List Char} (h : ∀ c ∈ run, isBlank c = true) :
    wordLists run = [] := by
  induction run with
  | nil => rfl
  | cons c run ih =>
      obtain ⟨hc, hrun⟩ := List.forall_mem_cons.1 h
      rw [← List.nil_append (c :: run), wordLists_append_cons hc, ih hrun]
      rfl

/-- Blank characters around a text do not change its words. -/
theorem wordLists_padded {before after : List Char} (hbefore : ∀ c ∈ before, isBlank c = true)
    (hafter : ∀ c ∈ after, isBlank c = true) (core : List Char) :
    wordLists (before ++ core ++ after) = wordLists core := by
  have hend : wordLists (core ++ after) = wordLists core := by
    cases after with
    | nil => rw [List.append_nil]
    | cons c after =>
        obtain ⟨hc, hrest⟩ := List.forall_mem_cons.1 hafter
        rw [wordLists_append_cons hc, wordLists_of_blank hrest, List.append_nil]
  rw [List.append_assoc, ← hend]
  induction before with
  | nil => rfl
  | cons c before ih =>
      obtain ⟨hc, hrest⟩ := List.forall_mem_cons.1 hbefore
      rw [List.cons_append, ← List.nil_append (c :: _), wordLists_append_cons hc, ih hrest]
      rfl

/-- A text is a word, or a word and what comes after the blank character behind it. -/
@[elab_as_elim]
theorem cutInduction {P : List Char → Prop}
    (word : ∀ word, (∀ c ∈ word, isBlank c = false) → P word)
    (cut : ∀ word c rest, (∀ d ∈ word, isBlank d = false) → isBlank c = true → P rest →
      P (word ++ c :: rest)) (cs : List Char) : P cs := by
  -- The induction is on what is left to read, with the word that has been read before it.
  suffices h : ∀ read : List Char, (∀ c ∈ read, isBlank c = false) → P (read ++ cs) from
    h [] (List.forall_mem_nil _)
  induction cs with
  | nil =>
      intro read hread
      rw [List.append_nil]
      exact word read hread
  | cons c cs ih =>
      intro read hread
      cases hc : isBlank c with
      | true => exact cut read c cs hread hc (ih [] (List.forall_mem_nil _))
      | false =>
          rw [List.append_cons]
          exact ih _ (List.forall_mem_append.2 ⟨hread, by simpa using hc⟩)

/-! ## Runs of blank characters -/

/-- The characters with one space for each run of blank ones.  A run at the front gets none if
`inRun` says that it began before. -/
def collapsed : Bool → List Char → List Char
  | _, [] => []
  | inRun, c :: cs =>
    if isBlank c then if inRun then collapsed true cs else ' ' :: collapsed true cs
    else c :: collapsed false cs

/-- `s` with every run of blank characters replaced by one space. -/
def collapse (s : String) : String := String.ofList (collapsed false s.toList)

section Collapsed

variable {inRun : Bool} {c : Char} {cs ds : List Char}

theorem collapsed_cons_of_kept (hc : isBlank c = false) :
    collapsed inRun (c :: cs) = c :: collapsed false cs := by
  simp [collapsed, hc]

theorem collapsed_true_cons_of_blank (hc : isBlank c = true) :
    collapsed true (c :: cs) = collapsed true cs := by
  simp [collapsed, hc]

theorem collapsed_false_cons_of_blank (hc : isBlank c = true) :
    collapsed false (c :: cs) = ' ' :: collapsed true cs := by
  simp [collapsed, hc]

theorem collapsed_of_forall (h : ∀ c ∈ cs, isBlank c = false) : collapsed inRun cs = cs := by
  induction cs generalizing inRun with
  | nil => rfl
  | cons c cs ih =>
      obtain ⟨hc, hcs⟩ := List.forall_mem_cons.1 h
      rw [collapsed_cons_of_kept hc, ih hcs]

/-- Behind a character that is not blank, a new run begins. -/
theorem collapsed_append_cons_of_kept (hc : isBlank c = false) :
    collapsed inRun (cs ++ c :: ds) = collapsed inRun cs ++ c :: collapsed false ds := by
  induction cs generalizing inRun with
  | nil => exact collapsed_cons_of_kept hc
  | cons d cs ih =>
      simp only [List.cons_append, collapsed, ih]
      split
      · split
        · rfl
        · rfl
      · rfl

/-- What is behind a word is in a run exactly if there is a blank character behind the word. -/
theorem collapsed_append_of_forall {word : List Char} (hword : ∀ c ∈ word, isBlank c = false)
    (hne : word ≠ []) : collapsed inRun (word ++ cs) = word ++ collapsed false cs := by
  induction word generalizing inRun with
  | nil => exact absurd rfl hne
  | cons c word ih =>
      obtain ⟨hc, hrest⟩ := List.forall_mem_cons.1 hword
      rw [List.cons_append, collapsed_cons_of_kept hc]
      by_cases hempty : word = []
      · rw [hempty, List.nil_append]
        rfl
      · rw [ih hrest hempty, List.cons_append]

/-- Collapsing puts nothing but spaces into a text. -/
theorem of_mem_collapsed (h : c ∈ collapsed inRun cs) :
    c ∈ cs ∨ c = ' ' ∧ ∃ d ∈ cs, isBlank d = true := by
  induction cs generalizing inRun with
  | nil => cases h
  | cons d cs ih =>
      have hlater : ∀ {inRun}, c ∈ collapsed inRun cs →
          c ∈ d :: cs ∨ c = ' ' ∧ ∃ e ∈ d :: cs, isBlank e = true := by
        intro inRun hmem
        rcases ih hmem with hcs | ⟨hspace, e, he, hblank⟩
        · exact Or.inl (List.mem_cons_of_mem d hcs)
        · exact Or.inr ⟨hspace, e, List.mem_cons_of_mem d he, hblank⟩
      cases hd : isBlank d with
      | false =>
          rw [collapsed_cons_of_kept hd] at h
          rcases List.mem_cons.1 h with rfl | h
          · exact Or.inl List.mem_cons_self
          · exact hlater h
      | true =>
          cases inRun with
          | true =>
              rw [collapsed_true_cons_of_blank hd] at h
              exact hlater h
          | false =>
              rw [collapsed_false_cons_of_blank hd] at h
              rcases List.mem_cons.1 h with rfl | h
              · exact Or.inr ⟨rfl, d, List.mem_cons_self, hd⟩
              · exact hlater h

/-- A collapsed text has nothing to collapse. -/
theorem collapsed_collapsed : collapsed inRun (collapsed inRun cs) = collapsed inRun cs := by
  induction cs generalizing inRun with
  | nil => rfl
  | cons c cs ih =>
      cases hc : isBlank c with
      | false => rw [collapsed_cons_of_kept hc, collapsed_cons_of_kept hc, ih]
      | true =>
          cases inRun with
          | true => rw [collapsed_true_cons_of_blank hc, ih]
          | false =>
              rw [collapsed_false_cons_of_blank hc, collapsed_false_cons_of_blank (by decide), ih]

/-- A text and its collapsed form end alike. -/
theorem getLast?_collapsed : (collapsed false cs).getLast? =
    cs.getLast?.map fun c => if isBlank c then ' ' else c := by
  -- In a run, what is at the end may be the space that was put for it.
  suffices h : (collapsed false cs).getLast? =
        cs.getLast?.map (fun c => if isBlank c then ' ' else c) ∧
      (collapsed true cs).getLast?.getD ' ' =
        (cs.getLast?.map fun c => if isBlank c then ' ' else c).getD ' ' from h.1
  induction cs with
  | nil => exact ⟨rfl, rfl⟩
  | cons c cs ih =>
      obtain ⟨hfalse, htrue⟩ := ih
      cases hc : isBlank c with
      | false =>
          rw [collapsed_cons_of_kept hc, collapsed_cons_of_kept hc, List.getLast?_cons,
            List.getLast?_cons, hfalse]
          cases cs.getLast? <;> simp [hc]
      | true =>
          rw [collapsed_false_cons_of_blank hc, collapsed_true_cons_of_blank hc,
            List.getLast?_cons, List.getLast?_cons, htrue]
          cases cs.getLast? <;> simp [hc]

end Collapsed

/-! ## Collapsed words -/

/-- A text has the words of its collapsed form. -/
theorem wordLists_collapsed (inRun : Bool) (cs : List Char) :
    wordLists (collapsed inRun cs) = wordLists cs := by
  induction cs using cutInduction generalizing inRun with
  | word word hword => rw [collapsed_of_forall hword]
  | cut word c rest hword hc ih =>
      rw [wordLists_append_cons hc]
      by_cases hempty : word = []
      · subst hempty
        cases inRun with
        | true =>
            rw [List.nil_append, collapsed_true_cons_of_blank hc, ih]
            rfl
        | false =>
            rw [List.nil_append, collapsed_false_cons_of_blank hc,
              ← List.nil_append (' ' :: _), wordLists_append_cons (by decide), ih]
      · rw [collapsed_append_of_forall hword hempty, collapsed_false_cons_of_blank hc,
          wordLists_append_cons (by decide), ih]

/-- Words with one space between neighbours are what they are taken from, collapsed. -/
theorem intercalate_wordLists {cs : List Char} (h : ∀ c ∈ cs.getLast?, isBlank c = false) :
    [' '].intercalate (wordLists cs) = collapsed true cs := by
  induction cs using cutInduction with
  | word word hword =>
      rw [collapsed_of_forall hword, wordLists_of_forall hword]
      split
      · next hempty => rw [hempty, List.intercalate_nil]
      · exact List.intercalate_singleton
  | cut word c rest hword hc ih =>
      have hrest : rest ≠ [] := by
        rintro rfl
        have hkept := h c (by simp)
        rw [hc] at hkept
        cases hkept
      have hlast : ∀ d ∈ rest.getLast?, isBlank d = false := by
        intro d hd
        refine h d ?_
        rw [Option.mem_def, List.getLast?_append, List.getLast?_cons, Option.mem_def.1 hd]
        rfl
      rw [wordLists_append_cons hc, wordLists_of_forall hword]
      by_cases hempty : word = []
      · subst hempty
        rw [if_pos rfl, List.nil_append, List.nil_append, collapsed_true_cons_of_blank hc, ih hlast]
      · have hwords : wordLists rest ≠ [] :=
          wordLists_ne_nil (List.getLast_mem hrest)
            (hlast _ (List.getLast?_eq_some_getLast hrest))
        obtain ⟨next, words, hcons⟩ := List.exists_cons_of_ne_nil hwords
        rw [if_neg hempty, collapsed_append_of_forall hword hempty,
          collapsed_false_cons_of_blank hc, ← ih hlast, hcons, List.singleton_append,
          List.intercalate_cons_cons, List.append_assoc]
        rfl

/-! ## Collapsed ends -/

section Ends

variable {q : Char → Bool}

/-- Blank characters that are dropped at the front are dropped in the collapsed form. -/
theorem dropWhile_collapsed (hq : ∀ c, isBlank c = true → q c = true) (inRun : Bool)
    (cs : List Char) : (collapsed inRun cs).dropWhile q = collapsed false (cs.dropWhile q) := by
  induction cs generalizing inRun with
  | nil => rfl
  | cons c cs ih =>
      cases hc : isBlank c with
      | true =>
          rw [List.dropWhile_cons_of_pos (hq c hc)]
          cases inRun with
          | true => rw [collapsed_true_cons_of_blank hc, ih]
          | false =>
              rw [collapsed_false_cons_of_blank hc,
                List.dropWhile_cons_of_pos (hq ' ' (by decide)), ih]
      | false =>
          rw [collapsed_cons_of_kept hc]
          cases hqc : q c with
          | true => rw [List.dropWhile_cons_of_pos hqc, List.dropWhile_cons_of_pos hqc, ih]
          | false =>
              have hstop : ¬ q c = true := by simp [hqc]
              rw [List.dropWhile_cons_of_neg hstop, List.dropWhile_cons_of_neg hstop,
                collapsed_cons_of_kept hc]

/-- Behind a text, only characters that are trimmed are left in the collapsed form, too. -/
theorem exists_collapsed_append (hq : ∀ c, isBlank c = true → q c = q ' ') (inRun : Bool)
    (cs : List Char) {run : List Char} (hrun : ∀ c ∈ run, q c = true) :
    ∃ rest, collapsed inRun (cs ++ run) = collapsed inRun cs ++ rest ∧ ∀ c ∈ rest, q c = true := by
  induction cs generalizing inRun with
  | nil =>
      refine ⟨collapsed inRun run, rfl, fun c hc => ?_⟩
      rcases of_mem_collapsed hc with hmem | ⟨rfl, d, hd, hblank⟩
      · exact hrun c hmem
      · rw [← hq d hblank]
        exact hrun d hd
  | cons c cs ih =>
      cases hc : isBlank c with
      | false =>
          obtain ⟨rest, heq, hrest⟩ := ih false
          refine ⟨rest, ?_, hrest⟩
          rw [List.cons_append, collapsed_cons_of_kept hc, collapsed_cons_of_kept hc, heq,
            List.cons_append]
      | true =>
          obtain ⟨rest, heq, hrest⟩ := ih true
          refine ⟨rest, ?_, hrest⟩
          cases inRun with
          | true =>
              rw [List.cons_append, collapsed_true_cons_of_blank hc,
                collapsed_true_cons_of_blank hc, heq]
          | false =>
              rw [List.cons_append, collapsed_false_cons_of_blank hc,
                collapsed_false_cons_of_blank hc, heq, List.cons_append]

/-- Trimming at the end takes away the same of a text and of its collapsed form, if it takes away
all blank characters or none. -/
theorem trimEnd_collapsed (hq : ∀ c, isBlank c = true → q c = q ' ') (cs : List Char) :
    trimEnd q (collapsed false cs) = collapsed false (trimEnd q cs) := by
  obtain ⟨run, hrun, hcs, hlast⟩ := exists_trimEnd_append q cs
  generalize trimEnd q cs = core at hcs hlast
  obtain ⟨rest, heq, hrest⟩ := exists_collapsed_append hq false core hrun
  rw [hcs, heq]
  refine trimEnd_append_of_getLast? (fun c hc => ?_) hrest
  rw [getLast?_collapsed, Option.mem_def, Option.map_eq_some_iff] at hc
  obtain ⟨d, hd, rfl⟩ := hc
  split
  · next hblank =>
      rw [← hq d hblank]
      exact hlast d hd
  · exact hlast d hd

theorem trimBoth_collapsed (inRun : Bool) (cs : List Char) :
    trimBoth isBlank (collapsed inRun cs) = collapsed false (trimBoth isBlank cs) := by
  have hblank : ∀ c, isBlank c = true → isBlank c = isBlank ' ' := by
    intro c hc
    rw [hc]
    rfl
  rw [trimBoth, dropWhile_collapsed (fun _ hc => hc), trimEnd_collapsed hblank, trimBoth]

end Ends

/-! ## Collapsed texts -/

theorem collapse_of_forall {s : String} (h : ∀ c ∈ s.toList, isBlank c = false) :
    collapse s = s := by
  rw [collapse, collapsed_of_forall h, String.ofList_toList]

theorem collapse_collapse (s : String) : collapse (collapse s) = collapse s := by
  rw [collapse, collapse, String.toList_ofList, collapsed_collapsed]

/-- Collapsing leaves something of every text. -/
theorem collapse_eq_empty_iff {s : String} : collapse s = "" ↔ s = "" := by
  have hlast : (collapsed false s.toList).getLast? = none ↔ s.toList.getLast? = none := by
    rw [getLast?_collapsed, Option.map_eq_none_iff]
  rw [List.getLast?_eq_none_iff, List.getLast?_eq_none_iff] at hlast
  rw [← String.toList_inj, ← String.toList_inj, collapse, String.toList_ofList]
  exact hlast

theorem trim_trim (s : String) : trim (trim s) = trim s :=
  trim_of_padded (padded_self _) (flush_trim s)

theorem trim_collapse (s : String) : trim (collapse s) = collapse (trim s) := by
  rw [trim, trim, collapse, collapse, String.toList_ofList, String.toList_ofList,
    trimBoth_collapsed]

/-- Words with one space between neighbours are the text, trimmed and collapsed. -/
theorem squeeze_eq_collapse (s : String) : squeeze s = collapse (trim s) := by
  obtain ⟨before, after, hbefore, hafter, hs⟩ := padded_trim s
  have hflush := flush_trim s
  have hwords : wordLists s.toList = wordLists (trim s).toList := by
    rw [hs]
    exact wordLists_padded hbefore hafter _
  -- A run at the front would matter, but there is none.
  have hfirst : collapsed true (trim s).toList = collapsed false (trim s).toList := by
    have hhead := hflush.first
    cases hcs : (trim s).toList with
    | nil => rfl
    | cons c cs =>
        rw [hcs] at hhead
        have hc : isBlank c = false := hhead c rfl
        rw [collapsed_cons_of_kept hc, collapsed_cons_of_kept hc]
  have hsqueeze : (squeeze s).toList = [' '].intercalate (wordLists s.toList) := by
    have hmap : (wordLists s.toList).map (String.toList ∘ String.ofList) = wordLists s.toList := by
      simp [Function.comp_def]
    rw [squeeze, words, String.toList_intercalate, List.map_map, hmap]
    rfl
  rw [← String.toList_inj, hsqueeze, hwords, intercalate_wordLists hflush.last, hfirst, collapse,
    String.toList_ofList]

end PropertyWeaver.Text
