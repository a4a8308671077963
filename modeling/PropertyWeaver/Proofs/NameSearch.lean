import PropertyWeaver.Proofs.Undisturbed

/-!
# Searches among names

A reference could mean several names, and they are looked up one after the other until one of them
turns out to be an interface's.  `FirstInterface` says where that happens.  It is stated for any
relation between names and the symbols that they belong to, because there are two of interest.  What
a host answers is the one that a run follows; the other is what a list of symbols has to say, where
a name belongs to the one symbol that has it, and to none if several places of the list have it.
`lookup_eq_some_iff_onlyOfName` shows that the second is the first for a host that answers from a
list.

Nothing but an interface ends a search.  The symbol of another kind and the name that is declared
twice are passed over, and the name after them is looked up.

## Main results

* `run_resolve` — what a resolution comes to, and what is looked up for it.
* `tried_of_firstInterface`, `tried_of_findSome?_eq_none` — how far a search goes.
* `resolve_in_compilation` — which symbol of a list a reference means.
-/

namespace PropertyWeaver

open Script

/-! ## The first interface -/

/-- A search through the names ends at place `i`, with the symbol: the name at that place belongs to
the symbol, the symbol is an interface, and no name before belongs to an interface. -/
structure FirstInterface (belongs : String → Symbol → Prop) (names : List String) (i : Nat)
    (s : Symbol) : Prop where
  belongs_name : ∃ name, names[i]? = some name ∧ belongs name s
  isInterface : s.isInterface = true
  passed : ∀ j < i, ∀ name, names[j]? = some name → ∀ t, belongs name t → t.isInterface = false

section FirstInterface

variable {belongs : String → Symbol → Prop} {name : String} {names : List String} {i : Nat}
  {s : Symbol}

theorem firstInterface_zero_iff :
    FirstInterface belongs (name :: names) 0 s ↔ belongs name s ∧ s.isInterface = true := by
  constructor
  · intro h
    obtain ⟨first, hfirst, hbelongs⟩ := h.belongs_name
    cases hfirst
    exact ⟨hbelongs, h.isInterface⟩
  · intro ⟨hbelongs, hinterface⟩
    exact ⟨⟨name, rfl, hbelongs⟩, hinterface, fun j hj => absurd hj (Nat.not_lt_zero j)⟩

theorem firstInterface_succ_iff :
    FirstInterface belongs (name :: names) (i + 1) s ↔
      (∀ t, belongs name t → t.isInterface = false) ∧ FirstInterface belongs names i s := by
  constructor
  · intro h
    refine ⟨h.passed 0 (Nat.succ_pos i) name rfl, h.belongs_name, h.isInterface, ?_⟩
    intro j hj other hother
    exact h.passed (j + 1) (by omega) other hother
  · intro ⟨hname, h⟩
    refine ⟨h.belongs_name, h.isInterface, ?_⟩
    intro j hj other hother
    cases j with
    | zero =>
        cases hother
        exact hname
    | succ j => exact h.passed j (by omega) other hother

/-- A search ends somewhere if a name belongs to an interface, and only then. -/
theorem exists_firstInterface_cons_iff :
    (∃ i, FirstInterface belongs (name :: names) i s) ↔
      belongs name s ∧ s.isInterface = true ∨
        (∀ t, belongs name t → t.isInterface = false) ∧
          ∃ i, FirstInterface belongs names i s := by
  constructor
  · intro ⟨i, h⟩
    cases i with
    | zero => exact Or.inl (firstInterface_zero_iff.1 h)
    | succ i =>
        obtain ⟨hname, hrest⟩ := firstInterface_succ_iff.1 h
        exact Or.inr ⟨hname, i, hrest⟩
  · intro h
    cases h with
    | inl hhere => exact ⟨0, firstInterface_zero_iff.2 hhere⟩
    | inr hlater =>
        obtain ⟨hname, i, hrest⟩ := hlater
        exact ⟨i + 1, firstInterface_succ_iff.2 ⟨hname, hrest⟩⟩

end FirstInterface

/-! ## Searches among answers -/

section Answers

variable {find : String → Option Symbol}

/-- A name belongs to the symbol that is the answer to it. -/
def Answers (find : String → Option Symbol) (name : String) (s : Symbol) : Prop :=
  find name = some s

theorem interfaceNamed_eq_none_iff {name : String} :
    interfaceNamed find name = none ↔ ∀ s, Answers find name s → s.isInterface = false := by
  simp [interfaceNamed, Answers, Option.filter_eq_none_iff]

/-- A search comes to the symbol that it ends with. -/
theorem findSome?_interfaceNamed_eq_some_iff {names : List String} {s : Symbol} :
    names.findSome? (interfaceNamed find) = some s ↔
      ∃ i, FirstInterface (Answers find) names i s := by
  induction names with
  | nil =>
      constructor
      · intro h
        cases h
      · intro ⟨i, h⟩
        obtain ⟨name, hname, -⟩ := h.belongs_name
        cases hname
  | cons name names ih =>
      rw [List.findSome?_cons, exists_firstInterface_cons_iff, ← ih]
      cases hfound : interfaceNamed find name with
      | none =>
          have hpassed := interfaceNamed_eq_none_iff.1 hfound
          have hmiss : ¬ (Answers find name s ∧ s.isInterface = true) := by
            intro ⟨hanswer, hinterface⟩
            rw [hpassed s hanswer] at hinterface
            cases hinterface
          exact ((or_iff_right hmiss).trans (and_iff_right hpassed)).symm
      | some t =>
          obtain ⟨hanswer, hinterface⟩ := interfaceNamed_eq_some_iff.1 hfound
          have hstop : ¬ ∀ t, Answers find name t → t.isInterface = false := by
            intro hpassed
            rw [hpassed t hanswer] at hinterface
            cases hinterface
          constructor
          · intro heq
            cases heq
            exact Or.inl ⟨hanswer, hinterface⟩
          · intro h
            cases h with
            | inl hhere => exact hanswer.symm.trans hhere.1
            | inr hlater => exact absurd hlater.1 hstop

/-- A search comes to nothing exactly if no name belongs to an interface. -/
theorem findSome?_interfaceNamed_eq_none_iff {names : List String} :
    names.findSome? (interfaceNamed find) = none ↔
      ∀ name ∈ names, ∀ s, Answers find name s → s.isInterface = false := by
  rw [List.findSome?_eq_none_iff]
  exact forall₂_congr fun _ _ => interfaceNamed_eq_none_iff

/-- A search that ends nowhere comes to nothing. -/
theorem findSome?_eq_none_of_not_exists {names : List String}
    (h : ¬ ∃ i s, FirstInterface (Answers find) names i s) :
    names.findSome? (interfaceNamed find) = none := by
  rw [Option.eq_none_iff_forall_ne_some]
  intro s hs
  obtain ⟨i, hends⟩ := findSome?_interfaceNamed_eq_some_iff.1 hs
  exact h ⟨i, s, hends⟩

/-- A search that ends looks up the names up to the one where it ends. -/
theorem tried_of_firstInterface {names : List String} {i : Nat} {s : Symbol}
    (h : FirstInterface (Answers find) names i s) : tried find names = names.take (i + 1) := by
  induction names generalizing i with
  | nil =>
      obtain ⟨name, hname, -⟩ := h.belongs_name
      cases hname
  | cons name names ih =>
      cases i with
      | zero =>
          have hfound : interfaceNamed find name = some s :=
            interfaceNamed_eq_some_iff.2 (firstInterface_zero_iff.1 h)
          rw [tried, hfound]
          rfl
      | succ i =>
          obtain ⟨hname, hrest⟩ := firstInterface_succ_iff.1 h
          have hpassed : interfaceNamed find name = none := interfaceNamed_eq_none_iff.2 hname
          rw [tried, hpassed, ih hrest]
          rfl

/-- A search that comes to nothing looks up all names. -/
theorem tried_of_findSome?_eq_none {names : List String}
    (h : names.findSome? (interfaceNamed find) = none) : tried find names = names := by
  induction names with
  | nil => rfl
  | cons name names ih =>
      rw [List.findSome?_eq_none_iff, List.forall_mem_cons] at h
      rw [tried, h.1, ih (List.findSome?_eq_none_iff.2 h.2)]
      rfl

/-- A name that is looked up and belongs to no interface does not end the search. -/
theorem lt_length_tried {names : List String} {i : Nat} {name : String}
    (hname : names[i]? = some name) (hpassed : ∀ s, Answers find name s → s.isInterface = false)
    (hlooked : i < (tried find names).length) (hmore : i + 1 < names.length) :
    i + 1 < (tried find names).length := by
  cases hfound : names.findSome? (interfaceNamed find) with
  | none =>
      rw [tried_of_findSome?_eq_none hfound]
      exact hmore
  | some s =>
      obtain ⟨k, h⟩ := findSome?_interfaceNamed_eq_some_iff.1 hfound
      rw [tried_of_firstInterface h, List.length_take] at hlooked ⊢
      have hne : i ≠ k := by
        intro heq
        obtain ⟨other, hother, hanswer⟩ := h.belongs_name
        rw [← heq, hname] at hother
        cases hother
        have hinterface := h.isInterface
        rw [hpassed s hanswer] at hinterface
        cases hinterface
      omega

/-! ### What a reference means -/

/-- Under these imports, the reference means the symbol: it is not blank, and the search through the
names that it could mean ends with the symbol. -/
def Means (find : String → Option Symbol) (imports : List String) (reference : String)
    (s : Symbol) : Prop :=
  Text.isBlankText reference = false ∧
    ∃ i, FirstInterface (Answers find) (candidateNames reference imports) i s

theorem meaning_of_not_blank {reference : String} (imports : List String)
    (h : Text.isBlankText reference = false) :
    meaning find reference imports =
      match (candidateNames reference imports).findSome? (interfaceNamed find) with
      | some s => .ok s
      | none => .error .unresolved := by
  unfold meaning
  rw [h]
  rfl

theorem meaning_eq_empty_iff {reference : String} {imports : List String} :
    meaning find reference imports = .error .empty ↔ Text.isBlankText reference = true := by
  cases hblank : Text.isBlankText reference with
  | true => simp [meaning, hblank]
  | false =>
      rw [meaning_of_not_blank imports hblank]
      cases (candidateNames reference imports).findSome? (interfaceNamed find) <;> simp

theorem meaning_eq_ok_iff {reference : String} {imports : List String} {s : Symbol} :
    meaning find reference imports = .ok s ↔ Means find imports reference s := by
  unfold Means
  cases hblank : Text.isBlankText reference with
  | true => simp [meaning, hblank]
  | false =>
      rw [meaning_of_not_blank imports hblank, ← findSome?_interfaceNamed_eq_some_iff]
      cases (candidateNames reference imports).findSome? (interfaceNamed find) <;> simp

theorem meaning_eq_unresolved_iff {reference : String} {imports : List String} :
    meaning find reference imports = .error .unresolved ↔
      Text.isBlankText reference = false ∧
        ∀ name ∈ candidateNames reference imports, ∀ s, Answers find name s →
          s.isInterface = false := by
  cases hblank : Text.isBlankText reference with
  | true => simp [meaning, hblank]
  | false =>
      rw [meaning_of_not_blank imports hblank, ← findSome?_interfaceNamed_eq_none_iff]
      cases (candidateNames reference imports).findSome? (interfaceNamed find) <;> simp

/-- There is no other reason for which a reference means nothing. -/
theorem empty_or_unresolved_of_meaning {reference : String} {imports : List String}
    {reason : SkipReason} (h : meaning find reference imports = .error reason) :
    reason = .empty ∨ reason = .unresolved := by
  unfold meaning at h
  split at h
  · cases h
    exact Or.inl rfl
  · split at h
    · cases h
    · cases h
      exact Or.inr rfl

/-- A reference is looked up under its names unless it is blank. -/
theorem run_resolve (find : String → Option Symbol) (reference : String)
    (imports : List String) :
    (resolve reference imports).run find .idle =
      ⟨.ok (meaning find reference imports), [],
        if Text.isBlankText reference then [] else tried find (candidateNames reference imports),
        .idle⟩ := by
  unfold resolve meaning
  by_cases hblank : Text.isBlankText reference = true
  · rw [if_pos hblank, if_pos hblank, if_pos hblank]
    rfl
  · rw [if_neg hblank, if_neg hblank, if_neg hblank, bind_eq, run_bind, run_probe,
      Outcome.andThen]
    cases (candidateNames reference imports).findSome? (interfaceNamed find) with
    | none => simp [Script.run]
    | some s => simp [Script.run]

end Answers

/-! ## Lists of symbols -/

/-- The symbol is the only one of the list that has the name.  Places count, not symbols: one that
is listed twice is not the only one. -/
def OnlyOfName (symbols : List Symbol) (name : String) (s : Symbol) : Prop :=
  ∃ before after, symbols = before ++ s :: after ∧ s.metadataName = name ∧
    ∀ t ∈ before ++ after, t.metadataName ≠ name

/-- A list of symbols answers with the only one of the name. -/
theorem Compilation.lookup_eq_some_iff_onlyOfName {c : Compilation} {name : String}
    {s : Symbol} : c.lookup name = some s ↔ OnlyOfName c.symbols name s := by
  have hothers : ∀ l : List Symbol, (l.filter fun t => t.metadataName == name) = [] ↔
      ∀ t ∈ l, t.metadataName ≠ name := by
    intro l
    simp only [List.filter_eq_nil_iff, beq_iff_eq, ne_eq]
  rw [lookup_eq_some_iff, List.filter_eq_cons_iff]
  constructor
  · intro ⟨before, after, hsymbols, hbefore, hname, hafter⟩
    refine ⟨before, after, hsymbols, by simpa using hname, ?_⟩
    rw [List.forall_mem_append]
    exact ⟨fun t ht => by simpa using hbefore t ht, (hothers after).1 hafter⟩
  · intro ⟨before, after, hsymbols, hname, hrest⟩
    rw [List.forall_mem_append] at hrest
    refine ⟨before, after, hsymbols, ?_, by simpa using hname, (hothers after).2 hrest.2⟩
    intro t ht
    simpa using hrest.1 t ht

/--
Over a list of symbols, a blank reference means nothing, and nothing is looked up for it.  Any other
means an interface exactly if a name that it could mean is that of the interface and of no other
symbol in the list, and no name before is the only name of an interface; the names looked up are
those up to there.  If there is none, all names are looked up.  A name that belongs to several
symbols or to one of another kind is never the last to be looked up, as long as there is another.
-/
theorem resolve_in_compilation (c : Compilation) (reference : String) (imports : List String) :
    let outcome := (resolve reference imports).run c.lookup .idle
    let names := candidateNames reference imports
    let EndsAt := FirstInterface (OnlyOfName c.symbols) names
    (Text.isBlankText reference = true →
      outcome.result = .ok (.error .empty) ∧ outcome.probes = []) ∧
    (Text.isBlankText reference = false →
      (∀ s, outcome.result = .ok (.ok s) ↔ ∃ i, EndsAt i s) ∧
      (∀ i s, EndsAt i s → outcome.probes = names.take (i + 1)) ∧
      ((¬ ∃ i s, EndsAt i s) →
        outcome.result = .ok (.error .unresolved) ∧ outcome.probes = names) ∧
      ∀ i name, names[i]? = some name → (∀ s, OnlyOfName c.symbols name s → s.isInterface = false) →
        i < outcome.probes.length → i + 1 < names.length → i + 1 < outcome.probes.length) := by
  intro outcome names EndsAt
  have houtcome : outcome = _ := run_resolve c.lookup reference imports
  have hbelongs : OnlyOfName c.symbols = Answers c.lookup := by
    funext name s
    exact propext Compilation.lookup_eq_some_iff_onlyOfName.symm
  have hends : EndsAt = FirstInterface (Answers c.lookup) names := by
    show FirstInterface (OnlyOfName c.symbols) names = _
    rw [hbelongs]
  rw [houtcome]
  constructor
  · intro hblank
    exact ⟨congrArg Except.ok (meaning_eq_empty_iff.2 hblank), if_pos hblank⟩
  · intro hblank
    have hprobes : (if Text.isBlankText reference then [] else tried c.lookup names) =
        tried c.lookup names := by simp [hblank]
    rw [hends]
    refine ⟨?_, ?_, ?_, ?_⟩
    · intro s
      show (Except.ok (meaning c.lookup reference imports) : Except Fault _) = .ok (.ok s) ↔ _
      rw [Except.ok.injEq, meaning_eq_ok_iff, Means]
      exact and_iff_right hblank
    · intro i s h
      exact hprobes.trans (tried_of_firstInterface h)
    · intro hnone
      have hfound := findSome?_eq_none_of_not_exists hnone
      have hunresolved : meaning c.lookup reference imports = .error .unresolved :=
        meaning_eq_unresolved_iff.2 ⟨hblank, findSome?_interfaceNamed_eq_none_iff.1 hfound⟩
      exact ⟨congrArg Except.ok hunresolved,
        hprobes.trans (tried_of_findSome?_eq_none hfound)⟩
    · intro i name hname hpassed hlooked hmore
      dsimp only at hlooked ⊢
      rw [hprobes] at hlooked ⊢
      rw [hbelongs] at hpassed
      exact lt_length_tried hname hpassed hlooked hmore

/-! ## Ambiguous names

A class has the bare name, and two interfaces have one metadata name: where a namespace ends and a
name begins cannot be seen in it.
-/

def Symbol.onlyBar : Symbol := ⟨"IBar", "N", "interface", [], [], []⟩

def Compilation.ambiguous : Compilation where
  files := []
  symbols := [
    ⟨"IBar", "A.B", "interface", [], [], []⟩,
    ⟨"IBar", "", "class", [], [], []⟩,
    .onlyBar,
    ⟨"B.IBar", "A", "interface", [], [], []⟩]

/-- The class and the two interfaces are passed over; the last import is not tried any more. -/
theorem resolve_in_ambiguous :
    FirstInterface (OnlyOfName Compilation.ambiguous.symbols)
      (candidateNames "IBar" ["A.B", "N", "M"]) 2 .onlyBar ∧
    ((resolve "IBar" ["A.B", "N", "M"]).run Compilation.ambiguous.lookup .idle).result =
      .ok (.ok .onlyBar) ∧
    ((resolve "IBar" ["A.B", "N", "M"]).run Compilation.ambiguous.lookup .idle).probes =
      ["IBar", "A.B.IBar", "N.IBar"] := by
  have hends : FirstInterface (OnlyOfName Compilation.ambiguous.symbols)
      (candidateNames "IBar" ["A.B", "N", "M"]) 2 .onlyBar := by
    refine ⟨⟨"N.IBar", by decide, ?_⟩, rfl, ?_⟩
    · exact Compilation.lookup_eq_some_iff_onlyOfName.1 (by decide +kernel)
    · have hbare : interfaceNamed Compilation.ambiguous.lookup "IBar" = none := by decide +kernel
      have hdotted : interfaceNamed Compilation.ambiguous.lookup "A.B.IBar" = none := by
        decide +kernel
      intro j hj name hname t ht
      have hanswer := Compilation.lookup_eq_some_iff_onlyOfName.2 ht
      match j, hj with
      | 0, _ =>
          cases hname
          exact interfaceNamed_eq_none_iff.1 hbare t hanswer
      | 1, _ =>
          cases hname
          exact interfaceNamed_eq_none_iff.1 hdotted t hanswer
  obtain ⟨-, hresolve⟩ := resolve_in_compilation .ambiguous "IBar" ["A.B", "N", "M"]
  obtain ⟨hresult, hprobes, -, -⟩ := hresolve (by decide)
  exact ⟨hends, (hresult _).2 ⟨2, hends⟩, hprobes 2 _ hends⟩

end PropertyWeaver
