/-!
# First occurrences

A pass generates one file for everything that asks for the same thing, and the first that asks
decides.  `firstsBy key seen as` is the list of those elements of `as` whose key is neither in
`seen` nor that of an earlier element.

## Main results

* `nodup_map_firstsBy`, `mem_map_firstsBy` — no key occurs twice, and none is lost.
* `find?_of_mem_firstsBy` — what is kept is the first of its key.
* `perm_map_firstsBy` — which keys are kept does not depend on the order.
* `firstsBy_firstsBy_append` — duplicates may be removed early, from a part and by a finer key.
* `map_firstsBy_nil` — the keys that are kept are all keys without duplicates.
* `nodup_eraseDups`, `eraseDups_map_eraseDups` — removing duplicates, and removing them early.
* `exists_isFirst`, `exists_isLast` — where anything has a property, something is the first that
  has it, and something is the last.
-/

namespace PropertyWeaver

variable {α β κ ν : Type} [DecidableEq κ] [DecidableEq ν]

/-- The elements whose key is neither in `seen` nor the key of an earlier element. -/
def firstsBy (key : α → κ) : List κ → List α → List α
  | _, [] => []
  | seen, a :: as =>
      if key a ∈ seen then firstsBy key seen as else a :: firstsBy key (key a :: seen) as

theorem firstsBy_of_mem {key : α → κ} {seen : List κ} {a : α} (h : key a ∈ seen)
    (as : List α) : firstsBy key seen (a :: as) = firstsBy key seen as := by
  rw [firstsBy, if_pos h]

theorem firstsBy_of_not_mem {key : α → κ} {seen : List κ} {a : α} (h : key a ∉ seen)
    (as : List α) :
    firstsBy key seen (a :: as) = a :: firstsBy key (key a :: seen) as := by
  rw [firstsBy, if_neg h]

/-- Only which keys have been seen matters, not how often or in which order. -/
theorem firstsBy_congr {key : α → κ} {seen seen' : List κ} (h : ∀ k, k ∈ seen ↔ k ∈ seen')
    (as : List α) : firstsBy key seen as = firstsBy key seen' as := by
  induction as generalizing seen seen' with
  | nil => rfl
  | cons a as ih =>
      by_cases ha : key a ∈ seen
      · rw [firstsBy_of_mem ha, firstsBy_of_mem ((h _).1 ha), ih h]
      · have ha' : key a ∉ seen' := fun hs => ha ((h _).2 hs)
        rw [firstsBy_of_not_mem ha, firstsBy_of_not_mem ha']
        refine congrArg (a :: ·) (ih ?_)
        intro k
        rw [List.mem_cons, List.mem_cons, h k]

/-- What is kept of a later part depends only on the keys of the earlier part. -/
theorem firstsBy_append (key : α → κ) (seen : List κ) (as bs : List α) :
    firstsBy key seen (as ++ bs) =
      firstsBy key seen as ++ firstsBy key (as.map key ++ seen) bs := by
  induction as generalizing seen with
  | nil => rfl
  | cons a as ih =>
      by_cases h : key a ∈ seen
      · have hseen : ∀ k, k ∈ as.map key ++ seen ↔ k ∈ (a :: as).map key ++ seen := by
          intro k
          simp only [List.map_cons, List.cons_append, List.mem_cons, List.mem_append]
          constructor
          · exact Or.inr
          · rintro (rfl | hk)
            · exact Or.inr h
            · exact hk
        rw [List.cons_append, firstsBy_of_mem h, firstsBy_of_mem h, ih,
          firstsBy_congr hseen bs]
      · have hseen : ∀ k, k ∈ as.map key ++ key a :: seen ↔ k ∈ (a :: as).map key ++ seen := by
          intro k
          simp only [List.map_cons, List.cons_append, List.mem_cons, List.mem_append]
          exact or_left_comm
        rw [List.cons_append, firstsBy_of_not_mem h, firstsBy_of_not_mem h, ih,
          firstsBy_congr hseen bs]
        rfl

/-- A key is found among the elements that are kept exactly when it is new. -/
theorem mem_map_firstsBy {key : α → κ} {seen : List κ} {as : List α} {k : κ} :
    k ∈ (firstsBy key seen as).map key ↔ k ∈ as.map key ∧ k ∉ seen := by
  induction as generalizing seen with
  | nil => simp [firstsBy]
  | cons a as ih =>
      by_cases h : key a ∈ seen
      · rw [firstsBy_of_mem h, ih, List.map_cons, List.mem_cons]
        constructor
        · rintro ⟨hmem, hnew⟩
          exact ⟨Or.inr hmem, hnew⟩
        · rintro ⟨rfl | hmem, hnew⟩
          · exact absurd h hnew
          · exact ⟨hmem, hnew⟩
      · rw [firstsBy_of_not_mem h, List.map_cons, List.mem_cons, ih, List.map_cons,
          List.mem_cons, List.mem_cons]
        constructor
        · rintro (rfl | ⟨hmem, hnew⟩)
          · exact ⟨Or.inl rfl, h⟩
          · exact ⟨Or.inr hmem, fun hs => hnew (Or.inr hs)⟩
        · rintro ⟨hk, hnew⟩
          by_cases he : k = key a
          · exact Or.inl he
          · exact Or.inr ⟨hk.resolve_left he, fun hs => hs.elim he hnew⟩

/-- No key is kept twice. -/
theorem nodup_map_firstsBy (key : α → κ) (seen : List κ) (as : List α) :
    ((firstsBy key seen as).map key).Nodup := by
  induction as generalizing seen with
  | nil => exact List.nodup_nil
  | cons a as ih =>
      by_cases h : key a ∈ seen
      · rw [firstsBy_of_mem h]
        exact ih seen
      · rw [firstsBy_of_not_mem h, List.map_cons, List.nodup_cons]
        refine ⟨?_, ih _⟩
        intro hmem
        exact (mem_map_firstsBy.1 hmem).2 List.mem_cons_self

/-- What is kept is the first element of its key. -/
theorem find?_of_mem_firstsBy {key : α → κ} {seen : List κ} {as : List α} {a : α}
    (h : a ∈ firstsBy key seen as) : as.find? (fun b => key b = key a) = some a := by
  have hnew : key a ∉ seen := (mem_map_firstsBy.1 (List.mem_map_of_mem h)).2
  induction as generalizing seen with
  | nil => cases h
  | cons b as ih =>
      by_cases hs : key b ∈ seen
      · rw [firstsBy_of_mem hs] at h
        have hne : key b ≠ key a := fun e => hnew (e ▸ hs)
        rw [List.find?_cons_of_neg (by simpa using hne)]
        exact ih h hnew
      · rw [firstsBy_of_not_mem hs] at h
        rcases List.mem_cons.1 h with rfl | h
        · exact List.find?_cons_of_pos (by simp)
        · have hnew' : key a ∉ key b :: seen :=
            (mem_map_firstsBy.1 (List.mem_map_of_mem h)).2
          have hne : key b ≠ key a := fun e => hnew' (e ▸ List.mem_cons_self)
          rw [List.find?_cons_of_neg (by simpa using hne)]
          exact ih h hnew'

/-- Which keys are kept does not depend on the order of the elements. -/
theorem perm_map_firstsBy {as bs : List α} (h : as.Perm bs) (key : α → κ) (seen : List κ) :
    ((firstsBy key seen as).map key).Perm ((firstsBy key seen bs).map key) := by
  rw [List.perm_ext_iff_of_nodup (nodup_map_firstsBy key seen as) (nodup_map_firstsBy key seen bs)]
  intro k
  rw [mem_map_firstsBy, mem_map_firstsBy, (h.map key).mem_iff]

/-- Elements with keys that are new and distinct are all kept. -/
theorem firstsBy_eq_self {key : α → κ} {seen : List κ} {as : List α}
    (hnodup : (as.map key).Nodup) (hnew : ∀ a ∈ as, key a ∉ seen) :
    firstsBy key seen as = as := by
  induction as generalizing seen with
  | nil => rfl
  | cons a as ih =>
      obtain ⟨ha, hrest⟩ := List.nodup_cons.1 hnodup
      rw [firstsBy_of_not_mem (hnew a List.mem_cons_self)]
      refine congrArg (a :: ·) (ih hrest ?_)
      intro b hb hs
      cases List.mem_cons.1 hs with
      | inl heq => exact ha (heq ▸ List.mem_map_of_mem hb)
      | inr hs => exact hnew b (List.mem_cons_of_mem a hb) hs

/-- Renaming the elements does not change which of them are kept. -/
theorem firstsBy_map (key : β → κ) (f : α → β) (seen : List κ) (as : List α) :
    firstsBy key seen (as.map f) = (firstsBy (fun a => key (f a)) seen as).map f := by
  induction as generalizing seen with
  | nil => rfl
  | cons a as ih =>
      simp only [List.map_cons, firstsBy, ih]
      split
      · rfl
      · rfl

/--
Duplicates may be removed early from a part of the list.

The part may even be thinned by a key of its own, as long as there the final key is a function of
it: an element that is removed early has a predecessor with its final key, so it would have been
removed in the end.
-/
theorem firstsBy_firstsBy_append {key : α → κ} {fine : α → ν} {h : ν → κ} {early : List ν}
    {seen : List κ} {as : List α} (rest : List α) (hkey : ∀ a ∈ as, key a = h (fine a))
    (hearly : ∀ k ∈ early, h k ∈ seen) :
    firstsBy key seen (firstsBy fine early as ++ rest) = firstsBy key seen (as ++ rest) := by
  induction as generalizing early seen with
  | nil => rfl
  | cons a as ih =>
      have ha : key a = h (fine a) := hkey a List.mem_cons_self
      have hrest : ∀ b ∈ as, key b = h (fine b) := fun b hb =>
        hkey b (List.mem_cons_of_mem a hb)
      by_cases hf : fine a ∈ early
      · have hs : key a ∈ seen := by
          rw [ha]
          exact hearly _ hf
        rw [firstsBy_of_mem hf, List.cons_append, firstsBy_of_mem hs]
        exact ih hrest hearly
      · rw [firstsBy_of_not_mem hf, List.cons_append, List.cons_append]
        by_cases hs : key a ∈ seen
        · rw [firstsBy_of_mem hs, firstsBy_of_mem hs]
          refine ih hrest ?_
          intro k hk
          rcases List.mem_cons.1 hk with rfl | hk
          · rw [← ha]
            exact hs
          · exact hearly k hk
        · rw [firstsBy_of_not_mem hs, firstsBy_of_not_mem hs]
          refine congrArg (a :: ·) (ih hrest ?_)
          intro k hk
          rcases List.mem_cons.1 hk with rfl | hk
          · rw [← ha]
            exact List.mem_cons_self
          · exact List.mem_cons_of_mem _ (hearly k hk)

/-- Elements whose keys have all been seen are all passed over. -/
theorem firstsBy_eq_nil {key : α → κ} {seen : List κ} {as : List α} (h : ∀ a ∈ as, key a ∈ seen) :
    firstsBy key seen as = [] := by
  induction as with
  | nil => rfl
  | cons a as ih =>
      obtain ⟨ha, hrest⟩ := List.forall_mem_cons.1 h
      rw [firstsBy_of_mem ha, ih hrest]

/-! ## First occurrences of keys -/

section Keys

variable [BEq κ] [LawfulBEq κ] {key : α → κ}

/-- Elements of a key that has been seen might as well not be there. -/
theorem firstsBy_cons_seen (k : κ) (seen : List κ) (as : List α) :
    firstsBy key (k :: seen) as = firstsBy key seen (as.filter fun a => !key a == k) := by
  induction as generalizing seen with
  | nil => rfl
  | cons a as ih =>
      by_cases hk : key a = k
      · have hskip : ¬ (!key a == k) = true := by simp [hk]
        rw [firstsBy_of_mem (hk ▸ List.mem_cons_self), List.filter_cons, if_neg hskip, ih]
      · have hkeep : (!key a == k) = true := by simp [hk]
        rw [List.filter_cons, if_pos hkeep]
        by_cases hs : key a ∈ seen
        · rw [firstsBy_of_mem (List.mem_cons_of_mem k hs), firstsBy_of_mem hs, ih]
        · have hnew : key a ∉ k :: seen := List.not_mem_cons_of_ne_of_not_mem hk hs
          have hswap : ∀ j, j ∈ key a :: k :: seen ↔ j ∈ k :: key a :: seen := by
            intro j
            simp only [List.mem_cons]
            exact or_left_comm
          rw [firstsBy_of_not_mem hnew, firstsBy_of_not_mem hs, firstsBy_congr hswap, ih]

/-- It makes no difference if the elements of some keys are taken out before or after. -/
theorem firstsBy_filter (p : κ → Bool) (seen : List κ) (as : List α) :
    firstsBy key seen (as.filter fun a => p (key a)) =
      (firstsBy key seen as).filter fun a => p (key a) := by
  induction as generalizing seen with
  | nil => rfl
  | cons a as ih =>
      by_cases hs : key a ∈ seen
      · rw [firstsBy_of_mem hs, ← ih, List.filter_cons]
        split
        · exact firstsBy_of_mem hs _
        · rfl
      · rw [firstsBy_of_not_mem hs, List.filter_cons, List.filter_cons, ← ih]
        split
        · exact firstsBy_of_not_mem hs _
        · next hp =>
            -- What was seen at `a` does not matter, as nothing of its key is left.
            have hleft : ∀ b ∈ as.filter fun a => p (key a), (!key b == key a) = true := by
              intro b hb
              have hne : key b ≠ key a := fun heq => hp (heq ▸ (List.mem_filter.1 hb).2)
              simp [hne]
            rw [firstsBy_cons_seen, List.filter_eq_self.2 hleft]

/-- The keys of what is kept are the keys of all elements, each where it first occurs.  The
induction is on the length, as the keys that are repeated are filtered out of the rest. -/
theorem map_firstsBy_nil (as : List α) :
    (firstsBy key [] as).map key = (as.map key).eraseDups := by
  induction h : as.length using Nat.strongRecOn generalizing as with
  | _ n ih =>
      cases as with
      | nil => rfl
      | cons a as =>
          have hlength : (as.filter fun b => !key b == key a).length < n := by
            rw [← h]
            exact Nat.lt_succ_of_le (List.length_filter_le _ as)
          rw [firstsBy_of_not_mem List.not_mem_nil, firstsBy_cons_seen, List.map_cons,
            ih _ hlength _ rfl, List.map_cons, List.eraseDups_cons, List.filter_map]
          rfl

/-- Removing duplicates is keeping first occurrences, where everything is its own key. -/
theorem firstsBy_id_nil (ks : List κ) : firstsBy id [] ks = ks.eraseDups := by
  rw [← List.map_id (firstsBy id [] ks), map_firstsBy_nil, List.map_id]

theorem nodup_eraseDups (ks : List κ) : ks.eraseDups.Nodup := by
  have h := nodup_map_firstsBy id [] ks
  rwa [List.map_id, firstsBy_id_nil] at h

theorem eraseDups_of_nodup {ks : List κ} (h : ks.Nodup) : ks.eraseDups = ks := by
  rw [← firstsBy_id_nil]
  exact firstsBy_eq_self (by simpa using h) (fun k _ => List.not_mem_nil)

theorem eraseDups_filter (p : κ → Bool) (ks : List κ) :
    (ks.filter p).eraseDups = ks.eraseDups.filter p := by
  rw [← firstsBy_id_nil, ← firstsBy_id_nil]
  exact firstsBy_filter p [] ks

/-- Duplicates may be removed early: equal elements have equal images. -/
theorem eraseDups_map_eraseDups [BEq ν] [LawfulBEq ν] (f : ν → κ) (ks : List ν) :
    (ks.eraseDups.map f).eraseDups = (ks.map f).eraseDups := by
  have h : firstsBy f [] (firstsBy id [] ks ++ []) = firstsBy f [] (ks ++ []) :=
    firstsBy_firstsBy_append [] (fun k _ => rfl) (List.forall_mem_nil _)
  rw [List.append_nil, List.append_nil, firstsBy_id_nil] at h
  rw [← map_firstsBy_nil, ← map_firstsBy_nil, h]

end Keys

/-! ## The first with a property -/

/-- The element is the first of the list that has the property. -/
def IsFirst (p : α → Prop) (l : List α) (a : α) : Prop :=
  ∃ before after, l = before ++ a :: after ∧ p a ∧ ∀ b ∈ before, ¬ p b

theorem IsFirst.mem {p : α → Prop} {l : List α} {a : α} (h : IsFirst p l a) : a ∈ l ∧ p a := by
  obtain ⟨before, after, rfl, ha, -⟩ := h
  exact ⟨List.mem_append_right before List.mem_cons_self, ha⟩

theorem isFirst_cons {p : α → Prop} {b : α} {l : List α} {a : α} :
    IsFirst p (b :: l) a ↔ (a = b ∧ p b) ∨ (¬ p b ∧ IsFirst p l a) := by
  constructor
  · rintro ⟨before, after, hl, ha, hbefore⟩
    cases before with
    | nil =>
        cases hl
        exact Or.inl ⟨rfl, ha⟩
    | cons c before =>
        cases hl
        obtain ⟨hb, hrest⟩ := List.forall_mem_cons.1 hbefore
        exact Or.inr ⟨hb, before, after, rfl, ha, hrest⟩
  · rintro (⟨rfl, ha⟩ | ⟨hb, before, after, rfl, ha, hbefore⟩)
    · exact ⟨[], l, rfl, ha, List.forall_mem_nil _⟩
    · exact ⟨b :: before, after, rfl, ha, List.forall_mem_cons.2 ⟨hb, hbefore⟩⟩

theorem exists_isFirst {p : α → Prop} {l : List α} (h : ∃ a ∈ l, p a) : ∃ a, IsFirst p l a := by
  induction l with
  | nil =>
      obtain ⟨a, ha, -⟩ := h
      cases ha
  | cons b l ih =>
      by_cases hb : p b
      · exact ⟨b, isFirst_cons.2 (Or.inl ⟨rfl, hb⟩)⟩
      · have hrest : ∃ a ∈ l, p a := by
          obtain ⟨c, hc, hpc⟩ := h
          rcases List.mem_cons.1 hc with rfl | hc
          · exact absurd hpc hb
          · exact ⟨c, hc, hpc⟩
        obtain ⟨a, ha⟩ := ih hrest
        exact ⟨a, isFirst_cons.2 (Or.inr ⟨hb, ha⟩)⟩

/-- The first of a part of the list is the first that is in the part and has the property. -/
theorem isFirst_filter {p : α → Prop} {q : α → Bool} {l : List α} {a : α} :
    IsFirst p (l.filter q) a ↔ IsFirst (fun b => q b = true ∧ p b) l a := by
  induction l with
  | nil =>
      constructor
      · exact fun h => absurd h.mem.1 List.not_mem_nil
      · exact fun h => absurd h.mem.1 List.not_mem_nil
  | cons b l ih =>
      by_cases hq : q b = true
      · rw [List.filter_cons_of_pos hq, isFirst_cons, isFirst_cons, ih]
        simp only [hq, true_and]
      · rw [List.filter_cons_of_neg hq, isFirst_cons, ih]
        simp only [hq, Bool.false_eq_true, false_and, and_false, false_or, not_false_eq_true,
          true_and]

/-- The element is the last of the list that has the property. -/
def IsLast (p : α → Prop) (l : List α) (a : α) : Prop :=
  ∃ before after, l = before ++ a :: after ∧ p a ∧ ∀ b ∈ after, ¬ p b

theorem exists_isLast {p : α → Prop} {l : List α} (h : ∃ a ∈ l, p a) : ∃ a, IsLast p l a := by
  have hreverse : ∃ a ∈ l.reverse, p a := by
    obtain ⟨a, ha, hpa⟩ := h
    exact ⟨a, List.mem_reverse.2 ha, hpa⟩
  obtain ⟨a, before, after, hl, ha, hbefore⟩ := exists_isFirst hreverse
  refine ⟨a, after.reverse, before.reverse, ?_, ha, fun b hb => hbefore b (List.mem_reverse.1 hb)⟩
  rw [← List.reverse_reverse l, hl, List.reverse_append, List.reverse_cons, List.append_assoc,
    List.singleton_append]

end PropertyWeaver
