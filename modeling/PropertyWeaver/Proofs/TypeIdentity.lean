import PropertyWeaver.Proofs.Coverage
import PropertyWeaver.Proofs.Usings

/-!
# Telling types apart

A contract is dropped when its interface is implemented already for a type of the same metadata
name.  That name writes the namespace, the enclosing types and the type itself one after the other,
with full stops between them, and then the number of type parameters.  The full stops say where a
part of the name ends, but not what the part is: of a namespace `A` and a type `A` only the name is
left.

So the name stands for the *path* of a type, all names that lead to it, and for its arity
(`metadataName_eq_iff`).  Two types of one namespace are told apart, and a type is never taken for
one of another arity; but a type in a namespace and a type of the same path that is enclosed by
types are taken for parts of each other, and the second of them goes without its file.

## Main results

* `metadataName_eq_iff` — when two types have the same metadata name.
* `getElem?_place_eq_dropped_iff` — which contracts are dropped.
* `dropped_iff_exists_earlier` — a contract is dropped for the sake of an earlier one of the same
  path, arity and interface.
-/

namespace PropertyWeaver

/-! ## The number of type parameters -/

/-- The character before the number of type parameters. -/
def arityMark : Char := '\x60'

/-- What a metadata name says of the number of type parameters. -/
def aritySuffix (n : Nat) : List Char :=
  if n = 0 then [] else arityMark :: Nat.toDigits 10 n

theorem aritySuffix_inj {m n : Nat} (h : aritySuffix m = aritySuffix n) : m = n := by
  unfold aritySuffix at h
  split at h
  · next hm =>
    split at h
    · next hn => rw [hm, hn]
    · cases h
  · split at h
    · cases h
    · injection h with _ hdigits
      calc
        m = Nat.ofDigitChars 10 (Nat.toDigits 10 m) 0 := Nat.ofDigitChars_ten_toDigits.symm
        _ = Nat.ofDigitChars 10 (Nat.toDigits 10 n) 0 := by rw [hdigits]
        _ = n := Nat.ofDigitChars_ten_toDigits

/-- A text ends where the number of type parameters begins. -/
theorem takeWhile_append_aritySuffix {cs : List Char} (h : arityMark ∉ cs) (n : Nat) :
    (cs ++ aritySuffix n).takeWhile (· != arityMark) = cs := by
  have hcs : ∀ c ∈ cs, (c != arityMark) = true := by
    intro c hc
    have hne : c ≠ arityMark := fun e => h (e ▸ hc)
    simpa using hne
  have hsuffix : (aritySuffix n).takeWhile (· != arityMark) = [] := by
    unfold aritySuffix
    split
    · rfl
    · simp
  rw [List.takeWhile_append_of_pos hcs, hsuffix, List.append_nil]

theorem append_aritySuffix_inj {cs ds : List Char} (hc : arityMark ∉ cs) (hd : arityMark ∉ ds)
    {m n : Nat} : cs ++ aritySuffix m = ds ++ aritySuffix n ↔ cs = ds ∧ m = n := by
  constructor
  · intro h
    have hcs : cs = ds := by
      rw [← takeWhile_append_aritySuffix hc m, h, takeWhile_append_aritySuffix hd n]
    rw [hcs] at h
    exact ⟨hcs, aritySuffix_inj (List.append_cancel_left h)⟩
  · rintro ⟨rfl, rfl⟩
    rfl

/-! ## Paths of types -/

namespace TargetType

/-- The names of the enclosing types and of the type itself. -/
def names (t : TargetType) : List String := t.containers.map Container.name ++ [t.name]

/-- The parts of the namespace. -/
def namespaceParts (t : TargetType) : List String :=
  if t.namespaceName = "" then [] else (t.namespaceName.toList.splitOn '.').map String.ofList

/-- All names that lead to the type, its own being the last. -/
def path (t : TargetType) : List String := t.namespaceParts ++ t.names

/-- How many parameters the type has. -/
def arity (t : TargetType) : Nat := t.typeParameters.length

/-- No name has a character in it that a metadata name puts between names.  So it is if they are
identifiers of any script, and the namespace is empty or made of identifiers. -/
structure WellNamed (t : TargetType) : Prop where
  not_dot_mem : ∀ name ∈ t.names, '.' ∉ name.toList
  not_mark_mem : ∀ name ∈ t.names, arityMark ∉ name.toList
  not_mark_mem_namespace : arityMark ∉ t.namespaceName.toList

/-- Two declarations of one type. -/
structure SameType (t u : TargetType) : Prop where
  namespaceName_eq : t.namespaceName = u.namespaceName
  containers_eq : t.containers.map Container.name = u.containers.map Container.name
  name_eq : t.name = u.name
  arity_eq : t.arity = u.arity

instance (t : TargetType) : Decidable t.WellNamed :=
  decidable_of_iff ((∀ name ∈ t.names, '.' ∉ name.toList) ∧
      (∀ name ∈ t.names, arityMark ∉ name.toList) ∧ arityMark ∉ t.namespaceName.toList)
    ⟨fun h => ⟨h.1, h.2.1, h.2.2⟩, fun h => ⟨h.1, h.2, h.3⟩⟩

instance (t u : TargetType) : Decidable (t.SameType u) :=
  decidable_of_iff (t.namespaceName = u.namespaceName ∧
      t.containers.map Container.name = u.containers.map Container.name ∧
      t.name = u.name ∧ t.arity = u.arity)
    ⟨fun h => ⟨h.1, h.2.1, h.2.2.1, h.2.2.2⟩, fun h => ⟨h.1, h.2, h.3, h.4⟩⟩

theorem splitOn_append_dot (cs ds : List Char) :
    (cs ++ '.' :: ds).splitOn '.' = cs.splitOn '.' ++ ds.splitOn '.' := by
  simp only [List.splitOn_eq_splitOnP]
  exact List.splitOnP_append_cons cs ds (by decide)

theorem toList_nestedName (t : TargetType) :
    t.nestedName.toList = ['.'].intercalate (t.names.map String.toList) := by
  unfold nestedName names
  rw [String.toList_intercalate]
  rfl

namespace WellNamed

variable {t u : TargetType}

theorem splitOn_nestedName (h : t.WellNamed) :
    t.nestedName.toList.splitOn '.' = t.names.map String.toList := by
  have hdots : ∀ part ∈ t.names.map String.toList, '.' ∉ part := by
    intro part hpart
    obtain ⟨name, hname, rfl⟩ := List.mem_map.1 hpart
    exact h.not_dot_mem name hname
  have hne : t.names.map String.toList ≠ [] := by simp [names]
  rw [toList_nestedName, List.splitOn_intercalate '.' hdots hne]

/-- The path can be read off the name for people. -/
theorem splitOn_displayName (h : t.WellNamed) :
    t.displayName.toList.splitOn '.' = t.path.map String.toList := by
  unfold displayName path namespaceParts
  by_cases hempty : t.namespaceName = ""
  · rw [if_pos hempty, if_pos hempty, List.nil_append, h.splitOn_nestedName]
  · have hlist : (t.namespaceName ++ "." ++ t.nestedName).toList =
        t.namespaceName.toList ++ '.' :: t.nestedName.toList := by simp
    have hparts : ((t.namespaceName.toList.splitOn '.').map String.ofList).map String.toList =
        t.namespaceName.toList.splitOn '.' := by simp
    rw [if_neg hempty, if_neg hempty, hlist, splitOn_append_dot, h.splitOn_nestedName,
      List.map_append, hparts]

theorem displayName_eq_iff (ht : t.WellNamed) (hu : u.WellNamed) :
    t.displayName = u.displayName ↔ t.path = u.path := by
  have hsplit := ht.splitOn_displayName
  have hsplit' := hu.splitOn_displayName
  constructor
  · intro h
    rw [h, hsplit'] at hsplit
    have hinj : Function.Injective String.toList := fun _ _ => String.toList_inj.1
    exact (List.map_injective_iff.2 hinj hsplit).symm
  · intro h
    rw [← h, ← hsplit] at hsplit'
    have hjoin := congrArg (['.'].intercalate ·) hsplit'
    simp only [List.intercalate_splitOn] at hjoin
    exact (String.toList_inj.1 hjoin).symm

theorem not_mark_mem_displayName (h : t.WellNamed) : arityMark ∉ t.displayName.toList := by
  have hnested : arityMark ∉ t.nestedName.toList := by
    intro hmem
    obtain ⟨part, hpart, hin⟩ := Text.exists_mem_splitOnP (· == '.') hmem (by decide)
    rw [← List.splitOn_eq_splitOnP, h.splitOn_nestedName] at hpart
    obtain ⟨name, hname, rfl⟩ := List.mem_map.1 hpart
    exact h.not_mark_mem name hname hin
  unfold displayName
  split
  · exact hnested
  · have hdot : arityMark ∉ ".".toList := by decide
    simp only [String.toList_append, List.mem_append, not_or]
    exact ⟨⟨h.not_mark_mem_namespace, hdot⟩, hnested⟩

end WellNamed

theorem toList_metadataName (t : TargetType) :
    t.metadataName.toList = t.displayName.toList ++ aritySuffix t.arity := by
  unfold metadataName aritySuffix arity
  by_cases h : t.typeParameters = []
  · rw [if_pos h, if_pos (List.length_eq_zero_iff.2 h), List.append_nil]
  · have hlength : ¬ t.typeParameters.length = 0 := fun e => h (List.length_eq_zero_iff.1 e)
    have hmark : "`".toList = [arityMark] := rfl
    rw [if_neg h, if_neg hlength, String.toList_append, String.toList_append, hmark,
      String.toList_ofList, List.append_assoc, List.singleton_append]

/-- Two types have the same metadata name exactly if they have the same path and arity. -/
theorem metadataName_eq_iff {t u : TargetType} (ht : t.WellNamed) (hu : u.WellNamed) :
    t.metadataName = u.metadataName ↔ t.path = u.path ∧ t.arity = u.arity := by
  rw [← String.toList_inj, toList_metadataName, toList_metadataName,
    append_aritySuffix_inj ht.not_mark_mem_displayName hu.not_mark_mem_displayName,
    String.toList_inj, ht.displayName_eq_iff hu]

/-- Two types of one namespace have the same metadata name exactly if they are the same. -/
theorem sameType_iff {t u : TargetType} (ht : t.WellNamed) (hu : u.WellNamed) :
    t.SameType u ↔ t.namespaceName = u.namespaceName ∧ t.metadataName = u.metadataName := by
  rw [metadataName_eq_iff ht hu]
  constructor
  · rintro ⟨hnamespace, hcontainers, hname, harity⟩
    have hparts : t.namespaceParts = u.namespaceParts := by
      rw [namespaceParts, hnamespace, namespaceParts]
    have hnames : t.names = u.names := by rw [names, hcontainers, hname, names]
    exact ⟨hnamespace, by rw [path, hparts, hnames, path], harity⟩
  · rintro ⟨hnamespace, hpath, harity⟩
    have hparts : t.namespaceParts = u.namespaceParts := by
      rw [namespaceParts, hnamespace, namespaceParts]
    rw [path, path, hparts] at hpath
    have hnames : t.names = u.names := List.append_cancel_left hpath
    obtain ⟨hcontainers, hlast⟩ := List.append_inj' hnames rfl
    exact ⟨hnamespace, hcontainers, List.head_eq_of_cons_eq hlast, harity⟩

end TargetType

/-! ## Which contracts are dropped -/

namespace Generator

variable (g : Generator)

/-- A contract is dropped exactly if its identity is taken in the beginning, or by an earlier
contract.  The induction carries the ledger: what a contract adds to it is what the later contracts
find before them. -/
theorem getElem?_place_eq_dropped_iff (ledger : Ledger) (pairs : List (TargetType × Contract))
    (i : Nat) (t : TargetType) (c : Contract) :
    (g.place ledger pairs)[i]? = some (.dropped t c) ↔
      pairs[i]? = some (t, c) ∧
        (pairIdentity (t, c) ∈ ledger.identities ∨
          ∃ q ∈ pairs.take i, pairIdentity q = pairIdentity (t, c)) := by
  induction pairs generalizing ledger i with
  | nil => simp [place]
  | cons pair pairs ih =>
      obtain ⟨t', c'⟩ := pair
      have hidentity : pairIdentity (t', c') = (t'.metadataName, c'.metadataName) := rfl
      rw [place, ← hidentity]
      by_cases htaken : pairIdentity (t', c') ∈ ledger.identities
      · rw [if_pos htaken]
        cases i with
        | zero =>
            simp only [List.getElem?_cons_zero, List.take_zero, Option.some.injEq,
              Placement.dropped.injEq, Prod.mk.injEq]
            constructor
            · rintro ⟨rfl, rfl⟩
              exact ⟨⟨rfl, rfl⟩, Or.inl htaken⟩
            · rintro ⟨h, -⟩
              exact h
        | succ i =>
            have hfirst : pairIdentity (t', c') = pairIdentity (t, c) →
                pairIdentity (t, c) ∈ ledger.identities := fun e => e ▸ htaken
            rw [List.getElem?_cons_succ, List.getElem?_cons_succ, ih, List.take_succ_cons]
            simp only [List.exists_mem_cons_iff]
            tauto
      · rw [if_neg htaken]
        cases i with
        | zero =>
            simp only [List.getElem?_cons_zero, List.take_zero, Option.some.injEq,
              Prod.mk.injEq, reduceCtorEq, false_iff]
            rintro ⟨⟨rfl, rfl⟩, hmem | ⟨q, hq, -⟩⟩
            · exact htaken hmem
            · cases hq
        | succ i =>
            have hledger : ∀ k : String × String,
                k ∈ pairIdentity (t', c') :: ledger.identities ↔
                  k ∈ ledger.identities ∨ pairIdentity (t', c') = k := by
              intro k
              rw [List.mem_cons, or_comm, eq_comm]
            rw [List.getElem?_cons_succ, List.getElem?_cons_succ, ih, List.take_succ_cons]
            simp only [List.exists_mem_cons_iff, hledger, or_assoc]

/--
Of the contracts of some plans, those are dropped whose interface an earlier one has, too, for a
type of the same path and arity.  So a type is told from every type of another path or another
arity.  If its namespace is the same, it is the same type; but of two types of one path in different
namespaces the later one is dropped as if it were a part of the other.
-/
theorem dropped_iff_exists_earlier (plans : List Plan)
    (hnamed : ∀ p ∈ plans, p.target.WellNamed) :
    (∀ (i : Nat) (t : TargetType) (c : Contract),
      (g.placements plans)[i]? = some (.dropped t c) ↔
        (plans.flatMap Plan.pairs)[i]? = some (t, c) ∧
          ∃ q ∈ (plans.flatMap Plan.pairs).take i, q.2.metadataName = c.metadataName ∧
            q.1.path = t.path ∧ q.1.arity = t.arity) ∧
    ∀ p ∈ plans, ∀ q ∈ plans,
      (p.target.metadataName = q.target.metadataName ↔
        p.target.path = q.target.path ∧ p.target.arity = q.target.arity) ∧
      (p.target.SameType q.target ↔
        p.target.namespaceName = q.target.namespaceName ∧
          p.target.metadataName = q.target.metadataName) := by
  have hpairs : ∀ q ∈ plans.flatMap Plan.pairs, q.1.WellNamed := by
    intro q hq
    obtain ⟨p, hp, hmem⟩ := List.mem_flatMap.1 hq
    obtain ⟨contract, -, rfl⟩ := List.mem_map.1 hmem
    exact hnamed p hp
  constructor
  · intro i t c
    have hplace := g.getElem?_place_eq_dropped_iff ⟨[], []⟩ (plans.flatMap Plan.pairs) i t c
    rw [placements]
    refine hplace.trans (and_congr_right ?_)
    intro hi
    have ht : t.WellNamed := hpairs (t, c) (List.mem_of_getElem? hi)
    have hidentity : ∀ q ∈ (plans.flatMap Plan.pairs).take i,
        (pairIdentity q = pairIdentity (t, c) ↔
          q.2.metadataName = c.metadataName ∧ q.1.path = t.path ∧ q.1.arity = t.arity) := by
      intro q hq
      have hq' : q.1.WellNamed := hpairs q (List.mem_of_mem_take hq)
      rw [← TargetType.metadataName_eq_iff hq' ht, and_comm]
      exact Prod.ext_iff
    constructor
    · rintro (hnone | ⟨q, hq, heq⟩)
      · cases hnone
      · exact ⟨q, hq, (hidentity q hq).1 heq⟩
    · rintro ⟨q, hq, hsame⟩
      exact Or.inr ⟨q, hq, (hidentity q hq).2 hsame⟩
  · intro p hp q hq
    exact ⟨TargetType.metadataName_eq_iff (hnamed p hp) (hnamed q hq),
      TargetType.sameType_iff (hnamed p hp) (hnamed q hq)⟩

end Generator

/-- The second part of the type is dropped, because the first has the same path. -/
theorem dropped_partialType :
    ∃ plans t c, ((Generator.mk .byName .usual).planAll
        Compilation.partialType.declarations).ending Compilation.partialType.lookup = .ok plans ∧
      (∀ p ∈ plans, p.target.WellNamed) ∧ t.path = ["App", "Foo"] ∧
      ((Generator.mk .byName .usual).placements plans)[1]? = some (.dropped t c) := by
  obtain ⟨plans, p, q, hplans, hnamed, hq, hp, hinterface, hpath, harity, happ⟩ :
      ∃ (plans : List Plan) (p q : TargetType × Contract),
        ((Generator.mk .byName .usual).planAll Compilation.partialType.declarations).ending
          Compilation.partialType.lookup = .ok plans ∧
        (∀ p ∈ plans, p.target.WellNamed) ∧
        (plans.flatMap Plan.pairs)[1]? = some q ∧ p ∈ (plans.flatMap Plan.pairs).take 1 ∧
        p.2.metadataName = q.2.metadataName ∧ p.1.path = q.1.path ∧ p.1.arity = q.1.arity ∧
        q.1.path = ["App", "Foo"] :=
    ⟨_, _, _, rfl, by decide +kernel, rfl, List.mem_cons_self, by decide +kernel,
      by decide +kernel, by decide +kernel, by decide +kernel⟩
  obtain ⟨hdropped, -⟩ :=
    Generator.dropped_iff_exists_earlier (.mk .byName .usual) plans hnamed
  exact ⟨plans, q.1, q.2, hplans, hnamed, happ,
    (hdropped 1 q.1 q.2).2 ⟨hq, p, hp, hinterface, hpath, harity⟩⟩

/-! ## A type in a type and a type in a namespace -/

/-- A type `B` in the namespace `A`, and a type `B` in a type `A`.  Both name one interface. -/
def Compilation.enclosed : Compilation where
  files := [
    ⟨"A.cs", [], [.marked ["A"] "B" ["N.IBar"]]⟩,
    ⟨"B.cs", ["using N;"],
      [{ Declaration.marked [] "B" ["IBar"] with containers := [⟨"A", "class"⟩] }]⟩]
  symbols := [.emptyInterface "N" "IBar"]

/-- The second type gets no file, although no type before it is the same. -/
theorem dropped_enclosed :
    ∃ plans report,
      ((Generator.mk .byName .usual).planAll Compilation.enclosed.declarations).ending
        Compilation.enclosed.lookup = .ok plans ∧
      (∀ p ∈ plans, p.target.WellNamed) ∧
      (∃ t c, ((Generator.mk .byName .usual).placements plans)[1]? = some (.dropped t c) ∧
        ∀ q ∈ (plans.flatMap Plan.pairs).take 1,
          q.1.metadataName = t.metadataName ∧ ¬ q.1.SameType t) ∧
      ((Generator.mk .byName .usual).run .enclosed .idle).result = .ok report ∧
      report.files.map GeneratedFile.hintName =
        ["AutoImplementAttribute.g.cs", "B_N.IBar.g.cs"] := by
  refine ⟨_, _, rfl, by decide +kernel, ⟨_, _, rfl, by decide +kernel⟩, rfl, by decide +kernel⟩

end PropertyWeaver
