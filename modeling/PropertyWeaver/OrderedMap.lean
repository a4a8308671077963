/-!
# Maps that remember their order

An ordered map is the list of its entries. Putting a value under a key that is present replaces
the value where it stands; a new key goes to the end. Hence the entries keep the order in which
their keys were first put, each with the value put last.

## Main results

* `keys_put`: putting adds the key at the end, unless it is present.
* `lookup_put_self`, `lookup_put_ne`: putting changes what is found under its own key only.
* `nodup_keys_ofList`: no key occurs twice.
* `ofList_of_nodup`: pairs with distinct keys are the entries of their map.
* `mem_of_mem_ofList`: every entry is one of the pairs.
* `lookup_ofList_append_cons`: of the pairs with one key, the last one counts.
-/

namespace PropertyWeaver

/-- The entries of a map, in order of their keys' first appearance. -/
abbrev OrderedMap (κ ν : Type) := List (κ × ν)

namespace OrderedMap

variable {κ ν : Type} [DecidableEq κ]

/-- The keys in order. -/
def keys (m : OrderedMap κ ν) : List κ := List.map Prod.fst m

/-- `m` with `value` under `key`. -/
def put (key : κ) (value : ν) : OrderedMap κ ν → OrderedMap κ ν
  | [] => [(key, value)]
  | entry :: rest =>
    if entry.1 = key then (key, value) :: rest else entry :: put key value rest

/-- The map made by putting the pairs one after the other. -/
def ofList (pairs : List (κ × ν)) : OrderedMap κ ν :=
  pairs.foldl (fun m pair => put pair.1 pair.2 m) []

/-! ## Keys -/

theorem keys_put (key : κ) (value : ν) (m : OrderedMap κ ν) :
    keys (put key value m) = if key ∈ keys m then keys m else keys m ++ [key] := by
  induction m with
  | nil => simp [put, keys]
  | cons entry rest ih =>
    by_cases h : entry.1 = key
    · simp [put, keys, h]
    · have h' : key ≠ entry.1 := fun e => h e.symm
      simp only [keys] at ih
      by_cases hmem : key ∈ List.map Prod.fst rest
      · simp [put, keys, h, h', ih, hmem]
      · simp [put, keys, h, h', ih, hmem]

theorem nodup_keys_put (key : κ) (value : ν) {m : OrderedMap κ ν} (h : (keys m).Nodup) :
    (keys (put key value m)).Nodup := by
  rw [keys_put]
  split
  · exact h
  · next hmem =>
    refine List.nodup_append.2 ⟨h, by simp, ?_⟩
    intro a ha b hb e
    rw [List.mem_singleton.1 hb] at e
    exact hmem (e ▸ ha)

theorem nodup_keys_ofList (pairs : List (κ × ν)) : (keys (ofList pairs)).Nodup := by
  suffices h : ∀ m : OrderedMap κ ν, (keys m).Nodup →
      (keys (pairs.foldl (fun m pair => put pair.1 pair.2 m) m)).Nodup from h [] (by simp [keys])
  induction pairs with
  | nil => exact fun m hm => hm
  | cons pair pairs ih => exact fun m hm => ih _ (nodup_keys_put pair.1 pair.2 hm)

theorem put_of_not_mem {key : κ} {m : OrderedMap κ ν} (h : key ∉ keys m) (value : ν) :
    put key value m = m ++ [(key, value)] := by
  induction m with
  | nil => rfl
  | cons entry rest ih =>
    have hne : ¬ entry.1 = key := fun e => h (e ▸ List.mem_cons_self)
    have hrest : key ∉ keys rest := fun hmem => h (List.mem_cons_of_mem _ hmem)
    rw [put, if_neg hne, ih hrest]
    rfl

private theorem foldl_put_of_nodup (pairs m : OrderedMap κ ν)
    (h : (keys m ++ keys pairs).Nodup) :
    pairs.foldl (fun m pair => put pair.1 pair.2 m) m = m ++ pairs := by
  induction pairs generalizing m with
  | nil => simp
  | cons pair pairs ih =>
    have hnew : pair.1 ∉ keys m := by
      intro hmem
      exact (List.nodup_append.1 h).2.2 _ hmem _ List.mem_cons_self rfl
    rw [List.foldl_cons, put_of_not_mem hnew, ih]
    · simp
    · simpa [keys] using h

theorem ofList_of_nodup {pairs : List (κ × ν)} (h : (keys pairs).Nodup) :
    ofList pairs = pairs :=
  foldl_put_of_nodup pairs [] h

theorem mem_keys_ofList {key : κ} {pairs : List (κ × ν)} :
    key ∈ keys (ofList pairs) ↔ key ∈ keys pairs := by
  suffices h : ∀ m : OrderedMap κ ν,
      key ∈ keys (pairs.foldl (fun m pair => put pair.1 pair.2 m) m) ↔
        key ∈ keys m ∨ key ∈ keys pairs by
    simpa [ofList, keys] using h []
  induction pairs with
  | nil => simp [keys]
  | cons pair pairs ih =>
    intro m
    rw [List.foldl_cons, ih, keys_put]
    split
    · next hmem =>
      simp only [keys, List.map_cons, List.mem_cons]
      constructor
      · rintro (h | h)
        · exact Or.inl h
        · exact Or.inr (Or.inr h)
      · rintro (h | rfl | h)
        · exact Or.inl h
        · exact Or.inl hmem
        · exact Or.inr h
    · simp [keys, or_assoc]

/-! ## Entries -/

theorem mem_of_mem_put {key : κ} {value : ν} {m : OrderedMap κ ν} {entry : κ × ν}
    (h : entry ∈ put key value m) : entry = (key, value) ∨ entry ∈ m := by
  induction m with
  | nil => exact Or.inl (List.mem_singleton.1 h)
  | cons first rest ih =>
    unfold put at h
    split at h
    · exact (List.mem_cons.1 h).imp_right (List.mem_cons_of_mem _)
    · rcases List.mem_cons.1 h with rfl | h
      · exact Or.inr List.mem_cons_self
      · exact (ih h).imp_right (List.mem_cons_of_mem _)

theorem mem_of_mem_ofList {pairs : List (κ × ν)} {entry : κ × ν} (h : entry ∈ ofList pairs) :
    entry ∈ pairs := by
  suffices hfold : ∀ m : OrderedMap κ ν,
      entry ∈ pairs.foldl (fun m pair => put pair.1 pair.2 m) m → entry ∈ m ∨ entry ∈ pairs from
    (hfold [] h).resolve_left List.not_mem_nil
  clear h
  induction pairs with
  | nil => exact fun m h => Or.inl h
  | cons pair pairs ih =>
    intro m h
    rcases ih _ h with h | h
    · rcases mem_of_mem_put h with rfl | h
      · exact Or.inr List.mem_cons_self
      · exact Or.inl h
    · exact Or.inr (List.mem_cons_of_mem _ h)

/-! ## Values -/

theorem lookup_put_self (key : κ) (value : ν) (m : OrderedMap κ ν) :
    (put key value m).lookup key = some value := by
  induction m with
  | nil => simp [put]
  | cons entry rest ih =>
    obtain ⟨k, v⟩ := entry
    by_cases h : k = key
    · simp [put, h]
    · have h' : (key == k) = false := by simpa using fun e : key = k => h e.symm
      simp [put, h, List.lookup_cons, h', ih]

theorem lookup_put_ne {key other : κ} (h : other ≠ key) (value : ν) (m : OrderedMap κ ν) :
    (put key value m).lookup other = m.lookup other := by
  have hkey : (other == key) = false := by simpa using h
  induction m with
  | nil => simp [put, List.lookup_cons, hkey]
  | cons entry rest ih =>
    obtain ⟨k, v⟩ := entry
    by_cases he : k = key
    · simp [put, he, List.lookup_cons, hkey]
    · simp [put, he, List.lookup_cons, ih]

private theorem lookup_foldl_put_of_not_mem {key : κ} {pairs : List (κ × ν)}
    (h : key ∉ keys pairs) (m : OrderedMap κ ν) :
    (pairs.foldl (fun m pair => put pair.1 pair.2 m) m).lookup key = m.lookup key := by
  induction pairs generalizing m with
  | nil => rfl
  | cons pair pairs ih =>
    have hne : key ≠ pair.1 := fun e => h (e ▸ List.mem_cons_self)
    have hrest : key ∉ keys pairs := fun hmem => h (List.mem_cons_of_mem _ hmem)
    rw [List.foldl_cons, ih hrest, lookup_put_ne hne]

/-- The last pair with a key decides what is found under it. -/
theorem lookup_ofList_append_cons {key : κ} (value : ν) (before : List (κ × ν))
    {after : List (κ × ν)} (h : key ∉ keys after) :
    (ofList (before ++ (key, value) :: after)).lookup key = some value := by
  rw [ofList, List.foldl_append, List.foldl_cons, lookup_foldl_put_of_not_mem h, lookup_put_self]

end OrderedMap

end PropertyWeaver
