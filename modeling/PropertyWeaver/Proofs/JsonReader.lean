import PropertyWeaver.Proofs.Values
import PropertyWeaver.Value.Json

/-!
# Reading JSON

A reader for JSON text with integers for numbers.  It knows nothing of how documents are written
here: it takes any white space between tokens, every escape, hexadecimal digits of either case and
surrogate pairs, and it refuses control characters inside texts, digits after a leading zero, and
commas without an item after them.

Written documents are read back as the arranged value.  The proof goes through the parts: `Reads`
says of a reader that it finds an item at the start of a text whatever follows, as long as this does
not go on with a digit, and every reader is shown to read what the writer of its part has written.

## Main results

* `readChar_escape`, `readText_flatMap_escape` — texts come back whatever characters are in them.
* `reads_write` — a written value comes back in every layout that only adds white space.
* `read_write_append`, `read_document` — written values and documents are read back.
-/

namespace PropertyWeaver.Json

/-! ## Characters and texts -/

/-- The characters that may stand between tokens. -/
def isSpace (c : Char) : Bool := c == ' ' || c == '\t' || c == '\n' || c == '\r'

/-- The text from its first token on. -/
def skipSpace (cs : List Char) : List Char := cs.dropWhile isSpace

/-- The number that a hexadecimal digit stands for. -/
def hexValue? (c : Char) : Option Nat :=
  if '0' ≤ c ∧ c ≤ '9' then some (c.toNat - '0'.toNat)
  else if 'a' ≤ c ∧ c ≤ 'f' then some (c.toNat - 'a'.toNat + 10)
  else if 'A' ≤ c ∧ c ≤ 'F' then some (c.toNat - 'A'.toNat + 10)
  else none

/-- The code unit given by four hexadecimal digits. -/
def readUnit : List Char → Option (Nat × List Char)
  | a :: b :: c :: d :: rest => do
    let a ← hexValue? a
    let b ← hexValue? b
    let c ← hexValue? c
    let d ← hexValue? d
    return (((a * 16 + b) * 16 + c) * 16 + d, rest)
  | _ => none

/-- The character given by one code unit, or by a pair of which the second has an escape, too. -/
def readUnits (cs : List Char) : Option (Char × List Char) := do
  let (high, rest) ← readUnit cs
  if high.isValidChar then return (Char.ofNat high, rest)
  match rest with
  | '\\' :: 'u' :: rest =>
    let (low, rest) ← readUnit rest
    if high < 0xDC00 ∧ 0xDC00 ≤ low ∧ low < 0xE000 then
      return (Char.ofNat (0x10000 + (high - 0xD800) * 0x400 + (low - 0xDC00)), rest)
    else none
  | _ => none

/-- The character that a letter stands for after a backslash. -/
def shortEscape? : Char → Option Char
  | '"' => some '"'
  | '\\' => some '\\'
  | '/' => some '/'
  | 'b' => some '\x08'
  | 'f' => some '\x0c'
  | 'n' => some '\n'
  | 'r' => some '\r'
  | 't' => some '\t'
  | _ => none

/-- A character inside a quoted text. -/
def readChar : List Char → Option (Char × List Char)
  | '\\' :: 'u' :: rest => readUnits rest
  | '\\' :: letter :: rest => (shortEscape? letter).map fun c => (c, rest)
  | c :: rest => if c = '\\' ∨ c = '"' ∨ c.toNat < 0x20 then none else some (c, rest)
  | [] => none

/-- The characters up to the closing quote. -/
def readText : Nat → List Char → Option (List Char × List Char)
  | 0, _ => none
  | _ + 1, '"' :: rest => some ([], rest)
  | fuel + 1, cs => do
    let (c, rest) ← readChar cs
    let (text, rest) ← readText fuel rest
    return (c :: text, rest)

/-! ## Numbers -/

/-- A natural number without a leading zero. -/
def readNatural (cs : List Char) : Option (Nat × List Char) :=
  let digits := cs.takeWhile Char.isDigit
  if digits = [] ∨ (digits.head? = some '0' ∧ digits ≠ ['0']) then none
  else some (Nat.ofDigitChars 10 digits 0, cs.dropWhile Char.isDigit)

/-- An integer. -/
def readInteger : List Char → Option (Int × List Char)
  | '-' :: rest => (readNatural rest).map fun (n, rest) => (-(n : Int), rest)
  | cs => (readNatural cs).map fun (n, rest) => ((n : Int), rest)

/-! ## Lists and objects -/

section Items

variable {α : Type}

/-- One item or more up to the closing bracket, with a comma between two. -/
def readItems (read : List Char → Option (α × List Char)) (close : Char) :
    Nat → List Char → Option (List α × List Char)
  | 0, _ => none
  | fuel + 1, cs => do
    let (item, rest) ← read (skipSpace cs)
    match skipSpace rest with
    | [] => none
    | c :: rest =>
      if c = close then return ([item], rest)
      else if c = ',' then
        let (items, rest) ← readItems read close fuel rest
        return (item :: items, rest)
      else none

/-- What is between the opening bracket, which is read already, and the closing one. -/
def readAll (read : List Char → Option (α × List Char)) (close : Char) (fuel : Nat)
    (cs : List Char) : Option (List α × List Char) :=
  match skipSpace cs with
  | [] => none
  | c :: rest => if c = close then some ([], rest) else readItems read close fuel (c :: rest)

end Items

/-- A key in quotes, a colon, and a value. -/
def readField (read : List Char → Option (Value × List Char)) (fuel : Nat) :
    List Char → Option ((String × Value) × List Char)
  | '"' :: rest => do
    let (key, rest) ← readText fuel rest
    match skipSpace rest with
    | ':' :: rest =>
      let (value, rest) ← read (skipSpace rest)
      return ((String.ofList key, value), rest)
    | _ => none
  | _ => none

/-- A value; `fuel` is at least the number of characters that it may take. -/
def readValue : Nat → List Char → Option (Value × List Char)
  | 0, _ => none
  | fuel + 1, cs =>
    match cs with
    | 'n' :: 'u' :: 'l' :: 'l' :: rest => some (.null, rest)
    | 't' :: 'r' :: 'u' :: 'e' :: rest => some (.bool true, rest)
    | 'f' :: 'a' :: 'l' :: 's' :: 'e' :: rest => some (.bool false, rest)
    | '"' :: rest => (readText fuel rest).map fun (s, rest) => (.text (String.ofList s), rest)
    | '[' :: rest =>
      (readAll (readValue fuel) ']' fuel rest).map fun (items, rest) => (.list items, rest)
    | '\x7b' :: rest =>
      (readAll (readField (readValue fuel) fuel) '\x7d' fuel rest).map fun (fields, rest) =>
        (.object fields, rest)
    | cs => (readInteger cs).map fun (n, rest) => (.int n, rest)

/-- The value of a document, which holds nothing else. -/
def read (s : String) : Option Value :=
  match readValue (s.toList.length + 1) (skipSpace s.toList) with
  | some (value, rest) => if skipSpace rest = [] then some value else none
  | none => none

/-! ## Texts come back -/

theorem skipSpace_append {gap : List Char} (hgap : ∀ c ∈ gap, isSpace c = true) (cs : List Char) :
    skipSpace (gap ++ cs) = skipSpace cs :=
  List.dropWhile_append_of_pos hgap

theorem skipSpace_cons {c : Char} (hc : isSpace c = false) (cs : List Char) :
    skipSpace (c :: cs) = c :: cs :=
  List.dropWhile_cons_of_neg (by simp [hc])

theorem hexValue?_hexDigit (n : Nat) : hexValue? (Text.hexDigit n) = some (n % 16) := by
  have hdigit : ∀ m < 16, hexValue? (Nat.digitChar m) = some m := by decide
  exact hdigit (n % 16) (Nat.mod_lt n (by decide))

theorem readUnit_hexDigits (n : Nat) (rest : List Char) :
    readUnit (Text.hexDigits 4 n ++ rest) = some (n % 0x10000, rest) := by
  have hsum : (((n / 16 / 16 / 16 % 16) * 16 + n / 16 / 16 % 16) * 16 + n / 16 % 16) * 16 + n % 16 =
      n % 0x10000 := by omega
  rw [← hsum]
  simp [Text.hexDigits, readUnit, hexValue?_hexDigit]

theorem readUnits_of_lt {c : Char} (h : c.toNat < 0x10000) (rest : List Char) :
    readUnits (Text.hexDigits 4 c.toNat ++ rest) = some (c, rest) := by
  have hvalid : c.toNat.isValidChar := c.valid
  simp [readUnits, readUnit_hexDigits, Nat.mod_eq_of_lt h, hvalid]

/-- The first unit of a pair is no character. -/
theorem readUnits_pair {q m : Nat} (hq : q < 0x400) (hm : m < 0x400) (rest : List Char) :
    readUnits (Text.hexDigits 4 (0xD800 + q) ++ escapeUnit (0xDC00 + m) ++ rest) =
      some (Char.ofNat (0x10000 + q * 0x400 + m), rest) := by
  have hhigh : ¬ (0xD800 + q).isValidChar := by
    unfold Nat.isValidChar
    omega
  have hlow : 0xD800 + q < 0xDC00 ∧ 0xDC00 ≤ 0xDC00 + m ∧ 0xDC00 + m < 0xE000 := by omega
  rw [List.append_assoc, readUnits, readUnit_hexDigits, Nat.mod_eq_of_lt (by omega)]
  simp only [escapeUnit, List.cons_append, Option.bind_eq_bind, Option.bind_some, hhigh, if_false,
    readUnit_hexDigits]
  rw [Nat.mod_eq_of_lt (by omega), if_pos hlow, Nat.add_sub_cancel_left, Nat.add_sub_cancel_left]
  rfl

theorem readUnits_of_not_lt {c : Char} (h : ¬ c.toNat < 0x10000) (rest : List Char) :
    readUnits (Text.hexDigits 4 (0xD800 + (c.toNat - 0x10000) / 0x400) ++
      escapeUnit (0xDC00 + (c.toNat - 0x10000) % 0x400) ++ rest) = some (c, rest) := by
  have hlast : c.toNat < 0x110000 := by
    rcases (show c.toNat.isValidChar from c.valid) with hlow | ⟨-, hhigh⟩
    · omega
    · exact hhigh
  have hcode : 0x10000 + (c.toNat - 0x10000) / 0x400 * 0x400 + (c.toNat - 0x10000) % 0x400 =
      c.toNat := by omega
  rw [readUnits_pair (by omega) (by omega), hcode, Char.ofNat_toNat]

/-- The ways in which a character is written inside a text. -/
inductive Spelling (c : Char) : List Char → Prop where
  | short (letter : Char) (hunit : letter ≠ 'u') (hletter : shortEscape? letter = some c) :
      Spelling c ['\\', letter]
  | plain (hplain : ¬ (c = '\\' ∨ c = '"' ∨ c.toNat < 0x20)) : Spelling c [c]
  | unit (hbasic : c.toNat < 0x10000) : Spelling c (escapeUnit c.toNat)
  | pair (hbasic : ¬ c.toNat < 0x10000) : Spelling c (escapePair c.toNat)

theorem spelling_escape (c : Char) : Spelling c (escape c) := by
  unfold escape
  split
  · next h => exact .short '"' (by decide) (by rw [h]; rfl)
  split
  · next h => exact .short '\\' (by decide) (by rw [h]; rfl)
  split
  · next h => exact .short 'n' (by decide) (by rw [h]; rfl)
  split
  · next h => exact .short 'r' (by decide) (by rw [h]; rfl)
  split
  · next h => exact .short 't' (by decide) (by rw [h]; rfl)
  split
  · next h => exact .short 'f' (by decide) (by rw [h]; rfl)
  split
  · next h => exact .short 'b' (by decide) (by rw [h]; rfl)
  split
  · next hquote hslash _ _ _ _ _ hprintable =>
      refine .plain ?_
      rintro (h | h | h)
      · exact hslash h
      · exact hquote h
      · omega
  split
  · next hbasic => exact .unit hbasic
  · next hbasic => exact .pair hbasic

/-- A character comes back, and it does not look like the end of its text. -/
theorem readChar_escape (c : Char) (rest : List Char) :
    readChar (escape c ++ rest) = some (c, rest) ∧ ∀ tail, escape c ++ rest ≠ '"' :: tail := by
  have hspelling := spelling_escape c
  generalize escape c = cs at hspelling
  cases hspelling with
  | short letter hunit hletter =>
      refine ⟨?_, fun tail h => absurd (List.cons.inj h).1 (by decide)⟩
      rw [List.cons_append, List.singleton_append, readChar, hletter]
      · rfl
      · exact hunit
  | plain hplain =>
      refine ⟨?_, fun tail h => hplain (Or.inr (Or.inl (List.cons.inj h).1))⟩
      rw [List.singleton_append, readChar, if_neg hplain]
      · exact fun tail h => absurd (Or.inl h) hplain
      · exact fun letter tail h => absurd (Or.inl h) hplain
  | unit hbasic =>
      exact ⟨readUnits_of_lt hbasic rest, fun tail h => absurd (List.cons.inj h).1 (by decide)⟩
  | pair hbasic =>
      exact ⟨readUnits_of_not_lt hbasic rest, fun tail h => absurd (List.cons.inj h).1 (by decide)⟩

/-- A text comes back up to its closing quote. -/
theorem readText_flatMap_escape {cs : List Char} {fuel : Nat} (h : cs.length < fuel)
    (rest : List Char) : readText fuel (cs.flatMap escape ++ '"' :: rest) = some (cs, rest) := by
  induction cs generalizing fuel with
  | nil =>
      obtain ⟨fuel, rfl⟩ := Nat.exists_eq_succ_of_ne_zero (Nat.ne_zero_of_lt h)
      rfl
  | cons c cs ih =>
      obtain ⟨fuel, rfl⟩ := Nat.exists_eq_succ_of_ne_zero (Nat.ne_zero_of_lt h)
      obtain ⟨hchar, hquote⟩ := readChar_escape c (cs.flatMap escape ++ '"' :: rest)
      rw [List.flatMap_cons, List.append_assoc, readText, hchar]
      · simp [ih (Nat.lt_of_succ_lt_succ h)]
      · exact hquote

/-! ## Numbers come back -/

/-- The text does not go on with a digit. -/
def Ended (rest : List Char) : Prop := ∀ c ∈ rest.head?, c.isDigit = false

theorem ended_cons {c : Char} (hc : c.isDigit = false) (rest : List Char) : Ended (c :: rest) := by
  intro d hd
  cases hd
  exact hc

theorem toDigits_eq_singleton_of_head? {n : Nat} (h : (Nat.toDigits 10 n).head? = some '0') :
    Nat.toDigits 10 n = ['0'] := by
  induction n using Nat.strongRecOn with
  | ind n ih =>
      by_cases hn : n < 10
      · rw [Nat.toDigits_of_lt_base hn] at h ⊢
        rw [Option.some.inj h]
      · have hle : 10 ≤ n := Nat.le_of_not_lt hn
        rw [Nat.toDigits_of_base_le (by decide) hle, List.head?_append_of_ne_nil _
          Nat.toDigits_ne_nil] at h
        have hzero : n / 10 = 0 := by
          rw [← Nat.ofDigitChars_ten_toDigits (n := n / 10), ih (n / 10) (by omega) h]
          rfl
        omega

/-- The digits end where the text does not go on with one. -/
theorem readNatural_toDigits (n : Nat) {rest : List Char} (h : Ended rest) :
    readNatural (Nat.toDigits 10 n ++ rest) = some (n, rest) := by
  have hdigits : ∀ c ∈ Nat.toDigits 10 n, c.isDigit = true := fun c hc =>
    Nat.isDigit_of_mem_toDigits (by decide) (by decide) hc
  have hrest : rest.takeWhile Char.isDigit = [] ∧ rest.dropWhile Char.isDigit = rest := by
    cases rest with
    | nil => exact ⟨rfl, rfl⟩
    | cons c rest =>
        have hc : ¬ c.isDigit = true := by simpa using h c rfl
        exact ⟨List.takeWhile_cons_of_neg hc, List.dropWhile_cons_of_neg hc⟩
  have hwritten : ¬ (Nat.toDigits 10 n = [] ∨
      ((Nat.toDigits 10 n).head? = some '0' ∧ Nat.toDigits 10 n ≠ ['0'])) := by
    rintro (hnil | ⟨hzero, hne⟩)
    · exact Nat.toDigits_ne_nil hnil
    · exact hne (toDigits_eq_singleton_of_head? hzero)
  unfold readNatural
  rw [List.takeWhile_append_of_pos hdigits, List.dropWhile_append_of_pos hdigits, hrest.1, hrest.2,
    List.append_nil]
  simp only [if_neg hwritten, Nat.ofDigitChars_ten_toDigits]

theorem toDigits_eq_cons (n : Nat) :
    ∃ c cs, Nat.toDigits 10 n = c :: cs ∧ c.isDigit = true := by
  obtain ⟨c, cs, h⟩ := List.exists_cons_of_ne_nil (Nat.toDigits_ne_nil (n := n) (b := 10))
  have hc : c ∈ Nat.toDigits 10 n := by
    rw [h]
    exact List.mem_cons_self
  exact ⟨c, cs, h, Nat.isDigit_of_mem_toDigits (by decide) (by decide) hc⟩

theorem decimal_eq_cons (n : Int) :
    ∃ c cs, decimal n = c :: cs ∧ (c = '-' ∨ c.isDigit = true) := by
  cases n with
  | ofNat n =>
      obtain ⟨c, cs, h, hc⟩ := toDigits_eq_cons n
      exact ⟨c, cs, h, Or.inr hc⟩
  | negSucc n => exact ⟨'-', _, rfl, Or.inl rfl⟩

theorem readInteger_decimal (n : Int) {rest : List Char} (h : Ended rest) :
    readInteger (decimal n ++ rest) = some (n, rest) := by
  cases n with
  | ofNat n =>
      rw [decimal, readInteger, readNatural_toDigits n h]
      · rfl
      · intro tail heq
        obtain ⟨c, cs, hcons, hc⟩ := toDigits_eq_cons n
        rw [hcons] at heq
        rw [(List.cons.inj heq).1] at hc
        exact absurd hc (by decide)
  | negSucc n =>
      rw [decimal, List.cons_append, readInteger, readNatural_toDigits (n + 1) h]
      rfl

/-! ## Lists come back -/

/-- The layout adds nothing but white space and one comma between items. -/
structure Layout.Spaced (layout : Layout) : Prop where
  lead : ∀ depth, ∀ c ∈ layout.lead depth, isSpace c = true
  separator : ∀ depth, ∃ gap, layout.separator depth = ',' :: gap ∧ ∀ c ∈ gap, isSpace c = true

theorem Layout.spaced_indented : Layout.indented.Spaced := by
  have hbreak : ∀ depth, ∀ c ∈ lineBreak depth, isSpace c = true := by
    intro depth c hc
    rcases List.mem_cons.1 hc with rfl | hc
    · decide
    · rw [List.eq_of_mem_replicate hc]
      decide
  exact ⟨hbreak, fun depth => ⟨lineBreak depth, rfl, hbreak depth⟩⟩

theorem Layout.spaced_line : Layout.line.Spaced :=
  ⟨fun _ => List.forall_mem_nil _,
    fun _ => ⟨[' '], rfl, List.forall_mem_singleton.2 (by decide)⟩⟩

/-- The reader finds the item `x` at the start of the text, whatever follows, and sees from the
first character that an item is to come. -/
structure Reads {α : Type} (read : List Char → Option (α × List Char)) (cs : List Char) (x : α) :
    Prop where
  starts : ∃ c tail, cs = c :: tail ∧ isSpace c = false ∧ c ≠ ']' ∧ c ≠ '\x7d'
  read_append : ∀ rest, Ended rest → read (cs ++ rest) = some (x, rest)

theorem ended_append {gap : List Char} (hgap : ∀ c ∈ gap, isSpace c = true) {rest : List Char}
    (h : Ended rest) : Ended (gap ++ rest) := by
  cases gap with
  | nil => exact h
  | cons c gap =>
      refine ended_cons ?_ _
      have hspace : isSpace c = true := hgap c List.mem_cons_self
      simp only [isSpace, Bool.or_eq_true, beq_iff_eq] at hspace
      rcases hspace with ((rfl | rfl) | rfl) | rfl <;> decide

section Items

variable {α : Type} {read : List Char → Option (α × List Char)}

theorem Reads.skipSpace_append {cs : List Char} {x : α} (h : Reads read cs x) {gap : List Char}
    (hgap : ∀ c ∈ gap, isSpace c = true) (rest : List Char) :
    skipSpace (gap ++ (cs ++ rest)) = cs ++ rest := by
  obtain ⟨c, tail, rfl, hc, -⟩ := h.starts
  rw [Json.skipSpace_append hgap, List.cons_append, skipSpace_cons hc]

/-- The items from one on, with separators before all others. -/
def listed (layout : Layout) (depth : Nat) (print : α → List Char) (item : α) (items : List α) :
    List Char :=
  print item ++ items.flatMap fun x => layout.separator depth ++ print x

/-- What follows an opening bracket, the closing one included. -/
def enclosed (layout : Layout) (depth : Nat) (print : α → List Char) (close : Char) :
    List α → List Char
  | [] => [close]
  | item :: items =>
    layout.lead (depth + 1) ++
      (listed layout (depth + 1) print item items ++ (layout.lead depth ++ [close]))

variable {layout : Layout} (hlayout : layout.Spaced) {depth : Nat} {print : α → List Char}
include hlayout

theorem length_lt_of_listed {item : α} {items : List α} {fuel : Nat}
    (h : (listed layout depth print item items).length < fuel) :
    (∀ x ∈ item :: items, (print x).length < fuel) ∧ items.length < fuel := by
  obtain ⟨gap, hgap, -⟩ := hlayout.separator depth
  rw [listed, List.length_append, hgap] at h
  have hcount := Value.length_le_length_flatMap_of_ne_nil (l := items)
    (f := fun x => ',' :: gap ++ print x) (fun x _ => List.cons_ne_nil _ _)
  refine ⟨List.forall_mem_cons.2 ⟨by omega, fun x hx => ?_⟩, by omega⟩
  have hpart := Value.length_le_length_flatMap (f := fun x => ',' :: gap ++ print x) hx
  rw [List.length_append] at hpart
  omega

variable {close : Char} (hclose : close = ']' ∨ close = '\x7d')
include hclose

/-- Items come back, each from after its separator on.  The induction is on the items that are left
after the one to be read. -/
theorem readItems_listed {items : List α} {item : α}
    (hread : ∀ x ∈ item :: items, Reads read (print x) x) {fuel : Nat}
    (hfuel : items.length < fuel) {first lead : List Char}
    (hfirst : ∀ c ∈ first, isSpace c = true) (hlead : ∀ c ∈ lead, isSpace c = true)
    (rest : List Char) :
    readItems read close fuel
        (first ++ (listed layout depth print item items ++ (lead ++ close :: rest))) =
      some (item :: items, rest) := by
  obtain ⟨hdigit, hspace, hcomma⟩ :
      close.isDigit = false ∧ isSpace close = false ∧ close ≠ ',' := by
    rcases hclose with rfl | rfl <;> decide
  obtain ⟨gap, hgap, hgapspace⟩ := hlayout.separator depth
  induction items generalizing item fuel first with
  | nil =>
      obtain ⟨fuel, rfl⟩ := Nat.exists_eq_succ_of_ne_zero (Nat.ne_zero_of_lt hfuel)
      have hitem := hread item List.mem_cons_self
      rw [listed, List.flatMap_nil, List.append_nil, readItems, hitem.skipSpace_append hfirst,
        hitem.read_append _ (ended_append hlead (ended_cons hdigit rest))]
      simp [Json.skipSpace_append hlead, skipSpace_cons hspace]
  | cons next items ih =>
      obtain ⟨fuel, rfl⟩ := Nat.exists_eq_succ_of_ne_zero (Nat.ne_zero_of_lt hfuel)
      obtain ⟨hitem, hitems⟩ := List.forall_mem_cons.1 hread
      have hnext := ih hitems (Nat.lt_of_succ_lt_succ hfuel) hgapspace
      have hlisted : listed layout depth print item (next :: items) ++ (lead ++ close :: rest) =
          print item ++ ',' :: (gap ++ (listed layout depth print next items ++
            (lead ++ close :: rest))) := by
        simp only [listed, List.flatMap_cons, hgap, List.cons_append, List.append_assoc]
      rw [hlisted, readItems, hitem.skipSpace_append hfirst,
        hitem.read_append _ (ended_cons (by decide) _)]
      simp only [Option.bind_eq_bind, Option.bind_some, skipSpace_cons (c := ',') (by decide),
        Ne.symm hcomma, if_false, if_true, hnext]
      rfl

/-- A list comes back up to its closing bracket, if there is enough fuel for what stands before. -/
theorem readAll_enclosed {items : List α} {fuel : Nat}
    (hfuel : (enclosed layout depth print close items).length < fuel)
    (hread : ∀ x ∈ items, (print x).length < fuel → Reads read (print x) x) (rest : List Char) :
    readAll read close fuel (enclosed layout depth print close items ++ rest) =
      some (items, rest) := by
  cases items with
  | nil =>
      have hspace : isSpace close = false := by
        rcases hclose with rfl | rfl <;> decide
      simp [enclosed, readAll, skipSpace_cons hspace]
  | cons item items =>
      have hlisted : (listed layout (depth + 1) print item items).length < fuel := by
        simp only [enclosed, List.length_append] at hfuel
        omega
      obtain ⟨hparts, hcount⟩ := length_lt_of_listed hlayout hlisted
      have hreads : ∀ x ∈ item :: items, Reads read (print x) x := fun x hx =>
        hread x hx (hparts x hx)
      have hitems : readItems read close fuel
          ([] ++ (listed layout (depth + 1) print item items ++
            (layout.lead depth ++ close :: rest))) = some (item :: items, rest) :=
        readItems_listed hlayout hclose hreads hcount (List.forall_mem_nil _) (hlayout.lead depth)
          rest
      obtain ⟨c, tail, hstart, hspace, hlist, hobject⟩ := (hreads item List.mem_cons_self).starts
      -- the first item does not begin like the end of the list
      have hne : c ≠ close := by
        rcases hclose with rfl | rfl
        · exact hlist
        · exact hobject
      have hcons : ∃ tail, listed layout (depth + 1) print item items = c :: tail := by
        rw [listed, hstart]
        exact ⟨_, rfl⟩
      obtain ⟨tail, hcons⟩ := hcons
      rw [hcons, List.nil_append, List.cons_append] at hitems
      rw [enclosed, hcons]
      simp only [List.append_assoc, List.cons_append, List.nil_append]
      rw [readAll, Json.skipSpace_append (hlayout.lead (depth + 1)), skipSpace_cons hspace]
      simp only [hne, if_false, hitems]

end Items

/-! ## Values come back -/

theorem length_lt_length_quoted (s : String) : s.toList.length < (quoted s).length := by
  have h : s.toList.length ≤ (s.toList.flatMap escape).length := by
    refine Value.length_le_length_flatMap_of_ne_nil fun c _ hnil => ?_
    have hchar := (readChar_escape c []).1
    rw [hnil] at hchar
    cases hchar
  simp only [quoted, List.cons_append, List.length_cons, List.length_append]
  omega

/-- A text comes back, with whatever follows left over. -/
theorem readText_quoted (s : String) {fuel : Nat} (h : (quoted s).length ≤ fuel)
    (rest : List Char) :
    ∃ tail, quoted s ++ rest = '"' :: tail ∧ readText fuel tail = some (s.toList, rest) := by
  refine ⟨s.toList.flatMap escape ++ '"' :: rest, by simp [quoted], ?_⟩
  exact readText_flatMap_escape (Nat.lt_of_lt_of_le (length_lt_length_quoted s) h) rest

/-- The text of a field. -/
def writeField (layout : Layout) (depth : Nat) (field : String × Value) : List Char :=
  quoted field.1 ++ [':', ' '] ++ write layout depth field.2

variable {layout : Layout} {depth : Nat}

theorem writeItems_eq_flatMap (items : List Value) : writeItems layout depth items =
    items.flatMap fun item => layout.separator depth ++ write layout depth item := by
  induction items with
  | nil => rfl
  | cons item items ih => rw [writeItems, ih, List.flatMap_cons]

theorem writeFields_eq_flatMap (fields : List (String × Value)) : writeFields layout depth fields =
    fields.flatMap fun field => layout.separator depth ++ writeField layout depth field := by
  induction fields with
  | nil => rfl
  | cons field fields ih =>
      obtain ⟨key, value⟩ := field
      rw [writeFields, ih, List.flatMap_cons, writeField]
      simp only [List.append_assoc]

theorem write_list (items : List Value) : write layout depth (.list items) =
    '[' :: enclosed layout depth (write layout (depth + 1)) ']' items := by
  cases items with
  | nil => rfl
  | cons item items =>
      rw [write, writeItems_eq_flatMap, enclosed, listed]
      simp only [List.cons_append, List.append_assoc]

theorem write_object (fields : List (String × Value)) : write layout depth (.object fields) =
    '\x7b' :: enclosed layout depth (writeField layout (depth + 1)) '\x7d' fields := by
  cases fields with
  | nil => rfl
  | cons field fields =>
      obtain ⟨key, value⟩ := field
      rw [write, writeFields_eq_flatMap, enclosed, listed, writeField]
      simp only [List.cons_append, List.append_assoc]

theorem reads_field {fuel : Nat} {field : String × Value} (hkey : (quoted field.1).length ≤ fuel)
    (hvalue : Reads (readValue fuel) (write layout depth field.2) field.2) :
    Reads (readField (readValue fuel) fuel) (writeField layout depth field) field := by
  obtain ⟨key, value⟩ := field
  refine ⟨⟨'"', _, rfl, by decide, by decide, by decide⟩, fun rest hrest => ?_⟩
  obtain ⟨tail, htail, htext⟩ := readText_quoted key hkey
    (':' :: ([' '] ++ (write layout depth value ++ rest)))
  have hfield : writeField layout depth (key, value) ++ rest = '"' :: tail := by
    rw [← htail]
    simp [writeField]
  have hspace : ∀ c ∈ [' '], isSpace c = true := by
    intro c hc
    rw [List.mem_singleton.1 hc]
    rfl
  rw [hfield, readField, htext]
  simp only [Option.bind_eq_bind, Option.bind_some, skipSpace_cons (c := ':') (by decide)]
  rw [hvalue.skipSpace_append hspace, hvalue.read_append rest hrest]
  simp

/-- A number is told from every other value by its first character. -/
theorem reads_int (fuel : Nat) (n : Int) : Reads (readValue (fuel + 1)) (decimal n) (.int n) := by
  obtain ⟨c, tail, hcons, hc⟩ := decimal_eq_cons n
  have hne : ∀ d : Char, d ≠ '-' → d.isDigit = false → c ≠ d := by
    rintro d hminus hdigit rfl
    rcases hc with rfl | hc
    · exact hminus rfl
    · rw [hdigit] at hc
      cases hc
  refine ⟨⟨c, tail, hcons, ?_, hne _ (by decide) (by decide), hne _ (by decide) (by decide)⟩,
    fun rest hrest => ?_⟩
  · simp [isSpace, hne ' ' (by decide) (by decide), hne '\t' (by decide) (by decide),
      hne '\n' (by decide) (by decide), hne '\r' (by decide) (by decide)]
  · have hread := readInteger_decimal n hrest
    rw [hcons] at hread ⊢
    rw [List.cons_append] at hread ⊢
    -- what is left to show is that the text begins like none of the six other kinds of value
    rw [readValue, hread]
    · rfl
    · exact fun _ h => absurd (List.cons.inj h).1 (hne 'n' (by decide) (by decide))
    · exact fun _ h => absurd (List.cons.inj h).1 (hne 't' (by decide) (by decide))
    · exact fun _ h => absurd (List.cons.inj h).1 (hne 'f' (by decide) (by decide))
    · exact fun _ h => absurd (List.cons.inj h).1 (hne '"' (by decide) (by decide))
    · exact fun _ h => absurd (List.cons.inj h).1 (hne '[' (by decide) (by decide))
    · exact fun _ h => absurd (List.cons.inj h).1 (hne '\x7b' (by decide) (by decide))

/-- A written value comes back in every layout that adds nothing but white space, if the fuel is
enough for its text.  The induction is on the value; the parts of a list or an object have shorter
texts, and so one step less of fuel is enough for each. -/
theorem reads_write (hlayout : layout.Spaced) {v : Value} {fuel : Nat}
    (hfuel : (write layout depth v).length < fuel) :
    Reads (readValue fuel) (write layout depth v) v := by
  induction v using Value.induction generalizing depth fuel
  all_goals obtain ⟨fuel, rfl⟩ := Nat.exists_eq_succ_of_ne_zero (Nat.ne_zero_of_lt hfuel)
  case null => exact ⟨⟨'n', _, rfl, by decide, by decide, by decide⟩, fun rest _ => rfl⟩
  case bool b =>
    cases b with
    | false => exact ⟨⟨'f', _, rfl, by decide, by decide, by decide⟩, fun rest _ => rfl⟩
    | true => exact ⟨⟨'t', _, rfl, by decide, by decide, by decide⟩, fun rest _ => rfl⟩
  case int n => exact reads_int fuel n
  case text s =>
    refine ⟨⟨'"', _, rfl, by decide, by decide, by decide⟩, fun rest _ => ?_⟩
    obtain ⟨tail, htail, htext⟩ := readText_quoted s (Nat.le_of_lt_succ hfuel) rest
    rw [write, htail, readValue, htext]
    simp
  case list items ih =>
    rw [write_list] at hfuel ⊢
    refine ⟨⟨'[', _, rfl, by decide, by decide, by decide⟩, fun rest _ => ?_⟩
    rw [List.cons_append, readValue, readAll_enclosed hlayout (Or.inl rfl)
      (Nat.lt_of_succ_lt_succ hfuel) (fun x hx hpart => ih x hx hpart) rest]
    rfl
  case object fields ih =>
    rw [write_object] at hfuel ⊢
    refine ⟨⟨'\x7b', _, rfl, by decide, by decide, by decide⟩, fun rest _ => ?_⟩
    have hread : ∀ x ∈ fields, (writeField layout (depth + 1) x).length < fuel →
        Reads (readField (readValue fuel) fuel) (writeField layout (depth + 1) x) x := by
      intro x hx hpart
      simp only [writeField, List.length_append] at hpart
      exact reads_field (by omega) (ih x hx (by omega))
    rw [List.cons_append, readValue, readAll_enclosed hlayout (Or.inr rfl)
      (Nat.lt_of_succ_lt_succ hfuel) hread rest]
    rfl

/-- A written value comes back with whatever white space stands after it. -/
theorem read_write_append (hlayout : layout.Spaced) (v : Value) {gap : List Char}
    (hgap : ∀ c ∈ gap, isSpace c = true) :
    read (String.ofList (write layout 0 v ++ gap)) = some v := by
  have hfuel : (write layout 0 v).length < (write layout 0 v ++ gap).length + 1 := by
    rw [List.length_append]
    omega
  have hread := reads_write hlayout hfuel
  have hend : Ended gap := by
    have hnil : Ended [] := fun _ h => nomatch h
    have hgap := ended_append hgap hnil
    rwa [List.append_nil] at hgap
  have hstart := hread.skipSpace_append (List.forall_mem_nil _) gap
  have hgap' := skipSpace_append hgap []
  rw [List.nil_append] at hstart
  rw [List.append_nil] at hgap'
  unfold read
  rw [String.toList_ofList, hstart, hread.read_append gap hend]
  exact if_pos hgap'

/-- An indented document comes back as the value that was arranged for it. -/
theorem read_document (v : Value) : read (document .indented v) = some (v.arrange keyBefore) :=
  read_write_append Layout.spaced_indented _ (List.forall_mem_singleton.2 (by decide))

-- other white space, and upper case in escapes, make no difference
example : read " [1, -20, \x7b\"a\\u00E9\\uD83D\\uDE00\" : null\x7d]\n" =
    some (.list [.int 1, .int (-20), .object [("aé😀", .null)]]) := by rfl

end PropertyWeaver.Json
