import Mathlib.Data.List.TakeWhile

/-!
# JSON values and their text

`Json.stringify` writes a value without blanks and keeps the order of the fields of an object, as
`JSON.stringify` does. A number stands for the numeral it is written as.

The text determines the value (`Json.stringify_injective`). The proof reads two texts from the
front: the first character tells the kind of a value (`Json.chars_cons`), a numeral ends where no
character of a numeral follows (`Numeral.append_inj`), a string where its closing quote stands
(`quote_append_inj`), and the items and fields of a value end at its closing bracket
(`Json.append_inj`).
-/

namespace InvoiceFi

/-! ## Strings -/

/-- The characters that are written with a backslash and a letter. -/
def escapes : List (Char × Char) :=
  [('\x08', 'b'), ('\x09', 't'), ('\x0a', 'n'), ('\x0c', 'f'), ('\x0d', 'r'), ('\x22', '\x22'),
    ('\x5c', '\x5c')]

/-- A character inside a string. The other control characters are written by their code. -/
def escape (c : Char) : List Char :=
  match escapes.lookup c with
  | some letter => ['\x5c', letter]
  | none =>
    if c.toNat < 32 then
      ['\x5c', 'u', '0', '0', Nat.digitChar (c.toNat / 16), Nat.digitChar (c.toNat % 16)]
    else [c]

/-- A string between its quotes. -/
def quote (s : String) : List Char := '\x22' :: (s.toList.flatMap escape ++ ['\x22'])

/-- The value of a hexadecimal digit. -/
def hexValue (c : Char) : Nat :=
  if c.isDigit then c.toNat - '0'.toNat else c.toNat - 'a'.toNat + 10

/-- The character at the front of the inside of a string, and what follows it. -/
def unescape : List Char → Option (Char × List Char)
  | [] => none
  | c :: rest =>
    if c = '\x5c' then
      match rest with
      | [] => none
      | letter :: rest =>
        if letter = 'u' then
          some (Char.ofNat (16 * hexValue (rest.getD 2 '0') + hexValue (rest.getD 3 '0')),
            rest.drop 4)
        else (escapes.find? fun p => decide (p.2 = letter)).map fun p => (p.1, rest)
    else some (c, rest)

theorem hexValue_digitChar : ∀ n < 16, hexValue (Nat.digitChar n) = n := by decide

/-- A letter stands for one character, and is not the one that announces a code. -/
theorem escapes_letter : ∀ p ∈ escapes, p.2 ≠ 'u' ∧
    escapes.find? (fun q => decide (q.2 = p.2)) = some p := by decide

theorem mem_escapes {c letter : Char} (h : escapes.lookup c = some letter) :
    (c, letter) ∈ escapes := by
  obtain ⟨l₁, l₂, heq, -⟩ := List.lookup_eq_some_iff.1 h
  rw [heq]
  exact List.mem_append_right _ (.head _)

/-- A character is read back from what it is written as. -/
theorem unescape_escape (c : Char) (rest : List Char) :
    unescape (escape c ++ rest) = some (c, rest) := by
  unfold escape
  split
  · next letter h =>
    obtain ⟨hu, hfind⟩ := escapes_letter _ (mem_escapes h)
    simp [unescape, hu, hfind]
  · next h =>
    split
    · next hlt =>
      have hcode : 16 * (c.toNat / 16) + c.toNat % 16 = c.toNat := Nat.div_add_mod _ _
      simp [unescape, hexValue_digitChar (c.toNat / 16) (by omega),
        hexValue_digitChar (c.toNat % 16) (by omega), hcode]
    · have hne : c ≠ '\x5c' := by
        rintro rfl
        cases h
      simp [unescape, hne]

/-- What a character is written as starts with another character than a quote. -/
theorem escape_cons (c : Char) : ∃ x rest, escape c = x :: rest ∧ x ≠ '\x22' := by
  unfold escape
  split
  · exact ⟨_, _, rfl, by decide⟩
  · next h =>
    split
    · exact ⟨_, _, rfl, by decide⟩
    · refine ⟨_, _, rfl, ?_⟩
      rintro rfl
      cases h

/-- Two strings that are written alike up to their closing quote are equal. -/
theorem flatMap_escape_inj : ∀ (cs ds : List Char) {r r' : List Char},
    cs.flatMap escape ++ '\x22' :: r = ds.flatMap escape ++ '\x22' :: r' → cs = ds ∧ r = r'
  | [], [], r, r', h => ⟨rfl, (List.cons.inj h).2⟩
  | [], d :: ds, r, r', h => by
    obtain ⟨x, rest, hd, hx⟩ := escape_cons d
    rw [List.flatMap_cons, hd] at h
    exact absurd (List.cons.inj h).1.symm hx
  | c :: cs, [], r, r', h => by
    obtain ⟨x, rest, hc, hx⟩ := escape_cons c
    rw [List.flatMap_cons, hc] at h
    exact absurd (List.cons.inj h).1 hx
  | c :: cs, d :: ds, r, r', h => by
    simp only [List.flatMap_cons, List.append_assoc] at h
    have hread := congrArg unescape h
    rw [unescape_escape, unescape_escape] at hread
    obtain ⟨rfl, hrest⟩ := Prod.mk.inj (Option.some.inj hread)
    obtain ⟨rfl, hr⟩ := flatMap_escape_inj cs ds hrest
    exact ⟨rfl, hr⟩

theorem quote_append_inj {s s' : String} {r r' : List Char}
    (h : quote s ++ r = quote s' ++ r') : s = s' ∧ r = r' := by
  simp only [quote, List.cons_append, List.append_assoc, List.nil_append, List.cons.injEq,
    true_and] at h
  obtain ⟨hs, hr⟩ := flatMap_escape_inj _ _ h
  exact ⟨String.toList_inj.1 hs, hr⟩

/-! ## Numerals -/

/-- The characters that a number is written with. -/
def isNumeralChar (c : Char) : Bool := c.isDigit || c = '-' || c = '+' || c = '.' || c = 'e'

/-- The text of a number. -/
structure Numeral where
  chars : List Char
  ne_nil : chars ≠ []
  numeral : ∀ c ∈ chars, isNumeralChar c = true

/-- The text of a natural number. -/
def Numeral.ofNat (n : Nat) : Numeral where
  chars := Nat.toDigits 10 n
  ne_nil := Nat.toDigits_ne_nil
  numeral c hc := by
    have hdigit := Nat.isDigit_of_mem_toDigits (by decide) (by decide) hc
    simp [isNumeralChar, hdigit]

/-- The text does not go on with a character of a numeral. -/
def Ends (r : List Char) : Prop := ∀ c ∈ r.head?, isNumeralChar c = false

theorem ends_nil : Ends [] := by
  intro c hc
  cases hc

theorem Numeral.takeWhile_append (n : Numeral) {r : List Char} (hr : Ends r) :
    (n.chars ++ r).takeWhile isNumeralChar = n.chars := by
  rw [List.takeWhile_append_of_pos n.numeral]
  cases r with
  | nil => simp
  | cons c r => simp [hr c rfl]

theorem Numeral.append_inj {n n' : Numeral} {r r' : List Char} (hr : Ends r) (hr' : Ends r')
    (h : n.chars ++ r = n'.chars ++ r') : n = n' ∧ r = r' := by
  have hchars : n.chars = n'.chars := by
    rw [← n.takeWhile_append hr, h, n'.takeWhile_append hr']
  rw [hchars] at h
  refine ⟨?_, List.append_cancel_left h⟩
  cases n
  cases n'
  cases hchars
  rfl

/-! ## Values -/

/-- A JSON value. The fields of an object are in the order they are written in. -/
inductive Json where
  | null
  | bool (b : Bool)
  | num (n : Numeral)
  | str (s : String)
  | arr (items : List Json)
  | obj (fields : List (String × Json))

mutual

/-- The text of a value. -/
def Json.chars : Json → List Char
  | .null => ['n', 'u', 'l', 'l']
  | .bool true => ['t', 'r', 'u', 'e']
  | .bool false => ['f', 'a', 'l', 's', 'e']
  | .num n => n.chars
  | .str s => quote s
  | .arr items => '[' :: (itemsChars items ++ [']'])
  | .obj fields => '\x7b' :: (fieldsChars fields ++ ['\x7d'])

/-- The items of an array, separated by commas. -/
def itemsChars : List Json → List Char
  | [] => []
  | item :: rest => item.chars ++ moreItems rest

/-- The items after the first one. -/
def moreItems : List Json → List Char
  | [] => []
  | item :: rest => ',' :: (item.chars ++ moreItems rest)

/-- The fields of an object, separated by commas. -/
def fieldsChars : List (String × Json) → List Char
  | [] => []
  | (name, value) :: rest => quote name ++ ':' :: (value.chars ++ moreFields rest)

/-- The fields after the first one. -/
def moreFields : List (String × Json) → List Char
  | [] => []
  | (name, value) :: rest => ',' :: (quote name ++ ':' :: (value.chars ++ moreFields rest))

end

/-- `JSON.stringify(value)`. -/
def Json.stringify (value : Json) : String := String.ofList value.chars

/-- The text has no blanks, and keeps the order of the fields. -/
example :
    (Json.obj [("amount", .null), ("note", .str "a\nb"), ("ids", .arr [.bool true])]).stringify =
      "\x7b\"amount\":null,\"note\":\"a\\nb\",\"ids\":[true]\x7d" := by decide +kernel

/-! ## Indented texts -/

/-- The start of a line, with two blanks for each level. -/
def newline (level : Nat) : List Char := '\n' :: List.replicate (2 * level) ' '

mutual

/-- The text of a value, each item and each field on a line of its own, one level deeper than the
line that the value starts on. -/
def Json.indented (level : Nat) : Json → List Char
  | .null => Json.null.chars
  | .bool b => (Json.bool b).chars
  | .num n => n.chars
  | .str s => quote s
  | .arr [] => ['[', ']']
  | .arr items => '[' :: (indentedItems (level + 1) items ++ newline level ++ [']'])
  | .obj [] => ['\x7b', '\x7d']
  | .obj fields => '\x7b' :: (indentedFields (level + 1) fields ++ newline level ++ ['\x7d'])

/-- The items of an array, separated by commas. -/
def indentedItems (level : Nat) : List Json → List Char
  | [] => []
  | [item] => newline level ++ item.indented level
  | item :: rest => newline level ++ item.indented level ++ ',' :: indentedItems level rest

/-- The fields of an object, separated by commas. -/
def indentedFields (level : Nat) : List (String × Json) → List Char
  | [] => []
  | [(name, value)] => newline level ++ quote name ++ [':', ' '] ++ value.indented level
  | (name, value) :: rest =>
    newline level ++ quote name ++ [':', ' '] ++ value.indented level ++
      ',' :: indentedFields level rest

end

/-- `JSON.stringify(value, null, 2)`. -/
def Json.stringifyIndented (value : Json) : String := String.ofList (value.indented 0)

example :
    (Json.obj [("ids", .arr [.bool true, .arr []]), ("note", .null)]).stringifyIndented =
      "\x7b\n  \"ids\": [\n    true,\n    []\n  ],\n  \"note\": null\n\x7d" := by decide +kernel

/-! ## The text determines the value -/

/-- Which constructor a value is built with. -/
def Json.kind : Json → Nat
  | .null => 0
  | .bool _ => 1
  | .num _ => 2
  | .str _ => 3
  | .arr _ => 4
  | .obj _ => 5

/-- Which constructor a value is built with whose text starts with the character. -/
def kindOfHead (c : Char) : Nat :=
  if c = 'n' then 0
  else if c = 't' ∨ c = 'f' then 1
  else if c = '\x22' then 3
  else if c = '[' then 4
  else if c = '\x7b' then 5
  else 2

theorem kindOfHead_numeral {c : Char} (h : isNumeralChar c = true) : kindOfHead c = 2 := by
  have hne : ∀ d, isNumeralChar d = false → c ≠ d := by
    rintro d hd rfl
    rw [hd] at h
    cases h
  simp [kindOfHead, hne 'n' (by decide), hne 't' (by decide), hne 'f' (by decide),
    hne '\x22' (by decide), hne '[' (by decide), hne '\x7b' (by decide)]

/-- The first character of the text of a value tells how the value is built. -/
theorem Json.chars_cons (v : Json) :
    ∃ c rest, v.chars = c :: rest ∧ kindOfHead c = v.kind ∧ c ≠ ']' := by
  cases v with
  | null => exact ⟨_, _, rfl, rfl, by decide⟩
  | bool b => cases b <;> exact ⟨_, _, rfl, rfl, by decide⟩
  | num n =>
    obtain ⟨chars, hne, hnum⟩ := n
    cases chars with
    | nil => exact absurd rfl hne
    | cons c rest =>
      refine ⟨c, rest, rfl, kindOfHead_numeral (hnum c (.head _)), ?_⟩
      rintro rfl
      exact absurd (hnum _ (.head _)) (by decide)
  | str s => exact ⟨_, _, rfl, rfl, by decide⟩
  | arr items => exact ⟨_, _, rfl, rfl, by decide⟩
  | obj fields => exact ⟨_, _, rfl, rfl, by decide⟩

/-- Values whose texts start alike are built with the same constructor. -/
theorem Json.kind_eq {v w : Json} {r r' : List Char} (h : v.chars ++ r = w.chars ++ r') :
    v.kind = w.kind := by
  obtain ⟨c, rest, hv, hc, -⟩ := v.chars_cons
  obtain ⟨d, rest', hw, hd, -⟩ := w.chars_cons
  rw [hv, hw] at h
  rw [← hc, ← hd, (List.cons.inj h).1]

theorem ends_moreItems (items : List Json) (r : List Char) :
    Ends (moreItems items ++ ']' :: r) := by
  cases items with
  | nil =>
    intro c hc
    cases hc
    rfl
  | cons item rest =>
    intro c hc
    cases hc
    rfl

theorem ends_moreFields (fields : List (String × Json)) (r : List Char) :
    Ends (moreFields fields ++ '\x7d' :: r) := by
  cases fields with
  | nil =>
    intro c hc
    cases hc
    rfl
  | cons field rest =>
    intro c hc
    cases hc
    rfl

/-- Two arrays that are written alike are written alike with a comma before their items. -/
theorem moreItems_of_itemsChars {items items' : List Json} {r r' : List Char}
    (h : itemsChars items ++ ']' :: r = itemsChars items' ++ ']' :: r') :
    moreItems items ++ ']' :: r = moreItems items' ++ ']' :: r' := by
  match items, items' with
  | [], [] => exact h
  | [], item' :: rest' =>
    obtain ⟨c, t, hc, -, hne⟩ := item'.chars_cons
    rw [itemsChars, itemsChars, hc] at h
    exact absurd (List.cons.inj h).1.symm hne
  | item :: rest, [] =>
    obtain ⟨c, t, hc, -, hne⟩ := item.chars_cons
    rw [itemsChars, itemsChars, hc] at h
    exact absurd (List.cons.inj h).1 hne
  | item :: rest, item' :: rest' => exact congrArg (',' :: ·) h

/-- Two objects that are written alike are written alike with a comma before their fields. -/
theorem moreFields_of_fieldsChars {fields fields' : List (String × Json)} {r r' : List Char}
    (h : fieldsChars fields ++ '\x7d' :: r = fieldsChars fields' ++ '\x7d' :: r') :
    moreFields fields ++ '\x7d' :: r = moreFields fields' ++ '\x7d' :: r' := by
  match fields, fields' with
  | [], [] => exact h
  | [], (name', value') :: rest' => exact absurd (List.cons.inj h).1 (by decide)
  | (name, value) :: rest, [] => exact absurd (List.cons.inj h).1 (by decide)
  | (name, value) :: rest, (name', value') :: rest' => exact congrArg (',' :: ·) h

mutual

/-- Two values that are written alike, up to a place where no numeral goes on, are equal. -/
theorem Json.append_inj (v w : Json) {r r' : List Char} (hr : Ends r) (hr' : Ends r')
    (h : v.chars ++ r = w.chars ++ r') : v = w ∧ r = r' := by
  have hkind := Json.kind_eq h
  match v, w with
  | .null, .null => exact ⟨rfl, List.append_cancel_left h⟩
  | .bool true, .bool true => exact ⟨rfl, List.append_cancel_left h⟩
  | .bool false, .bool false => exact ⟨rfl, List.append_cancel_left h⟩
  | .bool true, .bool false => exact absurd (List.cons.inj h).1 (by decide)
  | .bool false, .bool true => exact absurd (List.cons.inj h).1 (by decide)
  | .num n, .num n' =>
    obtain ⟨rfl, hrest⟩ := Numeral.append_inj hr hr' h
    exact ⟨rfl, hrest⟩
  | .str s, .str s' =>
    obtain ⟨rfl, hrest⟩ := quote_append_inj h
    exact ⟨rfl, hrest⟩
  | .arr items, .arr items' =>
    simp only [Json.chars, List.cons_append, List.append_assoc, List.nil_append, List.cons.injEq,
      true_and] at h
    obtain ⟨rfl, hrest⟩ := moreItems_inj items items' (moreItems_of_itemsChars h)
    exact ⟨rfl, hrest⟩
  | .obj fields, .obj fields' =>
    simp only [Json.chars, List.cons_append, List.append_assoc, List.nil_append, List.cons.injEq,
      true_and] at h
    obtain ⟨rfl, hrest⟩ := moreFields_inj fields fields' (moreFields_of_fieldsChars h)
    exact ⟨rfl, hrest⟩

theorem moreItems_inj (items items' : List Json) {r r' : List Char}
    (h : moreItems items ++ ']' :: r = moreItems items' ++ ']' :: r') :
    items = items' ∧ r = r' := by
  match items, items' with
  | [], [] => exact ⟨rfl, (List.cons.inj h).2⟩
  | [], item' :: rest' => exact absurd (List.cons.inj h).1 (by decide)
  | item :: rest, [] => exact absurd (List.cons.inj h).1 (by decide)
  | item :: rest, item' :: rest' =>
    rw [moreItems, moreItems, List.cons_append, List.cons_append, List.append_assoc,
      List.append_assoc] at h
    obtain ⟨rfl, hmore⟩ := Json.append_inj item item' (ends_moreItems rest r)
      (ends_moreItems rest' r') (List.cons.inj h).2
    obtain ⟨rfl, hrest⟩ := moreItems_inj rest rest' hmore
    exact ⟨rfl, hrest⟩

theorem moreFields_inj (fields fields' : List (String × Json)) {r r' : List Char}
    (h : moreFields fields ++ '\x7d' :: r = moreFields fields' ++ '\x7d' :: r') :
    fields = fields' ∧ r = r' := by
  match fields, fields' with
  | [], [] => exact ⟨rfl, (List.cons.inj h).2⟩
  | [], (name', value') :: rest' => exact absurd (List.cons.inj h).1 (by decide)
  | (name, value) :: rest, [] => exact absurd (List.cons.inj h).1 (by decide)
  | (name, value) :: rest, (name', value') :: rest' =>
    rw [moreFields, moreFields, List.cons_append, List.cons_append, List.append_assoc,
      List.append_assoc] at h
    obtain ⟨rfl, hvalue⟩ := quote_append_inj (List.cons.inj h).2
    rw [List.cons_append, List.cons_append, List.append_assoc, List.append_assoc] at hvalue
    obtain ⟨rfl, hmore⟩ := Json.append_inj value value' (ends_moreFields rest r)
      (ends_moreFields rest' r') (List.cons.inj hvalue).2
    obtain ⟨rfl, hrest⟩ := moreFields_inj rest rest' hmore
    exact ⟨rfl, hrest⟩

end

/-- **The text determines the value.** -/
theorem Json.stringify_injective : Function.Injective Json.stringify := by
  intro v w h
  have hchars : v.chars ++ [] = w.chars ++ [] := by
    rw [List.append_nil, List.append_nil]
    exact String.ofList_injective h
  exact (Json.append_inj v w ends_nil ends_nil hchars).1

end InvoiceFi
