import InvoiceFi.Lib.JsValue
import InvoiceFi.Lib.PercentEncoding

/-!
# Reading JSON texts

`JsonParse.parse` is `JSON.parse`. It reads a text from the front; its fuel bounds the nesting, and
is more than a text of its length needs (`readValue_fuel`). The number of a numeral is a parameter,
as it is rounded.

The names of an object may repeat, and the last field of a name counts (`JsValue.get?`). A half of a
surrogate pair, which no text here has, is read as a replacement character.

The rules a development uses by name: `JsonParse.parse_stringify` (the text of a value is read as
that value) and `JsValue.get?_json_value` (so are its properties).
-/

namespace InvoiceFi

/-- `value[name]`, for a value that is not `null`; the last field of the name counts. -/
def JsValue.get? (name : String) : JsValue → Option JsValue
  | .obj fields => fields.reverse.lookup name
  | _ => none

mutual

/-- A written value as it stands. -/
def Json.value : Json → JsValue
  | .null => .null
  | .bool b => .bool b
  | .num n => .num (.finite n)
  | .str s => .str s
  | .arr items => .arr (valueItems items)
  | .obj fields => .obj (valueFields fields)

/-- The items of an array. -/
def valueItems : List Json → List JsValue
  | [] => []
  | item :: rest => item.value :: valueItems rest

/-- The fields of an object. -/
def valueFields : List (String × Json) → List (String × JsValue)
  | [] => []
  | (name, value) :: rest => (name, value.value) :: valueFields rest

end

namespace JsonParse

/-! ## Blanks and literals -/

/-- White space between the tokens of a text. -/
def isBlank (c : Char) : Bool := c = ' ' || c = '\t' || c = '\n' || c = '\r'

/-- What follows the white space at the front. -/
def skip (text : List Char) : List Char := text.dropWhile isBlank

/-- A literal at the front of a text. -/
def readLiteral : List Char → Option (JsValue × List Char)
  | 'n' :: 'u' :: 'l' :: 'l' :: rest => some (.null, rest)
  | 't' :: 'r' :: 'u' :: 'e' :: rest => some (.bool true, rest)
  | 'f' :: 'a' :: 'l' :: 's' :: 'e' :: rest => some (.bool false, rest)
  | _ => none

/-! ## Numbers -/

/-- A character that may stand in a numeral. -/
def isNumberChar (c : Char) : Bool := isNumeralChar c || c = 'E'

/-- `([eE][+-]?[0-9]+)?`. -/
def isExponent : List Char → Bool
  | [] => true
  | e :: rest =>
    let digits := match rest with
      | '+' :: digits => digits
      | '-' :: digits => digits
      | digits => digits
    (e = 'e' || e = 'E') && !digits.isEmpty && digits.all Char.isDigit

/-- `(\.[0-9]+)?([eE][+-]?[0-9]+)?`. -/
def isFraction : List Char → Bool
  | '.' :: rest =>
    !(rest.takeWhile Char.isDigit).isEmpty && isExponent (rest.dropWhile Char.isDigit)
  | rest => isExponent rest

/-- `-?(0|[1-9][0-9]*)(\.[0-9]+)?([eE][+-]?[0-9]+)?`. -/
def isNumber (text : List Char) : Bool :=
  let unsigned := match text with
    | '-' :: rest => rest
    | rest => rest
  let whole := unsigned.takeWhile Char.isDigit
  (whole = ['0'] || !whole.isEmpty && whole.head? ≠ some '0') &&
    isFraction (unsigned.dropWhile Char.isDigit)

/-- A number at the front of a text. -/
def readNumber (number : List Char → JsNumber) (text : List Char) :
    Option (JsValue × List Char) :=
  let numeral := text.takeWhile isNumberChar
  if isNumber numeral then some (.num (number numeral), text.dropWhile isNumberChar) else none

/-! ## Strings -/

/-- The value of four hexadecimal digits. -/
def hexCode? (a b c d : Char) : Option Nat := do
  let a ← Percent.hexDigit? a
  let b ← Percent.hexDigit? b
  let c ← Percent.hexDigit? c
  let d ← Percent.hexDigit? d
  some (((a * 16 + b) * 16 + c) * 16 + d)

/-- The character that a letter stands for after a backslash. -/
def escaped? (letter : Char) : Option Char :=
  if letter = '/' then some '/'
  else (escapes.find? fun p => decide (p.2 = letter)).map Prod.fst

/-- The inside of a string up to its closing quote: characters, and the codes of escapes. -/
def readPieces : List Char → Option (List (Char ⊕ Nat) × List Char)
  | [] => none
  | c :: rest =>
    if c = '\x22' then some ([], rest)
    else if c = '\x5c' then
      match rest with
      | 'u' :: x :: y :: z :: w :: rest => do
        let code ← hexCode? x y z w
        let (pieces, rest) ← readPieces rest
        some (.inr code :: pieces, rest)
      | letter :: rest => do
        let c ← escaped? letter
        let (pieces, rest) ← readPieces rest
        some (.inl c :: pieces, rest)
      | [] => none
    else if c.toNat < 32 then none
    else do
      let (pieces, rest) ← readPieces rest
      some (.inl c :: pieces, rest)

/-- The character of a code, if it is no half of a surrogate pair. -/
def ofCode (code : Nat) : Char :=
  if 0xd800 ≤ code ∧ code ≤ 0xdfff then '\ufffd' else Char.ofNat code

/-- The characters of some pieces, after the first half of a surrogate pair or not. The codes of the
two halves of a pair make one character. -/
def joinFrom : Option Nat → List (Char ⊕ Nat) → List Char
  | none, [] => []
  | some _, [] => ['\ufffd']
  | none, .inl c :: rest => c :: joinFrom none rest
  | some _, .inl c :: rest => '\ufffd' :: c :: joinFrom none rest
  | none, .inr code :: rest =>
    if 0xd800 ≤ code ∧ code ≤ 0xdbff then joinFrom (some code) rest
    else ofCode code :: joinFrom none rest
  | some high, .inr code :: rest =>
    if 0xdc00 ≤ code ∧ code ≤ 0xdfff then
      Char.ofNat (0x10000 + (high - 0xd800) * 0x400 + (code - 0xdc00)) :: joinFrom none rest
    else if 0xd800 ≤ code ∧ code ≤ 0xdbff then '\ufffd' :: joinFrom (some code) rest
    else '\ufffd' :: ofCode code :: joinFrom none rest

/-- A string after its opening quote. -/
def readString (text : List Char) : Option (String × List Char) :=
  (readPieces text).map fun p => (String.ofList (joinFrom none p.1), p.2)

/-! ## Values -/

mutual

/-- A value at the front of a text. -/
def readValue (number : List Char → JsNumber) : Nat → List Char → Option (JsValue × List Char)
  | 0, _ => none
  | _ + 1, [] => none
  | fuel + 1, c :: rest =>
    if c = '\x22' then (readString rest).map fun p => (.str p.1, p.2)
    else if c = '[' then
      if (skip rest).head? = some ']' then some (.arr [], (skip rest).tail)
      else (readItems number fuel rest).map fun p => (.arr p.1, p.2)
    else if c = '\x7b' then
      if (skip rest).head? = some '\x7d' then some (.obj [], (skip rest).tail)
      else (readFields number fuel rest).map fun p => (.obj p.1, p.2)
    else (readLiteral (c :: rest)).orElse fun _ => readNumber number (c :: rest)

/-- The items of an array, and its closing bracket. -/
def readItems (number : List Char → JsNumber) :
    Nat → List Char → Option (List JsValue × List Char)
  | 0, _ => none
  | fuel + 1, text => do
    let (item, rest) ← readValue number fuel (skip text)
    match skip rest with
    | ',' :: rest =>
      let (items, rest) ← readItems number fuel rest
      some (item :: items, rest)
    | ']' :: rest => some ([item], rest)
    | _ => none

/-- The fields of an object, and its closing brace. -/
def readFields (number : List Char → JsNumber) :
    Nat → List Char → Option (List (String × JsValue) × List Char)
  | 0, _ => none
  | fuel + 1, text =>
    match skip text with
    | '\x22' :: rest => do
      let (name, rest) ← readString rest
      match skip rest with
      | ':' :: rest =>
        let (value, rest) ← readValue number fuel (skip rest)
        match skip rest with
        | ',' :: rest =>
          let (fields, rest) ← readFields number fuel rest
          some ((name, value) :: fields, rest)
        | '\x7d' :: rest => some ([(name, value)], rest)
        | _ => none
      | _ => none
    | _ => none

end

/-- `JSON.parse(text)`, which throws where the text is wrong. -/
def parse (number : List Char → JsNumber) (text : List Char) : Option JsValue :=
  match readValue number (2 * text.length + 1) (skip text) with
  | some (value, rest) => if skip rest = [] then some value else none
  | none => none

/-! ## The text of a value is read as that value -/

theorem hexDigit?_digitChar : ∀ n < 16, Percent.hexDigit? (Nat.digitChar n) = some n := by decide

/-- A letter of the table stands for its character, and does not announce a code. -/
theorem escaped?_letter : ∀ p ∈ escapes, p.2 ≠ 'u' ∧ escaped? p.2 = some p.1 := by decide

/-- The piece that a character is written as: control characters are written by their code. -/
def piece (c : Char) : Char ⊕ Nat :=
  if escapes.lookup c = none ∧ c.toNat < 32 then .inr c.toNat else .inl c

theorem readPieces_close (r : List Char) : readPieces ('\x22' :: r) = some ([], r) := by
  rw [readPieces.eq_def]
  rfl

theorem readPieces_code {x y z w : Char} {code : Nat} (h : hexCode? x y z w = some code)
    (rest : List Char) : readPieces ('\x5c' :: 'u' :: x :: y :: z :: w :: rest) =
      (readPieces rest).map fun p => (.inr code :: p.1, p.2) := by
  rw [readPieces.eq_def]
  simp only [Char.reduceEq, ↓reduceIte, h]
  cases readPieces rest <;> rfl

theorem readPieces_letter {letter c : Char} (hu : letter ≠ 'u') (h : escaped? letter = some c)
    (rest : List Char) : readPieces ('\x5c' :: letter :: rest) =
      (readPieces rest).map fun p => (.inl c :: p.1, p.2) := by
  rw [readPieces.eq_def]
  simp only [Char.reduceEq, ↓reduceIte]
  split
  · next heq => exact absurd (List.cons.inj heq).1 hu
  · next heq =>
    cases heq
    rw [h]
    cases readPieces rest <;> rfl
  · next heq => cases heq

theorem readPieces_plain {c : Char} (hquote : c ≠ '\x22') (hslash : c ≠ '\x5c')
    (hge : ¬ c.toNat < 32) (rest : List Char) :
    readPieces (c :: rest) = (readPieces rest).map fun p => (.inl c :: p.1, p.2) := by
  rw [readPieces.eq_def]
  dsimp only
  rw [if_neg hquote, if_neg hslash, if_neg hge]
  cases readPieces rest <;> rfl

/-- A character is read as its piece. -/
theorem readPieces_escape (c : Char) (rest : List Char) :
    readPieces (escape c ++ rest) = (readPieces rest).map fun p => (piece c :: p.1, p.2) := by
  unfold escape piece
  split
  · next letter h =>
    obtain ⟨hu, hescaped⟩ := escaped?_letter _ (mem_escapes h)
    rw [if_neg (by rw [h]; simp)]
    exact readPieces_letter hu hescaped rest
  · next h =>
    split
    · next hlt =>
      have hdiv := hexDigit?_digitChar (c.toNat / 16) (by omega)
      have hmod := hexDigit?_digitChar (c.toNat % 16) (by omega)
      have hzero : Percent.hexDigit? '0' = some 0 := by decide
      have hcode : hexCode? '0' '0' (Nat.digitChar (c.toNat / 16)) (Nat.digitChar (c.toNat % 16)) =
          some c.toNat := by
        simp only [hexCode?, hdiv, hmod, hzero, Option.bind_eq_bind, Option.bind_some]
        congr 1
        omega
      rw [if_pos ⟨h, hlt⟩]
      exact readPieces_code hcode rest
    · next hge =>
      rw [if_neg fun hc => hge hc.2]
      refine readPieces_plain ?_ ?_ hge rest
      · rintro rfl
        cases h
      · rintro rfl
        cases h

/-- The pieces of some characters make them up. -/
theorem joinFrom_piece (cs : List Char) : joinFrom none (cs.map piece) = cs := by
  induction cs with
  | nil => rfl
  | cons c cs ih =>
    rw [List.map_cons, piece]
    split
    · next h =>
      rw [joinFrom, if_neg (by omega), ofCode, if_neg (by omega), Char.ofNat_toNat, ih]
    · rw [joinFrom, ih]

theorem readPieces_quote (cs r : List Char) :
    readPieces (cs.flatMap escape ++ '\x22' :: r) = some (cs.map piece, r) := by
  induction cs with
  | nil => exact readPieces_close r
  | cons c cs ih =>
    rw [List.flatMap_cons, List.append_assoc, readPieces_escape, ih]
    rfl

/-- A string is read up to its closing quote. -/
theorem readString_quote (s : String) (r : List Char) :
    readString (s.toList.flatMap escape ++ '\x22' :: r) = some (s, r) := by
  rw [readString, readPieces_quote, Option.map_some, joinFrom_piece, String.ofList_toList]

/-- The text does not go on with a character of a numeral. -/
def EndsNumber (r : List Char) : Prop := ∀ c ∈ r.head?, isNumberChar c = false

theorem endsNumber_nil : EndsNumber [] := by
  intro c hc
  cases hc

theorem endsNumber_cons {c : Char} (hc : isNumberChar c = false) (r : List Char) :
    EndsNumber (c :: r) := by
  intro d hd
  cases hd
  exact hc

theorem endsNumber_moreItems (items : List Json) (r : List Char) :
    EndsNumber (moreItems items ++ ']' :: r) := by
  cases items with
  | nil => exact endsNumber_cons (by decide) _
  | cons item rest => exact endsNumber_cons (by decide) _

theorem endsNumber_moreFields (fields : List (String × Json)) (r : List Char) :
    EndsNumber (moreFields fields ++ '\x7d' :: r) := by
  cases fields with
  | nil => exact endsNumber_cons (by decide) _
  | cons field rest => exact endsNumber_cons (by decide) _

/-- The numeral is one of a number that is read back from it. -/
def Printed (number : List Char → JsNumber) (n : Numeral) : Prop :=
  isNumber n.chars = true ∧ number n.chars = .finite n

/-- A numeral is read up to a place where no numeral goes on. -/
theorem readNumber_chars {number : List Char → JsNumber} {n : Numeral} (h : Printed number n)
    {r : List Char} (hr : EndsNumber r) :
    readNumber number (n.chars ++ r) = some (.num (.finite n), r) := by
  have hchars : ∀ c ∈ n.chars, isNumberChar c = true := fun c hc => by
    rw [isNumberChar, n.numeral c hc, Bool.true_or]
  have hend : r.takeWhile isNumberChar = [] ∧ r.dropWhile isNumberChar = r := by
    cases r with
    | nil => exact ⟨rfl, rfl⟩
    | cons c r =>
      have hc : isNumberChar c = false := hr c rfl
      exact ⟨by rw [List.takeWhile_cons, hc]; rfl, by rw [List.dropWhile_cons, hc]; rfl⟩
  have htake : (n.chars ++ r).takeWhile isNumberChar = n.chars := by
    rw [List.takeWhile_append_of_pos hchars, hend.1, List.append_nil]
  have hdrop : (n.chars ++ r).dropWhile isNumberChar = r := by
    rw [List.dropWhile_append_of_pos hchars, hend.2]
  unfold readNumber
  rw [htake, hdrop, if_pos h.1, h.2]

/-- The text of a value starts with no white space. -/
theorem chars_head (v : Json) : ∃ c rest, v.chars = c :: rest ∧ isBlank c = false := by
  cases v with
  | null => exact ⟨_, _, rfl, by decide⟩
  | bool b => cases b <;> exact ⟨_, _, rfl, by decide⟩
  | num n =>
    obtain ⟨chars, hne, hnum⟩ := n
    cases chars with
    | nil => exact absurd rfl hne
    | cons c rest =>
      refine ⟨c, rest, rfl, ?_⟩
      have hc := hnum c (.head _)
      by_contra hblank
      rw [Bool.not_eq_false, isBlank] at hblank
      simp only [Bool.or_eq_true, decide_eq_true_eq] at hblank
      rcases hblank with ((rfl | rfl) | rfl) | rfl <;> exact absurd hc (by decide)
  | str s => exact ⟨_, _, rfl, by decide⟩
  | arr items => exact ⟨_, _, rfl, by decide⟩
  | obj fields => exact ⟨_, _, rfl, by decide⟩

theorem skip_cons {c : Char} (hc : isBlank c = false) (r : List Char) : skip (c :: r) = c :: r := by
  rw [skip, List.dropWhile_cons, hc]
  rfl

/-- No white space is skipped before a value. -/
theorem skip_chars (v : Json) (r : List Char) : skip (v.chars ++ r) = v.chars ++ r := by
  obtain ⟨c, rest, hv, hc⟩ := chars_head v
  rw [hv, List.cons_append, skip_cons hc]

mutual

/-- The numerals of a value are those of numbers that are read back from them. -/
def Readable (number : List Char → JsNumber) : Json → Prop
  | .num n => Printed number n
  | .arr items => ReadableItems number items
  | .obj fields => ReadableFields number fields
  | _ => True

/-- The numerals of some items are those of numbers that are read back from them. -/
def ReadableItems (number : List Char → JsNumber) : List Json → Prop
  | [] => True
  | item :: rest => Readable number item ∧ ReadableItems number rest

/-- The numerals of some fields are those of numbers that are read back from them. -/
def ReadableFields (number : List Char → JsNumber) : List (String × Json) → Prop
  | [] => True
  | (_, value) :: rest => Readable number value ∧ ReadableFields number rest

end

/-- A numeral starts neither a string nor an array nor an object nor a literal. -/
theorem readValue_num {number : List Char → JsNumber} {n : Numeral} (h : Printed number n)
    {r : List Char} (hr : EndsNumber r) (fuel : Nat) :
    readValue number (fuel + 1) (n.chars ++ r) = some (.num (.finite n), r) := by
  have hread := readNumber_chars h hr
  obtain ⟨chars, hne, hnum⟩ := n
  cases chars with
  | nil => exact absurd rfl hne
  | cons c rest =>
    have hc := hnum c (.head _)
    have hne : ∀ d, isNumeralChar d = false → c ≠ d := by
      rintro d hd rfl
      rw [hd] at hc
      cases hc
    have hliteral : readLiteral (c :: (rest ++ r)) = none := by
      unfold readLiteral
      split
      · next heq => exact absurd (List.cons.inj heq).1 (hne _ (by decide))
      · next heq => exact absurd (List.cons.inj heq).1 (hne _ (by decide))
      · next heq => exact absurd (List.cons.inj heq).1 (hne _ (by decide))
      · rfl
    rw [List.cons_append, readValue, if_neg (hne _ (by decide)), if_neg (hne _ (by decide)),
      if_neg (hne _ (by decide)), hliteral]
    exact hread

section
variable {number : List Char → JsNumber} {fuel : Nat}

/-- The last item of an array. -/
theorem readItems_last {text r : List Char} {item : JsValue}
    (h : readValue number fuel (skip text) = some (item, ']' :: r)) :
    readItems number (fuel + 1) text = some ([item], r) := by
  rw [readItems, h]
  rfl

/-- An item of an array that is followed by another one. -/
theorem readItems_more {text : List Char} {item : JsValue} (rest : List Char)
    (h : readValue number fuel (skip text) = some (item, ',' :: rest)) :
    readItems number (fuel + 1) text =
      (readItems number fuel rest).map fun p => (item :: p.1, p.2) := by
  rw [readItems, h]
  simp only [Option.bind_eq_bind, Option.bind_some, skip_cons (c := ',') (by decide)]
  cases readItems number fuel rest <;> rfl

/-- The last field of an object. -/
theorem readFields_last {name : String} {text r : List Char} {value : JsValue}
    (h : readValue number fuel (skip text) = some (value, '\x7d' :: r)) :
    readFields number (fuel + 1) (quote name ++ ':' :: text) = some ([(name, value)], r) := by
  rw [readFields, quote, List.cons_append, List.append_assoc, skip_cons (by decide),
    List.cons_append, List.nil_append]
  simp only [readString_quote, Option.bind_eq_bind, Option.bind_some,
    skip_cons (c := ':') (by decide), h, skip_cons (c := '\x7d') (by decide)]

/-- A field of an object that is followed by another one. -/
theorem readFields_more {name : String} {text : List Char} {value : JsValue} (rest : List Char)
    (h : readValue number fuel (skip text) = some (value, ',' :: rest)) :
    readFields number (fuel + 1) (quote name ++ ':' :: text) =
      (readFields number fuel rest).map fun p => ((name, value) :: p.1, p.2) := by
  rw [readFields, quote, List.cons_append, List.append_assoc, skip_cons (by decide),
    List.cons_append, List.nil_append]
  simp only [readString_quote, Option.bind_eq_bind, Option.bind_some,
    skip_cons (c := ':') (by decide), h, skip_cons (c := ',') (by decide)]
  cases readFields number fuel rest <;> rfl

end

mutual

/-- **The text of a value is read as that value**, up to a place where no numeral goes on. -/
theorem readValue_chars {number : List Char → JsNumber} (v : Json) (hv : Readable number v)
    (fuel : Nat) (hfuel : 2 * v.chars.length ≤ fuel) {r : List Char} (hr : EndsNumber r) :
    readValue number fuel (v.chars ++ r) = some (v.value, r) := by
  obtain ⟨fuel, rfl⟩ : ∃ k, fuel = k + 1 := by
    obtain ⟨c, rest, hc, -⟩ := chars_head v
    rw [hc, List.length_cons] at hfuel
    exact ⟨fuel - 1, by omega⟩
  match v with
  | .null => rfl
  | .bool true => rfl
  | .bool false => rfl
  | .num n => exact readValue_num hv hr fuel
  | .str s =>
    rw [Json.chars, quote, List.cons_append, List.append_assoc, readValue, if_pos rfl,
      List.cons_append, List.nil_append, readString_quote]
    rfl
  | .arr [] => rfl
  | .arr (item :: rest) =>
    obtain ⟨c, t, hc, -, hne⟩ := item.chars_cons
    have hskip : skip (itemsChars (item :: rest) ++ ']' :: r) =
        itemsChars (item :: rest) ++ ']' :: r := by
      rw [itemsChars, List.append_assoc, skip_chars]
    have hread := readItems_chars (item :: rest) hv (List.cons_ne_nil _ _) fuel
      (by rw [Json.chars, List.length_cons, List.length_append] at hfuel; simp at hfuel; omega) r
    rw [Json.chars, List.cons_append, List.append_assoc, readValue, if_neg (by decide), if_pos rfl,
      List.cons_append, List.nil_append, hskip, hread, if_neg]
    · rfl
    · rw [itemsChars, hc]
      simpa using hne
  | .obj [] => rfl
  | .obj ((name, value) :: rest) =>
    have hskip : skip (fieldsChars ((name, value) :: rest) ++ '\x7d' :: r) =
        fieldsChars ((name, value) :: rest) ++ '\x7d' :: r := skip_cons (by decide) _
    have hread := readFields_chars ((name, value) :: rest) hv (List.cons_ne_nil _ _) fuel
      (by rw [Json.chars, List.length_cons, List.length_append] at hfuel; simp at hfuel; omega) r
    rw [Json.chars, List.cons_append, List.append_assoc, readValue, if_neg (by decide),
      if_neg (by decide), if_pos rfl, List.cons_append, List.nil_append, hskip, hread, if_neg]
    · rfl
    · rw [fieldsChars, quote]
      simp

theorem readItems_chars {number : List Char → JsNumber} (items : List Json)
    (hitems : ReadableItems number items) (hne : items ≠ []) (fuel : Nat)
    (hfuel : 2 * (itemsChars items).length + 1 ≤ fuel) (r : List Char) :
    readItems number fuel (itemsChars items ++ ']' :: r) = some (valueItems items, r) := by
  obtain ⟨fuel, rfl⟩ : ∃ k, fuel = k + 1 := ⟨fuel - 1, by omega⟩
  match items with
  | [] => exact absurd rfl hne
  | [item] =>
    have hread := readValue_chars item hitems.1 fuel
      (by rw [itemsChars, List.length_append] at hfuel; omega)
      (endsNumber_cons (c := ']') (by decide) r)
    rw [itemsChars, moreItems, List.append_nil]
    exact readItems_last (by rw [skip_chars, hread])
  | item :: next :: rest =>
    have hlen : (itemsChars (item :: next :: rest)).length =
        item.chars.length + ((itemsChars (next :: rest)).length + 1) := List.length_append ..
    have hread := readValue_chars item hitems.1 fuel (by omega)
      (endsNumber_moreItems (next :: rest) r)
    have hmore := readItems_chars (next :: rest) hitems.2 (List.cons_ne_nil _ _) fuel
      (by omega) r
    rw [itemsChars, List.append_assoc,
      readItems_more (itemsChars (next :: rest) ++ ']' :: r) (by rw [skip_chars, hread]; rfl),
      hmore]
    rfl

theorem readFields_chars {number : List Char → JsNumber} (fields : List (String × Json))
    (hfields : ReadableFields number fields) (hne : fields ≠ []) (fuel : Nat)
    (hfuel : 2 * (fieldsChars fields).length + 1 ≤ fuel) (r : List Char) :
    readFields number fuel (fieldsChars fields ++ '\x7d' :: r) = some (valueFields fields, r) := by
  obtain ⟨fuel, rfl⟩ : ∃ k, fuel = k + 1 := ⟨fuel - 1, by omega⟩
  match fields with
  | [] => exact absurd rfl hne
  | [(name, value)] =>
    have hlen : (fieldsChars [(name, value)]).length =
        (quote name).length + ((value.chars ++ moreFields []).length + 1) := List.length_append ..
    rw [List.length_append] at hlen
    have hread := readValue_chars value hfields.1 fuel (by omega)
      (endsNumber_cons (c := '\x7d') (by decide) r)
    rw [fieldsChars, moreFields, List.append_nil, List.append_assoc, List.cons_append]
    exact readFields_last (by rw [skip_chars, hread])
  | (name, value) :: next :: rest =>
    have hlen : (fieldsChars ((name, value) :: next :: rest)).length = (quote name).length +
        ((value.chars ++ ',' :: fieldsChars (next :: rest)).length + 1) := List.length_append ..
    rw [List.length_append, List.length_cons] at hlen
    have hread := readValue_chars value hfields.1 fuel (by omega)
      (endsNumber_moreFields (next :: rest) r)
    have hmore := readFields_chars (next :: rest) hfields.2 (List.cons_ne_nil _ _) fuel
      (by omega) r
    rw [fieldsChars, List.append_assoc, List.cons_append, List.append_assoc,
      readFields_more (fieldsChars (next :: rest) ++ '\x7d' :: r) (by rw [skip_chars, hread]; rfl),
      hmore]
    rfl

end

/-- **The text of a value is read as that value.** -/
theorem parse_stringify {number : List Char → JsNumber} {v : Json} (hv : Readable number v) :
    parse number v.stringify.toList = some v.value := by
  have hread := readValue_chars v hv (2 * v.chars.length + 1) (by omega) endsNumber_nil
  have hskip := skip_chars v []
  rw [List.append_nil] at hread hskip
  rw [Json.stringify, String.toList_ofList, parse, hskip, hread]
  rfl

/-! ## The fuel suffices -/

/-- What follows the part that is read is shorter than the text. -/
def Shortens {α : Type} (read : List Char → Option (α × List Char)) : Prop :=
  ∀ text v rest, read text = some (v, rest) → rest.length < text.length

theorem length_skip (text : List Char) : (skip text).length ≤ text.length :=
  (List.dropWhile_suffix _).length_le

theorem shortens_readPieces : Shortens readPieces := by
  intro text pieces rest h
  fun_induction readPieces text generalizing pieces rest with
  | case1 => cases h
  | case2 =>
    cases h
    exact Nat.lt_succ_self _
  | case3 x y z w tail _ ih =>
    obtain ⟨code, -, h⟩ := Option.bind_eq_some_iff.1 h
    obtain ⟨p, hp, h⟩ := Option.bind_eq_some_iff.1 h
    cases h
    have hlt := ih _ _ hp
    simp only [List.length_cons]
    omega
  | case4 letter tail _ _ ih =>
    obtain ⟨c, -, h⟩ := Option.bind_eq_some_iff.1 h
    obtain ⟨p, hp, h⟩ := Option.bind_eq_some_iff.1 h
    cases h
    have hlt := ih _ _ hp
    simp only [List.length_cons]
    omega
  | case5 => cases h
  | case6 => cases h
  | case7 c tail _ _ _ ih =>
    obtain ⟨p, hp, h⟩ := Option.bind_eq_some_iff.1 h
    cases h
    have hlt := ih _ _ hp
    simp only [List.length_cons]
    omega

theorem shortens_readString : Shortens readString := by
  intro text s rest h
  obtain ⟨p, hp, h⟩ := Option.map_eq_some_iff.1 h
  cases h
  exact shortens_readPieces _ _ _ hp

theorem shortens_readLiteral : Shortens readLiteral := by
  intro text v rest h
  unfold readLiteral at h
  split at h <;> cases h <;> simp only [List.length_cons] <;> omega

theorem shortens_readNumber (number : List Char → JsNumber) : Shortens (readNumber number) := by
  intro text v rest h
  unfold readNumber at h
  dsimp only at h
  split at h
  · next hnumber =>
    cases h
    cases text with
    | nil => exact absurd hnumber (by decide)
    | cons c text =>
      rw [List.dropWhile_cons]
      split
      · exact Nat.lt_succ_of_le (List.dropWhile_suffix _).length_le
      · next hc =>
        rw [List.takeWhile_cons, if_neg hc] at hnumber
        exact absurd hnumber (by decide)
  · cases h

section
variable {number : List Char → JsNumber} {fuel : Nat}

/-- A bracket and what follows it, up to the end of an array or an object. -/
theorem shortens_bracket {α : Type} {read : List Char → Option (α × List Char)}
    (hread : Shortens read) {empty : JsValue} {make : α → JsValue} {close : Char}
    {tail rest : List Char} {v : JsValue}
    (h : (if (skip tail).head? = some close then some (empty, (skip tail).tail)
      else (read tail).map fun p => (make p.1, p.2)) = some (v, rest)) :
    rest.length < tail.length + 1 := by
  have hskip := length_skip tail
  split at h
  · cases h
    rw [List.length_tail]
    omega
  · obtain ⟨p, hp, h⟩ := Option.map_eq_some_iff.1 h
    cases h
    exact (hread _ _ _ hp).trans (Nat.lt_succ_self _)

theorem shortens_readValue (hitems : Shortens (readItems number fuel))
    (hfields : Shortens (readFields number fuel)) : Shortens (readValue number (fuel + 1)) := by
  intro text v rest h
  cases text with
  | nil => cases h
  | cons c tail =>
    rw [readValue] at h
    split at h
    · obtain ⟨p, hp, h⟩ := Option.map_eq_some_iff.1 h
      cases h
      exact (shortens_readString _ _ _ hp).trans (Nat.lt_succ_self _)
    split at h
    · exact shortens_bracket hitems h
    split at h
    · exact shortens_bracket hfields h
    · cases hliteral : readLiteral (c :: tail) with
      | none =>
        rw [hliteral] at h
        exact shortens_readNumber number _ _ _ h
      | some p =>
        rw [hliteral] at h
        cases h
        exact shortens_readLiteral _ _ _ hliteral

theorem shortens_readItems (hvalue : Shortens (readValue number fuel))
    (hitems : Shortens (readItems number fuel)) : Shortens (readItems number (fuel + 1)) := by
  intro text items rest h
  have hskip := length_skip text
  rw [readItems] at h
  obtain ⟨⟨item, rest₁⟩, hitem, h⟩ := Option.bind_eq_some_iff.1 h
  have hlt := hvalue _ _ _ hitem
  have hskip₁ := length_skip rest₁
  dsimp only at h
  split at h
  · next rest₂ heq =>
    rw [heq, List.length_cons] at hskip₁
    obtain ⟨p, hp, h⟩ := Option.bind_eq_some_iff.1 h
    cases h
    have hmore := hitems _ _ _ hp
    omega
  · next rest₂ heq =>
    rw [heq, List.length_cons] at hskip₁
    cases h
    omega
  · cases h

theorem shortens_readFields (hvalue : Shortens (readValue number fuel))
    (hfields : Shortens (readFields number fuel)) : Shortens (readFields number (fuel + 1)) := by
  intro text fields rest h
  have hskip := length_skip text
  rw [readFields] at h
  split at h
  · next tail heq =>
    rw [heq, List.length_cons] at hskip
    obtain ⟨⟨name, rest₁⟩, hname, h⟩ := Option.bind_eq_some_iff.1 h
    have hlt := shortens_readString _ _ _ hname
    have hskip₁ := length_skip rest₁
    dsimp only at h
    split at h
    · next rest₂ heq₁ =>
      rw [heq₁, List.length_cons] at hskip₁
      obtain ⟨⟨value, rest₃⟩, hread, h⟩ := Option.bind_eq_some_iff.1 h
      have hlt₂ := hvalue _ _ _ hread
      have hskip₂ := length_skip rest₂
      have hskip₃ := length_skip rest₃
      dsimp only at h
      split at h
      · next rest₄ heq₂ =>
        rw [heq₂, List.length_cons] at hskip₃
        obtain ⟨p, hp, h⟩ := Option.bind_eq_some_iff.1 h
        cases h
        have hmore := hfields _ _ _ hp
        omega
      · next rest₄ heq₂ =>
        rw [heq₂, List.length_cons] at hskip₃
        cases h
        omega
      · cases h
    · cases h
  · cases h

end

/-- What follows a value, the items of an array or the fields of an object is shorter. -/
theorem shortens_read (number : List Char → JsNumber) (fuel : Nat) :
    Shortens (readValue number fuel) ∧ Shortens (readItems number fuel) ∧
      Shortens (readFields number fuel) := by
  induction fuel with
  | zero => exact ⟨nofun, nofun, nofun⟩
  | succ fuel ih =>
    obtain ⟨hvalue, hitems, hfields⟩ := ih
    exact ⟨shortens_readValue hitems hfields, shortens_readItems hvalue hitems,
      shortens_readFields hvalue hfields⟩

section
variable {number : List Char → JsNumber} {fuel : Nat}
  (hvalue : ∀ text : List Char, 2 * text.length + 1 ≤ fuel →
    readValue number (fuel + 1) text = readValue number fuel text)
include hvalue

theorem readItems_succ (hitems : ∀ text : List Char, 2 * text.length + 2 ≤ fuel →
      readItems number (fuel + 1) text = readItems number fuel text)
    {text : List Char} (hfuel : 2 * text.length + 2 ≤ fuel + 1) :
    readItems number (fuel + 1 + 1) text = readItems number (fuel + 1) text := by
  have hskip := length_skip text
  rw [readItems, readItems, hvalue (skip text) (by omega)]
  refine Option.bind_congr fun p hp => ?_
  have hlt := (shortens_read number fuel).1 _ _ _ hp
  have hskip₁ := length_skip p.2
  dsimp only
  split
  · next rest₂ heq =>
    rw [heq, List.length_cons] at hskip₁
    rw [hitems rest₂ (by omega)]
  · rfl
  · rfl

theorem readFields_succ (hfields : ∀ text : List Char, 2 * text.length + 2 ≤ fuel →
      readFields number (fuel + 1) text = readFields number fuel text)
    {text : List Char} (hfuel : 2 * text.length + 2 ≤ fuel + 1) :
    readFields number (fuel + 1 + 1) text = readFields number (fuel + 1) text := by
  have hskip := length_skip text
  rw [readFields, readFields]
  split
  · next tail heq =>
    rw [heq, List.length_cons] at hskip
    refine Option.bind_congr fun p hp => ?_
    have hlt := shortens_readString _ _ _ hp
    have hskip₁ := length_skip p.2
    dsimp only
    split
    · next rest₂ heq₁ =>
      rw [heq₁, List.length_cons] at hskip₁
      have hskip₂ := length_skip rest₂
      rw [hvalue (skip rest₂) (by omega)]
      refine Option.bind_congr fun q hq => ?_
      have hlt₂ := (shortens_read number fuel).1 _ _ _ hq
      have hskip₃ := length_skip q.2
      split
      · next rest₄ heq₂ =>
        rw [heq₂, List.length_cons] at hskip₃
        rw [hfields rest₄ (by omega)]
      · rfl
      · rfl
    · rfl
  · rfl

end

/-- More fuel than the text needs changes nothing. -/
theorem read_succ (number : List Char → JsNumber) (fuel : Nat) :
    (∀ text : List Char, 2 * text.length + 1 ≤ fuel →
      readValue number (fuel + 1) text = readValue number fuel text) ∧
    (∀ text : List Char, 2 * text.length + 2 ≤ fuel →
      readItems number (fuel + 1) text = readItems number fuel text) ∧
    (∀ text : List Char, 2 * text.length + 2 ≤ fuel →
      readFields number (fuel + 1) text = readFields number fuel text) := by
  induction fuel with
  | zero => exact ⟨nofun, nofun, nofun⟩
  | succ fuel ih =>
    obtain ⟨hvalue, hitems, hfields⟩ := ih
    refine ⟨fun text hfuel => ?_, fun text hfuel => readItems_succ hvalue hitems hfuel,
      fun text hfuel => readFields_succ hvalue hfields hfuel⟩
    cases text with
    | nil => rw [readValue, readValue]
    | cons c rest =>
      rw [List.length_cons] at hfuel
      rw [readValue, readValue, hitems rest (by omega), hfields rest (by omega)]

/-- **The fuel of `parse` is more than the text needs.** -/
theorem readValue_fuel (number : List Char → JsNumber) (text : List Char) {fuel : Nat}
    (hfuel : 2 * text.length + 1 ≤ fuel) :
    readValue number fuel text = readValue number (2 * text.length + 1) text := by
  induction fuel, hfuel using Nat.le_induction with
  | base => rfl
  | succ fuel hfuel ih => rw [(read_succ number fuel).1 text hfuel, ih]

end JsonParse

/-! ## The properties of a value that is written and read -/

theorem lookup_map_snd {α β : Type} (f : α → β) (name : String) (fields : List (String × α)) :
    (fields.map fun field => (field.1, f field.2)).lookup name =
      (fields.lookup name).map f := by
  induction fields with
  | nil => rfl
  | cons field fields ih =>
    rw [List.map_cons, List.lookup_cons, List.lookup_cons, ih]
    cases name == field.1 <;> rfl

theorem valueFields_jsonFields (fields : List (String × JsValue)) :
    valueFields (jsonFields fields) = fields.map fun field => (field.1, field.2.json.value) := by
  induction fields with
  | nil => rfl
  | cons field fields ih => rw [jsonFields, valueFields, ih, List.map_cons]

/-- A property of a value, after the value was written and read. -/
theorem JsValue.get?_json_value (value : JsValue) (name : String) :
    value.json.value.get? name = (value.get? name).map fun found => found.json.value := by
  cases value with
  | null | bool | str | arr => rfl
  | num n => cases n <;> rfl
  | obj fields =>
    rw [JsValue.json, Json.value, JsValue.get?, valueFields_jsonFields, ← List.map_reverse]
    exact lookup_map_snd (fun found : JsValue => found.json.value) name fields.reverse

end InvoiceFi
