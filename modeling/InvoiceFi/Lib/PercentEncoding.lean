import InvoiceFi.Lib.Utf8

/-!
# Percent-encoding

`Percent.decode` is `decodeURIComponent`: `%` and two hexadecimal digits stand for an octet, and the
octets have to be those of characters.

The rules a development uses by name: `Percent.decode_eq_some_iff` (what is read, and as what) and
`Percent.encoded_self` (a text without `%` stands for itself).
-/

namespace InvoiceFi

namespace Percent

/-- The value of a hexadecimal digit. -/
def hexDigit? (c : Char) : Option Nat :=
  if c.isDigit then some (c.toNat - '0'.toNat)
  else if 'a' ≤ c ∧ c ≤ 'f' then some (c.toNat - 'a'.toNat + 10)
  else if 'A' ≤ c ∧ c ≤ 'F' then some (c.toNat - 'A'.toNat + 10)
  else none

/-- The octet of two hexadecimal digits. -/
def octet? (x y : Char) : Option UInt8 := do
  let high ← hexDigit? x
  let low ← hexDigit? y
  some (.ofNat (high * 16 + low))

/-- What a text stands for, from a place between characters or inside one. -/
def decodeFrom : Option Utf8.State → List Char → Option (List Char)
  | none, [] => some []
  | some _, [] => none
  | st, '%' :: x :: y :: rest =>
    match octet? x y with
    | some octet =>
      match Utf8.read st octet with
      | .char c => (decodeFrom none rest).map (c :: ·)
      | .more st => decodeFrom (some st) rest
      | .invalid => none
    | none => none
  | none, c :: rest => if c = '%' then none else (decodeFrom none rest).map (c :: ·)
  | some _, _ :: _ => none

/-- `decodeURIComponent(text)`, which throws where the text is wrong. -/
def decode (text : List Char) : Option (List Char) := decodeFrom none text

example : decode "%e2%82%AC 5".toList = some ['€', ' ', '5'] := by decide

/-- The text is some octets, each written as `%` and two digits. -/
inductive Escaped : List Char → List UInt8 → Prop
  | nil : Escaped [] []
  | cons {x y : Char} {octet : UInt8} {text : List Char} {octets : List UInt8} :
    octet? x y = some octet → Escaped text octets →
      Escaped ('%' :: x :: y :: text) (octet :: octets)

/-- The text is another one, some characters of which are written by their octets. -/
inductive Encoded : List Char → List Char → Prop
  | nil : Encoded [] []
  | plain {c : Char} {text out : List Char} : c ≠ '%' → Encoded text out →
    Encoded (c :: text) (c :: out)
  | octets {c : Char} {escape text out : List Char} : Escaped escape (Utf8.encodeChar c) →
    Encoded text out → Encoded (escape ++ text) (c :: out)

/-- A text without `%` stands for itself. -/
theorem encoded_self {text : List Char} (h : '%' ∉ text) : Encoded text text := by
  induction text with
  | nil => exact .nil
  | cons c text ih =>
    rw [List.mem_cons, not_or] at h
    exact .plain (Ne.symm h.1) (ih h.2)

/-- Octets that complete a character are read as it, whatever follows. -/
theorem decodeFrom_escaped {escape : List Char} {octets : List UInt8} (h : Escaped escape octets)
    {c : Char} (text : List Char) : ∀ {st : Option Utf8.State}, Utf8.readChar st octets = some c →
      decodeFrom st (escape ++ text) = (decodeFrom none text).map (c :: ·) := by
  induction h with
  | nil =>
    intro st hread
    rw [Utf8.readChar] at hread
    cases hread
  | @cons x y octet rest octets hoctet hrest ih =>
    intro st hread
    rw [Utf8.readChar] at hread
    rw [List.cons_append, List.cons_append, List.cons_append, decodeFrom, hoctet]
    dsimp only
    cases hst : Utf8.read st octet with
    | char d =>
      rw [hst] at hread
      dsimp only at hread
      split at hread
      · next hnil =>
        subst hnil
        cases hrest
        rw [Option.some.inj hread, List.nil_append]
      · cases hread
    | more st' =>
      rw [hst] at hread
      exact ih hread
    | invalid =>
      rw [hst] at hread
      cases hread

theorem decodeFrom_plain {c : Char} (hc : c ≠ '%') (text : List Char) :
    decodeFrom none (c :: text) = (decodeFrom none text).map (c :: ·) := by
  rw [decodeFrom, if_neg hc]
  intro x y rest hpercent
  exact absurd hpercent hc

theorem decode_of_encoded {text out : List Char} (h : Encoded text out) :
    decode text = some out := by
  induction h with
  | nil => rfl
  | plain hc _ ih =>
    rw [decode] at ih ⊢
    rw [decodeFrom_plain hc, ih]
    rfl
  | octets hescape _ ih =>
    rw [decode] at ih ⊢
    rw [decodeFrom_escaped hescape _ (Utf8.readChar_encodeChar _), ih]
    rfl

/-- What the text stands for, from a place between characters or inside one. -/
def EncodedFrom : Option Utf8.State → List Char → List Char → Prop
  | none, text, out => Encoded text out
  | some st, text, out => ∃ escape octets c rest out', text = escape ++ rest ∧ out = c :: out' ∧
      Escaped escape octets ∧ Utf8.readChar (some st) octets = some c ∧ Encoded rest out'

/-- An octet, and the ones after it that complete a character. -/
theorem encodedFrom_octets {st : Option Utf8.State} {x y : Char} {octet : UInt8}
    (hoctet : octet? x y = some octet) {escape : List Char} {octets : List UInt8}
    (hescape : Escaped escape octets) {c : Char}
    (hread : Utf8.readChar st (octet :: octets) = some c) {text out : List Char}
    (h : Encoded text out) : EncodedFrom st ('%' :: x :: y :: (escape ++ text)) (c :: out) := by
  cases st with
  | none =>
    have hchar : Escaped ('%' :: x :: y :: escape) (octet :: octets) := .cons hoctet hescape
    rw [Utf8.eq_encodeChar hread] at hchar
    exact .octets hchar h
  | some st => exact ⟨_, _, c, text, out, rfl, rfl, .cons hoctet hescape, hread, h⟩

theorem encodedFrom_of_decodeFrom (st : Option Utf8.State) {text out : List Char}
    (h : decodeFrom st text = some out) : EncodedFrom st text out := by
  fun_induction decodeFrom st text generalizing out with
  | case1 =>
    cases h
    exact .nil
  | case2 => cases h
  | case3 st x y rest octet hoctet c hread ih =>
    obtain ⟨out, hout, rfl⟩ := Option.map_eq_some_iff.1 h
    exact encodedFrom_octets hoctet .nil (by rw [Utf8.readChar, hread]; rfl) (ih hout)
  | case4 st x y rest octet hoctet st' hread ih =>
    obtain ⟨escape, octets, c, text, out', rfl, rfl, hescape, hrest, henc⟩ := ih h
    exact encodedFrom_octets hoctet hescape (by rw [Utf8.readChar, hread]; exact hrest) henc
  | case5 => cases h
  | case6 => cases h
  | case7 => cases h
  | case8 c rest hne hc ih =>
    obtain ⟨out, hout, rfl⟩ := Option.map_eq_some_iff.1 h
    exact .plain hc (ih hout)
  | case9 => cases h

/-- **A text is read exactly if it is one whose characters are written as they are or by their
octets.** -/
theorem decode_eq_some_iff {text out : List Char} : decode text = some out ↔ Encoded text out :=
  ⟨fun h => encodedFrom_of_decodeFrom none h, decode_of_encoded⟩

end Percent

end InvoiceFi
