import Mathlib.Data.List.Basic

/-!
# Base64

`Base64.encode` writes octets as digits of six bits, with padding. `Base64.decode` reads the digits
of a text, of the usual alphabet and of the one for URLs alike, and passes over everything else, so
that padding is not needed.

The rules a development uses by name: `Base64.decode_digits` and `Base64.decode_encode` (octets are
read back from their digits, with padding and without), and `Base64.exists_of_mem` (which characters
are digits).
-/

namespace InvoiceFi

namespace Base64

/-- The digit of a value. -/
def digit (n : Nat) : Char :=
  if n < 26 then Char.ofNat ('A'.toNat + n)
  else if n < 52 then Char.ofNat ('a'.toNat + (n - 26))
  else if n < 62 then Char.ofNat ('0'.toNat + (n - 52))
  else if n = 62 then '+'
  else '/'

/-- The value of a digit, in either alphabet. -/
def value? (c : Char) : Option Nat :=
  if c.isUpper then some (c.toNat - 'A'.toNat)
  else if c.isLower then some (c.toNat - 'a'.toNat + 26)
  else if c.isDigit then some (c.toNat - '0'.toNat + 52)
  else if c = '+' ∨ c = '-' then some 62
  else if c = '/' ∨ c = '_' then some 63
  else none

/-- The values of the digits of some octets. -/
def sextets : List UInt8 → List Nat
  | a :: b :: c :: rest =>
    a.toNat / 4 :: (a.toNat % 4 * 16 + b.toNat / 16) :: (b.toNat % 16 * 4 + c.toNat / 64) ::
      c.toNat % 64 :: sextets rest
  | [a, b] => [a.toNat / 4, a.toNat % 4 * 16 + b.toNat / 16, b.toNat % 16 * 4]
  | [a] => [a.toNat / 4, a.toNat % 4 * 16]
  | [] => []

/-- The octets of the values of some digits. Bits that fill no octet are passed over. -/
def octets : List Nat → List UInt8
  | a :: b :: c :: d :: rest =>
    .ofNat (a * 4 + b / 16) :: .ofNat (b % 16 * 16 + c / 4) :: .ofNat (c % 4 * 64 + d) ::
      octets rest
  | [a, b, c] => [.ofNat (a * 4 + b / 16), .ofNat (b % 16 * 16 + c / 4)]
  | [a, b] => [.ofNat (a * 4 + b / 16)]
  | _ => []

/-- The digits of some octets. -/
def digits (bytes : List UInt8) : List Char := (sextets bytes).map digit

/-- The text of some octets: their digits, padded to groups of four. -/
def encode (bytes : List UInt8) : List Char :=
  digits bytes ++ List.replicate ((3 - bytes.length % 3) % 3) '='

/-- The octets that a text stands for. -/
def decode (text : List Char) : List UInt8 := octets (text.filterMap value?)

example : encode (("light wo".toList).map fun c => .ofNat c.toNat) = "bGlnaHQgd28=".toList := by
  decide

theorem value?_digit : ∀ n < 64, value? (digit n) = some n := by decide

theorem sextets_lt (bytes : List UInt8) : ∀ n ∈ sextets bytes, n < 64 := by
  induction bytes using sextets.induct with
  | case1 a b c rest ih =>
    have ha := a.toNat_lt
    have hb := b.toNat_lt
    have hc := c.toNat_lt
    rw [sextets]
    simp only [List.mem_cons]
    rintro n (rfl | rfl | rfl | rfl | hn)
    · omega
    · omega
    · omega
    · omega
    · exact ih n hn
  | case2 a b =>
    have ha := a.toNat_lt
    have hb := b.toNat_lt
    rw [sextets]
    simp only [List.mem_cons, List.not_mem_nil, or_false]
    rintro n (rfl | rfl | rfl)
    · omega
    · omega
    · omega
  | case3 a =>
    have ha := a.toNat_lt
    rw [sextets]
    simp only [List.mem_cons, List.not_mem_nil, or_false]
    rintro n (rfl | rfl)
    · omega
    · omega
  | case4 => exact nofun

theorem ofNat_eq {a : UInt8} {n : Nat} (h : n = a.toNat) : UInt8.ofNat n = a := by
  rw [h, UInt8.ofNat_toNat]

/-- Octets are read back from their values. -/
theorem octets_sextets (bytes : List UInt8) : octets (sextets bytes) = bytes := by
  induction bytes using sextets.induct with
  | case1 a b c rest ih =>
    have ha := a.toNat_lt
    have hb := b.toNat_lt
    have hc := c.toNat_lt
    rw [sextets, octets, ih, ofNat_eq (a := a) (by omega), ofNat_eq (a := b) (by omega),
      ofNat_eq (a := c) (by omega)]
  | case2 a b =>
    have ha := a.toNat_lt
    have hb := b.toNat_lt
    rw [sextets, octets, ofNat_eq (a := a) (by omega), ofNat_eq (a := b) (by omega)]
  | case3 a =>
    have ha := a.toNat_lt
    rw [sextets, octets, ofNat_eq (a := a) (by omega)]
  | case4 => rfl

/-- The digits of some values are read as them. -/
theorem filterMap_digit {values : List Nat} (h : ∀ n ∈ values, n < 64) :
    (values.map digit).filterMap value? = values := by
  rw [List.filterMap_map]
  exact (List.filterMap_congr fun n hn => value?_digit n (h n hn)).trans List.filterMap_some

/-- **Octets are read back from their digits.** -/
theorem decode_digits (bytes : List UInt8) : decode (digits bytes) = bytes := by
  rw [decode, digits, filterMap_digit (sextets_lt bytes), octets_sextets]

/-- Octets are read back from their text: the padding is passed over. -/
theorem decode_encode (bytes : List UInt8) : decode (encode bytes) = bytes := by
  have hpadding : ∀ n, (List.replicate n '=').filterMap value? = [] := by
    intro n
    induction n with
    | zero => rfl
    | succ n ih => exact ih
  rw [decode, encode, List.filterMap_append, hpadding, List.append_nil]
  exact decode_digits bytes

/-- The digits are those of six bits. -/
theorem exists_of_mem {bytes : List UInt8} {c : Char} (hc : c ∈ digits bytes) :
    ∃ n < 64, digit n = c := by
  obtain ⟨n, hn, rfl⟩ := List.mem_map.1 hc
  exact ⟨n, sextets_lt bytes n hn, rfl⟩

end Base64

end InvoiceFi
