import Mathlib.Data.List.Basic

/-!
# UTF-8

`Utf8.encode` writes characters as octets. `Utf8.decode` reads any octets, with a replacement
character for each stretch of them that starts no character or breaks off inside one, as decoders
of the Encoding standard do: `Utf8.read` is their step from octet to octet.

The rules a development uses by name: `Utf8.readChar_encodeChar` and `Utf8.eq_encodeChar` (the
octets of a character are read as that character, and no others are) and `Utf8.decode_encode`
(characters are read back from their octets).
-/

namespace InvoiceFi

namespace Utf8

/-- The octets of a character. -/
def encodeChar (c : Char) : List UInt8 :=
  let n := c.toNat
  if n < 0x80 then [.ofNat n]
  else if n < 0x800 then [.ofNat (0xc0 + n / 0x40), .ofNat (0x80 + n % 0x40)]
  else if n < 0x10000 then
    [.ofNat (0xe0 + n / 0x1000), .ofNat (0x80 + n / 0x40 % 0x40), .ofNat (0x80 + n % 0x40)]
  else
    [.ofNat (0xf0 + n / 0x40000), .ofNat (0x80 + n / 0x1000 % 0x40),
      .ofNat (0x80 + n / 0x40 % 0x40), .ofNat (0x80 + n % 0x40)]

/-- The octets of a text. -/
def encode (text : List Char) : List UInt8 := text.flatMap encodeChar

/-- A decoder inside a character: the bits read, the number of octets that it needs, and the bounds
of the next one. -/
structure State where
  bits : Nat
  needed : Nat
  lower : Nat
  upper : Nat

/-- What a decoder makes of an octet: it completes a character, it is inside one, or it is wrong. -/
inductive Read where
  | char (c : Char)
  | more (st : State)
  | invalid

/-- The first octet of a character. -/
def first (octet : UInt8) : Read :=
  let n := octet.toNat
  if n < 0x80 then .char (Char.ofNat n)
  else if 0xc2 ≤ n ∧ n ≤ 0xdf then .more ⟨n - 0xc0, 1, 0x80, 0xbf⟩
  else if 0xe0 ≤ n ∧ n ≤ 0xef then
    .more ⟨n - 0xe0, 2, if n = 0xe0 then 0xa0 else 0x80, if n = 0xed then 0x9f else 0xbf⟩
  else if 0xf0 ≤ n ∧ n ≤ 0xf4 then
    .more ⟨n - 0xf0, 3, if n = 0xf0 then 0x90 else 0x80, if n = 0xf4 then 0x8f else 0xbf⟩
  else .invalid

/-- An octet inside a character. -/
def next (st : State) (octet : UInt8) : Read :=
  let n := octet.toNat
  if st.lower ≤ n ∧ n ≤ st.upper then
    let bits := st.bits * 0x40 + (n - 0x80)
    if st.needed = 1 then .char (Char.ofNat bits)
    else .more ⟨bits, st.needed - 1, 0x80, 0xbf⟩
  else .invalid

/-- An octet, between characters or inside one. -/
def read (st : Option State) (octet : UInt8) : Read :=
  match st with
  | none => first octet
  | some st => next st octet

/-- The character that some octets complete. -/
def readChar : Option State → List UInt8 → Option Char
  | _, [] => none
  | st, octet :: rest =>
    match read st octet with
    | .char c => if rest = [] then some c else none
    | .more st => readChar (some st) rest
    | .invalid => none

/-- The character that stands for octets that are wrong. -/
def replacement : Char := '\ufffd'

/-- The text of some octets, for a decoder between characters or inside one. -/
def decodeFrom : Option State → List UInt8 → List Char
  | none, [] => []
  | some _, [] => [replacement]
  | st, octet :: rest =>
    match read st octet with
    | .char c => c :: decodeFrom none rest
    | .more st => decodeFrom (some st) rest
    | .invalid =>
      match st with
      | none => replacement :: decodeFrom none rest
      | some _ =>
        -- an octet that breaks off a character may start another one
        replacement :: match first octet with
          | .char c => c :: decodeFrom none rest
          | .more st => decodeFrom (some st) rest
          | .invalid => replacement :: decodeFrom none rest

/-- The text of some octets. -/
def decode (octets : List UInt8) : List Char := decodeFrom none octets

/-- Three octets that break off inside a character, one that starts none, and a letter. -/
example : decode [0xf0, 0x9f, 0x98, 0xff, 0x61] = [replacement, replacement, 'a'] := by decide

/-! ## The octets of a character -/

/-- The number of a character is that of a code point, and of no half of a surrogate pair. -/
theorem toNat_bounds (c : Char) : c.toNat < 0xd800 ∨ 0xdfff < c.toNat ∧ c.toNat < 0x110000 :=
  c.valid

theorem toNat_ofNat {n : Nat} (h : n < 0x100) : (UInt8.ofNat n).toNat = n := by
  rw [UInt8.toNat_ofNat']
  exact Nat.mod_eq_of_lt h

theorem first_ofNat {n : Nat} (h : n < 0x100) : first (.ofNat n) =
    if n < 0x80 then .char (Char.ofNat n)
    else if 0xc2 ≤ n ∧ n ≤ 0xdf then .more ⟨n - 0xc0, 1, 0x80, 0xbf⟩
    else if 0xe0 ≤ n ∧ n ≤ 0xef then
      .more ⟨n - 0xe0, 2, if n = 0xe0 then 0xa0 else 0x80, if n = 0xed then 0x9f else 0xbf⟩
    else if 0xf0 ≤ n ∧ n ≤ 0xf4 then
      .more ⟨n - 0xf0, 3, if n = 0xf0 then 0x90 else 0x80, if n = 0xf4 then 0x8f else 0xbf⟩
    else .invalid := by
  rw [first, toNat_ofNat h]

/-- The last octet of a character. -/
theorem next_last {bits lower upper x : Nat} (hlower : lower ≤ 0x80 + x) (hupper : 0x80 + x ≤ upper)
    (hx : x < 0x40) :
    next ⟨bits, 1, lower, upper⟩ (.ofNat (0x80 + x)) = .char (Char.ofNat (bits * 0x40 + x)) := by
  rw [next, toNat_ofNat (by omega), if_pos ⟨hlower, hupper⟩, if_pos rfl, Nat.add_sub_cancel_left]

/-- An octet inside a character that is not its last. -/
theorem next_more {bits needed lower upper x : Nat} (hneeded : needed ≠ 1)
    (hlower : lower ≤ 0x80 + x) (hupper : 0x80 + x ≤ upper) (hx : x < 0x40) :
    next ⟨bits, needed, lower, upper⟩ (.ofNat (0x80 + x)) =
      .more ⟨bits * 0x40 + x, needed - 1, 0x80, 0xbf⟩ := by
  rw [next, toNat_ofNat (by omega), if_pos ⟨hlower, hupper⟩, if_neg hneeded,
    Nat.add_sub_cancel_left]

theorem readChar_last {bits lower upper x : Nat} (hlower : lower ≤ 0x80 + x)
    (hupper : 0x80 + x ≤ upper) (hx : x < 0x40) :
    readChar (some ⟨bits, 1, lower, upper⟩) [.ofNat (0x80 + x)] =
      some (Char.ofNat (bits * 0x40 + x)) := by
  rw [readChar, read, next_last hlower hupper hx]
  rfl

theorem readChar_more {bits needed lower upper x : Nat} (hneeded : needed ≠ 1)
    (hlower : lower ≤ 0x80 + x) (hupper : 0x80 + x ≤ upper) (hx : x < 0x40) (rest : List UInt8) :
    readChar (some ⟨bits, needed, lower, upper⟩) (.ofNat (0x80 + x) :: rest) =
      readChar (some ⟨bits * 0x40 + x, needed - 1, 0x80, 0xbf⟩) rest := by
  rw [readChar, read, next_more hneeded hlower hupper hx]

/-- **The octets of a character are read as that character.** -/
theorem readChar_encodeChar (c : Char) : readChar none (encodeChar c) = some c := by
  have hbounds := toNat_bounds c
  generalize hn : c.toNat = n at hbounds
  have hc : Char.ofNat n = c := by rw [← hn, Char.ofNat_toNat]
  unfold encodeChar
  rw [hn]
  dsimp only
  split
  · next h1 =>
    simp only [readChar, read, first_ofNat (show n < 0x100 by omega), h1, ↓reduceIte, hc]
  split
  · next h1 h2 =>
    rw [readChar, read, first_ofNat (by omega), if_neg (by omega), if_pos (by omega)]
    dsimp only
    rw [readChar_last (by omega) (by omega) (by omega), ← hc]
    congr 2
    omega
  split
  · next h1 h2 h3 =>
    rw [readChar, read, first_ofNat (by omega), if_neg (by omega), if_neg (by omega),
      if_pos (by omega)]
    dsimp only
    rw [readChar_more (by decide) (by split <;> omega) (by split <;> omega) (by omega),
      readChar_last (by omega) (by omega) (by omega), ← hc]
    congr 2
    omega
  · next h1 h2 h3 =>
    rw [readChar, read, first_ofNat (by omega), if_neg (by omega), if_neg (by omega),
      if_neg (by omega), if_pos (by omega)]
    dsimp only
    rw [readChar_more (by decide) (by split <;> omega) (by split <;> omega) (by omega),
      readChar_more (by decide) (by omega) (by omega) (by omega),
      readChar_last (by omega) (by omega) (by omega), ← hc]
    congr 2
    omega

/-! ## The octets that are read as a character -/

theorem toNat_char {n : Nat} (h : n < 0xd800 ∨ 0xdfff < n ∧ n < 0x110000) :
    (Char.ofNat n).toNat = n := by
  rw [Char.ofNat, dif_pos h]
  rfl

/-- An octet inside a character adds six bits. -/
theorem readChar_inside {bits needed lower upper : Nat} (hlower : 0x80 ≤ lower)
    (hupper : upper ≤ 0xbf) {octets : List UInt8} {c : Char}
    (h : readChar (some ⟨bits, needed, lower, upper⟩) octets = some c) :
    ∃ x rest, octets = .ofNat (0x80 + x) :: rest ∧ lower ≤ 0x80 + x ∧ 0x80 + x ≤ upper ∧
      if needed = 1 then rest = [] ∧ Char.ofNat (bits * 0x40 + x) = c
      else readChar (some ⟨bits * 0x40 + x, needed - 1, 0x80, 0xbf⟩) rest = some c := by
  cases octets with
  | nil => cases h
  | cons octet rest =>
    rw [readChar, read] at h
    by_cases hbounds : lower ≤ octet.toNat ∧ octet.toNat ≤ upper
    · have hx : 0x80 + (octet.toNat - 0x80) = octet.toNat := by omega
      have hoctet : octet = .ofNat (0x80 + (octet.toNat - 0x80)) := by rw [hx, UInt8.ofNat_toNat]
      refine ⟨octet.toNat - 0x80, rest, congrArg (· :: rest) hoctet, by omega, by omega, ?_⟩
      by_cases hone : needed = 1
      · subst hone
        rw [hoctet, next_last (by omega) (by omega) (by omega)] at h
        dsimp only at h
        rw [if_pos rfl]
        split at h
        · next hnil => exact ⟨hnil, Option.some.inj h⟩
        · cases h
      · rw [hoctet, next_more hone (by omega) (by omega) (by omega)] at h
        rw [if_neg hone]
        exact h
    · rw [next] at h
      dsimp only at h
      rw [if_neg hbounds] at h
      cases h

theorem encodeChar_two {n x : Nat} (hn : 0xc2 ≤ n ∧ n ≤ 0xdf) (hx : x < 0x40) :
    encodeChar (Char.ofNat ((n - 0xc0) * 0x40 + x)) = [.ofNat n, .ofNat (0x80 + x)] := by
  generalize hm : (n - 0xc0) * 0x40 + x = m
  have h₁ : 0xc0 + m / 0x40 = n := by omega
  have h₂ : m % 0x40 = x := by omega
  rw [encodeChar, toNat_char (by omega), if_neg (by omega), if_pos (by omega), h₁, h₂]

theorem encodeChar_three {n x y : Nat} (hn : 0xe0 ≤ n ∧ n ≤ 0xef) (hx : x < 0x40) (hy : y < 0x40)
    (hlong : n = 0xe0 → 0x20 ≤ x) (hsurrogate : n = 0xed → x < 0x20) :
    encodeChar (Char.ofNat (((n - 0xe0) * 0x40 + x) * 0x40 + y)) =
      [.ofNat n, .ofNat (0x80 + x), .ofNat (0x80 + y)] := by
  generalize hm : ((n - 0xe0) * 0x40 + x) * 0x40 + y = m
  have h₁ : 0xe0 + m / 0x1000 = n := by omega
  have h₂ : m / 0x40 % 0x40 = x := by omega
  have h₃ : m % 0x40 = y := by omega
  rw [encodeChar, toNat_char (by omega), if_neg (by omega), if_neg (by omega), if_pos (by omega),
    h₁, h₂, h₃]

theorem encodeChar_four {n x y z : Nat} (hn : 0xf0 ≤ n ∧ n ≤ 0xf4) (hx : x < 0x40) (hy : y < 0x40)
    (hz : z < 0x40) (hlong : n = 0xf0 → 0x10 ≤ x) (hbig : n = 0xf4 → x < 0x10) :
    encodeChar (Char.ofNat ((((n - 0xf0) * 0x40 + x) * 0x40 + y) * 0x40 + z)) =
      [.ofNat n, .ofNat (0x80 + x), .ofNat (0x80 + y), .ofNat (0x80 + z)] := by
  generalize hm : (((n - 0xf0) * 0x40 + x) * 0x40 + y) * 0x40 + z = m
  have h₁ : 0xf0 + m / 0x40000 = n := by omega
  have h₂ : m / 0x1000 % 0x40 = x := by omega
  have h₃ : m / 0x40 % 0x40 = y := by omega
  have h₄ : m % 0x40 = z := by omega
  rw [encodeChar, toNat_char (by omega), if_neg (by omega), if_neg (by omega), if_neg (by omega),
    h₁, h₂, h₃, h₄]

/-- **Octets that are read as a character are the octets of it**: they are not longer than they need
to be, and stand for no half of a surrogate pair. -/
theorem eq_encodeChar {octets : List UInt8} {c : Char} (h : readChar none octets = some c) :
    octets = encodeChar c := by
  cases octets with
  | nil => cases h
  | cons octet rest =>
    obtain ⟨n, hn, rfl⟩ : ∃ n < 0x100, octet = .ofNat n :=
      ⟨_, octet.toNat_lt, UInt8.ofNat_toNat.symm⟩
    rw [readChar, read, first_ofNat hn] at h
    by_cases h1 : n < 0x80
    · rw [if_pos h1] at h
      dsimp only at h
      split at h
      · next hnil => rw [← Option.some.inj h, encodeChar, toNat_char (by omega), if_pos h1, hnil]
      · cases h
    rw [if_neg h1] at h
    by_cases h2 : 0xc2 ≤ n ∧ n ≤ 0xdf
    · rw [if_pos h2] at h
      obtain ⟨x, rest, rfl, -, hx, rfl, rfl⟩ := readChar_inside (by decide) (by decide) h
      exact (encodeChar_two h2 (by omega)).symm
    rw [if_neg h2] at h
    by_cases h3 : 0xe0 ≤ n ∧ n ≤ 0xef
    · rw [if_pos h3] at h
      obtain ⟨x, rest, rfl, hlower, hupper, h⟩ :=
        readChar_inside (by split <;> decide) (by split <;> decide) h
      obtain ⟨y, rest, rfl, -, hy, rfl, rfl⟩ := readChar_inside (by decide) (by decide) h
      refine (encodeChar_three h3 ?_ (by omega) (fun h => ?_) (fun h => ?_)).symm
      · split at hupper <;> omega
      · rw [if_pos h] at hlower
        omega
      · rw [if_pos h] at hupper
        omega
    rw [if_neg h3] at h
    by_cases h4 : 0xf0 ≤ n ∧ n ≤ 0xf4
    · rw [if_pos h4] at h
      obtain ⟨x, rest, rfl, hlower, hupper, h⟩ :=
        readChar_inside (by split <;> decide) (by split <;> decide) h
      obtain ⟨y, rest, rfl, -, hy, h⟩ := readChar_inside (by decide) (by decide) h
      obtain ⟨z, rest, rfl, -, hz, rfl, rfl⟩ := readChar_inside (by decide) (by decide) h
      refine (encodeChar_four h4 ?_ (by omega) (by omega) (fun h => ?_) (fun h => ?_)).symm
      · split at hupper <;> omega
      · rw [if_pos h] at hlower
        omega
      · rw [if_pos h] at hupper
        omega
    · rw [if_neg h4] at h
      cases h

/-! ## Reading texts -/

theorem decodeFrom_char {st : Option State} {octet : UInt8} {c : Char}
    (h : read st octet = .char c) (rest : List UInt8) :
    decodeFrom st (octet :: rest) = c :: decodeFrom none rest := by
  cases st with
  | none => simp only [decodeFrom, h]
  | some st => simp only [decodeFrom, h]

theorem decodeFrom_more {st : Option State} {octet : UInt8} {st' : State}
    (h : read st octet = .more st') (rest : List UInt8) :
    decodeFrom st (octet :: rest) = decodeFrom (some st') rest := by
  cases st with
  | none => simp only [decodeFrom, h]
  | some st => simp only [decodeFrom, h]

/-- Octets that complete a character are read as it, whatever follows. -/
theorem decodeFrom_append {octets : List UInt8} {c : Char} (rest : List UInt8) :
    ∀ {st : Option State}, readChar st octets = some c →
      decodeFrom st (octets ++ rest) = c :: decodeFrom none rest := by
  induction octets with
  | nil =>
    intro st h
    rw [readChar] at h
    cases h
  | cons octet octets ih =>
    intro st h
    rw [readChar] at h
    rw [List.cons_append]
    cases hread : read st octet with
    | char d =>
      rw [hread] at h
      dsimp only at h
      split at h
      · next hnil =>
        cases h
        rw [decodeFrom_char hread, hnil, List.nil_append]
      · cases h
    | more st' =>
      rw [hread] at h
      rw [decodeFrom_more hread]
      exact ih h
    | invalid =>
      rw [hread] at h
      cases h

/-- **Characters are read back from their octets.** -/
theorem decode_encode (text : List Char) : decode (encode text) = text := by
  induction text with
  | nil => rfl
  | cons c text ih =>
    rw [decode, encode, List.flatMap_cons, decodeFrom_append _ (readChar_encodeChar c)]
    exact congrArg _ ih

end Utf8

end InvoiceFi
