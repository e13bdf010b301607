import InvoiceFi.Backend.Compliance.Exports
import Mathlib.Algebra.Order.Ring.Rat
import Mathlib.Tactic.FieldSimp
import Mathlib.Tactic.Ring

/-!
# Decimal texts of amounts (`compliance/amount.ts`)

`DecimalText` is a decimal text read: its sign, the digits of its whole part and those of its
fraction. `decimalToMinorUnits` reads its characters as the amount that it denotes, if the fraction
has no more digits than the asset (`decimalToMinorUnits_chars`), and `minorUnitsToDecimal` prints
the text with exactly the digits of the asset (`minorUnitsToDecimal_eq`). Reading what was printed
gives the amount back (`decimalToMinorUnits_minorUnitsToDecimal`), and printing what was read gives
a text of the same number (`amounts_inverse`).
-/

namespace InvoiceFi

namespace Backend

namespace Compliance

/-- A decimal text: a sign, the digits of the whole part, and those of the fraction. -/
structure DecimalText where
  negative : Bool
  whole : List Char
  fraction : List Char
  whole_ne_nil : whole ≠ []
  whole_digits : ∀ c ∈ whole, c.isDigit = true
  fraction_digits : ∀ c ∈ fraction, c.isDigit = true

namespace DecimalText

/-- What follows the whole part. -/
def tail (text : DecimalText) : List Char :=
  if text.fraction = [] then [] else '.' :: text.fraction

/-- The characters of the text. -/
def chars (text : DecimalText) : List Char :=
  (if text.negative then ['-'] else []) ++ (text.whole ++ text.tail)

/-- The digits of the amount, with zeros up to `decimals` digits of the fraction. -/
def scaled (text : DecimalText) (decimals : Nat) : List Char :=
  text.whole ++ text.fraction ++ List.replicate (decimals - text.fraction.length) '0'

/-- The amount in minor units. -/
def minorUnits (text : DecimalText) (decimals : Nat) : Int :=
  if text.negative then -Nat.ofDigitChars 10 (text.scaled decimals) 0
  else Nat.ofDigitChars 10 (text.scaled decimals) 0

end DecimalText

/-! ## Reading -/

/-- A digit is neither white space nor a sign nor a point. -/
theorem digit_cases {c : Char} (h : c.isDigit = true) : isSpace c = false ∧ c ≠ '-' ∧ c ≠ '.' := by
  obtain ⟨hge, hle⟩ := Char.isDigit_iff_toNat.1 h
  have h0 : '0'.toNat = 48 := rfl
  have h9 : '9'.toNat = 57 := rfl
  refine ⟨?_, ?_, ?_⟩
  · unfold isSpace
    simp only [Bool.or_eq_false_iff, decide_eq_false_iff_not, List.mem_cons, List.not_mem_nil,
      or_false, Bool.and_eq_false_iff]
    omega
  · rintro rfl
    exact absurd h (by decide)
  · rintro rfl
    exact absurd h (by decide)

/-- A text that neither starts nor ends with white space is its own trimmed text. -/
theorem trim_eq_self {text : List Char} (hhead : ∀ c ∈ text.head?, isSpace c = false)
    (hlast : ∀ c ∈ text.getLast?, isSpace c = false) : trim text = text := by
  have hdrop : ∀ l : List Char, (∀ c ∈ l.head?, isSpace c = false) → l.dropWhile isSpace = l := by
    intro l hl
    cases l with
    | nil => rfl
    | cons c l => rw [List.dropWhile_cons_of_neg (by rw [hl c rfl]; decide)]
  rw [trim, hdrop text hhead, hdrop text.reverse (by rwa [List.head?_reverse]),
    List.reverse_reverse]

namespace DecimalText

variable (text : DecimalText)

theorem chars_head (c : Char) (h : c ∈ text.chars.head?) : c = '-' ∨ c.isDigit = true := by
  unfold chars at h
  split at h
  · exact .inl (Option.some.inj h).symm
  · rw [List.nil_append, List.head?_append_of_ne_nil _ text.whole_ne_nil] at h
    exact .inr (text.whole_digits c (List.mem_of_head? h))

theorem chars_last (c : Char) (h : c ∈ text.chars.getLast?) : c.isDigit = true := by
  unfold chars tail at h
  by_cases hfraction : text.fraction = []
  · rw [if_pos hfraction, List.append_nil, List.getLast?_append_of_ne_nil _ text.whole_ne_nil] at h
    exact text.whole_digits c (List.mem_of_getLast? h)
  · rw [if_neg hfraction, ← List.append_assoc,
      List.getLast?_append_of_ne_nil _ (List.cons_ne_nil _ _), List.getLast?_cons_of_ne_nil hfraction]
      at h
    exact text.fraction_digits c (List.mem_of_getLast? h)

theorem trim_chars : trim text.chars = text.chars := by
  refine trim_eq_self (fun c hc => ?_) fun c hc => (digit_cases (text.chars_last c hc)).1
  rcases text.chars_head c hc with rfl | hdigit
  · decide
  · exact (digit_cases hdigit).1

/-- The whole part is what is read up to the first character that is no digit. -/
theorem takeWhile_chars :
    (text.whole ++ text.tail).takeWhile Char.isDigit = text.whole ∧
      (text.whole ++ text.tail).dropWhile Char.isDigit = text.tail := by
  have htail : text.tail.takeWhile Char.isDigit = [] ∧
      text.tail.dropWhile Char.isDigit = text.tail := by
    unfold tail
    split
    · exact ⟨rfl, rfl⟩
    · exact ⟨rfl, rfl⟩
  rw [List.takeWhile_append_of_pos text.whole_digits,
    List.dropWhile_append_of_pos text.whole_digits, htail.1, htail.2, List.append_nil]
  exact ⟨rfl, rfl⟩

theorem fractionDigits_tail : fractionDigits text.tail = some text.fraction := by
  unfold tail
  split
  · next h => rw [h]; rfl
  · next h =>
    rw [fractionDigits, if_pos ⟨rfl, h, List.all_eq_true.2 text.fraction_digits⟩]

/-- **Reading a decimal text**, with white space around it. The amount is read, unless the fraction
has more digits than the asset. -/
theorem decimalToMinorUnits_of_trim {value : String} (h : trim value.toList = text.chars)
    (decimals : Nat) : decimalToMinorUnits value decimals =
      if decimals < text.fraction.length then
        .error ("Amount \"" ++ value ++ "\" exceeds " ++ toString decimals ++
          " decimal places of precision")
      else .ok (text.minorUnits decimals) := by
  -- the sign, and what follows it
  have hsign : (text.chars.head? = some '-' ↔ text.negative = true) ∧
      (text.negative = true → text.chars.tail = text.whole ++ text.tail) ∧
      (text.negative = false → text.chars = text.whole ++ text.tail) := by
    unfold chars
    cases text.negative with
    | true => exact ⟨iff_of_true rfl rfl, fun _ => rfl, nofun⟩
    | false =>
      refine ⟨iff_of_false (fun h => ?_) nofun, nofun, fun _ => rfl⟩
      rw [if_neg (by decide), List.nil_append, List.head?_append_of_ne_nil _ text.whole_ne_nil] at h
      exact (digit_cases (text.whole_digits _ (List.mem_of_head? h))).2.1 rfl
  have hunsigned : (if text.chars.head? = some '-' then text.chars.tail else text.chars) =
      text.whole ++ text.tail := by
    cases hnegative : text.negative with
    | true => rw [if_pos (hsign.1.2 hnegative), hsign.2.1 hnegative]
    | false => rw [if_neg (by rw [hsign.1, hnegative]; decide), hsign.2.2 hnegative]
  have hvalue : decimalValue (String.ofList (text.scaled decimals)) =
      Nat.ofDigitChars 10 (text.scaled decimals) 0 := by
    rw [decimalValue, String.toList_ofList, Nat.ofDigitChars_eq_foldl]
  unfold decimalToMinorUnits
  dsimp only
  rw [h, hunsigned, text.takeWhile_chars.1, text.takeWhile_chars.2, text.fractionDigits_tail]
  dsimp only
  rw [if_neg text.whole_ne_nil]
  split
  · rfl
  · unfold scaled at hvalue
    rw [hvalue, minorUnits, if_congr hsign.1 rfl rfl]
    rfl

theorem decimalToMinorUnits_chars (decimals : Nat) :
    decimalToMinorUnits (String.ofList text.chars) decimals =
      if decimals < text.fraction.length then
        .error ("Amount \"" ++ String.ofList text.chars ++ "\" exceeds " ++ toString decimals ++
          " decimal places of precision")
      else .ok (text.minorUnits decimals) :=
  text.decimalToMinorUnits_of_trim (by rw [String.toList_ofList, trim_chars]) decimals

end DecimalText

/-- What is read as a fraction is one, with its point. -/
theorem fractionDigits_eq_some {rest fraction : List Char}
    (h : fractionDigits rest = some fraction) : (∀ c ∈ fraction, c.isDigit = true) ∧
      rest = if fraction = [] then [] else '.' :: fraction := by
  cases rest with
  | nil =>
    cases h
    exact ⟨nofun, rfl⟩
  | cons c digits =>
    rw [fractionDigits] at h
    split at h
    · next hc =>
      obtain ⟨rfl, hne, hdigits⟩ := hc
      cases h
      exact ⟨List.all_eq_true.1 hdigits, by rw [if_neg hne]⟩
    · cases h

/-- What follows the sign of a text. -/
def unsigned (trimmed : List Char) : List Char :=
  if trimmed.head? = some '-' then trimmed.tail else trimmed

/-- A text that is read is a decimal text. -/
theorem exists_text {trimmed fraction : List Char}
    (hfraction : fractionDigits ((unsigned trimmed).dropWhile Char.isDigit) = some fraction)
    (hwhole : (unsigned trimmed).takeWhile Char.isDigit ≠ []) :
    ∃ text : DecimalText, trimmed = text.chars := by
  obtain ⟨hdigits, hrest⟩ := fractionDigits_eq_some hfraction
  refine ⟨⟨decide (trimmed.head? = some '-'), _, fraction, hwhole,
    fun c hc => List.mem_takeWhile_imp hc, hdigits⟩, ?_⟩
  have hchars : trimmed = (if trimmed.head? = some '-' then ['-'] else []) ++ unsigned trimmed := by
    unfold unsigned
    split
    · next hminus => exact (List.cons_head?_tail hminus).symm
    · rfl
  rw [DecimalText.chars, DecimalText.tail, ← hrest, List.takeWhile_append_dropWhile,
    if_congr decide_eq_true_iff rfl rfl]
  exact hchars

/-- **Texts that are no decimal texts are rejected.** -/
theorem decimalToMinorUnits_malformed {value : String} (decimals : Nat)
    (h : ¬ ∃ text : DecimalText, trim value.toList = text.chars) :
    decimalToMinorUnits value decimals = .error ("Invalid decimal amount: \"" ++ value ++ "\"") := by
  unfold decimalToMinorUnits
  dsimp only
  split
  · rfl
  · next fraction hfraction =>
    rw [if_pos]
    by_contra hwhole
    exact h (exists_text hfraction hwhole)

/-! ## Printing -/

/-- The digits of an amount, with zeros in front so that there is a whole part. -/
def paddedDigits (value : Int) (decimals : Nat) : List Char :=
  List.replicate (decimals + 1 - (Nat.toDigits 10 value.natAbs).length) '0' ++
    Nat.toDigits 10 value.natAbs

theorem paddedDigits_isDigit {value : Int} {decimals : Nat} {c : Char}
    (h : c ∈ paddedDigits value decimals) : c.isDigit = true := by
  rcases List.mem_append.1 h with h | h
  · rw [(List.mem_replicate.1 h).2]
    decide
  · exact Nat.isDigit_of_mem_toDigits (by decide) (by decide) h

theorem lt_length_paddedDigits (value : Int) (decimals : Nat) :
    decimals < (paddedDigits value decimals).length := by
  rw [paddedDigits, List.length_append, List.length_replicate]
  omega

/-- The text of an amount, with `decimals` digits of the fraction. -/
def decimalText (value : Int) (decimals : Nat) : DecimalText where
  negative := decide (value < 0)
  whole := (paddedDigits value decimals).take ((paddedDigits value decimals).length - decimals)
  fraction := (paddedDigits value decimals).drop ((paddedDigits value decimals).length - decimals)
  whole_ne_nil h := by
    have hlt := lt_length_paddedDigits value decimals
    have hlen := congrArg List.length h
    rw [List.length_take, List.length_nil] at hlen
    omega
  whole_digits c h := paddedDigits_isDigit (List.mem_of_mem_take h)
  fraction_digits c h := paddedDigits_isDigit (List.mem_of_mem_drop h)

theorem fraction_decimalText (value : Int) (decimals : Nat) :
    (decimalText value decimals).fraction.length = decimals := by
  have hlt := lt_length_paddedDigits value decimals
  rw [decimalText, List.length_drop]
  omega

/-- **Printing an amount.** -/
theorem minorUnitsToDecimal_eq (value : Int) (decimals : Nat) :
    minorUnitsToDecimal value decimals = String.ofList (decimalText value decimals).chars := by
  have hdigits : (padStart (decimals + 1) (toString value.natAbs)).toList =
      paddedDigits value decimals := by
    change (padStart (decimals + 1) (Nat.repr value.natAbs)).toList = _
    rw [padStart, String.toList_append, String.toList_ofList, Nat.toList_repr, String.length,
      Nat.toList_repr, paddedDigits]
  have hlength := fraction_decimalText value decimals
  have hempty : (if 0 < decimals then
        String.ofList ((paddedDigits value decimals).drop
          ((paddedDigits value decimals).length - decimals)) else "") =
      String.ofList (decimalText value decimals).fraction := by
    split
    · rfl
    · rw [List.eq_nil_of_length_eq_zero (hlength.trans (by omega))]
  apply String.toList_inj.1
  unfold minorUnitsToDecimal
  dsimp only
  rw [hdigits, hempty, String.toList_ofList, DecimalText.chars, DecimalText.tail]
  have hnil : String.ofList (decimalText value decimals).fraction = "" ↔
      (decimalText value decimals).fraction = [] := by
    rw [← String.toList_inj, String.toList_ofList]
    rfl
  have hsign : (if value < 0 then "-" else "").toList =
      if (decimalText value decimals).negative = true then ['-'] else [] := by
    rw [decimalText, if_congr decide_eq_true_iff rfl rfl]
    split <;> rfl
  rw [if_congr hnil rfl rfl, ← hsign]
  split
  · simp only [String.toList_append, String.toList_ofList, List.append_nil, decimalText]
  · simp only [String.toList_append, String.toList_ofList, List.append_assoc]
    rfl

/-- The text of an amount denotes it. -/
theorem minorUnits_decimalText (value : Int) (decimals : Nat) :
    (decimalText value decimals).minorUnits decimals = value := by
  have hscaled : (decimalText value decimals).scaled decimals = paddedDigits value decimals := by
    rw [DecimalText.scaled, fraction_decimalText, Nat.sub_self, List.replicate_zero,
      List.append_nil]
    exact List.take_append_drop _ _
  rw [DecimalText.minorUnits, hscaled, paddedDigits, Nat.ofDigitChars_append,
    Nat.ofDigitChars_replicate_zero, Nat.mul_zero, Nat.ofDigitChars_ten_toDigits, decimalText,
    if_congr decide_eq_true_iff rfl rfl]
  split <;> omega

theorem minorUnitsToDecimal_ne_empty (value : Int) (decimals : Nat) :
    minorUnitsToDecimal value decimals ≠ "" := by
  intro h
  rw [minorUnitsToDecimal_eq] at h
  have hchars := congrArg String.toList h
  rw [String.toList_ofList, DecimalText.chars] at hchars
  obtain ⟨-, hdigits⟩ := List.append_eq_nil_iff.1 hchars
  exact (decimalText value decimals).whole_ne_nil (List.append_eq_nil_iff.1 hdigits).1

/-- **Reading what was printed.** -/
theorem decimalToMinorUnits_minorUnitsToDecimal (value : Int) (decimals : Nat) :
    decimalToMinorUnits (minorUnitsToDecimal value decimals) decimals = .ok value := by
  rw [minorUnitsToDecimal_eq, DecimalText.decimalToMinorUnits_chars, fraction_decimalText,
    if_neg (lt_irrefl _), minorUnits_decimalText]

/-! ## Amounts as numbers -/

namespace DecimalText

/-- The number that the text denotes. -/
def value (text : DecimalText) : ℚ :=
  let magnitude : ℚ := Nat.ofDigitChars 10 text.whole 0 +
    Nat.ofDigitChars 10 text.fraction 0 / 10 ^ text.fraction.length
  if text.negative then -magnitude else magnitude

/-- The amount in minor units is the number, scaled, unless the fraction has more digits. -/
theorem minorUnits_eq (text : DecimalText) {decimals : Nat}
    (h : text.fraction.length ≤ decimals) :
    (text.minorUnits decimals : ℚ) = text.value * 10 ^ decimals := by
  obtain ⟨k, rfl⟩ := Nat.exists_eq_add_of_le h
  have hscaled : (Nat.ofDigitChars 10 (text.scaled (text.fraction.length + k)) 0 : ℚ) =
      (Nat.ofDigitChars 10 text.whole 0 +
        Nat.ofDigitChars 10 text.fraction 0 / 10 ^ text.fraction.length) *
        10 ^ (text.fraction.length + k) := by
    rw [scaled, Nat.add_sub_cancel_left, Nat.ofDigitChars_append, Nat.ofDigitChars_replicate_zero,
      Nat.ofDigitChars_append, Nat.ofDigitChars_eq_ofDigitChars_zero]
    push_cast
    rw [pow_add]
    field_simp
  unfold minorUnits value
  split
  · push_cast
    rw [hscaled]
    ring
  · push_cast
    exact hscaled

end DecimalText

/-- What is printed for an amount that is read from a text denotes the number of the text. -/
theorem value_decimalText {text : DecimalText} {decimals : Nat}
    (hlength : text.fraction.length ≤ decimals) :
    (decimalText (text.minorUnits decimals) decimals).value = text.value := by
  have hprinted := (decimalText (text.minorUnits decimals) decimals).minorUnits_eq
    (fraction_decimalText _ decimals).le
  rw [minorUnits_decimalText, text.minorUnits_eq hlength] at hprinted
  exact (mul_right_cancel₀ (pow_ne_zero _ (by decide)) hprinted).symm

/-- **Reading and printing are inverse.** What is printed is read back; the texts that are read are
the decimal texts, up to white space around them, with at most `decimals` digits of the fraction;
and what is printed for one has just as many and denotes the same number. -/
theorem amounts_inverse (decimals : Nat) :
    (∀ amount, decimalToMinorUnits (minorUnitsToDecimal amount decimals) decimals = .ok amount) ∧
    (∀ value amount, decimalToMinorUnits value decimals = .ok amount → ∃ printed : DecimalText,
      minorUnitsToDecimal amount decimals = String.ofList printed.chars ∧
        printed.fraction.length = decimals ∧
        ∀ text : DecimalText, trim value.toList = text.chars → printed.value = text.value) ∧
    (∀ value, ∀ text : DecimalText, trim value.toList = text.chars →
      ((∃ amount, decimalToMinorUnits value decimals = .ok amount) ↔
        text.fraction.length ≤ decimals)) ∧
    (∀ value, (¬ ∃ text : DecimalText, trim value.toList = text.chars) →
      ∃ message, decimalToMinorUnits value decimals = .error message) := by
  refine ⟨fun amount => decimalToMinorUnits_minorUnitsToDecimal amount decimals,
    fun value amount h => ?_, fun value text hchars => ?_,
    fun value h => ⟨_, decimalToMinorUnits_malformed decimals h⟩⟩
  · refine ⟨decimalText amount decimals, minorUnitsToDecimal_eq _ decimals,
      fraction_decimalText _ decimals, fun text hchars => ?_⟩
    rw [text.decimalToMinorUnits_of_trim hchars] at h
    split at h
    · cases h
    · next hlength =>
      cases h
      exact value_decimalText (Nat.le_of_not_lt hlength)
  · rw [text.decimalToMinorUnits_of_trim hchars]
    split
    · next hlength => exact iff_of_false (fun ⟨_, h⟩ => nomatch h) (Nat.not_le.2 hlength)
    · next hlength => exact iff_of_true ⟨_, rfl⟩ (Nat.le_of_not_lt hlength)

end Compliance

end Backend

end InvoiceFi
