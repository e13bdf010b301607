import Mathlib.Algebra.Order.Field.Rat
import Mathlib.Data.Rat.Floor
import Mathlib.Tactic.FieldSimp
import Mathlib.Tactic.Positivity

/-!
# Columns of decimal numbers

A column `numeric(p, s)` keeps numbers of `p` decimal digits, `s` of them after the point. What is
stored in it is rounded to `s` places, half away from zero, and refused where the rounded number
needs more digits. Rounding keeps the order (`rounded_mono`), and it keeps a number exactly where
that has the places of the column (`rounded_eq_iff`).
-/

namespace InvoiceFi

/-- The number in units of the last of `scale` places, rounded half away from zero. -/
def units (scale : ℕ) (x : ℚ) : ℤ :=
  x.num.sign * ((2 * (x.num.natAbs * 10 ^ scale) + x.den) / (2 * x.den) : ℕ)

/-- The number rounded to `scale` places. -/
def rounded (scale : ℕ) (x : ℚ) : ℚ := units scale x / 10 ^ scale

/-- What a column `numeric(precision, scale)` holds of a number, if it takes it. -/
def numeric (precision scale : ℕ) (x : ℚ) : Option ℚ :=
  if (units scale x).natAbs < 10 ^ precision then some (rounded scale x) else none

/-- The nearest integer to a quotient, by integer division. -/
theorem floor_div_add_half (n : ℕ) {d : ℕ} (hd : d ≠ 0) :
    ⌊(n : ℚ) / d + 1 / 2⌋ = ((2 * n + d) / (2 * d) : ℕ) := by
  have hd' : (d : ℚ) ≠ 0 := Nat.cast_ne_zero.2 hd
  have hsum : (n : ℚ) / d + 1 / 2 = ((2 * n + d : ℕ) : ℤ) / ((2 * d : ℕ) : ℚ) := by
    push_cast
    field_simp
  rw [hsum, Rat.floor_intCast_div_natCast, Int.natCast_ediv]

/-- The units of a number that is not negative. -/
theorem units_of_nonneg (scale : ℕ) {x : ℚ} (h : 0 ≤ x) :
    units scale x = ⌊x * 10 ^ scale + 1 / 2⌋ := by
  obtain ⟨n, hn⟩ := Int.eq_ofNat_of_zero_le (Rat.num_nonneg.2 h)
  have hx : x * 10 ^ scale = ((n * 10 ^ scale : ℕ) : ℚ) / x.den := by
    have hquot : x = n / x.den := by
      rw [← Int.cast_natCast (R := ℚ) n, ← hn, Rat.num_div_den]
    rw [Nat.cast_mul, Nat.cast_pow, mul_div_right_comm, ← hquot]
    rfl
  rw [hx, floor_div_add_half _ x.den_nz, units, hn, Int.natAbs_natCast]
  cases n with
  | zero =>
    rw [Nat.zero_mul, Nat.mul_zero, Nat.zero_add,
      Nat.div_eq_of_lt (by have := x.den_pos; omega)]
    rfl
  | succ n => rw [Int.sign_eq_one_of_pos (by omega), one_mul]

/-- Rounding half away from zero is odd. -/
theorem units_neg (scale : ℕ) (x : ℚ) : units scale (-x) = -units scale x := by
  rw [units, units, Rat.neg_num, Rat.neg_den, Int.natAbs_neg, Int.sign_neg, neg_mul]

theorem units_nonneg (scale : ℕ) {x : ℚ} (h : 0 ≤ x) : 0 ≤ units scale x := by
  rw [units_of_nonneg scale h, Int.floor_nonneg]
  positivity

theorem units_mono (scale : ℕ) {x y : ℚ} (h : x ≤ y) : units scale x ≤ units scale y := by
  -- on the numbers that are not negative
  have hmono : ∀ {x y : ℚ}, 0 ≤ x → x ≤ y → units scale x ≤ units scale y := by
    intro x y hx h
    rw [units_of_nonneg scale hx, units_of_nonneg scale (hx.trans h)]
    exact Int.floor_mono (add_le_add_left
      (mul_le_mul_of_nonneg_right h (by positivity)) _)
  rcases le_total 0 x with hx | hx
  · exact hmono hx h
  · have hx' := units_nonneg scale (neg_nonneg.2 hx)
    rw [units_neg] at hx'
    rcases le_total 0 y with hy | hy
    · exact (neg_nonneg.1 hx').trans (units_nonneg scale hy)
    · have hneg := hmono (neg_nonneg.2 hy) (neg_le_neg h)
      rw [units_neg, units_neg] at hneg
      exact neg_le_neg_iff.1 hneg

/-- A number of whole units is not rounded. -/
theorem units_of_eq {scale : ℕ} {x : ℚ} {n : ℤ} (h : x * 10 ^ scale = n) : units scale x = n := by
  have hround : ∀ {x : ℚ} {n : ℤ}, 0 ≤ x → x * 10 ^ scale = n → units scale x = n := by
    intro x n hx hn
    rw [units_of_nonneg scale hx, hn, Int.floor_intCast_add]
    norm_num
  rcases le_total 0 x with hx | hx
  · exact hround hx h
  · have hneg := hround (n := -n) (neg_nonneg.2 hx) (by rw [neg_mul, h, Int.cast_neg])
    rw [units_neg] at hneg
    exact neg_inj.1 hneg

/-- Rounding keeps the order. -/
theorem rounded_mono (scale : ℕ) : Monotone (rounded scale) := fun _ _ h =>
  div_le_div_of_nonneg_right (Int.cast_le.2 (units_mono scale h)) (by positivity)

/-- Rounding keeps the numbers that have the places of the column. -/
theorem rounded_eq_iff {scale : ℕ} {x : ℚ} :
    rounded scale x = x ↔ ∃ n : ℤ, x * 10 ^ scale = n := by
  have hscale : (10 : ℚ) ^ scale ≠ 0 := by positivity
  rw [rounded, div_eq_iff hscale]
  constructor
  · intro h
    exact ⟨_, h.symm⟩
  · rintro ⟨n, hn⟩
    rw [hn, units_of_eq hn]

/-- What a column holds is the rounded number, if that has no more digits than the column. -/
theorem numeric_eq_some {precision scale : ℕ} {x y : ℚ} :
    numeric precision scale x = some y ↔
      |units scale x| < 10 ^ precision ∧ y = rounded scale x := by
  rw [numeric, Int.abs_eq_natAbs]
  norm_cast
  split
  · next h => simp [h, eq_comm]
  · next h => simp [h]

example : numeric 5 2 (1 / 8) = some (13 / 100) := by decide +kernel

example : numeric 5 2 (999995 / 1000) = none := by decide +kernel

end InvoiceFi
