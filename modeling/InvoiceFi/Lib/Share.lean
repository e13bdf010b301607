import Mathlib.Algebra.Order.Group.Int
import Mathlib.Algebra.Order.Ring.Int
import Mathlib.Tactic.Ring

/-!
# Splitting an amount at a rate

An amount `a` is split at the rate `r` over the denominator `d` into its share, rounded down, and
the rest. The share is at most the amount exactly where `share_le_iff` says, which is at every rate
up to the denominator and a little past it for small amounts. An amount split in two has at most
one more of a share than its parts (`share_add`). Up to the denominator the rest grows
with the amount, by at most one at a time (`rest_mono`, `rest_succ_le`); past it the rest of a
non-negative amount is never positive (`rest_nonpos`).
-/

namespace InvoiceFi

/-- The share of `a` at the rate `r` over `d`, rounded down. -/
def share (d r a : ℤ) : ℤ := a * r / d

/-- What the share leaves. -/
def rest (d r a : ℤ) : ℤ := a - share d r a

section
variable {d r : ℤ}

theorem share_nonneg (hd : 0 < d) (hr : 0 ≤ r) {a : ℤ} (ha : 0 ≤ a) : 0 ≤ share d r a :=
  Int.ediv_nonneg (Int.mul_nonneg ha hr) hd.le

/-- When the share is at most the amount. -/
theorem share_le_iff (hd : 0 < d) {a : ℤ} : share d r a ≤ a ↔ a * r < d * (a + 1) := by
  rw [share, ← Int.lt_add_one_iff, Int.ediv_lt_iff_lt_mul hd, mul_comm (a + 1)]

/-- When the rest is not negative. -/
theorem rest_nonneg_iff (hd : 0 < d) {a : ℤ} : 0 ≤ rest d r a ↔ a * r < d * (a + 1) := by
  rw [← share_le_iff hd, rest, sub_nonneg]

/-- A larger amount has at least the share of a smaller one. -/
theorem share_mono (hd : 0 < d) (hr : 0 ≤ r) {a b : ℤ} (h : a ≤ b) : share d r a ≤ share d r b :=
  Int.ediv_le_ediv hd (Int.mul_le_mul_of_nonneg_right h hr)

/-- A larger rate takes at least the share of a smaller one. -/
theorem share_mono_rate (hd : 0 < d) {r' a : ℤ} (ha : 0 ≤ a) (h : r ≤ r') :
    share d r a ≤ share d r' a :=
  Int.ediv_le_ediv hd (Int.mul_le_mul_of_nonneg_left h ha)

/-- Splitting an amount loses at most one of its share, and gains nothing. -/
theorem share_add (hd : 0 < d) (a b : ℤ) :
    share d r a + share d r b ≤ share d r (a + b) ∧
      share d r (a + b) ≤ share d r a + share d r b + 1 := by
  have hsum : (a + b) * r = a * r + b * r := add_mul a b r
  constructor
  · refine Int.le_ediv_of_mul_le hd ?_
    calc (share d r a + share d r b) * d = share d r a * d + share d r b * d := add_mul ..
      _ ≤ a * r + b * r := add_le_add (Int.ediv_mul_le _ hd.ne') (Int.ediv_mul_le _ hd.ne')
      _ = (a + b) * r := hsum.symm
  · refine Int.lt_add_one_iff.1 (Int.ediv_lt_of_lt_mul hd ?_)
    calc (a + b) * r = a * r + b * r := hsum
      _ < (share d r a + 1) * d + (share d r b + 1) * d :=
        add_lt_add (Int.lt_ediv_add_one_mul_self _ hd) (Int.lt_ediv_add_one_mul_self _ hd)
      _ = (share d r a + share d r b + 1 + 1) * d := by ring

/-- Up to the denominator a larger amount leaves at least the rest of a smaller one. -/
theorem rest_mono (hd : 0 < d) (hr : r ≤ d) {a b : ℤ} (h : a ≤ b) : rest d r a ≤ rest d r b := by
  have hgap : (b - a) * r ≤ (b - a) * d := Int.mul_le_mul_of_nonneg_left hr (by omega)
  have hshare : share d r b ≤ share d r a + (b - a) := by
    calc share d r b = (a * r + (b - a) * r) / d := by rw [share]; ring_nf
      _ ≤ (a * r + (b - a) * d) / d := Int.ediv_le_ediv hd (by omega)
      _ = share d r a + (b - a) := by rw [Int.add_mul_ediv_right _ _ hd.ne', share]
  rw [rest, rest]
  omega

/-- One more of the amount leaves at most one more of the rest. -/
theorem rest_succ_le (hd : 0 < d) (hr : 0 ≤ r) (a : ℤ) : rest d r (a + 1) ≤ rest d r a + 1 := by
  have h : share d r a ≤ share d r (a + 1) := share_mono hd hr (by omega)
  rw [rest, rest]
  omega

/-- Past the denominator nothing is left of a non-negative amount. -/
theorem rest_nonpos (hd : 0 < d) (hr : d ≤ r) {a : ℤ} (ha : 0 ≤ a) : rest d r a ≤ 0 := by
  have hle : a * d ≤ a * r := Int.mul_le_mul_of_nonneg_left hr ha
  have hshare : a ≤ share d r a := by
    calc a = a * d / d := (Int.mul_ediv_cancel a hd.ne').symm
      _ ≤ share d r a := Int.ediv_le_ediv hd hle
  rw [rest]
  omega

end

end InvoiceFi
