import Mathlib.Algebra.Group.Int.Defs
import Mathlib.Algebra.Group.Nat.Defs
import Mathlib.Data.Int.Order.Basic
import Mathlib.Order.Lattice

/-!
# Machine integers

The 128-bit signed integers and the saturating sums of 32- and 64-bit words. A value of `I128`
carries the proof that it is in range, so an out-of-range amount cannot be built and every
arithmetic step has to say what it does past the range: the `checked` operations return `none`.
-/

namespace InvoiceFi

/-- A signed 128-bit integer: an integer with the proof that it is in range. -/
structure I128 where
  val : Int
  lower : -2 ^ 127 ≤ val
  upper : val < 2 ^ 127
  deriving DecidableEq

namespace I128

/-- The value of an integer in range. -/
def ofInt? (v : Int) : Option I128 :=
  if h : -2 ^ 127 ≤ v ∧ v < 2 ^ 127 then some ⟨v, h.1, h.2⟩ else none

/-- The range check of a literal. -/
def inRange (v : Int) : Bool := decide (-2 ^ 127 ≤ v) && decide (v < 2 ^ 127)

/-- A literal, checked to be in range where it is written: the check evaluates to `true`. -/
def lit (v : Int) (h : inRange v = true := by exact Eq.refl true) : I128 where
  val := v
  lower := of_decide_eq_true (Bool.and_eq_true_iff.1 h).1
  upper := of_decide_eq_true (Bool.and_eq_true_iff.1 h).2

/-- Zero, the default of every unset counter. -/
def zero : I128 := lit 0

@[simp] theorem zero_val : zero.val = 0 := rfl

/-- Two values are equal when the integers are. -/
theorem ext_val {a b : I128} (h : a.val = b.val) : a = b := by
  cases a; cases b
  cases h; rfl

/-- The order of the integers. -/
instance : LinearOrder I128 := LinearOrder.lift' val fun _ _ => ext_val

theorem le_iff {a b : I128} : a ≤ b ↔ a.val ≤ b.val := Iff.rfl

/-- Exactly the integers in range have a value, their own. -/
@[simp] theorem ofInt?_eq_some {v : Int} {a : I128} : ofInt? v = some a ↔ a.val = v := by
  unfold ofInt?
  constructor
  · intro h
    split at h
    · injection h with h; rw [← h]
    · cases h
  · rintro rfl
    rw [dif_pos ⟨a.lower, a.upper⟩]

/-- An unsigned 32-bit word as a signed 128-bit integer, `w as i128`. -/
def ofUInt32 (w : UInt32) : I128 :=
  ⟨w.toNat, by have := w.toNat_lt; omega, by have := w.toNat_lt; omega⟩

@[simp] theorem ofUInt32_val (w : UInt32) : (ofUInt32 w).val = w.toNat := rfl

/-- An unsigned 64-bit word as a signed 128-bit integer, `w as i128`. -/
def ofUInt64 (w : UInt64) : I128 :=
  ⟨w.toNat, by have := w.toNat_lt; omega, by have := w.toNat_lt; omega⟩

@[simp] theorem ofUInt64_val (w : UInt64) : (ofUInt64 w).val = w.toNat := rfl

/-- The narrowing cast `v as u64`: the low 64 bits. -/
def toUInt64 (v : I128) : UInt64 := .ofInt v.val

/-- Narrowing the successor of a word is the word's own successor, which wraps. -/
theorem toUInt64_succ {w : UInt64} {v : I128} (h : v.val = w.toNat + 1) :
    v.toUInt64 = w + 1 := by
  have hw : UInt64.ofInt (w.toNat : Int) = w := by
    have hlt : (w.toNat : Int) % 2 ^ 64 = w.toNat := by have := w.toNat_lt; omega
    rw [UInt64.ofInt, hlt, Int.toNat_natCast, UInt64.ofNat_toNat]
  rw [toUInt64, h, UInt64.ofInt_add, hw, UInt64.ofInt_one]

/-- `i128::checked_add`. -/
def checkedAdd (a b : I128) : Option I128 := ofInt? (a.val + b.val)

/-- `i128::checked_sub`. -/
def checkedSub (a b : I128) : Option I128 := ofInt? (a.val - b.val)

/-- `i128::checked_mul`. -/
def checkedMul (a b : I128) : Option I128 := ofInt? (a.val * b.val)

/-- `i128::checked_div`: truncating, `none` on a zero divisor and on `MIN / -1`. -/
def checkedDiv (a b : I128) : Option I128 :=
  if b.val = 0 then none else ofInt? (a.val.tdiv b.val)

end I128

/-- `u32::saturating_add`. -/
def saturatingAddU32 (a b : UInt32) : UInt32 := .ofNat (min (a.toNat + b.toNat) (2 ^ 32 - 1))

/-- The saturating sum is the sum, cut at the largest word. -/
@[simp] theorem toNat_saturatingAddU32 (a b : UInt32) :
    (saturatingAddU32 a b).toNat = min (a.toNat + b.toNat) (2 ^ 32 - 1) := by
  rw [saturatingAddU32, UInt32.toNat_ofNat_of_lt']
  show _ < 2 ^ 32
  omega

/-- `u64::saturating_add`. -/
def saturatingAddU64 (a b : UInt64) : UInt64 := .ofNat (min (a.toNat + b.toNat) (2 ^ 64 - 1))

/-- The saturating sum is the sum, cut at the largest word. -/
@[simp] theorem toNat_saturatingAddU64 (a b : UInt64) :
    (saturatingAddU64 a b).toNat = min (a.toNat + b.toNat) (2 ^ 64 - 1) := by
  rw [saturatingAddU64, UInt64.toNat_ofNat_of_lt']
  show _ < 2 ^ 64
  omega

end InvoiceFi
