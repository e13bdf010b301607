import InvoiceFi.Contracts.Pool
import InvoiceFi.Lib.Fallible
import Mathlib.Algebra.Order.Round
import Mathlib.Data.Rat.Floor
import Mathlib.Tactic.Linarith
import Mathlib.Tactic.Positivity

/-!
# Financial calculations (`common/financial-calculations.ts`)

What the backend computes off the chain, in exact arithmetic: discounts, advances and fees of an
amount, the utilization of a pool and the payments of a schedule. `Math.round` is the rounding that
sends ties up, `round` (`round_eq`).

For amounts of whole cents and rates in basis points, the calculations stay in their bounds and are
monotone, and the advance agrees with the one that the pool contract quotes for the same face value
up to half a cent and a minor unit (`calculations_sound`).
-/

namespace InvoiceFi

namespace Backend

namespace FinancialCalculations

/-- `Math.round(x * 100) / 100`. -/
def roundCents (x : ℚ) : ℚ := round (x * 100) / 100

/-- A share of an amount, by a rate in basis points. -/
def share (message : String) (amount rate : ℚ) : Except String ℚ := do
  rejectIf (amount < 0 ∨ rate < 0 ∨ rate > 10000) message
  return roundCents (amount * rate / 10000)

/-- `calculateDiscount`. -/
def calculateDiscount : ℚ → ℚ → Except String ℚ :=
  share "Invalid input: faceValue must be >= 0, discountRate must be 0-10000 bps"

/-- `calculateAdvanceAmount`. -/
def calculateAdvanceAmount (faceValue discountRate : ℚ) : Except String ℚ := do
  rejectIf (faceValue < 0 ∨ discountRate < 0 ∨ discountRate > 10000) "Invalid input"
  let discount ← calculateDiscount faceValue discountRate
  return faceValue - discount

/-- `calculateFeeAmount`. -/
def calculateFeeAmount : ℚ → ℚ → Except String ℚ := share "Invalid input"

/-- `calculatePoolUtilization`. -/
def calculatePoolUtilization (totalFunded totalDeposited : ℚ) : Except String ℚ :=
  if totalDeposited = 0 then .ok 0
  else do
    rejectIf (totalFunded < 0 ∨ totalDeposited < 0 ∨ totalFunded > totalDeposited)
      "Invalid input: funded must be <= deposited and both >= 0"
    return round (totalFunded / totalDeposited * 10000) / 100

/-- The rate of a month, for a yearly rate in percent. -/
def monthlyRate (interestRate : ℚ) : ℚ := interestRate / 100 / 12

/-- `calculateRepaymentScheduleAmount`. -/
def calculateRepaymentScheduleAmount (principalRemaining : ℚ) (numberOfPayments : Int)
    (interestRate : ℚ) : Except String ℚ := do
  rejectIf (numberOfPayments ≤ 0 ∨ principalRemaining < 0 ∨ interestRate < 0) "Invalid input"
  if numberOfPayments = 0 then return 0
  if interestRate = 0 then return principalRemaining / numberOfPayments
  let monthlyRate := monthlyRate interestRate
  let numerator := principalRemaining * monthlyRate * (1 + monthlyRate) ^ numberOfPayments
  let denominator := (1 + monthlyRate) ^ numberOfPayments - 1
  return roundCents (numerator / denominator)

/-- `calculateTotalRepaymentAmount`. -/
def calculateTotalRepaymentAmount (principalRemaining : ℚ) (numberOfPayments : Int)
    (interestRate : ℚ) : Except String ℚ := do
  let paymentAmount ←
    calculateRepaymentScheduleAmount principalRemaining numberOfPayments interestRate
  return roundCents (paymentAmount * numberOfPayments)

/-! ## Rounding -/

theorem round_mono {x y : ℚ} (h : x ≤ y) : round x ≤ round y := by
  rw [round_eq, round_eq]
  exact Int.floor_mono (by linarith)

theorem roundCents_mono {x y : ℚ} (h : x ≤ y) : roundCents x ≤ roundCents y := by
  have hround : round (x * 100) ≤ round (y * 100) := round_mono (by linarith)
  have hcast : (round (x * 100) : ℚ) ≤ round (y * 100) := by exact_mod_cast hround
  unfold roundCents
  linarith

/-- A whole number of cents. -/
def cents (n : Nat) : ℚ := n / 100

theorem cents_nonneg (n : Nat) : 0 ≤ cents n := by
  unfold cents
  positivity

theorem cents_mono {n n' : Nat} (h : n ≤ n') : cents n ≤ cents n' := by
  have hcast : (n : ℚ) ≤ n' := by exact_mod_cast h
  unfold cents
  linarith

/-- A whole number of cents is rounded to itself. -/
theorem roundCents_int (n : Int) : roundCents (n / 100) = n / 100 := by
  rw [roundCents, div_mul_cancel₀ _ (by norm_num), round_intCast]

theorem roundCents_cents (n : Nat) : roundCents (cents n) = cents n := roundCents_int n

theorem roundCents_zero : roundCents 0 = 0 := by
  simp [roundCents]

theorem roundCents_nonneg {x : ℚ} (h : 0 ≤ x) : 0 ≤ roundCents x := by
  have hzero := roundCents_mono h
  rwa [roundCents_zero] at hzero

/-! ## Shares of an amount -/

/-- A rate in basis points. -/
structure Rate where
  val : ℚ
  nonneg : 0 ≤ val
  le_max : val ≤ 10000

/-- A share is returned for every amount and rate, lies between zero and the amount, and is monotone
in both. -/
structure ShareLaws (share : ℚ → ℚ → Except String ℚ) : Prop where
  bounds : ∀ (amount : Nat) (rate : Rate),
    ∃ s, share (cents amount) rate.val = .ok s ∧ 0 ≤ s ∧ s ≤ cents amount
  mono : ∀ (amount amount' : Nat) (rate rate' : Rate) (s s' : ℚ), amount ≤ amount' →
    rate.val ≤ rate'.val → share (cents amount) rate.val = .ok s →
      share (cents amount') rate'.val = .ok s' → s ≤ s'

theorem share_eq_ok (message : String) (amount : Nat) (rate : Rate) :
    share message (cents amount) rate.val = .ok (roundCents (cents amount * rate.val / 10000)) := by
  have hamount := cents_nonneg amount
  have hnonneg := rate.nonneg
  have hmax := rate.le_max
  refine bind_eq_ok.2 ⟨(), rejectIf_eq_ok.2 ?_, rfl⟩
  rintro (h | h | h) <;> linarith

theorem share_laws (message : String) : ShareLaws (share message) where
  bounds amount rate := by
    have hamount := cents_nonneg amount
    have hprod : cents amount * rate.val ≤ cents amount * 10000 :=
      mul_le_mul_of_nonneg_left rate.le_max hamount
    have hle : roundCents (cents amount * rate.val / 10000) ≤ roundCents (cents amount) :=
      roundCents_mono (by linarith)
    rw [roundCents_cents] at hle
    have hnonneg := mul_nonneg hamount rate.nonneg
    exact ⟨_, share_eq_ok message amount rate, roundCents_nonneg (by positivity), hle⟩
  mono amount amount' rate rate' s s' hamount hrate hs hs' := by
    rw [share_eq_ok] at hs hs'
    cases hs
    cases hs'
    have hprod : cents amount * rate.val ≤ cents amount' * rate'.val :=
      mul_le_mul (cents_mono hamount) hrate rate.nonneg (cents_nonneg amount')
    exact roundCents_mono (by linarith)

theorem calculateAdvanceAmount_eq_ok {amount : Nat} {rate : Rate} {discount : ℚ}
    (h : calculateDiscount (cents amount) rate.val = .ok discount) :
    calculateAdvanceAmount (cents amount) rate.val = .ok (cents amount - discount) := by
  have hamount := cents_nonneg amount
  have hnonneg := rate.nonneg
  have hmax := rate.le_max
  refine bind_eq_ok.2 ⟨(), rejectIf_eq_ok.2 ?_, bind_eq_ok.2 ⟨discount, h, rfl⟩⟩
  rintro (h | h | h) <;> linarith

/-! ## Advances -/

/-- What is advanced and the discount make up the face value, and neither is negative. -/
theorem discount_add_advance (faceValue : Nat) (rate : Rate) : ∃ discount advance,
    calculateDiscount (cents faceValue) rate.val = .ok discount ∧
      calculateAdvanceAmount (cents faceValue) rate.val = .ok advance ∧
      discount + advance = cents faceValue ∧ 0 ≤ discount ∧ discount ≤ cents faceValue ∧
      0 ≤ advance ∧ advance ≤ cents faceValue := by
  obtain ⟨discount, hdiscount, hnonneg, hle⟩ :=
    ShareLaws.bounds (share_laws _) faceValue rate
  refine ⟨discount, _, hdiscount, calculateAdvanceAmount_eq_ok hdiscount, ?_, hnonneg, hle, ?_, ?_⟩
    <;> linarith

/-! ## Utilization of a pool -/

theorem calculatePoolUtilization_eq_ok {totalFunded totalDeposited u : ℚ}
    (h : calculatePoolUtilization totalFunded totalDeposited = .ok u) (h0 : totalDeposited ≠ 0) :
    0 ≤ totalFunded ∧ 0 < totalDeposited ∧ totalFunded ≤ totalDeposited ∧
      u = round (totalFunded / totalDeposited * 10000) / 100 := by
  rw [calculatePoolUtilization, if_neg h0] at h
  obtain ⟨_, hguard, hu⟩ := bind_eq_ok.1 h
  have hvalid := rejectIf_eq_ok.1 hguard
  push Not at hvalid
  obtain ⟨hfunded, hdeposited, hle⟩ := hvalid
  exact ⟨hfunded, lt_of_le_of_ne hdeposited h0.symm, hle, pure_eq_ok.1 hu⟩

/-- A utilization is a percentage, is returned where no more is funded than was deposited, and is
monotone in what is funded. -/
structure UtilizationLaws : Prop where
  returned : ∀ (funded deposited : Nat), funded ≤ deposited →
    ∃ u, calculatePoolUtilization (cents funded) (cents deposited) = .ok u
  bounds : ∀ (funded deposited : Nat) (u : ℚ),
    calculatePoolUtilization (cents funded) (cents deposited) = .ok u → 0 ≤ u ∧ u ≤ 100
  mono : ∀ (funded funded' deposited : Nat) (u u' : ℚ), funded ≤ funded' →
    calculatePoolUtilization (cents funded) (cents deposited) = .ok u →
      calculatePoolUtilization (cents funded') (cents deposited) = .ok u' → u ≤ u'

theorem utilization_laws : UtilizationLaws where
  returned funded deposited h := by
    unfold calculatePoolUtilization
    split
    · exact ⟨0, rfl⟩
    · refine ⟨_, bind_eq_ok.2 ⟨(), rejectIf_eq_ok.2 ?_, rfl⟩⟩
      have hfunded := cents_nonneg funded
      have hle := cents_mono h
      rintro (h | h | h) <;> linarith
  bounds funded deposited u h := by
    by_cases h0 : cents deposited = 0
    · rw [calculatePoolUtilization, if_pos h0] at h
      cases h
      norm_num
    · obtain ⟨hfunded, hdeposited, hle, rfl⟩ := calculatePoolUtilization_eq_ok h h0
      have hratio : cents funded / cents deposited ≤ 1 := (div_le_one hdeposited).2 hle
      have hlow : round (0 : ℚ) ≤ round (cents funded / cents deposited * 10000) :=
        round_mono (by positivity)
      have hhigh : round (cents funded / cents deposited * 10000) ≤ round ((10000 : Int) : ℚ) :=
        round_mono (by push_cast; linarith)
      rw [round_zero] at hlow
      rw [round_intCast] at hhigh
      have hlow' : (0 : ℚ) ≤ round (cents funded / cents deposited * 10000) := by exact_mod_cast hlow
      have hhigh' : (round (cents funded / cents deposited * 10000) : ℚ) ≤ 10000 := by
        exact_mod_cast hhigh
      constructor <;> linarith
  mono funded funded' deposited u u' hle h h' := by
    by_cases h0 : cents deposited = 0
    · rw [calculatePoolUtilization, if_pos h0] at h h'
      cases h
      cases h'
      exact le_refl 0
    · obtain ⟨-, hdeposited, -, rfl⟩ := calculatePoolUtilization_eq_ok h h0
      obtain ⟨-, -, -, rfl⟩ := calculatePoolUtilization_eq_ok h' h0
      have hratio : cents funded / cents deposited ≤ cents funded' / cents deposited :=
        div_le_div_of_nonneg_right (cents_mono hle) hdeposited.le
      have hround : (round (cents funded / cents deposited * 10000) : ℚ) ≤
          round (cents funded' / cents deposited * 10000) := by
        exact_mod_cast round_mono (by linarith)
      linarith

/-! ## The quote on the chain -/

/-- A truncated quotient is less than one below the exact one. -/
theorem tdiv_bounds {a : Int} (ha : 0 ≤ a) (d : Nat) :
    (a : ℚ) / d - 1 < (a.tdiv d : Int) ∧ ((a.tdiv d : Int) : ℚ) ≤ a / d := by
  rw [Int.tdiv_eq_ediv_of_nonneg ha, ← Rat.floor_intCast_div_natCast]
  exact ⟨Int.sub_one_lt_floor _, Int.floor_le _⟩

theorem calculateAdvanceAmount_cents {amount : Nat} {rate advance : ℚ}
    (h : calculateAdvanceAmount (cents amount) rate = .ok advance) :
    rate ≤ 10000 ∧ advance * 100 = amount - round (amount * rate / 10000) := by
  obtain ⟨_, hguard, hrest⟩ := bind_eq_ok.1 h
  obtain ⟨discount, hdiscount, hadvance⟩ := bind_eq_ok.1 hrest
  obtain ⟨_, -, hround⟩ := bind_eq_ok.1 hdiscount
  have hvalid := rejectIf_eq_ok.1 hguard
  push Not at hvalid
  refine ⟨hvalid.2.2, ?_⟩
  have hcents : cents amount * rate / 10000 * 100 = amount * rate / 10000 := by
    unfold cents
    ring
  rw [pure_eq_ok.1 hadvance, pure_eq_ok.1 hround, roundCents, hcents, cents]
  ring

/-- The advance and the one that the pool contract quotes, for a face value of `minor` minor units a
cent, are less than half a cent and a minor unit apart. -/
theorem advance_close {s : Pool.Store} {amount minor : Nat} {faceValue quote : I128} {advance : ℚ}
    (hface : faceValue.val = amount * minor) (hquote : Pool.advanceFor s faceValue = .ok quote)
    (hadvance : calculateAdvanceAmount (cents amount) (Pool.discountBps s).toNat = .ok advance) :
    |advance * 100 * minor - quote.val| < minor / 2 + 1 := by
  obtain ⟨hrate, hcents⟩ := calculateAdvanceAmount_cents hadvance
  obtain ⟨-, hquote⟩ := Pool.advanceFor_eq_ok.1 hquote
  have hbps : (Pool.discountBps s).toNat ≤ 10000 := by exact_mod_cast hrate
  have hnonneg : (0 : Int) ≤ faceValue.val * (10000 - (Pool.discountBps s).toNat) := by
    rw [hface]
    exact mul_nonneg (by positivity) (by omega)
  obtain ⟨hlow, hhigh⟩ := tdiv_bounds hnonneg 10000
  rw [hface] at hquote hlow hhigh
  rw [hcents, hquote]
  -- both are near the exact advance, the one off the chain by the rounding of the discount
  have hround := abs_le.1 (abs_sub_round ((amount : ℚ) * (Pool.discountBps s).toNat / 10000))
  have hminor : (0 : ℚ) ≤ minor := Nat.cast_nonneg minor
  have hbelow := mul_le_mul_of_nonneg_right hround.1 hminor
  have habove := mul_le_mul_of_nonneg_right hround.2 hminor
  push_cast at hlow hhigh hbelow habove ⊢
  rw [abs_lt]
  constructor <;> linarith

/-! ## The laws -/

/-- For whole cents and rates in basis points: discounts and fees lie between zero and the amount
and are monotone, a discount and its advance make up the face value, utilizations are percentages
that grow with what is funded, and an advance agrees with the quote of the pool contract. -/
theorem calculations_sound :
    ShareLaws calculateDiscount ∧ ShareLaws calculateFeeAmount ∧
    (∀ (faceValue : Nat) (rate : Rate), ∃ discount advance,
      calculateDiscount (cents faceValue) rate.val = .ok discount ∧
        calculateAdvanceAmount (cents faceValue) rate.val = .ok advance ∧
        discount + advance = cents faceValue ∧ 0 ≤ discount ∧ discount ≤ cents faceValue ∧
        0 ≤ advance ∧ advance ≤ cents faceValue) ∧
    UtilizationLaws ∧
    ∀ (s : Pool.Store) (amount minor : Nat) (faceValue quote : I128) (rate : Rate) (advance : ℚ),
      faceValue.val = amount * minor → rate.val = (Pool.discountBps s).toNat →
        Pool.advanceFor s faceValue = .ok quote →
        calculateAdvanceAmount (cents amount) rate.val = .ok advance →
        |advance * 100 * minor - quote.val| < minor / 2 + 1 := by
  refine ⟨share_laws _, share_laws _, discount_add_advance, utilization_laws, ?_⟩
  intro s amount minor faceValue quote rate advance hface hrate hquote hadvance
  rw [hrate] at hadvance
  exact advance_close hface hquote hadvance

end FinancialCalculations

end Backend

end InvoiceFi
