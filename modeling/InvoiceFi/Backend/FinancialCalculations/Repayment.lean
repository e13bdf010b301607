import InvoiceFi.Backend.FinancialCalculations
import Mathlib.Tactic.FieldSimp

/-!
# What a repayment schedule returns

A payment of a schedule is the annuity of its principal rounded to cents, and the total is that many
times the rounded payment. The exact annuity always returns the principal (`le_annuity`), but the
rounding may take half a cent off every payment (`total_shortfall`), which the interest of a small
or short schedule does not make up for: one unit in three payments at one percent a year comes back
as 99 cents.

The schedule returns its principal exactly when the annuity reaches the share of the principal that
every payment has to return, rounded up to cents, up to half a cent (`repaymentSound_iff`).
Schedules whose shares are whole cents always do (`repaymentSound_of_dvd`).
-/

namespace InvoiceFi

namespace Backend

namespace FinancialCalculations

/-- What a schedule promises: its total is at least the principal and is the principal where there
is no interest, and it is the sum of the payments up to a cent. -/
def RepaymentSound (principal : ℚ) (payments : Int) (rate : ℚ) : Prop :=
  ∃ payment total, calculateRepaymentScheduleAmount principal payments rate = .ok payment ∧
    calculateTotalRepaymentAmount principal payments rate = .ok total ∧
    principal ≤ total ∧ (rate = 0 → total = principal) ∧ |total - payments * payment| < 1 / 100

/-- The growth of a debt over a number of months. -/
def growth (rate : ℚ) (months : Nat) : ℚ := (1 + monthlyRate rate) ^ months

/-- The exact payment of a schedule, in cents. -/
def annuity (amount months : Nat) (rate : ℚ) : ℚ :=
  amount * monthlyRate rate * growth rate months / (growth rate months - 1)

/-! ## The exact annuity -/

variable {rate : ℚ} {months : Nat}

theorem growth_zpow : (1 + monthlyRate rate) ^ (months : Int) = growth rate months :=
  zpow_natCast _ _

theorem monthlyRate_pos (h : 0 < rate) : 0 < monthlyRate rate := by
  unfold monthlyRate
  positivity

theorem growth_pos (h : 0 < rate) (months : Nat) : 0 < growth rate months := by
  have hrate := monthlyRate_pos h
  unfold growth
  positivity

theorem one_lt_growth (h : 0 < rate) (hmonths : 1 ≤ months) : 1 < growth rate months := by
  have hrate := monthlyRate_pos h
  exact one_lt_pow₀ (by linarith) (by omega)

/-- The interest of a debt is at most that of its final amount, every month. -/
theorem growth_sub_one_le (h : 0 < rate) (months : Nat) :
    growth rate months - 1 ≤ months * monthlyRate rate * growth rate months := by
  have hrate := monthlyRate_pos h
  induction months with
  | zero => simp [growth]
  | succ months ih =>
    have hsucc : growth rate (months + 1) = growth rate months * (1 + monthlyRate rate) :=
      pow_succ _ _
    have hpos := growth_pos h months
    have hinterest :
        0 ≤ (months + 1) * monthlyRate rate * (growth rate months * monthlyRate rate) := by
      positivity
    rw [hsucc]
    push_cast
    linarith

/-- The exact payments return the principal. -/
theorem le_annuity (amount : Nat) (h : 0 < rate) (hmonths : 1 ≤ months) :
    (amount : ℚ) / months ≤ annuity amount months rate := by
  have hgrowth := one_lt_growth h hmonths
  have hpos : (0 : ℚ) < months := by exact_mod_cast hmonths
  rw [annuity, div_le_div_iff₀ hpos (by linarith)]
  have hamount : (0 : ℚ) ≤ amount := Nat.cast_nonneg amount
  have hscaled := mul_le_mul_of_nonneg_left (growth_sub_one_le h months) hamount
  linarith

/-! ## The rounded payments -/

theorem calculateRepaymentScheduleAmount_eq_ok (amount : Nat) (h : 0 ≤ rate)
    (hmonths : 1 ≤ months) :
    calculateRepaymentScheduleAmount (cents amount) months rate =
      .ok (if rate = 0 then cents amount / months else round (annuity amount months rate) / 100) := by
  have hamount := cents_nonneg amount
  have hvalid : ¬ ((months : Int) ≤ 0 ∨ cents amount < 0 ∨ rate < 0) := by
    rintro (h | h | h)
    · omega
    all_goals linarith
  refine bind_eq_ok.2 ⟨(), rejectIf_eq_ok.2 hvalid, ?_⟩
  rw [if_neg (by omega)]
  split
  · rfl
  · have hcents : cents amount * monthlyRate rate * growth rate months /
        (growth rate months - 1) * 100 = annuity amount months rate := by
      unfold cents annuity
      ring
    simp only [growth_zpow, roundCents, hcents]
    rfl

theorem calculateTotalRepaymentAmount_eq_ok (amount : Nat) (h : 0 ≤ rate) (hmonths : 1 ≤ months) :
    calculateTotalRepaymentAmount (cents amount) months rate =
      .ok (if rate = 0 then cents amount
        else round (annuity amount months rate) * months / 100) := by
  have hpos : (months : ℚ) ≠ 0 := by positivity
  refine bind_eq_ok.2 ⟨_, calculateRepaymentScheduleAmount_eq_ok amount h hmonths, ?_⟩
  congr 1
  split
  · rw [Int.cast_natCast, div_mul_cancel₀ _ hpos, roundCents_cents]
  · have hwhole := roundCents_int (round (annuity amount months rate) * months)
    push_cast at hwhole ⊢
    rw [div_mul_eq_mul_div, hwhole]

/-- A total is at most half a cent a payment below the exact one, hence below the principal. -/
theorem total_shortfall (amount : Nat) (h : 0 < rate) (hmonths : 1 ≤ months) :
    (amount : ℚ) - months / 2 ≤ round (annuity amount months rate) * months := by
  have hpos : (0 : ℚ) < months := by exact_mod_cast hmonths
  have hexact := (div_le_iff₀ hpos).1 (le_annuity amount h hmonths)
  have hround := (abs_le.1 (abs_sub_round (annuity amount months rate))).2
  have hscaled := mul_le_mul_of_nonneg_right hround hpos.le
  linarith

/-- An integer is below a rounded number where it is below the number and a half. -/
theorem le_round_iff (z : Int) (x : ℚ) : z ≤ round x ↔ (z : ℚ) - 1 / 2 ≤ x := by
  rw [round_eq, Int.le_floor, sub_le_iff_le_add]

/-- The total returns the principal exactly when the annuity reaches, up to half a cent, the share
that every payment has to return, rounded up to cents. -/
theorem le_total_iff (amount : Nat) (h : 0 < rate) (hmonths : 1 ≤ months) :
    (amount : ℚ) ≤ round (annuity amount months rate) * months ↔
      (⌈(amount : ℚ) / months⌉ - 1 / 2) * (growth rate months - 1) ≤
        amount * monthlyRate rate * growth rate months := by
  have hpos : (0 : ℚ) < months := by exact_mod_cast hmonths
  have hgrowth : 0 < growth rate months - 1 := by linarith [one_lt_growth h hmonths]
  rw [← le_div_iff₀ hgrowth, ← annuity, ← le_round_iff, Int.ceil_le, div_le_iff₀ hpos]

/-- With interest, returning the principal is all that may fail. -/
theorem repaymentSound_iff_total (amount : Nat) (h : 0 ≤ rate) (hmonths : 1 ≤ months) :
    RepaymentSound (cents amount) months rate ↔
      rate = 0 ∨ (amount : ℚ) ≤ round (annuity amount months rate) * months := by
  have hpayment := calculateRepaymentScheduleAmount_eq_ok amount h hmonths
  have htotal := calculateTotalRepaymentAmount_eq_ok amount h hmonths
  have hne : (months : ℚ) ≠ 0 := by positivity
  by_cases hzero : rate = 0
  · rw [if_pos hzero] at hpayment htotal
    refine iff_of_true ⟨_, _, hpayment, htotal, le_refl _, fun _ => rfl, ?_⟩ (Or.inl hzero)
    rw [Int.cast_natCast, mul_div_cancel₀ _ hne, sub_self]
    norm_num
  · rw [if_neg hzero] at hpayment htotal
    constructor
    · rintro ⟨payment, total, -, htotal', hprincipal, -, -⟩
      rw [htotal] at htotal'
      cases htotal'
      unfold cents at hprincipal
      exact Or.inr (by linarith)
    · intro h
      have hprincipal := h.resolve_left hzero
      refine ⟨_, _, hpayment, htotal, ?_, fun h => absurd h hzero, ?_⟩
      · unfold cents
        linarith
      · have hsum : (round (annuity amount months rate) * months / 100 : ℚ) =
            (months : Int) * (round (annuity amount months rate) / 100) := by
          push_cast
          ring
        rw [hsum, sub_self]
        norm_num

/-- A schedule whose principal splits into whole cents returns it. -/
theorem repaymentSound_of_dvd {amount : Nat} (h : 0 ≤ rate) (hmonths : 1 ≤ months)
    (hsplit : months ∣ amount) : RepaymentSound (cents amount) months rate := by
  refine (repaymentSound_iff_total amount h hmonths).2 (or_iff_not_imp_left.2 fun hzero => ?_)
  obtain ⟨payment, rfl⟩ := hsplit
  have hpos : (0 : ℚ) < months := by exact_mod_cast hmonths
  have hexact := le_annuity (months * payment) (lt_of_le_of_ne h (Ne.symm hzero)) hmonths
  have hwhole : ((months * payment : Nat) : ℚ) / months = (payment : Int) := by
    push_cast
    field_simp
  rw [hwhole] at hexact
  have hround := round_mono hexact
  rw [round_intCast] at hround
  have hcast : (payment : ℚ) ≤ round (annuity (months * payment) months rate) := by
    exact_mod_cast hround
  have hscaled := mul_le_mul_of_nonneg_right hcast hpos.le
  push_cast at hscaled ⊢
  linarith

/-- A schedule returns its principal, and is the sum of its payments, exactly when there is no
interest or the annuity reaches, up to half a cent, the share of the principal that every payment
has to return, rounded up to cents. -/
theorem repaymentSound_iff (amount payments : Nat) (rate : ℚ) (hpayments : 1 ≤ payments)
    (hrate : 0 ≤ rate) :
    RepaymentSound (cents amount) payments rate ↔
      rate = 0 ∨
        (⌈(amount : ℚ) / payments⌉ - 1 / 2) * (growth rate payments - 1) ≤
          amount * monthlyRate rate * growth rate payments := by
  rw [repaymentSound_iff_total amount hrate hpayments]
  by_cases hzero : rate = 0
  · simp [hzero]
  · rw [le_total_iff amount (lt_of_le_of_ne hrate (Ne.symm hzero)) hpayments]

/-- Ten units in three payments at twelve percent a year come back as 10.20. -/
theorem ten_repaid : RepaymentSound (cents 1000) (3 : Nat) 12 :=
  (repaymentSound_iff 1000 3 12 (by decide) (by norm_num)).2 (Or.inr (by decide +kernel))

/-- One unit in three payments at one percent a year comes back as 99 cents. -/
theorem repayment_loses_cent :
    calculateTotalRepaymentAmount (cents 100) (3 : Nat) 1 = .ok (99 / 100) ∧
      ¬ RepaymentSound (cents 100) (3 : Nat) 1 := by
  have htotal : calculateTotalRepaymentAmount (cents 100) (3 : Nat) 1 = .ok (99 / 100) := by
    decide +kernel
  refine ⟨htotal, ?_⟩
  rintro ⟨payment, total, -, htotal', hprincipal, -, -⟩
  rw [htotal] at htotal'
  cases htotal'
  unfold cents at hprincipal
  norm_num at hprincipal

end FinancialCalculations

end Backend

end InvoiceFi
