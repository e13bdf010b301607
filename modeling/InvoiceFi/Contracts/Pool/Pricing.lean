import InvoiceFi.Contracts.Pool.Ledger
import InvoiceFi.Lib.Share

/-!
# What an advance costs

`quote` and `discount_amount` price a face value at the pool's discount without funding anything.
Below the denominator the advance is the share of the face value at the rate `10000 - discount_bps`
(`quote_eq_ok_iff`), wherever the product fits in an `i128`, and the laws of the price are those of
`share`.
-/

namespace InvoiceFi

namespace Pool

/-- The rate of an advance in basis points: what the discount leaves of the denominator. -/
def advanceRate (s : Store) : ℤ := 10000 - (discountBps s).toNat

section
variable {s : Store} {fv a : I128}

/-- A quote is the share of the face value, where the product is in range. -/
theorem quote_eq_ok_iff (hs : (discountBps s).toNat < 10000) (hfv : 0 < fv.val) :
    quote s fv = .ok a ↔
      fv.val * advanceRate s ≤ 2 ^ 127 - 1 ∧ a.val = share 10000 (advanceRate s) fv.val := by
  have hrate : 0 ≤ advanceRate s := by rw [advanceRate]; omega
  have hnum : 0 ≤ fv.val * advanceRate s := mul_nonneg hfv.le hrate
  have hfit : (∃ numer : I128, numer.val = fv.val * advanceRate s) ↔
      fv.val * advanceRate s ≤ 2 ^ 127 - 1 := by
    constructor
    · rintro ⟨numer, hn⟩
      have := numer.upper
      omega
    · intro h
      exact ⟨⟨_, by omega, by omega⟩, rfl⟩
  rw [quote, bind_eq_ok]
  simp only [rejectIf_eq_ok, liftMath_eq_ok, advanceFor_eq_ok, exists_const]
  rw [← advanceRate, hfit, Int.tdiv_eq_ediv_of_nonneg hnum, share]
  exact ⟨fun h => h.2, fun h => ⟨by omega, h⟩⟩

/-- Where the product is in range there is a quote. -/
theorem quote_of_le (hs : (discountBps s).toNat < 10000) (hfv : 0 < fv.val)
    (h : fv.val * advanceRate s ≤ 2 ^ 127 - 1) : ∃ a, quote s fv = .ok a := by
  have hrate : 0 ≤ advanceRate s := by rw [advanceRate]; omega
  have hshare : 0 ≤ share 10000 (advanceRate s) fv.val := share_nonneg (by decide) hrate hfv.le
  have hle : share 10000 (advanceRate s) fv.val ≤ fv.val := by
    rw [share_le_iff (by decide)]
    have : fv.val * advanceRate s ≤ fv.val * 10000 :=
      mul_le_mul_of_nonneg_left (by rw [advanceRate]; omega) hfv.le
    omega
  have := fv.upper
  exact ⟨⟨share 10000 (advanceRate s) fv.val, by omega, by omega⟩,
    (quote_eq_ok_iff hs hfv).2 ⟨h, rfl⟩⟩

/-- A quote that is not returned is an error. -/
theorem quote_error_iff : (∃ e, quote s fv = .error e) ↔ ¬ ∃ a, quote s fv = .ok a := by
  cases quote s fv with
  | ok a => simp
  | error e => simp

/-- A face value with a quote has a discount amount, what the quote leaves. -/
theorem discountAmount_of_quote (hs : (discountBps s).toNat < 10000) (hfv : 0 < fv.val)
    (h : quote s fv = .ok a) : ∃ r, discountAmount s fv = .ok r ∧ a.val + r.val = fv.val := by
  simp only [quote, bind_eq_ok, liftMath_eq_ok] at h
  obtain ⟨u, hpos, hadv⟩ := h
  obtain ⟨-, h0, hle⟩ := advanceFor_bounds hs hfv hadv
  have := fv.upper
  refine ⟨⟨fv.val - a.val, by omega, by omega⟩, ?_, by simp⟩
  simp only [discountAmount, bind_eq_ok, liftMath_eq_ok, CheckedMath.checkedSub_eq_ok]
  exact ⟨u, hpos, a, hadv, rfl⟩

end

/-- The laws of the price at a pool's discount `d`.

* `fails`, `floor`: a quote of a positive face value fails exactly when `face_value * (10000 - d)`
  does not fit in an `i128`, and is otherwise that product over `10000`, rounded down.
* `bounds`, `complement`: it is between zero and the face value, and the discount amount is what it
  leaves.
* `mono`: a smaller face value has a quote where a larger one has, and it is no larger.
* `antitone`: a larger discount has a quote where a smaller one has, and it is no larger.
* `split`: two quotes together are at most the quote of the sum, and short of it by at most one. -/
structure AdvancePricing (s : Store) : Prop where
  fails : ∀ fv : I128, 0 < fv.val → ((∃ e, quote s fv = .error e) ↔
    2 ^ 127 - 1 < fv.val * (10000 - (discountBps s).toNat))
  floor : ∀ fv a : I128, 0 < fv.val → quote s fv = .ok a →
    a.val = fv.val * (10000 - (discountBps s).toNat) / 10000
  bounds : ∀ fv a : I128, 0 < fv.val → quote s fv = .ok a → 0 ≤ a.val ∧ a.val ≤ fv.val
  complement : ∀ fv a : I128, 0 < fv.val → quote s fv = .ok a →
    ∃ r, discountAmount s fv = .ok r ∧ a.val + r.val = fv.val
  mono : ∀ fv fv' a' : I128, 0 < fv.val → fv.val ≤ fv'.val → quote s fv' = .ok a' →
    ∃ a, quote s fv = .ok a ∧ a.val ≤ a'.val
  antitone : ∀ (s' : Store) (fv a : I128), 0 < fv.val →
    (discountBps s).toNat ≤ (discountBps s').toNat → (discountBps s').toNat < 10000 →
    quote s fv = .ok a → ∃ a', quote s' fv = .ok a' ∧ a'.val ≤ a.val
  split : ∀ x y z a b c : I128, 0 < x.val → 0 < y.val → z.val = x.val + y.val →
    quote s x = .ok a → quote s y = .ok b → quote s z = .ok c →
    a.val + b.val ≤ c.val ∧ c.val ≤ a.val + b.val + 1

/-- **Advance pricing.** Every pool whose discount is below the denominator prices by these
laws. -/
theorem advance_priced (s : Store) (hs : (discountBps s).toNat < 10000) : AdvancePricing s := by
  have hrate : 0 ≤ advanceRate s := by rw [advanceRate]; omega
  constructor
  case fails =>
    intro fv hfv
    rw [quote_error_iff, ← advanceRate]
    constructor
    · intro h
      by_contra hle
      exact h (quote_of_le hs hfv (by omega))
    · rintro h ⟨a, ha⟩
      have := ((quote_eq_ok_iff hs hfv).1 ha).1
      omega
  case floor =>
    intro fv a hfv ha
    exact ((quote_eq_ok_iff hs hfv).1 ha).2
  case bounds =>
    intro fv a hfv ha
    simp only [quote, bind_eq_ok, liftMath_eq_ok] at ha
    obtain ⟨-, -, hadv⟩ := ha
    exact (advanceFor_bounds hs hfv hadv).2
  case complement =>
    intro fv a hfv ha
    exact discountAmount_of_quote hs hfv ha
  case mono =>
    intro fv fv' a' hfv hle ha'
    obtain ⟨hfit, ha'⟩ := (quote_eq_ok_iff hs (by omega)).1 ha'
    have hmul : fv.val * advanceRate s ≤ fv'.val * advanceRate s :=
      mul_le_mul_of_nonneg_right hle hrate
    obtain ⟨a, ha⟩ := quote_of_le hs hfv (by omega)
    refine ⟨a, ha, ?_⟩
    rw [((quote_eq_ok_iff hs hfv).1 ha).2, ha']
    exact share_mono (by decide) hrate hle
  case antitone =>
    intro s' fv a hfv hle hs' ha
    obtain ⟨hfit, ha⟩ := (quote_eq_ok_iff hs hfv).1 ha
    have hrate' : advanceRate s' ≤ advanceRate s := by rw [advanceRate, advanceRate]; omega
    have hmul : fv.val * advanceRate s' ≤ fv.val * advanceRate s :=
      mul_le_mul_of_nonneg_left hrate' hfv.le
    obtain ⟨a', ha'⟩ := quote_of_le hs' hfv (by omega)
    refine ⟨a', ha', ?_⟩
    rw [((quote_eq_ok_iff hs' hfv).1 ha').2, ha]
    exact share_mono_rate (by decide) hfv.le hrate'
  case split =>
    intro x y z a b c hx hy hz ha hb hc
    rw [((quote_eq_ok_iff hs hx).1 ha).2, ((quote_eq_ok_iff hs hy).1 hb).2,
      ((quote_eq_ok_iff hs (by omega)).1 hc).2, hz]
    exact share_add (by decide) x.val y.val

/-- The laws at the discount of 1234 basis points. -/
theorem advance_priced_1234 :
    (discountBps { Store.empty with discountBps := some 1234 }).toNat < 10000 ∧
      AdvancePricing { Store.empty with discountBps := some 1234 } :=
  ⟨by decide, advance_priced _ (by decide)⟩

end Pool

end InvoiceFi
