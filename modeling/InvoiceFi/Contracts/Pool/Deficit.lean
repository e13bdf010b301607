import InvoiceFi.Contracts.Pool.Ledger
import InvoiceFi.Lib.Total

/-!
# What the pool owes

Every balance of the pool is a claim on its un-deployed liquidity. A deposit adds to both and a
withdrawal takes from both, but an advance takes from the liquidity and is credited to the
recipient's balance as well, so it sets the two apart by twice its size. `claims_exceed_liquidity`
says by how much in every state a run reaches: the claims of all addresses add up to the liquidity
and twice the advances of all invoices on record. Repayments do not come back to the pool: no call
of the contract lowers the difference.
-/

namespace InvoiceFi

namespace Pool

/-- What was advanced on an invoice. -/
def advanceOn (s : Store) (invoiceId : UInt64) : ℤ := (s.funding invoiceId).elim 0 (·.advance.val)

/-- The advances on record add up to some sum, and the claims exceed the liquidity by twice that. -/
def Deficit (s : Store) : Prop := ∃ x, Totals (advanceOn s) x ∧ (book s).Owes (x + x)

theorem Deficit.empty : Deficit .empty := ⟨0, .zero, .zero⟩

/-- The advance of a funding that is recorded. -/
theorem advanceOn_fundInvoice {env : Env} {s s' : Store} {c p : Address} {n : UInt64}
    {fv adv : I128} (h : fundInvoice env s c n fv p = .ok (adv, s')) :
    advanceOn s' = Function.update (advanceOn s) n (advanceOn s n + adv.val) := by
  obtain ⟨-, -, -, -, hnone, -, -, -, v, -, b, -, rfl⟩ := fundInvoice_eq_ok.1 h
  funext k
  by_cases hk : k = n
  · subst hk
    simp [advanceOn, hnone]
  · simp [advanceOn, Function.update_of_ne hk]

/-- A successful call that is no funding advances nothing and leaves the fundings on record
alone. -/
theorem advanceOn_of_invoke {i : Env × Call} {s s' : Store} {r : Value}
    (h : pool.invoke i s = .ok (r, s')) :
    (∃ c n fv p adv, i.2 = .fundInvoice c n fv p ∧ r = .int adv ∧
      fundInvoice i.1 s c n fv p = .ok (adv, s')) ∨
    (advanceOn s' = advanceOn s ∧ (posting ⟨s, i, .ok r, s'⟩).advanced = 0) := by
  rcases pool_cases h with
    ⟨sg, th, tl, bps, ac, hc, -, -, -, rfl⟩ | ⟨d, amount, hc, h⟩ | ⟨p, amount, hc, h⟩ | hfund |
    ⟨hc, h⟩
  · refine .inr ⟨rfl, ?_⟩
    rw [posting_idle (.inl (by rw [hc]; rfl))]
    rfl
  · obtain ⟨-, -, -, -, -, b, -, v, -, rfl⟩ := deposit_eq_ok.1 h
    refine .inr ⟨rfl, ?_⟩
    simp only [posting, hc]
    rfl
  · obtain ⟨-, -, -, -, -, -, -, b, -, v, -, rfl⟩ := withdraw_eq_ok.1 h
    refine .inr ⟨rfl, ?_⟩
    simp only [posting, hc]
    rfl
  · exact .inl hfund
  · refine .inr ⟨?_, ?_⟩
    · funext n
      rw [advanceOn, advanceOn, h.funding]
    · rw [posting_idle (.inl hc)]
      rfl

/-- Every successful call keeps the claims that far above the liquidity. -/
theorem Deficit.step {i : Env × Call} {s s' : Store} {r : Value} (hok : PoolOK s)
    (hs : Deficit s) (h : pool.invoke i s = .ok (r, s')) : Deficit s' := by
  obtain ⟨x, hx, hb⟩ := hs
  have hbook := (book_step hok i).1
  rw [Machine.step_of_ok h] at hbook
  have howes := hb.post (posting ⟨s, i, .ok r, s'⟩)
  rw [← hbook] at howes
  rcases advanceOn_of_invoke h with ⟨c, n, fv, p, adv, hc, rfl, hf⟩ | ⟨hadv, hzero⟩
  · refine ⟨x + adv.val, ?_, ?_⟩
    · rw [advanceOn_fundInvoice hf]
      exact hx.update n adv.val
    · have hpost : (posting ⟨s, i, .ok (.int adv), s'⟩).advanced = adv.val := by
        simp only [posting, hc, Posting.advanced]
      have hsum : x + adv.val + (x + adv.val) = x + x + (adv.val + adv.val) := by omega
      rw [hpost] at howes
      rwa [hsum]
  · rw [hzero, add_zero, add_zero] at howes
    exact ⟨x, by rwa [hadv], howes⟩

/-- **The claims exceed the liquidity by twice the advances.** In every state a run reaches,
finitely many addresses have a balance and finitely many invoices an advance, and the balances of
all addresses add up to the available liquidity and twice the advances of all invoices on
record. -/
theorem claims_exceed_liquidity (is : List (Env × Call)) :
    {a | (balanceOf (pool.exec pool.init is) a).val ≠ 0}.Finite ∧
    {n | advanceOn (pool.exec pool.init is) n ≠ 0}.Finite ∧
    finsum (fun a => (balanceOf (pool.exec pool.init is) a).val) =
      (availableLiquidity (pool.exec pool.init is)).val +
        2 * finsum (advanceOn (pool.exec pool.init is)) := by
  obtain ⟨-, x, hx, hb⟩ : PoolOK (pool.exec pool.init is) ∧ Deficit (pool.exec pool.init is) :=
    Machine.invariant (I := fun s => PoolOK s ∧ Deficit s) ⟨.empty, .empty⟩
      (fun _ _ _ _ h hi => ⟨h.1.step hi, h.2.step h.1 hi⟩) is
  refine ⟨hb.finite, hx.finite, ?_⟩
  rw [hx.total, two_mul]
  exact hb.total

end Pool

end InvoiceFi
