import InvoiceFi.Contracts.AccessControl.Authority
import InvoiceFi.Contracts.Pool.Ledger

/-!
# Who can move the pool's funds

The book of the pool is covered at every posting, so a balance goes down by a withdrawal of its
owner and by nothing else, and the liquidity by a withdrawal or an advance. `outflow_authorized`
says who stands behind either, in every run: the payee of the withdrawal, who authorized it, or a
caller who authorized the funding and was a signer at that time or held the liquidity-manager role
by a grant in the pool's own history. Neither goes through while the pool is paused.
-/

namespace InvoiceFi

namespace Pool

open AccessControl (Granted)

/-- A step that posts a withdrawal is an accepted call of `withdraw` by an authorized payee, while
the pool is running. -/
theorem withdraw_of_posting {s : Store} {i : Env × Call} {a : Address} {x : ℤ}
    (h : posting (pool.step i s) = .withdraw a x) :
    ∃ amount, i.2 = .withdraw a amount ∧ amount.val = x ∧ a ∈ i.1.auths ∧
      AccessControl.isPaused s.ac = false := by
  rcases Machine.step_cases (m := pool) i s with ⟨r, s', hi, ht⟩ | ⟨e, -, ht⟩
  · rw [ht] at h
    rcases pool_cases hi with
      ⟨sg, th, tl, bps, ac, hc, -⟩ | ⟨d, amount, hc, -⟩ | ⟨p, amount, hc, hw⟩ |
      ⟨c, n, fv, p, adv, hc, rfl, -⟩ | ⟨hc, -⟩
    · rw [posting_idle (.inl (by rw [hc]; rfl))] at h
      cases h
    · simp only [posting, hc] at h
      cases h
    · simp only [posting, hc] at h
      obtain ⟨rfl, rfl⟩ := Posting.withdraw.inj h
      obtain ⟨-, hp, hauth, -⟩ := withdraw_eq_ok.1 hw
      exact ⟨amount, hc, rfl, hauth, hp⟩
    · simp only [posting, hc] at h
      cases h
    · rw [posting_idle (.inl hc)] at h
      cases h
  · have hrej : ¬ (⟨s, i, .error e, s⟩ : PoolStep).Accepted := Bool.false_ne_true
    rw [ht, posting_idle (.inr hrej)] at h
    cases h

/-- A step that posts an advance is an accepted call of `fund_invoice` by an authorized signer or
holder of the liquidity-manager role, while the pool is running. -/
theorem fundInvoice_of_posting {s : Store} {i : Env × Call} {a : Address} {x : ℤ}
    (h : posting (pool.step i s) = .advance a x) :
    ∃ caller invoiceId faceValue, i.2 = .fundInvoice caller invoiceId faceValue a ∧
      caller ∈ i.1.auths ∧ AccessControl.isPaused s.ac = false ∧
      (AccessControl.isSigner s.ac caller = true ∨
        AccessControl.hasRole s.ac .liquidityManager caller = true) := by
  rcases Machine.step_cases (m := pool) i s with ⟨r, s', hi, ht⟩ | ⟨e, -, ht⟩
  · rw [ht] at h
    rcases pool_cases hi with
      ⟨sg, th, tl, bps, ac, hc, -⟩ | ⟨d, amount, hc, -⟩ | ⟨p, amount, hc, -⟩ |
      ⟨c, n, fv, p, adv, hc, rfl, hf⟩ | ⟨hc, -⟩
    · rw [posting_idle (.inl (by rw [hc]; rfl))] at h
      cases h
    · simp only [posting, hc] at h
      cases h
    · simp only [posting, hc] at h
      cases h
    · simp only [posting, hc] at h
      obtain ⟨rfl, rfl⟩ := Posting.advance.inj h
      obtain ⟨-, ⟨hauth, hrole⟩, hp, -⟩ := fundInvoice_eq_ok.1 hf
      exact ⟨c, n, fv, hc, hauth, hp, hrole⟩
    · rw [posting_idle (.inl hc)] at h
      cases h
  · have hrej : ¬ (⟨s, i, .error e, s⟩ : PoolStep).Accepted := Bool.false_ne_true
    rw [ht, posting_idle (.inr hrej)] at h
    cases h

/-- **Funds leave the pool by authority only.** After every run and for whatever is called next: a
balance goes down only by a withdrawal that its owner authorized, by the amount withdrawn; the
liquidity goes down only by such a withdrawal, or by a funding that its caller authorized who is a
signer or was granted the liquidity-manager role by a signer of the time, not revoked since; and
both only while the pool is not paused. -/
theorem outflow_authorized (is : List (Env × Call)) (i : Env × Call) :
    (∀ a, (balanceOf (pool.step i (pool.exec pool.init is)).post a).val <
        (balanceOf (pool.exec pool.init is) a).val →
      ∃ amount, i.2 = .withdraw a amount ∧ a ∈ i.1.auths ∧
        AccessControl.isPaused (pool.exec pool.init is).ac = false ∧
        (balanceOf (pool.exec pool.init is) a).val =
          (balanceOf (pool.step i (pool.exec pool.init is)).post a).val + amount.val) ∧
    ((availableLiquidity (pool.step i (pool.exec pool.init is)).post).val <
        (availableLiquidity (pool.exec pool.init is)).val →
      AccessControl.isPaused (pool.exec pool.init is).ac = false ∧
      ((∃ payee amount, i.2 = .withdraw payee amount ∧ payee ∈ i.1.auths) ∨
        ∃ caller invoiceId faceValue recipient,
          i.2 = .fundInvoice caller invoiceId faceValue recipient ∧ caller ∈ i.1.auths ∧
          (AccessControl.isSigner (pool.exec pool.init is).ac caller = true ∨
            Granted embedding .liquidityManager caller (pool.trace pool.init is)))) := by
  obtain ⟨hbook, hcov⟩ := book_step (poolOK_exec is) i
  refine ⟨fun a hlt => ?_, fun hlt => ?_⟩
  · have hclaim := congrArg (fun b => Book.claim b a) hbook
    obtain ⟨x, hx⟩ := Book.withdraw_of_claim_lt hcov (a := a) (by rw [← hbook]; exact hlt)
    obtain ⟨amount, hc, rfl, hauth, hp⟩ := withdraw_of_posting hx
    refine ⟨amount, hc, hauth, hp, ?_⟩
    rw [hx, Book.post_claim] at hclaim
    simp only [Posting.ofAccount, if_true, Posting.deposited, Posting.advanced,
      Posting.withdrawn] at hclaim
    have hpost : (book (pool.step i (pool.exec pool.init is)).post).claim a =
        (balanceOf (pool.step i (pool.exec pool.init is)).post a).val := rfl
    have hpre : (book (pool.exec pool.init is)).claim a =
        (balanceOf (pool.exec pool.init is) a).val := rfl
    omega
  · obtain ⟨a, x, hx | hx⟩ := Book.outflow_of_pooled_lt hcov (by rw [← hbook]; exact hlt)
    · obtain ⟨amount, hc, -, hauth, hp⟩ := withdraw_of_posting hx
      exact ⟨hp, .inl ⟨a, amount, hc, hauth⟩⟩
    · obtain ⟨caller, n, fv, hc, hauth, hp, hrole⟩ := fundInvoice_of_posting hx
      exact ⟨hp, .inr ⟨caller, n, fv, a, hc, hauth,
        AccessControl.authority_of_requireRole (e := embedding) (by decide) hrole⟩⟩

end Pool

end InvoiceFi
