import InvoiceFi.Contracts.Settlement.Steps

/-!
# The fee counters

`collected_fees` grows by the fee of every payment and shrinks by every withdrawal of fees,
`withdrawn_fees` grows by every withdrawal. `fees_step` says so of one step, and
`Machine.accumulate` of a run: the two counters always add up to the fees taken, and the second is
always what was paid out. A withdrawal is bounded above by what is collected and not bounded
below, so the signs and bounds of the counters hold in exactly the runs that withdraw no negative
amount (`fee_ledger_sound_iff`).
-/

namespace InvoiceFi

namespace Settlement

/-! ## Readings of a step -/

/-- The fee that an accepted payment publishes. -/
def feeTaken (t : SettlementStep) : ℤ :=
  match t.input.2, t.post.events.getLast? with
  | .settleInvoice _ _ _ _ _, some (.settled _ _ _ _ fee _ _) => if t.Accepted then fee.val else 0
  | _, _ => 0

/-- What an accepted withdrawal of fees pays out. -/
def paidOut (t : SettlementStep) : ℤ :=
  match t.input.2 with
  | .withdrawFees _ _ amount => if t.Accepted then amount.val else 0
  | _ => 0

/-- The fees of the accepted payments of a run. -/
def feesTaken (is : List (Env × Call)) : ℤ :=
  ((settlement.trace settlement.init is).map feeTaken).sum

/-- What the accepted withdrawals of a run paid out. -/
def feesPaidOut (is : List (Env × Call)) : ℤ :=
  ((settlement.trace settlement.init is).map paidOut).sum

section
variable {t : SettlementStep}

/-- A rejected step takes no fee and pays nothing out. -/
theorem rejected_fees (ht : ¬ t.Accepted) : feeTaken t = 0 ∧ paidOut t = 0 := by
  unfold feeTaken paidOut
  constructor <;> split <;> simp [ht]

/-- A step of another call takes no fee and pays nothing out. -/
theorem idle_fees (ht : t.input.2.movesFees = false) : feeTaken t = 0 ∧ paidOut t = 0 := by
  unfold feeTaken paidOut
  constructor
  · split
    · next heq _ => rw [heq] at ht; cases ht
    · rfl
  · split
    · next heq => rw [heq] at ht; cases ht
    · rfl

end

/-! ## The counters -/

/-- Before the setup there is no invoice and both counters are zero. -/
def FreshUntilSetup (s : Store) : Prop :=
  s.ac.multisig = none → (∀ invoiceId, terms s invoiceId = none) ∧ collected s = 0 ∧
    withdrawn s = 0

theorem multisig_ne_none {st : AccessControl.Store} {a : Address}
    (h : AccessControl.isSigner st a = true) : st.multisig ≠ none := by
  obtain ⟨cfg, hcfg, -⟩ := AccessControl.isSigner_iff.1 h
  rw [hcfg]
  exact Option.some_ne_none cfg

theorem FreshUntilSetup.step {i : Env × Call} {s s' : Store} {u : Unit} (h : FreshUntilSetup s)
    (hi : settlement.invoke i s = .ok (u, s')) : FreshUntilSetup s' := by
  intro hn
  rcases settlement_cases hi with ⟨sg, th, tl, ac, -, -, hm, rfl⟩ |
    ⟨c, j, b, f, a, d, r, -, hset⟩ | ⟨c, rate, -, hset⟩ | ⟨c, p, a, -, hset⟩ |
    ⟨c, j, n, a, k, -, hset⟩ | ⟨-, hsame⟩
  · exact absurd hn hm
  · obtain ⟨⟨-, hsig⟩, rfl⟩ := setInvoiceData_eq_ok.1 hset
    exact absurd hn (multisig_ne_none hsig)
  · obtain ⟨⟨-, hsig⟩, rfl⟩ := setFeeRate_eq_ok.1 hset
    exact absurd hn (multisig_ne_none hsig)
  · obtain ⟨⟨-, hsig⟩, -, -, c', -, w, -, rfl⟩ := withdrawFees_eq_ok.1 hset
    exact absurd hn (multisig_ne_none hsig)
  · -- a payment needs a record, and there is none
    obtain ⟨tm, p, hpay⟩ := pays_of_settleInvoice hset
    rw [hpay.access] at hn
    have hnone := (h hn).1 j
    rw [hpay.found] at hnone
    cases hnone
  · obtain ⟨hterms, hc, hw⟩ := h (hsame.initialized hn)
    refine ⟨fun j => by rw [hsame.terms]; exact hterms j, ?_, ?_⟩
    · rw [collected, getCollectedFees, hsame.collectedFees]; exact hc
    · rw [withdrawn, getWithdrawnFees, hsame.withdrawnFees]; exact hw

/-- What a step does to the counters: it moves the first by its fee less what it pays out and the
second by what it pays out; the fee is not negative, and what is paid out was collected. -/
structure FeesMoved (t : SettlementStep) : Prop where
  collected : collected t.post = collected t.pre + (feeTaken t - paidOut t)
  withdrawn : withdrawn t.post = withdrawn t.pre + paidOut t
  fee_nonneg : 0 ≤ feeTaken t
  covered : paidOut t = 0 ∨ paidOut t ≤ Settlement.collected t.pre

theorem FeesMoved.idle {t : SettlementStep} (ht : feeTaken t = 0 ∧ paidOut t = 0)
    (hcol : Settlement.collected t.post = Settlement.collected t.pre)
    (hwit : Settlement.withdrawn t.post = Settlement.withdrawn t.pre) : FeesMoved t := by
  obtain ⟨hf, hp⟩ := ht
  exact ⟨by omega, by omega, by omega, .inl hp⟩

theorem FeesMoved.withdrawal {i : Env × Call} {s s' : Store} {u : Unit} {c p : Address} {a : I128}
    (hc : i.2 = .withdrawFees c p a) (h : withdrawFees i.1 s c p a = .ok s') :
    FeesMoved ⟨s, i, .ok u, s'⟩ := by
  have hacc : (⟨s, i, .ok u, s'⟩ : SettlementStep).Accepted := rfl
  have hfee : feeTaken ⟨s, i, .ok u, s'⟩ = 0 := by simp only [feeTaken, hc]
  have hout : paidOut ⟨s, i, .ok u, s'⟩ = a.val := by simp only [paidOut, hc, hacc, if_true]
  obtain ⟨-, -, hle, col, hcol, wit, hwit, hs'⟩ := withdrawFees_eq_ok.1 h
  refine ⟨?_, ?_, hfee.ge, .inr (by rw [hout]; exact hle)⟩
  · have hcol' : Settlement.collected s' = col.val := by rw [hs']; rfl
    rw [hfee, hout, hcol', hcol, zero_sub]
    exact sub_eq_add_neg _ _
  · have hwit' : Settlement.withdrawn s' = wit.val := by rw [hs']; rfl
    rw [hout, hwit', hwit]
    rfl

theorem FeesMoved.payment {i : Env × Call} {s s' : Store} {u : Unit} {c : Address} {j : Symbol}
    {n : UInt64} {a : I128} {k : UInt32} (hc : i.2 = .settleInvoice c j n a k)
    (h : settleInvoice i.1 s c j n a k = .ok s') : FeesMoved ⟨s, i, .ok u, s'⟩ := by
  have hacc : (⟨s, i, .ok u, s'⟩ : SettlementStep).Accepted := rfl
  obtain ⟨tm, p, hpay⟩ := pays_of_settleInvoice h
  obtain ⟨fee, net, hev, hfee, -⟩ := hpay.published
  have htaken : feeTaken ⟨s, i, .ok u, s'⟩ = feeAt (feeRate s) a.val := by
    rw [← hfee]
    simp only [feeTaken, hc, hev, hacc, if_true]
  have hout : paidOut ⟨s, i, .ok u, s'⟩ = 0 := by simp only [paidOut, hc]
  refine ⟨?_, ?_, ?_, .inl hout⟩
  · rw [htaken, hout, sub_zero]
    exact hpay.collected
  · rw [hout, add_zero, Settlement.withdrawn, getWithdrawnFees, hpay.withdrawn]
    rfl
  · rw [htaken]
    exact share_nonneg rateDenominator_pos (feeRate_nonneg s) hpay.pos.le

/-- Every step from a state that is fresh until its setup moves the counters so. -/
theorem fees_step (i : Env × Call) {s : Store} (hs : FreshUntilSetup s) :
    FeesMoved (settlement.step i s) := by
  rcases Machine.step_cases (m := settlement) i s with ⟨u, s', hi, ht⟩ | ⟨e, -, ht⟩
  · rw [ht]
    rcases settlement_cases hi with ⟨sg, th, tl, ac, hc, hm, -, hs'⟩ |
      ⟨c, j, b, f, a, d, r, hc, h⟩ | ⟨c, rate, hc, h⟩ | ⟨c, p, a, hc, h⟩ |
      ⟨c, j, n, a, k, hc, h⟩ | ⟨hc, hsame⟩
    · -- setup: the counters it resets to zero were zero
      obtain ⟨-, hcol, hwit⟩ := hs hm
      refine .idle (idle_fees (by simp only [hc]; rfl)) ?_ ?_
      · rw [hcol, hs']; rfl
      · rw [hwit, hs']; rfl
    · obtain ⟨-, hs'⟩ := setInvoiceData_eq_ok.1 h
      exact .idle (idle_fees (by simp only [hc]; rfl)) (by rw [hs']; rfl) (by rw [hs']; rfl)
    · obtain ⟨-, hs'⟩ := setFeeRate_eq_ok.1 h
      exact .idle (idle_fees (by simp only [hc]; rfl)) (by rw [hs']; rfl) (by rw [hs']; rfl)
    · exact .withdrawal hc h
    · exact .payment hc h
    · exact .idle (idle_fees (Call.idle_of_movesBooks hc).2)
        (by rw [collected, getCollectedFees, hsame.collectedFees]; rfl)
        (by rw [withdrawn, getWithdrawnFees, hsame.withdrawnFees]; rfl)
  · rw [ht]
    exact .idle (rejected_fees Bool.false_ne_true) rfl rfl

theorem freshUntilSetup_exec (is : List (Env × Call)) :
    FreshUntilSetup (settlement.exec settlement.init is) :=
  Machine.invariant (I := FreshUntilSetup) (fun _ => ⟨fun _ => rfl, rfl, rfl⟩)
    (fun _ _ _ _ h hi => h.step hi) is

/-! ## Runs -/

/-- What was withdrawn is what was paid out. -/
theorem withdrawn_exec (is : List (Env × Call)) :
    withdrawn (settlement.exec settlement.init is) = feesPaidOut is := by
  have h := Machine.accumulate (I := FreshUntilSetup) withdrawn paidOut
    (fun _ _ _ _ h hi => h.step hi) (fun i s hs => ?_) (freshUntilSetup_exec []) is
  · exact h.trans (zero_add _)
  · rw [(fees_step i hs).withdrawn, Machine.step_pre]

/-- What was collected and what was withdrawn are the fees taken. -/
theorem collected_add_withdrawn_exec (is : List (Env × Call)) :
    collected (settlement.exec settlement.init is) +
      withdrawn (settlement.exec settlement.init is) = feesTaken is := by
  have h := Machine.accumulate (I := FreshUntilSetup) (fun s => collected s + withdrawn s) feeTaken
    (fun _ _ _ _ h hi => h.step hi) (fun i s hs => ?_) (freshUntilSetup_exec []) is
  · exact h.trans (zero_add _)
  · have hmoved := fees_step i hs
    rw [hmoved.collected, hmoved.withdrawn, Machine.step_pre]
    omega

/-- The ledger of fees after a run: the counters add up to the fees taken, the second is what was
paid out, neither is negative, and no more was withdrawn than the fees taken. -/
structure FeesSolvent (is : List (Env × Call)) : Prop where
  conserved : collected (settlement.exec settlement.init is) +
    withdrawn (settlement.exec settlement.init is) = feesTaken is
  paid : withdrawn (settlement.exec settlement.init is) = feesPaidOut is
  collected_nonneg : 0 ≤ collected (settlement.exec settlement.init is)
  withdrawn_nonneg : 0 ≤ withdrawn (settlement.exec settlement.init is)
  bounded : withdrawn (settlement.exec settlement.init is) ≤ feesTaken is

/-- The ledger of fees is solvent in every state the run goes through, and no step of it decreases
what was withdrawn. -/
def FeeLedgerSound (is : List (Env × Call)) : Prop :=
  (∀ is₁ is₂, is = is₁ ++ is₂ → FeesSolvent is₁) ∧
    ∀ t ∈ settlement.trace settlement.init is, withdrawn t.pre ≤ withdrawn t.post

/-- The step pays out no negative amount. -/
def PaysOutNonneg (t : SettlementStep) : Prop :=
  ∀ caller payee amount, t.input.2 = .withdrawFees caller payee amount → t.Accepted →
    0 ≤ amount.val

theorem PaysOutNonneg.paidOut_nonneg {t : SettlementStep} (h : PaysOutNonneg t) :
    0 ≤ paidOut t := by
  unfold paidOut
  split
  · next c p a heq =>
    split
    · next hacc => exact h c p a heq hacc
    · exact le_rfl
  · exact le_rfl

/-- A successful call that pays out no negative amount keeps both counters non-negative. -/
theorem FeesMoved.nonneg {t : SettlementStep} (h : FeesMoved t) (hp : PaysOutNonneg t)
    (hpre : 0 ≤ Settlement.collected t.pre ∧ 0 ≤ Settlement.withdrawn t.pre) :
    0 ≤ Settlement.collected t.post ∧ 0 ≤ Settlement.withdrawn t.post := by
  have hout := hp.paidOut_nonneg
  have hfee := h.fee_nonneg
  rw [h.collected, h.withdrawn]
  rcases h.covered with hcov | hcov
  · exact ⟨by omega, by omega⟩
  · exact ⟨by omega, by omega⟩

/-- In a run that pays out no negative amount both counters stay non-negative. -/
theorem counters_nonneg {is : List (Env × Call)}
    (h : ∀ t ∈ settlement.trace settlement.init is, PaysOutNonneg t) :
    0 ≤ collected (settlement.exec settlement.init is) ∧
      0 ≤ withdrawn (settlement.exec settlement.init is) := by
  have key : FreshUntilSetup (settlement.exec settlement.init is) ∧
      0 ≤ collected (settlement.exec settlement.init is) ∧
      0 ≤ withdrawn (settlement.exec settlement.init is) := by
    refine Machine.invariant_of
      (I := fun s => FreshUntilSetup s ∧ 0 ≤ collected s ∧ 0 ≤ withdrawn s) (C := PaysOutNonneg)
      ⟨freshUntilSetup_exec [], le_rfl, le_rfl⟩ (fun i s u s' hI hC hi => ?_) h
    have hmoved := fees_step i hI.1
    rw [Machine.step_of_ok hi] at hmoved
    exact ⟨hI.1.step hi, hmoved.nonneg hC hI.2⟩
  exact key.2

/-- **When the fee ledger is sound.** In every run the counters add up to the fees taken and what
was withdrawn is what was paid out; neither counter is ever negative, what was withdrawn never
decreases and never exceeds the fees taken, if and only if no accepted `withdraw_fees` of the run
has a negative amount. -/
theorem fee_ledger_sound_iff (is : List (Env × Call)) :
    FeeLedgerSound is ↔ ∀ t ∈ settlement.trace settlement.init is, PaysOutNonneg t := by
  -- how a step of the run moves what was withdrawn
  have hmove : ∀ t ∈ settlement.trace settlement.init is,
      withdrawn t.post = withdrawn t.pre + paidOut t := by
    intro t ht
    obtain ⟨is₁, i, is₂, -, rfl⟩ := Machine.mem_trace.1 ht
    exact (fees_step i (freshUntilSetup_exec is₁)).withdrawn
  constructor
  · rintro ⟨-, hmono⟩ t ht caller payee amount hc hacc
    have hout : paidOut t = amount.val := by simp only [paidOut, hc, hacc, if_true]
    have hle := hmono t ht
    rw [hmove t ht, hout] at hle
    omega
  · intro h
    refine ⟨?_, fun t ht => ?_⟩
    · rintro is₁ is₂ rfl
      have h₁ : ∀ t ∈ settlement.trace settlement.init is₁, PaysOutNonneg t :=
        fun t ht => h t (Machine.mem_trace_append ht)
      have hnonneg := counters_nonneg h₁
      have hsum := collected_add_withdrawn_exec is₁
      exact ⟨hsum, withdrawn_exec is₁, hnonneg.1, hnonneg.2, by omega⟩
    · rw [hmove t ht]
      have hout := (h t ht).paidOut_nonneg
      omega

/-- A run that withdraws a negative amount right after the setup. -/
def negativeWithdrawal : List (Env × Call) :=
  [(⟨1, 0, []⟩, .init [⟨1⟩] 1 34560), (⟨1, 0, [⟨1⟩]⟩, .withdrawFees ⟨1⟩ ⟨2⟩ (.lit (-1)))]

/-- Without the condition the fee ledger is not sound: a withdrawal of -1 is accepted, after which
1 is collected and -1 withdrawn, with no fee ever taken. -/
theorem negative_withdrawal_unsound :
    ¬ FeeLedgerSound negativeWithdrawal ∧
    collected (settlement.exec settlement.init negativeWithdrawal) = 1 ∧
    withdrawn (settlement.exec settlement.init negativeWithdrawal) = -1 := by
  have hwit : withdrawn (settlement.exec settlement.init negativeWithdrawal) = -1 := by decide
  refine ⟨fun h => ?_, by decide, hwit⟩
  have hnonneg := (h.1 negativeWithdrawal [] (List.append_nil _).symm).withdrawn_nonneg
  omega

end Settlement

end InvoiceFi
