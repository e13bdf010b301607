import InvoiceFi.Contracts.AccessControl.Pausing
import InvoiceFi.Contracts.Invoice
import InvoiceFi.Contracts.Pool.Ledger
import InvoiceFi.Contracts.Settlement.Records

/-!
# What a pause freezes

Every entry point of the three contracts that moves an invoice, a token, an approval, funds, a
nonce or a fee asks for the pause flag by itself; `pause_freezes` puts them together. While a
contract is paused nobody but a signer changes its business state, with one exception that the
list of gated entry points makes on purpose: `settlement_auth` and `request_settlement_auth` do not
move money, are not gated, and go on recording the approvals of the record they name
(`approved_while_paused`).
-/

namespace InvoiceFi

open AccessControl (Freezes isPaused isSigner)

/-! ## The invoice contract -/

namespace Invoicing

/-- Who makes a call; the setup has no caller. -/
def Call.caller : Call → Option Address
  | .init _ _ _ => none
  | .mint c _ _ _ _ | .fund c _ _ | .approve c _ _ | .transfer c _ _ | .transferFrom c _ _ _
  | .updateStatus c _ _ => some c
  | .access o => some o.caller

/-- The step keeps the invoices, the tokens, the approvals and the id counter. -/
structure BusinessKept (t : InvoiceStep) : Prop where
  invoice : t.post.invoice = t.pre.invoice
  token : t.post.token = t.pre.token
  approval : t.post.approval = t.pre.approval
  counter : t.post.counter = t.pre.counter

/-- A paused invoice contract keeps its business state, whoever calls. -/
theorem businessKept_of_invoke {i : Env × Call} {s s' : Store} {r : Value}
    (h : invoiceContract.invoke i s = .ok (r, s')) (hp : isPaused s.ac = true)
    (hm : s.ac.multisig ≠ none) : BusinessKept ⟨s, i, .ok r, s'⟩ := by
  have hrun := AccessControl.not_running hp
  obtain ⟨env, c⟩ := i
  cases c with
  | init sg th tl =>
    obtain ⟨_, h, -⟩ := map_eq_ok.1 h
    obtain ⟨ac, hac, -⟩ := init_eq_ok.1 h
    exact absurd (AccessControl.init_eq_ok.1 hac).1 hm
  | mint owner amount crop due md =>
    obtain ⟨⟨n, s₁⟩, hmint, -⟩ := map_eq_ok.1 h
    exact absurd (mint_eq_ok.1 hmint).2.1 hrun
  | fund c n d =>
    obtain ⟨_, h, -⟩ := map_eq_ok.1 h
    exact absurd (fund_eq_ok.1 h).2.2.1 hrun
  | approve o sp n =>
    obtain ⟨_, h, -⟩ := map_eq_ok.1 h
    exact absurd (approve_eq_ok.1 h).1 hrun
  | transfer x y n =>
    obtain ⟨_, h, -⟩ := map_eq_ok.1 h
    exact absurd (transfer_eq_ok.1 h).1 hrun
  | transferFrom sp x y n =>
    obtain ⟨_, h, -⟩ := map_eq_ok.1 h
    exact absurd (transferFrom_eq_ok.1 h).1 hrun
  | updateStatus c n st =>
    obtain ⟨_, h, -⟩ := map_eq_ok.1 h
    exact absurd (updateStatus_eq_ok.1 h).2.2.1 hrun
  | access o =>
    obtain ⟨_, h, heq⟩ := map_eq_ok.1 h
    cases heq
    obtain ⟨ac, -, rfl⟩ := access_eq_ok.1 h
    exact ⟨rfl, rfl, rfl, rfl⟩

/-- A pause freezes the invoice contract. -/
theorem freezes : Freezes embedding (fun i => i.2.caller) BusinessKept :=
  .of_invoke (fun _ _ _ => ⟨rfl, rfl, rfl, rfl⟩) fun _ _ _ _ h hp hm _ =>
    businessKept_of_invoke h hp hm

end Invoicing

/-! ## The financing pool -/

namespace Pool

/-- Who makes a call; the setup has no caller. -/
def Call.caller : Call → Option Address
  | .init _ _ _ _ => none
  | .deposit c _ | .withdraw c _ | .fundInvoice c _ _ _ | .setTokenAddress c _ _
  | .setOracleDiscountConfig c _ | .setPriceFeed c _ _ => some c
  | .access o => some o.caller

/-- The step keeps the balances, the available liquidity and the fundings. -/
structure BusinessKept (t : PoolStep) : Prop where
  balance : t.post.balance = t.pre.balance
  available : t.post.available = t.pre.available
  funding : t.post.funding = t.pre.funding

/-- A paused pool keeps its funds, whoever calls. -/
theorem businessKept_of_invoke {i : Env × Call} {s s' : Store} {r : Value}
    (h : pool.invoke i s = .ok (r, s')) (hp : isPaused s.ac = true)
    (hm : s.ac.multisig ≠ none) : BusinessKept ⟨s, i, .ok r, s'⟩ := by
  have hrun := AccessControl.not_running hp
  rcases pool_cases h with ⟨sg, th, tl, bps, ac, -, hm', -⟩ | ⟨d, a, -, h⟩ | ⟨p, a, -, h⟩ |
    ⟨c, n, fv, p, adv, -, -, h⟩ | ⟨-, h⟩
  · exact absurd hm' hm
  · exact absurd (deposit_eq_ok.1 h).2.1 hrun
  · exact absurd (withdraw_eq_ok.1 h).2.1 hrun
  · exact absurd (fundInvoice_eq_ok.1 h).2.2.1 hrun
  · exact ⟨h.balance, h.available, h.funding⟩

/-- A pause freezes the pool. -/
theorem freezes : Freezes embedding (fun i => i.2.caller) BusinessKept :=
  .of_invoke (fun _ _ _ => ⟨rfl, rfl, rfl⟩) fun _ _ _ _ h hp hm _ =>
    businessKept_of_invoke h hp hm

end Pool

/-! ## The settlement contract -/

namespace Settlement

/-- Who makes a call; the setup has no caller. -/
def Call.caller : Call → Option Address
  | .init _ _ _ => none
  | .setAuthorizedPayers c _ | .setFinanciers c _ | .setInvoiceData c _ _ _ _ _ _
  | .setFeeRate c _ | .setEscrowPubkey c _ | .submitAttestation c _ _
  | .settlementAuth c _ _ _ _ | .requestSettlementAuth c _ | .withdrawFees c _ _
  | .setFinancingPoolAddress c _ | .settleInvoice c _ _ _ _ => some c
  | .access o => some o.caller

/-- The step keeps the nonce lists and the fee counters. -/
structure CountersKept (t : SettlementStep) : Prop where
  nonceMeta : t.post.nonceMeta = t.pre.nonceMeta
  collectedFees : t.post.collectedFees = t.pre.collectedFees
  withdrawnFees : t.post.withdrawnFees = t.pre.withdrawnFees

/-- The step keeps the invoice records, the nonce lists and the fee counters. -/
structure BusinessKept (t : SettlementStep) : Prop extends CountersKept t where
  invoiceData : t.post.invoiceData = t.pre.invoiceData

/-- Two records differ at most in the flags of the approvals. -/
def SameButApprovals (r r' : InvoiceRecord) : Prop :=
  r' = { r with
    payerApproved := r'.payerApproved
    lenderAllowed := r'.lenderAllowed
    lenderApproved := r'.lenderApproved
    payerAllowed := r'.payerAllowed }

/-- The step keeps the nonce lists, the fee counters and the invoice records, but for the approvals
that a `settlement_auth` or a `request_settlement_auth` records in the invoice it names. -/
structure BusinessKeptButApprovals (t : SettlementStep) : Prop extends CountersKept t where
  records : ∀ j, t.post.invoiceData j = t.pre.invoiceData j ∨
    ∃ c r r', t.input.2.authParts = some (c, j) ∧ t.pre.invoiceData j = some r ∧
      t.post.invoiceData j = some r' ∧ SameButApprovals r r'

/-- A paused settlement contract keeps the nonces and the fees, whoever calls. -/
theorem countersKept_of_invoke {i : Env × Call} {s s' : Store} {u : Unit}
    (h : settlement.invoke i s = .ok (u, s')) (hp : isPaused s.ac = true)
    (hm : s.ac.multisig ≠ none) : CountersKept ⟨s, i, .ok u, s'⟩ := by
  have hrun := AccessControl.not_running hp
  rcases settlement_cases h with ⟨sg, th, tl, ac, -, hm', -⟩ | ⟨c, j, b, f, a, d, r, -, h⟩ |
    ⟨c, rate, -, h⟩ | ⟨c, p, a, -, h⟩ | ⟨c, j, n, a, k, -, h⟩ | ⟨-, h⟩
  · exact absurd hm' hm
  · obtain ⟨-, rfl⟩ := setInvoiceData_eq_ok.1 h
    exact ⟨rfl, rfl, rfl⟩
  · obtain ⟨-, rfl⟩ := setFeeRate_eq_ok.1 h
    exact ⟨rfl, rfl, rfl⟩
  · exact absurd (withdrawFees_eq_ok.1 h).2.1 hrun
  · exact absurd (settleInvoice_eq_ok.1 h).2.1 hrun
  · exact ⟨h.nonceMeta, h.collectedFees, h.withdrawnFees⟩

/-- In the life of a record, a step made while the contract is paused and not by a signer changes
nothing but the approvals. -/
theorem RecordStep.paused {t : SettlementStep} {j : Symbol} {o o' : Option InvoiceRecord}
    (h : RecordStep t j o o') (hp : isPaused t.pre.ac = true)
    (hcaller : ∀ a, t.input.2.caller = some a → isSigner t.pre.ac a = false) :
    o' = o ∨ ∃ c r r', t.input.2.authParts = some (c, j) ∧ o = some r ∧ o' = some r' ∧
      SameButApprovals r r' := by
  cases h with
  | idle _ => exact .inl rfl
  | register hacc hc hsig =>
    have hno := hcaller _ (by rw [hc]; rfl)
    exact absurd (hno.symm.trans hsig) Bool.false_ne_true
  | pay hacc hc hrun => exact absurd hrun (AccessControl.not_running hp)
  | auth hacc hc hauth => exact .inr ⟨_, _, _, by rw [hc]; rfl, rfl, rfl, rfl⟩
  | request hacc hc hauth hflag => exact .inr ⟨_, _, _, by rw [hc]; rfl, rfl, rfl, rfl⟩

/-- A pause freezes the settlement contract, but for the approvals. -/
theorem freezes : Freezes embedding (fun i => i.2.caller) BusinessKeptButApprovals :=
  .of_invoke (fun _ _ _ => ⟨⟨rfl, rfl, rfl⟩, fun _ => .inl rfl⟩) fun _ _ _ _ h hp hm hcaller =>
    ⟨countersKept_of_invoke h hp hm, fun j => (recordStep_of_invoke h j).paused hp hcaller⟩

end Settlement

/-- **A pause freezes the business state**: in every run, between a successful pause and the next
successful unpause, no call by an address that is not a current signer changes the invoices,
tokens, approvals or the id counter of the invoice contract, the balances, the liquidity or the
fundings of the pool, or the nonces, fees or records of the settlement contract, except that its
two approval entry points may change the approval flags of the record they name. -/
theorem pause_freezes :
    Freezes Invoicing.embedding (fun i => i.2.caller) Invoicing.BusinessKept ∧
    Freezes Pool.embedding (fun i => i.2.caller) Pool.BusinessKept ∧
    Freezes Settlement.embedding (fun i => i.2.caller) Settlement.BusinessKeptButApprovals :=
  ⟨Invoicing.freezes, Pool.freezes, Settlement.freezes⟩

/-- The borrower of an invoice approves its settlement while the contract is paused. -/
theorem approved_while_paused :
    ¬ (Freezes Invoicing.embedding (fun i => i.2.caller) Invoicing.BusinessKept ∧
      Freezes Pool.embedding (fun i => i.2.caller) Pool.BusinessKept ∧
      Freezes Settlement.embedding (fun i => i.2.caller) Settlement.BusinessKept) := by
  rintro ⟨-, -, h⟩
  have hkept := h _
    ⟨[(⟨1, 0, []⟩, .init [⟨1⟩] 1 34560),
        (⟨1, 0, [⟨1⟩]⟩, .setInvoiceData ⟨1⟩ "INV" ⟨2⟩ ⟨3⟩ (.lit 100) 0 0)],
      (⟨1, 0, [⟨1⟩]⟩, .access (.pause ⟨1⟩)), [],
      (⟨1, 0, [⟨2⟩]⟩, .requestSettlementAuth ⟨2⟩ "INV"), ⟨rfl, _, _, rfl⟩,
      fun _ hu => absurd hu List.not_mem_nil, rfl⟩
    (by rintro _ ⟨⟩; rfl)
  have := congrFun hkept.invoiceData "INV"
  cases this

end InvoiceFi
