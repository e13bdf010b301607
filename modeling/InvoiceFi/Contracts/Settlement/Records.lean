import InvoiceFi.Contracts.Settlement.Steps

/-!
# The life of a record

`Terms` is what a record says about its payment. This module looks at the whole record, with its
parties and its approval flags: `RecordStep` says how a step may change the record of one invoice,
one constructor per entry point that writes records, with the guard each of them checks. The
contract refines it (`recordStep_of_mem`): every step of every run is a `RecordStep` of every
record.
-/

namespace InvoiceFi

namespace Settlement

/-- The invoice whose record a call writes. -/
def Call.record : Call → Option Symbol
  | .setInvoiceData _ j _ _ _ _ _ | .settlementAuth _ j _ _ _ | .requestSettlementAuth _ j
  | .settleInvoice _ j _ _ _ => some j
  | _ => none

/-- The caller and the invoice of a `settlement_auth` or `request_settlement_auth`. -/
def Call.authParts : Call → Option (Address × Symbol)
  | .settlementAuth c j _ _ _ | .requestSettlementAuth c j => some (c, j)
  | _ => none

/-- The two approval calls write the record of the invoice they name. -/
theorem Call.record_of_authParts {call : Call} {c : Address} {j : Symbol}
    (h : call.authParts = some (c, j)) : call.record = some j := by
  cases call with
  | settlementAuth c' j' didPay isBuyer isPayee =>
    cases h
    rfl
  | requestSettlementAuth c' j' =>
    cases h
    rfl
  | _ => cases h

/-- The life of the record of the invoice `j`: how the step `t` may take it to another one. -/
inductive RecordStep (t : SettlementStep) (j : Symbol) :
    Option InvoiceRecord → Option InvoiceRecord → Prop
  /-- The step failed, or it writes no record, or another one. -/
  | idle {r : Option InvoiceRecord} (h : t.Accepted → t.input.2.record ≠ some j) :
      RecordStep t j r r
  /-- A signer registered the invoice. -/
  | register {r : Option InvoiceRecord} {c b f : Address} {a : I128} {d : UInt64} {rate : UInt32}
      (hacc : t.Accepted) (hc : t.input.2 = .setInvoiceData c j b f a d rate)
      (hsig : AccessControl.isSigner t.pre.ac c = true) :
      RecordStep t j r (some (newRecord j b f a d))
  /-- A payment was made. -/
  | pay {r : InvoiceRecord} {c : Address} {n : UInt64} {a p : I128} {k : UInt32}
      (hacc : t.Accepted) (hc : t.input.2 = .settleInvoice c j n a k)
      (hrun : AccessControl.isPaused t.pre.ac = false) :
      RecordStep t j (some r) (some (paidRecord r p))
  /-- `settlement_auth`. -/
  | auth {r : InvoiceRecord} {c : Address} {didPay isBuyer isPayee : Bool} (hacc : t.Accepted)
      (hc : t.input.2 = .settlementAuth c j didPay isBuyer isPayee)
      (hauth : c ∈ t.input.1.auths) :
      RecordStep t j (some r) (some (authRecord r didPay isBuyer isPayee))
  /-- `request_settlement_auth`. -/
  | request {r : InvoiceRecord} {c : Address} (hacc : t.Accepted)
      (hc : t.input.2 = .requestSettlementAuth c j) (hauth : c ∈ t.input.1.auths)
      (hflag : (requestRecord r c).lenderApproved = true ∨
        (requestRecord r c).payerApproved = true) :
      RecordStep t j (some r) (some (requestRecord r c))

section
variable {i : Env × Call} {s s' : Store} {u : Unit}

/-- A call that writes one record is a `RecordStep` of every record when it is one of that
record. -/
theorem RecordStep.of_update {t : SettlementStep} {k : Symbol} {r : InvoiceRecord}
    (hs : s'.invoiceData = Function.update s.invoiceData k (some r))
    (hk : RecordStep t k (s.invoiceData k) (some r)) (ht : t.input.2.record = some k) :
    ∀ j, RecordStep t j (s.invoiceData j) (s'.invoiceData j) := by
  intro j
  rw [hs]
  by_cases hj : j = k
  · subst hj
    rw [Function.update_self]
    exact hk
  · rw [Function.update_of_ne hj]
    refine .idle fun _ h => hj ?_
    rw [ht] at h
    exact (Option.some.inj h).symm

/-- A successful call is a step in the life of every record. -/
theorem recordStep_of_invoke (h : settlement.invoke i s = .ok (u, s')) :
    ∀ j, RecordStep ⟨s, i, .ok u, s'⟩ j (s.invoiceData j) (s'.invoiceData j) := by
  obtain ⟨s₁, h, heq⟩ := map_eq_ok.1 h
  cases heq
  obtain ⟨env, c⟩ := i
  cases c with
  | init sg th tl =>
    obtain ⟨ac, -, rfl⟩ := init_eq_ok.1 h
    exact fun j => .idle fun _ h => by cases h
  | setInvoiceData c k b f a d r =>
    have h : setInvoiceData env s c k b f a d r = .ok s' := h
    obtain ⟨⟨-, hsig⟩, rfl⟩ := setInvoiceData_eq_ok.1 h
    exact .of_update rfl (.register rfl rfl hsig) rfl
  | settleInvoice c k n a m =>
    have h : settleInvoice env s c k n a m = .ok s' := h
    obtain ⟨-, hrun, -, -, record, hr, -, num, -, fee, -, net, -, c', -, p, -, rfl⟩ :=
      settleInvoice_eq_ok.1 h
    refine .of_update rfl ?_ rfl
    rw [hr]
    exact .pay rfl rfl hrun
  | settlementAuth c k didPay isBuyer isPayee =>
    obtain ⟨hauth, record, hr, rfl⟩ := settlementAuth_eq_ok.1 h
    refine .of_update rfl ?_ rfl
    rw [hr]
    exact .auth rfl rfl hauth
  | requestSettlementAuth c k =>
    obtain ⟨hauth, record, hr, hflag, rfl⟩ := requestSettlementAuth_eq_ok.1 h
    refine .of_update rfl ?_ rfl
    rw [hr]
    exact .request rfl rfl hauth hflag
  | setFeeRate c rate =>
    obtain ⟨-, rfl⟩ := setFeeRate_eq_ok.1 h
    exact fun j => .idle fun _ h => by cases h
  | withdrawFees c p a =>
    obtain ⟨-, -, -, c', -, w, -, rfl⟩ := withdrawFees_eq_ok.1 h
    exact fun j => .idle fun _ h => by cases h
  | setAuthorizedPayers c ps | setFinanciers c ps =>
    simp only [dispatch, setAuthorizedPayers, setFinanciers, bind_eq_ok, pure_eq_ok] at h
    obtain ⟨-, -, rfl⟩ := h
    exact fun j => .idle fun _ h => by cases h
  | setEscrowPubkey c k =>
    simp only [dispatch, setEscrowPubkey, bind_eq_ok, pure_eq_ok] at h
    obtain ⟨-, -, rfl⟩ := h
    exact fun j => .idle fun _ h => by cases h
  | submitAttestation c pl sig =>
    simp only [dispatch, submitAttestation, bind_eq_ok, pure_eq_ok] at h
    obtain ⟨-, -, -, -, -, -, rfl⟩ := h
    exact fun j => .idle fun _ h => by cases h
  | setFinancingPoolAddress c p =>
    simp only [dispatch, setFinancingPoolAddress, bind_eq_ok, pure_eq_ok] at h
    obtain ⟨-, -, rfl⟩ := h
    exact fun j => .idle fun _ h => by cases h
  | access o =>
    simp only [dispatch, access, bind_eq_ok, unwrapAc_eq_ok, pure_eq_ok] at h
    obtain ⟨ac, -, rfl⟩ := h
    exact fun j => .idle fun _ h => by cases h

end

/-- Every step of every run is a step in the life of every record. -/
theorem recordStep_of_mem {s : Store} {is : List (Env × Call)} {t : SettlementStep}
    (ht : t ∈ settlement.trace s is) (j : Symbol) :
    RecordStep t j (t.pre.invoiceData j) (t.post.invoiceData j) := by
  refine Machine.forall_mem_trace (m := settlement)
    (P := fun t => RecordStep t j (t.pre.invoiceData j) (t.post.invoiceData j)) ?_ ?_ t ht
  · intro i s u s' hi
    exact recordStep_of_invoke hi j
  · intro i s e
    exact .idle fun h => nomatch h

end Settlement

end InvoiceFi
