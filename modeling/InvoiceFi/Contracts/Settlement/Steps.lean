import InvoiceFi.Contracts.Settlement
import InvoiceFi.Lib.Share

/-!
# What a step of the settlement contract can do

The payments read and write four things: the fee rate, the two fee counters, what a record says
about its payment (`Terms`), and the nonces used. `settlement_cases` says what a successful call
does to them: it is the setup, a registration, a change of the fee rate, a withdrawal of fees or a
payment, or it leaves all of them alone (`SameBooks`). `Pays` says all that a payment does, and
`invoice_cases` what a call does to the invoices; every later proof reads a step through these.
-/

namespace InvoiceFi

namespace Settlement

open AccessControl (Op)

/-! ## The books -/

/-- What a record says about its payment. -/
structure Terms where
  amount : I128
  dueDate : UInt64
  principalPaid : I128
  status : UInt32
  deriving DecidableEq

/-- The terms of a record. -/
def InvoiceRecord.terms (r : InvoiceRecord) : Terms :=
  ⟨r.amount, r.dueDate, r.principalPaid, r.status⟩

/-- The terms a record is registered with. -/
def Terms.registered (amount : I128) (dueDate : UInt64) : Terms :=
  ⟨amount, dueDate, .zero, SettlementStatus.approvedForSettlement.code⟩

theorem approved_ne_settled :
    SettlementStatus.approvedForSettlement.code ≠ SettlementStatus.settled.code := by decide

/-- The terms after a payment that brings the principal to `p`. -/
def Terms.paid (t : Terms) (p : I128) : Terms :=
  { t with
    principalPaid := p
    status := if t.amount.val ≤ p.val then SettlementStatus.settled.code else t.status }

/-- The terms of the invoices of a store. -/
def terms (s : Store) (invoiceId : Symbol) : Option Terms :=
  (s.invoiceData invoiceId).map InvoiceRecord.terms

/-- The fee rate in force. -/
def feeRate (s : Store) : ℤ := ((getFeeRate s).getD 0).toNat

theorem feeRate_nonneg (s : Store) : 0 ≤ feeRate s := Int.natCast_nonneg _

/-- The fees collected and not withdrawn. -/
def collected (s : Store) : ℤ := ((getCollectedFees s).getD .zero).val

/-- The fees withdrawn. -/
def withdrawn (s : Store) : ℤ := ((getWithdrawnFees s).getD .zero).val

/-- The denominator of the rates. -/
theorem rateDenominator_pos : (0 : ℤ) < 10000 := by decide

/-- The fee of a payment of `amount` at the rate `r`. -/
def feeAt (r amount : ℤ) : ℤ := share 10000 r amount

/-- What a payment of `amount` at the rate `r` pays of the principal. -/
def netAt (r amount : ℤ) : ℤ := rest 10000 r amount

theorem terms_paidRecord (r : InvoiceRecord) (p : I128) :
    (paidRecord r p).terms = r.terms.paid p := by
  by_cases h : r.amount.val ≤ p.val
  · simp [paidRecord, InvoiceRecord.terms, Terms.paid, h]
  · simp [paidRecord, InvoiceRecord.terms, Terms.paid, h]

/-- The terms of a store in which one record was written. -/
theorem terms_update {s : Store} (s' : Store) {invoiceId : Symbol} {r : InvoiceRecord}
    (h : s'.invoiceData = Function.update s.invoiceData invoiceId (some r)) :
    terms s' = Function.update (terms s) invoiceId (some r.terms) := by
  funext j
  rw [terms, h]
  by_cases hj : j = invoiceId
  · subst hj
    simp
  · simp [Function.update_of_ne hj, terms]

/-! ## The calls -/

/-- The calls that write the books. -/
def Call.movesBooks : Call → Bool
  | .init _ _ _ | .setInvoiceData _ _ _ _ _ _ _ | .setFeeRate _ _ | .withdrawFees _ _ _
  | .settleInvoice _ _ _ _ _ => true
  | _ => false

/-- The calls that write the terms of an invoice. -/
def Call.writesInvoice : Call → Bool
  | .setInvoiceData _ _ _ _ _ _ _ | .settleInvoice _ _ _ _ _ => true
  | _ => false

/-- The calls that move the fee counters after the setup. -/
def Call.movesFees : Call → Bool
  | .settleInvoice _ _ _ _ _ | .withdrawFees _ _ _ => true
  | _ => false

/-- A call that leaves the books alone writes no invoice and moves no fees. -/
theorem Call.idle_of_movesBooks {c : Call} (h : c.movesBooks = false) :
    c.writesInvoice = false ∧ c.movesFees = false := by
  cases c <;> first | exact ⟨rfl, rfl⟩ | cases h

/-- The books of two stores are the same. -/
structure SameBooks (s s' : Store) : Prop where
  feeRate : s'.feeRate = s.feeRate
  collectedFees : s'.collectedFees = s.collectedFees
  withdrawnFees : s'.withdrawnFees = s.withdrawnFees
  nonceMeta : s'.nonceMeta = s.nonceMeta
  terms : terms s' = terms s
  initialized : s'.ac.multisig = none → s.ac.multisig = none

theorem SameBooks.of_events {s : Store} (es : List Event) :
    SameBooks s { s with events := es } := ⟨rfl, rfl, rfl, rfl, rfl, id⟩

/-- A successful call that writes a record with the terms it had keeps the books. -/
theorem SameBooks.of_record {s : Store} {invoiceId : Symbol} {r r' : InvoiceRecord}
    (hr : s.invoiceData invoiceId = some r) (h : r'.terms = r.terms) (e : Event) :
    SameBooks s (publish (setRecord s invoiceId r') e) := by
  refine ⟨rfl, rfl, rfl, rfl, ?_, id⟩
  rw [terms_update (s := s) (publish (setRecord s invoiceId r') e) rfl, h]
  refine Function.update_eq_self_iff.2 ?_
  rw [Settlement.terms, hr, Option.map_some]

theorem settlementAuth_sameBooks {env : Env} {s s' : Store} {caller : Address}
    {invoiceId : Symbol} {didPay isBuyer isPayee : Bool}
    (h : settlementAuth env s caller invoiceId didPay isBuyer isPayee = .ok s') :
    SameBooks s s' := by
  obtain ⟨-, r, hr, rfl⟩ := settlementAuth_eq_ok.1 h
  have hterms : (authRecord r didPay isBuyer isPayee).terms = r.terms := rfl
  exact SameBooks.of_record hr hterms _

theorem requestSettlementAuth_sameBooks {env : Env} {s s' : Store} {caller : Address}
    {invoiceId : Symbol} (h : requestSettlementAuth env s caller invoiceId = .ok s') :
    SameBooks s s' := by
  obtain ⟨-, r, hr, -, rfl⟩ := requestSettlementAuth_eq_ok.1 h
  have hterms : (requestRecord r caller).terms = r.terms := rfl
  exact SameBooks.of_record hr hterms _

/-- What a successful call does to the books: it is the one-time setup, one of the four calls that
move them, or it leaves them alone. -/
theorem settlement_cases {i : Env × Call} {s s' : Store} {u : Unit}
    (h : settlement.invoke i s = .ok (u, s')) :
    (∃ sg th tl ac, i.2 = .init sg th tl ∧ s.ac.multisig = none ∧ ac.multisig ≠ none ∧
      s' = { s with ac := ac, feeRate := some 0, collectedFees := some .zero,
                    withdrawnFees := some .zero, reentrancyGuard := some .unlocked }) ∨
    (∃ c j b f a d r, i.2 = .setInvoiceData c j b f a d r ∧
      setInvoiceData i.1 s c j b f a d r = .ok s') ∨
    (∃ c rate, i.2 = .setFeeRate c rate ∧ setFeeRate i.1 s c rate = .ok s') ∨
    (∃ c p a, i.2 = .withdrawFees c p a ∧ withdrawFees i.1 s c p a = .ok s') ∨
    (∃ c j n a k, i.2 = .settleInvoice c j n a k ∧ settleInvoice i.1 s c j n a k = .ok s') ∨
    (i.2.movesBooks = false ∧ SameBooks s s') := by
  obtain ⟨s₁, h, heq⟩ := map_eq_ok.1 h
  cases heq
  obtain ⟨env, c⟩ := i
  cases c with
  | init sg th tl =>
    obtain ⟨ac, hac, rfl⟩ := init_eq_ok.1 h
    obtain ⟨hm, -, -, rfl⟩ := AccessControl.init_eq_ok.1 hac
    exact .inl ⟨sg, th, tl, _, rfl, hm, by simp, rfl⟩
  | setInvoiceData c j b f a d r => exact .inr (.inl ⟨c, j, b, f, a, d, r, rfl, h⟩)
  | setFeeRate c rate => exact .inr (.inr (.inl ⟨c, rate, rfl, h⟩))
  | withdrawFees c p a => exact .inr (.inr (.inr (.inl ⟨c, p, a, rfl, h⟩)))
  | settleInvoice c j n a k => exact .inr (.inr (.inr (.inr (.inl ⟨c, j, n, a, k, rfl, h⟩))))
  | setAuthorizedPayers c ps | setFinanciers c ps =>
    simp only [dispatch, setAuthorizedPayers, setFinanciers, bind_eq_ok, pure_eq_ok] at h
    obtain ⟨-, -, rfl⟩ := h
    exact .inr (.inr (.inr (.inr (.inr ⟨rfl, .of_events _⟩))))
  | setEscrowPubkey c k =>
    simp only [dispatch, setEscrowPubkey, bind_eq_ok, pure_eq_ok] at h
    obtain ⟨-, -, rfl⟩ := h
    exact .inr (.inr (.inr (.inr (.inr ⟨rfl, rfl, rfl, rfl, rfl, rfl, id⟩))))
  | submitAttestation c pl sig =>
    simp only [dispatch, submitAttestation, bind_eq_ok, pure_eq_ok] at h
    obtain ⟨-, -, -, -, -, -, rfl⟩ := h
    exact .inr (.inr (.inr (.inr (.inr ⟨rfl, .of_events _⟩))))
  | settlementAuth c j d b p =>
    exact .inr (.inr (.inr (.inr (.inr ⟨rfl, settlementAuth_sameBooks h⟩))))
  | requestSettlementAuth c j =>
    exact .inr (.inr (.inr (.inr (.inr ⟨rfl, requestSettlementAuth_sameBooks h⟩))))
  | setFinancingPoolAddress c p =>
    simp only [dispatch, setFinancingPoolAddress, bind_eq_ok, pure_eq_ok] at h
    obtain ⟨-, -, rfl⟩ := h
    exact .inr (.inr (.inr (.inr (.inr ⟨rfl, rfl, rfl, rfl, rfl, rfl, id⟩))))
  | access o =>
    simp only [dispatch, access, bind_eq_ok, unwrapAc_eq_ok, pure_eq_ok] at h
    obtain ⟨ac, hac, rfl⟩ := h
    exact .inr (.inr (.inr (.inr (.inr
      ⟨rfl, rfl, rfl, rfl, rfl, rfl, AccessControl.multisig_of_apply hac⟩))))

/-! ## Payments -/

/-- What an accepted payment does to the books: `t` the terms it finds and `p` the principal it
leaves. -/
structure Pays (env : Env) (s : Store) (caller : Address) (invoiceId : Symbol) (nonce : UInt64)
    (amount : I128) (t : Terms) (p : I128) (s' : Store) : Prop where
  found : terms s invoiceId = some t
  pos : 0 < amount.val
  le : amount.val ≤ t.amount.val
  valid : (NonceMeta.load s invoiceId).isValid env nonce = true
  principal : p.val = t.principalPaid.val + netAt (feeRate s) amount.val
  left : terms s' = Function.update (terms s) invoiceId (some (t.paid p))
  nonces : s'.nonceMeta = Function.update s.nonceMeta invoiceId
    (some ((NonceMeta.load s invoiceId).markUsed nonce))
  collected : collected s' = collected s + feeAt (feeRate s) amount.val
  withdrawn : s'.withdrawnFees = s.withdrawnFees
  access : s'.ac = s.ac
  published : ∃ fee net : I128, s'.events.getLast? =
      some (.settled invoiceId caller amount nonce fee net p) ∧
    fee.val = feeAt (feeRate s) amount.val ∧ net.val = netAt (feeRate s) amount.val

/-- An accepted `settle_invoice` is a payment. -/
theorem pays_of_settleInvoice {env : Env} {s s' : Store} {caller : Address} {invoiceId : Symbol}
    {nonce : UInt64} {amount : I128} {authType : UInt32}
    (h : settleInvoice env s caller invoiceId nonce amount authType = .ok s') :
    ∃ t p, Pays env s caller invoiceId nonce amount t p s' := by
  obtain ⟨-, -, -, hvalid, r, hr, ⟨hpos, hle⟩, -, -, fee, hfee, net, hnet, c, hc, p, hp, hs'⟩ :=
    settleInvoice_eq_ok.1 h
  have hnet' : net.val = netAt (feeRate s) amount.val := by
    rw [hnet, hfee]; rfl
  refine ⟨r.terms, p, ⟨?_, hpos, hle, hvalid, ?_, ?_, by rw [hs'], ?_, by rw [hs'], by rw [hs'],
    fee, net, ?_, hfee, hnet'⟩⟩
  · rw [terms, hr, Option.map_some]
  · rw [hp, hnet']; rfl
  · rw [terms_update (s := s) s' (by rw [hs']), terms_paidRecord]
  · rw [hs']
    show c.val = _
    rw [hc, hfee]
    rfl
  · rw [hs', paymentEvents, ← List.append_assoc]
    exact List.getLast?_concat

/-! ## Invoices -/

/-- What a successful call does to the invoices: it registers one, it pays one, or it leaves the
terms and the nonces of all of them alone. -/
theorem invoice_cases {i : Env × Call} {s s' : Store} {u : Unit}
    (h : settlement.invoke i s = .ok (u, s')) :
    (∃ c j b f a d r, i.2 = .setInvoiceData c j b f a d r ∧
      terms s' = Function.update (terms s) j (some (.registered a d)) ∧
      s'.nonceMeta = s.nonceMeta) ∨
    (∃ c j n a k t p, i.2 = .settleInvoice c j n a k ∧ Pays i.1 s c j n a t p s') ∨
    (i.2.writesInvoice = false ∧ terms s' = terms s ∧ s'.nonceMeta = s.nonceMeta) := by
  rcases settlement_cases h with ⟨sg, th, tl, ac, hc, -, -, rfl⟩ |
    ⟨c, j, b, f, a, d, r, hc, h⟩ | ⟨c, rate, hc, h⟩ | ⟨c, p, a, hc, h⟩ | ⟨c, j, n, a, k, hc, h⟩ |
    ⟨hc, h⟩
  · exact .inr (.inr ⟨by rw [hc]; rfl, rfl, rfl⟩)
  · obtain ⟨-, hs'⟩ := setInvoiceData_eq_ok.1 h
    exact .inl ⟨c, j, b, f, a, d, r, hc, terms_update s' (by rw [hs']), by rw [hs']⟩
  · obtain ⟨-, rfl⟩ := setFeeRate_eq_ok.1 h
    exact .inr (.inr ⟨by rw [hc]; rfl, rfl, rfl⟩)
  · obtain ⟨-, -, -, c', -, w, -, rfl⟩ := withdrawFees_eq_ok.1 h
    exact .inr (.inr ⟨by rw [hc]; rfl, rfl, rfl⟩)
  · obtain ⟨t, p, hp⟩ := pays_of_settleInvoice h
    exact .inr (.inl ⟨c, j, n, a, k, t, p, hc, hp⟩)
  · exact .inr (.inr ⟨(Call.idle_of_movesBooks hc).1, h.terms, h.nonceMeta⟩)

/-- The accepted step of a history that settles an invoice is a payment. -/
theorem pays_of_mem_trace {s : Store} {is : List (Env × Call)} {t : SettlementStep}
    (ht : t ∈ settlement.trace s is) (hacc : t.Accepted) {caller : Address} {invoiceId : Symbol}
    {nonce : UInt64} {amount : I128} {authType : UInt32}
    (hc : t.input.2 = .settleInvoice caller invoiceId nonce amount authType) :
    ∃ tm p, Pays t.input.1 t.pre caller invoiceId nonce amount tm p t.post := by
  obtain ⟨u, hi⟩ := Machine.invoke_of_mem_trace ht hacc
  obtain ⟨s₁, h, heq⟩ := map_eq_ok.1 hi
  cases heq
  rw [hc] at h
  have h : settleInvoice t.input.1 t.pre caller invoiceId nonce amount authType = .ok t.post := h
  exact pays_of_settleInvoice h

end Settlement

end InvoiceFi
