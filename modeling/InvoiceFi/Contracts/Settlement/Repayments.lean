import InvoiceFi.Contracts.Settlement.Principal

/-!
# The repayment history of a record

The principal of a record is a running total: each payment adds its net (`netPaid`), and no other
call but one moves it (`principal_step`). That one is `set_invoice_data`. It writes a fresh record
whether or not there was one, so a second registration of an invoice takes its principal back to
zero and its status back to `ApprovedForSettlement`. `repayments_kept_iff` says that this is all
there is: a run keeps its repayment history exactly when it registers again only invoices that were
neither paid nor settled.
-/

namespace InvoiceFi

namespace Settlement

/-! ## The principal as a running total -/

/-- The net that an accepted payment on the invoice publishes. -/
def netPaid (invoiceId : Symbol) (t : SettlementStep) : ℤ :=
  match t.input.2, t.post.events.getLast? with
  | .settleInvoice _ j _ _ _, some (.settled _ _ _ _ _ net _) =>
    if j = invoiceId ∧ t.Accepted then net.val else 0
  | _, _ => 0

/-- The nets of the accepted payments of a history on the invoice. -/
def netsPaid (invoiceId : Symbol) (h : List SettlementStep) : ℤ :=
  (h.map (netPaid invoiceId)).sum

theorem netsPaid_concat (invoiceId : Symbol) (h : List SettlementStep) (t : SettlementStep) :
    netsPaid invoiceId (h ++ [t]) = netsPaid invoiceId h + netPaid invoiceId t := by
  rw [netsPaid, netsPaid, List.map_append, List.sum_append, List.map_singleton,
    List.sum_singleton]

/-- The principal of an invoice, zero where there is no record. -/
def principalOf (s : Store) (invoiceId : Symbol) : ℤ :=
  (terms s invoiceId).elim 0 fun tm => tm.principalPaid.val

/-- A registration that finds a record finds it neither paid nor settled. -/
def RegistersUnpaid (t : SettlementStep) : Prop :=
  ∀ c j b f a d r, t.input.2 = .setInvoiceData c j b f a d r → t.Accepted →
    ∀ record, getInvoice t.pre j = some record →
      record.principalPaid.val = 0 ∧ record.status ≠ SettlementStatus.settled.code

theorem netPaid_rejected {invoiceId : Symbol} {t : SettlementStep} (ht : ¬ t.Accepted) :
    netPaid invoiceId t = 0 := by
  unfold netPaid
  split
  · rw [if_neg fun h => ht h.2]
  · rfl

theorem netPaid_idle {invoiceId : Symbol} {t : SettlementStep}
    (ht : ∀ c n a k, t.input.2 ≠ .settleInvoice c invoiceId n a k) : netPaid invoiceId t = 0 := by
  unfold netPaid
  split
  · next c j n a k _ _ _ _ _ net _ hc _ =>
    rw [if_neg]
    rintro ⟨rfl, -⟩
    exact ht c n a k hc
  · rfl

/-- The net of a payment is what it adds to the principal. -/
theorem Pays.netPaid {t : SettlementStep} {caller : Address} {invoiceId : Symbol}
    {nonce : UInt64} {amount : I128} {authType : UInt32} {tm : Terms} {p : I128}
    (h : Pays t.input.1 t.pre caller invoiceId nonce amount tm p t.post)
    (hc : t.input.2 = .settleInvoice caller invoiceId nonce amount authType) (hacc : t.Accepted) :
    p.val = tm.principalPaid.val + Settlement.netPaid invoiceId t := by
  obtain ⟨fee, net, hev, -, hnet⟩ := h.published
  rw [h.principal, Settlement.netPaid, hc, hev]
  simp only [hacc, and_self, if_true, hnet]

/-- What a step of a history does to the terms of one invoice: it registers the invoice, pays it,
or leaves its terms alone. -/
theorem terms_cases {s : Store} {is : List (Env × Call)} {t : SettlementStep}
    (ht : t ∈ settlement.trace s is) (invoiceId : Symbol) :
    (∃ c b f a d r, t.input.2 = .setInvoiceData c invoiceId b f a d r ∧ t.Accepted ∧
      terms t.post invoiceId = some (.registered a d) ∧ netPaid invoiceId t = 0) ∨
    (∃ c n a k tm p, t.input.2 = .settleInvoice c invoiceId n a k ∧ t.Accepted ∧
      terms t.pre invoiceId = some tm ∧ terms t.post invoiceId = some (tm.paid p) ∧
      p.val = tm.principalPaid.val + netPaid invoiceId t) ∨
    (terms t.post invoiceId = terms t.pre invoiceId ∧ netPaid invoiceId t = 0) := by
  by_cases hacc : t.Accepted
  · obtain ⟨u, hi⟩ := Machine.invoke_of_mem_trace ht hacc
    rcases invoice_cases hi with ⟨c, j, b, f, a, d, r, hc, hterms, -⟩ |
      ⟨c, j, n, a, k, tm, p, hc, hpay⟩ | ⟨hc, hterms, -⟩
    · have hnet : netPaid invoiceId t = 0 := netPaid_idle fun _ _ _ _ h => nomatch hc.symm.trans h
      by_cases hj : invoiceId = j
      · subst hj
        exact .inl ⟨c, b, f, a, d, r, hc, hacc, by rw [hterms, Function.update_self], hnet⟩
      · exact .inr (.inr ⟨by rw [hterms, Function.update_of_ne hj], hnet⟩)
    · by_cases hj : invoiceId = j
      · subst hj
        exact .inr (.inl ⟨c, n, a, k, tm, p, hc, hacc, hpay.found,
          by rw [hpay.left, Function.update_self], hpay.netPaid hc hacc⟩)
      · refine .inr (.inr ⟨by rw [hpay.left, Function.update_of_ne hj], netPaid_idle ?_⟩)
        intro c' n' a' k' h
        rw [hc] at h
        cases h
        exact hj rfl
    · refine .inr (.inr ⟨by rw [hterms], netPaid_idle ?_⟩)
      intro c n a k h
      rw [h] at hc
      cases hc
  · refine .inr (.inr ⟨?_, netPaid_rejected hacc⟩)
    rw [Machine.post_of_not_accepted ht hacc]

/-- A step that registers no paid invoice again moves the principal by its net. -/
theorem principal_step {s : Store} {is : List (Env × Call)} {t : SettlementStep}
    (ht : t ∈ settlement.trace s is) (hreg : RegistersUnpaid t) (invoiceId : Symbol) :
    principalOf t.post invoiceId = principalOf t.pre invoiceId + netPaid invoiceId t := by
  rcases terms_cases ht invoiceId with ⟨c, b, f, a, d, r, hc, hacc, hpost, hnet⟩ |
    ⟨c, n, a, k, tm, p, -, -, hpre, hpost, hp⟩ | ⟨hterms, hnet⟩
  · have hzero : principalOf t.pre invoiceId = 0 := by
      cases htm : terms t.pre invoiceId with
      | none => rw [principalOf, htm]; rfl
      | some tm =>
        obtain ⟨record, hr, rfl⟩ := getInvoice_of_terms htm
        rw [principalOf, htm]
        exact (hreg c invoiceId b f a d r hc hacc record hr).1
    rw [hzero, hnet, principalOf, hpost]
    rfl
  · rw [principalOf, principalOf, hpre, hpost]
    exact hp
  · rw [hnet, principalOf, hterms, ← principalOf, add_zero]

/-- In every run that registers no paid invoice again, the principal of every invoice is the sum of
the nets paid on it. -/
theorem principal_exec {is : List (Env × Call)}
    (hreg : ∀ t ∈ settlement.trace settlement.init is, RegistersUnpaid t) (invoiceId : Symbol) :
    principalOf (settlement.exec settlement.init is) invoiceId =
      netsPaid invoiceId (settlement.trace settlement.init is) := by
  refine Machine.history_of (m := settlement)
    (H := fun h s => principalOf s invoiceId = netsPaid invoiceId h)
    (P := fun t => principalOf t.post invoiceId = principalOf t.pre invoiceId + netPaid invoiceId t)
    rfl ?_ fun t ht => principal_step ht (hreg t ht) invoiceId
  intro h t ht ih
  rw [ht, ih, netsPaid_concat]

/-! ## Whole runs -/

/-- The step is an accepted payment. -/
def PaysSome (t : SettlementStep) : Prop :=
  t.Accepted ∧ ∃ c j n a k, t.input.2 = .settleInvoice c j n a k

/-- A run keeps its repayment history.

* `principal`: at every point of the run the principal of a record is the sum of the nets of the
  accepted payments on its invoice so far.
* `settled`: a record marked `Settled` stays, and stays `Settled`.
* `notLowered`: no call but an accepted payment lowers a principal. -/
structure RepaymentsKept (is : List (Env × Call)) : Prop where
  principal : ∀ is₁ is₂, is = is₁ ++ is₂ → ∀ invoiceId r,
    getInvoice (settlement.exec settlement.init is₁) invoiceId = some r →
    r.principalPaid.val = netsPaid invoiceId (settlement.trace settlement.init is₁)
  settled : ∀ t ∈ settlement.trace settlement.init is, ∀ invoiceId r,
    getInvoice t.pre invoiceId = some r → r.status = SettlementStatus.settled.code →
    ∃ r', getInvoice t.post invoiceId = some r' ∧ r'.status = SettlementStatus.settled.code
  notLowered : ∀ t ∈ settlement.trace settlement.init is, ¬ PaysSome t → ∀ invoiceId r,
    getInvoice t.pre invoiceId = some r →
    ∃ r', getInvoice t.post invoiceId = some r' ∧ r.principalPaid.val ≤ r'.principalPaid.val

/-- The principal of an invoice is that of its record. -/
theorem principalOf_of_getInvoice {s : Store} {invoiceId : Symbol} {r : InvoiceRecord}
    (h : getInvoice s invoiceId = some r) : principalOf s invoiceId = r.principalPaid.val := by
  rw [principalOf, terms_of_getInvoice h]
  rfl

/-- What an accepted registration leaves. -/
theorem terms_of_registration {s : Store} {is : List (Env × Call)} {t : SettlementStep}
    (ht : t ∈ settlement.trace s is) (hacc : t.Accepted) {c : Address} {j : Symbol}
    {b f : Address} {a : I128} {d : UInt64} {r : UInt32}
    (hc : t.input.2 = .setInvoiceData c j b f a d r) :
    terms t.post j = some (.registered a d) := by
  obtain ⟨u, hi⟩ := Machine.invoke_of_mem_trace ht hacc
  rcases invoice_cases hi with ⟨c', j', b', f', a', d', r', hc', hterms, -⟩ |
    ⟨c', j', n, a', k, tm, p, hc', -⟩ | ⟨hw, -⟩
  · cases hc.symm.trans hc'
    rw [hterms, Function.update_self]
  · cases hc.symm.trans hc'
  · rw [hc] at hw
    cases hw

/-- A registration of a run that keeps its repayments finds no paid and no settled record. -/
theorem RepaymentsKept.registersUnpaid {is : List (Env × Call)} (h : RepaymentsKept is) :
    ∀ t ∈ settlement.trace settlement.init is, RegistersUnpaid t := by
  intro t ht c j b f a d r hc hacc record hrec
  obtain ⟨record', hrec', hterms⟩ := getInvoice_of_terms (terms_of_registration ht hacc hc)
  have hnet : netPaid j t = 0 := netPaid_idle fun _ _ _ _ h => nomatch hc.symm.trans h
  constructor
  · obtain ⟨is₁, i, is₂, hsplit, rfl⟩ := Machine.mem_trace.1 ht
    rw [Machine.step_pre] at hrec
    rw [← Machine.exec_concat] at hrec'
    have hbefore := h.principal is₁ (i :: is₂) hsplit j record hrec
    have hafter := h.principal (is₁ ++ [i]) is₂ (by rw [hsplit]; simp) j record' hrec'
    have hzero : record'.principalPaid = .zero := congrArg Terms.principalPaid hterms
    rw [hzero, Machine.trace_concat, netsPaid_concat, hnet, add_zero, ← hbefore] at hafter
    exact hafter.symm
  · intro hst
    obtain ⟨r', hr', hst'⟩ := h.settled t ht j record hrec hst
    rw [hrec'] at hr'
    cases hr'
    rw [show record'.status = _ from congrArg Terms.status hterms] at hst'
    exact approved_ne_settled hst'

/-- **A run keeps its repayment history exactly when it registers again only invoices that were
neither paid nor settled.** -/
theorem repayments_kept_iff (is : List (Env × Call)) :
    RepaymentsKept is ↔ ∀ t ∈ settlement.trace settlement.init is, RegistersUnpaid t := by
  refine ⟨RepaymentsKept.registersUnpaid, fun hreg => ⟨?_, ?_, ?_⟩⟩
  · rintro is₁ is₂ rfl invoiceId r hr
    rw [← principalOf_of_getInvoice hr]
    exact principal_exec (fun t ht => hreg t (Machine.mem_trace_append ht)) invoiceId
  · intro t ht invoiceId r hr hst
    have htm := terms_of_getInvoice hr
    rcases terms_cases ht invoiceId with ⟨c, b, f, a, d, i, hc, hacc, -, -⟩ |
      ⟨c, n, a, k, tm, p, -, -, hpre, hpost, -⟩ | ⟨hterms, -⟩
    · exact absurd hst (hreg t ht c invoiceId b f a d i hc hacc r hr).2
    · rw [htm] at hpre
      cases hpre
      obtain ⟨r', hr', hterms'⟩ := getInvoice_of_terms hpost
      refine ⟨r', hr', ?_⟩
      rw [show r'.status = _ from congrArg Terms.status hterms', Terms.paid]
      split
      · rfl
      · exact hst
    · rw [htm] at hterms
      obtain ⟨r', hr', hterms'⟩ := getInvoice_of_terms hterms
      exact ⟨r', hr', (congrArg Terms.status hterms').trans hst⟩
  · intro t ht hpay invoiceId r hr
    have htm := terms_of_getInvoice hr
    rcases terms_cases ht invoiceId with ⟨c, b, f, a, d, i, hc, hacc, hpost, -⟩ |
      ⟨c, n, a, k, tm, p, hc, hacc, -⟩ | ⟨hterms, -⟩
    · obtain ⟨r', hr', hterms'⟩ := getInvoice_of_terms hpost
      refine ⟨r', hr', ?_⟩
      rw [(hreg t ht c invoiceId b f a d i hc hacc r hr).1,
        show r'.principalPaid = _ from congrArg Terms.principalPaid hterms']
      exact le_refl _
    · exact absurd ⟨hacc, c, invoiceId, n, a, k, hc⟩ hpay
    · rw [htm] at hterms
      obtain ⟨r', hr', hterms'⟩ := getInvoice_of_terms hterms
      refine ⟨r', hr', ?_⟩
      rw [show r'.principalPaid = _ from congrArg Terms.principalPaid hterms']
      exact le_refl r.principalPaid.val

/-- A registration of the invoice `INV` of 100, by the signer 1. -/
def registerINV : Env × Call :=
  (⟨1, 0, [⟨1⟩]⟩, .setInvoiceData ⟨1⟩ "INV" ⟨2⟩ ⟨3⟩ (.lit 100) 0 0)

/-- An invoice of 100 that was paid in full and is registered again has no history: its principal
is back at zero and it is no longer `Settled`. -/
theorem repayments_erased_by_registration :
    ¬ RepaymentsKept [(⟨1, 0, []⟩, .init [⟨1⟩] 1 34560), registerINV, payINV 1 (.lit 100),
      registerINV] := by
  intro h
  have hmem := Machine.step_mem_trace settlement settlement.init
    [(⟨1, 0, []⟩, .init [⟨1⟩] 1 34560), registerINV, payINV 1 (.lit 100)] registerINV []
  have hset := (h.registersUnpaid _ hmem _ _ _ _ _ _ _ rfl rfl _ rfl).2
  exact hset rfl

end Settlement

end InvoiceFi
