import InvoiceFi.Contracts.Settlement.Steps

/-!
# The principal of an invoice

A payment splits its amount into a fee and a net, adds the net to the principal, and marks the
record `Settled` once the principal reaches the amount of the invoice; the mark is never taken
back, and it stops no later payment. Two laws of the principal follow from what a payment does,
each with the exact runs it holds in.

`payments_sound_iff`: the split is sound, the principal never decreases and `Settled` means paid in
exactly the runs in which no payment is made at a rate that takes more than the payment.

`never_over_collected_iff`: an invoice is never over-collected in exactly the runs in which every
payment finds the principal short of the amount and would still leave it short if it paid one unit
less.
-/

namespace InvoiceFi

namespace Settlement

/-- The condition `P` holds of every accepted payment of a history: of the state it finds, its
caller, its invoice, its nonce and its amount. -/
def AtPayments (h : List SettlementStep)
    (P : SettlementStep → Address → Symbol → UInt64 → I128 → Prop) : Prop :=
  ∀ t ∈ h, ∀ caller invoiceId nonce amount authType,
    t.input.2 = .settleInvoice caller invoiceId nonce amount authType → t.Accepted →
    P t caller invoiceId nonce amount

theorem AtPayments.of_mem {h : List SettlementStep}
    {P : SettlementStep → Address → Symbol → UInt64 → I128 → Prop} (hP : AtPayments h P)
    {t : SettlementStep} (ht : t ∈ h) : AtPayments [t] P := by
  intro t' ht'
  rw [List.mem_singleton] at ht'
  subst ht'
  exact hP t' ht

/-! ## Soundness of payments -/

/-- What a sound payment does: the fee and the net it publishes add up to its amount and neither
is negative, and it does not decrease the principal of the invoice. -/
structure PaymentSound (t : SettlementStep) (caller : Address) (invoiceId : Symbol)
    (nonce : UInt64) (amount : I128) : Prop where
  split : ∃ fee net p : I128, t.post.events.getLast? =
      some (.settled invoiceId caller amount nonce fee net p) ∧
    amount.val = fee.val + net.val ∧ 0 ≤ fee.val ∧ fee.val ≤ amount.val ∧ 0 ≤ net.val
  principal : ∃ r r', getInvoice t.pre invoiceId = some r ∧
    getInvoice t.post invoiceId = some r' ∧ r.principalPaid.val ≤ r'.principalPaid.val

/-- `Settled` means paid: every record marked `Settled` has a principal of at least its amount. -/
def SettledPaid (s : Store) : Prop :=
  ∀ invoiceId r, getInvoice s invoiceId = some r → r.status = SettlementStatus.settled.code →
    r.amount.val ≤ r.principalPaid.val

/-- Every accepted payment of the run is sound, and `Settled` means paid in every state the run
goes through. -/
def PaymentsSound (is : List (Env × Call)) : Prop :=
  AtPayments (settlement.trace settlement.init is) PaymentSound ∧
    ∀ is₁ is₂, is = is₁ ++ is₂ → SettledPaid (settlement.exec settlement.init is₁)

/-- The fee of the payment is at most its amount: `amount * fee_rate < 10000 * (amount + 1)`, as it
is at every rate up to 10000. -/
def FeeCovered (t : SettlementStep) (_ : Address) (_ : Symbol) (_ : UInt64) (amount : I128) :
    Prop :=
  amount.val * feeRate t.pre < 10000 * (amount.val + 1)

theorem getInvoice_of_terms {s : Store} {invoiceId : Symbol} {tm : Terms}
    (h : terms s invoiceId = some tm) :
    ∃ r, getInvoice s invoiceId = some r ∧ r.terms = tm := by
  rw [terms, Option.map_eq_some_iff] at h
  exact h

theorem terms_of_getInvoice {s : Store} {invoiceId : Symbol} {r : InvoiceRecord}
    (h : getInvoice s invoiceId = some r) : terms s invoiceId = some r.terms := by
  rw [getInvoice] at h
  rw [terms, h, Option.map_some]

section
variable {env : Env} {s s' : Store} {caller : Address} {invoiceId : Symbol} {nonce : UInt64}
  {amount : I128} {tm : Terms} {p : I128}

/-- A payment whose fee is covered does not decrease the principal. -/
theorem Pays.principal_le (h : Pays env s caller invoiceId nonce amount tm p s')
    (hfee : amount.val * feeRate s < 10000 * (amount.val + 1)) :
    tm.principalPaid.val ≤ p.val := by
  have hnet : 0 ≤ netAt (feeRate s) amount.val := (rest_nonneg_iff rateDenominator_pos).2 hfee
  have hp := h.principal
  omega

/-- A payment is sound exactly when its fee is covered. -/
theorem Pays.sound_iff {t : SettlementStep}
    (h : Pays t.input.1 t.pre caller invoiceId nonce amount tm p t.post) :
    PaymentSound t caller invoiceId nonce amount ↔
      FeeCovered t caller invoiceId nonce amount := by
  obtain ⟨fee, net, hev, hfee, hnet⟩ := h.published
  constructor
  · rintro ⟨⟨fee', net', p', hev', -, -, hle, -⟩, -⟩
    rw [hev] at hev'
    cases hev'
    rw [hfee] at hle
    exact (share_le_iff rateDenominator_pos).1 hle
  · intro hcov
    have hshare : 0 ≤ fee.val := by
      rw [hfee]
      exact share_nonneg rateDenominator_pos (feeRate_nonneg _) h.pos.le
    have hrest : 0 ≤ net.val := by
      rw [hnet]
      exact (rest_nonneg_iff rateDenominator_pos).2 hcov
    have hsum : amount.val = fee.val + net.val := by
      rw [hfee, hnet, feeAt, netAt, rest]
      omega
    refine ⟨⟨fee, net, p, hev, hsum, hshare, by omega, hrest⟩, ?_⟩
    obtain ⟨r, hr, rfl⟩ := getInvoice_of_terms h.found
    have hleft : terms t.post invoiceId = some (r.terms.paid p) := by
      rw [h.left, Function.update_self]
    obtain ⟨r', hr', heq⟩ := getInvoice_of_terms hleft
    refine ⟨r, r', hr, hr', ?_⟩
    have hp' : r'.principalPaid = p := congrArg Terms.principalPaid heq
    rw [hp']
    exact h.principal_le hcov

end

/-- `Settled` means paid, on the terms. -/
def TermsPaid (s : Store) : Prop :=
  ∀ invoiceId tm, terms s invoiceId = some tm → tm.status = SettlementStatus.settled.code →
    tm.amount.val ≤ tm.principalPaid.val

theorem TermsPaid.settledPaid {s : Store} (h : TermsPaid s) : SettledPaid s :=
  fun invoiceId _ hr hst => h invoiceId _ (terms_of_getInvoice hr) hst

/-- A successful call keeps `Settled` meaning paid, if it is no payment or one whose fee is
covered. -/
theorem TermsPaid.step {i : Env × Call} {s s' : Store} {u : Unit} (h : TermsPaid s)
    (hcov : AtPayments [⟨s, i, .ok u, s'⟩] FeeCovered)
    (hi : settlement.invoke i s = .ok (u, s')) : TermsPaid s' := by
  rcases invoice_cases hi with ⟨c, j, b, f, a, d, r, -, hs, -⟩ |
    ⟨c, j, n, a, k, tm, p, hc, hpay⟩ | ⟨-, hs, -⟩
  · intro x tm htm hst
    rw [hs] at htm
    by_cases hx : x = j
    · subst hx
      rw [Function.update_self] at htm
      cases htm
      exact absurd hst approved_ne_settled
    · rw [Function.update_of_ne hx] at htm
      exact h x tm htm hst
  · have hfee := hcov _ (.head _) c j n a k hc rfl
    intro x tm' htm hst
    rw [hpay.left] at htm
    by_cases hx : x = j
    · subst hx
      rw [Function.update_self] at htm
      cases htm
      -- either this payment reached the amount, or an earlier one had and this one kept it
      simp only [Terms.paid] at hst ⊢
      split at hst
      · next hle => exact hle
      · exact le_trans (h x tm hpay.found hst) (hpay.principal_le hfee)
    · rw [Function.update_of_ne hx] at htm
      exact h x tm' htm hst
  · intro x tm htm hst
    rw [hs] at htm
    exact h x tm htm hst

/-- **Payments are sound exactly where their fees are covered.** In a run every payment splits its
amount into a non-negative fee and a non-negative net, the principal never decreases across a
payment and `Settled` means paid in every state, if and only if every accepted payment is made at
a rate whose fee is at most the amount paid. -/
theorem payments_sound_iff (is : List (Env × Call)) :
    PaymentsSound is ↔ AtPayments (settlement.trace settlement.init is) FeeCovered := by
  constructor
  · rintro ⟨hsound, -⟩ t ht caller invoiceId nonce amount authType hc hacc
    obtain ⟨tm, p, hpay⟩ := pays_of_mem_trace ht hacc hc
    exact hpay.sound_iff.1 (hsound t ht caller invoiceId nonce amount authType hc hacc)
  · intro hcov
    refine ⟨fun t ht caller invoiceId nonce amount authType hc hacc => ?_, ?_⟩
    · obtain ⟨tm, p, hpay⟩ := pays_of_mem_trace ht hacc hc
      exact hpay.sound_iff.2 (hcov t ht caller invoiceId nonce amount authType hc hacc)
    · rintro is₁ is₂ rfl
      have hpaid : TermsPaid (settlement.exec settlement.init is₁) :=
        Machine.invariant_of (C := fun t => AtPayments [t] FeeCovered)
          (fun x tm htm => by cases htm) (fun _ _ _ _ h hC hi => h.step hC hi)
          fun t ht => hcov.of_mem (Machine.mem_trace_append ht)
      exact hpaid.settledPaid

/-- A run that pays off the invoice `INV` of 100 without a fee and then pays 10 more at a rate of
20000. -/
def overchargedRun : List (Env × Call) :=
  [(⟨1, 0, []⟩, .init [⟨1⟩] 1 34560),
    (⟨1, 0, [⟨1⟩]⟩, .setInvoiceData ⟨1⟩ "INV" ⟨2⟩ ⟨3⟩ (.lit 100) 0 0),
    (⟨1, 0, [⟨2⟩]⟩, .settleInvoice ⟨2⟩ "INV" 1 (.lit 100) 0),
    (⟨1, 0, [⟨1⟩]⟩, .setFeeRate ⟨1⟩ 20000),
    (⟨1, 0, [⟨2⟩]⟩, .settleInvoice ⟨2⟩ "INV" 2 (.lit 10) 0)]

/-- Without the condition payments are not sound: the last payment of `overchargedRun` takes a fee
of 20 from 10, pays a net of -10, and leaves a record that is marked `Settled` with 90 of 100
paid. -/
theorem overcharged_payment_unsound :
    ¬ PaymentsSound overchargedRun ∧
    (settlement.exec settlement.init overchargedRun).events.getLast? =
      some (.settled "INV" ⟨2⟩ (.lit 10) 2 (.lit 20)
        (.lit (-10)) (.lit 90)) := by
  refine ⟨fun h => ?_, by decide⟩
  have hpaid := h.2 overchargedRun [] rfl
  have hrec : ∃ r, getInvoice (settlement.exec settlement.init overchargedRun) "INV" = some r ∧
      r.status = SettlementStatus.settled.code ∧ r.amount.val = 100 ∧ r.principalPaid.val = 90 :=
    ⟨_, rfl, rfl, rfl, rfl⟩
  obtain ⟨r, hr, hst, ha, hp⟩ := hrec
  have hle := hpaid "INV" r hr hst
  omega

/-! ## Over-collection -/

/-- The gross amount of a step that is an accepted payment of the invoice. -/
def grossPaid (invoiceId : Symbol) (t : SettlementStep) : ℤ :=
  match t.input.2 with
  | .settleInvoice _ j _ amount _ => if j = invoiceId ∧ t.Accepted then amount.val else 0
  | _ => 0

/-- The gross amounts accepted for the invoice. -/
def grossSum (invoiceId : Symbol) (h : List SettlementStep) : ℤ :=
  (h.map (grossPaid invoiceId)).sum

/-- The step is an accepted registration of the invoice. -/
def registersInvoice (invoiceId : Symbol) (t : SettlementStep) : Bool :=
  match t.input.2 with
  | .setInvoiceData _ j _ _ _ _ _ => decide (j = invoiceId ∧ t.Accepted)
  | _ => false

/-- The store an accepted registration of the invoice with the amount `A` leaves, in some run. -/
def JustRegistered (invoiceId : Symbol) (A : I128) (s : Store) : Prop :=
  ∃ is env caller borrower financier dueDate interestRate,
    setInvoiceData env (settlement.exec settlement.init is) caller invoiceId borrower financier A
      dueDate interestRate = .ok s

/-- Paying `gross` more at the rate in force brings the principal of the invoice to `A`. -/
def Suffices (s : Store) (invoiceId : Symbol) (A gross : ℤ) : Prop :=
  ∃ r, getInvoice s invoiceId = some r ∧ A ≤ r.principalPaid.val + netAt (feeRate s) gross

/-- In the run from `s` the invoice is never over-collected beyond `A`: its principal never exceeds
`A`, no step brings the gross amounts accepted above what is enough to bring the principal to `A`,
and a payment that finds the record `Settled` is rejected. -/
structure NeverOverCollected (invoiceId : Symbol) (A : ℤ) (s : Store) (is : List (Env × Call)) :
    Prop where
  principal : ∀ is₁ is₂, is = is₁ ++ is₂ → ∃ r, getInvoice (settlement.exec s is₁) invoiceId =
    some r ∧ r.principalPaid.val ≤ A
  gross : ∀ is₁ i is₂, is = is₁ ++ i :: is₂ → ∀ g, 0 ≤ g →
    Suffices (settlement.exec s is₁) invoiceId A g →
    grossSum invoiceId (settlement.trace s (is₁ ++ [i])) ≤
      grossSum invoiceId (settlement.trace s is₁) + g
  settled : ∀ t ∈ settlement.trace s is, ∀ r, getInvoice t.pre invoiceId = some r →
    r.status = SettlementStatus.settled.code → ∀ caller nonce amount authType,
    t.input.2 = .settleInvoice caller invoiceId nonce amount authType → ¬ t.Accepted

/-- The payment finds the principal short of `A`, and would leave it short if it paid one unit
less. -/
def StillShort (invoiceId : Symbol) (A : ℤ) (t : SettlementStep) (_ : Address) (j : Symbol)
    (_ : UInt64) (amount : I128) : Prop :=
  j = invoiceId → ∃ r, getInvoice t.pre invoiceId = some r ∧ r.principalPaid.val < A ∧
    r.principalPaid.val + netAt (feeRate t.pre) (amount.val - 1) < A

/-- What one unit less leaves short, the payment itself brings to `A` at most. -/
theorem netAt_le_of_short {r q m A : ℤ} (hr : 0 ≤ r) (hshort : q + netAt r (m - 1) < A) :
    q + netAt r m ≤ A := by
  have hsucc := rest_succ_le rateDenominator_pos hr (m - 1)
  rw [sub_add_cancel] at hsucc
  simp only [netAt] at hshort ⊢
  omega

/-- A payment that one unit less leaves short is no more than any gross amount that suffices. -/
theorem le_of_short {r q m A g : ℤ} (hq : q < A) (hshort : q + netAt r (m - 1) < A) (hg : 0 ≤ g)
    (hsuff : A ≤ q + netAt r g) : m ≤ g := by
  by_contra hlt
  rcases le_total r 10000 with hr | hr
  · -- up to the denominator a smaller amount pays no more
    have hmono : netAt r g ≤ netAt r (m - 1) := rest_mono rateDenominator_pos hr (by omega)
    omega
  · -- past it no amount pays anything
    have hnonpos : netAt r g ≤ 0 := rest_nonpos rateDenominator_pos hr hg
    omega

section
variable {invoiceId : Symbol} {A : I128}

/-- The terms of an invoice of `A`: until it is `Settled` its principal is short of `A`. -/
structure Owing (A : I128) (tm : Terms) : Prop where
  amount : tm.amount = A
  short : tm.status ≠ SettlementStatus.settled.code → tm.principalPaid.val < A.val

/-- The terms of an invoice of `A` that is not over-collected: the principal is at most `A`, and
`A` once it is `Settled`. -/
structure Bounded (A : I128) (tm : Terms) : Prop where
  le : tm.principalPaid.val ≤ A.val
  full : tm.status = SettlementStatus.settled.code → A.val ≤ tm.principalPaid.val

theorem Owing.registered (hA : 0 < A.val) (d : UInt64) : Owing A (.registered A d) :=
  ⟨rfl, fun _ => hA⟩

theorem Bounded.registered (hA : 0 < A.val) (d : UInt64) : Bounded A (.registered A d) :=
  ⟨hA.le, fun h => absurd h approved_ne_settled⟩

theorem Owing.paid {tm : Terms} (h : Owing A tm) (p : I128) : Owing A (tm.paid p) := by
  refine ⟨h.amount, fun hst => ?_⟩
  simp only [Terms.paid, h.amount] at hst ⊢
  by_contra hle
  rw [if_pos (by omega)] at hst
  exact hst rfl

theorem Bounded.paid {tm : Terms} (ho : Owing A tm) (hb : Bounded A tm) {p : I128}
    (hp : p.val ≤ A.val) (hshort : tm.principalPaid.val < A.val) : Bounded A (tm.paid p) := by
  refine ⟨hp, fun hst => ?_⟩
  simp only [Terms.paid, ho.amount] at hst ⊢
  split at hst
  · next hle => exact hle
  · exact absurd (hb.full hst) (by omega)

/-- A successful call that is no registration of the invoice keeps its terms, or pays it. -/
theorem terms_step {i : Env × Call} {s s' : Store} {u : Unit}
    (hreg : registersInvoice invoiceId ⟨s, i, .ok u, s'⟩ = false)
    (hi : settlement.invoke i s = .ok (u, s')) :
    terms s' invoiceId = terms s invoiceId ∨
    ∃ caller nonce amount authType tm p,
      i.2 = .settleInvoice caller invoiceId nonce amount authType ∧
      Pays i.1 s caller invoiceId nonce amount tm p s' ∧
      terms s' invoiceId = some (tm.paid p) := by
  rcases invoice_cases hi with ⟨c, j, b, f, a, d, r, hc, hs, -⟩ |
    ⟨c, j, n, a, k, tm, p, hc, hpay⟩ | ⟨-, hs, -⟩
  · by_cases hj : j = invoiceId
    · have hacc : (⟨s, i, .ok u, s'⟩ : SettlementStep).Accepted := rfl
      simp [registersInvoice, hc, hj, hacc] at hreg
    · rw [hs, Function.update_of_ne (Ne.symm hj)]
      exact .inl rfl
  · by_cases hj : j = invoiceId
    · subst hj
      exact .inr ⟨c, n, a, k, tm, p, hc, hpay, by rw [hpay.left, Function.update_self]⟩
    · rw [hpay.left, Function.update_of_ne (Ne.symm hj)]
      exact .inl rfl
  · exact .inl (by rw [hs])

/-- Until its next registration an invoice of `A` keeps owing. -/
theorem owing_exec {s : Store} {is : List (Env × Call)}
    (h0 : ∃ tm, terms s invoiceId = some tm ∧ Owing A tm)
    (hno : ∀ t ∈ settlement.trace s is, registersInvoice invoiceId t = false) :
    ∃ tm, terms (settlement.exec s is) invoiceId = some tm ∧ Owing A tm := by
  refine Machine.invariant_of (I := fun s => ∃ tm, terms s invoiceId = some tm ∧ Owing A tm) h0
    (fun i s u s' h hreg hi => ?_) hno
  obtain ⟨tm, htm, ho⟩ := h
  rcases terms_step hreg hi with heq | ⟨c, n, a, k, tm', p, -, hpay, hleft⟩
  · exact ⟨tm, heq.trans htm, ho⟩
  · have hsame := hpay.found.symm.trans htm
    cases hsame
    exact ⟨_, hleft, ho.paid p⟩

/-- In a run of payments that are all still short an invoice of `A` stays within `A`. -/
theorem bounded_exec {s : Store} {is : List (Env × Call)}
    (h0 : ∃ tm, terms s invoiceId = some tm ∧ Owing A tm ∧ Bounded A tm)
    (hno : ∀ t ∈ settlement.trace s is, registersInvoice invoiceId t = false)
    (hshort : AtPayments (settlement.trace s is) (StillShort invoiceId A.val)) :
    ∃ tm, terms (settlement.exec s is) invoiceId = some tm ∧ Owing A tm ∧ Bounded A tm := by
  refine Machine.invariant_of
    (I := fun s => ∃ tm, terms s invoiceId = some tm ∧ Owing A tm ∧ Bounded A tm)
    (C := fun t => registersInvoice invoiceId t = false ∧
      AtPayments [t] (StillShort invoiceId A.val))
    h0 (fun i s u s' h hC hi => ?_) fun t ht => ⟨hno t ht, hshort.of_mem ht⟩
  obtain ⟨tm, htm, ho, hb⟩ := h
  rcases terms_step hC.1 hi with heq | ⟨c, n, a, k, tm', p, hc, hpay, hleft⟩
  · exact ⟨tm, heq.trans htm, ho, hb⟩
  · have hsame := hpay.found.symm.trans htm
    cases hsame
    obtain ⟨r, hr, hq, hless⟩ := hC.2 _ (.head _) c invoiceId n a k hc rfl rfl
    have hterms := (terms_of_getInvoice hr).symm.trans htm
    cases hterms
    have hp : p.val ≤ A.val := by
      rw [hpay.principal]
      exact netAt_le_of_short (feeRate_nonneg s) hless
    exact ⟨_, hleft, ho.paid p, hb.paid ho hp hq⟩

theorem grossSum_concat (s : Store) (is : List (Env × Call)) (i : Env × Call) :
    grossSum invoiceId (settlement.trace s (is ++ [i])) =
      grossSum invoiceId (settlement.trace s is) +
        grossPaid invoiceId (settlement.step i (settlement.exec s is)) := by
  rw [grossSum, Machine.trace_concat, List.map_append, List.sum_append, grossSum,
    List.map_singleton, List.sum_singleton]

/-- A step that is no accepted payment of the invoice adds nothing to its gross amounts. -/
theorem grossPaid_cases (invoiceId : Symbol) (t : SettlementStep) :
    grossPaid invoiceId t = 0 ∨ ∃ caller nonce amount authType,
      t.input.2 = .settleInvoice caller invoiceId nonce amount authType ∧ t.Accepted ∧
      grossPaid invoiceId t = amount.val := by
  unfold grossPaid
  split
  · next c j n a k heq =>
    by_cases h : j = invoiceId ∧ t.Accepted
    · obtain ⟨rfl, hacc⟩ := h
      exact .inr ⟨c, n, a, k, heq, hacc, if_pos ⟨rfl, hacc⟩⟩
    · exact .inl (if_neg h)
  · exact .inl rfl

/-- A payment of an invoice that is never over-collected is still short. -/
theorem NeverOverCollected.stillShort {s : Store} {is : List (Env × Call)}
    (h : NeverOverCollected invoiceId A.val s is)
    (h0 : ∃ tm, terms s invoiceId = some tm ∧ Owing A tm)
    (hno : ∀ t ∈ settlement.trace s is, registersInvoice invoiceId t = false) :
    AtPayments (settlement.trace s is) (StillShort invoiceId A.val) := by
  rintro t ht c j n a k hc hacc rfl
  obtain ⟨tm, p, hpay⟩ := pays_of_mem_trace ht hacc hc
  obtain ⟨r, hr, rfl⟩ := getInvoice_of_terms hpay.found
  have hopen : r.status ≠ SettlementStatus.settled.code := fun hst =>
    h.settled t ht r hr hst c n a k hc hacc
  have hpos := hpay.pos
  obtain ⟨is₁, i, is₂, rfl, rfl⟩ := Machine.mem_trace.1 ht
  rw [Machine.step_pre] at hr
  rw [Machine.step_input] at hc
  have hno₁ : ∀ t ∈ settlement.trace s is₁, registersInvoice j t = false :=
    fun t ht => hno t (Machine.mem_trace_append ht)
  obtain ⟨tm', htm', ho⟩ := owing_exec h0 hno₁
  have hsame := (terms_of_getInvoice hr).symm.trans htm'
  cases hsame
  refine ⟨r, by rw [Machine.step_pre]; exact hr, ho.short hopen, ?_⟩
  rw [Machine.step_pre]
  by_contra hle
  -- paying one unit less would have been enough
  have hsum := h.gross is₁ i is₂ rfl (a.val - 1) (by omega) ⟨r, hr, by omega⟩
  have hpaid : grossPaid j (settlement.step i (settlement.exec s is₁)) = a.val := by
    simp only [grossPaid, Machine.step_input, hc, hacc, and_self, if_true]
  rw [grossSum_concat, hpaid] at hsum
  omega

/-- In a run of payments that are all still short the invoice is never over-collected. -/
theorem neverOverCollected_of_stillShort {s : Store} {is : List (Env × Call)}
    (h0 : ∃ tm, terms s invoiceId = some tm ∧ Owing A tm ∧ Bounded A tm)
    (hno : ∀ t ∈ settlement.trace s is, registersInvoice invoiceId t = false)
    (hshort : AtPayments (settlement.trace s is) (StillShort invoiceId A.val)) :
    NeverOverCollected invoiceId A.val s is := by
  -- the conditions on the run are conditions on its prefixes
  have hprefix : ∀ is₁ is₂, is = is₁ ++ is₂ →
      ∃ tm, terms (settlement.exec s is₁) invoiceId = some tm ∧ Owing A tm ∧ Bounded A tm := by
    rintro is₁ is₂ rfl
    exact bounded_exec h0 (fun t ht => hno t (Machine.mem_trace_append ht))
      fun t ht => hshort t (Machine.mem_trace_append ht)
  refine ⟨fun is₁ is₂ his => ?_, fun is₁ i is₂ his g hg hsuff => ?_, ?_⟩
  · obtain ⟨tm, htm, -, hb⟩ := hprefix is₁ is₂ his
    obtain ⟨r, hr, rfl⟩ := getInvoice_of_terms htm
    exact ⟨r, hr, hb.le⟩
  · rw [grossSum_concat]
    have hmem : settlement.step i (settlement.exec s is₁) ∈ settlement.trace s is :=
      Machine.mem_trace.2 ⟨is₁, i, is₂, his, rfl⟩
    rcases grossPaid_cases invoiceId (settlement.step i (settlement.exec s is₁)) with
      hzero | ⟨c, n, a, k, hc, hacc, hpaid⟩
    · omega
    · obtain ⟨r, hr, hq, hless⟩ := hshort _ hmem c invoiceId n a k hc hacc rfl
      rw [Machine.step_pre] at hr hless
      obtain ⟨r', hr', hle⟩ := hsuff
      have hsame := hr.symm.trans hr'
      cases hsame
      have hm := le_of_short hq hless hg hle
      omega
  · intro t ht r hr hst c n a k hc hacc
    obtain ⟨r', hr', hq, -⟩ := hshort t ht c invoiceId n a k hc hacc rfl
    have hsame := hr.symm.trans hr'
    cases hsame
    obtain ⟨is₁, i, is₂, his, rfl⟩ := Machine.mem_trace.1 ht
    rw [Machine.step_pre] at hr
    obtain ⟨tm, htm, -, hb⟩ := hprefix is₁ (i :: is₂) his
    have hterms := (terms_of_getInvoice hr).symm.trans htm
    cases hterms
    exact absurd (hb.full hst) (Int.not_le.2 hq)

end

/-- **When an invoice is never over-collected.** In any run that follows an accepted registration
of the invoice with the amount `A > 0` and does not register it again, the invoice is never
over-collected if and only if every accepted payment of it finds its principal short of `A` and
would leave it short if it paid one unit less. -/
theorem never_over_collected_iff {invoiceId : Symbol} {A : I128} {s : Store}
    (hreg : JustRegistered invoiceId A s) (hA : 0 < A.val) {is : List (Env × Call)}
    (hno : ∀ t ∈ settlement.trace s is, registersInvoice invoiceId t = false) :
    NeverOverCollected invoiceId A.val s is ↔
      AtPayments (settlement.trace s is) (StillShort invoiceId A.val) := by
  obtain ⟨is₀, env, caller, borrower, financier, dueDate, interestRate, hset⟩ := hreg
  have hterms : terms s invoiceId = some (.registered A dueDate) := by
    obtain ⟨-, hs⟩ := setInvoiceData_eq_ok.1 hset
    rw [terms_update s (by rw [hs]), Function.update_self]
    rfl
  have hbounded := Bounded.registered hA dueDate
  have howing := Owing.registered hA dueDate
  constructor
  · intro h
    exact h.stillShort ⟨_, hterms, howing⟩ hno
  · intro hshort
    exact neverOverCollected_of_stillShort ⟨_, hterms, howing, hbounded⟩ hno hshort

/-- The state after the setup and the registration of the invoice `INV` of 100. -/
def registeredINV : Store :=
  settlement.exec settlement.init
    [(⟨1, 0, []⟩, .init [⟨1⟩] 1 34560),
      (⟨1, 0, [⟨1⟩]⟩, .setInvoiceData ⟨1⟩ "INV" ⟨2⟩ ⟨3⟩ (.lit 100) 0 0)]

theorem justRegistered_INV : JustRegistered "INV" (.lit 100) registeredINV :=
  ⟨[(⟨1, 0, []⟩, .init [⟨1⟩] 1 34560)], ⟨1, 0, [⟨1⟩]⟩, ⟨1⟩, ⟨2⟩, ⟨3⟩, 0, 0, rfl⟩

/-- Paying the amount on `INV` under the nonce. -/
def payINV (nonce : UInt64) (amount : I128) : Env × Call :=
  (⟨1, 0, [⟨2⟩]⟩, .settleInvoice ⟨2⟩ "INV" nonce amount 0)

/-- Paid in two parts of 60 and 40 the invoice is not over-collected. -/
theorem two_parts_not_over_collected :
    NeverOverCollected "INV" 100 registeredINV [payINV 1 (.lit 60), payINV 2 (.lit 40)] := by
  refine (never_over_collected_iff justRegistered_INV (by decide) (by decide)).2 ?_
  intro t ht c j n a k hc hacc hj
  rcases List.mem_cons.1 ht with rfl | ht
  · rw [Machine.step_input] at hc
    cases hc
    exact ⟨_, rfl, by decide, by decide⟩
  · rw [List.mem_singleton.1 ht] at hc ⊢
    rw [Machine.step_input] at hc
    cases hc
    exact ⟨_, rfl, by decide, by decide⟩

/-- Without the condition an invoice is over-collected: a settled invoice of 100 is paid again in
full, which brings its principal to 200. -/
theorem paid_twice_over_collected :
    JustRegistered "INV" (.lit 100) registeredINV ∧
    (∀ t ∈ settlement.trace registeredINV [payINV 1 (.lit 100), payINV 2 (.lit 100)],
      t.Accepted ∧ registersInvoice "INV" t = false) ∧
    ¬ NeverOverCollected "INV" 100 registeredINV
      [payINV 1 (.lit 100), payINV 2 (.lit 100)] := by
  refine ⟨justRegistered_INV, by decide, fun h => ?_⟩
  obtain ⟨r, hr, hle⟩ := h.principal _ [] (List.append_nil _).symm
  have hpaid : (getInvoice (settlement.exec registeredINV
      [payINV 1 (.lit 100), payINV 2 (.lit 100)]) "INV").map (·.principalPaid.val) = some 200 := by
    decide
  rw [hr, Option.map_some, Option.some_inj] at hpaid
  omega

end Settlement

end InvoiceFi
