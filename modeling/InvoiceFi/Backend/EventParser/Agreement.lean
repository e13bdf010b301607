import InvoiceFi.Backend.EventParser
import InvoiceFi.Contracts.Settlement.Steps

/-!
# The contract's events and the parser

The settlement contract publishes every event under two topics, its own name and the name of the
event, with the fields of the event as a tuple. `normalized` is such an event as the listener sees
it, once `scValToNative` has decoded it: symbols and addresses are strings, tuples are arrays, the
64- and 128-bit integers are bigints. The parser looks for the name of a settlement in the first
topic, where the contract always writes `settlement`, and for an id in the second topic or in an
object, where the contract writes the name of the event and a tuple. So it recognises no event of
the contract (`parseSettlementEvent_normalized`), and the two sides agree on exactly the payments
that leave nothing to report (`parser_agrees_iff`).
-/

namespace InvoiceFi

namespace Backend

/-! ## Decoded events -/

/-- The second topic of an event, its name. -/
def eventTopic : Settlement.Event → String
  | .payersSet => "payers_set"
  | .financiersSet => "financiers_set"
  | .invoiceSet .. => "invoice_set"
  | .feeRateSet .. => "fee_rate_set"
  | .escrowSet => "escrow_set"
  | .attestationSubmitted .. => "attestation_submitted"
  | .authRecorded .. => "auth_recorded"
  | .authRequested .. => "auth_requested"
  | .feesWithdrawn .. => "fees_withdrawn"
  | .financingPoolSet .. => "financing_pool_set"
  | .notifyFinancingPool .. => "notify_financing_pool"
  | .settled .. => "settled"

/-- The decoded data of an event; `strKey` spells an address. -/
def eventData (strKey : Address → String) : Settlement.Event → Native
  | .payersSet | .financiersSet | .escrowSet => .null
  | .invoiceSet id borrower financier amount dueDate =>
    .array [.string id, .string (strKey borrower), .string (strKey financier),
      .bigint amount.val, .bigint dueDate.toNat]
  | .feeRateSet rate => .array [.number rate.toNat]
  | .attestationSubmitted caller payload sig =>
    .array [.string (strKey caller), .bytes payload, .bytes sig.toList]
  | .authRecorded id caller didPay isBuyer isPayee =>
    .array [.string id, .string (strKey caller), .bool didPay, .bool isBuyer, .bool isPayee]
  | .authRequested id caller => .array [.string id, .string (strKey caller)]
  | .feesWithdrawn payee amount => .array [.string (strKey payee), .bigint amount.val]
  | .financingPoolSet pool => .array [.string (strKey pool)]
  | .notifyFinancingPool id pool amount net =>
    .array [.string id, .string (strKey pool), .bigint amount.val, .bigint net.val]
  | .settled id caller amount nonce fee net newPrincipal =>
    .array [.string id, .string (strKey caller), .bigint amount.val, .bigint nonce.toNat,
      .bigint fee.val, .bigint net.val, .bigint newPrincipal.val]

/-- Where an event is observed: the spelling of addresses, the id of the contract, the ledger and
the transaction. -/
structure Emission where
  strKey : Address → String
  contractId : String
  ledger : Nat
  txHash : Option String

/-- An event of the contract as the listener sees it. -/
def normalized (em : Emission) (e : Settlement.Event) : NormalizedEvent where
  ledger := em.ledger
  contractId := em.contractId
  topics := [.string "settlement", .string (eventTopic e)]
  value := eventData em.strKey e
  txHash := em.txHash

/-- The parser recognises no event of the contract. -/
theorem parseSettlementEvent_normalized (em : Emission) (e : Settlement.Event) :
    parseSettlementEvent (normalized em e) = none :=
  parseSettlementEvent_eq_none rfl (show toLowerCase "settlement" ∉ settlementTopics by decide)

/-! ## Agreement -/

/-- A positive decimal number: digits, one of them not zero. -/
def PositiveDecimal (id : String) : Prop :=
  id.toList.all Char.isDigit = true ∧ id.toList.any (fun c => decide (c ≠ '0')) = true

instance (id : String) : Decidable (PositiveDecimal id) :=
  inferInstanceAs (Decidable (_ ∧ _))

/-- The events published by the call that took the store `s` to `s'`. -/
def published (s s' : Settlement.Store) : List Settlement.Event := s'.events.drop s.events.length

/-- The contract and the parser agree on the call that took `s` to `s'`: a call that leaves the
invoice fully paid is reported, with the invoice's id, on exactly one of its events, and a call
that does not is reported on none. -/
structure ParserAgrees (em : Emission) (invoiceId : Symbol) (s s' : Settlement.Store) : Prop where
  settled : ∀ r, s'.invoiceData invoiceId = some r → r.amount.val ≤ r.principalPaid.val →
    ((published s s').filter fun e =>
      decide ((parseSettlementEvent (normalized em e)).map SettlementEvent.invoiceId =
        some invoiceId)).length = 1
  unsettled : ∀ r, s'.invoiceData invoiceId = some r → r.principalPaid.val < r.amount.val →
    ∀ e ∈ published s s', parseSettlementEvent (normalized em e) = none

/-- A payment of `amount` is partial: with what it pays of the principal, the invoice stays short
of its amount. -/
def StaysShort (s : Settlement.Store) (invoiceId : Symbol) (amount : I128) : Prop :=
  ∀ r, s.invoiceData invoiceId = some r →
    r.principalPaid.val + Settlement.netAt (Settlement.feeRate s) amount.val < r.amount.val

/-- The record a payment leaves, against the record it finds. -/
theorem paid_record {env : Env} {s s' : Settlement.Store} {caller : Address} {invoiceId : Symbol}
    {nonce : UInt64} {amount : I128} {authType : UInt32}
    (h : Settlement.settleInvoice env s caller invoiceId nonce amount authType = .ok s') :
    ∃ r r', s.invoiceData invoiceId = some r ∧ s'.invoiceData invoiceId = some r' ∧
      r'.amount = r.amount ∧
      r'.principalPaid.val =
        r.principalPaid.val + Settlement.netAt (Settlement.feeRate s) amount.val := by
  obtain ⟨t, p, hp⟩ := Settlement.pays_of_settleInvoice h
  obtain ⟨r, hr, rfl⟩ := Option.map_eq_some_iff.1 hp.found
  have hleft : Settlement.terms s' invoiceId = some (r.terms.paid p) := by
    rw [hp.left, Function.update_self]
  obtain ⟨r', hr', heq⟩ := Option.map_eq_some_iff.1 hleft
  have hamount : r'.amount = r.amount := congrArg Settlement.Terms.amount heq
  have hprincipal : r'.principalPaid = p := congrArg Settlement.Terms.principalPaid heq
  exact ⟨r, r', hr, hr', hamount, by rw [hprincipal]; exact hp.principal⟩

/-- **The parser agrees with the contract on exactly the partial payments.** It reports nothing on
any of them, as it should, and nothing on a payment that settles the invoice either. -/
theorem parser_agrees_iff (em : Emission) {env : Env} {s s' : Settlement.Store} {caller : Address}
    {invoiceId : Symbol} {nonce : UInt64} {amount : I128} {authType : UInt32}
    (h : Settlement.settleInvoice env s caller invoiceId nonce amount authType = .ok s') :
    ParserAgrees em invoiceId s s' ↔ StaysShort s invoiceId amount := by
  obtain ⟨r, r', hr, hr', hamount, hprincipal⟩ := paid_record h
  constructor
  · intro hagree x hx
    rw [hr] at hx
    cases hx
    by_contra hge
    have hone := hagree.settled r' hr' (by rw [hamount]; omega)
    have hnone : ((published s s').filter fun e =>
        decide ((parseSettlementEvent (normalized em e)).map SettlementEvent.invoiceId =
          some invoiceId)) = [] := by
      refine List.filter_eq_nil_iff.2 fun e _ => ?_
      rw [parseSettlementEvent_normalized, Option.map_none]
      simp
    rw [hnone] at hone
    cases hone
  · intro hshort
    have hlt := hshort r hr
    refine ⟨fun x hx hfull => ?_, fun _ _ _ e _ => parseSettlementEvent_normalized em e⟩
    rw [hr'] at hx
    cases hx
    rw [hamount] at hfull
    omega

/-- A deployed contract with the invoice `7` of 100, no fee and no financing pool. -/
def invoiceSeven : Settlement.Store :=
  Settlement.settlement.exec Settlement.settlement.init
    [(⟨1, 0, []⟩, .init [⟨1⟩] 1 34560),
      (⟨1, 0, [⟨1⟩]⟩, .setInvoiceData ⟨1⟩ "7" ⟨2⟩ ⟨3⟩ (.lit 100) 0 0)]

/-- The store after a payment of the invoice `7`. -/
def paidSeven (amount : I128) : Settlement.Store :=
  Settlement.settlement.exec invoiceSeven [(⟨1, 0, [⟨2⟩]⟩, .settleInvoice ⟨2⟩ "7" 1 amount 0)]

/-- An emission in ledger 100. -/
def inLedger100 : Emission := ⟨fun a => toString a.key, "CSETTLEMENT", 100, some "tx"⟩

/-- A partial payment, on which the two sides agree. -/
theorem parser_agrees_partial :
    ParserAgrees inLedger100 "7" invoiceSeven (paidSeven (.lit 40)) ↔
      StaysShort invoiceSeven "7" (.lit 40) :=
  parser_agrees_iff inLedger100
    (show Settlement.settleInvoice ⟨1, 0, [⟨2⟩]⟩ invoiceSeven ⟨2⟩ "7" 1 (.lit 40) 0 = .ok _
      from rfl)

/-- A payment that settles the invoice `7` is reported on none of its events. -/
theorem full_payment_unreported :
    Settlement.settleInvoice ⟨1, 0, [⟨2⟩]⟩ invoiceSeven ⟨2⟩ "7" 1 (.lit 100) 0 =
      .ok (paidSeven (.lit 100)) ∧
    PositiveDecimal "7" ∧
    ¬ ParserAgrees inLedger100 "7" invoiceSeven (paidSeven (.lit 100)) := by
  refine ⟨rfl, by decide, fun h => ?_⟩
  have hrec : ∃ r, (paidSeven (.lit 100)).invoiceData "7" = some r ∧
      r.amount.val = 100 ∧ r.principalPaid.val = 100 := ⟨_, rfl, rfl, rfl⟩
  obtain ⟨r, hr, ha, hp⟩ := hrec
  have hone := h.settled r hr (by omega)
  exact absurd hone (by decide)

end Backend

end InvoiceFi
