import InvoiceFi.Contracts.Settlement.Fees
import InvoiceFi.Lib.Journal

/-!
# What the settlement contract's events tell

The events of the settlement contract tell every record in full: a registration says how a record
begins, and the events of the approvals and of the payments carry what the contract writes. `View`
holds the records, the nonces used, the fee rate, the two fee counters and the address of the
financing pool, `record` reads one event, and `journal` says that reading keeps in step with the
contract along every run (`settlements_replayed`).

The escrow key is in no event, and neither is the access control. A payment is told by its
`Settled` event alone; the notification of the financing pool beside it adds nothing.
-/

namespace InvoiceFi

namespace Settlement

open AccessControl (Op)

/-- What the events tell of the storage. -/
structure View where
  invoiceData : Symbol → Option InvoiceRecord
  usedNonces : Symbol → List UInt64
  feeRate : UInt32
  collected : ℤ
  withdrawn : ℤ
  financingPool : Option Address

/-- The view of a store. -/
def view (s : Store) : View :=
  ⟨s.invoiceData, getUsedNonces s, s.feeRate.getD 0, collected s, withdrawn s,
    s.financingPoolAddress⟩

/-- What reading one event does to a view. -/
def record (v : View) : Event → View
  | .invoiceSet invoiceId borrower financier amount dueDate =>
    { v with
      invoiceData := Function.update v.invoiceData invoiceId
        (some (newRecord invoiceId borrower financier amount dueDate)) }
  | .feeRateSet feeRate => { v with feeRate := feeRate }
  | .authRecorded invoiceId _ didPay isBuyer isPayee =>
    { v with
      invoiceData := Function.update v.invoiceData invoiceId
        ((v.invoiceData invoiceId).map (authRecord · didPay isBuyer isPayee)) }
  | .authRequested invoiceId caller =>
    { v with
      invoiceData := Function.update v.invoiceData invoiceId
        ((v.invoiceData invoiceId).map (requestRecord · caller)) }
  | .feesWithdrawn _ amount =>
    { v with collected := v.collected - amount.val, withdrawn := v.withdrawn + amount.val }
  | .financingPoolSet pool => { v with financingPool := some pool }
  | .settled invoiceId _ _ nonce fee _ newPrincipal =>
    { v with
      invoiceData := Function.update v.invoiceData invoiceId
        ((v.invoiceData invoiceId).map (paidRecord · newPrincipal))
      usedNonces := Function.update v.usedNonces invoiceId (v.usedNonces invoiceId ++ [nonce])
      collected := v.collected + fee.val }
  | .payersSet | .financiersSet | .escrowSet | .attestationSubmitted _ _ _
  | .notifyFinancingPool _ _ _ _ => v

/-- What reading the events needs of the store: before the setup there is no invoice, and the fee
rate and both counters are zero. -/
structure Readable (s : Store) : Prop where
  fresh : FreshUntilSetup s
  feeRate : s.ac.multisig = none → s.feeRate.getD 0 = 0

theorem Readable.empty : Readable .empty :=
  ⟨fun _ => ⟨fun _ => rfl, rfl, rfl⟩, fun _ => rfl⟩

section
variable {s s' : Store}

/-- Every successful call keeps what reading needs. -/
theorem Readable.step {i : Env × Call} {u : Unit} (hs : Readable s)
    (hi : settlement.invoke i s = .ok (u, s')) : Readable s' := by
  refine ⟨hs.fresh.step hi, fun hn => ?_⟩
  rcases settlement_cases hi with ⟨sg, th, tl, ac, -, -, hm, rfl⟩ |
    ⟨c, j, b, f, a, d, r, -, h⟩ | ⟨c, rate, -, h⟩ | ⟨c, p, a, -, h⟩ | ⟨c, j, n, a, k, -, h⟩ |
    ⟨-, hsame⟩
  · exact absurd hn hm
  · obtain ⟨-, rfl⟩ := setInvoiceData_eq_ok.1 h
    exact hs.feeRate hn
  · -- only a signer sets the fee rate, and there is none before the setup
    obtain ⟨⟨-, hsig⟩, rfl⟩ := setFeeRate_eq_ok.1 h
    exact absurd hn (multisig_ne_none hsig)
  · obtain ⟨-, -, -, c', -, w, -, rfl⟩ := withdrawFees_eq_ok.1 h
    exact hs.feeRate hn
  · obtain ⟨-, -, -, -, r, -, -, num, -, fee, -, net, -, c', -, p, -, rfl⟩ :=
      settleInvoice_eq_ok.1 h
    exact hs.feeRate hn
  · rw [hsame.feeRate]
    exact hs.feeRate (hsame.initialized hn)

/-- The nonces of a store in which a payment marked one. -/
theorem getUsedNonces_markUsed {j : Symbol} {n : UInt64}
    (h : s'.nonceMeta = Function.update s.nonceMeta j (some ((NonceMeta.load s j).markUsed n))) :
    getUsedNonces s' = Function.update (getUsedNonces s) j (getUsedNonces s j ++ [n]) := by
  funext k
  simp only [getUsedNonces, NonceMeta.load, h]
  by_cases hk : k = j
  · subst hk
    simp only [Function.update_self]
    rfl
  · simp only [Function.update_of_ne hk, getUsedNonces, NonceMeta.load]

/-- Reading the notification of a payment does nothing. -/
theorem record_paymentEvents {caller : Address} {j : Symbol} {n : UInt64}
    {amount fee net p : I128} (v : View) :
    (paymentEvents s caller j n amount fee net p).foldl record v =
      record v (.settled j caller amount n fee net p) := by
  unfold paymentEvents
  cases s.financingPoolAddress with
  | none => rfl
  | some pool => rfl

/-- The events a successful call publishes tell what it does to the view. -/
theorem written {i : Env × Call} {u : Unit} (hs : Readable s)
    (h : settlement.invoke i s = .ok (u, s')) :
    ∃ es, s'.events = s.events ++ es ∧ view s' = es.foldl record (view s) := by
  obtain ⟨env, c⟩ := i
  obtain ⟨_, h, heq⟩ := map_eq_ok.1 h
  cases heq
  cases c with
  | init sg th tl =>
    obtain ⟨ac, hac, rfl⟩ := init_eq_ok.1 h
    obtain ⟨hm, -⟩ := AccessControl.init_eq_ok.1 hac
    -- the setup publishes nothing, and what it resets to zero was zero
    obtain ⟨-, hcol, hwit⟩ := hs.fresh hm
    refine ⟨[], (List.append_nil _).symm, ?_⟩
    rw [List.foldl_nil, view, view, hs.feeRate hm, hcol, hwit]
    rfl
  | setAuthorizedPayers c ps | setFinanciers c ps =>
    simp only [dispatch, setAuthorizedPayers, setFinanciers, bind_eq_ok, pure_eq_ok] at h
    obtain ⟨-, -, rfl⟩ := h
    exact ⟨_, rfl, rfl⟩
  | setInvoiceData c j b f a d r =>
    have h : setInvoiceData env s c j b f a d r = .ok s' := h
    obtain ⟨-, rfl⟩ := setInvoiceData_eq_ok.1 h
    exact ⟨_, rfl, rfl⟩
  | setFeeRate c rate =>
    obtain ⟨-, rfl⟩ := setFeeRate_eq_ok.1 h
    exact ⟨_, rfl, rfl⟩
  | setEscrowPubkey c k =>
    simp only [dispatch, setEscrowPubkey, bind_eq_ok, pure_eq_ok] at h
    obtain ⟨-, -, rfl⟩ := h
    exact ⟨_, rfl, rfl⟩
  | submitAttestation c pl sig =>
    simp only [dispatch, submitAttestation, bind_eq_ok, pure_eq_ok] at h
    obtain ⟨-, -, -, -, -, -, rfl⟩ := h
    exact ⟨_, rfl, rfl⟩
  | settlementAuth c j didPay isBuyer isPayee =>
    obtain ⟨-, r, hr, rfl⟩ := settlementAuth_eq_ok.1 h
    refine ⟨_, rfl, ?_⟩
    rw [List.foldl_cons, List.foldl_nil, record]
    simp only [view, hr, Option.map_some]
    rfl
  | requestSettlementAuth c j =>
    obtain ⟨-, r, hr, -, rfl⟩ := requestSettlementAuth_eq_ok.1 h
    refine ⟨_, rfl, ?_⟩
    rw [List.foldl_cons, List.foldl_nil, record]
    simp only [view, hr, Option.map_some]
    rfl
  | withdrawFees c p a =>
    obtain ⟨-, -, -, c', hc, w, hw, rfl⟩ := withdrawFees_eq_ok.1 h
    refine ⟨_, rfl, ?_⟩
    rw [List.foldl_cons, List.foldl_nil, record, view, view]
    simp only [collected, withdrawn, getCollectedFees, getWithdrawnFees, Option.getD_some, hc, hw]
    rfl
  | setFinancingPoolAddress c p =>
    simp only [dispatch, setFinancingPoolAddress, bind_eq_ok, pure_eq_ok] at h
    obtain ⟨-, -, rfl⟩ := h
    exact ⟨_, rfl, rfl⟩
  | settleInvoice c j n a k =>
    have h : settleInvoice env s c j n a k = .ok s' := h
    obtain ⟨-, -, -, -, r, hr, -, num, -, fee, -, net, -, c', hc, p, -, rfl⟩ :=
      settleInvoice_eq_ok.1 h
    refine ⟨_, rfl, ?_⟩
    rw [record_paymentEvents, record, view, getUsedNonces_markUsed rfl]
    simp only [view, hr, Option.map_some, collected, getCollectedFees, Option.getD_some, hc]
    rfl
  | access o =>
    simp only [dispatch, access, bind_eq_ok, unwrapAc_eq_ok, pure_eq_ok] at h
    obtain ⟨ac, -, rfl⟩ := h
    exact ⟨[], (List.append_nil _).symm, rfl⟩

end

/-- The contract keeps a journal of its records and its fees. -/
def journal : Journal settlement Event View where
  events := Store.events
  view := view
  record := record
  Inv := Readable
  start := .empty
  kept := Readable.step
  fresh := rfl
  written := written

/-- **The events of the settlement contract tell its books.** Reading all events of a run gives
every invoice record in full, the nonces used, the fee rate, the fees collected and withdrawn and
the address of the financing pool in the state the run reaches; events are only ever added; and a
reader in step with any state of a run catches up with any later one by the events between the
two. -/
theorem settlements_replayed (is₁ is₂ : List (Env × Call)) :
    view (settlement.exec settlement.init is₁) =
        (settlement.exec settlement.init is₁).events.foldl record (view settlement.init) ∧
      (settlement.exec settlement.init is₁).events <+:
        (settlement.exec settlement.init (is₁ ++ is₂)).events ∧
      view (settlement.exec settlement.init (is₁ ++ is₂)) =
        ((settlement.exec settlement.init (is₁ ++ is₂)).events.drop
          (settlement.exec settlement.init is₁).events.length).foldl record
          (view (settlement.exec settlement.init is₁)) :=
  ⟨journal.view_exec is₁, journal.prefix_events is₁ is₂, journal.view_append is₁ is₂⟩

end Settlement

end InvoiceFi
