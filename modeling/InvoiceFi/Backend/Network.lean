import InvoiceFi.Backend.Services

/-!
# The network (`soroban/soroban.service.ts`, `invoke` and `pollForResult`)

The pool contract as the funding service sees it through the RPC. The contract funds an invoice at
most once and rejects every later funding with `AlreadyFunded`. A submission may be refused before
it reaches the contract, be executed and reported, be executed and not reported, or be left in
flight when the polling gives up: then it is executed, or dropped, at any later time.
-/

namespace InvoiceFi

namespace Backend

/-- The fundings that the pool contract has executed, and the submitted ones whose outcome is still
open. -/
structure Network where
  advanced : Int → Option FundRequest
  inFlight : List FundRequest

/-- How a submission fares: it is not executed; it is executed and the polling reports it; it is
executed and the polling fails; or the polling gives up and leaves it in flight. A submission that
reaches the contract is rejected if the invoice has been funded. -/
inductive Submission where
  | refused (e : Error)
  | executed (hash : String)
  | unseen (e : Error)
  | pending (e : Error)

/-- What happens to a transaction in flight: it is executed, or it expires. -/
inductive NetworkEvent where
  | land (n : Nat)
  | drop (n : Nat)

/-- The error of a funding that the contract rejects with `AlreadyFunded`. -/
def alreadyFunded : Error := parseContractError "HostError: Error(Contract, #7)"

namespace Network

/-- The contract executes a funding, unless the invoice has been funded. -/
def execute (req : FundRequest) (n : Network) : Network :=
  if (n.advanced req.invoiceContractId).isSome then n
  else { n with advanced := Function.update n.advanced req.invoiceContractId (some req) }

/-- `invoke`, for a funding. -/
def submit (c : Submission) (req : FundRequest) (n : Network) : Except Error String × Network :=
  match c with
  | .refused e => (.error e, n)
  | .executed hash =>
    if (n.advanced req.invoiceContractId).isSome then (.error alreadyFunded, n)
    else (.ok hash, n.execute req)
  | .unseen e =>
    if (n.advanced req.invoiceContractId).isSome then (.error alreadyFunded, n)
    else (.error e, n.execute req)
  | .pending e =>
    if (n.advanced req.invoiceContractId).isSome then (.error alreadyFunded, n)
    else (.error e, { n with inFlight := n.inFlight ++ [req] })

/-- What happens to the transactions in flight. -/
def environ (o : NetworkEvent) (n : Network) : Network :=
  match o with
  | .land i =>
    match n.inFlight[i]? with
    | some req => { n.execute req with inFlight := n.inFlight.eraseIdx i }
    | none => n
  | .drop i => { n with inFlight := n.inFlight.eraseIdx i }

variable {n : Network} {req req' : FundRequest}

/-- A funding that has been executed is not undone by another one. -/
theorem advanced_execute {i : Int} (h : n.advanced i = some req) :
    (n.execute req').advanced i = some req := by
  unfold execute
  split
  · exact h
  · next hnone =>
    have hne : i ≠ req'.invoiceContractId := by
      rintro rfl
      exact hnone (by rw [h]; rfl)
    exact (Function.update_of_ne hne _ _).trans h

/-- A submission is reported as successful only if it was the first one of its invoice. -/
theorem submit_eq_ok {c : Submission} {hash : String} (h : (n.submit c req).1 = .ok hash) :
    n.advanced req.invoiceContractId = none ∧
      (n.submit c req).2.advanced req.invoiceContractId = some req := by
  cases c with
  | refused e => cases h
  | executed hash' =>
    unfold submit at h ⊢
    dsimp only at h ⊢
    split at h
    · cases h
    · next hnone =>
      rw [if_neg hnone]
      refine ⟨Option.not_isSome_iff_eq_none.1 hnone, ?_⟩
      rw [execute, if_neg hnone]
      exact Function.update_self ..
  | unseen e =>
    unfold submit at h
    dsimp only at h
    split at h <;> cases h
  | pending e =>
    unfold submit at h
    dsimp only at h
    split at h <;> cases h

/-- A submission of an invoice that has been funded fails and does nothing. -/
theorem submit_of_advanced (req : FundRequest) (c : Submission)
    (h : n.advanced req.invoiceContractId = some req') :
    ∃ e, n.submit c req = (.error e, n) := by
  have hsome : (n.advanced req.invoiceContractId).isSome := by rw [h]; rfl
  cases c with
  | refused e => exact ⟨e, rfl⟩
  | executed hash => exact ⟨alreadyFunded, if_pos hsome⟩
  | unseen e => exact ⟨alreadyFunded, if_pos hsome⟩
  | pending e => exact ⟨alreadyFunded, if_pos hsome⟩

/-- A submission keeps the fundings that have been executed. -/
theorem advanced_submit {c : Submission} {i : Int} (h : n.advanced i = some req') :
    (n.submit c req).2.advanced i = some req' := by
  cases c with
  | refused e => exact h
  | executed hash =>
    unfold submit
    dsimp only
    split
    · exact h
    · exact advanced_execute h
  | unseen e =>
    unfold submit
    dsimp only
    split
    · exact h
    · exact advanced_execute h
  | pending e =>
    unfold submit
    dsimp only
    split <;> exact h

/-- What happens in flight keeps the fundings that have been executed. -/
theorem advanced_environ {o : NetworkEvent} {i : Int} (h : n.advanced i = some req) :
    (n.environ o).advanced i = some req := by
  cases o with
  | drop j => exact h
  | land j =>
    unfold environ
    dsimp only
    split
    · exact advanced_execute h
    · exact h

end Network

/-- The network as the chain that the funding service submits to. -/
def network : PoolChain Network Submission NetworkEvent where
  submit c req n := n.submit c req
  environ o n := n.environ o
  confirmed n req := n.advanced req.invoiceContractId = some req
  confirmed_of_ok h := by
    obtain ⟨hnone, hsome⟩ := Network.submit_eq_ok h
    refine ⟨hsome, fun req' hreq' hid => ?_⟩
    rw [hid, hnone] at hreq'
    cases hreq'
  confirmed_submit h := Network.advanced_submit h
  confirmed_environ h := Network.advanced_environ h

/-- What has taken effect for an invoice is what the contract has executed. -/
theorem network_confirmed {n : Network} {req req' : FundRequest}
    (h : network.confirmed n req') (hreq : n.advanced req'.invoiceContractId = some req) :
    req' = req :=
  Option.some.inj (h.symm.trans hreq)

/-! ## The opening store -/

/-- The store before any call, with nothing funded on the chain. -/
def Store.opening (db : Db) : Store Network where
  db := db
  chain := ⟨fun _ => none, []⟩
  txs _ := .idle
  fundedBy _ := none
  settledBy _ := none

/-- An invoice as the listener mirrors it: `PENDING`, with no investor and no funder. -/
def mirroredInvoice (id onchainId faceValue : Int) (farmer buyerId : String) (createdAt : Nat) :
    Invoice where
  id := id
  onchainId := onchainId
  status := .pending
  faceValue := faceValue
  farmer := farmer
  buyerId := buyerId
  investor := none
  funder := none
  discountPercentage := none
  settledLedger := none
  settledAt := none
  fundedAmount := none
  fundedAt := none
  fundedTxHash := none
  repaidAmount := none
  assetCode := none
  createdAt := createdAt
  updatedAt := createdAt

/-- A database that holds one such invoice, with the given subscriptions. -/
def oneInvoice (subscriptions : List WebhookSubscription) : Db where
  invoices := ⟨[mirroredInvoice 1 7 1000 "farmer" "buyer" 0], List.nodup_singleton _,
    List.nodup_singleton _⟩
  events := []
  subscriptions := subscriptions
  deliveries := []
  syncCursor := none

/-- A database that holds one invoice that has been funded, with the given subscriptions. -/
def oneFunded (subscriptions : List WebhookSubscription) : Db where
  invoices := ⟨[{ mirroredInvoice 1 7 1000 "farmer" "buyer" 0 with status := .funded }],
    List.nodup_singleton _, List.nodup_singleton _⟩
  events := []
  subscriptions := subscriptions
  deliveries := []
  syncCursor := none

/-- The buyer funds an invoice of `oneInvoice` with `amount` from the wallet `investor`. -/
def buyerFunds (amount : Int) : FundCall where
  userId := "buyer"
  investorWallet := "investor"
  dto := ⟨1, amount, 5⟩
  atGuard := none
  atPremium := none

/-- A statement that succeeds, and a submission that is executed and reported. -/
def smooth : Choice Submission := ⟨.none, 0, .executed "hash"⟩

/-- A statement that fails before it has any effect. -/
def failing : Choice Submission := ⟨.failed, 0, .executed "hash"⟩

end Backend

end InvoiceFi
