import InvoiceFi.Backend.Database
import InvoiceFi.Backend.Runtime
import InvoiceFi.Lib.Async
import InvoiceFi.Lib.Fallible
import Mathlib.Algebra.Order.Ring.Unbundled.Rat
import Mathlib.Logic.Function.Basic

/-!
# Funding, settlement and webhook dispatch

The services that move an invoice, as programs over the actions they await (`Act`): `fundInvoice`
of `financing-pool/financing-pool.service.ts`, `settleInvoice` and `settleInvoiceWithTx` of
`settlement/settlement.service.ts`, and `dispatchInvoiceEvent` of
`webhooks/webhook-dispatch.service.ts`. `perform` says what an action does to the database, to the
transaction its caller has opened and to the chain.

`backend` is the service whose calls run in parallel. Its store remembers, for each invoice, the
call that the chain answered with success and the call whose transaction settled it; no program
reads them.
-/

namespace InvoiceFi

namespace Backend

/-! ## The chain -/

/-- The arguments of `SorobanService.fundInvoice`. -/
structure FundRequest where
  invoiceContractId : Int
  investorWallet : String
  amount : Int
  deriving DecidableEq

/-- A chain that the funding service submits to: `κ` what it may do with a submission, `O` what may
happen to it by itself. `confirmed` tells the requests that have taken effect on it; a request is
answered with success only if it has just taken effect, as the first one of its invoice. -/
structure PoolChain (τ κ O : Type) where
  submit : κ → FundRequest → τ → Except Error String × τ
  environ : O → τ → τ
  confirmed : τ → FundRequest → Prop
  confirmed_of_ok : ∀ {c req t hash}, (submit c req t).1 = .ok hash →
    confirmed (submit c req t).2 req ∧
    ∀ req', confirmed t req' → req'.invoiceContractId ≠ req.invoiceContractId
  confirmed_submit : ∀ {c req t req'}, confirmed t req' → confirmed (submit c req t).2 req'
  confirmed_environ : ∀ {o t req}, confirmed t req → confirmed (environ o t) req

/-- A funding of the invoice has taken effect on the chain. -/
def PoolChain.Spent {τ κ O : Type} (chain : PoolChain τ κ O) (t : τ) (i : Int) : Prop :=
  ∃ req, chain.confirmed t req ∧ req.invoiceContractId = i

/-- The request that a stored funding was made with. -/
def FundingWrite.request (w : FundingWrite) : FundRequest :=
  ⟨w.onchainId, w.investorWallet, w.amount⟩

/-! ## Actions -/

/-- A write on a transaction client: the cursor, or a table that is not modelled. -/
inductive TxWrite where
  | setLastLedger (ledger : Nat)
  | other
  deriving DecidableEq

/-- The actions the services await: the statements and transactions of the database, the submission
to the chain and the reading of the clock. -/
inductive Act where
  | findInvoice (id : Int)
  | fundOnChain (req : FundRequest)
  | recordFunding (w : FundingWrite)
  | begin
  | onTx (w : TxWrite)
  | commit
  | rollback
  | settle (w : SettlementWrite)
  | now
  | findSubscriptions
  | createDelivery (d : WebhookDelivery)

/-- The answers of the actions. -/
abbrev Act.Answer : Act → Type
  | .findInvoice _ => Option Invoice
  | .fundOnChain _ => String
  | .recordFunding _ => Invoice
  | .begin | .onTx _ | .commit | .rollback | .createDelivery _ => Unit
  | .settle _ => SettlementResult
  | .now => Nat
  | .findSubscriptions => List WebhookSubscription

/-- What the outside decides when it answers an action. -/
structure Choice (κ : Type) where
  fault : Fault
  clock : Nat
  chain : κ

/-- The transaction a call has opened: what it has written to the cursor, and how it ended. -/
inductive Tx where
  | idle
  | open (lastLedger : Option Nat)
  | committed
  | rolledBack
  deriving DecidableEq

/-- The database, the chain, the transaction of each call, and, for each invoice, the call whose
funding the chain answered with success and the call whose transaction settled it. -/
structure Store (τ : Type) where
  db : Db
  chain : τ
  txs : Nat → Tx
  fundedBy : Int → Option Nat
  settledBy : Int → Option Nat

/-- A statement on the database alone. -/
def Store.onDb {τ α : Type} (body : Db → Except Error (α × Db)) (s : Store τ) :
    Except Error (α × Store τ) :=
  (body s.db).map fun (a, db) => (a, { s with db := db })

/-- The inner transaction of a settlement, by the call `k`. -/
def Store.settle {τ : Type} (k : Nat) (w : SettlementWrite) (now : Nat) (s : Store τ) :
    Except Error (SettlementResult × Store τ) :=
  (settlement w now s.db).map fun (x, db) =>
    (x, { s with
      db := db
      settledBy := if x = .settled then
        Function.update s.settledBy w.invoiceId.onchainId (some k) else s.settledBy })

/-- The writes of a transaction on the database. -/
def Tx.apply : Tx → Db → Db
  | .open (some ledger), db => { db with syncCursor := some ledger }
  | _, db => db

/-- A write in an open transaction. -/
def Tx.write : TxWrite → Tx → Tx
  | .setLastLedger ledger, .open _ => .open (some ledger)
  | _, tx => tx

/-- What an action of the call `k` answers and does. -/
def perform {τ κ O : Type} (chain : PoolChain τ κ O) (k : Nat) :
    (a : Act) → Choice κ → Store τ → Except Error a.Answer × Store τ
  | .findInvoice id, c, s => (read c.fault (s.db.invoices.findId id), s)
  | .fundOnChain req, c, s =>
    let t := (chain.submit c.chain req s.chain).2
    match (chain.submit c.chain req s.chain).1 with
    | .ok hash =>
      (.ok hash, { s with
        chain := t
        fundedBy := Function.update s.fundedBy req.invoiceContractId (some k) })
    | .error e => (.error e, { s with chain := t })
  | .recordFunding w, c, s => transact c.fault (Store.onDb (recordFunding w c.clock)) s
  | .begin, c, s =>
    if c.fault = .none then (.ok (), { s with txs := Function.update s.txs k (.open none) })
    else (.error connectionLost, s)
  | .onTx w, c, s =>
    if c.fault = .none then
      (.ok (), { s with txs := Function.update s.txs k ((s.txs k).write w) })
    else (.error connectionLost, s)
  | .commit, c, s =>
    if c.fault = .failed then
      (.error connectionLost, { s with txs := Function.update s.txs k .rolledBack })
    else
      (read c.fault (), { s with
        db := (s.txs k).apply s.db
        txs := Function.update s.txs k .committed })
  | .rollback, _, s => (.ok (), { s with txs := Function.update s.txs k .rolledBack })
  | .settle w, c, s => transact c.fault (Store.settle k w c.clock) s
  | .now, c, s => (.ok c.clock, s)
  | .findSubscriptions, c, s =>
    (read c.fault (s.db.subscriptions.filter WebhookSubscription.active), s)
  | .createDelivery d, c, s => transact c.fault (Store.onDb (createDelivery d)) s

/-! ## Programs -/

/-- A program of the backend. -/
abbrev Task (α : Type) := Async Act Act.Answer Error α

/-- Awaiting an action. -/
def act (a : Act) : Task a.Answer := Async.perform a

/-- The rest of a transaction that is open: its body, then the commit, or the rollback if the body
throws. -/
def inTransaction {α : Type} (body : Task α) : Task α := do
  let a ← tryCatch body fun e => do
    act .rollback
    throw e
  act .commit
  pure a

/-- `prisma.$transaction(body)`. -/
def transaction {α : Type} (body : Task α) : Task α := do
  act .begin
  inTransaction body

/-! ### Webhooks -/

/-- `buildIdempotencyKey`. -/
def buildIdempotencyKey (sha : Sha256) (e : WebhookEvent) : String :=
  sha.digest (e.invoiceId ++ ":" ++ e.event ++ ":" ++ toISOString e.timestamp)

/-- A subscription that is interested in an event. -/
def WebhookSubscription.interested (event : String) (w : WebhookSubscription) : Bool :=
  w.eventTypes.contains "*" || w.eventTypes.contains event

/-- The loop over the interested subscriptions. A delivery that exists already is skipped, any other
error is logged, and the loop goes on in both cases. -/
def enqueueAll (e : WebhookEvent) (idempotencyKey : String) :
    List WebhookSubscription → Nat → Task Nat
  | [], enqueued => pure enqueued
  | subscription :: rest, enqueued => do
    let enqueued ← tryCatch
      (do
        act (.createDelivery ⟨subscription.id, e.event, idempotencyKey, e⟩)
        pure (enqueued + 1))
      fun _ => pure enqueued
    enqueueAll e idempotencyKey rest enqueued

/-- `dispatchInvoiceEvent`. -/
def dispatchInvoiceEvent (sha : Sha256) (e : WebhookEvent) : Task Nat := do
  let subscriptions ← act .findSubscriptions
  enqueueAll e (buildIdempotencyKey sha e)
    (subscriptions.filter (WebhookSubscription.interested e.event)) 0

/-! ### Settlement -/

/-- What `settleInvoiceWithTx` does after its own transaction: it announces a fresh settlement. -/
def announce (sha : Sha256) (invoiceId : DecimalId) (ledger : Nat) (result : SettlementResult) :
    Task SettlementResult :=
  match result with
  | .settled => do
    let timestamp ← act .now
    let _ ← dispatchInvoiceEvent sha ⟨invoiceId.text, "repaid", timestamp, ledger⟩
    pure .settled
  | .alreadyRepaid => pure .alreadyRepaid

/-- `settleInvoiceWithTx`. The client it is given is not used: it opens a transaction of its own. -/
def settleInvoiceWithTx (sha : Sha256) (invoiceId : DecimalId) (ledger : Nat)
    (txHash : Option String) : Task SettlementResult := do
  let result ← act (.settle ⟨invoiceId, ledger, txHash⟩)
  announce sha invoiceId ledger result

/-- `settleInvoice`. -/
def settleInvoice (sha : Sha256) (invoiceId : DecimalId) (ledger : Nat)
    (txHash : Option String) : Task SettlementResult :=
  transaction (settleInvoiceWithTx sha invoiceId ledger txHash)

/-! ### Funding -/

/-- `FundInvoiceDto`, with its id as the number that the service reads from it. -/
structure FundInvoiceDto where
  invoiceId : Int
  amount : ℚ
  discountRate : ℚ
  deriving DecidableEq

/-- `FallbackMode` of an active fallback. -/
inductive FallbackMode where
  | lastKnownGood
  | halt
  | other
  deriving DecidableEq, Repr

/-- `FallbackState` of `oracle-monitor/fallback-strategy.service.ts`, with the cap of its
configuration. -/
structure FallbackState where
  mode : FallbackMode
  riskPremiumBps : ℚ
  maxRiskPremiumBps : ℚ
  deriving DecidableEq

/-- The arguments of a funding call, and the fallback that is active when the call reads it, first
at the guard and then before the chain is called. -/
structure FundCall where
  userId : String
  investorWallet : String
  dto : FundInvoiceDto
  atGuard : Option FallbackState
  atPremium : Option FallbackState
  deriving DecidableEq

/-- `FundResponseDto`. -/
structure FundResponse where
  success : Bool
  invoiceId : String
  txHash : String
  message : String
  fundedAt : Option Nat
  deriving DecidableEq

/-- `shouldBlockFunding`, and the exception of a blocked funding. -/
def guardHalt (call : FundCall) : Except Error Unit :=
  rejectIf (call.atGuard.map FallbackState.mode = some .halt) <| .http 503
    ("New fundings are temporarily halted due to oracle data staleness. " ++
      "Please retry after oracle feeds recover.")

/-- `BigInt(amount)`. -/
def bigInt (amount : ℚ) : Except Error Int :=
  if amount.den = 1 then .ok amount.num
  else .error (.range "The number cannot be converted to a BigInt because it is not an integer")

/-- The checks of steps 2 to 5. Step 4 repeats step 2, since no status is `verified`. -/
def checkFundable (call : FundCall) (invoice : Invoice) : Except Error Int := do
  rejectIf (invoice.status ≠ .pending)
    (.contract .duplicateFunding "Invoice has already been funded")
  rejectIf (invoice.buyerId ≠ call.userId) (.http 403 "Only the buyer can fund this invoice")
  rejectIf (invoice.status ≠ .pending) (.http 400 "Invoice must be verified before funding")
  let amount ← bigInt call.dto.amount
  rejectIf (invoice.faceValue < amount)
    (.contract .insufficientFunds "Funding amount exceeds invoice value")
  pure amount

/-- `calculateEffectiveDiscountBps`, applied when the last known good prices are in force. -/
def effectiveDiscountRate (call : FundCall) : ℚ :=
  match call.atPremium with
  | some st =>
    if st.mode = .lastKnownGood then
      min (call.dto.discountRate + st.riskPremiumBps) st.maxRiskPremiumBps
    else call.dto.discountRate
  | none => call.dto.discountRate

/-- The error that a failed submission is turned into. -/
def chainError (e : Error) : Error :=
  if includes e.message "revert" then .http 400 ("Contract reverted: " ++ e.message)
  else parseContractError e.message

/-- What the service stores about a funding that the chain has confirmed. -/
def fundingWrite (call : FundCall) (invoice : Invoice) (amount : Int) (txHash : String) :
    FundingWrite where
  id := invoice.id
  onchainId := invoice.onchainId
  userId := call.userId
  investorWallet := call.investorWallet
  amount := amount
  discount := effectiveDiscountRate call
  txHash := txHash

/-- Step 8 of `fundInvoice`. -/
def storeFunding (w : FundingWrite) : Task FundResponse := do
  let updatedInvoice ← act (.recordFunding w)
  pure
    { success := true
      invoiceId := toString updatedInvoice.id
      txHash := if w.txHash = "" then "unknown" else w.txHash
      message := "Invoice funded successfully"
      fundedAt := updatedInvoice.fundedAt }

/-- Steps 7 and 8 of `fundInvoice`. -/
def payInvoice (call : FundCall) (invoice : Invoice) (amount : Int) : Task FundResponse := do
  let txHash ← tryCatch
    (act (.fundOnChain ⟨invoice.onchainId, call.investorWallet, amount⟩))
    fun e => throw (chainError e)
  storeFunding (fundingWrite call invoice amount txHash)

/-- `fundInvoice`. -/
def fundInvoice (call : FundCall) : Task FundResponse := do
  Async.ofExcept (guardHalt call)
  let found ← act (.findInvoice call.dto.invoiceId)
  match found with
  | none => throw (.http 404 ("Invoice " ++ toString call.dto.invoiceId ++ " not found"))
  | some invoice =>
    let amount ← Async.ofExcept (checkFundable call invoice)
    payInvoice call invoice amount

/-! ## The service -/

/-- A call of the two services that move an invoice. -/
inductive BackendCall where
  | fund (call : FundCall)
  | settle (invoiceId : DecimalId) (ledger : Nat) (txHash : Option String)

/-- What such a call returns. -/
inductive Reply where
  | funded (response : FundResponse)
  | settlement (result : SettlementResult)
  deriving DecidableEq

/-- What happens outside the calls: to the chain, and to the webhook subscriptions. -/
inductive Environ (O : Type) where
  | chain (o : O)
  | subscribe (w : WebhookSubscription)
  | unsubscribe (id : String)

/-- Registering or changing a subscription. -/
def Db.subscribe (db : Db) (w : WebhookSubscription) : Db :=
  { db with subscriptions := db.subscriptions.filter (fun w' => decide (w'.id ≠ w.id)) ++ [w] }

/-- Deleting a subscription deletes its deliveries. -/
def Db.unsubscribe (db : Db) (id : String) : Db :=
  { db with
    subscriptions := db.subscriptions.filter fun w => decide (w.id ≠ id)
    deliveries := db.deliveries.filter fun d => decide (d.subscriptionId ≠ id) }

/-- The program of a call. -/
def BackendCall.task (sha : Sha256) : BackendCall → Task Reply
  | .fund call => do
    let response ← fundInvoice call
    pure (.funded response)
  | .settle invoiceId ledger txHash => do
    let result ← settleInvoice sha invoiceId ledger txHash
    pure (.settlement result)

/-- The backend: fundings and settlements in parallel. -/
def backend {τ κ O : Type} (sha : Sha256) (chain : PoolChain τ κ O) :
    Service (Store τ) BackendCall Act Act.Answer Error Reply (Choice κ) (Environ O) where
  main := BackendCall.task sha
  perform := perform chain
  environ o s :=
    match o with
    | .chain o => { s with chain := chain.environ o s.chain }
    | .subscribe w => { s with db := s.db.subscribe w }
    | .unsubscribe id => { s with db := s.db.unsubscribe id }

/-! ## What the statements do -/

theorem onDb_eq_ok {τ α : Type} {body : Db → Except Error (α × Db)} {s s' : Store τ} {a : α} :
    Store.onDb body s = .ok (a, s') ↔ ∃ db, body s.db = .ok (a, db) ∧ s' = { s with db := db } := by
  unfold Store.onDb
  cases body s.db with
  | error e => simp [Except.map]
  | ok p =>
    obtain ⟨b, db⟩ := p
    constructor
    · intro h
      cases h
      exact ⟨db, rfl, rfl⟩
    · rintro ⟨db', h, rfl⟩
      cases h
      rfl

/-- The inner transaction of a settlement by the call `k`: it moves the invoice and remembers the
call, or it changes nothing. -/
theorem settle_eq_ok {τ : Type} {k : Nat} {w : SettlementWrite} {now : Nat} {s s' : Store τ}
    {x : SettlementResult} (h : Store.settle k w now s = .ok (x, s')) :
    (x = .settled ∧ (∃ r ∈ s.db.invoices.rows, r.onchainId = w.invoiceId.onchainId ∧
        r.status = .funded) ∧
      s' = { s with
        db := { s.db with
          invoices := s.db.invoices.updateMany w.matches (w.change now)
          events := s.db.events ++ [⟨w.invoiceId.onchainId, some .funded, .repaid,
            "settlement-sync-service", w.txHash, now⟩] }
        settledBy := Function.update s.settledBy w.invoiceId.onchainId (some k) }) ∨
    (x = .alreadyRepaid ∧ s' = s ∧ ∃ r ∈ s.db.invoices.rows,
      r.onchainId = w.invoiceId.onchainId ∧ r.status = .repaid) := by
  unfold Store.settle at h
  cases hb : settlement w now s.db with
  | error e =>
    rw [hb] at h
    cases h
  | ok p =>
    obtain ⟨y, db⟩ := p
    rw [hb] at h
    cases h
    rcases settlement_eq_ok hb with ⟨rfl, hr, rfl⟩ | ⟨rfl, rfl, hr⟩
    · exact .inl ⟨rfl, hr, rfl⟩
    · exact .inr ⟨rfl, rfl, hr⟩

/-- After a settlement the invoice is `REPAID`, by this settlement or by an earlier one. -/
theorem settle_repaid {τ : Type} {k : Nat} {w : SettlementWrite} {now : Nat} {s s' : Store τ}
    {x : SettlementResult} (h : Store.settle k w now s = .ok (x, s')) :
    ∃ r ∈ s'.db.invoices.rows, r.onchainId = w.invoiceId.onchainId ∧ r.status = .repaid := by
  rcases settle_eq_ok h with ⟨-, ⟨r, hr, hid, hst⟩, rfl⟩ | ⟨-, rfl, hr⟩
  · refine ⟨(w.change now).apply r, InvoiceTable.mem_updateMany.2 ⟨r, hr, ?_⟩, hid, rfl⟩
    rw [if_pos (show w.matches r = true from decide_eq_true ⟨hid, hst⟩)]
  · exact hr

/-- A settlement of an invoice that is `FUNDED` moves it. -/
theorem settle_of_funded {τ : Type} (k : Nat) {w : SettlementWrite} (now : Nat) {s : Store τ}
    {r : Invoice} (hr : r ∈ s.db.invoices.rows) (hid : r.onchainId = w.invoiceId.onchainId)
    (hst : r.status = .funded) : ∃ s', Store.settle k w now s = .ok (.settled, s') := by
  obtain ⟨db', h⟩ := settlement_of_funded now hr hid hst
  unfold Store.settle
  rw [h]
  exact ⟨_, rfl⟩

/-! ## Quiet actions -/

/-- The actions that touch neither the invoices and their events nor the chain. -/
def Act.Quiet : Act → Prop
  | .fundOnChain _ | .recordFunding _ | .settle _ => False
  | _ => True

/-- Two stores with the same invoices, events, chain, and funding and settling calls. -/
structure SameInvoices {τ : Type} (s s' : Store τ) : Prop where
  invoices : s'.db.invoices = s.db.invoices
  events : s'.db.events = s.db.events
  chain : s'.chain = s.chain
  fundedBy : s'.fundedBy = s.fundedBy
  settledBy : s'.settledBy = s.settledBy

theorem SameInvoices.refl {τ : Type} (s : Store τ) : SameInvoices s s := ⟨rfl, rfl, rfl, rfl, rfl⟩

section
variable {τ κ O : Type} (chain : PoolChain τ κ O)

/-- The writes of a transaction leave the invoices alone. -/
theorem sameInvoices_apply (tx : Tx) (txs : Nat → Tx) (s : Store τ) :
    SameInvoices s { s with db := tx.apply s.db, txs := txs } := by
  unfold Tx.apply
  split <;> exact ⟨rfl, rfl, rfl, rfl, rfl⟩

/-- A quiet action leaves the invoices alone. -/
theorem perform_quiet (k : Nat) {a : Act} (ha : a.Quiet) (c : Choice κ) (s : Store τ) :
    SameInvoices s (perform chain k a c s).2 := by
  cases a with
  | fundOnChain req => cases ha
  | recordFunding w => cases ha
  | settle w => cases ha
  | findInvoice id => exact .refl s
  | findSubscriptions => exact .refl s
  | now => exact .refl s
  | rollback => exact ⟨rfl, rfl, rfl, rfl, rfl⟩
  | begin =>
    rw [perform]
    split
    · exact ⟨rfl, rfl, rfl, rfl, rfl⟩
    · exact .refl s
  | onTx w =>
    rw [perform]
    split
    · exact ⟨rfl, rfl, rfl, rfl, rfl⟩
    · exact .refl s
  | commit =>
    rw [perform]
    split
    · exact ⟨rfl, rfl, rfl, rfl, rfl⟩
    · exact sameInvoices_apply _ _ s
  | createDelivery d =>
    refine transact_invariant (.refl s) fun u s' hb => ?_
    obtain ⟨db, hdb, rfl⟩ := onDb_eq_ok.1 hb
    obtain ⟨-, -, rfl⟩ := createDelivery_eq_ok.1 hdb
    exact ⟨rfl, rfl, rfl, rfl, rfl⟩

end

/-- Only the enqueueing of a delivery touches the deliveries. -/
theorem perform_deliveries {τ κ O : Type} (chain : PoolChain τ κ O) (k : Nat) {a : Act}
    (ha : ∀ d, a ≠ .createDelivery d) (c : Choice κ) (s : Store τ) :
    (perform chain k a c s).2.db.deliveries = s.db.deliveries := by
  cases a with
  | createDelivery d => exact absurd rfl (ha d)
  | findInvoice id => rfl
  | findSubscriptions => rfl
  | now => rfl
  | rollback => rfl
  | fundOnChain req =>
    dsimp only [perform]
    split <;> rfl
  | begin =>
    rw [perform]
    split <;> rfl
  | onTx w =>
    rw [perform]
    split <;> rfl
  | commit =>
    rw [perform]
    split
    · rfl
    · dsimp only
      unfold Tx.apply
      split <;> rfl
  | recordFunding w =>
    refine transact_invariant (P := fun (s' : Store τ) => s'.db.deliveries = s.db.deliveries) rfl
      fun r s' hb => ?_
    obtain ⟨db, hdb, rfl⟩ := onDb_eq_ok.1 hb
    obtain ⟨-, r₀, -, -, -, rfl⟩ := (recordFunding_eq_ok _ _).1 hdb
    rfl
  | settle w =>
    refine transact_invariant (P := fun (s' : Store τ) => s'.db.deliveries = s.db.deliveries) rfl
      fun x s' hb => ?_
    rcases settle_eq_ok hb with ⟨-, -, rfl⟩ | ⟨-, rfl, -⟩ <;> rfl

/-- The actions on the transaction that a call has opened. -/
def Act.OnTx : Act → Prop
  | .begin | .onTx _ | .commit | .rollback => True
  | _ => False

/-- Any other action leaves the transactions alone. -/
theorem perform_txs {τ κ O : Type} (chain : PoolChain τ κ O) (k : Nat) {a : Act} (ha : ¬ a.OnTx)
    (c : Choice κ) (s : Store τ) : (perform chain k a c s).2.txs = s.txs := by
  cases a with
  | begin => exact absurd trivial ha
  | onTx w => exact absurd trivial ha
  | commit => exact absurd trivial ha
  | rollback => exact absurd trivial ha
  | findInvoice id => rfl
  | findSubscriptions => rfl
  | now => rfl
  | fundOnChain req =>
    dsimp only [perform]
    split <;> rfl
  | recordFunding w =>
    refine transact_invariant (P := fun (s' : Store τ) => s'.txs = s.txs) rfl fun r s' hb => ?_
    obtain ⟨db, -, rfl⟩ := onDb_eq_ok.1 hb
    rfl
  | createDelivery d =>
    refine transact_invariant (P := fun (s' : Store τ) => s'.txs = s.txs) rfl fun u s' hb => ?_
    obtain ⟨db, -, rfl⟩ := onDb_eq_ok.1 hb
    rfl
  | settle w =>
    refine transact_invariant (P := fun (s' : Store τ) => s'.txs = s.txs) rfl fun x s' hb => ?_
    rcases settle_eq_ok hb with ⟨-, -, rfl⟩ | ⟨-, rfl, -⟩ <;> rfl

/-- A transaction awaits only what its body awaits, and its own end. -/
theorem inTransaction_only {α : Type} {acts : Act → Prop} {results : Except Error α → Prop}
    {body : Task α} (hbody : body.Only acts results) (hcommit : acts .commit)
    (hrollback : acts .rollback) (he : ∀ e, results (.error e)) :
    (inTransaction body).Only acts results := by
  have htry : (tryCatch body fun e => do
      act .rollback
      throw e : Task α).Only acts results :=
    hbody.tryCatch (fun a ha => ha) fun e _ => ⟨hrollback, fun r => by cases r <;> exact he _⟩
  refine htry.bind (fun a ha => ⟨hcommit, fun r => ?_⟩) fun e _ => he e
  cases r with
  | error e => exact he e
  | ok u => exact ha

/-- The loop over the subscriptions only creates deliveries, and does not throw. -/
theorem enqueueAll_only (e : WebhookEvent) (key : String) (subs : List WebhookSubscription)
    (n : Nat) : (enqueueAll e key subs n).Only (fun a => ∃ d, a = .createDelivery d)
      (fun r => ∃ m, r = .ok m) := by
  induction subs generalizing n with
  | nil => exact ⟨n, rfl⟩
  | cons w subs ih =>
    refine ⟨⟨_, rfl⟩, fun r => ?_⟩
    cases r with
    | error e => exact ih n
    | ok u => exact ih (n + 1)

/-- The actions of the announcement of a settlement. -/
def Act.Announcing : Act → Prop
  | .now | .findSubscriptions | .createDelivery _ => True
  | _ => False

theorem Act.Announcing.quiet {a : Act} (ha : a.Announcing) : a.Quiet := by
  cases a <;> first | exact False.elim ha | trivial

theorem Act.Announcing.not_onTx {a : Act} (ha : a.Announcing) : ¬ a.OnTx := by
  cases a <;> first | exact False.elim ha | exact id

/-- The announcement of a settlement returns the settlement's own result. -/
theorem announce_only (sha : Sha256) (id : DecimalId) (ledger : Nat) (x : SettlementResult) :
    (announce sha id ledger x).Only Act.Announcing (fun r => ∀ y, r = .ok y → y = x) := by
  cases x with
  | alreadyRepaid =>
    intro y hy
    cases hy
    rfl
  | settled =>
    refine ⟨trivial, fun r => ?_⟩
    cases r with
    | error e =>
      intro y hy
      cases hy
    | ok timestamp =>
      refine ⟨trivial, fun r => ?_⟩
      cases r with
      | error e =>
        intro y hy
        cases hy
      | ok subs =>
        refine ((enqueueAll_only _ _ _ _).mono ?_ fun _ h => h).bind (fun m _ => ?_) ?_
        · rintro _ ⟨d, rfl⟩
          trivial
        · intro y hy
          cases hy
          rfl
        · rintro e ⟨m, hm⟩
          cases hm

end Backend

end InvoiceFi
