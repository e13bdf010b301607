import InvoiceFi.Backend.EventParser
import InvoiceFi.Backend.Errors
import InvoiceFi.Lib.Numeric
import Mathlib.Data.List.Nodup

/-!
# The database of the backend (`prisma/schema.prisma`)

The tables that the funding, settlement and webhook services read and write, and the statements
they are read and written with. `InvoiceTable` carries the two keys of the invoice table as fields,
and an update keeps them, so that a row is found by its keys in every state.

A time is the number of milliseconds since the epoch, a `BigInt` is an `Int`, and a `number` that
may be fractional is a rational. The one column of a decimal, `discountPercentage`, rounds what is
written to it and refuses what is out of its range (`discountColumn`). The columns `buyerId`,
`fundedAt` and `fundedTxHash` are read and written by the funding service and missing in the schema
file; the rows here have them.
-/

namespace InvoiceFi

namespace Backend

/-! ## Times -/

/-- `text.padStart(n, '0')`. -/
def padStart (n : Nat) (text : String) : String :=
  String.ofList (List.replicate (n - text.length) '0') ++ text

/-- The year, the month and the day of a number of days since the epoch. The years are counted from
March, so that the leap day is the last day of one. -/
def calendarDate (days : Nat) : Nat × Nat × Nat :=
  let day := days + 719468
  let dayOfEra := day % 146097
  let yearOfEra := (dayOfEra - dayOfEra / 1460 + dayOfEra / 36524 - dayOfEra / 146096) / 365
  let dayOfYear := dayOfEra - (365 * yearOfEra + yearOfEra / 4 - yearOfEra / 100)
  let monthFromMarch := (5 * dayOfYear + 2) / 153
  let year := day / 146097 * 400 + yearOfEra
  (if monthFromMarch < 10 then year else year + 1,
    if monthFromMarch < 10 then monthFromMarch + 3 else monthFromMarch - 9,
    dayOfYear - (153 * monthFromMarch + 2) / 5 + 1)

/-- `date.toISOString()`. -/
def toISOString (date : Nat) : String :=
  let (year, month, day) := calendarDate (date / 86400000)
  let time := date % 86400000
  (if year < 10000 then padStart 4 (toString year) else "+" ++ padStart 6 (toString year)) ++
    "-" ++ padStart 2 (toString month) ++ "-" ++ padStart 2 (toString day) ++
    "T" ++ padStart 2 (toString (time / 3600000)) ++
    ":" ++ padStart 2 (toString (time / 60000 % 60)) ++
    ":" ++ padStart 2 (toString (time / 1000 % 60)) ++
    "." ++ padStart 3 (toString (time % 1000)) ++ "Z"

example : toISOString 1709251199999 = "2024-02-29T23:59:59.999Z" := by decide +kernel

/-! ## Rows -/

/-- The model `Invoice`. -/
structure Invoice where
  id : Int
  onchainId : Int
  status : InvoiceStatus
  faceValue : Int
  farmer : String
  buyerId : String
  investor : Option String
  funder : Option String
  discountPercentage : Option ℚ
  settledLedger : Option Nat
  settledAt : Option Nat
  fundedAmount : Option Int
  fundedAt : Option Nat
  fundedTxHash : Option String
  repaidAmount : Option Int
  assetCode : Option String
  createdAt : Nat
  updatedAt : Nat
  deriving DecidableEq

/-- The model `InvoiceEvent`. -/
structure InvoiceEvent where
  invoiceOnchainId : Int
  previousStatus : Option InvoiceStatus
  newStatus : InvoiceStatus
  actorId : String
  txHash : Option String
  occurredAt : Nat
  deriving DecidableEq

/-- The model `WebhookSubscription`. -/
structure WebhookSubscription where
  id : String
  eventTypes : List String
  active : Bool
  deriving DecidableEq

/-- The payload of a webhook, the interface `InvoiceEvent` of `webhooks/webhook-event.types.ts`,
with the one extra field that its only sender sets. -/
structure WebhookEvent where
  invoiceId : String
  event : String
  timestamp : Nat
  ledger : Nat
  deriving DecidableEq

/-- The model `WebhookDelivery`, as it is enqueued. -/
structure WebhookDelivery where
  subscriptionId : String
  eventType : String
  idempotencyKey : String
  payload : WebhookEvent
  deriving DecidableEq

/-! ## The invoice table -/

/-- Looking a row up by a unique key. -/
theorem find?_key_eq_some {α κ : Type} [DecidableEq κ] {key : α → κ} {l : List α}
    (hnodup : (l.map key).Nodup) {k : κ} {a : α} :
    (l.find? fun x => decide (key x = k)) = some a ↔ a ∈ l ∧ key a = k := by
  constructor
  · intro h
    exact ⟨List.mem_of_find?_eq_some h, by simpa using List.find?_some h⟩
  · rintro ⟨hmem, rfl⟩
    cases hf : l.find? fun x => decide (key x = key a) with
    | none => exact absurd (decide_eq_true rfl) (List.find?_eq_none.1 hf a hmem)
    | some b =>
      have hkey : key b = key a := by simpa using List.find?_some hf
      rw [List.inj_on_of_nodup_map hnodup (List.mem_of_find?_eq_some hf) hmem hkey]

/-- The table of invoices, with its two unique columns. -/
structure InvoiceTable where
  rows : List Invoice
  ids : (rows.map Invoice.id).Nodup
  onchainIds : (rows.map Invoice.onchainId).Nodup

/-- A change of an invoice that keeps its keys. -/
structure InvoiceChange where
  apply : Invoice → Invoice
  id : ∀ r, (apply r).id = r.id
  onchainId : ∀ r, (apply r).onchainId = r.onchainId

namespace InvoiceTable

/-- `findUnique({ where: { id } })`. -/
def findId (t : InvoiceTable) (id : Int) : Option Invoice :=
  t.rows.find? fun r => decide (r.id = id)

/-- `findUnique({ where: { onchainId } })`. -/
def findOnchain (t : InvoiceTable) (onchainId : Int) : Option Invoice :=
  t.rows.find? fun r => decide (r.onchainId = onchainId)

/-- `updateMany`: the change of the rows that match. -/
def updateMany (t : InvoiceTable) (p : Invoice → Bool) (f : InvoiceChange) : InvoiceTable where
  rows := t.rows.map fun r => if p r then f.apply r else r
  ids := by
    rw [List.map_map]
    have hkey : (Invoice.id ∘ fun r => if p r then f.apply r else r) = Invoice.id := by
      funext r
      by_cases h : p r <;> simp [h, f.id]
    rw [hkey]
    exact t.ids
  onchainIds := by
    rw [List.map_map]
    have hkey : (Invoice.onchainId ∘ fun r => if p r then f.apply r else r) =
        Invoice.onchainId := by
      funext r
      by_cases h : p r <;> simp [h, f.onchainId]
    rw [hkey]
    exact t.onchainIds

variable {t : InvoiceTable} {r r' : Invoice}

/-- A row is determined by its id. -/
theorem eq_of_id (h : r ∈ t.rows) (h' : r' ∈ t.rows) (hid : r.id = r'.id) : r = r' :=
  List.inj_on_of_nodup_map t.ids h h' hid

/-- A row is determined by its on-chain id. -/
theorem eq_of_onchainId (h : r ∈ t.rows) (h' : r' ∈ t.rows) (hid : r.onchainId = r'.onchainId) :
    r = r' :=
  List.inj_on_of_nodup_map t.onchainIds h h' hid

theorem findId_eq_some {id : Int} : t.findId id = some r ↔ r ∈ t.rows ∧ r.id = id :=
  find?_key_eq_some t.ids

theorem findOnchain_eq_some {onchainId : Int} :
    t.findOnchain onchainId = some r ↔ r ∈ t.rows ∧ r.onchainId = onchainId :=
  find?_key_eq_some t.onchainIds

/-- The rows after an update: the changed ones and the others. -/
theorem mem_updateMany {p : Invoice → Bool} {f : InvoiceChange} :
    r ∈ (t.updateMany p f).rows ↔ ∃ r₀ ∈ t.rows, r = if p r₀ then f.apply r₀ else r₀ := by
  simp only [updateMany, List.mem_map, eq_comm]

end InvoiceTable

/-! ## The tables and the statements -/

/-- The tables. The invoice events are in the order of their `sequence` column. -/
structure Db where
  invoices : InvoiceTable
  events : List InvoiceEvent
  subscriptions : List WebhookSubscription
  deliveries : List WebhookDelivery
  syncCursor : Option Nat

/-- A decimal number, the only kind of id that the callers of the settlement service pass on. -/
structure DecimalId where
  text : String
  digits : isPositiveIntString text = true

/-- `BigInt(text)`, for a text of digits. -/
def decimalValue (text : String) : Int :=
  (text.toList.foldl (fun n c => 10 * n + (c.toNat - '0'.toNat)) 0 : Nat)

/-- `BigInt(invoiceId)`. -/
def DecimalId.onchainId (i : DecimalId) : Int := decimalValue i.text

/-- `appendInvoiceEvent` (`invoices/invoice-event.service.ts`). -/
def appendInvoiceEvent (db : Db) (e : InvoiceEvent) : Db := { db with events := db.events ++ [e] }

/-- What the funding service stores about a funded invoice. -/
structure FundingWrite where
  id : Int
  onchainId : Int
  userId : String
  investorWallet : String
  amount : Int
  discount : ℚ
  txHash : String
  deriving DecidableEq

/-- What the column `discountPercentage Decimal? @db.Decimal(5, 2)` holds of a discount, if it takes
it. -/
def discountColumn (discount : ℚ) : Option ℚ := numeric 5 2 discount

/-- The discount of the funding is in the range of its column. -/
def FundingWrite.Fits (w : FundingWrite) : Prop := discountColumn w.discount ≠ none

instance (w : FundingWrite) : Decidable w.Fits := inferInstanceAs (Decidable (_ ≠ _))

/-- The change of a funded invoice. -/
def FundingWrite.change (w : FundingWrite) (now : Nat) : InvoiceChange where
  apply r := { r with
    status := .funded
    funder := some w.investorWallet
    fundedAmount := some w.amount
    discountPercentage := discountColumn w.discount
    fundedAt := some now
    fundedTxHash := some w.txHash
    updatedAt := now }
  id _ := rfl
  onchainId _ := rfl

/-- The transaction of `fundInvoice`: the update of the invoice and its event. -/
def recordFunding (w : FundingWrite) (now : Nat) (db : Db) : Except Error (Invoice × Db) :=
  match db.invoices.findId w.id with
  | none => .error (.database "Record to update not found.")
  | some r =>
    if ¬ w.Fits then .error (.database "numeric field overflow")
    else
      let invoices := db.invoices.updateMany (fun r => decide (r.id = w.id)) (w.change now)
      let db := { db with invoices := invoices }
      .ok ((w.change now).apply r, appendInvoiceEvent db
        { invoiceOnchainId := w.onchainId
          previousStatus := some .pending
          newStatus := .funded
          actorId := w.userId
          txHash := some w.txHash
          occurredAt := now })

/-- `SettlementResult`. -/
inductive SettlementResult where
  | settled
  | alreadyRepaid
  deriving DecidableEq, Repr

/-- What the settlement service stores about a settled invoice. -/
structure SettlementWrite where
  invoiceId : DecimalId
  ledger : Nat
  txHash : Option String

/-- The change of a settled invoice. -/
def SettlementWrite.change (w : SettlementWrite) (now : Nat) : InvoiceChange where
  apply r := { r with
    status := .repaid
    settledLedger := some w.ledger
    settledAt := some now
    updatedAt := now }
  id _ := rfl
  onchainId _ := rfl

/-- The rows that the conditional update of `settleInvoiceWithTx` matches. -/
def SettlementWrite.matches (w : SettlementWrite) (r : Invoice) : Bool :=
  decide (r.onchainId = w.invoiceId.onchainId ∧ r.status = .funded)

/-- The inner transaction of `settleInvoiceWithTx`: the conditional update and the event, or the
reason why no row moved. -/
def settlement (w : SettlementWrite) (now : Nat) (db : Db) : Except Error (SettlementResult × Db) :=
  let count := (db.invoices.rows.filter w.matches).length
  if 0 < count then
    let db := { db with invoices := db.invoices.updateMany w.matches (w.change now) }
    .ok (.settled, appendInvoiceEvent db
      { invoiceOnchainId := w.invoiceId.onchainId
        previousStatus := some .funded
        newStatus := .repaid
        actorId := "settlement-sync-service"
        txHash := w.txHash
        occurredAt := now })
  else
    match db.invoices.findOnchain w.invoiceId.onchainId with
    | none => .error (.invoiceNotFound w.invoiceId.text)
    | some existing =>
      if existing.status = .repaid then .ok (.alreadyRepaid, db)
      else .error (.unexpectedInvoiceStatus w.invoiceId.text existing.status)

/-- `webhookDelivery.create`: the subscription must exist, and a delivery with the same key for it
must not. -/
def createDelivery (d : WebhookDelivery) (db : Db) : Except Error (Unit × Db) :=
  if d.subscriptionId ∉ db.subscriptions.map WebhookSubscription.id then
    .error (.database "Foreign key constraint failed")
  else if ∃ d' ∈ db.deliveries,
      d'.subscriptionId = d.subscriptionId ∧ d'.idempotencyKey = d.idempotencyKey then
    .error .uniqueViolation
  else .ok ((), { db with deliveries := db.deliveries ++ [d] })

/-! ## What the transactions do -/

/-- The transaction of a funding whose discount fits its column moves the invoice of its id to
`FUNDED` and appends its event. -/
theorem recordFunding_eq_ok (w : FundingWrite) (now : Nat) {db db' : Db} {r' : Invoice} :
    recordFunding w now db = .ok (r', db') ↔
      w.Fits ∧ ∃ r ∈ db.invoices.rows, r.id = w.id ∧ r' = (w.change now).apply r ∧
        db' = { db with
          invoices := db.invoices.updateMany (fun r => decide (r.id = w.id)) (w.change now)
          events := db.events ++
            [⟨w.onchainId, some .pending, .funded, w.userId, some w.txHash, now⟩] } := by
  rw [recordFunding]
  constructor
  · intro h
    split at h
    · cases h
    · next r hr =>
      obtain ⟨hmem, hid⟩ := InvoiceTable.findId_eq_some.1 hr
      split at h
      · cases h
      · next hfits =>
        cases h
        exact ⟨not_not.1 hfits, r, hmem, hid, rfl, rfl⟩
  · rintro ⟨hfits, r, hmem, hid, rfl, rfl⟩
    rw [InvoiceTable.findId_eq_some.2 ⟨hmem, hid⟩]
    exact if_neg (not_not.2 hfits)

/-- The transaction of a funding whose discount is out of the range of its column fails. -/
theorem recordFunding_overflow {w : FundingWrite} (now : Nat) {db : Db} {r : Invoice}
    (hr : r ∈ db.invoices.rows) (hid : r.id = w.id) (hfits : ¬ w.Fits) :
    recordFunding w now db = .error (.database "numeric field overflow") := by
  rw [recordFunding, InvoiceTable.findId_eq_some.2 ⟨hr, hid⟩]
  exact if_pos hfits

/-- The inner transaction of a settlement either moves the invoice, which was `FUNDED`, to `REPAID`
and appends its event, or finds it `REPAID` and changes nothing. -/
theorem settlement_eq_ok {w : SettlementWrite} {now : Nat} {db db' : Db} {x : SettlementResult}
    (h : settlement w now db = .ok (x, db')) :
    (x = .settled ∧ (∃ r ∈ db.invoices.rows, r.onchainId = w.invoiceId.onchainId ∧
        r.status = .funded) ∧
      db' = { db with
        invoices := db.invoices.updateMany w.matches (w.change now)
        events := db.events ++ [⟨w.invoiceId.onchainId, some .funded, .repaid,
          "settlement-sync-service", w.txHash, now⟩] }) ∨
    (x = .alreadyRepaid ∧ db' = db ∧ ∃ r ∈ db.invoices.rows,
      r.onchainId = w.invoiceId.onchainId ∧ r.status = .repaid) := by
  rw [settlement] at h
  dsimp only at h
  split at h
  · next hcount =>
    cases h
    obtain ⟨r, hr⟩ := List.exists_mem_of_length_pos hcount
    obtain ⟨hmem, hmatch⟩ := List.mem_filter.1 hr
    exact .inl ⟨rfl, ⟨r, hmem, of_decide_eq_true hmatch⟩, rfl⟩
  · split at h
    · cases h
    · next existing hex =>
      obtain ⟨hmem, hid⟩ := InvoiceTable.findOnchain_eq_some.1 hex
      split at h
      · next hst =>
        cases h
        exact .inr ⟨rfl, rfl, existing, hmem, hid, hst⟩
      · cases h

/-- A settlement of an invoice that is `FUNDED` moves it. -/
theorem settlement_of_funded {w : SettlementWrite} (now : Nat) {db : Db} {r : Invoice}
    (hr : r ∈ db.invoices.rows) (hid : r.onchainId = w.invoiceId.onchainId)
    (hst : r.status = .funded) : ∃ db', settlement w now db = .ok (.settled, db') := by
  have hmem : r ∈ db.invoices.rows.filter w.matches :=
    List.mem_filter.2 ⟨hr, decide_eq_true ⟨hid, hst⟩⟩
  rw [settlement, if_pos (List.length_pos_of_mem hmem)]
  exact ⟨_, rfl⟩

/-- A delivery that is enqueued is added to the deliveries. -/
theorem createDelivery_eq_ok {d : WebhookDelivery} {db db' : Db} {u : Unit} :
    createDelivery d db = .ok (u, db') ↔
      d.subscriptionId ∈ db.subscriptions.map WebhookSubscription.id ∧
      (∀ d' ∈ db.deliveries,
        ¬ (d'.subscriptionId = d.subscriptionId ∧ d'.idempotencyKey = d.idempotencyKey)) ∧
      db' = { db with deliveries := db.deliveries ++ [d] } := by
  rw [createDelivery]
  split
  · next h => simp [h]
  · next h =>
    rw [not_not] at h
    split
    · next hd =>
      obtain ⟨d', hd', heq⟩ := hd
      constructor
      · intro h
        cases h
      · rintro ⟨-, hno, -⟩
        exact absurd heq (hno d' hd')
    · next hd =>
      constructor
      · intro h'
        cases h'
        exact ⟨h, fun d' hd' heq => hd ⟨d', hd', heq⟩, rfl⟩
      · rintro ⟨-, -, rfl⟩
        rfl

end Backend

end InvoiceFi
