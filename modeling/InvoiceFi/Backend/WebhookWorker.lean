import InvoiceFi.Backend.Database
import InvoiceFi.Backend.Runtime
import InvoiceFi.Lib.Async
import InvoiceFi.Lib.Fallible
import Mathlib.Data.List.Sort

/-!
# The webhook delivery worker (`webhooks/webhook-delivery-worker.service.ts`)

The queue is a table of deliveries. A claim takes a batch of due rows in one statement, and every
row it returns is attempted by a program of its own, `attemptDelivery`, that looks the subscriber
up, makes the request, logs the attempt and finalizes the row. `handle` puts these together: rows
are enqueued, batches are claimed by any number of workers at any time, and the attempts go on in
any order, each as slowly as it likes or not at all.

Rows are never deleted, so the number of a row stands for its id. A row remembers which attempt has
claimed it last, which attempts have made a request for it and which ones have finalized it; no
program reads these.
-/

namespace InvoiceFi

namespace Backend

namespace WebhookWorker

/-! ## The retry schedule (`retry-schedule.ts`) -/

/-- `RETRY_SCHEDULE_MS`. -/
def retryScheduleMs : List Nat := [60000, 300000, 1800000, 7200000, 43200000, 86400000]

/-- `MAX_DELIVERY_ATTEMPTS`. -/
def maxDeliveryAttempts : Nat := retryScheduleMs.length + 1

/-- `nextRetryDelayMs`. -/
def nextRetryDelayMs (attemptNumber : Nat) : Except String (Option Nat) := do
  rejectIf (attemptNumber < 1)
    ("attemptNumber must be a positive integer, got " ++ toString attemptNumber)
  pure retryScheduleMs[attemptNumber - 1]?

/-- After a failed attempt there is a next one exactly if it was not the last. -/
theorem nextRetryDelayMs_eq {n : Nat} (h : 0 < n) :
    nextRetryDelayMs n = .ok retryScheduleMs[n - 1]? := by
  rw [nextRetryDelayMs, rejectIf, if_neg (by omega)]
  rfl

/-! ## Data -/

/-- `BATCH_SIZE`. -/
def batchSize : Nat := 20

/-- `STUCK_PROCESSING_MS`. -/
def stuckProcessingMs : Nat := 5 * 60000

/-- `WebhookDeliveryStatus`. -/
inductive DeliveryStatus where
  | pending
  | processing
  | delivered
  | abandoned
  deriving DecidableEq, Repr

/-- The statuses of a delivery that is over. -/
def DeliveryStatus.Final (status : DeliveryStatus) : Prop :=
  status = .delivered ∨ status = .abandoned

/-- A row of the queue: the columns of the worker, and what the row remembers of its attempts. -/
structure QueuedDelivery extends WebhookDelivery where
  status : DeliveryStatus
  attemptCount : Nat
  nextAttemptAt : Nat
  lockedAt : Option Nat
  lastAttemptAt : Option Nat
  lastStatusCode : Option Nat
  lastError : Option String
  claimedBy : Option Nat
  requestedBy : List Nat
  finalizedBy : List Nat
  deriving DecidableEq

/-- A row as it is enqueued. -/
def QueuedDelivery.enqueued (d : WebhookDelivery) (now : Nat) : QueuedDelivery :=
  { d with
    status := .pending
    attemptCount := 0
    nextAttemptAt := now
    lockedAt := none
    lastAttemptAt := none
    lastStatusCode := none
    lastError := none
    claimedBy := none
    requestedBy := []
    finalizedBy := [] }

/-- A subscription, with what the worker reads of it. -/
structure Subscriber extends WebhookSubscription where
  url : String
  secret : String
  deriving DecidableEq

/-- The model `WebhookDeliveryAttempt`. -/
structure DeliveryAttempt where
  deliveryId : Nat
  attemptNumber : Nat
  success : Bool
  statusCode : Option Nat
  error : Option String
  durationMs : Int
  deriving DecidableEq

/-- The tables of the webhooks. -/
structure Store where
  subscriptions : List Subscriber
  deliveries : List QueuedDelivery
  attempts : List DeliveryAttempt

/-- `ClaimedDelivery`. -/
structure ClaimedDelivery where
  id : Nat
  subscriptionId : String
  eventType : String
  payload : WebhookEvent
  attemptCount : Nat
  deriving DecidableEq

/-- A request to a subscriber: its address, its headers and its body. -/
structure HttpRequest where
  url : String
  signature : String
  eventType : String
  deliveryId : Nat
  timestamp : String
  body : String

/-- The data of a `finalize`. -/
structure Finalization where
  status : DeliveryStatus
  attemptCount : Nat
  nextAttemptAt : Option Nat
  lastAttemptAt : Nat
  lastStatusCode : Option Nat
  lastError : Option String

/-! ## The statements -/

/-- The row is due: it is pending and its time has come, or it has been processed for too long. -/
def QueuedDelivery.due (now : Nat) (row : QueuedDelivery) : Bool :=
  match row.status with
  | .pending => row.nextAttemptAt ≤ now
  | .processing =>
    match row.lockedAt with
    | some lockedAt => lockedAt + stuckProcessingMs < now
    | none => false
  | .delivered | .abandoned => false

/-- The due rows that a claim takes, with their ids: the first ones by `nextAttemptAt` of those
that no other transaction has locked. -/
def dueBatch (limit now : Nat) (locked : List Nat) (deliveries : List QueuedDelivery) :
    List (QueuedDelivery × Nat) :=
  ((deliveries.zipIdx.filter fun (row, id) => row.due now && !locked.contains id).insertionSort
    fun a b => a.1.nextAttemptAt ≤ b.1.nextAttemptAt).take limit

/-- `RETURNING id, "subscriptionId", "eventType", payload, "attemptCount"`. -/
def QueuedDelivery.claimed (row : QueuedDelivery) (id : Nat) : ClaimedDelivery :=
  ⟨id, row.subscriptionId, row.eventType, row.payload, row.attemptCount⟩

/-- `claimBatch`. The attempts of the batch are numbered from `first` on. -/
def claimBatch (limit first now : Nat) (locked : List Nat) (s : Store) :
    List ClaimedDelivery × Store :=
  let batch := dueBatch limit now locked s.deliveries
  let ids := batch.map Prod.snd
  (batch.map fun (row, id) => row.claimed id,
    { s with deliveries := s.deliveries.mapIdx fun id row =>
        if id ∈ ids then
          { row with
            status := .processing
            lockedAt := some now
            claimedBy := some (first + ids.idxOf id) }
        else row })

/-- The row with the data of a `finalize` of the attempt `k`. -/
def QueuedDelivery.finalize (k : Nat) (data : Finalization) (row : QueuedDelivery) :
    QueuedDelivery :=
  { row with
    status := data.status
    attemptCount := data.attemptCount
    nextAttemptAt := data.nextAttemptAt.getD row.nextAttemptAt
    lastAttemptAt := some data.lastAttemptAt
    lastStatusCode := data.lastStatusCode
    lastError := data.lastError
    finalizedBy := k :: row.finalizedBy }

/-- `finalize`, in the attempt `k`. -/
def Store.finalize (k id : Nat) (data : Finalization) (s : Store) : Except Error (Unit × Store) :=
  if id < s.deliveries.length then
    .ok ((), { s with deliveries := s.deliveries.modify id (QueuedDelivery.finalize k data) })
  else .error (.database "Record to update not found.")

/-- The row when the attempt `k` has made a request for it. -/
def QueuedDelivery.requested (k : Nat) (row : QueuedDelivery) : QueuedDelivery :=
  { row with requestedBy := k :: row.requestedBy }

/-! ## Actions -/

/-- The actions that an attempt awaits. A `fetch` is two of them: the request leaves, and the
response comes. -/
inductive Act where
  | now
  | findSubscription (id : String)
  | send (request : HttpRequest)
  | receive (deliveryId : Nat)
  | logAttempt (attempt : DeliveryAttempt)
  | finalize (id : Nat) (data : Finalization)

/-- The answers of the actions. The response of a request is its status code. -/
abbrev Act.Answer : Act → Type
  | .now => Nat
  | .findSubscription _ => Option Subscriber
  | .send _ => Unit
  | .receive _ => Nat
  | .logAttempt _ | .finalize .. => Unit

/-- What the outside decides when it answers an action: how a statement or the sending of a request
fares, the clock, and the response of a subscriber or the error that stands in for it. -/
structure Choice where
  fault : Fault
  clock : Nat
  response : Except String Nat

/-- What an action of the attempt `k` answers and does. -/
def perform (k : Nat) : (a : Act) → Choice → Store → Except Error a.Answer × Store
  | .now, c, s => (.ok c.clock, s)
  | .findSubscription id, c, s =>
    (read c.fault (s.subscriptions.find? fun subscription => decide (subscription.id = id)), s)
  | .send request, c, s =>
    if c.fault = .failed then (.error (.rpc "fetch failed"), s)
    else
      (.ok (), { s with
        deliveries := s.deliveries.modify request.deliveryId (QueuedDelivery.requested k) })
  | .receive _, c, s => (c.response.mapError .rpc, s)
  | .logAttempt attempt, c, s =>
    transact c.fault (fun s => .ok ((), { s with attempts := s.attempts ++ [attempt] })) s
  | .finalize id data, c, s => transact c.fault (Store.finalize k id data) s

/-! ## An attempt -/

/-- A program of the worker. -/
abbrev Task (α : Type) := Async Act Act.Answer Error α

/-- Awaiting an action. -/
def act (a : Act) : Task a.Answer := Async.perform a

/-- What a request has come to. -/
structure Outcome where
  statusCode : Option Nat
  errorMessage : Option String
  success : Bool

/-- The outcome of a response: `response.ok` is a status code from 200 to 299. -/
def Outcome.ofStatus (statusCode : Nat) : Outcome :=
  if 200 ≤ statusCode ∧ statusCode ≤ 299 then ⟨some statusCode, none, true⟩
  else ⟨some statusCode, some ("Subscriber responded " ++ toString statusCode), false⟩

/-- What the worker takes from libraries: the serialization of a payload and
`signWebhookPayload`. -/
structure Signing where
  stringify : WebhookEvent → String
  signWebhookPayload : String → String → String

/-- The request of an attempt. -/
def request (signing : Signing) (delivery : ClaimedDelivery) (subscription : Subscriber)
    (timestamp : Nat) : HttpRequest :=
  let rawBody := signing.stringify delivery.payload
  { url := subscription.url
    signature := signing.signWebhookPayload subscription.secret rawBody
    eventType := delivery.eventType
    deliveryId := delivery.id
    timestamp := toISOString timestamp
    body := rawBody }

/-- The `fetch` with what is caught of it. -/
def post (request : HttpRequest) : Task Outcome :=
  tryCatch
    (do
      act (.send request)
      let statusCode ← act (.receive request.deliveryId)
      pure (.ofStatus statusCode))
    fun e => pure ⟨none, some e.message, false⟩

/-- The end of an attempt whose subscription is gone. -/
def abandonRevoked (delivery : ClaimedDelivery) (startedAt : Nat) : Task Unit := do
  let attemptNumber := delivery.attemptCount + 1
  let now ← act .now
  act (.logAttempt ⟨delivery.id, attemptNumber, false, none,
    some "subscription revoked or deleted", (now : Int) - startedAt⟩)
  let lastAttemptAt ← act .now
  act (.finalize delivery.id
    { status := .abandoned
      attemptCount := attemptNumber
      nextAttemptAt := none
      lastAttemptAt := lastAttemptAt
      lastStatusCode := none
      lastError := some "subscription revoked or deleted" })

/-- The `finalize` of an outcome: the row is delivered, pending or abandoned. -/
def finalizeOutcome (delivery : ClaimedDelivery) (outcome : Outcome) : Task Unit := do
  let attemptNumber := delivery.attemptCount + 1
  if outcome.success then do
    let lastAttemptAt ← act .now
    act (.finalize delivery.id
      { status := .delivered
        attemptCount := attemptNumber
        nextAttemptAt := none
        lastAttemptAt := lastAttemptAt
        lastStatusCode := outcome.statusCode
        lastError := none })
  else do
    let delayMs ← Async.ofExcept ((nextRetryDelayMs attemptNumber).mapError .rpc)
    match delayMs with
    | none => do
      let lastAttemptAt ← act .now
      act (.finalize delivery.id
        { status := .abandoned
          attemptCount := attemptNumber
          nextAttemptAt := none
          lastAttemptAt := lastAttemptAt
          lastStatusCode := outcome.statusCode
          lastError := outcome.errorMessage })
    | some delayMs => do
      let now ← act .now
      let lastAttemptAt ← act .now
      act (.finalize delivery.id
        { status := .pending
          attemptCount := attemptNumber
          nextAttemptAt := some (now + delayMs)
          lastAttemptAt := lastAttemptAt
          lastStatusCode := outcome.statusCode
          lastError := outcome.errorMessage })

/-- The end of an attempt whose request has come to an outcome. -/
def recordOutcome (delivery : ClaimedDelivery) (startedAt : Nat) (outcome : Outcome) :
    Task Unit := do
  let now ← act .now
  act (.logAttempt ⟨delivery.id, delivery.attemptCount + 1, outcome.success, outcome.statusCode,
    outcome.errorMessage, (now : Int) - startedAt⟩)
  finalizeOutcome delivery outcome

/-- The part of an attempt that makes the request. -/
def deliver (signing : Signing) (delivery : ClaimedDelivery) (startedAt : Nat)
    (subscription : Subscriber) (timestamp : Nat) : Task Unit := do
  let outcome ← post (request signing delivery subscription timestamp)
  recordOutcome delivery startedAt outcome

/-- The part of an attempt that looks the subscription up. -/
def lookUp (signing : Signing) (delivery : ClaimedDelivery) (startedAt : Nat) : Task Unit := do
  let subscription ← act (.findSubscription delivery.subscriptionId)
  match subscription with
  | some subscription =>
    if subscription.active then do
      let timestamp ← act .now
      deliver signing delivery startedAt subscription timestamp
    else abandonRevoked delivery startedAt
  | none => abandonRevoked delivery startedAt

/-- `attemptDelivery`. -/
def attemptDelivery (signing : Signing) (delivery : ClaimedDelivery) : Task Unit := do
  let startedAt ← act .now
  lookUp signing delivery startedAt

/-! ## The queue as a machine -/

/-- The attempts, as programs that go on in any order. -/
def attempts (signing : Signing) :
    Service Store ClaimedDelivery Act Act.Answer Error Unit Choice Empty where
  main := attemptDelivery signing
  perform := perform
  environ := nofun

/-- The tables and the attempts made so far. -/
abbrev Queue := Pool Store ClaimedDelivery Act Act.Answer Error Unit

/-- What happens to the queue: a subscription is registered or revoked, a delivery is enqueued, a
worker claims a batch while some rows are locked by others, or an attempt goes on. -/
inductive Event where
  | subscribe (subscription : Subscriber)
  | revoke (id : String)
  | enqueue (d : WebhookDelivery) (now : Nat)
  | claim (now : Nat) (locked : List Nat)
  | resume (k : Nat) (c : Choice)

/-- One event. A claim starts an attempt of every row it returns. -/
def handle (signing : Signing) (q : Queue) : Event → Queue
  | .subscribe subscription =>
    { q with state := { q.state with
      subscriptions := q.state.subscriptions ++ [subscription] } }
  | .revoke id =>
    { q with state := { q.state with
      subscriptions := q.state.subscriptions.map fun subscription =>
        if subscription.id = id then { subscription with active := false } else subscription } }
  | .enqueue d now =>
    { q with state := { q.state with
      deliveries := q.state.deliveries ++ [.enqueued d now] } }
  | .claim now locked =>
    let (claimed, s) := claimBatch batchSize q.calls.length now locked q.state
    { state := s
      calls := q.calls ++ claimed.map fun delivery =>
        ⟨delivery, attemptDelivery signing delivery⟩ }
  | .resume k c => (attempts signing).move (.resume k c) q

/-- The queue, from empty tables. -/
def queue (signing : Signing) : Machine Queue Event Empty Unit where
  init := ⟨⟨[], [], []⟩, []⟩
  invoke e q := .ok ((), handle signing q e)

end WebhookWorker

end Backend

end InvoiceFi
