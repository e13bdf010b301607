import InvoiceFi.Backend.Compliance.AccessGuard
import InvoiceFi.Backend.Monitoring.HorizonOperations
import InvoiceFi.Backend.WebhookSubscriptions
import InvoiceFi.Backend.WebhookWorker
import InvoiceFi.Lib.Guarantee

/-!
# The webhook API (`webhooks/webhooks.controller.ts`, `webhooks/webhook-access.guard.ts`)

A request presents a token, from which `WebhookAccessGuard` reads the principal, and registers,
lists or revokes subscriptions or reads the log of the deliveries of one
(`webhooks/webhook-delivery-log.service.ts`). `webhookApi` is the service of these requests, which
run in parallel. The deliveries are written by others, the dispatcher and the worker, whenever they
like.

A registration and a revocation are the programs of `WebhookSubscriptions`, whose statements are
some of the statements here.
-/

namespace InvoiceFi

namespace Backend

namespace WebhookApi

open Compliance (Principal isAdmin)
open WebhookSubscriptions (CreateWebhookSubscriptionDto WebhookSubscriptionView Row Table)
open WebhookWorker (DeliveryStatus)

/-! ## The delivery log (`webhook-delivery-log.service.ts`) -/

/-- The name of a status in the database and in queries. -/
def statusName : DeliveryStatus → String
  | .pending => "PENDING"
  | .processing => "PROCESSING"
  | .delivered => "DELIVERED"
  | .abandoned => "ABANDONED"

/-- `DELIVERY_STATUSES`. -/
def deliveryStatuses : List DeliveryStatus := [.pending, .processing, .delivered, .abandoned]

/-- `DEFAULT_LIMIT`. -/
def defaultLimit : Nat := 50

/-- `MAX_LIMIT`. -/
def maxLimit : Nat := 200

/-- The model `WebhookDeliveryAttempt`, with the columns of the log. -/
structure AttemptRow where
  attemptNumber : Nat
  attemptedAt : Nat
  success : Bool
  statusCode : Option Nat
  error : Option String
  durationMs : Option Int
  deriving DecidableEq

/-- The model `WebhookDelivery`, with the columns of the log and its attempts. -/
structure DeliveryRow where
  id : String
  subscriptionId : String
  eventType : String
  status : DeliveryStatus
  attemptCount : Nat
  nextAttemptAt : Nat
  lastAttemptAt : Option Nat
  lastStatusCode : Option Nat
  lastError : Option String
  createdAt : Nat
  updatedAt : Nat
  attempts : List AttemptRow
  deriving DecidableEq

/-- `WebhookDeliveryAttemptView`. -/
structure WebhookDeliveryAttemptView where
  attemptNumber : Nat
  attemptedAt : String
  success : Bool
  statusCode : Option Nat
  error : Option String
  durationMs : Option Int
  deriving DecidableEq

/-- `WebhookDeliveryView`. -/
structure WebhookDeliveryView where
  id : String
  subscriptionId : String
  eventType : String
  status : String
  attemptCount : Nat
  nextAttemptAt : String
  lastAttemptAt : Option String
  lastStatusCode : Option Nat
  lastError : Option String
  createdAt : String
  updatedAt : String
  attempts : List WebhookDeliveryAttemptView
  deriving DecidableEq

/-- The view of an attempt. -/
def attemptView (attempt : AttemptRow) : WebhookDeliveryAttemptView where
  attemptNumber := attempt.attemptNumber
  attemptedAt := toISOString attempt.attemptedAt
  success := attempt.success
  statusCode := attempt.statusCode
  error := attempt.error
  durationMs := attempt.durationMs

/-- `toView`, with the attempts in the order of their numbers. -/
def toView (delivery : DeliveryRow) : WebhookDeliveryView where
  id := delivery.id
  subscriptionId := delivery.subscriptionId
  eventType := delivery.eventType
  status := statusName delivery.status
  attemptCount := delivery.attemptCount
  nextAttemptAt := toISOString delivery.nextAttemptAt
  lastAttemptAt := delivery.lastAttemptAt.map toISOString
  lastStatusCode := delivery.lastStatusCode
  lastError := delivery.lastError
  createdAt := toISOString delivery.createdAt
  updatedAt := toISOString delivery.updatedAt
  attempts := (delivery.attempts.mergeSort fun a b =>
    decide (a.attemptNumber ≤ b.attemptNumber)).map attemptView

/-- A number that a query asks for. -/
inductive Limit where
  | nan
  | infinite (negative : Bool)
  | finite (value : ℚ)
  deriving DecidableEq

/-- `Number(limit)`. -/
def limitOf (text : String) : Limit :=
  match Monitoring.textNumber text.toList with
  | some value => .finite value
  | none =>
    let trimmed := String.ofList (Compliance.trim text.toList)
    if trimmed = "Infinity" ∨ trimmed = "+Infinity" then .infinite false
    else if trimmed = "-Infinity" then .infinite true
    else .nan

/-- `clampLimit`. -/
def clampLimit : Option Limit → Nat
  | none | some .nan => defaultLimit
  | some (.infinite negative) => if negative then 1 else maxLimit
  | some (.finite value) => min (max (value.num.tdiv value.den) 1).toNat maxLimit

/-- The check of the status that a query asks for. -/
def checkStatus : Option String → Except Error (Option DeliveryStatus)
  | none => .ok none
  | some text =>
    match deliveryStatuses.find? fun status => decide (statusName status = text) with
    | some status => .ok (some status)
    | none => .error (.http 400 ("Invalid status: " ++ text ++ ". Valid: " ++
        ", ".intercalate (deliveryStatuses.map statusName)))

/-! ## The tables -/

/-- The tables of the webhooks, as far as the API reads them. -/
structure Store where
  table : Table
  deliveries : List DeliveryRow

/-- `findMany` of `list`, the newest subscription first. -/
def findSubscriptions (ownerId : Option String) (rows : List Row) : List Row :=
  (rows.filter fun row => decide (∀ owner ∈ ownerId, row.ownerId = owner)).mergeSort
    fun a b => decide (b.createdAt ≤ a.createdAt)

/-- `findMany` of `listForSubscription`, the newest delivery first. -/
def findDeliveries (subscriptionId : String) (status : Option DeliveryStatus) (limit : Nat)
    (deliveries : List DeliveryRow) : List DeliveryRow :=
  ((deliveries.filter fun delivery => decide (delivery.subscriptionId = subscriptionId ∧
    ∀ wanted ∈ status, delivery.status = wanted)).mergeSort
      fun a b => decide (b.createdAt ≤ a.createdAt)).take limit

/-! ## Requests -/

/-- The statements of the requests: those of `register` and `revoke`, and the two lists. -/
inductive Act where
  | subscription (a : WebhookSubscriptions.Act)
  | findSubscriptions (ownerId : Option String)
  | findDeliveries (subscriptionId : String) (status : Option DeliveryStatus) (limit : Nat)

/-- The answers of the statements. -/
abbrev Act.Answer : Act → Type
  | .subscription a => a.Answer
  | .findSubscriptions _ => List Row
  | .findDeliveries .. => List DeliveryRow

/-- What the outside decides when it answers a statement. -/
abbrev Choice := WebhookSubscriptions.Choice

/-- What a statement answers and does. -/
def perform : (a : Act) → Choice → Store → Except Error a.Answer × Store
  | .subscription a, c, s =>
    ((WebhookSubscriptions.perform a c s.table).1,
      { s with table := (WebhookSubscriptions.perform a c s.table).2 })
  | .findSubscriptions ownerId, c, s => (read c.fault (findSubscriptions ownerId s.table.rows), s)
  | .findDeliveries subscriptionId status limit, c, s =>
    (read c.fault (findDeliveries subscriptionId status limit s.deliveries), s)

/-- A program of the API. -/
abbrev Task (α : Type) := Async Act Act.Answer Error α

/-- Awaiting a statement. -/
def act (a : Act) : Task a.Answer := Async.perform a

/-- A program of `WebhookSubscriptions`. -/
def subscriptionTask {α : Type} (p : WebhookSubscriptions.Task α) : Task α :=
  p.embed Act.subscription fun _ r => r

/-- What a request returns. -/
inductive Response where
  | replied (reply : WebhookSubscriptions.Reply)
  | subscriptions (views : List WebhookSubscriptionView)
  | deliveries (views : List WebhookDeliveryView)
  deriving DecidableEq

/-- `list` of `WebhookSubscriptionsService`. -/
def list (principal : Principal) (ownerId : Option String) : Task Response := do
  let owner :=
    if isAdmin principal then ownerId.filter fun id => decide (id ≠ "")
    else some principal.walletAddress
  let subscriptions ← act (.findSubscriptions owner)
  pure (.subscriptions (subscriptions.map WebhookSubscriptions.toView))

/-- `listForSubscription`. -/
def listForSubscription (subscriptionId : String) (status : Option String) (limit : Option Limit) :
    Task Response := do
  let wanted ← Async.ofExcept (checkStatus status)
  let deliveries ← act (.findDeliveries subscriptionId wanted (clampLimit limit))
  pure (.deliveries (deliveries.map toView))

/-- `findOwned`. -/
def findOwned (principal : Principal) (id : String) : Task Row := do
  let found ← act (.subscription (.findUnique id))
  Async.ofExcept (WebhookSubscriptions.checkOwned principal id found)

/-- `listDeliveries`. -/
def listDeliveries (principal : Principal) (id : String) (status limit : Option String) :
    Task Response := do
  let _ ← findOwned principal id
  listForSubscription id status (limit.map limitOf)

/-- What a request asks for. A registration comes with the secret that is drawn for it. -/
inductive Operation where
  | create (dto : CreateWebhookSubscriptionDto) (secret : String)
  | list (ownerId : Option String)
  | revoke (id : String)
  | listDeliveries (id : String) (status limit : Option String)

/-- The program of an operation. -/
def serve (parser : UrlParser) (principal : Principal) : Operation → Task Response
  | .create dto secret =>
    .replied <$> subscriptionTask (WebhookSubscriptions.register parser principal dto secret)
  | .list ownerId => list principal ownerId
  | .revoke id => .replied <$> subscriptionTask (WebhookSubscriptions.revoke principal id)
  | .listDeliveries id status limit => listDeliveries principal id status limit

/-- A request: its headers, the time at which they are read, and what it asks for. -/
structure ApiCall where
  headers : Compliance.AccessGuard.ExportRequest
  nowMs : Int
  operation : Operation

/-- The API: what it computes with, `JWT_SECRET`, and the parser of URLs. -/
structure WebhooksController where
  runtime : Compliance.Jwt.Runtime
  secret : String
  parser : UrlParser

/-- What is answered when the guard throws. -/
def thrownError : Compliance.AccessGuard.Thrown → Error
  | .unauthorized message => .http 401 message
  | .uriError => .http 500 "Internal server error"

namespace WebhooksController

variable (api : WebhooksController)

/-- `canActivate` of `WebhookAccessGuard`. -/
def principal (call : ApiCall) : Except Error Principal :=
  (Compliance.AccessGuard.resolvePrincipal api.runtime call.headers api.secret
    call.nowMs).mapError thrownError

/-- The program of a request. -/
def main (call : ApiCall) : Task Response := do
  let principal ← Async.ofExcept (api.principal call)
  serve api.parser principal call.operation

end WebhooksController

/-- The requests in parallel. Others write the deliveries. -/
def webhookApi (api : WebhooksController) :
    Service Store ApiCall Act Act.Answer Error Response Choice (List DeliveryRow) where
  main := api.main
  perform _ := perform
  environ deliveries s := { s with deliveries := deliveries }

/-- The requests made so far. -/
abbrev Requests := Pool Store ApiCall Act Act.Answer Error Response

/-- What may happen next. -/
abbrev ApiMove := Move ApiCall Choice (List DeliveryRow)

end WebhookApi

end Backend

end InvoiceFi
