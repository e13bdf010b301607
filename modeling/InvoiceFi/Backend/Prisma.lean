import InvoiceFi.Backend.Errors

/-!
# The client of the database (`prisma/prisma.service.ts`)

A service does not hold a Prisma client but a `PrismaService`, which hands on some models of its
client through getters of its own, and the client itself as `db`. Any other model is `undefined` on
it, so that a statement `prisma.model.method(…)` throws before it reaches the database (`through`).
-/

namespace InvoiceFi

namespace Backend

/-- The models that the services reach for: those of `schema.prisma`, and `notification` and `user`,
which the schema does not have. -/
inductive PrismaModel where
  | invoice
  | invoiceEvent
  | exportJob
  | syncCursor
  | webhookSubscription
  | webhookDelivery
  | webhookDeliveryAttempt
  | invoiceReminderFailure
  | idempotencyKey
  | notification
  | user
  deriving DecidableEq, Repr

/-- The getters of `PrismaService` for models. -/
def PrismaService.getters : List PrismaModel :=
  [.invoice, .syncCursor, .webhookSubscription, .webhookDelivery, .webhookDeliveryAttempt,
    .idempotencyKey]

/-- The error of `undefined.property`. -/
def readOfUndefined (property : String) : Error :=
  .type ("Cannot read properties of undefined (reading '" ++ property ++ "')")

/-- The statement `prisma.model.method(…)` through a `PrismaService` with some getters. -/
def through {σ α : Type} (getters : List PrismaModel) (model : PrismaModel) (method : String)
    (statement : σ → Except Error α × σ) (s : σ) : Except Error α × σ :=
  if model ∈ getters then statement s else (.error (readOfUndefined method), s)

section
variable {σ α : Type} {getters : List PrismaModel} {model : PrismaModel} {method : String}
  {statement : σ → Except Error α × σ} {s : σ}

theorem through_of_mem (h : model ∈ getters) :
    through getters model method statement s = statement s := if_pos h

theorem through_of_not_mem (h : model ∉ getters) :
    through getters model method statement s = (.error (readOfUndefined method), s) := if_neg h

end

end Backend

end InvoiceFi
