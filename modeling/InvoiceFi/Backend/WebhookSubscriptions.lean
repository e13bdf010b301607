import InvoiceFi.Backend.Compliance.Exports
import InvoiceFi.Backend.Runtime
import InvoiceFi.Backend.WebhookUrl
import Mathlib.Algebra.Ring.Int.Defs

/-!
# The quota of webhook subscriptions (`webhooks/webhook-subscriptions.service.ts`)

`register` counts the active subscriptions of a wallet and inserts another one if they are fewer
than `maxSubscriptionsPerOwner`; `revoke` deactivates one. The statements of a request are atomic,
and requests run in parallel. `subscriptions` is the service of these requests.

The count and the insert are two statements. A registration that inserts after others of its wallet
have inserted since its count may exceed the quota. It does not where they have added no more than
they have taken away in between, since it has counted fewer than the quota before it came to its
insert (`counted_before`, `quotaKept_of_notOvertaken`).
-/

namespace InvoiceFi

namespace Backend

namespace WebhookSubscriptions

open Compliance (Principal isAdmin)

/-! ## Data -/

/-- `MAX_SUBSCRIPTIONS_PER_OWNER`. -/
def maxSubscriptionsPerOwner : Nat := 20

/-- `ALL_INVOICE_EVENT_TYPES` (`webhook-event.types.ts`). -/
def allInvoiceEventTypes : List String := ["created", "submitted", "funded", "repaid", "defaulted"]

/-- `ALL_EVENTS_WILDCARD`. -/
def allEventsWildcard : String := "*"

/-- `CreateWebhookSubscriptionDto`. -/
structure CreateWebhookSubscriptionDto where
  url : Option String
  eventTypes : Option (List String)
  deriving DecidableEq

/-- The data of an insert. -/
structure CreateData where
  ownerId : String
  url : String
  secret : String
  eventTypes : List String
  deriving DecidableEq

/-- The model `WebhookSubscription` (`schema.prisma`), with its columns. -/
structure Row extends CreateData where
  id : String
  active : Bool
  createdAt : Nat
  updatedAt : Nat
  deriving DecidableEq

/-- `WebhookSubscriptionView`. -/
structure WebhookSubscriptionView where
  id : String
  ownerId : String
  url : String
  eventTypes : List String
  active : Bool
  createdAt : String
  updatedAt : String
  deriving DecidableEq

/-- `toView`. -/
def toView (subscription : Row) : WebhookSubscriptionView where
  id := subscription.id
  ownerId := subscription.ownerId
  url := subscription.url
  eventTypes := subscription.eventTypes
  active := subscription.active
  createdAt := toISOString subscription.createdAt
  updatedAt := toISOString subscription.updatedAt

/-- `WebhookSubscriptionCreatedView`. -/
structure WebhookSubscriptionCreatedView extends WebhookSubscriptionView where
  secret : String
  deriving DecidableEq

/-- `validateEventTypes`. -/
def validateEventTypes (eventTypes : Option (List String)) : Except Error (List String) :=
  match eventTypes with
  | none | some [] => .ok [allEventsWildcard]
  | some eventTypes =>
    if allEventsWildcard ∈ eventTypes then .ok [allEventsWildcard]
    else
      let invalid := eventTypes.filter fun type => decide (type ∉ allInvoiceEventTypes)
      if invalid ≠ [] then
        .error (.http 400 ("Invalid event types: " ++ ", ".intercalate invalid ++
          ". Valid types: " ++ ", ".intercalate allInvoiceEventTypes ++ ", or \"" ++
          allEventsWildcard ++ "\""))
      else .ok eventTypes.eraseDups

/-! ## The table -/

/-- The table of subscriptions. -/
structure Table where
  rows : List Row
  nodup : (rows.map Row.id).Nodup

/-- The active subscriptions of a wallet. -/
def Table.active (wallet : String) (table : Table) : Nat :=
  table.rows.countP fun row => decide (row.ownerId = wallet ∧ row.active = true)

/-- `findUnique`. -/
def Table.findUnique (id : String) (table : Table) : Option Row :=
  table.rows.find? fun row => decide (row.id = id)

/-- The insert of a subscription, under the id `uuid` and at the time `now`. -/
def Table.create (uuid : String) (now : Nat) (data : CreateData) (table : Table) :
    Except Error (Row × Table) :=
  if h : uuid ∈ table.rows.map Row.id then .error .uniqueViolation
  else
    let row : Row := ⟨data, uuid, true, now, now⟩
    .ok (row, ⟨table.rows ++ [row], by
      rw [List.map_append, List.map_singleton, List.nodup_append]
      refine ⟨table.nodup, List.nodup_singleton _, ?_⟩
      rintro a ha b hb rfl
      rw [List.mem_singleton.1 hb] at ha
      exact h ha⟩)

/-- The update of a row that has been deactivated. -/
def deactivated (id : String) (now : Nat) (row : Row) : Row :=
  if row.id = id then { row with active := false, updatedAt := now } else row

/-- The deactivation of the subscription with the id. -/
def Table.deactivate (id : String) (now : Nat) (table : Table) : Except Error (Row × Table) :=
  match table.findUnique id with
  | none => .error (.database "Record to update not found.")
  | some row => .ok (deactivated id now row, ⟨table.rows.map (deactivated id now), by
      have hids : (table.rows.map (deactivated id now)).map Row.id = table.rows.map Row.id := by
        rw [List.map_map]
        refine List.map_congr_left fun row _ => ?_
        rw [Function.comp_apply, deactivated]
        split <;> rfl
      rw [hids]
      exact table.nodup⟩)

/-! ## Requests -/

/-- The statements of the requests. -/
inductive Act where
  | count (ownerId : String)
  | create (data : CreateData)
  | findUnique (id : String)
  | deactivate (id : String)

/-- The answers of the statements. -/
abbrev Act.Answer : Act → Type
  | .count _ => Nat
  | .create _ => Row
  | .findUnique _ => Option Row
  | .deactivate _ => Row

/-- What the outside decides when it answers a statement: the id is that of an inserted row. -/
structure Choice where
  fault : Fault
  clock : Nat
  uuid : String

/-- What a statement answers and does. -/
def perform : (a : Act) → Choice → Table → Except Error a.Answer × Table
  | .count ownerId, c, table => (read c.fault (table.active ownerId), table)
  | .create data, c, table => transact c.fault (Table.create c.uuid c.clock data) table
  | .findUnique id, c, table => (read c.fault (table.findUnique id), table)
  | .deactivate id, c, table => transact c.fault (Table.deactivate id c.clock) table

/-- A program of the service. -/
abbrev Task (α : Type) := Async Act Act.Answer Error α

/-- Awaiting a statement. -/
def act (a : Act) : Task a.Answer := Async.perform a

/-- The error of a registration beyond the quota. -/
def quotaError : Error :=
  .http 400 ("A wallet may register at most " ++ toString maxSubscriptionsPerOwner ++
    " active webhook subscriptions")

/-- What a request returns. -/
inductive Reply where
  | created (view : WebhookSubscriptionCreatedView)
  | revoked
  deriving DecidableEq

/-- The insert of `register`. -/
def insert (data : CreateData) : Task Reply := do
  let created ← act (.create data)
  pure (.created ⟨toView created, data.secret⟩)

/-- What `register` does after its checks: the count, and the insert. -/
def insertCounted (data : CreateData) : Task Reply := do
  let existing ← act (.count data.ownerId)
  Async.ofExcept (rejectIf (maxSubscriptionsPerOwner ≤ existing) quotaError)
  insert data

/-- The checks of `register`, with the data of its insert. -/
def checkRegistration (parser : UrlParser) (principal : Principal)
    (dto : CreateWebhookSubscriptionDto) (secret : String) : Except Error CreateData := do
  let url ← assertPublicWebhookUrl parser (dto.url.getD "")
  let eventTypes ← validateEventTypes dto.eventTypes
  pure ⟨principal.walletAddress, url.href, secret, eventTypes⟩

/-- `register`, with the secret that `generateWebhookSecret` draws. -/
def register (parser : UrlParser) (principal : Principal) (dto : CreateWebhookSubscriptionDto)
    (secret : String) : Task Reply := do
  let data ← Async.ofExcept (checkRegistration parser principal dto secret)
  insertCounted data

/-- The check of `findOwned`. -/
def checkOwned (principal : Principal) (id : String) (found : Option Row) : Except Error Row :=
  match found with
  | none => .error (.http 404 ("Webhook subscription " ++ id ++ " not found"))
  | some subscription =>
    if isAdmin principal = false ∧ subscription.ownerId ≠ principal.walletAddress then
      .error (.http 403 "Not the owner of this webhook subscription")
    else .ok subscription

/-- What `revoke` does with the subscription that `findOwned` has found. -/
def revokeOwned (subscription : Row) : Task Reply :=
  if subscription.active = false then pure .revoked
  else do
    let _ ← act (.deactivate subscription.id)
    pure .revoked

/-- `revoke`. -/
def revoke (principal : Principal) (id : String) : Task Reply := do
  let found ← act (.findUnique id)
  let subscription ← Async.ofExcept (checkOwned principal id found)
  revokeOwned subscription

/-- A request. -/
inductive Request where
  | register (principal : Principal) (dto : CreateWebhookSubscriptionDto) (secret : String)
  | revoke (principal : Principal) (id : String)

/-- The program of a request. -/
def Request.task (parser : UrlParser) : Request → Task Reply
  | .register principal dto secret => WebhookSubscriptions.register parser principal dto secret
  | .revoke principal id => WebhookSubscriptions.revoke principal id

/-- The requests in parallel. -/
def subscriptions (parser : UrlParser) :
    Service Table Request Act Act.Answer Error Reply Choice Empty where
  main := Request.task parser
  perform _ := perform
  environ o := nomatch o

/-- The table and the requests made so far. -/
abbrev Requests := Pool Table Request Act Act.Answer Error Reply

/-- The requests after some moves, from a table on which no request has been made. -/
def after (parser : UrlParser) (table : Table) (ms : List (Move Request Choice Empty)) : Requests :=
  ((subscriptions parser).machine table).exec ⟨table, []⟩ ms

/-! ## What a statement does to the active subscriptions -/

/-- By how much a statement changes the active subscriptions of a wallet: an insert for it adds one,
and the deactivation of an active one takes one away. -/
def Act.change (wallet : String) (c : Choice) (table : Table) : Act → Int
  | .create data =>
    if data.ownerId = wallet ∧ c.fault ≠ .failed ∧ c.uuid ∉ table.rows.map Row.id then 1 else 0
  | .deactivate id =>
    if c.fault ≠ .failed ∧
        ∃ row ∈ table.rows, row.id = id ∧ row.ownerId = wallet ∧ row.active = true then -1
    else 0
  | .count _ | .findUnique _ => 0

theorem active_create {uuid : String} {now : Nat} {data : CreateData} {table table' : Table}
    {row : Row} (h : table.create uuid now data = .ok (row, table')) (wallet : String) :
    uuid ∉ table.rows.map Row.id ∧
      table'.active wallet = table.active wallet + if data.ownerId = wallet then 1 else 0 := by
  unfold Table.create at h
  split at h
  · cases h
  · next hfresh =>
    cases h
    refine ⟨hfresh, ?_⟩
    rw [Table.active, Table.active, List.countP_append, List.countP_singleton]
    simp

/-- The row with an id, among the rows of a table. -/
theorem Table.split (table : Table) {row : Row} (hrow : row ∈ table.rows) :
    ∃ rows₁ rows₂, table.rows = rows₁ ++ row :: rows₂ ∧
      ∀ other ∈ rows₁ ++ rows₂, other.id ≠ row.id := by
  obtain ⟨rows₁, rows₂, hrows⟩ := List.append_of_mem hrow
  refine ⟨rows₁, rows₂, hrows, fun other hother hid => ?_⟩
  have hnodup := table.nodup
  rw [hrows, List.map_append, List.map_cons, List.nodup_middle, List.nodup_cons] at hnodup
  rw [← List.map_append] at hnodup
  exact hnodup.1 (hid ▸ List.mem_map_of_mem hother)

theorem findUnique_id {table : Table} {id : String} {row : Row}
    (h : table.findUnique id = some row) : row.id = id := by
  have hdecide := List.find?_some h
  exact of_decide_eq_true hdecide

theorem active_deactivate {id : String} {now : Nat} {table table' : Table} {row : Row}
    (h : table.deactivate id now = .ok (row, table')) (wallet : String) :
    (table'.active wallet : Int) = table.active wallet +
      if ∃ row ∈ table.rows, row.id = id ∧ row.ownerId = wallet ∧ row.active = true then -1
      else 0 := by
  unfold Table.deactivate at h
  split at h
  · cases h
  · next found hfound =>
    cases h
    have hid : found.id = id := findUnique_id hfound
    obtain ⟨rows₁, rows₂, hrows, hother⟩ := table.split (List.mem_of_find?_eq_some hfound)
    have hkept : ∀ rows : List Row, (∀ other ∈ rows, other ∈ rows₁ ++ rows₂) →
        rows.map (deactivated id now) = rows := fun rows hsub =>
      (List.map_congr_left fun other hmem =>
        if_neg (hid ▸ hother other (hsub other hmem))).trans (List.map_id rows)
    have hactive : (∃ row ∈ table.rows, row.id = id ∧ row.ownerId = wallet ∧ row.active = true) ↔
        found.ownerId = wallet ∧ found.active = true := by
      constructor
      · rintro ⟨row, hrow, hrowid, hcounted⟩
        rw [hrows, List.mem_append, List.mem_cons] at hrow
        rcases hrow with hrow | rfl | hrow
        · exact absurd (hrowid.trans hid.symm) (hother row (List.mem_append_left _ hrow))
        · exact hcounted
        · exact absurd (hrowid.trans hid.symm) (hother row (List.mem_append_right _ hrow))
      · intro hcounted
        exact ⟨found, List.mem_of_find?_eq_some hfound, hid, hcounted⟩
    have hmap : table.rows.map (deactivated id now) =
        rows₁ ++ deactivated id now found :: rows₂ := by
      rw [hrows, List.map_append, List.map_cons, hkept rows₁ fun other => List.mem_append_left _,
        hkept rows₂ fun other => List.mem_append_right _]
    simp only [Table.active, hmap, if_congr hactive rfl rfl]
    rw [hrows, deactivated, if_pos hid]
    simp only [List.countP_append, List.countP_cons, Bool.false_eq_true, and_false, decide_false,
      if_false]
    by_cases hcounted : found.ownerId = wallet ∧ found.active = true
    · simp [hcounted]
      omega
    · simp [hcounted]

/-- **What a statement does to the active subscriptions of a wallet.** -/
theorem active_perform (wallet : String) (a : Act) (c : Choice) (table : Table) :
    ((perform a c table).2.active wallet : Int) =
      table.active wallet + a.change wallet c table := by
  cases a with
  | count | findUnique => exact (add_zero _).symm
  | create data =>
    rw [perform, Act.change]
    cases hbody : table.create c.uuid c.clock data with
    | error e =>
      have htaken : ¬ c.uuid ∉ table.rows.map Row.id := fun hfresh => by
        rw [Table.create, dif_neg hfresh] at hbody
        cases hbody
      rw [transact_of_error hbody, if_neg fun h => htaken h.2.2, add_zero]
    | ok result =>
      obtain ⟨hfresh, hactive⟩ := active_create hbody wallet
      rw [transact_of_ok hbody]
      by_cases hfailed : c.fault = .failed
      · rw [if_pos hfailed, if_neg fun h => h.2.1 hfailed, add_zero]
      · rw [if_neg hfailed, hactive]
        by_cases howner : data.ownerId = wallet
        · rw [if_pos howner, if_pos ⟨howner, hfailed, hfresh⟩]
          rfl
        · rw [if_neg howner, if_neg fun h => howner h.1]
          rfl
  | deactivate id =>
    rw [perform, Act.change]
    cases hbody : table.deactivate id c.clock with
    | error e =>
      have hnone : ¬ ∃ row ∈ table.rows, row.id = id ∧ row.ownerId = wallet ∧
          row.active = true := by
        rintro ⟨row, hrow, hid, -⟩
        unfold Table.deactivate at hbody
        split at hbody
        · next hfind => exact List.find?_eq_none.1 hfind row hrow (decide_eq_true hid)
        · cases hbody
      rw [transact_of_error hbody, if_neg fun h => hnone h.2, add_zero]
    | ok result =>
      rw [transact_of_ok hbody]
      by_cases hfailed : c.fault = .failed
      · rw [if_pos hfailed, if_neg fun h => h.1 hfailed, add_zero]
      · rw [if_neg hfailed, active_deactivate hbody wallet]
        simp only [ne_eq, hfailed, not_false_eq_true, true_and]

/-- The statement that a move executes, with what the outside decides. -/
def Requests.statement (p : Requests) : Move Request Choice Empty → Option (Act × Choice)
  | .resume k c =>
    match p.calls[k]? with
    | some ⟨_, .await a _⟩ => some (a, c)
    | _ => none
  | _ => none

/-- A move of a run, with the requests before and after it. -/
abbrev Moved := Step Requests (Move Request Choice Empty) Empty Unit

/-- By how much a move changes the active subscriptions of a wallet. -/
def Moved.change (wallet : String) (t : Moved) : Int :=
  match Requests.statement t.pre t.input with
  | some (a, c) => a.change wallet c t.pre.state
  | none => 0

/-- The moves of a run from the requests `p`. -/
def moved (parser : UrlParser) (table : Table) (p : Requests)
    (ms : List (Move Request Choice Empty)) : List Moved :=
  ((subscriptions parser).machine table).trace p ms

theorem active_move (parser : UrlParser) (wallet : String) (m : Move Request Choice Empty)
    (p : Requests) :
    (((subscriptions parser).move m p).state.active wallet : Int) =
      p.state.active wallet +
        match Requests.statement p m with
        | some (a, c) => a.change wallet c p.state
        | none => 0 := by
  rcases Service.move_cases (subscriptions parser) m p with ⟨i, rfl, hp⟩ |
    ⟨k, c, i, a, f, rfl, hk, hp⟩ | ⟨o, -, -⟩ | ⟨k, c, rfl, hno, hp⟩
  · rw [hp]
    exact (add_zero _).symm
  · rw [hp, Requests.statement, hk]
    exact active_perform wallet a c p.state
  · cases o
  · rw [hp, Requests.statement]
    split
    · next hstatement =>
      split at hstatement
      · next hk => exact absurd hk (hno _ _ _)
      · cases hstatement
    · exact (add_zero _).symm

/-- The active subscriptions of a wallet after some moves are those before, and what the moves have
changed. -/
theorem active_moved (parser : UrlParser) (table : Table) (wallet : String) (p : Requests)
    (ms : List (Move Request Choice Empty)) :
    ((((subscriptions parser).machine table).exec p ms).state.active wallet : Int) =
      p.state.active wallet + ((moved parser table p ms).map (Moved.change wallet)).sum :=
  Machine.accumulate (m := (subscriptions parser).machine table) (I := fun _ => True)
    (fun p : Requests => (p.state.active wallet : Int))
    (Moved.change wallet) (fun _ _ _ _ _ _ => trivial)
    (fun m p _ => active_move parser wallet m p) trivial ms

/-! ## The phases of a registration -/

/-- What is left of a request. -/
def Requests.Left (p : Requests) (k : Nat) (i : Request) (rest : Task Reply) : Prop :=
  p.calls[k]? = some ⟨i, rest⟩

/-- A registration is about to count. -/
def Requests.Counts (p : Requests) (k : Nat) (data : CreateData) : Prop :=
  ∃ i, p.Left k i (insertCounted data)

/-- A registration has counted and is about to insert. -/
def Requests.Inserts (p : Requests) (k : Nat) (data : CreateData) : Prop :=
  ∃ i, p.Left k i (insert data)

/-- The points of its program at which a request waits, and its end. -/
inductive Phase (parser : UrlParser) : Request → Task Reply → Prop
  | counting {principal dto secret data}
      (h : checkRegistration parser principal dto secret = .ok data) :
      Phase parser (.register principal dto secret) (insertCounted data)
  | inserting {principal dto secret data}
      (h : checkRegistration parser principal dto secret = .ok data) :
      Phase parser (.register principal dto secret) (insert data)
  | finding (principal id) : Phase parser (.revoke principal id) (revoke principal id)
  | deactivating (principal id subscription) :
      Phase parser (.revoke principal id) (revokeOwned subscription)
  | ended (i r) : Phase parser i (.done r)

/-- A registration ends with the error of its checks, or counts. -/
theorem register_cases (parser : UrlParser) (principal : Principal)
    (dto : CreateWebhookSubscriptionDto) (secret : String) :
    (∃ e, checkRegistration parser principal dto secret = .error e ∧
      register parser principal dto secret = .done (.error e)) ∨
    ∃ data, checkRegistration parser principal dto secret = .ok data ∧
      register parser principal dto secret = insertCounted data := by
  rw [register]
  cases checkRegistration parser principal dto secret with
  | error e => exact .inl ⟨e, rfl, rfl⟩
  | ok data => exact .inr ⟨data, rfl, rfl⟩

theorem phase_task (parser : UrlParser) (i : Request) : Phase parser i (i.task parser) := by
  cases i with
  | revoke principal id => exact .finding principal id
  | register principal dto secret =>
    rw [Request.task]
    rcases register_cases parser principal dto secret with ⟨e, -, htask⟩ | ⟨data, hcheck, htask⟩
    · rw [htask]
      exact .ended _ _
    · rw [htask]
      exact .counting hcheck

/-- What a registration does with its count. -/
def counted (data : CreateData) : Except Error Nat → Task Reply
  | .ok existing =>
    if maxSubscriptionsPerOwner ≤ existing then .done (.error quotaError) else insert data
  | .error e => .done (.error e)

theorem insertCounted_eq (data : CreateData) :
    insertCounted data = .await (.count data.ownerId) (counted data) := by
  refine congrArg (Async.await _) (funext fun r => ?_)
  cases r with
  | error e => rfl
  | ok existing =>
    by_cases h : maxSubscriptionsPerOwner ≤ existing
    · rw [counted, if_pos h]
      change (Async.ofExcept (rejectIf _ _) : Task Unit) >>= _ = _
      rw [rejectIf, if_pos h]
      rfl
    · rw [counted, if_neg h]
      change (Async.ofExcept (rejectIf _ _) : Task Unit) >>= _ = _
      rw [rejectIf, if_neg h]
      rfl

/-- A step takes a request to its next phase. -/
theorem phase_step {parser : UrlParser} {i : Request} {a : Act}
    {f : Except Error a.Answer → Task Reply} (h : Phase parser i (.await a f))
    (r : Except Error a.Answer) : Phase parser i (f r) := by
  generalize hrest : (Async.await a f : Task Reply) = rest at h
  cases h with
  | counting hcheck =>
    rw [insertCounted_eq] at hrest
    cases hrest
    cases r with
    | error e => exact .ended _ _
    | ok existing =>
      rw [counted]
      split
      · exact .ended _ _
      · exact .inserting hcheck
  | inserting hcheck =>
    cases hrest
    cases r <;> exact .ended _ _
  | finding principal id =>
    cases hrest
    cases r with
    | error e => exact .ended _ _
    | ok found =>
      change Phase parser _ ((Async.ofExcept (checkOwned principal id found) : Task Row) >>= _)
      cases checkOwned principal id found with
      | error e => exact .ended _ _
      | ok subscription => exact .deactivating principal id subscription
  | deactivating principal id subscription =>
    unfold revokeOwned at hrest
    split at hrest
    · cases hrest
    · cases hrest
      cases r <;> exact .ended _ _
  | ended i r => cases hrest

/-- The phases as assertions about the requests. -/
def phases (parser : UrlParser) : Outline (subscriptions parser) (fun _ _ => True) where
  Inv _ := True
  At _ i rest _ := Phase parser i rest
  start _ _ _ := phase_task parser _
  step _ hk _ hat := ⟨trivial, phase_step (hat _ _ hk) _⟩
  stable _ _ _ hat _ hj := hat _ _ hj
  environ {_ o} := nomatch o

/-- Every request of a run is in one of its phases. -/
theorem phase_after {parser : UrlParser} {table : Table} {ms : List (Move Request Choice Empty)}
    {k : Nat} {call : Call Request Act Act.Answer Error Reply}
    (h : (after parser table ms).calls[k]? = some call) : Phase parser call.input call.rest :=
  ((phases parser).exec (s := table) trivial Pool.meets_nil fun _ _ => trivial).2 k call h

theorem insert_inj {data data' : CreateData} (h : insert data = insert data') : data = data' :=
  Act.create.inj (Async.await.inj h).1

/-- A request starts before its insert. -/
theorem task_ne_insert (parser : UrlParser) (i : Request) (data : CreateData) :
    i.task parser ≠ insert data := by
  intro h
  cases i with
  | revoke principal id => cases (Async.await.inj h).1
  | register principal dto secret =>
    rw [Request.task] at h
    rcases register_cases parser principal dto secret with ⟨e, -, htask⟩ | ⟨data', -, htask⟩
    · cases htask.symm.trans h
    · cases (Async.await.inj (htask.symm.trans h)).1

/-- The step to an insert is the count. -/
theorem insertCounted_of_step {parser : UrlParser} {i : Request} {a : Act}
    {f : Except Error a.Answer → Task Reply} (h : Phase parser i (.await a f))
    {r : Except Error a.Answer} {data : CreateData} (hr : f r = insert data) :
    (.await a f : Task Reply) = insertCounted data := by
  generalize hrest : (Async.await a f : Task Reply) = rest at h
  cases h with
  | @counting _ _ _ data' hcheck =>
    have heq := hrest
    rw [insertCounted_eq] at hrest
    cases hrest
    cases r with
    | error e => cases hr
    | ok existing =>
      rw [counted] at hr
      split at hr
      · cases hr
      · rw [insert_inj hr]
  | inserting hcheck =>
    cases hrest
    cases r <;> cases hr
  | finding principal id =>
    cases hrest
    cases r with
    | error e => cases hr
    | ok found =>
      change ((Async.ofExcept (checkOwned principal id found) : Task Row) >>= _) = _ at hr
      cases hchecked : checkOwned principal id found with
      | error e =>
        rw [hchecked] at hr
        cases hr
      | ok subscription =>
        rw [hchecked] at hr
        change revokeOwned subscription = _ at hr
        unfold revokeOwned at hr
        split at hr
        · cases hr
        · cases (Async.await.inj hr).1
  | deactivating principal id subscription =>
    unfold revokeOwned at hrest
    split at hrest
    · cases hrest
    · cases hrest
      cases r <;> cases hr
  | ended i r => cases hrest

/-- The count that lets a registration go on to its insert has found fewer than the quota. -/
theorem room_of_step {data : CreateData} {a : Act} {f : Except Error a.Answer → Task Reply}
    (h : (.await a f : Task Reply) = insertCounted data) {c : Choice} {table : Table}
    (hr : f (perform a c table).1 = insert data) :
    table.active data.ownerId < maxSubscriptionsPerOwner := by
  rw [insertCounted_eq] at h
  cases h
  cases hanswer : (perform (.count data.ownerId) c table).1 with
  | error e =>
    rw [hanswer] at hr
    cases hr
  | ok existing =>
    rw [hanswer, counted] at hr
    split at hr
    · cases hr
    · next hroom =>
      rw [read_eq_ok hanswer]
      exact Nat.lt_of_not_le hroom

/-- A registration that is about to insert has counted before, fewer than the quota. -/
theorem counted_before {parser : UrlParser} {table : Table}
    {ms : List (Move Request Choice Empty)} {k : Nat} {data : CreateData}
    (h : (after parser table ms).Inserts k data) :
    ∃ ms₁ c ms₂, ms = ms₁ ++ .resume k c :: ms₂ ∧ (after parser table ms₁).Counts k data ∧
      (after parser table ms₁).state.active data.ownerId < maxSubscriptionsPerOwner := by
  obtain ⟨i, hk⟩ := h
  obtain ⟨ms₁, c, ms₂, a, f, rfl, hbefore, -, hstep⟩ := Service.entered
    (P := fun _ rest => rest = insert data) (fun i => task_ne_insert parser i data) hk rfl
  have hcounts := insertCounted_of_step (phase_after hbefore) hstep
  exact ⟨ms₁, c, ms₂, rfl, ⟨i, hbefore.trans (by rw [hcounts])⟩, room_of_step hcounts hstep⟩

/-- A count leaves the table as it is. -/
theorem Requests.Counts.state {parser : UrlParser} {p : Requests} {k : Nat} {data : CreateData}
    (h : p.Counts k data) (c : Choice) :
    ((subscriptions parser).move (.resume k c) p).state = p.state := by
  obtain ⟨i, hk⟩ := h
  rw [Requests.Left, insertCounted_eq] at hk
  rw [Service.move, hk]
  rfl

/-- The only statement that adds a row is the insert of a registration. -/
theorem insert_of_create {parser : UrlParser} {i : Request} {data : CreateData}
    {f : Except Error Row → Task Reply} (h : Phase parser i (.await (.create data) f)) :
    (.await (.create data) f : Task Reply) = insert data := by
  generalize hrest : (Async.await (.create data) f : Task Reply) = rest at h
  cases h with
  | counting hcheck =>
    rw [insertCounted_eq] at hrest
    cases hrest
  | inserting hcheck =>
    cases hrest
    rfl
  | finding principal id => cases hrest
  | deactivating principal id subscription =>
    unfold revokeOwned at hrest
    split at hrest <;> cases hrest
  | ended i r => cases hrest

/-! ## Refusals -/

theorem quotaError_eq :
    quotaError = .http 400 "A wallet may register at most 20 active webhook subscriptions" := by
  decide +kernel

theorem assertPublicWebhookUrl_error {parser : UrlParser} {rawUrl : String} {e : Error}
    (h : assertPublicWebhookUrl parser rawUrl = .error e) : e ≠ quotaError := by
  rw [quotaError_eq]
  simp only [assertPublicWebhookUrl, bind_eq_error, rejectIf_eq_error, okOr_eq_error] at h
  rcases h with ⟨-, rfl⟩ | ⟨-, -, ⟨-, rfl⟩ | ⟨url, -, ⟨-, rfl⟩ | ⟨-, -, ⟨-, rfl⟩ | ⟨-, -, h⟩⟩⟩⟩
  · decide +kernel
  · decide +kernel
  · decide +kernel
  · decide +kernel
  · cases h

theorem validateEventTypes_error {eventTypes : Option (List String)} {e : Error}
    (h : validateEventTypes eventTypes = .error e) : e ≠ quotaError := by
  rw [quotaError_eq]
  unfold validateEventTypes at h
  split at h
  · cases h
  · cases h
  · split at h
    · cases h
    · dsimp only at h
      split at h
      · cases h
        -- the two texts differ in their first letter
        intro heq
        have hhead := congrArg (fun text => text.toList.head?) (Error.http.inj heq).2
        simp only [String.toList_append] at hhead
        cases hhead
      · cases h

/-- No check of a registration fails with the error of the quota. -/
theorem checkRegistration_error {parser : UrlParser} {principal : Principal}
    {dto : CreateWebhookSubscriptionDto} {secret : String} {e : Error}
    (h : checkRegistration parser principal dto secret = .error e) : e ≠ quotaError := by
  unfold checkRegistration at h
  cases hurl : assertPublicWebhookUrl parser (dto.url.getD "") with
  | error e' =>
    rw [hurl] at h
    cases h
    exact assertPublicWebhookUrl_error hurl
  | ok url =>
    rw [hurl, ok_bind] at h
    cases htypes : validateEventTypes dto.eventTypes with
    | error e' =>
      rw [htypes] at h
      cases h
      exact validateEventTypes_error htypes
    | ok eventTypes =>
      rw [htypes] at h
      cases h

/-- A registration inserts a subscription of its principal. -/
theorem checkRegistration_owner {parser : UrlParser} {principal : Principal}
    {dto : CreateWebhookSubscriptionDto} {secret : String} {data : CreateData}
    (h : checkRegistration parser principal dto secret = .ok data) :
    data.ownerId = principal.walletAddress := by
  simp only [checkRegistration, bind_eq_ok, pure_eq_ok] at h
  obtain ⟨url, -, eventTypes, -, rfl⟩ := h
  rfl

/-- No statement fails with the error of the quota. -/
theorem perform_error {a : Act} {c : Choice} {table : Table} {e : Error}
    (h : (perform a c table).1 = .error e) : e ≠ quotaError := by
  cases a with
  | count ownerId | findUnique id =>
    rw [read_eq_error h]
    exact nofun
  | create data =>
    rcases transact_eq_error h with rfl | hbody
    · exact nofun
    · unfold Table.create at hbody
      split at hbody
      · cases hbody
        exact nofun
      · cases hbody
  | deactivate id =>
    rcases transact_eq_error h with rfl | hbody
    · exact nofun
    · unfold Table.deactivate at hbody
      split at hbody
      · cases hbody
        exact nofun
      · cases hbody

/-- A registration is not called with the error of the quota: it has counted. -/
theorem task_ne_quotaError (parser : UrlParser) (principal : Principal)
    (dto : CreateWebhookSubscriptionDto) (secret : String) :
    (Request.register principal dto secret).task parser ≠ .done (.error quotaError) := by
  intro h
  rw [Request.task] at h
  rcases register_cases parser principal dto secret with ⟨e, hcheck, htask⟩ | ⟨data, -, htask⟩
  · cases htask.symm.trans h
    exact checkRegistration_error hcheck rfl
  · cases htask.symm.trans h

/-- The step of a registration to the error of the quota is the count of as many active
subscriptions. -/
theorem full_of_step {parser : UrlParser} {principal : Principal}
    {dto : CreateWebhookSubscriptionDto} {secret : String} {a : Act}
    {f : Except Error a.Answer → Task Reply}
    (h : Phase parser (.register principal dto secret) (.await a f)) {c : Choice} {table : Table}
    (hr : f (perform a c table).1 = .done (.error quotaError)) :
    maxSubscriptionsPerOwner ≤ table.active principal.walletAddress := by
  generalize hrest : (Async.await a f : Task Reply) = rest at h
  cases h with
  | @counting _ _ _ data hcheck =>
    rw [insertCounted_eq] at hrest
    cases hrest
    cases hanswer : (perform (.count data.ownerId) c table).1 with
    | error e =>
      rw [hanswer] at hr
      cases hr
      exact absurd rfl (perform_error hanswer)
    | ok existing =>
      rw [hanswer, counted] at hr
      split at hr
      · next hfull =>
        rw [← checkRegistration_owner hcheck, read_eq_ok hanswer]
        exact hfull
      · cases hr
  | @inserting _ _ _ data hcheck =>
    cases hrest
    cases hanswer : (perform (.create data) c table).1 with
    | error e =>
      rw [hanswer] at hr
      cases hr
      exact absurd rfl (perform_error hanswer)
    | ok created =>
      rw [hanswer] at hr
      cases hr
  | ended i r => cases hrest

/-! ## The quota -/

/-- In the run, the registration `k` counts after the moves `ms₁`, and inserts its subscription
after the moves `ms₂` that follow. -/
def Inserted (parser : UrlParser) (table : Table) (ms : List (Move Request Choice Empty)) (k : Nat)
    (data : CreateData) (ms₁ : List (Move Request Choice Empty)) (c₁ : Choice)
    (ms₂ : List (Move Request Choice Empty)) : Prop :=
  ∃ c₂ ms₃, ms = ms₁ ++ .resume k c₁ :: (ms₂ ++ .resume k c₂ :: ms₃) ∧
    (after parser table ms₁).Counts k data ∧
    (after parser table (ms₁ ++ .resume k c₁ :: ms₂)).Inserts k data ∧
    c₂.fault ≠ .failed ∧
    c₂.uuid ∉ (after parser table (ms₁ ++ .resume k c₁ :: ms₂)).state.rows.map Row.id

/-- No registration is overtaken: between its count and its insert, the other requests add no more
active subscriptions of its wallet than they take away. -/
def NotOvertaken (parser : UrlParser) (table : Table) (ms : List (Move Request Choice Empty)) :
    Prop :=
  ∀ k data ms₁ c₁ ms₂, Inserted parser table ms k data ms₁ c₁ ms₂ →
    ((moved parser table (after parser table (ms₁ ++ [.resume k c₁])) ms₂).map
      (Moved.change data.ownerId)).sum ≤ 0

/-- The wallets keep to their quota at all times, and a registration that is refused for it was
waiting at a time when its wallet had used it up. -/
structure QuotaKept (parser : UrlParser) (table : Table) (ms : List (Move Request Choice Empty)) :
    Prop where
  bounded : ∀ ms₁, ms₁ <+: ms → ∀ wallet,
    (after parser table ms₁).state.active wallet ≤ maxSubscriptionsPerOwner
  refused : ∀ ms₁, ms₁ <+: ms → ∀ k principal dto secret,
    (after parser table ms₁).Left k (.register principal dto secret)
      (.done (.error quotaError)) →
    ∃ ms₂, ms₂ <+: ms₁ ∧
      (∃ a f, (after parser table ms₂).Left k (.register principal dto secret) (.await a f)) ∧
      maxSubscriptionsPerOwner ≤ (after parser table ms₂).state.active principal.walletAddress

theorem after_append (parser : UrlParser) (table : Table)
    (ms₁ ms₂ : List (Move Request Choice Empty)) :
    after parser table (ms₁ ++ ms₂) =
      ((subscriptions parser).machine table).exec (after parser table ms₁) ms₂ :=
  Machine.exec_append ..

/-- A refused registration was waiting when its wallet had used up the quota. -/
theorem refused_full {parser : UrlParser} {table : Table} {ms : List (Move Request Choice Empty)}
    {k : Nat} {principal : Principal} {dto : CreateWebhookSubscriptionDto} {secret : String}
    (h : (after parser table ms).Left k (.register principal dto secret)
      (.done (.error quotaError))) :
    ∃ ms₁, ms₁ <+: ms ∧
      (∃ a f, (after parser table ms₁).Left k (.register principal dto secret) (.await a f)) ∧
      maxSubscriptionsPerOwner ≤ (after parser table ms₁).state.active principal.walletAddress := by
  obtain ⟨ms₁, c, ms₂, a, f, rfl, hbefore, -, hstep⟩ := Service.entered
    (P := fun i rest => ∃ principal dto secret, i = Request.register principal dto secret ∧
      rest = .done (.error quotaError))
    (fun i ⟨principal, dto, secret, hi, hrest⟩ =>
      task_ne_quotaError parser principal dto secret (hi ▸ hrest)) h ⟨_, _, _, rfl, rfl⟩
  obtain ⟨_, _, _, -, hstep⟩ := hstep
  exact ⟨ms₁, List.prefix_append _ _, ⟨a, f, hbefore⟩, full_of_step (phase_after hbefore) hstep⟩

/-- A move adds to the active subscriptions of a wallet only by the insert of a registration. -/
theorem inserts_of_change {parser : UrlParser} {table : Table}
    {ms : List (Move Request Choice Empty)} {m : Move Request Choice Empty} {wallet : String}
    (h : (after parser table ms).state.active wallet <
      (after parser table (ms ++ [m])).state.active wallet) :
    (after parser table (ms ++ [m])).state.active wallet =
      (after parser table ms).state.active wallet + 1 ∧
    ∃ k c data, m = .resume k c ∧ (after parser table ms).Inserts k data ∧
      data.ownerId = wallet ∧ c.fault ≠ .failed ∧
      c.uuid ∉ (after parser table ms).state.rows.map Row.id := by
  have hmove := active_move parser wallet m (after parser table ms)
  have hafter : after parser table (ms ++ [m]) =
      (subscriptions parser).move m (after parser table ms) := Machine.exec_concat ..
  rw [← hafter] at hmove
  cases hstatement : Requests.statement (after parser table ms) m with
  | none =>
    rw [hstatement] at hmove
    dsimp only at hmove
    omega
  | some statement =>
    obtain ⟨a, c⟩ := statement
    rw [hstatement] at hmove
    dsimp only at hmove
    unfold Requests.statement at hstatement
    split at hstatement
    · next k c' =>
      split at hstatement
      · next i a' f hk =>
        cases hstatement
        cases a with
        | count | findUnique =>
          rw [Act.change] at hmove
          omega
        | deactivate id =>
          rw [Act.change] at hmove
          split at hmove <;> omega
        | create data =>
          rw [Act.change] at hmove
          split at hmove
          · next hcreated =>
            refine ⟨by omega, k, c, data, rfl, ⟨i, ?_⟩, hcreated⟩
            rw [Requests.Left, hk, insert_of_create (phase_after hk)]
          · omega
      · cases hstatement
    · cases hstatement

/-- At the insert of a registration that is not overtaken, its wallet has fewer active subscriptions
than the quota. -/
theorem room_at_insert {parser : UrlParser} {table : Table} {k : Nat} {data : CreateData}
    {ms₁ ms₂ : List (Move Request Choice Empty)} {c : Choice}
    (hcounts : (after parser table ms₁).Counts k data)
    (hroom : (after parser table ms₁).state.active data.ownerId < maxSubscriptionsPerOwner)
    (hbetween : ((moved parser table (after parser table (ms₁ ++ [.resume k c])) ms₂).map
      (Moved.change data.ownerId)).sum ≤ 0) :
    (after parser table (ms₁ ++ .resume k c :: ms₂)).state.active data.ownerId <
      maxSubscriptionsPerOwner := by
  have hcounted : (after parser table (ms₁ ++ [.resume k c])).state =
      (after parser table ms₁).state := by
    rw [after_append]
    exact hcounts.state c
  have hactive := active_moved parser table data.ownerId
    (after parser table (ms₁ ++ [.resume k c])) ms₂
  rw [← after_append, List.append_assoc, List.singleton_append, hcounted] at hactive
  omega

/-- **The quota of a wallet.** From a table that keeps to the quota, every run in which no
registration is overtaken keeps to it, and refuses only the registrations of a wallet that had used
it up while they waited. -/
theorem quotaKept_of_notOvertaken (parser : UrlParser) (table : Table)
    (hquota : ∀ wallet, table.active wallet ≤ maxSubscriptionsPerOwner)
    (ms : List (Move Request Choice Empty)) (h : NotOvertaken parser table ms) :
    QuotaKept parser table ms := by
  refine ⟨fun ms₁ hprefix => ?_, fun ms₁ _ k principal dto secret => refused_full⟩
  induction ms₁ using List.reverseRecOn with
  | nil => exact hquota
  | append_singleton ms₁ m ih =>
    intro wallet
    have hbefore := ih ((List.prefix_append _ _).trans hprefix) wallet
    rcases Nat.lt_or_ge ((after parser table ms₁).state.active wallet)
      ((after parser table (ms₁ ++ [m])).state.active wallet) with hlt | hge
    · -- the move is the insert of a registration, which has counted before
      obtain ⟨hactive, k, c, data, rfl, hinserts, rfl, hfault, hfresh⟩ := inserts_of_change hlt
      obtain ⟨ms₂, c₁, ms₃, rfl, hcounts, hroom⟩ := counted_before hinserts
      obtain ⟨rest, hrest⟩ := hprefix
      have hinserted : Inserted parser table ms k data ms₂ c₁ ms₃ :=
        ⟨c, rest, by rw [← hrest]; simp only [List.append_assoc, List.cons_append,
          List.nil_append], hcounts, hinserts, hfault, hfresh⟩
      have hfree := room_at_insert hcounts hroom (h k data ms₂ c₁ ms₃ hinserted)
      omega
    · exact hge.trans hbefore

/-- A parser of one URL of a public host. -/
def hookParser : UrlParser :=
  parserOf [("http://93.184.216.34/hook", .ipv4 ⟨93 * 2 ^ 24 + 184 * 2 ^ 16 + 216 * 2 ^ 8 + 34,
    by decide⟩)] (by decide)

/-- A wallet with 19 active subscriptions. -/
def nineteen : Table where
  rows := (List.range 19).map fun n =>
    ⟨⟨"GA", "http://93.184.216.34/hook", "secret", ["*"]⟩, toString n, true, 0, 0⟩
  nodup := by decide +kernel

/-- A registration of the wallet. -/
def registerHook : Request :=
  .register ⟨"u1", "GA", "smb"⟩ ⟨some "http://93.184.216.34/hook", none⟩ "secret"

theorem active_nineteen (wallet : String) : nineteen.active wallet ≤ maxSubscriptionsPerOwner :=
  List.countP_le_length.trans (by decide +kernel)

/-- One registration alone, which takes the last place. -/
theorem quotaKept_alone :
    QuotaKept hookParser nineteen
      [.start registerHook, .resume 0 ⟨.none, 1, "a"⟩, .resume 0 ⟨.none, 2, "b"⟩] := by
  refine quotaKept_of_notOvertaken hookParser nineteen active_nineteen _ ?_
  rintro k data ms₁ c₁ ms₂ ⟨c₂, ms₃, hms, -⟩
  -- the registration inserts in the move after its count
  cases ms₁ with
  | nil => cases hms
  | cons m ms₁ =>
    cases ms₁ with
    | nil =>
      cases ms₂ with
      | nil => exact Int.le_refl 0
      | cons m' ms₂ =>
        have hlength := congrArg List.length hms
        simp only [List.length_append, List.length_cons, List.length_nil] at hlength
        omega
    | cons m' ms₁ =>
      have hlength := congrArg List.length hms
      simp only [List.length_append, List.length_cons, List.length_nil] at hlength
      omega

/-- Two registrations that both count before they insert: the wallet has 21 active subscriptions. -/
theorem quota_exceeded :
    ¬ QuotaKept hookParser nineteen
      [.start registerHook, .start registerHook, .resume 0 ⟨.none, 1, "a"⟩,
        .resume 1 ⟨.none, 2, "b"⟩, .resume 0 ⟨.none, 3, "c"⟩, .resume 1 ⟨.none, 4, "d"⟩] := by
  intro hkept
  have hbound := hkept.bounded _ (List.prefix_refl _) "GA"
  revert hbound
  decide +kernel

end WebhookSubscriptions

end Backend

end InvoiceFi
