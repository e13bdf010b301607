import InvoiceFi.Backend.WebhookApi
import InvoiceFi.Lib.Coupling
import Mathlib.Data.List.Find

/-!
# What a wallet learns of the webhooks of others

Two histories of the webhook API, whose tables agree on the subscriptions of a wallet and on their
deliveries, are coupled (`isolation`). A request that is about a subscription of the wallet is the
same in both; everything else keeps to what is not of the wallet, and a request of the wallet for
the subscription of somebody else is refused by the one statement it makes, the look-up. So the
wallet cannot tell the histories apart, except by how it is refused: that tells whether a
subscription had the id when it was looked up (`requests_isolated`).

Subscriptions get random ids, so the ids of the wallet are a set `mine` that the ids of others are
not from.
-/

namespace InvoiceFi

namespace Backend

namespace WebhookApi

open Compliance (Principal isAdmin)
open WebhookSubscriptions (Row Table deactivated)

/-! ## What is of a wallet -/

section
variable (w : String) (mine : String → Bool)

/-- The subscriptions of the wallet. -/
def ownRows (table : Table) : List Row := table.rows.filter fun row => decide (row.ownerId = w)

/-- The deliveries to them. -/
def ownDeliveries (deliveries : List DeliveryRow) : List DeliveryRow :=
  deliveries.filter fun delivery => mine delivery.subscriptionId

/-- The subscriptions of the wallet are those with its ids. -/
def Apart (table : Table) : Prop := ∀ row ∈ table.rows, mine row.id = true ↔ row.ownerId = w

instance (table : Table) : Decidable (Apart w mine table) :=
  inferInstanceAs (Decidable (∀ row ∈ table.rows, _))

/-- The tables agree on what is of the wallet. -/
structure AgreeFor (s₁ s₂ : Store) : Prop where
  rows : ownRows w s₁.table = ownRows w s₂.table
  deliveries : ownDeliveries mine s₁.deliveries = ownDeliveries mine s₂.deliveries
  apart₁ : Apart w mine s₁.table
  apart₂ : Apart w mine s₂.table

/-- The statement is about the wallet only. -/
def OwnAct : Act → Prop
  | .subscription (.count ownerId) => ownerId = w
  | .subscription (.create data) => data.ownerId = w
  | .subscription (.findUnique id) | .subscription (.deactivate id) => mine id = true
  | .findSubscriptions ownerId => ownerId = some w
  | .findDeliveries subscriptionId _ _ => mine subscriptionId = true

/-- The statement changes nothing of the wallet. -/
def ForeignAct : Act → Prop
  | .subscription (.create data) => data.ownerId ≠ w
  | .subscription (.deactivate id) => mine id = false
  | _ => True

/-- The id that is drawn for a new subscription is one of the wallet's ids if the subscription is
the wallet's, and only then. -/
def Draws (c : Choice) : Act → Prop
  | .subscription (.create data) => mine c.uuid = true ↔ data.ownerId = w
  | _ => True

end

/-- What is known of an answer: a subscription that is found has the id that was looked for. -/
def Relies : (a : Act) → Except Error a.Answer → Prop
  | .subscription (.findUnique id), r => ∀ row, r = .ok (some row) → row.id = id
  | _, _ => True

variable {w : String} {mine : String → Bool} {table table' : Table} {s s₁ s₂ : Store} {a : Act}
  {c : Choice} {id : String}

/-! ### The table -/

/-- The insert of a subscription fails if its id is taken, and else adds it. -/
theorem create_cases (uuid : String) (now : Nat) (data : WebhookSubscriptions.CreateData)
    (table : Table) :
    (uuid ∈ table.rows.map Row.id ∧ table.create uuid now data = .error .uniqueViolation) ∨
    (uuid ∉ table.rows.map Row.id ∧ ∃ table',
      table'.rows = table.rows ++ [⟨data, uuid, true, now, now⟩] ∧
      table.create uuid now data = .ok (⟨data, uuid, true, now, now⟩, table')) := by
  unfold Table.create
  split
  · next h => exact .inl ⟨h, rfl⟩
  · next h => exact .inr ⟨h, _, rfl, rfl⟩

/-- The deactivation of a subscription fails if there is none with the id. -/
theorem deactivate_cases (id : String) (now : Nat) (table : Table) :
    (table.findUnique id = none ∧
      table.deactivate id now = .error (.database "Record to update not found.")) ∨
    ∃ row table', table.findUnique id = some row ∧
      table'.rows = table.rows.map (deactivated id now) ∧
      table.deactivate id now = .ok (deactivated id now row, table') := by
  unfold Table.deactivate
  split
  · next h => exact .inl ⟨h, rfl⟩
  · next row h => exact .inr ⟨row, _, h, rfl, rfl⟩

theorem deactivated_ownerId (id : String) (now : Nat) (row : Row) :
    (deactivated id now row).ownerId = row.ownerId := by
  unfold deactivated
  split <;> rfl

theorem deactivated_id (id : String) (now : Nat) (row : Row) :
    (deactivated id now row).id = row.id := by
  unfold deactivated
  split <;> rfl

theorem mem_ownRows {row : Row} : row ∈ ownRows w table ↔ row ∈ table.rows ∧ row.ownerId = w := by
  simp [ownRows]

/-- The active subscriptions of the wallet are counted among its own. -/
theorem active_eq : table.active w = (ownRows w table).countP fun row => row.active := by
  rw [Table.active, ownRows, List.countP_filter]
  refine List.countP_congr fun row _ => ?_
  simp [and_comm]

/-- A subscription with an id of the wallet is found among its own. -/
theorem findUnique_eq (h : Apart w mine table) (hid : mine id = true) :
    table.findUnique id = (ownRows w table).find? fun row => decide (row.id = id) := by
  rw [ownRows, List.find?_filter, Table.findUnique]
  refine List.find?_congr fun row hrow => ?_
  by_cases hrid : row.id = id
  · have howner : row.ownerId = w := (h row hrow).1 (hrid ▸ hid)
    simp [hrid, howner]
  · simp [hrid]

/-- An id of the wallet is taken if, and only if, one of its subscriptions has it. -/
theorem mem_ids_iff (h : Apart w mine table) (hid : mine id = true) :
    id ∈ table.rows.map Row.id ↔ id ∈ (ownRows w table).map Row.id := by
  simp only [List.mem_map, mem_ownRows]
  constructor
  · rintro ⟨row, hrow, rfl⟩
    exact ⟨row, ⟨hrow, (h row hrow).1 hid⟩, rfl⟩
  · rintro ⟨row, ⟨hrow, -⟩, rfl⟩
    exact ⟨row, hrow, rfl⟩

theorem ownRows_append {row : Row} (h : table'.rows = table.rows ++ [row]) :
    ownRows w table' = ownRows w table ++ if row.ownerId = w then [row] else [] := by
  rw [ownRows, h, List.filter_append, ownRows, List.filter_singleton]
  by_cases howner : row.ownerId = w
  · simp [howner]
  · simp [howner]

theorem ownRows_map {now : Nat} (h : table'.rows = table.rows.map (deactivated id now)) :
    ownRows w table' = (ownRows w table).map (deactivated id now) := by
  rw [ownRows, h, List.filter_map, ownRows]
  refine congrArg _ (List.filter_congr fun row _ => ?_)
  rw [Function.comp_apply, deactivated_ownerId]

theorem Apart.append (h : Apart w mine table) {row : Row}
    (hrows : table'.rows = table.rows ++ [row])
    (hrow : mine row.id = true ↔ row.ownerId = w) : Apart w mine table' := by
  intro other hother
  rw [hrows] at hother
  rcases List.mem_append.1 hother with hother | hother
  · exact h other hother
  · cases List.mem_singleton.1 hother
    exact hrow

theorem Apart.map (h : Apart w mine table) {now : Nat}
    (hrows : table'.rows = table.rows.map (deactivated id now)) : Apart w mine table' := by
  intro other hother
  rw [hrows] at hother
  obtain ⟨row, hrow, rfl⟩ := List.mem_map.1 hother
  rw [deactivated_id, deactivated_ownerId]
  exact h row hrow

/-- The deactivation of the subscription of somebody else leaves those of the wallet as they are. -/
theorem ownRows_map_foreign (h : Apart w mine table) (hid : mine id = false) (now : Nat) :
    (ownRows w table).map (deactivated id now) = ownRows w table := by
  refine (List.map_congr_left fun row hrow => ?_).trans (List.map_id _)
  obtain ⟨hrow, howner⟩ := mem_ownRows.1 hrow
  refine if_neg fun heq => ?_
  have hmine := (h row hrow).2 howner
  rw [heq, hid] at hmine
  cases hmine

/-! ### The statements -/

/-- What is known of an answer holds of the answer of every statement. -/
theorem relies_perform (a : Act) (c : Choice) (s : Store) : Relies a (perform a c s).1 := by
  cases a with
  | findSubscriptions ownerId => trivial
  | findDeliveries subscriptionId status limit => trivial
  | subscription a =>
    cases a with
    | count ownerId => trivial
    | create data => trivial
    | deactivate id => trivial
    | findUnique id =>
      intro row hrow
      exact WebhookSubscriptions.findUnique_id (read_eq_ok hrow)

/-- The insert of a subscription of the wallet. -/
theorem create_own {data : WebhookSubscriptions.CreateData} (howner : data.ownerId = w)
    (hc : mine c.uuid = true) (h : AgreeFor w mine s₁ s₂) :
    (perform (.subscription (.create data)) c s₁).1 =
      (perform (.subscription (.create data)) c s₂).1 ∧
    AgreeFor w mine (perform (.subscription (.create data)) c s₁).2
      (perform (.subscription (.create data)) c s₂).2 := by
  have htaken : c.uuid ∈ s₁.table.rows.map Row.id ↔ c.uuid ∈ s₂.table.rows.map Row.id := by
    rw [mem_ids_iff h.apart₁ hc, mem_ids_iff h.apart₂ hc, h.rows]
  simp only [perform, WebhookSubscriptions.perform]
  rcases create_cases c.uuid c.clock data s₁.table with
    ⟨hmem₁, hcreate₁⟩ | ⟨hfresh₁, t₁, hrows₁, hcreate₁⟩
  · rcases create_cases c.uuid c.clock data s₂.table with
      ⟨-, hcreate₂⟩ | ⟨hfresh₂, -⟩
    · unfold transact
      rw [hcreate₁, hcreate₂]
      cases c.fault with
      | none => exact ⟨rfl, h⟩
      | failed => exact ⟨rfl, h⟩
      | lost => exact ⟨rfl, h⟩
    · exact absurd (htaken.1 hmem₁) hfresh₂
  · rcases create_cases c.uuid c.clock data s₂.table with
      ⟨hmem₂, -⟩ | ⟨-, t₂, hrows₂, hcreate₂⟩
    · exact absurd (htaken.2 hmem₂) hfresh₁
    · have hafter : AgreeFor w mine { s₁ with table := t₁ } { s₂ with table := t₂ } :=
        ⟨by rw [ownRows_append hrows₁, ownRows_append hrows₂, h.rows], h.deliveries,
          h.apart₁.append hrows₁ (iff_of_true hc howner),
          h.apart₂.append hrows₂ (iff_of_true hc howner)⟩
      unfold transact
      rw [hcreate₁, hcreate₂]
      cases c.fault with
      | none => exact ⟨rfl, hafter⟩
      | failed => exact ⟨rfl, h⟩
      | lost => exact ⟨rfl, hafter⟩

/-- The deactivation of a subscription of the wallet. -/
theorem deactivate_own (hid : mine id = true) (h : AgreeFor w mine s₁ s₂) :
    (perform (.subscription (.deactivate id)) c s₁).1 =
      (perform (.subscription (.deactivate id)) c s₂).1 ∧
    AgreeFor w mine (perform (.subscription (.deactivate id)) c s₁).2
      (perform (.subscription (.deactivate id)) c s₂).2 := by
  have hfound : s₁.table.findUnique id = s₂.table.findUnique id := by
    rw [findUnique_eq h.apart₁ hid, findUnique_eq h.apart₂ hid, h.rows]
  simp only [perform, WebhookSubscriptions.perform]
  rcases deactivate_cases id c.clock s₁.table with
    ⟨hnone₁, hdeactivate₁⟩ | ⟨row₁, t₁, hrow₁, hrows₁, hdeactivate₁⟩
  · rcases deactivate_cases id c.clock s₂.table with
      ⟨-, hdeactivate₂⟩ | ⟨row₂, t₂, hrow₂, -⟩
    · unfold transact
      rw [hdeactivate₁, hdeactivate₂]
      cases c.fault with
      | none => exact ⟨rfl, h⟩
      | failed => exact ⟨rfl, h⟩
      | lost => exact ⟨rfl, h⟩
    · rw [hfound, hrow₂] at hnone₁
      cases hnone₁
  · rcases deactivate_cases id c.clock s₂.table with
      ⟨hnone₂, -⟩ | ⟨row₂, t₂, hrow₂, hrows₂, hdeactivate₂⟩
    · rw [hfound, hnone₂] at hrow₁
      cases hrow₁
    · rw [hfound, hrow₂] at hrow₁
      cases hrow₁
      have hafter : AgreeFor w mine { s₁ with table := t₁ } { s₂ with table := t₂ } :=
        ⟨by rw [ownRows_map hrows₁, ownRows_map hrows₂, h.rows], h.deliveries,
          h.apart₁.map hrows₁, h.apart₂.map hrows₂⟩
      unfold transact
      rw [hdeactivate₁, hdeactivate₂]
      cases c.fault with
      | none => exact ⟨rfl, hafter⟩
      | failed => exact ⟨rfl, h⟩
      | lost => exact ⟨rfl, hafter⟩

/-- A list of the wallet's subscriptions is one of its own. -/
theorem findSubscriptions_own (rows : List Row) :
    findSubscriptions (some w) rows =
      (rows.filter fun row => decide (row.ownerId = w)).mergeSort
        fun a b => decide (b.createdAt ≤ a.createdAt) := by
  simp [findSubscriptions]

/-- A list of the deliveries to a subscription of the wallet is one of its own. -/
theorem findDeliveries_own (hid : mine id = true) (status : Option WebhookWorker.DeliveryStatus)
    (limit : Nat) (deliveries : List DeliveryRow) :
    findDeliveries id status limit deliveries =
      findDeliveries id status limit (ownDeliveries mine deliveries) := by
  rw [findDeliveries, findDeliveries, ownDeliveries, List.filter_filter]
  have hfilter : ∀ delivery ∈ deliveries,
      decide (delivery.subscriptionId = id ∧ ∀ wanted ∈ status, delivery.status = wanted) =
        (decide (delivery.subscriptionId = id ∧ ∀ wanted ∈ status, delivery.status = wanted) &&
          mine delivery.subscriptionId) := by
    intro delivery _
    by_cases hsub : delivery.subscriptionId = id
    · rw [hsub, hid, Bool.and_true]
    · simp [hsub]
  rw [List.filter_congr hfilter]

/-- A statement about the wallet only has the same answer in both, and keeps the agreement. -/
theorem perform_own (ha : OwnAct w mine a) (hc : Draws w mine c a) (h : AgreeFor w mine s₁ s₂) :
    (perform a c s₁).1 = (perform a c s₂).1 ∧
      AgreeFor w mine (perform a c s₁).2 (perform a c s₂).2 := by
  cases a with
  | findSubscriptions ownerId =>
    cases ha
    refine ⟨congrArg (read c.fault) ?_, h⟩
    rw [findSubscriptions_own, findSubscriptions_own]
    exact congrArg (List.mergeSort · _) h.rows
  | findDeliveries subscriptionId status limit =>
    refine ⟨congrArg (read c.fault) ?_, h⟩
    rw [findDeliveries_own ha, h.deliveries, ← findDeliveries_own ha]
  | subscription a =>
    cases a with
    | count ownerId =>
      cases ha
      refine ⟨congrArg (read c.fault) ?_, h⟩
      rw [active_eq, active_eq, h.rows]
    | create data => exact create_own ha (hc.2 ha) h
    | findUnique id =>
      refine ⟨congrArg (read c.fault) ?_, h⟩
      rw [findUnique_eq h.apart₁ ha, findUnique_eq h.apart₂ ha, h.rows]
    | deactivate id => exact deactivate_own ha h

/-- A statement that changes nothing of the wallet keeps the agreement with the tables before. -/
theorem perform_foreign (ha : ForeignAct w mine a) (hc : Draws w mine c a)
    (h : Apart w mine s.table) : AgreeFor w mine s (perform a c s).2 := by
  have hrefl : AgreeFor w mine s s := ⟨rfl, rfl, h, h⟩
  cases a with
  | findSubscriptions ownerId => exact hrefl
  | findDeliveries subscriptionId status limit => exact hrefl
  | subscription a =>
    cases a with
    | count ownerId => exact hrefl
    | findUnique id => exact hrefl
    | create data =>
      refine transact_invariant (P := fun table => AgreeFor w mine s { s with table := table }) hrefl
        fun row table' hcreate => ?_
      rcases create_cases c.uuid c.clock data s.table with ⟨-, herror⟩ | ⟨-, t, hrows, hok⟩
      · cases hcreate.symm.trans herror
      · cases hcreate.symm.trans hok
        refine ⟨?_, rfl, h, h.append hrows hc⟩
        rw [ownRows_append hrows, if_neg ha, List.append_nil]
    | deactivate id =>
      refine transact_invariant (P := fun table => AgreeFor w mine s { s with table := table }) hrefl
        fun row table' hdeactivate => ?_
      rcases deactivate_cases id c.clock s.table with ⟨-, herror⟩ | ⟨row, t, -, hrows, hok⟩
      · cases hdeactivate.symm.trans herror
      · cases hdeactivate.symm.trans hok
        refine ⟨?_, rfl, h, h.map hrows⟩
        rw [ownRows_map hrows, ownRows_map_foreign h ha]

theorem AgreeFor.symm (h : AgreeFor w mine s₁ s₂) : AgreeFor w mine s₂ s₁ :=
  ⟨h.rows.symm, h.deliveries.symm, h.apart₂, h.apart₁⟩

theorem AgreeFor.trans {s₃ : Store} (h : AgreeFor w mine s₁ s₂) (h' : AgreeFor w mine s₂ s₃) :
    AgreeFor w mine s₁ s₃ :=
  ⟨h.rows.trans h'.rows, h.deliveries.trans h'.deliveries, h.apart₁, h'.apart₂⟩

/-! ## The programs -/

/-- How a wallet is refused a subscription that is not its own: by whether the table has one with
the id when it is looked up, unless the look-up fails. -/
def refusal (id : String) (c : Choice) (table : Table) : Error :=
  if c.fault ≠ .none then connectionLost
  else if id ∈ table.rows.map Row.id then .http 403 "Not the owner of this webhook subscription"
  else .http 404 ("Webhook subscription " ++ id ++ " not found")

/-- The id of the subscription that the operation is about. -/
def Operation.about : Operation → Option String
  | .create .. | .list _ => none
  | .revoke id | .listDeliveries id _ _ => some id

section
variable {guar : Act → Prop} {rely : (a : Act) → Except Error a.Answer → Prop}
  {principal : Principal} {parser : UrlParser} {operation : Operation}

/-- What is found for the principal has the id that was looked for. -/
theorem keeps_findOwned (hfind : guar (.subscription (.findUnique id))) :
    (findOwned principal id).Keeps guar Relies (Async.Returns fun row => row.id = id) := by
  refine ⟨hfind, fun r hr => ?_⟩
  cases r with
  | error e => trivial
  | ok found =>
    cases found with
    | none => trivial
    | some row =>
      have hid : row.id = id := hr row rfl
      change Async.Returns (fun row => row.id = id) (WebhookSubscriptions.checkOwned principal id _)
      rw [WebhookSubscriptions.checkOwned]
      split
      · trivial
      · exact hid

/-- The wallet is refused what is not its own. -/
theorem checkOwned_foreign (hw : principal.walletAddress = w) (hadmin : isAdmin principal = false)
    (hid : mine id = false) (h : Apart w mine table) (c : Choice) :
    (read c.fault (table.findUnique id) >>= WebhookSubscriptions.checkOwned principal id) =
      .error (refusal id c table) := by
  unfold read refusal
  by_cases hfault : c.fault = .none
  · rw [if_pos hfault, if_neg (not_not_intro hfault), ok_bind]
    cases hfound : table.findUnique id with
    | none =>
      have hfree : id ∉ table.rows.map Row.id := by
        intro hmem
        obtain ⟨row, hrow, hrid⟩ := List.mem_map.1 hmem
        exact List.find?_eq_none.1 hfound row hrow (decide_eq_true hrid)
      rw [if_neg hfree]
      rfl
    | some row =>
      have hrow : row ∈ table.rows := List.mem_of_find?_eq_some hfound
      have hrid : row.id = id := WebhookSubscriptions.findUnique_id hfound
      have howner : row.ownerId ≠ principal.walletAddress := by
        intro heq
        have hmine := (h row hrow).2 (heq.trans hw)
        rw [hrid, hid] at hmine
        cases hmine
      rw [if_pos (List.mem_map.2 ⟨row, hrow, hrid⟩), WebhookSubscriptions.checkOwned,
        if_pos ⟨hadmin, howner⟩]
  · rw [if_neg hfault, if_pos hfault]
    rfl

/-- A revocation finds the subscription and deactivates it. -/
theorem revoke_eq (principal : Principal) (id : String) :
    subscriptionTask (WebhookSubscriptions.revoke principal id) =
      findOwned principal id >>= fun row =>
        subscriptionTask (WebhookSubscriptions.revokeOwned row) := by
  refine congrArg (Async.await _) (funext fun r => ?_)
  cases r with
  | error e => rfl
  | ok found =>
    change Async.embed _ _ (Async.ofExcept (WebhookSubscriptions.checkOwned principal id found) >>=
      WebhookSubscriptions.revokeOwned) = _
    cases hcheck : WebhookSubscriptions.checkOwned principal id found with
    | error e =>
      change _ = (Async.ofExcept (WebhookSubscriptions.checkOwned principal id found) >>= _)
      rw [hcheck]
      rfl
    | ok row =>
      change _ = (Async.ofExcept (WebhookSubscriptions.checkOwned principal id found) >>= _)
      rw [hcheck]
      rfl

theorem keeps_revokeOwned {row : Row} (h : guar (.subscription (.deactivate row.id))) :
    (subscriptionTask (WebhookSubscriptions.revokeOwned row)).Keeps guar rely fun _ => True := by
  unfold WebhookSubscriptions.revokeOwned
  split
  · trivial
  · refine ⟨h, fun r _ => ?_⟩
    cases r with
    | error e => trivial
    | ok row' => trivial

theorem keeps_listForSubscription (status : Option String) (limit : Option Limit)
    (h : ∀ wanted limit, guar (.findDeliveries id wanted limit)) :
    (listForSubscription id status limit).Keeps guar rely fun _ => True := by
  unfold listForSubscription
  cases checkStatus status with
  | error e => trivial
  | ok wanted =>
    refine ⟨h wanted _, fun r _ => ?_⟩
    cases r with
    | error e => trivial
    | ok deliveries => trivial

/-- A registration counts the subscriptions of its wallet and inserts one of them. -/
theorem keeps_register (dto : WebhookSubscriptions.CreateWebhookSubscriptionDto) (secret : String)
    (hcount : guar (.subscription (.count principal.walletAddress)))
    (hcreate : ∀ data : WebhookSubscriptions.CreateData,
      data.ownerId = principal.walletAddress → guar (.subscription (.create data))) :
    (subscriptionTask (WebhookSubscriptions.register parser principal dto secret)).Keeps guar rely
      fun _ => True := by
  rcases WebhookSubscriptions.register_cases parser principal dto secret with
    ⟨e, -, htask⟩ | ⟨data, hcheck, htask⟩
  · rw [htask]
    trivial
  · have howner := WebhookSubscriptions.checkRegistration_owner hcheck
    rw [htask]
    refine ⟨howner ▸ hcount, fun r _ => ?_⟩
    cases r with
    | error e => trivial
    | ok existing =>
      change Async.Keeps guar rely _ (Async.embed _ _ (Async.ofExcept (rejectIf
        (WebhookSubscriptions.maxSubscriptionsPerOwner ≤ existing)
        WebhookSubscriptions.quotaError) >>= fun _ => WebhookSubscriptions.insert data))
      unfold rejectIf
      split
      · trivial
      · refine ⟨hcreate data howner, fun r _ => ?_⟩
        cases r with
        | error e => trivial
        | ok row => trivial

/-- What follows a program that promises nothing. -/
theorem keeps_map {α : Type} {p : Task α} (f : α → Response)
    (h : p.Keeps guar rely fun _ => True) : (f <$> p).Keeps guar rely fun _ => True :=
  h.bind (fun _ _ => trivial) fun _ _ => trivial

/-- An operation about a subscription finds it, and then revokes it or reads its deliveries. -/
theorem keeps_about (habout : operation.about = some id)
    (hfind : guar (.subscription (.findUnique id)))
    (hdeactivate : guar (.subscription (.deactivate id)))
    (hlist : ∀ wanted limit, guar (.findDeliveries id wanted limit)) :
    (serve parser principal operation).Keeps guar Relies fun _ => True := by
  cases operation with
  | create dto secret => cases habout
  | list ownerId => cases habout
  | revoke id =>
    cases habout
    refine keeps_map _ ?_
    rw [revoke_eq]
    exact (keeps_findOwned hfind).bind (fun row hrow => keeps_revokeOwned (hrow ▸ hdeactivate))
      fun _ _ => trivial
  | listDeliveries id status limit =>
    cases habout
    exact (keeps_findOwned hfind).bind (fun _ _ => keeps_listForSubscription status _ hlist)
      fun _ _ => trivial

/-- An operation about a subscription looks it up first, and goes on only if the principal may have
it. -/
theorem serve_about (habout : operation.about = some id) :
    ∃ g : Row → Task Response, serve parser principal operation = findOwned principal id >>= g := by
  cases operation with
  | create dto secret => cases habout
  | list ownerId => cases habout
  | revoke id =>
    cases habout
    refine ⟨fun row => .replied <$> subscriptionTask (WebhookSubscriptions.revokeOwned row), ?_⟩
    rw [serve, revoke_eq, map_bind]
  | listDeliveries id status limit =>
    cases habout
    exact ⟨fun _ => listForSubscription id status (limit.map limitOf), rfl⟩

/-- So an operation about what is not the wallet's is refused by its look-up. -/
theorem serve_foreign (habout : operation.about = some id) (hw : principal.walletAddress = w)
    (hadmin : isAdmin principal = false) (hid : mine id = false) :
    ∃ f, serve parser principal operation = .await (.subscription (.findUnique id)) f ∧
      ∀ (c : Choice) (s : Store), Apart w mine s.table →
        f (perform (.subscription (.findUnique id)) c s).1 =
          .done (.error (refusal id c s.table)) := by
  obtain ⟨g, hserve⟩ := @serve_about _ principal parser operation habout
  refine ⟨_, hserve, fun c s hs => ?_⟩
  have hcheck := checkOwned_foreign hw hadmin hid hs c
  change (Async.done (read c.fault (s.table.findUnique id)) >>= fun found =>
    Async.ofExcept (WebhookSubscriptions.checkOwned principal id found) : Task Row) >>= g = _
  cases hread : read c.fault (s.table.findUnique id) with
  | error e =>
    rw [hread] at hcheck
    exact congrArg (fun e => Async.done (.error e)) (Except.error.inj hcheck)
  | ok found =>
    rw [hread, ok_bind] at hcheck
    change Async.ofExcept (WebhookSubscriptions.checkOwned principal id found) >>= g = _
    rw [hcheck]
    rfl

/-- The wallet registers and lists its own subscriptions. -/
theorem own_serve (habout : operation.about = none) (hw : principal.walletAddress = w)
    (hadmin : isAdmin principal = false) :
    (serve parser principal operation).Keeps (OwnAct w mine) rely fun _ => True := by
  cases operation with
  | create dto secret =>
    exact keeps_map _ (keeps_register dto secret hw fun data howner => howner.trans hw)
  | list ownerId =>
    change Async.Keeps _ _ _ (list principal ownerId)
    rw [list, hadmin]
    refine ⟨congrArg some hw, fun r _ => ?_⟩
    cases r with
    | error e => trivial
    | ok rows => trivial
  | revoke id => cases habout
  | listDeliveries id status limit => cases habout

/-- Others register subscriptions that are not the wallet's, and may list any. -/
theorem foreign_serve (habout : operation.about = none) (hw : principal.walletAddress ≠ w) :
    (serve parser principal operation).Keeps (ForeignAct w mine) rely fun _ => True := by
  cases operation with
  | create dto secret =>
    exact keeps_map _ (keeps_register dto secret trivial fun data howner heq =>
      hw (howner.symm.trans heq))
  | list ownerId =>
    refine ⟨trivial, fun r _ => ?_⟩
    cases r with
    | error e => trivial
    | ok rows => trivial
  | revoke id => cases habout
  | listDeliveries id status limit => cases habout

end

/-! ## Two histories -/

/-- The action that a program awaits. -/
def nextAct : Task Response → Option Act
  | .await a _ => some a
  | .done _ => none

instance (w : String) (mine : String → Bool) (c : Choice) : (a : Act) → Decidable (Draws w mine c a)
  | .subscription (.create _) => inferInstanceAs (Decidable (_ ↔ _))
  | .subscription (.count _) | .subscription (.findUnique _) | .subscription (.deactivate _)
  | .findSubscriptions _ | .findDeliveries .. => inferInstanceAs (Decidable True)

section
variable (api : WebhooksController) (w : String) (mine : String → Bool)

/-- The call is a request of the wallet. -/
def IsOf (call : ApiCall) : Prop :=
  ∃ principal ∈ (api.principal call).toOption, principal.walletAddress = w

instance (call : ApiCall) : Decidable (IsOf api w call) :=
  inferInstanceAs (Decidable (∃ principal ∈ (api.principal call).toOption, _))

/-- The move does not present the token of an admin for the wallet, and draws an id of the wallet
for its subscriptions only. -/
def Permitted (p : Requests) : ApiMove → Prop
  | .start call => ∀ principal ∈ (api.principal call).toOption, principal.walletAddress = w →
      isAdmin principal = false
  | .resume k c => ∀ call ∈ p.calls[k]?, ∀ a ∈ nextAct call.rest, Draws w mine c a
  | .environ _ => True

instance (p : Requests) : (m : ApiMove) → Decidable (Permitted api w mine p m)
  | .start call => inferInstanceAs (Decidable (∀ principal ∈ (api.principal call).toOption, _))
  | .resume k _ => inferInstanceAs (Decidable (∀ call ∈ p.calls[k]?, _))
  | .environ _ => inferInstanceAs (Decidable True)

/-- The deliveries that others write agree on those of the wallet. -/
def SameDeliveries (deliveries₁ deliveries₂ : List DeliveryRow) : Prop :=
  ownDeliveries mine deliveries₁ = ownDeliveries mine deliveries₂

/-- The call is a request of the wallet, which is no admin, about a subscription that is not its
own. -/
structure Intrudes (call : ApiCall) (id : String) : Prop where
  principal : ∃ principal, api.principal call = .ok principal ∧ principal.walletAddress = w ∧
    isAdmin principal = false
  about : call.operation.about = some id
  foreign : mine id = false

/-- What is left of a call in two histories. -/
inductive Related : ApiCall → Task Response → Task Response → Prop
  /-- A call about the wallet only is the same in both. -/
  | own {call : ApiCall} {q : Task Response}
      (h : q.Keeps (OwnAct w mine) Relies fun _ => True) : Related call q q
  /-- A call of others changes nothing of the wallet. -/
  | foreign {call : ApiCall} {q₁ q₂ : Task Response} (hof : ¬ IsOf api w call)
      (h₁ : q₁.Keeps (ForeignAct w mine) Relies fun _ => True)
      (h₂ : q₂.Keeps (ForeignAct w mine) Relies fun _ => True) : Related call q₁ q₂
  /-- A call of the wallet for what is not its own is about to look it up in both. -/
  | asking {call : ApiCall} {id : String} (h : Intrudes api w mine call id) :
      Related call (api.main call) (api.main call)
  /-- Or it has been refused in both. -/
  | refused {call : ApiCall} {id : String} {r₁ r₂ : Except Error Response}
      (h : Intrudes api w mine call id) : Related call (.done r₁) (.done r₂)

end

section
variable {api : WebhooksController} {call : ApiCall} {q q₁ q₂ : Task Response} {k : Nat}

/-- A call for what is not the wallet's is refused by its look-up. -/
theorem Intrudes.main (h : Intrudes api w mine call id) :
    ∃ f, api.main call = .await (.subscription (.findUnique id)) f ∧
      ∀ (c : Choice) (s : Store), Apart w mine s.table →
        f (perform (.subscription (.findUnique id)) c s).1 =
          .done (.error (refusal id c s.table)) := by
  obtain ⟨principal, hp, hw, hadmin⟩ := h.principal
  unfold WebhooksController.main
  rw [hp]
  exact serve_foreign h.about hw hadmin h.foreign

theorem Intrudes.main_ne_done (h : Intrudes api w mine call id) (r : Except Error Response) :
    api.main call ≠ .done r := by
  obtain ⟨f, hmain, -⟩ := h.main
  rw [hmain]
  intro heq
  cases heq

/-- Its look-up leaves the tables as they are. -/
theorem Intrudes.advance (h : Intrudes api w mine call id) (hs : Apart w mine s.table)
    (c : Choice) :
    (api.main call).advance perform c s = (.done (.error (refusal id c s.table)), s) := by
  obtain ⟨f, hmain, hrefused⟩ := h.main
  rw [hmain, Async.advance, hrefused c s hs]
  rfl

/-- Every call starts alike. -/
theorem related_start
    (hadmin : ∀ principal ∈ (api.principal call).toOption, principal.walletAddress = w →
      isAdmin principal = false) : Related api w mine call (api.main call) (api.main call) := by
  cases hp : api.principal call with
  | error e =>
    unfold WebhooksController.main
    rw [hp]
    exact .own trivial
  | ok principal =>
    have hmain : api.main call = serve api.parser principal call.operation := by
      unfold WebhooksController.main
      rw [hp]
      rfl
    have hrequester : principal ∈ (api.principal call).toOption := by
      rw [hp]
      rfl
    have hof : IsOf api w call → principal.walletAddress = w := by
      rintro ⟨principal', hprincipal', hw⟩
      rw [hp] at hprincipal'
      cases hprincipal'
      exact hw
    by_cases hw : principal.walletAddress = w
    · cases habout : call.operation.about with
      | none =>
        rw [hmain]
        exact .own (own_serve habout hw (hadmin principal hrequester hw))
      | some id =>
        cases hid : mine id with
        | true =>
          rw [hmain]
          exact .own (keeps_about habout hid hid fun _ _ => hid)
        | false =>
          exact .asking ⟨⟨principal, hp, hw, hadmin principal hrequester hw⟩, habout, hid⟩
    · rw [hmain]
      cases habout : call.operation.about with
      | none =>
        exact .foreign (fun h => hw (hof h)) (foreign_serve habout hw) (foreign_serve habout hw)
      | some id =>
        cases hid : mine id with
        | true => exact .own (keeps_about habout hid hid fun _ _ => hid)
        | false =>
          have hforeign : (serve api.parser principal call.operation).Keeps (ForeignAct w mine)
              Relies fun _ => True :=
            keeps_about habout trivial hid fun _ _ => trivial
          exact .foreign (fun h => hw (hof h)) hforeign hforeign

/-- A step of a call that changes nothing of the wallet. -/
theorem foreign_advance (h : q.Keeps (ForeignAct w mine) Relies fun _ => True)
    (hc : ∀ a ∈ nextAct q, Draws w mine c a) (hs : Apart w mine s.table) :
    AgreeFor w mine s (q.advance perform c s).2 ∧
      (q.advance perform c s).1.Keeps (ForeignAct w mine) Relies fun _ => True := by
  cases q with
  | done r => exact ⟨⟨rfl, rfl, hs, hs⟩, h⟩
  | await a f => exact ⟨perform_foreign h.1 (hc a rfl) hs, h.2 _ (relies_perform a c s)⟩

/-- A step of a call that is the same in both. -/
theorem own_advance (h : q.Keeps (OwnAct w mine) Relies fun _ => True)
    (hc : ∀ a ∈ nextAct q, Draws w mine c a) (hagree : AgreeFor w mine s₁ s₂) :
    AgreeFor w mine (q.advance perform c s₁).2 (q.advance perform c s₂).2 ∧
      Related api w mine call (q.advance perform c s₁).1 (q.advance perform c s₂).1 := by
  cases q with
  | done r => exact ⟨hagree, .own h⟩
  | await a f =>
    obtain ⟨hanswer, hafter⟩ := perform_own h.1 (hc a rfl) hagree
    refine ⟨hafter, ?_⟩
    simp only [Async.advance]
    rw [← hanswer]
    exact .own (h.2 _ (relies_perform a c s₁))

/-- The step of a call in two histories. -/
theorem related_advance (h : Related api w mine call q₁ q₂)
    (hc₁ : ∀ a ∈ nextAct q₁, Draws w mine c a) (hc₂ : ∀ a ∈ nextAct q₂, Draws w mine c a)
    (hagree : AgreeFor w mine s₁ s₂) :
    AgreeFor w mine (q₁.advance perform c s₁).2 (q₂.advance perform c s₂).2 ∧
      Related api w mine call (q₁.advance perform c s₁).1 (q₂.advance perform c s₂).1 := by
  cases h with
  | own h => exact own_advance h hc₁ hagree
  | foreign hof h₁ h₂ =>
    obtain ⟨hagree₁, hrest₁⟩ := foreign_advance h₁ hc₁ hagree.apart₁
    obtain ⟨hagree₂, hrest₂⟩ := foreign_advance h₂ hc₂ hagree.apart₂
    exact ⟨hagree₁.symm.trans (hagree.trans hagree₂), .foreign hof hrest₁ hrest₂⟩
  | asking h =>
    rw [h.advance hagree.apart₁, h.advance hagree.apart₂]
    exact ⟨hagree, .refused h⟩
  | refused h => exact ⟨hagree, .refused h⟩

end

/-- Where the one history is about to look up what is not the wallet's, so is the other. -/
theorem Intrudes.related_main {api : WebhooksController} {call : ApiCall} {q : Task Response}
    (h : Intrudes api w mine call id) (hq : Related api w mine call (api.main call) q) :
    q = api.main call := by
  generalize hmain : api.main call = q₁ at hq
  cases hq with
  | own _ => rfl
  | foreign hof _ _ =>
    obtain ⟨principal, hp, hw, -⟩ := h.principal
    refine absurd ⟨principal, ?_, hw⟩ hof
    rw [hp]
    rfl
  | asking _ => rfl
  | refused _ => exact absurd hmain (h.main_ne_done _)

/-- Two histories that differ in what is not of the wallet, side by side. -/
def isolation (api : WebhooksController) (w : String) (mine : String → Bool) :
    Coupling (webhookApi api) (Permitted api w mine) (SameDeliveries mine) where
  Inv := AgreeFor w mine
  At call q₁ q₂ _ _ := Related api w mine call q₁ q₂
  start hok _ _ := related_start hok
  step := by
    intro p₁ p₂ k c call q₁ q₂ hok₁ hok₂ hk₁ hk₂ hinv hat
    obtain ⟨hagree, hrests⟩ := related_advance hat (hok₁ _ hk₁) (hok₂ _ hk₂) hinv
    exact ⟨hagree, hrests, fun _ _ _ h => h⟩
  environ hout hinv := ⟨⟨hinv.rows, hout, hinv.apart₁, hinv.apart₂⟩, fun _ _ _ h => h⟩

section
variable {api : WebhooksController} {call : ApiCall} {k : Nat} {ms : List ApiMove}

/-- A call that has ended has taken its first step. -/
theorem first_step (hmain : ∀ r, api.main call ≠ .done r) {r : Except Error Response}
    (hcall : (((webhookApi api).machine s).exec ⟨s, []⟩ ms).calls[k]? = some ⟨call, .done r⟩) :
    ∃ ms₁ c ms₂, ms = ms₁ ++ .resume k c :: ms₂ ∧
      (((webhookApi api).machine s).exec ⟨s, []⟩ ms₁).calls[k]? = some ⟨call, api.main call⟩ := by
  obtain ⟨ms₁, c, ms₂, a, f, hms, hwas, hstart, -⟩ :=
    Service.entered (P := fun i rest => rest ≠ api.main i) (fun i h => h rfl) hcall
      (hmain r).symm
  refine ⟨ms₁, c, ms₂, hms, ?_⟩
  rw [hwas, not_not.1 hstart]

/-- From its look-up on, a call for what is not the wallet's is refused by what the table held. -/
theorem Intrudes.refused (h : Intrudes api w mine call id) {ms₁ : List ApiMove}
    (hs : Apart w mine (((webhookApi api).machine s).exec ⟨s, []⟩ ms₁).state.table)
    (hcall : (((webhookApi api).machine s).exec ⟨s, []⟩ ms₁).calls[k]? =
      some ⟨call, api.main call⟩) (c : Choice) (ms₂ : List ApiMove) :
    (((webhookApi api).machine s).exec ⟨s, []⟩ (ms₁ ++ .resume k c :: ms₂)).calls[k]? =
      some ⟨call, .done (.error (refusal id c
        (((webhookApi api).machine s).exec ⟨s, []⟩ ms₁).state.table))⟩ := by
  rw [Machine.exec_append]
  refine ((webhookApi api).ended_later (s := s) (i := call) ?_ ms₂).1
  change ((webhookApi api).move (.resume k c) _).calls[k]? = _
  rw [Service.move_resume hcall]
  dsimp only
  rw [List.getElem?_set_self (List.getElem?_eq_some_iff.1 hcall).1]
  exact congrArg (fun x => some (Call.mk call x.1)) (h.advance hs c)

end

/-- Two histories refuse a call by the same look-up, each by what its own table holds of the id. -/
def RefusedBy (api : WebhooksController) (s₁ s₂ : Store) (ms₁ ms₂ : List ApiMove) (k : Nat)
    (id : String) (rest₁ rest₂ : Task Response) : Prop :=
  ∃ before₁ before₂ c after₁ after₂,
    before₁.length = before₂.length ∧
    ms₁ = before₁ ++ .resume k c :: after₁ ∧ ms₂ = before₂ ++ .resume k c :: after₂ ∧
    rest₁ = .done (.error (refusal id c
      (((webhookApi api).machine s₁).exec ⟨s₁, []⟩ before₁).state.table)) ∧
    rest₂ = .done (.error (refusal id c
      (((webhookApi api).machine s₂).exec ⟨s₂, []⟩ before₂).state.table))

/-- **What a wallet learns of the webhooks of others.** In two histories of the API, from tables
that agree on the subscriptions of a wallet and on their deliveries, with the same requests and with
deliveries that agree on those of the wallet, what is of the wallet stays the same, and so does each
of its requests, except for how it is refused a subscription of others: by whether one had the id
when it was looked up, or because the look-up failed in both. -/
theorem requests_isolated (api : WebhooksController) {w : String} {mine : String → Bool}
    {s₁ s₂ : Store} (hagree : AgreeFor w mine s₁ s₂) {ms₁ ms₂ : List ApiMove}
    (hms : List.Forall₂ (SameMove (SameDeliveries mine)) ms₁ ms₂)
    (hok₁ : ∀ t ∈ ((webhookApi api).machine s₁).trace ⟨s₁, []⟩ ms₁,
      Permitted api w mine t.pre t.input)
    (hok₂ : ∀ t ∈ ((webhookApi api).machine s₂).trace ⟨s₂, []⟩ ms₂,
      Permitted api w mine t.pre t.input) :
    let p₁ := ((webhookApi api).machine s₁).exec ⟨s₁, []⟩ ms₁
    let p₂ := ((webhookApi api).machine s₂).exec ⟨s₂, []⟩ ms₂
    AgreeFor w mine p₁.state p₂.state ∧
      ∀ (k : Nat) call₁, p₁.calls[k]? = some call₁ → IsOf api w call₁.input →
        ∃ call₂, p₂.calls[k]? = some call₂ ∧ (call₂ = call₁ ∨ call₂.input = call₁.input ∧
          ∃ id, call₁.input.operation.about = some id ∧ mine id = false ∧
            RefusedBy api s₁ s₂ ms₁ ms₂ k id call₁.rest call₂.rest) := by
  intro p₁ p₂
  have hholds : (isolation api w mine).Holds p₁ p₂ :=
    (isolation api w mine).exec ((isolation api w mine).holds_nil hagree) hms hok₁ hok₂
  refine ⟨hholds.inv, fun k call₁ hk₁ hof => ?_⟩
  obtain ⟨call₂, hk₂⟩ := hholds.get hk₁
  obtain ⟨hinput, hat⟩ := hholds.rests k call₁ call₂ hk₁ hk₂
  refine ⟨call₂, hk₂, ?_⟩
  obtain ⟨call, q₁⟩ := call₁
  obtain ⟨call', q₂⟩ := call₂
  dsimp only at hinput
  subst hinput
  have hat : Related api w mine call q₁ q₂ := hat
  cases hat with
  | own h => exact .inl rfl
  | foreign hother h₁ h₂ => exact absurd hof hother
  | asking h => exact .inl rfl
  | @refused id r₁ r₂ h =>
    obtain ⟨before₁, c, after₁, rfl, hwas₁⟩ := first_step h.main_ne_done hk₁
    obtain ⟨before₂, m, after₂, rfl, hbefore, hm⟩ := SameMove.split hms
    cases hm
    have hlook : (isolation api w mine).Holds
        (((webhookApi api).machine s₁).exec ⟨s₁, []⟩ before₁)
        (((webhookApi api).machine s₂).exec ⟨s₂, []⟩ before₂) :=
      (isolation api w mine).exec ((isolation api w mine).holds_nil hagree) hbefore
        (fun t ht => hok₁ t (Machine.mem_trace_append ht))
        fun t ht => hok₂ t (Machine.mem_trace_append ht)
    obtain ⟨⟨call', q₂⟩, hwas₂⟩ := hlook.get hwas₁
    obtain ⟨hinput, hat⟩ := hlook.rests k _ _ hwas₁ hwas₂
    dsimp only at hinput
    subst hinput
    obtain rfl : q₂ = api.main call := h.related_main hat
    have hrefused₁ := h.refused hlook.inv.apart₁ hwas₁ c after₁
    have hrefused₂ := h.refused hlook.inv.apart₂ hwas₂ c after₂
    cases hk₁.symm.trans hrefused₁
    cases hk₂.symm.trans hrefused₂
    exact .inr ⟨rfl, id, h.about, h.foreign, before₁, before₂, c, after₁, after₂,
      hbefore.length_eq, rfl, rfl, rfl, rfl⟩

/-- The API with one signed token, of the wallet `GA`. -/
def sampleApi : WebhooksController where
  runtime := { Compliance.AccessGuard.sampleRuntime with
    hmacSha256 := fun secret text =>
      if secret = "test-secret" ∧ text = "eyJhbGciOiJIUzI1NiJ9." ++
          "eyJzdWIiOiI3Iiwid2FsbGV0QWRkcmVzcyI6IkdBIiwicm9sZSI6InNtYiJ9"
      then
        [134, 103, 254, 151, 92, 107, 112, 81, 52, 135, 232, 112, 172, 197, 144, 8, 8, 8, 255, 15, 56, 73,
          213, 252, 155, 109, 185, 89, 128, 27, 5, 160]
      else [] }
  secret := "test-secret"
  parser := WebhookSubscriptions.hookParser

/-- A request of the wallet `GA`. -/
def sampleCall (operation : Operation) : ApiCall where
  headers := ⟨some ("Bearer eyJhbGciOiJIUzI1NiJ9." ++
    "eyJzdWIiOiI3Iiwid2FsbGV0QWRkcmVzcyI6IkdBIiwicm9sZSI6InNtYiJ9." ++
    "hmf-l1xrcFE0h-hwrMWQCAgI_w84SdX8m225WYAbBaA"), none⟩
  nowMs := 1767225600000
  operation := operation

/-- The subscription of an owner. -/
def sampleRow (id ownerId : String) : Row :=
  ⟨⟨ownerId, "http://93.184.216.34/hook", "secret", ["*"]⟩, id, true, 0, 0⟩

/-- The wallet registers a subscription, and reads the deliveries of its own and of one that only
the first tables hold: it is refused there, and told of none here. -/
theorem requests_isolated_probe :
    let s₁ : Store := ⟨⟨[sampleRow "a" "GA", sampleRow "x" "GB"], by decide⟩, []⟩
    let s₂ : Store := ⟨⟨[sampleRow "a" "GA"], by decide⟩, []⟩
    let c : Choice := ⟨.none, 5, "b"⟩
    let ms : List ApiMove :=
      [.start (sampleCall (.create ⟨some "http://93.184.216.34/hook", none⟩ "s")), .resume 0 c,
        .resume 0 c, .start (sampleCall (.listDeliveries "a" none (some "1e3"))), .resume 1 c,
        .resume 1 c, .start (sampleCall (.listDeliveries "x" none none)), .resume 2 c]
    let p₁ := ((webhookApi sampleApi).machine s₁).exec ⟨s₁, []⟩ ms
    let p₂ := ((webhookApi sampleApi).machine s₂).exec ⟨s₂, []⟩ ms
    (∀ k ∈ [0, 1], ∃ call, p₁.calls[k]? = some call ∧ p₂.calls[k]? = some call ∧
      call.result?.isSome = true) ∧
    p₁.calls[2]?.bind Call.result? =
      some (.error (.http 403 "Not the owner of this webhook subscription")) ∧
    p₂.calls[2]?.bind Call.result? =
      some (.error (.http 404 "Webhook subscription x not found")) := by
  intro s₁ s₂ c ms p₁ p₂
  let mine : String → Bool := fun id => id = "a" ∨ id = "b"
  have hagree : AgreeFor "GA" mine s₁ s₂ := ⟨by decide, rfl, by decide, by decide⟩
  have hsame : ∀ deliveries, SameDeliveries mine deliveries deliveries := fun _ => rfl
  have hms : List.Forall₂ (SameMove (SameDeliveries mine)) ms ms :=
    List.forall₂_same.2 fun m _ => .refl hsame m
  have hrun : ((∀ t ∈ ((webhookApi sampleApi).machine s₁).trace ⟨s₁, []⟩ ms,
        Permitted sampleApi "GA" mine t.pre t.input) ∧
      ∀ t ∈ ((webhookApi sampleApi).machine s₂).trace ⟨s₂, []⟩ ms,
        Permitted sampleApi "GA" mine t.pre t.input) ∧
      (∀ k ∈ [0, 1], (p₁.calls[k]?).isSome = true ∧
        ∀ call ∈ p₁.calls[k]?, IsOf sampleApi "GA" call.input ∧ call.result?.isSome = true ∧
          ∀ id ∈ call.input.operation.about, mine id = true) ∧
      p₁.calls[2]?.bind Call.result? =
        some (.error (.http 403 "Not the owner of this webhook subscription")) ∧
      p₂.calls[2]?.bind Call.result? =
        some (.error (.http 404 "Webhook subscription x not found")) := by
    decide +kernel
  obtain ⟨⟨hok₁, hok₂⟩, hcalls, hrefused⟩ := hrun
  have hisolated := requests_isolated sampleApi hagree hms hok₁ hok₂
  refine ⟨fun k hk => ?_, hrefused⟩
  obtain ⟨hsome, hcall⟩ := hcalls k hk
  obtain ⟨call, heq⟩ := Option.isSome_iff_exists.1 hsome
  obtain ⟨hof, hended, habout⟩ := hcall call heq
  obtain ⟨call', heq', rfl | ⟨-, id, hid, hforeign, -⟩⟩ := hisolated.2 k call heq hof
  · exact ⟨call', heq, heq', hended⟩
  · rw [habout id hid] at hforeign
    cases hforeign

end WebhookApi

end Backend

end InvoiceFi
