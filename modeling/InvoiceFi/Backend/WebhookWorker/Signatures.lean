import InvoiceFi.Backend.WebhookWorker.Outcomes
import InvoiceFi.Lib.Utf8

/-!
# The requests to subscribers are authentic (`webhooks/webhook-signing.ts`)

A subscriber trusts a request whose signature it can verify with its secret. This module says what
the worker puts behind one. `Route` follows an attempt up to its request and remembers the step at
which it looked the subscriber up (`LookedUp`); `Traced` puts the attempts, the rows and the
subscribers next to the events that led to them, and every event keeps it (`Traced.step`), whether
attempts stall, overlap or fail. So every request is for a delivery that has been enqueued, with its
body, goes to a subscriber of that delivery that was registered and not revoked when the attempt
looked it up, and is signed with the secret of that subscriber (`requests_authentic`).
-/

namespace InvoiceFi

namespace Backend

namespace WebhookWorker

/-! ## Signing (`webhook-signing.ts`)

`hmac` is the HMAC-SHA256 of a secret and a text, in hexadecimal. -/

section
variable (hmac : String → String → String)

/-- `signWebhookPayload`. -/
def signWebhookPayload (secret rawBody : String) : String :=
  "sha256=" ++ hmac secret rawBody

/-- `verifyWebhookSignature`. -/
def verifyWebhookSignature (secret rawBody : String) (signatureHeader : Option String) : Bool :=
  match signatureHeader with
  | none => false
  | some signatureHeader =>
    if signatureHeader = "" then false
    else
      let expected := Utf8.encode (signWebhookPayload hmac secret rawBody).toList
      let actual := Utf8.encode signatureHeader.toList
      if expected.length ≠ actual.length then false
      else expected = actual

/-- What the worker signs with. -/
def workerSigning (stringify : WebhookEvent → String) : Signing :=
  ⟨stringify, signWebhookPayload hmac⟩

theorem signWebhookPayload_ne_empty (secret rawBody : String) :
    signWebhookPayload hmac secret rawBody ≠ "" := by
  intro h
  have hlist := congrArg String.toList h
  simp [signWebhookPayload] at hlist

theorem utf8_encode_inj {text text' : String} :
    Utf8.encode text.toList = Utf8.encode text'.toList ↔ text = text' := by
  constructor
  · intro h
    have hlist := congrArg Utf8.decode h
    rw [Utf8.decode_encode, Utf8.decode_encode] at hlist
    exact String.toList_inj.1 hlist
  · intro h
    rw [h]

/-- A header verifies if, and only if, it is the signature of the body. -/
theorem verifyWebhookSignature_iff {secret rawBody header : String} :
    verifyWebhookSignature hmac secret rawBody (some header) = true ↔
      signWebhookPayload hmac secret rawBody = header := by
  simp only [verifyWebhookSignature]
  constructor
  · intro h
    split at h
    · cases h
    · split at h
      · cases h
      · exact utf8_encode_inj.1 (of_decide_eq_true h)
  · rintro rfl
    simp [signWebhookPayload_ne_empty]

/-- A signature verifies the bodies that have the HMAC of the one that was signed, so no other if
there are no collisions. -/
theorem verify_signed_iff {secret rawBody rawBody' : String} :
    verifyWebhookSignature hmac secret rawBody'
        (some (signWebhookPayload hmac secret rawBody)) = true ↔
      hmac secret rawBody' = hmac secret rawBody := by
  rw [verifyWebhookSignature_iff]
  simp [signWebhookPayload]

end

/-! ## What the events say -/

/-- The deliveries enqueued by the events. The place of one is its id. -/
def enqueued : List Event → List WebhookDelivery
  | [] => []
  | .enqueue d _ :: events => d :: enqueued events
  | _ :: events => enqueued events

/-- The subscriber has been registered and not been revoked since. -/
def Registered (events : List Event) (subscriber : Subscriber) : Prop :=
  subscriber.active = true ∧ ∃ es₁ es₂,
    events = es₁ ++ .subscribe subscriber :: es₂ ∧ .revoke subscriber.id ∉ es₂

theorem enqueued_append (es es' : List Event) :
    enqueued (es ++ es') = enqueued es ++ enqueued es' := by
  induction es with
  | nil => rfl
  | cons e es ih =>
    cases e with
    | enqueue d now => simp [enqueued, ih]
    | subscribe subscriber => simp [enqueued, ih]
    | revoke id => simp [enqueued, ih]
    | claim now locked => simp [enqueued, ih]
    | resume k c => simp [enqueued, ih]

/-- An event other than its revocation keeps a subscriber registered. -/
theorem Registered.concat {events : List Event} {subscriber : Subscriber}
    (h : Registered events subscriber) {e : Event} (he : .revoke subscriber.id ≠ e) :
    Registered (events ++ [e]) subscriber := by
  obtain ⟨hactive, es₁, es₂, rfl, hnot⟩ := h
  refine ⟨hactive, es₁, es₂ ++ [e], by simp, ?_⟩
  simp [hnot, he]

/-! ## The way of an attempt to its request -/

section
variable {stringify : WebhookEvent → String} {hmac : String → String → String}

/-- The queue after the events. -/
abbrev after (signing : Signing) (events : List Event) : Queue :=
  (queue signing).exec (queue signing).init events

/-- At one of the events the attempt `k` has looked the subscriber of its delivery up, and that one
had been registered by then and not revoked. -/
def LookedUp (signing : Signing) (events : List Event) (k : Nat) (delivery : ClaimedDelivery)
    (subscriber : Subscriber) : Prop :=
  ∃ es c es', events = es ++ .resume k c :: es' ∧
    (∃ startedAt,
      (after signing es).calls[k]? = some ⟨delivery, lookUp signing delivery startedAt⟩) ∧
    Registered es subscriber ∧ subscriber.id = delivery.subscriptionId

theorem LookedUp.append {signing : Signing} {events : List Event} {k : Nat}
    {delivery : ClaimedDelivery} {subscriber : Subscriber}
    (h : LookedUp signing events k delivery subscriber) (events' : List Event) :
    LookedUp signing (events ++ events') k delivery subscriber := by
  obtain ⟨es, c, es', rfl, hcall, hregistered⟩ := h
  exact ⟨es, c, es' ++ events', by simp, hcall, hregistered⟩

/-- The subscriber that is looked up is that of the delivery. -/
theorem LookedUp.recipient {signing : Signing} {events : List Event} {k : Nat}
    {delivery : ClaimedDelivery} {subscriber : Subscriber}
    (h : LookedUp signing events k delivery subscriber) :
    subscriber.id = delivery.subscriptionId := by
  obtain ⟨-, -, -, -, -, -, hid⟩ := h
  exact hid

/-- Where the attempt `k` stands: before its request, with what it knows of the subscriber, or at
or after it. -/
inductive Route (signing : Signing) (events : List Event) (k : Nat) (delivery : ClaimedDelivery) :
    Task Unit → Prop
  | starting : Route signing events k delivery (attemptDelivery signing delivery)
  | lookingUp (startedAt : Nat) :
    Route signing events k delivery (lookUp signing delivery startedAt)
  | stamping (startedAt : Nat) {subscriber : Subscriber}
      (found : LookedUp signing events k delivery subscriber) :
    Route signing events k delivery (do
      let timestamp ← act .now
      deliver signing delivery startedAt subscriber timestamp)
  | sending (startedAt timestamp : Nat) {subscriber : Subscriber}
      (found : LookedUp signing events k delivery subscriber) :
    Route signing events k delivery (deliver signing delivery startedAt subscriber timestamp)
  | receiving (startedAt : Nat) : Route signing events k delivery (receiving delivery startedAt)
  | closing {rest : Task Unit} (point : Closing delivery rest) :
    Route signing events k delivery rest

theorem Route.append {signing : Signing} {events : List Event} {k : Nat}
    {delivery : ClaimedDelivery} {rest : Task Unit} (h : Route signing events k delivery rest)
    (events' : List Event) : Route signing (events ++ events') k delivery rest := by
  cases h with
  | starting => exact .starting
  | lookingUp startedAt => exact .lookingUp startedAt
  | stamping startedAt found => exact .stamping startedAt (found.append events')
  | sending startedAt timestamp found => exact .sending startedAt timestamp (found.append events')
  | receiving startedAt => exact .receiving startedAt
  | closing point => exact .closing point

/-- The attempt is one of the enqueued delivery. -/
structure Claims (delivery : ClaimedDelivery) (d : WebhookDelivery) : Prop where
  subscriptionId : delivery.subscriptionId = d.subscriptionId
  eventType : delivery.eventType = d.eventType
  payload : delivery.payload = d.payload

/-- What the events say of the queue that they lead to. -/
structure Traced (signing : Signing) (events : List Event) (q : Queue) : Prop where
  rows : q.state.deliveries.map QueuedDelivery.toWebhookDelivery = enqueued events
  subscribers : ∀ subscriber ∈ q.state.subscriptions, subscriber.active = true →
    Registered events subscriber
  claimed : ∀ (k : Nat) call, q.calls[k]? = some call →
    ∃ d, (enqueued events)[call.input.id]? = some d ∧ Claims call.input d
  route : ∀ (k : Nat) call, q.calls[k]? = some call → Route signing events k call.input call.rest

variable {signing : Signing} {events : List Event}

/-- A change of a row that leaves the columns of the delivery as they are. -/
theorem data_modify (l : List QueuedDelivery) (id : Nat) {g : QueuedDelivery → QueuedDelivery}
    (hg : ∀ row, (g row).toWebhookDelivery = row.toWebhookDelivery) :
    (l.modify id g).map QueuedDelivery.toWebhookDelivery =
      l.map QueuedDelivery.toWebhookDelivery := by
  refine List.ext_getElem? fun i => ?_
  rw [List.getElem?_map, List.getElem?_map, List.getElem?_modify]
  cases l[i]? with
  | none => rfl
  | some row =>
    simp only [Option.map_eq_map, Option.map_some]
    split
    · rw [hg]
    · rfl

/-- An action of an attempt leaves the subscribers and the enqueued columns as they are. -/
theorem perform_data (k : Nat) (a : Act) (c : Choice) (s : Store) :
    (perform k a c s).2.subscriptions = s.subscriptions ∧
    (perform k a c s).2.deliveries.map QueuedDelivery.toWebhookDelivery =
      s.deliveries.map QueuedDelivery.toWebhookDelivery := by
  cases a with
  | now => exact ⟨rfl, rfl⟩
  | findSubscription id => exact ⟨rfl, rfl⟩
  | receive deliveryId => exact ⟨rfl, rfl⟩
  | send request =>
    rw [perform]
    split
    · exact ⟨rfl, rfl⟩
    · exact ⟨rfl, data_modify _ _ fun row => rfl⟩
  | logAttempt attempt =>
    refine transact_invariant (P := fun s' : Store => s'.subscriptions = s.subscriptions ∧
      s'.deliveries.map _ = s.deliveries.map _) ⟨rfl, rfl⟩ fun u s' hs => ?_
    cases hs
    exact ⟨rfl, rfl⟩
  | finalize id data =>
    refine transact_invariant (P := fun s' : Store => s'.subscriptions = s.subscriptions ∧
      s'.deliveries.map _ = s.deliveries.map _) ⟨rfl, rfl⟩ fun u s' hs => ?_
    rw [Store.finalize] at hs
    split at hs
    · cases hs
      exact ⟨rfl, data_modify _ _ fun row => rfl⟩
    · cases hs

/-- A claim leaves the enqueued columns as they are. -/
theorem data_claimBatch (limit first now : Nat) (locked : List Nat) (s : Store) :
    (claimBatch limit first now locked s).2.deliveries.map QueuedDelivery.toWebhookDelivery =
      s.deliveries.map QueuedDelivery.toWebhookDelivery := by
  refine List.ext_getElem? fun i => ?_
  rw [List.getElem?_map, List.getElem?_map, getElem?_claimBatch]
  cases s.deliveries[i]? with
  | none => rfl
  | some row =>
    simp only [Option.map_some]
    split
    · rfl
    · rfl

/-- A step of an attempt that is closing. -/
theorem Closing.step {delivery : ClaimedDelivery} {a : Act}
    {f : Except Error a.Answer → Task Unit} (h : Closing delivery (.await a f))
    (r : Except Error a.Answer) : Closing delivery (f r) := by
  cases a with
  | now => exact h r
  | logAttempt attempt => exact h r
  | finalize id data =>
    obtain ⟨-, -, -, -, hended⟩ := h
    obtain ⟨r', hr'⟩ := hended r
    rw [hr']
    trivial
  | findSubscription id => exact h.elim
  | send request => exact h.elim
  | receive deliveryId => exact h.elim

/-- A step of an attempt. -/
theorem Route.step (h : Traced signing events (after signing events)) {k : Nat}
    {delivery : ClaimedDelivery} {a : Act} {f : Except Error a.Answer → Task Unit}
    (hk : (after signing events).calls[k]? = some ⟨delivery, .await a f⟩) (c : Choice) :
    Route signing (events ++ [.resume k c]) k delivery
      (f (perform k a c (after signing events).state).1) := by
  have hroute := h.route k _ hk
  dsimp only at hroute
  generalize hq : Async.await a f = rest at hroute
  cases hroute with
  | starting =>
    cases hq
    exact .lookingUp c.clock
  | stamping startedAt found =>
    cases hq
    exact .sending startedAt c.clock (found.append _)
  | sending startedAt timestamp found =>
    cases hq
    dsimp only [perform]
    by_cases hf : c.fault = .failed
    · rw [if_pos hf]
      exact .closing (closing_recordOutcome delivery startedAt _)
    · rw [if_neg hf]
      exact .receiving startedAt
  | receiving startedAt =>
    cases hq
    dsimp only [perform]
    cases c.response with
    | error e => exact .closing (closing_recordOutcome delivery startedAt _)
    | ok statusCode => exact .closing (closing_recordOutcome delivery startedAt _)
  | closing point =>
    subst hq
    exact .closing (point.step _)
  | lookingUp startedAt =>
    cases hq
    dsimp only [perform]
    cases hread : read c.fault ((after signing events).state.subscriptions.find? fun subscription =>
        decide (subscription.id = delivery.subscriptionId)) with
    | error e => exact .closing (show Closing delivery (.done (.error e)) from trivial)
    | ok found =>
      cases found with
      | none => exact .closing (closing_abandonRevoked delivery startedAt)
      | some subscriber =>
        change Route _ _ _ _ (if subscriber.active then _ else _)
        by_cases hactive : subscriber.active = true
        · rw [if_pos hactive]
          have hfound := read_eq_ok hread
          have hmem := List.mem_of_find?_eq_some hfound
          have hid : subscriber.id = delivery.subscriptionId := by
            simpa using List.find?_some hfound
          exact .stamping startedAt ⟨events, c, [], rfl, ⟨startedAt, hk⟩,
            h.subscribers subscriber hmem hactive, hid⟩
        · rw [if_neg hactive]
          exact .closing (closing_abandonRevoked delivery startedAt)

/-- The deliveries of the events stay where they are. -/
theorem enqueued_getElem?_append {id : Nat} {d : WebhookDelivery}
    (h : (enqueued events)[id]? = some d) (events' : List Event) :
    (enqueued (events ++ events'))[id]? = some d := by
  rw [enqueued_append, List.getElem?_append_left (List.getElem?_eq_some_iff.1 h).1]
  exact h

/-- What the events say of the attempts stays true where the attempts stay as they are. -/
theorem Traced.append (h : Traced signing events (after signing events)) {q : Queue} (e : Event)
    (hcalls : q.calls = (after signing events).calls)
    (hrows : q.state.deliveries.map QueuedDelivery.toWebhookDelivery = enqueued (events ++ [e]))
    (hsubscribers : ∀ subscriber ∈ q.state.subscriptions, subscriber.active = true →
      Registered (events ++ [e]) subscriber) : Traced signing (events ++ [e]) q where
  rows := hrows
  subscribers := hsubscribers
  claimed := by
    intro k call hcall
    rw [hcalls] at hcall
    obtain ⟨d, hd, hclaims⟩ := h.claimed k call hcall
    exact ⟨d, enqueued_getElem?_append hd [e], hclaims⟩
  route := by
    intro k call hcall
    rw [hcalls] at hcall
    exact (h.route k call hcall).append [e]

/-- An attempt that goes on. -/
theorem Traced.resume (h : Traced signing events (after signing events)) (k : Nat) (c : Choice) :
    Traced signing (events ++ [.resume k c])
      (handle signing (after signing events) (.resume k c)) := by
  have hsame : enqueued (events ++ [.resume k c]) = enqueued events := by
    rw [enqueued_append]
    exact List.append_nil _
  have hkept : ∀ subscriber, Registered events subscriber →
      Registered (events ++ [.resume k c]) subscriber := fun _ hr => hr.concat nofun
  change Traced signing _ ((attempts signing).move (.resume k c) (after signing events))
  rcases Service.move_cases (attempts signing) (.resume k c) (after signing events) with
    ⟨i, hm, -⟩ | ⟨k', c', delivery, a, f, hm, hk, hq⟩ | ⟨o, hm, -⟩ | ⟨k', c', -, -, hq⟩
  · cases hm
  · cases hm
    have hlt : k < (after signing events).calls.length := (List.getElem?_eq_some_iff.1 hk).1
    obtain ⟨hsubscriptions, hdata⟩ := perform_data k a c (after signing events).state
    rw [hq]
    constructor
    case rows =>
      rw [hsame, ← h.rows]
      exact hdata
    case subscribers =>
      intro subscriber hmem
      change subscriber ∈ (perform k a c (after signing events).state).2.subscriptions at hmem
      rw [hsubscriptions] at hmem
      exact fun hactive => hkept _ (h.subscribers subscriber hmem hactive)
    case claimed =>
      intro j call hcall
      rw [hsame]
      by_cases hjk : j = k
      · subst hjk
        rw [List.getElem?_set_self hlt] at hcall
        cases hcall
        exact h.claimed j ⟨delivery, .await a f⟩ hk
      · rw [List.getElem?_set_ne (Ne.symm hjk)] at hcall
        exact h.claimed j call hcall
    case route =>
      intro j call hcall
      by_cases hjk : j = k
      · subst hjk
        rw [List.getElem?_set_self hlt] at hcall
        cases hcall
        exact Route.step h hk c
      · rw [List.getElem?_set_ne (Ne.symm hjk)] at hcall
        exact (h.route j call hcall).append _
  · cases hm
  · rw [hq]
    exact h.append _ rfl (h.rows.trans hsame.symm)
      fun subscriber hmem hactive => hkept _ (h.subscribers subscriber hmem hactive)

/-- A claim that starts attempts. -/
theorem Traced.claim (h : Traced signing events (after signing events)) (now : Nat)
    (locked : List Nat) :
    Traced signing (events ++ [.claim now locked])
      (handle signing (after signing events) (.claim now locked)) := by
  have hsame : enqueued (events ++ [.claim now locked]) = enqueued events := by
    rw [enqueued_append]
    exact List.append_nil _
  have hcalls := calls_claim signing (after signing events) now locked
  constructor
  case rows =>
    rw [hsame, ← h.rows]
    exact data_claimBatch _ _ _ _ _
  case subscribers =>
    intro subscriber hmem hactive
    exact (h.subscribers subscriber hmem hactive).concat nofun
  case claimed =>
    intro k call hcall
    rw [hsame]
    rw [hcalls] at hcall
    rcases List.mem_append.1 (List.mem_of_getElem? hcall) with hmem | hmem
    · obtain ⟨j, hj⟩ := List.mem_iff_getElem?.1 hmem
      exact h.claimed j call hj
    · obtain ⟨⟨row, id⟩, hx, rfl⟩ := List.mem_map.1 hmem
      refine ⟨row.toWebhookDelivery, ?_, rfl, rfl, rfl⟩
      rw [← h.rows, List.getElem?_map]
      change Option.map _ (after signing events).state.deliveries[id]? = _
      rw [(mem_dueBatch hx).1, Option.map_some]
  case route =>
    intro k call hcall
    rw [hcalls] at hcall
    rcases Nat.lt_or_ge k (after signing events).calls.length with hlt | hge
    · rw [List.getElem?_append_left hlt] at hcall
      exact (h.route k call hcall).append _
    · rw [List.getElem?_append_right hge, List.getElem?_map] at hcall
      obtain ⟨x, hx, rfl⟩ := Option.map_eq_some_iff.1 hcall
      exact .starting

/-- One more event. -/
theorem Traced.step (h : Traced signing events (after signing events)) (e : Event) :
    Traced signing (events ++ [e]) (handle signing (after signing events) e) := by
  cases e with
  | resume k c => exact h.resume k c
  | claim now locked => exact h.claim now locked
  | enqueue d now =>
    refine h.append _ rfl ?_ fun subscriber hmem hactive => ?_
    · rw [enqueued_append, ← h.rows]
      exact List.map_append
    · exact (h.subscribers subscriber hmem hactive).concat nofun
  | subscribe subscription =>
    refine h.append _ rfl ?_ fun subscriber hmem hactive => ?_
    · rw [enqueued_append, ← h.rows]
      exact (List.append_nil _).symm
    · rcases List.mem_append.1 hmem with hmem | hmem
      · exact (h.subscribers subscriber hmem hactive).concat nofun
      · cases List.mem_singleton.1 hmem
        exact ⟨hactive, events, [], rfl, List.not_mem_nil⟩
  | revoke id =>
    refine h.append _ rfl ?_ fun subscriber hmem hactive => ?_
    · rw [enqueued_append, ← h.rows]
      exact (List.append_nil _).symm
    · obtain ⟨subscription, hmem', rfl⟩ := List.mem_map.1 hmem
      by_cases hid : subscription.id = id
      · rw [if_pos hid] at hactive
        cases hactive
      · rw [if_neg hid] at hactive ⊢
        refine (h.subscribers subscription hmem' hactive).concat fun heq => ?_
        cases heq
        exact hid rfl

/-- What the events say of the queue holds after all of them. -/
theorem traced (signing : Signing) (events : List Event) :
    Traced signing events (after signing events) := by
  induction events using List.reverseRecOn with
  | nil =>
    constructor
    case rows => rfl
    case subscribers => exact nofun
    case claimed => exact nofun
    case route => exact nofun
  | append_singleton events e ih =>
    rw [after, Machine.exec_concat]
    exact ih.step e

/-! ## The requests -/

/-- What is behind a request that the attempt `k` at a claimed delivery is about to make: it is for
the delivery that was enqueued with its id and goes to the subscriber of that delivery, which the
attempt has looked up when it was registered and not revoked; and with the secret of the subscriber
its signature verifies its body, and no body with another HMAC. -/
structure Authentic (stringify : WebhookEvent → String) (hmac : String → String → String)
    (events : List Event) (k : Nat) (delivery : ClaimedDelivery) (request : HttpRequest)
    (d : WebhookDelivery) (subscriber : Subscriber) : Prop where
  enqueued : (enqueued events)[request.deliveryId]? = some d
  eventType : request.eventType = d.eventType
  body : request.body = stringify d.payload
  recipient : subscriber.id = d.subscriptionId
  url : request.url = subscriber.url
  registered : LookedUp (workerSigning hmac stringify) events k delivery subscriber
  verifies : ∀ body, verifyWebhookSignature hmac subscriber.secret body (some request.signature) =
    true ↔ hmac subscriber.secret body = hmac subscriber.secret request.body

/-- What is behind a request that is about to be made. -/
theorem authentic_of_sending {k : Nat} {delivery : ClaimedDelivery} {request : HttpRequest}
    {f : Except Error Unit → Task Unit}
    (hsend : (after (workerSigning hmac stringify) events).calls[k]? =
      some ⟨delivery, .await (.send request) f⟩) :
    ∃ d subscriber, Authentic stringify hmac events k delivery request d subscriber := by
  have htraced := traced (workerSigning hmac stringify) events
  obtain ⟨d, hd, hclaims⟩ := htraced.claimed k _ hsend
  have hroute := htraced.route k _ hsend
  dsimp only at hroute hd hclaims
  generalize hq : (Async.await (.send request) f : Task Unit) = rest at hroute
  cases hroute with
  | starting => cases hq
  | lookingUp startedAt => cases hq
  | stamping startedAt found => cases hq
  | receiving startedAt => cases hq
  | closing point =>
    subst hq
    exact point.elim
  | sending startedAt timestamp found =>
    cases hq
    refine ⟨d, _, hd, hclaims.eventType, congrArg stringify hclaims.payload,
      found.recipient.trans hclaims.subscriptionId, rfl, found, fun body => ?_⟩
    exact verify_signed_iff hmac

/-- Two requests for one delivery have the same body and event type. -/
theorem Authentic.repeats {events' : List Event} {k k' : Nat} {request request' : HttpRequest}
    {delivery delivery' : ClaimedDelivery} {d d' : WebhookDelivery}
    {subscriber subscriber' : Subscriber}
    (h : Authentic stringify hmac events k delivery request d subscriber)
    (h' : Authentic stringify hmac (events ++ events') k' delivery' request' d' subscriber')
    (hid : request'.deliveryId = request.deliveryId) :
    request'.body = request.body ∧ request'.eventType = request.eventType := by
  have hd := enqueued_getElem?_append h.enqueued events'
  have hd' := h'.enqueued
  rw [hid] at hd'
  cases hd.symm.trans hd'
  exact ⟨h'.body.trans h.body.symm, h'.eventType.trans h.eventType.symm⟩

end

/-- **The requests to subscribers are authentic.** After any events, however the attempts are
interleaved, stalled and failed, every request that an attempt is about to make has an enqueued
delivery and a registered subscriber behind it, and every later request with its delivery id has its
body and its event type. -/
theorem requests_authentic (stringify : WebhookEvent → String) (hmac : String → String → String)
    (events : List Event) {k : Nat} {delivery : ClaimedDelivery} {request : HttpRequest}
    {f : Except Error Unit → Task Unit}
    (hsend : (after (workerSigning hmac stringify) events).calls[k]? =
      some ⟨delivery, .await (.send request) f⟩) :
    (∃ d subscriber, Authentic stringify hmac events k delivery request d subscriber) ∧
    ∀ (events' : List Event) (k' : Nat) (delivery' : ClaimedDelivery) (request' : HttpRequest)
      (f' : Except Error Unit → Task Unit),
      (after (workerSigning hmac stringify) (events ++ events')).calls[k']? =
        some ⟨delivery', .await (.send request') f'⟩ →
      request'.deliveryId = request.deliveryId →
      request'.body = request.body ∧ request'.eventType = request.eventType := by
  obtain ⟨d, subscriber, hauthentic⟩ := authentic_of_sending hsend
  refine ⟨⟨d, subscriber, hauthentic⟩, ?_⟩
  intro events' k' delivery' request' f' hsend' hid
  obtain ⟨d', subscriber', hauthentic'⟩ := authentic_of_sending hsend'
  exact hauthentic.repeats hauthentic' hid

/-- The payload as the database returns it, in JSON. -/
def sampleStringify (e : WebhookEvent) : String :=
  "\x7b\"data\":\x7b\"ledger\":" ++ toString e.ledger ++ "\x7d,\"event\":\"" ++ e.event ++
    "\",\"invoiceId\":\"" ++ e.invoiceId ++ "\",\"timestamp\":\"" ++ toISOString e.timestamp ++
    "\"\x7d"

/-- The HMAC of the body of the sample, and nothing for other texts. -/
def sampleHmac (secret rawBody : String) : String :=
  if secret = "secret" ∧ rawBody = sampleStringify ⟨"42", "repaid", 0, 0⟩ then
    "1d7e1bce0448ef9e32b2ea12877006a67fe5b7be13c36e2614ca0866646078d5"
  else ""

/-- The attempt is about to make a request with the signature. -/
def sendsSigned (signature : String) : Task Unit → Bool
  | .await (.send request) _ => request.signature = signature
  | _ => false

/-- A subscription that is revoked between the look-up of an attempt and its request. -/
theorem requests_authentic_revoked :
    let events := oneDelivery ++ [.claim 0 []] ++ goesOn 0 2 0 200 ++ [.revoke "s"] ++
      goesOn 0 1 0 200
    ∃ delivery request f,
      (after (workerSigning sampleHmac sampleStringify) events).calls[0]? =
        some ⟨delivery, .await (.send request) f⟩ ∧
      request.signature =
        "sha256=1d7e1bce0448ef9e32b2ea12877006a67fe5b7be13c36e2614ca0866646078d5" ∧
      ∃ d subscriber,
        Authentic sampleStringify sampleHmac events 0 delivery request d subscriber := by
  intro events
  have hsends : ((after (workerSigning sampleHmac sampleStringify) events).calls[0]?).any
      (fun call => sendsSigned
        "sha256=1d7e1bce0448ef9e32b2ea12877006a67fe5b7be13c36e2614ca0866646078d5"
        call.rest) = true := by
    decide +kernel
  obtain ⟨⟨delivery, rest⟩, hcall, hrest⟩ := (Option.any_eq_true _ _).1 hsends
  dsimp only at hrest
  unfold sendsSigned at hrest
  split at hrest
  · next request f =>
    exact ⟨delivery, request, f, hcall, of_decide_eq_true hrest,
      (requests_authentic sampleStringify sampleHmac events hcall).1⟩
  · cases hrest

end WebhookWorker

end Backend

end InvoiceFi
