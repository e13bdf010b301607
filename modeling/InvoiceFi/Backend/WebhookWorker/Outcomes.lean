import InvoiceFi.Backend.WebhookWorker

/-!
# The outcomes of deliveries are final and bounded

A claim hands a row to an attempt, and takes it over from an attempt that has held it for too long,
whether that one is still under way or not. `Undisturbed` says when this does no harm: an attempt
whose row has been claimed again makes no request and writes no outcome any more, and no row is
taken over with a request whose outcome has not been written. In the runs whose events are all
undisturbed, a row belongs to one attempt at a time (`RowOK`, `AttemptAt`), and so its outcome is
final, its requests are no more than the schedule allows, and no two of them are in flight at once
(`outcomes_final`). The other runs are those in which a worker stalls, or in which the log cannot be
written (`outcomes_not_final`).
-/

namespace InvoiceFi

namespace Backend

namespace WebhookWorker

/-! ## Undisturbed events -/

/-- The attempt is about to make its request, or to write its outcome. -/
def writes : Task Unit → Bool
  | .await (.send _) _ | .await (.finalize ..) _ => true
  | _ => false

/-- The event does not disturb an attempt: a claim takes over no row for which a request has been
made whose outcome has not been written, and an attempt that makes its request or writes its outcome
is the last one that has claimed its row. -/
def Undisturbed (q : Queue) : Event → Prop
  | .claim now locked => ∀ x ∈ dueBatch batchSize now locked q.state.deliveries,
    x.1.status = .processing → ∀ k ∈ x.1.requestedBy, k ∈ x.1.finalizedBy
  | .resume k c => ∀ call ∈ q.calls[k]?, writes call.rest = true → c.fault ≠ .failed →
    ∀ row ∈ q.state.deliveries[call.input.id]?, row.claimedBy = some k
  | _ => True

instance (q : Queue) : (e : Event) → Decidable (Undisturbed q e)
  | .claim now locked => inferInstanceAs (Decidable (∀ x ∈ dueBatch _ now locked _, _))
  | .resume k _ => inferInstanceAs (Decidable (∀ call ∈ q.calls[k]?, _))
  | .subscribe _ | .revoke _ | .enqueue .. => inferInstanceAs (Decidable True)

/-- The attempt `k` has a request for the row in flight. -/
def inFlight (q : Queue) (k id : Nat) : Bool :=
  match q.calls[k]? with
  | some ⟨_, .await (.receive deliveryId) _⟩ => deliveryId = id
  | _ => false

/-- The outcomes of a run: a row that is delivered or abandoned never changes its status again, no
more requests are made for a row than the schedule has attempts, and no two attempts have a request
for the same row in flight. -/
structure OutcomesFinal (signing : Signing) (events : List Event) : Prop where
  final : ∀ es₁ es₂ es₃, events = es₁ ++ es₂ ++ es₃ → ∀ (id : Nat) (row : QueuedDelivery),
    ((queue signing).exec (queue signing).init es₁).state.deliveries[id]? = some row →
    row.status.Final → ∃ row' : QueuedDelivery,
      ((queue signing).exec (queue signing).init (es₁ ++ es₂)).state.deliveries[id]? = some row' ∧
        row'.status = row.status
  bounded : ∀ es₁ es₂, events = es₁ ++ es₂ →
    ∀ row ∈ ((queue signing).exec (queue signing).init es₁).state.deliveries,
      row.requestedBy.length ≤ maxDeliveryAttempts
  alone : ∀ es₁ es₂, events = es₁ ++ es₂ → ∀ id i j,
    inFlight ((queue signing).exec (queue signing).init es₁) i id = true →
    inFlight ((queue signing).exec (queue signing).init es₁) j id = true → i = j

/-! ## Where an attempt stands -/

/-- The points of an attempt before its request. -/
inductive Asking (signing : Signing) (delivery : ClaimedDelivery) : Task Unit → Prop
  | starting : Asking signing delivery (attemptDelivery signing delivery)
  | lookingUp (startedAt : Nat) : Asking signing delivery (lookUp signing delivery startedAt)
  | stamping (startedAt : Nat) (subscription : Subscriber) : Asking signing delivery (do
      let timestamp ← act .now
      deliver signing delivery startedAt subscription timestamp)
  | sending (startedAt : Nat) (subscription : Subscriber) (timestamp : Nat) :
    Asking signing delivery (deliver signing delivery startedAt subscription timestamp)

/-- The attempt once its request has left. -/
def receiving (delivery : ClaimedDelivery) (startedAt : Nat) : Task Unit := do
  let outcome ← tryCatch
    (do
      let statusCode ← act (.receive delivery.id)
      pure (.ofStatus statusCode))
    fun e => pure ⟨none, some e.message, false⟩
  recordOutcome delivery startedAt outcome

/-- The attempt only logs and finalizes: it leaves its row final, or pending with an attempt to
go. -/
def Closing (delivery : ClaimedDelivery) : Task Unit → Prop
  | .done _ => True
  | .await .now f => ∀ r, Closing delivery (f r)
  | .await (.logAttempt _) f => ∀ r, Closing delivery (f r)
  | .await (.finalize id data) f =>
    id = delivery.id ∧ data.attemptCount = delivery.attemptCount + 1 ∧
      (¬ data.status.Final → delivery.attemptCount + 1 < maxDeliveryAttempts) ∧
      data.status ≠ .processing ∧ ∀ r, ∃ r', f r = .done r'
  | _ => False

/-- Where the attempt `k` stands with its row: before its request, at its request, after it, or at
its end. -/
inductive Point (signing : Signing) (k : Nat) (delivery : ClaimedDelivery) (rest : Task Unit)
    (row : QueuedDelivery) : Prop
  | asking (point : Asking signing delivery rest) (unrequested : k ∉ row.requestedBy)
      (unfinalized : k ∉ row.finalizedBy)
  | receiving (startedAt : Nat) (point : rest = receiving delivery startedAt)
      (requested : k ∈ row.requestedBy) (unfinalized : k ∉ row.finalizedBy)
  | closing (point : Closing delivery rest) (unfinalized : k ∉ row.finalizedBy)
  | ended (r : Except Error Unit) (point : rest = .done r)

/-- What is known of the attempt `k` and its row. As long as nobody has claimed the row since and
the attempt has not finalized it, the row is as it was claimed. -/
structure AttemptAt (signing : Signing) (k : Nat) (delivery : ClaimedDelivery) (rest : Task Unit)
    (row : QueuedDelivery) : Prop where
  tries : delivery.attemptCount < maxDeliveryAttempts
  held : row.claimedBy = some k → k ∉ row.finalizedBy →
    row.status = .processing ∧ row.attemptCount = delivery.attemptCount
  point : Point signing k delivery rest row

/-- What is known of a row after `n` attempts: only the attempt that holds it may have made a
request whose outcome has not been written. -/
structure RowOK (n : Nat) (row : QueuedDelivery) : Prop where
  claimed : ∀ k, row.claimedBy = some k → k < n
  requested : ∀ k ∈ row.requestedBy, k < n
  finalized : ∀ k ∈ row.finalizedBy, k < n
  unwritten : ∀ k ∈ row.requestedBy, k ∉ row.finalizedBy →
    row.claimedBy = some k ∧ row.status = .processing
  written : (∀ k ∈ row.requestedBy, k ∈ row.finalizedBy) →
    row.requestedBy.length ≤ row.attemptCount
  requests : row.requestedBy.length ≤ row.attemptCount + 1
  tries : ¬ row.status.Final → row.attemptCount < maxDeliveryAttempts
  most : row.attemptCount ≤ maxDeliveryAttempts

/-- What a change of a row keeps for the attempt `j`. -/
structure Keeps (j : Nat) (row row' : QueuedDelivery) : Prop where
  requested : j ∈ row'.requestedBy ↔ j ∈ row.requestedBy
  finalized : j ∈ row'.finalizedBy ↔ j ∈ row.finalizedBy
  held : row'.claimedBy = some j → row.claimedBy = some j ∧ row'.status = row.status ∧
    row'.attemptCount = row.attemptCount

variable {signing : Signing} {k n : Nat} {delivery : ClaimedDelivery} {rest : Task Unit}
  {row row' : QueuedDelivery}

theorem not_final_processing : ¬ DeliveryStatus.processing.Final := by
  rintro (h | h) <;> cases h

/-- No more requests are made for a row than the schedule has attempts. -/
theorem RowOK.requests_le (h : RowOK n row) :
    row.requestedBy.length ≤ maxDeliveryAttempts := by
  by_cases hall : ∀ k ∈ row.requestedBy, k ∈ row.finalizedBy
  · exact (h.written hall).trans h.most
  · push Not at hall
    obtain ⟨k, hk, hunwritten⟩ := hall
    have hstatus := (h.unwritten k hk hunwritten).2
    have htries := h.tries (by rw [hstatus]; exact not_final_processing)
    exact h.requests.trans htries

/-- What is known of an attempt stays true under a change that keeps what it knows. -/
theorem AttemptAt.stable (h : AttemptAt signing k delivery rest row) (hkeeps : Keeps k row row') :
    AttemptAt signing k delivery rest row' := by
  have hunfinalized : k ∉ row.finalizedBy → k ∉ row'.finalizedBy :=
    fun hk hk' => hk (hkeeps.finalized.1 hk')
  refine ⟨h.tries, fun hclaimed hfin => ?_, ?_⟩
  · obtain ⟨hclaimed, hstatus, hcount⟩ := hkeeps.held hclaimed
    rw [hstatus, hcount]
    exact h.held hclaimed fun hk => hfin (hkeeps.finalized.2 hk)
  · cases h.point with
    | asking point unrequested unfinalized =>
      exact .asking point (fun hk => unrequested (hkeeps.requested.1 hk))
        (hunfinalized unfinalized)
    | receiving startedAt point requested unfinalized =>
      exact .receiving startedAt point (hkeeps.requested.2 requested) (hunfinalized unfinalized)
    | closing point unfinalized => exact .closing point (hunfinalized unfinalized)
    | ended r point => exact .ended r point

/-! ## A step of an attempt -/

/-- The end of an attempt whose subscription is gone leaves its row final. -/
theorem closing_abandonRevoked (delivery : ClaimedDelivery) (startedAt : Nat) :
    Closing delivery (abandonRevoked delivery startedAt) := by
  intro now
  cases now with
  | error e => trivial
  | ok now =>
    intro u
    cases u with
    | error e => trivial
    | ok u =>
      intro lastAttemptAt
      cases lastAttemptAt with
      | error e => trivial
      | ok lastAttemptAt =>
        exact ⟨rfl, rfl, fun h => absurd (.inr rfl) h, nofun, fun r => ⟨r, rfl⟩⟩

/-- The `finalize` of an outcome leaves the row final, or pending with an attempt to go. -/
theorem closing_finalizeOutcome (delivery : ClaimedDelivery) (outcome : Outcome) :
    Closing delivery (finalizeOutcome delivery outcome) := by
  unfold finalizeOutcome
  split
  · intro lastAttemptAt
    cases lastAttemptAt with
    | error e => trivial
    | ok lastAttemptAt =>
      exact ⟨rfl, rfl, fun h => absurd (.inl rfl) h, nofun, fun r => ⟨r, rfl⟩⟩
  · dsimp only
    rw [nextRetryDelayMs_eq (Nat.succ_pos _)]
    cases hdelay : retryScheduleMs[delivery.attemptCount + 1 - 1]? with
    | none =>
      intro lastAttemptAt
      cases lastAttemptAt with
      | error e => trivial
      | ok lastAttemptAt =>
        exact ⟨rfl, rfl, fun h => absurd (.inr rfl) h, nofun, fun r => ⟨r, rfl⟩⟩
    | some delayMs =>
      have hlt : delivery.attemptCount < retryScheduleMs.length :=
        (List.getElem?_eq_some_iff.1 hdelay).1
      intro now
      cases now with
      | error e => trivial
      | ok now =>
        intro lastAttemptAt
        cases lastAttemptAt with
        | error e => trivial
        | ok lastAttemptAt =>
          exact ⟨rfl, rfl, fun _ => Nat.succ_lt_succ hlt, nofun, fun r => ⟨r, rfl⟩⟩

/-- The end of an attempt with an outcome is closing. -/
theorem closing_recordOutcome (delivery : ClaimedDelivery) (startedAt : Nat) (outcome : Outcome) :
    Closing delivery (recordOutcome delivery startedAt outcome) := by
  intro now
  cases now with
  | error e => trivial
  | ok now =>
    intro u
    cases u with
    | error e => trivial
    | ok u => exact closing_finalizeOutcome delivery outcome

theorem Keeps.refl (j : Nat) (row : QueuedDelivery) : Keeps j row row :=
  ⟨.rfl, .rfl, fun h => ⟨h, rfl, rfl⟩⟩

/-- A request of the attempt that holds the row keeps what is known of the row. -/
theorem RowOK.requested_step (h : RowOK n row) (hk : k < n) (hclaimed : row.claimedBy = some k)
    (hstatus : row.status = .processing) (hunrequested : k ∉ row.requestedBy)
    (hunfinalized : k ∉ row.finalizedBy) : RowOK n (row.requested k) := by
  -- the requests of others have all been written
  have hall : ∀ j ∈ row.requestedBy, j ∈ row.finalizedBy := by
    intro j hj
    by_contra hunwritten
    have hj' := (h.unwritten j hj hunwritten).1
    rw [hclaimed] at hj'
    cases hj'
    exact hunrequested hj
  refine ⟨h.claimed, ?_, h.finalized, ?_, ?_, Nat.succ_le_succ (h.written hall), h.tries, h.most⟩
  · intro j hj
    rcases List.mem_cons.1 hj with rfl | hj
    · exact hk
    · exact h.requested j hj
  · intro j hj hunwritten
    rcases List.mem_cons.1 hj with rfl | hj
    · exact ⟨hclaimed, hstatus⟩
    · exact absurd (hall j hj) hunwritten
  · intro hwritten
    exact absurd (hwritten k List.mem_cons_self) hunfinalized

/-- The `finalize` of the attempt that holds the row keeps what is known of the row. -/
theorem RowOK.finalize_step (h : RowOK n row) (hk : k < n) (hclaimed : row.claimedBy = some k)
    {data : Finalization} (hcount : data.attemptCount = row.attemptCount + 1)
    (hlt : row.attemptCount < maxDeliveryAttempts)
    (htries : ¬ data.status.Final → data.attemptCount < maxDeliveryAttempts) :
    RowOK n (row.finalize k data) := by
  have hall : ∀ j ∈ row.requestedBy, j ∈ (row.finalize k data).finalizedBy := by
    intro j hj
    by_cases hwritten : j ∈ row.finalizedBy
    · exact List.mem_cons_of_mem _ hwritten
    · have hj' := (h.unwritten j hj hwritten).1
      rw [hclaimed] at hj'
      cases hj'
      exact List.mem_cons_self
  have hle : row.requestedBy.length ≤ data.attemptCount := by
    rw [hcount]
    exact h.requests
  refine ⟨h.claimed, h.requested, ?_, ?_, fun _ => hle, Nat.le_succ_of_le hle, htries, ?_⟩
  · intro j hj
    rcases List.mem_cons.1 hj with rfl | hj
    · exact hk
    · exact h.finalized j hj
  · intro j hj hunwritten
    exact absurd (hall j hj) hunwritten
  · change data.attemptCount ≤ _
    rw [hcount]
    exact hlt

/-- What a step of the attempt `k` makes of its row. -/
structure RowStep (k n : Nat) (row row' : QueuedDelivery) : Prop where
  ok : RowOK n row'
  others : ∀ j ≠ k, Keeps j row row'
  final : row.status.Final → row'.status = row.status

theorem RowOK.same (h : RowOK n row) (k : Nat) : RowStep k n row row :=
  ⟨h, fun j _ => .refl j row, fun _ => rfl⟩

/-- A step that leaves the rows as they are takes the attempt to its next point. -/
theorem AttemptAt.quiet (h : AttemptAt signing k delivery rest row) {rest' : Task Unit}
    (point : Point signing k delivery rest' row) : AttemptAt signing k delivery rest' row :=
  ⟨h.tries, h.held, point⟩

/-- What a step of the attempt `k` leaves: its row has been changed or not, every other row is as it
was, and the attempt is at its next point. -/
structure Advances (signing : Signing) (k n : Nat) (delivery : ClaimedDelivery) (rest : Task Unit)
    (s s' : Store) (row row' : QueuedDelivery) : Prop where
  rows : ∀ i, s'.deliveries[i]? = if i = delivery.id then some row' else s.deliveries[i]?
  step : RowStep k n row row'
  next : AttemptAt signing k delivery rest row'

variable {c : Choice} {s : Store} {a : Act} {f : Except Error a.Answer → Task Unit}

/-- The rows after a step that leaves them as they are. -/
theorem getElem?_same_rows {s' : Store} {id : Nat} (hrow : s.deliveries[id]? = some row)
    (hsame : s'.deliveries = s.deliveries) (i : Nat) :
    s'.deliveries[i]? = if i = id then some row else s.deliveries[i]? := by
  rw [hsame]
  split
  · next hi => rw [hi, hrow]
  · rfl

/-- A step that leaves the rows as they are. -/
theorem AttemptAt.advances_quiet (h : AttemptAt signing k delivery (.await a f) row)
    (hrow : s.deliveries[delivery.id]? = some row) (hok : RowOK n row)
    (hsame : (perform k a c s).2.deliveries = s.deliveries)
    (point : Point signing k delivery (f (perform k a c s).1) row) :
    Advances signing k n delivery (f (perform k a c s).1) s (perform k a c s).2 row row := by
  exact ⟨getElem?_same_rows hrow hsame, hok.same k, h.quiet point⟩

/-- The rows after a change of the row of an attempt. -/
theorem getElem?_modify_row {l : List QueuedDelivery} {id : Nat} (hrow : l[id]? = some row)
    (g : QueuedDelivery → QueuedDelivery) (i : Nat) :
    (l.modify id g)[i]? = if i = id then some (g row) else l[i]? := by
  rw [List.getElem?_modify]
  by_cases hi : i = id
  · subst hi
    rw [hrow, if_pos rfl]
    simp
  · rw [if_neg hi]
    simp [Ne.symm hi]

/-- The tables after a `finalize` of an existing row that takes effect. -/
theorem perform_finalize {id : Nat} (hrow : s.deliveries[id]? = some row)
    (hf : c.fault ≠ .failed) (data : Finalization) :
    (perform k (.finalize id data) c s).2 = { s with
      deliveries := s.deliveries.modify id (QueuedDelivery.finalize k data) } := by
  have hlt : id < s.deliveries.length := (List.getElem?_eq_some_iff.1 hrow).1
  have hdone : Store.finalize k id data s = .ok ((), { s with
      deliveries := s.deliveries.modify id (QueuedDelivery.finalize k data) }) := if_pos hlt
  rw [perform, transact_of_ok hdone, if_neg hf]

/-- The attempt makes its request, or fails to and closes. -/
theorem AttemptAt.step_sending (h : AttemptAt signing k delivery (.await a f) row)
    (hrow : s.deliveries[delivery.id]? = some row) (hok : RowOK n row) (hk : k < n)
    (hund : writes (.await a f) = true → c.fault ≠ .failed → row.claimedBy = some k)
    {startedAt : Nat} {subscription : Subscriber} {timestamp : Nat}
    (point : .await a f = deliver signing delivery startedAt subscription timestamp)
    (hreq : k ∉ row.requestedBy) (hfin : k ∉ row.finalizedBy) :
    ∃ row',
      Advances signing k n delivery (f (perform k a c s).1) s (perform k a c s).2 row row' := by
  cases point
  by_cases hf : c.fault = .failed
  · refine ⟨row, h.advances_quiet hrow hok (congrArg Store.deliveries
      (congrArg Prod.snd (if_pos hf))) ?_⟩
    dsimp only [perform]
    rw [if_pos hf]
    exact .closing (closing_recordOutcome delivery startedAt _) hfin
  · have hclaimed := hund rfl hf
    obtain ⟨hstatus, hcount⟩ := h.held hclaimed hfin
    refine ⟨row.requested k, ?_, ⟨?_, ?_, fun _ => rfl⟩, h.tries,
      fun _ _ => ⟨hstatus, hcount⟩, ?_⟩
    · dsimp only [perform]
      rw [if_neg hf]
      exact getElem?_modify_row hrow _
    · exact hok.requested_step hk hclaimed hstatus hreq hfin
    · intro j hj
      refine ⟨⟨fun hmem => ?_, List.mem_cons_of_mem _⟩, .rfl, fun hj' => ⟨hj', rfl, rfl⟩⟩
      rcases List.mem_cons.1 hmem with rfl | hmem
      · exact absurd rfl hj
      · exact hmem
    · dsimp only [perform]
      rw [if_neg hf]
      exact .receiving startedAt rfl List.mem_cons_self hfin

/-- The attempt before its request: it goes on to the next point before it, makes its request, or
closes. -/
theorem AttemptAt.step_asking (h : AttemptAt signing k delivery (.await a f) row)
    (hrow : s.deliveries[delivery.id]? = some row) (hok : RowOK n row) (hk : k < n)
    (hund : writes (.await a f) = true → c.fault ≠ .failed → row.claimedBy = some k)
    (point : Asking signing delivery (.await a f)) (hreq : k ∉ row.requestedBy)
    (hfin : k ∉ row.finalizedBy) :
    ∃ row',
      Advances signing k n delivery (f (perform k a c s).1) s (perform k a c s).2 row row' := by
  generalize hq : Async.await a f = q at point
  cases point with
  | starting =>
    cases hq
    exact ⟨row, h.advances_quiet hrow hok rfl (.asking (.lookingUp c.clock) hreq hfin)⟩
  | stamping startedAt subscription =>
    cases hq
    exact ⟨row, h.advances_quiet hrow hok rfl
      (.asking (.sending startedAt subscription c.clock) hreq hfin)⟩
  | lookingUp startedAt =>
    cases hq
    refine ⟨row, h.advances_quiet hrow hok rfl ?_⟩
    dsimp only [perform]
    cases read c.fault (s.subscriptions.find? fun subscription =>
        decide (subscription.id = delivery.subscriptionId)) with
    | error e => exact .ended (.error e) rfl
    | ok found =>
      cases found with
      | none => exact .closing (closing_abandonRevoked delivery startedAt) hfin
      | some subscription =>
        change Point signing k delivery (if subscription.active then _ else _) row
        by_cases hactive : subscription.active = true
        · rw [if_pos hactive]
          exact .asking (.stamping startedAt subscription) hreq hfin
        · rw [if_neg hactive]
          exact .closing (closing_abandonRevoked delivery startedAt) hfin
  | sending startedAt subscription timestamp => exact h.step_sending hrow hok hk hund hq hreq hfin

/-- The attempt with its request in flight: it closes with the outcome. -/
theorem AttemptAt.step_receiving (h : AttemptAt signing k delivery (.await a f) row)
    (hrow : s.deliveries[delivery.id]? = some row) (hok : RowOK n row) {startedAt : Nat}
    (point : .await a f = receiving delivery startedAt) (hfin : k ∉ row.finalizedBy) :
    ∃ row',
      Advances signing k n delivery (f (perform k a c s).1) s (perform k a c s).2 row row' := by
  cases point
  refine ⟨row, h.advances_quiet hrow hok rfl ?_⟩
  dsimp only [perform]
  cases c.response with
  | error e => exact .closing (closing_recordOutcome delivery startedAt _) hfin
  | ok statusCode => exact .closing (closing_recordOutcome delivery startedAt _) hfin

/-- The attempt after its request: it goes on closing, or finalizes its row and ends. -/
theorem AttemptAt.step_closing (h : AttemptAt signing k delivery (.await a f) row)
    (hrow : s.deliveries[delivery.id]? = some row) (hok : RowOK n row) (hk : k < n)
    (hund : writes (.await a f) = true → c.fault ≠ .failed → row.claimedBy = some k)
    (point : Closing delivery (.await a f)) (hfin : k ∉ row.finalizedBy) :
    ∃ row',
      Advances signing k n delivery (f (perform k a c s).1) s (perform k a c s).2 row row' := by
  cases a with
  | findSubscription id => exact point.elim
  | send request => exact point.elim
  | receive id => exact point.elim
  | now => exact ⟨row, h.advances_quiet hrow hok rfl (.closing (point _) hfin)⟩
  | logAttempt attempt =>
    refine ⟨row, h.advances_quiet hrow hok ?_ (.closing (point _) hfin)⟩
    exact transact_invariant (P := fun s' : Store => s'.deliveries = s.deliveries) rfl
      fun u s' hs => by cases hs; rfl
  | finalize id data =>
    obtain ⟨rfl, hdata, htries, -, hended⟩ := point
    obtain ⟨r, hr⟩ := hended (perform k (.finalize delivery.id data) c s).1
    by_cases hf : c.fault = .failed
    · refine ⟨row, h.advances_quiet hrow hok ?_ (.ended r hr)⟩
      rw [perform, hf]
      rfl
    · have hclaimed := hund rfl hf
      obtain ⟨hstatus, hcount⟩ := h.held hclaimed hfin
      refine ⟨row.finalize k data, ?_, ⟨?_, ?_, ?_⟩, h.tries, ?_, .ended r hr⟩
      · rw [perform_finalize hrow hf]
        exact getElem?_modify_row hrow _
      · refine hok.finalize_step hk hclaimed (hcount ▸ hdata) (hcount ▸ h.tries) fun hopen => ?_
        rw [hdata]
        exact htries hopen
      · intro j hj
        refine ⟨.rfl, ⟨fun hmem => ?_, List.mem_cons_of_mem _⟩, fun hj' => ?_⟩
        · rcases List.mem_cons.1 hmem with rfl | hmem
          · exact absurd rfl hj
          · exact hmem
        · have hkj : some k = some j := hclaimed.symm.trans hj'
          exact absurd (Option.some.inj hkj).symm hj
      · intro hfinal
        rw [hstatus] at hfinal
        exact absurd hfinal not_final_processing
      · intro _ hnot
        exact absurd List.mem_cons_self hnot

/-- A step of an attempt that is undisturbed takes it and its row to the next point. -/
theorem AttemptAt.step (h : AttemptAt signing k delivery (.await a f) row)
    (hrow : s.deliveries[delivery.id]? = some row) (hok : RowOK n row) (hk : k < n)
    (hund : writes (.await a f) = true → c.fault ≠ .failed → row.claimedBy = some k) :
    ∃ row',
      Advances signing k n delivery (f (perform k a c s).1) s (perform k a c s).2 row row' := by
  cases h.point with
  | asking point unrequested unfinalized =>
    exact h.step_asking hrow hok hk hund point unrequested unfinalized
  | receiving startedAt point requested unfinalized =>
    exact h.step_receiving hrow hok point unfinalized
  | closing point unfinalized => exact h.step_closing hrow hok hk hund point unfinalized
  | ended r point => cases point

/-! ## A claim -/

/-- A due row is pending or processing. -/
theorem open_of_due {now : Nat} (h : row.due now = true) :
    row.status = .pending ∨ row.status = .processing := by
  unfold QueuedDelivery.due at h
  cases hstatus : row.status with
  | pending => exact .inl rfl
  | processing => exact .inr rfl
  | delivered =>
    rw [hstatus] at h
    cases h
  | abandoned =>
    rw [hstatus] at h
    cases h

theorem not_final_of_due {now : Nat} (h : row.due now = true) : ¬ row.status.Final := by
  rcases open_of_due h with hs | hs
  · rw [hs]
    rintro (h | h) <;> cases h
  · rw [hs]
    exact not_final_processing

/-- What a claim takes are due rows, each with its id. -/
theorem mem_dueBatch {limit now : Nat} {locked : List Nat} {l : List QueuedDelivery} {id : Nat}
    (h : (row, id) ∈ dueBatch limit now locked l) : l[id]? = some row ∧ row.due now = true := by
  have hmem := (List.perm_insertionSort _ _).mem_iff.1 (List.mem_of_mem_take h)
  obtain ⟨hzip, hdue⟩ := List.mem_filter.1 hmem
  rw [Bool.and_eq_true] at hdue
  exact ⟨List.mem_zipIdx_iff_getElem?.1 hzip, hdue.1⟩

/-- A claim takes no row twice. -/
theorem nodup_dueBatch (limit now : Nat) (locked : List Nat) (l : List QueuedDelivery) :
    ((dueBatch limit now locked l).map Prod.snd).Nodup := by
  have hzip : (l.zipIdx.map Prod.snd).Nodup := by
    rw [List.zipIdx_map_snd]
    exact List.nodup_range'
  refine ((List.take_sublist _ _).map _).nodup ?_
  refine ((List.perm_insertionSort _ _).map Prod.snd).nodup_iff.2 ?_
  exact (List.filter_sublist.map _).nodup hzip

/-- A claim that takes an id takes its row. -/
theorem mem_dueBatch_of_id {limit now : Nat} {locked : List Nat} {l : List QueuedDelivery}
    {id : Nat} (hrow : l[id]? = some row)
    (hid : id ∈ (dueBatch limit now locked l).map Prod.snd) :
    (row, id) ∈ dueBatch limit now locked l := by
  obtain ⟨⟨row', id'⟩, hx, rfl⟩ := List.mem_map.1 hid
  have hrow' := (mem_dueBatch hx).1
  cases hrow.symm.trans hrow'
  exact hx

/-- The place of an id among those that a claim takes. -/
theorem idxOf_dueBatch {limit now : Nat} {locked : List Nat} {l : List QueuedDelivery} {i id : Nat}
    (h : (dueBatch limit now locked l)[i]? = some (row, id)) :
    ((dueBatch limit now locked l).map Prod.snd).idxOf id = i := by
  obtain ⟨hi, hget⟩ := List.getElem?_eq_some_iff.1 h
  have hi' : i < ((dueBatch limit now locked l).map Prod.snd).length := by rwa [List.length_map]
  have hget' : ((dueBatch limit now locked l).map Prod.snd)[i] = id := by
    rw [List.getElem_map, hget]
  rw [← hget']
  exact (nodup_dueBatch limit now locked l).idxOf_getElem i hi'

/-- A row that a claim hands to the attempt `k`. -/
def QueuedDelivery.taken (row : QueuedDelivery) (k now : Nat) : QueuedDelivery :=
  { row with
    status := .processing
    lockedAt := some now
    claimedBy := some k }

/-- The rows after a claim. -/
theorem getElem?_claimBatch (limit first now : Nat) (locked : List Nat) (s : Store) (id : Nat) :
    (claimBatch limit first now locked s).2.deliveries[id]? = s.deliveries[id]?.map fun row =>
      if id ∈ (dueBatch limit now locked s.deliveries).map Prod.snd then
        row.taken (first + ((dueBatch limit now locked s.deliveries).map Prod.snd).idxOf id) now
      else row := by
  simp only [claimBatch, List.getElem?_mapIdx, QueuedDelivery.taken]

/-- A claim takes over no request whose outcome has not been written, so it keeps what is known of
the row. -/
theorem RowOK.taken (h : RowOK n row) {now m : Nat} (hdue : row.due now = true)
    (hund : row.status = .processing → ∀ j ∈ row.requestedBy, j ∈ row.finalizedBy) (hnm : n ≤ m)
    (hk : k < m) : RowOK m (row.taken k now) := by
  have hall : ∀ j ∈ row.requestedBy, j ∈ row.finalizedBy := by
    rcases open_of_due hdue with hpending | hprocessing
    · intro j hj
      by_contra hunwritten
      have hstatus := (h.unwritten j hj hunwritten).2
      rw [hpending] at hstatus
      cases hstatus
    · exact hund hprocessing
  have hopen := not_final_of_due hdue
  refine ⟨?_, fun j hj => (h.requested j hj).trans_le hnm,
    fun j hj => (h.finalized j hj).trans_le hnm, fun j hj hnot => absurd (hall j hj) hnot,
    fun _ => h.written hall, h.requests, fun _ => h.tries hopen, h.most⟩
  rintro j hj
  cases hj
  exact hk

/-- An attempt knows of its row what it knew before it was claimed again. -/
theorem Keeps.taken {j : Nat} (now : Nat) (h : k ≠ j) : Keeps j row (row.taken k now) :=
  ⟨.rfl, .rfl, fun hj => absurd (Option.some.inj hj) h⟩

theorem RowOK.mono (h : RowOK n row) {m : Nat} (hnm : n ≤ m) : RowOK m row :=
  ⟨fun k hk => (h.claimed k hk).trans_le hnm, fun k hk => (h.requested k hk).trans_le hnm,
    fun k hk => (h.finalized k hk).trans_le hnm, h.unwritten, h.written, h.requests, h.tries,
    h.most⟩

/-- What is known of a row holds when it is enqueued. -/
theorem RowOK.enqueued (d : WebhookDelivery) (now n : Nat) : RowOK n (.enqueued d now) where
  claimed _ h := by cases h
  requested _ h := by cases h
  finalized _ h := by cases h
  unwritten _ h := by cases h
  written _ := Nat.zero_le _
  requests := Nat.zero_le _
  tries _ := Nat.succ_pos _
  most := Nat.zero_le _

/-- The attempt that a claim starts. -/
theorem AttemptAt.start (h : RowOK n row) {now id : Nat} (hdue : row.due now = true) (hk : n ≤ k) :
    AttemptAt signing k (row.claimed id) (attemptDelivery signing (row.claimed id))
      (row.taken k now) := by
  have hopen := not_final_of_due hdue
  refine ⟨h.tries hopen, fun _ _ => ⟨rfl, rfl⟩, .asking .starting (fun hj => ?_) fun hj => ?_⟩
  · exact absurd (h.requested k hj) (Nat.not_lt.2 hk)
  · exact absurd (h.finalized k hj) (Nat.not_lt.2 hk)

/-! ## The queue -/

/-- What is known of the queue: of every row, and of every attempt with its row. -/
structure QueueOK (signing : Signing) (q : Queue) : Prop where
  rows : ∀ (id : Nat) row, q.state.deliveries[id]? = some row → RowOK q.calls.length row
  calls : ∀ (k : Nat) call, q.calls[k]? = some call → ∃ row,
    q.state.deliveries[call.input.id]? = some row ∧
      AttemptAt signing k call.input call.rest row

/-- Every row stays, and a final one keeps its status. -/
def FinalKept (q q' : Queue) : Prop :=
  ∀ (id : Nat) row, q.state.deliveries[id]? = some row → ∃ row',
    q'.state.deliveries[id]? = some row' ∧ (row.status.Final → row'.status = row.status)

theorem FinalKept.refl (q : Queue) : FinalKept q q := fun _ row h => ⟨row, h, fun _ => rfl⟩

theorem FinalKept.trans {q q' q'' : Queue} (h : FinalKept q q') (h' : FinalKept q' q'') :
    FinalKept q q'' := by
  intro id row hrow
  obtain ⟨row', hrow', hstatus⟩ := h id row hrow
  obtain ⟨row'', hrow'', hstatus'⟩ := h' id row' hrow'
  refine ⟨row'', hrow'', fun hfinal => ?_⟩
  have heq := hstatus hfinal
  rw [← heq] at hfinal ⊢
  exact hstatus' hfinal

variable {q : Queue}

/-- An attempt that goes on keeps what is known of the queue. -/
theorem QueueOK.resume (h : QueueOK signing q) (hund : Undisturbed q (.resume k c)) :
    QueueOK signing (handle signing q (.resume k c)) ∧
      FinalKept q (handle signing q (.resume k c)) := by
  rcases Service.move_cases (attempts signing) (.resume k c) q with ⟨i, hm, -⟩ |
    ⟨k', c', delivery, a, f, hm, hk, hq⟩ | ⟨o, hm, -⟩ | ⟨k', c', -, -, hq⟩
  · cases hm
  · cases hm
    obtain ⟨row, hrow, hat⟩ := h.calls k _ hk
    have hlt : k < q.calls.length := (List.getElem?_eq_some_iff.1 hk).1
    have hok := h.rows _ row hrow
    obtain ⟨row', hadv⟩ := hat.step hrow hok hlt
      fun hw hf => hund _ hk hw hf row hrow
    change QueueOK signing ((attempts signing).move (.resume k c) q) ∧
      FinalKept q ((attempts signing).move (.resume k c) q)
    rw [hq]
    refine ⟨⟨fun id row₁ hrow₁ => ?_, fun j call hcall => ?_⟩, fun id row₁ hrow₁ => ?_⟩
    · change RowOK (q.calls.set k _).length row₁
      rw [List.length_set]
      change (perform k a c q.state).2.deliveries[id]? = some row₁ at hrow₁
      rw [hadv.rows] at hrow₁
      split at hrow₁
      · cases hrow₁
        exact hadv.step.ok
      · exact h.rows id row₁ hrow₁
    · change ∃ row₁, (perform k a c q.state).2.deliveries[call.input.id]? = some row₁ ∧ _
      change (q.calls.set k _)[j]? = some call at hcall
      rw [hadv.rows]
      by_cases hjk : j = k
      · subst hjk
        rw [List.getElem?_set_self hlt] at hcall
        cases hcall
        exact ⟨row', if_pos rfl, hadv.next⟩
      · rw [List.getElem?_set_ne (Ne.symm hjk)] at hcall
        obtain ⟨row₁, hrow₁, hat₁⟩ := h.calls j call hcall
        by_cases hid : call.input.id = delivery.id
        · rw [hid] at hrow₁
          cases hrow.symm.trans hrow₁
          exact ⟨row', if_pos hid, hat₁.stable (hadv.step.others j hjk)⟩
        · exact ⟨row₁, (if_neg hid).trans hrow₁, hat₁⟩
    · change ∃ row₂, (perform k a c q.state).2.deliveries[id]? = some row₂ ∧ _
      rw [hadv.rows]
      by_cases hid : id = delivery.id
      · subst hid
        cases hrow.symm.trans hrow₁
        exact ⟨row', if_pos rfl, hadv.step.final⟩
      · exact ⟨row₁, (if_neg hid).trans hrow₁, fun _ => rfl⟩
  · cases hm
  · change QueueOK signing ((attempts signing).move (.resume k c) q) ∧
      FinalKept q ((attempts signing).move (.resume k c) q)
    rw [hq]
    exact ⟨h, .refl q⟩

/-- The attempts that a claim starts. -/
theorem calls_claim (signing : Signing) (q : Queue) (now : Nat) (locked : List Nat) :
    (handle signing q (.claim now locked)).calls = q.calls ++
      (dueBatch batchSize now locked q.state.deliveries).map fun x =>
        ⟨x.1.claimed x.2, attemptDelivery signing (x.1.claimed x.2)⟩ := by
  simp only [handle, claimBatch, List.map_map]
  rfl

/-- A claim keeps what is known of the queue. -/
theorem QueueOK.claim (h : QueueOK signing q) {now : Nat} {locked : List Nat}
    (hund : Undisturbed q (.claim now locked)) :
    QueueOK signing (handle signing q (.claim now locked)) ∧
      FinalKept q (handle signing q (.claim now locked)) := by
  have hrows := getElem?_claimBatch batchSize q.calls.length now locked q.state
  change ∀ id : Nat, (handle signing q (.claim now locked)).state.deliveries[id]? = _ at hrows
  have hcalls := calls_claim signing q now locked
  have hlen := congrArg List.length hcalls
  rw [List.length_append, List.length_map] at hlen
  refine ⟨⟨fun id row₁ hrow₁ => ?_, fun k call hcall => ?_⟩, fun id row hrow => ?_⟩
  · rw [hrows] at hrow₁
    obtain ⟨row, hrow, rfl⟩ := Option.map_eq_some_iff.1 hrow₁
    rw [hlen]
    split
    · next hid =>
      have hx := mem_dueBatch_of_id hrow hid
      have hlt := List.idxOf_lt_length_iff.2 hid
      rw [List.length_map] at hlt
      exact (h.rows id row hrow).taken (mem_dueBatch hx).2 (hund _ hx) (Nat.le_add_right _ _)
        (Nat.add_lt_add_left hlt _)
    · exact (h.rows id row hrow).mono (Nat.le_add_right _ _)
  · rw [hcalls] at hcall
    rcases Nat.lt_or_ge k q.calls.length with hlt | hge
    · rw [List.getElem?_append_left hlt] at hcall
      obtain ⟨row, hrow, hat⟩ := h.calls k call hcall
      rw [hrows, hrow]
      refine ⟨_, rfl, hat.stable ?_⟩
      split
      · exact .taken now (by omega)
      · exact .refl k row
    · rw [List.getElem?_append_right hge, List.getElem?_map] at hcall
      obtain ⟨⟨row, id⟩, hx, rfl⟩ := Option.map_eq_some_iff.1 hcall
      have hmem := List.mem_of_getElem? hx
      obtain ⟨hrow, hdue⟩ := mem_dueBatch hmem
      have htaken : (handle signing q (.claim now locked)).state.deliveries[id]? =
          some (row.taken k now) := by
        rw [hrows, hrow, Option.map_some, if_pos (List.mem_map_of_mem hmem), idxOf_dueBatch hx,
          Nat.add_sub_cancel' hge]
      exact ⟨_, htaken, .start (h.rows id row hrow) hdue hge⟩
  · refine ⟨_, (hrows id).trans (congrArg _ hrow), fun hfinal => ?_⟩
    split
    · next hid =>
      exact absurd hfinal (not_final_of_due (mem_dueBatch (mem_dueBatch_of_id hrow hid)).2)
    · rfl

/-- An undisturbed event keeps what is known of the queue. -/
theorem QueueOK.step (h : QueueOK signing q) {e : Event} (hund : Undisturbed q e) :
    QueueOK signing (handle signing q e) ∧ FinalKept q (handle signing q e) := by
  cases e with
  | subscribe subscription => exact ⟨⟨h.rows, h.calls⟩, .refl q⟩
  | revoke id => exact ⟨⟨h.rows, h.calls⟩, .refl q⟩
  | claim now locked => exact h.claim hund
  | resume k c => exact h.resume hund
  | enqueue d now =>
    have hold : ∀ (id : Nat) row, q.state.deliveries[id]? = some row →
        (q.state.deliveries ++ [.enqueued d now])[id]? = some row := by
      intro id row hrow
      rw [List.getElem?_append_left (List.getElem?_eq_some_iff.1 hrow).1]
      exact hrow
    refine ⟨⟨fun id row hrow => ?_, fun k call hcall => ?_⟩,
      fun id row hrow => ⟨row, hold id row hrow, fun _ => rfl⟩⟩
    · change (q.state.deliveries ++ [.enqueued d now])[id]? = some row at hrow
      rcases List.mem_append.1 (List.mem_of_getElem? hrow) with hmem | hmem
      · obtain ⟨id', hid'⟩ := List.mem_iff_getElem?.1 hmem
        exact h.rows id' row hid'
      · cases List.mem_singleton.1 hmem
        exact .enqueued d now _
    · obtain ⟨row, hrow, hat⟩ := h.calls k call hcall
      exact ⟨row, hold _ row hrow, hat⟩

/-- What is known of the queue holds in every state of an undisturbed run. -/
theorem queueOK_exec (signing : Signing) {events : List Event}
    (hund : ∀ t ∈ (queue signing).trace (queue signing).init events, Undisturbed t.pre t.input) :
    QueueOK signing ((queue signing).exec (queue signing).init events) := by
  refine Machine.invariant_of (I := QueueOK signing)
    (C := fun t => Undisturbed t.pre t.input) ⟨?_, ?_⟩ ?_ hund
  · intro id row hrow
    cases hrow
  · intro k call hcall
    cases hcall
  · rintro e q u q' hq hC hi
    cases hi
    exact (hq.step hC).1

/-- An attempt with a request in flight is the last one that has claimed the row. -/
theorem QueueOK.claimed_of_inFlight (h : QueueOK signing q) {id : Nat}
    (hf : inFlight q k id = true) :
    ∃ row, q.state.deliveries[id]? = some row ∧ row.claimedBy = some k := by
  unfold inFlight at hf
  split at hf
  · next delivery deliveryId f hcall =>
    obtain rfl := of_decide_eq_true hf
    obtain ⟨row, hrow, hat⟩ := h.calls k _ hcall
    cases hat.point with
    | asking point unrequested unfinalized =>
      dsimp only at point
      generalize hq : Async.await (Act.receive deliveryId) f = rest at point
      cases point <;> cases hq
    | receiving startedAt point requested unfinalized =>
      dsimp only at hrow point
      cases point
      exact ⟨row, hrow, ((h.rows _ row hrow).unwritten k requested unfinalized).1⟩
    | closing point unfinalized => exact point.elim
    | ended r point => cases point
  · cases hf

/-- **The outcomes of deliveries are final and bounded, in every undisturbed run**: for any number
of workers that claim and attempt deliveries at any time, with stalls, failing writes and lost
answers, a delivered or abandoned row never changes its status again, at most
`MAX_DELIVERY_ATTEMPTS` requests are made for a row, and no two attempts have a request for the same
row in flight. -/
theorem outcomes_final (signing : Signing) {events : List Event}
    (hund : ∀ t ∈ (queue signing).trace (queue signing).init events, Undisturbed t.pre t.input) :
    OutcomesFinal signing events := by
  have hpart : ∀ es₁ es₂, events = es₁ ++ es₂ →
      QueueOK signing ((queue signing).exec (queue signing).init es₁) := by
    rintro es₁ es₂ rfl
    exact queueOK_exec signing fun t ht => hund t (Machine.mem_trace_append ht)
  refine ⟨fun es₁ es₂ es₃ hes id row hrow hfinal => ?_, fun es₁ es₂ hes row hmem => ?_,
    fun es₁ es₂ hes id i j hi hj => ?_⟩
  · subst hes
    have hkept : FinalKept ((queue signing).exec (queue signing).init es₁)
        ((queue signing).exec (queue signing).init (es₁ ++ es₂)) := by
      refine Machine.related_of (R := FinalKept) FinalKept.refl
        (fun _ _ _ => FinalKept.trans) fun t ht => ?_
      have htund := hund t (Machine.mem_trace_append ht)
      obtain ⟨is₁, e, is₂, heq, rfl⟩ := Machine.mem_trace.1 ht
      have hq := hpart is₁ (e :: is₂ ++ es₃) (by rw [heq, List.append_assoc])
      exact (hq.step htund).2
    obtain ⟨row', hrow', hstatus⟩ := hkept id row hrow
    exact ⟨row', hrow', hstatus hfinal⟩
  · obtain ⟨id, hid⟩ := List.mem_iff_getElem?.1 hmem
    exact ((hpart es₁ es₂ hes).rows id row hid).requests_le
  · obtain ⟨row, hrow, hclaimed⟩ := (hpart es₁ es₂ hes).claimed_of_inFlight hi
    obtain ⟨row', hrow', hclaimed'⟩ := (hpart es₁ es₂ hes).claimed_of_inFlight hj
    cases hrow.symm.trans hrow'
    exact Option.some.inj (hclaimed.symm.trans hclaimed')

/-- A signature that is the text that is signed. -/
def plainSigning : Signing := ⟨fun e => e.invoiceId, fun secret rawBody => secret ++ rawBody⟩

/-- A subscription, and a delivery for it that is enqueued at the time 0. -/
def oneDelivery : List Event :=
  [.subscribe ⟨⟨"s", ["*"], true⟩, "https://subscriber", "secret"⟩,
    .enqueue ⟨"s", "repaid", "key", ⟨"42", "repaid", 0, 0⟩⟩ 0]

/-- The first steps of an attempt at a time, with the response to its request. -/
def goesOn (k steps now statusCode : Nat) : List Event :=
  List.replicate steps (.resume k ⟨.none, now, .ok statusCode⟩)

/-- A delivery that fails and is delivered when it is retried. -/
theorem outcomes_final_retried :
    OutcomesFinal plainSigning (oneDelivery ++ [.claim 0 []] ++ goesOn 0 10 1 500 ++
      [.claim 60001 []] ++ goesOn 1 9 60002 200 ++ [.claim 400000 []]) :=
  outcomes_final plainSigning (by decide +kernel)

/-- The worker stalls for five minutes before it finalizes a failed attempt; meanwhile the row is
claimed again and delivered. -/
def deliveredMeanwhile : List Event :=
  oneDelivery ++ [.claim 0 []] ++ goesOn 0 7 1 500 ++ [.claim 300001 []] ++ goesOn 1 9 300002 200

/-- Then the worker finalizes its attempt. -/
def stalled : List Event := deliveredMeanwhile ++ goesOn 0 3 300003 500

/-- The worker stalls for five minutes before it makes its request, and makes it while the attempt
of another worker has one in flight. -/
def overlapping : List Event :=
  oneDelivery ++ [.claim 0 []] ++ goesOn 0 3 1 200 ++ [.claim 300001 []] ++
    goesOn 1 4 300002 200 ++ goesOn 0 1 300003 200

/-- The log cannot be written: the row is claimed and attempted again every five minutes. -/
def unlogged : List Event :=
  oneDelivery ++ (List.range 8).flatMap fun i => .claim (i * 300001) [] ::
    goesOn i 6 (i * 300001) 500 ++ [.resume i ⟨.failed, 0, .ok 500⟩]

/-- A delivered row becomes pending again, two attempts have a request for a row in flight, and
eight requests are made for a row. -/
theorem outcomes_not_final :
    ¬ OutcomesFinal plainSigning stalled ∧ ¬ OutcomesFinal plainSigning overlapping ∧
      ¬ OutcomesFinal plainSigning unlogged := by
  refine ⟨fun h => ?_, fun h => ?_, fun h => ?_⟩
  · have hdelivered : ∃ row ∈ ((queue plainSigning).exec (queue plainSigning).init
        deliveredMeanwhile).state.deliveries[0]?, row.status = .delivered := by decide +kernel
    have hpending : ∃ row ∈ ((queue plainSigning).exec (queue plainSigning).init
        stalled).state.deliveries[0]?, row.status = .pending := by decide +kernel
    obtain ⟨row, hrow, hstatus⟩ := hdelivered
    obtain ⟨row', hrow', hstatus'⟩ := h.final deliveredMeanwhile (goesOn 0 3 300003 500) []
      (List.append_nil _).symm 0 row hrow (.inl hstatus)
    obtain ⟨row'', hrow'', hstatus''⟩ := hpending
    cases hrow'.symm.trans hrow''
    rw [hstatus, hstatus''] at hstatus'
    cases hstatus'
  · exact absurd (h.alone overlapping [] (List.append_nil _).symm 0 0 1 (by decide +kernel)
      (by decide +kernel)) (by decide)
  · have hmany : ¬ ∀ row ∈ ((queue plainSigning).exec (queue plainSigning).init
        unlogged).state.deliveries, row.requestedBy.length ≤ maxDeliveryAttempts := by
      decide +kernel
    exact hmany (h.bounded unlogged [] (List.append_nil _).symm)

end WebhookWorker

end Backend

end InvoiceFi
