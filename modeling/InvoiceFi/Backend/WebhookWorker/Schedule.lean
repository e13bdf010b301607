import InvoiceFi.Backend.WebhookWorker.Outcomes
import Mathlib.Data.List.MinMax

/-!
# Retries follow the published schedule

What the attempts of a delivery come to is read off the history of the queue: an attempt decides
when it finds the subscription gone, when its request fails, or when the response is in
(`decides`), and its request starts with the step that sends it (`starts`). The attempt counter of
the row, the log and the next time of the row all follow these decisions, each at its own distance,
and `Stage` is how far an attempt has come in writing its decision down.

The runs are those in which every attempt finishes with its writes before its row could be claimed
again (`Finishes`) and the clocks of the workers agree. There a row is at rest or in the hands of
one attempt (`Progress`), and `schedule_kept` reads the published schedule off that invariant.
-/

namespace InvoiceFi

namespace Backend

namespace WebhookWorker

/-! ## The history of a delivery -/

/-- A step of the queue. -/
abbrev QueueStep := Step Queue Event Empty Unit

/-- The time of an event of a worker, by the clock the workers agree on. -/
def Event.clock : Event → Option Nat
  | .claim now _ => some now
  | .resume _ c => some c.clock
  | .subscribe _ | .revoke _ | .enqueue .. => none

/-- What an attempt comes to: a 2xx answer, no or another answer, or no active subscription. -/
inductive Verdict where
  | succeeded
  | failed
  | inactive
  deriving DecidableEq

/-- An attempt that has come to a verdict, with the time. -/
structure Decision where
  attemptNumber : Nat
  verdict : Verdict
  time : Nat
  deriving DecidableEq

/-- What an attempt learns from the answer to an action. -/
def learn : (a : Act) → Except Error a.Answer → Option Verdict
  | .findSubscription _, .ok none => some .inactive
  | .findSubscription _, .ok (some subscription) =>
    if subscription.active then none else some .inactive
  | .send _, .error _ => some .failed
  | .receive _, .error _ => some .failed
  | .receive _, .ok statusCode =>
    if 200 ≤ statusCode ∧ statusCode ≤ 299 then some .succeeded else some .failed
  | _, _ => none

/-- The decision of an attempt when it gets the answer to an action. -/
def decision (k : Nat) (delivery : ClaimedDelivery) (a : Act) (c : Choice) (s : Store) :
    Option Decision :=
  (learn a (perform k a c s).1).map fun verdict =>
    ⟨delivery.attemptCount + 1, verdict, c.clock⟩

/-- The attempt of the row that a step decides. -/
def decides (id : Nat) (t : QueueStep) : Option Decision :=
  match t.input with
  | .resume k c =>
    match t.pre.calls[k]? with
    | some ⟨delivery, .await a _⟩ =>
      if delivery.id = id then decision k delivery a c t.pre.state else none
    | _ => none
  | _ => none

/-- The attempt of the row whose HTTP request a step starts, with the time. -/
def starts (id : Nat) (t : QueueStep) : Option (Nat × Nat) :=
  match t.input with
  | .resume k c =>
    match t.pre.calls[k]? with
    | some ⟨delivery, .await (.send _) _⟩ =>
      if delivery.id = id then some (delivery.attemptCount + 1, c.clock) else none
    | _ => none
  | _ => none

/-- The step claims the row, or starts a request for it. -/
def Attempts (id : Nat) (t : QueueStep) : Prop :=
  (starts id t).isSome ∨ ∃ now locked, t.input = .claim now locked ∧
    id ∈ (dueBatch batchSize now locked t.pre.state.deliveries).map Prod.snd

/-- The decided attempts of the row, oldest first. -/
def decisions (id : Nat) (h : List QueueStep) : List Decision := h.filterMap (decides id)

/-- The logged attempts of the row, oldest first. -/
def logged (id : Nat) (s : Store) : List DeliveryAttempt :=
  s.attempts.filter fun attempt => decide (attempt.deliveryId = id)

/-- No attempt of the row is in flight. -/
def Idle (id : Nat) (q : Queue) : Prop :=
  ∀ call ∈ q.calls, call.input.id = id → call.result?.isSome

/-! ## Runs in which attempts finish -/

/-- The attempt is about to write its outcome. -/
def finalizing : Task Unit → Bool
  | .await (.finalize ..) _ => true
  | _ => false

/-- The attempt ends with the answer to what it awaits. -/
def ends (k : Nat) (c : Choice) (s : Store) : Task Unit → Bool
  | .await a f =>
    match f (perform k a c s).1 with
    | .done _ => true
    | .await .. => false
  | .done _ => false

/-- The event leaves no attempt unfinished: a claim takes no row over from an attempt, and an
attempt ends with a `finalize` that takes effect. -/
def Finishes (q : Queue) : Event → Prop
  | .claim now locked => ∀ x ∈ dueBatch batchSize now locked q.state.deliveries,
    x.1.status ≠ .processing
  | .resume k c => ∀ call ∈ q.calls[k]?, ends k c q.state call.rest = true →
    finalizing call.rest = true ∧ c.fault ≠ .failed
  | _ => True

instance (q : Queue) : (e : Event) → Decidable (Finishes q e)
  | .claim now locked => inferInstanceAs (Decidable (∀ x ∈ dueBatch _ now locked _, _))
  | .resume k _ => inferInstanceAs (Decidable (∀ call ∈ q.calls[k]?, _))
  | .subscribe _ | .revoke _ | .enqueue .. => inferInstanceAs (Decidable True)

/-- The time by which the next attempt after a failed one may start. -/
def Decision.RetriedBy (d : Decision) (time : Nat) : Prop :=
  ∃ delayMs, retryScheduleMs[d.attemptNumber - 1]? = some delayMs ∧ d.time + delayMs ≤ time

/-- The published schedule, for every row and after every part of a run.
* `numbered`: the logged attempts are numbered from 1 on, no more than `MAX_DELIVERY_ATTEMPTS`.
* `spaced`: the request of the attempt after a failed one starts when the delay is over.
* `last`: after a 2xx answer the row is neither claimed nor requested.
* `settled`: with no attempt in flight, the log has all decided attempts, the row is delivered
  exactly if the last one succeeded, abandoned exactly if the last of all failed or the subscription
  was found inactive, and pending otherwise. -/
structure OnSchedule (signing : Signing) (events : List Event) : Prop where
  numbered : ∀ es₁ es₂, events = es₁ ++ es₂ → ∀ id,
    ∃ k ≤ maxDeliveryAttempts,
      (logged id ((queue signing).exec (queue signing).init es₁).state).map
        DeliveryAttempt.attemptNumber = List.range' 1 k
  spaced : ∀ t ∈ (queue signing).trace (queue signing).init events,
    ∀ t' ∈ (queue signing).trace (queue signing).init events, ∀ id d time,
      decides id t = some d → d.verdict = .failed →
      starts id t' = some (d.attemptNumber + 1, time) → d.RetriedBy time
  last : ∀ id, ((queue signing).trace (queue signing).init events).Pairwise fun t t' =>
    (∃ d ∈ decides id t, d.verdict = .succeeded) → ¬ Attempts id t'
  settled : ∀ es₁ es₂, events = es₁ ++ es₂ → ∀ (id : Nat) (row : QueuedDelivery),
    ((queue signing).exec (queue signing).init es₁).state.deliveries[id]? = some row →
    Idle id ((queue signing).exec (queue signing).init es₁) →
    let ds := decisions id ((queue signing).trace (queue signing).init es₁)
    (logged id ((queue signing).exec (queue signing).init es₁).state).map
        (fun attempt => (attempt.attemptNumber, attempt.success)) =
      ds.map (fun d => (d.attemptNumber, decide (d.verdict = .succeeded))) ∧
    (row.status = .delivered ↔ ∃ d ∈ ds.getLast?, d.verdict = .succeeded) ∧
    (row.status = .abandoned ↔ ∃ d ∈ ds,
      (d.verdict = .failed ∧ d.attemptNumber = maxDeliveryAttempts) ∨ d.verdict = .inactive) ∧
    (row.status ≠ .delivered → row.status ≠ .abandoned → row.status = .pending)

/-! ## How far an attempt has come -/

/-- What a decision makes of its row. -/
def Decision.status (d : Decision) : DeliveryStatus :=
  match d.verdict with
  | .succeeded => .delivered
  | .inactive => .abandoned
  | .failed => if d.attemptNumber < maxDeliveryAttempts then .pending else .abandoned

/-- The first `n` attempts have been decided, and all of them failed. -/
structure Failures (n : Nat) (ds : List Decision) : Prop where
  numbers : ds.map Decision.attemptNumber = List.range' 1 n
  failed : ∀ d ∈ ds, d.verdict = .failed

/-- The delay after the last of the decisions is over by a time. -/
def Due (ds : List Decision) (time : Nat) : Prop := ∀ d ∈ ds.getLast?, d.RetriedBy time

/-- The log has the decisions. -/
def Logs (log : List DeliveryAttempt) (ds : List Decision) : Prop :=
  log.map (fun attempt => (attempt.attemptNumber, attempt.success)) =
    ds.map fun d => (d.attemptNumber, decide (d.verdict = .succeeded))

/-- What is left of an attempt writes its decision down: it logs it, unless it has been logged, and
finalizes the row by it. -/
def Records (d : Decision) (id : Nat) : Bool → Task Unit → Prop
  | isLogged, .await .now f => ∀ now, d.time ≤ now → Records d id isLogged (f (.ok now))
  | false, .await (.logAttempt attempt) f =>
    attempt.deliveryId = id ∧ attempt.attemptNumber = d.attemptNumber ∧
      attempt.success = decide (d.verdict = .succeeded) ∧ Records d id true (f (.ok ())) ∧
      ∀ e, f (.error e) = .done (.error e)
  | true, .await (.finalize id' data) f =>
    id' = id ∧ data.attemptCount = d.attemptNumber ∧ data.status = d.status ∧
      (d.status = .pending → ∃ time ∈ data.nextAttemptAt, d.RetriedBy time) ∧ ∀ r, f r = .done r
  | _, _ => False

/-- How far an attempt that is under way has come at a time, with the log of its row and the
decisions: it is before its request, at it, or writes its decision down. -/
inductive Stage (signing : Signing) (time : Nat) (delivery : ClaimedDelivery)
    (log : List DeliveryAttempt) (ds : List Decision) (rest : Task Unit) : Prop
  | asking (point : Asking signing delivery rest) (failures : Failures delivery.attemptCount ds)
      (due : Due ds time) (logs : Logs log ds)
  | receiving (startedAt : Nat) (point : rest = receiving delivery startedAt)
      (failures : Failures delivery.attemptCount ds) (logs : Logs log ds)
  | recording (before : List Decision) (d : Decision) (isLogged : Bool)
      (point : Records d delivery.id isLogged rest)
      (failures : Failures delivery.attemptCount before)
      (number : d.attemptNumber = delivery.attemptCount + 1) (past : d.time ≤ time)
      (decided : ds = before ++ [d]) (logs : Logs log (if isLogged then ds else before))

/-- A row that no attempt holds, with its log and the decisions: it waits for its next attempt, or
it is over. -/
inductive Rests (row : QueuedDelivery) (log : List DeliveryAttempt) (ds : List Decision) : Prop
  | waiting (status : row.status = .pending) (tries : row.attemptCount < maxDeliveryAttempts)
      (failures : Failures row.attemptCount ds) (due : Due ds row.nextAttemptAt)
      (logs : Logs log ds)
  | closed (n : Nat) (before : List Decision) (d : Decision) (failures : Failures n before)
      (number : d.attemptNumber = n + 1) (tries : n < maxDeliveryAttempts)
      (decided : ds = before ++ [d]) (status : row.status = d.status)
      (final : d.status ≠ .pending) (logs : Logs log ds)

/-- Where a row stands at a time: it rests, or one attempt holds it. -/
inductive Progress (signing : Signing) (time id : Nat) (q : Queue) (row : QueuedDelivery)
    (ds : List Decision) : Prop
  | resting (rests : Rests row (logged id q.state) ds) (idle : Idle id q)
  | attempting (k : Nat) (delivery : ClaimedDelivery) (rest : Task Unit)
      (call : q.calls[k]? = some ⟨delivery, rest⟩) (ofRow : delivery.id = id)
      (status : row.status = .processing) (tries : delivery.attemptCount < maxDeliveryAttempts)
      (stage : Stage signing time delivery (logged id q.state) ds rest)
      (alone : ∀ j call, q.calls[j]? = some call → call.input.id = id → j ≠ k →
        call.result?.isSome)

/-- What is known of the queue at a time, with its history: of every row, and of an id that is not
yet the id of a row. -/
structure OnTime (signing : Signing) (time : Nat) (h : List QueueStep) (q : Queue) : Prop where
  rows : ∀ (id : Nat) row, q.state.deliveries[id]? = some row →
    Progress signing time id q row (decisions id h)
  fresh : ∀ id : Nat, q.state.deliveries[id]? = none →
    (∀ call ∈ q.calls, call.input.id ≠ id) ∧ logged id q.state = [] ∧ decisions id h = []

variable {signing : Signing} {time k : Nat} {delivery : ClaimedDelivery} {rest : Task Unit}
  {row row' : QueuedDelivery} {log : List DeliveryAttempt} {ds : List Decision} {d : Decision}
  {q : Queue} {h : List QueueStep}

/-! ## Time goes on -/

theorem Decision.RetriedBy.mono {time' : Nat} (hd : d.RetriedBy time) (hle : time ≤ time') :
    d.RetriedBy time' := by
  obtain ⟨delayMs, hdelay, hby⟩ := hd
  exact ⟨delayMs, hdelay, hby.trans hle⟩

theorem Stage.mono {time' : Nat} (hstage : Stage signing time delivery log ds rest)
    (hle : time ≤ time') : Stage signing time' delivery log ds rest := by
  cases hstage with
  | asking point failures due logs =>
    exact .asking point failures (fun d hd => (due d hd).mono hle) logs
  | receiving startedAt point failures logs => exact .receiving startedAt point failures logs
  | recording before d isLogged point failures number past decided logs =>
    exact .recording before d isLogged point failures number (past.trans hle) decided logs

theorem OnTime.mono {time' : Nat} (hon : OnTime signing time h q) (hle : time ≤ time') :
    OnTime signing time' h q := by
  refine ⟨fun id row hrow => ?_, hon.fresh⟩
  cases hon.rows id row hrow with
  | resting rests idle => exact .resting rests idle
  | attempting k delivery rest call ofRow status tries stage alone =>
    exact .attempting k delivery rest call ofRow status tries (stage.mono hle) alone

/-! ## Writing a decision down -/

/-- The status of a decision for a failed attempt, by the delay that follows it. -/
theorem Decision.status_failed (hd : d.verdict = .failed) (hpos : 0 < d.attemptNumber) :
    d.status = if (retryScheduleMs[d.attemptNumber - 1]?).isSome then .pending else .abandoned := by
  have hiff : d.attemptNumber < maxDeliveryAttempts ↔
      (retryScheduleMs[d.attemptNumber - 1]?).isSome = true := by
    rw [isSome_getElem?, maxDeliveryAttempts]
    omega
  simp only [Decision.status, hd, hiff]

/-- The `finalize` of an outcome follows the decision with its success. -/
theorem records_finalizeOutcome {outcome : Outcome}
    (hnumber : d.attemptNumber = delivery.attemptCount + 1)
    (hverdict : d.verdict = if outcome.success then .succeeded else .failed) :
    Records d delivery.id true (finalizeOutcome delivery outcome) := by
  unfold finalizeOutcome
  split
  · next hsuccess =>
    rw [if_pos hsuccess] at hverdict
    have hstatus : d.status = .delivered := by rw [Decision.status, hverdict]
    intro now hle
    exact ⟨rfl, hnumber.symm, hstatus.symm, fun h => absurd (hstatus.symm.trans h) nofun,
      fun r => rfl⟩
  · next hsuccess =>
    rw [if_neg hsuccess] at hverdict
    have hstatus := Decision.status_failed hverdict (by omega)
    rw [hnumber] at hstatus
    dsimp only
    rw [nextRetryDelayMs_eq (Nat.succ_pos _)]
    cases hdelay : retryScheduleMs[delivery.attemptCount + 1 - 1]? with
    | none =>
      rw [hdelay] at hstatus
      intro lastAttemptAt hle
      exact ⟨rfl, hnumber.symm, hstatus.symm, fun h => absurd (hstatus.symm.trans h) nofun,
        fun r => rfl⟩
    | some delayMs =>
      rw [hdelay] at hstatus
      -- the clock is read once for the next time of the row, and once for the time of the attempt
      intro now hle lastAttemptAt hle'
      refine ⟨rfl, hnumber.symm, hstatus.symm, fun _ => ⟨now + delayMs, rfl, delayMs, ?_, ?_⟩,
        fun r => rfl⟩
      · rw [hnumber, hdelay]
      · exact Nat.add_le_add_right hle delayMs

/-- The end of an attempt with an outcome writes the decision with its success down. -/
theorem records_recordOutcome {outcome : Outcome} (startedAt : Nat)
    (hnumber : d.attemptNumber = delivery.attemptCount + 1)
    (hverdict : d.verdict = if outcome.success then .succeeded else .failed) :
    Records d delivery.id false (recordOutcome delivery startedAt outcome) := by
  intro now hle
  refine ⟨rfl, hnumber.symm, ?_, records_finalizeOutcome hnumber hverdict, fun e => rfl⟩
  rw [hverdict]
  cases outcome.success <;> rfl

/-- The end of an attempt whose subscription is gone writes that down. -/
theorem records_abandonRevoked (startedAt : Nat)
    (hnumber : d.attemptNumber = delivery.attemptCount + 1) (hverdict : d.verdict = .inactive) :
    Records d delivery.id false (abandonRevoked delivery startedAt) := by
  have hstatus : d.status = .abandoned := by rw [Decision.status, hverdict]
  intro now hle
  refine ⟨rfl, hnumber.symm, ?_, fun lastAttemptAt hle' => ?_, fun e => rfl⟩
  · rw [hverdict]
    rfl
  · exact ⟨rfl, hnumber.symm, hstatus.symm, fun h => absurd (hstatus.symm.trans h) nofun,
      fun r => rfl⟩

/-- An attempt that writes its decision down has not ended. -/
theorem Records.waits {id : Nat} {isLogged : Bool} (hrec : Records d id isLogged rest) :
    ∃ a f, rest = .await a f := by
  cases rest with
  | done r => cases isLogged <;> exact hrec.elim
  | await a f => exact ⟨a, f, rfl⟩

/-- An attempt that is under way has not ended. -/
theorem Stage.waits (hstage : Stage signing time delivery log ds rest) :
    ∃ a f, rest = .await a f := by
  cases hstage with
  | asking point failures due logs => cases point <;> exact ⟨_, _, rfl⟩
  | receiving startedAt point failures logs =>
    subst point
    exact ⟨_, _, rfl⟩
  | recording before d isLogged point failures number past decided logs => exact point.waits

/-! ## A step of an attempt -/

/-- What a step leaves of the tables, for an attempt of the row `id`: only that row and its log may
have changed. -/
structure Touches (id : Nat) (s s' : Store) (row' : QueuedDelivery) : Prop where
  rows : ∀ i, s'.deliveries[i]? = if i = id then some row' else s.deliveries[i]?
  logs : ∀ i, i ≠ id → logged i s' = logged i s

/-- What a step makes of an attempt that is under way: it stays so, or ends with its row at rest. -/
def Goes (signing : Signing) (time : Nat) (delivery : ClaimedDelivery) (s' : Store)
    (row' : QueuedDelivery) (ds : List Decision) (rest : Task Unit) : Prop :=
  (row'.status = .processing ∧
    Stage signing time delivery (logged delivery.id s') ds rest) ∨
  ((∃ r, rest = .done r) ∧ Rests row' (logged delivery.id s') ds)

variable {c : Choice} {s : Store} {a : Act} {f : Except Error a.Answer → Task Unit}

/-- A step that leaves the tables as they are. -/
theorem touches_refl (hrow : s.deliveries[delivery.id]? = some row) {s' : Store}
    (hdeliveries : s'.deliveries = s.deliveries) (hattempts : s'.attempts = s.attempts) :
    Touches delivery.id s s' row ∧ logged delivery.id s' = logged delivery.id s := by
  have hlog : ∀ i, logged i s' = logged i s := fun i => by rw [logged, logged, hattempts]
  exact ⟨⟨getElem?_same_rows hrow hdeliveries, fun i _ => hlog i⟩, hlog delivery.id⟩

/-- A step that leaves the tables as they are, and the attempt under way. -/
theorem goes_quiet (hrow : s.deliveries[delivery.id]? = some row)
    (hstatus : row.status = .processing) {s' : Store} (hdeliveries : s'.deliveries = s.deliveries)
    (hattempts : s'.attempts = s.attempts)
    (hnext : Stage signing time delivery (logged delivery.id s) ds rest) :
    Touches delivery.id s s' row ∧ Goes signing time delivery s' row ds rest := by
  obtain ⟨htouches, hlog⟩ := touches_refl hrow hdeliveries hattempts
  refine ⟨htouches, .inl ⟨hstatus, ?_⟩⟩
  rw [hlog]
  exact hnext

/-- A decision after failed attempts starts the writing. -/
theorem stage_decided {verdict : Verdict} (hfailures : Failures delivery.attemptCount ds)
    (hlogs : Logs log ds)
    (hrec : Records ⟨delivery.attemptCount + 1, verdict, time⟩ delivery.id false rest) :
    Stage signing time delivery log (ds ++ [⟨delivery.attemptCount + 1, verdict, time⟩]) rest :=
  .recording ds _ false hrec hfailures rfl le_rfl rfl hlogs

/-- The attempt looks its subscription up: it goes on, or finds none that is active. -/
theorem goes_lookingUp (hrow : s.deliveries[delivery.id]? = some row)
    (hstatus : row.status = .processing) (hclock : c.clock = time) (startedAt : Nat)
    (hfin : ends k c s (.await a f) = true →
      finalizing (.await a f) = true ∧ c.fault ≠ .failed)
    (point : .await a f = lookUp signing delivery startedAt)
    (failures : Failures delivery.attemptCount ds) (due : Due ds time)
    (logs : Logs (logged delivery.id s) ds) :
    ∃ row', Touches delivery.id s (perform k a c s).2 row' ∧
      Goes signing time delivery (perform k a c s).2 row'
        (ds ++ (decision k delivery a c s).toList) (f (perform k a c s).1) := by
  subst hclock
  cases point
  refine ⟨row, goes_quiet hrow hstatus rfl rfl ?_⟩
  dsimp only [perform, decision] at hfin ⊢
  cases hread : read c.fault (s.subscriptions.find? fun subscription =>
      decide (subscription.id = delivery.subscriptionId)) with
  | error e =>
    -- a lookup that fails would end the attempt without its writes
    dsimp only [ends, perform] at hfin
    rw [hread] at hfin
    exact absurd (hfin rfl).1 nofun
  | ok found =>
    cases found with
    | none => exact stage_decided failures logs (records_abandonRevoked startedAt rfl rfl)
    | some subscription =>
      change Stage signing c.clock delivery _ (ds ++ (Option.map _
        (if subscription.active then none else some Verdict.inactive)).toList)
        (if subscription.active then _ else _)
      by_cases hactive : subscription.active = true
      · rw [if_pos hactive, if_pos hactive]
        exact (List.append_nil ds).symm ▸
          .asking (.stamping startedAt subscription) failures due logs
      · rw [if_neg hactive, if_neg hactive]
        exact stage_decided failures logs (records_abandonRevoked startedAt rfl rfl)

/-- The attempt makes its request, or fails to. -/
theorem goes_sending (hrow : s.deliveries[delivery.id]? = some row)
    (hstatus : row.status = .processing) (hclock : c.clock = time) (startedAt : Nat)
    (subscription : Subscriber) (timestamp : Nat)
    (point : .await a f = deliver signing delivery startedAt subscription timestamp)
    (failures : Failures delivery.attemptCount ds) (logs : Logs (logged delivery.id s) ds) :
    ∃ row', Touches delivery.id s (perform k a c s).2 row' ∧
      Goes signing time delivery (perform k a c s).2 row'
        (ds ++ (decision k delivery a c s).toList) (f (perform k a c s).1) := by
  subst hclock
  cases point
  by_cases hf : c.fault = .failed
  · refine ⟨row, goes_quiet hrow hstatus ?_ ?_ ?_⟩
    · exact congrArg Store.deliveries (congrArg Prod.snd (if_pos hf))
    · exact congrArg Store.attempts (congrArg Prod.snd (if_pos hf))
    · dsimp only [perform, decision]
      rw [if_pos hf]
      exact stage_decided failures logs (records_recordOutcome startedAt rfl rfl)
  · refine ⟨row.requested k, ?_⟩
    dsimp only [perform, decision]
    rw [if_neg hf]
    refine ⟨⟨getElem?_modify_row hrow _, fun i _ => rfl⟩, .inl ⟨hstatus, ?_⟩⟩
    exact (List.append_nil ds).symm ▸ .receiving startedAt rfl failures logs

/-- The attempt before its request: it goes on to the next point before it, makes its request, or
comes to a decision. -/
theorem goes_asking (hrow : s.deliveries[delivery.id]? = some row)
    (hstatus : row.status = .processing) (hclock : c.clock = time)
    (hfin : ends k c s (.await a f) = true →
      finalizing (.await a f) = true ∧ c.fault ≠ .failed)
    (point : Asking signing delivery (.await a f)) (failures : Failures delivery.attemptCount ds)
    (due : Due ds time) (logs : Logs (logged delivery.id s) ds) :
    ∃ row', Touches delivery.id s (perform k a c s).2 row' ∧
      Goes signing time delivery (perform k a c s).2 row'
        (ds ++ (decision k delivery a c s).toList) (f (perform k a c s).1) := by
  subst hclock
  generalize hq : Async.await a f = q at point
  cases point with
  | starting =>
    cases hq
    refine ⟨row, goes_quiet hrow hstatus rfl rfl ?_⟩
    exact (List.append_nil ds).symm ▸ .asking (.lookingUp c.clock) failures due logs
  | stamping startedAt subscription =>
    cases hq
    refine ⟨row, goes_quiet hrow hstatus rfl rfl ?_⟩
    exact (List.append_nil ds).symm ▸
      .asking (.sending startedAt subscription c.clock) failures due logs
  | lookingUp startedAt =>
    exact goes_lookingUp hrow hstatus rfl startedAt hfin hq failures due logs
  | sending startedAt subscription timestamp =>
    exact goes_sending hrow hstatus rfl startedAt subscription timestamp hq failures logs

/-- The attempt with its request in flight: it comes to a decision with the response. -/
theorem goes_receiving (hrow : s.deliveries[delivery.id]? = some row)
    (hstatus : row.status = .processing) (hclock : c.clock = time) {startedAt : Nat}
    (point : .await a f = receiving delivery startedAt)
    (failures : Failures delivery.attemptCount ds) (logs : Logs (logged delivery.id s) ds) :
    ∃ row', Touches delivery.id s (perform k a c s).2 row' ∧
      Goes signing time delivery (perform k a c s).2 row'
        (ds ++ (decision k delivery a c s).toList) (f (perform k a c s).1) := by
  subst hclock
  cases point
  refine ⟨row, goes_quiet hrow hstatus rfl rfl ?_⟩
  dsimp only [perform, decision]
  cases c.response with
  | error e => exact stage_decided failures logs (records_recordOutcome startedAt rfl rfl)
  | ok statusCode =>
    change Stage signing c.clock delivery _ (ds ++ (Option.map _
      (if 200 ≤ statusCode ∧ statusCode ≤ 299 then some Verdict.succeeded
        else some Verdict.failed)).toList) (recordOutcome delivery startedAt (.ofStatus statusCode))
    rw [Outcome.ofStatus]
    split
    · exact stage_decided failures logs (records_recordOutcome startedAt rfl rfl)
    · exact stage_decided failures logs (records_recordOutcome startedAt rfl rfl)

theorem logged_append_self {id : Nat} {attempt : DeliveryAttempt} (s : Store)
    (hid : attempt.deliveryId = id) :
    logged id { s with attempts := s.attempts ++ [attempt] } = logged id s ++ [attempt] := by
  simp [logged, hid]

theorem logged_append_ne {id : Nat} {attempt : DeliveryAttempt} (s : Store)
    (hid : attempt.deliveryId ≠ id) :
    logged id { s with attempts := s.attempts ++ [attempt] } = logged id s := by
  simp [logged, hid]

/-- The log has a decision that is logged. -/
theorem Logs.concat {attempt : DeliveryAttempt} (hlogs : Logs log ds)
    (hattempt : attempt.attemptNumber = d.attemptNumber)
    (hsuccess : attempt.success = decide (d.verdict = .succeeded)) :
    Logs (log ++ [attempt]) (ds ++ [d]) := by
  rw [Logs, List.map_append, List.map_append, hlogs, List.map_singleton, List.map_singleton,
    hattempt, hsuccess]

theorem Failures.length_eq {n : Nat} (hfailures : Failures n ds) : ds.length = n := by
  have hlen := congrArg List.length hfailures.numbers
  rwa [List.length_map, List.length_range'] at hlen

theorem Failures.number_le {n : Nat} (hfailures : Failures n ds) (hd : d ∈ ds) :
    d.attemptNumber ≤ n := by
  have hmem := List.mem_map_of_mem (f := Decision.attemptNumber) hd
  rw [hfailures.numbers, List.mem_range'_1] at hmem
  omega

/-- A decision leaves its row delivered, abandoned or pending, by its verdict and its number. -/
theorem Decision.status_cases (d : Decision) :
    (d.verdict = .succeeded ∧ d.status = .delivered) ∨
    (d.verdict = .inactive ∧ d.status = .abandoned) ∨
    (d.verdict = .failed ∧ d.attemptNumber < maxDeliveryAttempts ∧ d.status = .pending) ∨
    (d.verdict = .failed ∧ maxDeliveryAttempts ≤ d.attemptNumber ∧ d.status = .abandoned) := by
  unfold Decision.status
  cases d.verdict with
  | succeeded => exact .inl ⟨rfl, rfl⟩
  | inactive => exact .inr (.inl ⟨rfl, rfl⟩)
  | failed =>
    rcases Nat.lt_or_ge d.attemptNumber maxDeliveryAttempts with hlt | hge
    · exact .inr (.inr (.inl ⟨rfl, hlt, if_pos hlt⟩))
    · exact .inr (.inr (.inr ⟨rfl, hge, if_neg (Nat.not_lt.2 hge)⟩))

/-- A decision that leaves its row pending is that of a failed attempt that was not the last. -/
theorem Decision.of_pending (hstatus : d.status = .pending) :
    d.verdict = .failed ∧ d.attemptNumber < maxDeliveryAttempts := by
  rcases d.status_cases with ⟨-, h⟩ | ⟨-, h⟩ | ⟨hverdict, hlt, -⟩ | ⟨-, -, h⟩
  · cases hstatus.symm.trans h
  · cases hstatus.symm.trans h
  · exact ⟨hverdict, hlt⟩
  · cases hstatus.symm.trans h

/-- The attempt after some failed ones has the next number. -/
theorem Failures.numbers_concat {n : Nat} (hfailures : Failures n ds)
    (hnumber : d.attemptNumber = n + 1) :
    (ds ++ [d]).map Decision.attemptNumber = List.range' 1 (n + 1) := by
  rw [List.map_append, hfailures.numbers, List.range'_1_concat, List.map_singleton, hnumber,
    Nat.add_comm]

/-- One more failed attempt. -/
theorem Failures.concat {n : Nat} (hfailures : Failures n ds) (hnumber : d.attemptNumber = n + 1)
    (hverdict : d.verdict = .failed) : Failures (n + 1) (ds ++ [d]) := by
  refine ⟨hfailures.numbers_concat hnumber, fun d' hd' => ?_⟩
  rcases List.mem_append.1 hd' with hd' | hd'
  · exact hfailures.failed d' hd'
  · cases List.mem_singleton.1 hd'
    exact hverdict

/-- The row is at rest once the decision of its attempt has been written down. -/
theorem rests_finalize (k : Nat) (row : QueuedDelivery) {n : Nat} {before : List Decision}
    {data : Finalization} (htries : n < maxDeliveryAttempts) (failures : Failures n before)
    (number : d.attemptNumber = n + 1) (decided : ds = before ++ [d])
    (hcount : data.attemptCount = d.attemptNumber) (hdata : data.status = d.status)
    (hdue : d.status = .pending → ∃ time ∈ data.nextAttemptAt, d.RetriedBy time)
    (logs : Logs log ds) : Rests (row.finalize k data) log ds := by
  by_cases hpending : d.status = .pending
  · obtain ⟨hverdict, hlt⟩ := Decision.of_pending hpending
    obtain ⟨time, htime, hby⟩ := hdue hpending
    have hnumber : (row.finalize k data).attemptCount = n + 1 := hcount.trans number
    refine .waiting (hdata.trans hpending) ?_ ?_ ?_ logs
    · rw [hnumber, ← number]
      exact hlt
    · rw [hnumber, decided]
      exact failures.concat number hverdict
    · intro d' hd'
      rw [decided, List.getLast?_concat] at hd'
      cases hd'
      change d.RetriedBy (data.nextAttemptAt.getD _)
      rw [htime]
      exact hby
  · exact .closed n before d failures number htries decided hdata hpending logs

/-- The attempt logs its decision. -/
theorem goes_logging (hrow : s.deliveries[delivery.id]? = some row)
    (hstatus : row.status = .processing) {attempt : DeliveryAttempt}
    {f : Except Error Unit → Task Unit}
    (hfin : ends k c s (.await (.logAttempt attempt) f) = true →
      finalizing (.await (.logAttempt attempt) f) = true ∧ c.fault ≠ .failed)
    {before : List Decision}
    (point : Records d delivery.id false (.await (.logAttempt attempt) f))
    (failures : Failures delivery.attemptCount before)
    (number : d.attemptNumber = delivery.attemptCount + 1) (past : d.time ≤ time)
    (decided : ds = before ++ [d]) (logs : Logs (logged delivery.id s) before) :
    ∃ row', Touches delivery.id s (perform k (.logAttempt attempt) c s).2 row' ∧
      Goes signing time delivery (perform k (.logAttempt attempt) c s).2 row' ds
        (f (perform k (.logAttempt attempt) c s).1) := by
  obtain ⟨hid, hattempt, hsuccess, hnext, herror⟩ := point
  by_cases hf : c.fault = .none
  · have hdone : perform k (.logAttempt attempt) c s =
        (.ok (), { s with attempts := s.attempts ++ [attempt] }) := by
      rw [perform, hf]
      rfl
    refine ⟨row, ?_⟩
    rw [hdone]
    refine ⟨⟨getElem?_same_rows hrow rfl, fun i hi => ?_⟩, .inl ⟨hstatus, ?_⟩⟩
    · exact logged_append_ne s (hid.trans_ne (Ne.symm hi))
    · refine .recording before d true hnext failures number past decided ?_
      rw [logged_append_self s hid, if_pos rfl, decided]
      exact logs.concat hattempt hsuccess
  · -- an answer that is an error would end the attempt before its `finalize`
    obtain ⟨e, he⟩ : ∃ e, (perform k (.logAttempt attempt) c s).1 = .error e := by
      rw [perform]
      cases hfault : c.fault with
      | none => exact absurd hfault hf
      | failed => exact ⟨_, rfl⟩
      | lost => exact ⟨_, rfl⟩
    rw [ends, he, herror] at hfin
    exact absurd (hfin rfl).1 (fun h => by cases h)

/-- The attempt finalizes its row, and ends. -/
theorem goes_finalizing (hrow : s.deliveries[delivery.id]? = some row)
    (htries : delivery.attemptCount < maxDeliveryAttempts) {id : Nat} {data : Finalization}
    {f : Except Error Unit → Task Unit}
    (hfin : ends k c s (.await (.finalize id data) f) = true →
      finalizing (.await (.finalize id data) f) = true ∧ c.fault ≠ .failed)
    {before : List Decision} (point : Records d delivery.id true (.await (.finalize id data) f))
    (failures : Failures delivery.attemptCount before)
    (number : d.attemptNumber = delivery.attemptCount + 1) (decided : ds = before ++ [d])
    (logs : Logs (logged delivery.id s) ds) :
    ∃ row', Touches delivery.id s (perform k (.finalize id data) c s).2 row' ∧
      Goes signing time delivery (perform k (.finalize id data) c s).2 row' ds
        (f (perform k (.finalize id data) c s).1) := by
  obtain ⟨rfl, hcount, hdata, hdue, hended⟩ := point
  have hf : c.fault ≠ .failed := by
    rw [ends, hended] at hfin
    exact (hfin rfl).2
  refine ⟨row.finalize k data, ?_⟩
  rw [perform_finalize hrow hf]
  refine ⟨⟨getElem?_modify_row hrow _, fun i _ => rfl⟩, .inr ⟨⟨_, hended _⟩, ?_⟩⟩
  exact rests_finalize k row htries failures number decided hcount hdata hdue logs

/-- An attempt that writes its decision down: it reads the clock, logs the decision, or finalizes
the row and ends. -/
theorem goes_recording (hrow : s.deliveries[delivery.id]? = some row)
    (hstatus : row.status = .processing) (hclock : c.clock = time)
    (htries : delivery.attemptCount < maxDeliveryAttempts)
    (hfin : ends k c s (.await a f) = true →
      finalizing (.await a f) = true ∧ c.fault ≠ .failed)
    {before : List Decision} {isLogged : Bool} (point : Records d delivery.id isLogged (.await a f))
    (failures : Failures delivery.attemptCount before)
    (number : d.attemptNumber = delivery.attemptCount + 1) (past : d.time ≤ time)
    (decided : ds = before ++ [d])
    (logs : Logs (logged delivery.id s) (if isLogged then ds else before)) :
    ∃ row', Touches delivery.id s (perform k a c s).2 row' ∧
      Goes signing time delivery (perform k a c s).2 row'
        (ds ++ (decision k delivery a c s).toList) (f (perform k a c s).1) := by
  subst hclock
  cases a with
  | findSubscription id => cases isLogged <;> exact point.elim
  | send request => cases isLogged <;> exact point.elim
  | receive id => cases isLogged <;> exact point.elim
  | now =>
    have hpoint : Records d delivery.id isLogged (f (.ok c.clock)) := by
      cases isLogged <;> exact point c.clock past
    refine ⟨row, goes_quiet hrow hstatus rfl rfl ?_⟩
    exact (List.append_nil ds).symm ▸
      .recording before d isLogged hpoint failures number past decided logs
  | logAttempt attempt =>
    cases isLogged with
    | true => exact point.elim
    | false =>
      exact (List.append_nil ds).symm ▸
        goes_logging hrow hstatus hfin point failures number past decided logs
  | finalize id data =>
    cases isLogged with
    | false => exact point.elim
    | true =>
      exact (List.append_nil ds).symm ▸
        goes_finalizing hrow htries hfin point failures number decided logs

/-- A step of an attempt that is under way leaves it so, or ends it with its row at rest. -/
theorem Stage.step (hstage : Stage signing time delivery (logged delivery.id s) ds (.await a f))
    (hrow : s.deliveries[delivery.id]? = some row) (hstatus : row.status = .processing)
    (hclock : c.clock = time) (htries : delivery.attemptCount < maxDeliveryAttempts)
    (hfin : ends k c s (.await a f) = true →
      finalizing (.await a f) = true ∧ c.fault ≠ .failed) :
    ∃ row', Touches delivery.id s (perform k a c s).2 row' ∧
      Goes signing time delivery (perform k a c s).2 row'
        (ds ++ (decision k delivery a c s).toList) (f (perform k a c s).1) := by
  cases hstage with
  | asking point failures due logs =>
    exact goes_asking hrow hstatus hclock hfin point failures due logs
  | receiving startedAt point failures logs =>
    exact goes_receiving hrow hstatus hclock point failures logs
  | recording before d isLogged point failures number past decided logs =>
    exact goes_recording hrow hstatus hclock htries hfin point failures number past decided logs

/-! ## The queue -/

theorem decisions_concat (id : Nat) (h : List QueueStep) (t : QueueStep) :
    decisions id (h ++ [t]) = decisions id h ++ (decides id t).toList := by
  rw [decisions, List.filterMap_append, List.filterMap_cons, List.filterMap_nil]
  cases decides id t <;> rfl

theorem decisions_concat_of_none {id : Nat} {t : QueueStep} (hdecides : decides id t = none) :
    decisions id (h ++ [t]) = decisions id h := by
  rw [decisions_concat, hdecides]
  exact List.append_nil _

/-- What a step decides of the row of the attempt that goes on, and of the others. -/
theorem decides_resume {id : Nat} (hk : q.calls[k]? = some ⟨delivery, .await a f⟩)
    (result : Except Empty Unit) (q' : Queue) :
    decides id ⟨q, .resume k c, result, q'⟩ =
      if delivery.id = id then decision k delivery a c q.state else none := by
  simp only [decides, hk]

/-- A row stands where it stood when neither its calls nor its log have changed. -/
theorem Progress.frame {id : Nat} {q' : Queue} (hprogress : Progress signing time id q row ds)
    (hcalls : ∀ (j : Nat) call, call.input.id = id →
      (q'.calls[j]? = some call ↔ q.calls[j]? = some call))
    (hlog : logged id q'.state = logged id q.state) : Progress signing time id q' row ds := by
  cases hprogress with
  | resting rests idle =>
    refine .resting (hlog.symm ▸ rests) fun call hcall hid => ?_
    obtain ⟨j, hj⟩ := List.mem_iff_getElem?.1 hcall
    exact idle call (List.mem_of_getElem? ((hcalls j call hid).1 hj)) hid
  | attempting k delivery rest call ofRow status tries stage alone =>
    refine .attempting k delivery rest ((hcalls k _ ofRow).2 call) ofRow status tries
      (hlog.symm ▸ stage) fun j call hj hid hjk => ?_
    exact alone j call ((hcalls j call hid).1 hj) hid hjk

/-- A row that is enqueued waits for its first attempt. -/
theorem rests_enqueued (d : WebhookDelivery) (now : Nat) : Rests (.enqueued d now) [] [] := by
  refine .waiting rfl (Nat.succ_pos _) ⟨rfl, ?_⟩ ?_ rfl
  · exact List.forall_mem_nil _
  · intro d hd
    cases hd

/-- An event that changes neither the rows nor the calls. -/
theorem OnTime.unseen (hon : OnTime signing time h q) {t : QueueStep} {q' : Queue}
    (hdecides : ∀ id, decides id t = none) (hrows : q'.state.deliveries = q.state.deliveries)
    (hattempts : q'.state.attempts = q.state.attempts) (hcalls : q'.calls = q.calls) :
    OnTime signing time (h ++ [t]) q' := by
  have hlog : ∀ id, logged id q'.state = logged id q.state := by
    intro id
    rw [logged, logged, hattempts]
  refine ⟨fun id row hrow => ?_, fun id hnone => ?_⟩
  · rw [hrows] at hrow
    rw [decisions_concat_of_none (hdecides id)]
    refine (hon.rows id row hrow).frame (fun j call _ => ?_) (hlog id)
    rw [hcalls]
  · rw [hrows] at hnone
    rw [hcalls, hlog, decisions_concat_of_none (hdecides id)]
    exact hon.fresh id hnone

/-- A delivery is enqueued. -/
theorem OnTime.enqueue (hon : OnTime signing time h q) (d : WebhookDelivery) (now : Nat)
    {t : QueueStep} (hdecides : ∀ id, decides id t = none) :
    OnTime signing time (h ++ [t]) (handle signing q (.enqueue d now)) := by
  refine ⟨fun id row hrow => ?_, fun id hnone => ?_⟩
  · change (q.state.deliveries ++ [.enqueued d now])[id]? = some row at hrow
    rw [decisions_concat_of_none (hdecides id)]
    rcases Nat.lt_or_ge id q.state.deliveries.length with hlt | hge
    · rw [List.getElem?_append_left hlt] at hrow
      exact (hon.rows id row hrow).frame (fun j call _ => .rfl) rfl
    · rw [List.getElem?_append_right hge] at hrow
      obtain ⟨hcalls, hlog, hnone⟩ := hon.fresh id (List.getElem?_eq_none hge)
      cases List.mem_singleton.1 (List.mem_of_getElem? hrow)
      rw [hnone]
      refine .resting ?_ fun call hcall hid => absurd hid (hcalls call hcall)
      change Rests _ (logged id q.state) []
      rw [hlog]
      exact rests_enqueued d now
  · have hlen : (q.state.deliveries ++ [QueuedDelivery.enqueued d now]).length ≤ id :=
      List.getElem?_eq_none_iff.1 hnone
    rw [List.length_append] at hlen
    rw [decisions_concat_of_none (hdecides id)]
    exact hon.fresh id (List.getElem?_eq_none (Nat.le_of_add_right_le hlen))

/-- A row that is due and rests waits, and the delay after its last attempt is over. -/
theorem Rests.of_due {now : Nat} (hrests : Rests row log ds) (hdue : row.due now = true) :
    row.attemptCount < maxDeliveryAttempts ∧ Failures row.attemptCount ds ∧ Due ds now ∧
      Logs log ds := by
  cases hrests with
  | waiting status tries failures due logs =>
    unfold QueuedDelivery.due at hdue
    rw [status] at hdue
    exact ⟨tries, failures, fun d hd => (due d hd).mono (of_decide_eq_true hdue), logs⟩
  | closed n before d failures number tries decided status final logs =>
    have hopen := not_final_of_due hdue
    rw [status] at hopen
    refine absurd ?_ hopen
    unfold Decision.status at final ⊢
    split
    · exact .inl rfl
    · exact .inr rfl
    · next hverdict =>
      rw [hverdict] at final
      split
      · next hlt => exact absurd (if_pos hlt) final
      · exact .inr rfl

/-- The call that a claim makes for a row it takes. -/
theorem getElem?_calls_claim {now id : Nat} {locked : List Nat}
    (hx : (row, id) ∈ dueBatch batchSize now locked q.state.deliveries) :
    (handle signing q (.claim now locked)).calls[q.calls.length +
        ((dueBatch batchSize now locked q.state.deliveries).map Prod.snd).idxOf id]? =
      some ⟨row.claimed id, attemptDelivery signing (row.claimed id)⟩ := by
  obtain ⟨i, hi⟩ := List.mem_iff_getElem?.1 hx
  rw [calls_claim, idxOf_dueBatch hi, List.getElem?_append_right (Nat.le_add_right _ _),
    Nat.add_sub_cancel_left, List.getElem?_map, hi]
  rfl

/-- The calls after a claim: those that were there, and one for every row it takes. -/
theorem calls_claim_cases {now j : Nat} {locked : List Nat} {call}
    (hcall : (handle signing q (.claim now locked)).calls[j]? = some call) :
    q.calls[j]? = some call ∨ call.input.id ∈ (dueBatch batchSize now locked
        q.state.deliveries).map Prod.snd ∧ j = q.calls.length +
      ((dueBatch batchSize now locked q.state.deliveries).map Prod.snd).idxOf call.input.id := by
  rw [calls_claim] at hcall
  rcases Nat.lt_or_ge j q.calls.length with hlt | hge
  · rw [List.getElem?_append_left hlt] at hcall
    exact .inl hcall
  · rw [List.getElem?_append_right hge, List.getElem?_map] at hcall
    obtain ⟨⟨row, id⟩, hx, rfl⟩ := Option.map_eq_some_iff.1 hcall
    refine .inr ⟨List.mem_map_of_mem (List.mem_of_getElem? hx), ?_⟩
    change j = q.calls.length + List.idxOf id _
    rw [idxOf_dueBatch hx, Nat.add_sub_cancel' hge]

/-- A claim keeps the attempts that there are. -/
theorem calls_claim_kept {now j : Nat} {locked : List Nat} {call}
    (hcall : q.calls[j]? = some call) :
    (handle signing q (.claim now locked)).calls[j]? = some call := by
  rw [calls_claim, List.getElem?_append_left (List.getElem?_eq_some_iff.1 hcall).1]
  exact hcall

/-- A claim that takes over no row from an attempt. -/
theorem OnTime.claim (hon : OnTime signing time h q) {locked : List Nat}
    (hfin : Finishes q (.claim time locked)) {t : QueueStep}
    (hdecides : ∀ id, decides id t = none) :
    OnTime signing time (h ++ [t]) (handle signing q (.claim time locked)) := by
  have hrows := getElem?_claimBatch batchSize q.calls.length time locked q.state
  change ∀ id : Nat, (handle signing q (.claim time locked)).state.deliveries[id]? = _ at hrows
  have hlog : ∀ id, logged id (handle signing q (.claim time locked)).state =
      logged id q.state := fun id => rfl
  refine ⟨fun id row₁ hrow₁ => ?_, fun id hnone => ?_⟩
  · rw [hrows] at hrow₁
    obtain ⟨row, hrow, rfl⟩ := Option.map_eq_some_iff.1 hrow₁
    rw [decisions_concat_of_none (hdecides id)]
    split
    · next hid =>
      have hx := mem_dueBatch_of_id hrow hid
      have hdue := (mem_dueBatch hx).2
      cases hon.rows id row hrow with
      | attempting k delivery rest call ofRow status tries stage alone =>
        exact absurd status (hfin _ hx)
      | resting rests idle =>
        obtain ⟨htries, hfailures, hover, hlogs⟩ := rests.of_due hdue
        refine .attempting _ _ _ (getElem?_calls_claim hx) rfl rfl htries
          (.asking .starting hfailures hover hlogs) fun j call hcall hcid hj => ?_
        rcases calls_claim_cases hcall with hold | ⟨-, hnew⟩
        · exact idle call (List.mem_of_getElem? hold) hcid
        · rw [hcid] at hnew
          exact absurd hnew hj
    · next hid =>
      refine (hon.rows id row hrow).frame (fun j call hcid => ⟨fun hcall => ?_, calls_claim_kept⟩)
        (hlog id)
      rcases calls_claim_cases hcall with hold | ⟨hnew, -⟩
      · exact hold
      · rw [hcid] at hnew
        exact absurd hnew hid
  · rw [hrows, Option.map_eq_none_iff] at hnone
    obtain ⟨hcalls, hfresh⟩ := hon.fresh id hnone
    rw [decisions_concat_of_none (hdecides id)]
    refine ⟨fun call hcall hcid => ?_, hfresh⟩
    obtain ⟨j, hj⟩ := List.mem_iff_getElem?.1 hcall
    rcases calls_claim_cases hj with hold | ⟨hnew, -⟩
    · exact hcalls call (List.mem_of_getElem? hold) hcid
    · obtain ⟨⟨row, id'⟩, hx, hid'⟩ := List.mem_map.1 hnew
      have hrow := (mem_dueBatch hx).1
      rw [show id' = id from hid'.trans hcid, hnone] at hrow
      cases hrow

/-- The row of a call that is waiting is held by it. -/
theorem OnTime.held (hon : OnTime signing time h q)
    (hk : q.calls[k]? = some ⟨delivery, .await a f⟩) :
    ∃ row, q.state.deliveries[delivery.id]? = some row ∧ row.status = .processing ∧
      delivery.attemptCount < maxDeliveryAttempts ∧
      Stage signing time delivery (logged delivery.id q.state) (decisions delivery.id h)
        (.await a f) ∧
      ∀ j call, q.calls[j]? = some call → call.input.id = delivery.id → j ≠ k →
        call.result?.isSome := by
  have hmem := List.mem_of_getElem? hk
  cases hrow : q.state.deliveries[delivery.id]? with
  | none => exact absurd rfl ((hon.fresh _ hrow).1 _ hmem)
  | some row =>
    cases hon.rows _ row hrow with
    | resting rests idle => exact absurd (idle _ hmem rfl) nofun
    | attempting k' delivery' rest call ofRow status tries stage alone =>
      by_cases hkk : k = k'
      · subst hkk
        cases hk.symm.trans call
        exact ⟨row, rfl, status, tries, stage, alone⟩
      · exact absurd (alone k _ hk rfl hkk) nofun

/-- The calls of the other rows are what they were when an attempt has gone on. -/
theorem getElem?_set_call {id : Nat} (hk : q.calls[k]? = some ⟨delivery, rest⟩)
    (hid : id ≠ delivery.id) (rest' : Task Unit) (j : Nat) (call)
    (hcid : call.input.id = id) :
    (q.calls.set k ⟨delivery, rest'⟩)[j]? = some call ↔ q.calls[j]? = some call := by
  by_cases hjk : j = k
  · subst hjk
    rw [List.getElem?_set_self (List.getElem?_eq_some_iff.1 hk).1, hk]
    constructor
    · intro heq
      cases heq
      exact absurd hcid.symm hid
    · intro heq
      cases heq
      exact absurd hcid.symm hid
  · rw [List.getElem?_set_ne (Ne.symm hjk)]

/-- The row of an attempt that has gone on, or ended. -/
theorem Goes.progress {rest' : Task Unit} {s' : Store}
    (hgoes : Goes signing time delivery s' row ds rest')
    (hk : q.calls[k]? = some ⟨delivery, rest⟩)
    (htries : delivery.attemptCount < maxDeliveryAttempts)
    (halone : ∀ j call, q.calls[j]? = some call → call.input.id = delivery.id → j ≠ k →
      call.result?.isSome) :
    Progress signing time delivery.id ⟨s', q.calls.set k ⟨delivery, rest'⟩⟩ row ds := by
  have hself : (q.calls.set k ⟨delivery, rest'⟩)[k]? = some ⟨delivery, rest'⟩ :=
    List.getElem?_set_self (List.getElem?_eq_some_iff.1 hk).1
  have halone' : ∀ (j : Nat) call, (q.calls.set k ⟨delivery, rest'⟩)[j]? = some call →
      call.input.id = delivery.id → j ≠ k → call.result?.isSome := by
    intro j call hcall hcid hjk
    rw [List.getElem?_set_ne (Ne.symm hjk)] at hcall
    exact halone j call hcall hcid hjk
  rcases hgoes with ⟨hstatus, hstage⟩ | ⟨⟨r, rfl⟩, hrests⟩
  · exact .attempting k delivery rest' hself rfl hstatus htries hstage halone'
  · refine .resting hrests fun call hcall hcid => ?_
    obtain ⟨j, hj⟩ := List.mem_iff_getElem?.1 hcall
    by_cases hjk : j = k
    · subst hjk
      cases hself.symm.trans hj
      rfl
    · exact halone' j call hj hcid hjk

/-- An attempt goes on. -/
theorem OnTime.resume (hon : OnTime signing time h q) (hclock : c.clock = time)
    (hfin : Finishes q (.resume k c)) (result : Except Empty Unit) :
    OnTime signing time (h ++ [⟨q, .resume k c, result, handle signing q (.resume k c)⟩])
      (handle signing q (.resume k c)) := by
  change OnTime signing time (h ++ [⟨q, _, result, (attempts signing).move (.resume k c) q⟩])
    ((attempts signing).move (.resume k c) q)
  rcases Service.move_cases (attempts signing) (.resume k c) q with ⟨i, hm, -⟩ |
    ⟨k', c', delivery, a, f, hm, hk, hq⟩ | ⟨o, hm, -⟩ | ⟨k', c', hm, hnot, hq⟩
  · cases hm
  · cases hm
    obtain ⟨row, hrow, hstatus, htries, hstage, halone⟩ := hon.held hk
    obtain ⟨row', htouches, hgoes⟩ := hstage.step hrow hstatus hclock htries (hfin _ hk)
    rw [hq]
    change OnTime signing time (h ++ [⟨q, _, result, _⟩])
      ⟨(perform k a c q.state).2, q.calls.set k ⟨delivery, f (perform k a c q.state).1⟩⟩
    refine ⟨fun id row₁ hrow₁ => ?_, fun id hnone => ?_⟩
    · rw [htouches.rows] at hrow₁
      rw [decisions_concat, decides_resume hk]
      by_cases hid : id = delivery.id
      · subst hid
        rw [if_pos rfl] at hrow₁
        cases hrow₁
        rw [if_pos rfl]
        exact hgoes.progress hk htries halone
      · rw [if_neg hid] at hrow₁
        rw [if_neg (Ne.symm hid), Option.toList_none, List.append_nil]
        exact (hon.rows id row₁ hrow₁).frame (getElem?_set_call hk hid _) (htouches.logs id hid)
    · rw [htouches.rows] at hnone
      by_cases hid : id = delivery.id
      · rw [if_pos hid] at hnone
        cases hnone
      · rw [if_neg hid] at hnone
        obtain ⟨hcalls, hlog, hds⟩ := hon.fresh id hnone
        rw [decisions_concat, decides_resume hk, if_neg (Ne.symm hid), hds]
        refine ⟨fun call hcall hcid => ?_, (htouches.logs id hid).trans hlog, rfl⟩
        obtain ⟨j, hj⟩ := List.mem_iff_getElem?.1 hcall
        exact hcalls call (List.mem_of_getElem? ((getElem?_set_call hk hid _ j call hcid).1 hj))
          hcid
  · cases hm
  · cases hm
    rw [hq]
    refine hon.unseen (fun id => ?_) rfl rfl rfl
    unfold decides
    dsimp only
    split
    · next delivery a f hk => exact absurd hk (hnot delivery a f)
    · rfl

/-- An event in which attempts finish keeps what is known of the queue. -/
theorem OnTime.step (hon : OnTime signing time h q) {e : Event}
    (hclock : ∀ now ∈ e.clock, now = time) (hfin : Finishes q e) :
    OnTime signing time (h ++ [(queue signing).step e q]) ((queue signing).step e q).post := by
  change OnTime signing time (h ++ [⟨q, e, .ok (), handle signing q e⟩]) (handle signing q e)
  cases e with
  | subscribe subscription => exact hon.unseen (fun id => rfl) rfl rfl rfl
  | revoke id => exact hon.unseen (fun id => rfl) rfl rfl rfl
  | enqueue d now => exact hon.enqueue d now fun id => rfl
  | claim now locked =>
    obtain rfl := hclock now rfl
    exact hon.claim hfin fun id => rfl
  | resume k c => exact hon.resume (hclock c.clock rfl) hfin _

/-- What is known of the queue holds after every run in which attempts finish, at every time that
is not before its events. -/
theorem onTime_exec (signing : Signing) {events : List Event}
    (hclock : (events.filterMap Event.clock).Pairwise (· ≤ ·))
    (hfin : ∀ t ∈ (queue signing).trace (queue signing).init events, Finishes t.pre t.input)
    {time : Nat} (htime : ∀ now ∈ events.filterMap Event.clock, now ≤ time) :
    OnTime signing time ((queue signing).trace (queue signing).init events)
      ((queue signing).exec (queue signing).init events) := by
  -- the run grows at its end, and its last event is the latest
  induction events using List.reverseRecOn generalizing time with
  | nil =>
    refine ⟨fun id row hrow => ?_, fun id _ => ⟨List.forall_mem_nil _, rfl, rfl⟩⟩
    cases hrow
  | append_singleton events e ih =>
    rw [List.filterMap_append, List.pairwise_append] at hclock
    obtain ⟨hbefore, -, hlast⟩ := hclock
    have hon : ∀ time, (∀ now ∈ events.filterMap Event.clock, now ≤ time) →
        OnTime signing time ((queue signing).trace (queue signing).init events)
          ((queue signing).exec (queue signing).init events) :=
      fun time htime => ih hbefore (fun t ht => hfin t (Machine.mem_trace_append ht)) htime
    have hstep := hfin _ (Machine.step_mem_trace (queue signing) _ events e [])
    rw [Machine.step_pre, Machine.step_input] at hstep
    rw [Machine.trace_concat, Machine.exec_concat]
    cases hnow : e.clock with
    | none =>
      refine (hon time fun now hmem => htime now ?_).step (by simp [hnow]) hstep
      exact List.filterMap_append ▸ List.mem_append_left _ hmem
    | some now =>
      have hsingle : [e].filterMap Event.clock = [now] := by rw [List.filterMap_cons, hnow]; rfl
      rw [hsingle] at hlast
      refine ((hon now fun now' hmem => ?_).step (by simp [hnow]) hstep).mono ?_
      · exact hlast now' hmem now (.head _)
      · refine htime now (List.filterMap_append ▸ List.mem_append_right _ ?_)
        rw [hsingle]
        exact .head _

/-! ## What the invariant says -/

/-- As many attempts as the schedule has, numbered from 1 on. -/
def Numbered (numbers : List Nat) : Prop :=
  ∃ n ≤ maxDeliveryAttempts, numbers = List.range' 1 n

theorem Failures.numbered {n : Nat} (hfailures : Failures n ds) (htries : n < maxDeliveryAttempts) :
    Numbered (ds.map Decision.attemptNumber) :=
  ⟨n, htries.le, hfailures.numbers⟩

theorem Failures.numbered_concat {n : Nat} (hfailures : Failures n ds)
    (htries : n < maxDeliveryAttempts) (hnumber : d.attemptNumber = n + 1) :
    Numbered ((ds ++ [d]).map Decision.attemptNumber) :=
  ⟨n + 1, htries, hfailures.numbers_concat hnumber⟩

/-- The log has the numbers of the decisions it has. -/
theorem Logs.numbers (hlogs : Logs log ds) :
    log.map DeliveryAttempt.attemptNumber = ds.map Decision.attemptNumber := by
  have h := congrArg (List.map Prod.fst) hlogs
  rw [List.map_map, List.map_map] at h
  exact h

/-- The decisions of a row and the attempts in its log are numbered from 1 on. -/
theorem OnTime.numbered (hon : OnTime signing time h q) (id : Nat) :
    Numbered ((decisions id h).map Decision.attemptNumber) ∧
      Numbered ((logged id q.state).map DeliveryAttempt.attemptNumber) := by
  cases hrow : q.state.deliveries[id]? with
  | none =>
    obtain ⟨-, hlog, hds⟩ := hon.fresh id hrow
    rw [hlog, hds]
    exact ⟨⟨0, Nat.zero_le _, rfl⟩, ⟨0, Nat.zero_le _, rfl⟩⟩
  | some row =>
    cases hon.rows id row hrow with
    | resting rests idle =>
      cases rests with
      | waiting status tries failures due logs =>
        rw [logs.numbers]
        exact ⟨failures.numbered tries, failures.numbered tries⟩
      | closed n before d failures number tries decided status final logs =>
        rw [logs.numbers, decided]
        exact ⟨failures.numbered_concat tries number, failures.numbered_concat tries number⟩
    | attempting k delivery rest call ofRow status tries stage alone =>
      cases stage with
      | asking point failures due logs =>
        rw [logs.numbers]
        exact ⟨failures.numbered tries, failures.numbered tries⟩
      | receiving startedAt point failures logs =>
        rw [logs.numbers]
        exact ⟨failures.numbered tries, failures.numbered tries⟩
      | recording before d isLogged point failures number past decided logs =>
        rw [logs.numbers, decided]
        refine ⟨failures.numbered_concat tries number, ?_⟩
        cases isLogged with
        | true => exact failures.numbered_concat tries number
        | false => exact failures.numbered tries

/-- In a numbered list of decisions, the one with the number of a first part is its last one. -/
theorem getLast?_of_number {ds' : List Decision}
    (hnumbered : Numbered ((ds ++ ds').map Decision.attemptNumber)) (hd : d ∈ ds ++ ds')
    (hnumber : d.attemptNumber = ds.length) : d ∈ ds.getLast? := by
  obtain ⟨n, -, hnumbers⟩ := hnumbered
  obtain ⟨i, hi⟩ := List.mem_iff_getElem?.1 hd
  have hat := congrArg (fun l => l[i]?) hnumbers
  have hlt : i < n := by
    have hlen := congrArg List.length hnumbers
    rw [List.length_map, List.length_range'] at hlen
    rw [← hlen]
    exact (List.getElem?_eq_some_iff.1 hi).1
  rw [List.getElem?_map, hi, List.getElem?_range' hlt, Option.map_some] at hat
  have hplace : ds.length = 1 + 1 * i := hnumber.symm.trans (Option.some.inj hat)
  rw [List.getLast?_eq_getElem?, Option.mem_def, ← hi, List.getElem?_append_left (by omega)]
  congr 1
  omega

/-- Where a step starts the request of an attempt, the earlier ones have failed, and the delay after
the last of them is over. -/
theorem OnTime.of_starts (hon : OnTime signing time h q) {id : Nat} {e : Event}
    (hclock : ∀ now ∈ e.clock, now = time) {result : Except Empty Unit} {q' : Queue} {x : Nat × Nat}
    (hstarts : starts id ⟨q, e, result, q'⟩ = some x) :
    ∃ n, x = (n + 1, time) ∧ Failures n (decisions id h) ∧ Due (decisions id h) time := by
  cases e with
  | subscribe subscription => cases hstarts
  | revoke id => cases hstarts
  | enqueue d now => cases hstarts
  | claim now locked => cases hstarts
  | resume k c =>
    unfold starts at hstarts
    dsimp only at hstarts
    split at hstarts
    · next delivery request f hk =>
      split at hstarts
      · next hid =>
        subst hid
        obtain ⟨row, hrow, hstatus, htries, hstage, halone⟩ := hon.held hk
        cases hstarts
        rw [hclock c.clock rfl]
        cases hstage with
        | asking point failures due logs => exact ⟨_, rfl, failures, due⟩
        | receiving startedAt point failures logs => cases point
        | recording before d isLogged point failures number past decided logs =>
          cases isLogged <;> exact point.elim
      · cases hstarts
    · cases hstarts

/-- An attempt of a row is made only when all earlier ones have failed. -/
theorem OnTime.of_attempts (hon : OnTime signing time h q) {id : Nat} {e : Event}
    (hclock : ∀ now ∈ e.clock, now = time) (hfin : Finishes q e) {result : Except Empty Unit}
    {q' : Queue} (hattempts : Attempts id ⟨q, e, result, q'⟩) :
    ∀ d ∈ decisions id h, d.verdict = .failed := by
  rcases hattempts with hstarts | ⟨now, locked, rfl, hid⟩
  · obtain ⟨x, hx⟩ := Option.isSome_iff_exists.1 hstarts
    obtain ⟨n, -, hfailures, -⟩ := hon.of_starts hclock hx
    exact hfailures.failed
  · obtain ⟨⟨row, id⟩, hx, rfl⟩ := List.mem_map.1 hid
    obtain ⟨hrow, hdue⟩ := mem_dueBatch hx
    cases hon.rows id row hrow with
    | resting rests idle => exact (rests.of_due hdue).2.1.failed
    | attempting k delivery rest call ofRow status tries stage alone =>
      exact absurd status (hfin _ hx)

theorem Decision.status_delivered_iff : d.status = .delivered ↔ d.verdict = .succeeded := by
  rcases d.status_cases with ⟨hverdict, hstatus⟩ | ⟨hverdict, hstatus⟩ | ⟨hverdict, -, hstatus⟩ |
    ⟨hverdict, -, hstatus⟩ <;> simp [hverdict, hstatus]

theorem Decision.status_abandoned_iff (hle : d.attemptNumber ≤ maxDeliveryAttempts) :
    d.status = .abandoned ↔
      (d.verdict = .failed ∧ d.attemptNumber = maxDeliveryAttempts) ∨ d.verdict = .inactive := by
  rcases d.status_cases with ⟨hverdict, hstatus⟩ | ⟨hverdict, hstatus⟩ | ⟨hverdict, hlt, hstatus⟩ |
    ⟨hverdict, hge, hstatus⟩
  · simp [hverdict, hstatus]
  · simp [hverdict, hstatus]
  · simp [hverdict, hstatus, hlt.ne]
  · simp [hverdict, hstatus, hle.antisymm hge]

/-- Failed attempts that leave one to go are not the end of a delivery. -/
theorem Failures.not_over {n : Nat} (hfailures : Failures n ds) (htries : n < maxDeliveryAttempts) :
    ¬ ∃ d ∈ ds, (d.verdict = .failed ∧ d.attemptNumber = maxDeliveryAttempts) ∨
      d.verdict = .inactive := by
  rintro ⟨d, hd, ⟨-, hlast⟩ | hinactive⟩
  · exact absurd hlast ((hfailures.number_le hd).trans_lt htries).ne
  · cases (hfailures.failed d hd).symm.trans hinactive

/-- The status of a row at rest, and its log. -/
theorem Rests.settled (hrests : Rests row log ds) :
    Logs log ds ∧ (row.status = .delivered ↔ ∃ d ∈ ds.getLast?, d.verdict = .succeeded) ∧
    (row.status = .abandoned ↔ ∃ d ∈ ds,
      (d.verdict = .failed ∧ d.attemptNumber = maxDeliveryAttempts) ∨ d.verdict = .inactive) ∧
    (row.status ≠ .delivered → row.status ≠ .abandoned → row.status = .pending) := by
  cases hrests with
  | waiting status tries failures due logs =>
    rw [status]
    refine ⟨logs, ⟨nofun, ?_⟩, ⟨nofun, fun hover => absurd hover (failures.not_over tries)⟩,
      fun _ _ => rfl⟩
    rintro ⟨d, hd, hsucceeded⟩
    cases (failures.failed d (List.mem_of_getLast? hd)).symm.trans hsucceeded
  | closed n before d failures number tries decided status final logs =>
    subst decided
    have hle : d.attemptNumber ≤ maxDeliveryAttempts := number.trans_le tries
    have hbefore := failures.not_over tries
    rw [List.getLast?_concat, status]
    refine ⟨logs, ?_, ?_, fun hdelivered habandoned => ?_⟩
    · rw [Decision.status_delivered_iff]
      refine ⟨fun hverdict => ⟨d, rfl, hverdict⟩, ?_⟩
      rintro ⟨d', hd', hverdict⟩
      cases hd'
      exact hverdict
    · rw [Decision.status_abandoned_iff hle]
      refine ⟨fun hover => ⟨d, List.mem_append_right _ (.head _), hover⟩, ?_⟩
      rintro ⟨d', hd', hover⟩
      rcases List.mem_append.1 hd' with hd' | hd'
      · exact absurd ⟨d', hd', hover⟩ hbefore
      · cases List.mem_singleton.1 hd'
        exact hover
    · rcases d.status_cases with ⟨-, hstatus⟩ | ⟨-, hstatus⟩ | ⟨-, -, hstatus⟩ | ⟨-, -, hstatus⟩
      · exact absurd hstatus hdelivered
      · exact absurd hstatus habandoned
      · exact hstatus
      · exact absurd hstatus habandoned

/-- What is known of the queue holds after every part of a run, at some time. -/
theorem onTime_part (signing : Signing) {events : List Event}
    (hclock : (events.filterMap Event.clock).Pairwise (· ≤ ·))
    (hfin : ∀ t ∈ (queue signing).trace (queue signing).init events, Finishes t.pre t.input)
    {es₁ es₂ : List Event} (hes : events = es₁ ++ es₂) :
    ∃ time, OnTime signing time ((queue signing).trace (queue signing).init es₁)
      ((queue signing).exec (queue signing).init es₁) := by
  subst hes
  rw [List.filterMap_append] at hclock
  exact ⟨_, onTime_exec signing (List.pairwise_append.1 hclock).1
    (fun t ht => hfin t (Machine.mem_trace_append ht))
    fun now hnow => List.le_max_of_le' 0 hnow le_rfl⟩

/-- And before every event of a run, at the time of the event. -/
theorem onTime_event (signing : Signing) {events : List Event}
    (hclock : (events.filterMap Event.clock).Pairwise (· ≤ ·))
    (hfin : ∀ t ∈ (queue signing).trace (queue signing).init events, Finishes t.pre t.input)
    {es₁ es₂ : List Event} {e : Event} (hes : events = es₁ ++ e :: es₂) :
    ∃ time, (∀ now ∈ e.clock, now = time) ∧
      OnTime signing time ((queue signing).trace (queue signing).init es₁)
        ((queue signing).exec (queue signing).init es₁) := by
  cases hnow : e.clock with
  | none =>
    obtain ⟨time, hon⟩ := onTime_part signing hclock hfin hes
    exact ⟨time, nofun, hon⟩
  | some now =>
    subst hes
    rw [List.filterMap_append, List.pairwise_append] at hclock
    refine ⟨now, fun now' h => (Option.some.inj h).symm, onTime_exec signing hclock.1
      (fun t ht => hfin t (Machine.mem_trace_append ht)) fun now' hmem => ?_⟩
    exact hclock.2.2 now' hmem now (List.mem_filterMap.2 ⟨e, .head _, hnow⟩)

/-- **Webhook retries follow the published schedule.** In every run of any number of workers with
agreeing clocks, in which every attempt finishes with its writes before its row could be claimed
again, the logged attempts of a row are numbered from 1 on and no more than
`MAX_DELIVERY_ATTEMPTS`, the request of the next attempt starts when the delay after the failed one
is over, nothing follows a 2xx answer, and a row with no attempt in flight has the status of its
last attempt. -/
theorem schedule_kept (signing : Signing) {events : List Event}
    (hclock : (events.filterMap Event.clock).Pairwise (· ≤ ·))
    (hfin : ∀ t ∈ (queue signing).trace (queue signing).init events, Finishes t.pre t.input) :
    OnSchedule signing events := by
  refine ⟨fun es₁ es₂ hes id => ?_, fun t ht t' ht' id d time hd hfailed hstarts => ?_,
    fun id => ?_, fun es₁ es₂ hes id row hrow hidle => ?_⟩
  · obtain ⟨time, hon⟩ := onTime_part signing hclock hfin hes
    exact (hon.numbered id).2
  · obtain ⟨es₁, e, es₂, hes, rfl⟩ := Machine.mem_trace.1 ht'
    obtain ⟨now, hnow, hon⟩ := onTime_event signing hclock hfin hes
    obtain ⟨n, hx, hfailures, hdue⟩ := hon.of_starts hnow hstarts
    obtain ⟨hnumber, rfl⟩ := Prod.mk.inj hx
    obtain ⟨_, hall⟩ := onTime_part signing hclock hfin (List.append_nil events).symm
    have hmem : d ∈ decisions id ((queue signing).trace (queue signing).init events) :=
      List.mem_filterMap.2 ⟨t, ht, hd⟩
    have hnumbered := (hall.numbered id).1
    rw [hes, Machine.trace_append, decisions, List.filterMap_append] at hmem
    rw [hes, Machine.trace_append, decisions, List.filterMap_append] at hnumbered
    exact hdue d (getLast?_of_number hnumbered hmem
      ((Nat.succ.inj hnumber).trans hfailures.length_eq.symm))
  · refine Machine.pairwise_trace fun es₁ e es₂ hes t ht => ?_
    rintro ⟨d, hd, hsucceeded⟩ hattempts
    obtain ⟨now, hnow, hon⟩ := onTime_event signing hclock hfin hes
    have hstep := hfin _ (hes ▸ Machine.step_mem_trace (queue signing) _ es₁ e es₂)
    rw [Machine.step_pre, Machine.step_input] at hstep
    have hfailed := hon.of_attempts hnow hstep hattempts d (List.mem_filterMap.2 ⟨t, ht, hd⟩)
    rw [hsucceeded] at hfailed
    cases hfailed
  · obtain ⟨time, hon⟩ := onTime_part signing hclock hfin hes
    cases hon.rows id row hrow with
    | resting rests idle => exact rests.settled
    | attempting k delivery rest call ofRow status tries stage alone =>
      have hended := hidle _ (List.mem_of_getElem? call) ofRow
      obtain ⟨a, f, rfl⟩ := stage.waits
      cases hended

/-- A delivery that fails, and is delivered when it is retried. -/
theorem schedule_kept_retried :
    OnSchedule plainSigning (oneDelivery ++ [.claim 0 []] ++ goesOn 0 10 1 500 ++
      [.claim 60001 []] ++ goesOn 1 9 60002 200 ++ [.claim 400000 []]) :=
  schedule_kept plainSigning (by decide +kernel) (by decide +kernel)

end WebhookWorker

end Backend

end InvoiceFi
